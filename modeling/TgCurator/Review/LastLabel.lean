import TgCurator.Review.Manual

/-!
# The label that was set last

When each manual event has a later time than the ones stored for its message before it, the
listing of a message is in the order of the commits (`LaterInv.rowsOf_eq`). So what is in effect
for an identity is what the last event stored for it says: the label it sets, or the label of the
model when it clears or when there is none (`last_label_wins`).
-/

namespace TgCurator

/-! ## The last event -/

/-- An event has a later time than those stored for its message. -/
def LabelAction.Later (uuid : UuidFormat) (s : LabelState) : LabelAction → Prop
  | append event => ∀ earlier ∈ s.appended,
      uuid.parse earlier.messageId = uuid.parse event.messageId →
        earlier.createdAt < event.createdAt
  | others _ => True

/-- The events stored for a message, in the order of their commits and in canonical form. -/
def LabelState.eventsOf (uuid : UuidFormat) (s : LabelState) (messageId : ℕ) :
    List ManualLabelEventFields :=
  (s.appended.filter fun event => uuid.parse event.messageId = some messageId).map
    (·.canonical uuid)

/-- The last event stored for a message under an identity. -/
def LabelState.last (uuid : UuidFormat) (s : LabelState) (messageId : ℕ)
    (identity : String × String × String) : Option ManualLabelEventFields :=
  ((s.eventsOf uuid messageId).filter fun fields => fields.identity = identity).getLast?

/-- The label that an event with these fields sets. -/
def ManualLabelEventFields.label (fields : ManualLabelEventFields) : Option LabelValue :=
  fields.create.toOption.bind ManualLabelEvent.asLabelValue

variable {uuid : UuidFormat} {s s' : LabelState} {a : LabelAction} {event : ManualLabelEvent}
  {events : List ManualLabelEvent} {messageId : ℕ} {identity : String × String × String}

theorem ManualLabelEvent.label_eq (event : ManualLabelEvent) :
    event.toManualLabelEventFields.label = event.asLabelValue := by
  rw [ManualLabelEventFields.label, ManualLabelEventFields.create_eq_ok.mpr rfl]
  rfl

theorem ManualLabelEventFields.identity_label {fields : ManualLabelEventFields} {v : LabelValue}
    (h : fields.label = some v) : v.identity = fields.identity := by
  obtain ⟨event, hcreate, hvalue⟩ := Option.bind_eq_some_iff.mp h
  rw [ManualLabelEvent.identity_asLabelValue hvalue,
    create_eq_ok.mp (toOption_eq_some.mp hcreate)]

/-- An event that clears sets no label. -/
theorem ManualLabelEventFields.label_eq_none {fields : ManualLabelEventFields}
    (h : fields.operation = .clear) : fields.label = none := by
  cases hlabel : fields.label with
  | none => rfl
  | some v =>
    obtain ⟨event, hcreate, hvalue⟩ := Option.bind_eq_some_iff.mp hlabel
    obtain rfl := create_eq_ok.mp (toOption_eq_some.mp hcreate)
    have hset := event.isSome_asLabelValue.mp (Option.isSome_of_eq_some hvalue)
    cases h.symm.trans hset

/-- The latest of events whose times increase is the last one. -/
theorem isLatest_iff (h : events.Pairwise fun a b => a.createdAt < b.createdAt) :
    IsLatest events identity event ↔
      (events.filter fun event => event.identity = identity).getLast? = some event := by
  have hdistinct : DistinctKeys events :=
    h.imp fun hlt heq => hlt.ne (Prod.mk.inj heq).1
  have hmem : ∀ event, event ∈ events.filter (fun event => event.identity = identity) ↔
      event ∈ events ∧ event.identity = identity := by
    intro event
    rw [List.mem_filter, decide_eq_true_eq]
  have hlast : ∀ event, (events.filter fun event => event.identity = identity).getLast? =
      some event → IsLatest events identity event := by
    intro event hevent
    have hsorted : (events.filter fun event => event.identity = identity).Pairwise
        ManualLabelEvent.LE := (h.imp fun hlt => .inl hlt).sublist List.filter_sublist
    obtain ⟨hstored, hid⟩ := (hmem event).mp (List.mem_of_getLast? hevent)
    exact ⟨hstored, hid, fun other hother hother' =>
      le_getLast_of_pairwise hsorted hevent other ((hmem other).mpr ⟨hother, hother'⟩)⟩
  refine ⟨fun hlatest => ?_, hlast event⟩
  cases hfound : (events.filter fun event => event.identity = identity).getLast? with
  | none =>
    have hnone := (hmem event).mpr ⟨hlatest.mem, hlatest.identity⟩
    rw [List.getLast?_eq_none_iff.mp hfound] at hnone
    cases hnone
  | some other =>
    have hother := hlast other hfound
    rw [hdistinct.eq hother.mem hlatest.mem (hlatest.latest other hother.mem hother.identity)
      (hother.latest event hlatest.mem hlatest.identity)]

/-! ## Runs -/

/-- What holds in a run of later events: the times of the events of a message increase. -/
structure LaterInv (uuid : UuidFormat) (s : LabelState) : Prop extends RecordedInv uuid s where
  later : s.appended.Pairwise fun a b =>
    uuid.parse a.messageId = uuid.parse b.messageId → a.createdAt < b.createdAt

theorem LabelState.Fresh.laterInv (h : s.Fresh) : LaterInv uuid s := by
  refine ⟨h.recordedInv, ?_⟩
  rw [h.appended]
  exact .nil

theorem LaterInv.step (h : LaterInv uuid s) (hlater : a.Later uuid s)
    (hstep : labelStep uuid s a = some s') : LaterInv uuid s' := by
  refine ⟨h.toRecordedInv.step hstep, ?_⟩
  rcases labelStep_cases hstep with ⟨event, row, rfl, -, -, -, rfl⟩ | ⟨refs, -, rfl⟩ | rfl
  · refine List.pairwise_append.mpr ⟨h.later, List.pairwise_singleton _ _, ?_⟩
    intro earlier hearlier event' hevent'
    rw [List.mem_singleton.mp hevent']
    exact hlater earlier hearlier
  · exact h.later
  · exact h.later

/-- The times of the rows of a message increase in the order of the commits. -/
theorem LaterInv.pairwise_rows (h : LaterInv uuid s) (messageId : ℕ) :
    (s.tables.rows.filter fun row => row.messageId = messageId).Pairwise
      fun a b => a.createdAt < b.createdAt := by
  have hrows : s.tables.rows.Pairwise fun a b =>
      a.messageId = b.messageId → a.createdAt < b.createdAt := by
    refine forall₂_pairwise (fun hrow hrow' hlater heq => ?_) h.recorded h.later
    have htime := congrArg (·.createdAt) hrow.eventFields_eq
    have htime' := congrArg (·.createdAt) hrow'.eventFields_eq
    refine (htime.trans_lt (hlater ?_)).trans_eq htime'.symm
    rw [hrow.messageId, hrow'.messageId, heq]
  refine (hrows.sublist List.filter_sublist).imp_of_mem fun ha hb hlt => hlt ?_
  rw [of_decide_eq_true (List.mem_filter.mp ha).2, of_decide_eq_true (List.mem_filter.mp hb).2]

/-- The listing is in the order of the commits. -/
theorem LaterInv.rowsOf_eq (h : LaterInv uuid s) (messageId : ℕ) :
    s.tables.rowsOf messageId =
      s.tables.rows.filter fun row => row.messageId = messageId := by
  have hsorted : (s.tables.rows.filter fun row => row.messageId = messageId).Pairwise
      ManualLabelAssignmentRecord.LE :=
    (h.pairwise_rows messageId).imp fun hlt => (Prod.Lex.toLex_lt_toLex.mpr (.inl hlt)).le
  exact hsorted.insertionSort_eq

/-- In every run whose events have later times than those stored for their message before, the
listing of a message holds its events in the order of their commits, and whatever the model
assigned, the manual label of an identity is the one that the last event stored for it sets, and
the label in effect is that one, or the label of the model when the last event clears or there is
none. -/
theorem last_label_wins (uuid : UuidFormat) (s₀ s : LabelState) (h₀ : s₀.Fresh)
    (actions : List LabelAction)
    (hlater : Runs.Along (labelStep uuid) (fun s a => a.Later uuid s) s₀ actions)
    (hrun : Runs.run (labelStep uuid) s₀ actions = some s) (messageId : String) (id : ℕ)
    (hid : uuid.parse messageId = some id) :
    ∃ events, s.tables.listManualLabelHistory uuid messageId = .ok events ∧
      events.map (·.toManualLabelEventFields) = s.eventsOf uuid id ∧
      ∀ assignments v,
        (v ∈ (resolveLabelNamespaces assignments events).manual ↔
          ∃ event, s.last uuid id v.identity = some event ∧ event.label = some v) ∧
        (v ∈ (resolveLabelNamespaces assignments events).effective ↔
          (∃ event, s.last uuid id v.identity = some event ∧ event.label = some v) ∨
            (v ∈ (resolveLabelNamespaces assignments events).model ∧
              ∀ event, s.last uuid id v.identity = some event → event.label = none)) := by
  have hinv : LaterInv uuid s :=
    Runs.run_invariant (fun _ _ _ h hlater hstep => h.step hlater hstep) h₀.laterInv hlater hrun
  obtain ⟨events, hevents, hread⟩ := hinv.toRecordedInv.listManualLabelHistory_eq hid
  rw [hinv.rowsOf_eq] at hread
  have hfields : events.map (·.toManualLabelEventFields) = s.eventsOf uuid id := by
    rw [LabelState.eventsOf, hinv.toRecordedInv.canonical_filter, ← List.forall₂_eq_eq_eq,
      List.forall₂_map_left_iff, List.forall₂_map_right_iff]
    exact hread.flip
  have hsorted : events.Pairwise fun a b => a.createdAt < b.createdAt := by
    refine forall₂_pairwise (fun hrow hrow' hlt => ?_) hread (hinv.pairwise_rows id)
    have htime := congrArg (·.createdAt) hrow
    have htime' := congrArg (·.createdAt) hrow'
    exact (htime.trans_lt hlt).trans_eq htime'.symm
  have hdistinct : DistinctKeys events := hsorted.imp fun hlt heq => hlt.ne (Prod.mk.inj heq).1
  have hlast : ∀ identity, s.last uuid id identity =
      ((events.filter fun event => event.identity = identity).getLast?).map
        (·.toManualLabelEventFields) := by
    intro identity
    rw [LabelState.last, ← hfields, List.filter_map, List.getLast?_map]
    rfl
  have hmanual : ∀ assignments v, v ∈ (resolveLabelNamespaces assignments events).manual ↔
      ∃ event, s.last uuid id v.identity = some event ∧ event.label = some v := by
    intro assignments v
    rw [mem_manual hdistinct, hlast]
    constructor
    · rintro ⟨event, hlatest, hvalue⟩
      rw [isLatest_iff hsorted] at hlatest
      exact ⟨_, by rw [hlatest, Option.map_some], by rw [event.label_eq, hvalue]⟩
    · rintro ⟨fields, hfound, hvalue⟩
      obtain ⟨event, hlatest, rfl⟩ := Option.map_eq_some_iff.mp hfound
      rw [event.label_eq] at hvalue
      exact ⟨event, (isLatest_iff hsorted).mpr hlatest, hvalue⟩
  refine ⟨events, hevents, hfields, fun assignments v => ⟨hmanual assignments v, ?_⟩⟩
  rw [mem_effective hdistinct, hmanual]
  refine or_congr_right (and_congr_right fun _ => ?_)
  constructor
  · intro hnone event hevent
    cases hvalue : event.label with
    | none => rfl
    | some w =>
      have hstored := (List.mem_filter.mp (List.mem_of_getLast? hevent)).2
      have hidentity : w.identity = v.identity :=
        (ManualLabelEventFields.identity_label hvalue).trans (of_decide_eq_true hstored)
      rw [← hidentity] at hevent
      exact absurd hidentity (hnone w ((hmanual assignments w).mpr ⟨event, hevent, hvalue⟩))
  · intro hnone w hw hidentity
    obtain ⟨event, hevent, hvalue⟩ := (hmanual assignments w).mp hw
    rw [hnone event (hidentity ▸ hevent)] at hvalue
    cases hvalue

/-- Admin 7 clears the label again. -/
def spamCleared : ManualLabelEvent :=
  { spamEvent with
    eventId := sampleUuid.text 9
    operation := .clear
    createdAt := 7
    score := none
    activated := none
    checked := by decide +kernel }

/-- The row of the second event. -/
def clearedRow : ManualLabelAssignmentRecord :=
  ⟨9, 6, "global", "message", 6, none, none, 2, "spam", .clear, none, none, 7, none, 7⟩

/-- The tables after both events. -/
def clearedLabels : LabelState :=
  ⟨⟨spamReferences "published", [spamRow, clearedRow]⟩, [spamEvent, spamCleared]⟩

theorem labelStep_spamCleared : labelStep sampleUuid
    ⟨⟨spamReferences "published", [spamRow]⟩, [spamEvent]⟩ (.append spamCleared) =
      some clearedLabels := by
  have happend : LabelTables.appendManualLabel ⟨spamReferences "published", [spamRow]⟩ sampleUuid
      spamCleared = .ok (⟨spamReferences "published", [spamRow, clearedRow]⟩, spamCleared) := rfl
  rw [labelStep, happend]
  rfl

/-- The last event under each identity clears. -/
theorem last_clearedLabels {identity : String × String × String} {event : ManualLabelEventFields}
    (h : clearedLabels.last sampleUuid 6 identity = some event) : event.label = none := by
  have hevents : clearedLabels.eventsOf sampleUuid 6 =
      [spamEvent.canonical sampleUuid, spamCleared.canonical sampleUuid] := rfl
  have hidentity : (spamEvent.canonical sampleUuid).identity =
      (spamCleared.canonical sampleUuid).identity := rfl
  rw [LabelState.last, hevents] at h
  by_cases heq : (spamCleared.canonical sampleUuid).identity = identity
  · simp only [List.filter_cons, hidentity, heq, decide_true, if_true, List.filter_nil] at h
    obtain rfl := Option.some.inj h
    exact ManualLabelEventFields.label_eq_none rfl
  · simp [hidentity, heq] at h

/-- The label of the model is in effect again after the clear. -/
theorem last_label_wins_cleared :
    ∃ events, Runs.run (labelStep sampleUuid) unlabelled
        [.append spamEvent, .append spamCleared] = some clearedLabels ∧
      clearedLabels.tables.listManualLabelHistory sampleUuid (sampleUuid.text 6) = .ok events ∧
      ∀ assignments v, v ∉ (resolveLabelNamespaces assignments events).manual ∧
        (v ∈ (resolveLabelNamespaces assignments events).effective ↔
          v ∈ (resolveLabelNamespaces assignments events).model) := by
  have hlater : LabelAction.Later sampleUuid
      ⟨⟨spamReferences "published", [spamRow]⟩, [spamEvent]⟩ (.append spamCleared) := by
    intro earlier hearlier _
    rw [List.mem_singleton.mp hearlier]
    decide
  have hmeets : Runs.Along (labelStep sampleUuid) (fun s a => a.Later sampleUuid s)
      unlabelled [.append spamEvent, .append spamCleared] :=
    Runs.along_cons (fun _ hearlier => by cases hearlier) labelStep_spamEvent
      (Runs.along_cons hlater labelStep_spamCleared trivial)
  have hrun : Runs.run (labelStep sampleUuid) unlabelled
      [.append spamEvent, .append spamCleared] = some clearedLabels :=
    Runs.run_cons.mpr ⟨_, labelStep_spamEvent, Runs.run_cons.mpr ⟨_, labelStep_spamCleared, rfl⟩⟩
  obtain ⟨events, hevents, -, hlabels⟩ := last_label_wins sampleUuid unlabelled _ ⟨rfl, rfl⟩ _
    hmeets hrun (sampleUuid.text 6) 6 (sampleUuid.parse_text 6)
  refine ⟨events, hrun, hevents, fun assignments v => ?_⟩
  obtain ⟨hmanual, heffective⟩ := hlabels assignments v
  have hnone : ¬ ∃ event, clearedLabels.last sampleUuid 6 v.identity = some event ∧
      event.label = some v := by
    rintro ⟨event, hevent, hvalue⟩
    rw [last_clearedLabels hevent] at hvalue
    cases hvalue
  refine ⟨fun hv => hnone (hmanual.mp hv), heffective.trans ⟨fun hv => ?_, fun hv => ?_⟩⟩
  · exact (hv.resolve_left hnone).1
  · exact .inr ⟨hv, fun event hevent => last_clearedLabels hevent⟩

end TgCurator
