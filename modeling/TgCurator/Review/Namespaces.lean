import Mathlib.Data.List.Lex
import Mathlib.Data.List.Pairwise
import Mathlib.Data.String.Basic
import TgCurator.Review.Resolution

/-!
# What the namespaces hold

`IsLatest events id e` says that `e` is the latest event of an identity. When no two events
have the same time and id, the latest events do not depend on the order in which the events
are given (`latestManual_perm`), and the dictionaries of `resolve_label_namespaces` hold one
label for each identity, found by a lookup: the last assignment (`lookup_modelByIdentity`),
the latest event (`lookup_latestManual`), and the event's label or else the assignment's
(`lookup_foldl_applyManual`). `resolveLabelNamespaces_spec` puts these together.
-/

namespace TgCurator

/-! ## Orders -/

instance : Std.Total ManualLabelEvent.LE where
  total a b := by
    unfold ManualLabelEvent.LE
    rcases lt_trichotomy a.createdAt b.createdAt with h | h | h
    · exact .inl (.inl h)
    · exact (le_total a.eventId b.eventId).imp (.inr ⟨h, ·⟩) (.inr ⟨h.symm, ·⟩)
    · exact .inr (.inl h)

instance : IsTrans ManualLabelEvent ManualLabelEvent.LE where
  trans a b c := by
    rintro (hab | ⟨hab, hab'⟩) (hbc | ⟨hbc, hbc'⟩)
    · exact .inl (hab.trans hbc)
    · exact .inl (hbc ▸ hab)
    · exact .inl (hab ▸ hbc)
    · exact .inr ⟨hab.trans hbc, hab'.trans hbc'⟩

theorem ManualLabelEvent.key_eq {a b : ManualLabelEvent} (hab : a.LE b) (hba : b.LE a) :
    (a.createdAt, a.eventId) = (b.createdAt, b.eventId) := by
  rcases hab with hab | ⟨hab, hab'⟩
  · rcases hba with hba | ⟨hba, -⟩ <;> omega
  · rcases hba with hba | ⟨-, hba'⟩
    · omega
    · rw [hab, le_antisymm hab' hba']

instance : Std.Total LabelValue.LE where
  total _ _ := le_total (α := List String) _ _

instance : IsTrans LabelValue LabelValue.LE where
  trans _ _ _ h h' := le_trans (α := List String) h h'

/-! ## The latest events -/

/-- No two events have the same time and id. -/
abbrev DistinctKeys (events : List ManualLabelEvent) : Prop :=
  events.Pairwise fun a b => (a.createdAt, a.eventId) ≠ (b.createdAt, b.eventId)

/-- The latest event of an identity. -/
structure IsLatest (events : List ManualLabelEvent) (id : String × String × String)
    (e : ManualLabelEvent) : Prop where
  mem : e ∈ events
  identity : e.identity = id
  latest : ∀ e' ∈ events, e'.identity = id → e'.LE e

variable {events events' : List ManualLabelEvent} {id : String × String × String}
  {e e' : ManualLabelEvent}

theorem DistinctKeys.eq (h : DistinctKeys events) (he : e ∈ events) (he' : e' ∈ events)
    (hle : e.LE e') (hle' : e'.LE e) : e = e' := by
  by_contra hne
  have hsymm : Std.Symm fun a b : ManualLabelEvent =>
      (a.createdAt, a.eventId) ≠ (b.createdAt, b.eventId) := ⟨fun _ _ h => h.symm⟩
  exact List.Pairwise.forall h he he' hne (ManualLabelEvent.key_eq hle hle')

/-- The order in which the events are given does not matter. -/
theorem latestManual_perm (h : DistinctKeys events) (hperm : events'.Perm events) :
    latestManual events' = latestManual events := by
  unfold latestManual
  have hsorted : events'.insertionSort ManualLabelEvent.LE =
      events.insertionSort ManualLabelEvent.LE := by
    have hsorted := List.pairwise_insertionSort ManualLabelEvent.LE
    refine List.Perm.eq_of_pairwise ?_ (hsorted events') (hsorted events)
      ((List.perm_insertionSort _ _).trans (hperm.trans (List.perm_insertionSort _ _).symm))
    intro a b ha hb hab hba
    rw [List.mem_insertionSort] at ha hb
    exact h.eq (hperm.mem_iff.mp ha) hb hab hba
  rw [hsorted]

/-- The last element of a sorted list is above the others. -/
theorem le_getLast_of_pairwise {α : Type*} {r : α → α → Prop} [Std.Total r] {l : List α} {a : α}
    (h : l.Pairwise r) (ha : l.getLast? = some a) : ∀ b ∈ l, r b a := by
  intro b hb
  obtain ⟨l', rfl⟩ := List.getLast?_eq_some_iff.mp ha
  rcases List.mem_append.mp hb with hb | hb
  · exact (List.pairwise_append.mp h).2.2 b hb a (List.mem_singleton_self a)
  · rw [List.mem_singleton.mp hb]
    exact (Std.Total.total a a).elim (fun h => h) fun h => h

/-- A lookup of the latest events finds the latest event. -/
theorem lookup_latestManual (h : DistinctKeys events) :
    (latestManual events).lookup id = some e ↔ IsLatest events id e := by
  have hlookup : (latestManual events).lookup id =
      ((events.insertionSort ManualLabelEvent.LE).filter fun e => e.identity = id).getLast? := by
    unfold latestManual
    rw [Dict.lookup_foldl_set (fun e : ManualLabelEvent => e.identity), List.lookup_nil,
      Option.or_none]
  have hsorted : ((events.insertionSort ManualLabelEvent.LE).filter fun e =>
      e.identity = id).Pairwise ManualLabelEvent.LE :=
    (List.pairwise_insertionSort _ _).sublist List.filter_sublist
  have hmem : ∀ e, e ∈ (events.insertionSort ManualLabelEvent.LE).filter (fun e =>
      e.identity = id) ↔ e ∈ events ∧ e.identity = id := by
    intro e
    rw [List.mem_filter, List.mem_insertionSort, decide_eq_true_eq]
  have hlatest : ∀ {e}, (latestManual events).lookup id = some e → IsLatest events id e := by
    intro e he
    rw [hlookup] at he
    obtain ⟨he₁, he₂⟩ := (hmem e).mp (List.mem_of_getLast? he)
    exact ⟨he₁, he₂, fun e' he' hid =>
      le_getLast_of_pairwise hsorted he e' ((hmem e').mpr ⟨he', hid⟩)⟩
  refine ⟨hlatest, fun he => ?_⟩
  cases hfound : (latestManual events).lookup id with
  | none =>
    rw [hlookup, List.getLast?_eq_none_iff] at hfound
    have hnil := (hmem e).mpr ⟨he.mem, he.identity⟩
    rw [hfound] at hnil
    cases hnil
  | some e' =>
    have he' := hlatest hfound
    rw [h.eq he'.mem he.mem (he.latest e' he'.mem he'.identity)
      (he'.latest e he.mem he.identity)]

/-! ## Dictionaries of labels -/

/-- Each label is under its own identity, once. -/
structure Labelled (d : Dict (String × String × String) LabelValue) : Prop where
  nodup : d.keys.Nodup
  keyed : ∀ x ∈ d, x.2.identity = x.1

variable {d : Dict (String × String × String) LabelValue} {v : LabelValue}

theorem Labelled.mem_values (h : Labelled d) :
    v ∈ d.values ↔ d.lookup v.identity = some v := by
  constructor
  · intro hv
    obtain ⟨x, hx, rfl⟩ := List.mem_map.mp hv
    rw [h.keyed x hx]
    exact Dict.lookup_of_mem h.nodup hx
  · exact fun hv => List.mem_map_of_mem (Dict.mem_of_lookup hv)

theorem Labelled.identities (h : Labelled d) : d.values.map (·.identity) = d.keys := by
  rw [Dict.values, Dict.keys, List.map_map]
  exact List.map_congr_left h.keyed

theorem Labelled.set (h : Labelled d) (hid : v.identity = id) : Labelled (d.set id v) := by
  refine ⟨Dict.nodup_keys_set h.nodup, fun x hx => ?_⟩
  rcases Dict.mem_set hx with rfl | hx
  · exact hid
  · exact h.keyed x hx

theorem Labelled.erase (h : Labelled d) : Labelled (d.erase id) :=
  ⟨Dict.nodup_keys_erase h.nodup, fun x hx => h.keyed x (Dict.mem_erase.mp hx).1⟩

theorem labelled_nil : Labelled [] :=
  ⟨List.nodup_nil, fun _ hx => by cases hx⟩

/-- A namespace is sorted, with one entry for each identity. -/
structure IsNamespace (values : List LabelValue) : Prop where
  sorted : values.Pairwise LabelValue.LE
  nodup : (values.map (·.identity)).Nodup

theorem mem_ordered (h : Labelled d) : v ∈ ordered d.values ↔ d.lookup v.identity = some v := by
  rw [ordered, List.mem_insertionSort, h.mem_values]

theorem Labelled.isNamespace (h : Labelled d) : IsNamespace (ordered d.values) := by
  refine ⟨List.pairwise_insertionSort _ _, ?_⟩
  rw [ordered, ((List.perm_insertionSort LabelValue.LE d.values).map _).nodup_iff, h.identities]
  exact h.nodup

/-! ## The three dictionaries -/

theorem lookup_modelByIdentity (assignments : List LabelValue) (id : String × String × String) :
    (modelByIdentity assignments).lookup id =
      (assignments.filter fun v => v.identity = id).getLast? := by
  unfold modelByIdentity
  rw [Dict.lookup_foldl_set (fun v : LabelValue => v.identity), List.lookup_nil, Option.or_none]

theorem labelled_modelByIdentity (assignments : List LabelValue) :
    Labelled (modelByIdentity assignments) := by
  have hfold : ∀ (l : List LabelValue) (d : Dict _ LabelValue), Labelled d →
      Labelled (l.foldl (fun d v => d.set v.identity v) d) := by
    intro l
    induction l with
    | nil => exact fun _ h => h
    | cons v l ih => exact fun d h => ih _ (h.set rfl)
  exact hfold assignments [] labelled_nil

theorem ManualLabelEvent.identity_asLabelValue (h : e.asLabelValue = some v) :
    v.identity = e.identity :=
  congrArg LabelSubject.identity (subject_asLabelValue h)

/-- Each event is under its own identity, once. -/
theorem latestManual_keyed (events : List ManualLabelEvent) :
    (latestManual events).keys.Nodup ∧ ∀ x ∈ latestManual events, x.2.identity = x.1 := by
  have hfold : ∀ (l : List ManualLabelEvent) (d : Dict _ ManualLabelEvent),
      (d.keys.Nodup ∧ ∀ x ∈ d, x.2.identity = x.1) →
        (l.foldl (fun d e => d.set e.identity e) d).keys.Nodup ∧
          ∀ x ∈ l.foldl (fun d e => d.set e.identity e) d, x.2.identity = x.1 := by
    intro l
    induction l with
    | nil => exact fun _ h => h
    | cons e l ih =>
      intro d h
      refine ih _ ⟨Dict.nodup_keys_set h.1, fun x hx => ?_⟩
      rcases Dict.mem_set hx with rfl | hx
      · rfl
      · exact h.2 x hx
  exact hfold _ [] ⟨List.nodup_nil, fun _ hx => by cases hx⟩

/-- The labels that the latest events set. -/
def manualByIdentity (events : List ManualLabelEvent) :
    Dict (String × String × String) LabelValue :=
  (latestManual events).filterMap fun e => e.2.asLabelValue.map fun value => (e.1, value)

theorem labelled_manualByIdentity (events : List ManualLabelEvent) :
    Labelled (manualByIdentity events) := by
  obtain ⟨hnodup, hkeyed⟩ := latestManual_keyed events
  refine ⟨?_, ?_⟩
  · exact Dict.nodup_keys_filterMap hnodup
  · intro x hx
    obtain ⟨e, he, hx⟩ := List.mem_filterMap.mp hx
    obtain ⟨value, hvalue, rfl⟩ := Option.map_eq_some_iff.mp hx
    rw [ManualLabelEvent.identity_asLabelValue hvalue]
    exact hkeyed e he

/-- What the loop over the latest events leaves under an identity. -/
theorem lookup_applyManual (model d : Dict (String × String × String) LabelValue)
    (latest : (String × String × String) × ManualLabelEvent) (id : String × String × String) :
    (applyManual model d latest).lookup id =
      if latest.1 = id then latest.2.asLabelValue.or (model.lookup id) else d.lookup id := by
  unfold applyManual
  cases latest.2.asLabelValue with
  | some value =>
    dsimp only
    split_ifs with hid
    · rw [hid, Dict.lookup_set_self]
      rfl
    · rw [Dict.lookup_set_of_ne (Ne.symm hid)]
  | none =>
    dsimp only
    cases hmodel : model.lookup latest.1 with
    | some value =>
      dsimp only
      split_ifs with hid
      · rw [← hid, Dict.lookup_set_self, hmodel]
        rfl
      · rw [Dict.lookup_set_of_ne (Ne.symm hid), Dict.lookup_erase_of_ne (Ne.symm hid)]
    | none =>
      dsimp only
      split_ifs with hid
      · rw [← hid, Dict.lookup_erase_self, hmodel]
        rfl
      · rw [Dict.lookup_erase_of_ne (Ne.symm hid)]

/-- An identity has the value of its latest event, or that of the model. -/
theorem lookup_foldl_applyManual (model : Dict (String × String × String) LabelValue)
    {latest : Dict (String × String × String) ManualLabelEvent} (h : latest.keys.Nodup)
    (d : Dict (String × String × String) LabelValue) (id : String × String × String) :
    (latest.foldl (applyManual model) d).lookup id =
      match latest.lookup id with
      | some e => e.asLabelValue.or (model.lookup id)
      | none => d.lookup id := by
  induction latest generalizing d with
  | nil => rfl
  | cons x latest ih =>
    rw [Dict.keys_cons, List.nodup_cons] at h
    rw [List.foldl_cons, ih h.2, Dict.lookup_cons, lookup_applyManual]
    by_cases hid : x.1 = id
    · rw [if_pos hid, if_pos hid, Dict.lookup_eq_none.mpr (hid ▸ h.1)]
    · rw [if_neg hid, if_neg hid]

theorem labelled_foldl_applyManual {model : Dict (String × String × String) LabelValue}
    (hmodel : Labelled model) {latest : List ((String × String × String) × ManualLabelEvent)}
    (h : ∀ x ∈ latest, x.2.identity = x.1) {d : Dict (String × String × String) LabelValue}
    (hd : Labelled d) : Labelled (latest.foldl (applyManual model) d) := by
  induction latest generalizing d with
  | nil => exact hd
  | cons x latest ih =>
    rw [List.forall_mem_cons] at h
    refine ih h.2 ?_
    unfold applyManual
    cases hvalue : x.2.asLabelValue with
    | some value => exact hd.set ((ManualLabelEvent.identity_asLabelValue hvalue).trans h.1)
    | none =>
      dsimp only
      cases hlookup : model.lookup x.1 with
      | none => exact hd.erase
      | some value => exact hd.erase.set (hmodel.keyed _ (Dict.mem_of_lookup hlookup))

/-- The labels in effect. -/
def effectiveByIdentity (assignments : List LabelValue) (events : List ManualLabelEvent) :
    Dict (String × String × String) LabelValue :=
  (latestManual events).foldl (applyManual (modelByIdentity assignments))
    (modelByIdentity assignments)

/-! ## Namespaces -/

variable {assignments : List LabelValue}

theorem mem_model : v ∈ (resolveLabelNamespaces assignments events).model ↔
    (assignments.filter fun w => w.identity = v.identity).getLast? = some v := by
  rw [← lookup_modelByIdentity]
  exact mem_ordered (labelled_modelByIdentity assignments)

theorem mem_manual (h : DistinctKeys events) :
    v ∈ (resolveLabelNamespaces assignments events).manual ↔
      ∃ e, IsLatest events v.identity e ∧ e.asLabelValue = some v := by
  have hmem : v ∈ (resolveLabelNamespaces assignments events).manual ↔
      (manualByIdentity events).lookup v.identity = some v :=
    mem_ordered (labelled_manualByIdentity events)
  have hlookup : (manualByIdentity events).lookup v.identity =
      ((latestManual events).lookup v.identity).bind ManualLabelEvent.asLabelValue :=
    Dict.lookup_filterMap (latestManual_keyed events).1 _
  rw [hmem, hlookup, Option.bind_eq_some_iff]
  exact exists_congr fun e => and_congr_left fun _ => lookup_latestManual h

/-- An identity without a manual value has its model value. -/
theorem mem_effective (h : DistinctKeys events) :
    v ∈ (resolveLabelNamespaces assignments events).effective ↔
      v ∈ (resolveLabelNamespaces assignments events).manual ∨
        (v ∈ (resolveLabelNamespaces assignments events).model ∧
          ∀ w ∈ (resolveLabelNamespaces assignments events).manual,
            w.identity ≠ v.identity) := by
  have hmem : v ∈ (resolveLabelNamespaces assignments events).effective ↔
      (effectiveByIdentity assignments events).lookup v.identity = some v :=
    mem_ordered (labelled_foldl_applyManual (labelled_modelByIdentity assignments)
      (latestManual_keyed events).2 (labelled_modelByIdentity assignments))
  have hlookup : (effectiveByIdentity assignments events).lookup v.identity =
      match (latestManual events).lookup v.identity with
      | some e => e.asLabelValue.or ((modelByIdentity assignments).lookup v.identity)
      | none => (modelByIdentity assignments).lookup v.identity :=
    lookup_foldl_applyManual _ (latestManual_keyed events).1 _ _
  rw [hmem, hlookup, mem_manual h, mem_model, ← lookup_modelByIdentity]
  have hnot : (∀ w ∈ (resolveLabelNamespaces assignments events).manual,
      w.identity ≠ v.identity) ↔ ∀ e w, IsLatest events v.identity e →
        e.asLabelValue ≠ some w := by
    constructor
    · intro hall e w he hw
      have hid := (ManualLabelEvent.identity_asLabelValue hw).trans he.identity
      exact hall w ((mem_manual h).mpr ⟨e, hid ▸ he, hw⟩) hid
    · intro hall w hw hid
      obtain ⟨e, he, hvalue⟩ := (mem_manual h).mp hw
      exact hall e w (hid ▸ he) hvalue
  rw [hnot]
  simp only [← lookup_latestManual h]
  cases (latestManual events).lookup v.identity with
  | none => simp
  | some e =>
    cases hvalue : e.asLabelValue with
    | none =>
      have hnone : ∀ e' w, e = e' → e'.asLabelValue ≠ some w := by
        rintro _ w rfl
        rw [hvalue]
        exact (Option.some_ne_none w).symm
      simpa [hvalue] using fun _ => hnone
    | some w => simp [hvalue]

/-- The namespaces for every list of assignments and of manual events of which no two have
the same time and id: they do not depend on the order of the events; the manual namespace
has the values of the identities whose latest event sets one; the effective one has the
manual value of an identity or else its model value, so that a clear restores the model
value; and each is sorted, with one entry for each identity. -/
theorem resolveLabelNamespaces_spec (assignments : List LabelValue)
    (events : List ManualLabelEvent) (h : DistinctKeys events) :
    (∀ events', events'.Perm events → resolveLabelNamespaces assignments events' =
      resolveLabelNamespaces assignments events) ∧
    (∀ v, v ∈ (resolveLabelNamespaces assignments events).manual ↔
      ∃ e, IsLatest events v.identity e ∧ e.operation = .set ∧ e.asLabelValue = some v) ∧
    (∀ id e, IsLatest events id e → e.operation = .set →
      ∃ v, e.asLabelValue = some v ∧ v.toLabelSubject = e.toLabelSubject ∧
        some v.score = e.score ∧ some v.activated = e.activated) ∧
    (∀ v, v ∈ (resolveLabelNamespaces assignments events).model ↔
      (assignments.filter fun w => w.identity = v.identity).getLast? = some v) ∧
    (∀ v, v ∈ (resolveLabelNamespaces assignments events).effective ↔
      v ∈ (resolveLabelNamespaces assignments events).manual ∨
        (v ∈ (resolveLabelNamespaces assignments events).model ∧
          ∀ w ∈ (resolveLabelNamespaces assignments events).manual,
            w.identity ≠ v.identity)) ∧
    (∀ e v, IsLatest events v.identity e → e.operation = .clear →
      (v ∈ (resolveLabelNamespaces assignments events).effective ↔
        v ∈ (resolveLabelNamespaces assignments events).model)) ∧
    (resolveLabelNamespaces assignments events).model =
      (resolveLabelNamespaces assignments []).model ∧
    IsNamespace (resolveLabelNamespaces assignments events).model ∧
    IsNamespace (resolveLabelNamespaces assignments events).manual ∧
    IsNamespace (resolveLabelNamespaces assignments events).effective := by
  have hset : ∀ {e : ManualLabelEvent} {v}, e.asLabelValue = some v → e.operation = .set :=
    fun {e v} hvalue => e.isSome_asLabelValue.mp (by rw [hvalue]; rfl)
  refine ⟨?_, ?_, ?_, fun v => mem_model, fun v => mem_effective h, ?_, rfl, ?_, ?_, ?_⟩
  · intro events' hperm
    unfold resolveLabelNamespaces
    rw [latestManual_perm h hperm]
  · intro v
    rw [mem_manual h]
    exact exists_congr fun e => and_congr_right fun _ =>
      ⟨fun hvalue => ⟨hset hvalue, hvalue⟩, fun hvalue => hvalue.2⟩
  · intro id e _ hoperation
    obtain ⟨v, hvalue⟩ := Option.isSome_iff_exists.mp (e.isSome_asLabelValue.mpr hoperation)
    refine ⟨v, hvalue, ?_⟩
    unfold ManualLabelEvent.asLabelValue at hvalue
    split at hvalue
    · next score activated hscore hactivated =>
      split_ifs at hvalue
      rw [← Option.some.inj hvalue, hscore, hactivated]
      exact ⟨rfl, rfl, rfl⟩
    · cases hvalue
  · intro e v he hclear
    have hnone : ∀ w ∈ (resolveLabelNamespaces assignments events).manual,
        w.identity ≠ v.identity := by
      intro w hw hid
      obtain ⟨e', he', hvalue⟩ := (mem_manual h).mp hw
      rw [hid] at he'
      rw [h.eq he'.mem he.mem (he.latest e' he'.mem he'.identity)
        (he'.latest e he.mem he.identity)] at hvalue
      rw [hset hvalue] at hclear
      cases hclear
    rw [mem_effective h]
    exact ⟨fun hv => hv.elim (fun hv => absurd rfl (hnone v hv)) And.left,
      fun hv => .inr ⟨hv, hnone⟩⟩
  · exact (labelled_modelByIdentity assignments).isNamespace
  · exact (labelled_manualByIdentity events).isNamespace
  · exact (labelled_foldl_applyManual (labelled_modelByIdentity assignments)
      (latestManual_keyed events).2 (labelled_modelByIdentity assignments)).isNamespace

/-- A label of a message. -/
def spamSubject : LabelSubject :=
  ⟨"m1", "global", "message", "m1", "v1", "spam", none, none⟩

/-- The model's label. -/
def spamAssignment : LabelValue :=
  ⟨spamSubject, .int 0, false, by decide +kernel⟩

/-- An administrator sets the label. -/
def spamSet : ManualLabelEvent :=
  ⟨⟨spamSubject, "e1", .set, "admin", 1, some (.int 1), some true, none⟩, by decide +kernel⟩

/-- The label is cleared later. -/
def spamClear : ManualLabelEvent :=
  ⟨⟨spamSubject, "e2", .clear, "admin", 2, none, none, none⟩, by decide +kernel⟩

/-- The model's label is in effect again, whichever event is read first. -/
theorem resolveLabelNamespaces_spec_setThenClear :
    resolveLabelNamespaces [spamAssignment] [spamSet, spamClear] =
        resolveLabelNamespaces [spamAssignment] [spamClear, spamSet] ∧
      spamAssignment ∈
        (resolveLabelNamespaces [spamAssignment] [spamClear, spamSet]).effective := by
  obtain ⟨hperm, -, -, hmodel, -, hcleared, -⟩ :=
    resolveLabelNamespaces_spec [spamAssignment] [spamClear, spamSet] (by decide +kernel)
  have hlatest : IsLatest [spamClear, spamSet] spamAssignment.identity spamClear := by
    refine ⟨List.mem_cons_self .., rfl, ?_⟩
    rintro e (_ | ⟨_, _ | ⟨_, ⟨⟩⟩⟩) -
    · exact .inr ⟨rfl, le_refl _⟩
    · exact .inl (by decide)
  refine ⟨hperm _ (.swap ..), (hcleared spamClear spamAssignment hlatest rfl).mpr ?_⟩
  exact (hmodel spamAssignment).mpr (by decide +kernel)

end TgCurator
