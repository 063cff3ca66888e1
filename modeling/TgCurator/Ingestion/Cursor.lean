import TgCurator.Ingestion.Reconnect

/-!
# The reconnect cursor

Whether `last_seen_message_id` ever passes a message that was not upserted. A message is
below the cursor of its source (`Passed`), stored (`Stored`), or in memory: it waits in
the buffer (`Waits`) or a call under way has still to upsert it (`Held`).

`SafeStep` limits the steps: a realtime call moves the cursor only past messages that are
stored or in memory, and a crash or an exception loses no message below the cursor. In a
run of such steps every message the cursor passes is stored or in memory
(`cursor_skips_nothing`). The invariant (`Inv`) adds what the calls under way know; of
reconciliation it says that the messages of the frozen window are stored or still to be
upserted, so that its own move of the cursor needs no condition.

Without the condition a message can be passed and lost (`cursor_skips_lost_part`).
-/

namespace TgCurator

namespace Reconnect

/-! ## Where a message is -/

/-- The message a transaction upserts. -/
def Operation.message : Operation → Option NormalizedTelegramMessage
  | .upsertMessage message => some message
  | _ => none

/-- The messages a call has still to upsert. -/
def Call.upserts : Call → List NormalizedTelegramMessage
  | .ingestReady operations => operations.filterMap (·.message)
  | .ingest _ _ _ upserts => upserts
  | _ => []

/-- A call has still to upsert a component. -/
def Call.Holds (call : Call) (c : ℕ × ℕ) : Prop :=
  ∃ m ∈ call.upserts, m.sourceChannelId = c.1 ∧ c.2 ∈ m.telegramMessageIds

namespace State

/-- A component is in the history. -/
def Known (s : State) (c : ℕ × ℕ) : Prop :=
  ∃ m ∈ s.history, m.component = c

/-- A component is in the tables. -/
def Stored (s : State) (c : ℕ × ℕ) : Prop :=
  (s.store.parts.lookup c).isSome = true

/-- A component waits in the buffer. -/
def Waits (s : State) (c : ℕ × ℕ) : Prop :=
  ∃ m ∈ s.buffer.messages, m.component = c

/-- A call under way holds a component. -/
def Held (s : State) (c : ℕ × ℕ) : Prop :=
  ∃ name call, s.calls.lookup name = some call ∧ call.Holds c

/-- A call under way other than one holds a component. -/
def HeldApart (s : State) (name : ℕ) (c : ℕ × ℕ) : Prop :=
  ∃ name' call, name' ≠ name ∧ s.calls.lookup name' = some call ∧ call.Holds c

/-- `last_seen_message_id or 0`. -/
def seen (s : State) (source : ℕ) : ℕ :=
  (s.lastSeen.lookup source).getD 0

/-- The cursor has passed a component since it was at `start`. -/
def Passed (start : ℕ → ℕ) (s : State) (c : ℕ × ℕ) : Prop :=
  s.Known c ∧ start c.1 < c.2 ∧ c.2 ≤ s.seen c.1

/-- A component is stored or in memory. -/
def Covered (s : State) (c : ℕ × ℕ) : Prop :=
  s.Stored c ∨ s.Waits c ∨ s.Held c

end State

/-! ## The condition -/

section Condition

variable (sha256 : String → String) (start : ℕ → ℕ)

/-- The condition on the next step of a call. A realtime call moves the cursor only past
messages that are stored or in memory; an upsert that raises loses no message below the
cursor. -/
structure SafeProceed (s : State) (name : ℕ) (call : Call) : Prop where
  cursor : ∀ source id operations, call = .ingestReady (.recordIngestedMessage source id :: operations) →
    ∀ c, s.Known c → c.1 = source → s.seen source < c.2 → c.2 ≤ id → s.Covered c
  failure : ∀ m, call.upserts.head? = some m → (s.store.upsertMessage sha256 m).toOption = none →
    ∀ c, s.Passed start c → call.Holds c → s.Stored c ∨ s.Waits c ∨ s.HeldApart name c

/-- The condition on a step. -/
def SafeStep (s : State) : Action → Prop
  | .realtime _ trigger =>
    (normalizeTelegramMessages (trigger.release s.buffer).2).toOption = none →
      ∀ c, s.Passed start c → (∃ m ∈ (trigger.release s.buffer).2, m.component = c) →
        s.Stored c ∨ s.Held c
  | .proceed name => ∀ call, s.calls.lookup name = some call → SafeProceed sha256 start s name call
  | .crash => ∀ c, s.Passed start c → s.Stored c
  | _ => True

end Condition

/-! ## What holds along a run -/

/-- What a call under way knows. -/
def CallInv (s : State) : Call → Prop
  | .ingestReady operations => ∀ source id, .recordIngestedMessage source id ∈ operations →
    ∃ m ∈ s.history, m.sourceChannelId = source ∧ id ≤ m.telegramMessageId
  | .newest source fromExclusive => fromExclusive ≤ s.seen source
  | .recordLatest source fromExclusive upper => fromExclusive ≤ s.seen source ∧
    ∃ m ∈ s.history, m.sourceChannelId = source ∧ upper ≤ m.telegramMessageId
  | .fetch source fromExclusive upper => fromExclusive ≤ s.seen source ∧
    ∃ m ∈ s.history, m.sourceChannelId = source ∧ upper ≤ m.telegramMessageId
  | .ingest source fromExclusive upper upserts => fromExclusive ≤ s.seen source ∧
    (∃ m ∈ s.history, m.sourceChannelId = source ∧ upper ≤ m.telegramMessageId) ∧
    ∀ c, s.Known c → c.1 = source → fromExclusive < c.2 → c.2 ≤ upper →
      s.Stored c ∨ (Call.ingest source fromExclusive upper upserts).Holds c

/-- The invariant of a run from the cursors `start`. -/
structure Inv (start : ℕ → ℕ) (s : State) : Prop where
  buffer : s.buffer.WellFormed
  known : ∀ m ∈ s.buffer.messages, s.Known m.component
  cursor : ∀ source, s.seen source ≤ start source ∨
    ∃ m ∈ s.history, m.sourceChannelId = source ∧ s.seen source ≤ m.telegramMessageId
  call : ∀ name call, s.calls.lookup name = some call → CallInv s call
  covered : ∀ c, s.Passed start c → s.Covered c

/-- What only grows: the history, by new versions and newer messages, the cursors and the
stored components. -/
structure Later (s s' : State) : Prop where
  history : s.history ⊆ s'.history
  newer : ∀ c, s'.Known c → s.Known c ∨
    ∀ m ∈ s.history, m.sourceChannelId = c.1 → m.telegramMessageId < c.2
  seen : ∀ source, s.seen source ≤ s'.seen source
  stored : ∀ c, s.Stored c → s'.Stored c

theorem Later.refl (s : State) : Later s s where
  history := List.Subset.refl _
  newer := fun _ h => .inl h
  seen := fun _ => le_rfl
  stored := fun _ h => h

/-- A call knows as much later on. -/
theorem CallInv.later {s s' : State} (hl : Later s s') {call : Call} (h : CallInv s call) :
    CallInv s' call := by
  have hmem : ∀ {source id : ℕ}, (∃ m ∈ s.history, m.sourceChannelId = source ∧
      id ≤ m.telegramMessageId) → ∃ m ∈ s'.history, m.sourceChannelId = source ∧
        id ≤ m.telegramMessageId := by
    rintro source id ⟨m, hm, h⟩
    exact ⟨m, hl.history hm, h⟩
  cases call with
  | ingestReady operations => exact fun source id hop => hmem (h source id hop)
  | newest source fromExclusive => exact h.trans (hl.seen source)
  | recordLatest source fromExclusive upper => exact ⟨h.1.trans (hl.seen source), hmem h.2⟩
  | fetch source fromExclusive upper => exact ⟨h.1.trans (hl.seen source), hmem h.2⟩
  | ingest source fromExclusive upper upserts =>
    obtain ⟨hfrom, hupper, hwindow⟩ := h
    refine ⟨hfrom.trans (hl.seen source), hmem hupper, fun c hknown hsource hlow hup => ?_⟩
    rcases hl.newer c hknown with hknown | hnew
    · exact (hwindow c hknown hsource hlow hup).imp_left (hl.stored c)
    · -- a message newer than the history is above the window
      obtain ⟨m, hm, hms, hid⟩ := hupper
      exact absurd (hnew m hm (hms.trans hsource.symm)) (by omega)

/-! ## Calls -/

section Calls

variable {s s' : State} {name : ℕ} {c : ℕ × ℕ} {left : Call}

/-- Who holds a component: one call, or another. -/
theorem State.Held.cases (h : s.Held c) (name : ℕ) :
    s.HeldApart name c ∨ ∃ call, s.calls.lookup name = some call ∧ call.Holds c := by
  obtain ⟨name', call, hcall, hholds⟩ := h
  by_cases hname : name' = name
  · exact .inr ⟨call, hname ▸ hcall, hholds⟩
  · exact .inl ⟨name', call, hname, hcall, hholds⟩

theorem State.HeldApart.setCall (h : s.HeldApart name c) (left : Call) :
    (setCall s name left).Held c := by
  obtain ⟨name', call, hname, hcall, hholds⟩ := h
  exact ⟨name', call, (Dict.lookup_set_of_ne hname _ _).trans hcall, hholds⟩

theorem State.HeldApart.endCall (h : s.HeldApart name c) : (endCall s name).Held c := by
  obtain ⟨name', call, hname, hcall, hholds⟩ := h
  exact ⟨name', call, (Dict.lookup_erase_of_ne hname _).trans hcall, hholds⟩

theorem held_setCall (h : left.Holds c) : (setCall s name left).Held c :=
  ⟨name, left, Dict.lookup_set_self _ _ _, h⟩

/-- A component stays covered when the call that holds it still does. -/
theorem State.Covered.setCall (h : s.Covered c)
    (hown : ∀ call, s.calls.lookup name = some call → call.Holds c → s.Stored c ∨ left.Holds c) :
    (setCall s name left).Covered c := by
  rcases h with hstored | hwaits | hheld
  · exact .inl hstored
  · exact .inr (.inl hwaits)
  rcases hheld.cases name with hapart | ⟨call, hcall, hholds⟩
  · exact .inr (.inr (hapart.setCall left))
  rcases hown call hcall hholds with hstored | hleft
  · exact .inl hstored
  · exact .inr (.inr (held_setCall hleft))

/-- A component stays covered when no other call held it than one that ends without it. -/
theorem State.Covered.endCall (h : s.Covered c)
    (hown : ∀ call, s.calls.lookup name = some call → call.Holds c →
      s.Stored c ∨ s.Waits c ∨ s.HeldApart name c) :
    (endCall s name).Covered c := by
  have hcovered : s.Stored c ∨ s.Waits c ∨ s.HeldApart name c := by
    rcases h with hstored | hwaits | hheld
    · exact .inl hstored
    · exact .inr (.inl hwaits)
    rcases hheld.cases name with hapart | ⟨call, hcall, hholds⟩
    · exact .inr (.inr hapart)
    · exact hown call hcall hholds
  exact hcovered.imp_right fun h => h.imp_right fun h => h.endCall

variable {start : ℕ → ℕ}

/-- What the invariant needs of a step beyond its calls and what they cover. -/
theorem Inv.next (h : Inv start s) (hl : Later s s') (hbuffer : s'.buffer = s.buffer)
    (hcursor : ∀ source, s'.seen source ≤ s.seen source ∨
      ∃ m ∈ s'.history, m.sourceChannelId = source ∧ s'.seen source ≤ m.telegramMessageId)
    (hcall : ∀ name call, s'.calls.lookup name = some call →
      s.calls.lookup name = some call ∨ CallInv s' call)
    (hcovered : ∀ c, s'.Passed start c → s'.Covered c) : Inv start s' where
  buffer := hbuffer ▸ h.buffer
  known := by
    intro m hm
    obtain ⟨m', hm', hc⟩ := h.known m (hbuffer ▸ hm)
    exact ⟨m', hl.history hm', hc⟩
  cursor := by
    intro source
    rcases hcursor source with hle | hmem
    · rcases h.cursor source with hstart | ⟨m, hm, hms, hid⟩
      · exact .inl (hle.trans hstart)
      · exact .inr ⟨m, hl.history hm, hms, hle.trans hid⟩
    · exact .inr hmem
  call := fun name call hlookup => (hcall name call hlookup).elim
    (fun hold => (h.call name call hold).later hl) id
  covered := hcovered

theorem lookup_setCall {name' : ℕ} {call : Call}
    (h : (setCall s name left).calls.lookup name' = some call) :
    s.calls.lookup name' = some call ∨ call = left := by
  by_cases hname : name' = name
  · rw [hname, setCall, Dict.lookup_set_self] at h
    exact .inr (Option.some.inj h).symm
  · rw [setCall, Dict.lookup_set_of_ne hname] at h
    exact .inl h

theorem lookup_endCall {name' : ℕ} {call : Call}
    (h : (endCall s name).calls.lookup name' = some call) : s.calls.lookup name' = some call := by
  by_cases hname : name' = name
  · rw [hname, endCall, Dict.lookup_erase_self] at h
    simp at h
  · rwa [endCall, Dict.lookup_erase_of_ne hname] at h

/-- A step of a call that moves no cursor and stores nothing. -/
theorem Inv.setCall (h : Inv start s) (hleft : CallInv s left)
    (hown : ∀ c call, s.calls.lookup name = some call → call.Holds c → s.Stored c ∨ left.Holds c) :
    Inv start (setCall s name left) := by
  have hl : Later s (Reconnect.setCall s name left) := ⟨List.Subset.refl _, fun _ h => .inl h,
    fun _ => le_rfl, fun _ h => h⟩
  refine h.next hl rfl (fun _ => .inl le_rfl) (fun name' call hcall => ?_)
    fun c hc => (h.covered c hc).setCall (hown c)
  rcases lookup_setCall hcall with hold | rfl
  · exact .inl hold
  · exact .inr (hleft.later hl)

/-- A call ends that held nothing the cursor has passed. -/
theorem Inv.endCall (h : Inv start s)
    (hown : ∀ c call, s.Passed start c → s.calls.lookup name = some call → call.Holds c →
      s.Stored c ∨ s.Waits c ∨ s.HeldApart name c) :
    Inv start (endCall s name) := by
  have hl : Later s (Reconnect.endCall s name) := ⟨List.Subset.refl _, fun _ h => .inl h,
    fun _ => le_rfl, fun _ h => h⟩
  exact h.next hl rfl (fun _ => .inl le_rfl) (fun name' call hcall => .inl (lookup_endCall hcall))
    fun c hc => (h.covered c hc).endCall fun call => hown c call hc

end Calls

/-! ## Cursors -/

theorem getD_advance (cursor : Dict ℕ ℕ) (source id source' : ℕ) :
    ((advance cursor source id).lookup source').getD 0 =
      if source' = source then max ((cursor.lookup source').getD 0) id
      else (cursor.lookup source').getD 0 := by
  unfold advance
  split_ifs with hs
  · subst hs
    cases hl : cursor.lookup source' with
    | none => simp
    | some current =>
      dsimp only
      split_ifs with hlt
      · rw [Dict.lookup_set_self, Option.getD_some, Option.getD_some, max_eq_right hlt.le]
      · rw [hl, Option.getD_some, max_eq_left (not_lt.mp hlt)]
  · cases cursor.lookup source with
    | none => rw [Dict.lookup_set_of_ne hs]
    | some current =>
      dsimp only
      split_ifs
      · rw [Dict.lookup_set_of_ne hs]
      · rfl

section Advance

variable {s : State} {start : ℕ → ℕ}

theorem seen_advance (s : State) (source id source' : ℕ) :
    ({ s with lastSeen := advance s.lastSeen source id } : State).seen source' =
      if source' = source then max (s.seen source') id else s.seen source' :=
  getD_advance s.lastSeen source id source'

/-- Moving the cursor keeps the invariant when what it passes is covered. -/
theorem Inv.advance (h : Inv start s) {source id : ℕ}
    (hid : ∃ m ∈ s.history, m.sourceChannelId = source ∧ id ≤ m.telegramMessageId)
    (hpassed : ∀ c, s.Known c → c.1 = source → s.seen source < c.2 → c.2 ≤ id → s.Covered c) :
    Inv start { s with lastSeen := advance s.lastSeen source id } := by
  have hl : Later s { s with lastSeen := Reconnect.advance s.lastSeen source id } := by
    refine ⟨List.Subset.refl _, fun _ h => .inl h, fun source' => ?_, fun _ h => h⟩
    rw [seen_advance]
    split_ifs
    · exact le_max_left _ _
    · exact le_rfl
  refine h.next hl rfl (fun source' => ?_) (fun name call hcall => .inl hcall) fun c hc => ?_
  · rw [seen_advance]
    split_ifs with hs
    · rcases le_total (s.seen source') id with hle | hle
      · rw [max_eq_right hle, hs]
        exact .inr hid
      · rw [max_eq_left hle]
        exact .inl le_rfl
    · exact .inl le_rfl
  · obtain ⟨hknown, hstart, hseen⟩ := hc
    rw [seen_advance] at hseen
    by_cases hold : c.2 ≤ s.seen c.1
    · exact h.covered c ⟨hknown, hstart, hold⟩
    · split_ifs at hseen with hs
      · refine hpassed c hknown hs (hs ▸ not_le.mp hold) ?_
        rcases le_max_iff.mp hseen with hle | hle
        · exact absurd hle hold
        · exact hle
      · exact absurd hseen hold

end Advance

/-! ## The steps of a call -/

section Steps

variable {sha256 : String → String} {s : State} {start : ℕ → ℕ} {name : ℕ} {call : Call}

/-- Storing more keeps the invariant. -/
theorem Inv.store (h : Inv start s) {store : Store}
    (hstored : ∀ c, s.Stored c → ({ s with store } : State).Stored c) :
    Inv start { s with store } := by
  have hl : Later s { s with store } :=
    ⟨List.Subset.refl _, fun _ h => .inl h, fun _ => le_rfl, hstored⟩
  exact h.next hl rfl (fun _ => .inl le_rfl) (fun _ _ hcall => .inl hcall)
    fun c hc => (h.covered c hc).imp_left (hstored c)

/-- An upsert of a call. -/
theorem Inv.upsertIn (h : Inv start s) (hcall : s.calls.lookup name = some call)
    {m : NormalizedTelegramMessage} {left : Call} (hupserts : call.upserts = m :: left.upserts)
    (hleft : ∀ s', Later s s' → (∀ i ∈ m.telegramMessageIds, s'.Stored (m.sourceChannelId, i)) →
      CallInv s' left)
    (hsafe : SafeProceed sha256 start s name call) :
    Inv start (upsertIn sha256 s name m left) := by
  unfold Reconnect.upsertIn
  cases hm : s.store.upsertMessage sha256 m with
  | error e =>
    refine h.endCall fun c call' hc hcall' hholds => ?_
    obtain rfl := Option.some.inj (hcall.symm.trans hcall')
    exact hsafe.failure m (by rw [hupserts]; rfl) (by rw [hm]; rfl) c hc hholds
  | ok store =>
    obtain ⟨hmono, hstored⟩ := upsertMessage_stored hm
    have hl : Later s { s with store } :=
      ⟨List.Subset.refl _, fun _ h => .inl h, fun _ => le_rfl, hmono⟩
    refine (h.store hmono).setCall (hleft _ hl hstored) fun c call' hcall' hholds => ?_
    obtain rfl := Option.some.inj (hcall.symm.trans hcall')
    obtain ⟨m', hm', hsource, hid⟩ := hholds
    rw [hupserts] at hm'
    rcases List.mem_cons.mp hm' with rfl | hm'
    · left
      have hi := hstored c.2 hid
      rw [hsource] at hi
      exact hi
    · exact .inr ⟨m', hm', hsource, hid⟩

theorem newestMessage_le {history : List TelegramMessage} {source newest : ℕ}
    (h : newestMessage history source = some newest) :
    ∃ m ∈ history, m.sourceChannelId = source ∧ newest ≤ m.telegramMessageId := by
  obtain ⟨m, hm, rfl⟩ := List.mem_map.mp (List.max?_mem h)
  rw [List.mem_filter, decide_eq_true_eq] at hm
  exact ⟨m, hm.1, hm.2, le_rfl⟩

/-- A call that holds nothing. -/
theorem not_holds_of_nil {c : ℕ × ℕ} (h : call.upserts = []) : ¬call.Holds c := by
  rintro ⟨m, hm, -⟩
  rw [h] at hm
  exact absurd hm List.not_mem_nil

/-- A call that holds nothing ends. -/
theorem Inv.endCall_of_nil (h : Inv start s) (hcall : s.calls.lookup name = some call)
    (hnil : call.upserts = []) : Inv start (Reconnect.endCall s name) := by
  refine h.endCall fun c call' _ hcall' hholds => ?_
  obtain rfl := Option.some.inj (hcall.symm.trans hcall')
  exact absurd hholds (not_holds_of_nil hnil)

/-- A call goes on that holds as much as before. -/
theorem Inv.setCall_of_upserts (h : Inv start s) (hcall : s.calls.lookup name = some call)
    (left : Call) (hupserts : left.upserts = call.upserts) (hleft : CallInv s left) :
    Inv start (Reconnect.setCall s name left) := by
  refine h.setCall hleft fun c call' hcall' hholds => .inr ?_
  obtain rfl := Option.some.inj (hcall.symm.trans hcall')
  rwa [Call.Holds, hupserts]

/-- `last_seen` alone is the cursor. -/
theorem Inv.setLatestSeen (h : Inv start s) (latestSeen : Dict ℕ ℕ) :
    Inv start { s with latestSeen } :=
  ⟨h.buffer, h.known, h.cursor, h.call, h.covered⟩

/-- A transaction of a realtime call. -/
theorem Inv.proceed_ingestReady (h : Inv start s) {operation : Operation}
    {operations : List Operation}
    (hcall : s.calls.lookup name = some (.ingestReady (operation :: operations)))
    (hsafe : SafeProceed sha256 start s name (.ingestReady (operation :: operations)))
    {s' : State} (hstep : proceed sha256 s name (.ingestReady (operation :: operations)) = some s') :
    Inv start s' := by
  have hinv : CallInv s (.ingestReady (operation :: operations)) := h.call name _ hcall
  have hrest : CallInv s (.ingestReady operations) :=
    fun source id hop => hinv source id (List.mem_cons_of_mem _ hop)
  cases operation with
  | upsertMessage m =>
    obtain rfl := Option.some.inj hstep
    exact h.upsertIn hcall rfl (fun s' hl _ => hrest.later hl) hsafe
  | recordLatestSeenMessage source id =>
    obtain rfl := Option.some.inj hstep
    have hlatest := h.setLatestSeen (Reconnect.advance s.latestSeen source id)
    exact hlatest.setCall_of_upserts hcall (.ingestReady operations) rfl hrest
  | recordIngestedMessage source id =>
    obtain rfl := Option.some.inj hstep
    have hadvance := h.advance (hinv source id (by simp)) (hsafe.cursor source id operations rfl)
    exact hadvance.setCall_of_upserts hcall (.ingestReady operations) rfl hrest

/-- An upsert of a window, or the move of the cursor past the window that was stored. -/
theorem Inv.proceed_ingest (h : Inv start s) {source fromExclusive upper : ℕ}
    {upserts : List NormalizedTelegramMessage}
    (hcall : s.calls.lookup name = some (.ingest source fromExclusive upper upserts))
    (hsafe : SafeProceed sha256 start s name (.ingest source fromExclusive upper upserts))
    {s' : State}
    (hstep : proceed sha256 s name (.ingest source fromExclusive upper upserts) = some s') :
    Inv start s' := by
  have hinv : CallInv s (.ingest source fromExclusive upper upserts) := h.call name _ hcall
  cases upserts with
  | nil =>
    obtain rfl := Option.some.inj hstep
    obtain ⟨hfrom, hupper, hwindow⟩ := hinv
    -- the window was stored, and what the cursor has passed already is covered
    have hadvance := h.advance hupper fun c hknown hsource hseen hid =>
      .inl ((hwindow c hknown hsource (hfrom.trans_lt hseen) hid).resolve_right
        (not_holds_of_nil rfl))
    exact hadvance.endCall_of_nil hcall rfl
  | cons m ms =>
    obtain rfl := Option.some.inj hstep
    refine h.upsertIn hcall rfl (fun s' hl hstored => ?_) hsafe
    obtain ⟨hfrom, hupper, hwindow⟩ := hinv.later hl
    refine ⟨hfrom, hupper, fun c hknown hsource hlow hup => ?_⟩
    rcases hwindow c hknown hsource hlow hup with hc | ⟨m', hm', hms, hid⟩
    · exact .inl hc
    · rcases List.mem_cons.mp hm' with rfl | hm'
      · left
        have hi := hstored c.2 hid
        rw [hms] at hi
        exact hi
      · exact .inr ⟨m', hm', hms, hid⟩

/-- The next step of a call. -/
theorem Inv.proceed (h : Inv start s) (hcall : s.calls.lookup name = some call)
    (hsafe : SafeProceed sha256 start s name call) {s' : State}
    (hstep : proceed sha256 s name call = some s') : Inv start s' := by
  have hinv := h.call name call hcall
  cases call with
  | ingestReady operations =>
    cases operations with
    | nil =>
      obtain rfl := Option.some.inj hstep
      exact h.endCall_of_nil hcall rfl
    | cons operation operations => exact h.proceed_ingestReady hcall hsafe hstep
  | newest source fromExclusive =>
    rw [Reconnect.proceed] at hstep
    cases hnewest : newestMessage s.history source with
    | none =>
      rw [hnewest] at hstep
      obtain rfl := Option.some.inj hstep
      exact h.endCall_of_nil hcall rfl
    | some newest =>
      rw [hnewest] at hstep
      obtain rfl := Option.some.inj hstep
      exact h.setCall_of_upserts hcall (.recordLatest source fromExclusive newest) rfl
        ⟨hinv, newestMessage_le hnewest⟩
  | recordLatest source fromExclusive upper =>
    have hlatest := h.setLatestSeen (Reconnect.advance s.latestSeen source upper)
    rw [Reconnect.proceed] at hstep
    split_ifs at hstep
    · obtain rfl := Option.some.inj hstep
      exact hlatest.endCall_of_nil hcall rfl
    · obtain rfl := Option.some.inj hstep
      exact hlatest.setCall_of_upserts hcall (.fetch source fromExclusive upper) rfl hinv
  | fetch source fromExclusive upper => simp [Reconnect.proceed] at hstep
  | ingest source fromExclusive upper upserts => exact h.proceed_ingest hcall hsafe hstep

/-- The history arrives. -/
theorem Inv.receive (h : Inv start s) (hcall : s.calls.lookup name = some call)
    {messages : List TelegramMessage} {s' : State}
    (hstep : receive s name messages call = some s') : Inv start s' := by
  have hinv := h.call name call hcall
  cases call with
  | fetch source fromExclusive upper =>
    have hnothing : ∀ c call', s.calls.lookup name = some call' → call'.Holds c → False := by
      intro c call' hcall' hholds
      obtain rfl := Option.some.inj (hcall.symm.trans hcall')
      exact not_holds_of_nil rfl hholds
    rw [Reconnect.receive] at hstep
    split_ifs at hstep with hwindow
    cases hok : (do
        validateHistoryWindow messages source fromExclusive upper
        normalizeTelegramMessages messages) with
    | error e =>
      rw [hok] at hstep
      obtain rfl := Option.some.inj hstep
      exact h.endCall fun c call' _ hcall' hholds => (hnothing c call' hcall' hholds).elim
    | ok ns =>
      rw [hok] at hstep
      obtain rfl := Option.some.inj hstep
      obtain ⟨-, hns⟩ := seq_eq_ok.mp hok
      refine h.setCall ⟨hinv.1, hinv.2, fun c hknown hsource hlow hup => .inr ?_⟩
        fun c call' hcall' hholds => (hnothing c call' hcall' hholds).elim
      obtain ⟨m, hm, rfl⟩ := hknown
      -- the fetch returns every message of the window
      obtain ⟨m', hm', hc⟩ := exists_mem_of_isWindow hwindow hm hsource hlow hup
      rw [← hc]
      exact exists_normalized hns hm'
  | ingestReady operations => simp [Reconnect.receive] at hstep
  | newest source fromExclusive => simp [Reconnect.receive] at hstep
  | recordLatest source fromExclusive upper => simp [Reconnect.receive] at hstep
  | ingest source fromExclusive upper upserts => simp [Reconnect.receive] at hstep

end Steps

/-! ## What a realtime call takes -/

section Trigger

open MediaGroupAggregationBuffer

variable {buffer : MediaGroupAggregationBuffer}

theorem wellFormed_trigger (h : buffer.WellFormed) (trigger : Trigger) :
    (trigger.release buffer).1.WellFormed := by
  cases trigger with
  | flushDue now => exact wellFormed_flushDue h now
  | flushAll => exact wellFormed_release h _
  | ingestUpdate message now =>
    rw [Trigger.release]
    cases hgroup : message.groupKey with
    | none =>
      rw [add_regular hgroup]
      exact wellFormed_flushDue h now
    | some k =>
      rw [add_grouped hgroup]
      exact wellFormed_hold (wellFormed_flushDue h now) hgroup now

/-- No component is lost between the buffer and the call. -/
theorem mem_trigger (h : buffer.WellFormed) (trigger : Trigger) {m : TelegramMessage}
    (hm : m ∈ buffer.messages) :
    (∃ m' ∈ (trigger.release buffer).1.messages, m'.component = m.component) ∨
      ∃ m' ∈ (trigger.release buffer).2, m'.component = m.component := by
  have hflush : ∀ now, m ∈ (buffer.flushDue now).1.messages ∨ m ∈ (buffer.flushDue now).2 :=
    fun now => h.mem_release (h.nodup_dueKeys now) hm
  cases trigger with
  | flushDue now => exact (hflush now).imp (fun hm => ⟨m, hm, rfl⟩) fun hm => ⟨m, hm, rfl⟩
  | flushAll =>
    exact (h.mem_release (nodup_sortedKeys h.nodup) hm).imp (fun hm => ⟨m, hm, rfl⟩)
      fun hm => ⟨m, hm, rfl⟩
  | ingestUpdate message now =>
    rw [Trigger.release]
    cases hgroup : message.groupKey with
    | none =>
      rw [add_regular hgroup]
      exact (hflush now).imp (fun hm => ⟨m, hm, rfl⟩)
        fun hm => ⟨m, List.mem_append_left _ hm, rfl⟩
    | some k =>
      rw [add_grouped hgroup]
      exact (hflush now).imp
        (fun hm => (wellFormed_flushDue h now).exists_messages_hold hgroup now (.inr hm))
        fun hm => ⟨m, hm, rfl⟩

/-- What a call takes or leaves waited before, or is the update. -/
theorem of_mem_trigger (h : buffer.WellFormed) {trigger : Trigger} {m : TelegramMessage}
    (hm : m ∈ (trigger.release buffer).1.messages ∨ m ∈ (trigger.release buffer).2) :
    m ∈ buffer.messages ∨ ∃ now, trigger = .ingestUpdate m now := by
  have hflush : ∀ now, m ∈ (buffer.flushDue now).1.messages ∨ m ∈ (buffer.flushDue now).2 →
      m ∈ buffer.messages := fun now => h.of_mem_release (h.nodup_dueKeys now)
  cases trigger with
  | flushDue now => exact .inl (hflush now hm)
  | flushAll => exact .inl (h.of_mem_release (nodup_sortedKeys h.nodup) hm)
  | ingestUpdate message now =>
    rw [Trigger.release] at hm
    cases hgroup : message.groupKey with
    | none =>
      rw [add_regular hgroup, List.mem_append, List.mem_singleton] at hm
      rcases hm with hm | hm | rfl
      · exact .inl (hflush now (.inl hm))
      · exact .inl (hflush now (.inr hm))
      · exact .inr ⟨now, rfl⟩
    | some k =>
      rw [add_grouped hgroup] at hm
      rcases hm with hm | hm
      · rcases (wellFormed_flushDue h now).messages_hold hgroup hm with rfl | hm
        · exact .inr ⟨now, rfl⟩
        · exact .inl (hflush now (.inl hm))
      · exact .inl (hflush now (.inr hm))

/-- The greatest id of a source is that of one of its messages. -/
theorem mem_greatestBySource (messages : List TelegramMessage) :
    ∀ e ∈ greatestBySource messages,
      ∃ m ∈ messages, m.sourceChannelId = e.1 ∧ e.2 = m.telegramMessageId := by
  unfold greatestBySource
  induction messages using List.reverseRecOn with
  | nil => simp
  | append_singleton messages m ih =>
    rw [List.foldl_append, List.foldl_cons, List.foldl_nil]
    generalize messages.foldl raiseGreatest [] = greatest at ih
    have hold : ∀ e ∈ greatest,
        ∃ m' ∈ messages ++ [m], m'.sourceChannelId = e.1 ∧ e.2 = m'.telegramMessageId := by
      intro e he
      obtain ⟨m', hm', h⟩ := ih e he
      exact ⟨m', List.mem_append_left _ hm', h⟩
    intro e he
    rcases Dict.mem_set he with rfl | he
    · cases hl : greatest.lookup m.sourceChannelId with
      | none => exact ⟨m, by simp, rfl, by simp⟩
      | some id =>
        rcases le_total id m.telegramMessageId with hle | hle
        · exact ⟨m, by simp, rfl, max_eq_left hle⟩
        · obtain ⟨m', hm', hs, hid⟩ := hold _ (Dict.mem_of_lookup hl)
          exact ⟨m', hm', hs, (max_eq_right hle).trans hid⟩
    · exact hold e he

theorem mem_recordGreatest {messages : List TelegramMessage} {source id : ℕ}
    (h : .recordIngestedMessage source id ∈ recordGreatest messages) :
    ∃ m ∈ messages, m.sourceChannelId = source ∧ id = m.telegramMessageId := by
  obtain ⟨e, he, hop⟩ := List.mem_flatMap.mp h
  have hmem := mem_greatestBySource messages e ((List.perm_insertionSort _ _).mem_iff.mp he)
  simp only [List.mem_cons, reduceCtorEq, Operation.recordIngestedMessage.injEq, false_or,
    List.not_mem_nil, or_false] at hop
  rw [hop.1, hop.2]
  exact hmem

end Trigger

/-! ## The run -/

section Run

variable {sha256 : String → String} {s s' : State} {start : ℕ → ℕ}

/-- A realtime call that is enabled is a new one. -/
theorem lookup_of_enabled_realtime {name : ℕ} {trigger : Trigger}
    (henabled : enabled s (.realtime name trigger) = true) : s.calls.lookup name = none := by
  refine Dict.lookup_eq_none.mpr ?_
  cases trigger <;> simp only [enabled, Bool.and_eq_true, decide_eq_true_eq] at henabled
  · exact henabled.2
  · exact henabled
  · exact henabled

/-- The messages that a trigger leaves in the buffer or takes out of it are of the history. -/
theorem Inv.known_of_trigger (h : Inv start s) {name : ℕ} {trigger : Trigger}
    (henabled : enabled s (.realtime name trigger) = true) {m : TelegramMessage}
    (hm : m ∈ (trigger.release s.buffer).1.messages ∨ m ∈ (trigger.release s.buffer).2) :
    s.Known m.component := by
  rcases of_mem_trigger h.buffer hm with hm | ⟨now, rfl⟩
  · exact h.known m hm
  · simp only [enabled, Bool.and_eq_true, List.any_eq_true, decide_eq_true_eq] at henabled
    exact henabled.1

/-- Between the buffer and the call the messages taken are in neither. -/
theorem Inv.covered_or_taken (h : Inv start s) (trigger : Trigger) {c : ℕ × ℕ}
    (hpassed : s.Passed start c) :
    ({ s with buffer := (trigger.release s.buffer).1 } : State).Covered c ∨
      ∃ m ∈ (trigger.release s.buffer).2, m.component = c := by
  rcases h.covered c hpassed with hstored | ⟨m, hm, rfl⟩ | hheld
  · exact .inl (.inl hstored)
  · exact (mem_trigger h.buffer trigger hm).imp_left fun hw => .inr (.inl hw)
  · exact .inl (.inr (.inr hheld))

/-- A state that differs in the buffer, which a trigger released, and in its calls. -/
theorem Inv.released (h : Inv start s) {name : ℕ} {trigger : Trigger}
    (henabled : enabled s (.realtime name trigger) = true) (hhistory : s'.history = s.history)
    (hstore : s'.store = s.store) (hseen : s'.lastSeen = s.lastSeen)
    (hbuffer : s'.buffer = (trigger.release s.buffer).1)
    (hcalls : ∀ name call, s'.calls.lookup name = some call →
      s.calls.lookup name = some call ∨ CallInv s call)
    (hcovered : ∀ c, s.Passed start c → s'.Covered c) : Inv start s' := by
  obtain ⟨history, store, lastSeen, latestSeen, buffer, calls⟩ := s'
  obtain rfl : history = s.history := hhistory
  obtain rfl : store = s.store := hstore
  obtain rfl : lastSeen = s.lastSeen := hseen
  obtain rfl : buffer = (trigger.release s.buffer).1 := hbuffer
  exact ⟨wellFormed_trigger h.buffer trigger, fun m hm => h.known_of_trigger henabled (.inl hm),
    h.cursor, fun name call hcall => ((hcalls name call hcall).elim (h.call name call) id).later
      ⟨List.Subset.refl _, fun _ h => .inl h, fun _ => le_rfl, fun _ h => h⟩, hcovered⟩

/-- A realtime call takes its messages out of the buffer. -/
theorem Inv.realtime (h : Inv start s) {name : ℕ} {trigger : Trigger}
    (henabled : enabled s (.realtime name trigger) = true)
    (hsafe : SafeStep sha256 start s (.realtime name trigger)) :
    Inv start (ingestReady { s with buffer := (trigger.release s.buffer).1 } name
      (trigger.release s.buffer).2) := by
  have hfresh := lookup_of_enabled_realtime henabled
  unfold ingestReady
  split
  · rename_i hnil
    refine h.released henabled rfl rfl rfl rfl (fun _ _ hcall => .inl hcall) fun c hc => ?_
    refine (h.covered_or_taken trigger hc).resolve_right ?_
    rintro ⟨m, hm, -⟩
    rw [hnil] at hm
    exact absurd hm List.not_mem_nil
  · cases hns : normalizeTelegramMessages (trigger.release s.buffer).2 with
    | error e =>
      refine h.released henabled rfl rfl rfl rfl (fun _ _ hcall => .inl hcall) fun c hc => ?_
      rcases h.covered_or_taken trigger hc with hcovered | hm
      · exact hcovered
      · exact (hsafe (by rw [hns]; rfl) c hc hm).imp_right .inr
    | ok ns =>
      refine h.released henabled rfl rfl rfl rfl (fun name' call hcall => ?_) fun c hc => ?_
      · rcases lookup_setCall hcall with hold | rfl
        · exact .inl hold
        · refine .inr fun source id hop => ?_
          rcases List.mem_append.mp hop with hop | hop
          · simp at hop
          · obtain ⟨m, hm, hms, rfl⟩ := mem_recordGreatest hop
            obtain ⟨m', hm', hc⟩ := h.known_of_trigger henabled (.inr hm)
            exact ⟨m', hm', (congrArg Prod.fst hc).trans hms, (congrArg Prod.snd hc).ge⟩
      · rcases h.covered_or_taken trigger hc with hcovered | ⟨m, hm, rfl⟩
        · refine hcovered.setCall fun call hcall => ?_
          rw [show List.lookup name s.calls = none from hfresh] at hcall
          simp at hcall
        · obtain ⟨n, hn, hsource, hid⟩ := exists_normalized hns hm
          refine .inr (.inr (held_setCall ⟨n, ?_, hsource, hid⟩))
          rw [Call.upserts, List.mem_filterMap]
          exact ⟨.upsertMessage n, List.mem_append_left _ (List.mem_map_of_mem hn), rfl⟩

/-- A version appears. -/
theorem Inv.appear (h : Inv start s) {message : TelegramMessage}
    (hmay : mayAppear s.history message = true) :
    Inv start { s with history := s.history ++ [message] } := by
  have hnewer : ∀ c, ({ s with history := s.history ++ [message] } : State).Known c →
      s.Known c ∨ c = message.component ∧ ∀ m ∈ s.history, m.sourceChannelId = c.1 →
        m.telegramMessageId < c.2 := by
    rintro c ⟨m, hm, rfl⟩
    rcases List.mem_append.mp hm with hm | hm
    · exact .inl ⟨m, hm, rfl⟩
    obtain rfl := List.mem_singleton.mp hm
    simp only [mayAppear, Bool.or_eq_true, List.any_eq_true, decide_eq_true_eq,
      List.all_eq_true] at hmay
    exact hmay.imp id fun hnew => ⟨rfl, hnew⟩
  have hl : Later s { s with history := s.history ++ [message] } :=
    ⟨List.subset_append_left _ _, fun c hc => (hnewer c hc).imp_right And.right,
      fun _ => le_rfl, fun _ h => h⟩
  refine h.next hl rfl (fun _ => .inl le_rfl) (fun _ _ hcall => .inl hcall) fun c hc => ?_
  obtain ⟨hknown, hstart, hseen⟩ := hc
  rcases hnewer c hknown with hknown | ⟨-, hnew⟩
  · exact h.covered c ⟨hknown, hstart, hseen⟩
  · -- the cursor is not past a message newer than the history
    have hseen' : c.2 ≤ s.seen c.1 := hseen
    rcases h.cursor c.1 with hle | ⟨m, hm, hms, hid⟩
    · omega
    · exact absurd (hnew m hm hms) (by omega)

/-- Every step that meets the condition keeps the invariant. -/
theorem Inv.step (h : Inv start s) {a : Action} (hsafe : SafeStep sha256 start s a)
    (hstep : step sha256 s a = some s') : Inv start s' := by
  unfold Reconnect.step at hstep
  split_ifs at hstep with henabled
  cases a with
  | appear message =>
    obtain rfl := Option.some.inj hstep
    exact h.appear henabled
  | realtime name trigger =>
    obtain rfl := Option.some.inj hstep
    exact h.realtime henabled hsafe
  | reconcile name source =>
    obtain rfl := Option.some.inj hstep
    refine h.setCall (le_refl _) fun c call hcall => ?_
    have hfresh : s.calls.lookup name = none :=
      Dict.lookup_eq_none.mpr (by simpa [enabled] using henabled)
    rw [hfresh] at hcall
    simp at hcall
  | fetched name messages =>
    obtain ⟨call, hcall, hstep⟩ := Option.bind_eq_some_iff.mp hstep
    exact h.receive hcall hstep
  | proceed name =>
    obtain ⟨call, hcall, hstep⟩ := Option.bind_eq_some_iff.mp hstep
    exact h.proceed hcall (hsafe call hcall) hstep
  | crash =>
    obtain rfl := Option.some.inj hstep
    exact ⟨⟨List.nodup_nil, fun _ _ h => by simp at h, fun _ _ _ _ h => by simp at h⟩,
      fun m hm => by simp [MediaGroupAggregationBuffer.messages] at hm, h.cursor,
      fun _ _ h => by simp at h, fun c hc => .inl (hsafe c hc)⟩

/-- A process that has just started: nothing is in memory. -/
structure State.Fresh (s : State) : Prop where
  buffer : s.buffer.pending = []
  calls : s.calls = []

theorem Inv.of_fresh (h : s.Fresh) : Inv s.seen s where
  buffer := by
    refine ⟨?_, fun _ _ hl => ?_, fun _ _ _ _ hl => ?_⟩
    · rw [h.buffer]
      exact List.nodup_nil
    · simp [h.buffer] at hl
    · simp [h.buffer] at hl
  known := fun m hm => by simp [MediaGroupAggregationBuffer.messages, h.buffer] at hm
  cursor := fun _ => .inl le_rfl
  call := fun _ _ hl => by simp [h.calls] at hl
  covered := fun c hc => absurd hc.2.2 (not_le.mpr hc.2.1)

/-- In a run whose steps meet the condition, every message of the history between the
first cursor and the cursor is stored, or waits in the buffer, or a call under way has
still to upsert it. With nothing in memory it is stored. -/
theorem cursor_skips_nothing (hfresh : s.Fresh) {actions : List Action}
    (hsafe : Runs.Along (step sha256) (SafeStep sha256 s.seen) s actions)
    (hrun : Runs.run (step sha256) s actions = some s') :
    ∀ m ∈ s'.history, s.seen m.sourceChannelId < m.telegramMessageId →
      m.telegramMessageId ≤ s'.seen m.sourceChannelId →
      s'.Stored m.component ∨ s'.Waits m.component ∨ s'.Held m.component := by
  have hinv : Inv s.seen s' :=
    Runs.run_invariant (fun _ _ _ h hsafe hstep => h.step hsafe hstep) (Inv.of_fresh hfresh) hsafe
      hrun
  exact fun m hm hstart hseen => hinv.covered m.component ⟨⟨m, hm, rfl⟩, hstart, hseen⟩

end Run

/-- A process that starts with empty tables. -/
def emptyState : State where
  history := []
  store := {}
  lastSeen := []
  latestSeen := []
  buffer := ⟨3, by decide, []⟩

/-- Whether a message is stored or waits. -/
def State.keeps (s : State) (m : TelegramMessage) : Bool :=
  (s.store.parts.lookup m.component).isSome || s.buffer.messages.any (·.component = m.component)

/-- A check of the condition on a step: nothing raises, and what a cursor passes is stored or
waits. -/
def safeCheck (sha256 : String → String) (s : State) : Action → Bool
  | .realtime _ trigger =>
    (normalizeTelegramMessages (trigger.release s.buffer).2).toOption.isSome
  | .proceed name => (s.calls.lookup name).all fun call =>
    (call.upserts.head?.all fun m => (s.store.upsertMessage sha256 m).toOption.isSome) &&
      match call with
      | .ingestReady (.recordIngestedMessage source id :: _) =>
        s.history.all fun m =>
          m.sourceChannelId ≠ source || id < m.telegramMessageId || s.keeps m
      | _ => true
  | .crash => s.history.all fun m =>
    s.seen m.sourceChannelId < m.telegramMessageId || (s.store.parts.lookup m.component).isSome
  | _ => true

theorem State.covered_of_keeps {s : State} {m : TelegramMessage} (h : s.keeps m = true) :
    s.Covered m.component := by
  rcases Bool.or_eq_true_iff.mp h with h | h
  · exact .inl h
  · obtain ⟨m', hm', heq⟩ := List.any_eq_true.mp h
    exact .inr (.inl ⟨m', hm', of_decide_eq_true heq⟩)

theorem safeStep_of_safeCheck {sha256 : String → String} (start : ℕ → ℕ) {s : State} {a : Action}
    (h : safeCheck sha256 s a = true) : SafeStep sha256 start s a := by
  cases a with
  | appear => trivial
  | reconcile => trivial
  | fetched => trivial
  | realtime name trigger =>
    intro hnone
    rw [safeCheck, hnone] at h
    cases h
  | proceed name =>
    intro call hcall
    rw [safeCheck, hcall, Option.all_some, Bool.and_eq_true] at h
    obtain ⟨hupsert, hcursor⟩ := h
    refine ⟨?_, fun m hm hnone => ?_⟩
    · rintro source id operations rfl c ⟨m, hm, rfl⟩ hsource - hle
      have hkept := List.all_eq_true.mp hcursor m hm
      simp only [Bool.or_eq_true, decide_eq_true_eq] at hkept
      rcases hkept with (hne | hlt) | hkeeps
      · exact absurd hsource hne
      · exact absurd hle (Nat.not_le.mpr hlt)
      · exact State.covered_of_keeps hkeeps
    · rw [hm, Option.all_some, hnone] at hupsert
      cases hupsert
  | crash =>
    rintro c ⟨⟨m, hm, rfl⟩, -, hseen⟩
    have hstored := List.all_eq_true.mp h m hm
    rw [Bool.or_eq_true, decide_eq_true_eq] at hstored
    exact hstored.resolve_left (Nat.not_lt.mpr hseen)

/-- The parts of an album arrive and are ingested when the group is due. A later message is
missed, the process crashes, and reconciliation ingests it. -/
def albumAndReconnect : List Action :=
  [.appear (textMessage 1 5 (some 7) none "a"),
    .realtime 0 (.ingestUpdate (textMessage 1 5 (some 7) none "a") 0),
    .appear (textMessage 1 6 (some 7) none "b"),
    .realtime 0 (.ingestUpdate (textMessage 1 6 (some 7) none "b") 1),
    .realtime 0 (.flushDue 3), .proceed 0, .proceed 0, .proceed 0, .proceed 0,
    .appear (textMessage 1 8 none none "c"), .crash, .reconcile 1 1, .proceed 1, .proceed 1,
    .fetched 1 [textMessage 1 8 none none "c"], .proceed 1, .proceed 1]

theorem cursor_skips_nothing_reconnect :
    ∃ s', Runs.run (step id) emptyState albumAndReconnect = some s' ∧ s'.seen 1 = 8 ∧
      ∀ m ∈ s'.history, emptyState.seen m.sourceChannelId < m.telegramMessageId →
        m.telegramMessageId ≤ s'.seen m.sourceChannelId →
        s'.Stored m.component ∨ s'.Waits m.component ∨ s'.Held m.component := by
  have hsafe : Runs.Along (step id) (SafeStep id emptyState.seen) emptyState albumAndReconnect :=
    Runs.along_of_checks (fun _ _ h => safeStep_of_safeCheck _ h)
      (show Runs.checks (step id) (safeCheck id) emptyState albumAndReconnect = true by rfl)
  obtain ⟨s', hs'⟩ := Option.isSome_iff_exists.mp
    (show (Runs.run (step id) emptyState albumAndReconnect).isSome = true by rfl)
  have hseen : (Runs.run (step id) emptyState albumAndReconnect).map (·.seen 1) = some 8 := by rfl
  rw [hs', Option.map_some, Option.some.injEq] at hseen
  exact ⟨s', hs', hseen, cursor_skips_nothing ⟨rfl, rfl⟩ hsafe hs'⟩

/-- A part of an album waits while a later message is ingested; the process crashes, and
reconnects. -/
def lostPart : List Action :=
  [.appear (textMessage 1 5 (some 7) none "a"),
    .realtime 0 (.ingestUpdate (textMessage 1 5 (some 7) none "a") 0),
    .appear (textMessage 1 6 none none "b"),
    .realtime 1 (.ingestUpdate (textMessage 1 6 none none "b") 1),
    .proceed 1, .proceed 1, .proceed 1, .proceed 1, .crash,
    .reconcile 2 1, .proceed 2, .proceed 2]

/-- The cursor passes the part, the crash loses it, and reconciliation starts above it:
with nothing in memory, a message of the history below the cursor is not stored. -/
theorem cursor_skips_lost_part :
    emptyState.Fresh ∧ ∃ s', Runs.run (step id) emptyState lostPart = some s' ∧ s'.Fresh ∧
      ∃ m ∈ s'.history, emptyState.seen m.sourceChannelId < m.telegramMessageId ∧
        m.telegramMessageId ≤ s'.seen m.sourceChannelId ∧ ¬s'.Stored m.component := by
  refine ⟨⟨rfl, rfl⟩, ?_⟩
  obtain ⟨s', hs'⟩ := Option.isSome_iff_exists.mp
    (show (Runs.run (step id) emptyState lostPart).isSome = true by rfl)
  have hbuffer : (Runs.run (step id) emptyState lostPart).map (·.buffer.pending) = some [] := by rfl
  have hcalls : (Runs.run (step id) emptyState lostPart).map (·.calls) = some [] := by rfl
  have hhistory : (Runs.run (step id) emptyState lostPart).map (·.history) =
      some [textMessage 1 5 (some 7) none "a", textMessage 1 6 none none "b"] := by rfl
  have hseen : (Runs.run (step id) emptyState lostPart).map (·.seen 1) = some 6 := by rfl
  have hstored : (Runs.run (step id) emptyState lostPart).map
      (fun s => (s.store.parts.lookup (1, 5)).isSome) = some false := by rfl
  rw [hs', Option.map_some, Option.some.injEq] at hbuffer hcalls hhistory hseen hstored
  refine ⟨s', hs', ⟨hbuffer, hcalls⟩, textMessage 1 5 (some 7) none "a", by simp [hhistory],
    by decide, ?_, fun h => ?_⟩
  · rw [show (textMessage 1 5 (some 7) none "a").sourceChannelId = 1 from rfl, hseen]
    decide
  · exact absurd (hstored.symm.trans h) (by decide)

end Reconnect

end TgCurator
