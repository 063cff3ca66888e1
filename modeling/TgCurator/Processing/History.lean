import TgCurator.Messages.History
import TgCurator.Messages.Store
import TgCurator.Processing.Ranges

/-!
# Range processing

Schedulers and workers on one set of tables. A scheduler freezes windows and a worker
claims executions, records progress and failures, all at any time and with any arguments;
a worker that was granted a claim processes it with `RangeExecutionHistoryIngestion` of
`application/processing/history_ingestion.py`: it fetches the window, upserts its
messages, advances the watermark to the end and completes the execution. Each of these is
a step of its own, and a process can stop between any two.

`fetch_history` returns the messages that the history has in a window, in any version.

In every run the completed windows of a range tile the ids up to its watermark, the
active execution of a range is the next window, completing never rejects a holder at the
end of its window, and what was fetched for a completed window is stored
(`range_windows_tile`).
-/

namespace TgCurator

namespace Processing

/-! ## The system -/

/-- `_validate_history_window`. -/
def validateHistoryWindow (messages : List TelegramMessage) (claim : ClaimedRangeExecution) :
    Except PyError Unit :=
  messages.forM fun m => do
    ensure (m.sourceChannelId = claim.sourceChannelId)
      "Telegram history returned a message for another source channel"
    ensure (claim.fromMessageIdExclusive < m.telegramMessageId &&
        m.telegramMessageId ≤ claim.toMessageIdInclusive)
      "Telegram history returned a message outside the execution window"

/-- What a call of `process` has still to do. -/
inductive Process
  /-- before `fetch_history` -/
  | fetch (claim : ClaimedRangeExecution) (now : ℤ)
  /-- before the upserts left and `advance_watermark` -/
  | ingest (claim : ClaimedRangeExecution) (now : ℤ) (upserts : List NormalizedTelegramMessage)
  /-- before `complete` -/
  | complete (claim : ClaimedRangeExecution) (now : ℤ)

/-- The claim that is processed. -/
def Process.claim : Process → ClaimedRangeExecution
  | fetch claim _ => claim
  | ingest claim _ _ => claim
  | complete claim _ => claim

/-- The tables, the claims granted, the processes, and what `fetch_history` returned for
each execution. -/
structure State where
  tables : ProcessingTables
  store : Store
  claims : List ClaimedRangeExecution := []
  processes : Dict ℕ Process := []
  fetched : List (ℕ × List TelegramMessage) := []

/-- What can happen. A process is named by a number. -/
inductive Action
  /-- a scheduler proposes a window -/
  | createExecutionAndWakeup (execution : PendingRangeExecution) (queue : String) (availableAt : ℤ)
  /-- a worker claims an execution -/
  | claimExecution (executionId : ℕ) (now leaseDuration : ℤ)
  /-- a worker reports progress -/
  | advanceWatermark (executionId leaseToken watermarkMessageId : ℕ) (now : ℤ)
  /-- a worker reports a failure -/
  | failExecution (executionId leaseToken : ℕ) (errorCode errorType : String) (retryable : Bool)
    (retryAt now : ℤ)
  /-- the configuration of a source changes -/
  | configure (sourceChannelId : ℕ) (source : SourceChannel)
  /-- another ingestion upserts a message -/
  | upsertMessage (message : NormalizedTelegramMessage)
  /-- a worker starts to process a claim -/
  | process (name : ℕ) (claim : ClaimedRangeExecution) (now : ℤ)
  /-- `fetch_history` returns -/
  | fetched (name : ℕ) (messages : List TelegramMessage)
  /-- the next step of a process -/
  | proceed (name : ℕ)
  /-- a process stops -/
  | crash (name : ℕ)

/-- A process after its next step. -/
def setProcess (s : State) (name : ℕ) (left : Process) : State :=
  { s with processes := s.processes.set name left }

/-- A process ends. -/
def endProcess (s : State) (name : ℕ) : State :=
  { s with processes := s.processes.erase name }

section

variable (sha256 : String → String) (history : List TelegramMessage)

/-- The next step of a process; an exception ends it. -/
def proceed (s : State) (name : ℕ) : Process → Option State
  | .fetch _ _ => none
  | .ingest claim now (m :: ms) =>
    match s.store.upsertMessage sha256 m with
    | .ok store => some (setProcess { s with store } name (.ingest claim now ms))
    | .error _ => some (endProcess s name)
  | .ingest claim now [] =>
    match s.tables.advanceWatermark claim.executionId claim.leaseToken claim.toMessageIdInclusive
      now with
    | (tables, true) => some (setProcess { s with tables } name (.complete claim now))
    | (tables, false) => some (endProcess { s with tables } name)
  | .complete claim now =>
    match s.tables.completeExecution claim.executionId claim.leaseToken now with
    | .ok (tables, _) => some (endProcess { s with tables } name)
    | .error _ => some (endProcess s name)

/-- The history arrives at a process that waits for it. -/
def receive (s : State) (name : ℕ) (messages : List TelegramMessage) : Process → Option State
  | .fetch claim now =>
    if isWindow history claim.sourceChannelId claim.fromMessageIdExclusive
        claim.toMessageIdInclusive messages then
      let s := { s with fetched := s.fetched ++ [(claim.executionId, messages)] }
      match (do
        validateHistoryWindow messages claim
        normalizeTelegramMessages messages) with
      | .error _ => some (endProcess s name)
      | .ok upserts => some (setProcess s name (.ingest claim now upserts))
    else none
  | _ => none

/-- One step of the system. -/
def step (s : State) : Action → Option State
  | .createExecutionAndWakeup execution queue availableAt =>
    match s.tables.createExecutionAndWakeup execution queue availableAt with
    | .ok (tables, _) => some { s with tables }
    | .error _ => some s
  | .claimExecution executionId now leaseDuration =>
    let (tables, claim) := s.tables.claimExecution executionId now leaseDuration
    some { s with tables, claims := s.claims ++ claim.toList }
  | .advanceWatermark executionId leaseToken watermarkMessageId now =>
    some { s with tables := (s.tables.advanceWatermark executionId leaseToken watermarkMessageId
      now).1 }
  | .failExecution executionId leaseToken errorCode errorType retryable retryAt now =>
    some { s with tables := (s.tables.failExecution executionId leaseToken errorCode errorType
      retryable retryAt now).1 }
  | .configure sourceChannelId source =>
    some { s with tables :=
      { s.tables with sources := s.tables.sources.set sourceChannelId source } }
  | .upsertMessage message =>
    match s.store.upsertMessage sha256 message with
    | .ok store => some { s with store }
    | .error _ => some s
  | .process name claim now =>
    if claim ∈ s.claims ∧ name ∉ s.processes.keys then some (setProcess s name (.fetch claim now))
    else none
  | .fetched name messages => (s.processes.lookup name).bind (receive history s name messages)
  | .proceed name => (s.processes.lookup name).bind (proceed sha256 s name)
  | .crash name => some (endProcess s name)

end

/-! ## What holds in every run -/

section

variable {sha256 : String → String} {history : List TelegramMessage}

/-- A message is in a window of a source. -/
def InWindow (sourceChannelId fromExclusive upper : ℕ) (m : TelegramMessage) : Prop :=
  m.sourceChannelId = sourceChannelId ∧ fromExclusive < m.telegramMessageId ∧
    m.telegramMessageId ≤ upper

/-- A component is in the tables. -/
def Stored (store : Store) (c : ℕ × ℕ) : Prop :=
  (store.parts.lookup c).isSome = true

/-- An execution with its source and its window. -/
def HasWindow (t : ProcessingTables) (id sourceChannelId fromExclusive upper : ℕ) : Prop :=
  ∃ row range, t.executions.lookup id = some row ∧ row.window = (fromExclusive, upper) ∧
    t.ranges.lookup row.processingRangeId = some range ∧ range.sourceChannelId = sourceChannelId

/-- The window of an execution is stored, apart from what is still to be upserted. -/
def Ingested (history : List TelegramMessage) (store : Store)
    (upserts : List NormalizedTelegramMessage) (sourceChannelId fromExclusive upper : ℕ) : Prop :=
  ∀ m ∈ history, InWindow sourceChannelId fromExclusive upper m →
    Stored store m.component ∨
      ∃ n ∈ upserts, n.sourceChannelId = m.component.1 ∧ m.component.2 ∈ n.telegramMessageIds

/-- What a process knows. -/
def ProcessInv (history : List TelegramMessage) (store : Store) : Process → Prop
  | .fetch _ _ => True
  | .ingest claim _ upserts => Ingested history store upserts claim.sourceChannelId
      claim.fromMessageIdExclusive claim.toMessageIdInclusive
  | .complete claim _ => Ingested history store [] claim.sourceChannelId
      claim.fromMessageIdExclusive claim.toMessageIdInclusive

/-- The invariant of a run. -/
structure Inv (history : List TelegramMessage) (s : State) : Prop where
  ranges : s.tables.RangesInv
  claim : ∀ claim ∈ s.claims, HasWindow s.tables claim.executionId claim.sourceChannelId
    claim.fromMessageIdExclusive claim.toMessageIdInclusive
  claimed : ∀ name p, s.processes.lookup name = some p → p.claim ∈ s.claims
  process : ∀ name p, s.processes.lookup name = some p → ProcessInv history s.store p
  completed : ∀ id row source, s.tables.executions.lookup id = some row →
    row.status = .completed →
      HasWindow s.tables id source row.fromMessageIdExclusive row.toMessageIdInclusive →
        Ingested history s.store [] source row.fromMessageIdExclusive row.toMessageIdInclusive
  fetched : ∀ id messages, (id, messages) ∈ s.fetched → ∃ source fromExclusive upper,
    HasWindow s.tables id source fromExclusive upper ∧ ∀ m ∈ messages,
      ∃ m' ∈ history, m'.component = m.component ∧ InWindow source fromExclusive upper m'

theorem HasWindow.later {t t' : ProcessingTables} (hexec : t.ExecutionsLater t')
    (hranges : t.RangesLater t') {id source low up : ℕ} (h : HasWindow t id source low up) :
    HasWindow t' id source low up := by
  obtain ⟨row, range, hrow, hwindow, hrange, hsource⟩ := h
  obtain ⟨row', hrow', hwork⟩ := hexec id row hrow
  obtain ⟨range', hrange', hlater⟩ := hranges _ range hrange
  have hrid : row'.processingRangeId = row.processingRangeId := congrArg Prod.fst hwork
  exact ⟨row', range', hrow', (congrArg Prod.snd hwork).trans hwindow, hrid ▸ hrange',
    hlater.source.trans hsource⟩

/-- An execution has one window. -/
theorem HasWindow.unique {t : ProcessingTables} {id source low up source' low' up' : ℕ}
    (h : HasWindow t id source low up) (h' : HasWindow t id source' low' up') :
    source = source' ∧ low = low' ∧ up = up' := by
  obtain ⟨row, range, hrow, hwindow, hrange, hsource⟩ := h
  obtain ⟨row', range', hrow', hwindow', hrange', hsource'⟩ := h'
  obtain rfl := Option.some.inj (hrow.symm.trans hrow')
  obtain rfl := Option.some.inj (hrange.symm.trans hrange')
  obtain ⟨hlow, hup⟩ := Prod.mk.inj (hwindow.symm.trans hwindow')
  exact ⟨hsource.symm.trans hsource', hlow, hup⟩

theorem Ingested.mono {store store' : Store} {upserts upserts' : List NormalizedTelegramMessage}
    {source low up : ℕ} (h : Ingested history store upserts source low up)
    (hstored : ∀ c, Stored store c → Stored store' c)
    (hupserts : ∀ n ∈ upserts, ∀ c : ℕ × ℕ, n.sourceChannelId = c.1 →
      c.2 ∈ n.telegramMessageIds → Stored store' c ∨ n ∈ upserts') :
    Ingested history store' upserts' source low up := by
  intro m hm hwindow
  rcases h m hm hwindow with hold | ⟨n, hn, hsource, hid⟩
  · exact .inl (hstored _ hold)
  · exact (hupserts n hn _ hsource hid).imp_right fun hn' => ⟨n, hn', hsource, hid⟩

theorem ProcessInv.mono {store store' : Store} {p : Process} (h : ProcessInv history store p)
    (hstored : ∀ c, Stored store c → Stored store' c) : ProcessInv history store' p := by
  cases p with
  | fetch claim now => trivial
  | ingest claim now upserts => exact Ingested.mono h hstored fun _ hn _ _ _ => .inr hn
  | complete claim now => exact Ingested.mono h hstored fun _ hn _ _ _ => .inr hn

variable {s : State}

/-- A transaction on the range tables that completes no execution, or one whose window is
stored. -/
theorem Inv.tables (h : Inv history s) {tables : ProcessingTables} {c : Option ℕ}
    (he : s.tables.Effect tables c)
    (hc : ∀ id, c = some id → ∀ source low up, HasWindow s.tables id source low up →
      Ingested history s.store [] source low up) : Inv history { s with tables } where
  ranges := h.ranges.effect he
  claim := fun claim hclaim => (h.claim claim hclaim).later he.executionsLater he.rangesLater
  claimed := h.claimed
  process := h.process
  completed := by
    intro id row' source hrow' hstatus hwindow
    have hhas : ∀ {row}, s.tables.executions.lookup id = some row → HasWindow s.tables id source
        row'.fromMessageIdExclusive row'.toMessageIdInclusive := by
      intro row hrow
      obtain ⟨range, start, hrange, -⟩ := h.ranges.range id row hrow
      have hold : HasWindow s.tables id range.sourceChannelId row.fromMessageIdExclusive
          row.toMessageIdInclusive := ⟨row, range, hrow, rfl, hrange, rfl⟩
      obtain ⟨rfl, hlow, hup⟩ :=
        (hold.later he.executionsLater he.rangesLater).unique hwindow
      rwa [hlow, hup] at hold
    rcases he.completed_before hrow' hstatus with hrow | rfl
    · exact h.completed id row' source hrow hstatus (hhas hrow)
    · cases he with
      | completed hrow => exact hc id rfl _ _ _ (hhas hrow)
  fetched := by
    intro id messages hmem
    obtain ⟨source, low, up, hwindow, hmessages⟩ := h.fetched id messages hmem
    exact ⟨source, low, up, hwindow.later he.executionsLater he.rangesLater, hmessages⟩

/-- An upsert. -/
theorem Inv.upsert (h : Inv history s) {store : Store}
    (hstored : ∀ c, Stored s.store c → Stored store c) : Inv history { s with store } where
  ranges := h.ranges
  claim := h.claim
  claimed := h.claimed
  process := fun name p hp => (h.process name p hp).mono hstored
  completed := fun id row source hrow hstatus hwindow =>
    (h.completed id row source hrow hstatus hwindow).mono hstored fun _ hn _ _ _ => .inr hn
  fetched := h.fetched

theorem Inv.setProcess (h : Inv history s) {name : ℕ} {left : Process}
    (hclaim : left.claim ∈ s.claims) (hleft : ProcessInv history s.store left) :
    Inv history (setProcess s name left) where
  ranges := h.ranges
  claim := h.claim
  claimed := by
    intro name' p hp
    rcases Dict.of_lookup_set hp with ⟨-, rfl⟩ | ⟨-, hp⟩
    · exact hclaim
    · exact h.claimed name' p hp
  process := by
    intro name' p hp
    rcases Dict.of_lookup_set hp with ⟨-, rfl⟩ | ⟨-, hp⟩
    · exact hleft
    · exact h.process name' p hp
  completed := h.completed
  fetched := h.fetched

theorem Inv.endProcess (h : Inv history s) (name : ℕ) : Inv history (endProcess s name) where
  ranges := h.ranges
  claim := h.claim
  claimed := fun name' p hp => h.claimed name' p (Dict.of_lookup_erase hp).2
  process := fun name' p hp => h.process name' p (Dict.of_lookup_erase hp).2
  completed := h.completed
  fetched := h.fetched

/-! ## Steps -/

variable {s' : State} {name : ℕ}

/-- The next step of a process. -/
theorem Inv.proceed (h : Inv history s) {p : Process} (hp : s.processes.lookup name = some p)
    (hstep : proceed sha256 s name p = some s') :
    Inv history s' ∧ s.tables.RangesLater s'.tables := by
  have hclaim := h.claimed name p hp
  have hinv := h.process name p hp
  cases p with
  | fetch claim now => simp [Processing.proceed] at hstep
  | ingest claim now upserts =>
    cases upserts with
    | nil =>
      have he := (ProcessingTables.transition_advanceWatermark s.tables claim.executionId
        claim.leaseToken claim.toMessageIdInclusive now).effect
      rw [Processing.proceed] at hstep
      generalize s.tables.advanceWatermark claim.executionId claim.leaseToken
        claim.toMessageIdInclusive now = result at he hstep
      obtain ⟨tables, advanced⟩ := result
      have hnext : Inv history { s with tables } := h.tables he (by simp)
      cases advanced with
      | true =>
        obtain rfl := Option.some.inj hstep
        exact ⟨hnext.setProcess hclaim hinv, he.rangesLater⟩
      | false =>
        obtain rfl := Option.some.inj hstep
        exact ⟨hnext.endProcess name, he.rangesLater⟩
    | cons m ms =>
      rw [Processing.proceed] at hstep
      cases hupsert : s.store.upsertMessage sha256 m with
      | error e =>
        rw [hupsert] at hstep
        obtain rfl := Option.some.inj hstep
        exact ⟨h.endProcess name, .refl _⟩
      | ok store =>
        rw [hupsert] at hstep
        obtain rfl := Option.some.inj hstep
        obtain ⟨hkept, hstored⟩ := upsertMessage_stored hupsert
        refine ⟨(h.upsert hkept).setProcess hclaim (Ingested.mono hinv hkept ?_), .refl _⟩
        intro n hn c hsource hid
        rcases List.mem_cons.mp hn with rfl | hn
        · left
          have hi := hstored c.2 hid
          rwa [hsource] at hi
        · exact .inr hn
  | complete claim now =>
    rw [Processing.proceed] at hstep
    cases hcomplete : s.tables.completeExecution claim.executionId claim.leaseToken now with
    | error e =>
      rw [hcomplete] at hstep
      obtain rfl := Option.some.inj hstep
      exact ⟨h.endProcess name, .refl _⟩
    | ok result =>
      obtain ⟨tables, completed⟩ := result
      rw [hcomplete] at hstep
      obtain rfl := Option.some.inj hstep
      have hwindow : ∀ id, some claim.executionId = some id → ∀ source low up,
          HasWindow s.tables id source low up → Ingested history s.store [] source low up := by
        intro id hid source low up hhas
        obtain rfl := Option.some.inj hid
        obtain ⟨rfl, rfl, rfl⟩ := (h.claim claim hclaim).unique hhas
        exact hinv
      rcases ProcessingTables.transition_completeExecution hcomplete with he | he
      · exact ⟨(h.tables he.effect (by simp)).endProcess name, he.effect.rangesLater⟩
      · exact ⟨(h.tables he.effect hwindow).endProcess name, he.effect.rangesLater⟩

/-- The history arrives. -/
theorem Inv.receive (h : Inv history s) {p : Process} (hp : s.processes.lookup name = some p)
    {messages : List TelegramMessage} (hstep : receive history s name messages p = some s') :
    Inv history s' ∧ s.tables.RangesLater s'.tables := by
  have hclaim := h.claimed name p hp
  cases p with
  | ingest claim now upserts => simp [Processing.receive] at hstep
  | complete claim now => simp [Processing.receive] at hstep
  | fetch claim now =>
    rw [Processing.receive] at hstep
    split_ifs at hstep with hwindow
    dsimp only at hstep
    let fetched := s.fetched ++ [(claim.executionId, messages)]
    have hnext : Inv history { s with fetched } := by
      refine ⟨h.ranges, h.claim, h.claimed, h.process, h.completed, fun id ms hmem => ?_⟩
      rcases List.mem_append.mp hmem with hold | hnew
      · exact h.fetched id ms hold
      · obtain ⟨rfl, rfl⟩ := Prod.mk.inj (List.mem_singleton.mp hnew)
        refine ⟨_, _, _, h.claim claim hclaim, fun m hm => ?_⟩
        obtain ⟨⟨m', hm', hc⟩, hsource, hlow, hup⟩ := mem_window_of_isWindow hwindow hm
        obtain ⟨hs, hi⟩ := Prod.mk.inj hc
        exact ⟨m', hm', hc, hs.trans hsource, hi ▸ hlow, hi ▸ hup⟩
    cases hok : (do
        validateHistoryWindow messages claim
        normalizeTelegramMessages messages) with
    | error e =>
      rw [hok] at hstep
      obtain rfl := Option.some.inj hstep
      exact ⟨hnext.endProcess name, .refl _⟩
    | ok upserts =>
      rw [hok] at hstep
      obtain rfl := Option.some.inj hstep
      obtain ⟨-, hupserts⟩ := seq_eq_ok.mp hok
      refine ⟨hnext.setProcess hclaim fun m hm hin => .inr ?_, .refl _⟩
      obtain ⟨m', hm', hc⟩ := exists_mem_of_isWindow hwindow hm hin.1 hin.2.1 hin.2.2
      rw [← hc]
      exact exists_normalized hupserts hm'

/-- What the claim of an execution says of its row. -/
theorem hasWindow_of_claim {t : ProcessingTables} {executionId : ℕ} {now leaseDuration : ℤ}
    {claim : ClaimedRangeExecution}
    (h : (t.claimExecution executionId now leaseDuration).2 = some claim) :
    HasWindow t claim.executionId claim.sourceChannelId claim.fromMessageIdExclusive
      claim.toMessageIdInclusive := by
  unfold ProcessingTables.claimExecution at h
  cases hrow : t.executions.lookup executionId with
  | none => simp [hrow] at h
  | some row =>
    rw [hrow] at h
    dsimp only at h
    cases hrange : t.ranges.lookup row.processingRangeId with
    | none => simp [hrange] at h
    | some range =>
      rw [hrange] at h
      dsimp only at h
      split_ifs at h
      obtain rfl := Option.some.inj h
      exact ⟨row, range, hrow, rfl, hrange, rfl⟩

/-- Every step keeps the invariant, and none lowers a watermark. -/
theorem Inv.step (h : Inv history s) {a : Action} (hstep : step sha256 history s a = some s') :
    Inv history s' ∧ s.tables.RangesLater s'.tables := by
  cases a with
  | createExecutionAndWakeup execution queue availableAt =>
    rw [Processing.step] at hstep
    cases hcreate : s.tables.createExecutionAndWakeup execution queue availableAt with
    | error e =>
      rw [hcreate] at hstep
      obtain rfl := Option.some.inj hstep
      exact ⟨h, .refl _⟩
    | ok result =>
      rw [hcreate] at hstep
      obtain rfl := Option.some.inj hstep
      have he := (ProcessingTables.transition_createExecutionAndWakeup hcreate).effect
      exact ⟨h.tables he (by simp), he.rangesLater⟩
  | claimExecution executionId now leaseDuration =>
    obtain rfl := Option.some.inj hstep
    have he :=
      (ProcessingTables.transition_claimExecution s.tables executionId now leaseDuration).effect
    have hnext := h.tables he (by simp)
    refine ⟨⟨hnext.ranges, fun claim hclaim => ?_, fun name p hp => ?_, hnext.process,
      hnext.completed, hnext.fetched⟩, he.rangesLater⟩
    · rcases List.mem_append.mp hclaim with hold | hnew
      · exact hnext.claim claim hold
      · exact (hasWindow_of_claim (Option.mem_toList.mp hnew)).later he.executionsLater
          he.rangesLater
    · exact List.mem_append_left _ (h.claimed name p hp)
  | advanceWatermark executionId leaseToken watermarkMessageId now =>
    obtain rfl := Option.some.inj hstep
    have he := (ProcessingTables.transition_advanceWatermark s.tables executionId leaseToken
      watermarkMessageId now).effect
    exact ⟨h.tables he (by simp), he.rangesLater⟩
  | failExecution executionId leaseToken errorCode errorType retryable retryAt now =>
    obtain rfl := Option.some.inj hstep
    have he := (ProcessingTables.transition_failExecution s.tables executionId leaseToken
      errorCode errorType retryable retryAt now).effect
    exact ⟨h.tables he (by simp), he.rangesLater⟩
  | configure sourceChannelId source =>
    obtain rfl := Option.some.inj hstep
    exact ⟨h.tables (.kept rfl rfl) (by simp), .refl _⟩
  | upsertMessage message =>
    rw [Processing.step] at hstep
    cases hupsert : s.store.upsertMessage sha256 message with
    | error e =>
      rw [hupsert] at hstep
      obtain rfl := Option.some.inj hstep
      exact ⟨h, .refl _⟩
    | ok store =>
      rw [hupsert] at hstep
      obtain rfl := Option.some.inj hstep
      exact ⟨h.upsert (upsertMessage_stored hupsert).1, .refl _⟩
  | process name claim now =>
    rw [Processing.step] at hstep
    split_ifs at hstep with henabled
    obtain rfl := Option.some.inj hstep
    exact ⟨h.setProcess henabled.1 trivial, .refl _⟩
  | fetched name messages =>
    obtain ⟨p, hp, hstep⟩ := Option.bind_eq_some_iff.mp hstep
    exact h.receive hp hstep
  | proceed name =>
    obtain ⟨p, hp, hstep⟩ := Option.bind_eq_some_iff.mp hstep
    exact h.proceed hp hstep
  | crash name =>
    obtain rfl := Option.some.inj hstep
    exact ⟨h.endProcess name, .refl _⟩

/-! ## The result -/

/-- The windows of the completed executions of a range, ordered by their lower ends. -/
def orderedWindows (t : ProcessingTables) (rid : ℕ) : List (ℕ × ℕ) :=
  (t.completedWindows rid).insertionSort Tiling.StartsBy

/-- What the range-processing system promises of a state. -/
structure State.Sound (s : State) : Prop where
  /-- the completed windows tile the ids from the start to the watermark -/
  tiles : ∀ rid range start, s.tables.ranges.lookup rid = some range →
    range.resolvedStartMessageId = some start →
      Tiling.Tiles (start - 1) (orderedWindows s.tables rid) (range.low start)
  /-- each of these ids, and no other, is in exactly one of them -/
  once : ∀ rid range start, s.tables.ranges.lookup rid = some range →
    range.resolvedStartMessageId = some start → ∀ id : ℕ, start - 1 < id ∧ id ≤ range.low start ↔
      ∃! w, w ∈ orderedWindows s.tables rid ∧ Tiling.Holds w id
  /-- a range has at most one active execution -/
  one : ∀ id id' row row', s.tables.executions.lookup id = some row →
    s.tables.executions.lookup id' = some row' → row.status.isActive → row'.status.isActive →
      row.processingRangeId = row'.processingRangeId → id = id'
  /-- it starts at the watermark and ends at the active high watermark -/
  active : ∀ id row, s.tables.executions.lookup id = some row → row.status.isActive →
    ∃ range start, s.tables.ranges.lookup row.processingRangeId = some range ∧
      range.resolvedStartMessageId = some start ∧ row.fromMessageIdExclusive = range.low start ∧
      range.activeHighWatermarkMessageId = some row.toMessageIdInclusive
  /-- completing does not reject the holder of an unexpired lease at the end of its window -/
  completes : ∀ id row leaseToken expires now, s.tables.executions.lookup id = some row →
    row.status = .running → row.leaseToken = some leaseToken →
      row.leaseExpiresAt = some expires → now < expires →
        row.watermarkMessageId = row.toMessageIdInclusive →
          ∃ tables, s.tables.completeExecution id leaseToken now = .ok (tables, true)
  /-- what was fetched for a completed window is stored -/
  ingested : ∀ id row messages, s.tables.executions.lookup id = some row →
    row.status = .completed → (id, messages) ∈ s.fetched →
      ∀ m ∈ messages, Stored s.store m.component

theorem Inv.sound (h : Inv history s) : s.Sound where
  tiles := by
    intro rid range start hrange hstart
    obtain ⟨ws, hperm, htiles⟩ := h.ranges.tiles rid range start hrange hstart
    rw [orderedWindows, htiles.insertionSort_eq hperm]
    exact htiles
  once := by
    intro rid range start hrange hstart id
    obtain ⟨ws, hperm, htiles⟩ := h.ranges.tiles rid range start hrange hstart
    rw [orderedWindows, htiles.insertionSort_eq hperm]
    refine ⟨htiles.exists_unique, ?_⟩
    rintro ⟨w, ⟨hw, hholds⟩, -⟩
    exact htiles.mem_iff.mp ⟨w, hw, hholds⟩
  one := h.ranges.one
  active := by
    intro id row hrow hactive
    obtain ⟨range, start, hrange, hstart⟩ := h.ranges.range id row hrow
    exact ⟨range, start, hrange, hstart, h.ranges.active id row range start hrow hactive hrange
      hstart⟩
  completes := fun _ _ _ _ _ => h.ranges.completes
  ingested := by
    intro id row messages hrow hstatus hmem m hm
    obtain ⟨source, low, up, hwindow, hmessages⟩ := h.fetched id messages hmem
    obtain ⟨m', hm', hc, hin⟩ := hmessages m hm
    obtain ⟨range, start, hrange, -⟩ := h.ranges.range id row hrow
    have hhas : HasWindow s.tables id range.sourceChannelId row.fromMessageIdExclusive
        row.toMessageIdInclusive := ⟨row, range, hrow, rfl, hrange, rfl⟩
    obtain ⟨rfl, rfl, rfl⟩ := hhas.unique hwindow
    rcases h.completed id row _ hrow hstatus hhas m' hm' hin with hstored | ⟨n, hn, -⟩
    · rwa [hc] at hstored
    · simp at hn

/-- Nothing has been processed. -/
structure State.Fresh (s : State) : Prop where
  tables : s.tables.Fresh
  claims : s.claims = []
  processes : s.processes = []
  fetched : s.fetched = []

theorem Inv.of_fresh (h : s.Fresh) : Inv history s where
  ranges := .of_fresh h.tables
  claim := by simp [h.claims]
  claimed := by simp [h.processes]
  process := by simp [h.processes]
  completed := by simp [h.tables.executions]
  fetched := by simp [h.fetched]

/-- A run keeps the invariant, and lowers no watermark. -/
theorem Inv.run (h : Inv history s) {actions : List Action}
    (hrun : Runs.run (Processing.step sha256 history) s actions = some s') :
    Inv history s' ∧ s.tables.RangesLater s'.tables := by
  have hstep : ∀ u a u', (Inv history u ∧ s.tables.RangesLater u.tables) →
      Processing.step sha256 history u a = some u' →
        Inv history u' ∧ s.tables.RangesLater u'.tables := by
    intro u a u' hu hstep
    obtain ⟨hinv, hlater⟩ := hu.1.step hstep
    exact ⟨hinv, hu.2.trans hlater⟩
  exact Runs.run_invariant' hstep ⟨h, .refl _⟩ hrun

/-- In every run, the completed windows of a range tile its ids from the start up to the
watermark, its one active execution is the next window, completing never rejects a holder
at the end of its window, what was fetched for a completed window is stored, and no
watermark ever decreases. -/
theorem range_windows_tile (hfresh : s.Fresh) {actions : List Action}
    (hrun : Runs.run (Processing.step sha256 history) s actions = some s') :
    s'.Sound ∧ ∀ actions' s'', Runs.run (Processing.step sha256 history) s' actions' = some s'' →
      ∀ rid range w, s'.tables.ranges.lookup rid = some range →
        range.processingWatermarkMessageId = some w →
          ∃ range' w', s''.tables.ranges.lookup rid = some range' ∧
            range'.processingWatermarkMessageId = some w' ∧ w ≤ w' := by
  have hinv := ((Inv.of_fresh hfresh).run hrun).1
  refine ⟨hinv.sound, fun actions' s'' hrun' rid range w hrange hw => ?_⟩
  obtain ⟨range', hrange', hlater⟩ := (hinv.run hrun').2 rid range hrange
  obtain ⟨w', hw', hle⟩ := hlater.watermark w hw
  exact ⟨range', w', hrange', hw', hle⟩

end

/-- A source with one range, from its message 4 on. -/
def oneRange : State where
  tables := {
    sources := [(1, ⟨true, some 9⟩)]
    ranges := [(2, ⟨1, .latest, some 4, none, none, none, .pending, true, fun _ h =>
      Option.some.inj h ▸ Nat.succ_pos 3⟩)]
    executions := []
    wakeups := []
    nextToken := 0 }
  store := {}

/-- The claim of the first window. -/
def firstClaim : ClaimedRangeExecution :=
  ⟨3, 2, 1, 9, 3, 6, 3, 1, 5, 0⟩

/-- The window `(3, 6]` is frozen, claimed and processed; message 5 is the one in it. -/
def oneWindow : List Action :=
  [.createExecutionAndWakeup ⟨3, 2, 9, 3, 6, 5⟩ rangeExecutionQueue 0, .claimExecution 3 0 10,
    .process 0 firstClaim 1, .fetched 0 [textMessage 1 5 none none "a"], .proceed 0, .proceed 0,
    .proceed 0]

theorem range_windows_tile_one :
    ∃ s', Runs.run (step id [textMessage 1 5 none none "a"]) oneRange oneWindow = some s' ∧
      orderedWindows s'.tables 2 = [(3, 6)] ∧ s'.Sound ∧
      ∀ actions' s'', Runs.run (step id [textMessage 1 5 none none "a"]) s' actions' = some s'' →
        ∀ rid range w, s'.tables.ranges.lookup rid = some range →
          range.processingWatermarkMessageId = some w →
            ∃ range' w', s''.tables.ranges.lookup rid = some range' ∧
              range'.processingWatermarkMessageId = some w' ∧ w ≤ w' := by
  have hfresh : oneRange.Fresh := by
    refine ⟨⟨rfl, fun rid range hrange => ?_⟩, rfl, rfl, rfl⟩
    have hmem := Dict.mem_of_lookup hrange
    obtain ⟨-, rfl⟩ := Prod.mk.inj (List.mem_singleton.mp hmem)
    rfl
  obtain ⟨s', hs'⟩ := Option.isSome_iff_exists.mp
    (show (Runs.run (step id [textMessage 1 5 none none "a"]) oneRange oneWindow).isSome = true
      by rfl)
  have hwindows : (Runs.run (step id [textMessage 1 5 none none "a"]) oneRange oneWindow).map
      (fun s => orderedWindows s.tables 2) = some [(3, 6)] := by rfl
  rw [hs', Option.map_some, Option.some.injEq] at hwindows
  exact ⟨s', hs', hwindows, range_windows_tile hfresh hs'⟩

end Processing

end TgCurator
