import TgCurator.Analysis.Repository

/-!
# What an analysis transaction can do

Each method of the analysis repository leaves the tables but for the records of inference
calls, or has one of eight effects (`Effect`), each under a report of what it did.
`effect_claim` to `effect_commitCacheHit` give the effect of every method, and the later
invariants follow from the effects alone.
-/

namespace TgCurator

theorem StageRunRecord.isActive_of_due {row : StageRunRecord} {now : ℤ}
    (h : row.due now = true) : row.status.isActive = true := by
  unfold StageRunRecord.due at h
  cases hstatus : row.status <;> simp_all [StageRunStatus.isActive]

/-- The run, the stage version, the message and the target of a stage run. -/
def StageRunRecord.work (row : StageRunRecord) : ℕ × ℕ × ℕ × StageTarget :=
  (row.analysisRunId, row.analysisStageTemplateVersionId, row.messageId, row.target)

/-- A stage run stays as it is, or keeps its work while it is active. -/
inductive StageRunRecord.Kept : Option StageRunRecord → Option StageRunRecord → Prop
  | same (o : Option StageRunRecord) : Kept o o
  | moved {row row' : StageRunRecord} (hactive : row.status.isActive)
    (hwork : row'.work = row.work) : Kept (some row) (some row')

theorem AnalysisRunRecord.runMode_complete (run : AnalysisRunRecord)
    (stages : List StageRunRecord) (now : ℤ) : (run.complete stages now).runMode = run.runMode := by
  unfold AnalysisRunRecord.complete
  dsimp only
  split
  · rfl
  · split
    · rfl
    · split <;> rfl

namespace AnalysisTables

/-! ## Rows that a call finds -/

/-- A stage run under a lease token. -/
structure Leased (t : AnalysisTables) (stageRunId leaseToken : ℕ) (row : StageRunRecord) :
    Prop where
  found : t.stageRuns.lookup stageRunId = some row
  running : row.status = .running
  token : row.leaseToken = some leaseToken

variable {t t' : AnalysisTables} {snapshot : AnalysisStageSnapshot} {row : StageRunRecord}

theorem leased_of_lock {now : ℤ} {targetIds : Option (List ℕ)}
    (h : t.lockSnapshotTargets snapshot now targetIds = some row) :
    t.Leased snapshot.target.stageRunId snapshot.target.leaseToken row ∧
      row.target.targetId = snapshot.target.targetId := by
  unfold lockSnapshotTargets at h
  split_ifs at h
  simp only [Option.filter_eq_some_iff, Bool.and_eq_true, decide_eq_true_eq] at h
  obtain ⟨hrow, ⟨⟨hstatus, -⟩, htoken⟩, htarget⟩ := h
  exact ⟨⟨hrow, hstatus, htoken⟩, htarget⟩

/-- A call that presents another token than the current one finds nothing. -/
theorem lock_eq_none (hstale : ∀ row, ¬ t.Leased snapshot.target.stageRunId
    snapshot.target.leaseToken row) (now : ℤ) (targetIds : Option (List ℕ)) :
    t.lockSnapshotTargets snapshot now targetIds = none := by
  cases h : t.lockSnapshotTargets snapshot now targetIds with
  | none => rfl
  | some row => exact absurd (leased_of_lock h).1 (hstale row)

theorem leased_of_filter {claim : ClaimedAnalysisStageRun} {now : ℤ}
    (h : (t.stageRuns.lookup claim.stageRunId).filter (fun row =>
      row.status = .running && row.leaseToken = some claim.leaseToken &&
        row.leaseExpiresAt.any (now < ·)) = some row) :
    t.Leased claim.stageRunId claim.leaseToken row := by
  simp only [Option.filter_eq_some_iff, Bool.and_eq_true, decide_eq_true_eq] at h
  exact ⟨h.1, h.2.1.1, h.2.1.2⟩

/-! ## Effects -/

/-- What a transaction did. -/
inductive Report
  /-- it leased a stage run under a token -/
  | granted (stageRunId leaseToken : ℕ)
  /-- it ended a stage run whose attempts were exhausted -/
  | exhausted (stageRunId : ℕ)
  /-- it committed a result, for a run of a mode, from a provider or from a source -/
  | committed (stageRunId leaseToken : ℕ) (mode : RunMode) (source : Option ℕ)
    (negative : List NegativeGateAssignment)
  /-- it recorded a failure of a stage run -/
  | failed (stageRunId : ℕ)
  /-- it applied the negative gate to a run -/
  | gated (analysisRunId : ℕ)
  /-- it gave a run the aggregate of its stage runs -/
  | completed (analysisRunId : ℕ)

/-- What a transaction does. -/
inductive Effect (t : AnalysisTables) : Option Report → AnalysisTables → Prop
  /-- it only records an inference call -/
  | kept (inferenceCalls : Dict ℕ InferenceCallRecord) :
    Effect t none { t with inferenceCalls }
  /-- it leases a due stage run -/
  | leased {id : ℕ} {row : StageRunRecord} {run : AnalysisRunRecord} (now leaseDuration : ℤ)
    (hrow : t.stageRuns.lookup id = some row) (hactive : row.status.isActive)
    (hrun : t.runs.lookup row.analysisRunId = some run) (hopen : run.status.isTerminal = false)
    (hlt : row.attemptCount < row.maxAttempts) :
    Effect t (some (.granted id t.nextId))
      { t with
        stageRuns := t.stageRuns.set id (row.lease t.nextId now leaseDuration)
        runs := t.runs.set row.analysisRunId (run.begin now)
        nextId := t.nextId + 1 }
  /-- it ends a due stage run whose attempts are exhausted -/
  | exhausted {id : ℕ} {row : StageRunRecord} {run : AnalysisRunRecord} (now : ℤ)
    (hrow : t.stageRuns.lookup id = some row) (hactive : row.status.isActive)
    (hrun : t.runs.lookup row.analysisRunId = some run) (hopen : run.status.isTerminal = false) :
    Effect t (some (.exhausted id)) (t.terminalizeExhausted id row run now)
  /-- it starts an inference call -/
  | started {id leaseToken : ℕ} {row : StageRunRecord} (policy : CachePolicy)
    (cacheKey : Option StageCacheKey) (inferenceCalls : Dict ℕ InferenceCallRecord)
    (hrow : t.Leased id leaseToken row) :
    Effect t none
      { t with
        stageRuns := t.stageRuns.set id (row.start t.nextId (t.nextId + 1) policy cacheKey)
        inferenceCalls
        nextId := t.nextId + 2 }
  /-- it commits the result of a provider -/
  | committed {id leaseToken : ℕ} {row : StageRunRecord} {mode : RunMode}
    {rows : List ModelLabelAssignmentRecord} (result : ValidatedTargetResult) (now : ℤ)
    (hrow : t.Leased id leaseToken row)
    (hrows : rows = if mode = .test then [] else result.labels.map (row.assign id)) :
    Effect t (some (.committed id leaseToken mode none (gateRequests (numbered t.nextId rows))))
      { t with
        stageRuns := t.stageRuns.set id (row.succeed result now)
        wakeups := setWakeupTerminal t.wakeups analysisQueue id now
        assignments := t.assignments ++ numbered t.nextId rows
        nextId := t.nextId + rows.length }
  /-- it commits the result of another stage run -/
  | reused {id leaseToken sourceId : ℕ} {row source : StageRunRecord} {mode : RunMode}
    {rows : List ModelLabelAssignmentRecord} {result : ValidatedTargetResult}
    (cacheKey : StageCacheKey) (now : ℤ) (hrow : t.Leased id leaseToken row)
    (hsource : t.stageRuns.lookup sourceId = some source)
    (hsucceeded : source.status = .succeeded) (hresult : source.parsedResult = some result)
    (hrows : rows = if mode = .test then []
      else (t.assignmentsOf sourceId).map (copyAssignment · id row)) :
    Effect t (some (.committed id leaseToken mode (some sourceId)
        (gateRequests (numbered (t.nextId + 1) rows))))
      { t with
        stageRuns := t.stageRuns.set id
          (row.reuse t.nextId (rewriteCachedTarget result row.target.targetId) cacheKey sourceId
            now)
        wakeups := setWakeupTerminal t.wakeups analysisQueue id now
        assignments := t.assignments ++ numbered (t.nextId + 1) rows
        nextId := t.nextId + 1 + rows.length }
  /-- it records a failure, which is retried or final -/
  | failed {id leaseToken : ℕ} {row : StageRunRecord} (code errorType : String) (retryable : Bool)
    (retryAt now : ℤ) (hrow : t.Leased id leaseToken row) :
    Effect t (some (.failed id)) (t.retryOrFailRow id row code errorType retryable retryAt now)
  /-- it applies the negative gate -/
  | gated {runId : ℕ} {run : AnalysisRunRecord} (causal : Dict ℕ NegativeGateAssignment) (now : ℤ)
    (hrun : t.runs.lookup runId = some run) :
    Effect t (some (.gated runId)) (t.gated runId run causal now)
  /-- it gives a run the aggregate of its stage runs -/
  | aggregated {runId : ℕ} {run : AnalysisRunRecord} (now : ℤ)
    (hrun : t.runs.lookup runId = some run) :
    Effect t (some (.completed runId))
      { t with runs := t.runs.set runId (run.complete (t.orderedStages runId) now) }

theorem Effect.refl (t : AnalysisTables) : Effect t none t :=
  .kept t.inferenceCalls

/-! ## The effect of each method -/

/-- A claim is refused, or finds a due stage run of an open run, which it ends if its attempts
are exhausted, and leases otherwise. -/
theorem claim_cases (t : AnalysisTables) (stageRunId : ℕ) (now leaseDuration : ℤ) :
    t.claim stageRunId now leaseDuration = (t, none) ∨
      ∃ row run, t.stageRuns.lookup stageRunId = some row ∧ row.due now = true ∧
        t.runs.lookup row.analysisRunId = some run ∧ run.status.isTerminal = false ∧
        ((row.maxAttempts ≤ row.attemptCount ∧ t.claim stageRunId now leaseDuration =
            (t.terminalizeExhausted stageRunId row run now, none)) ∨
          (row.attemptCount < row.maxAttempts ∧ t.claim stageRunId now leaseDuration =
            ({ t with
              stageRuns := t.stageRuns.set stageRunId (row.lease t.nextId now leaseDuration)
              runs := t.runs.set row.analysisRunId (run.begin now)
              nextId := t.nextId + 1 },
              some ((row.lease t.nextId now leaseDuration).claimed stageRunId t.nextId run)))) := by
  unfold claim
  cases hrow : (t.stageRuns.lookup stageRunId).filter (·.due now) with
  | none => exact .inl rfl
  | some row =>
    obtain ⟨hrow, hdue⟩ := Option.filter_eq_some_iff.mp hrow
    dsimp only
    cases hrun : t.runs.lookup row.analysisRunId with
    | none => exact .inl rfl
    | some run =>
      dsimp only
      split_ifs with hterminal hexhausted
      · exact .inl rfl
      · exact .inr ⟨row, run, hrow, hdue, hrun, by simpa using hterminal, .inl ⟨hexhausted, rfl⟩⟩
      · exact .inr ⟨row, run, hrow, hdue, hrun, by simpa using hterminal,
          .inr ⟨Nat.lt_of_not_le hexhausted, rfl⟩⟩

/-- A claim leases a stage run, or is refused. -/
theorem effect_claim (t : AnalysisTables) (stageRunId : ℕ) (now leaseDuration : ℤ) :
    ((t.claim stageRunId now leaseDuration).2 = none ∧
        ∃ report, Effect t report (t.claim stageRunId now leaseDuration).1 ∧
          (report = none ∨ report = some (.exhausted stageRunId))) ∨
      ∃ row run, t.stageRuns.lookup stageRunId = some row ∧
        t.runs.lookup row.analysisRunId = some run ∧
        (t.claim stageRunId now leaseDuration).2 =
          some ((row.lease t.nextId now leaseDuration).claimed stageRunId t.nextId run) ∧
        Effect t (some (.granted stageRunId t.nextId)) (t.claim stageRunId now leaseDuration).1 := by
  rcases claim_cases t stageRunId now leaseDuration with
    hclaim | ⟨row, run, hrow, hdue, hrun, hopen, ⟨-, hclaim⟩ | ⟨hlt, hclaim⟩⟩
  · rw [hclaim]
    exact .inl ⟨rfl, none, .refl t, .inl rfl⟩
  · rw [hclaim]
    exact .inl ⟨rfl, _, .exhausted now hrow (StageRunRecord.isActive_of_due hdue) hrun hopen,
      .inr rfl⟩
  · rw [hclaim]
    exact .inr ⟨row, run, hrow, hrun, rfl, .leased now leaseDuration hrow
      (StageRunRecord.isActive_of_due hdue) hrun hopen hlt⟩

theorem effect_startInference (t : AnalysisTables) (snapshot : AnalysisStageSnapshot)
    (cacheKey : Option StageCacheKey) (now : ℤ) :
    Effect t none (t.startInference snapshot cacheKey now).1 := by
  unfold startInference
  cases hlock : t.lockSnapshotTargets snapshot now none with
  | none => exact .refl t
  | some row => exact .started _ _ _ (leased_of_lock hlock).1

theorem effect_recordInferenceSuccess (t : AnalysisTables) (started : StartedInferenceCall)
    (now : ℤ) : Effect t none (t.recordInferenceSuccess started now).1 := by
  unfold recordInferenceSuccess
  cases t.pendingCall started with
  | none => exact .refl t
  | some call => exact .kept _

theorem effect_recordInferenceFailure (t : AnalysisTables) (started : StartedInferenceCall)
    (code errorType : String) (retryable : Bool) (now : ℤ) :
    Effect t none (t.recordInferenceFailure started code errorType retryable now).1 := by
  unfold recordInferenceFailure
  cases t.pendingCall started with
  | none => exact .refl t
  | some call => exact .kept _

/-- A call that records a failure of its target changes the tables or tells that it did not. -/
theorem effect_retryOrFailTargets (t : AnalysisTables) (snapshot : AnalysisStageSnapshot)
    (targetId : ℕ) (code errorType : String) (retryable : Bool) (retryAt now : ℤ) :
    t.retryOrFailTargets snapshot targetId code errorType retryable retryAt now = (t, false) ∨
      ∃ t', t.retryOrFailTargets snapshot targetId code errorType retryable retryAt now =
        (t', true) ∧ Effect t (some (.failed snapshot.target.stageRunId)) t' := by
  unfold retryOrFailTargets
  cases hlock : t.lockSnapshotTargets snapshot now (some [targetId]) with
  | none => exact .inl rfl
  | some row => exact .inr ⟨_, rfl, .failed _ _ _ _ _ (leased_of_lock hlock).1⟩

theorem effect_retryOrFailClaim (t : AnalysisTables) (claim : ClaimedAnalysisStageRun)
    (code errorType : String) (retryable : Bool) (retryAt now : ℤ) :
    t.retryOrFailClaim claim code errorType retryable retryAt now = (t, false) ∨
      ∃ t', t.retryOrFailClaim claim code errorType retryable retryAt now = (t', true) ∧
        Effect t (some (.failed claim.stageRunId)) t' := by
  unfold retryOrFailClaim
  split
  · exact .inl rfl
  · exact .inr ⟨_, rfl, .failed _ _ _ _ _ (leased_of_filter ‹_›)⟩

/-- The gate is applied, or refused. -/
theorem effect_applyNegativeGate (t : AnalysisTables) (analysisRunId : ℕ)
    (assignments : List NegativeGateAssignment) (now : ℤ) :
    t.applyNegativeGate analysisRunId assignments now = (t, false) ∨
      ∃ run, t.runs.lookup analysisRunId = some run ∧
        t.applyNegativeGate analysisRunId assignments now =
          (t.gated analysisRunId run (causalByMessage assignments) now, true) := by
  unfold applyNegativeGate
  cases hrun : (t.runs.lookup analysisRunId).filter (·.runMode ≠ .test) with
  | none =>
    dsimp only
    split_ifs <;> exact .inl rfl
  | some run =>
    dsimp only
    split_ifs
    · exact .inl rfl
    · exact .inr ⟨run, (Option.filter_eq_some_iff.mp hrun).1, rfl⟩
    · exact .inl rfl
    · exact .inl rfl

theorem effect_completeAnalysisRun (t : AnalysisTables) (analysisRunId : ℕ) (now : ℤ) :
    t.completeAnalysisRun analysisRunId now = (t, false) ∨
      ∃ t', t.completeAnalysisRun analysisRunId now = (t', true) ∧
        Effect t (some (.completed analysisRunId)) t' := by
  unfold completeAnalysisRun
  cases hrun : t.runs.lookup analysisRunId with
  | none => exact .inl rfl
  | some run => exact .inr ⟨_, rfl, .aggregated now hrun⟩

/-! ## Commits -/

theorem addAssignments_eq_ok {rows : List ModelLabelAssignmentRecord}
    {negative : List NegativeGateAssignment} (h : t.addAssignments rows = .ok (t', negative)) :
    t' = { t with
      assignments := t.assignments ++ numbered t.nextId rows
      nextId := t.nextId + rows.length } ∧ negative = gateRequests (numbered t.nextId rows) := by
  unfold addAssignments at h
  split_ifs at h
  obtain ⟨rfl, rfl⟩ := Prod.mk.inj (Except.ok.inj h)
  exact ⟨rfl, rfl⟩

/-- A commit of a provider's result does nothing, or commits the result. -/
theorem effect_commitValidatedTargets {started : StartedInferenceCall}
    {result : Option ValidatedTargetResult} {now : ℤ} {committed : AnalysisCommitResult}
    (h : t.commitValidatedTargets snapshot started result now = .ok (t', committed)) :
    (t' = t ∧ committed = {}) ∨
      (Effect t (some (.committed snapshot.target.stageRunId snapshot.target.leaseToken
        snapshot.claim.runMode none committed.negativeGateAssignments)) t' ∧
          committed.committedTargetIds ≠ []) := by
  unfold commitValidatedTargets at h
  cases result with
  | none =>
    obtain ⟨rfl, rfl⟩ := Prod.mk.inj (Except.ok.inj h)
    exact .inl ⟨rfl, rfl⟩
  | some result =>
    dsimp only at h
    cases hlock : (t.lockSnapshotTargets snapshot now (some [result.targetId])).filter
      (·.inferenceCallId = some started.inferenceCallId) with
    | none =>
      rw [hlock] at h
      obtain ⟨rfl, rfl⟩ := Prod.mk.inj (Except.ok.inj h)
      exact .inl ⟨rfl, rfl⟩
    | some row =>
      rw [hlock] at h
      obtain ⟨⟨t₁, negative⟩, hadd, h⟩ := bind_eq_ok.mp h
      obtain ⟨rfl, rfl⟩ := Prod.mk.inj (Except.ok.inj h)
      obtain ⟨rfl, rfl⟩ := addAssignments_eq_ok hadd
      have hleased := (leased_of_lock (Option.filter_eq_some_iff.mp hlock).1).1
      exact .inr ⟨.committed result now hleased rfl, by simp⟩

/-- A commit of a cached result does nothing, or reuses the result of its source. -/
theorem effect_commitCacheHit {cacheKey : StageCacheKey} {hit : AnalysisCacheHit} {now : ℤ}
    {committed : AnalysisCommitResult}
    (h : t.commitCacheHit snapshot cacheKey hit now = .ok (t', committed)) :
    (t' = t ∧ committed = {}) ∨
      (Effect t (some (.committed snapshot.target.stageRunId snapshot.target.leaseToken
        snapshot.claim.runMode (some hit.sourceStageRunId) committed.negativeGateAssignments)) t' ∧
          committed.committedTargetIds ≠ []) := by
  unfold commitCacheHit at h
  cases hsource : (t.stageRuns.lookup hit.sourceStageRunId).filter
    (·.exactCacheSource cacheKey) with
  | none =>
    rw [hsource] at h
    obtain ⟨rfl, rfl⟩ := Prod.mk.inj (Except.ok.inj h)
    exact .inl ⟨rfl, rfl⟩
  | some source =>
    rw [hsource] at h
    dsimp only at h
    cases hlock : t.lockSnapshotTargets snapshot now none with
    | none =>
      rw [hlock] at h
      obtain ⟨rfl, rfl⟩ := Prod.mk.inj (Except.ok.inj h)
      exact .inl ⟨rfl, rfl⟩
    | some row =>
      rw [hlock] at h
      obtain ⟨⟨t₁, negative⟩, hadd, h⟩ := bind_eq_ok.mp h
      obtain ⟨rfl, rfl⟩ := Prod.mk.inj (Except.ok.inj h)
      obtain ⟨rfl, rfl⟩ := addAssignments_eq_ok hadd
      obtain ⟨hsource, hexact⟩ := Option.filter_eq_some_iff.mp hsource
      simp only [StageRunRecord.exactCacheSource, Bool.and_eq_true, decide_eq_true_eq] at hexact
      obtain ⟨result, hresult⟩ := Option.isSome_iff_exists.mp hexact.1.1.1.2
      obtain ⟨hleased, htarget⟩ := leased_of_lock hlock
      refine .inr ⟨?_, by simp⟩
      rw [hresult, Option.getD_some, ← htarget]
      exact .reused cacheKey now hleased hsource hexact.1.1.1.1 hresult rfl

/-! ## What every effect keeps -/

/-- No stage run is made or dropped, and those that ended stay as they are. -/
def RowsKept (t t' : AnalysisTables) : Prop :=
  ∀ id, StageRunRecord.Kept (t.stageRuns.lookup id) (t'.stageRuns.lookup id)

theorem rowsKept_set {id : ℕ} {row' : StageRunRecord} (hrow : t.stageRuns.lookup id = some row)
    (hactive : row.status.isActive) (ht' : t'.stageRuns = t.stageRuns.set id row')
    (hwork : row'.work = row.work) : t.RowsKept t' := by
  intro id'
  rw [ht']
  by_cases hid : id' = id
  · subst hid
    rw [hrow, Dict.lookup_set_self]
    exact .moved hactive hwork
  · rw [Dict.lookup_set_of_ne hid]
    exact .same _

theorem Leased.active {id leaseToken : ℕ} (h : t.Leased id leaseToken row) :
    row.status.isActive = true := by
  rw [h.running]
  rfl

theorem Leased.not_succeeded {id leaseToken : ℕ} (h : t.Leased id leaseToken row) :
    row.status ≠ .succeeded := by
  rw [h.running]
  decide

variable {report : Option Report}

theorem Effect.rowsKept (h : Effect t report t') : t.RowsKept t' := by
  cases h with
  | kept => exact fun _ => .same _
  | leased now leaseDuration hrow hactive => exact rowsKept_set hrow hactive rfl rfl
  | exhausted now hrow hactive => exact rowsKept_set hrow hactive rfl rfl
  | started policy cacheKey inferenceCalls hrow =>
    exact rowsKept_set hrow.found hrow.active rfl rfl
  | committed result now hrow => exact rowsKept_set hrow.found hrow.active rfl rfl
  | reused cacheKey now hrow => exact rowsKept_set hrow.found hrow.active rfl rfl
  | failed code errorType retryable retryAt now hrow =>
    unfold retryOrFailRow
    split_ifs <;> exact rowsKept_set hrow.found hrow.active rfl rfl
  | gated causal now =>
    intro id
    dsimp only [AnalysisTables.gated]
    rw [Dict.lookup_mapValues]
    cases t.stageRuns.lookup id with
    | none => exact .same _
    | some row =>
      rw [Option.map_some]
      split_ifs with hskip
      · simp only [gateSkips, Bool.and_eq_true] at hskip
        exact .moved hskip.2 rfl
      · exact .same _
  | aggregated => exact fun _ => .same _

theorem RowsKept.work (h : t.RowsKept t') (id : ℕ) :
    (t'.stageRuns.lookup id).map (·.work) = (t.stageRuns.lookup id).map (·.work) := by
  have hid := h id
  generalize t.stageRuns.lookup id = o at hid
  generalize t'.stageRuns.lookup id = o' at hid
  cases hid with
  | same => rfl
  | moved _ hwork => rw [Option.map_some, Option.map_some, hwork]

/-- A stage run that ended stays as it is. -/
theorem RowsKept.inactive (h : t.RowsKept t') {id : ℕ} (hrow : t.stageRuns.lookup id = some row)
    (hinactive : row.status.isActive = false) : t'.stageRuns.lookup id = some row := by
  have hid := h id
  rw [hrow] at hid
  generalize t'.stageRuns.lookup id = o' at hid
  cases hid with
  | same => rfl
  | moved hactive => simp [hinactive] at hactive

theorem RowsKept.found (h : t.RowsKept t') {id : ℕ} (hrow : t.stageRuns.lookup id = some row) :
    ∃ row', t'.stageRuns.lookup id = some row' ∧ row'.work = row.work := by
  have hwork := h.work id
  rw [hrow, Option.map_some] at hwork
  exact Option.map_eq_some_iff.mp hwork

theorem Effect.nodup_rows (h : Effect t report t') (hrows : t.stageRuns.keys.Nodup) :
    t'.stageRuns.keys.Nodup := by
  cases h with
  | kept => exact hrows
  | leased => exact Dict.nodup_keys_set hrows
  | exhausted => exact Dict.nodup_keys_set hrows
  | started => exact Dict.nodup_keys_set hrows
  | committed => exact Dict.nodup_keys_set hrows
  | reused => exact Dict.nodup_keys_set hrows
  | failed =>
    unfold retryOrFailRow
    split_ifs <;> exact Dict.nodup_keys_set hrows
  | gated =>
    dsimp only [AnalysisTables.gated]
    rw [Dict.keys_mapValues]
    exact hrows
  | aggregated => exact hrows

theorem Effect.mode (h : Effect t report t') (id : ℕ) :
    (t'.runs.lookup id).map (·.runMode) = (t.runs.lookup id).map (·.runMode) := by
  have hset : ∀ {runId : ℕ} {run run' : AnalysisRunRecord}, t.runs.lookup runId = some run →
      run'.runMode = run.runMode → ((t.runs.set runId run').lookup id).map (·.runMode) =
        (t.runs.lookup id).map (·.runMode) :=
    fun hrun hmode => Dict.map_lookup_set hrun hmode id
  cases h with
  | leased now leaseDuration hrow hactive hrun => exact hset hrun rfl
  | exhausted now hrow hactive hrun =>
    refine hset hrun ?_
    unfold AnalysisRunRecord.exhausted
    split_ifs <;> rfl
  | gated causal now hrun => exact hset hrun rfl
  | aggregated now hrun => exact hset hrun (AnalysisRunRecord.runMode_complete _ _ _)
  | failed =>
    unfold retryOrFailRow
    split_ifs <;> rfl
  | kept => rfl
  | started => rfl
  | committed => rfl
  | reused => rfl

/-- A message that is blocked stays blocked. -/
def MessagesKept (t t' : AnalysisTables) : Prop :=
  ∀ id, (t'.messages.lookup id).isSome = (t.messages.lookup id).isSome ∧
    ∀ message, t.messages.lookup id = some message → message.blockedFromAnalysis = true →
      t'.messages.lookup id = some message

theorem Effect.messagesKept (h : Effect t report t') : t.MessagesKept t' := by
  intro id
  cases h with
  | gated causal now =>
    dsimp only [AnalysisTables.gated]
    rw [Dict.lookup_mapValues]
    refine ⟨Option.isSome_map .., ?_⟩
    intro message hmessage hblocked
    rw [hmessage, Option.map_some]
    split
    · rfl
    · rw [MessageRecord.block, if_pos hblocked]
  | failed =>
    unfold retryOrFailRow
    split_ifs <;> exact ⟨rfl, fun _ h _ => h⟩
  | kept => exact ⟨rfl, fun _ h _ => h⟩
  | leased => exact ⟨rfl, fun _ h _ => h⟩
  | exhausted => exact ⟨rfl, fun _ h _ => h⟩
  | started => exact ⟨rfl, fun _ h _ => h⟩
  | committed => exact ⟨rfl, fun _ h _ => h⟩
  | reused => exact ⟨rfl, fun _ h _ => h⟩
  | aggregated => exact ⟨rfl, fun _ h _ => h⟩

/-! ## Assignments -/

theorem mem_numbered {α : Type} {start : ℕ} {rows : List α} {e : ℕ × α}
    (h : e ∈ numbered start rows) : e.2 ∈ rows := by
  obtain ⟨⟨a, i⟩, hmem, rfl⟩ := List.mem_map.mp h
  obtain ⟨-, -, ha⟩ := List.mem_zipIdx hmem
  dsimp only at ha ⊢
  rw [ha]
  exact List.getElem_mem _

theorem keys_numbered {α : Type} (start : ℕ) (rows : List α) :
    (numbered start rows).keys = List.range' start rows.length := by
  rw [numbered, Dict.keys, List.map_map, ← List.zipIdx_map_snd]
  rfl

/-- The assignments a commit adds to its stage run. -/
structure Added (t t' : AnalysisTables) (id : ℕ) (mode : RunMode)
    (negative : List NegativeGateAssignment) (added : Dict ℕ ModelLabelAssignmentRecord) : Prop where
  assignments : t'.assignments = t.assignments ++ added
  row : ∃ row, t'.stageRuns.lookup id = some row ∧ row.status = .succeeded ∧
    ∀ e ∈ added, mode ≠ .test ∧ ∃ label, e.2 = row.assign id label
  negative : negative = gateRequests added
  nodup : added.keys.Nodup
  fresh : ∀ k ∈ added.keys, t.nextId ≤ k ∧ k < t'.nextId

/-- What a commit adds. -/
theorem Effect.added {id leaseToken : ℕ} {mode : RunMode} {source : Option ℕ}
    {negative : List NegativeGateAssignment}
    (h : Effect t (some (.committed id leaseToken mode source negative)) t') :
    ∃ added, t.Added t' id mode negative added := by
  cases h with
  | @committed _ _ row _ rows result now hrow hrows =>
    refine ⟨_, rfl, ⟨_, Dict.lookup_set_self _ _ _, rfl, ?_⟩, rfl, ?_, ?_⟩
    · intro e he
      have hmem := mem_numbered he
      rw [hrows] at hmem
      split_ifs at hmem with hmode
      · cases hmem
      · obtain ⟨label, -, hlabel⟩ := List.mem_map.mp hmem
        exact ⟨hmode, label, hlabel.symm⟩
    · rw [keys_numbered]
      exact List.nodup_range'
    · intro k hk
      rw [keys_numbered, List.mem_range'_1] at hk
      exact hk
  | @reused _ _ sourceId row source _ rows result cacheKey now hrow _ _ _ hrows =>
    refine ⟨_, rfl, ⟨_, Dict.lookup_set_self _ _ _, rfl, ?_⟩, rfl, ?_, ?_⟩
    · intro e he
      have hmem := mem_numbered he
      rw [hrows] at hmem
      split_ifs at hmem with hmode
      · cases hmem
      · obtain ⟨copied, -, hcopied⟩ := List.mem_map.mp hmem
        exact ⟨hmode, copied.label, hcopied.symm⟩
    · rw [keys_numbered]
      exact List.nodup_range'
    · intro k hk
      rw [keys_numbered, List.mem_range'_1] at hk
      dsimp only
      omega

/-- Only a commit writes assignments. -/
theorem Effect.assignments (h : Effect t report t') :
    t'.assignments = t.assignments ∨ ∃ id leaseToken mode source negative,
      report = some (.committed id leaseToken mode source negative) := by
  cases h with
  | committed => exact .inr ⟨_, _, _, _, _, rfl⟩
  | reused => exact .inr ⟨_, _, _, _, _, rfl⟩
  | failed =>
    unfold retryOrFailRow
    split_ifs <;> exact .inl rfl
  | kept => exact .inl rfl
  | leased => exact .inl rfl
  | exhausted => exact .inl rfl
  | started => exact .inl rfl
  | gated => exact .inl rfl
  | aggregated => exact .inl rfl

theorem nextId_retryOrFailRow (id : ℕ) (row : StageRunRecord) (code errorType : String)
    (retryable : Bool) (retryAt now : ℤ) :
    (t.retryOrFailRow id row code errorType retryable retryAt now).nextId = t.nextId := by
  unfold retryOrFailRow
  split_ifs <;> rfl

theorem Effect.nextId_le (h : Effect t report t') : t.nextId ≤ t'.nextId := by
  cases h with
  | kept => exact le_rfl
  | leased => exact Nat.le_succ _
  | exhausted => exact le_rfl
  | started => exact Nat.le_add_right _ _
  | committed => exact Nat.le_add_right _ _
  | reused => exact (Nat.le_succ _).trans (Nat.le_add_right _ _)
  | failed => exact (nextId_retryOrFailRow _ _ _ _ _ _ _).ge
  | gated => exact le_rfl
  | aggregated => exact le_rfl

/-- Assignments belong to stage runs that succeeded. -/
def Assigned (t : AnalysisTables) : Prop :=
  ∀ e ∈ t.assignments, ∃ row, t.stageRuns.lookup e.2.stageRunId = some row ∧
    row.status = .succeeded ∧ e.2.analysisRunId = row.analysisRunId ∧
      e.2.messageId = row.messageId

theorem Assigned.effect (h : Assigned t) (he : Effect t report t') : Assigned t' := by
  have hold : ∀ e ∈ t.assignments, ∃ row, t'.stageRuns.lookup e.2.stageRunId = some row ∧
      row.status = .succeeded ∧ e.2.analysisRunId = row.analysisRunId ∧
        e.2.messageId = row.messageId := by
    intro e hmem
    obtain ⟨row, hrow, hsucceeded, hcolumns⟩ := h e hmem
    refine ⟨row, he.rowsKept.inactive hrow ?_, hsucceeded, hcolumns⟩
    rw [hsucceeded]
    rfl
  intro e hmem
  rcases he.assignments with hsame | ⟨id, leaseToken, mode, source, negative, rfl⟩
  · exact hold e (hsame ▸ hmem)
  · obtain ⟨added, hadded⟩ := he.added
    rw [hadded.assignments] at hmem
    rcases List.mem_append.mp hmem with hmem | hmem
    · exact hold e hmem
    · obtain ⟨row, hrow, hsucceeded, hassign⟩ := hadded.row
      obtain ⟨-, label, he⟩ := hassign e hmem
      rw [he]
      exact ⟨row, hrow, hsucceeded, rfl, rfl⟩

theorem Assigned.assignmentsOf (h : Assigned t) {id : ℕ}
    (hrow : t.stageRuns.lookup id = some row) (hstatus : row.status ≠ .succeeded) :
    t.assignmentsOf id = [] := by
  rw [AnalysisTables.assignmentsOf, List.map_eq_nil_iff, List.filter_eq_nil_iff]
  intro e hmem he
  obtain ⟨row', hrow', hsucceeded, -⟩ := h e hmem
  rw [of_decide_eq_true he, hrow] at hrow'
  obtain rfl := Option.some.inj hrow'
  exact hstatus hsucceeded

end AnalysisTables

end TgCurator
