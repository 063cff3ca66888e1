import TgCurator.Analysis.Effects
import TgCurator.Lease.Repository
import TgCurator.Processing.Leasing

/-!
# The leases of stage runs

The calls of the analysis repository, in any order and with any arguments, as a repository
of leased rows: a stage run is active until it has succeeded, failed or been skipped. A
claim that is returned is a grant, and a commit that reports its target is a commit.

A stage run that is skipped by the negative gate has no assignments and gets none
(`assigned_run`). Some calls present no token: recording the outcome of an inference call
writes that call (`perform_records`), also when the caller's lease was taken over
(`overtaken_caller_records`), and completing a run writes that run
(`perform_completeAnalysisRun`). `leased_work_done_once` is about stage runs and range
executions alike.
-/

namespace TgCurator

/-- The lease columns of `stage_runs`. -/
def stageColumns : Lease.Columns StageRunRecord where
  active row := row.status.isActive
  running row := row.status = .running
  token row := row.leaseToken
  attempts row := row.attemptCount
  maxAttempts row := row.maxAttempts
  active_of_running := by
    intro row h
    rw [of_decide_eq_true h]
    rfl

/-- A call that writes. -/
inductive AnalysisCall
  | claim (stageRunId : ℕ) (now leaseDuration : ℤ)
  | commitCacheHit (snapshot : AnalysisStageSnapshot) (cacheKey : StageCacheKey)
    (hit : AnalysisCacheHit) (now : ℤ)
  | startInference (snapshot : AnalysisStageSnapshot) (cacheKey : Option StageCacheKey) (now : ℤ)
  | recordInferenceSuccess (started : StartedInferenceCall) (now : ℤ)
  | recordInferenceFailure (started : StartedInferenceCall) (code errorType : String)
    (retryable : Bool) (now : ℤ)
  | commitValidatedTargets (snapshot : AnalysisStageSnapshot) (started : StartedInferenceCall)
    (result : Option ValidatedTargetResult) (now : ℤ)
  | retryOrFailTargets (snapshot : AnalysisStageSnapshot) (targetId : ℕ) (code errorType : String)
    (retryable : Bool) (retryAt now : ℤ)
  | retryOrFailClaim (claim : ClaimedAnalysisStageRun) (code errorType : String)
    (retryable : Bool) (retryAt now : ℤ)
  | applyNegativeGate (analysisRunId : ℕ) (assignments : List NegativeGateAssignment) (now : ℤ)
  | completeAnalysisRun (analysisRunId : ℕ) (now : ℤ)

namespace AnalysisCall

/-- The stage run and the lease token that a call presents. -/
def presents : AnalysisCall → Option (ℕ × ℕ)
  | commitCacheHit snapshot .. => some (snapshot.target.stageRunId, snapshot.target.leaseToken)
  | startInference snapshot .. => some (snapshot.target.stageRunId, snapshot.target.leaseToken)
  | commitValidatedTargets snapshot .. =>
    some (snapshot.target.stageRunId, snapshot.target.leaseToken)
  | retryOrFailTargets snapshot .. => some (snapshot.target.stageRunId, snapshot.target.leaseToken)
  | retryOrFailClaim held .. => some (held.stageRunId, held.leaseToken)
  | claim .. => none
  | recordInferenceSuccess .. => none
  | recordInferenceFailure .. => none
  | applyNegativeGate .. => none
  | completeAnalysisRun .. => none

/-- The inference call whose outcome a call records. -/
def records : AnalysisCall → Option StartedInferenceCall
  | recordInferenceSuccess started .. => some started
  | recordInferenceFailure started .. => some started
  | _ => none

end AnalysisCall

namespace AnalysisTables

/-- The event of a report. -/
def Report.event : Report → Option (ℕ × Lease.Event ℕ)
  | granted stageRunId leaseToken => some (stageRunId, .granted leaseToken)
  | committed stageRunId leaseToken .. => some (stageRunId, .committed leaseToken)
  | exhausted _ => none
  | failed _ => none
  | gated _ => none
  | completed _ => none

/-- The event of a commit that a caller made. -/
def commitEvent (snapshot : AnalysisStageSnapshot) (committed : AnalysisCommitResult) :
    Option (ℕ × Lease.Event ℕ) :=
  if committed.committedTargetIds = [] then none
  else some (snapshot.target.stageRunId, .committed snapshot.target.leaseToken)

/-- A call, with the grant or the commit that its caller learns of. -/
def perform (t : AnalysisTables) : AnalysisCall → AnalysisTables × Option (ℕ × Lease.Event ℕ)
  | .claim stageRunId now leaseDuration =>
    let (t, claim) := t.claim stageRunId now leaseDuration
    (t, claim.map fun claim => (claim.stageRunId, .granted claim.leaseToken))
  | .commitCacheHit snapshot cacheKey hit now =>
    match t.commitCacheHit snapshot cacheKey hit now with
    | .ok (t, committed) => (t, commitEvent snapshot committed)
    | .error _ => (t, none)
  | .startInference snapshot cacheKey now => ((t.startInference snapshot cacheKey now).1, none)
  | .recordInferenceSuccess started now => ((t.recordInferenceSuccess started now).1, none)
  | .recordInferenceFailure started code errorType retryable now =>
    ((t.recordInferenceFailure started code errorType retryable now).1, none)
  | .commitValidatedTargets snapshot started result now =>
    match t.commitValidatedTargets snapshot started result now with
    | .ok (t, committed) => (t, commitEvent snapshot committed)
    | .error _ => (t, none)
  | .retryOrFailTargets snapshot targetId code errorType retryable retryAt now =>
    ((t.retryOrFailTargets snapshot targetId code errorType retryable retryAt now).1, none)
  | .retryOrFailClaim claim code errorType retryable retryAt now =>
    ((t.retryOrFailClaim claim code errorType retryable retryAt now).1, none)
  | .applyNegativeGate analysisRunId assignments now =>
    ((t.applyNegativeGate analysisRunId assignments now).1, none)
  | .completeAnalysisRun analysisRunId now => ((t.completeAnalysisRun analysisRunId now).1, none)

variable {t t' : AnalysisTables} {report : Option Report}

/-- Every call has an effect, and logs the event of its report. -/
theorem effect_perform (t : AnalysisTables) (call : AnalysisCall) :
    ∃ report, Effect t report (t.perform call).1 ∧
      report.bind Report.event = (t.perform call).2 := by
  have hnone : ∀ {t' : AnalysisTables}, Effect t none t' →
      ∃ report, Effect t report t' ∧ report.bind Report.event = none :=
    fun h => ⟨none, h, rfl⟩
  cases call with
  | claim stageRunId now leaseDuration =>
    dsimp only [perform]
    rcases effect_claim t stageRunId now leaseDuration with ⟨hclaim, report, heffect, hreport⟩ |
      ⟨row, run, -, -, hclaim, heffect⟩
    · refine ⟨report, heffect, ?_⟩
      rw [hclaim]
      rcases hreport with rfl | rfl <;> rfl
    · refine ⟨_, heffect, ?_⟩
      rw [hclaim]
      rfl
  | commitCacheHit =>
    dsimp only [perform]
    split
    · next h =>
      rcases effect_commitCacheHit h with ⟨rfl, rfl⟩ | ⟨heffect, hne⟩
      · exact hnone (.refl _)
      · exact ⟨_, heffect, by rw [commitEvent, if_neg hne]; rfl⟩
    · exact hnone (.refl t)
  | startInference => exact hnone (effect_startInference t _ _ _)
  | recordInferenceSuccess => exact hnone (effect_recordInferenceSuccess t _ _)
  | recordInferenceFailure => exact hnone (effect_recordInferenceFailure t _ _ _ _ _)
  | commitValidatedTargets =>
    dsimp only [perform]
    split
    · next h =>
      rcases effect_commitValidatedTargets h with ⟨rfl, rfl⟩ | ⟨heffect, hne⟩
      · exact hnone (.refl _)
      · exact ⟨_, heffect, by rw [commitEvent, if_neg hne]; rfl⟩
    · exact hnone (.refl t)
  | retryOrFailTargets =>
    dsimp only [perform]
    rcases effect_retryOrFailTargets t _ _ _ _ _ _ _ with h | ⟨t', h, heffect⟩
    · rw [h]
      exact hnone (.refl t)
    · rw [h]
      exact ⟨_, heffect, rfl⟩
  | retryOrFailClaim =>
    dsimp only [perform]
    rcases effect_retryOrFailClaim t _ _ _ _ _ _ with h | ⟨t', h, heffect⟩
    · rw [h]
      exact hnone (.refl t)
    · rw [h]
      exact ⟨_, heffect, rfl⟩
  | applyNegativeGate =>
    dsimp only [perform]
    rcases effect_applyNegativeGate t _ _ _ with h | ⟨run, hrun, h⟩
    · rw [h]
      exact hnone (.refl t)
    · rw [h]
      exact ⟨_, .gated _ _ hrun, rfl⟩
  | completeAnalysisRun =>
    dsimp only [perform]
    rcases effect_completeAnalysisRun t _ _ with h | ⟨t', h, heffect⟩
    · rw [h]
      exact hnone (.refl t)
    · rw [h]
      exact ⟨_, heffect, rfl⟩

/-! ## Effects on leases -/

theorem touches_retryOrFailRow {id leaseToken : ℕ} {row : StageRunRecord}
    (h : t.Leased id leaseToken row) (code errorType : String) (retryable : Bool)
    (retryAt now : ℤ) :
    stageColumns.Touches t.stageRuns none
      (t.retryOrFailRow id row code errorType retryable retryAt now).stageRuns := by
  unfold retryOrFailRow
  split_ifs
  · exact .returned h.found h.active h.token rfl rfl rfl ⟨rfl, rfl⟩
  · exact .stopped h.found h.active rfl rfl ⟨rfl, rfl⟩

theorem touches_gated (runId : ℕ) (run : AnalysisRunRecord)
    (causal : Dict ℕ NegativeGateAssignment) (now : ℤ) :
    stageColumns.Touches t.stageRuns none (t.gated runId run causal now).stageRuns := by
  intro id
  dsimp only [gated]
  rw [Dict.lookup_mapValues]
  cases t.stageRuns.lookup id with
  | none => exact .kept _
  | some row =>
    rw [Option.map_some]
    split_ifs with hskip
    · simp only [gateSkips, Bool.and_eq_true] at hskip
      exact Lease.Columns.touch_stopped hskip.2 rfl rfl ⟨rfl, rfl⟩
    · exact .kept _

theorem Effect.touches (h : Effect t report t') :
    stageColumns.Touches t.stageRuns (report.bind Report.event) t'.stageRuns := by
  cases h with
  | kept => exact .refl _ _
  | leased now leaseDuration hrow hactive hrun hopen hlt =>
    exact .granted hrow hactive hlt rfl rfl rfl rfl
  | exhausted now hrow hactive => exact .stopped hrow hactive rfl rfl ⟨rfl, rfl⟩
  | started policy cacheKey inferenceCalls hrow =>
    refine .changed hrow.found hrow.active rfl ?_
    simp [stageColumns, StageRunRecord.start, hrow.running, hrow.token]
  | committed result now hrow =>
    exact .committed hrow.found hrow.active hrow.token rfl rfl ⟨rfl, rfl⟩
  | reused cacheKey now hrow =>
    exact .committed hrow.found hrow.active hrow.token rfl rfl ⟨rfl, rfl⟩
  | failed code errorType retryable retryAt now hrow => exact touches_retryOrFailRow hrow _ _ _ _ _
  | gated causal now => exact touches_gated _ _ causal now
  | aggregated => exact .refl _ _

/-- A lease that is granted takes its token from the counter. -/
theorem Effect.granted_fresh (h : Effect t report t') {id k : ℕ}
    (hk : report.bind Report.event = some (id, .granted k)) : t.nextId ≤ k ∧ k < t'.nextId := by
  cases h with
  | leased =>
    cases hk
    exact ⟨le_rfl, Nat.lt_succ_self _⟩
  | kept => cases hk
  | exhausted => cases hk
  | started => cases hk
  | committed => cases hk
  | reused => cases hk
  | failed => cases hk
  | gated => cases hk
  | aggregated => cases hk

/-- A call that presents a token which is not the current one changes nothing. -/
theorem perform_stale {call : AnalysisCall} {id k : ℕ} (hcall : call.presents = some (id, k))
    (hstale : ∀ row, t.stageRuns.lookup id = some row → row.leaseToken ≠ some k) :
    t.perform call = (t, none) := by
  have hlock : ∀ snapshot : AnalysisStageSnapshot,
      some (snapshot.target.stageRunId, snapshot.target.leaseToken) = some (id, k) →
        ∀ now targetIds, t.lockSnapshotTargets snapshot now targetIds = none := by
    intro snapshot hsnapshot
    obtain ⟨rfl, rfl⟩ := Prod.mk.inj (Option.some.inj hsnapshot)
    exact lock_eq_none fun row h => hstale row h.found h.token
  unfold perform
  cases call with
  | commitCacheHit snapshot cacheKey hit now =>
    dsimp only
    unfold commitCacheHit
    cases (t.stageRuns.lookup hit.sourceStageRunId).filter (·.exactCacheSource cacheKey) with
    | none => rfl
    | some source =>
      rw [hlock snapshot hcall]
      rfl
  | startInference snapshot =>
    dsimp only
    rw [startInference, hlock snapshot hcall]
  | commitValidatedTargets snapshot started result =>
    cases result with
    | none => rfl
    | some result =>
      dsimp only [commitValidatedTargets]
      rw [hlock snapshot hcall]
      rfl
  | retryOrFailTargets snapshot =>
    dsimp only
    rw [retryOrFailTargets, hlock snapshot hcall]
  | retryOrFailClaim claim code errorType retryable retryAt now =>
    obtain ⟨rfl, rfl⟩ := Prod.mk.inj (Option.some.inj hcall)
    dsimp only [retryOrFailClaim]
    split
    · rfl
    · next h => exact absurd (leased_of_filter h).token (hstale _ (leased_of_filter h).found)
  | claim => cases hcall
  | recordInferenceSuccess => cases hcall
  | recordInferenceFailure => cases hcall
  | applyNegativeGate => cases hcall
  | completeAnalysisRun => cases hcall

theorem eq_of_commitEvent {snapshot : AnalysisStageSnapshot} {committed : AnalysisCommitResult}
    {id k : ℕ} (h : commitEvent snapshot committed = some (id, .committed k)) :
    some (snapshot.target.stageRunId, snapshot.target.leaseToken) = some (id, k) := by
  unfold commitEvent at h
  split_ifs at h
  cases h
  rfl

/-- The caller that commits presents the token. -/
theorem presents_of_committed {call : AnalysisCall} {id k : ℕ}
    (h : (t.perform call).2 = some (id, .committed k)) : call.presents = some (id, k) := by
  unfold perform at h
  cases call with
  | claim =>
    obtain ⟨claim, -, h⟩ := Option.map_eq_some_iff.mp h
    cases h
  | commitCacheHit =>
    dsimp only at h
    split at h
    · exact eq_of_commitEvent h
    · cases h
  | commitValidatedTargets =>
    dsimp only at h
    split at h
    · exact eq_of_commitEvent h
    · cases h
  | startInference => cases h
  | recordInferenceSuccess => cases h
  | recordInferenceFailure => cases h
  | retryOrFailTargets => cases h
  | retryOrFailClaim => cases h
  | applyNegativeGate => cases h
  | completeAnalysisRun => cases h

/-- The calls on the stage runs as a repository of leased rows. -/
def stageRepository : Lease.Repository AnalysisTables AnalysisCall ℕ StageRunRecord where
  columns := stageColumns
  rows := stageRuns
  fresh := nextId
  perform := perform
  presents := AnalysisCall.presents
  touches := by
    intro t call
    obtain ⟨report, heffect, hreport⟩ := effect_perform t call
    exact hreport ▸ heffect.touches
  fresh_le := by
    intro t call
    obtain ⟨report, heffect, -⟩ := effect_perform t call
    exact heffect.nextId_le
  granted_fresh := by
    intro t call id k hk
    obtain ⟨report, heffect, hreport⟩ := effect_perform t call
    exact heffect.granted_fresh (hreport.trans hk)
  committed_presents _ _ _ _ hk := presents_of_committed hk
  stale _ _ _ _ hcall hstale := perform_stale hcall hstale

/-! ## Calls that present no token -/

/-- Recording the outcome of an inference call writes that call only. -/
theorem perform_records (t : AnalysisTables) {call : AnalysisCall} {started : StartedInferenceCall}
    (hcall : call.records = some started) :
    ∃ inferenceCalls, t.perform call = ({ t with inferenceCalls }, none) ∧
      ∀ id, id ≠ started.inferenceCallId → inferenceCalls.lookup id = t.inferenceCalls.lookup id := by
  cases call with
  | recordInferenceSuccess started' now =>
    obtain rfl := Option.some.inj hcall
    cases hpending : t.pendingCall started' with
    | none =>
      exact ⟨_, by rw [perform, recordInferenceSuccess, hpending], fun _ _ => rfl⟩
    | some call =>
      refine ⟨_, by rw [perform, recordInferenceSuccess, hpending], ?_⟩
      exact fun id hid => Dict.lookup_set_of_ne hid _ _
  | recordInferenceFailure started' code errorType retryable now =>
    obtain rfl := Option.some.inj hcall
    cases hpending : t.pendingCall started' with
    | none =>
      exact ⟨_, by rw [perform, recordInferenceFailure, hpending], fun _ _ => rfl⟩
    | some call =>
      refine ⟨_, by rw [perform, recordInferenceFailure, hpending], ?_⟩
      exact fun id hid => Dict.lookup_set_of_ne hid _ _
  | claim => cases hcall
  | commitCacheHit => cases hcall
  | startInference => cases hcall
  | commitValidatedTargets => cases hcall
  | retryOrFailTargets => cases hcall
  | retryOrFailClaim => cases hcall
  | applyNegativeGate => cases hcall
  | completeAnalysisRun => cases hcall

/-- Completing a run writes that run only. -/
theorem perform_completeAnalysisRun (t : AnalysisTables) (analysisRunId : ℕ) (now : ℤ) :
    ∃ runs, t.perform (.completeAnalysisRun analysisRunId now) = ({ t with runs }, none) ∧
      ∀ id, id ≠ analysisRunId → runs.lookup id = t.runs.lookup id := by
  cases hrun : t.runs.lookup analysisRunId with
  | none => exact ⟨t.runs, by simp [perform, completeAnalysisRun, hrun], fun _ _ => rfl⟩
  | some run =>
    refine ⟨t.runs.set analysisRunId (run.complete (t.orderedStages analysisRunId) now), ?_, ?_⟩
    · simp [perform, completeAnalysisRun, hrun]
    · exact fun id hid => Dict.lookup_set_of_ne hid _ _

end AnalysisTables

/-! ## Work is done once -/

open AnalysisTables ProcessingTables

theorem assigned_run {s s' : Lease.Logged AnalysisTables ℕ} {calls : List AnalysisCall}
    (h : s.tables.Assigned) (hrun : Runs.run stageRepository.step s calls = some s') :
    s'.tables.Assigned := by
  refine @Runs.run_invariant' _ _ _ (fun s => s.tables.Assigned) ?_ _ _ _ h hrun
  intro s call s' h hstep
  obtain rfl := Option.some.inj hstep
  obtain ⟨report, heffect, -⟩ := effect_perform s.tables call
  exact h.effect heffect

/-- In every run of the calls on range executions and of those on stage runs, leases are
exclusive. A stage run that the negative gate skipped never has an assignment, and the calls
that present no token, apart from a claim and the gate, write only the inference call that
they name or the run that they complete. -/
theorem leased_work_done_once :
    (∀ (s s' : Lease.Logged ProcessingTables ℕ) (calls : List RangeCall), rangeRepository.Start s →
      Runs.run rangeRepository.step s calls = some s' → rangeRepository.Exclusive s') ∧
    ∀ (s s' : Lease.Logged AnalysisTables ℕ) (calls : List AnalysisCall), stageRepository.Start s →
      s.tables.Assigned → Runs.run stageRepository.step s calls = some s' →
        stageRepository.Exclusive s' ∧
        (∀ id row, s'.tables.stageRuns.lookup id = some row → row.status = .skippedNegativeGate →
          ∀ later s'', Runs.run stageRepository.step s' later = some s'' →
            s''.tables.assignmentsOf id = []) ∧
        (∀ call started, call.records = some started → ∃ inferenceCalls,
          s'.tables.perform call = ({ s'.tables with inferenceCalls }, none) ∧
            ∀ id, id ≠ started.inferenceCallId →
              inferenceCalls.lookup id = s'.tables.inferenceCalls.lookup id) ∧
        ∀ analysisRunId now, ∃ runs,
          s'.tables.perform (.completeAnalysisRun analysisRunId now) =
              ({ s'.tables with runs }, none) ∧
            ∀ id, id ≠ analysisRunId → runs.lookup id = s'.tables.runs.lookup id := by
  refine ⟨?_, ?_⟩
  · intro s s' calls hstart hrun
    exact ((Lease.Repository.inv_of_start hstart).run hrun).exclusive
  · intro s s' calls hstart hassigned hrun
    have hinv := (Lease.Repository.inv_of_start hstart).run hrun
    refine ⟨hinv.exclusive, ?_, fun _ _ => perform_records s'.tables,
      perform_completeAnalysisRun s'.tables⟩
    intro id row hrow hskipped later s'' hlater
    have hinactive : stageColumns.active row = false := by
      dsimp only [stageColumns]
      rw [hskipped]
      rfl
    have hrow' : stageRepository.row s'' id = some row :=
      Lease.Repository.run_inactive hrow hinactive hlater
    exact (assigned_run (assigned_run hassigned hrun) hlater).assignmentsOf hrow' (by simp [hskipped])

/-- One stage run of one message, before its first claim. -/
def oneStage : AnalysisTables where
  runs := [(1, ⟨.formal, .pending, none, none, none, none⟩)]
  stageVersions := [(2, ⟨.none, ⟨5, 300⟩⟩)]
  stageRuns := [(3, plannedStageRun 1 2 4 3)]
  messages := [(4, ⟨false, none, none, none⟩)]
  assignments := []
  inferenceCalls := []
  wakeups := [((analysisQueue, 3), newWakeup 0)]
  nextId := 10

/-- The snapshot of a first claim of the stage run. -/
def firstSnapshot : AnalysisStageSnapshot where
  claim := ⟨3, 1, 4, 4, 2, 10, 1, 3, .formal⟩
  stage := ⟨.none, ⟨5, 300⟩⟩
  target := ⟨3, 10, 4, 4⟩

/-- A first caller claims the stage run and starts a call, and a second caller claims the
stage run once the lease is over. -/
def takeover : List AnalysisCall :=
  [.claim 3 0 5, .startInference firstSnapshot none 0, .claim 3 9 5]

theorem leased_work_done_once_takeover :
    ∃ s, Runs.run stageRepository.step ⟨oneStage, []⟩ takeover = some s ∧
      stageRepository.Exclusive s := by
  obtain ⟨s, hs⟩ := Option.isSome_iff_exists.mp
    (show (Runs.run stageRepository.step ⟨oneStage, []⟩ takeover).isSome = true by rfl)
  refine ⟨s, hs, (leased_work_done_once.2 _ s takeover ⟨rfl, ?_⟩ ?_ hs).1⟩
  · intro id row hrow
    obtain ⟨-, rfl⟩ := Prod.mk.inj (List.mem_singleton.mp (Dict.mem_of_lookup hrow))
    exact ⟨rfl, rfl, rfl⟩
  · intro e he
    cases he

/-- The first caller, whose lease was taken over, still records the outcome of its call. -/
theorem overtaken_caller_records :
    ∃ s started, Runs.run stageRepository.step ⟨oneStage, []⟩ takeover = some s ∧
      (∃ s₁, Runs.run stageRepository.step ⟨oneStage, []⟩ (takeover.take 1) = some s₁ ∧
        (s₁.tables.startInference firstSnapshot none 0).2 = some started) ∧
      (3, .granted firstSnapshot.claim.leaseToken) ∈ s.log ∧
      (s.tables.stageRuns.lookup 3).map (·.leaseToken) ≠
        some (some firstSnapshot.claim.leaseToken) ∧
      ((s.tables.perform (.recordInferenceSuccess started 9)).1.inferenceCalls.lookup
          started.inferenceCallId).map (·.status) = some .succeeded ∧
      (s.tables.inferenceCalls.lookup started.inferenceCallId).map (·.status) = some .pending := by
  refine ⟨_, ⟨12, 11⟩, rfl, ⟨_, rfl, rfl⟩, ?_, ?_, rfl, rfl⟩
  · decide
  · decide

end TgCurator
