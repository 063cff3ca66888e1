import TgCurator.Analysis.Effects
import TgCurator.Runs

/-!
# Analysis workers

`AnalysisStageRunWorker.process` of `application/analysis/worker.py`: a worker claims a
stage run and prepares its inference call, reuses a cached result or invokes the provider,
commits the result or the failure, applies the negative gate and completes the run. Each
transaction of the repository is a step of its own, and a worker can stop between any two.

What loading, preparing, the provider and the validator give is arbitrary, so a worker may
have any cache key, failure and labels. `step_cases` says what one step can do, by its
effect on the tables and on the worker that takes it.
-/

namespace TgCurator

namespace AnalysisWorker

/-! ## The system -/

/-- `AnalysisExecutionFailure`, or the issue of a target that is retried. -/
structure Failure where
  code : String
  errorType : String
  retryable : Bool

/-- How preparing the inference call of a snapshot ends. -/
inductive Preparation
  /-- `AnalysisInputError` -/
  | inputError (code errorType : String)
  /-- `DomainValidationError` -/
  | domainError
  /-- another exception -/
  | otherError (errorType : String)
  /-- a call, with its cache key -/
  | prepared (cacheKey : Option StageCacheKey)

/-- How an inference call ends. -/
inductive Invocation
  /-- the provider fails -/
  | failed (failure : Failure)
  /-- the validator accepts the result for the target -/
  | valid (labels : List ResolvedLabel)
  /-- the validator has an issue with it -/
  | invalid (code errorType : String)

/-- What a call of `process` has still to do. -/
inductive Work
  /-- before `load_stage_snapshot` and `prepare` -/
  | prepare (claim : ClaimedAnalysisStageRun)
  /-- before `retry_or_fail_claim` -/
  | failClaim (claim : ClaimedAnalysisStageRun) (failure : Failure)
  /-- before `find_cache_hit` -/
  | findCacheHit (snapshot : AnalysisStageSnapshot) (cacheKey : StageCacheKey)
  /-- before `commit_cache_hit` -/
  | commitCacheHit (snapshot : AnalysisStageSnapshot) (cacheKey : StageCacheKey)
    (hit : AnalysisCacheHit)
  /-- before `start_inference` -/
  | startInference (snapshot : AnalysisStageSnapshot) (cacheKey : Option StageCacheKey)
  /-- before the provider answers -/
  | invoke (snapshot : AnalysisStageSnapshot) (started : StartedInferenceCall)
  /-- before `record_inference_failure` -/
  | recordFailure (snapshot : AnalysisStageSnapshot) (started : StartedInferenceCall)
    (failure : Failure)
  /-- before `retry_or_fail_targets` -/
  | failTargets (snapshot : AnalysisStageSnapshot) (failure : Failure)
  /-- before `record_inference_success` -/
  | recordSuccess (snapshot : AnalysisStageSnapshot) (started : StartedInferenceCall)
    (validation : Except Failure ValidatedTargetResult)
  /-- before `commit_validated_targets` -/
  | commitTargets (snapshot : AnalysisStageSnapshot) (started : StartedInferenceCall)
    (validation : Except Failure ValidatedTargetResult)
  /-- before `apply_negative_gate` -/
  | applyGate (snapshot : AnalysisStageSnapshot) (assignments : List NegativeGateAssignment)
  /-- before `complete_analysis_run`; `ended` says that this call changed its stage run -/
  | completeRun (claim : ClaimedAnalysisStageRun) (ended : Bool)

/-- The claim that is processed. -/
def Work.claim : Work → ClaimedAnalysisStageRun
  | prepare claim => claim
  | failClaim claim _ => claim
  | findCacheHit snapshot _ => snapshot.claim
  | commitCacheHit snapshot _ _ => snapshot.claim
  | startInference snapshot _ => snapshot.claim
  | invoke snapshot _ => snapshot.claim
  | recordFailure snapshot _ _ => snapshot.claim
  | failTargets snapshot _ => snapshot.claim
  | recordSuccess snapshot _ _ => snapshot.claim
  | commitTargets snapshot _ _ => snapshot.claim
  | applyGate snapshot _ => snapshot.claim
  | completeRun claim _ => claim

/-- A call of `process`, with the time it was made. -/
structure Process where
  now : ℤ
  work : Work

/-- The tables and the live workers. -/
structure State where
  tables : AnalysisTables
  workers : Dict ℕ Process := []

/-- What can happen. A worker is named by a number. -/
inductive Action
  /-- a worker starts to process a stage run -/
  | process (name stageRunId : ℕ) (now leaseDuration : ℤ)
  /-- a worker loads its snapshot and prepares its call -/
  | prepare (name : ℕ) (preparation : Preparation)
  /-- the provider answers -/
  | answer (name : ℕ) (invocation : Invocation)
  /-- a worker makes its next transaction -/
  | proceed (name : ℕ)
  /-- a worker stops -/
  | crash (name : ℕ)

/-- The worker that acts. -/
def Action.name : Action → ℕ
  | process name .. => name
  | prepare name .. => name
  | answer name .. => name
  | proceed name => name
  | crash name => name

/-- The delay of `_fail_claim`. -/
def claimDelay (claim : ClaimedAnalysisStageRun) : ℤ :=
  min 300 (5 * 2 ^ (claim.attemptCount - 1))

/-- The delay of `_retry_at`. -/
def retryDelay (snapshot : AnalysisStageSnapshot) : ℤ :=
  min snapshot.stage.retryPolicy.maxDelaySeconds
    (snapshot.stage.retryPolicy.baseDelaySeconds * 2 ^ (snapshot.claim.attemptCount - 1))

/-- What is left after loading and preparing. -/
def prepared (t : AnalysisTables) (claim : ClaimedAnalysisStageRun) (preparation : Preparation) :
    Work :=
  match t.loadStageSnapshot claim, preparation with
  | .error _, _ => .failClaim claim ⟨"INPUT_BUILD_ERROR", "DomainValidationError", false⟩
  | .ok _, .inputError code errorType => .failClaim claim ⟨code, errorType, false⟩
  | .ok _, .domainError => .failClaim claim ⟨"INPUT_BUILD_ERROR", "DomainValidationError", false⟩
  | .ok _, .otherError errorType => .failClaim claim ⟨"INTERNAL_ERROR", errorType, true⟩
  | .ok snapshot, .prepared none => .startInference snapshot none
  | .ok snapshot, .prepared (some cacheKey) => .findCacheHit snapshot cacheKey

/-- What is left after the provider's answer. -/
def answered (snapshot : AnalysisStageSnapshot) (started : StartedInferenceCall) :
    Invocation → Work
  | .failed failure => .recordFailure snapshot started failure
  | .valid labels => .recordSuccess snapshot started (.ok ⟨snapshot.target.targetId, labels⟩)
  | .invalid code errorType => .recordSuccess snapshot started (.error ⟨code, errorType, true⟩)

/-- `_finish`. -/
def finish (snapshot : AnalysisStageSnapshot) (committed : AnalysisCommitResult) : Work :=
  if snapshot.claim.runMode ≠ .test ∧ committed.negativeGateAssignments ≠ [] then
    .applyGate snapshot committed.negativeGateAssignments
  else .completeRun snapshot.claim (committed.committedTargetIds ≠ [])

/-- What is left after the commit of a validated response. -/
def validated (snapshot : AnalysisStageSnapshot) (committed : AnalysisCommitResult) :
    Except Failure ValidatedTargetResult → Work
  | .ok _ => finish snapshot committed
  | .error failure => .failTargets snapshot failure

/-- The next transaction of a worker, and what is left then; an exception ends the worker. -/
def transact (t : AnalysisTables) (now : ℤ) : Work → Option (AnalysisTables × Option Work)
  | .prepare _ => none
  | .failClaim claim failure =>
    let (t, changed) := t.retryOrFailClaim claim failure.code failure.errorType failure.retryable
      (now + claimDelay claim) now
    some (t, some (.completeRun claim changed))
  | .findCacheHit snapshot cacheKey =>
    match t.findCacheHit snapshot cacheKey with
    | none => some (t, some (.startInference snapshot (some cacheKey)))
    | some hit => some (t, some (.commitCacheHit snapshot cacheKey hit))
  | .commitCacheHit snapshot cacheKey hit =>
    match t.commitCacheHit snapshot cacheKey hit now with
    | .error _ => some (t, none)
    | .ok (t, committed) => some (t, some (finish snapshot committed))
  | .startInference snapshot cacheKey =>
    let (t, started) := t.startInference snapshot cacheKey now
    some (t, started.map (.invoke snapshot))
  | .invoke _ _ => none
  | .recordFailure snapshot started failure =>
    some ((t.recordInferenceFailure started failure.code failure.errorType failure.retryable now).1,
      some (.failTargets snapshot failure))
  | .failTargets snapshot failure =>
    let (t, changed) := t.retryOrFailTargets snapshot snapshot.target.targetId failure.code
      failure.errorType failure.retryable (now + retryDelay snapshot) now
    some (t, some (.completeRun snapshot.claim changed))
  | .recordSuccess snapshot started validation =>
    some ((t.recordInferenceSuccess started now).1,
      some (.commitTargets snapshot started validation))
  | .commitTargets snapshot started validation =>
    match t.commitValidatedTargets snapshot started validation.toOption now with
    | .error _ => some (t, none)
    | .ok (t, committed) => some (t, some (validated snapshot committed validation))
  | .applyGate snapshot assignments =>
    some ((t.applyNegativeGate snapshot.claim.analysisRunId assignments now).1,
      some (.completeRun snapshot.claim true))
  | .completeRun claim _ => some ((t.completeAnalysisRun claim.analysisRunId now).1, none)

/-- A worker with what is left for it. -/
def State.leave (s : State) (tables : AnalysisTables) (name : ℕ) (now : ℤ) (left : Option Work) :
    State where
  tables := tables
  workers :=
    match left with
    | none => s.workers.erase name
    | some work => s.workers.set name ⟨now, work⟩

/-- One step of the system. -/
def step (s : State) : Action → Option State
  | .process name stageRunId now leaseDuration =>
    if name ∈ s.workers.keys then none
    else
      let (tables, claim) := s.tables.claim stageRunId now leaseDuration
      some (s.leave tables name now (claim.map .prepare))
  | .prepare name preparation =>
    match s.workers.lookup name with
    | some ⟨now, .prepare claim⟩ =>
      some (s.leave s.tables name now (prepared s.tables claim preparation))
    | _ => none
  | .answer name invocation =>
    match s.workers.lookup name with
    | some ⟨now, .invoke snapshot started⟩ =>
      some (s.leave s.tables name now (answered snapshot started invocation))
    | _ => none
  | .proceed name =>
    (s.workers.lookup name).bind fun p =>
      (transact s.tables p.now p.work).map fun (tables, left) => s.leave tables name p.now left
  | .crash name => some (s.leave s.tables name 0 none)

/-! ## What holds of the workers -/

/-- The snapshot of a work that has one. -/
def Work.snapshot : Work → Option AnalysisStageSnapshot
  | prepare _ => none
  | failClaim _ _ => none
  | findCacheHit snapshot _ => some snapshot
  | commitCacheHit snapshot _ _ => some snapshot
  | startInference snapshot _ => some snapshot
  | invoke snapshot _ => some snapshot
  | recordFailure snapshot _ _ => some snapshot
  | failTargets snapshot _ => some snapshot
  | recordSuccess snapshot _ _ => some snapshot
  | commitTargets snapshot _ _ => some snapshot
  | applyGate snapshot _ => some snapshot
  | completeRun _ _ => none

/-- Whether a worker is between its commit, or its failure, and the end of `process`. -/
def Work.settles : Work → Bool
  | applyGate _ _ => true
  | completeRun _ _ => true
  | _ => false

/-- A claim names a stage run of its run, and the mode of the run. -/
structure Truthful (t : AnalysisTables) (claim : ClaimedAnalysisStageRun) : Prop where
  row : ∃ row, t.stageRuns.lookup claim.stageRunId = some row ∧
    row.analysisRunId = claim.analysisRunId
  run : ∃ run, t.runs.lookup claim.analysisRunId = some run ∧ run.runMode = claim.runMode

/-- What a worker knows. -/
structure Work.Sound (t : AnalysisTables) (w : Work) : Prop where
  claim : Truthful t w.claim
  aligned : ∀ snapshot, w.snapshot = some snapshot →
    snapshot.target.stageRunId = snapshot.claim.stageRunId
  gate : ∀ snapshot assignments, w = .applyGate snapshot assignments →
    snapshot.claim.runMode ≠ .test ∧ assignments ≠ [] ∧
      ∀ requested ∈ assignments, (t.gateCause snapshot.claim.analysisRunId requested).isSome

/-- What the tables keep. -/
structure TablesInv (t : AnalysisTables) : Prop where
  rows : t.stageRuns.keys.Nodup
  nodup : t.assignments.keys.Nodup
  fresh : ∀ k ∈ t.assignments.keys, k < t.nextId
  assigned : t.Assigned
  tested : ∀ e ∈ t.assignments, ∃ run, t.runs.lookup e.2.analysisRunId = some run ∧
    run.runMode ≠ .test
  message : ∀ id row, t.stageRuns.lookup id = some row → (t.messages.lookup row.messageId).isSome

/-- The invariant of a run. -/
structure Inv (s : State) : Prop where
  tables : TablesInv s.tables
  workers : ∀ name p, s.workers.lookup name = some p → p.work.Sound s.tables

/-! ## One turn of a worker -/

/-- What one step does to the worker that takes it, under the report of its transaction. -/
inductive Turn (t : AnalysisTables) : Option Work → Option AnalysisTables.Report →
    AnalysisTables → Option Work → Prop
  /-- it is granted a claim -/
  | claimed {claim : ClaimedAnalysisStageRun} {leaseToken : ℕ} {t' : AnalysisTables}
    (hclaim : Truthful t claim) :
    Turn t none (some (.granted claim.stageRunId leaseToken)) t' (some (.prepare claim))
  /-- it is not, and a stage run whose attempts are exhausted may have ended -/
  | refused {report : Option AnalysisTables.Report} {t' : AnalysisTables}
    (hreport : report = none ∨ ∃ id, report = some (.exhausted id)) : Turn t none report t' none
  /-- it goes on -/
  | went {w w' : Work} {t' : AnalysisTables} (hw : w.settles = false) (hw' : w'.settles = false)
    (hclaim : w'.claim = w.claim) (haligned : ∀ snapshot, w'.snapshot = some snapshot →
      snapshot.target.stageRunId = snapshot.claim.stageRunId) : Turn t (some w) none t' (some w')
  /-- it gives up -/
  | gaveUp {w : Work} (hw : w.settles = false) : Turn t (some w) none t none
  /-- it finds that its lease was taken over -/
  | lost {w : Work} (hw : w.settles = false) :
    Turn t (some w) none t (some (.completeRun w.claim false))
  /-- it records a failure -/
  | failed {w : Work} {t' : AnalysisTables} (hw : w.settles = false) :
    Turn t (some w) (some (.failed w.claim.stageRunId)) t' (some (.completeRun w.claim true))
  /-- it commits a result -/
  | committed {w : Work} {snapshot : AnalysisStageSnapshot} {leaseToken : ℕ} {source : Option ℕ}
    {committed : AnalysisCommitResult} {t' : AnalysisTables} (hw : w.settles = false)
    (hsnapshot : w.snapshot = some snapshot) (hclaim : w.claim = snapshot.claim)
    (hsource : ∀ id, source = some id → ∃ cacheKey hit, w = .commitCacheHit snapshot cacheKey hit ∧
      hit.sourceStageRunId = id) (hcommitted : committed.committedTargetIds ≠ []) :
    Turn t (some w) (some (.committed snapshot.claim.stageRunId leaseToken snapshot.claim.runMode
      source committed.negativeGateAssignments)) t' (some (finish snapshot committed))
  /-- it applies the negative gate -/
  | gated {snapshot : AnalysisStageSnapshot} {assignments : List NegativeGateAssignment}
    {run : AnalysisRunRecord} {now : ℤ}
    (hrun : t.runs.lookup snapshot.claim.analysisRunId = some run) :
    Turn t (some (.applyGate snapshot assignments))
      (some (.gated snapshot.claim.analysisRunId))
      (t.gated snapshot.claim.analysisRunId run (AnalysisTables.causalByMessage assignments) now)
      (some (.completeRun snapshot.claim true))
  /-- it completes its run -/
  | completed {claim : ClaimedAnalysisStageRun} {ended : Bool} {t' : AnalysisTables} :
    Turn t (some (.completeRun claim ended)) (some (.completed claim.analysisRunId)) t' none

variable {t t' : AnalysisTables}

theorem gateCause_eq_some {analysisRunId : ℕ} {requested : NegativeGateAssignment}
    {assignment : ModelLabelAssignmentRecord} :
    t.gateCause analysisRunId requested = some assignment ↔
      t.assignments.lookup requested.assignmentId = some assignment ∧
        assignment.analysisRunId = analysisRunId ∧ assignment.gates = true ∧
          assignment.messageId = requested.messageId ∧
            assignment.stageRunId = requested.stageRunId := by
  simp only [AnalysisTables.gateCause, Option.filter_eq_some_iff, Bool.and_eq_true,
    decide_eq_true_eq, and_assoc]

theorem mem_keys_causalByMessage {assignments : List NegativeGateAssignment} {id : ℕ} :
    id ∈ (AnalysisTables.causalByMessage assignments).keys ↔
      ∃ requested ∈ assignments, requested.messageId = id := by
  have hfold : ∀ causal : Dict ℕ NegativeGateAssignment,
      id ∈ (assignments.foldl
        (fun causal requested => causal.setDefault requested.messageId requested) causal).keys ↔
      id ∈ causal.keys ∨ ∃ requested ∈ assignments, requested.messageId = id := by
    induction assignments with
    | nil => simp
    | cons requested rest ih =>
      intro causal
      rw [List.foldl_cons, ih, Dict.mem_keys_setDefault]
      grind
  rw [AnalysisTables.causalByMessage, hfold]
  simp

/-- The gate applies to stored assignments. -/
theorem applyNegativeGate_of_sound (ht : TablesInv t) {snapshot : AnalysisStageSnapshot}
    {assignments : List NegativeGateAssignment}
    (hw : (Work.applyGate snapshot assignments).Sound t) (now : ℤ) :
    ∃ run, t.runs.lookup snapshot.claim.analysisRunId = some run ∧
      (t.applyNegativeGate snapshot.claim.analysisRunId assignments now).1 =
        t.gated snapshot.claim.analysisRunId run (AnalysisTables.causalByMessage assignments)
          now := by
  obtain ⟨run, hrun, hmode⟩ := hw.claim.run
  obtain ⟨htest, hne, hstored⟩ := hw.gate snapshot assignments rfl
  refine ⟨run, hrun, ?_⟩
  have hfilter : (t.runs.lookup snapshot.claim.analysisRunId).filter
      (fun run => run.runMode ≠ .test) = some run := by
    rw [Option.filter_eq_some_iff]
    refine ⟨hrun, decide_eq_true ?_⟩
    rw [hmode]
    exact htest
  have hmessages : (AnalysisTables.causalByMessage assignments).keys.all
      (· ∈ t.messages.keys) = true := by
    rw [List.all_eq_true]
    intro id hid
    obtain ⟨requested, hmem, rfl⟩ := mem_keys_causalByMessage.mp hid
    obtain ⟨assignment, hcause⟩ := Option.isSome_iff_exists.mp (hstored requested hmem)
    obtain ⟨hlookup, -, -, hmessage, -⟩ := gateCause_eq_some.mp hcause
    obtain ⟨row, hrow, -, -, hcolumn⟩ := ht.assigned _ (Dict.mem_of_lookup hlookup)
    have hsome := ht.message _ row hrow
    rw [← hcolumn, hmessage] at hsome
    obtain ⟨message, hmessage⟩ := Option.isSome_iff_exists.mp hsome
    exact decide_eq_true (Dict.mem_keys.mpr ⟨message, Dict.mem_of_lookup hmessage⟩)
  unfold AnalysisTables.applyNegativeGate
  rw [if_neg hne, hfilter]
  dsimp only
  rw [if_pos (List.all_eq_true.mpr hstored), if_pos hmessages]

theorem settles_finish (snapshot : AnalysisStageSnapshot) (committed : AnalysisCommitResult) :
    (finish snapshot committed).settles = true := by
  unfold finish
  split_ifs <;> rfl

/-- A commit that found nothing leaves the run to be completed. -/
theorem finish_empty (snapshot : AnalysisStageSnapshot) :
    finish snapshot {} = .completeRun snapshot.claim false := by
  simp [finish]

/-- What a transaction does is an effect under a report that says how the worker goes on. -/
def Turned (t : AnalysisTables) (w : Work) (t' : AnalysisTables) (left : Option Work) : Prop :=
  ∃ report, AnalysisTables.Effect t report t' ∧ Turn t (some w) report t' left

section

variable {snapshot : AnalysisStageSnapshot} {now : ℤ} {left : Option Work}

theorem turn_failClaim {claim : ClaimedAnalysisStageRun} {failure : Failure}
    (h : transact t now (.failClaim claim failure) = some (t', left)) :
    Turned t (.failClaim claim failure) t' left := by
  dsimp only [transact] at h
  rcases AnalysisTables.effect_retryOrFailClaim t claim failure.code failure.errorType
    failure.retryable (now + claimDelay claim) now with hcall | ⟨t₁, hcall, heffect⟩
  · rw [hcall] at h
    obtain ⟨rfl, rfl⟩ := Prod.mk.inj (Option.some.inj h)
    exact ⟨none, .refl _, .lost rfl⟩
  · rw [hcall] at h
    obtain ⟨rfl, rfl⟩ := Prod.mk.inj (Option.some.inj h)
    exact ⟨_, heffect, .failed rfl⟩

theorem turn_commitCacheHit {cacheKey : StageCacheKey} {hit : AnalysisCacheHit}
    (hw : (.commitCacheHit snapshot cacheKey hit : Work).Sound t)
    (h : transact t now (.commitCacheHit snapshot cacheKey hit) = some (t', left)) :
    Turned t (.commitCacheHit snapshot cacheKey hit) t' left := by
  dsimp only [transact] at h
  split at h
  · obtain ⟨rfl, rfl⟩ := Prod.mk.inj (Option.some.inj h)
    exact ⟨none, .refl _, .gaveUp rfl⟩
  · next t₁ committed hcall =>
    obtain ⟨rfl, rfl⟩ := Prod.mk.inj (Option.some.inj h)
    rcases AnalysisTables.effect_commitCacheHit hcall with ⟨rfl, rfl⟩ | ⟨heffect, hne⟩
    · rw [finish_empty]
      exact ⟨none, .refl _, .lost rfl⟩
    · rw [hw.aligned snapshot rfl] at heffect
      refine ⟨_, heffect, .committed rfl rfl rfl ?_ hne⟩
      intro id hid
      exact ⟨cacheKey, hit, rfl, Option.some.inj hid⟩

theorem turn_startInference {cacheKey : Option StageCacheKey}
    (hw : (.startInference snapshot cacheKey : Work).Sound t)
    (h : transact t now (.startInference snapshot cacheKey) = some (t', left)) :
    Turned t (.startInference snapshot cacheKey) t' left := by
  dsimp only [transact] at h
  obtain ⟨rfl, rfl⟩ := Prod.mk.inj (Option.some.inj h)
  refine ⟨none, AnalysisTables.effect_startInference t _ _ _, ?_⟩
  unfold AnalysisTables.startInference
  split
  · exact .gaveUp rfl
  · exact .went rfl rfl rfl hw.aligned

theorem turn_failTargets {failure : Failure}
    (hw : (.failTargets snapshot failure : Work).Sound t)
    (h : transact t now (.failTargets snapshot failure) = some (t', left)) :
    Turned t (.failTargets snapshot failure) t' left := by
  dsimp only [transact] at h
  rcases AnalysisTables.effect_retryOrFailTargets t snapshot snapshot.target.targetId
    failure.code failure.errorType failure.retryable (now + retryDelay snapshot) now with
    hcall | ⟨t₁, hcall, heffect⟩
  · rw [hcall] at h
    obtain ⟨rfl, rfl⟩ := Prod.mk.inj (Option.some.inj h)
    exact ⟨none, .refl _, .lost rfl⟩
  · rw [hcall] at h
    obtain ⟨rfl, rfl⟩ := Prod.mk.inj (Option.some.inj h)
    rw [hw.aligned snapshot rfl] at heffect
    exact ⟨_, heffect, .failed rfl⟩

theorem turn_commitTargets {started : StartedInferenceCall}
    {validation : Except Failure ValidatedTargetResult}
    (hw : (.commitTargets snapshot started validation : Work).Sound t)
    (h : transact t now (.commitTargets snapshot started validation) = some (t', left)) :
    Turned t (.commitTargets snapshot started validation) t' left := by
  dsimp only [transact] at h
  split at h
  · obtain ⟨rfl, rfl⟩ := Prod.mk.inj (Option.some.inj h)
    exact ⟨none, .refl _, .gaveUp rfl⟩
  · next t₁ committed hcall =>
    obtain ⟨rfl, rfl⟩ := Prod.mk.inj (Option.some.inj h)
    cases validation with
    | error failure =>
      obtain ⟨rfl, rfl⟩ := Prod.mk.inj (Except.ok.inj hcall)
      exact ⟨none, .refl _, .went rfl rfl rfl hw.aligned⟩
    | ok result =>
      rcases AnalysisTables.effect_commitValidatedTargets hcall with
        ⟨rfl, rfl⟩ | ⟨heffect, hne⟩
      · rw [validated, finish_empty]
        exact ⟨none, .refl _, .lost rfl⟩
      · rw [hw.aligned snapshot rfl] at heffect
        exact ⟨_, heffect, .committed rfl rfl rfl (fun _ h => by cases h) hne⟩

theorem turn_completeRun {claim : ClaimedAnalysisStageRun} {ended : Bool}
    (hw : (.completeRun claim ended : Work).Sound t)
    (h : transact t now (.completeRun claim ended) = some (t', left)) :
    Turned t (.completeRun claim ended) t' left := by
  obtain ⟨rfl, rfl⟩ := Prod.mk.inj (Option.some.inj h)
  obtain ⟨run, hrun, -⟩ := hw.claim.run
  rcases AnalysisTables.effect_completeAnalysisRun t claim.analysisRunId now with
    hcall | ⟨t₁, hcall, heffect⟩
  · unfold AnalysisTables.completeAnalysisRun at hcall
    have hrun' : t.runs.lookup claim.analysisRunId = some run := hrun
    rw [hrun'] at hcall
    exact absurd (congrArg Prod.snd hcall) (by simp)
  · rw [hcall]
    exact ⟨_, heffect, .completed⟩

end

/-- What a worker's transaction does. -/
theorem transact_turn (ht : TablesInv t) {w : Work} (hw : w.Sound t) {now : ℤ} {left : Option Work}
    (h : transact t now w = some (t', left)) : Turned t w t' left := by
  cases w with
  | prepare claim => cases h
  | invoke snapshot started => cases h
  | failClaim => exact turn_failClaim h
  | findCacheHit snapshot cacheKey =>
    dsimp only [transact] at h
    split at h <;> obtain ⟨rfl, rfl⟩ := Prod.mk.inj (Option.some.inj h)
    · exact ⟨none, .refl _, .went rfl rfl rfl hw.aligned⟩
    · exact ⟨none, .refl _, .went rfl rfl rfl hw.aligned⟩
  | commitCacheHit => exact turn_commitCacheHit hw h
  | startInference => exact turn_startInference hw h
  | recordFailure snapshot started failure =>
    obtain ⟨rfl, rfl⟩ := Prod.mk.inj (Option.some.inj h)
    exact ⟨none, AnalysisTables.effect_recordInferenceFailure t _ _ _ _ _,
      .went rfl rfl rfl hw.aligned⟩
  | recordSuccess snapshot started validation =>
    obtain ⟨rfl, rfl⟩ := Prod.mk.inj (Option.some.inj h)
    exact ⟨none, AnalysisTables.effect_recordInferenceSuccess t _ _,
      .went rfl rfl rfl hw.aligned⟩
  | failTargets => exact turn_failTargets hw h
  | commitTargets => exact turn_commitTargets hw h
  | applyGate snapshot assignments =>
    obtain ⟨rfl, rfl⟩ := Prod.mk.inj (Option.some.inj h)
    obtain ⟨run, hrun, hgated⟩ := applyNegativeGate_of_sound ht hw now
    rw [hgated]
    exact ⟨_, .gated _ now hrun, .gated hrun⟩
  | completeRun => exact turn_completeRun hw h

/-- What is left for a worker, if it lives. -/
def State.work (s : State) (name : ℕ) : Option Work :=
  (s.workers.lookup name).map (·.work)

theorem work_leave (s : State) (tables : AnalysisTables) (name : ℕ) (now : ℤ)
    (left : Option Work) : (s.leave tables name now left).work name = left := by
  cases left with
  | none => simp [State.work, State.leave]
  | some w => simp [State.work, State.leave]

theorem work_leave_of_ne {name name' : ℕ} (hname : name' ≠ name) (s : State)
    (tables : AnalysisTables) (now : ℤ) (left : Option Work) :
    (s.leave tables name now left).work name' = s.work name' := by
  cases left with
  | none => rw [State.work, State.leave, Dict.lookup_erase_of_ne hname, State.work]
  | some w => rw [State.work, State.leave, Dict.lookup_set_of_ne hname, State.work]

variable {s s' : State} {a : Action}

theorem truthful_of_loaded {claim : ClaimedAnalysisStageRun} {snapshot : AnalysisStageSnapshot}
    (h : t.loadStageSnapshot claim = .ok snapshot) :
    snapshot.claim = claim ∧ snapshot.target.stageRunId = claim.stageRunId := by
  unfold AnalysisTables.loadStageSnapshot at h
  split at h
  · cases h
  · obtain rfl := Except.ok.inj h
    exact ⟨rfl, rfl⟩

/-- Preparing leaves a claim with what it needs. -/
theorem prepared_went (t : AnalysisTables) (claim : ClaimedAnalysisStageRun)
    (preparation : Preparation) :
    (prepared t claim preparation).settles = false ∧
      (prepared t claim preparation).claim = claim ∧
        ∀ snapshot, (prepared t claim preparation).snapshot = some snapshot →
          snapshot.target.stageRunId = snapshot.claim.stageRunId := by
  unfold prepared
  cases hload : t.loadStageSnapshot claim with
  | error e => exact ⟨rfl, rfl, nofun⟩
  | ok snapshot =>
    obtain ⟨hclaim, htarget⟩ := truthful_of_loaded hload
    have haligned : ∀ snapshot', some snapshot = some snapshot' →
        snapshot'.target.stageRunId = snapshot'.claim.stageRunId := by
      intro snapshot' h
      obtain rfl := Option.some.inj h
      rw [htarget, hclaim]
    cases preparation with
    | inputError => exact ⟨rfl, rfl, nofun⟩
    | domainError => exact ⟨rfl, rfl, nofun⟩
    | otherError => exact ⟨rfl, rfl, nofun⟩
    | prepared cacheKey => cases cacheKey <;> exact ⟨rfl, hclaim, haligned⟩

/-- A claim that is granted is true of the tables after it. -/
theorem truthful_of_claimed {row : StageRunRecord} {run : AnalysisRunRecord} {stageRunId : ℕ}
    {now leaseDuration : ℤ} (hrow : t.stageRuns.lookup stageRunId = some row)
    (hrun : t.runs.lookup row.analysisRunId = some run) :
    Truthful t ((row.lease t.nextId now leaseDuration).claimed stageRunId t.nextId run) :=
  ⟨⟨row, hrow, rfl⟩, run, hrun, rfl⟩

/-- A step is a turn of the worker that takes it, or a crash. -/
theorem step_cases (h : Inv s) (hstep : step s a = some s') :
    (∀ name, name ≠ a.name → s'.work name = s.work name) ∧
      ((a = .crash a.name ∧ s'.tables = s.tables ∧ s'.work a.name = none) ∨
        ∃ report, AnalysisTables.Effect s.tables report s'.tables ∧
          Turn s.tables (s.work a.name) report s'.tables (s'.work a.name)) := by
  cases a with
  | process name stageRunId now leaseDuration =>
    dsimp only [step] at hstep
    split_ifs at hstep with hname
    obtain rfl := Option.some.inj hstep
    have hwork : s.work name = none := by
      rw [State.work, Dict.lookup_eq_none.mpr hname, Option.map_none]
    refine ⟨fun name' hne => work_leave_of_ne hne s _ now _, .inr ?_⟩
    dsimp only [Action.name]
    rw [work_leave, hwork]
    rcases AnalysisTables.effect_claim s.tables stageRunId now leaseDuration with
      ⟨hclaim, report, heffect, hreport⟩ | ⟨row, run, hrow, hrun, hclaim, heffect⟩
    · rw [hclaim]
      refine ⟨report, heffect, .refused ?_⟩
      exact hreport.imp_right fun h => ⟨_, h⟩
    · rw [hclaim]
      exact ⟨_, heffect, .claimed (truthful_of_claimed hrow hrun)⟩
  | prepare name preparation =>
    dsimp only [step] at hstep
    split at hstep
    · next now claim hlookup =>
      obtain rfl := Option.some.inj hstep
      refine ⟨fun name' hne => work_leave_of_ne hne s _ now _, .inr ⟨none, .refl _, ?_⟩⟩
      dsimp only [Action.name]
      rw [work_leave, State.work, hlookup, Option.map_some]
      obtain ⟨hsettles, hclaim, haligned⟩ := prepared_went s.tables claim preparation
      exact .went rfl hsettles hclaim haligned
    · cases hstep
  | answer name invocation =>
    dsimp only [step] at hstep
    split at hstep
    · next now snapshot started hlookup =>
      obtain rfl := Option.some.inj hstep
      refine ⟨fun name' hne => work_leave_of_ne hne s _ now _, .inr ⟨none, .refl _, ?_⟩⟩
      dsimp only [Action.name]
      rw [work_leave, State.work, hlookup, Option.map_some]
      have haligned := (h.workers name _ hlookup).aligned
      cases invocation <;> exact .went rfl rfl rfl haligned
    · cases hstep
  | proceed name =>
    obtain ⟨⟨now, w⟩, hlookup, hstep⟩ := Option.bind_eq_some_iff.mp hstep
    obtain ⟨⟨tables, left⟩, htransact, hs'⟩ := Option.map_eq_some_iff.mp hstep
    obtain rfl := hs'
    refine ⟨fun name' hne => work_leave_of_ne hne s _ now _, .inr ?_⟩
    dsimp only [Action.name]
    rw [work_leave, State.work, hlookup, Option.map_some]
    exact transact_turn h.tables (h.workers name _ hlookup) htransact
  | crash name =>
    obtain rfl := Option.some.inj hstep
    exact ⟨fun name' hne => work_leave_of_ne hne s _ 0 _,
      .inl ⟨rfl, rfl, work_leave s s.tables name 0 none⟩⟩

/-! ## The invariant -/

/-- A commit names the mode of its run. -/
def ModeTrue (t : AnalysisTables) (report : Option AnalysisTables.Report) : Prop :=
  ∀ id leaseToken mode source negative,
    report = some (.committed id leaseToken mode source negative) →
      ∃ row run, t.stageRuns.lookup id = some row ∧ t.runs.lookup row.analysisRunId = some run ∧
        run.runMode = mode

variable {report : Option AnalysisTables.Report}

theorem Turn.modeTrue {o o' : Option Work} (h : Turn t o report t' o')
    (hsound : ∀ w, o = some w → w.Sound t) : ModeTrue t report := by
  rintro id leaseToken mode source negative rfl
  cases h with
  | refused hreport => simp at hreport
  | committed hw hsnapshot hclaim =>
    obtain ⟨⟨row, hrow, hrowRun⟩, run, hrun, hmode⟩ := (hsound _ rfl).claim
    rw [hclaim] at hrow hrowRun hrun hmode
    exact ⟨row, run, hrow, hrowRun ▸ hrun, hmode⟩

theorem run_later (he : AnalysisTables.Effect t report t') {id : ℕ} {run : AnalysisRunRecord}
    (hrun : t.runs.lookup id = some run) :
    ∃ run', t'.runs.lookup id = some run' ∧ run'.runMode = run.runMode := by
  have hmode := he.mode id
  rw [hrun, Option.map_some] at hmode
  exact Option.map_eq_some_iff.mp hmode

theorem Truthful.later (he : AnalysisTables.Effect t report t') {claim : ClaimedAnalysisStageRun}
    (h : Truthful t claim) : Truthful t' claim := by
  obtain ⟨⟨row, hrow, hrowRun⟩, run, hrun, hmode⟩ := h
  obtain ⟨row', hrow', hwork⟩ := he.rowsKept.found hrow
  obtain ⟨run', hrun', hmode'⟩ := run_later he hrun
  exact ⟨⟨row', hrow', (congrArg Prod.fst hwork).trans hrowRun⟩, run', hrun', hmode'.trans hmode⟩

theorem lookup_later (he : AnalysisTables.Effect t report t') {k : ℕ}
    {assignment : ModelLabelAssignmentRecord} (h : t.assignments.lookup k = some assignment) :
    t'.assignments.lookup k = some assignment := by
  rcases he.assignments with hsame | ⟨id, leaseToken, mode, source, negative, rfl⟩
  · rw [hsame, h]
  · obtain ⟨added, hadded⟩ := he.added
    rw [hadded.assignments, List.lookup_append, h, Option.some_or]

theorem gateCause_later (he : AnalysisTables.Effect t report t') {analysisRunId : ℕ}
    {requested : NegativeGateAssignment} (h : (t.gateCause analysisRunId requested).isSome) :
    (t'.gateCause analysisRunId requested).isSome := by
  obtain ⟨assignment, hcause⟩ := Option.isSome_iff_exists.mp h
  obtain ⟨hlookup, hcolumns⟩ := gateCause_eq_some.mp hcause
  exact Option.isSome_iff_exists.mpr
    ⟨assignment, gateCause_eq_some.mpr ⟨lookup_later he hlookup, hcolumns⟩⟩

theorem Work.Sound.later (he : AnalysisTables.Effect t report t') {w : Work} (h : w.Sound t) :
    w.Sound t' where
  claim := h.claim.later he
  aligned := h.aligned
  gate := by
    intro snapshot assignments hw
    obtain ⟨hmode, hne, hstored⟩ := h.gate snapshot assignments hw
    exact ⟨hmode, hne, fun requested hmem => gateCause_later he (hstored requested hmem)⟩

/-- An effect keeps the tables in order. -/
theorem TablesInv.effect (h : TablesInv t) (he : AnalysisTables.Effect t report t')
    (hmode : ModeTrue t report) : TablesInv t' := by
  have hle := he.nextId_le
  have htested : ∀ e ∈ t.assignments, ∃ run, t'.runs.lookup e.2.analysisRunId = some run ∧
      run.runMode ≠ .test := by
    intro e hmem
    obtain ⟨run, hrun, htest⟩ := h.tested e hmem
    obtain ⟨run', hrun', hmode'⟩ := run_later he hrun
    exact ⟨run', hrun', hmode' ▸ htest⟩
  have hmessage : ∀ id row, t'.stageRuns.lookup id = some row →
      (t'.messages.lookup row.messageId).isSome := by
    intro id row hrow
    have hwork := he.rowsKept.work id
    rw [hrow, Option.map_some] at hwork
    obtain ⟨row₀, hrow₀, hwork⟩ := Option.map_eq_some_iff.mp hwork.symm
    have hid : row₀.messageId = row.messageId := congrArg (·.2.2.1) hwork
    rw [(he.messagesKept _).1, ← hid]
    exact h.message id row₀ hrow₀
  rcases he.assignments with hsame | ⟨id, leaseToken, mode, source, negative, rfl⟩
  · refine ⟨he.nodup_rows h.rows, hsame ▸ h.nodup, ?_, h.assigned.effect he, hsame ▸ htested,
      hmessage⟩
    rw [hsame]
    exact fun k hk => (h.fresh k hk).trans_le hle
  · obtain ⟨added, hadded⟩ := he.added
    have hkeys : t'.assignments.keys = t.assignments.keys ++ added.keys := by
      rw [hadded.assignments, Dict.keys, List.map_append]
      rfl
    refine ⟨he.nodup_rows h.rows, ?_, ?_, h.assigned.effect he, ?_, hmessage⟩
    · rw [hkeys, List.nodup_append]
      refine ⟨h.nodup, hadded.nodup, ?_⟩
      rintro k hk k' hk' rfl
      have := h.fresh k hk
      have := (hadded.fresh k hk').1
      omega
    · rw [hkeys]
      intro k hk
      rcases List.mem_append.mp hk with hk | hk
      · exact (h.fresh k hk).trans_le hle
      · exact (hadded.fresh k hk).2
    · rw [hadded.assignments]
      intro e hmem
      rcases List.mem_append.mp hmem with hmem | hmem
      · exact htested e hmem
      · obtain ⟨row, hrow, -, hassign⟩ := hadded.row
        obtain ⟨htest, label, he'⟩ := hassign e hmem
        obtain ⟨row₀, run, hrow₀, hrun, hrunMode⟩ := hmode _ _ _ _ _ rfl
        obtain ⟨row₁, hrow₁, hwork⟩ := he.rowsKept.found hrow₀
        obtain rfl := Option.some.inj (hrow.symm.trans hrow₁)
        obtain ⟨run', hrun', hmode'⟩ := run_later he hrun
        have hid : row.analysisRunId = row₀.analysisRunId := congrArg (·.1) hwork
        rw [← hid] at hrun'
        rw [he']
        exact ⟨run', hrun', by rw [hmode', hrunMode]; exact htest⟩

/-- The requests of a commit name its stored assignments. -/
theorem gateCause_of_added {id : ℕ} {mode : RunMode} {negative : List NegativeGateAssignment}
    {added : Dict ℕ ModelLabelAssignmentRecord} (hnodup : t'.assignments.keys.Nodup)
    (hadded : t.Added t' id mode negative added) {row : StageRunRecord}
    (hrow : t'.stageRuns.lookup id = some row) {requested : NegativeGateAssignment}
    (hmem : requested ∈ negative) : (t'.gateCause row.analysisRunId requested).isSome := by
  rw [hadded.negative] at hmem
  obtain ⟨e, he, rfl⟩ := List.mem_map.mp hmem
  obtain ⟨he, hgates⟩ := List.mem_filter.mp he
  obtain ⟨row', hrow', -, hassign⟩ := hadded.row
  obtain rfl := Option.some.inj (hrow.symm.trans hrow')
  obtain ⟨-, label, heq⟩ := hassign e he
  have hlookup : t'.assignments.lookup e.1 = some e.2 :=
    Dict.lookup_of_mem hnodup (hadded.assignments ▸ List.mem_append_right _ he)
  refine Option.isSome_iff_exists.mpr ⟨e.2, gateCause_eq_some.mpr ⟨hlookup, ?_, hgates, rfl, rfl⟩⟩
  rw [heq]
  rfl

/-- What a turn leaves is sound. -/
theorem Turn.sound {o o' : Option Work} (h : Turn t o report t' o')
    (he : AnalysisTables.Effect t report t') (ht' : TablesInv t')
    (hsound : ∀ w, o = some w → w.Sound t) {w' : Work} (hw' : o' = some w') : w'.Sound t' := by
  cases h with
  | claimed hclaim =>
    obtain rfl := Option.some.inj hw'
    exact ⟨hclaim.later he, nofun, nofun⟩
  | refused => cases hw'
  | went hw hsettles hclaim haligned =>
    obtain rfl := Option.some.inj hw'
    refine ⟨hclaim ▸ (hsound _ rfl).claim.later he, haligned, ?_⟩
    rintro snapshot assignments rfl
    cases hsettles
  | gaveUp => cases hw'
  | lost =>
    obtain rfl := Option.some.inj hw'
    exact ⟨(hsound _ rfl).claim.later he, nofun, nofun⟩
  | failed =>
    obtain rfl := Option.some.inj hw'
    exact ⟨(hsound _ rfl).claim.later he, nofun, nofun⟩
  | @committed w snapshot leaseToken source committed _ hw hsnapshot hclaim =>
    obtain rfl := Option.some.inj hw'
    have hlater := (hsound _ rfl).claim.later he
    rw [hclaim] at hlater
    unfold finish
    split_ifs with hgate
    · refine ⟨hlater, ?_, ?_⟩
      · intro snapshot' h
        obtain rfl := Option.some.inj h
        exact (hsound _ rfl).aligned _ hsnapshot
      · rintro _ _ ⟨⟩
        refine ⟨hgate.1, hgate.2, fun requested hmem => ?_⟩
        obtain ⟨added, hadded⟩ := he.added
        obtain ⟨row, hrow, hrowRun⟩ := hlater.row
        rw [← hrowRun]
        exact gateCause_of_added ht'.nodup hadded hrow hmem
    · exact ⟨hlater, nofun, nofun⟩
  | gated =>
    obtain rfl := Option.some.inj hw'
    exact ⟨(hsound _ rfl).claim.later he, nofun, nofun⟩
  | completed => cases hw'

theorem sound_of_work (h : Inv s) {name : ℕ} {w : Work} (hw : s.work name = some w) :
    w.Sound s.tables := by
  obtain ⟨p, hp, rfl⟩ := Option.map_eq_some_iff.mp hw
  exact h.workers name p hp

/-- Every step keeps the invariant. -/
theorem Inv.step (h : Inv s) (hstep : step s a = some s') : Inv s' := by
  obtain ⟨hothers, hturn⟩ := step_cases h hstep
  rcases hturn with ⟨-, htables, hnone⟩ | ⟨report, he, hturn⟩
  · refine ⟨htables ▸ h.tables, fun name p hp => ?_⟩
    by_cases hname : name = a.name
    · rw [hname] at hp
      rw [State.work, hp] at hnone
      cases hnone
    · have hw : s'.work name = some p.work := by rw [State.work, hp, Option.map_some]
      rw [hothers name hname] at hw
      exact htables ▸ sound_of_work h hw
  · have hsound : ∀ w, s.work a.name = some w → w.Sound s.tables := fun w hw => sound_of_work h hw
    have ht' := h.tables.effect he (hturn.modeTrue hsound)
    refine ⟨ht', fun name p hp => ?_⟩
    have hw : s'.work name = some p.work := by rw [State.work, hp, Option.map_some]
    by_cases hname : name = a.name
    · exact hturn.sound he ht' hsound (hname ▸ hw)
    · rw [hothers name hname] at hw
      exact (sound_of_work h hw).later he

/-- Tables before the first worker: no results, no assignments, and the messages of the stage
runs. -/
structure Start (s : State) : Prop where
  workers : s.workers = []
  rows : s.tables.stageRuns.keys.Nodup
  assignments : s.tables.assignments = []
  results : ∀ id row, s.tables.stageRuns.lookup id = some row → row.status ≠ .succeeded
  message : ∀ id row, s.tables.stageRuns.lookup id = some row →
    (s.tables.messages.lookup row.messageId).isSome

theorem inv_of_start (h : Start s) : Inv s where
  tables :=
    { rows := h.rows
      nodup := by rw [h.assignments]; exact List.nodup_nil
      fresh := by rw [h.assignments]; exact fun _ hk => by cases hk
      assigned := by rw [AnalysisTables.Assigned, h.assignments]; exact fun _ he => by cases he
      tested := by rw [h.assignments]; exact fun _ he => by cases he
      message := h.message }
  workers := by
    intro name p hp
    rw [h.workers] at hp
    cases hp

/-! ## An example -/

/-- Two runs of one stage for one message, the second a formal one. -/
def twoRuns (runMode : RunMode) : State where
  tables :=
    { runs := [(1, ⟨runMode, .pending, none, none, none, none⟩),
        (2, ⟨.formal, .pending, none, none, none, none⟩)]
      stageVersions := [(3, ⟨.message, ⟨5, 300⟩⟩)]
      stageRuns := [(4, plannedStageRun 1 3 6 3), (5, plannedStageRun 2 3 6 3)]
      messages := [(6, ⟨false, none, none, none⟩)]
      assignments := []
      inferenceCalls := []
      wakeups := []
      nextId := 10 }

theorem start_twoRuns (runMode : RunMode) : Start (twoRuns runMode) where
  workers := rfl
  rows := (show [4, 5].Nodup by decide)
  assignments := rfl
  results := by
    intro id row hrow
    rcases List.mem_pair.mp (Dict.mem_of_lookup hrow) with h | h <;>
      obtain ⟨-, rfl⟩ := Prod.mk.inj h <;> exact nofun
  message := by
    intro id row hrow
    rcases List.mem_pair.mp (Dict.mem_of_lookup hrow) with h | h <;>
      obtain ⟨-, rfl⟩ := Prod.mk.inj h <;> rfl

/-- The cache key of both stage runs. -/
def sharedKey : StageCacheKey :=
  ⟨.message, "message", "key"⟩

/-- A worker takes a stage run and commits an activated negative label. -/
def commitNegative (name stageRunId : ℕ) (now : ℤ) : List Action :=
  [.process name stageRunId now 60, .prepare name (.prepared (some sharedKey)), .proceed name,
    .proceed name, .answer name (.valid [⟨7, "spam", .int 1, true, true⟩]), .proceed name,
    .proceed name]

end AnalysisWorker

end TgCurator
