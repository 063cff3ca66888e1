import TgCurator.Analysis.Records

/-!
# The analysis repository

`SqlAlchemyAnalysisStageRunRepository` of `infrastructure/database/analysis_repository.py`.
A worker leases a stage run, starts an inference call or finds a cached result, and
commits a result, or a failure that is retried or final. The negative gate blocks the
messages of activated negative labels, and a run gets the aggregate of its stage runs.
Each method is one transaction; an exception rolls it back.
-/

namespace TgCurator

/-! ## Sanitized errors -/

/-- `(str(value).strip() or default)[:limit]`. -/
def sanitizeText (value default : String) (limit : ℕ) : String :=
  let normalized := strip value
  String.ofList ((if normalized = "" then default else normalized).toList.take limit)

/-- `sanitize_error_code`. -/
def sanitizeErrorCode : Option String → String
  | none => "INTERNAL_ERROR"
  | some value => sanitizeText value "INTERNAL_ERROR" 64

/-- `sanitize_error_type`. -/
def sanitizeErrorType : Option String → String
  | none => "UnknownAnalysisError"
  | some value => sanitizeText value "UnknownAnalysisError" 128

/-! ## Rows -/

namespace StageRunRecord

/-- `analysis_stage_run_claim_statement`: whether a stage run is due. -/
def due (row : StageRunRecord) (now : ℤ) : Bool :=
  row.status = .pending ||
    (row.status = .retryWait && row.nextRetryAt.any (· ≤ now)) ||
      (row.status = .running && row.leaseExpiresAt.any (· ≤ now))

/-- The row of a claim. -/
def lease (row : StageRunRecord) (leaseToken : ℕ) (now leaseDuration : ℤ) : StageRunRecord :=
  { row with
    status := .running
    attemptCount := row.attemptCount + 1
    nextRetryAt := none
    leaseToken := some leaseToken
    leaseExpiresAt := some (now + leaseDuration)
    startedAt := row.startedAt <|> some now }

/-- The row of an exhausted lease. -/
def exhaust (row : StageRunRecord) (now : ℤ) : StageRunRecord :=
  { row with
    status := .failed
    nextRetryAt := none
    leaseToken := none
    leaseExpiresAt := none
    lastErrorCode := some "LEASE_EXPIRED"
    lastErrorType := some "WorkerLeaseExpired"
    retryable := some false
    lastFailureAt := some now
    completedAt := some now }

/-- `_clear_stage_lease`, when completed. -/
def clearStageLease (row : StageRunRecord) (now : ℤ) : StageRunRecord :=
  { row with
    nextRetryAt := none
    leaseToken := none
    leaseExpiresAt := none
    lastErrorCode := none
    lastErrorType := none
    retryable := none
    lastFailureAt := none
    completedAt := some now }

/-- The row of a call that starts. -/
def start (row : StageRunRecord) (inputManifestId inferenceCallId : ℕ) (policy : CachePolicy)
    (cacheKey : Option StageCacheKey) : StageRunRecord :=
  { row with
    inputManifestId := some inputManifestId
    inferenceCallId := some inferenceCallId
    cachePolicy := policy
    cacheScopeIdentity := cacheKey.map (·.scopeIdentity)
    semanticCacheKey := cacheKey.map (·.value) }

/-- The row of a validated result. -/
def succeed (row : StageRunRecord) (result : ValidatedTargetResult) (now : ℤ) : StageRunRecord :=
  { row with
    status := .succeeded
    parsedResult := some result
    resultOrigin := some .inference
    reusedFromStageRunId := none }.clearStageLease now

/-- The row of a reused result. -/
def reuse (row : StageRunRecord) (inputManifestId : ℕ) (parsed : ValidatedTargetResult)
    (cacheKey : StageCacheKey) (sourceStageRunId : ℕ) (now : ℤ) : StageRunRecord :=
  { row with
    status := .succeeded
    inputManifestId := some inputManifestId
    inferenceCallId := none
    parsedResult := some parsed
    cachePolicy := cacheKey.policy
    cacheScopeIdentity := some cacheKey.scopeIdentity
    semanticCacheKey := some cacheKey.value
    resultOrigin := some .cache
    reusedFromStageRunId := some sourceStageRunId }.clearStageLease now

/-- The first assignments of `_retry_or_fail_row`. -/
def recordFailure (row : StageRunRecord) (code errorType : String) (retryable : Bool) (now : ℤ) :
    StageRunRecord :=
  { row with
    lastErrorCode := some (sanitizeErrorCode (some code))
    lastErrorType := some (sanitizeErrorType (some errorType))
    retryable := some retryable
    lastFailureAt := some now
    leaseToken := none
    leaseExpiresAt := none }

/-- The row of a failure that is retried. -/
def retry (row : StageRunRecord) (code errorType : String) (retryAt now : ℤ) : StageRunRecord :=
  { row.recordFailure code errorType true now with
    status := .retryWait
    nextRetryAt := some retryAt
    completedAt := none }

/-- The row of a final failure. -/
def fail (row : StageRunRecord) (code errorType : String) (retryable : Bool) (now : ℤ) :
    StageRunRecord :=
  { row.recordFailure code errorType retryable now with
    status := .failed
    nextRetryAt := none
    completedAt := some now }

/-- The row of a stage run that the negative gate skips. -/
def skip (row : StageRunRecord) (now : ℤ) : StageRunRecord :=
  { row with
    status := .skippedNegativeGate
    nextRetryAt := none
    leaseToken := none
    leaseExpiresAt := none
    completedAt := some now }

/-- `_exact_cache_source`, and the same conditions in the query of `find_cache_hit`. -/
def exactCacheSource (source : StageRunRecord) (cacheKey : StageCacheKey) : Bool :=
  source.status = .succeeded && source.parsedResult.isSome &&
    source.semanticCacheKey = some cacheKey.value && source.cachePolicy = cacheKey.policy &&
      source.cacheScopeIdentity = some cacheKey.scopeIdentity

/-- `order_by(completed_at, id)`; a null comes last. -/
def completedLE (a b : ℕ × StageRunRecord) : Bool :=
  match a.2.completedAt, b.2.completedAt with
  | some x, some y => x < y || (x = y && a.1 ≤ b.1)
  | some _, none => true
  | none, some _ => false
  | none, none => a.1 ≤ b.1

/-- Stage runs in order of completion. -/
def ordered (rows : Dict ℕ StageRunRecord) : List (ℕ × StageRunRecord) :=
  rows.insertionSort fun a b => completedLE a b

/-- The assignment of a label to the target of a stage run. -/
def assign (row : StageRunRecord) (stageRunId : ℕ) (label : ResolvedLabel) :
    ModelLabelAssignmentRecord where
  stageRunId := stageRunId
  analysisRunId := row.analysisRunId
  messageId := row.messageId
  target := row.target
  label := label

end StageRunRecord

/-- `_copy_assignment`. -/
def copyAssignment (source : ModelLabelAssignmentRecord) (stageRunId : ℕ) (row : StageRunRecord) :
    ModelLabelAssignmentRecord :=
  row.assign stageRunId source.label

/-- `_rewrite_cached_target`. -/
def rewriteCachedTarget (parsed : ValidatedTargetResult) (targetId : ℕ) : ValidatedTargetResult :=
  { parsed with targetId }

/-- An activated label of a negative definition. -/
def ModelLabelAssignmentRecord.gates (assignment : ModelLabelAssignmentRecord) : Bool :=
  assignment.label.activated && assignment.label.negative

/-- `uq_model_assignment_stage_label`. -/
def ModelLabelAssignmentRecord.Clash (a b : ModelLabelAssignmentRecord) : Prop :=
  a.stageRunId = b.stageRunId ∧
    a.label.labelDefinitionVersionId = b.label.labelDefinitionVersionId

instance : DecidableRel ModelLabelAssignmentRecord.Clash := fun _ _ => instDecidableAnd

namespace AnalysisTables

/-- The stage runs of a run. -/
def stagesOf (t : AnalysisTables) (analysisRunId : ℕ) : Dict ℕ StageRunRecord :=
  t.stageRuns.filter fun e => e.2.analysisRunId = analysisRunId

/-- The assignments of a stage run. -/
def assignmentsOf (t : AnalysisTables) (stageRunId : ℕ) : List ModelLabelAssignmentRecord :=
  (t.assignments.filter fun e => e.2.stageRunId = stageRunId).map Prod.snd

/-- Rows under fresh ids. -/
def numbered {α : Type} (start : ℕ) (rows : List α) : Dict ℕ α :=
  (rows.zipIdx start).map fun e => (e.2, e.1)

/-- The requests for the negative gate among new assignments. -/
def gateRequests (added : Dict ℕ ModelLabelAssignmentRecord) : List NegativeGateAssignment :=
  (added.filter (·.2.gates)).map fun e => ⟨e.2.messageId, e.2.stageRunId, e.1⟩

/-- The assignments of a commit, and the requests for the negative gate. -/
def addAssignments (t : AnalysisTables) (rows : List ModelLabelAssignmentRecord) :
    Except PyError (AnalysisTables × List NegativeGateAssignment) :=
  if rows.Pairwise (fun a b => ¬ a.Clash b) ∧ ∀ a ∈ rows, ∀ e ∈ t.assignments, ¬ a.Clash e.2 then
    let added := numbered t.nextId rows
    .ok
      ({ t with
        assignments := t.assignments ++ added
        nextId := t.nextId + rows.length }, gateRequests added)
  else .error .integrityError

end AnalysisTables

/-! ## Leases -/

/-- The run of a stage run whose attempts are exhausted. -/
def AnalysisRunRecord.exhausted (run : AnalysisRunRecord) (active : Bool) (now : ℤ) :
    AnalysisRunRecord :=
  if active then
    { run with
      startedAt := run.startedAt <|> some now
      status := .running
      completedAt := none }
  else
    { run with
      startedAt := run.startedAt <|> some now
      status := .failed
      completedAt := some now
      lastErrorCode := some "LEASE_EXPIRED"
      lastErrorType := some "WorkerLeaseExpired" }

/-- The run of a claimed stage run. -/
def AnalysisRunRecord.begin (run : AnalysisRunRecord) (now : ℤ) : AnalysisRunRecord :=
  { run with
    status := .running
    startedAt := run.startedAt <|> some now
    completedAt := none }

/-- The claim of a leased stage run. -/
def StageRunRecord.claimed (row : StageRunRecord) (stageRunId leaseToken : ℕ)
    (run : AnalysisRunRecord) : ClaimedAnalysisStageRun where
  stageRunId := stageRunId
  analysisRunId := row.analysisRunId
  messageId := row.messageId
  targetId := row.target.targetId
  analysisStageTemplateVersionId := row.analysisStageTemplateVersionId
  leaseToken := leaseToken
  attemptCount := row.attemptCount
  maxAttempts := row.maxAttempts
  runMode := run.runMode

namespace AnalysisTables

/-- `_terminalize_exhausted`. -/
def terminalizeExhausted (t : AnalysisTables) (stageRunId : ℕ) (row : StageRunRecord)
    (run : AnalysisRunRecord) (now : ℤ) : AnalysisTables :=
  let flushed :=
    { t with
      stageRuns := t.stageRuns.set stageRunId (row.exhaust now)
      wakeups := setWakeupTerminal t.wakeups analysisQueue stageRunId now }
  { flushed with
    runs := t.runs.set row.analysisRunId
      (run.exhausted ((flushed.stagesOf row.analysisRunId).any (·.2.status.isActive)) now) }

/-- `claim`. -/
def claim (t : AnalysisTables) (stageRunId : ℕ) (now leaseDuration : ℤ) :
    AnalysisTables × Option ClaimedAnalysisStageRun :=
  match (t.stageRuns.lookup stageRunId).filter (·.due now) with
  | none => (t, none)
  | some row =>
    match t.runs.lookup row.analysisRunId with
    | none => (t, none)
    | some run =>
      if run.status.isTerminal then (t, none)
      else if row.maxAttempts ≤ row.attemptCount then
        (t.terminalizeExhausted stageRunId row run now, none)
      else
        ({ t with
          stageRuns := t.stageRuns.set stageRunId (row.lease t.nextId now leaseDuration)
          runs := t.runs.set row.analysisRunId (run.begin now)
          nextId := t.nextId + 1 },
          some ((row.lease t.nextId now leaseDuration).claimed stageRunId t.nextId run))

/-- The row of a claim that is still leased, joined with its stage version. -/
def snapshotRow (t : AnalysisTables) (claim : ClaimedAnalysisStageRun) :
    Option (StageRunRecord × AnalysisStageTemplateVersionRecord) := do
  let row ← (t.stageRuns.lookup claim.stageRunId).filter fun row : StageRunRecord =>
    row.status = .running && row.leaseToken = some claim.leaseToken
  let _ ← t.runs.lookup row.analysisRunId
  let _ ← t.messages.lookup row.messageId
  let stage ← t.stageVersions.lookup row.analysisStageTemplateVersionId
  return (row, stage)

/-- `load_stage_snapshot`. -/
def loadStageSnapshot (t : AnalysisTables) (claim : ClaimedAnalysisStageRun) :
    Except PyError AnalysisStageSnapshot :=
  match t.snapshotRow claim with
  | none => .error (.domainValidation "analysis stage run lease is no longer active" [])
  | some (row, stage) => .ok
    { claim, stage
      target :=
        { stageRunId := claim.stageRunId
          leaseToken := claim.leaseToken
          targetId := row.target.targetId
          messageId := row.messageId } }

/-- `_lock_snapshot_targets`: the row of the target, if it is asked for and leased. -/
def lockSnapshotTargets (t : AnalysisTables) (snapshot : AnalysisStageSnapshot) (now : ℤ)
    (targetIds : Option (List ℕ)) : Option StageRunRecord :=
  if targetIds.all (snapshot.target.targetId ∈ ·) then
    (t.stageRuns.lookup snapshot.target.stageRunId).filter fun row =>
      row.status = .running && row.leaseExpiresAt.any (now < ·) &&
        row.leaseToken = some snapshot.target.leaseToken &&
          row.target.targetId = snapshot.target.targetId
  else none

/-! ## The cache -/

/-- `find_cache_hit`. -/
def findCacheHit (t : AnalysisTables) (snapshot : AnalysisStageSnapshot)
    (cacheKey : StageCacheKey) : Option AnalysisCacheHit := do
  let source ← (StageRunRecord.ordered (t.stageRuns.filter fun e =>
    e.1 ≠ snapshot.claim.stageRunId && e.2.exactCacheSource cacheKey)).getLast?
  let parsed ← source.2.parsedResult
  return ⟨source.1, parsed⟩

/-- `commit_cache_hit`. -/
def commitCacheHit (t : AnalysisTables) (snapshot : AnalysisStageSnapshot)
    (cacheKey : StageCacheKey) (hit : AnalysisCacheHit) (now : ℤ) :
    Except PyError (AnalysisTables × AnalysisCommitResult) :=
  match (t.stageRuns.lookup hit.sourceStageRunId).filter (·.exactCacheSource cacheKey) with
  | none => .ok (t, {})
  | some source =>
    match t.lockSnapshotTargets snapshot now none with
    | none => .ok (t, {})
    | some row => do
      let stageRunId := snapshot.target.stageRunId
      let targetId := snapshot.target.targetId
      let parsed := rewriteCachedTarget (source.parsedResult.getD hit.parsedResult) targetId
      let reused := row.reuse t.nextId parsed cacheKey hit.sourceStageRunId now
      let copies :=
        if snapshot.claim.runMode = .test then []
        else (t.assignmentsOf hit.sourceStageRunId).map (copyAssignment · stageRunId row)
      let (t, negative) ← addAssignments
        { t with
          stageRuns := t.stageRuns.set stageRunId reused
          wakeups := setWakeupTerminal t.wakeups analysisQueue stageRunId now
          nextId := t.nextId + 1 } copies
      return (t, ⟨[targetId], negative⟩)

/-! ## Inference calls -/

/-- `start_inference`. -/
def startInference (t : AnalysisTables) (snapshot : AnalysisStageSnapshot)
    (cacheKey : Option StageCacheKey) (now : ℤ) : AnalysisTables × Option StartedInferenceCall :=
  match t.lockSnapshotTargets snapshot now none with
  | none => (t, none)
  | some row =>
    let manifestId := t.nextId
    let callId := t.nextId + 1
    ({ t with
      stageRuns := t.stageRuns.set snapshot.target.stageRunId
        (row.start manifestId callId snapshot.stage.cachePolicy cacheKey)
      inferenceCalls := t.inferenceCalls.set callId
        { inputManifestId := manifestId
          status := .pending
          attempt := snapshot.claim.attemptCount
          errorCode := none
          errorType := none
          retryable := none
          completedAt := none }
      nextId := t.nextId + 2 },
      some ⟨callId, manifestId⟩)

/-- The pending row of a call. -/
def pendingCall (t : AnalysisTables) (started : StartedInferenceCall) :
    Option InferenceCallRecord :=
  (t.inferenceCalls.lookup started.inferenceCallId).filter fun call =>
    call.inputManifestId = started.inputManifestId && call.status = .pending

/-- `record_inference_success`. -/
def recordInferenceSuccess (t : AnalysisTables) (started : StartedInferenceCall) (now : ℤ) :
    AnalysisTables × Bool :=
  match t.pendingCall started with
  | none => (t, false)
  | some call =>
    ({ t with
      inferenceCalls := t.inferenceCalls.set started.inferenceCallId
        { call with
          status := .succeeded
          errorCode := none
          errorType := none
          retryable := none
          completedAt := some now } }, true)

/-- `record_inference_failure`. -/
def recordInferenceFailure (t : AnalysisTables) (started : StartedInferenceCall)
    (code errorType : String) (retryable : Bool) (now : ℤ) : AnalysisTables × Bool :=
  match t.pendingCall started with
  | none => (t, false)
  | some call =>
    ({ t with
      inferenceCalls := t.inferenceCalls.set started.inferenceCallId
        { call with
          status := .failed
          errorCode := some (sanitizeErrorCode (some code))
          errorType := some (sanitizeErrorType (some errorType))
          retryable := some retryable
          completedAt := some now } }, true)

/-- `commit_validated_targets`, with the result for the one target, if it is valid. -/
def commitValidatedTargets (t : AnalysisTables) (snapshot : AnalysisStageSnapshot)
    (started : StartedInferenceCall) (result : Option ValidatedTargetResult) (now : ℤ) :
    Except PyError (AnalysisTables × AnalysisCommitResult) :=
  match result with
  | none => .ok (t, {})
  | some result =>
    match (t.lockSnapshotTargets snapshot now (some [result.targetId])).filter
      (·.inferenceCallId = some started.inferenceCallId) with
    | none => .ok (t, {})
    | some row => do
      let stageRunId := snapshot.target.stageRunId
      let assignments :=
        if snapshot.claim.runMode = .test then [] else result.labels.map (row.assign stageRunId)
      let (t, negative) ← addAssignments
        { t with
          stageRuns := t.stageRuns.set stageRunId (row.succeed result now)
          wakeups := setWakeupTerminal t.wakeups analysisQueue stageRunId now } assignments
      return (t, ⟨[result.targetId], negative⟩)

/-! ## Failures -/

/-- `_retry_or_fail_row`. -/
def retryOrFailRow (t : AnalysisTables) (stageRunId : ℕ) (row : StageRunRecord)
    (code errorType : String) (retryable : Bool) (retryAt now : ℤ) : AnalysisTables :=
  if retryable && row.attemptCount < row.maxAttempts then
    { t with
      stageRuns := t.stageRuns.set stageRunId (row.retry code errorType retryAt now)
      wakeups := rescheduleWakeup t.wakeups analysisQueue stageRunId retryAt }
  else
    { t with
      stageRuns := t.stageRuns.set stageRunId (row.fail code errorType retryable now)
      wakeups := setWakeupTerminal t.wakeups analysisQueue stageRunId now }

/-- `retry_or_fail_targets`, with one target. -/
def retryOrFailTargets (t : AnalysisTables) (snapshot : AnalysisStageSnapshot) (targetId : ℕ)
    (code errorType : String) (retryable : Bool) (retryAt now : ℤ) : AnalysisTables × Bool :=
  match t.lockSnapshotTargets snapshot now (some [targetId]) with
  | none => (t, false)
  | some row =>
    (t.retryOrFailRow snapshot.target.stageRunId row code errorType retryable retryAt now, true)

/-- `retry_or_fail_claim`. -/
def retryOrFailClaim (t : AnalysisTables) (claim : ClaimedAnalysisStageRun)
    (code errorType : String) (retryable : Bool) (retryAt now : ℤ) : AnalysisTables × Bool :=
  match (t.stageRuns.lookup claim.stageRunId).filter fun row =>
    row.status = .running && row.leaseToken = some claim.leaseToken &&
      row.leaseExpiresAt.any (now < ·) with
  | none => (t, false)
  | some row =>
    (t.retryOrFailRow claim.stageRunId row code errorType retryable retryAt now, true)

/-! ## The negative gate -/

/-- The stored assignment that a request names. -/
def gateCause (t : AnalysisTables) (analysisRunId : ℕ) (requested : NegativeGateAssignment) :
    Option ModelLabelAssignmentRecord :=
  (t.assignments.lookup requested.assignmentId).filter fun assignment =>
    assignment.analysisRunId = analysisRunId && assignment.gates &&
      assignment.messageId = requested.messageId && assignment.stageRunId = requested.stageRunId

/-- `causal_by_message`: the first request of each message. -/
def causalByMessage (assignments : List NegativeGateAssignment) :
    Dict ℕ NegativeGateAssignment :=
  assignments.foldl (fun causal requested => causal.setDefault requested.messageId requested) []

end AnalysisTables

/-- A message that an assignment blocks. -/
def MessageRecord.block (message : MessageRecord) (cause : NegativeGateAssignment) (now : ℤ) :
    MessageRecord :=
  if message.blockedFromAnalysis then message
  else
    { blockedFromAnalysis := true
      blockedAt := some now
      blockedByStageRunId := some cause.stageRunId
      blockedByLabelAssignmentId := some cause.assignmentId }

/-- The run of a message that is blocked. -/
def AnalysisRunRecord.block (run : AnalysisRunRecord) (now : ℤ) : AnalysisRunRecord :=
  { run with
    status := .blockedNegativeGate
    startedAt := run.startedAt <|> some now
    completedAt := some now
    lastErrorCode := none
    lastErrorType := none }

namespace AnalysisTables

/-- The stage runs that a gate skips. -/
def gateSkips (analysisRunId : ℕ) (causal : Dict ℕ NegativeGateAssignment)
    (row : StageRunRecord) : Bool :=
  row.analysisRunId = analysisRunId && row.messageId ∈ causal.keys && row.status.isActive

/-- The tables once a gate is applied. -/
def gated (t : AnalysisTables) (analysisRunId : ℕ) (run : AnalysisRunRecord)
    (causal : Dict ℕ NegativeGateAssignment) (now : ℤ) : AnalysisTables :=
  { t with
    messages := t.messages.mapValues fun id message =>
      match causal.lookup id with
      | none => message
      | some cause => message.block cause now
    stageRuns := t.stageRuns.mapValues fun _ row =>
      if gateSkips analysisRunId causal row then row.skip now else row
    wakeups := (t.stageRuns.filter fun e => gateSkips analysisRunId causal e.2).foldl
      (fun wakeups e => setWakeupTerminal wakeups analysisQueue e.1 now) t.wakeups
    runs := t.runs.set analysisRunId (run.block now) }

/-- `apply_negative_gate`. -/
def applyNegativeGate (t : AnalysisTables) (analysisRunId : ℕ)
    (assignments : List NegativeGateAssignment) (now : ℤ) : AnalysisTables × Bool :=
  if assignments = [] then (t, false)
  else
    match (t.runs.lookup analysisRunId).filter (·.runMode ≠ .test) with
    | none => (t, false)
    | some run =>
      if assignments.all fun requested => (t.gateCause analysisRunId requested).isSome then
        let causal := causalByMessage assignments
        if causal.keys.all (· ∈ t.messages.keys) then
          (t.gated analysisRunId run causal now, true)
        else (t, false)
      else (t, false)

end AnalysisTables

/-! ## The status of a run -/

/-- The branches of `complete_analysis_run`, on the stage runs in order of completion. -/
def AnalysisRunRecord.complete (run : AnalysisRunRecord) (stages : List StageRunRecord) (now : ℤ) :
    AnalysisRunRecord :=
  let run := { run with startedAt := run.startedAt <|> some now }
  if stages.any (·.status.isActive) then
    { run with
      status := .running
      completedAt := none
      lastErrorCode := none
      lastErrorType := none }
  else
    match stages.find? (·.status = .failed) with
    | some failure =>
      { run with
        status := .failed
        completedAt := some now
        lastErrorCode := some (sanitizeErrorCode failure.lastErrorCode)
        lastErrorType := some (sanitizeErrorType failure.lastErrorType) }
    | none =>
      if run.status = .blockedNegativeGate || stages.any (·.status = .skippedNegativeGate) then
        { run with
          status := .blockedNegativeGate
          completedAt := run.completedAt <|> some now
          lastErrorCode := none
          lastErrorType := none }
      else
        { run with
          status := .completed
          completedAt := some now
          lastErrorCode := none
          lastErrorType := none }

namespace AnalysisTables

/-- The stage runs of a run in order of completion. -/
def orderedStages (t : AnalysisTables) (analysisRunId : ℕ) : List StageRunRecord :=
  (StageRunRecord.ordered (t.stagesOf analysisRunId)).map Prod.snd

/-- `complete_analysis_run`. -/
def completeAnalysisRun (t : AnalysisTables) (analysisRunId : ℕ) (now : ℤ) :
    AnalysisTables × Bool :=
  match t.runs.lookup analysisRunId with
  | none => (t, false)
  | some run =>
    ({ t with
      runs := t.runs.set analysisRunId (run.complete (t.orderedStages analysisRunId) now) }, true)

end AnalysisTables

end TgCurator
