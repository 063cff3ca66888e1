import TgCurator.Analysis.Common
import TgCurator.Processing.Wakeups

/-!
# The analysis tables

The rows of `infrastructure/database/models.py` that the analysis repository reads and
writes, with the columns that some method uses, apart from `created_at` and `updated_at`.
A table is a dictionary under its primary key. Ids and lease tokens are drawn from one
counter, standing for `uuid4`.

The rows of the input manifests are only written, so a manifest is its id here. The
result of a stage run keeps its target and its labels; the reason, the evidence and what
a provider returned are only stored.
-/

namespace TgCurator

/-! ## Runs and stages -/

/-- `analysis_runs.run_mode`. -/
inductive RunMode
  | formal | reanalysis | test
  deriving DecidableEq

/-- `analysis_runs.status`. -/
inductive AnalysisRunStatus
  | pending | running | completed | blockedNegativeGate | failed
  deriving DecidableEq

/-- `_TERMINAL_RUN_STATUSES`. -/
def AnalysisRunStatus.isTerminal : AnalysisRunStatus → Bool
  | pending | running => false
  | completed | blockedNegativeGate | failed => true

/-- A row of `analysis_runs`. -/
structure AnalysisRunRecord where
  runMode : RunMode
  status : AnalysisRunStatus
  lastErrorCode : Option String
  lastErrorType : Option String
  startedAt : Option ℤ
  completedAt : Option ℤ

/-- `CachePolicy`. -/
inductive CachePolicy
  | none | message | messageVisual | asset
  deriving DecidableEq

/-- `StageRetryPolicy`, as far as the delays go. -/
structure StageRetryPolicy where
  baseDelaySeconds : ℤ
  maxDelaySeconds : ℤ

/-- A row of `analysis_stage_template_versions`. -/
structure AnalysisStageTemplateVersionRecord where
  cachePolicy : CachePolicy
  retryPolicy : StageRetryPolicy

/-- `StageCacheKey`. -/
structure StageCacheKey where
  policy : CachePolicy
  scopeIdentity : String
  value : String

/-! ## Results -/

/-- `ResolvedLabel`. -/
structure ResolvedLabel where
  labelDefinitionVersionId : ℕ
  key : String
  score : Number
  activated : Bool
  negative : Bool
  deriving DecidableEq

/-- `ValidatedTargetResult`. -/
structure ValidatedTargetResult where
  targetId : ℕ
  labels : List ResolvedLabel
  deriving DecidableEq

/-- The columns that name the target of a stage run. -/
structure StageTarget where
  targetScope : String
  targetKind : String
  targetId : ℕ
  imageAssetId : Option ℕ
  videoAssetId : Option ℕ
  deriving DecidableEq

/-- A row of `model_label_assignments`. -/
structure ModelLabelAssignmentRecord where
  stageRunId : ℕ
  analysisRunId : ℕ
  messageId : ℕ
  target : StageTarget
  label : ResolvedLabel
  deriving DecidableEq

/-! ## Stage runs -/

/-- `stage_runs.status`. -/
inductive StageRunStatus
  | pending | running | retryWait | succeeded | failed | skippedCondition | skippedNegativeGate
  deriving DecidableEq

/-- `_ACTIVE_STAGE_STATUSES`. -/
def StageRunStatus.isActive : StageRunStatus → Bool
  | pending | running | retryWait => true
  | succeeded | failed | skippedCondition | skippedNegativeGate => false

/-- `stage_runs.result_origin`. -/
inductive ResultOrigin
  | inference | cache
  deriving DecidableEq

/-- A row of `stage_runs`. -/
structure StageRunRecord where
  analysisRunId : ℕ
  pipelineStageNodeId : Option ℕ
  analysisStageTemplateVersionId : ℕ
  messageId : ℕ
  target : StageTarget
  status : StageRunStatus
  attemptCount : ℕ
  maxAttempts : ℕ
  nextRetryAt : Option ℤ
  leaseToken : Option ℕ
  leaseExpiresAt : Option ℤ
  inputManifestId : Option ℕ
  inferenceCallId : Option ℕ
  parsedResult : Option ValidatedTargetResult
  cachePolicy : CachePolicy
  cacheScopeIdentity : Option String
  semanticCacheKey : Option String
  resultOrigin : Option ResultOrigin
  reusedFromStageRunId : Option ℕ
  lastErrorCode : Option String
  lastErrorType : Option String
  retryable : Option Bool
  lastFailureAt : Option ℤ
  startedAt : Option ℤ
  completedAt : Option ℤ

/-- A stage run for a message, before its first claim. -/
def plannedStageRun (analysisRunId stageVersionId messageId maxAttempts : ℕ) : StageRunRecord where
  analysisRunId := analysisRunId
  pipelineStageNodeId := none
  analysisStageTemplateVersionId := stageVersionId
  messageId := messageId
  target := ⟨"global", "message", messageId, none, none⟩
  status := .pending
  attemptCount := 0
  maxAttempts := maxAttempts
  nextRetryAt := none
  leaseToken := none
  leaseExpiresAt := none
  inputManifestId := none
  inferenceCallId := none
  parsedResult := none
  cachePolicy := .none
  cacheScopeIdentity := none
  semanticCacheKey := none
  resultOrigin := none
  reusedFromStageRunId := none
  lastErrorCode := none
  lastErrorType := none
  retryable := none
  lastFailureAt := none
  startedAt := none
  completedAt := none

/-! ## Messages and calls -/

/-- A row of `messages`, with what the negative gate reads and writes. -/
structure MessageRecord where
  blockedFromAnalysis : Bool
  blockedAt : Option ℤ
  blockedByStageRunId : Option ℕ
  blockedByLabelAssignmentId : Option ℕ

/-- `inference_calls.status`. -/
inductive InferenceCallStatus
  | pending | succeeded | failed
  deriving DecidableEq

/-- A row of `inference_calls`. -/
structure InferenceCallRecord where
  inputManifestId : ℕ
  status : InferenceCallStatus
  attempt : ℕ
  errorCode : Option String
  errorType : Option String
  retryable : Option Bool
  completedAt : Option ℤ

/-- The tables. -/
structure AnalysisTables where
  runs : Dict ℕ AnalysisRunRecord
  stageVersions : Dict ℕ AnalysisStageTemplateVersionRecord
  stageRuns : Dict ℕ StageRunRecord
  messages : Dict ℕ MessageRecord
  assignments : Dict ℕ ModelLabelAssignmentRecord
  inferenceCalls : Dict ℕ InferenceCallRecord
  wakeups : Dict (String × ℕ) DurableWakeupRecord
  nextId : ℕ

/-- `ANALYSIS_QUEUE`. -/
def analysisQueue : String :=
  "analysis"

/-! ## What a worker carries -/

/-- `ClaimedAnalysisStageRun`. -/
structure ClaimedAnalysisStageRun where
  stageRunId : ℕ
  analysisRunId : ℕ
  messageId : ℕ
  targetId : ℕ
  analysisStageTemplateVersionId : ℕ
  leaseToken : ℕ
  attemptCount : ℕ
  maxAttempts : ℕ
  runMode : RunMode
  deriving DecidableEq

/-- `AnalysisTargetSnapshot`. -/
structure AnalysisTargetSnapshot where
  stageRunId : ℕ
  leaseToken : ℕ
  targetId : ℕ
  messageId : ℕ

/-- `AnalysisStageSnapshot`. The only snapshots are those of `load_stage_snapshot`, which
have one target. -/
structure AnalysisStageSnapshot where
  claim : ClaimedAnalysisStageRun
  stage : AnalysisStageTemplateVersionRecord
  target : AnalysisTargetSnapshot

/-- `AnalysisCacheHit`. -/
structure AnalysisCacheHit where
  sourceStageRunId : ℕ
  parsedResult : ValidatedTargetResult

/-- `StartedInferenceCall`. -/
structure StartedInferenceCall where
  inferenceCallId : ℕ
  inputManifestId : ℕ

/-- `NegativeGateAssignment`. -/
structure NegativeGateAssignment where
  messageId : ℕ
  stageRunId : ℕ
  assignmentId : ℕ
  deriving DecidableEq

/-- `AnalysisCommitResult`. -/
structure AnalysisCommitResult where
  committedTargetIds : List ℕ := []
  negativeGateAssignments : List NegativeGateAssignment := []

end TgCurator
