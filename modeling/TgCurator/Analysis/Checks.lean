import TgCurator.Analysis.Worker
import TgCurator.Inference.Inputs
import TgCurator.Rows

/-!
# The constraints of the analysis tables

The checks and unique constraints of `analysis_runs`, `stage_runs`, `inference_calls`,
`model_label_assignments` and `durable_wakeups` about columns of the model, and the lengths of
the columns with errors. The types of the columns hold those about their values. Documents are
left out, with the type of a `JSONB` column and the raw response that the `lifecycle` of a call
asks for, and so are the provider, the schema, the latency and the status of a call.

`Checked` gathers the constraints, and each transaction of a worker keeps them
(`transact_checked`), if the labels are those of a validator (`Validated`) and cache keys are
hashes.

A commit never meets a unique constraint (`transact_commits`): a stage run has no assignments
before its commit, and the labels of a result, like those of a stage run whose result is reused, are
distinct.
-/

namespace TgCurator

/-! ## Checks -/

/-- The checks of `analysis_runs`, with the lengths of the error columns. -/
structure AnalysisRunRecord.Checks (run : AnalysisRunRecord) : Prop where
  /-- `lifecycle` -/
  lifecycle : (run.status = .pending ∧ run.startedAt = none ∧ run.completedAt = none) ∨
    (run.status = .running ∧ run.startedAt.isSome ∧ run.completedAt = none) ∨
    (run.status.isTerminal = true ∧ run.startedAt.isSome ∧ run.completedAt.isSome)
  /-- `failure_metadata` -/
  failure_metadata : run.status = .failed → run.lastErrorCode.isSome ∧ run.lastErrorType.isSome
  error_code_length : ∀ code, run.lastErrorCode = some code → code.length ≤ 64
  error_type_length : ∀ type, run.lastErrorType = some type → type.length ≤ 128

/-- `target_identity`, of a target of a message. -/
def StageTarget.Identity (target : StageTarget) (messageId : ℕ) : Prop :=
  (target.targetKind = "message" ∧ target.targetScope = "global" ∧ target.targetId = messageId ∧
      target.imageAssetId = none ∧ target.videoAssetId = none) ∨
    (target.targetKind = "image_asset" ∧ target.targetScope = "media" ∧
      target.imageAssetId = some target.targetId ∧ target.videoAssetId = none) ∨
    (target.targetKind = "video_asset" ∧ target.targetScope = "media" ∧
      target.videoAssetId = some target.targetId ∧ target.imageAssetId = none)

/-- The checks of `stage_runs`, with the lengths of the error columns. -/
structure StageRunRecord.Checks (row : StageRunRecord) : Prop where
  target_identity : row.target.Identity row.messageId
  attempts : row.attemptCount ≤ row.maxAttempts ∧ 0 < row.maxAttempts
  lease : (row.status = .running ∧ row.leaseToken.isSome ∧ row.leaseExpiresAt.isSome ∧
      0 < row.attemptCount) ∨
    (row.status ≠ .running ∧ row.leaseToken = none ∧ row.leaseExpiresAt = none)
  retry_schedule : (row.status = .retryWait ∧ row.nextRetryAt.isSome) ∨
    (row.status ≠ .retryWait ∧ row.nextRetryAt = none)
  failure_metadata : row.status = .retryWait ∨ row.status = .failed →
    row.lastErrorCode.isSome ∧ row.lastErrorType.isSome ∧ row.retryable.isSome ∧
      row.lastFailureAt.isSome
  terminal_timestamp : row.status.isActive = false → row.completedAt.isSome
  success_result : row.status = .succeeded →
    row.parsedResult.isSome ∧ row.resultOrigin.isSome ∧ row.inputManifestId.isSome
  cache_source : (row.resultOrigin = none ∧ row.reusedFromStageRunId = none) ∨
    (row.resultOrigin = some .inference ∧ row.reusedFromStageRunId = none) ∨
    (row.resultOrigin = some .cache ∧ row.reusedFromStageRunId.isSome)
  cache_key_format : ∀ key, row.semanticCacheKey = some key → Inference.isHash key = true
  error_code_length : ∀ code, row.lastErrorCode = some code → code.length ≤ 64
  error_type_length : ∀ type, row.lastErrorType = some type → type.length ≤ 128

/-- The columns of `uq_stage_run_business_target`, which holds no stage run without a node. -/
def StageRunRecord.businessTarget (row : StageRunRecord) : Option (ℕ × ℕ × ℕ × ℕ) :=
  row.pipelineStageNodeId.map fun node =>
    (row.analysisRunId, node, row.analysisStageTemplateVersionId, row.target.targetId)

/-- The columns of `uq_stage_run_direct_target`, an index of the stage runs without a node. -/
def StageRunRecord.directTarget (row : StageRunRecord) : Option (ℕ × ℕ × ℕ) :=
  if row.pipelineStageNodeId.isNone then
    some (row.analysisRunId, row.analysisStageTemplateVersionId, row.target.targetId)
  else
    none

/-- A stage run with a call has the manifest of the call. -/
def StageRunRecord.Called (row : StageRunRecord) : Prop :=
  row.inferenceCallId.isSome → row.inputManifestId.isSome

/-- The checks of `inference_calls`, with the lengths of the error columns. -/
structure InferenceCallRecord.Checks (call : InferenceCallRecord) : Prop where
  attempt_positive : 0 < call.attempt
  lifecycle : (call.status = .pending ∧ call.completedAt = none) ∨
    (call.status = .succeeded ∧ call.completedAt.isSome ∧ call.errorCode = none ∧
      call.errorType = none) ∨
    (call.status = .failed ∧ call.completedAt.isSome ∧ call.errorCode.isSome ∧
      call.errorType.isSome ∧ call.retryable.isSome)
  error_code_length : ∀ code, call.errorCode = some code → code.length ≤ 64
  error_type_length : ∀ type, call.errorType = some type → type.length ≤ 128

/-- The checks of `model_label_assignments`. -/
structure ModelLabelAssignmentRecord.Checks (assignment : ModelLabelAssignmentRecord) : Prop where
  target_identity : assignment.target.Identity assignment.messageId
  score : inUnitInterval assignment.label.score = true
  label_key_not_blank : assignment.label.key.toList.any (· ≠ ' ') = true

/-- Tables that meet their constraints. -/
structure AnalysisTables.Checked (t : AnalysisTables) : Prop where
  runs : t.runs.All AnalysisRunRecord.Checks
  stageRuns : t.stageRuns.All StageRunRecord.Checks
  called : t.stageRuns.All StageRunRecord.Called
  /-- `uq_stage_run_business_target` -/
  businessTargets : t.stageRuns.Unique StageRunRecord.businessTarget
  /-- `uq_stage_run_direct_target` -/
  directTargets : t.stageRuns.Unique StageRunRecord.directTarget
  inferenceCalls : t.inferenceCalls.All InferenceCallRecord.Checks
  assignments : t.assignments.All ModelLabelAssignmentRecord.Checks
  /-- `uq_model_assignment_stage_label` -/
  labels : t.assignments.Pairwise fun a b => ¬ a.2.Clash b.2
  wakeups : t.wakeups.All DurableWakeupRecord.Checks

/-- The labels of a validated result. -/
structure Validated (labels : List ResolvedLabel) : Prop where
  score : ∀ label ∈ labels, inUnitInterval label.score = true
  key : ∀ label ∈ labels, label.key.toList.any (· ≠ ' ') = true
  distinct : (labels.map (·.labelDefinitionVersionId)).Nodup

theorem Validated.nil : Validated [] :=
  ⟨fun _ h => absurd h List.not_mem_nil, fun _ h => absurd h List.not_mem_nil, List.nodup_nil⟩

/-! ## Texts -/

theorem length_sanitizeText {value default : String} {limit : ℕ} :
    (sanitizeText value default limit).length ≤ limit := by
  simp [sanitizeText]

theorem length_sanitizeErrorCode (value : Option String) :
    (sanitizeErrorCode value).length ≤ 64 := by
  cases value with
  | none => decide
  | some _ => exact length_sanitizeText

theorem length_sanitizeErrorType (value : Option String) :
    (sanitizeErrorType value).length ≤ 128 := by
  cases value with
  | none => decide
  | some _ => exact length_sanitizeText

theorem length_of_code {value : Option String} {code : String}
    (h : some (sanitizeErrorCode value) = some code) : code.length ≤ 64 := by
  rw [← Option.some.inj h]
  exact length_sanitizeErrorCode value

theorem length_of_type {value : Option String} {type : String}
    (h : some (sanitizeErrorType value) = some type) : type.length ≤ 128 := by
  rw [← Option.some.inj h]
  exact length_sanitizeErrorType value

/-! ## Runs -/

namespace AnalysisRunRecord.Checks

variable {run : AnalysisRunRecord}

theorem isSome_orElse {now : ℤ} {o : Option ℤ} : (o <|> some now).isSome = true := by
  cases o <;> rfl

theorem begin_run (h : run.Checks) (now : ℤ) : (run.begin now).Checks where
  lifecycle := .inr (.inl ⟨rfl, isSome_orElse, rfl⟩)
  failure_metadata hstatus := by cases hstatus
  error_code_length := h.error_code_length
  error_type_length := h.error_type_length

theorem exhausted_run (h : run.Checks) (active : Bool) (now : ℤ) :
    (run.exhausted active now).Checks := by
  unfold AnalysisRunRecord.exhausted
  split_ifs
  · exact ⟨.inr (.inl ⟨rfl, isSome_orElse, rfl⟩), fun hstatus => (by cases hstatus),
      h.error_code_length, h.error_type_length⟩
  · refine ⟨.inr (.inr ⟨rfl, isSome_orElse, rfl⟩), fun _ => ⟨rfl, rfl⟩, ?_, ?_⟩
    · rintro _ ⟨⟩
      decide
    · rintro _ ⟨⟩
      decide

theorem block_run (run : AnalysisRunRecord) (now : ℤ) : (run.block now).Checks where
  lifecycle := .inr (.inr ⟨rfl, isSome_orElse, rfl⟩)
  failure_metadata hstatus := by cases hstatus
  error_code_length _ hcode := by cases hcode
  error_type_length _ htype := by cases htype

theorem complete_run (run : AnalysisRunRecord) (stages : List StageRunRecord) (now : ℤ) :
    (run.complete stages now).Checks := by
  unfold AnalysisRunRecord.complete
  dsimp only
  by_cases hactive : (stages.any fun row => row.status.isActive) = true
  · rw [if_pos hactive]
    exact ⟨.inr (.inl ⟨rfl, isSome_orElse, rfl⟩), fun hstatus => (by cases hstatus), nofun, nofun⟩
  · rw [if_neg hactive]
    cases stages.find? (·.status = .failed) with
    | some failure =>
      exact ⟨.inr (.inr ⟨rfl, isSome_orElse, rfl⟩), fun _ => ⟨rfl, rfl⟩,
        fun _ hcode => length_of_code hcode, fun _ htype => length_of_type htype⟩
    | none =>
      dsimp only
      split_ifs
      · exact ⟨.inr (.inr ⟨rfl, isSome_orElse, isSome_orElse⟩),
          fun hstatus => (by cases hstatus), nofun, nofun⟩
      · exact ⟨.inr (.inr ⟨rfl, isSome_orElse, rfl⟩), fun hstatus => (by cases hstatus), nofun,
          nofun⟩

end AnalysisRunRecord.Checks

/-! ## Stage runs -/

namespace StageRunRecord.Checks

variable {row : StageRunRecord}

theorem lease_row (h : row.Checks) (hlt : row.attemptCount < row.maxAttempts) (leaseToken : ℕ)
    (now leaseDuration : ℤ) : (row.lease leaseToken now leaseDuration).Checks :=
  { h with
    attempts := ⟨hlt, h.attempts.2⟩
    lease := .inl ⟨rfl, rfl, rfl, Nat.succ_pos _⟩
    retry_schedule := .inr ⟨by simp [StageRunRecord.lease], rfl⟩
    failure_metadata := fun hstatus => (by rcases hstatus with hstatus | hstatus <;> cases hstatus)
    terminal_timestamp := fun hstatus => (by cases hstatus)
    success_result := fun hstatus => (by cases hstatus) }

theorem exhaust_row (h : row.Checks) (now : ℤ) : (row.exhaust now).Checks where
  target_identity := h.target_identity
  attempts := h.attempts
  lease := .inr ⟨by simp [StageRunRecord.exhaust], rfl, rfl⟩
  retry_schedule := .inr ⟨by simp [StageRunRecord.exhaust], rfl⟩
  failure_metadata _ := ⟨rfl, rfl, rfl, rfl⟩
  terminal_timestamp _ := rfl
  success_result hstatus := by cases hstatus
  cache_source := h.cache_source
  cache_key_format := h.cache_key_format
  error_code_length := by
    rintro _ ⟨⟩
    decide
  error_type_length := by
    rintro _ ⟨⟩
    decide

theorem start_row (h : row.Checks) (hrunning : row.status = .running)
    (inputManifestId inferenceCallId : ℕ) (policy : CachePolicy) {cacheKey : Option StageCacheKey}
    (hkey : ∀ key, cacheKey = some key → Inference.isHash key.value = true) :
    (row.start inputManifestId inferenceCallId policy cacheKey).Checks :=
  { h with
    success_result := by
      intro hstatus
      rw [StageRunRecord.start, hrunning] at hstatus
      cases hstatus
    cache_key_format := by
      intro key hvalue
      obtain ⟨key, hsome, rfl⟩ := Option.map_eq_some_iff.mp hvalue
      exact hkey key hsome }

theorem succeed_row (h : row.Checks) (hmanifest : row.inputManifestId.isSome)
    (result : ValidatedTargetResult) (now : ℤ) : (row.succeed result now).Checks where
  target_identity := h.target_identity
  attempts := h.attempts
  lease := .inr ⟨by simp [succeed, clearStageLease], rfl, rfl⟩
  retry_schedule := .inr ⟨by simp [succeed, clearStageLease], rfl⟩
  failure_metadata hstatus := by rcases hstatus with hstatus | hstatus <;> cases hstatus
  terminal_timestamp _ := rfl
  success_result _ := ⟨rfl, rfl, hmanifest⟩
  cache_source := .inr (.inl ⟨rfl, rfl⟩)
  cache_key_format := h.cache_key_format
  error_code_length _ hcode := by cases hcode
  error_type_length _ htype := by cases htype

theorem reuse_row (h : row.Checks) (inputManifestId sourceStageRunId : ℕ)
    (parsed : ValidatedTargetResult) {cacheKey : StageCacheKey}
    (hkey : Inference.isHash cacheKey.value = true) (now : ℤ) :
    (row.reuse inputManifestId parsed cacheKey sourceStageRunId now).Checks where
  target_identity := h.target_identity
  attempts := h.attempts
  lease := .inr ⟨by simp [reuse, clearStageLease], rfl, rfl⟩
  retry_schedule := .inr ⟨by simp [reuse, clearStageLease], rfl⟩
  failure_metadata hstatus := by rcases hstatus with hstatus | hstatus <;> cases hstatus
  terminal_timestamp _ := rfl
  success_result _ := ⟨rfl, rfl, rfl⟩
  cache_source := .inr (.inr ⟨rfl, rfl⟩)
  cache_key_format := by
    rintro _ ⟨⟩
    exact hkey
  error_code_length _ hcode := by cases hcode
  error_type_length _ htype := by cases htype

theorem retry_row (h : row.Checks) (code errorType : String) (retryAt now : ℤ) :
    (row.retry code errorType retryAt now).Checks where
  target_identity := h.target_identity
  attempts := h.attempts
  lease := .inr ⟨by simp [StageRunRecord.retry], rfl, rfl⟩
  retry_schedule := .inl ⟨rfl, rfl⟩
  failure_metadata _ := ⟨rfl, rfl, rfl, rfl⟩
  terminal_timestamp hstatus := by cases hstatus
  success_result hstatus := by cases hstatus
  cache_source := h.cache_source
  cache_key_format := h.cache_key_format
  error_code_length _ hcode := length_of_code hcode
  error_type_length _ htype := length_of_type htype

theorem fail_row (h : row.Checks) (code errorType : String) (retryable : Bool) (now : ℤ) :
    (row.fail code errorType retryable now).Checks where
  target_identity := h.target_identity
  attempts := h.attempts
  lease := .inr ⟨by simp [StageRunRecord.fail], rfl, rfl⟩
  retry_schedule := .inr ⟨by simp [StageRunRecord.fail], rfl⟩
  failure_metadata _ := ⟨rfl, rfl, rfl, rfl⟩
  terminal_timestamp _ := rfl
  success_result hstatus := by cases hstatus
  cache_source := h.cache_source
  cache_key_format := h.cache_key_format
  error_code_length _ hcode := length_of_code hcode
  error_type_length _ htype := length_of_type htype

theorem skip_row (h : row.Checks) (now : ℤ) : (row.skip now).Checks :=
  { h with
    lease := .inr ⟨by simp [StageRunRecord.skip], rfl, rfl⟩
    retry_schedule := .inr ⟨by simp [StageRunRecord.skip], rfl⟩
    failure_metadata := fun hstatus => (by rcases hstatus with hstatus | hstatus <;> cases hstatus)
    terminal_timestamp := fun _ => rfl
    success_result := fun hstatus => (by cases hstatus) }

end StageRunRecord.Checks

/-! ## Transactions -/

namespace AnalysisTables

variable {t t' : AnalysisTables} {snapshot : AnalysisStageSnapshot}

namespace Checked

/-- A transaction that writes one stage run, its wake-up and one run. -/
theorem moved (h : t.Checked) {id : ℕ} {row row' : StageRunRecord}
    (hfound : t.stageRuns.lookup id = some row) (hrow : row'.Checks) (hcalled : row'.Called)
    (hbusiness : row'.businessTarget = row.businessTarget)
    (hdirect : row'.directTarget = row.directTarget)
    (hstageRuns : t'.stageRuns = t.stageRuns.set id row')
    (hruns : t'.runs.All AnalysisRunRecord.Checks)
    (hcalls : t'.inferenceCalls.All InferenceCallRecord.Checks)
    (hassignments : t'.assignments = t.assignments)
    (hwakeups : t'.wakeups.All DurableWakeupRecord.Checks) : t'.Checked where
  runs := hruns
  stageRuns := hstageRuns ▸ h.stageRuns.set hrow
  called := hstageRuns ▸ h.called.set hcalled
  businessTargets :=
    hstageRuns ▸ h.businessTargets.set_of_lookup hfound fun _ hi => hbusiness.symm.trans hi
  directTargets :=
    hstageRuns ▸ h.directTargets.set_of_lookup hfound fun _ hi => hdirect.symm.trans hi
  inferenceCalls := hcalls
  assignments := hassignments ▸ h.assignments
  labels := hassignments ▸ h.labels
  wakeups := hwakeups

theorem claim (h : t.Checked) (stageRunId : ℕ) (now leaseDuration : ℤ) :
    (t.claim stageRunId now leaseDuration).1.Checked := by
  rcases claim_cases t stageRunId now leaseDuration with
    hclaim | ⟨row, run, hrow, -, hrun, -, ⟨-, hclaim⟩ | ⟨hlt, hclaim⟩⟩
  · rw [hclaim]
    exact h
  · rw [hclaim]
    have hchecks := h.runs.of_lookup hrun
    have hcalled := h.called.of_lookup hrow
    exact h.moved hrow ((h.stageRuns.of_lookup hrow).exhaust_row now) hcalled rfl rfl rfl
      (h.runs.set (hchecks.exhausted_run _ now)) h.inferenceCalls rfl
      (all_checks_setWakeupTerminal h.wakeups now)
  · rw [hclaim]
    have hchecks := h.runs.of_lookup hrun
    have hcalled := h.called.of_lookup hrow
    exact h.moved hrow ((h.stageRuns.of_lookup hrow).lease_row hlt t.nextId now leaseDuration)
      hcalled rfl rfl rfl (h.runs.set (hchecks.begin_run now)) h.inferenceCalls rfl
      h.wakeups

theorem startInference (h : t.Checked) (hattempt : 0 < snapshot.claim.attemptCount)
    {cacheKey : Option StageCacheKey}
    (hkey : ∀ key, cacheKey = some key → Inference.isHash key.value = true) (now : ℤ) :
    (t.startInference snapshot cacheKey now).1.Checked := by
  unfold AnalysisTables.startInference
  cases hlock : t.lockSnapshotTargets snapshot now none with
  | none => exact h
  | some row =>
    have hleased := (leased_of_lock hlock).1
    have hrow := h.stageRuns.of_lookup hleased.found
    exact h.moved hleased.found (hrow.start_row hleased.running _ _ _ hkey) (fun _ => rfl) rfl rfl
      rfl h.runs (h.inferenceCalls.set ⟨hattempt, .inl ⟨rfl, rfl⟩, nofun, nofun⟩) rfl h.wakeups

theorem recordInferenceSuccess (h : t.Checked) (started : StartedInferenceCall) (now : ℤ) :
    (t.recordInferenceSuccess started now).1.Checked := by
  unfold AnalysisTables.recordInferenceSuccess
  cases hcall : t.pendingCall started with
  | none => exact h
  | some call =>
    have hchecks := h.inferenceCalls.of_lookup (Option.filter_eq_some_iff.mp hcall).1
    refine { h with inferenceCalls := h.inferenceCalls.set ?_ }
    exact ⟨hchecks.attempt_positive, .inr (.inl ⟨rfl, rfl, rfl, rfl⟩), nofun, nofun⟩

theorem recordInferenceFailure (h : t.Checked) (started : StartedInferenceCall)
    (code errorType : String) (retryable : Bool) (now : ℤ) :
    (t.recordInferenceFailure started code errorType retryable now).1.Checked := by
  unfold AnalysisTables.recordInferenceFailure
  cases hcall : t.pendingCall started with
  | none => exact h
  | some call =>
    have hchecks := h.inferenceCalls.of_lookup (Option.filter_eq_some_iff.mp hcall).1
    refine { h with inferenceCalls := h.inferenceCalls.set ?_ }
    exact ⟨hchecks.attempt_positive, .inr (.inr ⟨rfl, rfl, rfl, rfl, rfl⟩),
      fun _ hcode => length_of_code hcode, fun _ htype => length_of_type htype⟩

theorem retryOrFailRow (h : t.Checked) {id leaseToken : ℕ} {row : StageRunRecord}
    (hleased : t.Leased id leaseToken row) (code errorType : String) (retryable : Bool)
    (retryAt now : ℤ) :
    (t.retryOrFailRow id row code errorType retryable retryAt now).Checked := by
  have hrow := h.stageRuns.of_lookup hleased.found
  have hcalled := h.called.of_lookup hleased.found
  unfold AnalysisTables.retryOrFailRow
  split_ifs
  · exact h.moved hleased.found (hrow.retry_row code errorType retryAt now) hcalled rfl rfl rfl
      h.runs h.inferenceCalls rfl (all_checks_rescheduleWakeup h.wakeups retryAt)
  · exact h.moved hleased.found (hrow.fail_row code errorType retryable now) hcalled rfl rfl rfl
      h.runs h.inferenceCalls rfl (all_checks_setWakeupTerminal h.wakeups now)

theorem retryOrFailTargets (h : t.Checked) (targetId : ℕ) (code errorType : String)
    (retryable : Bool) (retryAt now : ℤ) :
    (t.retryOrFailTargets snapshot targetId code errorType retryable retryAt now).1.Checked := by
  unfold AnalysisTables.retryOrFailTargets
  cases hlock : t.lockSnapshotTargets snapshot now (some [targetId]) with
  | none => exact h
  | some row => exact h.retryOrFailRow (leased_of_lock hlock).1 _ _ _ _ _

theorem retryOrFailClaim (h : t.Checked) (claim : ClaimedAnalysisStageRun)
    (code errorType : String) (retryable : Bool) (retryAt now : ℤ) :
    (t.retryOrFailClaim claim code errorType retryable retryAt now).1.Checked := by
  unfold AnalysisTables.retryOrFailClaim
  split
  · exact h
  · exact h.retryOrFailRow (leased_of_filter ‹_›) _ _ _ _ _

theorem gated (h : t.Checked) (runId : ℕ) (run : AnalysisRunRecord)
    (causal : Dict ℕ NegativeGateAssignment) (now : ℤ) :
    (t.gated runId run causal now).Checked where
  runs := h.runs.set (.block_run run now)
  stageRuns := by
    dsimp only [AnalysisTables.gated]
    refine h.stageRuns.mapValues fun _ row _ hrow => ?_
    split_ifs
    · exact hrow.skip_row now
    · exact hrow
  called := by
    dsimp only [AnalysisTables.gated]
    refine h.called.mapValues fun _ row _ hrow => ?_
    split_ifs <;> exact hrow
  businessTargets := by
    dsimp only [AnalysisTables.gated]
    refine h.businessTargets.mapValues fun _ row => ?_
    split_ifs <;> rfl
  directTargets := by
    dsimp only [AnalysisTables.gated]
    refine h.directTargets.mapValues fun _ row => ?_
    split_ifs <;> rfl
  inferenceCalls := h.inferenceCalls
  assignments := h.assignments
  labels := h.labels
  wakeups := by
    dsimp only [AnalysisTables.gated]
    generalize t.stageRuns.filter (fun e => gateSkips runId causal e.2) = skipped
    have hwakeups := h.wakeups
    generalize t.wakeups = wakeups at hwakeups
    induction skipped generalizing wakeups with
    | nil => exact hwakeups
    | cons e skipped ih => exact ih _ (all_checks_setWakeupTerminal hwakeups now)

theorem applyNegativeGate (h : t.Checked) (analysisRunId : ℕ)
    (assignments : List NegativeGateAssignment) (now : ℤ) :
    (t.applyNegativeGate analysisRunId assignments now).1.Checked := by
  rcases effect_applyNegativeGate t analysisRunId assignments now with hgate | ⟨run, -, hgate⟩
  · rw [hgate]
    exact h
  · rw [hgate]
    exact h.gated analysisRunId run _ now

theorem completeAnalysisRun (h : t.Checked) (analysisRunId : ℕ) (now : ℤ) :
    (t.completeAnalysisRun analysisRunId now).1.Checked := by
  unfold AnalysisTables.completeAnalysisRun
  cases t.runs.lookup analysisRunId with
  | none => exact h
  | some run => exact { h with runs := h.runs.set (.complete_run run _ now) }

end Checked

/-! ## Commits -/

/-- The assignments of a commit. -/
theorem Checked.addAssignments (h : t.Checked) {rows : List ModelLabelAssignmentRecord}
    (hrows : ∀ a ∈ rows, a.Checks) {negative : List NegativeGateAssignment}
    (hadd : t.addAssignments rows = .ok (t', negative)) : t'.Checked := by
  have hok := hadd
  unfold AnalysisTables.addAssignments at hok
  split_ifs at hok with hclash
  obtain ⟨rfl, -⟩ := addAssignments_eq_ok hadd
  have hmap : (numbered t.nextId rows).map Prod.snd = rows := by
    rw [numbered, List.map_map]
    exact List.zipIdx_map_fst _ rows
  refine { h with assignments := ?_, labels := ?_ }
  · intro e he
    rcases List.mem_append.mp he with he | he
    · exact h.assignments e he
    · exact hrows e.2 (mem_numbered he)
  · refine List.pairwise_append.mpr ⟨h.labels, ?_, ?_⟩
    · have hpairwise : ((numbered t.nextId rows).map Prod.snd).Pairwise fun a b => ¬ a.Clash b :=
        hmap.symm ▸ hclash.1
      exact List.pairwise_map.mp hpairwise
    · intro e he e' he' hbad
      exact hclash.2 e'.2 (mem_numbered he') e he ⟨hbad.1.symm, hbad.2.symm⟩

/-- The labels of the assignments of a stage run. -/
theorem Checked.validated (h : t.Checked) (id : ℕ) :
    Validated ((t.assignmentsOf id).map (·.label)) := by
  have hof : ∀ a ∈ t.assignmentsOf id, ∃ e ∈ t.assignments, e.2 = a ∧ a.stageRunId = id := by
    intro a ha
    obtain ⟨e, he, rfl⟩ := List.mem_map.mp ha
    obtain ⟨he, hid⟩ := List.mem_filter.mp he
    exact ⟨e, he, rfl, of_decide_eq_true hid⟩
  have hchecks : ∀ label ∈ (t.assignmentsOf id).map (·.label),
      ∃ a : ModelLabelAssignmentRecord, a.Checks ∧ a.label = label := by
    intro label hlabel
    obtain ⟨a, ha, rfl⟩ := List.mem_map.mp hlabel
    obtain ⟨e, he, rfl, -⟩ := hof a ha
    exact ⟨e.2, h.assignments e he, rfl⟩
  refine ⟨fun label hlabel => ?_, fun label hlabel => ?_, ?_⟩
  · obtain ⟨a, ha, rfl⟩ := hchecks label hlabel
    exact ha.score
  · obtain ⟨a, ha, rfl⟩ := hchecks label hlabel
    exact ha.label_key_not_blank
  · have hpairwise : (t.assignmentsOf id).Pairwise fun a b => ¬ a.Clash b :=
      List.pairwise_map.mpr (h.labels.filter _)
    rw [List.map_map]
    refine List.pairwise_map.mpr (hpairwise.imp_of_mem fun ha hb hclash heq => hclash ⟨?_, heq⟩)
    obtain ⟨-, -, -, ha⟩ := hof _ ha
    obtain ⟨-, -, -, hb⟩ := hof _ hb
    rw [ha, hb]

/-- The assignments of a stage run that has none before. -/
theorem Checked.addAssignments_ok (h : t.Checked) {id : ℕ} {row : StageRunRecord}
    (hrow : row.Checks) (hnone : t.assignmentsOf id = []) {labels : List ResolvedLabel}
    (hlabels : Validated labels) : ∃ t' negative,
      t.addAssignments (labels.map (row.assign id)) = .ok (t', negative) ∧ t'.Checked := by
  have hclash : (labels.map (row.assign id)).Pairwise (fun a b => ¬ a.Clash b) ∧
      ∀ a ∈ labels.map (row.assign id), ∀ e ∈ t.assignments, ¬ a.Clash e.2 := by
    refine ⟨List.pairwise_map.mpr ((List.pairwise_map.mp hlabels.distinct).imp ?_), ?_⟩
    · exact fun hne hclash => hne hclash.2
    · intro a ha e he hclash
      obtain ⟨label, -, rfl⟩ := List.mem_map.mp ha
      have hmem : e.2 ∈ t.assignmentsOf id :=
        List.mem_map_of_mem (List.mem_filter.mpr ⟨he, decide_eq_true hclash.1.symm⟩)
      rw [hnone] at hmem
      cases hmem
  have hadd : t.addAssignments (labels.map (row.assign id)) = .ok (_, _) := if_pos hclash
  refine ⟨_, _, hadd, h.addAssignments (fun a ha => ?_) hadd⟩
  obtain ⟨label, hlabel, rfl⟩ := List.mem_map.mp ha
  exact ⟨hrow.target_identity, hlabels.score label hlabel, hlabels.key label hlabel⟩

/-- The commit of a provider's result succeeds, and keeps the constraints. -/
theorem Checked.commitValidatedTargets (h : t.Checked) (hassigned : t.Assigned)
    (snapshot : AnalysisStageSnapshot) (started : StartedInferenceCall)
    {result : Option ValidatedTargetResult}
    (hresult : ∀ r, result = some r → Validated r.labels) (now : ℤ) :
    ∃ t' committed,
      t.commitValidatedTargets snapshot started result now = .ok (t', committed) ∧ t'.Checked := by
  unfold AnalysisTables.commitValidatedTargets
  cases result with
  | none => exact ⟨t, {}, rfl, h⟩
  | some result =>
    dsimp only
    cases hlock : (t.lockSnapshotTargets snapshot now (some [result.targetId])).filter
      (·.inferenceCallId = some started.inferenceCallId) with
    | none => exact ⟨t, {}, rfl, h⟩
    | some row =>
      obtain ⟨hlock, hcall⟩ := Option.filter_eq_some_iff.mp hlock
      have hleased := (leased_of_lock hlock).1
      have hrow := h.stageRuns.of_lookup hleased.found
      have hmanifest : row.inputManifestId.isSome :=
        h.called.of_lookup hleased.found (by rw [of_decide_eq_true hcall]; rfl)
      have hmoved : ({ t with
          stageRuns := t.stageRuns.set snapshot.target.stageRunId (row.succeed result now)
          wakeups := setWakeupTerminal t.wakeups analysisQueue snapshot.target.stageRunId now } :
            AnalysisTables).Checked :=
        h.moved hleased.found (hrow.succeed_row hmanifest result now) (fun _ => hmanifest) rfl rfl
          rfl h.runs h.inferenceCalls rfl (all_checks_setWakeupTerminal h.wakeups now)
      have hlabels : Validated (if snapshot.claim.runMode = .test then [] else result.labels) := by
        split_ifs
        · exact .nil
        · exact hresult result rfl
      have hassignments : (if snapshot.claim.runMode = .test then []
          else result.labels.map (row.assign snapshot.target.stageRunId)) =
            (if snapshot.claim.runMode = .test then [] else result.labels).map
              (row.assign snapshot.target.stageRunId) := by
        split_ifs <;> rfl
      obtain ⟨t', negative, hadd, hchecked⟩ := hmoved.addAssignments_ok hrow
        (hassigned.assignmentsOf hleased.found hleased.not_succeeded) hlabels
      refine ⟨t', ⟨[result.targetId], negative⟩, ?_, hchecked⟩
      dsimp only
      rw [hassignments, hadd]
      rfl

/-- So does the commit of a cached result. -/
theorem Checked.commitCacheHit (h : t.Checked) (hassigned : t.Assigned)
    (snapshot : AnalysisStageSnapshot) {cacheKey : StageCacheKey}
    (hkey : Inference.isHash cacheKey.value = true) (hit : AnalysisCacheHit) (now : ℤ) :
    ∃ t' committed,
      t.commitCacheHit snapshot cacheKey hit now = .ok (t', committed) ∧ t'.Checked := by
  unfold AnalysisTables.commitCacheHit
  cases hsource : (t.stageRuns.lookup hit.sourceStageRunId).filter
    (·.exactCacheSource cacheKey) with
  | none => exact ⟨t, {}, rfl, h⟩
  | some source =>
    dsimp only
    cases hlock : t.lockSnapshotTargets snapshot now none with
    | none => exact ⟨t, {}, rfl, h⟩
    | some row =>
      have hleased := (leased_of_lock hlock).1
      have hrow := h.stageRuns.of_lookup hleased.found
      dsimp only
      generalize hreused : row.reuse t.nextId (rewriteCachedTarget
        (source.parsedResult.getD hit.parsedResult) snapshot.target.targetId) cacheKey
          hit.sourceStageRunId now = reused
      have hmoved : ({ t with
          stageRuns := t.stageRuns.set snapshot.target.stageRunId reused
          wakeups := setWakeupTerminal t.wakeups analysisQueue snapshot.target.stageRunId now
          nextId := t.nextId + 1 } : AnalysisTables).Checked := by
        subst hreused
        exact h.moved hleased.found (hrow.reuse_row _ _ _ hkey now) (fun _ => rfl) rfl rfl rfl
          h.runs h.inferenceCalls rfl (all_checks_setWakeupTerminal h.wakeups now)
      have hlabels : Validated (if snapshot.claim.runMode = .test then []
          else (t.assignmentsOf hit.sourceStageRunId).map (·.label)) := by
        split_ifs
        · exact .nil
        · exact h.validated _
      have hcopies : (if snapshot.claim.runMode = .test then []
          else (t.assignmentsOf hit.sourceStageRunId).map
            (copyAssignment · snapshot.target.stageRunId row)) =
              (if snapshot.claim.runMode = .test then []
                else (t.assignmentsOf hit.sourceStageRunId).map (·.label)).map
                  (row.assign snapshot.target.stageRunId) := by
        split_ifs
        · rfl
        · rw [List.map_map]
          rfl
      obtain ⟨t', negative, hadd, hchecked⟩ := hmoved.addAssignments_ok hrow
        (hassigned.assignmentsOf hleased.found hleased.not_succeeded) hlabels
      refine ⟨t', ⟨[snapshot.target.targetId], negative⟩, ?_, hchecked⟩
      rw [hcopies, hadd]
      rfl

end AnalysisTables

/-! ## Workers -/

namespace AnalysisWorker

/-- What a preparation and an answer give: a cache key is a hash, and the labels of a valid
answer are those of a validated result. -/
def Action.Given : Action → Prop
  | .prepare _ (.prepared cacheKey) =>
    ∀ key, cacheKey = some key → Inference.isHash key.value = true
  | .answer _ (.valid labels) => Validated labels
  | _ => True

/-- The cache key of a work that has one. -/
def Work.cacheKey : Work → Option StageCacheKey
  | .findCacheHit _ cacheKey => some cacheKey
  | .commitCacheHit _ cacheKey _ => some cacheKey
  | .startInference _ cacheKey => cacheKey
  | _ => none

/-- The result of a work that has one. -/
def Work.result : Work → Option ValidatedTargetResult
  | .recordSuccess _ _ validation => validation.toOption
  | .commitTargets _ _ validation => validation.toOption
  | _ => none

/-- What a worker carries. -/
structure Work.Given (w : Work) : Prop where
  attempt : 0 < w.claim.attemptCount
  key : ∀ key, w.cacheKey = some key → Inference.isHash key.value = true
  result : ∀ result, w.result = some result → Validated result.labels

theorem given_of_claim {w : Work} (h : 0 < w.claim.attemptCount) (hkey : w.cacheKey = none)
    (hresult : w.result = none) : w.Given :=
  ⟨h, fun _ hsome => (by rw [hkey] at hsome; cases hsome),
    fun _ hsome => (by rw [hresult] at hsome; cases hsome)⟩

/-- The only work left is one that is given. -/
theorem given_left {w : Work} (h : w.Given) : ∀ w', some w = some w' → w'.Given :=
  fun _ hw' => Option.some.inj hw' ▸ h

theorem given_finish {snapshot : AnalysisStageSnapshot} (h : 0 < snapshot.claim.attemptCount)
    (committed : AnalysisCommitResult) : (finish snapshot committed).Given := by
  unfold finish
  split_ifs <;> exact given_of_claim h rfl rfl

theorem given_prepared {t : AnalysisTables} {claim : ClaimedAnalysisStageRun}
    (h : 0 < claim.attemptCount) {name : ℕ} {preparation : Preparation}
    (hgiven : (Action.prepare name preparation).Given) : (prepared t claim preparation).Given := by
  unfold prepared
  cases hload : t.loadStageSnapshot claim with
  | error => exact given_of_claim h rfl rfl
  | ok snapshot =>
    have hclaim : snapshot.claim = claim := by
      unfold AnalysisTables.loadStageSnapshot at hload
      split at hload
      · cases hload
      · rw [← Except.ok.inj hload]
    subst hclaim
    cases preparation with
    | inputError => exact given_of_claim h rfl rfl
    | domainError => exact given_of_claim h rfl rfl
    | otherError => exact given_of_claim h rfl rfl
    | prepared cacheKey =>
      cases cacheKey with
      | none => exact given_of_claim h rfl rfl
      | some key => exact ⟨h, hgiven, fun _ hr => by cases hr⟩

theorem given_answered {snapshot : AnalysisStageSnapshot} (h : 0 < snapshot.claim.attemptCount)
    (started : StartedInferenceCall) {name : ℕ} {invocation : Invocation}
    (hgiven : (Action.answer name invocation).Given) :
    (answered snapshot started invocation).Given := by
  cases invocation with
  | failed => exact given_of_claim h rfl rfl
  | valid labels =>
    refine ⟨h, fun _ hkey => (by cases hkey), ?_⟩
    rintro _ ⟨⟩
    exact hgiven
  | invalid => exact given_of_claim h rfl rfl

variable {t t' : AnalysisTables} {w : Work} {now : ℤ}

/-- One transaction of a worker. -/
theorem transact_checked (h : t.Checked) (hassigned : t.Assigned) (hw : w.Given)
    {left : Option Work} (htransact : transact t now w = some (t', left)) :
    t'.Checked ∧ ∀ w', left = some w' → w'.Given := by
  cases w with
  | prepare => cases htransact
  | invoke => cases htransact
  | failClaim claim failure =>
    obtain ⟨rfl, rfl⟩ := Prod.mk.inj (Option.some.inj htransact)
    exact ⟨h.retryOrFailClaim _ _ _ _ _ _, given_left (given_of_claim hw.attempt rfl rfl)⟩
  | findCacheHit snapshot cacheKey =>
    dsimp only [transact] at htransact
    split at htransact <;> obtain ⟨rfl, rfl⟩ := Prod.mk.inj (Option.some.inj htransact)
    · exact ⟨h, given_left ⟨hw.attempt, hw.key, fun _ hr => by cases hr⟩⟩
    · exact ⟨h, given_left ⟨hw.attempt, hw.key, fun _ hr => by cases hr⟩⟩
  | commitCacheHit snapshot cacheKey hit =>
    obtain ⟨t₁, committed, hcommit, hchecked⟩ :=
      h.commitCacheHit hassigned snapshot (hw.key cacheKey rfl) hit now
    simp only [transact, hcommit] at htransact
    obtain ⟨rfl, rfl⟩ := Prod.mk.inj (Option.some.inj htransact)
    exact ⟨hchecked, given_left (given_finish hw.attempt committed)⟩
  | startInference snapshot cacheKey =>
    obtain ⟨rfl, rfl⟩ := Prod.mk.inj (Option.some.inj htransact)
    refine ⟨h.startInference hw.attempt hw.key now, fun w' hw' => ?_⟩
    obtain ⟨started, -, rfl⟩ := Option.map_eq_some_iff.mp hw'
    exact given_of_claim hw.attempt rfl rfl
  | recordFailure snapshot started failure =>
    obtain ⟨rfl, rfl⟩ := Prod.mk.inj (Option.some.inj htransact)
    exact ⟨h.recordInferenceFailure _ _ _ _ _, given_left (given_of_claim hw.attempt rfl rfl)⟩
  | failTargets snapshot failure =>
    obtain ⟨rfl, rfl⟩ := Prod.mk.inj (Option.some.inj htransact)
    exact ⟨h.retryOrFailTargets _ _ _ _ _ _, given_left (given_of_claim hw.attempt rfl rfl)⟩
  | recordSuccess snapshot started validation =>
    obtain ⟨rfl, rfl⟩ := Prod.mk.inj (Option.some.inj htransact)
    exact ⟨h.recordInferenceSuccess _ _,
      given_left ⟨hw.attempt, fun _ hkey => (by cases hkey), hw.result⟩⟩
  | commitTargets snapshot started validation =>
    have hresult : ∀ r, validation.toOption = some r → Validated r.labels := hw.result
    obtain ⟨t₁, committed, hcommit, hchecked⟩ :=
      h.commitValidatedTargets hassigned snapshot started hresult now
    simp only [transact, hcommit] at htransact
    obtain ⟨rfl, rfl⟩ := Prod.mk.inj (Option.some.inj htransact)
    refine ⟨hchecked, given_left ?_⟩
    cases validation with
    | ok => exact given_finish hw.attempt committed
    | error => exact given_of_claim hw.attempt rfl rfl
  | applyGate snapshot assignments =>
    obtain ⟨rfl, rfl⟩ := Prod.mk.inj (Option.some.inj htransact)
    exact ⟨h.applyNegativeGate _ _ _, given_left (given_of_claim hw.attempt rfl rfl)⟩
  | completeRun claim ended =>
    obtain ⟨rfl, rfl⟩ := Prod.mk.inj (Option.some.inj htransact)
    exact ⟨h.completeAnalysisRun _ _, fun _ hw' => by cases hw'⟩

/-- The tables meet their constraints, and the workers carry what they were given. -/
structure Constrained (s : State) : Prop where
  inv : Inv s
  tables : s.tables.Checked
  workers : ∀ name p, s.workers.lookup name = some p → p.work.Given

variable {s s' : State}

theorem Constrained.leave (h : Constrained s) {tables : AnalysisTables} (htables : tables.Checked)
    (name : ℕ) (now : ℤ) {left : Option Work} (hleft : ∀ w, left = some w → w.Given)
    (hinv : Inv (s.leave tables name now left)) : Constrained (s.leave tables name now left) := by
  refine ⟨hinv, htables, fun name' p hp => ?_⟩
  cases left with
  | none => exact h.workers name' p (Dict.of_lookup_erase hp).2
  | some w =>
    rcases Dict.of_lookup_set hp with ⟨-, rfl⟩ | ⟨-, hold⟩
    · exact hleft w rfl
    · exact h.workers name' p hold

theorem Constrained.step {a : Action} (h : Constrained s) (hgiven : a.Given)
    (hstep : step s a = some s') : Constrained s' := by
  have hinv := h.inv.step hstep
  cases a with
  | process name stageRunId now leaseDuration =>
    dsimp only [AnalysisWorker.step] at hstep
    split_ifs at hstep
    obtain rfl := Option.some.inj hstep
    refine h.leave (h.tables.claim stageRunId now leaseDuration) name now (fun w hw => ?_) hinv
    obtain ⟨claim, hclaim, rfl⟩ := Option.map_eq_some_iff.mp hw
    refine given_of_claim ?_ rfl rfl
    rcases AnalysisTables.effect_claim s.tables stageRunId now leaseDuration with
      ⟨hnone, -⟩ | ⟨row, run, -, -, hsome, -⟩
    · rw [hnone] at hclaim
      cases hclaim
    · rw [hsome] at hclaim
      rw [Work.claim, ← Option.some.inj hclaim]
      exact Nat.succ_pos _
  | prepare name preparation =>
    dsimp only [AnalysisWorker.step] at hstep
    split at hstep
    · next now claim hlookup =>
      obtain rfl := Option.some.inj hstep
      refine h.leave h.tables name now ?_ hinv
      rintro _ ⟨⟩
      exact given_prepared (h.workers name _ hlookup).attempt hgiven
    · cases hstep
  | answer name invocation =>
    dsimp only [AnalysisWorker.step] at hstep
    split at hstep
    · next now snapshot started hlookup =>
      obtain rfl := Option.some.inj hstep
      refine h.leave h.tables name now ?_ hinv
      rintro _ ⟨⟩
      exact given_answered (h.workers name _ hlookup).attempt started hgiven
    · cases hstep
  | proceed name =>
    obtain ⟨⟨now, w⟩, hlookup, hstep⟩ := Option.bind_eq_some_iff.mp hstep
    obtain ⟨⟨tables, left⟩, htransact, rfl⟩ := Option.map_eq_some_iff.mp hstep
    obtain ⟨htables, hleft⟩ := transact_checked h.tables h.inv.tables.assigned
      (h.workers name _ hlookup) htransact
    exact h.leave htables name now hleft hinv
  | crash name =>
    obtain rfl := Option.some.inj hstep
    exact h.leave h.tables name 0 (fun _ hw' => by cases hw') hinv

end AnalysisWorker

end TgCurator
