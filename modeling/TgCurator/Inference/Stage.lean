import TgCurator.Analysis.Prompt
import TgCurator.Output.Schema

/-!
# Stages that call a model

`AnalysisStageTemplateVersion` of `domain/analysis/stages.py` with what a call is prepared from:
the prompt, the label set, the output and input policies, the inference profile and the cache
policy. The checks across the fields of the constructor are fields here.
-/

namespace TgCurator.Inference

open Output

/-! ## Input policies -/

/-- `StageInputPolicy`. -/
structure StageInputPolicy where
  text : Bool := false
  telegramMetadata : Bool := false
  media : Bool := false
  previousResults : Bool := false
  sourceChannelContext : Bool := false

/-- `available_prompt_variables`. -/
def StageInputPolicy.availablePromptVariables (policy : StageInputPolicy) : List String :=
  "label_definitions" :: (if policy.text then ["message_text"] else []) ++
    (if policy.media then ["asset_manifest"] else []) ++
    (if policy.previousResults then ["previous_results"] else []) ++
    (if policy.sourceChannelContext || policy.telegramMetadata then ["source_channel_context"]
    else [])

/-! ## Inference profiles -/

/-- `InferenceProfileVersion`. The sampling parameters are in canonical form, and the version id
is stripped. -/
structure InferenceProfileVersion where
  versionId : String
  inferenceProfileId : String
  versionNumber : ℕ
  providerAdapter : String
  baseUrl : String
  modelName : String
  apiSecretReference : String
  capabilities : List String
  timeoutSeconds : ℚ
  maxConcurrency : ℕ
  maxImages : ℕ
  maxInputTokens : ℕ
  structuredOutputSupport : Bool
  samplingParameters : List (String × Json)
  status : VersionStatus
  versionId_nonblank : isBlank versionId = false
  versionId_stripped : strip versionId = versionId

/-! ## Stages -/

/-- `CachePolicy`. -/
inductive CachePolicy
  | none | message | messageVisual | asset
  deriving DecidableEq

/-- The string of a policy. -/
def CachePolicy.value : CachePolicy → String
  | none => "none"
  | message => "message"
  | messageVisual => "message_visual"
  | asset => "asset"

/-- Whether a mode has messages as targets. -/
def isMessageMode : ExecutionMode → Bool
  | .batchMessages | .singleMessage => true
  | _ => false

/-- Whether a mode has several targets. -/
def isBatchMode (executionMode : ExecutionMode) : Bool :=
  (targetFieldForMode executionMode).isSome

/-- `AnalysisStageTemplateVersion`. -/
structure AnalysisStageTemplateVersion where
  versionId : String
  targetScope : LabelScope
  executionMode : ExecutionMode
  prompt : PromptTemplate
  labelSet : Output.LabelSetVersion
  structuredOutputPolicy : StructuredOutputPolicy
  inputPolicy : StageInputPolicy
  inferenceProfile : InferenceProfileVersion
  cachePolicy : CachePolicy
  timeoutSeconds : ℚ
  maxBatchSize : ℕ := 1
  versionId_nonblank : isBlank versionId = false
  scope_mode : targetScope = .global ↔ isMessageMode executionMode = true
  batch_size : isBatchMode executionMode = false → maxBatchSize = 1
  cache_asset : cachePolicy = .asset → targetScope = .media
  cache_message : cachePolicy = .message ∨ cachePolicy = .messageVisual → targetScope = .global
  prompt_available : prompt.declaredVariables ⊆ inputPolicy.availablePromptVariables
  media_vision : inputPolicy.media = true → "vision" ∈ inferenceProfile.capabilities

end TgCurator.Inference
