import TgCurator.Inference.Stage

/-!
# The input of a call

`AnalysisInputComposer` of `application/analysis/input_composer.py` and `InputManifest` of
`domain/analysis/manifest.py`: from the targets, the rendered prompt and the manifest, which
holds the inputs in canonical form.
-/

namespace TgCurator.Inference

open Output

/-! ## Errors -/

/-- The codes of `AnalysisInputError`. -/
inductive InputErrorCode
  | inputBuildError | mediaUnavailable
  deriving DecidableEq

/-- The exceptions of a call. -/
inductive CallError
  | python (e : PyError)
  /-- `AnalysisInputError`. -/
  | input (code : InputErrorCode) (errorType : String)
  /-- `InferenceProviderFailure`, before the request is sent. -/
  | provider (errorType : String)
  deriving DecidableEq

/-- A step that raises an exception of Python. -/
def lift {α : Type} : Except PyError α → Except CallError α
  | .ok a => .ok a
  | .error e => .error (.python e)

/-- `except DomainValidationError as error: raise AnalysisInputError(…)`. -/
def asInputError {α : Type} : Except PyError α → Except CallError α
  | .ok a => .ok a
  | .error (.domainValidation _ _) =>
    .error (.input .inputBuildError "DomainValidationError")
  | .error e => .error (.python e)

/-! ## Targets -/

/-- `AnalysisTargetInput`. -/
structure AnalysisTargetInput where
  targetId : String
  messageId : String
  assetId : Option String := none
  text : Option String := none
  telegramMetadata : Option (List (String × Json)) := none
  media : List (List (String × Json)) := []
  previousResults : Option (List (String × Json)) := none
  visualIdentity : Option String := none

/-- A string or null. -/
def optionalString : Option String → Json
  | some s => .str s
  | none => .null

/-- `_validate_targets`. -/
def validateTargetInputs (stage : AnalysisStageTemplateVersion)
    (targets : List AnalysisTargetInput) : Except CallError Unit := do
  lift <| ensure (!targets.isEmpty) "analysis targets must be a non-empty tuple"
  let targetIds := targets.map (·.targetId)
  lift <| ensure (targetIds.dedup.length = targetIds.length) "analysis target IDs must be unique"
  lift <| ensure (targets.length ≤ stage.maxBatchSize)
    "analysis target count exceeds stage max_batch_size"
  lift <| ensure (isBatchMode stage.executionMode || targets.length = 1)
    "non-batch analysis requires one target"
  if isMessageMode stage.executionMode then
    lift <| ensure (targets.all fun target => target.targetId = target.messageId)
      "message execution target_id must equal message_id"
  else
    lift <| ensure (targets.all fun target => target.assetId = some target.targetId)
      "asset execution target_id must equal asset_id"
  if stage.inputPolicy.media && targets.any (·.media.isEmpty) then
    throw (.input .mediaUnavailable "RequiredMediaUnavailable")

/-! ## Prompt values -/

/-- `prompt_definitions`. -/
def promptDefinitions (labelSet : Output.LabelSetVersion) : Json :=
  .arr (labelSet.orderedBindings.map fun binding => .obj [
    ("key", .str binding.label.key),
    ("display_name", .str binding.label.displayName),
    ("description", .str binding.label.description),
    ("scope", .str binding.label.scope.value),
    ("negative", .bool binding.label.negative),
    ("prompt_hint", .str binding.promptHint)])

/-- `_message_text`. -/
def messageText (executionMode : ExecutionMode) (targets : List AnalysisTargetInput) : Json :=
  match executionMode, targets with
  | .singleMessage, target :: _ => .str (target.text.getD "")
  | _, _ => .arr (targets.map fun target => .obj [("message_id", .str target.messageId),
      ("text", .str (target.text.getD ""))])

/-- `_asset_manifest`. -/
def assetManifest (targets : List AnalysisTargetInput) : Json :=
  .arr (targets.map fun target => .obj [
    ("target_id", .str target.targetId),
    ("message_id", .str target.messageId),
    ("asset_id", optionalString target.assetId),
    ("media", .arr (target.media.map .obj))])

/-- The value of a prompt variable. -/
def promptValue (stage : AnalysisStageTemplateVersion) (targets : List AnalysisTargetInput)
    (context : List (String × Json)) : String → Json
  | "label_definitions" => promptDefinitions stage.labelSet
  | "message_text" => messageText stage.executionMode targets
  | "asset_manifest" => assetManifest targets
  | "previous_results" => .obj (Dict.ofList (targets.map fun target =>
      (target.targetId, .obj (target.previousResults.getD []))))
  | _ => .obj context

/-- `prompt_values`. -/
def promptValues (stage : AnalysisStageTemplateVersion) (targets : List AnalysisTargetInput)
    (context : List (String × Json)) : Dict String Json :=
  (["label_definitions", "message_text", "asset_manifest", "previous_results",
    "source_channel_context"].filter (· ∈ stage.prompt.declaredVariables)).map fun name =>
      (name, promptValue stage targets context name)

/-! ## Manifest inputs -/

/-- The item of a target in `_manifest_inputs`. -/
def manifestItem (policy : StageInputPolicy) (target : AnalysisTargetInput) : Json :=
  .obj ([("target_id", .str target.targetId), ("message_id", .str target.messageId),
      ("asset_id", optionalString target.assetId)] ++
    (if policy.text then [("text", .str (target.text.getD ""))] else []) ++
    (if policy.telegramMetadata then
      [("telegram_metadata", .obj (target.telegramMetadata.getD []))] else []) ++
    (if policy.media then [("media", .arr (target.media.map .obj))] else []) ++
    (if policy.previousResults then
      [("previous_results", .obj (target.previousResults.getD []))] else []))

/-- `_manifest_inputs`, with the rendered prompt. -/
def manifestInputs (stage : AnalysisStageTemplateVersion) (targets : List AnalysisTargetInput)
    (context : List (String × Json)) (rendered : RenderedPrompt) : List (String × Json) :=
  [("targets", .arr (targets.map (manifestItem stage.inputPolicy)))] ++
    (if stage.inputPolicy.sourceChannelContext then
      [("source_channel_context", .obj context)] else []) ++
    [("rendered_prompt", .obj [("system", .str rendered.systemPrompt),
      ("user", .str rendered.userPrompt)])]

/-! ## Manifests -/

/-- `_HASH_PATTERN.fullmatch`. -/
def isHash (value : String) : Bool :=
  value.toList.length = 64 &&
    value.toList.all fun c => ('0' ≤ c && c ≤ '9') || ('a' ≤ c && c ≤ 'f')

/-- `validate_hash`. -/
def validateHash (value field : String) : Except PyError Unit :=
  ensure (isHash value) "% must be a lowercase SHA-256 hex digest" [field]

/-- `InputManifest`: the content is the value of its canonical text. -/
structure InputManifest where
  manifestVersion : ℕ
  content : Json
  inputManifestHash : String

/-- `_validate_target_ids`. -/
def validateTargetIds (targetIds : List String) : Except PyError (List String) := do
  ensure (!targetIds.isEmpty) "manifest target_ids must be a non-empty tuple"
  let normalized ← targetIds.mapM fun targetId => validateNonBlank targetId "manifest target ID"
  ensure (normalized.dedup.length = normalized.length) "manifest target_ids must be unique"
  return normalized

/-- The content of a manifest. -/
def manifestContent (manifestVersion : ℕ) (targetScope : LabelScope)
    (executionMode : ExecutionMode) (targetIds : List String)
    (promptVersionId structuredOutputSchemaHash inferenceProfileVersionId : String)
    (inputs providerParameters : List (String × Json)) : Json :=
  .obj [("manifest_version", .num (.int manifestVersion)),
    ("target_scope", .str targetScope.value),
    ("execution_mode", .str executionMode.value),
    ("target_ids", .arr (targetIds.map .str)),
    ("prompt_version_id", .str promptVersionId),
    ("structured_output_schema_hash", .str structuredOutputSchemaHash),
    ("inference_profile_version_id", .str inferenceProfileVersionId),
    ("inputs", .obj inputs),
    ("provider_parameters", .obj providerParameters)]

variable (sha256 : String → String) (floatText : ℚ → String)

/-- `InputManifest.create`. -/
def InputManifest.create (manifestVersion : ℕ) (targetScope : LabelScope)
    (executionMode : ExecutionMode) (targetIds : List String)
    (promptVersionId structuredOutputSchemaHash inferenceProfileVersionId : String)
    (inputs providerParameters : List (String × Json)) : Except PyError InputManifest := do
  ensure (0 < manifestVersion) "% must be a positive integer" ["manifest version"]
  let targetIds ← validateTargetIds targetIds
  let promptVersionId ← validateNonBlank promptVersionId "prompt version_id"
  validateHash structuredOutputSchemaHash "structured output schema hash"
  let inferenceProfileVersionId ←
    validateNonBlank inferenceProfileVersionId "inference profile version_id"
  let inputs ← requireJsonObject (.obj inputs) "manifest inputs"
  let providerParameters ← requireJsonObject (.obj providerParameters) "provider parameters"
  let content := manifestContent manifestVersion targetScope executionMode targetIds
    promptVersionId structuredOutputSchemaHash inferenceProfileVersionId inputs providerParameters
  let inputManifestHash ← canonicalHash sha256 floatText content
  validateHash inputManifestHash "input manifest hash"
  return ⟨manifestVersion, content.canonical, inputManifestHash⟩

/-! ## Composition -/

/-- `_cache_scope_identity`. -/
def cacheScopeIdentity (policy : CachePolicy) (targets : List AnalysisTargetInput) :
    Except CallError (Option String) := do
  let join (identities : List String) : Except CallError (Option String) :=
    match identities with
    | [identity] => .ok (some identity)
    | _ => lift (some <$> canonicalHash sha256 floatText (.arr (identities.map .str)))
  match policy with
  | .none => return none
  | .message => join (targets.map (·.messageId))
  | .messageVisual =>
    if targets.any fun target => target.visualIdentity.all (· = "") then
      throw (.input .inputBuildError "MissingVisualCacheIdentity")
    else join (targets.filterMap (·.visualIdentity))
  | .asset =>
    if targets.any fun target => target.assetId.isNone then
      throw (.input .inputBuildError "MissingAssetCacheIdentity")
    else join (targets.filterMap (·.assetId))

/-- `ComposedAnalysisInput`. -/
structure ComposedAnalysisInput where
  renderedPrompt : RenderedPrompt
  inputManifest : InputManifest
  cacheScopeIdentity : Option String

/-- `MANIFEST_VERSION`. -/
def manifestVersion : ℕ :=
  1

/-- The rendered prompt and the manifest of `compose`. -/
def composeManifest (stage : AnalysisStageTemplateVersion) (targets : List AnalysisTargetInput)
    (schema : StructuredOutputSchema) (context : List (String × Json)) :
    Except PyError (RenderedPrompt × InputManifest) := do
  let rendered ← stage.prompt.render floatText (promptValues stage targets context)
  let manifest ← InputManifest.create sha256 floatText manifestVersion stage.targetScope
    stage.executionMode (targets.map (·.targetId)) stage.prompt.versionId schema.schemaHash
    stage.inferenceProfile.versionId (manifestInputs stage targets context rendered)
    stage.inferenceProfile.samplingParameters
  return (rendered, manifest)

/-- `compose`. -/
def compose (stage : AnalysisStageTemplateVersion) (targets : List AnalysisTargetInput)
    (schema : StructuredOutputSchema) (context : List (String × Json)) :
    Except CallError ComposedAnalysisInput := do
  validateTargetInputs stage targets
  let (rendered, manifest) ← asInputError (composeManifest sha256 floatText stage targets schema
    context)
  return ⟨rendered, manifest, ← cacheScopeIdentity sha256 floatText stage.cachePolicy targets⟩

end TgCurator.Inference
