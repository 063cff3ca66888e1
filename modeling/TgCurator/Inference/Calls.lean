import TgCurator.Inference.Inputs

/-!
# Prepared calls

`AnalysisOrchestrator.prepare` of `application/analysis/orchestrator.py`, the cache key of
`domain/analysis/cache.py`, and the request body of
`infrastructure/inference/openai_compatible.py`.
-/

namespace TgCurator.Inference

open Output

variable (sha256 : String → String) (floatText : ℚ → String)

/-! ## Cache keys -/

/-- `StageCacheKey`. -/
structure StageCacheKey where
  policy : CachePolicy
  scopeIdentity : String
  value : String
  deriving DecidableEq

/-- The payload of a cache key. -/
def cachePayload (policy : CachePolicy) (identity stageTemplateVersionId promptVersionId
    labelSetVersionId structuredOutputSchemaHash inferenceProfileVersionId
    inputManifestHash : String) : Json :=
  .obj [("cache_policy", .str policy.value),
    ("scope_identity", .str identity),
    ("stage_template_version_id", .str stageTemplateVersionId),
    ("prompt_version_id", .str promptVersionId),
    ("label_set_version_id", .str labelSetVersionId),
    ("structured_output_schema_hash", .str structuredOutputSchemaHash),
    ("inference_profile_version_id", .str inferenceProfileVersionId),
    ("input_manifest_hash", .str inputManifestHash)]

/-- `StageCacheKeyBuilder.build`. -/
def buildCacheKey (policy : CachePolicy) (scopeIdentity : Option String)
    (stageTemplateVersionId promptVersionId labelSetVersionId structuredOutputSchemaHash
      inferenceProfileVersionId inputManifestHash : String) :
    Except PyError (Option StageCacheKey) :=
  if policy = .none then .ok none
  else do
    let identity ← validateNonBlank (scopeIdentity.getD "") "cache scope identity"
    validateHash structuredOutputSchemaHash "structured output schema hash"
    validateHash inputManifestHash "input manifest hash"
    let stageTemplateVersionId ← validateNonBlank stageTemplateVersionId
      "stage template version_id"
    let promptVersionId ← validateNonBlank promptVersionId "prompt version_id"
    let labelSetVersionId ← validateNonBlank labelSetVersionId "label set version_id"
    let inferenceProfileVersionId ← validateNonBlank inferenceProfileVersionId
      "inference profile version_id"
    let value ← canonicalHash sha256 floatText (cachePayload policy identity
      stageTemplateVersionId promptVersionId labelSetVersionId structuredOutputSchemaHash
      inferenceProfileVersionId inputManifestHash)
    return some ⟨policy, identity, value⟩

/-! ## Requests -/

/-- `InferenceRequest`. -/
structure InferenceRequest where
  profile : InferenceProfileVersion
  systemPrompt : String
  userPrompt : String
  inputManifest : InputManifest
  responseSchema : Json
  timeoutSeconds : ℚ
  attempt : ℕ

/-- `PreparedAnalysisCall`. -/
structure PreparedAnalysisCall where
  schema : StructuredOutputSchema
  request : InferenceRequest
  cacheKey : Option StageCacheKey

/-- `prepare`. -/
def prepare (stage : AnalysisStageTemplateVersion) (targets : List AnalysisTargetInput)
    (context : List (String × Json)) (attempt : ℕ) : Except CallError PreparedAnalysisCall := do
  let schema ← lift (build sha256 floatText stage.versionId stage.labelSet stage.executionMode
    stage.structuredOutputPolicy (targets.map (·.targetId)))
  let composed ← compose sha256 floatText stage targets schema context
  let cacheKey ← lift (buildCacheKey sha256 floatText stage.cachePolicy
    composed.cacheScopeIdentity stage.versionId stage.prompt.versionId stage.labelSet.versionId
    schema.schemaHash stage.inferenceProfile.versionId composed.inputManifest.inputManifestHash)
  return {
    schema
    request := {
      profile := stage.inferenceProfile
      systemPrompt := composed.renderedPrompt.systemPrompt
      userPrompt := composed.renderedPrompt.userPrompt
      inputManifest := composed.inputManifest
      responseSchema := schema.document
      timeoutSeconds := min stage.timeoutSeconds stage.inferenceProfile.timeoutSeconds
      attempt }
    cacheKey }

/-! ## Request bodies -/

/-- `bool(value)`. -/
def truthy : Json → Bool
  | .null => false
  | .bool b => b
  | .num n => !n.eq (.int 0)
  | .str s => s ≠ ""
  | .arr items => !items.isEmpty
  | .obj entries => !entries.isEmpty

/-- `value` of a media item in `_image_urls`: `item.get("provider_url") or item.get("data_url")`,
if it is a string that is not blank. -/
def imageUrl? (item : Json) : Option String :=
  match item with
  | .obj entries =>
    let value := if truthy (getD entries "provider_url") then getD entries "provider_url"
      else getD entries "data_url"
    match value with
    | .str url => if isBlank url then none else some url
    | _ => none
  | _ => none

/-- The URLs of a target in `_image_urls`. -/
def targetUrls (target : Json) : List String :=
  match target with
  | .obj entries =>
    match getD entries "media" with
    | .arr media => media.filterMap imageUrl?
    | _ => []
  | _ => []

/-- `_image_urls`. -/
def imageUrls (manifest : Json) : List String :=
  match manifest with
  | .obj content =>
    match getD content "inputs" with
    | .obj inputs =>
      match getD inputs "targets" with
      | .arr targets => targets.flatMap targetUrls
      | _ => []
    | _ => []
  | _ => []

/-- An image part of the user content. -/
def imagePart (url : String) : Json :=
  .obj [("type", .str "image_url"), ("image_url", .obj [("url", .str url)])]

/-- `_user_content`. -/
def userContent (request : InferenceRequest) : Json :=
  match imageUrls request.inputManifest.content with
  | [] => .str request.userPrompt
  | urls => .arr (.obj [("type", .str "text"), ("text", .str request.userPrompt)] ::
      urls.map imagePart)

/-- `reserved`. -/
def reservedParameters : List String :=
  ["model", "messages", "response_format", "stream"]

/-- `_request_body`. -/
def requestBody (request : InferenceRequest) : Except CallError Json :=
  if request.profile.samplingParameters.any fun e => e.1 ∈ reservedParameters then
    .error (.provider "ReservedSamplingParameter")
  else
    let messages :=
      (if request.systemPrompt = "" then []
      else [.obj [("role", .str "system"), ("content", .str request.systemPrompt)]]) ++
      [.obj [("role", .str "user"), ("content", userContent request)]]
    .ok (.obj ([("model", .str request.profile.modelName),
      ("messages", .arr messages),
      ("response_format", .obj [("type", .str "json_schema"),
        ("json_schema", .obj [("name", .str "tgcurator_analysis"), ("strict", .bool true),
          ("schema", request.responseSchema)])]),
      ("stream", .bool false)] ++ request.profile.samplingParameters))

end TgCurator.Inference
