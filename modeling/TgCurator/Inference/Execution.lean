import TgCurator.Inference.CacheKey
import TgCurator.Inference.Provider
import TgCurator.Output.Agreement

/-!
# Executions

`AnalysisOrchestrator` of `application/analysis/orchestrator.py`: `invoke`, `validate` and
`execute`, with `evaluate_stage_negative_gate` of `domain/analysis/facts.py`.

`execute_complete_iff`: an execution is complete exactly when the provider posts a request and its
answer satisfies the schema in the body of that request, with each target once and distinct
labels.
-/

namespace TgCurator.Inference

open Output JsonSchema

/-! ## The stage negative gate -/

/-- `NegativeGateMatch`. -/
structure NegativeGateMatch where
  targetId : String
  labelDefinitionVersionId : String
  labelKey : String
  scope : LabelScope
  score : Number

/-- `StageNegativeGateDecision`. -/
structure StageNegativeGateDecision where
  blocked : Bool
  found : List NegativeGateMatch

/-- `activated_negative_labels`. -/
def activatedNegativeLabels (result : Output.ValidatedTargetResult) : List Output.ResolvedLabel :=
  result.labels.filter fun label => label.activated && label.negative

/-- `evaluate_stage_negative_gate`. -/
def evaluateStageNegativeGate (results : List Output.ValidatedTargetResult) :
    StageNegativeGateDecision :=
  let found := results.flatMap fun result => (activatedNegativeLabels result).map fun label =>
    ⟨result.targetId, label.labelDefinitionVersionId, label.key, label.scope, label.score⟩
  ⟨!found.isEmpty, found⟩

/-! ## The orchestrator -/

/-- `AnalysisExecutionFailure`. -/
structure AnalysisExecutionFailure where
  code : AnalysisErrorCode
  errorType : String
  retryable : Bool
  rawResponse : Option (List (String × Json)) := none
  latencyMs : Option ℚ := none
  httpStatus : Option ℕ := none
  tokenUsage : Option (List (String × Json)) := none

/-- `AnalysisExecutionResult`. -/
structure AnalysisExecutionResult where
  validation : Option StructuredOutputValidation
  failure : Option AnalysisExecutionFailure
  response : Option InferenceResponse := none
  negativeGateHit : Bool := false

/-- `succeeded`. -/
def AnalysisExecutionResult.succeeded (result : AnalysisExecutionResult) : Bool :=
  result.failure.isNone && result.validation.isSome

/-- The `infer` of an inference provider. -/
abbrev InferenceProvider :=
  InferenceRequest → Except ProviderError InferenceResponse

/-- `invoke`: a response or a failure. -/
def invoke (provider : Option InferenceProvider) (prepared : PreparedAnalysisCall) :
    Except AnalysisExecutionFailure InferenceResponse :=
  match provider with
  | none => .error
      { code := .providerError, errorType := "InferenceProviderNotConfigured", retryable := true }
  | some infer =>
    match infer prepared.request with
    | .ok response => .ok response
    | .error (.failure failure) => .error {
        code := failure.code
        errorType := failure.errorType
        retryable := failure.retryable
        rawResponse := failure.rawResponse
        latencyMs := failure.latencyMs
        httpStatus := failure.httpStatus
        tokenUsage := failure.tokenUsage }
    | .error (.other errorType) => .error { code := .internalError, errorType, retryable := true }

/-- `validate`. -/
def validateResponse (stage : AnalysisStageTemplateVersion) (targets : List AnalysisTargetInput)
    (response : InferenceResponse) : Except PyError AnalysisExecutionResult := do
  let validation ← Output.validate (.obj response.payload) stage.executionMode
    stage.structuredOutputPolicy stage.labelSet (targets.map (·.targetId))
  return {
    validation := some validation
    failure := none
    response := some response
    negativeGateHit := (evaluateStageNegativeGate validation.validResults).blocked }

/-- `type(error).__name__`. -/
def typeName : PyError → String
  | .domainValidation _ _ => "DomainValidationError"
  | .typeError => "TypeError"
  | .keyError => "KeyError"
  | .overflowError => "OverflowError"
  | .integrityError => "IntegrityError"
  | .dataError => "DBAPIError"

/-- The code of `AnalysisInputError`. -/
def InputErrorCode.errorCode : InputErrorCode → AnalysisErrorCode
  | inputBuildError => .inputBuildError
  | mediaUnavailable => .mediaUnavailable

/-- The failure of `execute`, or of a worker, when a call is not prepared. -/
def preparationFailure : CallError → AnalysisExecutionFailure
  | .input code errorType => { code := code.errorCode, errorType, retryable := false }
  | .python (.domainValidation _ _) =>
    { code := .inputBuildError, errorType := "DomainValidationError", retryable := false }
  | .python e => { code := .internalError, errorType := typeName e, retryable := true }
  | .provider _ =>
    { code := .internalError, errorType := "InferenceProviderFailure", retryable := true }

/-- `execute`. -/
def execute (sha256 : String → String) (floatText : ℚ → String)
    (provider : Option InferenceProvider) (stage : AnalysisStageTemplateVersion)
    (targets : List AnalysisTargetInput) (context : List (String × Json)) (attempt : ℕ) :
    Except PyError AnalysisExecutionResult :=
  match prepare sha256 floatText stage targets context attempt with
  | .error e => .ok { validation := none, failure := some (preparationFailure e) }
  | .ok prepared =>
    match invoke provider prepared with
    | .error failure => .ok { validation := none, failure := some failure }
    | .ok response => validateResponse stage targets response

/-! ## Complete executions -/

/-- A complete payload has no integer too large for a float where a score is due. -/
theorem overflows_of_isComplete {payload : Json} {executionMode : ExecutionMode}
    {policy : StructuredOutputPolicy} {labelSet : Output.LabelSetVersion} {expected : List String}
    (h : Output.IsComplete payload executionMode policy labelSet expected) :
    overflows payload executionMode policy labelSet expected = false := by
  have hitem : ∀ {targetField : Option String} {item : List (String × Json)},
      itemOk targetField policy labelSet item = true →
        itemOverflows targetField policy labelSet item = false := by
    intro targetField item hok
    have hcases := item_cases item "" targetField policy labelSet
    rw [hok] at hcases
    generalize itemOverflows targetField policy labelSet item = overflow at hcases
    generalize validateResultItem item "" targetField policy labelSet = outcome at hcases
    cases hcases
    rfl
  unfold Output.IsComplete at h
  unfold overflows
  cases hmode : targetFieldForMode executionMode with
  | some targetField =>
    rw [hmode] at h
    obtain ⟨items, henvelope, hitems, -⟩ := h
    dsimp only
    rw [henvelope, List.any_eq_false]
    intro item hmem hraises
    obtain ⟨target, -, entries, rfl, -, hok⟩ := hitems item hmem
    unfold itemRaises at hraises
    cases hvalidated : validated? targetField expected items (.obj entries) with
    | none => simp [hvalidated] at hraises
    | some found =>
      obtain ⟨target', entries'⟩ := found
      obtain ⟨heq, -⟩ := validated?_eq_some hvalidated
      obtain rfl := Json.obj.inj heq
      simp [hvalidated, hitem hok] at hraises
  | none =>
    rw [hmode] at h
    obtain ⟨item, henvelope, hok⟩ := h
    dsimp only
    rw [henvelope]
    exact hitem hok

/-- The validator reports a complete result exactly when the targets are valid and the payload
is complete. -/
theorem validate_complete_iff {payload : Json} {executionMode : ExecutionMode}
    {policy : StructuredOutputPolicy} {labelSet : Output.LabelSetVersion} {expected : List String} :
    (∃ v, Output.validate payload executionMode policy labelSet expected = .ok v ∧
      v.complete = true) ↔
      ValidTargets executionMode expected ∧
        Output.IsComplete payload executionMode policy labelSet expected := by
  constructor
  · rintro ⟨v, hv, hcomplete⟩
    refine ⟨?_, (reported_of_ok hv).complete.mp hcomplete⟩
    rcases validTargets_or_failure hv with hvalid | ⟨rfl, -⟩
    · exact hvalid
    · cases hcomplete
  · rintro ⟨hvalid, hcomplete⟩
    have hcases := validate_cases hvalid payload policy labelSet
    rw [if_neg (by rw [overflows_of_isComplete hcomplete]; exact Bool.false_ne_true)] at hcases
    obtain ⟨v, hv, hreported⟩ := hcases
    exact ⟨v, hv, hreported.complete.mpr hcomplete⟩

theorem validateResponse_eq_ok {stage : AnalysisStageTemplateVersion}
    {targets : List AnalysisTargetInput} {response : InferenceResponse}
    {result : AnalysisExecutionResult} :
    validateResponse stage targets response = .ok result ↔
      ∃ v, Output.validate (.obj response.payload) stage.executionMode
          stage.structuredOutputPolicy stage.labelSet (targets.map (·.targetId)) = .ok v ∧
        result = {
          validation := some v
          failure := none
          response := some response
          negativeGateHit := (evaluateStageNegativeGate v.validResults).blocked } := by
  unfold validateResponse
  rw [bind_eq_ok]
  exact exists_congr fun v => and_congr_right fun _ =>
    ⟨fun h => (Except.ok.inj h).symm, fun h => h ▸ rfl⟩

theorem invoke_eq_ok {infer : InferenceProvider} {prepared : PreparedAnalysisCall}
    {response : InferenceResponse} :
    invoke (some infer) prepared = .ok response ↔ infer prepared.request = .ok response := by
  unfold invoke
  dsimp only
  split
  · next hinfer => rw [hinfer, Except.ok.injEq, Except.ok.injEq]
  · next hinfer => simp [hinfer]
  · next hinfer => simp [hinfer]

variable {sha256 : String → String} {floatText : ℚ → String}
  {stage : AnalysisStageTemplateVersion} {targets : List AnalysisTargetInput}
  {context : List (String × Json)} {attempt : ℕ}

/-- The targets of a prepared call are valid, and its schema is the document for them. -/
theorem schemaDocument_of_prepare (hstrip : ∀ target ∈ targets,
      strip target.targetId = target.targetId) {call : PreparedAnalysisCall}
    (h : prepare sha256 floatText stage targets context attempt = .ok call) :
    ValidTargets stage.executionMode (targets.map (·.targetId)) ∧
      schemaDocument stage.versionId stage.labelSet stage.executionMode
        stage.structuredOutputPolicy (targets.map (·.targetId)) =
          .ok call.request.responseSchema := by
  have hprepared := prepared_of_ok h
  rw [hprepared.responseSchema]
  exact (build_eq_ok_iff sha256 floatText stage.versionId_nonblank
    (by simpa using hstrip)).mp ⟨call.schema, hprepared.schema, rfl⟩

/-- An execution succeeds exactly when the call is prepared, the provider gives a response, and
the validator reports on it. -/
theorem execute_eq_validate_iff {infer : InferenceProvider} {v : StructuredOutputValidation} :
    (∃ result, execute sha256 floatText (some infer) stage targets context attempt = .ok result ∧
      result.succeeded = true ∧ result.validation = some v) ↔
      ∃ call response, prepare sha256 floatText stage targets context attempt = .ok call ∧
        infer call.request = .ok response ∧
          Output.validate (.obj response.payload) stage.executionMode stage.structuredOutputPolicy
            stage.labelSet (targets.map (·.targetId)) = .ok v := by
  unfold execute
  cases hprepare : prepare sha256 floatText stage targets context attempt with
  | error e => simp
  | ok call =>
    cases hinvoke : invoke (some infer) call with
    | error failure =>
      have hne : ∀ response, infer call.request ≠ .ok response := by
        intro response heq
        rw [invoke_eq_ok.mpr heq] at hinvoke
        cases hinvoke
      simp [hinvoke, hne]
    | ok response =>
      have hinfer := invoke_eq_ok.mp hinvoke
      simp only [hinvoke, Except.ok.injEq, exists_and_left, exists_eq_left', hinfer]
      constructor
      · rintro ⟨result, hresult, -, hv⟩
        obtain ⟨v', hvalidate, rfl⟩ := validateResponse_eq_ok.mp hresult
        exact Option.some.inj hv ▸ hvalidate
      · exact fun hvalidate => ⟨_, validateResponse_eq_ok.mpr ⟨v, hvalidate, rfl⟩, rfl, rfl⟩

/-- An execution is complete exactly when a request is prepared and posted, and the answer, a
completion with a status of success, has a payload that satisfies the schema in the posted body,
with each target once and no label twice within a result. -/
theorem execute_complete_iff (provider : OpenAICompatibleInferenceProvider)
    (hstrip : ∀ target ∈ targets, strip target.targetId = target.targetId) :
    (∃ result v, execute sha256 floatText (some provider.infer) stage targets context attempt =
        .ok result ∧ result.succeeded = true ∧ result.validation = some v ∧ v.complete = true) ↔
      ∃ call post statusCode raw latencyMs payload schema,
        prepare sha256 floatText stage targets context attempt = .ok call ∧
        provider.post call.request = .ok post ∧
        provider.transport post = (.response statusCode (.value (.obj raw)), latencyMs) ∧
        isSuccess statusCode = true ∧
        extractStructuredPayload provider.loads raw = .ok payload ∧
        requestedSchema post.body = some schema ∧ satisfies schema (.obj payload) = true ∧
        EachOnce (.obj payload) stage.executionMode (targets.map (·.targetId)) ∧
        DistinctLabels (.obj payload) stage.executionMode := by
  constructor
  · rintro ⟨result, v, hexecute, hsucceeded, hv, hcomplete⟩
    obtain ⟨call, response, hcall, hinfer, hvalidate⟩ :=
      execute_eq_validate_iff.mp ⟨result, hexecute, hsucceeded, hv⟩
    obtain ⟨post, statusCode, raw, latencyMs, hpost, htransport, hstatus, hextract⟩ :=
      OpenAICompatibleInferenceProvider.infer_eq_ok_iff.mp ⟨response, hinfer, rfl⟩
    obtain ⟨-, hdocument⟩ := schemaDocument_of_prepare hstrip hcall
    obtain ⟨-, hpayload⟩ := validate_complete_iff.mp ⟨v, hvalidate, hcomplete⟩
    exact ⟨call, post, statusCode, raw, latencyMs, response.payload, _, hcall, hpost, htransport,
      hstatus, hextract, OpenAICompatibleInferenceProvider.post_body hpost,
      (isComplete_iff hdocument).mp hpayload⟩
  · rintro ⟨call, post, statusCode, raw, latencyMs, payload, schema, hcall, hpost, htransport,
      hstatus, hextract, hschema, hsatisfies⟩
    obtain ⟨response, hinfer, rfl⟩ := OpenAICompatibleInferenceProvider.infer_eq_ok_iff.mpr
      ⟨post, statusCode, raw, latencyMs, hpost, htransport, hstatus, hextract⟩
    rw [OpenAICompatibleInferenceProvider.post_body hpost] at hschema
    obtain rfl := Option.some.inj hschema
    obtain ⟨hvalid, hdocument⟩ := schemaDocument_of_prepare hstrip hcall
    obtain ⟨v, hvalidate, hcomplete⟩ :=
      validate_complete_iff.mpr ⟨hvalid, (isComplete_iff hdocument).mpr hsatisfies⟩
    obtain ⟨result, hexecute, hsucceeded, hv⟩ :=
      execute_eq_validate_iff.mpr ⟨call, response, hcall, hinfer, hvalidate⟩
    exact ⟨result, v, hexecute, hsucceeded, hv, hcomplete⟩

/-! ## A photo -/

/-- A model that gives every photo the same score. -/
def photoProvider : OpenAICompatibleInferenceProvider where
  secretResolver _ := some "key"
  transport _ := (.response 200 (.value (.obj [("choices", .arr [.obj [("message",
    .obj [("content", .str "cat")])]])])), 12)
  loads _ := .value (.obj [("result", .obj [("scores", .obj [("cat", .num (.float (1 / 2)))])])])

/-- The answer about the photo is complete. -/
theorem execute_complete_iff_photo :
    ∃ result v, execute photoDigest photoFloats (some photoProvider.infer) photoStage
        [photoRows.input photoIds] [] 1 = .ok result ∧ result.succeeded = true ∧
      result.validation = some v ∧ v.complete = true := by
  have hstrip : ∀ target ∈ [photoRows.input photoIds], strip target.targetId = target.targetId :=
    List.forall_mem_singleton.mpr (by decide +kernel)
  obtain ⟨call, hcall⟩ := exists_prepare_photo
  obtain ⟨-, hdocument⟩ := schemaDocument_of_prepare hstrip hcall
  have hprofile := (prepared_of_ok hcall).profile
  obtain ⟨post, hpost⟩ : ∃ post, photoProvider.post call.request = .ok post := by
    obtain ⟨body, hbody⟩ : ∃ body, requestBody call.request = .ok body := by
      rw [requestBody, hprofile]
      exact ⟨_, rfl⟩
    have hkey : isBlank "key" = false := by decide +kernel
    unfold OpenAICompatibleInferenceProvider.post
    rw [hprofile, if_neg (by decide), if_neg (by decide)]
    dsimp only [photoProvider]
    rw [hkey, hbody]
    exact ⟨_, rfl⟩
  refine (execute_complete_iff photoProvider hstrip).mpr ⟨call, post, 200, _, 12, _, _, hcall,
    hpost, rfl, rfl, rfl, OpenAICompatibleInferenceProvider.post_body hpost, ?_, ?_, ?_⟩
  · rw [← Except.ok.inj hdocument]
    decide +kernel
  · exact fun _ htarget => by cases htarget
  · exact List.forall_mem_singleton.mpr (by decide +kernel)

end TgCurator.Inference
