import TgCurator.Inference.Calls
import TgCurator.JsonSchema

/-!
# The inference provider

`OpenAICompatibleInferenceProvider` of `infrastructure/inference/openai_compatible.py`: it
resolves the secret, posts the request body and reads the answer. What the secret resolver, the
HTTP client and the JSON reader do is arbitrary.

`infer_eq_ok_iff` says which answers give a response, and `permanent_of_infer` which failures are
not retried.
-/

namespace TgCurator.Inference

open Output JsonSchema

/-! ## Failures -/

/-- `AnalysisErrorCode`. -/
inductive AnalysisErrorCode
  | providerError | timeout | invalidStructuredOutput | missingTargetResult | inputBuildError
  | mediaUnavailable | internalError
  deriving DecidableEq

/-- The string of a code. -/
def AnalysisErrorCode.value : AnalysisErrorCode → String
  | providerError => "PROVIDER_ERROR"
  | timeout => "TIMEOUT"
  | invalidStructuredOutput => "INVALID_STRUCTURED_OUTPUT"
  | missingTargetResult => "MISSING_TARGET_RESULT"
  | inputBuildError => "INPUT_BUILD_ERROR"
  | mediaUnavailable => "MEDIA_UNAVAILABLE"
  | internalError => "INTERNAL_ERROR"

/-- `InferenceProviderFailure`. -/
structure InferenceProviderFailure where
  code : AnalysisErrorCode
  errorType : String
  retryable : Bool
  rawResponse : Option (List (String × Json)) := none
  latencyMs : Option ℚ := none
  httpStatus : Option ℕ := none
  tokenUsage : Option (List (String × Json)) := none

/-- The exceptions of `infer`. -/
inductive ProviderError
  | failure (failure : InferenceProviderFailure)
  /-- an exception of another type -/
  | other (errorType : String)

/-- `InferenceResponse`. -/
structure InferenceResponse where
  payload : List (String × Json)
  providerAdapter : String
  modelName : String
  rawResponse : List (String × Json)
  latencyMs : Option ℚ := none
  httpStatus : Option ℕ := none
  tokenUsage : Option (List (String × Json)) := none

/-! ## The world around the provider -/

/-- What reading a JSON text gives. -/
inductive Decoding
  | value (value : Json)
  | valueError
  /-- an exception that is no `ValueError` or `TypeError` -/
  | otherError (errorType : String)

/-- What the HTTP client posts. -/
structure Post where
  endpoint : String
  headers : List (String × String)
  timeoutSeconds : ℚ
  body : Json

/-- How a post ends. -/
inductive Reply
  /-- `httpx.TimeoutException` -/
  | timeout (errorType : String)
  /-- `httpx.RequestError` -/
  | requestError (errorType : String)
  | otherError (errorType : String)
  | response (statusCode : ℕ) (json : Decoding)

/-- `OpenAICompatibleInferenceProvider`, with the secret resolver, which gives nothing where it
raises or gives no string, and the client, which tells how long a post took. -/
structure OpenAICompatibleInferenceProvider where
  secretResolver : String → Option String
  transport : Post → Reply × ℚ
  loads : String → Decoding
  userAgent : String := "tg-vlm-curator/0.1"

/-! ## Answers -/

/-- `_is_retryable_status`. -/
def isRetryableStatus (statusCode : ℕ) : Bool :=
  statusCode ∈ [408, 409, 425, 429] || 500 ≤ statusCode

/-- `not (response.status_code < 200 or response.status_code >= 300)`. -/
def isSuccess (statusCode : ℕ) : Bool :=
  200 ≤ statusCode && statusCode < 300

/-- A failure before a request is sent. -/
def refused (errorType : String) : ProviderError :=
  .failure { code := .providerError, errorType, retryable := false }

/-- A failure of `_extract_structured_payload`. -/
def malformed (errorType : String) : ProviderError :=
  .failure { code := .invalidStructuredOutput, errorType, retryable := true }

/-- `_extract_structured_payload`. -/
def extractStructuredPayload (loads : String → Decoding) (raw : List (String × Json)) :
    Except ProviderError (List (String × Json)) :=
  match getD raw "choices" with
  | .arr (.obj choice :: _) =>
    match getD choice "message" with
    | .obj message =>
      match getD message "content" with
      | .obj content => .ok content
      | .str content =>
        match loads content with
        | .value (.obj payload) => .ok payload
        | .value _ => .error (malformed "ProviderContentNotObject")
        | .valueError => .error (malformed "ProviderContentNotJson")
        | .otherError errorType => .error (.other errorType)
      | _ => .error (malformed "ProviderContentInvalid")
    | _ => .error (malformed "ProviderMessageMissing")
  | _ => .error (malformed "ProviderChoicesMissing")

/-- `ProviderHTTP{status_code}`. -/
def httpErrorType (statusCode : ℕ) : String :=
  "ProviderHTTP" ++ toString statusCode

/-- `dict(value) if isinstance(value, Mapping) else None`. -/
def mapping? : Json → Option (List (String × Json))
  | .obj entries => some entries
  | _ => none

/-- `usage` of `infer`, if it is a mapping. -/
def tokenUsage (decoded : Json) : Option (List (String × Json)) :=
  (mapping? decoded).bind fun entries => mapping? (getD entries "usage")

/-- `except InferenceProviderFailure as error: raise InferenceProviderFailure(…)`: the failure of
the payload, with the audit of the response. -/
def withAudit (raw : List (String × Json)) (latencyMs : ℚ) (statusCode : ℕ)
    (tokenUsage : Option (List (String × Json))) : ProviderError → ProviderError
  | .failure failure => .failure { failure with
      rawResponse := some raw
      latencyMs := some latencyMs
      httpStatus := some statusCode
      tokenUsage }
  | .other errorType => .other errorType

namespace OpenAICompatibleInferenceProvider

variable (provider : OpenAICompatibleInferenceProvider)

/-- `infer` up to the post. -/
def post (request : InferenceRequest) : Except ProviderError Post :=
  if request.profile.providerAdapter ≠ "openai_compatible" then
    .error (refused "UnsupportedProviderAdapter")
  else if !request.profile.structuredOutputSupport then
    .error (refused "StructuredOutputNotSupported")
  else
    match provider.secretResolver request.profile.apiSecretReference with
    | none => .error (refused "InferenceSecretUnavailable")
    | some secret =>
      if isBlank secret then .error (refused "InferenceSecretUnavailable")
      else
        match requestBody request with
        | .error (.provider errorType) => .error (refused errorType)
        | .error (.input _ _) => .error (.other "AnalysisInputError")
        | .error (.python _) => .error (.other "Exception")
        | .ok body => .ok {
            endpoint := request.profile.baseUrl ++ "/chat/completions"
            headers := [("Authorization", "Bearer " ++ secret),
              ("Content-Type", "application/json"), ("User-Agent", provider.userAgent)]
            timeoutSeconds := request.timeoutSeconds
            body }

/-- `infer` from the decoded answer on. -/
def readDecoded (request : InferenceRequest) (statusCode : ℕ) (decoded : Json) (latencyMs : ℚ) :
    Except ProviderError InferenceResponse :=
  if !isSuccess statusCode then
    .error (.failure {
      code := .providerError
      errorType := httpErrorType statusCode
      retryable := isRetryableStatus statusCode
      rawResponse := mapping? decoded
      latencyMs := some latencyMs
      httpStatus := some statusCode
      tokenUsage := tokenUsage decoded })
  else
    match mapping? decoded with
    | none => .error (.failure {
        code := .invalidStructuredOutput
        errorType := "ProviderResponseNotObject"
        retryable := true
        latencyMs := some latencyMs
        httpStatus := some statusCode })
    | some raw =>
      match extractStructuredPayload provider.loads raw with
      | .error e => .error (withAudit raw latencyMs statusCode (tokenUsage decoded) e)
      | .ok payload => .ok {
          payload
          providerAdapter := request.profile.providerAdapter
          modelName := request.profile.modelName
          rawResponse := raw
          latencyMs := some latencyMs
          httpStatus := some statusCode
          tokenUsage := tokenUsage decoded }

/-- `infer` from the reply on. -/
def read (request : InferenceRequest) (latencyMs : ℚ) :
    Reply → Except ProviderError InferenceResponse
  | .timeout errorType => .error (.failure
      { code := .timeout, errorType, retryable := true, latencyMs := some latencyMs })
  | .requestError errorType => .error (.failure
      { code := .providerError, errorType, retryable := true, latencyMs := some latencyMs })
  | .otherError errorType => .error (.other errorType)
  | .response _ (.otherError errorType) => .error (.other errorType)
  | .response statusCode .valueError => .error (.failure {
      code := if isSuccess statusCode then .invalidStructuredOutput else .providerError
      errorType := if isSuccess statusCode then "ProviderResponseNotJson"
        else httpErrorType statusCode
      retryable := isRetryableStatus statusCode
      latencyMs := some latencyMs
      httpStatus := some statusCode })
  | .response statusCode (.value decoded) =>
    readDecoded provider request statusCode decoded latencyMs

/-- `infer`. -/
def infer (request : InferenceRequest) : Except ProviderError InferenceResponse :=
  match provider.post request with
  | .error e => .error e
  | .ok post => provider.read request (provider.transport post).2 (provider.transport post).1

end OpenAICompatibleInferenceProvider

/-- `UnavailableInferenceProvider.infer`. -/
def unavailableInfer (_ : InferenceRequest) : Except ProviderError InferenceResponse :=
  .error (.failure
    { code := .providerError, errorType := "InferenceProviderNotConfigured", retryable := true })

/-! ## Responses -/

/-- The schema that a request body asks for. -/
def requestedSchema (body : Json) : Option Json :=
  ((member? body "response_format").bind (member? · "json_schema")).bind (member? · "schema")

theorem requestedSchema_of_ok {request : InferenceRequest} {body : Json}
    (h : requestBody request = .ok body) : requestedSchema body = some request.responseSchema := by
  unfold requestBody at h
  split at h
  · cases h
  · rw [← Except.ok.inj h]
    rfl

namespace OpenAICompatibleInferenceProvider

variable {provider : OpenAICompatibleInferenceProvider} {request : InferenceRequest}

theorem post_body {post : Post} (h : provider.post request = .ok post) :
    requestedSchema post.body = some request.responseSchema := by
  unfold OpenAICompatibleInferenceProvider.post at h
  split_ifs at h
  split at h
  · cases h
  split_ifs at h
  split at h
  · cases h
  · cases h
  · cases h
  next body hbody =>
  rw [← Except.ok.inj h]
  exact requestedSchema_of_ok hbody

theorem mapping?_eq_some {decoded : Json} {entries : List (String × Json)} :
    mapping? decoded = some entries ↔ decoded = .obj entries := by
  cases decoded <;> simp [mapping?]

theorem readDecoded_eq_ok_iff {statusCode : ℕ} {decoded : Json} {latencyMs : ℚ}
    {payload : List (String × Json)} :
    (∃ response, provider.readDecoded request statusCode decoded latencyMs = .ok response ∧
      response.payload = payload) ↔
      isSuccess statusCode = true ∧ ∃ raw, decoded = .obj raw ∧
        extractStructuredPayload provider.loads raw = .ok payload := by
  unfold readDecoded
  cases isSuccess statusCode with
  | false => simp
  | true =>
    simp only [Bool.not_true, Bool.false_eq_true, if_false, true_and, ← mapping?_eq_some]
    cases mapping? decoded with
    | none => simp
    | some raw => cases hextract : extractStructuredPayload provider.loads raw <;> simp [hextract]

theorem read_eq_ok {latencyMs : ℚ} {reply : Reply} {response : InferenceResponse}
    (h : provider.read request latencyMs reply = .ok response) :
    ∃ statusCode decoded, reply = .response statusCode (.value decoded) ∧
      provider.readDecoded request statusCode decoded latencyMs = .ok response := by
  cases reply with
  | response statusCode json =>
    cases json with
    | value decoded => exact ⟨statusCode, decoded, rfl, h⟩
    | _ => cases h
  | _ => cases h

/-- A response has the payload of a JSON completion with a status of success, which answers the
posted request. -/
theorem infer_eq_ok_iff {payload : List (String × Json)} :
    (∃ response, provider.infer request = .ok response ∧ response.payload = payload) ↔
      ∃ post statusCode raw latencyMs, provider.post request = .ok post ∧
        provider.transport post = (.response statusCode (.value (.obj raw)), latencyMs) ∧
        isSuccess statusCode = true ∧
        extractStructuredPayload provider.loads raw = .ok payload := by
  unfold infer
  cases hpost : provider.post request with
  | error e => simp
  | ok post =>
    constructor
    · rintro ⟨response, hread, hpayload⟩
      obtain ⟨statusCode, decoded, hreply, hread⟩ := read_eq_ok hread
      obtain ⟨hsuccess, raw, rfl, hextract⟩ :=
        readDecoded_eq_ok_iff.mp ⟨response, hread, hpayload⟩
      exact ⟨post, statusCode, raw, _, rfl, Prod.ext hreply rfl, hsuccess, hextract⟩
    · rintro ⟨post', statusCode, raw, latencyMs, hpost', htransport, hsuccess, hextract⟩
      obtain rfl := Except.ok.inj hpost'
      dsimp only
      rw [htransport]
      exact readDecoded_eq_ok_iff.mpr ⟨hsuccess, raw, rfl, hextract⟩

end OpenAICompatibleInferenceProvider

/-! ## Failures that are not retried -/

/-- The failures of a call that are not retried. -/
inductive Permanent : AnalysisErrorCode → String → Prop
  /-- the input of the call cannot be built -/
  | input (errorType : String) : Permanent .inputBuildError errorType
  | media (errorType : String) : Permanent .mediaUnavailable errorType
  /-- the request is not sent -/
  | refused {errorType : String} (h : errorType ∈ ["UnsupportedProviderAdapter",
      "StructuredOutputNotSupported", "InferenceSecretUnavailable", "ReservedSamplingParameter"]) :
      Permanent .providerError errorType
  /-- the status is no success and not to be retried -/
  | http {statusCode : ℕ} (hfailure : isSuccess statusCode = false)
      (hstatus : isRetryableStatus statusCode = false) :
      Permanent .providerError (httpErrorType statusCode)
  /-- the answer is a success, but no JSON -/
  | notJson : Permanent .invalidStructuredOutput "ProviderResponseNotJson"

theorem requestBody_error {request : InferenceRequest} {e : CallError}
    (h : requestBody request = .error e) : e = .provider "ReservedSamplingParameter" := by
  unfold requestBody at h
  split at h
  · exact (Except.error.inj h).symm
  · cases h

theorem permanent_refused {errorType : String} {failure : InferenceProviderFailure}
    (h : refused errorType = .failure failure) (hmem : errorType ∈ ["UnsupportedProviderAdapter",
      "StructuredOutputNotSupported", "InferenceSecretUnavailable", "ReservedSamplingParameter"]) :
    Permanent failure.code failure.errorType := by
  rw [← ProviderError.failure.inj h]
  exact .refused hmem

/-- A payload that cannot be extracted is retried. -/
theorem retryable_of_extract {loads : String → Decoding} {raw : List (String × Json)}
    {failure : InferenceProviderFailure}
    (h : extractStructuredPayload loads raw = .error (.failure failure)) :
    failure.retryable = true := by
  have hmalformed : ∀ errorType, malformed errorType = .failure failure →
      failure.retryable = true :=
    fun _ heq => ProviderError.failure.inj heq ▸ rfl
  unfold extractStructuredPayload at h
  split at h
  · split at h
    · split at h
      · cases h
      · split at h
        · cases h
        · exact hmalformed _ (Except.error.inj h)
        · exact hmalformed _ (Except.error.inj h)
        · cases h
      · exact hmalformed _ (Except.error.inj h)
    · exact hmalformed _ (Except.error.inj h)
  · exact hmalformed _ (Except.error.inj h)

namespace OpenAICompatibleInferenceProvider

variable {provider : OpenAICompatibleInferenceProvider} {request : InferenceRequest}
  {failure : InferenceProviderFailure}

theorem permanent_of_post (h : provider.post request = .error (.failure failure)) :
    Permanent failure.code failure.errorType := by
  unfold OpenAICompatibleInferenceProvider.post at h
  split_ifs at h
  · exact permanent_refused (Except.error.inj h) (by simp)
  · exact permanent_refused (Except.error.inj h) (by simp)
  split at h
  · exact permanent_refused (Except.error.inj h) (by simp)
  split_ifs at h
  · exact permanent_refused (Except.error.inj h) (by simp)
  split at h
  · next errorType hbody =>
    obtain rfl := CallError.provider.inj (requestBody_error hbody)
    exact permanent_refused (Except.error.inj h) (by simp)
  · cases h
  · cases h
  · cases h

theorem permanent_of_read {latencyMs : ℚ} {reply : Reply}
    (h : provider.read request latencyMs reply = .error (.failure failure))
    (hretryable : failure.retryable = false) : Permanent failure.code failure.errorType := by
  cases reply with
  | timeout errorType =>
    rw [← ProviderError.failure.inj (Except.error.inj h)] at hretryable
    cases hretryable
  | requestError errorType =>
    rw [← ProviderError.failure.inj (Except.error.inj h)] at hretryable
    cases hretryable
  | otherError errorType => cases h
  | response statusCode json =>
    cases json with
    | otherError errorType => cases h
    | valueError =>
      obtain rfl := ProviderError.failure.inj (Except.error.inj h)
      dsimp only at hretryable ⊢
      cases hsuccess : isSuccess statusCode with
      | true => exact .notJson
      | false => exact .http hsuccess hretryable
    | value decoded =>
      change provider.readDecoded request statusCode decoded latencyMs = _ at h
      unfold readDecoded at h
      split_ifs at h with hsuccess
      · obtain rfl := ProviderError.failure.inj (Except.error.inj h)
        exact .http (by simpa using hsuccess) hretryable
      split at h
      · rw [← ProviderError.failure.inj (Except.error.inj h)] at hretryable
        cases hretryable
      split at h
      · next e hextract =>
        cases e with
        | other => cases h
        | failure failure' =>
          have hretry := retryable_of_extract hextract
          rw [← ProviderError.failure.inj (Except.error.inj h)] at hretryable
          rw [show failure'.retryable = false from hretryable] at hretry
          cases hretry
      · cases h

/-- A failure of the provider that is not retried is one of the listed. -/
theorem permanent_of_infer (h : provider.infer request = .error (.failure failure))
    (hretryable : failure.retryable = false) : Permanent failure.code failure.errorType := by
  unfold infer at h
  split at h
  · next e hpost =>
    obtain rfl := Except.error.inj h
    exact permanent_of_post hpost
  · exact permanent_of_read h hretryable

end OpenAICompatibleInferenceProvider

end TgCurator.Inference
