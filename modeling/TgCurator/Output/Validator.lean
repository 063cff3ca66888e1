import TgCurator.Output.Labels

/-!
# The structured output validator

`StructuredOutputValidator` of `domain/analysis/result_validator.py`. The payload is any JSON
value. An item of a result is either valid or has an issue, and the `except` clause turns a
refused score into one; an exception of another kind escapes.
-/

namespace TgCurator.Output

/-! ## Modes -/

/-- `ExecutionMode`. -/
inductive ExecutionMode
  | batchMessages | singleMessage | perAsset | batchAssets
  deriving DecidableEq

/-- The string of a mode. -/
def ExecutionMode.value : ExecutionMode → String
  | batchMessages => "batch_messages"
  | singleMessage => "single_message"
  | perAsset => "per_asset"
  | batchAssets => "batch_assets"

/-- `StructuredOutputMode`. -/
inductive StructuredOutputMode
  | denseScores | sparseMatches
  deriving DecidableEq

/-- The string of a mode. -/
def StructuredOutputMode.value : StructuredOutputMode → String
  | denseScores => "dense_scores"
  | sparseMatches => "sparse_matches"

/-- `StructuredOutputPolicy`. -/
structure StructuredOutputPolicy where
  mode : StructuredOutputMode := .denseScores
  includeReason : Bool := false
  includeEvidence : Bool := false

/-- `target_field_for_mode`. The modes that have a field are the batch modes. -/
def targetFieldForMode : ExecutionMode → Option String
  | .batchMessages => some "message_id"
  | .batchAssets => some "asset_id"
  | _ => none

/-! ## Results -/

/-- The codes of validation issues among `AnalysisErrorCode`. -/
inductive IssueCode
  | invalidStructuredOutput | missingTargetResult
  deriving DecidableEq

/-- `ValidationIssue`. -/
structure ValidationIssue where
  code : IssueCode
  errorType : String
  targetId : Option String := none
  deriving DecidableEq

/-- `ValidatedTargetResult`. -/
structure ValidatedTargetResult where
  targetId : String
  labels : List ResolvedLabel
  reason : Option String
  evidence : List Json

/-- `StructuredOutputValidation`. -/
structure StructuredOutputValidation where
  validResults : List ValidatedTargetResult
  issues : List ValidationIssue
  retryTargetIds : List String

/-- `complete`. -/
def StructuredOutputValidation.complete (validation : StructuredOutputValidation) : Bool :=
  validation.issues.isEmpty && validation.retryTargetIds.isEmpty

/-- `_invalid`. -/
def invalid (targetId errorType : String) : ValidationIssue :=
  ⟨.invalidStructuredOutput, errorType, some targetId⟩

/-- `_whole_payload_failure`. -/
def wholePayloadFailure (expected : List String) (errorType : String) :
    StructuredOutputValidation :=
  ⟨[], [⟨.invalidStructuredOutput, errorType, none⟩], expected⟩

/-! ## One item -/

/-- The fields of a result item. -/
def expectedFields (targetField : Option String) (policy : StructuredOutputPolicy) : List String :=
  (if policy.mode = .denseScores then "scores" else "matches") :: targetField.toList ++
    (if policy.includeReason then ["reason"] else []) ++
    (if policy.includeEvidence then ["evidence"] else [])

/-- The scores of the dense form, or the type of an issue. -/
def denseScores (labelSet : LabelSetVersion) (scores : Json) :
    Except PyError (Except String (Dict String Number)) :=
  match scores with
  | .obj entries =>
    if hasExactly entries labelSet.labelKeys then do
      let normalized ← labelSet.labelKeys.mapM fun key => do
        return (key, ← validateScore (getD entries key) ("score for " ++ key))
      return .ok normalized
    else .ok (.error "dense_scores_incomplete_or_unknown")
  | _ => .ok (.error "dense_scores_incomplete_or_unknown")

/-- The loop over the matches of the sparse form, with the scores so far. -/
def sparseScores (labelSet : LabelSetVersion) :
    List Json → Dict String Number → Except PyError (Except String (Dict String Number))
  | [], normalized => .ok (.ok normalized)
  | .obj entries :: rest, normalized =>
    if hasExactly entries ["label_key", "score"] then
      match getD entries "label_key" with
      | .str key =>
        if key ∉ labelSet.labelKeys then .ok (.error "sparse_match_unknown_label")
        else if key ∈ normalized.keys then .ok (.error "sparse_match_duplicate_label")
        else do
          let score ← validateScore (getD entries "score") ("score for " ++ key)
          sparseScores labelSet rest (normalized.set key score)
      | _ => .ok (.error "sparse_match_unknown_label")
    else .ok (.error "sparse_match_invalid")
  | _ :: _, _ => .ok (.error "sparse_match_invalid")

/-- The scores of an item. -/
def itemScores (policy : StructuredOutputPolicy) (labelSet : LabelSetVersion)
    (item : List (String × Json)) : Except PyError (Except String (Dict String Number)) :=
  match policy.mode with
  | .denseScores => denseScores labelSet (getD item "scores")
  | .sparseMatches =>
    match getD item "matches" with
    | .arr found => sparseScores labelSet found []
    | _ => .ok (.error "sparse_matches_not_array")

/-- `try: … except DomainValidationError: return None, _invalid(…)` around the scores. -/
def catchScores (scores : Except PyError (Except String (Dict String Number))) :
    Except PyError (Except String (Dict String Number)) :=
  match scores with
  | .error (.domainValidation _ _) => .ok (.error "label_score_invalid")
  | scores => scores

/-- Whether a value is a string. -/
def isString : Json → Bool
  | .str _ => true
  | _ => false

/-- Whether a value is an array of strings. -/
def isStringArray : Json → Bool
  | .arr items => items.all isString
  | _ => false

/-- `reason if isinstance(reason, str) else None`. -/
def stringOf? : Json → Option String
  | .str s => some s
  | _ => none

/-- `_validate_result_item`: the result, or the issue. -/
def validateResultItem (item : List (String × Json)) (targetId : String)
    (targetField : Option String) (policy : StructuredOutputPolicy) (labelSet : LabelSetVersion) :
    Except PyError (Except ValidationIssue ValidatedTargetResult) :=
  if hasExactly item (expectedFields targetField policy) then do
    match ← catchScores (itemScores policy labelSet item) with
    | .error errorType => return .error (invalid targetId errorType)
    | .ok normalizedScores =>
      let reason := getD item "reason"
      if policy.includeReason && !isString reason then
        return .error (invalid targetId "reason_invalid")
      else
        let evidence := (item.lookup "evidence").getD (.arr [])
        if policy.includeEvidence && !isStringArray evidence then
          return .error (invalid targetId "evidence_invalid")
        else
          let labels ← labelSet.resolveScores normalizedScores
          return .ok ⟨targetId, labels, stringOf? reason, match evidence with
            | .arr items => items
            | _ => []⟩
  else .ok (.error (invalid targetId "result_fields_invalid"))

/-! ## Payloads -/

/-- The target an item names. -/
def namedTarget (targetField : String) (item : Json) : Option String :=
  match item with
  | .obj entries => stringOf? (getD entries targetField)
  | _ => none

/-- The results by target and the issues of a loop over the items. -/
abbrev BatchState := Dict String ValidatedTargetResult × List ValidationIssue

/-- One turn of the loop of `_validate_batch`. -/
def batchTurn (targetField : String) (policy : StructuredOutputPolicy) (labelSet : LabelSetVersion)
    (expected : List String) (items : List Json) (state : BatchState) (item : Json) :
    Except PyError BatchState :=
  match item with
  | .obj entries =>
    match getD entries targetField with
    | .str target =>
      if isBlank target then
        .ok (state.1, state.2 ++ [⟨.invalidStructuredOutput, "target_id_invalid", none⟩])
      else if target ∉ expected then
        .ok (state.1, state.2 ++ [invalid target "unknown_target_result"])
      else if 1 < (items.filterMap (namedTarget targetField)).count target then
        if state.2.any fun issue =>
            issue.errorType = "duplicate_target_result" ∧ issue.targetId = some target then
          .ok state
        else .ok (state.1, state.2 ++ [invalid target "duplicate_target_result"])
      else do
        match ← validateResultItem entries target targetField policy labelSet with
        | .error issue => return (state.1, state.2 ++ [issue])
        | .ok result => return (state.1.set target result, state.2)
    | _ => .ok (state.1, state.2 ++ [⟨.invalidStructuredOutput, "target_id_invalid", none⟩])
  | _ => .ok (state.1, state.2 ++ [⟨.invalidStructuredOutput, "batch_result_not_object", none⟩])

/-- `_validate_batch`, on the items. -/
def validateItems (targetField : String) (policy : StructuredOutputPolicy)
    (labelSet : LabelSetVersion) (expected : List String) (items : List Json) :
    Except PyError StructuredOutputValidation := do
  let (validByTarget, issues) ← items.foldlM
    (batchTurn targetField policy labelSet expected items) ([], [])
  let missing := expected.filter (· ∉ items.filterMap (namedTarget targetField))
  return {
    validResults := expected.filterMap fun target => validByTarget.lookup target
    issues := issues ++ missing.map fun target =>
      ⟨.missingTargetResult, "missing_target_result", some target⟩
    retryTargetIds := expected.filter (· ∉ validByTarget.keys) }

/-- The only member of an object, if it has that name. -/
def onlyMember (payload : Json) (name : String) : Option Json :=
  match payload with
  | .obj entries => if hasExactly entries [name] then entries.lookup name else none
  | _ => none

/-- `_validate_expected_targets`. -/
def validateExpectedTargets (expected : List String) : Except PyError Unit := do
  ensure (!expected.isEmpty) "expected target IDs must be a non-empty tuple"
  ensure (expected.all (!isBlank ·)) "expected target IDs must be non-blank strings"
  ensure (expected.dedup.length = expected.length) "expected target IDs must be unique"

/-- `validate`. -/
def validate (payload : Json) (executionMode : ExecutionMode) (policy : StructuredOutputPolicy)
    (labelSet : LabelSetVersion) (expected : List String) :
    Except PyError StructuredOutputValidation := do
  validateExpectedTargets expected
  match payload with
  | .obj _ =>
    match targetFieldForMode executionMode with
    | some targetField =>
      match onlyMember payload "results" with
      | some (.arr items) => validateItems targetField policy labelSet expected items
      | _ => return wholePayloadFailure expected "batch_envelope_invalid"
    | none =>
      match expected with
      | [target] =>
        match onlyMember payload "result" with
        | some (.obj item) =>
          match ← validateResultItem item target none policy labelSet with
          | .error issue => return ⟨[], [issue], expected⟩
          | .ok result => return ⟨[result], [], []⟩
        | _ => return wholePayloadFailure expected "single_envelope_invalid"
      | _ => .error (.domainValidation "non-batch validation requires exactly one target" [])
  | _ => return wholePayloadFailure expected "response_not_object"

end TgCurator.Output
