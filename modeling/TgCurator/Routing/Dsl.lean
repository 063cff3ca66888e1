import Mathlib.Data.List.Infix
import TgCurator.Kleene
import TgCurator.Shared

/-!
# The routing condition language

`validate_condition` and `evaluate_condition` of `domain/routing/dsl.py`, on raw JSON.

A condition is a JSON object: a predicate with `fact` and `op`, or a single operator
(`all`, `any`, `not`, `label`, `any_media`, `none_media`, `label_score`,
`label_present`) with its payload. `validate` walks it with the exceptions the code
raises, the unintended ones included: looking an unhashable value up in a set raises
`TypeError`, and converting a huge integer raises `OverflowError`.

`evaluate` is the evaluator behind `evaluate_condition`. `none` is the code's
`_UNKNOWN`. Facts are the items of a dictionary, and `resolveFact` reads a dotted path
after trying the whole path as a key. The evaluator runs only on conditions that passed
`validate`; on any other shape the model raises where the code would raise or fall
through to unknown.
-/

namespace TgCurator

/-! ## Values -/

/-- The items of a facts mapping. -/
abbrev Facts := List (String × Json)

/-- `_MAX_DEPTH`. -/
def maxDepth : ℕ := 20

/-- The operator of a boolean, label or media node. -/
inductive Operator
  | all | any | not | label | anyMedia | noneMedia | labelScore | labelPresent
  deriving DecidableEq

/-- The operator a key names. -/
def Operator.ofString? : String → Option Operator
  | "all" => some .all
  | "any" => some .any
  | "not" => some .not
  | "label" => some .label
  | "any_media" => some .anyMedia
  | "none_media" => some .noneMedia
  | "label_score" => some .labelScore
  | "label_present" => some .labelPresent
  | _ => none

/-- The operator of a comparison. -/
inductive Comparison
  | eq | neq | gt | gte | lt | lte | isIn | contains | startsWith
  deriving DecidableEq

/-- The comparison an `op` names. -/
def Comparison.ofString? : String → Option Comparison
  | "eq" => some .eq
  | "neq" => some .neq
  | "gt" => some .gt
  | "gte" => some .gte
  | "lt" => some .lt
  | "lte" => some .lte
  | "in" => some .isIn
  | "contains" => some .contains
  | "starts_with" => some .startsWith
  | _ => none

/-- `_COMPARISON_OPERATORS`. -/
def comparisonOperators : List String :=
  ["eq", "neq", "gt", "gte", "lt", "lte", "in", "contains", "starts_with"]

/-- `_NUMERIC_COMPARISON_OPERATORS`. -/
def numericComparisonOperators : List String :=
  ["eq", "neq", "gt", "gte", "lt", "lte", "in"]

/-- The score comparisons of a label condition, with the comparison each stands for, in
the order the code looks for them. -/
def labelComparisons : List (String × Comparison) :=
  [("score_gt", .gt), ("score_gte", .gte), ("score_lt", .lt), ("score_lte", .lte),
    ("score_eq", .eq)]

/-- `_is_number`: the number, unless the value is something else or a boolean. -/
def number? : Json → Option Number
  | .num n => some n
  | _ => none

/-- The operand types `type(actual) is type(expected)` tells apart. -/
inductive PyType
  | noneType | bool | int | float | str | list | dict
  deriving DecidableEq

/-- `type(value)`. -/
def pyType : Json → PyType
  | .null => .noneType
  | .bool _ => .bool
  | .num n => if n.isInt then .int else .float
  | .str _ => .str
  | .arr _ => .list
  | .obj _ => .dict

mutual

/-- `_is_json_value`. -/
def isJsonValue : Json → Except PyError Bool
  | .null | .str _ | .bool _ => .ok true
  | .num (.int n) => if floatOverflows n then .error .overflowError else .ok true
  | .num n => .ok n.isFinite
  | .arr items => areJsonValues items
  | .obj entries => areJsonEntries entries

def areJsonValues : List Json → Except PyError Bool
  | [] => .ok true
  | j :: items => do
    if ← isJsonValue j then areJsonValues items else return false

def areJsonEntries : List (String × Json) → Except PyError Bool
  | [] => .ok true
  | (_, v) :: entries => do
    if ← isJsonValue v then areJsonEntries entries else return false

end

/-! ## Validation -/

/-- The first character of a path component: `[A-Za-z_]`. -/
def isFactStart (c : Char) : Bool :=
  ('A' ≤ c && c ≤ 'Z') || ('a' ≤ c && c ≤ 'z') || c == '_'

/-- A later character of a path component: `[A-Za-z0-9_]`. -/
def isFactChar (c : Char) : Bool :=
  isFactStart c || ('0' ≤ c && c ≤ '9')

/-- One component of a dotted path. -/
def isFactComponent : List Char → Bool
  | [] => false
  | c :: cs => isFactStart c && cs.all isFactChar

/-- `fact.split(".")`. -/
def splitDots (fact : String) : List String :=
  (fact.toList.splitOn '.').map String.ofList

/-- `_FACT_KEY_PATTERN.fullmatch`. -/
def matchesFactKeyPattern (fact : String) : Bool :=
  (fact.toList.splitOn '.').all isFactComponent

/-- `_validate_fact`. -/
def validateFact (allowedFactKeys : Option (List String)) (fact : Json) :
    Except PyError Unit :=
  match fact with
  | .str fact => do
    ensure (matchesFactKeyPattern fact) "fact must be a dotted identifier"
    match allowedFactKeys with
    | none => return
    | some allowed =>
      ensure (fact ∈ allowed) "fact is not allowed by the routing schema: %" [fact]
  | _ => ensure false "fact must be a dotted identifier"

/-- `value in strings` for a set of strings: hashing a list or a dictionary raises. -/
def inSet (value : Json) (strings : List String) : Except PyError Bool :=
  match value with
  | .str s => .ok (decide (s ∈ strings))
  | .arr _ | .obj _ => .error .typeError
  | _ => .ok false

/-- `_validate_comparison_payload`. -/
def validateComparisonPayload (allowedFactKeys : Option (List String)) (numericOnly : Bool)
    (payload : Json) : Except PyError Unit :=
  match payload with
  | .obj entries => do
    let op := getD entries "op"
    let value := getD entries "value"
    ensure (hasExactly entries ["fact", "op", "value"])
      "comparison requires exactly fact, op, and value"
    validateFact allowedFactKeys (getD entries "fact")
    let allowed ← inSet op (if numericOnly then numericComparisonOperators else comparisonOperators)
    ensure allowed "unsupported comparison operator"
    ensure (!numericOnly || (number? value).isSome)
      "label_score comparison value must be numeric"
    let jsonCompatible ← isJsonValue value
    ensure jsonCompatible "comparison value must be JSON-compatible"
    ensure (!isStr op "in" || pyType value = .list) "in comparison value must be a JSON array"
  | _ => ensure false "comparison requires exactly fact, op, and value"

/-- `_validate_leaf`. -/
def validateLeaf (allowedFactKeys : Option (List String)) (entries : List (String × Json)) :
    Except PyError Unit :=
  if isStr (getD entries "op") "exists" then do
    ensure (hasExactly entries ["fact", "op"]) "exists requires exactly fact and op"
    validateFact allowedFactKeys (getD entries "fact")
  else validateComparisonPayload allowedFactKeys false (.obj entries)

/-- The range check of a label threshold. -/
def validateLabelThreshold (threshold : Json) : Except PyError Unit :=
  match threshold with
  | .num n => ensureUnitInterval n "label score comparison must be in [0, 1]"
  | _ => ensure false "label score comparison must be in [0, 1]"

/-- The comparisons a label payload names. -/
def selectedNames (entries : List (String × Json)) : List String :=
  (labelComparisons.map Prod.fst).filter (· ∈ Dict.keys entries)

/-- `_validate_label_payload`. -/
def validateLabelPayload (mediaContext : Bool) (payload : Json) : Except PyError Unit :=
  match payload with
  | .obj entries => do
    let scope := getD entries "scope"
    ensure ((Dict.keys entries).all
        (· ∈ "namespace" :: "scope" :: "key" :: labelComparisons.map Prod.fst))
      "label condition contains unsupported fields"
    let known ← inSet (getD entries "namespace") ["model", "manual", "effective"]
    ensure known "label namespace must be model, manual, or effective"
    ensure (isNonblankStr (getD entries "key")) "label key must not be blank"
    ensure (pyType scope = .noneType || isStr scope (if mediaContext then "media" else "global"))
      "label scope is incompatible with its routing context"
    ensure (mediaContext || isStr scope "global")
      "global label conditions must specify scope=global"
    ensure (decide ((selectedNames entries).length ≤ 1))
      "label condition accepts at most one score comparison"
    match selectedNames entries with
    | [] => return
    | selected :: _ => validateLabelThreshold (getD entries selected)
  | _ => ensure false "label condition must be an object"

/-- The payload of a media quantifier. -/
def validateMediaPayload (operator : String) (payload : Json) : Except PyError Unit :=
  match payload with
  | .obj entries => do
    ensure (hasExactly entries ["label"]) "% requires exactly one label condition" [operator]
    validateLabelPayload true (getD entries "label")
  | _ => ensure false "% requires exactly one label condition" [operator]

/-- The default `minimum_score` of `label_present`. -/
def minimumScore (entries : List (String × Json)) : Json :=
  (entries.lookup "minimum_score").getD (.num (.float 0))

/-- The payload of `label_present`. -/
def validateLabelPresent (allowedFactKeys : Option (List String)) (payload : Json) :
    Except PyError Unit :=
  match payload with
  | .obj entries => do
    ensure ((Dict.keys entries).all (· ∈ ["fact", "minimum_score"]))
      "label_present only accepts fact and optional minimum_score"
    validateFact allowedFactKeys (getD entries "fact")
    ensure ((number? (minimumScore entries)).any inUnitInterval)
      "label_present minimum_score must be in [0, 1]"
  | _ => ensure false "label_present only accepts fact and optional minimum_score"

/-- A leaf predicate carries one of these keys. -/
def isLeaf (entries : List (String × Json)) : Bool :=
  "fact" ∈ Dict.keys entries || "op" ∈ Dict.keys entries

mutual

/-- `_validate`. -/
def validate (allowedFactKeys : Option (List String)) (depth : ℕ) (condition : Json) :
    Except PyError Unit := do
  ensure (depth ≤ maxDepth) "routing condition exceeds maximum nesting depth"
  match condition with
  | .obj entries =>
    if isLeaf entries then validateLeaf allowedFactKeys entries
    else match entries with
      | [(operator, payload)] =>
        match Operator.ofString? operator with
        | some .all | some .any =>
          match payload with
          | .arr (child :: children) =>
            validateChildren allowedFactKeys (depth + 1) (child :: children)
          | _ => ensure false "% requires a non-empty list" [operator]
        | some .not => validate allowedFactKeys (depth + 1) payload
        | some .label => validateLabelPayload false payload
        | some .anyMedia | some .noneMedia => validateMediaPayload operator payload
        | some .labelScore => validateComparisonPayload allowedFactKeys true payload
        | some .labelPresent => validateLabelPresent allowedFactKeys payload
        | none => ensure false "unsupported routing operator: %" [operator]
      | _ => ensure false "boolean routing condition must contain exactly one operator"
  | _ => ensure false "routing condition must be an object"

/-- The loop over the children of `all` and `any`. -/
def validateChildren (allowedFactKeys : Option (List String)) (depth : ℕ) :
    List Json → Except PyError Unit
  | [] => .ok ()
  | child :: children => do
    validate allowedFactKeys depth child
    validateChildren allowedFactKeys depth children

end

/-- `validate_condition`. -/
def validateCondition (condition : Json) (allowedFactKeys : Option (List String)) :
    Except PyError Unit :=
  validate allowedFactKeys 0 condition

/-! ## Evaluation -/

/-- Follow a path of keys through nested dictionaries. -/
def resolvePath (current : Json) : List String → Option Json
  | [] => some current
  | component :: path =>
    match current with
    | .obj entries => (entries.lookup component).bind fun next => resolvePath next path
    | _ => none

/-- `_resolve_fact`. -/
def resolveFact (facts : Facts) (fact : String) : Option Json :=
  match facts.lookup fact with
  | some value => some value
  | none => resolvePath (.obj facts) (splitDots fact)

/-- The four ordering comparisons on an ordered type, given by its `<` and `<=`. -/
def compareOrdered {α : Type*} (lt le : α → α → Bool) (actual expected : α) :
    Comparison → Bool
  | .gt => lt expected actual
  | .gte => le expected actual
  | .lt => lt actual expected
  | _ => le actual expected

/-- `_compare`. -/
def compareFact (actual : Option Json) (operator : Comparison) (expected : Json)
    (numericOnly : Bool) : Kleene :=
  match actual with
  | none | some .null => none
  | some actual =>
    if numericOnly && ((number? actual).isNone || (number? expected).isNone) then none
    else match operator with
      | .gt | .gte | .lt | .lte =>
        match actual, expected with
        | .num a, .num e => some (compareOrdered Number.lt Number.le a e operator)
        | .str a, .str e =>
          some (compareOrdered (fun x y => decide (x < y)) (fun x y => decide (x ≤ y)) a e operator)
        | _, _ => none
      | .eq => if pyType actual = pyType expected then some (actual.pyEq expected) else none
      | .neq => if pyType actual = pyType expected then some (!actual.pyEq expected) else none
      | .isIn =>
        match expected with
        | .arr items => some (items.any fun item => actual.pyEq item)
        | _ => none
      | .contains =>
        match actual, expected with
        | .str a, .str e => some (decide (e.toList <:+: a.toList))
        | .arr items, _ => some (items.any fun item => item.pyEq expected)
        | _, _ => none
      | .startsWith =>
        match actual, expected with
        | .str a, .str e => some (e.toList.isPrefixOf a.toList)
        | _, _ => none

/-- A string field of a validated payload. -/
def stringItem (payload : Json) (key : String) : Except PyError String := do
  match ← getItem payload key with
  | .str s => return s
  | _ => .error .typeError

/-- `_compare` on a fact, for an `op` given by name; an unknown name is unknown. -/
def compareNamed (actual : Option Json) (operator : String) (expected : Json)
    (numericOnly : Bool) : Kleene :=
  (Comparison.ofString? operator).bind fun c => compareFact actual c expected numericOnly

/-- `_evaluate_leaf`. -/
def evaluateLeaf (facts : Facts) (payload : Json) : Except PyError Kleene := do
  let fact ← stringItem payload "fact"
  let actual := resolveFact facts fact
  let operator ← stringItem payload "op"
  if operator = "exists" then
    return actual.map fun value => decide (pyType value ≠ .noneType)
  else
    let value ← getItem payload "value"
    return compareNamed actual operator value false

/-- The score comparison a label payload selects, if any, with its threshold. -/
def selectedComparison (entries : List (String × Json)) : Option (Comparison × Json) :=
  labelComparisons.findSome? fun c => (entries.lookup c.1).map fun threshold => (c.2, threshold)

/-- What a label condition makes of the label dictionary it found. -/
def evaluateLabelValue (entries : List (String × Json)) (value : Option Json) : Kleene :=
  match value with
  | some (.obj label) =>
    match selectedComparison entries with
    | none =>
      match label.lookup "activated" with
      | some (.bool activated) => some activated
      | _ => none
    | some (operator, threshold) => compareFact (label.lookup "score") operator threshold true
  | _ => none

/-- `_evaluate_label`. The code passes `None` for a message-level label, and so does a
media entry that is itself `None`. -/
def evaluateLabel (facts : Facts) (payload mediaEntry : Json) : Except PyError Kleene := do
  match payload with
  | .obj entries =>
    match mediaEntry with
    | .null =>
      let ns ← stringItem payload "namespace"
      let key ← stringItem payload "key"
      return evaluateLabelValue entries
        (resolveFact facts ("labels." ++ ns ++ ".global." ++ key))
    | .obj entry =>
      match entry.lookup "labels" with
      | some (.obj labels) =>
        let key ← stringItem payload "key"
        return evaluateLabelValue entries (labels.lookup key)
      | _ => return none
    | _ => return none
  | _ => .error .typeError

/-- The loop of a media quantifier over the entries. -/
def evaluateMedia (facts : Facts) (operator : Operator) (payload : Json) (sawUnknown : Bool) :
    List Json → Except PyError Kleene
  | [] => .ok (if sawUnknown then none else some (decide (operator = .noneMedia)))
  | entry :: media => do
    let result ← evaluateLabel facts payload entry
    if result = some true then
      return if operator = .noneMedia then some false else some true
    else evaluateMedia facts operator payload (sawUnknown || result.isNone) media

/-- The evaluation of `any_media` and `none_media`. -/
def evaluateQuantifier (facts : Facts) (operator : Operator) (payload : Json) :
    Except PyError Kleene := do
  let label ← getItem payload "label"
  let ns ← stringItem label "namespace"
  match resolveFact facts ("labels." ++ ns ++ ".media") with
  | some (.obj media) => evaluateMedia facts operator label false (Dict.values media)
  | _ => return none

/-- The evaluation of `label_present`. -/
def evaluateLabelPresent (facts : Facts) (payload : Json) : Except PyError Kleene := do
  let value := resolveFact facts (← stringItem payload "fact")
  match payload with
  | .obj entries =>
    match value.bind number?, number? (minimumScore entries) with
    | some n, some threshold => return some (threshold.le n)
    | none, _ => return none
    | _, none => .error .typeError
  | _ => .error .typeError

mutual

/-- `_evaluate`. -/
def evaluate (facts : Facts) (condition : Json) : Except PyError Kleene :=
  match condition with
  | .obj entries =>
    if isLeaf entries then evaluateLeaf facts condition
    else match entries with
      | (operator, payload) :: _ =>
        match Operator.ofString? operator with
        | some .all =>
          match payload with
          | .arr children => evaluateAll facts false children
          | _ => .error .typeError
        | some .any =>
          match payload with
          | .arr children => evaluateAny facts false children
          | _ => .error .typeError
        | some .not => (evaluate facts payload).map Kleene.neg
        | some .label => evaluateLabel facts payload .null
        | some .anyMedia => evaluateQuantifier facts .anyMedia payload
        | some .noneMedia => evaluateQuantifier facts .noneMedia payload
        | some .labelScore => do
          let fact ← stringItem payload "fact"
          let operator ← stringItem payload "op"
          let value ← getItem payload "value"
          return compareNamed (resolveFact facts fact) operator value true
        | some .labelPresent => evaluateLabelPresent facts payload
        | none => .ok none
      | [] => .error .keyError
  | _ => .error .typeError

/-- The loop of `all`. -/
def evaluateAll (facts : Facts) (sawUnknown : Bool) : List Json → Except PyError Kleene
  | [] => .ok (if sawUnknown then none else some true)
  | child :: children => do
    let result ← evaluate facts child
    if result = some false then return some false
    else evaluateAll facts (sawUnknown || result.isNone) children

/-- The loop of `any`. -/
def evaluateAny (facts : Facts) (sawUnknown : Bool) : List Json → Except PyError Kleene
  | [] => .ok (if sawUnknown then none else some false)
  | child :: children => do
    let result ← evaluate facts child
    if result = some true then return some true
    else evaluateAny facts (sawUnknown || result.isNone) children

end

/-- `evaluate_condition`: a condition that is invalid or fails to evaluate never
matches. -/
def evaluateCondition (condition : Json) (facts : Facts) : Bool :=
  match validate none 0 condition with
  | .ok () => decide (evaluate facts condition = .ok (some true))
  | .error _ => false

end TgCurator
