import Mathlib.Data.List.Dedup
import Mathlib.Data.List.Sort
import TgCurator.Analysis.Stages

/-!
# Label sets with thresholds

`domain/analysis/labels.py` as the structured output is checked against it: a label set with
the version ids, thresholds and negative flags of its labels, the keys in output order, and
`resolve_scores`.

A score is a finite float in `[0, 1]` (`validateScore`), and an integer is converted first,
which raises for one too large for a float.
-/

namespace TgCurator.Output

/-! ## Scores -/

/-- `validate_score`. -/
def validateScore (value : Json) (field : String) : Except PyError Number :=
  match value with
  | .num (.int n) =>
    if floatOverflows n then .error .overflowError
    else do
      ensure (inUnitInterval (.int n)) "% must be a finite number in [0, 1]" [field]
      return .float n
  | .num n => do
    ensure (inUnitInterval n) "% must be a finite number in [0, 1]" [field]
    return n
  | _ => .error (.domainValidation "% must be a finite number in [0, 1]" [field])

/-- Whether a value is a number in `[0, 1]`. -/
def isScore (value : Json) : Bool :=
  match value with
  | .num n => inUnitInterval n
  | _ => false

/-- The score a number in `[0, 1]` stands for. -/
def scoreOf (value : Json) : Number :=
  match value with
  | .num (.int n) => .float n
  | .num n => n
  | _ => .nan

/-- Whether a value is an integer too large for a float. -/
def isOverflowing (value : Json) : Bool :=
  match value with
  | .num (.int n) => floatOverflows n
  | _ => false

/-! ## Label sets -/

/-- `LabelDefinitionVersion`. -/
structure LabelDefinitionVersion where
  versionId : String
  key : String
  displayName : String
  description : String
  scope : LabelScope
  negative : Bool

/-- `LabelBinding`: the threshold is a score. -/
structure LabelBinding where
  label : LabelDefinitionVersion
  activationThreshold : Number
  outputOrder : ℕ
  promptHint : String
  threshold_score : inUnitInterval activationThreshold = true

/-- `LabelSetVersion`, with the checks of its constructor. -/
structure LabelSetVersion where
  versionId : String
  bindings : List LabelBinding
  nonempty : bindings ≠ []
  versionIds_nodup : (bindings.map fun binding => binding.label.versionId).Nodup
  keys_nodup : (bindings.map fun binding => binding.label.key).Nodup
  orders_nodup : (bindings.map fun binding => binding.outputOrder).Nodup

/-- `ResolvedLabel`. -/
structure ResolvedLabel where
  labelDefinitionVersionId : String
  key : String
  scope : LabelScope
  score : Number
  activated : Bool
  negative : Bool
  deriving DecidableEq

namespace LabelSetVersion

/-- The sort key `(output_order, key)` of a binding. -/
abbrev OrderedLE (a b : LabelBinding) : Prop :=
  a.outputOrder < b.outputOrder ∨ (a.outputOrder = b.outputOrder ∧ a.label.key ≤ b.label.key)

/-- `ordered_bindings`. -/
def orderedBindings (labelSet : LabelSetVersion) : List LabelBinding :=
  labelSet.bindings.insertionSort OrderedLE

/-- `label_keys`. -/
def labelKeys (labelSet : LabelSetVersion) : List String :=
  labelSet.orderedBindings.map fun binding => binding.label.key

/-- `{binding.label.key: binding for binding in self.bindings}`. -/
def bindingByKey (labelSet : LabelSetVersion) : Dict String LabelBinding :=
  Dict.ofList (labelSet.bindings.map fun binding => (binding.label.key, binding))

/-- One turn of the loop of `resolve_scores`, for a key that has a score. -/
def resolveScore (labelSet : LabelSetVersion) (key : String) (score : Number) :
    Except PyError ResolvedLabel :=
  match labelSet.bindingByKey.lookup key with
  | none => .error .keyError
  | some binding => do
    let score ← validateScore (.num score) ("score for " ++ key)
    return { labelDefinitionVersionId := binding.label.versionId, key,
             scope := binding.label.scope, score,
             activated := binding.activationThreshold.le score,
             negative := binding.label.negative }

/-- `resolve_scores`. -/
def resolveScores (labelSet : LabelSetVersion) (scores : Dict String Number) :
    Except PyError (List ResolvedLabel) := do
  let unknown := (scores.keys.filter (· ∉ labelSet.labelKeys)).insertionSort (· ≤ ·)
  ensure unknown.isEmpty "label scores contain unknown keys: %" unknown
  (labelSet.labelKeys.filterMap fun key => (scores.lookup key).map fun score => (key, score)).mapM
    fun found => labelSet.resolveScore found.1 found.2

end LabelSetVersion

/-! ## What the checks accept -/

theorem validateScore_of_isScore {value : Json} (h : isScore value = true) (field : String) :
    validateScore value field = .ok (scoreOf value) := by
  cases value with
  | num n =>
    have hunit : inUnitInterval n = true := h
    cases n with
    | int n =>
      have hsmall : floatOverflows n = false := by
        simp only [inUnitInterval, Number.le, Number.value, Bool.and_eq_true,
          decide_eq_true_eq, WithBot.coe_le_coe, WithTop.coe_le_coe] at hunit
        have hle : n ≤ 1 := by exact_mod_cast hunit.2
        have hge : 0 ≤ n := by exact_mod_cast hunit.1
        obtain rfl | rfl : n = 0 ∨ n = 1 := by omega
        · decide +kernel
        · decide +kernel
      rw [validateScore, hsmall, hunit]
      rfl
    | _ =>
      rw [validateScore, hunit]
      · rfl
      · intro m hm
        cases hm
  | _ => cases h

/-- A value that is no score is refused, or is an integer too large for a float. -/
theorem validateScore_of_not_isScore {value : Json} (h : isScore value = false) (field : String) :
    validateScore value field = if isOverflowing value then .error .overflowError
      else .error (.domainValidation "% must be a finite number in [0, 1]" [field]) := by
  cases value with
  | num n =>
    have hunit : inUnitInterval n = false := h
    cases n with
    | int n =>
      rw [validateScore, isOverflowing, hunit]
      rfl
    | _ =>
      rw [validateScore, hunit]
      · rfl
      · intro m hm
        cases hm
  | _ => rfl

end TgCurator.Output
