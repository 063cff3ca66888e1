import Mathlib.Data.List.Sort
import Mathlib.Data.String.Basic
import TgCurator.Analysis.Common

/-!
# Label sets and stage templates

`LabelSetVersion` of `domain/analysis/labels.py` and `AnalysisStageTemplateVersion` of
`domain/analysis/stages.py`, as far as a pipeline reads them: the label keys in output
order, the target scope, and the checks before publication. Of a prompt and an inference
profile only what these checks look at is kept.
-/

namespace TgCurator

/-- `VersionStatus`. -/
inductive VersionStatus
  | draft | published | archived
  deriving DecidableEq

/-- `LabelScope`. -/
inductive LabelScope
  | global | media
  deriving DecidableEq

/-- The string of a scope. -/
def LabelScope.value : LabelScope → String
  | global => "global"
  | media => "media"

/-! ## Label sets -/

/-- `LabelDefinitionVersion`. -/
structure LabelDefinitionVersion where
  key : String
  scope : LabelScope
  enabled : Bool
  status : VersionStatus

/-- `LabelBinding`. -/
structure LabelBinding where
  label : LabelDefinitionVersion
  outputOrder : ℕ

/-- `LabelSetVersion`. -/
structure LabelSetVersion where
  bindings : List LabelBinding
  status : VersionStatus

namespace LabelSetVersion

/-- The sort key `(output_order, key)` of a binding. -/
abbrev OrderedLE (a b : LabelBinding) : Prop :=
  a.outputOrder < b.outputOrder ∨ (a.outputOrder = b.outputOrder ∧ a.label.key ≤ b.label.key)

/-- `ordered_bindings`. -/
def orderedBindings (labelSet : LabelSetVersion) : List LabelBinding :=
  labelSet.bindings.insertionSort OrderedLE

/-- `label_keys`. -/
def labelKeys (labelSet : LabelSetVersion) : List String :=
  labelSet.orderedBindings.map fun binding => binding.label.key

/-- `scopes`. -/
def scopes (labelSet : LabelSetVersion) : List LabelScope :=
  (labelSet.bindings.map fun binding => binding.label.scope).dedup

/-- `validate_for_publication`, with a target scope. -/
def validateForPublication (labelSet : LabelSetVersion) (targetScope : LabelScope) :
    Except PyError Unit := do
  ensure (labelSet.bindings.all fun binding => binding.label.enabled)
    "a published label set cannot bind disabled labels"
  ensure (labelSet.bindings.all fun binding => binding.label.status = .published)
    "a published label set must reference published labels"
  ensure (decide (labelSet.scopes = [targetScope]))
    "label set scope is incompatible with the stage target scope"

end LabelSetVersion

/-! ## Stage templates -/

/-- `PromptTemplateVersion`. -/
structure PromptTemplateVersion where
  status : VersionStatus

/-- `InferenceProfileVersion`. -/
structure InferenceProfileVersion where
  status : VersionStatus
  structuredOutputSupport : Bool

/-- `AnalysisStageTemplateVersion`. -/
structure AnalysisStageTemplateVersion where
  targetScope : LabelScope
  prompt : PromptTemplateVersion
  labelSet : LabelSetVersion
  inferenceProfile : InferenceProfileVersion
  status : VersionStatus

/-- `validate_for_publication`. -/
def AnalysisStageTemplateVersion.validateForPublication (stage : AnalysisStageTemplateVersion) :
    Except PyError Unit := do
  ensure (stage.prompt.status = .published) "published stage must reference a published prompt"
  ensure (stage.labelSet.status = .published)
    "published stage must reference a published label set"
  ensure (stage.inferenceProfile.status = .published)
    "published stage must reference a published inference profile"
  ensure stage.inferenceProfile.structuredOutputSupport
    "stage inference profile must support structured output"
  stage.labelSet.validateForPublication stage.targetScope

end TgCurator
