import TgCurator.JsonText
import TgCurator.Output.Validator

/-!
# The schema of structured output

`StructuredOutputSchemaBuilder` of `domain/analysis/schema.py`: the JSON Schema document sent
to the model, its canonical text and hash. SHA-256 and the text of a float are parameters.
-/

namespace TgCurator.Output

/-! ## Targets -/

/-- `_validate_targets`. -/
def validateTargets (targetIds : List String) : Except PyError (List String) := do
  ensure (!targetIds.isEmpty) "expected target IDs must be a non-empty tuple"
  let normalized ← targetIds.mapM fun targetId => validateNonBlank targetId "target ID"
  ensure (normalized.dedup.length = normalized.length) "expected target IDs must be unique"
  return normalized

/-! ## Result items -/

/-- `{"type": "number", "minimum": 0.0, "maximum": 1.0}`. -/
def scoreSchema : Json :=
  .obj [("type", .str "number"), ("minimum", .num (.float 0)), ("maximum", .num (.float 1))]

/-- `{"type": "string", "enum": list(names)}`. -/
def enumSchema (names : List String) : Json :=
  .obj [("type", .str "string"), ("enum", .arr (names.map .str))]

/-- The schema of an object with the given properties only. -/
structure ObjectSchema where
  properties : List (String × Json)
  required : List String

/-- The document of an object schema. -/
def ObjectSchema.document (schema : ObjectSchema) : Json :=
  .obj [("type", .str "object"), ("additionalProperties", .bool false),
    ("properties", .obj schema.properties), ("required", .arr (schema.required.map .str))]

/-- The property of the dense form. -/
def denseSchema (labelSet : LabelSetVersion) : Json :=
  ObjectSchema.document {
    properties := labelSet.labelKeys.map fun key => (key, scoreSchema)
    required := labelSet.labelKeys }

/-- The property of the sparse form. -/
def sparseSchema (labelSet : LabelSetVersion) : Json :=
  .obj [("type", .str "array"), ("items", ObjectSchema.document {
    properties := [("label_key", enumSchema labelSet.labelKeys), ("score", scoreSchema)]
    required := ["label_key", "score"] })]

/-- `_result_item_schema`. -/
def resultItemSchema (labelSet : LabelSetVersion) (policy : StructuredOutputPolicy) :
    ObjectSchema :=
  let properties := match policy.mode with
    | .denseScores => [("scores", denseSchema labelSet)]
    | .sparseMatches => [("matches", sparseSchema labelSet)]
  let required := match policy.mode with
    | .denseScores => ["scores"]
    | .sparseMatches => ["matches"]
  { properties := properties ++
      (if policy.includeReason then [("reason", .obj [("type", .str "string")])] else []) ++
      (if policy.includeEvidence then
        [("evidence", .obj [("type", .str "array"), ("items", .obj [("type", .str "string")])])]
      else [])
    required := required ++ (if policy.includeReason then ["reason"] else []) ++
      (if policy.includeEvidence then ["evidence"] else []) }

/-! ## Documents -/

/-- `StructuredOutputSchema`. -/
structure StructuredOutputSchema where
  document : Json
  canonicalJson : String
  schemaHash : String

/-- `SCHEMA_VERSION`. -/
def schemaVersion : ℤ :=
  1

/-- The versions and modes noted in a document. -/
def curatorNote (stageTemplateVersionId : String) (labelSet : LabelSetVersion)
    (executionMode : ExecutionMode) (policy : StructuredOutputPolicy) : Json :=
  .obj [("schema_version", .num (.int schemaVersion)),
    ("stage_template_version_id", .str stageTemplateVersionId),
    ("label_set_version_id", .str labelSet.versionId),
    ("execution_mode", .str executionMode.value),
    ("structured_output_mode", .str policy.mode.value)]

/-- The schema of an item of a batch, which names its target. -/
def batchItemSchema (labelSet : LabelSetVersion) (policy : StructuredOutputPolicy)
    (targetField : String) (targets : List String) : ObjectSchema :=
  let itemSchema := resultItemSchema labelSet policy
  { properties := (targetField, enumSchema targets) :: itemSchema.properties
    required := targetField :: itemSchema.required }

/-- The document of a batch mode. -/
def batchDocument (stageTemplateVersionId : String) (labelSet : LabelSetVersion)
    (executionMode : ExecutionMode) (policy : StructuredOutputPolicy) (targetField : String)
    (targets : List String) : Json :=
  .obj [("$schema", .str "https://json-schema.org/draft/2020-12/schema"),
    ("title", .str "TGCuratorAnalysisBatchV1"),
    ("type", .str "object"),
    ("additionalProperties", .bool false),
    ("properties", .obj [("results", .obj [
      ("type", .str "array"),
      ("items", (batchItemSchema labelSet policy targetField targets).document),
      ("minItems", .num (.int 0)),
      ("maxItems", .num (.int targets.length))])]),
    ("required", .arr [.str "results"]),
    ("x-tgcurator", curatorNote stageTemplateVersionId labelSet executionMode policy)]

/-- The document of another mode. -/
def singleDocument (stageTemplateVersionId : String) (labelSet : LabelSetVersion)
    (executionMode : ExecutionMode) (policy : StructuredOutputPolicy) : Json :=
  .obj [("$schema", .str "https://json-schema.org/draft/2020-12/schema"),
    ("title", .str "TGCuratorAnalysisResultV1"),
    ("type", .str "object"),
    ("additionalProperties", .bool false),
    ("properties", .obj [("result", (resultItemSchema labelSet policy).document)]),
    ("required", .arr [.str "result"]),
    ("x-tgcurator", curatorNote stageTemplateVersionId labelSet executionMode policy)]

/-- The document of a mode. -/
def schemaDocument (stageTemplateVersionId : String) (labelSet : LabelSetVersion)
    (executionMode : ExecutionMode) (policy : StructuredOutputPolicy) (targets : List String) :
    Except PyError Json :=
  match targetFieldForMode executionMode with
  | some targetField =>
    .ok (batchDocument stageTemplateVersionId labelSet executionMode policy targetField targets)
  | none => do
    ensure (targets.length = 1) "non-batch execution requires exactly one target"
    return singleDocument stageTemplateVersionId labelSet executionMode policy

variable (sha256 : String → String) (floatText : ℚ → String)

/-- `canonical_hash`. -/
def canonicalHash (value : Json) : Except PyError String := do
  return sha256 (← canonicalJson floatText value)

/-- `build`. -/
def build (stageTemplateVersionId : String) (labelSet : LabelSetVersion)
    (executionMode : ExecutionMode) (policy : StructuredOutputPolicy)
    (expectedTargetIds : List String) : Except PyError StructuredOutputSchema := do
  let _ ← validateNonBlank stageTemplateVersionId "stage template version_id"
  let targets ← validateTargets expectedTargetIds
  let document ← schemaDocument stageTemplateVersionId labelSet executionMode policy targets
  -- `canonical_json` and `canonical_hash` do not fail on a document (`canonicalJson_of_build`)
  let serialized := canonicalText floatText document
  return ⟨document, serialized, sha256 serialized⟩

/-! ## Documents are JSON -/

theorem isDumpable_enumSchema (names : List String) : (enumSchema names).isDumpable = true := by
  have hnames := allNumbers_strings Number.isDumpable names
  simp only [enumSchema, Json.allNumbers, Json.allNumbersEntries, Bool.true_and, Bool.and_true]
    at hnames ⊢
  exact hnames

theorem ObjectSchema.isDumpable_document {schema : ObjectSchema}
    (h : ∀ p ∈ schema.properties, p.2.isDumpable = true) :
    schema.document.isDumpable = true := by
  have hproperties := allNumbersEntries_iff.mpr h
  have hrequired := allNumbers_strings Number.isDumpable schema.required
  rw [document]
  simp only [Json.allNumbers, Json.allNumbersEntries] at hrequired ⊢
  rw [hproperties, hrequired]
  rfl

theorem isDumpable_resultItemSchema (labelSet : LabelSetVersion)
    (policy : StructuredOutputPolicy) :
    ∀ p ∈ (resultItemSchema labelSet policy).properties, p.2.isDumpable = true := by
  have hscore : scoreSchema.isDumpable = true := by
    simp [scoreSchema, Json.allNumbers, Json.allNumbersEntries, Number.isDumpable,
      Number.isFinite, Number.isPrintable]
  have hdense : (denseSchema labelSet).isDumpable = true := by
    refine ObjectSchema.isDumpable_document ?_
    rw [List.forall_mem_map]
    exact fun _ _ => hscore
  have henum := isDumpable_enumSchema labelSet.labelKeys
  have hsparse : (sparseSchema labelSet).isDumpable = true := by
    have hmatch : (ObjectSchema.document ⟨[("label_key", enumSchema labelSet.labelKeys),
        ("score", scoreSchema)], ["label_key", "score"]⟩).isDumpable = true :=
      ObjectSchema.isDumpable_document (by simp [henum, hscore])
    simp [sparseSchema, Json.allNumbers, Json.allNumbersEntries, hmatch]
  obtain ⟨mode, includeReason, includeEvidence⟩ := policy
  cases mode <;> cases includeReason <;> cases includeEvidence <;>
    simp [resultItemSchema, hdense, hsparse, Json.allNumbers, Json.allNumbersEntries]

/-- A document can be dumped if the number of its targets can be printed. -/
theorem isDumpable_schemaDocument {stageTemplateVersionId : String} {labelSet : LabelSetVersion}
    {executionMode : ExecutionMode} {policy : StructuredOutputPolicy} {targets : List String}
    {document : Json} (hlength : targets.length < Number.strDigitsLimit)
    (h : schemaDocument stageTemplateVersionId labelSet executionMode policy targets =
      .ok document) : document.isDumpable = true := by
  have hproperties := isDumpable_resultItemSchema labelSet policy
  have hnote : (curatorNote stageTemplateVersionId labelSet executionMode policy).isDumpable =
      true := by
    have hone : (Number.int schemaVersion).isDumpable = true := by
      decide +kernel
    simp [curatorNote, Json.allNumbers, Json.allNumbersEntries, hone]
  rw [schemaDocument] at h
  cases hmode : targetFieldForMode executionMode with
  | some targetField =>
    rw [hmode] at h
    obtain rfl := Except.ok.inj h
    have hitem : (batchItemSchema labelSet policy targetField targets).document.isDumpable =
        true :=
      ObjectSchema.isDumpable_document
        (List.forall_mem_cons.mpr ⟨isDumpable_enumSchema targets, hproperties⟩)
    have hzero : (Number.int 0).isDumpable = true := by
      decide +kernel
    have htargets : (Number.int targets.length).isDumpable = true :=
      decide_eq_true hlength
    simp [batchDocument, Json.allNumbers, Json.allNumbersEntries, Json.allNumbersItems, hitem,
      hnote, hzero, htargets]
  | none =>
    rw [hmode] at h
    obtain ⟨_, -, h⟩ := bind_eq_ok.mp h
    obtain rfl := Except.ok.inj h
    have hitem := ObjectSchema.isDumpable_document hproperties
    simp [singleDocument, Json.allNumbers, Json.allNumbersEntries, Json.allNumbersItems, hitem,
      hnote]

/-- The text and hash of a schema are those of `canonical_json` and `canonical_hash`: a list has
far fewer items than an integer of more than 4300 digits says. -/
theorem canonicalJson_of_build {stageTemplateVersionId : String} {labelSet : LabelSetVersion}
    {executionMode : ExecutionMode} {policy : StructuredOutputPolicy} {targetIds : List String}
    {schema : StructuredOutputSchema} (hlength : targetIds.length < Number.strDigitsLimit)
    (h : build sha256 floatText stageTemplateVersionId labelSet executionMode policy targetIds =
      .ok schema) :
    canonicalJson floatText schema.document = .ok schema.canonicalJson ∧
      canonicalHash sha256 floatText schema.document = .ok schema.schemaHash := by
  unfold build at h
  obtain ⟨_, -, h⟩ := bind_eq_ok.mp h
  obtain ⟨targets, htargets, h⟩ := bind_eq_ok.mp h
  obtain ⟨document, hdocument, h⟩ := bind_eq_ok.mp h
  obtain rfl := Except.ok.inj h
  have htext : canonicalJson floatText document = .ok (canonicalText floatText document) := by
    refine canonicalJson_of_isDumpable (isDumpable_schemaDocument ?_ hdocument)
    obtain ⟨-, htargets⟩ := seq_eq_ok.mp htargets
    obtain ⟨normalized, hnormalized, htargets⟩ := bind_eq_ok.mp htargets
    obtain ⟨-, htargets⟩ := seq_eq_ok.mp htargets
    obtain rfl := Except.ok.inj htargets
    rwa [← (mapM_eq_ok.mp hnormalized).length_eq]
  exact ⟨htext, by rw [canonicalHash, htext]; rfl⟩

end TgCurator.Output
