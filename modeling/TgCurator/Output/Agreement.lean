import TgCurator.JsonSchema
import TgCurator.Output.Report
import TgCurator.Output.Schema

/-!
# The schema and the validator agree

Each part of the schema document accepts what the validator accepts in its place: scores
(`satisfies_scoreSchema_iff`), the dense and the sparse form, and result items
(`batchItem_agrees`, `singleItem_agrees`). What the document cannot say is that each target
occurs once and that the labels of a result are distinct.

`complete_iff_satisfies`: with these two conditions, the validator reports a complete result
exactly when the payload satisfies the document.
-/

namespace TgCurator.Output

open JsonSchema

variable {labelSet : LabelSetVersion} {policy : StructuredOutputPolicy} {value : Json}
  {entries : List (String × Json)}

/-! ## Objects -/

theorem hasExactly_iff {names : List String} : hasExactly entries names = true ↔
    ∀ name, name ∈ Dict.keys entries ↔ name ∈ names := by
  simp only [hasExactly, Bool.and_eq_true, List.all_eq_true, decide_eq_true_eq]
  exact ⟨fun h name => ⟨h.1 name, h.2 name⟩, fun h => ⟨fun name => (h name).mp,
    fun name => (h name).mpr⟩⟩

theorem lookup_eq_getD {name : String} (h : name ∈ Dict.keys entries) :
    entries.lookup name = some (getD entries name) := by
  rw [getD]
  cases hlookup : entries.lookup name with
  | none => exact absurd h (Dict.lookup_eq_none.mp hlookup)
  | some item => rfl

/-- The values of an object schema are the objects with just its members. -/
theorem satisfies_document_iff {schema : ObjectSchema}
    (hrequired : schema.required = schema.properties.map Prod.fst) :
    satisfies schema.document value = true ↔ ∃ entries, value = .obj entries ∧
      hasExactly entries schema.required = true ∧
      ∀ p ∈ schema.properties, satisfies p.2 (getD entries p.1) = true := by
  have hdocument : schema.document = .obj (closed schema.properties schema.required) := rfl
  rw [hdocument, hrequired, satisfies_closed_iff]
  refine exists_congr fun entries => and_congr_right fun _ => ?_
  rw [hasExactly_iff]
  refine and_congr_right fun hnames => forall₂_congr fun p hp => ?_
  have hmem : p.1 ∈ Dict.keys entries := (hnames p.1).mpr (List.mem_map_of_mem hp)
  rw [lookup_eq_getD hmem]
  simp

/-! ## Scores -/

theorem satisfies_scoreSchema_iff : satisfies scoreSchema value = true ↔ isScore value = true := by
  rw [scoreSchema, satisfies_between_iff]
  cases value with
  | num n => simp [isScore, inUnitInterval]
  | _ => simp [isScore]

theorem satisfies_denseSchema_iff :
    satisfies (denseSchema labelSet) value = true ↔ denseOk labelSet value = true := by
  have hnames : (labelSet.labelKeys.map fun key => (key, scoreSchema)).map Prod.fst =
      labelSet.labelKeys := by
    rw [List.map_map]
    exact List.map_id _
  rw [denseSchema, satisfies_document_iff hnames.symm]
  cases value with
  | obj entries =>
    simp only [denseOk, Json.obj.injEq, exists_eq_left', List.forall_mem_map,
      satisfies_scoreSchema_iff, Bool.and_eq_true, List.all_eq_true]
  | _ => simp [denseOk]

/-- A match of a label of the set, with a score. -/
def IsMatch (labelSet : LabelSetVersion) (found : Json) : Prop :=
  ∃ entries key, found = .obj entries ∧ hasExactly entries ["label_key", "score"] = true ∧
    getD entries "label_key" = .str key ∧ key ∈ labelSet.labelKeys ∧
    isScore (getD entries "score") = true

theorem satisfies_sparseSchema_iff : satisfies (sparseSchema labelSet) value = true ↔
    ∃ found, value = .arr found ∧ ∀ m ∈ found, IsMatch labelSet m := by
  rw [sparseSchema, satisfies_array_iff]
  refine exists_congr fun found => and_congr_right fun _ => forall₂_congr fun m _ => ?_
  rw [satisfies_document_iff rfl, IsMatch]
  refine exists_congr fun entries => ?_
  rw [exists_and_left, exists_and_left]
  refine and_congr_right fun _ => and_congr_right fun _ => ?_
  rw [List.forall_mem_cons, List.forall_mem_singleton, enumSchema, satisfies_enum_iff,
    satisfies_scoreSchema_iff]
  constructor
  · rintro ⟨⟨key, hkey, hlabel⟩, hscore⟩
    exact ⟨key, hlabel, hkey, hscore⟩
  · rintro ⟨key, hlabel, hkey, hscore⟩
    exact ⟨⟨key, hkey, hlabel⟩, hscore⟩

/-- The label keys of matches. -/
def matchKeys (found : List Json) : List String :=
  found.filterMap (namedTarget "label_key")

theorem matchOf?_eq_some_iff {seen : List String} {found score : Json} {key : String} :
    matchOf? labelSet seen found = some (key, score) ↔ ∃ entries, found = .obj entries ∧
      hasExactly entries ["label_key", "score"] = true ∧ getD entries "label_key" = .str key ∧
      key ∈ labelSet.labelKeys ∧ key ∉ seen ∧ getD entries "score" = score := by
  cases found with
  | obj entries =>
    rw [matchOf?]
    simp only [Json.obj.injEq, exists_eq_left']
    split_ifs with hexact
    · cases hlabel : getD entries "label_key" with
      | str key' =>
        dsimp only
        split_ifs with hknown
        · rw [Option.some.injEq, Prod.mk.injEq, Json.str.injEq]
          constructor
          · rintro ⟨rfl, hscore⟩
            exact ⟨hexact, rfl, hknown.1, hknown.2, hscore⟩
          · rintro ⟨-, rfl, -, -, hscore⟩
            exact ⟨rfl, hscore⟩
        · constructor
          · intro h
            cases h
          · rintro ⟨-, hkey, hmem, hseen, -⟩
            rw [Json.str.inj hkey] at hknown
            exact absurd ⟨hmem, hseen⟩ hknown
      | _ => simp
    · simp [hexact]
  | _ => simp [matchOf?]

theorem sparseOk_iff {found : List Json} {seen : List String} :
    sparseOk labelSet found seen = true ↔ (∀ m ∈ found, IsMatch labelSet m) ∧
      (matchKeys found).Nodup ∧ ∀ key ∈ matchKeys found, key ∉ seen := by
  induction found generalizing seen with
  | nil => simp [sparseOk, matchKeys]
  | cons m rest ih =>
    have hkeys : ∀ {entries : List (String × Json)} {key : String}, m = .obj entries →
        getD entries "label_key" = .str key → matchKeys (m :: rest) = key :: matchKeys rest := by
      rintro entries key rfl hlabel
      refine List.filterMap_cons_some ?_
      rw [namedTarget, hlabel]
      rfl
    rw [sparseOk, List.forall_mem_cons]
    constructor
    · intro h
      cases hmatch : matchOf? labelSet seen m with
      | none =>
        rw [hmatch] at h
        cases h
      | some found =>
        obtain ⟨key, score⟩ := found
        rw [hmatch] at h
        obtain ⟨hscore, hrest⟩ := (Bool.and_eq_true _ _).mp h
        obtain ⟨entries, hobj, hexact, hlabel, hknown, hseen, rfl⟩ := matchOf?_eq_some_iff.mp hmatch
        obtain ⟨hall, hnodup, hfresh⟩ := ih.mp hrest
        rw [hkeys hobj hlabel, List.nodup_cons, List.forall_mem_cons]
        refine ⟨⟨⟨entries, key, hobj, hexact, hlabel, hknown, hscore⟩, hall⟩, ⟨?_, hnodup⟩, hseen,
          fun key' hkey' hmem => hfresh key' hkey' (List.mem_append_left _ hmem)⟩
        intro hkey
        exact hfresh key hkey (List.mem_append_right _ (List.mem_singleton_self key))
    · rintro ⟨⟨⟨entries, key, hobj, hexact, hlabel, hknown, hscore⟩, hall⟩, hnodup, hfresh⟩
      rw [hkeys hobj hlabel] at hnodup hfresh
      rw [List.nodup_cons] at hnodup
      rw [List.forall_mem_cons] at hfresh
      have hmatch := matchOf?_eq_some_iff.mpr
        ⟨entries, hobj, hexact, hlabel, hknown, hfresh.1, rfl⟩
      rw [hmatch]
      dsimp only
      rw [hscore, Bool.true_and]
      refine ih.mpr ⟨hall, hnodup.2, fun key' hkey' hmem => ?_⟩
      rcases List.mem_append.mp hmem with hmem | hmem
      · exact hfresh.2 key' hkey' hmem
      · rw [List.mem_singleton.mp hmem] at hkey'
        exact hnodup.1 hkey'

/-! ## Result items -/

/-- The label keys of the matches of a result item. -/
def matchKeysOf (item : Json) : List String :=
  match item with
  | .obj entries => matchKeys (itemsOf (getD entries "matches"))
  | _ => []

/-- The property of the scores in the schema of an item. -/
def scoresProperty (labelSet : LabelSetVersion) (policy : StructuredOutputPolicy) :
    String × Json :=
  match policy.mode with
  | .denseScores => ("scores", denseSchema labelSet)
  | .sparseMatches => ("matches", sparseSchema labelSet)

theorem resultItemSchema_required (labelSet : LabelSetVersion) (policy : StructuredOutputPolicy) :
    (resultItemSchema labelSet policy).required =
      (resultItemSchema labelSet policy).properties.map Prod.fst := by
  obtain ⟨mode, includeReason, includeEvidence⟩ := policy
  cases mode <;> cases includeReason <;> cases includeEvidence <;> rfl

/-- The fields of an item are those of its schema. -/
theorem hasExactly_expectedFields (targetField : Option String) (labelSet : LabelSetVersion)
    (policy : StructuredOutputPolicy) (entries : List (String × Json)) :
    hasExactly entries (expectedFields targetField policy) =
      hasExactly entries (targetField.toList ++ (resultItemSchema labelSet policy).required) := by
  rw [Bool.eq_iff_iff, hasExactly_iff, hasExactly_iff]
  refine forall_congr' fun name => iff_congr Iff.rfl ?_
  obtain ⟨mode, includeReason, includeEvidence⟩ := policy
  simp only [expectedFields, resultItemSchema, List.mem_append, List.mem_cons]
  cases mode <;> simp [or_left_comm, or_assoc]

theorem satisfies_reason_iff :
    satisfies (.obj [("type", .str "string")]) value = true ↔ isString value = true := by
  rw [satisfies_string_iff]
  cases value <;> simp [isString]

theorem satisfies_evidence_iff :
    satisfies (.obj [("type", .str "array"), ("items", .obj [("type", .str "string")])]) value =
      true ↔ isStringArray value = true := by
  rw [satisfies_array_iff]
  cases value <;> simp [isStringArray, satisfies_reason_iff]

theorem scores_agree (hmatches : policy.mode = .denseScores → getD entries "matches" = .null) :
    satisfies (scoresProperty labelSet policy).2
        (getD entries (scoresProperty labelSet policy).1) = true ∧
      (matchKeysOf (.obj entries)).Nodup ↔ scoresOk policy labelSet entries = true := by
  rw [scoresOk, scoresProperty, matchKeysOf]
  cases hmode : policy.mode with
  | denseScores =>
    rw [satisfies_denseSchema_iff, hmatches hmode]
    exact and_iff_left List.nodup_nil
  | sparseMatches =>
    dsimp only
    rw [satisfies_sparseSchema_iff]
    cases getD entries "matches" with
    | arr found =>
      dsimp only [itemsOf]
      rw [sparseOk_iff]
      simp
    | _ => simp

theorem forall_properties_iff :
    (∀ p ∈ (resultItemSchema labelSet policy).properties, satisfies p.2 (getD entries p.1) = true) ↔
      satisfies (scoresProperty labelSet policy).2
          (getD entries (scoresProperty labelSet policy).1) = true ∧
        (!policy.includeReason || isString (getD entries "reason")) = true ∧
        (!policy.includeEvidence || isStringArray (getD entries "evidence")) = true := by
  obtain ⟨mode, includeReason, includeEvidence⟩ := policy
  have hproperties : (resultItemSchema labelSet ⟨mode, includeReason, includeEvidence⟩).properties =
      [scoresProperty labelSet ⟨mode, includeReason, includeEvidence⟩] ++
        (if includeReason then [("reason", .obj [("type", .str "string")])] else []) ++
        (if includeEvidence then
          [("evidence", .obj [("type", .str "array"), ("items", .obj [("type", .str "string")])])]
        else []) := by
    cases mode <;> rfl
  rw [hproperties, List.forall_mem_append, List.forall_mem_append, List.forall_mem_singleton,
    and_assoc]
  refine and_congr_right fun _ => and_congr ?_ ?_
  · cases includeReason <;> simp [satisfies_reason_iff]
  · cases includeEvidence <;> simp [satisfies_evidence_iff]

/-- The fields of an item are all right if those of its schema are and its labels are distinct. -/
theorem item_agrees {targetField : Option String} (hfield : "matches" ∉ targetField.toList) :
    hasExactly entries (targetField.toList ++ (resultItemSchema labelSet policy).required) = true ∧
      (∀ p ∈ (resultItemSchema labelSet policy).properties,
        satisfies p.2 (getD entries p.1) = true) ∧
      (matchKeysOf (.obj entries)).Nodup ↔ itemOk targetField policy labelSet entries = true := by
  rw [itemOk, Bool.and_eq_true, Bool.and_eq_true, Bool.and_eq_true,
    hasExactly_expectedFields targetField labelSet policy entries, and_assoc, and_assoc]
  refine and_congr_right fun hexact => ?_
  rw [hasExactly_iff] at hexact
  have hmatches : policy.mode = .denseScores → getD entries "matches" = .null := by
    intro hmode
    have hnot : "matches" ∉ Dict.keys entries := by
      rw [hexact, List.mem_append]
      rintro (h | h)
      · exact hfield h
      · revert h
        obtain ⟨mode, includeReason, includeEvidence⟩ := policy
        obtain rfl : mode = .denseScores := hmode
        cases includeReason <;> cases includeEvidence <;> simp [resultItemSchema]
    rw [getD, Dict.lookup_eq_none.mpr hnot]
    rfl
  have hevidence : policy.includeEvidence = true →
      evidenceOf entries = getD entries "evidence" := by
    intro hinclude
    have hmem : "evidence" ∈ Dict.keys entries := by
      rw [hexact, List.mem_append]
      refine .inr ?_
      rw [resultItemSchema, hinclude]
      simp
    rw [evidenceOf, lookup_eq_getD hmem]
    rfl
  have hevidence' : (!policy.includeEvidence || isStringArray (evidenceOf entries)) =
      (!policy.includeEvidence || isStringArray (getD entries "evidence")) := by
    cases hinclude : policy.includeEvidence with
    | true => rw [hevidence hinclude]
    | false => rfl
  rw [forall_properties_iff, hevidence', ← scores_agree hmatches]
  constructor
  · rintro ⟨⟨hscores, hreason, hstrings⟩, hnodup⟩
    exact ⟨⟨hscores, hnodup⟩, hreason, hstrings⟩
  · rintro ⟨⟨hscores, hnodup⟩, hreason, hstrings⟩
    exact ⟨⟨hscores, hreason, hstrings⟩, hnodup⟩

theorem singleItem_agrees :
    satisfies (resultItemSchema labelSet policy).document value = true ∧
      (matchKeysOf value).Nodup ↔
      ∃ entries, value = .obj entries ∧ itemOk none policy labelSet entries = true := by
  rw [satisfies_document_iff (resultItemSchema_required labelSet policy)]
  constructor
  · rintro ⟨⟨entries, rfl, hexact, hproperties⟩, hnodup⟩
    exact ⟨entries, rfl, (item_agrees (by simp)).mp ⟨hexact, hproperties, hnodup⟩⟩
  · rintro ⟨entries, rfl, hok⟩
    obtain ⟨hexact, hproperties, hnodup⟩ := (item_agrees (by simp)).mpr hok
    exact ⟨⟨entries, rfl, hexact, hproperties⟩, hnodup⟩

theorem batchItem_agrees {targetField : String} {targets : List String}
    (hfield : "matches" ≠ targetField) :
    satisfies (batchItemSchema labelSet policy targetField targets).document value = true ∧
      (matchKeysOf value).Nodup ↔ ∃ target ∈ targets, ∃ entries, value = .obj entries ∧
        namedTarget targetField value = some target ∧
        itemOk (some targetField) policy labelSet entries = true := by
  have hrequired : (batchItemSchema labelSet policy targetField targets).required =
      (batchItemSchema labelSet policy targetField targets).properties.map Prod.fst := by
    rw [batchItemSchema, List.map_cons, ← resultItemSchema_required]
  have hmember : ∀ entries : List (String × Json),
      satisfies (enumSchema targets) (getD entries targetField) = true ↔
        ∃ target ∈ targets, namedTarget targetField (.obj entries) = some target := by
    intro entries
    rw [enumSchema, satisfies_enum_iff, namedTarget]
    cases getD entries targetField <;> simp [stringOf?]
  have hnot : "matches" ∉ (some targetField).toList := by simpa using hfield
  rw [satisfies_document_iff hrequired]
  simp only [batchItemSchema, List.forall_mem_cons, hmember]
  constructor
  · rintro ⟨⟨entries, rfl, hexact, ⟨target, htarget, hnamed⟩, hproperties⟩, hnodup⟩
    exact ⟨target, htarget, entries, rfl, hnamed,
      (item_agrees hnot).mp ⟨hexact, hproperties, hnodup⟩⟩
  · rintro ⟨target, htarget, entries, rfl, hnamed, hok⟩
    obtain ⟨hexact, hproperties, hnodup⟩ := (item_agrees hnot).mpr hok
    exact ⟨⟨entries, rfl, hexact, ⟨target, htarget, hnamed⟩, hproperties⟩, hnodup⟩

/-! ## Documents -/

variable {payload : Json} {executionMode : ExecutionMode} {stageTemplateVersionId : String}
  {expected : List String}

theorem onlyMember_eq_some_iff {name : String} : onlyMember payload name = some value ↔
    ∃ entries, payload = .obj entries ∧ hasExactly entries [name] = true ∧
      getD entries name = value := by
  cases payload with
  | obj entries =>
    simp only [onlyMember, Json.obj.injEq, exists_eq_left']
    split_ifs with hexact
    · have hmem : name ∈ Dict.keys entries :=
        (hasExactly_iff.mp hexact name).mpr (List.mem_singleton_self name)
      rw [lookup_eq_getD hmem, Option.some.injEq]
      exact (and_iff_right hexact).symm
    · simp [hexact]
  | _ => simp [onlyMember]

theorem satisfies_only_iff {name : String} {schema : Json} :
    satisfies (ObjectSchema.document ⟨[(name, schema)], [name]⟩) payload = true ↔
      ∃ value, onlyMember payload name = some value ∧ satisfies schema value = true := by
  rw [satisfies_document_iff rfl]
  simp only [onlyMember_eq_some_iff, List.forall_mem_singleton]
  constructor
  · rintro ⟨entries, rfl, hexact, hvalue⟩
    exact ⟨_, ⟨entries, rfl, hexact, rfl⟩, hvalue⟩
  · rintro ⟨value, ⟨entries, rfl, hexact, rfl⟩, hvalue⟩
    exact ⟨entries, rfl, hexact, hvalue⟩

/-- The notes of a document say nothing about a payload. -/
theorem satisfies_noted (dialect title note : Json) (properties : List (String × Json))
    (required : List String) (payload : Json) :
    satisfies (.obj [("$schema", dialect), ("title", title), ("type", .str "object"),
        ("additionalProperties", .bool false), ("properties", .obj properties),
        ("required", .arr (required.map .str)), ("x-tgcurator", note)]) payload =
      satisfies (ObjectSchema.document ⟨properties, required⟩) payload := by
  change _ = satisfies (.obj (closed properties required)) payload
  rw [satisfies_closed, satisfies_obj, satisfiesKeywords_of_unknown (by decide),
    satisfiesKeywords_of_unknown (by decide)]
  simp only [satisfiesKeywords, satisfiesProperties, hasType]
  rw [satisfiesKeywords_of_unknown (by decide), satisfiesKeywords, Bool.and_true]
  rfl

theorem satisfies_singleDocument_iff :
    satisfies (singleDocument stageTemplateVersionId labelSet executionMode policy) payload =
      true ↔ ∃ value, onlyMember payload "result" = some value ∧
        satisfies (resultItemSchema labelSet policy).document value = true := by
  rw [← satisfies_only_iff, ← satisfies_noted]
  rfl

theorem satisfies_batchDocument_iff {targetField : String} {targets : List String} :
    satisfies (batchDocument stageTemplateVersionId labelSet executionMode policy targetField
        targets) payload = true ↔
      ∃ items, onlyMember payload "results" = some (.arr items) ∧
        items.length ≤ targets.length ∧ ∀ item ∈ items,
          satisfies (batchItemSchema labelSet policy targetField targets).document item = true := by
  have hitems : satisfies (batchDocument stageTemplateVersionId labelSet executionMode policy
      targetField targets) payload = true ↔ ∃ value, onlyMember payload "results" = some value ∧
        satisfies (.obj [("type", .str "array"),
          ("items", (batchItemSchema labelSet policy targetField targets).document),
          ("minItems", .num (.int 0)), ("maxItems", .num (.int targets.length))]) value = true := by
    rw [← satisfies_only_iff, ← satisfies_noted]
    rfl
  rw [hitems]
  simp only [satisfies_array_iff_of_length]
  constructor
  · rintro ⟨value, henvelope, items, rfl, hlength, hitems⟩
    exact ⟨items, henvelope, hlength, hitems⟩
  · rintro ⟨items, henvelope, hlength, hitems⟩
    exact ⟨_, henvelope, items, rfl, hlength, hitems⟩

/-! ## Complete results -/

/-- The result items of a payload. -/
def resultItems (payload : Json) (executionMode : ExecutionMode) : List Json :=
  match targetFieldForMode executionMode with
  | some _ => itemsOf ((member? payload "results").getD .null)
  | none => (member? payload "result").toList

/-- Each expected target of a batch occurs once. -/
def EachOnce (payload : Json) (executionMode : ExecutionMode) (expected : List String) : Prop :=
  ∀ targetField, targetFieldForMode executionMode = some targetField → ∀ target ∈ expected,
    ((resultItems payload executionMode).filterMap (namedTarget targetField)).count target = 1

/-- No label key occurs twice within a result. -/
def DistinctLabels (payload : Json) (executionMode : ExecutionMode) : Prop :=
  ∀ item ∈ resultItems payload executionMode, (matchKeysOf item).Nodup

theorem member?_of_onlyMember {name : String} (h : onlyMember payload name = some value) :
    member? payload name = some value := by
  obtain ⟨entries, rfl, hexact, rfl⟩ := onlyMember_eq_some_iff.mp h
  exact lookup_eq_getD ((hasExactly_iff.mp hexact name).mpr (List.mem_singleton_self name))

/-- A batch in which each target occurs once has at most as many items as targets. -/
theorem length_le_of_once {targetField : String} {items : List Json}
    (hitems : ∀ item ∈ items, ∃ target ∈ expected, namedTarget targetField item = some target)
    (honce : ∀ target ∈ expected, (items.filterMap (namedTarget targetField)).count target = 1) :
    items.length ≤ expected.length := by
  have hlength : (items.filterMap (namedTarget targetField)).length = items.length := by
    rw [List.length_filterMap_eq_countP, List.countP_eq_length]
    intro item hitem
    obtain ⟨target, -, hnamed⟩ := hitems item hitem
    rw [hnamed]
    rfl
  have hsubset : items.filterMap (namedTarget targetField) ⊆ expected := by
    intro target htarget
    obtain ⟨item, hitem, hnamed⟩ := List.mem_filterMap.mp htarget
    obtain ⟨target', htarget', hnamed'⟩ := hitems item hitem
    rwa [Option.some.inj (hnamed.symm.trans hnamed')]
  have hnodup : (items.filterMap (namedTarget targetField)).Nodup := by
    refine List.nodup_iff_count_le_one.mpr fun target => ?_
    by_cases htarget : target ∈ items.filterMap (namedTarget targetField)
    · exact (honce target (hsubset htarget)).le
    · rw [List.count_eq_zero.mpr htarget]
      exact Nat.zero_le 1
  rw [← hlength]
  exact (hnodup.subperm hsubset).length_le

theorem isComplete_iff {document : Json} (hdocument : schemaDocument stageTemplateVersionId
      labelSet executionMode policy expected = .ok document) :
    IsComplete payload executionMode policy labelSet expected ↔
      satisfies document payload = true ∧ EachOnce payload executionMode expected ∧
        DistinctLabels payload executionMode := by
  rw [IsComplete]
  unfold EachOnce DistinctLabels resultItems
  rw [schemaDocument] at hdocument
  cases hmode : targetFieldForMode executionMode with
  | some targetField =>
    have hfield : "matches" ≠ targetField := by
      cases executionMode <;> cases hmode <;> simp
    rw [hmode] at hdocument
    obtain rfl := Except.ok.inj hdocument
    dsimp only
    rw [satisfies_batchDocument_iff]
    constructor
    · rintro ⟨items, henvelope, hitems, honce⟩
      have hagrees := fun item hitem => batchItem_agrees hfield |>.mpr (hitems item hitem)
      rw [member?_of_onlyMember henvelope]
      refine ⟨⟨items, henvelope, length_le_of_once ?_ honce, fun item hitem => ?_⟩, ?_, ?_⟩
      · intro item hitem
        obtain ⟨target, htarget, -, -, hnamed, -⟩ := hitems item hitem
        exact ⟨target, htarget, hnamed⟩
      · exact (hagrees item hitem).1
      · rintro targetField' hfield'
        obtain rfl := Option.some.inj hfield'
        exact honce
      · exact fun item hitem => (hagrees item hitem).2
    · rintro ⟨⟨items, henvelope, -, hitems⟩, honce, hdistinct⟩
      rw [member?_of_onlyMember henvelope] at honce hdistinct
      exact ⟨items, henvelope, fun item hitem =>
        (batchItem_agrees hfield).mp ⟨hitems item hitem, hdistinct item hitem⟩, honce _ rfl⟩
  | none =>
    rw [hmode] at hdocument
    obtain ⟨_, -, hdocument⟩ := bind_eq_ok.mp hdocument
    obtain rfl := Except.ok.inj hdocument
    dsimp only
    rw [satisfies_singleDocument_iff]
    constructor
    · rintro ⟨item, henvelope, hok⟩
      obtain ⟨hsatisfies, hnodup⟩ := singleItem_agrees.mpr ⟨item, rfl, hok⟩
      rw [member?_of_onlyMember henvelope]
      refine ⟨⟨_, henvelope, hsatisfies⟩, ?_, fun item hitem => ?_⟩
      · intro targetField htarget
        cases htarget
      · rw [List.mem_singleton.mp hitem]
        exact hnodup
    · rintro ⟨⟨value, henvelope, hsatisfies⟩, -, hdistinct⟩
      rw [member?_of_onlyMember henvelope] at hdistinct
      have hnodup := hdistinct value (List.mem_singleton_self value)
      obtain ⟨item, rfl, hok⟩ := singleItem_agrees.mp ⟨hsatisfies, hnodup⟩
      exact ⟨item, henvelope, hok⟩

/-! ## Targets -/

theorem mapM_validateNonBlank {targets normalized : List String} :
    (targets.mapM fun target => validateNonBlank target "target ID") = .ok normalized ↔
      (∀ target ∈ targets, isBlank target = false) ∧ normalized = targets.map strip := by
  induction targets generalizing normalized with
  | nil => exact ⟨fun h => ⟨nofun, (Except.ok.inj h).symm⟩, fun h => by rw [h.2]; rfl⟩
  | cons target targets ih =>
    rw [List.mapM_cons, List.forall_mem_cons, List.map_cons, validateNonBlank]
    cases isBlank target with
    | true => exact ⟨(fun h => nomatch h), fun h => nomatch h.1.1⟩
    | false =>
      constructor
      · intro h
        obtain ⟨_, htarget, h⟩ := bind_eq_ok.mp h
        obtain ⟨rest, hrest, h⟩ := bind_eq_ok.mp h
        obtain rfl := Except.ok.inj htarget
        obtain ⟨hall, rfl⟩ := ih.mp hrest
        exact ⟨⟨rfl, hall⟩, (Except.ok.inj h).symm⟩
      · rintro ⟨⟨-, hall⟩, rfl⟩
        rw [ih.mpr ⟨hall, rfl⟩]
        rfl

/-- Targets without whitespace around are kept if they are distinct and not blank. -/
theorem validateTargets_iff (hstrip : ∀ target ∈ expected, strip target = target)
    {targets : List String} : validateTargets expected = .ok targets ↔
      targets = expected ∧ expected ≠ [] ∧ (∀ target ∈ expected, isBlank target = false) ∧
        expected.Nodup := by
  have hmap : expected.map strip = expected := 
    (List.map_congr_left hstrip).trans (List.map_id expected)
  rw [validateTargets]
  constructor
  · intro h
    obtain ⟨_, hnonempty, h⟩ := bind_eq_ok.mp h
    obtain ⟨normalized, hnormalized, h⟩ := bind_eq_ok.mp h
    obtain ⟨_, hnodup, h⟩ := bind_eq_ok.mp h
    obtain ⟨hall, rfl⟩ := mapM_validateNonBlank.mp hnormalized
    have hlength := of_decide_eq_true (ensure_eq_ok.mp hnodup)
    rw [hmap] at h hlength
    refine ⟨(Except.ok.inj h).symm, ?_, hall, ?_⟩
    · rintro rfl
      cases hnonempty
    · rw [← (List.dedup_sublist expected).eq_of_length hlength]
      exact List.nodup_dedup expected
  · rintro ⟨rfl, hnonempty, hall, hnodup⟩
    rw [mapM_validateNonBlank.mpr ⟨hall, hmap.symm⟩, List.isEmpty_eq_false_iff.mpr hnonempty]
    have hlength : targets.dedup.length = targets.length := by rw [hnodup.dedup]
    change (do ensure (decide (targets.dedup.length = targets.length)) _; _) = _
    rw [decide_eq_true hlength]
    rfl

/-! ## The agreement -/

variable (sha256 : String → String) (floatText : ℚ → String)

theorem build_eq_ok_iff (hversion : isBlank stageTemplateVersionId = false)
    (hstrip : ∀ target ∈ expected, strip target = target) {document : Json} :
    (∃ schema, build sha256 floatText stageTemplateVersionId labelSet executionMode policy expected =
        .ok schema ∧ schema.document = document) ↔
      ValidTargets executionMode expected ∧ schemaDocument stageTemplateVersionId labelSet
        executionMode policy expected = .ok document := by
  have hnonblank : validateNonBlank stageTemplateVersionId "stage template version_id" =
      .ok (strip stageTemplateVersionId) := by
    rw [validateNonBlank, hversion]
    rfl
  constructor
  · rintro ⟨schema, hbuild, rfl⟩
    rw [build, hnonblank] at hbuild
    obtain ⟨_, -, hbuild⟩ := bind_eq_ok.mp hbuild
    obtain ⟨targets, htargets, hbuild⟩ := bind_eq_ok.mp hbuild
    obtain ⟨document, hdocument, hbuild⟩ := bind_eq_ok.mp hbuild
    obtain rfl := Except.ok.inj hbuild
    obtain ⟨rfl, hnonempty, hall, hnodup⟩ := (validateTargets_iff hstrip).mp htargets
    refine ⟨⟨hnonempty, hall, hnodup, fun hmode => ?_⟩, hdocument⟩
    rw [schemaDocument, hmode] at hdocument
    obtain ⟨_, hlength, -⟩ := bind_eq_ok.mp hdocument
    exact of_decide_eq_true (ensure_eq_ok.mp hlength)
  · rintro ⟨h, hdocument⟩
    have htargets := (validateTargets_iff hstrip).mpr ⟨rfl, h.nonempty, h.nonblank, h.nodup⟩
    refine ⟨⟨document, canonicalText floatText document, sha256 (canonicalText floatText document)⟩,
      ?_, rfl⟩
    rw [build, hnonblank, htargets]
    change (schemaDocument _ _ _ _ expected >>= _) = _
    rw [hdocument]
    rfl

/-- The validator reports a complete result exactly when the payload satisfies the document of
the schema, each target occurs once, and no label key occurs twice within a result. -/
theorem complete_iff_satisfies (hpayload : Representable payload)
    (hversion : isBlank stageTemplateVersionId = false)
    (hstrip : ∀ target ∈ expected, strip target = target) :
    (ValidTargets executionMode expected → ∃ schema, build sha256 floatText stageTemplateVersionId
      labelSet executionMode policy expected = .ok schema) ∧
    ((∃ v, validate payload executionMode policy labelSet expected = .ok v ∧ v.complete = true) ↔
      ∃ schema, build sha256 floatText stageTemplateVersionId labelSet executionMode policy
          expected = .ok schema ∧ satisfies schema.document payload = true ∧
        EachOnce payload executionMode expected ∧ DistinctLabels payload executionMode) := by
  have hbuild : ∀ document, (∃ schema, build sha256 floatText stageTemplateVersionId labelSet
      executionMode policy expected = .ok schema ∧ schema.document = document) ↔
        ValidTargets executionMode expected ∧ schemaDocument stageTemplateVersionId labelSet
          executionMode policy expected = .ok document :=
    fun _ => build_eq_ok_iff sha256 floatText hversion hstrip
  have hdocument : ValidTargets executionMode expected → ∃ document,
      schemaDocument stageTemplateVersionId labelSet executionMode policy expected =
        .ok document := by
    intro h
    rw [schemaDocument]
    cases hmode : targetFieldForMode executionMode with
    | some targetField => exact ⟨_, rfl⟩
    | none =>
      rw [decide_eq_true (h.single hmode)]
      exact ⟨_, rfl⟩
  refine ⟨fun h => ?_, ?_, ?_⟩
  · obtain ⟨document, hdoc⟩ := hdocument h
    obtain ⟨schema, hschema, -⟩ := (hbuild document).mpr ⟨h, hdoc⟩
    exact ⟨schema, hschema⟩
  · rintro ⟨v, hv, hcomplete⟩
    have hvalid : ValidTargets executionMode expected := by
      rcases validTargets_or_failure hv with hvalid | ⟨rfl, -⟩
      · exact hvalid
      · cases hcomplete
    obtain ⟨document, hdoc⟩ := hdocument hvalid
    obtain ⟨schema, hschema, rfl⟩ := (hbuild document).mpr ⟨hvalid, hdoc⟩
    exact ⟨schema, hschema, (isComplete_iff hdoc).mp ((reported_of_ok hv).complete.mp hcomplete)⟩
  · rintro ⟨schema, hschema, hsatisfies⟩
    obtain ⟨hvalid, hdoc⟩ := (hbuild schema.document).mp ⟨schema, hschema, rfl⟩
    have hcases := validate_cases hvalid payload policy labelSet
    rw [if_neg (by rw [overflows_of_representable hpayload]; exact Bool.false_ne_true)] at hcases
    obtain ⟨v, hv, hreported⟩ := hcases
    exact ⟨v, hv, hreported.complete.mpr ((isComplete_iff hdoc).mpr hsatisfies)⟩

/-- The texts of the floats in a document. -/
def boundText (x : ℚ) : String :=
  if x = 0 then "0.0" else "1.0"

theorem complete_iff_satisfies_first :
    (∃ v, validate firstResponse .batchMessages {} oneLabel ["m1"] = .ok v ∧ v.complete = true) ↔
      ∃ schema, build id boundText "t1" oneLabel .batchMessages {} ["m1"] = .ok schema ∧
        satisfies schema.document firstResponse = true ∧
        EachOnce firstResponse .batchMessages ["m1"] ∧
        DistinctLabels firstResponse .batchMessages :=
  (complete_iff_satisfies id boundText representable_firstResponse (by decide +kernel)
    (by decide +kernel)).2

end TgCurator.Output
