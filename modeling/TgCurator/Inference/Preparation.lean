import TgCurator.Inference.Calls

/-!
# What a prepared call holds

`Prepared` says what a call holds that `prepare` returned (`prepared_of_ok`): the schema, the
content of its manifest and the hash of that content, and a cache key whose value is the hash of
its payload.
-/

namespace TgCurator.Inference

open Output

/-! ## Steps -/

theorem lift_eq_ok {α : Type} {x : Except PyError α} {a : α} :
    lift x = .ok a ↔ x = .ok a := by
  cases x with
  | ok b => rw [lift, Except.ok.injEq, Except.ok.injEq]
  | error e => simp [lift]

theorem asInputError_eq_ok {α : Type} {x : Except PyError α} {a : α} :
    asInputError x = .ok a ↔ x = .ok a := by
  cases x with
  | ok b => rw [asInputError, Except.ok.injEq, Except.ok.injEq]
  | error e => cases e <;> simp [asInputError]

theorem input_bind_eq_ok {α β : Type} {x : Except CallError α} {f : α → Except CallError β}
    {b : β} : x >>= f = .ok b ↔ ∃ a, x = .ok a ∧ f a = .ok b := by
  cases x with
  | ok a => exact ⟨fun h => ⟨a, rfl, h⟩, fun ⟨_, ha, h⟩ => Except.ok.inj ha ▸ h⟩
  | error e => exact ⟨(fun h => nomatch h), fun ⟨_, ha, _⟩ => nomatch ha⟩

theorem validateNonBlank_eq_ok {value field normalized : String} :
    validateNonBlank value field = .ok normalized ↔
      isBlank value = false ∧ normalized = strip value := by
  rw [validateNonBlank]
  cases isBlank value with
  | true => exact ⟨(fun h => nomatch h), fun h => nomatch h.1⟩
  | false => exact ⟨fun h => ⟨rfl, (Except.ok.inj h).symm⟩, fun h => h.2 ▸ rfl⟩

theorem requireJsonObject_eq_ok {entries normalized : List (String × Json)} {field : String} :
    requireJsonObject (.obj entries) field = .ok normalized ↔
      (Json.obj entries).isDumpable = true ∧ normalized = Json.canonicalEntries entries := by
  rw [requireJsonObject]
  cases (Json.obj entries).isDumpable with
  | true => exact ⟨fun h => ⟨rfl, (Except.ok.inj h).symm⟩, fun h => h.2 ▸ rfl⟩
  | false => exact ⟨(fun h => nomatch h), fun h => nomatch h.1⟩

theorem mapM_validateNonBlank_eq_ok {values normalized : List String} {field : String}
    (h : (values.mapM fun value => validateNonBlank value field) = .ok normalized) :
    normalized = values.map strip := by
  induction values generalizing normalized with
  | nil => exact (Except.ok.inj h).symm
  | cons value values ih =>
    rw [List.mapM_cons] at h
    obtain ⟨first, hfirst, h⟩ := bind_eq_ok.mp h
    obtain ⟨rest, hrest, h⟩ := bind_eq_ok.mp h
    rw [← Except.ok.inj h, (validateNonBlank_eq_ok.mp hfirst).2, ih hrest, List.map_cons]

/-! ## Manifests -/

variable (sha256 : String → String) (floatText : ℚ → String)

/-- The content of the manifest of a call, before it is brought into canonical form. -/
def sentContent (stage : AnalysisStageTemplateVersion) (targets : List AnalysisTargetInput)
    (context : List (String × Json)) (schemaHash : String) (rendered : RenderedPrompt) : Json :=
  manifestContent manifestVersion stage.targetScope stage.executionMode
    (targets.map fun target => strip target.targetId) (strip stage.prompt.versionId) schemaHash
    (strip stage.inferenceProfile.versionId)
    (Json.canonicalEntries (manifestInputs stage targets context rendered))
    (Json.canonicalEntries stage.inferenceProfile.samplingParameters)

/-- The payload of the cache key of a call. -/
def sentPayload (stage : AnalysisStageTemplateVersion) (identity schemaHash manifestHash : String) :
    Json :=
  cachePayload stage.cachePolicy identity (strip stage.versionId) (strip stage.prompt.versionId)
    (strip stage.labelSet.versionId) schemaHash (strip stage.inferenceProfile.versionId)
    manifestHash

/-- What a prepared call holds. -/
structure Prepared (stage : AnalysisStageTemplateVersion) (targets : List AnalysisTargetInput)
    (context : List (String × Json)) (call : PreparedAnalysisCall) : Prop where
  schema : build sha256 floatText stage.versionId stage.labelSet stage.executionMode
    stage.structuredOutputPolicy (targets.map (·.targetId)) = .ok call.schema
  content : call.request.inputManifest.content = (sentContent stage targets context
    call.schema.schemaHash ⟨call.request.systemPrompt, call.request.userPrompt⟩).canonical
  hash : canonicalHash sha256 floatText (sentContent stage targets context
    call.schema.schemaHash ⟨call.request.systemPrompt, call.request.userPrompt⟩) =
      .ok call.request.inputManifest.inputManifestHash
  profile : call.request.profile = stage.inferenceProfile
  responseSchema : call.request.responseSchema = call.schema.document
  key : ∀ key, call.cacheKey = some key →
    canonicalHash sha256 floatText (sentPayload stage key.scopeIdentity call.schema.schemaHash
      call.request.inputManifest.inputManifestHash) = .ok key.value

variable {sha256 : String → String} {floatText : ℚ → String}
  {stage : AnalysisStageTemplateVersion} {targets : List AnalysisTargetInput}
  {context : List (String × Json)}

theorem composeManifest_eq_ok {schema : StructuredOutputSchema} {rendered : RenderedPrompt}
    {manifest : InputManifest} (h : composeManifest sha256 floatText stage targets schema context =
      .ok (rendered, manifest)) :
    manifest.content =
        (sentContent stage targets context schema.schemaHash rendered).canonical ∧
      canonicalHash sha256 floatText
          (sentContent stage targets context schema.schemaHash rendered) =
        .ok manifest.inputManifestHash := by
  unfold composeManifest at h
  obtain ⟨rendered', -, h⟩ := bind_eq_ok.mp h
  obtain ⟨manifest', hcreate, h⟩ := bind_eq_ok.mp h
  obtain ⟨rfl, rfl⟩ := Prod.mk.inj (Except.ok.inj h)
  unfold InputManifest.create at hcreate
  obtain ⟨_, -, hcreate⟩ := bind_eq_ok.mp hcreate
  obtain ⟨targetIds, htargets, hcreate⟩ := bind_eq_ok.mp hcreate
  obtain ⟨promptId, hprompt, hcreate⟩ := bind_eq_ok.mp hcreate
  obtain ⟨_, -, hcreate⟩ := bind_eq_ok.mp hcreate
  obtain ⟨profileId, hprofile, hcreate⟩ := bind_eq_ok.mp hcreate
  obtain ⟨inputs, hinputs, hcreate⟩ := bind_eq_ok.mp hcreate
  obtain ⟨parameters, hparameters, hcreate⟩ := bind_eq_ok.mp hcreate
  obtain ⟨hash, hhash, hcreate⟩ := bind_eq_ok.mp hcreate
  obtain ⟨_, -, hcreate⟩ := bind_eq_ok.mp hcreate
  unfold validateTargetIds at htargets
  obtain ⟨_, -, htargets⟩ := bind_eq_ok.mp htargets
  obtain ⟨normalized, hnormalized, htargets⟩ := bind_eq_ok.mp htargets
  obtain ⟨_, -, htargets⟩ := bind_eq_ok.mp htargets
  have hids : targetIds = targets.map fun target => strip target.targetId := by
    rw [← Except.ok.inj htargets, mapM_validateNonBlank_eq_ok hnormalized, List.map_map]
    rfl
  rw [hids, (validateNonBlank_eq_ok.mp hprompt).2, (validateNonBlank_eq_ok.mp hprofile).2,
    (requireJsonObject_eq_ok.mp hinputs).2,
    (requireJsonObject_eq_ok.mp hparameters).2] at hhash hcreate
  rw [← Except.ok.inj hcreate]
  exact ⟨rfl, hhash⟩

theorem buildCacheKey_eq_ok {policy : CachePolicy} {scopeIdentity : Option String}
    {stageId promptId labelSetId schemaHash profileId manifestHash : String} {key : StageCacheKey}
    (h : buildCacheKey sha256 floatText policy scopeIdentity stageId promptId labelSetId schemaHash
      profileId manifestHash = .ok (some key)) :
    canonicalHash sha256 floatText (cachePayload policy key.scopeIdentity (strip stageId)
      (strip promptId) (strip labelSetId) schemaHash (strip profileId) manifestHash) =
        .ok key.value := by
  unfold buildCacheKey at h
  split_ifs at h
  · cases h
  obtain ⟨identity, -, h⟩ := bind_eq_ok.mp h
  obtain ⟨_, -, h⟩ := bind_eq_ok.mp h
  obtain ⟨_, -, h⟩ := bind_eq_ok.mp h
  obtain ⟨stageId', hstage, h⟩ := bind_eq_ok.mp h
  obtain ⟨promptId', hprompt, h⟩ := bind_eq_ok.mp h
  obtain ⟨labelSetId', hlabelSet, h⟩ := bind_eq_ok.mp h
  obtain ⟨profileId', hprofile, h⟩ := bind_eq_ok.mp h
  obtain ⟨value, hvalue, h⟩ := bind_eq_ok.mp h
  rw [(validateNonBlank_eq_ok.mp hstage).2, (validateNonBlank_eq_ok.mp hprompt).2,
    (validateNonBlank_eq_ok.mp hlabelSet).2, (validateNonBlank_eq_ok.mp hprofile).2] at hvalue
  rw [← Option.some.inj (Except.ok.inj h)]
  exact hvalue

theorem prepared_of_ok {attempt : ℕ} {call : PreparedAnalysisCall}
    (h : prepare sha256 floatText stage targets context attempt = .ok call) :
    Prepared sha256 floatText stage targets context call := by
  unfold prepare at h
  obtain ⟨schema, hschema, h⟩ := input_bind_eq_ok.mp h
  obtain ⟨composed, hcomposed, h⟩ := input_bind_eq_ok.mp h
  obtain ⟨cacheKey, hkey, h⟩ := input_bind_eq_ok.mp h
  obtain rfl := Except.ok.inj h
  unfold compose at hcomposed
  obtain ⟨_, -, hcomposed⟩ := input_bind_eq_ok.mp hcomposed
  obtain ⟨⟨rendered, manifest⟩, hmanifest, hcomposed⟩ := input_bind_eq_ok.mp hcomposed
  obtain ⟨identity, -, hcomposed⟩ := input_bind_eq_ok.mp hcomposed
  obtain rfl := Except.ok.inj hcomposed
  obtain ⟨hcontent, hhash⟩ := composeManifest_eq_ok (asInputError_eq_ok.mp hmanifest)
  refine ⟨lift_eq_ok.mp hschema, hcontent, hhash, rfl, rfl, ?_⟩
  rintro key rfl
  exact buildCacheKey_eq_ok (lift_eq_ok.mp hkey)

end TgCurator.Inference
