import TgCurator.Inference.Media

/-!
# Equal cache keys

The cache key of a call is the hash of a payload that names the hash of the response schema and
the hash of the manifest, and the manifest holds the rendered prompts and the items of the
targets. `CollisionFree` is what is assumed of SHA-256 and of the canonical text, for the values
that two calls hash.

`sameRequest_of_key`: calls with one cache key send the model the same.
-/

namespace TgCurator.Inference

open Output

/-! ## Values with one canonical form -/

theorem canonical_str (s : String) : (Json.str s).canonical = .str s := by
  rw [Json.canonical]

/-- Dictionaries with one canonical form have the same values. -/
theorem canonical_getD_eq {entries entries' : List (String × Json)}
    (hkeys : (Dict.keys entries).Nodup) (hkeys' : (Dict.keys entries').Nodup)
    (h : (Json.obj entries).canonical = (Json.obj entries').canonical) (k : String) :
    (getD entries k).canonical = (getD entries' k).canonical := by
  rw [Json.canonical_obj, Json.canonical_obj] at h
  rw [← getD_canonicalEntries hkeys, ← getD_canonicalEntries hkeys', Json.obj.inj h]

theorem str_getD_eq {entries entries' : List (String × Json)}
    (hkeys : (Dict.keys entries).Nodup) (hkeys' : (Dict.keys entries').Nodup)
    (h : (Json.obj entries).canonical = (Json.obj entries').canonical) {k s s' : String}
    (hs : getD entries k = .str s) (hs' : getD entries' k = .str s') : s = s' := by
  have hvalue := canonical_getD_eq hkeys hkeys' h k
  rw [hs, hs', canonical_str, canonical_str] at hvalue
  exact Json.str.inj hvalue

/-! ## Payloads -/

section

variable {stage stage' : AnalysisStageTemplateVersion}

/-- A payload names the schema, the profile and the manifest. -/
theorem sentPayload_eq {identity schemaHash manifestHash identity' schemaHash' manifestHash' : String}
    (h : (sentPayload stage identity schemaHash manifestHash).canonical =
      (sentPayload stage' identity' schemaHash' manifestHash').canonical) :
    schemaHash = schemaHash' ∧ manifestHash = manifestHash' ∧
      stage.inferenceProfile.versionId = stage'.inferenceProfile.versionId := by
  rw [sentPayload, sentPayload, cachePayload, cachePayload] at h
  have hprofile : strip stage.inferenceProfile.versionId =
      strip stage'.inferenceProfile.versionId := by
    refine str_getD_eq ?_ ?_ h (k := "inference_profile_version_id") rfl rfl <;> simp
  rw [stage.inferenceProfile.versionId_stripped,
    stage'.inferenceProfile.versionId_stripped] at hprofile
  refine ⟨?_, ?_, hprofile⟩
  · refine str_getD_eq ?_ ?_ h (k := "structured_output_schema_hash") rfl rfl <;> simp
  · refine str_getD_eq ?_ ?_ h (k := "input_manifest_hash") rfl rfl <;> simp

/-! ## Manifests -/

theorem canonical_inputs_eq {targets targets' : List AnalysisTargetInput}
    {context context' : List (String × Json)} {schemaHash schemaHash' : String}
    {rendered rendered' : RenderedPrompt}
    (h : (sentContent stage targets context schemaHash rendered).canonical =
      (sentContent stage' targets' context' schemaHash' rendered').canonical) :
    (Json.obj (manifestInputs stage targets context rendered)).canonical =
      (Json.obj (manifestInputs stage' targets' context' rendered')).canonical := by
  rw [sentContent, sentContent, manifestContent, manifestContent] at h
  have hinputs := canonical_getD_eq (by simp) (by simp) h "inputs"
  rw [← Json.canonical_canonical (.obj (manifestInputs stage targets context rendered)),
    ← Json.canonical_canonical (.obj (manifestInputs stage' targets' context' rendered')),
    Json.canonical_obj (manifestInputs stage targets context rendered),
    Json.canonical_obj (manifestInputs stage' targets' context' rendered')]
  exact hinputs

theorem getD_renderedPrompt (stage : AnalysisStageTemplateVersion)
    (targets : List AnalysisTargetInput) (context : List (String × Json))
    (rendered : RenderedPrompt) :
    getD (manifestInputs stage targets context rendered) "rendered_prompt" =
      .obj [("system", .str rendered.systemPrompt), ("user", .str rendered.userPrompt)] := by
  rw [manifestInputs]
  cases stage.inputPolicy.sourceChannelContext <;> rfl

/-- The items of the targets and the prompts are those of the manifest. -/
theorem manifestInputs_eq {targets targets' : List AnalysisTargetInput}
    {context context' : List (String × Json)} {rendered rendered' : RenderedPrompt}
    (h : (Json.obj (manifestInputs stage targets context rendered)).canonical =
      (Json.obj (manifestInputs stage' targets' context' rendered')).canonical) :
    targets.map (fun target => (manifestItem stage.inputPolicy target).canonical) =
        targets'.map (fun target => (manifestItem stage'.inputPolicy target).canonical) ∧
      rendered.systemPrompt = rendered'.systemPrompt ∧
      rendered.userPrompt = rendered'.userPrompt := by
  have hkeys := nodup_keys_manifestInputs stage targets context rendered
  have hkeys' := nodup_keys_manifestInputs stage' targets' context' rendered'
  have hget := canonical_getD_eq hkeys hkeys' h
  have htargets : (Json.arr (targets.map (manifestItem stage.inputPolicy))).canonical =
      (Json.arr (targets'.map (manifestItem stage'.inputPolicy))).canonical := hget "targets"
  rw [Json.canonical_arr, Json.canonical_arr, List.map_map, List.map_map] at htargets
  have hprompts := hget "rendered_prompt"
  rw [getD_renderedPrompt, getD_renderedPrompt] at hprompts
  refine ⟨Json.arr.inj htargets, ?_, ?_⟩
  · refine str_getD_eq ?_ ?_ hprompts (k := "system") rfl rfl <;> simp
  · refine str_getD_eq ?_ ?_ hprompts (k := "user") rfl rfl <;> simp

/-! ## Targets -/

theorem manifestItem_eq {policy policy' : StageInputPolicy} {target target' : AnalysisTargetInput}
    (h : (manifestItem policy target).canonical = (manifestItem policy' target').canonical) :
    target.targetId = target'.targetId ∧
      (sentMedia policy target).canonical = (sentMedia policy' target').canonical := by
  obtain ⟨entries, hentries, hkeys, hid, hmedia⟩ := exists_manifestItem policy target
  obtain ⟨entries', hentries', hkeys', hid', hmedia'⟩ := exists_manifestItem policy' target'
  rw [hentries, hentries'] at h
  refine ⟨str_getD_eq hkeys hkeys' h hid hid', ?_⟩
  rw [← hmedia, ← hmedia']
  exact canonical_getD_eq hkeys hkeys' h "media"

/-- What two lists share item by item, they share in what it determines. -/
theorem map_eq_map_of_imp {α β γ : Type} {f f' : α → β} {g g' : α → γ} {l l' : List α}
    (himp : ∀ a a', f a = f' a' → g a = g' a') (h : l.map f = l'.map f') : l.map g = l'.map g' := by
  rw [← List.forall₂_eq_eq_eq, List.forall₂_map_left_iff, List.forall₂_map_right_iff] at h ⊢
  exact h.imp himp

/-! ## Requests -/

/-- What two calls send the model is the same. -/
structure SameRequest (stage stage' : AnalysisStageTemplateVersion)
    (targets targets' : List AnalysisTargetInput) (request request' : InferenceRequest) : Prop where
  systemPrompt : request.systemPrompt = request'.systemPrompt
  userPrompt : request.userPrompt = request'.userPrompt
  targetIds : targets.map (·.targetId) = targets'.map (·.targetId)
  items : targets.map (fun target => (manifestItem stage.inputPolicy target).canonical) =
    targets'.map fun target => (manifestItem stage'.inputPolicy target).canonical
  media : targets.map (fun target => (sentMedia stage.inputPolicy target).canonical) =
    targets'.map fun target => (sentMedia stage'.inputPolicy target).canonical
  profile : request.profile = request'.profile
  responseSchema : request.responseSchema.canonical = request'.responseSchema.canonical
  body : Json.canonical <$> requestBody request = Json.canonical <$> requestBody request'

/-- A body is a matter of the profile, the prompts, the content of the manifest and the schema. -/
theorem canonical_requestBody_eq {request request' : InferenceRequest}
    (hprofile : request.profile = request'.profile)
    (hsystem : request.systemPrompt = request'.systemPrompt)
    (huser : request.userPrompt = request'.userPrompt)
    (hcontent : request.inputManifest.content = request'.inputManifest.content)
    (hschema : request.responseSchema.canonical = request'.responseSchema.canonical) :
    Json.canonical <$> requestBody request = Json.canonical <$> requestBody request' := by
  have huserContent : userContent request = userContent request' := by
    rw [userContent, userContent, hcontent, huser]
  have hformat : (Json.obj [("type", .str "json_schema"),
        ("json_schema", .obj [("name", .str "tgcurator_analysis"), ("strict", .bool true),
          ("schema", request.responseSchema)])]).canonical =
      (Json.obj [("type", .str "json_schema"),
        ("json_schema", .obj [("name", .str "tgcurator_analysis"), ("strict", .bool true),
          ("schema", request'.responseSchema)])]).canonical := by
    simp only [Json.canonical_obj, Json.canonicalEntries, List.map_cons, List.map_nil, hschema]
  rw [requestBody, requestBody, hprofile, hsystem, huserContent]
  split_ifs
  · rfl
  all_goals
    refine congrArg Except.ok ?_
    rw [Json.canonical_obj, Json.canonical_obj, Json.canonicalEntries, Json.canonicalEntries]
    simp only [List.map_append, List.map_cons, hformat]

/-! ## Keys -/

variable (sha256 : String → String) (floatText : ℚ → String)

/-- The values that are hashed for a call with a key. -/
def hashedValues (stage : AnalysisStageTemplateVersion) (targets : List AnalysisTargetInput)
    (context : List (String × Json)) (call : PreparedAnalysisCall) (key : StageCacheKey) :
    List Json :=
  [call.schema.document,
    sentContent stage targets context call.schema.schemaHash
      ⟨call.request.systemPrompt, call.request.userPrompt⟩,
    sentPayload stage key.scopeIdentity call.schema.schemaHash
      call.request.inputManifest.inputManifestHash]

/-- SHA-256 has no collision on the texts of the values, and their texts tell their canonical
forms apart. -/
structure CollisionFree (values : List Json) : Prop where
  sha256_eq : ∀ v ∈ values, ∀ w ∈ values,
    sha256 (String.ofList (jsonText floatText v.canonical)) =
      sha256 (String.ofList (jsonText floatText w.canonical)) →
    jsonText floatText v.canonical = jsonText floatText w.canonical
  text_eq : ∀ v ∈ values, ∀ w ∈ values,
    jsonText floatText v.canonical = jsonText floatText w.canonical → v.canonical = w.canonical

variable {sha256 : String → String} {floatText : ℚ → String}

theorem canonicalHash_eq_ok {value : Json} {hash : String}
    (h : canonicalHash sha256 floatText value = .ok hash) :
    hash = sha256 (String.ofList (jsonText floatText value.canonical)) := by
  unfold canonicalHash canonicalJson at h
  obtain ⟨text, htext, h⟩ := bind_eq_ok.mp h
  obtain ⟨_, -, htext⟩ := bind_eq_ok.mp htext
  rw [← Except.ok.inj h, ← Except.ok.inj htext, canonicalText]

/-- Values with one hash have one canonical form. -/
theorem CollisionFree.canonical_eq {values : List Json}
    (h : CollisionFree sha256 floatText values) {v w : Json} (hv : v ∈ values) (hw : w ∈ values)
    {hash : String} (hhash : hash = sha256 (String.ofList (jsonText floatText v.canonical)))
    (hhash' : hash = sha256 (String.ofList (jsonText floatText w.canonical))) :
    v.canonical = w.canonical := by
  refine h.text_eq v hv w hw (h.sha256_eq v hv w hw ?_)
  rw [← hhash, ← hhash']

/-- Values with different digests have no collision. -/
theorem collisionFree_of_nodup {values : List Json} (h : (values.map fun v =>
    sha256 (String.ofList (jsonText floatText v.canonical))).Nodup) :
    CollisionFree sha256 floatText (values ++ values) := by
  have hinj := List.inj_on_of_nodup_map h
  have hmem : ∀ v, v ∈ values ++ values → v ∈ values := by simp
  constructor
  · intro v hv w hw heq
    rw [hinj (hmem v hv) (hmem w hw) heq]
  · intro v hv w hw heq
    rw [hinj (hmem v hv) (hmem w hw) (by rw [heq])]

theorem schemaHash_of_build {versionId : String} {labelSet : Output.LabelSetVersion}
    {executionMode : ExecutionMode} {policy : StructuredOutputPolicy} {targetIds : List String}
    {schema : StructuredOutputSchema}
    (h : build sha256 floatText versionId labelSet executionMode policy targetIds = .ok schema) :
    schema.schemaHash =
      sha256 (String.ofList (jsonText floatText schema.document.canonical)) := by
  unfold build at h
  obtain ⟨_, -, h⟩ := bind_eq_ok.mp h
  obtain ⟨_, -, h⟩ := bind_eq_ok.mp h
  obtain ⟨document, -, h⟩ := bind_eq_ok.mp h
  rw [← Except.ok.inj h]
  rfl

variable {targets targets' : List AnalysisTargetInput} {context context' : List (String × Json)}
  {attempt attempt' : ℕ} {call call' : PreparedAnalysisCall} {key key' : StageCacheKey}

/-- Calls with one cache key send the model the same, if the values hashed for them have no
collision and the version of a profile says what the profile is. -/
theorem sameRequest_of_key
    (hcall : prepare sha256 floatText stage targets context attempt = .ok call)
    (hcall' : prepare sha256 floatText stage' targets' context' attempt' = .ok call')
    (hkey : call.cacheKey = some key) (hkey' : call'.cacheKey = some key')
    (hvalue : key.value = key'.value)
    (hcollision : CollisionFree sha256 floatText
      (hashedValues stage targets context call key ++
        hashedValues stage' targets' context' call' key'))
    (hprofile : stage.inferenceProfile.versionId = stage'.inferenceProfile.versionId →
      stage.inferenceProfile = stage'.inferenceProfile) :
    SameRequest stage stage' targets targets' call.request call'.request := by
  have hp := prepared_of_ok hcall
  have hp' := prepared_of_ok hcall'
  have hpayload := hp.key key hkey
  have hpayload' := hp'.key key' hkey'
  rw [← hvalue] at hpayload'
  obtain ⟨hschema, hmanifest, hversion⟩ := sentPayload_eq
    (hcollision.canonical_eq (by simp [hashedValues]) (by simp [hashedValues])
      (canonicalHash_eq_ok hpayload) (canonicalHash_eq_ok hpayload'))
  have hdocument : call.schema.document.canonical = call'.schema.document.canonical :=
    hcollision.canonical_eq (by simp [hashedValues]) (by simp [hashedValues])
      (schemaHash_of_build hp.schema) (hschema ▸ schemaHash_of_build hp'.schema)
  have hcontent := hcollision.canonical_eq (by simp [hashedValues]) (by simp [hashedValues])
    (canonicalHash_eq_ok hp.hash) (canonicalHash_eq_ok (hmanifest ▸ hp'.hash))
  obtain ⟨hitems, hsystem, huser⟩ := manifestInputs_eq (canonical_inputs_eq hcontent)
  have hprofiles : call.request.profile = call'.request.profile := by
    rw [hp.profile, hp'.profile, hprofile hversion]
  have hresponse : call.request.responseSchema.canonical =
      call'.request.responseSchema.canonical := by
    rw [hp.responseSchema, hp'.responseSchema, hdocument]
  exact {
    systemPrompt := hsystem
    userPrompt := huser
    targetIds := map_eq_map_of_imp (fun _ _ h => (manifestItem_eq h).1) hitems
    items := hitems
    media := map_eq_map_of_imp (fun _ _ h => (manifestItem_eq h).2) hitems
    profile := hprofiles
    responseSchema := hresponse
    body := canonical_requestBody_eq hprofiles hsystem huser
      (by rw [hp.content, hp'.content, hcontent]) hresponse }

end

/-! ## One photo, two calls -/

theorem prepare_photo_of_context {context : List (String × Json)} {attempt : ℕ}
    {call : PreparedAnalysisCall}
    (h : prepare photoDigest photoFloats photoStage [photoRows.input photoIds] [] 1 = .ok call) :
    prepare photoDigest photoFloats photoStage [photoRows.input photoIds] context attempt =
      .ok { call with request := { call.request with attempt } } := by
  have hcompose : ∀ schema, compose photoDigest photoFloats photoStage
      [photoRows.input photoIds] schema context =
        compose photoDigest photoFloats photoStage [photoRows.input photoIds] schema [] :=
    fun _ => rfl
  unfold prepare at h ⊢
  obtain ⟨schema, hschema, h⟩ := input_bind_eq_ok.mp h
  obtain ⟨composed, hcomposed, h⟩ := input_bind_eq_ok.mp h
  obtain ⟨cacheKey, hkey, h⟩ := input_bind_eq_ok.mp h
  obtain rfl := Except.ok.inj h
  exact input_bind_eq_ok.mpr ⟨schema, hschema, input_bind_eq_ok.mpr
    ⟨composed, (hcompose schema).trans hcomposed, input_bind_eq_ok.mpr ⟨cacheKey, hkey, rfl⟩⟩⟩

/-- The photo is sent again, with another context. -/
theorem sameRequest_of_key_photo : ∃ call call' key,
    prepare photoDigest photoFloats photoStage [photoRows.input photoIds] [] 1 = .ok call ∧
      prepare photoDigest photoFloats photoStage [photoRows.input photoIds]
        [("title", .str "Cats")] 2 = .ok call' ∧
      call.cacheKey = some key ∧ call'.cacheKey = some key ∧
      SameRequest photoStage photoStage [photoRows.input photoIds] [photoRows.input photoIds]
        call.request call'.request := by
  obtain ⟨call, hcall⟩ := exists_prepare_photo
  have hhashes := prepare_photo
  rw [hcall] at hhashes
  obtain ⟨hschema, hmanifest, hkey⟩ : call.schema.schemaHash = photoSchemaHash ∧
      call.request.inputManifest.inputManifestHash = photoManifestHash ∧
      call.cacheKey.map (·.value) = some photoKeyHash := by
    simpa [Except.toOption] using hhashes
  obtain ⟨key, hkey, hvalue⟩ := Option.map_eq_some_iff.mp hkey
  refine ⟨call, _, key, hcall, prepare_photo_of_context hcall, hkey, hkey, ?_⟩
  have hp := prepared_of_ok hcall
  have hvalues : (hashedValues photoStage [photoRows.input photoIds] [] call key).map
      (fun v => photoDigest (String.ofList (jsonText photoFloats v.canonical))) =
        [photoSchemaHash, photoManifestHash, photoKeyHash] := by
    rw [hashedValues, List.map_cons, List.map_cons, List.map_cons,
      ← schemaHash_of_build hp.schema, ← canonicalHash_eq_ok hp.hash,
      ← canonicalHash_eq_ok (hp.key key hkey), hschema, hmanifest, hvalue]
    rfl
  have hcollision : CollisionFree photoDigest photoFloats
      (hashedValues photoStage [photoRows.input photoIds] [] call key ++
        hashedValues photoStage [photoRows.input photoIds] [] call key) := by
    refine collisionFree_of_nodup ?_
    rw [hvalues]
    decide
  exact sameRequest_of_key hcall (prepare_photo_of_context hcall) hkey hkey rfl hcollision
    fun _ => rfl

end TgCurator.Inference
