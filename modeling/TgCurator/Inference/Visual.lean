import TgCurator.Inference.CacheKey

/-!
# Keys of visual results

Under `message_visual` the scope identity of a cache key is the visual identity of the message,
and a hit is copied to the new target. The key also holds the hash of the manifest, and every item
of a manifest names its target and its message. So calls for two messages that differ in nothing
but their ids have different keys (`cacheKey_eq_iff`), unless the hash collides.
-/

namespace TgCurator.Inference

open Output

/-- The same target under other ids. -/
def AnalysisTargetInput.withIds (target : AnalysisTargetInput) (targetId messageId : String) :
    AnalysisTargetInput :=
  { target with targetId, messageId }

/-- A stage whose inputs are media only. -/
def StageInputPolicy.MediaOnly (policy : StageInputPolicy) : Prop :=
  policy = { media := true }

variable {sha256 : String → String} {floatText : ℚ → String}
  {stage : AnalysisStageTemplateVersion} {targets : List AnalysisTargetInput}
  {context : List (String × Json)} {attempt attempt' : ℕ} {call call' : PreparedAnalysisCall}

/-! ## Prepared calls -/

/-- The attempt is only noted in the request. -/
theorem prepare_attempt (h : prepare sha256 floatText stage targets context attempt = .ok call)
    (attempt' : ℕ) : prepare sha256 floatText stage targets context attempt' =
      .ok { call with request := { call.request with attempt := attempt' } } := by
  unfold prepare at h ⊢
  obtain ⟨schema, hschema, h⟩ := input_bind_eq_ok.mp h
  obtain ⟨composed, hcomposed, h⟩ := input_bind_eq_ok.mp h
  obtain ⟨cacheKey, hkey, h⟩ := input_bind_eq_ok.mp h
  obtain rfl := Except.ok.inj h
  exact input_bind_eq_ok.mpr ⟨schema, hschema, input_bind_eq_ok.mpr
    ⟨composed, hcomposed, input_bind_eq_ok.mpr ⟨cacheKey, hkey, rfl⟩⟩⟩

/-- A stage with a cache policy has keys. -/
theorem exists_cacheKey (h : prepare sha256 floatText stage targets context attempt = .ok call)
    (hpolicy : stage.cachePolicy ≠ .none) : ∃ key, call.cacheKey = some key := by
  unfold prepare at h
  obtain ⟨schema, -, h⟩ := input_bind_eq_ok.mp h
  obtain ⟨composed, -, h⟩ := input_bind_eq_ok.mp h
  obtain ⟨cacheKey, hkey, h⟩ := input_bind_eq_ok.mp h
  obtain rfl := Except.ok.inj h
  have hkey := lift_eq_ok.mp hkey
  rw [buildCacheKey, if_neg hpolicy] at hkey
  obtain ⟨identity, -, hkey⟩ := bind_eq_ok.mp hkey
  obtain ⟨_, -, hkey⟩ := bind_eq_ok.mp hkey
  obtain ⟨_, -, hkey⟩ := bind_eq_ok.mp hkey
  obtain ⟨_, -, hkey⟩ := bind_eq_ok.mp hkey
  obtain ⟨_, -, hkey⟩ := bind_eq_ok.mp hkey
  obtain ⟨_, -, hkey⟩ := bind_eq_ok.mp hkey
  obtain ⟨_, -, hkey⟩ := bind_eq_ok.mp hkey
  obtain ⟨value, -, hkey⟩ := bind_eq_ok.mp hkey
  exact ⟨_, (Except.ok.inj hkey).symm⟩

/-- The targets of a message mode are messages. -/
theorem targetId_eq_messageId
    (h : prepare sha256 floatText stage targets context attempt = .ok call)
    (hmode : isMessageMode stage.executionMode = true) {target : AnalysisTargetInput}
    (htarget : target ∈ targets) : target.targetId = target.messageId := by
  unfold prepare at h
  obtain ⟨schema, -, h⟩ := input_bind_eq_ok.mp h
  obtain ⟨composed, hcomposed, -⟩ := input_bind_eq_ok.mp h
  unfold compose at hcomposed
  obtain ⟨_, hvalid, -⟩ := input_bind_eq_ok.mp hcomposed
  unfold validateTargetInputs at hvalid
  obtain ⟨_, -, hvalid⟩ := input_bind_eq_ok.mp hvalid
  obtain ⟨_, -, hvalid⟩ := input_bind_eq_ok.mp hvalid
  obtain ⟨_, -, hvalid⟩ := input_bind_eq_ok.mp hvalid
  obtain ⟨_, -, hvalid⟩ := input_bind_eq_ok.mp hvalid
  rw [if_pos hmode] at hvalid
  obtain ⟨_, hids, -⟩ := input_bind_eq_ok.mp hvalid
  have hids := ensure_eq_ok.mp (lift_eq_ok.mp hids)
  simpa using List.all_eq_true.mp hids target htarget

/-! ## Messages with other ids -/

variable {target : AnalysisTargetInput} {targetId messageId : String}

/-- Two calls for targets that differ in nothing but their ids share their key exactly if the ids
are the same, provided that SHA-256 has no collision on the values that are hashed for them. -/
theorem cacheKey_eq_iff (hpolicy : stage.cachePolicy = .messageVisual)
    (hcall : prepare sha256 floatText stage [target] context attempt = .ok call)
    (hcall' : prepare sha256 floatText stage [target.withIds targetId messageId] context attempt' =
      .ok call')
    (hcollision : ∀ key ∈ call.cacheKey, ∀ key' ∈ call'.cacheKey,
      CollisionFree sha256 floatText (hashedValues stage [target] context call key ++
        hashedValues stage [target.withIds targetId messageId] context call' key')) :
    call.cacheKey = call'.cacheKey ↔ targetId = target.targetId ∧ messageId = target.messageId := by
  have hmode : isMessageMode stage.executionMode = true :=
    stage.scope_mode.mp (stage.cache_message (.inr hpolicy))
  constructor
  · intro hkeys
    obtain ⟨key, hkey⟩ := exists_cacheKey hcall (by simp [hpolicy])
    have hkey' := hkeys.symm.trans hkey
    have hsame := sameRequest_of_key hcall hcall' hkey hkey' rfl
      (hcollision key hkey key hkey') fun _ => rfl
    have htarget : target.targetId = targetId := (List.cons.inj hsame.targetIds).1
    have hmessage := targetId_eq_messageId hcall hmode (List.mem_singleton_self _)
    have hmessage' : targetId = messageId :=
      targetId_eq_messageId hcall' hmode (List.mem_singleton_self _)
    exact ⟨htarget.symm, by rw [← hmessage', ← htarget, hmessage]⟩
  · rintro ⟨rfl, rfl⟩
    have hcall'' := prepare_attempt hcall attempt'
    rw [← Except.ok.inj (hcall''.symm.trans hcall')]

/-! ## A repost -/

/-- A label set with one label of messages. -/
def repostLabels : Output.LabelSetVersion where
  versionId := "v1"
  bindings := [⟨⟨"d1", "cat", "Cat", "A cat", .global, false⟩, .float (1 / 2), 0, "",
    inUnitInterval_half⟩]
  nonempty := List.cons_ne_nil _ _
  versionIds_nodup := List.nodup_singleton _
  keys_nodup := List.nodup_singleton _
  orders_nodup := List.nodup_singleton _

theorem repost_mode : LabelScope.global = .global ↔ isMessageMode .singleMessage = true := by
  simp [isMessageMode]

/-- A stage that labels a message by its media. -/
def repostStage : AnalysisStageTemplateVersion where
  versionId := "v1"
  targetScope := .global
  executionMode := .singleMessage
  prompt := { photoPrompt with userPromptTemplate := "Cat?" }
  labelSet := repostLabels
  structuredOutputPolicy := {}
  inputPolicy := { media := true }
  inferenceProfile := photoProfile
  cachePolicy := .messageVisual
  timeoutSeconds := 60
  versionId_nonblank := isBlank_v1
  scope_mode := repost_mode
  batch_size _ := rfl
  cache_asset h := by cases h
  cache_message _ := rfl
  prompt_available := photo_variables
  media_vision _ := List.mem_singleton_self _

/-- The text of the id of the message and of the repost. -/
def repostIds (repost : Bool) : String :=
  if repost then "m2" else "m1"

/-- A message with one photo. -/
def repostTarget : AnalysisTargetInput where
  targetId := repostIds false
  messageId := repostIds false
  media := [[("kind", .str "image")]]
  visualIdentity := some "v1"

/-- The message or its repost, as a target. -/
def repostInput (repost : Bool) : AnalysisTargetInput :=
  repostTarget.withIds (repostIds repost) (repostIds repost)

/-- SHA-256 of the schema. -/
def repostSchemaHash : String :=
  "ae1d0d9106d541e8fa5bdd9f375c95bbc5c06afa87b5871af76b9eabcdab68a7"

/-- SHA-256 of the manifest. -/
def repostManifestHash (repost : Bool) : String :=
  if repost then "481fc6f885530fe29b5a766c36d735562c18c8ea655d8d83632ea025dfdf4f01"
  else "21f320fd87341ee0d97a064922d08570d383728fcdbd4a286b8c8999cd6ca218"

/-- SHA-256 of the payload of the cache key. -/
def repostKeyHash (repost : Bool) : String :=
  if repost then "f7666277a76538ac369c8a1da1090cd3610a90140abf9cb4bd6424217a3d3145"
  else "70939f0dc2a68aca5698adb99518bf202664e777cb2788fb16d7fccd271116e5"

/-- SHA-256 of the five texts, told apart by the first letter of their first key, by the last
digit of the id in a manifest and by the first digit of the hash in a payload. -/
def repostDigestOf (text : List Char) : String :=
  match text[2]? with
  | some '$' => repostSchemaHash
  | some 'e' => repostManifestHash (text[197]? == some '2')
  | _ => repostKeyHash (text[92]? == some '4')

/-- The same, of a string. -/
def repostDigest (text : String) : String :=
  repostDigestOf text.toList

theorem repostDigest_canonicalText (value : Json) :
    repostDigest (canonicalText photoFloats value) =
      repostDigestOf (jsonText photoFloats value.canonical) :=
  congrArg repostDigestOf String.toList_ofList

/-- The hash without the text it is of. -/
theorem canonicalHash_repost (value : Json) :
    canonicalHash repostDigest photoFloats value = (do
      ensure value.isDumpable "value must be finite JSON-compatible data"
      return repostDigestOf (jsonText photoFloats value.canonical)) := by
  rw [canonicalHash, canonicalJson]
  cases value.isDumpable with
  | false => rfl
  | true => exact congrArg Except.ok (repostDigest_canonicalText _)

theorem prepare_repost : ∀ repost,
    (prepare repostDigest photoFloats repostStage [repostInput repost] [] 1).toOption.map
      (fun call => (call.schema.schemaHash, call.request.inputManifest.inputManifestHash,
        call.cacheKey.map (·.value))) =
    some (repostSchemaHash, repostManifestHash repost, some (repostKeyHash repost)) := by
  unfold prepare build compose composeManifest InputManifest.create cacheScopeIdentity buildCacheKey
  -- the texts that are hashed are not built
  simp only [repostDigest_canonicalText, canonicalHash_repost]
  decide +kernel

theorem exists_prepare_repost (repost : Bool) : ∃ call,
    prepare repostDigest photoFloats repostStage [repostInput repost] [] 1 = .ok call ∧
      call.schema.schemaHash = repostSchemaHash ∧
      call.request.inputManifest.inputManifestHash = repostManifestHash repost ∧
      call.cacheKey.map (·.value) = some (repostKeyHash repost) := by
  obtain ⟨call, hcall, hhashes⟩ := Option.map_eq_some_iff.mp (prepare_repost repost)
  obtain ⟨hschema, hmanifest, hkey⟩ :
      call.schema.schemaHash = repostSchemaHash ∧
        call.request.inputManifest.inputManifestHash = repostManifestHash repost ∧
        call.cacheKey.map (·.value) = some (repostKeyHash repost) := by
    simpa using hhashes
  exact ⟨call, toOption_eq_some.mp hcall, hschema, hmanifest, hkey⟩

/-- A repost has a key of its own. -/
theorem repost_key_ne : ¬ ∀ (sha256 : String → String) (floatText : ℚ → String)
    (stage : AnalysisStageTemplateVersion) (target : AnalysisTargetInput)
    (targetId messageId : String) (context : List (String × Json)) (attempt : ℕ)
    (call call' : PreparedAnalysisCall), stage.cachePolicy = .messageVisual →
    stage.inputPolicy.MediaOnly →
    prepare sha256 floatText stage [target] context attempt = .ok call →
    prepare sha256 floatText stage [target.withIds targetId messageId] context attempt =
      .ok call' → call.cacheKey = call'.cacheKey := by
  intro h
  obtain ⟨call, hcall, -, -, hkey⟩ := exists_prepare_repost false
  obtain ⟨call', hcall', -, -, hkey'⟩ := exists_prepare_repost true
  have hkeys := h repostDigest photoFloats repostStage repostTarget (repostIds true)
    (repostIds true) [] 1 call call' rfl rfl hcall hcall'
  rw [hkeys, hkey'] at hkey
  exact absurd (Option.some.inj hkey) (by decide)

/-- The message again, on another attempt. -/
theorem cacheKey_eq_iff_again : ∃ call call',
    prepare repostDigest photoFloats repostStage [repostTarget] [] 1 = .ok call ∧
      prepare repostDigest photoFloats repostStage
        [repostTarget.withIds (repostIds false) (repostIds false)] [] 2 = .ok call' ∧
      (call.cacheKey = call'.cacheKey ↔
        repostIds false = repostTarget.targetId ∧ repostIds false = repostTarget.messageId) := by
  obtain ⟨call, hcall, hschema, hmanifest, hkeys⟩ := exists_prepare_repost false
  refine ⟨call, _, hcall, prepare_attempt hcall 2, ?_⟩
  refine cacheKey_eq_iff rfl hcall (prepare_attempt hcall 2) fun key hkey key' hkey' => ?_
  obtain rfl := Option.some.inj (hkey.symm.trans hkey')
  obtain ⟨_, hkey'', hvalue⟩ := Option.map_eq_some_iff.mp hkeys
  obtain rfl := Option.some.inj (hkey.symm.trans hkey'')
  have hp : Prepared repostDigest photoFloats repostStage [repostTarget] [] call :=
    prepared_of_ok hcall
  have hvalues : (hashedValues repostStage [repostTarget] [] call key).map
      (fun v => repostDigest (String.ofList (jsonText photoFloats v.canonical))) =
        [repostSchemaHash, repostManifestHash false, repostKeyHash false] := by
    rw [hashedValues, List.map_cons, List.map_cons, List.map_cons,
      ← schemaHash_of_build hp.schema, ← canonicalHash_eq_ok hp.hash,
      ← canonicalHash_eq_ok (hp.key key hkey), hschema, hmanifest, hvalue]
    rfl
  exact collisionFree_of_nodup (by rw [hvalues]; decide)

end TgCurator.Inference
