import TgCurator.Inference.Preparation
import TgCurator.Media.Archive

/-!
# Visual evidence

`_load_media_snapshot` of `infrastructure/database/analysis_repository.py`: the media of a stage
snapshot, from the ready images and videos of a message. Its items name storage keys, and
`_image_urls` looks for `provider_url` and `data_url`, which none of them has
(`imageUrls_of_media`).

`evidenceReaches_iff`: a request body shows the visual evidence of its targets only if there is
none. `image_dropped` is a ready image that is not shown.
-/

namespace TgCurator.Inference

open Output

/-! ## The media of a snapshot -/

/-- The target of a stage run. -/
inductive StageTarget
  | message
  | imageAsset (id : ℕ)
  | videoAsset (id : ℕ)
  deriving DecidableEq

/-- The ready assets of a message that meet a condition, by id. -/
def readyAssets {D : Type} (t : ArchiveTables D) (messageId : ℕ) (selects : ℕ → Bool) :
    List (ℕ × D) :=
  ((t.assets.filter fun e => e.2.messageId = messageId && e.2.archiveState = .ready &&
    selects e.1).insertionSort fun a b => a.1 ≤ b.1).filterMap fun e =>
      e.2.archived.map fun archived => (e.1, archived)

variable (uuidText : ℕ → String)

/-- `_image_manifest`. -/
def imageManifest (id : ℕ) (image : ImageArchive) : List (String × Json) :=
  [("kind", .str "image"),
    ("asset_id", .str (uuidText id)),
    ("storage_backend", .str image.storageBackend),
    ("storage_key", .str image.storageKey),
    ("content_type", .str image.contentType),
    ("width", .num (.int image.width)),
    ("height", .num (.int image.height)),
    ("source_sha256", .str image.sourceSha256),
    ("archive_sha256", .str image.archiveSha256),
    ("perceptual_hash", .str image.perceptualHash),
    ("archive_size_bytes", .num (.int image.archiveSizeBytes))]

/-- An integer or null. -/
def optionalInt : Option ℕ → Json
  | some n => .num (.int n)
  | none => .null

/-- The item of a frame in `_video_manifest`. -/
def frameManifest (frame : VideoFrameRecord) : Json :=
  .obj [("frame_role", .str frame.frameRole),
    ("frame_index", .num (.int frame.frameIndex)),
    ("timestamp_seconds", .num frame.timestampSeconds),
    ("storage_backend", .str frame.storageBackend),
    ("storage_key", .str frame.storageKey),
    ("content_type", .str frame.contentType),
    ("width", .num (.int frame.width)),
    ("height", .num (.int frame.height)),
    ("source_sha256", .str frame.sourceSha256),
    ("archive_sha256", .str frame.archiveSha256),
    ("perceptual_hash", .str frame.perceptualHash),
    ("archive_size_bytes", .num (.int frame.archiveSizeBytes))]

/-- The order of the frames of a video: by role, then index. -/
abbrev FrameLE (a b : VideoFrameRecord) : Prop :=
  a.frameRole < b.frameRole ∨ (a.frameRole = b.frameRole ∧ a.frameIndex ≤ b.frameIndex)

/-- The frames of a video, in order. -/
def orderedFrames (video : VideoArchive) : List VideoFrameRecord :=
  video.frames.insertionSort FrameLE

/-- `_video_manifest`. -/
def videoManifest (id : ℕ) (video : VideoArchive) : List (String × Json) :=
  [("kind", .str "video"),
    ("asset_id", .str (uuidText id)),
    ("source_content_type", optionalString video.sourceContentType),
    ("source_size_bytes", .num (.int video.sourceSizeBytes)),
    ("source_sha256", .str video.sourceSha256),
    ("duration_seconds", .num video.probe.durationSeconds),
    ("source_width", optionalInt video.probe.width),
    ("source_height", optionalInt video.probe.height),
    ("frames", .arr ((orderedFrames video).map frameManifest))]

/-- The rows a target of a snapshot is built from. -/
structure TargetRows where
  target : StageTarget
  messageId : ℕ
  images : ImageArchiveTables
  videos : VideoArchiveTables
  text : Option String
  telegramMetadata : List (String × Json)
  previousResults : List (String × Json)
  visualFingerprint : Option String

namespace TargetRows

/-- The images of `_load_media_snapshot`. -/
def readyImages (rows : TargetRows) : List (ℕ × ImageArchive) :=
  match rows.target with
  | .message => readyAssets rows.images rows.messageId fun _ => true
  | .imageAsset id => readyAssets rows.images rows.messageId (· = id)
  | .videoAsset _ => []

/-- The videos of `_load_media_snapshot`. -/
def readyVideos (rows : TargetRows) : List (ℕ × VideoArchive) :=
  match rows.target with
  | .message => readyAssets rows.videos rows.messageId fun _ => true
  | .imageAsset _ => []
  | .videoAsset id => readyAssets rows.videos rows.messageId (· = id)

/-- The media of `_load_media_snapshot`. -/
def media (rows : TargetRows) : List (List (String × Json)) :=
  rows.readyImages.map (fun e => imageManifest uuidText e.1 e.2) ++
    rows.readyVideos.map fun e => videoManifest uuidText e.1 e.2

/-- The identity of `_load_media_snapshot`. -/
def visualIdentity (rows : TargetRows) : Option String :=
  match rows.target with
  | .message => rows.visualFingerprint
  | .imageAsset _ => rows.readyImages.head?.map fun e =>
      if e.2.archiveSha256 = "" then e.2.perceptualHash else e.2.archiveSha256
  | .videoAsset _ => rows.readyVideos.head?.map fun e => e.2.sourceSha256

/-- The id of the target. -/
def targetId (rows : TargetRows) : ℕ :=
  match rows.target with
  | .message => rows.messageId
  | .imageAsset id | .videoAsset id => id

/-- The target of the snapshot, as `_analysis_inputs` passes it on. -/
def input (rows : TargetRows) : AnalysisTargetInput where
  targetId := uuidText rows.targetId
  messageId := uuidText rows.messageId
  assetId := if rows.target = .message then none else some (uuidText rows.targetId)
  text := rows.text
  telegramMetadata := some rows.telegramMetadata
  media := rows.media uuidText
  previousResults := some rows.previousResults
  visualIdentity := rows.visualIdentity

end TargetRows

/-! ## What is shown -/

/-- A piece of visual evidence. -/
inductive VisualEvidence
  | image (id : ℕ) (image : ImageArchive)
  | frame (videoId : ℕ) (frame : VideoFrameRecord)

/-- The image assets and video frames of a target, in manifest order. -/
def TargetRows.evidence (rows : TargetRows) : List VisualEvidence :=
  rows.readyImages.map (fun e => .image e.1 e.2) ++
    rows.readyVideos.flatMap fun e => (orderedFrames e.2).map (.frame e.1)

/-- Whether a content part of a message is an image. -/
def isImagePart (part : Json) : Bool :=
  match part with
  | .obj entries => isStr (getD entries "type") "image_url"
  | _ => false

/-- The image parts of a message. -/
def messageImages (message : Json) : List Json :=
  match message with
  | .obj entries =>
    match getD entries "content" with
    | .arr parts => parts.filter isImagePart
    | _ => []
  | _ => []

/-- The image parts of a request body. -/
def imageParts (body : Json) : List Json :=
  match body with
  | .obj entries =>
    match getD entries "messages" with
    | .arr messages => messages.flatMap messageImages
    | _ => []
  | _ => []

variable (sha256 : String → String) (floatText : ℚ → String)

/-- The body of the request of a call. -/
def sentBody (stage : AnalysisStageTemplateVersion) (targets : List AnalysisTargetInput)
    (context : List (String × Json)) (attempt : ℕ) : Except CallError Json := do
  let call ← prepare sha256 floatText stage targets context attempt
  requestBody call.request

/-! ## Image URLs -/

theorem getD_canonicalEntries_twice {entries : List (String × Json)}
    (h : (Dict.keys entries).Nodup) (k : String) :
    getD (Json.canonicalEntries (Json.canonicalEntries entries)) k =
      (getD entries k).canonical.canonical := by
  have hkeys := (Json.keys_canonicalEntries_perm entries).nodup_iff.mpr h
  rw [getD_canonicalEntries hkeys, getD_canonicalEntries h]

theorem nodup_keys_manifestInputs (stage : AnalysisStageTemplateVersion)
    (targets : List AnalysisTargetInput) (context : List (String × Json))
    (rendered : RenderedPrompt) :
    (Dict.keys (manifestInputs stage targets context rendered)).Nodup := by
  rw [manifestInputs]
  cases stage.inputPolicy.sourceChannelContext <;> simp

/-- The media in the item of a target. -/
def sentMedia (policy : StageInputPolicy) (target : AnalysisTargetInput) : Json :=
  if policy.media then .arr (target.media.map .obj) else .null

/-- The fields of the item of a target. -/
theorem exists_manifestItem (policy : StageInputPolicy) (target : AnalysisTargetInput) :
    ∃ entries, manifestItem policy target = .obj entries ∧ (Dict.keys entries).Nodup ∧
      getD entries "target_id" = .str target.targetId ∧
      getD entries "media" = sentMedia policy target := by
  obtain ⟨text, telegramMetadata, media, previousResults, sourceChannelContext⟩ := policy
  refine ⟨_, rfl, ?_, rfl, ?_⟩
  · cases text <;> cases telegramMetadata <;> cases media <;> cases previousResults <;> simp
  · cases text <;> cases telegramMetadata <;> cases media <;> cases previousResults <;> rfl

theorem imageUrl?_of_notMem {item : List (String × Json)}
    (hprovider : "provider_url" ∉ Dict.keys item) (hdata : "data_url" ∉ Dict.keys item) :
    imageUrl? (Json.obj item).canonical.canonical = none := by
  have hnull : ∀ name, name ∉ Dict.keys item →
      getD (Json.canonicalEntries (Json.canonicalEntries item)) name = .null := by
    intro name hname
    have hkeys := (Json.keys_canonicalEntries_perm (Json.canonicalEntries item)).trans
      (Json.keys_canonicalEntries_perm item)
    rw [getD, Dict.lookup_eq_none.mpr (mt hkeys.mem_iff.mp hname)]
    rfl
  rw [Json.canonical_obj, Json.canonical_obj, imageUrl?, hnull _ hprovider, hnull _ hdata]
  rfl

/-- Media items without URLs have none in the manifest. -/
theorem imageUrls_of_media {stage : AnalysisStageTemplateVersion}
    {targets : List AnalysisTargetInput} {context : List (String × Json)} {schemaHash : String}
    {rendered : RenderedPrompt} (h : ∀ target ∈ targets, ∀ item ∈ target.media,
      "provider_url" ∉ Dict.keys item ∧ "data_url" ∉ Dict.keys item) :
    imageUrls (sentContent stage targets context schemaHash rendered).canonical = [] := by
  have hcontent : ∀ inputs parameters, getD (Json.canonicalEntries [
      ("manifest_version", .num (.int manifestVersion)),
      ("target_scope", .str stage.targetScope.value),
      ("execution_mode", .str stage.executionMode.value),
      ("target_ids", .arr ((targets.map fun target => strip target.targetId).map .str)),
      ("prompt_version_id", .str (strip stage.prompt.versionId)),
      ("structured_output_schema_hash", .str schemaHash),
      ("inference_profile_version_id", .str (strip stage.inferenceProfile.versionId)),
      ("inputs", .obj inputs), ("provider_parameters", .obj parameters)]) "inputs" =
        (Json.obj inputs).canonical := by
    intro inputs parameters
    rw [getD_canonicalEntries (by simp)]
    rfl
  rw [sentContent, manifestContent, Json.canonical_obj, imageUrls]
  rw [hcontent, Json.canonical_obj]
  dsimp only
  rw [getD_canonicalEntries_twice (nodup_keys_manifestInputs stage targets context rendered)]
  have htargets : getD (manifestInputs stage targets context rendered) "targets" =
      .arr (targets.map (manifestItem stage.inputPolicy)) := rfl
  rw [htargets, Json.canonical_arr, Json.canonical_arr]
  dsimp only
  refine List.flatMap_eq_nil_iff.mpr fun value hvalue => ?_
  simp only [List.map_map, List.mem_map, Function.comp_apply] at hvalue
  obtain ⟨target, htarget, rfl⟩ := hvalue
  obtain ⟨entries, hentries, hnodup, -, hmedia⟩ := exists_manifestItem stage.inputPolicy target
  rw [hentries, Json.canonical_obj, Json.canonical_obj, targetUrls]
  rw [getD_canonicalEntries_twice hnodup, hmedia, sentMedia]
  cases stage.inputPolicy.media with
  | false => rfl
  | true =>
    rw [if_pos rfl, Json.canonical_arr, Json.canonical_arr]
    dsimp only
    refine List.filterMap_eq_nil_iff.mpr fun item hitem => ?_
    simp only [List.map_map, List.mem_map, Function.comp_apply] at hitem
    obtain ⟨item, hitem, rfl⟩ := hitem
    exact imageUrl?_of_notMem (h target htarget item hitem).1 (h target htarget item hitem).2

/-! ## Image parts -/

theorem messageImages_user (request : InferenceRequest) :
    messageImages (.obj [("role", .str "user"), ("content", userContent request)]) =
      (imageUrls request.inputManifest.content).map imagePart := by
  have hcontent : getD [("role", .str "user"), ("content", userContent request)] "content" =
      userContent request := rfl
  rw [messageImages, hcontent, userContent]
  cases imageUrls request.inputManifest.content with
  | nil => rfl
  | cons url urls =>
    have htext : isImagePart (.obj [("type", .str "text"), ("text", .str request.userPrompt)]) =
        false := rfl
    have himages : ∀ part ∈ (url :: urls).map imagePart, isImagePart part = true := by
      rw [List.forall_mem_map]
      exact fun _ _ => rfl
    dsimp only
    rw [List.filter_cons_of_neg (by rw [htext]; exact Bool.false_ne_true),
      List.filter_eq_self.mpr himages]

/-- The image parts of a body are those of the URLs in the manifest. -/
theorem imageParts_requestBody {request : InferenceRequest} {body : Json}
    (h : requestBody request = .ok body) :
    imageParts body = (imageUrls request.inputManifest.content).map imagePart := by
  rw [requestBody] at h
  split_ifs at h
  all_goals
    obtain rfl := Except.ok.inj h
    rw [← messageImages_user]
    exact List.append_nil _

/-! ## Evidence -/

theorem keys_media {rows : TargetRows} {item : List (String × Json)}
    (h : item ∈ rows.media uuidText) :
    "provider_url" ∉ Dict.keys item ∧ "data_url" ∉ Dict.keys item := by
  rcases List.mem_append.mp h with h | h
  · obtain ⟨e, -, rfl⟩ := List.mem_map.mp h
    simp [imageManifest]
  · obtain ⟨e, -, rfl⟩ := List.mem_map.mp h
    simp [videoManifest]

/-- No body shows an image of a snapshot. -/
theorem imageParts_sentBody {stage : AnalysisStageTemplateVersion} {rows : List TargetRows}
    {context : List (String × Json)} {attempt : ℕ} {body : Json}
    (h : sentBody sha256 floatText stage (rows.map (TargetRows.input uuidText)) context attempt =
      .ok body) : imageParts body = [] := by
  obtain ⟨call, hcall, hbody⟩ := input_bind_eq_ok.mp h
  rw [imageParts_requestBody hbody, (prepared_of_ok hcall).content, imageUrls_of_media]
  · rfl
  · rw [List.forall_mem_map]
    exact fun row _ item hitem => keys_media uuidText hitem

/-- A body shows the visual evidence of a snapshot, piece by piece, only where there is none:
whatever it means that a part shows a piece. -/
theorem evidenceReaches_iff (stage : AnalysisStageTemplateVersion)
    (rows : List TargetRows) (context : List (String × Json)) (attempt : ℕ)
    (shows : Json → VisualEvidence → Prop) :
    (∀ body, sentBody sha256 floatText stage (rows.map (TargetRows.input uuidText)) context
        attempt = .ok body → List.Forall₂ shows (imageParts body) (rows.flatMap (·.evidence))) ↔
      rows.flatMap (·.evidence) = [] ∨ ∀ body, sentBody sha256 floatText stage
        (rows.map (TargetRows.input uuidText)) context attempt ≠ .ok body := by
  constructor
  · intro h
    refine or_iff_not_imp_right.mpr fun hsent => ?_
    obtain ⟨body, hbody⟩ := not_forall.mp hsent
    have hbody := not_not.mp hbody
    have hforall := h body hbody
    rw [imageParts_sentBody uuidText sha256 floatText hbody] at hforall
    exact List.forall₂_nil_left_iff.mp hforall
  · rintro (hnone | hfails) body hbody
    · rw [hnone, imageParts_sentBody uuidText sha256 floatText hbody]
      exact .nil
    · exact absurd hbody (hfails body)

/-! ## A photo -/

theorem inUnitInterval_half : inUnitInterval (.float (1 / 2)) = true := by
  decide +kernel

theorem isBlank_v1 : isBlank "v1" = false := by
  decide +kernel

theorem strip_v1 : strip "v1" = "v1" := by
  decide +kernel

/-- A label set with one label. -/
def photoLabels : Output.LabelSetVersion where
  versionId := "v1"
  bindings := [⟨⟨"d1", "cat", "Cat", "A cat", .media, false⟩, .float (1 / 2), 0, "",
    inUnitInterval_half⟩]
  nonempty := List.cons_ne_nil _ _
  versionIds_nodup := List.nodup_singleton _
  keys_nodup := List.nodup_singleton _
  orders_nodup := List.nodup_singleton _

/-- A prompt about the photo. -/
def photoPrompt : PromptTemplate where
  status := .published
  versionId := "v1"
  promptTemplateId := "p1"
  versionNumber := 1
  systemPrompt := ""
  userPromptTemplate := "Does the photo show a cat?"
  declaredVariables := []

/-- A model that sees images. -/
def photoProfile : InferenceProfileVersion where
  versionId := "v1"
  inferenceProfileId := "i1"
  versionNumber := 1
  providerAdapter := "openai_compatible"
  baseUrl := "https://models.local"
  modelName := "vlm"
  apiSecretReference := "MODEL_KEY"
  capabilities := ["vision"]
  timeoutSeconds := 60
  maxConcurrency := 1
  maxImages := 1
  maxInputTokens := 1000
  structuredOutputSupport := true
  samplingParameters := []
  status := .published
  versionId_nonblank := isBlank_v1
  versionId_stripped := strip_v1

theorem photo_mode : LabelScope.media = .global ↔ isMessageMode .perAsset = true := by
  simp [isMessageMode]

theorem photo_variables : photoPrompt.declaredVariables ⊆
    StageInputPolicy.availablePromptVariables { media := true } := by
  simp [photoPrompt, StageInputPolicy.availablePromptVariables]

theorem photo_cache : CachePolicy.asset = .message ∨ CachePolicy.asset = .messageVisual →
    LabelScope.media = .global := by
  simp

/-- A stage that labels one asset. -/
def photoStage : AnalysisStageTemplateVersion where
  versionId := "v1"
  targetScope := .media
  executionMode := .perAsset
  prompt := photoPrompt
  labelSet := photoLabels
  structuredOutputPolicy := {}
  inputPolicy := { media := true }
  inferenceProfile := photoProfile
  cachePolicy := .asset
  timeoutSeconds := 60
  versionId_nonblank := isBlank_v1
  scope_mode := photo_mode
  batch_size _ := rfl
  cache_asset _ := rfl
  cache_message := photo_cache
  prompt_available := photo_variables
  media_vision _ := List.mem_singleton_self _

/-- An archived photo. -/
def photo : ImageArchive where
  storageBackend := "local"
  storageKey := "images/2.webp"
  contentType := "image/webp"
  width := 640
  height := 480
  sourceSha256 := "6ca13d52ca70c883e0f0bb101e425a89e8624de51db2d2392593af6a84118090"
  archiveSha256 := "7d1a54127b222502f5b79b5fb0803061152a44f92b37e23c6527baf665d4da9a"
  perceptualHash := "00000000ffffffff"
  archiveSizeBytes := 2048

/-- A message with the photo, as the target of a stage run. -/
def photoRows : TargetRows where
  target := .imageAsset 2
  messageId := 1
  images := ⟨[], [(2, {
    messageId := 1
    sourceAssetId := "photo"
    sourceTelegramMessageId := some 5
    archiveState := .ready
    archiveAttemptCount := 1
    archiveMaxAttempts := 5
    archiveNextRetryAt := none
    archiveLeaseToken := none
    archiveLeaseExpiresAt := none
    archiveLastErrorCode := none
    archiveLastErrorType := none
    archiveLastFailureAt := none
    archived := some photo
    archiveReadyAt := some 0
    archiveDeletedAt := none })], [], 0⟩
  videos := ⟨[], [], [], 0⟩
  text := none
  telegramMetadata := []
  previousResults := []
  visualFingerprint := none

/-- The text of the id of the message and of the asset. -/
def photoIds (id : ℕ) : String :=
  if id = 1 then "00000000-0000-4000-8000-000000000001"
  else "00000000-0000-4000-8000-000000000002"

/-- The text of the bounds of a score. -/
def photoFloats (x : ℚ) : String :=
  if x = 0 then "0.0" else "1.0"

/-- SHA-256 of the schema. -/
def photoSchemaHash : String :=
  "775e9c29b9567d7e4df76d6c7821694b03c5ceadbb5b48a19c690d0d4a745dd5"

/-- SHA-256 of the manifest. -/
def photoManifestHash : String :=
  "fd1d68e62288d09a8d3d108cac35061b613f666d258ac899f2a711a5d7672e10"

/-- SHA-256 of the payload of the cache key. -/
def photoKeyHash : String :=
  "1bd85c4c0fb40b94182ac3e29816f054e53693bcbe1e288e822efd040fafd861"

/-- SHA-256 of the three texts, told apart by the first letter of their first key. -/
def photoDigest (text : String) : String :=
  match (text.toUTF8.data.toList.drop 2).head? with
  | some 36 => photoSchemaHash
  | some 101 => photoManifestHash
  | _ => photoKeyHash

/-- `photoDigest` of the text of some characters. -/
def photoDigestOf (text : List Char) : String :=
  match ((text.flatMap String.utf8EncodeChar).drop 2).head? with
  | some 36 => photoSchemaHash
  | some 101 => photoManifestHash
  | _ => photoKeyHash

theorem photoDigest_ofList (text : List Char) :
    photoDigest (String.ofList text) = photoDigestOf text := by
  have hbytes : (String.ofList text).toUTF8.data.toList = text.flatMap String.utf8EncodeChar := by
    rw [String.toUTF8_eq_toByteArray, String.toByteArray_ofList, List.utf8Encode]
    simp
  rw [photoDigest, photoDigestOf, hbytes]

theorem photoDigest_canonicalText (value : Json) :
    photoDigest (canonicalText photoFloats value) =
      photoDigestOf (jsonText photoFloats value.canonical) :=
  photoDigest_ofList _

/-- The hash without the text it is of. -/
theorem canonicalHash_photo (value : Json) :
    canonicalHash photoDigest photoFloats value = (do
      ensure value.isDumpable "value must be finite JSON-compatible data"
      return photoDigestOf (jsonText photoFloats value.canonical)) := by
  rw [canonicalHash, canonicalJson]
  cases value.isDumpable with
  | false => rfl
  | true => exact congrArg Except.ok (photoDigest_canonicalText _)

theorem prepare_photo : (prepare photoDigest photoFloats photoStage [photoRows.input photoIds]
    [] 1).toOption.map (fun call => (call.schema.schemaHash,
      call.request.inputManifest.inputManifestHash, call.cacheKey.map (·.value))) =
    some (photoSchemaHash, photoManifestHash, some photoKeyHash) := by
  unfold prepare build compose composeManifest InputManifest.create cacheScopeIdentity buildCacheKey
  -- the texts that are hashed are not built
  simp only [photoDigest_canonicalText, canonicalHash_photo]
  decide +kernel

theorem exists_prepare_photo : ∃ call,
    prepare photoDigest photoFloats photoStage [photoRows.input photoIds] [] 1 = .ok call := by
  have hprepare := prepare_photo
  cases h : prepare photoDigest photoFloats photoStage [photoRows.input photoIds] [] 1 with
  | ok call => exact ⟨call, rfl⟩
  | error e =>
    rw [h] at hprepare
    cases hprepare

theorem evidence_photo : photoRows.evidence = [.image 2 photo] := by
  rfl

/-- The body for the photo is sent without it. -/
theorem image_dropped : ∃ body,
    sentBody photoDigest photoFloats photoStage [photoRows.input photoIds] [] 1 = .ok body ∧
      photoRows.evidence = [.image 2 photo] ∧ imageParts body = [] := by
  obtain ⟨call, hcall⟩ := exists_prepare_photo
  obtain ⟨body, hbody⟩ : ∃ body, requestBody call.request = .ok body := by
    rw [requestBody, (prepared_of_ok hcall).profile]
    exact ⟨_, rfl⟩
  have hsent : sentBody photoDigest photoFloats photoStage [photoRows.input photoIds] [] 1 =
      .ok body := input_bind_eq_ok.mpr ⟨call, hcall, hbody⟩
  have htargets : [photoRows.input photoIds] = [photoRows].map (TargetRows.input photoIds) := rfl
  refine ⟨body, hsent, evidence_photo, ?_⟩
  rw [htargets] at hsent
  exact imageParts_sentBody photoIds photoDigest photoFloats hsent

end TgCurator.Inference
