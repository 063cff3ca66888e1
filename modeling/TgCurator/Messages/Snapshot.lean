import TgCurator.Messages.Telegram
import TgCurator.PyValue

/-!
# A stored component read back

`TelegramMessage` of `domain/messages/telegram.py` with the metadata it is given, the media
snapshots of `domain/messages/models.py`, and the row that `message_parts_upsert_statement`
writes for a component and `telegram_part_from_record` reads.

The media come back as they were (`mediaAssetsFromJson_toJson`, in any order of the columns of a
snapshot by `MediaAsset.fromJson_canonical`). The JSON-safety check of the metadata admits more
than a JSONB column keeps: a tuple comes back as a list, a mapping that is no `dict` is not
dumped, nor is an integer of more than 4300 digits, and a number that is not finite is rejected by
the column. So a component reads back as itself exactly if its metadata holds none of these
(`readsBack_iff`).

A JSONB column is taken to store standard JSON data and nothing else. The columns of a number and
of a text have the limits of their PostgreSQL types.
-/

namespace TgCurator

/-! ## Media snapshots -/

/-- `MediaKind.value`. -/
def MediaKind.value : MediaKind → String
  | .image => "image"
  | .video => "video"
  | .document => "document"
  | .audio => "audio"

/-- `MediaKind(value)`. -/
def MediaKind.ofValue? (value : Json) : Option MediaKind :=
  [MediaKind.image, .video, .document, .audio].find? fun kind => isStr value kind.value

/-- A text or `None`. -/
def optionalText (value : Option String) : Json :=
  value.elim .null .str

/-- `MediaAsset.to_json`. -/
def MediaAsset.toJson (asset : MediaAsset) : Json :=
  .obj [("asset_id", .str asset.assetId), ("kind", .str asset.kind.value),
    ("original_visual_phash", optionalText asset.originalVisualPhash),
    ("video_cover_phash", optionalText asset.videoCoverPhash),
    ("representative_frame_phashes", .arr (asset.representativeFramePhashes.map .str)),
    ("source_telegram_message_id",
      asset.sourceTelegramMessageId.elim .null fun id => .num (.int id))]

/-- The fields of a snapshot: `allowed` in `from_json`. -/
def mediaSnapshotFields : List String :=
  ["asset_id", "kind", "original_visual_phash", "video_cover_phash",
    "representative_frame_phashes", "source_telegram_message_id"]

/-- The string a value is. -/
def asText? : Json → Option String
  | .str s => some s
  | _ => none

/-- `representative_frame_phashes`, as `from_json` takes it. -/
def readPhashes (value : Json) : Except PyError (List String) :=
  match value with
  | .arr items =>
    match items.mapM asText? with
    | some phashes => .ok phashes
    | none => .error (.domainValidation
        "representative_frame_phashes must be a JSON array of strings" [])
  | _ => .error (.domainValidation
      "representative_frame_phashes must be a JSON array of strings" [])

/-- `kind`, as `from_json` takes it. -/
def readKind (value : Json) : Except PyError MediaKind :=
  match MediaKind.ofValue? value with
  | some kind => .ok kind
  | none => .error (.domainValidation "media asset snapshot has an invalid kind" [])

/-- `asset_id`, as `__post_init__` checks it. -/
def readAssetId (value : Json) : Except PyError String :=
  match value with
  | .str assetId => do
    ensure (!isBlank assetId) "asset_id must not be blank"
    return assetId
  | _ => .error (.domainValidation "asset_id must not be blank" [])

/-- `_validate_optional_phash`, on a loaded value. -/
def readOptionalPhash (field : String) (value : Json) : Except PyError (Option String) :=
  match value with
  | .null => .ok none
  | .str phash => do
    validatePhash field phash
    return some phash
  | _ => .error (.domainValidation "% must contain hexadecimal perceptual hashes" [field])

/-- `source_telegram_message_id`, as `__post_init__` checks it. -/
def readSourceTelegramMessageId (value : Json) : Except PyError (Option ℕ) :=
  match value with
  | .null => .ok none
  | .num (.int id) => do
    ensure (0 < id) "source_telegram_message_id must be a positive integer"
    return some id.toNat
  | _ => .error (.domainValidation "source_telegram_message_id must be a positive integer" [])

/-- `MediaAsset.from_json`. -/
def MediaAsset.fromJson (value : Json) : Except PyError MediaAsset :=
  match value with
  | .obj entries => do
    ensure (hasExactly entries mediaSnapshotFields)
      "media asset snapshot has missing or unknown fields"
    let phashes ← readPhashes (getD entries "representative_frame_phashes")
    let kind ← readKind (getD entries "kind")
    -- `__post_init__`, whose last check is that of the source message
    let assetId ← readAssetId (getD entries "asset_id")
    let original ← readOptionalPhash "original_visual_phash" (getD entries "original_visual_phash")
    let cover ← readOptionalPhash "video_cover_phash" (getD entries "video_cover_phash")
    let fields : MediaAssetFields := {
      assetId
      kind
      originalVisualPhash := original
      videoCoverPhash := cover
      representativeFramePhashes := phashes }
    fields.postInit
    let source ← readSourceTelegramMessageId (getD entries "source_telegram_message_id")
    MediaAssetFields.create { fields with sourceTelegramMessageId := source }
  | _ => .error (.domainValidation "media asset snapshot must be a JSON object" [])

/-- `media_assets_to_json`. -/
def mediaAssetsToJson (assets : List MediaAsset) : Json :=
  .arr (assets.map MediaAsset.toJson)

/-- `media_assets_from_json`. -/
def mediaAssetsFromJson (values : Json) : Except PyError (List MediaAsset) :=
  match values with
  | .arr items => items.mapM MediaAsset.fromJson
  | _ => .error (.domainValidation "media snapshot must be a JSON array" [])

theorem MediaKind.ofValue?_value (kind : MediaKind) :
    MediaKind.ofValue? (.str kind.value) = some kind := by
  cases kind <;> rfl

theorem readPhashes_arr (phashes : List String) :
    readPhashes (.arr (phashes.map .str)) = .ok phashes := by
  have h : (phashes.map Json.str).mapM asText? = some phashes := by
    induction phashes with
    | nil => rfl
    | cons phash phashes ih => simp [asText?, ih]
  rw [readPhashes, h]

theorem readOptionalPhash_optionalText {field : String} {value : Option String}
    (h : validateOptionalPhash field value = .ok ()) :
    readOptionalPhash field (optionalText value) = .ok value := by
  cases value with
  | none => rfl
  | some phash =>
    change validatePhash field phash = .ok () at h
    simp only [optionalText, Option.elim, readOptionalPhash, h]
    rfl

theorem readSourceTelegramMessageId_elim {source : Option ℕ} (h : source.all (0 < ·) = true) :
    readSourceTelegramMessageId (source.elim .null fun id => .num (.int id)) = .ok source := by
  cases source with
  | none => rfl
  | some id =>
    have hpos : decide ((0 : ℤ) < id) = true := by
      simpa using h
    simp only [Option.elim, readSourceTelegramMessageId, ensure, hpos]
    rfl

/-- A snapshot is read back as the asset it was taken of. -/
theorem MediaAsset.fromJson_toJson (asset : MediaAsset) :
    MediaAsset.fromJson asset.toJson = .ok asset := by
  have h := asset.checked
  simp only [MediaAssetFields.postInit, seq_eq_ok, ensure_eq_ok] at h
  obtain ⟨hid, horiginal, hcover, hframes, himage, hvideo, hvideo', hsource⟩ := h
  have hkeys : hasExactly [("asset_id", .str asset.assetId), ("kind", .str asset.kind.value),
      ("original_visual_phash", optionalText asset.originalVisualPhash),
      ("video_cover_phash", optionalText asset.videoCoverPhash),
      ("representative_frame_phashes", .arr (asset.representativeFramePhashes.map .str)),
      ("source_telegram_message_id",
        asset.sourceTelegramMessageId.elim .null fun id => .num (.int id))]
      mediaSnapshotFields = true := by
    simp [hasExactly, mediaSnapshotFields]
  have hkind : readKind (.str asset.kind.value) = .ok asset.kind := by
    rw [readKind, MediaKind.ofValue?_value]
  have hassetId : readAssetId (.str asset.assetId) = .ok asset.assetId := by
    simp only [readAssetId, ensure, hid]
    rfl
  have hchecked : ({ asset.toMediaAssetFields with
      sourceTelegramMessageId := none } : MediaAssetFields).postInit = .ok () := by
    simp only [MediaAssetFields.postInit, seq_eq_ok, ensure_eq_ok]
    exact ⟨hid, horiginal, hcover, hframes, himage, hvideo, hvideo', rfl⟩
  refine seq_eq_ok.mpr ⟨ensure_eq_ok.mpr hkeys, ?_⟩
  refine bind_eq_ok.mpr ⟨_, readPhashes_arr _, ?_⟩
  refine bind_eq_ok.mpr ⟨_, hkind, ?_⟩
  refine bind_eq_ok.mpr ⟨_, hassetId, ?_⟩
  refine bind_eq_ok.mpr ⟨_, readOptionalPhash_optionalText horiginal, ?_⟩
  refine bind_eq_ok.mpr ⟨_, readOptionalPhash_optionalText hcover, ?_⟩
  refine seq_eq_ok.mpr ⟨hchecked, ?_⟩
  refine bind_eq_ok.mpr ⟨_, readSourceTelegramMessageId_elim hsource, ?_⟩
  exact asset.create_eq

/-- `media_assets_from_json` undoes `media_assets_to_json`. -/
theorem mediaAssetsFromJson_toJson (assets : List MediaAsset) :
    mediaAssetsFromJson (mediaAssetsToJson assets) = .ok assets := by
  rw [mediaAssetsToJson, mediaAssetsFromJson, mapM_eq_ok, List.forall₂_map_left_iff,
    List.forall₂_same]
  exact fun asset _ => asset.fromJson_toJson

/-! ## Snapshots in another order -/

theorem mem_keys_canonicalEntries {entries : List (String × Json)} {k : String} :
    k ∈ Dict.keys (Json.canonicalEntries entries) ↔ k ∈ Dict.keys entries :=
  (Json.keys_canonicalEntries_perm entries).mem_iff

theorem hasExactly_canonicalEntries (entries : List (String × Json)) (expected : List String) :
    hasExactly (Json.canonicalEntries entries) expected = hasExactly entries expected := by
  rw [hasExactly, hasExactly, (Json.keys_canonicalEntries_perm entries).all_eq]
  simp only [mem_keys_canonicalEntries]

theorem mapM_asText_canonical (items : List Json) :
    (items.map Json.canonical).mapM asText? = items.mapM asText? := by
  have h : asText? ∘ Json.canonical = asText? := by
    funext value
    cases value <;> simp [asText?, Json.canonical]
  rw [List.mapM_map, h]

theorem readPhashes_canonical (value : Json) : readPhashes value.canonical = readPhashes value := by
  cases value with
  | arr items => rw [Json.canonical_arr, readPhashes, readPhashes, mapM_asText_canonical]
  | _ => simp [Json.canonical, readPhashes]

/-- `from_json` does not see the order of the items of a snapshot. -/
theorem MediaAsset.fromJson_canonical {value : Json} (h : value.WF) :
    MediaAsset.fromJson value.canonical = MediaAsset.fromJson value := by
  cases value with
  | obj entries =>
    have hkind : ∀ j : Json, readKind j.canonical = readKind j := by
      intro j
      cases j <;> simp [readKind, MediaKind.ofValue?, isStr, Json.canonical]
    have hassetId : ∀ j : Json, readAssetId j.canonical = readAssetId j := by
      intro j
      cases j <;> simp [readAssetId, Json.canonical]
    have hphash : ∀ field, ∀ j : Json, readOptionalPhash field j.canonical =
        readOptionalPhash field j := by
      intro field j
      cases j <;> simp [readOptionalPhash, Json.canonical]
    have hsource : ∀ j : Json, readSourceTelegramMessageId j.canonical =
        readSourceTelegramMessageId j := by
      intro j
      cases j <;> simp [readSourceTelegramMessageId, Json.canonical]
    rw [Json.canonical_obj, fromJson, fromJson]
    simp only [hasExactly_canonicalEntries, getD_canonicalEntries h.1, readPhashes_canonical,
      hkind, hassetId, hphash, hsource]
  | arr items => rw [Json.canonical_arr, fromJson, fromJson] <;> simp
  | _ => simp [Json.canonical, fromJson]

theorem mediaAssetsFromJson_canonical {values : Json} (h : values.WF) :
    mediaAssetsFromJson values.canonical = mediaAssetsFromJson values := by
  cases values with
  | arr items =>
    rw [Json.canonical_arr, mediaAssetsFromJson, mediaAssetsFromJson]
    induction items with
    | nil => rfl
    | cons value items ih =>
      rw [List.map_cons, List.mapM_cons, List.mapM_cons, MediaAsset.fromJson_canonical h.1, ih h.2]
  | _ => simp [Json.canonical, mediaAssetsFromJson]

/-! ## Components with their metadata -/

mutual

/-- `_validate_json_value`. -/
def validateJsonValue (field : String) : PyValue → Except PyError Unit
  | .list items | .tuple items => validateJsonItems field items
  | .dict entries | .mapping entries => validateJsonEntries field entries
  | .other => .error (.domainValidation "% must contain only JSON-safe values" [field])
  | _ => .ok ()

def validateJsonItems (field : String) : List PyValue → Except PyError Unit
  | [] => .ok ()
  | item :: items => do
    validateJsonValue field item
    validateJsonItems field items

def validateJsonEntries (field : String) : List (PyKey × PyValue) → Except PyError Unit
  | [] => .ok ()
  | (key, item) :: entries => do
    ensure key.isStr "% keys must be strings" [field]
    validateJsonValue field item
    validateJsonEntries field entries

end

/-- A loaded value passes the check of the metadata. -/
theorem validateJsonValue_ofJson (field : String) (j : Json) :
    validateJsonValue field (PyValue.ofJson j) = .ok () := by
  induction j using Json.induction with
  | null | bool | num | str => rfl
  | arr items ih =>
    rw [PyValue.ofJson, validateJsonValue]
    induction items with
    | nil => rfl
    | cons j items ih' =>
      rw [List.forall_mem_cons] at ih
      rw [PyValue.ofItems, validateJsonItems]
      exact seq_eq_ok.mpr ⟨ih.1, ih' ih.2⟩
  | obj entries ih =>
    rw [PyValue.ofJson, validateJsonValue]
    induction entries with
    | nil => rfl
    | cons e entries ih' =>
      rw [List.forall_mem_cons] at ih
      rw [PyValue.ofEntries, validateJsonEntries]
      exact seq_eq_ok.mpr ⟨rfl, seq_eq_ok.mpr ⟨ih.1, ih' ih.2⟩⟩

/-- A value that passes the check and is plain is dumped. -/
theorem exists_dumps {field : String} (v : PyValue) (h : validateJsonValue field v = .ok ())
    (hplain : v.plain = true) : ∃ j, v.dumps = some j := by
  induction v using PyValue.induction with
  | none | bool | str => exact ⟨_, rfl⟩
  | num n =>
    rw [PyValue.plain, Number.isDumpable, Bool.and_eq_true] at hplain
    exact ⟨_, if_pos hplain.2⟩
  | list items ih =>
    rw [validateJsonValue] at h
    rw [PyValue.plain] at hplain
    have hitems : ∃ js, PyValue.dumpsItems items = some js := by
      induction items with
      | nil => exact ⟨[], rfl⟩
      | cons v items ih' =>
        rw [validateJsonItems, seq_eq_ok] at h
        rw [PyValue.plainItems, Bool.and_eq_true] at hplain
        rw [List.forall_mem_cons] at ih
        obtain ⟨j, hj⟩ := ih.1 h.1 hplain.1
        obtain ⟨js, hjs⟩ := ih' ih.2 h.2 hplain.2
        exact ⟨j :: js, PyValue.dumpsItems_cons_eq_some.mpr ⟨j, js, hj, hjs, rfl⟩⟩
    obtain ⟨js, hjs⟩ := hitems
    exact ⟨.arr js, by rw [PyValue.dumps, hjs]; rfl⟩
  | dict entries ih =>
    rw [validateJsonValue] at h
    rw [PyValue.plain] at hplain
    have hentries : ∃ es, PyValue.dumpsEntries entries = some es := by
      induction entries with
      | nil => exact ⟨[], rfl⟩
      | cons e entries ih' =>
        obtain ⟨k, v⟩ := e
        rw [validateJsonEntries, seq_eq_ok, seq_eq_ok, ensure_eq_ok] at h
        rw [PyValue.plainEntries, Bool.and_eq_true] at hplain
        rw [List.forall_mem_cons] at ih
        obtain ⟨j, hj⟩ := ih.1 h.2.1 hplain.1
        obtain ⟨es, hes⟩ := ih' ih.2 h.2.2 hplain.2
        cases k with
        | str s =>
          exact ⟨(s, j) :: es, PyValue.dumpsEntries_cons_eq_some.mpr ⟨s, j, es, rfl, hj, hes, rfl⟩⟩
        | other id => cases h.1
    obtain ⟨es, hes⟩ := hentries
    exact ⟨.obj es, by rw [PyValue.dumps, hes]; rfl⟩
  | tuple | mapping | other => cases hplain

namespace Snapshot

/-- The arguments of `TelegramMessagePart`, with the metadata as a Python dictionary: that of
`None` is empty. -/
structure TelegramMessagePartFields where
  telegramMessageId : ℕ
  publishedAt : ℤ
  editedAt : Option ℤ := none
  originalText : Option String := none
  telegramMetadata : List (PyKey × PyValue) := []
  media : List MediaAsset := []

/-- `TelegramMessagePart.__post_init__`. -/
def TelegramMessagePartFields.postInit (part : TelegramMessagePartFields) :
    Except PyError Unit := do
  ensure (0 < part.telegramMessageId) "telegram_message_id must be a positive integer"
  ensure (part.editedAt.all (part.publishedAt ≤ ·)) "edited_at must not be before published_at"
  validateJsonValue "telegram_metadata" (.dict part.telegramMetadata)
  validateContent part.media

/-- `TelegramMessagePart`. The keys of its metadata are those of Python mappings. -/
structure TelegramMessagePart extends TelegramMessagePartFields where
  checked : toTelegramMessagePartFields.postInit = .ok ()
  wf : (PyValue.dict telegramMetadata).WF

/-- The arguments of `TelegramMessage`. -/
structure TelegramMessageFields extends TelegramMessagePartFields where
  sourceChannelId : ℕ
  telegramGroupedId : Option ℕ := none

/-- `TelegramMessage.__post_init__`. -/
def TelegramMessageFields.postInit (message : TelegramMessageFields) : Except PyError Unit := do
  ensure (0 < message.telegramMessageId) "telegram_message_id must be a positive integer"
  ensure (message.telegramGroupedId.all (0 < ·)) "telegram_grouped_id must be a positive integer"
  ensure (message.editedAt.all (message.publishedAt ≤ ·))
    "edited_at must not be before published_at"
  validateJsonValue "telegram_metadata" (.dict message.telegramMetadata)
  validateContent message.media

/-- `TelegramMessage`. -/
structure TelegramMessage extends TelegramMessageFields where
  checked : toTelegramMessageFields.postInit = .ok ()
  wf : (PyValue.dict telegramMetadata).WF

theorem TelegramMessage.checked_part (message : TelegramMessage) :
    message.toTelegramMessagePartFields.postInit = .ok () := by
  have h := message.checked
  simp only [TelegramMessageFields.postInit, TelegramMessagePartFields.postInit, seq_eq_ok]
    at h ⊢
  exact ⟨h.1, h.2.2.1, h.2.2.2.1, h.2.2.2.2⟩

/-- `as_part`. -/
def TelegramMessage.asPart (message : TelegramMessage) : TelegramMessagePart where
  toTelegramMessagePartFields := message.toTelegramMessagePartFields
  checked := message.checked_part
  wf := message.wf

/-- Python's `==` of a component with a loaded one. -/
def TelegramMessagePart.equals (part : TelegramMessagePart)
    (loaded : TgCurator.TelegramMessagePart) : Bool :=
  part.telegramMessageId == loaded.telegramMessageId && part.publishedAt == loaded.publishedAt &&
    part.editedAt == loaded.editedAt && part.originalText == loaded.originalText &&
    (PyValue.dict part.telegramMetadata).eqJson (.obj loaded.telegramMetadata) &&
    decide (part.media = loaded.media)

end Snapshot

/-! ## Rows -/

/-- A JSONB column: what it gives back for a value written to it, or nothing where it rejects
it. It stores standard JSON, and the items of an object in an order of its own. -/
structure JsonbColumn where
  store : Json → Option Json
  isSome_store : ∀ j, (store j).isSome = j.allFinite
  wf_store : ∀ {j j'}, j.WF → store j = some j' → j'.WF
  canonical_store : ∀ {j j'}, j.WF → store j = some j' → j'.canonical = j.canonical

/-- A row of `message_parts`. -/
structure MessagePartRecord where
  messageId : ℕ
  sourceChannelId : ℕ
  telegramMessageId : ℕ
  publishedAt : ℤ
  editedAt : Option ℤ
  originalText : Option String
  telegramMetadata : List (String × Json)
  media : Json
  mediaCount : ℕ

/-- The constraints of `message_parts`, and the limits of `BIGINT`, `INTEGER` and `TEXT`. -/
def MessagePartRecord.accepted (row : MessagePartRecord) : Bool :=
  0 < row.telegramMessageId && row.telegramMessageId < 2 ^ 63 &&
    row.editedAt.all (row.publishedAt ≤ ·) &&
    row.originalText.all (fun text => !text.toList.contains '\x00') &&
    row.mediaCount < 2 ^ 31 &&
    match row.media with
    | .arr items => items.length = row.mediaCount
    | _ => false

/-- The values of `message_parts_upsert_statement` for a component, as its columns hold them. -/
def messagePartValues (messageId sourceChannelId : ℕ) (part : Snapshot.TelegramMessagePart)
    (telegramMetadata : List (String × Json)) (media : Json) : MessagePartRecord where
  messageId
  sourceChannelId
  telegramMessageId := part.telegramMessageId
  publishedAt := part.publishedAt
  editedAt := part.editedAt
  originalText := part.originalText
  telegramMetadata
  media
  mediaCount := part.media.length

/-- `message_parts_upsert_statement`, for a component that has no row. -/
def messagePartInsert (column : JsonbColumn) (messageId sourceChannelId : ℕ)
    (part : Snapshot.TelegramMessagePart) : Option MessagePartRecord := do
  let metadata ← (PyValue.dict part.telegramMetadata).dumps
  -- an object is given back as an object
  let .obj telegramMetadata ← column.store metadata | none
  let media ← (PyValue.ofJson (mediaAssetsToJson part.media)).dumps >>= column.store
  let row := messagePartValues messageId sourceChannelId part telegramMetadata media
  if row.accepted then some row else none

/-- `telegram_part_from_record`. -/
def telegramPartFromRecord (row : MessagePartRecord) : Except PyError TelegramMessagePart := do
  let media ← mediaAssetsFromJson row.media
  validateJsonValue "telegram_metadata" (.dict (PyValue.ofEntries row.telegramMetadata))
  TelegramMessagePartFields.create {
    telegramMessageId := row.telegramMessageId
    publishedAt := row.publishedAt
    editedAt := row.editedAt
    originalText := row.originalText
    telegramMetadata := row.telegramMetadata
    media }

/-! ## What a row gives back -/

section

variable {column : JsonbColumn}

/-- A column stores exactly the values without an infinite number or not a number. -/
theorem JsonbColumn.exists_store (column : JsonbColumn) {j : Json} :
    (∃ j', column.store j = some j') ↔ j.allFinite = true := by
  rw [← column.isSome_store, Option.isSome_iff_exists]

/-- What a column gives back for an object is an object. -/
theorem JsonbColumn.obj_of_store {entries : List (String × Json)} {j : Json}
    (hwf : (Json.obj entries).WF) (h : column.store (.obj entries) = some j) :
    ∃ entries', j = .obj entries' := by
  have hcanonical := column.canonical_store hwf h
  rw [Json.canonical_obj] at hcanonical
  cases j with
  | obj entries' => exact ⟨entries', rfl⟩
  | _ => simp [Json.canonical] at hcanonical

/-- `==` with what a column gives back is `==` with what was written. -/
theorem JsonbColumn.eqJson_store {v : PyValue} {j j' : Json} (hwf : j.WF)
    (h : column.store j = some j') : v.eqJson j' = v.eqJson j := by
  rw [← v.eqJson_canonical (column.wf_store hwf h), column.canonical_store hwf h,
    v.eqJson_canonical hwf]

theorem wf_optionalText (value : Option String) : (optionalText value).WF := by
  cases value <;> trivial

theorem allNumbers_optionalText (p : Number → Bool) (value : Option String) :
    (optionalText value).allNumbers p = true := by
  cases value <;> simp [optionalText, Json.allNumbers]

theorem MediaAsset.toJson_wf (asset : MediaAsset) : asset.toJson.WF := by
  have hframes : Json.WFItems (asset.representativeFramePhashes.map .str) := by
    rw [Json.wfItems_iff, List.forall_mem_map]
    exact fun _ _ => trivial
  have hsource : (asset.sourceTelegramMessageId.elim Json.null fun id => .num (.int id)).WF := by
    cases asset.sourceTelegramMessageId <;> trivial
  exact ⟨by simp, trivial, trivial, wf_optionalText _, wf_optionalText _, hframes, hsource,
    trivial⟩

theorem mediaAssetsToJson_wf (assets : List MediaAsset) : (mediaAssetsToJson assets).WF := by
  refine Json.wfItems_iff.mpr fun j hj => ?_
  obtain ⟨asset, -, rfl⟩ := List.mem_map.mp hj
  exact asset.toJson_wf

/-- The only number of a snapshot is the id of its source message. -/
theorem MediaAsset.allNumbers_toJson (p : Number → Bool) (asset : MediaAsset) :
    asset.toJson.allNumbers p = asset.sourceTelegramMessageId.all fun id => p (.int id) := by
  have hsource : (asset.sourceTelegramMessageId.elim Json.null fun id => .num (.int id)).allNumbers
      p = asset.sourceTelegramMessageId.all fun id => p (.int id) := by
    cases asset.sourceTelegramMessageId <;> simp [Json.allNumbers]
  rw [Bool.eq_iff_iff, toJson, Json.allNumbers, allNumbersEntries_iff]
  simp only [List.forall_mem_cons, allNumbers_optionalText, allNumbers_strings, hsource,
    List.not_mem_nil, false_implies, implies_true, and_true, true_and]
  simp [Json.allNumbers]

theorem mediaAssetsToJson_allNumbers_iff {p : Number → Bool} {assets : List MediaAsset} :
    (mediaAssetsToJson assets).allNumbers p = true ↔
      ∀ asset ∈ assets, asset.sourceTelegramMessageId.all (fun id => p (.int id)) = true := by
  rw [mediaAssetsToJson, Json.allNumbers, allNumbersItems_iff, List.forall_mem_map]
  simp only [MediaAsset.allNumbers_toJson]

theorem mediaAssetsToJson_allFinite (assets : List MediaAsset) :
    (mediaAssetsToJson assets).allFinite = true := by
  refine mediaAssetsToJson_allNumbers_iff.mpr fun asset _ => ?_
  cases asset.sourceTelegramMessageId <;> rfl

/-- The media a column gives back. -/
theorem mediaAssetsFromJson_store {assets : List MediaAsset} {values : Json}
    (h : column.store (mediaAssetsToJson assets) = some values) :
    mediaAssetsFromJson values = .ok assets ∧
      ∃ items, values = .arr items ∧ items.length = assets.length := by
  have hwf := mediaAssetsToJson_wf assets
  have hcanonical := column.canonical_store hwf h
  constructor
  · rw [← mediaAssetsFromJson_canonical (column.wf_store hwf h), hcanonical,
      mediaAssetsFromJson_canonical hwf, mediaAssetsFromJson_toJson]
  · rw [mediaAssetsToJson, Json.canonical_arr] at hcanonical
    cases values with
    | arr items =>
      rw [Json.canonical_arr] at hcanonical
      have hlength := congrArg List.length (Json.arr.inj hcanonical)
      rw [List.length_map, List.length_map, List.length_map] at hlength
      exact ⟨items, rfl, hlength⟩
    | _ => simp [Json.canonical] at hcanonical

/-! ## Reading back -/

/-- The columns of a number and of a text hold the values of the component, and the ids of the
source messages of its media can be printed. -/
structure Snapshot.TelegramMessagePart.FitsColumns (part : Snapshot.TelegramMessagePart) :
    Prop where
  telegramMessageId : part.telegramMessageId < 2 ^ 63
  originalText : part.originalText.all (fun text => !text.toList.contains '\x00') = true
  mediaCount : part.media.length < 2 ^ 31
  sourceTelegramMessageId : ∀ asset ∈ part.media,
    asset.sourceTelegramMessageId.all (fun id => (Number.int id).isPrintable) = true

/-- The media of a message come back from their snapshots, and its component from its row. -/
structure ReadsBack (column : JsonbColumn) (messageId : ℕ) (message : Snapshot.TelegramMessage) :
    Prop where
  media : mediaAssetsFromJson (mediaAssetsToJson message.media) = .ok message.media
  part : ∃ row loaded,
    messagePartInsert column messageId message.sourceChannelId message.asPart = some row ∧
      telegramPartFromRecord row = .ok loaded ∧ message.asPart.equals loaded = true

/-- A JSON value is written if its integers can be printed and the column stores it. -/
theorem dumps_bind_store_eq_some {j j' : Json} :
    (PyValue.ofJson j).dumps >>= column.store = some j' ↔
      j.allNumbers Number.isPrintable = true ∧ column.store j = some j' := by
  rw [PyValue.dumps_ofJson]
  split_ifs with h
  · exact (and_iff_right h).symm
  · exact iff_of_false (by simp) fun hstored => h hstored.1

theorem messagePartInsert_eq_some {messageId sourceChannelId : ℕ}
    {part : Snapshot.TelegramMessagePart} {row : MessagePartRecord} :
    messagePartInsert column messageId sourceChannelId part = some row ↔
      ∃ metadata telegramMetadata media,
        (PyValue.dict part.telegramMetadata).dumps = some metadata ∧
        column.store metadata = some (.obj telegramMetadata) ∧
        (mediaAssetsToJson part.media).allNumbers Number.isPrintable = true ∧
        column.store (mediaAssetsToJson part.media) = some media ∧
        row.accepted = true ∧
        row = messagePartValues messageId sourceChannelId part telegramMetadata media := by
  constructor
  · intro h
    obtain ⟨metadata, hmetadata, h⟩ := Option.bind_eq_some_iff.mp h
    obtain ⟨stored, hstored, h⟩ := Option.bind_eq_some_iff.mp h
    cases stored with
    | obj telegramMetadata =>
      obtain ⟨media, hmedia, h⟩ := Option.bind_eq_some_iff.mp h
      dsimp only at h
      split_ifs at h with haccepted
      obtain rfl := Option.some.inj h
      obtain ⟨hprint, hmedia⟩ := dumps_bind_store_eq_some.mp hmedia
      exact ⟨metadata, telegramMetadata, media, hmetadata, hstored, hprint, hmedia, haccepted, rfl⟩
    | _ => cases h
  · rintro ⟨metadata, telegramMetadata, media, hmetadata, hstored, hprint, hmedia, haccepted, rfl⟩
    refine Option.bind_eq_some_iff.mpr ⟨metadata, hmetadata, ?_⟩
    refine Option.bind_eq_some_iff.mpr ⟨_, hstored, ?_⟩
    refine Option.bind_eq_some_iff.mpr
      ⟨media, dumps_bind_store_eq_some.mpr ⟨hprint, hmedia⟩, ?_⟩
    exact if_pos haccepted

/-- A row is written and accepted when its columns hold the values of the component. -/
theorem accepted_iff {messageId sourceChannelId : ℕ} {part : Snapshot.TelegramMessagePart}
    {telegramMetadata : List (String × Json)} {media : Json}
    (h : column.store (mediaAssetsToJson part.media) = some media) :
    (mediaAssetsToJson part.media).allNumbers Number.isPrintable = true ∧
        (messagePartValues messageId sourceChannelId part telegramMetadata media).accepted = true ↔
      part.FitsColumns := by
  rw [mediaAssetsToJson_allNumbers_iff]
  obtain ⟨-, items, rfl, hlength⟩ := mediaAssetsFromJson_store h
  have hchecked := part.checked
  simp only [Snapshot.TelegramMessagePartFields.postInit, seq_eq_ok, ensure_eq_ok] at hchecked
  have hitems : decide (items.length = part.media.length) = true := decide_eq_true hlength
  simp only [MessagePartRecord.accepted, messagePartValues, Bool.and_eq_true]
  constructor
  · rintro ⟨hsource, ⟨⟨⟨⟨-, hid⟩, -⟩, htext⟩, hcount⟩, -⟩
    exact ⟨of_decide_eq_true hid, htext, of_decide_eq_true hcount, hsource⟩
  · rintro ⟨hid, htext, hcount, hsource⟩
    exact ⟨hsource, ⟨⟨⟨⟨hchecked.1, decide_eq_true hid⟩, hchecked.2.1⟩, htext⟩,
      decide_eq_true hcount⟩, hitems⟩

/-- The component a row gives back. -/
theorem telegramPartFromRecord_eq_ok {messageId sourceChannelId : ℕ}
    {part : Snapshot.TelegramMessagePart} {telegramMetadata : List (String × Json)} {media : Json}
    (h : column.store (mediaAssetsToJson part.media) = some media) :
    ∃ loaded, telegramPartFromRecord
        (messagePartValues messageId sourceChannelId part telegramMetadata media) = .ok loaded ∧
      loaded.toTelegramMessagePartFields = ⟨part.telegramMessageId, part.publishedAt,
        part.editedAt, part.originalText, telegramMetadata, part.media⟩ := by
  have hchecked := part.checked
  simp only [Snapshot.TelegramMessagePartFields.postInit, seq_eq_ok] at hchecked
  have hpart : (⟨part.telegramMessageId, part.publishedAt, part.editedAt, part.originalText,
      telegramMetadata, part.media⟩ : TelegramMessagePartFields).postInit = .ok () := by
    simp only [TelegramMessagePartFields.postInit, seq_eq_ok]
    exact ⟨hchecked.1, hchecked.2.1, hchecked.2.2.2⟩
  refine ⟨⟨_, hpart⟩, ?_, rfl⟩
  refine bind_eq_ok.mpr ⟨_, (mediaAssetsFromJson_store h).1, ?_⟩
  refine seq_eq_ok.mpr ⟨validateJsonValue_ofJson _ (.obj telegramMetadata), ?_⟩
  exact TelegramMessagePart.create_eq ⟨_, hpart⟩

/-- A component reads back as itself exactly if its metadata holds no tuple, no number that is
not finite or too long to be printed and no mapping but dictionaries, and its columns hold its
other values. -/
theorem readsBack_iff {messageId : ℕ} {message : Snapshot.TelegramMessage} :
    ReadsBack column messageId message ↔
      (PyValue.dict message.telegramMetadata).plain = true ∧ message.asPart.FitsColumns := by
  constructor
  · rintro ⟨-, row, loaded, hrow, hloaded, hequals⟩
    obtain ⟨metadata, telegramMetadata, media, hmetadata, hstored, hprint, hmedia, haccepted, rfl⟩ :=
      messagePartInsert_eq_some.mp hrow
    have hwf := PyValue.wf_of_dumps _ message.wf hmetadata
    obtain ⟨loaded', hloaded', hfields⟩ :=
      @telegramPartFromRecord_eq_ok column messageId message.sourceChannelId _ telegramMetadata _
        hmedia
    obtain rfl := Except.ok.inj (hloaded'.symm.trans hloaded)
    refine ⟨(PyValue.plain_iff_of_dumps _ message.wf hmetadata).mpr ⟨?_, ?_⟩,
      (accepted_iff hmedia).mp ⟨hprint, haccepted⟩⟩
    · exact column.exists_store.mp ⟨_, hstored⟩
    · rw [← JsonbColumn.eqJson_store hwf hstored]
      simp only [Snapshot.TelegramMessagePart.equals, hfields, Bool.and_eq_true] at hequals
      exact hequals.1.2
  · rintro ⟨hplain, hfits⟩
    have hchecked := message.checked
    simp only [Snapshot.TelegramMessageFields.postInit, seq_eq_ok] at hchecked
    obtain ⟨metadata, hmetadata⟩ := exists_dumps _ hchecked.2.2.2.1 hplain
    have hwf := PyValue.wf_of_dumps _ message.wf hmetadata
    obtain ⟨hfinite, heq⟩ := (PyValue.plain_iff_of_dumps _ message.wf hmetadata).mp hplain
    obtain ⟨stored, hstored⟩ := column.exists_store.mpr hfinite
    obtain ⟨media, hmedia⟩ := column.exists_store.mpr
      (mediaAssetsToJson_allFinite message.media)
    obtain ⟨telegramMetadata, rfl⟩ : ∃ telegramMetadata, stored = .obj telegramMetadata := by
      obtain ⟨es, -, rfl⟩ := Option.map_eq_some_iff.mp hmetadata
      exact JsonbColumn.obj_of_store hwf hstored
    obtain ⟨loaded, hloaded, hfields⟩ :=
      @telegramPartFromRecord_eq_ok column messageId message.sourceChannelId message.asPart
        telegramMetadata media hmedia
    obtain ⟨hprint, haccepted⟩ := (accepted_iff hmedia).mpr hfits
    refine ⟨mediaAssetsFromJson_toJson _, _, loaded, messagePartInsert_eq_some.mpr ⟨metadata,
      telegramMetadata, media, hmetadata, hstored, hprint, hmedia, haccepted, rfl⟩, hloaded, ?_⟩
    rw [← JsonbColumn.eqJson_store hwf hstored] at heq
    simp only [Snapshot.TelegramMessagePart.equals, hfields, beq_self_eq_true, Bool.true_and,
      decide_true, Bool.and_true]
    exact heq

end

/-! ## A tuple in the metadata -/

/-- A message whose metadata holds a tuple. -/
def tupleMetadata : Snapshot.TelegramMessageFields where
  telegramMessageId := 1
  publishedAt := 0
  telegramMetadata := [(.str "entities", .tuple [.num (.int 1), .num (.int 2)])]
  sourceChannelId := 1

theorem postInit_tupleMetadata : tupleMetadata.postInit = .ok () := by
  rfl

/-- The message. -/
def tupleMessage : Snapshot.TelegramMessage where
  toTelegramMessageFields := tupleMetadata
  checked := postInit_tupleMetadata
  wf := ⟨by simp [tupleMetadata], ⟨trivial, trivial, trivial⟩, trivial⟩

/-- The column that keeps the order of the items. -/
def JsonbColumn.ordered : JsonbColumn where
  store j := if j.allFinite then some j else none
  isSome_store j := by
    cases h : j.allFinite <;> simp
  wf_store hwf h := by
    split_ifs at h
    exact Option.some.inj h ▸ hwf
  canonical_store _ h := by
    split_ifs at h
    rw [Option.some.inj h]

/-- A tuple does not come back: the list that is read does not equal it. -/
theorem not_readsBack_tuple :
    ¬ ∀ (column : JsonbColumn) (messageId : ℕ) (message : Snapshot.TelegramMessage),
      ReadsBack column messageId message := by
  intro h
  obtain ⟨-, row, loaded, -, -, hequals⟩ := h .ordered 0 tupleMessage
  simp only [Snapshot.TelegramMessagePart.equals, Bool.and_eq_true] at hequals
  have hmetadata := hequals.1.2
  simp [tupleMessage, tupleMetadata, Snapshot.TelegramMessage.asPart, PyValue.eqJson,
    PyValue.eqEntries] at hmetadata

end TgCurator
