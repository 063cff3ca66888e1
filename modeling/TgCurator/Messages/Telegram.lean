import Mathlib.Data.List.Induction
import Mathlib.Data.List.Sort
import TgCurator.Shared

/-!
# Telegram messages

`domain/messages/models.py` and `domain/messages/telegram.py`: the components Telegram
delivers, and the logical messages made of them. A regular component is a message by
itself; the components of one media group form one message.

`normalizeTelegramMessages` turns a batch of components into logical messages, and
`normalizedFromParts` recomputes a logical message from retained parts; both go through
`normalizeParts`. When it succeeds, its result is a function of the sorted parts
(`normalizeParts_eq_ok`).

Source channels are UUIDs, taken as numbers: canonical UUID texts compare as the numbers
do. Times are instants on one time line.
-/

namespace TgCurator

/-! ## Media assets -/

/-- `MediaKind`. -/
inductive MediaKind
  | image | video | document | audio
  deriving DecidableEq

/-- `[0-9a-fA-F]{16,}`. -/
def matchesPhashPattern (value : String) : Bool :=
  16 ≤ value.length && value.toList.all fun c =>
    ('0' ≤ c && c ≤ '9') || ('a' ≤ c && c ≤ 'f') || ('A' ≤ c && c ≤ 'F')

/-- The arguments of `MediaAsset`. -/
structure MediaAssetFields where
  assetId : String
  kind : MediaKind
  originalVisualPhash : Option String := none
  videoCoverPhash : Option String := none
  representativeFramePhashes : List String := []
  sourceTelegramMessageId : Option ℕ := none
  deriving DecidableEq

/-- `_validate_phash`. -/
def validatePhash (field value : String) : Except PyError Unit :=
  ensure (matchesPhashPattern value) "% must contain hexadecimal perceptual hashes" [field]

/-- `_validate_optional_phash`. -/
def validateOptionalPhash (field : String) (value : Option String) : Except PyError Unit :=
  match value with
  | none => .ok ()
  | some value => validatePhash field value

/-- `MediaAsset.__post_init__`. -/
def MediaAssetFields.postInit (asset : MediaAssetFields) : Except PyError Unit := do
  ensure (!isBlank asset.assetId) "asset_id must not be blank"
  validateOptionalPhash "original_visual_phash" asset.originalVisualPhash
  validateOptionalPhash "video_cover_phash" asset.videoCoverPhash
  asset.representativeFramePhashes.forM (validatePhash "representative_frame_phashes")
  ensure (asset.kind = .image || asset.originalVisualPhash.isNone)
    "only image assets may define original_visual_phash"
  ensure (asset.kind = .video || asset.videoCoverPhash.isNone)
    "only video assets may define video_cover_phash"
  ensure (asset.kind = .video || asset.representativeFramePhashes.isEmpty)
    "only video assets may define representative_frame_phashes"
  ensure (asset.sourceTelegramMessageId.all (0 < ·))
    "source_telegram_message_id must be a positive integer"

/-- `MediaAsset`. -/
structure MediaAsset extends MediaAssetFields where
  checked : toMediaAssetFields.postInit = .ok ()
  deriving DecidableEq

/-- `MediaAsset(…)`. -/
def MediaAssetFields.create (fields : MediaAssetFields) : Except PyError MediaAsset :=
  match h : fields.postInit with
  | .ok () => .ok ⟨fields, h⟩
  | .error e => .error e

theorem MediaAssetFields.create_eq_ok {fields : MediaAssetFields} {asset : MediaAsset}
    (h : fields.create = .ok asset) : asset.toMediaAssetFields = fields := by
  unfold create at h
  split at h
  · rw [← Except.ok.inj h]
  · cases h

theorem MediaAsset.create_eq (asset : MediaAsset) :
    asset.toMediaAssetFields.create = .ok asset := by
  unfold MediaAssetFields.create
  split
  · rfl
  · rename_i h
    rw [asset.checked] at h
    cases h

/-- `duplicate_identity_phash`. -/
def MediaAsset.duplicateIdentityPhash (asset : MediaAsset) : Option String :=
  match asset.kind with
  | .image => asset.originalVisualPhash.map String.toLower
  | .video => asset.videoCoverPhash.map String.toLower
  | _ => none

/-- `MessageContent.__post_init__`. -/
def validateContent (media : List MediaAsset) : Except PyError Unit :=
  ensure (decide (media.map (·.assetId)).Nodup)
    "a message cannot contain duplicate asset_id values"

/-- `message_visual_fingerprint`, for the hash function it is given. -/
def messageVisualFingerprint (sha256 : String → String) (assets : List MediaAsset) :
    Option String :=
  match (assets.filterMap (·.duplicateIdentityPhash)).insertionSort (· ≤ ·) with
  | [] => none
  | hashes => some (sha256 ("message-visual-fingerprint:v1\x1f" ++ "\x1f".intercalate hashes))

/-! ## Components -/

/-- The arguments of `TelegramMessagePart`, which `TelegramMessage` has too. -/
structure TelegramMessagePartFields where
  telegramMessageId : ℕ
  publishedAt : ℤ
  editedAt : Option ℤ := none
  originalText : Option String := none
  telegramMetadata : List (String × Json) := []
  media : List MediaAsset := []

/-- `TelegramMessagePart.__post_init__`. -/
def TelegramMessagePartFields.postInit (part : TelegramMessagePartFields) :
    Except PyError Unit := do
  ensure (0 < part.telegramMessageId) "telegram_message_id must be a positive integer"
  ensure (part.editedAt.all (part.publishedAt ≤ ·)) "edited_at must not be before published_at"
  validateContent part.media

/-- `TelegramMessagePart`. -/
structure TelegramMessagePart extends TelegramMessagePartFields where
  checked : toTelegramMessagePartFields.postInit = .ok ()

/-- `TelegramMessagePart(…)`. -/
def TelegramMessagePartFields.create (fields : TelegramMessagePartFields) :
    Except PyError TelegramMessagePart :=
  match h : fields.postInit with
  | .ok () => .ok ⟨fields, h⟩
  | .error e => .error e

theorem TelegramMessagePartFields.create_eq_ok {fields : TelegramMessagePartFields}
    {part : TelegramMessagePart} (h : fields.create = .ok part) :
    part.toTelegramMessagePartFields = fields := by
  unfold create at h
  split at h
  · rw [← Except.ok.inj h]
  · cases h

theorem TelegramMessagePart.create_eq (part : TelegramMessagePart) :
    part.toTelegramMessagePartFields.create = .ok part := by
  unfold TelegramMessagePartFields.create
  split
  · rfl
  · rename_i h
    rw [part.checked] at h
    cases h

/-- `TelegramMessage`: a part, with its source channel and media group. -/
structure TelegramMessage extends TelegramMessagePart where
  sourceChannelId : ℕ
  telegramGroupedId : Option ℕ := none
  grouped_pos : telegramGroupedId.all (0 < ·) = true

/-- `as_part`. -/
abbrev TelegramMessage.asPart (message : TelegramMessage) : TelegramMessagePart :=
  message.toTelegramMessagePart

theorem TelegramMessagePart.media_nodup (part : TelegramMessagePart) :
    (part.media.map (·.assetId)).Nodup := by
  have h := part.checked
  simp only [TelegramMessagePartFields.postInit, seq_eq_ok, validateContent, ensure_eq_ok,
    decide_eq_true_eq] at h
  exact h.2.2

/-! ## Logical messages -/

/-- `NormalizedTelegramMessage`. -/
structure NormalizedTelegramMessage where
  sourceChannelId : ℕ
  primaryTelegramMessageId : ℕ
  telegramMessageIds : List ℕ
  publishedAt : ℤ
  editedAt : Option ℤ
  originalText : Option String
  telegramGroupedId : Option ℕ
  telegramMetadata : List (String × Json)
  parts : List TelegramMessagePart
  media : List MediaAsset

/-- `NormalizedTelegramMessage.__post_init__`. -/
def NormalizedTelegramMessage.postInit (m : NormalizedTelegramMessage) : Except PyError Unit := do
  ensure (0 < m.primaryTelegramMessageId)
    "primary_telegram_message_id must be a positive integer"
  ensure (!m.telegramMessageIds.isEmpty) "telegram_message_ids must not be empty"
  ensure (decide (m.telegramMessageIds.Pairwise (· ≤ ·)))
    "telegram_message_ids must be strictly sorted"
  ensure (decide m.telegramMessageIds.Nodup) "telegram_message_ids must be unique"
  ensure (decide (some m.primaryTelegramMessageId = m.telegramMessageIds.head?))
    "primary Telegram message ID must be the smallest part ID"
  ensure (m.telegramMessageIds.all (0 < ·)) "telegram_message_ids must be a positive integer"
  ensure (m.telegramGroupedId.all (0 < ·)) "telegram_grouped_id must be a positive integer"
  ensure (m.telegramGroupedId.isSome || m.telegramMessageIds.length = 1)
    "a non-grouped message must have exactly one component ID"
  ensure (m.editedAt.all (m.publishedAt ≤ ·)) "edited_at must not be before published_at"
  ensure (decide (m.parts.map (·.telegramMessageId) = m.telegramMessageIds))
    "parts must match telegram_message_ids in sorted order"
  validateContent m.media

/-- Component ids in order. -/
abbrev TelegramMessagePart.LE (p q : TelegramMessagePart) : Prop :=
  p.telegramMessageId ≤ q.telegramMessageId

/-- `sorted(messages, key=...)` by component id. -/
def orderedParts (parts : List TelegramMessagePart) : List TelegramMessagePart :=
  parts.insertionSort TelegramMessagePart.LE

/-- The logical message of sorted parts. -/
def logicalMessage (sourceChannelId : ℕ) (telegramGroupedId : Option ℕ)
    (first : TelegramMessagePart) (rest : List TelegramMessagePart) :
    NormalizedTelegramMessage where
  sourceChannelId := sourceChannelId
  primaryTelegramMessageId := first.telegramMessageId
  telegramMessageIds := (first :: rest).map (·.telegramMessageId)
  publishedAt := rest.foldl (fun t part => min t part.publishedAt) first.publishedAt
  editedAt := ((first :: rest).filterMap (·.editedAt)).max?
  originalText := (first :: rest).findSome? (·.originalText)
  telegramGroupedId := telegramGroupedId
  telegramMetadata := [("parts", .arr ((first :: rest).map fun part =>
    .obj [("telegram_message_id", .num (.int part.telegramMessageId)),
      ("metadata", .obj part.telegramMetadata)]))]
  parts := first :: rest
  media := (first :: rest).flatMap (·.media)

/-- `_normalize_parts`. -/
def normalizeParts (sourceChannelId : ℕ) (telegramGroupedId : Option ℕ)
    (parts : List TelegramMessagePart) : Except PyError NormalizedTelegramMessage :=
  match orderedParts parts with
  | [] => .error
      (.domainValidation "a logical Telegram message must contain at least one part" [])
  | first :: rest => do
    let message := logicalMessage sourceChannelId telegramGroupedId first rest
    validateContent message.media
    message.postInit
    return message

/-- `normalized_from_parts`. -/
def normalizedFromParts (sourceChannelId : ℕ) (telegramGroupedId : Option ℕ)
    (parts : List TelegramMessagePart) : Except PyError NormalizedTelegramMessage :=
  normalizeParts sourceChannelId telegramGroupedId parts

/-- The identity of a component: its source channel and its message id. -/
abbrev TelegramMessage.component (message : TelegramMessage) : ℕ × ℕ :=
  (message.sourceChannelId, message.telegramMessageId)

/-- One turn of the loop that collects the media groups. -/
def addToGroup (groups : Dict (ℕ × ℕ) (List TelegramMessage)) (message : TelegramMessage) :
    Dict (ℕ × ℕ) (List TelegramMessage) :=
  match message.telegramGroupedId with
  | none => groups
  | some grouped =>
    groups.set (message.sourceChannelId, grouped)
      ((groups.lookup (message.sourceChannelId, grouped)).getD [] ++ [message])

/-- `(source_channel_id, primary_telegram_message_id, telegram_grouped_id is not None)`
in order. -/
abbrev NormalizedTelegramMessage.LE (m n : NormalizedTelegramMessage) : Prop :=
  [m.sourceChannelId, m.primaryTelegramMessageId, m.telegramGroupedId.isSome.toNat] ≤
    [n.sourceChannelId, n.primaryTelegramMessageId, n.telegramGroupedId.isSome.toNat]

/-- `normalize_telegram_messages`. -/
def normalizeTelegramMessages (messages : List TelegramMessage) :
    Except PyError (List NormalizedTelegramMessage) := do
  ensure (decide (messages.map (·.component)).Nodup)
    "a Telegram component message may occur only once in one ingestion batch"
  let regular ← (messages.filter (·.telegramGroupedId.isNone)).mapM fun message =>
    normalizeParts message.sourceChannelId none [message.asPart]
  let grouped ← (messages.foldl addToGroup []).mapM fun group =>
    normalizeParts group.1.1 (some group.1.2) (group.2.map (·.asPart))
  return (regular ++ grouped).insertionSort NormalizedTelegramMessage.LE

/-! ## When normalisation succeeds -/

theorem TelegramMessagePart.id_pos (part : TelegramMessagePart) : 0 < part.telegramMessageId := by
  simpa using (seq_eq_ok.mp part.checked).1

theorem TelegramMessagePart.published_le (part : TelegramMessagePart) {e : ℤ}
    (h : part.editedAt = some e) : part.publishedAt ≤ e := by
  have hedited := (seq_eq_ok.mp (seq_eq_ok.mp part.checked).2).1
  simpa [h] using hedited

theorem orderedParts_perm (parts : List TelegramMessagePart) : (orderedParts parts).Perm parts :=
  List.perm_insertionSort _ _

instance : Std.Total TelegramMessagePart.LE := ⟨fun p q => le_total p.telegramMessageId q.telegramMessageId⟩

instance : IsTrans TelegramMessagePart TelegramMessagePart.LE := ⟨fun _ _ _ h h' => h.trans h'⟩

theorem orderedParts_pairwise (parts : List TelegramMessagePart) :
    (orderedParts parts).Pairwise TelegramMessagePart.LE :=
  List.pairwise_insertionSort _ _

/-- Parts with distinct ids have one order. -/
theorem orderedParts_eq_of_perm {parts parts' : List TelegramMessagePart} (h : parts.Perm parts')
    (hids : (parts.map (·.telegramMessageId)).Nodup) : orderedParts parts = orderedParts parts' := by
  refine List.Perm.eq_of_pairwise ?_ (orderedParts_pairwise parts) (orderedParts_pairwise parts')
    ((orderedParts_perm parts).trans (h.trans (orderedParts_perm parts').symm))
  intro p q hp hq hpq hqp
  have hp' := (orderedParts_perm parts).mem_iff.mp hp
  have hq' := h.mem_iff.mpr ((orderedParts_perm parts').mem_iff.mp hq)
  exact List.inj_on_of_nodup_map hids hp' hq' (le_antisymm hpq hqp)

theorem normalizeParts_eq_ok {sourceChannelId : ℕ} {telegramGroupedId : Option ℕ}
    {parts : List TelegramMessagePart} {m : NormalizedTelegramMessage}
    (h : normalizeParts sourceChannelId telegramGroupedId parts = .ok m) :
    ∃ first rest, orderedParts parts = first :: rest ∧
      m = logicalMessage sourceChannelId telegramGroupedId first rest := by
  unfold normalizeParts at h
  cases ho : orderedParts parts with
  | nil => simp [ho] at h
  | cons first rest =>
    simp only [ho, seq_eq_ok] at h
    exact ⟨first, rest, rfl, (Except.ok.inj h.2.2).symm⟩

/-- The earliest publication is no later than that of any part. -/
theorem foldl_min_le (rest : List TelegramMessagePart) (t : ℤ) :
    rest.foldl (fun t part => min t part.publishedAt) t ≤ t ∧
      ∀ part ∈ rest, rest.foldl (fun t part => min t part.publishedAt) t ≤ part.publishedAt := by
  induction rest generalizing t with
  | nil => simp
  | cons part rest ih =>
    obtain ⟨hle, hall⟩ := ih (min t part.publishedAt)
    refine ⟨hle.trans (min_le_left _ _), fun q hq => ?_⟩
    rcases List.mem_cons.mp hq with rfl | hq
    · exact hle.trans (min_le_right _ _)
    · exact hall q hq

/-- Sorted parts with distinct ids and assets make a logical message the checks accept. -/
theorem postInit_logicalMessage (sourceChannelId : ℕ) {telegramGroupedId : Option ℕ}
    {first : TelegramMessagePart} {rest : List TelegramMessagePart}
    (hsorted : (first :: rest).Pairwise TelegramMessagePart.LE)
    (hids : ((first :: rest).map (·.telegramMessageId)).Nodup)
    (hassets : (((first :: rest).flatMap (·.media)).map (·.assetId)).Nodup)
    (hgrouped : telegramGroupedId.all (0 < ·) = true)
    (hregular : telegramGroupedId = none → rest = []) :
    (logicalMessage sourceChannelId telegramGroupedId first rest).postInit = .ok () := by
  have hpos : ∀ part ∈ first :: rest, 0 < part.telegramMessageId := fun part _ => part.id_pos
  have hedited : ∀ e, ((first :: rest).filterMap (·.editedAt)).max? = some e →
      (logicalMessage sourceChannelId telegramGroupedId first rest).publishedAt ≤ e := by
    intro e he
    obtain ⟨part, hpart, hpe⟩ := List.mem_filterMap.mp (List.max?_mem he)
    obtain ⟨hfirst, hrest⟩ := foldl_min_le rest first.publishedAt
    refine le_trans ?_ (part.published_le hpe)
    rcases List.mem_cons.mp hpart with rfl | hpart
    · exact hfirst
    · exact hrest part hpart
  simp only [NormalizedTelegramMessage.postInit, seq_eq_ok, ensure_eq_ok, validateContent]
  refine ⟨decide_eq_true first.id_pos, rfl, decide_eq_true (List.pairwise_map.mpr hsorted),
    decide_eq_true hids, decide_eq_true rfl, ?_, hgrouped, ?_, ?_, decide_eq_true rfl,
    decide_eq_true hassets⟩
  · rw [List.all_eq_true]
    simpa [logicalMessage] using hpos
  · cases telegramGroupedId with
    | none => simp [logicalMessage, hregular rfl]
    | some _ => rfl
  · cases he : (logicalMessage sourceChannelId telegramGroupedId first rest).editedAt with
    | none => rfl
    | some e => exact decide_eq_true (hedited e he)

/-- Parts with distinct ids and assets normalise. -/
theorem normalizeParts_of_nodup (sourceChannelId : ℕ) {telegramGroupedId : Option ℕ}
    {parts : List TelegramMessagePart} (hne : parts ≠ [])
    (hids : (parts.map (·.telegramMessageId)).Nodup)
    (hassets : ((parts.flatMap (·.media)).map (·.assetId)).Nodup)
    (hgrouped : telegramGroupedId.all (0 < ·) = true)
    (hregular : telegramGroupedId = none → parts.length = 1) :
    ∃ first rest, orderedParts parts = first :: rest ∧
      normalizeParts sourceChannelId telegramGroupedId parts =
        .ok (logicalMessage sourceChannelId telegramGroupedId first rest) := by
  have hperm := orderedParts_perm parts
  have hsorted := orderedParts_pairwise parts
  unfold normalizeParts
  cases ho : orderedParts parts with
  | nil =>
    rw [ho] at hperm
    exact absurd hperm.symm.eq_nil hne
  | cons first rest =>
    rw [ho] at hperm hsorted
    have hassets' : (((first :: rest).flatMap (·.media)).map (·.assetId)).Nodup :=
      (((hperm.flatMap_right _).map _).nodup_iff).mpr hassets
    refine ⟨first, rest, rfl, ?_⟩
    have hpost := postInit_logicalMessage sourceChannelId hsorted
      ((hperm.map _).nodup_iff.mpr hids) hassets' hgrouped fun hnone => by
        have hlength := hperm.length_eq.trans (hregular hnone)
        simpa using hlength
    have hcontent : validateContent
        (logicalMessage sourceChannelId telegramGroupedId first rest).media = .ok () := by
      simpa [validateContent, logicalMessage] using hassets'
    simp only [hcontent, hpost]
    rfl

/-! ## What a batch normalises to -/

/-- The media group of a component, if it is in one. -/
def TelegramMessage.groupKey (message : TelegramMessage) : Option (ℕ × ℕ) :=
  message.telegramGroupedId.map fun grouped => (message.sourceChannelId, grouped)

/-- The collected groups: under each key, the components of that group in order. -/
theorem foldl_addToGroup (messages : List TelegramMessage) :
    (Dict.keys (messages.foldl addToGroup [])).Nodup ∧
      ∀ key group, (messages.foldl addToGroup []).lookup key = some group ↔
        group = messages.filter (·.groupKey = some key) ∧ group ≠ [] := by
  induction messages using List.reverseRecOn with
  | nil => simp
  | append_singleton messages message ih =>
    obtain ⟨hnodup, hlookup⟩ := ih
    rw [List.foldl_append, List.foldl_cons, List.foldl_nil, addToGroup]
    have hfilter : ∀ key, (messages ++ [message]).filter (·.groupKey = some key) =
        messages.filter (·.groupKey = some key) ++
          if message.groupKey = some key then [message] else [] := by
      intro key
      rw [List.filter_append]
      by_cases hkey : message.groupKey = some key <;> simp [hkey]
    cases hgrouped : message.telegramGroupedId with
    | none =>
      refine ⟨hnodup, fun key group => ?_⟩
      rw [hlookup, hfilter]
      simp [TelegramMessage.groupKey, hgrouped]
    | some grouped =>
      have hown : message.groupKey = some (message.sourceChannelId, grouped) := by
        simp [TelegramMessage.groupKey, hgrouped]
      have hold : ((messages.foldl addToGroup []).lookup (message.sourceChannelId, grouped)).getD [] =
          messages.filter (·.groupKey = some (message.sourceChannelId, grouped)) := by
        cases hl : (messages.foldl addToGroup []).lookup (message.sourceChannelId, grouped) with
        | some group => exact ((hlookup _ _).mp hl).1
        | none =>
          by_contra hne
          have hsome := (hlookup _ _).mpr ⟨rfl, fun hnil => hne (by rw [hnil]; rfl)⟩
          simp [hl] at hsome
      refine ⟨Dict.nodup_keys_set hnodup, fun key group => ?_⟩
      dsimp only
      rw [hold, hfilter]
      by_cases hkey : key = (message.sourceChannelId, grouped)
      · subst hkey
        simp only [Dict.lookup_set_self, hown, if_true, Option.some.injEq]
        constructor
        · rintro rfl
          simp
        · rintro ⟨rfl, -⟩
          rfl
      · rw [Dict.lookup_set_of_ne hkey, hlookup, hown]
        simp [Ne.symm hkey]

/-- What an output of a batch is made of: the components of the batch that are regular
with its id, or in its media group. -/
structure NormalizedTelegramMessage.MadeFrom (n : NormalizedTelegramMessage)
    (group batch : List TelegramMessage) : Prop where
  sublist : group.Sublist batch
  source : ∀ m ∈ group, m.sourceChannelId = n.sourceChannelId
  grouped : ∀ m ∈ group, m.telegramGroupedId = n.telegramGroupedId
  normalized : normalizeParts n.sourceChannelId n.telegramGroupedId (group.map (·.asPart)) = .ok n

theorem logicalMessage_parts (s : ℕ) (g : Option ℕ) (first : TelegramMessagePart)
    (rest : List TelegramMessagePart) : (logicalMessage s g first rest).parts = first :: rest :=
  rfl

/-- An output has the parts it is made from. -/
theorem NormalizedTelegramMessage.MadeFrom.parts_perm {n : NormalizedTelegramMessage}
    {group batch : List TelegramMessage} (h : n.MadeFrom group batch) :
    n.parts.Perm (group.map (·.asPart)) := by
  obtain ⟨first, rest, ho, hn⟩ := normalizeParts_eq_ok h.normalized
  rw [hn, logicalMessage_parts, ← ho]
  exact orderedParts_perm _

theorem normalizeParts_fields {s : ℕ} {g : Option ℕ} {parts : List TelegramMessagePart}
    {n : NormalizedTelegramMessage} (h : normalizeParts s g parts = .ok n) :
    n.sourceChannelId = s ∧ n.telegramGroupedId = g := by
  obtain ⟨first, rest, -, rfl⟩ := normalizeParts_eq_ok h
  exact ⟨rfl, rfl⟩

/-- The outputs of a batch, and where each of its components goes. -/
theorem normalizeTelegramMessages_eq_ok {batch : List TelegramMessage}
    {ns : List NormalizedTelegramMessage} (h : normalizeTelegramMessages batch = .ok ns) :
    (batch.map (·.component)).Nodup ∧ (∀ n ∈ ns, ∃ group, n.MadeFrom group batch) ∧
      ∀ m ∈ batch, ∃ n ∈ ns, ∃ group, n.MadeFrom group batch ∧ m ∈ group := by
  unfold normalizeTelegramMessages at h
  obtain ⟨hnodup, h⟩ := seq_eq_ok.mp h
  obtain ⟨regular, hregular, h⟩ := bind_eq_ok.mp h
  obtain ⟨grouped, hgrouped, h⟩ := bind_eq_ok.mp h
  have hperm : ns.Perm (regular ++ grouped) := by
    rw [← Except.ok.inj h]
    exact List.perm_insertionSort _ _
  rw [mapM_eq_ok] at hregular hgrouped
  obtain ⟨hkeys, hgroups⟩ := foldl_addToGroup batch
  -- an output of a regular component, and one of a collected group
  have hone : ∀ m ∈ batch, m.telegramGroupedId = none → ∀ n,
      normalizeParts m.sourceChannelId none [m.asPart] = .ok n → n.MadeFrom [m] batch := by
    intro m hm hnone n hn
    obtain ⟨hs, hg⟩ := normalizeParts_fields hn
    exact ⟨List.singleton_sublist.mpr hm, by simp [hs], by simp [hg, hnone],
      by rw [hs, hg]; exact hn⟩
  have hmany : ∀ key group n, (key, group) ∈ batch.foldl addToGroup [] →
      normalizeParts key.1 (some key.2) (group.map (·.asPart)) = .ok n → n.MadeFrom group batch := by
    intro key group n hmem hn
    obtain ⟨hs, hg⟩ := normalizeParts_fields hn
    obtain ⟨rfl, -⟩ := (hgroups key group).mp (Dict.lookup_of_mem hkeys hmem)
    have hmembers : ∀ m ∈ batch.filter (·.groupKey = some key),
        m.sourceChannelId = key.1 ∧ m.telegramGroupedId = some key.2 := by
      intro m hm
      obtain ⟨g, hmg, rfl⟩ : ∃ g, m.telegramGroupedId = some g ∧ (m.sourceChannelId, g) = key := by
        simpa [TelegramMessage.groupKey] using (List.mem_filter.mp hm).2
      exact ⟨rfl, hmg⟩
    exact ⟨List.filter_sublist, fun m hm => by rw [hs]; exact (hmembers m hm).1,
      fun m hm => by rw [hg]; exact (hmembers m hm).2, by rw [hs, hg]; exact hn⟩
  refine ⟨by simpa using hnodup, fun n hn => ?_, fun m hm => ?_⟩
  · rcases List.mem_append.mp (hperm.mem_iff.mp hn) with hn | hn
    · obtain ⟨m, hm, hmn⟩ := exists_left_of_mem hregular hn
      rw [List.mem_filter, Option.isNone_iff_eq_none] at hm
      exact ⟨[m], hone m hm.1 hm.2 n hmn⟩
    · obtain ⟨⟨key, group⟩, hmem, hkn⟩ := exists_left_of_mem hgrouped hn
      exact ⟨group, hmany key group n hmem hkn⟩
  · cases hg : m.telegramGroupedId with
    | none =>
      obtain ⟨n, hn, hmn⟩ := exists_right_of_mem hregular
        (List.mem_filter.mpr ⟨hm, by simp [hg]⟩)
      exact ⟨n, hperm.mem_iff.mpr (List.mem_append_left _ hn), [m], hone m hm hg n hmn, by simp⟩
    | some g =>
      have hmem : m ∈ batch.filter (·.groupKey = some (m.sourceChannelId, g)) := by
        simp [TelegramMessage.groupKey, hm, hg]
      have hlookup := (hgroups (m.sourceChannelId, g) _).mpr ⟨rfl, List.ne_nil_of_mem hmem⟩
      obtain ⟨n, hn, hkn⟩ := exists_right_of_mem hgrouped (Dict.mem_of_lookup hlookup)
      exact ⟨n, hperm.mem_iff.mpr (List.mem_append_right _ hn), _,
        hmany _ _ n (Dict.mem_of_lookup hlookup) hkn, hmem⟩

/-- A component with a text and no media, published at time 0. -/
def textMessage (source id : ℕ) (grouped editedAt : Option ℕ) (text : String) :
    TelegramMessage where
  telegramMessageId := max 1 id
  publishedAt := 0
  editedAt := editedAt.map fun t => (t : ℤ)
  originalText := some text
  checked := by
    simp only [TelegramMessagePartFields.postInit, seq_eq_ok, ensure_eq_ok, validateContent]
    refine ⟨decide_eq_true (by omega), ?_, rfl⟩
    cases editedAt with
    | none => rfl
    | some t => exact decide_eq_true (Int.natCast_nonneg t)
  sourceChannelId := source
  telegramGroupedId := grouped.map (max 1)
  grouped_pos := by
    cases grouped with
    | none => rfl
    | some g => exact decide_eq_true (show 0 < max 1 g by omega)

end TgCurator
