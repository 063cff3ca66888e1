import TgCurator.Messages.Batch
import TgCurator.Messages.Convergence

/-!
# The caption of an album

`TelethonMessageMapper` of `infrastructure/telegram/telethon_reader.py` passes the text of a
component on as it is, the empty text of a component without a caption included, and a logical
message takes the first text that is not `None`. So the caption of an album is found unless a
component with a smaller id has the empty text (`originalText_eq_caption_iff`).

The text of a source channel id is a parameter.
-/

namespace TgCurator

/-! ## The mapper -/

/-- The attributes the mapper reads. An attribute that is no text, number or boolean is `none`. -/
structure TelethonMessage where
  id : ℕ
  date : ℤ
  editDate : Option ℤ := none
  groupedId : Option ℕ := none
  rawText : Option String := none
  attributes : Dict String (Option Json) := []
  photo : Bool := false
  video : Bool := false
  audio : Bool := false
  document : Bool := false

/-- `_JSON_METADATA_FIELDS`. -/
def jsonMetadataFields : List String :=
  ["post", "silent", "legacy", "edit_hide", "pinned", "noforwards", "views", "forwards",
    "via_bot_id", "post_author"]

/-- `isinstance(value, (str, int, bool))`, or `None`. -/
def isMetadataValue : Json → Bool
  | .null | .bool _ | .str _ | .num (.int _) => true
  | _ => false

/-- `TelegramMessage(…)`. -/
def TelegramMessagePartFields.createMessage (fields : TelegramMessagePartFields)
    (sourceChannelId : ℕ) (telegramGroupedId : Option ℕ) : Except PyError TelegramMessage := do
  ensure (0 < fields.telegramMessageId) "telegram_message_id must be a positive integer"
  if hgrouped : telegramGroupedId.all (0 < ·) = true then
    match h : fields.postInit with
    | .ok () => .ok ⟨⟨fields, h⟩, sourceChannelId, telegramGroupedId, hgrouped⟩
    | .error e => .error e
  else .error (.domainValidation "telegram_grouped_id must be a positive integer" [])

namespace TelethonMessage

/-- `_metadata`. -/
def metadata (message : TelethonMessage) : List (String × Json) :=
  jsonMetadataFields.filterMap fun field =>
    match message.attributes.lookup field with
    | none => some (field, .null)
    | some (some value) => if isMetadataValue value then some (field, value) else none
    | some none => none

/-- The kind of the media. -/
def mediaKind (message : TelethonMessage) : Option MediaKind :=
  if message.photo then some .image
  else if message.video then some .video
  else if message.audio then some .audio
  else if message.document then some .document
  else none

variable (channelText : ℕ → String)

/-- `_media`. -/
def media (message : TelethonMessage) (sourceChannelId : ℕ) : Except PyError (List MediaAsset) :=
  match message.mediaKind with
  | none => .ok []
  | some kind => do
    let asset ← MediaAssetFields.create {
      assetId := "telegram:" ++ channelText sourceChannelId ++ ":" ++ message.id.repr ++ ":0"
      kind
      sourceTelegramMessageId := some message.id }
    return [asset]

/-- `map`. -/
def map (message : TelethonMessage) (sourceChannelId : ℕ) : Except PyError TelegramMessage := do
  let media ← message.media channelText sourceChannelId
  TelegramMessagePartFields.createMessage {
    telegramMessageId := message.id
    publishedAt := message.date
    editedAt := message.editDate
    originalText := message.rawText
    telegramMetadata := message.metadata
    media } sourceChannelId message.groupedId

end TelethonMessage

theorem TelegramMessagePartFields.createMessage_eq_ok {fields : TelegramMessagePartFields}
    {source : ℕ} {grouped : Option ℕ} {m : TelegramMessage}
    (h : fields.createMessage source grouped = .ok m) :
    m.toTelegramMessagePartFields = fields ∧ m.sourceChannelId = source ∧
      m.telegramGroupedId = grouped := by
  unfold createMessage at h
  obtain ⟨-, h⟩ := seq_eq_ok.mp h
  split_ifs at h
  split at h
  · rw [← Except.ok.inj h]
    exact ⟨rfl, rfl, rfl⟩
  · cases h

theorem TelethonMessage.media_eq_ok {channelText : ℕ → String} {message : TelethonMessage}
    {source : ℕ} {media : List MediaAsset} (h : message.media channelText source = .ok media) :
    ∀ asset ∈ media,
      asset.assetId = "telegram:" ++ channelText source ++ ":" ++ message.id.repr ++ ":0" := by
  unfold TelethonMessage.media at h
  cases hkind : message.mediaKind with
  | none =>
    rw [hkind] at h
    rw [← Except.ok.inj h]
    exact fun asset hasset => absurd hasset List.not_mem_nil
  | some kind =>
    rw [hkind] at h
    obtain ⟨asset, hasset, h⟩ := bind_eq_ok.mp h
    rw [← Except.ok.inj h]
    intro asset' hasset'
    rw [List.mem_singleton.mp hasset', MediaAssetFields.create_eq_ok hasset]

/-- What the mapper passes on. -/
theorem TelethonMessage.map_eq_ok {channelText : ℕ → String} {message : TelethonMessage}
    {source : ℕ} {m : TelegramMessage} (h : message.map channelText source = .ok m) :
    m.telegramMessageId = message.id ∧ m.originalText = message.rawText ∧
      m.sourceChannelId = source ∧ m.telegramGroupedId = message.groupedId ∧
      ∀ asset ∈ m.media,
        asset.assetId = "telegram:" ++ channelText source ++ ":" ++ message.id.repr ++ ":0" := by
  unfold map at h
  obtain ⟨media, hmedia, h⟩ := bind_eq_ok.mp h
  obtain ⟨hfields, hsource, hgrouped⟩ := TelegramMessagePartFields.createMessage_eq_ok h
  rw [hfields]
  exact ⟨rfl, rfl, hsource, hgrouped, TelethonMessage.media_eq_ok hmedia⟩

theorem repr_injective : Function.Injective Nat.repr := by
  intro n m h
  have hdigits := congrArg (fun text => Nat.ofDigitChars 10 (String.toList text) 0) h
  simpa only [Nat.toList_repr, Nat.ofDigitChars_ten_toDigits] using hdigits

/-! ## The components of an album -/

/-- The components of a media group, as the mapper passes them on. -/
structure MappedGroup (channelText : ℕ → String) (source grouped : ℕ)
    (group : List TelethonMessage) (V : List TelegramMessage) : Prop where
  mapped : List.Forall₂ (fun raw m => raw.map channelText source = .ok m) group V
  groupedId : ∀ raw ∈ group, raw.groupedId = some grouped
  ids_nodup : (group.map (·.id)).Nodup

namespace MappedGroup

variable {channelText : ℕ → String} {source grouped : ℕ} {group : List TelethonMessage}
  {V : List TelegramMessage}

theorem of_mem (h : MappedGroup channelText source grouped group V) {m : TelegramMessage}
    (hm : m ∈ V) : m.component = (source, m.telegramMessageId) ∧
      m.key = .grouped source grouped := by
  obtain ⟨raw, hraw, hmap⟩ := exists_left_of_mem h.mapped hm
  obtain ⟨-, -, hsource, hgrouped, -⟩ := TelethonMessage.map_eq_ok hmap
  rw [h.groupedId raw hraw] at hgrouped
  exact ⟨by rw [TelegramMessage.component, hsource],
    by rw [TelegramMessage.key, hsource, hgrouped, messageKey]⟩

theorem versions_nodup (h : MappedGroup channelText source grouped group V) :
    (V.map (·.telegramMessageId)).Nodup := by
  rw [map_eq_of_forall₂ h.mapped fun raw _ m hmap => (TelethonMessage.map_eq_ok hmap).1]
  exact h.ids_nodup

/-- A component has one version. -/
theorem eq_of_component (h : MappedGroup channelText source grouped group V)
    {v w : TelegramMessage} (hv : v ∈ V) (hw : w ∈ V) (heq : v.component = w.component) : v = w :=
  List.inj_on_of_nodup_map h.versions_nodup hv hw (congrArg Prod.snd heq)

/-- The components are a set of versions. -/
theorem versionSet (h : MappedGroup channelText source grouped group V) : VersionSet V := by
  refine ⟨⟨?_, ?_, ?_⟩, ?_⟩
  · intro v hv w hw heq
    rw [h.eq_of_component hv hw heq]
  · intro v hv w hw heq
    rw [h.eq_of_component hv hw heq]
  · intro v hv w hw hne a ha b hb hab
    obtain ⟨raw, hraw, hmap⟩ := exists_left_of_mem h.mapped hv
    obtain ⟨raw', hraw', hmap'⟩ := exists_left_of_mem h.mapped hw
    obtain ⟨hid, -, -, -, hassets⟩ := TelethonMessage.map_eq_ok hmap
    obtain ⟨hid', -, -, -, hassets'⟩ := TelethonMessage.map_eq_ok hmap'
    rw [hassets a ha, hassets' b hb, String.append_left_inj, String.append_right_inj] at hab
    refine hne ?_
    rw [(h.of_mem hv).1, (h.of_mem hw).1, hid, hid', repr_injective hab]
  · exact fun v hv w hw heq _ => h.eq_of_component hv hw heq

end MappedGroup

/-! ## The first text -/

/-- The text of sorted parts, next to a part with a text before which no part has another text
than the empty one. -/
theorem findSome?_originalText_iff {parts : List TelegramMessagePart}
    (hsorted : parts.Pairwise TelegramMessagePart.LE)
    (hids : (parts.map (·.telegramMessageId)).Nodup) {captioned : TelegramMessagePart}
    (hcaptioned : captioned ∈ parts) {text : String} (htext : captioned.originalText = some text)
    (hne : text ≠ "")
    (hfirst : ∀ part ∈ parts, part.telegramMessageId < captioned.telegramMessageId →
      part.originalText = none ∨ part.originalText = some "") :
    parts.findSome? (·.originalText) = some text ↔
      ∀ part ∈ parts, part.telegramMessageId < captioned.telegramMessageId →
        part.originalText = none := by
  constructor
  · intro hfind part hpart hlt
    obtain ⟨before, found, after, rfl, hfound, hbefore⟩ := List.findSome?_eq_some_iff.mp hfind
    have hle : captioned.telegramMessageId ≤ found.telegramMessageId := by
      by_contra hlt'
      rcases hfirst found (by simp) (by omega) with h | h
      · cases hfound.symm.trans h
      · exact hne (Option.some.inj (hfound.symm.trans h))
    rw [List.mem_append] at hpart
    rcases hpart with hpart | hpart
    · exact hbefore part hpart
    · rw [List.pairwise_append] at hsorted
      rcases List.mem_cons.mp hpart with rfl | hafter
      · omega
      · have := (List.pairwise_cons.mp hsorted.2.1).1 part hafter
        unfold TelegramMessagePart.LE at this
        omega
  · intro hnone
    obtain ⟨before, after, rfl⟩ := List.append_of_mem hcaptioned
    refine List.findSome?_eq_some_iff.mpr ⟨before, captioned, after, rfl, htext, ?_⟩
    intro part hpart
    refine hnone part (List.mem_append_left _ hpart) ?_
    rw [List.pairwise_append] at hsorted
    have hle := hsorted.2.2 part hpart captioned (List.mem_cons_self ..)
    refine lt_of_le_of_ne hle fun heq => ?_
    rw [List.map_append, List.nodup_append] at hids
    exact hids.2.2 _ (List.mem_map_of_mem hpart) _
      (List.mem_map_of_mem (List.mem_cons_self ..)) heq

/-! ## The stored caption -/

/-- The parts of the message of an album are the components. -/
theorem mem_retainedParts_of_group {channelText : ℕ → String} {source grouped : ℕ}
    {group : List TelethonMessage} {V log : List TelegramMessage} {sha256 : String → String}
    {s : Store} (h : MappedGroup channelText source grouped group V)
    (hrep : s.Represents sha256 log) (hlog : ∀ v, v ∈ log ↔ v ∈ V) {id : ℕ}
    (hid : Store.keyOf s.messages id = some (.grouped source grouped)) {part : TelegramMessagePart} :
    part ∈ retainedParts s.parts id ↔ ∃ v ∈ V, v.asPart = part := by
  rw [hrep.parts.mem_retainedParts hid fun id' hid' => hrep.unique id' id _ hid' hid]
  constructor
  · rintro ⟨c, v, hv, -, rfl⟩
    exact ⟨v, (hlog v).mp (currentVersion_mem hv).1, rfl⟩
  · rintro ⟨v, hv, rfl⟩
    have hcons : Consistent log := h.versionSet.toConsistent.mono fun u hu => (hlog u).mp hu
    obtain ⟨w, hw, -⟩ := exists_currentVersion hcons ((hlog v).mpr hv)
    obtain ⟨hwmem, hwc⟩ := currentVersion_mem hw
    obtain rfl := h.eq_of_component ((hlog w).mp hwmem) hv hwc
    exact ⟨w.component, w, hw, (h.of_mem hv).2, rfl⟩

/-- The text of an album is its caption, the text of the component with the smallest id among
those with a text that is not empty, exactly when every component with a smaller id has no text
at all. This holds whatever the batches the components come in, and the order of the batches. -/
theorem originalText_eq_caption_iff (sha256 : String → String) {channelText : ℕ → String}
    {source grouped : ℕ} {group : List TelethonMessage} {V : List TelegramMessage}
    (hgroup : MappedGroup channelText source grouped group V)
    {batches : List (List TelegramMessage)} (hbatches : Delivers batches V)
    {upserts : List NormalizedTelegramMessage} (hrun : IngestRun batches upserts)
    {captioned : TelethonMessage} (hcaptioned : captioned ∈ group) {text : String}
    (htext : captioned.rawText = some text) (hne : text ≠ "")
    (hfirst : ∀ raw ∈ group, raw.id < captioned.id →
      raw.rawText = none ∨ raw.rawText = some "") :
    ∃ s id row, Store.upsertAll sha256 {} upserts = (s, .ok ()) ∧
      s.messages.lookup id = some row ∧ row.key = .grouped source grouped ∧
      (row.originalText = some text ↔
        ∀ raw ∈ group, raw.id < captioned.id → raw.rawText = none) := by
  obtain ⟨s, log, hs, hrep, hlog⟩ := hrun.represents sha256 hgroup.versionSet hbatches
  obtain ⟨m, hm, hmap⟩ := exists_right_of_mem hgroup.mapped hcaptioned
  obtain ⟨hmid, hmtext, -⟩ := TelethonMessage.map_eq_ok hmap
  have hcons : Consistent log := hgroup.versionSet.toConsistent.mono fun u hu => (hlog u).mp hu
  obtain ⟨w, hw, hwkey⟩ := exists_currentVersion hcons ((hlog m).mpr hm)
  obtain ⟨id, hid⟩ := hrep.exists_id_of_version hw
  rw [hwkey, (hgroup.of_mem hm).2] at hid
  obtain ⟨row, hrow, hkey⟩ := keyOf_eq_some.mp hid
  refine ⟨s, id, row, hs, hrow, hkey, ?_⟩
  obtain ⟨n, hn, hrow'⟩ := hrep.parent id row hrow
  obtain ⟨first, rest, horder, hlogical⟩ := normalizeParts_eq_ok hn
  have horiginal : row.originalText = (first :: rest).findSome? (·.originalText) := by
    rw [hrow', messageRow, hlogical]
    rfl
  have hparts : ∀ part, part ∈ first :: rest ↔ ∃ v ∈ V, v.asPart = part := by
    intro part
    rw [← horder, (orderedParts_perm _).mem_iff]
    exact mem_retainedParts_of_group hgroup hrep hlog hid
  have hsorted := orderedParts_pairwise (retainedParts s.parts id)
  have hids := ((orderedParts_perm (retainedParts s.parts id)).map
    (·.telegramMessageId)).nodup_iff.mpr (hrep.parts.retainedParts_ids hid)
  rw [horder] at hsorted hids
  -- a part stands for a component
  have hraw : ∀ P : ℕ → Option String → Prop,
      (∀ part ∈ first :: rest, P part.telegramMessageId part.originalText) ↔
        ∀ raw ∈ group, P raw.id raw.rawText := by
    intro P
    constructor
    · intro h raw hmem
      obtain ⟨v, hv, hmapv⟩ := exists_right_of_mem hgroup.mapped hmem
      obtain ⟨hvid, hvtext, -⟩ := TelethonMessage.map_eq_ok hmapv
      rw [← hvid, ← hvtext]
      exact h v.asPart ((hparts _).mpr ⟨v, hv, rfl⟩)
    · intro h part hpart
      obtain ⟨v, hv, rfl⟩ := (hparts part).mp hpart
      obtain ⟨raw, hmem, hmapv⟩ := exists_left_of_mem hgroup.mapped hv
      obtain ⟨hvid, hvtext, -⟩ := TelethonMessage.map_eq_ok hmapv
      rw [hvid, hvtext]
      exact h raw hmem
  have hfirst' := (hraw fun i t => i < captioned.id → t = none ∨ t = some "").mpr hfirst
  refine Iff.trans ?_ (hraw fun i t => i < captioned.id → t = none)
  rw [horiginal, ← hmid]
  exact findSome?_originalText_iff hsorted hids ((hparts m.asPart).mpr ⟨m, hm, rfl⟩)
    (hmtext.trans htext) hne (hmid ▸ hfirst')

/-- Two photos of which one has a caption. -/
def sampleAlbum (captionFirst : Bool) : List TelethonMessage :=
  [{ id := 5, date := 0, groupedId := some 7, photo := true
     rawText := some (if captionFirst then "caption" else "") },
    { id := 6, date := 0, groupedId := some 7, photo := true
      rawText := some (if captionFirst then "" else "caption") }]

/-- The text of every channel id in the album. -/
def sampleChannelText (_ : ℕ) : String :=
  "00000000-0000-4000-8000-000000000001"

theorem exists_sampleRun (captionFirst : Bool) : ∃ V upserts,
    MappedGroup sampleChannelText 1 7 (sampleAlbum captionFirst) V ∧ Delivers [V] V ∧
      IngestRun [V] upserts := by
  have hok : ((sampleAlbum captionFirst).mapM
      (TelethonMessage.map sampleChannelText · 1)).isOk = true := by
    cases captionFirst <;> decide +kernel
  cases hmap : (sampleAlbum captionFirst).mapM (TelethonMessage.map sampleChannelText · 1) with
  | error e =>
    rw [hmap] at hok
    cases hok
  | ok V =>
    have hgroup : MappedGroup sampleChannelText 1 7 (sampleAlbum captionFirst) V := by
      refine ⟨mapM_eq_ok.mp hmap, ?_, ?_⟩
      · simp [sampleAlbum]
      · simp [sampleAlbum]
    have hnodup : (V.map (·.component)).Nodup := by
      refine List.Nodup.of_map Prod.snd ?_
      rw [List.map_map]
      exact hgroup.versions_nodup
    obtain ⟨ns, hns⟩ := normalizeTelegramMessages_of_consistent hgroup.versionSet.toConsistent hnodup
    refine ⟨V, ns, hgroup, ⟨?_, ?_, ?_⟩, [ns], .cons hns .nil, by simp⟩
    · simp
    · simpa using hnodup
    · simp

theorem originalText_eq_caption_iff_album : ∃ V upserts s id row,
    IngestRun [V] upserts ∧ Store.upsertAll (fun text => text) {} upserts = (s, .ok ()) ∧
      s.messages.lookup id = some row ∧ row.originalText = some "caption" := by
  obtain ⟨V, upserts, hgroup, hbatches, hrun⟩ := exists_sampleRun true
  obtain ⟨s, id, row, hs, hrow, -, htext⟩ := originalText_eq_caption_iff (fun text => text) hgroup
    hbatches hrun (List.mem_cons_self ..) rfl (by decide) (by simp [sampleAlbum])
  exact ⟨V, upserts, s, id, row, hrun, hs, hrow, htext.mpr (by simp [sampleAlbum])⟩

/-- The caption is on the second photo, and the message has the empty text. -/
theorem caption_lost : ∃ V upserts s row,
    (sampleAlbum false).mapM (TelethonMessage.map sampleChannelText · 1) = .ok V ∧
      normalizeTelegramMessages V = .ok upserts ∧
      Store.upsertAll (fun text => text) {} upserts = (s, .ok ()) ∧
      s.messages = [(0, row)] ∧ row.originalText ≠ some "caption" := by
  have h : (((sampleAlbum false).mapM
      (TelethonMessage.map sampleChannelText · 1)).toOption.any fun V =>
        (normalizeTelegramMessages V).toOption.any fun upserts =>
          let run := Store.upsertAll (fun text => text) {} upserts
          run.2.toOption.isSome && (run.1.messages.map Prod.fst = [0] &&
            run.1.messages.all fun e => e.2.originalText ≠ some "caption")) = true := by
    decide +kernel
  simp only [Option.any_eq_true, toOption_eq_some, Bool.and_eq_true, decide_eq_true_eq,
    List.all_eq_true, Option.isSome_iff_exists] at h
  obtain ⟨V, hV, upserts, hupserts, ⟨u, hu⟩, hkeys, htext⟩ := h
  obtain ⟨⟨id, row⟩, hrow, rfl⟩ := List.map_eq_singleton_iff.mp hkeys
  refine ⟨V, upserts, _, row, hV, hupserts, Prod.ext rfl hu, hrow, ?_⟩
  exact htext (0, row) (by rw [hrow]; exact List.mem_singleton_self _)

end TgCurator
