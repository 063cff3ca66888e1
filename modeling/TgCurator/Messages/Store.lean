import TgCurator.Messages.Telegram

/-!
# The message store

`upsert_message` of `infrastructure/database/message_ingest_repository.py` and
`MessageIngestService`. A transaction takes one logical message: it finds or inserts the
parent by its identity, upserts the parts without accepting an older edit, checks that
every part belongs to the parent, and recomputes the parent from all its retained parts.

A table is a dictionary under its unique key: parts under source channel and component
id, messages under their row id. Row ids are drawn from a counter, standing for `uuid4`.
A JSONB column gives back the value written to it, and `sha256` is a parameter. The image
and video asset rows and the wake-ups that the same transaction writes are not part of
this store: no function here reads them.
-/

namespace TgCurator

/-! ## Rows -/

/-- A row of `message_parts`, apart from its key. -/
structure PartRow where
  messageId : ℕ
  part : TelegramMessagePart

/-- A row of `messages`, apart from its id. -/
structure MessageRow where
  sourceChannelId : ℕ
  telegramGroupedId : Option ℕ
  telegramMessageIds : List ℕ
  primaryTelegramMessageId : ℕ
  publishedAt : ℤ
  editedAt : Option ℤ
  originalText : Option String
  telegramMetadata : List (String × Json)
  mediaCount : ℕ
  visualFingerprint : Option String

/-- The tables. -/
structure Store where
  messages : Dict ℕ MessageRow := []
  parts : Dict (ℕ × ℕ) PartRow := []
  nextId : ℕ := 0

/-- The identity of a logical message: the two partial unique indexes. -/
inductive MessageKey
  | regular (sourceChannelId primaryTelegramMessageId : ℕ)
  | grouped (sourceChannelId telegramGroupedId : ℕ)
  deriving DecidableEq

/-- The identity of a message with the given columns. -/
def messageKey (sourceChannelId : ℕ) (telegramGroupedId : Option ℕ) (primary : ℕ) : MessageKey :=
  match telegramGroupedId with
  | none => .regular sourceChannelId primary
  | some grouped => .grouped sourceChannelId grouped

/-- The identity of a stored message. -/
def MessageRow.key (row : MessageRow) : MessageKey :=
  messageKey row.sourceChannelId row.telegramGroupedId row.primaryTelegramMessageId

/-- The identity of a logical message. -/
def NormalizedTelegramMessage.key (m : NormalizedTelegramMessage) : MessageKey :=
  messageKey m.sourceChannelId m.telegramGroupedId m.primaryTelegramMessageId

/-- The identity of the logical message a component belongs to. -/
def TelegramMessage.key (message : TelegramMessage) : MessageKey :=
  messageKey message.sourceChannelId message.telegramGroupedId message.telegramMessageId

section

variable (sha256 : String → String)

/-- The columns a logical message is written to. -/
def messageRow (m : NormalizedTelegramMessage) : MessageRow where
  sourceChannelId := m.sourceChannelId
  telegramGroupedId := m.telegramGroupedId
  telegramMessageIds := m.telegramMessageIds
  primaryTelegramMessageId := m.primaryTelegramMessageId
  publishedAt := m.publishedAt
  editedAt := m.editedAt
  originalText := m.originalText
  telegramMetadata := m.telegramMetadata
  mediaCount := m.media.length
  visualFingerprint := messageVisualFingerprint sha256 m.media

/-! ## The transaction -/

namespace Store

/-- `message_upsert_statement`: the id of the parent, inserted if its identity is new. -/
def messageUpsert (s : Store) (m : NormalizedTelegramMessage) : Store × ℕ :=
  match s.messages.find? (·.2.key = m.key) with
  | some e => (s, e.1)
  | none =>
    ({ s with messages := s.messages.set s.nextId (messageRow sha256 m), nextId := s.nextId + 1 },
      s.nextId)

/-- `incoming_is_not_stale`. -/
def incomingIsNotStale (stored incoming : Option ℤ) : Bool :=
  match stored, incoming with
  | none, _ => true
  | some _, none => false
  | some s, some i => s ≤ i

end Store

theorem TelegramMessagePart.checked_replace (stored incoming : TelegramMessagePart) :
    ({ incoming.toTelegramMessagePartFields with
      publishedAt := min stored.publishedAt incoming.publishedAt } :
        TelegramMessagePartFields).postInit = .ok () := by
  have h := incoming.checked
  simp only [TelegramMessagePartFields.postInit, seq_eq_ok, ensure_eq_ok, validateContent] at h ⊢
  refine ⟨h.1, ?_, h.2.2⟩
  cases he : incoming.editedAt with
  | none => rfl
  | some e =>
    have hle := incoming.published_le he
    simp [hle]

/-- The `set_` of `message_parts_upsert_statement`: the incoming columns, with the
earlier publication. -/
def TelegramMessagePart.replacedBy (stored incoming : TelegramMessagePart) :
    TelegramMessagePart where
  toTelegramMessagePartFields :=
    { incoming.toTelegramMessagePartFields with
      publishedAt := min stored.publishedAt incoming.publishedAt }
  checked := stored.checked_replace incoming

/-- `message_parts_upsert_statement`, for one part. -/
def partUpsert (messageId sourceChannelId : ℕ) (parts : Dict (ℕ × ℕ) PartRow)
    (part : TelegramMessagePart) : Dict (ℕ × ℕ) PartRow :=
  match parts.lookup (sourceChannelId, part.telegramMessageId) with
  | none => parts.set (sourceChannelId, part.telegramMessageId) ⟨messageId, part⟩
  | some row =>
    if row.messageId = messageId ∧ Store.incomingIsNotStale row.part.editedAt part.editedAt then
      parts.set (sourceChannelId, part.telegramMessageId) ⟨messageId, row.part.replacedBy part⟩
    else parts

/-- `_validate_component_ownership`. -/
def validateComponentOwnership (messageId sourceChannelId : ℕ) (requestedIds : List ℕ)
    (parts : Dict (ℕ × ℕ) PartRow) : Except PyError Unit := do
  let wrongOwnerIds := requestedIds.filter fun id =>
    (parts.lookup (sourceChannelId, id)).any fun row => row.messageId ≠ messageId
  ensure wrongOwnerIds.isEmpty
    "Telegram component IDs already belong to a different logical message: %"
    (wrongOwnerIds.map Nat.repr)
  let missingIds := requestedIds.filter fun id => (parts.lookup (sourceChannelId, id)).isNone
  ensure missingIds.isEmpty "Telegram component IDs could not be retained atomically: %"
    (missingIds.map Nat.repr)

/-- `message_parts_for_parent_statement`. -/
def retainedParts (parts : Dict (ℕ × ℕ) PartRow) (messageId : ℕ) : List TelegramMessagePart :=
  orderedParts ((parts.filter (·.2.messageId = messageId)).map (·.2.part))

/-- `message_parent_update_statement`. -/
def messageParentUpdate (messages : Dict ℕ MessageRow) (messageId : ℕ)
    (m : NormalizedTelegramMessage) : Dict ℕ MessageRow :=
  match messages.lookup messageId with
  | none => messages
  | some row =>
    messages.set messageId
      { row with
        telegramMessageIds := m.telegramMessageIds
        primaryTelegramMessageId := m.primaryTelegramMessageId
        publishedAt := m.publishedAt
        editedAt := m.editedAt
        originalText := m.originalText
        telegramMetadata := m.telegramMetadata
        mediaCount := m.media.length
        visualFingerprint := messageVisualFingerprint sha256 m.media }

/-- `upsert_message`. An exception rolls the transaction back. -/
def Store.upsertMessage (s : Store) (m : NormalizedTelegramMessage) : Except PyError Store := do
  let (s, messageId) := s.messageUpsert sha256 m
  let parts := m.parts.foldl (partUpsert messageId m.sourceChannelId) s.parts
  validateComponentOwnership messageId m.sourceChannelId m.telegramMessageIds parts
  let recomputed ← normalizedFromParts m.sourceChannelId m.telegramGroupedId
    (retainedParts parts messageId)
  return { s with messages := messageParentUpdate sha256 s.messages messageId recomputed, parts }

/-! ## The ingest service -/

/-- `IngestReport`. -/
structure IngestReport where
  logicalMessages : ℕ
  componentMessages : ℕ
  deriving DecidableEq

/-- The loop of `_ingest`: one transaction for each logical message. An exception ends
it and leaves what was committed. -/
def Store.upsertAll (s : Store) : List NormalizedTelegramMessage → Store × Except PyError Unit
  | [] => (s, .ok ())
  | m :: ms =>
    match s.upsertMessage sha256 m with
    | .ok s => s.upsertAll ms
    | .error e => (s, .error e)

/-- `MessageIngestService._ingest`. -/
def Store.ingest (s : Store) (messages : List TelegramMessage) :
    Store × Except PyError IngestReport :=
  match normalizeTelegramMessages messages with
  | .error e => (s, .error e)
  | .ok normalized =>
    match s.upsertAll sha256 normalized with
    | (s, .error e) => (s, .error e)
    | (s, .ok ()) => (s, .ok ⟨normalized.length,
        (normalized.map (·.telegramMessageIds.length)).foldl (· + ·) 0⟩)

/-! ## What an upsert stores -/

variable {sha256}

theorem isSome_partUpsert {messageId source : ℕ} {parts : Dict (ℕ × ℕ) PartRow}
    {part : TelegramMessagePart} {c : ℕ × ℕ} (h : (parts.lookup c).isSome = true) :
    ((partUpsert messageId source parts part).lookup c).isSome = true := by
  have hset : ∀ row, ((parts.set (source, part.telegramMessageId) row).lookup c).isSome = true := by
    intro row
    by_cases hc : c = (source, part.telegramMessageId)
    · rw [hc, Dict.lookup_set_self]
      rfl
    · rw [Dict.lookup_set_of_ne hc]
      exact h
  unfold partUpsert
  cases parts.lookup (source, part.telegramMessageId) with
  | none => exact hset _
  | some row =>
    dsimp only
    split_ifs
    · exact hset _
    · exact h

theorem isSome_foldl_partUpsert {messageId source : ℕ} {c : ℕ × ℕ}
    (ps : List TelegramMessagePart) : ∀ {parts : Dict (ℕ × ℕ) PartRow},
      (parts.lookup c).isSome = true →
        ((ps.foldl (partUpsert messageId source) parts).lookup c).isSome = true := by
  induction ps with
  | nil => exact fun h => h
  | cons p ps ih => exact fun h => ih (isSome_partUpsert h)

/-- An upsert that succeeds has stored its components, and loses none. -/
theorem upsertMessage_stored {s s' : Store} {m : NormalizedTelegramMessage}
    (h : s.upsertMessage sha256 m = .ok s') :
    (∀ c, (s.parts.lookup c).isSome = true → (s'.parts.lookup c).isSome = true) ∧
      ∀ i ∈ m.telegramMessageIds, (s'.parts.lookup (m.sourceChannelId, i)).isSome = true := by
  have hparts : (s.messageUpsert sha256 m).1.parts = s.parts := by
    unfold Store.messageUpsert
    cases s.messages.find? (·.2.key = m.key) <;> rfl
  unfold Store.upsertMessage at h
  generalize s.messageUpsert sha256 m = up at hparts h
  obtain ⟨s1, id⟩ := up
  dsimp only at hparts h
  obtain ⟨hownership, h⟩ := seq_eq_ok.mp h
  obtain ⟨recomputed, -, h⟩ := bind_eq_ok.mp h
  obtain rfl := Except.ok.inj h
  dsimp only
  refine ⟨fun c hc => isSome_foldl_partUpsert _ (hparts ▸ hc), fun i hi => ?_⟩
  simp only [validateComponentOwnership, seq_eq_ok, ensure_eq_ok, List.isEmpty_iff,
    List.filter_eq_nil_iff] at hownership
  have hmissing := hownership.2 i hi
  cases hl : (m.parts.foldl (partUpsert id m.sourceChannelId) s1.parts).lookup
      (m.sourceChannelId, i) with
  | none => simp [hl] at hmissing
  | some row => rfl

end

end TgCurator
