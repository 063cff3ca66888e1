import TgCurator.Messages.Store
import TgCurator.Runs

/-!
# Changes of the source

`SqlAlchemySourceMessageLifecycleRepository` of
`infrastructure/database/source_lifecycle_repository.py`, next to the upserts of the message
store: edits and deletions of components that are already stored. Each is one transaction, which
an exception rolls back.

A processed message is to remember that its source changed. `record_edit` sees to it
(`recordEdit_changed`), and so does `upsert_message` exactly when it stores nothing new in the
message or the change is known already (`upsert_changed_iff`). `changed_of_run` is about runs whose
upserts meet that condition, and `edit_unnoticed` is an edit that comes with an upsert.
-/

namespace TgCurator

/-! ## Lifecycle columns -/

/-- The `processing_status` of a message. -/
inductive ProcessingStatus
  | ingested | processing | processed | failed
  deriving DecidableEq

/-- The columns of `messages` that no upsert writes. -/
structure SourceLifecycle where
  processingStatus : ProcessingStatus := .ingested
  sourceChangedAfterProcessing : Bool := false
  sourceDeleted : Bool := false
  sourceDeletedAt : Option ℤ := none

/-- The message store with the lifecycle of its messages. A message without an entry has the
defaults of the columns. -/
structure SourceStore extends Store where
  lifecycle : Dict ℕ SourceLifecycle := []

/-- The lifecycle of a message. -/
def SourceStore.lifecycleOf (s : SourceStore) (id : ℕ) : SourceLifecycle :=
  (s.lifecycle.lookup id).getD {}

/-! ## Transactions -/

/-- The arguments of `record_edit`. -/
structure SourceEdit where
  sourceChannelId : ℕ
  telegramMessageId : ℕ
  originalText : Option String
  telegramMetadata : List (String × Json)
  media : List MediaAsset
  editedAt : ℤ

/-- `source_message_with_component_statement`. -/
def Store.sourceMessageWithComponent (s : Store) (sourceChannelId telegramMessageId : ℕ) :
    Option (PartRow × MessageRow) := do
  let part ← s.parts.lookup (sourceChannelId, telegramMessageId)
  let parent ← s.messages.lookup part.messageId
  if parent.sourceChannelId = sourceChannelId then some (part, parent) else none

/-- `source_message_edit_statement`, for the fields of a part. -/
def SourceEdit.fields (edit : SourceEdit) (part : TelegramMessagePart) :
    TelegramMessagePartFields where
  telegramMessageId := part.telegramMessageId
  publishedAt := part.publishedAt
  editedAt := some edit.editedAt
  originalText := edit.originalText
  telegramMetadata := edit.telegramMetadata
  media := edit.media

variable (sha256 : String → String)

namespace SourceStore

/-- `parent.source_changed_after_processing = True`, if the message is processed. -/
def noteChange (lifecycle : SourceLifecycle) : SourceLifecycle :=
  if lifecycle.processingStatus = .processed then
    { lifecycle with sourceChangedAfterProcessing := true }
  else lifecycle

/-- `record_edit`. -/
def recordEdit (s : SourceStore) (edit : SourceEdit) : Except PyError (SourceStore × Bool) :=
  match s.sourceMessageWithComponent edit.sourceChannelId edit.telegramMessageId with
  | none => .ok (s, false)
  | some (row, parent) =>
    if row.part.editedAt.any (edit.editedAt ≤ ·) then .ok (s, false)
    else do
      let part ← (edit.fields row.part).create
      let parts := s.parts.set (edit.sourceChannelId, edit.telegramMessageId)
        ⟨row.messageId, part⟩
      let recomputed ← normalizedFromParts edit.sourceChannelId parent.telegramGroupedId
        (retainedParts parts row.messageId)
      return ({ s with
        messages := messageParentUpdate sha256 s.messages row.messageId recomputed
        parts
        lifecycle := s.lifecycle.set row.messageId (noteChange (s.lifecycleOf row.messageId)) },
        true)

/-- `record_deletion`. -/
def recordDeletion (s : SourceStore) (sourceChannelId telegramMessageId : ℕ) (deletedAt : ℤ) :
    SourceStore × Bool :=
  match s.sourceMessageWithComponent sourceChannelId telegramMessageId with
  | none => (s, false)
  | some (row, _) =>
    let parent := s.lifecycleOf row.messageId
    if parent.sourceDeletedAt.isSome then (s, false)
    else ({ s with
      lifecycle := s.lifecycle.set row.messageId { parent with
        sourceDeleted := true
        sourceDeletedAt := some deletedAt
        sourceChangedAfterProcessing :=
          parent.sourceChangedAfterProcessing || parent.processingStatus = .processed } }, true)

/-- `upsert_message`. -/
def upsertMessage (s : SourceStore) (m : NormalizedTelegramMessage) : Except PyError SourceStore := do
  return { s with toStore := ← s.toStore.upsertMessage sha256 m }

end SourceStore

/-- The calls that change stored messages. -/
inductive LifecycleCall
  | edit (edit : SourceEdit)
  | deletion (sourceChannelId telegramMessageId : ℕ) (deletedAt : ℤ)
  | upsert (m : NormalizedTelegramMessage) (checked : m.postInit = .ok ())

/-- What a call leaves: an exception rolls its transaction back. -/
def SourceStore.apply (s : SourceStore) : LifecycleCall → SourceStore
  | .edit edit =>
    match s.recordEdit sha256 edit with
    | .ok (s', _) => s'
    | .error _ => s
  | .deletion sourceChannelId telegramMessageId deletedAt =>
    (s.recordDeletion sourceChannelId telegramMessageId deletedAt).1
  | .upsert m _ =>
    match s.upsertMessage sha256 m with
    | .ok s' => s'
    | .error _ => s

/-- One call, as a step. -/
def SourceStore.step (s : SourceStore) (call : LifecycleCall) : Option SourceStore :=
  some (s.apply sha256 call)

/-! ## The content of a message -/

/-- The content of a part. -/
def TelegramMessagePart.content (part : TelegramMessagePart) :
    Option String × List (String × Json) × List MediaAsset :=
  (part.originalText, part.telegramMetadata, part.media)

/-- The content of a component, if it is a part of the message. -/
def PartRow.contentIn (row : PartRow) (id : ℕ) :
    Option (Option String × List (String × Json) × List MediaAsset) :=
  if row.messageId = id then some row.part.content else none

/-- The content a message has stored for a component. -/
def Store.contentOf (s : Store) (id : ℕ) (component : ℕ × ℕ) :
    Option (Option String × List (String × Json) × List MediaAsset) :=
  (s.parts.lookup component).bind (·.contentIn id)

/-- The message has the same parts with the same content. -/
def Store.SameContent (s s' : Store) (id : ℕ) : Prop :=
  ∀ c, s'.contentOf id c = s.contentOf id c

/-- The message an upsert finds for a logical message. -/
def Store.parent? (s : Store) (m : NormalizedTelegramMessage) : Option ℕ :=
  (s.messages.find? (·.2.key = m.key)).map (·.1)

/-- The upsert has nothing new for the message: each of its parts is stored and, if it is
accepted, has the stored content. -/
def Store.HasContent (s : Store) (id : ℕ) (m : NormalizedTelegramMessage) : Prop :=
  s.parent? m = some id → ∀ part ∈ m.parts, ∃ row,
    s.parts.lookup (m.sourceChannelId, part.telegramMessageId) = some row ∧
      (row.messageId = id → Store.incomingIsNotStale row.part.editedAt part.editedAt = true →
        row.part.content = part.content)

/-! ## Upserts -/

section Upserts

variable {sha256} {id parent source : ℕ} {parts : Dict (ℕ × ℕ) PartRow}

/-- The row of a component after the upsert of a part. -/
def upsertedRow (messageId : ℕ) (stored : Option PartRow) (part : TelegramMessagePart) : PartRow :=
  match stored with
  | none => ⟨messageId, part⟩
  | some row =>
    if row.messageId = messageId ∧ Store.incomingIsNotStale row.part.editedAt part.editedAt then
      ⟨messageId, row.part.replacedBy part⟩
    else row

theorem lookup_partUpsert_self (part : TelegramMessagePart) :
    (partUpsert parent source parts part).lookup (source, part.telegramMessageId) =
      some (upsertedRow parent (parts.lookup (source, part.telegramMessageId)) part) := by
  unfold partUpsert
  cases hrow : parts.lookup (source, part.telegramMessageId) with
  | none => rw [Dict.lookup_set_self, upsertedRow]
  | some row =>
    dsimp only [upsertedRow]
    split_ifs
    · rw [Dict.lookup_set_self]
    · exact hrow

theorem lookup_partUpsert_of_ne {part : TelegramMessagePart} {c : ℕ × ℕ}
    (hc : c ≠ (source, part.telegramMessageId)) :
    (partUpsert parent source parts part).lookup c = parts.lookup c := by
  unfold partUpsert
  cases parts.lookup (source, part.telegramMessageId) with
  | none => exact Dict.lookup_set_of_ne hc _ _
  | some row =>
    dsimp only
    split_ifs
    · exact Dict.lookup_set_of_ne hc _ _
    · rfl

theorem lookup_foldl_partUpsert_of_ne {ps : List TelegramMessagePart} {c : ℕ × ℕ}
    (hc : ∀ part ∈ ps, c ≠ (source, part.telegramMessageId)) :
    (ps.foldl (partUpsert parent source) parts).lookup c = parts.lookup c := by
  induction ps generalizing parts with
  | nil => rfl
  | cons part ps ih =>
    rw [List.foldl_cons, ih fun p hp => hc p (List.mem_cons_of_mem _ hp),
      lookup_partUpsert_of_ne (hc part List.mem_cons_self)]

/-- Each part of an upsert changes the row of its component, once. -/
theorem lookup_foldl_partUpsert {ps : List TelegramMessagePart}
    (hids : (ps.map (·.telegramMessageId)).Nodup) {part : TelegramMessagePart} (hpart : part ∈ ps) :
    (ps.foldl (partUpsert parent source) parts).lookup (source, part.telegramMessageId) =
      some (upsertedRow parent (parts.lookup (source, part.telegramMessageId)) part) := by
  induction ps generalizing parts with
  | nil => cases hpart
  | cons p ps ih =>
    rw [List.map_cons, List.nodup_cons, List.mem_map] at hids
    rw [List.foldl_cons]
    rcases List.mem_cons.mp hpart with rfl | hpart
    · rw [lookup_foldl_partUpsert_of_ne, lookup_partUpsert_self]
      intro q hq heq
      exact hids.1 ⟨q, hq, (Prod.mk.inj heq).2.symm⟩
    · rw [ih hids.2 hpart, lookup_partUpsert_of_ne]
      intro heq
      exact hids.1 ⟨part, hpart, (Prod.mk.inj heq).2⟩

/-- What the upsert of a part does to the content of a message. -/
theorem contentIn_upsertedRow (part : TelegramMessagePart) (stored : Option PartRow) :
    (upsertedRow parent stored part).contentIn id = stored.bind (·.contentIn id) ↔
      (parent = id → ∃ row, stored = some row ∧
        (row.messageId = id → Store.incomingIsNotStale row.part.editedAt part.editedAt = true →
          row.part.content = part.content)) := by
  cases stored with
  | none =>
    by_cases hid : parent = id
    · simp [upsertedRow, PartRow.contentIn, hid]
    · simp [upsertedRow, PartRow.contentIn, hid]
  | some row =>
    rw [Option.bind_some, upsertedRow]
    by_cases hrow : row.messageId = parent ∧
        Store.incomingIsNotStale row.part.editedAt part.editedAt = true
    · rw [if_pos hrow, PartRow.contentIn, PartRow.contentIn, hrow.1]
      by_cases hid : parent = id
      · have hreplaced : (row.part.replacedBy part).content = part.content := rfl
        rw [if_pos hid, if_pos hid, hreplaced, Option.some.injEq, eq_comm]
        exact ⟨fun h _ => ⟨row, rfl, fun _ _ => h⟩, fun h => by
          obtain ⟨_, hstored, hcontent⟩ := h hid
          obtain rfl := Option.some.inj hstored
          exact hcontent (hrow.1.trans hid) hrow.2⟩
      · rw [if_neg hid, if_neg hid]
        exact iff_of_true rfl fun h => absurd h hid
    · rw [if_neg hrow]
      refine iff_of_true rfl fun hid => ⟨row, rfl, fun hmessage hfresh => ?_⟩
      exact absurd ⟨hmessage.trans hid.symm, hfresh⟩ hrow

theorem NormalizedTelegramMessage.parts_nodup {m : NormalizedTelegramMessage}
    (h : m.postInit = .ok ()) : (m.parts.map (·.telegramMessageId)).Nodup := by
  simp only [NormalizedTelegramMessage.postInit, seq_eq_ok, ensure_eq_ok, decide_eq_true_eq] at h
  obtain ⟨-, -, -, hnodup, -, -, -, -, -, hparts, -⟩ := h
  rw [hparts]
  exact hnodup

/-- What an upsert that succeeds leaves. -/
theorem upsertMessage_eq_ok {s s' : Store} {m : NormalizedTelegramMessage}
    (h : s.upsertMessage sha256 m = .ok s') : ∃ recomputed,
      s'.parts = m.parts.foldl
        (partUpsert (s.messageUpsert sha256 m).2 m.sourceChannelId) s.parts ∧
      s'.messages = messageParentUpdate sha256 (s.messageUpsert sha256 m).1.messages
        (s.messageUpsert sha256 m).2 recomputed ∧
      s'.nextId = (s.messageUpsert sha256 m).1.nextId := by
  have hparts : (s.messageUpsert sha256 m).1.parts = s.parts := by
    unfold Store.messageUpsert
    cases s.messages.find? (·.2.key = m.key) <;> rfl
  unfold Store.upsertMessage at h
  obtain ⟨-, h⟩ := seq_eq_ok.mp h
  obtain ⟨recomputed, -, h⟩ := bind_eq_ok.mp h
  obtain rfl := Except.ok.inj h
  exact ⟨recomputed, congrArg (fun parts => m.parts.foldl _ parts) hparts, rfl, rfl⟩

/-- An upsert keeps the content of a message exactly if it has nothing new for it. -/
theorem sameContent_upsertMessage_iff {s s' : Store} {m : NormalizedTelegramMessage}
    (hchecked : m.postInit = .ok ()) (hid : id < s.nextId)
    (h : s.upsertMessage sha256 m = .ok s') :
    s.SameContent s' id ↔ s.HasContent id m := by
  obtain ⟨recomputed, hparts, -, -⟩ := upsertMessage_eq_ok h
  have hparent : (s.messageUpsert sha256 m).2 = id ↔ s.parent? m = some id := by
    unfold Store.messageUpsert Store.parent?
    cases s.messages.find? (·.2.key = m.key) with
    | some e => simp
    | none => simp [hid.ne']
  have hnodup := m.parts_nodup hchecked
  have hpart : ∀ part ∈ m.parts,
      (s'.contentOf id (m.sourceChannelId, part.telegramMessageId) =
        s.contentOf id (m.sourceChannelId, part.telegramMessageId) ↔
      (s.parent? m = some id → ∃ row,
        s.parts.lookup (m.sourceChannelId, part.telegramMessageId) = some row ∧
          (row.messageId = id →
            Store.incomingIsNotStale row.part.editedAt part.editedAt = true →
              row.part.content = part.content))) := by
    intro part hmem
    rw [Store.contentOf, Store.contentOf, hparts, lookup_foldl_partUpsert hnodup hmem,
      Option.bind_some, contentIn_upsertedRow, hparent]
  constructor
  · exact fun hsame hfound part hmem => (hpart part hmem).mp (hsame _) hfound
  · intro hhas c
    by_cases hc : ∃ part ∈ m.parts, c = (m.sourceChannelId, part.telegramMessageId)
    · obtain ⟨part, hmem, rfl⟩ := hc
      exact (hpart part hmem).mpr fun hfound => hhas hfound part hmem
    · simp only [not_exists, not_and] at hc
      rw [Store.contentOf, Store.contentOf, hparts, lookup_foldl_partUpsert_of_ne hc]

end Upserts

/-! ## One call -/

section Calls

variable {sha256} {s s' : SourceStore} {id : ℕ}

/-- A message that exists and is processed. Row ids are fresh. -/
structure SourceStore.Processed (s : SourceStore) (id : ℕ) : Prop where
  mem : id ∈ s.messages.keys
  fresh : ∀ id' ∈ s.messages.keys, id' < s.nextId
  processed : (s.lifecycleOf id).processingStatus = .processed

theorem lifecycleOf_set {lifecycle : Dict ℕ SourceLifecycle} {id' : ℕ} {row : SourceLifecycle} :
    ((lifecycle.set id' row).lookup id).getD {} =
      if id = id' then row else (lifecycle.lookup id).getD {} := by
  by_cases hid : id = id'
  · rw [if_pos hid, hid, Dict.lookup_set_self, Option.getD_some]
  · rw [if_neg hid, Dict.lookup_set_of_ne hid]

theorem keys_messageParentUpdate {messages : Dict ℕ MessageRow} {parent : ℕ}
    {m : NormalizedTelegramMessage} (id' : ℕ) :
    id' ∈ (messageParentUpdate sha256 messages parent m).keys ↔ id' ∈ messages.keys := by
  unfold messageParentUpdate
  cases hrow : messages.lookup parent with
  | none => rfl
  | some row =>
    rw [Dict.mem_keys_set]
    refine or_iff_right_of_imp ?_
    rintro rfl
    exact Dict.mem_keys.mpr ⟨row, Dict.mem_of_lookup hrow⟩

/-- What an edit that succeeds leaves: the store as it was, or a new row of the component. -/
theorem recordEdit_eq_ok {edit : SourceEdit} {recorded : Bool}
    (h : s.recordEdit sha256 edit = .ok (s', recorded)) : s' = s ∨
      ∃ row part recomputed,
        s.parts.lookup (edit.sourceChannelId, edit.telegramMessageId) = some row ∧
        s'.parts = s.parts.set (edit.sourceChannelId, edit.telegramMessageId)
          ⟨row.messageId, part⟩ ∧
        s'.messages = messageParentUpdate sha256 s.messages row.messageId recomputed ∧
        s'.nextId = s.nextId ∧
        s'.lifecycle = s.lifecycle.set row.messageId
          (SourceStore.noteChange (s.lifecycleOf row.messageId)) := by
  unfold SourceStore.recordEdit at h
  cases hlocked : s.sourceMessageWithComponent edit.sourceChannelId edit.telegramMessageId with
  | none =>
    rw [hlocked] at h
    exact .inl (Prod.mk.inj (Except.ok.inj h)).1.symm
  | some locked =>
    obtain ⟨row, parent⟩ := locked
    rw [hlocked] at h
    dsimp only at h
    split_ifs at h
    · exact .inl (Prod.mk.inj (Except.ok.inj h)).1.symm
    · obtain ⟨part, -, h⟩ := bind_eq_ok.mp h
      obtain ⟨recomputed, -, h⟩ := bind_eq_ok.mp h
      obtain ⟨rfl, -⟩ := Prod.mk.inj (Except.ok.inj h)
      obtain ⟨row', hrow, hparent⟩ := Option.bind_eq_some_iff.mp hlocked
      obtain ⟨parent', -, hparent⟩ := Option.bind_eq_some_iff.mp hparent
      split_ifs at hparent
      obtain ⟨rfl, -⟩ := Prod.mk.inj (Option.some.inj hparent)
      exact .inr ⟨row', part, recomputed, hrow, rfl, rfl, rfl, rfl⟩

theorem fresh_messageUpsert {t : Store} {m : NormalizedTelegramMessage}
    (h : ∀ id' ∈ t.messages.keys, id' < t.nextId) :
    (∀ id' ∈ (t.messageUpsert sha256 m).1.messages.keys,
        id' < (t.messageUpsert sha256 m).1.nextId) ∧
      ∀ id' ∈ t.messages.keys, id' ∈ (t.messageUpsert sha256 m).1.messages.keys := by
  unfold Store.messageUpsert
  cases t.messages.find? (·.2.key = m.key) with
  | some e => exact ⟨h, fun _ hmem => hmem⟩
  | none =>
    refine ⟨fun id' hmem => ?_, fun id' hmem => Dict.mem_keys_set.mpr (.inr hmem)⟩
    rcases Dict.mem_keys_set.mp hmem with rfl | hmem
    · exact Nat.lt_succ_self _
    · exact (h id' hmem).trans (Nat.lt_succ_self _)

/-- An edit keeps the content of a processed message, or is noted. -/
theorem recordEdit_changed (h : s.Processed id) {edit : SourceEdit} {recorded : Bool}
    (hedit : s.recordEdit sha256 edit = .ok (s', recorded)) :
    s'.Processed id ∧
      ((s.lifecycleOf id).sourceChangedAfterProcessing = true →
        (s'.lifecycleOf id).sourceChangedAfterProcessing = true) ∧
      (s.toStore.SameContent s'.toStore id ∨
        (s'.lifecycleOf id).sourceChangedAfterProcessing = true) := by
  rcases recordEdit_eq_ok hedit with rfl |
    ⟨row, part, recomputed, hrow, hparts, hmessages, hnext, hlifecycle⟩
  · exact ⟨h, fun hflag => hflag, .inl fun _ => rfl⟩
  have hof : s'.lifecycleOf id = if id = row.messageId then
      SourceStore.noteChange (s.lifecycleOf row.messageId) else s.lifecycleOf id := by
    rw [SourceStore.lifecycleOf, hlifecycle, lifecycleOf_set]
    rfl
  have hkeys : ∀ id', id' ∈ s'.messages.keys ↔ id' ∈ s.messages.keys := by
    intro id'
    rw [hmessages, keys_messageParentUpdate]
  by_cases hid : id = row.messageId
  · have hnoted : s'.lifecycleOf id =
        { s.lifecycleOf id with sourceChangedAfterProcessing := true } := by
      rw [hof, if_pos hid, ← hid, SourceStore.noteChange, if_pos h.processed]
    refine ⟨⟨(hkeys id).mpr h.mem, fun id' hmem => ?_, ?_⟩, fun _ => ?_, .inr ?_⟩
    · rw [hnext]
      exact h.fresh id' ((hkeys id').mp hmem)
    · rw [hnoted]
      exact h.processed
    · rw [hnoted]
    · rw [hnoted]
  · rw [if_neg hid] at hof
    refine ⟨⟨(hkeys id).mpr h.mem, fun id' hmem => ?_, by rw [hof]; exact h.processed⟩,
      fun hflag => by rw [hof]; exact hflag, .inl fun c => ?_⟩
    · rw [hnext]
      exact h.fresh id' ((hkeys id').mp hmem)
    · rw [Store.contentOf, Store.contentOf, hparts]
      by_cases hc : c = (edit.sourceChannelId, edit.telegramMessageId)
      · rw [hc, Dict.lookup_set_self, hrow, Option.bind_some, Option.bind_some,
          PartRow.contentIn, PartRow.contentIn, if_neg (Ne.symm hid), if_neg (Ne.symm hid)]
      · rw [Dict.lookup_set_of_ne hc]

/-- A deletion changes no part, and does not take the note of a change back. -/
theorem recordDeletion_changed (h : s.Processed id) (source component : ℕ) (deletedAt : ℤ) :
    (s.recordDeletion source component deletedAt).1.Processed id ∧
      ((s.lifecycleOf id).sourceChangedAfterProcessing = true →
        ((s.recordDeletion source component deletedAt).1.lifecycleOf
          id).sourceChangedAfterProcessing = true) ∧
      s.toStore.SameContent (s.recordDeletion source component deletedAt).1.toStore id := by
  unfold SourceStore.recordDeletion
  cases s.sourceMessageWithComponent source component with
  | none => exact ⟨h, fun hflag => hflag, fun _ => rfl⟩
  | some locked =>
    dsimp only
    split_ifs
    · exact ⟨h, fun hflag => hflag, fun _ => rfl⟩
    · refine ⟨⟨h.mem, h.fresh, ?_⟩, fun hflag => ?_, fun _ => rfl⟩
      · rw [SourceStore.lifecycleOf, lifecycleOf_set]
        split_ifs with hid
        · exact hid ▸ h.processed
        · exact h.processed
      · rw [SourceStore.lifecycleOf, lifecycleOf_set]
        split_ifs with hid
        · rw [← hid, hflag, Bool.true_or]
        · exact hflag

/-- An upsert of a processed message is noted exactly if it has nothing new for it, or the message
was known to have changed. -/
theorem upsert_changed_iff (h : s.Processed id) {m : NormalizedTelegramMessage}
    (hchecked : m.postInit = .ok ()) (hupsert : s.upsertMessage sha256 m = .ok s') :
    s'.Processed id ∧
      ((s.lifecycleOf id).sourceChangedAfterProcessing = true →
        (s'.lifecycleOf id).sourceChangedAfterProcessing = true) ∧
      (s.toStore.SameContent s'.toStore id ∨
          (s'.lifecycleOf id).sourceChangedAfterProcessing = true ↔
        s.toStore.HasContent id m ∨ (s.lifecycleOf id).sourceChangedAfterProcessing = true) := by
  unfold SourceStore.upsertMessage at hupsert
  obtain ⟨t, ht, hs⟩ := bind_eq_ok.mp hupsert
  obtain rfl := Except.ok.inj hs
  obtain ⟨recomputed, -, hmessages, hnext⟩ := upsertMessage_eq_ok ht
  obtain ⟨hfresh, hmem⟩ := @fresh_messageUpsert sha256 _ m h.fresh
  have hkeys : ∀ id', id' ∈ t.messages.keys ↔
      id' ∈ (s.toStore.messageUpsert sha256 m).1.messages.keys := by
    intro id'
    rw [hmessages, keys_messageParentUpdate]
  refine ⟨⟨(hkeys id).mpr (hmem id h.mem), fun id' hid' => ?_, h.processed⟩, fun hflag => hflag, ?_⟩
  · rw [hnext]
    exact hfresh id' ((hkeys id').mp hid')
  · exact or_congr_left (sameContent_upsertMessage_iff hchecked (h.fresh id h.mem) ht)

/-! ## Runs -/

/-- What is asked of a call for the change to be noted. -/
def LifecycleCall.Noted (id : ℕ) (s : SourceStore) : LifecycleCall → Prop
  | .upsert m _ =>
    s.toStore.HasContent id m ∨ (s.lifecycleOf id).sourceChangedAfterProcessing = true
  | _ => True

/-- One call keeps the content of a processed message, or its change is noted. -/
theorem apply_changed (h : s.Processed id) {call : LifecycleCall} (hnoted : call.Noted id s) :
    (s.apply sha256 call).Processed id ∧
      ((s.lifecycleOf id).sourceChangedAfterProcessing = true →
        ((s.apply sha256 call).lifecycleOf id).sourceChangedAfterProcessing = true) ∧
      (s.toStore.SameContent (s.apply sha256 call).toStore id ∨
        ((s.apply sha256 call).lifecycleOf id).sourceChangedAfterProcessing = true) := by
  cases call with
  | edit edit =>
    dsimp only [SourceStore.apply]
    cases hedit : s.recordEdit sha256 edit with
    | ok result => exact recordEdit_changed h hedit
    | error e => exact ⟨h, fun hflag => hflag, .inl fun _ => rfl⟩
  | deletion source component deletedAt =>
    obtain ⟨hprocessed, hflag, hsame⟩ := recordDeletion_changed h source component deletedAt
    exact ⟨hprocessed, hflag, .inl hsame⟩
  | upsert m hchecked =>
    dsimp only [SourceStore.apply]
    cases hupsert : s.upsertMessage sha256 m with
    | ok s' =>
      obtain ⟨hprocessed, hflag, hiff⟩ := upsert_changed_iff h hchecked hupsert
      exact ⟨hprocessed, hflag, hiff.mpr hnoted⟩
    | error e => exact ⟨h, fun hflag => hflag, .inl fun _ => rfl⟩

/-- In a run whose upserts have nothing new for a processed message, or come when it is known to
have changed, the message is known to have changed if its content has. -/
theorem changed_of_run (h : s.Processed id) {calls : List LifecycleCall}
    (hnoted : Runs.Along (SourceStore.step sha256) (fun s call => call.Noted id s) s calls)
    (hrun : Runs.run (SourceStore.step sha256) s calls = some s')
    (hchanged : ∃ c, s'.toStore.contentOf id c ≠ s.toStore.contentOf id c) :
    (s'.lifecycleOf id).sourceChangedAfterProcessing = true := by
  have hinvariant : s'.Processed id ∧ (s.toStore.SameContent s'.toStore id ∨
      (s'.lifecycleOf id).sourceChangedAfterProcessing = true) := by
    refine Runs.run_invariant (I := fun t => t.Processed id ∧ (s.toStore.SameContent t.toStore id ∨
      (t.lifecycleOf id).sourceChangedAfterProcessing = true)) ?_ ⟨h, .inl fun _ => rfl⟩ hnoted hrun
    rintro t call _ ⟨hprocessed, hsame⟩ hcall ht
    obtain rfl := Option.some.inj ht
    obtain ⟨hprocessed', hflag, hsame'⟩ := @apply_changed sha256 _ _ hprocessed _ hcall
    refine ⟨hprocessed', ?_⟩
    rcases hsame with hsame | hsame
    · exact hsame'.imp_left fun hsame' c => (hsame' c).trans (hsame c)
    · exact .inr (hflag hsame)
  obtain ⟨c, hc⟩ := hchanged
  exact hinvariant.2.resolve_left fun hsame => hc (hsame c)

end Calls

/-! ## A processed message -/

/-- A processed message with one component, whose text is `a`. -/
def processedStore : SourceStore where
  messages := [(0, messageRow id (logicalMessage 1 none (textMessage 1 5 none none "a").asPart []))]
  parts := [((1, 5), ⟨0, (textMessage 1 5 none none "a").asPart⟩)]
  nextId := 1
  lifecycle := [(0, { processingStatus := .processed })]

theorem processedStore_processed : processedStore.Processed 0 where
  mem := List.mem_singleton_self _
  fresh := by
    intro id' hmem
    rw [List.mem_singleton.mp hmem]
    exact Nat.one_pos
  processed := rfl

/-- A version of the message. -/
def versionOf (editedAt : Option ℕ) (text : String) : NormalizedTelegramMessage :=
  logicalMessage 1 none (textMessage 1 5 none editedAt text).asPart []

theorem versionOf_checked (editedAt : Option ℕ) (text : String) :
    (versionOf editedAt text).postInit = .ok () :=
  postInit_logicalMessage 1 (List.pairwise_singleton _ _) (List.nodup_singleton _) List.nodup_nil rfl
    fun _ => rfl

/-- An upsert of a version. -/
def upsertOf (editedAt : Option ℕ) (text : String) : LifecycleCall :=
  .upsert (versionOf editedAt text) (versionOf_checked editedAt text)

/-- The edit as a call of `record_edit`. -/
def textEdit : SourceEdit where
  sourceChannelId := 1
  telegramMessageId := 5
  originalText := some "b"
  telegramMetadata := []
  media := []
  editedAt := 3

/-- The text of the component. -/
def storedText (s : SourceStore) : Option (Option String) :=
  (s.toStore.contentOf 0 (1, 5)).map (·.1)

theorem changed_of_storedText {s : SourceStore} {text : String}
    (h : storedText s = some (some text)) (hne : text ≠ "a") :
    s.toStore.contentOf 0 (1, 5) ≠ processedStore.toStore.contentOf 0 (1, 5) := by
  intro heq
  have hstored : storedText processedStore = some (some "a") := rfl
  rw [storedText, heq, ← storedText, hstored] at h
  exact hne (Option.some.inj (Option.some.inj h)).symm

/-- The stored version comes again, the text becomes `b` by an edit, which is noted, and then `c`
by an upsert. -/
def notedCalls : List LifecycleCall :=
  [upsertOf none "a", .edit textEdit, upsertOf (some 4) "c"]

theorem changed_of_run_edit : ∃ s',
    Runs.run (SourceStore.step id) processedStore notedCalls = some s' ∧
      s'.toStore.contentOf 0 (1, 5) ≠ processedStore.toStore.contentOf 0 (1, 5) ∧
      (s'.lifecycleOf 0).sourceChangedAfterProcessing = true := by
  have hsame : (upsertOf none "a").Noted 0 processedStore := by
    refine .inl fun _ part hpart => ?_
    rw [List.mem_singleton.mp hpart]
    exact ⟨_, rfl, fun _ _ => rfl⟩
  have hflag : (upsertOf (some 4) "c").Noted 0
      ((processedStore.apply id (upsertOf none "a")).apply id (.edit textEdit)) :=
    .inr (by decide +kernel)
  have hnoted : Runs.Along (SourceStore.step id) (fun s call => call.Noted 0 s) processedStore
      notedCalls :=
    Runs.along_cons hsame rfl (Runs.along_cons trivial rfl (Runs.along_cons hflag rfl trivial))
  obtain ⟨s', hrun⟩ := Option.isSome_iff_exists.mp
    (show (Runs.run (SourceStore.step id) processedStore notedCalls).isSome = true from rfl)
  have htext : (Runs.run (SourceStore.step id) processedStore notedCalls).bind storedText =
      some (some "c") := by
    decide +kernel
  rw [hrun] at htext
  have hchanged := changed_of_storedText htext (by decide)
  exact ⟨s', hrun, hchanged, changed_of_run processedStore_processed hnoted hrun ⟨_, hchanged⟩⟩

/-- An edit that comes with an upsert changes the text of the processed message and leaves no
note. -/
theorem edit_unnoticed :
    (processedStore.lifecycleOf 0).processingStatus = .processed ∧
      (processedStore.apply id (upsertOf (some 3) "b")).toStore.contentOf 0 (1, 5) ≠
        processedStore.toStore.contentOf 0 (1, 5) ∧
      ((processedStore.apply id (upsertOf (some 3) "b")).lifecycleOf
        0).sourceChangedAfterProcessing = false :=
  ⟨rfl, changed_of_storedText (by decide +kernel : storedText _ = some (some "b")) (by decide),
    by decide +kernel⟩

end TgCurator
