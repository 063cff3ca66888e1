import TgCurator.Media.Ingested

/-!
# Runs of the asset store

What one call keeps of the asset tables (`AssetStore.Kept`, `kept_apply`), and with it every order
of the calls of ingestion, edits, deletions, archive workers and dispatcher. The synchronisation never
fails on media that fit their columns, so with these the message store is what its own calls make of
it (`toSourceStore_applyAll`). The tables have a row for each image and video of the stored parts
(`media_has_rows`), an asset that can still be archived is delivered to a worker sooner or later
(`assets_delivered`), and a row that has ended is never written again, but for the message it is
fetched from and its hash (`ended_rows_kept`).
-/

namespace TgCurator

/-! ## The media of a message -/

theorem media_of_normalizeParts {sourceChannelId : ℕ} {telegramGroupedId : Option ℕ}
    {parts : List TelegramMessagePart} {m : NormalizedTelegramMessage}
    (h : normalizeParts sourceChannelId telegramGroupedId parts = .ok m) :
    (m.media.map (·.assetId)).Nodup ∧
      ∀ asset, asset ∈ m.media ↔ ∃ part ∈ parts, asset ∈ part.media := by
  obtain ⟨first, rest, horder, rfl⟩ := normalizeParts_eq_ok h
  rw [normalizeParts, horder] at h
  obtain ⟨hcontent, -⟩ := seq_eq_ok.mp h
  refine ⟨by rwa [validateContent, ensure_eq_ok, decide_eq_true_eq] at hcontent, fun asset => ?_⟩
  simp only [logicalMessage, List.mem_flatMap, ← horder, (orderedParts_perm parts).mem_iff]

theorem mem_retainedParts {parts : Dict (ℕ × ℕ) PartRow} {c : ℕ × ℕ} {row : PartRow}
    (h : parts.lookup c = some row) : row.part ∈ retainedParts parts row.messageId := by
  refine (orderedParts_perm _).mem_iff.mpr (List.mem_map.mpr ⟨(c, row), ?_, rfl⟩)
  exact List.mem_filter.mpr ⟨Dict.mem_of_lookup h, by simp⟩

/-! ## Tables -/

namespace AssetTable

variable {D : Type} {source : AssetSource} {table table' table'' : AssetTable D} {messageId : ℕ}
  {media : List MediaAsset} {parts parts' : Dict (ℕ × ℕ) PartRow}
  {wakeups wakeups' : Dict (String × ℕ) DurableWakeupRecord}

theorem sound_empty [ArchiveColumns D] (source : AssetSource) :
    ({} : AssetTable D).Sound source [] where
  keys := List.nodup_nil
  fresh _ hid := absurd hid List.not_mem_nil
  unique := .nil
  checks := .nil
  absent _ _ := rfl
  unfetched _ _ hrow := by cases hrow
  woken _ := ⟨fun _ hrow => (by cases hrow), fun _ hwakeup => (by cases hwakeup)⟩

/-- The table has the media of the stored parts. -/
def Covers (source : AssetSource) (table : AssetTable D) (parts : Dict (ℕ × ℕ) PartRow) : Prop :=
  ∀ c row, parts.lookup c = some row → ∀ asset ∈ row.part.media, asset.kind = source.kind →
    table.Has source row.messageId asset

/-- No row is lost, nor its known hash, and one that has ended is only found again. -/
def RowsKept (table table' : AssetTable D) : Prop :=
  ∀ id row, table.rows.lookup id = some row → ∃ row', table'.rows.lookup id = some row' ∧
    row'.messageId = row.messageId ∧ row'.sourceAssetId = row.sourceAssetId ∧
      table.HashKept table' id ∧ (row.archiveState.isActive = false → Refetch row row')

theorem RowsKept.refl (table : AssetTable D) : table.RowsKept table :=
  fun id row hrow => ⟨row, hrow, rfl, rfl, .refl table id, fun _ => .refl row⟩

theorem Refetch.archiveState {row row' : ArchiveAssetRecord D} (h : Refetch row row') :
    row'.archiveState = row.archiveState := by
  obtain ⟨_, rfl, -⟩ := h
  rfl

theorem RowsKept.trans (h : table.RowsKept table') (h' : table'.RowsKept table'') :
    table.RowsKept table'' := by
  intro id row hrow
  obtain ⟨row', hrow', hmessage, hsource, hhash, hended⟩ := h id row hrow
  obtain ⟨row'', hrow'', hmessage', hsource', hhash', hended'⟩ := h' id row' hrow'
  refine ⟨row'', hrow'', hmessage'.trans hmessage, hsource'.trans hsource, hhash.trans hhash',
    fun hactive => ?_⟩
  have hrefetch := hended hactive
  exact hrefetch.trans (hended' (hrefetch.archiveState ▸ hactive))

theorem Synchronized.rowsKept {assets : List MediaAsset}
    (h : Synchronized source messageId assets table table') : table.RowsKept table' := by
  intro id row hrow
  obtain ⟨_, hrow', ⟨_, rfl, hsource⟩, hhash⟩ := h.rows id row hrow
  exact ⟨_, hrow', rfl, rfl, hhash, fun _ => ⟨_, rfl, hsource⟩⟩

/-- A transaction that writes parts of one message and synchronises their media. -/
theorem Covers.synchronized (h : table.Covers source parts)
    (hsync : Synchronized source messageId (assetsOf source media) table table')
    (hparts : ∀ c row, parts'.lookup c = some row →
      if row.messageId = messageId then ∀ asset ∈ row.part.media, asset ∈ media
      else parts.lookup c = some row) : table'.Covers source parts' := by
  intro c row hrow asset hasset hkind
  have hpart := hparts c row hrow
  split_ifs at hpart with hmessage
  · exact hmessage ▸ hsync.has asset
      (List.mem_filter.mpr ⟨hpart asset hasset, decide_eq_true hkind⟩)
  · exact hsync.others _ asset (fun hkey => hmessage hkey.1) (h c row hpart asset hasset hkind)

variable [ArchiveColumns D]

/-- A row that a call of the archive workers leaves: it is the archive of the same asset, and is
another only if it was active. -/
theorem lookup_of_written {queue : String} {t t' : ArchiveTables D}
    (hwritten : ArchiveTables.Written queue t t') {id : ℕ} {row : ArchiveAssetRecord D}
    (hrow : t.assets.lookup id = some row) :
    ∃ row', t'.assets.lookup id = some row' ∧ row'.identity = row.identity ∧
      (row.archiveState.isActive = false → row' = row) := by
  have hset : ∀ {id' row₀ row₁}, t.Rewrites t' id' row₀ row₁ →
      ∃ row', t'.assets.lookup id = some row' ∧ row'.identity = row.identity ∧
        (row.archiveState.isActive = false → row' = row) := by
    intro id' row₀ row₁ hrewrites
    rw [hrewrites.assets]
    by_cases hid : id = id'
    · subst hid
      obtain rfl := Option.some.inj (hrewrites.found.symm.trans hrow)
      refine ⟨row₁, Dict.lookup_set_self .., hrewrites.identity, fun hended => ?_⟩
      rw [hrewrites.active] at hended
      cases hended
    · exact ⟨row, by rw [Dict.lookup_set_of_ne hid, hrow], rfl, fun _ => rfl⟩
  cases hwritten with
  | kept hkept => exact ⟨row, by rw [hkept, hrow], rfl, fun _ => rfl⟩
  | moved hrewrites => exact hset hrewrites
  | returned _ hrewrites => exact hset hrewrites
  | ended _ hrewrites => exact hset hrewrites
  | woken _ _ _ hassets => exact ⟨row, by rw [hassets, hrow], rfl, fun _ => rfl⟩

theorem rowsKept_of_written {queue : String} {t t' : ArchiveTables D}
    (ht : t.assets = table.rows) (hwritten : ArchiveTables.Written queue t t') :
    table.RowsKept { table with rows := t'.assets } := by
  intro id row hrow
  obtain ⟨row', hrow', hidentity, hended⟩ := lookup_of_written hwritten (ht ▸ hrow)
  simp only [ArchiveAssetRecord.identity, Prod.mk.injEq] at hidentity
  refine ⟨row', hrow', hidentity.1, hidentity.2.1, .refl _ id, fun hactive => ?_⟩
  rw [hended hactive]
  exact .refl row

theorem Covers.written (h : table.Covers source parts) {queue : String} {t t' : ArchiveTables D}
    (ht : t.assets = table.rows) (hwritten : ArchiveTables.Written queue t t') :
    Covers source { table with rows := t'.assets } parts := by
  intro c row hrow asset hasset hkind
  obtain ⟨id, arow, harow⟩ := h c row hrow asset hasset hkind
  obtain ⟨arow', harow', hidentity, -⟩ := lookup_of_written hwritten (ht ▸ harow.found)
  simp only [ArchiveAssetRecord.identity, Prod.mk.injEq] at hidentity
  exact ⟨id, arow', harow', hidentity.1.trans harow.messageId, hidentity.2.1.trans harow.sourceAssetId,
    fun _ htelegram => hidentity.2.2.trans (harow.sourceTelegramMessageId _ htelegram),
    harow.sourceHash⟩

/-- A call of the archive workers leaves the wake-ups of other queues. -/
theorem wakeups_of_written {queue : String} {t t' : ArchiveTables D}
    (hwritten : ArchiveTables.Written queue t t') {key : String × ℕ} (hkey : key.1 ≠ queue) :
    t'.wakeups.lookup key = t.wakeups.lookup key := by
  have hne : ∀ {id : ℕ}, key ≠ (queue, id) := by
    rintro id rfl
    exact hkey rfl
  cases hwritten with
  | kept hkept => rw [hkept]
  | moved _ hwakeups => rw [hwakeups]
  | returned _ _ hwakeups => rw [hwakeups]; exact ArchiveTables.lookup_updateOpenWakeup_of_ne hne
  | ended _ _ hwakeups => rw [hwakeups]; exact ArchiveTables.lookup_updateOpenWakeup_of_ne hne
  | woken _ _ _ _ hwakeups => rw [hwakeups]; exact ArchiveTables.lookup_updateOpenWakeup_of_ne hne

end AssetTable

/-! ## The store -/

namespace AssetStore

variable {sha256 : String → String} {idLE : String × ℕ → String × ℕ → Bool} {s s' : AssetStore}

/-- Both tables are sound. -/
structure Sound (s : AssetStore) : Prop where
  images : s.images.Sound imageSource s.durable.wakeups
  videos : s.videos.Sound videoSource s.durable.wakeups

/-- What a call keeps. -/
structure Kept (s s' : AssetStore) : Prop where
  sound : s'.Sound
  images : s.images.RowsKept s'.images
  videos : s.videos.RowsKept s'.videos
  images_cover : s.images.Covers imageSource s.parts → s'.images.Covers imageSource s'.parts
  videos_cover : s.videos.Covers videoSource s.parts → s'.videos.Covers videoSource s'.parts

theorem Kept.refl (h : s.Sound) : Kept s s :=
  ⟨h, .refl _, .refl _, id, id⟩

theorem queues_ne : imageSource.queue ≠ videoSource.queue := by
  decide

/-! ### Ingestion -/

/-- The parts after a transaction: those of one message have the given media, and the others are
as they were. -/
def PartsOf (messageId : ℕ) (media : List MediaAsset) (parts parts' : Dict (ℕ × ℕ) PartRow) : Prop :=
  ∀ c row, parts'.lookup c = some row →
    if row.messageId = messageId then ∀ asset ∈ row.part.media, asset ∈ media
    else parts.lookup c = some row

/-- The stored parts have media that the asset tables hold. -/
def PartsFit (parts : Dict (ℕ × ℕ) PartRow) : Prop :=
  parts.All fun row => row.part.media.all (·.fitsColumns) = true

theorem all_fits {media : List MediaAsset} (h : media.all (·.fitsColumns) = true)
    {source : AssetSource} (hsource : source ∈ [imageSource, videoSource]) :
    (AssetTable.assetsOf source media).all source.fits = true := by
  refine List.all_eq_true.mpr fun asset hasset => ?_
  obtain ⟨hmem, hkind⟩ := List.mem_filter.mp hasset
  have hfits := List.all_eq_true.mp (List.all_eq_true.mp h asset hmem) source hsource
  rw [of_decide_eq_true hkind] at hfits
  simpa using hfits

/-- What a transaction leaves: an exception rolls it back. -/
def rolledBack {S : Type} (s : S) : Except PyError S → S
  | .ok s' => s'
  | .error _ => s

/-- What comes of a transaction that stores a message, for what comes of it in the message store
alone. -/
inductive Outcome (s : AssetStore) (source : Except PyError SourceStore)
    (result : Except PyError AssetStore) : Prop
  | refused {e : PyError} (hsource : source = .error e) (hresult : result = .error e)
  /-- an asset does not fit its columns -/
  | unfit {e : PyError} {source' : SourceStore} (hsource : source = .ok source')
    (hparts : ¬PartsFit source'.parts) (hresult : result = .error e)
  | stored {s' : AssetStore} (hsource : source = .ok s'.toSourceStore) (hkept : Kept s s')
    (hresult : result = .ok s')

theorem Sound.synchronizeArchiveAssets (h : s.Sound) {source : SourceStore} {messageId : ℕ}
    {message : NormalizedTelegramMessage} (hmedia : (message.media.map (·.assetId)).Nodup)
    (hparts : PartsOf messageId message.media s.parts source.parts)
    (hfit : PartsFit source.parts → message.media.all (·.fitsColumns) = true) (now : ℤ) :
    Outcome s (.ok source) (({ s with toSourceStore := source } :
      AssetStore).synchronizeArchiveAssets messageId message now) := by
  unfold AssetStore.synchronizeArchiveAssets
  by_cases himages : (AssetTable.assetsOf imageSource message.media).all imageSource.fits = true
  · obtain ⟨images, wakeups, hupsert, hsound, hsync, hothers⟩ :=
      h.images.synchronize hmedia himages messageId now
    dsimp only
    rw [hupsert]
    dsimp only [bind, Except.bind]
    by_cases hvideos : (AssetTable.assetsOf videoSource message.media).all videoSource.fits = true
    · obtain ⟨videos, wakeups', hupsert', hsound', hsync', hothers'⟩ :=
        (h.videos.of_queue fun _ => hothers _ queues_ne.symm).synchronize hmedia hvideos messageId
          now
      rw [hupsert']
      refine .stored rfl ?_ rfl
      exact ⟨⟨hsound.of_queue fun _ => hothers' _ queues_ne, hsound'⟩, hsync.rowsKept,
        hsync'.rowsKept, fun hcovers => hcovers.synchronized hsync hparts,
        fun hcovers => hcovers.synchronized hsync' hparts⟩
    · rw [AssetTable.synchronize_of_not_fits hvideos]
      exact .unfit rfl (fun hall => hvideos (all_fits (hfit hall) (by simp))) rfl
  · dsimp only
    rw [AssetTable.synchronize_of_not_fits himages]
    exact .unfit rfl (fun hall => himages (all_fits (hfit hall) (by simp))) rfl

/-- An upsert writes parts of its message only. -/
theorem partsOf_foldl_partUpsert {parts : Dict (ℕ × ℕ) PartRow} {messageId sourceChannelId : ℕ}
    {ps : List TelegramMessagePart} {c : ℕ × ℕ} {row : PartRow} (hne : row.messageId ≠ messageId)
    (hrow : (ps.foldl (partUpsert messageId sourceChannelId) parts).lookup c = some row) :
    parts.lookup c = some row := by
  induction ps generalizing parts with
  | nil => exact hrow
  | cons part ps ih =>
    have hparts := ih hrow
    by_cases hc : c = (sourceChannelId, part.telegramMessageId)
    · subst hc
      rw [lookup_partUpsert_self] at hparts
      obtain rfl := Option.some.inj hparts
      unfold upsertedRow at hne ⊢
      cases hstored : parts.lookup (sourceChannelId, part.telegramMessageId) with
      | none => simp [hstored] at hne
      | some stored =>
        rw [hstored] at hne
        dsimp only at hne ⊢
        split_ifs at hne ⊢ with hmine
        · exact absurd rfl hne
        · rfl
    · rwa [lookup_partUpsert_of_ne hc] at hparts

theorem partsOf_of_recomputed {parts parts' : Dict (ℕ × ℕ) PartRow} {messageId sourceChannelId : ℕ}
    {telegramGroupedId : Option ℕ} {recomputed : NormalizedTelegramMessage}
    (h : normalizedFromParts sourceChannelId telegramGroupedId (retainedParts parts' messageId) =
      .ok recomputed)
    (hothers : ∀ c row, parts'.lookup c = some row → row.messageId ≠ messageId →
      parts.lookup c = some row) : PartsOf messageId recomputed.media parts parts' := by
  intro c row hrow
  split_ifs with hmessage
  · intro asset hasset
    exact ((media_of_normalizeParts h).2 asset).mpr
      ⟨row.part, hmessage ▸ mem_retainedParts hrow, hasset⟩
  · exact hothers c row hrow hmessage

theorem fit_of_recomputed {parts : Dict (ℕ × ℕ) PartRow} {messageId sourceChannelId : ℕ}
    {telegramGroupedId : Option ℕ} {recomputed : NormalizedTelegramMessage}
    (h : normalizedFromParts sourceChannelId telegramGroupedId (retainedParts parts messageId) =
      .ok recomputed) (hparts : PartsFit parts) :
    recomputed.media.all (·.fitsColumns) = true := by
  refine List.all_eq_true.mpr fun asset hasset => ?_
  obtain ⟨part, hpart, hmem⟩ := ((media_of_normalizeParts h).2 asset).mp hasset
  obtain ⟨e, he, rfl⟩ := List.mem_map.mp ((orderedParts_perm _).mem_iff.mp hpart)
  exact List.all_eq_true.mp (hparts e (List.mem_of_mem_filter he)) asset hmem

/-- What the message store of an upsert that succeeds was recomputed from. -/
theorem recomputed_of_upsertMessage {source source' : SourceStore} {m : NormalizedTelegramMessage}
    (h : source.upsertMessage sha256 m = .ok source') : ∃ recomputed,
      normalizedFromParts m.sourceChannelId m.telegramGroupedId
        (retainedParts source'.parts (source.messageUpsert sha256 m).2) = .ok recomputed := by
  unfold SourceStore.upsertMessage Store.upsertMessage at h
  obtain ⟨store, hstore, h⟩ := bind_eq_ok.mp h
  obtain ⟨-, hstore⟩ := seq_eq_ok.mp hstore
  obtain ⟨recomputed, hrecomputed, hstore⟩ := bind_eq_ok.mp hstore
  obtain rfl := Except.ok.inj hstore
  obtain rfl := Except.ok.inj h
  exact ⟨recomputed, hrecomputed⟩

theorem parts_of_upsertMessage {source source' : SourceStore} {m : NormalizedTelegramMessage}
    (h : source.upsertMessage sha256 m = .ok source') : source'.parts =
      m.parts.foldl (partUpsert (source.messageUpsert sha256 m).2 m.sourceChannelId)
        source.parts := by
  obtain ⟨store, hstore, heq⟩ := bind_eq_ok.mp h
  obtain rfl := Except.ok.inj heq
  obtain ⟨-, hparts, -⟩ := upsertMessage_eq_ok hstore
  exact hparts

variable (sha256) in
theorem Sound.upsertMessage (h : s.Sound) (m : NormalizedTelegramMessage) (now : ℤ) :
    Outcome s (s.toSourceStore.upsertMessage sha256 m) (s.upsertMessage sha256 m now) := by
  unfold AssetStore.upsertMessage
  cases hsource : s.toSourceStore.upsertMessage sha256 m with
  | error e => exact .refused rfl rfl
  | ok source =>
    obtain ⟨recomputed, hrecomputed⟩ := recomputed_of_upsertMessage hsource
    have hparts := parts_of_upsertMessage hsource
    dsimp only [bind, Except.bind]
    rw [hrecomputed]
    exact h.synchronizeArchiveAssets (media_of_normalizeParts hrecomputed).1
      (partsOf_of_recomputed hrecomputed fun c row hrow hne =>
        partsOf_foldl_partUpsert hne (hparts ▸ hrow)) (fit_of_recomputed hrecomputed) now

/-- What an edit leaves of the message store, and what it was recomputed from. -/
theorem recomputed_of_recordEdit {source source' : SourceStore} {edit : SourceEdit}
    {row : PartRow} {parent : MessageRow}
    (hlocked : source.sourceMessageWithComponent edit.sourceChannelId edit.telegramMessageId =
      some (row, parent)) {recorded : Bool}
    (h : source.recordEdit sha256 edit = .ok (source', recorded)) :
    recorded = false ∧ source' = source ∨ recorded = true ∧ ∃ part recomputed,
      part.media = edit.media ∧
        source'.parts = source.parts.set (edit.sourceChannelId, edit.telegramMessageId)
          ⟨row.messageId, part⟩ ∧
        normalizedFromParts edit.sourceChannelId parent.telegramGroupedId
          (retainedParts source'.parts row.messageId) = .ok recomputed := by
  unfold SourceStore.recordEdit at h
  rw [hlocked] at h
  dsimp only at h
  split_ifs at h
  · obtain ⟨rfl, rfl⟩ := Prod.mk.inj (Except.ok.inj h)
    exact .inl ⟨rfl, rfl⟩
  · obtain ⟨part, hpart, h⟩ := bind_eq_ok.mp h
    obtain ⟨recomputed, hrecomputed, h⟩ := bind_eq_ok.mp h
    obtain ⟨rfl, rfl⟩ := Prod.mk.inj (Except.ok.inj h)
    have hmedia : part.media = edit.media :=
      congrArg (·.media) (TelegramMessagePartFields.create_eq_ok hpart)
    exact .inr ⟨rfl, part, recomputed, hmedia, rfl, hrecomputed⟩

variable (sha256) in
theorem Sound.recordEdit (h : s.Sound) (edit : SourceEdit) (now : ℤ) :
    Outcome s ((s.toSourceStore.recordEdit sha256 edit).map (·.1))
      (s.recordEdit sha256 edit now) := by
  unfold AssetStore.recordEdit
  cases hsource : s.toSourceStore.recordEdit sha256 edit with
  | error e => exact .refused rfl rfl
  | ok result =>
    obtain ⟨source, recorded⟩ := result
    dsimp only [bind, Except.bind, Except.map]
    cases hlocked : s.sourceMessageWithComponent edit.sourceChannelId edit.telegramMessageId with
    | none =>
      unfold SourceStore.recordEdit at hsource
      rw [hlocked] at hsource
      obtain ⟨rfl, rfl⟩ := Prod.mk.inj (Except.ok.inj hsource)
      exact .stored rfl (.refl h) rfl
    | some locked =>
      obtain ⟨row, parent⟩ := locked
      rcases recomputed_of_recordEdit hlocked hsource with ⟨rfl, rfl⟩ |
        ⟨rfl, part, recomputed, -, hparts, hrecomputed⟩
      · exact .stored rfl (.refl h) rfl
      · have hothers : ∀ c row', source.parts.lookup c = some row' →
            row'.messageId ≠ row.messageId → s.parts.lookup c = some row' := by
          intro c row' hrow' hne
          rw [hparts] at hrow'
          rcases Dict.of_lookup_set hrow' with ⟨-, rfl⟩ | ⟨-, hold⟩
          · exact absurd rfl hne
          · exact hold
        dsimp only
        rw [if_pos rfl, hrecomputed]
        exact h.synchronizeArchiveAssets (media_of_normalizeParts hrecomputed).1
          (partsOf_of_recomputed hrecomputed hothers) (fit_of_recomputed hrecomputed) now

/-! ### One call -/

theorem Kept.signal (h : s.Sound) {fresh : ℕ} {durable : Durable}
    (hsignal : ∀ key,
      Durable.Signal fresh (s.durable.wakeups.lookup key) (durable.wakeups.lookup key)) :
    Kept s { s with durable } :=
  ⟨⟨h.images.signal hsignal, h.videos.signal hsignal⟩, .refl _, .refl _, id, id⟩

theorem parts_recordDeletion (source : SourceStore) (sourceChannelId telegramMessageId : ℕ)
    (deletedAt : ℤ) :
    (source.recordDeletion sourceChannelId telegramMessageId deletedAt).1.parts =
      source.parts := by
  unfold SourceStore.recordDeletion
  cases source.sourceMessageWithComponent sourceChannelId telegramMessageId with
  | none => rfl
  | some _ =>
    dsimp only
    split_ifs <;> rfl

variable (sha256 idLE) in
theorem apply_edit (s : AssetStore) (edit : SourceEdit) (now : ℤ) :
    s.apply sha256 idLE (.message (.edit edit) now) =
      rolledBack s (s.recordEdit sha256 edit now) := by
  rw [AssetStore.apply]
  cases s.recordEdit sha256 edit now <;> rfl

variable (sha256 idLE) in
theorem apply_upsert (s : AssetStore) (m : NormalizedTelegramMessage)
    (checked : m.postInit = .ok ()) (now : ℤ) :
    s.apply sha256 idLE (.message (.upsert m checked) now) =
      rolledBack s (s.upsertMessage sha256 m now) := by
  rw [AssetStore.apply]
  cases s.upsertMessage sha256 m now <;> rfl

theorem Outcome.kept (h : s.Sound) {source : Except PyError SourceStore}
    {result : Except PyError AssetStore} (houtcome : Outcome s source result) :
    Kept s (rolledBack s result) := by
  cases houtcome with
  | refused _ hresult => exact hresult ▸ .refl h
  | unfit _ _ hresult => exact hresult ▸ .refl h
  | stored _ hkept hresult => exact hresult ▸ hkept

theorem checks_of_postInit {imageAssetId : ℕ} {archive : ImageArchive} {archivedAt : ℤ}
    (h : (ImageArchiveReadyMetadata.mk imageAssetId archive archivedAt).postInit = .ok ()) :
    ArchiveColumns.Checks archive := by
  simp only [ImageArchiveReadyMetadata.postInit, seq_eq_ok, ensureValue_eq_ok, Bool.and_eq_true,
    decide_eq_true_eq, and_assoc] at h
  obtain ⟨-, -, hwidth, hheight, hsize, -⟩ := h
  exact ⟨hwidth, hheight, hsize⟩

theorem videoChecks_of_postInit {videoAssetId : ℕ} {archive : VideoArchive} {archivedAt : ℤ}
    (hprobe : archive.probe.postInit = .ok ())
    (h : (VideoArchiveReadyMetadata.mk videoAssetId archive archivedAt).postInit = .ok ()) :
    ArchiveColumns.Checks archive := by
  simp only [VideoProbeMetadata.postInit, VideoArchiveReadyMetadata.postInit, seq_eq_ok,
    ensureValue_eq_ok, Bool.and_eq_true, decide_eq_true_eq] at hprobe h
  exact ⟨hprobe.1.2, h.2.1⟩

variable (sha256 idLE) in
theorem kept_apply (h : s.Sound) (call : AssetStoreCall) : Kept s (s.apply sha256 idLE call) := by
  cases call with
  | message call now =>
    cases call with
    | edit edit => exact apply_edit sha256 idLE s edit now ▸ (h.recordEdit sha256 edit now).kept h
    | deletion sourceChannelId telegramMessageId deletedAt =>
      have hparts := parts_recordDeletion s.toSourceStore sourceChannelId telegramMessageId
        deletedAt
      exact ⟨⟨h.images, h.videos⟩, .refl _, .refl _, fun hcovers => hparts ▸ hcovers,
        fun hcovers => hparts ▸ hcovers⟩
    | upsert m checked =>
      exact apply_upsert sha256 idLE s m checked now ▸ (h.upsertMessage sha256 m now).kept h
  | image call checked =>
    have hwritten := ArchiveTables.written_perform imageArchiveQueue (s.archiveTables s.images) call
      fun _ _ _ hpublishes => checks_of_postInit (checked _ _ _ hpublishes)
    exact ⟨⟨h.images.written rfl rfl hwritten, h.videos.of_queue fun _ =>
        AssetTable.wakeups_of_written hwritten queues_ne.symm⟩,
      AssetTable.rowsKept_of_written rfl hwritten, .refl _,
      fun hcovers => hcovers.written rfl hwritten, id⟩
  | video call checked =>
    have hwritten := ArchiveTables.written_perform videoArchiveQueue (s.archiveTables s.videos) call
      fun _ _ _ hpublishes =>
        videoChecks_of_postInit (checked _ _ _ hpublishes).1 (checked _ _ _ hpublishes).2
    exact ⟨⟨h.images.of_queue fun _ => AssetTable.wakeups_of_written hwritten queues_ne,
        h.videos.written rfl rfl hwritten⟩,
      .refl _, AssetTable.rowsKept_of_written rfl hwritten, id,
      fun hcovers => hcovers.written rfl hwritten⟩
  | claimDue now leaseDuration limit =>
    exact .signal h fun key => Durable.signal_claimDue s.durable now leaseDuration limit key
  | acknowledgeDispatch queue entityId leaseToken now repairAfter =>
    exact .signal h fun key =>
      Durable.signal_releaseClaim s.durable queue entityId leaseToken repairAfter (some now) key
  | rescheduleAfterFailure queue entityId leaseToken retryAfter =>
    exact .signal h fun key =>
      Durable.signal_releaseClaim s.durable queue entityId leaseToken retryAfter none key

/-! ### The message store -/

theorem PartsFit.partUpsert {parts : Dict (ℕ × ℕ) PartRow} (h : PartsFit parts)
    (messageId sourceChannelId : ℕ) {part : TelegramMessagePart}
    (hpart : part.media.all (·.fitsColumns) = true) :
    PartsFit (partUpsert messageId sourceChannelId parts part) := by
  unfold TgCurator.partUpsert
  cases parts.lookup (sourceChannelId, part.telegramMessageId) with
  | none => exact h.set hpart
  | some row =>
    dsimp only
    split_ifs
    · exact h.set hpart
    · exact h

theorem PartsFit.foldl_partUpsert {parts : Dict (ℕ × ℕ) PartRow} (h : PartsFit parts)
    (messageId sourceChannelId : ℕ) {ps : List TelegramMessagePart}
    (hps : ∀ part ∈ ps, part.media.all (·.fitsColumns) = true) :
    PartsFit (ps.foldl (TgCurator.partUpsert messageId sourceChannelId) parts) := by
  induction ps generalizing parts with
  | nil => exact h
  | cons part ps ih =>
    exact ih (h.partUpsert messageId sourceChannelId (hps part List.mem_cons_self))
      fun part' hpart' => hps part' (List.mem_cons_of_mem _ hpart')

theorem PartsFit.recordEdit {source source' : SourceStore} (h : PartsFit source.parts)
    {edit : SourceEdit} {recorded : Bool}
    (hedit : source.recordEdit sha256 edit = .ok (source', recorded))
    (hmedia : edit.media.all (·.fitsColumns) = true) : PartsFit source'.parts := by
  cases hlocked : source.sourceMessageWithComponent edit.sourceChannelId
      edit.telegramMessageId with
  | none =>
    unfold SourceStore.recordEdit at hedit
    rw [hlocked] at hedit
    obtain ⟨rfl, -⟩ := Prod.mk.inj (Except.ok.inj hedit)
    exact h
  | some locked =>
    obtain ⟨row, parent⟩ := locked
    rcases recomputed_of_recordEdit hlocked hedit with ⟨-, rfl⟩ | ⟨-, part, _, hpart, hparts, -⟩
    · exact h
    · exact hparts ▸ h.set (hpart ▸ hmedia)

/-- In a store whose media fit, the message store after a transaction is that of its own. -/
theorem Outcome.toSourceStore {source : Except PyError SourceStore}
    {result : Except PyError AssetStore} (houtcome : Outcome s source result)
    (hfit : ∀ source', source = .ok source' → PartsFit source'.parts) :
    (rolledBack s result).toSourceStore = rolledBack s.toSourceStore source ∧
      (PartsFit s.parts → PartsFit (rolledBack s result).parts) := by
  cases houtcome with
  | refused hsource hresult =>
    rw [hsource, hresult]
    exact ⟨rfl, id⟩
  | unfit hsource hparts => exact absurd (hfit _ hsource) hparts
  | stored hsource _ hresult =>
    rw [hresult]
    exact ⟨hsource ▸ rfl, fun _ => hfit _ hsource⟩

variable (sha256 idLE) in
/-- The message store after a call whose media fit. -/
theorem toSourceStore_apply (h : s.Sound) (hparts : PartsFit s.parts) {call : AssetStoreCall}
    (hfit : call.mediaFit = true) :
    (s.apply sha256 idLE call).toSourceStore =
        call.lifecycleCall.elim s.toSourceStore (s.toSourceStore.apply sha256) ∧
      PartsFit (s.apply sha256 idLE call).parts := by
  cases call with
  | message call now =>
    cases call with
    | edit edit =>
      have hfit' : ∀ source', (s.toSourceStore.recordEdit sha256 edit).map (·.1) = .ok source' →
          PartsFit source'.parts := by
        intro source' hsource
        cases hedit : s.toSourceStore.recordEdit sha256 edit with
        | error e => simp [hedit, Except.map] at hsource
        | ok result =>
          rw [hedit] at hsource
          obtain rfl := Except.ok.inj hsource
          exact hparts.recordEdit hedit hfit
      obtain ⟨hsame, hkept⟩ := (h.recordEdit sha256 edit now).toSourceStore hfit'
      rw [apply_edit]
      refine ⟨hsame.trans ?_, hkept hparts⟩
      simp only [AssetStoreCall.lifecycleCall, Option.elim_some, SourceStore.apply]
      cases s.toSourceStore.recordEdit sha256 edit <;> rfl
    | deletion sourceChannelId telegramMessageId deletedAt =>
      exact ⟨rfl, (parts_recordDeletion s.toSourceStore sourceChannelId telegramMessageId
        deletedAt) ▸ hparts⟩
    | upsert m checked =>
      have hfit' : ∀ source', s.toSourceStore.upsertMessage sha256 m = .ok source' →
          PartsFit source'.parts := by
        intro source' hsource
        rw [parts_of_upsertMessage hsource]
        exact hparts.foldl_partUpsert _ _ (List.all_eq_true.mp hfit)
      obtain ⟨hsame, hkept⟩ := (h.upsertMessage sha256 m now).toSourceStore hfit'
      rw [apply_upsert]
      refine ⟨hsame.trans ?_, hkept hparts⟩
      simp only [AssetStoreCall.lifecycleCall, Option.elim_some, SourceStore.apply]
      cases s.toSourceStore.upsertMessage sha256 m <;> rfl
  | image => exact ⟨rfl, hparts⟩
  | video => exact ⟨rfl, hparts⟩
  | claimDue => exact ⟨rfl, hparts⟩
  | acknowledgeDispatch => exact ⟨rfl, hparts⟩
  | rescheduleAfterFailure => exact ⟨rfl, hparts⟩

/-! ### Runs -/

variable (sha256 idLE) in
/-- The calls of a run, in order. -/
def applyAll (s : AssetStore) (calls : List AssetStoreCall) : AssetStore :=
  calls.foldl (apply sha256 idLE) s

theorem Kept.trans {s'' : AssetStore} (h : Kept s s') (h' : Kept s' s'') : Kept s s'' :=
  ⟨h'.sound, h.images.trans h'.images, h.videos.trans h'.videos, h'.images_cover ∘ h.images_cover,
    h'.videos_cover ∘ h.videos_cover⟩

variable (sha256 idLE) in
theorem kept_applyAll (h : s.Sound) (calls : List AssetStoreCall) :
    Kept s (s.applyAll sha256 idLE calls) := by
  induction calls generalizing s with
  | nil => exact .refl h
  | cons call calls ih =>
    have hkept := kept_apply sha256 idLE h call
    exact hkept.trans (ih hkept.sound)

theorem sound_empty : ({} : AssetStore).Sound :=
  ⟨AssetTable.sound_empty _, AssetTable.sound_empty _⟩

variable (sha256 idLE)

/-- The archive does not hinder ingestion of media that fit their columns: the message store is
what its own calls make of it, whatever calls of the archive workers and the dispatcher come
between them. -/
theorem toSourceStore_applyAll (calls : List AssetStoreCall)
    (hfit : ∀ call ∈ calls, call.mediaFit = true) :
    (({} : AssetStore).applyAll sha256 idLE calls).toSourceStore =
      (calls.filterMap AssetStoreCall.lifecycleCall).foldl (SourceStore.apply sha256) {} := by
  have hrun : ∀ s : AssetStore, s.Sound → PartsFit s.parts →
      (s.applyAll sha256 idLE calls).toSourceStore =
        (calls.filterMap AssetStoreCall.lifecycleCall).foldl (SourceStore.apply sha256)
          s.toSourceStore := by
    induction calls with
    | nil => exact fun _ _ _ => rfl
    | cons call calls ih =>
      intro s h hparts
      obtain ⟨hstep, hparts'⟩ :=
        toSourceStore_apply sha256 idLE h hparts (hfit call List.mem_cons_self)
      rw [applyAll, List.foldl_cons, ← applyAll,
        ih (fun call' hcall' => hfit call' (List.mem_cons_of_mem _ hcall')) _
          (kept_apply sha256 idLE h call).sound hparts', hstep, List.filterMap_cons]
      cases call.lifecycleCall <;> rfl
  exact hrun {} sound_empty .nil

/-- A photo of message 5. -/
def photoFive : MediaAsset where
  assetId := "photo:5"
  kind := .image
  sourceTelegramMessageId := some 5
  checked := by decide +kernel

/-- Message 5, with its photo. -/
def photoPart : TelegramMessagePart where
  telegramMessageId := 5
  publishedAt := 0
  media := [photoFive]
  checked := by decide +kernel

theorem postInit_photoMessage : (logicalMessage 1 none photoPart []).postInit = .ok () := by
  decide +kernel

/-- The text of message 5 is edited while its photo is archived. -/
def photoEdit : SourceEdit where
  sourceChannelId := 1
  telegramMessageId := 5
  originalText := some "text"
  telegramMetadata := []
  media := [photoFive]
  editedAt := 3

/-- Ingestion, a claim of the dispatcher, a claim of the image worker, and the edit. -/
def photoCalls : List AssetStoreCall :=
  [.message (.upsert _ postInit_photoMessage) 0, .claimDue 1 60 10,
    .image (.claim 0 2 300) (by rintro _ _ _ ⟨⟩), .message (.edit photoEdit) 3]

theorem toSourceStore_applyAll_photo :
    let s := ({} : AssetStore).applyAll id (fun _ _ => true) photoCalls
    (s.images.rows.lookup 0).map (·.archiveState) = some .processing ∧
      s.toSourceStore =
        (photoCalls.filterMap AssetStoreCall.lifecycleCall).foldl (SourceStore.apply id) {} :=
  ⟨by decide +kernel, toSourceStore_applyAll id (fun _ _ => true) photoCalls (by decide +kernel)⟩

/-- Every image and every video of a stored part has its row, with what is known of its source,
and no asset of a message has two in one table. -/
theorem media_has_rows (calls : List AssetStoreCall) :
    let s := ({} : AssetStore).applyAll sha256 idLE calls
    (s.images.Covers imageSource s.parts ∧ s.videos.Covers videoSource s.parts) ∧
      s.images.rows.Unique (fun row => some (row.messageId, row.sourceAssetId)) ∧
      s.videos.rows.Unique (fun row => some (row.messageId, row.sourceAssetId)) := by
  have hkept := kept_applyAll sha256 idLE sound_empty calls
  refine ⟨⟨hkept.images_cover ?_, hkept.videos_cover ?_⟩, hkept.sound.images.unique,
    hkept.sound.videos.unique⟩
  · rintro _ _ ⟨⟩
  · rintro _ _ ⟨⟩

variable {D : Type}

/-- From some time on, a claim of the dispatcher that its limit does not cut short delivers the
asset to its workers. -/
def Delivered (s : AssetStore) (idLE : String × ℕ → String × ℕ → Bool) (queue : String) (id : ℕ) :
    Prop :=
  ∃ start : ℤ, ∀ now, start ≤ now → ∀ leaseDuration limit, (s.durable.dueRows now).length ≤ limit →
    ∃ claim ∈ (s.durable.claimDue idLE now leaseDuration limit).2,
      claim.queue = queue ∧ claim.entityId = id

theorem delivered_of_woken {queue : String} {id : ℕ} {row : ArchiveAssetRecord D}
    (h : Woken settled (some row) (s.durable.wakeups.lookup (queue, id)))
    (hopen : settled row = false) : s.Delivered idLE queue id := by
  obtain ⟨wakeup, hwakeup, start, hdue⟩ := h.waits row rfl hopen
  refine ⟨start, fun now hnow leaseDuration limit hlimit => ?_⟩
  exact Durable.mem_dueClaims hwakeup (DurableWakeupRecord.due_of_dueFrom hdue hnow) hlimit

/-- Every asset that is still to be archived and can be fetched is delivered to its workers, in
every order of the calls, and meets the checks of its table. -/
theorem assets_delivered (calls : List AssetStoreCall) :
    let s := ({} : AssetStore).applyAll sha256 idLE calls
    (∀ id row, s.images.rows.lookup id = some row → row.Checks ∧
      (row.archiveState.isActive = true → row.sourceTelegramMessageId.isSome →
        s.Delivered idLE imageArchiveQueue id)) ∧
    ∀ id row, s.videos.rows.lookup id = some row → row.Checks ∧
      (row.archiveState.isActive = true → row.sourceTelegramMessageId.isSome →
        s.Delivered idLE videoArchiveQueue id) := by
  have hsound := (kept_applyAll sha256 idLE sound_empty calls).sound
  refine ⟨fun id row hrow => ?_, fun id row hrow => ?_⟩
  · have hwoken := hsound.images.woken id
    rw [hrow] at hwoken
    exact ⟨hsound.images.checks.of_lookup hrow, fun hactive hfetched =>
      delivered_of_woken idLE hwoken (settled_eq_false.mpr ⟨hactive, hfetched⟩)⟩
  · have hwoken := hsound.videos.woken id
    rw [hrow] at hwoken
    exact ⟨hsound.videos.checks.of_lookup hrow, fun hactive hfetched =>
      delivered_of_woken idLE hwoken (settled_eq_false.mpr ⟨hactive, hfetched⟩)⟩

/-- No row is lost, nor its known hash, and one that has ended stays as it is, but for the message
it is fetched from, whatever calls follow. -/
theorem ended_rows_kept (calls calls' : List AssetStoreCall) :
    let s := ({} : AssetStore).applyAll sha256 idLE calls
    let s' := s.applyAll sha256 idLE calls'
    s.images.RowsKept s'.images ∧ s.videos.RowsKept s'.videos := by
  have hsound := (kept_applyAll sha256 idLE sound_empty calls).sound
  have hkept := kept_applyAll sha256 idLE hsound calls'
  exact ⟨hkept.images, hkept.videos⟩

end AssetStore

end TgCurator
