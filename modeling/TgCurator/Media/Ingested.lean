import TgCurator.Media.AssetRows

/-!
# The archive follows ingestion

What a synchronisation does to a table and the wake-ups of its queue, and from it what every
run of the store keeps.

In the course of an upsert a new asset has no wake-up yet. `planned` are the wake-ups with those
that the insert at the end of the transaction will bring, and with these each row of the
upsert keeps the table sound (`Sound.upsertAsset`). The wake-ups that the table has already are
not written (`lookup_planned`), so the table was sound with the planned wake-ups before
(`Sound.planned`).
-/

namespace TgCurator

/-! ## One table -/

theorem MediaAsset.source_pos (asset : MediaAsset) {id : ℕ}
    (h : asset.sourceTelegramMessageId = some id) : 0 < id := by
  have hchecked := asset.checked
  simp only [MediaAssetFields.postInit, seq_eq_ok, ensure_eq_ok] at hchecked
  simpa [h] using hchecked.2.2.2.2.2.2.2

theorem lookup_archiveWakeupsInsert {queue : String} {ids : List ℕ} {now : ℤ}
    {wakeups : Dict (String × ℕ) DurableWakeupRecord} (key : String × ℕ) :
    (archiveWakeupsInsert queue ids now wakeups).lookup key =
      (wakeups.lookup key).or (if key.1 = queue ∧ key.2 ∈ ids then some (newWakeup now) else none) := by
  unfold archiveWakeupsInsert
  induction ids generalizing wakeups with
  | nil => simp
  | cons id ids ih =>
    rw [List.foldl_cons, ih, Dict.lookup_setDefault, Option.or_assoc]
    congr 1
    by_cases hkey : key = (queue, id)
    · simp [hkey]
    · have hne : key.1 = queue → key.2 ≠ id := fun hqueue hid => hkey (Prod.ext hqueue hid)
      rw [if_neg hkey, Option.none_or]
      by_cases hqueue : key.1 = queue
      · simp [hqueue, hne hqueue]
      · simp [hqueue]

namespace AssetTable

variable {D : Type} {source : AssetSource} {table : AssetTable D} {messageId : ℕ}
  {media : List MediaAsset} {now : ℤ} {wakeups : Dict (String × ℕ) DurableWakeupRecord}

/-- An asset of a message that the transaction schedules. -/
structure ToSchedule (source : AssetSource) (messageId : ℕ) (media : List MediaAsset)
    (row : ArchiveAssetRecord D) : Prop where
  messageId : row.messageId = messageId
  sourceAssetId : row.sourceAssetId ∈ (assetsOf source media).map (·.assetId)
  fetched : row.sourceTelegramMessageId.isSome
  pending : row.archiveState = .pending

theorem mem_pendingIds (h : table.rows.keys.Nodup) {id : ℕ} :
    id ∈ table.pendingIds source messageId media ↔
      ∃ row, table.rows.lookup id = some row ∧ ToSchedule source messageId media row := by
  unfold pendingIds
  simp only [List.mem_map, List.mem_filter, Bool.and_eq_true, decide_eq_true_eq]
  constructor
  · rintro ⟨⟨_, row⟩, ⟨hrow, ⟨⟨hmessage, hasset⟩, hfetched⟩, hpending⟩, rfl⟩
    exact ⟨row, Dict.lookup_of_mem h hrow, hmessage, List.mem_map.mpr hasset, hfetched, hpending⟩
  · rintro ⟨row, hrow, hschedule⟩
    exact ⟨(id, row), ⟨Dict.mem_of_lookup hrow, ⟨⟨hschedule.messageId,
      List.mem_map.mp hschedule.sourceAssetId⟩, hschedule.fetched⟩, hschedule.pending⟩, rfl⟩

/-- The wake-ups, with those that the transaction will insert. -/
def planned (source : AssetSource) (table : AssetTable D) (messageId : ℕ)
    (media : List MediaAsset) (now : ℤ) (wakeups : Dict (String × ℕ) DurableWakeupRecord) :
    Dict (String × ℕ) DurableWakeupRecord :=
  archiveWakeupsInsert source.queue (table.pendingIds source messageId media) now wakeups

theorem lookup_planned_of_ne {key : String × ℕ} (h : key.1 ≠ source.queue) :
    (planned source table messageId media now wakeups).lookup key = wakeups.lookup key := by
  rw [planned, lookup_archiveWakeupsInsert, if_neg fun hkey => h hkey.1, Option.or_none]

theorem lookup_planned_none (h : table.rows.keys.Nodup) {id : ℕ}
    (hid : table.rows.lookup id = none) :
    (planned source table messageId media now wakeups).lookup (source.queue, id) =
      wakeups.lookup (source.queue, id) := by
  rw [planned, lookup_archiveWakeupsInsert, if_neg, Option.or_none]
  rintro ⟨-, hmem⟩
  obtain ⟨row, hrow, -⟩ := (mem_pendingIds h).mp hmem
  simp [hid] at hrow

/-- The planned wake-up of an asset. -/
theorem lookup_planned (h : table.rows.keys.Nodup) {id : ℕ} {row : ArchiveAssetRecord D}
    (hrow : table.rows.lookup id = some row) :
    (planned source table messageId media now wakeups).lookup (source.queue, id) =
        wakeups.lookup (source.queue, id) ∧
          (wakeups.lookup (source.queue, id) = none →
            ¬ ToSchedule source messageId media row) ∨
      (planned source table messageId media now wakeups).lookup (source.queue, id) =
          some (newWakeup now) ∧
        wakeups.lookup (source.queue, id) = none ∧ ToSchedule source messageId media row := by
  have hmem : id ∈ table.pendingIds source messageId media ↔
      ToSchedule source messageId media row := by
    rw [mem_pendingIds h, hrow]
    simp
  rw [planned, lookup_archiveWakeupsInsert]
  cases hwakeup : wakeups.lookup (source.queue, id) with
  | some wakeup => simp
  | none =>
    by_cases hschedule : ToSchedule source messageId media row
    · exact .inr ⟨by simp [hmem.mpr hschedule], rfl, hschedule⟩
    · exact .inl ⟨by simp [mt hmem.mp hschedule], fun _ => hschedule⟩

theorem of_planned_none {key : String × ℕ}
    (h : (planned source table messageId media now wakeups).lookup key = none) :
    wakeups.lookup key = none := by
  rw [planned, lookup_archiveWakeupsInsert, Option.or_eq_none_iff] at h
  exact h.1

theorem lookup_planned_congr {table' : AssetTable D} (h : table.rows.keys.Nodup)
    (h' : table'.rows.keys.Nodup) {id : ℕ} (hid : table'.rows.lookup id = table.rows.lookup id) :
    (planned source table' messageId media now wakeups).lookup (source.queue, id) =
      (planned source table messageId media now wakeups).lookup (source.queue, id) := by
  have hmem : id ∈ table'.pendingIds source messageId media ↔
      id ∈ table.pendingIds source messageId media := by
    rw [mem_pendingIds h, mem_pendingIds h', hid]
  rw [planned, planned, lookup_archiveWakeupsInsert, lookup_archiveWakeupsInsert]
  simp only [hmem]

theorem of_find {sourceAssetId : String} {id : ℕ} {row : ArchiveAssetRecord D}
    (h : table.find messageId sourceAssetId = some (id, row)) :
    (id, row) ∈ table.rows ∧ row.messageId = messageId ∧ row.sourceAssetId = sourceAssetId :=
  ⟨List.mem_of_find?_eq_some h, by simpa using List.find?_some h⟩

theorem not_of_find_none {sourceAssetId : String} (h : table.find messageId sourceAssetId = none)
    (e : ℕ × ArchiveAssetRecord D) (he : e ∈ table.rows) :
    ¬ (e.2.messageId = messageId ∧ e.2.sourceAssetId = sourceAssetId) := by
  simpa using List.find?_eq_none.mp h e he

namespace Sound

theorem woken_newWakeup (entity : Option (ArchiveAssetRecord D)) :
    Woken settled entity (some (newWakeup now)) :=
  .of_dueFrom (dueFrom_of_pending rfl) entity

/-- An asset that had no wake-up gets one, or cannot be fetched. -/
theorem woken_of_none (now : ℤ) (hkeys : table.rows.keys.Nodup) {id : ℕ} {row : ArchiveAssetRecord D}
    (hrow : table.rows.lookup id = some row)
    (hnone : wakeups.lookup (source.queue, id) = none) (hmessage : row.messageId = messageId)
    (hmedia : row.sourceAssetId ∈ (assetsOf source media).map (·.assetId))
    (hpending : row.archiveState = .pending) :
    (row.sourceTelegramMessageId = none →
        (AssetTable.planned source table messageId media now wakeups).lookup (source.queue, id) =
          none) ∧
      Woken settled (some row)
        ((AssetTable.planned source table messageId media now wakeups).lookup (source.queue, id)) := by
  rcases lookup_planned hkeys hrow with ⟨hlookup, hnot⟩ | ⟨hlookup, -, hschedule⟩
  · rw [hlookup, hnone]
    refine ⟨fun _ => rfl, ?_, nofun⟩
    rintro _ ⟨⟩ hopen
    exact absurd ⟨hmessage, hmedia, (settled_eq_false.mp hopen).2, hpending⟩ (hnot hnone)
  · rw [hlookup]
    refine ⟨fun hsource => ?_, woken_newWakeup _⟩
    have hfetched := hschedule.fetched
    simp [hsource] at hfetched

variable [ArchiveColumns D]

/-- The table has its wake-ups already. -/
theorem planned (h : table.Sound source wakeups) :
    table.Sound source (planned source table messageId media now wakeups) := by
  refine h.of_queue fun id => ?_
  cases hrow : table.rows.lookup id with
  | none => exact lookup_planned_none h.keys hrow
  | some row =>
    rcases lookup_planned h.keys hrow with ⟨hsame, -⟩ | ⟨-, hnone, hschedule⟩
    · exact hsame
    · obtain ⟨_, hwakeup, -⟩ := (h.woken id).waits row hrow
        (settled_eq_false.mpr ⟨by simp [hschedule.pending, ArchiveState.isActive], hschedule.fetched⟩)
      simp [hnone] at hwakeup

/-- The row of an upsert in place of that of the asset. -/
theorem refetched
    (h : table.Sound source (AssetTable.planned source table messageId media now wakeups))
    {asset : MediaAsset} (hasset : asset ∈ assetsOf source media) {id : ℕ}
    {row row' : ArchiveAssetRecord D} (hrow : table.rows.lookup id = some row)
    (hmessage : row.messageId = messageId) (hsource : row.sourceAssetId = asset.assetId)
    (hrow' : row' = { row with
      sourceTelegramMessageId := asset.sourceTelegramMessageId <|> row.sourceTelegramMessageId })
    {table' : AssetTable D} (hrows : table'.rows = table.rows.set id row')
    (hnext : table'.nextId = table.nextId) :
    table'.Sound source (AssetTable.planned source table' messageId media now wakeups) := by
  have hkeys : table'.rows.keys.Nodup := hrows ▸ Dict.nodup_keys_set h.keys
  have hself : table'.rows.lookup id = some row' := by rw [hrows, Dict.lookup_set_self]
  have hstate : row'.archiveState = row.archiveState := by rw [hrow']
  have hmessage' : row'.messageId = messageId := by rw [hrow', ← hmessage]
  have hmedia : row'.sourceAssetId ∈ (assetsOf source media).map (·.assetId) := by
    rw [hrow']
    exact List.mem_map.mpr ⟨asset, hasset, hsource.symm⟩
  have hkept : row'.sourceTelegramMessageId = none → row.sourceTelegramMessageId = none := by
    simp only [hrow', Option.orElse_eq_orElse, Option.orElse_eq_or, Option.or_eq_none_iff]
    exact And.right
  have hwork : (row'.sourceTelegramMessageId = none → row'.archiveState = .pending ∧
      (AssetTable.planned source table' messageId media now wakeups).lookup (source.queue, id) =
        none) ∧
      Woken settled (some row') ((AssetTable.planned source table' messageId media now
        wakeups).lookup (source.queue, id)) := by
    cases hfetched : row.sourceTelegramMessageId with
    | none =>
      -- a row that could not be fetched is pending and has no wake-up
      obtain ⟨hpending, hnone⟩ := h.unfetched id row hrow hfetched
      have hpending' := hstate.trans hpending
      obtain ⟨hunfetched, hwoken⟩ := woken_of_none now hkeys hself
        (of_planned_none hnone) hmessage' hmedia hpending'
      exact ⟨fun hnone => ⟨hpending', hunfetched hnone⟩, hwoken⟩
    | some _ =>
      have hfetched' : row'.sourceTelegramMessageId.isSome :=
        Option.isSome_iff_ne_none.mpr fun hnone => by simp [hkept hnone] at hfetched
      refine ⟨fun hnone => by simp [hnone] at hfetched', ?_⟩
      have hsettled : settled row' = settled row := by
        simp [settled, hstate, hfetched, hfetched']
      rcases lookup_planned hkeys hself with ⟨hlookup, hnot⟩ | ⟨hlookup, -, -⟩
      · have hwoken := h.woken id
        rcases lookup_planned h.keys hrow with ⟨hold, -⟩ | ⟨-, hnone, hschedule⟩
        · rw [hold, hrow] at hwoken
          rw [hlookup]
          refine hwoken.work (.kept _ ?_ ?_)
          · rintro _ ⟨⟩ hopen
            exact ⟨row, rfl, hsettled ▸ hopen⟩
          · rintro _ ⟨⟩ hclosed
            exact ⟨row', rfl, hsettled ▸ hclosed⟩
        · exact absurd ⟨hmessage', hmedia, hfetched', hstate.trans hschedule.pending⟩ (hnot hnone)
      · rw [hlookup]
        exact woken_newWakeup _
  refine h.put_kept hrow ?_ ?_ hrows hnext ?_ ?_ hwork.1 hwork.2
  · rw [hrow']
  · rw [hrow']
  · exact hrow' ▸ (h.checks.of_lookup hrow).refetch fun _ hid => asset.source_pos hid
  · intro id' hid
    exact lookup_planned_congr h.keys hkeys (by rw [hrows, Dict.lookup_set_of_ne hid])

/-- A new row of an upsert. -/
theorem inserted
    (h : table.Sound source (AssetTable.planned source table messageId media now wakeups))
    {asset : MediaAsset} (hasset : asset ∈ assetsOf source media)
    (hfind : table.find messageId asset.assetId = none) {table' : AssetTable D}
    (hrows : table'.rows = table.rows.set table.nextId
      (.ingested messageId asset.assetId asset.sourceTelegramMessageId archiveMaxAttempts))
    (hnext : table'.nextId = table.nextId + 1) :
    table'.Sound source (AssetTable.planned source table' messageId media now wakeups) := by
  have hkeys : table'.rows.keys.Nodup := hrows ▸ Dict.nodup_keys_set h.keys
  have hself : table'.rows.lookup table.nextId = some
      (.ingested messageId asset.assetId asset.sourceTelegramMessageId archiveMaxAttempts) := by
    rw [hrows, Dict.lookup_set_self]
  have hnew : table.rows.lookup table.nextId = none :=
    Dict.lookup_eq_none.mpr fun hmem => (h.fresh _ hmem).false
  obtain ⟨hunfetched, hwoken⟩ := woken_of_none now hkeys hself
    (of_planned_none (h.absent _ hnew)) rfl (List.mem_map_of_mem hasset) rfl
  refine h.put hrows ?_ ?_ ?_ ?_ (fun hnone => ⟨rfl, hunfetched hnone⟩) hwoken
  · intro id' hid'
    rw [hrows, Dict.mem_keys_set] at hid'
    rw [hnext]
    rcases hid' with rfl | hid'
    · exact Nat.lt_succ_self _
    · exact (h.fresh _ hid').trans (Nat.lt_succ_self _)
  · rw [hrows]
    refine h.unique.set ?_
    rintro _ ⟨⟩ e he hkey
    exact absurd (Prod.mk.inj (Option.some.inj hkey)) (not_of_find_none hfind e he)
  · exact ArchiveAssetRecord.checks_ingested _ _ fun _ hid => asset.source_pos hid
  · intro id' hid
    exact lookup_planned_congr h.keys hkeys (by rw [hrows, Dict.lookup_set_of_ne hid])

/-- One row of an upsert. -/
theorem upsertAsset
    (h : table.Sound source (AssetTable.planned source table messageId media now wakeups))
    {asset : MediaAsset} (hasset : asset ∈ assetsOf source media) :
    (table.upsertAsset source messageId asset).Sound source (AssetTable.planned source
      (table.upsertAsset source messageId asset) messageId media now wakeups) := by
  unfold AssetTable.upsertAsset
  cases hfind : table.find messageId asset.assetId with
  | some e =>
    obtain ⟨id, row⟩ := e
    obtain ⟨hmem, hmessage, hsource⟩ := of_find hfind
    exact h.refetched hasset (Dict.lookup_of_mem h.keys hmem) hmessage hsource rfl rfl rfl
  | none => exact h.inserted hasset hfind rfl rfl

end Sound

/-! ## What a synchronisation keeps -/

/-- A row after ingestion found its asset again: of its columns, only the message it is fetched
from can be another, and that is not forgotten. -/
def Refetch (row row' : ArchiveAssetRecord D) : Prop :=
  ∃ sourceTelegramMessageId, row' = { row with sourceTelegramMessageId } ∧
    (sourceTelegramMessageId = none → row.sourceTelegramMessageId = none)

theorem Refetch.refl (row : ArchiveAssetRecord D) : Refetch row row :=
  ⟨_, rfl, id⟩

theorem Refetch.trans {row row' row'' : ArchiveAssetRecord D} (h : Refetch row row')
    (h' : Refetch row' row'') : Refetch row row'' := by
  obtain ⟨_, rfl, hsource⟩ := h
  obtain ⟨_, rfl, hsource'⟩ := h'
  exact ⟨_, rfl, hsource ∘ hsource'⟩

/-- The hash that is known of an asset is not forgotten. -/
def HashKept (table table' : AssetTable D) (id : ℕ) : Prop :=
  ∀ hash, table.sourceHash.lookup id = some (some hash) →
    ∃ hash', table'.sourceHash.lookup id = some (some hash')

theorem HashKept.refl (table : AssetTable D) (id : ℕ) : table.HashKept table id :=
  fun hash hhash => ⟨hash, hhash⟩

theorem HashKept.trans {table' table'' : AssetTable D} {id : ℕ} (h : table.HashKept table' id)
    (h' : table'.HashKept table'' id) : table.HashKept table'' id := by
  intro hash hhash
  obtain ⟨hash', hhash'⟩ := h hash hhash
  exact h' hash' hhash'

/-- The row of an asset of a message, with what is known of its source. -/
structure IsRowOf (source : AssetSource) (table : AssetTable D) (messageId : ℕ)
    (asset : MediaAsset) (id : ℕ) (row : ArchiveAssetRecord D) : Prop where
  found : table.rows.lookup id = some row
  messageId : row.messageId = messageId
  sourceAssetId : row.sourceAssetId = asset.assetId
  sourceTelegramMessageId : ∀ telegramMessageId, asset.sourceTelegramMessageId = some telegramMessageId →
    row.sourceTelegramMessageId = some telegramMessageId
  sourceHash : ∀ hash, source.sourceHash asset = some hash →
    table.sourceHash.lookup id = some (some hash)

/-- The table has the asset of a message. -/
def Has (source : AssetSource) (table : AssetTable D) (messageId : ℕ) (asset : MediaAsset) : Prop :=
  ∃ id row, table.IsRowOf source messageId asset id row

/-- The assets of a message are written, and the other rows stay. -/
structure Synchronized (source : AssetSource) (messageId : ℕ) (assets : List MediaAsset)
    (table table' : AssetTable D) : Prop where
  has : ∀ asset ∈ assets, table'.Has source messageId asset
  others : ∀ messageId' asset,
    ¬ (messageId' = messageId ∧ asset.assetId ∈ assets.map (·.assetId)) →
      table.Has source messageId' asset → table'.Has source messageId' asset
  rows : ∀ id row, table.rows.lookup id = some row →
    ∃ row', table'.rows.lookup id = some row' ∧ Refetch row row' ∧ table.HashKept table' id

theorem IsRowOf.set {messageId' : ℕ} {asset : MediaAsset} {id id' : ℕ}
    {row' : ArchiveAssetRecord D} (h : table.IsRowOf source messageId' asset id' row')
    (hid : id' ≠ id) {table' : AssetTable D} {row : ArchiveAssetRecord D} {hash : Option String}
    (hrows : table'.rows = table.rows.set id row)
    (hhash : table'.sourceHash = table.sourceHash.set id hash) :
    table'.IsRowOf source messageId' asset id' row' where
  found := by rw [hrows, Dict.lookup_set_of_ne hid, h.found]
  messageId := h.messageId
  sourceAssetId := h.sourceAssetId
  sourceTelegramMessageId := h.sourceTelegramMessageId
  sourceHash := by
    rw [hhash, Dict.lookup_set_of_ne hid]
    exact h.sourceHash

theorem Sound.synchronized_upsertAsset [ArchiveColumns D] (h : table.Sound source wakeups) (messageId : ℕ)
    (asset : MediaAsset) :
    Synchronized source messageId [asset] table (table.upsertAsset source messageId asset) := by
  generalize htable' : table.upsertAsset source messageId asset = table'
  unfold AssetTable.upsertAsset at htable'
  cases hfind : table.find messageId asset.assetId with
  | some e =>
    obtain ⟨id, row⟩ := e
    obtain ⟨hmem, hmessage, hsource⟩ := of_find hfind
    have hrow := Dict.lookup_of_mem h.keys hmem
    rw [hfind] at htable'
    dsimp only at htable'
    subst htable'
    refine ⟨?_, ?_, ?_⟩
    · intro _ hasset
      obtain rfl := List.mem_singleton.mp hasset
      refine ⟨id, _, Dict.lookup_set_self .., hmessage, hsource, ?_, ?_⟩
      · intro telegramMessageId htelegram
        simp [htelegram]
      · intro hash hhash
        simp [hhash]
    · rintro messageId' asset' hne ⟨id', row', hrow'⟩
      refine ⟨id', row', hrow'.set ?_ rfl rfl⟩
      rintro rfl
      obtain rfl := Option.some.inj (hrow.symm.trans hrow'.found)
      exact hne ⟨hrow'.messageId.symm.trans hmessage,
        by simp [← hrow'.sourceAssetId, hsource]⟩
    · intro id' row' hrow'
      by_cases hid : id' = id
      · subst hid
        obtain rfl := Option.some.inj (hrow.symm.trans hrow')
        refine ⟨_, Dict.lookup_set_self .., ⟨_, rfl, ?_⟩, fun hash hhash => ?_⟩
        · simp only [Option.orElse_eq_orElse, Option.orElse_eq_or, Option.or_eq_none_iff]
          exact And.right
        · rw [Dict.lookup_set_self, hhash]
          cases hnew : source.sourceHash asset with
          | none => exact ⟨hash, by simp⟩
          | some hash' => exact ⟨hash', by simp⟩
      · refine ⟨row', by rw [Dict.lookup_set_of_ne hid, hrow'], .refl _, fun hash hhash => ?_⟩
        exact ⟨hash, by rw [Dict.lookup_set_of_ne hid, hhash]⟩
  | none =>
    rw [hfind] at htable'
    dsimp only at htable'
    subst htable'
    have hfresh : ∀ {id' row'}, table.rows.lookup id' = some row' → id' ≠ table.nextId := by
      rintro _ row' hrow' rfl
      exact (h.fresh _ (Dict.mem_keys.mpr ⟨row', Dict.mem_of_lookup hrow'⟩)).false
    refine ⟨?_, ?_, ?_⟩
    · intro _ hasset
      obtain rfl := List.mem_singleton.mp hasset
      exact ⟨table.nextId, _, Dict.lookup_set_self .., rfl, rfl, fun _ => id, fun _ hhash => by
        rw [Dict.lookup_set_self, hhash]⟩
    · rintro messageId' asset' - ⟨id', row', hrow'⟩
      exact ⟨id', row', hrow'.set (hfresh hrow'.found) rfl rfl⟩
    · intro id' row' hrow'
      refine ⟨row', by rw [Dict.lookup_set_of_ne (hfresh hrow'), hrow'], .refl _,
        fun hash hhash => ⟨hash, by rw [Dict.lookup_set_of_ne (hfresh hrow'), hhash]⟩⟩

theorem Synchronized.nil (table : AssetTable D) : Synchronized source messageId [] table table where
  has _ hasset := absurd hasset List.not_mem_nil
  others _ _ _ hhas := hhas
  rows id row hrow := ⟨row, hrow, .refl row, .refl table id⟩

theorem Synchronized.cons {asset : MediaAsset} {assets : List MediaAsset}
    {table' table'' : AssetTable D} (h : Synchronized source messageId [asset] table table')
    (h' : Synchronized source messageId assets table' table'')
    (hasset : asset.assetId ∉ assets.map (·.assetId)) :
    Synchronized source messageId (asset :: assets) table table'' where
  has asset' hasset' := by
    rcases List.mem_cons.mp hasset' with rfl | hasset'
    · exact h'.others messageId asset' (fun hkey => hasset hkey.2)
        (h.has asset' (List.mem_singleton_self _))
    · exact h'.has asset' hasset'
  others messageId' asset' hne hhas := by
    refine h'.others messageId' asset' ?_ (h.others messageId' asset' ?_ hhas)
    · exact fun hkey => hne ⟨hkey.1, List.mem_cons_of_mem _ hkey.2⟩
    · rintro ⟨hmessage, hmem⟩
      rw [List.map_singleton, List.mem_singleton] at hmem
      exact hne ⟨hmessage, by simp [hmem]⟩
  rows id row hrow := by
    obtain ⟨row', hrow', hrefetch, hhash⟩ := h.rows id row hrow
    obtain ⟨row'', hrow'', hrefetch', hhash'⟩ := h'.rows id row' hrow'
    exact ⟨row'', hrow'', hrefetch.trans hrefetch', hhash.trans hhash'⟩

/-- The upsert of a list of assets with distinct ids. -/
theorem Sound.foldl_upsertAsset [ArchiveColumns D] {assets : List MediaAsset}
    (h : table.Sound source (AssetTable.planned source table messageId media now wakeups))
    (hassets : ∀ asset ∈ assets, asset ∈ assetsOf source media)
    (hnodup : (assets.map (·.assetId)).Nodup) :
    (assets.foldl (AssetTable.upsertAsset source messageId) table).Sound source
        (AssetTable.planned source (assets.foldl (AssetTable.upsertAsset source messageId) table)
          messageId media now wakeups) ∧
      Synchronized source messageId assets table
        (assets.foldl (AssetTable.upsertAsset source messageId) table) := by
  induction assets generalizing table with
  | nil => exact ⟨h, .nil table⟩
  | cons asset assets ih =>
    rw [List.map_cons, List.nodup_cons] at hnodup
    have hsound := h.upsertAsset (hassets asset List.mem_cons_self)
    obtain ⟨hsound', hsync⟩ := ih hsound
      (fun asset' hasset' => hassets asset' (List.mem_cons_of_mem _ hasset')) hnodup.2
    exact ⟨hsound', (h.synchronized_upsertAsset messageId asset).cons hsync hnodup.1⟩

/-- A synchronisation fails if an asset does not fit its columns. -/
theorem synchronize_of_not_fits (hfits : ¬(assetsOf source media).all source.fits = true) :
    table.synchronize source wakeups messageId media now = .error .dataError := by
  rw [AssetTable.synchronize, assetsUpsert, if_pos (by simpa using hfits)]
  rfl

/-- A synchronisation of assets that fit their columns does not fail, keeps the table sound, and
brings it up to date. -/
theorem Sound.synchronize [ArchiveColumns D] (h : table.Sound source wakeups)
    (hmedia : (media.map (·.assetId)).Nodup)
    (hfits : (assetsOf source media).all source.fits = true) (messageId : ℕ) (now : ℤ) :
    ∃ table' wakeups',
      table.synchronize source wakeups messageId media now = .ok (table', wakeups') ∧
        table'.Sound source wakeups' ∧
        Synchronized source messageId (assetsOf source media) table table' ∧
        ∀ key, key.1 ≠ source.queue → wakeups'.lookup key = wakeups.lookup key := by
  have hnodup : ((assetsOf source media).map (·.assetId)).Nodup :=
    hmedia.sublist (List.filter_sublist.map _)
  have hplanned : table.Sound source
      (AssetTable.planned source table messageId media now wakeups) := h.planned
  obtain ⟨hsound, hsync⟩ := hplanned.foldl_upsertAsset (fun _ hasset => hasset) hnodup
  refine ⟨_, _, ?_, hsound, hsync, fun key hkey => lookup_planned_of_ne hkey⟩
  rw [AssetTable.synchronize, assetsUpsert, if_neg (by rw [hfits]; decide), if_pos hnodup]
  rfl

end AssetTable

end TgCurator
