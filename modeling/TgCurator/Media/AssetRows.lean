import TgCurator.Media.Assets
import TgCurator.Processing.Queues

/-!
# What happens to an asset row

The checks of `image_assets` and `video_assets`, and what one call of an archive repository
writes: it rewrites one active asset, with or without its wake-up, or completes the wake-up of an asset
that has ended (`written_perform`). A row keeps what it is the archive of (`identity`), and a
rewrite keeps the checks.
-/

namespace TgCurator

/-! ## Checks -/

/-- The checks on the columns of a ready archive. -/
class ArchiveColumns (D : Type) where
  Checks : D → Prop

/-- `image_asset_width_positive`, `image_asset_height_positive` and
`image_asset_archive_size_positive`. -/
instance : ArchiveColumns ImageArchive where
  Checks archive := 0 < archive.width ∧ 0 < archive.height ∧ 0 < archive.archiveSizeBytes

/-- `video_asset_duration_positive` and `video_asset_source_size_positive`. -/
instance : ArchiveColumns VideoArchive where
  Checks archive := (Number.int 0).lt archive.probe.durationSeconds = true ∧
    0 < archive.sourceSizeBytes

namespace ArchiveAssetRecord

variable {D : Type} [ArchiveColumns D]

/-- The checks of an asset table, with the lengths of its error columns. -/
structure Checks (row : ArchiveAssetRecord D) : Prop where
  /-- `…_source_message_positive` -/
  source_message_positive : ∀ id, row.sourceTelegramMessageId = some id → 0 < id
  /-- `…_archive_attempts` -/
  archive_attempts : row.archiveAttemptCount ≤ row.archiveMaxAttempts ∧ 0 < row.archiveMaxAttempts
  /-- `…_archive_lease` -/
  archive_lease : (row.archiveState = .processing ∧ row.archiveLeaseToken.isSome ∧
      row.archiveLeaseExpiresAt.isSome ∧ 0 < row.archiveAttemptCount) ∨
    (row.archiveState ≠ .processing ∧ row.archiveLeaseToken = none ∧
      row.archiveLeaseExpiresAt = none)
  /-- `…_archive_retry_schedule` -/
  archive_retry_schedule : (row.archiveState = .retryWait ∧ row.archiveNextRetryAt.isSome) ∨
    (row.archiveState ≠ .retryWait ∧ row.archiveNextRetryAt = none)
  /-- `…_archive_failure_metadata` -/
  archive_failure_metadata : row.archiveState = .retryWait ∨ row.archiveState = .failed →
    row.archiveLastErrorCode.isSome ∧ row.archiveLastErrorType.isSome ∧
      row.archiveLastFailureAt.isSome
  /-- `…_ready_metadata` -/
  ready_metadata : row.archiveState = .ready → row.archived.isSome ∧ row.archiveReadyAt.isSome
  /-- `…_deleted_timestamp` -/
  deleted_timestamp : row.archiveState = .deleted → row.archiveDeletedAt.isSome
  archived : ∀ archive, row.archived = some archive → ArchiveColumns.Checks archive
  error_code_length : ∀ code, row.archiveLastErrorCode = some code → code.length ≤ 64
  error_type_length : ∀ type, row.archiveLastErrorType = some type → type.length ≤ 128

/-- What a row is the archive of. -/
def identity (row : ArchiveAssetRecord D) : ℕ × String × Option ℕ :=
  (row.messageId, row.sourceAssetId, row.sourceTelegramMessageId)

variable {row : ArchiveAssetRecord D}

theorem checks_ingested (messageId : ℕ) (sourceAssetId : String)
    {sourceTelegramMessageId : Option ℕ}
    (h : ∀ id, sourceTelegramMessageId = some id → 0 < id) :
    (ingested messageId sourceAssetId sourceTelegramMessageId TgCurator.archiveMaxAttempts :
      ArchiveAssetRecord D).Checks where
  source_message_positive := h
  archive_attempts := ⟨Nat.zero_le _, Nat.succ_pos 4⟩
  archive_lease := .inr ⟨by simp [ingested], rfl, rfl⟩
  archive_retry_schedule := .inr ⟨by simp [ingested], rfl⟩
  archive_failure_metadata hstate := by rcases hstate with hstate | hstate <;> cases hstate
  ready_metadata hstate := by cases hstate
  deleted_timestamp hstate := by cases hstate
  archived _ harchive := by cases harchive
  error_code_length _ hcode := by cases hcode
  error_type_length _ htype := by cases htype

theorem Checks.lease_row (h : row.Checks) (hlt : row.archiveAttemptCount < row.archiveMaxAttempts)
    (leaseToken : ℕ) (now leaseDuration : ℤ) : (row.lease leaseToken now leaseDuration).Checks where
  source_message_positive := h.source_message_positive
  archive_attempts := ⟨hlt, h.archive_attempts.2⟩
  archive_lease := .inl ⟨rfl, rfl, rfl, Nat.succ_pos _⟩
  archive_retry_schedule := .inr ⟨by simp [ArchiveAssetRecord.lease], rfl⟩
  archive_failure_metadata hstate := by rcases hstate with hstate | hstate <;> cases hstate
  ready_metadata hstate := by cases hstate
  deleted_timestamp hstate := by cases hstate
  archived := h.archived
  error_code_length := h.error_code_length
  error_type_length := h.error_type_length

theorem Checks.publish_row (h : row.Checks) {archived : D}
    (harchived : ArchiveColumns.Checks archived) (archivedAt : ℤ) :
    (row.publish archived archivedAt).Checks where
  source_message_positive := h.source_message_positive
  archive_attempts := h.archive_attempts
  archive_lease := .inr ⟨by simp [publish], rfl, rfl⟩
  archive_retry_schedule := .inr ⟨by simp [publish], rfl⟩
  archive_failure_metadata hstate := by rcases hstate with hstate | hstate <;> cases hstate
  ready_metadata _ := ⟨rfl, rfl⟩
  deleted_timestamp hstate := by cases hstate
  archived := by
    rintro _ ⟨⟩
    exact harchived
  error_code_length _ hcode := by cases hcode
  error_type_length _ htype := by cases htype

theorem Checks.retry_row (h : row.Checks) {errorCode errorType : String} (retryAt now : ℤ)
    (hcode : errorCode.length ≤ 64) (htype : errorType.length ≤ 128) :
    (row.recordFailure .retryWait (some retryAt) errorCode errorType now).Checks where
  source_message_positive := h.source_message_positive
  archive_attempts := h.archive_attempts
  archive_lease := .inr ⟨by simp [recordFailure], rfl, rfl⟩
  archive_retry_schedule := .inl ⟨rfl, rfl⟩
  archive_failure_metadata _ := ⟨rfl, rfl, rfl⟩
  ready_metadata hstate := by cases hstate
  deleted_timestamp hstate := by cases hstate
  archived := h.archived
  error_code_length := by
    rintro _ ⟨⟩
    exact hcode
  error_type_length := by
    rintro _ ⟨⟩
    exact htype

theorem Checks.failed_row (h : row.Checks) {errorCode errorType : String} (now : ℤ)
    (hcode : errorCode.length ≤ 64) (htype : errorType.length ≤ 128) :
    (row.recordFailure .failed none errorCode errorType now).Checks where
  source_message_positive := h.source_message_positive
  archive_attempts := h.archive_attempts
  archive_lease := .inr ⟨by simp [recordFailure], rfl, rfl⟩
  archive_retry_schedule := .inr ⟨by simp [recordFailure], rfl⟩
  archive_failure_metadata _ := ⟨rfl, rfl, rfl⟩
  ready_metadata hstate := by cases hstate
  deleted_timestamp hstate := by cases hstate
  archived := h.archived
  error_code_length := by
    rintro _ ⟨⟩
    exact hcode
  error_type_length := by
    rintro _ ⟨⟩
    exact htype

/-- An asset that ingestion finds again. -/
theorem Checks.refetch (h : row.Checks) {sourceTelegramMessageId : Option ℕ}
    (hsource : ∀ id, sourceTelegramMessageId = some id → 0 < id) :
    { row with
      sourceTelegramMessageId := sourceTelegramMessageId <|> row.sourceTelegramMessageId :
        ArchiveAssetRecord D }.Checks :=
  { h with
    source_message_positive := by
      intro id hid
      cases hnew : sourceTelegramMessageId with
      | none => exact h.source_message_positive id (by simpa [hnew] using hid)
      | some _ => exact hsource id (by simpa [hnew] using hid) }

end ArchiveAssetRecord

/-! ## Calls -/

namespace ArchiveTables

variable {D : Type} [ArchiveColumns D] {queue : String} {t t' : ArchiveTables D}

/-- A call rewrites an active asset that can be fetched. -/
structure Rewrites (t t' : ArchiveTables D) (id : ℕ) (row row' : ArchiveAssetRecord D) : Prop where
  found : t.assets.lookup id = some row
  assets : t'.assets = t.assets.set id row'
  active : row.archiveState.isActive = true
  fetched : row.sourceTelegramMessageId.isSome ∨ row.archiveState = .processing
  identity : row'.identity = row.identity
  checks : row.Checks → row'.Checks

/-- What a call writes. -/
inductive Written (queue : String) (t t' : ArchiveTables D) : Prop
  /-- nothing -/
  | kept (h : t' = t)
  /-- an asset -/
  | moved {id : ℕ} {row row' : ArchiveAssetRecord D} (h : t.Rewrites t' id row row')
    (hwakeups : t'.wakeups = t.wakeups)
  /-- an asset that waits for its retry, and its wake-up -/
  | returned {id : ℕ} {row row' : ArchiveAssetRecord D} (retryAt : ℤ)
    (h : t.Rewrites t' id row row')
    (hwakeups : t'.wakeups = rescheduleOpenWakeup t.wakeups queue id retryAt)
  /-- an asset that ends, and its wake-up -/
  | ended {id : ℕ} {row row' : ArchiveAssetRecord D} (now : ℤ) (h : t.Rewrites t' id row row')
    (hwakeups : t'.wakeups = setOpenWakeupTerminal t.wakeups queue id now)
    (hended : row'.archiveState.isActive = false)
  /-- the wake-up of an asset that has ended -/
  | woken {id : ℕ} {row : ArchiveAssetRecord D} (now : ℤ) (hrow : t.assets.lookup id = some row)
    (hended : row.archiveState.isActive = false) (hassets : t'.assets = t.assets)
    (hwakeups : t'.wakeups = setOpenWakeupTerminal t.wakeups queue id now)

theorem written_claim (queue : String) (t : ArchiveTables D) (assetId : ℕ)
    (now leaseDuration : ℤ) :
    Written queue t (ArchiveTables.claim queue t assetId now leaseDuration).1 := by
  unfold ArchiveTables.claim
  split
  · exact .kept rfl
  · next row sourceTelegramMessageId message hclaim =>
    unfold claimRow at hclaim
    obtain ⟨row', hrow, hclaim⟩ := Option.bind_eq_some_iff.mp hclaim
    obtain ⟨_, hsource, hclaim⟩ := Option.bind_eq_some_iff.mp hclaim
    obtain ⟨_, -, hclaim⟩ := Option.bind_eq_some_iff.mp hclaim
    obtain ⟨rfl, -⟩ := Prod.mk.inj (Option.some.inj hclaim)
    obtain ⟨hrow, hdue⟩ := Option.filter_eq_some_iff.mp hrow
    have hactive := ArchiveAssetRecord.isActive_of_due hdue
    have hfetched : row'.sourceTelegramMessageId.isSome := by rw [hsource]; rfl
    split_ifs with hexhausted
    · refine .ended now ⟨hrow, rfl, hactive, .inl hfetched, rfl, fun h => ?_⟩ rfl rfl
      exact h.failed_row now (by decide) (by decide)
    · refine .moved ⟨hrow, rfl, hactive, .inl hfetched, rfl, fun h => ?_⟩ rfl
      exact h.lease_row (Nat.lt_of_not_le hexhausted) _ _ _

theorem written_markReady (queue : String) (t : ArchiveTables D) (claim : ClaimedArchive)
    (assetId : ℕ) {archived : D} (harchived : ArchiveColumns.Checks archived) (archivedAt : ℤ) :
    Written queue t (t.markReady claim assetId archived archivedAt).1 := by
  unfold markReady
  split
  · exact .kept rfl
  · next row hrow =>
    obtain ⟨hheld, hid⟩ := Option.filter_eq_some_iff.mp hrow
    obtain rfl := of_decide_eq_true hid
    have hheld := held_of_heldRow hheld
    exact .moved ⟨hheld.found, rfl, hheld.active, .inr hheld.processing, rfl,
      fun h => h.publish_row harchived archivedAt⟩ rfl

theorem length_of_safeErrorLabel {value field label : String} {maxLength : ℕ}
    (h : safeErrorLabel value field maxLength = .ok label) : label.length ≤ maxLength := by
  unfold safeErrorLabel at h
  split_ifs at h with hblank hlong
  obtain rfl := Except.ok.inj h
  exact Nat.le_of_not_lt hlong

theorem written_fail {claim : ClaimedArchive} {errorCode errorType : String} {retryable : Bool}
    {retryAt now : ℤ} {recorded : Bool}
    (h : ArchiveTables.fail queue t claim errorCode errorType retryable retryAt now =
      .ok (t', recorded)) : Written queue t t' := by
  unfold ArchiveTables.fail at h
  obtain ⟨normalizedCode, hcode, h⟩ := bind_eq_ok.mp h
  obtain ⟨normalizedType, htype, h⟩ := bind_eq_ok.mp h
  have hcode := length_of_safeErrorLabel hcode
  have htype := length_of_safeErrorLabel htype
  cases hrow : t.heldRow claim with
  | none =>
    rw [hrow] at h
    exact .kept (Prod.mk.inj (Except.ok.inj h)).1.symm
  | some row =>
    have hheld := held_of_heldRow hrow
    rw [hrow] at h
    dsimp only at h
    split_ifs at h
    · obtain ⟨rfl, -⟩ := Prod.mk.inj (Except.ok.inj h)
      exact .returned retryAt ⟨hheld.found, rfl, hheld.active, .inr hheld.processing, rfl,
        fun h => h.retry_row retryAt now hcode htype⟩ rfl
    · obtain ⟨rfl, -⟩ := Prod.mk.inj (Except.ok.inj h)
      exact .ended now ⟨hheld.found, rfl, hheld.active, .inr hheld.processing, rfl,
        fun h => h.failed_row now hcode htype⟩ rfl rfl

theorem written_completeWakeupIfTerminal (queue : String) (t : ArchiveTables D) (assetId : ℕ)
    (now : ℤ) : Written queue t (ArchiveTables.completeWakeupIfTerminal queue t assetId now).1 := by
  unfold completeWakeupIfTerminal
  split_ifs with hended
  · obtain ⟨row, hrow, hended⟩ := (Option.any_eq_true _ _).mp hended
    exact .woken now hrow (by simpa using hended) rfl rfl
  · exact .kept rfl

theorem written_perform (queue : String) (t : ArchiveTables D) (call : ArchiveCall D)
    (hcall : ∀ assetId archived archivedAt, call.Publishes assetId archived archivedAt →
      ArchiveColumns.Checks archived) : Written queue t (t.perform queue call).1 := by
  cases call with
  | claim => exact written_claim ..
  | markReady claim assetId archived archivedAt =>
    have h := written_markReady queue t claim assetId (hcall _ _ _ ⟨rfl, rfl, rfl⟩) archivedAt
    dsimp only [perform]
    split <;> simp_all
  | fail =>
    dsimp only [perform]
    split
    · exact written_fail ‹_›
    · exact .kept rfl
  | completeWakeupIfTerminal => exact written_completeWakeupIfTerminal ..

end ArchiveTables

/-! ## Tables -/

section

variable {D : Type}

/-- Whether an asset needs no wake-up: it has ended, or it cannot be fetched. -/
def settled (row : ArchiveAssetRecord D) : Bool :=
  !(row.archiveState.isActive && row.sourceTelegramMessageId.isSome)

theorem settled_eq_false {row : ArchiveAssetRecord D} :
    settled row = false ↔ row.archiveState.isActive = true ∧ row.sourceTelegramMessageId.isSome := by
  simp [settled]

variable [ArchiveColumns D]

/-- An asset table and the wake-ups of its queue: the rows meet their checks, no two are the
archive of the same asset of a message, only an asset that can be fetched has left `pending` or
has a wake-up, and while it is active it has one that becomes due. -/
structure AssetTable.Sound (source : AssetSource) (table : AssetTable D)
    (wakeups : Dict (String × ℕ) DurableWakeupRecord) : Prop where
  keys : table.rows.keys.Nodup
  fresh : ∀ id ∈ table.rows.keys, id < table.nextId
  unique : table.rows.Unique fun row => some (row.messageId, row.sourceAssetId)
  checks : table.rows.All ArchiveAssetRecord.Checks
  absent : ∀ id, table.rows.lookup id = none → wakeups.lookup (source.queue, id) = none
  unfetched : ∀ id row, table.rows.lookup id = some row → row.sourceTelegramMessageId = none →
    row.archiveState = .pending ∧ wakeups.lookup (source.queue, id) = none
  woken : ∀ id, Woken settled (table.rows.lookup id) (wakeups.lookup (source.queue, id))

namespace AssetTable.Sound

variable {source : AssetSource} {table : AssetTable D}
  {wakeups wakeups' : Dict (String × ℕ) DurableWakeupRecord}

/-- Wake-ups of other queues do not matter. -/
theorem of_queue (h : table.Sound source wakeups)
    (hqueue : ∀ id, wakeups'.lookup (source.queue, id) = wakeups.lookup (source.queue, id)) :
    table.Sound source wakeups' where
  keys := h.keys
  fresh := h.fresh
  unique := h.unique
  checks := h.checks
  absent id hid := (hqueue id).trans (h.absent id hid)
  unfetched id row hrow hsource :=
    (h.unfetched id row hrow hsource).imp_right fun hnone => (hqueue id).trans hnone
  woken id := hqueue id ▸ h.woken id

theorem of_signal_none {fresh : ℕ} {o : Option DurableWakeupRecord}
    (h : Durable.Signal fresh none o) : o = none := by
  cases h
  rfl

/-- Neither does what the dispatcher does. -/
theorem signal (h : table.Sound source wakeups) {fresh : ℕ}
    (hsignal : ∀ key, Durable.Signal fresh (wakeups.lookup key) (wakeups'.lookup key)) :
    table.Sound source wakeups' where
  keys := h.keys
  fresh := h.fresh
  unique := h.unique
  checks := h.checks
  absent id hid := of_signal_none (h.absent id hid ▸ hsignal (source.queue, id))
  unfetched id row hrow hsource := by
    obtain ⟨hpending, hnone⟩ := h.unfetched id row hrow hsource
    exact ⟨hpending, of_signal_none (hnone ▸ hsignal (source.queue, id))⟩
  woken id := (h.woken id).signal (hsignal _)

/-- An asset that a call rewrites is not settled. -/
theorem settled_of_rewrites (h : table.Sound source wakeups) {t t' : ArchiveTables D}
    (ht : t.assets = table.rows) {id : ℕ} {row row' : ArchiveAssetRecord D}
    (hrewrites : t.Rewrites t' id row row') : settled row = false := by
  refine settled_eq_false.mpr ⟨hrewrites.active, ?_⟩
  rcases hrewrites.fetched with hfetched | hprocessing
  · exact hfetched
  · cases hsource : row.sourceTelegramMessageId with
    | some _ => rfl
    | none =>
      have hpending := (h.unfetched id row (ht ▸ hrewrites.found) hsource).1
      simp [hpending] at hprocessing

/-- One row is written, and at most its wake-up. -/
theorem put (h : table.Sound source wakeups) {table' : AssetTable D} {id : ℕ}
    {row' : ArchiveAssetRecord D} (hrows : table'.rows = table.rows.set id row')
    (hfresh : ∀ id' ∈ table'.rows.keys, id' < table'.nextId)
    (hunique : table'.rows.Unique fun row => some (row.messageId, row.sourceAssetId))
    (hchecks : row'.Checks)
    (hothers : ∀ id', id' ≠ id →
      wakeups'.lookup (source.queue, id') = wakeups.lookup (source.queue, id'))
    (hunfetched : row'.sourceTelegramMessageId = none →
      row'.archiveState = .pending ∧ wakeups'.lookup (source.queue, id) = none)
    (hwoken : Woken settled (some row') (wakeups'.lookup (source.queue, id))) :
    table'.Sound source wakeups' where
  keys := hrows ▸ Dict.nodup_keys_set h.keys
  fresh := hfresh
  unique := hunique
  checks := hrows ▸ h.checks.set hchecks
  absent id' hid' := by
    by_cases hid : id' = id
    · simp [hrows, hid] at hid'
    · rw [hrows, Dict.lookup_set_of_ne hid] at hid'
      exact (hothers id' hid).trans (h.absent id' hid')
  unfetched id' row hrow hsource := by
    rw [hrows] at hrow
    rcases Dict.of_lookup_set hrow with ⟨rfl, rfl⟩ | ⟨hid, hold⟩
    · exact hunfetched hsource
    · exact (h.unfetched id' row hold hsource).imp_right (hothers id' hid).trans
  woken id' := by
    rw [hrows]
    by_cases hid : id' = id
    · rw [hid, Dict.lookup_set_self]
      exact hwoken
    · rw [Dict.lookup_set_of_ne hid, hothers id' hid]
      exact h.woken id'

/-- A row that keeps its key in the table. -/
theorem put_kept (h : table.Sound source wakeups) {table' : AssetTable D} {id : ℕ}
    {row row' : ArchiveAssetRecord D} (hrow : table.rows.lookup id = some row)
    (hmessageId : row'.messageId = row.messageId) (hsourceAssetId : row'.sourceAssetId = row.sourceAssetId)
    (hrows : table'.rows = table.rows.set id row') (hnext : table'.nextId = table.nextId)
    (hchecks : row'.Checks)
    (hothers : ∀ id', id' ≠ id →
      wakeups'.lookup (source.queue, id') = wakeups.lookup (source.queue, id'))
    (hunfetched : row'.sourceTelegramMessageId = none →
      row'.archiveState = .pending ∧ wakeups'.lookup (source.queue, id) = none)
    (hwoken : Woken settled (some row') (wakeups'.lookup (source.queue, id))) :
    table'.Sound source wakeups' := by
  refine h.put hrows ?_ ?_ hchecks hothers hunfetched hwoken
  · intro id' hid'
    rw [hrows, Dict.mem_keys_set] at hid'
    rw [hnext]
    rcases hid' with rfl | hid'
    · exact h.fresh _ (Dict.mem_keys.mpr ⟨row, Dict.mem_of_lookup hrow⟩)
    · exact h.fresh _ hid'
  · rw [hrows]
    refine h.unique.set_of_lookup hrow fun i hi => ?_
    rwa [hmessageId, hsourceAssetId] at hi

/-- A call that rewrites an asset, and at most its wake-up. -/
theorem rewrites (h : table.Sound source wakeups) {t t' : ArchiveTables D}
    (ht : t.assets = table.rows) {id : ℕ} {row row' : ArchiveAssetRecord D}
    (hrewrites : t.Rewrites t' id row row')
    (hothers : ∀ key, key ≠ (source.queue, id) → wakeups'.lookup key = wakeups.lookup key)
    (hwork : settled row = false → Work settled (some row) (wakeups.lookup (source.queue, id))
      (some row') (wakeups'.lookup (source.queue, id))) :
    { table with rows := t'.assets }.Sound source wakeups' := by
  have hopen := h.settled_of_rewrites ht hrewrites
  have hrow : table.rows.lookup id = some row := ht ▸ hrewrites.found
  have hidentity := hrewrites.identity
  simp only [ArchiveAssetRecord.identity, Prod.mk.injEq] at hidentity
  refine h.put_kept hrow hidentity.1 hidentity.2.1 (ht ▸ hrewrites.assets) rfl
    (hrewrites.checks (h.checks.of_lookup hrow)) (fun _ hid => hothers _ (by simp [hid])) ?_
    ((h.woken id).work (hrow ▸ hwork hopen))
  intro hsource
  have hfetched := (settled_eq_false.mp hopen).2
  rw [← hidentity.2.2, hsource] at hfetched
  cases hfetched

/-- A call of the archive workers. -/
theorem written (h : table.Sound source wakeups) {t t' : ArchiveTables D}
    (ht : t.assets = table.rows) (hw : t.wakeups = wakeups)
    (hwritten : ArchiveTables.Written source.queue t t') :
    { table with rows := t'.assets }.Sound source t'.wakeups := by
  subst hw
  cases hwritten with
  | kept hkept =>
    subst hkept
    rw [ht]
    exact h
  | moved hrewrites hwakeups =>
    rw [hwakeups]
    exact h.rewrites ht hrewrites (fun _ _ => rfl) fun hopen => .changed hopen _
  | returned retryAt hrewrites hwakeups =>
    rw [hwakeups]
    exact h.rewrites ht hrewrites (fun _ => ArchiveTables.lookup_updateOpenWakeup_of_ne)
      fun hopen => .retried hopen (ArchiveTables.rescheduleOpenWakeup_cases _ _ _ _)
  | ended now hrewrites hwakeups hended =>
    rw [hwakeups]
    exact h.rewrites ht hrewrites (fun _ => ArchiveTables.lookup_updateOpenWakeup_of_ne)
      fun _ => .ended (by simp [settled, hended]) (ArchiveTables.setOpenWakeupTerminal_cases _ _ _ _)
  | @woken id row now hrow hended hassets hwakeups =>
    rw [hassets, hwakeups, ht]
    rw [ht] at hrow
    have hother : ∀ {id'}, id' ≠ id →
        (setOpenWakeupTerminal t.wakeups source.queue id now).lookup (source.queue, id') =
          t.wakeups.lookup (source.queue, id') :=
      fun hid => ArchiveTables.lookup_updateOpenWakeup_of_ne (by simp [hid])
    refine ⟨h.keys, h.fresh, h.unique, h.checks, ?_, ?_, ?_⟩
    · intro id' hid'
      have hid : id' ≠ id := by
        rintro rfl
        simp [hrow] at hid'
      exact (hother hid).trans (h.absent id' hid')
    · intro id' row' hrow' hsource
      have hpending := h.unfetched id' row' hrow' hsource
      have hid : id' ≠ id := by
        rintro rfl
        obtain rfl := Option.some.inj (hrow.symm.trans hrow')
        simp [hpending.1, ArchiveState.isActive] at hended
      exact hpending.imp_right (hother hid).trans
    · intro id'
      by_cases hid : id' = id
      · subst hid
        refine (h.woken id').work ?_
        rw [hrow]
        exact .ended (by simp [settled, hended])
          (ArchiveTables.setOpenWakeupTerminal_cases _ _ _ _)
      · rw [hother hid]
        exact h.woken id'

end AssetTable.Sound

end

end TgCurator
