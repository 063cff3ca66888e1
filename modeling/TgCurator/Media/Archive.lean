import TgCurator.Analysis.Common
import TgCurator.Processing.Wakeups

/-!
# The archive repositories

`SqlAlchemyImageArchiveWorkRepository` and `SqlAlchemyVideoArchiveWorkRepository` of
`infrastructure/database`. A worker leases an asset, publishes its objects outside of the
transaction, and marks the asset ready or records a failure. The two repositories are the
same but for their queue and for what a ready asset keeps, so that their methods are those
of `ArchiveTables` under a queue.

Each method is one transaction. An asset keeps the columns that some method reads or
writes, apart from `created_at` and `updated_at`, and the frames of a video are kept with
its row. Lease tokens are drawn from a counter, standing for `uuid4`.
-/

namespace TgCurator

/-! ## Errors -/

/-- An exception raised on the way to a ready asset. -/
inductive MediaError
  /-- `ValueError`: the message, with `%` for each interpolated operand. -/
  | valueError (message : String) (operands : List String)
  /-- `ArchiveStorageKeyError` -/
  | archiveStorageKey (message : String)
  /-- `ArchiveObjectConflictError` -/
  | archiveObjectConflict (message : String)
  /-- `FileNotFoundError` -/
  | fileNotFound
  /-- `ImageProcessingError` -/
  | imageProcessing (message : String)
  /-- `ImageArchiveMetadataPersistenceError` -/
  | imageArchiveMetadataPersistence (message : String)
  /-- `RuntimeError` -/
  | runtime (message : String)
  deriving DecidableEq

/-! ## Rows -/

/-- `archive_state`. -/
inductive ArchiveState
  | pending | processing | retryWait | ready | failed | deleted
  deriving DecidableEq

/-- The states that an asset can leave. -/
def ArchiveState.isActive : ArchiveState → Bool
  | pending | processing | retryWait => true
  | ready | failed | deleted => false

/-- A row of `messages`, with what an archive claim reads. -/
structure ArchiveMessageRecord where
  sourceChannelId : ℕ
  sourceDeletedAt : Option ℤ

/-- A row of `image_assets` or `video_assets`, with what it keeps of a ready archive. -/
structure ArchiveAssetRecord (D : Type) where
  messageId : ℕ
  sourceAssetId : String
  sourceTelegramMessageId : Option ℕ
  archiveState : ArchiveState
  archiveAttemptCount : ℕ
  archiveMaxAttempts : ℕ
  archiveNextRetryAt : Option ℤ
  archiveLeaseToken : Option ℕ
  archiveLeaseExpiresAt : Option ℤ
  archiveLastErrorCode : Option String
  archiveLastErrorType : Option String
  archiveLastFailureAt : Option ℤ
  archived : Option D
  archiveReadyAt : Option ℤ
  archiveDeletedAt : Option ℤ

/-- `ImageArchiveWorkItem` or `VideoArchiveWorkItem`. -/
structure ArchiveWorkItem where
  assetId : ℕ
  sourceChannelId : ℕ
  sourceTelegramMessageId : ℕ
  sourceAssetId : String
  sourceDeletedAt : Option ℤ
  deriving DecidableEq

/-- `ClaimedImageArchive` or `ClaimedVideoArchive`. -/
structure ClaimedArchive where
  workItem : ArchiveWorkItem
  leaseToken : ℕ
  deriving DecidableEq

/-- The tables. -/
structure ArchiveTables (D : Type) where
  messages : Dict ℕ ArchiveMessageRecord
  assets : Dict ℕ (ArchiveAssetRecord D)
  wakeups : Dict (String × ℕ) DurableWakeupRecord
  nextToken : ℕ

/-- `_safe_error_label`. -/
def safeErrorLabel (value field : String) (maxLength : ℕ) : Except MediaError String :=
  if isBlank value then .error (.valueError "% must not be blank" [field])
  else if maxLength < (strip value).length then
    .error (.valueError "% must be at most % characters" [field, toString maxLength])
  else .ok (strip value)

namespace ArchiveAssetRecord

variable {D : Type}

/-- An asset that is ingested. -/
def ingested (messageId : ℕ) (sourceAssetId : String) (sourceTelegramMessageId : Option ℕ)
    (archiveMaxAttempts : ℕ) : ArchiveAssetRecord D where
  messageId := messageId
  sourceAssetId := sourceAssetId
  sourceTelegramMessageId := sourceTelegramMessageId
  archiveState := .pending
  archiveAttemptCount := 0
  archiveMaxAttempts := archiveMaxAttempts
  archiveNextRetryAt := none
  archiveLeaseToken := none
  archiveLeaseExpiresAt := none
  archiveLastErrorCode := none
  archiveLastErrorType := none
  archiveLastFailureAt := none
  archived := none
  archiveReadyAt := none
  archiveDeletedAt := none

/-- Whether an asset may be claimed. -/
def due (row : ArchiveAssetRecord D) (now : ℤ) : Bool :=
  row.archiveState = .pending ||
    (row.archiveState = .retryWait && row.archiveNextRetryAt.any (· ≤ now)) ||
      (row.archiveState = .processing && row.archiveLeaseExpiresAt.any (· ≤ now))

/-- The row of a claim. -/
def lease (row : ArchiveAssetRecord D) (leaseToken : ℕ) (now leaseDuration : ℤ) :
    ArchiveAssetRecord D :=
  { row with
    archiveState := .processing
    archiveAttemptCount := row.archiveAttemptCount + 1
    archiveNextRetryAt := none
    archiveLeaseToken := some leaseToken
    archiveLeaseExpiresAt := some (now + leaseDuration) }

/-- `_terminalize_exhausted`. -/
def terminalizeExhausted (row : ArchiveAssetRecord D) (now : ℤ) : ArchiveAssetRecord D :=
  { row with
    archiveState := .failed
    archiveNextRetryAt := none
    archiveLeaseToken := none
    archiveLeaseExpiresAt := none
    archiveLastErrorCode := some "ARCHIVE_ATTEMPTS_EXHAUSTED"
    archiveLastErrorType := some "ArchiveAttemptsExhausted"
    archiveLastFailureAt := some now }

/-- The row of an asset that is marked ready. -/
def publish (row : ArchiveAssetRecord D) (archived : D) (archivedAt : ℤ) :
    ArchiveAssetRecord D :=
  { row with
    archiveState := .ready
    archiveNextRetryAt := none
    archiveLeaseToken := none
    archiveLeaseExpiresAt := none
    archiveLastErrorCode := none
    archiveLastErrorType := none
    archiveLastFailureAt := none
    archived := some archived
    archiveReadyAt := some archivedAt
    archiveDeletedAt := none }

/-- The row of a failure, with the state that it leads to. -/
def recordFailure (row : ArchiveAssetRecord D) (archiveState : ArchiveState)
    (archiveNextRetryAt : Option ℤ) (errorCode errorType : String) (now : ℤ) :
    ArchiveAssetRecord D :=
  { row with
    archiveState
    archiveNextRetryAt
    archiveLeaseToken := none
    archiveLeaseExpiresAt := none
    archiveLastErrorCode := some errorCode
    archiveLastErrorType := some errorType
    archiveLastFailureAt := some now }

end ArchiveAssetRecord

/-! ## Wake-ups -/

/-- Change the wake-up of an asset while it is pending or leased. -/
def updateOpenWakeup (wakeups : Dict (String × ℕ) DurableWakeupRecord) (queue : String)
    (entityId : ℕ) (change : DurableWakeupRecord → DurableWakeupRecord) :
    Dict (String × ℕ) DurableWakeupRecord :=
  match wakeups.lookup (queue, entityId) with
  | none => wakeups
  | some wakeup =>
    if wakeup.status.isOpen then wakeups.set (queue, entityId) (change wakeup) else wakeups

/-- `_reschedule_wakeup`. -/
def rescheduleOpenWakeup (wakeups : Dict (String × ℕ) DurableWakeupRecord) (queue : String)
    (entityId : ℕ) (retryAt : ℤ) : Dict (String × ℕ) DurableWakeupRecord :=
  updateOpenWakeup wakeups queue entityId fun wakeup =>
    { wakeup with
      status := .pending
      nextAttemptAt := retryAt
      leaseToken := none
      leaseExpiresAt := none
      completedAt := none }

/-- `_set_wakeup_terminal`. -/
def setOpenWakeupTerminal (wakeups : Dict (String × ℕ) DurableWakeupRecord) (queue : String)
    (entityId : ℕ) (now : ℤ) : Dict (String × ℕ) DurableWakeupRecord :=
  updateOpenWakeup wakeups queue entityId fun wakeup =>
    { wakeup with
      status := .completed
      leaseToken := none
      leaseExpiresAt := none
      completedAt := some now }

/-! ## Methods -/

namespace ArchiveTables

variable {D : Type}

/-- The claim statement: the due asset, its source message id and its message. -/
def claimRow (t : ArchiveTables D) (assetId : ℕ) (now : ℤ) :
    Option (ArchiveAssetRecord D × ℕ × ArchiveMessageRecord) := do
  let row ← (t.assets.lookup assetId).filter (·.due now)
  let sourceTelegramMessageId ← row.sourceTelegramMessageId
  let message ← t.messages.lookup row.messageId
  return (row, sourceTelegramMessageId, message)

/-- `claim`. -/
def claim (queue : String) (t : ArchiveTables D) (assetId : ℕ) (now leaseDuration : ℤ) :
    ArchiveTables D × Option ClaimedArchive :=
  match t.claimRow assetId now with
  | none => (t, none)
  | some (row, sourceTelegramMessageId, message) =>
    if row.archiveMaxAttempts ≤ row.archiveAttemptCount then
      ({ t with
        assets := t.assets.set assetId (row.terminalizeExhausted now)
        wakeups := setOpenWakeupTerminal t.wakeups queue assetId now }, none)
    else
      ({ t with
        assets := t.assets.set assetId (row.lease t.nextToken now leaseDuration)
        nextToken := t.nextToken + 1 },
        some
          { workItem :=
              { assetId
                sourceChannelId := message.sourceChannelId
                sourceTelegramMessageId
                sourceAssetId := row.sourceAssetId
                sourceDeletedAt := message.sourceDeletedAt }
            leaseToken := t.nextToken })

/-- The row of a claim that is still current. -/
def heldRow (t : ArchiveTables D) (claim : ClaimedArchive) : Option (ArchiveAssetRecord D) :=
  (t.assets.lookup claim.workItem.assetId).filter fun row =>
    row.archiveState = .processing && row.archiveLeaseToken = some claim.leaseToken

/-- `mark_ready`, with the asset that the metadata names and what the row keeps of them. -/
def markReady (t : ArchiveTables D) (claim : ClaimedArchive) (assetId : ℕ) (archived : D)
    (archivedAt : ℤ) : ArchiveTables D × Bool :=
  match (t.heldRow claim).filter fun _ => claim.workItem.assetId = assetId with
  | none => (t, false)
  | some row => ({ t with assets := t.assets.set assetId (row.publish archived archivedAt) }, true)

/-- `fail`. -/
def fail (queue : String) (t : ArchiveTables D) (claim : ClaimedArchive)
    (errorCode errorType : String) (retryable : Bool) (retryAt now : ℤ) :
    Except MediaError (ArchiveTables D × Bool) := do
  let normalizedCode ← safeErrorLabel errorCode "error_code" 64
  let normalizedType ← safeErrorLabel errorType "error_type" 128
  let assetId := claim.workItem.assetId
  match t.heldRow claim with
  | none => return (t, false)
  | some row =>
    if retryable && row.archiveAttemptCount < row.archiveMaxAttempts then
      return ({ t with
        assets := t.assets.set assetId
          (row.recordFailure .retryWait (some retryAt) normalizedCode normalizedType now)
        wakeups := rescheduleOpenWakeup t.wakeups queue assetId retryAt }, true)
    else
      return ({ t with
        assets := t.assets.set assetId
          (row.recordFailure .failed none normalizedCode normalizedType now)
        wakeups := setOpenWakeupTerminal t.wakeups queue assetId now }, true)

/-- `complete_wakeup_if_terminal`. -/
def completeWakeupIfTerminal (queue : String) (t : ArchiveTables D) (assetId : ℕ) (now : ℤ) :
    ArchiveTables D × Bool :=
  if (t.assets.lookup assetId).any (!·.archiveState.isActive) then
    ({ t with wakeups := setOpenWakeupTerminal t.wakeups queue assetId now },
      (t.wakeups.lookup (queue, assetId)).any (·.status.isOpen))
  else (t, false)

end ArchiveTables

/-! ## Images -/

/-- `IMAGE_ARCHIVE_QUEUE`. -/
def imageArchiveQueue : String :=
  "image_archive"

/-- The columns of a ready image. -/
structure ImageArchive where
  storageBackend : String
  storageKey : String
  contentType : String
  width : ℕ
  height : ℕ
  sourceSha256 : String
  archiveSha256 : String
  perceptualHash : String
  archiveSizeBytes : ℕ
  deriving DecidableEq

/-- `ImageArchiveReadyMetadata`. -/
structure ImageArchiveReadyMetadata where
  imageAssetId : ℕ
  archive : ImageArchive
  archivedAt : ℤ

/-- The tables of the images. -/
abbrev ImageArchiveTables :=
  ArchiveTables ImageArchive

namespace ImageArchiveTables

/-- `SqlAlchemyImageArchiveWorkRepository.claim`. -/
def claim (t : ImageArchiveTables) (imageAssetId : ℕ) (now leaseDuration : ℤ) :
    ImageArchiveTables × Option ClaimedArchive :=
  ArchiveTables.claim imageArchiveQueue t imageAssetId now leaseDuration

/-- `SqlAlchemyImageArchiveWorkRepository.mark_ready`. -/
def markReady (t : ImageArchiveTables) (claim : ClaimedArchive)
    (metadata : ImageArchiveReadyMetadata) : ImageArchiveTables × Bool :=
  ArchiveTables.markReady t claim metadata.imageAssetId metadata.archive metadata.archivedAt

/-- `SqlAlchemyImageArchiveWorkRepository.fail`. -/
def fail (t : ImageArchiveTables) (claim : ClaimedArchive) (errorCode errorType : String)
    (retryable : Bool) (retryAt now : ℤ) : Except MediaError (ImageArchiveTables × Bool) :=
  ArchiveTables.fail imageArchiveQueue t claim errorCode errorType retryable retryAt now

/-- `SqlAlchemyImageArchiveWorkRepository.complete_wakeup_if_terminal`. -/
def completeWakeupIfTerminal (t : ImageArchiveTables) (imageAssetId : ℕ) (now : ℤ) :
    ImageArchiveTables × Bool :=
  ArchiveTables.completeWakeupIfTerminal imageArchiveQueue t imageAssetId now

end ImageArchiveTables

/-! ## Videos -/

/-- `VIDEO_ARCHIVE_QUEUE`. -/
def videoArchiveQueue : String :=
  "video_archive"

/-- `VideoProbeMetadata`. -/
structure VideoProbeMetadata where
  durationSeconds : Number
  width : Option ℕ
  height : Option ℕ
  contentType : Option String
  deriving DecidableEq

/-- A row of `video_frames`. -/
structure VideoFrameRecord where
  frameRole : String
  frameIndex : ℕ
  timestampSeconds : Number
  storageBackend : String
  storageKey : String
  contentType : String
  width : ℕ
  height : ℕ
  sourceSha256 : String
  archiveSha256 : String
  perceptualHash : String
  archiveSizeBytes : ℕ
  deriving DecidableEq

/-- The columns of a ready video, and its frames. -/
structure VideoArchive where
  sourceContentType : Option String
  sourceSizeBytes : ℕ
  sourceSha256 : String
  probe : VideoProbeMetadata
  frames : List VideoFrameRecord
  deriving DecidableEq

/-- `VideoArchiveReadyMetadata`. -/
structure VideoArchiveReadyMetadata where
  videoAssetId : ℕ
  archive : VideoArchive
  archivedAt : ℤ

/-- The tables of the videos. -/
abbrev VideoArchiveTables :=
  ArchiveTables VideoArchive

namespace VideoArchiveTables

/-- `SqlAlchemyVideoArchiveWorkRepository.claim`. -/
def claim (t : VideoArchiveTables) (videoAssetId : ℕ) (now leaseDuration : ℤ) :
    VideoArchiveTables × Option ClaimedArchive :=
  ArchiveTables.claim videoArchiveQueue t videoAssetId now leaseDuration

/-- `SqlAlchemyVideoArchiveWorkRepository.mark_ready`: the frames of the metadata replace
those of the asset. -/
def markReady (t : VideoArchiveTables) (claim : ClaimedArchive)
    (metadata : VideoArchiveReadyMetadata) : VideoArchiveTables × Bool :=
  ArchiveTables.markReady t claim metadata.videoAssetId metadata.archive metadata.archivedAt

/-- `SqlAlchemyVideoArchiveWorkRepository.fail`. -/
def fail (t : VideoArchiveTables) (claim : ClaimedArchive) (errorCode errorType : String)
    (retryable : Bool) (retryAt now : ℤ) : Except MediaError (VideoArchiveTables × Bool) :=
  ArchiveTables.fail videoArchiveQueue t claim errorCode errorType retryable retryAt now

/-- `SqlAlchemyVideoArchiveWorkRepository.complete_wakeup_if_terminal`. -/
def completeWakeupIfTerminal (t : VideoArchiveTables) (videoAssetId : ℕ) (now : ℤ) :
    VideoArchiveTables × Bool :=
  ArchiveTables.completeWakeupIfTerminal videoArchiveQueue t videoAssetId now

end VideoArchiveTables

end TgCurator
