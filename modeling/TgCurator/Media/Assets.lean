import TgCurator.Media.Workers
import TgCurator.Messages.Lifecycle
import TgCurator.Processing.Dispatch

/-!
# The assets that ingestion makes

`synchronize_archive_assets` of `infrastructure/database/message_ingest_repository.py`: the
transaction that stores a message, or an edit of one of its parts, also writes a row for each of
its images and videos, and a wake-up for each that is to be archived. The two tables are written
alike, but for the kind of the asset, the queue and the hash column (`AssetSource`).

The whole store is the message store with the two asset tables, the archive repositories and the
dispatcher on the same database (`AssetStore`).
-/

namespace TgCurator

/-! ## Asset tables -/

/-- A table of assets: its rows, their `source_phash` or `source_cover_phash`, and the counter
that row ids are drawn from, standing for `uuid4`. -/
structure AssetTable (D : Type) where
  rows : Dict ℕ (ArchiveAssetRecord D) := []
  sourceHash : Dict ℕ (Option String) := []
  nextId : ℕ := 0

/-- What the statements of the two tables differ in. -/
structure AssetSource where
  kind : MediaKind
  queue : String
  sourceHash : MediaAsset → Option String

/-- `_upsert_image_assets` -/
def imageSource : AssetSource :=
  ⟨.image, imageArchiveQueue, (·.originalVisualPhash)⟩

/-- `_upsert_video_assets` -/
def videoSource : AssetSource :=
  ⟨.video, videoArchiveQueue, (·.videoCoverPhash)⟩

/-- Whether a `String(n)` column holds a text. -/
def holdsText (n : ℕ) (text : String) : Bool :=
  text.length ≤ n && !text.toList.contains '\x00'

/-- Whether the columns `source_asset_id`, `source_telegram_message_id` and `source_phash` or
`source_cover_phash` hold those of an asset. -/
def AssetSource.fits (source : AssetSource) (asset : MediaAsset) : Bool :=
  holdsText 512 asset.assetId && asset.sourceTelegramMessageId.all (· < 2 ^ 63) &&
    (source.sourceHash asset).all (holdsText 128)

/-- The default of `archive_max_attempts`. -/
def archiveMaxAttempts : ℕ :=
  5

namespace AssetTable

variable {D : Type} (source : AssetSource)

/-- The row under `uq_image_asset_message_source` or `uq_video_asset_message_source`. -/
def find (table : AssetTable D) (messageId : ℕ) (sourceAssetId : String) :
    Option (ℕ × ArchiveAssetRecord D) :=
  table.rows.find? fun e => e.2.messageId = messageId && e.2.sourceAssetId = sourceAssetId

/-- The upsert statement, for one asset. -/
def upsertAsset (messageId : ℕ) (table : AssetTable D) (asset : MediaAsset) : AssetTable D :=
  match table.find messageId asset.assetId with
  | some (id, row) =>
    { table with
      rows := table.rows.set id
        { row with
          sourceTelegramMessageId :=
            asset.sourceTelegramMessageId <|> row.sourceTelegramMessageId }
      sourceHash := table.sourceHash.set id
        (source.sourceHash asset <|> (table.sourceHash.lookup id).getD none) }
  | none =>
    { rows := table.rows.set table.nextId
        (.ingested messageId asset.assetId asset.sourceTelegramMessageId archiveMaxAttempts)
      sourceHash := table.sourceHash.set table.nextId (source.sourceHash asset)
      nextId := table.nextId + 1 }

/-- The assets of a message that the table keeps. -/
def assetsOf (media : List MediaAsset) : List MediaAsset :=
  media.filter (·.kind = source.kind)

/-- `image_assets_upsert_statement` and `video_assets_upsert_statement`. PostgreSQL refuses
a value that its column does not hold, and a statement that would write a row twice. -/
def assetsUpsert (table : AssetTable D) (messageId : ℕ) (media : List MediaAsset) :
    Except PyError (AssetTable D) :=
  if !(assetsOf source media).all source.fits then .error .dataError
  else if ((assetsOf source media).map (·.assetId)).Nodup then
    .ok ((assetsOf source media).foldl (upsertAsset source messageId) table)
  else .error .integrityError

/-- The select of the assets to be archived: those of the message that are pending and can
be fetched. -/
def pendingIds (table : AssetTable D) (messageId : ℕ) (media : List MediaAsset) : List ℕ :=
  (table.rows.filter fun e =>
    e.2.messageId = messageId &&
      e.2.sourceAssetId ∈ (assetsOf source media).map (·.assetId) &&
        e.2.sourceTelegramMessageId.isSome && e.2.archiveState = .pending).map (·.1)

end AssetTable

/-- `archive_wakeups_insert_statement`, executed at `now`. -/
def archiveWakeupsInsert (queue : String) (entityIds : List ℕ) (now : ℤ)
    (wakeups : Dict (String × ℕ) DurableWakeupRecord) : Dict (String × ℕ) DurableWakeupRecord :=
  entityIds.foldl (fun wakeups id => wakeups.setDefault (queue, id) (newWakeup now)) wakeups

/-- `_upsert_image_assets` and `_upsert_video_assets`. -/
def AssetTable.synchronize {D : Type} (source : AssetSource) (table : AssetTable D)
    (wakeups : Dict (String × ℕ) DurableWakeupRecord) (messageId : ℕ) (media : List MediaAsset)
    (now : ℤ) : Except PyError (AssetTable D × Dict (String × ℕ) DurableWakeupRecord) := do
  let table ← table.assetsUpsert source messageId media
  return (table,
    archiveWakeupsInsert source.queue (table.pendingIds source messageId media) now wakeups)

/-! ## The store -/

/-- The message store, the asset tables, and the wake-ups with the counter of tokens. -/
structure AssetStore extends SourceStore where
  images : AssetTable ImageArchive := {}
  videos : AssetTable VideoArchive := {}
  durable : Durable := ⟨[], 0⟩

namespace AssetStore

variable (sha256 : String → String)

/-- `synchronize_archive_assets`. -/
def synchronizeArchiveAssets (s : AssetStore) (messageId : ℕ)
    (message : NormalizedTelegramMessage) (now : ℤ) : Except PyError AssetStore := do
  let (images, wakeups) ←
    s.images.synchronize imageSource s.durable.wakeups messageId message.media now
  let (videos, wakeups) ← s.videos.synchronize videoSource wakeups messageId message.media now
  return { s with images, videos, durable := { s.durable with wakeups } }

/-- `upsert_message`: the message store, then the assets of the parent as it is recomputed. -/
def upsertMessage (s : AssetStore) (m : NormalizedTelegramMessage) (now : ℤ) :
    Except PyError AssetStore := do
  let (_, messageId) := s.messageUpsert sha256 m
  let source ← s.toSourceStore.upsertMessage sha256 m
  let recomputed ← normalizedFromParts m.sourceChannelId m.telegramGroupedId
    (retainedParts source.parts messageId)
  { s with toSourceStore := source }.synchronizeArchiveAssets messageId recomputed now

/-- `record_edit`. -/
def recordEdit (s : AssetStore) (edit : SourceEdit) (now : ℤ) : Except PyError AssetStore := do
  let (source, recorded) ← s.toSourceStore.recordEdit sha256 edit
  match s.sourceMessageWithComponent edit.sourceChannelId edit.telegramMessageId with
  | none => return s
  | some (row, parent) =>
    if recorded then
      let recomputed ← normalizedFromParts edit.sourceChannelId parent.telegramGroupedId
        (retainedParts source.parts row.messageId)
      { s with toSourceStore := source }.synchronizeArchiveAssets row.messageId recomputed now
    else return s

/-- The rows of `messages` that an archive claim reads. -/
def archiveMessages (s : AssetStore) : Dict ℕ ArchiveMessageRecord :=
  s.messages.mapValues fun id row => ⟨row.sourceChannelId, (s.lifecycleOf id).sourceDeletedAt⟩

/-- The tables of an archive repository. -/
def archiveTables {D : Type} (s : AssetStore) (table : AssetTable D) : ArchiveTables D :=
  ⟨s.archiveMessages, table.rows, s.durable.wakeups, s.durable.nextToken⟩

end AssetStore

/-- What a call publishes. -/
def ArchiveCall.Publishes {D : Type} (assetId : ℕ) (archived : D) (archivedAt : ℤ) :
    ArchiveCall D → Prop
  | .markReady _ assetId' archived' archivedAt' =>
    assetId' = assetId ∧ archived' = archived ∧ archivedAt' = archivedAt
  | _ => False

/-- The calls on the store: those that change stored messages, those of the archive workers, whose
metadata passed their checks, and those of the dispatcher. -/
inductive AssetStoreCall
  | message (call : LifecycleCall) (now : ℤ)
  | image (call : ArchiveCall ImageArchive)
    (checked : ∀ imageAssetId archive archivedAt, call.Publishes imageAssetId archive archivedAt →
      (ImageArchiveReadyMetadata.mk imageAssetId archive archivedAt).postInit = .ok ())
  | video (call : ArchiveCall VideoArchive)
    (checked : ∀ videoAssetId archive archivedAt, call.Publishes videoAssetId archive archivedAt →
      archive.probe.postInit = .ok () ∧
        (VideoArchiveReadyMetadata.mk videoAssetId archive archivedAt).postInit = .ok ())
  | claimDue (now leaseDuration : ℤ) (limit : ℕ)
  | acknowledgeDispatch (queue : String) (entityId leaseToken : ℕ) (now repairAfter : ℤ)
  | rescheduleAfterFailure (queue : String) (entityId leaseToken : ℕ) (retryAfter : ℤ)

/-- Whether the table that keeps an asset holds it. -/
def MediaAsset.fitsColumns (asset : MediaAsset) : Bool :=
  [imageSource, videoSource].all fun source => asset.kind ≠ source.kind || source.fits asset

/-- Whether the asset tables hold the media that a call brings. -/
def AssetStoreCall.mediaFit : AssetStoreCall → Bool
  | message (.upsert m _) _ => m.parts.all fun part => part.media.all (·.fitsColumns)
  | message (.edit edit) _ => edit.media.all (·.fitsColumns)
  | _ => true

/-- The call on the message store that a call makes. -/
def AssetStoreCall.lifecycleCall : AssetStoreCall → Option LifecycleCall
  | message call _ => some call
  | _ => none

/-- What a call leaves: an exception rolls its transaction back. -/
def AssetStore.apply (sha256 : String → String) (idLE : String × ℕ → String × ℕ → Bool)
    (s : AssetStore) : AssetStoreCall → AssetStore
  | .message (.edit edit) now =>
    match s.recordEdit sha256 edit now with
    | .ok s' => s'
    | .error _ => s
  | .message (.deletion sourceChannelId telegramMessageId deletedAt) _ =>
    { s with toSourceStore :=
        (s.toSourceStore.recordDeletion sourceChannelId telegramMessageId deletedAt).1 }
  | .message (.upsert m _) now =>
    match s.upsertMessage sha256 m now with
    | .ok s' => s'
    | .error _ => s
  | .image call _ =>
    let t := ((s.archiveTables s.images).perform imageArchiveQueue call).1
    { s with
      images := { s.images with rows := t.assets }, durable := ⟨t.wakeups, t.nextToken⟩ }
  | .video call _ =>
    let t := ((s.archiveTables s.videos).perform videoArchiveQueue call).1
    { s with
      videos := { s.videos with rows := t.assets }, durable := ⟨t.wakeups, t.nextToken⟩ }
  | .claimDue now leaseDuration limit =>
    { s with durable := (s.durable.claimDue idLE now leaseDuration limit).1 }
  | .acknowledgeDispatch queue entityId leaseToken now repairAfter =>
    { s with
      durable := (s.durable.acknowledgeDispatch queue entityId leaseToken now repairAfter).1 }
  | .rescheduleAfterFailure queue entityId leaseToken retryAfter =>
    { s with
      durable := (s.durable.rescheduleAfterFailure queue entityId leaseToken retryAfter).1 }

end TgCurator
