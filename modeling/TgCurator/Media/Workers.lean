import TgCurator.Media.Services

/-!
# The archive workers

`ImageArchiveWorker` and `VideoArchiveWorker` of `application/media`, with `LocalArchiveStorage`,
`PillowImageProcessor` and the services they use, as programs of calls. The two workers are the
same but for what they archive.

Identifiers are numbers, written by `uuidText`; `sha256` gives a hexadecimal digest. Times are in
seconds.
-/

namespace TgCurator

open Processes

/-- A program of an archive worker. -/
abbrev ArchiveProgram (α : Type) :=
  Program ServiceCall (fun c => c.Answer) ArchiveError α

namespace ArchiveProgram

/-- A call of a service. -/
def call (c : ServiceCall) : ArchiveProgram c.Answer :=
  Program.request c

/-- A check or a constructor. -/
def check {α : Type} (x : Except SamplingError α) : ArchiveProgram α :=
  Program.compute (x.mapError .raised)

/-- A check of the domain. -/
def checkDomain {α : Type} (x : Except PyError α) : ArchiveProgram α :=
  check (x.mapError .domain)

/-- `raise`, of an error of the storage or of the metadata. -/
def raise {α : Type} (error : MediaError) : ArchiveProgram α :=
  throw (.media error)

end ArchiveProgram

open ArchiveProgram
open Program (attempt compute forEach)

/-! ## Storage keys -/

/-- The parts of `PurePosixPath(key)` below its root. -/
def posixParts (key : String) : ArchivePath :=
  ((key.toList.splitOn '/').filter fun part => part ≠ [] && part ≠ ['.']).map String.ofList

/-- `PurePosixPath(key).is_absolute()`. -/
def isAbsolutePath (key : String) : Bool :=
  key.toList.head? = some '/'

/-- Whether a part is a step to the parent. -/
def hasTraversal (key : String) : Bool :=
  (posixParts key).contains ".."

/-- Whether a part has a colon. -/
def hasDrive (key : String) : Bool :=
  (posixParts key).any (·.toList.contains ':')

/-- Whether a key has a backslash. -/
def hasBackslash (key : String) : Bool :=
  key.toList.contains '\\'

/-- `LocalArchiveStorage._target_for`, below the root. -/
def targetFor (key : String) : Except ArchiveError ArchivePath :=
  if isBlank key then .error (.media (.archiveStorageKey "archive key must not be blank"))
  else if hasBackslash key then
    .error (.media (.archiveStorageKey "archive key must use relative POSIX separators"))
  else if isAbsolutePath key || (posixParts key).isEmpty then
    .error (.media (.archiveStorageKey "archive key must be a non-empty relative path"))
  else if hasTraversal key then
    .error (.media (.archiveStorageKey "archive key must not contain traversal components"))
  else if hasDrive key then
    .error (.media (.archiveStorageKey "archive key must not contain a drive designator"))
  else .ok (posixParts key)

/-- `_validate_storage_location`. -/
def validateStorageLocation (storageBackend storageKey : String) : Except SamplingError Unit := do
  ensureValue (!isBlank storageBackend) "storage_backend must not be blank"
  ensureValue (!(isBlank storageKey || hasBackslash storageKey || isAbsolutePath storageKey ||
      (posixParts storageKey).isEmpty || hasTraversal storageKey || hasDrive storageKey))
    "storage_key must be a safe relative POSIX key"

/-! ## `LocalArchiveStorage` -/

namespace LocalArchiveStorage

/-- `_existing_size_or_conflict`. -/
def existingSizeOrConflict (target : ArchivePath) (content : List UInt8) : ArchiveProgram ℕ := do
  call (.requireRegularFile target)
  let existing ← call (.readBytes target)
  if existing = content then return existing.length
  else raise (.archiveObjectConflict "archive key already exists with different bytes")

/-- The `try` block of `_put_sync`. -/
def publish (target : ArchivePath) (content : List UInt8) : ArchiveProgram ℕ := do
  call (.writeTemporary content)
  if ← call (.link content target) then
    call (.syncDirectory target.dropLast)
    return content.length
  else existingSizeOrConflict target content

/-- `_put_sync`. -/
def putSync (key : String) (content : List UInt8) : ArchiveProgram ℕ := do
  let target ← compute (targetFor key)
  call (.makeDirectory target.dropLast)
  if ← call (.fileExists target) then existingSizeOrConflict target content
  else
    call (.makeTemporary target.dropLast)
    let published ← attempt (publish target content)
    call .removeTemporary
    compute published

/-- `put`. -/
def put (key : String) (content : List UInt8) (contentType : String) : ArchiveProgram ℕ := do
  check (ensureValue (!isBlank contentType) "content_type must not be blank")
  putSync key content

/-- `size`. -/
def size (key : String) : ArchiveProgram ℕ := do
  let target ← compute (targetFor key)
  call (.requireRegularFile target)
  call (.fileSize target)

end LocalArchiveStorage

/-! ## Images and frames -/

/-- `NormalizedImageArtifact(…)`. -/
def NormalizedImageArtifactFields.create (fields : NormalizedImageArtifactFields) :
    Except SamplingError NormalizedImageArtifact :=
  match h : fields.postInit with
  | .ok () => .ok ⟨fields, h⟩
  | .error e => .error e

variable (sha256 : List UInt8 → String) (uuidText : ℕ → String)

/-- The artifact of an image as it is encoded. -/
def EncodedImage.artifactFields (encoded : EncodedImage) (content : List UInt8) :
    NormalizedImageArtifactFields where
  content := encoded.content
  contentType := "image/webp"
  width := encoded.width
  height := encoded.height
  sourceSha256 := sha256 content
  archiveSha256 := sha256 encoded.content
  perceptualHash := encoded.perceptualHash

/-- `PillowImageProcessor.normalize`. -/
def normalizeImage (content : List UInt8) (profile : ImageNormalizationProfile) :
    ArchiveProgram NormalizedImageArtifact :=
  if content.isEmpty then raise (.imageProcessing "source image content must not be empty")
  else do
    let encoded ← call (.encode content profile)
    check (encoded.artifactFields sha256 content).create

/-- `ImageArchiveService.normalize_and_archive`. -/
def normalizeAndArchive (content : List UInt8) (storageKey : String)
    (profile : ImageNormalizationProfile) : ArchiveProgram NormalizedImageArtifact := do
  let artifact ← normalizeImage sha256 content profile
  let _ ← LocalArchiveStorage.put storageKey artifact.content artifact.contentType
  return artifact

/-- The evidence of one candidate time, in `VideoFrameSamplingService.sample`. -/
def sampleFrame (content : List UInt8) (imageProfile : ImageNormalizationProfile)
    (timestampSeconds : ℚ) : ArchiveProgram VideoFrameEvidence := do
  let frameContent ← call (.extractFrame content timestampSeconds)
  if frameContent.isEmpty then
    raise (.runtime "video frame extractor returned empty frame content")
  else
    let artifact ← normalizeImage sha256 frameContent imageProfile
    check (VideoFrameEvidenceFields.create { timestampSeconds, artifact })

/-- `VideoFrameSamplingService.sample`, of a video whose duration is known. -/
def sampleFrames (content : List UInt8) (samplingProfile : VideoSamplingProfile)
    (imageProfile : ImageNormalizationProfile) (durationSeconds : ℚ) :
    ArchiveProgram VideoSamplingResult := do
  checkDomain (ensure (!content.isEmpty) "video content must not be empty")
  checkDomain (validateDuration durationSeconds)
  let timestamps ← checkDomain (candidateTimestamps durationSeconds samplingProfile)
  let evidence ← forEach (sampleFrame sha256 content imageProfile) timestamps
  let cover := coverOf samplingProfile evidence
  let representativeFrames ←
    checkDomain (selectRepresentativeFrames evidence samplingProfile cover)
  check (VideoSamplingResultFields.create { durationSeconds, cover, representativeFrames })

/-! ## Metadata -/

/-- The check of a hexadecimal field of the metadata. -/
def ensureHexField (field value : String) (expectedLength : ℕ) : Except SamplingError Unit :=
  ensureValue (value.length = expectedLength && value.toList.all isLowerHex)
    "% must be % lowercase hexadecimal characters" [field, toString expectedLength]

/-- `ImageArchiveReadyMetadata.__post_init__`. -/
def ImageArchiveReadyMetadata.postInit (metadata : ImageArchiveReadyMetadata) :
    Except SamplingError Unit := do
  validateStorageLocation metadata.archive.storageBackend metadata.archive.storageKey
  ensureValue (metadata.archive.contentType = "image/webp") "archived images must use image/webp"
  ensureValue (0 < metadata.archive.width && 0 < metadata.archive.height &&
    0 < metadata.archive.archiveSizeBytes)
    "image dimensions and archive_size_bytes must be positive"
  ensureHexField "source_sha256" metadata.archive.sourceSha256 64
  ensureHexField "archive_sha256" metadata.archive.archiveSha256 64
  ensureHexField "perceptual_hash" metadata.archive.perceptualHash 16

/-- `ImageArchiveReadyMetadata.from_artifact`. -/
def ImageArchiveReadyMetadata.fromArtifact (imageAssetId : ℕ) (storageBackend storageKey : String)
    (artifact : NormalizedImageArtifact) (archiveSizeBytes : ℕ) (archivedAt : ℤ) :
    Except SamplingError ImageArchiveReadyMetadata := do
  let metadata : ImageArchiveReadyMetadata :=
    { imageAssetId
      archive :=
        { storageBackend
          storageKey
          contentType := artifact.contentType
          width := artifact.width
          height := artifact.height
          sourceSha256 := artifact.sourceSha256
          archiveSha256 := artifact.archiveSha256
          perceptualHash := artifact.perceptualHash
          archiveSizeBytes }
      archivedAt }
  metadata.postInit
  return metadata

/-- `VideoProbeMetadata.__post_init__`. -/
def VideoProbeMetadata.postInit (probe : VideoProbeMetadata) : Except SamplingError Unit := do
  ensureValue (probe.durationSeconds.isFinite && (Number.int 0).lt probe.durationSeconds)
    "duration_seconds must be a finite positive number"
  ensureValue (probe.width.all (0 < ·)) "% must be a positive integer when present" ["width"]
  ensureValue (probe.height.all (0 < ·)) "% must be a positive integer when present" ["height"]
  ensureValue (probe.contentType.all (!isBlank ·)) "content_type must not be blank when present"

/-- `VideoFrameReadyMetadata`. -/
structure VideoFrameReadyMetadata where
  frameRole : String
  frameIndex : ℕ
  timestampSeconds : ℚ
  storageBackend : String
  storageKey : String
  artifact : NormalizedImageArtifact
  archiveSizeBytes : ℕ

/-- `VideoFrameReadyMetadata.__post_init__`. -/
def VideoFrameReadyMetadata.postInit (frame : VideoFrameReadyMetadata) :
    Except SamplingError Unit := do
  ensureValue (frame.frameRole = "cover" || frame.frameRole = "representative")
    "frame_role must be cover or representative"
  ensureValue (!(frame.frameRole = "cover" && frame.frameIndex ≠ 0))
    "frame_index is invalid for frame_role"
  ensureValue (0 ≤ frame.timestampSeconds) "timestamp_seconds must be finite and non-negative"
  validateStorageLocation frame.storageBackend frame.storageKey
  ensureValue (0 < frame.archiveSizeBytes &&
    frame.archiveSizeBytes = frame.artifact.content.length)
    "archive_size_bytes must match non-empty artifact content"

/-- The row of a frame, in `SqlAlchemyVideoArchiveWorkRepository.mark_ready`. -/
def VideoFrameReadyMetadata.record (frame : VideoFrameReadyMetadata) : VideoFrameRecord where
  frameRole := frame.frameRole
  frameIndex := frame.frameIndex
  timestampSeconds := .float frame.timestampSeconds
  storageBackend := frame.storageBackend
  storageKey := frame.storageKey
  contentType := frame.artifact.contentType
  width := frame.artifact.width
  height := frame.artifact.height
  sourceSha256 := frame.artifact.sourceSha256
  archiveSha256 := frame.artifact.archiveSha256
  perceptualHash := frame.artifact.perceptualHash
  archiveSizeBytes := frame.archiveSizeBytes

/-- `VideoArchiveReadyMetadata.__post_init__`. -/
def VideoArchiveReadyMetadata.postInit (metadata : VideoArchiveReadyMetadata) :
    Except SamplingError Unit := do
  ensureValue (metadata.archive.sourceContentType.all (!isBlank ·))
    "source_content_type must not be blank when present"
  ensureValue (0 < metadata.archive.sourceSizeBytes) "source_size_bytes must be positive"
  ensureHexField "source_sha256" metadata.archive.sourceSha256 64
  ensureValue (!metadata.archive.frames.isEmpty) "frames must be a non-empty tuple"
  ensureValue (metadata.archive.frames.map fun frame => (frame.frameRole, frame.frameIndex)).Nodup
    "frame role/index identities must be unique"

/-! ## The workers -/

/-- The configuration that both workers have. -/
structure ArchiveWorkerFields where
  storageBackend : String
  storageKeyPrefix : String
  leaseDuration : ℤ := 300
  failureRetryDelay : ℤ := 60

namespace ArchiveWorkerFields

/-- `__post_init__`. -/
def postInit (worker : ArchiveWorkerFields) : Except SamplingError Unit := do
  (ensure (0 < worker.leaseDuration) "% must be a positive duration" ["lease_duration"]).mapError
    .domain
  (ensure (0 < worker.failureRetryDelay) "% must be a positive duration"
    ["failure_retry_delay"]).mapError .domain
  ensureValue (!isBlank worker.storageBackend) "storage_backend must not be blank"
  ensureValue (!(isBlank worker.storageKeyPrefix || hasBackslash worker.storageKeyPrefix ||
      isAbsolutePath worker.storageKeyPrefix || hasTraversal worker.storageKeyPrefix))
    "storage_key_prefix must be a safe relative POSIX path"

variable {D : Type} (worker : ArchiveWorkerFields)
  (transaction : (call : ArchiveCall D) → ArchiveProgram call.Answer)

/-- `_fail`. -/
def fail (claim : ClaimedArchive) (errorCode errorType : String) (retryable : Bool) (now : ℤ) :
    ArchiveProgram Bool :=
  transaction
    (.fail claim errorCode errorType retryable (now + worker.failureRetryDelay) now)

/-- `TelegramMediaDownloadRequest.__post_init__`, and the download. -/
def download (claim : ClaimedArchive) : ArchiveProgram (List UInt8) := do
  check (ensureValue (0 < claim.workItem.sourceTelegramMessageId)
    "telegram_message_id must be a positive integer")
  check (ensureValue (!isBlank claim.workItem.sourceAssetId) "source_asset_id must not be blank")
  call (.download claim.workItem)

/-- `process`, of the repository, of what is archived and of the error that is recorded if it is
not. -/
def process (archive : ClaimedArchive → List UInt8 → ArchiveProgram Unit)
    (errorCode errorType : String) (assetId : ℕ) (now : ℤ) : ArchiveProgram Bool := do
  match ← transaction (.claim assetId now worker.leaseDuration) with
  | none =>
    let _ ← transaction (.completeWakeupIfTerminal assetId now)
    return false
  | some claim =>
    if claim.workItem.sourceDeletedAt.isSome then
      worker.fail transaction claim "SOURCE_MESSAGE_DELETED" "SourceMessageDeleted" false now
    else
      match ← attempt (download claim) with
      | .error .telegramProtectedContent =>
        worker.fail transaction claim "TELEGRAM_PROTECTED_CONTENT" "TelegramProtectedContent"
          false now
      | .error .telegramMediaUnavailable =>
        worker.fail transaction claim "TELEGRAM_MEDIA_UNAVAILABLE" "TelegramMediaUnavailable"
          false now
      | .error _ =>
        worker.fail transaction claim "TELEGRAM_DOWNLOAD_FAILED" "TelegramDownloadError" true now
      | .ok content =>
        match ← attempt (archive claim content) with
        | .error _ => worker.fail transaction claim errorCode errorType true now
        | .ok _ =>
          let _ ← transaction (.completeWakeupIfTerminal claim.workItem.assetId now)
          return true

end ArchiveWorkerFields

/-- The arguments of `ImageArchiveWorker`. -/
structure ImageArchiveWorkerFields extends ArchiveWorkerFields where
  normalizationProfile : ImageNormalizationProfile
  storageKeyPrefix := "images"

/-- `ImageArchiveWorker`. -/
structure ImageArchiveWorker extends ImageArchiveWorkerFields where
  checked : toArchiveWorkerFields.postInit = .ok ()

namespace ImageArchiveWorker

variable (worker : ImageArchiveWorker)

/-- The key of an image. -/
def storageKey (imageAssetId : ℕ) : String :=
  worker.storageKeyPrefix ++ "/" ++ uuidText imageAssetId ++ ".webp"

/-- The second `try` block of `process`. -/
def archive (now : ℤ) (claim : ClaimedArchive) (content : List UInt8) : ArchiveProgram Unit := do
  let storageKey := worker.storageKey uuidText claim.workItem.assetId
  let artifact ← normalizeAndArchive sha256 content storageKey worker.normalizationProfile
  let archiveSizeBytes ← LocalArchiveStorage.size storageKey
  if archiveSizeBytes ≠ artifact.content.length then
    raise (.imageArchiveMetadataPersistence
      "archive size does not match the normalized image evidence")
  else
    let metadata ← check (ImageArchiveReadyMetadata.fromArtifact claim.workItem.assetId
      worker.storageBackend storageKey artifact archiveSizeBytes now)
    if ← call (.image (.markReady claim metadata.imageAssetId metadata.archive
        metadata.archivedAt)) then
      return ()
    else raise (.imageArchiveMetadataPersistence "image archive claim was lost")

/-- `process`. -/
def process (imageAssetId : ℕ) (now : ℤ) : ArchiveProgram Bool :=
  worker.toArchiveWorkerFields.process (fun c => call (.image c))
    (worker.archive sha256 uuidText now) "IMAGE_ARCHIVE_FAILED" "ImageArchiveError" imageAssetId
    now

end ImageArchiveWorker

/-- The arguments of `VideoArchiveWorker`. -/
structure VideoArchiveWorkerFields extends ArchiveWorkerFields where
  samplingProfile : VideoSamplingProfile
  imageProfile : ImageNormalizationProfile
  storageKeyPrefix := "videos"

/-- `VideoArchiveWorker`. -/
structure VideoArchiveWorker extends VideoArchiveWorkerFields where
  checked : toArchiveWorkerFields.postInit = .ok ()

namespace VideoArchiveWorker

variable (worker : VideoArchiveWorker)

/-- `_storage_key`. -/
def storageKey (videoAssetId : ℕ) (role : String) (index : ℕ) : String :=
  if role = "cover" then worker.storageKeyPrefix ++ "/" ++ uuidText videoAssetId ++ "/cover.webp"
  else
    worker.storageKeyPrefix ++ "/" ++ uuidText videoAssetId ++ "/representative-" ++
      String.ofList (List.leftpad 2 '0' (toString index).toList) ++ ".webp"

/-- The evidence of a video with its roles and indexes. -/
def evidenceOf (sampled : VideoSamplingResult) : List (String × ℕ × VideoFrameEvidence) :=
  (sampled.cover.toList.map fun frame => ("cover", 0, frame)) ++
    sampled.representativeFrames.zipIdx.map fun e => ("representative", e.2, e.1)

/-- The body of the loop over the evidence. -/
def archiveFrame (videoAssetId : ℕ) (evidence : String × ℕ × VideoFrameEvidence) :
    ArchiveProgram VideoFrameReadyMetadata := do
  let (role, index, frame) := evidence
  let storageKey := worker.storageKey uuidText videoAssetId role index
  let _ ← LocalArchiveStorage.put storageKey frame.artifact.content frame.artifact.contentType
  let archiveSizeBytes ← LocalArchiveStorage.size storageKey
  let metadata : VideoFrameReadyMetadata :=
    { frameRole := role
      frameIndex := index
      timestampSeconds := frame.timestampSeconds
      storageBackend := worker.storageBackend
      storageKey
      artifact := frame.artifact
      archiveSizeBytes }
  check metadata.postInit
  return metadata

/-- The second `try` block of `process`. -/
def archive (now : ℤ) (claim : ClaimedArchive) (content : List UInt8) : ArchiveProgram Unit := do
  let probe ← call (.probe content)
  check probe.postInit
  let sampled ← sampleFrames sha256 content worker.samplingProfile worker.imageProfile
    probe.durationSeconds.toRat
  if (evidenceOf sampled).isEmpty then
    raise (.runtime "video sampling produced no durable evidence")
  else
    let frames ← forEach (worker.archiveFrame uuidText claim.workItem.assetId)
      (evidenceOf sampled)
    let metadata : VideoArchiveReadyMetadata :=
      { videoAssetId := claim.workItem.assetId
        archive :=
          { sourceContentType := probe.contentType
            sourceSizeBytes := content.length
            sourceSha256 := sha256 content
            probe
            frames := frames.map VideoFrameReadyMetadata.record }
        archivedAt := now }
    check metadata.postInit
    if ← call (.video (.markReady claim metadata.videoAssetId metadata.archive
        metadata.archivedAt)) then
      return ()
    else raise (.runtime "video archive claim was lost")

/-- `process`. -/
def process (videoAssetId : ℕ) (now : ℤ) : ArchiveProgram Bool :=
  worker.toArchiveWorkerFields.process (fun c => call (.video c))
    (worker.archive sha256 uuidText now) "VIDEO_ARCHIVE_FAILED" "VideoArchiveError" videoAssetId
    now

end VideoArchiveWorker

end TgCurator
