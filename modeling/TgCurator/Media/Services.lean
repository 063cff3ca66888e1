import TgCurator.Media.Leasing
import TgCurator.Media.Sampling
import TgCurator.Processes

/-!
# What the archive workers call

The calls of `ImageArchiveWorker` and `VideoArchiveWorker`: the transactions of the archive
repositories, the file operations of `LocalArchiveStorage`, the download from Telegram, the probe
and the decoder of videos, and the image codec. A call is performed or raises, and a call that
raises may have been performed.

The archive is the regular files under its root by their path. Nothing removes or replaces a file;
directories and temporary files are left out, and where they are in the way a call raises.
-/

namespace TgCurator

/-! ## Errors -/

/-- An exception of an archive worker. -/
inductive ArchiveError
  | raised (error : SamplingError)
  /-- `TelegramProtectedContentError` -/
  | telegramProtectedContent
  /-- `TelegramMediaUnavailableError` -/
  | telegramMediaUnavailable
  /-- An exception of a library or of the operating system. -/
  | external

/-- An error of the storage or of the metadata. -/
def ArchiveError.media (error : MediaError) : ArchiveError :=
  .raised (.media error)

/-! ## Transactions -/

/-- The result of a call. -/
abbrev ArchiveCall.Answer {D : Type} : ArchiveCall D → Type
  | claim .. => Option ClaimedArchive
  | markReady .. | fail .. | completeWakeupIfTerminal .. => Bool

namespace ArchiveTables

variable {D : Type} (queue : String) (t : ArchiveTables D)

/-- A call, with its result. -/
def transact : (call : ArchiveCall D) → Except MediaError (ArchiveTables D × call.Answer)
  | .claim assetId now leaseDuration => .ok (ArchiveTables.claim queue t assetId now leaseDuration)
  | .markReady claim assetId archived archivedAt =>
    .ok (t.markReady claim assetId archived archivedAt)
  | .fail claim errorCode errorType retryable retryAt now =>
    ArchiveTables.fail queue t claim errorCode errorType retryable retryAt now
  | .completeWakeupIfTerminal assetId now =>
    .ok (ArchiveTables.completeWakeupIfTerminal queue t assetId now)

end ArchiveTables

/-! ## Calls -/

/-- What the codec makes of an image. -/
structure EncodedImage where
  content : List UInt8
  width : ℕ
  height : ℕ
  perceptualHash : String

/-- A path below the root of the archive. -/
abbrev ArchivePath := List String

/-- A call of a worker. -/
inductive ServiceCall
  | image (call : ArchiveCall ImageArchive)
  | video (call : ArchiveCall VideoArchive)
  | download (item : ArchiveWorkItem)
  | probe (content : List UInt8)
  | extractFrame (content : List UInt8) (timestampSeconds : ℚ)
  | encode (content : List UInt8) (profile : ImageNormalizationProfile)
  | makeDirectory (path : ArchivePath)
  | fileExists (target : ArchivePath)
  | requireRegularFile (target : ArchivePath)
  | readBytes (target : ArchivePath)
  | fileSize (target : ArchivePath)
  | makeTemporary (directory : ArchivePath)
  | writeTemporary (content : List UInt8)
  /-- `os.link` of a temporary file with this content: whether the target was free. -/
  | link (content : List UInt8) (target : ArchivePath)
  | syncDirectory (directory : ArchivePath)
  | removeTemporary

/-- The result of a call. -/
abbrev ServiceCall.Answer : ServiceCall → Type
  | image call => call.Answer
  | video call => call.Answer
  | download _ | extractFrame .. | readBytes _ => List UInt8
  | probe _ => VideoProbeMetadata
  | encode .. => EncodedImage
  | fileExists _ | link .. => Bool
  | fileSize _ => ℕ
  | makeDirectory _ | requireRegularFile _ | makeTemporary _ | writeTemporary _
  | syncDirectory _ | removeTemporary => Unit

/-- The files of the archive. -/
abbrev ArchiveObjects := Dict ArchivePath (List UInt8)

/-- What the workers share, with the process that each lease token was granted to. -/
structure ArchiveServices where
  images : ImageArchiveTables
  videos : VideoArchiveTables
  objects : ArchiveObjects
  imageHolders : ℕ → Option ℕ
  videoHolders : ℕ → Option ℕ

/-- The holders after a call of a process. -/
def grantTo {D : Type} (holders : ℕ → Option ℕ) (i : ℕ) :
    (call : ArchiveCall D) → call.Answer → ℕ → Option ℕ
  | .claim .., some claim => Function.update holders claim.leaseToken (some i)
  | .claim .., none | .markReady .., _ | .fail .., _ | .completeWakeupIfTerminal .., _ => holders

/-- What a call does that is performed. -/
inductive Performs (i : ℕ) (s : ArchiveServices) :
    (c : ServiceCall) → c.Answer → ArchiveServices → Prop
  | image {call : ArchiveCall ImageArchive} {t : ImageArchiveTables} {r : call.Answer}
    (h : s.images.transact imageArchiveQueue call = .ok (t, r)) :
    Performs i s (.image call) r
      { s with
        images := t
        imageHolders := grantTo s.imageHolders i call r }
  | video {call : ArchiveCall VideoArchive} {t : VideoArchiveTables} {r : call.Answer}
    (h : s.videos.transact videoArchiveQueue call = .ok (t, r)) :
    Performs i s (.video call) r
      { s with
        videos := t
        videoHolders := grantTo s.videoHolders i call r }
  /-- `SKIP LOCKED`: the row is locked by another transaction. -/
  | imageLocked (assetId : ℕ) (now leaseDuration : ℤ) :
    Performs i s (.image (.claim assetId now leaseDuration)) none s
  | videoLocked (assetId : ℕ) (now leaseDuration : ℤ) :
    Performs i s (.video (.claim assetId now leaseDuration)) none s
  | download (item : ArchiveWorkItem) (content : List UInt8) :
    Performs i s (.download item) content s
  | probe (content : List UInt8) (metadata : VideoProbeMetadata) :
    Performs i s (.probe content) metadata s
  | extractFrame (content : List UInt8) (timestampSeconds : ℚ) (frameContent : List UInt8) :
    Performs i s (.extractFrame content timestampSeconds) frameContent s
  | encode (content : List UInt8) (profile : ImageNormalizationProfile) (encoded : EncodedImage) :
    Performs i s (.encode content profile) encoded s
  | makeDirectory (path : ArchivePath) : Performs i s (.makeDirectory path) () s
  | fileExists (target : ArchivePath) :
    Performs i s (.fileExists target) (decide (target ∈ s.objects.keys)) s
  | requireRegularFile {target : ArchivePath} (h : target ∈ s.objects.keys) :
    Performs i s (.requireRegularFile target) () s
  | readBytes {target : ArchivePath} {content : List UInt8}
    (h : s.objects.lookup target = some content) : Performs i s (.readBytes target) content s
  | fileSize {target : ArchivePath} {content : List UInt8}
    (h : s.objects.lookup target = some content) : Performs i s (.fileSize target) content.length s
  | makeTemporary (directory : ArchivePath) : Performs i s (.makeTemporary directory) () s
  | writeTemporary (content : List UInt8) : Performs i s (.writeTemporary content) () s
  | linked (content : List UInt8) {target : ArchivePath} (h : target ∉ s.objects.keys) :
    Performs i s (.link content target) true { s with objects := s.objects.set target content }
  | notLinked (content : List UInt8) {target : ArchivePath} (h : target ∈ s.objects.keys) :
    Performs i s (.link content target) false s
  | syncDirectory (directory : ArchivePath) : Performs i s (.syncDirectory directory) () s
  | removeTemporary : Performs i s .removeTemporary () s

/-- The answers of the services: a call is performed, and its result may be lost, or it is
refused. -/
inductive Serves : Processes.Service ArchiveServices ServiceCall
    fun c => Except ArchiveError c.Answer
  | answered {i : ℕ} {s s' : ArchiveServices} {c : ServiceCall} {r : c.Answer}
    (h : Performs i s c r s') : Serves i s c (.ok r) s'
  | lost {i : ℕ} {s s' : ArchiveServices} {c : ServiceCall} {r : c.Answer}
    (h : Performs i s c r s') (error : ArchiveError) : Serves i s c (.error error) s'
  | refused (i : ℕ) (s : ArchiveServices) (c : ServiceCall) (error : ArchiveError) :
    Serves i s c (.error error) s

end TgCurator
