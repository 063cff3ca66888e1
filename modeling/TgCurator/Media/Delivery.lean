import TgCurator.Media.Discipline

/-!
# A worker that is not disturbed

An image worker that takes all turns, whose calls do not raise, makes the asset that it claims
ready: an artifact passes the checks of its metadata (`fromArtifact_eq_ok`), the storage writes
it under a free key (`gives_put`), and the lease is still current when the asset is marked ready
(`ImageArchiveWorker.exists_gives_process`).
-/

namespace TgCurator

open Processes

variable {i : ℕ} {s t : ArchiveServices} {key : String} {content : List UInt8}
  {target : ArchivePath}

theorem gives_call {c : ServiceCall} {r : c.Answer} (h : Performs i s c r t) :
    Gives Serves i (ArchiveProgram.call c) s r t :=
  Gives.request (.answered h)

theorem gives_check {α : Type} {x : Except SamplingError α} {a : α} (h : x = .ok a)
    (s : ArchiveServices) : Gives Serves i (ArchiveProgram.check x) s a s :=
  Gives.compute (by rw [h]; rfl) s

namespace LocalArchiveStorage

theorem gives_publish (h : target ∉ s.objects.keys) :
    Gives Serves i (publish target content) s content.length
      { s with objects := s.objects.set target content } := by
  refine Gives.bind (gives_call (.writeTemporary content)) ?_
  refine Gives.bind (gives_call (.linked content h)) ?_
  rw [if_pos rfl]
  exact Gives.bind (gives_call (.syncDirectory _)) (Gives.pure _ _)

/-- A content is written under a free key. -/
theorem gives_put {contentType : String} (htype : isBlank contentType = false)
    (htarget : targetFor key = .ok target) (h : target ∉ s.objects.keys) :
    Gives Serves i (put key content contentType) s content.length
      { s with objects := s.objects.set target content } := by
  refine Gives.bind (gives_check (ensureValue_eq_ok.mpr (by rw [htype]; rfl)) s) ?_
  refine Gives.bind (Gives.compute htarget s) ?_
  refine Gives.bind (gives_call (.makeDirectory _)) ?_
  refine Gives.bind (gives_call (.fileExists target)) ?_
  rw [decide_eq_false h, if_neg Bool.false_ne_true]
  refine Gives.bind (gives_call (.makeTemporary _)) ?_
  refine Gives.bind (gives_publish h).attempt ?_
  exact Gives.bind (gives_call .removeTemporary) (Gives.compute rfl _)

theorem gives_size (htarget : targetFor key = .ok target)
    (h : s.objects.lookup target = some content) :
    Gives Serves i (size key) s content.length s := by
  refine Gives.bind (Gives.compute htarget s) ?_
  refine Gives.bind (gives_call (.requireRegularFile ?_)) (gives_call (.fileSize h))
  exact Dict.mem_keys.mpr ⟨content, Dict.mem_of_lookup h⟩

end LocalArchiveStorage

/-! ## Metadata -/

theorem targetFor_eq_ok (h : targetFor key = .ok target) :
    (isBlank key || hasBackslash key || isAbsolutePath key || (posixParts key).isEmpty ||
      hasTraversal key || hasDrive key) = false := by
  rw [targetFor] at h
  split_ifs at h with h₁ h₂ h₃ h₄ h₅
  simp_all

/-- A key that the storage takes is one that the metadata take. -/
theorem validateStorageLocation_of_targetFor {storageBackend : String}
    (hbackend : isBlank storageBackend = false) (h : targetFor key = .ok target) :
    validateStorageLocation storageBackend key = .ok () := by
  refine seq_eq_ok.mpr ⟨ensureValue_eq_ok.mpr (by rw [hbackend]; rfl), ensureValue_eq_ok.mpr ?_⟩
  rw [targetFor_eq_ok h]
  rfl

/-- The metadata of an artifact pass their checks. -/
theorem fromArtifact_eq_ok {storageBackend : String} (artifact : NormalizedImageArtifact)
    (hlocation : validateStorageLocation storageBackend key = .ok ()) (imageAssetId : ℕ)
    (archivedAt : ℤ) :
    ∃ metadata, ImageArchiveReadyMetadata.fromArtifact imageAssetId storageBackend key artifact
      artifact.content.length archivedAt = .ok metadata ∧ metadata.imageAssetId = imageAssetId := by
  have hchecked := artifact.checked
  simp only [NormalizedImageArtifactFields.postInit, seq_eq_ok, ensureLowerHex, ensureValue_eq_ok,
    Bool.and_eq_true, decide_eq_true_eq, Bool.not_eq_true'] at hchecked
  obtain ⟨hcontent, htype, hsize, ⟨-, hsource⟩, ⟨-, harchive⟩, ⟨-, hphash⟩, hlength,
    hphashLength⟩ :=
    hchecked
  refine ⟨_, seq_eq_ok.mpr ⟨?_, rfl⟩, rfl⟩
  simp only [ImageArchiveReadyMetadata.postInit, seq_eq_ok, ensureHexField, ensureValue_eq_ok,
    Bool.and_eq_true, decide_eq_true_eq]
  have hpos : 0 < artifact.content.length :=
    List.length_pos_iff.mpr fun hnil => by simp [hnil] at hcontent
  exact ⟨hlocation, htype, ⟨hsize, hpos⟩, ⟨hlength.1, hsource⟩, ⟨hlength.2, harchive⟩,
    ⟨hphashLength, hphash⟩⟩

/-! ## The image worker -/

variable {sha256 : List UInt8 → String} {uuidText : ℕ → String}

theorem gives_normalizeImage {profile : ImageNormalizationProfile} {encoded : EncodedImage}
    {artifact : NormalizedImageArtifact} (hcontent : content ≠ [])
    (h : (encoded.artifactFields sha256 content).create = .ok artifact) (s : ArchiveServices) :
    Gives Serves i (normalizeImage sha256 content profile) s artifact s := by
  rw [normalizeImage, if_neg (by simpa using hcontent)]
  exact Gives.bind (gives_call (.encode content profile encoded)) (gives_check h s)

/-- What is claimed is leased. -/
theorem ArchiveTables.heldRow_of_claim {D : Type} {queue : String} {t t' : ArchiveTables D}
    {assetId : ℕ} {now leaseDuration : ℤ} {claim : ClaimedArchive}
    (h : ArchiveTables.claim queue t assetId now leaseDuration = (t', some claim)) :
    claim.workItem.assetId = assetId ∧ ∃ row, t'.heldRow claim = some row := by
  rw [ArchiveTables.claim] at h
  split at h
  · cases h
  · next row sourceTelegramMessageId message hclaim =>
    split_ifs at h
    · cases h
    · obtain ⟨rfl, hclaim⟩ := Prod.mk.inj h
      obtain rfl := Option.some.inj hclaim
      refine ⟨rfl, row.lease t.nextToken now leaseDuration, ?_⟩
      simp [heldRow, ArchiveAssetRecord.lease]

/-- The holder of an asset marks it ready. -/
theorem ArchiveTables.markReady_of_heldRow {D : Type} {t : ArchiveTables D}
    {claim : ClaimedArchive} {row : ArchiveAssetRecord D} (h : t.heldRow claim = some row)
    (archived : D) (archivedAt : ℤ) :
    t.markReady claim claim.workItem.assetId archived archivedAt =
      ({ t with assets := t.assets.set claim.workItem.assetId (row.publish archived archivedAt) },
        true) := by
  rw [markReady, h, Option.filter_some, if_pos (decide_eq_true rfl)]

/-- What an image worker needs that is not disturbed: a claim, a message that is there, a download
that makes an artifact, and a free key. -/
structure Deliverable (sha256 : List UInt8 → String) (uuidText : ℕ → String)
    (worker : ImageArchiveWorker) (s : ArchiveServices) (imageAssetId : ℕ) (now : ℤ)
    (claim : ClaimedArchive) (t : ImageArchiveTables) : Prop where
  claimed : s.images.claim imageAssetId now worker.leaseDuration = (t, some claim)
  notDeleted : claim.workItem.sourceDeletedAt = none
  message : 0 < claim.workItem.sourceTelegramMessageId
  asset : isBlank claim.workItem.sourceAssetId = false
  artifact : ∃ (content : List UInt8) (encoded : EncodedImage) (artifact : NormalizedImageArtifact),
    content ≠ [] ∧ (encoded.artifactFields sha256 content).create = .ok artifact
  key : ∃ target, targetFor (worker.storageKey uuidText imageAssetId) = .ok target ∧
    target ∉ s.objects.keys

theorem ArchiveWorkerFields.isBlank_storageBackend {worker : ArchiveWorkerFields}
    (h : worker.postInit = .ok ()) : isBlank worker.storageBackend = false := by
  obtain ⟨-, h⟩ := seq_eq_ok.mp h
  obtain ⟨-, h⟩ := seq_eq_ok.mp h
  simpa using ensureValue_eq_ok.mp (seq_eq_ok.mp h).1

theorem isBlank_contentType (artifact : NormalizedImageArtifact) :
    isBlank artifact.contentType = false := by
  obtain ⟨-, h⟩ := seq_eq_ok.mp artifact.checked
  rw [of_decide_eq_true (ensureValue_eq_ok.mp (seq_eq_ok.mp h).1)]
  decide

/-- What is leased to a worker that is not disturbed becomes ready. -/
theorem ImageArchiveWorker.exists_gives_archive (worker : ImageArchiveWorker)
    {claim : ClaimedArchive} {row : ArchiveAssetRecord ImageArchive} {encoded : EncodedImage}
    {artifact : NormalizedImageArtifact} (hheld : s.images.heldRow claim = some row)
    (hcontent : content ≠ [])
    (hartifact : (encoded.artifactFields sha256 content).create = .ok artifact)
    (htarget : targetFor (worker.storageKey uuidText claim.workItem.assetId) = .ok target)
    (hfree : target ∉ s.objects.keys) (now : ℤ) :
    ∃ t, Gives Serves i (worker.archive sha256 uuidText now claim content) s () t ∧
      ∃ row, t.images.assets.lookup claim.workItem.assetId = some row ∧
        row.archiveState = .ready := by
  have hlocation := validateStorageLocation_of_targetFor
    (ArchiveWorkerFields.isBlank_storageBackend worker.checked) htarget
  obtain ⟨metadata, hmetadata, hid⟩ :=
    fromArtifact_eq_ok artifact hlocation claim.workItem.assetId now
  have hmarked := ArchiveTables.markReady_of_heldRow hheld metadata.archive metadata.archivedAt
  refine ⟨{ s with
    images :=
      { s.images with
        assets := s.images.assets.set claim.workItem.assetId
          (row.publish metadata.archive metadata.archivedAt) }
    objects := s.objects.set target artifact.content }, ?_, _, Dict.lookup_set_self .., rfl⟩
  refine Gives.bind (Gives.bind (gives_normalizeImage hcontent hartifact s)
    (Gives.bind (LocalArchiveStorage.gives_put (isBlank_contentType artifact) htarget hfree)
      (Gives.pure _ _))) ?_
  refine Gives.bind (LocalArchiveStorage.gives_size htarget (Dict.lookup_set_self ..)) ?_
  rw [if_neg (by simp)]
  refine Gives.bind (gives_check hmetadata _) ?_
  rw [hid]
  refine Gives.bind (gives_call (.image (congrArg Except.ok hmarked))) ?_
  rw [if_pos rfl]
  exact Gives.pure _ _

theorem ArchiveTables.assets_completeWakeupIfTerminal {D : Type} (queue : String)
    (t : ArchiveTables D) (assetId : ℕ) (now : ℤ) :
    (ArchiveTables.completeWakeupIfTerminal queue t assetId now).1.assets = t.assets := by
  rw [completeWakeupIfTerminal]
  split_ifs <;> rfl

theorem gives_download {claim : ClaimedArchive}
    (hmessage : 0 < claim.workItem.sourceTelegramMessageId)
    (hasset : isBlank claim.workItem.sourceAssetId = false) (content : List UInt8)
    (s : ArchiveServices) :
    Gives Serves i (ArchiveWorkerFields.download claim) s content s := by
  refine Gives.bind (gives_check (ensureValue_eq_ok.mpr (decide_eq_true hmessage)) s) ?_
  refine Gives.bind (gives_check (ensureValue_eq_ok.mpr (by rw [hasset]; rfl)) s) ?_
  exact gives_call (.download _ content)

/-- An image worker that is not disturbed makes its asset ready. -/
theorem ImageArchiveWorker.exists_gives_process {worker : ImageArchiveWorker} {imageAssetId : ℕ}
    {now : ℤ} {claim : ClaimedArchive} {t : ImageArchiveTables}
    (h : Deliverable sha256 uuidText worker s imageAssetId now claim t) (i : ℕ) :
    ∃ u, Gives Serves i (worker.process sha256 uuidText imageAssetId now) s true u ∧
      ∃ row, u.images.assets.lookup imageAssetId = some row ∧ row.archiveState = .ready := by
  obtain ⟨rfl, row, hheld⟩ := ArchiveTables.heldRow_of_claim h.claimed
  obtain ⟨content, encoded, artifact, hcontent, hartifact⟩ := h.artifact
  obtain ⟨target, htarget, hfree⟩ := h.key
  let s₁ : ArchiveServices :=
    { s with images := t, imageHolders := Function.update s.imageHolders claim.leaseToken (some i) }
  obtain ⟨v, harchive, row', hrow', hready⟩ := @ImageArchiveWorker.exists_gives_archive i s₁
    content target sha256 uuidText worker claim row encoded artifact hheld hcontent hartifact
    htarget hfree now
  refine ⟨{ v with
    images := (ArchiveTables.completeWakeupIfTerminal imageArchiveQueue v.images
      claim.workItem.assetId now).1 }, ?_, row', ?_, hready⟩
  · refine Gives.bind (gives_call (.image (congrArg Except.ok h.claimed))) ?_
    dsimp only
    rw [h.notDeleted, if_neg (by simp)]
    refine Gives.bind (gives_download h.message h.asset content s₁).attempt ?_
    refine Gives.bind harchive.attempt ?_
    exact Gives.bind (gives_call (.image rfl)) (Gives.pure _ _)
  · rw [ArchiveTables.assets_completeWakeupIfTerminal]
    exact hrow'

end TgCurator
