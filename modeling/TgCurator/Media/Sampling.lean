import Mathlib.Data.List.Chain
import Mathlib.Data.List.Range
import Mathlib.Data.Nat.Bits
import Mathlib.Data.Rat.Floor
import TgCurator.Greedy
import TgCurator.Media.Archive

/-!
# Video frame sampling

`application/media/videos.py`: the times at which candidate frames of a video are decoded, and
the choice of the representative frames among them. Times are rationals, so that every one is
finite and the arithmetic is exact. Frame extraction and image processing are functions the
service is given.

The choice is a greedy scan (`selectLoop_eq`), from which its properties follow
(`selectRepresentativeFrames_spec`). The candidate times are strictly increasing, within the
video and of a bounded number; they keep the temporal gap exactly when their number does
(`respectsProfile_candidateTimestamps_iff`).
-/

namespace TgCurator

/-! ## Errors -/

/-- An exception on the way to a sampling result. -/
inductive SamplingError
  | domain (error : PyError)
  | media (error : MediaError)
  deriving DecidableEq

/-- `if not condition: raise ValueError(message)`. -/
def ensureValue (condition : Bool) (message : String) (operands : List String := []) :
    Except SamplingError Unit :=
  if condition then .ok () else .error (.media (.valueError message operands))

@[simp] theorem ensureValue_eq_ok {condition : Bool} {message : String} {operands : List String} :
    ensureValue condition message operands = .ok () ↔ condition = true := by
  cases condition <;> simp [ensureValue]

/-! ## Profiles and artifacts -/

/-- The arguments of `VideoSamplingProfile`. -/
structure VideoSamplingProfileFields where
  minCandidateFrames : ℕ := 6
  maxCandidateFrames : ℕ := 24
  maxRepresentativeFrames : ℕ := 6
  minTemporalGapSeconds : ℚ := 2
  phashDistanceThreshold : ℕ := 8
  keepCover : Bool := true

/-- `VideoSamplingProfile.__post_init__`. -/
def VideoSamplingProfileFields.postInit (profile : VideoSamplingProfileFields) :
    Except SamplingError Unit := do
  ensureValue (0 < profile.minCandidateFrames) "% must be a positive integer"
    ["min_candidate_frames"]
  ensureValue (0 < profile.maxCandidateFrames) "% must be a positive integer"
    ["max_candidate_frames"]
  ensureValue (0 < profile.maxRepresentativeFrames) "% must be a positive integer"
    ["max_representative_frames"]
  ensureValue (profile.minCandidateFrames ≤ profile.maxCandidateFrames)
    "min_candidate_frames must not exceed max_candidate_frames"
  ensureValue (0 < profile.minTemporalGapSeconds)
    "min_temporal_gap_seconds must be a finite positive number"
  ensureValue (profile.phashDistanceThreshold ≤ 64)
    "phash_distance_threshold must be an integer between 0 and 64"

/-- `VideoSamplingProfile`. -/
structure VideoSamplingProfile extends VideoSamplingProfileFields where
  checked : toVideoSamplingProfileFields.postInit = .ok ()

/-- `ImageNormalizationProfile`. -/
structure ImageNormalizationProfile where
  maxSidePixels : ℕ
  quality : ℕ
  maxSidePixels_pos : 0 < maxSidePixels
  quality_mem : 1 ≤ quality ∧ quality ≤ 100

/-- `character in "0123456789abcdef"`. -/
def isLowerHex (c : Char) : Bool :=
  ('0' ≤ c && c ≤ '9') || ('a' ≤ c && c ≤ 'f')

/-- The arguments of `NormalizedImageArtifact`. -/
structure NormalizedImageArtifactFields where
  content : List UInt8
  contentType : String
  width : ℕ
  height : ℕ
  sourceSha256 : String
  archiveSha256 : String
  perceptualHash : String
  deriving DecidableEq

/-- The check of a hexadecimal field. -/
def ensureLowerHex (field value : String) : Except SamplingError Unit :=
  ensureValue (!value.isEmpty && value.toList.all isLowerHex) "% must be lowercase hexadecimal"
    [field]

/-- `NormalizedImageArtifact.__post_init__`. -/
def NormalizedImageArtifactFields.postInit (artifact : NormalizedImageArtifactFields) :
    Except SamplingError Unit := do
  ensureValue (!artifact.content.isEmpty) "normalized image content must not be empty"
  ensureValue (artifact.contentType = "image/webp") "normalized images must use image/webp"
  ensureValue (0 < artifact.width && 0 < artifact.height)
    "normalized image dimensions must be positive"
  ensureLowerHex "source_sha256" artifact.sourceSha256
  ensureLowerHex "archive_sha256" artifact.archiveSha256
  ensureLowerHex "perceptual_hash" artifact.perceptualHash
  ensureValue (artifact.sourceSha256.length = 64 && artifact.archiveSha256.length = 64)
    "SHA-256 values must have 64 hexadecimal characters"
  ensureValue (artifact.perceptualHash.length = 16)
    "perceptual_hash must have 16 hexadecimal characters"

/-- `NormalizedImageArtifact`. -/
structure NormalizedImageArtifact extends NormalizedImageArtifactFields where
  checked : toNormalizedImageArtifactFields.postInit = .ok ()
  deriving DecidableEq

/-- The arguments of `VideoFrameEvidence`. -/
structure VideoFrameEvidenceFields where
  timestampSeconds : ℚ
  artifact : NormalizedImageArtifact
  deriving DecidableEq

/-- `VideoFrameEvidence.__post_init__`. -/
def VideoFrameEvidenceFields.postInit (frame : VideoFrameEvidenceFields) :
    Except SamplingError Unit :=
  ensureValue (0 ≤ frame.timestampSeconds) "timestamp_seconds must be a finite non-negative number"

/-- `VideoFrameEvidence`. -/
structure VideoFrameEvidence extends VideoFrameEvidenceFields where
  checked : toVideoFrameEvidenceFields.postInit = .ok ()
  deriving DecidableEq

/-- `VideoFrameEvidence(…)`. -/
def VideoFrameEvidenceFields.create (fields : VideoFrameEvidenceFields) :
    Except SamplingError VideoFrameEvidence :=
  match h : fields.postInit with
  | .ok () => .ok ⟨fields, h⟩
  | .error e => .error e

/-- The arguments of `VideoSamplingResult`. -/
structure VideoSamplingResultFields where
  durationSeconds : ℚ
  cover : Option VideoFrameEvidence
  representativeFrames : List VideoFrameEvidence

/-- `VideoSamplingResult.__post_init__`. -/
def VideoSamplingResultFields.postInit (result : VideoSamplingResultFields) :
    Except SamplingError Unit := do
  let timestamps := result.representativeFrames.map (·.timestampSeconds)
  ensureValue (0 < result.durationSeconds) "duration_seconds must be a finite positive number"
  ensureValue (result.cover.all (·.timestampSeconds ≤ result.durationSeconds))
    "cover timestamp_seconds must not exceed duration_seconds"
  ensureValue (decide timestamps.Nodup) "representative frame timestamps must be unique"
  ensureValue (decide (timestamps.Pairwise (· ≤ ·)))
    "representative frame timestamps must be chronological"
  ensureValue (timestamps.all (· ≤ result.durationSeconds))
    "representative frame timestamps must not exceed duration_seconds"
  ensureValue (result.cover.all (·.timestampSeconds ∉ timestamps))
    "cover timestamp_seconds must not appear in representative_frames"

/-- `VideoSamplingResult`. -/
structure VideoSamplingResult extends VideoSamplingResultFields where
  checked : toVideoSamplingResultFields.postInit = .ok ()

/-- `VideoSamplingResult(…)`. -/
def VideoSamplingResultFields.create (fields : VideoSamplingResultFields) :
    Except SamplingError VideoSamplingResult :=
  match h : fields.postInit with
  | .ok () => .ok ⟨fields, h⟩
  | .error e => .error e

/-! ## Candidate times -/

/-- `_validate_duration`. -/
def validateDuration (durationSeconds : ℚ) : Except PyError Unit :=
  ensure (0 < durationSeconds) "video duration_seconds must be a finite positive number"

/-- The number of candidates the gap asks for. -/
def idealCount (durationSeconds : ℚ) (profile : VideoSamplingProfile) : ℕ :=
  ⌈durationSeconds / profile.minTemporalGapSeconds⌉₊ + 1

/-- The number of candidates. -/
def frameCount (durationSeconds : ℚ) (profile : VideoSamplingProfile) : ℕ :=
  min profile.maxCandidateFrames
    (max profile.minCandidateFrames (idealCount durationSeconds profile))

/-- `candidate_timestamps`. -/
def candidateTimestamps (durationSeconds : ℚ) (profile : VideoSamplingProfile) :
    Except PyError (List ℚ) := do
  validateDuration durationSeconds
  let frameCount := frameCount durationSeconds profile
  if frameCount = 1 then return [0]
  else return (List.range frameCount).map fun index : ℕ =>
    durationSeconds * index / (frameCount - 1 : ℕ)

/-! ## The choice of frames -/

/-- The value of a hexadecimal digit. -/
def hexDigitValue (c : Char) : ℕ :=
  if c ≤ '9' then c.toNat - '0'.toNat else c.toNat - 'a'.toNat + 10

/-- `int(value, 16)`. -/
def parseHex (value : String) : ℕ :=
  value.toList.foldl (fun n c => 16 * n + hexDigitValue c) 0

/-- `n.bit_count()`. -/
def bitCount (n : ℕ) : ℕ :=
  n.bits.count true

/-- The check of a perceptual hash. -/
def validateHash (field value : String) : Except PyError Unit :=
  ensure (value.length = 16 && value.toList.all isLowerHex)
    "% must be a 16-character lowercase hexadecimal pHash" [field]

/-- `perceptual_hash_distance`. -/
def perceptualHashDistance (left right : String) : Except PyError ℕ := do
  validateHash "left" left
  validateHash "right" right
  return bitCount (parseHex left ^^^ parseHex right)

/-- The test of `any(perceptual_hash_distance(…) < threshold …)`. -/
def anyNearDuplicate (threshold : ℕ) (candidate : VideoFrameEvidence) :
    List VideoFrameEvidence → Except PyError Bool
  | [] => .ok false
  | item :: existing => do
    let distance ← perceptualHashDistance candidate.artifact.perceptualHash
      item.artifact.perceptualHash
    if distance < threshold then return true else anyNearDuplicate threshold candidate existing

/-- The loop over the candidates. -/
def selectLoop (profile : VideoSamplingProfile) (cover : Option VideoFrameEvidence)
    (selected : List VideoFrameEvidence) :
    List VideoFrameEvidence → Except PyError (List VideoFrameEvidence)
  | [] => .ok selected
  | candidate :: candidates => do
    let existing := cover.toList ++ selected
    if cover.any (candidate.timestampSeconds = ·.timestampSeconds) then
      selectLoop profile cover selected candidates
    else if existing.any fun item =>
        |candidate.timestampSeconds - item.timestampSeconds| < profile.minTemporalGapSeconds then
      selectLoop profile cover selected candidates
    else if ← anyNearDuplicate profile.phashDistanceThreshold candidate existing then
      selectLoop profile cover selected candidates
    else if (selected ++ [candidate]).length = profile.maxRepresentativeFrames then
      return selected ++ [candidate]
    else selectLoop profile cover (selected ++ [candidate]) candidates

/-- Frames in the order of their times. -/
abbrev VideoFrameEvidence.LE (a b : VideoFrameEvidence) : Prop :=
  a.timestampSeconds ≤ b.timestampSeconds

/-- `select_representative_frames`. -/
def selectRepresentativeFrames (candidates : List VideoFrameEvidence)
    (profile : VideoSamplingProfile) (cover : Option VideoFrameEvidence) :
    Except PyError (List VideoFrameEvidence) :=
  selectLoop profile cover [] (candidates.insertionSort VideoFrameEvidence.LE)

/-! ## The service -/

/-- The cover that the service takes of the evidence. -/
def coverOf (profile : VideoSamplingProfile) (evidence : List VideoFrameEvidence) :
    Option VideoFrameEvidence :=
  if profile.keepCover then evidence.head? else none

/-- `VideoFrameSamplingService`, with the methods of its two collaborators. -/
structure VideoFrameSamplingService where
  probeDuration : List UInt8 → Except SamplingError ℚ
  extractFrame : List UInt8 → ℚ → Except SamplingError (List UInt8)
  normalize : List UInt8 → ImageNormalizationProfile → Except SamplingError NormalizedImageArtifact

namespace VideoFrameSamplingService

variable (service : VideoFrameSamplingService)

/-- The evidence of one candidate time. -/
def evidenceAt (content : List UInt8) (imageProfile : ImageNormalizationProfile)
    (timestampSeconds : ℚ) : Except SamplingError VideoFrameEvidence := do
  let frameContent ← service.extractFrame content timestampSeconds
  if frameContent.isEmpty then
    .error (.media (.runtime "video frame extractor returned empty frame content"))
  else
    let artifact ← service.normalize frameContent imageProfile
    VideoFrameEvidenceFields.create { timestampSeconds, artifact }

/-- The duration that is given, or else probed. -/
def durationOf (content : List UInt8) (durationSeconds : Option ℚ) : Except SamplingError ℚ :=
  match durationSeconds with
  | some durationSeconds => .ok durationSeconds
  | none => service.probeDuration content

/-- `sample`. -/
def sample (content : List UInt8) (samplingProfile : VideoSamplingProfile)
    (imageProfile : ImageNormalizationProfile) (durationSeconds : Option ℚ) :
    Except SamplingError VideoSamplingResult := do
  (ensure (!content.isEmpty) "video content must not be empty").mapError .domain
  let durationSeconds ← service.durationOf content durationSeconds
  (validateDuration durationSeconds).mapError .domain
  let timestamps ← (candidateTimestamps durationSeconds samplingProfile).mapError .domain
  let evidence ← timestamps.mapM (service.evidenceAt content imageProfile)
  let cover := coverOf samplingProfile evidence
  let representativeFrames ←
    (selectRepresentativeFrames evidence samplingProfile cover).mapError .domain
  VideoSamplingResultFields.create { durationSeconds, cover, representativeFrames }

end VideoFrameSamplingService

/-! ## Distances -/

/-- `perceptual_hash_distance` of two hashes that pass its checks. -/
def hashDistance (a b : VideoFrameEvidence) : ℕ :=
  bitCount (parseHex a.artifact.perceptualHash ^^^ parseHex b.artifact.perceptualHash)

theorem hashDistance_comm (a b : VideoFrameEvidence) : hashDistance a b = hashDistance b a := by
  rw [hashDistance, hashDistance, Nat.xor_comm]

/-- The constructor of an artifact leaves nothing for the distance to reject. -/
theorem NormalizedImageArtifact.validateHash_eq_ok (artifact : NormalizedImageArtifact)
    (field : String) : validateHash field artifact.perceptualHash = .ok () := by
  have h := artifact.checked
  simp only [NormalizedImageArtifactFields.postInit, seq_eq_ok, ensureLowerHex, ensureValue_eq_ok,
    Bool.and_eq_true] at h
  obtain ⟨-, -, -, -, -, ⟨-, hhex⟩, -, hlength⟩ := h
  simp only [validateHash, ensure_eq_ok, Bool.and_eq_true]
  exact ⟨hlength, hhex⟩

theorem perceptualHashDistance_eq (a b : VideoFrameEvidence) :
    perceptualHashDistance a.artifact.perceptualHash b.artifact.perceptualHash =
      .ok (hashDistance a b) := by
  rw [perceptualHashDistance, a.artifact.validateHash_eq_ok, b.artifact.validateHash_eq_ok]
  rfl

theorem anyNearDuplicate_eq (threshold : ℕ) (candidate : VideoFrameEvidence)
    (existing : List VideoFrameEvidence) :
    anyNearDuplicate threshold candidate existing =
      .ok (existing.any fun item => hashDistance candidate item < threshold) := by
  induction existing with
  | nil => rfl
  | cons item existing ih =>
    rw [anyNearDuplicate, perceptualHashDistance_eq]
    by_cases hlt : hashDistance candidate item < threshold
    · simp [hlt, bind, Except.bind, pure, Except.pure]
    · simp [hlt, bind, Except.bind, ih]

/-! ## The choice is a greedy scan -/

namespace VideoSamplingProfile

variable (profile : VideoSamplingProfile)

theorem bounds : 0 < profile.minCandidateFrames ∧ 0 < profile.maxCandidateFrames ∧
    0 < profile.maxRepresentativeFrames ∧
    profile.minCandidateFrames ≤ profile.maxCandidateFrames ∧
    0 < profile.minTemporalGapSeconds := by
  have h := profile.checked
  simp only [VideoSamplingProfileFields.postInit, seq_eq_ok, ensureValue_eq_ok,
    decide_eq_true_eq] at h
  exact ⟨h.1, h.2.1, h.2.2.1, h.2.2.2.1, h.2.2.2.2.1⟩

/-- Two frames are far enough apart in time and in what they show. -/
def separated (a b : VideoFrameEvidence) : Bool :=
  profile.minTemporalGapSeconds ≤ |a.timestampSeconds - b.timestampSeconds| &&
    profile.phashDistanceThreshold ≤ hashDistance a b

theorem separated_comm (a b : VideoFrameEvidence) :
    profile.separated a b = profile.separated b a := by
  rw [separated, separated, abs_sub_comm, hashDistance_comm]

theorem timestampSeconds_ne_of_separated {a b : VideoFrameEvidence}
    (h : profile.separated a b = true) : a.timestampSeconds ≠ b.timestampSeconds := by
  intro heq
  simp only [separated, Bool.and_eq_true, decide_eq_true_eq, heq, sub_self, abs_zero] at h
  exact absurd h.1 (not_le.mpr profile.bounds.2.2.2.2)

/-- A frame passes both tests of the loop when it is separated from every existing one. -/
theorem all_separated_iff (candidate : VideoFrameEvidence) (existing : List VideoFrameEvidence) :
    existing.all (profile.separated candidate) = true ↔
      (existing.any fun item =>
        |candidate.timestampSeconds - item.timestampSeconds| < profile.minTemporalGapSeconds) =
          false ∧
      (existing.any fun item => hashDistance candidate item < profile.phashDistanceThreshold) =
        false := by
  simp only [List.all_eq_true, separated, Bool.and_eq_true, decide_eq_true_eq, List.any_eq_false,
    not_lt]
  exact ⟨fun h => ⟨fun x hx => (h x hx).1, fun x hx => (h x hx).2⟩,
    fun h x hx => ⟨h.1 x hx, h.2 x hx⟩⟩

end VideoSamplingProfile

theorem selectLoop_eq (profile : VideoSamplingProfile) (cover : Option VideoFrameEvidence)
    (candidates : List VideoFrameEvidence) : ∀ selected,
    selectLoop profile cover selected candidates =
      .ok (Greedy.scan profile.separated cover.toList profile.maxRepresentativeFrames selected
        candidates) := by
  induction candidates with
  | nil => exact fun selected => rfl
  | cons candidate candidates ih =>
    intro selected
    have hiff := profile.all_separated_iff candidate (cover.toList ++ selected)
    rw [selectLoop, Greedy.scan]
    simp only [anyNearDuplicate_eq, ih]
    by_cases hcover : cover.any (candidate.timestampSeconds = ·.timestampSeconds) = true
    · -- a candidate at the cover's time is not separated from the cover
      obtain ⟨c, rfl, hc⟩ := (Option.any_eq_true _ _).mp hcover
      have hnot : ¬ ((some c).toList ++ selected).all (profile.separated candidate) = true := by
        intro hall
        have hsep := List.all_eq_true.mp hall c (by simp)
        exact profile.timestampSeconds_ne_of_separated hsep (of_decide_eq_true hc)
      rw [if_pos hcover, if_neg hnot]
    · rw [if_neg hcover]
      by_cases hall : (cover.toList ++ selected).all (profile.separated candidate) = true
      · obtain ⟨hgap, hnear⟩ := hiff.mp hall
        rw [if_pos hall, if_neg (by rw [hgap]; exact Bool.false_ne_true), hnear]
        by_cases hlimit : (selected ++ [candidate]).length = profile.maxRepresentativeFrames
        · rw [if_pos hlimit, if_pos hlimit]
          rfl
        · rw [if_neg hlimit, if_neg hlimit]
          rfl
      · rw [if_neg hall]
        by_cases hgap : ((cover.toList ++ selected).any fun item =>
            |candidate.timestampSeconds - item.timestampSeconds| <
              profile.minTemporalGapSeconds) = true
        · rw [if_pos hgap]
        · have hnear : ((cover.toList ++ selected).any fun item =>
              hashDistance candidate item < profile.phashDistanceThreshold) = true := by
            by_contra hnear
            exact hall (hiff.mpr ⟨Bool.eq_false_iff.mpr hgap, Bool.eq_false_iff.mpr hnear⟩)
          rw [if_neg hgap, hnear]
          rfl

/-! ## What is chosen -/

/-- A valid and maximal choice of representative frames. -/
structure Representative (profile : VideoSamplingProfile) (cover : Option VideoFrameEvidence)
    (candidates selected : List VideoFrameEvidence) : Prop where
  mem : ∀ frame ∈ selected, frame ∈ candidates
  chronological : selected.Pairwise fun a b => a.timestampSeconds < b.timestampSeconds
  length_le : selected.length ≤ profile.maxRepresentativeFrames
  ne_cover : ∀ c ∈ cover, ∀ frame ∈ selected, frame.timestampSeconds ≠ c.timestampSeconds
  /-- The cover and the frames are pairwise far enough apart. -/
  separated : (cover.toList ++ selected).Pairwise fun a b =>
    profile.minTemporalGapSeconds ≤ |a.timestampSeconds - b.timestampSeconds| ∧
      profile.phashDistanceThreshold ≤ hashDistance a b
  /-- Short of the limit, a candidate left out is too close to the cover or a frame. -/
  maximal : selected.length < profile.maxRepresentativeFrames →
    ∀ candidate ∈ candidates, candidate ∉ selected → ∃ frame ∈ cover.toList ++ selected,
      |candidate.timestampSeconds - frame.timestampSeconds| < profile.minTemporalGapSeconds ∨
        hashDistance candidate frame < profile.phashDistanceThreshold

/-- Candidates at different times have one order. -/
theorem insertionSort_frames_eq {candidates candidates' : List VideoFrameEvidence}
    (h : (candidates.map (·.timestampSeconds)).Nodup) (hperm : candidates'.Perm candidates) :
    candidates'.insertionSort VideoFrameEvidence.LE =
      candidates.insertionSort VideoFrameEvidence.LE := by
  have hsorted : (candidates'.insertionSort VideoFrameEvidence.LE).Perm
      (candidates.insertionSort VideoFrameEvidence.LE) :=
    ((List.perm_insertionSort _ _).trans hperm).trans (List.perm_insertionSort _ _).symm
  refine hsorted.eq_of_pairwise ?_ (List.pairwise_insertionSort _ _)
    (List.pairwise_insertionSort _ _)
  intro a b ha hb hab hba
  have hmem := (List.mem_insertionSort _).mp ha
  have hmem' := (List.mem_insertionSort _).mp hb
  exact List.inj_on_of_nodup_map h (hperm.mem_iff.mp hmem) hmem' (le_antisymm hab hba)

/-- The frames are in strict order when the candidates are at different times. -/
theorem pairwise_lt_of_sublist {candidates selected : List VideoFrameEvidence}
    (h : (candidates.map (·.timestampSeconds)).Nodup)
    (hsub : selected.Sublist (candidates.insertionSort VideoFrameEvidence.LE)) :
    selected.Pairwise fun a b => a.timestampSeconds < b.timestampSeconds := by
  have hne : (candidates.insertionSort VideoFrameEvidence.LE).Pairwise
      fun a b => a.timestampSeconds ≠ b.timestampSeconds := by
    have hnodup := ((List.perm_insertionSort VideoFrameEvidence.LE candidates).map
      (·.timestampSeconds)).nodup_iff.mpr h
    exact List.pairwise_map.mp hnodup
  have hle := List.pairwise_insertionSort VideoFrameEvidence.LE candidates
  refine List.Pairwise.sublist hsub ?_
  exact hle.imp₂ (fun a b hab hne => lt_of_le_of_ne hab hne) hne

/-- The choice is valid and maximal. -/
theorem exists_selectRepresentativeFrames_eq {candidates : List VideoFrameEvidence}
    (h : (candidates.map (·.timestampSeconds)).Nodup) (profile : VideoSamplingProfile)
    (cover : Option VideoFrameEvidence) :
    ∃ selected, selectRepresentativeFrames candidates profile cover = .ok selected ∧
      Representative profile cover candidates selected := by
  have hsorted := List.perm_insertionSort VideoFrameEvidence.LE candidates
  have hsep := Greedy.pairwise_scan profile.separated cover.toList profile.maxRepresentativeFrames
    (candidates.insertionSort VideoFrameEvidence.LE) [] (by cases cover <;> simp)
  obtain ⟨selected, hscan, hsub⟩ := Greedy.exists_scan_eq profile.separated cover.toList
    profile.maxRepresentativeFrames (candidates.insertionSort VideoFrameEvidence.LE) []
  rw [List.nil_append] at hscan
  refine ⟨selected, by rw [selectRepresentativeFrames, selectLoop_eq, hscan], ?_⟩
  rw [hscan] at hsep
  refine
    { mem := fun frame hframe => hsorted.mem_iff.mp (hsub.subset hframe)
      chronological := pairwise_lt_of_sublist h hsub
      length_le := hscan ▸ Greedy.length_scan_le _ _ _ _ [] profile.bounds.2.2.1
      ne_cover := ?_
      separated := hsep.imp fun {a b} hab => ?_
      maximal := ?_ }
  · rintro c hc frame hframe
    obtain rfl := Option.mem_def.mp hc
    have hsep' := (List.pairwise_append.mp hsep).2.2 c (by simp) frame hframe
    exact profile.timestampSeconds_ne_of_separated hsep'
  · rw [profile.separated_comm, VideoSamplingProfile.separated, Bool.and_eq_true,
      decide_eq_true_eq, decide_eq_true_eq] at hab
    exact hab
  · intro hlength candidate hcandidate hout
    obtain ⟨frame, hframe, hnot⟩ := Greedy.exists_incompatible _ _ _ _ [] (by rwa [hscan]) candidate
      (hsorted.mem_iff.mpr hcandidate) (by rwa [hscan])
    rw [hscan] at hframe
    refine ⟨frame, hframe, ?_⟩
    simpa only [VideoSamplingProfile.separated, Bool.and_eq_false_iff, decide_eq_false_iff_not,
      not_le] using hnot

/-! ## Candidate times -/

section Candidates

variable {durationSeconds : ℚ} {profile : VideoSamplingProfile}

/-- The time of a candidate. -/
def candidateTime (durationSeconds : ℚ) (frameCount index : ℕ) : ℚ :=
  durationSeconds * index / (frameCount - 1 : ℕ)

theorem frameCount_pos (durationSeconds : ℚ) (profile : VideoSamplingProfile) :
    0 < frameCount durationSeconds profile :=
  lt_min profile.bounds.2.1 (lt_max_of_lt_left profile.bounds.1)

theorem candidateTimestamps_eq (h : 0 < durationSeconds) :
    candidateTimestamps durationSeconds profile =
      .ok ((List.range (frameCount durationSeconds profile)).map
        (candidateTime durationSeconds (frameCount durationSeconds profile))) := by
  rw [candidateTimestamps, validateDuration, ensure_eq_ok.mpr (decide_eq_true h)]
  by_cases hone : frameCount durationSeconds profile = 1
  · simp [hone, candidateTime, bind, Except.bind, pure, Except.pure]
  · simp only [bind, Except.bind, if_neg hone]
    rfl

/-- The candidates are in strict order. -/
theorem pairwise_candidateTimestamps (h : 0 < durationSeconds) (n : ℕ) :
    ((List.range n).map (candidateTime durationSeconds n)).Pairwise (· < ·) := by
  rw [List.pairwise_map]
  refine List.pairwise_lt_range.imp_of_mem fun {i j} _ hj hij => ?_
  have hn : (0 : ℚ) < (n - 1 : ℕ) := by
    have := List.mem_range.mp hj
    exact_mod_cast (by omega : 0 < n - 1)
  unfold candidateTime
  gcongr

/-- Every candidate is within the video. -/
theorem candidateTime_mem (h : 0 < durationSeconds) {n i : ℕ} (hi : i < n) :
    0 ≤ candidateTime durationSeconds n i ∧
      candidateTime durationSeconds n i ≤ durationSeconds := by
  have hle : (i : ℚ) ≤ (n - 1 : ℕ) := by exact_mod_cast (by omega : i ≤ n - 1)
  refine ⟨by unfold candidateTime; positivity, ?_⟩
  exact div_le_of_le_mul₀ (Nat.cast_nonneg _) h.le (by gcongr)

/-- Neighbouring candidates keep a gap when as many gaps fit into the video. -/
theorem isChain_candidateTimestamps_iff (h : 0 < durationSeconds) (gap : ℚ) {n : ℕ}
    (hn : 0 < n) :
    ((List.range n).map (candidateTime durationSeconds n)).IsChain (fun a b => gap ≤ b - a) ↔
      (n - 1 : ℕ) * gap ≤ durationSeconds := by
  obtain ⟨m, rfl⟩ := Nat.exists_eq_add_of_lt hn
  rw [List.isChain_map, Nat.zero_add, List.isChain_range, Nat.add_sub_cancel]
  rcases Nat.eq_zero_or_pos m with rfl | hm
  · simpa using h.le
  have hm' : (0 : ℚ) < m := by exact_mod_cast hm
  have hdiff : ∀ i : ℕ, candidateTime durationSeconds (m + 1) i.succ -
      candidateTime durationSeconds (m + 1) i = durationSeconds / m := by
    intro i
    rw [candidateTime, candidateTime, Nat.add_sub_cancel, Nat.cast_succ]
    ring
  simp only [hdiff, le_div_iff₀' hm']
  exact ⟨fun hall => hall 0 hm, fun hle _ _ => hle⟩

/-- As many gaps as the ideal count asks for fit only into a multiple of the gap. -/
theorem ceil_mul_le_iff (h : 0 < durationSeconds) {gap : ℚ} (hgap : 0 < gap) :
    ⌈durationSeconds / gap⌉₊ * gap ≤ durationSeconds ↔ ∃ k : ℕ, durationSeconds = k * gap := by
  constructor
  · intro hle
    refine ⟨⌈durationSeconds / gap⌉₊, le_antisymm ?_ hle⟩
    rw [← div_le_iff₀ hgap]
    exact Nat.le_ceil _
  · rintro ⟨k, rfl⟩
    rw [mul_div_cancel_right₀ _ hgap.ne', Nat.ceil_natCast]

/-- The candidate times respect the profile. -/
structure RespectsProfile (profile : VideoSamplingProfile) (durationSeconds : ℚ)
    (timestamps : List ℚ) : Prop where
  start : timestamps.head? = some 0
  increasing : timestamps.Pairwise (· < ·)
  within : ∀ t ∈ timestamps, 0 ≤ t ∧ t ≤ durationSeconds
  count : profile.minCandidateFrames ≤ timestamps.length ∧
    timestamps.length ≤ profile.maxCandidateFrames
  /-- Unless the count is forced up, neighbours keep the temporal gap. -/
  spaced : profile.minCandidateFrames ≤ idealCount durationSeconds profile →
    timestamps.IsChain fun a b => profile.minTemporalGapSeconds ≤ b - a

/-- The candidate times respect the profile exactly when their number is forced up, the
video has room for the greatest number of candidates, or its duration is a multiple of the
gap. -/
theorem respectsProfile_candidateTimestamps_iff (h : 0 < durationSeconds)
    (profile : VideoSamplingProfile) :
    ∃ timestamps, candidateTimestamps durationSeconds profile = .ok timestamps ∧
      (RespectsProfile profile durationSeconds timestamps ↔
        idealCount durationSeconds profile < profile.minCandidateFrames ∨
          (profile.maxCandidateFrames - 1 : ℕ) * profile.minTemporalGapSeconds ≤ durationSeconds ∨
          ∃ k : ℕ, durationSeconds = k * profile.minTemporalGapSeconds) := by
  obtain ⟨hmin, hmax, -, hminmax, hgap⟩ := profile.bounds
  refine ⟨_, candidateTimestamps_eq h, ?_⟩
  have hpos := frameCount_pos durationSeconds profile
  have hspaced := isChain_candidateTimestamps_iff h profile.minTemporalGapSeconds hpos
  have hcount : profile.minCandidateFrames ≤ idealCount durationSeconds profile →
      ((frameCount durationSeconds profile - 1 : ℕ) * profile.minTemporalGapSeconds ≤
          durationSeconds ↔
        (profile.maxCandidateFrames - 1 : ℕ) * profile.minTemporalGapSeconds ≤ durationSeconds ∨
          ∃ k : ℕ, durationSeconds = k * profile.minTemporalGapSeconds) := by
    intro hle
    rw [← ceil_mul_le_iff h hgap]
    have hpred : frameCount durationSeconds profile - 1 =
        min (profile.maxCandidateFrames - 1)
          ⌈durationSeconds / profile.minTemporalGapSeconds⌉₊ := by
      rw [frameCount, max_eq_right hle, idealCount]
      omega
    rw [hpred, ← le_div_iff₀ hgap, ← le_div_iff₀ hgap, ← le_div_iff₀ hgap, Nat.cast_min,
      min_le_iff]
  constructor
  · intro hrespects
    rcases lt_or_ge (idealCount durationSeconds profile) profile.minCandidateFrames with hlt | hge
    · exact .inl hlt
    · exact .inr ((hcount hge).mp (hspaced.mp (hrespects.spaced hge)))
  · intro hcond
    refine ⟨?_, pairwise_candidateTimestamps h _, ?_, ?_, fun hge => ?_⟩
    · obtain ⟨m, hm⟩ := Nat.exists_eq_add_of_lt hpos
      rw [hm, Nat.zero_add, List.range_succ_eq_map]
      simp [candidateTime]
    · intro t ht
      obtain ⟨i, hi, rfl⟩ := List.mem_map.mp ht
      exact candidateTime_mem h (List.mem_range.mp hi)
    · rw [List.length_map, List.length_range, frameCount]
      omega
    · exact hspaced.mpr ((hcount hge).mpr (hcond.resolve_left (not_lt.mpr hge)))

end Candidates

/-! ## The frames of a video -/

namespace VideoFrameSamplingService

variable {service : VideoFrameSamplingService} {content : List UInt8}
  {imageProfile : ImageNormalizationProfile}

/-- The collaborators deliver a frame at a time. -/
def Delivers (service : VideoFrameSamplingService) (content : List UInt8)
    (imageProfile : ImageNormalizationProfile) (timestampSeconds : ℚ) : Prop :=
  ∃ frameContent artifact, service.extractFrame content timestampSeconds = .ok frameContent ∧
    frameContent.isEmpty = false ∧ service.normalize frameContent imageProfile = .ok artifact

/-- A delivered frame is evidence of its time. -/
theorem Delivers.exists_evidenceAt {t : ℚ} (h : service.Delivers content imageProfile t)
    (ht : 0 ≤ t) :
    ∃ frame, service.evidenceAt content imageProfile t = .ok frame := by
  obtain ⟨frameContent, artifact, hextract, hne, hnormalize⟩ := h
  have hinit : VideoFrameEvidenceFields.postInit { timestampSeconds := t, artifact } = .ok () :=
    ensureValue_eq_ok.mpr (decide_eq_true ht)
  refine ⟨⟨_, hinit⟩, ?_⟩
  simp only [evidenceAt, hextract, hne, hnormalize, bind, Except.bind, Bool.false_eq_true,
    if_false, VideoFrameEvidenceFields.create]
  split
  case h_1 => rfl
  case h_2 e he => exact absurd (he.symm.trans hinit) (by simp)

theorem timestampSeconds_of_evidenceAt {t : ℚ} {frame : VideoFrameEvidence}
    (h : service.evidenceAt content imageProfile t = .ok frame) : frame.timestampSeconds = t := by
  unfold evidenceAt at h
  obtain ⟨frameContent, -, h⟩ := bind_eq_ok.mp h
  split_ifs at h
  obtain ⟨artifact, -, h⟩ := bind_eq_ok.mp h
  unfold VideoFrameEvidenceFields.create at h
  split at h
  case h_1 => rw [← Except.ok.inj h]
  case h_2 => cases h

/-- The evidence of several times has these times. -/
theorem map_timestampSeconds_of_mapM {timestamps : List ℚ} {evidence : List VideoFrameEvidence}
    (h : timestamps.mapM (service.evidenceAt content imageProfile) = .ok evidence) :
    evidence.map (·.timestampSeconds) = timestamps := by
  have hframes := mapM_eq_ok.mp h
  clear h
  induction hframes with
  | nil => rfl
  | cons hframe _ ih => rw [List.map_cons, timestampSeconds_of_evidenceAt hframe, ih]

end VideoFrameSamplingService

/-- Frames chosen at the candidate times make a sampling result. -/
theorem postInit_of_representative {durationSeconds : ℚ} {profile : VideoSamplingProfile}
    {evidence selected : List VideoFrameEvidence} (h : 0 < durationSeconds)
    (hmem : ∀ frame ∈ evidence, frame.timestampSeconds ≤ durationSeconds)
    (hselected : Representative profile (coverOf profile evidence) evidence selected) :
    VideoSamplingResultFields.postInit
      { durationSeconds, cover := coverOf profile evidence, representativeFrames := selected } =
        .ok () := by
  have hcover : ∀ c ∈ coverOf profile evidence, c ∈ evidence := by
    intro c hc
    unfold coverOf at hc
    split_ifs at hc
    · exact List.mem_of_mem_head? hc
    · cases hc
  have hlt := List.pairwise_map.mpr hselected.chronological
  simp only [VideoSamplingResultFields.postInit, seq_eq_ok, ensureValue_eq_ok, decide_eq_true_eq,
    List.all_eq_true, Option.all_eq_true]
  refine ⟨h, fun c hc => hmem c (hcover c hc), hlt.imp ne_of_lt, hlt.imp le_of_lt, ?_, ?_⟩
  · intro t ht
    obtain ⟨frame, hframe, rfl⟩ := List.mem_map.mp ht
    exact hmem frame (hselected.mem frame hframe)
  · intro c hc hin
    obtain ⟨frame, hframe, heq⟩ := List.mem_map.mp hin
    exact hselected.ne_cover c hc frame hframe heq

/-- The service returns a result whenever its collaborators deliver the frames. -/
theorem exists_sample_eq {service : VideoFrameSamplingService} {content : List UInt8}
    {imageProfile : ImageNormalizationProfile} {profile : VideoSamplingProfile}
    {given : Option ℚ} {durationSeconds : ℚ} {timestamps : List ℚ} (hcontent : content ≠ [])
    (hduration : service.durationOf content given = .ok durationSeconds)
    (h : candidateTimestamps durationSeconds profile = .ok timestamps)
    (hframes : ∀ t ∈ timestamps, service.Delivers content imageProfile t) :
    ∃ result, service.sample content profile imageProfile given = .ok result := by
  obtain ⟨hvalid, -⟩ := seq_eq_ok.mp h
  have hpos : 0 < durationSeconds := of_decide_eq_true (ensure_eq_ok.mp hvalid)
  obtain rfl := Except.ok.inj ((candidateTimestamps_eq hpos).symm.trans h)
  have hwithin : ∀ t ∈ (List.range (frameCount durationSeconds profile)).map
      (candidateTime durationSeconds (frameCount durationSeconds profile)),
      0 ≤ t ∧ t ≤ durationSeconds := by
    intro t ht
    obtain ⟨i, hi, rfl⟩ := List.mem_map.mp ht
    exact candidateTime_mem hpos (List.mem_range.mp hi)
  obtain ⟨evidence, hevidence⟩ := exists_mapM_eq_ok fun t ht =>
    (hframes t ht).exists_evidenceAt (hwithin t ht).1
  have htimes := VideoFrameSamplingService.map_timestampSeconds_of_mapM hevidence
  have hnodup : (evidence.map (·.timestampSeconds)).Nodup := by
    rw [htimes]
    exact (pairwise_candidateTimestamps hpos _).imp ne_of_lt
  have hmem : ∀ frame ∈ evidence, frame.timestampSeconds ≤ durationSeconds := fun frame hframe =>
    (hwithin _ (htimes ▸ List.mem_map_of_mem hframe)).2
  obtain ⟨selected, hselect, hselected⟩ :=
    exists_selectRepresentativeFrames_eq hnodup profile (coverOf profile evidence)
  have hinit := postInit_of_representative hpos hmem hselected
  have hnonempty : ensure (!content.isEmpty) "video content must not be empty" = .ok () := by
    simpa using hcontent
  refine ⟨⟨_, hinit⟩, ?_⟩
  simp only [VideoFrameSamplingService.sample, hnonempty, hduration, hvalid, h, hevidence, hselect,
    Except.mapError, bind, Except.bind, VideoSamplingResultFields.create]
  split
  case h_1 => rfl
  case h_2 e he => exact absurd (he.symm.trans hinit) (by simp)

/-- Frames at different times: the choice is valid, maximal and does not depend on the order
of the candidates; and the service makes a result of every video whose frames are delivered. -/
theorem selectRepresentativeFrames_spec (profile : VideoSamplingProfile) :
    (∀ (cover : Option VideoFrameEvidence) (candidates : List VideoFrameEvidence),
      (candidates.map (·.timestampSeconds)).Nodup →
      ∃ selected, selectRepresentativeFrames candidates profile cover = .ok selected ∧
        Representative profile cover candidates selected ∧
        ∀ candidates' : List VideoFrameEvidence, candidates'.Perm candidates →
          selectRepresentativeFrames candidates' profile cover = .ok selected) ∧
    ∀ (service : VideoFrameSamplingService) (content : List UInt8)
      (imageProfile : ImageNormalizationProfile) (given : Option ℚ) (durationSeconds : ℚ)
      (timestamps : List ℚ), content ≠ [] →
      service.durationOf content given = .ok durationSeconds →
      candidateTimestamps durationSeconds profile = .ok timestamps →
      (∀ t ∈ timestamps, service.Delivers content imageProfile t) →
      ∃ result, service.sample content profile imageProfile given = .ok result := by
  refine ⟨fun cover candidates h => ?_,
    fun _ _ _ _ _ _ hcontent hduration h hframes => exists_sample_eq hcontent hduration h hframes⟩
  obtain ⟨selected, hselect, hselected⟩ := exists_selectRepresentativeFrames_eq h profile cover
  refine ⟨selected, hselect, hselected, fun candidates' hperm => ?_⟩
  rw [← hselect, selectRepresentativeFrames, selectRepresentativeFrames,
    insertionSort_frames_eq h hperm]

/-! ## Four frames -/

theorem postInit_typical : VideoSamplingProfileFields.postInit {} = .ok () := by
  decide +kernel

/-- The typical profile. -/
def typicalProfile : VideoSamplingProfile := ⟨{}, postInit_typical⟩

/-- The arguments of a small artifact. -/
def smallArtifactFields (perceptualHash : String) : NormalizedImageArtifactFields where
  content := [0]
  contentType := "image/webp"
  width := 1
  height := 1
  sourceSha256 := "aaaaaaaaaaaaaaaaaaaaaaaaaaaaaaaaaaaaaaaaaaaaaaaaaaaaaaaaaaaaaaaa"
  archiveSha256 := "bbbbbbbbbbbbbbbbbbbbbbbbbbbbbbbbbbbbbbbbbbbbbbbbbbbbbbbbbbbbbbbb"
  perceptualHash := perceptualHash

theorem postInit_dark : (smallArtifactFields "0000000000000000").postInit = .ok () := by
  decide +kernel

/-- An artifact. -/
def darkArtifact : NormalizedImageArtifact := ⟨_, postInit_dark⟩

theorem postInit_bright : (smallArtifactFields "ffffffffffffffff").postInit = .ok () := by
  decide +kernel

/-- An artifact that differs in every bit of its hash. -/
def brightArtifact : NormalizedImageArtifact := ⟨_, postInit_bright⟩

/-- A frame of an artifact at a second. -/
def frameOf (artifact : NormalizedImageArtifact) (second : ℕ) : VideoFrameEvidence where
  timestampSeconds := second
  artifact := artifact
  checked := ensureValue_eq_ok.mpr (decide_eq_true (Nat.cast_nonneg second))

/-- Four candidates. With a dark cover at the start, the last dark one is the cover, the other
one is within the gap of the bright one at 3, which is chosen, and that at 5 looks like it. -/
def fourFrames : List VideoFrameEvidence :=
  [frameOf brightArtifact 5, frameOf darkArtifact 4, frameOf brightArtifact 3,
    frameOf darkArtifact 0]

/-- Collaborators that deliver one frame. -/
def stillService : VideoFrameSamplingService where
  probeDuration := fun _ => .ok 4
  extractFrame := fun _ _ => .ok [0]
  normalize := fun _ _ => .ok darkArtifact

theorem selectRepresentativeFrames_spec_still :
    Representative typicalProfile (some (frameOf darkArtifact 0)) fourFrames
        [frameOf brightArtifact 3] ∧
      selectRepresentativeFrames fourFrames.reverse typicalProfile
          (some (frameOf darkArtifact 0)) = .ok [frameOf brightArtifact 3] ∧
      ∃ result, stillService.sample [0] typicalProfile ⟨100, 80, by omega, by omega⟩ none =
        .ok result := by
  have hchosen : selectRepresentativeFrames fourFrames typicalProfile
      (some (frameOf darkArtifact 0)) = .ok [frameOf brightArtifact 3] := by
    decide +kernel
  obtain ⟨hselect, hsample⟩ := selectRepresentativeFrames_spec typicalProfile
  obtain ⟨selected, hselected, hrepresentative, hperm⟩ :=
    hselect (some (frameOf darkArtifact 0)) fourFrames (by decide +kernel)
  obtain rfl := Except.ok.inj (hselected.symm.trans hchosen)
  refine ⟨hrepresentative, hperm _ (List.reverse_perm _), ?_⟩
  exact hsample stillService [0] _ none 4 _ (by simp) rfl (candidateTimestamps_eq (by norm_num))
    fun t _ => ⟨[0], darkArtifact, rfl, rfl, rfl⟩

/-- Eleven seconds at a gap of two: seven candidates, less than the gap apart. -/
theorem not_respectsProfile_eleven :
    candidateTimestamps 11 typicalProfile = .ok [0, 11 / 6, 11 / 3, 11 / 2, 22 / 3, 55 / 6, 11] ∧
      ¬ RespectsProfile typicalProfile 11 [0, 11 / 6, 11 / 3, 11 / 2, 22 / 3, 55 / 6, 11] := by
  refine ⟨by decide +kernel, fun h => ?_⟩
  have hchain := h.spaced (by decide +kernel)
  rw [List.isChain_cons_cons] at hchain
  exact absurd hchain.1 (by decide +kernel)

/-- Ten seconds at a gap of two. -/
theorem respectsProfile_ten : ∃ timestamps, candidateTimestamps 10 typicalProfile = .ok timestamps ∧
    RespectsProfile typicalProfile 10 timestamps := by
  obtain ⟨timestamps, h, hiff⟩ :=
    respectsProfile_candidateTimestamps_iff (by norm_num : (0 : ℚ) < 10) typicalProfile
  refine ⟨timestamps, h, hiff.mpr (.inr (.inr ⟨5, ?_⟩))⟩
  decide +kernel

end TgCurator
