import TgCurator.Messages.Telegram

/-!
# The visual identity of a message

`message_visual_fingerprint` of `domain/messages/models.py` hashes the sorted perceptual
hashes of a message's images and video covers.

The text it hashes determines the multiset of hashes (`perm_of_fingerprintText_eq`): a
hash is hexadecimal, so the separator occurs in none. What the fingerprint does not see
is an image or a video without a hash, which the loop passes over. So it identifies the
pictures of two messages exactly when each has all its hashes or none
(`fingerprintIdentifies_iff`).
-/

namespace TgCurator

/-! ## The pictures of a message -/

/-- An image or a video. -/
def MediaAsset.isVisual (asset : MediaAsset) : Bool :=
  asset.kind = .image || asset.kind = .video

/-- The hashes the images and video covers have, case-folded. -/
def visualHashes (assets : List MediaAsset) : List String :=
  assets.filterMap (·.duplicateIdentityPhash)

/-- The number of images and videos. -/
def visualCount (assets : List MediaAsset) : ℕ :=
  assets.countP (·.isVisual)

/-- Every image and video has its hash. -/
def HashComplete (assets : List MediaAsset) : Prop :=
  ∀ asset ∈ assets, asset.isVisual = true → asset.duplicateIdentityPhash.isSome = true

instance (assets : List MediaAsset) : Decidable (HashComplete assets) :=
  inferInstanceAs (Decidable (∀ asset ∈ assets, asset.isVisual = true →
    asset.duplicateIdentityPhash.isSome = true))

theorem MediaAsset.isVisual_of_isSome {asset : MediaAsset}
    (h : asset.duplicateIdentityPhash.isSome = true) : asset.isVisual = true := by
  unfold duplicateIdentityPhash at h
  unfold isVisual
  cases hk : asset.kind <;> simp_all

/-- A message whose images and videos all have hashes has as many hashes as pictures. -/
theorem length_visualHashes {assets : List MediaAsset} (h : HashComplete assets) :
    (visualHashes assets).length = visualCount assets := by
  rw [visualHashes, visualCount, List.length_filterMap_eq_countP]
  refine List.countP_congr fun asset hmem => ?_
  exact ⟨MediaAsset.isVisual_of_isSome, h asset hmem⟩

/-! ## The text that is hashed -/

/-- The separator. -/
def fingerprintSeparator : Char := '\x1f'

/-- The text of the hashes. -/
def fingerprintText (assets : List MediaAsset) : String :=
  "message-visual-fingerprint:v1\x1f" ++
    "\x1f".intercalate ((visualHashes assets).insertionSort (· ≤ ·))

theorem messageVisualFingerprint_eq (sha256 : String → String) (assets : List MediaAsset) :
    messageVisualFingerprint sha256 assets =
      if visualHashes assets = [] then none else some (sha256 (fingerprintText assets)) := by
  have hperm := List.perm_insertionSort (· ≤ ·) (visualHashes assets)
  unfold messageVisualFingerprint fingerprintText
  rw [← visualHashes]
  split
  case h_1 hnil => rw [if_pos (List.Perm.nil_eq (hnil ▸ hperm)).symm]
  case h_2 hashes hcons =>
    rw [if_neg fun hnil => hcons (by rw [hnil]; rfl)]

/-- A hash an asset contributes is a case-folded hexadecimal text. -/
theorem MediaAsset.matches_of_duplicateIdentityPhash {asset : MediaAsset} {hash : String}
    (h : asset.duplicateIdentityPhash = some hash) :
    ∃ phash, matchesPhashPattern phash = true ∧ hash = phash.toLower := by
  have hc := asset.checked
  simp only [MediaAssetFields.postInit, seq_eq_ok] at hc
  obtain ⟨-, himage, hvideo, -⟩ := hc
  unfold duplicateIdentityPhash at h
  cases hk : asset.kind with
  | image =>
    simp only [hk] at h
    obtain ⟨phash, hp, rfl⟩ := Option.map_eq_some_iff.mp h
    rw [hp] at himage
    exact ⟨phash, ensure_eq_ok.mp himage, rfl⟩
  | video =>
    simp only [hk] at h
    obtain ⟨phash, hp, rfl⟩ := Option.map_eq_some_iff.mp h
    rw [hp] at hvideo
    exact ⟨phash, ensure_eq_ok.mp hvideo, rfl⟩
  | document | audio => simp [hk] at h

/-- A hexadecimal digit does not fold to the separator. -/
theorem toLower_ne_separator {c : Char} (h : '0' ≤ c) : c.toLower ≠ fingerprintSeparator := by
  unfold Char.toLower
  split_ifs with hu
  · intro he
    have hval : (c.val + 32).toNat = 31 := congrArg (UInt32.toNat ∘ Char.val) he
    have hl : 65 ≤ c.val.toNat := UInt32.le_iff_toNat_le.mp hu.1
    have hr : c.val.toNat ≤ 90 := UInt32.le_iff_toNat_le.mp hu.2
    rw [UInt32.toNat_add] at hval
    simp only [UInt32.reduceToNat] at hval
    omega
  · rintro rfl
    exact absurd h (by decide)

theorem separator_notMem_toLower {phash : String} (h : matchesPhashPattern phash = true) :
    fingerprintSeparator ∉ phash.toLower.toList := by
  change fingerprintSeparator ∉ (phash.map Char.toLower).toList
  rw [String.toList_map, List.mem_map]
  rintro ⟨c, hc, heq⟩
  simp only [matchesPhashPattern, Bool.and_eq_true, List.all_eq_true] at h
  have hhex := h.2 c hc
  simp only [Bool.or_eq_true, Bool.and_eq_true, decide_eq_true_eq] at hhex
  refine toLower_ne_separator ?_ heq
  rcases hhex with (⟨hc, -⟩ | ⟨hc, -⟩) | ⟨hc, -⟩
  · exact hc
  · exact (show '0' ≤ 'a' by decide).trans hc
  · exact (show '0' ≤ 'A' by decide).trans hc

theorem separator_notMem_visualHashes {assets : List MediaAsset} {hash : String}
    (h : hash ∈ visualHashes assets) : fingerprintSeparator ∉ hash.toList := by
  obtain ⟨asset, -, hasset⟩ := List.mem_filterMap.mp h
  obtain ⟨phash, hphash, rfl⟩ := asset.matches_of_duplicateIdentityPhash hasset
  exact separator_notMem_toLower hphash

/-- The sorted hashes are read back from the text by splitting it. -/
theorem splitOn_intercalate_hashes {assets : List MediaAsset} (hne : visualHashes assets ≠ []) :
    ("\x1f".intercalate ((visualHashes assets).insertionSort (· ≤ ·))).toList.splitOn
        fingerprintSeparator =
      ((visualHashes assets).insertionSort (· ≤ ·)).map String.toList := by
  rw [String.toList_intercalate]
  refine List.splitOn_intercalate fingerprintSeparator ?_ ?_
  · intro l hl
    obtain ⟨hash, hmem, rfl⟩ := List.mem_map.mp hl
    exact separator_notMem_visualHashes ((List.mem_insertionSort _).mp hmem)
  · intro hnil
    have hperm := List.perm_insertionSort (· ≤ ·) (visualHashes assets)
    exact hne (List.Perm.nil_eq (List.map_eq_nil_iff.mp hnil ▸ hperm)).symm

/-- Two texts that are equal are of one multiset of hashes. -/
theorem perm_of_fingerprintText_eq {assets assets' : List MediaAsset}
    (hne : visualHashes assets ≠ []) (hne' : visualHashes assets' ≠ [])
    (h : fingerprintText assets = fingerprintText assets') :
    (visualHashes assets).Perm (visualHashes assets') := by
  have htail := (String.append_right_inj _).mp h
  have hlists := splitOn_intercalate_hashes hne
  rw [htail, splitOn_intercalate_hashes hne'] at hlists
  have hinj : Function.Injective (List.map String.toList) :=
    List.map_injective_iff.mpr fun _ _ => String.toList_inj.mp
  have hsorted := List.Perm.of_eq (hinj hlists).symm
  exact (List.perm_insertionSort _ _).symm.trans (hsorted.trans (List.perm_insertionSort _ _))

/-- Permuted hashes have one text. -/
theorem fingerprintText_of_perm {assets assets' : List MediaAsset}
    (h : (visualHashes assets).Perm (visualHashes assets')) :
    fingerprintText assets = fingerprintText assets' := by
  have hsorted : (visualHashes assets).insertionSort (· ≤ ·) =
      (visualHashes assets').insertionSort (· ≤ ·) := by
    have hperm : ((visualHashes assets).insertionSort (· ≤ ·)).Perm
        ((visualHashes assets').insertionSort (· ≤ ·)) :=
      ((List.perm_insertionSort _ _).trans h).trans (List.perm_insertionSort _ _).symm
    exact hperm.eq_of_pairwise (fun _ _ _ _ hab hba => le_antisymm hab hba)
      (List.pairwise_insertionSort _ _) (List.pairwise_insertionSort _ _)
  unfold fingerprintText
  rw [hsorted]

/-! ## What the fingerprint identifies -/

/-- SHA-256 has no collision on the texts of two messages. -/
def FingerprintCollisionFree (sha256 : String → String) (assets assets' : List MediaAsset) : Prop :=
  sha256 (fingerprintText assets) = sha256 (fingerprintText assets') →
    fingerprintText assets = fingerprintText assets'

/-- The fingerprints of two messages identify their multisets of pictures. -/
structure FingerprintIdentifies (sha256 : String → String) (assets assets' : List MediaAsset) :
    Prop where
  /-- One fingerprint is of as many pictures with the same hashes. -/
  sound : ∀ fingerprint, messageVisualFingerprint sha256 assets = some fingerprint →
    messageVisualFingerprint sha256 assets' = some fingerprint →
    visualCount assets = visualCount assets' ∧ (visualHashes assets).Perm (visualHashes assets')
  /-- The same complete hashes have one fingerprint. -/
  complete : HashComplete assets → HashComplete assets' →
    (visualHashes assets).Perm (visualHashes assets') →
    messageVisualFingerprint sha256 assets = messageVisualFingerprint sha256 assets'
  /-- A message with a fingerprint has all its hashes. -/
  asserted : (messageVisualFingerprint sha256 assets).isSome = true → HashComplete assets
  asserted' : (messageVisualFingerprint sha256 assets').isSome = true → HashComplete assets'

theorem isSome_messageVisualFingerprint (sha256 : String → String) (assets : List MediaAsset) :
    (messageVisualFingerprint sha256 assets).isSome = true ↔ visualHashes assets ≠ [] := by
  rw [messageVisualFingerprint_eq]
  split_ifs with h <;> simp [h]

/-- The fingerprints of two messages identify their pictures exactly when each message has
the hash of every image and video or of none. -/
theorem fingerprintIdentifies_iff {sha256 : String → String} {assets assets' : List MediaAsset}
    (hsha : FingerprintCollisionFree sha256 assets assets') :
    FingerprintIdentifies sha256 assets assets' ↔
      (HashComplete assets ∨ visualHashes assets = []) ∧
        (HashComplete assets' ∨ visualHashes assets' = []) := by
  constructor
  · rintro ⟨-, -, hasserted, hasserted'⟩
    rw [isSome_messageVisualFingerprint] at hasserted hasserted'
    exact ⟨(em _).symm.imp_left hasserted, (em _).symm.imp_left hasserted'⟩
  · rintro ⟨h, h'⟩
    have hasserted : ∀ {assets : List MediaAsset}, HashComplete assets ∨ visualHashes assets = [] →
        (messageVisualFingerprint sha256 assets).isSome = true → HashComplete assets := by
      intro assets h hsome
      exact h.resolve_right ((isSome_messageVisualFingerprint _ _).mp hsome)
    refine ⟨?_, ?_, hasserted h, hasserted h'⟩
    · intro fingerprint hf hf'
      have hc := hasserted h (hf ▸ rfl)
      have hc' := hasserted h' (hf' ▸ rfl)
      rw [messageVisualFingerprint_eq] at hf hf'
      split_ifs at hf hf' with hne hne'
      have htext := hsha (Option.some.inj (hf.trans hf'.symm))
      have hperm := perm_of_fingerprintText_eq hne hne' htext
      exact ⟨by rw [← length_visualHashes hc, ← length_visualHashes hc', hperm.length_eq], hperm⟩
    · intro _ _ hperm
      have hnil : visualHashes assets = [] ↔ visualHashes assets' = [] :=
        ⟨fun hn => (hn ▸ hperm).nil_eq.symm, fun hn => (hn ▸ hperm).symm.nil_eq.symm⟩
      rw [messageVisualFingerprint_eq, messageVisualFingerprint_eq, fingerprintText_of_perm hperm]
      simp only [hnil]

/-! ## Photos, one without a hash -/

/-- The arguments of a photo. -/
def photoFields (assetId : String) (phash : Option String) : MediaAssetFields where
  assetId := assetId
  kind := .image
  originalVisualPhash := phash

theorem postInit_hashed :
    (photoFields "image-1" (some "A1A1A1A1A1A1A1A1")).postInit = .ok () := by
  decide +kernel

theorem postInit_unhashed : (photoFields "image-2" none).postInit = .ok () := by
  decide +kernel

/-- A photo with its hash. -/
def hashedPhoto : MediaAsset := ⟨_, postInit_hashed⟩

/-- A photo whose hash is missing. -/
def unhashedPhoto : MediaAsset := ⟨_, postInit_unhashed⟩

/-- An album with a hash missing has the fingerprint of the one photo that has its hash. -/
theorem album_fingerprint_eq :
    messageVisualFingerprint id [hashedPhoto, unhashedPhoto] =
        messageVisualFingerprint id [hashedPhoto] ∧
      (messageVisualFingerprint id [hashedPhoto]).isSome = true ∧
      ¬ FingerprintIdentifies id [hashedPhoto, unhashedPhoto] [hashedPhoto] := by
  have hphoto : (messageVisualFingerprint id [hashedPhoto]).isSome = true := by decide +kernel
  refine ⟨rfl, hphoto, fun h => ?_⟩
  obtain ⟨fingerprint, hf⟩ := Option.isSome_iff_exists.mp hphoto
  exact absurd (h.sound fingerprint hf hf).1 (by decide)

/-- Another photo. -/
def otherPhoto : MediaAsset :=
  ⟨photoFields "image-3" (some "B2B2B2B2B2B2B2B2"), by decide +kernel⟩

/-- A copy of the first photo, with its hash in small letters. -/
def copiedPhoto : MediaAsset :=
  ⟨photoFields "image-4" (some "a1a1a1a1a1a1a1a1"), by decide +kernel⟩

theorem duplicateIdentityPhash_hashedPhoto :
    hashedPhoto.duplicateIdentityPhash = some "a1a1a1a1a1a1a1a1" := by
  decide +kernel

theorem duplicateIdentityPhash_copiedPhoto :
    copiedPhoto.duplicateIdentityPhash = some "a1a1a1a1a1a1a1a1" := by
  decide +kernel

/-- An album in the other order with a copy of one photo has the same fingerprint. -/
theorem fingerprintIdentifies_copied :
    FingerprintIdentifies id [hashedPhoto, otherPhoto] [otherPhoto, copiedPhoto] ∧
      messageVisualFingerprint id [hashedPhoto, otherPhoto] =
        messageVisualFingerprint id [otherPhoto, copiedPhoto] := by
  have hcomplete : HashComplete [hashedPhoto, otherPhoto] := by decide +kernel
  have hcomplete' : HashComplete [otherPhoto, copiedPhoto] := by decide +kernel
  have h : FingerprintIdentifies id [hashedPhoto, otherPhoto] [otherPhoto, copiedPhoto] :=
    (fingerprintIdentifies_iff (show FingerprintCollisionFree id _ _ from fun h => h)).mpr
      ⟨.inl hcomplete, .inl hcomplete'⟩
  have hcopied : visualHashes [otherPhoto, copiedPhoto] =
      visualHashes [otherPhoto, hashedPhoto] := by
    simp only [visualHashes, List.filterMap_cons, duplicateIdentityPhash_copiedPhoto,
      duplicateIdentityPhash_hashedPhoto]
  refine ⟨h, h.complete hcomplete hcomplete' ?_⟩
  rw [hcopied]
  exact (List.Perm.swap ..).filterMap _

end TgCurator
