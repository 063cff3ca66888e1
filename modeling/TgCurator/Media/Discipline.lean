import TgCurator.Media.Workers

/-!
# The discipline of the archive workers

What the archive workers rely on of each other. Files and ended assets stay as they are, a lease
token stays with the process it was granted to, and an asset is marked ready only by the process
that its current token was granted to, with columns of objects that the archive holds
(`archiveDiscipline`).

The workers follow it (`ImageArchiveWorker.ensures_process`,
`VideoArchiveWorker.ensures_process`): what was put is held, and what is held has the size that is
read back and the digest that the codec gave it.
-/

namespace TgCurator

open Processes

/-! ## Files -/

/-- The archive holds a content under a key. -/
def ArchiveObjects.Holds (objects : ArchiveObjects) (key : String) (content : List UInt8) : Prop :=
  ∃ target, targetFor key = .ok target ∧ objects.lookup target = some content

/-- The archive holds an object of a digest and a size under a key. -/
def ArchiveObjects.Stores (sha256 : List UInt8 → String) (objects : ArchiveObjects)
    (key archiveSha256 : String) (archiveSizeBytes : ℕ) : Prop :=
  ∃ content, objects.Holds key content ∧ sha256 content = archiveSha256 ∧
    content.length = archiveSizeBytes

/-- What there is of files stays. -/
def ArchiveObjects.Grows (objects objects' : ArchiveObjects) : Prop :=
  ∀ target content, objects.lookup target = some content → objects'.lookup target = some content

section

variable {objects objects' : ArchiveObjects} {sha256 : List UInt8 → String}

theorem ArchiveObjects.Grows.holds (h : objects.Grows objects') {key : String}
    {content : List UInt8} (hholds : objects.Holds key content) : objects'.Holds key content := by
  obtain ⟨target, htarget, hlookup⟩ := hholds
  exact ⟨target, htarget, h target content hlookup⟩

theorem ArchiveObjects.Grows.stores (h : objects.Grows objects') {key archiveSha256 : String}
    {archiveSizeBytes : ℕ} (hstores : objects.Stores sha256 key archiveSha256 archiveSizeBytes) :
    objects'.Stores sha256 key archiveSha256 archiveSizeBytes := by
  obtain ⟨content, hholds, hdigest⟩ := hstores
  exact ⟨content, h.holds hholds, hdigest⟩

/-- A file that is linked is a new one. -/
theorem ArchiveObjects.grows_set {target : ArchivePath} (h : target ∉ objects.keys)
    (content : List UInt8) : objects.Grows (objects.set target content) := by
  intro target' content' hlookup
  rw [Dict.lookup_set_of_ne, hlookup]
  rintro rfl
  exact h (Dict.mem_keys.mpr ⟨_, Dict.mem_of_lookup hlookup⟩)

end

/-! ## Tables -/

namespace ArchiveTables

variable {D : Type}

/-- What is kept of the assets of a queue and of the holders of their leases, with what is to hold
of the columns of a ready asset. -/
structure Sound (intact : D → Prop) (t : ArchiveTables D) (holders : ℕ → Option ℕ) : Prop where
  ready : ∀ id row, t.assets.lookup id = some row → row.archiveState = .ready →
    ∃ archived, row.archived = some archived ∧ intact archived
  attempts : ∀ id row, t.assets.lookup id = some row →
    row.archiveAttemptCount ≤ row.archiveMaxAttempts
  fresh : ∀ leaseToken, t.nextToken ≤ leaseToken → holders leaseToken = none

/-- Ended assets, but for the message they are found in, and the holders of tokens stay. -/
structure Grows (t : ArchiveTables D) (holders : ℕ → Option ℕ) (t' : ArchiveTables D)
    (holders' : ℕ → Option ℕ) : Prop where
  ended : ∀ id row, t.assets.lookup id = some row → row.archiveState.isActive = false →
    ∃ sourceTelegramMessageId, t'.assets.lookup id = some { row with sourceTelegramMessageId }
  holders : ∀ leaseToken i, holders leaseToken = some i → holders' leaseToken = some i

theorem Grows.refl (t : ArchiveTables D) (holders : ℕ → Option ℕ) : t.Grows holders t holders :=
  ⟨fun _ row hrow _ => ⟨row.sourceTelegramMessageId, hrow⟩, fun _ _ h => h⟩

theorem Grows.trans {t t' t'' : ArchiveTables D} {holders holders' holders'' : ℕ → Option ℕ}
    (h : t.Grows holders t' holders') (h' : t'.Grows holders' t'' holders'') :
    t.Grows holders t'' holders'' := by
  refine ⟨fun id row hrow hended => ?_,
    fun leaseToken i hi => h'.holders leaseToken i (h.holders leaseToken i hi)⟩
  obtain ⟨_, hrow'⟩ := h.ended id row hrow hended
  obtain ⟨_, hrow''⟩ := h'.ended id _ hrow' hended
  exact ⟨_, hrow''⟩

theorem Sound.imp {intact intact' : D → Prop} {t : ArchiveTables D} {holders : ℕ → Option ℕ}
    (h : t.Sound intact holders) (himp : ∀ archived, intact archived → intact' archived) :
    t.Sound intact' holders := by
  refine ⟨fun id row hrow hready => ?_, h.attempts, h.fresh⟩
  obtain ⟨archived, harchived, hintact⟩ := h.ready id row hrow hready
  exact ⟨archived, harchived, himp _ hintact⟩

end ArchiveTables

/-- A call that is allowed to a process: it marks ready under a token of its own, and only what is
intact. -/
def ArchiveCall.Allowed {D : Type} (intact : D → Prop) (holders : ℕ → Option ℕ) (i : ℕ) :
    ArchiveCall D → Prop
  | .markReady held _ archived _ => holders held.leaseToken = some i ∧ intact archived
  | .claim .. | .fail .. | .completeWakeupIfTerminal .. => True

namespace ArchiveTables

variable {D : Type} {queue : String} {t t' : ArchiveTables D} {call : ArchiveCall D}
  {r : call.Answer} {holders : ℕ → Option ℕ} {intact : D → Prop} {i : ℕ}

theorem effect_transact (h : t.transact queue call = .ok (t', r)) :
    Effect queue t (t.perform queue call).2 t' := by
  have heffect := effect_perform queue t call
  cases call with
  | claim assetId now leaseDuration =>
    obtain ⟨rfl, -⟩ := Prod.mk.inj (Except.ok.inj h)
    exact heffect
  | markReady claim assetId archived archivedAt =>
    obtain ⟨rfl, -⟩ := Prod.mk.inj (Except.ok.inj h)
    have hperform : (t.perform queue (.markReady claim assetId archived archivedAt)).1 =
        (t.markReady claim assetId archived archivedAt).1 := by
      dsimp only [perform]
      split <;> simp_all
    rwa [hperform] at heffect
  | fail claim errorCode errorType retryable retryAt now =>
    have hperform : (t.perform queue (.fail claim errorCode errorType retryable retryAt now)).1 =
        t' := by
      rw [transact] at h
      dsimp only [perform]
      rw [h]
    rwa [hperform] at heffect
  | completeWakeupIfTerminal assetId now =>
    obtain ⟨rfl, -⟩ := Prod.mk.inj (Except.ok.inj h)
    exact heffect

/-- A call that marks ready publishes the columns that it gives, under the current token. -/
theorem markReady_cases (t : ArchiveTables D) (claim : ClaimedArchive) (assetId : ℕ) (archived : D)
    (archivedAt : ℤ) : (t.markReady claim assetId archived archivedAt).1 = t ∨
      ∃ row, t.Held assetId claim.leaseToken row ∧
        (t.markReady claim assetId archived archivedAt).1 =
          { t with assets := t.assets.set assetId (row.publish archived archivedAt) } := by
  rw [markReady]
  split
  · exact .inl rfl
  · next row hrow =>
    obtain ⟨hheld, hid⟩ := Option.filter_eq_some_iff.mp hrow
    obtain rfl := of_decide_eq_true hid
    exact .inr ⟨row, held_of_heldRow hheld, rfl⟩

/-- Only a call under the current token makes an asset ready, with the columns that it gives. -/
theorem ready_of_transact (h : t.transact queue call = .ok (t', r)) {id : ℕ}
    {row' : ArchiveAssetRecord D} (hrow' : t'.assets.lookup id = some row')
    (hready : row'.archiveState = .ready) :
    t.assets.lookup id = some row' ∨ ∃ claim archived archivedAt row,
      call = .markReady claim id archived archivedAt ∧ t.Held id claim.leaseToken row ∧
        row'.archived = some archived := by
  rcases (effect_transact h).of_lookup hrow' with hold | ⟨row, hturned⟩
  · exact .inl hold
  obtain ⟨leaseToken, hevent, hheld⟩ := hturned.ready hready
  cases call with
  | claim assetId now leaseDuration =>
    obtain ⟨claim, -, hclaim⟩ := Option.map_eq_some_iff.mp hevent
    cases hclaim
  | markReady claim assetId archived archivedAt =>
    have hpair : t.markReady claim assetId archived archivedAt = (t', r) := Except.ok.inj h
    have hcases := t.markReady_cases claim assetId archived archivedAt
    rw [hpair] at hcases
    rcases hcases with rfl | ⟨row, hheld, rfl⟩
    · exact .inl hrow'
    · rcases Dict.of_lookup_set hrow' with ⟨rfl, rfl⟩ | ⟨-, hold⟩
      · exact .inr ⟨claim, archived, archivedAt, row, rfl, hheld, rfl⟩
      · exact .inl hold
  | fail claim errorCode errorType retryable retryAt now =>
    dsimp only [perform] at hevent
    split at hevent <;> cases hevent
  | completeWakeupIfTerminal assetId now => cases hevent

/-- A claim is granted the next token. -/
theorem leaseToken_of_claim {assetId : ℕ} {now leaseDuration : ℤ} {claim : ClaimedArchive}
    (h : ArchiveTables.claim queue t assetId now leaseDuration = (t', some claim)) :
    claim.leaseToken = t.nextToken ∧ t'.nextToken = t.nextToken + 1 := by
  rw [ArchiveTables.claim] at h
  split at h
  · cases h
  · split_ifs at h
    · cases h
    · obtain ⟨rfl, hclaim⟩ := Prod.mk.inj h
      obtain rfl := Option.some.inj hclaim
      exact ⟨rfl, rfl⟩

/-- A new token is granted to the process that calls, and no other is. -/
theorem grantTo_eq (h : t.transact queue call = .ok (t', r)) (leaseToken : ℕ) :
    grantTo holders i call r leaseToken = holders leaseToken ∨
      leaseToken = t.nextToken ∧ t'.nextToken = t.nextToken + 1 := by
  cases call with
  | claim assetId now leaseDuration =>
    have hclaim : ArchiveTables.claim queue t assetId now leaseDuration = (t', r) :=
      Except.ok.inj h
    cases r with
    | none => exact .inl rfl
    | some claim =>
      obtain ⟨htoken, hnext⟩ := leaseToken_of_claim hclaim
      rcases eq_or_ne leaseToken claim.leaseToken with heq | hne
      · exact .inr ⟨heq.trans htoken, hnext⟩
      · exact .inl (Function.update_of_ne hne ..)
  | _ => exact .inl rfl

/-- A call that is allowed keeps what is kept of the assets. -/
theorem Sound.transact (hsound : t.Sound intact holders) (hallowed : call.Allowed intact holders i)
    (h : t.transact queue call = .ok (t', r)) :
    t'.Sound intact (grantTo holders i call r) ∧
      t.Grows holders t' (grantTo holders i call r) := by
  have heffect := effect_transact h
  refine ⟨⟨fun id row hrow hready => ?_, fun id row hrow => ?_, fun leaseToken hle => ?_⟩,
    ⟨fun id row hrow hended => ⟨_, heffect.lookup_of_ended hrow hended⟩,
      fun leaseToken j hj => ?_⟩⟩
  · rcases ready_of_transact h hrow hready with hold | ⟨claim, archived, _, _, rfl, -, harchived⟩
    · exact hsound.ready id row hold hready
    · exact ⟨archived, harchived, hallowed.2⟩
  · rcases heffect.of_lookup hrow with hold | ⟨row₀, hturned⟩
    · exact hsound.attempts id row hold
    · exact hturned.bounded (hsound.attempts id row₀ hturned.found)
  · rcases @grantTo_eq _ _ _ _ _ _ holders i h leaseToken with heq | ⟨rfl, hnext⟩
    · rw [heq]
      exact hsound.fresh leaseToken (heffect.nextToken_le.trans hle)
    · omega
  · rcases @grantTo_eq _ _ _ _ _ _ holders i h leaseToken with heq | ⟨rfl, -⟩
    · rw [heq, hj]
    · rw [hsound.fresh _ le_rfl] at hj
      cases hj

end ArchiveTables

/-! ## The discipline -/

section

variable (sha256 : List UInt8 → String)

/-- The archive holds what a ready image records. -/
def ImageIntact (objects : ArchiveObjects) (archive : ImageArchive) : Prop :=
  objects.Stores sha256 archive.storageKey archive.archiveSha256 archive.archiveSizeBytes

/-- The archive holds what a ready video records of its frames. -/
def VideoIntact (objects : ArchiveObjects) (archive : VideoArchive) : Prop :=
  ∀ frame ∈ archive.frames,
    objects.Stores sha256 frame.storageKey frame.archiveSha256 frame.archiveSizeBytes

/-- What is kept of the tables and the files. -/
structure ArchiveServices.Sound (s : ArchiveServices) : Prop where
  images : s.images.Sound (ImageIntact sha256 s.objects) s.imageHolders
  videos : s.videos.Sound (VideoIntact sha256 s.objects) s.videoHolders

/-- How the tables and the files grow. -/
structure ArchiveServices.Grows (s t : ArchiveServices) : Prop where
  objects : s.objects.Grows t.objects
  images : s.images.Grows s.imageHolders t.images t.imageHolders
  videos : s.videos.Grows s.videoHolders t.videos t.videoHolders

/-- The calls that a process is allowed. -/
def ServiceCall.Allowed (i : ℕ) (s : ArchiveServices) : ServiceCall → Prop
  | .image call => call.Allowed (ImageIntact sha256 s.objects) s.imageHolders i
  | .video call => call.Allowed (VideoIntact sha256 s.objects) s.videoHolders i
  | _ => True

variable {sha256} {i : ℕ} {s t u : ArchiveServices}

theorem ArchiveServices.Grows.refl (s : ArchiveServices) : s.Grows s :=
  ⟨fun _ _ h => h, .refl _ _, .refl _ _⟩

theorem ArchiveServices.Grows.trans (h : s.Grows t) (h' : t.Grows u) : s.Grows u :=
  ⟨fun target content hs => h'.objects target content (h.objects target content hs),
    h.images.trans h'.images, h.videos.trans h'.videos⟩

theorem ArchiveServices.Sound.link (h : s.Sound sha256) {target : ArchivePath}
    (htarget : target ∉ s.objects.keys) (content : List UInt8) :
    ({ s with objects := s.objects.set target content } : ArchiveServices).Sound sha256 ∧
      s.Grows { s with objects := s.objects.set target content } := by
  have hgrows := ArchiveObjects.grows_set htarget content
  refine ⟨⟨h.images.imp fun _ => hgrows.stores, h.videos.imp fun _ hframes frame hframe => ?_⟩,
    ⟨hgrows, .refl _ _, .refl _ _⟩⟩
  exact hgrows.stores (hframes frame hframe)

/-- A call that is performed as allowed keeps what is kept. -/
theorem Performs.keeps {c : ServiceCall} {r : c.Answer} (h : Performs i s c r t)
    (hsound : s.Sound sha256) (hallowed : c.Allowed sha256 i s) :
    t.Sound sha256 ∧ s.Grows t := by
  cases h with
  | image h =>
    obtain ⟨himages, hgrows⟩ := hsound.images.transact hallowed h
    exact ⟨⟨himages, hsound.videos⟩, ⟨fun _ _ h => h, hgrows, .refl _ _⟩⟩
  | video h =>
    obtain ⟨hvideos, hgrows⟩ := hsound.videos.transact hallowed h
    exact ⟨⟨hsound.images, hvideos⟩, ⟨fun _ _ h => h, .refl _ _, hgrows⟩⟩
  | linked content htarget => exact hsound.link htarget content
  | _ => exact ⟨hsound, .refl s⟩

variable (sha256)

/-- The workers' discipline. -/
def archiveDiscipline : Discipline Serves where
  Inv := ArchiveServices.Sound sha256
  Grows := ArchiveServices.Grows
  Allowed i s c := c.Allowed sha256 i s
  refl := ArchiveServices.Grows.refl
  trans := ArchiveServices.Grows.trans
  keeps := by
    intro i s c r s' hsound hallowed hserves
    cases hserves with
    | answered h => exact h.keeps hsound hallowed
    | lost h => exact h.keeps hsound hallowed
    | refused => exact ⟨hsound, .refl s⟩

/-! ## Storage -/

variable {sha256} {α : Type}

/-- A call that is allowed has what it is performed with, later on. -/
theorem ensures_call {c : ServiceCall} {Q : ArchiveServices → c.Answer → Prop}
    (hallowed : ∀ t, s.Grows t → t.Sound sha256 → c.Allowed sha256 i t)
    (h : ∀ t r u, s.Grows t → t.Sound sha256 → Performs i t c r u → ∀ v, u.Grows v → Q v r) :
    Ensures (archiveDiscipline sha256) i s (ArchiveProgram.call c) Q := by
  refine Ensures.request hallowed fun t r u hst ht hserves v huv _ => ?_
  cases hserves with
  | answered hperforms => exact h t r u hst ht hperforms v huv

/-- A call that any process is allowed. -/
theorem ensures_call_true {c : ServiceCall} (hallowed : ∀ t, c.Allowed sha256 i t) :
    Ensures (archiveDiscipline sha256) i s (ArchiveProgram.call c) fun _ _ => True :=
  ensures_call (fun t _ _ => hallowed t) fun _ _ _ _ _ _ _ _ => trivial

theorem ensures_check {x : Except SamplingError α} :
    Ensures (archiveDiscipline sha256) i s (ArchiveProgram.check x) fun _ a => x = .ok a := by
  refine Ensures.compute fun a ha _ _ _ => ?_
  cases x with
  | ok b => exact congrArg Except.ok (Except.ok.inj ha)
  | error e => cases ha

theorem ensures_checkDomain {x : Except PyError α} :
    Ensures (archiveDiscipline sha256) i s (ArchiveProgram.checkDomain x) fun _ a => x = .ok a := by
  refine ensures_check.imp fun _ a _ ha => ?_
  cases x with
  | ok b => exact congrArg Except.ok (Except.ok.inj ha)
  | error e => cases ha

namespace LocalArchiveStorage

variable {target : ArchivePath} {content : List UInt8} {key : String}

theorem ensures_existingSizeOrConflict :
    Ensures (archiveDiscipline sha256) i s (existingSizeOrConflict target content) fun t _ =>
      t.objects.lookup target = some content := by
  refine Ensures.bind (ensures_call_true fun _ => trivial) fun t _ _ _ _ => ?_
  refine Ensures.bind (Q := fun t existing => t.objects.lookup target = some existing) ?_ ?_
  · refine ensures_call (fun _ _ _ => trivial) fun t r u _ _ hperforms v huv => ?_
    cases hperforms with
    | readBytes hlookup => exact huv.objects _ _ hlookup
  · intro u existing _ _ hlookup
    split_ifs with hsame
    · subst hsame
      exact Ensures.pure fun v huv _ => huv.objects _ _ hlookup
    · exact Ensures.throw _

theorem ensures_publish :
    Ensures (archiveDiscipline sha256) i s (publish target content) fun t _ =>
      t.objects.lookup target = some content := by
  refine Ensures.bind (ensures_call_true fun _ => trivial) fun t _ _ _ _ => ?_
  refine Ensures.bind
    (Q := fun t linked => linked = true → t.objects.lookup target = some content) ?_ ?_
  · refine ensures_call (fun _ _ _ => trivial) fun t r u _ _ hperforms v huv hlinked => ?_
    cases hperforms with
    | linked => exact huv.objects _ _ (Dict.lookup_set_self ..)
    | notLinked => cases hlinked
  · intro u linked _ _ hlookup
    split_ifs with hlinked
    · refine Ensures.bind (ensures_call_true fun _ => trivial) fun v _ huv _ _ => ?_
      exact Ensures.pure fun w hvw _ => (huv.trans hvw).objects _ _ (hlookup hlinked)
    · exact ensures_existingSizeOrConflict

theorem ensures_putSync :
    Ensures (archiveDiscipline sha256) i s (putSync key content) fun t _ =>
      t.objects.Holds key content := by
  refine Ensures.bind (Q := fun _ target => targetFor key = .ok target)
    (Ensures.compute fun _ h _ _ _ => h) fun t target _ _ htarget => ?_
  have hholds : ∀ (p : ArchiveProgram ℕ) (t : ArchiveServices),
      Ensures (archiveDiscipline sha256) i t p
        (fun t _ => t.objects.lookup target = some content) →
      Ensures (archiveDiscipline sha256) i t p fun t _ => t.objects.Holds key content :=
    fun p t h => h.imp fun u _ _ hu => ⟨target, htarget, hu⟩
  refine Ensures.bind (ensures_call_true fun _ => trivial) fun t _ _ _ _ => ?_
  refine Ensures.bind (ensures_call_true fun _ => trivial) fun t exist _ _ _ => ?_
  split_ifs
  · exact hholds _ _ ensures_existingSizeOrConflict
  · refine Ensures.bind (ensures_call_true fun _ => trivial) fun t _ _ _ _ => ?_
    refine ensures_publish.attempt.bind fun t published _ _ hpublished => ?_
    refine Ensures.bind (ensures_call_true fun _ => trivial) fun u _ htu _ _ => hholds _ _ ?_
    exact Ensures.compute fun a ha v huv _ =>
      (htu.trans huv).objects _ _ (hpublished a ha)

/-- What is put is held. -/
theorem ensures_put {contentType : String} :
    Ensures (archiveDiscipline sha256) i s (put key content contentType) fun t _ =>
      t.objects.Holds key content :=
  ensures_check.bind fun _ _ _ _ _ => ensures_putSync

/-- The size of what is held is that of its content. -/
theorem ensures_size (h : s.objects.Holds key content) :
    Ensures (archiveDiscipline sha256) i s (size key) fun _ n => n = content.length := by
  obtain ⟨target, htarget, hlookup⟩ := h
  refine Ensures.bind (Q := fun _ target => targetFor key = .ok target)
    (Ensures.compute fun _ h _ _ _ => h) fun t target' hst _ htarget' => ?_
  obtain rfl := Except.ok.inj (htarget.symm.trans htarget')
  refine Ensures.bind (ensures_call_true fun _ => trivial) fun u _ htu _ _ => ?_
  refine ensures_call (fun _ _ _ => trivial) fun v r w huv _ hperforms _ _ => ?_
  cases hperforms with
  | fileSize hlookup' =>
    have hlater := huv.objects _ _ (htu.objects _ _ (hst.objects _ _ hlookup))
    rw [Option.some.inj (hlater.symm.trans hlookup')]

end LocalArchiveStorage

/-! ## Images and frames -/

/-- An artifact has the digest of its content. -/
def NormalizedImageArtifact.Digested (sha256 : List UInt8 → String)
    (artifact : NormalizedImageArtifact) : Prop :=
  artifact.archiveSha256 = sha256 artifact.content

theorem NormalizedImageArtifactFields.create_eq_ok {fields : NormalizedImageArtifactFields}
    {artifact : NormalizedImageArtifact} (h : fields.create = .ok artifact) :
    artifact.toNormalizedImageArtifactFields = fields := by
  rw [create] at h
  split at h
  · rw [← Except.ok.inj h]
  · cases h

theorem NormalizedImageArtifactFields.create_of_postInit {fields : NormalizedImageArtifactFields}
    (h : fields.postInit = .ok ()) : fields.create = .ok ⟨fields, h⟩ := by
  rw [create]
  split
  · rfl
  · next e he => cases he.symm.trans h

theorem VideoFrameEvidenceFields.create_eq_ok {fields : VideoFrameEvidenceFields}
    {frame : VideoFrameEvidence} (h : fields.create = .ok frame) :
    frame.toVideoFrameEvidenceFields = fields := by
  rw [create] at h
  split at h
  · rw [← Except.ok.inj h]
  · cases h

theorem VideoSamplingResultFields.create_eq_ok {fields : VideoSamplingResultFields}
    {result : VideoSamplingResult} (h : fields.create = .ok result) :
    result.toVideoSamplingResultFields = fields := by
  rw [create] at h
  split at h
  · rw [← Except.ok.inj h]
  · cases h

theorem mem_of_selectRepresentativeFrames {candidates selected : List VideoFrameEvidence}
    {profile : VideoSamplingProfile} {cover : Option VideoFrameEvidence}
    (h : selectRepresentativeFrames candidates profile cover = .ok selected) :
    ∀ frame ∈ selected, frame ∈ candidates := by
  obtain ⟨selected', hscan, hsub⟩ := Greedy.exists_scan_eq profile.separated cover.toList
    profile.maxRepresentativeFrames (candidates.insertionSort VideoFrameEvidence.LE) []
  rw [selectRepresentativeFrames, selectLoop_eq, hscan, List.nil_append, Except.ok.injEq] at h
  subst h
  exact fun frame hframe => (List.mem_insertionSort _).mp (hsub.subset hframe)

theorem mem_of_coverOf {profile : VideoSamplingProfile} {evidence : List VideoFrameEvidence}
    {frame : VideoFrameEvidence} (h : coverOf profile evidence = some frame) :
    frame ∈ evidence := by
  rw [coverOf] at h
  split_ifs at h
  exact List.mem_of_head? h

theorem ensures_normalizeImage {content : List UInt8} {profile : ImageNormalizationProfile} :
    Ensures (archiveDiscipline sha256) i s (normalizeImage sha256 content profile) fun _ artifact =>
      artifact.Digested sha256 := by
  rw [normalizeImage]
  split_ifs
  · exact Ensures.throw _
  · refine Ensures.bind (ensures_call_true fun _ => trivial) fun t encoded _ _ _ => ?_
    refine ensures_check.imp fun _ artifact _ h => ?_
    rw [NormalizedImageArtifact.Digested, NormalizedImageArtifactFields.create_eq_ok h,
      EncodedImage.artifactFields]

/-- What is normalized and archived is held. -/
theorem ensures_normalizeAndArchive {content : List UInt8} {storageKey : String}
    {profile : ImageNormalizationProfile} :
    Ensures (archiveDiscipline sha256) i s (normalizeAndArchive sha256 content storageKey profile)
      fun t artifact => artifact.Digested sha256 ∧ t.objects.Holds storageKey artifact.content := by
  refine ensures_normalizeImage.bind fun t artifact _ _ hartifact => ?_
  refine Ensures.bind LocalArchiveStorage.ensures_put fun u _ _ _ hholds => ?_
  exact Ensures.pure fun v huv _ => ⟨hartifact, huv.objects.holds hholds⟩

theorem ensures_sampleFrame {content : List UInt8} {imageProfile : ImageNormalizationProfile}
    {timestampSeconds : ℚ} :
    Ensures (archiveDiscipline sha256) i s
      (sampleFrame sha256 content imageProfile timestampSeconds) fun _ frame =>
        frame.artifact.Digested sha256 := by
  refine Ensures.bind (ensures_call_true fun _ => trivial) fun t frameContent _ _ _ => ?_
  split_ifs
  · exact Ensures.throw _
  · refine ensures_normalizeImage.bind fun u artifact _ _ hartifact => ?_
    refine ensures_check.imp fun _ frame _ h => ?_
    rw [VideoFrameEvidenceFields.create_eq_ok h]
    exact hartifact

/-- The evidence of a video has the digests of its contents. -/
theorem ensures_sampleFrames {content : List UInt8} {samplingProfile : VideoSamplingProfile}
    {imageProfile : ImageNormalizationProfile} {durationSeconds : ℚ} :
    Ensures (archiveDiscipline sha256) i s
      (sampleFrames sha256 content samplingProfile imageProfile durationSeconds) fun _ sampled =>
        ∀ e ∈ VideoArchiveWorker.evidenceOf sampled, e.2.2.artifact.Digested sha256 := by
  refine ensures_checkDomain.bind fun _ _ _ _ _ => ?_
  refine ensures_checkDomain.bind fun _ _ _ _ _ => ?_
  refine ensures_checkDomain.bind fun _ timestamps _ _ _ => ?_
  refine Ensures.bind (Ensures.forEach (fun _ _ _ _ h => h)
    fun _ _ _ _ _ => ensures_sampleFrame) fun _ evidence _ _ hevidence => ?_
  refine ensures_checkDomain.bind fun _ representativeFrames _ _ hselect => ?_
  refine ensures_check.imp fun _ sampled _ h => ?_
  have hsampled := VideoSamplingResultFields.create_eq_ok h
  rw [VideoArchiveWorker.evidenceOf, hsampled]
  simp only [List.forall_mem_append, List.forall_mem_map]
  refine ⟨fun frame hframe => ?_, fun e he => ?_⟩
  · exact hevidence frame (mem_of_coverOf (Option.mem_toList.mp hframe))
  · have hmem := List.fst_mem_of_mem_zipIdx he
    exact hevidence e.1 (mem_of_selectRepresentativeFrames hselect _ hmem)

/-! ## The workers -/

variable {uuidText : ℕ → String} {claim : ClaimedArchive} {content : List UInt8} {now : ℤ}

theorem ImageArchiveReadyMetadata.archive_of_fromArtifact {imageAssetId : ℕ}
    {storageBackend storageKey : String} {artifact : NormalizedImageArtifact}
    {archiveSizeBytes : ℕ} {archivedAt : ℤ} {metadata : ImageArchiveReadyMetadata}
    (h : fromArtifact imageAssetId storageBackend storageKey artifact archiveSizeBytes archivedAt =
      .ok metadata) :
    metadata.archive.storageKey = storageKey ∧
      metadata.archive.archiveSha256 = artifact.archiveSha256 ∧
      metadata.archive.archiveSizeBytes = archiveSizeBytes := by
  obtain ⟨-, h⟩ := seq_eq_ok.mp h
  obtain rfl := Except.ok.inj h
  exact ⟨rfl, rfl, rfl⟩

/-- An image worker marks its own asset ready, with what it has found in the archive. -/
theorem ImageArchiveWorker.ensures_archive (worker : ImageArchiveWorker)
    (h : s.imageHolders claim.leaseToken = some i) :
    Ensures (archiveDiscipline sha256) i s (worker.archive sha256 uuidText now claim content)
      fun _ _ => True := by
  refine Ensures.bind ensures_normalizeAndArchive fun t artifact hst _ hartifact => ?_
  obtain ⟨hdigested, hholds⟩ := hartifact
  refine (LocalArchiveStorage.ensures_size hholds).bind fun u size htu _ hsize => ?_
  split_ifs with hne
  · exact Ensures.throw _
  · refine ensures_check.bind fun v metadata huv _ hmetadata => ?_
    obtain ⟨hkey, hsha, hbytes⟩ :=
      ImageArchiveReadyMetadata.archive_of_fromArtifact hmetadata
    refine Ensures.bind (Q := fun _ _ => True) (ensures_call (fun w hvw _ => ⟨?_, ?_⟩)
      fun _ _ _ _ _ _ _ _ => trivial) fun w marked _ _ _ => ?_
    · exact (((hst.trans htu).trans huv).trans hvw).images.holders _ _ h
    · rw [ImageIntact, hkey, hsha, hbytes]
      exact ⟨artifact.content, ((htu.trans huv).trans hvw).objects.holds hholds, hdigested.symm,
        hsize.symm⟩
    · split_ifs
      · exact Ensures.pure fun _ _ _ => trivial
      · exact Ensures.throw _

/-- A frame that is archived is held as its row records it. -/
theorem VideoArchiveWorker.ensures_archiveFrame (worker : VideoArchiveWorker) {videoAssetId : ℕ}
    {evidence : String × ℕ × VideoFrameEvidence}
    (h : evidence.2.2.artifact.Digested sha256) :
    Ensures (archiveDiscipline sha256) i s (worker.archiveFrame uuidText videoAssetId evidence)
      fun t frame => t.objects.Stores sha256 frame.record.storageKey frame.record.archiveSha256
        frame.record.archiveSizeBytes := by
  obtain ⟨role, index, frame⟩ := evidence
  refine Ensures.bind LocalArchiveStorage.ensures_put fun t _ _ _ hholds => ?_
  refine (LocalArchiveStorage.ensures_size hholds).bind fun u size htu _ hsize => ?_
  refine ensures_check.bind fun v _ huv _ _ => ?_
  refine Ensures.pure fun w hvw _ => ?_
  exact ⟨frame.artifact.content, ((htu.trans huv).trans hvw).objects.holds hholds, h.symm,
    hsize.symm⟩

/-- A video worker marks its own asset ready, with frames that it has found in the archive. -/
theorem VideoArchiveWorker.ensures_archive (worker : VideoArchiveWorker)
    (h : s.videoHolders claim.leaseToken = some i) :
    Ensures (archiveDiscipline sha256) i s (worker.archive sha256 uuidText now claim content)
      fun _ _ => True := by
  refine Ensures.bind (ensures_call_true fun _ => trivial) fun t probe hst _ _ => ?_
  refine ensures_check.bind fun u _ htu _ _ => ?_
  refine Ensures.bind ensures_sampleFrames fun v sampled huv _ hsampled => ?_
  split_ifs
  · exact Ensures.throw _
  · have harchived : Ensures (archiveDiscipline sha256) i v
        (Program.forEach (worker.archiveFrame uuidText claim.workItem.assetId)
          (evidenceOf sampled)) fun t frames => ∀ frame ∈ frames,
            t.objects.Stores sha256 frame.record.storageKey frame.record.archiveSha256
              frame.record.archiveSizeBytes :=
      Ensures.forEach (fun _ _ _ hgrows hstores => hgrows.objects.stores hstores)
        fun e he _ _ _ => worker.ensures_archiveFrame (hsampled e he)
    refine harchived.bind fun w frames hvw _ hframes => ?_
    refine ensures_check.bind fun x _ hwx _ _ => ?_
    refine Ensures.bind (Q := fun _ _ => True) (ensures_call (fun y hxy _ => ⟨?_, ?_⟩)
      fun _ _ _ _ _ _ _ _ => trivial) fun y marked _ _ _ => ?_
    · have hsx := (((hst.trans htu).trans huv).trans hvw).trans hwx
      exact (hsx.trans hxy).videos.holders _ _ h
    · rintro record hrecord
      obtain ⟨frame, hframe, rfl⟩ := List.mem_map.mp hrecord
      exact (hwx.trans hxy).objects.stores (hframes frame hframe)
    · split_ifs
      · exact Ensures.pure fun _ _ _ => trivial
      · exact Ensures.throw _

/-- A worker is safe if it archives safely what it has claimed. -/
theorem ArchiveWorkerFields.ensures_process {D : Type} (worker : ArchiveWorkerFields)
    {transaction : (call : ArchiveCall D) → ArchiveProgram call.Answer}
    {archive : ClaimedArchive → List UInt8 → ArchiveProgram Unit}
    (holds : ArchiveServices → ClaimedArchive → Prop)
    (hclaim : ∀ s assetId now leaseDuration, Ensures (archiveDiscipline sha256) i s
      (transaction (.claim assetId now leaseDuration)) fun t r => ∀ claim, r = some claim →
        holds t claim)
    (hstable : ∀ s t claim, s.Grows t → holds s claim → holds t claim)
    (hfail : ∀ s claim errorCode errorType retryable retryAt now,
      Ensures (archiveDiscipline sha256) i s
        (transaction (.fail claim errorCode errorType retryable retryAt now)) fun _ _ => True)
    (hcomplete : ∀ s assetId now, Ensures (archiveDiscipline sha256) i s
      (transaction (.completeWakeupIfTerminal assetId now)) fun _ _ => True)
    (harchive : ∀ s claim content, holds s claim →
      Ensures (archiveDiscipline sha256) i s (archive claim content) fun _ _ => True)
    (errorCode errorType : String) (assetId : ℕ) (now : ℤ) (s : ArchiveServices) :
    Ensures (archiveDiscipline sha256) i s
      (worker.process transaction archive errorCode errorType assetId now) fun _ _ => True := by
  have hdownload : ∀ s claim, Ensures (archiveDiscipline sha256) i s (download claim)
      fun _ _ => True := fun s claim =>
    ensures_check.bind fun _ _ _ _ _ => ensures_check.bind fun _ _ _ _ _ =>
      ensures_call_true fun _ => trivial
  refine (hclaim s assetId now _).bind fun t claimed _ _ hclaimed => ?_
  cases claimed with
  | none =>
    refine (hcomplete _ _ _).bind fun _ _ _ _ _ => Ensures.pure fun _ _ _ => trivial
  | some claim =>
    dsimp only
    split_ifs
    · exact hfail ..
    · refine (hdownload t claim).attempt.bind fun u downloaded htu _ _ => ?_
      split
      · exact hfail ..
      · exact hfail ..
      · exact hfail ..
      · refine (harchive u claim _ (hstable _ _ _ htu (hclaimed claim rfl))).attempt.bind
          fun v archived _ _ _ => ?_
        split
        · exact hfail ..
        · exact (hcomplete _ _ _).bind fun _ _ _ _ _ => Ensures.pure fun _ _ _ => trivial

theorem grantTo_claim {D : Type} {holders : ℕ → Option ℕ} {assetId : ℕ} {now leaseDuration : ℤ}
    {r : Option ClaimedArchive} (h : r = some claim) :
    grantTo holders i (.claim assetId now leaseDuration : ArchiveCall D) r claim.leaseToken =
      some i := by
  subst h
  exact Function.update_self ..

/-- An image worker is safe. -/
theorem ImageArchiveWorker.ensures_process (worker : ImageArchiveWorker) (imageAssetId : ℕ)
    (now : ℤ) (s : ArchiveServices) :
    Ensures (archiveDiscipline sha256) i s (worker.process sha256 uuidText imageAssetId now)
      fun _ _ => True := by
  refine ArchiveWorkerFields.ensures_process _
    (fun t claim => t.imageHolders claim.leaseToken = some i) ?_
    (fun s t claim hst hclaim => hst.images.holders _ _ hclaim) ?_ ?_
    (fun s claim content hclaim => worker.ensures_archive hclaim) _ _ _ _ s
  · intro s assetId now leaseDuration
    refine ensures_call (fun _ _ _ => trivial) fun t r u _ _ hperforms v huv claim hr => ?_
    cases hperforms with
    | image h => exact huv.images.holders _ _ (grantTo_claim hr)
    | imageLocked => cases hr
  · intro s claim errorCode errorType retryable retryAt now
    exact ensures_call_true fun _ => trivial
  · intro s assetId now
    exact ensures_call_true fun _ => trivial

/-- A video worker is safe. -/
theorem VideoArchiveWorker.ensures_process (worker : VideoArchiveWorker) (videoAssetId : ℕ)
    (now : ℤ) (s : ArchiveServices) :
    Ensures (archiveDiscipline sha256) i s (worker.process sha256 uuidText videoAssetId now)
      fun _ _ => True := by
  refine ArchiveWorkerFields.ensures_process _
    (fun t claim => t.videoHolders claim.leaseToken = some i) ?_
    (fun s t claim hst hclaim => hst.videos.holders _ _ hclaim) ?_ ?_
    (fun s claim content hclaim => worker.ensures_archive hclaim) _ _ _ _ s
  · intro s assetId now leaseDuration
    refine ensures_call (fun _ _ _ => trivial) fun t r u _ _ hperforms v huv claim hr => ?_
    cases hperforms with
    | video h => exact huv.videos.holders _ _ (grantTo_claim hr)
    | videoLocked => cases hr
  · intro s claim errorCode errorType retryable retryAt now
    exact ensures_call_true fun _ => trivial
  · intro s assetId now
    exact ensures_call_true fun _ => trivial

end

end TgCurator
