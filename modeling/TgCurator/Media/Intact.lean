import TgCurator.Media.Delivery

/-!
# Ready archives are intact

Processes of the archive workers over the shared tables and files: they start at any time, take
turns in any order and stop at any point, their calls raise or lose their results, and others
ingest assets and change messages and wake-ups.

In every run what a ready asset records is in the archive, attempts stay in their bounds, ready
and failed assets stay as they are, and an asset becomes ready only by a call of the process that
its current lease token was granted to (`archives_intact`).
-/

namespace TgCurator

open Processes

/-! ## The system -/

/-- What others do to the assets of a queue: they ingest one, find one in another message, or
change messages and wake-ups. -/
inductive ArchiveTables.Changes {D : Type} : ArchiveTables D → ArchiveTables D → Prop
  | ingested (t : ArchiveTables D) {assetId : ℕ} (h : t.assets.lookup assetId = none)
    (messageId : ℕ) (sourceAssetId : String) (sourceTelegramMessageId : Option ℕ)
    (archiveMaxAttempts : ℕ) :
    Changes t
      { t with
        assets := t.assets.set assetId (.ingested messageId sourceAssetId sourceTelegramMessageId
          archiveMaxAttempts) }
  | found (t : ArchiveTables D) {assetId : ℕ} {row : ArchiveAssetRecord D}
    (h : t.assets.lookup assetId = some row) (sourceTelegramMessageId : Option ℕ) :
    Changes t { t with assets := t.assets.set assetId { row with sourceTelegramMessageId } }
  | others (t : ArchiveTables D) (messages : Dict ℕ ArchiveMessageRecord)
    (wakeups : Dict (String × ℕ) DurableWakeupRecord) :
    Changes t { t with messages, wakeups }

/-- What others do to what the workers share. -/
inductive Surroundings : ArchiveServices → ArchiveServices → Prop
  | images (s : ArchiveServices) {t : ImageArchiveTables} (h : s.images.Changes t) :
    Surroundings s { s with images := t }
  | videos (s : ArchiveServices) {t : VideoArchiveTables} (h : s.videos.Changes t) :
    Surroundings s { s with videos := t }

/-- A process of a worker. -/
abbrev WorkerProc :=
  Proc ServiceCall (fun c => Except ArchiveError c.Answer) (Except ArchiveError Bool)

/-- What the workers share, and their processes. -/
abbrev ArchiveSystem :=
  System ArchiveServices ServiceCall (fun c => Except ArchiveError c.Answer)
    (Except ArchiveError Bool)

section

variable (sha256 : List UInt8 → String) (uuidText : ℕ → String)

/-- The processes of the workers. -/
inductive WorkerProgram : WorkerProc → Prop
  | image (worker : ImageArchiveWorker) (imageAssetId : ℕ) (now : ℤ) :
    WorkerProgram (worker.process sha256 uuidText imageAssetId now).run
  | video (worker : VideoArchiveWorker) (videoAssetId : ℕ) (now : ℤ) :
    WorkerProgram (worker.process sha256 uuidText videoAssetId now).run

/-- A step of the system. -/
abbrev ArchiveStep : ArchiveSystem → ArchiveSystem → Prop :=
  Step Serves (WorkerProgram sha256 uuidText) Surroundings

/-- Steps of the system. -/
abbrev ArchiveRun : ArchiveSystem → ArchiveSystem → Prop :=
  Relation.ReflTransGen (ArchiveStep sha256 uuidText)

/-- No asset, no lease and no process. There may be files. -/
structure ArchiveSystem.Initial (y : ArchiveSystem) : Prop where
  images : y.shared.images.assets = []
  videos : y.shared.videos.assets = []
  imageHolders : ∀ leaseToken, y.shared.imageHolders leaseToken = none
  videoHolders : ∀ leaseToken, y.shared.videoHolders leaseToken = none
  procs : ∀ i, y.procs i = none

/-- A system that is reached from an initial one. -/
def ArchiveReachable (y : ArchiveSystem) : Prop :=
  ∃ y₀ : ArchiveSystem, ArchiveSystem.Initial y₀ ∧ ArchiveRun sha256 uuidText y₀ y

variable {sha256 uuidText} {y y' : ArchiveSystem} {s t : ArchiveServices}

theorem workerProgram_safe {p : WorkerProc} (h : WorkerProgram sha256 uuidText p) (i : ℕ)
    (s : ArchiveServices) : Safe (archiveDiscipline sha256) i (fun _ _ => True) p s := by
  cases h with
  | image worker imageAssetId now =>
    exact (worker.ensures_process imageAssetId now s).safe
  | video worker videoAssetId now =>
    exact (worker.ensures_process videoAssetId now s).safe

theorem ArchiveTables.Sound.changes {D : Type} {intact : D → Prop} {t t' : ArchiveTables D}
    {holders : ℕ → Option ℕ} (hsound : t.Sound intact holders) (h : t.Changes t') :
    t'.Sound intact holders ∧ t.Grows holders t' holders := by
  cases h with
  | ingested hnone messageId sourceAssetId sourceTelegramMessageId archiveMaxAttempts =>
    refine ⟨⟨fun id row hrow hready => ?_, fun id row hrow => ?_, hsound.fresh⟩,
      ⟨fun id row hrow _ => ?_, fun _ _ h => h⟩⟩
    · rcases Dict.of_lookup_set hrow with ⟨rfl, rfl⟩ | ⟨-, hold⟩
      · cases hready
      · exact hsound.ready id row hold hready
    · rcases Dict.of_lookup_set hrow with ⟨rfl, rfl⟩ | ⟨-, hold⟩
      · exact Nat.zero_le _
      · exact hsound.attempts id row hold
    · refine ⟨row.sourceTelegramMessageId, ?_⟩
      rw [Dict.lookup_set_of_ne, hrow]
      rintro rfl
      rw [hnone] at hrow
      cases hrow
  | @found assetId row₀ hrow₀ sourceTelegramMessageId =>
    refine ⟨⟨fun id row hrow hready => ?_, fun id row hrow => ?_, hsound.fresh⟩,
      ⟨fun id row hrow _ => ?_, fun _ _ h => h⟩⟩
    · rcases Dict.of_lookup_set hrow with ⟨rfl, rfl⟩ | ⟨-, hold⟩
      · exact hsound.ready id row₀ hrow₀ hready
      · exact hsound.ready id row hold hready
    · rcases Dict.of_lookup_set hrow with ⟨rfl, rfl⟩ | ⟨-, hold⟩
      · exact hsound.attempts id row₀ hrow₀
      · exact hsound.attempts id row hold
    · rcases eq_or_ne id assetId with rfl | hne
      · obtain rfl := Option.some.inj (hrow₀.symm.trans hrow)
        exact ⟨sourceTelegramMessageId, Dict.lookup_set_self ..⟩
      · exact ⟨row.sourceTelegramMessageId, (Dict.lookup_set_of_ne hne ..).trans hrow⟩
  | others messages wakeups =>
    exact ⟨⟨hsound.ready, hsound.attempts, hsound.fresh⟩,
      ⟨fun _ row hrow _ => ⟨row.sourceTelegramMessageId, hrow⟩, fun _ _ h => h⟩⟩

theorem Surroundings.keeps (hsound : s.Sound sha256) (h : Surroundings s t) :
    t.Sound sha256 ∧ s.Grows t := by
  cases h with
  | images h =>
    obtain ⟨himages, hgrows⟩ := hsound.images.changes h
    exact ⟨⟨himages, hsound.videos⟩, ⟨fun _ _ h => h, hgrows, .refl _ _⟩⟩
  | videos h =>
    obtain ⟨hvideos, hgrows⟩ := hsound.videos.changes h
    exact ⟨⟨hsound.images, hvideos⟩, ⟨fun _ _ h => h, .refl _ _, hgrows⟩⟩

/-- Runs keep the system sound. -/
theorem sound_of_archiveRun (h : Sound (archiveDiscipline sha256) y)
    (hrun : ArchiveRun sha256 uuidText y y') :
    Sound (archiveDiscipline sha256) y' ∧ y.shared.Grows y'.shared :=
  sound_of_run (fun _ hp i s => workerProgram_safe hp i s) (fun _ _ hs ht => ht.keeps hs) h hrun

theorem ArchiveSystem.Initial.sound (h : ArchiveSystem.Initial y) :
    Sound (archiveDiscipline sha256) y := by
  refine ⟨⟨⟨?_, ?_, fun k _ => h.imageHolders k⟩, ⟨?_, ?_, fun k _ => h.videoHolders k⟩⟩, ?_⟩
  · intro id row hrow
    rw [h.images] at hrow
    cases hrow
  · intro id row hrow
    rw [h.images] at hrow
    cases hrow
  · intro id row hrow
    rw [h.videos] at hrow
    cases hrow
  · intro id row hrow
    rw [h.videos] at hrow
    cases hrow
  · intro i p hp
    rw [h.procs] at hp
    cases hp

theorem ArchiveReachable.sound (h : ArchiveReachable sha256 uuidText y) :
    Sound (archiveDiscipline sha256) y := by
  obtain ⟨y₀, hinitial, hrun⟩ := h
  exact (sound_of_archiveRun hinitial.sound hrun).1

/-! ## Becoming ready -/

/-- A process calls to mark an asset ready, under the token of its current lease, which was granted
to that process. -/
def MarksReady {D : Type} (y : ArchiveSystem) (service : ArchiveCall D → ServiceCall)
    (holders : ℕ → Option ℕ) (id : ℕ) (row : ArchiveAssetRecord D) : Prop :=
  ∃ i claim archived archivedAt next,
    y.procs i = some (.call (service (.markReady claim id archived archivedAt)) next) ∧
      row.archiveState = .processing ∧ row.archiveLeaseToken = some claim.leaseToken ∧
        holders claim.leaseToken = some i

theorem ArchiveTables.Changes.ready {D : Type} {t t' : ArchiveTables D} (h : t.Changes t') {id : ℕ}
    {row' : ArchiveAssetRecord D} (hrow' : t'.assets.lookup id = some row')
    (hready : row'.archiveState = .ready) :
    ∃ row, t.assets.lookup id = some row ∧ row.archiveState = .ready := by
  cases h with
  | ingested =>
    rcases Dict.of_lookup_set hrow' with ⟨rfl, rfl⟩ | ⟨-, hold⟩
    · cases hready
    · exact ⟨row', hold, hready⟩
  | found hrow =>
    rcases Dict.of_lookup_set hrow' with ⟨rfl, rfl⟩ | ⟨-, hold⟩
    · exact ⟨_, hrow, hready⟩
    · exact ⟨row', hold, hready⟩
  | others => exact ⟨row', hrow', hready⟩

theorem Performs.image_ready {i : ℕ} {c : ServiceCall} {r : c.Answer} (h : Performs i s c r t)
    {id : ℕ} {row' : ArchiveAssetRecord ImageArchive}
    (hrow' : t.images.assets.lookup id = some row') (hready : row'.archiveState = .ready) :
    s.images.assets.lookup id = some row' ∨ ∃ claim archived archivedAt row,
      c = .image (.markReady claim id archived archivedAt) ∧
        s.images.Held id claim.leaseToken row := by
  cases h with
  | image h =>
    rcases ArchiveTables.ready_of_transact h hrow' hready with
      hold | ⟨claim, archived, archivedAt, row, rfl, hheld, -⟩
    · exact .inl hold
    · exact .inr ⟨claim, archived, archivedAt, row, rfl, hheld⟩
  | _ => exact .inl hrow'

theorem Performs.video_ready {i : ℕ} {c : ServiceCall} {r : c.Answer} (h : Performs i s c r t)
    {id : ℕ} {row' : ArchiveAssetRecord VideoArchive}
    (hrow' : t.videos.assets.lookup id = some row') (hready : row'.archiveState = .ready) :
    s.videos.assets.lookup id = some row' ∨ ∃ claim archived archivedAt row,
      c = .video (.markReady claim id archived archivedAt) ∧
        s.videos.Held id claim.leaseToken row := by
  cases h with
  | video h =>
    rcases ArchiveTables.ready_of_transact h hrow' hready with
      hold | ⟨claim, archived, archivedAt, row, rfl, hheld, -⟩
    · exact .inl hold
    · exact .inr ⟨claim, archived, archivedAt, row, rfl, hheld⟩
  | _ => exact .inl hrow'

/-- A step is performed for a process, or changes neither tables nor files on behalf of one. -/
theorem ArchiveStep.cases (h : ArchiveStep sha256 uuidText y y') :
    y'.shared = y.shared ∨ Surroundings y.shared y'.shared ∨
      ∃ i c next r, y.procs i = some (.call c next) ∧ Performs i y.shared c r y'.shared := by
  cases h with
  | started => exact .inl rfl
  | stopped => exact .inl rfl
  | changed h => exact .inr (.inl h)
  | answered hcall hserves =>
    cases hserves with
    | answered h => exact .inr (.inr ⟨_, _, _, _, hcall, h⟩)
    | lost h => exact .inr (.inr ⟨_, _, _, _, hcall, h⟩)
    | refused => exact .inl rfl

theorem image_ready_of_step (hsound : Sound (archiveDiscipline sha256) y)
    (hstep : ArchiveStep sha256 uuidText y y') {id : ℕ} {row' : ArchiveAssetRecord ImageArchive}
    (hrow' : y'.shared.images.assets.lookup id = some row') (hready : row'.archiveState = .ready) :
    ∃ row, y.shared.images.assets.lookup id = some row ∧
      (row.archiveState = .ready ∨ MarksReady y .image y.shared.imageHolders id row) := by
  rcases hstep.cases with hsame | hchange | ⟨i, c, next, r, hcall, hperforms⟩
  · exact ⟨row', hsame ▸ hrow', .inl hready⟩
  · generalize y'.shared = s' at hchange hrow'
    cases hchange with
    | images h =>
      obtain ⟨row, hrow, hready⟩ := h.ready hrow' hready
      exact ⟨row, hrow, .inl hready⟩
    | videos => exact ⟨row', hrow', .inl hready⟩
  · rcases hperforms.image_ready hrow' hready with
      hold | ⟨claim, archived, archivedAt, row, rfl, hheld⟩
    · exact ⟨row', hold, .inl hready⟩
    · exact ⟨row, hheld.found, .inr ⟨i, claim, archived, archivedAt, next, hcall, hheld.processing,
        hheld.token, (hsound.allowed hcall).1⟩⟩

theorem video_ready_of_step (hsound : Sound (archiveDiscipline sha256) y)
    (hstep : ArchiveStep sha256 uuidText y y') {id : ℕ} {row' : ArchiveAssetRecord VideoArchive}
    (hrow' : y'.shared.videos.assets.lookup id = some row') (hready : row'.archiveState = .ready) :
    ∃ row, y.shared.videos.assets.lookup id = some row ∧
      (row.archiveState = .ready ∨ MarksReady y .video y.shared.videoHolders id row) := by
  rcases hstep.cases with hsame | hchange | ⟨i, c, next, r, hcall, hperforms⟩
  · exact ⟨row', hsame ▸ hrow', .inl hready⟩
  · generalize y'.shared = s' at hchange hrow'
    cases hchange with
    | images => exact ⟨row', hrow', .inl hready⟩
    | videos h =>
      obtain ⟨row, hrow, hready⟩ := h.ready hrow' hready
      exact ⟨row, hrow, .inl hready⟩
  · rcases hperforms.video_ready hrow' hready with
      hold | ⟨claim, archived, archivedAt, row, rfl, hheld⟩
    · exact ⟨row', hold, .inl hready⟩
    · exact ⟨row, hheld.found, .inr ⟨i, claim, archived, archivedAt, next, hcall, hheld.processing,
        hheld.token, (hsound.allowed hcall).1⟩⟩

/-! ## What holds of a system -/

variable (sha256 uuidText) in
/-- The archives of a system are intact. -/
structure ArchivesIntact (y : ArchiveSystem) : Prop where
  /-- What a ready image records is in the archive. -/
  images : ∀ id row, y.shared.images.assets.lookup id = some row → row.archiveState = .ready →
    ∃ archive, row.archived = some archive ∧ ImageIntact sha256 y.shared.objects archive
  /-- What a ready video records is in the archive. -/
  videos : ∀ id row, y.shared.videos.assets.lookup id = some row → row.archiveState = .ready →
    ∃ archive, row.archived = some archive ∧ VideoIntact sha256 y.shared.objects archive
  imageAttempts : ∀ id row, y.shared.images.assets.lookup id = some row →
    row.archiveAttemptCount ≤ row.archiveMaxAttempts
  videoAttempts : ∀ id row, y.shared.videos.assets.lookup id = some row →
    row.archiveAttemptCount ≤ row.archiveMaxAttempts
  /-- Ready and failed assets stay, but for the message they are found in. -/
  imagesFinal : ∀ y', ArchiveRun sha256 uuidText y y' → ∀ id row,
    y.shared.images.assets.lookup id = some row →
    row.archiveState = .ready ∨ row.archiveState = .failed →
    ∃ sourceTelegramMessageId,
      y'.shared.images.assets.lookup id = some { row with sourceTelegramMessageId }
  videosFinal : ∀ y', ArchiveRun sha256 uuidText y y' → ∀ id row,
    y.shared.videos.assets.lookup id = some row →
    row.archiveState = .ready ∨ row.archiveState = .failed →
    ∃ sourceTelegramMessageId,
      y'.shared.videos.assets.lookup id = some { row with sourceTelegramMessageId }
  /-- An asset becomes ready by a call of the process that holds its current token. -/
  imageReady : ∀ y', ArchiveStep sha256 uuidText y y' → ∀ id row',
    y'.shared.images.assets.lookup id = some row' → row'.archiveState = .ready →
    ∃ row, y.shared.images.assets.lookup id = some row ∧
      (row.archiveState = .ready ∨ MarksReady y .image y.shared.imageHolders id row)
  videoReady : ∀ y', ArchiveStep sha256 uuidText y y' → ∀ id row',
    y'.shared.videos.assets.lookup id = some row' → row'.archiveState = .ready →
    ∃ row, y.shared.videos.assets.lookup id = some row ∧
      (row.archiveState = .ready ∨ MarksReady y .video y.shared.videoHolders id row)

theorem isActive_of_final {archiveState : ArchiveState}
    (h : archiveState = .ready ∨ archiveState = .failed) : archiveState.isActive = false := by
  rcases h with rfl | rfl <;> rfl

/-- An image that can be delivered in a reachable system is ready in another one. -/
theorem ArchiveReachable.exists_ready (h : ArchiveReachable sha256 uuidText y)
    {worker : ImageArchiveWorker} {imageAssetId : ℕ} {now : ℤ} {claim : ClaimedArchive}
    {t : ImageArchiveTables}
    (hdeliverable : Deliverable sha256 uuidText worker y.shared imageAssetId now claim t) :
    ∃ y', ArchiveReachable sha256 uuidText y' ∧
      ∃ row, y'.shared.images.assets.lookup imageAssetId = some row ∧
        row.archiveState = .ready := by
  obtain ⟨y₀, hinitial, hrun⟩ := h
  obtain ⟨u, hgives, hrow⟩ :=
    ImageArchiveWorker.exists_gives_process hdeliverable y.started
  let y₁ : ArchiveSystem :=
    { y with
      procs := Function.update y.procs y.started
        (some (worker.process sha256 uuidText imageAssetId now).run)
      started := y.started + 1 }
  have hstart : ArchiveStep sha256 uuidText y y₁ := .started y (.image worker imageAssetId now)
  have hproc : y₁.procs y.started = some (worker.process sha256 uuidText imageAssetId now).run :=
    Function.update_self ..
  have hdelivered : ∃ y', ArchiveRun sha256 uuidText y₁ y' ∧ y'.shared = u :=
    Returns.run hgives rfl hproc
  obtain ⟨y', hrun', rfl⟩ := hdelivered
  exact ⟨y', ⟨y₀, hinitial, (hrun.tail hstart).trans hrun'⟩, hrow⟩

/-- In every reachable system the archives are intact. -/
theorem archives_intact (h : ArchiveReachable sha256 uuidText y) :
    ArchivesIntact sha256 uuidText y where
  images := h.sound.inv.images.ready
  videos := h.sound.inv.videos.ready
  imageAttempts := h.sound.inv.images.attempts
  videoAttempts := h.sound.inv.videos.attempts
  imagesFinal _ hrun id row hrow hfinal :=
    (sound_of_archiveRun h.sound hrun).2.images.ended id row hrow (isActive_of_final hfinal)
  videosFinal _ hrun id row hrow hfinal :=
    (sound_of_archiveRun h.sound hrun).2.videos.ended id row hrow (isActive_of_final hfinal)
  imageReady _ hstep _ _ hrow hready := image_ready_of_step h.sound hstep hrow hready
  videoReady _ hstep _ _ hrow hready := video_ready_of_step h.sound hstep hrow hready

end

/-! ## An image that becomes ready -/

/-- A digest of two contents. -/
def smallSha256 (content : List UInt8) : String :=
  if content = [0] then (smallArtifactFields "0000000000000000").archiveSha256
  else (smallArtifactFields "0000000000000000").sourceSha256

theorem maxSidePixels_pos_small : 0 < 100 := by
  omega

theorem quality_mem_small : 1 ≤ 80 ∧ 80 ≤ 100 := by
  omega

/-- The arguments of an image worker. -/
def smallImageWorkerFields : ImageArchiveWorkerFields where
  storageBackend := "local"
  normalizationProfile := ⟨100, 80, maxSidePixels_pos_small, quality_mem_small⟩

theorem postInit_smallImageWorkerFields :
    smallImageWorkerFields.toArchiveWorkerFields.postInit = .ok () := by
  decide +kernel

/-- An image worker. -/
def smallImageWorker : ImageArchiveWorker where
  toImageArchiveWorkerFields := smallImageWorkerFields
  checked := postInit_smallImageWorkerFields

/-- Tables without rows. -/
def noArchives (D : Type) : ArchiveTables D :=
  ⟨[], [], [], 0⟩

/-- An empty system. -/
def emptyArchiveSystem : ArchiveSystem :=
  ⟨⟨noArchives _, noArchives _, [], fun _ => none, fun _ => none⟩, fun _ => none, 0⟩

/-- The tables after a message with an image is ingested. -/
def oneImage : ImageArchiveTables :=
  ⟨[(0, ⟨0, none⟩)], [(0, .ingested 0 "a" (some 1) 3)], [], 0⟩

/-- A system with one pending image. -/
def oneImageSystem : ArchiveSystem :=
  { emptyArchiveSystem with shared := { emptyArchiveSystem.shared with images := oneImage } }

theorem reachable_oneImageSystem :
    ArchiveReachable smallSha256 (fun _ => "7") oneImageSystem := by
  refine ⟨emptyArchiveSystem, ⟨rfl, rfl, fun _ => rfl, fun _ => rfl, fun _ => rfl⟩, ?_⟩
  have hingested :
      ArchiveTables.Changes (noArchives ImageArchive) { oneImage with messages := [] } :=
    .ingested _ rfl 0 "a" (some 1) 3
  have hmessages : ArchiveTables.Changes { oneImage with messages := [] } oneImage :=
    .others _ _ []
  exact .tail (.single (.changed (.images _ hingested))) (.changed (.images _ hmessages))

theorem targetFor_small : targetFor "images/7.webp" = .ok ["images", "7.webp"] := by
  have hlist : "images/7.webp".toList =
      ['i', 'm', 'a', 'g', 'e', 's'] ++ '/' :: ['7', '.', 'w', 'e', 'b', 'p'] := by
    rw [← String.toList_ofList (l := _ ++ _)]
    rfl
  have hparts : posixParts "images/7.webp" =
      [String.ofList ['i', 'm', 'a', 'g', 'e', 's'],
        String.ofList ['7', '.', 'w', 'e', 'b', 'p']] := by
    rw [posixParts, hlist]
    decide
  have htraversal : hasTraversal "images/7.webp" = false := by
    rw [hasTraversal, hparts]
    decide
  have hdrive : hasDrive "images/7.webp" = false := by
    simp only [hasDrive, hparts, List.any_cons, List.any_nil, String.toList_ofList]
    decide
  rw [targetFor, htraversal, hdrive, isBlank, hasBackslash, isAbsolutePath, hlist, hparts]
  rfl

theorem exists_ready : ∃ y, ArchiveReachable smallSha256 (fun _ => "7") y ∧
    ∃ row, y.shared.images.assets.lookup 0 = some row ∧ row.archiveState = .ready := by
  have hdeliverable : Deliverable smallSha256 (fun _ => "7") smallImageWorker
      oneImageSystem.shared 0 10 _ _ :=
    { claimed := rfl
      notDeleted := rfl
      message := Nat.one_pos
      asset := by decide
      artifact := by
        exact ⟨[1], ⟨[0], 1, 1, "0000000000000000"⟩, ⟨_, postInit_dark⟩, by simp,
          NormalizedImageArtifactFields.create_of_postInit postInit_dark⟩
      key := ⟨_, targetFor_small, List.not_mem_nil⟩ }
  exact reachable_oneImageSystem.exists_ready hdeliverable

/-- An image that was ingested can become ready, and is intact then. -/
theorem archives_intact_ready : ∃ y, ArchiveReachable smallSha256 (fun _ => "7") y ∧
    (∃ row, y.shared.images.assets.lookup 0 = some row ∧ row.archiveState = .ready) ∧
      ArchivesIntact smallSha256 (fun _ => "7") y := by
  obtain ⟨y, hreachable, hready⟩ := exists_ready
  exact ⟨y, hreachable, hready, archives_intact hreachable⟩

end TgCurator
