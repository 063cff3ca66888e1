import TgCurator.Lease.Repository
import TgCurator.Media.Archive

/-!
# The leases of archive assets

The calls of the archive workers on the assets of a queue, in any order and with any
arguments. A call leaves the tables or has one of six effects (`Effect`), and as a
repository of leased rows an asset is active until it is ready, failed or deleted.

A call turns rows that are active only, and an asset becomes ready only by a call that presents
its current token (`Effect.of_lookup`).
-/

namespace TgCurator

/-- A call on the assets of a queue. -/
inductive ArchiveCall (D : Type)
  | claim (assetId : ℕ) (now leaseDuration : ℤ)
  | markReady (claim : ClaimedArchive) (assetId : ℕ) (archived : D) (archivedAt : ℤ)
  | fail (claim : ClaimedArchive) (errorCode errorType : String) (retryable : Bool)
    (retryAt now : ℤ)
  | completeWakeupIfTerminal (assetId : ℕ) (now : ℤ)

variable {D : Type}

/-- The asset and the lease token that a call presents. -/
def ArchiveCall.presents : ArchiveCall D → Option (ℕ × ℕ)
  | claim .. => none
  | markReady held .. => some (held.workItem.assetId, held.leaseToken)
  | fail held .. => some (held.workItem.assetId, held.leaseToken)
  | completeWakeupIfTerminal .. => none

/-- The lease columns of `image_assets` and `video_assets`. -/
def archiveColumns (D : Type) : Lease.Columns (ArchiveAssetRecord D) where
  active row := row.archiveState.isActive
  running row := row.archiveState = .processing
  token row := row.archiveLeaseToken
  attempts row := row.archiveAttemptCount
  maxAttempts row := row.archiveMaxAttempts
  active_of_running := by
    intro row h
    rw [of_decide_eq_true h]
    rfl

theorem ArchiveAssetRecord.isActive_of_due {row : ArchiveAssetRecord D} {now : ℤ}
    (h : row.due now = true) : row.archiveState.isActive = true := by
  unfold ArchiveAssetRecord.due at h
  cases hstate : row.archiveState <;> simp_all [ArchiveState.isActive]

namespace ArchiveTables

/-- A call, with the grant or the commit that its caller learns of. -/
def perform (queue : String) (t : ArchiveTables D) :
    ArchiveCall D → ArchiveTables D × Option (ℕ × Lease.Event ℕ)
  | .claim assetId now leaseDuration =>
    let (t, claim) := ArchiveTables.claim queue t assetId now leaseDuration
    (t, claim.map fun claim => (claim.workItem.assetId, .granted claim.leaseToken))
  | .markReady claim assetId archived archivedAt =>
    match t.markReady claim assetId archived archivedAt with
    | (t, true) => (t, some (claim.workItem.assetId, .committed claim.leaseToken))
    | (t, false) => (t, none)
  | .fail claim errorCode errorType retryable retryAt now =>
    match ArchiveTables.fail queue t claim errorCode errorType retryable retryAt now with
    | .ok (t, _) => (t, none)
    | .error _ => (t, none)
  | .completeWakeupIfTerminal assetId now =>
    ((ArchiveTables.completeWakeupIfTerminal queue t assetId now).1, none)

/-! ## Effects -/

/-- An asset under a lease token. -/
structure Held (t : ArchiveTables D) (assetId leaseToken : ℕ) (row : ArchiveAssetRecord D) :
    Prop where
  found : t.assets.lookup assetId = some row
  processing : row.archiveState = .processing
  token : row.archiveLeaseToken = some leaseToken

theorem Held.active {t : ArchiveTables D} {assetId leaseToken : ℕ} {row : ArchiveAssetRecord D}
    (h : t.Held assetId leaseToken row) : row.archiveState.isActive = true := by
  rw [h.processing]
  rfl

/-- What a transaction does. -/
inductive Effect (queue : String) (t : ArchiveTables D) :
    Option (ℕ × Lease.Event ℕ) → ArchiveTables D → Prop
  /-- nothing -/
  | kept : Effect queue t none t
  /-- it leases a due asset -/
  | leased {id : ℕ} {row : ArchiveAssetRecord D} (now leaseDuration : ℤ)
    (hrow : t.assets.lookup id = some row) (hactive : row.archiveState.isActive = true)
    (hlt : row.archiveAttemptCount < row.archiveMaxAttempts) :
    Effect queue t (some (id, .granted t.nextToken))
      { t with
        assets := t.assets.set id (row.lease t.nextToken now leaseDuration)
        nextToken := t.nextToken + 1 }
  /-- it ends an asset whose attempts are exhausted, or that its holder gives up -/
  | failed {id : ℕ} {row row' : ArchiveAssetRecord D} (now : ℤ)
    (hrow : t.assets.lookup id = some row) (hactive : row.archiveState.isActive = true)
    (hstate : row'.archiveState = .failed) (htoken : row'.archiveLeaseToken = none)
    (hkept : (archiveColumns D).Kept row row') (harchived : row'.archived = row.archived) :
    Effect queue t none
      { t with
        assets := t.assets.set id row'
        wakeups := setOpenWakeupTerminal t.wakeups queue id now }
  /-- it publishes a leased asset -/
  | published {id leaseToken : ℕ} {row : ArchiveAssetRecord D} (archived : D) (archivedAt : ℤ)
    (hrow : t.Held id leaseToken row) :
    Effect queue t (some (id, .committed leaseToken))
      { t with assets := t.assets.set id (row.publish archived archivedAt) }
  /-- it puts off a leased asset -/
  | returned {id leaseToken : ℕ} {row : ArchiveAssetRecord D} (errorCode errorType : String)
    (retryAt now : ℤ) (hrow : t.Held id leaseToken row) :
    Effect queue t none
      { t with
        assets := t.assets.set id
          (row.recordFailure .retryWait (some retryAt) errorCode errorType now)
        wakeups := rescheduleOpenWakeup t.wakeups queue id retryAt }
  /-- it completes the wake-up of an asset that has ended -/
  | woken {id : ℕ} {row : ArchiveAssetRecord D} (now : ℤ) (hrow : t.assets.lookup id = some row)
    (hended : row.archiveState.isActive = false) :
    Effect queue t none { t with wakeups := setOpenWakeupTerminal t.wakeups queue id now }

variable {queue : String} {t t' : ArchiveTables D} {event : Option (ℕ × Lease.Event ℕ)}

theorem held_of_heldRow {claim : ClaimedArchive} {row : ArchiveAssetRecord D}
    (h : t.heldRow claim = some row) : t.Held claim.workItem.assetId claim.leaseToken row := by
  simp only [heldRow, Option.filter_eq_some_iff, Bool.and_eq_true, decide_eq_true_eq] at h
  exact ⟨h.1, h.2.1, h.2.2⟩

theorem effect_claim (queue : String) (t : ArchiveTables D) (assetId : ℕ)
    (now leaseDuration : ℤ) :
    Effect queue t (t.perform queue (.claim assetId now leaseDuration)).2
      (t.perform queue (.claim assetId now leaseDuration)).1 := by
  dsimp only [perform]
  unfold ArchiveTables.claim
  split
  · exact .kept
  · next row sourceTelegramMessageId message hclaim =>
    have hrow : t.assets.lookup assetId = some row ∧ row.due now = true := by
      unfold claimRow at hclaim
      obtain ⟨row', hrow, hclaim⟩ := Option.bind_eq_some_iff.mp hclaim
      obtain ⟨_, -, hclaim⟩ := Option.bind_eq_some_iff.mp hclaim
      obtain ⟨_, -, hclaim⟩ := Option.bind_eq_some_iff.mp hclaim
      obtain ⟨rfl, -⟩ := Prod.mk.inj (Option.some.inj hclaim)
      exact Option.filter_eq_some_iff.mp hrow
    have hactive := ArchiveAssetRecord.isActive_of_due hrow.2
    split_ifs with hexhausted
    · exact .failed now hrow.1 hactive rfl rfl ⟨rfl, rfl⟩ rfl
    · exact .leased now leaseDuration hrow.1 hactive (Nat.lt_of_not_le hexhausted)

theorem effect_markReady (queue : String) (t : ArchiveTables D) (claim : ClaimedArchive)
    (assetId : ℕ) (archived : D) (archivedAt : ℤ) :
    Effect queue t (t.perform queue (.markReady claim assetId archived archivedAt)).2
      (t.perform queue (.markReady claim assetId archived archivedAt)).1 := by
  dsimp only [perform]
  unfold markReady
  split
  · next t' heq =>
    split at heq
    · cases heq
    · next row hrow =>
      obtain ⟨hheld, hid⟩ := Option.filter_eq_some_iff.mp hrow
      obtain rfl := of_decide_eq_true hid
      obtain ⟨rfl, -⟩ := Prod.mk.inj heq
      exact .published archived archivedAt (held_of_heldRow hheld)
  · next t' heq =>
    split at heq
    · obtain ⟨rfl, -⟩ := Prod.mk.inj heq
      exact .kept
    · cases heq

theorem effect_fail (queue : String) (t : ArchiveTables D) (claim : ClaimedArchive)
    (errorCode errorType : String) (retryable : Bool) (retryAt now : ℤ) :
    Effect queue t none
      (t.perform queue (.fail claim errorCode errorType retryable retryAt now)).1 := by
  dsimp only [perform]
  unfold ArchiveTables.fail
  cases safeErrorLabel errorCode "error_code" 64 with
  | error => exact .kept
  | ok normalizedCode =>
    cases safeErrorLabel errorType "error_type" 128 with
    | error => exact .kept
    | ok normalizedType =>
      dsimp only [bind, Except.bind]
      cases hrow : t.heldRow claim with
      | none => exact .kept
      | some row =>
        have hheld := held_of_heldRow hrow
        dsimp only
        split_ifs
        · exact .returned normalizedCode normalizedType retryAt now hheld
        · exact .failed now hheld.found hheld.active rfl rfl ⟨rfl, rfl⟩ rfl

/-- Every call has an effect. -/
theorem effect_perform (queue : String) (t : ArchiveTables D) (call : ArchiveCall D) :
    Effect queue t (t.perform queue call).2 (t.perform queue call).1 := by
  cases call with
  | claim => exact effect_claim queue t _ _ _
  | markReady => exact effect_markReady queue t _ _ _ _
  | fail claim errorCode errorType retryable retryAt now =>
    have hevent : (t.perform queue (.fail claim errorCode errorType retryable retryAt now)).2 =
        none := by
      dsimp only [perform]
      split <;> rfl
    rw [hevent]
    exact effect_fail queue t _ _ _ _ _ _
  | completeWakeupIfTerminal assetId now =>
    dsimp only [perform]
    unfold completeWakeupIfTerminal
    split_ifs with hended
    · obtain ⟨row, hrow, hended⟩ := (Option.any_eq_true _ _).mp hended
      exact .woken now hrow (by simpa using hended)
    · exact .kept

/-! ## Rows -/

/-- What a transaction makes of a row. -/
structure Turned (t : ArchiveTables D) (event : Option (ℕ × Lease.Event ℕ)) (id : ℕ)
    (row row' : ArchiveAssetRecord D) : Prop where
  found : t.assets.lookup id = some row
  active : row.archiveState.isActive = true
  bounded : row.archiveAttemptCount ≤ row.archiveMaxAttempts →
    row'.archiveAttemptCount ≤ row'.archiveMaxAttempts
  ready : row'.archiveState = .ready →
    ∃ leaseToken, event = some (id, .committed leaseToken) ∧ t.Held id leaseToken row

/-- A row is there as it was, or a transaction has made it of an active one. -/
theorem Effect.of_lookup (h : Effect queue t event t') {id : ℕ} {row' : ArchiveAssetRecord D}
    (hrow' : t'.assets.lookup id = some row') :
    t.assets.lookup id = some row' ∨ ∃ row, t.Turned event id row row' := by
  cases h with
  | kept => exact .inl hrow'
  | woken => exact .inl hrow'
  | leased now leaseDuration hrow hactive hlt =>
    rcases Dict.of_lookup_set hrow' with ⟨rfl, rfl⟩ | ⟨-, hold⟩
    · exact .inr ⟨_, hrow, hactive, fun _ => hlt, fun hready => by cases hready⟩
    · exact .inl hold
  | failed now hrow hactive hstate htoken hkept =>
    rcases Dict.of_lookup_set hrow' with ⟨rfl, rfl⟩ | ⟨-, hold⟩
    · refine .inr ⟨_, hrow, hactive, fun hle => ?_, fun hready => ?_⟩
      · exact hkept.attempts.trans_le (hle.trans_eq hkept.maxAttempts.symm)
      · rw [hstate] at hready
        cases hready
    · exact .inl hold
  | published archived archivedAt hheld =>
    rcases Dict.of_lookup_set hrow' with ⟨rfl, rfl⟩ | ⟨-, hold⟩
    · exact .inr ⟨_, hheld.found, hheld.active, fun h => h, fun _ => ⟨_, rfl, hheld⟩⟩
    · exact .inl hold
  | returned errorCode errorType retryAt now hheld =>
    rcases Dict.of_lookup_set hrow' with ⟨rfl, rfl⟩ | ⟨-, hold⟩
    · exact .inr ⟨_, hheld.found, hheld.active, fun h => h, fun hready => by cases hready⟩
    · exact .inl hold

/-- A row that has ended stays as it is. -/
theorem Effect.lookup_of_ended (h : Effect queue t event t') {id : ℕ} {row : ArchiveAssetRecord D}
    (hrow : t.assets.lookup id = some row) (hended : row.archiveState.isActive = false) :
    t'.assets.lookup id = some row := by
  have hset : ∀ {id' : ℕ} {row' row'' : ArchiveAssetRecord D},
      t.assets.lookup id' = some row' → row'.archiveState.isActive = true →
        (t.assets.set id' row'').lookup id = some row := by
    intro id' row' row'' hrow' hactive
    rw [Dict.lookup_set_of_ne, hrow]
    rintro rfl
    rw [← Option.some.inj (hrow.symm.trans hrow'), hended] at hactive
    cases hactive
  cases h with
  | kept => exact hrow
  | woken => exact hrow
  | leased now leaseDuration hrow' hactive => exact hset hrow' hactive
  | failed now hrow' hactive => exact hset hrow' hactive
  | published archived archivedAt hheld => exact hset hheld.found hheld.active
  | returned errorCode errorType retryAt now hheld => exact hset hheld.found hheld.active

/-- A new token is the next one. -/
theorem Effect.nextToken_le (h : Effect queue t event t') : t.nextToken ≤ t'.nextToken := by
  cases h with
  | leased => exact Nat.le_succ _
  | _ => exact Nat.le_refl _

end ArchiveTables

end TgCurator
