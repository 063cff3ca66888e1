import Mathlib.Data.List.Sort
import Mathlib.Logic.Function.Basic
import TgCurator.Processing.Wakeups
import TgCurator.Runs

/-!
# The dispatcher of wake-ups

`SqlAlchemyDurableWakeupRepository` of `infrastructure/database/processing_repository.py`
leases due wake-ups of every queue, and releases one after its signal was sent or not. The
workers of a queue lease its entities by themselves, and change the wake-up of an entity
with it.

A `WakeupQueue` is the entities of a queue with the calls of its workers, where each call
does to an entity and its wake-up one of four things (`Work`, `Turn`). In a database of such queues
under one dispatcher, an open entity keeps a wake-up that is pending or leased
(`Inv.step`), so that the dispatcher claims it again (`claimed_of_open`), and a token that
is not current is never current again (`Lost.step`). `Inv.neverLost` puts these together.
-/

namespace TgCurator

/-- `ClaimedWakeup`. A wake-up is named by its unique queue and entity. -/
structure ClaimedWakeup where
  queue : String
  entityId : ℕ
  leaseToken : ℕ
  deriving DecidableEq

namespace DurableWakeupRecord

/-- `due_wakeup_claim_statement`: whether a wake-up is due. -/
def due (row : DurableWakeupRecord) (now : ℤ) : Bool :=
  (row.status = .pending && row.nextAttemptAt ≤ now) ||
    (row.status = .leased && row.leaseExpiresAt.any (· ≤ now))

/-- The row of a claim. -/
def lease (row : DurableWakeupRecord) (leaseToken : ℕ) (leaseExpiresAt : ℤ) :
    DurableWakeupRecord :=
  { row with
    status := .leased
    leaseToken := some leaseToken
    leaseExpiresAt := some leaseExpiresAt
    dispatchAttempts := row.dispatchAttempts + 1 }

/-- The row of a claim that is released. -/
def release (row : DurableWakeupRecord) (nextAttemptAt : ℤ) (lastDispatchedAt : Option ℤ) :
    DurableWakeupRecord :=
  { row with
    status := .pending
    nextAttemptAt := nextAttemptAt
    leaseToken := none
    leaseExpiresAt := none
    lastDispatchedAt := lastDispatchedAt <|> row.lastDispatchedAt }

/-- When a wake-up becomes due, if it does without a change. -/
def dueFrom (row : DurableWakeupRecord) : Option ℤ :=
  match row.status with
  | .pending => some row.nextAttemptAt
  | .leased => row.leaseExpiresAt
  | .completed => none
  | .cancelled => none

theorem due_of_dueFrom {row : DurableWakeupRecord} {start now : ℤ}
    (h : row.dueFrom = some start) (hnow : start ≤ now) : row.due now = true := by
  unfold dueFrom at h
  unfold due
  cases hstatus : row.status <;> simp_all

theorem isOpen_of_dueFrom {row : DurableWakeupRecord} {start : ℤ} (h : row.dueFrom = some start) :
    row.status.isOpen = true := by
  unfold dueFrom at h
  cases hstatus : row.status <;> simp_all [WakeupStatus.isOpen]

end DurableWakeupRecord

/-- `durable_wakeups`, and the counter that tokens are drawn from. -/
structure Durable where
  wakeups : Dict (String × ℕ) DurableWakeupRecord
  nextToken : ℕ

namespace Durable

/-- `order_by(next_attempt_at, id)`, with the order of the row ids. -/
def dueLE (idLE : String × ℕ → String × ℕ → Bool) (a b : (String × ℕ) × DurableWakeupRecord) :
    Bool :=
  a.2.nextAttemptAt < b.2.nextAttemptAt ||
    (a.2.nextAttemptAt = b.2.nextAttemptAt && idLE a.1 b.1)

/-- The due rows. -/
def dueRows (d : Durable) (now : ℤ) : Dict (String × ℕ) DurableWakeupRecord :=
  d.wakeups.filter fun e => e.2.due now

/-- The rows of `due_wakeup_claim_statement`, each with a new token. -/
def dueClaims (idLE : String × ℕ → String × ℕ → Bool) (d : Durable) (now : ℤ) (limit : ℕ) :
    List ClaimedWakeup :=
  ((((d.dueRows now).insertionSort fun a b => dueLE idLE a b).take limit).zipIdx d.nextToken).map
    fun e => ⟨e.1.1.1, e.1.1.2, e.2⟩

/-- Lease the row of a claim. -/
def leaseRow (leaseExpiresAt : ℤ) (wakeups : Dict (String × ℕ) DurableWakeupRecord)
    (claim : ClaimedWakeup) : Dict (String × ℕ) DurableWakeupRecord :=
  match wakeups.lookup (claim.queue, claim.entityId) with
  | none => wakeups
  | some row => wakeups.set (claim.queue, claim.entityId) (row.lease claim.leaseToken leaseExpiresAt)

/-- `claim_due`. -/
def claimDue (idLE : String × ℕ → String × ℕ → Bool) (d : Durable) (now leaseDuration : ℤ)
    (limit : ℕ) : Durable × List ClaimedWakeup :=
  let claims := d.dueClaims idLE now limit
  ({ wakeups := claims.foldl (leaseRow (now + leaseDuration)) d.wakeups
     nextToken := d.nextToken + claims.length }, claims)

/-- `_release_claim`. -/
def releaseClaim (d : Durable) (queue : String) (entityId leaseToken : ℕ) (nextAttemptAt : ℤ)
    (lastDispatchedAt : Option ℤ) : Durable × Bool :=
  match (d.wakeups.lookup (queue, entityId)).filter fun row =>
    row.status = .leased && row.leaseToken = some leaseToken with
  | none => (d, false)
  | some row =>
    ({ d with
      wakeups := d.wakeups.set (queue, entityId) (row.release nextAttemptAt lastDispatchedAt) },
      true)

/-- `acknowledge_dispatch`. -/
def acknowledgeDispatch (d : Durable) (queue : String) (entityId leaseToken : ℕ)
    (now repairAfter : ℤ) : Durable × Bool :=
  d.releaseClaim queue entityId leaseToken repairAfter (some now)

/-- `reschedule_after_failure`. -/
def rescheduleAfterFailure (d : Durable) (queue : String) (entityId leaseToken : ℕ)
    (retryAfter : ℤ) : Durable × Bool :=
  d.releaseClaim queue entityId leaseToken retryAfter none

/-! ## What the dispatcher does to a wake-up -/

/-- The dispatcher keeps a wake-up, leases it under a new token or releases it. -/
inductive Signal (fresh : ℕ) : Option DurableWakeupRecord → Option DurableWakeupRecord → Prop
  | kept (o : Option DurableWakeupRecord) : Signal fresh o o
  | leased {row row' : DurableWakeupRecord} {k : ℕ} {start : ℤ} (hk : fresh ≤ k)
    (htoken : row'.leaseToken = some k) (hdue : row'.dueFrom = some start)
    (hstatus : row'.status = .leased) : Signal fresh (some row) (some row')
  | released {row row' : DurableWakeupRecord} (hstatus : row'.status = .pending) :
    Signal fresh (some row) (some row')

variable {idLE : String × ℕ → String × ℕ → Bool} {d : Durable} {fresh : ℕ}

theorem Signal.trans {o₁ o₂ o₃ : Option DurableWakeupRecord} (h : Signal fresh o₁ o₂)
    (h' : Signal fresh o₂ o₃) : Signal fresh o₁ o₃ := by
  cases h' with
  | kept => exact h
  | leased hk htoken hdue hstatus =>
    cases h with
    | kept => exact .leased hk htoken hdue hstatus
    | leased => exact .leased hk htoken hdue hstatus
    | released => exact .leased hk htoken hdue hstatus
  | released hstatus =>
    cases h with
    | kept => exact .released hstatus
    | leased => exact .released hstatus
    | released => exact .released hstatus

theorem signal_leaseRow {claim : ClaimedWakeup} (hk : fresh ≤ claim.leaseToken) (expires : ℤ)
    (wakeups : Dict (String × ℕ) DurableWakeupRecord) (key : String × ℕ) :
    Signal fresh (wakeups.lookup key) ((leaseRow expires wakeups claim).lookup key) := by
  unfold leaseRow
  cases hrow : wakeups.lookup (claim.queue, claim.entityId) with
  | none => exact .kept _
  | some row =>
    dsimp only
    by_cases hkey : key = (claim.queue, claim.entityId)
    · rw [hkey, hrow, Dict.lookup_set_self]
      exact .leased hk rfl rfl rfl
    · rw [Dict.lookup_set_of_ne hkey]
      exact .kept _

theorem signal_foldl {claims : List ClaimedWakeup} (hk : ∀ claim ∈ claims, fresh ≤ claim.leaseToken)
    (expires : ℤ) (wakeups : Dict (String × ℕ) DurableWakeupRecord) (key : String × ℕ) :
    Signal fresh (wakeups.lookup key) ((claims.foldl (leaseRow expires) wakeups).lookup key) := by
  induction claims generalizing wakeups with
  | nil => exact .kept _
  | cons claim claims ih =>
    rw [List.forall_mem_cons] at hk
    exact (signal_leaseRow hk.1 expires wakeups key).trans (ih hk.2 _)

/-- The tokens of the claims are new. -/
theorem token_of_dueClaims {now : ℤ} {limit : ℕ} {claim : ClaimedWakeup}
    (h : claim ∈ d.dueClaims idLE now limit) :
    d.nextToken ≤ claim.leaseToken ∧
      claim.leaseToken < d.nextToken + (d.dueClaims idLE now limit).length := by
  obtain ⟨e, he, rfl⟩ := List.mem_map.mp h
  rw [dueClaims, List.length_map, List.length_zipIdx]
  obtain ⟨hle, hlt, -⟩ := List.mem_zipIdx he
  exact ⟨hle, hlt⟩

theorem signal_claimDue (d : Durable) (now leaseDuration : ℤ) (limit : ℕ) (key : String × ℕ) :
    Signal d.nextToken (d.wakeups.lookup key)
      ((d.claimDue idLE now leaseDuration limit).1.wakeups.lookup key) :=
  signal_foldl (fun _ hclaim => (token_of_dueClaims hclaim).1) _ _ _

/-- A due wake-up is claimed, unless the limit is met. -/
theorem mem_dueClaims {now : ℤ} {limit : ℕ} {queue : String} {entityId : ℕ}
    {row : DurableWakeupRecord} (hrow : d.wakeups.lookup (queue, entityId) = some row)
    (hdue : row.due now = true) (hlimit : (d.dueRows now).length ≤ limit) :
    ∃ claim ∈ d.dueClaims idLE now limit, claim.queue = queue ∧ claim.entityId = entityId := by
  let rows := (d.dueRows now).insertionSort fun a b => dueLE idLE a b
  have hlength : rows.length ≤ limit := by rwa [List.length_insertionSort]
  have hmem : ((queue, entityId), row) ∈ rows.take limit := by
    rw [List.take_of_length_le hlength, List.mem_insertionSort]
    exact List.mem_filter.mpr ⟨Dict.mem_of_lookup hrow, hdue⟩
  rw [← List.zipIdx_map_fst d.nextToken (rows.take limit)] at hmem
  obtain ⟨e, he, hfst⟩ := List.mem_map.mp hmem
  exact ⟨_, List.mem_map_of_mem he, by rw [hfst], by rw [hfst]⟩

theorem signal_releaseClaim (d : Durable) (queue : String) (entityId leaseToken : ℕ)
    (nextAttemptAt : ℤ) (lastDispatchedAt : Option ℤ) (key : String × ℕ) :
    Signal d.nextToken (d.wakeups.lookup key)
      ((d.releaseClaim queue entityId leaseToken nextAttemptAt
        lastDispatchedAt).1.wakeups.lookup key) := by
  unfold releaseClaim
  split
  · exact .kept _
  · next row hrow =>
    obtain ⟨hrow, -⟩ := Option.filter_eq_some_iff.mp hrow
    dsimp only
    by_cases hkey : key = (queue, entityId)
    · rw [hkey, hrow, Dict.lookup_set_self]
      exact .released rfl
    · rw [Dict.lookup_set_of_ne hkey]
      exact .kept _

/-- A release under a token that is not current does nothing. -/
theorem releaseClaim_eq_self {queue : String} {entityId leaseToken : ℕ}
    (h : ∀ row, d.wakeups.lookup (queue, entityId) = some row → row.status = .leased →
      row.leaseToken ≠ some leaseToken) (nextAttemptAt : ℤ) (lastDispatchedAt : Option ℤ) :
    d.releaseClaim queue entityId leaseToken nextAttemptAt lastDispatchedAt = (d, false) := by
  unfold releaseClaim
  split
  · rfl
  · next row hrow =>
    simp only [Option.filter_eq_some_iff, Bool.and_eq_true, decide_eq_true_eq] at hrow
    exact absurd hrow.2.2 (h row hrow.1 hrow.2.1)

end Durable

/-! ## Entities and their wake-ups -/

section

variable {R : Type}

/-- A wake-up does its duty: that of an open entity becomes due, and a completed one is that
of a closed entity. -/
structure Woken (closed : R → Bool) (entity : Option R) (wakeup : Option DurableWakeupRecord) :
    Prop where
  waits : ∀ r, entity = some r → closed r = false →
    ∃ row, wakeup = some row ∧ ∃ start, row.dueFrom = some start
  ended : ∀ row, wakeup = some row → row.status = .completed →
    ∃ r, entity = some r ∧ closed r = true

/-- What a call does to an entity and its wake-up. -/
inductive Work (closed : R → Bool) : Option R → Option DurableWakeupRecord → Option R →
    Option DurableWakeupRecord → Prop
  /-- it makes both -/
  | made {r : R} {row : DurableWakeupRecord} (hopen : closed r = false)
    (hstatus : row.status = .pending) : Work closed none none (some r) (some row)
  /-- it leaves the wake-up, and the entity as open or closed as it was, or closed -/
  | kept {o o' : Option R} (wakeup : Option DurableWakeupRecord)
    (hopen : ∀ r', o' = some r' → closed r' = false → ∃ r, o = some r ∧ closed r = false)
    (hclosed : ∀ r, o = some r → closed r = true → ∃ r', o' = some r' ∧ closed r' = true) :
    Work closed o wakeup o' wakeup
  /-- it puts off the wake-up -/
  | putOff {r r' : R} {row row' : DurableWakeupRecord} (hstatus : row'.status = .pending) :
    Work closed (some r) (some row) (some r') (some row')
  /-- it closes the entity and completes the wake-up -/
  | completed {r r' : R} {row row' : DurableWakeupRecord} (hclosed : closed r' = true)
    (hstatus : row'.status = .completed) : Work closed (some r) (some row) (some r') (some row')

variable {closed : R → Bool} {entity o o' : Option R} {wakeup w w' : Option DurableWakeupRecord}

theorem Work.same (o : Option R) (w : Option DurableWakeupRecord) : Work closed o w o w :=
  .kept w (fun r h hr => ⟨r, h, hr⟩) fun r h hr => ⟨r, h, hr⟩

/-- An entity that changes and its wake-up that stays. -/
theorem Work.changed {r r' : R} (h : closed r = false) (w : Option DurableWakeupRecord) :
    Work closed (some r) w (some r') w := by
  refine .kept w (fun _ _ _ => ⟨r, rfl, h⟩) ?_
  intro r₀ hr₀ hclosed
  cases hr₀
  simp [h] at hclosed

/-- An entity that ends, with its wake-up if it can. -/
theorem Work.ended {r r' : R} (hclosed : closed r' = true)
    (h : w' = w ∨ ∃ row row', w = some row ∧ w' = some row' ∧ row'.status = .completed) :
    Work closed (some r) w (some r') w' := by
  rcases h with rfl | ⟨row, row', rfl, rfl, hstatus⟩
  · refine .kept _ ?_ fun _ _ _ => ⟨r', rfl, hclosed⟩
    rintro _ ⟨⟩ hopen
    rw [hclosed] at hopen
    cases hopen
  · exact .completed hclosed hstatus

/-- An entity that is put off, with its wake-up if it can. -/
theorem Work.retried {r r' : R} (hopen : closed r = false)
    (h : w' = w ∨ ∃ row row', w = some row ∧ w' = some row' ∧ row'.status = .pending) :
    Work closed (some r) w (some r') w' := by
  rcases h with rfl | ⟨row, row', rfl, rfl, hstatus⟩
  · exact .changed hopen _
  · exact .putOff hstatus

theorem dueFrom_of_pending {row : DurableWakeupRecord} (h : row.status = .pending) :
    row.dueFrom = some row.nextAttemptAt := by
  rw [DurableWakeupRecord.dueFrom, h]

theorem Woken.of_dueFrom {row : DurableWakeupRecord} {start : ℤ} (h : row.dueFrom = some start)
    (entity : Option R) : Woken closed entity (some row) := by
  refine ⟨fun _ _ _ => ⟨row, rfl, start, h⟩, ?_⟩
  rintro _ ⟨⟩ hcompleted
  rw [DurableWakeupRecord.dueFrom, hcompleted] at h
  cases h

/-- A call keeps an entity and its wake-up in step. -/
theorem Woken.work (h : Woken closed o w) (hwork : Work closed o w o' w') : Woken closed o' w' := by
  cases hwork with
  | made _ hstatus => exact .of_dueFrom (dueFrom_of_pending hstatus) _
  | kept wakeup hopen hclosed =>
    refine ⟨?_, ?_⟩
    · intro r' hr' hr'open
      obtain ⟨r, hr, hropen⟩ := hopen r' hr' hr'open
      exact h.waits r hr hropen
    · intro row hrow hcompleted
      obtain ⟨r, hr, hrclosed⟩ := h.ended row hrow hcompleted
      exact hclosed r hr hrclosed
  | putOff hstatus => exact .of_dueFrom (dueFrom_of_pending hstatus) _
  | completed hclosed hstatus =>
    refine ⟨?_, fun _ _ _ => ⟨_, rfl, hclosed⟩⟩
    rintro _ ⟨⟩ hopen
    rw [hclosed] at hopen
    cases hopen

/-- So does the dispatcher. -/
theorem Woken.signal {fresh : ℕ} (h : Woken closed entity w)
    (hsignal : Durable.Signal fresh w w') : Woken closed entity w' := by
  cases hsignal with
  | kept => exact h
  | leased _ _ hdue _ => exact .of_dueFrom hdue _
  | released hstatus => exact .of_dueFrom (dueFrom_of_pending hstatus) _

/-- A wake-up that a call changed is not leased. -/
theorem Work.not_leased (h : Work closed o w o' w') :
    w' = w ∨ ∀ row, w' = some row → row.status ≠ .leased := by
  cases h with
  | made _ hstatus => exact .inr fun _ hrow => by simp [← Option.some.inj hrow, hstatus]
  | kept => exact .inl rfl
  | putOff hstatus => exact .inr fun _ hrow => by simp [← Option.some.inj hrow, hstatus]
  | completed _ hstatus => exact .inr fun _ hrow => by simp [← Option.some.inj hrow, hstatus]

end

/-- What a call does to the entities of a queue and to the wake-ups. -/
structure Turn {R : Type} (closed : R → Bool) (queue : String) (rows : Dict ℕ R)
    (wakeups : Dict (String × ℕ) DurableWakeupRecord) (rows' : Dict ℕ R)
    (wakeups' : Dict (String × ℕ) DurableWakeupRecord) : Prop where
  nodup : rows'.keys.Nodup
  others : ∀ key, key.1 ≠ queue → wakeups'.lookup key = wakeups.lookup key
  work : ∀ id, Work closed (rows.lookup id) (wakeups.lookup (queue, id)) (rows'.lookup id)
    (wakeups'.lookup (queue, id))

section

variable {R : Type} {closed : R → Bool} {queue : String} {rows : Dict ℕ R}
  {wakeups wakeups' : Dict (String × ℕ) DurableWakeupRecord}

theorem Turn.refl (h : rows.keys.Nodup) : Turn closed queue rows wakeups rows wakeups :=
  ⟨h, fun _ _ => rfl, fun _ => .same _ _⟩

/-- A call that writes one entity, and at most its wake-up. -/
theorem Turn.set (h : rows.keys.Nodup) {id : ℕ} {r : R}
    (hwakeups : ∀ key, key ≠ (queue, id) → wakeups'.lookup key = wakeups.lookup key)
    (hwork : Work closed (rows.lookup id) (wakeups.lookup (queue, id)) (some r)
      (wakeups'.lookup (queue, id))) : Turn closed queue rows wakeups (rows.set id r) wakeups' := by
  refine ⟨Dict.nodup_keys_set h, fun key hkey => hwakeups key (by rintro rfl; exact hkey rfl), ?_⟩
  intro id'
  by_cases hid : id' = id
  · rw [hid, Dict.lookup_set_self]
    exact hwork
  · rw [Dict.lookup_set_of_ne hid, hwakeups _ (by simp [hid])]
    exact .same _ _

end

/-! ## Updates of wake-ups -/

section

variable {wakeups : Dict (String × ℕ) DurableWakeupRecord} {queue : String} {entityId : ℕ}
  {change : DurableWakeupRecord → DurableWakeupRecord}

theorem lookup_updateWakeup_of_ne {key : String × ℕ} (h : key ≠ (queue, entityId)) :
    (updateWakeup wakeups queue entityId change).lookup key = wakeups.lookup key := by
  unfold updateWakeup
  split
  · rfl
  · split_ifs
    · rfl
    · rw [Dict.lookup_set_of_ne h]

theorem lookup_updateWakeup (wakeups : Dict (String × ℕ) DurableWakeupRecord) (queue : String)
    (entityId : ℕ) (change : DurableWakeupRecord → DurableWakeupRecord) :
    (updateWakeup wakeups queue entityId change).lookup (queue, entityId) =
        wakeups.lookup (queue, entityId) ∨
      ∃ row, wakeups.lookup (queue, entityId) = some row ∧
        (updateWakeup wakeups queue entityId change).lookup (queue, entityId) =
          some (change row) := by
  unfold updateWakeup
  cases hrow : wakeups.lookup (queue, entityId) with
  | none => exact .inl hrow
  | some row =>
    dsimp only
    split_ifs
    · exact .inl hrow
    · exact .inr ⟨row, rfl, Dict.lookup_set_self _ _ _⟩

theorem setWakeupTerminal_cases (wakeups : Dict (String × ℕ) DurableWakeupRecord) (queue : String)
    (entityId : ℕ) (now : ℤ) :
    (setWakeupTerminal wakeups queue entityId now).lookup (queue, entityId) =
        wakeups.lookup (queue, entityId) ∨
      ∃ row row', wakeups.lookup (queue, entityId) = some row ∧
        (setWakeupTerminal wakeups queue entityId now).lookup (queue, entityId) = some row' ∧
          row'.status = .completed :=
  (lookup_updateWakeup wakeups queue entityId _).imp_right fun ⟨row, hrow, h⟩ =>
    ⟨row, _, hrow, h, rfl⟩

theorem rescheduleWakeup_cases (wakeups : Dict (String × ℕ) DurableWakeupRecord) (queue : String)
    (entityId : ℕ) (retryAt : ℤ) :
    (rescheduleWakeup wakeups queue entityId retryAt).lookup (queue, entityId) =
        wakeups.lookup (queue, entityId) ∨
      ∃ row row', wakeups.lookup (queue, entityId) = some row ∧
        (rescheduleWakeup wakeups queue entityId retryAt).lookup (queue, entityId) = some row' ∧
          row'.status = .pending :=
  (lookup_updateWakeup wakeups queue entityId _).imp_right fun ⟨row, hrow, h⟩ =>
    ⟨row, _, hrow, h, rfl⟩

/-- Ending several entities completes their wake-ups, if it can. -/
theorem foldl_setWakeupTerminal_cases {R : Type} (entities : List (ℕ × R)) (now : ℤ)
    (wakeups : Dict (String × ℕ) DurableWakeupRecord) (key : String × ℕ) :
    (entities.foldl (fun wakeups e => setWakeupTerminal wakeups queue e.1 now) wakeups).lookup
        key = wakeups.lookup key ∨
      ∃ row row', wakeups.lookup key = some row ∧
        (entities.foldl (fun wakeups e => setWakeupTerminal wakeups queue e.1 now) wakeups).lookup
            key = some row' ∧ row'.status = .completed := by
  induction entities generalizing wakeups with
  | nil => exact .inl rfl
  | cons e entities ih =>
    have hstep : (setWakeupTerminal wakeups queue e.1 now).lookup key = wakeups.lookup key ∨
        ∃ row row', wakeups.lookup key = some row ∧
          (setWakeupTerminal wakeups queue e.1 now).lookup key = some row' ∧
            row'.status = .completed := by
      by_cases hkey : key = (queue, e.1)
      · rw [hkey]
        exact setWakeupTerminal_cases _ _ _ _
      · exact .inl (lookup_updateWakeup_of_ne hkey)
    rw [List.foldl_cons]
    rcases hstep with hsame | ⟨row, row', hrow, hrow', hstatus⟩
    · have hrest := ih (setWakeupTerminal wakeups queue e.1 now)
      rwa [hsame] at hrest
    · rcases ih (setWakeupTerminal wakeups queue e.1 now) with hrest | ⟨_, row₂, -, hrow₂, h₂⟩
      · exact .inr ⟨row, row', hrow, hrest.trans hrow', hstatus⟩
      · exact .inr ⟨row, row₂, hrow, hrow₂, h₂⟩

theorem foldl_setWakeupTerminal_of_ne {R : Type} {entities : List (ℕ × R)} {now : ℤ}
    {key : String × ℕ} (h : ∀ e ∈ entities, key ≠ (queue, e.1))
    (wakeups : Dict (String × ℕ) DurableWakeupRecord) :
    (entities.foldl (fun wakeups e => setWakeupTerminal wakeups queue e.1 now) wakeups).lookup
      key = wakeups.lookup key := by
  induction entities generalizing wakeups with
  | nil => rfl
  | cons e entities ih =>
    rw [List.forall_mem_cons] at h
    rw [List.foldl_cons, ih h.2]
    exact lookup_updateWakeup_of_ne h.1

end

/-- The entities of a queue, and the calls of its workers. -/
structure WakeupQueue (T R C : Type) where
  name : String
  rows : T → Dict ℕ R
  closed : R → Bool
  perform : T → Durable → C → T × Durable
  fresh_le : ∀ t d call, d.nextToken ≤ (perform t d call).2.nextToken
  turn : ∀ t d call, (rows t).keys.Nodup → Turn closed name (rows t) d.wakeups
    (rows (perform t d call).1) (perform t d call).2.wakeups

/-! ## Queues under one dispatcher -/

section

variable {Q : Type} [DecidableEq Q] {T R C : Q → Type}

/-- The tables of every queue, and the wake-ups they share. -/
structure Database (T : Q → Type) where
  tables : ∀ q, T q
  durable : Durable

/-- A call of the dispatcher, or of a worker of a queue. -/
inductive DatabaseCall (C : Q → Type)
  | claimDue (now leaseDuration : ℤ) (limit : ℕ)
  | acknowledgeDispatch (queue : String) (entityId leaseToken : ℕ) (now repairAfter : ℤ)
  | rescheduleAfterFailure (queue : String) (entityId leaseToken : ℕ) (retryAfter : ℤ)
  | work (q : Q) (call : C q)

namespace Database

variable (idLE : String × ℕ → String × ℕ → Bool) (queues : ∀ q, WakeupQueue (T q) (R q) (C q))

/-- One call. -/
def step (s : Database T) : DatabaseCall C → Option (Database T)
  | .claimDue now leaseDuration limit =>
    some { s with durable := (s.durable.claimDue idLE now leaseDuration limit).1 }
  | .acknowledgeDispatch queue entityId leaseToken now repairAfter =>
    some { s with
      durable := (s.durable.acknowledgeDispatch queue entityId leaseToken now repairAfter).1 }
  | .rescheduleAfterFailure queue entityId leaseToken retryAfter =>
    some { s with
      durable := (s.durable.rescheduleAfterFailure queue entityId leaseToken retryAfter).1 }
  | .work q call =>
    let (tables, durable) := (queues q).perform (s.tables q) s.durable call
    some { tables := Function.update s.tables q tables, durable }

/-- An entity of a queue. -/
def entity (s : Database T) (q : Q) (id : ℕ) : Option (R q) :=
  ((queues q).rows (s.tables q)).lookup id

/-- The wake-up of an entity. -/
def wakeup (s : Database T) (q : Q) (id : ℕ) : Option DurableWakeupRecord :=
  s.durable.wakeups.lookup ((queues q).name, id)

/-- The invariant of the calls. -/
structure Inv (s : Database T) : Prop where
  nodup : ∀ q, ((queues q).rows (s.tables q)).keys.Nodup
  woken : ∀ q id, Woken (queues q).closed (s.entity queues q id) (s.wakeup queues q id)

/-- A token was drawn, and no wake-up of this name is leased under it. -/
structure Lost (key : String × ℕ) (k : ℕ) (s : Database T) : Prop where
  drawn : k < s.durable.nextToken
  lost : ∀ row, s.durable.wakeups.lookup key = some row → row.status = .leased →
    row.leaseToken ≠ some k

/-- What durable wake-ups promise of a state: an open entity has a wake-up that is pending or
leased, and from some time on the dispatcher claims it, unless the limit is met; a completed
wake-up is that of a closed entity; and once a token of a claim is not current, nothing that
is called under it ever has an effect. -/
structure NeverLost (s : Database T) : Prop where
  waits : ∀ q id r, s.entity queues q id = some r → (queues q).closed r = false →
    ∃ row start, s.wakeup queues q id = some row ∧ row.status.isOpen = true ∧
      ∀ now leaseDuration limit, start ≤ now → (s.durable.dueRows now).length ≤ limit →
        ∃ claim ∈ (s.durable.claimDue idLE now leaseDuration limit).2,
          claim.queue = (queues q).name ∧ claim.entityId = id
  ended : ∀ q id row, s.wakeup queues q id = some row → row.status = .completed →
    ∃ r, s.entity queues q id = some r ∧ (queues q).closed r = true
  drawn : ∀ now leaseDuration limit claim,
    claim ∈ (s.durable.claimDue idLE now leaseDuration limit).2 →
      claim.leaseToken < (s.durable.claimDue idLE now leaseDuration limit).1.nextToken
  stale : ∀ queue entityId k, Lost (queue, entityId) k s → ∀ calls s',
    Runs.run (step idLE queues) s calls = some s' → ∀ now retryAt,
      s'.durable.acknowledgeDispatch queue entityId k now retryAt = (s'.durable, false) ∧
        s'.durable.rescheduleAfterFailure queue entityId k retryAt = (s'.durable, false)

/-- Each entity is open and was made with its wake-up. -/
structure Start (s : Database T) : Prop where
  nodup : ∀ q, ((queues q).rows (s.tables q)).keys.Nodup
  made : ∀ q id, (s.entity queues q id = none ∧ s.wakeup queues q id = none) ∨
    ∃ r availableAt, s.entity queues q id = some r ∧ (queues q).closed r = false ∧
      s.wakeup queues q id = some (newWakeup availableAt)

variable {idLE queues} {s s' : Database T} {call : DatabaseCall C}

omit [DecidableEq Q] in
theorem inv_of_start (h : s.Start queues) : s.Inv queues where
  nodup := h.nodup
  woken := by
    intro q id
    rcases h.made q id with ⟨hentity, hwakeup⟩ | ⟨r, availableAt, hentity, -, hwakeup⟩
    · rw [hentity, hwakeup]
      exact ⟨nofun, nofun⟩
    · rw [hwakeup]
      exact .of_dueFrom (dueFrom_of_pending rfl) _

/-- What the dispatcher does is seen in the shared table only. -/
theorem dispatch_cases (hstep : step idLE queues s call = some s') :
    (∃ q c, call = .work q c) ∨ (s'.tables = s.tables ∧
      s.durable.nextToken ≤ s'.durable.nextToken ∧ ∀ key,
        Durable.Signal s.durable.nextToken (s.durable.wakeups.lookup key)
          (s'.durable.wakeups.lookup key)) := by
  cases call with
  | claimDue now leaseDuration limit =>
    obtain rfl := Option.some.inj hstep
    exact .inr ⟨rfl, Nat.le_add_right _ _, Durable.signal_claimDue _ _ _ _⟩
  | acknowledgeDispatch queue entityId leaseToken now repairAfter =>
    obtain rfl := Option.some.inj hstep
    refine .inr ⟨rfl, ?_, Durable.signal_releaseClaim _ _ _ _ _ _⟩
    dsimp only [Durable.acknowledgeDispatch, Durable.releaseClaim]
    split <;> exact le_rfl
  | rescheduleAfterFailure queue entityId leaseToken retryAfter =>
    obtain rfl := Option.some.inj hstep
    refine .inr ⟨rfl, ?_, Durable.signal_releaseClaim _ _ _ _ _ _⟩
    dsimp only [Durable.rescheduleAfterFailure, Durable.releaseClaim]
    split <;> exact le_rfl
  | work q c => exact .inl ⟨q, c, rfl⟩

/-- Every call keeps the invariant, when the queues have different names. -/
theorem Inv.step (hnames : ∀ q q', (queues q).name = (queues q').name → q = q')
    (h : s.Inv queues) (hstep : step idLE queues s call = some s') : s'.Inv queues := by
  rcases dispatch_cases hstep with ⟨q, c, rfl⟩ | ⟨htables, -, hsignal⟩
  · obtain rfl := Option.some.inj hstep
    refine ⟨?_, ?_⟩
    · intro q'
      dsimp only
      by_cases hq : q' = q
      · subst hq
        rw [Function.update_self]
        exact ((queues q').turn _ _ _ (h.nodup q')).nodup
      · rw [Function.update_of_ne hq]
        exact h.nodup q'
    · intro q' id
      have hwoken := h.woken q' id
      dsimp only [entity, wakeup] at hwoken ⊢
      by_cases hq : q' = q
      · subst hq
        rw [Function.update_self]
        exact hwoken.work (((queues q').turn _ _ _ (h.nodup q')).work id)
      · rw [Function.update_of_ne hq, ((queues q).turn _ _ _ (h.nodup q)).others _
          fun hname => hq (hnames q' q hname)]
        exact hwoken
  · refine ⟨?_, ?_⟩
    · rw [htables]
      exact h.nodup
    · intro q id
      have hwoken := h.woken q id
      dsimp only [entity, wakeup] at hwoken ⊢
      rw [htables]
      exact hwoken.signal (hsignal _)

theorem Inv.run (hnames : ∀ q q', (queues q).name = (queues q').name → q = q')
    (h : s.Inv queues) {calls : List (DatabaseCall C)}
    (hrun : Runs.run (Database.step idLE queues) s calls = some s') : s'.Inv queues :=
  Runs.run_invariant' (fun _ _ _ h hstep => h.step hnames hstep) h hrun

/-- A token that is lost stays lost. -/
theorem Lost.step {key : String × ℕ} {k : ℕ} (h : Lost key k s) (hinv : s.Inv queues)
    (hstep : step idLE queues s call = some s') : Lost key k s' := by
  rcases dispatch_cases hstep with ⟨q, c, rfl⟩ | ⟨-, hle, hsignal⟩
  · obtain rfl := Option.some.inj hstep
    refine ⟨Nat.lt_of_lt_of_le h.drawn ((queues q).fresh_le _ _ _), ?_⟩
    have hkept : ∀ o, o = s.durable.wakeups.lookup key → ∀ row, o = some row →
        row.status = .leased → row.leaseToken ≠ some k := fun _ ho row hrow =>
      h.lost row (ho ▸ hrow)
    have hturn := (queues q).turn (s.tables q) s.durable c (hinv.nodup q)
    dsimp only
    by_cases hkey : key.1 = (queues q).name
    · obtain ⟨_, id⟩ := key
      obtain rfl := hkey
      rcases (hturn.work id).not_leased with hsame | hnot
      · exact hkept _ hsame
      · exact fun row hrow hleased => absurd hleased (hnot row hrow)
    · exact hkept _ (hturn.others key hkey)
  · refine ⟨Nat.lt_of_lt_of_le h.drawn hle, ?_⟩
    intro row hrow hleased
    have hkey := hsignal key
    rw [hrow] at hkey
    cases hkeys : s.durable.wakeups.lookup key with
    | none =>
      rw [hkeys] at hkey
      cases hkey
    | some row₀ =>
      rw [hkeys] at hkey
      cases hkey with
      | kept => exact h.lost row hkeys hleased
      | leased hk htoken =>
        rw [htoken]
        have hdrawn := h.drawn
        rintro ⟨⟩
        omega
      | released hstatus => simp [hstatus] at hleased

theorem Lost.run (hnames : ∀ q q', (queues q).name = (queues q').name → q = q')
    {key : String × ℕ} {k : ℕ} (h : Lost key k s) (hinv : s.Inv queues)
    {calls : List (DatabaseCall C)}
    (hrun : Runs.run (Database.step idLE queues) s calls = some s') : Lost key k s' := by
  have hboth : Lost key k s' ∧ s'.Inv queues := by
    refine @Runs.run_invariant' _ _ _ (fun s => Lost key k s ∧ s.Inv queues) ?_ _ _ _ ⟨h, hinv⟩ hrun
    rintro s call s' ⟨h, hinv⟩ hstep
    exact ⟨h.step hinv hstep, hinv.step hnames hstep⟩
  exact hboth.1

omit [DecidableEq Q] in
/-- The dispatcher claims the wake-up of an open entity from some time on. -/
theorem Inv.claimed_of_open (h : s.Inv queues) {q : Q} {id : ℕ} {r : R q}
    (hr : s.entity queues q id = some r) (hopen : (queues q).closed r = false) :
    ∃ row start, s.wakeup queues q id = some row ∧ row.status.isOpen = true ∧
      ∀ now leaseDuration limit, start ≤ now → (s.durable.dueRows now).length ≤ limit →
        ∃ claim ∈ (s.durable.claimDue idLE now leaseDuration limit).2,
          claim.queue = (queues q).name ∧ claim.entityId = id := by
  obtain ⟨row, hrow, start, hstart⟩ := (h.woken q id).waits r hr hopen
  refine ⟨row, start, hrow, DurableWakeupRecord.isOpen_of_dueFrom hstart, ?_⟩
  intro now leaseDuration limit hnow hlimit
  exact Durable.mem_dueClaims hrow (DurableWakeupRecord.due_of_dueFrom hstart hnow) hlimit

/-- What durable wake-ups promise holds in every state of the calls. -/
theorem Inv.neverLost (hnames : ∀ q q', (queues q).name = (queues q').name → q = q')
    (h : s.Inv queues) : s.NeverLost idLE queues where
  waits _ _ _ hr hopen := h.claimed_of_open hr hopen
  ended q id row hrow hcompleted := (h.woken q id).ended row hrow hcompleted
  drawn _ _ _ _ hclaim := (Durable.token_of_dueClaims hclaim).2
  stale queue entityId k hlost calls s' hrun now retryAt := by
    have hlost' := (hlost.run hnames h hrun).lost
    exact ⟨Durable.releaseClaim_eq_self hlost' _ _, Durable.releaseClaim_eq_self hlost' _ _⟩

end Database

end

end TgCurator
