import TgCurator.Rows
import TgCurator.Shared

/-!
# Durable wake-ups

The rows of `durable_wakeups`, keyed by their unique queue and entity, and the two updates
that the workers of every queue make: `_reschedule_wakeup` and `_set_wakeup_terminal`. The
rows they write meet the checks of the table (`all_checks_updateWakeup`).
-/

namespace TgCurator

/-- `durable_wakeup_status`. -/
inductive WakeupStatus
  | pending
  | leased
  | completed
  | cancelled
  deriving DecidableEq

/-- Whether a wake-up is still to be dispatched, or is being dispatched. -/
def WakeupStatus.isOpen : WakeupStatus → Bool
  | pending | leased => true
  | completed | cancelled => false

/-- A row of `durable_wakeups`, apart from its key. -/
structure DurableWakeupRecord where
  status : WakeupStatus
  nextAttemptAt : ℤ
  leaseToken : Option ℕ
  leaseExpiresAt : Option ℤ
  dispatchAttempts : ℕ
  lastDispatchedAt : Option ℤ
  completedAt : Option ℤ

/-- The wake-up added beside a new entity. -/
def newWakeup (availableAt : ℤ) : DurableWakeupRecord where
  status := .pending
  nextAttemptAt := availableAt
  leaseToken := none
  leaseExpiresAt := none
  dispatchAttempts := 0
  lastDispatchedAt := none
  completedAt := none

/-- Change the wake-up of an entity unless it is cancelled. -/
def updateWakeup (wakeups : Dict (String × ℕ) DurableWakeupRecord) (queue : String)
    (entityId : ℕ) (change : DurableWakeupRecord → DurableWakeupRecord) :
    Dict (String × ℕ) DurableWakeupRecord :=
  match wakeups.lookup (queue, entityId) with
  | none => wakeups
  | some wakeup =>
    if wakeup.status = .cancelled then wakeups else wakeups.set (queue, entityId) (change wakeup)

/-- `_reschedule_wakeup`. -/
def rescheduleWakeup (wakeups : Dict (String × ℕ) DurableWakeupRecord) (queue : String)
    (entityId : ℕ) (retryAt : ℤ) : Dict (String × ℕ) DurableWakeupRecord :=
  updateWakeup wakeups queue entityId fun wakeup =>
    { wakeup with
      status := .pending
      nextAttemptAt := retryAt
      leaseToken := none
      leaseExpiresAt := none
      completedAt := none }

/-- `_set_wakeup_terminal`. -/
def setWakeupTerminal (wakeups : Dict (String × ℕ) DurableWakeupRecord) (queue : String)
    (entityId : ℕ) (now : ℤ) : Dict (String × ℕ) DurableWakeupRecord :=
  updateWakeup wakeups queue entityId fun wakeup =>
    { wakeup with
      status := .completed
      leaseToken := none
      leaseExpiresAt := none
      completedAt := some now }

/-! ## Checks -/

/-- The checks of `durable_wakeups`. -/
structure DurableWakeupRecord.Checks (row : DurableWakeupRecord) : Prop where
  /-- `durable_wakeup_lease` -/
  lease : (row.status = .leased ∧ row.leaseToken.isSome ∧ row.leaseExpiresAt.isSome) ∨
    (row.status ≠ .leased ∧ row.leaseToken = none ∧ row.leaseExpiresAt = none)

theorem checks_newWakeup (availableAt : ℤ) : (newWakeup availableAt).Checks :=
  ⟨.inr ⟨by simp [newWakeup], rfl, rfl⟩⟩

section

variable {wakeups : Dict (String × ℕ) DurableWakeupRecord} {queue : String} {entityId : ℕ}

theorem all_checks_updateWakeup {change : DurableWakeupRecord → DurableWakeupRecord}
    (h : wakeups.All DurableWakeupRecord.Checks) (hchange : ∀ row, (change row).Checks) :
    (updateWakeup wakeups queue entityId change).All DurableWakeupRecord.Checks := by
  unfold updateWakeup
  cases wakeups.lookup (queue, entityId) with
  | none => exact h
  | some wakeup =>
    dsimp only
    split_ifs
    · exact h
    · exact h.set (hchange wakeup)

theorem all_checks_rescheduleWakeup (h : wakeups.All DurableWakeupRecord.Checks) (retryAt : ℤ) :
    (rescheduleWakeup wakeups queue entityId retryAt).All DurableWakeupRecord.Checks :=
  all_checks_updateWakeup h fun _ => ⟨.inr ⟨by simp, rfl, rfl⟩⟩

theorem all_checks_setWakeupTerminal (h : wakeups.All DurableWakeupRecord.Checks) (now : ℤ) :
    (setWakeupTerminal wakeups queue entityId now).All DurableWakeupRecord.Checks :=
  all_checks_updateWakeup h fun _ => ⟨.inr ⟨by simp, rfl, rfl⟩⟩

end

end TgCurator
