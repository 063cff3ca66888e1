import TgCurator.Lease.Repository
import TgCurator.Processing.Repository

/-!
# The leases of range executions

The calls of the scheduler and of the workers on `range_executions`, in any order and with
any arguments, as a repository of leased rows: an execution is active until it is completed
or failed, and its token, attempts and bound are its lease columns. A claim that is returned
is a grant, and `complete_execution` returning true is a commit.
-/

namespace TgCurator

/-- The lease columns of `range_executions`. -/
def rangeColumns : Lease.Columns RangeExecutionRecord where
  active row := row.status.isActive
  running row := row.status = .running
  token row := row.leaseToken
  attempts row := row.attemptCount
  maxAttempts row := row.maxAttempts
  active_of_running := by
    intro row h
    rw [of_decide_eq_true h]
    rfl

/-- A call on the executions. -/
inductive RangeCall
  | createExecutionAndWakeup (execution : PendingRangeExecution) (queue : String) (availableAt : ℤ)
  | claimExecution (executionId : ℕ) (now leaseDuration : ℤ)
  | advanceWatermark (executionId leaseToken watermarkMessageId : ℕ) (now : ℤ)
  | completeExecution (executionId leaseToken : ℕ) (now : ℤ)
  | failExecution (executionId leaseToken : ℕ) (errorCode errorType : String) (retryable : Bool)
    (retryAt now : ℤ)

/-- The execution and the lease token that a call presents. -/
def RangeCall.presents : RangeCall → Option (ℕ × ℕ)
  | createExecutionAndWakeup .. => none
  | claimExecution .. => none
  | advanceWatermark executionId leaseToken .. => some (executionId, leaseToken)
  | completeExecution executionId leaseToken .. => some (executionId, leaseToken)
  | failExecution executionId leaseToken .. => some (executionId, leaseToken)

namespace ProcessingTables

/-- A call, with the grant or the completion that its caller learns of. -/
def perform (t : ProcessingTables) : RangeCall → ProcessingTables × Option (ℕ × Lease.Event ℕ)
  | .createExecutionAndWakeup execution queue availableAt =>
    match t.createExecutionAndWakeup execution queue availableAt with
    | .ok (t, _) => (t, none)
    | .error _ => (t, none)
  | .claimExecution executionId now leaseDuration =>
    let (t, claim) := t.claimExecution executionId now leaseDuration
    (t, claim.map fun claim => (claim.executionId, .granted claim.leaseToken))
  | .advanceWatermark executionId leaseToken watermarkMessageId now =>
    ((t.advanceWatermark executionId leaseToken watermarkMessageId now).1, none)
  | .completeExecution executionId leaseToken now =>
    match t.completeExecution executionId leaseToken now with
    | .ok (t, true) => (t, some (executionId, .committed leaseToken))
    | .ok (t, false) => (t, none)
    | .error _ => (t, none)
  | .failExecution executionId leaseToken errorCode errorType retryable retryAt now =>
    ((t.failExecution executionId leaseToken errorCode errorType retryable retryAt now).1, none)

variable {t : ProcessingTables}

theorem touches_createExecutionAndWakeup {execution : PendingRangeExecution} {queue : String}
    {availableAt : ℤ} {t' : ProcessingTables} {created : Bool}
    (h : t.createExecutionAndWakeup execution queue availableAt = .ok (t', created)) :
    rangeColumns.Touches t.executions none t'.executions := by
  unfold createExecutionAndWakeup at h
  cases hrow : t.freezeRow execution.processingRangeId with
  | none =>
    rw [hrow] at h
    obtain ⟨rfl, -⟩ := Prod.mk.inj (Except.ok.inj h)
    exact .refl _ _
  | some e =>
    rw [hrow] at h
    dsimp only at h
    split_ifs at h with hfreeze hchecks hconflict hwakeup
    · obtain ⟨rfl, -⟩ := Prod.mk.inj (Except.ok.inj h)
      exact .refl _ _
    · obtain ⟨rfl, -⟩ := Prod.mk.inj (Except.ok.inj h)
      exact .refl _ _
    · obtain ⟨rfl, -⟩ := Prod.mk.inj (Except.ok.inj h)
      exact .made (lookup_of_not_insertConflicts hconflict) rfl ⟨rfl, rfl, rfl⟩

theorem touches_claimExecution (t : ProcessingTables) (executionId : ℕ) (now leaseDuration : ℤ) :
    rangeColumns.Touches t.executions (t.perform (.claimExecution executionId now leaseDuration)).2
      (t.perform (.claimExecution executionId now leaseDuration)).1.executions := by
  dsimp only [perform]
  unfold claimExecution
  cases hrow : t.executions.lookup executionId with
  | none => exact .refl _ _
  | some row =>
    dsimp only
    cases t.ranges.lookup row.processingRangeId with
    | none => exact .refl _ _
    | some range =>
      dsimp only
      split_ifs with heligible hexhausted
      · exact .refl _ _
      · have hactive := RangeExecutionRecord.isActive_of_eligible (by simpa using heligible)
        exact .stopped hrow hactive rfl rfl ⟨rfl, rfl⟩
      · have hactive := RangeExecutionRecord.isActive_of_eligible (by simpa using heligible)
        exact .granted hrow hactive (Nat.lt_of_not_le hexhausted) rfl rfl rfl rfl

theorem touches_advanceWatermark (t : ProcessingTables)
    (executionId leaseToken watermarkMessageId : ℕ) (now : ℤ) :
    rangeColumns.Touches t.executions none
      (t.advanceWatermark executionId leaseToken watermarkMessageId now).1.executions := by
  unfold advanceWatermark
  cases hlocked : t.lockedActiveRow executionId leaseToken now with
  | none => exact .refl _ _
  | some row =>
    obtain ⟨hrow, hrunning, htoken, -⟩ := lockedActiveRow_eq_some.mp hlocked
    dsimp only
    split_ifs
    · refine .changed hrow (by simp [rangeColumns, hrunning, ExecutionStatus.isActive]) rfl ?_
      simp [rangeColumns, hrunning, htoken]
    · exact .refl _ _

theorem touches_failExecution (t : ProcessingTables) (executionId leaseToken : ℕ)
    (errorCode errorType : String) (retryable : Bool) (retryAt now : ℤ) :
    rangeColumns.Touches t.executions none
      (t.failExecution executionId leaseToken errorCode errorType retryable retryAt
        now).1.executions := by
  unfold failExecution
  cases hlocked : t.lockedActiveRow executionId leaseToken now with
  | none => exact .refl _ _
  | some row =>
    obtain ⟨hrow, hrunning, htoken, -⟩ := lockedActiveRow_eq_some.mp hlocked
    have hactive : rangeColumns.active row = true := by
      simp [rangeColumns, hrunning, ExecutionStatus.isActive]
    dsimp only
    split_ifs
    · exact .returned hrow hactive htoken rfl rfl rfl ⟨rfl, rfl⟩
    · exact .stopped hrow hactive rfl rfl ⟨rfl, rfl⟩

theorem touches_completeExecution (t : ProcessingTables) (executionId leaseToken : ℕ) (now : ℤ) :
    rangeColumns.Touches t.executions (t.perform (.completeExecution executionId leaseToken now)).2
      (t.perform (.completeExecution executionId leaseToken now)).1.executions := by
  dsimp only [perform]
  unfold completeExecution
  cases hlocked : t.lockedActiveRow executionId leaseToken now with
  | none => exact .refl _ _
  | some row =>
    obtain ⟨hrow, hrunning, htoken, -⟩ := lockedActiveRow_eq_some.mp hlocked
    have hactive : rangeColumns.active row = true := by
      simp [rangeColumns, hrunning, ExecutionStatus.isActive]
    dsimp only
    split_ifs
    · exact .refl _ _
    cases t.ranges.lookup row.processingRangeId with
    | none => exact .refl _ _
    | some range =>
      dsimp only
      cases range.expectedWatermark with
      | none => exact .refl _ _
      | some expectedWatermark =>
        dsimp only
        split_ifs
        · exact .refl _ _
        · exact .committed hrow hactive htoken rfl rfl ⟨rfl, rfl⟩

/-- Only a claim that is granted draws a token. -/
theorem nextToken_perform (t : ProcessingTables) (call : RangeCall) :
    ((t.perform call).1.nextToken = t.nextToken ∧
        ∀ id k, (t.perform call).2 ≠ some (id, .granted k)) ∨
      ((t.perform call).1.nextToken = t.nextToken + 1 ∧
        ∃ id, (t.perform call).2 = some (id, .granted t.nextToken)) := by
  cases call with
  | createExecutionAndWakeup execution queue availableAt =>
    dsimp only [perform]
    split
    · next t' created h =>
      refine .inl ⟨?_, by simp⟩
      unfold createExecutionAndWakeup at h
      grind
    · exact .inl ⟨rfl, by simp⟩
  | claimExecution executionId now leaseDuration =>
    dsimp only [perform]
    unfold claimExecution
    split
    · exact .inl ⟨rfl, by simp⟩
    split
    · exact .inl ⟨rfl, by simp⟩
    split_ifs
    · exact .inl ⟨rfl, by simp⟩
    · exact .inl ⟨rfl, by simp⟩
    · exact .inr ⟨rfl, executionId, rfl⟩
  | advanceWatermark =>
    refine .inl ⟨?_, by simp [perform]⟩
    dsimp only [perform]
    unfold advanceWatermark
    grind
  | completeExecution =>
    refine .inl ⟨?_, ?_⟩ <;> dsimp only [perform] <;> unfold completeExecution <;> grind
  | failExecution =>
    refine .inl ⟨?_, by simp [perform]⟩
    dsimp only [perform]
    unfold failExecution
    grind

/-- A call that presents a token which is not the current one changes nothing. -/
theorem perform_stale {call : RangeCall} {id k : ℕ} (hcall : call.presents = some (id, k))
    (hstale : ∀ row, t.executions.lookup id = some row → row.leaseToken ≠ some k) :
    t.perform call = (t, none) := by
  have hlocked : ∀ now, t.lockedActiveRow id k now = none := by
    intro now
    rw [Option.eq_none_iff_forall_ne_some]
    intro row hrow
    obtain ⟨hrow, -, htoken, -⟩ := lockedActiveRow_eq_some.mp hrow
    exact hstale row hrow htoken
  cases call with
  | createExecutionAndWakeup => cases hcall
  | claimExecution => cases hcall
  | advanceWatermark =>
    obtain ⟨rfl, rfl⟩ := Prod.mk.inj (Option.some.inj hcall)
    rw [perform, advanceWatermark, hlocked]
  | completeExecution =>
    obtain ⟨rfl, rfl⟩ := Prod.mk.inj (Option.some.inj hcall)
    rw [perform, completeExecution, hlocked]
  | failExecution =>
    obtain ⟨rfl, rfl⟩ := Prod.mk.inj (Option.some.inj hcall)
    rw [perform, failExecution, hlocked]

/-- The calls on the executions as a repository of leased rows. -/
def rangeRepository : Lease.Repository ProcessingTables RangeCall ℕ RangeExecutionRecord where
  columns := rangeColumns
  rows := executions
  fresh := nextToken
  perform := perform
  presents := RangeCall.presents
  touches := by
    intro t call
    cases call with
    | createExecutionAndWakeup execution queue availableAt =>
      dsimp only [perform]
      split
      · exact touches_createExecutionAndWakeup ‹_›
      · exact .refl _ _
    | claimExecution executionId now leaseDuration => exact touches_claimExecution t _ _ _
    | advanceWatermark => exact touches_advanceWatermark t _ _ _ _
    | completeExecution => exact touches_completeExecution t _ _ _
    | failExecution => exact touches_failExecution t _ _ _ _ _ _ _
  fresh_le := by
    intro t call
    rcases nextToken_perform t call with ⟨hnext, -⟩ | ⟨hnext, -⟩ <;> omega
  granted_fresh := by
    intro t call id k hk
    rcases nextToken_perform t call with ⟨-, hnone⟩ | ⟨hnext, id', hgranted⟩
    · exact absurd hk (hnone id k)
    · obtain ⟨-, hk⟩ := Prod.mk.inj (Option.some.inj (hk.symm.trans hgranted))
      obtain rfl := Lease.Event.granted.inj hk
      omega
  committed_presents := by
    intro t call id k hk
    cases call with
    | createExecutionAndWakeup =>
      dsimp only [perform] at hk
      split at hk <;> cases hk
    | claimExecution =>
      obtain ⟨claim, -, hk⟩ := Option.map_eq_some_iff.mp hk
      cases hk
    | advanceWatermark => cases hk
    | completeExecution =>
      dsimp only [perform] at hk
      split at hk <;> cases hk
      rfl
    | failExecution => cases hk
  stale _ _ _ _ hcall hstale := perform_stale hcall hstale

end ProcessingTables

end TgCurator
