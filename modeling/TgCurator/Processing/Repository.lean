import TgCurator.Processing.Wakeups

/-!
# The range-processing repository

`infrastructure/database/processing_repository.py`: a schedule repository freezes the
next window of a processing range as an execution, and a worker repository leases
executions and records their progress under compare-by-lease. Each method is one
transaction; an exception rolls it back.

A table is a dictionary under its primary key, and a row keeps the columns that some
method reads or writes, apart from `created_at` and `updated_at`. A lease token is drawn
from a counter, standing for `uuid4`. What a method does to the executions and the ranges
is one of five things (`Transition`), of which the watermarks see four (`Effect`).
-/

namespace TgCurator

/-! ## Rows -/

/-- A row of `source_channels`. -/
structure SourceChannel where
  enabled : Bool
  activeProfileVersionId : Option ℕ

/-- `processing_range_end_mode`. -/
inductive EndMode
  | fixed
  | latest
  deriving DecidableEq

/-- `processing_range_status`. -/
inductive RangeStatus
  | pending
  | active
  | paused
  | completed
  | failed
  deriving DecidableEq

/-- A row of `processing_ranges`. -/
structure ProcessingRangeRecord where
  sourceChannelId : ℕ
  endMode : EndMode
  resolvedStartMessageId : Option ℕ
  resolvedFixedEndMessageId : Option ℕ
  processingWatermarkMessageId : Option ℕ
  activeHighWatermarkMessageId : Option ℕ
  status : RangeStatus
  enabled : Bool
  /-- `processing_range_start_message_positive` -/
  start_pos : ∀ start, resolvedStartMessageId = some start → 0 < start

/-- `range_execution_status`. -/
inductive ExecutionStatus
  | pending
  | running
  | retryWait
  | completed
  | failed
  deriving DecidableEq

/-- The statuses of `uq_range_execution_one_active`. -/
def ExecutionStatus.isActive : ExecutionStatus → Bool
  | pending | running | retryWait => true
  | completed | failed => false

/-- A row of `range_executions`. -/
structure RangeExecutionRecord where
  processingRangeId : ℕ
  sourceProfileVersionId : ℕ
  fromMessageIdExclusive : ℕ
  toMessageIdInclusive : ℕ
  watermarkMessageId : ℕ
  status : ExecutionStatus
  attemptCount : ℕ
  maxAttempts : ℕ
  nextRetryAt : Option ℤ
  leaseToken : Option ℕ
  leaseExpiresAt : Option ℤ
  lastErrorCode : Option String
  lastErrorType : Option String
  lastFailureAt : Option ℤ
  startedAt : Option ℤ
  completedAt : Option ℤ
  /-- `range_execution_bounds` -/
  bounds : fromMessageIdExclusive < toMessageIdInclusive

/-- `PendingRangeExecution`. -/
structure PendingRangeExecution where
  executionId : ℕ
  processingRangeId : ℕ
  sourceProfileVersionId : ℕ
  fromMessageIdExclusive : ℕ
  toMessageIdInclusive : ℕ
  maxAttempts : ℕ

/-- `ClaimedRangeExecution`. -/
structure ClaimedRangeExecution where
  executionId : ℕ
  processingRangeId : ℕ
  sourceChannelId : ℕ
  sourceProfileVersionId : ℕ
  fromMessageIdExclusive : ℕ
  toMessageIdInclusive : ℕ
  watermarkMessageId : ℕ
  attemptCount : ℕ
  maxAttempts : ℕ
  leaseToken : ℕ
  deriving DecidableEq

/-- The tables. -/
structure ProcessingTables where
  sources : Dict ℕ SourceChannel
  ranges : Dict ℕ ProcessingRangeRecord
  executions : Dict ℕ RangeExecutionRecord
  wakeups : Dict (String × ℕ) DurableWakeupRecord
  nextToken : ℕ

/-- `RANGE_EXECUTION_QUEUE`. -/
def rangeExecutionQueue : String :=
  "range_execution"

/-! ## Freezing a window -/

/-- The watermark, or the id before the resolved start; `None - 1` raises. -/
def ProcessingRangeRecord.expectedWatermark (range : ProcessingRangeRecord) : Option ℕ :=
  range.processingWatermarkMessageId <|> range.resolvedStartMessageId.map (· - 1)

/-- `_can_freeze`. -/
def canFreeze (range : ProcessingRangeRecord) (source : SourceChannel)
    (execution : PendingRangeExecution) : Bool :=
  if !source.enabled || !range.enabled || !(range.status = .pending || range.status = .active) ||
      range.activeHighWatermarkMessageId.isSome || range.resolvedStartMessageId.isNone ||
      source.activeProfileVersionId ≠ some execution.sourceProfileVersionId then false
  else
    match range.expectedWatermark with
    | none => false
    | some expectedFrom =>
      if execution.fromMessageIdExclusive ≠ expectedFrom then false
      else if execution.toMessageIdInclusive ≤ expectedFrom then false
      else !(range.endMode = .fixed &&
        some execution.toMessageIdInclusive ≠ range.resolvedFixedEndMessageId)

/-- The row that is inserted. -/
def PendingRangeExecution.row (execution : PendingRangeExecution)
    (h : execution.fromMessageIdExclusive < execution.toMessageIdInclusive) :
    RangeExecutionRecord where
  processingRangeId := execution.processingRangeId
  sourceProfileVersionId := execution.sourceProfileVersionId
  fromMessageIdExclusive := execution.fromMessageIdExclusive
  toMessageIdInclusive := execution.toMessageIdInclusive
  watermarkMessageId := execution.fromMessageIdExclusive
  status := .pending
  attemptCount := 0
  maxAttempts := execution.maxAttempts
  nextRetryAt := none
  leaseToken := none
  leaseExpiresAt := none
  lastErrorCode := none
  lastErrorType := none
  lastFailureAt := none
  startedAt := none
  completedAt := none
  bounds := h

namespace ProcessingTables

/-- Whether the insert meets a row under the primary key or a unique index. -/
def insertConflicts (t : ProcessingTables) (execution : PendingRangeExecution) : Bool :=
  t.executions.any fun e =>
    e.1 = execution.executionId ||
      (e.2.processingRangeId = execution.processingRangeId &&
        (e.2.status.isActive ||
          (e.2.fromMessageIdExclusive = execution.fromMessageIdExclusive &&
            e.2.toMessageIdInclusive = execution.toMessageIdInclusive)))

/-- `processing_range_freeze_statement`: the range and its source. -/
def freezeRow (t : ProcessingTables) (processingRangeId : ℕ) :
    Option (ProcessingRangeRecord × SourceChannel) := do
  let range ← t.ranges.lookup processingRangeId
  let source ← t.sources.lookup range.sourceChannelId
  return (range, source)

/-- `create_execution_and_wakeup`. The checks of the new row come before its unique
keys, and a conflict on these inserts nothing. -/
def createExecutionAndWakeup (t : ProcessingTables) (execution : PendingRangeExecution)
    (queue : String) (availableAt : ℤ) : Except PyError (ProcessingTables × Bool) :=
  match t.freezeRow execution.processingRangeId with
  | none => .ok (t, false)
  | some (range, source) =>
    if !canFreeze range source execution then .ok (t, false)
    else if h : execution.fromMessageIdExclusive < execution.toMessageIdInclusive ∧
        0 < execution.maxAttempts then
      if t.insertConflicts execution then .ok (t, false)
      else if (t.wakeups.lookup (queue, execution.executionId)).isSome then .error .integrityError
      else .ok
        ({ t with
          executions := t.executions.set execution.executionId (execution.row h.1)
          ranges := t.ranges.set execution.processingRangeId
            { range with
              activeHighWatermarkMessageId := some execution.toMessageIdInclusive
              status := .active }
          wakeups := t.wakeups.set (queue, execution.executionId) (newWakeup availableAt) }, true)
    else .error .integrityError

/-! ## Leasing and progress -/

/-- Mark a range failed, if it is there. -/
def failRange (ranges : Dict ℕ ProcessingRangeRecord) (processingRangeId : ℕ) :
    Dict ℕ ProcessingRangeRecord :=
  match ranges.lookup processingRangeId with
  | none => ranges
  | some range => ranges.set processingRangeId { range with status := .failed }

/-- `_terminalize_exhausted_lease`. -/
def terminalizeExhaustedLease (t : ProcessingTables) (executionId : ℕ)
    (row : RangeExecutionRecord) (now : ℤ) : ProcessingTables :=
  { t with
    executions := t.executions.set executionId
      { row with
        status := .failed
        nextRetryAt := none
        leaseToken := none
        leaseExpiresAt := none
        lastErrorCode := some "LEASE_EXPIRED"
        lastErrorType := some "WorkerLeaseExpired"
        lastFailureAt := some now }
    ranges := failRange t.ranges row.processingRangeId
    wakeups := setWakeupTerminal t.wakeups rangeExecutionQueue executionId now }

end ProcessingTables

/-- Whether an execution may be claimed. -/
def RangeExecutionRecord.eligible (row : RangeExecutionRecord) (now : ℤ) : Bool :=
  match row.status with
  | .completed | .failed => false
  | .pending => true
  | .retryWait => row.nextRetryAt.any (· ≤ now)
  | .running => row.leaseExpiresAt.any (· ≤ now)

/-- The row of an execution that is claimed. -/
def RangeExecutionRecord.lease (row : RangeExecutionRecord) (leaseToken : ℕ)
    (now leaseDuration : ℤ) : RangeExecutionRecord :=
  { row with
    status := .running
    attemptCount := row.attemptCount + 1
    nextRetryAt := none
    leaseToken := some leaseToken
    leaseExpiresAt := some (now + leaseDuration)
    startedAt := row.startedAt <|> some now }

/-- `_claimed`. -/
def RangeExecutionRecord.claimed (row : RangeExecutionRecord)
    (executionId sourceChannelId leaseToken : ℕ) : ClaimedRangeExecution where
  executionId := executionId
  processingRangeId := row.processingRangeId
  sourceChannelId := sourceChannelId
  sourceProfileVersionId := row.sourceProfileVersionId
  fromMessageIdExclusive := row.fromMessageIdExclusive
  toMessageIdInclusive := row.toMessageIdInclusive
  watermarkMessageId := row.watermarkMessageId
  attemptCount := row.attemptCount
  maxAttempts := row.maxAttempts
  leaseToken := leaseToken

namespace ProcessingTables

/-- `claim_execution`. -/
def claimExecution (t : ProcessingTables) (executionId : ℕ) (now leaseDuration : ℤ) :
    ProcessingTables × Option ClaimedRangeExecution :=
  match t.executions.lookup executionId with
  | none => (t, none)
  | some row =>
    match t.ranges.lookup row.processingRangeId with
    | none => (t, none)
    | some range =>
      if !row.eligible now then (t, none)
      else if row.maxAttempts ≤ row.attemptCount then
        (t.terminalizeExhaustedLease executionId row now, none)
      else
        ({ t with
          executions := t.executions.set executionId (row.lease t.nextToken now leaseDuration)
          nextToken := t.nextToken + 1 },
          some ((row.lease t.nextToken now leaseDuration).claimed executionId
            range.sourceChannelId t.nextToken))

/-- `_locked_active_row`. -/
def lockedActiveRow (t : ProcessingTables) (executionId leaseToken : ℕ) (now : ℤ) :
    Option RangeExecutionRecord :=
  (t.executions.lookup executionId).filter fun row =>
    row.status = .running && row.leaseToken = some leaseToken && row.leaseExpiresAt.any (now < ·)

/-- `advance_watermark`. -/
def advanceWatermark (t : ProcessingTables) (executionId leaseToken watermarkMessageId : ℕ)
    (now : ℤ) : ProcessingTables × Bool :=
  match t.lockedActiveRow executionId leaseToken now with
  | none => (t, false)
  | some row =>
    if row.watermarkMessageId ≤ watermarkMessageId ∧
        watermarkMessageId ≤ row.toMessageIdInclusive then
      ({ t with executions := t.executions.set executionId { row with watermarkMessageId } }, true)
    else (t, false)

end ProcessingTables

/-- The row of an execution that is completed. -/
def RangeExecutionRecord.complete (row : RangeExecutionRecord) (now : ℤ) : RangeExecutionRecord :=
  { row with
    status := .completed
    leaseToken := none
    leaseExpiresAt := none
    completedAt := some now }

/-- The row of a range whose frozen window is complete. -/
def ProcessingRangeRecord.advance (range : ProcessingRangeRecord) (toMessageIdInclusive : ℕ) :
    ProcessingRangeRecord :=
  { range with
    processingWatermarkMessageId := some toMessageIdInclusive
    activeHighWatermarkMessageId := none
    status :=
      if range.endMode = .fixed ∧
          some toMessageIdInclusive = range.resolvedFixedEndMessageId then .completed
      else .active }

namespace ProcessingTables

/-- `complete_execution`. -/
def completeExecution (t : ProcessingTables) (executionId leaseToken : ℕ) (now : ℤ) :
    Except PyError (ProcessingTables × Bool) :=
  match t.lockedActiveRow executionId leaseToken now with
  | none => .ok (t, false)
  | some row =>
    if row.watermarkMessageId ≠ row.toMessageIdInclusive then .ok (t, false)
    else
      match t.ranges.lookup row.processingRangeId with
      | none => .ok (t, false)
      | some range =>
        match range.expectedWatermark with
        | none => .error .typeError
        | some expectedWatermark =>
          if expectedWatermark ≠ row.fromMessageIdExclusive ∨
              range.activeHighWatermarkMessageId ≠ some row.toMessageIdInclusive then .ok (t, false)
          else .ok
            ({ t with
              executions := t.executions.set executionId (row.complete now)
              ranges := t.ranges.set row.processingRangeId (range.advance row.toMessageIdInclusive)
              wakeups := setWakeupTerminal t.wakeups rangeExecutionQueue executionId now }, true)

/-- `fail_execution`. -/
def failExecution (t : ProcessingTables) (executionId leaseToken : ℕ)
    (errorCode errorType : String) (retryable : Bool) (retryAt now : ℤ) :
    ProcessingTables × Bool :=
  match t.lockedActiveRow executionId leaseToken now with
  | none => (t, false)
  | some row =>
    let row :=
      { row with
        lastErrorCode := some errorCode
        lastErrorType := some errorType
        lastFailureAt := some now
        leaseToken := none
        leaseExpiresAt := none }
    if retryable && row.attemptCount < row.maxAttempts then
      ({ t with
        executions := t.executions.set executionId
          { row with status := .retryWait, nextRetryAt := some retryAt }
        wakeups := rescheduleWakeup t.wakeups rangeExecutionQueue executionId retryAt }, true)
    else
      ({ t with
        executions := t.executions.set executionId
          { row with status := .failed, nextRetryAt := none }
        ranges := failRange t.ranges row.processingRangeId
        wakeups := setWakeupTerminal t.wakeups rangeExecutionQueue executionId now }, true)

end ProcessingTables

/-! ## What a method can do -/

/-- The source channel, the resolved start and the two watermarks of a range. -/
def ProcessingRangeRecord.marks (range : ProcessingRangeRecord) :
    ℕ × Option ℕ × Option ℕ × Option ℕ :=
  (range.sourceChannelId, range.resolvedStartMessageId, range.processingWatermarkMessageId,
    range.activeHighWatermarkMessageId)

/-- The window of an execution. -/
def RangeExecutionRecord.window (row : RangeExecutionRecord) : ℕ × ℕ :=
  (row.fromMessageIdExclusive, row.toMessageIdInclusive)

/-- The range and the window of an execution. -/
def RangeExecutionRecord.work (row : RangeExecutionRecord) : ℕ × ℕ × ℕ :=
  (row.processingRangeId, row.window)

namespace ProcessingTables

/-- What a transaction does to the executions and the ranges, and the execution it completes. -/
inductive Transition (t t' : ProcessingTables) : Option ℕ → Prop
  /-- it leaves them -/
  | kept (hexecutions : t'.executions = t.executions) (hranges : t'.ranges = t.ranges) :
    Transition t t' none
  /-- it freezes a window -/
  | froze {execution : PendingRangeExecution} {range : ProcessingRangeRecord}
    {source : SourceChannel}
    (h : execution.fromMessageIdExclusive < execution.toMessageIdInclusive)
    (hrange : t.ranges.lookup execution.processingRangeId = some range)
    (hfreeze : canFreeze range source execution = true)
    (hconflict : ¬t.insertConflicts execution = true)
    (hexecutions : t'.executions = t.executions.set execution.executionId (execution.row h))
    (hranges : t'.ranges = t.ranges.set execution.processingRangeId
      { range with
        activeHighWatermarkMessageId := some execution.toMessageIdInclusive, status := .active }) :
    Transition t t' none
  /-- it changes an active execution, which stays active -/
  | moved {id : ℕ} {row row' : RangeExecutionRecord} (hrow : t.executions.lookup id = some row)
    (hactive : row.status.isActive) (hexecutions : t'.executions = t.executions.set id row')
    (hranges : t'.ranges = t.ranges) (hactive' : row'.status.isActive)
    (hwork : row'.work = row.work) : Transition t t' none
  /-- it fails an active execution -/
  | failed {id : ℕ} {row row' : RangeExecutionRecord} (hrow : t.executions.lookup id = some row)
    (hactive : row.status.isActive) (hexecutions : t'.executions = t.executions.set id row')
    (hranges : t'.ranges = failRange t.ranges row.processingRangeId)
    (hfailed : row'.status = .failed) (hwork : row'.work = row.work) : Transition t t' none
  /-- it completes the execution of the frozen window -/
  | completed {id : ℕ} {row row' : RangeExecutionRecord} {range : ProcessingRangeRecord}
    (hrow : t.executions.lookup id = some row) (hactive : row.status.isActive)
    (hrange : t.ranges.lookup row.processingRangeId = some range)
    (hexpected : range.expectedWatermark = some row.fromMessageIdExclusive)
    (hexecutions : t'.executions = t.executions.set id row')
    (hranges : t'.ranges = t.ranges.set row.processingRangeId
      (range.advance row.toMessageIdInclusive))
    (hcompleted : row'.status = .completed) (hwork : row'.work = row.work) :
    Transition t t' (some id)

variable {t t' : ProcessingTables}

theorem freezeRow_eq_some {rid : ℕ} {range : ProcessingRangeRecord} {source : SourceChannel} :
    t.freezeRow rid = some (range, source) ↔
      t.ranges.lookup rid = some range ∧ t.sources.lookup range.sourceChannelId = some source := by
  unfold freezeRow
  constructor
  · intro h
    obtain ⟨range', hrange, h⟩ := Option.bind_eq_some_iff.mp h
    obtain ⟨source', hsource, h⟩ := Option.bind_eq_some_iff.mp h
    obtain ⟨rfl, rfl⟩ := Prod.mk.inj (Option.some.inj h)
    exact ⟨hrange, hsource⟩
  · rintro ⟨hrange, hsource⟩
    simp [hrange, hsource]

theorem lookup_of_not_insertConflicts {execution : PendingRangeExecution}
    (h : ¬t.insertConflicts execution = true) :
    t.executions.lookup execution.executionId = none := by
  rw [Dict.lookup_eq_none]
  intro hmem
  obtain ⟨row, hmem⟩ := Dict.mem_keys.mp hmem
  exact h (List.any_eq_true.mpr ⟨_, hmem, by simp⟩)

theorem transition_createExecutionAndWakeup {execution : PendingRangeExecution} {queue : String}
    {availableAt : ℤ} {created : Bool}
    (h : t.createExecutionAndWakeup execution queue availableAt = .ok (t', created)) :
    Transition t t' none := by
  unfold createExecutionAndWakeup at h
  cases hrow : t.freezeRow execution.processingRangeId with
  | none =>
    rw [hrow] at h
    obtain ⟨rfl, -⟩ := Prod.mk.inj (Except.ok.inj h)
    exact .kept rfl rfl
  | some e =>
    obtain ⟨range, source⟩ := e
    rw [hrow] at h
    dsimp only at h
    split_ifs at h with hfreeze hchecks hconflict hwakeup
    · obtain ⟨rfl, -⟩ := Prod.mk.inj (Except.ok.inj h)
      exact .kept rfl rfl
    · obtain ⟨rfl, -⟩ := Prod.mk.inj (Except.ok.inj h)
      exact .kept rfl rfl
    · obtain ⟨rfl, -⟩ := Prod.mk.inj (Except.ok.inj h)
      exact .froze hchecks.1 (freezeRow_eq_some.mp hrow).1 (by simpa using hfreeze) hconflict rfl rfl

theorem RangeExecutionRecord.isActive_of_eligible {row : RangeExecutionRecord} {now : ℤ}
    (h : row.eligible now = true) : row.status.isActive = true := by
  unfold RangeExecutionRecord.eligible at h
  cases hstatus : row.status <;> simp_all [ExecutionStatus.isActive]

theorem transition_claimExecution (t : ProcessingTables) (executionId : ℕ)
    (now leaseDuration : ℤ) :
    Transition t (t.claimExecution executionId now leaseDuration).1 none := by
  unfold claimExecution
  cases hrow : t.executions.lookup executionId with
  | none => exact .kept rfl rfl
  | some row =>
    dsimp only
    cases t.ranges.lookup row.processingRangeId with
    | none => exact .kept rfl rfl
    | some range =>
      dsimp only
      split_ifs with heligible
      · exact .kept rfl rfl
      · have hactive := RangeExecutionRecord.isActive_of_eligible (by simpa using heligible)
        exact .failed hrow hactive rfl rfl rfl rfl
      · have hactive := RangeExecutionRecord.isActive_of_eligible (by simpa using heligible)
        exact .moved hrow hactive rfl rfl rfl rfl

theorem lockedActiveRow_eq_some {executionId leaseToken : ℕ} {now : ℤ}
    {row : RangeExecutionRecord} :
    t.lockedActiveRow executionId leaseToken now = some row ↔
      t.executions.lookup executionId = some row ∧ row.status = .running ∧
        row.leaseToken = some leaseToken ∧ ∃ expires, row.leaseExpiresAt = some expires ∧
          now < expires := by
  simp only [lockedActiveRow, Option.filter_eq_some_iff, Bool.and_eq_true, decide_eq_true_eq,
    Option.any_eq_true, and_assoc]

theorem transition_advanceWatermark (t : ProcessingTables)
    (executionId leaseToken watermarkMessageId : ℕ) (now : ℤ) :
    Transition t (t.advanceWatermark executionId leaseToken watermarkMessageId now).1 none := by
  unfold advanceWatermark
  cases hlocked : t.lockedActiveRow executionId leaseToken now with
  | none => exact .kept rfl rfl
  | some row =>
    obtain ⟨hrow, hrunning, -⟩ := lockedActiveRow_eq_some.mp hlocked
    have hactive : row.status.isActive = true := by rw [hrunning]; rfl
    dsimp only
    split_ifs
    · exact .moved hrow hactive rfl rfl hactive rfl
    · exact .kept rfl rfl

theorem transition_failExecution (t : ProcessingTables) (executionId leaseToken : ℕ)
    (errorCode errorType : String) (retryable : Bool) (retryAt now : ℤ) :
    Transition t
      (t.failExecution executionId leaseToken errorCode errorType retryable retryAt now).1 none := by
  unfold failExecution
  cases hlocked : t.lockedActiveRow executionId leaseToken now with
  | none => exact .kept rfl rfl
  | some row =>
    obtain ⟨hrow, hrunning, -⟩ := lockedActiveRow_eq_some.mp hlocked
    have hactive : row.status.isActive = true := by rw [hrunning]; rfl
    dsimp only
    split_ifs
    · exact .moved hrow hactive rfl rfl rfl rfl
    · exact .failed hrow hactive rfl rfl rfl rfl

/-- Completing an execution changes nothing, or completes it. -/
theorem transition_completeExecution {executionId leaseToken : ℕ} {now : ℤ} {completed : Bool}
    (h : t.completeExecution executionId leaseToken now = .ok (t', completed)) :
    Transition t t' none ∨ Transition t t' (some executionId) := by
  have hkept : ∀ {b : Bool}, (Except.ok (t, b) : Except PyError _) = .ok (t', completed) →
      Transition t t' none := by
    intro b h
    obtain ⟨rfl, -⟩ := Prod.mk.inj (Except.ok.inj h)
    exact .kept rfl rfl
  unfold completeExecution at h
  cases hlocked : t.lockedActiveRow executionId leaseToken now with
  | none =>
    rw [hlocked] at h
    exact .inl (hkept h)
  | some row =>
    obtain ⟨hrow, hrunning, -⟩ := lockedActiveRow_eq_some.mp hlocked
    rw [hlocked] at h
    dsimp only at h
    split_ifs at h with hreached
    · exact .inl (hkept h)
    cases hrange : t.ranges.lookup row.processingRangeId with
    | none =>
      rw [hrange] at h
      exact .inl (hkept h)
    | some range =>
      rw [hrange] at h
      dsimp only at h
      cases hexpected : range.expectedWatermark with
      | none => simp [hexpected] at h
      | some expectedWatermark =>
        rw [hexpected] at h
        dsimp only at h
        split_ifs at h with hstale
        · exact .inl (hkept h)
        · rw [not_or, not_not] at hstale
          obtain ⟨rfl, -⟩ := Prod.mk.inj (Except.ok.inj h)
          exact .inr (.completed hrow (by rw [hrunning]; rfl) hrange (hstale.1 ▸ hexpected) rfl rfl
            rfl rfl)

/-- What a transition leaves of the executions and of the watermarks of the ranges. -/
inductive Effect (t t' : ProcessingTables) : Option ℕ → Prop
  /-- it leaves them -/
  | kept (hexecutions : t'.executions = t.executions) (hranges : t'.ranges = t.ranges) :
    Effect t t' none
  /-- it freezes the next window of a range without a frozen one -/
  | froze {id : ℕ} {row : RangeExecutionRecord} {range range' : ProcessingRangeRecord}
    (hnew : t.executions.lookup id = none)
    (hrange : t.ranges.lookup row.processingRangeId = some range)
    (hstart : range.resolvedStartMessageId.isSome)
    (hexpected : range.expectedWatermark = some row.fromMessageIdExclusive)
    (hhigh : range.activeHighWatermarkMessageId = none)
    (hexecutions : t'.executions = t.executions.set id row)
    (hranges : t'.ranges = t.ranges.set row.processingRangeId range')
    (hstatus : row.status = .pending)
    (hmarks : range'.marks = (range.sourceChannelId, range.resolvedStartMessageId,
      range.processingWatermarkMessageId, some row.toMessageIdInclusive)) : Effect t t' none
  /-- it changes an active execution, without completing it -/
  | moved {id : ℕ} {row row' : RangeExecutionRecord} (hrow : t.executions.lookup id = some row)
    (hactive : row.status.isActive) (hexecutions : t'.executions = t.executions.set id row')
    (hranges : ∀ rid, (t'.ranges.lookup rid).map (·.marks) = (t.ranges.lookup rid).map (·.marks))
    (hwork : row'.work = row.work) (hstatus : row'.status ≠ .completed) : Effect t t' none
  /-- it completes the execution of the frozen window -/
  | completed {id : ℕ} {row row' : RangeExecutionRecord} {range range' : ProcessingRangeRecord}
    (hrow : t.executions.lookup id = some row) (hactive : row.status.isActive)
    (hrange : t.ranges.lookup row.processingRangeId = some range)
    (hexpected : range.expectedWatermark = some row.fromMessageIdExclusive)
    (hexecutions : t'.executions = t.executions.set id row')
    (hranges : t'.ranges = t.ranges.set row.processingRangeId range')
    (hwork : row'.work = row.work) (hstatus : row'.status = .completed)
    (hmarks : range'.marks = (range.sourceChannelId, range.resolvedStartMessageId,
      some row.toMessageIdInclusive, none)) : Effect t t' (some id)

theorem marks_failRange (ranges : Dict ℕ ProcessingRangeRecord) (processingRangeId rid : ℕ) :
    ((failRange ranges processingRangeId).lookup rid).map (·.marks) =
      (ranges.lookup rid).map (·.marks) := by
  unfold failRange
  cases hrange : ranges.lookup processingRangeId with
  | none => rfl
  | some range =>
    dsimp only
    by_cases hid : rid = processingRangeId
    · rw [hid, Dict.lookup_set_self, hrange]
      rfl
    · rw [Dict.lookup_set_of_ne hid]

theorem canFreeze_iff {range : ProcessingRangeRecord} {source : SourceChannel}
    {execution : PendingRangeExecution} (h : canFreeze range source execution = true) :
    range.activeHighWatermarkMessageId = none ∧ range.resolvedStartMessageId.isSome ∧
      range.expectedWatermark = some execution.fromMessageIdExclusive := by
  unfold canFreeze at h
  split_ifs at h with hclosed
  cases hexpected : range.expectedWatermark with
  | none => simp [hexpected] at h
  | some expectedFrom =>
    rw [hexpected] at h
    dsimp only at h
    split_ifs at h with hfrom
    simp only [Bool.or_eq_true, not_or, Bool.not_eq_true, Option.isSome_eq_false_iff,
      Option.isNone_iff_eq_none] at hclosed
    exact ⟨hclosed.1.1.2, Option.isSome_iff_ne_none.mpr hclosed.1.2, by rw [not_not.mp hfrom]⟩

theorem ne_completed_of_isActive {row : RangeExecutionRecord} (h : row.status.isActive = true) :
    row.status ≠ .completed := by
  intro hstatus
  simp [hstatus, ExecutionStatus.isActive] at h

theorem Transition.effect {c : Option ℕ} (h : Transition t t' c) : Effect t t' c := by
  cases h with
  | kept hexecutions hranges => exact .kept hexecutions hranges
  | @froze execution range _ hlt hrange hfreeze hconflict hexecutions hranges =>
    obtain ⟨hhigh, hstart, hexpected⟩ := canFreeze_iff hfreeze
    have hnew := lookup_of_not_insertConflicts hconflict
    exact @Effect.froze _ _ _ (execution.row hlt) range _ hnew hrange hstart hexpected hhigh
      hexecutions hranges rfl rfl
  | moved hrow hactive hexecutions hranges hactive' hwork =>
    exact .moved hrow hactive hexecutions (fun _ => by rw [hranges]) hwork
      (ne_completed_of_isActive hactive')
  | @failed _ row _ hrow hactive hexecutions hranges hfailed hwork =>
    exact .moved hrow hactive hexecutions (hranges ▸ marks_failRange t.ranges row.processingRangeId)
      hwork (by simp [hfailed])
  | completed hrow hactive hrange hexpected hexecutions hranges hcompleted hwork =>
    exact .completed hrow hactive hrange hexpected hexecutions hranges hwork hcompleted rfl

end ProcessingTables

end TgCurator
