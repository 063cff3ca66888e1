import TgCurator.Processing.Leasing

/-!
# The checks of the range tables

The CHECK constraints and the unique indexes that `infrastructure/database/models.py`
declares for `range_executions`, `processing_ranges` and `durable_wakeups`, and the foreign
key of an execution to its range.

The repository leaves almost all of them to its own code. Each method keeps them
(`Checked.perform`), whatever its arguments, and only the attempts and the wake-up of a new
execution can meet one (`raised_eq_integrityError`). The ceiling of a range with a fixed end
needs one fact the schema does not state: its frozen window ends at the fixed end.
-/

namespace TgCurator

/-! ## The constraints -/

/-- The checks of `range_executions` besides `range_execution_bounds`. -/
structure RangeExecutionRecord.Checks (row : RangeExecutionRecord) : Prop where
  /-- `range_execution_watermark_bounds` -/
  watermark_bounds : row.fromMessageIdExclusive ≤ row.watermarkMessageId ∧
    row.watermarkMessageId ≤ row.toMessageIdInclusive
  /-- `range_execution_attempts` -/
  attempts : 0 < row.maxAttempts ∧ row.attemptCount ≤ row.maxAttempts
  /-- `range_execution_completion` -/
  completion : row.status = .completed →
    row.watermarkMessageId = row.toMessageIdInclusive ∧ row.completedAt.isSome
  /-- `range_execution_lease` -/
  lease : (row.status = .running ∧ row.leaseToken.isSome ∧ row.leaseExpiresAt.isSome) ∨
    (row.status ≠ .running ∧ row.leaseToken = none ∧ row.leaseExpiresAt = none)
  /-- `range_execution_retry_schedule` -/
  retry_schedule : (row.status = .retryWait ∧ row.nextRetryAt.isSome) ∨
    (row.status ≠ .retryWait ∧ row.nextRetryAt = none)
  /-- `range_execution_failure_metadata` -/
  failure_metadata : row.status = .retryWait ∨ row.status = .failed →
    row.lastErrorCode.isSome ∧ row.lastErrorType.isSome ∧ row.lastFailureAt.isSome

/-- The checks of `processing_ranges` on the columns of a row besides its start. -/
structure ProcessingRangeRecord.Checks (range : ProcessingRangeRecord) : Prop where
  /-- `processing_range_end_message_positive` -/
  end_message_positive : ∀ e, range.resolvedFixedEndMessageId = some e → 0 < e
  /-- `processing_range_active_high_positive` -/
  active_high_positive : ∀ high, range.activeHighWatermarkMessageId = some high → 0 < high
  /-- `processing_range_watermark_high_ceiling` -/
  watermark_high_ceiling : ∀ w high, range.processingWatermarkMessageId = some w →
    range.activeHighWatermarkMessageId = some high → w ≤ high
  /-- `processing_range_watermark_start_floor` -/
  watermark_start_floor : ∀ w start, range.processingWatermarkMessageId = some w →
    range.resolvedStartMessageId = some start → start ≤ w + 1
  /-- `processing_range_watermark_fixed_ceiling` -/
  watermark_fixed_ceiling : range.endMode = .fixed → ∀ w e,
    range.processingWatermarkMessageId = some w → range.resolvedFixedEndMessageId = some e → w ≤ e

/-- A frozen window of a range with a fixed end ends there. -/
def ProcessingRangeRecord.EndsFixed (range : ProcessingRangeRecord) : Prop :=
  range.endMode = .fixed → ∀ high, range.activeHighWatermarkMessageId = some high →
    range.resolvedFixedEndMessageId = some high

/-- The key of an execution in `uq_range_execution_one_active`. -/
def RangeExecutionRecord.activeRange (row : RangeExecutionRecord) : Option ℕ :=
  if row.status.isActive then some row.processingRangeId else none

/-- Tables that meet the constraints of the schema. -/
structure ProcessingTables.Checked (t : ProcessingTables) : Prop where
  executions : t.executions.All RangeExecutionRecord.Checks
  ranges : t.ranges.All ProcessingRangeRecord.Checks
  wakeups : t.wakeups.All DurableWakeupRecord.Checks
  /-- `uq_range_execution_one_active` -/
  one_active : t.executions.Unique RangeExecutionRecord.activeRange
  /-- `uq_range_execution_bounds` -/
  bounds : t.executions.Unique fun row => some row.work
  /-- the foreign key `processing_range_id` -/
  range : t.executions.All fun row => (t.ranges.lookup row.processingRangeId).isSome
  ends_fixed : t.ranges.All ProcessingRangeRecord.EndsFixed

/-! ## Rows -/

namespace RangeExecutionRecord.Checks

variable {row : RangeExecutionRecord}

theorem lease_row (h : row.Checks) (hlt : row.attemptCount < row.maxAttempts)
    (leaseToken : ℕ) (now leaseDuration : ℤ) :
    (row.lease leaseToken now leaseDuration).Checks where
  watermark_bounds := h.watermark_bounds
  attempts := ⟨h.attempts.1, hlt⟩
  completion hstatus := by cases hstatus
  lease := .inl ⟨rfl, rfl, rfl⟩
  retry_schedule := .inr ⟨by simp [RangeExecutionRecord.lease], rfl⟩
  failure_metadata hstatus := by rcases hstatus with hstatus | hstatus <;> cases hstatus

theorem complete_row (h : row.Checks) (hrunning : row.status = .running)
    (hreached : row.watermarkMessageId = row.toMessageIdInclusive) (now : ℤ) :
    (row.complete now).Checks where
  watermark_bounds := h.watermark_bounds
  attempts := h.attempts
  completion _ := ⟨hreached, rfl⟩
  lease := .inr ⟨by simp [RangeExecutionRecord.complete], rfl, rfl⟩
  retry_schedule := by
    rcases h.retry_schedule with ⟨hretry, -⟩ | ⟨-, hnone⟩
    · simp [hrunning] at hretry
    · exact .inr ⟨by simp [RangeExecutionRecord.complete], hnone⟩
  failure_metadata hstatus := by rcases hstatus with hstatus | hstatus <;> cases hstatus

theorem new_row (execution : PendingRangeExecution)
    (h : execution.fromMessageIdExclusive < execution.toMessageIdInclusive)
    (hmax : 0 < execution.maxAttempts) : (execution.row h).Checks where
  watermark_bounds := ⟨le_rfl, h.le⟩
  attempts := ⟨hmax, Nat.zero_le _⟩
  completion hstatus := by cases hstatus
  lease := .inr ⟨by simp [PendingRangeExecution.row], rfl, rfl⟩
  retry_schedule := .inr ⟨by simp [PendingRangeExecution.row], rfl⟩
  failure_metadata hstatus := by rcases hstatus with hstatus | hstatus <;> cases hstatus

/-- A row that is given back to wait for its retry, or that fails for good. -/
theorem failed_row (h : row.Checks) {row' : RangeExecutionRecord} (hwork : row'.work = row.work)
    (hwatermark : row'.watermarkMessageId = row.watermarkMessageId)
    (hattempts : row'.attemptCount = row.attemptCount)
    (hmax : row'.maxAttempts = row.maxAttempts)
    (hstatus : (row'.status = .retryWait ∧ row'.nextRetryAt.isSome) ∨
      (row'.status = .failed ∧ row'.nextRetryAt = none))
    (hlease : row'.leaseToken = none ∧ row'.leaseExpiresAt = none)
    (herror : row'.lastErrorCode.isSome ∧ row'.lastErrorType.isSome ∧ row'.lastFailureAt.isSome) :
    row'.Checks := by
  simp only [RangeExecutionRecord.work, RangeExecutionRecord.window, Prod.mk.injEq] at hwork
  obtain ⟨-, hfrom, hto⟩ := hwork
  constructor
  · rw [hfrom, hto, hwatermark]
    exact h.watermark_bounds
  · rw [hmax, hattempts]
    exact h.attempts
  · intro hcompleted
    rcases hstatus with ⟨hstatus, -⟩ | ⟨hstatus, -⟩ <;> simp [hstatus] at hcompleted
  · refine .inr ⟨?_, hlease⟩
    rcases hstatus with ⟨hstatus, -⟩ | ⟨hstatus, -⟩ <;> simp [hstatus]
  · refine hstatus.imp id fun hfailed => ⟨?_, hfailed.2⟩
    simp [hfailed.1]
  · exact fun _ => herror

end RangeExecutionRecord.Checks

namespace ProcessingRangeRecord

variable {range range' : ProcessingRangeRecord} {from' high : ℕ}

/-- The end of a range, which no method changes. -/
def ending (range : ProcessingRangeRecord) : EndMode × Option ℕ :=
  (range.endMode, range.resolvedFixedEndMessageId)

/-- A range that keeps its marks and its end keeps its checks. -/
theorem Checks.of_marks (h : range.Checks) (hmarks : range'.marks = range.marks)
    (hending : range'.ending = range.ending) : range'.Checks := by
  simp only [marks, ending, Prod.mk.injEq] at hmarks hending
  obtain ⟨-, hstart, hwatermark, hhigh⟩ := hmarks
  constructor
  · rw [hending.2]
    exact h.end_message_positive
  · rw [hhigh]
    exact h.active_high_positive
  · rw [hwatermark, hhigh]
    exact h.watermark_high_ceiling
  · rw [hwatermark, hstart]
    exact h.watermark_start_floor
  · rw [hending.1, hwatermark, hending.2]
    exact h.watermark_fixed_ceiling

theorem EndsFixed.of_marks (h : range.EndsFixed) (hmarks : range'.marks = range.marks)
    (hending : range'.ending = range.ending) : range'.EndsFixed := by
  simp only [marks, ending, Prod.mk.injEq] at hmarks hending
  rw [EndsFixed, hending.1, hmarks.2.2.2, hending.2]
  exact h

/-- The watermark that is expected is the one of the range, if it has one. -/
theorem eq_of_expectedWatermark {w : ℕ} (hexpected : range.expectedWatermark = some from')
    (hw : range.processingWatermarkMessageId = some w) : w = from' := by
  rw [expectedWatermark, hw] at hexpected
  exact Option.some.inj hexpected

/-- The window that a range freezes ends after its watermark. -/
theorem Checks.freeze (h : range.Checks) (hexpected : range.expectedWatermark = some from')
    (hlt : from' < high) : { range with
      activeHighWatermarkMessageId := some high, status := .active : ProcessingRangeRecord }.Checks where
  end_message_positive := h.end_message_positive
  active_high_positive := by
    rintro high' hhigh
    obtain rfl := Option.some.inj hhigh
    exact Nat.zero_lt_of_lt hlt
  watermark_high_ceiling := by
    rintro w high' hw hhigh
    obtain rfl := Option.some.inj hhigh
    exact (eq_of_expectedWatermark hexpected hw).trans_le hlt.le
  watermark_start_floor := h.watermark_start_floor
  watermark_fixed_ceiling := h.watermark_fixed_ceiling

/-- The start of a range is not past the end of the window after its watermark. -/
theorem Checks.start_le (h : range.Checks) (hexpected : range.expectedWatermark = some from')
    (hlt : from' < high) {start : ℕ} (hstart : range.resolvedStartMessageId = some start) :
    start ≤ high + 1 := by
  cases hw : range.processingWatermarkMessageId with
  | none =>
    rw [expectedWatermark, hw, hstart] at hexpected
    have hfrom : start - 1 = from' := Option.some.inj hexpected
    omega
  | some w =>
    have hfloor := h.watermark_start_floor w start hw hstart
    have hfrom := eq_of_expectedWatermark hexpected hw
    omega

/-- A range whose frozen window is complete. -/
theorem Checks.advance (h : range.Checks) (hends : range.EndsFixed)
    (hexpected : range.expectedWatermark = some from') (hlt : from' < high)
    (hhigh : range.activeHighWatermarkMessageId = some high) : (range.advance high).Checks where
  end_message_positive := h.end_message_positive
  active_high_positive := by
    rintro _ hnone
    cases hnone
  watermark_high_ceiling := by
    rintro _ _ - hnone
    cases hnone
  watermark_start_floor := by
    rintro w start hw hstart
    obtain rfl := Option.some.inj hw
    exact h.start_le hexpected hlt hstart
  watermark_fixed_ceiling := by
    rintro hfixed w e hw he
    obtain rfl := Option.some.inj hw
    exact (Option.some.inj ((hends hfixed _ hhigh).symm.trans he)).le

end ProcessingRangeRecord

/-! ## Transactions -/

namespace ProcessingTables

variable {t t' : ProcessingTables}

/-- The checks of a range that keeps its marks and its end. -/
theorem Checked.failRange (h : Checked t) (rid : ℕ) :
    (failRange t.ranges rid).All ProcessingRangeRecord.Checks ∧
      (ProcessingTables.failRange t.ranges rid).All ProcessingRangeRecord.EndsFixed ∧
      ∀ rid', (t.ranges.lookup rid').isSome →
        ((ProcessingTables.failRange t.ranges rid).lookup rid').isSome := by
  unfold ProcessingTables.failRange
  cases hrange : t.ranges.lookup rid with
  | none => exact ⟨h.ranges, h.ends_fixed, fun _ => id⟩
  | some range =>
    refine ⟨h.ranges.set ((h.ranges.of_lookup hrange).of_marks rfl rfl),
      h.ends_fixed.set ((h.ends_fixed.of_lookup hrange).of_marks rfl rfl), fun rid' hrid' => ?_⟩
    by_cases hrid : rid' = rid
    · simp [hrid]
    · rwa [Dict.lookup_set_of_ne hrid]

/-- A transaction that writes an execution in place. -/
theorem Checked.moved (h : Checked t) {id : ℕ} {row row' : RangeExecutionRecord}
    (hrow : t.executions.lookup id = some row)
    (hexecutions : t'.executions = t.executions.set id row') (hchecks : row'.Checks)
    (hwork : row'.work = row.work) (hactive : row'.status.isActive → row.status.isActive)
    (hranges : t'.ranges.All ProcessingRangeRecord.Checks)
    (hends : t'.ranges.All ProcessingRangeRecord.EndsFixed)
    (hkept : ∀ rid, (t.ranges.lookup rid).isSome → (t'.ranges.lookup rid).isSome)
    (hwakeups : t'.wakeups.All DurableWakeupRecord.Checks) : Checked t' where
  executions := hexecutions ▸ h.executions.set hchecks
  ranges := hranges
  wakeups := hwakeups
  one_active := by
    rw [hexecutions]
    refine h.one_active.set_of_lookup hrow fun rid hrid => ?_
    unfold RangeExecutionRecord.activeRange at hrid ⊢
    split_ifs at hrid with hstatus
    have hrange : row'.processingRangeId = row.processingRangeId := congrArg Prod.fst hwork
    rwa [if_pos (hactive hstatus), ← hrange]
  bounds := by
    rw [hexecutions]
    exact h.bounds.set_of_lookup hrow fun i hi => hwork ▸ hi
  range := by
    rw [hexecutions]
    refine Dict.All.set (h.range.mono fun row => hkept row.processingRangeId) ?_
    rw [show row'.processingRangeId = row.processingRangeId from congrArg Prod.fst hwork]
    exact hkept _ (h.range.of_lookup hrow)
  ends_fixed := hends

/-- A range with a fixed end freezes the window that ends there. -/
theorem canFreeze_fixed {range : ProcessingRangeRecord} {source : SourceChannel}
    {execution : PendingRangeExecution} (h : canFreeze range source execution = true)
    (hfixed : range.endMode = .fixed) :
    range.resolvedFixedEndMessageId = some execution.toMessageIdInclusive := by
  unfold canFreeze at h
  split_ifs at h
  cases hexpected : range.expectedWatermark with
  | none => simp [hexpected] at h
  | some expectedFrom =>
    rw [hexpected] at h
    dsimp only at h
    split_ifs at h
    by_contra hne
    simp [hfixed, Ne.symm hne] at h

theorem insertConflicts_eq_false {execution : PendingRangeExecution}
    (h : ¬t.insertConflicts execution = true) : ∀ e ∈ t.executions, e.1 ≠ execution.executionId ∧
      (e.2.processingRangeId = execution.processingRangeId → e.2.status.isActive = false ∧
        e.2.window ≠ (execution.fromMessageIdExclusive, execution.toMessageIdInclusive)) := by
  intro e he
  rw [insertConflicts, List.any_eq_true, not_exists] at h
  have hno := h e
  simp only [he, true_and, Bool.or_eq_true, Bool.and_eq_true, decide_eq_true_eq, not_or,
    not_and] at hno
  refine ⟨hno.1, fun hrid => ⟨by simpa using (hno.2 hrid).1, fun hwindow => ?_⟩⟩
  obtain ⟨hfrom, hto⟩ := Prod.mk.inj hwindow
  exact (hno.2 hrid).2 hfrom hto

theorem Checked.createExecutionAndWakeup (h : Checked t)
    {execution : PendingRangeExecution} {queue : String} {availableAt : ℤ} {created : Bool}
    (hcreate : t.createExecutionAndWakeup execution queue availableAt = .ok (t', created)) :
    Checked t' := by
  unfold ProcessingTables.createExecutionAndWakeup at hcreate
  cases hrow : t.freezeRow execution.processingRangeId with
  | none =>
    rw [hrow] at hcreate
    obtain ⟨rfl, -⟩ := Prod.mk.inj (Except.ok.inj hcreate)
    exact h
  | some e =>
    obtain ⟨range, source⟩ := e
    rw [hrow] at hcreate
    dsimp only at hcreate
    split_ifs at hcreate with hfreeze hchecks hconflict hwakeup
    · obtain ⟨rfl, -⟩ := Prod.mk.inj (Except.ok.inj hcreate)
      exact h
    · obtain ⟨rfl, -⟩ := Prod.mk.inj (Except.ok.inj hcreate)
      exact h
    · obtain ⟨rfl, -⟩ := Prod.mk.inj (Except.ok.inj hcreate)
      have hfreeze : canFreeze range source execution = true := by simpa using hfreeze
      obtain ⟨-, -, hexpected⟩ := canFreeze_iff hfreeze
      have hrange := (freezeRow_eq_some.mp hrow).1
      have hend : range.endMode = .fixed → _ := canFreeze_fixed hfreeze
      have hfree := insertConflicts_eq_false hconflict
      constructor
      · exact h.executions.set (.new_row execution hchecks.1 hchecks.2)
      · exact h.ranges.set ((h.ranges.of_lookup hrange).freeze hexpected hchecks.1)
      · exact h.wakeups.set (checks_newWakeup availableAt)
      · refine h.one_active.set fun rid hrid e he he' => ?_
        obtain rfl : execution.processingRangeId = rid := Option.some.inj hrid
        unfold RangeExecutionRecord.activeRange at he'
        split_ifs at he' with hactive
        simp [((hfree e he).2 (Option.some.inj he')).1] at hactive
      · refine h.bounds.set fun work hwork e he he' => ?_
        obtain ⟨hrid, hwindow⟩ := Prod.mk.inj (Option.some.inj (he'.trans hwork.symm))
        exact absurd hwindow ((hfree e he).2 hrid).2
      · have hkept : ∀ rid, (t.ranges.lookup rid).isSome →
            ((t.ranges.set execution.processingRangeId { range with
              activeHighWatermarkMessageId := some execution.toMessageIdInclusive
              status := .active }).lookup rid).isSome := by
          intro rid hrid
          by_cases hid : rid = execution.processingRangeId
          · simp [hid]
          · rwa [Dict.lookup_set_of_ne hid]
        exact Dict.All.set (h.range.mono fun row => hkept row.processingRangeId) (by
          simp [PendingRangeExecution.row])
      · refine h.ends_fixed.set fun hfixed high hhigh => ?_
        obtain rfl := Option.some.inj hhigh
        exact hend hfixed

theorem Checked.claimExecution (h : Checked t) (executionId : ℕ)
    (now leaseDuration : ℤ) :
    Checked (t.claimExecution executionId now leaseDuration).1 := by
  unfold ProcessingTables.claimExecution
  cases hrow : t.executions.lookup executionId with
  | none => exact h
  | some row =>
    dsimp only
    cases t.ranges.lookup row.processingRangeId with
    | none => exact h
    | some range =>
      have hchecks := h.executions.of_lookup hrow
      dsimp only
      split_ifs with heligible hexhausted
      · exact h
      · obtain ⟨hranges, hends, hkept⟩ := h.failRange row.processingRangeId
        refine h.moved hrow rfl ?_ rfl (by simp [ExecutionStatus.isActive]) hranges hends hkept
          (all_checks_setWakeupTerminal h.wakeups now)
        exact hchecks.failed_row rfl rfl rfl rfl (.inr ⟨rfl, rfl⟩) ⟨rfl, rfl⟩ ⟨rfl, rfl, rfl⟩
      · have hactive := RangeExecutionRecord.isActive_of_eligible (by simpa using heligible)
        exact h.moved hrow rfl (hchecks.lease_row (Nat.lt_of_not_le hexhausted) _ _ _) rfl
          (fun _ => hactive) h.ranges h.ends_fixed (fun _ => id) h.wakeups

theorem Checked.advanceWatermark (h : Checked t)
    (executionId leaseToken watermarkMessageId : ℕ) (now : ℤ) :
    Checked (t.advanceWatermark executionId leaseToken watermarkMessageId now).1 := by
  unfold ProcessingTables.advanceWatermark
  cases hlocked : t.lockedActiveRow executionId leaseToken now with
  | none => exact h
  | some row =>
    obtain ⟨hrow, hrunning, -⟩ := lockedActiveRow_eq_some.mp hlocked
    have hchecks := h.executions.of_lookup hrow
    dsimp only
    split_ifs with hbounds
    · refine h.moved hrow rfl ?_ rfl id h.ranges h.ends_fixed (fun _ => id) h.wakeups
      exact { hchecks with
        watermark_bounds := ⟨hchecks.watermark_bounds.1.trans hbounds.1, hbounds.2⟩
        completion := fun hcompleted => by simp [hrunning] at hcompleted }
    · exact h

theorem Checked.completeExecution (h : Checked t) {executionId leaseToken : ℕ}
    {now : ℤ} {completed : Bool}
    (hcomplete : t.completeExecution executionId leaseToken now = .ok (t', completed)) :
    Checked t' := by
  have hkept : ∀ {b : Bool}, (Except.ok (t, b) : Except PyError _) = .ok (t', completed) →
      Checked t' := by
    intro b hok
    obtain ⟨rfl, -⟩ := Prod.mk.inj (Except.ok.inj hok)
    exact h
  unfold ProcessingTables.completeExecution at hcomplete
  cases hlocked : t.lockedActiveRow executionId leaseToken now with
  | none =>
    rw [hlocked] at hcomplete
    exact hkept hcomplete
  | some row =>
    obtain ⟨hrow, hrunning, -⟩ := lockedActiveRow_eq_some.mp hlocked
    rw [hlocked] at hcomplete
    dsimp only at hcomplete
    split_ifs at hcomplete with hreached
    · exact hkept hcomplete
    cases hrange : t.ranges.lookup row.processingRangeId with
    | none =>
      rw [hrange] at hcomplete
      exact hkept hcomplete
    | some range =>
      rw [hrange] at hcomplete
      dsimp only at hcomplete
      cases hexpected : range.expectedWatermark with
      | none => simp [hexpected] at hcomplete
      | some expectedWatermark =>
        rw [hexpected] at hcomplete
        dsimp only at hcomplete
        split_ifs at hcomplete with hstale
        · exact hkept hcomplete
        · rw [not_or, not_not, not_not] at hstale
          obtain ⟨hfrom, hhigh⟩ := hstale
          obtain ⟨rfl, -⟩ := Prod.mk.inj (Except.ok.inj hcomplete)
          have hends := h.ends_fixed.of_lookup hrange
          refine h.moved hrow rfl ((h.executions.of_lookup hrow).complete_row hrunning
            (not_not.mp hreached) now) rfl (fun hactive => by cases hactive) ?_ ?_ ?_
            (all_checks_setWakeupTerminal h.wakeups now)
          · exact h.ranges.set ((h.ranges.of_lookup hrange).advance hends hexpected
              (hfrom ▸ row.bounds) hhigh)
          · exact h.ends_fixed.set fun _ _ hnone => by cases hnone
          · intro rid hrid
            by_cases hid : rid = row.processingRangeId
            · simp [hid]
            · rwa [Dict.lookup_set_of_ne hid]

theorem Checked.failExecution (h : Checked t) (executionId leaseToken : ℕ)
    (errorCode errorType : String) (retryable : Bool) (retryAt now : ℤ) :
    Checked (t.failExecution executionId leaseToken errorCode errorType retryable retryAt
      now).1 := by
  unfold ProcessingTables.failExecution
  cases hlocked : t.lockedActiveRow executionId leaseToken now with
  | none => exact h
  | some row =>
    obtain ⟨hrow, hrunning, -⟩ := lockedActiveRow_eq_some.mp hlocked
    have hchecks := h.executions.of_lookup hrow
    have hactive : row.status.isActive = true := by rw [hrunning]; rfl
    dsimp only
    split_ifs
    · refine h.moved hrow rfl ?_ rfl (fun _ => hactive) h.ranges h.ends_fixed (fun _ => id)
        (all_checks_rescheduleWakeup h.wakeups retryAt)
      exact hchecks.failed_row rfl rfl rfl rfl (.inl ⟨rfl, rfl⟩) ⟨rfl, rfl⟩ ⟨rfl, rfl, rfl⟩
    · obtain ⟨hranges, hends, hkept⟩ := h.failRange row.processingRangeId
      refine h.moved hrow rfl ?_ rfl (fun _ => hactive) hranges hends hkept
        (all_checks_setWakeupTerminal h.wakeups now)
      exact hchecks.failed_row rfl rfl rfl rfl (.inr ⟨rfl, rfl⟩) ⟨rfl, rfl⟩ ⟨rfl, rfl, rfl⟩

/-- A call keeps the constraints. -/
theorem Checked.perform (h : Checked t) (call : RangeCall) :
    Checked (t.perform call).1 := by
  cases call with
  | createExecutionAndWakeup execution queue availableAt =>
    dsimp only [ProcessingTables.perform]
    split
    · exact h.createExecutionAndWakeup ‹_›
    · exact h
  | claimExecution => exact h.claimExecution ..
  | advanceWatermark => exact h.advanceWatermark ..
  | completeExecution =>
    dsimp only [ProcessingTables.perform]
    split
    · exact h.completeExecution ‹_›
    · exact h.completeExecution ‹_›
    · exact h
  | failExecution => exact h.failExecution ..

/-- The state after calls on the executions. -/
def performAll (t : ProcessingTables) (calls : List RangeCall) : ProcessingTables :=
  calls.foldl (fun t call => (t.perform call).1) t

theorem Checked.performAll (h : Checked t) (calls : List RangeCall) :
    Checked (t.performAll calls) := by
  induction calls generalizing t with
  | nil => exact h
  | cons call calls ih => exact ih (h.perform call)

/-- The exception that a call raises. -/
def raised (t : ProcessingTables) : RangeCall → Option PyError
  | .createExecutionAndWakeup execution queue availableAt =>
    match t.createExecutionAndWakeup execution queue availableAt with
    | .ok _ => none
    | .error e => some e
  | .completeExecution executionId leaseToken now =>
    match t.completeExecution executionId leaseToken now with
    | .ok _ => none
    | .error e => some e
  | _ => none

/-- A call that would freeze a window for an execution without attempts, or for a new
execution whose wake-up is there. -/
def Violates (t : ProcessingTables) : RangeCall → Prop
  | .createExecutionAndWakeup execution queue _ => ∃ range source,
    t.freezeRow execution.processingRangeId = some (range, source) ∧
      canFreeze range source execution = true ∧
        (execution.maxAttempts = 0 ∨ t.insertConflicts execution = false ∧
          (t.wakeups.lookup (queue, execution.executionId)).isSome)
  | _ => False

theorem canFreeze_bounds {range : ProcessingRangeRecord} {source : SourceChannel}
    {execution : PendingRangeExecution} (h : canFreeze range source execution = true) :
    execution.fromMessageIdExclusive < execution.toMessageIdInclusive := by
  obtain ⟨-, -, hexpected⟩ := canFreeze_iff h
  unfold canFreeze at h
  rw [hexpected] at h
  dsimp only at h
  split_ifs at h with hclosed hfrom hto
  exact Nat.lt_of_not_le hto

theorem violates_iff {range : ProcessingRangeRecord} {source : SourceChannel}
    {execution : PendingRangeExecution} {queue : String} {availableAt : ℤ}
    (hrow : t.freezeRow execution.processingRangeId = some (range, source)) :
    t.Violates (.createExecutionAndWakeup execution queue availableAt) ↔
      canFreeze range source execution = true ∧
        (execution.maxAttempts = 0 ∨ t.insertConflicts execution = false ∧
          (t.wakeups.lookup (queue, execution.executionId)).isSome) := by
  constructor
  · rintro ⟨range', source', hrow', hviolates⟩
    obtain ⟨rfl, rfl⟩ := Prod.mk.inj (Option.some.inj (hrow.symm.trans hrow'))
    exact hviolates
  · exact fun hviolates => ⟨range, source, hrow, hviolates⟩

theorem createExecutionAndWakeup_eq_error {execution : PendingRangeExecution} {queue : String}
    {availableAt : ℤ} {e : PyError} :
    t.createExecutionAndWakeup execution queue availableAt = .error e ↔ e = .integrityError ∧
      t.Violates (.createExecutionAndWakeup execution queue availableAt) := by
  cases hrow : t.freezeRow execution.processingRangeId with
  | none =>
    rw [ProcessingTables.createExecutionAndWakeup, hrow]
    constructor
    · intro herror
      cases herror
    · rintro ⟨-, range, source, hsome, -⟩
      simp [hrow] at hsome
  | some p =>
    obtain ⟨range, source⟩ := p
    rw [violates_iff hrow, ProcessingTables.createExecutionAndWakeup, hrow]
    dsimp only
    split_ifs with hfreeze hchecks hconflict hwakeup
    · rw [Bool.not_eq_true'] at hfreeze
      simp [hfreeze]
    · simp [hconflict, hchecks.2.ne']
    · rw [Bool.not_eq_true', Bool.not_eq_false] at hfreeze
      rw [Bool.not_eq_true] at hconflict
      simp only [hfreeze, hconflict, hwakeup, Except.error.injEq, and_self, or_true, and_true,
        eq_comm]
    · simp [hwakeup, hchecks.2.ne']
    -- the bounds are those of the window that may be frozen
    · rw [Bool.not_eq_true', Bool.not_eq_false] at hfreeze
      have hmax : execution.maxAttempts = 0 := by
        by_contra hne
        exact hchecks ⟨canFreeze_bounds hfreeze, Nat.pos_of_ne_zero hne⟩
      simp only [hfreeze, hmax, Except.error.injEq, true_or, and_self, and_true, eq_comm]

theorem completeExecution_eq_error {executionId leaseToken : ℕ} {now : ℤ} {e : PyError}
    (h : t.completeExecution executionId leaseToken now = .error e) : e = .typeError := by
  unfold ProcessingTables.completeExecution at h
  cases hlocked : t.lockedActiveRow executionId leaseToken now with
  | none => simp [hlocked] at h
  | some row =>
    rw [hlocked] at h
    dsimp only at h
    split_ifs at h
    cases hrange : t.ranges.lookup row.processingRangeId with
    | none => simp [hrange] at h
    | some range =>
      rw [hrange] at h
      dsimp only at h
      cases hexpected : range.expectedWatermark with
      | none =>
        rw [hexpected] at h
        exact (Except.error.inj h).symm
      | some expectedWatermark =>
        rw [hexpected] at h
        dsimp only at h
        split_ifs at h

/-- Only a call that violates one meets a constraint. -/
theorem raised_eq_integrityError {call : RangeCall} :
    t.raised call = some .integrityError ↔ t.Violates call := by
  cases call with
  | createExecutionAndWakeup execution queue availableAt =>
    have hraised : t.raised (.createExecutionAndWakeup execution queue availableAt) =
        some .integrityError ↔
          t.createExecutionAndWakeup execution queue availableAt = .error .integrityError := by
      rw [raised]
      split <;> simp [*]
    rw [hraised, createExecutionAndWakeup_eq_error, and_iff_right rfl]
  | completeExecution executionId leaseToken now =>
    rw [raised]
    split
    · simp [Violates]
    · rename_i e herror
      simp [Violates, completeExecution_eq_error herror]
  | _ => simp [raised, Violates]

/-- A call that raises is rolled back. -/
theorem perform_of_raised {call : RangeCall} {e : PyError} (h : t.raised call = some e) :
    (t.perform call).1 = t := by
  cases call with
  | createExecutionAndWakeup =>
    rw [raised] at h
    split at h
    · cases h
    · simp [perform, *]
  | completeExecution =>
    rw [raised] at h
    split at h
    · cases h
    · simp [perform, *]
  | _ => cases h

/-- Every state that calls on the executions lead to meets the constraints, in whatever
order they come and whatever they ask for. A call there meets a constraint only if it would
freeze a window for an execution without attempts, or for a new one whose wake-up is there,
and a call that raises changes nothing. -/
theorem range_tables_checked (h : t.Checked) (calls : List RangeCall) :
    (t.performAll calls).Checked ∧ ∀ call,
      ((t.performAll calls).raised call = some .integrityError ↔
        (t.performAll calls).Violates call) ∧
      ∀ e, (t.performAll calls).raised call = some e →
        ((t.performAll calls).perform call).1 = t.performAll calls :=
  ⟨h.performAll calls, fun _ => ⟨raised_eq_integrityError, fun _ => perform_of_raised⟩⟩

theorem start_pos_three : ∀ start, some 3 = some start → 0 < start := by
  rintro _ ⟨⟩
  decide

/-- A range from message 3 to message 9, and no execution. -/
def untilNine : ProcessingTables where
  sources := [(1, ⟨true, some 1⟩)]
  ranges := [(1, ⟨1, .fixed, some 3, some 9, none, none, .pending, true, start_pos_three⟩)]
  executions := []
  wakeups := []
  nextToken := 0

/-- Its one window is frozen, leased, ingested and completed. -/
def nineCalls : List RangeCall :=
  [.createExecutionAndWakeup ⟨1, 1, 1, 2, 9, 5⟩ rangeExecutionQueue 0,
    .claimExecution 1 10 300, .advanceWatermark 1 0 9 20, .completeExecution 1 0 30]

theorem checked_untilNine : untilNine.Checked where
  executions := .nil
  ranges := by
    intro e he
    obtain rfl := List.mem_singleton.mp he
    constructor <;> simp
  wakeups := .nil
  one_active := .nil
  bounds := .nil
  range := .nil
  ends_fixed := by
    intro e he
    obtain rfl := List.mem_singleton.mp he
    simp [ProcessingRangeRecord.EndsFixed]

theorem range_tables_checked_nine :
    ((untilNine.performAll nineCalls).ranges.lookup 1).map (·.status) = some .completed ∧
      (untilNine.performAll nineCalls).Checked ∧
      (untilNine.performAll []).raised
        (.createExecutionAndWakeup ⟨1, 1, 1, 2, 9, 0⟩ rangeExecutionQueue 0) =
          some .integrityError :=
  ⟨by decide, (range_tables_checked checked_untilNine nineCalls).1,
    ((range_tables_checked checked_untilNine []).2 _).1.mpr
      ⟨_, _, rfl, by decide, .inl rfl⟩⟩

end ProcessingTables

end TgCurator
