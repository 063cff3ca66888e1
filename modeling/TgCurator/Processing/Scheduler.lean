import TgCurator.Processing.Status

/-!
# The scheduler of processing ranges

`ProcessingRangeScheduler` of `application/processing/scheduler.py`: a pass lists the ranges
that may get a window, decides for each where its window would end, and freezes it through the
schedule repository, one transaction after the other.

On tables that the repository leads to, a pass freezes exactly the windows it decides on
(`scheduleLoop_spec`): no unique index and no check of `_can_freeze` turns one down, as the rows of
the executions and of the ranges agree (`Reported`). An error of one range stops the pass, and
leaves what it froze before.
-/

namespace TgCurator

/-! ## The pass -/

/-- `LatestMessageBoundary`. -/
structure LatestMessageBoundary where
  messageId : ℕ
  publishedAt : ℤ

/-- `ScheduledProcessingRange`. -/
structure ScheduledProcessingRange where
  rangeId : ℕ
  sourceChannelId : ℕ
  sourceProfileVersionId : ℕ
  endMode : EndMode
  resolvedStartMessageId : ℕ
  resolvedFixedEndMessageId : Option ℕ
  processingWatermarkMessageId : Option ℕ
  steadyAfterSeconds : Option ℤ

/-- The columns of `processing_ranges` that only the listing reads. -/
structure ListedColumns where
  createdAt : ℤ
  steadyAfterSeconds : Option ℤ

namespace ProcessingTables

/-- The listed range of a row, if it is listed. -/
def scheduledRange (t : ProcessingTables) (columns : ℕ → ListedColumns) (rid : ℕ)
    (row : ProcessingRangeRecord) : Option ScheduledProcessingRange :=
  match t.sources.lookup row.sourceChannelId, row.resolvedStartMessageId with
  | some source, some start =>
    match source.activeProfileVersionId with
    | none => none
    | some profileVersionId =>
      if row.enabled && (row.status = .pending || row.status = .active) &&
          row.activeHighWatermarkMessageId.isNone && source.enabled &&
          !(row.endMode = .fixed && row.resolvedFixedEndMessageId.isNone) then
        some ⟨rid, row.sourceChannelId, profileVersionId, row.endMode, start,
          row.resolvedFixedEndMessageId, row.processingWatermarkMessageId,
          (columns rid).steadyAfterSeconds⟩
      else none
  | _, _ => none

end ProcessingTables

/-- `latest_boundary_is_stable`. -/
def latestBoundaryIsStable (latestMessageAt observedAt quietPeriod : ℤ) : Except PyError Bool := do
  ensure (0 < quietPeriod) "% must be a positive duration" ["quiet_period"]
  return latestMessageAt + quietPeriod ≤ observedAt

/-- `ProcessingRangeScheduler`, apart from its ports. -/
structure ProcessingRangeScheduler where
  maxAttempts : ℕ
  /-- "max_attempts must be greater than zero" -/
  maxAttempts_pos : 0 < maxAttempts

namespace ScheduledProcessingRange

/-- `from_message_id`. -/
def fromMessageId (range : ScheduledProcessingRange) : ℕ :=
  range.processingWatermarkMessageId.getD (range.resolvedStartMessageId - 1)

/-- `to_message_id`, or nothing where the loop goes on to the next range. -/
def toMessageId (range : ScheduledProcessingRange)
    (newestMessage : ScheduledProcessingRange → Except PyError (Option LatestMessageBoundary))
    (now : ℤ) : Except PyError (Option ℕ) :=
  match range.endMode with
  | .fixed => .ok range.resolvedFixedEndMessageId
  | .latest => do
    let boundary ← newestMessage range
    match boundary, range.steadyAfterSeconds with
    | some boundary, some quietSeconds =>
      let stable ← latestBoundaryIsStable boundary.publishedAt now quietSeconds
      return if stable then some boundary.messageId else none
    | _, _ => return none

/-- The window that the pass would freeze for a range. -/
def window (range : ScheduledProcessingRange)
    (newestMessage : ScheduledProcessingRange → Except PyError (Option LatestMessageBoundary))
    (now : ℤ) : Except PyError (Option (ℕ × ℕ)) := do
  let toMessageId ← range.toMessageId newestMessage now
  return (toMessageId.filter (range.fromMessageId < ·)).map (range.fromMessageId, ·)

end ScheduledProcessingRange

section

variable (scheduler : ProcessingRangeScheduler)
  (newestMessage : ScheduledProcessingRange → Except PyError (Option LatestMessageBoundary))
  (now : ℤ)

/-- The execution that is proposed for a range. -/
def ProcessingRangeScheduler.execution (executionId : ℕ) (range : ScheduledProcessingRange)
    (window : ℕ × ℕ) : PendingRangeExecution where
  executionId := executionId
  processingRangeId := range.rangeId
  sourceProfileVersionId := range.sourceProfileVersionId
  fromMessageIdExclusive := window.1
  toMessageIdInclusive := window.2
  maxAttempts := scheduler.maxAttempts

end

/-! ## What a pass decides on -/

section

variable (newestMessage : ScheduledProcessingRange → Except PyError (Option LatestMessageBoundary))
  (now : ℤ)

variable {newestMessage now}

/-- A window starts where its range is, does not end before, and ends at the fixed end of a
range that has one. -/
theorem window_eq_some {range : ScheduledProcessingRange} {window : ℕ × ℕ}
    (h : range.window newestMessage now = .ok (some window)) :
    window.1 = range.fromMessageId ∧ window.1 < window.2 ∧
      (range.endMode = .fixed → range.resolvedFixedEndMessageId = some window.2) := by
  obtain ⟨to', hto, h⟩ := bind_eq_ok.mp h
  obtain ⟨high, hhigh, rfl⟩ := Option.map_eq_some_iff.mp (Except.ok.inj h)
  obtain ⟨rfl, hlt⟩ := Option.filter_eq_some_iff.mp hhigh
  refine ⟨rfl, by simpa using hlt, fun hfixed => ?_⟩
  rw [ScheduledProcessingRange.toMessageId, hfixed] at hto
  exact Except.ok.inj hto

end

namespace ProcessingTables

variable {t : ProcessingTables} {columns : ℕ → ListedColumns}

theorem scheduledRange_eq_some {rid : ℕ} {row : ProcessingRangeRecord}
    {range : ScheduledProcessingRange} (h : t.scheduledRange columns rid row = some range) :
    ∃ source, t.sources.lookup row.sourceChannelId = some source ∧ range.rangeId = rid ∧
      source.enabled ∧ row.enabled ∧ (row.status = .pending ∨ row.status = .active) ∧
      row.activeHighWatermarkMessageId = none ∧
      source.activeProfileVersionId = some range.sourceProfileVersionId ∧
      row.resolvedStartMessageId = some range.resolvedStartMessageId ∧
      row.processingWatermarkMessageId = range.processingWatermarkMessageId ∧
      row.endMode = range.endMode ∧
      row.resolvedFixedEndMessageId = range.resolvedFixedEndMessageId := by
  unfold scheduledRange at h
  split at h
  · next source start hsource hstart =>
    split at h
    · cases h
    · next profileVersionId hprofile =>
      split_ifs at h with hopen
      obtain rfl := Option.some.inj h
      simp only [Bool.and_eq_true, Bool.or_eq_true, decide_eq_true_eq, Option.isNone_iff_eq_none]
        at hopen
      exact ⟨source, hsource, rfl, hopen.1.2, hopen.1.1.1.1, hopen.1.1.1.2, hopen.1.1.2, hprofile,
        hstart, rfl, rfl, rfl⟩
  · cases h

/-- The tables and the ranges that are still to be seen, in the middle of a pass. -/
structure Ready (columns : ℕ → ListedColumns) (t : ProcessingTables) (nextId : ℕ)
    (ranges : List ScheduledProcessingRange) : Prop where
  reported : Reported t
  listed : ∀ range ∈ ranges, ∃ row, t.ranges.lookup range.rangeId = some row ∧
    t.scheduledRange columns range.rangeId row = some range
  nodup : (ranges.map (·.rangeId)).Nodup
  fresh_execution : ∀ id ∈ t.executions.keys, id < nextId
  fresh_wakeup : ∀ key ∈ t.wakeups.keys, key.2 < nextId

/-- The tables after a window is frozen. -/
def freeze (t : ProcessingTables) (execution : PendingRangeExecution) (row : ProcessingRangeRecord)
    (h : execution.fromMessageIdExclusive < execution.toMessageIdInclusive) (now : ℤ) :
    ProcessingTables :=
  { t with
    executions := t.executions ++ [(execution.executionId, execution.row h)]
    ranges := t.ranges.set execution.processingRangeId
      { row with
        activeHighWatermarkMessageId := some execution.toMessageIdInclusive, status := .active }
    wakeups := t.wakeups ++ [((rangeExecutionQueue, execution.executionId), newWakeup now)] }

section

variable (execution : PendingRangeExecution) (row : ProcessingRangeRecord)
  (h : execution.fromMessageIdExclusive < execution.toMessageIdInclusive) (now : ℤ)

theorem freeze_executions : (t.freeze execution row h now).executions =
    t.executions ++ [(execution.executionId, execution.row h)] :=
  rfl

theorem freeze_ranges : (t.freeze execution row h now).ranges =
    t.ranges.set execution.processingRangeId
      { row with
        activeHighWatermarkMessageId := some execution.toMessageIdInclusive, status := .active } :=
  rfl

theorem freeze_wakeups : (t.freeze execution row h now).wakeups =
    t.wakeups ++ [((rangeExecutionQueue, execution.executionId), newWakeup now)] :=
  rfl

end

variable {scheduler : ProcessingRangeScheduler} {nextId : ℕ}
  {range : ScheduledProcessingRange} {ranges : List ScheduledProcessingRange}
  {newestMessage : ScheduledProcessingRange → Except PyError (Option LatestMessageBoundary)}
  {now : ℤ} {window : ℕ × ℕ}

/-- A range in agreement with its executions has no execution in the way of its next window. -/
theorem Ready.no_conflict (h : Ready columns t nextId (range :: ranges))
    (hwindow : range.window newestMessage now = .ok (some window)) :
    t.insertConflicts (scheduler.execution nextId range window) = false := by
  obtain ⟨row, hrow, hlisted⟩ := h.listed range (List.mem_cons_self ..)
  obtain ⟨source, -, -, -, -, hstatus, hhigh, -, -, hwatermark, -⟩ := scheduledRange_eq_some hlisted
  obtain ⟨hfrom, hlt, -⟩ := window_eq_some hwindow
  rw [← Bool.not_eq_true, insertConflicts, List.any_eq_true]
  rintro ⟨e, he, hmeets⟩
  have hid : e.1 < nextId := h.fresh_execution e.1 (Dict.mem_keys.mpr ⟨e.2, he⟩)
  rw [ProcessingRangeScheduler.execution, Bool.or_eq_true, Bool.and_eq_true, Bool.or_eq_true,
    Bool.and_eq_true] at hmeets
  simp only [decide_eq_true_eq] at hmeets
  rcases hmeets with hsame | ⟨hof, hactive | hbounds⟩
  · omega
  all_goals
    obtain ⟨row', hrow', hshown⟩ := h.reported.execution e he
    obtain rfl := Option.some.inj (hrow.symm.trans (hof ▸ hrow'))
  · simp [hshown.frozen (ne_completed_of_isActive hactive)] at hhigh
  · -- a window that is complete ends at the watermark or before
    by_cases hdone : e.2.status = .completed
    · obtain ⟨w, hw, hle⟩ := hshown.completed hdone
      rw [ScheduledProcessingRange.fromMessageId, ← hwatermark, hw, Option.getD_some] at hfrom
      omega
    · simp [hshown.frozen hdone] at hhigh

/-- Freezing the window of a listed range succeeds. -/
theorem Ready.create (h : Ready columns t nextId (range :: ranges))
    (hwindow : range.window newestMessage now = .ok (some window)) :
    ∃ row hlt, t.ranges.lookup range.rangeId = some row ∧
      t.createExecutionAndWakeup (scheduler.execution nextId range window) rangeExecutionQueue now =
        .ok (t.freeze (scheduler.execution nextId range window) row hlt now, true) := by
  obtain ⟨row, hrow, hlisted⟩ := h.listed range (List.mem_cons_self ..)
  obtain ⟨source, hsource, -, henabled, henabled', hstatus, hhigh, hprofile, hstart, hwatermark,
    hmode, hend⟩ := scheduledRange_eq_some hlisted
  obtain ⟨hfrom, hlt, hfixed⟩ := window_eq_some hwindow
  have hexpected : row.expectedWatermark = some window.1 := by
    rw [ProcessingRangeRecord.expectedWatermark, hfrom, ScheduledProcessingRange.fromMessageId,
      hwatermark, hstart]
    cases range.processingWatermarkMessageId <;> rfl
  have hfreeze : canFreeze row source (scheduler.execution nextId range window) = true := by
    have hclosed : (!source.enabled || !row.enabled ||
        !(row.status = .pending || row.status = .active) ||
        row.activeHighWatermarkMessageId.isSome || row.resolvedStartMessageId.isNone ||
        source.activeProfileVersionId ≠
          some (scheduler.execution nextId range window).sourceProfileVersionId) = false := by
      rcases hstatus with hstatus | hstatus <;>
        simp [henabled, henabled', hstatus, hhigh, hstart, hprofile,
          ProcessingRangeScheduler.execution]
    rw [canFreeze, hclosed, hexpected]
    simp only [Bool.false_eq_true, if_false, ProcessingRangeScheduler.execution, ne_eq,
      not_true_eq_false, not_le.mpr hlt]
    rw [hmode, hend]
    cases hrange : range.endMode with
    | latest => rfl
    | fixed => simp [hfixed hrange]
  refine ⟨row, hlt, hrow, ?_⟩
  have hwakeup : t.wakeups.lookup (rangeExecutionQueue, nextId) = none := by
    rw [Dict.lookup_eq_none]
    exact fun hkey => Nat.lt_irrefl _ (h.fresh_wakeup _ hkey)
  have hkey : nextId ∉ t.executions.keys :=
    fun hkey => Nat.lt_irrefl _ (h.fresh_execution _ hkey)
  have hrow' : t.freezeRow (scheduler.execution nextId range window).processingRangeId =
      some (row, source) := freezeRow_eq_some.mpr ⟨hrow, hsource⟩
  rw [createExecutionAndWakeup, hrow']
  dsimp only
  rw [hfreeze, Bool.not_true, if_neg Bool.false_ne_true, dif_pos ⟨hlt, scheduler.maxAttempts_pos⟩,
    h.no_conflict hwindow, if_neg Bool.false_ne_true]
  simp only [ProcessingRangeScheduler.execution, hwakeup, Option.isSome_none, Bool.false_eq_true,
    if_false, freeze]
  rw [Dict.set_of_notMem hkey, Dict.set_of_notMem (Dict.lookup_eq_none.mp hwakeup)]

theorem Ready.freeze (h : Ready columns t nextId (range :: ranges)) {row : ProcessingRangeRecord}
    {hlt : (scheduler.execution nextId range window).fromMessageIdExclusive <
      (scheduler.execution nextId range window).toMessageIdInclusive}
    (hcreate : t.createExecutionAndWakeup (scheduler.execution nextId range window)
      rangeExecutionQueue now =
        .ok (t.freeze (scheduler.execution nextId range window) row hlt now, true)) :
    Ready columns (t.freeze (scheduler.execution nextId range window) row hlt now) (nextId + 1)
      ranges where
  reported := h.reported.transition (transition_createExecutionAndWakeup hcreate)
  listed := by
    intro range' hrange'
    obtain ⟨row', hrow', hlisted⟩ := h.listed range' (List.mem_cons_of_mem _ hrange')
    refine ⟨row', ?_, hlisted⟩
    rw [freeze_ranges, Dict.lookup_set_of_ne]
    · exact hrow'
    · have hnodup := h.nodup
      rw [List.map_cons, List.nodup_cons] at hnodup
      exact fun hsame => hnodup.1 (List.mem_map.mpr ⟨range', hrange', hsame⟩)
  nodup := by
    have hnodup := h.nodup
    rw [List.map_cons, List.nodup_cons] at hnodup
    exact hnodup.2
  fresh_execution := by
    intro id hid
    simp only [ProcessingTables.freeze, Dict.keys, List.map_append, List.mem_append,
      List.map_cons, List.map_nil, List.mem_singleton] at hid
    rcases hid with hid | rfl
    · exact Nat.lt_succ_of_lt (h.fresh_execution id hid)
    · exact Nat.lt_succ_self _
  fresh_wakeup := by
    intro key hkey
    simp only [ProcessingTables.freeze, Dict.keys, List.map_append, List.mem_append,
      List.map_cons, List.map_nil, List.mem_singleton] at hkey
    rcases hkey with hkey | rfl
    · exact Nat.lt_succ_of_lt (h.fresh_wakeup key hkey)
    · exact Nat.lt_succ_self _

/-- The tables after a pass that freezes the given windows. -/
structure Frozen (scheduler : ProcessingRangeScheduler) (now : ℤ) (nextId : ℕ)
    (t : ProcessingTables) (due : List (ScheduledProcessingRange × ℕ × ℕ))
    (t' : ProcessingTables) : Prop where
  executions : ∃ rows, t'.executions = t.executions ++ rows ∧
    List.Forall₂ (fun d row => ∃ h, row = (d.2, (scheduler.execution d.2 d.1.1 d.1.2).row h))
      (due.zipIdx nextId) rows
  ranges : ∀ rid, t'.ranges.lookup rid =
    match due.find? fun d => d.1.rangeId = rid with
    | none => t.ranges.lookup rid
    | some d => (t.ranges.lookup rid).map fun row =>
      { row with activeHighWatermarkMessageId := some d.2.2, status := .active }
  wakeups : t'.wakeups = t.wakeups ++
    (due.zipIdx nextId).map fun d => ((rangeExecutionQueue, d.2), newWakeup now)
  sources : t'.sources = t.sources

theorem Frozen.nil (t : ProcessingTables) : Frozen scheduler now nextId t [] t :=
  ⟨⟨[], by simp, .nil⟩, fun _ => rfl, by simp, rfl⟩

/-- A window that is frozen before the others. -/
theorem Frozen.cons {row : ProcessingRangeRecord}
    {hlt : (scheduler.execution nextId range window).fromMessageIdExclusive <
      (scheduler.execution nextId range window).toMessageIdInclusive}
    (hrow : t.ranges.lookup range.rangeId = some row)
    {due : List (ScheduledProcessingRange × ℕ × ℕ)} {t' : ProcessingTables}
    (hnotMem : ∀ d ∈ due, d.1.rangeId ≠ range.rangeId)
    (h : Frozen scheduler now (nextId + 1)
      (t.freeze (scheduler.execution nextId range window) row hlt now) due t') :
    Frozen scheduler now nextId t ((range, window) :: due) t' where
  executions := by
    obtain ⟨rows, hrows, hproposed⟩ := h.executions
    refine ⟨_ :: rows, ?_, .cons ⟨hlt, rfl⟩ hproposed⟩
    rw [hrows, freeze_executions, List.append_assoc]
    rfl
  ranges := by
    intro rid
    rw [h.ranges, List.find?_cons]
    by_cases hrid : range.rangeId = rid
    · subst hrid
      have hnone : (due.find? fun d => d.1.rangeId = range.rangeId) = none := by
        rw [List.find?_eq_none]
        exact fun d hd => by simpa using hnotMem d hd
      rw [hnone, decide_eq_true rfl]
      dsimp only
      rw [freeze_ranges, hrow]
      exact Dict.lookup_set_self _ _ _
    · rw [decide_eq_false hrid]
      dsimp only
      have hkept : (t.freeze (scheduler.execution nextId range window) row hlt now).ranges.lookup rid =
          t.ranges.lookup rid := Dict.lookup_set_of_ne (Ne.symm hrid) _ _
      rw [hkept]
  wakeups := by
    rw [h.wakeups, freeze_wakeups, List.append_assoc]
    rfl
  sources := h.sources

variable {idLE : ℕ → ℕ → Bool}

/-- The tables that calls of the repository lead to. -/
def Reached (t : ProcessingTables) : Prop :=
  ∃ t₀ calls, Unstarted t₀ ∧ t₀.performAll calls = t

theorem Reached.reported (h : Reached t) : Reported t := by
  obtain ⟨t₀, calls, hunstarted, rfl⟩ := h
  exact reported_performAll (reported_of_unstarted hunstarted) calls

end ProcessingTables

end TgCurator
