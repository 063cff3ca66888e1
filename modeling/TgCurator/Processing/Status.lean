import TgCurator.Processing.Checks

/-!
# What the status of a range says

A row of `processing_ranges` repeats in its status and in its frozen window what its rows of
`range_executions` say. A call of the repository writes one execution and its range
(`Transition`), and the two stay in agreement (`Reported.transition`): a range is pending
until it has an execution, failed from the first failed execution on, completed when its
watermark is its fixed end, and active otherwise, and it has a frozen window exactly while
it has an execution that is not completed.
-/

namespace TgCurator.ProcessingTables

variable {t t' : ProcessingTables}

theorem transition_perform (t : ProcessingTables) (call : RangeCall) :
    ∃ c, Transition t (t.perform call).1 c := by
  cases call with
  | createExecutionAndWakeup execution queue availableAt =>
    dsimp only [perform]
    split
    · exact ⟨_, transition_createExecutionAndWakeup ‹_›⟩
    · exact ⟨_, .kept rfl rfl⟩
  | claimExecution => exact ⟨_, transition_claimExecution ..⟩
  | advanceWatermark => exact ⟨_, transition_advanceWatermark ..⟩
  | completeExecution =>
    dsimp only [perform]
    split
    · exact (transition_completeExecution ‹_›).elim (⟨_, ·⟩) (⟨_, ·⟩)
    · exact (transition_completeExecution ‹_›).elim (⟨_, ·⟩) (⟨_, ·⟩)
    · exact ⟨_, .kept rfl rfl⟩
  | failExecution => exact ⟨_, transition_failExecution ..⟩

/-! ## Agreement -/

/-- What an execution shows in the row of its range. -/
structure ShownBy (row : RangeExecutionRecord) (range : ProcessingRangeRecord) : Prop where
  frozen : row.status ≠ .completed →
    range.activeHighWatermarkMessageId = some row.toMessageIdInclusive
  active : row.status.isActive → range.status = .active
  failed : row.status = .failed → range.status = .failed
  completed : row.status = .completed → ∃ w,
    range.processingWatermarkMessageId = some w ∧ row.toMessageIdInclusive ≤ w

/-- A range with a fixed end whose watermark is there. -/
def AtFixedEnd (range : ProcessingRangeRecord) : Prop :=
  range.endMode = .fixed ∧ ∃ w, range.processingWatermarkMessageId = some w ∧
    range.resolvedFixedEndMessageId = some w

/-- What the row of a range shows of its executions. -/
structure Shows (t : ProcessingTables) (rid : ℕ) (range : ProcessingRangeRecord) : Prop where
  pending : range.status = .pending → range.processingWatermarkMessageId = none ∧
    range.activeHighWatermarkMessageId = none ∧ ∀ e ∈ t.executions, e.2.processingRangeId ≠ rid
  started : range.status ≠ .pending → ∃ e ∈ t.executions, e.2.processingRangeId = rid
  failed : range.status = .failed → ∃ e ∈ t.executions, e.2.processingRangeId = rid ∧
    e.2.status = .failed
  completed : range.status = .completed →
    AtFixedEnd range ∧ range.activeHighWatermarkMessageId = none
  active : range.status = .active → ¬AtFixedEnd range
  not_paused : range.status ≠ .paused
  frozen : ∀ high, range.activeHighWatermarkMessageId = some high → ∃ e ∈ t.executions,
    e.2.processingRangeId = rid ∧ e.2.status ≠ .completed ∧ e.2.toMessageIdInclusive = high

/-- The range of an execution that is not completed. -/
def openRange (row : RangeExecutionRecord) : Option ℕ :=
  if row.status = .completed then none else some row.processingRangeId

/-- The executions and the ranges say the same. -/
structure Reported (t : ProcessingTables) : Prop where
  keys : t.executions.keys.Nodup
  range_keys : t.ranges.keys.Nodup
  one_open : t.executions.Unique openRange
  execution : ∀ e ∈ t.executions, ∃ range,
    t.ranges.lookup e.2.processingRangeId = some range ∧ ShownBy e.2 range
  range : ∀ rid range, t.ranges.lookup rid = some range → Shows t rid range

theorem openRange_eq_some {row : RangeExecutionRecord} {rid : ℕ} :
    openRange row = some rid ↔ row.status ≠ .completed ∧ row.processingRangeId = rid := by
  unfold openRange
  split_ifs with hstatus <;> simp [hstatus]

/-- An active execution, its range, and the other executions of the range: they are completed. -/
theorem Reported.of_active (h : Reported t) {id : ℕ} {row : RangeExecutionRecord}
    (hrow : t.executions.lookup id = some row) (hactive : row.status.isActive) :
    ∃ range, t.ranges.lookup row.processingRangeId = some range ∧ range.status = .active ∧
      range.activeHighWatermarkMessageId = some row.toMessageIdInclusive ∧
      ∀ e ∈ t.executions, e.1 ≠ id → e.2.processingRangeId = row.processingRangeId →
        e.2.status = .completed ∧ ShownBy e.2 range := by
  have hmem := Dict.mem_of_lookup hrow
  obtain ⟨range, hrange, hshown⟩ := h.execution _ hmem
  have hhigh := hshown.frozen (ne_completed_of_isActive hactive)
  refine ⟨range, hrange, hshown.active hactive, hhigh, fun e he hne hrid => ?_⟩
  obtain ⟨range', hrange', hshown'⟩ := h.execution e he
  obtain rfl := Option.some.inj (hrange.symm.trans (hrid ▸ hrange'))
  refine ⟨?_, hshown'⟩
  by_contra hopen
  exact hne (h.one_open e he _ hmem _ (openRange_eq_some.mpr ⟨hopen, hrid⟩)
    (openRange_eq_some.mpr ⟨ne_completed_of_isActive hactive, rfl⟩))

/-- A transaction that writes an execution and its range. -/
theorem Reported.write (h : Reported t) {id : ℕ} {row' : RangeExecutionRecord}
    {range' : ProcessingRangeRecord} (hexecutions : t'.executions = t.executions.set id row')
    (hkeys : t'.ranges.keys.Nodup)
    (hranges : ∀ rid, t'.ranges.lookup rid =
      if rid = row'.processingRangeId then some range' else t.ranges.lookup rid)
    (hold : ∀ row, t.executions.lookup id = some row →
      row.processingRangeId = row'.processingRangeId)
    (hone : row'.status ≠ .completed → ∀ e ∈ t.executions,
      openRange e.2 = some row'.processingRangeId → e.1 = id)
    (hrow : ShownBy row' range')
    (hothers : ∀ e ∈ t.executions, e.1 ≠ id → e.2.processingRangeId = row'.processingRangeId →
      ShownBy e.2 range')
    (hshows : Shows t' row'.processingRangeId range') : Reported t' := by
  have hmem : ∀ {e}, e ∈ t'.executions ↔ e = (id, row') ∨ (e ∈ t.executions ∧ e.1 ≠ id) := by
    intro e
    rw [hexecutions]
    exact Dict.mem_set_iff h.keys
  refine ⟨hexecutions ▸ Dict.nodup_keys_set h.keys, hkeys, ?_, ?_, ?_⟩
  · rw [hexecutions]
    refine h.one_open.set fun rid hrid e he he' => ?_
    obtain ⟨hopen, rfl⟩ := openRange_eq_some.mp hrid
    exact hone hopen e he he'
  · intro e he
    rw [hranges]
    rcases hmem.mp he with rfl | ⟨he, hne⟩
    · exact ⟨range', if_pos rfl, hrow⟩
    · split_ifs with hrid
      · exact ⟨range', rfl, hothers e he hne hrid⟩
      · exact h.execution e he
  · intro rid range hrange
    rw [hranges] at hrange
    split_ifs at hrange with hrid
    · obtain rfl := Option.some.inj hrange
      exact hrid ▸ hshows
    · have hkept := h.range rid range hrange
      -- the other executions of another range are where they were
      have hother : ∀ {p : RangeExecutionRecord → Prop},
          (∃ e ∈ t.executions, e.2.processingRangeId = rid ∧ p e.2) →
            ∃ e ∈ t'.executions, e.2.processingRangeId = rid ∧ p e.2 := by
        rintro p ⟨e, he, hof, hp⟩
        refine ⟨e, hmem.mpr (.inr ⟨he, ?_⟩), hof, hp⟩
        rintro rfl
        exact hrid (hof.symm.trans (hold e.2 (Dict.lookup_of_mem h.keys he)))
      refine { hkept with
        pending := fun hpending => ?_
        started := fun hstarted => ?_
        failed := fun hfailed => ?_
        frozen := fun high hhigh => ?_ }
      · obtain ⟨hwatermark, hhigh, hnone⟩ := hkept.pending hpending
        refine ⟨hwatermark, hhigh, fun e he => ?_⟩
        rcases hmem.mp he with rfl | ⟨he, -⟩
        · exact Ne.symm hrid
        · exact hnone e he
      · obtain ⟨e, he, hof⟩ := hkept.started hstarted
        obtain ⟨e, he, hof, -⟩ := @hother (fun _ => True) ⟨e, he, hof, trivial⟩
        exact ⟨e, he, hof⟩
      · exact @hother (fun row => row.status = .failed) (hkept.failed hfailed)
      · exact @hother (fun row => row.status ≠ .completed ∧ row.toMessageIdInclusive = high)
          (hkept.frozen high hhigh)

theorem lookup_set_eq {V : Type*} (d : Dict ℕ V) (k k' : ℕ) (v : V) :
    (d.set k v).lookup k' = if k' = k then some v else d.lookup k' := by
  split_ifs with hk
  · rw [hk, Dict.lookup_set_self]
  · exact Dict.lookup_set_of_ne hk v d

/-- A window is frozen only on a range that has none, and ends past its watermark. -/
theorem status_of_canFreeze {range : ProcessingRangeRecord} {source : SourceChannel}
    {execution : PendingRangeExecution} (h : canFreeze range source execution = true) :
    range.status = .pending ∨ range.status = .active := by
  unfold canFreeze at h
  split_ifs at h with hclosed
  by_contra hstatus
  rw [not_or] at hstatus
  simp [hstatus.1, hstatus.2] at hclosed

theorem Reported.froze (h : Reported t) {execution : PendingRangeExecution}
    {range : ProcessingRangeRecord} {source : SourceChannel}
    (hlt : execution.fromMessageIdExclusive < execution.toMessageIdInclusive)
    (hrange : t.ranges.lookup execution.processingRangeId = some range)
    (hfreeze : canFreeze range source execution = true)
    (hconflict : ¬t.insertConflicts execution = true)
    (hexecutions : t'.executions = t.executions.set execution.executionId (execution.row hlt))
    (hranges : t'.ranges = t.ranges.set execution.processingRangeId
      { range with
        activeHighWatermarkMessageId := some execution.toMessageIdInclusive, status := .active }) :
    Reported t' := by
  obtain ⟨hhigh, -, hexpected⟩ := canFreeze_iff hfreeze
  have hend : range.endMode = .fixed → _ := canFreeze_fixed hfreeze
  have hfree := insertConflicts_eq_false hconflict
  have hnew : (execution.executionId, execution.row hlt) ∈ t'.executions := by
    rw [hexecutions]
    exact (Dict.mem_set_iff h.keys).mpr (.inl rfl)
  -- the executions the range has are completed
  have hdone : ∀ e ∈ t.executions, e.2.processingRangeId = execution.processingRangeId →
      e.2.status = .completed ∧ ShownBy e.2 range := by
    intro e he hof
    have hinactive := ((hfree e he).2 hof).1
    obtain ⟨range', hrange', hshown⟩ := h.execution e he
    obtain rfl := Option.some.inj (hrange.symm.trans (hof ▸ hrange'))
    refine ⟨?_, hshown⟩
    cases hstatus : e.2.status with
    | completed => rfl
    | failed =>
      rcases status_of_canFreeze hfreeze with hopen | hopen <;>
        simp [hshown.failed hstatus] at hopen
    | pending => simp [hstatus, ExecutionStatus.isActive] at hinactive
    | running => simp [hstatus, ExecutionStatus.isActive] at hinactive
    | retryWait => simp [hstatus, ExecutionStatus.isActive] at hinactive
  refine h.write hexecutions (hranges ▸ Dict.nodup_keys_set h.range_keys)
    (fun rid => hranges ▸ lookup_set_eq _ _ _ _) ?_ ?_ ?_ ?_ ?_
  · exact fun row hrow => absurd rfl (hfree _ (Dict.mem_of_lookup hrow)).1
  · intro _ e he hof
    obtain ⟨hopen, hrid⟩ := openRange_eq_some.mp hof
    exact absurd (hdone e he hrid).1 hopen
  · exact ⟨fun _ => rfl, fun _ => rfl, fun hfailed => (by cases hfailed),
      fun hdone => (by cases hdone)⟩
  · intro e he hne hof
    obtain ⟨hcompleted, hshown⟩ := hdone e he hof
    exact ⟨by simp [hcompleted], by simp [hcompleted, ExecutionStatus.isActive], by simp [hcompleted],
      hshown.completed⟩
  · refine ⟨by simp, fun _ => ⟨_, hnew, rfl⟩, by simp, by simp, fun _ hfixed => ?_, by simp, ?_⟩
    · obtain ⟨hmode, w, hw, hw'⟩ := hfixed
      have hfrom := ProcessingRangeRecord.eq_of_expectedWatermark hexpected hw
      have hto := Option.some.inj ((hend hmode).symm.trans hw')
      omega
    · rintro high hhigh
      obtain rfl := Option.some.inj hhigh
      exact ⟨_, hnew, rfl, by simp [PendingRangeExecution.row], rfl⟩

section Active

variable {id : ℕ} {row row' : RangeExecutionRecord} (hrow : t.executions.lookup id = some row)
  (hactive : row.status.isActive) (hexecutions : t'.executions = t.executions.set id row')
  (hwork : row'.work = row.work)

include hrow hactive hexecutions hwork

/-- A transaction that changes an active execution, and its range with it. -/
theorem Reported.writeActive (h : Reported t) {range' : ProcessingRangeRecord}
    (hkeys : t'.ranges.keys.Nodup) (hranges : ∀ rid, t'.ranges.lookup rid =
      if rid = row.processingRangeId then some range' else t.ranges.lookup rid)
    (hrow' : ShownBy row' range')
    (hothers : ∀ e ∈ t.executions, e.1 ≠ id → e.2.processingRangeId = row.processingRangeId →
      ShownBy e.2 range')
    (hshows : Shows t' row.processingRangeId range') : Reported t' := by
  have hrid : row'.processingRangeId = row.processingRangeId := congrArg Prod.fst hwork
  refine h.write hexecutions hkeys (hrid ▸ hranges) ?_ ?_ hrow' (hrid ▸ hothers) (hrid ▸ hshows)
  · intro old hold
    obtain rfl := Option.some.inj (hrow.symm.trans hold)
    exact hrid.symm
  · intro _ e he hof
    exact h.one_open e he _ (Dict.mem_of_lookup hrow) _ hof
      (openRange_eq_some.mpr ⟨ne_completed_of_isActive hactive, hrid.symm⟩)

theorem Reported.moved (h : Reported t) (hranges : t'.ranges = t.ranges)
    (hactive' : row'.status.isActive) : Reported t' := by
  obtain ⟨range, hrange, hstatus, hhigh, hothers⟩ := h.of_active hrow hactive
  have hto : row'.toMessageIdInclusive = row.toMessageIdInclusive :=
    congrArg (fun work => work.2.2) hwork
  have hrid : row'.processingRangeId = row.processingRangeId := congrArg Prod.fst hwork
  have hnew : (id, row') ∈ t'.executions := by
    rw [hexecutions]
    exact (Dict.mem_set_iff h.keys).mpr (.inl rfl)
  refine h.writeActive hrow hactive hexecutions hwork (hranges ▸ h.range_keys) (fun rid => ?_) ?_
    (fun e he hne hof => (hothers e he hne hof).2) ?_
  · rw [hranges]
    split_ifs with hid
    · rw [hid, hrange]
    · rfl
  · refine ⟨fun _ => hto ▸ hhigh, fun _ => hstatus, fun hfailed => ?_, fun hdone => ?_⟩
    · simp [hfailed, ExecutionStatus.isActive] at hactive'
    · simp [hdone, ExecutionStatus.isActive] at hactive'
  · have hkept := h.range _ range hrange
    refine ⟨by simp [hstatus], fun _ => ⟨_, hnew, hrid⟩, by simp [hstatus], by simp [hstatus],
      hkept.active, by simp [hstatus], fun high hhigh' => ?_⟩
    obtain rfl := Option.some.inj (hhigh.symm.trans hhigh')
    exact ⟨_, hnew, hrid, ne_completed_of_isActive hactive', hto⟩

theorem Reported.failed (h : Reported t)
    (hranges : t'.ranges = failRange t.ranges row.processingRangeId)
    (hfailed : row'.status = .failed) : Reported t' := by
  obtain ⟨range, hrange, hstatus, hhigh, hothers⟩ := h.of_active hrow hactive
  have hto : row'.toMessageIdInclusive = row.toMessageIdInclusive :=
    congrArg (fun work => work.2.2) hwork
  have hrid : row'.processingRangeId = row.processingRangeId := congrArg Prod.fst hwork
  have hnew : (id, row') ∈ t'.executions := by
    rw [hexecutions]
    exact (Dict.mem_set_iff h.keys).mpr (.inl rfl)
  have hranges' : t'.ranges =
      t.ranges.set row.processingRangeId { range with status := .failed } := by
    rw [hranges, failRange, hrange]
  refine h.writeActive hrow hactive hexecutions hwork
    (hranges' ▸ Dict.nodup_keys_set h.range_keys) (fun rid => hranges' ▸ lookup_set_eq _ _ _ _)
    ?_ ?_ ?_
  · exact ⟨fun _ => hto ▸ hhigh, by simp [hfailed, ExecutionStatus.isActive], fun _ => rfl,
      by simp [hfailed]⟩
  · intro e he hne hof
    obtain ⟨hdone, hshown⟩ := hothers e he hne hof
    exact ⟨by simp [hdone], by simp [hdone, ExecutionStatus.isActive], fun _ => rfl,
      hshown.completed⟩
  · refine ⟨by simp, fun _ => ⟨_, hnew, hrid⟩, fun _ => ⟨_, hnew, hrid, hfailed⟩, by simp, by simp,
      by simp, fun high hhigh' => ?_⟩
    obtain rfl := Option.some.inj (hhigh.symm.trans hhigh')
    exact ⟨_, hnew, hrid, by simp [hfailed], hto⟩

theorem Reported.completed (h : Reported t) {range : ProcessingRangeRecord}
    (hrange : t.ranges.lookup row.processingRangeId = some range)
    (hexpected : range.expectedWatermark = some row.fromMessageIdExclusive)
    (hranges : t'.ranges = t.ranges.set row.processingRangeId
      (range.advance row.toMessageIdInclusive))
    (hcompleted : row'.status = .completed) : Reported t' := by
  obtain ⟨range', hrange', hstatus, hhigh, hothers⟩ := h.of_active hrow hactive
  obtain rfl := Option.some.inj (hrange.symm.trans hrange')
  have hto : row'.toMessageIdInclusive = row.toMessageIdInclusive :=
    congrArg (fun work => work.2.2) hwork
  have hrid : row'.processingRangeId = row.processingRangeId := congrArg Prod.fst hwork
  have hnew : (id, row') ∈ t'.executions := by
    rw [hexecutions]
    exact (Dict.mem_set_iff h.keys).mpr (.inl rfl)
  have hactive' : (range.advance row.toMessageIdInclusive).status = .completed ∨
      (range.advance row.toMessageIdInclusive).status = .active := by
    dsimp only [ProcessingRangeRecord.advance]
    split_ifs <;> simp
  have hat : AtFixedEnd (range.advance row.toMessageIdInclusive) ↔
      range.endMode = .fixed ∧
        some row.toMessageIdInclusive = range.resolvedFixedEndMessageId := by
    simp [AtFixedEnd, ProcessingRangeRecord.advance, eq_comm]
  refine h.writeActive hrow hactive hexecutions hwork
    (hranges ▸ Dict.nodup_keys_set h.range_keys) (fun rid => hranges ▸ lookup_set_eq _ _ _ _)
    ?_ ?_ ?_
  · refine ⟨by simp [hcompleted], by simp [hcompleted, ExecutionStatus.isActive],
      by simp [hcompleted], fun _ => ?_⟩
    exact ⟨_, rfl, hto.le⟩
  · intro e he hne hof
    obtain ⟨hdone, hshown⟩ := hothers e he hne hof
    refine ⟨by simp [hdone], by simp [hdone, ExecutionStatus.isActive], by simp [hdone], fun _ => ?_⟩
    obtain ⟨w, hw, hle⟩ := hshown.completed hdone
    have hfrom := ProcessingRangeRecord.eq_of_expectedWatermark hexpected hw
    exact ⟨_, rfl, hle.trans (hfrom ▸ row.bounds.le)⟩
  · refine ⟨fun hpending => ?_, fun _ => ⟨_, hnew, hrid⟩, fun hfailed => ?_, fun hdone => ⟨?_, rfl⟩,
      fun hopen => ?_, fun hpaused => ?_, fun _ hnone => by cases hnone⟩
    · simp [hpending] at hactive'
    · simp [hfailed] at hactive'
    · rw [hat]
      by_contra hne
      simp [ProcessingRangeRecord.advance, hne] at hdone
    · rw [hat]
      intro hend
      simp [ProcessingRangeRecord.advance, hend] at hopen
    · simp [hpaused] at hactive'

end Active

theorem Reported.transition (h : Reported t) {c : Option ℕ} (htransition : Transition t t' c) :
    Reported t' := by
  cases htransition with
  | kept hexecutions hranges =>
    refine ⟨hexecutions ▸ h.keys, hranges ▸ h.range_keys, hexecutions ▸ h.one_open, ?_, ?_⟩
    · rw [hexecutions, hranges]
      exact h.execution
    · intro rid range hrange
      have hkept := h.range rid range (hranges ▸ hrange)
      exact ⟨hexecutions ▸ hkept.pending, hexecutions ▸ hkept.started, hexecutions ▸ hkept.failed,
        hkept.completed, hkept.active, hkept.not_paused, hexecutions ▸ hkept.frozen⟩
  | froze hlt hrange hfreeze hconflict hexecutions hranges =>
    exact h.froze hlt hrange hfreeze hconflict hexecutions hranges
  | moved hrow hactive hexecutions hranges hactive' hwork =>
    exact h.moved hrow hactive hexecutions hwork hranges hactive'
  | failed hrow hactive hexecutions hranges hfailed hwork =>
    exact Reported.failed hrow hactive hexecutions hwork h hranges hfailed
  | completed hrow hactive hrange hexpected hexecutions hranges hcompleted hwork =>
    exact Reported.completed hrow hactive hexecutions hwork h hrange hexpected hranges hcompleted

/-! ## Runs -/

/-- Tables whose ranges are pending, with no watermark and no frozen window, and that have
no execution. -/
structure Unstarted (t : ProcessingTables) : Prop where
  executions : t.executions = []
  keys : t.ranges.keys.Nodup
  pending : ∀ rid range, t.ranges.lookup rid = some range → range.status = .pending ∧
    range.processingWatermarkMessageId = none ∧ range.activeHighWatermarkMessageId = none

theorem reported_of_unstarted (h : t.Unstarted) : Reported t := by
  refine ⟨by simp [h.executions], h.keys, h.executions ▸ Dict.Unique.nil, by simp [h.executions], ?_⟩
  intro rid range hrange
  obtain ⟨hstatus, hwatermark, hhigh⟩ := h.pending rid range hrange
  refine ⟨fun _ => ⟨hwatermark, hhigh, by simp [h.executions]⟩, ?_, ?_, ?_, ?_, ?_, ?_⟩ <;>
    simp [hstatus, hhigh]

theorem reported_performAll (h : Reported t) (calls : List RangeCall) :
    Reported (t.performAll calls) := by
  induction calls generalizing t with
  | nil => exact h
  | cons call calls ih =>
    obtain ⟨c, htransition⟩ := transition_perform t call
    exact ih (h.transition htransition)

/-- The executions of a range that are not completed. -/
def openExecutions (t : ProcessingTables) (rid : ℕ) : Dict ℕ RangeExecutionRecord :=
  t.executions.filter fun e => openRange e.2 = some rid

/-- The status that its executions give to a range. -/
def executionsStatus (t : ProcessingTables) (rid : ℕ) (range : ProcessingRangeRecord) :
    RangeStatus :=
  if t.executions.any fun e => e.2.processingRangeId = rid && e.2.status = .failed then .failed
  else if t.executions.all fun e => e.2.processingRangeId ≠ rid then .pending
  else if range.endMode = .fixed && range.processingWatermarkMessageId.isSome &&
      range.processingWatermarkMessageId = range.resolvedFixedEndMessageId then .completed
  else .active

theorem atFixedEnd_iff {range : ProcessingRangeRecord} :
    (range.endMode = .fixed && range.processingWatermarkMessageId.isSome &&
      range.processingWatermarkMessageId = range.resolvedFixedEndMessageId) = true ↔
        AtFixedEnd range := by
  simp only [AtFixedEnd, Bool.and_eq_true, decide_eq_true_eq, and_assoc]
  refine and_congr_right fun _ => ?_
  constructor
  · rintro ⟨hsome, heq⟩
    obtain ⟨w, hw⟩ := Option.isSome_iff_exists.mp hsome
    exact ⟨w, hw, heq ▸ hw⟩
  · rintro ⟨w, hw, hw'⟩
    exact ⟨by simp [hw], hw.trans hw'.symm⟩

theorem Reported.status_eq (h : Reported t) {rid : ℕ} {range : ProcessingRangeRecord}
    (hrange : t.ranges.lookup rid = some range) : range.status = t.executionsStatus rid range := by
  have hshows := h.range rid range hrange
  have hof : ∀ e ∈ t.executions, e.2.processingRangeId = rid → ShownBy e.2 range := by
    intro e he hrid
    obtain ⟨range', hrange', hshown⟩ := h.execution e he
    obtain rfl := Option.some.inj (hrange.symm.trans (hrid ▸ hrange'))
    exact hshown
  unfold executionsStatus
  split_ifs with hfailed hnone hend
  · obtain ⟨e, he, hmeets⟩ := List.any_eq_true.mp hfailed
    simp only [Bool.and_eq_true, decide_eq_true_eq] at hmeets
    exact (hof e he hmeets.1).failed hmeets.2
  · by_contra hstarted
    obtain ⟨e, he, hrid⟩ := hshows.started hstarted
    exact absurd hrid (by simpa using List.all_eq_true.mp hnone e he)
  -- the range has an execution, and none failed
  · rw [atFixedEnd_iff] at hend
    cases hstatus : range.status with
    | completed => rfl
    | active => exact absurd hend (hshows.active hstatus)
    | pending =>
      obtain ⟨w, hw, -⟩ := hend.2
      simp [(hshows.pending hstatus).1] at hw
    | paused => exact absurd hstatus hshows.not_paused
    | failed =>
      obtain ⟨e, he, hrid, hstatus⟩ := hshows.failed hstatus
      exact absurd (List.any_eq_true.mpr ⟨e, he, by simp [hrid, hstatus]⟩) hfailed
  · rw [atFixedEnd_iff] at hend
    cases hstatus : range.status with
    | completed => exact absurd (hshows.completed hstatus).1 hend
    | active => rfl
    | pending =>
      refine absurd (List.all_eq_true.mpr fun e he => ?_) hnone
      simpa using (hshows.pending hstatus).2.2 e he
    | paused => exact absurd hstatus hshows.not_paused
    | failed =>
      obtain ⟨e, he, hrid, hstatus⟩ := hshows.failed hstatus
      exact absurd (List.any_eq_true.mpr ⟨e, he, by simp [hrid, hstatus]⟩) hfailed

/-- The frozen high watermark of a range is the end of its one open execution. -/
theorem Reported.high_eq (h : Reported t) {rid : ℕ} {range : ProcessingRangeRecord}
    (hrange : t.ranges.lookup rid = some range) :
    (t.openExecutions rid).map (·.2.toMessageIdInclusive) =
      range.activeHighWatermarkMessageId.toList := by
  have hshows := h.range rid range hrange
  cases hhigh : range.activeHighWatermarkMessageId with
  | none =>
    rw [Option.toList_none, List.map_eq_nil_iff, openExecutions, List.filter_eq_nil_iff]
    intro e he
    simp only [openRange_eq_some, decide_eq_true_eq]
    rintro ⟨hopen, rfl⟩
    obtain ⟨range', hrange', hshown⟩ := h.execution e he
    obtain rfl := Option.some.inj (hrange.symm.trans hrange')
    simp [hshown.frozen hopen] at hhigh
  | some high =>
    obtain ⟨e, he, hrid, hopen, rfl⟩ := hshows.frozen high hhigh
    rw [openExecutions, h.one_open.filter_eq h.keys he (openRange_eq_some.mpr ⟨hopen, hrid⟩)]
    rfl

/-- In every state that calls on the executions lead to, the status of a range is the one its
executions give it, and its frozen high watermark is the end of its one execution that is not
completed, if it has one. -/
theorem range_rows_report (h : t.Unstarted) (calls : List RangeCall) (rid : ℕ)
    (range : ProcessingRangeRecord) (hrange : (t.performAll calls).ranges.lookup rid = some range) :
    range.status = (t.performAll calls).executionsStatus rid range ∧
      ((t.performAll calls).openExecutions rid).map (·.2.toMessageIdInclusive) =
        range.activeHighWatermarkMessageId.toList :=
  ⟨(reported_performAll (reported_of_unstarted h) calls).status_eq hrange,
    (reported_performAll (reported_of_unstarted h) calls).high_eq hrange⟩

theorem unstarted_untilNine : untilNine.Unstarted where
  executions := rfl
  keys := by decide
  pending rid range hrange := by
    obtain rfl : range = (untilNine.ranges.head (by simp [untilNine])).2 := by
      rw [untilNine, Dict.lookup_cons] at hrange
      split_ifs at hrange
      · exact (Option.some.inj hrange).symm
      · cases hrange
    exact ⟨rfl, rfl, rfl⟩

theorem range_rows_report_nine : ∃ range,
    (untilNine.performAll nineCalls).ranges.lookup 1 = some range ∧
      range.status = (untilNine.performAll nineCalls).executionsStatus 1 range ∧
        ((untilNine.performAll nineCalls).openExecutions 1).map (·.2.toMessageIdInclusive) =
          range.activeHighWatermarkMessageId.toList :=
  ⟨_, rfl, range_rows_report unstarted_untilNine nineCalls 1 _ rfl⟩

end TgCurator.ProcessingTables
