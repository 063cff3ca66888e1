import TgCurator.Processing.Repository
import TgCurator.Runs
import TgCurator.Tiling

/-!
# Windows of a range

What holds of the range tables whatever the schedulers and the workers do. The invariant
(`RangesInv`) says that the completed windows of a range tile the ids from its resolved
start up to its watermark, and that an active execution starts at the watermark, ends at
the active high watermark and is the only one of its range. Every transaction keeps it
(`RangesInv.effect`), and none lowers a watermark (`Effect.rangesLater`).
-/

namespace TgCurator

/-! ## Watermarks -/

/-- The id from which the next window of a range starts. -/
def ProcessingRangeRecord.low (range : ProcessingRangeRecord) (start : ℕ) : ℕ :=
  range.processingWatermarkMessageId.getD (start - 1)

/-- The source and the start of a range stay, and its watermark does not decrease. -/
structure ProcessingRangeRecord.Later (range range' : ProcessingRangeRecord) : Prop where
  source : range'.sourceChannelId = range.sourceChannelId
  start : range'.resolvedStartMessageId = range.resolvedStartMessageId
  watermark : ∀ w, range.processingWatermarkMessageId = some w →
    ∃ w', range'.processingWatermarkMessageId = some w' ∧ w ≤ w'

theorem ProcessingRangeRecord.Later.refl (range : ProcessingRangeRecord) : range.Later range :=
  ⟨rfl, rfl, fun w h => ⟨w, h, le_rfl⟩⟩

theorem ProcessingRangeRecord.Later.trans {r r' r'' : ProcessingRangeRecord} (h : r.Later r')
    (h' : r'.Later r'') : r.Later r'' where
  source := h'.source.trans h.source
  start := h'.start.trans h.start
  watermark := by
    intro w hw
    obtain ⟨w', hw', hle⟩ := h.watermark w hw
    obtain ⟨w'', hw'', hle'⟩ := h'.watermark w' hw'
    exact ⟨w'', hw'', hle.trans hle'⟩

theorem ProcessingRangeRecord.Later.of_marks {r r' : ProcessingRangeRecord}
    (h : r'.marks = r.marks) : r.Later r' := by
  simp only [ProcessingRangeRecord.marks, Prod.mk.injEq] at h
  exact ⟨h.1, h.2.1, fun w hw => ⟨w, h.2.2.1.trans hw, le_rfl⟩⟩

theorem ProcessingRangeRecord.expectedWatermark_eq {range : ProcessingRangeRecord} {start : ℕ}
    (h : range.resolvedStartMessageId = some start) :
    range.expectedWatermark = some (range.low start) := by
  unfold ProcessingRangeRecord.expectedWatermark ProcessingRangeRecord.low
  rw [h]
  cases range.processingWatermarkMessageId <;> rfl

theorem ProcessingRangeRecord.marks_congr {r r' : ProcessingRangeRecord} (h : r'.marks = r.marks) :
    r'.sourceChannelId = r.sourceChannelId ∧
      r'.resolvedStartMessageId = r.resolvedStartMessageId ∧
      r'.activeHighWatermarkMessageId = r.activeHighWatermarkMessageId ∧
      ∀ start, r'.low start = r.low start := by
  simp only [ProcessingRangeRecord.marks, Prod.mk.injEq] at h
  exact ⟨h.1, h.2.1, h.2.2.2, fun start => by rw [low, low, h.2.2.1]⟩

namespace ProcessingTables

variable {t t' t'' : ProcessingTables} {c : Option ℕ}

/-- No range is lost and no watermark decreases. -/
def RangesLater (t t' : ProcessingTables) : Prop :=
  ∀ rid range, t.ranges.lookup rid = some range →
    ∃ range', t'.ranges.lookup rid = some range' ∧ range.Later range'

theorem RangesLater.refl (t : ProcessingTables) : RangesLater t t :=
  fun _ range h => ⟨range, h, .refl range⟩

theorem RangesLater.trans (h : RangesLater t t') (h' : RangesLater t' t'') : RangesLater t t'' := by
  intro rid range hrange
  obtain ⟨range', hrange', hlater⟩ := h rid range hrange
  obtain ⟨range'', hrange'', hlater'⟩ := h' rid range' hrange'
  exact ⟨range'', hrange'', hlater.trans hlater'⟩

theorem rangesLater_set {rid : ℕ} {range range' : ProcessingRangeRecord}
    (hrange : t.ranges.lookup rid = some range) (hlater : range.Later range')
    (hranges : t'.ranges = t.ranges.set rid range') : RangesLater t t' := by
  intro rid' r hr
  by_cases hid : rid' = rid
  · subst hid
    obtain rfl := Option.some.inj (hrange.symm.trans hr)
    exact ⟨range', by rw [hranges, Dict.lookup_set_self], hlater⟩
  · exact ⟨r, by rw [hranges, Dict.lookup_set_of_ne hid, hr], .refl r⟩

/-- No transaction lowers a watermark. -/
theorem Effect.rangesLater (h : Effect t t' c) : RangesLater t t' := by
  cases h with
  | kept hexecutions hranges => exact fun rid range hr => ⟨range, hranges ▸ hr, .refl range⟩
  | froze hnew hrange hstart hexpected hhigh hexecutions hranges hstatus hmarks =>
    simp only [ProcessingRangeRecord.marks, Prod.mk.injEq] at hmarks
    exact rangesLater_set hrange
      ⟨hmarks.1, hmarks.2.1, fun w hw => ⟨w, hmarks.2.2.1.trans hw, le_rfl⟩⟩ hranges
  | moved hrow hactive hexecutions hranges hwork hstatus =>
    intro rid range hrange
    have hmarks := hranges rid
    rw [hrange, Option.map_some, Option.map_eq_some_iff] at hmarks
    obtain ⟨range', hrange', hmarks⟩ := hmarks
    exact ⟨range', hrange', .of_marks hmarks⟩
  | @completed id row row' range range' hrow hactive hrange hexpected hexecutions hranges hwork
      hstatus hmarks =>
    simp only [ProcessingRangeRecord.marks, Prod.mk.injEq] at hmarks
    refine rangesLater_set hrange ⟨hmarks.1, hmarks.2.1, fun w hw => ?_⟩ hranges
    rw [ProcessingRangeRecord.expectedWatermark, hw] at hexpected
    obtain rfl : w = row.fromMessageIdExclusive := Option.some.inj hexpected
    exact ⟨_, hmarks.2.2.1, row.bounds.le⟩

/-! ## Executions -/

/-- No execution changes its range or its window. -/
def ExecutionsLater (t t' : ProcessingTables) : Prop :=
  ∀ id row, t.executions.lookup id = some row →
    ∃ row', t'.executions.lookup id = some row' ∧ row'.work = row.work

theorem executionsLater_set {id : ℕ} {row' : RangeExecutionRecord}
    (hrow : ∀ row, t.executions.lookup id = some row → row'.work = row.work)
    (hexecutions : t'.executions = t.executions.set id row') : ExecutionsLater t t' := by
  intro id' r hr
  by_cases hid : id' = id
  · subst hid
    exact ⟨row', by rw [hexecutions, Dict.lookup_set_self], hrow r hr⟩
  · exact ⟨r, by rw [hexecutions, Dict.lookup_set_of_ne hid, hr], rfl⟩

theorem Effect.executionsLater (h : Effect t t' c) : ExecutionsLater t t' := by
  cases h with
  | kept hexecutions hranges => exact fun id row hr => ⟨row, hexecutions ▸ hr, rfl⟩
  | froze hnew hrange hstart hexpected hhigh hexecutions hranges hstatus hmarks =>
    exact executionsLater_set (fun row hr => by simp [hnew] at hr) hexecutions
  | moved hrow hactive hexecutions hranges hwork hstatus =>
    exact executionsLater_set (fun r hr => Option.some.inj (hrow.symm.trans hr) ▸ hwork) hexecutions
  | completed hrow hactive hrange hexpected hexecutions hranges hwork hstatus hmarks =>
    exact executionsLater_set (fun r hr => Option.some.inj (hrow.symm.trans hr) ▸ hwork) hexecutions

/-- An execution is completed by the transaction that completes it only. -/
theorem Effect.completed_before (h : Effect t t' c) {id : ℕ} {row' : RangeExecutionRecord}
    (hrow' : t'.executions.lookup id = some row') (hdone : row'.status = .completed) :
    t.executions.lookup id = some row' ∨ c = some id := by
  have hother : ∀ {id' r}, t'.executions = t.executions.set id' r → r.status ≠ .completed →
      t.executions.lookup id = some row' := by
    intro id' r hexecutions hr
    rw [hexecutions] at hrow'
    by_cases hid : id = id'
    · rw [hid, Dict.lookup_set_self] at hrow'
      exact absurd (Option.some.inj hrow' ▸ hdone) hr
    · rwa [Dict.lookup_set_of_ne hid] at hrow'
  cases h with
  | kept hexecutions hranges => exact .inl (hexecutions ▸ hrow')
  | froze hnew hrange hstart hexpected hhigh hexecutions hranges hstatus hmarks =>
    exact .inl (hother hexecutions (by simp [hstatus]))
  | moved hrow hactive hexecutions hranges hwork hstatus =>
    exact .inl (hother hexecutions hstatus)
  | @completed id' row row'' range range' hrow hactive hrange hexpected hexecutions hranges hwork
      hstatus hmarks =>
    by_cases hid : id = id'
    · exact .inr (congrArg some hid.symm)
    · rw [hexecutions, Dict.lookup_set_of_ne hid] at hrow'
      exact .inl hrow'

/-! ## The invariant -/

/-- Whether an execution of a range is completed. -/
def isCompletedOf (rid : ℕ) (e : ℕ × RangeExecutionRecord) : Bool :=
  e.2.processingRangeId = rid && e.2.status = .completed

/-- The windows of the completed executions of a range. -/
def completedWindows (t : ProcessingTables) (rid : ℕ) : List (ℕ × ℕ) :=
  (t.executions.filter (isCompletedOf rid)).map (·.2.window)

/-- What holds of the range tables in every run. -/
structure RangesInv (t : ProcessingTables) : Prop where
  range : ∀ id row, t.executions.lookup id = some row → ∃ range start,
    t.ranges.lookup row.processingRangeId = some range ∧ range.resolvedStartMessageId = some start
  active : ∀ id row range start, t.executions.lookup id = some row → row.status.isActive →
    t.ranges.lookup row.processingRangeId = some range → range.resolvedStartMessageId = some start →
      row.fromMessageIdExclusive = range.low start ∧
        range.activeHighWatermarkMessageId = some row.toMessageIdInclusive
  one : ∀ id id' row row', t.executions.lookup id = some row → t.executions.lookup id' = some row' →
    row.status.isActive → row'.status.isActive →
      row.processingRangeId = row'.processingRangeId → id = id'
  tiles : ∀ rid range start, t.ranges.lookup rid = some range →
    range.resolvedStartMessageId = some start →
      ∃ ws, (t.completedWindows rid).Perm ws ∧ Tiling.Tiles (start - 1) ws (range.low start)

/-- The tables before any execution. -/
structure Fresh (t : ProcessingTables) : Prop where
  executions : t.executions = []
  watermark : ∀ rid range, t.ranges.lookup rid = some range →
    range.processingWatermarkMessageId = none

theorem RangesInv.of_fresh (h : t.Fresh) : RangesInv t where
  range := by simp [h.executions]
  active := by simp [h.executions]
  one := by simp [h.executions]
  tiles := by
    intro rid range start hrange hstart
    refine ⟨[], by simp [completedWindows, h.executions], ?_⟩
    rw [ProcessingRangeRecord.low, h.watermark rid range hrange]
    rfl

/-- An execution that is not completed before or after does not change the completed ones. -/
theorem completedWindows_set {id : ℕ} {row' : RangeExecutionRecord}
    (hexecutions : t'.executions = t.executions.set id row') (hstatus : row'.status ≠ .completed)
    (hold : ∀ row, t.executions.lookup id = some row → row.status ≠ .completed) (rid : ℕ) :
    t'.completedWindows rid = t.completedWindows rid := by
  unfold completedWindows
  rw [hexecutions, Dict.filter_set (by simp [isCompletedOf, hstatus])]
  intro row hrow
  simp [isCompletedOf, hold row hrow]

theorem ExecutionStatus.ne_completed_of_isActive {status : ExecutionStatus}
    (h : status.isActive = true) : status ≠ .completed := by
  rintro rfl
  cases h

/-- A range without a frozen window has no active execution. -/
theorem RangesInv.not_active (h : RangesInv t) {id rid : ℕ} {row : RangeExecutionRecord}
    {range : ProcessingRangeRecord} (hrow : t.executions.lookup id = some row)
    (hactive : row.status.isActive) (hrid : row.processingRangeId = rid)
    (hrange : t.ranges.lookup rid = some range)
    (hhigh : range.activeHighWatermarkMessageId = none) : False := by
  subst hrid
  obtain ⟨range', start, hrange', hstart⟩ := h.range id row hrow
  obtain rfl := Option.some.inj (hrange.symm.trans hrange')
  simp [(h.active id row range start hrow hactive hrange hstart).2] at hhigh

section Froze

variable {id : ℕ} {row : RangeExecutionRecord} {range range' : ProcessingRangeRecord}
  (hnew : t.executions.lookup id = none)
  (hrange : t.ranges.lookup row.processingRangeId = some range)
  (hexpected : range.expectedWatermark = some row.fromMessageIdExclusive)
  (hhigh : range.activeHighWatermarkMessageId = none)
  (hexecutions : t'.executions = t.executions.set id row)
  (hranges : t'.ranges = t.ranges.set row.processingRangeId range')
  (hstatus : row.status = .pending)
  (hmarks : range'.marks = (range.sourceChannelId, range.resolvedStartMessageId,
    range.processingWatermarkMessageId, some row.toMessageIdInclusive))

include hnew hrange hexpected hhigh hexecutions hranges hstatus hmarks

/-- Freezing a window keeps the invariant. -/
theorem RangesInv.froze (h : RangesInv t) (hstart : range.resolvedStartMessageId.isSome)
    (hlater : RangesLater t t') : RangesInv t' := by
  simp only [ProcessingRangeRecord.marks, Prod.mk.injEq] at hmarks
  obtain ⟨-, hstart', hwatermark', hhigh'⟩ := hmarks
  have hlow : ∀ start, range'.low start = range.low start := by
    intro start
    rw [ProcessingRangeRecord.low, ProcessingRangeRecord.low, hwatermark']
  -- a row of the new table is the new one, or an old one
  have hrows : ∀ {id' row'}, t'.executions.lookup id' = some row' →
      (id' = id ∧ row' = row) ∨ (id' ≠ id ∧ t.executions.lookup id' = some row') := by
    intro id' row' hrow'
    rw [hexecutions] at hrow'
    exact Dict.of_lookup_set hrow'
  -- and an old active one is of another range
  have hother : ∀ {id' row'}, t.executions.lookup id' = some row' → row'.status.isActive →
      row'.processingRangeId ≠ row.processingRangeId :=
    fun hrow' hactive' hrid => h.not_active hrow' hactive' hrid hrange hhigh
  have hset : ∀ {rid r}, t'.ranges.lookup rid = some r →
      (rid = row.processingRangeId ∧ r = range') ∨
        (rid ≠ row.processingRangeId ∧ t.ranges.lookup rid = some r) := by
    intro rid r hr
    rw [hranges] at hr
    exact Dict.of_lookup_set hr
  constructor
  · intro id' row' hrow'
    obtain ⟨r, start, hr, hs⟩ : ∃ r start, t.ranges.lookup row'.processingRangeId = some r ∧
        r.resolvedStartMessageId = some start := by
      rcases hrows hrow' with ⟨-, rfl⟩ | ⟨-, hold⟩
      · obtain ⟨start, hs⟩ := Option.isSome_iff_exists.mp hstart
        exact ⟨range, start, hrange, hs⟩
      · exact h.range id' row' hold
    obtain ⟨r', hr', hlater'⟩ := hlater _ r hr
    exact ⟨r', start, hr', hlater'.start.trans hs⟩
  · intro id' row' r start hrow' hactive' hr hs
    rcases hrows hrow' with ⟨-, rfl⟩ | ⟨-, hold⟩
    · rcases hset hr with ⟨-, rfl⟩ | ⟨hne, -⟩
      · rw [ProcessingRangeRecord.expectedWatermark_eq (hstart'.symm.trans hs)] at hexpected
        exact ⟨(hlow start).symm ▸ (Option.some.inj hexpected).symm, hhigh'⟩
      · exact absurd rfl hne
    · rcases hset hr with ⟨hrid, -⟩ | ⟨-, hr⟩
      · exact absurd hrid (hother hold hactive')
      · exact h.active id' row' r start hold hactive' hr hs
  · intro id1 id2 row1 row2 hrow1 hrow2 hactive1 hactive2 hrid
    rcases hrows hrow1 with ⟨rfl, rfl⟩ | ⟨-, hold1⟩ <;>
      rcases hrows hrow2 with ⟨rfl, rfl⟩ | ⟨-, hold2⟩
    · rfl
    · exact absurd hrid.symm (hother hold2 hactive2)
    · exact absurd hrid (hother hold1 hactive1)
    · exact h.one id1 id2 row1 row2 hold1 hold2 hactive1 hactive2 hrid
  · intro rid r start hr hs
    rw [completedWindows_set hexecutions (by simp [hstatus]) (by simp [hnew])]
    rcases hset hr with ⟨rfl, rfl⟩ | ⟨-, hr⟩
    · rw [hlow]
      exact h.tiles _ range start hrange (hstart'.symm.trans hs)
    · exact h.tiles rid r start hr hs

end Froze

/-- A transaction that neither freezes nor completes keeps the invariant: an active
execution was active for the same work, and the watermarks are the same. -/
theorem RangesInv.moved (h : RangesInv t) {id : ℕ} {row row' : RangeExecutionRecord}
    (hrow : t.executions.lookup id = some row) (hactive : row.status.isActive)
    (hexecutions : t'.executions = t.executions.set id row')
    (hranges : ∀ rid, (t'.ranges.lookup rid).map (·.marks) = (t.ranges.lookup rid).map (·.marks))
    (hwork : row'.work = row.work) (hstatus : row'.status ≠ .completed) : RangesInv t' := by
  have hrows : ∀ {id' r'}, t'.executions.lookup id' = some r' →
      ∃ r, t.executions.lookup id' = some r ∧ r'.work = r.work ∧
        (r'.status.isActive → r.status.isActive) := by
    intro id' r' hr'
    rw [hexecutions] at hr'
    rcases Dict.of_lookup_set hr' with ⟨rfl, rfl⟩ | ⟨-, hold⟩
    · exact ⟨row, hrow, hwork, fun _ => hactive⟩
    · exact ⟨r', hold, rfl, fun h => h⟩
  have hmarks : ∀ {rid r'}, t'.ranges.lookup rid = some r' →
      ∃ r, t.ranges.lookup rid = some r ∧ r'.marks = r.marks := by
    intro rid r' hr'
    have hsame := hranges rid
    rw [hr', Option.map_some, eq_comm, Option.map_eq_some_iff] at hsame
    obtain ⟨r, hr, hsame⟩ := hsame
    exact ⟨r, hr, hsame.symm⟩
  have hfields : ∀ {r r' : RangeExecutionRecord}, r'.work = r.work →
      r'.processingRangeId = r.processingRangeId ∧
        r'.fromMessageIdExclusive = r.fromMessageIdExclusive ∧
        r'.toMessageIdInclusive = r.toMessageIdInclusive := by
    intro r r' hsame
    simpa [RangeExecutionRecord.work, RangeExecutionRecord.window] using hsame
  constructor
  · intro id' r' hr'
    obtain ⟨r, hr, hsame, -⟩ := hrows hr'
    obtain ⟨range, start, hrange, hstart⟩ := h.range id' r hr
    have hsome := hranges r.processingRangeId
    rw [hrange, Option.map_some, Option.map_eq_some_iff] at hsome
    obtain ⟨range', hrange', hmarks'⟩ := hsome
    rw [(hfields hsame).1]
    exact ⟨range', start, hrange', (ProcessingRangeRecord.marks_congr hmarks').2.1.trans hstart⟩
  · intro id' r' range' start hr' hactive' hrange' hstart'
    obtain ⟨r, hr, hsame, hwas⟩ := hrows hr'
    obtain ⟨hrid, hfrom, hto⟩ := hfields hsame
    obtain ⟨range, hrange, hmarks'⟩ := hmarks hrange'
    obtain ⟨-, hstart, hhigh, hlow⟩ := ProcessingRangeRecord.marks_congr hmarks'
    rw [hfrom, hto, hhigh, hlow]
    exact h.active id' r range start hr (hwas hactive') (hrid ▸ hrange) (hstart.symm.trans hstart')
  · intro id1 id2 r1' r2' hr1' hr2' hactive1 hactive2 hrid
    obtain ⟨r1, hr1, hsame1, hwas1⟩ := hrows hr1'
    obtain ⟨r2, hr2, hsame2, hwas2⟩ := hrows hr2'
    rw [(hfields hsame1).1, (hfields hsame2).1] at hrid
    exact h.one id1 id2 r1 r2 hr1 hr2 (hwas1 hactive1) (hwas2 hactive2) hrid
  · intro rid range' start hrange' hstart'
    obtain ⟨range, hrange, hmarks'⟩ := hmarks hrange'
    obtain ⟨-, hstart, -, hlow⟩ := ProcessingRangeRecord.marks_congr hmarks'
    have hold : ∀ r, t.executions.lookup id = some r → r.status ≠ .completed := by
      intro r hr
      obtain rfl := Option.some.inj (hrow.symm.trans hr)
      exact ExecutionStatus.ne_completed_of_isActive hactive
    rw [completedWindows_set hexecutions hstatus hold, hlow]
    exact h.tiles rid range start hrange (hstart.symm.trans hstart')

/-- Completing the execution of the frozen window adds the window to the tiling. -/
theorem RangesInv.completed (h : RangesInv t) {id : ℕ} {row row' : RangeExecutionRecord}
    {range range' : ProcessingRangeRecord} (hrow : t.executions.lookup id = some row)
    (hactive : row.status.isActive) (hrange : t.ranges.lookup row.processingRangeId = some range)
    (hexpected : range.expectedWatermark = some row.fromMessageIdExclusive)
    (hexecutions : t'.executions = t.executions.set id row')
    (hranges : t'.ranges = t.ranges.set row.processingRangeId range')
    (hwork : row'.work = row.work) (hstatus : row'.status = .completed)
    (hmarks : range'.marks = (range.sourceChannelId, range.resolvedStartMessageId,
      some row.toMessageIdInclusive, none)) (hlater : RangesLater t t') : RangesInv t' := by
  simp only [ProcessingRangeRecord.marks, Prod.mk.injEq] at hmarks
  obtain ⟨-, hstart', hwatermark', -⟩ := hmarks
  have hrid : row'.processingRangeId = row.processingRangeId := congrArg Prod.fst hwork
  have hwindow : row'.window = row.window := congrArg Prod.snd hwork
  have hinactive : ¬row'.status.isActive := by
    rw [hstatus]
    exact Bool.false_ne_true
  have hrows : ∀ {id' r'}, t'.executions.lookup id' = some r' →
      (id' = id ∧ r' = row') ∨ (id' ≠ id ∧ t.executions.lookup id' = some r') := by
    intro id' r' hr'
    rw [hexecutions] at hr'
    exact Dict.of_lookup_set hr'
  -- the active executions left are of other ranges
  have hothers : ∀ {id' r'}, t'.executions.lookup id' = some r' → r'.status.isActive →
      t.executions.lookup id' = some r' ∧ r'.processingRangeId ≠ row.processingRangeId := by
    intro id' r' hr' hactive'
    rcases hrows hr' with ⟨-, rfl⟩ | ⟨hne, hold⟩
    · exact absurd hactive' hinactive
    · exact ⟨hold, fun hsame => hne (h.one id' id r' row hold hrow hactive' hactive hsame)⟩
  constructor
  · intro id' r' hr'
    obtain ⟨r, start, hr, hs⟩ : ∃ r start, t.ranges.lookup r'.processingRangeId = some r ∧
        r.resolvedStartMessageId = some start := by
      rcases hrows hr' with ⟨-, rfl⟩ | ⟨-, hold⟩
      · rw [hrid]
        exact h.range id row hrow
      · exact h.range id' r' hold
    obtain ⟨r'', hr'', hlater'⟩ := hlater _ r hr
    exact ⟨r'', start, hr'', hlater'.start.trans hs⟩
  · intro id' r' r start hr' hactive' hr hs
    obtain ⟨hold, hne⟩ := hothers hr' hactive'
    rw [hranges, Dict.lookup_set_of_ne hne] at hr
    exact h.active id' r' r start hold hactive' hr hs
  · intro id1 id2 r1 r2 hr1 hr2 hactive1 hactive2 hsame
    exact h.one id1 id2 r1 r2 (hothers hr1 hactive1).1 (hothers hr2 hactive2).1 hactive1 hactive2
      hsame
  · intro rid r start hr hs
    have hold : ∀ w, t.executions.lookup id = some w → isCompletedOf rid (id, w) = false := by
      intro w hw
      obtain rfl := Option.some.inj (hrow.symm.trans hw)
      simp [isCompletedOf, ExecutionStatus.ne_completed_of_isActive hactive]
    rw [hranges] at hr
    rcases Dict.of_lookup_set hr with ⟨rfl, rfl⟩ | ⟨hne, hr⟩
    · -- the window starts where the tiling of its range ends
      have hstart := hstart'.symm.trans hs
      obtain ⟨ws, hperm, htiles⟩ := h.tiles _ range start hrange hstart
      rw [ProcessingRangeRecord.expectedWatermark_eq hstart, Option.some.injEq] at hexpected
      have hnew : isCompletedOf row.processingRangeId (id, row') = true := by
        simp [isCompletedOf, hrid, hstatus]
      have hconcat := htiles.concat (hexpected ▸ row.bounds)
      refine ⟨ws ++ [row.window], ?_, ?_⟩
      · unfold completedWindows
        rw [hexecutions]
        refine ((Dict.filter_set_perm hnew hold).map _).trans ?_
        rw [List.map_append, List.map_singleton, hwindow]
        exact hperm.append_right _
      · rw [ProcessingRangeRecord.low, hwatermark', RangeExecutionRecord.window, ← hexpected]
        exact hconcat
    · have hsame : t'.completedWindows rid = t.completedWindows rid := by
        unfold completedWindows
        rw [hexecutions, Dict.filter_set ?_ hold]
        simp [isCompletedOf, hrid, Ne.symm hne]
      rw [hsame]
      exact h.tiles rid r start hr hs

/-- Every transaction keeps the invariant. -/
theorem RangesInv.effect (h : RangesInv t) (he : Effect t t' c) : RangesInv t' := by
  have hlater := he.rangesLater
  cases he with
  | kept hexecutions hranges =>
    obtain ⟨hrange, hactive, hone, htiles⟩ := h
    have hcompleted : ∀ rid, t'.completedWindows rid = t.completedWindows rid :=
      fun rid => by rw [completedWindows, hexecutions, completedWindows]
    constructor
    · rwa [hexecutions, hranges]
    · rwa [hexecutions, hranges]
    · rwa [hexecutions]
    · simpa only [hranges, hcompleted] using htiles
  | froze hnew hrange hstart hexpected hhigh hexecutions hranges hstatus hmarks =>
    exact h.froze hnew hrange hexpected hhigh hexecutions hranges hstatus hmarks hstart hlater
  | moved hrow hactive hexecutions hranges hwork hstatus =>
    exact h.moved hrow hactive hexecutions hranges hwork hstatus
  | completed hrow hactive hrange hexpected hexecutions hranges hwork hstatus hmarks =>
    exact h.completed hrow hactive hrange hexpected hexecutions hranges hwork hstatus hmarks hlater

/-- Completing never rejects the holder of an unexpired lease whose watermark reached the
end of its window. -/
theorem RangesInv.completes (h : RangesInv t) {executionId leaseToken : ℕ} {now expires : ℤ}
    {row : RangeExecutionRecord} (hrow : t.executions.lookup executionId = some row)
    (hrunning : row.status = .running) (htoken : row.leaseToken = some leaseToken)
    (hexpires : row.leaseExpiresAt = some expires) (hnow : now < expires)
    (hreached : row.watermarkMessageId = row.toMessageIdInclusive) :
    ∃ t', t.completeExecution executionId leaseToken now = .ok (t', true) := by
  have hlocked : t.lockedActiveRow executionId leaseToken now = some row :=
    lockedActiveRow_eq_some.mpr ⟨hrow, hrunning, htoken, expires, hexpires, hnow⟩
  obtain ⟨range, start, hrange, hstart⟩ := h.range executionId row hrow
  obtain ⟨hfrom, hhigh⟩ := h.active executionId row range start hrow (by rw [hrunning]; rfl) hrange
    hstart
  unfold completeExecution
  rw [hlocked]
  dsimp only
  rw [if_neg (not_not.mpr hreached), hrange]
  dsimp only
  rw [ProcessingRangeRecord.expectedWatermark_eq hstart]
  dsimp only
  rw [if_neg (not_or.mpr ⟨not_not.mpr hfrom.symm, not_not.mpr hhigh⟩)]
  exact ⟨_, rfl⟩

end ProcessingTables

end TgCurator
