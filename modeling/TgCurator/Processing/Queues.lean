import TgCurator.Analysis.Leasing
import TgCurator.Media.Leasing
import TgCurator.Processing.Dispatch

/-!
# The queues of the database

The range executions, the stage runs, the images and the videos, with the calls of their
workers, as queues under one dispatcher (`SourceQueue.toWakeupQueue`). A worker's call runs on the
shared wake-ups and draws its tokens from the shared counter.

`wakeups_never_lost` is about every order of these calls: wake-ups are never lost, and a
dispatcher that is late changes nothing.
-/

namespace TgCurator

/-! ## Range executions -/

/-- The scheduler creates executions under the queue of their workers. -/
def RangeCall.isQueued : RangeCall → Bool
  | createExecutionAndWakeup _ queue _ => queue = rangeExecutionQueue
  | claimExecution .. => true
  | advanceWatermark .. => true
  | completeExecution .. => true
  | failExecution .. => true

namespace ProcessingTables

/-- The tables with the shared wake-ups. -/
def share (t : ProcessingTables) (d : Durable) : ProcessingTables :=
  { t with wakeups := d.wakeups, nextToken := d.nextToken }

/-- What a call does to the executions and the wake-ups. -/
def RangeTurn (t t' : ProcessingTables) : Prop :=
  Turn (fun row : RangeExecutionRecord => !row.status.isActive) rangeExecutionQueue
    t.executions t.wakeups t'.executions t'.wakeups

variable {t t' : ProcessingTables}

theorem rangeTurn_set (h : t.executions.keys.Nodup) {id : ℕ} {row row' : RangeExecutionRecord}
    (hrow : t.executions.lookup id = some row) (hactive : row.status.isActive)
    (hexecutions : t'.executions = t.executions.set id row') (hwakeups : t'.wakeups = t.wakeups) :
    RangeTurn t t' := by
  unfold RangeTurn
  rw [hexecutions, hwakeups]
  exact .set h (fun _ _ => rfl) (by rw [hrow]; exact .changed (by simp [hactive]) _)

theorem rangeTurn_ended (h : t.executions.keys.Nodup) {id : ℕ} {row row' : RangeExecutionRecord}
    {now : ℤ} (hrow : t.executions.lookup id = some row) (hended : row'.status.isActive = false)
    (hexecutions : t'.executions = t.executions.set id row')
    (hwakeups : t'.wakeups = setWakeupTerminal t.wakeups rangeExecutionQueue id now) :
    RangeTurn t t' := by
  unfold RangeTurn
  rw [hexecutions, hwakeups]
  refine .set h (fun _ => lookup_updateWakeup_of_ne) ?_
  rw [hrow]
  exact .ended (by simp [hended]) (setWakeupTerminal_cases _ _ _ _)

theorem rangeTurn_createExecutionAndWakeup (h : t.executions.keys.Nodup)
    {execution : PendingRangeExecution} {availableAt : ℤ} {created : Bool}
    (hcreate : t.createExecutionAndWakeup execution rangeExecutionQueue availableAt =
      .ok (t', created)) : RangeTurn t t' := by
  unfold createExecutionAndWakeup at hcreate
  cases hrow : t.freezeRow execution.processingRangeId with
  | none =>
    rw [hrow] at hcreate
    obtain ⟨rfl, -⟩ := Prod.mk.inj (Except.ok.inj hcreate)
    exact .refl h
  | some e =>
    rw [hrow] at hcreate
    dsimp only at hcreate
    split_ifs at hcreate with hfreeze hchecks hconflict hwakeup
    · obtain ⟨rfl, -⟩ := Prod.mk.inj (Except.ok.inj hcreate)
      exact .refl h
    · obtain ⟨rfl, -⟩ := Prod.mk.inj (Except.ok.inj hcreate)
      exact .refl h
    · obtain ⟨rfl, -⟩ := Prod.mk.inj (Except.ok.inj hcreate)
      have hnew : t.executions.lookup execution.executionId = none := by
        rw [Dict.lookup_eq_none]
        intro hmem
        obtain ⟨row, hmem⟩ := Dict.mem_keys.mp hmem
        exact hconflict (List.any_eq_true.mpr ⟨_, hmem, by simp⟩)
      refine .set h (fun key hkey => Dict.lookup_set_of_ne hkey _ _) ?_
      rw [hnew, Option.not_isSome_iff_eq_none.mp hwakeup, Dict.lookup_set_self]
      exact .made rfl rfl

theorem rangeTurn_claimExecution (h : t.executions.keys.Nodup) (executionId : ℕ)
    (now leaseDuration : ℤ) :
    RangeTurn t (t.claimExecution executionId now leaseDuration).1 := by
  unfold claimExecution
  cases hrow : t.executions.lookup executionId with
  | none => exact .refl h
  | some row =>
    dsimp only
    cases t.ranges.lookup row.processingRangeId with
    | none => exact .refl h
    | some range =>
      dsimp only
      split_ifs with heligible
      · exact .refl h
      · exact rangeTurn_ended h hrow rfl rfl rfl
      · have hactive := RangeExecutionRecord.isActive_of_eligible (by simpa using heligible)
        exact rangeTurn_set h hrow hactive rfl rfl

theorem rangeTurn_advanceWatermark (h : t.executions.keys.Nodup)
    (executionId leaseToken watermarkMessageId : ℕ) (now : ℤ) :
    RangeTurn t (t.advanceWatermark executionId leaseToken watermarkMessageId now).1 := by
  unfold advanceWatermark
  cases hlocked : t.lockedActiveRow executionId leaseToken now with
  | none => exact .refl h
  | some row =>
    obtain ⟨hrow, hrunning, -⟩ := lockedActiveRow_eq_some.mp hlocked
    dsimp only
    split_ifs
    · exact rangeTurn_set h hrow (by rw [hrunning]; rfl) rfl rfl
    · exact .refl h

theorem rangeTurn_completeExecution (h : t.executions.keys.Nodup) {executionId leaseToken : ℕ}
    {now : ℤ} {completed : Bool}
    (hcomplete : t.completeExecution executionId leaseToken now = .ok (t', completed)) :
    RangeTurn t t' := by
  have hkept : ∀ {b : Bool}, (Except.ok (t, b) : Except PyError _) = .ok (t', completed) →
      RangeTurn t t' := by
    intro b heq
    obtain ⟨rfl, -⟩ := Prod.mk.inj (Except.ok.inj heq)
    exact .refl h
  unfold completeExecution at hcomplete
  cases hlocked : t.lockedActiveRow executionId leaseToken now with
  | none =>
    rw [hlocked] at hcomplete
    exact hkept hcomplete
  | some row =>
    obtain ⟨hrow, -⟩ := lockedActiveRow_eq_some.mp hlocked
    rw [hlocked] at hcomplete
    dsimp only at hcomplete
    split_ifs at hcomplete
    · exact hkept hcomplete
    cases hrange : t.ranges.lookup row.processingRangeId with
    | none =>
      rw [hrange] at hcomplete
      exact hkept hcomplete
    | some range =>
      rw [hrange] at hcomplete
      dsimp only at hcomplete
      cases hexpected : range.expectedWatermark with
      | none => simp [hexpected] at hcomplete
      | some expectedWatermark =>
        rw [hexpected] at hcomplete
        dsimp only at hcomplete
        split_ifs at hcomplete
        · exact hkept hcomplete
        · obtain ⟨rfl, -⟩ := Prod.mk.inj (Except.ok.inj hcomplete)
          exact rangeTurn_ended h hrow rfl rfl rfl

theorem rangeTurn_failExecution (h : t.executions.keys.Nodup) (executionId leaseToken : ℕ)
    (errorCode errorType : String) (retryable : Bool) (retryAt now : ℤ) :
    RangeTurn t
      (t.failExecution executionId leaseToken errorCode errorType retryable retryAt now).1 := by
  unfold failExecution
  cases hlocked : t.lockedActiveRow executionId leaseToken now with
  | none => exact .refl h
  | some row =>
    obtain ⟨hrow, hrunning, -⟩ := lockedActiveRow_eq_some.mp hlocked
    dsimp only
    split_ifs
    · refine .set h (fun _ => lookup_updateWakeup_of_ne) ?_
      rw [hrow]
      exact .retried (by rw [hrunning]; rfl) (rescheduleWakeup_cases _ _ _ _)
    · exact rangeTurn_ended h hrow rfl rfl rfl

theorem rangeTurn_perform (h : t.executions.keys.Nodup) {call : RangeCall}
    (hqueued : call.isQueued = true) : RangeTurn t (t.perform call).1 := by
  cases call with
  | createExecutionAndWakeup execution queue availableAt =>
    obtain rfl := of_decide_eq_true hqueued
    dsimp only [perform]
    split
    · exact rangeTurn_createExecutionAndWakeup h ‹_›
    · exact .refl h
  | claimExecution => exact rangeTurn_claimExecution h _ _ _
  | advanceWatermark => exact rangeTurn_advanceWatermark h _ _ _ _
  | completeExecution =>
    dsimp only [perform]
    split
    · exact rangeTurn_completeExecution h ‹_›
    · exact rangeTurn_completeExecution h ‹_›
    · exact .refl h
  | failExecution => exact rangeTurn_failExecution h _ _ _ _ _ _ _

/-- The queue of the range executions. -/
def rangeQueue :
    WakeupQueue ProcessingTables RangeExecutionRecord { call : RangeCall // call.isQueued } where
  name := rangeExecutionQueue
  rows := executions
  closed row := !row.status.isActive
  perform t d call :=
    let t := ((t.share d).perform call.1).1
    (t, ⟨t.wakeups, t.nextToken⟩)
  fresh_le t d call := rangeRepository.fresh_le (t.share d) call.1
  turn t d call h := rangeTurn_perform (t := t.share d) h call.2

end ProcessingTables

/-! ## Stage runs -/

namespace AnalysisTables

/-- The tables with the shared wake-ups. -/
def share (t : AnalysisTables) (d : Durable) : AnalysisTables :=
  { t with wakeups := d.wakeups, nextId := d.nextToken }

/-- What a call does to the stage runs and the wake-ups. -/
def StageTurn (t t' : AnalysisTables) : Prop :=
  Turn (fun row : StageRunRecord => !row.status.isActive) analysisQueue t.stageRuns t.wakeups
    t'.stageRuns t'.wakeups

variable {t t' : AnalysisTables}

theorem stageTurn_set (h : t.stageRuns.keys.Nodup) {id : ℕ} {row row' : StageRunRecord}
    (hrow : t.stageRuns.lookup id = some row) (hactive : row.status.isActive)
    (hstageRuns : t'.stageRuns = t.stageRuns.set id row') (hwakeups : t'.wakeups = t.wakeups) :
    StageTurn t t' := by
  unfold StageTurn
  rw [hstageRuns, hwakeups]
  exact .set h (fun _ _ => rfl) (by rw [hrow]; exact .changed (by simp [hactive]) _)

theorem stageTurn_ended (h : t.stageRuns.keys.Nodup) {id : ℕ} {row row' : StageRunRecord}
    {now : ℤ} (hrow : t.stageRuns.lookup id = some row) (hended : row'.status.isActive = false)
    (hstageRuns : t'.stageRuns = t.stageRuns.set id row')
    (hwakeups : t'.wakeups = setWakeupTerminal t.wakeups analysisQueue id now) :
    StageTurn t t' := by
  unfold StageTurn
  rw [hstageRuns, hwakeups]
  refine .set h (fun _ => lookup_updateWakeup_of_ne) ?_
  rw [hrow]
  exact .ended (by simp [hended]) (setWakeupTerminal_cases _ _ _ _)

/-- The gate ends stage runs with their wake-ups. -/
theorem stageTurn_gated (h : t.stageRuns.keys.Nodup) (runId : ℕ) (run : AnalysisRunRecord)
    (causal : Dict ℕ NegativeGateAssignment) (now : ℤ) :
    StageTurn t (t.gated runId run causal now) := by
  refine ⟨?_, ?_, ?_⟩
  · dsimp only [gated]
    rw [Dict.keys_mapValues]
    exact h
  · intro key hkey
    exact foldl_setWakeupTerminal_of_ne (by rintro e - rfl; exact hkey rfl) _
  · intro id
    dsimp only [gated]
    rw [Dict.lookup_mapValues]
    have hkept : (∀ row, t.stageRuns.lookup id = some row →
        gateSkips runId causal row = false) →
          ∀ e ∈ t.stageRuns.filter fun e => gateSkips runId causal e.2,
            (analysisQueue, id) ≠ (analysisQueue, e.1) := by
      rintro hskip e he hid
      obtain ⟨he, hskipped⟩ := List.mem_filter.mp he
      obtain rfl : id = e.1 := (Prod.mk.inj hid).2
      rw [hskip e.2 (Dict.lookup_of_mem h he)] at hskipped
      cases hskipped
    cases hrow : t.stageRuns.lookup id with
    | none =>
      rw [foldl_setWakeupTerminal_of_ne (hkept (by simp [hrow]))]
      exact .same _ _
    | some row =>
      rw [Option.map_some]
      split_ifs with hskip
      · exact .ended rfl (foldl_setWakeupTerminal_cases _ _ _ _)
      · rw [foldl_setWakeupTerminal_of_ne (hkept (by simpa [hrow] using hskip))]
        exact .same _ _

theorem Effect.stageTurn {report : Option Report} (heffect : Effect t report t')
    (h : t.stageRuns.keys.Nodup) : StageTurn t t' := by
  cases heffect with
  | kept => exact .refl h
  | leased now leaseDuration hrow hactive => exact stageTurn_set h hrow hactive rfl rfl
  | exhausted now hrow => exact stageTurn_ended h hrow rfl rfl rfl
  | started policy cacheKey inferenceCalls hrow =>
    exact stageTurn_set h hrow.found hrow.active rfl rfl
  | committed result now hrow => exact stageTurn_ended h hrow.found rfl rfl rfl
  | reused cacheKey now hrow => exact stageTurn_ended h hrow.found rfl rfl rfl
  | failed code errorType retryable retryAt now hrow =>
    unfold retryOrFailRow
    split_ifs
    · refine .set h (fun _ => lookup_updateWakeup_of_ne) ?_
      rw [hrow.found]
      exact .retried (by simp [hrow.active]) (rescheduleWakeup_cases _ _ _ _)
    · exact stageTurn_ended h hrow.found rfl rfl rfl
  | gated causal now => exact stageTurn_gated h _ _ causal now
  | aggregated => exact .refl h

/-- The queue of the stage runs. -/
def stageQueue : WakeupQueue AnalysisTables StageRunRecord AnalysisCall where
  name := analysisQueue
  rows := stageRuns
  closed row := !row.status.isActive
  perform t d call :=
    let t := ((t.share d).perform call).1
    (t, ⟨t.wakeups, t.nextId⟩)
  fresh_le t d call := stageRepository.fresh_le (t.share d) call
  turn t d call h := by
    obtain ⟨report, heffect, -⟩ := effect_perform (t.share d) call
    exact heffect.stageTurn h

end AnalysisTables

/-! ## Archive assets -/

namespace ArchiveTables

variable {D : Type} {queue : String} {t t' : ArchiveTables D}

/-- The tables with the shared wake-ups. -/
def share (t : ArchiveTables D) (d : Durable) : ArchiveTables D :=
  { t with wakeups := d.wakeups, nextToken := d.nextToken }

/-- What a call does to the assets and the wake-ups. -/
def AssetTurn (queue : String) (t t' : ArchiveTables D) : Prop :=
  Turn (fun row : ArchiveAssetRecord D => !row.archiveState.isActive) queue t.assets t.wakeups
    t'.assets t'.wakeups

/-- An update of an open wake-up is one of a wake-up, or nothing. -/
theorem updateOpenWakeup_eq (wakeups : Dict (String × ℕ) DurableWakeupRecord) (queue : String)
    (entityId : ℕ) (change : DurableWakeupRecord → DurableWakeupRecord) :
    updateOpenWakeup wakeups queue entityId change = wakeups ∨
      updateOpenWakeup wakeups queue entityId change =
        updateWakeup wakeups queue entityId change := by
  unfold updateOpenWakeup updateWakeup
  cases wakeups.lookup (queue, entityId) with
  | none => exact .inl rfl
  | some wakeup =>
    dsimp only
    split_ifs with hopen hcancelled
    · rw [hcancelled] at hopen
      cases hopen
    · exact .inr rfl
    · exact .inl rfl
    · exact .inl rfl

theorem lookup_updateOpenWakeup_of_ne {wakeups : Dict (String × ℕ) DurableWakeupRecord}
    {entityId : ℕ} {change : DurableWakeupRecord → DurableWakeupRecord} {key : String × ℕ}
    (h : key ≠ (queue, entityId)) :
    (updateOpenWakeup wakeups queue entityId change).lookup key = wakeups.lookup key := by
  rcases updateOpenWakeup_eq wakeups queue entityId change with heq | heq
  · rw [heq]
  · rw [heq, lookup_updateWakeup_of_ne h]

theorem setOpenWakeupTerminal_cases (wakeups : Dict (String × ℕ) DurableWakeupRecord)
    (queue : String) (entityId : ℕ) (now : ℤ) :
    (setOpenWakeupTerminal wakeups queue entityId now).lookup (queue, entityId) =
        wakeups.lookup (queue, entityId) ∨
      ∃ row row', wakeups.lookup (queue, entityId) = some row ∧
        (setOpenWakeupTerminal wakeups queue entityId now).lookup (queue, entityId) = some row' ∧
          row'.status = .completed := by
  unfold setOpenWakeupTerminal
  rcases updateOpenWakeup_eq wakeups queue entityId _ with heq | heq
  · exact .inl (by rw [heq])
  · rw [heq]
    exact setWakeupTerminal_cases wakeups queue entityId now

theorem rescheduleOpenWakeup_cases (wakeups : Dict (String × ℕ) DurableWakeupRecord)
    (queue : String) (entityId : ℕ) (retryAt : ℤ) :
    (rescheduleOpenWakeup wakeups queue entityId retryAt).lookup (queue, entityId) =
        wakeups.lookup (queue, entityId) ∨
      ∃ row row', wakeups.lookup (queue, entityId) = some row ∧
        (rescheduleOpenWakeup wakeups queue entityId retryAt).lookup (queue, entityId) =
          some row' ∧ row'.status = .pending := by
  unfold rescheduleOpenWakeup
  rcases updateOpenWakeup_eq wakeups queue entityId _ with heq | heq
  · exact .inl (by rw [heq])
  · rw [heq]
    exact rescheduleWakeup_cases wakeups queue entityId retryAt

theorem Effect.assetTurn {event : Option (ℕ × Lease.Event ℕ)} (heffect : Effect queue t event t')
    (h : t.assets.keys.Nodup) : AssetTurn queue t t' := by
  cases heffect with
  | kept => exact .refl h
  | leased now leaseDuration hrow hactive =>
    exact .set h (fun _ _ => rfl) (by rw [hrow]; exact .changed (by simp [hactive]) _)
  | failed now hrow hactive hstate =>
    refine .set h (fun _ => lookup_updateOpenWakeup_of_ne) ?_
    rw [hrow]
    exact .ended (by rw [hstate]; rfl) (setOpenWakeupTerminal_cases _ _ _ _)
  | published archived archivedAt hrow =>
    exact .set h (fun _ _ => rfl) (by rw [hrow.found]; exact .ended rfl (.inl rfl))
  | returned errorCode errorType retryAt now hrow =>
    refine .set h (fun _ => lookup_updateOpenWakeup_of_ne) ?_
    rw [hrow.found]
    exact .retried (by simp [hrow.active]) (rescheduleOpenWakeup_cases _ _ _ _)
  | @woken id row now hrow hended =>
    refine ⟨h, fun key hkey => lookup_updateOpenWakeup_of_ne (by rintro rfl; exact hkey rfl), ?_⟩
    intro id'
    dsimp only
    by_cases hid : id' = id
    · rw [hid, hrow]
      exact .ended (by simp [hended]) (setOpenWakeupTerminal_cases _ _ _ _)
    · rw [setOpenWakeupTerminal, lookup_updateOpenWakeup_of_ne (by simp [hid])]
      exact .same _ _

/-- The queue of the assets. -/
def assetQueue (queue : String) (D : Type) :
    WakeupQueue (ArchiveTables D) (ArchiveAssetRecord D) (ArchiveCall D) where
  name := queue
  rows := assets
  closed row := !row.archiveState.isActive
  perform t d call :=
    let t := ((t.share d).perform queue call).1
    (t, ⟨t.wakeups, t.nextToken⟩)
  fresh_le t d call := (effect_perform queue (t.share d) call).nextToken_le
  turn t d call h := (effect_perform queue (t.share d) call).assetTurn h

end ArchiveTables

/-! ## One database -/

/-- The queues of the source. -/
inductive SourceQueue
  | range | analysis | imageArchive | videoArchive
  deriving DecidableEq

namespace SourceQueue

/-- The tables of the workers of a queue. -/
def Tables : SourceQueue → Type
  | range => ProcessingTables
  | analysis => AnalysisTables
  | imageArchive => ImageArchiveTables
  | videoArchive => VideoArchiveTables

/-- The rows of the entities of a queue. -/
def Row : SourceQueue → Type
  | range => RangeExecutionRecord
  | analysis => StageRunRecord
  | imageArchive => ArchiveAssetRecord ImageArchive
  | videoArchive => ArchiveAssetRecord VideoArchive

/-- The calls of the workers of a queue. -/
def Call : SourceQueue → Type
  | range => { call : RangeCall // call.isQueued }
  | analysis => AnalysisCall
  | imageArchive => ArchiveCall ImageArchive
  | videoArchive => ArchiveCall VideoArchive

/-- A queue with the calls of its workers. -/
def toWakeupQueue : ∀ q : SourceQueue, WakeupQueue q.Tables q.Row q.Call
  | range => ProcessingTables.rangeQueue
  | analysis => AnalysisTables.stageQueue
  | imageArchive => ArchiveTables.assetQueue imageArchiveQueue ImageArchive
  | videoArchive => ArchiveTables.assetQueue videoArchiveQueue VideoArchive

theorem name_injective (q q' : SourceQueue) (h : q.toWakeupQueue.name = q'.toWakeupQueue.name) :
    q = q' := by
  revert h
  cases q <;> cases q' <;> decide

end SourceQueue

/-- The database of the source. -/
abbrev SourceDatabase :=
  Database SourceQueue.Tables

/-- The calls of the dispatcher and of the workers of every queue. -/
abbrev SourceCall :=
  DatabaseCall SourceQueue.Call

/-- In every order of the calls of the dispatcher and of the workers of the four queues,
from entities that were made with their wake-ups, wake-ups are never lost. -/
theorem wakeups_never_lost (idLE : String × ℕ → String × ℕ → Bool) (s s' : SourceDatabase)
    (calls : List SourceCall) (hstart : s.Start SourceQueue.toWakeupQueue)
    (hrun : Runs.run (Database.step idLE SourceQueue.toWakeupQueue) s calls = some s') :
    s'.NeverLost idLE SourceQueue.toWakeupQueue :=
  ((Database.inv_of_start hstart).run SourceQueue.name_injective hrun).neverLost
    SourceQueue.name_injective

/-- One entity of each queue, made with its wake-up. -/
def oneOfEach : SourceDatabase where
  tables
    | .range =>
      { sources := []
        ranges := []
        executions := [(1, (⟨1, 1, 1, 0, 10, 3⟩ : PendingRangeExecution).row (by decide))]
        wakeups := []
        nextToken := 0 }
    | .analysis => oneStage
    | .imageArchive =>
      { messages := [(4, ⟨1, none⟩)]
        assets := [(5, .ingested 4 "photo" (some 7) 5)]
        wakeups := []
        nextToken := 0 }
    | .videoArchive =>
      { messages := [(4, ⟨1, none⟩)]
        assets := [(6, .ingested 4 "clip" (some 8) 5)]
        wakeups := []
        nextToken := 0 }
  durable :=
    { wakeups := [((rangeExecutionQueue, 1), newWakeup 0), ((analysisQueue, 3), newWakeup 0),
        ((imageArchiveQueue, 5), newWakeup 0), ((videoArchiveQueue, 6), newWakeup 0)]
      nextToken := 0 }

theorem start_oneOfEach : oneOfEach.Start SourceQueue.toWakeupQueue := by
  have hsingle : ∀ {R : Type} {name : String} {key : ℕ} {row : R} {closed : R → Bool},
      closed row = false →
        oneOfEach.durable.wakeups.lookup (name, key) = some (newWakeup 0) →
          (∀ id, id ≠ key → oneOfEach.durable.wakeups.lookup (name, id) = none) → ∀ id,
            (List.lookup id [(key, row)] = none ∧
              oneOfEach.durable.wakeups.lookup (name, id) = none) ∨
            ∃ r availableAt, List.lookup id [(key, row)] = some r ∧ closed r = false ∧
              oneOfEach.durable.wakeups.lookup (name, id) = some (newWakeup availableAt) := by
    intro R name key row closed hopen hkey hother id
    by_cases hid : id = key
    · rw [hid, Dict.lookup_cons, if_pos rfl]
      exact .inr ⟨row, 0, rfl, hopen, hkey⟩
    · rw [Dict.lookup_cons, if_neg (Ne.symm hid)]
      exact .inl ⟨rfl, hother id hid⟩
  have hnone : ∀ {name : String} {key id : ℕ}, id ≠ key →
      (∀ e ∈ oneOfEach.durable.wakeups, e.1.1 = name → e.1.2 = key) →
        oneOfEach.durable.wakeups.lookup (name, id) = none := by
    intro name key id hid hall
    rw [Dict.lookup_eq_none]
    intro hmem
    obtain ⟨row, hmem⟩ := Dict.mem_keys.mp hmem
    exact hid (hall _ hmem rfl)
  refine ⟨?_, ?_⟩
  · intro q
    cases q <;> decide
  · intro q
    cases q with
    | range => exact hsingle rfl rfl fun id hid => hnone hid (by decide)
    | analysis => exact hsingle rfl rfl fun id hid => hnone hid (by decide)
    | imageArchive => exact hsingle rfl rfl fun id hid => hnone hid (by decide)
    | videoArchive => exact hsingle rfl rfl fun id hid => hnone hid (by decide)

/-- The dispatcher claims every wake-up, a worker fails to archive the image, and the
dispatcher is late to acknowledge its signal. -/
def lateDispatcher : List SourceCall :=
  [.claimDue 0 60 10, .work .imageArchive (.claim 5 0 300),
    .work .imageArchive (.fail ⟨⟨5, 1, 7, "photo", none⟩, 4⟩ "IMAGE_ARCHIVE_FAILED"
      "ImageArchiveError" true 60 0),
    .acknowledgeDispatch imageArchiveQueue 5 2 0 300]

theorem wakeups_never_lost_lateDispatcher :
    ∃ s, Runs.run (Database.step (fun _ _ => true) SourceQueue.toWakeupQueue) oneOfEach
        lateDispatcher = some s ∧
      s.NeverLost (fun _ _ => true) SourceQueue.toWakeupQueue ∧
      (s.wakeup SourceQueue.toWakeupQueue .imageArchive 5).map (·.nextAttemptAt) = some 60 := by
  have hfinal : (Runs.run (Database.step (fun _ _ => true) SourceQueue.toWakeupQueue) oneOfEach
      lateDispatcher).any (fun s => (s.wakeup SourceQueue.toWakeupQueue .imageArchive 5).map
        (·.nextAttemptAt) = some 60) = true := by
    decide +kernel
  obtain ⟨s, hrun, hs⟩ := (Option.any_eq_true _ _).mp hfinal
  exact ⟨s, hrun, wakeups_never_lost _ _ s _ start_oneOfEach hrun, of_decide_eq_true hs⟩

end TgCurator
