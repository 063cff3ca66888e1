import Mathlib.Data.List.Sort
import TgCurator.Analysis.Worker
import TgCurator.Owed

/-!
# The status of a run and its stage runs

`complete_analysis_run` gives a run the aggregate of its stage runs, in a transaction after
the one that ends a stage run, and `_terminalize_exhausted` gives it one of its own with the
end of the last stage run. `Aggregated` says that a run has what `complete_analysis_run`
computes; until then the run is left to a worker (`Completes`).

A run stays behind if the worker that is to complete it stops, and it has another error if
the stage run whose attempts are exhausted is not its first failure
(`terminalizeExhausted_aggregated_iff`). Without these each ended run has its aggregate
(`run_aggregated`).
-/

namespace TgCurator

/-! ## The first failure -/

/-- What is found first in a sorted list comes before what else could be found. -/
theorem find?_insertionSort {α : Type} {r : α → α → Prop} [DecidableRel r] [Std.Total r]
    [IsTrans α r] {p : α → Bool} {l : List α} {a : α}
    (h : (l.insertionSort r).find? p = some a) :
    a ∈ l ∧ p a = true ∧ ∀ b ∈ l, p b = true → r a b := by
  obtain ⟨hp, before, after, hsplit, hbefore⟩ := List.find?_eq_some_iff_append.mp h
  have hsorted := List.pairwise_insertionSort r l
  have hmem : ∀ b, b ∈ l ↔ b ∈ before ++ a :: after := fun b => by
    rw [← hsplit, List.mem_insertionSort]
  rw [hsplit, List.pairwise_append, List.pairwise_cons] at hsorted
  refine ⟨(hmem a).mpr (by simp), hp, fun b hb hpb => ?_⟩
  rcases List.mem_append.mp ((hmem b).mp hb) with hb | hb
  · have hnot := hbefore b hb
    rw [hpb] at hnot
    cases hnot
  · rcases List.mem_cons.mp hb with rfl | hb
    · exact (Std.Total.total b b).elim id id
    · exact hsorted.2.1.1 b hb

namespace StageRunRecord

instance : Std.Total fun a b => completedLE a b = true where
  total a b := by
    unfold completedLE
    cases a.2.completedAt <;> cases b.2.completedAt <;>
      simp only [Bool.or_eq_true, Bool.and_eq_true, decide_eq_true_eq] <;> first | omega | simp

instance : IsTrans (ℕ × StageRunRecord) fun a b => completedLE a b = true where
  trans a b c := by
    unfold completedLE
    cases a.2.completedAt <;> cases b.2.completedAt <;> cases c.2.completedAt <;>
      simp only [Bool.or_eq_true, Bool.and_eq_true, decide_eq_true_eq] <;> first | omega | simp

/-- Stage runs of one place in the order have one id. -/
theorem id_eq_of_completedLE {a b : ℕ × StageRunRecord} (hab : completedLE a b = true)
    (hba : completedLE b a = true) : a.1 = b.1 := by
  unfold completedLE at hab hba
  cases ha : a.2.completedAt <;> cases hb : b.2.completedAt <;>
    simp only [ha, hb, Bool.or_eq_true, Bool.and_eq_true, decide_eq_true_eq] at hab hba <;>
      first | omega | simp at hab hba

/-- The stage run that failed first. -/
def firstFailure (rows : Dict ℕ StageRunRecord) : Option (ℕ × StageRunRecord) :=
  (ordered rows).find? (·.2.status = .failed)

/-- The error a run gets from a stage run. -/
def error (row : StageRunRecord) : String × String :=
  (sanitizeErrorCode row.lastErrorCode, sanitizeErrorType row.lastErrorType)

/-- The error of an exhausted lease. -/
def leaseExpired : String × String :=
  ("LEASE_EXPIRED", "WorkerLeaseExpired")

theorem error_exhaust (row : StageRunRecord) (now : ℤ) : (row.exhaust now).error = leaseExpired := by
  show (sanitizeErrorCode (some "LEASE_EXPIRED"), sanitizeErrorType (some "WorkerLeaseExpired")) = _
  decide

theorem of_firstFailure {rows : Dict ℕ StageRunRecord} {e : ℕ × StageRunRecord}
    (h : firstFailure rows = some e) : e ∈ rows ∧ e.2.status = .failed ∧
      ∀ e' ∈ rows, e'.2.status = .failed → completedLE e e' = true := by
  obtain ⟨hmem, hfailed, hfirst⟩ := find?_insertionSort h
  exact ⟨hmem, of_decide_eq_true hfailed, fun e' hmem' hfailed' =>
    hfirst e' hmem' (decide_eq_true hfailed')⟩

theorem firstFailure_eq_none {rows : Dict ℕ StageRunRecord} :
    firstFailure rows = none ↔ ∀ e ∈ rows, e.2.status ≠ .failed := by
  rw [firstFailure, List.find?_eq_none]
  simp only [ordered, List.mem_insertionSort, decide_eq_true_eq, ne_eq]

/-- Whether the error of an exhausted lease is that of the first failure of a run: no stage
run failed earlier, or the first one has the same error. -/
def exhaustsFirst (rows : Dict ℕ StageRunRecord) (stageRunId : ℕ) (row : StageRunRecord)
    (now : ℤ) : Bool :=
  (firstFailure rows).all fun e =>
    completedLE (stageRunId, row.exhaust now) e || e.2.error = leaseExpired

/-- The first failure has the error of an exhausted lease exactly under `exhaustsFirst`. -/
theorem firstFailure_exhaust {rows : Dict ℕ StageRunRecord} (hrows : rows.keys.Nodup)
    {stageRunId : ℕ} {row : StageRunRecord} (hrow : (stageRunId, row) ∈ rows)
    (hactive : row.status.isActive = true) (now : ℤ) :
    ∃ e, firstFailure (rows.set stageRunId (row.exhaust now)) = some e ∧
      (e.2.error = leaseExpired ↔ exhaustsFirst rows stageRunId row now = true) := by
  have hmem : ∀ e, e ∈ rows.set stageRunId (row.exhaust now) ↔
      e = (stageRunId, row.exhaust now) ∨ (e ∈ rows ∧ e.1 ≠ stageRunId) :=
    fun e => Dict.mem_set_iff hrows
  have hother : ∀ e ∈ rows, e.2.status = .failed → e.1 ≠ stageRunId := by
    intro e he hfailed hid
    obtain rfl := List.inj_on_of_nodup_map hrows he hrow hid
    rw [hfailed] at hactive
    cases hactive
  cases hfirst' : firstFailure (rows.set stageRunId (row.exhaust now)) with
  | none => exact absurd rfl (firstFailure_eq_none.mp hfirst' _ ((hmem _).mpr (.inl rfl)))
  | some e' =>
    obtain ⟨hmem', hfailed', hleast'⟩ := of_firstFailure hfirst'
    refine ⟨e', rfl, ?_⟩
    unfold exhaustsFirst
    cases hfirst : firstFailure rows with
    | none =>
      rcases (hmem e').mp hmem' with rfl | ⟨hold, -⟩
      · simp [error_exhaust]
      · exact absurd hfailed' (firstFailure_eq_none.mp hfirst e' hold)
    | some e =>
      obtain ⟨hmemFirst, hfailed, hleast⟩ := of_firstFailure hfirst
      have hid := hother e hmemFirst hfailed
      have hle := hleast' e ((hmem e).mpr (.inr ⟨hmemFirst, hid⟩)) hfailed
      rcases (hmem e').mp hmem' with rfl | ⟨hold, hid'⟩
      · simp [error_exhaust, hle]
      · obtain rfl := List.inj_on_of_nodup_map hrows hold hmemFirst
          (id_eq_of_completedLE hle (hleast e' hold hfailed'))
        have hbefore : completedLE (stageRunId, row.exhaust now) e' = false := by
          rw [← Bool.not_eq_true]
          exact fun h => hid (id_eq_of_completedLE (hleast' _ ((hmem _).mpr (.inl rfl)) rfl) h)
        simp [hbefore]

end StageRunRecord

/-! ## The aggregate of a run -/

namespace AnalysisRunRecord

/-- What the stage runs of a run decide. -/
def outcome (run : AnalysisRunRecord) : AnalysisRunStatus × Option String × Option String :=
  (run.status, run.lastErrorCode, run.lastErrorType)

theorem outcome_complete_of_failure (run : AnalysisRunRecord) {stages : List StageRunRecord}
    {failure : StageRunRecord} (hended : stages.any (·.status.isActive) = false)
    (hfailure : stages.find? (·.status = .failed) = some failure) (now : ℤ) :
    (run.complete stages now).outcome =
      (.failed, some failure.error.1, some failure.error.2) := by
  simp [complete, outcome, StageRunRecord.error, hended, hfailure]

theorem outcome_complete_of_success (run : AnalysisRunRecord) {stages : List StageRunRecord}
    (hended : stages.any (·.status.isActive) = false)
    (hfailure : stages.find? (·.status = .failed) = none) (now : ℤ) :
    (run.complete stages now).outcome =
      (if run.status = .blockedNegativeGate || stages.any (·.status = .skippedNegativeGate) then
        .blockedNegativeGate else .completed, none, none) := by
  unfold complete outcome
  dsimp only
  rw [hended, hfailure, if_neg Bool.false_ne_true]
  dsimp only
  split_ifs <;> rfl

theorem isTerminal_complete (run : AnalysisRunRecord) {stages : List StageRunRecord}
    (hended : stages.any (·.status.isActive) = false) (now : ℤ) :
    (run.complete stages now).status.isTerminal = true := by
  unfold complete
  dsimp only
  rw [hended, if_neg Bool.false_ne_true]
  split
  · rfl
  · split_ifs <;> rfl

/-- Completing a run twice is completing it once. -/
theorem outcome_complete_complete (run : AnalysisRunRecord) (stages : List StageRunRecord)
    (now now' : ℤ) :
    ((run.complete stages now).complete stages now').outcome =
      (run.complete stages now).outcome := by
  cases hactive : stages.any (·.status.isActive) with
  | true => simp [complete, outcome, hactive]
  | false =>
    cases hfailure : stages.find? (·.status = .failed) with
    | some failure =>
      rw [outcome_complete_of_failure _ hactive hfailure,
        outcome_complete_of_failure _ hactive hfailure]
    | none =>
      have hsuccess := outcome_complete_of_success run hactive hfailure now
      have hstatus := congrArg Prod.fst hsuccess
      rw [outcome_complete_of_success _ hactive hfailure, hsuccess]
      dsimp only [outcome] at hstatus
      rw [hstatus]
      cases decide (run.status = .blockedNegativeGate) <;>
        cases stages.any (·.status = .skippedNegativeGate) <;> rfl

end AnalysisRunRecord

namespace AnalysisTables

/-- No stage run of a run is active. -/
def Ended (t : AnalysisTables) (analysisRunId : ℕ) : Prop :=
  ∀ e ∈ t.stagesOf analysisRunId, e.2.status.isActive = false

/-- A run has the status and the error that `complete_analysis_run` computes. -/
def Aggregated (t : AnalysisTables) (analysisRunId : ℕ) : Prop :=
  ∀ run, t.runs.lookup analysisRunId = some run → ∀ now,
    (run.complete (t.orderedStages analysisRunId) now).outcome = run.outcome

/-- A run and its stage runs are as they were. -/
def SameRun (t t' : AnalysisTables) (analysisRunId : ℕ) : Prop :=
  t'.runs.lookup analysisRunId = t.runs.lookup analysisRunId ∧
    t'.stagesOf analysisRunId = t.stagesOf analysisRunId

variable {t t' : AnalysisTables} {report : Option Report} {analysisRunId : ℕ}

theorem SameRun.ended (h : SameRun t t' analysisRunId) :
    t'.Ended analysisRunId ↔ t.Ended analysisRunId := by
  rw [Ended, Ended, h.2]

theorem SameRun.aggregated (h : SameRun t t' analysisRunId) :
    t'.Aggregated analysisRunId ↔ t.Aggregated analysisRunId := by
  rw [Aggregated, Aggregated, orderedStages, orderedStages, h.1, h.2]

theorem ended_iff_any : t.Ended analysisRunId ↔
    (t.orderedStages analysisRunId).any (·.status.isActive) = false := by
  rw [orderedStages, List.any_map, List.any_eq_false]
  simp only [StageRunRecord.ordered, List.mem_insertionSort, Function.comp, Bool.not_eq_true]
  rfl

theorem find_orderedStages : (t.orderedStages analysisRunId).find? (·.status = .failed) =
    (StageRunRecord.firstFailure (t.stagesOf analysisRunId)).map Prod.snd := by
  rw [orderedStages, List.find?_map]
  rfl

/-- An ended run that has its aggregate is over. -/
theorem isTerminal_of_aggregated (hended : t.Ended analysisRunId)
    (haggregated : t.Aggregated analysisRunId) {run : AnalysisRunRecord}
    (hrun : t.runs.lookup analysisRunId = some run) : run.status.isTerminal = true := by
  have hterminal := run.isTerminal_complete (ended_iff_any.mp hended) 0
  rwa [show (run.complete (t.orderedStages analysisRunId) 0).status = run.status from
    congrArg Prod.fst (haggregated run hrun 0)] at hterminal

/-! ## What a transaction does to a run -/

/-- A stage run that changes is none of another run. -/
theorem stagesOf_other {id : ℕ} {row row' : StageRunRecord}
    (hrow : t.stageRuns.lookup id = some row) (hne : row.analysisRunId ≠ analysisRunId)
    (ht' : t'.stageRuns = t.stageRuns.set id row')
    (hrun : row'.analysisRunId = row.analysisRunId) :
    t'.stagesOf analysisRunId = t.stagesOf analysisRunId := by
  unfold stagesOf
  rw [ht']
  refine Dict.filter_set (decide_eq_false (hrun ▸ hne)) fun w hw => ?_
  obtain rfl := Option.some.inj (hrow.symm.trans hw)
  exact decide_eq_false hne

theorem mem_stagesOf_own {id : ℕ} {row' : StageRunRecord}
    (ht' : t'.stageRuns = t.stageRuns.set id row') (hrun : row'.analysisRunId = analysisRunId) :
    (id, row') ∈ t'.stagesOf analysisRunId := by
  unfold stagesOf
  rw [ht']
  exact List.mem_filter.mpr ⟨Dict.mem_of_lookup (Dict.lookup_set_self ..), decide_eq_true hrun⟩

theorem stagesOf_gated {runId : ℕ} (hne : analysisRunId ≠ runId) (run : AnalysisRunRecord)
    (causal : Dict ℕ NegativeGateAssignment) (now : ℤ) :
    (t.gated runId run causal now).stagesOf analysisRunId = t.stagesOf analysisRunId := by
  unfold stagesOf
  dsimp only [AnalysisTables.gated]
  have hsame : ∀ e : ℕ × StageRunRecord, e.2.analysisRunId = analysisRunId →
      gateSkips runId causal e.2 = false := by
    intro e he
    rw [gateSkips, decide_eq_false (he ▸ hne), Bool.false_and, Bool.false_and]
  have hkept : (fun e : ℕ × StageRunRecord => decide (e.2.analysisRunId = analysisRunId)) ∘
      (fun e : ℕ × StageRunRecord =>
        (e.1, if gateSkips runId causal e.2 then e.2.skip now else e.2)) =
          fun e : ℕ × StageRunRecord => decide (e.2.analysisRunId = analysisRunId) := by
    funext e
    dsimp only [Function.comp]
    split_ifs <;> rfl
  rw [Dict.mapValues, List.filter_map, hkept]
  conv_rhs => rw [← List.map_id (t.stageRuns.filter _)]
  refine List.map_congr_left fun e he => ?_
  rw [hsame e (of_decide_eq_true (List.mem_filter.mp he).2)]
  rfl

/-- Whether a call ended a stage run of a run, or applied the gate to it. -/
def EndsStage (t : AnalysisTables) (report : Option Report) (analysisRunId : ℕ) : Prop :=
  report = some (.gated analysisRunId) ∨
    ∃ id row, t.stageRuns.lookup id = some row ∧ row.analysisRunId = analysisRunId ∧
      (report = some (.failed id) ∨ ∃ leaseToken mode source negative,
        report = some (.committed id leaseToken mode source negative))

theorem aggregated_complete {run : AnalysisRunRecord} {now : ℤ}
    (hruns : t'.runs =
      t.runs.set analysisRunId (run.complete (t.orderedStages analysisRunId) now))
    (hstages : t'.stageRuns = t.stageRuns) : t'.Aggregated analysisRunId := by
  intro run' hrun' now'
  rw [hruns] at hrun'
  obtain rfl := Option.some.inj ((Dict.lookup_set_self ..).symm.trans hrun')
  have hsame : t'.orderedStages analysisRunId = t.orderedStages analysisRunId := by
    rw [orderedStages, orderedStages, stagesOf, stagesOf, hstages]
  rw [hsame]
  exact AnalysisRunRecord.outcome_complete_complete _ _ _ _

/-- A call that leaves no stage run of a run active left the run as it was, gave it its
aggregate, or ended a stage run or applied the gate. -/
theorem Effect.run_cases (he : Effect t report t')
    (hexhausted : ∀ id, report ≠ some (.exhausted id)) (hended : t'.Ended analysisRunId) :
    t.SameRun t' analysisRunId ∨ t'.Aggregated analysisRunId ∨
      t.EndsStage report analysisRunId := by
  cases he with
  | kept => exact .inl ⟨rfl, rfl⟩
  | @leased id row run now leaseDuration hrow =>
    by_cases hid : row.analysisRunId = analysisRunId
    · cases hended _ (mem_stagesOf_own (t := t) rfl hid)
    · exact .inl ⟨Dict.lookup_set_of_ne (Ne.symm hid) _ _, stagesOf_other hrow hid rfl rfl⟩
  | exhausted => exact absurd rfl (hexhausted _)
  | @started id leaseToken row policy cacheKey inferenceCalls hrow =>
    by_cases hid : row.analysisRunId = analysisRunId
    · have hrunning := hended _ (mem_stagesOf_own (t := t) rfl hid)
      rw [StageRunRecord.start, hrow.running] at hrunning
      cases hrunning
    · exact .inl ⟨rfl, stagesOf_other hrow.found hid rfl rfl⟩
  | @committed id leaseToken row mode rows result now hrow =>
    by_cases hid : row.analysisRunId = analysisRunId
    · exact .inr (.inr (.inr ⟨id, row, hrow.found, hid, .inr ⟨_, _, _, _, rfl⟩⟩))
    · exact .inl ⟨rfl, stagesOf_other hrow.found hid rfl rfl⟩
  | @reused id leaseToken sourceId row source mode rows result cacheKey now hrow =>
    by_cases hid : row.analysisRunId = analysisRunId
    · exact .inr (.inr (.inr ⟨id, row, hrow.found, hid, .inr ⟨_, _, _, _, rfl⟩⟩))
    · exact .inl ⟨rfl, stagesOf_other hrow.found hid rfl rfl⟩
  | @failed id leaseToken row code errorType retryable retryAt now hrow =>
    by_cases hid : row.analysisRunId = analysisRunId
    · exact .inr (.inr (.inr ⟨id, row, hrow.found, hid, .inl rfl⟩))
    · unfold retryOrFailRow
      split_ifs <;> exact .inl ⟨rfl, stagesOf_other hrow.found hid rfl rfl⟩
  | @gated runId run causal now hrun =>
    by_cases hid : analysisRunId = runId
    · exact .inr (.inr (.inl (by rw [hid])))
    · exact .inl ⟨Dict.lookup_set_of_ne hid _ _, stagesOf_gated hid run causal now⟩
  | @aggregated runId run now hrun =>
    by_cases hid : analysisRunId = runId
    · subst hid
      exact .inr (.inl (aggregated_complete rfl rfl))
    · exact .inl ⟨Dict.lookup_set_of_ne hid _ _, rfl⟩

/-- A run whose aggregate a call gave it has it. -/
theorem Effect.aggregated_of_completed (he : Effect t (some (.completed analysisRunId)) t') :
    t'.Aggregated analysisRunId := by
  cases he with
  | aggregated now => exact aggregated_complete rfl rfl

/-! ## Exhausted attempts -/

variable {stageRunId : ℕ} {row : StageRunRecord} {run : AnalysisRunRecord}

theorem nodup_stagesOf (hrows : t.stageRuns.keys.Nodup) :
    (t.stagesOf analysisRunId).keys.Nodup :=
  hrows.sublist (List.filter_sublist.map Prod.fst)

theorem terminalizeExhausted_other (hrow : t.stageRuns.lookup stageRunId = some row)
    (hne : row.analysisRunId ≠ analysisRunId) (now : ℤ) :
    t.SameRun (t.terminalizeExhausted stageRunId row run now) analysisRunId :=
  ⟨Dict.lookup_set_of_ne (Ne.symm hne) _ _,
    stagesOf_other hrow hne rfl rfl⟩

/-- A run whose last stage run is exhausted gets its aggregate exactly if no stage run failed
earlier with another error. -/
theorem terminalizeExhausted_aggregated_iff (hrows : t.stageRuns.keys.Nodup)
    (hrow : t.stageRuns.lookup stageRunId = some row) (hactive : row.status.isActive = true)
    {now : ℤ} (hended : (t.terminalizeExhausted stageRunId row run now).Ended row.analysisRunId) :
    (t.terminalizeExhausted stageRunId row run now).Aggregated row.analysisRunId ↔
      StageRunRecord.exhaustsFirst (t.stagesOf row.analysisRunId) stageRunId row now = true := by
  have hstages : (t.terminalizeExhausted stageRunId row run now).stagesOf row.analysisRunId =
      Dict.set stageRunId (row.exhaust now) (t.stagesOf row.analysisRunId) := by
    refine Dict.filter_set_of_kept (decide_eq_true rfl) fun w hw => decide_eq_true ?_
    obtain rfl := Option.some.inj (hrow.symm.trans (Dict.lookup_of_mem hrows hw))
    rfl
  have hmem : (stageRunId, row) ∈ t.stagesOf row.analysisRunId :=
    List.mem_filter.mpr ⟨Dict.mem_of_lookup hrow, decide_eq_true rfl⟩
  obtain ⟨e, hfirst, hiff⟩ := StageRunRecord.firstFailure_exhaust (nodup_stagesOf hrows) hmem
    hactive now
  rw [← hiff]
  have hany := ended_iff_any.mp hended
  have hfind : ((t.terminalizeExhausted stageRunId row run now).orderedStages
      row.analysisRunId).find? (·.status = .failed) = some e.2 := by
    rw [find_orderedStages, hstages, hfirst]
    rfl
  have hinactive : ((t.terminalizeExhausted stageRunId row run now).stagesOf
      row.analysisRunId).any (·.2.status.isActive) = false :=
    List.any_eq_false.mpr fun e he => by simp [hended e he]
  have hlookup : (t.terminalizeExhausted stageRunId row run now).runs.lookup row.analysisRunId =
      some (run.exhausted false now) := by
    rw [← hinactive]
    exact Dict.lookup_set_self ..
  constructor
  · intro h
    have houtcome := h _ hlookup now
    rw [AnalysisRunRecord.outcome_complete_of_failure _ hany hfind] at houtcome
    obtain ⟨-, herror⟩ := Prod.mk.inj houtcome
    obtain ⟨hcode, htype⟩ := Prod.mk.inj herror
    exact Prod.ext (Option.some.inj hcode) (Option.some.inj htype)
  · intro herror run' hrun' now'
    obtain rfl := Option.some.inj (hlookup.symm.trans hrun')
    rw [AnalysisRunRecord.outcome_complete_of_failure _ hany hfind, herror]
    rfl

end AnalysisTables

namespace AnalysisWorker

open AnalysisTables

/-! ## Runs that are left to workers -/

/-- A worker is to complete a run. -/
def Completes (s : State) (name : ℕ) (analysisRunId : ℕ) : Prop :=
  ∃ w, s.work name = some w ∧ w.settles = true ∧ w.claim.analysisRunId = analysisRunId

/-- Each ended run has its aggregate, or is left to a live worker. -/
def RunsCovered (s : State) : Prop :=
  Owed.Covered (fun s id => s.tables.Ended id) (fun s id => s.tables.Aggregated id) Completes s

/-- What keeps runs covered: no worker stops with an ended run that does not have its aggregate
and that no other worker is to complete, and attempts that are exhausted end a run only if no
stage run of it failed earlier with another error. -/
structure RunsShared (s : State) (a : Action) : Prop where
  stops : ∀ name, a = .crash name →
    Owed.Shared (fun s id => s.tables.Ended id) (fun s id => s.tables.Aggregated id) Completes
      s name
  exhausts : ∀ name id now leaseDuration row run, a = .process name id now leaseDuration →
    s.tables.stageRuns.lookup id = some row → row.due now = true →
      s.tables.runs.lookup row.analysisRunId = some run → run.status.isTerminal = false →
        row.maxAttempts ≤ row.attemptCount →
          (∀ e ∈ s.tables.stagesOf row.analysisRunId, e.1 ≠ id → e.2.status.isActive = false) →
            StageRunRecord.exhaustsFirst (s.tables.stagesOf row.analysisRunId) id row now = true

variable {s s' : State} {a : Action}

theorem completes_congr {name analysisRunId : ℕ} (hwork : s'.work name = s.work name) :
    Completes s' name analysisRunId ↔ Completes s name analysisRunId := by
  unfold Completes
  rw [hwork]

/-- A claim leaves an ended run as it was, or gives it its aggregate. -/
theorem claim_run (h : Inv s) {name id : ℕ} {now leaseDuration : ℤ}
    (hshared : RunsShared s (.process name id now leaseDuration)) {analysisRunId : ℕ}
    (hended : (s.tables.claim id now leaseDuration).1.Ended analysisRunId) :
    s.tables.SameRun (s.tables.claim id now leaseDuration).1 analysisRunId ∨
      (s.tables.claim id now leaseDuration).1.Aggregated analysisRunId := by
  rcases claim_cases s.tables id now leaseDuration with
    hclaim | ⟨row, run, hrow, hdue, hrun, hopen, ⟨hexhausted, hclaim⟩ | ⟨hlt, hclaim⟩⟩
  · rw [hclaim]
    exact .inl ⟨rfl, rfl⟩
  · rw [hclaim] at hended ⊢
    by_cases hid : row.analysisRunId = analysisRunId
    · subst hid
      refine .inr ((terminalizeExhausted_aggregated_iff h.tables.rows hrow
        (StageRunRecord.isActive_of_due hdue) hended).mpr ?_)
      refine hshared.exhausts name id now leaseDuration row run rfl hrow hdue hrun hopen
        hexhausted fun e he hne => hended e ?_
      obtain ⟨he, hrunId⟩ := List.mem_filter.mp he
      exact List.mem_filter.mpr
        ⟨(Dict.mem_set_iff h.tables.rows).mpr (.inr ⟨he, hne⟩), hrunId⟩
    · exact .inl (terminalizeExhausted_other hrow hid now)
  · rw [hclaim] at hended ⊢
    by_cases hid : row.analysisRunId = analysisRunId
    · cases hended _ (mem_stagesOf_own (t := s.tables) rfl hid)
    · exact .inl ⟨Dict.lookup_set_of_ne (Ne.symm hid) _ _, stagesOf_other hrow hid rfl rfl⟩

/-- An action of a name without a worker is a claim, or stops nobody. -/
theorem claims_of_idle (hidle : s.work a.name = none) (hstep : step s a = some s') :
    s'.tables = s.tables ∨ ∃ id now leaseDuration,
      a = .process a.name id now leaseDuration ∧
        s'.tables = (s.tables.claim id now leaseDuration).1 := by
  have hlookup : s.workers.lookup a.name = none := Option.map_eq_none_iff.mp hidle
  cases a with
  | process name id now leaseDuration =>
    dsimp only [step] at hstep
    split_ifs at hstep
    obtain rfl := Option.some.inj hstep
    exact .inr ⟨id, now, leaseDuration, rfl, rfl⟩
  | prepare name => simp [step, show s.workers.lookup name = none from hlookup] at hstep
  | answer name => simp [step, show s.workers.lookup name = none from hlookup] at hstep
  | proceed name => simp [step, show s.workers.lookup name = none from hlookup] at hstep
  | crash name =>
    obtain rfl := Option.some.inj hstep
    exact .inl rfl

variable {t t' : AnalysisTables} {o o' : Option Work} {report : Option Report}

/-- A worker that is to complete a run completes it, or still is to. -/
theorem Turn.completes {w : Work} (h : Turn t (some w) report t' o') (hw : w.settles = true) :
    report = some (.completed w.claim.analysisRunId) ∨
      ∃ w', o' = some w' ∧ w'.settles = true ∧ w'.claim = w.claim := by
  cases h with
  | gated => exact .inr ⟨_, rfl, rfl, rfl⟩
  | completed => exact .inl rfl
  | went hsettles => cases hsettles.symm.trans hw
  | gaveUp hsettles => cases hsettles.symm.trans hw
  | lost hsettles => cases hsettles.symm.trans hw
  | failed hsettles => cases hsettles.symm.trans hw
  | committed hsettles => cases hsettles.symm.trans hw

theorem claim_finish (snapshot : AnalysisStageSnapshot) (committed : AnalysisCommitResult) :
    (finish snapshot committed).claim = snapshot.claim := by
  unfold finish
  split_ifs <;> rfl

/-- A worker that ended a stage run, or applied the gate, is to complete the run. -/
theorem Turn.owes {analysisRunId : ℕ} (h : Turn t o report t' o')
    (hsound : ∀ w, o = some w → w.Sound t) (hends : t.EndsStage report analysisRunId) :
    ∃ w', o' = some w' ∧ w'.settles = true ∧ w'.claim.analysisRunId = analysisRunId := by
  rcases hends with rfl | ⟨id, row, hrow, rfl, rfl | ⟨leaseToken, mode, source, negative, rfl⟩⟩
  · cases h with
    | refused hreport => simp at hreport
    | gated => exact ⟨_, rfl, rfl, rfl⟩
  · cases h with
    | refused hreport => simp at hreport
    | @failed w =>
      obtain ⟨row', hrow', hrun⟩ := (hsound w rfl).claim.row
      obtain rfl := Option.some.inj (hrow.symm.trans hrow')
      exact ⟨_, rfl, rfl, hrun.symm⟩
  · cases h with
    | refused hreport => simp at hreport
    | @committed w snapshot _ _ committed _ hsettles hsnapshot hclaim =>
      obtain ⟨row', hrow', hrun⟩ := (hsound w rfl).claim.row
      rw [hclaim] at hrow' hrun
      obtain rfl := Option.some.inj (hrow.symm.trans hrow')
      exact ⟨_, rfl, settles_finish snapshot committed, (claim_finish snapshot committed) ▸ hrun.symm⟩

theorem Turn.not_exhausted {w : Work} (h : Turn t (some w) report t' o') (id : ℕ) :
    report ≠ some (.exhausted id) := by
  rintro rfl
  cases h

/-- What a step does to the runs that are ended after it. -/
theorem step_runs (h : Inv s) (hshared : RunsShared s a) (hstep : step s a = some s')
    (hturn : ∃ report, Effect s.tables report s'.tables ∧
      Turn s.tables (s.work a.name) report s'.tables (s'.work a.name)) {analysisRunId : ℕ}
    (hended : s'.tables.Ended analysisRunId) :
    (s.tables.SameRun s'.tables analysisRunId ∨ s'.tables.Aggregated analysisRunId ∨
      Completes s' a.name analysisRunId) ∧
        (Completes s a.name analysisRunId →
          s'.tables.Aggregated analysisRunId ∨ Completes s' a.name analysisRunId) := by
  obtain ⟨report, he, hturn⟩ := hturn
  cases hwork : s.work a.name with
  | none =>
    refine ⟨?_, ?_⟩
    · rcases claims_of_idle hwork hstep with htables | ⟨id, now, leaseDuration, ha, htables⟩
      · rw [htables]
        exact .inl ⟨rfl, rfl⟩
      · rw [htables] at hended ⊢
        rw [ha] at hshared
        exact (claim_run h hshared hended).imp_right .inl
    · rintro ⟨w, hw, -⟩
      rw [hwork] at hw
      cases hw
  | some w =>
    rw [hwork] at hturn
    have hsound : ∀ w', some w = some w' → w'.Sound s.tables := fun w' hw' =>
      sound_of_work h (hwork.trans hw')
    refine ⟨?_, ?_⟩
    · rcases he.run_cases hturn.not_exhausted hended with hsame | haggregated | hends
      · exact .inl hsame
      · exact .inr (.inl haggregated)
      · exact .inr (.inr (hturn.owes hsound hends))
    · rintro ⟨w', hw', hsettles, rfl⟩
      obtain rfl := Option.some.inj (hwork.symm.trans hw')
      rcases hturn.completes hsettles with rfl | ⟨w', hw', hsettles', hclaim⟩
      · exact .inl he.aggregated_of_completed
      · exact .inr ⟨w', hw', hsettles', by rw [hclaim]⟩

/-- A step keeps runs covered. -/
theorem runsCovered_step (h : Inv s) (hcovered : RunsCovered s) (hshared : RunsShared s a)
    (hstep : step s a = some s') : RunsCovered s' := by
  obtain ⟨hothers, hturn⟩ := step_cases h hstep
  have hcompletes : ∀ m id, m ≠ a.name → (Completes s' m id ↔ Completes s m id) :=
    fun m id hm => completes_congr (hothers m hm)
  rcases hturn with ⟨hcrash, htables, hnone⟩ | hturn
  · refine (Owed.Covered.stops_iff hcovered hcompletes ?_ fun id => ?_).mpr
      (hshared.stops _ hcrash)
    · rintro id ⟨w, hw, -⟩
      rw [hnone] at hw
      cases hw
    · rw [htables]
      exact ⟨Iff.rfl, Iff.rfl⟩
  · refine Owed.Covered.acts hcovered ⟨fun m id hm => (hcompletes m id hm).mpr, ?_, ?_⟩
    · intro id hended' hended hleft
      obtain ⟨hrun, howed⟩ := step_runs h hshared hstep hturn hended'
      rcases hleft with haggregated | hcompletes
      · rcases hrun with hsame | hrun
        · exact .inl (hsame.aggregated.mpr haggregated)
        · exact hrun
      · exact howed hcompletes
    · intro id hended' hnot
      rcases (step_runs h hshared hstep hturn hended').1 with hsame | hrun
      · exact absurd (hsame.ended.mp hended') hnot
      · exact hrun

/-! ## Runs of the workers -/

/-- Along a run in which no worker stops with an ended run that it alone has to complete, and
no exhausted attempts end a run after another failure, each run whose stage runs are all
terminal is over, with the status and the error that `complete_analysis_run` computes, in every
state in which no live worker is to complete a run. -/
theorem run_aggregated {s₀ s : State} {actions : List Action} (h₀ : Start s₀)
    (hruns : ∀ id, s₀.tables.Ended id → s₀.tables.Aggregated id)
    (halong : Runs.Along step RunsShared s₀ actions) (hrun : Runs.run step s₀ actions = some s)
    (hquiet : ∀ name w, s.work name = some w → w.settles = false) {id : ℕ}
    (hended : s.tables.Ended id) :
    s.tables.Aggregated id ∧
      ∀ run, s.tables.runs.lookup id = some run → run.status.isTerminal = true := by
  obtain ⟨-, hcovered⟩ := Runs.run_invariant (I := fun s => Inv s ∧ RunsCovered s)
    (fun _ _ _ h hshared hstep => ⟨h.1.step hstep, runsCovered_step h.1 h.2 hshared hstep⟩)
    ⟨inv_of_start h₀, fun id hid => .inl (hruns id hid)⟩ halong hrun
  have haggregated := Owed.Covered.done_of_quiet hcovered hended
    fun name ⟨w, hw, hsettles, _⟩ => by cases (hquiet name w hw).symm.trans hsettles
  exact ⟨haggregated, fun run hrun => isTerminal_of_aggregated hended haggregated hrun⟩

/-- Whether an action stops no worker that is to complete a run, and claims no stage run whose
attempts are exhausted. -/
def Action.plain (s : State) : Action → Bool
  | crash name => (s.work name).all (!·.settles)
  | process _ id _ _ =>
    (s.tables.stageRuns.lookup id).all fun row => row.attemptCount < row.maxAttempts
  | _ => true

theorem runsShared_of_plain (h : a.plain s = true) : RunsShared s a where
  stops := by
    rintro name rfl id - ⟨w, hw, hsettles, -⟩
    rw [Action.plain, hw, Option.all_some, hsettles] at h
    cases h
  exhausts := by
    rintro name id now leaseDuration row run rfl hrow - - - hle -
    rw [Action.plain, hrow, Option.all_some, decide_eq_true_eq] at h
    omega

/-- One formal run of two stage runs for one message, with one attempt each. -/
def twoStages : State where
  tables :=
    { runs := [(1, ⟨.formal, .pending, none, none, none, none⟩)]
      stageVersions := [(3, ⟨.none, ⟨5, 300⟩⟩)]
      stageRuns := [(4, plannedStageRun 1 3 6 1), (5, plannedStageRun 1 3 6 1)]
      messages := [(6, ⟨false, none, none, none⟩)]
      assignments := []
      inferenceCalls := []
      wakeups := []
      nextId := 10 }

/-- A worker takes a stage run, finds no input for it and completes the run. -/
def noInput (name stageRunId : ℕ) : List Action :=
  [.process name stageRunId 0 60,
    .prepare name (.inputError "MEDIA_UNAVAILABLE" "AnalysisInputError"), .proceed name,
    .proceed name]

theorem run_aggregated_two_failures :
    ∃ s, Runs.run step twoStages (noInput 0 4 ++ noInput 1 5) = some s ∧
      s.tables.Aggregated 1 := by
  have hstart : Start twoStages :=
    { workers := rfl
      rows := (show [4, 5].Nodup by decide)
      assignments := rfl
      results := by
        intro id row hrow
        rcases List.mem_pair.mp (Dict.mem_of_lookup hrow) with h | h <;>
          obtain ⟨-, rfl⟩ := Prod.mk.inj h <;> exact nofun
      message := by
        intro id row hrow
        rcases List.mem_pair.mp (Dict.mem_of_lookup hrow) with h | h <;>
          obtain ⟨-, rfl⟩ := Prod.mk.inj h <;> rfl }
  have halong : Runs.Along step RunsShared twoStages (noInput 0 4 ++ noInput 1 5) :=
    Runs.along_of_checks (fun _ _ => runsShared_of_plain) rfl
  have hfinal : (Runs.run step twoStages (noInput 0 4 ++ noInput 1 5)).any (fun s =>
      s.workers.isEmpty && !(s.tables.orderedStages 1).any (·.status.isActive)) = true := by
    decide +kernel
  obtain ⟨s, hrun, hs⟩ := (Option.any_eq_true _ _).mp hfinal
  rw [Bool.and_eq_true, List.isEmpty_iff, Bool.not_eq_true'] at hs
  refine ⟨s, hrun, (run_aggregated hstart ?_ halong hrun ?_ (ended_iff_any.mpr hs.2)).1⟩
  · intro id hended run hrun
    obtain ⟨rfl, -⟩ := Prod.mk.inj (List.mem_singleton.mp (Dict.mem_of_lookup hrun))
    cases hended (4, plannedStageRun 1 3 6 1) (List.mem_cons_self ..)
  · intro name w hw
    rw [State.work, hs.1] at hw
    cases hw

/-- A worker that stops between its commit and `complete_analysis_run` leaves the run running
for good; and the run of a stage run whose attempts are exhausted gets the error of that stage
run, although another one failed first. -/
theorem run_without_aggregate :
    (∃ s run, Runs.run step (twoRuns .test) (commitNegative 0 4 0 ++ [.crash 0]) = some s ∧
      s.workers = [] ∧ s.tables.Ended 1 ∧ s.tables.runs.lookup 1 = some run ∧
        run.status = .running ∧ ¬ s.tables.Aggregated 1) ∧
    ∃ s run, Runs.run step twoStages
        (noInput 0 4 ++ [.process 1 5 0 60, .crash 1, .process 2 5 90 60]) = some s ∧
      s.workers = [] ∧ s.tables.Ended 1 ∧ s.tables.runs.lookup 1 = some run ∧
        run.lastErrorCode = some "LEASE_EXPIRED" ∧
          (run.complete (s.tables.orderedStages 1) 90).lastErrorCode =
            some "MEDIA_UNAVAILABLE" ∧ ¬ s.tables.Aggregated 1 := by
  refine ⟨⟨_, _, rfl, rfl, ended_iff_any.mpr rfl, rfl, rfl, fun h => ?_⟩,
    _, _, rfl, rfl, ended_iff_any.mpr rfl, rfl, ?_, ?_, fun h => ?_⟩
  · cases congrArg Prod.fst (h _ rfl 0)
  · decide +kernel
  · decide +kernel
  · exact absurd (congrArg (·.2.1) (h _ rfl 90)) (by decide +kernel)

end AnalysisWorker

end TgCurator
