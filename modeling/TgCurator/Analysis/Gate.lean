import TgCurator.Analysis.Worker
import TgCurator.Owed

/-!
# The negative gate across crashes

A worker commits an activated negative label in one transaction and applies the gate in the
next. Until then the gate is left to the worker (`Carries`), and if it stops there no other
call applies it. So a gate is applied, or left to a live worker, along every run in which no
worker stops with a gate that it alone has to apply (`GateShared`), by the rules for work that
is left to someone. `worker_stops_before_gate` is a run that stops one there.
-/

namespace TgCurator

namespace AnalysisTables

/-- The negative gate was applied to a message of a run: the message is blocked, and no stage
run of the run for it is active. -/
structure Gated (t : AnalysisTables) (analysisRunId messageId : ℕ) : Prop where
  blocked : ∃ message, t.messages.lookup messageId = some message ∧
    message.blockedFromAnalysis = true
  ended : ∀ id row, t.stageRuns.lookup id = some row → row.analysisRunId = analysisRunId →
    row.messageId = messageId → row.status.isActive = false

/-- An activated negative assignment of a run for a message. -/
def Gates (t : AnalysisTables) (e : ℕ × ℕ) : Prop :=
  ∃ a ∈ t.assignments, a.2.gates = true ∧ a.2.analysisRunId = e.1 ∧ a.2.messageId = e.2

/-- Each activated negative assignment of a succeeded stage run of a formal run was applied. -/
def GateApplied (t : AnalysisTables) : Prop :=
  ∀ id row run a, t.stageRuns.lookup id = some row → row.status = .succeeded →
    t.runs.lookup row.analysisRunId = some run → run.runMode ≠ .test →
      a ∈ t.assignments → a.2.stageRunId = id → a.2.gates = true →
        t.Gated row.analysisRunId row.messageId

variable {t t' : AnalysisTables} {report : Option Report} {analysisRunId messageId : ℕ}

/-- A gate that was applied stays applied. -/
theorem Gated.effect (h : t.Gated analysisRunId messageId) (he : Effect t report t') :
    t'.Gated analysisRunId messageId where
  blocked := by
    obtain ⟨message, hmessage, hblocked⟩ := h.blocked
    exact ⟨message, (he.messagesKept messageId).2 message hmessage hblocked, hblocked⟩
  ended := by
    intro id row' hrow' hrun hmessage
    have hwork := he.rowsKept.work id
    rw [hrow', Option.map_some] at hwork
    obtain ⟨row, hrow, hwork⟩ := Option.map_eq_some_iff.mp hwork.symm
    have hended := h.ended id row hrow ((congrArg (·.1) hwork).trans hrun)
      ((congrArg (·.2.2.1) hwork).trans hmessage)
    obtain rfl := Option.some.inj (hrow'.symm.trans (he.rowsKept.inactive hrow hended))
    exact hended

theorem Gates.effect_inv {e : ℕ × ℕ} (h : t'.Gates e) (he : Effect t report t')
    (hnot : ¬ t.Gates e) : ∃ id leaseToken mode source negative requested,
      report = some (.committed id leaseToken mode source negative) ∧ requested ∈ negative ∧
        requested.messageId = e.2 ∧ mode ≠ .test ∧
          ∃ row, t'.stageRuns.lookup id = some row ∧ row.analysisRunId = e.1 := by
  obtain ⟨a, hmem, hgates, hrun, hmessage⟩ := h
  rcases he.assignments with hsame | ⟨id, leaseToken, mode, source, negative, rfl⟩
  · exact absurd ⟨a, hsame ▸ hmem, hgates, hrun, hmessage⟩ hnot
  · obtain ⟨added, hadded⟩ := he.added
    rw [hadded.assignments] at hmem
    rcases List.mem_append.mp hmem with hmem | hmem
    · exact absurd ⟨a, hmem, hgates, hrun, hmessage⟩ hnot
    · obtain ⟨row, hrow, -, hassign⟩ := hadded.row
      obtain ⟨hmode, label, hlabel⟩ := hassign a hmem
      refine ⟨id, leaseToken, mode, source, negative, ⟨a.2.messageId, a.2.stageRunId, a.1⟩, rfl,
        ?_, hmessage, hmode, row, hrow, ?_⟩
      · rw [hadded.negative]
        exact List.mem_map.mpr ⟨a, List.mem_filter.mpr ⟨hmem, hgates⟩, rfl⟩
      · rw [← hrun, hlabel]
        rfl

theorem lookup_causalByMessage {assignments : List NegativeGateAssignment}
    {requested : NegativeGateAssignment} (h : requested ∈ assignments) :
    ∃ cause, (causalByMessage assignments).lookup requested.messageId = some cause := by
  have hmem := AnalysisWorker.mem_keys_causalByMessage.mpr ⟨requested, h, rfl⟩
  cases hlookup : (causalByMessage assignments).lookup requested.messageId with
  | none => exact absurd hmem (Dict.lookup_eq_none.mp hlookup)
  | some cause => exact ⟨cause, rfl⟩

theorem MessageRecord.blocked_block (message : MessageRecord) (cause : NegativeGateAssignment)
    (now : ℤ) : (message.block cause now).blockedFromAnalysis = true := by
  unfold MessageRecord.block
  split_ifs with h
  · exact h
  · rfl

/-- The gate is applied to the messages it is asked for. -/
theorem gated_requested {run : AnalysisRunRecord} {assignments : List NegativeGateAssignment}
    {requested : NegativeGateAssignment} (h : requested ∈ assignments)
    (hmessage : (t.messages.lookup requested.messageId).isSome) (now : ℤ) :
    (t.gated analysisRunId run (causalByMessage assignments) now).Gated analysisRunId
      requested.messageId where
  blocked := by
    obtain ⟨message, hmessage⟩ := Option.isSome_iff_exists.mp hmessage
    obtain ⟨cause, hcause⟩ := lookup_causalByMessage h
    refine ⟨message.block cause now, ?_, MessageRecord.blocked_block message cause now⟩
    dsimp only [AnalysisTables.gated]
    rw [Dict.lookup_mapValues, hmessage, Option.map_some, hcause]
  ended := by
    intro id row' hrow' hrun hrowMessage
    dsimp only [AnalysisTables.gated] at hrow'
    rw [Dict.lookup_mapValues] at hrow'
    obtain ⟨row, hrow, hrow'⟩ := Option.map_eq_some_iff.mp hrow'
    split_ifs at hrow' with hskip
    · rw [← hrow']
      rfl
    · rw [← hrow'] at hrun hrowMessage ⊢
      have hkey : row.messageId ∈ (causalByMessage assignments).keys :=
        AnalysisWorker.mem_keys_causalByMessage.mpr ⟨requested, h, hrowMessage.symm⟩
      rw [gateSkips, decide_eq_true hrun, decide_eq_true hkey, Bool.true_and,
        Bool.not_eq_true] at hskip
      exact hskip

end AnalysisTables

namespace AnalysisWorker

/-! ## Gates that are left to workers -/

/-- A worker is to apply the gate to a message of a run. -/
def Carries (s : State) (name : ℕ) (e : ℕ × ℕ) : Prop :=
  ∃ snapshot assignments requested, s.work name = some (.applyGate snapshot assignments) ∧
    requested ∈ assignments ∧ snapshot.claim.analysisRunId = e.1 ∧ requested.messageId = e.2

/-- Each gate is applied, or left to a live worker. -/
def GatesCovered (s : State) : Prop :=
  Owed.Covered (fun s => s.tables.Gates) (fun s e => s.tables.Gated e.1 e.2) Carries s

/-- No worker stops with a gate that was not applied and no other worker is to apply. -/
def GateShared (s : State) (a : Action) : Prop :=
  ∀ name, a = .crash name →
    Owed.Shared (fun s => s.tables.Gates) (fun s e => s.tables.Gated e.1 e.2) Carries s name

variable {s s' : State} {a : Action}

theorem carries_congr {name : ℕ} {e : ℕ × ℕ} (hwork : s'.work name = s.work name) :
    Carries s' name e ↔ Carries s name e := by
  unfold Carries
  rw [hwork]

theorem message_of_gateCause {t : AnalysisTables} (ht : TablesInv t) {analysisRunId : ℕ}
    {requested : NegativeGateAssignment} (h : (t.gateCause analysisRunId requested).isSome) :
    (t.messages.lookup requested.messageId).isSome := by
  obtain ⟨assignment, hcause⟩ := Option.isSome_iff_exists.mp h
  obtain ⟨hlookup, -, -, hmessage, -⟩ := gateCause_eq_some.mp hcause
  obtain ⟨row, hrow, -, -, hcolumn⟩ := ht.assigned _ (Dict.mem_of_lookup hlookup)
  have hsome := ht.message _ row hrow
  rwa [← hcolumn, hmessage] at hsome

variable {t t' : AnalysisTables} {o o' : Option Work} {report : Option AnalysisTables.Report}

/-- A worker that is to apply the gate applies it. -/
theorem Turn.gates (ht : TablesInv t) {snapshot : AnalysisStageSnapshot}
    {assignments : List NegativeGateAssignment}
    (h : Turn t (some (.applyGate snapshot assignments)) report t' o')
    (hw : (Work.applyGate snapshot assignments).Sound t) {requested : NegativeGateAssignment}
    (hmem : requested ∈ assignments) :
    t'.Gated snapshot.claim.analysisRunId requested.messageId := by
  obtain ⟨-, -, hstored⟩ := hw.gate snapshot assignments rfl
  cases h with
  | gated => exact AnalysisTables.gated_requested hmem (message_of_gateCause ht (hstored _ hmem)) _
  | went hsettles => cases hsettles
  | gaveUp hsettles => cases hsettles
  | lost hsettles => cases hsettles
  | failed hsettles => cases hsettles
  | committed hsettles => cases hsettles

/-- A worker that commits for a formal run is to apply the gate to what it asks for. -/
theorem Turn.carries {id leaseToken : ℕ} {mode : RunMode} {source : Option ℕ}
    {negative : List NegativeGateAssignment}
    (h : Turn t o (some (.committed id leaseToken mode source negative)) t' o')
    (hmode : mode ≠ .test) (hnegative : negative ≠ []) :
    ∃ w snapshot, o = some w ∧ w.claim = snapshot.claim ∧ snapshot.claim.stageRunId = id ∧
      o' = some (.applyGate snapshot negative) := by
  cases h with
  | refused hreport => simp at hreport
  | @committed w snapshot leaseToken source committed _ hw hsnapshot hclaim =>
    refine ⟨w, snapshot, rfl, hclaim, rfl, ?_⟩
    rw [finish, if_pos ⟨hmode, hnegative⟩]

theorem gatesCovered_step (h : Inv s) (hcovered : GatesCovered s) (hshared : GateShared s a)
    (hstep : step s a = some s') : GatesCovered s' := by
  obtain ⟨hothers, hturn⟩ := step_cases h hstep
  have hcarries : ∀ m d, m ≠ a.name → (Carries s' m d ↔ Carries s m d) :=
    fun m d hm => carries_congr (hothers m hm)
  rcases hturn with ⟨hcrash, htables, hnone⟩ | ⟨report, he, hturn⟩
  · refine (Owed.Covered.stops_iff hcovered hcarries ?_ (fun d => ?_)).mpr (hshared _ hcrash)
    · rintro d ⟨snapshot, assignments, requested, hw, -⟩
      rw [hnone] at hw
      cases hw
    · rw [htables]
      exact ⟨Iff.rfl, Iff.rfl⟩
  · refine Owed.Covered.acts hcovered ⟨fun m d hm => (hcarries m d hm).mpr, ?_, ?_⟩
    · rintro d - - (hgated | ⟨snapshot, assignments, requested, hw, hmem, hrun, hmessage⟩)
      · exact .inl (hgated.effect he)
      · rw [hw] at hturn
        rw [← hrun, ← hmessage]
        exact .inl (hturn.gates h.tables (sound_of_work h hw) hmem)
    · intro d hgates hnot
      obtain ⟨id, leaseToken, mode, source, negative, requested, rfl, hmem, hmessage, hmode, row,
        hrow, hrun⟩ := hgates.effect_inv he hnot
      obtain ⟨w, snapshot, hw, hclaim, hid, hleft⟩ := hturn.carries hmode (List.ne_nil_of_mem hmem)
      refine .inr ⟨snapshot, negative, requested, hleft, hmem, ?_, hmessage⟩
      obtain ⟨row', hrow', hrowRun⟩ := ((sound_of_work h hw).claim.later he).row
      rw [hclaim] at hrow' hrowRun
      rw [hid] at hrow'
      obtain rfl := Option.some.inj (hrow.symm.trans hrow')
      exact hrowRun.symm.trans hrun

/-! ## Runs of the workers -/

theorem gatesCovered_of_start (h : Start s) : GatesCovered s := by
  rintro d ⟨a, hmem, -⟩
  rw [h.assignments] at hmem
  cases hmem

theorem gatesCovered_run {s₀ s : State} {actions : List Action} (h₀ : Start s₀)
    (halong : Runs.Along step GateShared s₀ actions) (hrun : Runs.run step s₀ actions = some s) :
    Inv s ∧ GatesCovered s :=
  Runs.run_invariant (I := fun s => Inv s ∧ GatesCovered s)
    (fun _ _ _ h hshared hstep => ⟨h.1.step hstep, gatesCovered_step h.1 h.2 hshared hstep⟩)
    ⟨inv_of_start h₀, gatesCovered_of_start h₀⟩ halong hrun

/-- Along a run in which no worker stops with a gate that it alone has to apply, each
activated negative label of a formal run blocked its message, and ended the stage runs of the
run for it, in every state in which no live worker is between its commit and its gate. -/
theorem gate_applied {s₀ s : State} {actions : List Action} (h₀ : Start s₀)
    (halong : Runs.Along step GateShared s₀ actions) (hrun : Runs.run step s₀ actions = some s)
    (hquiet : ∀ name snapshot assignments,
      s.work name ≠ some (.applyGate snapshot assignments)) : s.tables.GateApplied := by
  obtain ⟨hinv, hcovered⟩ := gatesCovered_run h₀ halong hrun
  intro id row run a hrow hsucceeded hlookup hformal hmem hid hgates
  obtain ⟨row', hrow', -, hrunId, hmessage⟩ := hinv.tables.assigned a hmem
  rw [hid] at hrow'
  obtain rfl := Option.some.inj (hrow.symm.trans hrow')
  refine Owed.Covered.done_of_quiet hcovered (d := (row.analysisRunId, row.messageId))
    ⟨a, hmem, hgates, hrunId, hmessage⟩ ?_
  rintro name ⟨snapshot, assignments, requested, hw, -⟩
  exact hquiet name snapshot assignments hw

/-- Whether a worker stops before it applies the gate. -/
def Action.dropsGate (s : State) : Action → Bool
  | crash name =>
    match s.work name with
    | some (.applyGate _ _) => true
    | _ => false
  | _ => false

theorem gateShared_of_keeps (h : (!a.dropsGate s) = true) : GateShared s a := by
  rintro name rfl d - ⟨snapshot, assignments, requested, hw, -⟩
  rw [Action.dropsGate, hw] at h
  cases h

/-- A worker stops with its claim, and a second worker takes the stage run over, commits an
activated negative label, applies the gate and completes the run. -/
def takenOver : List Action :=
  [.process 0 4 0 60, .crash 0] ++ commitNegative 1 4 100 ++ [.proceed 1, .proceed 1]

theorem gate_applied_taken_over :
    ∃ s, Runs.run step (twoRuns .formal) takenOver = some s ∧ s.tables.GateApplied := by
  have halong : Runs.Along step GateShared (twoRuns .formal) takenOver :=
    Runs.along_of_checks (fun _ _ => gateShared_of_keeps) rfl
  exact ⟨_, rfl, gate_applied (start_twoRuns .formal) halong rfl nofun⟩

/-- A worker that stops between its commit and the gate leaves the message open: no worker
lives, and the gate was not applied. -/
theorem worker_stops_before_gate :
    ∃ s, Runs.run step (twoRuns .formal) (commitNegative 0 4 0 ++ [.crash 0]) = some s ∧
      s.workers = [] ∧ ¬ s.tables.GateApplied := by
  refine ⟨_, rfl, rfl, fun h => ?_⟩
  obtain ⟨message, hmessage, hblocked⟩ := (h 4 _ _ _ rfl rfl rfl nofun
    (List.mem_singleton.mpr rfl) rfl rfl).blocked
  obtain rfl := Option.some.inj hmessage
  cases hblocked

end AnalysisWorker

end TgCurator
