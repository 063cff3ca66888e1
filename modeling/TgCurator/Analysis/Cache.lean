import TgCurator.Analysis.Worker

/-!
# Cached results

A stage run of a formal run that reuses a cached result is to get the assignments, and the
requests for the negative gate, of a fresh inference with that result. A commit copies the
assignments of the source, so what decides is whether the source has an assignment for
each label of its result (`Faithful`). A stage run of a test run stores its result without
assignments, and `find_cache_hit` offers it to formal runs (`unassigned`).

`Faithful.effect` carries the invariant over one transaction, and `cached_iff` compares the
two ways to commit. `formal_run_reuses_test_result` is a run where they differ.
-/

namespace TgCurator

namespace AnalysisTables

/-- Whether a stage run belongs to a test run. -/
def ofTestRun (t : AnalysisTables) (row : StageRunRecord) : Bool :=
  (t.runs.lookup row.analysisRunId).any (·.runMode = .test)

/-- Whether a stage run has a result of a test run, with labels. -/
def unassigned (t : AnalysisTables) (stageRunId : ℕ) : Bool :=
  (t.stageRuns.lookup stageRunId).any fun row =>
    t.ofTestRun row && row.parsedResult.any (·.labels ≠ [])

/-- Results of formal runs have their assignments. -/
def Faithful (t : AnalysisTables) : Prop :=
  ∀ id row result, t.stageRuns.lookup id = some row → row.status = .succeeded →
    row.parsedResult = some result → t.ofTestRun row = false →
      t.assignmentsOf id = result.labels.map (row.assign id)

/-- What a commit leaves on a stage run and asks of the gate: the assignments, and the
message, the stage run and the stored assignment of each request. -/
def outcome (t : AnalysisTables) (stageRunId : ℕ) (committed : AnalysisCommitResult) :
    List ModelLabelAssignmentRecord × List (ℕ × ℕ × Option ModelLabelAssignmentRecord) :=
  (t.assignmentsOf stageRunId, committed.negativeGateAssignments.map fun requested =>
    (requested.messageId, requested.stageRunId, t.assignments.lookup requested.assignmentId))

/-- The outcome of a result from a provider: an inference call starts, and its result is
committed. -/
def freshOutcome (t : AnalysisTables) (snapshot : AnalysisStageSnapshot) (cacheKey : StageCacheKey)
    (result : ValidatedTargetResult) (now : ℤ) :
    Except PyError
      (List ModelLabelAssignmentRecord × List (ℕ × ℕ × Option ModelLabelAssignmentRecord)) :=
  match t.startInference snapshot (some cacheKey) now with
  | (t, none) => .ok (t.outcome snapshot.claim.stageRunId {})
  | (t, some started) => do
    let (t, committed) ← t.commitValidatedTargets snapshot started (some result) now
    return t.outcome snapshot.claim.stageRunId committed

/-- A cached result is committed like a fresh one: the outcome is that of the same result
from a provider, and each activated negative label blocks. -/
def AsFresh (t : AnalysisTables) (snapshot : AnalysisStageSnapshot) (cacheKey : StageCacheKey)
    (now : ℤ) (t' : AnalysisTables) (committed : AnalysisCommitResult) : Prop :=
  ∃ row result, t'.stageRuns.lookup snapshot.claim.stageRunId = some row ∧
    row.status = .succeeded ∧ row.parsedResult = some result ∧
      t.freshOutcome snapshot cacheKey result now =
        .ok (t'.outcome snapshot.claim.stageRunId committed) ∧
      ∀ label ∈ result.labels, label.activated = true → label.negative = true →
        ∃ requested ∈ committed.negativeGateAssignments,
          requested.messageId = row.messageId ∧ requested.stageRunId = snapshot.claim.stageRunId

variable {t t' : AnalysisTables} {report : Option Report}

/-! ## Assignments of a stage run -/

theorem values_numbered {α : Type} (start : ℕ) (rows : List α) :
    (numbered start rows).map Prod.snd = rows := by
  rw [numbered, List.map_map]
  exact List.zipIdx_map_fst start rows

/-- A commit adds to the assignments of its own stage run. -/
theorem assignmentsOf_append {id : ℕ} {added : Dict ℕ ModelLabelAssignmentRecord}
    (ht' : t'.assignments = t.assignments ++ added) (hadded : ∀ e ∈ added, e.2.stageRunId = id) :
    t'.assignmentsOf id = t.assignmentsOf id ++ added.map Prod.snd ∧
      ∀ id', id' ≠ id → t'.assignmentsOf id' = t.assignmentsOf id' := by
  unfold assignmentsOf
  refine ⟨?_, fun id' hid => ?_⟩
  · have hall : added.filter (fun e => e.2.stageRunId = id) = added :=
      List.filter_eq_self.mpr fun e he => decide_eq_true (hadded e he)
    rw [ht', List.filter_append, hall, List.map_append]
  · have hnone : added.filter (fun e => e.2.stageRunId = id') = [] :=
      List.filter_eq_nil_iff.mpr fun e he h => hid ((of_decide_eq_true h).symm.trans (hadded e he))
    rw [ht', List.filter_append, hnone, List.append_nil]

/-- The assignments of a stage run after its commit. -/
theorem assignmentsOf_commit {id start : ℕ} {rows : List ModelLabelAssignmentRecord}
    (ht' : t'.assignments = t.assignments ++ numbered start rows)
    (hrows : ∀ a ∈ rows, a.stageRunId = id) (hnone : t.assignmentsOf id = []) :
    t'.assignmentsOf id = rows := by
  rw [(assignmentsOf_append ht' fun e he => hrows _ (mem_numbered he)).1, hnone, values_numbered,
    List.nil_append]

/-- A stage run that is found with a result was there, or is the one of the commit. -/
theorem Effect.succeeded (h : Effect t report t') {id : ℕ} {row : StageRunRecord}
    (hrow : t'.stageRuns.lookup id = some row) (hstatus : row.status = .succeeded) :
    t.stageRuns.lookup id = some row ∨
      ∃ leaseToken mode source negative,
        report = some (.committed id leaseToken mode source negative) := by
  have hset : ∀ {id₀ : ℕ} {row₀ : StageRunRecord}, row₀.status ≠ .succeeded →
      (t.stageRuns.set id₀ row₀).lookup id = some row → t.stageRuns.lookup id = some row := by
    intro id₀ row₀ hne h
    rcases Dict.of_lookup_set h with ⟨-, rfl⟩ | ⟨-, h⟩
    · exact absurd hstatus hne
    · exact h
  cases h with
  | kept => exact .inl hrow
  | leased => exact .inl (hset (by simp [StageRunRecord.lease]) hrow)
  | exhausted => exact .inl (hset (by simp [StageRunRecord.exhaust]) hrow)
  | @started id₀ leaseToken row₀ policy cacheKey _ hleased =>
    have hne : (row₀.start t.nextId (t.nextId + 1) policy cacheKey).status ≠ .succeeded :=
      hleased.not_succeeded
    exact .inl (hset hne hrow)
  | committed =>
    rcases Dict.of_lookup_set hrow with ⟨rfl, -⟩ | ⟨-, h⟩
    · exact .inr ⟨_, _, _, _, rfl⟩
    · exact .inl h
  | reused =>
    rcases Dict.of_lookup_set hrow with ⟨rfl, -⟩ | ⟨-, h⟩
    · exact .inr ⟨_, _, _, _, rfl⟩
    · exact .inl h
  | failed =>
    unfold retryOrFailRow at hrow
    split_ifs at hrow
    · exact .inl (hset (by simp [StageRunRecord.retry]) hrow)
    · exact .inl (hset (by simp [StageRunRecord.fail]) hrow)
  | gated causal now =>
    dsimp only [AnalysisTables.gated] at hrow
    rw [Dict.lookup_mapValues] at hrow
    obtain ⟨row₀, hrow₀, hrow⟩ := Option.map_eq_some_iff.mp hrow
    split_ifs at hrow
    · rw [← hrow] at hstatus
      cases hstatus
    · exact .inl (hrow ▸ hrow₀)
  | aggregated => exact .inl hrow

theorem Effect.ofTestRun (h : Effect t report t') (row : StageRunRecord) :
    t'.ofTestRun row = t.ofTestRun row := by
  have hany : ∀ o : Option AnalysisRunRecord,
      o.any (·.runMode = .test) = (o.map (·.runMode)).any (· = .test) := by
    intro o
    cases o <;> rfl
  unfold AnalysisTables.ofTestRun
  rw [hany, hany, h.mode]

/-- A committed stage run was leased. -/
theorem Effect.leased_of_committed {id leaseToken : ℕ} {mode : RunMode} {source : Option ℕ}
    {negative : List NegativeGateAssignment}
    (h : Effect t (some (.committed id leaseToken mode source negative)) t') :
    ∃ row, t.Leased id leaseToken row := by
  cases h with
  | committed _ _ hrow => exact ⟨_, hrow⟩
  | reused _ _ hrow => exact ⟨_, hrow⟩

theorem Effect.assignmentsOf {id leaseToken : ℕ} {mode : RunMode} {source : Option ℕ}
    {negative : List NegativeGateAssignment}
    (h : Effect t (some (.committed id leaseToken mode source negative)) t') {id' : ℕ}
    (hid : id' ≠ id) : t'.assignmentsOf id' = t.assignmentsOf id' := by
  obtain ⟨added, hadded⟩ := h.added
  obtain ⟨row, -, -, hassign⟩ := hadded.row
  refine (assignmentsOf_append hadded.assignments fun e he => ?_).2 id' hid
  obtain ⟨-, label, hlabel⟩ := hassign e he
  rw [hlabel]
  rfl

/-! ## The source of a cached result -/

/-- Assignments belong to formal runs. -/
theorem assignmentsOf_test (ht : AnalysisWorker.TablesInv t) {id : ℕ} {row : StageRunRecord}
    (hrow : t.stageRuns.lookup id = some row) (htest : t.ofTestRun row = true) :
    t.assignmentsOf id = [] := by
  rw [AnalysisTables.assignmentsOf, List.map_eq_nil_iff, List.filter_eq_nil_iff]
  intro e hmem hid
  obtain ⟨row', hrow', -, hrun, -⟩ := ht.assigned e hmem
  rw [of_decide_eq_true hid, hrow] at hrow'
  obtain rfl := Option.some.inj hrow'
  obtain ⟨run, hlookup, hmode⟩ := ht.tested e hmem
  rw [AnalysisTables.ofTestRun, ← hrun, hlookup] at htest
  exact hmode (of_decide_eq_true htest)

/-- The copies of the assignments of a source are those of its labels, unless the source is
of a test run. -/
theorem copies_eq (ht : AnalysisWorker.TablesInv t) (hf : t.Faithful) {sourceId id : ℕ}
    {source row : StageRunRecord} {result : ValidatedTargetResult}
    (hsource : t.stageRuns.lookup sourceId = some source) (hsucceeded : source.status = .succeeded)
    (hresult : source.parsedResult = some result) :
    (t.assignmentsOf sourceId).map (copyAssignment · id row) =
      if t.ofTestRun source then [] else result.labels.map (row.assign id) := by
  split_ifs with htest
  · rw [assignmentsOf_test ht hsource htest, List.map_nil]
  · rw [hf _ _ _ hsource hsucceeded hresult (by simpa using htest), List.map_map]
    rfl

theorem unassigned_eq_false {sourceId : ℕ} {source : StageRunRecord}
    {result : ValidatedTargetResult} (hsource : t.stageRuns.lookup sourceId = some source)
    (hresult : source.parsedResult = some result) :
    t.unassigned sourceId = false ↔ (t.ofTestRun source = true → result.labels = []) := by
  rw [unassigned, hsource, Option.any_some, hresult, Option.any_some]
  cases t.ofTestRun source <;> simp

/-- A commit from a source that has its assignments copies the labels of its result. -/
theorem copies_eq_labels (ht : AnalysisWorker.TablesInv t) (hf : t.Faithful) {sourceId id : ℕ}
    {source row : StageRunRecord} {result : ValidatedTargetResult}
    (hsource : t.stageRuns.lookup sourceId = some source) (hsucceeded : source.status = .succeeded)
    (hresult : source.parsedResult = some result) :
    (t.assignmentsOf sourceId).map (copyAssignment · id row) = result.labels.map (row.assign id) ↔
      t.unassigned sourceId = false := by
  rw [copies_eq ht hf hsource hsucceeded hresult, unassigned_eq_false hsource hresult]
  cases t.ofTestRun source with
  | true =>
    rw [if_pos rfl, eq_comm, List.map_eq_nil_iff]
    exact ⟨fun h _ => h, fun h => h rfl⟩
  | false => simp

/-- What a transaction keeps: a formal run reuses no result without its assignments. -/
theorem Faithful.effect (ht : AnalysisWorker.TablesInv t) (hf : t.Faithful)
    (he : Effect t report t') (hmode : AnalysisWorker.ModeTrue t report)
    (hsource : ∀ id leaseToken mode sourceId negative,
      report = some (.committed id leaseToken mode (some sourceId) negative) → mode ≠ .test →
        t.unassigned sourceId = false) : t'.Faithful := by
  intro id row result hrow hsucceeded hresult htest
  rw [he.ofTestRun] at htest
  rcases he.succeeded hrow hsucceeded with hbefore | ⟨leaseToken, mode, source, negative, rfl⟩
  · have hold := hf id row result hbefore hsucceeded hresult htest
    rcases he.assignments with hsame | ⟨id₁, leaseToken, mode, source, negative, rfl⟩
    · rw [AnalysisTables.assignmentsOf, hsame]
      exact hold
    · obtain ⟨row₁, hleased⟩ := he.leased_of_committed
      have hid : id ≠ id₁ := by
        rintro rfl
        obtain rfl := Option.some.inj (hbefore.symm.trans hleased.found)
        rw [hleased.running] at hsucceeded
        cases hsucceeded
      rw [he.assignmentsOf hid, hold]
  · obtain ⟨row₀, run, hrow₀, hrun, hrunMode⟩ := hmode _ _ _ _ _ rfl
    have hnone : ∀ {row₀ : StageRunRecord}, t.Leased id leaseToken row₀ →
        t.assignmentsOf id = [] :=
      fun hleased => ht.assigned.assignmentsOf hleased.found hleased.not_succeeded
    have hformal : mode ≠ .test := by
      rintro rfl
      have hrunId : row₀.analysisRunId = row.analysisRunId := by
        obtain ⟨row₁, hrow₁, hwork⟩ := he.rowsKept.found hrow₀
        obtain rfl := Option.some.inj (hrow.symm.trans hrow₁)
        exact (congrArg Prod.fst hwork).symm
      rw [AnalysisTables.ofTestRun, ← hrunId, hrun, Option.any_some, hrunMode] at htest
      cases htest
    cases he with
    | @committed _ _ row₁ _ rows result₁ now hleased hrows =>
      rw [Dict.lookup_set_self] at hrow
      obtain rfl := Option.some.inj hrow
      obtain rfl := Option.some.inj hresult
      rw [if_neg hformal] at hrows
      refine (assignmentsOf_commit rfl (fun a ha => ?_) (hnone hleased)).trans hrows
      obtain ⟨label, -, rfl⟩ := List.mem_map.mp (hrows ▸ ha)
      rfl
    | @reused _ _ sourceId row₁ source _ rows result₁ cacheKey now hleased hlookup hstatus hparsed
        hrows =>
      rw [Dict.lookup_set_self] at hrow
      obtain rfl := Option.some.inj hrow
      obtain rfl := Option.some.inj hresult
      have hassigned := hsource _ _ _ _ _ rfl hformal
      rw [if_neg hformal, (copies_eq_labels ht hf hlookup hstatus hparsed).mpr hassigned] at hrows
      refine (assignmentsOf_commit rfl (fun a ha => ?_) (hnone hleased)).trans hrows
      obtain ⟨label, -, rfl⟩ := List.mem_map.mp (hrows ▸ ha)
      rfl

/-! ## The two ways to commit -/

/-- What a commit of assignments leaves and asks of the gate. -/
def summary (rows : List ModelLabelAssignmentRecord) :
    List ModelLabelAssignmentRecord × List (ℕ × ℕ × Option ModelLabelAssignmentRecord) :=
  (rows, (rows.filter (·.gates)).map fun a => (a.messageId, a.stageRunId, some a))

theorem lookup_numbered {start : ℕ} {rows : List ModelLabelAssignmentRecord}
    (hfresh : ∀ k ∈ t.assignments.keys, k < start) {e : ℕ × ModelLabelAssignmentRecord}
    (he : e ∈ numbered start rows) : (t.assignments ++ numbered start rows).lookup e.1 = some e.2 := by
  have hkey : e.1 ∈ (numbered start rows).keys := Dict.mem_keys.mpr ⟨e.2, he⟩
  have hnew : e.1 ∉ t.assignments.keys := by
    intro hold
    rw [keys_numbered, List.mem_range'_1] at hkey
    have := hfresh _ hold
    omega
  have hnodup : (numbered start rows).keys.Nodup := by
    rw [keys_numbered]
    exact List.nodup_range'
  rw [List.lookup_append, Dict.lookup_eq_none.mpr hnew, Option.none_or]
  exact Dict.lookup_of_mem hnodup he

/-- The outcome of a commit does not show the new ids. -/
theorem outcome_commit {id start : ℕ} {rows : List ModelLabelAssignmentRecord}
    {committed : AnalysisCommitResult} (ht' : t'.assignments = t.assignments ++ numbered start rows)
    (hrows : ∀ a ∈ rows, a.stageRunId = id) (hnone : t.assignmentsOf id = [])
    (hfresh : ∀ k ∈ t.assignments.keys, k < start)
    (hnegative : committed.negativeGateAssignments = gateRequests (numbered start rows)) :
    t'.outcome id committed = summary rows := by
  have hrequests : (gateRequests (numbered start rows)).map (fun requested =>
      (requested.messageId, requested.stageRunId, t'.assignments.lookup requested.assignmentId)) =
        ((numbered start rows).filter (·.2.gates)).map
          fun e => (e.2.messageId, e.2.stageRunId, some e.2) := by
    rw [gateRequests, List.map_map]
    refine List.map_congr_left fun e he => ?_
    rw [Function.comp, ht', lookup_numbered hfresh (List.mem_filter.mp he).1]
  rw [outcome, assignmentsOf_commit ht' hrows hnone, hnegative, hrequests, summary]
  congr 1
  conv_rhs => rw [← values_numbered start rows]
  rw [List.filter_map, List.map_map]
  rfl

/-- Whether the assignments of a commit can be stored. -/
def Storable (t : AnalysisTables) (rows : List ModelLabelAssignmentRecord) : Prop :=
  rows.Pairwise (fun a b => ¬ a.Clash b) ∧ ∀ a ∈ rows, ∀ e ∈ t.assignments, ¬ a.Clash e.2

theorem addAssignments_of_storable {rows : List ModelLabelAssignmentRecord} (h : t.Storable rows)
    (ht' : t'.assignments = t.assignments) :
    t'.addAssignments rows =
      .ok ({ t' with
        assignments := t'.assignments ++ numbered t'.nextId rows
        nextId := t'.nextId + rows.length }, gateRequests (numbered t'.nextId rows)) := by
  rw [Storable, ← ht'] at h
  unfold addAssignments
  exact if_pos h

theorem storable_of_added {rows : List ModelLabelAssignmentRecord}
    {o : AnalysisTables × List NegativeGateAssignment} (h : t'.addAssignments rows = .ok o)
    (ht' : t'.assignments = t.assignments) : t.Storable rows := by
  unfold addAssignments at h
  split_ifs at h with hstorable
  rw [Storable, ← ht']
  exact hstorable

/-- A gating assignment is asked for. -/
theorem gateRequests_of_mem {start : ℕ} {rows : List ModelLabelAssignmentRecord}
    {a : ModelLabelAssignmentRecord} (ha : a ∈ rows) (hgates : a.gates = true) :
    ∃ requested ∈ gateRequests (numbered start rows),
      requested.messageId = a.messageId ∧ requested.stageRunId = a.stageRunId := by
  rw [← values_numbered start rows] at ha
  obtain ⟨e, he, rfl⟩ := List.mem_map.mp ha
  exact ⟨_, List.mem_map.mpr ⟨e, List.mem_filter.mpr ⟨he, hgates⟩, rfl⟩, rfl, rfl⟩

variable {snapshot : AnalysisStageSnapshot} {row : StageRunRecord} {cacheKey : StageCacheKey}
  {now : ℤ}

theorem stageRunId_assigned {id : ℕ} {labels : List ResolvedLabel} :
    ∀ a ∈ labels.map (row.assign id), a.stageRunId = id := by
  intro a ha
  obtain ⟨label, -, rfl⟩ := List.mem_map.mp ha
  rfl

/-- An inference call starts on a leased stage run, and its commit finds it. -/
theorem startInference_of_lock (cacheKey : StageCacheKey)
    (hlock : t.lockSnapshotTargets snapshot now none = some row) :
    ∃ t₁ started row₁, t.startInference snapshot (some cacheKey) now = (t₁, some started) ∧
      t₁.assignments = t.assignments ∧ t.nextId ≤ t₁.nextId ∧
        t₁.lockSnapshotTargets snapshot now (some [snapshot.target.targetId]) = some row₁ ∧
          row₁.inferenceCallId = some started.inferenceCallId ∧ row₁.assign = row.assign := by
  unfold startInference
  rw [hlock]
  refine ⟨_, _, row.start t.nextId (t.nextId + 1) snapshot.stage.cachePolicy (some cacheKey),
    rfl, rfl, Nat.le_add_right _ _, ?_, rfl, rfl⟩
  unfold lockSnapshotTargets at hlock ⊢
  rw [Option.all_none, if_pos rfl, Option.filter_eq_some_iff] at hlock
  dsimp only
  rw [Option.all_some, if_pos (by simp), Dict.lookup_set_self, Option.filter_eq_some_iff]
  exact ⟨rfl, hlock.2⟩

/-- A fresh outcome is that of the labels of the result. -/
theorem freshOutcome_eq_ok (ht : AnalysisWorker.TablesInv t)
    (haligned : snapshot.target.stageRunId = snapshot.claim.stageRunId)
    (hmode : snapshot.claim.runMode ≠ .test)
    (hlock : t.lockSnapshotTargets snapshot now none = some row) {result : ValidatedTargetResult}
    (htarget : result.targetId = snapshot.target.targetId)
    {o : List ModelLabelAssignmentRecord × List (ℕ × ℕ × Option ModelLabelAssignmentRecord)} :
    t.freshOutcome snapshot cacheKey result now = .ok o ↔
      t.Storable (result.labels.map (row.assign snapshot.claim.stageRunId)) ∧
        o = summary (result.labels.map (row.assign snapshot.claim.stageRunId)) := by
  have hleased := (leased_of_lock hlock).1
  rw [haligned] at hleased
  have hnone : t.assignmentsOf snapshot.claim.stageRunId = [] :=
    ht.assigned.assignmentsOf hleased.found hleased.not_succeeded
  obtain ⟨t₁, started, row₁, hstart, hassignments, hnext, hlock₁, hcall, hassign⟩ :=
    startInference_of_lock cacheKey hlock
  have hfilter : (t₁.lockSnapshotTargets snapshot now (some [result.targetId])).filter
      (·.inferenceCallId = some started.inferenceCallId) = some row₁ := by
    rw [htarget, hlock₁, Option.filter_eq_some_iff]
    exact ⟨rfl, decide_eq_true hcall⟩
  unfold freshOutcome commitValidatedTargets
  rw [hstart]
  dsimp only
  rw [hfilter]
  dsimp only
  rw [if_neg hmode, hassign, haligned]
  have houtcome : ∀ t₂ : AnalysisTables,
      t₂.assignments = t₁.assignments ++
        numbered t₁.nextId (result.labels.map (row.assign snapshot.claim.stageRunId)) →
      t₂.outcome snapshot.claim.stageRunId ⟨[result.targetId], gateRequests (numbered t₁.nextId
        (result.labels.map (row.assign snapshot.claim.stageRunId)))⟩ =
          summary (result.labels.map (row.assign snapshot.claim.stageRunId)) := by
    intro t₂ ht₂
    rw [hassignments] at ht₂
    exact outcome_commit ht₂ stageRunId_assigned hnone
      (fun k hk => (ht.fresh k hk).trans_le hnext) rfl
  constructor
  · intro h
    obtain ⟨⟨t₂, committed⟩, hcommit, h⟩ := bind_eq_ok.mp h
    obtain ⟨⟨t₃, negative⟩, hadd, hcommit⟩ := bind_eq_ok.mp hcommit
    obtain ⟨rfl, rfl⟩ := Prod.mk.inj (Except.ok.inj hcommit)
    obtain ⟨rfl, rfl⟩ := addAssignments_eq_ok hadd
    exact ⟨storable_of_added hadd hassignments, (Except.ok.inj h).symm.trans (houtcome _ rfl)⟩
  · rintro ⟨hstorable, rfl⟩
    rw [addAssignments_of_storable hstorable]
    · exact congrArg Except.ok (houtcome _ rfl)
    · exact hassignments

/-- A reused result leaves the copies of the assignments of its source. -/
theorem reused_outcome (ht : AnalysisWorker.TablesInv t) {hit : AnalysisCacheHit}
    {committed : AnalysisCommitResult}
    (haligned : snapshot.target.stageRunId = snapshot.claim.stageRunId)
    (hmode : snapshot.claim.runMode ≠ .test)
    (h : t.commitCacheHit snapshot cacheKey hit now = .ok (t', committed))
    (hcommitted : committed.committedTargetIds ≠ []) :
    ∃ row source result, t.lockSnapshotTargets snapshot now none = some row ∧
      t.stageRuns.lookup hit.sourceStageRunId = some source ∧ source.status = .succeeded ∧
        source.parsedResult = some result ∧
        t'.stageRuns.lookup snapshot.claim.stageRunId = some (row.reuse t.nextId
          (rewriteCachedTarget result snapshot.target.targetId) cacheKey hit.sourceStageRunId now) ∧
        t.Storable ((t.assignmentsOf hit.sourceStageRunId).map
          (copyAssignment · snapshot.claim.stageRunId row)) ∧
        committed.negativeGateAssignments = gateRequests (numbered (t.nextId + 1)
          ((t.assignmentsOf hit.sourceStageRunId).map
            (copyAssignment · snapshot.claim.stageRunId row))) ∧
        t'.outcome snapshot.claim.stageRunId committed = summary
          ((t.assignmentsOf hit.sourceStageRunId).map
            (copyAssignment · snapshot.claim.stageRunId row)) := by
  unfold commitCacheHit at h
  cases hsource : (t.stageRuns.lookup hit.sourceStageRunId).filter
    (·.exactCacheSource cacheKey) with
  | none =>
    rw [hsource] at h
    obtain ⟨rfl, rfl⟩ := Prod.mk.inj (Except.ok.inj h)
    exact absurd rfl hcommitted
  | some source =>
    rw [hsource] at h
    dsimp only at h
    cases hlock : t.lockSnapshotTargets snapshot now none with
    | none =>
      rw [hlock] at h
      obtain ⟨rfl, rfl⟩ := Prod.mk.inj (Except.ok.inj h)
      exact absurd rfl hcommitted
    | some row =>
      rw [hlock] at h
      dsimp only at h
      rw [if_neg hmode, haligned] at h
      obtain ⟨⟨t₁, negative⟩, hadd, h⟩ := bind_eq_ok.mp h
      obtain ⟨rfl, rfl⟩ := Prod.mk.inj (Except.ok.inj h)
      obtain ⟨rfl, rfl⟩ := addAssignments_eq_ok hadd
      obtain ⟨hlookup, hexact⟩ := Option.filter_eq_some_iff.mp hsource
      simp only [StageRunRecord.exactCacheSource, Bool.and_eq_true, decide_eq_true_eq] at hexact
      obtain ⟨result, hresult⟩ := Option.isSome_iff_exists.mp hexact.1.1.1.2
      have hleased := (leased_of_lock hlock).1
      rw [haligned] at hleased
      have hnone : t.assignmentsOf snapshot.claim.stageRunId = [] :=
        ht.assigned.assignmentsOf hleased.found hleased.not_succeeded
      refine ⟨row, source, result, rfl, hlookup, hexact.1.1.1.1, hresult, ?_,
        storable_of_added hadd rfl, rfl, ?_⟩
      · rw [hresult, Option.getD_some]
        exact Dict.lookup_set_self _ _ _
      · refine outcome_commit rfl ?_ hnone (fun k hk => (ht.fresh k hk).trans (Nat.lt_succ_self _))
          rfl
        intro a ha
        obtain ⟨source, -, rfl⟩ := List.mem_map.mp ha
        rfl

/-- A committed hit is as fresh exactly if its source is not a result of a test run with
labels. -/
theorem cached_iff (ht : AnalysisWorker.TablesInv t) (hf : t.Faithful) {hit : AnalysisCacheHit}
    {committed : AnalysisCommitResult}
    (haligned : snapshot.target.stageRunId = snapshot.claim.stageRunId)
    (hmode : snapshot.claim.runMode ≠ .test)
    (h : t.commitCacheHit snapshot cacheKey hit now = .ok (t', committed))
    (hcommitted : committed.committedTargetIds ≠ []) :
    t.AsFresh snapshot cacheKey now t' committed ↔ t.unassigned hit.sourceStageRunId = false := by
  obtain ⟨row, source, result, hlock, hsource, hsucceeded, hresult, hrow, hstorable, hnegative,
    houtcome⟩ := reused_outcome ht haligned hmode h hcommitted
  have hcopies : (t.assignmentsOf hit.sourceStageRunId).map
      (copyAssignment · snapshot.claim.stageRunId row) =
        result.labels.map (row.assign snapshot.claim.stageRunId) ↔ _ :=
    copies_eq_labels ht hf hsource hsucceeded hresult
  have hfresh : t.freshOutcome snapshot cacheKey
      (rewriteCachedTarget result snapshot.target.targetId) now =
        .ok (t'.outcome snapshot.claim.stageRunId committed) ↔ _ :=
    freshOutcome_eq_ok ht haligned hmode hlock rfl
  rw [houtcome] at hfresh
  constructor
  · rintro ⟨row', result', hrow', -, hresult', houtcome', -⟩
    obtain rfl := Option.some.inj (hrow.symm.trans hrow')
    obtain rfl := Option.some.inj hresult'
    rw [houtcome] at houtcome'
    exact hcopies.mp (congrArg Prod.fst (hfresh.mp houtcome').2)
  · intro hassigned
    have heq := hcopies.mpr hassigned
    rw [heq] at hstorable hnegative hfresh houtcome
    refine ⟨_, _, hrow, rfl, rfl, houtcome ▸ hfresh.mpr ⟨hstorable, rfl⟩, ?_⟩
    intro label hlabel hactivated hnegativeLabel
    have hgates : (row.assign snapshot.claim.stageRunId label).gates = true := by
      rw [ModelLabelAssignmentRecord.gates, Bool.and_eq_true]
      exact ⟨hactivated, hnegativeLabel⟩
    rw [hnegative]
    exact gateRequests_of_mem (List.mem_map_of_mem hlabel) hgates

end AnalysisTables

namespace AnalysisWorker

/-! ## Runs of the workers -/

/-- The source of a cached result that a worker is to commit for a formal run. -/
def Work.reuses : Work → Option ℕ
  | commitCacheHit snapshot _ hit =>
    if snapshot.claim.runMode = .test then none else some hit.sourceStageRunId
  | _ => none

/-- Whether a commit takes its result from a source that has its assignments. -/
def Action.assigning (s : State) : Action → Bool
  | proceed name => ((s.work name).bind Work.reuses).all fun id => !s.tables.unassigned id
  | _ => true

variable {s s' : State} {a : Action}

theorem faithful_of_start (h : Start s) : s.tables.Faithful :=
  fun id row _ hrow hsucceeded => absurd hsucceeded (h.results id row hrow)

/-- A worker that is to commit a cached result commits it, or stops. -/
theorem proceeds_of_hit {snapshot : AnalysisStageSnapshot} {cacheKey : StageCacheKey}
    {hit : AnalysisCacheHit} (hw : s.work a.name = some (.commitCacheHit snapshot cacheKey hit))
    (hstep : step s a = some s') : a = .crash a.name ∨ a = .proceed a.name := by
  obtain ⟨⟨now, w⟩, hlookup, hw⟩ := Option.map_eq_some_iff.mp hw
  obtain rfl : w = _ := hw
  cases a with
  | process name =>
    have hname : name ∈ s.workers.keys := Dict.mem_keys.mpr ⟨_, Dict.mem_of_lookup hlookup⟩
    rw [step, if_pos hname] at hstep
    cases hstep
  | prepare name => simp [step, show s.workers.lookup name = _ from hlookup] at hstep
  | answer name => simp [step, show s.workers.lookup name = _ from hlookup] at hstep
  | proceed name => exact .inr rfl
  | crash name => exact .inl rfl

theorem faithful_step (h : Inv s) (hf : s.tables.Faithful) (hassigning : a.assigning s = true)
    (hstep : step s a = some s') : s'.tables.Faithful := by
  obtain ⟨-, hturn⟩ := step_cases h hstep
  rcases hturn with ⟨-, htables, -⟩ | ⟨report, he, hturn⟩
  · exact htables ▸ hf
  by_cases hcrash : a = .crash a.name
  · rw [hcrash] at hstep
    obtain rfl := Option.some.inj hstep
    exact hf
  · refine hf.effect h.tables he (hturn.modeTrue fun w hw => sound_of_work h hw) ?_
    rintro id leaseToken mode sourceId negative rfl hformal
    generalize ho : s.work a.name = o at hturn
    generalize s'.work a.name = o' at hturn
    cases hturn with
    | refused hreport => simp at hreport
    | committed _ _ _ hsource =>
      obtain ⟨cacheKey, hit, rfl, rfl⟩ := hsource sourceId rfl
      have hproceed := (proceeds_of_hit ho hstep).resolve_left hcrash
      rw [hproceed, Action.assigning, ho, Option.bind_some, Work.reuses, if_neg hformal,
        Option.all_some, Bool.not_eq_true'] at hassigning
      exact hassigning

/-- What holds along a run whose cached results have their assignments. -/
theorem faithful_run {s₀ s : State} {actions : List Action} (h₀ : Start s₀)
    (halong : Runs.Along step (fun s a => a.assigning s = true) s₀ actions)
    (hrun : Runs.run step s₀ actions = some s) : Inv s ∧ s.tables.Faithful :=
  Runs.run_invariant (I := fun s => Inv s ∧ s.tables.Faithful)
    (fun _ _ _ h hassigning hstep =>
      ⟨h.1.step hstep, faithful_step h.1 h.2 hassigning hstep⟩)
    ⟨inv_of_start h₀, faithful_of_start h₀⟩ halong hrun

/-- Along a run whose cached results have their assignments, a stage run of a formal run that
is committed from the cache has the assignments, and the requests for the negative gate, of a
fresh inference exactly if the result is not one of a test run with labels. -/
theorem cached_as_fresh_iff {s₀ s : State} {actions : List Action} (h₀ : Start s₀)
    (halong : Runs.Along step (fun s a => a.assigning s = true) s₀ actions)
    (hrun : Runs.run step s₀ actions = some s) (name : ℕ) {now : ℤ}
    {snapshot : AnalysisStageSnapshot} {cacheKey : StageCacheKey} {hit : AnalysisCacheHit}
    (hwork : s.workers.lookup name = some ⟨now, .commitCacheHit snapshot cacheKey hit⟩)
    (hmode : snapshot.claim.runMode ≠ .test) {t' : AnalysisTables}
    {committed : AnalysisCommitResult}
    (hcommit : s.tables.commitCacheHit snapshot cacheKey hit now = .ok (t', committed))
    (hcommitted : committed.committedTargetIds ≠ []) :
    s.tables.AsFresh snapshot cacheKey now t' committed ↔
      s.tables.unassigned hit.sourceStageRunId = false := by
  obtain ⟨hinv, hf⟩ := faithful_run h₀ halong hrun
  have haligned := (hinv.workers name _ hwork).aligned snapshot rfl
  exact AnalysisTables.cached_iff hinv.tables hf haligned hmode hcommit hcommitted

/-- A worker commits an activated negative label for the first run, and a second worker finds
the result for the second run. -/
def reuse : List Action :=
  commitNegative 0 4 0 ++
    [.process 1 5 9 60, .prepare 1 (.prepared (some sharedKey)), .proceed 1]

theorem cached_as_fresh_iff_formal :
    ∃ s now snapshot hit t' committed, Runs.run step (twoRuns .formal) reuse = some s ∧
      s.workers.lookup 1 = some ⟨now, .commitCacheHit snapshot sharedKey hit⟩ ∧
        s.tables.commitCacheHit snapshot sharedKey hit now = .ok (t', committed) ∧
          s.tables.AsFresh snapshot sharedKey now t' committed := by
  have halong : Runs.Along step (fun s a => a.assigning s = true) (twoRuns .formal) reuse :=
    Runs.along_of_checks (fun _ _ h => h) rfl
  exact ⟨_, _, _, _, _, _, rfl, rfl, rfl, (cached_as_fresh_iff (start_twoRuns .formal) halong rfl
    1 rfl nofun rfl nofun).mpr rfl⟩

/-- The formal run gets the result of a test run, without its negative label: there is no
request for the gate. -/
theorem formal_run_reuses_test_result :
    ∃ s now snapshot hit t' committed, Runs.run step (twoRuns .test) reuse = some s ∧
      s.workers.lookup 1 = some ⟨now, .commitCacheHit snapshot sharedKey hit⟩ ∧
        snapshot.claim.runMode ≠ .test ∧
          s.tables.commitCacheHit snapshot sharedKey hit now = .ok (t', committed) ∧
            committed.committedTargetIds ≠ [] ∧
              ¬ s.tables.AsFresh snapshot sharedKey now t' committed := by
  refine ⟨_, _, _, _, _, _, rfl, rfl, nofun, rfl, nofun, ?_⟩
  rintro ⟨row, result, hrow, -, hresult, -, hblocks⟩
  obtain rfl := Option.some.inj hrow
  obtain rfl := Option.some.inj hresult
  obtain ⟨requested, hmem, -⟩ := hblocks _ (List.mem_singleton.mpr rfl) rfl rfl
  cases hmem

end AnalysisWorker

end TgCurator
