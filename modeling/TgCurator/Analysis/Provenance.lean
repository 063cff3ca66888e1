import Mathlib.Logic.Relation
import TgCurator.Analysis.Cache
import TgCurator.Analysis.Checks

/-!
# Where results come from

A result is committed from the answer of a provider, or reused from another stage run with the
same cache key, whose result can itself be reused. `results_answered` follows the links of
`reused_from_stage_run_id` back: they end at a stage run whose inference call is recorded as
succeeded, and the labels are those of a valid answer of the run.

A worker that waits for an answer, or is to record one, has a pending call of its own
(`Work.Traced`, `Traced.apart`), so nothing another worker does comes between the answer and
its record.
-/

namespace TgCurator

namespace StageRunRecord

/-- The columns of the inference call. -/
def callColumns (row : StageRunRecord) : Option ℕ × Option ℕ :=
  (row.inferenceCallId, row.inputManifestId)

/-- The columns of the cache key. -/
def cacheColumns (row : StageRunRecord) : CachePolicy × Option String × Option String :=
  (row.cachePolicy, row.cacheScopeIdentity, row.semanticCacheKey)

/-- The labels of the result. -/
def labels (row : StageRunRecord) : Option (List ResolvedLabel) :=
  row.parsedResult.map (·.labels)

/-- A result is the one of a source, with the same cache key. -/
structure Reuses (row : StageRunRecord) (sourceId : ℕ) (source : StageRunRecord) : Prop where
  status : row.status = .succeeded
  source_status : source.status = .succeeded
  origin : row.resultOrigin = some .cache
  link : row.reusedFromStageRunId = some sourceId
  key : row.cacheColumns = source.cacheColumns
  result : row.labels = source.labels

end StageRunRecord

namespace AnalysisTables

/-- A stage run has the result of a source. -/
def ReusedFrom (t : AnalysisTables) (id sourceId : ℕ) : Prop :=
  ∃ row source, t.stageRuns.lookup id = some row ∧ t.stageRuns.lookup sourceId = some source ∧
    row.Reuses sourceId source

/-- A stage run has labels from an inference call, which is recorded for its input manifest. -/
structure InferredBy (t : AnalysisTables) (row : StageRunRecord) (callId : ℕ)
    (call : InferenceCallRecord) (labels : List ResolvedLabel) : Prop where
  status : row.status = .succeeded
  origin : row.resultOrigin = some .inference
  columns : row.callColumns = (some callId, some call.inputManifestId)
  found : t.inferenceCalls.lookup callId = some call
  recorded : call.status = .succeeded
  result : row.labels = some labels

/-- The result of a stage run goes back to a recorded call. -/
def Backed (answered : List ResolvedLabel → Prop) (t : AnalysisTables) (id : ℕ) : Prop :=
  ∃ originId origin callId call labels, Relation.ReflTransGen t.ReusedFrom id originId ∧
    t.stageRuns.lookup originId = some origin ∧ t.InferredBy origin callId call labels ∧
      answered labels

/-- Every call was numbered, and belongs to one stage run at most, with its manifest. -/
structure CallsOwned (t : AnalysisTables) : Prop where
  before : ∀ callId ∈ t.inferenceCalls.keys, callId < t.nextId
  called : ∀ id row callId, t.stageRuns.lookup id = some row →
    row.inferenceCallId = some callId → ∃ call, t.inferenceCalls.lookup callId = some call ∧
      row.inputManifestId = some call.inputManifestId
  own : ∀ id id' row row' callId, t.stageRuns.lookup id = some row →
    t.stageRuns.lookup id' = some row' → row.inferenceCallId = some callId →
      row'.inferenceCallId = some callId → id' = id

variable {t t' : AnalysisTables} {answered : List ResolvedLabel → Prop}

/-! ## Links -/

/-- Along the links, the cache key and the labels stay the same. -/
theorem eq_of_reusedFrom {id originId : ℕ} (h : Relation.ReflTransGen t.ReusedFrom id originId)
    {row origin : StageRunRecord} (hrow : t.stageRuns.lookup id = some row)
    (horigin : t.stageRuns.lookup originId = some origin) :
    row.cacheColumns = origin.cacheColumns ∧ row.labels = origin.labels := by
  induction h using Relation.ReflTransGen.head_induction_on generalizing row with
  | refl =>
    obtain rfl := Option.some.inj (hrow.symm.trans horigin)
    exact ⟨rfl, rfl⟩
  | head hlink _ ih =>
    obtain ⟨row₀, source, hrow₀, hsource, hreuses⟩ := hlink
    obtain rfl := Option.some.inj (hrow.symm.trans hrow₀)
    obtain ⟨hkey, hlabels⟩ := ih hsource
    exact ⟨hreuses.key.trans hkey, hreuses.result.trans hlabels⟩

/-- No call is dropped or gets another manifest, and those that ended stay as they are. -/
def CallsKept (t t' : AnalysisTables) : Prop :=
  ∀ callId call, t.inferenceCalls.lookup callId = some call →
    ∃ call', t'.inferenceCalls.lookup callId = some call' ∧
      call'.inputManifestId = call.inputManifestId ∧ (call.status ≠ .pending → call' = call)

theorem CallsKept.of_eq (h : t'.inferenceCalls = t.inferenceCalls) : t.CallsKept t' := by
  intro callId call hcall
  exact ⟨call, h ▸ hcall, rfl, fun _ => rfl⟩

theorem CallsKept.ended (h : t.CallsKept t') {callId : ℕ} {call : InferenceCallRecord}
    (hcall : t.inferenceCalls.lookup callId = some call) (hended : call.status = .succeeded) :
    t'.inferenceCalls.lookup callId = some call := by
  obtain ⟨call', hcall', -, heq⟩ := h callId call hcall
  rw [hcall', heq (by rw [hended]; decide)]

theorem Backed.later (hrows : t.RowsKept t') (hcalls : t.CallsKept t') {id : ℕ}
    (h : Backed answered t id) : Backed answered t' id := by
  have hfound : ∀ {id : ℕ} {row : StageRunRecord}, t.stageRuns.lookup id = some row →
      row.status = .succeeded → t'.stageRuns.lookup id = some row :=
    fun hrow hstatus => hrows.inactive hrow (by rw [hstatus]; rfl)
  obtain ⟨originId, origin, callId, call, labels, hlinks, horigin, hinferred, hanswered⟩ := h
  have hlater : ∀ a b, t.ReusedFrom a b → t'.ReusedFrom a b := by
    rintro a b ⟨row, source, hrow, hsource, hreuses⟩
    exact ⟨row, source, hfound hrow hreuses.status, hfound hsource hreuses.source_status, hreuses⟩
  exact ⟨originId, origin, callId, call, labels, Relation.ReflTransGen.mono hlater _ _ hlinks,
    hfound horigin hinferred.status,
    { hinferred with found := hcalls.ended hinferred.found hinferred.recorded }, hanswered⟩

theorem Backed.reused {id sourceId : ℕ} (hlink : t.ReusedFrom id sourceId)
    (h : Backed answered t sourceId) : Backed answered t id := by
  obtain ⟨originId, origin, callId, call, labels, hlinks, hrest⟩ := h
  exact ⟨originId, origin, callId, call, labels, hlinks.head hlink, hrest⟩

/-! ## What a transaction that records no call does -/

/-- The calls stay as they are, and no stage run gets another one. -/
structure Untouched (t t' : AnalysisTables) : Prop where
  calls : t'.inferenceCalls = t.inferenceCalls
  next : t.nextId ≤ t'.nextId
  rows : ∀ id row', t'.stageRuns.lookup id = some row' → ∃ row,
    t.stageRuns.lookup id = some row ∧
      (row'.callColumns = row.callColumns ∨ row'.inferenceCallId = none)

theorem Untouched.refl (t : AnalysisTables) : Untouched t t :=
  ⟨rfl, le_rfl, fun _ row h => ⟨row, h, .inl rfl⟩⟩

theorem untouched_set {id : ℕ} {row row' : StageRunRecord}
    (hrow : t.stageRuns.lookup id = some row) (ht' : t'.stageRuns = t.stageRuns.set id row')
    (hcalls : t'.inferenceCalls = t.inferenceCalls) (hnext : t.nextId ≤ t'.nextId)
    (hcolumns : row'.callColumns = row.callColumns ∨ row'.inferenceCallId = none) :
    Untouched t t' := by
  refine ⟨hcalls, hnext, fun id₁ row₁ hrow₁ => ?_⟩
  rw [ht'] at hrow₁
  rcases Dict.of_lookup_set hrow₁ with ⟨rfl, rfl⟩ | ⟨-, hold⟩
  · exact ⟨row, hrow, hcolumns⟩
  · exact ⟨row₁, hold, .inl rfl⟩

/-- What is reported is none of the calls. -/
theorem Effect.untouched {report : Report} (h : Effect t (some report) t') : Untouched t t' := by
  cases h with
  | leased _ _ hrow => exact untouched_set hrow rfl rfl (Nat.le_succ _) (.inl rfl)
  | exhausted _ hrow => exact untouched_set hrow rfl rfl le_rfl (.inl rfl)
  | committed _ _ hrow =>
    exact untouched_set hrow.found rfl rfl (Nat.le_add_right _ _) (.inl rfl)
  | reused _ _ hrow =>
    exact untouched_set hrow.found rfl rfl ((Nat.le_succ _).trans (Nat.le_add_right _ _))
      (.inr rfl)
  | failed _ _ _ _ _ hrow =>
    unfold retryOrFailRow
    split_ifs <;> exact untouched_set hrow.found rfl rfl le_rfl (.inl rfl)
  | gated causal now =>
    refine ⟨rfl, le_rfl, fun id row' hrow' => ?_⟩
    dsimp only [AnalysisTables.gated] at hrow'
    rw [Dict.lookup_mapValues] at hrow'
    obtain ⟨row, hrow, rfl⟩ := Option.map_eq_some_iff.mp hrow'
    refine ⟨row, hrow, .inl ?_⟩
    split_ifs <;> rfl
  | aggregated => exact ⟨rfl, le_rfl, fun _ row hrow => ⟨row, hrow, .inl rfl⟩⟩

theorem CallsOwned.untouched (h : t.CallsOwned) (hu : Untouched t t') : t'.CallsOwned := by
  have hcolumns : ∀ {id : ℕ} {row' : StageRunRecord} {callId : ℕ},
      t'.stageRuns.lookup id = some row' → row'.inferenceCallId = some callId → ∃ row,
        t.stageRuns.lookup id = some row ∧ row'.callColumns = row.callColumns := by
    intro id row' callId hrow' hcall
    obtain ⟨row, hrow, hcolumns | hnone⟩ := hu.rows id row' hrow'
    · exact ⟨row, hrow, hcolumns⟩
    · rw [hnone] at hcall
      cases hcall
  constructor
  case before =>
    rw [hu.calls]
    exact fun callId hmem => (h.before callId hmem).trans_le hu.next
  case called =>
    intro id row' callId hrow' hcall
    obtain ⟨row, hrow, heq⟩ := hcolumns hrow' hcall
    obtain ⟨hid, hmanifest⟩ := Prod.mk.inj heq
    rw [hu.calls, hmanifest]
    exact h.called id row callId hrow (hid ▸ hcall)
  case own =>
    intro id₁ id₂ row₁ row₂ callId hrow₁ hrow₂ hcall₁ hcall₂
    obtain ⟨row₁', hrow₁', heq₁⟩ := hcolumns hrow₁ hcall₁
    obtain ⟨row₂', hrow₂', heq₂⟩ := hcolumns hrow₂ hcall₂
    exact h.own id₁ id₂ row₁' row₂' callId hrow₁' hrow₂' ((Prod.mk.inj heq₁).1 ▸ hcall₁)
      ((Prod.mk.inj heq₂).1 ▸ hcall₂)

/-! ## What each transaction does -/

/-- A commit of a provider's result keeps the tables, or gives the result to the stage run of
the call. -/
theorem commitValidatedTargets_row {snapshot : AnalysisStageSnapshot}
    {started : StartedInferenceCall} {result : Option ValidatedTargetResult} {now : ℤ}
    {committed : AnalysisCommitResult}
    (h : t.commitValidatedTargets snapshot started result now = .ok (t', committed)) :
    t' = t ∨ ∃ row r, result = some r ∧ row.inferenceCallId = some started.inferenceCallId ∧
      t.stageRuns.lookup snapshot.target.stageRunId = some row ∧
        t'.stageRuns.lookup snapshot.target.stageRunId = some (row.succeed r now) := by
  unfold commitValidatedTargets at h
  cases result with
  | none => exact .inl (Prod.mk.inj (Except.ok.inj h)).1.symm
  | some r =>
    dsimp only at h
    cases hlock : (t.lockSnapshotTargets snapshot now (some [r.targetId])).filter
      (·.inferenceCallId = some started.inferenceCallId) with
    | none =>
      rw [hlock] at h
      exact .inl (Prod.mk.inj (Except.ok.inj h)).1.symm
    | some row =>
      rw [hlock] at h
      obtain ⟨⟨t₁, negative⟩, hadd, h⟩ := bind_eq_ok.mp h
      obtain ⟨rfl, -⟩ := Prod.mk.inj (Except.ok.inj h)
      obtain ⟨rfl, -⟩ := addAssignments_eq_ok hadd
      obtain ⟨hlock, hcall⟩ := Option.filter_eq_some_iff.mp hlock
      exact .inr ⟨row, r, rfl, of_decide_eq_true hcall, (leased_of_lock hlock).1.found,
        Dict.lookup_set_self _ _ _⟩

/-- A commit of a cached result keeps the tables, or reuses the result of the source. -/
theorem commitCacheHit_row {snapshot : AnalysisStageSnapshot} {cacheKey : StageCacheKey}
    {hit : AnalysisCacheHit} {now : ℤ} {committed : AnalysisCommitResult}
    (h : t.commitCacheHit snapshot cacheKey hit now = .ok (t', committed)) :
    t' = t ∨ ∃ row source, t.stageRuns.lookup hit.sourceStageRunId = some source ∧
      t'.stageRuns.lookup snapshot.target.stageRunId = some row ∧
        row.Reuses hit.sourceStageRunId source := by
  unfold commitCacheHit at h
  cases hsource : (t.stageRuns.lookup hit.sourceStageRunId).filter
    (·.exactCacheSource cacheKey) with
  | none =>
    rw [hsource] at h
    exact .inl (Prod.mk.inj (Except.ok.inj h)).1.symm
  | some source =>
    rw [hsource] at h
    dsimp only at h
    cases hlock : t.lockSnapshotTargets snapshot now none with
    | none =>
      rw [hlock] at h
      exact .inl (Prod.mk.inj (Except.ok.inj h)).1.symm
    | some row =>
      rw [hlock] at h
      obtain ⟨⟨t₁, negative⟩, hadd, h⟩ := bind_eq_ok.mp h
      obtain ⟨rfl, -⟩ := Prod.mk.inj (Except.ok.inj h)
      obtain ⟨rfl, -⟩ := addAssignments_eq_ok hadd
      obtain ⟨hsource, hexact⟩ := Option.filter_eq_some_iff.mp hsource
      simp only [StageRunRecord.exactCacheSource, Bool.and_eq_true, decide_eq_true_eq] at hexact
      obtain ⟨⟨⟨⟨hstatus, hresult⟩, hvalue⟩, hpolicy⟩, hscope⟩ := hexact
      obtain ⟨result, hresult⟩ := Option.isSome_iff_exists.mp hresult
      refine .inr ⟨_, source, hsource, Dict.lookup_set_self _ _ _, rfl, hstatus, rfl, rfl, ?_, ?_⟩
      · simp [StageRunRecord.cacheColumns, StageRunRecord.reuse, StageRunRecord.clearStageLease,
          hvalue, hpolicy, hscope]
      · rw [StageRunRecord.labels, StageRunRecord.labels, hresult]
        rfl

/-- A call that starts is new, pending, and the one of its stage run. -/
theorem startInference_call (snapshot : AnalysisStageSnapshot) (cacheKey : Option StageCacheKey)
    (now : ℤ) :
    t.startInference snapshot cacheKey now = (t, none) ∨ ∃ row row' call t',
      t.startInference snapshot cacheKey now = (t', some ⟨t.nextId + 1, t.nextId⟩) ∧
        t.Leased snapshot.target.stageRunId snapshot.target.leaseToken row ∧
        row'.callColumns = (some (t.nextId + 1), some t.nextId) ∧ row'.status = .running ∧
        call.status = .pending ∧ call.inputManifestId = t.nextId ∧
        t'.stageRuns = t.stageRuns.set snapshot.target.stageRunId row' ∧
        t'.inferenceCalls = t.inferenceCalls.set (t.nextId + 1) call ∧
        t'.nextId = t.nextId + 2 := by
  unfold startInference
  cases hlock : t.lockSnapshotTargets snapshot now none with
  | none => exact .inl rfl
  | some row =>
    have hleased := (leased_of_lock hlock).1
    exact .inr ⟨row, row.start t.nextId (t.nextId + 1) snapshot.stage.cachePolicy cacheKey, _, _,
      rfl, hleased, rfl, hleased.running, rfl, rfl, rfl, rfl, rfl⟩

theorem CallsOwned.lt_nextId (h : t.CallsOwned) {callId : ℕ} {call : InferenceCallRecord}
    (hcall : t.inferenceCalls.lookup callId = some call) : callId < t.nextId :=
  h.before _ (Dict.mem_keys.mpr ⟨_, Dict.mem_of_lookup hcall⟩)

/-- A new call keeps the others. -/
theorem CallsOwned.lookup_of_start (h : t.CallsOwned) {call₀ : InferenceCallRecord}
    (hcalls : t'.inferenceCalls = t.inferenceCalls.set (t.nextId + 1) call₀)
    {callId : ℕ} {call : InferenceCallRecord} (hcall : t.inferenceCalls.lookup callId = some call) :
    t'.inferenceCalls.lookup callId = some call := by
  rw [hcalls, Dict.lookup_set_of_ne ((h.lt_nextId hcall).trans (Nat.lt_succ_self _)).ne]
  exact hcall

/-- A new call, for one stage run. -/
theorem CallsOwned.start (h : t.CallsOwned) {id : ℕ} {row : StageRunRecord}
    {call : InferenceCallRecord} (hcolumns : row.callColumns = (some (t.nextId + 1), some t.nextId))
    (hmanifest : call.inputManifestId = t.nextId) (hrows : t'.stageRuns = t.stageRuns.set id row)
    (hcalls : t'.inferenceCalls = t.inferenceCalls.set (t.nextId + 1) call)
    (hnext : t'.nextId = t.nextId + 2) : t'.CallsOwned := by
  obtain ⟨hid, hinput⟩ := Prod.mk.inj hcolumns
  have hstranger : ∀ {id : ℕ} {row₁ : StageRunRecord},
      t.stageRuns.lookup id = some row₁ → row₁.inferenceCallId ≠ some (t.nextId + 1) := by
    intro id row₁ hrow₁ hcall₁
    obtain ⟨call₁, hfound, -⟩ := h.called id row₁ _ hrow₁ hcall₁
    exact absurd (h.lt_nextId hfound) (by omega)
  refine ⟨?_, ?_, ?_⟩
  · intro callId hmem
    rw [hcalls] at hmem
    rw [hnext]
    rcases Dict.mem_keys_set.mp hmem with rfl | hmem
    · exact Nat.lt_succ_self _
    · exact (h.before _ hmem).trans_le (Nat.le_add_right _ _)
  · intro id row₁ callId hrow₁ hcall₁
    rw [hrows] at hrow₁
    rcases Dict.of_lookup_set hrow₁ with ⟨-, rfl⟩ | ⟨-, hrow₁⟩
    · obtain rfl := Option.some.inj (hid.symm.trans hcall₁)
      exact ⟨call, by rw [hcalls, Dict.lookup_set_self], by rw [hinput, hmanifest]⟩
    · obtain ⟨call₁, hfound, hmanifest₁⟩ := h.called id row₁ callId hrow₁ hcall₁
      exact ⟨call₁, h.lookup_of_start hcalls hfound, hmanifest₁⟩
  · intro id₁ id₂ row₁ row₂ callId hrow₁ hrow₂ hcall₁ hcall₂
    rw [hrows] at hrow₁ hrow₂
    rcases Dict.of_lookup_set hrow₁ with ⟨rfl, rfl⟩ | ⟨-, hold₁⟩ <;>
      rcases Dict.of_lookup_set hrow₂ with ⟨rfl, rfl⟩ | ⟨-, hold₂⟩
    · rfl
    · obtain rfl := Option.some.inj (hid.symm.trans hcall₁)
      exact absurd hcall₂ (hstranger hold₂)
    · obtain rfl := Option.some.inj (hid.symm.trans hcall₂)
      exact absurd hcall₁ (hstranger hold₁)
    · exact h.own id₁ id₂ row₁ row₂ callId hold₁ hold₂ hcall₁ hcall₂

end AnalysisTables

/-! ## Workers -/

namespace AnalysisWorker

/-- The call that a worker waits for, or is to record. -/
def Work.awaits : Work → Option StartedInferenceCall
  | .invoke _ started => some started
  | .recordFailure _ started _ => some started
  | .recordSuccess _ started _ => some started
  | _ => none

/-- The call whose result a worker is to commit. -/
def Work.commitsCall : Work → Option StartedInferenceCall
  | .commitTargets _ started _ => some started
  | _ => none

/-- A work that has to do with no call. -/
def Work.Uncalled (w : Work) : Prop :=
  w.awaits = none ∧ w.commitsCall = none ∧ w.result = none

/-- What a worker with a call knows. -/
structure Work.Traced (answered : List ResolvedLabel → Prop) (t : AnalysisTables) (w : Work) :
    Prop where
  pending : ∀ started, w.awaits = some started → (t.pendingCall started).isSome
  recorded : ∀ started, w.commitsCall = some started → ∃ call,
    t.inferenceCalls.lookup started.inferenceCallId = some call ∧ call.status = .succeeded
  answered : ∀ result, w.result = some result → answered result.labels

variable {answered : List ResolvedLabel → Prop} {t t' : AnalysisTables} {w : Work}

theorem Work.Uncalled.traced (hw : w.Uncalled) : w.Traced answered t :=
  ⟨fun _ h => (by rw [hw.1] at h; cases h), fun _ h => (by rw [hw.2.1] at h; cases h),
    fun _ h => (by rw [hw.2.2] at h; cases h)⟩

/-- What a transaction of a worker does to calls and results. -/
structure Passed (answered : List ResolvedLabel → Prop) (t : AnalysisTables)
    (waited : Option StartedInferenceCall) (t' : AnalysisTables) (next : Option Work) : Prop where
  owned : t'.CallsOwned
  rows : t.RowsKept t'
  calls : t.CallsKept t'
  results : ∀ id row, t'.stageRuns.lookup id = some row → row.status = .succeeded →
    t.stageRuns.lookup id = some row ∨ AnalysisTables.Backed answered t' id
  traced : ∀ w', next = some w' → w'.Traced answered t'
  /-- the worker waits for the call that it waited for, or for a new one -/
  waits : ∀ w' started, next = some w' → w'.awaits = some started →
    waited = some started ∨ t.nextId ≤ started.inferenceCallId
  /-- the calls of the other workers stay pending -/
  others : ∀ started, (t.pendingCall started).isSome →
    (∀ own, waited = some own → own.inferenceCallId ≠ started.inferenceCallId) →
      (t'.pendingCall started).isSome

theorem pendingCall_eq_some {started : StartedInferenceCall} {call : InferenceCallRecord} :
    t.pendingCall started = some call ↔
      t.inferenceCalls.lookup started.inferenceCallId = some call ∧
        call.inputManifestId = started.inputManifestId ∧ call.status = .pending := by
  unfold AnalysisTables.pendingCall
  rw [Option.filter_eq_some_iff, Bool.and_eq_true, decide_eq_true_eq, decide_eq_true_eq]

theorem pendingCall_congr (h : t'.inferenceCalls = t.inferenceCalls)
    (started : StartedInferenceCall) : t'.pendingCall started = t.pendingCall started := by
  unfold AnalysisTables.pendingCall
  rw [h]

/-- A transaction that records no call. -/
theorem Passed.untouched (howned : t.CallsOwned) (hrows : t.RowsKept t')
    (hu : AnalysisTables.Untouched t t') (waited : Option StartedInferenceCall)
    {left : Option Work}
    (hresults : ∀ id row, t'.stageRuns.lookup id = some row → row.status = .succeeded →
      t.stageRuns.lookup id = some row ∨ AnalysisTables.Backed answered t' id)
    (hleft : ∀ w', left = some w' → w'.Uncalled) :
    Passed answered t waited t' left where
  owned := howned.untouched hu
  rows := hrows
  calls := .of_eq hu.calls
  results := hresults
  traced w' hw' := (hleft w' hw').traced
  waits := by
    intro w' started hw' hawaits
    rw [(hleft w' hw').1] at hawaits
    cases hawaits
  others := by
    intro started hpending _
    rwa [pendingCall_congr hu.calls]

/-- A step that leaves the tables. -/
theorem Passed.kept (howned : t.CallsOwned) (waited : Option StartedInferenceCall)
    {left : Option Work} (htraced : ∀ w', left = some w' → w'.Traced answered t)
    (hwaits : ∀ w' started, left = some w' → w'.awaits = some started →
      waited = some started) : Passed answered t waited t left where
  owned := howned
  rows _ := .same _
  calls := .of_eq rfl
  results _ _ hrow _ := .inl hrow
  traced := htraced
  waits w' started hw' hstarted := .inl (hwaits w' started hw' hstarted)
  others _ hpending _ := hpending

theorem Passed.refl (howned : t.CallsOwned) (waited : Option StartedInferenceCall)
    {left : Option Work} (hleft : ∀ w', left = some w' → w'.Uncalled) :
    Passed answered t waited t left :=
  .kept howned waited (fun w' hw' => (hleft w' hw').traced)
    (fun w' _ hw' hstarted => by rw [(hleft w' hw').1] at hstarted; cases hstarted)

theorem Passed.stopped (howned : t.CallsOwned) (waited : Option StartedInferenceCall) :
    Passed answered t waited t none :=
  .refl howned waited fun _ hw' => by cases hw'

/-- A transaction that reports, and commits nothing but what goes back to a call. -/
theorem Passed.effect (howned : t.CallsOwned) {report : AnalysisTables.Report}
    (he : AnalysisTables.Effect t (some report) t') (waited : Option StartedInferenceCall)
    {left : Option Work}
    (hcommitted : ∀ id leaseToken mode source negative,
      report = .committed id leaseToken mode source negative →
        AnalysisTables.Backed answered t' id)
    (hleft : ∀ w', left = some w' → w'.Uncalled) :
    Passed answered t waited t' left := by
  refine .untouched howned he.rowsKept he.untouched waited (fun id row hrow hstatus => ?_) hleft
  rcases he.succeeded hrow hstatus with hold | ⟨leaseToken, mode, source, negative, hreport⟩
  · exact .inl hold
  · exact .inr (hcommitted id _ _ _ _ (Option.some.inj hreport))

/-- The end of a pending call. -/
theorem Passed.recorded (howned : t.CallsOwned) {started : StartedInferenceCall}
    {call call' : InferenceCallRecord} (hcall : t.pendingCall started = some call)
    (hmanifest : call'.inputManifestId = call.inputManifestId) {w' : Work}
    (hw' : w'.Traced answered
      { t with inferenceCalls := t.inferenceCalls.set started.inferenceCallId call' })
    (hawaits : w'.awaits = none) :
    Passed answered t (some started)
      { t with inferenceCalls := t.inferenceCalls.set started.inferenceCallId call' }
      (some w') := by
  generalize ht' : ({ t with
    inferenceCalls := t.inferenceCalls.set started.inferenceCallId call' } : AnalysisTables) = t'
    at hw' ⊢
  obtain ⟨hfound, -, hpending⟩ := pendingCall_eq_some.mp hcall
  have hother : ∀ {callId : ℕ}, callId ≠ started.inferenceCallId →
      t'.inferenceCalls.lookup callId = t.inferenceCalls.lookup callId := by
    intro callId hne
    rw [← ht', Dict.lookup_set_of_ne hne]
  have hself : t'.inferenceCalls.lookup started.inferenceCallId = some call' := by
    rw [← ht', Dict.lookup_set_self]
  have hcalls : t.CallsKept t' := by
    intro callId call₁ hcall₁
    by_cases hid : callId = started.inferenceCallId
    · subst hid
      obtain rfl := Option.some.inj (hfound.symm.trans hcall₁)
      exact ⟨call', hself, hmanifest, fun hne => absurd hpending hne⟩
    · exact ⟨call₁, (hother hid).trans hcall₁, rfl, fun _ => rfl⟩
  have hrows : t'.stageRuns = t.stageRuns := by rw [← ht']
  refine ⟨⟨?_, ?_, ?_⟩, ?_, hcalls, ?_, ?_, ?_, ?_⟩
  · intro callId hmem
    rw [← ht'] at hmem ⊢
    rcases Dict.mem_keys_set.mp hmem with rfl | hmem
    · exact howned.before _ (Dict.mem_keys.mpr ⟨_, Dict.mem_of_lookup hfound⟩)
    · exact howned.before _ hmem
  · intro id row callId hrow hid
    obtain ⟨call₁, hcall₁, hmanifest₁⟩ := howned.called id row callId (hrows ▸ hrow) hid
    obtain ⟨call₂, hcall₂, hmanifest₂, -⟩ := hcalls callId call₁ hcall₁
    exact ⟨call₂, hcall₂, hmanifest₂ ▸ hmanifest₁⟩
  · rw [hrows]
    exact howned.own
  · intro id
    rw [hrows]
    exact .same _
  · intro id row hrow _
    exact .inl (hrows ▸ hrow)
  · exact fun w₁ hw₁ => Option.some.inj hw₁ ▸ hw'
  · intro w₁ started' hw₁ hsome
    rw [← Option.some.inj hw₁, hawaits] at hsome
    cases hsome
  · intro started' hsome hne
    obtain ⟨call₁, hcall₁⟩ := Option.isSome_iff_exists.mp hsome
    rw [Option.isSome_iff_exists]
    refine ⟨call₁, pendingCall_eq_some.mpr ?_⟩
    rw [hother (hne started rfl).symm]
    exact pendingCall_eq_some.mp hcall₁

/-- The start of a call. -/
theorem Passed.started (howned : t.CallsOwned) (snapshot : AnalysisStageSnapshot)
    (cacheKey : Option StageCacheKey) (now : ℤ) (waited : Option StartedInferenceCall) :
    Passed answered t waited (t.startInference snapshot cacheKey now).1
      ((t.startInference snapshot cacheKey now).2.map (.invoke snapshot)) := by
  rcases AnalysisTables.startInference_call snapshot cacheKey now with hnone |
    ⟨row, row', call, t', hstart, hrow, hcolumns, hstatus, hpending, hmanifest, hrows, hcalls,
      hnext⟩
  · rw [hnone]
    exact .stopped howned waited
  rw [hstart]
  have hself : t'.inferenceCalls.lookup (t.nextId + 1) = some call := by
    rw [hcalls, Dict.lookup_set_self]
  have hkept : t.RowsKept t' := by
    have heffect := AnalysisTables.effect_startInference t snapshot cacheKey now
    rw [hstart] at heffect
    exact heffect.rowsKept
  refine ⟨howned.start hcolumns hmanifest hrows hcalls hnext, hkept, ?_, ?_, ?_, ?_, ?_⟩
  · exact fun callId call₁ hcall₁ =>
      ⟨call₁, howned.lookup_of_start hcalls hcall₁, rfl, fun _ => rfl⟩
  · intro id row₁ hrow₁ hsucceeded
    rw [hrows] at hrow₁
    rcases Dict.of_lookup_set hrow₁ with ⟨-, rfl⟩ | ⟨-, hrow₁⟩
    · rw [hstatus] at hsucceeded
      cases hsucceeded
    · exact .inl hrow₁
  · intro w' hw'
    obtain rfl := Option.some.inj hw'
    refine ⟨?_, nofun, nofun⟩
    intro started hstarted
    obtain rfl := Option.some.inj hstarted
    exact Option.isSome_iff_exists.mpr ⟨call, pendingCall_eq_some.mpr ⟨hself, hmanifest, hpending⟩⟩
  · intro w' started hw' hstarted
    obtain rfl := Option.some.inj hw'
    obtain rfl := Option.some.inj hstarted
    exact .inr (Nat.le_succ _)
  · intro started hsome _
    obtain ⟨call₁, hcall₁⟩ := Option.isSome_iff_exists.mp hsome
    obtain ⟨hfound, hrest⟩ := pendingCall_eq_some.mp hcall₁
    exact Option.isSome_iff_exists.mpr
      ⟨call₁, pendingCall_eq_some.mpr ⟨howned.lookup_of_start hcalls hfound, hrest⟩⟩

theorem forall_left {w' : Work} (h : w'.Uncalled) : ∀ w₁, some w' = some w₁ → w₁.Uncalled :=
  fun _ hw₁ => Option.some.inj hw₁ ▸ h

theorem uncalled_finish (snapshot : AnalysisStageSnapshot) (committed : AnalysisCommitResult) :
    (finish snapshot committed).Uncalled := by
  unfold finish
  split_ifs <;> exact ⟨rfl, rfl, rfl⟩

theorem uncalled_validated (snapshot : AnalysisStageSnapshot) (committed : AnalysisCommitResult)
    (validation : Except Failure ValidatedTargetResult) :
    (validated snapshot committed validation).Uncalled := by
  cases validation with
  | ok => exact uncalled_finish snapshot committed
  | error => exact ⟨rfl, rfl, rfl⟩

theorem passed_commitCacheHit (howned : t.CallsOwned)
    (hbacked : ∀ id row, t.stageRuns.lookup id = some row → row.status = .succeeded →
      AnalysisTables.Backed answered t id) {snapshot : AnalysisStageSnapshot}
    {cacheKey : StageCacheKey} {hit : AnalysisCacheHit} (waited : Option StartedInferenceCall)
    {now : ℤ} {left : Option Work}
    (h : transact t now (.commitCacheHit snapshot cacheKey hit) = some (t', left)) :
    Passed answered t waited t' left := by
  dsimp only [transact] at h
  split at h
  · obtain ⟨rfl, rfl⟩ := Prod.mk.inj (Option.some.inj h)
    exact .stopped howned _
  next t₁ committed hcall =>
  obtain ⟨rfl, rfl⟩ := Prod.mk.inj (Option.some.inj h)
  have hleft := forall_left (uncalled_finish snapshot committed)
  rcases AnalysisTables.commitCacheHit_row hcall with
    rfl | ⟨row, source, hsource, hrow, hreuses⟩
  · exact .refl howned _ hleft
  rcases AnalysisTables.effect_commitCacheHit hcall with ⟨rfl, -⟩ | ⟨heffect, -⟩
  · exact .refl howned _ hleft
  refine .effect howned heffect _ ?_ hleft
  rintro id _ _ _ _ ⟨⟩
  have hlater := heffect.rowsKept.inactive hsource (by rw [hreuses.source_status]; rfl)
  exact .reused ⟨row, source, hrow, hlater, hreuses⟩ ((hbacked _ source hsource
    hreuses.source_status).later heffect.rowsKept (.of_eq heffect.untouched.calls))

theorem passed_commitTargets (howned : t.CallsOwned) {snapshot : AnalysisStageSnapshot}
    {started : StartedInferenceCall} {validation : Except Failure ValidatedTargetResult}
    (hrecorded : ∃ call, t.inferenceCalls.lookup started.inferenceCallId = some call ∧
      call.status = .succeeded)
    (hanswered : ∀ result, validation.toOption = some result → answered result.labels)
    (waited : Option StartedInferenceCall) {now : ℤ} {left : Option Work}
    (h : transact t now (.commitTargets snapshot started validation) = some (t', left)) :
    Passed answered t waited t' left := by
  dsimp only [transact] at h
  split at h
  · obtain ⟨rfl, rfl⟩ := Prod.mk.inj (Option.some.inj h)
    exact .stopped howned _
  next t₁ committed hcall =>
  obtain ⟨rfl, rfl⟩ := Prod.mk.inj (Option.some.inj h)
  have hleft := forall_left (uncalled_validated snapshot committed validation)
  rcases AnalysisTables.commitValidatedTargets_row hcall with
    rfl | ⟨row, r, hresult, hid, hrow, hrow'⟩
  · exact .refl howned _ hleft
  rcases AnalysisTables.effect_commitValidatedTargets hcall with ⟨rfl, -⟩ | ⟨heffect, -⟩
  · exact .refl howned _ hleft
  refine .effect howned heffect _ ?_ hleft
  rintro id _ _ _ _ ⟨⟩
  obtain ⟨call, hfound, hsucceeded⟩ := hrecorded
  obtain ⟨call₁, hfound₁, hmanifest⟩ := howned.called _ row _ hrow hid
  obtain rfl := Option.some.inj (hfound.symm.trans hfound₁)
  refine ⟨_, row.succeed r now, started.inferenceCallId, call, r.labels, .refl, hrow', ?_,
    hanswered r hresult⟩
  exact ⟨rfl, rfl, congrArg₂ Prod.mk hid hmanifest, heffect.untouched.calls ▸ hfound, hsucceeded,
    rfl⟩

/-- What every transaction of a worker does. -/
theorem transact_passed (howned : t.CallsOwned) (hw : w.Traced answered t)
    (hbacked : ∀ id row, t.stageRuns.lookup id = some row → row.status = .succeeded →
      AnalysisTables.Backed answered t id)
    {now : ℤ} {left : Option Work} (h : transact t now w = some (t', left)) :
    Passed answered t w.awaits t' left := by
  cases w with
  | prepare claim => cases h
  | invoke snapshot started => cases h
  | failClaim claim failure =>
    dsimp only [transact] at h
    rcases AnalysisTables.effect_retryOrFailClaim t claim failure.code failure.errorType
      failure.retryable (now + claimDelay claim) now with hcall | ⟨t₁, hcall, heffect⟩
    all_goals
      rw [hcall] at h
      obtain ⟨rfl, rfl⟩ := Prod.mk.inj (Option.some.inj h)
    · exact .refl howned _ (forall_left ⟨rfl, rfl, rfl⟩)
    · exact .effect howned heffect _ nofun (forall_left ⟨rfl, rfl, rfl⟩)
  | findCacheHit snapshot cacheKey =>
    dsimp only [transact] at h
    split at h <;> obtain ⟨rfl, rfl⟩ := Prod.mk.inj (Option.some.inj h) <;>
      exact .refl howned _ (forall_left ⟨rfl, rfl, rfl⟩)
  | commitCacheHit snapshot cacheKey hit => exact passed_commitCacheHit howned hbacked _ h
  | startInference snapshot cacheKey =>
    obtain ⟨rfl, rfl⟩ := Prod.mk.inj (Option.some.inj h)
    exact .started howned snapshot cacheKey now _
  | recordFailure snapshot started failure =>
    obtain ⟨rfl, rfl⟩ := Prod.mk.inj (Option.some.inj h)
    obtain ⟨call, hcall⟩ := Option.isSome_iff_exists.mp (hw.pending started rfl)
    rw [AnalysisTables.recordInferenceFailure, hcall]
    refine .recorded howned hcall ?_ ?_ ?_
    · rfl
    · exact Work.Uncalled.traced ⟨rfl, rfl, rfl⟩
    · rfl
  | failTargets snapshot failure =>
    dsimp only [transact] at h
    rcases AnalysisTables.effect_retryOrFailTargets t snapshot snapshot.target.targetId
      failure.code failure.errorType failure.retryable (now + retryDelay snapshot) now with
      hcall | ⟨t₁, hcall, heffect⟩
    all_goals
      rw [hcall] at h
      obtain ⟨rfl, rfl⟩ := Prod.mk.inj (Option.some.inj h)
    · exact .refl howned _ (forall_left ⟨rfl, rfl, rfl⟩)
    · exact .effect howned heffect _ nofun (forall_left ⟨rfl, rfl, rfl⟩)
  | recordSuccess snapshot started validation =>
    obtain ⟨rfl, rfl⟩ := Prod.mk.inj (Option.some.inj h)
    obtain ⟨call, hcall⟩ := Option.isSome_iff_exists.mp (hw.pending started rfl)
    rw [AnalysisTables.recordInferenceSuccess, hcall]
    refine .recorded howned hcall ?_ ⟨nofun, ?_, hw.answered⟩ ?_
    · rfl
    · intro started' hstarted
      obtain rfl := Option.some.inj hstarted
      exact ⟨_, Dict.lookup_set_self _ _ _, rfl⟩
    · rfl
  | commitTargets snapshot started validation =>
    exact passed_commitTargets howned (hw.recorded started rfl) hw.answered _ h
  | applyGate snapshot assignments =>
    obtain ⟨rfl, rfl⟩ := Prod.mk.inj (Option.some.inj h)
    rcases AnalysisTables.effect_applyNegativeGate t snapshot.claim.analysisRunId assignments now
      with hcall | ⟨run, hrun, hcall⟩ <;> rw [hcall]
    · exact .refl howned _ (forall_left ⟨rfl, rfl, rfl⟩)
    · exact .effect howned (.gated _ now hrun) _ nofun (forall_left ⟨rfl, rfl, rfl⟩)
  | completeRun claim ended =>
    obtain ⟨rfl, rfl⟩ := Prod.mk.inj (Option.some.inj h)
    rcases AnalysisTables.effect_completeAnalysisRun t claim.analysisRunId now with
      hcall | ⟨t₁, hcall, heffect⟩ <;> rw [hcall]
    · exact .stopped howned _
    · exact .effect howned heffect _ (fun _ _ _ _ _ hreport => by cases hreport)
        (fun _ hw' => by cases hw')

/-! ## Runs of the workers -/

/-- Every result goes back to a recorded call, and the workers that wait for a call, or are to
record one, have pending calls of their own. -/
structure Traced (answered : List ResolvedLabel → Prop) (s : State) : Prop where
  inv : Inv s
  owned : s.tables.CallsOwned
  results : ∀ id row, s.tables.stageRuns.lookup id = some row → row.status = .succeeded →
    AnalysisTables.Backed answered s.tables id
  workers : ∀ name w, s.work name = some w → w.Traced answered s.tables
  apart : ∀ name name' w w' started started', s.work name = some w → s.work name' = some w' →
    w.awaits = some started → w'.awaits = some started' →
      started.inferenceCallId = started'.inferenceCallId → name = name'

variable {s s' : State} {a : Action}

theorem uncalled_prepared (claim : ClaimedAnalysisStageRun) (preparation : Preparation) :
    (prepared t claim preparation).Uncalled := by
  unfold prepared
  split <;> exact ⟨rfl, rfl, rfl⟩

theorem passed_claim (howned : t.CallsOwned) (stageRunId : ℕ) (now leaseDuration : ℤ) :
    Passed answered t none (t.claim stageRunId now leaseDuration).1
      ((t.claim stageRunId now leaseDuration).2.map .prepare) := by
  rcases AnalysisTables.claim_cases t stageRunId now leaseDuration with
    hclaim | ⟨row, run, hrow, hdue, hrun, hopen, ⟨-, hclaim⟩ | ⟨hlt, hclaim⟩⟩ <;> rw [hclaim]
  · exact .stopped howned _
  · have heffect := AnalysisTables.Effect.exhausted now hrow
      (StageRunRecord.isActive_of_due hdue) hrun hopen
    exact .effect howned heffect _ (fun _ _ _ _ _ hreport => by cases hreport)
      (fun _ hw' => by cases hw')
  · have heffect := AnalysisTables.Effect.leased now leaseDuration hrow
      (StageRunRecord.isActive_of_due hdue) hrun hopen hlt
    exact .effect howned heffect _ (fun _ _ _ _ _ hreport => by cases hreport)
      (forall_left ⟨rfl, rfl, rfl⟩)

/-- A worker whose provider has answered. -/
theorem traced_answered {snapshot : AnalysisStageSnapshot} {started : StartedInferenceCall}
    {invocation : Invocation} (hpending : (t.pendingCall started).isSome)
    (hvalid : ∀ labels, invocation = .valid labels → answered labels) :
    (AnalysisWorker.answered snapshot started invocation).Traced answered t := by
  cases invocation with
  | failed failure =>
    refine ⟨fun _ h => Option.some.inj h ▸ hpending, ?_, ?_⟩ <;> rintro _ ⟨⟩
  | valid labels =>
    refine ⟨fun _ h => Option.some.inj h ▸ hpending, ?_, ?_⟩ <;> rintro _ ⟨⟩
    exact hvalid labels rfl
  | invalid =>
    refine ⟨fun _ h => Option.some.inj h ▸ hpending, ?_, ?_⟩ <;> rintro _ ⟨⟩

/-- What a step does to calls and results. -/
theorem step_passed (h : Traced answered s)
    (hanswer : ∀ name labels, a = .answer name (.valid labels) → answered labels)
    (hstep : step s a = some s') :
    Passed answered s.tables ((s.work a.name).bind Work.awaits) s'.tables (s'.work a.name) := by
  cases a with
  | process name stageRunId now leaseDuration =>
    dsimp only [step] at hstep
    split_ifs at hstep with hname
    obtain rfl := Option.some.inj hstep
    have hwork : s.work name = none := by
      rw [State.work, Dict.lookup_eq_none.mpr hname, Option.map_none]
    dsimp only [Action.name]
    rw [work_leave, hwork]
    exact passed_claim h.owned stageRunId now leaseDuration
  | prepare name preparation =>
    dsimp only [step] at hstep
    split at hstep
    · next now claim hlookup =>
      obtain rfl := Option.some.inj hstep
      dsimp only [Action.name]
      rw [work_leave]
      exact .refl h.owned _ (forall_left (uncalled_prepared claim preparation))
    · cases hstep
  | answer name invocation =>
    dsimp only [step] at hstep
    split at hstep
    · next now snapshot started hlookup =>
      obtain rfl := Option.some.inj hstep
      have hwork : s.work name = some (.invoke snapshot started) := by
        rw [State.work, hlookup, Option.map_some]
      dsimp only [Action.name]
      rw [work_leave, hwork]
      have hpending := (h.workers name _ hwork).pending started rfl
      refine .kept h.owned _ ?_ ?_
      · intro w' hw'
        obtain rfl := Option.some.inj hw'
        exact traced_answered hpending fun labels heq => hanswer name labels (heq ▸ rfl)
      · intro w' started' hw' hstarted
        obtain rfl := Option.some.inj hw'
        cases invocation <;> exact hstarted
    · cases hstep
  | proceed name =>
    obtain ⟨⟨now, w⟩, hlookup, hstep⟩ := Option.bind_eq_some_iff.mp hstep
    obtain ⟨⟨tables, left⟩, htransact, rfl⟩ := Option.map_eq_some_iff.mp hstep
    have hwork : s.work name = some w := by rw [State.work, hlookup, Option.map_some]
    dsimp only [Action.name]
    rw [work_leave, hwork]
    exact transact_passed h.owned (h.workers name w hwork) h.results htransact
  | crash name =>
    obtain rfl := Option.some.inj hstep
    dsimp only [Action.name]
    rw [work_leave]
    exact .stopped h.owned _

theorem Traced.step (h : Traced answered s)
    (hanswer : ∀ name labels, a = .answer name (.valid labels) → answered labels)
    (hstep : step s a = some s') : Traced answered s' := by
  have hpassed := step_passed h hanswer hstep
  have hothers := (step_cases h.inv hstep).1
  have hknown : ∀ name w started, s.work name = some w → w.awaits = some started →
      started.inferenceCallId < s.tables.nextId := by
    intro name w started hw hstarted
    obtain ⟨call, hcall⟩ :=
      Option.isSome_iff_exists.mp ((h.workers name w hw).pending started hstarted)
    exact h.owned.before _ (Dict.mem_keys.mpr
      ⟨_, Dict.mem_of_lookup (pendingCall_eq_some.mp hcall).1⟩)
  -- a call of the worker that acts is not one of another worker
  have hapart : ∀ name w w' started started', name ≠ a.name → s.work name = some w →
      s'.work a.name = some w' → w.awaits = some started → w'.awaits = some started' →
        started'.inferenceCallId ≠ started.inferenceCallId := by
    intro name w w' started started' hne hw hw' hstarted hstarted' heq
    rcases hpassed.waits w' started' hw' hstarted' with hsame | hnew
    · obtain ⟨w₀, hw₀, hstarted₀⟩ := Option.bind_eq_some_iff.mp hsame
      exact hne (h.apart name a.name w w₀ started started' hw hw₀ hstarted hstarted₀ heq.symm)
    · exact absurd (hknown name w started hw hstarted) (by omega)
  constructor
  case inv => exact h.inv.step hstep
  case owned => exact hpassed.owned
  case results =>
    intro id row hrow hsucceeded
    rcases hpassed.results id row hrow hsucceeded with hold | hnew
    · exact (h.results id row hold hsucceeded).later hpassed.rows hpassed.calls
    · exact hnew
  case workers =>
    intro name w hw
    by_cases hname : name = a.name
    · subst hname
      exact hpassed.traced w hw
    rw [hothers name hname] at hw
    have htraced := h.workers name w hw
    refine ⟨fun started hstarted => ?_, fun started hstarted => ?_, htraced.answered⟩
    · refine hpassed.others started (htraced.pending started hstarted) fun own hown heq => ?_
      obtain ⟨w₀, hw₀, hown₀⟩ := Option.bind_eq_some_iff.mp hown
      exact hname (h.apart name a.name w w₀ started own hw hw₀ hstarted hown₀ heq.symm)
    · obtain ⟨call, hfound, hsucceeded⟩ := htraced.recorded started hstarted
      exact ⟨call, hpassed.calls.ended hfound hsucceeded, hsucceeded⟩
  case apart =>
    intro name name' w w' started started' hw hw' hstarted hstarted' heq
    by_cases hname : name = a.name <;> by_cases hname' : name' = a.name
    · rw [hname, hname']
    · rw [hothers name' hname'] at hw'
      exact absurd heq (hapart name' w' w started' started hname' hw' (hname ▸ hw) hstarted'
        hstarted)
    · rw [hothers name hname] at hw
      exact absurd heq.symm (hapart name w w' started started' hname hw (hname' ▸ hw') hstarted
        hstarted')
    · rw [hothers name hname] at hw
      rw [hothers name' hname'] at hw'
      exact h.apart name name' w w' started started' hw hw' hstarted hstarted' heq

/-- In every order of the steps of the workers, each result goes back, through the results that
it was reused from, to a stage run with the same cache key and the same labels, whose own
inference call is recorded as succeeded, and the labels are those of a valid answer. -/
theorem results_answered (hstart : Start s) (howned : s.tables.CallsOwned)
    {actions : List Action} (hrun : Runs.run step s actions = some s') {id : ℕ}
    {row : StageRunRecord} (hrow : s'.tables.stageRuns.lookup id = some row)
    (hsucceeded : row.status = .succeeded) :
    ∃ originId origin callId call labels,
      Relation.ReflTransGen s'.tables.ReusedFrom id originId ∧
        s'.tables.stageRuns.lookup originId = some origin ∧
        s'.tables.InferredBy origin callId call labels ∧
        row.labels = some labels ∧ row.cacheColumns = origin.cacheColumns ∧
        (∀ id' row', s'.tables.stageRuns.lookup id' = some row' →
          row'.inferenceCallId = some callId → id' = originId) ∧
        ∃ name, Action.answer name (.valid labels) ∈ actions := by
  have htraced : Traced (fun labels => ∃ name, Action.answer name (.valid labels) ∈ actions) s := by
    refine ⟨inv_of_start hstart, howned, fun id row hrow hsucceeded => ?_, ?_, ?_⟩
    · exact absurd hsucceeded (hstart.results id row hrow)
    · intro name w hw
      rw [State.work, hstart.workers] at hw
      cases hw
    · intro name name' w w' started started' hw
      rw [State.work, hstart.workers] at hw
      cases hw
  have hkept : ∀ s a s', Traced (fun labels => ∃ name, Action.answer name (.valid labels) ∈ actions)
      s → a ∈ actions → step s a = some s' → Traced _ s' :=
    fun s a s' h ha hstep => h.step (fun name labels heq => ⟨name, heq ▸ ha⟩) hstep
  have htraced' := Runs.run_invariant hkept htraced
    (Runs.along_of_mem (fun a ha _ => ha) s) hrun
  obtain ⟨originId, origin, callId, call, labels, hlinks, horigin, hinferred, hanswered⟩ :=
    htraced'.results id row hrow hsucceeded
  obtain ⟨hkey, hlabels⟩ := AnalysisTables.eq_of_reusedFrom hlinks hrow horigin
  refine ⟨originId, origin, callId, call, labels, hlinks, horigin, hinferred,
    hlabels.trans hinferred.result, hkey, fun id' row' hrow' hcall => ?_, hanswered⟩
  exact htraced'.owned.own originId id' origin row' callId horigin hrow'
    (Prod.mk.inj hinferred.columns).1 hcall

theorem owned_twoRuns (runMode : RunMode) : (twoRuns runMode).tables.CallsOwned := by
  have hnone : ∀ {id : ℕ} {row : StageRunRecord},
      (twoRuns runMode).tables.stageRuns.lookup id = some row → row.inferenceCallId = none := by
    intro id row hrow
    rcases List.mem_pair.mp (Dict.mem_of_lookup hrow) with h | h <;>
      obtain ⟨-, rfl⟩ := Prod.mk.inj h <;> rfl
  refine ⟨fun _ hmem => absurd hmem List.not_mem_nil, ?_, ?_⟩
  · intro id row callId hrow hcall
    rw [hnone hrow] at hcall
    cases hcall
  · intro id id' row row' callId hrow _ hcall
    rw [hnone hrow] at hcall
    cases hcall

/-- The second run reuses the result of the first. -/
theorem reuse_commits :
    ∃ s row, Runs.run step (twoRuns .formal) (reuse ++ [.proceed 1]) = some s ∧
      s.tables.stageRuns.lookup 5 = some row ∧ row.status = .succeeded ∧
        row.resultOrigin = some .cache :=
  ⟨_, _, rfl, rfl, rfl, rfl⟩

theorem results_answered_reuse :
    ∃ s row originId origin, Runs.run step (twoRuns .formal) (reuse ++ [.proceed 1]) = some s ∧
      s.tables.stageRuns.lookup 5 = some row ∧ row.resultOrigin = some .cache ∧
        Relation.ReflTransGen s.tables.ReusedFrom 5 originId ∧
          s.tables.stageRuns.lookup originId = some origin ∧
            origin.resultOrigin = some .inference ∧ row.labels = origin.labels := by
  obtain ⟨s, row, hrun, hrow, hsucceeded, hcache⟩ := reuse_commits
  obtain ⟨originId, origin, callId, call, labels, hlinks, horigin, hinferred, hlabels, -⟩ :=
    results_answered (start_twoRuns .formal) (owned_twoRuns .formal) hrun hrow hsucceeded
  exact ⟨s, row, originId, origin, hrun, hrow, hcache, hlinks, horigin, hinferred.origin,
    hlabels.trans hinferred.result.symm⟩

end AnalysisWorker

end TgCurator
