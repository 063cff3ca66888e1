import TgCurator.Analysis.Worker
import TgCurator.Inference.Execution

/-!
# Retries and failures

What a worker does with a failure: a stage run that it gives up has used its attempts or failed
for a reason that a retry does not mend (`Inference.Permanent`), and a stage run that waits for
a retry has attempts left and waits for the backoff of the attempt that failed (`Settled`).

The delay is computed from the attempt count in the claim of the worker. While a row has the
lease of a claim, that is the count of the row (`Work.Bound.attempt`), since each lease has a new
token (`TokensKnown`). So `failures_settled` holds in every order of the steps of the workers.
-/

namespace TgCurator

/-! ## Providers -/

namespace Inference

/-- The providers of the program. -/
inductive Provided : Option InferenceProvider → Prop
  | none : Provided none
  | unavailable : Provided (some unavailableInfer)
  | openAICompatible (provider : OpenAICompatibleInferenceProvider) :
    Provided (some provider.infer)

/-- A failure of a call that is not retried is one of the listed. -/
theorem permanent_of_invoke {provider : Option InferenceProvider} {prepared : PreparedAnalysisCall}
    {failure : AnalysisExecutionFailure} (hprovider : Provided provider)
    (h : invoke provider prepared = .error failure) (hretryable : failure.retryable = false) :
    Permanent failure.code failure.errorType := by
  cases hprovider with
  | none =>
    rw [← Except.error.inj h] at hretryable
    cases hretryable
  | unavailable =>
    rw [← Except.error.inj h] at hretryable
    cases hretryable
  | openAICompatible provider =>
    dsimp only [invoke] at h
    split at h
    · cases h
    · next f hinfer =>
      rw [← Except.error.inj h] at hretryable ⊢
      exact OpenAICompatibleInferenceProvider.permanent_of_infer hinfer hretryable
    · rw [← Except.error.inj h] at hretryable
      cases hretryable

end Inference

/-! ## Rows -/

/-- The delay of a retry after some attempts: `_fail_claim` before the call is started, and
`_retry_at` with the policy of the stage version after. -/
def Backoff (versions : Dict ℕ AnalysisStageTemplateVersionRecord) (row : StageRunRecord)
    (delay : ℤ) : Prop :=
  delay = min 300 (5 * 2 ^ (row.attemptCount - 1)) ∨
    ∃ version, versions.lookup row.analysisStageTemplateVersionId = some version ∧
      delay = min version.retryPolicy.maxDelaySeconds
        (version.retryPolicy.baseDelaySeconds * 2 ^ (row.attemptCount - 1))

/-- The last error of a row is one that is not retried. -/
def StageRunRecord.FailedForGood (row : StageRunRecord) : Prop :=
  ∃ code errorType, Inference.Permanent code errorType ∧
    row.lastErrorCode = some (sanitizeErrorCode (some code.value)) ∧
    row.lastErrorType = some (sanitizeErrorType (some errorType))

/-- What a row that failed, or waits for a retry, tells. -/
structure Settled (versions : Dict ℕ AnalysisStageTemplateVersionRecord) (row : StageRunRecord) :
    Prop where
  failed : row.status = .failed → row.maxAttempts ≤ row.attemptCount ∨ row.FailedForGood
  waits : row.status = .retryWait → row.attemptCount < row.maxAttempts ∧
    ∃ failedAt delay, row.lastFailureAt = some failedAt ∧ Backoff versions row delay ∧
      row.nextRetryAt = some (failedAt + delay)

variable {versions : Dict ℕ AnalysisStageTemplateVersionRecord} {row : StageRunRecord}

theorem settled_of_status (status : StageRunStatus) (hstatus : row.status = status)
    (hfailed : status ≠ .failed) (hwaits : status ≠ .retryWait) : Settled versions row :=
  ⟨fun h => absurd (hstatus.symm.trans h) hfailed, fun h => absurd (hstatus.symm.trans h) hwaits⟩

theorem settled_exhaust (hattempts : row.maxAttempts ≤ row.attemptCount) (now : ℤ) :
    Settled versions (row.exhaust now) :=
  ⟨fun _ => .inl hattempts, nofun⟩

/-- A failure is retried after the backoff, or is for good. -/
theorem settled_retryOrFail {code errorType : String} {retryable : Bool} {delay now : ℤ}
    (hdelay : Backoff versions row delay)
    (hpermanent : retryable = false → ∃ code', Inference.Permanent code' errorType ∧
      code = code'.value) :
    Settled versions (if retryable && row.attemptCount < row.maxAttempts then
      row.retry code errorType (now + delay) now else row.fail code errorType retryable now) := by
  split_ifs with hretry
  · rw [Bool.and_eq_true, decide_eq_true_eq] at hretry
    exact ⟨nofun, fun _ => ⟨hretry.2, now, delay, rfl, hdelay, rfl⟩⟩
  · refine ⟨fun _ => ?_, nofun⟩
    cases retryable with
    | true => exact .inl (show row.maxAttempts ≤ row.attemptCount by simpa using hretry)
    | false =>
      obtain ⟨code', hcode, rfl⟩ := hpermanent rfl
      exact .inr ⟨code', errorType, hcode, rfl, rfl⟩

namespace AnalysisTables

variable {t t' : AnalysisTables}

/-- Every row is settled. -/
def AllSettled (t : AnalysisTables) : Prop :=
  ∀ id row, t.stageRuns.lookup id = some row → Settled t.stageVersions row

theorem AllSettled.set (h : t.AllSettled) {id : ℕ} {row' : StageRunRecord}
    (ht' : t'.stageRuns = t.stageRuns.set id row') (hversions : t'.stageVersions = t.stageVersions)
    (hrow' : Settled t.stageVersions row') : t'.AllSettled := by
  intro id₁ row₁ hrow₁
  rw [ht'] at hrow₁
  rw [hversions]
  rcases Dict.of_lookup_set hrow₁ with ⟨-, rfl⟩ | ⟨-, hold⟩
  · exact hrow'
  · exact h id₁ row₁ hold

theorem settled_retryOrFailRow (h : t.AllSettled) {id : ℕ} {row : StageRunRecord}
    {code errorType : String} {retryable : Bool} {delay now : ℤ}
    (hdelay : Backoff t.stageVersions row delay)
    (hpermanent : retryable = false → ∃ code', Inference.Permanent code' errorType ∧
      code = code'.value) :
    (t.retryOrFailRow id row code errorType retryable (now + delay) now).AllSettled := by
  have hrow := @settled_retryOrFail _ _ code errorType retryable delay now hdelay hpermanent
  unfold retryOrFailRow
  split_ifs with hretry
  · rw [if_pos hretry] at hrow
    exact h.set rfl rfl hrow
  · rw [if_neg hretry] at hrow
    exact h.set rfl rfl hrow

/-- What a transaction does to the rows that are leased, or settled. -/
structure Keeps (t t' : AnalysisTables) : Prop where
  versions : t'.stageVersions = t.stageVersions
  next : t.nextId ≤ t'.nextId
  /-- a row has the lease it had, with its attempt, or none, or a new one -/
  leases : ∀ id row', t'.stageRuns.lookup id = some row' → ∃ row,
    t.stageRuns.lookup id = some row ∧
      row'.analysisStageTemplateVersionId = row.analysisStageTemplateVersionId ∧
        (row'.leaseToken = row.leaseToken ∧ row'.attemptCount = row.attemptCount ∨
          row'.leaseToken = none ∨ row'.leaseToken = some t.nextId ∧ t.nextId < t'.nextId)

theorem Keeps.of_rows (hrows : t'.stageRuns = t.stageRuns)
    (hversions : t'.stageVersions = t.stageVersions) (hnext : t'.nextId = t.nextId) : t.Keeps t' :=
  ⟨hversions, hnext.ge, fun _ row' hrow' => ⟨row', hrows ▸ hrow', rfl, .inl ⟨rfl, rfl⟩⟩⟩

theorem Keeps.refl (t : AnalysisTables) : t.Keeps t :=
  .of_rows rfl rfl rfl

theorem keeps_set {id : ℕ} {row row' : StageRunRecord} (hrow : t.stageRuns.lookup id = some row)
    (ht' : t'.stageRuns = t.stageRuns.set id row') (hversions : t'.stageVersions = t.stageVersions)
    (hnext : t.nextId ≤ t'.nextId) (hversion : row'.analysisStageTemplateVersionId =
      row.analysisStageTemplateVersionId)
    (hlease : row'.leaseToken = row.leaseToken ∧ row'.attemptCount = row.attemptCount ∨
      row'.leaseToken = none ∨ row'.leaseToken = some t.nextId ∧ t.nextId < t'.nextId) :
    t.Keeps t' := by
  refine ⟨hversions, hnext, fun id₁ row₁ hrow₁ => ?_⟩
  rw [ht'] at hrow₁
  rcases Dict.of_lookup_set hrow₁ with ⟨rfl, rfl⟩ | ⟨-, hold⟩
  · exact ⟨row, hrow, hversion, hlease⟩
  · exact ⟨row₁, hold, rfl, .inl ⟨rfl, rfl⟩⟩

theorem Effect.keeps {report : Option Report} (h : Effect t report t') : t.Keeps t' := by
  cases h with
  | kept => exact .of_rows rfl rfl rfl
  | leased _ _ hrow =>
    exact keeps_set hrow rfl rfl (Nat.le_succ _) rfl (.inr (.inr ⟨rfl, Nat.lt_succ_self _⟩))
  | exhausted _ hrow => exact keeps_set hrow rfl rfl le_rfl rfl (.inr (.inl rfl))
  | started _ _ _ hrow =>
    exact keeps_set hrow.found rfl rfl (Nat.le_add_right _ _) rfl (.inl ⟨rfl, rfl⟩)
  | committed _ _ hrow =>
    exact keeps_set hrow.found rfl rfl (Nat.le_add_right _ _) rfl (.inr (.inl rfl))
  | reused _ _ hrow =>
    exact keeps_set hrow.found rfl rfl ((Nat.le_succ _).trans (Nat.le_add_right _ _)) rfl
      (.inr (.inl rfl))
  | failed _ _ _ _ _ hrow =>
    unfold retryOrFailRow
    split_ifs <;> exact keeps_set hrow.found rfl rfl le_rfl rfl (.inr (.inl rfl))
  | gated causal now =>
    refine ⟨rfl, le_rfl, fun id row' hrow' => ?_⟩
    dsimp only [AnalysisTables.gated] at hrow'
    rw [Dict.lookup_mapValues] at hrow'
    obtain ⟨row, hrow, rfl⟩ := Option.map_eq_some_iff.mp hrow'
    refine ⟨row, hrow, ?_, ?_⟩
    · split_ifs <;> rfl
    · split_ifs
      · exact .inr (.inl rfl)
      · exact .inl ⟨rfl, rfl⟩
  | aggregated => exact .of_rows rfl rfl rfl

/-- What neither fails nor ends a stage run settles none. -/
theorem Effect.allSettled {report : Option Report} (h : Effect t report t') (hs : t.AllSettled)
    (hfailed : ∀ id, report ≠ some (.failed id))
    (hexhausted : ∀ id, report ≠ some (.exhausted id)) : t'.AllSettled := by
  cases h with
  | kept => exact hs
  | leased => exact hs.set rfl rfl (settled_of_status .running rfl nofun nofun)
  | exhausted => exact absurd rfl (hexhausted _)
  | @started _ _ row policy cacheKey _ hrow =>
    exact hs.set rfl rfl (settled_of_status .running hrow.running nofun nofun)
  | committed => exact hs.set rfl rfl (settled_of_status .succeeded rfl nofun nofun)
  | reused => exact hs.set rfl rfl (settled_of_status .succeeded rfl nofun nofun)
  | failed => exact absurd rfl (hfailed _)
  | gated causal now =>
    intro id row' hrow'
    dsimp only [AnalysisTables.gated] at hrow'
    rw [Dict.lookup_mapValues] at hrow'
    obtain ⟨row, hrow, rfl⟩ := Option.map_eq_some_iff.mp hrow'
    split_ifs
    · exact settled_of_status .skippedNegativeGate rfl nofun nofun
    · exact hs id row hrow
  | aggregated => exact hs

theorem settled_claim (h : t.AllSettled) (stageRunId : ℕ) (now leaseDuration : ℤ) :
    (t.claim stageRunId now leaseDuration).1.AllSettled := by
  rcases claim_cases t stageRunId now leaseDuration with
    hclaim | ⟨row, run, hrow, hdue, hrun, hopen, ⟨hattempts, hclaim⟩ | ⟨hlt, hclaim⟩⟩ <;>
      rw [hclaim]
  · exact h
  · exact h.set rfl rfl (settled_exhaust hattempts now)
  · exact h.set rfl rfl (settled_of_status .running rfl nofun nofun)

/-- The tokens of the leases were drawn. -/
def TokensKnown (t : AnalysisTables) : Prop :=
  ∀ id row token, t.stageRuns.lookup id = some row → row.leaseToken = some token →
    token < t.nextId

theorem TokensKnown.keeps (h : t.TokensKnown) (hk : t.Keeps t') : t'.TokensKnown := by
  intro id row' token hrow' htoken
  obtain ⟨row, hrow, -, ⟨hsame, -⟩ | hnone | ⟨hnew, hlt⟩⟩ := hk.leases id row' hrow'
  · exact (h id row token hrow (hsame ▸ htoken)).trans_le hk.next
  · rw [hnone] at htoken
    cases htoken
  · rw [hnew] at htoken
    exact Option.some.inj htoken ▸ hlt

theorem keeps_retryOrFailClaim (t : AnalysisTables) (claim : ClaimedAnalysisStageRun)
    (code errorType : String) (retryable : Bool) (retryAt now : ℤ) :
    t.Keeps (t.retryOrFailClaim claim code errorType retryable retryAt now).1 := by
  rcases effect_retryOrFailClaim t claim code errorType retryable retryAt now with
    hcall | ⟨t', hcall, heffect⟩ <;> rw [hcall]
  · exact .refl t
  · exact heffect.keeps

theorem keeps_retryOrFailTargets (t : AnalysisTables) (snapshot : AnalysisStageSnapshot)
    (targetId : ℕ) (code errorType : String) (retryable : Bool) (retryAt now : ℤ) :
    t.Keeps (t.retryOrFailTargets snapshot targetId code errorType retryable retryAt now).1 := by
  rcases effect_retryOrFailTargets t snapshot targetId code errorType retryable retryAt now with
    hcall | ⟨t', hcall, heffect⟩ <;> rw [hcall]
  · exact .refl t
  · exact heffect.keeps

/-- A failure of the claim of a row that is leased. -/
theorem settled_retryOrFailClaim (h : t.AllSettled) (claim : ClaimedAnalysisStageRun)
    {code errorType : String} {retryable : Bool} {delay now : ℤ}
    (hdelay : ∀ row, t.Leased claim.stageRunId claim.leaseToken row →
      Backoff t.stageVersions row delay)
    (hpermanent : retryable = false → ∃ code', Inference.Permanent code' errorType ∧
      code = code'.value) :
    (t.retryOrFailClaim claim code errorType retryable (now + delay) now).1.AllSettled := by
  unfold retryOrFailClaim
  split
  · exact h
  · next row hfilter =>
    exact settled_retryOrFailRow h (hdelay row (leased_of_filter hfilter)) hpermanent

/-- A failure of the target of a row that is leased. -/
theorem settled_retryOrFailTargets (h : t.AllSettled) (snapshot : AnalysisStageSnapshot)
    (targetId : ℕ) {code errorType : String} {retryable : Bool} {delay now : ℤ}
    (hdelay : ∀ row, t.Leased snapshot.target.stageRunId snapshot.target.leaseToken row →
      Backoff t.stageVersions row delay)
    (hpermanent : retryable = false → ∃ code', Inference.Permanent code' errorType ∧
      code = code'.value) :
    (t.retryOrFailTargets snapshot targetId code errorType retryable (now + delay)
      now).1.AllSettled := by
  unfold retryOrFailTargets
  split
  · exact h
  · next row hlock =>
    exact settled_retryOrFailRow h (hdelay row (leased_of_lock hlock).1) hpermanent

end AnalysisTables

/-! ## Workers -/

namespace AnalysisWorker

/-- The failure that a worker is to record. -/
def Work.failure : Work → Option Failure
  | .failClaim _ failure => some failure
  | .recordFailure _ _ failure => some failure
  | .failTargets _ failure => some failure
  | .recordSuccess _ _ (.error failure) => some failure
  | .commitTargets _ _ (.error failure) => some failure
  | _ => none

/-- A failure that is not retried is one that a retry does not mend. -/
def Failure.Accounted (failure : Failure) : Prop :=
  failure.retryable = false → ∃ code, Inference.Permanent code failure.errorType ∧
    failure.code = code.value

/-- What a worker knows of the row with its lease. -/
structure Work.Bound (t : AnalysisTables) (w : Work) : Prop where
  token : w.claim.leaseToken < t.nextId
  attempt : ∀ id row, t.stageRuns.lookup id = some row →
    row.leaseToken = some w.claim.leaseToken → row.attemptCount = w.claim.attemptCount
  target : ∀ snapshot, w.snapshot = some snapshot →
    snapshot.target.leaseToken = snapshot.claim.leaseToken
  stage : ∀ snapshot row, w.snapshot = some snapshot →
    t.stageRuns.lookup snapshot.target.stageRunId = some row →
      t.stageVersions.lookup row.analysisStageTemplateVersionId = some snapshot.stage
  failure : ∀ failure, w.failure = some failure → failure.Accounted

/-- What is left of a work. -/
structure Work.Follows (w w' : Work) : Prop where
  claim : w'.claim = w.claim
  snapshot : ∀ snapshot, w'.snapshot = some snapshot → w.snapshot = some snapshot
  failure : ∀ failure, w'.failure = some failure → w.failure = some failure

variable {t t' : AnalysisTables} {w w' : Work}

theorem Work.Bound.follows (h : w.Bound t) (hw' : w.Follows w') : w'.Bound t where
  token := hw'.claim ▸ h.token
  attempt := hw'.claim ▸ h.attempt
  target snapshot hs := h.target snapshot (hw'.snapshot snapshot hs)
  stage snapshot row hs := h.stage snapshot row (hw'.snapshot snapshot hs)
  failure failure hf := h.failure failure (hw'.failure failure hf)

theorem Work.Bound.keeps (h : w.Bound t) (hk : t.Keeps t') : w.Bound t' where
  token := h.token.trans_le hk.next
  attempt := by
    intro id row' hrow' htoken
    obtain ⟨row, hrow, -, ⟨hsame, hcount⟩ | hnone | ⟨hnew, -⟩⟩ := hk.leases id row' hrow'
    · exact hcount.trans (h.attempt id row hrow (hsame ▸ htoken))
    · rw [hnone] at htoken
      cases htoken
    · -- a new lease has a token that no claim has
      rw [hnew] at htoken
      exact absurd h.token (Option.some.inj htoken ▸ lt_irrefl _)
  target := h.target
  stage := by
    intro snapshot row' hs hrow'
    obtain ⟨row, hrow, hversion, -⟩ := hk.leases _ row' hrow'
    rw [hk.versions, hversion]
    exact h.stage snapshot row hs hrow
  failure := h.failure

theorem Work.Bound.backoff_claim {claim : ClaimedAnalysisStageRun} (hw : w.Bound t)
    (hclaim : w.claim = claim) {row : StageRunRecord}
    (hrow : t.Leased claim.stageRunId claim.leaseToken row) :
    Backoff t.stageVersions row (claimDelay claim) := by
  subst hclaim
  rw [claimDelay, ← hw.attempt _ row hrow.found hrow.token]
  exact .inl rfl

theorem Work.Bound.backoff_targets {snapshot : AnalysisStageSnapshot} (hw : w.Bound t)
    (hclaim : w.claim = snapshot.claim) (hsnapshot : w.snapshot = some snapshot)
    {row : StageRunRecord}
    (hrow : t.Leased snapshot.target.stageRunId snapshot.target.leaseToken row) :
    Backoff t.stageVersions row (retryDelay snapshot) := by
  have hattempt := hw.attempt _ row hrow.found
    (hrow.token.trans (by rw [hw.target snapshot hsnapshot, hclaim]))
  rw [hclaim] at hattempt
  rw [retryDelay, ← hattempt]
  exact .inr ⟨snapshot.stage, hw.stage snapshot row hsnapshot hrow.found, rfl⟩

/-! ## One transaction -/

/-- What a transaction of a worker does. -/
structure Went (t : AnalysisTables) (w : Work) (t' : AnalysisTables) (left : Option Work) :
    Prop where
  keeps : t.Keeps t'
  settled : t'.AllSettled
  follows : ∀ w', left = some w' → w.Follows w'

theorem Went.effect (hs : t.AllSettled) {report : Option AnalysisTables.Report}
    (he : AnalysisTables.Effect t report t') (hfailed : ∀ id, report ≠ some (.failed id))
    (hexhausted : ∀ id, report ≠ some (.exhausted id)) {left : Option Work}
    (hfollows : ∀ w', left = some w' → w.Follows w') : Went t w t' left :=
  ⟨he.keeps, he.allSettled hs hfailed hexhausted, hfollows⟩

/-- A transaction that reports nothing. -/
theorem Went.silent (hs : t.AllSettled) (he : AnalysisTables.Effect t none t')
    {left : Option Work} (hfollows : ∀ w', left = some w' → w.Follows w') : Went t w t' left :=
  .effect hs he (fun _ h => by cases h) (fun _ h => by cases h) hfollows

/-- A commit reports what it commits, or writes nothing. -/
theorem Went.commit (hs : t.AllSettled) {id leaseToken : ℕ} {runMode : RunMode}
    {source : Option ℕ} {assignments : List NegativeGateAssignment} {nothing committed : Prop}
    (h : (t' = t ∧ nothing) ∨ (AnalysisTables.Effect t
      (some (.committed id leaseToken runMode source assignments)) t' ∧ committed))
    {left : Option Work} (hfollows : ∀ w', left = some w' → w.Follows w') : Went t w t' left := by
  rcases h with ⟨rfl, -⟩ | ⟨heffect, -⟩
  · exact .silent hs (.refl _) hfollows
  · exact .effect hs heffect (fun _ h => by cases h) (fun _ h => by cases h) hfollows

theorem follows_some (h : w.Follows w') : ∀ w₁, some w' = some w₁ → w.Follows w₁ :=
  fun _ hw₁ => Option.some.inj hw₁ ▸ h

/-- A work of the same snapshot that has no failure. -/
theorem follows_of_snapshot {snapshot : AnalysisStageSnapshot} (hclaim : w.claim = snapshot.claim)
    (hsnapshot : w.snapshot = some snapshot) (hclaim' : w'.claim = snapshot.claim)
    (hsnapshot' : w'.snapshot = some snapshot) (hfailure : w'.failure = none) : w.Follows w' :=
  ⟨hclaim'.trans hclaim.symm, fun _ h => hsnapshot.trans (hsnapshot'.symm.trans h),
    fun _ h => by rw [hfailure] at h; cases h⟩

theorem follows_completeRun {claim : ClaimedAnalysisStageRun} (hclaim : w.claim = claim)
    (ended : Bool) : w.Follows (.completeRun claim ended) :=
  ⟨hclaim.symm, fun _ h => (by cases h), fun _ h => by cases h⟩

theorem follows_finish {snapshot : AnalysisStageSnapshot} (hclaim : w.claim = snapshot.claim)
    (hsnapshot : w.snapshot = some snapshot) (committed : AnalysisCommitResult) :
    w.Follows (finish snapshot committed) := by
  unfold finish
  split_ifs
  · exact follows_of_snapshot hclaim hsnapshot rfl rfl rfl
  · exact follows_completeRun hclaim _

theorem follows_validated (snapshot : AnalysisStageSnapshot) (started : StartedInferenceCall)
    (validation : Except Failure ValidatedTargetResult) (committed : AnalysisCommitResult) :
    (Work.commitTargets snapshot started validation).Follows
      (validated snapshot committed validation) := by
  cases validation with
  | ok => exact follows_finish rfl rfl committed
  | error failure => exact ⟨rfl, fun _ h => h, fun _ h => h⟩

/-- What every transaction of a worker does. -/
theorem transact_went (hs : t.AllSettled) (hw : w.Bound t) {now : ℤ} {left : Option Work}
    (h : transact t now w = some (t', left)) : Went t w t' left := by
  cases w with
  | prepare claim => cases h
  | invoke snapshot started => cases h
  | failClaim claim failure =>
    obtain ⟨rfl, rfl⟩ := Prod.mk.inj (Option.some.inj h)
    refine ⟨?_, ?_, follows_some (follows_completeRun rfl _)⟩
    · exact AnalysisTables.keeps_retryOrFailClaim t claim _ _ _ _ now
    · exact AnalysisTables.settled_retryOrFailClaim hs claim (fun row => hw.backoff_claim rfl)
        (hw.failure failure rfl)
  | findCacheHit snapshot cacheKey =>
    dsimp only [transact] at h
    split at h <;> obtain ⟨rfl, rfl⟩ := Prod.mk.inj (Option.some.inj h) <;>
      exact .silent hs (.refl t) (follows_some (follows_of_snapshot rfl rfl rfl rfl rfl))
  | commitCacheHit snapshot cacheKey hit =>
    dsimp only [transact] at h
    split at h
    · obtain ⟨rfl, rfl⟩ := Prod.mk.inj (Option.some.inj h)
      exact .silent hs (.refl t) fun _ hw' => by cases hw'
    next t₁ committed hcall =>
    obtain ⟨rfl, rfl⟩ := Prod.mk.inj (Option.some.inj h)
    have hfollows : (Work.commitCacheHit snapshot cacheKey hit).Follows
        (finish snapshot committed) := follows_finish rfl rfl committed
    exact .commit hs (AnalysisTables.effect_commitCacheHit hcall) (follows_some hfollows)
  | startInference snapshot cacheKey =>
    obtain ⟨rfl, rfl⟩ := Prod.mk.inj (Option.some.inj h)
    refine .silent hs (AnalysisTables.effect_startInference t snapshot cacheKey now)
      fun w' hw' => ?_
    obtain ⟨started, -, rfl⟩ := Option.map_eq_some_iff.mp hw'
    exact follows_of_snapshot rfl rfl rfl rfl rfl
  | recordFailure snapshot started failure =>
    obtain ⟨rfl, rfl⟩ := Prod.mk.inj (Option.some.inj h)
    exact .silent hs (AnalysisTables.effect_recordInferenceFailure t started failure.code
      failure.errorType failure.retryable now)
      (follows_some ⟨rfl, fun _ h => h, fun _ h => h⟩)
  | failTargets snapshot failure =>
    obtain ⟨rfl, rfl⟩ := Prod.mk.inj (Option.some.inj h)
    refine ⟨?_, ?_, follows_some (follows_completeRun rfl _)⟩
    · exact AnalysisTables.keeps_retryOrFailTargets t snapshot _ _ _ _ _ now
    · exact AnalysisTables.settled_retryOrFailTargets hs snapshot _
        (fun row => hw.backoff_targets rfl rfl) (hw.failure failure rfl)
  | recordSuccess snapshot started validation =>
    obtain ⟨rfl, rfl⟩ := Prod.mk.inj (Option.some.inj h)
    refine .silent hs (AnalysisTables.effect_recordInferenceSuccess t started now)
      (follows_some ⟨rfl, fun _ h => h, fun _ h => ?_⟩)
    cases validation with
    | ok => cases h
    | error => exact h
  | commitTargets snapshot started validation =>
    dsimp only [transact] at h
    split at h
    · obtain ⟨rfl, rfl⟩ := Prod.mk.inj (Option.some.inj h)
      exact .silent hs (.refl t) fun _ hw' => by cases hw'
    next t₁ committed hcall =>
    obtain ⟨rfl, rfl⟩ := Prod.mk.inj (Option.some.inj h)
    have hfollows := follows_validated snapshot started validation committed
    exact .commit hs (AnalysisTables.effect_commitValidatedTargets hcall) (follows_some hfollows)
  | applyGate snapshot assignments =>
    obtain ⟨rfl, rfl⟩ := Prod.mk.inj (Option.some.inj h)
    rcases AnalysisTables.effect_applyNegativeGate t snapshot.claim.analysisRunId assignments now
      with hcall | ⟨run, hrun, hcall⟩ <;> rw [hcall]
    · exact .silent hs (.refl t) (follows_some (follows_completeRun rfl _))
    · exact .effect hs (.gated _ now hrun) (fun _ h => by cases h) (fun _ h => by cases h)
        (follows_some (follows_completeRun rfl _))
  | completeRun claim ended =>
    obtain ⟨rfl, rfl⟩ := Prod.mk.inj (Option.some.inj h)
    rcases AnalysisTables.effect_completeAnalysisRun t claim.analysisRunId now with
      hcall | ⟨t₁, hcall, heffect⟩ <;> rw [hcall]
    · exact .silent hs (.refl t) fun _ hw' => by cases hw'
    · exact .effect hs heffect (fun _ h => by cases h) (fun _ h => by cases h)
        fun _ hw' => by cases hw'

/-! ## Other steps -/

theorem bound_claim (htokens : t.TokensKnown) (stageRunId : ℕ) (now leaseDuration : ℤ) :
    t.Keeps (t.claim stageRunId now leaseDuration).1 ∧
      ∀ w, (t.claim stageRunId now leaseDuration).2.map Work.prepare = some w →
        w.Bound (t.claim stageRunId now leaseDuration).1 := by
  rcases AnalysisTables.claim_cases t stageRunId now leaseDuration with
    hclaim | ⟨row, run, hrow, hdue, hrun, hopen, ⟨-, hclaim⟩ | ⟨hlt, hclaim⟩⟩ <;> rw [hclaim]
  · exact ⟨.refl t, fun _ hw => by cases hw⟩
  · exact ⟨(AnalysisTables.Effect.exhausted now hrow (StageRunRecord.isActive_of_due hdue) hrun
      hopen).keeps, fun _ hw => by cases hw⟩
  · refine ⟨(AnalysisTables.Effect.leased now leaseDuration hrow
      (StageRunRecord.isActive_of_due hdue) hrun hopen hlt).keeps, fun w hw => ?_⟩
    obtain rfl := Option.some.inj hw
    refine ⟨Nat.lt_succ_self _, fun id row' hrow' htoken => ?_, fun _ h => (by cases h),
      fun _ _ h => (by cases h), fun _ h => by cases h⟩
    rcases Dict.of_lookup_set hrow' with ⟨-, rfl⟩ | ⟨-, hold⟩
    · rfl
    · -- the token is new
      exact absurd (htokens id row' _ hold htoken) (lt_irrefl _)

/-- A snapshot has the lease of its claim and the version of its stage run. -/
theorem loadStageSnapshot_ok {claim : ClaimedAnalysisStageRun} {snapshot : AnalysisStageSnapshot}
    (h : t.loadStageSnapshot claim = .ok snapshot) :
    snapshot.claim = claim ∧ snapshot.target.leaseToken = claim.leaseToken ∧ ∃ row,
      t.stageRuns.lookup snapshot.target.stageRunId = some row ∧
        t.stageVersions.lookup row.analysisStageTemplateVersionId = some snapshot.stage := by
  unfold AnalysisTables.loadStageSnapshot at h
  split at h
  · cases h
  next row stage hsnapshot =>
  obtain rfl := Except.ok.inj h
  obtain ⟨row', hfilter, hsnapshot⟩ := Option.bind_eq_some_iff.mp hsnapshot
  obtain ⟨_, -, hsnapshot⟩ := Option.bind_eq_some_iff.mp hsnapshot
  obtain ⟨_, -, hsnapshot⟩ := Option.bind_eq_some_iff.mp hsnapshot
  obtain ⟨stage', hstage, hsnapshot⟩ := Option.bind_eq_some_iff.mp hsnapshot
  obtain ⟨rfl, rfl⟩ := Prod.mk.inj (Option.some.inj hsnapshot)
  exact ⟨rfl, rfl, row', (Option.filter_eq_some_iff.mp hfilter).1, hstage⟩

/-- What preparing a call, and the providers, raise. -/
def Action.Raised : Action → Prop
  | .prepare _ (.inputError code _) =>
    ∃ inputCode : Inference.InputErrorCode, code = inputCode.errorCode.value
  | .answer _ (.failed failure) => ∃ provider prepared f, Inference.Provided provider ∧
    Inference.invoke provider prepared = .error f ∧
      failure = ⟨f.code.value, f.errorType, f.retryable⟩
  | _ => True

theorem bound_failClaim {claim : ClaimedAnalysisStageRun} (h : (Work.prepare claim).Bound t)
    {failure : Failure} (hfailure : failure.Accounted) : (Work.failClaim claim failure).Bound t :=
  ⟨h.token, h.attempt, fun _ hs => (by cases hs), fun _ _ hs => (by cases hs),
    fun _ hf => Option.some.inj hf ▸ hfailure⟩

theorem bound_prepared {claim : ClaimedAnalysisStageRun} (h : (Work.prepare claim).Bound t)
    {name : ℕ} {preparation : Preparation} (hraised : (Action.prepare name preparation).Raised) :
    (prepared t claim preparation).Bound t := by
  unfold prepared
  cases hload : t.loadStageSnapshot claim with
  | error e => exact bound_failClaim h fun _ => ⟨_, .input _, rfl⟩
  | ok snapshot =>
    obtain ⟨rfl, htoken, row, hrow, hstage⟩ := loadStageSnapshot_ok hload
    have hloaded : ∀ w : Work, w.claim = snapshot.claim → w.snapshot = some snapshot →
        w.failure = none → w.Bound t := by
      intro w hclaim hsnapshot hfailure
      refine ⟨hclaim ▸ h.token, hclaim ▸ h.attempt, fun snapshot' hs => ?_,
        fun snapshot' row' hs hrow' => ?_, fun _ hf => ?_⟩
      · obtain rfl := Option.some.inj (hsnapshot.symm.trans hs)
        exact htoken
      · obtain rfl := Option.some.inj (hsnapshot.symm.trans hs)
        obtain rfl := Option.some.inj (hrow.symm.trans hrow')
        exact hstage
      · rw [hfailure] at hf
        cases hf
    cases preparation with
    | inputError code errorType =>
      obtain ⟨inputCode, rfl⟩ := hraised
      refine bound_failClaim h fun _ => ⟨inputCode.errorCode, ?_, rfl⟩
      cases inputCode with
      | inputBuildError => exact .input errorType
      | mediaUnavailable => exact .media errorType
    | domainError => exact bound_failClaim h fun _ => ⟨_, .input _, rfl⟩
    | otherError => exact bound_failClaim h fun hretryable => by cases hretryable
    | prepared cacheKey =>
      cases cacheKey with
      | none => exact hloaded _ rfl rfl rfl
      | some cacheKey => exact hloaded _ rfl rfl rfl

theorem bound_answered {snapshot : AnalysisStageSnapshot} {started : StartedInferenceCall}
    (h : (Work.invoke snapshot started).Bound t) {name : ℕ} {invocation : Invocation}
    (hraised : (Action.answer name invocation).Raised) :
    (answered snapshot started invocation).Bound t := by
  have hclaim : (answered snapshot started invocation).claim = snapshot.claim := by
    cases invocation <;> rfl
  have hsnapshot : (answered snapshot started invocation).snapshot = some snapshot := by
    cases invocation <;> rfl
  refine ⟨hclaim ▸ h.token, hclaim ▸ h.attempt, fun _ hs => h.target _ (hsnapshot.symm.trans hs),
    fun _ row hs => h.stage _ row (hsnapshot.symm.trans hs), fun failure hf => ?_⟩
  cases invocation with
  | failed raised =>
    obtain rfl := Option.some.inj hf
    obtain ⟨provider, prepared, f, hprovider, hinvoke, rfl⟩ := hraised
    exact fun hretryable =>
      ⟨f.code, Inference.permanent_of_invoke hprovider hinvoke hretryable, rfl⟩
  | valid => cases hf
  | invalid =>
    obtain rfl := Option.some.inj hf
    exact fun hretryable => by cases hretryable

/-! ## Runs -/

/-- Every row is settled, and the workers know their rows. -/
structure Accountable (s : State) : Prop where
  tokens : s.tables.TokensKnown
  settled : s.tables.AllSettled
  workers : ∀ name w, s.work name = some w → w.Bound s.tables

variable {s s' : State} {a : Action}

theorem Accountable.leave (h : Accountable s) {tables : AnalysisTables}
    (hkeeps : s.tables.Keeps tables) (hsettled : tables.AllSettled) (name : ℕ) (now : ℤ)
    {left : Option Work} (hleft : ∀ w, left = some w → w.Bound tables) :
    Accountable (s.leave tables name now left) := by
  refine ⟨h.tokens.keeps hkeeps, hsettled, fun name' w hw => ?_⟩
  by_cases hname : name' = name
  · subst hname
    rw [work_leave] at hw
    exact hleft w hw
  · rw [work_leave_of_ne hname] at hw
    exact (h.workers name' w hw).keeps hkeeps

theorem Accountable.step (h : Accountable s) (hraised : a.Raised) (hstep : step s a = some s') :
    Accountable s' := by
  have hwork : ∀ {name : ℕ} {p : Process}, s.workers.lookup name = some p →
      s.work name = some p.work := fun hlookup => by rw [State.work, hlookup, Option.map_some]
  cases a with
  | process name stageRunId now leaseDuration =>
    dsimp only [AnalysisWorker.step] at hstep
    split_ifs at hstep
    obtain rfl := Option.some.inj hstep
    obtain ⟨hkeeps, hleft⟩ := bound_claim h.tokens stageRunId now leaseDuration
    exact h.leave hkeeps (AnalysisTables.settled_claim h.settled stageRunId now leaseDuration)
      name now hleft
  | prepare name preparation =>
    dsimp only [AnalysisWorker.step] at hstep
    split at hstep
    · next now claim hlookup =>
      obtain rfl := Option.some.inj hstep
      refine h.leave (.refl _) h.settled name now fun w hw => ?_
      exact Option.some.inj hw ▸ bound_prepared (h.workers name _ (hwork hlookup)) hraised
    · cases hstep
  | answer name invocation =>
    dsimp only [AnalysisWorker.step] at hstep
    split at hstep
    · next now snapshot started hlookup =>
      obtain rfl := Option.some.inj hstep
      refine h.leave (.refl _) h.settled name now fun w hw => ?_
      exact Option.some.inj hw ▸ bound_answered (h.workers name _ (hwork hlookup)) hraised
    · cases hstep
  | proceed name =>
    obtain ⟨⟨now, w⟩, hlookup, hstep⟩ := Option.bind_eq_some_iff.mp hstep
    obtain ⟨⟨tables, left⟩, htransact, rfl⟩ := Option.map_eq_some_iff.mp hstep
    have hbound := h.workers name w (hwork hlookup)
    have hwent := transact_went h.settled hbound htransact
    exact h.leave hwent.keeps hwent.settled name now fun w' hw' =>
      (hbound.keeps hwent.keeps).follows (hwent.follows w' hw')
  | crash name =>
    obtain rfl := Option.some.inj hstep
    exact h.leave (.refl _) h.settled name 0 fun _ hw => by cases hw

/-- In every order of the steps of the workers, a stage run that is given up has used its
attempts or failed for a reason that a retry does not mend, and one that waits for a retry has
attempts left and waits for the backoff of the attempt that failed. -/
theorem failures_settled (hworkers : s.workers = []) (htokens : s.tables.TokensKnown)
    (hsettled : s.tables.AllSettled) {actions : List Action} (hraised : ∀ a ∈ actions, a.Raised)
    (hrun : Runs.run step s actions = some s') : s'.tables.AllSettled := by
  have h : Accountable s := by
    refine ⟨htokens, hsettled, fun name w hw => ?_⟩
    rw [State.work, hworkers] at hw
    cases hw
  have hkept : ∀ s a s', Accountable s → a.Raised → step s a = some s' → Accountable s' :=
    fun _ _ _ h ha hstep => h.step ha hstep
  exact (Runs.run_invariant hkept h (Runs.along_of_mem (fun a ha _ => hraised a ha) s)
    hrun).settled

/-- A worker whose provider is not configured. -/
def unconfigured : List Action :=
  [.process 1 4 0 60, .prepare 1 (.prepared none), .proceed 1,
    .answer 1 (.failed ⟨"PROVIDER_ERROR", "InferenceProviderNotConfigured", true⟩), .proceed 1,
    .proceed 1]

theorem raised_unconfigured : ∀ a ∈ unconfigured, a.Raised := by
  obtain ⟨call, -⟩ := Inference.exists_prepare_photo
  simp only [unconfigured, List.forall_mem_cons]
  refine ⟨trivial, trivial, trivial, ?_, trivial, trivial, List.forall_mem_nil _⟩
  exact ⟨none, call, _, .none, rfl, rfl⟩

/-- The rows of the example are planned. -/
theorem planned_twoRuns {id : ℕ} {row : StageRunRecord}
    (hrow : (twoRuns .formal).tables.stageRuns.lookup id = some row) :
    row.status = .pending ∧ row.leaseToken = none := by
  rcases List.mem_pair.mp (Dict.mem_of_lookup hrow) with h | h <;>
    obtain ⟨-, rfl⟩ := Prod.mk.inj h <;> exact ⟨rfl, rfl⟩

theorem unconfigured_waits : ∃ s row, Runs.run step (twoRuns .formal) unconfigured = some s ∧
    s.tables.stageRuns.lookup 4 = some row ∧ row.status = .retryWait ∧
      row.nextRetryAt = some 5 :=
  ⟨_, _, rfl, rfl, rfl, rfl⟩

theorem failures_settled_unconfigured :
    ∃ s row, Runs.run step (twoRuns .formal) unconfigured = some s ∧
      s.tables.stageRuns.lookup 4 = some row ∧ row.status = .retryWait ∧
        row.nextRetryAt = some 5 ∧ Settled s.tables.stageVersions row := by
  obtain ⟨s, row, hrun, hrow, hstatus, hretry⟩ := unconfigured_waits
  refine ⟨s, row, hrun, hrow, hstatus, hretry, failures_settled rfl ?_ ?_ raised_unconfigured
    hrun 4 row hrow⟩
  · intro id row token hrow htoken
    rw [(planned_twoRuns hrow).2] at htoken
    cases htoken
  · intro id row hrow
    exact settled_of_status .pending (planned_twoRuns hrow).1
      (fun h => by cases h) (fun h => by cases h)

end AnalysisWorker

end TgCurator
