import TgCurator.Routing.Reload

/-!
# One evaluation for a request

Calls of `evaluate` interleave between their lookup, their evaluation and their transaction, and
crash anywhere. The tables stay sound (`RoutingTables.Sound`): a request has one evaluation, with
all the intents of its decision. A call that meets a stored evaluation reports it or is rejected
(`reuseExecution_eq`), so what a call reports is what the tables hold (`RoutingState.Sound`).
-/

namespace TgCurator

section

variable {uuid : UuidFormat} {tables : PolicyTables} {sha256 : String → String}
  {factsSnapshotHash : Facts → String}

/-! ## Errors raised on purpose -/

/-- A `DomainValidationError`. -/
def PyError.isDomainValidation : PyError → Bool
  | .domainValidation _ _ => true
  | _ => false

/-- A computation that raises nothing but `DomainValidationError`. -/
def RaisesOnlyValidation {α : Type*} (x : Except PyError α) : Prop :=
  ∀ e, x = .error e → e.isDomainValidation = true

theorem raisesOnlyValidation_ok {α : Type*} (a : α) :
    RaisesOnlyValidation (.ok a : Except PyError α) := by
  intro e h
  cases h

theorem raisesOnlyValidation_ensure (condition : Bool) (message : String)
    (operands : List String) : RaisesOnlyValidation (ensure condition message operands) := by
  intro e h
  cases condition with
  | true => cases h
  | false =>
    rw [← Except.error.inj h]
    rfl

theorem RaisesOnlyValidation.bind {α β : Type} {x : Except PyError α} {f : α → Except PyError β}
    (hx : RaisesOnlyValidation x) (hf : ∀ a, RaisesOnlyValidation (f a)) :
    RaisesOnlyValidation (x >>= f) := by
  intro e h
  cases x with
  | ok a => exact hf a e h
  | error e' =>
    rw [← show e' = e from Except.error.inj h]
    exact hx e' rfl

theorem raisesOnlyValidation_forM {α : Type} {f : α → Except PyError Unit}
    (hf : ∀ a, RaisesOnlyValidation (f a)) (l : List α) : RaisesOnlyValidation (l.forM f) := by
  induction l with
  | nil => exact raisesOnlyValidation_ok ()
  | cons a l ih => exact (hf a).bind fun _ => ih

theorem raisesOnlyValidation_asUuid (value field : String) :
    RaisesOnlyValidation (uuid.asUuid value field) := by
  intro e h
  unfold UuidFormat.asUuid at h
  cases hparse : uuid.parse value with
  | some id => rw [hparse] at h; cases h
  | none =>
    rw [hparse] at h
    rw [← Except.error.inj h]
    rfl

theorem raisesOnlyValidation_optionalUuid (value : Option String) (field : String) :
    RaisesOnlyValidation (uuid.optionalUuid value field) := by
  cases value with
  | none => exact raisesOnlyValidation_ok none
  | some value =>
    intro e h
    cases hid : uuid.asUuid value field with
    | ok id => rw [UuidFormat.optionalUuid, hid] at h; cases h
    | error e' =>
      rw [UuidFormat.optionalUuid, hid] at h
      rw [← Except.error.inj h]
      exact raisesOnlyValidation_asUuid value field e' hid

theorem raisesOnlyValidation_validateIntent (evaluation : RoutingEvaluationDraft)
    (action : PublicationAction) (intent : PublicationIntentDraft) :
    RaisesOnlyValidation (validateIntent evaluation action intent) := by
  unfold validateIntent
  refine (raisesOnlyValidation_ensure _ _ _).bind fun _ => ?_
  exact (raisesOnlyValidation_ensure _ _ _).bind fun _ => raisesOnlyValidation_ensure _ _ _

theorem raisesOnlyValidation_validatePersistencePayload (work : RoutingWork) :
    RaisesOnlyValidation (validatePersistencePayload work) := by
  unfold validatePersistencePayload
  refine (raisesOnlyValidation_ensure _ _ _).bind fun _ => ?_
  refine (raisesOnlyValidation_ensure _ _ _).bind fun _ => ?_
  refine (raisesOnlyValidation_ensure _ _ _).bind fun _ => ?_
  refine (raisesOnlyValidation_ensure _ _ _).bind fun _ => ?_
  have hintent : ∀ e : PublicationAction × PublicationIntentDraft,
      RaisesOnlyValidation (validateIntent work.evaluation e.1 e.2) :=
    fun e => raisesOnlyValidation_validateIntent work.evaluation e.1 e.2
  exact raisesOnlyValidation_forM hintent _

theorem raisesOnlyValidation_record (evaluation : RoutingEvaluationDraft) :
    RaisesOnlyValidation (evaluation.record uuid) := by
  unfold RoutingEvaluationDraft.record
  refine (raisesOnlyValidation_asUuid _ _).bind fun _ => ?_
  refine (raisesOnlyValidation_asUuid _ _).bind fun _ => ?_
  refine (raisesOnlyValidation_asUuid _ _).bind fun _ => ?_
  exact (raisesOnlyValidation_optionalUuid _ _).bind fun _ => raisesOnlyValidation_ok _

/-! ## What a call brings to the transaction -/

/-- A piece of work for a request. -/
structure RoutingWork.Of (uuid : UuidFormat) (tables : PolicyTables)
    (factsSnapshotHash : Facts → String) (request : RoutingRequest) (work : RoutingWork) :
    Prop where
  made : ∃ version policy facts evaluationId, tables.policy uuid version = .ok policy ∧
    work.decision = evaluateRouting policy facts ∧ work.evaluation =
      evaluationDraft factsSnapshotHash request (uuid.text evaluationId) facts work.decision
  intents_canonical : work.intents.map (·.canonical uuid) = work.intents
  messageId_canonical : uuid.canonical request.messageId = request.messageId

theorem lookup_defaults {db : SnapshotTables} {version : ℕ} {policy : RoutingPolicy}
    {defaults : Dict String String}
    (h : buildPolicy uuid tables db version = .ok (policy, defaults)) {destination identity : String}
    (hlookup : defaults.lookup destination = some identity) : ∃ id, identity = uuid.text id := by
  unfold buildPolicy at h
  dsimp only at h
  obtain ⟨-, h⟩ := seq_eq_ok.mp h
  obtain ⟨-, h⟩ := seq_eq_ok.mp h
  obtain ⟨-, h⟩ := seq_eq_ok.mp h
  obtain ⟨policy', hpolicy, h⟩ := bind_eq_ok.mp h
  rw [← (Prod.mk.inj (Except.ok.inj h)).2] at hlookup
  obtain ⟨row, -, heq⟩ := List.mem_map.mp (Dict.mem_of_lookup_ofList hlookup)
  exact ⟨_, (Prod.mk.inj heq).2.symm⟩

/-- The ids of an intent are canonical when those of its action and evaluation are. -/
theorem canonical_of_buildIntent {evaluation : RoutingEvaluationDraft}
    {defaults : Dict String String} {intentId : ℕ} {action : PublicationAction}
    {intent : PublicationIntentDraft} {row : ℕ × RoutingActionRow}
    (hfields : action.toPublicationActionFields = RoutingActionRow.fields uuid row)
    (hdefaults : ∀ destination identity, defaults.lookup destination = some identity →
      ∃ id, identity = uuid.text id)
    (hevaluation : uuid.canonical evaluation.evaluationId = evaluation.evaluationId)
    (hmessage : uuid.canonical evaluation.messageId = evaluation.messageId)
    (hversion : uuid.canonical evaluation.routingPolicyVersionId =
      evaluation.routingPolicyVersionId)
    (h : buildIntent uuid sha256 evaluation defaults intentId action = .ok intent) :
    intent.canonical uuid = intent := by
  unfold buildIntent at h
  rw [hfields] at h
  obtain ⟨hblank, h⟩ := seq_eq_ok.mp h
  obtain ⟨key, -, h⟩ := bind_eq_ok.mp h
  have hidentity : ∃ id, (((RoutingActionRow.fields uuid row).publishIdentityId.or
      (defaults.lookup (RoutingActionRow.fields uuid row).destinationChannelId)).getD "") =
        uuid.text id := by
    cases hexplicit : row.2.publishIdentityId with
    | some id =>
      refine ⟨id, ?_⟩
      simp [RoutingActionRow.fields, hexplicit]
    | none =>
      have hnone : (RoutingActionRow.fields uuid row).publishIdentityId = none := by
        simp [RoutingActionRow.fields, hexplicit]
      rw [hnone, Option.none_or] at hblank ⊢
      cases hdefault : defaults.lookup (RoutingActionRow.fields uuid row).destinationChannelId with
      | none =>
        rw [hdefault, ensure_eq_ok] at hblank
        cases hblank
      | some identity => exact hdefaults _ _ hdefault
  obtain ⟨id, hid⟩ := hidentity
  rw [← Except.ok.inj h, hid]
  simp [PublicationIntentDraft.canonical, hevaluation, hmessage, hversion, RoutingActionRow.fields,
    Function.comp_def]

theorem exists_publicationIdempotencyKey {a b c d e request evaluation : String} (mode : String)
    (ha : isBlank a = false) (hb : isBlank b = false) (hc : isBlank c = false)
    (hd : isBlank d = false) (he : isBlank e = false) (hrequest : isBlank request = false)
    (hevaluation : isBlank evaluation = false) (sha256 : String → String) :
    ∃ canonical, publicationIdempotencyKey sha256 a b c d e mode request evaluation =
      .ok ("publication:v2:" ++ sha256 canonical) := by
  refine ⟨_, seq_eq_ok.mpr ⟨?_, seq_eq_ok.mpr ⟨?_, seq_eq_ok.mpr ⟨?_, rfl⟩⟩⟩⟩
  · simp [ha, hb, hc, hd, he]
  · simp [hrequest]
  · simp [hevaluation]

theorem loadSnapshot_eq_ok {db : SnapshotTables} {messageId routingPolicyVersionId : String}
    {snapshot : RoutingSnapshot}
    (h : loadSnapshot uuid tables db messageId routingPolicyVersionId = .ok snapshot) :
    (∃ message, snapshot.messageId = uuid.text message) ∧ ∃ version,
      buildPolicy uuid tables db version =
        .ok (snapshot.policy, snapshot.destinationPublishIdentityIds) := by
  unfold loadSnapshot at h
  obtain ⟨message, -, h⟩ := bind_eq_ok.mp h
  obtain ⟨version, -, h⟩ := bind_eq_ok.mp h
  cases hfacts : db.messages.lookup message with
  | none =>
    rw [hfacts] at h
    cases h
  | some facts =>
    rw [hfacts] at h
    obtain ⟨-, h⟩ := seq_eq_ok.mp h
    obtain ⟨⟨policy, defaults⟩, hpolicy, h⟩ := bind_eq_ok.mp h
    rw [← Except.ok.inj h]
    exact ⟨⟨message, rfl⟩, version, hpolicy⟩

/-- What `evaluate` makes of a snapshot it has loaded. -/
theorem workOf_evaluateSnapshot {db : SnapshotTables} {request : RoutingRequest}
    {snapshot : RoutingSnapshot} {evaluationId : ℕ} {work : RoutingWork}
    (hload : loadSnapshot uuid tables db request.messageId request.routingPolicyVersionId =
      .ok snapshot)
    (h : evaluateSnapshot uuid sha256 factsSnapshotHash request snapshot evaluationId = .ok work) :
    work.Of uuid tables factsSnapshotHash request := by
  obtain ⟨⟨message, hmessage⟩, version, hbuild⟩ := loadSnapshot_eq_ok hload
  have hpolicy := buildPolicy_eq_ok hbuild
  unfold evaluateSnapshot at h
  obtain ⟨hmessageId, h⟩ := seq_eq_ok.mp h
  obtain ⟨hversionId, h⟩ := seq_eq_ok.mp h
  obtain ⟨facts, -, h⟩ := bind_eq_ok.mp h
  obtain ⟨intents, hintents, h⟩ := bind_eq_ok.mp h
  rw [ensure_eq_ok, decide_eq_true_eq] at hmessageId hversionId
  have hcanonicalMessage : uuid.canonical request.messageId = request.messageId := by
    rw [← hmessageId, hmessage, UuidFormat.canonical_text]
  have hcanonicalVersion : uuid.canonical request.routingPolicyVersionId =
      request.routingPolicyVersionId := by
    rw [← hversionId, (tables.policy_eq_ok hpolicy).1, UuidFormat.canonical_text]
  rw [← Except.ok.inj h]
  refine ⟨⟨version, snapshot.policy, facts, evaluationId, hpolicy, rfl, rfl⟩, ?_,
    hcanonicalMessage⟩
  refine (List.map_congr_left fun intent hintent => ?_).trans (List.map_id _)
  obtain ⟨action, haction, id, hintent⟩ := exists_left_of_mem (forall₂_buildIntents hintents) hintent
  obtain ⟨row, -, hfields⟩ := exists_row_of_mem_actions hpolicy haction
  exact canonical_of_buildIntent hfields (fun _ _ => lookup_defaults hbuild)
    (UuidFormat.canonical_text evaluationId) hcanonicalMessage hcanonicalVersion hintent

/-! ## Sound tables -/

/-- A stored evaluation, with all the intents of its decision. -/
def RoutingTables.Complete (uuid : UuidFormat) (tables : PolicyTables) (t : RoutingTables)
    (evaluation : RoutingEvaluationRecord) : Prop :=
  ∃ policy, tables.policy uuid evaluation.routingPolicyVersionId = .ok policy ∧
    evaluation.ruleOutcomes =
      (evaluateRouting policy evaluation.factsSnapshot).outcomes.map (·.snapshot) ∧
    RowsOf uuid (evaluateRouting policy evaluation.factsSnapshot) (t.intentsOf evaluation)

/-- The tables hold at most one evaluation of a request, each with its intents, and no others. -/
structure RoutingTables.Sound (uuid : UuidFormat) (tables : PolicyTables) (t : RoutingTables) :
    Prop where
  requestIds_nodup : (t.evaluations.map (·.routingRequestId)).Nodup
  owned : ∀ row ∈ t.intents, row.routingEvaluationId ∈ t.evaluations.map (·.id)
  complete : ∀ evaluation ∈ t.evaluations, t.Complete uuid tables evaluation

namespace RoutingTables

variable {t t' : RoutingTables}

theorem mem_of_evaluation? {routingRequestId : String} {evaluation : RoutingEvaluationRecord}
    (h : t.evaluation? routingRequestId = some evaluation) :
    evaluation ∈ t.evaluations ∧ evaluation.routingRequestId = routingRequestId :=
  ⟨List.mem_of_find?_eq_some h, by simpa using List.find?_some h⟩

theorem Sound.evaluation?_of_mem (h : t.Sound uuid tables) {evaluation : RoutingEvaluationRecord}
    (hmem : evaluation ∈ t.evaluations) :
    t.evaluation? evaluation.routingRequestId = some evaluation := by
  cases hfind : t.evaluation? evaluation.routingRequestId with
  | none => simpa using List.find?_eq_none.mp hfind evaluation hmem
  | some evaluation' =>
    obtain ⟨hmem', hid⟩ := mem_of_evaluation? hfind
    rw [List.inj_on_of_nodup_map h.requestIds_nodup hmem' hmem hid]

/-- The reuse of an evaluation that can be read. -/
theorem reuseExecution_of_load {evaluation : RoutingEvaluationRecord}
    {rows : List PublicationIntentRecord} {loaded : RoutingExecutionResult}
    (hload : loadExecution uuid tables evaluation rows = .ok loaded) (request : RoutingRequest) :
    reuseExecution uuid tables evaluation rows request.requestId request.messageId
        request.routingPolicyVersionId =
      if loaded.routingRequestId = request.requestId ∧ loaded.messageId = request.messageId ∧
          loaded.routingPolicyVersionId = request.routingPolicyVersionId then
        .ok { loaded with reused := true }
      else .error (.domainValidation
        "routing_request_id is already bound to a different message or routing policy version"
        []) := by
  unfold reuseExecution
  rw [hload]
  simp only [bind, Except.bind]
  rw [validateRoutingRequestReuse_eq, ensure]
  simp only [Bool.and_eq_true, decide_eq_true_eq, and_assoc]
  split_ifs <;> rfl

/-- What a call that meets a stored evaluation gets. -/
theorem Sound.reuseExecution_eq (h : t.Sound uuid tables) {evaluation : RoutingEvaluationRecord}
    (request : RoutingRequest) (hfind : t.evaluation? request.requestId = some evaluation)
    {rows : List PublicationIntentRecord} (hperm : rows.Perm (t.intentsOf evaluation)) :
    if uuid.text evaluation.messageId = request.messageId ∧
        uuid.text evaluation.routingPolicyVersionId = request.routingPolicyVersionId then
      ∃ result, reuseExecution uuid tables evaluation rows request.requestId request.messageId
          request.routingPolicyVersionId = .ok result ∧
        result.evaluationId = uuid.text evaluation.id ∧
        result.intents = (t.intentsOf evaluation).map (·.draft uuid)
    else ∃ e, reuseExecution uuid tables evaluation rows request.requestId request.messageId
      request.routingPolicyVersionId = .error e ∧ e.isDomainValidation = true := by
  obtain ⟨hmem, hrequest⟩ := mem_of_evaluation? hfind
  obtain ⟨policy, hpolicy, houtcomes, hrows⟩ := h.complete evaluation hmem
  obtain ⟨actions, -, hload⟩ := loadExecution_eq hpolicy houtcomes hrows hperm
  rw [reuseExecution_of_load hload]
  dsimp only
  by_cases hsame : uuid.text evaluation.messageId = request.messageId ∧
      uuid.text evaluation.routingPolicyVersionId = request.routingPolicyVersionId
  · rw [if_pos hsame, if_pos ⟨hrequest, hsame⟩]
    exact ⟨_, rfl, rfl, rfl⟩
  · rw [if_neg hsame, if_neg fun h => hsame h.2]
    exact ⟨_, rfl, rfl⟩

/-- What a call reports of the evaluation of its request. -/
def Reports (uuid : UuidFormat) (t : RoutingTables) (request : RoutingRequest)
    (result : RoutingExecutionResult) : Prop :=
  ∃ evaluation, t.evaluation? request.requestId = some evaluation ∧
    uuid.text evaluation.messageId = request.messageId ∧
    uuid.text evaluation.routingPolicyVersionId = request.routingPolicyVersionId ∧
    result.evaluationId = uuid.text evaluation.id ∧
    result.intents = (t.intentsOf evaluation).map (·.draft uuid)

/-- Tables that hold what others hold. -/
def Extends (t' t : RoutingTables) : Prop :=
  ∀ evaluation ∈ t.evaluations,
    evaluation ∈ t'.evaluations ∧ t'.intentsOf evaluation = t.intentsOf evaluation

theorem Extends.refl (t : RoutingTables) : t.Extends t :=
  fun _ h => ⟨h, rfl⟩

/-- A call that is not rejected reports the evaluation it meets. -/
theorem Sound.reports_of_reuse (h : t.Sound uuid tables) {evaluation : RoutingEvaluationRecord}
    {request : RoutingRequest} (hfind : t.evaluation? request.requestId = some evaluation)
    {rows : List PublicationIntentRecord} (hperm : rows.Perm (t.intentsOf evaluation))
    {result : RoutingExecutionResult}
    (hresult : reuseExecution uuid tables evaluation rows request.requestId request.messageId
      request.routingPolicyVersionId = .ok result) : t.Reports uuid request result := by
  have hreuse := h.reuseExecution_eq request hfind hperm
  split_ifs at hreuse with hsame
  · obtain ⟨result', hresult', hid, hintents⟩ := hreuse
    obtain rfl := Except.ok.inj (hresult.symm.trans hresult')
    exact ⟨evaluation, hfind, hsame.1, hsame.2, hid, hintents⟩
  · obtain ⟨e, he, -⟩ := hreuse
    cases hresult.symm.trans he

/-- A report stays true. -/
theorem Reports.of_extends {request : RoutingRequest} {result : RoutingExecutionResult}
    (h : t.Reports uuid request result) (hsound : t'.Sound uuid tables) (hext : t'.Extends t) :
    t'.Reports uuid request result := by
  obtain ⟨evaluation, hfind, hmessage, hversion, hid, hintents⟩ := h
  obtain ⟨hmem, hrequest⟩ := mem_of_evaluation? hfind
  obtain ⟨hmem', hintents'⟩ := hext evaluation hmem
  refine ⟨evaluation, ?_, hmessage, hversion, hid, hintents' ▸ hintents⟩
  rw [← hrequest]
  exact hsound.evaluation?_of_mem hmem'

/-- Storing an evaluation for a request that has one writes nothing. -/
theorem Sound.persistEvaluation_existing (h : t.Sound uuid tables) {request : RoutingRequest}
    {work : RoutingWork} (hwork : work.Of uuid tables factsSnapshotHash request)
    {evaluation : RoutingEvaluationRecord}
    (hfind : t.evaluation? request.requestId = some evaluation)
    {rows : List PublicationIntentRecord} (hperm : rows.Perm (t.intentsOf evaluation)) :
    (∃ e, t.persistEvaluation uuid tables work rows = .error e ∧ e.isDomainValidation = true) ∨
      ∃ result, t.persistEvaluation uuid tables work rows = .ok (t, result) ∧
        t.Reports uuid request result := by
  obtain ⟨version, policy, facts, evaluationId, -, -, hevaluation⟩ := hwork.made
  have hreuse := h.reuseExecution_eq request hfind hperm
  unfold persistEvaluation
  cases hvalid : validatePersistencePayload work with
  | error e =>
    exact .inl ⟨e, rfl, raisesOnlyValidation_validatePersistencePayload work e hvalid⟩
  | ok =>
    cases hrecord : work.evaluation.record uuid with
    | error e => exact .inl ⟨e, rfl, raisesOnlyValidation_record work.evaluation e hrecord⟩
    | ok record =>
      simp only [hevaluation, evaluationDraft, bind, Except.bind, hfind]
      cases hresult : reuseExecution uuid tables evaluation rows request.requestId
          request.messageId request.routingPolicyVersionId with
      | ok result => exact .inr ⟨result, rfl, h.reports_of_reuse hfind hperm hresult⟩
      | error e =>
        split_ifs at hreuse
        · obtain ⟨result, hok, -⟩ := hreuse
          cases hresult.symm.trans hok
        · obtain ⟨e', he, hvalidation⟩ := hreuse
          obtain rfl := Except.error.inj (hresult.symm.trans he)
          exact .inl ⟨e, rfl, hvalidation⟩

theorem intentsOf_append_of_mem {record : RoutingEvaluationRecord}
    {records : List PublicationIntentRecord} (hnew : record.id ∉ t.evaluations.map (·.id))
    (hrecords : ∀ row ∈ records, row.routingEvaluationId = record.id)
    {evaluation : RoutingEvaluationRecord} (hmem : evaluation ∈ t.evaluations) :
    (⟨t.evaluations ++ [record], t.intents ++ records⟩ : RoutingTables).intentsOf evaluation =
      t.intentsOf evaluation := by
  have hnil : records.filter (·.routingEvaluationId = evaluation.id) = [] := by
    rw [List.filter_eq_nil_iff]
    intro row hrow heq
    have hid : evaluation.id = record.id := (of_decide_eq_true heq).symm.trans (hrecords row hrow)
    exact hnew (hid ▸ List.mem_map_of_mem hmem)
  rw [intentsOf, List.filter_append, hnil, List.append_nil, intentsOf]

/-- Storing the first evaluation of a request. -/
theorem Sound.persistEvaluation_new (h : t.Sound uuid tables) {request : RoutingRequest}
    {work : RoutingWork} (hwork : work.Of uuid tables factsSnapshotHash request)
    (hnew : t.evaluation? request.requestId = none) {rows : List PublicationIntentRecord}
    {result : RoutingExecutionResult}
    (hpersist : t.persistEvaluation uuid tables work rows = .ok (t', result)) :
    t'.Sound uuid tables ∧ t'.Extends t ∧ t'.Reports uuid request result := by
  obtain ⟨version, policy, facts, evaluationId, hpolicy, hdecision, hevaluation⟩ := hwork.made
  have hnew' : t.evaluation? work.evaluation.routingRequestId = none := by
    rw [hevaluation]
    exact hnew
  obtain ⟨record, records, hrecord, hid, hversionId, hvalid, hrecords, rfl, rfl⟩ :=
    RoutingTables.persistEvaluation_new hnew' hpersist
  have hrowIds := routingEvaluationId_of_valid hrecord hvalid hrecords
  have hdrafts := drafts_of_valid hvalid hrecords
  rw [hwork.intents_canonical] at hdrafts
  rw [hdecision] at hversionId hvalid
  obtain ⟨hrecordId, hrequest, hmessage, hversion, hfacts, -, houtcomes, -⟩ :=
    RoutingEvaluationDraft.record_eq_ok hrecord
  have hrequestId : record.routingRequestId = request.requestId := by
    rw [hrequest, hevaluation]
    rfl
  have hversionText : work.evaluation.routingPolicyVersionId = uuid.text version := by
    rw [← hversionId, evaluateRouting_policyVersionId, (tables.policy_eq_ok hpolicy).1]
  have hrecordVersion : record.routingPolicyVersionId = version := by
    refine uuid.text_injective ?_
    rw [hversion, hversionText, UuidFormat.canonical_text]
  have hrecordFacts : record.factsSnapshot = facts := by
    rw [hfacts, hevaluation]
    rfl
  have hself := RoutingTables.intentsOf_append_self h.owned hid hrowIds
  have hext : (⟨t.evaluations ++ [record], t.intents ++ records⟩ : RoutingTables).Extends t :=
    fun evaluation hmem => ⟨List.mem_append_left _ hmem, intentsOf_append_of_mem hid hrowIds hmem⟩
  refine ⟨⟨?_, ?_, ?_⟩, hext, record, ?_, ?_, ?_, ?_, ?_⟩
  · rw [List.map_append, List.map_singleton]
    refine List.nodup_append.mpr ⟨h.requestIds_nodup, List.nodup_singleton _, ?_⟩
    intro id hmem id' hid'
    rw [List.mem_singleton.mp hid', hrequestId]
    rintro rfl
    obtain ⟨evaluation, hmem, heq⟩ := List.mem_map.mp hmem
    simpa [heq] using List.find?_eq_none.mp hnew evaluation hmem
  · intro row hrow
    rw [List.map_append, List.mem_append]
    rcases List.mem_append.mp hrow with hrow | hrow
    · exact .inl (h.owned row hrow)
    · exact .inr (by simp [hrowIds row hrow])
  · intro evaluation hmem
    rcases List.mem_append.mp hmem with hmem | hmem
    · obtain ⟨policy', hpolicy', houtcomes', hrows'⟩ := h.complete evaluation hmem
      exact ⟨policy', hpolicy', houtcomes', (hext evaluation hmem).2 ▸ hrows'⟩
    · rw [List.mem_singleton.mp hmem]
      refine ⟨policy, hrecordVersion ▸ hpolicy, ?_, ?_⟩
      · rw [houtcomes, hrecordFacts, hevaluation, evaluationDraft, hdecision]
      · rw [hself, hrecordFacts]
        exact rowsOf_of_valid hpolicy hvalid hrecords
  · rw [evaluation?, List.find?_append, ← evaluation?, hnew]
    simp [hrequestId]
  · rw [hmessage, hevaluation]
    exact hwork.messageId_canonical
  · rw [hversion, hversionText, UuidFormat.canonical_text, ← hversionText, hevaluation]
    rfl
  · have hevaluationId : work.evaluation.evaluationId = uuid.text evaluationId := by
      rw [hevaluation]
      rfl
    rw [hrecordId, hevaluationId, UuidFormat.canonical_text]
    exact hevaluationId
  · rw [hself, hdrafts]
    rfl

end RoutingTables

/-! ## Sound states -/

namespace RoutingState

/-- What a phase of a call of a request stands for. -/
def PhaseSound (uuid : UuidFormat) (tables : PolicyTables) (factsSnapshotHash : Facts → String)
    (t : RoutingTables) (request : RoutingRequest) : RoutingPhase → Prop
  | .evaluated work => request.dryRun = false ∧ work.Of uuid tables factsSnapshotHash request
  | .finished (.ok result) => request.dryRun = false → t.Reports uuid request result
  | _ => True

/-- The tables are sound and the calls have what their phases stand for. -/
structure Sound (uuid : UuidFormat) (tables : PolicyTables) (factsSnapshotHash : Facts → String)
    (s : RoutingState) : Prop where
  tables_sound : s.toRoutingTables.Sound uuid tables
  phases : ∀ call request phase, s.calls.lookup call = some ⟨request, phase⟩ →
    PhaseSound uuid tables factsSnapshotHash s.toRoutingTables request phase

/-- What a step does. -/
inductive Stepped (uuid : UuidFormat) (tables : PolicyTables) (sha256 : String → String)
    (factsSnapshotHash : Facts → String) (s : RoutingState) : RoutingStep → RoutingState → Prop
  | begin (call : ℕ) (request : RoutingRequest) :
    Stepped uuid tables sha256 factsSnapshotHash s (.begin call request)
      (s.setPhase call request .started)
  | find (call : ℕ) (rows : List PublicationIntentRecord) {request : RoutingRequest}
    (hcall : s.calls.lookup call = some ⟨request, .started⟩)
    (hrows : s.readable request.requestId rows = true) :
    Stepped uuid tables sha256 factsSnapshotHash s (.find call rows)
      (s.find uuid tables call request rows)
  | load (call : ℕ) (db : SnapshotTables) (request : RoutingRequest) :
    Stepped uuid tables sha256 factsSnapshotHash s (.load call db)
      (s.load uuid tables sha256 factsSnapshotHash call request db)
  | persist (call : ℕ) (rows : List PublicationIntentRecord) {request : RoutingRequest}
    {work : RoutingWork} (hcall : s.calls.lookup call = some ⟨request, .evaluated work⟩)
    (hrows : s.readable request.requestId rows = true) :
    Stepped uuid tables sha256 factsSnapshotHash s (.persist call rows)
      (s.persist uuid tables call request work rows)
  | crash (call : ℕ) (request : RoutingRequest) :
    Stepped uuid tables sha256 factsSnapshotHash s (.crash call)
      (s.setPhase call request .crashed)

variable {s s' : RoutingState} {st : RoutingStep}

theorem stepped_of_step (h : s.step uuid tables sha256 factsSnapshotHash st = some s') :
    Stepped uuid tables sha256 factsSnapshotHash s st s' := by
  cases st with
  | begin call request =>
    rw [step] at h
    split_ifs at h
    rw [← Option.some.inj h]
    exact .begin call request
  | find call rows =>
    simp only [step] at h
    split at h
    case h_1 request hcall =>
      split_ifs at h with hcond
      rw [Bool.and_eq_true] at hcond
      rw [← Option.some.inj h]
      exact .find call rows hcall hcond.2
    case h_2 => cases h
  | load call db =>
    simp only [step] at h
    split at h
    case h_1 request hcall =>
      split_ifs at h
      rw [← Option.some.inj h]
      exact .load call db request
    case h_2 request hcall =>
      rw [← Option.some.inj h]
      exact .load call db request
    case h_3 => cases h
  | persist call rows =>
    simp only [step] at h
    split at h
    case h_1 request work hcall =>
      split_ifs at h with hrows
      rw [← Option.some.inj h]
      exact .persist call rows hcall hrows
    case h_2 => cases h
  | crash call =>
    simp only [step] at h
    split at h
    case h_1 request phase hcall =>
      rw [← Option.some.inj h]
      exact .crash call request
    case h_2 => cases h

theorem step_load {call : ℕ} {request : RoutingRequest}
    (h : s.calls.lookup call = some ⟨request, .looked⟩) (db : SnapshotTables) :
    s.step uuid tables sha256 factsSnapshotHash (.load call db) =
      some (s.load uuid tables sha256 factsSnapshotHash call request db) := by
  rw [step, h]

theorem step_persist {call : ℕ} {request : RoutingRequest} {work : RoutingWork}
    {rows : List PublicationIntentRecord} {t : RoutingTables} {result : RoutingExecutionResult}
    (h : s.calls.lookup call = some ⟨request, .evaluated work⟩)
    (hreadable : s.readable request.requestId rows = true)
    (hpersist : s.persistEvaluation uuid tables work rows = .ok (t, result)) :
    s.step uuid tables sha256 factsSnapshotHash (.persist call rows) =
      some { s.setPhase call request (.finished (.ok result)) with toRoutingTables := t } := by
  rw [step, h]
  dsimp only
  rw [if_pos hreadable, persist, hpersist]

/-- The rows a call reads are the intents of the evaluation of its request. -/
theorem perm_of_readable {routingRequestId : String} {rows : List PublicationIntentRecord}
    {evaluation : RoutingEvaluationRecord} (h : s.readable routingRequestId rows = true)
    (hfind : s.evaluation? routingRequestId = some evaluation) :
    rows.Perm (s.intentsOf evaluation) := by
  unfold readable at h
  rw [hfind] at h
  exact List.isPerm_iff.mp h

/-- A step that sets the phase of one call. -/
theorem Sound.of_set (h : s.Sound uuid tables factsSnapshotHash) (phase : RoutingPhase)
    (htables : s'.toRoutingTables.Sound uuid tables)
    (hext : s'.toRoutingTables.Extends s.toRoutingTables) {call : ℕ} {request : RoutingRequest}
    (hcalls : s'.calls = s.calls.set call ⟨request, phase⟩)
    (hphase : PhaseSound uuid tables factsSnapshotHash s'.toRoutingTables request phase) :
    s'.Sound uuid tables factsSnapshotHash := by
  refine ⟨htables, fun call' request' phase' hlookup => ?_⟩
  rw [hcalls] at hlookup
  rcases Dict.of_lookup_set hlookup with ⟨-, heq⟩ | ⟨-, hlookup⟩
  · obtain ⟨rfl, rfl⟩ := RoutingCall.mk.inj heq
    exact hphase
  · have hold := h.phases call' request' phase' hlookup
    cases phase' with
    | finished outcome =>
      cases outcome with
      | ok result => exact fun hdry => (hold hdry).of_extends htables hext
      | error e => trivial
    | evaluated work => exact hold
    | _ => trivial

theorem Sound.find (h : s.Sound uuid tables factsSnapshotHash) {call : ℕ}
    {request : RoutingRequest} {rows : List PublicationIntentRecord}
    (hrows : s.readable request.requestId rows = true) :
    (s.find uuid tables call request rows).Sound uuid tables factsSnapshotHash := by
  unfold RoutingState.find
  cases hfind : s.evaluation? request.requestId with
  | none => exact h.of_set .looked h.tables_sound (.refl _) rfl trivial
  | some evaluation =>
    refine h.of_set (.finished (reuseExecution uuid tables evaluation rows
      request.requestId request.messageId request.routingPolicyVersionId)) h.tables_sound (.refl _)
      rfl ?_
    cases hresult : reuseExecution uuid tables evaluation rows request.requestId
        request.messageId request.routingPolicyVersionId with
    | ok result =>
      exact fun _ => h.tables_sound.reports_of_reuse hfind (perm_of_readable hrows hfind) hresult
    | error e => trivial

theorem Sound.load (h : s.Sound uuid tables factsSnapshotHash) (call : ℕ)
    (request : RoutingRequest) (db : SnapshotTables) :
    (s.load uuid tables sha256 factsSnapshotHash call request db).Sound uuid tables
      factsSnapshotHash := by
  unfold RoutingState.load
  dsimp only
  split
  case h_1 e hwork =>
    exact h.of_set (.finished (.error e)) h.tables_sound (.refl _) rfl trivial
  case h_2 work hwork =>
    obtain ⟨snapshot, hload, hwork⟩ := bind_eq_ok.mp hwork
    cases hdry : request.dryRun with
    | true =>
      refine h.of_set (.finished (.ok (work.result false true))) h.tables_sound (.refl _)
        rfl fun hformal => ?_
      cases hdry.symm.trans hformal
    | false =>
      exact h.of_set (.evaluated work) h.tables_sound (.refl _) rfl
        ⟨hdry, workOf_evaluateSnapshot hload hwork⟩

theorem Sound.persist (h : s.Sound uuid tables factsSnapshotHash) {call : ℕ}
    {request : RoutingRequest} {work : RoutingWork}
    (hcall : s.calls.lookup call = some ⟨request, .evaluated work⟩)
    {rows : List PublicationIntentRecord} (hrows : s.readable request.requestId rows = true) :
    (s.persist uuid tables call request work rows).Sound uuid tables factsSnapshotHash := by
  obtain ⟨-, hwork⟩ := h.phases call request (.evaluated work) hcall
  unfold RoutingState.persist
  split
  case h_1 e _ =>
    exact h.of_set (.finished (.error e)) h.tables_sound (.refl _) rfl trivial
  case h_2 t result hpersist =>
    cases hfind : s.evaluation? request.requestId with
    | none =>
      obtain ⟨hsound, hext, hreports⟩ := h.tables_sound.persistEvaluation_new hwork hfind hpersist
      exact h.of_set (.finished (.ok result)) hsound hext rfl fun _ => hreports
    | some evaluation =>
      rcases h.tables_sound.persistEvaluation_existing hwork hfind
        (perm_of_readable hrows hfind) with ⟨e, he, -⟩ | ⟨result', hok, hreports⟩
      · cases hpersist.symm.trans he
      · obtain ⟨rfl, rfl⟩ := Prod.mk.inj (Except.ok.inj (hpersist.symm.trans hok))
        exact h.of_set (.finished (.ok result)) h.tables_sound (.refl _) rfl
          fun _ => hreports

/-- Every step keeps a state sound. -/
theorem Sound.step (h : s.Sound uuid tables factsSnapshotHash)
    (hstep : s.step uuid tables sha256 factsSnapshotHash st = some s') :
    s'.Sound uuid tables factsSnapshotHash := by
  cases stepped_of_step hstep with
  | begin call request => exact h.of_set .started h.tables_sound (.refl _) rfl trivial
  | find call rows hcall hrows => exact h.find hrows
  | load call db request => exact h.load call request db
  | persist call rows hcall hrows => exact h.persist hcall hrows
  | crash call request => exact h.of_set .crashed h.tables_sound (.refl _) rfl trivial

/-- The states of a run from the empty tables are sound. -/
theorem sound_of_run {steps : List RoutingStep}
    (hrun : Runs.run (RoutingState.step uuid tables sha256 factsSnapshotHash) {} steps = some s) :
    s.Sound uuid tables factsSnapshotHash := by
  refine Runs.run_invariant' (fun _ _ _ h hstep => h.step hstep) ⟨⟨?_, ?_, ?_⟩, ?_⟩ hrun
  · exact List.nodup_nil
  · exact fun row hrow => absurd hrow List.not_mem_nil
  · exact fun evaluation hmem => absurd hmem List.not_mem_nil
  · intro call request phase hlookup
    cases hlookup

/-- Only the transaction of a formal call whose request has no evaluation writes. -/
theorem Sound.writes (h : s.Sound uuid tables factsSnapshotHash)
    (hstep : s.step uuid tables sha256 factsSnapshotHash st = some s')
    (hne : s'.toRoutingTables ≠ s.toRoutingTables) :
    ∃ call rows request work result, st = .persist call rows ∧
      s.calls.lookup call = some ⟨request, .evaluated work⟩ ∧ request.dryRun = false ∧
      s.evaluation? request.requestId = none ∧
      s'.calls.lookup call = some ⟨request, .finished (.ok result)⟩ := by
  cases stepped_of_step hstep with
  | begin call request => exact absurd rfl hne
  | find call rows hcall hrows =>
    refine absurd ?_ hne
    unfold RoutingState.find
    split <;> rfl
  | load call db request =>
    refine absurd ?_ hne
    unfold RoutingState.load
    dsimp only
    split <;> rfl
  | @persist call rows request work hcall hrows =>
    obtain ⟨hdry, hwork⟩ := h.phases call request (.evaluated work) hcall
    unfold RoutingState.persist at hne ⊢
    split at hne
    case h_1 e _ => exact absurd rfl hne
    case h_2 t result hpersist =>
      refine ⟨call, rows, request, work, result, rfl, hcall, hdry, ?_, ?_⟩
      · cases hfind : s.evaluation? request.requestId with
        | none => rfl
        | some evaluation =>
          rcases h.tables_sound.persistEvaluation_existing hwork hfind
            (perm_of_readable hrows hfind) with ⟨e, he, -⟩ | ⟨result', hok, -⟩
          · cases hpersist.symm.trans he
          · exact absurd (Prod.mk.inj (Except.ok.inj (hpersist.symm.trans hok))).1 hne
      · exact Dict.lookup_set_self ..
  | crash call request => exact absurd rfl hne

/-- A call that meets the evaluation of another message or policy version is rejected, and writes
nothing. -/
theorem Sound.rejects (h : s.Sound uuid tables factsSnapshotHash)
    (hstep : s.step uuid tables sha256 factsSnapshotHash st = some s') {call : ℕ}
    {rows : List PublicationIntentRecord} (hst : st = .find call rows ∨ st = .persist call rows)
    {request : RoutingRequest} {phase : RoutingPhase}
    (hlookup : s.calls.lookup call = some ⟨request, phase⟩) {evaluation : RoutingEvaluationRecord}
    (hfind : s.evaluation? request.requestId = some evaluation)
    (hdiffers : uuid.text evaluation.messageId ≠ request.messageId ∨
      uuid.text evaluation.routingPolicyVersionId ≠ request.routingPolicyVersionId) :
    s'.toRoutingTables = s.toRoutingTables ∧ ∃ e, e.isDomainValidation = true ∧
      s'.calls.lookup call = some ⟨request, .finished (.error e)⟩ := by
  have hnot : ¬(uuid.text evaluation.messageId = request.messageId ∧
      uuid.text evaluation.routingPolicyVersionId = request.routingPolicyVersionId) :=
    fun hsame => hdiffers.elim (absurd hsame.1) (absurd hsame.2)
  rcases hst with rfl | rfl
  · cases stepped_of_step hstep with
    | @find _ _ request' hcall hrows =>
      obtain ⟨rfl, -⟩ := RoutingCall.mk.inj (Option.some.inj (hlookup.symm.trans hcall))
      have hreuse := h.tables_sound.reuseExecution_eq request hfind (perm_of_readable hrows hfind)
      rw [if_neg hnot] at hreuse
      obtain ⟨e, he, hvalidation⟩ := hreuse
      unfold RoutingState.find
      rw [hfind]
      dsimp only
      rw [he]
      exact ⟨rfl, e, hvalidation, Dict.lookup_set_self ..⟩
  · cases stepped_of_step hstep with
    | @persist _ _ request' work hcall hrows =>
      obtain ⟨rfl, -⟩ := RoutingCall.mk.inj (Option.some.inj (hlookup.symm.trans hcall))
      obtain ⟨-, hwork⟩ := h.phases call request (.evaluated work) hcall
      rcases h.tables_sound.persistEvaluation_existing hwork hfind
        (perm_of_readable hrows hfind) with ⟨e, he, hvalidation⟩ | ⟨result, -, hreports⟩
      · unfold RoutingState.persist
        rw [he]
        exact ⟨rfl, e, hvalidation, Dict.lookup_set_self ..⟩
      · obtain ⟨evaluation', hfind', hmessage, hversion, -⟩ := hreports
        obtain rfl := Option.some.inj (hfind.symm.trans hfind')
        exact absurd ⟨hmessage, hversion⟩ hnot

end RoutingState

/-- A request is evaluated at most once, in every run of concurrent calls that crash anywhere. The
tables hold at most one evaluation of a request, with exactly the intents of its decision, in
order. Every formal call that returns reports that evaluation and those intents. Only a formal
call whose request has no evaluation yet writes, and it writes the whole evaluation. A call that
meets the evaluation of another message or policy version is rejected and writes nothing. -/
theorem evaluated_once {steps : List RoutingStep} {s : RoutingState}
    (hrun : Runs.run (RoutingState.step uuid tables sha256 factsSnapshotHash) {} steps = some s) :
    ((s.evaluations.map (·.routingRequestId)).Nodup ∧
      (∀ row ∈ s.intents, row.routingEvaluationId ∈ s.evaluations.map (·.id)) ∧
      ∀ evaluation ∈ s.evaluations, s.Complete uuid tables evaluation) ∧
    (∀ call request result, s.calls.lookup call = some ⟨request, .finished (.ok result)⟩ →
      request.dryRun = false → s.Reports uuid request result) ∧
    ∀ st s', s.step uuid tables sha256 factsSnapshotHash st = some s' →
      (s'.toRoutingTables ≠ s.toRoutingTables → ∃ call rows request work result,
        st = .persist call rows ∧ s.calls.lookup call = some ⟨request, .evaluated work⟩ ∧
        request.dryRun = false ∧ s.evaluation? request.requestId = none ∧
        s'.calls.lookup call = some ⟨request, .finished (.ok result)⟩) ∧
      ∀ call rows request phase evaluation, st = .find call rows ∨ st = .persist call rows →
        s.calls.lookup call = some ⟨request, phase⟩ →
        s.evaluation? request.requestId = some evaluation →
        uuid.text evaluation.messageId ≠ request.messageId ∨
          uuid.text evaluation.routingPolicyVersionId ≠ request.routingPolicyVersionId →
        s'.toRoutingTables = s.toRoutingTables ∧ ∃ e, e.isDomainValidation = true ∧
          s'.calls.lookup call = some ⟨request, .finished (.error e)⟩ := by
  have h := RoutingState.sound_of_run hrun
  refine ⟨⟨h.tables_sound.requestIds_nodup, h.tables_sound.owned, h.tables_sound.complete⟩,
    fun call request result hlookup => h.phases call request _ hlookup, fun st s' hstep =>
      ⟨h.writes hstep, ?_⟩⟩
  intro call rows request phase evaluation hst hlookup hfind hdiffers
  exact h.rejects hstep hst hlookup hfind hdiffers

end

/-! ## Two calls of one request -/

/-- Message 6 without media. -/
def sampleMessageFacts : MessageFacts where
  message := []
  sourceChannel := []
  duplicateState := []
  media := []
  reviewStatus := .unreviewed
  modelAssignments := []
  manualEvents := []
  message_wf := wf_obj_of_mem List.nodup_nil fun _ h => absurd h List.not_mem_nil
  sourceChannel_wf := wf_obj_of_mem List.nodup_nil fun _ h => absurd h List.not_mem_nil
  duplicateState_wf := wf_obj_of_mem List.nodup_nil fun _ h => absurd h List.not_mem_nil
  media_wf := fun _ h => absurd h List.not_mem_nil

/-- The tables that the calls read. -/
def sampleRoutingTables : SnapshotTables :=
  { sampleSnapshotTables with messages := [(6, sampleMessageFacts)] }

/-- Two calls of one request that both look it up before either stores its evaluation. -/
def sampleRoutingSteps : List RoutingStep :=
  let row : PublicationIntentRecord := {
    id := 1, routingEvaluationId := 0, routingRequestId := "request", messageId := 6
    routingPolicyVersionId := 1, routingRuleId := 2, routingActionId := 3
    destinationChannelId := 4, publishIdentityId := 5, publicationMode := "forward_only"
    renderingTemplateVersionId := none, businessIdempotencyKey := "publication:v2:", status := "pending" }
  [.begin 0 sampleRoutingRequest, .begin 1 sampleRoutingRequest, .find 0 [], .find 1 [],
    .load 0 sampleRoutingTables, .load 1 sampleRoutingTables, .persist 0 [], .persist 1 [row]]

theorem sampleMessageId_not_blank : isBlank (sampleUuid.text 6) = false :=
  sampleUuid.text_not_blank 6

/-- The snapshot of message 6. -/
def sampleSnapshot : RoutingSnapshot where
  messageId := sampleUuid.text 6
  message := []
  sourceChannel := []
  duplicateState := []
  media := []
  reviewStatus := .unreviewed
  modelAssignments := []
  manualEvents := []
  policy := samplePolicy
  destinationPublishIdentityIds := [(sampleUuid.text 4, sampleUuid.text 5)]
  messageId_not_blank := sampleMessageId_not_blank
  message_wf := sampleMessageFacts.message_wf
  sourceChannel_wf := sampleMessageFacts.sourceChannel_wf
  duplicateState_wf := sampleMessageFacts.duplicateState_wf
  media_wf := sampleMessageFacts.media_wf

theorem loadSnapshot_sample : loadSnapshot sampleUuid samplePolicyTables
    { sampleSnapshotTables with messages := [(6, sampleMessageFacts)] }
    (sampleUuid.text 6) (sampleUuid.text 1) = .ok sampleSnapshot := by
  refine bind_eq_ok.mpr ⟨6, UuidFormat.asUuid_text .., ?_⟩
  refine bind_eq_ok.mpr ⟨1, UuidFormat.asUuid_text .., seq_eq_ok.mpr ⟨rfl, ?_⟩⟩
  exact bind_eq_ok.mpr ⟨_, buildPolicy_sample _, rfl⟩

theorem exists_sampleFacts : ∃ facts, buildRoutingFacts sampleSnapshot = .ok facts ∧
    evaluateCondition sampleRule.condition facts = true := by
  have h : (buildRoutingFacts sampleSnapshot).toOption.any
      (evaluateCondition sampleRule.condition) = true := by decide +kernel
  simpa only [Option.any_eq_true, toOption_eq_some] using h

theorem exists_buildIntents_sample {request : RoutingRequest}
    (hmessage : request.messageId = sampleUuid.text 6)
    (hversion : request.routingPolicyVersionId = sampleUuid.text 1) (facts : Facts)
    (sha256 : String → String) (evaluationId : ℕ) : ∃ canonical,
      buildIntents sampleUuid sha256
        (evaluationDraft (fun _ => "") request (sampleUuid.text evaluationId) facts sampleDecision)
        [(sampleUuid.text 4, sampleUuid.text 5)] (evaluationId + 1) sampleDecision.actions =
        .ok (sampleWork request "" facts evaluationId
          ("publication:v2:" ++ sha256 canonical)).intents := by
  obtain ⟨canonical, hkey⟩ := exists_publicationIdempotencyKey "forward_only"
    request.messageId_not_blank
    (sampleUuid.text_not_blank 4) request.routingPolicyVersionId_not_blank
    (sampleUuid.text_not_blank 2) (sampleUuid.text_not_blank 3) request.requestId_not_blank
    (sampleUuid.text_not_blank evaluationId) sha256
  have hidentity : (Option.or none ([(sampleUuid.text 4, sampleUuid.text 5)].lookup
      (sampleUuid.text 4))).getD "" = sampleUuid.text 5 := by
    rw [Option.none_or, List.lookup_cons_self, Option.getD_some]
  have hintent : buildIntent sampleUuid sha256
      (evaluationDraft (fun _ => "") request (sampleUuid.text evaluationId) facts sampleDecision)
      [(sampleUuid.text 4, sampleUuid.text 5)] (evaluationId + 1)
      (⟨sampleActionFields, postInit_sampleActionFields⟩ : PublicationAction) = .ok { sampleIntent with
        intentId := sampleUuid.text (evaluationId + 1)
        routingEvaluationId := sampleUuid.text evaluationId
        routingRequestId := request.requestId
        businessIdempotencyKey := "publication:v2:" ++ sha256 canonical } := by
    unfold buildIntent
    simp only [sampleActionFields, RoutingActionRow.fields]
    rw [Option.map_none, hidentity]
    refine seq_eq_ok.mpr ⟨?_, bind_eq_ok.mpr ⟨_, hkey, ?_⟩⟩
    · simp [sampleUuid.text_not_blank]
    · simp only [evaluationDraft, hmessage, hversion]
      rfl
  refine ⟨canonical, bind_eq_ok.mpr ⟨_, hintent, ?_⟩⟩
  exact bind_eq_ok.mpr ⟨[], rfl, rfl⟩

theorem exists_evaluateSnapshot_sample {request : RoutingRequest}
    (hmessage : request.messageId = sampleUuid.text 6)
    (hversion : request.routingPolicyVersionId = sampleUuid.text 1) {facts : Facts}
    (hfacts : buildRoutingFacts sampleSnapshot = .ok facts)
    (hmatches : evaluateCondition sampleRule.condition facts = true) (sha256 : String → String)
    (evaluationId : ℕ) : ∃ canonical,
      evaluateSnapshot sampleUuid sha256 (fun _ => "") request sampleSnapshot evaluationId =
        .ok (sampleWork request "" facts evaluationId ("publication:v2:" ++ sha256 canonical)) := by
  have hdecision : evaluateRouting sampleSnapshot.policy facts = sampleDecision :=
    evaluateRouting_samplePolicy hmatches
  obtain ⟨canonical, hintents⟩ :=
    exists_buildIntents_sample hmessage hversion facts sha256 evaluationId
  refine ⟨canonical, seq_eq_ok.mpr ⟨?_, seq_eq_ok.mpr ⟨?_, bind_eq_ok.mpr ⟨facts, hfacts, ?_⟩⟩⟩⟩
  · rw [hmessage]
    exact ensure_eq_ok.mpr (decide_eq_true rfl)
  · rw [hversion]
    exact ensure_eq_ok.mpr (decide_eq_true rfl)
  · rw [hdecision]
    exact bind_eq_ok.mpr ⟨_, hintents, rfl⟩

theorem exists_persistEvaluation_again (facts : Facts) (evaluationId evaluationId' : ℕ)
    (businessIdempotencyKey businessIdempotencyKey' : String) : ∃ result,
      RoutingTables.persistEvaluation sampleUuid samplePolicyTables
        ⟨[sampleEvaluationRow "" facts evaluationId],
          [sampleIntentRow evaluationId businessIdempotencyKey]⟩
        (sampleWork sampleRoutingRequest "" facts evaluationId' businessIdempotencyKey')
        [sampleIntentRow evaluationId businessIdempotencyKey] =
      .ok (⟨[sampleEvaluationRow "" facts evaluationId],
        [sampleIntentRow evaluationId businessIdempotencyKey]⟩, result) := by
  obtain ⟨action, -, hload⟩ :=
    loadExecution_sampleRows "" facts evaluationId businessIdempotencyKey
  have hreuse : ∃ result, reuseExecution sampleUuid samplePolicyTables
      (sampleEvaluationRow "" facts evaluationId)
      [sampleIntentRow evaluationId businessIdempotencyKey] sampleRoutingRequest.requestId
      sampleRoutingRequest.messageId sampleRoutingRequest.routingPolicyVersionId = .ok result := by
    refine ⟨_, bind_eq_ok.mpr ⟨_, hload, seq_eq_ok.mpr ⟨?_, rfl⟩⟩⟩
    rw [validateRoutingRequestReuse_eq, ensure_eq_ok]
    simp [sampleRoutingRequest]
  obtain ⟨result, hreuse⟩ := hreuse
  refine ⟨result, seq_eq_ok.mpr ⟨validatePersistencePayload_sampleWork .., ?_⟩⟩
  exact bind_eq_ok.mpr ⟨_, record_sampleWork .., bind_eq_ok.mpr ⟨_, hreuse, rfl⟩⟩

theorem exists_work_sample {facts : Facts} (hfacts : buildRoutingFacts sampleSnapshot = .ok facts)
    (hmatches : evaluateCondition sampleRule.condition facts = true) (evaluationId : ℕ) : (do
      let snapshot ← loadSnapshot sampleUuid samplePolicyTables sampleRoutingTables
        sampleRoutingRequest.messageId sampleRoutingRequest.routingPolicyVersionId
      evaluateSnapshot sampleUuid (fun _ => "") (fun _ => "") sampleRoutingRequest snapshot
        evaluationId) =
      .ok (sampleWork sampleRoutingRequest "" facts evaluationId "publication:v2:") := by
  have hrequest : sampleRoutingRequest.messageId = sampleUuid.text 6 := rfl
  obtain ⟨canonical, hwork⟩ :=
    exists_evaluateSnapshot_sample hrequest rfl hfacts hmatches (fun _ => "") evaluationId
  rw [String.append_empty] at hwork
  exact bind_eq_ok.mpr ⟨_, loadSnapshot_sample, hwork⟩

theorem load_sample {facts : Facts} (hfacts : buildRoutingFacts sampleSnapshot = .ok facts)
    (hmatches : evaluateCondition sampleRule.condition facts = true) (s : RoutingState)
    (call : ℕ) :
    s.load sampleUuid samplePolicyTables (fun _ => "") (fun _ => "") call sampleRoutingRequest
      sampleRoutingTables =
      { s.setPhase call sampleRoutingRequest
          (.evaluated (sampleWork sampleRoutingRequest "" facts s.nextId "publication:v2:")) with
        nextId := s.nextId + 2 } := by
  have hformal : ¬ sampleRoutingRequest.dryRun = true := Bool.false_ne_true
  rw [RoutingState.load, exists_work_sample hfacts hmatches]
  simp only [if_neg hformal, sampleWork, List.length_singleton]

/-- The state while both calls run. -/
def sampleRoutingState (t : RoutingTables) (first second : RoutingPhase) (nextId : ℕ) :
    RoutingState where
  toRoutingTables := t
  calls := [(0, ⟨sampleRoutingRequest, first⟩), (1, ⟨sampleRoutingRequest, second⟩)]
  nextId := nextId

/-- A step on the sample tables. -/
abbrev sampleStep : RoutingState → RoutingStep → Option RoutingState :=
  RoutingState.step sampleUuid samplePolicyTables (fun _ => "") (fun _ => "")

theorem exists_run_sample : ∃ s first second,
    Runs.run sampleStep {} sampleRoutingSteps = some s ∧
      s.calls.lookup 0 = some ⟨sampleRoutingRequest, .finished (.ok first)⟩ ∧
      s.calls.lookup 1 = some ⟨sampleRoutingRequest, .finished (.ok second)⟩ := by
  obtain ⟨facts, hfacts, hmatches⟩ := exists_sampleFacts
  obtain ⟨result, hagain⟩ :=
    exists_persistEvaluation_again facts 0 2 "publication:v2:" "publication:v2:"
  have hpersist := persistEvaluation_sampleWork "" facts 0 "publication:v2:" []
  have hload : sampleStep (sampleRoutingState {} .looked .looked 0) (.load 0 sampleRoutingTables) =
      some (sampleRoutingState {}
        (.evaluated (sampleWork sampleRoutingRequest "" facts 0 "publication:v2:")) .looked 2) := by
    rw [sampleStep, RoutingState.step_load rfl, load_sample hfacts hmatches]
    rfl
  have hload' (phase : RoutingPhase) : sampleStep (sampleRoutingState {} phase .looked 2)
      (.load 1 sampleRoutingTables) = some (sampleRoutingState {} phase
        (.evaluated (sampleWork sampleRoutingRequest "" facts 2 "publication:v2:")) 4) := by
    rw [sampleStep, RoutingState.step_load rfl, load_sample hfacts hmatches]
    rfl
  have hfirst (phase : RoutingPhase) : sampleStep (sampleRoutingState {}
      (.evaluated (sampleWork sampleRoutingRequest "" facts 0 "publication:v2:")) phase 4)
      (.persist 0 []) = some (sampleRoutingState _ (.finished (.ok _)) phase 4) :=
    RoutingState.step_persist rfl rfl hpersist
  have hreadable (phase phase' : RoutingPhase) : (sampleRoutingState
      ⟨[sampleEvaluationRow "" facts 0], [sampleIntentRow 0 "publication:v2:"]⟩ phase phase'
      4).readable "request" [sampleIntentRow 0 "publication:v2:"] = true :=
    List.isPerm_iff.mpr (.refl _)
  have hsecond (phase : RoutingPhase) : sampleStep (sampleRoutingState _ phase
      (.evaluated (sampleWork sampleRoutingRequest "" facts 2 "publication:v2:")) 4)
      (.persist 1 [sampleIntentRow 0 "publication:v2:"]) =
        some (sampleRoutingState _ phase (.finished (.ok result)) 4) :=
    RoutingState.step_persist rfl (hreadable _ _) hagain
  refine ⟨sampleRoutingState
    ⟨[sampleEvaluationRow "" facts 0], [sampleIntentRow 0 "publication:v2:"]⟩
    (.finished (.ok ((sampleWork sampleRoutingRequest "" facts 0 "publication:v2:").result true
      false))) (.finished (.ok result)) 4, _, result, ?_, rfl, rfl⟩
  unfold sampleRoutingSteps
  refine Runs.run_cons.mpr ⟨_, rfl, Runs.run_cons.mpr ⟨_, rfl, Runs.run_cons.mpr ⟨_, rfl, ?_⟩⟩⟩
  refine Runs.run_cons.mpr ⟨sampleRoutingState {} .looked .looked 0, rfl, ?_⟩
  refine Runs.run_cons.mpr ⟨_, hload, Runs.run_cons.mpr ⟨_, hload' _, ?_⟩⟩
  exact Runs.run_cons.mpr ⟨_, hfirst _, Runs.run_cons.mpr ⟨_, hsecond _, rfl⟩⟩

theorem evaluated_once_of_two_calls : ∃ s first second,
    Runs.run (RoutingState.step sampleUuid samplePolicyTables (fun _ => "") (fun _ => "")) {}
        sampleRoutingSteps = some s ∧
      s.calls.lookup 0 = some ⟨sampleRoutingRequest, .finished (.ok first)⟩ ∧
      s.calls.lookup 1 = some ⟨sampleRoutingRequest, .finished (.ok second)⟩ ∧
      s.Reports sampleUuid sampleRoutingRequest first ∧
      s.Reports sampleUuid sampleRoutingRequest second := by
  obtain ⟨s, first, second, hrun, hcall, hcall'⟩ := exists_run_sample
  have hreports := (evaluated_once hrun).2.1
  exact ⟨s, first, second, hrun, hcall, hcall', hreports 0 _ first hcall rfl,
    hreports 1 _ second hcall' rfl⟩

end TgCurator
