import Mathlib.Data.Prod.Lex
import TgCurator.Routing.Evaluation
import TgCurator.Runs

/-!
# Routing requests

Concurrent calls of `RoutingService.evaluate` and the tables they share. A call looks its request
up, loads a snapshot and evaluates it, and stores the evaluation with its intents in one
transaction; the three are separate steps, and a call can crash between them. Two calls with one
request id can both find nothing and both evaluate.

A `SELECT` without `ORDER BY` returns rows in any order: the step takes the order as an argument.
-/

namespace TgCurator

/-! ## Rows -/

/-- A row of `routing_evaluations`. -/
structure RoutingEvaluationRecord where
  id : ℕ
  routingRequestId : String
  messageId : ℕ
  routingPolicyVersionId : ℕ
  factsSnapshot : Facts
  factsHash : String
  ruleOutcomes : List Json
  stoppedAtRuleId : Option ℕ

/-- A row of `publication_intents`. -/
structure PublicationIntentRecord where
  id : ℕ
  routingEvaluationId : ℕ
  routingRequestId : String
  messageId : ℕ
  routingPolicyVersionId : ℕ
  routingRuleId : ℕ
  routingActionId : ℕ
  destinationChannelId : ℕ
  publishIdentityId : ℕ
  publicationMode : String
  renderingTemplateVersionId : Option ℕ
  businessIdempotencyKey : String
  status : String
  deriving DecidableEq

/-- The tables. -/
structure RoutingTables where
  evaluations : List RoutingEvaluationRecord := []
  intents : List PublicationIntentRecord := []

/-- The evaluation of a request. -/
def RoutingTables.evaluation? (t : RoutingTables) (routingRequestId : String) :
    Option RoutingEvaluationRecord :=
  t.evaluations.find? (·.routingRequestId = routingRequestId)

/-- The intents of an evaluation. -/
def RoutingTables.intentsOf (t : RoutingTables) (evaluation : RoutingEvaluationRecord) :
    List PublicationIntentRecord :=
  t.intents.filter (·.routingEvaluationId = evaluation.id)

/-! ## Reading an evaluation back -/

/-- `_stored_bool`. -/
def storedBool : Option Json → Option Bool
  | some (.bool b) => some b
  | _ => none

/-- `_rule_outcome_from_snapshot`. `str` leaves a string as it is, and every stored id is one. -/
def ruleOutcomeFromSnapshot (value : Json) : Except PyError RuleOutcome :=
  let outcome : Option RuleOutcome := do
    let entries ← match value with
      | .obj entries => some entries
      | _ => none
    let ruleId ← (entries.lookup "rule_id").bind string?
    let enabled ← storedBool (entries.lookup "enabled")
    let checked ← storedBool (entries.lookup "checked")
    let evaluated ← storedBool (entries.lookup "evaluated")
    let matched ← storedBool (entries.lookup "matched")
    let stoppedAfterMatch ← storedBool (entries.lookup "stopped_after_match")
    return ⟨ruleId, enabled, checked, evaluated, matched, stoppedAfterMatch⟩
  match outcome with
  | some outcome => .ok outcome
  | none => .error (.domainValidation "stored routing outcome is invalid" [])

/-- `rank`: the position of the outcome of a rule. -/
def outcomeRank (outcomes : List RuleOutcome) : Dict String ℕ :=
  Dict.ofList (outcomes.zipIdx.map fun e => (e.1.ruleId, e.2))

section

variable (uuid : UuidFormat) (tables : PolicyTables)

/-- The key intents are sorted by. -/
def intentKey (outcomes : List RuleOutcome) (row : PublicationIntentRecord) :
    Lex (ℕ × Lex (ℕ × String)) :=
  toLex (((outcomeRank outcomes).lookup (uuid.text row.routingRuleId)).getD
      (outcomeRank outcomes).length,
    toLex (((tables.actions.lookup row.routingActionId).map (·.outputOrder)).getD 0,
      uuid.text row.id))

/-- The order of two intents. -/
abbrev IntentLE (outcomes : List RuleOutcome) (a b : PublicationIntentRecord) : Prop :=
  intentKey uuid tables outcomes a ≤ intentKey uuid tables outcomes b

/-- `_intent_draft_from_record`. -/
def PublicationIntentRecord.draft (row : PublicationIntentRecord) : PublicationIntentDraft where
  intentId := uuid.text row.id
  routingEvaluationId := uuid.text row.routingEvaluationId
  routingRequestId := row.routingRequestId
  messageId := uuid.text row.messageId
  routingPolicyVersionId := uuid.text row.routingPolicyVersionId
  routingRuleId := uuid.text row.routingRuleId
  routingActionId := uuid.text row.routingActionId
  destinationChannelId := uuid.text row.destinationChannelId
  publishIdentityId := uuid.text row.publishIdentityId
  publicationMode := row.publicationMode
  renderingTemplateVersionId := row.renderingTemplateVersionId.map uuid.text
  businessIdempotencyKey := row.businessIdempotencyKey
  status := row.status

/-- The action of a stored intent. -/
def PublicationIntentRecord.action (row : PublicationIntentRecord) :
    Except PyError PublicationAction :=
  PublicationActionFields.create {
    actionId := uuid.text row.routingActionId
    destinationChannelId := uuid.text row.destinationChannelId
    publicationMode := row.publicationMode
    renderingTemplateVersionId := row.renderingTemplateVersionId.map uuid.text
    publishIdentityId := some (uuid.text row.publishIdentityId)
    routingRuleId := some (uuid.text row.routingRuleId) }

/-- `_load_execution_by_request`, for the row of the evaluation and the rows of its intents in the
order they are read. -/
def loadExecution (evaluation : RoutingEvaluationRecord) (rows : List PublicationIntentRecord) :
    Except PyError RoutingExecutionResult := do
  ensure (rows.all fun row => (tables.actions.lookup row.routingActionId).isSome)
    "stored publication intent references a missing routing action"
  let outcomes ← evaluation.ruleOutcomes.mapM ruleOutcomeFromSnapshot
  let orderedIntents := rows.insertionSort (IntentLE uuid tables outcomes)
  let actions ← orderedIntents.mapM (·.action uuid)
  return {
    evaluationId := uuid.text evaluation.id
    routingRequestId := evaluation.routingRequestId
    messageId := uuid.text evaluation.messageId
    routingPolicyVersionId := uuid.text evaluation.routingPolicyVersionId
    factsSnapshot := evaluation.factsSnapshot
    factsHash := evaluation.factsHash
    decision := {
      policyVersionId := uuid.text evaluation.routingPolicyVersionId
      outcomes
      actions
      stoppedAtRuleId := evaluation.stoppedAtRuleId.map uuid.text }
    intents := orderedIntents.map (·.draft uuid)
    persisted := true }

/-- The reuse of a stored evaluation: the check, and the result as reused. -/
def reuseExecution (evaluation : RoutingEvaluationRecord) (rows : List PublicationIntentRecord)
    (routingRequestId messageId routingPolicyVersionId : String) :
    Except PyError RoutingExecutionResult := do
  let existing ← loadExecution uuid tables evaluation rows
  validateRoutingRequestReuse existing routingRequestId messageId routingPolicyVersionId
  return { existing with reused := true }

/-! ## Storing an evaluation -/

/-- The check of one action and its intent in `_validate_persistence_payload`. -/
def validateIntent (evaluation : RoutingEvaluationDraft) (action : PublicationAction)
    (intent : PublicationIntentDraft) : Except PyError Unit := do
  ensure (intent.routingEvaluationId = evaluation.evaluationId &&
      intent.routingRequestId = evaluation.routingRequestId &&
      intent.messageId = evaluation.messageId &&
      intent.routingPolicyVersionId = evaluation.routingPolicyVersionId &&
      intent.status = "pending") "publication intent identity does not match evaluation"
  ensure action.routingRuleId.isSome "matched routing action has no owning rule"
  ensure (some intent.routingRuleId = action.routingRuleId &&
      intent.routingActionId = action.actionId &&
      intent.destinationChannelId = action.destinationChannelId &&
      intent.publicationMode = action.publicationMode &&
      intent.renderingTemplateVersionId = action.renderingTemplateVersionId &&
      action.publishIdentityId.all (intent.publishIdentityId = ·))
    "publication intent does not match routing action"

/-- `_validate_persistence_payload`. -/
def validatePersistencePayload (work : RoutingWork) : Except PyError Unit := do
  ensure (work.decision.policyVersionId = work.evaluation.routingPolicyVersionId)
    "routing decision policy does not match evaluation"
  ensure (Json.pyEq (.arr work.evaluation.ruleOutcomes)
      (.arr (work.decision.outcomes.map (·.snapshot))))
    "routing decision outcomes do not match evaluation snapshot"
  ensure (work.evaluation.stoppedAtRuleId = work.decision.stoppedAtRuleId)
    "routing stop position does not match evaluation"
  ensure (work.intents.length = work.decision.actions.length)
    "publication intents do not match routing actions"
  (work.decision.actions.zip work.intents).forM fun e => validateIntent work.evaluation e.1 e.2

/-- The values of `routing_evaluation_insert_statement`. -/
def RoutingEvaluationDraft.record (evaluation : RoutingEvaluationDraft) :
    Except PyError RoutingEvaluationRecord := do
  return {
    id := ← uuid.asUuid evaluation.evaluationId "evaluation_id"
    routingRequestId := evaluation.routingRequestId
    messageId := ← uuid.asUuid evaluation.messageId "message_id"
    routingPolicyVersionId :=
      ← uuid.asUuid evaluation.routingPolicyVersionId "routing_policy_version_id"
    factsSnapshot := evaluation.factsSnapshot
    factsHash := evaluation.factsHash
    ruleOutcomes := evaluation.ruleOutcomes
    stoppedAtRuleId := ← uuid.optionalUuid evaluation.stoppedAtRuleId "stopped_at_rule_id" }

/-- `_intent_record`. -/
def PublicationIntentDraft.record (intent : PublicationIntentDraft) :
    Except PyError PublicationIntentRecord := do
  return {
    id := ← uuid.asUuid intent.intentId "intent_id"
    routingEvaluationId := ← uuid.asUuid intent.routingEvaluationId "routing_evaluation_id"
    routingRequestId := intent.routingRequestId
    messageId := ← uuid.asUuid intent.messageId "message_id"
    routingPolicyVersionId :=
      ← uuid.asUuid intent.routingPolicyVersionId "routing_policy_version_id"
    routingRuleId := ← uuid.asUuid intent.routingRuleId "routing_rule_id"
    routingActionId := ← uuid.asUuid intent.routingActionId "routing_action_id"
    destinationChannelId := ← uuid.asUuid intent.destinationChannelId "destination_channel_id"
    publishIdentityId := ← uuid.asUuid intent.publishIdentityId "publish_identity_id"
    publicationMode := intent.publicationMode
    renderingTemplateVersionId :=
      ← uuid.optionalUuid intent.renderingTemplateVersionId "rendering_template_version_id"
    businessIdempotencyKey := intent.businessIdempotencyKey
    status := "pending" }

/-- The primary key of `routing_evaluations`. -/
def checkEvaluation (stored : List RoutingEvaluationRecord) (new : RoutingEvaluationRecord) :
    Except PyError Unit :=
  if new.id ∈ stored.map (·.id) then .error .integrityError else .ok ()

/-- The primary key and the unique constraints of `publication_intents`. -/
def checkIntents (stored new : List PublicationIntentRecord) : Except PyError Unit :=
  if ((stored ++ new).map (·.id)).Nodup ∧
      ((stored ++ new).map fun row => (row.routingEvaluationId, row.routingActionId)).Nodup ∧
      ((stored ++ new).map (·.businessIdempotencyKey)).Nodup then .ok ()
  else .error .integrityError

/-- `persist_evaluation`: one transaction, which an exception rolls back. -/
def RoutingTables.persistEvaluation (t : RoutingTables) (work : RoutingWork)
    (rows : List PublicationIntentRecord) :
    Except PyError (RoutingTables × RoutingExecutionResult) := do
  validatePersistencePayload work
  let record ← work.evaluation.record uuid
  match t.evaluation? work.evaluation.routingRequestId with
  | some existing =>
    let result ← reuseExecution uuid tables existing rows work.evaluation.routingRequestId
      work.evaluation.messageId work.evaluation.routingPolicyVersionId
    return (t, result)
  | none =>
    checkEvaluation t.evaluations record
    let records ← work.intents.mapM (·.record uuid)
    checkIntents t.intents records
    return ({ evaluations := t.evaluations ++ [record], intents := t.intents ++ records },
      work.result true false)

/-! ## Calls -/

/-- Where a call of `evaluate` stands. -/
inductive RoutingPhase
  | started
  /-- The lookup found nothing. -/
  | looked
  /-- The snapshot is loaded and evaluated. -/
  | evaluated (work : RoutingWork)
  | finished (outcome : Except PyError RoutingExecutionResult)
  | crashed

/-- A call of `evaluate`. -/
structure RoutingCall where
  request : RoutingRequest
  phase : RoutingPhase

/-- The tables and the calls. Ids are drawn from a counter, standing for `uuid4`. -/
structure RoutingState extends RoutingTables where
  calls : Dict ℕ RoutingCall := []
  nextId : ℕ := 0

/-- A step of a call. -/
inductive RoutingStep
  | begin (call : ℕ) (request : RoutingRequest)
  /-- `find_by_request_id`. -/
  | find (call : ℕ) (rows : List PublicationIntentRecord)
  /-- `load_snapshot` and what follows up to the transaction. -/
  | load (call : ℕ) (db : SnapshotTables)
  /-- `persist_evaluation`. -/
  | persist (call : ℕ) (rows : List PublicationIntentRecord)
  | crash (call : ℕ)

namespace RoutingState

/-- The state with a call in a phase. -/
def setPhase (s : RoutingState) (call : ℕ) (request : RoutingRequest) (phase : RoutingPhase) :
    RoutingState :=
  { s with calls := s.calls.set call ⟨request, phase⟩ }

/-- Whether these are the intents of the evaluation of a request, in some order. -/
def readable (s : RoutingState) (routingRequestId : String) (rows : List PublicationIntentRecord) :
    Bool :=
  match s.evaluation? routingRequestId with
  | none => rows.isEmpty
  | some evaluation => rows.isPerm (s.intentsOf evaluation)

variable (sha256 : String → String) (factsSnapshotHash : Facts → String)

/-- The state after `find_by_request_id`. -/
def find (s : RoutingState) (call : ℕ) (request : RoutingRequest)
    (rows : List PublicationIntentRecord) : RoutingState :=
  match s.evaluation? request.requestId with
  | none => s.setPhase call request .looked
  | some existing => s.setPhase call request <| .finished <|
      reuseExecution uuid tables existing rows request.requestId request.messageId
        request.routingPolicyVersionId

/-- The state after `load_snapshot` and the evaluation. -/
def load (s : RoutingState) (call : ℕ) (request : RoutingRequest) (db : SnapshotTables) :
    RoutingState :=
  let work := do
    let snapshot ← loadSnapshot uuid tables db request.messageId request.routingPolicyVersionId
    evaluateSnapshot uuid sha256 factsSnapshotHash request snapshot s.nextId
  match work with
  | .error e => s.setPhase call request (.finished (.error e))
  | .ok work =>
    { s.setPhase call request
        (if request.dryRun then .finished (.ok (work.result false true)) else .evaluated work) with
      nextId := s.nextId + 1 + work.intents.length }

/-- The state after `persist_evaluation`. -/
def persist (s : RoutingState) (call : ℕ) (request : RoutingRequest) (work : RoutingWork)
    (rows : List PublicationIntentRecord) : RoutingState :=
  match s.persistEvaluation uuid tables work rows with
  | .error e => s.setPhase call request (.finished (.error e))
  | .ok (t, result) => { s.setPhase call request (.finished (.ok result)) with toRoutingTables := t }

/-- One step, if the call can take it. A dry run goes to the snapshot at once. -/
def step (s : RoutingState) : RoutingStep → Option RoutingState
  | .begin call request =>
    if call ∈ s.calls.keys then none else some (s.setPhase call request .started)
  | .find call rows =>
    match s.calls.lookup call with
    | some ⟨request, .started⟩ =>
      if !request.dryRun && s.readable request.requestId rows then
        some (s.find uuid tables call request rows)
      else none
    | _ => none
  | .load call db =>
    match s.calls.lookup call with
    | some ⟨request, .started⟩ =>
      if request.dryRun then some (s.load uuid tables sha256 factsSnapshotHash call request db)
      else none
    | some ⟨request, .looked⟩ =>
      some (s.load uuid tables sha256 factsSnapshotHash call request db)
    | _ => none
  | .persist call rows =>
    match s.calls.lookup call with
    | some ⟨request, .evaluated work⟩ =>
      if s.readable request.requestId rows then
        some (s.persist uuid tables call request work rows)
      else none
    | _ => none
  | .crash call =>
    match s.calls.lookup call with
    | some ⟨request, _⟩ => some (s.setPhase call request .crashed)
    | none => none

end RoutingState

end

end TgCurator
