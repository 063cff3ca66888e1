import TgCurator.JsonText
import TgCurator.Routing.Facts

/-!
# Routing evaluations

`RoutingService.evaluate` of `application/routing/service.py` and the repository it goes through,
`infrastructure/database/routing_repository.py`: the snapshot of a message and a published policy,
the evaluation and the publication intents made from it, the transaction that stores them, and how
a stored evaluation is read back.

UUIDs in rows are numbers; `UuidFormat` is their text. The rows of a published policy never change
(the triggers on `routing_rules` and `routing_actions`), and `PolicyTables` holds them. SHA-256 and
the hash of the facts are parameters.
-/

namespace TgCurator

/-- The text of a UUID, and the UUID a text denotes. -/
structure UuidFormat where
  text : ℕ → String
  parse : String → Option ℕ
  parse_text : ∀ id, parse (text id) = some id
  text_not_blank : ∀ id, isBlank (text id) = false

/-- The text of a number after a fixed start. -/
def numbered (base : String) (id : ℕ) : String :=
  base ++ String.ofList (List.leftpad 12 '0' (Nat.toDigits 10 id))

/-- The number of a text with a fixed start. -/
def parseNumbered (base value : String) : Option ℕ :=
  let id := Nat.ofDigitChars 10 (value.toList.drop base.toList.length) 0
  if numbered base id = value then some id else none

theorem parseNumbered_numbered (base : String) (id : ℕ) :
    parseNumbered base (numbered base id) = some id := by
  have hid : Nat.ofDigitChars 10 ((numbered base id).toList.drop base.toList.length) 0 = id := by
    rw [numbered, String.toList_append, String.toList_ofList, List.drop_left' rfl, List.leftpad,
      Nat.ofDigitChars_append, Nat.ofDigitChars_replicate_zero, Nat.mul_zero,
      Nat.ofDigitChars_ten_toDigits]
  unfold parseNumbered
  rw [hid, if_pos rfl]

theorem numbered_not_blank {base : String} (hbase : isBlank base = false) (id : ℕ) :
    isBlank (numbered base id) = false := by
  unfold isBlank at hbase ⊢
  rw [numbered, String.toList_append, List.all_append, hbase, Bool.false_and]

/-- UUIDs that differ in their last block. -/
def sampleUuid : UuidFormat where
  text := numbered "00000000-0000-4000-8000-"
  parse := parseNumbered "00000000-0000-4000-8000-"
  parse_text := parseNumbered_numbered _
  text_not_blank := numbered_not_blank (by decide +kernel)

/-- `_as_uuid`. -/
def UuidFormat.asUuid (uuid : UuidFormat) (value field : String) : Except PyError ℕ :=
  match uuid.parse value with
  | some id => .ok id
  | none => .error (.domainValidation "% must be a UUID" [field])

/-- `_optional_uuid`. -/
def UuidFormat.optionalUuid (uuid : UuidFormat) (value : Option String) (field : String) :
    Except PyError (Option ℕ) :=
  match value with
  | none => .ok none
  | some value => some <$> uuid.asUuid value field

/-! ## Policies -/

/-- A row of `routing_rules`, apart from its id. -/
structure RoutingRuleRow where
  routingPolicyVersionId : ℕ
  priority : ℤ
  condition : Json
  stopOnMatch : Bool
  enabled : Bool

/-- A row of `routing_actions`, apart from its id. -/
structure RoutingActionRow where
  routingRuleId : ℕ
  destinationChannelId : ℕ
  publicationMode : String
  renderingTemplateVersionId : Option ℕ
  publishIdentityId : Option ℕ
  outputOrder : ℕ

/-- The rules and actions of the published policies. -/
structure PolicyTables where
  rules : Dict ℕ RoutingRuleRow
  actions : Dict ℕ RoutingActionRow
  rules_nodup : rules.keys.Nodup
  actions_nodup : actions.keys.Nodup
  /-- `uq_routing_action_output_order`. -/
  outputOrder_unique : ∀ e ∈ actions, ∀ e' ∈ actions, e.2.routingRuleId = e'.2.routingRuleId →
    e.2.outputOrder = e'.2.outputOrder → e.1 = e'.1

/-- `PublicationAction(…)`. -/
def PublicationActionFields.create (fields : PublicationActionFields) :
    Except PyError PublicationAction :=
  match h : fields.postInit with
  | .ok () => .ok ⟨fields, h⟩
  | .error e => .error e

/-- `RoutingRule(…)`. -/
def RoutingRuleFields.create (fields : RoutingRuleFields) : Except PyError RoutingRule :=
  match h : fields.postInit with
  | .ok () => .ok ⟨fields, h⟩
  | .error e => .error e

/-- `RoutingPolicy(…)`. -/
def createRoutingPolicy (policyVersionId : String) (rules : List RoutingRule) :
    Except PyError RoutingPolicy :=
  if hblank : isBlank policyVersionId = false then
    if hnodup : (rules.map (·.ruleId)).Nodup then
      .ok ⟨policyVersionId, rules, hblank, hnodup⟩
    else
      .error (.domainValidation "a routing policy cannot contain duplicate rule_id values" [])
  else .error (.domainValidation "policy_version_id must not be blank" [])

/-- The order of two actions of a rule. -/
abbrev RoutingActionRow.LE (uuid : UuidFormat) (a b : ℕ × RoutingActionRow) : Prop :=
  a.2.outputOrder < b.2.outputOrder ∨
    (a.2.outputOrder = b.2.outputOrder ∧ uuid.text a.1 ≤ uuid.text b.1)

/-- The fields of the action of a row. -/
def RoutingActionRow.fields (uuid : UuidFormat) (row : ℕ × RoutingActionRow) :
    PublicationActionFields where
  actionId := uuid.text row.1
  destinationChannelId := uuid.text row.2.destinationChannelId
  publicationMode := row.2.publicationMode
  renderingTemplateVersionId := row.2.renderingTemplateVersionId.map uuid.text
  publishIdentityId := row.2.publishIdentityId.map uuid.text
  routingRuleId := some (uuid.text row.2.routingRuleId)

/-- The order of two rules of a version. -/
abbrev RoutingRuleRow.LE (a b : ℕ × RoutingRuleRow) : Prop :=
  b.2.priority < a.2.priority ∨ (a.2.priority = b.2.priority ∧ a.1 ≤ b.1)

section

variable (uuid : UuidFormat) (tables : PolicyTables)

namespace PolicyTables

/-- The rules of a version, in order. -/
def rulesOf (version : ℕ) : List (ℕ × RoutingRuleRow) :=
  (tables.rules.filter (·.2.routingPolicyVersionId = version)).insertionSort RoutingRuleRow.LE

/-- The actions of a rule, in order. -/
def actionsOf (ruleId : ℕ) : List (ℕ × RoutingActionRow) :=
  (tables.actions.filter (·.2.routingRuleId = ruleId)).insertionSort (RoutingActionRow.LE uuid)

/-- The action of a row. -/
def action (row : ℕ × RoutingActionRow) : Except PyError PublicationAction :=
  PublicationActionFields.create (RoutingActionRow.fields uuid row)

/-- The rule of a row. -/
def rule (row : ℕ × RoutingRuleRow) : Except PyError RoutingRule := do
  let actions ← (tables.actionsOf uuid row.1).mapM (action uuid)
  RoutingRuleFields.create {
    ruleId := uuid.text row.1
    priority := row.2.priority
    condition := row.2.condition
    actions
    stopOnMatch := row.2.stopOnMatch
    enabled := row.2.enabled }

/-- The policy `_build_policy` returns. -/
def policy (version : ℕ) : Except PyError RoutingPolicy := do
  createRoutingPolicy (uuid.text version) (← (tables.rulesOf version).mapM (tables.rule uuid))

end PolicyTables

/-! ## Snapshots -/

/-- What is read about a message. -/
structure MessageFacts where
  message : List (String × Json)
  sourceChannel : List (String × Json)
  duplicateState : List (String × Json)
  media : List (List (String × Json))
  reviewStatus : ReviewStatus
  modelAssignments : List LabelValue
  manualEvents : List ManualLabelEvent
  message_wf : (Json.obj message).WF
  sourceChannel_wf : (Json.obj sourceChannel).WF
  duplicateState_wf : (Json.obj duplicateState).WF
  media_wf : ∀ item ∈ media, (Json.obj item).WF

/-- A row of `destination_channels`. -/
structure DestinationRow where
  enabled : Bool
  defaultPublishIdentityId : ℕ

/-- The tables a snapshot reads, at one time. -/
structure SnapshotTables where
  messages : Dict ℕ MessageFacts
  publishedVersions : List ℕ
  destinations : Dict ℕ DestinationRow
  enabledIdentities : List ℕ
  publishedTemplates : List ℕ

/-- `_build_policy`: the policy, and the default identity of each destination. -/
def buildPolicy (db : SnapshotTables) (version : ℕ) :
    Except PyError (RoutingPolicy × Dict String String) := do
  let actions := (tables.rulesOf version).flatMap fun rule => tables.actionsOf uuid rule.1
  let destinations := actions.filterMap fun action =>
    (db.destinations.lookup action.2.destinationChannelId).map fun row =>
      (action.2.destinationChannelId, row)
  ensure (destinations.length = actions.length && destinations.all (·.2.enabled))
    "routing policy references a missing or disabled destination"
  let identities := destinations.map (·.2.defaultPublishIdentityId) ++
    actions.filterMap (·.2.publishIdentityId)
  ensure (identities.all (· ∈ db.enabledIdentities))
    "routing policy references a missing or disabled identity"
  ensure ((actions.filterMap (·.2.renderingTemplateVersionId)).all (· ∈ db.publishedTemplates))
    "routing policy references a missing or unpublished rendering template"
  let policy ← tables.policy uuid version
  return (policy, Dict.ofList (destinations.map fun destination =>
    (uuid.text destination.1, uuid.text destination.2.defaultPublishIdentityId)))

/-- `load_snapshot`. -/
def loadSnapshot (db : SnapshotTables) (messageId routingPolicyVersionId : String) :
    Except PyError RoutingSnapshot := do
  let message ← uuid.asUuid messageId "message_id"
  let version ← uuid.asUuid routingPolicyVersionId "routing_policy_version_id"
  match db.messages.lookup message with
  | none => .error (.domainValidation "message does not exist" [])
  | some facts =>
    ensure (version ∈ db.publishedVersions)
      "routing requires the selected published policy version"
    let (policy, destinationPublishIdentityIds) ← buildPolicy uuid tables db version
    return {
      messageId := uuid.text message
      message := facts.message
      sourceChannel := facts.sourceChannel
      duplicateState := facts.duplicateState
      media := facts.media
      reviewStatus := facts.reviewStatus
      modelAssignments := facts.modelAssignments
      manualEvents := facts.manualEvents
      policy
      destinationPublishIdentityIds
      messageId_not_blank := uuid.text_not_blank message
      message_wf := facts.message_wf
      sourceChannel_wf := facts.sourceChannel_wf
      duplicateState_wf := facts.duplicateState_wf
      media_wf := facts.media_wf }

end

/-! ## Evaluations and intents -/

/-- The arguments of `RoutingRequest`. -/
structure RoutingRequestFields where
  requestId : String
  messageId : String
  routingPolicyVersionId : String
  dryRun : Bool := false
  deriving DecidableEq

/-- `_nonblank`. -/
def nonblank (value field : String) : Except PyError String := do
  ensure (!isBlank value) "% must not be blank" [field]
  return value

/-- `RoutingRequest`, with what its `__post_init__` checks. -/
structure RoutingRequest extends RoutingRequestFields where
  requestId_not_blank : isBlank requestId = false
  messageId_not_blank : isBlank messageId = false
  routingPolicyVersionId_not_blank : isBlank routingPolicyVersionId = false
  deriving DecidableEq

/-- `RoutingEvaluationDraft`. -/
structure RoutingEvaluationDraft where
  evaluationId : String
  routingRequestId : String
  messageId : String
  routingPolicyVersionId : String
  factsSnapshot : Facts
  factsHash : String
  ruleOutcomes : List Json
  stoppedAtRuleId : Option String

/-- `PublicationIntentDraft`. -/
structure PublicationIntentDraft where
  intentId : String
  routingEvaluationId : String
  routingRequestId : String
  messageId : String
  routingPolicyVersionId : String
  routingRuleId : String
  routingActionId : String
  destinationChannelId : String
  publishIdentityId : String
  publicationMode : String
  renderingTemplateVersionId : Option String
  businessIdempotencyKey : String
  status : String := "pending"
  deriving DecidableEq

/-- `RoutingExecutionResult`. -/
structure RoutingExecutionResult where
  evaluationId : String
  routingRequestId : String
  messageId : String
  routingPolicyVersionId : String
  factsSnapshot : Facts
  factsHash : String
  decision : RoutingDecision
  intents : List PublicationIntentDraft
  persisted : Bool
  reused : Bool := false
  dryRun : Bool := false

/-- `asdict(outcome)`. -/
def RuleOutcome.snapshot (outcome : RuleOutcome) : Json :=
  .obj [("rule_id", .str outcome.ruleId),
    ("enabled", .bool outcome.enabled),
    ("checked", .bool outcome.checked),
    ("evaluated", .bool outcome.evaluated),
    ("matched", .bool outcome.matched),
    ("stopped_after_match", .bool outcome.stoppedAfterMatch)]

/-- `validate_routing_request_reuse`. -/
def validateRoutingRequestReuse (result : RoutingExecutionResult)
    (routingRequestId messageId routingPolicyVersionId : String) : Except PyError Unit := do
  let routingRequestId ← nonblank routingRequestId "routing_request_id"
  let messageId ← nonblank messageId "message_id"
  let routingPolicyVersionId ← nonblank routingPolicyVersionId "routing_policy_version_id"
  ensure (result.routingRequestId = routingRequestId && result.messageId = messageId &&
      result.routingPolicyVersionId = routingPolicyVersionId)
    "routing_request_id is already bound to a different message or routing policy version"

section

variable (uuid : UuidFormat) (sha256 : String → String) (factsSnapshotHash : Facts → String)

/-- `publication_idempotency_key`, with a request and an evaluation. -/
def publicationIdempotencyKey (sourceMessageId destinationChannelId routingPolicyVersionId
    routingRuleId actionId publicationMode routingRequestId routingEvaluationId : String) :
    Except PyError String := do
  ensure ([sourceMessageId, destinationChannelId, routingPolicyVersionId, routingRuleId,
      actionId].all (!isBlank ·)) "publication idempotency key inputs must not be blank"
  ensure (!isBlank routingRequestId) "% must not be blank" ["routing_request_id"]
  ensure (!isBlank routingEvaluationId) "% must not be blank" ["routing_evaluation_id"]
  let parts := Json.obj [("source_message_id", .str sourceMessageId),
    ("destination_channel_id", .str destinationChannelId),
    ("routing_policy_version_id", .str routingPolicyVersionId),
    ("routing_rule_id", .str routingRuleId),
    ("action_id", .str actionId),
    ("publication_mode", .str publicationMode),
    ("routing_request_id", .str routingRequestId),
    ("routing_evaluation_id", .str routingEvaluationId)]
  let canonical := String.ofList (jsonText (fun _ => "") parts.canonical)
  return "publication:v2:" ++ sha256 canonical

/-- The intent of an action in `_build_intents`. An action that exists has a mode that
`PublicationMode` knows. -/
def buildIntent (evaluation : RoutingEvaluationDraft) (destinationDefaults : Dict String String)
    (intentId : ℕ) (action : PublicationAction) : Except PyError PublicationIntentDraft := do
  match action.routingRuleId with
  | none => .error (.domainValidation "matched routing action has no owning rule" [])
  | some routingRuleId =>
    let publishIdentityId := (action.publishIdentityId.or
      (destinationDefaults.lookup action.destinationChannelId)).getD ""
    ensure (!isBlank publishIdentityId) "destination channel has no usable publish identity"
    let businessIdempotencyKey ← publicationIdempotencyKey sha256 evaluation.messageId
      action.destinationChannelId evaluation.routingPolicyVersionId routingRuleId action.actionId
      action.publicationMode evaluation.routingRequestId evaluation.evaluationId
    return {
      intentId := uuid.text intentId
      routingEvaluationId := evaluation.evaluationId
      routingRequestId := evaluation.routingRequestId
      messageId := evaluation.messageId
      routingPolicyVersionId := evaluation.routingPolicyVersionId
      routingRuleId
      routingActionId := action.actionId
      destinationChannelId := action.destinationChannelId
      publishIdentityId
      publicationMode := action.publicationMode
      renderingTemplateVersionId := action.renderingTemplateVersionId
      businessIdempotencyKey }

/-- `_build_intents`: the ids of the intents follow one another. -/
def buildIntents (evaluation : RoutingEvaluationDraft) (destinationDefaults : Dict String String) :
    ℕ → List PublicationAction → Except PyError (List PublicationIntentDraft)
  | _, [] => .ok []
  | intentId, action :: actions => do
    let intent ← buildIntent uuid sha256 evaluation destinationDefaults intentId action
    return intent :: (← buildIntents evaluation destinationDefaults (intentId + 1) actions)

/-- The evaluation `evaluate` makes of a decision. -/
def evaluationDraft (request : RoutingRequest) (evaluationId : String) (facts : Facts)
    (decision : RoutingDecision) : RoutingEvaluationDraft where
  evaluationId := evaluationId
  routingRequestId := request.requestId
  messageId := request.messageId
  routingPolicyVersionId := request.routingPolicyVersionId
  factsSnapshot := facts
  factsHash := factsSnapshotHash facts
  ruleOutcomes := decision.outcomes.map (·.snapshot)
  stoppedAtRuleId := decision.stoppedAtRuleId

/-- What `evaluate` makes of a snapshot. -/
structure RoutingWork where
  evaluation : RoutingEvaluationDraft
  decision : RoutingDecision
  intents : List PublicationIntentDraft

/-- The part of `evaluate` between the snapshot and the transaction. -/
def evaluateSnapshot (request : RoutingRequest) (snapshot : RoutingSnapshot) (evaluationId : ℕ) :
    Except PyError RoutingWork := do
  ensure (snapshot.messageId = request.messageId) "routing snapshot message does not match request"
  ensure (snapshot.policy.policyVersionId = request.routingPolicyVersionId)
    "routing snapshot policy does not match request"
  let facts ← buildRoutingFacts snapshot
  let decision := evaluateRouting snapshot.policy facts
  let evaluation := evaluationDraft factsSnapshotHash request (uuid.text evaluationId) facts decision
  let intents ← buildIntents uuid sha256 evaluation snapshot.destinationPublishIdentityIds
    (evaluationId + 1) decision.actions
  return ⟨evaluation, decision, intents⟩

/-- The result of a piece of work. -/
def RoutingWork.result (work : RoutingWork) (persisted dryRun : Bool) : RoutingExecutionResult where
  evaluationId := work.evaluation.evaluationId
  routingRequestId := work.evaluation.routingRequestId
  messageId := work.evaluation.messageId
  routingPolicyVersionId := work.evaluation.routingPolicyVersionId
  factsSnapshot := work.evaluation.factsSnapshot
  factsHash := work.evaluation.factsHash
  decision := work.decision
  intents := work.intents
  persisted := persisted
  dryRun := dryRun

end

end TgCurator
