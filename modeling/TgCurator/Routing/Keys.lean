import TgCurator.JsonStrings
import TgCurator.Routing.Once

/-!
# Idempotency keys

The key of an intent is the digest of a text that tells its eight parts (`keyText_inj`). The parts
name the rule and the action, so the intents of an evaluation have different keys
(`nodup_keys`). They name the request and the evaluation, so requests share no key, and a request
that is evaluated again gets other keys (`eq_of_common_key`), unless it has no intents
(`keys_eq_iff`).
-/

namespace TgCurator

/-! ## The text of a key -/

/-- The parts of the key of an intent. -/
def PublicationIntentDraft.keyParts (intent : PublicationIntentDraft) : List (String × String) :=
  [("source_message_id", intent.messageId),
    ("destination_channel_id", intent.destinationChannelId),
    ("routing_policy_version_id", intent.routingPolicyVersionId),
    ("routing_rule_id", intent.routingRuleId),
    ("action_id", intent.routingActionId),
    ("publication_mode", intent.publicationMode),
    ("routing_request_id", intent.routingRequestId),
    ("routing_evaluation_id", intent.routingEvaluationId)]

/-- The text whose digest is the key of an intent. -/
def PublicationIntentDraft.keyText (intent : PublicationIntentDraft) : String :=
  String.ofList (jsonText (fun _ => "") (Json.obj (stringEntries intent.keyParts)).canonical)

/-- The text of a key tells its parts. -/
theorem keyText_inj {intent intent' : PublicationIntentDraft}
    (h : intent.keyText = intent'.keyText) (field : String) :
    intent.keyParts.lookup field = intent'.keyParts.lookup field := by
  refine Dict.lookup_perm ?_ (perm_of_jsonText_canonical (String.ofList_injective h)) field
  have hkeys : Dict.keys intent.keyParts = ["source_message_id", "destination_channel_id",
    "routing_policy_version_id", "routing_rule_id", "action_id", "publication_mode",
    "routing_request_id", "routing_evaluation_id"] := rfl
  rw [hkeys]
  decide

theorem keyText_inj_ids {intent intent' : PublicationIntentDraft}
    (h : intent.keyText = intent'.keyText) :
    intent.routingRuleId = intent'.routingRuleId ∧
      intent.routingActionId = intent'.routingActionId ∧
      intent.routingRequestId = intent'.routingRequestId ∧
      intent.routingEvaluationId = intent'.routingEvaluationId :=
  ⟨Option.some.inj (keyText_inj h "routing_rule_id"), Option.some.inj (keyText_inj h "action_id"),
    Option.some.inj (keyText_inj h "routing_request_id"),
    Option.some.inj (keyText_inj h "routing_evaluation_id")⟩

variable {uuid : UuidFormat} {sha256 : String → String} {factsSnapshotHash : Facts → String}

/-- What an intent takes over from its action and its evaluation. -/
theorem buildIntent_eq_ok {evaluation : RoutingEvaluationDraft} {defaults : Dict String String}
    {intentId : ℕ} {action : PublicationAction} {intent : PublicationIntentDraft}
    (h : buildIntent uuid sha256 evaluation defaults intentId action = .ok intent) :
    action.routingRuleId = some intent.routingRuleId ∧
      action.actionId = intent.routingActionId ∧
      intent.routingRequestId = evaluation.routingRequestId ∧
      intent.routingEvaluationId = evaluation.evaluationId ∧
      intent.businessIdempotencyKey = "publication:v2:" ++ sha256 intent.keyText := by
  unfold buildIntent at h
  split at h
  case h_1 => cases h
  case h_2 routingRuleId hrule =>
    obtain ⟨-, h⟩ := seq_eq_ok.mp h
    obtain ⟨key, hkey, h⟩ := bind_eq_ok.mp h
    unfold publicationIdempotencyKey at hkey
    obtain ⟨-, hkey⟩ := seq_eq_ok.mp hkey
    obtain ⟨-, hkey⟩ := seq_eq_ok.mp hkey
    obtain ⟨-, hkey⟩ := seq_eq_ok.mp hkey
    rw [← Except.ok.inj h, ← Except.ok.inj hkey]
    exact ⟨hrule, rfl, rfl, rfl, rfl⟩

/-! ## The intents of an evaluation -/

/-- The keys of a piece of work. -/
def RoutingWork.keys (work : RoutingWork) : List String :=
  work.intents.map (·.businessIdempotencyKey)

/-- SHA-256 has no collision on the texts of the keys of some intents. -/
def KeyCollisionFree (sha256 : String → String) (intents : List PublicationIntentDraft) : Prop :=
  ∀ intent ∈ intents, ∀ intent' ∈ intents,
    sha256 intent.keyText = sha256 intent'.keyText → intent.keyText = intent'.keyText

/-- What an evaluation makes: an intent for each action of its decision. -/
theorem intents_of_evaluateSnapshot {request : RoutingRequest} {snapshot : RoutingSnapshot}
    {evaluationId : ℕ} {work : RoutingWork}
    (h : evaluateSnapshot uuid sha256 factsSnapshotHash request snapshot evaluationId = .ok work) :
    ∃ facts, buildRoutingFacts snapshot = .ok facts ∧
      List.Forall₂ (fun action intent => action.routingRuleId = some intent.routingRuleId ∧
        action.actionId = intent.routingActionId ∧
        intent.routingRequestId = request.requestId ∧
        intent.routingEvaluationId = uuid.text evaluationId ∧
        intent.businessIdempotencyKey = "publication:v2:" ++ sha256 intent.keyText)
        (evaluateRouting snapshot.policy facts).actions work.intents := by
  unfold evaluateSnapshot at h
  obtain ⟨-, h⟩ := seq_eq_ok.mp h
  obtain ⟨-, h⟩ := seq_eq_ok.mp h
  obtain ⟨facts, hfacts, h⟩ := bind_eq_ok.mp h
  obtain ⟨intents, hintents, h⟩ := bind_eq_ok.mp h
  rw [← Except.ok.inj h]
  refine ⟨facts, hfacts, (forall₂_buildIntents hintents).imp ?_⟩
  rintro action intent ⟨id, hintent⟩
  exact buildIntent_eq_ok hintent

/-- The actions of a decision differ in their rule or in their id. -/
theorem pairwise_actions_ne (policy : RoutingPolicy) (facts : Facts) :
    (evaluateRouting policy facts).actions.Pairwise fun a b =>
      ¬(a.routingRuleId = b.routingRuleId ∧ a.actionId = b.actionId) := by
  rw [evaluateRouting_actions, List.pairwise_flatMap]
  constructor
  · intro rule _
    have hnodup : (rule.actions.map (·.actionId)).Nodup := by
      have h := (seq_eq_ok.mp (seq_eq_ok.mp rule.checked).2).2
      simpa using (seq_eq_ok.mp h).1
    rw [RoutingRule.taggedActions, List.pairwise_map]
    exact (List.pairwise_map.mp hnodup).imp fun hne hsame => hne hsame.2
  · have hids := List.pairwise_map.mp (visitedRules_ids_nodup policy facts)
    refine (hids.imp fun {rule rule'} hne a ha b hb hsame => ?_).filter _
    obtain ⟨action, -, rfl⟩ := List.mem_map.mp ha
    obtain ⟨action', -, rfl⟩ := List.mem_map.mp hb
    exact hne (Option.some.inj hsame.1)

/-- Keys with one digest have one text. -/
theorem KeyCollisionFree.keyText_eq {intents : List PublicationIntentDraft}
    (h : KeyCollisionFree sha256 intents) {intent intent' : PublicationIntentDraft}
    (hmem : intent ∈ intents) (hmem' : intent' ∈ intents)
    (hkey : intent.businessIdempotencyKey = "publication:v2:" ++ sha256 intent.keyText)
    (hkey' : intent'.businessIdempotencyKey = "publication:v2:" ++ sha256 intent'.keyText)
    (heq : intent.businessIdempotencyKey = intent'.businessIdempotencyKey) :
    intent.keyText = intent'.keyText := by
  rw [hkey, hkey'] at heq
  exact h intent hmem intent' hmem' (String.append_right_inj _ |>.mp heq)

section

variable {request request' : RoutingRequest} {snapshot snapshot' : RoutingSnapshot}
  {evaluationId evaluationId' : ℕ} {work work' : RoutingWork} {intents : List PublicationIntentDraft}

/-- The intents of an evaluation have different keys. -/
theorem nodup_keys
    (h : evaluateSnapshot uuid sha256 factsSnapshotHash request snapshot evaluationId = .ok work)
    (hsha : KeyCollisionFree sha256 intents) (hmem : ∀ intent ∈ work.intents, intent ∈ intents) :
    work.keys.Nodup := by
  obtain ⟨facts, -, hintents⟩ := intents_of_evaluateSnapshot h
  have hpairs : work.intents.Pairwise fun a b =>
      ¬(a.routingRuleId = b.routingRuleId ∧ a.routingActionId = b.routingActionId) := by
    refine forall₂_pairwise ?_ hintents (pairwise_actions_ne snapshot.policy facts)
    intro action action' intent intent' hintent hintent' hne hsame
    refine hne ⟨?_, ?_⟩
    · rw [hintent.1, hintent'.1, hsame.1]
    · rw [hintent.2.1, hintent'.2.1, hsame.2]
  rw [RoutingWork.keys, List.Nodup, List.pairwise_map]
  refine hpairs.imp_of_mem fun {intent intent'} hintent hintent' hne heq => ?_
  obtain ⟨_, -, hof⟩ := exists_left_of_mem hintents hintent
  obtain ⟨_, -, hof'⟩ := exists_left_of_mem hintents hintent'
  have htext := hsha.keyText_eq (hmem intent hintent) (hmem intent' hintent') hof.2.2.2.2
    hof'.2.2.2.2 heq
  obtain ⟨hrule, haction, -, -⟩ := keyText_inj_ids htext
  exact hne ⟨hrule, haction⟩

/-- Evaluations with a common key are of one request, and the same evaluation. -/
theorem eq_of_common_key
    (h : evaluateSnapshot uuid sha256 factsSnapshotHash request snapshot evaluationId = .ok work)
    (h' : evaluateSnapshot uuid sha256 factsSnapshotHash request' snapshot' evaluationId' =
      .ok work')
    (hsha : KeyCollisionFree sha256 intents) (hmem : ∀ intent ∈ work.intents, intent ∈ intents)
    (hmem' : ∀ intent ∈ work'.intents, intent ∈ intents) {key : String} (hkey : key ∈ work.keys)
    (hkey' : key ∈ work'.keys) :
    request.requestId = request'.requestId ∧ evaluationId = evaluationId' := by
  obtain ⟨facts, -, hintents⟩ := intents_of_evaluateSnapshot h
  obtain ⟨facts', -, hintents'⟩ := intents_of_evaluateSnapshot h'
  obtain ⟨intent, hintent, rfl⟩ := List.mem_map.mp hkey
  obtain ⟨intent', hintent', heq⟩ := List.mem_map.mp hkey'
  obtain ⟨_, -, -, -, hrequest, hevaluation, hdigest⟩ := exists_left_of_mem hintents hintent
  obtain ⟨_, -, -, -, hrequest', hevaluation', hdigest'⟩ := exists_left_of_mem hintents' hintent'
  have htext := hsha.keyText_eq (hmem intent hintent) (hmem' intent' hintent') hdigest hdigest'
    heq.symm
  obtain ⟨-, -, hrequestIds, hevaluationIds⟩ := keyText_inj_ids htext
  rw [hrequest, hrequest'] at hrequestIds
  rw [hevaluation, hevaluation'] at hevaluationIds
  exact ⟨hrequestIds, uuid.text_injective hevaluationIds⟩

/-- An evaluation has no keys when no rule that matches has an action. -/
theorem keys_eq_nil_iff
    (h : evaluateSnapshot uuid sha256 factsSnapshotHash request snapshot evaluationId = .ok work)
    {facts : Facts} (hfacts : buildRoutingFacts snapshot = .ok facts) :
    work.keys = [] ↔ ∀ rule ∈ visitedRules facts (sortedRules snapshot.policy.rules),
      rule.matchesFacts facts = true → rule.actions = [] := by
  obtain ⟨facts', hfacts', hintents⟩ := intents_of_evaluateSnapshot h
  obtain rfl := Except.ok.inj (hfacts.symm.trans hfacts')
  have hnil : work.intents = [] ↔ (evaluateRouting snapshot.policy facts).actions = [] := by
    rw [← List.length_eq_zero_iff, ← List.length_eq_zero_iff, hintents.length_eq]
  rw [RoutingWork.keys, List.map_eq_nil_iff, hnil, evaluateRouting_actions,
    List.flatMap_eq_nil_iff]
  simp only [List.mem_filter, RoutingRule.taggedActions, List.map_eq_nil_iff, and_imp]

/-- A request that is evaluated again gets the same keys only when it has none: exactly when no
rule that is reached and matches has an action. Keys that differ within an evaluation, and between
requests, it has in any case. -/
theorem keys_eq_iff {request'' : RoutingRequest} {snapshot'' : RoutingSnapshot}
    {evaluationId'' : ℕ} {work'' : RoutingWork} {facts : Facts}
    (h : evaluateSnapshot uuid sha256 factsSnapshotHash request snapshot evaluationId = .ok work)
    (h' : evaluateSnapshot uuid sha256 factsSnapshotHash request snapshot evaluationId' = .ok work')
    (h'' : evaluateSnapshot uuid sha256 factsSnapshotHash request'' snapshot'' evaluationId'' =
      .ok work'')
    (hfresh : evaluationId' ≠ evaluationId) (hrequest : request''.requestId ≠ request.requestId)
    (hsha : KeyCollisionFree sha256 (work.intents ++ work'.intents ++ work''.intents))
    (hfacts : buildRoutingFacts snapshot = .ok facts) :
    (work.keys = work'.keys ∧ work.keys.Nodup ∧ work.keys.Disjoint work''.keys) ↔
      ∀ rule ∈ visitedRules facts (sortedRules snapshot.policy.rules),
        rule.matchesFacts facts = true → rule.actions = [] := by
  rw [← keys_eq_nil_iff h hfacts]
  have hnodup := nodup_keys h hsha (fun intent hintent => by simp [hintent])
  have hdisjoint : work.keys.Disjoint work''.keys := by
    intro key hkey hkey''
    refine hrequest (eq_of_common_key h h'' hsha ?_ ?_ hkey hkey'').1.symm
    · exact fun intent hintent => by simp [hintent]
    · exact fun intent hintent => by simp [hintent]
  constructor
  · rintro ⟨heq, -, -⟩
    rw [List.eq_nil_iff_forall_not_mem]
    intro key hkey
    refine hfresh (eq_of_common_key h h' hsha ?_ ?_ hkey (heq ▸ hkey)).2.symm
    · exact fun intent hintent => by simp [hintent]
    · exact fun intent hintent => by simp [hintent]
  · intro hnil
    refine ⟨?_, hnodup, hdisjoint⟩
    rw [hnil, eq_comm, keys_eq_nil_iff h' hfacts, ← keys_eq_nil_iff h hfacts, hnil]

end

/-! ## A request evaluated again -/

/-- Another request to route message 6. -/
def otherRoutingRequest : RoutingRequest :=
  { sampleRoutingRequest with
    requestId := "other"
    requestId_not_blank := by decide +kernel }

theorem exists_sampleEvaluations : ∃ snapshot facts work work' work'',
    loadSnapshot sampleUuid samplePolicyTables
        { sampleSnapshotTables with messages := [(6, sampleMessageFacts)] }
        sampleRoutingRequest.messageId sampleRoutingRequest.routingPolicyVersionId = .ok snapshot ∧
      buildRoutingFacts snapshot = .ok facts ∧
      evaluateSnapshot sampleUuid id (fun _ => "") sampleRoutingRequest snapshot 0 = .ok work ∧
      evaluateSnapshot sampleUuid id (fun _ => "") sampleRoutingRequest snapshot 2 = .ok work' ∧
      evaluateSnapshot sampleUuid id (fun _ => "") otherRoutingRequest snapshot 4 = .ok work'' ∧
      work.keys ≠ [] := by
  obtain ⟨facts, hfacts, hmatches⟩ := exists_sampleFacts
  have hmessage : sampleRoutingRequest.messageId = sampleUuid.text 6 := rfl
  have hmessage' : otherRoutingRequest.messageId = sampleUuid.text 6 := rfl
  obtain ⟨_, hwork⟩ := exists_evaluateSnapshot_sample hmessage rfl hfacts hmatches id 0
  obtain ⟨_, hwork'⟩ := exists_evaluateSnapshot_sample hmessage rfl hfacts hmatches id 2
  obtain ⟨_, hwork''⟩ := exists_evaluateSnapshot_sample hmessage' rfl hfacts hmatches id 4
  exact ⟨sampleSnapshot, facts, _, _, _, loadSnapshot_sample, hfacts, hwork, hwork', hwork'',
    List.cons_ne_nil _ _⟩

theorem keys_eq_iff_sample : ∃ snapshot facts, ∃ work work' work'' : RoutingWork,
    buildRoutingFacts snapshot = .ok facts ∧
      evaluateSnapshot sampleUuid id (fun _ => "") sampleRoutingRequest snapshot 0 = .ok work ∧
      evaluateSnapshot sampleUuid id (fun _ => "") sampleRoutingRequest snapshot 2 = .ok work' ∧
      ((work.keys = work'.keys ∧ work.keys.Nodup ∧ work.keys.Disjoint work''.keys) ↔
        ∀ rule ∈ visitedRules facts (sortedRules snapshot.policy.rules),
          rule.matchesFacts facts = true → rule.actions = []) := by
  obtain ⟨snapshot, facts, work, work', work'', -, hfacts, h, h', h'', -⟩ :=
    exists_sampleEvaluations
  exact ⟨snapshot, facts, work, work', work'', hfacts, h, h',
    keys_eq_iff h h' h'' (by decide) (by decide +kernel) (fun _ _ _ _ heq => heq) hfacts⟩

/-- A retry of a request gets other keys. -/
theorem retried_keys_ne : ∃ snapshot work work',
    loadSnapshot sampleUuid samplePolicyTables
        { sampleSnapshotTables with messages := [(6, sampleMessageFacts)] }
        sampleRoutingRequest.messageId sampleRoutingRequest.routingPolicyVersionId = .ok snapshot ∧
      evaluateSnapshot sampleUuid id (fun _ => "") sampleRoutingRequest snapshot 0 = .ok work ∧
      evaluateSnapshot sampleUuid id (fun _ => "") sampleRoutingRequest snapshot 2 = .ok work' ∧
      work.keys ≠ work'.keys := by
  obtain ⟨snapshot, facts, work, work', work'', hsnapshot, hfacts, h, h', h'', hne⟩ :=
    exists_sampleEvaluations
  refine ⟨snapshot, work, work', hsnapshot, h, h', fun heq => ?_⟩
  obtain ⟨key, hkey⟩ := List.exists_mem_of_ne_nil _ hne
  have hsha : KeyCollisionFree id (work.intents ++ work'.intents) := fun _ _ _ _ heq => heq
  have hids := (eq_of_common_key h h' hsha (fun intent hintent => by simp [hintent])
    (fun intent hintent => by simp [hintent]) hkey (heq ▸ hkey)).2
  cases hids

end TgCurator
