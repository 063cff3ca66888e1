import TgCurator.Routing.Requests

/-!
# Reading an evaluation back

The actions of a decision on a policy from the tables are rows of `routing_actions`
(`exists_row_of_mem_actions`), and the decision lists them in the order of the key
`_load_execution_by_request` sorts by (`pairwise_actionKey`). So the intents of a stored evaluation
come back in the order of the decision, whatever the order in which they are read
(`loadExecution_eq`).
-/

namespace TgCurator

/-! ## Constructors -/

theorem PublicationActionFields.create_eq_ok {fields : PublicationActionFields}
    {action : PublicationAction} :
    fields.create = .ok action ↔ action.toPublicationActionFields = fields := by
  unfold create
  split
  case h_1 h =>
    constructor
    · intro heq
      rw [← Except.ok.inj heq]
    · rintro rfl
      rfl
  case h_2 e h =>
    refine iff_of_false (fun heq => by cases heq) ?_
    rintro rfl
    rw [action.checked] at h
    cases h

theorem RoutingRuleFields.create_eq_ok {fields : RoutingRuleFields} {rule : RoutingRule}
    (h : fields.create = .ok rule) : rule.toRoutingRuleFields = fields := by
  unfold create at h
  split at h
  · rw [← Except.ok.inj h]
  · cases h

theorem RoutingRuleFields.create_of_postInit {fields : RoutingRuleFields}
    (h : fields.postInit = .ok ()) : fields.create = .ok ⟨fields, h⟩ := by
  unfold create
  split
  · rfl
  · next e h' => cases h.symm.trans h'

theorem createRoutingPolicy_eq_ok {policyVersionId : String} {rules : List RoutingRule}
    {policy : RoutingPolicy} (h : createRoutingPolicy policyVersionId rules = .ok policy) :
    policy.policyVersionId = policyVersionId ∧ policy.rules = rules := by
  unfold createRoutingPolicy at h
  split_ifs at h
  · rw [← Except.ok.inj h]
    exact ⟨rfl, rfl⟩

theorem UuidFormat.text_injective (uuid : UuidFormat) : Function.Injective uuid.text := by
  intro a b h
  have hparse := congrArg uuid.parse h
  rw [uuid.parse_text, uuid.parse_text] at hparse
  exact Option.some.inj hparse

theorem UuidFormat.asUuid_eq_ok {uuid : UuidFormat} {value field : String} {id : ℕ} :
    uuid.asUuid value field = .ok id ↔ uuid.parse value = some id := by
  unfold asUuid
  cases uuid.parse value with
  | some id' => rw [Except.ok.injEq, Option.some.injEq]
  | none => simp

theorem UuidFormat.asUuid_text (uuid : UuidFormat) (id : ℕ) (field : String) :
    uuid.asUuid (uuid.text id) field = .ok id :=
  UuidFormat.asUuid_eq_ok.mpr (uuid.parse_text id)

/-! ## Policies from the tables -/

section

variable {uuid : UuidFormat} {tables : PolicyTables} {policy : RoutingPolicy} {version : ℕ}

theorem mem_actionsOf {ruleId : ℕ} {row : ℕ × RoutingActionRow} :
    row ∈ tables.actionsOf uuid ruleId ↔ row ∈ tables.actions ∧ row.2.routingRuleId = ruleId := by
  rw [PolicyTables.actionsOf, (List.perm_insertionSort _ _).mem_iff, List.mem_filter,
    decide_eq_true_eq]

instance : Std.Total (RoutingActionRow.LE uuid) where
  total a b := by
    rcases lt_trichotomy a.2.outputOrder b.2.outputOrder with h | h | h
    · exact .inl (.inl h)
    · exact (le_total (uuid.text a.1) (uuid.text b.1)).imp (fun hle => .inr ⟨h, hle⟩)
        fun hle => .inr ⟨h.symm, hle⟩
    · exact .inr (.inl h)

instance : IsTrans (ℕ × RoutingActionRow) (RoutingActionRow.LE uuid) where
  trans a b c := by
    rintro (h | ⟨h, hle⟩) (h' | ⟨h', hle'⟩)
    · exact .inl (h.trans h')
    · exact .inl (h' ▸ h)
    · exact .inl (h ▸ h')
    · exact .inr ⟨h.trans h', hle.trans hle'⟩

/-- The actions of a rule are in strict order. -/
theorem pairwise_actionsOf (ruleId : ℕ) :
    (tables.actionsOf uuid ruleId).Pairwise fun a b => a.2.outputOrder < b.2.outputOrder := by
  have hsorted : (tables.actionsOf uuid ruleId).Pairwise (RoutingActionRow.LE uuid) :=
    List.pairwise_insertionSort _ _
  have hids : (tables.actionsOf uuid ruleId).Pairwise fun a b => a.1 ≠ b.1 := by
    rw [← List.pairwise_map]
    refine (((List.perm_insertionSort _ _).map _).nodup_iff).mpr ?_
    exact tables.actions_nodup.sublist (List.filter_sublist.map _)
  refine (hsorted.and hids).imp_of_mem fun {a b} ha hb h => ?_
  rcases h.1 with hlt | ⟨heq, -⟩
  · exact hlt
  · rw [mem_actionsOf] at ha hb
    exact absurd (tables.outputOrder_unique a ha.1 b hb.1 (ha.2.trans hb.2.symm) heq) h.2

/-- What a rule from the tables is. -/
theorem PolicyTables.rule_eq_ok {row : ℕ × RoutingRuleRow} {rule : RoutingRule}
    (h : tables.rule uuid row = .ok rule) :
    rule.ruleId = uuid.text row.1 ∧
      rule.actions.map (·.toPublicationActionFields) =
        (tables.actionsOf uuid row.1).map (RoutingActionRow.fields uuid) := by
  unfold PolicyTables.rule at h
  obtain ⟨actions, hactions, h⟩ := bind_eq_ok.mp h
  have hrule := RoutingRuleFields.create_eq_ok h
  rw [hrule]
  refine ⟨rfl, ?_⟩
  rw [mapM_eq_ok] at hactions
  have hfields : List.Forall₂ (fun fields fields' => fields = fields')
      (actions.map (·.toPublicationActionFields))
      ((tables.actionsOf uuid row.1).map (RoutingActionRow.fields uuid)) := by
    rw [List.forall₂_map_left_iff, List.forall₂_map_right_iff]
    exact hactions.flip.imp fun _ _ h => PublicationActionFields.create_eq_ok.mp h
  exact List.forall₂_eq_eq_eq ▸ hfields

/-- The tagged actions of a rule from the tables are the actions of its rows. -/
theorem PolicyTables.taggedActions_of_rule {row : ℕ × RoutingRuleRow} {rule : RoutingRule}
    (h : tables.rule uuid row = .ok rule) :
    rule.taggedActions.map (·.toPublicationActionFields) =
      (tables.actionsOf uuid row.1).map (RoutingActionRow.fields uuid) := by
  obtain ⟨hid, hactions⟩ := tables.rule_eq_ok h
  have htag : rule.taggedActions.map (·.toPublicationActionFields) =
      (rule.actions.map (·.toPublicationActionFields)).map fun fields =>
        { fields with routingRuleId := some (uuid.text row.1) } := by
    rw [← hid, RoutingRule.taggedActions, List.map_map, List.map_map]
    rfl
  rw [htag, hactions, List.map_map]
  refine List.map_congr_left fun action haction => ?_
  rw [← (mem_actionsOf.mp haction).2]
  rfl

/-- What a policy from the tables is. -/
theorem PolicyTables.policy_eq_ok (h : tables.policy uuid version = .ok policy) :
    policy.policyVersionId = uuid.text version ∧ ∀ rule ∈ policy.rules, ∃ row,
      tables.rule uuid row = .ok rule := by
  unfold PolicyTables.policy at h
  obtain ⟨rules, hrules, h⟩ := bind_eq_ok.mp h
  obtain ⟨hversion, rfl⟩ := createRoutingPolicy_eq_ok h
  refine ⟨hversion, fun rule hrule => ?_⟩
  obtain ⟨row, -, hrow⟩ := exists_left_of_mem (mapM_eq_ok.mp hrules) hrule
  exact ⟨row, hrow⟩

/-! ## The order of a decision -/

/-- The key of an action of a decision: the position of its rule and its place in the rule. -/
def actionKey (uuid : UuidFormat) (tables : PolicyTables) (outcomes : List RuleOutcome)
    (fields : PublicationActionFields) : Lex (ℕ × ℕ) :=
  toLex (((outcomeRank outcomes).lookup (fields.routingRuleId.getD "")).getD
      (outcomeRank outcomes).length,
    (((uuid.parse fields.actionId).bind (tables.actions.lookup ·)).map (·.outputOrder)).getD 0)

theorem visitedRules_sublist (facts : Facts) (rules : List RoutingRule) :
    (visitedRules facts rules).Sublist rules := by
  induction rules with
  | nil => exact .slnil
  | cons rule rules ih =>
    rw [visitedRules_cons]
    split_ifs
    · exact (List.nil_sublist _).cons_cons _
    · exact ih.cons_cons _

theorem visitedRules_ids_nodup (policy : RoutingPolicy) (facts : Facts) :
    ((visitedRules facts (sortedRules policy.rules)).map (·.ruleId)).Nodup := by
  refine List.Nodup.sublist ((visitedRules_sublist _ _).map _) ?_
  exact ((sortedRules_perm policy.rules).map _).nodup_iff.mpr policy.ruleIds_nodup

/-- The rank of the rule of an outcome. -/
theorem lookup_outcomeRank {outcomes : List RuleOutcome}
    (hids : (outcomes.map (·.ruleId)).Nodup) {i : ℕ} {outcome : RuleOutcome}
    (h : outcomes[i]? = some outcome) : (outcomeRank outcomes).lookup outcome.ruleId = some i := by
  refine Dict.lookup_ofList_of_mem ?_ ?_
  · have hkeys : Dict.keys (outcomes.zipIdx.map fun e => (e.1.ruleId, e.2)) =
        outcomes.map (·.ruleId) := by
      rw [Dict.keys, List.map_map, ← List.zipIdx_map_fst 0 outcomes, List.map_map]
      simp [Function.comp_def]
    rw [hkeys]
    exact hids
  · rw [List.mem_map]
    exact ⟨(outcome, i), List.mem_zipIdx_iff_getElem?.mpr h, rfl⟩

theorem actionKey_fields {row : ℕ × RoutingActionRow} (hrow : row ∈ tables.actions)
    (outcomes : List RuleOutcome) :
    actionKey uuid tables outcomes (RoutingActionRow.fields uuid row) =
      toLex (((outcomeRank outcomes).lookup (uuid.text row.2.routingRuleId)).getD
        (outcomeRank outcomes).length, row.2.outputOrder) := by
  have hlookup : tables.actions.lookup row.1 = some row.2 :=
    Dict.lookup_of_mem tables.actions_nodup hrow
  simp [actionKey, RoutingActionRow.fields, uuid.parse_text, hlookup]

/-- The tagged actions of a visited rule come from its rows. -/
theorem exists_ruleId_of_visited (h : tables.policy uuid version = .ok policy) {facts : Facts}
    {rule : RoutingRule} (hrule : rule ∈ visitedRules facts (sortedRules policy.rules)) :
    ∃ ruleId, rule.ruleId = uuid.text ruleId ∧
      rule.taggedActions.map (·.toPublicationActionFields) =
        (tables.actionsOf uuid ruleId).map (RoutingActionRow.fields uuid) := by
  have hmem := (visitedRules_sublist facts _).mem hrule
  obtain ⟨row, hrow⟩ := (tables.policy_eq_ok h).2 rule ((sortedRules_perm _).mem_iff.mp hmem)
  exact ⟨row.1, (tables.rule_eq_ok hrow).1, tables.taggedActions_of_rule hrow⟩

theorem evaluateRouting_actions (policy : RoutingPolicy) (facts : Facts) :
    (evaluateRouting policy facts).actions =
      ((visitedRules facts (sortedRules policy.rules)).filter (·.matchesFacts facts)).flatMap
        (·.taggedActions) := by
  rw [evaluateRouting, evaluateRules_eq]
  rfl

theorem evaluateRouting_outcomes (policy : RoutingPolicy) (facts : Facts) :
    (evaluateRouting policy facts).outcomes =
      (visitedRules facts (sortedRules policy.rules)).map (·.outcome facts) := by
  rw [evaluateRouting, evaluateRules_eq]
  rfl

/-- Each action of a decision is that of a row. -/
theorem exists_row_of_mem_actions (h : tables.policy uuid version = .ok policy) {facts : Facts}
    {action : PublicationAction} (haction : action ∈ (evaluateRouting policy facts).actions) :
    ∃ row ∈ tables.actions,
      action.toPublicationActionFields = RoutingActionRow.fields uuid row := by
  rw [evaluateRouting_actions, List.mem_flatMap] at haction
  obtain ⟨rule, hrule, haction⟩ := haction
  obtain ⟨ruleId, -, hactions⟩ := exists_ruleId_of_visited h (List.mem_filter.mp hrule).1
  have hmem := List.mem_map_of_mem (f := (·.toPublicationActionFields)) haction
  rw [hactions, List.mem_map] at hmem
  obtain ⟨row, hrow, hfields⟩ := hmem
  exact ⟨row, (mem_actionsOf.mp hrow).1, hfields.symm⟩

/-- The position of a visited rule comes first in the keys of its actions. -/
theorem actionKey_of_visited (h : tables.policy uuid version = .ok policy) {facts : Facts} {i : ℕ}
    {rule : RoutingRule} (hi : (visitedRules facts (sortedRules policy.rules))[i]? = some rule)
    {action : PublicationAction} (haction : action ∈ rule.taggedActions) :
    ∃ row ∈ tables.actions,
      action.toPublicationActionFields = RoutingActionRow.fields uuid row ∧
        actionKey uuid tables (evaluateRouting policy facts).outcomes
          action.toPublicationActionFields = toLex (i, row.2.outputOrder) := by
  obtain ⟨ruleId, hid, hactions⟩ := exists_ruleId_of_visited h (List.mem_of_getElem? hi)
  have hmem := List.mem_map_of_mem (f := (·.toPublicationActionFields)) haction
  rw [hactions, List.mem_map] at hmem
  obtain ⟨row, hrow, hfields⟩ := hmem
  rw [mem_actionsOf] at hrow
  refine ⟨row, hrow.1, hfields.symm, ?_⟩
  have hrank : (outcomeRank (evaluateRouting policy facts).outcomes).lookup rule.ruleId =
      some i := by
    have hids : ((evaluateRouting policy facts).outcomes.map (·.ruleId)).Nodup := by
      rw [evaluateRouting_outcomes, List.map_map]
      exact visitedRules_ids_nodup policy facts
    refine @lookup_outcomeRank _ hids _ (rule.outcome facts) ?_
    rw [evaluateRouting_outcomes, List.getElem?_map, hi]
    rfl
  rw [← hfields, actionKey_fields hrow.1, hrow.2, ← hid, hrank, Option.getD_some]

/-- A decision lists its actions in the order of their keys. -/
theorem pairwise_actionKey (h : tables.policy uuid version = .ok policy) (facts : Facts) :
    (evaluateRouting policy facts).actions.Pairwise fun a b =>
      actionKey uuid tables (evaluateRouting policy facts).outcomes a.toPublicationActionFields <
        actionKey uuid tables (evaluateRouting policy facts).outcomes
          b.toPublicationActionFields := by
  rw [evaluateRouting_actions, List.pairwise_flatMap]
  constructor
  · intro rule hrule
    obtain ⟨ruleId, -, hactions⟩ := exists_ruleId_of_visited h (List.mem_filter.mp hrule).1
    rw [← List.pairwise_map (f := fun action : PublicationAction =>
        actionKey uuid tables (evaluateRouting policy facts).outcomes
          action.toPublicationActionFields), ← Function.comp_def, ← List.map_map, hactions,
      List.map_map, List.pairwise_map]
    refine (pairwise_actionsOf ruleId).imp_of_mem fun {a b} ha hb hlt => ?_
    rw [mem_actionsOf] at ha hb
    rw [Function.comp_apply, Function.comp_apply, actionKey_fields ha.1, actionKey_fields hb.1,
      ha.2, hb.2, Prod.Lex.toLex_lt_toLex]
    exact .inr ⟨rfl, hlt⟩
  · refine List.Pairwise.filter _ ?_
    rw [List.pairwise_iff_getElem]
    intro i j hi hj hij a ha b hb
    obtain ⟨rowA, -, -, hkeyA⟩ := actionKey_of_visited h (List.getElem?_eq_getElem hi) ha
    obtain ⟨rowB, -, -, hkeyB⟩ := actionKey_of_visited h (List.getElem?_eq_getElem hj) hb
    rw [hkeyA, hkeyB, Prod.Lex.toLex_lt_toLex]
    exact .inl hij

/-! ## Rows of intents -/

/-- The text of the UUID a text denotes. -/
def UuidFormat.canonical (uuid : UuidFormat) (value : String) : String :=
  (uuid.parse value).elim value uuid.text

theorem UuidFormat.canonical_of_parse {value : String} {id : ℕ} (h : uuid.parse value = some id) :
    uuid.canonical value = uuid.text id := by
  rw [canonical, h]
  rfl

@[simp] theorem UuidFormat.canonical_text (id : ℕ) : uuid.canonical (uuid.text id) = uuid.text id :=
  UuidFormat.canonical_of_parse (uuid.parse_text id)

/-- A draft with its ids in canonical text. -/
def PublicationIntentDraft.canonical (uuid : UuidFormat) (intent : PublicationIntentDraft) :
    PublicationIntentDraft where
  intentId := uuid.canonical intent.intentId
  routingEvaluationId := uuid.canonical intent.routingEvaluationId
  routingRequestId := intent.routingRequestId
  messageId := uuid.canonical intent.messageId
  routingPolicyVersionId := uuid.canonical intent.routingPolicyVersionId
  routingRuleId := uuid.canonical intent.routingRuleId
  routingActionId := uuid.canonical intent.routingActionId
  destinationChannelId := uuid.canonical intent.destinationChannelId
  publishIdentityId := uuid.canonical intent.publishIdentityId
  publicationMode := intent.publicationMode
  renderingTemplateVersionId := intent.renderingTemplateVersionId.map uuid.canonical
  businessIdempotencyKey := intent.businessIdempotencyKey
  status := intent.status

/-- An action with an identity for the case that it has none. -/
def PublicationActionFields.withIdentity (action : PublicationActionFields) (identity : String) :
    PublicationActionFields :=
  { action with publishIdentityId := action.publishIdentityId.or (some identity) }

/-- The check of an action reads its `publish_identity_id` only to see that it is not blank. -/
theorem PublicationActionFields.postInit_withIdentity {action : PublicationActionFields}
    (h : action.postInit = .ok ()) {identity : String} (hid : isBlank identity = false) :
    (action.withIdentity identity).postInit = .ok () := by
  unfold withIdentity
  cases hidentity : action.publishIdentityId with
  | some identity' =>
    rw [Option.some_or, ← hidentity]
    exact h
  | none =>
    unfold postInit at h ⊢
    simp only [seq_eq_ok] at h ⊢
    obtain ⟨h1, h2, h3⟩ := h
    refine ⟨h1, h2, ?_⟩
    cases hm : PublicationMode.ofString? action.publicationMode with
    | none => simp [hm] at h3
    | some mode =>
      simp only [hm, seq_eq_ok] at h3 ⊢
      exact ⟨h3.1, by simp [ensureNotBlank, hid], h3.2.2⟩

/-- Whether a row is that of an action. -/
structure PublicationIntentRecord.Records (uuid : UuidFormat) (action : PublicationActionFields)
    (row : PublicationIntentRecord) : Prop where
  routingRuleId : action.routingRuleId = some (uuid.text row.routingRuleId)
  actionId : action.actionId = uuid.text row.routingActionId
  destinationChannelId : action.destinationChannelId = uuid.text row.destinationChannelId
  publicationMode : action.publicationMode = row.publicationMode
  renderingTemplateVersionId :
    action.renderingTemplateVersionId = row.renderingTemplateVersionId.map uuid.text
  publishIdentityId :
    ∀ identity, action.publishIdentityId = some identity → identity = uuid.text row.publishIdentityId

/-- The action read from the row of an action. -/
theorem PublicationIntentRecord.Records.action {action : PublicationAction}
    {row : PublicationIntentRecord} (h : row.Records uuid action.toPublicationActionFields) :
    ∃ action', row.action uuid = .ok action' ∧ action'.toPublicationActionFields =
      action.toPublicationActionFields.withIdentity (uuid.text row.publishIdentityId) := by
  refine ⟨⟨_, PublicationActionFields.postInit_withIdentity action.checked
    (uuid.text_not_blank row.publishIdentityId)⟩, ?_, rfl⟩
  refine PublicationActionFields.create_eq_ok.mpr ?_
  have hidentity : action.publishIdentityId.or (some (uuid.text row.publishIdentityId)) =
      some (uuid.text row.publishIdentityId) := by
    cases hid : action.publishIdentityId with
    | none => rfl
    | some identity => rw [Option.some_or, h.publishIdentityId identity hid]
  simp only [PublicationActionFields.withIdentity, hidentity, h.actionId, h.destinationChannelId,
    h.publicationMode, h.renderingTemplateVersionId, h.routingRuleId]

theorem ruleOutcomeFromSnapshot_snapshot (outcome : RuleOutcome) :
    ruleOutcomeFromSnapshot outcome.snapshot = .ok outcome := by
  rfl

theorem RuleOutcome.pyEq_snapshot (outcome : RuleOutcome) :
    outcome.snapshot.pyEq outcome.snapshot = true := by
  simp [RuleOutcome.snapshot, Json.pyEq, Json.pyEqEntries, Json.asNumber?, List.lookup_cons,
    Number.eq, Number.value]

/-! ## Reading the rows of a decision -/

/-- Sorting by keys that a list has in strict order gives that list. -/
theorem insertionSort_eq_of_perm {α β : Type*} [LinearOrder β] {key : α → β} {l l' : List α}
    (hperm : l'.Perm l) (h : l.Pairwise fun a b => key a < key b) :
    l'.insertionSort (fun a b => key a ≤ key b) = l := by
  have htotal : Std.Total fun a b => key a ≤ key b := ⟨fun a b => le_total (key a) (key b)⟩
  have htrans : IsTrans α fun a b => key a ≤ key b := ⟨fun a b c => le_trans⟩
  refine List.Perm.eq_of_pairwise ?_ (List.pairwise_insertionSort _ _) (h.imp le_of_lt)
    ((List.perm_insertionSort _ _).trans hperm)
  intro a b ha hb hab hba
  have hkeys : (l.map key).Nodup := List.pairwise_map.mpr (h.imp ne_of_lt)
  rw [(List.perm_insertionSort _ _).mem_iff, hperm.mem_iff] at ha
  exact List.inj_on_of_nodup_map hkeys ha hb (le_antisymm hab hba)

theorem forall₂_pairwise {α β : Type*} {R : α → β → Prop} {P : α → α → Prop} {Q : β → β → Prop}
    (hPQ : ∀ {a a' b b'}, R a b → R a' b' → P a a' → Q b b') {l : List α} {l' : List β}
    (h : List.Forall₂ R l l') (hl : l.Pairwise P) : l'.Pairwise Q := by
  induction h with
  | nil => exact .nil
  | cons hab h ih =>
    rw [List.pairwise_cons] at hl ⊢
    refine ⟨fun b' hb' => ?_, ih hl.2⟩
    obtain ⟨a', ha', hab'⟩ := exists_left_of_mem h hb'
    exact hPQ hab hab' (hl.1 a' ha')

/-- A row of an action that is a row of the tables: its key. -/
theorem intentKey_of_records {action : PublicationActionFields} {row : PublicationIntentRecord}
    (h : row.Records uuid action) (outcomes : List RuleOutcome) :
    intentKey uuid tables outcomes row =
      toLex ((ofLex (actionKey uuid tables outcomes action)).1,
        toLex ((ofLex (actionKey uuid tables outcomes action)).2, uuid.text row.id)) := by
  simp [intentKey, actionKey, h.routingRuleId, h.actionId, uuid.parse_text]

/-- The rows of a decision. -/
def RowsOf (uuid : UuidFormat) (decision : RoutingDecision) (rows : List PublicationIntentRecord) :
    Prop :=
  List.Forall₂ (fun action row => row.Records uuid action.toPublicationActionFields)
    decision.actions rows

/-- The rows of a decision are in the order they are sorted into. -/
theorem RowsOf.insertionSort {facts : Facts} {stored rows : List PublicationIntentRecord}
    (h : RowsOf uuid (evaluateRouting policy facts) stored)
    (hpolicy : tables.policy uuid version = .ok policy) (hperm : rows.Perm stored) :
    rows.insertionSort (IntentLE uuid tables (evaluateRouting policy facts).outcomes) = stored := by
  refine insertionSort_eq_of_perm hperm (forall₂_pairwise ?_ h (pairwise_actionKey hpolicy facts))
  intro action action' row row' hrow hrow' hlt
  rw [intentKey_of_records hrow, intentKey_of_records hrow', Prod.Lex.toLex_lt_toLex]
  rcases (Prod.Lex.lt_iff).mp hlt with hlt | ⟨heq, hlt⟩
  · exact .inl hlt
  · refine .inr ⟨heq, ?_⟩
    rw [Prod.Lex.toLex_lt_toLex]
    exact .inl hlt

/-- Reading the actions of rows. -/
theorem RowsOf.mapM_action {decision : RoutingDecision} {rows : List PublicationIntentRecord}
    (h : RowsOf uuid decision rows) : ∃ actions, rows.mapM (·.action uuid) = .ok actions ∧
      actions.map (·.toPublicationActionFields) =
        List.zipWith (fun action row =>
          action.toPublicationActionFields.withIdentity (uuid.text row.publishIdentityId))
          decision.actions rows := by
  unfold RowsOf at h
  generalize decision.actions = as at h ⊢
  induction h with
  | nil => exact ⟨[], rfl, rfl⟩
  | cons hrow _ ih =>
    obtain ⟨action, haction, hfields⟩ := hrow.action
    obtain ⟨actions, hactions, hfields'⟩ := ih
    refine ⟨action :: actions, ?_, ?_⟩
    · rw [List.mapM_cons, haction, hactions]
      rfl
    · rw [List.map_cons, hfields, hfields', List.zipWith_cons_cons]

/-- What is read back of an evaluation of a policy from the tables. -/
theorem loadExecution_eq {evaluation : RoutingEvaluationRecord} {facts : Facts}
    {stored rows : List PublicationIntentRecord}
    (hpolicy : tables.policy uuid version = .ok policy)
    (houtcomes : evaluation.ruleOutcomes =
      (evaluateRouting policy facts).outcomes.map (·.snapshot))
    (hstored : RowsOf uuid (evaluateRouting policy facts) stored) (hperm : rows.Perm stored) :
    ∃ actions, actions.map (·.toPublicationActionFields) =
        List.zipWith (fun action row =>
          action.toPublicationActionFields.withIdentity (uuid.text row.publishIdentityId))
          (evaluateRouting policy facts).actions stored ∧
      loadExecution uuid tables evaluation rows = .ok {
        evaluationId := uuid.text evaluation.id
        routingRequestId := evaluation.routingRequestId
        messageId := uuid.text evaluation.messageId
        routingPolicyVersionId := uuid.text evaluation.routingPolicyVersionId
        factsSnapshot := evaluation.factsSnapshot
        factsHash := evaluation.factsHash
        decision := {
          policyVersionId := uuid.text evaluation.routingPolicyVersionId
          outcomes := (evaluateRouting policy facts).outcomes
          actions
          stoppedAtRuleId := evaluation.stoppedAtRuleId.map uuid.text }
        intents := stored.map (·.draft uuid)
        persisted := true } := by
  obtain ⟨actions, hactions, hfields⟩ := hstored.mapM_action
  refine ⟨actions, hfields, ?_⟩
  have hall : rows.all (fun row => (tables.actions.lookup row.routingActionId).isSome) = true := by
    rw [List.all_eq_true]
    intro row hrow
    obtain ⟨action, haction, hrecords⟩ := exists_left_of_mem hstored (hperm.mem_iff.mp hrow)
    obtain ⟨actionRow, hactionRow, heq⟩ := exists_row_of_mem_actions hpolicy haction
    have hid : actionRow.1 = row.routingActionId := by
      refine uuid.text_injective ?_
      rw [← hrecords.actionId, heq]
      rfl
    rw [← hid, Dict.lookup_of_mem tables.actions_nodup hactionRow]
    rfl
  have hmap : evaluation.ruleOutcomes.mapM ruleOutcomeFromSnapshot =
      .ok (evaluateRouting policy facts).outcomes := by
    rw [houtcomes, mapM_eq_ok, List.forall₂_map_left_iff, List.forall₂_same]
    exact fun outcome _ => ruleOutcomeFromSnapshot_snapshot outcome
  unfold loadExecution
  rw [hall, hmap]
  refine seq_eq_ok.mpr ⟨rfl, ?_⟩
  refine bind_eq_ok.mpr ⟨_, rfl, ?_⟩
  dsimp only
  rw [hstored.insertionSort hpolicy hperm, hactions]
  rfl

/-! ## Storing -/

theorem UuidFormat.optionalUuid_eq_ok {value : Option String} {field : String} {id : Option ℕ}
    (h : uuid.optionalUuid value field = .ok id) : value.map uuid.canonical = id.map uuid.text := by
  cases value with
  | none =>
    rw [← Except.ok.inj h]
    rfl
  | some value =>
    cases hparse : uuid.asUuid value field with
    | error e =>
      rw [UuidFormat.optionalUuid, hparse] at h
      cases h
    | ok id' =>
      rw [UuidFormat.optionalUuid, hparse] at h
      rw [← Except.ok.inj h, Option.map_some, Option.map_some,
        UuidFormat.canonical_of_parse (UuidFormat.asUuid_eq_ok.mp hparse)]

/-- The row of an intent, read back. -/
theorem PublicationIntentDraft.draft_of_record {intent : PublicationIntentDraft}
    {row : PublicationIntentRecord} (h : intent.record uuid = .ok row)
    (hstatus : intent.status = "pending") : row.draft uuid = intent.canonical uuid := by
  unfold PublicationIntentDraft.record at h
  simp only [bind_eq_ok, UuidFormat.asUuid_eq_ok] at h
  obtain ⟨id, hid, evaluation, hevaluation, message, hmessage, version, hversion, rule, hrule,
    action, haction, destination, hdestination, identity, hidentity, template, htemplate, h⟩ := h
  rw [← Except.ok.inj h]
  simp only [PublicationIntentRecord.draft, PublicationIntentDraft.canonical,
    UuidFormat.canonical_of_parse hid, UuidFormat.canonical_of_parse hevaluation,
    UuidFormat.canonical_of_parse hmessage, UuidFormat.canonical_of_parse hversion,
    UuidFormat.canonical_of_parse hrule, UuidFormat.canonical_of_parse haction,
    UuidFormat.canonical_of_parse hdestination, UuidFormat.canonical_of_parse hidentity,
    UuidFormat.optionalUuid_eq_ok htemplate, hstatus]

/-- What a checked intent has in common with its action. -/
theorem validateIntent_eq_ok {evaluation : RoutingEvaluationDraft} {action : PublicationAction}
    {intent : PublicationIntentDraft} (h : validateIntent evaluation action intent = .ok ()) :
    intent.status = "pending" ∧ some intent.routingRuleId = action.routingRuleId ∧
      intent.routingActionId = action.actionId ∧
      intent.destinationChannelId = action.destinationChannelId ∧
      intent.publicationMode = action.publicationMode ∧
      intent.renderingTemplateVersionId = action.renderingTemplateVersionId ∧
      ∀ identity, action.publishIdentityId = some identity →
        intent.publishIdentityId = identity := by
  unfold validateIntent at h
  simp only [seq_eq_ok, ensure_eq_ok, Bool.and_eq_true, decide_eq_true_eq, Option.all_eq_true] at h
  obtain ⟨⟨-, hstatus⟩, -, ⟨⟨⟨⟨⟨hrule, haction⟩, hdestination⟩, hmode⟩, htemplate⟩, hidentity⟩⟩ := h
  exact ⟨hstatus, hrule, haction, hdestination, hmode, htemplate,
    fun identity h => hidentity identity h⟩

/-- The row of a checked intent is that of its action. -/
theorem records_of_validateIntent {evaluation : RoutingEvaluationDraft} {action : PublicationAction}
    {intent : PublicationIntentDraft} {row : PublicationIntentRecord}
    {actionRow : ℕ × RoutingActionRow}
    (hfields : action.toPublicationActionFields = RoutingActionRow.fields uuid actionRow)
    (hvalid : validateIntent evaluation action intent = .ok ())
    (hrecord : intent.record uuid = .ok row) :
    row.Records uuid action.toPublicationActionFields ∧
      row.draft uuid = intent.canonical uuid := by
  obtain ⟨hstatus, hrule, haction, hdestination, hmode, htemplate, hidentity⟩ :=
    validateIntent_eq_ok hvalid
  have hdraft := intent.draft_of_record hrecord hstatus
  refine ⟨?_, hdraft⟩
  -- the ids an intent takes over from its action are canonical already
  have hruleId : uuid.text row.routingRuleId = uuid.canonical intent.routingRuleId :=
    congrArg PublicationIntentDraft.routingRuleId hdraft
  have hactionId : uuid.text row.routingActionId = uuid.canonical intent.routingActionId :=
    congrArg PublicationIntentDraft.routingActionId hdraft
  have hdestinationId : uuid.text row.destinationChannelId =
      uuid.canonical intent.destinationChannelId :=
    congrArg PublicationIntentDraft.destinationChannelId hdraft
  have hmode' : row.publicationMode = intent.publicationMode :=
    congrArg PublicationIntentDraft.publicationMode hdraft
  have htemplate' : row.renderingTemplateVersionId.map uuid.text =
      intent.renderingTemplateVersionId.map uuid.canonical :=
    congrArg PublicationIntentDraft.renderingTemplateVersionId hdraft
  have hidentity' : uuid.text row.publishIdentityId = uuid.canonical intent.publishIdentityId :=
    congrArg PublicationIntentDraft.publishIdentityId hdraft
  rw [hfields] at hrule haction hdestination hmode htemplate hidentity ⊢
  constructor
  · rw [hruleId, Option.some.inj hrule, UuidFormat.canonical_text]
    rfl
  · rw [hactionId, haction]
    exact (UuidFormat.canonical_text _).symm
  · rw [hdestinationId, hdestination]
    exact (UuidFormat.canonical_text _).symm
  · rw [hmode', hmode]
  · rw [htemplate', htemplate]
    simp [RoutingActionRow.fields, Function.comp_def]
  · intro identity hid
    rw [hidentity', hidentity identity hid]
    obtain ⟨id, -, rfl⟩ := Option.map_eq_some_iff.mp hid
    exact (UuidFormat.canonical_text _).symm

theorem checkEvaluation_eq_ok {stored : List RoutingEvaluationRecord}
    {new : RoutingEvaluationRecord} :
    checkEvaluation stored new = .ok () ↔ new.id ∉ stored.map (·.id) := by
  unfold checkEvaluation
  split_ifs with h <;> simp [h]

/-- The row of the evaluation of a decision. -/
theorem RoutingEvaluationDraft.record_eq_ok {evaluation : RoutingEvaluationDraft}
    {record : RoutingEvaluationRecord} (h : evaluation.record uuid = .ok record) :
    uuid.text record.id = uuid.canonical evaluation.evaluationId ∧
      record.routingRequestId = evaluation.routingRequestId ∧
      uuid.text record.messageId = uuid.canonical evaluation.messageId ∧
      uuid.text record.routingPolicyVersionId =
        uuid.canonical evaluation.routingPolicyVersionId ∧
      record.factsSnapshot = evaluation.factsSnapshot ∧
      record.factsHash = evaluation.factsHash ∧
      record.ruleOutcomes = evaluation.ruleOutcomes ∧
      record.stoppedAtRuleId.map uuid.text = evaluation.stoppedAtRuleId.map uuid.canonical := by
  unfold RoutingEvaluationDraft.record at h
  simp only [bind_eq_ok, UuidFormat.asUuid_eq_ok] at h
  obtain ⟨id, hid, message, hmessage, version, hversion, stopped, hstopped, h⟩ := h
  rw [← Except.ok.inj h]
  exact ⟨(UuidFormat.canonical_of_parse hid).symm, rfl,
    (UuidFormat.canonical_of_parse hmessage).symm, (UuidFormat.canonical_of_parse hversion).symm,
    rfl, rfl, rfl, (UuidFormat.optionalUuid_eq_ok hstopped).symm⟩

/-- What storing the evaluation of a new request does. -/
theorem RoutingTables.persistEvaluation_new {t t' : RoutingTables} {work : RoutingWork}
    {rows : List PublicationIntentRecord} {result : RoutingExecutionResult}
    (hnew : t.evaluation? work.evaluation.routingRequestId = none)
    (h : t.persistEvaluation uuid tables work rows = .ok (t', result)) :
    ∃ record records, work.evaluation.record uuid = .ok record ∧
      record.id ∉ t.evaluations.map (·.id) ∧
      work.decision.policyVersionId = work.evaluation.routingPolicyVersionId ∧
      List.Forall₂ (fun action intent => validateIntent work.evaluation action intent = .ok ())
        work.decision.actions work.intents ∧
      List.Forall₂ (fun intent row => intent.record uuid = .ok row) work.intents records ∧
      t' = ⟨t.evaluations ++ [record], t.intents ++ records⟩ ∧
      result = work.result true false := by
  unfold RoutingTables.persistEvaluation at h
  obtain ⟨hvalid, h⟩ := seq_eq_ok.mp h
  obtain ⟨record, hrecord, h⟩ := bind_eq_ok.mp h
  rw [hnew] at h
  obtain ⟨hid, h⟩ := seq_eq_ok.mp h
  obtain ⟨records, hrecords, h⟩ := bind_eq_ok.mp h
  obtain ⟨-, h⟩ := seq_eq_ok.mp h
  obtain ⟨rfl, rfl⟩ := Prod.mk.inj (Except.ok.inj h)
  unfold validatePersistencePayload at hvalid
  simp only [seq_eq_ok, ensure_eq_ok, decide_eq_true_eq, forM_eq_ok] at hvalid
  obtain ⟨hversion, -, -, hlength, hzip⟩ := hvalid
  refine ⟨record, records, hrecord, checkEvaluation_eq_ok.mp hid, hversion, ?_,
    mapM_eq_ok.mp hrecords, rfl, rfl⟩
  exact List.forall₂_iff_zip.mpr ⟨hlength.symm, fun {action intent} hmem => hzip (action, intent) hmem⟩

theorem forall₂_comp {α β γ : Type*} {R : α → β → Prop} {S : β → γ → Prop} {T : α → γ → Prop}
    {as : List α} {bs : List β} {cs : List γ} (hT : ∀ {a b c}, a ∈ as → R a b → S b c → T a c)
    (h : List.Forall₂ R as bs) (h' : List.Forall₂ S bs cs) : List.Forall₂ T as cs := by
  induction h generalizing cs with
  | nil =>
    cases h'
    exact .nil
  | cons hab _ ih =>
    obtain ⟨c, cs', hbc, hbs, rfl⟩ := List.forall₂_cons_left_iff.mp h'
    exact .cons (hT (List.mem_cons_self ..) hab hbc)
      (ih (fun ha => hT (List.mem_cons_of_mem _ ha)) hbs)

/-- The rows of checked intents read back as the intents. -/
theorem drafts_of_valid {evaluation : RoutingEvaluationDraft} {actions : List PublicationAction}
    {intents : List PublicationIntentDraft} {records : List PublicationIntentRecord}
    (hvalid : List.Forall₂ (fun action intent => validateIntent evaluation action intent = .ok ())
      actions intents)
    (hrecords : List.Forall₂ (fun intent row => intent.record uuid = .ok row) intents records) :
    records.map (·.draft uuid) = intents.map (·.canonical uuid) := by
  have hpending : ∀ intent ∈ intents, intent.status = "pending" := by
    intro intent hintent
    obtain ⟨action, -, h⟩ := exists_left_of_mem hvalid hintent
    exact (validateIntent_eq_ok h).1
  have hdrafts : List.Forall₂ (fun draft draft' => draft = draft') (records.map (·.draft uuid))
      (intents.map (·.canonical uuid)) := by
    rw [List.forall₂_map_left_iff, List.forall₂_map_right_iff]
    refine List.Forall₂.flip (List.Forall₂.imp (fun intent row h => ?_)
      ((List.forall₂_and_left ..).mpr ⟨hpending, hrecords⟩))
    exact intent.draft_of_record h.2 h.1
  exact List.forall₂_eq_eq_eq ▸ hdrafts

/-- The rows of checked intents are those of the decision. -/
theorem rowsOf_of_valid {evaluation : RoutingEvaluationDraft} {facts : Facts}
    {intents : List PublicationIntentDraft} {records : List PublicationIntentRecord}
    (hpolicy : tables.policy uuid version = .ok policy)
    (hvalid : List.Forall₂ (fun action intent => validateIntent evaluation action intent = .ok ())
      (evaluateRouting policy facts).actions intents)
    (hrecords : List.Forall₂ (fun intent row => intent.record uuid = .ok row) intents records) :
    RowsOf uuid (evaluateRouting policy facts) records := by
  refine forall₂_comp (fun {action intent row} haction hvalid hrecord => ?_) hvalid hrecords
  obtain ⟨actionRow, -, hfields⟩ := exists_row_of_mem_actions hpolicy haction
  exact (records_of_validateIntent hfields hvalid hrecord).1

theorem buildPolicy_eq_ok {db : SnapshotTables} {defaults : Dict String String}
    (h : buildPolicy uuid tables db version = .ok (policy, defaults)) :
    tables.policy uuid version = .ok policy := by
  unfold buildPolicy at h
  dsimp only at h
  obtain ⟨-, h⟩ := seq_eq_ok.mp h
  obtain ⟨-, h⟩ := seq_eq_ok.mp h
  obtain ⟨-, h⟩ := seq_eq_ok.mp h
  obtain ⟨policy', hpolicy, h⟩ := bind_eq_ok.mp h
  rw [hpolicy, (Prod.mk.inj (Except.ok.inj h)).1]

/-- The id a decision stops at is a canonical text. -/
theorem stoppedAtRuleId_canonical (h : tables.policy uuid version = .ok policy) (facts : Facts) :
    (evaluateRouting policy facts).stoppedAtRuleId.map uuid.canonical =
      (evaluateRouting policy facts).stoppedAtRuleId := by
  have hstopped : (evaluateRouting policy facts).stoppedAtRuleId =
      ((sortedRules policy.rules).find? (·.stopsAt facts)).map (·.ruleId) := by
    rw [evaluateRouting, evaluateRules_eq]
  rw [hstopped]
  cases hfind : (sortedRules policy.rules).find? (·.stopsAt facts) with
  | none => rfl
  | some rule =>
    have hmem := (sortedRules_perm _).mem_iff.mp (List.mem_of_find?_eq_some hfind)
    obtain ⟨row, hrow⟩ := (tables.policy_eq_ok h).2 rule hmem
    rw [Option.map_some, Option.map_some, (tables.rule_eq_ok hrow).1, UuidFormat.canonical_text]

theorem evaluateRouting_policyVersionId (policy : RoutingPolicy) (facts : Facts) :
    (evaluateRouting policy facts).policyVersionId = policy.policyVersionId := by
  rw [evaluateRouting, evaluateRules_eq]

/-- Rows of other evaluations do not show among the intents of an evaluation. -/
theorem RoutingTables.intentsOf_append_self {t : RoutingTables} {record : RoutingEvaluationRecord}
    {records : List PublicationIntentRecord}
    (howned : ∀ row ∈ t.intents, row.routingEvaluationId ∈ t.evaluations.map (·.id))
    (hnew : record.id ∉ t.evaluations.map (·.id))
    (hrecords : ∀ row ∈ records, row.routingEvaluationId = record.id) :
    (⟨t.evaluations ++ [record], t.intents ++ records⟩ : RoutingTables).intentsOf record =
      records := by
  rw [RoutingTables.intentsOf, List.filter_append, List.filter_eq_nil_iff.mpr, List.nil_append,
    List.filter_eq_self.mpr]
  · exact fun row hrow => decide_eq_true (hrecords row hrow)
  · intro row hrow heq
    exact hnew (of_decide_eq_true heq ▸ howned row hrow)

/-- The row of a checked intent belongs to the row of its evaluation. -/
theorem routingEvaluationId_of_valid {evaluation : RoutingEvaluationDraft}
    {record : RoutingEvaluationRecord} {actions : List PublicationAction}
    {intents : List PublicationIntentDraft} {records : List PublicationIntentRecord}
    (hrecord : evaluation.record uuid = .ok record)
    (hvalid : List.Forall₂ (fun action intent => validateIntent evaluation action intent = .ok ())
      actions intents)
    (hrecords : List.Forall₂ (fun intent row => intent.record uuid = .ok row) intents records) :
    ∀ row ∈ records, row.routingEvaluationId = record.id := by
  intro row hrow
  obtain ⟨intent, hintent, hrowIntent⟩ := exists_left_of_mem hrecords hrow
  obtain ⟨action, -, hvalid⟩ := exists_left_of_mem hvalid hintent
  have hid : intent.routingEvaluationId = evaluation.evaluationId := by
    unfold validateIntent at hvalid
    have h := (seq_eq_ok.mp hvalid).1
    simp only [ensure_eq_ok, Bool.and_eq_true, decide_eq_true_eq] at h
    exact h.1.1.1.1
  have hdraft := congrArg PublicationIntentDraft.routingEvaluationId
    (intent.draft_of_record hrowIntent (validateIntent_eq_ok hvalid).1)
  refine uuid.text_injective ?_
  rw [(RoutingEvaluationDraft.record_eq_ok hrecord).1, ← hid]
  exact hdraft

theorem nonblank_eq_ok {value field : String} (h : isBlank value = false) :
    nonblank value field = .ok value := by
  simp [nonblank, ensure, h, bind, Except.bind, pure, Except.pure]

/-- The check of a request against a stored evaluation. -/
theorem validateRoutingRequestReuse_eq (request : RoutingRequest) (result : RoutingExecutionResult) :
    validateRoutingRequestReuse result request.requestId request.messageId
        request.routingPolicyVersionId =
      ensure (result.routingRequestId = request.requestId && result.messageId = request.messageId &&
        result.routingPolicyVersionId = request.routingPolicyVersionId)
        "routing_request_id is already bound to a different message or routing policy version" := by
  unfold validateRoutingRequestReuse
  rw [nonblank_eq_ok request.requestId_not_blank, nonblank_eq_ok request.messageId_not_blank,
    nonblank_eq_ok request.routingPolicyVersionId_not_blank]
  rfl

/-- An evaluation that is stored is read back, in whatever order its rows come: the outcomes, the
stop position and the facts are those of the decision, the intents are those that were stored, in
the same order and with every id in canonical text, and the actions are those of the decision, an
action without an identity of its own with the one its intent has. A repeated request gets this
result, marked as reused. -/
theorem loadExecution_persistEvaluation {db : SnapshotTables} {defaults : Dict String String}
    {factsSnapshotHash : Facts → String} {facts : Facts} {request : RoutingRequest}
    {evaluationId : String} {intents : List PublicationIntentDraft} {t t' : RoutingTables}
    {rows : List PublicationIntentRecord} {result : RoutingExecutionResult}
    (howned : ∀ row ∈ t.intents, row.routingEvaluationId ∈ t.evaluations.map (·.id))
    (hbuild : buildPolicy uuid tables db version = .ok (policy, defaults))
    (hnew : t.evaluation? request.requestId = none)
    (hpersist : t.persistEvaluation uuid tables
      ⟨evaluationDraft factsSnapshotHash request evaluationId facts (evaluateRouting policy facts),
        evaluateRouting policy facts, intents⟩ rows = .ok (t', result)) :
    ∃ evaluation, t'.evaluation? request.requestId = some evaluation ∧
      ∀ rows', rows'.Perm (t'.intentsOf evaluation) → ∃ reloaded,
        loadExecution uuid tables evaluation rows' = .ok reloaded ∧
        reloaded.decision.actions.map (·.toPublicationActionFields) =
          List.zipWith (fun action intent =>
            action.toPublicationActionFields.withIdentity (uuid.canonical intent.publishIdentityId))
            (evaluateRouting policy facts).actions intents ∧
        reloaded = {
          evaluationId := uuid.canonical evaluationId
          routingRequestId := request.requestId
          messageId := uuid.canonical request.messageId
          routingPolicyVersionId := request.routingPolicyVersionId
          factsSnapshot := facts
          factsHash := factsSnapshotHash facts
          decision := {
            evaluateRouting policy facts with actions := reloaded.decision.actions }
          intents := intents.map (·.canonical uuid)
          persisted := true } ∧
        (uuid.canonical request.messageId = request.messageId →
          reuseExecution uuid tables evaluation rows' request.requestId request.messageId
            request.routingPolicyVersionId = .ok { reloaded with reused := true }) := by
  have hpolicy := buildPolicy_eq_ok hbuild
  obtain ⟨record, records, hrecord, hid, hversionId, hvalid, hrecords, rfl, -⟩ :=
    RoutingTables.persistEvaluation_new hnew hpersist
  have hrowIds := routingEvaluationId_of_valid hrecord hvalid hrecords
  have hdrafts := drafts_of_valid hvalid hrecords
  obtain ⟨hevaluation, hrequest, hmessage, hversion, hfacts, hhash, houtcomes, hstopped⟩ :=
    RoutingEvaluationDraft.record_eq_ok hrecord
  have hrequestVersion : policy.policyVersionId = request.routingPolicyVersionId :=
    (evaluateRouting_policyVersionId policy facts).symm.trans hversionId
  have hidentities : records.map (fun row => uuid.text row.publishIdentityId) =
      intents.map (fun intent => uuid.canonical intent.publishIdentityId) := by
    have h := congrArg (List.map PublicationIntentDraft.publishIdentityId) hdrafts
    rw [List.map_map, List.map_map] at h
    exact h
  refine ⟨record, ?_, fun rows' hperm => ?_⟩
  · rw [RoutingTables.evaluation?, List.find?_append, ← RoutingTables.evaluation?, hnew]
    simp [hrequest, evaluationDraft]
  rw [RoutingTables.intentsOf_append_self howned hid hrowIds] at hperm
  obtain ⟨actions, hactions, hload⟩ := loadExecution_eq hpolicy houtcomes
    (rowsOf_of_valid hpolicy hvalid hrecords) hperm
  have hcanonical : uuid.canonical request.routingPolicyVersionId =
      request.routingPolicyVersionId := by
    rw [← hrequestVersion, (tables.policy_eq_ok hpolicy).1, UuidFormat.canonical_text]
  rw [hdrafts, hevaluation, hrequest, hmessage, hversion, hfacts, hhash, hstopped] at hload
  simp only [evaluationDraft, stoppedAtRuleId_canonical hpolicy, hcanonical] at hload
  refine ⟨_, hload, ?_, ?_, fun hmessageId => ?_⟩
  · rw [hactions]
    calc _ = List.zipWith
          (fun (action : PublicationAction) identity =>
            action.toPublicationActionFields.withIdentity identity)
          (evaluateRouting policy facts).actions
          (records.map fun row => uuid.text row.publishIdentityId) := List.zipWith_map_right.symm
      _ = _ := by rw [hidentities, List.zipWith_map_right]
  · rw [← hrequestVersion, ← evaluateRouting_policyVersionId policy facts]
  · rw [reuseExecution, hload]
    refine seq_eq_ok.mpr ⟨?_, rfl⟩
    rw [validateRoutingRequestReuse_eq, ensure_eq_ok]
    simp [hmessageId]

/-- Intents are built one by one from the actions. -/
theorem forall₂_buildIntents {sha256 : String → String} {evaluation : RoutingEvaluationDraft}
    {defaults : Dict String String} {actions : List PublicationAction} :
    ∀ {intentId : ℕ} {intents : List PublicationIntentDraft},
      buildIntents uuid sha256 evaluation defaults intentId actions = .ok intents →
      List.Forall₂ (fun action intent => ∃ id,
        buildIntent uuid sha256 evaluation defaults id action = .ok intent) actions intents := by
  induction actions with
  | nil =>
    intro intentId intents h
    rw [← Except.ok.inj h]
    exact .nil
  | cons action actions ih =>
    intro intentId intents h
    rw [buildIntents] at h
    obtain ⟨first, hfirst, h⟩ := bind_eq_ok.mp h
    obtain ⟨rest, hrest, h⟩ := bind_eq_ok.mp h
    rw [← Except.ok.inj h]
    exact .cons ⟨intentId, hfirst⟩ (ih hrest)

end

/-! ## A policy with one action -/

theorem samplePolicyTables_unique (row : RoutingActionRow) : ∀ e ∈ [(3, row)], ∀ e' ∈ [(3, row)],
    e.2.routingRuleId = e'.2.routingRuleId → e.2.outputOrder = e'.2.outputOrder → e.1 = e'.1 := by
  intro e he e' he' _ _
  rw [List.mem_singleton.mp he, List.mem_singleton.mp he']

/-- Version 1 has one rule, 2, with one action, 3, which forwards to destination 4. -/
def samplePolicyTables : PolicyTables where
  rules := [(2, ⟨1, 0, .obj [("fact", .str "media"), ("op", .str "exists")], false, true⟩)]
  actions := [(3, ⟨2, 4, "forward_only", none, none, 0⟩)]
  rules_nodup := List.nodup_singleton _
  actions_nodup := List.nodup_singleton _
  outputOrder_unique := samplePolicyTables_unique _

/-- Destination 4 publishes as identity 5. -/
def sampleSnapshotTables : SnapshotTables where
  messages := []
  publishedVersions := [1]
  destinations := [(4, ⟨true, 5⟩)]
  enabledIdentities := [5]
  publishedTemplates := []

/-- A request to route message 6. -/
def sampleRoutingRequest : RoutingRequest where
  requestId := "request"
  messageId := sampleUuid.text 6
  routingPolicyVersionId := sampleUuid.text 1
  requestId_not_blank := by decide +kernel
  messageId_not_blank := sampleUuid.text_not_blank 6
  routingPolicyVersionId_not_blank := sampleUuid.text_not_blank 1

/-- The intent of the action. -/
def sampleIntent : PublicationIntentDraft where
  intentId := sampleUuid.text 8
  routingEvaluationId := sampleUuid.text 7
  routingRequestId := "request"
  messageId := sampleUuid.text 6
  routingPolicyVersionId := sampleUuid.text 1
  routingRuleId := sampleUuid.text 2
  routingActionId := sampleUuid.text 3
  destinationChannelId := sampleUuid.text 4
  publishIdentityId := sampleUuid.text 5
  publicationMode := "forward_only"
  renderingTemplateVersionId := none
  businessIdempotencyKey := "key"

/-- The evaluation of the request on facts that match. -/
def sampleRoutingWork (policy : RoutingPolicy) : RoutingWork :=
  let facts : Facts := [("media", .obj [])]
  let decision := evaluateRouting policy facts
  ⟨evaluationDraft (fun _ => "hash") sampleRoutingRequest (sampleUuid.text 7) facts decision,
    decision, [sampleIntent]⟩

/-- The arguments of the action. -/
def sampleActionFields : PublicationActionFields :=
  RoutingActionRow.fields sampleUuid (3, ⟨2, 4, "forward_only", none, none, 0⟩)

theorem postInit_sampleActionFields : sampleActionFields.postInit = .ok () := by
  have hmode : PublicationMode.ofString? "forward_only" = some .forwardOnly := by decide
  simp [PublicationActionFields.postInit, sampleActionFields, RoutingActionRow.fields, hmode,
    ensureNotBlank, sampleUuid.text_not_blank, seq_eq_ok]

/-- The arguments of the rule. -/
def sampleRuleFields : RoutingRuleFields where
  ruleId := sampleUuid.text 2
  priority := 0
  condition := .obj [("fact", .str "media"), ("op", .str "exists")]
  actions := [⟨sampleActionFields, postInit_sampleActionFields⟩]

theorem postInit_sampleRuleFields : sampleRuleFields.postInit = .ok () := by
  have hcondition : validateCondition sampleRuleFields.condition none = .ok () := by
    decide +kernel
  simp only [RoutingRuleFields.postInit, hcondition, seq_eq_ok, ensure_eq_ok, true_and]
  simp [sampleRuleFields, sampleActionFields, RoutingActionRow.fields, sampleUuid.text_not_blank]

/-- The rule. -/
def sampleRule : RoutingRule :=
  ⟨sampleRuleFields, postInit_sampleRuleFields⟩

/-- The policy. -/
def samplePolicy : RoutingPolicy where
  policyVersionId := sampleUuid.text 1
  rules := [sampleRule]
  policyVersionId_not_blank := sampleUuid.text_not_blank 1
  ruleIds_nodup := List.nodup_singleton _

theorem policy_sample : samplePolicyTables.policy sampleUuid 1 = .ok samplePolicy := by
  have hactions : samplePolicyTables.actionsOf sampleUuid 2 =
      [(3, ⟨2, 4, "forward_only", none, none, 0⟩)] := rfl
  have haction : [(3, (⟨2, 4, "forward_only", none, none, 0⟩ : RoutingActionRow))].mapM
      (PolicyTables.action sampleUuid) =
      .ok [⟨sampleActionFields, postInit_sampleActionFields⟩] :=
    mapM_eq_ok.mpr (.cons (PublicationActionFields.create_eq_ok.mpr rfl) .nil)
  have hrule : samplePolicyTables.rule sampleUuid
      (2, ⟨1, 0, sampleRuleFields.condition, false, true⟩) = .ok sampleRule := by
    rw [PolicyTables.rule, hactions, haction]
    exact RoutingRuleFields.create_of_postInit postInit_sampleRuleFields
  have hrules : [(2, ⟨1, 0, sampleRuleFields.condition, false, true⟩)].mapM
      (samplePolicyTables.rule sampleUuid) = .ok [sampleRule] :=
    mapM_eq_ok.mpr (.cons hrule .nil)
  refine bind_eq_ok.mpr ⟨_, hrules, ?_⟩
  refine (dif_pos (sampleUuid.text_not_blank 1)).trans ?_
  exact dif_pos (List.nodup_singleton _)

theorem buildPolicy_sample (messages : Dict ℕ MessageFacts) :
    buildPolicy sampleUuid samplePolicyTables { sampleSnapshotTables with messages } 1 =
      .ok (samplePolicy, [(sampleUuid.text 4, sampleUuid.text 5)]) := by
  unfold buildPolicy
  rw [policy_sample]
  rfl

/-- The decision on facts that match. -/
def sampleDecision : RoutingDecision where
  policyVersionId := sampleUuid.text 1
  outcomes := [⟨sampleUuid.text 2, true, true, true, true, false⟩]
  actions := sampleRule.taggedActions
  stoppedAtRuleId := none

theorem evaluateRouting_samplePolicy {facts : Facts}
    (h : evaluateCondition sampleRule.condition facts = true) :
    evaluateRouting samplePolicy facts = sampleDecision := by
  have hsorted : sortedRules samplePolicy.rules = [sampleRule] := rfl
  rw [evaluateRouting, hsorted, evaluateRules, if_neg (by decide)]
  dsimp only
  rw [h]
  rfl

/-- What is made of a request on facts that match. -/
def sampleWork (request : RoutingRequest) (factsHash : String) (facts : Facts) (evaluationId : ℕ)
    (businessIdempotencyKey : String) : RoutingWork where
  evaluation := evaluationDraft (fun _ => factsHash) request (sampleUuid.text evaluationId) facts
    sampleDecision
  decision := sampleDecision
  intents := [{ sampleIntent with
    intentId := sampleUuid.text (evaluationId + 1)
    routingEvaluationId := sampleUuid.text evaluationId
    routingRequestId := request.requestId
    businessIdempotencyKey }]

theorem evaluateCondition_sampleRule :
    evaluateCondition sampleRule.condition [("media", .obj [])] = true := by
  decide +kernel

theorem sampleRoutingWork_samplePolicy : sampleRoutingWork samplePolicy =
    sampleWork sampleRoutingRequest "hash" [("media", .obj [])] 7 "key" := by
  unfold sampleRoutingWork
  dsimp only
  rw [evaluateRouting_samplePolicy evaluateCondition_sampleRule]
  rfl

section

variable (factsHash : String) (facts : Facts) (evaluationId : ℕ) (businessIdempotencyKey : String)

theorem validatePersistencePayload_sampleWork :
    validatePersistencePayload (sampleWork sampleRoutingRequest factsHash facts evaluationId
      businessIdempotencyKey) = .ok () := by
  refine seq_eq_ok.mpr ⟨?_, seq_eq_ok.mpr ⟨?_, seq_eq_ok.mpr ⟨?_, seq_eq_ok.mpr ⟨?_, ?_⟩⟩⟩⟩
  · exact ensure_eq_ok.mpr (decide_eq_true rfl)
  · rw [ensure_eq_ok, Json.pyEq]
    simp [sampleWork, evaluationDraft, sampleDecision, Json.pyEqItems, RuleOutcome.pyEq_snapshot]
  · exact ensure_eq_ok.mpr (decide_eq_true rfl)
  · exact ensure_eq_ok.mpr (decide_eq_true rfl)
  · refine seq_eq_ok.mpr ⟨?_, rfl⟩
    simp [validateIntent, seq_eq_ok, sampleWork, evaluationDraft, sampleRoutingRequest,
      sampleIntent, PublicationAction.withRuleId, sampleRule, sampleRuleFields, sampleActionFields,
      RoutingActionRow.fields]

/-- The row of the evaluation. -/
def sampleEvaluationRow : RoutingEvaluationRecord where
  id := evaluationId
  routingRequestId := "request"
  messageId := 6
  routingPolicyVersionId := 1
  factsSnapshot := facts
  factsHash := factsHash
  ruleOutcomes := sampleDecision.outcomes.map (·.snapshot)
  stoppedAtRuleId := none

/-- The row of the intent. -/
def sampleIntentRow : PublicationIntentRecord where
  id := evaluationId + 1
  routingEvaluationId := evaluationId
  routingRequestId := "request"
  messageId := 6
  routingPolicyVersionId := 1
  routingRuleId := 2
  routingActionId := 3
  destinationChannelId := 4
  publishIdentityId := 5
  publicationMode := "forward_only"
  renderingTemplateVersionId := none
  businessIdempotencyKey := businessIdempotencyKey
  status := "pending"

theorem record_sampleWork :
    (sampleWork sampleRoutingRequest factsHash facts evaluationId
      businessIdempotencyKey).evaluation.record sampleUuid =
        .ok (sampleEvaluationRow factsHash facts evaluationId) := by
  simp only [RoutingEvaluationDraft.record, sampleWork, evaluationDraft, sampleRoutingRequest,
    UuidFormat.asUuid_text]
  rfl

theorem records_sampleWork :
    (sampleWork sampleRoutingRequest factsHash facts evaluationId
      businessIdempotencyKey).intents.mapM (·.record sampleUuid) =
        .ok [sampleIntentRow evaluationId businessIdempotencyKey] := by
  refine mapM_eq_ok.mpr (.cons ?_ .nil)
  simp only [PublicationIntentDraft.record, sampleIntent, UuidFormat.asUuid_text]
  rfl

theorem persistEvaluation_sampleWork (rows : List PublicationIntentRecord) :
    RoutingTables.persistEvaluation sampleUuid samplePolicyTables ⟨[], []⟩
      (sampleWork sampleRoutingRequest factsHash facts evaluationId businessIdempotencyKey) rows =
      .ok (⟨[sampleEvaluationRow factsHash facts evaluationId],
          [sampleIntentRow evaluationId businessIdempotencyKey]⟩,
        (sampleWork sampleRoutingRequest factsHash facts evaluationId
          businessIdempotencyKey).result true false) := by
  have hnew : checkIntents [] [sampleIntentRow evaluationId businessIdempotencyKey] = .ok () :=
    if_pos ⟨List.nodup_singleton _, List.nodup_singleton _, List.nodup_singleton _⟩
  refine seq_eq_ok.mpr ⟨validatePersistencePayload_sampleWork .., ?_⟩
  refine bind_eq_ok.mpr ⟨_, record_sampleWork .., seq_eq_ok.mpr ⟨rfl, ?_⟩⟩
  exact bind_eq_ok.mpr ⟨_, records_sampleWork .., seq_eq_ok.mpr ⟨hnew, rfl⟩⟩

theorem loadExecution_sampleRows : ∃ action : PublicationAction,
    action.publishIdentityId = some (sampleUuid.text 5) ∧
      loadExecution sampleUuid samplePolicyTables (sampleEvaluationRow factsHash facts evaluationId)
        [sampleIntentRow evaluationId businessIdempotencyKey] = .ok {
          evaluationId := sampleUuid.text evaluationId
          routingRequestId := "request"
          messageId := sampleUuid.text 6
          routingPolicyVersionId := sampleUuid.text 1
          factsSnapshot := facts
          factsHash := factsHash
          decision := { sampleDecision with actions := [action] }
          intents := [(sampleIntentRow evaluationId businessIdempotencyKey).draft sampleUuid]
          persisted := true } := by
  have hchecked : (sampleActionFields.withIdentity (sampleUuid.text 5)).postInit = .ok () :=
    PublicationActionFields.postInit_withIdentity postInit_sampleActionFields
      (sampleUuid.text_not_blank 5)
  have haction : (sampleIntentRow evaluationId businessIdempotencyKey).action sampleUuid =
      .ok ⟨_, hchecked⟩ := PublicationActionFields.create_eq_ok.mpr rfl
  refine ⟨⟨_, hchecked⟩, rfl, seq_eq_ok.mpr ⟨rfl, ?_⟩⟩
  refine bind_eq_ok.mpr ⟨sampleDecision.outcomes, ?_, ?_⟩
  · exact mapM_eq_ok.mpr (.cons (ruleOutcomeFromSnapshot_snapshot _) .nil)
  · exact bind_eq_ok.mpr ⟨_, mapM_eq_ok.mpr (.cons haction .nil), rfl⟩

end

theorem persistEvaluation_sampleRoutingWork :
    RoutingTables.persistEvaluation sampleUuid samplePolicyTables ⟨[], []⟩
      (sampleRoutingWork samplePolicy) [] =
      .ok (⟨[sampleEvaluationRow "hash" [("media", .obj [])] 7], [sampleIntentRow 7 "key"]⟩,
        (sampleRoutingWork samplePolicy).result true false) := by
  rw [sampleRoutingWork_samplePolicy]
  exact persistEvaluation_sampleWork ..

theorem loadExecution_persistEvaluation_sample : ∃ t evaluation reloaded,
    RoutingTables.evaluation? t "request" = some evaluation ∧
      loadExecution sampleUuid samplePolicyTables evaluation (t.intentsOf evaluation) =
        .ok reloaded ∧ reloaded.intents = [sampleIntent.canonical sampleUuid] := by
  obtain ⟨evaluation, hevaluation, h⟩ := loadExecution_persistEvaluation
    (fun row hrow => absurd hrow List.not_mem_nil) (buildPolicy_sample []) rfl
    persistEvaluation_sampleRoutingWork
  obtain ⟨reloaded, hload, -, hreloaded, -⟩ := h _ (List.Perm.refl _)
  exact ⟨_, evaluation, reloaded, hevaluation, hload,
    congrArg RoutingExecutionResult.intents hreloaded⟩

/-- The action has no identity of its own when the request is evaluated, and has one when the
evaluation is read back. -/
theorem reloaded_decision_ne : ∃ policy defaults t result evaluation reloaded,
    buildPolicy sampleUuid samplePolicyTables sampleSnapshotTables 1 = .ok (policy, defaults) ∧
      RoutingTables.persistEvaluation sampleUuid samplePolicyTables ⟨[], []⟩
        (sampleRoutingWork policy) [] = .ok (t, result) ∧
      t.evaluation? "request" = some evaluation ∧
      loadExecution sampleUuid samplePolicyTables evaluation (t.intentsOf evaluation) =
        .ok reloaded ∧
      reloaded.decision ≠ evaluateRouting policy [("media", .obj [])] := by
  obtain ⟨action, hidentity, hload⟩ :=
    loadExecution_sampleRows "hash" [("media", .obj [])] 7 "key"
  refine ⟨samplePolicy, _, ⟨[sampleEvaluationRow "hash" [("media", .obj [])] 7],
    [sampleIntentRow 7 "key"]⟩, _, _, _, buildPolicy_sample [],
    persistEvaluation_sampleRoutingWork, rfl, hload, fun heq => ?_⟩
  rw [evaluateRouting_samplePolicy evaluateCondition_sampleRule] at heq
  have haction := (List.cons.inj (congrArg RoutingDecision.actions heq)).1
  rw [haction] at hidentity
  cases hidentity

end TgCurator
