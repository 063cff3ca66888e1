import Mathlib.Data.List.Sort
import TgCurator.Routing.Dsl

/-!
# Routing policies

`domain/routing/models.py`. The checks of each `__post_init__` are a field of the
structure, so an action, a rule or a policy that exists has passed them.

`evaluateRouting` sorts the rules of a policy by descending priority and then by rule
id, and walks them with three accumulators until an enabled rule that matches asks to
stop. `evaluateRouting_spec` says what it returns without the walk: the outcomes of the
rules up to the first stopping one, the re-tagged actions of those that match, and the
id of the stopping rule. The sorted order is the only one (`sortedRules_eq_of_perm`), so
the order in which the policy lists its rules does not matter.
-/

namespace TgCurator

/-! ## Actions -/

/-- `PublicationMode`. -/
inductive PublicationMode
  | nativeForwardWithSupplement | copyWithCaption | forwardOnly | metadataOnly
  deriving DecidableEq

/-- `PublicationMode(value)`. -/
def PublicationMode.ofString? : String → Option PublicationMode
  | "native_forward_with_supplement" => some .nativeForwardWithSupplement
  | "copy_with_caption" => some .copyWithCaption
  | "forward_only" => some .forwardOnly
  | "metadata_only" => some .metadataOnly
  | _ => none

/-- The arguments of `PublicationAction`. -/
structure PublicationActionFields where
  actionId : String
  destinationChannelId : String
  publicationMode : String
  renderingTemplateVersionId : Option String := none
  publishIdentityId : Option String := none
  routingRuleId : Option String := none
  deriving DecidableEq

/-- `value is not None and not value.strip()`, as a check. -/
def ensureNotBlank (field : String) (value : Option String) : Except PyError Unit :=
  ensure (value.all (!isBlank ·)) "% must not be blank" [field]

/-- `PublicationAction.__post_init__`. -/
def PublicationActionFields.postInit (action : PublicationActionFields) : Except PyError Unit := do
  ensure (!isBlank action.actionId) "action_id must not be blank"
  ensure (!isBlank action.destinationChannelId) "destination_channel_id must not be blank"
  match PublicationMode.ofString? action.publicationMode with
  | none => ensure false "publication_mode is not supported"
  | some mode =>
    ensureNotBlank "rendering_template_version_id" action.renderingTemplateVersionId
    ensureNotBlank "publish_identity_id" action.publishIdentityId
    ensureNotBlank "routing_rule_id" action.routingRuleId
    if mode = .forwardOnly then
      ensure action.renderingTemplateVersionId.isNone
        "rendering_template_version_id must be omitted for forward_only"
    else
      ensure action.renderingTemplateVersionId.isSome
        "rendering_template_version_id is required for generated-text publication modes"

/-- A checked action. -/
structure PublicationAction extends PublicationActionFields where
  checked : toPublicationActionFields.postInit = .ok ()
  deriving DecidableEq

/-- The check of an action reads its `routing_rule_id` only to see that it is not
blank. -/
theorem PublicationActionFields.postInit_withRuleId {action : PublicationActionFields}
    (h : action.postInit = .ok ()) {ruleId : String} (hid : isBlank ruleId = false) :
    ({ action with routingRuleId := some ruleId } : PublicationActionFields).postInit = .ok () := by
  unfold postInit at h ⊢
  simp only [seq_eq_ok] at h ⊢
  obtain ⟨h1, h2, h3⟩ := h
  refine ⟨h1, h2, ?_⟩
  cases hm : PublicationMode.ofString? action.publicationMode with
  | none => simp [hm] at h3
  | some mode =>
    simp only [hm, seq_eq_ok] at h3 ⊢
    exact ⟨h3.1, h3.2.1, by simp [ensureNotBlank, hid], h3.2.2.2⟩

/-- `replace(action, routing_rule_id=rule_id)`. -/
def PublicationAction.withRuleId (action : PublicationAction) (ruleId : String)
    (h : isBlank ruleId = false) : PublicationAction where
  toPublicationActionFields := { action.toPublicationActionFields with routingRuleId := some ruleId }
  checked := PublicationActionFields.postInit_withRuleId action.checked h

/-! ## Rules and policies -/

/-- The arguments of `RoutingRule`. -/
structure RoutingRuleFields where
  ruleId : String
  priority : ℤ
  condition : Json
  actions : List PublicationAction
  stopOnMatch : Bool := false
  enabled : Bool := true

/-- `RoutingRule.__post_init__`. -/
def RoutingRuleFields.postInit (rule : RoutingRuleFields) : Except PyError Unit := do
  ensure (!isBlank rule.ruleId) "rule_id must not be blank"
  validateCondition rule.condition none
  ensure (decide (rule.actions.map (·.actionId)).Nodup)
    "a rule cannot contain duplicate action_id values"
  ensure (rule.actions.all fun action => action.routingRuleId.all (· = rule.ruleId))
    "action routing_rule_id must match its owning rule"

/-- A checked rule. -/
structure RoutingRule extends RoutingRuleFields where
  checked : toRoutingRuleFields.postInit = .ok ()

theorem RoutingRule.ruleId_not_blank (rule : RoutingRule) : isBlank rule.ruleId = false := by
  have h := (seq_eq_ok.mp rule.checked).1
  simpa using h

/-- `RoutingPolicy`, with what its `__post_init__` checks. -/
structure RoutingPolicy where
  policyVersionId : String
  rules : List RoutingRule
  policyVersionId_not_blank : isBlank policyVersionId = false
  ruleIds_nodup : (rules.map (·.ruleId)).Nodup

/-- `RuleOutcome`. -/
structure RuleOutcome where
  ruleId : String
  enabled : Bool
  checked : Bool
  evaluated : Bool
  matched : Bool
  stoppedAfterMatch : Bool
  deriving DecidableEq

/-- `RoutingDecision`. -/
structure RoutingDecision where
  policyVersionId : String
  outcomes : List RuleOutcome
  actions : List PublicationAction
  stoppedAtRuleId : Option String
  deriving DecidableEq

/-! ## Evaluation -/

/-- `(-item.priority, item.rule_id)` in order. -/
def RoutingRule.LE (r s : RoutingRule) : Prop :=
  s.priority < r.priority ∨ (r.priority = s.priority ∧ r.ruleId ≤ s.ruleId)

instance : DecidableRel RoutingRule.LE := fun r s =>
  inferInstanceAs (Decidable (s.priority < r.priority ∨ (r.priority = s.priority ∧ _)))

/-- `sorted(policy.rules, key=...)`. -/
def sortedRules (rules : List RoutingRule) : List RoutingRule :=
  rules.insertionSort RoutingRule.LE

/-- The actions of a rule, tagged with its id. -/
def RoutingRule.taggedActions (rule : RoutingRule) : List PublicationAction :=
  rule.actions.map fun action => action.withRuleId rule.ruleId rule.ruleId_not_blank

/-- The loop of `evaluate_routing` over the sorted rules, with the lists it extends. -/
def evaluateRules (policyVersionId : String) (facts : Facts) (outcomes : List RuleOutcome)
    (actions : List PublicationAction) : List RoutingRule → RoutingDecision
  | [] => ⟨policyVersionId, outcomes, actions, none⟩
  | rule :: rules =>
    if !rule.enabled then
      evaluateRules policyVersionId facts
        (outcomes ++ [⟨rule.ruleId, false, true, false, false, false⟩]) actions rules
    else
      let matched := evaluateCondition rule.condition facts
      let shouldStop := matched && rule.stopOnMatch
      let outcomes := outcomes ++ [⟨rule.ruleId, true, true, true, matched, shouldStop⟩]
      let actions := if matched then actions ++ rule.taggedActions else actions
      if shouldStop then ⟨policyVersionId, outcomes, actions, some rule.ruleId⟩
      else evaluateRules policyVersionId facts outcomes actions rules

/-- `evaluate_routing`. -/
def evaluateRouting (policy : RoutingPolicy) (facts : Facts) : RoutingDecision :=
  evaluateRules policy.policyVersionId facts [] [] (sortedRules policy.rules)

/-! ## The order of rules -/

theorem RoutingRule.LE_total (r s : RoutingRule) : r.LE s ∨ s.LE r := by
  unfold LE
  rcases lt_trichotomy r.priority s.priority with h | h | h
  · exact .inr (.inl h)
  · rcases le_total r.ruleId s.ruleId with h' | h'
    · exact .inl (.inr ⟨h, h'⟩)
    · exact .inr (.inr ⟨h.symm, h'⟩)
  · exact .inl (.inl h)

theorem RoutingRule.LE_trans {r s t : RoutingRule} (h : r.LE s) (h' : s.LE t) : r.LE t := by
  rcases h with h | ⟨h, hid⟩ <;> rcases h' with h' | ⟨h', hid'⟩
  · exact .inl (h'.trans h)
  · exact .inl (h' ▸ h)
  · exact .inl (h ▸ h')
  · exact .inr ⟨h.trans h', hid.trans hid'⟩

instance : Std.Total RoutingRule.LE := ⟨RoutingRule.LE_total⟩

instance : IsTrans RoutingRule RoutingRule.LE := ⟨fun _ _ _ => RoutingRule.LE_trans⟩

theorem sortedRules_perm (rules : List RoutingRule) : (sortedRules rules).Perm rules :=
  List.perm_insertionSort _ _

theorem sortedRules_pairwise (rules : List RoutingRule) :
    (sortedRules rules).Pairwise RoutingRule.LE :=
  List.pairwise_insertionSort _ _

/-- Rules with distinct ids have one sorted order. -/
theorem sortedRules_eq_of_perm {rules sorted : List RoutingRule}
    (hids : (rules.map (·.ruleId)).Nodup) (hperm : sorted.Perm rules)
    (hsorted : sorted.Pairwise RoutingRule.LE) : sortedRules rules = sorted := by
  refine List.Perm.eq_of_pairwise ?_ (sortedRules_pairwise rules) hsorted
    ((sortedRules_perm rules).trans hperm.symm)
  intro r s hr hs hrs hsr
  have hid : r.ruleId = s.ruleId := by
    rcases hrs with h | ⟨h, hid⟩ <;> rcases hsr with h' | ⟨h', hid'⟩
    · omega
    · omega
    · omega
    · exact le_antisymm hid hid'
  exact List.inj_on_of_nodup_map hids ((sortedRules_perm rules).mem_iff.mp hr)
    (hperm.mem_iff.mp hs) hid

/-! ## What an evaluation returns -/

/-- An enabled rule whose condition matches. -/
def RoutingRule.matchesFacts (facts : Facts) (rule : RoutingRule) : Bool :=
  rule.enabled && evaluateCondition rule.condition facts

/-- A rule the evaluation stops at. -/
def RoutingRule.stopsAt (facts : Facts) (rule : RoutingRule) : Bool :=
  rule.matchesFacts facts && rule.stopOnMatch

/-- The rules the evaluation visits: those up to the first stopping one, or all. -/
def visitedRules (facts : Facts) (sorted : List RoutingRule) : List RoutingRule :=
  sorted.takeWhile (fun rule => !rule.stopsAt facts) ++
    (sorted.find? (·.stopsAt facts)).toList

/-- The outcome of a visited rule. -/
def RoutingRule.outcome (facts : Facts) (rule : RoutingRule) : RuleOutcome where
  ruleId := rule.ruleId
  enabled := rule.enabled
  checked := true
  evaluated := rule.enabled
  matched := rule.matchesFacts facts
  stoppedAfterMatch := rule.stopsAt facts

theorem visitedRules_cons (facts : Facts) (rule : RoutingRule) (rules : List RoutingRule) :
    visitedRules facts (rule :: rules) =
      if rule.stopsAt facts then [rule] else rule :: visitedRules facts rules := by
  cases h : rule.stopsAt facts <;> simp [visitedRules, h]

/-- The loop returns what it has accumulated, followed by what the rules still to come
contribute. -/
theorem evaluateRules_eq (policyVersionId : String) (facts : Facts) (rules : List RoutingRule) :
    ∀ outcomes actions, evaluateRules policyVersionId facts outcomes actions rules =
      ⟨policyVersionId, outcomes ++ (visitedRules facts rules).map (·.outcome facts),
        actions ++ ((visitedRules facts rules).filter (·.matchesFacts facts)).flatMap
          (·.taggedActions),
        (rules.find? (·.stopsAt facts)).map (·.ruleId)⟩ := by
  induction rules with
  | nil => simp [evaluateRules, visitedRules]
  | cons rule rules ih =>
    intro outcomes actions
    rw [evaluateRules, visitedRules_cons, List.find?_cons]
    cases he : rule.enabled with
    | false =>
      have hstop : rule.stopsAt facts = false := by
        simp [RoutingRule.stopsAt, RoutingRule.matchesFacts, he]
      simp [ih, hstop, RoutingRule.outcome, RoutingRule.matchesFacts, he]
    | true =>
      have hmatch : rule.matchesFacts facts = evaluateCondition rule.condition facts := by
        simp [RoutingRule.matchesFacts, he]
      have hstop : rule.stopsAt facts =
          (evaluateCondition rule.condition facts && rule.stopOnMatch) := by
        rw [RoutingRule.stopsAt, hmatch]
      dsimp only
      rw [← hstop, ← hmatch]
      -- a rule that stops the walk has matched, so its actions are in
      cases hm : rule.matchesFacts facts with
      | false => simp [ih, RoutingRule.stopsAt, RoutingRule.outcome, hm, he]
      | true => cases hs : rule.stopsAt facts <;> simp [ih, RoutingRule.outcome, hm, he, hs]

/-- A routing decision, without the walk. On the one order of the rules by descending
priority and ascending id, the outcomes are those of the rules up to the first that
stops, the actions those of the rules among them that match, each tagged with the rule
it came from, and the decision names the stopping rule if there is one. Policies that
list the same rules in another order decide the same. -/
theorem evaluateRouting_spec (policy : RoutingPolicy) (facts : Facts) :
    (∃ sorted : List RoutingRule, sorted.Perm policy.rules ∧
      sorted.Pairwise (fun r s => s.priority < r.priority ∨
        (r.priority = s.priority ∧ r.ruleId < s.ruleId)) ∧
      evaluateRouting policy facts =
        { policyVersionId := policy.policyVersionId
          outcomes := (visitedRules facts sorted).map (·.outcome facts)
          actions := ((visitedRules facts sorted).filter (·.matchesFacts facts)).flatMap
            fun rule => rule.actions.map fun action =>
              action.withRuleId rule.ruleId rule.ruleId_not_blank
          stoppedAtRuleId := (sorted.find? (·.stopsAt facts)).map (·.ruleId) }) ∧
    ∀ policy' : RoutingPolicy, policy'.policyVersionId = policy.policyVersionId →
      policy'.rules.Perm policy.rules → evaluateRouting policy' facts = evaluateRouting policy facts := by
  refine ⟨⟨sortedRules policy.rules, sortedRules_perm _, ?_, ?_⟩, ?_⟩
  · have hids : (sortedRules policy.rules).Pairwise fun r s => r.ruleId ≠ s.ruleId := by
      rw [← List.pairwise_map]
      exact ((sortedRules_perm policy.rules).map _).nodup_iff.mpr policy.ruleIds_nodup
    refine ((sortedRules_pairwise policy.rules).and hids).imp fun {r s} h => ?_
    rcases h.1 with hlt | ⟨heq, hle⟩
    · exact .inl hlt
    · exact .inr ⟨heq, lt_of_le_of_ne hle h.2⟩
  · rw [evaluateRouting, evaluateRules_eq]
    rfl
  · intro policy' hversion hperm
    have hsorted : sortedRules policy'.rules = sortedRules policy.rules :=
      sortedRules_eq_of_perm policy'.ruleIds_nodup
        ((sortedRules_perm policy.rules).trans hperm.symm) (sortedRules_pairwise _)
    rw [evaluateRouting, hversion, hsorted, evaluateRouting]

end TgCurator
