import TgCurator.Shared

/-!
# The policy of the negative gate

`domain/analysis/negative_gate.py`: a policy blocks a message when some rule of it finds its label
with a score of at least its threshold. `evaluate` keeps the greatest score of each key, and the
score of a key that no fact has is taken as `0.0`. So it reports the rules that some fact meets
(`evaluate_meets_iff`), unless the policy has a rule with the threshold zero for a label that was
not supplied: that rule is reported as well (`label_not_supplied_blocks`).
-/

namespace TgCurator

/-! ## Facts, rules and policies -/

/-- `_validate_score`. -/
def validateGateScore (value : Number) (field : String) : Except PyError Unit :=
  match value with
  | .int n =>
    if floatOverflows n then .error .overflowError
    else ensure (inUnitInterval value) "% must be a finite number in [0, 1]" [field]
  | _ => ensure (inUnitInterval value) "% must be a finite number in [0, 1]" [field]

/-- The arguments of `LabelFact`. -/
structure LabelFactFields where
  key : String
  score : Number
  deriving DecidableEq

/-- `LabelFact.__post_init__`. -/
def LabelFactFields.postInit (fact : LabelFactFields) : Except PyError Unit := do
  ensure (!isBlank fact.key) "label key must not be blank"
  validateGateScore fact.score "label score"

/-- `LabelFact`. -/
structure LabelFact extends LabelFactFields where
  checked : toLabelFactFields.postInit = .ok ()
  deriving DecidableEq

/-- The arguments of `NegativeLabelRule`. -/
structure NegativeLabelRuleFields where
  labelKey : String
  minimumScore : Number
  deriving DecidableEq

/-- `NegativeLabelRule.__post_init__`. -/
def NegativeLabelRuleFields.postInit (rule : NegativeLabelRuleFields) : Except PyError Unit := do
  ensure (!isBlank rule.labelKey) "negative label key must not be blank"
  validateGateScore rule.minimumScore "negative label threshold"

/-- `NegativeLabelRule`. -/
structure NegativeLabelRule extends NegativeLabelRuleFields where
  checked : toNegativeLabelRuleFields.postInit = .ok ()
  deriving DecidableEq

/-- The arguments of `NegativeGatePolicy`. -/
structure NegativeGatePolicyFields where
  policyVersionId : String
  rules : List NegativeLabelRule

/-- `NegativeGatePolicy.__post_init__`. -/
def NegativeGatePolicyFields.postInit (policy : NegativeGatePolicyFields) :
    Except PyError Unit := do
  ensure (!isBlank policy.policyVersionId) "policy_version_id must not be blank"
  ensure (decide (policy.rules.map (·.labelKey)).Nodup)
    "a negative gate policy cannot repeat a label key"

/-- `NegativeGatePolicy`. -/
structure NegativeGatePolicy extends NegativeGatePolicyFields where
  checked : toNegativeGatePolicyFields.postInit = .ok ()

/-- `NegativeGateDecision`. -/
structure NegativeGateDecision where
  blocked : Bool
  matchedRules : List NegativeLabelRule

/-- `blocked_by_label_keys`. -/
def NegativeGateDecision.blockedByLabelKeys (decision : NegativeGateDecision) : List String :=
  decision.matchedRules.map (·.labelKey)

/-! ## Evaluation -/

/-- `max(a, b)`. -/
def maxScore (a b : Number) : Number :=
  if a.lt b then b else a

/-- `highest_scores.get(key, 0.0)`. -/
def highestScore (scores : Dict String Number) (key : String) : Number :=
  (scores.lookup key).getD (.float 0)

/-- One turn of the loop over the facts. -/
def recordFact (scores : Dict String Number) (fact : LabelFact) : Dict String Number :=
  scores.set fact.key (maxScore (highestScore scores fact.key) fact.score)

/-- `evaluate`. -/
def NegativeGatePolicy.evaluate (policy : NegativeGatePolicy) (facts : List LabelFact) :
    NegativeGateDecision :=
  let highestScores := facts.foldl recordFact []
  let matched := policy.rules.filter fun rule =>
    rule.minimumScore.le (highestScore highestScores rule.labelKey)
  { blocked := !matched.isEmpty, matchedRules := matched }

/-! ## Scores -/

theorem inUnitInterval_of_validateGateScore {value : Number} {field : String}
    (h : validateGateScore value field = .ok ()) : inUnitInterval value = true := by
  unfold validateGateScore at h
  split at h
  · split_ifs at h
    exact ensure_eq_ok.mp h
  · exact ensure_eq_ok.mp h

theorem isFinite_of_inUnitInterval {value : Number} (h : inUnitInterval value = true) :
    value.isFinite = true ∧ 0 ≤ value.toRat := by
  cases value with
  | int n | float x =>
    rw [inUnitInterval, Bool.and_eq_true, Number.le_iff rfl rfl] at h
    exact ⟨rfl, h.1⟩
  | infinity | negInfinity | nan => exact absurd h (by decide)

theorem LabelFact.isFinite_score (fact : LabelFact) :
    fact.score.isFinite = true ∧ 0 ≤ fact.score.toRat :=
  isFinite_of_inUnitInterval (inUnitInterval_of_validateGateScore (seq_eq_ok.mp fact.checked).2)

theorem NegativeLabelRule.isFinite_minimumScore (rule : NegativeLabelRule) :
    rule.minimumScore.isFinite = true ∧ 0 ≤ rule.minimumScore.toRat :=
  isFinite_of_inUnitInterval (inUnitInterval_of_validateGateScore (seq_eq_ok.mp rule.checked).2)

theorem isFinite_maxScore {a b : Number} (ha : a.isFinite = true) (hb : b.isFinite = true) :
    (maxScore a b).isFinite = true := by
  unfold maxScore
  split_ifs
  · exact hb
  · exact ha

theorem le_maxScore_iff {threshold a b : Number} (ht : threshold.isFinite = true)
    (ha : a.isFinite = true) (hb : b.isFinite = true) :
    threshold.le (maxScore a b) = true ↔ threshold.le a = true ∨ threshold.le b = true := by
  rw [Number.le_iff ht (isFinite_maxScore ha hb), Number.le_iff ht ha, Number.le_iff ht hb]
  unfold maxScore
  split_ifs with h
  · rw [Number.lt_iff ha hb] at h
    exact ⟨.inr, fun h' => h'.elim (fun h' => h'.trans h.le) id⟩
  · rw [Number.lt_iff ha hb, not_lt] at h
    exact ⟨.inl, fun h' => h'.elim id fun h' => h'.trans h⟩

/-! ## The greatest scores -/

theorem highestScore_recordFact (scores : Dict String Number) (fact : LabelFact) (key : String) :
    highestScore (recordFact scores fact) key =
      if fact.key = key then maxScore (highestScore scores key) fact.score
      else highestScore scores key := by
  unfold recordFact
  split_ifs with h
  · subst h
    rw [highestScore, Dict.lookup_set_self, Option.getD_some]
  · rw [highestScore, Dict.lookup_set_of_ne (Ne.symm h), highestScore]

/-- The greatest score of a key reaches a threshold exactly if it did before, or that of some fact
with the key does. -/
theorem le_highestScore_foldl_iff {threshold : Number} (ht : threshold.isFinite = true)
    (facts : List LabelFact) {scores : Dict String Number} {key : String}
    (hscores : (highestScore scores key).isFinite = true) :
    threshold.le (highestScore (facts.foldl recordFact scores) key) = true ↔
      threshold.le (highestScore scores key) = true ∨
        ∃ fact ∈ facts, fact.key = key ∧ threshold.le fact.score = true := by
  induction facts generalizing scores with
  | nil => simp
  | cons fact facts ih =>
    have hfact := fact.isFinite_score.1
    have hstep : (highestScore (recordFact scores fact) key).isFinite = true := by
      rw [highestScore_recordFact]
      split_ifs
      · exact isFinite_maxScore hscores hfact
      · exact hscores
    rw [List.foldl_cons, ih hstep, highestScore_recordFact]
    split_ifs with hkey
    · rw [le_maxScore_iff ht hscores hfact, or_assoc]
      simp [hkey]
    · simp [hkey]

variable {policy : NegativeGatePolicy} {facts facts' : List LabelFact} {rule : NegativeLabelRule}

/-- A rule is matched when some fact meets it, or its threshold is zero. -/
theorem mem_matchedRules_iff : rule ∈ (policy.evaluate facts).matchedRules ↔
    rule ∈ policy.rules ∧ (rule.minimumScore.toRat = 0 ∨
      ∃ fact ∈ facts, fact.key = rule.labelKey ∧ rule.minimumScore.le fact.score = true) := by
  obtain ⟨hfinite, hnonneg⟩ := rule.isFinite_minimumScore
  have hzero : rule.minimumScore.le (highestScore [] rule.labelKey) = true ↔
      rule.minimumScore.toRat = 0 := by
    rw [Number.le_iff hfinite rfl]
    exact ⟨fun h => le_antisymm h hnonneg, fun h => h.le⟩
  rw [NegativeGatePolicy.evaluate, List.mem_filter, le_highestScore_foldl_iff hfinite facts rfl,
    hzero]

/-- The outcome does not depend on the order of the facts. -/
theorem evaluate_perm (h : facts.Perm facts') : policy.evaluate facts = policy.evaluate facts' := by
  have hmatched : ∀ rule ∈ policy.rules,
      rule.minimumScore.le (highestScore (facts.foldl recordFact []) rule.labelKey) =
        rule.minimumScore.le (highestScore (facts'.foldl recordFact []) rule.labelKey) := by
    intro rule _
    have hfinite := rule.isFinite_minimumScore.1
    rw [Bool.eq_iff_iff, le_highestScore_foldl_iff hfinite facts rfl,
      le_highestScore_foldl_iff hfinite facts' rfl]
    simp only [h.mem_iff]
  rw [NegativeGatePolicy.evaluate, NegativeGatePolicy.evaluate,
    List.filter_congr hmatched]

/-! ## Rules that facts meet -/

/-- What a policy is to report of some facts. -/
structure Meets (policy : NegativeGatePolicy) (facts : List LabelFact) : Prop where
  matched : ∀ rule ∈ policy.rules, rule ∈ (policy.evaluate facts).matchedRules ↔
    ∃ fact ∈ facts, fact.key = rule.labelKey ∧ rule.minimumScore.le fact.score = true
  blocked : (policy.evaluate facts).blocked = true ↔ ∃ rule ∈ policy.rules, ∃ fact ∈ facts,
    fact.key = rule.labelKey ∧ rule.minimumScore.le fact.score = true
  unordered : ∀ facts', facts'.Perm facts → policy.evaluate facts' = policy.evaluate facts
  supplied : ∀ key ∈ (policy.evaluate facts).blockedByLabelKeys, ∃ fact ∈ facts, fact.key = key

/-- The policy reports the rules that facts meet, exactly if every rule with the threshold zero is
about a label that was supplied. -/
theorem evaluate_meets_iff : Meets policy facts ↔
    ∀ rule ∈ policy.rules, rule.minimumScore.toRat = 0 →
      ∃ fact ∈ facts, fact.key = rule.labelKey := by
  constructor
  · intro h rule hrule hzero
    obtain ⟨fact, hfact, hkey, -⟩ :=
      (h.matched rule hrule).mp (mem_matchedRules_iff.mpr ⟨hrule, .inl hzero⟩)
    exact ⟨fact, hfact, hkey⟩
  · intro h
    have hmatched : ∀ rule, rule ∈ (policy.evaluate facts).matchedRules ↔ rule ∈ policy.rules ∧
        ∃ fact ∈ facts, fact.key = rule.labelKey ∧ rule.minimumScore.le fact.score = true := by
      intro rule
      rw [mem_matchedRules_iff]
      refine and_congr_right fun hrule => ⟨fun hmeets => ?_, .inr⟩
      rcases hmeets with hzero | hmeets
      · obtain ⟨fact, hfact, hkey⟩ := h rule hrule hzero
        refine ⟨fact, hfact, hkey, ?_⟩
        rw [Number.le_iff rule.isFinite_minimumScore.1 fact.isFinite_score.1, hzero]
        exact fact.isFinite_score.2
      · exact hmeets
    refine ⟨fun rule hrule => by rw [hmatched, and_iff_right hrule], ?_,
      fun facts' hperm => evaluate_perm hperm, ?_⟩
    · have hblocked : (policy.evaluate facts).blocked = true ↔
          ∃ rule, rule ∈ (policy.evaluate facts).matchedRules := by
        rw [← List.isEmpty_eq_false_iff_exists_mem, NegativeGatePolicy.evaluate]
        simp
      rw [hblocked]
      exact exists_congr hmatched
    · intro key hkey
      obtain ⟨rule, hrule, rfl⟩ := List.mem_map.mp hkey
      obtain ⟨-, fact, hfact, hkey', -⟩ := (hmatched rule).mp hrule
      exact ⟨fact, hfact, hkey'⟩

/-! ## A threshold of zero -/

theorem postInit_zero : (⟨"effective.global.advertisement", .float 0⟩ :
    NegativeLabelRuleFields).postInit = .ok () := by
  decide +kernel

theorem postInit_zeroPolicy : (⟨"negative-policy-v1", [⟨_, postInit_zero⟩]⟩ :
    NegativeGatePolicyFields).postInit = .ok () := by
  decide +kernel

/-- A policy with the threshold zero. -/
def zeroPolicy : NegativeGatePolicy :=
  ⟨_, postInit_zeroPolicy⟩

/-- The policy blocks a message without labels. -/
theorem label_not_supplied_blocks :
    ¬ ∀ (policy : NegativeGatePolicy) (facts : List LabelFact), Meets policy facts := by
  intro h
  have hkey : "effective.global.advertisement" ∈ (zeroPolicy.evaluate []).blockedByLabelKeys := by
    decide +kernel
  obtain ⟨fact, hfact, -⟩ := (h zeroPolicy []).supplied _ hkey
  cases hfact

end TgCurator
