import TgCurator.Output.Validator

/-!
# One result item

What `_validate_result_item` does with an item. Its scores are all right (`scoresOk`), or the
first fault in their order is an integer too large for a float, which raises
(`scoresOverflow`), or there is an issue (`scores_cases`). An item has a result exactly when its
fields, scores, reason and evidence are all right (`itemOk`); otherwise it has an issue that
names its target, or raises (`item_cases`).

`resolveScores_eq`: the labels of scores, in the output order of the label set.
-/

namespace TgCurator.Output

variable {labelSet : LabelSetVersion} {policy : StructuredOutputPolicy} {key : String}

/-! ## Labels of scores -/

/-- The resolved label of a score. -/
def LabelBinding.resolve (binding : LabelBinding) (score : Number) : ResolvedLabel where
  labelDefinitionVersionId := binding.label.versionId
  key := binding.label.key
  scope := binding.label.scope
  score := score
  activated := binding.activationThreshold.le score
  negative := binding.label.negative

/-- A float in `[0, 1]`. -/
def IsFloatScore (score : Number) : Prop :=
  inUnitInterval score = true ∧ score.isInt = false

/-- Scores of labels of the set. -/
structure GoodScores (labelSet : LabelSetVersion) (scores : Dict String Number) : Prop where
  known : ∀ key ∈ scores.keys, key ∈ labelSet.labelKeys
  score : ∀ e ∈ scores, IsFloatScore e.2

namespace LabelSetVersion

/-- The labels of scores, in output order. -/
def labelsOf (labelSet : LabelSetVersion) (scores : Dict String Number) : List ResolvedLabel :=
  labelSet.orderedBindings.filterMap fun binding =>
    (scores.lookup binding.label.key).map binding.resolve

theorem orderedBindings_perm (labelSet : LabelSetVersion) :
    labelSet.orderedBindings.Perm labelSet.bindings :=
  List.perm_insertionSort _ _

theorem lookup_bindingByKey {binding : LabelBinding} (h : binding ∈ labelSet.bindings) :
    labelSet.bindingByKey.lookup binding.label.key = some binding := by
  have hkeys : Dict.keys (labelSet.bindings.map fun binding => (binding.label.key, binding)) =
      labelSet.bindings.map fun binding => binding.label.key := by
    rw [Dict.keys, List.map_map]
    rfl
  have hnodup := labelSet.keys_nodup
  rw [← hkeys] at hnodup
  rw [bindingByKey, Dict.ofList_eq_self hnodup]
  exact Dict.lookup_of_mem hnodup (List.mem_map_of_mem h)

theorem resolveScore_eq {binding : LabelBinding} (h : binding ∈ labelSet.bindings)
    {score : Number} (hscore : IsFloatScore score) :
    labelSet.resolveScore binding.label.key score = .ok (binding.resolve score) := by
  have hunit : isScore (.num score) = true := hscore.1
  have hvalid := validateScore_of_isScore hunit ("score for " ++ binding.label.key)
  have hfloat : scoreOf (.num score) = score := by
    cases score with
    | int n => cases hscore.2
    | _ => rfl
  rw [hfloat] at hvalid
  rw [resolveScore, lookup_bindingByKey h]
  dsimp only
  rw [hvalid]
  rfl

/-- `resolve_scores` on scores of labels of the set. -/
theorem resolveScores_eq {scores : Dict String Number} (h : GoodScores labelSet scores) :
    labelSet.resolveScores scores = .ok (labelSet.labelsOf scores) := by
  have hnone : scores.keys.filter (· ∉ labelSet.labelKeys) = [] :=
    List.filter_eq_nil_iff.mpr fun key hkey => by simpa using h.known key hkey
  have hresolve : ∀ l : List LabelBinding, (∀ binding ∈ l, binding ∈ labelSet.bindings) →
      ((l.filterMap fun binding => (scores.lookup binding.label.key).map fun score =>
        (binding.label.key, score)).mapM fun found => labelSet.resolveScore found.1 found.2) =
      .ok (l.filterMap fun binding => (scores.lookup binding.label.key).map binding.resolve) := by
    intro l
    induction l with
    | nil => exact fun _ => rfl
    | cons binding l ih =>
      intro hl
      rw [List.forall_mem_cons] at hl
      rw [List.filterMap_cons, List.filterMap_cons]
      cases hscore : scores.lookup binding.label.key with
      | none => exact ih hl.2
      | some score =>
        dsimp only [Option.map_some]
        rw [List.mapM_cons, resolveScore_eq hl.1 (h.score _ (Dict.mem_of_lookup hscore)), ih hl.2]
        rfl
  unfold resolveScores
  rw [hnone, labelKeys, List.filterMap_map]
  exact hresolve _ fun binding hb => labelSet.orderedBindings_perm.mem_iff.mp hb

instance : Std.Total OrderedLE where
  total a b := by
    rcases lt_trichotomy a.outputOrder b.outputOrder with h | h | h
    · exact .inl (.inl h)
    · exact (le_total a.label.key b.label.key).imp (fun hkey => .inr ⟨h, hkey⟩)
        fun hkey => .inr ⟨h.symm, hkey⟩
    · exact .inr (.inl h)

instance : IsTrans LabelBinding OrderedLE where
  trans a b c := by
    rintro (hab | ⟨hab, hkey⟩) (hbc | ⟨hbc, hkey'⟩)
    · exact .inl (hab.trans hbc)
    · exact .inl (hbc ▸ hab)
    · exact .inl (hab ▸ hbc)
    · exact .inr ⟨hab.trans hbc, hkey.trans hkey'⟩

theorem orderedBindings_pairwise (labelSet : LabelSetVersion) :
    labelSet.orderedBindings.Pairwise fun a b => a.outputOrder < b.outputOrder := by
  have hsorted : labelSet.orderedBindings.Pairwise OrderedLE :=
    List.pairwise_insertionSort OrderedLE labelSet.bindings
  have hnodup : (labelSet.orderedBindings.map (·.outputOrder)).Nodup :=
    ((labelSet.orderedBindings_perm.map _).nodup_iff).mpr labelSet.orders_nodup
  refine (hsorted.and (List.pairwise_map.mp hnodup)).imp ?_
  rintro a b ⟨hle | ⟨heq, -⟩, hne⟩
  · exact hle
  · exact absurd heq hne

/-- The labels of scores come from bindings in output order. -/
theorem bindings_of_labelsOf (labelSet : LabelSetVersion) (scores : Dict String Number) :
    ∃ bindings : List LabelBinding, bindings ⊆ labelSet.bindings ∧
      bindings.Pairwise (fun a b => a.outputOrder < b.outputOrder) ∧
      List.Forall₂ (fun binding label => label.key = binding.label.key ∧
        label.activated = binding.activationThreshold.le label.score) bindings
        (labelSet.labelsOf scores) := by
  have hsublist : ∀ l : List LabelBinding, ∃ bindings : List LabelBinding,
      bindings.Sublist l ∧ List.Forall₂ (fun binding label => label.key = binding.label.key ∧
        label.activated = binding.activationThreshold.le label.score) bindings
        (l.filterMap fun binding => (scores.lookup binding.label.key).map binding.resolve) := by
    intro l
    induction l with
    | nil => exact ⟨[], .slnil, .nil⟩
    | cons binding l ih =>
      obtain ⟨bindings, hsub, hlabels⟩ := ih
      rw [List.filterMap_cons]
      cases scores.lookup binding.label.key with
      | none => exact ⟨bindings, hsub.cons _, hlabels⟩
      | some score => exact ⟨binding :: bindings, hsub.cons_cons _, .cons ⟨rfl, rfl⟩ hlabels⟩
  obtain ⟨bindings, hsub, hlabels⟩ := hsublist labelSet.orderedBindings
  refine ⟨bindings, fun binding hbinding => ?_, ?_, hlabels⟩
  · exact labelSet.orderedBindings_perm.mem_iff.mp (hsub.subset hbinding)
  · exact labelSet.orderedBindings_pairwise.sublist hsub

end LabelSetVersion

theorem isFloatScore_scoreOf {value : Json} (h : isScore value = true) :
    IsFloatScore (scoreOf value) := by
  cases value with
  | num n =>
    cases n with
    | int n => exact ⟨h, rfl⟩
    | _ => exact ⟨h, rfl⟩
  | _ => cases h

/-! ## Scores of an item -/

/-- The scores of the dense form are all right. -/
def denseOk (labelSet : LabelSetVersion) (scores : Json) : Bool :=
  match scores with
  | .obj entries =>
    hasExactly entries labelSet.labelKeys &&
      labelSet.labelKeys.all fun key => isScore (getD entries key)
  | _ => false

/-- The first fault of the scores, in output order, is an integer too large for a float. -/
def denseOverflows (labelSet : LabelSetVersion) (scores : Json) : Bool :=
  match scores with
  | .obj entries =>
    hasExactly entries labelSet.labelKeys &&
      (labelSet.labelKeys.find? fun key => !isScore (getD entries key)).any fun key =>
        isOverflowing (getD entries key)
  | _ => false

/-- The label and the score of a match of a further label of the set. -/
def matchOf? (labelSet : LabelSetVersion) (seen : List String) (found : Json) :
    Option (String × Json) :=
  match found with
  | .obj entries =>
    if hasExactly entries ["label_key", "score"] then
      match getD entries "label_key" with
      | .str key =>
        if key ∈ labelSet.labelKeys ∧ key ∉ seen then some (key, getD entries "score") else none
      | _ => none
    else none
  | _ => none

/-- Matches are all right, after those of the labels seen. -/
def sparseOk (labelSet : LabelSetVersion) : List Json → List String → Bool
  | [], _ => true
  | found :: rest, seen =>
    match matchOf? labelSet seen found with
    | some (key, score) => isScore score && sparseOk labelSet rest (seen ++ [key])
    | none => false

/-- The first fault of matches is a score that is an integer too large for a float. -/
def sparseOverflows (labelSet : LabelSetVersion) : List Json → List String → Bool
  | [], _ => false
  | found :: rest, seen =>
    match matchOf? labelSet seen found with
    | some (key, score) =>
      if isScore score then sparseOverflows labelSet rest (seen ++ [key]) else isOverflowing score
    | none => false

/-- The scores of an item are all right. -/
def scoresOk (policy : StructuredOutputPolicy) (labelSet : LabelSetVersion)
    (item : List (String × Json)) : Bool :=
  match policy.mode with
  | .denseScores => denseOk labelSet (getD item "scores")
  | .sparseMatches =>
    match getD item "matches" with
    | .arr found => sparseOk labelSet found []
    | _ => false

/-- The first fault of the scores of an item is an integer too large for a float. -/
def scoresOverflow (policy : StructuredOutputPolicy) (labelSet : LabelSetVersion)
    (item : List (String × Json)) : Bool :=
  match policy.mode with
  | .denseScores => denseOverflows labelSet (getD item "scores")
  | .sparseMatches =>
    match getD item "matches" with
    | .arr found => sparseOverflows labelSet found []
    | _ => false

/-- What becomes of scores: they are good, there is an issue, or an integer is too large. -/
inductive ScoresOutcome (labelSet : LabelSetVersion) :
    Bool → Bool → Except PyError (Except String (Dict String Number)) → Prop
  | good {scores : Dict String Number} (h : GoodScores labelSet scores) :
      ScoresOutcome labelSet true false (.ok (.ok scores))
  | issue (errorType : String) : ScoresOutcome labelSet false false (.ok (.error errorType))
  | overflow : ScoresOutcome labelSet false true (.error .overflowError)

/-- The scores of keys, in order. -/
theorem mapM_validateScore (f : String → Json) (keys : List String) :
    (keys.mapM fun key => do return (key, ← validateScore (f key) ("score for " ++ key))) =
      match keys.find? fun key => !isScore (f key) with
      | none => .ok (keys.map fun key => (key, scoreOf (f key)))
      | some key => if isOverflowing (f key) then .error .overflowError
        else .error (.domainValidation "% must be a finite number in [0, 1]" ["score for " ++ key]) := by
  induction keys with
  | nil => rfl
  | cons key keys ih =>
    rw [List.mapM_cons]
    cases hscore : isScore (f key) with
    | true =>
      rw [List.find?_cons_of_neg (by simp [hscore]), validateScore_of_isScore hscore, ih]
      cases keys.find? fun key => !isScore (f key) with
      | none => rfl
      | some key' =>
        dsimp only
        cases isOverflowing (f key') <;> rfl
    | false =>
      rw [List.find?_cons_of_pos (by simp [hscore]), validateScore_of_not_isScore hscore]
      dsimp only
      cases isOverflowing (f key) <;> rfl

theorem dense_cases (labelSet : LabelSetVersion) (scores : Json) :
    ScoresOutcome labelSet (denseOk labelSet scores) (denseOverflows labelSet scores)
      (catchScores (denseScores labelSet scores)) := by
  cases scores with
  | obj entries =>
    rw [denseOk, denseOverflows, denseScores]
    cases hexact : hasExactly entries labelSet.labelKeys with
    | false => exact .issue _
    | true =>
      rw [if_pos rfl, mapM_validateScore (getD entries)]
      cases hfind : labelSet.labelKeys.find? fun key => !isScore (getD entries key) with
      | none =>
        have hall : ∀ key ∈ labelSet.labelKeys, isScore (getD entries key) = true := by
          simpa using hfind
        rw [List.all_eq_true.mpr hall]
        refine .good ⟨fun key hkey => ?_, fun e he => ?_⟩
        · simpa [Dict.keys] using hkey
        · obtain ⟨key, hkey, rfl⟩ := List.mem_map.mp he
          exact isFloatScore_scoreOf (hall key hkey)
      | some key =>
        have hkey : isScore (getD entries key) = false := by simpa using List.find?_some hfind
        have hmem := List.mem_of_find?_eq_some hfind
        have hall : (labelSet.labelKeys.all fun key => isScore (getD entries key)) = false :=
          List.all_eq_false.mpr ⟨key, hmem, by simp [hkey]⟩
        rw [hall, Option.any_some]
        dsimp only
        cases isOverflowing (getD entries key) with
        | true => exact .overflow
        | false => exact .issue _
  | _ => exact .issue _

theorem sparse_cases (labelSet : LabelSetVersion) (found : List Json)
    {normalized : Dict String Number} (h : GoodScores labelSet normalized) :
    ScoresOutcome labelSet (sparseOk labelSet found normalized.keys)
      (sparseOverflows labelSet found normalized.keys)
      (catchScores (sparseScores labelSet found normalized)) := by
  induction found generalizing normalized with
  | nil => exact .good h
  | cons m rest ih =>
    cases m with
    | obj entries =>
      rw [sparseOk, sparseOverflows, sparseScores, matchOf?]
      cases hexact : hasExactly entries ["label_key", "score"] with
      | false => exact .issue _
      | true =>
        rw [if_pos rfl, if_pos rfl]
        cases hlabel : getD entries "label_key" with
        | str key =>
          dsimp only
          by_cases hknown : key ∈ labelSet.labelKeys
          · by_cases hseen : key ∈ normalized.keys
            · rw [if_neg (by simp [hseen]), if_neg (not_not.mpr hknown), if_pos hseen]
              exact .issue _
            · rw [if_pos ⟨hknown, hseen⟩, if_neg (not_not.mpr hknown), if_neg hseen]
              dsimp only
              cases hscore : isScore (getD entries "score") with
              | true =>
                rw [validateScore_of_isScore hscore, Bool.true_and, if_pos rfl]
                have hkeys : (normalized.set key (scoreOf (getD entries "score"))).keys =
                    normalized.keys ++ [key] := by
                  rw [Dict.set_of_notMem hseen, Dict.keys, List.map_append]
                  rfl
                rw [← hkeys]
                refine ih ⟨fun key' hkey' => ?_, fun e he => ?_⟩
                · rcases Dict.mem_keys_set.mp hkey' with rfl | hkey'
                  · exact hknown
                  · exact h.known key' hkey'
                · rcases Dict.mem_set he with rfl | he
                  · exact isFloatScore_scoreOf hscore
                  · exact h.score e he
              | false =>
                rw [validateScore_of_not_isScore hscore, Bool.false_and, if_neg (by simp)]
                cases isOverflowing (getD entries "score") with
                | true => exact .overflow
                | false => exact .issue _
          · rw [if_neg (by simp [hknown]), if_pos hknown]
            exact .issue _
        | _ => exact .issue _
    | _ => exact .issue _

theorem scores_cases (policy : StructuredOutputPolicy) (labelSet : LabelSetVersion)
    (item : List (String × Json)) :
    ScoresOutcome labelSet (scoresOk policy labelSet item) (scoresOverflow policy labelSet item)
      (catchScores (itemScores policy labelSet item)) := by
  unfold scoresOk scoresOverflow itemScores
  cases policy.mode with
  | denseScores => exact dense_cases labelSet _
  | sparseMatches =>
    cases getD item "matches" with
    | arr found =>
      have hempty : GoodScores labelSet [] := ⟨(fun _ h => nomatch h), fun _ h => nomatch h⟩
      exact sparse_cases labelSet found hempty
    | _ => exact .issue _

/-! ## Items -/

/-- The evidence of an item, by default none. -/
def evidenceOf (item : List (String × Json)) : Json :=
  (item.lookup "evidence").getD (.arr [])

/-- The fields, scores, reason and evidence of an item are all right. -/
def itemOk (targetField : Option String) (policy : StructuredOutputPolicy)
    (labelSet : LabelSetVersion) (item : List (String × Json)) : Bool :=
  hasExactly item (expectedFields targetField policy) && scoresOk policy labelSet item &&
    (!policy.includeReason || isString (getD item "reason")) &&
    (!policy.includeEvidence || isStringArray (evidenceOf item))

/-- The fields of an item are right, and the first fault of its scores is an integer too large
for a float. -/
def itemOverflows (targetField : Option String) (policy : StructuredOutputPolicy)
    (labelSet : LabelSetVersion) (item : List (String × Json)) : Bool :=
  hasExactly item (expectedFields targetField policy) && scoresOverflow policy labelSet item

/-- What becomes of an item. -/
inductive ItemOutcome (labelSet : LabelSetVersion) (targetId : String) :
    Bool → Bool → Except PyError (Except ValidationIssue ValidatedTargetResult) → Prop
  | result {r : ValidatedTargetResult} (htarget : r.targetId = targetId)
      {scores : Dict String Number} (hscores : GoodScores labelSet scores)
      (hlabels : r.labels = labelSet.labelsOf scores) :
      ItemOutcome labelSet targetId true false (.ok (.ok r))
  | issue {i : ValidationIssue} (htarget : i.targetId = some targetId) :
      ItemOutcome labelSet targetId false false (.ok (.error i))
  | overflow : ItemOutcome labelSet targetId false true (.error .overflowError)

theorem item_cases (item : List (String × Json)) (targetId : String) (targetField : Option String)
    (policy : StructuredOutputPolicy) (labelSet : LabelSetVersion) :
    ItemOutcome labelSet targetId (itemOk targetField policy labelSet item)
      (itemOverflows targetField policy labelSet item)
      (validateResultItem item targetId targetField policy labelSet) := by
  unfold itemOk itemOverflows validateResultItem
  cases hasExactly item (expectedFields targetField policy) with
  | false => exact .issue rfl
  | true =>
    rw [if_pos rfl, Bool.true_and, Bool.true_and]
    have hscores := scores_cases policy labelSet item
    generalize scoresOk policy labelSet item = ok at hscores ⊢
    generalize scoresOverflow policy labelSet item = overflow at hscores ⊢
    generalize catchScores (itemScores policy labelSet item) = outcome at hscores ⊢
    cases hscores with
    | issue errorType => exact .issue rfl
    | overflow => exact .overflow
    | @good scores hgood =>
      change ItemOutcome labelSet targetId _ _ (if _ then _ else if _ then _ else _)
      by_cases hreason : (policy.includeReason && !isString (getD item "reason")) = true
      · rw [if_pos hreason]
        rw [Bool.and_eq_true, Bool.not_eq_true'] at hreason
        rw [hreason.1, hreason.2]
        exact .issue rfl
      · rw [if_neg hreason]
        by_cases hevidence : (policy.includeEvidence && !isStringArray (evidenceOf item)) = true
        · rw [evidenceOf] at hevidence
          rw [if_pos hevidence]
          rw [Bool.and_eq_true, Bool.not_eq_true'] at hevidence
          rw [evidenceOf, hevidence.1, hevidence.2, Bool.not_true, Bool.false_or, Bool.and_false]
          exact .issue rfl
        · have hreason' : (!policy.includeReason || isString (getD item "reason")) = true := by
            revert hreason
            cases policy.includeReason <;> cases isString (getD item "reason") <;> simp
          have hevidence' : (!policy.includeEvidence || isStringArray (evidenceOf item)) = true := by
            revert hevidence
            cases policy.includeEvidence <;> cases isStringArray (evidenceOf item) <;> simp
          rw [hreason', hevidence']
          rw [evidenceOf] at hevidence
          rw [if_neg hevidence, LabelSetVersion.resolveScores_eq hgood]
          exact .result rfl hgood rfl

theorem validateResultItem_ok_iff {item : List (String × Json)} {targetId : String}
    {targetField : Option String} :
    (∃ r, validateResultItem item targetId targetField policy labelSet = .ok (.ok r)) ↔
      itemOk targetField policy labelSet item = true := by
  have hitem := item_cases item targetId targetField policy labelSet
  generalize itemOk targetField policy labelSet item = ok at hitem ⊢
  generalize itemOverflows targetField policy labelSet item = overflows at hitem
  generalize validateResultItem item targetId targetField policy labelSet = outcome at hitem ⊢
  cases hitem <;> simp

/-- A result names its target and has the labels of scores of the set. -/
theorem validateResultItem_spec {item : List (String × Json)} {targetId : String}
    {targetField : Option String} {r : ValidatedTargetResult}
    (h : validateResultItem item targetId targetField policy labelSet = .ok (.ok r)) :
    r.targetId = targetId ∧
      ∃ scores, GoodScores labelSet scores ∧ r.labels = labelSet.labelsOf scores := by
  have hitem := item_cases item targetId targetField policy labelSet
  rw [h] at hitem
  generalize itemOk targetField policy labelSet item = ok at hitem
  generalize itemOverflows targetField policy labelSet item = overflows at hitem
  cases hitem with
  | result htarget hscores hlabels => exact ⟨htarget, _, hscores, hlabels⟩

end TgCurator.Output
