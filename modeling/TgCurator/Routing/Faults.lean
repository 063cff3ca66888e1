import TgCurator.Routing.Reading

/-!
# The exceptions of the validator

An invalid condition makes `validate_condition` raise `DomainValidationError`, except
where a check itself raises: a list or a dictionary is looked up in a set of strings, and
an integer beyond the floats is converted to one. `Fault` says where the walk of the
validator meets such a value, and `validate_gate_iff` that it raises anything else than
`DomainValidationError` there and only there. The evaluator raises nothing on an accepted
condition.
-/

namespace TgCurator

/-! ## Unexpected exceptions -/

/-- Whether a call raised something other than `DomainValidationError`. -/
def unexpected {α : Type} : Except PyError α → Bool
  | .ok _ => false
  | .error (.domainValidation _ _) => false
  | .error _ => true

@[simp] theorem unexpected_ok {α : Type} (a : α) :
    unexpected (.ok a : Except PyError α) = false :=
  rfl

@[simp] theorem unexpected_ensure (condition : Bool) (message : String)
    (operands : List String) : unexpected (ensure condition message operands) = false := by
  cases condition <;> rfl

/-- A call that raised nothing unexpected returned or raised `DomainValidationError`. -/
theorem unexpected_eq_false {α : Type} {x : Except PyError α} :
    unexpected x = false ↔
      (∃ a, x = .ok a) ∨ ∃ message operands, x = .error (.domainValidation message operands) := by
  rcases x with e | a
  · cases e <;> simp [unexpected]
  · simp

/-- After a step without a result. -/
theorem unexpected_seq {β : Type} {x : Except PyError Unit} {f : Unit → Except PyError β} :
    unexpected (x >>= f) = true ↔
      unexpected x = true ∨ x = .ok () ∧ unexpected (f ()) = true := by
  rcases x with e | a
  · cases e <;> simp [bind, Except.bind, unexpected]
  · simp [bind, Except.bind]

/-- After a check that raises only `DomainValidationError`. -/
theorem unexpected_ensure_bind {β : Type} {condition : Bool} {message : String}
    {operands : List String} {f : Unit → Except PyError β} :
    unexpected (ensure condition message operands >>= f) = true ↔
      condition = true ∧ unexpected (f ()) = true := by
  cases condition <;> simp [ensure, bind, Except.bind, unexpected]

/-- After a check of what a call returned. -/
theorem unexpected_bind_ensure {β : Type} {x : Except PyError Bool} {message : String}
    {operands : List String} {rest : Except PyError β} :
    unexpected (do let condition ← x; ensure condition message operands; rest) = true ↔
      unexpected x = true ∨ x = .ok true ∧ unexpected rest = true := by
  rcases x with e | condition
  · cases e <;> simp [bind, Except.bind, unexpected]
  · cases condition <;> simp [ensure, bind, Except.bind, unexpected]

/-! ## Numbers that are no floats -/

mutual

/-- The numbers inside a value, in the order of the value. -/
def numbers : Json → List Number
  | .num n => [n]
  | .arr items => numbersItems items
  | .obj entries => numbersEntries entries
  | _ => []

def numbersItems : List Json → List Number
  | [] => []
  | j :: items => numbers j ++ numbersItems items

def numbersEntries : List (String × Json) → List Number
  | [] => []
  | (_, v) :: entries => numbers v ++ numbersEntries entries

end

/-- Whether no finite float stands for the number. -/
def Number.unfit : Number → Bool
  | .int n => floatOverflows n
  | n => !n.isFinite

/-- The first number of the value without a finite float is an integer. -/
def TooLarge (value : Json) : Prop :=
  ∃ n, (numbers value).find? Number.unfit = some (.int n)

/-- What `_is_json_value` makes of the first number without a finite float. -/
def jsonVerdict : Option Number → Except PyError Bool
  | none => .ok true
  | some (.int _) => .error .overflowError
  | some _ => .ok false

theorem jsonVerdict_append (xs ys : List Number) :
    jsonVerdict ((xs ++ ys).find? Number.unfit) =
      (do if ← jsonVerdict (xs.find? Number.unfit) then jsonVerdict (ys.find? Number.unfit)
          else return false) := by
  rw [List.find?_append]
  cases xs.find? Number.unfit with
  | none => rfl
  | some n => cases n <;> rfl

mutual

theorem isJsonValue_eq : ∀ value : Json,
    isJsonValue value = jsonVerdict ((numbers value).find? Number.unfit)
  | .null | .bool _ | .str _ => by simp [isJsonValue, numbers, jsonVerdict]
  | .num (.int n) => by
    cases h : floatOverflows n <;> simp [isJsonValue, numbers, Number.unfit, jsonVerdict, h]
  | .num (.float _) | .num .infinity | .num .negInfinity | .num .nan => by
    simp [isJsonValue, numbers, Number.unfit, Number.isFinite, jsonVerdict]
  | .arr items => by rw [isJsonValue, numbers, areJsonValues_eq]
  | .obj entries => by rw [isJsonValue, numbers, areJsonEntries_eq]

theorem areJsonValues_eq : ∀ items : List Json,
    areJsonValues items = jsonVerdict ((numbersItems items).find? Number.unfit)
  | [] => rfl
  | j :: items => by
    rw [areJsonValues, numbersItems, jsonVerdict_append, isJsonValue_eq, areJsonValues_eq]

theorem areJsonEntries_eq : ∀ entries : List (String × Json),
    areJsonEntries entries = jsonVerdict ((numbersEntries entries).find? Number.unfit)
  | [] => rfl
  | (_, v) :: entries => by
    rw [areJsonEntries, numbersEntries, jsonVerdict_append, isJsonValue_eq, areJsonEntries_eq]

end

theorem unexpected_isJsonValue {value : Json} :
    unexpected (isJsonValue value) = true ↔ TooLarge value := by
  rw [isJsonValue_eq, TooLarge]
  cases (numbers value).find? Number.unfit with
  | none => simp [jsonVerdict]
  | some n => cases n <;> simp [jsonVerdict, unexpected]

/-! ## Faults of a payload -/

/-- A list or a dictionary, which a set cannot look up. -/
def unhashable : Json → Bool
  | .arr _ | .obj _ => true
  | _ => false

theorem unexpected_inSet {value : Json} {strings : List String} :
    unexpected (inSet value strings) = true ↔ unhashable value = true := by
  cases value <;> simp [inSet, unexpected, unhashable]

theorem inSet_eq_true {value : Json} {strings : List String} :
    inSet value strings = .ok true ↔ ∃ s ∈ strings, value = .str s := by
  cases value <;> simp [inSet]

/-- The value is a fact path that the validator accepts. -/
def IsFact (allowed : Option (List String)) (value : Json) : Prop :=
  ∃ fact, value = .str fact ∧ FactAllowed allowed fact

theorem unexpected_validateFact (allowed : Option (List String)) (value : Json) :
    unexpected (validateFact allowed value) = false := by
  rw [Bool.eq_false_iff]
  intro h
  cases value with
  | str fact =>
    obtain ⟨-, h⟩ := unexpected_ensure_bind.mp h
    cases allowed <;> simp at h
    cases h
  | _ => simp [validateFact] at h

theorem validateFact_eq_ok {allowed : Option (List String)} {value : Json} :
    validateFact allowed value = .ok () ↔ IsFact allowed value := by
  cases value with
  | str fact =>
    constructor
    · exact fun h => ⟨fact, rfl, factAllowed_of_validateFact h⟩
    · rintro ⟨_, ⟨⟩, hpattern, hallowed⟩
      refine seq_eq_ok.mpr ⟨ensure_eq_ok.mpr hpattern, ?_⟩
      cases allowed with
      | none => rfl
      | some keys => simpa using hallowed keys rfl
  | _ => simp [validateFact, IsFact]

/-- A comparison of an allowed fact whose operator is a list or a dictionary, or whose
value is too large for its check. -/
def ComparisonFault (allowed : Option (List String)) (numericOnly : Bool)
    (entries : List (String × Json)) : Prop :=
  hasExactly entries ["fact", "op", "value"] = true ∧ IsFact allowed (getD entries "fact") ∧
    (unhashable (getD entries "op") = true ∨
      (∃ op ∈ if numericOnly then numericComparisonOperators else comparisonOperators,
        getD entries "op" = .str op) ∧
      (numericOnly = true → (number? (getD entries "value")).isSome = true) ∧
      TooLarge (getD entries "value"))

theorem unexpected_validateComparisonPayload {allowed : Option (List String)} {numericOnly : Bool}
    {entries : List (String × Json)} :
    unexpected (validateComparisonPayload allowed numericOnly (.obj entries)) = true ↔
      ComparisonFault allowed numericOnly entries := by
  unfold validateComparisonPayload ComparisonFault
  dsimp only
  rw [unexpected_ensure_bind, unexpected_seq, unexpected_validateFact, validateFact_eq_ok,
    unexpected_bind_ensure, unexpected_inSet, inSet_eq_true, unexpected_ensure_bind,
    unexpected_bind_ensure, unexpected_isJsonValue, unexpected_ensure]
  simp only [Bool.false_eq_true, false_or, and_false, or_false, Bool.or_eq_true, Bool.not_eq_true',
    ← Bool.not_eq_true numericOnly, imp_iff_not_or]

/-- A scope that fits the context of a label condition. -/
def ScopeFits (mediaContext : Bool) (scope : Json) : Prop :=
  if mediaContext then scope = .null ∨ scope = .str "media" else scope = .str "global"

/-- A label condition whose namespace is a list or a dictionary, or whose threshold is an
integer too large for a float. -/
def LabelFault (mediaContext : Bool) (payload : Json) : Prop :=
  ∃ entries, payload = .obj entries ∧
    (∀ key ∈ Dict.keys entries,
      key ∈ "namespace" :: "scope" :: "key" :: labelComparisons.map Prod.fst) ∧
    (unhashable (getD entries "namespace") = true ∨
      (∃ ns ∈ namespaceNames, getD entries "namespace" = .str ns) ∧
      isNonblankStr (getD entries "key") = true ∧ ScopeFits mediaContext (getD entries "scope") ∧
      ∃ selected n, selectedNames entries = [selected] ∧
        getD entries selected = .num (.int n) ∧ floatOverflows n = true)

theorem unexpected_validateLabelThreshold {threshold : Json} :
    unexpected (validateLabelThreshold threshold) = true ↔
      ∃ n, threshold = .num (.int n) ∧ floatOverflows n = true := by
  cases threshold with
  | num n =>
    cases n with
    | int n =>
      cases h : floatOverflows n with
      | true => simp [validateLabelThreshold, ensureUnitInterval, h, unexpected]
      | false => simp [validateLabelThreshold, ensureUnitInterval, h]
    | _ => simp [validateLabelThreshold, ensureUnitInterval]
  | _ => simp [validateLabelThreshold]

theorem isStr_eq_true {value : Json} {s : String} : isStr value s = true ↔ value = .str s := by
  cases value <;> simp [isStr]

theorem scopeFits_iff {mediaContext : Bool} {scope : Json} :
    (pyType scope = .noneType || isStr scope (if mediaContext then "media" else "global")) = true ∧
      (mediaContext || isStr scope "global") = true ↔ ScopeFits mediaContext scope := by
  have hnone : pyType scope = .noneType ↔ scope = .null := by
    cases scope with
    | num n => cases h : n.isInt <;> simp [pyType, h]
    | _ => simp [pyType]
  cases mediaContext with
  | true => simp [ScopeFits, isStr_eq_true, hnone]
  | false => simp +contextual [ScopeFits, isStr_eq_true, hnone]

theorem unexpected_selectedThreshold {entries : List (String × Json)} :
    ((selectedNames entries).length ≤ 1 ∧
      unexpected (match selectedNames entries with
        | [] => pure ()
        | selected :: _ => validateLabelThreshold (getD entries selected)) = true) ↔
    ∃ selected n, selectedNames entries = [selected] ∧
      getD entries selected = .num (.int n) ∧ floatOverflows n = true := by
  cases selectedNames entries with
  | nil => simp [pure, Except.pure]
  | cons selected rest =>
    cases rest with
    | nil => simp [unexpected_validateLabelThreshold]
    | cons _ _ => simp

theorem unexpected_validateLabelPayload {mediaContext : Bool} {payload : Json} :
    unexpected (validateLabelPayload mediaContext payload) = true ↔
      LabelFault mediaContext payload := by
  cases payload with
  | obj entries =>
    unfold validateLabelPayload LabelFault
    dsimp only
    rw [unexpected_ensure_bind, unexpected_bind_ensure, unexpected_inSet, inSet_eq_true,
      unexpected_ensure_bind, unexpected_ensure_bind, unexpected_ensure_bind,
      unexpected_ensure_bind]
    simp only [List.all_eq_true, decide_eq_true_eq, Json.obj.injEq, exists_eq_left']
    refine and_congr_right fun _ => or_congr_right (and_congr_right fun _ =>
      and_congr_right fun _ => ?_)
    rw [← and_assoc]
    exact and_congr scopeFits_iff unexpected_selectedThreshold
  | _ => simp [validateLabelPayload, LabelFault]

/-! ## Faults of a condition -/

theorem unexpected_validateLeaf {allowed : Option (List String)} {entries : List (String × Json)} :
    unexpected (validateLeaf allowed entries) = true ↔
      isStr (getD entries "op") "exists" = false ∧ ComparisonFault allowed false entries := by
  unfold validateLeaf
  split_ifs with hex
  · rw [unexpected_ensure_bind, unexpected_validateFact]
    simp [hex]
  · rw [unexpected_validateComparisonPayload]
    simp [hex]

theorem unexpected_validateMediaPayload {operator : String} {payload : Json} :
    unexpected (validateMediaPayload operator payload) = true ↔
      ∃ entries, payload = .obj entries ∧ hasExactly entries ["label"] = true ∧
        LabelFault true (getD entries "label") := by
  cases payload with
  | obj entries =>
    rw [validateMediaPayload, unexpected_ensure_bind, unexpected_validateLabelPayload]
    simp
  | _ => simp [validateMediaPayload]

theorem unexpected_validateLabelPresent (allowed : Option (List String)) (payload : Json) :
    unexpected (validateLabelPresent allowed payload) = false := by
  rw [Bool.eq_false_iff]
  intro h
  cases payload with
  | obj entries =>
    rw [validateLabelPresent, unexpected_ensure_bind, unexpected_seq, unexpected_validateFact,
      unexpected_ensure] at h
    simp at h
  | _ => simp [validateLabelPresent] at h

/-- A condition in which the walk of the validator reaches a faulty payload: the children
before it are accepted. -/
inductive Fault (allowed : Option (List String)) : ℕ → Json → Prop
  | leaf {depth : ℕ} {entries : List (String × Json)} (hdepth : depth ≤ maxDepth)
      (hleaf : isLeaf entries = true) (hop : isStr (getD entries "op") "exists" = false)
      (h : ComparisonFault allowed false entries) : Fault allowed depth (.obj entries)
  | all {depth : ℕ} {before after : List Json} {child : Json} (hdepth : depth ≤ maxDepth)
      (hbefore : ∀ c ∈ before, validate allowed (depth + 1) c = .ok ())
      (h : Fault allowed (depth + 1) child) :
      Fault allowed depth (allOf (before ++ child :: after))
  | any {depth : ℕ} {before after : List Json} {child : Json} (hdepth : depth ≤ maxDepth)
      (hbefore : ∀ c ∈ before, validate allowed (depth + 1) c = .ok ())
      (h : Fault allowed (depth + 1) child) :
      Fault allowed depth (anyOf (before ++ child :: after))
  | not {depth : ℕ} {c : Json} (hdepth : depth ≤ maxDepth) (h : Fault allowed (depth + 1) c) :
      Fault allowed depth (notOf c)
  | label {depth : ℕ} {payload : Json} (hdepth : depth ≤ maxDepth) (h : LabelFault false payload) :
      Fault allowed depth (labelOf payload)
  | anyMedia {depth : ℕ} {entries : List (String × Json)} (hdepth : depth ≤ maxDepth)
      (hkeys : hasExactly entries ["label"] = true) (h : LabelFault true (getD entries "label")) :
      Fault allowed depth (anyMediaOf (.obj entries))
  | noneMedia {depth : ℕ} {entries : List (String × Json)} (hdepth : depth ≤ maxDepth)
      (hkeys : hasExactly entries ["label"] = true) (h : LabelFault true (getD entries "label")) :
      Fault allowed depth (noneMediaOf (.obj entries))
  | labelScore {depth : ℕ} {entries : List (String × Json)} (hdepth : depth ≤ maxDepth)
      (h : ComparisonFault allowed true entries) :
      Fault allowed depth (.obj [("label_score", .obj entries)])

section Walk

variable {allowed : Option (List String)}

theorem unexpected_validateChildren {depth : ℕ} {before after : List Json} {child : Json}
    (hbefore : ∀ c ∈ before, validate allowed depth c = .ok ())
    (h : unexpected (validate allowed depth child) = true) :
    unexpected (validateChildren allowed depth (before ++ child :: after)) = true := by
  induction before with
  | nil => exact unexpected_seq.mpr (.inl h)
  | cons c before ih =>
    rw [List.forall_mem_cons] at hbefore
    exact unexpected_seq.mpr (.inr ⟨hbefore.1, ih hbefore.2⟩)

theorem unexpected_of_fault {depth : ℕ} {condition : Json} (h : Fault allowed depth condition) :
    unexpected (validate allowed depth condition) = true := by
  have hensure : ∀ {depth : ℕ}, depth ≤ maxDepth → decide (depth ≤ maxDepth) = true :=
    fun hdepth => decide_eq_true hdepth
  induction h with
  | leaf hdepth hleaf hop h =>
    unfold validate
    refine unexpected_ensure_bind.mpr ⟨hensure hdepth, ?_⟩
    dsimp only
    rw [if_pos hleaf]
    exact unexpected_validateLeaf.mpr ⟨hop, h⟩
  | @all depth before after child hdepth hbefore _ ih =>
    unfold validate
    refine unexpected_ensure_bind.mpr ⟨hensure hdepth, ?_⟩
    have hchildren := @unexpected_validateChildren _ _ _ after _ hbefore ih
    obtain ⟨c, cs, hcs⟩ : ∃ c cs, before ++ child :: after = c :: cs :=
      List.exists_cons_of_ne_nil (by simp)
    rw [hcs] at hchildren ⊢
    exact hchildren
  | @any depth before after child hdepth hbefore _ ih =>
    unfold validate
    refine unexpected_ensure_bind.mpr ⟨hensure hdepth, ?_⟩
    have hchildren := @unexpected_validateChildren _ _ _ after _ hbefore ih
    obtain ⟨c, cs, hcs⟩ : ∃ c cs, before ++ child :: after = c :: cs :=
      List.exists_cons_of_ne_nil (by simp)
    rw [hcs] at hchildren ⊢
    exact hchildren
  | not hdepth _ ih =>
    unfold validate
    exact unexpected_ensure_bind.mpr ⟨hensure hdepth, ih⟩
  | label hdepth h =>
    unfold validate
    exact unexpected_ensure_bind.mpr ⟨hensure hdepth, unexpected_validateLabelPayload.mpr h⟩
  | anyMedia hdepth hkeys h | noneMedia hdepth hkeys h =>
    unfold validate
    exact unexpected_ensure_bind.mpr
      ⟨hensure hdepth, unexpected_validateMediaPayload.mpr ⟨_, rfl, hkeys, h⟩⟩
  | labelScore hdepth h =>
    unfold validate
    exact unexpected_ensure_bind.mpr ⟨hensure hdepth, unexpected_validateComparisonPayload.mpr h⟩

/-- The key of an operator. -/
def Operator.name : Operator → String
  | .all => "all"
  | .any => "any"
  | .not => "not"
  | .label => "label"
  | .anyMedia => "any_media"
  | .noneMedia => "none_media"
  | .labelScore => "label_score"
  | .labelPresent => "label_present"

theorem eq_name_of_ofString? {s : String} {o : Operator} (h : Operator.ofString? s = some o) :
    s = o.name := by
  unfold Operator.ofString? at h
  split at h <;> cases h <;> rfl

mutual

theorem fault_of_unexpected : ∀ {depth : ℕ} {condition : Json},
    unexpected (validate allowed depth condition) = true → Fault allowed depth condition
  | depth, .obj entries, h => by
    unfold validate at h
    obtain ⟨hdepth, h⟩ := unexpected_ensure_bind.mp h
    have hdepth : depth ≤ maxDepth := of_decide_eq_true hdepth
    dsimp only at h
    by_cases hleaf : isLeaf entries = true
    · rw [if_pos hleaf] at h
      obtain ⟨hop, h⟩ := unexpected_validateLeaf.mp h
      exact .leaf hdepth hleaf hop h
    rw [if_neg hleaf] at h
    match entries, h with
    | [(operator, payload)], h =>
      dsimp only at h
      cases hop : Operator.ofString? operator with
      | none => simp [hop] at h
      | some o =>
        rw [hop] at h
        obtain rfl := eq_name_of_ofString? hop
        cases o with
        | all =>
          match payload, h with
          | .arr (child :: children), h =>
            obtain ⟨before, c, after, heq, hbefore, hc⟩ := fault_of_validateChildren h
            rw [heq]
            exact .all hdepth hbefore hc
        | any =>
          match payload, h with
          | .arr (child :: children), h =>
            obtain ⟨before, c, after, heq, hbefore, hc⟩ := fault_of_validateChildren h
            rw [heq]
            exact .any hdepth hbefore hc
        | not => exact .not hdepth (fault_of_unexpected h)
        | label => exact .label hdepth (unexpected_validateLabelPayload.mp h)
        | anyMedia =>
          obtain ⟨entries, rfl, hkeys, h⟩ := unexpected_validateMediaPayload.mp h
          exact .anyMedia hdepth hkeys h
        | noneMedia =>
          obtain ⟨entries, rfl, hkeys, h⟩ := unexpected_validateMediaPayload.mp h
          exact .noneMedia hdepth hkeys h
        | labelScore =>
          match payload, h with
          | .obj fields, h => exact .labelScore hdepth (unexpected_validateComparisonPayload.mp h)
        | labelPresent =>
          dsimp only at h
          rw [unexpected_validateLabelPresent] at h
          cases h
    | [], h | _ :: _ :: _, h => simp at h
  | _, .null, h | _, .bool _, h | _, .num _, h | _, .str _, h | _, .arr _, h => by
    unfold validate at h
    simpa using (unexpected_ensure_bind.mp h).2

theorem fault_of_validateChildren : ∀ {depth : ℕ} {children : List Json},
    unexpected (validateChildren allowed depth children) = true →
      ∃ before child after, children = before ++ child :: after ∧
        (∀ c ∈ before, validate allowed depth c = .ok ()) ∧ Fault allowed depth child
  | _, [], h => by cases h
  | _, c :: children, h => by
    rcases unexpected_seq.mp h with h | ⟨hok, h⟩
    · exact ⟨[], c, children, rfl, by simp, fault_of_unexpected h⟩
    · obtain ⟨before, child, after, rfl, hbefore, hchild⟩ := fault_of_validateChildren h
      exact ⟨c :: before, child, after, rfl, List.forall_mem_cons.mpr ⟨hok, hbefore⟩, hchild⟩

end

end Walk

/-- The validator returns or raises `DomainValidationError`, and what it accepts evaluates
on every map, exactly when its walk reaches no fault. -/
theorem validate_gate_iff (condition : Json) (allowedFactKeys : Option (List String)) :
    (((∃ r, validateCondition condition allowedFactKeys = .ok r) ∨
        ∃ message operands, validateCondition condition allowedFactKeys =
          .error (.domainValidation message operands)) ∧
      (validateCondition condition allowedFactKeys = .ok () →
        ∀ facts, ∃ result, evaluate facts condition = .ok result)) ↔
    ¬ Fault allowedFactKeys 0 condition := by
  rw [← unexpected_eq_false, Bool.eq_false_iff]
  constructor
  · rintro ⟨h, -⟩ hfault
    exact h (unexpected_of_fault hfault)
  · refine fun hfault => ⟨fun h => hfault (fault_of_unexpected h), fun h facts => ?_⟩
    obtain ⟨c, hc⟩ := decode_of_validate h
    exact ⟨_, evaluate_of_decode facts hc⟩

/-- An operator that is a list makes the validator raise `TypeError`. -/
theorem validate_raises_typeError :
    validateCondition (.obj [("fact", .str "a"), ("op", .arr []), ("value", .num (.int 1))]) none =
      .error .typeError :=
  rfl

end TgCurator
