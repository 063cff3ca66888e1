import TgCurator.Routing.Dsl

/-!
# Conditions as trees

`Condition` is the syntax of the routing language with the checks of `validate` built
in: a label condition has a namespace, a key and a test, a comparison has an operator
and a value. `Condition.eval` is its meaning, strong Kleene evaluation over the results
of the leaves; a media quantifier is the disjunction of its label condition over the
entries of the media dictionary, or the negation of that disjunction.

`decode` reads a tree off a raw condition. Every condition `validate` accepts decodes
(`decode_of_validate`), and `evaluate` of a condition that decodes returns the meaning
of its tree and raises nothing (`evaluate_of_decode`). The loops of the code with their
early exits and `saw_unknown` flags are the connectives of `Kleene`.
-/

namespace TgCurator

/-! ## Syntax -/

/-- What a label condition asks of a label: that it is activated, or that its score
compares with a threshold. -/
inductive LabelTest
  | activated
  | score (operator : Comparison) (threshold : Number)

/-- A label condition. -/
structure LabelCondition where
  ns : String
  key : String
  test : LabelTest

/-- A routing condition. -/
inductive Condition
  | exist (fact : String)
  | compare (fact : String) (operator : Comparison) (value : Json) (numericOnly : Bool)
  | present (fact : String) (minimum : Number)
  | label (l : LabelCondition)
  | anyMedia (l : LabelCondition)
  | noneMedia (l : LabelCondition)
  | all (children : List Condition)
  | any (children : List Condition)
  | not (c : Condition)

/-! ## Meaning -/

/-- The test on a label dictionary. -/
def LabelTest.eval (label : List (String × Json)) : LabelTest → Kleene
  | activated =>
    match label.lookup "activated" with
    | some (.bool b) => some b
    | _ => none
  | score operator threshold => compareFact (label.lookup "score") operator (.num threshold) true

namespace LabelCondition

/-- The path of the message-level label. -/
def globalPath (l : LabelCondition) : String :=
  "labels." ++ l.ns ++ ".global." ++ l.key

/-- The path of the media dictionary. -/
def mediaPath (l : LabelCondition) : String :=
  "labels." ++ l.ns ++ ".media"

/-- The test on the value found for the key. -/
def evalValue (l : LabelCondition) (value : Option Json) : Kleene :=
  match value with
  | some (.obj label) => l.test.eval label
  | _ => none

/-- The condition on the message-level labels. -/
def evalGlobal (l : LabelCondition) (facts : Facts) : Kleene :=
  l.evalValue (resolveFact facts l.globalPath)

/-- The condition on one entry of the media dictionary. -/
def evalEntry (l : LabelCondition) (facts : Facts) (entry : Json) : Kleene :=
  match entry with
  | .null => l.evalGlobal facts
  | .obj entry =>
    match entry.lookup "labels" with
    | some (.obj labels) => l.evalValue (labels.lookup l.key)
    | _ => none
  | _ => none

/-- The results of the condition on the entries of the media dictionary, if there is
one. -/
def mediaResults (l : LabelCondition) (facts : Facts) : Option (List Kleene) :=
  match resolveFact facts l.mediaPath with
  | some (.obj media) => some ((Dict.values media).map (l.evalEntry facts))
  | _ => none

/-- Some media entry satisfies the condition; unknown without a media dictionary. -/
def evalAny (l : LabelCondition) (facts : Facts) : Kleene :=
  (l.mediaResults facts).bind Kleene.any

end LabelCondition

namespace Condition

mutual

/-- Strong Kleene evaluation. -/
def eval (facts : Facts) : Condition → Kleene
  | exist fact => (resolveFact facts fact).map fun value => decide (pyType value ≠ .noneType)
  | compare fact operator value numericOnly =>
    compareFact (resolveFact facts fact) operator value numericOnly
  | present fact minimum =>
    ((resolveFact facts fact).bind number?).map fun n => minimum.le n
  | label l => l.evalGlobal facts
  | anyMedia l => l.evalAny facts
  | noneMedia l => Kleene.neg (l.evalAny facts)
  | all children => Kleene.all (evalList facts children)
  | any children => Kleene.any (evalList facts children)
  | not c => Kleene.neg (eval facts c)

def evalList (facts : Facts) : List Condition → List Kleene
  | [] => []
  | c :: children => eval facts c :: evalList facts children

end

theorem evalList_eq_map (facts : Facts) (children : List Condition) :
    evalList facts children = children.map (eval facts) := by
  induction children with
  | nil => rfl
  | cons c children ih => rw [evalList, ih, List.map_cons]

end Condition

/-! ## Reading a tree off a raw condition -/

/-- The string a value is, if it is one. -/
def string? : Json → Option String
  | .str s => some s
  | _ => none

/-- The label condition of a payload. -/
def decodeLabel : Json → Option LabelCondition
  | .obj entries => do
    let ns ← (entries.lookup "namespace").bind string?
    let key ← (entries.lookup "key").bind string?
    match selectedComparison entries with
    | none => return ⟨ns, key, .activated⟩
    | some (operator, threshold) => return ⟨ns, key, .score operator (← number? threshold)⟩
  | _ => none

/-- A comparison with `fact`, `op` and `value`. -/
def decodeComparison (numericOnly : Bool) (entries : List (String × Json)) : Option Condition := do
  let fact ← (entries.lookup "fact").bind string?
  let operator ← ((entries.lookup "op").bind string?).bind Comparison.ofString?
  return .compare fact operator (← entries.lookup "value") numericOnly

/-- A leaf predicate: `exists` or a comparison. -/
def decodeLeaf (entries : List (String × Json)) : Option Condition :=
  if isStr (getD entries "op") "exists" then
    ((entries.lookup "fact").bind string?).map Condition.exist
  else decodeComparison false entries

/-- The label condition of a media quantifier. -/
def decodeMedia (payload : Json) : Option LabelCondition :=
  match payload with
  | .obj entries => (entries.lookup "label").bind decodeLabel
  | _ => none

/-- The payload of `label_present`. -/
def decodePresent (payload : Json) : Option Condition :=
  match payload with
  | .obj entries => do
    let fact ← (entries.lookup "fact").bind string?
    return .present fact (← number? (minimumScore entries))
  | _ => none

mutual

/-- The tree of a raw condition. -/
def decode (condition : Json) : Option Condition :=
  match condition with
  | .obj entries =>
    if isLeaf entries then decodeLeaf entries
    else match entries with
      | [(operator, payload)] =>
        match Operator.ofString? operator with
        | some .all =>
          match payload with
          | .arr children => (decodeList children).map Condition.all
          | _ => none
        | some .any =>
          match payload with
          | .arr children => (decodeList children).map Condition.any
          | _ => none
        | some .not => (decode payload).map Condition.not
        | some .label => (decodeLabel payload).map Condition.label
        | some .anyMedia => (decodeMedia payload).map Condition.anyMedia
        | some .noneMedia => (decodeMedia payload).map Condition.noneMedia
        | some .labelScore =>
          match payload with
          | .obj fields => decodeComparison true fields
          | _ => none
        | some .labelPresent => decodePresent payload
        | none => none
      | _ => none
  | _ => none

def decodeList : List Json → Option (List Condition)
  | [] => some []
  | child :: children => do
    let c ← decode child
    return c :: (← decodeList children)

end

/-! ## Accepted conditions decode -/

theorem lookup_of_hasExactly {entries : List (String × Json)} {expected : List String}
    (h : hasExactly entries expected = true) {k : String} (hk : k ∈ expected) :
    ∃ v, entries.lookup k = some v := by
  simp only [hasExactly, Bool.and_eq_true, List.all_eq_true, decide_eq_true_eq] at h
  cases hl : entries.lookup k with
  | some v => exact ⟨v, rfl⟩
  | none => exact absurd (h.2 k hk) (Dict.lookup_eq_none.mp hl)

theorem string?_of_inSet {value : Json} {strings : List String}
    (h : inSet value strings = .ok true) : ∃ s ∈ strings, value = .str s := by
  cases value <;> simp_all [inSet]

theorem string?_of_validateFact {allowed : Option (List String)} {fact : Json}
    (h : validateFact allowed fact = .ok ()) : ∃ s, fact = .str s := by
  cases fact <;> simp_all [validateFact]

theorem number?_of_validateLabelThreshold {threshold : Json}
    (h : validateLabelThreshold threshold = .ok ()) : ∃ n, threshold = .num n := by
  cases threshold <;> simp_all [validateLabelThreshold]

theorem lookup_of_getD {entries : List (String × Json)} {k : String} {v : Json}
    (h : getD entries k = v) (hv : v ≠ .null) : entries.lookup k = some v := by
  unfold getD at h
  cases hl : entries.lookup k with
  | none => simp [hl] at h; exact absurd h.symm hv
  | some w => simpa [hl] using h

/-- The only comparison named is the one the evaluator selects. -/
theorem selectedComparison_of_selectedNames {entries : List (String × Json)} :
    (selectedNames entries = [] → selectedComparison entries = none) ∧
      ∀ selected rest, selectedNames entries = selected :: rest →
        ∃ operator, selectedComparison entries = some (operator, getD entries selected) := by
  have key : ∀ comparisons : List (String × Comparison),
      ((comparisons.map Prod.fst).filter (· ∈ Dict.keys entries) = [] →
        (comparisons.findSome? fun c => (entries.lookup c.1).map fun t => (c.2, t)) = none) ∧
      ∀ selected rest,
        (comparisons.map Prod.fst).filter (· ∈ Dict.keys entries) = selected :: rest →
        ∃ operator, (comparisons.findSome? fun c => (entries.lookup c.1).map fun t => (c.2, t)) =
          some (operator, getD entries selected) := by
    intro comparisons
    induction comparisons with
    | nil => simp
    | cons c comparisons ih =>
      cases hl : entries.lookup c.1 with
      | none =>
        have hk := Dict.lookup_eq_none.mp hl
        simpa [List.filter_cons, hk, hl] using ih
      | some t =>
        have hk : c.1 ∈ Dict.keys entries := by
          by_contra hk
          simp [Dict.lookup_eq_none.mpr hk] at hl
        simp [hk, hl, getD]
  exact key labelComparisons

/-- Every label payload the validator accepts decodes, with one of the three
namespaces and a key that is not blank. -/
theorem decodeLabel_of_validate {mediaContext : Bool} {payload : Json}
    (h : validateLabelPayload mediaContext payload = .ok ()) :
    ∃ l, decodeLabel payload = some l ∧ l.ns ∈ ["model", "manual", "effective"] := by
  cases payload with
  | obj entries =>
    simp only [validateLabelPayload, seq_eq_ok, ensure_eq_ok] at h
    obtain ⟨-, h⟩ := h
    obtain ⟨known, hns, h⟩ := bind_eq_ok.mp h
    simp only [seq_eq_ok, ensure_eq_ok] at h
    obtain ⟨rfl, hkey, -, -, -, hsel⟩ := h
    obtain ⟨ns, hmem, hns⟩ := string?_of_inSet hns
    obtain ⟨key, hkey⟩ : ∃ key, getD entries "key" = .str key := by
      revert hkey
      cases getD entries "key" <;> simp [isNonblankStr]
    have hns' := lookup_of_getD hns (by simp)
    have hkey' := lookup_of_getD hkey (by simp)
    cases hs : selectedNames entries with
    | nil =>
      refine ⟨⟨ns, key, .activated⟩, ?_, hmem⟩
      simp [decodeLabel, hns', hkey', string?, selectedComparison_of_selectedNames.1 hs]
    | cons selected rest =>
      obtain ⟨operator, hop⟩ := selectedComparison_of_selectedNames.2 selected rest hs
      rw [hs] at hsel
      obtain ⟨n, hn⟩ := number?_of_validateLabelThreshold hsel
      refine ⟨⟨ns, key, .score operator n⟩, ?_, hmem⟩
      simp [decodeLabel, hns', hkey', string?, hop, hn, number?]
  | _ => simp [validateLabelPayload] at h

theorem decodeMedia_of_validate {operator : String} {payload : Json}
    (h : validateMediaPayload operator payload = .ok ()) :
    ∃ l, decodeMedia payload = some l ∧ l.ns ∈ ["model", "manual", "effective"] := by
  cases payload with
  | obj entries =>
    simp only [validateMediaPayload, seq_eq_ok, ensure_eq_ok] at h
    obtain ⟨label, hlabel⟩ := lookup_of_hasExactly h.1 (k := "label") (by simp)
    obtain ⟨l, hl, hns⟩ := decodeLabel_of_validate (by simpa [getD, hlabel] using h.2)
    exact ⟨l, by simp [decodeMedia, hlabel, hl], hns⟩
  | _ => simp [validateMediaPayload] at h

theorem comparison_of_mem {s : String} (h : s ∈ comparisonOperators) :
    ∃ c, Comparison.ofString? s = some c := by
  simp only [comparisonOperators, List.mem_cons, List.not_mem_nil, or_false] at h
  rcases h with rfl | rfl | rfl | rfl | rfl | rfl | rfl | rfl | rfl <;> exact ⟨_, rfl⟩

theorem numericComparisonOperators_subset : numericComparisonOperators ⊆ comparisonOperators := by
  decide

theorem decodeComparison_of_validate {allowed : Option (List String)} {numericOnly : Bool}
    {entries : List (String × Json)}
    (h : validateComparisonPayload allowed numericOnly (.obj entries) = .ok ()) :
    ∃ c, decodeComparison numericOnly entries = some c := by
  simp only [validateComparisonPayload, seq_eq_ok, ensure_eq_ok] at h
  obtain ⟨hkeys, hfact, h⟩ := h
  obtain ⟨known, hop, h⟩ := bind_eq_ok.mp h
  obtain ⟨hknown, -⟩ := seq_eq_ok.mp h
  obtain rfl := ensure_eq_ok.mp hknown
  obtain ⟨fact, hf⟩ := lookup_of_hasExactly hkeys (k := "fact") (by simp)
  obtain ⟨op, ho⟩ := lookup_of_hasExactly hkeys (k := "op") (by simp)
  obtain ⟨value, hv⟩ := lookup_of_hasExactly hkeys (k := "value") (by simp)
  obtain ⟨s, rfl⟩ : ∃ s, fact = .str s := string?_of_validateFact (by simpa [getD, hf] using hfact)
  obtain ⟨o, hmem, rfl⟩ : ∃ o ∈ _, op = .str o := string?_of_inSet (by simpa [getD, ho] using hop)
  obtain ⟨c, hc⟩ : ∃ c, Comparison.ofString? o = some c := by
    refine comparison_of_mem ?_
    split_ifs at hmem
    · exact numericComparisonOperators_subset hmem
    · exact hmem
  exact ⟨.compare s c value numericOnly, by simp [decodeComparison, string?, hf, ho, hv, hc]⟩

theorem decodeLeaf_of_validate {allowed : Option (List String)} {entries : List (String × Json)}
    (h : validateLeaf allowed entries = .ok ()) : ∃ c, decodeLeaf entries = some c := by
  unfold validateLeaf at h
  unfold decodeLeaf
  split_ifs at h ⊢ with hex
  · obtain ⟨hkeys, hfact⟩ := seq_eq_ok.mp h
    obtain ⟨fact, hf⟩ := lookup_of_hasExactly (ensure_eq_ok.mp hkeys) (k := "fact") (by simp)
    obtain ⟨s, rfl⟩ := string?_of_validateFact (by simpa [getD, hf] using hfact)
    exact ⟨.exist s, by simp [hf, string?]⟩
  · exact decodeComparison_of_validate h

theorem decodePresent_of_validate {allowed : Option (List String)} {payload : Json}
    (h : validateLabelPresent allowed payload = .ok ()) :
    ∃ c, decodePresent payload = some c := by
  cases payload with
  | obj entries =>
    simp only [validateLabelPresent, seq_eq_ok, ensure_eq_ok] at h
    obtain ⟨-, hfact, hmin⟩ := h
    obtain ⟨s, hs⟩ := string?_of_validateFact hfact
    obtain ⟨n, hn, -⟩ := (Option.any_eq_true _ _).mp hmin
    exact ⟨.present s n, by
      simp [decodePresent, lookup_of_getD hs (by simp), string?, hn]⟩
  | _ => simp [validateLabelPresent] at h

mutual

/-- Every condition the validator accepts decodes. -/
theorem decode_of_validate {allowed : Option (List String)} :
    ∀ {depth : ℕ} {condition : Json}, validate allowed depth condition = .ok () →
      ∃ c, decode condition = some c
  | depth, .obj entries, h => by
    unfold validate at h
    unfold decode
    obtain ⟨-, h⟩ := seq_eq_ok.mp h
    dsimp only at h ⊢
    by_cases hleaf : isLeaf entries = true
    · rw [if_pos hleaf] at h ⊢
      exact decodeLeaf_of_validate h
    rw [if_neg hleaf] at h ⊢
    match entries, h with
    | [(operator, payload)], h =>
      dsimp only at h ⊢
      cases hop : Operator.ofString? operator with
      | none => simp [hop] at h
      | some o =>
        rw [hop] at h
        cases o with
        | all | any =>
          match payload, h with
          | .arr (child :: children), h =>
            obtain ⟨cs, hcs⟩ := decodeList_of_validate h
            exact ⟨_, by simp only [hcs]; rfl⟩
        | not =>
          obtain ⟨c, hc⟩ := decode_of_validate h
          exact ⟨_, by simp only [hc]; rfl⟩
        | label =>
          obtain ⟨l, hl, -⟩ := decodeLabel_of_validate h
          exact ⟨_, by simp only [hl]; rfl⟩
        | anyMedia | noneMedia =>
          obtain ⟨l, hl, -⟩ := decodeMedia_of_validate h
          exact ⟨_, by simp only [hl]; rfl⟩
        | labelScore =>
          match payload, h with
          | .obj fields, h => exact decodeComparison_of_validate h
        | labelPresent => exact decodePresent_of_validate h
  | _, .null, h | _, .bool _, h | _, .num _, h | _, .str _, h | _, .arr _, h => by
    simp [validate, seq_eq_ok] at h

theorem decodeList_of_validate {allowed : Option (List String)} :
    ∀ {depth : ℕ} {children : List Json}, validateChildren allowed depth children = .ok () →
      ∃ cs, decodeList children = some cs
  | _, [], _ => ⟨[], rfl⟩
  | _, child :: children, h => by
    obtain ⟨h1, h2⟩ := seq_eq_ok.mp h
    obtain ⟨c, hc⟩ := decode_of_validate h1
    obtain ⟨cs, hcs⟩ := decodeList_of_validate h2
    exact ⟨c :: cs, by simp [decodeList, hc, hcs]⟩

end

/-! ## Evaluation of a decoded condition -/

theorem string?_eq_some {value : Json} {s : String} : string? value = some s ↔ value = .str s := by
  cases value <;> simp [string?]

theorem number?_eq_some {value : Json} {n : Number} : number? value = some n ↔ value = .num n := by
  cases value <;> simp [number?]

theorem stringItem_of_lookup {entries : List (String × Json)} {k s : String}
    (h : (entries.lookup k).bind string? = some s) : stringItem (.obj entries) k = .ok s := by
  obtain ⟨v, hv, hs⟩ := Option.bind_eq_some_iff.mp h
  rw [string?_eq_some.mp hs] at hv
  simp [stringItem, getItem, hv, bind, Except.bind, pure, Except.pure]

theorem getItem_of_lookup {entries : List (String × Json)} {k : String} {v : Json}
    (h : entries.lookup k = some v) : getItem (.obj entries) k = .ok v := by
  simp [getItem, h]

/-- What a payload that decodes is made of. -/
theorem decodeLabel_eq_some {payload : Json} {l : LabelCondition}
    (h : decodeLabel payload = some l) :
    ∃ entries, payload = .obj entries ∧ (entries.lookup "namespace").bind string? = some l.ns ∧
      (entries.lookup "key").bind string? = some l.key ∧
      ((selectedComparison entries = none ∧ l.test = .activated) ∨
        ∃ operator n, selectedComparison entries = some (operator, .num n) ∧
          l.test = .score operator n) := by
  cases payload with
  | obj entries =>
    obtain ⟨ns, hns, h⟩ := Option.bind_eq_some_iff.mp h
    obtain ⟨key, hkey, h⟩ := Option.bind_eq_some_iff.mp h
    refine ⟨entries, rfl, ?_⟩
    cases hs : selectedComparison entries with
    | none =>
      obtain rfl : (⟨ns, key, .activated⟩ : LabelCondition) = l := by simpa [hs] using h
      exact ⟨hns, hkey, .inl ⟨rfl, rfl⟩⟩
    | some selected =>
      obtain ⟨operator, threshold⟩ := selected
      obtain ⟨n, hn, rfl⟩ : ∃ n, number? threshold = some n ∧
          (⟨ns, key, .score operator n⟩ : LabelCondition) = l := by
        simpa [hs, Option.bind_eq_some_iff] using h
      exact ⟨hns, hkey, .inr ⟨operator, n, by rw [number?_eq_some.mp hn], rfl⟩⟩
  | _ => simp [decodeLabel] at h

theorem evaluateLabel_of_decodeLabel {payload : Json} {l : LabelCondition}
    (h : decodeLabel payload = some l) (facts : Facts) (entry : Json) :
    evaluateLabel facts payload entry = .ok (l.evalEntry facts entry) := by
  obtain ⟨entries, rfl, hns, hkey, htest⟩ := decodeLabel_eq_some h
  have hvalue : ∀ value, evaluateLabelValue entries value = l.evalValue value := by
    rintro (- | value)
    · rfl
    rcases htest with ⟨hs, ht⟩ | ⟨operator, n, hs, ht⟩
    · cases value <;> simp only [evaluateLabelValue, LabelCondition.evalValue, hs, ht]
      rfl
    · cases value <;>
        simp only [evaluateLabelValue, LabelCondition.evalValue, hs, ht, LabelTest.eval]
  unfold evaluateLabel LabelCondition.evalEntry
  cases entry with
  | null =>
    simp only [stringItem_of_lookup hns, stringItem_of_lookup hkey, hvalue]
    rfl
  | obj entry =>
    dsimp only
    cases entry.lookup "labels" with
    | none => rfl
    | some labels =>
      cases labels with
      | obj labels =>
        simp only [stringItem_of_lookup hkey, hvalue]
        rfl
      | _ => rfl
  | _ => rfl

/-- The loop of a quantifier computes the disjunction, or its negation. -/
theorem evaluateMedia_of_decodeLabel {payload : Json} {l : LabelCondition}
    (h : decodeLabel payload = some l) (facts : Facts) (operator : Operator)
    (media : List Json) : ∀ sawUnknown, evaluateMedia facts operator payload sawUnknown media =
      .ok (if operator = .noneMedia
        then Kleene.neg (Kleene.settleAny sawUnknown (Kleene.any (media.map (l.evalEntry facts))))
        else Kleene.settleAny sawUnknown (Kleene.any (media.map (l.evalEntry facts)))) := by
  induction media with
  | nil =>
    intro sawUnknown
    simp only [evaluateMedia, List.map_nil, Kleene.settleAny_nil]
    cases sawUnknown <;> by_cases ho : operator = .noneMedia <;> simp [ho]
  | cons entry media ih =>
    intro sawUnknown
    simp only [evaluateMedia, evaluateLabel_of_decodeLabel h, List.map_cons, Kleene.any_cons,
      Kleene.settleAny_disj, bind, Except.bind]
    by_cases ht : l.evalEntry facts entry = some true
    · by_cases ho : operator = .noneMedia <;> simp [ht, ho, pure, Except.pure]
    · simp only [if_neg ht, ih]

theorem evaluateQuantifier_of_decodeMedia {payload : Json} {l : LabelCondition}
    (h : decodeMedia payload = some l) (facts : Facts) (operator : Operator) :
    evaluateQuantifier facts operator payload =
      .ok (if operator = .noneMedia then Kleene.neg (l.evalAny facts) else l.evalAny facts) := by
  cases payload with
  | obj entries =>
    obtain ⟨label, hlabel, hl⟩ := Option.bind_eq_some_iff.mp h
    obtain ⟨fields, rfl, hns, -⟩ := decodeLabel_eq_some hl
    simp only [evaluateQuantifier, getItem_of_lookup hlabel, stringItem_of_lookup hns, bind,
      Except.bind, LabelCondition.evalAny, LabelCondition.mediaResults, LabelCondition.mediaPath]
    cases resolveFact facts ("labels." ++ l.ns ++ ".media") with
    | none => simp [pure, Except.pure]
    | some media => cases media <;> simp [evaluateMedia_of_decodeLabel hl, pure, Except.pure]
  | _ => simp [decodeMedia] at h

theorem decodeComparison_eq_some {numericOnly : Bool} {entries : List (String × Json)}
    {c : Condition} (h : decodeComparison numericOnly entries = some c) :
    ∃ fact op operator value, (entries.lookup "fact").bind string? = some fact ∧
      (entries.lookup "op").bind string? = some op ∧ Comparison.ofString? op = some operator ∧
      entries.lookup "value" = some value ∧ c = .compare fact operator value numericOnly := by
  simp only [decodeComparison, bind, Option.bind_eq_some_iff, pure, Option.some.injEq] at h
  obtain ⟨fact, ⟨f, hf, hf'⟩, operator, ⟨op, ⟨o, ho, ho'⟩, hop⟩, value, hvalue, rfl⟩ := h
  exact ⟨fact, op, operator, value, by simp [hf, hf'], by simp [ho, ho'], hop, hvalue, rfl⟩

theorem evaluateLeaf_of_decodeLeaf {entries : List (String × Json)} {c : Condition}
    (h : decodeLeaf entries = some c) (facts : Facts) :
    evaluateLeaf facts (.obj entries) = .ok (c.eval facts) := by
  unfold decodeLeaf at h
  split_ifs at h with hex
  · obtain ⟨fact, hfact, rfl⟩ := Option.map_eq_some_iff.mp h
    have hop : stringItem (.obj entries) "op" = .ok "exists" := by
      refine stringItem_of_lookup ?_
      unfold getD isStr at hex
      cases hl : entries.lookup "op" with
      | none => simp [hl] at hex
      | some op => cases op <;> simp_all [string?]
    simp only [evaluateLeaf, stringItem_of_lookup hfact, hop]
    rfl
  · obtain ⟨fact, op, operator, value, hfact, hop, hoperator, hvalue, rfl⟩ :=
      decodeComparison_eq_some h
    have hne : op ≠ "exists" := by
      rintro rfl
      simp [Comparison.ofString?] at hoperator
    simp only [evaluateLeaf, stringItem_of_lookup hfact, stringItem_of_lookup hop,
      getItem_of_lookup hvalue, bind, Except.bind, if_neg hne, compareNamed, hoperator]
    rfl

theorem evaluateLabelPresent_of_decodePresent {payload : Json} {c : Condition}
    (h : decodePresent payload = some c) (facts : Facts) :
    evaluateLabelPresent facts payload = .ok (c.eval facts) := by
  cases payload with
  | obj entries =>
    simp only [decodePresent, bind, Option.bind_eq_some_iff, pure, Option.some.injEq] at h
    obtain ⟨fact, hfact, minimum, hmin, rfl⟩ := h
    have hfact' := stringItem_of_lookup (Option.bind_eq_some_iff.mpr hfact)
    simp only [evaluateLabelPresent, hfact', bind, Except.bind, hmin, Condition.eval]
    cases (resolveFact facts fact).bind number? <;> rfl
  | _ => simp [decodePresent] at h

mutual

/-- A condition that decodes evaluates, and to the meaning of its tree. -/
theorem evaluate_of_decode (facts : Facts) :
    ∀ {condition : Json} {c : Condition}, decode condition = some c →
      evaluate facts condition = .ok (c.eval facts)
  | .obj entries, c, h => by
    unfold decode at h
    unfold evaluate
    by_cases hleaf : isLeaf entries = true
    · rw [if_pos hleaf] at h ⊢
      exact evaluateLeaf_of_decodeLeaf h facts
    rw [if_neg hleaf] at h ⊢
    match entries, h with
    | [(operator, payload)], h =>
      dsimp only at h ⊢
      cases hop : Operator.ofString? operator with
      | none => simp [hop] at h
      | some o =>
        rw [hop] at h
        cases o with
        | all =>
          match payload, h with
          | .arr children, h =>
            obtain ⟨cs, hcs, rfl⟩ := Option.map_eq_some_iff.mp h
            exact (evaluateAll_of_decodeList facts hcs false).trans (by simp [Condition.eval])
        | any =>
          match payload, h with
          | .arr children, h =>
            obtain ⟨cs, hcs, rfl⟩ := Option.map_eq_some_iff.mp h
            exact (evaluateAny_of_decodeList facts hcs false).trans (by simp [Condition.eval])
        | not =>
          obtain ⟨c, hc, rfl⟩ := Option.map_eq_some_iff.mp h
          simp [evaluate_of_decode facts hc, Except.map, Condition.eval]
        | label =>
          obtain ⟨l, hl, rfl⟩ := Option.map_eq_some_iff.mp h
          simp [evaluateLabel_of_decodeLabel hl, Condition.eval, LabelCondition.evalEntry]
        | anyMedia | noneMedia =>
          obtain ⟨l, hl, rfl⟩ := Option.map_eq_some_iff.mp h
          simp [evaluateQuantifier_of_decodeMedia hl, Condition.eval]
        | labelScore =>
          match payload, h with
          | .obj fields, h =>
            obtain ⟨fact, op, operator, value, hfact, hop, hoperator, hvalue, rfl⟩ :=
              decodeComparison_eq_some h
            simp only [stringItem_of_lookup hfact, stringItem_of_lookup hop,
              getItem_of_lookup hvalue, bind, Except.bind, compareNamed, hoperator]
            rfl
        | labelPresent => exact evaluateLabelPresent_of_decodePresent h facts
  | .null, _, h | .bool _, _, h | .num _, _, h | .str _, _, h | .arr _, _, h => by
    simp [decode] at h

theorem evaluateAll_of_decodeList (facts : Facts) :
    ∀ {children : List Json} {cs : List Condition}, decodeList children = some cs →
      ∀ sawUnknown, evaluateAll facts sawUnknown children =
        .ok (Kleene.settleAll sawUnknown (Kleene.all (Condition.evalList facts cs)))
  | [], cs, h, sawUnknown => by
    obtain rfl : [] = cs := by simpa [decodeList] using h
    rw [evaluateAll, Condition.evalList, Kleene.settleAll_nil]
  | child :: children, cs, h, sawUnknown => by
    simp only [decodeList, bind, Option.bind_eq_some_iff, pure, Option.some.injEq] at h
    obtain ⟨c, hc, cs, hcs, rfl⟩ := h
    simp only [evaluateAll, evaluate_of_decode facts hc, bind, Except.bind, Condition.evalList,
      Kleene.all_cons, Kleene.settleAll_conj]
    by_cases hf : c.eval facts = some false
    · simp [hf, pure, Except.pure]
    · simp only [if_neg hf, evaluateAll_of_decodeList facts hcs]

theorem evaluateAny_of_decodeList (facts : Facts) :
    ∀ {children : List Json} {cs : List Condition}, decodeList children = some cs →
      ∀ sawUnknown, evaluateAny facts sawUnknown children =
        .ok (Kleene.settleAny sawUnknown (Kleene.any (Condition.evalList facts cs)))
  | [], cs, h, sawUnknown => by
    obtain rfl : [] = cs := by simpa [decodeList] using h
    rw [evaluateAny, Condition.evalList, Kleene.settleAny_nil]
  | child :: children, cs, h, sawUnknown => by
    simp only [decodeList, bind, Option.bind_eq_some_iff, pure, Option.some.injEq] at h
    obtain ⟨c, hc, cs, hcs, rfl⟩ := h
    simp only [evaluateAny, evaluate_of_decode facts hc, bind, Except.bind, Condition.evalList,
      Kleene.any_cons, Kleene.settleAny_disj]
    by_cases hf : c.eval facts = some true
    · simp [hf, pure, Except.pure]
    · simp only [if_neg hf, evaluateAny_of_decodeList facts hcs]

end

/-- An accepted condition evaluates to the meaning of its tree, and matches when that
is true. -/
theorem evaluateCondition_of_validate {condition : Json}
    (h : validateCondition condition none = .ok ()) :
    ∃ c, decode condition = some c ∧ ∀ facts, evaluate facts condition = .ok (c.eval facts) ∧
      (evaluateCondition condition facts = true ↔ c.eval facts = some true) := by
  obtain ⟨c, hc⟩ := decode_of_validate h
  refine ⟨c, hc, fun facts => ⟨evaluate_of_decode facts hc, ?_⟩⟩
  have hv : validate none 0 condition = .ok () := h
  simp [evaluateCondition, hv, evaluate_of_decode facts hc]

end TgCurator
