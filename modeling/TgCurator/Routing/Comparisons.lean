import TgCurator.Routing.Laws

/-!
# Membership, equality and order in the condition language

`_compare` has three notions of sameness. `eq` and `neq` first ask for one Python type
and are unknown otherwise, `in` is Python's `==` on every item, and the orderings
compare any two numbers by value.

So `in` over a list is the disjunction of `eq` over its items only for lists that decide
the fact (`Membership.Decided`, `evaluate_in_eq_anyOf_iff`): a missing or null fact, a
fact equal to an item of its own type, or items all of its type. And the comparisons of
two numbers are coherent only where `eq` sees a number at all
(`NumericForm.coherent_iff`): both integers or both floats, or, in the label form, which
has no `neq`, two different values.
-/

namespace TgCurator

/-! ## Leaf comparisons -/

/-- `{"fact": fact, "op": op, "value": value}`. -/
abbrev comparisonOf (fact op : String) (value : Json) : Json :=
  .obj [("fact", .str fact), ("op", .str op), ("value", value)]

/-- `{"label_score": {"fact": fact, "op": op, "value": value}}`. -/
abbrev labelScoreOf (fact op : String) (value : Json) : Json :=
  .obj [("label_score", comparisonOf fact op value)]

theorem decode_comparisonOf {op : String} {operator : Comparison}
    (h : Comparison.ofString? op = some operator) (fact : String) (value : Json) :
    decode (comparisonOf fact op value) = some (.compare fact operator value false) := by
  have hop : op ≠ "exists" := by
    rintro rfl
    cases h
  unfold decode
  simp [isLeaf, Dict.keys, decodeLeaf, decodeComparison, getD, isStr, string?, Dict.lookup_cons,
    hop, h]

theorem decode_labelScoreOf {op : String} {operator : Comparison}
    (h : Comparison.ofString? op = some operator) (fact : String) (value : Json) :
    decode (labelScoreOf fact op value) = some (.compare fact operator value true) := by
  unfold decode
  simp [isLeaf, Dict.keys, Operator.ofString?, decodeComparison, string?, Dict.lookup_cons, h]

/-! ## Membership and equality -/

namespace Membership

/-- The equality of a fact with one item: unknown between values of two types. -/
theorem compareFact_eq_some {actual item : Json} (hnull : actual ≠ .null) {b : Bool} :
    compareFact (some actual) .eq item false = some b ↔
      pyType actual = pyType item ∧ actual.pyEq item = b := by
  cases actual <;> simp_all [compareFact]

/-- The items decide a fact: it is missing or null, or an item of its type equals it, or
every item has its type. -/
def Decided (actual : Option Json) (items : List Json) : Prop :=
  actual = none ∨ actual = some .null ∨
    ∃ value, actual = some value ∧
      ((∃ item ∈ items, pyType value = pyType item ∧ value.pyEq item = true) ∨
        ∀ item ∈ items, pyType value = pyType item)

/-- Membership of an unknown fact is unknown, and so is every equality with it. -/
theorem any_compareFact_of_unknown {actual : Option Json} (h : actual = none ∨ actual = some .null)
    {items : List Json} (hne : items ≠ []) :
    Kleene.any (items.map fun item => compareFact actual .eq item false) = none := by
  have hcmp : ∀ item, compareFact actual .eq item false = none := by
    rcases h with rfl | rfl <;> exact fun _ => rfl
  obtain ⟨item, rest, rfl⟩ := List.exists_cons_of_ne_nil hne
  cases hany : Kleene.any ((item :: rest).map fun item => compareFact actual .eq item false) with
  | none => rfl
  | some b =>
    cases b
    · have := Kleene.any_eq_false_iff.mp hany none (by simp [hcmp])
      cases this
    · have := Kleene.any_eq_true_iff.mp hany
      simp [hcmp] at this

/-- `in` and the disjunction of `eq` agree exactly on the facts the items decide. -/
theorem compareFact_in_eq_any_iff (actual : Option Json) {items : List Json} (hne : items ≠ []) :
    compareFact actual .isIn (.arr items) false =
        Kleene.any (items.map fun item => compareFact actual .eq item false) ↔
      Decided actual items := by
  by_cases hu : actual = none ∨ actual = some .null
  · rw [any_compareFact_of_unknown hu hne]
    rcases hu with rfl | rfl
    · exact ⟨fun _ => .inl rfl, fun _ => rfl⟩
    · exact ⟨fun _ => .inr (.inl rfl), fun _ => rfl⟩
  obtain ⟨hnone, hnull⟩ := not_or.mp hu
  obtain ⟨value, rfl⟩ := Option.ne_none_iff_exists'.mp hnone
  have hvalue : value ≠ .null := fun h => hnull (h ▸ rfl)
  have hin : compareFact (some value) .isIn (.arr items) false =
      some (items.any fun item => value.pyEq item) := by
    cases value <;> simp_all [compareFact]
  have htrue : Kleene.any (items.map fun item => compareFact (some value) .eq item false) =
      some true ↔ ∃ item ∈ items, pyType value = pyType item ∧ value.pyEq item = true := by
    simp only [Kleene.any_eq_true_iff, List.mem_map, compareFact_eq_some hvalue]
  have hfalse : Kleene.any (items.map fun item => compareFact (some value) .eq item false) =
      some false ↔ ∀ item ∈ items, pyType value = pyType item ∧ value.pyEq item = false := by
    simp only [Kleene.any_eq_false_iff, List.forall_mem_map, compareFact_eq_some hvalue]
  simp only [Decided, reduceCtorEq, false_or, Option.some.injEq, hvalue, exists_eq_left', hin]
  constructor
  · intro h
    cases hb : items.any fun item => value.pyEq item with
    | true => exact .inl (htrue.mp (h ▸ congrArg some hb))
    | false => exact .inr fun item hi => (hfalse.mp (h ▸ congrArg some hb) item hi).1
  · rintro (h | h)
    · obtain ⟨item, hi, hty, heq⟩ := h
      rw [htrue.mpr ⟨item, hi, hty, heq⟩, List.any_eq_true.mpr ⟨item, hi, heq⟩]
    · cases hb : items.any fun item => value.pyEq item with
      | true =>
        obtain ⟨item, hi, heq⟩ := List.any_eq_true.mp hb
        exact (htrue.mpr ⟨item, hi, h item hi, heq⟩).symm
      | false =>
        refine (hfalse.mpr fun item hi => ⟨h item hi, ?_⟩).symm
        exact Bool.eq_false_iff.mpr (List.any_eq_false.mp hb item hi)

end Membership

/-- The conditions `eq` on each value decode to the equalities. -/
theorem decodeList_eq_items (fact : String) (items : List Json) :
    decodeList (items.map (comparisonOf fact "eq")) =
      some (items.map fun item => .compare fact .eq item false) := by
  rw [decodeList_eq_some, List.forall₂_map_left_iff, List.forall₂_map_right_iff,
    List.forall₂_same]
  exact fun item _ => decode_comparisonOf rfl fact item

/-- `in` over a non-empty list has the three-valued result of the disjunction of `eq`
over its items, under `not` as well, exactly when the items decide the fact. -/
theorem evaluate_in_eq_anyOf_iff (facts : Facts) (fact : String) {items : List Json}
    (hne : items ≠ []) :
    (evaluate facts (comparisonOf fact "in" (.arr items)) =
        evaluate facts (anyOf (items.map (comparisonOf fact "eq"))) ∧
      evaluate facts (notOf (comparisonOf fact "in" (.arr items))) =
        evaluate facts (notOf (anyOf (items.map (comparisonOf fact "eq"))))) ↔
    Membership.Decided (resolveFact facts fact) items := by
  obtain ⟨hin, hany⟩ : decode (comparisonOf fact "in" (.arr items)) =
        some (.compare fact .isIn (.arr items) false) ∧
      decode (anyOf (items.map (comparisonOf fact "eq"))) =
        some (.any (items.map fun item => .compare fact .eq item false)) :=
    ⟨decode_comparisonOf rfl fact _, by rw [decode_anyOf, decodeList_eq_items, Option.map_some]⟩
  have hiff := Membership.compareFact_in_eq_any_iff (resolveFact facts fact) hne
  have hnotIn : decode (notOf (comparisonOf fact "in" (.arr items))) =
      some (.not (.compare fact .isIn (.arr items) false)) := by
    rw [decode_notOf, hin, Option.map_some]
  have hnotAny := (decode_notOf _).trans (congrArg (Option.map Condition.not) hany)
  rw [evaluate_of_decode facts hin, evaluate_of_decode facts hany,
    evaluate_of_decode facts hnotIn, evaluate_of_decode facts hnotAny]
  simp only [Condition.eval, Condition.evalList_eq_map, List.map_map, Function.comp_def,
    Except.ok.injEq]
  rw [← hiff]
  exact ⟨fun h => h.1, fun h => ⟨h, congrArg _ h⟩⟩

/-- An accepted list with the integer 5, and the text "5" as the fact: `in` is false and
its negation matches, `eq` is unknown and the negated disjunction does not. -/
theorem in_ne_anyOf_eq :
    validateCondition (comparisonOf "count" "in" (.arr [.num (.int 5)])) none = .ok () ∧
      evaluateCondition (notOf (comparisonOf "count" "in" (.arr [.num (.int 5)])))
        [("count", .str "5")] = true ∧
      evaluateCondition (notOf (anyOf ([.num (.int 5)].map (comparisonOf "count" "eq"))))
        [("count", .str "5")] = false := by
  decide +kernel

/-- A fact that equals an item of its own type, beside an item of another type. -/
theorem evaluate_in_eq_anyOf_mixed :
    evaluate [("count", .num (.int 5))]
        (comparisonOf "count" "in" (.arr [.str "5", .num (.int 5)])) =
      evaluate [("count", .num (.int 5))]
        (anyOf ([.str "5", .num (.int 5)].map (comparisonOf "count" "eq"))) :=
  ((evaluate_in_eq_anyOf_iff [("count", .num (.int 5))] "count" (by simp)).mpr
    (.inr (.inr ⟨.num (.int 5), rfl, .inl ⟨.num (.int 5), by simp, rfl, by decide +kernel⟩⟩))).1

/-! ## Numbers -/

/-- The text of a comparison in `op`. -/
def Comparison.name : Comparison → String
  | eq => "eq"
  | neq => "neq"
  | gt => "gt"
  | gte => "gte"
  | lt => "lt"
  | lte => "lte"
  | isIn => "in"
  | contains => "contains"
  | startsWith => "starts_with"

@[simp] theorem Comparison.ofString?_name (c : Comparison) : ofString? c.name = some c := by
  cases c <;> rfl

/-- The comparisons of numbers by size, with or without `neq`. -/
def Comparison.numeric (admitsNeq : Bool) : List Comparison :=
  if admitsNeq then [.lt, .lte, .eq, .gte, .gt, .neq] else [.lt, .lte, .eq, .gte, .gt]

/-- The comparisons that hold of a number and a threshold fit together: exactly one of
`lt`, `eq` and `gt`, the weak ones as their disjunctions with `eq`, and `neq`, where there
is one, as the complement of `eq`. -/
structure Comparison.Coherent (holds : Comparison → Prop) (admitsNeq : Bool) : Prop where
  trichotomy : (holds .lt ∧ ¬ holds .eq ∧ ¬ holds .gt) ∨ (¬ holds .lt ∧ holds .eq ∧ ¬ holds .gt) ∨
    (¬ holds .lt ∧ ¬ holds .eq ∧ holds .gt)
  gte : holds .gte ↔ holds .gt ∨ holds .eq
  lte : holds .lte ↔ holds .lt ∨ holds .eq
  neq : admitsNeq = true → (holds .neq ↔ ¬ holds .eq)

theorem Comparison.mem_numeric {operator : Comparison}
    (h : operator ∈ [Comparison.lt, .lte, .eq, .gte, .gt]) {admitsNeq : Bool} :
    operator ∈ Comparison.numeric admitsNeq := by
  cases admitsNeq
  · exact h
  · exact List.mem_append_left [.neq] h

/-- Coherence speaks of the numeric comparisons only. -/
theorem Comparison.Coherent.congr {p q : Comparison → Prop} {admitsNeq : Bool}
    (h : ∀ operator ∈ Comparison.numeric admitsNeq, (p operator ↔ q operator)) :
    Comparison.Coherent p admitsNeq ↔ Comparison.Coherent q admitsNeq := by
  have key : ∀ {p q : Comparison → Prop},
      (∀ operator ∈ Comparison.numeric admitsNeq, (p operator ↔ q operator)) →
      Comparison.Coherent p admitsNeq → Comparison.Coherent q admitsNeq := by
    rintro p q h ⟨htri, hgte, hlte, hneq⟩
    have hlt := h .lt (mem_numeric (by decide))
    have hle := h .lte (mem_numeric (by decide))
    have heq := h .eq (mem_numeric (by decide))
    have hge := h .gte (mem_numeric (by decide))
    have hgt := h .gt (mem_numeric (by decide))
    refine ⟨by rwa [← hlt, ← heq, ← hgt], by rwa [← hge, ← hgt, ← heq],
      by rwa [← hle, ← hlt, ← heq], fun hb => ?_⟩
    rw [← h .neq (by simp [Comparison.numeric, hb]), ← heq]
    exact hneq hb
  exact ⟨key h, key fun operator ho => (h operator ho).symm⟩

/-- `_compare` on two finite numbers: the orderings are by value, and equality is too once
the types agree. -/
theorem compareFact_numbers {a t : Number} (ha : a.isFinite = true) (ht : t.isFinite = true)
    (numericOnly : Bool) :
    let holds operator := compareFact (some (.num a)) operator (.num t) numericOnly = some true
    (holds .lt ↔ a.toRat < t.toRat) ∧ (holds .lte ↔ a.toRat ≤ t.toRat) ∧
      (holds .gt ↔ t.toRat < a.toRat) ∧ (holds .gte ↔ t.toRat ≤ a.toRat) ∧
      (holds .eq ↔ a.isInt = t.isInt ∧ a.toRat = t.toRat) ∧
      (holds .neq ↔ a.isInt = t.isInt ∧ a.toRat ≠ t.toRat) := by
  have htype : pyType (.num a) = pyType (.num t) ↔ a.isInt = t.isInt := by
    cases a <;> cases t <;> simp [pyType, Number.isInt]
  have heq : (Json.num a).pyEq (.num t) = a.eq t := by
    rw [Json.pyEq]
    rfl
  simp [compareFact, number?, compareOrdered, htype, heq, Number.lt_iff ha ht,
    Number.lt_iff ht ha, Number.le_iff ha ht, Number.le_iff ht ha, ← Bool.not_eq_true,
    Number.eq_iff ha ht]

/-- The comparisons of two finite numbers are coherent exactly when the numbers have one
type or, where there is no `neq`, different values. -/
theorem coherent_compareFact_iff {a t : Number} (ha : a.isFinite = true) (ht : t.isFinite = true)
    (numericOnly admitsNeq : Bool) :
    Comparison.Coherent
        (fun operator => compareFact (some (.num a)) operator (.num t) numericOnly = some true)
        admitsNeq ↔
      a.isInt = t.isInt ∨ (admitsNeq = false ∧ a.eq t = false) := by
  obtain ⟨hlt, hlte, hgt, hgte, heq, hneq⟩ := compareFact_numbers ha ht numericOnly
  beta_reduce at hlt hlte hgt hgte heq hneq
  rw [← Bool.not_eq_true (a.eq t), Number.eq_iff ha ht]
  constructor
  · rintro ⟨htri, -, -, hn⟩
    rw [hlt, heq, hgt] at htri
    rw [heq, hneq] at hn
    by_cases hty : a.isInt = t.isInt
    · exact .inl hty
    · refine .inr ⟨?_, ?_⟩
      · -- with two types neither `eq` nor `neq` matches
        cases hb : admitsNeq
        · rfl
        · exact absurd (hn hb) (by simp [hty])
      · intro hval
        simp [hty, hval] at htri
  · intro h
    refine ⟨?_, ?_, ?_, ?_⟩
    · rw [hlt, heq, hgt]
      rcases lt_trichotomy a.toRat t.toRat with hv | hv | hv
      · exact .inl ⟨hv, fun he => hv.ne he.2, hv.asymm⟩
      · have hty : a.isInt = t.isInt := h.resolve_right fun hd => hd.2 hv
        exact .inr (.inl ⟨hv.not_lt, ⟨hty, hv⟩, hv.not_gt⟩)
      · exact .inr (.inr ⟨hv.asymm, fun he => hv.ne' he.2, hv⟩)
    · rw [hgte, hgt, heq, le_iff_lt_or_eq]
      refine or_congr_right ⟨fun he => ⟨?_, he.symm⟩, fun he => he.2.symm⟩
      exact h.resolve_right fun hd => hd.2 he.symm
    · rw [hlte, hlt, heq, le_iff_lt_or_eq]
      refine or_congr_right ⟨fun he => ⟨?_, he⟩, fun he => he.2⟩
      exact h.resolve_right fun hd => hd.2 he
    · intro hb
      have hty : a.isInt = t.isInt := h.resolve_right fun hd => by simp [hb] at hd
      rw [hneq, heq]
      simp [hty]

/-! ## The forms of a numeric comparison -/

/-- Where a condition compares a number with a threshold: a leaf on a fact, `label_score`
on a fact, or a label condition on the message's label or on the label of one media
entry. -/
inductive NumericForm
  | leaf (fact : String)
  | labelScore (fact : String)
  | label (ns key : String)
  | media (ns key : String) (entry : List (String × Json))

namespace NumericForm

/-- A label payload with one score comparison. -/
def payload (ns scope key : String) (operator : Comparison) (threshold : Number) : Json :=
  .obj [("namespace", .str ns), ("scope", .str scope), ("key", .str key),
    ("score_" ++ operator.name, .num threshold)]

/-- The condition of a form. -/
def condition (form : NumericForm) (operator : Comparison) (threshold : Number) : Json :=
  match form with
  | leaf fact => comparisonOf fact operator.name (.num threshold)
  | labelScore fact => labelScoreOf fact operator.name (.num threshold)
  | label ns key => .obj [("label", payload ns "global" key operator threshold)]
  | media ns key _ => anyMediaOf (.obj [("label", payload ns "media" key operator threshold)])

/-- The score of a label. -/
def scoreOf (value : Option Json) : Option Json :=
  match value with
  | some (.obj fields) => fields.lookup "score"
  | _ => none

/-- The value the form compares. -/
def operand (form : NumericForm) (facts : Facts) : Option Json :=
  match form with
  | leaf fact | labelScore fact => resolveFact facts fact
  | label ns key => scoreOf (resolveFact facts ("labels." ++ ns ++ ".global." ++ key))
  | media _ key entry =>
    match entry.lookup "labels" with
    | some (.obj labels) => scoreOf (labels.lookup key)
    | _ => none

/-- The form has `neq`. -/
def admitsNeq : NumericForm → Bool
  | leaf _ | labelScore _ => true
  | label _ _ | media _ _ _ => false

/-- The numeric comparisons the form has. -/
def operators (form : NumericForm) : List Comparison :=
  Comparison.numeric form.admitsNeq

/-- The form compares numbers only. -/
def numericOnly : NumericForm → Bool
  | leaf _ => false
  | labelScore _ | label _ _ | media _ _ _ => true

/-- The comparison matches; on a media entry, the label condition does for that entry. -/
def Matches (form : NumericForm) (facts : Facts) (threshold : Number) (operator : Comparison) :
    Prop :=
  match form with
  | media ns key entry =>
    evaluateLabel facts (payload ns "media" key operator threshold) (.obj entry) = .ok (some true)
  | form => evaluateCondition (form.condition operator threshold) facts = true

/-- Every comparison of the form is accepted with the threshold. -/
def Accepts (form : NumericForm) (threshold : Number) : Prop :=
  ∀ operator ∈ form.operators, validateCondition (form.condition operator threshold) none = .ok ()

theorem decodeLabel_payload {operator : Comparison}
    (h : operator ∈ [Comparison.lt, .lte, .eq, .gte, .gt]) (ns scope key : String)
    (threshold : Number) :
    decodeLabel (payload ns scope key operator threshold) =
      some ⟨ns, key, .score operator threshold⟩ := by
  simp only [List.mem_cons, List.not_mem_nil, or_false] at h
  rcases h with rfl | rfl | rfl | rfl | rfl <;>
    simp [payload, decodeLabel, selectedComparison, labelComparisons, Dict.lookup_cons, string?,
      number?, Comparison.name]

instance (form : NumericForm) (threshold : Number) : Decidable (form.Accepts threshold) :=
  inferInstanceAs (Decidable (∀ operator ∈ form.operators,
    validateCondition (form.condition operator threshold) none = .ok ()))

/-- On a number, a form's comparison matches when `_compare` is true. -/
theorem matches_iff {form : NumericForm} {facts : Facts} {a threshold : Number}
    (h : form.operand facts = some (.num a)) (haccepts : form.Accepts threshold)
    {operator : Comparison} (ho : operator ∈ form.operators) :
    form.Matches facts threshold operator ↔
      compareFact (some (.num a)) operator (.num threshold) form.numericOnly = some true := by
  have hvalid := haccepts operator ho
  cases form with
  | leaf fact =>
    obtain ⟨c, hc, heval⟩ := evaluateCondition_of_validate hvalid
    have hd := decode_comparisonOf operator.ofString?_name fact (.num threshold)
    obtain rfl := Option.some.inj (hd.symm.trans hc)
    rw [← h]
    exact (heval facts).2
  | labelScore fact =>
    obtain ⟨c, hc, heval⟩ := evaluateCondition_of_validate hvalid
    have hd := decode_labelScoreOf operator.ofString?_name fact (.num threshold)
    obtain rfl := Option.some.inj (hd.symm.trans hc)
    rw [← h]
    exact (heval facts).2
  | label ns key =>
    obtain ⟨c, hc, heval⟩ := evaluateCondition_of_validate hvalid
    have hl := decodeLabel_payload ho ns "global" key threshold
    have hd : decode (condition (label ns key) operator threshold) =
        some (.label ⟨ns, key, .score operator threshold⟩) := by
      unfold decode
      simp [condition, isLeaf, Dict.keys, Operator.ofString?, hl]
    obtain rfl := Option.some.inj (hd.symm.trans hc)
    refine (heval facts).2.trans ?_
    simp only [operand, scoreOf] at h
    rw [Condition.eval, LabelCondition.evalGlobal, LabelCondition.globalPath]
    split at h
    case h_1 fields hr => rw [hr, LabelCondition.evalValue, LabelTest.eval, h, numericOnly]
    case h_2 => cases h
  | media ns key entry =>
    have hl := decodeLabel_payload ho ns "media" key threshold
    rw [Matches, evaluateLabel_of_decodeLabel hl, Except.ok.injEq]
    simp only [operand] at h
    split at h
    case h_1 labels hlabels =>
      rw [LabelCondition.evalEntry, hlabels]
      dsimp only
      unfold scoreOf at h
      split at h
      case h_1 fields hr => rw [hr, LabelCondition.evalValue, LabelTest.eval, h, numericOnly]
      case h_2 => cases h
    case h_2 => cases h

theorem isFinite_of_validateComparisonPayload {fact op : String} {t : Number} {numericOnly : Bool}
    (h : validateComparisonPayload none numericOnly (comparisonOf fact op (.num t)) = .ok ()) :
    t.isFinite = true := by
  simp only [validateComparisonPayload, seq_eq_ok] at h
  obtain ⟨-, -, h⟩ := h
  obtain ⟨known, -, h⟩ := bind_eq_ok.mp h
  obtain ⟨-, h⟩ := seq_eq_ok.mp h
  obtain ⟨-, h⟩ := seq_eq_ok.mp h
  obtain ⟨json, hjson, h⟩ := bind_eq_ok.mp h
  obtain ⟨hfinite, -⟩ := seq_eq_ok.mp h
  obtain rfl := ensure_eq_ok.mp hfinite
  cases t <;> first | rfl | cases hjson

theorem isFinite_of_validateLabelPayload {ns scope key : String} {t : Number} {mediaContext : Bool}
    (h : validateLabelPayload mediaContext (payload ns scope key .eq t) = .ok ()) :
    t.isFinite = true := by
  simp only [validateLabelPayload, payload, seq_eq_ok] at h
  obtain ⟨-, h⟩ := h
  obtain ⟨known, -, h⟩ := bind_eq_ok.mp h
  simp only [seq_eq_ok] at h
  obtain ⟨-, -, -, -, -, h⟩ := h
  have hnames : selectedNames [("namespace", .str ns), ("scope", .str scope), ("key", .str key),
      ("score_" ++ Comparison.name .eq, .num t)] = ["score_eq"] := rfl
  rw [hnames] at h
  cases t <;> first | rfl | cases h

/-- A threshold the form accepts is finite. -/
theorem isFinite_of_accepts {form : NumericForm} {threshold : Number}
    (h : form.Accepts threshold) : threshold.isFinite = true := by
  cases form with
  | leaf fact =>
    have heq := h .eq (Comparison.mem_numeric (by decide))
    simp only [condition, validateCondition, validate, seq_eq_ok] at heq
    exact isFinite_of_validateComparisonPayload heq.2
  | labelScore fact =>
    have heq := h .eq (Comparison.mem_numeric (by decide))
    simp only [condition, validateCondition, validate, seq_eq_ok] at heq
    exact isFinite_of_validateComparisonPayload heq.2
  | label ns key =>
    have heq := h .eq (Comparison.mem_numeric (by decide))
    simp only [condition, validateCondition, validate, seq_eq_ok] at heq
    exact isFinite_of_validateLabelPayload heq.2
  | media ns key entry =>
    have heq := h .eq (Comparison.mem_numeric (by decide))
    simp only [condition, validateCondition, validate, seq_eq_ok] at heq
    obtain ⟨-, hmedia⟩ := heq
    exact isFinite_of_validateLabelPayload (seq_eq_ok.mp hmedia).2

/-- The comparisons of a finite number with an accepted threshold are coherent exactly
when the two have one type or, in a label condition, different values. -/
theorem coherent_iff {form : NumericForm} {facts : Facts} {a threshold : Number}
    (h : form.operand facts = some (.num a)) (ha : a.isFinite = true)
    (haccepts : form.Accepts threshold) :
    Comparison.Coherent (form.Matches facts threshold) form.admitsNeq ↔
      a.isInt = threshold.isInt ∨ (form.admitsNeq = false ∧ a.eq threshold = false) :=
  (Comparison.Coherent.congr fun _ ho => matches_iff h haccepts ho).trans
    (coherent_compareFact_iff ha (isFinite_of_accepts haccepts) _ _)

/-- The score 1.0 and the accepted threshold 1: the weak comparisons match, and neither
`eq` nor a strict comparison does. -/
theorem not_coherent_integer_threshold :
    let form := NumericForm.label "effective" "nsfw"
    let facts := [("labels", Json.obj [("effective", .obj [("global", .obj [("nsfw",
      .obj [("score", .num (.float 1))])])])])]
    form.Accepts (.int 1) ∧ ¬ Comparison.Coherent (form.Matches facts (.int 1)) form.admitsNeq := by
  intro form facts
  have hmatch : evaluateCondition (form.condition .gte (.int 1)) facts = true ∧
      evaluateCondition (form.condition .gt (.int 1)) facts = false ∧
      evaluateCondition (form.condition .eq (.int 1)) facts = false := by
    decide +kernel
  refine ⟨by decide +kernel, fun h => ?_⟩
  rcases h.gte.mp hmatch.1 with hgt | heq
  · exact Bool.noConfusion (hgt.symm.trans hmatch.2.1)
  · exact Bool.noConfusion (heq.symm.trans hmatch.2.2)

/-- Two integers, in a leaf. -/
theorem coherent_iff_integers :
    Comparison.Coherent ((NumericForm.leaf "count").Matches [("count", .num (.int 3))] (.int 2))
      true :=
  (@coherent_iff (.leaf "count") _ (.int 3) _ rfl rfl (by decide +kernel)).mpr (.inl rfl)

end NumericForm

end TgCurator
