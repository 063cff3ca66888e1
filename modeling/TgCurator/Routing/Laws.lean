import Mathlib.Data.List.Perm.Basic
import Mathlib.Logic.Relation
import TgCurator.Routing.Condition

/-!
# The laws of the condition language

What a dashboard author may rely on when rewriting a condition. Evaluation does not
depend on the order of the children of `all` and `any`, at any depth
(`decode_of_reorder`), nor on the order of the items of any dictionary of the facts, the
media dictionary among them (`Condition.eval_canonical`). Negation is an involution,
exchanges `all` and `any`, and turns `any_media` into `none_media`. Together with
`evaluate_of_decode` this makes the evaluator strong Kleene logic over its leaf results
(`evaluate_strongKleene`).
-/

namespace TgCurator

/-! ## The order of dictionary items -/

open Json

@[simp] theorem pyType_canonical (j : Json) : pyType j.canonical = pyType j := by
  cases j <;> simp [canonical, pyType]

@[simp] theorem number?_canonical (j : Json) : number? j.canonical = number? j := by
  cases j <;> simp [canonical, number?]

/-- A comparison does not see the order of items in the value it compares. -/
theorem compareFact_canonical (actual : Option Json) (operator : Comparison) (expected : Json)
    (numericOnly : Bool) :
    compareFact (actual.map canonical) operator expected numericOnly =
      compareFact actual operator expected numericOnly := by
  cases actual with
  | none => rfl
  | some actual =>
    have hcan := pyEq_canonical actual
    have hnum := number?_canonical actual
    have hty := pyType_canonical actual
    cases actual with
    | arr items =>
      rw [canonical_arr] at hcan hnum hty
      have hitems : ∀ e, (items.map canonical).any (fun item => item.pyEq e) =
          items.any fun item => item.pyEq e := by
        intro e
        rw [List.any_map]
        exact congrArg items.any (funext fun item => pyEq_canonical item e)
      simp only [Option.map_some, canonical_arr, compareFact, hcan, hnum, hty, hitems]
    | obj entries =>
      rw [canonical_obj] at hcan hnum hty
      simp only [Option.map_some, canonical_obj, compareFact, hcan, hnum, hty]
    | _ => simp only [Option.map_some, canonical]

theorem wf_lookup {entries : List (String × Json)} (h : (Json.obj entries).WF) {k : String}
    {v : Json} (hv : entries.lookup k = some v) : v.WF := by
  rw [WF, wfEntries_iff] at h
  exact h.2 (k, v) (Dict.mem_of_lookup hv)

theorem lookup_canonical {entries : List (String × Json)} (h : (Json.obj entries).WF)
    (k : String) : (canonicalEntries entries).lookup k = (entries.lookup k).map canonical :=
  lookup_canonicalEntries (by rw [WF] at h; exact h.1) k

/-- A path leads to the same place, and to a well-formed value. -/
theorem resolvePath_canonical (path : List String) : ∀ {j : Json}, j.WF →
    resolvePath j.canonical path = (resolvePath j path).map canonical ∧
      ∀ v, resolvePath j path = some v → v.WF := by
  induction path with
  | nil => exact fun h => ⟨rfl, fun v hv => by cases hv; exact h⟩
  | cons component path ih =>
    intro j h
    cases j with
    | obj entries =>
      rw [canonical_obj, resolvePath, resolvePath, lookup_canonical h]
      cases hl : entries.lookup component with
      | none => exact ⟨rfl, fun v hv => by cases hv⟩
      | some next => exact ih (wf_lookup h hl)
    | _ => simp [resolvePath, canonical]

theorem resolveFact_canonical {facts : Facts} (h : (Json.obj facts).WF) (fact : String) :
    resolveFact (canonicalEntries facts) fact = (resolveFact facts fact).map canonical ∧
      ∀ v, resolveFact facts fact = some v → v.WF := by
  have hpath := resolvePath_canonical (splitDots fact) h
  unfold resolveFact
  rw [lookup_canonical h]
  cases hl : facts.lookup fact with
  | none => exact ⟨by simpa using hpath.1, hpath.2⟩
  | some value => exact ⟨rfl, fun v hv => by cases hv; exact wf_lookup h hl⟩

namespace LabelCondition

theorem evalValue_canonical (l : LabelCondition) {value : Option Json}
    (h : ∀ v, value = some v → v.WF) :
    l.evalValue (value.map canonical) = l.evalValue value := by
  cases value with
  | none => rfl
  | some value =>
    cases value with
    | obj label =>
      simp only [Option.map_some, canonical_obj, evalValue]
      cases l.test with
      | activated =>
        simp only [LabelTest.eval, lookup_canonical (h _ rfl)]
        cases label.lookup "activated" with
        | none => rfl
        | some j => cases j <;> simp [canonical]
      | score operator threshold =>
        simp only [LabelTest.eval, lookup_canonical (h _ rfl), compareFact_canonical]
    | _ => simp [evalValue, canonical]

theorem evalGlobal_canonical (l : LabelCondition) {facts : Facts} (h : (Json.obj facts).WF) :
    l.evalGlobal (canonicalEntries facts) = l.evalGlobal facts := by
  obtain ⟨heq, hwf⟩ := resolveFact_canonical h l.globalPath
  rw [evalGlobal, heq, l.evalValue_canonical hwf, evalGlobal]

theorem evalEntry_canonical (l : LabelCondition) {facts : Facts} (h : (Json.obj facts).WF)
    {entry : Json} (hentry : entry.WF) :
    l.evalEntry (canonicalEntries facts) entry.canonical = l.evalEntry facts entry := by
  cases entry with
  | null => simpa [evalEntry, canonical] using l.evalGlobal_canonical h
  | obj entry =>
    simp only [canonical_obj, evalEntry, lookup_canonical hentry]
    cases hl : entry.lookup "labels" with
    | none => rfl
    | some labels =>
      have hlabels := wf_lookup hentry hl
      cases labels with
      | obj labels =>
        simp only [Option.map_some, canonical_obj, lookup_canonical hlabels]
        exact l.evalValue_canonical fun v hv => wf_lookup hlabels hv
      | _ => simp [canonical]
  | _ => simp [evalEntry, canonical]

/-- A quantifier does not see the order of the media entries. -/
theorem evalAny_canonical (l : LabelCondition) {facts : Facts} (h : (Json.obj facts).WF) :
    l.evalAny (canonicalEntries facts) = l.evalAny facts := by
  obtain ⟨heq, hwf⟩ := resolveFact_canonical h l.mediaPath
  rw [evalAny, evalAny, mediaResults, mediaResults, heq]
  cases hr : resolveFact facts l.mediaPath with
  | none => rfl
  | some media =>
    have hmedia := hwf media hr
    cases media with
    | obj media =>
      rw [WF, wfEntries_iff] at hmedia
      simp only [Option.map_some, canonical_obj, Option.bind_some]
      refine Kleene.any_perm ((((canonicalEntries_perm media).map Prod.snd).map _).trans ?_)
      refine List.Perm.of_eq ?_
      rw [List.map_map, List.map_map, Dict.values, List.map_map]
      exact List.map_congr_left fun e he => l.evalEntry_canonical h (hmedia.2 e he)
    | _ => simp [canonical]

end LabelCondition

namespace Condition

mutual

/-- Evaluation does not see the order of the items of any dictionary of the facts. -/
theorem eval_canonical {facts : Facts} (h : (Json.obj facts).WF) :
    ∀ c : Condition, c.eval (canonicalEntries facts) = c.eval facts
  | exist fact => by
    rw [eval, eval, (resolveFact_canonical h fact).1, Option.map_map]
    exact congrArg (Option.map · _) (funext fun v => by simp)
  | compare fact operator value numericOnly => by
    rw [eval, eval, (resolveFact_canonical h fact).1, compareFact_canonical]
  | present fact minimum => by
    rw [eval, eval, (resolveFact_canonical h fact).1, Option.bind_map]
    exact congrArg (Option.map _ <| Option.bind _ ·) (funext fun v => by simp)
  | label l => by rw [eval, eval, l.evalGlobal_canonical h]
  | anyMedia l => by rw [eval, eval, l.evalAny_canonical h]
  | noneMedia l => by rw [eval, eval, l.evalAny_canonical h]
  | all children => by rw [eval, eval, evalList_canonical h children]
  | any children => by rw [eval, eval, evalList_canonical h children]
  | not c => by rw [eval, eval, eval_canonical h c]

theorem evalList_canonical {facts : Facts} (h : (Json.obj facts).WF) :
    ∀ children : List Condition,
      evalList (canonicalEntries facts) children = evalList facts children
  | [] => rfl
  | c :: children => by
    rw [evalList, evalList, eval_canonical h c, evalList_canonical h children]

end

end Condition

/-! ## The order of children -/

/-- `{"all": [...]}`. -/
abbrev allOf (children : List Json) : Json := .obj [("all", .arr children)]

/-- `{"any": [...]}`. -/
abbrev anyOf (children : List Json) : Json := .obj [("any", .arr children)]

/-- `{"not": ...}`. -/
abbrev notOf (condition : Json) : Json := .obj [("not", condition)]

/-- `{"any_media": ...}`. -/
abbrev anyMediaOf (payload : Json) : Json := .obj [("any_media", payload)]

/-- `{"none_media": ...}`. -/
abbrev noneMediaOf (payload : Json) : Json := .obj [("none_media", payload)]

theorem decode_allOf (children : List Json) :
    decode (allOf children) = (decodeList children).map Condition.all := by
  unfold decode
  rfl

theorem decode_anyOf (children : List Json) :
    decode (anyOf children) = (decodeList children).map Condition.any := by
  unfold decode
  rfl

theorem decode_notOf (condition : Json) :
    decode (notOf condition) = (decode condition).map Condition.not := by
  conv_lhs => unfold decode
  rfl

theorem decode_anyMediaOf (payload : Json) :
    decode (anyMediaOf payload) = (decodeMedia payload).map Condition.anyMedia := by
  unfold decode
  rfl

theorem decode_noneMediaOf (payload : Json) :
    decode (noneMediaOf payload) = (decodeMedia payload).map Condition.noneMedia := by
  unfold decode
  rfl

/-- One change of the order of children, anywhere in a condition. -/
inductive Reorder : Json → Json → Prop
  | all {cs ds : List Json} (h : cs.Perm ds) : Reorder (allOf cs) (allOf ds)
  | any {cs ds : List Json} (h : cs.Perm ds) : Reorder (anyOf cs) (anyOf ds)
  | inAll (before after : List Json) {c d : Json} (h : Reorder c d) :
      Reorder (allOf (before ++ c :: after)) (allOf (before ++ d :: after))
  | inAny (before after : List Json) {c d : Json} (h : Reorder c d) :
      Reorder (anyOf (before ++ c :: after)) (anyOf (before ++ d :: after))
  | inNot {c d : Json} (h : Reorder c d) : Reorder (notOf c) (notOf d)

theorem decodeList_eq_some {children : List Json} {cs : List Condition} :
    decodeList children = some cs ↔ List.Forall₂ (fun j c => decode j = some c) children cs := by
  induction children generalizing cs with
  | nil => simp [decodeList, eq_comm]
  | cons child children ih =>
    simp only [decodeList, bind, Option.bind_eq_some_iff, pure, Option.some.injEq, ih,
      List.forall₂_cons_left_iff]
    constructor
    · rintro ⟨c, hc, cs, hcs, rfl⟩
      exact ⟨c, cs, hc, hcs, rfl⟩
    · rintro ⟨c, cs, hc, hcs, rfl⟩
      exact ⟨c, hc, cs, hcs, rfl⟩

/-- Permuted children decode to permuted trees. -/
theorem decodeList_of_perm {children children' : List Json} (h : children.Perm children')
    {cs : List Condition} (hcs : decodeList children = some cs) :
    ∃ cs', decodeList children' = some cs' ∧ cs'.Perm cs := by
  obtain ⟨cs', h', hperm⟩ := List.perm_comp_forall₂ h.symm (decodeList_eq_some.mp hcs)
  exact ⟨cs', decodeList_eq_some.mpr h', hperm⟩

/-- One child is replaced by one with the same meaning. -/
theorem decodeList_of_replace {c d : Json}
    (h : ∀ a, decode c = some a → ∃ b, decode d = some b ∧ ∀ facts, b.eval facts = a.eval facts)
    (after : List Json) : ∀ {before : List Json} {cs : List Condition},
      decodeList (before ++ c :: after) = some cs → ∃ ds,
        decodeList (before ++ d :: after) = some ds ∧
          ∀ facts, Condition.evalList facts ds = Condition.evalList facts cs
  | [], cs, hcs => by
    simp only [List.nil_append, decodeList, bind, Option.bind_eq_some_iff, pure,
      Option.some.injEq] at hcs
    obtain ⟨a, ha, rest, hrest, rfl⟩ := hcs
    obtain ⟨b, hb, heval⟩ := h a ha
    refine ⟨b :: rest, by simp [decodeList, hb, hrest], fun facts => ?_⟩
    rw [Condition.evalList, Condition.evalList, heval]
  | child :: before, cs, hcs => by
    simp only [List.cons_append, decodeList, bind, Option.bind_eq_some_iff, pure,
      Option.some.injEq] at hcs
    obtain ⟨a, ha, rest, hrest, rfl⟩ := hcs
    obtain ⟨ds, hds, heval⟩ := decodeList_of_replace h after hrest
    refine ⟨a :: ds, by simp [decodeList, ha, hds], fun facts => ?_⟩
    rw [Condition.evalList, Condition.evalList, heval]

/-- A reordered condition decodes to a tree with the same meaning. -/
theorem decode_of_reorder {c d : Json} (h : Reorder c d) :
    ∀ a, decode c = some a → ∃ b, decode d = some b ∧ ∀ facts, b.eval facts = a.eval facts := by
  induction h with
  | all h =>
    intro a ha
    obtain ⟨cs, hcs, rfl⟩ := Option.map_eq_some_iff.mp (decode_allOf _ ▸ ha)
    obtain ⟨ds, hds, hperm⟩ := decodeList_of_perm h hcs
    refine ⟨.all ds, by rw [decode_allOf, hds, Option.map_some], fun facts => ?_⟩
    simp only [Condition.eval, Condition.evalList_eq_map]
    exact Kleene.all_perm (hperm.map _)
  | any h =>
    intro a ha
    obtain ⟨cs, hcs, rfl⟩ := Option.map_eq_some_iff.mp (decode_anyOf _ ▸ ha)
    obtain ⟨ds, hds, hperm⟩ := decodeList_of_perm h hcs
    refine ⟨.any ds, by rw [decode_anyOf, hds, Option.map_some], fun facts => ?_⟩
    simp only [Condition.eval, Condition.evalList_eq_map]
    exact Kleene.any_perm (hperm.map _)
  | inAll before after _ ih =>
    intro a ha
    obtain ⟨cs, hcs, rfl⟩ := Option.map_eq_some_iff.mp (decode_allOf _ ▸ ha)
    obtain ⟨ds, hds, heval⟩ := decodeList_of_replace ih after hcs
    refine ⟨.all ds, by rw [decode_allOf, hds, Option.map_some], fun facts => ?_⟩
    rw [Condition.eval, heval, Condition.eval]
  | inAny before after _ ih =>
    intro a ha
    obtain ⟨cs, hcs, rfl⟩ := Option.map_eq_some_iff.mp (decode_anyOf _ ▸ ha)
    obtain ⟨ds, hds, heval⟩ := decodeList_of_replace ih after hcs
    refine ⟨.any ds, by rw [decode_anyOf, hds, Option.map_some], fun facts => ?_⟩
    rw [Condition.eval, heval, Condition.eval]
  | inNot _ ih =>
    intro a ha
    obtain ⟨c, hc, rfl⟩ := Option.map_eq_some_iff.mp (decode_notOf _ ▸ ha)
    obtain ⟨d, hd, heval⟩ := ih c hc
    refine ⟨.not d, by rw [decode_notOf, hd, Option.map_some], fun facts => ?_⟩
    rw [Condition.eval, heval, Condition.eval]

/-- Any number of changes of the order of children. -/
theorem decode_of_reorders {c d : Json} (h : Relation.ReflTransGen Reorder c d) {a : Condition}
    (ha : decode c = some a) :
    ∃ b, decode d = some b ∧ ∀ facts, b.eval facts = a.eval facts := by
  induction h with
  | refl => exact ⟨a, ha, fun _ => rfl⟩
  | tail _ hstep ih =>
    obtain ⟨b, hb, heval⟩ := ih
    obtain ⟨e, he, heval'⟩ := decode_of_reorder hstep b hb
    exact ⟨e, he, fun facts => (heval' facts).trans (heval facts)⟩

/-! ## Negation -/

theorem decodeList_map_notOf {children : List Json} {cs : List Condition}
    (h : decodeList children = some cs) :
    decodeList (children.map notOf) = some (cs.map Condition.not) := by
  rw [decodeList_eq_some, List.forall₂_map_left_iff, List.forall₂_map_right_iff]
  refine (decodeList_eq_some.mp h).imp fun j c hc => ?_
  rw [decode_notOf, hc, Option.map_some]

/-- Two raw conditions evaluate alike when their trees have the same meaning. -/
theorem evaluate_congr {c d : Json} {a b : Condition} (hc : decode c = some a)
    (hd : decode d = some b) {facts : Facts} (h : a.eval facts = b.eval facts) :
    evaluate facts c = evaluate facts d := by
  rw [evaluate_of_decode facts hc, evaluate_of_decode facts hd, h]

theorem evaluate_notOf_notOf {condition : Json} {c : Condition} (h : decode condition = some c)
    (facts : Facts) : evaluate facts (notOf (notOf condition)) = evaluate facts condition := by
  refine evaluate_congr (b := c) (a := .not (.not c)) ?_ h ?_
  · rw [decode_notOf, decode_notOf, h]
    rfl
  · rw [Condition.eval, Condition.eval, Kleene.neg_neg]

/-- De Morgan's law for `all`. -/
theorem evaluate_notOf_allOf {children : List Json} {cs : List Condition}
    (h : decodeList children = some cs) (facts : Facts) :
    evaluate facts (notOf (allOf children)) = evaluate facts (anyOf (children.map notOf)) := by
  refine evaluate_congr (a := .not (.all cs)) (b := .any (cs.map .not)) ?_ ?_ ?_
  · rw [decode_notOf, decode_allOf, h]
    rfl
  · rw [decode_anyOf, decodeList_map_notOf h]
    rfl
  · simp only [Condition.eval, Condition.evalList_eq_map, Kleene.neg_all, List.map_map]
    exact congrArg Kleene.any (List.map_congr_left fun c _ => by simp [Condition.eval])

/-- De Morgan's law for `any`. -/
theorem evaluate_notOf_anyOf {children : List Json} {cs : List Condition}
    (h : decodeList children = some cs) (facts : Facts) :
    evaluate facts (notOf (anyOf children)) = evaluate facts (allOf (children.map notOf)) := by
  refine evaluate_congr (a := .not (.any cs)) (b := .all (cs.map .not)) ?_ ?_ ?_
  · rw [decode_notOf, decode_anyOf, h]
    rfl
  · rw [decode_allOf, decodeList_map_notOf h]
    rfl
  · simp only [Condition.eval, Condition.evalList_eq_map, Kleene.neg_any, List.map_map]
    exact congrArg Kleene.all (List.map_congr_left fun c _ => by simp [Condition.eval])

/-- The two media quantifiers are negations of each other. -/
theorem evaluate_noneMediaOf {payload : Json} {l : LabelCondition}
    (h : decodeMedia payload = some l) (facts : Facts) :
    evaluate facts (noneMediaOf payload) = evaluate facts (notOf (anyMediaOf payload)) := by
  refine evaluate_congr (a := .noneMedia l) (b := .not (.anyMedia l)) ?_ ?_ ?_
  · rw [decode_noneMediaOf, h, Option.map_some]
  · rw [decode_notOf, decode_anyMediaOf, h]
    rfl
  · rw [Condition.eval, Condition.eval, Condition.eval]

/-- A condition and its negation do not both match. -/
theorem not_both_match (condition : Json) (facts : Facts) :
    ¬ (evaluateCondition condition facts = true ∧
      evaluateCondition (notOf condition) facts = true) := by
  rintro ⟨h, hnot⟩
  unfold evaluateCondition at h hnot
  cases hv : validate none 0 condition with
  | error e => simp [hv] at h
  | ok u =>
    obtain ⟨c, hc⟩ := decode_of_validate hv
    have hn : decode (notOf condition) = some (.not c) := by rw [decode_notOf, hc, Option.map_some]
    simp only [hv, evaluate_of_decode facts hc, decide_eq_true_eq, Except.ok.injEq] at h
    cases hv' : validate none 0 (notOf condition) with
    | error e => simp [hv'] at hnot
    | ok u => simp [hv', evaluate_of_decode facts hn, Condition.eval, h] at hnot

/-- The evaluator is strong Kleene logic over its leaf results: an accepted condition
evaluates to the meaning of its tree; the order of children and the order of dictionary
items do not matter; double negation and De Morgan's laws hold of the three-valued
results; `none_media` is the negation of `any_media`; and no condition matches together
with its negation. -/
theorem evaluate_strongKleene {condition : Json} {allowedFactKeys : Option (List String)}
    (h : validateCondition condition allowedFactKeys = .ok ()) :
    (∃ c, decode condition = some c ∧ ∀ facts, evaluate facts condition = .ok (c.eval facts)) ∧
    (∀ condition', Relation.ReflTransGen Reorder condition condition' →
      ∀ facts, evaluate facts condition' = evaluate facts condition) ∧
    (∀ facts facts' : Facts, (Json.obj facts).WF → (Json.obj facts').WF →
      (Json.obj facts).canonical = (Json.obj facts').canonical →
      evaluate facts condition = evaluate facts' condition) ∧
    (∀ facts, evaluate facts (notOf (notOf condition)) = evaluate facts condition) ∧
    (∀ children, condition = allOf children → ∀ facts,
      evaluate facts (notOf condition) = evaluate facts (anyOf (children.map notOf))) ∧
    (∀ children, condition = anyOf children → ∀ facts,
      evaluate facts (notOf condition) = evaluate facts (allOf (children.map notOf))) ∧
    (∀ payload, condition = noneMediaOf payload → ∀ facts,
      evaluate facts condition = evaluate facts (notOf (anyMediaOf payload))) ∧
    (∀ facts, ¬ (evaluateCondition condition facts = true ∧
      evaluateCondition (notOf condition) facts = true)) := by
  obtain ⟨c, hc⟩ := decode_of_validate h
  refine ⟨⟨c, hc, fun facts => evaluate_of_decode facts hc⟩, ?_, ?_,
    evaluate_notOf_notOf hc, ?_, ?_, ?_, not_both_match condition⟩
  · intro condition' hreorder facts
    obtain ⟨d, hd, heval⟩ := decode_of_reorders hreorder hc
    exact evaluate_congr hd hc (heval facts)
  · intro facts facts' hwf hwf' hcan
    have hitems : canonicalEntries facts = canonicalEntries facts' := by
      simpa only [canonical_obj, Json.obj.injEq] using hcan
    rw [evaluate_of_decode facts hc, evaluate_of_decode facts' hc, ← c.eval_canonical hwf, hitems,
      c.eval_canonical hwf']
  · rintro children rfl
    obtain ⟨cs, hcs, -⟩ := Option.map_eq_some_iff.mp (decode_allOf _ ▸ hc)
    exact evaluate_notOf_allOf hcs
  · rintro children rfl
    obtain ⟨cs, hcs, -⟩ := Option.map_eq_some_iff.mp (decode_anyOf _ ▸ hc)
    exact evaluate_notOf_anyOf hcs
  · rintro payload rfl
    obtain ⟨l, hl, -⟩ := Option.map_eq_some_iff.mp (decode_noneMediaOf _ ▸ hc)
    exact evaluate_noneMediaOf hl

/-- A disjunction over a fact and a media label, with its children swapped. -/
theorem evaluate_strongKleene_swap :
    evaluate [("labels", .obj []), ("seen", .bool true)]
        (anyOf [noneMediaOf (.obj [("label", .obj [("namespace", .str "effective"),
          ("key", .str "nsfw"), ("score_gte", .num (.float 1))])]),
          .obj [("fact", .str "seen"), ("op", .str "exists")]]) =
      evaluate [("labels", .obj []), ("seen", .bool true)]
        (anyOf [.obj [("fact", .str "seen"), ("op", .str "exists")],
          noneMediaOf (.obj [("label", .obj [("namespace", .str "effective"),
            ("key", .str "nsfw"), ("score_gte", .num (.float 1))])])]) :=
  (@evaluate_strongKleene _ none rfl).2.1 _
    (.single (.any (List.Perm.swap _ _ _))) _

end TgCurator
