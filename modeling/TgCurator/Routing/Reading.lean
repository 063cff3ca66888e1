import Mathlib.Data.Set.Finite.Basic
import TgCurator.Routing.LabelConditions

/-!
# What a condition reads

The facts a condition names are the paths of its predicates, of its message-level labels
and of the media dictionaries it quantifies over (`Condition.paths`).

Evaluation is monotone in the facts: a result that is known stays when more facts resolve
(`known_stays_known`). It is not a function of the named facts alone. A media entry that
is null is read as no entry at all, and the label is looked up among the message-level
ones (`exists_reads_unnamed`). Conditions read only what they name exactly on the maps
without a null entry in a media dictionary (`reads_named_iff`).

`Condition.Accepted` is what is left of the validator's checks on the tree of an accepted
condition.
-/

namespace TgCurator

/-! ## Paths -/

namespace Condition

mutual

/-- The fact paths a condition names. -/
def paths : Condition → List String
  | exist fact => [fact]
  | compare fact _ _ _ => [fact]
  | present fact _ => [fact]
  | label l => [l.globalPath]
  | anyMedia l => [l.mediaPath]
  | noneMedia l => [l.mediaPath]
  | all children => pathsList children
  | any children => pathsList children
  | not c => paths c

def pathsList : List Condition → List String
  | [] => []
  | c :: children => paths c ++ pathsList children

end

mutual

/-- The label conditions in a condition. -/
def labels : Condition → List LabelCondition
  | label l => [l]
  | anyMedia l => [l]
  | noneMedia l => [l]
  | all children => labelsList children
  | any children => labelsList children
  | not c => labels c
  | _ => []

def labelsList : List Condition → List LabelCondition
  | [] => []
  | c :: children => labels c ++ labelsList children

end

theorem pathsList_eq_flatMap (children : List Condition) :
    pathsList children = children.flatMap paths := by
  induction children with
  | nil => rfl
  | cons c children ih => rw [pathsList, ih, List.flatMap_cons]

theorem labelsList_eq_flatMap (children : List Condition) :
    labelsList children = children.flatMap labels := by
  induction children with
  | nil => rfl
  | cons c children ih => rw [labelsList, ih, List.flatMap_cons]

end Condition

/-- The fact paths a raw condition names. -/
def namedPaths (condition : Json) : List String :=
  match decode condition with
  | some c => c.paths
  | none => []

/-! ## Knowing more facts -/

/-- Whatever resolves in the first facts resolves to the same in the second. -/
def Extends (facts facts' : Facts) : Prop :=
  ∀ path value, resolveFact facts path = some value → resolveFact facts' path = some value

section Knows

variable {facts facts' : Facts}

/-- What is read at one path. -/
theorem knows_resolved (hmore : Extends facts facts') {f : Option Json → Kleene}
    (hf : f none = none) (path : String) :
    Kleene.Knows (f (resolveFact facts path)) (f (resolveFact facts' path)) := by
  intro v hv
  cases hvalue : resolveFact facts path with
  | none => simp [hvalue, hf] at hv
  | some value => rwa [hmore _ _ hvalue, ← hvalue]

theorem knows_evalGlobal (hmore : Extends facts facts') (l : LabelCondition) :
    Kleene.Knows (l.evalGlobal facts) (l.evalGlobal facts') :=
  knows_resolved hmore (f := l.evalValue) rfl l.globalPath

theorem knows_evalEntry (hmore : Extends facts facts') (l : LabelCondition) (entry : Json) :
    Kleene.Knows (l.evalEntry facts entry) (l.evalEntry facts' entry) := by
  cases entry with
  | null => exact knows_evalGlobal hmore l
  | _ => exact .refl _

theorem knows_evalAny (hmore : Extends facts facts') (l : LabelCondition) :
    Kleene.Knows (l.evalAny facts) (l.evalAny facts') := by
  intro v hv
  obtain ⟨results, hresults, hv⟩ := Option.bind_eq_some_iff.mp hv
  unfold LabelCondition.mediaResults at hresults
  cases hmedia : resolveFact facts l.mediaPath with
  | none => simp [hmedia] at hresults
  | some value =>
    cases value with
    | obj media =>
      rw [hmedia] at hresults
      obtain rfl := Option.some.inj hresults
      have hentries : List.Forall₂ Kleene.Knows ((Dict.values media).map (l.evalEntry facts))
          ((Dict.values media).map (l.evalEntry facts')) := by
        rw [List.forall₂_map_left_iff, List.forall₂_map_right_iff]
        exact List.forall₂_same.mpr fun entry _ => knows_evalEntry hmore l entry
      rw [LabelCondition.evalAny, LabelCondition.mediaResults, hmore _ _ hmedia]
      exact Kleene.Knows.any hentries v hv
    | _ => simp [hmedia] at hresults

mutual

theorem knows_eval (hmore : Extends facts facts') :
    ∀ c : Condition, Kleene.Knows (c.eval facts) (c.eval facts')
  | .exist fact =>
    knows_resolved hmore (f := fun v => v.map fun value => decide (pyType value ≠ .noneType)) rfl fact
  | .compare fact operator value numericOnly =>
    knows_resolved hmore (f := fun v => compareFact v operator value numericOnly) rfl fact
  | .present fact minimum =>
    knows_resolved hmore (f := fun v => (v.bind number?).map fun n => minimum.le n) rfl fact
  | .label l => knows_evalGlobal hmore l
  | .anyMedia l => knows_evalAny hmore l
  | .noneMedia l => (knows_evalAny hmore l).neg
  | .all children => Kleene.Knows.all (knows_evalList hmore children)
  | .any children => Kleene.Knows.any (knows_evalList hmore children)
  | .not c => (knows_eval hmore c).neg

theorem knows_evalList (hmore : Extends facts facts') :
    ∀ children : List Condition, List.Forall₂ Kleene.Knows
      (Condition.evalList facts children) (Condition.evalList facts' children)
  | [] => List.Forall₂.nil
  | c :: children => List.Forall₂.cons (knows_eval hmore c) (knows_evalList hmore children)

end

end Knows

/-- A known result of an accepted condition stays when more facts resolve. -/
theorem known_stays_known {condition : Json} {allowedFactKeys : Option (List String)}
    (h : validateCondition condition allowedFactKeys = .ok ()) {facts facts' : Facts}
    (hmore : Extends facts facts') {b : Bool} (hb : evaluate facts condition = .ok (some b)) :
    evaluate facts' condition = .ok (some b) := by
  obtain ⟨c, hc⟩ := decode_of_validate h
  rw [evaluate_of_decode facts hc, Except.ok.injEq] at hb
  rw [evaluate_of_decode facts' hc, knows_eval hmore c b hb]

theorem splitDots_ne_nil (path : String) : splitDots path ≠ [] := by
  simp [splitDots, List.splitOn_ne_nil]

/-- A new fact leaves the others as they are. -/
theorem extends_concat {facts : Facts} {k : String} (hk : resolveFact facts k = none) (v : Json) :
    Extends facts (facts ++ [(k, v)]) := by
  intro path value h
  have hlookup : ∀ {c : String} {next : Json}, facts.lookup c = some next →
      (facts ++ [(k, v)]).lookup c = some next := fun hc => by simp [List.lookup_append, hc]
  have hne : path ≠ k := by
    rintro rfl
    rw [hk] at h
    cases h
  unfold resolveFact at h ⊢
  cases hpath : facts.lookup path with
  | some w =>
    rw [hpath] at h
    rw [hlookup hpath]
    exact h
  | none =>
    have hnone : (facts ++ [(k, v)]).lookup path = none := by
      simp [List.lookup_append, hpath, Dict.lookup_cons, hne.symm]
    rw [hpath] at h
    rw [hnone]
    obtain ⟨c, rest, hsplit⟩ := List.exists_cons_of_ne_nil (splitDots_ne_nil path)
    simp only [hsplit, resolvePath] at h ⊢
    obtain ⟨next, hnext, hrest⟩ := Option.bind_eq_some_iff.mp h
    rw [hlookup hnext]
    exact hrest

/-- Facts with one activated message-level label. -/
def activatedFacts : Facts :=
  [("labels", .obj [("model", .obj [("global", .obj [("ad", .obj [("activated", .bool true)])])])])]

/-- Not being an advertisement is known to be false, and stays so when the review status
is added. -/
theorem known_stays_known_review :
    evaluate (activatedFacts ++ [("review_status", .str "approved")])
      (.obj [("not", labelOf (.obj [("namespace", .str "model"), ("scope", .str "global"),
        ("key", .str "ad")]))]) = .ok (some false) :=
  @known_stays_known _ none rfl _ _ (extends_concat rfl _) _ rfl

/-! ## Accepted trees -/

/-- A fact that the validator lets a condition name. -/
def FactAllowed (allowed : Option (List String)) (fact : String) : Prop :=
  matchesFactKeyPattern fact = true ∧ ∀ keys, allowed = some keys → fact ∈ keys

/-- The trees of accepted conditions: predicates name allowed facts, label conditions one
of the three namespaces. -/
inductive Condition.Accepted (allowed : Option (List String)) : Condition → Prop
  | exist {fact : String} (h : FactAllowed allowed fact) : Accepted allowed (.exist fact)
  | compare {fact : String} (operator : Comparison) (value : Json) (numericOnly : Bool)
      (h : FactAllowed allowed fact) : Accepted allowed (.compare fact operator value numericOnly)
  | present {fact : String} (minimum : Number) (h : FactAllowed allowed fact) :
      Accepted allowed (.present fact minimum)
  | label {l : LabelCondition} (h : l.ns ∈ namespaceNames) : Accepted allowed (.label l)
  | anyMedia {l : LabelCondition} (h : l.ns ∈ namespaceNames) : Accepted allowed (.anyMedia l)
  | noneMedia {l : LabelCondition} (h : l.ns ∈ namespaceNames) : Accepted allowed (.noneMedia l)
  | all {children : List Condition} (h : ∀ c ∈ children, Accepted allowed c) :
      Accepted allowed (.all children)
  | any {children : List Condition} (h : ∀ c ∈ children, Accepted allowed c) :
      Accepted allowed (.any children)
  | not {c : Condition} (h : Accepted allowed c) : Accepted allowed (.not c)

section Accepted

variable {allowed : Option (List String)}

theorem factAllowed_of_validateFact {fact : String}
    (h : validateFact allowed (.str fact) = .ok ()) : FactAllowed allowed fact := by
  obtain ⟨hpattern, h⟩ := seq_eq_ok.mp h
  refine ⟨ensure_eq_ok.mp hpattern, ?_⟩
  rintro keys rfl
  simpa using h

theorem factAllowed_of_lookup {entries : List (String × Json)} {fact : String}
    (h : validateFact allowed (getD entries "fact") = .ok ())
    (hfact : (entries.lookup "fact").bind string? = some fact) : FactAllowed allowed fact := by
  obtain ⟨v, hv, hs⟩ := Option.bind_eq_some_iff.mp hfact
  obtain rfl := string?_eq_some.mp hs
  exact factAllowed_of_validateFact (by simpa [getD, hv] using h)

theorem accepted_of_validateComparisonPayload {numericOnly : Bool}
    {entries : List (String × Json)} {c : Condition}
    (h : validateComparisonPayload allowed numericOnly (.obj entries) = .ok ())
    (hc : decodeComparison numericOnly entries = some c) : c.Accepted allowed := by
  simp only [validateComparisonPayload, seq_eq_ok] at h
  obtain ⟨fact, op, operator, value, hfact, -, -, -, rfl⟩ := decodeComparison_eq_some hc
  exact .compare _ _ _ (factAllowed_of_lookup h.2.1 hfact)

theorem accepted_of_validateLeaf {entries : List (String × Json)} {c : Condition}
    (h : validateLeaf allowed entries = .ok ()) (hc : decodeLeaf entries = some c) :
    c.Accepted allowed := by
  unfold validateLeaf at h
  unfold decodeLeaf at hc
  split_ifs at h hc
  · obtain ⟨fact, hfact, rfl⟩ := Option.map_eq_some_iff.mp hc
    exact .exist (factAllowed_of_lookup (seq_eq_ok.mp h).2 hfact)
  · exact accepted_of_validateComparisonPayload h hc

theorem accepted_of_validateLabelPresent {payload : Json} {c : Condition}
    (h : validateLabelPresent allowed payload = .ok ()) (hc : decodePresent payload = some c) :
    c.Accepted allowed := by
  cases payload with
  | obj entries =>
    simp only [validateLabelPresent, seq_eq_ok] at h
    simp only [decodePresent, bind, Option.bind_eq_some_iff, pure, Option.some.injEq] at hc
    obtain ⟨fact, hfact, minimum, -, rfl⟩ := hc
    exact .present _ (factAllowed_of_lookup h.2.1 (Option.bind_eq_some_iff.mpr hfact))
  | _ => simp [decodePresent] at hc

mutual

/-- What the validator accepts decodes to an accepted tree. -/
theorem accepted_of_validate :
    ∀ {depth : ℕ} {condition : Json} {c : Condition}, validate allowed depth condition = .ok () →
      decode condition = some c → c.Accepted allowed
  | depth, .obj entries, c, h, hc => by
    unfold validate at h
    unfold decode at hc
    obtain ⟨-, h⟩ := seq_eq_ok.mp h
    dsimp only at h hc
    by_cases hleaf : isLeaf entries = true
    · rw [if_pos hleaf] at h hc
      exact accepted_of_validateLeaf h hc
    rw [if_neg hleaf] at h hc
    match entries, h, hc with
    | [(operator, payload)], h, hc =>
      dsimp only at h hc
      cases hop : Operator.ofString? operator with
      | none => simp [hop] at h
      | some o =>
        rw [hop] at h hc
        cases o with
        | all =>
          match payload, h, hc with
          | .arr (child :: children), h, hc =>
            obtain ⟨cs, hcs, rfl⟩ := Option.map_eq_some_iff.mp hc
            exact .all (accepted_of_validateChildren h hcs)
        | any =>
          match payload, h, hc with
          | .arr (child :: children), h, hc =>
            obtain ⟨cs, hcs, rfl⟩ := Option.map_eq_some_iff.mp hc
            exact .any (accepted_of_validateChildren h hcs)
        | not =>
          obtain ⟨d, hd, rfl⟩ := Option.map_eq_some_iff.mp hc
          exact .not (accepted_of_validate h hd)
        | label =>
          obtain ⟨l, hl, rfl⟩ := Option.map_eq_some_iff.mp hc
          exact .label (namespace_of_validateLabelPayload h hl)
        | anyMedia =>
          obtain ⟨l, hl, rfl⟩ := Option.map_eq_some_iff.mp hc
          exact .anyMedia (namespace_of_validateMediaPayload h hl)
        | noneMedia =>
          obtain ⟨l, hl, rfl⟩ := Option.map_eq_some_iff.mp hc
          exact .noneMedia (namespace_of_validateMediaPayload h hl)
        | labelScore =>
          match payload, h, hc with
          | .obj fields, h, hc => exact accepted_of_validateComparisonPayload h hc
        | labelPresent => exact accepted_of_validateLabelPresent h hc
  | _, .null, _, _, hc | _, .bool _, _, _, hc | _, .num _, _, _, hc | _, .str _, _, _, hc
  | _, .arr _, _, _, hc => by simp [decode] at hc

theorem accepted_of_validateChildren :
    ∀ {depth : ℕ} {children : List Json} {cs : List Condition},
      validateChildren allowed depth children = .ok () → decodeList children = some cs →
      ∀ c ∈ cs, c.Accepted allowed
  | _, [], cs, _, hcs => by
    obtain rfl : [] = cs := by simpa [decodeList] using hcs
    simp
  | _, child :: children, cs, h, hcs => by
    obtain ⟨h1, h2⟩ := seq_eq_ok.mp h
    simp only [decodeList, bind, Option.bind_eq_some_iff, pure, Option.some.injEq] at hcs
    obtain ⟨c, hc, cs, hcs, rfl⟩ := hcs
    exact List.forall_mem_cons.mpr ⟨accepted_of_validate h1 hc, accepted_of_validateChildren h2 hcs⟩

end

end Accepted

/-! ## Reading only what is named -/

section Named

variable {facts facts' : Facts}

/-- The media dictionary of a namespace, if there is one, has no null entry. -/
def NoNullMedia (facts : Facts) (ns : String) : Prop :=
  ∀ media, resolveFact facts ("labels." ++ ns ++ ".media") = some (.obj media) →
    Json.null ∉ Dict.values media

/-- A media quantifier without null entries reads the media dictionary only. -/
theorem evalAny_congr {l : LabelCondition} (hnull : NoNullMedia facts l.ns)
    (hmedia : resolveFact facts l.mediaPath = resolveFact facts' l.mediaPath) :
    l.evalAny facts = l.evalAny facts' := by
  unfold LabelCondition.evalAny LabelCondition.mediaResults
  rw [← hmedia]
  cases hvalue : resolveFact facts l.mediaPath with
  | none => rfl
  | some value =>
    cases value with
    | obj media =>
      have hentries : ∀ entry ∈ Dict.values media,
          l.evalEntry facts entry = l.evalEntry facts' entry := by
        intro entry hentry
        cases entry with
        | null => exact absurd hentry (hnull media hvalue)
        | _ => rfl
      simp only [List.map_congr_left hentries]
    | _ => rfl

/-- An accepted tree whose label conditions meet no null media entry reads the facts at
its paths only. -/
theorem Condition.Accepted.eval_congr {allowed : Option (List String)} {c : Condition}
    (h : c.Accepted allowed)
    (hnull : ∀ l ∈ c.labels, l.ns ∈ namespaceNames → NoNullMedia facts l.ns)
    (hagree : ∀ path ∈ c.paths, resolveFact facts path = resolveFact facts' path) :
    c.eval facts = c.eval facts' := by
  have hchildren : ∀ {children : List Condition},
      (∀ c ∈ children, (∀ l ∈ c.labels, l.ns ∈ namespaceNames → NoNullMedia facts l.ns) →
        (∀ path ∈ c.paths, resolveFact facts path = resolveFact facts' path) →
        c.eval facts = c.eval facts') →
      (∀ l ∈ labelsList children, l.ns ∈ namespaceNames → NoNullMedia facts l.ns) →
      (∀ path ∈ pathsList children, resolveFact facts path = resolveFact facts' path) →
      evalList facts children = evalList facts' children := by
    intro children ih hnull hagree
    rw [labelsList_eq_flatMap] at hnull
    rw [pathsList_eq_flatMap] at hagree
    rw [evalList_eq_map, evalList_eq_map]
    exact List.map_congr_left fun c hc =>
      ih c hc (fun l hl => hnull l (List.mem_flatMap.mpr ⟨c, hc, hl⟩))
        fun path hpath => hagree path (List.mem_flatMap.mpr ⟨c, hc, hpath⟩)
  induction h with
  | exist | compare | present | label =>
    simp only [eval, LabelCondition.evalGlobal, hagree _ (List.mem_singleton_self _)]
  | anyMedia h =>
    exact evalAny_congr (hnull _ (List.mem_singleton_self _) h)
      (hagree _ (List.mem_singleton_self _))
  | noneMedia h =>
    rw [eval, eval, evalAny_congr (hnull _ (List.mem_singleton_self _) h)
      (hagree _ (List.mem_singleton_self _))]
  | all _ ih => rw [eval, eval, hchildren ih hnull hagree]
  | any _ ih => rw [eval, eval, hchildren ih hnull hagree]
  | not _ ih => rw [eval, eval, ih hnull hagree]

/-! ## A null media entry -/

/-- The keys of the labels of a media entry. -/
def entryKeys : Json → List String
  | .obj entry =>
    match entry.lookup "labels" with
    | some (.obj labels) => Dict.keys labels
    | _ => []
  | _ => []

theorem exists_fresh_key (taken : List String) : ∃ key, isBlank key = false ∧ key ∉ taken := by
  have hinj : Function.Injective fun n : ℕ => String.ofList (List.replicate (n + 1) 'a') := by
    intro m n h
    have hlist := congrArg String.toList h
    simpa using congrArg List.length hlist
  obtain ⟨key, ⟨n, rfl⟩, hkey⟩ :=
    (Set.infinite_range_of_injective hinj).exists_notMem_finset taken.toFinset
  refine ⟨String.ofList (List.replicate (n + 1) 'a'), ?_, by simpa using hkey⟩
  simp [isBlank, isSpace, List.replicate_succ]

/-- A label condition without a score comparison. -/
def activatedPayload (ns key : String) : Json :=
  .obj [("namespace", .str ns), ("key", .str key)]

theorem validate_anyMediaOf_activatedPayload {ns key : String} (hns : ns ∈ namespaceNames)
    (hkey : isBlank key = false) :
    validateCondition (anyMediaOf (.obj [("label", activatedPayload ns key)])) none = .ok () := by
  rw [validateCondition_anyMediaOf]
  unfold validateMediaPayload
  refine seq_eq_ok.mpr ⟨rfl, ?_⟩
  have hknown : inSet (.str ns) namespaceNames = .ok true := by simp only [inSet, hns, decide_true]
  have hnonblank : isNonblankStr (.str key) = true := by simp [isNonblankStr, hkey]
  refine seq_eq_ok.mpr ⟨rfl, bind_eq_ok.mpr ⟨true, hknown, ?_⟩⟩
  refine seq_eq_ok.mpr ⟨rfl, seq_eq_ok.mpr ⟨ensure_eq_ok.mpr hnonblank, ?_⟩⟩
  rfl

/-- With a null entry among the media, and no other entry with a label under the key, a
quantifier is true exactly when the message-level label is. -/
theorem evalAny_eq_true_iff {ns key : String} {media : List (String × Json)}
    (hmedia : resolveFact facts ("labels." ++ ns ++ ".media") = some (.obj media))
    (hnull : Json.null ∈ Dict.values media)
    (hkey : ∀ entry ∈ Dict.values media, key ∉ entryKeys entry) :
    LabelCondition.evalAny ⟨ns, key, .activated⟩ facts = some true ↔
      LabelCondition.evalGlobal ⟨ns, key, .activated⟩ facts = some true := by
  unfold LabelCondition.evalAny LabelCondition.mediaResults LabelCondition.mediaPath
  rw [hmedia, Option.bind_some, Kleene.any_eq_true_iff, List.mem_map]
  constructor
  · rintro ⟨entry, hentry, htrue⟩
    cases entry with
    | null => exact htrue
    | obj entry =>
      have hfresh := hkey _ hentry
      unfold entryKeys at hfresh
      unfold LabelCondition.evalEntry at htrue
      dsimp only at hfresh htrue
      split at htrue
      next labels hlabels =>
        rw [hlabels] at hfresh
        rw [Dict.lookup_eq_none.mpr hfresh] at htrue
        cases htrue
      next => cases htrue
    | _ => cases htrue
  · exact fun htrue => ⟨.null, hnull, htrue⟩

theorem resolveFact_set {path path' : String} (hne : path' ≠ path)
    (hfirst : path ∉ splitDots path') (v : Json) :
    resolveFact (Dict.set path v facts) path' = resolveFact facts path' := by
  unfold resolveFact
  rw [Dict.lookup_set_of_ne hne]
  cases facts.lookup path' with
  | some w => rfl
  | none =>
    obtain ⟨c, rest, hsplit⟩ := List.exists_cons_of_ne_nil (splitDots_ne_nil path')
    rw [hsplit] at hfirst ⊢
    simp only [resolvePath]
    rw [Dict.lookup_set_of_ne (List.ne_of_not_mem_cons hfirst).symm]

theorem evalGlobal_set (l : LabelCondition) (activated : Bool) (htest : l.test = .activated) :
    l.evalGlobal (Dict.set l.globalPath (.obj [("activated", .bool activated)]) facts) =
      some activated := by
  rw [LabelCondition.evalGlobal, resolveFact, Dict.lookup_set_self, LabelCondition.evalValue,
    htest]
  rfl

theorem resolveFact_mediaPath_set {l : LabelCondition} (hns : l.ns ∈ namespaceNames) (v : Json) :
    resolveFact (Dict.set l.globalPath v facts) l.mediaPath = resolveFact facts l.mediaPath := by
  have hdot : '.' ∈ l.globalPath.toList := by simp [LabelCondition.globalPath]
  refine resolveFact_set ?_ ?_ v
  · intro h
    have hsplit := congrArg splitDots h
    rw [LabelCondition.splitDots_mediaPath hns, LabelCondition.splitDots_globalPath hns] at hsplit
    simp at hsplit
  · rw [LabelCondition.splitDots_mediaPath hns]
    simp only [List.mem_cons, List.not_mem_nil, or_false, not_or]
    refine ⟨?_, ?_, ?_⟩ <;> intro h <;> rw [h] at hdot
    · revert hdot
      decide
    · exact notMem_dot_of_namespace hns hdot
    · revert hdot
      decide

/-- A null entry shows: some quantifier tells two maps apart that agree on its media
dictionary. -/
theorem exists_reads_unnamed (hwf : (Json.obj facts).WF) {ns : String} (hns : ns ∈ namespaceNames)
    {media : List (String × Json)}
    (hmedia : resolveFact facts ("labels." ++ ns ++ ".media") = some (.obj media))
    (hnull : Json.null ∈ Dict.values media) :
    ∃ condition facts', validateCondition condition none = .ok () ∧ (Json.obj facts').WF ∧
      (∀ path ∈ namedPaths condition, resolveFact facts path = resolveFact facts' path) ∧
      evaluateCondition condition facts ≠ evaluateCondition condition facts' := by
  obtain ⟨key, hblank, hfresh⟩ := exists_fresh_key ((Dict.values media).flatMap entryKeys)
  have hkey : ∀ entry ∈ Dict.values media, key ∉ entryKeys entry := fun entry hentry hmem =>
    hfresh (List.mem_flatMap.mpr ⟨entry, hentry, hmem⟩)
  let l : LabelCondition := ⟨ns, key, .activated⟩
  -- the second map says the opposite of the first about the message-level label
  let activated : Bool := decide (l.evalGlobal facts ≠ some true)
  let facts' := Dict.set l.globalPath (.obj [("activated", .bool activated)]) facts
  have hpath : resolveFact facts' l.mediaPath = resolveFact facts l.mediaPath :=
    resolveFact_mediaPath_set hns _
  have haccepted := validate_anyMediaOf_activatedPayload hns hblank
  have hdecode : decode (anyMediaOf (.obj [("label", activatedPayload ns key)])) =
      some (.anyMedia l) := by
    rw [decode_anyMediaOf]
    rfl
  refine ⟨_, facts', haccepted, wf_set hwf _ ?_, ?_, ?_⟩
  · exact wf_obj_of_mem (by simp) (by simp [Json.WF])
  · rw [namedPaths, hdecode]
    exact fun path hmem => by rw [List.mem_singleton.mp hmem, hpath]
  · intro heq
    have htrue := evaluateCondition_of_decode haccepted hdecode facts
    rw [heq, evaluateCondition_of_decode haccepted hdecode facts', Condition.eval, Condition.eval,
      evalAny_eq_true_iff hmedia hnull hkey, evalAny_eq_true_iff (hpath.trans hmedia) hnull hkey,
      evalGlobal_set l activated rfl] at htrue
    by_cases hglobal : l.evalGlobal facts = some true
    · simp [l, activated, hglobal] at htrue
    · simp [l, activated, hglobal] at htrue

/-- On the facts of a map, accepted conditions read only what they name exactly when none
of its media dictionaries has a null entry. -/
theorem reads_named_iff (hwf : (Json.obj facts).WF) :
    (∀ condition, validateCondition condition none = .ok () →
      ∀ facts', (Json.obj facts').WF →
        (∀ path ∈ namedPaths condition, resolveFact facts path = resolveFact facts' path) →
        evaluateCondition condition facts = evaluateCondition condition facts') ↔
    ∀ ns ∈ namespaceNames, NoNullMedia facts ns := by
  constructor
  · intro hreads ns hns media hmedia hnull
    obtain ⟨condition, facts', haccepted, hwf', hagree, hne⟩ :=
      exists_reads_unnamed hwf hns hmedia hnull
    exact hne (hreads condition haccepted facts' hwf' hagree)
  · intro hnull condition haccepted facts' _ hagree
    obtain ⟨c, hc⟩ := decode_of_validate haccepted
    rw [namedPaths, hc] at hagree
    have heval := (accepted_of_validate haccepted hc).eval_congr (fun l _ => hnull l.ns) hagree
    rw [Bool.eq_iff_iff, evaluateCondition_of_decode haccepted hc,
      evaluateCondition_of_decode haccepted hc, heval]

end Named

/-- `{"labels": {"model": {"media": {"a1": null}}}}`. -/
def nullMediaFacts : Facts :=
  [("labels", .obj [("model", .obj [("media", .obj [("a1", .null)])])])]

/-- The same map with an activated message-level label. -/
def nullMediaFacts' : Facts :=
  [("labels", .obj [("model", .obj [("media", .obj [("a1", .null)]),
    ("global", .obj [("ad", .obj [("activated", .bool true)])])])])]

/-- The media quantifier names the media dictionary, which the maps agree on, and matches
on the message-level label of the second. -/
theorem reads_unnamed :
    ∃ condition, validateCondition condition none = .ok () ∧
      (Json.obj nullMediaFacts).WF ∧ (Json.obj nullMediaFacts').WF ∧
      (∀ path ∈ namedPaths condition,
        resolveFact nullMediaFacts path = resolveFact nullMediaFacts' path) ∧
      evaluateCondition condition nullMediaFacts = false ∧
      evaluateCondition condition nullMediaFacts' = true := by
  refine ⟨anyMediaOf (.obj [("label", activatedPayload "model" "ad")]), rfl, ?_, ?_, ?_,
    by decide +kernel, by decide +kernel⟩
  · simp [nullMediaFacts, Json.WF, Json.WFEntries]
  · simp [nullMediaFacts', Json.WF, Json.WFEntries]
  · intro path hpath
    obtain rfl : path = "labels.model.media" := List.mem_singleton.mp hpath
    rfl

/-- `{"labels": {"model": {"media": {"a1": {"labels": {}}}}}}`. -/
def entryFacts : Facts :=
  [("labels", .obj [("model", .obj [("media", .obj [("a1", .obj [("labels", .obj [])])])])])]

/-- A media dictionary without a null entry is read where it is named. -/
theorem reads_named_entry :
    (∀ ns ∈ namespaceNames, NoNullMedia entryFacts ns) ∧
    ∀ condition, validateCondition condition none = .ok () →
      ∀ facts', (Json.obj facts').WF →
        (∀ path ∈ namedPaths condition, resolveFact entryFacts path = resolveFact facts' path) →
        evaluateCondition condition entryFacts = evaluateCondition condition facts' := by
  have hnull : ∀ ns ∈ namespaceNames, NoNullMedia entryFacts ns := by
    intro ns hns media hmedia
    simp only [namespaceNames, List.mem_cons, List.not_mem_nil, or_false] at hns
    rcases hns with rfl | rfl | rfl
    · have hvalue : some (Json.obj [("a1", .obj [("labels", .obj [])])]) = some (.obj media) := hmedia
      obtain rfl := Json.obj.inj (Option.some.inj hvalue)
      simp [Dict.values]
    · have hvalue : none = some (Json.obj media) := hmedia
      cases hvalue
    · have hvalue : none = some (Json.obj media) := hmedia
      cases hvalue
  refine ⟨hnull, (reads_named_iff ?_).mpr hnull⟩
  simp [entryFacts, Json.WF, Json.WFEntries]

end TgCurator
