import TgCurator.Analysis.Common
import TgCurator.Routing.Facts

/-!
# What label conditions see

Label conditions over the facts of a snapshot, in terms of the resolved labels. A media
quantifier is true of a namespace when some media label under the key passes the test
(`evaluate_anyMediaOf`); `none_media` is true when every media target that has a label
at all has one under the key that fails it (`evaluate_noneMediaOf_iff`). An asset without
any label is not a target, so `none_media` does not look at it
(`noneMedia_sound_iff`).

A message-level condition sees the label with its key (`evaluate_labelOf`), except for
keys with a dot, which the path lookup takes apart, and a label test with `score_eq` sees
no label when its threshold is an integer, since scores are floats
(`labelConditions_exact_iff`).
-/

namespace TgCurator

/-! ## The meaning of a test -/

/-- The numeric comparison an operator stands for. -/
def Comparison.holds (operator : Comparison) (actual expected : Number) : Bool :=
  match operator with
  | .gt => expected.lt actual
  | .gte => expected.le actual
  | .lt => actual.lt expected
  | .lte => actual.le expected
  | .eq => actual.eq expected
  | _ => false

/-- A label is activated, or its score satisfies the comparison. -/
def LabelTest.holds (value : LabelValue) : LabelTest → Bool
  | .activated => value.activated
  | .score operator threshold => operator.holds value.score threshold

/-- `score_eq` with a threshold that is a Python `int`. -/
def LabelTest.isIntegerEquality : LabelTest → Bool
  | .score .eq threshold => threshold.isInt
  | _ => false

/-- The comparisons a label condition can make. -/
def LabelTest.IsLabelTest : LabelTest → Prop
  | .activated => True
  | .score operator _ => operator ∈ labelComparisons.map Prod.snd

theorem isLabelTest_of_decodeLabel {payload : Json} {l : LabelCondition}
    (h : decodeLabel payload = some l) : l.test.IsLabelTest := by
  obtain ⟨entries, rfl, -, -, ⟨-, ht⟩ | ⟨operator, n, hs, ht⟩⟩ := decodeLabel_eq_some h
  · simp [ht, LabelTest.IsLabelTest]
  · rw [ht, LabelTest.IsLabelTest]
    obtain ⟨c, hc, hcs⟩ := List.exists_of_findSome?_eq_some hs
    obtain ⟨t, -, rfl⟩ : ∃ t, entries.lookup c.1 = some t ∧ c.2 = operator := by
      cases hl : entries.lookup c.1 <;> simp_all
    exact List.mem_map_of_mem hc

@[simp] theorem value_toFloat (n : Number) : (toFloat n).value = n.value := by
  cases n <;> rfl

@[simp] theorem isInt_toFloat (n : Number) : (toFloat n).isInt = false := by
  cases n <;> rfl

/-- The code's test passes on a label exactly when the label satisfies it, unless the
test compares a score with an integer for equality, which never passes. -/
theorem LabelTest.onValue_eq_true {test : LabelTest} (h : test.IsLabelTest) (value : LabelValue) :
    test.onValue value = some true ↔ test.holds value = true ∧ test.isIntegerEquality = false := by
  cases test with
  | activated => simp [onValue, eval, labelEntries, Dict.lookup_cons, holds, isIntegerEquality]
  | score operator threshold =>
    have hlookup : (labelEntries value).lookup "score" = some (.num (toFloat value.score)) := by
      simp [labelEntries, Dict.lookup_cons]
    simp only [IsLabelTest, labelComparisons, List.map_cons, List.map_nil, List.mem_cons,
      List.not_mem_nil, or_false] at h
    rcases h with rfl | rfl | rfl | rfl | rfl
    case inr.inr.inr.inr =>
      cases hint : threshold.isInt <;>
        simp [onValue, eval, hlookup, compareFact, number?, holds, Comparison.holds, pyType, hint,
          isIntegerEquality, Json.pyEq, Json.asNumber?, Number.eq]
    all_goals
      simp [onValue, eval, hlookup, compareFact, number?, holds, Comparison.holds, compareOrdered,
        isIntegerEquality, Number.lt, Number.le]

/-! ## Accepted label conditions -/

/-- `{"label": ...}`. -/
abbrev labelOf (payload : Json) : Json := .obj [("label", payload)]

theorem decode_labelOf (payload : Json) :
    decode (labelOf payload) = (decodeLabel payload).map Condition.label := by
  unfold decode
  rfl

theorem validateCondition_labelOf {payload : Json} {allowedFactKeys : Option (List String)} :
    validateCondition (labelOf payload) allowedFactKeys = validateLabelPayload false payload := by
  unfold validateCondition validate
  rfl

theorem validateCondition_anyMediaOf {payload : Json} {allowedFactKeys : Option (List String)} :
    validateCondition (anyMediaOf payload) allowedFactKeys =
      validateMediaPayload "any_media" payload := by
  unfold validateCondition validate
  rfl

theorem validateCondition_noneMediaOf {payload : Json} {allowedFactKeys : Option (List String)} :
    validateCondition (noneMediaOf payload) allowedFactKeys =
      validateMediaPayload "none_media" payload := by
  unfold validateCondition validate
  rfl

/-- An accepted condition matches when its tree is true. -/
theorem evaluateCondition_of_decode {condition : Json} {c : Condition}
    (h : validateCondition condition none = .ok ()) (hc : decode condition = some c)
    (facts : Facts) : evaluateCondition condition facts = true ↔ c.eval facts = some true := by
  obtain ⟨c', hc', heval⟩ := evaluateCondition_of_validate h
  obtain rfl : c' = c := Option.some.inj (hc'.symm.trans hc)
  exact (heval facts).2

theorem namespace_of_validateLabelPayload {mediaContext : Bool} {payload : Json}
    {l : LabelCondition} (h : validateLabelPayload mediaContext payload = .ok ())
    (hl : decodeLabel payload = some l) : l.ns ∈ namespaceNames := by
  obtain ⟨l', hl', hns⟩ := decodeLabel_of_validate h
  obtain rfl : l' = l := Option.some.inj (hl'.symm.trans hl)
  exact hns

theorem namespace_of_validateMediaPayload {operator : String} {payload : Json}
    {l : LabelCondition} (h : validateMediaPayload operator payload = .ok ())
    (hl : decodeMedia payload = some l) : l.ns ∈ namespaceNames := by
  obtain ⟨l', hl', hns⟩ := decodeMedia_of_validate h
  obtain rfl : l' = l := Option.some.inj (hl'.symm.trans hl)
  exact hns

/-! ## Label conditions and resolved labels -/

/-- Some media label under the key satisfies the test. -/
def LabelCondition.HasMediaLabel (l : LabelCondition) (values : List LabelValue) : Prop :=
  ∃ v ∈ values, v.targetScope = "media" ∧ v.labelKey = l.key ∧ l.test.holds v = true

/-- Some message-level label under the key satisfies the test. -/
def LabelCondition.HasGlobalLabel (l : LabelCondition) (values : List LabelValue) : Prop :=
  ∃ v ∈ values, v.targetScope = "global" ∧ v.labelKey = l.key ∧ l.test.holds v = true

/-- The asset has a label under the key on which the test is known false. -/
def LabelCondition.KnownFalse (l : LabelCondition) (values : List LabelValue) (asset : String) :
    Prop :=
  ∃ v ∈ values, v.targetScope = "media" ∧ v.targetId = asset ∧ v.labelKey = l.key ∧
    l.test.onValue v = some false

/-- The asset has a label under some key. -/
def HasMediaEntry (values : List LabelValue) (asset : String) : Prop :=
  ∃ v ∈ values, v.targetScope = "media" ∧ v.targetId = asset

instance (l : LabelCondition) (values : List LabelValue) : Decidable (l.HasGlobalLabel values) :=
  inferInstanceAs (Decidable (∃ v ∈ values, _ ∧ _ ∧ l.test.holds v = true))

instance (l : LabelCondition) (values : List LabelValue) (asset : String) :
    Decidable (l.KnownFalse values asset) :=
  inferInstanceAs (Decidable (∃ v ∈ values, _ ∧ _ ∧ _ ∧ l.test.onValue v = some false))

instance (values : List LabelValue) (asset : String) : Decidable (HasMediaEntry values asset) :=
  inferInstanceAs (Decidable (∃ v ∈ values, v.targetScope = "media" ∧ v.targetId = asset))

namespace NamespaceSnapshot.Represents

variable {s : NamespaceSnapshot} {values : List LabelValue}

/-- The result of a condition on one media target. -/
theorem evalValue_media (hs : s.Represents values) (l : LabelCondition) (target : String)
    (b : Bool) : l.evalValue ((s.mediaLabels target).lookup l.key) = some b ↔
      ∃ v ∈ values, v.targetScope = "media" ∧ v.targetId = target ∧ v.labelKey = l.key ∧
        l.test.onValue v = some b := by
  rw [LabelCondition.evalValue_eq_some]
  constructor
  · rintro ⟨label, hlookup, htest⟩
    obtain ⟨v, hv, hscope, htarget, hkey, hlabel⟩ := (hs.lookup_media _ _ _).mp hlookup
    obtain rfl := Json.obj.inj hlabel
    exact ⟨v, hv, hscope, htarget, hkey, htest⟩
  · rintro ⟨v, hv, hscope, htarget, hkey, htest⟩
    exact ⟨labelEntries v, (hs.lookup_media _ _ _).mpr ⟨v, hv, hscope, htarget, hkey, rfl⟩, htest⟩

theorem evalValue_global (hs : s.Represents values) (l : LabelCondition) (b : Bool) :
    l.evalValue (s.globals.lookup l.key) = some b ↔
      ∃ v ∈ values, v.targetScope = "global" ∧ v.labelKey = l.key ∧ l.test.onValue v = some b := by
  rw [LabelCondition.evalValue_eq_some]
  constructor
  · rintro ⟨label, hlookup, htest⟩
    obtain ⟨v, hv, hscope, hkey, hlabel⟩ := (hs.lookup_globals _ _).mp hlookup
    obtain rfl := Json.obj.inj hlabel
    exact ⟨v, hv, hscope, hkey, htest⟩
  · rintro ⟨v, hv, hscope, hkey, htest⟩
    exact ⟨labelEntries v, (hs.lookup_globals _ _).mpr ⟨v, hv, hscope, hkey, rfl⟩, htest⟩

end NamespaceSnapshot.Represents

section Built

variable {snapshot : RoutingSnapshot} {facts : Facts} {payload : Json} {l : LabelCondition}

/-- `any_media` matches when some media label under the key satisfies the test, unless
the test is an equality with an integer. -/
theorem evaluate_anyMediaOf (h : buildRoutingFacts snapshot = .ok facts)
    (hv : validateCondition (anyMediaOf payload) none = .ok ())
    (hl : decodeMedia payload = some l) (htest : l.test.IsLabelTest) :
    evaluateCondition (anyMediaOf payload) facts = true ↔
      l.HasMediaLabel (snapshot.resolved.byName l.ns) ∧ l.test.isIntegerEquality = false := by
  have hns := namespace_of_validateMediaPayload (validateCondition_anyMediaOf ▸ hv) hl
  obtain ⟨s, hs, heval⟩ := evalAny_of_build h hns
  have hdecode : decode (anyMediaOf payload) = some (.anyMedia l) := by
    rw [decode_anyMediaOf, hl, Option.map_some]
  rw [evaluateCondition_of_decode hv hdecode, Condition.eval, heval, Kleene.any_eq_true_iff,
    List.mem_map]
  constructor
  · rintro ⟨target, -, hvalue⟩
    obtain ⟨v, hmem, hscope, -, hkey, hholds⟩ := (hs.evalValue_media l target true).mp hvalue
    obtain ⟨hholds, hint⟩ := (LabelTest.onValue_eq_true htest v).mp hholds
    exact ⟨⟨v, hmem, hscope, hkey, hholds⟩, hint⟩
  · rintro ⟨⟨v, hmem, hscope, hkey, hholds⟩, hint⟩
    exact ⟨v.targetId, (hs.mem_media _).mpr ⟨v, hmem, hscope, rfl⟩,
      (hs.evalValue_media l v.targetId true).mpr
        ⟨v, hmem, hscope, rfl, hkey, (LabelTest.onValue_eq_true htest v).mpr ⟨hholds, hint⟩⟩⟩

/-- `none_media` matches when every media target with a label has one under the key on
which the test is known false. -/
theorem evaluate_noneMediaOf_iff (h : buildRoutingFacts snapshot = .ok facts)
    (hv : validateCondition (noneMediaOf payload) none = .ok ())
    (hl : decodeMedia payload = some l) :
    evaluateCondition (noneMediaOf payload) facts = true ↔
      ∀ asset, HasMediaEntry (snapshot.resolved.byName l.ns) asset →
        l.KnownFalse (snapshot.resolved.byName l.ns) asset := by
  have hns := namespace_of_validateMediaPayload (validateCondition_noneMediaOf ▸ hv) hl
  obtain ⟨s, hs, heval⟩ := evalAny_of_build h hns
  have hdecode : decode (noneMediaOf payload) = some (.noneMedia l) := by
    rw [decode_noneMediaOf, hl, Option.map_some]
  rw [evaluateCondition_of_decode hv hdecode, Condition.eval, heval, Kleene.neg_eq_some_iff,
    Bool.not_true, Kleene.any_eq_false_iff, List.forall_mem_map]
  exact forall_congr' fun asset =>
    imp_congr (hs.mem_media asset) (hs.evalValue_media l asset false)

/-- A message-level label condition matches when a label with its key satisfies the
test, unless the key has a dot or the test is an equality with an integer. -/
theorem evaluate_labelOf (h : buildRoutingFacts snapshot = .ok facts)
    (hv : validateCondition (labelOf payload) none = .ok ())
    (hl : decodeLabel payload = some l) :
    evaluateCondition (labelOf payload) facts = true ↔
      l.HasGlobalLabel (snapshot.resolved.byName l.ns) ∧
        '.' ∉ l.key.toList ∧ l.test.isIntegerEquality = false := by
  have htest := isLabelTest_of_decodeLabel hl
  have hns := namespace_of_validateLabelPayload (validateCondition_labelOf ▸ hv) hl
  obtain ⟨s, hs, heval⟩ := evalGlobal_of_build h hns
  have hdecode : decode (labelOf payload) = some (.label l) := by
    rw [decode_labelOf, hl, Option.map_some]
  rw [evaluateCondition_of_decode hv hdecode, Condition.eval, heval]
  split_ifs with hkey
  · simp [hkey]
  · rw [hs.evalValue_global l true]
    simp only [LabelTest.onValue_eq_true htest, LabelCondition.HasGlobalLabel]
    constructor
    · rintro ⟨v, hmem, hscope, hk, hholds, hint⟩
      exact ⟨⟨v, hmem, hscope, hk, hholds⟩, hkey, hint⟩
    · rintro ⟨⟨v, hmem, hscope, hk, hholds⟩, -, hint⟩
      exact ⟨v, hmem, hscope, hk, hholds, hint⟩

/-! ## Quantifying over the media of the message -/

/-- A match of `none_media` speaks for every listed asset exactly when every listed asset
has a label of some kind in the namespace, or some target that has one is not known to
fail the test. -/
theorem noneMedia_sound_iff (h : buildRoutingFacts snapshot = .ok facts)
    (hv : validateCondition (noneMediaOf payload) none = .ok ())
    (hl : decodeMedia payload = some l) :
    (evaluateCondition (noneMediaOf payload) facts = true →
      ∀ asset ∈ snapshot.listedAssets, l.KnownFalse (snapshot.resolved.byName l.ns) asset) ↔
    ((∀ asset ∈ snapshot.listedAssets, HasMediaEntry (snapshot.resolved.byName l.ns) asset) ∨
      ∃ asset, HasMediaEntry (snapshot.resolved.byName l.ns) asset ∧
        ¬ l.KnownFalse (snapshot.resolved.byName l.ns) asset) := by
  rw [evaluate_noneMediaOf_iff h hv hl]
  constructor
  · intro hsound
    by_cases hall : ∀ asset, HasMediaEntry (snapshot.resolved.byName l.ns) asset →
        l.KnownFalse (snapshot.resolved.byName l.ns) asset
    · refine .inl fun asset hasset => ?_
      obtain ⟨v, hmem, hscope, htarget, -⟩ := hsound hall asset hasset
      exact ⟨v, hmem, hscope, htarget⟩
    · push Not at hall
      exact .inr hall
  · rintro (hentries | ⟨asset, hentry, hnot⟩) hall
    · exact fun asset hasset => hall asset (hentries asset hasset)
    · exact absurd (hall asset hentry) hnot

/-- A message with two images, of which only the first has been analysed. -/
def partlyAnalysed : RoutingSnapshot where
  messageId := "m"
  message := [("id", .str "m")]
  sourceChannel := []
  duplicateState := []
  media := [[("kind", .str "image"), ("asset_id", .str "a1")],
    [("kind", .str "image"), ("asset_id", .str "a2")]]
  reviewStatus := .unreviewed
  modelAssignments := [
    { messageId := "m", targetScope := "media", targetKind := "image_asset", targetId := "a1",
      labelDefinitionVersionId := "v1", labelKey := "nsfw", imageAssetId := some "a1",
      score := .float 0, activated := false, checked := by decide }]
  manualEvents := []
  policy := ⟨"p", [], by decide, by decide⟩
  destinationPublishIdentityIds := []
  messageId_not_blank := by decide
  message_wf := by simp [Json.WF, Json.WFEntries]
  sourceChannel_wf := by simp [Json.WF, Json.WFEntries]
  duplicateState_wf := by simp [Json.WF, Json.WFEntries]
  media_wf := by simp [Json.WF, Json.WFEntries]

/-- `{"label": {"namespace": "effective", "key": "nsfw"}}`. -/
def nsfwPayload : Json :=
  .obj [("label", .obj [("namespace", .str "effective"), ("key", .str "nsfw")])]

/-- The second image has no label, and `none_media` matches all the same. -/
theorem noneMedia_unsound :
    ∃ facts, buildRoutingFacts partlyAnalysed = .ok facts ∧
      validateCondition (noneMediaOf nsfwPayload) none = .ok () ∧
      decodeMedia nsfwPayload = some ⟨"effective", "nsfw", .activated⟩ ∧
      ¬ (evaluateCondition (noneMediaOf nsfwPayload) facts = true →
        ∀ asset ∈ partlyAnalysed.listedAssets, LabelCondition.KnownFalse
          ⟨"effective", "nsfw", .activated⟩ (partlyAnalysed.resolved.byName "effective") asset) :=
  ⟨_, rfl, rfl, rfl, by decide⟩

/-- The same message with the analysed image alone. -/
def fullyAnalysed : RoutingSnapshot :=
  { partlyAnalysed with
    media := [[("kind", .str "image"), ("asset_id", .str "a1")]]
    media_wf := by simp [Json.WF, Json.WFEntries] }

/-- When only the analysed image is listed, the match speaks for it. -/
theorem noneMedia_sound_analysed :
    ∃ facts, buildRoutingFacts fullyAnalysed = .ok facts ∧
      (evaluateCondition (noneMediaOf nsfwPayload) facts = true →
        ∀ asset ∈ fullyAnalysed.listedAssets, LabelCondition.KnownFalse
          ⟨"effective", "nsfw", .activated⟩ (fullyAnalysed.resolved.byName "effective") asset) :=
  ⟨_, rfl, (noneMedia_sound_iff rfl rfl rfl).mpr (.inl (by decide))⟩

/-- The label conditions see exactly the resolved labels when the key of a message-level
condition has no dot and the test is no equality with an integer, or when there is no
label to see. -/
theorem labelConditions_exact_iff (h : buildRoutingFacts snapshot = .ok facts)
    (hl : decodeLabel payload = some l) :
    (validateCondition (labelOf payload) none = .ok () →
      ((evaluateCondition (labelOf payload) facts = true ↔
          l.HasGlobalLabel (snapshot.resolved.byName l.ns)) ↔
        ('.' ∉ l.key.toList ∧ l.test.isIntegerEquality = false) ∨
          ¬ l.HasGlobalLabel (snapshot.resolved.byName l.ns))) ∧
    (validateCondition (anyMediaOf (.obj [("label", payload)])) none = .ok () →
      ((evaluateCondition (anyMediaOf (.obj [("label", payload)])) facts = true ↔
          l.HasMediaLabel (snapshot.resolved.byName l.ns)) ↔
        l.test.isIntegerEquality = false ∨
          ¬ l.HasMediaLabel (snapshot.resolved.byName l.ns))) := by
  refine ⟨fun hv => ?_, fun hv => ?_⟩
  · rw [evaluate_labelOf h hv hl]
    tauto
  · have hmedia : decodeMedia (.obj [("label", payload)]) = some l := hl
    rw [evaluate_anyMediaOf h hv hmedia (isLabelTest_of_decodeLabel hl)]
    tauto

end Built

/-- A message with two message-level labels, one under a dotted key. -/
def dottedLabel : RoutingSnapshot :=
  { partlyAnalysed with
    modelAssignments := [
      { messageId := "m", targetScope := "global", targetKind := "message", targetId := "m",
        labelDefinitionVersionId := "v1", labelKey := "nsfw.soft", score := .float 1,
        activated := true, checked := by decide },
      { messageId := "m", targetScope := "global", targetKind := "message", targetId := "m",
        labelDefinitionVersionId := "v2", labelKey := "ad", score := .float 1,
        activated := true, checked := by decide }] }

/-- `{"namespace": "model", "scope": "global", "key": "nsfw.soft"}`. -/
def softPayload : Json :=
  .obj [("namespace", .str "model"), ("scope", .str "global"), ("key", .str "nsfw.soft")]

/-- `{"namespace": "model", "scope": "global", "key": "ad", "score_eq": 1}`. -/
def adPayload : Json :=
  .obj [("namespace", .str "model"), ("scope", .str "global"), ("key", .str "ad"),
    ("score_eq", .num (.int 1))]

/-- The activated label under a dotted key, which label definitions admit, is not seen,
and neither is the score 1.0 by an equality with 1. -/
theorem labelConditions_inexact :
    ∃ facts, buildRoutingFacts dottedLabel = .ok facts ∧
      validateIdentifier "nsfw.soft" "label key" = .ok "nsfw.soft" ∧
      validateCondition (labelOf softPayload) none = .ok () ∧
      decodeLabel softPayload = some ⟨"model", "nsfw.soft", .activated⟩ ∧
      ¬ (evaluateCondition (labelOf softPayload) facts = true ↔ LabelCondition.HasGlobalLabel
        ⟨"model", "nsfw.soft", .activated⟩ (dottedLabel.resolved.byName "model")) ∧
      validateCondition (labelOf adPayload) none = .ok () ∧
      decodeLabel adPayload = some ⟨"model", "ad", .score .eq (.int 1)⟩ ∧
      ¬ (evaluateCondition (labelOf adPayload) facts = true ↔ LabelCondition.HasGlobalLabel
        ⟨"model", "ad", .score .eq (.int 1)⟩ (dottedLabel.resolved.byName "model")) :=
  ⟨_, rfl, rfl, rfl, rfl, by decide, by decide +kernel, rfl, by decide +kernel⟩

/-- A plain key is seen. -/
theorem labelConditions_exact_plain :
    ∃ facts, buildRoutingFacts dottedLabel = .ok facts ∧
      (evaluateCondition (labelOf (.obj [("namespace", .str "model"), ("scope", .str "global"),
        ("key", .str "ad")])) facts = true ↔ LabelCondition.HasGlobalLabel
          ⟨"model", "ad", .activated⟩ (dottedLabel.resolved.byName "model")) :=
  ⟨_, rfl, ((labelConditions_exact_iff rfl rfl).1 rfl).mpr (.inl (by decide))⟩

end TgCurator
