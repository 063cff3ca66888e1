import TgCurator.Output.Validation
import TgCurator.Routing.Faults

/-!
# Reports of the validator

`validate_returns_iff`: for valid targets, exactly when the validator returns, with issues
unless the report is complete. `score_beyond_floats` is a payload on which it raises.

`validate_partition`: a report splits the expected targets, in their order, into those with a
result and those to retry. The validator reports on every payload whose integers are floats
(`overflows_of_representable`).
-/

namespace TgCurator.Output

variable {payload : Json} {executionMode : ExecutionMode} {policy : StructuredOutputPolicy}
  {labelSet : LabelSetVersion} {expected : List String} {v : StructuredOutputValidation}

/-! ## Integers that are floats -/

/-- No integer of a value is too large for a float. -/
def Representable (payload : Json) : Prop :=
  ∀ n, Number.int n ∈ numbers payload → floatOverflows n = false

theorem Representable.item {items : List Json} {item : Json} (h : Representable (.arr items))
    (hitem : item ∈ items) : Representable item := by
  intro n hn
  refine h n ?_
  rw [numbers]
  induction items with
  | nil => cases hitem
  | cons other items ih =>
    rw [numbersItems, List.mem_append]
    rcases List.mem_cons.mp hitem with rfl | hitem
    · exact .inl hn
    · refine .inr (ih (fun m hm => h m ?_) hitem)
      rw [numbers, numbersItems, List.mem_append]
      exact .inr hm

theorem Representable.value {entries : List (String × Json)} {e : String × Json}
    (h : Representable (.obj entries)) (he : e ∈ entries) : Representable e.2 := by
  intro n hn
  refine h n ?_
  rw [numbers]
  induction entries with
  | nil => cases he
  | cons other entries ih =>
    rw [numbersEntries, List.mem_append]
    rcases List.mem_cons.mp he with rfl | he
    · exact .inl hn
    · refine .inr (ih (fun m hm => h m ?_) he)
      rw [numbers, numbersEntries, List.mem_append]
      exact .inr hm

theorem Representable.lookup {entries : List (String × Json)} {name : String} {value : Json}
    (h : Representable (.obj entries)) (hlookup : entries.lookup name = some value) :
    Representable value :=
  h.value (Dict.mem_of_lookup hlookup)

theorem Representable.getD {entries : List (String × Json)} (h : Representable (.obj entries))
    (name : String) : Representable (getD entries name) := by
  rw [TgCurator.getD]
  cases hlookup : entries.lookup name with
  | none =>
    intro n hn
    cases hn
  | some value => exact h.lookup hlookup

theorem isOverflowing_of_representable {value : Json} (h : Representable value) :
    isOverflowing value = false := by
  cases value with
  | num n =>
    cases n with
    | int n => exact h n (List.mem_singleton_self _)
    | _ => rfl
  | _ => rfl

theorem denseOverflows_of_representable {scores : Json} (h : Representable scores) :
    denseOverflows labelSet scores = false := by
  cases scores with
  | obj entries =>
    rw [denseOverflows]
    cases labelSet.labelKeys.find? fun key => !isScore (TgCurator.getD entries key) with
    | none => exact Bool.and_false _
    | some key =>
      rw [Option.any_some, isOverflowing_of_representable (h.getD key)]
      exact Bool.and_false _
  | _ => rfl

theorem representable_of_matchOf? {seen : List String} {found score : Json} {key : String}
    (h : Representable found) (hmatch : matchOf? labelSet seen found = some (key, score)) :
    Representable score := by
  cases found with
  | obj entries =>
    rw [matchOf?] at hmatch
    split_ifs at hmatch
    split at hmatch
    · split_ifs at hmatch
      obtain ⟨-, rfl⟩ := Prod.mk.inj (Option.some.inj hmatch)
      exact h.getD "score"
    · cases hmatch
  | _ => cases hmatch

theorem sparseOverflows_of_representable {found : List Json} (h : Representable (.arr found))
    (seen : List String) : sparseOverflows labelSet found seen = false := by
  induction found generalizing seen with
  | nil => rfl
  | cons m rest ih =>
    rw [sparseOverflows]
    cases hmatch : matchOf? labelSet seen m with
    | none => rfl
    | some found =>
      obtain ⟨key, score⟩ := found
      have hscore := representable_of_matchOf? (h.item List.mem_cons_self) hmatch
      dsimp only
      split_ifs
      · refine ih (fun n hn => h n ?_) _
        rw [numbers, numbersItems, List.mem_append]
        exact .inr hn
      · exact isOverflowing_of_representable hscore

theorem itemOverflows_of_representable {item : List (String × Json)}
    (h : Representable (.obj item)) (targetField : Option String) :
    itemOverflows targetField policy labelSet item = false := by
  have hscores : scoresOverflow policy labelSet item = false := by
    rw [scoresOverflow]
    cases policy.mode with
    | denseScores => exact denseOverflows_of_representable (h.getD "scores")
    | sparseMatches =>
      have hfound := h.getD "matches"
      cases hvalue : TgCurator.getD item "matches" with
      | arr found =>
        rw [hvalue] at hfound
        exact sparseOverflows_of_representable hfound []
      | _ => rfl
  rw [itemOverflows, hscores, Bool.and_false]

theorem representable_of_onlyMember {name : String} {value : Json} (h : Representable payload)
    (hmember : onlyMember payload name = some value) : Representable value := by
  cases payload with
  | obj entries =>
    rw [onlyMember] at hmember
    split_ifs at hmember
    exact h.lookup hmember
  | _ => cases hmember

theorem overflows_of_representable (h : Representable payload) :
    overflows payload executionMode policy labelSet expected = false := by
  unfold overflows
  split
  · next targetField _ =>
    split
    · next items henvelope =>
      have hitems := representable_of_onlyMember h henvelope
      refine List.any_eq_false.mpr fun item hitem => ?_
      rw [itemRaises]
      cases hentry : validated? targetField expected items item with
      | none => exact Bool.false_ne_true
      | some entry =>
        obtain ⟨target, entries⟩ := entry
        obtain ⟨rfl, -⟩ := validated?_eq_some hentry
        dsimp only
        rw [itemOverflows_of_representable (hitems.item hitem)]
        exact Bool.false_ne_true
    · rfl
  · split
    · next henvelope =>
      exact itemOverflows_of_representable (representable_of_onlyMember h henvelope) none
    · rfl

/-! ## Returning -/

/-- The validator returns exactly when no first fault of scores is an integer too large for a
float; it then names an issue unless all is right. -/
theorem validate_returns_iff (h : ValidTargets executionMode expected) (payload : Json)
    (policy : StructuredOutputPolicy) (labelSet : LabelSetVersion) :
    (∃ v, validate payload executionMode policy labelSet expected = .ok v ∧
        (v.complete = false → v.issues ≠ [])) ↔
      overflows payload executionMode policy labelSet expected = false := by
  have hcases := validate_cases h payload policy labelSet
  cases hover : overflows payload executionMode policy labelSet expected with
  | true =>
    rw [validate_raises h hover]
    simp
  | false =>
    rw [if_neg (by rw [hover]; exact Bool.false_ne_true)] at hcases
    obtain ⟨v, hv, hreported⟩ := hcases
    refine ⟨fun _ => rfl, fun _ => ⟨v, hv, fun hincomplete hissues => ?_⟩⟩
    have hretry : v.retryTargetIds ≠ [] := by
      intro hempty
      rw [StructuredOutputValidation.complete, hissues, hempty] at hincomplete
      cases hincomplete
    exact hreported.issues_of_retry hretry hissues

theorem threshold_half : inUnitInterval (.float (1 / 2)) = true := by decide +kernel

/-- A label set of one label, activated from one half on. -/
def oneLabel : LabelSetVersion where
  versionId := "v1"
  bindings := [⟨⟨"d1", "cat", "Cat", "A cat", .global, false⟩, .float (1 / 2), 0, "",
    threshold_half⟩]
  nonempty := List.cons_ne_nil _ _
  versionIds_nodup := List.nodup_singleton _
  keys_nodup := List.nodup_singleton _
  orders_nodup := List.nodup_singleton _

/-- A response of a single message. -/
def singleResponse (score : Number) : Json :=
  .obj [("result", .obj [("scores", .obj [("cat", .num score)])])]

theorem validTargets_single : ValidTargets .singleMessage ["m1"] where
  nonempty := List.cons_ne_nil _ _
  nonblank := by simp [isBlank]; decide
  nodup := List.nodup_singleton _
  single _ := rfl

theorem validate_returns_oneLabel :
    ∃ v, validate (singleResponse (.float (3 / 4))) .singleMessage {} oneLabel ["m1"] = .ok v ∧
      (v.complete = false → v.issues ≠ []) :=
  (validate_returns_iff validTargets_single _ _ _).mpr (by decide +kernel)

/-- A score too large for a float. -/
def beyondFloats : Number :=
  .int (10 ^ 400)

theorem overflows_beyondFloats :
    overflows (singleResponse beyondFloats) .singleMessage {} oneLabel ["m1"] = true := by
  decide +kernel

/-- A score of `10 ^ 400` makes the validator raise `OverflowError`. -/
theorem score_beyond_floats : ¬ ∀ (entries : List (String × Json)) (executionMode : ExecutionMode)
    (policy : StructuredOutputPolicy) (labelSet : LabelSetVersion) (expected : List String),
    ValidTargets executionMode expected →
      ∃ v, validate (.obj entries) executionMode policy labelSet expected = .ok v := by
  intro h
  obtain ⟨v, hv⟩ := h [("result", .obj [("scores", .obj [("cat", .num beyondFloats)])])] _ {}
    oneLabel _ validTargets_single
  cases (validate_raises validTargets_single overflows_beyondFloats).symm.trans hv

/-! ## Partitions -/

/-- The targets with a result. -/
def StructuredOutputValidation.validTargetIds (v : StructuredOutputValidation) : List String :=
  v.validResults.map (·.targetId)

theorem validTargets_of_ok (h : validateExpectedTargets expected = .ok ())
    (hsingle : targetFieldForMode executionMode = none → expected.length = 1) :
    ValidTargets executionMode expected := by
  unfold validateExpectedTargets at h
  obtain ⟨_, hnonempty, h⟩ := bind_eq_ok.mp h
  obtain ⟨_, hnonblank, hnodup⟩ := bind_eq_ok.mp h
  have hempty := ensure_eq_ok.mp hnonempty
  have hblank := List.all_eq_true.mp (ensure_eq_ok.mp hnonblank)
  have hlength := of_decide_eq_true (ensure_eq_ok.mp hnodup)
  refine ⟨?_, fun target htarget => ?_, ?_, hsingle⟩
  · rintro rfl
    cases hempty
  · simpa using hblank target htarget
  · rw [← (List.dedup_sublist expected).eq_of_length hlength]
    exact List.nodup_dedup expected

/-- Only a payload that is no object gets past targets that are not valid. -/
theorem validTargets_or_failure
    (h : validate payload executionMode policy labelSet expected = .ok v) :
    ValidTargets executionMode expected ∨
      v = wholePayloadFailure expected "response_not_object" ∧
        targetFieldForMode executionMode = none ∧ ∀ entries, payload ≠ .obj entries := by
  have hvalid : validateExpectedTargets expected = .ok () := by
    cases hexpected : validateExpectedTargets expected with
    | ok u => rfl
    | error e =>
      unfold validate at h
      rw [hexpected] at h
      cases h
  by_cases hsingle : targetFieldForMode executionMode = none → expected.length = 1
  · exact .inl (validTargets_of_ok hvalid hsingle)
  · obtain ⟨hmode, hlength⟩ := Classical.not_imp.mp hsingle
    refine .inr ?_
    unfold validate at h
    rw [hvalid, hmode] at h
    cases payload with
    | obj entries =>
      match expected, hlength with
      | [], _ => cases h
      | _ :: _ :: _, _ => cases h
    | _ => exact ⟨(Except.ok.inj h).symm, hmode, nofun⟩

/-- Whatever the validator returns is a report. -/
theorem reported_of_ok (h : validate payload executionMode policy labelSet expected = .ok v) :
    Reported payload executionMode policy labelSet expected v := by
  rcases validTargets_or_failure h with hvalid | ⟨rfl, hmode, hpayload⟩
  · have hcases := validate_cases hvalid payload policy labelSet
    split_ifs at hcases
    · cases hcases.symm.trans h
    · obtain ⟨v', hv', hreported⟩ := hcases
      obtain rfl := Except.ok.inj (hv'.symm.trans h)
      exact hreported
  · refine reported_single_failure hmode fun item hitem => ?_
    cases payload with
    | obj entries => exact hpayload entries rfl
    | _ => cases hitem

/-- A target of a batch has a result exactly when a single item names it and that item is
valid. -/
theorem Reported.mem_validTargetIds {targetField target : String}
    (h : Reported payload executionMode policy labelSet expected v)
    (hmode : targetFieldForMode executionMode = some targetField) :
    target ∈ v.validTargetIds ↔ target ∈ expected ∧
      ∃ items item r, onlyMember payload "results" = some (.arr items) ∧
        items.filter (fun item => namedTarget targetField item = some target) = [.obj item] ∧
        validateResultItem item target (some targetField) policy labelSet = .ok (.ok r) := by
  have hresults := h.results
  simp only [IsResult, hmode] at hresults
  constructor
  · intro hmem
    obtain ⟨r, hr, rfl⟩ := List.mem_map.mp hmem
    obtain ⟨hexpected, items, item, henvelope, hfilter, hitem⟩ := (hresults r).mp hr
    exact ⟨hexpected, items, item, r, henvelope, hfilter, hitem⟩
  · rintro ⟨hexpected, items, item, r, henvelope, hfilter, hitem⟩
    obtain rfl := (validateResultItem_spec hitem).1
    exact List.mem_map_of_mem ((hresults r).mpr
      ⟨hexpected, items, item, henvelope, hfilter, hitem⟩)

/-- The report splits the expected targets, in their order, into those with a result and those
to retry. Its results are those that items for expected targets have by themselves, and a target
of a batch has one exactly when a single item of a well-formed envelope names it and that item is
valid. Each target to retry has an issue, and the labels of a result are in output order,
activated from their thresholds on. -/
theorem validate_partition (payload : Json) (executionMode : ExecutionMode)
    (policy : StructuredOutputPolicy) (labelSet : LabelSetVersion) (expected : List String) :
    (Representable payload → ValidTargets executionMode expected →
      ∃ v, validate payload executionMode policy labelSet expected = .ok v) ∧
    ∀ v, validate payload executionMode policy labelSet expected = .ok v →
      v.validTargetIds = expected.filter (· ∈ v.validTargetIds) ∧
      v.retryTargetIds = expected.filter (· ∉ v.validTargetIds) ∧
      (∀ r, r ∈ v.validResults ↔
        r.targetId ∈ expected ∧ IsResult payload executionMode policy labelSet r) ∧
      (∀ targetField, targetFieldForMode executionMode = some targetField →
        ∀ target, target ∈ v.validTargetIds ↔ target ∈ expected ∧
          ∃ items item r, onlyMember payload "results" = some (.arr items) ∧
            items.filter (fun item => namedTarget targetField item = some target) = [.obj item] ∧
            validateResultItem item target (some targetField) policy labelSet = .ok (.ok r)) ∧
      (∀ target ∈ v.retryTargetIds, (∃ i ∈ v.issues, i.targetId = some target) ∨
        ∃ errorType, v = wholePayloadFailure expected errorType) ∧
      (v.retryTargetIds ≠ [] → v.issues ≠ []) ∧
      ∀ r ∈ v.validResults, ∃ bindings : List LabelBinding, bindings ⊆ labelSet.bindings ∧
        bindings.Pairwise (fun a b => a.outputOrder < b.outputOrder) ∧
        List.Forall₂ (fun binding label => label.key = binding.label.key ∧
          label.activated = binding.activationThreshold.le label.score) bindings r.labels := by
  refine ⟨fun hpayload hvalid => ?_, fun v hv => ?_⟩
  · have hcases := validate_cases hvalid payload policy labelSet
    rw [if_neg (by rw [overflows_of_representable hpayload]; exact Bool.false_ne_true)] at hcases
    obtain ⟨v, hv, -⟩ := hcases
    exact ⟨v, hv⟩
  have hreported := reported_of_ok hv
  refine ⟨hreported.valid, hreported.retry, hreported.results,
    fun targetField hmode target => hreported.mem_validTargetIds hmode, hreported.issued,
    hreported.issues_of_retry, fun r hr => ?_⟩
  obtain ⟨-, hresult⟩ := (hreported.results r).mp hr
  obtain ⟨scores, -, hlabels⟩ := hresult.labels
  rw [hlabels]
  exact labelSet.bindings_of_labelsOf scores

/-- An item for a message. -/
def firstItem : List (String × Json) :=
  [("message_id", .str "m1"), ("scores", .obj [("cat", .num (.float (3 / 4)))])]

/-- A response for the first of two messages. -/
def firstResponse : Json :=
  .obj [("results", .arr [.obj firstItem])]

theorem representable_firstResponse : Representable firstResponse := by
  intro n hn
  simp [firstResponse, firstItem, numbers, numbersItems, numbersEntries] at hn

theorem validTargets_two : ValidTargets .batchMessages ["m1", "m2"] where
  nonempty := List.cons_ne_nil _ _
  nonblank := by simp [isBlank]; decide
  nodup := by simp
  single h := nomatch h

theorem validateResultItem_first :
    ∃ r, validateResultItem firstItem "m1" (some "message_id") {} oneLabel = .ok (.ok r) :=
  validateResultItem_ok_iff.mpr (by decide +kernel)

theorem validate_partition_first :
    ∃ v, validate firstResponse .batchMessages {} oneLabel ["m1", "m2"] = .ok v ∧
      "m1" ∈ v.validTargetIds ∧
      v.retryTargetIds = ["m1", "m2"].filter (· ∉ v.validTargetIds) := by
  have hpartition := validate_partition firstResponse .batchMessages {} oneLabel ["m1", "m2"]
  obtain ⟨v, hv⟩ := hpartition.1 representable_firstResponse validTargets_two
  obtain ⟨-, hretry, -, hvalid, -⟩ := hpartition.2 v hv
  obtain ⟨r, hr⟩ := validateResultItem_first
  have hfilter : [Json.obj firstItem].filter
      (fun item => namedTarget "message_id" item = some "m1") = [.obj firstItem] := by
    rfl
  exact ⟨v, hv, (hvalid "message_id" rfl "m1").mpr
    ⟨List.mem_cons_self, [.obj firstItem], firstItem, r, rfl, hfilter, hr⟩, hretry⟩

end TgCurator.Output
