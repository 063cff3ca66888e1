import TgCurator.Output.Partition

/-!
# What the validator reports

For valid expected targets the validator raises `OverflowError` where the first fault in the
scores of a validated item is an integer too large for a float (`overflows`), and otherwise
returns a report (`validate_cases`). A report splits the expected targets into those with a
result, each decided by its own item alone, and those to retry, each with an issue (`Reported`).
-/

namespace TgCurator.Output

variable {payload : Json} {executionMode : ExecutionMode} {policy : StructuredOutputPolicy}
  {labelSet : LabelSetVersion} {expected : List String} {targetField : String} {items : List Json}

/-! ## Valid targets -/

/-- The expected targets of a call: not blank, distinct, and only one outside a batch. -/
structure ValidTargets (executionMode : ExecutionMode) (expected : List String) : Prop where
  nonempty : expected ≠ []
  nonblank : ∀ target ∈ expected, isBlank target = false
  nodup : expected.Nodup
  single : targetFieldForMode executionMode = none → expected.length = 1

theorem validateExpectedTargets_of_valid (h : ValidTargets executionMode expected) :
    validateExpectedTargets expected = .ok () := by
  have hempty : expected.isEmpty = false := List.isEmpty_eq_false_iff.mpr h.nonempty
  have hall : expected.all (!isBlank ·) = true :=
    List.all_eq_true.mpr fun target htarget => by rw [h.nonblank target htarget]; rfl
  rw [validateExpectedTargets, hempty, hall, List.dedup_eq_self.mpr h.nodup, decide_eq_true rfl]
  rfl

/-! ## Reports -/

/-- Whether the validation of a payload raises on an integer too large for a float. -/
def overflows (payload : Json) (executionMode : ExecutionMode) (policy : StructuredOutputPolicy)
    (labelSet : LabelSetVersion) (expected : List String) : Bool :=
  match targetFieldForMode executionMode with
  | some targetField =>
    match onlyMember payload "results" with
    | some (.arr items) => items.any (itemRaises targetField policy labelSet expected items)
    | _ => false
  | none =>
    match onlyMember payload "result" with
    | some (.obj item) => itemOverflows none policy labelSet item
    | _ => false

/-- The result of the only item for its target in a well-formed envelope. -/
def IsResult (payload : Json) (executionMode : ExecutionMode) (policy : StructuredOutputPolicy)
    (labelSet : LabelSetVersion) (r : ValidatedTargetResult) : Prop :=
  match targetFieldForMode executionMode with
  | some targetField => ∃ items item, onlyMember payload "results" = some (.arr items) ∧
      items.filter (fun item => namedTarget targetField item = some r.targetId) = [.obj item] ∧
      validateResultItem item r.targetId (some targetField) policy labelSet = .ok (.ok r)
  | none => ∃ item, onlyMember payload "result" = some (.obj item) ∧
      validateResultItem item r.targetId none policy labelSet = .ok (.ok r)

/-- A well-formed envelope in which all is right and each target has one item. -/
def IsComplete (payload : Json) (executionMode : ExecutionMode) (policy : StructuredOutputPolicy)
    (labelSet : LabelSetVersion) (expected : List String) : Prop :=
  match targetFieldForMode executionMode with
  | some targetField => ∃ items, onlyMember payload "results" = some (.arr items) ∧
      (∀ item ∈ items, ∃ target ∈ expected, ∃ entries, item = .obj entries ∧
        namedTarget targetField item = some target ∧
        itemOk (some targetField) policy labelSet entries = true) ∧
      ∀ target ∈ expected, (items.filterMap (namedTarget targetField)).count target = 1
  | none => ∃ item, onlyMember payload "result" = some (.obj item) ∧
      itemOk none policy labelSet item = true

/-- What a validation reports. -/
structure Reported (payload : Json) (executionMode : ExecutionMode)
    (policy : StructuredOutputPolicy) (labelSet : LabelSetVersion) (expected : List String)
    (v : StructuredOutputValidation) : Prop where
  results : ∀ r, r ∈ v.validResults ↔
    r.targetId ∈ expected ∧ IsResult payload executionMode policy labelSet r
  valid : v.validResults.map (·.targetId) =
    expected.filter (· ∈ v.validResults.map (·.targetId))
  retry : v.retryTargetIds = expected.filter (· ∉ v.validResults.map (·.targetId))
  issued : ∀ target ∈ v.retryTargetIds, (∃ i ∈ v.issues, i.targetId = some target) ∨
    ∃ errorType, v = wholePayloadFailure expected errorType
  complete : v.complete = true ↔ IsComplete payload executionMode policy labelSet expected

/-- There is an issue where there is a target to retry. -/
theorem Reported.issues_of_retry {v : StructuredOutputValidation}
    (h : Reported payload executionMode policy labelSet expected v)
    (hretry : v.retryTargetIds ≠ []) : v.issues ≠ [] := by
  obtain ⟨target, htarget⟩ := List.exists_mem_of_ne_nil _ hretry
  rcases h.issued target htarget with ⟨i, hi, -⟩ | ⟨errorType, rfl⟩
  · exact List.ne_nil_of_mem hi
  · exact List.cons_ne_nil _ _

theorem IsResult.labels {r : ValidatedTargetResult}
    (h : IsResult payload executionMode policy labelSet r) :
    ∃ scores, GoodScores labelSet scores ∧ r.labels = labelSet.labelsOf scores := by
  rw [IsResult] at h
  split at h
  · obtain ⟨items, item, -, -, hitem⟩ := h
    exact (validateResultItem_spec hitem).2
  · obtain ⟨item, -, hitem⟩ := h
    exact (validateResultItem_spec hitem).2

/-- No target has a result when the whole payload fails. -/
theorem reported_failure {errorType : String}
    (hresult : ∀ r, ¬ IsResult payload executionMode policy labelSet r)
    (hcomplete : ¬ IsComplete payload executionMode policy labelSet expected) :
    Reported payload executionMode policy labelSet expected
      (wholePayloadFailure expected errorType) where
  results r := ⟨(fun h => nomatch h), fun h => absurd h.2 (hresult r)⟩
  valid := by simp [wholePayloadFailure]
  retry := by simp [wholePayloadFailure]
  issued _ _ := .inr ⟨errorType, rfl⟩
  complete := ⟨(fun h => nomatch h), fun h => absurd h hcomplete⟩

theorem reported_batch_failure {errorType : String}
    (hmode : targetFieldForMode executionMode = some targetField)
    (hno : ∀ items, onlyMember payload "results" ≠ some (.arr items)) :
    Reported payload executionMode policy labelSet expected
      (wholePayloadFailure expected errorType) := by
  refine reported_failure (fun r => ?_) ?_
  · rw [IsResult, hmode]
    rintro ⟨items, -, henvelope, -⟩
    exact hno items henvelope
  · rw [IsComplete, hmode]
    rintro ⟨items, henvelope, -⟩
    exact hno items henvelope

theorem reported_single_failure {errorType : String}
    (hmode : targetFieldForMode executionMode = none)
    (hno : ∀ item, onlyMember payload "result" ≠ some (.obj item)) :
    Reported payload executionMode policy labelSet expected
      (wholePayloadFailure expected errorType) := by
  refine reported_failure (fun r => ?_) ?_
  · rw [IsResult, hmode]
    rintro ⟨item, henvelope, -⟩
    exact hno item henvelope
  · rw [IsComplete, hmode]
    rintro ⟨item, henvelope, -⟩
    exact hno item henvelope

/-! ## Batches -/

theorem map_targetId {valid : Dict String ValidatedTargetResult}
    (h : ∀ target r, valid.lookup target = some r → r.targetId = target) (targets : List String) :
    (targets.filterMap fun target => valid.lookup target).map (·.targetId) =
      targets.filter (· ∈ valid.keys) := by
  induction targets with
  | nil => rfl
  | cons target targets ih =>
    cases hlookup : valid.lookup target with
    | none =>
      have hmem := Dict.lookup_eq_none.mp hlookup
      rw [List.filterMap_cons, hlookup, List.filter_cons_of_neg (by simpa using hmem)]
      exact ih
    | some r =>
      have hmem := Dict.mem_keys.mpr ⟨r, Dict.mem_of_lookup hlookup⟩
      rw [List.filterMap_cons, hlookup, List.filter_cons_of_pos (by simpa using hmem), ← ih]
      dsimp only
      rw [List.map_cons, h target r hlookup]

theorem itemResult?_isSome {item : Json} :
    (itemResult? targetField policy labelSet expected items item).isSome = true ↔
      ∃ target ∈ expected, ∃ entries, item = .obj entries ∧
        namedTarget targetField item = some target ∧
        (items.filterMap (namedTarget targetField)).count target ≤ 1 ∧
        itemOk (some targetField) policy labelSet entries = true := by
  rw [Option.isSome_iff_exists]
  constructor
  · rintro ⟨r, h⟩
    obtain ⟨entries, hentry, hresult⟩ := itemResult?_eq_some.mp h
    obtain ⟨hitem, hnamed, hexpected, hcount⟩ := validated?_eq_some hentry
    exact ⟨r.targetId, hexpected, entries, hitem, hnamed, hcount,
      validateResultItem_ok_iff.mp ⟨r, hresult⟩⟩
  · rintro ⟨target, hexpected, entries, rfl, hnamed, hcount, hok⟩
    obtain ⟨entries', hentries, hentry⟩ := validated?_of_named hnamed hexpected hcount
    cases hentries
    obtain ⟨r, hresult⟩ : ∃ r, validateResultItem entries target (some targetField) policy
        labelSet = .ok (.ok r) := validateResultItem_ok_iff.mpr hok
    obtain rfl := (validateResultItem_spec hresult).1
    exact ⟨r, itemResult?_eq_some.mpr ⟨entries, hentry, hresult⟩⟩

/-- Without issues and targets to retry, each item is right and each target has one. -/
theorem complete_iff {state : BatchState}
    (h : LoopInv targetField policy labelSet expected items items state) :
    state.2 = [] ∧ (∀ target ∈ expected, target ∈ items.filterMap (namedTarget targetField)) ∧
        (∀ target ∈ expected, target ∈ state.1.keys) ↔
      (∀ item ∈ items, ∃ target ∈ expected, ∃ entries, item = .obj entries ∧
        namedTarget targetField item = some target ∧
        itemOk (some targetField) policy labelSet entries = true) ∧
      ∀ target ∈ expected, (items.filterMap (namedTarget targetField)).count target = 1 := by
  rw [h.clean]
  constructor
  · rintro ⟨hitems, -, hkeys⟩
    refine ⟨fun item hitem => ?_, fun target htarget => ?_⟩
    · obtain ⟨target, htarget, entries, hobj, hnamed, -, hok⟩ :=
        itemResult?_isSome.mp (hitems item hitem)
      exact ⟨target, htarget, entries, hobj, hnamed, hok⟩
    · obtain ⟨r, hr⟩ := Dict.mem_keys.mp (hkeys target htarget)
      cases hlookup : state.1.lookup target with
      | none => exact absurd (hkeys target htarget) (Dict.lookup_eq_none.mp hlookup)
      | some r =>
        obtain ⟨rfl, hitem⟩ := (h.valid target r).mp hlookup
        obtain ⟨-, entries, hfilter, -⟩ := result_iff.mp hitem
        rw [count_named, hfilter]
        rfl
  · rintro ⟨hitems, hcount⟩
    have hsome : ∀ item ∈ items,
        (itemResult? targetField policy labelSet expected items item).isSome = true := by
      intro item hitem
      obtain ⟨target, htarget, entries, hobj, hnamed, hok⟩ := hitems item hitem
      exact itemResult?_isSome.mpr
        ⟨target, htarget, entries, hobj, hnamed, (hcount target htarget).le, hok⟩
    have hnamed : ∀ target ∈ expected, target ∈ items.filterMap (namedTarget targetField) :=
      fun target htarget => List.count_pos_iff.mp (by rw [hcount target htarget]; exact one_pos)
    refine ⟨hsome, hnamed, fun target htarget => ?_⟩
    obtain ⟨item, hitem, hname⟩ := List.mem_filterMap.mp (hnamed target htarget)
    obtain ⟨r, hr⟩ := Option.isSome_iff_exists.mp (hsome item hitem)
    have hid := Option.some.inj ((namedTarget_of_itemResult? hr).symm.trans hname)
    exact Dict.mem_keys.mpr
      ⟨r, Dict.mem_of_lookup ((h.valid target r).mpr ⟨hid, item, hitem, hr⟩)⟩

/-- What is reported after the loop. -/
theorem reported_items (hmode : targetFieldForMode executionMode = some targetField)
    (henvelope : onlyMember payload "results" = some (.arr items)) {state : BatchState}
    (h : LoopInv targetField policy labelSet expected items items state) :
    Reported payload executionMode policy labelSet expected {
      validResults := expected.filterMap fun target => state.1.lookup target
      issues := state.2 ++ (expected.filter
        (· ∉ items.filterMap (namedTarget targetField))).map fun target =>
          ⟨.missingTargetResult, "missing_target_result", some target⟩
      retryTargetIds := expected.filter (· ∉ state.1.keys) } := by
  have htarget : ∀ target r, state.1.lookup target = some r → r.targetId = target :=
    fun target r hr => ((h.valid target r).mp hr).1
  have hids := map_targetId htarget expected
  constructor
  · intro r
    have hresult : (∃ item ∈ items, itemResult? targetField policy labelSet expected items item =
        some r) ↔ r.targetId ∈ expected ∧ IsResult payload executionMode policy labelSet r := by
      rw [result_iff, IsResult, hmode]
      simp only [henvelope, Option.some.injEq, Json.arr.injEq, exists_and_left, exists_eq_left']
    rw [← hresult, List.mem_filterMap]
    constructor
    · rintro ⟨target, -, hlookup⟩
      exact ((h.valid target r).mp hlookup).2
    · intro hitem
      exact ⟨r.targetId, (result_iff.mp hitem).1, (h.valid _ r).mpr ⟨rfl, hitem⟩⟩
  · dsimp only
    rw [hids]
    refine List.filter_congr fun target hmem => ?_
    simp [hmem]
  · dsimp only
    rw [hids]
    refine List.filter_congr fun target hmem => ?_
    simp [hmem]
  · intro target hretry
    obtain ⟨hmem, hnot⟩ := List.mem_filter.mp hretry
    refine .inl ?_
    by_cases hnamed : target ∈ items.filterMap (namedTarget targetField)
    · rcases h.issued target hmem hnamed with hkey | ⟨i, hi, hitarget⟩
      · exact absurd hkey (of_decide_eq_true hnot)
      · exact ⟨i, List.mem_append_left _ hi, hitarget⟩
    · refine ⟨_, List.mem_append_right _ (List.mem_map_of_mem ?_), rfl⟩
      exact List.mem_filter.mpr ⟨hmem, decide_eq_true hnamed⟩
  · have hcomplete := complete_iff h
    rw [IsComplete, hmode]
    simp only [henvelope, Option.some.injEq, Json.arr.injEq, exists_eq_left']
    rw [← hcomplete]
    simp only [StructuredOutputValidation.complete, Bool.and_eq_true, List.isEmpty_iff,
      List.append_eq_nil_iff, List.map_eq_nil_iff, List.filter_eq_nil_iff, decide_eq_true_eq,
      not_not, and_assoc]

/-! ## Payloads -/

theorem validateItems_cases (hexpected : ∀ target ∈ expected, isBlank target = false)
    (hmode : targetFieldForMode executionMode = some targetField)
    (henvelope : onlyMember payload "results" = some (.arr items)) :
    if items.any (itemRaises targetField policy labelSet expected items) then
      validateItems targetField policy labelSet expected items = .error .overflowError
    else ∃ v, validateItems targetField policy labelSet expected items = .ok v ∧
      Reported payload executionMode policy labelSet expected v := by
  have hstart : LoopInv targetField policy labelSet expected items [] ([], []) := .start
  have hloop := loop_cases hexpected hstart (List.nil_append items).symm
  unfold validateItems
  split_ifs at hloop with hraises
  · rw [if_pos hraises, hloop]
    rfl
  · rw [if_neg hraises]
    obtain ⟨state, hstate, hinv⟩ := hloop
    rw [hstate]
    exact ⟨_, rfl, reported_items hmode henvelope hinv⟩

theorem validateSingle_cases {target : String} {item : List (String × Json)}
    (h : ValidTargets executionMode [target]) (hmode : targetFieldForMode executionMode = none)
    (henvelope : onlyMember payload "result" = some (.obj item)) :
    if itemOverflows none policy labelSet item then
      validate payload executionMode policy labelSet [target] = .error .overflowError
    else ∃ v, validate payload executionMode policy labelSet [target] = .ok v ∧
      Reported payload executionMode policy labelSet [target] v := by
  have hresult : ∀ r, IsResult payload executionMode policy labelSet r ↔
      validateResultItem item r.targetId none policy labelSet = .ok (.ok r) := by
    intro r
    rw [IsResult, hmode]
    simp [henvelope]
  have hcomplete : IsComplete payload executionMode policy labelSet [target] ↔
      itemOk none policy labelSet item = true := by
    rw [IsComplete, hmode]
    simp [henvelope]
  have hitem := item_cases item target none policy labelSet
  obtain ⟨entries, rfl⟩ : ∃ entries, payload = .obj entries := by
    cases payload with
    | obj entries => exact ⟨entries, rfl⟩
    | _ => cases henvelope
  unfold validate
  rw [validateExpectedTargets_of_valid h, hmode]
  dsimp only
  rw [henvelope]
  dsimp only
  generalize hok : itemOk none policy labelSet item = ok at hitem hcomplete
  generalize itemOverflows none policy labelSet item = overflows at hitem ⊢
  generalize hout : validateResultItem item target none policy labelSet = outcome at hitem ⊢
  cases hitem with
  | overflow => rfl
  | @result r htarget scores hscores hlabels =>
    refine ⟨_, rfl, fun r' => ?_, ?_, ?_, (fun _ h => nomatch h), ?_⟩
    · rw [hresult, List.mem_singleton, List.mem_singleton]
      constructor
      · rintro rfl
        rw [htarget]
        exact ⟨rfl, hout⟩
      · rintro ⟨hid, hr⟩
        rw [hid, hout] at hr
        exact (Except.ok.inj (Except.ok.inj hr)).symm
    · simp [htarget]
    · simp [htarget]
    · rw [hcomplete]
      exact ⟨fun _ => rfl, fun _ => rfl⟩
  | @issue i htarget =>
    refine ⟨_, rfl, fun r' => ?_, rfl, ?_, fun t ht => .inl ⟨i, List.mem_singleton_self i, ?_⟩, ?_⟩
    · rw [hresult, List.mem_singleton]
      refine ⟨(fun h => nomatch h), ?_⟩
      rintro ⟨hid, hr⟩
      rw [hid, hout] at hr
      cases Except.ok.inj hr
    · simp
    · rw [List.mem_singleton.mp ht]
      exact htarget
    · rw [hcomplete]
      exact ⟨(fun h => nomatch h), fun h => nomatch h⟩

/-- The validator raises on an integer too large for a float, or reports. -/
theorem validate_cases (h : ValidTargets executionMode expected) (payload : Json)
    (policy : StructuredOutputPolicy) (labelSet : LabelSetVersion) :
    if overflows payload executionMode policy labelSet expected then
      validate payload executionMode policy labelSet expected = .error .overflowError
    else ∃ v, validate payload executionMode policy labelSet expected = .ok v ∧
      Reported payload executionMode policy labelSet expected v := by
  have hvalid := validateExpectedTargets_of_valid h
  rw [overflows]
  cases hmode : targetFieldForMode executionMode with
  | some targetField =>
    unfold validate
    rw [hvalid, hmode]
    cases payload with
    | obj entries =>
      cases henvelope : onlyMember (.obj entries) "results" with
      | none => exact ⟨_, rfl, reported_batch_failure hmode (by simp [henvelope])⟩
      | some results =>
        cases results with
        | arr items => exact validateItems_cases h.nonblank hmode henvelope
        | _ => exact ⟨_, rfl, reported_batch_failure hmode (by simp [henvelope])⟩
    | _ => exact ⟨_, rfl, reported_batch_failure hmode nofun⟩
  | none =>
    obtain ⟨target, rfl⟩ := List.length_eq_one_iff.mp (h.single hmode)
    cases payload with
    | obj entries =>
      cases henvelope : onlyMember (.obj entries) "result" with
      | none =>
        unfold validate
        rw [hvalid, hmode]
        dsimp only
        rw [henvelope]
        exact ⟨_, rfl, reported_single_failure hmode (by simp [henvelope])⟩
      | some result =>
        cases result with
        | obj item => exact validateSingle_cases h hmode henvelope
        | _ =>
          unfold validate
          rw [hvalid, hmode]
          dsimp only
          rw [henvelope]
          exact ⟨_, rfl, reported_single_failure hmode (by simp [henvelope])⟩
    | _ =>
      unfold validate
      rw [hvalid]
      exact ⟨_, rfl, reported_single_failure hmode nofun⟩

theorem validate_raises (h : ValidTargets executionMode expected)
    (hoverflows : overflows payload executionMode policy labelSet expected = true) :
    validate payload executionMode policy labelSet expected = .error .overflowError := by
  have hcases := validate_cases h payload policy labelSet
  rwa [if_pos hoverflows] at hcases

end TgCurator.Output
