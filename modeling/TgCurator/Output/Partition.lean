import TgCurator.Output.Items

/-!
# Batches of result items

An item of a batch is validated when it names a target that is expected and that no other item
names (`validated?`). One turn of the loop of `_validate_batch` stores the result of its
item, adds an issue, or raises (`batchTurn_cases`). After the loop the results are those of the
items, every other named target has an issue, and there is no issue only if every item has a
result (`LoopInv`, `loop_cases`).
-/

namespace TgCurator.Output

variable {targetField : String} {policy : StructuredOutputPolicy} {labelSet : LabelSetVersion}
  {expected : List String} {items done rest : List Json} {item : Json} {state state' : BatchState}
  {target : String} {entries : List (String × Json)}

/-! ## Validated items -/

/-- The target and the fields of an item that is validated. -/
def validated? (targetField : String) (expected : List String) (items : List Json)
    (item : Json) : Option (String × List (String × Json)) :=
  match item with
  | .obj entries =>
    match getD entries targetField with
    | .str target =>
      if target ∈ expected ∧ ¬ 1 < (items.filterMap (namedTarget targetField)).count target then
        some (target, entries)
      else none
    | _ => none
  | _ => none

/-- The result of an item of a batch, if it is validated and valid. -/
def itemResult? (targetField : String) (policy : StructuredOutputPolicy)
    (labelSet : LabelSetVersion) (expected : List String) (items : List Json) (item : Json) :
    Option ValidatedTargetResult :=
  match validated? targetField expected items item with
  | some (target, entries) =>
    match validateResultItem entries target (some targetField) policy labelSet with
    | .ok (.ok r) => some r
    | _ => none
  | none => none

/-- Whether the validation of an item of a batch raises. -/
def itemRaises (targetField : String) (policy : StructuredOutputPolicy)
    (labelSet : LabelSetVersion) (expected : List String) (items : List Json) (item : Json) : Bool :=
  match validated? targetField expected items item with
  | some (_, entries) => itemOverflows (some targetField) policy labelSet entries
  | none => false

theorem validated?_eq_some (h : validated? targetField expected items item =
      some (target, entries)) : item = .obj entries ∧ namedTarget targetField item = some target ∧
        target ∈ expected ∧ (items.filterMap (namedTarget targetField)).count target ≤ 1 := by
  cases item with
  | obj entries' =>
    rw [validated?] at h
    cases hlabel : getD entries' targetField with
    | str target' =>
      rw [hlabel] at h
      dsimp only at h
      split_ifs at h with hcount
      obtain ⟨rfl, rfl⟩ := Prod.mk.inj (Option.some.inj h)
      refine ⟨rfl, ?_, hcount.1, not_lt.mp hcount.2⟩
      rw [namedTarget, hlabel]
      rfl
    | _ =>
      rw [hlabel] at h
      cases h
  | _ => cases h

theorem validated?_of_named (hnamed : namedTarget targetField item = some target)
    (htarget : target ∈ expected)
    (hcount : (items.filterMap (namedTarget targetField)).count target ≤ 1) :
    ∃ entries, item = .obj entries ∧
      validated? targetField expected items item = some (target, entries) := by
  cases item with
  | obj entries =>
    rw [namedTarget] at hnamed
    refine ⟨entries, rfl, ?_⟩
    rw [validated?]
    cases hlabel : getD entries targetField with
    | str target' =>
      rw [hlabel] at hnamed
      obtain rfl := Option.some.inj hnamed
      exact if_pos ⟨htarget, not_lt.mpr hcount⟩
    | _ =>
      rw [hlabel] at hnamed
      cases hnamed
  | _ => cases hnamed

/-! ## Turns -/

/-- What a turn of the loop does, by the result of the item and whether its validation raises. -/
inductive TurnOutcome (targetField : String) (expected : List String) (items : List Json)
    (state : BatchState) (item : Json) :
    Option ValidatedTargetResult → Bool → Except PyError BatchState → Prop
  | result {r : ValidatedTargetResult} (hnamed : namedTarget targetField item = some r.targetId)
      (hcount : (items.filterMap (namedTarget targetField)).count r.targetId ≤ 1) :
      TurnOutcome targetField expected items state item (some r) false
        (.ok (state.1.set r.targetId r, state.2))
  | issue {more : List ValidationIssue} (hmore : state.2 ++ more ≠ [])
      (hissue : ∀ target ∈ expected, namedTarget targetField item = some target →
        ∃ i ∈ state.2 ++ more, i.targetId = some target) :
      TurnOutcome targetField expected items state item none false (.ok (state.1, state.2 ++ more))
  | raised : TurnOutcome targetField expected items state item none true (.error .overflowError)

/-- A turn that adds an issue naming the target of its item. -/
theorem TurnOutcome.named {i : ValidationIssue}
    (h : ∀ target ∈ expected, namedTarget targetField item = some target →
      i.targetId = some target) :
    TurnOutcome targetField expected items state item none false (.ok (state.1, state.2 ++ [i])) := by
  refine .issue (by simp) fun target htarget hnamed => ⟨i, ?_, h target htarget hnamed⟩
  exact List.mem_append_right _ (List.mem_singleton_self i)

theorem batchTurn_cases (hexpected : ∀ target ∈ expected, isBlank target = false)
    (items : List Json) (state : BatchState) (item : Json) :
    TurnOutcome targetField expected items state item
      (itemResult? targetField policy labelSet expected items item)
      (itemRaises targetField policy labelSet expected items item)
      (batchTurn targetField policy labelSet expected items state item) := by
  cases item with
  | obj entries =>
    unfold itemResult? itemRaises validated? batchTurn
    dsimp only
    cases hlabel : getD entries targetField with
    | str target =>
      have hnamed : namedTarget targetField (.obj entries) = some target := by
        rw [namedTarget, hlabel]
        rfl
      dsimp only
      by_cases hmem : target ∈ expected
      · have hblank : ¬ isBlank target = true := by
          rw [hexpected target hmem]
          exact Bool.false_ne_true
        by_cases hcount : 1 < (items.filterMap (namedTarget targetField)).count target
        · have hnot : ¬ (target ∈ expected ∧
              ¬ 1 < (items.filterMap (namedTarget targetField)).count target) := fun h => h.2 hcount
          rw [if_neg hnot, if_neg hblank, if_neg (not_not.mpr hmem), if_pos hcount]
          dsimp only
          split_ifs with hany
          · obtain ⟨i, hi, htarget⟩ := List.any_eq_true.mp hany
            rw [← List.append_nil state.2] at hi
            have hturn : TurnOutcome targetField expected items state (.obj entries) none false
                (.ok (state.1, state.2 ++ [])) := by
              refine .issue (List.ne_nil_of_mem hi) fun target' _ hnamed' => ⟨i, hi, ?_⟩
              rw [← hnamed', hnamed]
              exact (of_decide_eq_true htarget).2
            rwa [List.append_nil] at hturn
          · exact .named fun target' _ hnamed' => hnamed.symm.trans hnamed'
        · rw [if_pos ⟨hmem, hcount⟩, if_neg hblank, if_neg (not_not.mpr hmem), if_neg hcount]
          dsimp only
          have hitem := item_cases entries target (some targetField) policy labelSet
          generalize itemOk (some targetField) policy labelSet entries = ok at hitem
          generalize itemOverflows (some targetField) policy labelSet entries = overflows
            at hitem ⊢
          generalize validateResultItem entries target (some targetField) policy labelSet =
            outcome at hitem ⊢
          cases hitem with
          | result htarget =>
            subst htarget
            exact .result hnamed (not_lt.mp hcount)
          | issue hissue =>
            exact .named fun target' _ hnamed' => hissue.trans (hnamed.symm.trans hnamed')
          | overflow => exact .raised
      · have hnot : ¬ (target ∈ expected ∧
            ¬ 1 < (items.filterMap (namedTarget targetField)).count target) := fun h => hmem h.1
        rw [if_neg hnot, if_pos hmem]
        have hissue : ∀ {i : ValidationIssue}, ∀ target' ∈ expected,
            namedTarget targetField (.obj entries) = some target' → i.targetId = some target' :=
          fun target' hmem' hnamed' =>
            absurd (Option.some.inj (hnamed.symm.trans hnamed') ▸ hmem') hmem
        by_cases hblank : isBlank target = true
        · rw [if_pos hblank]
          exact .named hissue
        · rw [if_neg hblank]
          exact .named hissue
    | _ =>
      refine .named fun target' _ hnamed => ?_
      rw [namedTarget, hlabel] at hnamed
      cases hnamed
  | _ => exact .named fun _ _ hnamed => nomatch hnamed

/-! ## Results of items -/

theorem itemResult?_eq_some {r : ValidatedTargetResult} :
    itemResult? targetField policy labelSet expected items item = some r ↔
      ∃ entries, validated? targetField expected items item = some (r.targetId, entries) ∧
        validateResultItem entries r.targetId (some targetField) policy labelSet = .ok (.ok r) := by
  constructor
  · intro h
    rw [itemResult?] at h
    cases hentry : validated? targetField expected items item with
    | none =>
      rw [hentry] at h
      cases h
    | some found =>
      obtain ⟨target, entries⟩ := found
      rw [hentry] at h
      dsimp only at h
      split at h
      · next r' hresult =>
        obtain rfl := Option.some.inj h
        obtain rfl := (validateResultItem_spec hresult).1
        exact ⟨entries, rfl, hresult⟩
      · cases h
  · rintro ⟨entries, hentry, hresult⟩
    rw [itemResult?, hentry]
    dsimp only
    rw [hresult]

theorem namedTarget_of_itemResult? {r : ValidatedTargetResult}
    (h : itemResult? targetField policy labelSet expected items item = some r) :
    namedTarget targetField item = some r.targetId := by
  obtain ⟨entries, hentry, -⟩ := itemResult?_eq_some.mp h
  exact (validated?_eq_some hentry).2.1

theorem count_named (target : String) (items : List Json) :
    (items.filterMap (namedTarget targetField)).count target =
      (items.filter fun item => namedTarget targetField item = some target).length := by
  rw [List.count_filterMap, List.countP_eq_length_filter]
  simp only [beq_eq_decide]

/-- The result of a target is that of the only item that names it. -/
theorem result_iff {r : ValidatedTargetResult} :
    (∃ item ∈ items, itemResult? targetField policy labelSet expected items item = some r) ↔
      r.targetId ∈ expected ∧ ∃ entries,
        items.filter (fun item => namedTarget targetField item = some r.targetId) =
          [.obj entries] ∧
        validateResultItem entries r.targetId (some targetField) policy labelSet = .ok (.ok r) := by
  constructor
  · rintro ⟨item, hitem, h⟩
    obtain ⟨entries, hentry, hresult⟩ := itemResult?_eq_some.mp h
    obtain ⟨rfl, hnamed, hexpected, hcount⟩ := validated?_eq_some hentry
    refine ⟨hexpected, entries, ?_, hresult⟩
    rw [count_named] at hcount
    have hmem : .obj entries ∈
        items.filter fun item => namedTarget targetField item = some r.targetId :=
      List.mem_filter.mpr ⟨hitem, decide_eq_true hnamed⟩
    have hlength := List.length_pos_of_mem hmem
    obtain ⟨only, honly⟩ := List.length_eq_one_iff.mp (le_antisymm hcount hlength)
    rw [honly] at hmem ⊢
    rw [List.mem_singleton.mp hmem]
  · rintro ⟨hexpected, entries, hfilter, hresult⟩
    have hmem : .obj entries ∈
        items.filter fun item => namedTarget targetField item = some r.targetId := by
      rw [hfilter]
      exact List.mem_singleton_self _
    obtain ⟨hitem, hnamed⟩ := List.mem_filter.mp hmem
    have hcount : (items.filterMap (namedTarget targetField)).count r.targetId ≤ 1 := by
      rw [count_named, hfilter]
      exact le_rfl
    obtain ⟨entries', hentries, hentry⟩ :=
      validated?_of_named (of_decide_eq_true hnamed) hexpected hcount
    cases hentries
    exact ⟨_, hitem, itemResult?_eq_some.mpr ⟨entries, hentry, hresult⟩⟩

/-! ## The loop -/

/-- What holds after the items `done`. -/
structure LoopInv (targetField : String) (policy : StructuredOutputPolicy)
    (labelSet : LabelSetVersion) (expected : List String) (items done : List Json)
    (state : BatchState) : Prop where
  valid : ∀ target r, state.1.lookup target = some r ↔ r.targetId = target ∧
    ∃ item ∈ done, itemResult? targetField policy labelSet expected items item = some r
  issued : ∀ target ∈ expected, target ∈ done.filterMap (namedTarget targetField) →
    target ∈ state.1.keys ∨ ∃ i ∈ state.2, i.targetId = some target
  clean : state.2 = [] ↔ ∀ item ∈ done,
    (itemResult? targetField policy labelSet expected items item).isSome = true

theorem LoopInv.start : LoopInv targetField policy labelSet expected items [] ([], []) where
  valid := by simp
  issued := by simp
  clean := by simp

/-- No other item names the target of a validated item. -/
theorem notMem_named (hitems : items = done ++ item :: rest)
    (hnamed : namedTarget targetField item = some target)
    (hcount : (items.filterMap (namedTarget targetField)).count target ≤ 1) :
    target ∉ done.filterMap (namedTarget targetField) := by
  rw [hitems, List.filterMap_append, List.filterMap_cons_some hnamed, List.count_append,
    List.count_cons_self] at hcount
  exact List.count_eq_zero.mp (by omega)

theorem LoopInv.turn {raises : Bool} (h : LoopInv targetField policy labelSet expected items done state)
    (hitems : items = done ++ item :: rest)
    (hturn : TurnOutcome targetField expected items state item
      (itemResult? targetField policy labelSet expected items item) raises (.ok state')) :
    LoopInv targetField policy labelSet expected items (done ++ [item]) state' := by
  generalize hresult : itemResult? targetField policy labelSet expected items item = result?
    at hturn
  cases hturn with
  | @result r hnamed hcount =>
    have hnew := notMem_named hitems hnamed hcount
    refine ⟨fun target r' => ?_, fun target htarget hmem => ?_, ?_⟩
    · simp only [List.mem_append, List.mem_singleton, or_and_right, exists_or, exists_eq_left,
        hresult, Option.some.injEq]
      by_cases heq : target = r.targetId
      · subst heq
        rw [Dict.lookup_set_self, Option.some.injEq]
        constructor
        · rintro rfl
          exact ⟨rfl, .inr rfl⟩
        · rintro ⟨htarget, ⟨item', hitem', hresult'⟩ | rfl⟩
          · refine absurd (List.mem_filterMap.mpr ⟨item', hitem', ?_⟩) hnew
            rw [← htarget]
            exact namedTarget_of_itemResult? hresult'
          · rfl
      · rw [Dict.lookup_set_of_ne heq, h.valid]
        refine and_congr_right fun htarget => ?_
        rw [or_iff_left]
        rintro rfl
        exact heq htarget.symm
    · rw [Dict.mem_keys_set]
      rw [List.filterMap_append, List.mem_append, List.filterMap_cons_some hnamed] at hmem
      rcases hmem with hmem | hmem
      · exact (h.issued target htarget hmem).imp_left .inr
      · exact .inl (.inl (List.mem_singleton.mp hmem))
    · rw [List.forall_mem_append, List.forall_mem_singleton, hresult, h.clean]
      simp
  | @issue more hmore hissue =>
    refine ⟨fun target r' => ?_, fun target htarget hmem => ?_, ?_⟩
    · simp only [List.mem_append, List.mem_singleton, or_and_right, exists_or, exists_eq_left,
        hresult, h.valid, reduceCtorEq, or_false]
    · rw [List.filterMap_append, List.mem_append] at hmem
      rcases hmem with hmem | hmem
      · refine (h.issued target htarget hmem).imp_right ?_
        rintro ⟨i, hi, hitarget⟩
        exact ⟨i, List.mem_append_left _ hi, hitarget⟩
      · obtain ⟨item', hitem', hnamed⟩ := List.mem_filterMap.mp hmem
        obtain rfl := List.mem_singleton.mp hitem'
        exact .inr (hissue target htarget hnamed)
    · rw [List.forall_mem_append, List.forall_mem_singleton, hresult]
      simp [hmore]

/-- The loop ends with the invariant for all items, or raises, as an item does. -/
theorem loop_cases (hexpected : ∀ target ∈ expected, isBlank target = false)
    (h : LoopInv targetField policy labelSet expected items done state)
    (hitems : items = done ++ rest) :
    if rest.any (itemRaises targetField policy labelSet expected items) then
      rest.foldlM (batchTurn targetField policy labelSet expected items) state =
        .error .overflowError
    else ∃ state',
      rest.foldlM (batchTurn targetField policy labelSet expected items) state = .ok state' ∧
        LoopInv targetField policy labelSet expected items items state' := by
  induction rest generalizing done state with
  | nil =>
    rw [List.append_nil] at hitems
    subst hitems
    exact ⟨state, rfl, h⟩
  | cons item rest ih =>
    rw [List.foldlM_cons, List.any_cons]
    have hturn : TurnOutcome targetField expected items state item
        (itemResult? targetField policy labelSet expected items item)
        (itemRaises targetField policy labelSet expected items item)
        (batchTurn targetField policy labelSet expected items state item) :=
      batchTurn_cases hexpected items state item
    generalize hraises : itemRaises targetField policy labelSet expected items item = raises
      at hturn
    generalize houtcome : batchTurn targetField policy labelSet expected items state item = outcome
      at hturn
    cases outcome with
    | error e =>
      generalize itemResult? targetField policy labelSet expected items item = result? at hturn
      cases hturn
      rfl
    | ok state' =>
      have hnot : raises = false := by
        generalize itemResult? targetField policy labelSet expected items item = result? at hturn
        cases hturn <;> rfl
      rw [hnot, Bool.false_or]
      refine ih (h.turn hitems hturn) ?_
      rw [hitems, List.append_assoc]
      rfl

end TgCurator.Output
