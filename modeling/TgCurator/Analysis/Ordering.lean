import Mathlib.Data.String.Basic
import TgCurator.Analysis.Pipeline
import TgCurator.TopologicalOrder

/-!
# The order of the stages

`_topological_ids` on stages with unique ids whose dependencies are stages. Before each turn
of the loop the dependencies that are left of a stage are those not yet ordered, and the ready
stages are those that can come next (`LoopInv`), so that the loop takes the least available
stage (`LoopInv.turn`) and ends when nothing is available (`loop_spec`).

`topologicalIds_spec`: an order is found exactly when there is no cycle, and it is the least
topological order, however the stages are given.
-/

namespace TgCurator

open TopologicalOrder

/-- The ids of stages. -/
def stageIds (stages : List PipelineStage) : List String :=
  stages.map PipelineStage.stageId

/-- The dependencies of the stage with an id. -/
def dependenciesOf (stages : List PipelineStage) (stageId : String) : List String :=
  ((stages.find? fun stage => stage.stageId = stageId).map PipelineStage.dependsOn).getD []

/-! ## One turn -/

section

variable {current : String} {ordered : List String}
  {state : Dict String (List String) × List String} {id : String}

theorem releaseStage_lookup (current : String) (ordered : List String)
    (state : Dict String (List String) × List String) (stageId id : String) :
    (releaseStage current ordered state stageId).1.lookup id =
      if id = stageId then (state.1.lookup id).map (·.erase current) else state.1.lookup id := by
  unfold releaseStage
  cases hstage : state.1.lookup stageId with
  | none =>
    dsimp only
    split_ifs with hid
    · rw [hid, hstage]
      rfl
    · rfl
  | some dependencies =>
    dsimp only
    by_cases hcurrent : current ∈ dependencies
    · rw [if_pos hcurrent]
      by_cases hid : id = stageId
      · rw [if_pos hid, hid, hstage, Dict.lookup_set_self]
        rfl
      · rw [if_neg hid, Dict.lookup_set_of_ne hid]
    · rw [if_neg hcurrent]
      split_ifs with hid
      · rw [hid, hstage, Option.map_some, List.erase_of_not_mem hcurrent]
      · rfl

theorem releaseStage_keys (h : state.1.keys.Nodup) (stageId : String) :
    (releaseStage current ordered state stageId).1.keys.Nodup := by
  unfold releaseStage
  split
  · exact h
  · split_ifs
    · exact Dict.nodup_keys_set h
    · exact h

/-- A stage gets ready when its last dependency is struck off. -/
theorem mem_releaseStage (stageId id : String) :
    id ∈ (releaseStage current ordered state stageId).2 ↔ id ∈ state.2 ∨
      (id = stageId ∧ id ∉ ordered ∧ ∃ dependencies, state.1.lookup id = some dependencies ∧
        current ∈ dependencies ∧ dependencies.erase current = []) := by
  unfold releaseStage
  cases hstage : state.1.lookup stageId with
  | none =>
    refine ⟨.inl, fun h => h.elim (fun h => h) ?_⟩
    rintro ⟨rfl, -, dependencies, hid, -⟩
    rw [hstage] at hid
    cases hid
  | some dependencies =>
    dsimp only
    by_cases hcurrent : current ∈ dependencies
    · rw [if_pos hcurrent]
      dsimp only
      split_ifs with hready
      · rw [List.mem_append, List.mem_singleton]
        refine or_congr_right ⟨?_, And.left⟩
        rintro rfl
        exact ⟨rfl, hready.2.1, dependencies, hstage, hcurrent, hready.1⟩
      · refine ⟨.inl, fun h => h.elim (fun h => h) ?_⟩
        rintro ⟨rfl, hordered, dependencies', hid, -, hnil⟩
        obtain rfl := Option.some.inj (hstage.symm.trans hid)
        by_contra hnot
        exact hready ⟨hnil, hordered, hnot⟩
    · rw [if_neg hcurrent]
      refine ⟨.inl, fun h => h.elim (fun h => h) ?_⟩
      rintro ⟨rfl, -, dependencies', hid, hmem, -⟩
      obtain rfl := Option.some.inj (hstage.symm.trans hid)
      exact absurd hmem hcurrent

theorem nodup_releaseStage (h : state.2.Nodup) (stageId : String) :
    (releaseStage current ordered state stageId).2.Nodup := by
  unfold releaseStage
  split
  · exact h
  · next dependencies _ =>
    by_cases hcurrent : current ∈ dependencies
    · rw [if_pos hcurrent]
      dsimp only
      split_ifs with hready
      · exact h.append (List.nodup_singleton _) (by simpa using hready.2.2)
      · exact h
    · rw [if_neg hcurrent]
      exact h

/-- What the inner loop leaves of the dependencies. -/
theorem foldl_releaseStage_lookup {todo : List String} (htodo : todo.Nodup)
    (state : Dict String (List String) × List String) (id : String) :
    (todo.foldl (releaseStage current ordered) state).1.lookup id =
      if id ∈ todo then (state.1.lookup id).map (·.erase current) else state.1.lookup id := by
  induction todo generalizing state with
  | nil => rfl
  | cons stageId todo ih =>
    rw [List.nodup_cons] at htodo
    rw [List.foldl_cons, ih htodo.2, releaseStage_lookup]
    by_cases hid : id = stageId
    · rw [if_pos hid, if_neg (hid ▸ htodo.1), if_pos (by simp [hid])]
    · simp only [List.mem_cons, hid, false_or, if_false]

/-- What the inner loop makes ready. -/
theorem mem_foldl_releaseStage {todo : List String} (htodo : todo.Nodup)
    (state : Dict String (List String) × List String) (id : String) :
    id ∈ (todo.foldl (releaseStage current ordered) state).2 ↔ id ∈ state.2 ∨
      (id ∈ todo ∧ id ∉ ordered ∧ ∃ dependencies, state.1.lookup id = some dependencies ∧
        current ∈ dependencies ∧ dependencies.erase current = []) := by
  induction todo generalizing state with
  | nil => simp
  | cons stageId todo ih =>
    rw [List.nodup_cons] at htodo
    rw [List.foldl_cons, ih htodo.2, mem_releaseStage, releaseStage_lookup, List.mem_cons]
    by_cases hid : id = stageId
    · have hnot : id ∉ todo := hid ▸ htodo.1
      simp [hid, htodo.1]
    · simp [hid]

theorem foldl_releaseStage_nodup (todo : List String)
    {state : Dict String (List String) × List String} (hkeys : state.1.keys.Nodup)
    (hready : state.2.Nodup) :
    (todo.foldl (releaseStage current ordered) state).1.keys.Nodup ∧
      (todo.foldl (releaseStage current ordered) state).2.Nodup := by
  induction todo generalizing state with
  | nil => exact ⟨hkeys, hready⟩
  | cons stageId todo ih =>
    exact ih (releaseStage_keys hkeys stageId) (nodup_releaseStage hready stageId)

end

theorem mem_sorted {l : List String} {s : String} : s ∈ sorted l ↔ s ∈ l :=
  List.mem_insertionSort _

theorem nodup_sorted {l : List String} : (sorted l).Nodup ↔ l.Nodup :=
  (List.perm_insertionSort _ _).nodup_iff

theorem pairwise_sorted (l : List String) : (sorted l).Pairwise (· ≤ ·) :=
  List.pairwise_insertionSort _ _

/-! ## The loop -/

/-- What holds before each turn of the loop. -/
structure LoopInv (deps : String → List String) (ids : List String)
    (dependencies : Dict String (List String)) (ready ordered : List String) : Prop where
  greedy : Greedy deps ids ordered
  keys_nodup : dependencies.keys.Nodup
  found : ∀ id, id ∈ ids → ∃ rest, dependencies.lookup id = some rest
  rest : ∀ id rest, dependencies.lookup id = some rest →
    id ∈ ids ∧ rest.Nodup ∧ ∀ d, d ∈ rest ↔ d ∈ deps id ∧ d ∉ ordered
  ready_sorted : ready.Pairwise (· ≤ ·)
  ready_nodup : ready.Nodup
  mem_ready : ∀ id, id ∈ ready ↔ Available deps ids ordered id

variable {deps : String → List String} {ids : List String}
  {dependencies : Dict String (List String)} {ready ordered : List String} {current : String}

/-- What the inner loop of a turn leaves. -/
abbrev released (current : String) (dependencies : Dict String (List String))
    (ready ordered : List String) : Dict String (List String) × List String :=
  (sorted dependencies.keys).foldl (releaseStage current (ordered ++ [current]))
    (dependencies, ready)

theorem mem_sorted_keys {id : String} {rest : List String}
    (h : dependencies.lookup id = some rest) : id ∈ sorted dependencies.keys :=
  mem_sorted.mpr (Dict.mem_keys.mpr ⟨_, Dict.mem_of_lookup h⟩)

namespace LoopInv

variable {id : String} {rest : List String}

/-- A turn strikes the stage off the dependencies of the others. -/
theorem lookup_released (h : LoopInv deps ids dependencies (current :: ready) ordered)
    (hid : dependencies.lookup id = some rest) :
    (released current dependencies ready ordered).1.lookup id = some (rest.erase current) := by
  rw [foldl_releaseStage_lookup (nodup_sorted.mpr h.keys_nodup), if_pos (mem_sorted_keys hid), hid]
  rfl

/-- After a turn the dependencies that are left are those not yet ordered. -/
theorem rest_released (h : LoopInv deps ids dependencies (current :: ready) ordered)
    (hrest : (released current dependencies ready ordered).1.lookup id = some rest) :
    id ∈ ids ∧ rest.Nodup ∧ ∀ d, d ∈ rest ↔ d ∈ deps id ∧ d ∉ ordered ++ [current] := by
  have hfound : ∃ before, dependencies.lookup id = some before := by
    rw [foldl_releaseStage_lookup (nodup_sorted.mpr h.keys_nodup)] at hrest
    split_ifs at hrest
    · exact (Option.map_eq_some_iff.mp hrest).imp fun _ h => h.1
    · exact ⟨_, hrest⟩
  obtain ⟨before, hbefore⟩ := hfound
  obtain rfl := Option.some.inj ((h.lookup_released hbefore).symm.trans hrest)
  obtain ⟨hnode, hnodup, hmem⟩ := h.rest id before hbefore
  refine ⟨hnode, hnodup.erase _, fun d => ?_⟩
  rw [hnodup.mem_erase_iff, hmem, List.mem_append, List.mem_singleton, not_or]
  tauto

/-- A stage that is ready after a turn can come next. -/
theorem available_of_mem_released
    (h : LoopInv deps ids dependencies (current :: ready) ordered)
    (hid : id ∈ (released current dependencies ready ordered).2) :
    Available deps ids (ordered ++ [current]) id := by
  have hnodup := List.nodup_cons.mp h.ready_nodup
  rw [mem_foldl_releaseStage (nodup_sorted.mpr h.keys_nodup)] at hid
  rcases hid with hid | ⟨-, hordered, rest, hrest, -, hnil⟩
  · have havailable := (h.mem_ready id).mp (List.mem_cons_of_mem _ hid)
    refine ⟨havailable.mem, ?_, fun d hd => List.mem_append_left _ (havailable.ready d hd)⟩
    rw [List.mem_append, List.mem_singleton, not_or]
    exact ⟨havailable.notMem, fun heq => hnodup.1 (heq ▸ hid)⟩
  · obtain ⟨hnode, hrestnodup, hmem⟩ := h.rest id rest hrest
    refine ⟨hnode, hordered, fun d hd => ?_⟩
    rw [List.mem_append, List.mem_singleton]
    by_contra hnot
    rw [not_or] at hnot
    have hleft := hrestnodup.mem_erase_iff.mpr ⟨hnot.2, (hmem d).mpr ⟨hd, hnot.1⟩⟩
    rw [hnil] at hleft
    cases hleft

/-- A stage that can come next after a turn is ready: it was, or its last dependency was struck
off. -/
theorem mem_released_of_available
    (h : LoopInv deps ids dependencies (current :: ready) ordered)
    (havailable : Available deps ids (ordered ++ [current]) id) :
    id ∈ (released current dependencies ready ordered).2 := by
  rw [mem_foldl_releaseStage (nodup_sorted.mpr h.keys_nodup)]
  obtain ⟨rest, hrest⟩ := h.found id havailable.mem
  obtain ⟨hnode, hrestnodup, hmem⟩ := h.rest id rest hrest
  have hid := havailable.notMem
  rw [List.mem_append, List.mem_singleton, not_or] at hid
  by_cases hleft : current ∈ rest
  · refine .inr ⟨mem_sorted_keys hrest, havailable.notMem, rest, hrest, hleft, ?_⟩
    refine List.eq_nil_iff_forall_not_mem.mpr fun d hd => ?_
    obtain ⟨hne, hd⟩ := hrestnodup.mem_erase_iff.mp hd
    obtain ⟨hd, hnot⟩ := (hmem d).mp hd
    have hordered := havailable.ready d hd
    rw [List.mem_append, List.mem_singleton] at hordered
    exact hordered.elim hnot hne
  · have hready : id ∈ current :: ready := by
      refine (h.mem_ready id).mpr ⟨havailable.mem, hid.1, fun d hd => ?_⟩
      have hordered := havailable.ready d hd
      rw [List.mem_append, List.mem_singleton] at hordered
      rcases hordered with hordered | rfl
      · exact hordered
      · by_contra hnot
        exact hleft ((hmem d).mpr ⟨hd, hnot⟩)
    exact .inl ((List.mem_cons.mp hready).resolve_left hid.2)

/-- A turn of the loop takes the least available stage. -/
theorem turn (h : LoopInv deps ids dependencies (current :: ready) ordered) :
    LoopInv deps ids (released current dependencies ready ordered).1
      (sorted (released current dependencies ready ordered).2) (ordered ++ [current]) := by
  have hcurrent := (h.mem_ready current).mp (List.mem_cons_self ..)
  have hsorted := List.pairwise_cons.mp h.ready_sorted
  have hnodups := @foldl_releaseStage_nodup current (ordered ++ [current])
    (sorted dependencies.keys) (dependencies, ready) h.keys_nodup (List.nodup_cons.mp h.ready_nodup).2
  refine ⟨?_, hnodups.1, fun id hid => ?_, fun id rest hrest => h.rest_released hrest,
    pairwise_sorted _, nodup_sorted.mpr hnodups.2, fun id => ?_⟩
  · refine h.greedy.snoc hcurrent fun b hb => ?_
    rcases List.mem_cons.mp ((h.mem_ready b).mpr hb) with rfl | hb
    · exact le_rfl
    · exact hsorted.1 b hb
  · obtain ⟨rest, hrest⟩ := h.found id hid
    exact ⟨_, h.lookup_released hrest⟩
  · rw [mem_sorted]
    exact ⟨h.available_of_mem_released, h.mem_released_of_available⟩

end LoopInv

/-- The loop orders stages until nothing is available, given a turn for each stage. -/
theorem loop_spec {fuel : ℕ} (h : LoopInv deps ids dependencies ready ordered)
    (hfuel : ids.length ≤ fuel + ordered.length) :
    Greedy deps ids (topologicalLoop fuel dependencies ready ordered).2 ∧
      ∀ a, ¬ Available deps ids (topologicalLoop fuel dependencies ready ordered).2 a := by
  induction fuel generalizing dependencies ready ordered with
  | zero =>
    refine ⟨h.greedy, fun a ha => ?_⟩
    have hlength := h.greedy.length_lt ha
    omega
  | succ fuel ih =>
    cases ready with
    | nil =>
      refine ⟨h.greedy, fun a ha => ?_⟩
      have hready := (h.mem_ready a).mpr ha
      cases hready
    | cons current ready =>
      refine ih h.turn ?_
      rw [List.length_append, List.length_singleton]
      omega

/-! ## Stages -/

variable {stages stages' : List PipelineStage}

/-- The stages have unique ids, and depend on stages. -/
structure WellNamed (stages : List PipelineStage) : Prop where
  nodup : (stageIds stages).Nodup
  named : ∀ stage ∈ stages, ∀ d ∈ stage.dependsOn, d ∈ stageIds stages

theorem mem_stageIds {id : String} :
    id ∈ stageIds stages ↔ ∃ stage ∈ stages, stage.stageId = id :=
  List.mem_map

/-- A stage is found by its id. -/
theorem dependenciesOf_stageId (h : (stageIds stages).Nodup) {stage : PipelineStage}
    (hstage : stage ∈ stages) : dependenciesOf stages stage.stageId = stage.dependsOn := by
  unfold dependenciesOf
  have hfind : (stages.find? fun s => s.stageId = stage.stageId) = some stage := by
    induction stages with
    | nil => cases hstage
    | cons s stages ih =>
      rw [stageIds, List.map_cons, List.nodup_cons] at h
      rcases List.mem_cons.mp hstage with rfl | hstage
      · exact List.find?_cons_of_pos (by simp)
      · rw [List.find?_cons_of_neg, ih h.2 hstage]
        simp only [decide_eq_true_eq]
        intro heq
        exact h.1 (heq ▸ List.mem_map_of_mem hstage)
  rw [hfind]
  rfl

theorem WellNamed.mem_dependenciesOf (h : WellNamed stages) :
    ∀ id ∈ stageIds stages, ∀ d ∈ dependenciesOf stages id, d ∈ stageIds stages := by
  intro id hid d hd
  obtain ⟨stage, hstage, rfl⟩ := mem_stageIds.mp hid
  rw [dependenciesOf_stageId h.nodup hstage] at hd
  exact h.named stage hstage d hd

theorem WellNamed.perm (h : WellNamed stages) (hperm : stages'.Perm stages) :
    WellNamed stages' := by
  have hids : (stageIds stages').Perm (stageIds stages) := hperm.map _
  refine ⟨hids.nodup_iff.mpr h.nodup, fun stage hstage d hd => ?_⟩
  exact hids.mem_iff.mpr (h.named stage (hperm.mem_iff.mp hstage) d hd)

/-- The invariant holds before the first turn. -/
theorem loopInv_start (h : WellNamed stages) :
    LoopInv (dependenciesOf stages) (stageIds stages)
      (Dict.ofList (stages.map fun stage => (stage.stageId, stage.dependsOn.dedup)))
      (sorted (((Dict.ofList (stages.map fun stage => (stage.stageId,
        stage.dependsOn.dedup))).filter fun e => e.2 = []).map Prod.fst)) [] := by
  have hkeys : Dict.keys (stages.map fun stage => (stage.stageId, stage.dependsOn.dedup)) =
      stageIds stages := by
    rw [Dict.keys, List.map_map]
    rfl
  have hnodup := h.nodup
  rw [← hkeys] at hnodup
  rw [Dict.ofList_eq_self hnodup]
  have hlookup : ∀ {id rest}, List.lookup id (stages.map fun stage =>
      (stage.stageId, stage.dependsOn.dedup)) = some rest ↔
        ∃ stage ∈ stages, stage.stageId = id ∧ stage.dependsOn.dedup = rest := by
    intro id rest
    rw [Dict.lookup_eq_some_iff_mem hnodup, List.mem_map]
    simp only [Prod.mk.injEq]
  refine ⟨.nil, hnodup, ?_, ?_, pairwise_sorted _, ?_, ?_⟩
  · intro id hid
    obtain ⟨stage, hstage, rfl⟩ := mem_stageIds.mp hid
    exact ⟨_, hlookup.mpr ⟨stage, hstage, rfl, rfl⟩⟩
  · intro id rest hrest
    obtain ⟨stage, hstage, rfl, rfl⟩ := hlookup.mp hrest
    rw [dependenciesOf_stageId h.nodup hstage]
    exact ⟨mem_stageIds.mpr ⟨stage, hstage, rfl⟩, List.nodup_dedup _, fun d => by simp⟩
  · rw [nodup_sorted]
    exact hnodup.sublist (List.filter_sublist.map _)
  · intro id
    rw [mem_sorted]
    simp only [List.mem_map, List.mem_filter, decide_eq_true_eq]
    constructor
    · rintro ⟨e, ⟨⟨stage, hstage, rfl⟩, hnil⟩, rfl⟩
      refine ⟨mem_stageIds.mpr ⟨stage, hstage, rfl⟩, List.not_mem_nil, fun d hd => ?_⟩
      rw [dependenciesOf_stageId h.nodup hstage, ← List.mem_dedup] at hd
      exact hnil ▸ hd
    · intro havailable
      obtain ⟨stage, hstage, rfl⟩ := mem_stageIds.mp havailable.mem
      refine ⟨_, ⟨⟨stage, hstage, rfl⟩, ?_⟩, rfl⟩
      refine List.eq_nil_iff_forall_not_mem.mpr fun d hd => ?_
      have hready := havailable.ready d
      rw [dependenciesOf_stageId h.nodup hstage] at hready
      exact List.not_mem_nil (hready (List.mem_dedup.mp hd))

/-- An order that is found is the complete greedy listing. -/
theorem topologicalIds_iff (h : WellNamed stages) (order : List String) :
    topologicalIds stages = .ok order ↔
      Greedy (dependenciesOf stages) (stageIds stages) order ∧
        order.length = (stageIds stages).length := by
  have hlength : (stageIds stages).length = stages.length := List.length_map _
  have hfuel : (stageIds stages).length ≤ stages.length + ([] : List String).length := hlength.le
  obtain ⟨hgreedy, hdone⟩ := loop_spec (loopInv_start h) hfuel
  unfold topologicalIds
  dsimp only
  rw [seq_eq_ok, ensure_eq_ok, decide_eq_true_eq]
  constructor
  · rintro ⟨hcomplete, horder⟩
    obtain rfl := Except.ok.inj horder
    exact ⟨hgreedy, hcomplete.trans hlength.symm⟩
  · rintro ⟨horder, hcomplete⟩
    have hacyclic := (horder.complete_iff h.nodup h.mem_dependenciesOf ?_).mp hcomplete
    · have hcomplete' := (hgreedy.complete_iff h.nodup h.mem_dependenciesOf hdone).mpr hacyclic
      exact ⟨hcomplete'.trans hlength,
        congrArg Except.ok (hgreedy.eq horder h.nodup hcomplete' hcomplete)⟩
    · intro a ha
      exact ha.notMem ((horder.isOrder hcomplete).perm.mem_iff.mpr ha.mem)

/-- For every list of stages with unique ids whose dependencies are stages: an order is found
exactly when there is no cycle; it is a permutation of the ids in which each stage comes after
its dependencies, and the least such list; and it is found for every order of the stages. -/
theorem topologicalIds_spec (stages : List PipelineStage) (h : WellNamed stages) :
    ((∃ order, topologicalIds stages = .ok order) ↔
      Acyclic (dependenciesOf stages) (stageIds stages)) ∧
    (∀ order, topologicalIds stages = .ok order →
      IsOrder (dependenciesOf stages) (stageIds stages) order ∧
        ∀ order', IsOrder (dependenciesOf stages) (stageIds stages) order' → order ≤ order') ∧
    ∀ stages', stages'.Perm stages → ∀ order,
      topologicalIds stages' = .ok order ↔ topologicalIds stages = .ok order := by
  refine ⟨?_, ?_, ?_⟩
  · have hfuel : (stageIds stages).length ≤ stages.length + ([] : List String).length :=
      (List.length_map _).le
    obtain ⟨hgreedy, hdone⟩ := loop_spec (loopInv_start h) hfuel
    rw [← hgreedy.complete_iff h.nodup h.mem_dependenciesOf hdone]
    constructor
    · rintro ⟨order, horder⟩
      obtain ⟨horder, hcomplete⟩ := (topologicalIds_iff h order).mp horder
      rw [hgreedy.complete_iff h.nodup h.mem_dependenciesOf hdone,
        ← horder.complete_iff h.nodup h.mem_dependenciesOf]
      · exact hcomplete
      · intro a ha
        exact ha.notMem ((horder.isOrder hcomplete).perm.mem_iff.mpr ha.mem)
    · exact fun hcomplete => ⟨_, (topologicalIds_iff h _).mpr ⟨hgreedy, hcomplete⟩⟩
  · intro order horder
    obtain ⟨horder, hcomplete⟩ := (topologicalIds_iff h order).mp horder
    exact ⟨horder.isOrder hcomplete, fun order' h' => horder.le_of_isOrder h.nodup hcomplete h'⟩
  · intro stages' hperm order
    have hids : (stageIds stages').Perm (stageIds stages) := hperm.map _
    have h' := h.perm hperm
    rw [topologicalIds_iff h, topologicalIds_iff h', hids.length_eq]
    have hdeps : ∀ id ∈ stageIds stages, dependenciesOf stages' id = dependenciesOf stages id := by
      intro id hid
      obtain ⟨stage, hstage, rfl⟩ := mem_stageIds.mp hid
      rw [dependenciesOf_stageId h.nodup hstage,
        dependenciesOf_stageId h'.nodup (hperm.mem_iff.mpr hstage)]
    refine and_congr_left fun _ => ⟨fun hgreedy => ?_, fun hgreedy => ?_⟩
    · exact hgreedy.congr (fun _ => hids.mem_iff.symm) fun id hid =>
        (hdeps id (hids.mem_iff.mp hid)).symm
    · exact hgreedy.congr (fun _ => hids.mem_iff) hdeps

/-- `topologicalIds_spec` at two stages that wait for a third one. -/
theorem topologicalIds_spec_fork :
    let stages : List PipelineStage := [⟨"c", ["b", "b"]⟩, ⟨"a", ["b"]⟩, ⟨"b", []⟩]
    topologicalIds stages = .ok ["b", "a", "c"] ∧
      Acyclic (dependenciesOf stages) (stageIds stages) ∧
      IsOrder (dependenciesOf stages) (stageIds stages) ["b", "a", "c"] := by
  intro stages
  have horder : topologicalIds stages = .ok ["b", "a", "c"] := by decide +kernel
  have hnamed : WellNamed stages := ⟨by decide, by decide⟩
  have h := topologicalIds_spec stages hnamed
  exact ⟨horder, h.1.mp ⟨_, horder⟩, (h.2.1 _ horder).1⟩

end TgCurator
