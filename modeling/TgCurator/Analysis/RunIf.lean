import TgCurator.Analysis.Pipeline

/-!
# What the condition of a node reads

A node may read the blocking of its message and the label facts of its ancestors
(`Readable`). The constructor of a pipeline checks the predicates of every condition
against these facts (`accepted_of_create`), but not its label conditions, which name
facts below `labels`. A condition without label conditions is a function of the readable
facts, and only such a condition names no other fact (`runIf_reads_readable`).
-/

namespace TgCurator

/-! ## Ancestors -/

/-- A node depends on another one of the pipeline. -/
def DependsOn (nodes : List PipelineStageNode) (node dependency : PipelineStageNode) : Prop :=
  dependency ∈ nodes ∧ dependency.nodeId ∈ node.dependsOn

/-- The ancestors of a node. -/
def IsAncestor (nodes : List PipelineStageNode) (node ancestor : PipelineStageNode) : Prop :=
  Relation.TransGen (DependsOn nodes) node ancestor

/-- The facts a node may read: the blocking of its message and the labels of its ancestors. -/
def Readable (nodes : List PipelineStageNode) (node : PipelineStageNode) (fact : String) : Prop :=
  fact = blockedFact ∨ ∃ ancestor, IsAncestor nodes node ancestor ∧ fact ∈ ancestor.labelFacts

section Ancestors

variable {nodes : List PipelineStageNode} {node : PipelineStageNode}

theorem mem_of_lookup_nodesById {nodeId : String}
    (h : (nodesById nodes).lookup nodeId = some node) : node ∈ nodes ∧ node.nodeId = nodeId := by
  obtain ⟨n, hn, heq⟩ := List.mem_map.mp (Dict.mem_of_lookup_ofList h)
  obtain ⟨rfl, rfl⟩ := Prod.mk.inj heq
  exact ⟨hn, rfl⟩

/-- An id that the search reaches belongs to an ancestor. -/
theorem isAncestor_of_reaches {ancestor : PipelineStageNode} {a b : String}
    (hab : Relation.ReflTransGen (Worklist.Step (dependenciesById nodes)) a b)
    (hb : (nodesById nodes).lookup b = some ancestor) (ha : a ∈ node.dependsOn) :
    IsAncestor nodes node ancestor := by
  induction hab using Relation.ReflTransGen.head_induction_on generalizing node with
  | refl =>
    obtain ⟨hmem, hid⟩ := mem_of_lookup_nodesById hb
    exact .single ⟨hmem, hid ▸ ha⟩
  | head hstep _ ih =>
    obtain ⟨successors, hsuccessors, hc⟩ := hstep
    obtain ⟨next, hnext, rfl⟩ := Option.map_eq_some_iff.mp hsuccessors
    obtain ⟨hmem, hid⟩ := mem_of_lookup_nodesById hnext
    exact .head ⟨hmem, hid ▸ ha⟩ (ih hc)

/-- The allow-list of a node holds readable facts only. -/
theorem readable_of_mem_allowedFacts {allowed : List String}
    (h : allowedFacts nodes node = .ok allowed) {fact : String} (hfact : fact ∈ allowed) :
    Readable nodes node fact := by
  obtain ⟨ids, hids, h⟩ := bind_eq_ok.mp h
  obtain ⟨ancestors, hancestors, h⟩ := bind_eq_ok.mp h
  obtain rfl := Except.ok.inj h
  rcases List.mem_cons.mp hfact with rfl | hfact
  · exact .inl rfl
  obtain ⟨ancestor, hancestor, hfact⟩ := List.mem_flatMap.mp hfact
  obtain ⟨id, hid, hnode⟩ := exists_left_of_mem (mapM_eq_ok.mp hancestors) hancestor
  refine .inr ⟨ancestor, ?_, hfact⟩
  have hlookup : (nodesById nodes).lookup id = some ancestor := by
    unfold nodeById at hnode
    cases hl : (nodesById nodes).lookup id with
    | none => simp [hl] at hnode
    | some n => simpa [hl] using hnode
  unfold ancestorIds at hids
  cases hsearch : Worklist.search (dependenciesById nodes)
      (node.dependsOn.length + edgeCount nodes) node.dependsOn.reverse [] with
  | none => simp [hsearch] at hids
  | some found =>
    obtain rfl : found = ids := by simpa [hsearch] using hids
    obtain ⟨a, ha, hreach⟩ := (Worklist.mem_search hsearch id).mp hid
    exact isAncestor_of_reaches hreach hlookup (List.mem_reverse.mp ha)

/-! ## The allow-list is complete -/

/-- What the graph checks leave: ids are unique, and dependencies are ids. -/
structure WellFormedGraph (nodes : List PipelineStageNode) : Prop where
  nodup : (nodes.map PipelineStageNode.nodeId).Nodup
  closed : ∀ node ∈ nodes, ∀ id ∈ node.dependsOn, ∃ dependency ∈ nodes, dependency.nodeId = id

theorem wellFormedGraph_of_validateGraph
    (h : validateGraph (nodes.map PipelineStageNode.toPipelineStage) = .ok ()) :
    WellFormedGraph nodes := by
  obtain ⟨hnodup, h⟩ := seq_eq_ok.mp h
  obtain ⟨hclosed, -⟩ := seq_eq_ok.mp h
  have hids : (nodes.map PipelineStageNode.toPipelineStage).map PipelineStage.stageId =
      nodes.map PipelineStageNode.nodeId := by
    rw [List.map_map]
    rfl
  rw [hids] at hnodup hclosed
  refine ⟨?_, fun node hnode id hid => ?_⟩
  · have hlength := of_decide_eq_true (ensure_eq_ok.mp hnodup)
    rw [List.length_map, ← List.length_map (f := PipelineStageNode.nodeId)] at hlength
    exact List.dedup_eq_self.mp (List.Sublist.eq_of_length (List.dedup_sublist _) hlength)
  · have hmissing := ensure_eq_ok.mp (forM_eq_ok.mp hclosed _ (List.mem_map_of_mem hnode))
    rw [List.isEmpty_iff_length_eq_zero, missingDependencies, sorted, List.length_insertionSort,
      List.length_eq_zero_iff, List.filter_eq_nil_iff] at hmissing
    have hmem := hmissing id (List.mem_dedup.mpr hid)
    obtain ⟨dependency, hdependency, rfl⟩ := List.mem_map.mp (by simpa using hmem)
    exact ⟨dependency, hdependency, rfl⟩

theorem WellFormedGraph.lookup (hg : WellFormedGraph nodes) (hnode : node ∈ nodes) :
    (nodesById nodes).lookup node.nodeId = some node := by
  refine Dict.lookup_ofList_of_mem ?_ (List.mem_map_of_mem hnode)
  rw [Dict.keys, List.map_map]
  exact hg.nodup

theorem WellFormedGraph.step (hg : WellFormedGraph nodes) {dependency : PipelineStageNode}
    (hnode : node ∈ nodes) (h : DependsOn nodes node dependency) :
    Worklist.Step (dependenciesById nodes) node.nodeId dependency.nodeId :=
  ⟨node.dependsOn, by rw [dependenciesById, hg.lookup hnode]; rfl, h.2⟩

theorem WellFormedGraph.workload (hg : WellFormedGraph nodes) :
    Worklist.workload (dependenciesById nodes) [] (nodes.map PipelineStageNode.nodeId) =
      edgeCount nodes := by
  have hsub : ∀ l ⊆ nodes, Worklist.workload (dependenciesById nodes) []
      (l.map PipelineStageNode.nodeId) = edgeCount l := by
    intro l hl
    induction l with
    | nil => rfl
    | cons n l ih =>
      obtain ⟨hn, hl⟩ := List.cons_subset.mp hl
      rw [List.map_cons, Worklist.workload, ih hl, edgeCount, dependenciesById, hg.lookup hn]
      rfl
  exact hsub nodes (List.Subset.refl _)

theorem WellFormedGraph.mem_ids (hg : WellFormedGraph nodes) (hnode : node ∈ nodes) {id : String}
    (hid : id ∈ node.dependsOn) : id ∈ nodes.map PipelineStageNode.nodeId := by
  obtain ⟨dependency, hdependency, rfl⟩ := hg.closed node hnode id hid
  exact List.mem_map_of_mem hdependency

/-- The search for the ancestors finishes. -/
theorem WellFormedGraph.exists_search (hg : WellFormedGraph nodes) (hnode : node ∈ nodes) :
    ∃ ids, Worklist.search (dependenciesById nodes) (node.dependsOn.length + edgeCount nodes)
      node.dependsOn.reverse [] = some ids := by
  refine Option.isSome_iff_exists.mp
    (@Worklist.isSome_search _ _ _ (nodes.map PipelineStageNode.nodeId) _ _ ?_ ?_ ?_)
  · intro id hid
    obtain ⟨n, hn, rfl⟩ := List.mem_map.mp hid
    exact ⟨n.dependsOn, by rw [dependenciesById, hg.lookup hn]; rfl,
      fun id hid => hg.mem_ids hn hid⟩
  · exact fun id hid => hg.mem_ids hnode (List.mem_reverse.mp hid)
  · rw [hg.workload, List.length_reverse]

theorem WellFormedGraph.reaches (hg : WellFormedGraph nodes) {ancestor : PipelineStageNode}
    (hnode : node ∈ nodes) (h : Relation.ReflTransGen (DependsOn nodes) node ancestor) :
    Relation.ReflTransGen (Worklist.Step (dependenciesById nodes)) node.nodeId
      ancestor.nodeId := by
  induction h using Relation.ReflTransGen.head_induction_on with
  | refl => exact .refl
  | head hstep _ ih => exact .head (hg.step hnode hstep) (ih hstep.1)

/-- On a graph that was checked the allow-list is computed, without a `KeyError`, and holds
exactly the readable facts. -/
theorem WellFormedGraph.allowedFacts_eq_ok (hg : WellFormedGraph nodes) (hnode : node ∈ nodes) :
    ∃ allowed, allowedFacts nodes node = .ok allowed ∧
      ∀ fact, fact ∈ allowed ↔ Readable nodes node fact := by
  obtain ⟨ids, hids⟩ := hg.exists_search hnode
  have hancestorIds : ancestorIds nodes node = .ok ids := by rw [ancestorIds, hids]
  -- every id that was found is the id of a node
  have hfound : ∀ id ∈ ids, ∃ n, (nodesById nodes).lookup id = some n := by
    intro id hid
    obtain ⟨a, ha, hreach⟩ := (Worklist.mem_search hids id).mp hid
    have hmem : id ∈ nodes.map PipelineStageNode.nodeId := by
      rcases Relation.ReflTransGen.cases_tail hreach with rfl | ⟨b, -, successors, hb, hid⟩
      · exact hg.mem_ids hnode (List.mem_reverse.mp ha)
      · obtain ⟨n, hn, rfl⟩ := Option.map_eq_some_iff.mp hb
        exact hg.mem_ids (mem_of_lookup_nodesById hn).1 hid
    obtain ⟨n, hn, rfl⟩ := List.mem_map.mp hmem
    exact ⟨n, hg.lookup hn⟩
  obtain ⟨ancestors, hancestors⟩ : ∃ ancestors, ids.mapM (nodeById nodes) = .ok ancestors :=
    exists_mapM_eq_ok fun id hid => by
      obtain ⟨n, hn⟩ := hfound id hid
      exact ⟨n, by rw [nodeById, hn]⟩
  have hallowed : allowedFacts nodes node =
      .ok (blockedFact :: ancestors.flatMap PipelineStageNode.labelFacts) :=
    bind_eq_ok.mpr ⟨ids, hancestorIds, bind_eq_ok.mpr ⟨ancestors, hancestors, rfl⟩⟩
  refine ⟨_, hallowed, fun fact => ⟨readable_of_mem_allowedFacts hallowed, ?_⟩⟩
  rintro (rfl | ⟨ancestor, hancestor, hfact⟩)
  · exact List.mem_cons_self ..
  obtain ⟨dependency, hdependency, hrest⟩ := Relation.TransGen.head'_iff.mp hancestor
  have hid : ancestor.nodeId ∈ ids := (Worklist.mem_search hids _).mpr
    ⟨dependency.nodeId, List.mem_reverse.mpr hdependency.2, hg.reaches hdependency.1 hrest⟩
  have hmem : ancestor ∈ nodes := by
    obtain ⟨_, -, hlast⟩ := Relation.TransGen.tail'_iff.mp hancestor
    exact hlast.1
  obtain ⟨n, hn, hlookup⟩ := exists_right_of_mem (mapM_eq_ok.mp hancestors) hid
  obtain rfl : ancestor = n := by
    simpa [nodeById, hg.lookup hmem] using hlookup
  exact List.mem_cons_of_mem _ (List.mem_flatMap.mpr ⟨ancestor, hn, hfact⟩)

end Ancestors

/-! ## Conditions of accepted pipelines -/

namespace PipelineStageNode

/-- The tree of the condition. -/
def condition? (node : PipelineStageNode) : Option Condition :=
  node.runIf.bind decode

/-- The facts the condition names. -/
def namedFacts (node : PipelineStageNode) : List String :=
  (node.condition?.map Condition.paths).getD []

/-- The label conditions in the condition. -/
def labelConditions (node : PipelineStageNode) : List LabelCondition :=
  (node.condition?.map Condition.labels).getD []

end PipelineStageNode

namespace Condition

variable {allowed : List String} {c : Condition}

/-- Without label conditions, the paths are allowed facts. -/
theorem Accepted.mem_of_mem_paths (h : c.Accepted (some allowed)) (hlabels : c.labels = []) :
    ∀ path ∈ c.paths, path ∈ allowed := by
  have hchildren : ∀ {children : List Condition},
      (∀ c ∈ children, c.labels = [] → ∀ path ∈ c.paths, path ∈ allowed) →
      labelsList children = [] → ∀ path ∈ pathsList children, path ∈ allowed := by
    intro children ih hlabels path hpath
    rw [labelsList_eq_flatMap, List.flatMap_eq_nil_iff] at hlabels
    rw [pathsList_eq_flatMap] at hpath
    obtain ⟨c, hc, hpath⟩ := List.mem_flatMap.mp hpath
    exact ih c hc (hlabels c hc) path hpath
  induction h with
  | exist h | compare _ _ _ h | present _ h =>
    intro path hpath
    rw [List.mem_singleton.mp hpath]
    exact h.2 allowed rfl
  | label | anyMedia | noneMedia => cases hlabels
  | all _ ih | any _ ih => exact hchildren ih hlabels
  | not _ ih => exact ih hlabels

/-- A label condition names the message-level label or the media dictionary. -/
theorem Accepted.exists_label_path {allowed : Option (List String)} (h : c.Accepted allowed) :
    ∀ l ∈ c.labels, l.globalPath ∈ c.paths ∨ l.mediaPath ∈ c.paths := by
  have hchildren : ∀ {children : List Condition},
      (∀ c ∈ children, ∀ l ∈ c.labels, l.globalPath ∈ c.paths ∨ l.mediaPath ∈ c.paths) →
      ∀ l ∈ labelsList children,
        l.globalPath ∈ pathsList children ∨ l.mediaPath ∈ pathsList children := by
    intro children ih l hl
    rw [labelsList_eq_flatMap] at hl
    rw [pathsList_eq_flatMap]
    obtain ⟨c, hc, hl⟩ := List.mem_flatMap.mp hl
    exact (ih c hc l hl).imp (fun h => List.mem_flatMap.mpr ⟨c, hc, h⟩)
      fun h => List.mem_flatMap.mpr ⟨c, hc, h⟩
  induction h with
  | exist | compare | present => simp [labels]
  | label => simp [labels, paths]
  | anyMedia => simp [labels, paths]
  | noneMedia => simp [labels, paths]
  | all _ ih => exact hchildren ih
  | any _ ih => exact hchildren ih
  | not _ ih => exact ih

end Condition

/-- No readable fact lies below `labels`. -/
theorem not_readable_labels (nodes : List PipelineStageNode) (node : PipelineStageNode)
    (path : String) : ¬ Readable nodes node ("labels." ++ path) := by
  rintro (h | ⟨ancestor, -, h⟩)
  · have hlist := congrArg String.toList h
    simp [blockedFact] at hlist
  · obtain ⟨key, -, heq⟩ := List.mem_map.mp h
    have hlist := congrArg String.toList heq
    split_ifs at hlist <;> simp at hlist

section Version

variable {versionId analysisPipelineId : String} {versionNumber : ℤ}
  {nodes : List PipelineStageNode} {status : VersionStatus} {version : AnalysisPipelineVersion}

/-- The nodes of an accepted version passed the checks of the graph and of the conditions. -/
theorem validated_of_create
    (h : AnalysisPipelineVersion.create versionId analysisPipelineId versionNumber nodes status =
      .ok version) :
    validateGraph (version.nodes.map PipelineStageNode.toPipelineStage) = .ok () ∧
      validateConditions version.nodes = .ok () := by
  unfold AnalysisPipelineVersion.create at h
  obtain ⟨_, -, h⟩ := bind_eq_ok.mp h
  obtain ⟨_, -, h⟩ := bind_eq_ok.mp h
  obtain ⟨-, h⟩ := seq_eq_ok.mp h
  obtain ⟨-, h⟩ := seq_eq_ok.mp h
  obtain ⟨hgraph, h⟩ := seq_eq_ok.mp h
  obtain ⟨hconditions, h⟩ := seq_eq_ok.mp h
  have hnodes : version.nodes = nodes := by
    split_ifs at h
    · obtain ⟨-, h⟩ := seq_eq_ok.mp h
      exact (Except.ok.inj h) ▸ rfl
    · exact (Except.ok.inj h) ▸ rfl
  rw [hnodes]
  exact ⟨hgraph, hconditions⟩

/-- The condition of an accepted node, if it has one, is an accepted tree over readable
facts. -/
theorem accepted_of_create
    (h : AnalysisPipelineVersion.create versionId analysisPipelineId versionNumber nodes status =
      .ok version) {node : PipelineStageNode} (hnode : node ∈ version.nodes) {condition : Json}
    (hrunIf : node.runIf = some condition) :
    ∃ allowed c, (∀ fact ∈ allowed, Readable version.nodes node fact) ∧
      decode condition = some c ∧ c.Accepted (some allowed) := by
  obtain ⟨allowed, hallowed, hvalidate⟩ :=
    bind_eq_ok.mp (forM_eq_ok.mp (validated_of_create h).2 node hnode)
  rw [hrunIf] at hvalidate
  have haccepted := (seq_eq_ok.mp hvalidate).2
  obtain ⟨c, hc⟩ := decode_of_validate haccepted
  exact ⟨allowed, c, fun fact => readable_of_mem_allowedFacts hallowed, hc,
    accepted_of_validate haccepted hc⟩

/-- In an accepted pipeline, the allow-list of a node holds exactly the readable facts. A node
whose condition has no label conditions runs by the readable facts alone; and these conditions
are the ones that name readable facts only. -/
theorem runIf_reads_readable
    (h : AnalysisPipelineVersion.create versionId analysisPipelineId versionNumber nodes status =
      .ok version) {node : PipelineStageNode} (hnode : node ∈ version.nodes) :
    (∃ allowed, allowedFacts version.nodes node = .ok allowed ∧
      ∀ fact, fact ∈ allowed ↔ Readable version.nodes node fact) ∧
    (node.labelConditions = [] → ∀ facts facts',
      (∀ fact, Readable version.nodes node fact → resolveFact facts fact = resolveFact facts' fact) →
      evaluateRunIf node.runIf facts = evaluateRunIf node.runIf facts') ∧
    ((∀ path ∈ node.namedFacts, Readable version.nodes node path) ↔
      node.labelConditions = []) := by
  have hgraph := wellFormedGraph_of_validateGraph (validated_of_create h).1
  refine ⟨hgraph.allowedFacts_eq_ok hnode, ?_⟩
  cases hrunIf : node.runIf with
  | none =>
    have hcondition : node.condition? = none := by rw [PipelineStageNode.condition?, hrunIf]; rfl
    simp [PipelineStageNode.namedFacts, PipelineStageNode.labelConditions, hcondition,
      evaluateRunIf]
  | some condition =>
    obtain ⟨allowed, c, hreadable, hc, haccepted⟩ := accepted_of_create h hnode hrunIf
    have hcondition : node.condition? = some c := by
      rw [PipelineStageNode.condition?, hrunIf]
      exact hc
    simp only [PipelineStageNode.namedFacts, PipelineStageNode.labelConditions, hcondition,
      Option.map_some, Option.getD_some]
    refine ⟨fun hlabels facts facts' hagree => ?_, fun hnamed => ?_, fun hlabels path hpath => ?_⟩
    · have heval : c.eval facts = c.eval facts' := by
        refine haccepted.eval_congr (by simp [hlabels]) fun path hpath => hagree path ?_
        exact hreadable path (haccepted.mem_of_mem_paths hlabels path hpath)
      simp only [evaluateRunIf, evaluateCondition, evaluate_of_decode _ hc, heval]
    · rw [List.eq_nil_iff_forall_not_mem]
      intro l hl
      obtain ⟨path, hpath⟩ : ∃ path, "labels." ++ path ∈ c.paths := by
        rcases haccepted.exists_label_path l hl with hpath | hpath
        · exact ⟨l.ns ++ ".global." ++ l.key, by
            simpa [LabelCondition.globalPath, String.append_assoc] using hpath⟩
        · exact ⟨l.ns ++ ".media", by
            simpa [LabelCondition.mediaPath, String.append_assoc] using hpath⟩
      exact not_readable_labels _ _ path (hnamed _ hpath)
    · exact hreadable path (haccepted.mem_of_mem_paths hlabels path hpath)

end Version

/-- A draft stage that scores one message-level label. -/
def labelStage (key : String) : AnalysisStageTemplateVersion where
  targetScope := .global
  prompt := ⟨.draft⟩
  labelSet := ⟨[⟨⟨key, .global, true, .draft⟩, 0⟩], .draft⟩
  inferenceProfile := ⟨.draft, true⟩
  status := .draft

/-- A stage `ad`, and a stage `nsfw` that does not depend on it but runs by its label. -/
def independentNodes : List PipelineStageNode :=
  [⟨"ad", labelStage "ad", [], none, []⟩,
    ⟨"nsfw", labelStage "nsfw", [],
      some (labelOf (.obj [("namespace", .str "model"), ("scope", .str "global"),
        ("key", .str "ad")])), []⟩]

/-- The pipeline is accepted, and the condition tells apart two maps that agree on every
fact the node may read. -/
theorem runIf_reads_independent :
    ∃ version node, AnalysisPipelineVersion.create "v" "p" 1 independentNodes .draft = .ok version ∧
      node ∈ version.nodes ∧
      (∀ fact, Readable version.nodes node fact →
        resolveFact activatedFacts fact = resolveFact [] fact) ∧
      evaluateRunIf node.runIf activatedFacts ≠ evaluateRunIf node.runIf [] := by
  refine ⟨_, _, rfl, List.mem_cons_of_mem _ (List.mem_singleton_self _), ?_, by decide +kernel⟩
  rintro fact (rfl | ⟨ancestor, hancestor, -⟩)
  · rfl
  · obtain ⟨dependency, ⟨-, hdependency⟩, -⟩ := Relation.TransGen.head'_iff.mp hancestor
    cases hdependency

/-- The stage `nsfw` after `ad`, run by the score of its label. -/
def dependentNodes : List PipelineStageNode :=
  [⟨"ad", labelStage "ad", [], none, []⟩,
    ⟨"nsfw", labelStage "nsfw", ["ad"],
      some (.obj [("fact", .str "global.ad"), ("op", .str "lt"), ("value", .num (.float (1 / 2)))]),
      []⟩]

/-- It runs by the readable facts. -/
theorem runIf_reads_dependent :
    ∃ version node, AnalysisPipelineVersion.create "v" "p" 1 dependentNodes .draft = .ok version ∧
      node ∈ version.nodes ∧
      ∀ facts facts', (∀ fact, Readable version.nodes node fact →
          resolveFact facts fact = resolveFact facts' fact) →
        evaluateRunIf node.runIf facts = evaluateRunIf node.runIf facts' := by
  refine ⟨_, _, rfl, List.mem_cons_of_mem _ (List.mem_singleton_self _), ?_⟩
  exact (@runIf_reads_readable "v" "p" 1 dependentNodes .draft _ rfl _
    (List.mem_cons_of_mem _ (List.mem_singleton_self _))).2.1 rfl

end TgCurator
