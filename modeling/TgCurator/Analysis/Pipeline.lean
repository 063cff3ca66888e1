import TgCurator.Analysis.Stages
import TgCurator.Routing.Reading
import TgCurator.Worklist

/-!
# Analysis pipelines

`AnalysisPipelineVersion` of `domain/analysis/pipeline.py`: the stage graph with its
topological order, and the conditions of the nodes, which are checked against the label
facts of the ancestor stages. `validate_run_if` and `evaluate_run_if` of
`domain/analysis/conditions.py` are the routing conditions.

`topologicalLoop` takes a ready stage per turn and stops after as many turns as there are
stages. The search for the ancestors has fuel for every dependency.
-/

namespace TgCurator

/-! ## Conditions -/

/-- `validate_run_if`. -/
def validateRunIf (condition : Option Json) (allowedFactKeys : Option (List String)) :
    Except PyError Unit :=
  match condition with
  | none => .ok ()
  | some condition => do
    ensure (decide (pyType condition = .dict)) "run_if must be an object or null"
    validateCondition condition allowedFactKeys

/-- `evaluate_run_if`. -/
def evaluateRunIf (condition : Option Json) (facts : Facts) : Bool :=
  match condition with
  | none => true
  | some condition => evaluateCondition condition facts

/-! ## Stage graphs -/

/-- A stage of the graph, by its id: a `PipelineStage`, or what the graph checks read of a
`PipelineStageNode`. -/
structure PipelineStage where
  stageId : String
  dependsOn : List String

/-- `sorted` on strings. -/
def sorted (l : List String) : List String :=
  l.insertionSort (· ≤ ·)

/-- One turn of the inner loop of `_topological_ids`: `current` is struck off the
dependencies of a stage, which is ready when none is left. -/
def releaseStage (current : String) (ordered : List String)
    (state : Dict String (List String) × List String) (stageId : String) :
    Dict String (List String) × List String :=
  match state.1.lookup stageId with
  | none => state
  | some dependencies =>
    if current ∈ dependencies then
      let remaining := dependencies.erase current
      (state.1.set stageId remaining,
        if remaining = [] ∧ stageId ∉ ordered ∧ stageId ∉ state.2 then state.2 ++ [stageId]
        else state.2)
    else state

/-- The loop of `_topological_ids` over the ready stages. -/
def topologicalLoop : ℕ → Dict String (List String) → List String → List String →
    Dict String (List String) × List String
  | fuel + 1, dependencies, current :: ready, ordered =>
    let ordered := ordered ++ [current]
    let state := (sorted (Dict.keys dependencies)).foldl (releaseStage current ordered)
      (dependencies, ready)
    topologicalLoop fuel state.1 (sorted state.2) ordered
  | _, dependencies, _, ordered => (dependencies, ordered)

/-- `_topological_ids`. -/
def topologicalIds (stages : List PipelineStage) : Except PyError (List String) := do
  let dependencies := Dict.ofList (stages.map fun stage => (stage.stageId, stage.dependsOn.dedup))
  let ready := sorted ((dependencies.filter fun e => e.2 = []).map Prod.fst)
  let (dependencies, ordered) := topologicalLoop stages.length dependencies ready []
  ensure (ordered.length = stages.length) "pipeline contains a cycle: %"
    (sorted ((dependencies.filter fun e => e.2 ≠ []).map Prod.fst))
  return ordered

/-- The dependencies of a stage that are no stages. -/
def missingDependencies (stageIds : List String) (stage : PipelineStage) : List String :=
  sorted (stage.dependsOn.dedup.filter (· ∉ stageIds))

/-- `_validate_graph`. -/
def validateGraph (stages : List PipelineStage) : Except PyError Unit := do
  let stageIds := stages.map PipelineStage.stageId
  ensure (stageIds.dedup.length = stages.length) "a pipeline cannot contain duplicate node IDs"
  stages.forM fun stage =>
    ensure (missingDependencies stageIds stage).isEmpty "stage % depends on undefined stages: %"
      (stage.stageId :: missingDependencies stageIds stage)
  let _ ← topologicalIds stages
  return

/-! ## Pipeline versions -/

/-- `PipelineStageNode`. -/
structure PipelineStageNode where
  nodeId : String
  stage : AnalysisStageTemplateVersion
  dependsOn : List String
  runIf : Option Json
  parameterOverrides : List (String × Json)

/-- `_ALLOWED_STAGE_OVERRIDES`. -/
def allowedStageOverrides : List String :=
  ["timeout_seconds", "max_batch_size", "max_concurrency", "retry_policy",
    "visual_composition_policy"]

namespace PipelineStageNode

/-- The constructor. -/
def create (nodeId : String) (stage : AnalysisStageTemplateVersion) (dependsOn : List String)
    (runIf : Option Json) (parameterOverrides : Option Json) : Except PyError PipelineStageNode := do
  let nodeId ← validateNonBlank nodeId "node_id"
  ensure (dependsOn.all fun dependency => !isBlank dependency)
    "pipeline node dependencies must be non-blank strings"
  ensure (nodeId ∉ dependsOn) "pipeline node cannot depend on itself"
  ensure (dependsOn.dedup.length = dependsOn.length)
    "pipeline node dependencies cannot contain duplicates"
  validateRunIf runIf none
  let runIf ← match runIf with
    | none => pure none
    | some condition => do
      let entries ← requireJsonObject condition "run_if"
      pure (some (Json.obj entries))
  let overrides ← requireJsonObject (parameterOverrides.getD (.obj []))
    "stage parameter overrides"
  let unsupported := (Dict.keys overrides).filter (· ∉ allowedStageOverrides)
  ensure unsupported.isEmpty "pipeline node contains unsupported overrides: %" (sorted unsupported)
  return ⟨nodeId, stage, dependsOn, runIf, overrides⟩

/-- What the graph checks read. -/
def toPipelineStage (node : PipelineStageNode) : PipelineStage :=
  ⟨node.nodeId, node.dependsOn⟩

/-- The facts of the labels of the stage. -/
def labelFacts (node : PipelineStageNode) : List String :=
  let scope := if node.stage.targetScope.value = "global" then "global" else "media"
  node.stage.labelSet.labelKeys.map fun key => scope ++ "." ++ key

end PipelineStageNode

/-- `nodes_by_id`. -/
def nodesById (nodes : List PipelineStageNode) : Dict String PipelineStageNode :=
  Dict.ofList (nodes.map fun node => (node.nodeId, node))

/-- `nodes_by_id[node_id]`. -/
def nodeById (nodes : List PipelineStageNode) (nodeId : String) :
    Except PyError PipelineStageNode :=
  match (nodesById nodes).lookup nodeId with
  | some node => .ok node
  | none => .error .keyError

/-- The dependencies of the node with an id. -/
def dependenciesById (nodes : List PipelineStageNode) (nodeId : String) : Option (List String) :=
  ((nodesById nodes).lookup nodeId).map PipelineStageNode.dependsOn

/-- The number of dependencies in the graph. -/
def edgeCount : List PipelineStageNode → ℕ
  | [] => 0
  | node :: nodes => node.dependsOn.length + edgeCount nodes

/-- `ancestor_ids`. -/
def ancestorIds (nodes : List PipelineStageNode) (node : PipelineStageNode) :
    Except PyError (List String) :=
  match Worklist.search (dependenciesById nodes) (node.dependsOn.length + edgeCount nodes)
    node.dependsOn.reverse [] with
  | some ancestors => .ok ancestors
  | none => .error .keyError

/-- The fact every node may read. -/
def blockedFact : String := "message.blocked_from_analysis"

/-- The facts a node may read. -/
def allowedFacts (nodes : List PipelineStageNode) (node : PipelineStageNode) :
    Except PyError (List String) := do
  let ids ← ancestorIds nodes node
  let ancestors ← ids.mapM (nodeById nodes)
  return blockedFact :: ancestors.flatMap PipelineStageNode.labelFacts

/-- `_validate_conditions`. -/
def validateConditions (nodes : List PipelineStageNode) : Except PyError Unit :=
  nodes.forM fun node => do
    let allowed ← allowedFacts nodes node
    validateRunIf node.runIf (some allowed)

/-- `validate_for_publication`. -/
def validateForPublication (nodes : List PipelineStageNode) : Except PyError Unit := do
  nodes.forM fun node => do
    ensure (node.stage.status = .published) "published pipeline must reference published stages"
    node.stage.validateForPublication
  validateConditions nodes

/-- `AnalysisPipelineVersion`. -/
structure AnalysisPipelineVersion where
  versionId : String
  analysisPipelineId : String
  versionNumber : ℤ
  nodes : List PipelineStageNode
  status : VersionStatus

/-- The constructor. -/
def AnalysisPipelineVersion.create (versionId analysisPipelineId : String) (versionNumber : ℤ)
    (nodes : List PipelineStageNode) (status : VersionStatus) :
    Except PyError AnalysisPipelineVersion := do
  let versionId ← validateNonBlank versionId "pipeline version_id"
  let analysisPipelineId ← validateNonBlank analysisPipelineId "analysis pipeline id"
  ensure (0 < versionNumber) "% must be a positive integer" ["pipeline version number"]
  ensure (!nodes.isEmpty) "analysis pipeline must contain at least one node"
  validateGraph (nodes.map PipelineStageNode.toPipelineStage)
  validateConditions nodes
  if status = .published then validateForPublication nodes
  return ⟨versionId, analysisPipelineId, versionNumber, nodes, status⟩

end TgCurator
