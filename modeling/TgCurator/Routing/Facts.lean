import TgCurator.Review.Resolution
import TgCurator.Routing.Laws
import TgCurator.Routing.Policy

/-!
# Routing facts

`build_routing_facts` of `application/routing/service.py` and the snapshot it reads. The
facts of a message are a fixed dictionary whose `labels` entry holds the three resolved
namespaces; `canonical_facts_snapshot` puts every dictionary into key order.

A media quantifier over these facts sees one result for each media target of the
namespace (`evalAny_of_build`), and a message-level label condition sees the label with
its key, unless the key has a dot (`evalGlobal_of_build`).
-/

namespace TgCurator

open Json

/-! ## Snapshots -/

/-- `RoutingSnapshot`. The keys of a mapping are distinct. -/
structure RoutingSnapshot where
  messageId : String
  message : List (String × Json)
  sourceChannel : List (String × Json)
  duplicateState : List (String × Json)
  media : List (List (String × Json))
  reviewStatus : ReviewStatus
  modelAssignments : List LabelValue
  manualEvents : List ManualLabelEvent
  policy : RoutingPolicy
  destinationPublishIdentityIds : Dict String String
  messageId_not_blank : isBlank messageId = false
  message_wf : (Json.obj message).WF
  sourceChannel_wf : (Json.obj sourceChannel).WF
  duplicateState_wf : (Json.obj duplicateState).WF
  media_wf : ∀ item ∈ media, (Json.obj item).WF

namespace RoutingSnapshot

/-- The label namespaces of the message. -/
def resolved (snapshot : RoutingSnapshot) : ResolvedLabelNamespaces :=
  resolveLabelNamespaces snapshot.modelAssignments snapshot.manualEvents

/-- The `message` facts. -/
def messageFacts (snapshot : RoutingSnapshot) : Facts :=
  Dict.set "review_status" (.str snapshot.reviewStatus.value)
    (Dict.setDefault "id" (.str snapshot.messageId) snapshot.message)

/-- The facts before they are put into canonical form. -/
def facts (snapshot : RoutingSnapshot) (labels : Json) : Facts :=
  [("message", .obj snapshot.messageFacts),
    ("source_channel", .obj snapshot.sourceChannel),
    ("duplicate", .obj snapshot.duplicateState),
    ("media", .arr (snapshot.media.map .obj)),
    ("blocked_from_analysis",
      (snapshot.messageFacts.lookup "blocked_from_analysis").getD (.bool false)),
    ("review_status", .str snapshot.reviewStatus.value),
    ("labels", labels)]

/-- The assets the snapshot lists. -/
def listedAssets (snapshot : RoutingSnapshot) : List String :=
  snapshot.media.filterMap fun item => (item.lookup "asset_id").bind string?

end RoutingSnapshot

/-- `canonical_facts_snapshot`. -/
def canonicalFactsSnapshot (facts : Facts) : Except PyError Facts := do
  ensure (Json.obj facts).isDumpable "facts must be finite JSON-compatible data"
  return canonicalEntries facts

/-- `build_routing_facts`. -/
def buildRoutingFacts (snapshot : RoutingSnapshot) : Except PyError Facts := do
  let labels ← labelsToRoutingSnapshot snapshot.resolved
  canonicalFactsSnapshot (snapshot.facts labels)

/-! ## Well-formed facts -/

theorem wf_obj_of_mem {entries : List (String × Json)} (hkeys : (Dict.keys entries).Nodup)
    (h : ∀ e ∈ entries, e.2.WF) : (Json.obj entries).WF := by
  rw [WF, wfEntries_iff]
  exact ⟨hkeys, h⟩

theorem wf_set {entries : List (String × Json)} (h : (Json.obj entries).WF) (k : String) {v : Json}
    (hv : v.WF) : (Json.obj (Dict.set k v entries)).WF := by
  rw [WF, wfEntries_iff] at h
  refine wf_obj_of_mem (Dict.nodup_keys_set h.1) fun e he => ?_
  rcases Dict.mem_set he with rfl | he
  · exact hv
  · exact h.2 e he

theorem wf_setDefault {entries : List (String × Json)} (h : (Json.obj entries).WF) (k : String)
    {v : Json} (hv : v.WF) : (Json.obj (Dict.setDefault k v entries)).WF := by
  rw [WF, wfEntries_iff] at h
  refine wf_obj_of_mem (Dict.nodup_keys_setDefault h.1) fun e he => ?_
  rcases Dict.mem_setDefault he with rfl | he
  · exact hv
  · exact h.2 e he

theorem wf_labelEntries (v : LabelValue) : (Json.obj (labelEntries v)).WF :=
  wf_obj_of_mem (by simp [labelEntries]) (by simp [labelEntries, WF])

namespace NamespaceSnapshot.Represents

variable {s : NamespaceSnapshot} {values : List LabelValue}

theorem wf_globals (h : s.Represents values) : (Json.obj s.globals).WF := by
  refine wf_obj_of_mem h.globals_nodup fun e he => ?_
  obtain ⟨v, -, -, -, hv⟩ := (h.lookup_globals e.1 e.2).mp (Dict.lookup_of_mem h.globals_nodup he)
  exact hv ▸ wf_labelEntries v

theorem mediaLabels_of_mem (h : s.Represents values) {target : String} {entry : MediaEntry}
    (he : (target, entry) ∈ s.media) : s.mediaLabels target = entry.labels := by
  rw [NamespaceSnapshot.mediaLabels, Dict.lookup_of_mem h.media_nodup he]
  rfl

theorem wf_labels (h : s.Represents values) (target : String) :
    (Json.obj (s.mediaLabels target)).WF := by
  refine wf_obj_of_mem (h.labels_nodup target) fun e he => ?_
  obtain ⟨v, -, -, -, -, hv⟩ :=
    (h.lookup_media target e.1 e.2).mp (Dict.lookup_of_mem (h.labels_nodup target) he)
  exact hv ▸ wf_labelEntries v

theorem wf_toJson (h : s.Represents values) : s.toJson.WF := by
  refine wf_obj_of_mem (by simp) ?_
  simp only [List.mem_cons, List.not_mem_nil, or_false, forall_eq_or_imp, forall_eq]
  refine ⟨h.wf_globals, wf_obj_of_mem ?_ ?_⟩
  · have hkeys : Dict.keys (s.media.map fun e => (e.1, e.2.toJson)) = Dict.keys s.media := by
      simp [Dict.keys]
    exact hkeys ▸ h.media_nodup
  · intro e he
    obtain ⟨⟨target, entry⟩, hmem, rfl⟩ := List.mem_map.mp he
    refine wf_obj_of_mem (by simp) ?_
    have hlabels := h.wf_labels target
    rw [h.mediaLabels_of_mem hmem] at hlabels
    simp only [List.mem_cons, List.not_mem_nil, or_false, forall_eq_or_imp, forall_eq]
    exact ⟨by simp [WF], hlabels⟩

end NamespaceSnapshot.Represents

/-- The names of the namespaces. -/
abbrev namespaceNames : List String := ["model", "manual", "effective"]

/-- The routing snapshot of the labels holds one representation for each namespace. -/
theorem labelsToRoutingSnapshot_eq_ok {resolved : ResolvedLabelNamespaces} {labels : Json}
    (h : labelsToRoutingSnapshot resolved = .ok labels) :
    labels.WF ∧ ∃ entries, labels = .obj entries ∧ ∀ ns ∈ namespaceNames,
      ∃ s : NamespaceSnapshot, s.Represents (resolved.byName ns) ∧
        entries.lookup ns = some s.toJson := by
  unfold labelsToRoutingSnapshot at h
  obtain ⟨model, hmodel, h⟩ := bind_eq_ok.mp h
  obtain ⟨manual, hmanual, h⟩ := bind_eq_ok.mp h
  obtain ⟨effective, heffective, h⟩ := bind_eq_ok.mp h
  obtain rfl := Except.ok.inj h
  have h1 := namespaceSnapshot_represents hmodel
  have h2 := namespaceSnapshot_represents hmanual
  have h3 := namespaceSnapshot_represents heffective
  refine ⟨wf_obj_of_mem (by simp) ?_, _, rfl, ?_⟩
  · simp only [List.mem_cons, List.not_mem_nil, or_false, forall_eq_or_imp, forall_eq]
    exact ⟨h1.wf_toJson, h2.wf_toJson, h3.wf_toJson⟩
  · simp only [List.mem_cons, List.not_mem_nil, or_false, forall_eq_or_imp, forall_eq]
    exact ⟨⟨model, h1, rfl⟩, ⟨manual, h2, rfl⟩, ⟨effective, h3, rfl⟩⟩

theorem RoutingSnapshot.wf_facts (snapshot : RoutingSnapshot) {labels : Json} (h : labels.WF) :
    (Json.obj (snapshot.facts labels)).WF := by
  have hmessage : (Json.obj snapshot.messageFacts).WF :=
    wf_set (wf_setDefault snapshot.message_wf _ (by simp [WF])) _ (by simp [WF])
  refine wf_obj_of_mem (by simp [RoutingSnapshot.facts]) ?_
  simp only [RoutingSnapshot.facts, List.mem_cons, List.not_mem_nil, or_false, forall_eq_or_imp,
    forall_eq]
  refine ⟨hmessage, snapshot.sourceChannel_wf, snapshot.duplicateState_wf, ?_, ?_, by simp [WF], h⟩
  · rw [WF, wfItems_iff]
    simpa using snapshot.media_wf
  · cases hl : snapshot.messageFacts.lookup "blocked_from_analysis" with
    | none => simp [WF]
    | some v => exact wf_lookup hmessage hl

/-- Facts that were built are the canonical form of facts whose labels represent the
resolved namespaces. -/
theorem buildRoutingFacts_eq_ok {snapshot : RoutingSnapshot} {facts : Facts}
    (h : buildRoutingFacts snapshot = .ok facts) :
    ∃ entries, (Json.obj (snapshot.facts (.obj entries))).WF ∧
      facts = canonicalEntries (snapshot.facts (.obj entries)) ∧ ∀ ns ∈ namespaceNames,
        ∃ s : NamespaceSnapshot, s.Represents (snapshot.resolved.byName ns) ∧
          entries.lookup ns = some s.toJson := by
  unfold buildRoutingFacts at h
  obtain ⟨labels, hlabels, h⟩ := bind_eq_ok.mp h
  obtain ⟨hwf, entries, rfl, hns⟩ := labelsToRoutingSnapshot_eq_ok hlabels
  obtain ⟨-, h⟩ := seq_eq_ok.mp h
  exact ⟨entries, snapshot.wf_facts hwf, (Except.ok.inj h).symm, hns⟩

/-! ## Paths into the labels -/

theorem splitDots_append {a : String} (h : '.' ∉ a.toList) (b : String) :
    splitDots (a ++ "." ++ b) = a :: splitDots b := by
  have hlist : (a ++ "." ++ b).toList = a.toList ++ '.' :: b.toList := by
    simp
  rw [splitDots, hlist, List.splitOn_append_cons_self_of_not_mem h]
  simp [splitDots]

theorem splitDots_of_notMem {a : String} (h : '.' ∉ a.toList) : splitDots a = [a] := by
  rw [splitDots, List.splitOn_eq_singleton h]
  simp

/-- A key with a dot splits into two parts or more. -/
theorem splitDots_of_mem {a : String} (h : '.' ∈ a.toList) :
    ∃ b c rest, splitDots a = b :: c :: rest := by
  obtain ⟨before, after, hsplit⟩ := List.append_of_mem h
  rw [splitDots, hsplit, List.splitOn_append_cons_self, List.map_append]
  have hbefore : before.splitOn '.' ≠ [] := by simp
  have hafter : after.splitOn '.' ≠ [] := by simp
  obtain ⟨x, xs, hx⟩ := List.exists_cons_of_ne_nil hbefore
  obtain ⟨y, ys, hy⟩ := List.exists_cons_of_ne_nil hafter
  rw [hx, hy]
  cases xs with
  | nil => exact ⟨_, _, _, rfl⟩
  | cons z zs => exact ⟨_, _, _, rfl⟩

theorem notMem_dot_of_namespace {ns : String} (h : ns ∈ namespaceNames) : '.' ∉ ns.toList := by
  revert ns
  decide

namespace LabelCondition

variable {l : LabelCondition}

theorem splitDots_mediaPath (h : l.ns ∈ namespaceNames) :
    splitDots l.mediaPath = ["labels", l.ns, "media"] := by
  have hpath : l.mediaPath = "labels" ++ "." ++ (l.ns ++ "." ++ "media") := by
    rw [mediaPath, ← String.toList_inj]
    simp
  rw [hpath, splitDots_append (by decide), splitDots_append (notMem_dot_of_namespace h),
    splitDots_of_notMem (by decide)]

theorem splitDots_globalPath (h : l.ns ∈ namespaceNames) :
    splitDots l.globalPath = "labels" :: l.ns :: "global" :: splitDots l.key := by
  have hpath : l.globalPath = "labels" ++ "." ++ (l.ns ++ "." ++ ("global" ++ "." ++ l.key)) := by
    rw [globalPath, ← String.toList_inj]
    simp
  rw [hpath, splitDots_append (by decide), splitDots_append (notMem_dot_of_namespace h),
    splitDots_append (by decide)]

end LabelCondition

/-- No fact has a dotted name, so a dotted path is followed. -/
theorem RoutingSnapshot.resolveFact_of_dot (snapshot : RoutingSnapshot) (labels : Json)
    {fact : String} (h : '.' ∈ fact.toList) :
    resolveFact (snapshot.facts labels) fact =
      resolvePath (.obj (snapshot.facts labels)) (splitDots fact) := by
  have hnone : (snapshot.facts labels).lookup fact = none := by
    rw [Dict.lookup_eq_none]
    have hnames : ∀ name ∈ Dict.keys (snapshot.facts labels), '.' ∉ name.toList := by
      simp [RoutingSnapshot.facts]
    exact fun hmem => hnames fact hmem h
  rw [resolveFact, hnone]

/-- A path below `labels` and a namespace continues in the snapshot of the namespace. -/
theorem RoutingSnapshot.resolvePath_labels (snapshot : RoutingSnapshot)
    {entries : List (String × Json)} {ns : String} {s : NamespaceSnapshot}
    (h : entries.lookup ns = some s.toJson) (path : List String) :
    resolvePath (.obj (snapshot.facts (.obj entries))) ("labels" :: ns :: path) =
      resolvePath s.toJson path := by
  simp [resolvePath, RoutingSnapshot.facts, Dict.lookup_cons, h]

theorem NamespaceSnapshot.resolvePath_media (s : NamespaceSnapshot) (path : List String) :
    resolvePath s.toJson ("media" :: path) =
      resolvePath (.obj (s.media.map fun e => (e.1, e.2.toJson))) path := by
  simp [NamespaceSnapshot.toJson, resolvePath, Dict.lookup_cons]

theorem NamespaceSnapshot.resolvePath_global (s : NamespaceSnapshot) (path : List String) :
    resolvePath s.toJson ("global" :: path) = resolvePath (.obj s.globals) path := by
  simp [NamespaceSnapshot.toJson, resolvePath, Dict.lookup_cons]

/-- No path leads from inside a label to a dictionary. -/
theorem resolvePath_labelEntries (value : LabelValue) (b : String) (rest : List String)
    (label : List (String × Json)) :
    resolvePath (.obj (labelEntries value)) (b :: rest) ≠ some (.obj label) := by
  rw [resolvePath]
  cases hl : (labelEntries value).lookup b with
  | none => simp
  | some leaf =>
    have hleaf := Dict.mem_of_lookup hl
    rw [Option.bind_some]
    simp only [labelEntries, List.mem_cons, Prod.mk.injEq, List.not_mem_nil, or_false] at hleaf
    rcases hleaf with ⟨-, rfl⟩ | ⟨-, rfl⟩ | ⟨-, rfl⟩ <;> cases rest <;> simp [resolvePath]

/-! ## Label conditions over built facts -/

/-- The test of a label condition on a resolved label. -/
def LabelTest.onValue (test : LabelTest) (value : LabelValue) : Kleene :=
  test.eval (labelEntries value)

theorem LabelCondition.evalValue_eq_some {l : LabelCondition} {labels : Dict String Json}
    {b : Bool} : l.evalValue (labels.lookup l.key) = some b ↔
      ∃ label, labels.lookup l.key = some (.obj label) ∧ l.test.eval label = some b := by
  cases hl : labels.lookup l.key with
  | none => simp [evalValue]
  | some j => cases j <;> simp [evalValue]

section Built

variable {snapshot : RoutingSnapshot} {facts : Facts} {l : LabelCondition}

/-- A media quantifier sees one result for each media target of the namespace: the test
on the label the target has under the key, unknown if it has none. -/
theorem evalAny_of_build (h : buildRoutingFacts snapshot = .ok facts)
    (hns : l.ns ∈ namespaceNames) :
    ∃ s : NamespaceSnapshot, s.Represents (snapshot.resolved.byName l.ns) ∧
      l.evalAny facts = Kleene.any ((Dict.keys s.media).map fun target =>
        l.evalValue ((s.mediaLabels target).lookup l.key)) := by
  obtain ⟨entries, hwf, rfl, hlabels⟩ := buildRoutingFacts_eq_ok h
  obtain ⟨s, hs, hlookup⟩ := hlabels l.ns hns
  refine ⟨s, hs, ?_⟩
  have hdot : '.' ∈ l.mediaPath.toList := by simp [LabelCondition.mediaPath]
  rw [l.evalAny_canonical hwf, LabelCondition.evalAny, LabelCondition.mediaResults,
    snapshot.resolveFact_of_dot _ hdot, LabelCondition.splitDots_mediaPath hns,
    snapshot.resolvePath_labels hlookup, s.resolvePath_media]
  simp only [resolvePath, Option.bind_some, Dict.values, List.map_map, Dict.keys]
  refine congrArg Kleene.any (List.map_congr_left fun e he => ?_)
  simp [LabelCondition.evalEntry, MediaEntry.toJson, Dict.lookup_cons, hs.mediaLabels_of_mem he]

/-- A message-level label condition sees the label with its key; a key with a dot is
split, and what it is split into leads to no label. -/
theorem evalGlobal_of_build (h : buildRoutingFacts snapshot = .ok facts)
    (hns : l.ns ∈ namespaceNames) :
    ∃ s : NamespaceSnapshot, s.Represents (snapshot.resolved.byName l.ns) ∧
      l.evalGlobal facts =
        if '.' ∈ l.key.toList then none else l.evalValue (s.globals.lookup l.key) := by
  obtain ⟨entries, hwf, rfl, hlabels⟩ := buildRoutingFacts_eq_ok h
  obtain ⟨s, hs, hlookup⟩ := hlabels l.ns hns
  refine ⟨s, hs, ?_⟩
  have hdot : '.' ∈ l.globalPath.toList := by simp [LabelCondition.globalPath]
  rw [l.evalGlobal_canonical hwf, LabelCondition.evalGlobal, snapshot.resolveFact_of_dot _ hdot,
    LabelCondition.splitDots_globalPath hns, snapshot.resolvePath_labels hlookup,
    s.resolvePath_global]
  split_ifs with hkey
  · obtain ⟨a, b, rest, hsplit⟩ := splitDots_of_mem hkey
    rw [hsplit, resolvePath.eq_def]
    cases hl : s.globals.lookup a with
    | none => simp [hl, LabelCondition.evalValue]
    | some label =>
      obtain ⟨v, -, -, -, rfl⟩ := (hs.lookup_globals a label).mp hl
      have hleaf := resolvePath_labelEntries v b rest
      simp only [hl, Option.bind_some]
      cases hr : resolvePath (.obj (labelEntries v)) (b :: rest) with
      | none => rfl
      | some leaf => cases leaf <;> first | rfl | exact absurd hr (hleaf _)
  · rw [splitDots_of_notMem hkey]
    simp only [resolvePath]
    cases s.globals.lookup l.key <;> rfl

end Built

end TgCurator
