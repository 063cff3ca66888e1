import Mathlib.Data.List.Sort
import TgCurator.Review.Labels

/-!
# Label namespaces

`domain/review/resolution.py`. `resolveLabelNamespaces` reads the model, manual and
effective labels of a message off its assignments and its append-only events: the latest
event of an identity decides, a set overrides the model value, and a clear falls back to
it. `namespaceSnapshot` arranges the labels of one namespace for routing, by key for the
message and by target and key for its media; it refuses two labels under one key.

A snapshot that exists holds exactly the labels of the namespace
(`NamespaceSnapshot.Represents`, `namespaceSnapshot_represents`).
-/

namespace TgCurator

/-! ## Resolution -/

/-- `ResolvedLabelNamespaces`. -/
structure ResolvedLabelNamespaces where
  model : List LabelValue
  manual : List LabelValue
  effective : List LabelValue
  deriving DecidableEq

/-- The labels of the namespace a condition names. -/
def ResolvedLabelNamespaces.byName (resolved : ResolvedLabelNamespaces) :
    String → List LabelValue
  | "model" => resolved.model
  | "manual" => resolved.manual
  | "effective" => resolved.effective
  | _ => []

/-- `(item.target_scope, item.target_id, item.label_key, item.label_definition_version_id)`
in order. -/
abbrev LabelValue.LE (v w : LabelValue) : Prop :=
  [v.targetScope, v.targetId, v.labelKey, v.labelDefinitionVersionId] ≤
    [w.targetScope, w.targetId, w.labelKey, w.labelDefinitionVersionId]

/-- `(item.created_at, item.event_id)` in order. -/
abbrev ManualLabelEvent.LE (a b : ManualLabelEvent) : Prop :=
  a.createdAt < b.createdAt ∨ (a.createdAt = b.createdAt ∧ a.eventId ≤ b.eventId)

/-- `_ordered`. -/
def ordered (values : List LabelValue) : List LabelValue :=
  values.insertionSort LabelValue.LE

/-- The loop over the model assignments. -/
def modelByIdentity (assignments : List LabelValue) :
    Dict (String × String × String) LabelValue :=
  assignments.foldl (fun d assignment => d.set assignment.identity assignment) []

/-- The loop over the sorted manual events. -/
def latestManual (events : List ManualLabelEvent) :
    Dict (String × String × String) ManualLabelEvent :=
  (events.insertionSort ManualLabelEvent.LE).foldl (fun d event => d.set event.identity event) []

/-- One turn of the loop that applies the latest events to the model labels. -/
def applyManual (model effective : Dict (String × String × String) LabelValue)
    (latest : (String × String × String) × ManualLabelEvent) :
    Dict (String × String × String) LabelValue :=
  match latest.2.asLabelValue with
  | some value => effective.set latest.1 value
  | none =>
    let effective := effective.erase latest.1
    match model.lookup latest.1 with
    | some value => effective.set latest.1 value
    | none => effective

/-- `resolve_label_namespaces`. -/
def resolveLabelNamespaces (modelAssignments : List LabelValue)
    (manualEvents : List ManualLabelEvent) : ResolvedLabelNamespaces :=
  let model := modelByIdentity modelAssignments
  let latest := latestManual manualEvents
  let manual := latest.filterMap fun e => e.2.asLabelValue.map fun value => (e.1, value)
  let effective := latest.foldl (applyManual model) model
  ⟨ordered model.values, ordered (Dict.values manual), ordered effective.values⟩

/-! ## Snapshots -/

/-- `float(n)` of a number in range. -/
def toFloat : Number → Number
  | .int n => .float n
  | n => n

/-- The dictionary stored for a label. -/
def labelEntries (value : LabelValue) : List (String × Json) :=
  [("label_definition_version_id", .str value.labelDefinitionVersionId),
    ("score", .num (toFloat value.score)), ("activated", .bool value.activated)]

/-- The entry of a media target. -/
structure MediaEntry where
  targetKind : String
  labels : Dict String Json := []

/-- The `global` and `media` dictionaries of a namespace. -/
structure NamespaceSnapshot where
  globals : Dict String Json := []
  media : Dict String MediaEntry := []

/-- `_store_unambiguous_label`. -/
def storeUnambiguousLabel (labels : Dict String Json) (value : LabelValue) :
    Except PyError (Dict String Json) := do
  ensure (value.labelKey ∉ labels.keys)
    "routing snapshot cannot represent multiple label definition versions for % target % and label key %"
    [value.targetScope, value.targetId, value.labelKey]
  return labels.set value.labelKey (.obj (labelEntries value))

/-- `snapshot["media"].setdefault(...)` for the target of a value. -/
def NamespaceSnapshot.mediaEntry (s : NamespaceSnapshot) (value : LabelValue) : MediaEntry :=
  (s.media.lookup value.targetId).getD ⟨value.targetKind, []⟩

/-- One turn of the loop of `_namespace_snapshot`. -/
def NamespaceSnapshot.store (s : NamespaceSnapshot) (value : LabelValue) :
    Except PyError NamespaceSnapshot :=
  if value.targetScope = "global" then do
    let labels ← storeUnambiguousLabel s.globals value
    return { s with globals := labels }
  else do
    let labels ← storeUnambiguousLabel (s.mediaEntry value).labels value
    return { s with media := s.media.set value.targetId ⟨(s.mediaEntry value).targetKind, labels⟩ }

/-- `_namespace_snapshot`. -/
def namespaceSnapshot (values : List LabelValue) : Except PyError NamespaceSnapshot :=
  values.foldlM NamespaceSnapshot.store {}

/-- The JSON of a media entry. -/
def MediaEntry.toJson (entry : MediaEntry) : Json :=
  .obj [("target_kind", .str entry.targetKind), ("labels", .obj entry.labels)]

/-- The JSON of a namespace. -/
def NamespaceSnapshot.toJson (s : NamespaceSnapshot) : Json :=
  .obj [("global", .obj s.globals),
    ("media", .obj (s.media.map fun e => (e.1, e.2.toJson)))]

/-- `labels_to_routing_snapshot`. -/
def labelsToRoutingSnapshot (resolved : ResolvedLabelNamespaces) : Except PyError Json := do
  let model ← namespaceSnapshot resolved.model
  let manual ← namespaceSnapshot resolved.manual
  let effective ← namespaceSnapshot resolved.effective
  return .obj [("model", model.toJson), ("manual", manual.toJson), ("effective", effective.toJson)]

/-! ## What a snapshot holds -/

/-- The labels of a media target; none if it has no entry. -/
def NamespaceSnapshot.mediaLabels (s : NamespaceSnapshot) (target : String) : Dict String Json :=
  ((s.media.lookup target).map (·.labels)).getD []

/-- The snapshot holds the labels of `values` and nothing else, each under its own key,
and has an entry for each media target with a label. -/
structure NamespaceSnapshot.Represents (s : NamespaceSnapshot) (values : List LabelValue) :
    Prop where
  globals_nodup : s.globals.keys.Nodup
  media_nodup : s.media.keys.Nodup
  labels_nodup : ∀ target, (s.mediaLabels target).keys.Nodup
  lookup_globals : ∀ k j, s.globals.lookup k = some j ↔
    ∃ v ∈ values, v.targetScope = "global" ∧ v.labelKey = k ∧ .obj (labelEntries v) = j
  mem_media : ∀ target, target ∈ s.media.keys ↔
    ∃ v ∈ values, v.targetScope = "media" ∧ v.targetId = target
  lookup_media : ∀ target k j, (s.mediaLabels target).lookup k = some j ↔
    ∃ v ∈ values, v.targetScope = "media" ∧ v.targetId = target ∧ v.labelKey = k ∧
      .obj (labelEntries v) = j

theorem storeUnambiguousLabel_eq_ok {labels labels' : Dict String Json} {value : LabelValue} :
    storeUnambiguousLabel labels value = .ok labels' ↔ value.labelKey ∉ labels.keys ∧
      labels' = labels.set value.labelKey (.obj (labelEntries value)) := by
  unfold storeUnambiguousLabel
  rw [seq_eq_ok, ensure_eq_ok, decide_eq_true_eq]
  exact and_congr_right fun _ =>
    ⟨fun h => (Except.ok.inj h).symm, fun h => congrArg Except.ok h.symm⟩

/-- Storing under a fresh key adds one label and keeps the others. -/
theorem lookup_set_of_fresh {labels : Dict String Json} {key : String} {label : Json}
    (h : key ∉ labels.keys) (k : String) (j : Json) :
    (labels.set key label).lookup k = some j ↔ labels.lookup k = some j ∨ (key = k ∧ label = j) := by
  by_cases hk : k = key
  · subst hk
    simp [Dict.lookup_eq_none.mpr h]
  · simp [Dict.lookup_set_of_ne hk, Ne.symm hk]

namespace NamespaceSnapshot

theorem mediaEntry_labels (s : NamespaceSnapshot) (value : LabelValue) :
    (s.mediaEntry value).labels = s.mediaLabels value.targetId := by
  unfold mediaEntry mediaLabels
  cases s.media.lookup value.targetId <;> rfl

/-- What one turn of the loop does. -/
theorem store_eq_ok {s s' : NamespaceSnapshot} {value : LabelValue} (h : s.store value = .ok s') :
    (value.targetScope = "global" ∧ value.labelKey ∉ s.globals.keys ∧
      s' = { s with globals := s.globals.set value.labelKey (.obj (labelEntries value)) }) ∨
    (value.targetScope = "media" ∧ value.labelKey ∉ (s.mediaLabels value.targetId).keys ∧
      s' = { s with media := s.media.set value.targetId ⟨(s.mediaEntry value).targetKind,
        (s.mediaLabels value.targetId).set value.labelKey (.obj (labelEntries value))⟩ }) := by
  unfold store at h
  split_ifs at h with hscope
  · obtain ⟨labels, hstore, h⟩ := bind_eq_ok.mp h
    obtain ⟨hfresh, rfl⟩ := storeUnambiguousLabel_eq_ok.mp hstore
    exact .inl ⟨hscope, hfresh, (Except.ok.inj h).symm⟩
  · obtain ⟨labels, hstore, h⟩ := bind_eq_ok.mp h
    rw [mediaEntry_labels] at hstore
    obtain ⟨hfresh, rfl⟩ := storeUnambiguousLabel_eq_ok.mp hstore
    exact .inr ⟨value.targetScope_cases.resolve_left hscope, hfresh, (Except.ok.inj h).symm⟩

/-- The labels of the target a store touches, and those of any other. -/
theorem mediaLabels_set (s : NamespaceSnapshot) (target : String) (entry : MediaEntry)
    (target' : String) :
    mediaLabels { s with media := s.media.set target entry } target' =
      if target' = target then entry.labels else s.mediaLabels target' := by
  by_cases ht : target' = target
  · subst ht
    simp [mediaLabels]
  · simp [mediaLabels, Dict.lookup_set_of_ne ht, ht]

/-- One turn of the loop keeps the representation. -/
theorem represents_store {s s' : NamespaceSnapshot} {done : List LabelValue}
    {value : LabelValue} (hs : s.Represents done) (h : s.store value = .ok s') :
    s'.Represents (done ++ [value]) := by
  rcases store_eq_ok h with ⟨hscope, hfresh, rfl⟩ | ⟨hscope, hfresh, rfl⟩
  · have hmedia : ∀ {p : LabelValue → Prop},
        (∃ v ∈ done ++ [value], v.targetScope = "media" ∧ p v) ↔
          ∃ v ∈ done, v.targetScope = "media" ∧ p v := by
      intro p
      simp [or_and_right, exists_or, hscope]
    refine ⟨Dict.nodup_keys_set hs.globals_nodup, hs.media_nodup, hs.labels_nodup, ?_, ?_, ?_⟩
    · intro k j
      rw [lookup_set_of_fresh hfresh, hs.lookup_globals]
      simp [or_and_right, exists_or, hscope]
    · exact fun target => (hs.mem_media target).trans hmedia.symm
    · exact fun target k j => (hs.lookup_media target k j).trans hmedia.symm
  · refine ⟨hs.globals_nodup, Dict.nodup_keys_set hs.media_nodup, ?_, ?_, ?_, ?_⟩
    · intro target
      rw [mediaLabels_set]
      split_ifs
      · exact Dict.nodup_keys_set (hs.labels_nodup _)
      · exact hs.labels_nodup target
    · intro k j
      rw [hs.lookup_globals]
      simp [or_and_right, exists_or, hscope]
    · intro target
      rw [Dict.mem_keys_set, hs.mem_media]
      simp [or_and_right, exists_or, hscope, or_comm, eq_comm]
    · intro target k j
      rw [mediaLabels_set]
      split_ifs with ht
      · rw [lookup_set_of_fresh hfresh, hs.lookup_media]
        simp [or_and_right, exists_or, hscope, ht]
      · rw [hs.lookup_media]
        simp [or_and_right, exists_or, Ne.symm ht]

theorem represents_foldlM {s s' : NamespaceSnapshot} {done : List LabelValue}
    (hs : s.Represents done) {values : List LabelValue} (h : values.foldlM store s = .ok s') :
    s'.Represents (done ++ values) := by
  induction values generalizing s done with
  | nil =>
    obtain rfl : s = s' := Except.ok.inj h
    simpa using hs
  | cons value values ih =>
    rw [List.foldlM_cons] at h
    obtain ⟨next, hstep, h⟩ := bind_eq_ok.mp h
    simpa using ih (represents_store hs hstep) h

end NamespaceSnapshot

/-- A snapshot holds exactly the labels it was made from. -/
theorem namespaceSnapshot_represents {values : List LabelValue} {s : NamespaceSnapshot}
    (h : namespaceSnapshot values = .ok s) : s.Represents values := by
  have hempty : NamespaceSnapshot.Represents {} [] :=
    ⟨by simp, by simp, by simp [NamespaceSnapshot.mediaLabels], by simp, by simp,
      by simp [NamespaceSnapshot.mediaLabels]⟩
  exact NamespaceSnapshot.represents_foldlM hempty h

end TgCurator
