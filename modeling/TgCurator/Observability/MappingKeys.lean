import TgCurator.Observability.Redaction

/-!
# The keys of logged mappings

`redact_for_log` on mappings with the keys they have. The redactor takes `str` of each key, which
refuses an integer of more than 4300 digits, and raises where it meets such a key (`redactKeyed`).
Where it meets none, the result is that of `redactForLog` on the mappings by the `str` of their
keys (`redactKeyed_eq_some_iff`). A key is met where its mapping is reached under no sensitive
name, though another item of the same name may count in its place.
-/

namespace TgCurator

/-! ## Mappings with their keys -/

/-- A key of a mapping. -/
inductive LogKey
  | str (s : String)
  | int (k : ℤ)
  /-- Another key, by its `str` unless that raises. -/
  | other (text : Option String)

/-- `str(key)`, or nothing where it raises. -/
def LogKey.text? : LogKey → Option String
  | str s => some s
  | int k => if (Number.int k).isPrintable then some (toString k) else none
  | other text => text

/-- What a container holds: the items of a mapping, or those of a list, tuple or set. -/
inductive KeyedContainer (n : ℕ)
  | mapping (items : List (LogKey × LogValue n))
  | sequence (items : List (LogValue n))

/-- An object graph whose mappings have keys of any kind. -/
abbrev KeyedGraph (n : ℕ) := Fin n → KeyedContainer n

/-- The items of a mapping by the `str` of their keys, of several with one `str` the last. -/
def namedItems {n : ℕ} (items : List (LogKey × LogValue n)) : Dict String (LogValue n) :=
  Dict.ofList (items.filterMap fun e => e.1.text?.map fun name => (name, e.2))

/-- A container with its keys by their `str`. -/
def KeyedContainer.named {n : ℕ} : KeyedContainer n → Container n
  | mapping items => .mapping (namedItems items) (Dict.nodup_keys_ofList _)
  | sequence items => .sequence items

/-- The graph with the keys by their `str`. -/
def KeyedGraph.named {n : ℕ} (graph : KeyedGraph n) : ObjectGraph n :=
  fun id => (graph id).named

section

variable {n : ℕ} (redactText : String → String)

/-- `redact_for_log`, or nothing where it raises. -/
def redactKeyed (graph : KeyedGraph n) (seen : Finset (Fin n)) (fieldName : Option String)
    (value : LogValue n) : Option Json :=
  if fieldName.any isSensitiveField then some (.str redactedValue)
  else
    match value with
    | .container id =>
      if _h : id ∈ seen then some (.str recursiveValue)
      else
        match graph id with
        | .mapping items => do
          let entries ← items.mapM fun e => do
            let name ← e.1.text?
            let item ← redactKeyed graph (insert id seen) (some name) e.2
            return (name, item)
          return .obj (Dict.ofList entries)
        | .sequence items => do
          let items ← items.mapM fun item => redactKeyed graph (insert id seen) none item
          return .arr items
    -- no graph is needed for a value that holds no others
    | value => some (redactForLog redactText (KeyedGraph.named graph) seen none value)
termination_by (Finset.univ \ seen).card
decreasing_by all_goals exact card_sdiff_insert_lt _h

variable {graph : KeyedGraph n} {seen : Finset (Fin n)} {fieldName : Option String} {id : Fin n}
  {value : LogValue n} {redactText}

/-! ## Keys that are met -/

/-- The redactor goes on to a value that a container holds. -/
def Visits (graph : KeyedGraph n) (id : Fin n) (value : LogValue n) : Prop :=
  match graph id with
  | .mapping items =>
    ∃ key name, (key, value) ∈ items ∧ key.text? = some name ∧ isSensitiveField name = false
  | .sequence items => value ∈ items

/-- Every key of a container has a `str`. -/
def KeyedContainer.PrintsKeys : KeyedContainer n → Prop
  | mapping items => ∀ e ∈ items, ∃ name, e.1.text? = some name
  | sequence _ => True

/-- Every key that the redactor meets in a value has a `str`. -/
def PrintsKeys (graph : KeyedGraph n) (value : LogValue n) : Prop :=
  ∀ root id, value = .container root →
    Relation.ReflTransGen (fun a b => Visits graph a (.container b)) root id → (graph id).PrintsKeys

/-- The same, where the containers that were seen are not entered. -/
def PrintsKeysFrom (graph : KeyedGraph n) (seen : Finset (Fin n)) (value : LogValue n) : Prop :=
  ∀ root id, value = .container root →
    FreshPath.Fresh (fun a b => Visits graph a (.container b)) seen root id →
      (graph id).PrintsKeys

theorem printsKeysFrom_empty_iff : PrintsKeysFrom graph ∅ value ↔ PrintsKeys graph value := by
  simp only [PrintsKeysFrom, PrintsKeys, FreshPath.fresh_iff]

theorem printsKeysFrom_of_ne (h : ∀ id, value ≠ .container id) :
    PrintsKeysFrom graph seen value :=
  fun root _ hroot _ => absurd hroot (h root)

theorem printsKeysFrom_of_mem (hid : id ∈ seen) : PrintsKeysFrom graph seen (.container id) := by
  intro root id' hroot hpath
  obtain rfl := LogValue.container.inj hroot
  exact absurd hid hpath.notMem_left

/-- The keys met in a container that was not seen are its own and those met in what it holds. -/
theorem printsKeysFrom_container_iff (hid : id ∉ seen) :
    PrintsKeysFrom graph seen (.container id) ↔ (graph id).PrintsKeys ∧
      ∀ item, Visits graph id item → PrintsKeysFrom graph (insert id seen) item := by
  constructor
  · refine fun h => ⟨h id id rfl (.refl hid), fun item hitem root id' hroot hpath => ?_⟩
    subst hroot
    exact h id id' rfl (.step hid hitem hpath)
  · rintro ⟨hkeys, hitems⟩ root id' hroot hpath
    obtain rfl := LogValue.container.inj hroot
    cases hpath with
    | refl => exact hkeys
    | step _ hedge hpath => exact hitems _ hedge _ id' rfl hpath

/-! ## The redaction -/

/-- A comprehension whose items return under a condition. -/
theorem mapM_eq_some_iff {α β : Type} {f : α → Option β} {P : α → Prop} {g : α → β} {l : List α}
    (h : ∀ x y, f x = some y ↔ P x ∧ y = g x) {ys : List β} :
    l.mapM f = some ys ↔ (∀ x ∈ l, P x) ∧ ys = l.map g := by
  induction l generalizing ys with
  | nil => simp [eq_comm]
  | cons x l ih =>
    rw [List.mapM_cons, List.forall_mem_cons, List.map_cons]
    constructor
    · intro hsome
      obtain ⟨y, hy, hsome⟩ := Option.bind_eq_some_iff.mp hsome
      obtain ⟨rest, hrest, hsome⟩ := Option.bind_eq_some_iff.mp hsome
      obtain ⟨hP, rfl⟩ := (h x y).mp hy
      obtain ⟨hall, rfl⟩ := ih.mp hrest
      exact ⟨⟨hP, hall⟩, (Option.some.inj hsome).symm⟩
    · rintro ⟨⟨hP, hall⟩, rfl⟩
      refine Option.bind_eq_some_iff.mpr ⟨_, (h x _).mpr ⟨hP, rfl⟩, ?_⟩
      exact Option.bind_eq_some_iff.mpr ⟨_, ih.mpr ⟨hall, rfl⟩, rfl⟩

theorem redactKeyed_sensitive (h : fieldName.any isSensitiveField = true) (value : LogValue n) :
    redactKeyed redactText graph seen fieldName value = some (.str redactedValue) := by
  rw [redactKeyed.eq_def, if_pos h]

/-- A value that holds no others is redacted without regard to keys. -/
theorem redactKeyed_of_ne (hfield : fieldName.any isSensitiveField = false)
    (h : ∀ id, value ≠ .container id) :
    redactKeyed redactText graph seen fieldName value =
      some (redactForLog redactText (KeyedGraph.named graph) seen fieldName value) := by
  cases value with
  | container id => exact absurd rfl (h id)
  | _ =>
    simp [redactKeyed.eq_def, redactForLog.eq_def, hfield]

theorem redactKeyed_seen (hfield : fieldName.any isSensitiveField = false) (hid : id ∈ seen) :
    redactKeyed redactText graph seen fieldName (.container id) = some (.str recursiveValue) := by
  rw [redactKeyed, hfield]
  simp [hid]

/-- A mapping is redacted item by item. -/
theorem redactKeyed_mapping (hfield : fieldName.any isSensitiveField = false) (hid : id ∉ seen)
    {items : List (LogKey × LogValue n)} (hgraph : graph id = .mapping items) :
    redactKeyed redactText graph seen fieldName (.container id) =
      (items.mapM fun (e : LogKey × LogValue n) => e.1.text?.bind fun name =>
        (redactKeyed redactText graph (insert id seen) (some name) e.2).map fun item =>
          (name, item)).map fun entries => .obj (Dict.ofList entries) := by
  simp [redactKeyed, hfield, hid, hgraph, Option.map_eq_bind]

/-- A sequence is redacted item by item. -/
theorem redactKeyed_sequence (hfield : fieldName.any isSensitiveField = false) (hid : id ∉ seen)
    {items : List (LogValue n)} (hgraph : graph id = .sequence items) :
    redactKeyed redactText graph seen fieldName (.container id) =
      (items.mapM (redactKeyed redactText graph (insert id seen) none)).map .arr := by
  simp [redactKeyed, hfield, hid, hgraph, Option.map_eq_bind]

/-- An item of a mapping, with the `str` of its key. -/
theorem bind_text_eq_some_iff {redact : String → LogValue n → Option Json}
    {P : String → LogValue n → Prop} {result : String → LogValue n → Json}
    (h : ∀ name v j, redact name v = some j ↔ P name v ∧ j = result name v)
    (e : LogKey × LogValue n) (entry : String × Json) :
    (e.1.text?.bind fun name => (redact name e.2).map fun item => (name, item)) = some entry ↔
      (∃ name, e.1.text? = some name ∧ P name e.2) ∧
        entry = (e.1.text?.getD "", result (e.1.text?.getD "") e.2) := by
  simp only [Option.bind_eq_some_iff, Option.map_eq_some_iff, h]
  constructor
  · rintro ⟨name, hname, _, ⟨hP, rfl⟩, rfl⟩
    exact ⟨⟨name, hname, hP⟩, by rw [hname, Option.getD_some]⟩
  · rintro ⟨⟨name, hname, hP⟩, rfl⟩
    exact ⟨name, hname, _, ⟨hP, rfl⟩, by rw [hname, Option.getD_some]⟩

/-- The items of a mapping whose keys have a `str`. -/
theorem filterMap_text {β : Type} (f : String → LogValue n → β)
    {items : List (LogKey × LogValue n)} (h : ∀ e ∈ items, ∃ name, e.1.text? = some name) :
    (items.filterMap fun e => e.1.text?.map fun name => (name, f name e.2)) =
      items.map fun e => (e.1.text?.getD "", f (e.1.text?.getD "") e.2) := by
  refine List.filterMap_eq_map_iff_forall_eq_some.mpr fun e he => ?_
  obtain ⟨name, hname⟩ := h e he
  rw [hname]
  rfl

/-- The keys met in a mapping that was not seen. -/
theorem printsKeysFrom_mapping_iff (hid : id ∉ seen) {items : List (LogKey × LogValue n)}
    (hgraph : graph id = .mapping items) :
    PrintsKeysFrom graph seen (.container id) ↔
      ∀ e ∈ items, ∃ name, e.1.text? = some name ∧ ((some name).any isSensitiveField = true ∨
        PrintsKeysFrom graph (insert id seen) e.2) := by
  rw [printsKeysFrom_container_iff hid, hgraph, KeyedContainer.PrintsKeys]
  simp only [Visits, hgraph]
  constructor
  · rintro ⟨hprints, hitems⟩ e he
    obtain ⟨name, hname⟩ := hprints e he
    refine ⟨name, hname, or_iff_not_imp_left.mpr fun hsafe => ?_⟩
    exact hitems e.2 ⟨e.1, name, he, hname, Bool.eq_false_of_not_eq_true hsafe⟩
  · refine fun h => ⟨fun e he => (h e he).imp fun _ => And.left, ?_⟩
    rintro item ⟨key, name, hmem, hname, hsafe⟩
    obtain ⟨name', hname', hitem⟩ := h (key, item) hmem
    obtain rfl := Option.some.inj (hname.symm.trans hname')
    exact hitem.resolve_left (by simp [hsafe])

/-- A mapping by the `str` of its keys. -/
theorem redactForLog_named (hfield : fieldName.any isSensitiveField = false) (hid : id ∉ seen)
    {items : List (LogKey × LogValue n)} (hgraph : graph id = .mapping items)
    (h : ∀ e ∈ items, ∃ name, e.1.text? = some name) :
    redactForLog redactText (KeyedGraph.named graph) seen fieldName (.container id) =
      .obj (Dict.ofList (items.map fun e => (e.1.text?.getD "",
        redactForLog redactText (KeyedGraph.named graph) (insert id seen)
          (some (e.1.text?.getD "")) e.2))) := by
  have hnamed : KeyedGraph.named graph id = .mapping (namedItems items)
      (Dict.nodup_keys_ofList _) := by
    rw [KeyedGraph.named, hgraph]
    rfl
  rw [redactForLog_mapping hfield hid hnamed, namedItems, filterMap_text (fun _ v => v) h]
  congr 1
  refine (Dict.mapValues_ofList (fun name item => redactForLog redactText
    (KeyedGraph.named graph) (insert id seen) (some name) item) _).trans ?_
  rw [List.map_map]
  rfl

/-- `redact_for_log` returns exactly if every key that it meets has a `str`, and then what it
returns on the mappings by the `str` of their keys. -/
theorem redactKeyed_from (seen : Finset (Fin n)) :
    ∀ (fieldName : Option String) (value : LogValue n) (j : Json),
      redactKeyed redactText graph seen fieldName value = some j ↔
        (fieldName.any isSensitiveField = true ∨ PrintsKeysFrom graph seen value) ∧
          j = redactForLog redactText (KeyedGraph.named graph) seen fieldName value := by
  induction seen using seen_induction with
  | h seen ih =>
  intro fieldName value j
  cases hfield : fieldName.any isSensitiveField with
  | true =>
    rw [redactKeyed_sensitive hfield, redactForLog_sensitive hfield, Option.some.injEq, eq_comm]
    simp
  | false =>
    simp only [Bool.false_eq_true, false_or]
    cases value with
    | container id =>
      by_cases hid : id ∈ seen
      · rw [redactKeyed_seen hfield hid, redactForLog_seen hfield hid, Option.some.injEq, eq_comm]
        exact (and_iff_right (printsKeysFrom_of_mem hid)).symm
      · cases hgraph : graph id with
        | mapping items =>
          rw [redactKeyed_mapping hfield hid hgraph, printsKeysFrom_mapping_iff hid hgraph,
            Option.map_eq_some_iff]
          simp only [mapM_eq_some_iff
            (bind_text_eq_some_iff fun name v j => ih id hid (some name) v j)]
          constructor
          · rintro ⟨_, ⟨hkeys, rfl⟩, rfl⟩
            exact ⟨hkeys, (redactForLog_named hfield hid hgraph
              fun e he => (hkeys e he).imp fun _ => And.left).symm⟩
          · rintro ⟨hkeys, rfl⟩
            exact ⟨_, ⟨hkeys, rfl⟩, (redactForLog_named hfield hid hgraph
              fun e he => (hkeys e he).imp fun _ => And.left).symm⟩
        | sequence items =>
          have hnamed : KeyedGraph.named graph id = .sequence items := by
            rw [KeyedGraph.named, hgraph]
            rfl
          rw [redactKeyed_sequence hfield hid hgraph, redactForLog_sequence hfield hid hnamed,
            Option.map_eq_some_iff, printsKeysFrom_container_iff hid, hgraph]
          simp only [mapM_eq_some_iff fun v j => ih id hid none v j]
          simp [KeyedContainer.PrintsKeys, Visits, hgraph, eq_comm]
    | _ =>
      rw [redactKeyed_of_ne hfield (by simp), Option.some.injEq, eq_comm]
      exact (and_iff_right (printsKeysFrom_of_ne (by simp))).symm

/-- `redact_for_log` returns exactly if every key that it meets has a `str`. -/
theorem redactKeyed_eq_some_iff {j : Json} :
    redactKeyed redactText graph ∅ fieldName value = some j ↔
      (fieldName.any isSensitiveField = true ∨ PrintsKeys graph value) ∧
        j = redactForLog redactText (KeyedGraph.named graph) ∅ fieldName value := by
  rw [redactKeyed_from, printsKeysFrom_empty_iff]

end

end TgCurator
