import TgCurator.Json

/-!
# Python values and the JSON they are dumped to

The values Python code nests in a dictionary before it is dumped: besides the JSON values there
are tuples, which `json.dumps` writes as arrays, mappings that are no `dict`, which it refuses,
and other objects. `eqJson` is Python's `==` of such a value with one `json.loads` yields: a
tuple equals no list, and a mapping equals a dictionary with equal items.

A value that was dumped equals what was written exactly if no number in it is infinite or not a
number and nothing in it is a tuple (`plain_iff_of_dumps`). The order of the items of a loaded
dictionary does not matter to `==` (`eqJson_canonical`).
-/

/-! ## Values -/

/-- A key of a mapping: a string or another hashable object. -/
inductive PyKey
  | str (s : String)
  | other (id : ℕ)
  deriving DecidableEq

/-- Whether the key is a string. -/
def PyKey.isStr : PyKey → Bool
  | str _ => true
  | other _ => false

/-- A Python value. -/
inductive PyValue
  | none
  | bool (b : Bool)
  | num (n : Number)
  | str (s : String)
  | list (items : List PyValue)
  | tuple (items : List PyValue)
  | dict (entries : List (PyKey × PyValue))
  /-- A mapping that is no `dict`, by its items. -/
  | mapping (entries : List (PyKey × PyValue))
  | other

namespace PyValue

/-- Induction over values: a sequence has its property from its items, a mapping from its
values. -/
@[elab_as_elim]
theorem induction {P : PyValue → Prop} (none : P .none) (bool : ∀ b, P (.bool b))
    (num : ∀ n, P (.num n)) (str : ∀ s, P (.str s))
    (list : ∀ items, (∀ v ∈ items, P v) → P (.list items))
    (tuple : ∀ items, (∀ v ∈ items, P v) → P (.tuple items))
    (dict : ∀ entries, (∀ e ∈ entries, P e.2) → P (.dict entries))
    (mapping : ∀ entries, (∀ e ∈ entries, P e.2) → P (.mapping entries))
    (other : P .other) : ∀ v, P v :=
  @PyValue.rec P (fun items => ∀ v ∈ items, P v) (fun entries => ∀ e ∈ entries, P e.2)
    (fun e => P e.2) none bool num str list tuple dict mapping other (by simp) (by simp_all)
    (by simp) (by simp_all) fun _ _ h => h

mutual

/-- The keys of every mapping are distinct. -/
def WF : PyValue → Prop
  | list items | tuple items => WFItems items
  | dict entries | mapping entries => (Dict.keys entries).Nodup ∧ WFEntries entries
  | _ => True

def WFItems : List PyValue → Prop
  | [] => True
  | v :: items => WF v ∧ WFItems items

def WFEntries : List (PyKey × PyValue) → Prop
  | [] => True
  | (_, v) :: entries => WF v ∧ WFEntries entries

end

mutual

/-- The value `json.loads` yields. -/
def ofJson : Json → PyValue
  | .null => none
  | .bool b => bool b
  | .num n => num n
  | .str s => str s
  | .arr items => list (ofItems items)
  | .obj entries => dict (ofEntries entries)

def ofItems : List Json → List PyValue
  | [] => []
  | j :: items => ofJson j :: ofItems items

def ofEntries : List (String × Json) → List (PyKey × PyValue)
  | [] => []
  | (k, j) :: entries => (.str k, ofJson j) :: ofEntries entries

end

/-! ## Dumping -/

mutual

/-- `json.dumps`, as the value its text stands for; none where it raises, as on an integer of more
than 4300 digits. Keys other than strings are not dumped here. -/
def dumps : PyValue → Option Json
  | none => some .null
  | bool b => some (.bool b)
  | num n => if n.isPrintable then some (.num n) else Option.none
  | str s => some (.str s)
  | list items | tuple items => (dumpsItems items).map .arr
  | dict entries => (dumpsEntries entries).map .obj
  | mapping _ | other => Option.none

def dumpsItems : List PyValue → Option (List Json)
  | [] => some []
  | v :: items => (dumps v).bind fun j => (dumpsItems items).map (j :: ·)

def dumpsEntries : List (PyKey × PyValue) → Option (List (String × Json))
  | [] => some []
  | (.str k, v) :: entries =>
    (dumps v).bind fun j => (dumpsEntries entries).map ((k, j) :: ·)
  | (.other _, _) :: _ => Option.none

end

theorem dumpsItems_cons_eq_some {v : PyValue} {items : List PyValue} {js : List Json} :
    dumpsItems (v :: items) = some js ↔
      ∃ j rest, v.dumps = some j ∧ dumpsItems items = some rest ∧ js = j :: rest := by
  rw [dumpsItems]
  simp only [Option.bind_eq_some_iff, Option.map_eq_some_iff, eq_comm (a := js)]
  constructor
  · rintro ⟨j, hj, rest, hrest, rfl⟩
    exact ⟨j, rest, hj, hrest, rfl⟩
  · rintro ⟨j, rest, hj, hrest, rfl⟩
    exact ⟨j, hj, rest, hrest, rfl⟩

theorem dumpsEntries_cons_eq_some {k : PyKey} {v : PyValue} {entries : List (PyKey × PyValue)}
    {es : List (String × Json)} :
    dumpsEntries ((k, v) :: entries) = some es ↔ ∃ s j rest, k = .str s ∧ v.dumps = some j ∧
      dumpsEntries entries = some rest ∧ es = (s, j) :: rest := by
  cases k with
  | other id => simp [dumpsEntries]
  | str s =>
    rw [dumpsEntries]
    simp only [Option.bind_eq_some_iff, Option.map_eq_some_iff]
    constructor
    · rintro ⟨j, hj, rest, hrest, rfl⟩
      exact ⟨s, j, rest, rfl, hj, hrest, rfl⟩
    · rintro ⟨_, j, rest, hs, hj, hrest, rfl⟩
      obtain rfl := PyKey.str.inj hs
      exact ⟨j, hj, rest, hrest, rfl⟩

/-- A loaded value is dumped as itself, if its integers can be printed. -/
theorem dumps_ofJson (j : Json) :
    (ofJson j).dumps = if j.allNumbers Number.isPrintable then some j else Option.none := by
  induction j using Json.induction with
  | null | bool | str => simp [ofJson, dumps, Json.allNumbers]
  | num n => rw [ofJson, dumps, Json.allNumbers]
  | arr items ih =>
    have hitems : dumpsItems (ofItems items) =
        if Json.allNumbersItems Number.isPrintable items then some items else Option.none := by
      induction items with
      | nil => rfl
      | cons j items ih' =>
        rw [List.forall_mem_cons] at ih
        rw [ofItems, dumpsItems, ih.1, ih' ih.2, Json.allNumbersItems]
        cases j.allNumbers Number.isPrintable <;>
          cases Json.allNumbersItems Number.isPrintable items <;> rfl
    rw [ofJson, dumps, hitems, Json.allNumbers]
    split_ifs <;> rfl
  | obj entries ih =>
    have hentries : dumpsEntries (ofEntries entries) =
        if Json.allNumbersEntries Number.isPrintable entries then some entries
        else Option.none := by
      induction entries with
      | nil => rfl
      | cons e entries ih' =>
        rw [List.forall_mem_cons] at ih
        rw [ofEntries, dumpsEntries, ih.1, ih' ih.2, Json.allNumbersEntries]
        cases e.2.allNumbers Number.isPrintable <;>
          cases Json.allNumbersEntries Number.isPrintable entries <;> rfl
    rw [ofJson, dumps, hentries, Json.allNumbers]
    split_ifs <;> rfl

/-- The keys of a dumped dictionary. -/
theorem keys_of_dumpsEntries {entries : List (PyKey × PyValue)} {es : List (String × Json)}
    (h : dumpsEntries entries = some es) :
    Dict.keys entries = (Dict.keys es).map PyKey.str := by
  induction entries generalizing es with
  | nil =>
    obtain rfl := Option.some.inj h
    rfl
  | cons e entries ih =>
    obtain ⟨s, j, rest, hk, -, hrest, rfl⟩ := dumpsEntries_cons_eq_some.mp h
    rw [Dict.keys_cons, Dict.keys_cons, List.map_cons, ih hrest, hk]

theorem nodup_keys_of_dumpsEntries {entries : List (PyKey × PyValue)}
    {es : List (String × Json)} (hkeys : (Dict.keys entries).Nodup)
    (h : dumpsEntries entries = some es) : (Dict.keys es).Nodup := by
  rw [keys_of_dumpsEntries h] at hkeys
  exact hkeys.of_map _

theorem wfItems_of_dumpsItems {items : List PyValue}
    (ih : ∀ v ∈ items, ∀ j, v.WF → v.dumps = some j → j.WF) (hwf : WFItems items)
    {js : List Json} (h : dumpsItems items = some js) : Json.WFItems js := by
  induction items generalizing js with
  | nil =>
    obtain rfl := Option.some.inj h
    trivial
  | cons v items ih' =>
    obtain ⟨j, rest, hj, hrest, rfl⟩ := dumpsItems_cons_eq_some.mp h
    rw [List.forall_mem_cons] at ih
    exact ⟨ih.1 j hwf.1 hj, ih' ih.2 hwf.2 hrest⟩

theorem wfEntries_of_dumpsEntries {entries : List (PyKey × PyValue)}
    (ih : ∀ e ∈ entries, ∀ j, e.2.WF → e.2.dumps = some j → j.WF) (hwf : WFEntries entries)
    {es : List (String × Json)} (h : dumpsEntries entries = some es) : Json.WFEntries es := by
  induction entries generalizing es with
  | nil =>
    obtain rfl := Option.some.inj h
    trivial
  | cons e entries ih' =>
    obtain ⟨s, j, rest, -, hj, hrest, rfl⟩ := dumpsEntries_cons_eq_some.mp h
    rw [List.forall_mem_cons] at ih
    exact ⟨ih.1 j hwf.1 hj, ih' ih.2 hwf.2 hrest⟩

/-- What is dumped has distinct keys. -/
theorem wf_of_dumps (v : PyValue) (hwf : v.WF) {j : Json} (h : v.dumps = some j) : j.WF := by
  induction v using PyValue.induction generalizing j with
  | none | bool | str =>
    obtain rfl := Option.some.inj h
    trivial
  | num n =>
    rw [dumps] at h
    split_ifs at h
    obtain rfl := Option.some.inj h
    trivial
  | list items ih | tuple items ih =>
    obtain ⟨js, hjs, rfl⟩ := Option.map_eq_some_iff.mp h
    exact wfItems_of_dumpsItems (fun v hv j hw hj => ih v hv hw hj) hwf hjs
  | dict entries ih =>
    obtain ⟨es, hes, rfl⟩ := Option.map_eq_some_iff.mp h
    exact ⟨nodup_keys_of_dumpsEntries hwf.1 hes,
      wfEntries_of_dumpsEntries (fun e he j hw hj => ih e he hw hj) hwf.2 hes⟩
  | mapping | other => cases h

/-! ## Equality with a loaded value -/

mutual

/-- Python's `==` with a JSON value. -/
def eqJson : PyValue → Json → Bool
  | none, j => match j with
    | .null => true
    | _ => false
  | bool b, j => match j.asNumber? with
    | some m => (Number.int (if b then 1 else 0)).eq m
    | Option.none => false
  | num n, j => match j.asNumber? with
    | some m => n.eq m
    | Option.none => false
  | str s, j => match j with
    | .str t => s == t
    | _ => false
  | list items, j => match j with
    | .arr js => eqItems items js
    | _ => false
  | dict entries, j | mapping entries, j => match j with
    | .obj es => entries.length == es.length && eqEntries entries es
    | _ => false
  | tuple _, _ | other, _ => false

/-- A list equals a loaded list item by item. -/
def eqItems : List PyValue → List Json → Bool
  | [], [] => true
  | v :: items, j :: js => eqJson v j && eqItems items js
  | _, _ => false

/-- Every item of the mapping has an equal value in the loaded dictionary. -/
def eqEntries : List (PyKey × PyValue) → List (String × Json) → Bool
  | [], _ => true
  | (.str k, v) :: entries, es => (es.lookup k).any (eqJson v) && eqEntries entries es
  | (.other _, _) :: _, _ => false

end

theorem eqItems_canonical {items : List PyValue}
    (ih : ∀ v ∈ items, ∀ j : Json, j.WF → v.eqJson j.canonical = v.eqJson j) {js : List Json}
    (hjs : Json.WFItems js) : eqItems items (js.map Json.canonical) = eqItems items js := by
  induction items generalizing js with
  | nil => cases js <;> rfl
  | cons v items ih' =>
    cases js with
    | nil => rfl
    | cons j js =>
      rw [List.forall_mem_cons] at ih
      rw [List.map_cons, eqItems, eqItems, ih.1 j hjs.1, ih' ih.2 hjs.2]

theorem eqEntries_canonical {entries : List (PyKey × PyValue)}
    (ih : ∀ e ∈ entries, ∀ j : Json, j.WF → e.2.eqJson j.canonical = e.2.eqJson j)
    {es : List (String × Json)} (hes : (Json.obj es).WF) :
    eqEntries entries (Json.canonicalEntries es) = eqEntries entries es := by
  induction entries with
  | nil => rfl
  | cons e entries ih' =>
    rw [List.forall_mem_cons] at ih
    obtain ⟨k, v⟩ := e
    cases k with
    | other id => rfl
    | str k =>
      rw [eqEntries, eqEntries, ih' ih.2, Json.lookup_canonicalEntries hes.1, Option.any_map]
      congr 1
      cases hl : es.lookup k with
      | none => rfl
      | some w => exact ih.1 w (Json.wfEntries_iff.mp hes.2 _ (Dict.mem_of_lookup hl))

/-- `==` does not see the order of the items of loaded dictionaries. -/
theorem eqJson_canonical (v : PyValue) {j : Json} (hj : j.WF) :
    v.eqJson j.canonical = v.eqJson j := by
  have hlength : ∀ es, (Json.canonicalEntries es).length = es.length := by
    intro es
    rw [(Json.canonicalEntries_perm es).length_eq, List.length_map]
  induction v using PyValue.induction generalizing j with
  | none | bool | num | str | tuple | other =>
    cases j <;> simp [eqJson, Json.canonical, Json.asNumber?]
  | list items ih =>
    cases j with
    | arr js =>
      rw [Json.canonical_arr, eqJson, eqJson]
      exact eqItems_canonical (fun v hv j hj => ih v hv hj) hj
    | _ => simp [eqJson, Json.canonical]
  | dict entries ih | mapping entries ih =>
    cases j with
    | obj es =>
      rw [Json.canonical_obj, eqJson, eqJson, hlength,
        eqEntries_canonical (fun e he j hj => ih e he hj) hj]
    | _ => simp [eqJson, Json.canonical]

/-! ## Values that are read back -/

mutual

/-- No tuple, no mapping other than a `dict`, and only numbers that strict JSON text can hold. -/
def plain : PyValue → Bool
  | num n => n.isDumpable
  | list items => plainItems items
  | dict entries => plainEntries entries
  | tuple _ | mapping _ | other => false
  | _ => true

def plainItems : List PyValue → Bool
  | [] => true
  | v :: items => plain v && plainItems items

def plainEntries : List (PyKey × PyValue) → Bool
  | [] => true
  | (_, v) :: entries => plain v && plainEntries entries

end

theorem plainItems_iff_of_dumpsItems {items : List PyValue}
    (ih : ∀ v ∈ items, ∀ j, v.WF → v.dumps = some j →
      (v.plain = true ↔ j.allFinite = true ∧ v.eqJson j = true))
    (hwf : WFItems items) {js : List Json} (h : dumpsItems items = some js) :
    plainItems items = true ↔ Json.allNumbersItems Number.isFinite js = true ∧ eqItems items js = true := by
  induction items generalizing js with
  | nil =>
    obtain rfl := Option.some.inj h
    simp [plainItems, Json.allNumbersItems, eqItems]
  | cons v items ih' =>
    obtain ⟨j, rest, hj, hrest, rfl⟩ := dumpsItems_cons_eq_some.mp h
    rw [List.forall_mem_cons] at ih
    simp only [plainItems, Json.allNumbersItems, eqItems, Bool.and_eq_true, ih.1 j hwf.1 hj,
      ih' ih.2 hwf.2 hrest]
    exact and_and_and_comm

/-- The items of a dictionary, within the loaded dictionary `all` that has theirs. -/
theorem plainEntries_iff_of_dumpsEntries {entries : List (PyKey × PyValue)}
    (ih : ∀ e ∈ entries, ∀ j, e.2.WF → e.2.dumps = some j →
      (e.2.plain = true ↔ j.allFinite = true ∧ e.2.eqJson j = true))
    (hwf : WFEntries entries) {es all : List (String × Json)}
    (h : dumpsEntries entries = some es) (hall : ∀ e ∈ es, all.lookup e.1 = some e.2) :
    plainEntries entries = true ↔
      Json.allNumbersEntries Number.isFinite es = true ∧ eqEntries entries all = true := by
  induction entries generalizing es with
  | nil =>
    obtain rfl := Option.some.inj h
    simp [plainEntries, Json.allNumbersEntries, eqEntries]
  | cons e entries ih' =>
    obtain ⟨k, v⟩ := e
    obtain ⟨s, j, rest, rfl, hj, hrest, rfl⟩ := dumpsEntries_cons_eq_some.mp h
    rw [List.forall_mem_cons] at ih hall
    simp only [plainEntries, Json.allNumbersEntries, eqEntries, Bool.and_eq_true, hall.1,
      Option.any_some, ih.1 j hwf.1 hj, ih' ih.2 hwf.2 hrest hall.2]
    exact and_and_and_comm

/-- A dumped value equals what was written, and its numbers are finite, exactly if it is
plain. -/
theorem plain_iff_of_dumps (v : PyValue) (hwf : v.WF) {j : Json} (h : v.dumps = some j) :
    v.plain = true ↔ j.allFinite = true ∧ v.eqJson j = true := by
  induction v using PyValue.induction generalizing j with
  | none | bool b | str s =>
    obtain rfl := Option.some.inj h
    simp [plain, eqJson, Json.allNumbers, Json.asNumber?, Number.eq, Number.value]
  | num n =>
    rw [dumps] at h
    split_ifs at h with hprint
    obtain rfl := Option.some.inj h
    rw [plain, Number.isDumpable, hprint, Bool.and_true, Json.allFinite, Json.allNumbers, eqJson]
    refine ⟨fun hn => ⟨hn, ?_⟩, And.left⟩
    exact (Number.eq_iff hn hn).mpr rfl
  | list items ih =>
    obtain ⟨js, hjs, rfl⟩ := Option.map_eq_some_iff.mp h
    rw [plain, Json.allFinite, Json.allNumbers, eqJson]
    exact plainItems_iff_of_dumpsItems (fun v hv j hw hj => ih v hv hw hj) hwf hjs
  | tuple items =>
    simp [plain, eqJson]
  | dict entries ih =>
    obtain ⟨es, hes, rfl⟩ := Option.map_eq_some_iff.mp h
    have hlength : entries.length = es.length := by
      have hkeys := congrArg List.length (keys_of_dumpsEntries hes)
      simpa [Dict.keys] using hkeys
    have hnodup := nodup_keys_of_dumpsEntries hwf.1 hes
    rw [plain, Json.allFinite, Json.allNumbers, eqJson, hlength, beq_self_eq_true, Bool.true_and]
    exact plainEntries_iff_of_dumpsEntries (fun e he j hw hj => ih e he hw hj) hwf.2 hes
      fun e he => Dict.lookup_of_mem hnodup he
  | mapping | other => cases h

end PyValue
