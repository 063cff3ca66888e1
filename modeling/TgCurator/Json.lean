import Mathlib.Algebra.Order.Ring.Rat
import Mathlib.Data.List.Sort
import Mathlib.Data.String.Basic
import Mathlib.Order.WithBot
import TgCurator.Dict

/-!
# JSON values as Python objects

The values `json.loads` yields: `None`, booleans, integers of any size, floats,
strings, lists, and dictionaries with string keys. A float is a finite rational, an
infinity or not a number; comparisons of finite floats and integers are exact, as
Python's are. A string is a sequence of Unicode scalar values, ordered by code point.

`pyEq` is Python's `==` on these values: booleans are the integers 0 and 1, an integer
equals the float of the same value, and dictionaries are compared without regard to
the order of their items. `canonical` is what `json.dumps(..., sort_keys=True)`
followed by `json.loads` returns: the same value with the items of every dictionary in
key order. `WF` says the keys of every dictionary are distinct, which a Python
dictionary guarantees.

Every observation the routing code makes of a value is the same on its canonical form
(`pyEq_canonical`, `lookup_canonicalEntries`), so none of them sees the order of items.
-/

/-! ## Numbers -/

/-- A Python `int`, or a Python `float` by its value. -/
inductive Number
  | int (n : ℤ)
  | float (x : ℚ)
  | infinity
  | negInfinity
  | nan
  deriving DecidableEq

namespace Number

/-- The extended rational a number stands for; not a number stands for none. -/
def value : Number → Option (WithBot (WithTop ℚ))
  | int n => some ((n : ℚ) : WithTop ℚ)
  | float x => some (x : WithTop ℚ)
  | infinity => some (⊤ : WithTop ℚ)
  | negInfinity => some ⊥
  | nan => none

/-- Python's `==` on numbers. -/
def eq (a b : Number) : Bool :=
  match a.value, b.value with
  | some x, some y => decide (x = y)
  | _, _ => false

/-- Python's `<` on numbers. -/
def lt (a b : Number) : Bool :=
  match a.value, b.value with
  | some x, some y => decide (x < y)
  | _, _ => false

/-- Python's `<=` on numbers. -/
def le (a b : Number) : Bool :=
  match a.value, b.value with
  | some x, some y => decide (x ≤ y)
  | _, _ => false

/-- A finite float or an integer. -/
def isFinite : Number → Bool
  | int _ | float _ => true
  | _ => false

/-- The least number of more than 4300 digits, which `int.__repr__` refuses. -/
@[irreducible] def strDigitsLimit : ℕ :=
  10 ^ 4300

/-- A float, or an integer that `int.__repr__` prints. -/
def isPrintable : Number → Bool
  | int n => n.natAbs < strDigitsLimit
  | _ => true

/-- A number that `json.dumps` writes with `allow_nan=False`. -/
def isDumpable (n : Number) : Bool :=
  n.isFinite && n.isPrintable

/-- Whether the value is a Python `int`, as opposed to a `float`. -/
def isInt : Number → Bool
  | int _ => true
  | _ => false

/-- The rational a finite number stands for. -/
def toRat : Number → ℚ
  | int n => n
  | float x => x
  | _ => 0

theorem value_of_isFinite {a : Number} (h : a.isFinite = true) :
    a.value = some (a.toRat : WithTop ℚ) := by
  cases a <;> first | rfl | cases h

/-- On finite numbers `==` is equality by value. -/
theorem eq_iff {a b : Number} (ha : a.isFinite = true) (hb : b.isFinite = true) :
    a.eq b = true ↔ a.toRat = b.toRat := by
  simp [Number.eq, value_of_isFinite ha, value_of_isFinite hb]

theorem lt_iff {a b : Number} (ha : a.isFinite = true) (hb : b.isFinite = true) :
    a.lt b = true ↔ a.toRat < b.toRat := by
  simp [Number.lt, value_of_isFinite ha, value_of_isFinite hb]

theorem le_iff {a b : Number} (ha : a.isFinite = true) (hb : b.isFinite = true) :
    a.le b = true ↔ a.toRat ≤ b.toRat := by
  simp [Number.le, value_of_isFinite ha, value_of_isFinite hb]

end Number

/-! ## Values -/

/-- A JSON value. -/
inductive Json
  | null
  | bool (b : Bool)
  | num (n : Number)
  | str (s : String)
  | arr (items : List Json)
  | obj (entries : List (String × Json))

namespace Json

/-- Induction over values: a list has its property from its items, a dictionary from
its values. -/
@[elab_as_elim]
theorem induction {P : Json → Prop} (null : P .null) (bool : ∀ b, P (.bool b))
    (num : ∀ n, P (.num n)) (str : ∀ s, P (.str s))
    (arr : ∀ items, (∀ j ∈ items, P j) → P (.arr items))
    (obj : ∀ entries, (∀ e ∈ entries, P e.2) → P (.obj entries)) : ∀ j, P j :=
  @Json.rec P (fun items => ∀ j ∈ items, P j) (fun entries => ∀ e ∈ entries, P e.2) (fun e => P e.2)
    null bool num str arr obj (by simp) (by simp_all) (by simp) (by simp_all)
    fun _ _ h => h

/-! ## Equality -/

/-- The number a boolean or numeric value is compared as. -/
def asNumber? : Json → Option Number
  | bool b => some (.int (if b then 1 else 0))
  | num n => some n
  | _ => none

mutual

/-- Python's `==`. -/
def pyEq : Json → Json → Bool
  | null, b => match b with
    | null => true
    | _ => false
  | bool a, b => match b.asNumber? with
    | some m => (Number.int (if a then 1 else 0)).eq m
    | none => false
  | num n, b => match b.asNumber? with
    | some m => n.eq m
    | none => false
  | str s, b => match b with
    | str t => s == t
    | _ => false
  | arr xs, b => match b with
    | arr ys => pyEqItems xs ys
    | _ => false
  | obj xs, b => match b with
    | obj ys => xs.length == ys.length && pyEqEntries xs ys
    | _ => false

/-- Lists are equal item by item. -/
def pyEqItems : List Json → List Json → Bool
  | [], [] => true
  | x :: xs, y :: ys => pyEq x y && pyEqItems xs ys
  | _, _ => false

/-- Every item of the first dictionary has an equal value in the second. -/
def pyEqEntries : List (String × Json) → List (String × Json) → Bool
  | [], _ => true
  | (k, v) :: xs, ys =>
    (match ys.lookup k with
      | some w => pyEq v w
      | none => false) && pyEqEntries xs ys

end

theorem pyEqEntries_eq_all (xs ys : List (String × Json)) :
    pyEqEntries xs ys = xs.all fun e =>
      match ys.lookup e.1 with
      | some w => pyEq e.2 w
      | none => false := by
  induction xs with
  | nil => rfl
  | cons e xs ih => rw [pyEqEntries, ih, List.all_cons]

/-! ## Canonical form -/

/-- The order of two items by key. -/
abbrev KeyLE (e e' : String × Json) : Prop := e.1 ≤ e'.1

mutual

/-- The value with the items of every dictionary in key order. -/
def canonical : Json → Json
  | null => null
  | bool b => bool b
  | num n => num n
  | str s => str s
  | arr items => arr (canonicalItems items)
  | obj entries => obj ((canonicalValues entries).insertionSort KeyLE)

def canonicalItems : List Json → List Json
  | [] => []
  | j :: items => canonical j :: canonicalItems items

def canonicalValues : List (String × Json) → List (String × Json)
  | [] => []
  | (k, v) :: entries => (k, canonical v) :: canonicalValues entries

end

mutual

/-- Every number of the value satisfies `p`. -/
def allNumbers (p : Number → Bool) : Json → Bool
  | num n => p n
  | arr items => allNumbersItems p items
  | obj entries => allNumbersEntries p entries
  | _ => true

def allNumbersItems (p : Number → Bool) : List Json → Bool
  | [] => true
  | j :: items => allNumbers p j && allNumbersItems p items

def allNumbersEntries (p : Number → Bool) : List (String × Json) → Bool
  | [] => true
  | (_, v) :: entries => allNumbers p v && allNumbersEntries p entries

end

/-- No number of the value is infinite or not a number. -/
abbrev allFinite (j : Json) : Bool :=
  j.allNumbers Number.isFinite

/-- Whether `json.dumps(..., allow_nan=False)` accepts the numbers of the value. -/
abbrev isDumpable (j : Json) : Bool :=
  j.allNumbers Number.isDumpable

mutual

/-- The keys of every dictionary are distinct. -/
def WF : Json → Prop
  | arr items => WFItems items
  | obj entries => (Dict.keys entries).Nodup ∧ WFEntries entries
  | _ => True

def WFItems : List Json → Prop
  | [] => True
  | j :: items => WF j ∧ WFItems items

def WFEntries : List (String × Json) → Prop
  | [] => True
  | (_, v) :: entries => WF v ∧ WFEntries entries

end

theorem canonicalItems_eq_map (items : List Json) :
    canonicalItems items = items.map canonical := by
  induction items with
  | nil => rfl
  | cons j items ih => rw [canonicalItems, ih, List.map_cons]

theorem canonicalValues_eq_map (entries : List (String × Json)) :
    canonicalValues entries = entries.map fun e => (e.1, canonical e.2) := by
  induction entries with
  | nil => rfl
  | cons e entries ih => rw [canonicalValues, ih, List.map_cons]

theorem wfEntries_iff {entries : List (String × Json)} :
    WFEntries entries ↔ ∀ e ∈ entries, e.2.WF := by
  induction entries with
  | nil => simp [WFEntries]
  | cons e entries ih => rw [WFEntries, ih, List.forall_mem_cons]

theorem wfItems_iff {items : List Json} : WFItems items ↔ ∀ j ∈ items, j.WF := by
  induction items with
  | nil => simp [WFItems]
  | cons j items ih => rw [WFItems, ih, List.forall_mem_cons]

/-- The items of a canonical dictionary. -/
def canonicalEntries (entries : List (String × Json)) : List (String × Json) :=
  (entries.map fun e => (e.1, canonical e.2)).insertionSort KeyLE

@[simp] theorem canonical_obj (entries : List (String × Json)) :
    canonical (.obj entries) = .obj (canonicalEntries entries) := by
  rw [canonical, canonicalValues_eq_map, canonicalEntries]

@[simp] theorem canonical_arr (items : List Json) :
    canonical (.arr items) = .arr (items.map canonical) := by
  rw [canonical, canonicalItems_eq_map]

theorem canonicalEntries_perm (entries : List (String × Json)) :
    (canonicalEntries entries).Perm (entries.map fun e => (e.1, canonical e.2)) :=
  List.perm_insertionSort _ _

theorem keys_canonicalEntries_perm (entries : List (String × Json)) :
    (Dict.keys (canonicalEntries entries)).Perm (Dict.keys entries) := by
  have h := (canonicalEntries_perm entries).map Prod.fst
  rwa [List.map_map] at h

/-- A lookup in a canonical dictionary finds the canonical value. -/
theorem lookup_canonicalEntries {entries : List (String × Json)}
    (h : (Dict.keys entries).Nodup) (k : String) :
    (canonicalEntries entries).lookup k = (entries.lookup k).map canonical := by
  rw [← Dict.lookup_map]
  refine Dict.lookup_perm ?_ (canonicalEntries_perm entries) k
  exact (keys_canonicalEntries_perm entries).nodup_iff.mpr h

theorem canonical_canonical (a : Json) : a.canonical.canonical = a.canonical := by
  induction a using Json.induction with
  | null => rw [canonical, canonical]
  | bool x => rw [canonical, canonical]
  | num n => rw [canonical, canonical]
  | str s => rw [canonical, canonical]
  | arr items ih =>
    rw [canonical_arr, canonical_arr, List.map_map]
    congr 1
    exact List.map_congr_left ih
  | obj entries ih =>
    have hmap : ((canonicalEntries entries).map fun e => (e.1, canonical e.2)) =
        canonicalEntries entries := by
      refine (List.map_congr_left fun e he => ?_).trans (List.map_id _)
      obtain ⟨e', he', rfl⟩ := List.mem_map.mp ((canonicalEntries_perm entries).mem_iff.mp he)
      rw [ih e' he']
      rfl
    have hsorted : (canonicalEntries entries).insertionSort KeyLE = canonicalEntries entries :=
      (List.pairwise_insertionSort KeyLE _).insertionSort_eq
    rw [canonical_obj, canonical_obj, canonicalEntries, hmap, hsorted]

/-- `==` does not see the order of the items of its left side. -/
theorem pyEq_canonical (a b : Json) : pyEq a.canonical b = pyEq a b := by
  induction a using Json.induction generalizing b with
  | null => rw [canonical]
  | bool x => rw [canonical]
  | num n => rw [canonical]
  | str s => rw [canonical]
  | arr items ih =>
    rw [canonical_arr]
    cases b with
    | arr ys =>
      simp only [pyEq]
      induction items generalizing ys with
      | nil => rfl
      | cons j items ih' =>
        cases ys with
        | nil => rfl
        | cons y ys =>
          rw [List.map_cons, pyEqItems, pyEqItems, ih j (by simp) y,
            ih' (fun j hj => ih j (List.mem_cons_of_mem _ hj)) ys]
    | _ => simp only [pyEq]
  | obj entries ih =>
    rw [canonical_obj]
    cases b with
    | obj ys =>
      have hperm := canonicalEntries_perm entries
      simp only [pyEq, pyEqEntries_eq_all, hperm.length_eq, List.length_map]
      rw [hperm.all_eq, List.all_map]
      congr 1
      rw [Bool.eq_iff_iff, List.all_eq_true, List.all_eq_true]
      refine forall₂_congr fun e he => ?_
      simp only [Function.comp_apply]
      cases ys.lookup e.1 with
      | none => rfl
      | some w => simp only [ih e he w]
    | _ => simp only [pyEq]

end Json
