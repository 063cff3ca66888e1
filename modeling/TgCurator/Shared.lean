import TgCurator.Json

/-!
# Errors and text checks shared by the domain

`DomainValidationError` is the error the domain raises on purpose. Its message is kept
with the values its f-string interpolates. The other exceptions are the ones Python
raises by itself on the operations modelled here.
-/

universe u

namespace TgCurator

/-- An exception raised by the code. -/
inductive PyError
  /-- `DomainValidationError`: the message, with `%` for each interpolated operand. -/
  | domainValidation (message : String) (operands : List String)
  /-- An unhashable or otherwise unusable operand. -/
  | typeError
  /-- A missing key of a mapping. -/
  | keyError
  /-- An integer too large for a float. -/
  | overflowError
  /-- A row that breaks a constraint of its table. -/
  | integrityError
  /-- A value that its column does not hold. -/
  | dataError
  deriving DecidableEq

/-- `if not condition: raise DomainValidationError(message)`. -/
def ensure (condition : Bool) (message : String) (operands : List String := []) :
    Except PyError Unit :=
  if condition then .ok () else .error (.domainValidation message operands)

@[simp] theorem ensure_eq_ok {condition : Bool} {message : String} {operands : List String} :
    ensure condition message operands = .ok () ↔ condition = true := by
  cases condition <;> simp [ensure]

/-- A sequence returns when its first step does and the rest does on its result. -/
theorem bind_eq_ok {ε : Type*} {α β : Type u} {x : Except ε α} {f : α → Except ε β} {b : β} :
    x >>= f = .ok b ↔ ∃ a, x = .ok a ∧ f a = .ok b := by
  cases x <;> simp [bind, Except.bind]

@[simp] theorem toOption_eq_some {ε α : Type*} {x : Except ε α} {a : α} :
    x.toOption = some a ↔ x = .ok a := by
  cases x <;> simp [Except.toOption]

/-- A sequence after a step without a result. -/
theorem seq_eq_ok {ε : Type*} {β : Type} {x : Except ε Unit} {f : Unit → Except ε β} {b : β} :
    x >>= f = .ok b ↔ x = .ok () ∧ f () = .ok b := by
  cases x <;> simp [bind, Except.bind]

/-- A comprehension returns when every item does. -/
theorem mapM_eq_ok {ε : Type*} {α β : Type u} {f : α → Except ε β} {l : List α} {ys : List β} :
    l.mapM f = .ok ys ↔ List.Forall₂ (fun x y => f x = .ok y) l ys := by
  induction l generalizing ys with
  | nil => simp [pure, Except.pure, eq_comm]
  | cons x l ih =>
    rw [List.mapM_cons, bind_eq_ok, List.forall₂_cons_left_iff]
    constructor
    · rintro ⟨y, hy, h⟩
      obtain ⟨zs, hzs, h⟩ := bind_eq_ok.mp h
      exact ⟨y, zs, hy, ih.mp hzs, (Except.ok.inj h).symm⟩
    · rintro ⟨y, zs, hy, hzs, rfl⟩
      exact ⟨y, hy, bind_eq_ok.mpr ⟨zs, ih.mpr hzs, rfl⟩⟩

/-- A comprehension over items that all return. -/
theorem exists_mapM_eq_ok {ε : Type*} {α β : Type u} {f : α → Except ε β} {l : List α}
    (h : ∀ x ∈ l, ∃ y, f x = .ok y) : ∃ ys, l.mapM f = .ok ys := by
  simp only [mapM_eq_ok]
  induction l with
  | nil => exact ⟨[], .nil⟩
  | cons x l ih =>
    rw [List.forall_mem_cons] at h
    obtain ⟨y, hy⟩ := h.1
    obtain ⟨ys, hys⟩ := ih h.2
    exact ⟨y :: ys, .cons hy hys⟩

/-- A loop returns when its body does on every item. -/
theorem forM_eq_ok {ε α : Type} {f : α → Except ε Unit} {l : List α} :
    l.forM f = .ok () ↔ ∀ x ∈ l, f x = .ok () := by
  induction l with
  | nil => simp [pure, Except.pure]
  | cons x l ih =>
    rw [List.forall_mem_cons, ← ih]
    exact seq_eq_ok

theorem exists_left_of_mem {α β : Type*} {R : α → β → Prop} {l : List α} {ys : List β}
    (h : List.Forall₂ R l ys) {y : β} (hy : y ∈ ys) : ∃ x ∈ l, R x y := by
  induction h with
  | nil => simp at hy
  | cons hxy _ ih =>
    rcases List.mem_cons.mp hy with rfl | hy
    · exact ⟨_, by simp, hxy⟩
    · obtain ⟨x, hx, hR⟩ := ih hy
      exact ⟨x, List.mem_cons_of_mem _ hx, hR⟩

theorem exists_right_of_mem {α β : Type*} {R : α → β → Prop} {l : List α} {ys : List β}
    (h : List.Forall₂ R l ys) {x : α} (hx : x ∈ l) : ∃ y ∈ ys, R x y :=
  exists_left_of_mem h.flip hx

/-- The characters `str.strip` removes. -/
def isSpace (c : Char) : Bool :=
  c.toNat ∈ [0x20, 0x85, 0xa0, 0x1680, 0x2028, 0x2029, 0x202f, 0x205f, 0x3000] ||
    (0x09 ≤ c.toNat && c.toNat ≤ 0x0d) || (0x1c ≤ c.toNat && c.toNat ≤ 0x1f) ||
    (0x2000 ≤ c.toNat && c.toNat ≤ 0x200a)

/-- `not value.strip()`. -/
def isBlank (value : String) : Bool :=
  value.toList.all isSpace

/-- `float(n)` raises for an integer that rounds past the largest finite float. -/
def floatOverflows (n : ℤ) : Bool :=
  2 ^ 1024 - 2 ^ 970 ≤ n.natAbs

/-- The numbers in `[0.0, 1.0]`. -/
def inUnitInterval (n : Number) : Bool :=
  (Number.float 0).le n && n.le (.float 1)

/-- `if not 0.0 <= float(n) <= 1.0: raise DomainValidationError(message)`. -/
def ensureUnitInterval (n : Number) (message : String) : Except PyError Unit :=
  match n with
  | .int m =>
    if floatOverflows m then .error .overflowError else ensure (inUnitInterval n) message
  | _ => ensure (inUnitInterval n) message

/-- `value[key]` on a JSON value. -/
def getItem (value : Json) (key : String) : Except PyError Json :=
  match value with
  | .obj entries =>
    match entries.lookup key with
    | some item => .ok item
    | none => .error .keyError
  | _ => .error .typeError

/-- `value.get(key)` on a dictionary: `None` when absent. -/
def getD (entries : List (String × Json)) (key : String) : Json :=
  (entries.lookup key).getD .null

theorem getD_canonicalEntries {entries : List (String × Json)} (h : (Dict.keys entries).Nodup)
    (k : String) : getD (Json.canonicalEntries entries) k = (getD entries k).canonical := by
  rw [getD, getD, Json.lookup_canonicalEntries h]
  cases entries.lookup k with
  | some value => rfl
  | none => simp [Json.canonical]

theorem allNumbersItems_iff {p : Number → Bool} {items : List Json} :
    Json.allNumbersItems p items = true ↔ ∀ j ∈ items, j.allNumbers p = true := by
  induction items with
  | nil => simp [Json.allNumbersItems]
  | cons j items ih => rw [Json.allNumbersItems, Bool.and_eq_true, ih, List.forall_mem_cons]

theorem allNumbersEntries_iff {p : Number → Bool} {entries : List (String × Json)} :
    Json.allNumbersEntries p entries = true ↔ ∀ e ∈ entries, e.2.allNumbers p = true := by
  induction entries with
  | nil => simp [Json.allNumbersEntries]
  | cons e entries ih =>
    rw [Json.allNumbersEntries, Bool.and_eq_true, ih, List.forall_mem_cons]

/-- `json.dumps` refuses numbers that are not finite, and integers that are too long. -/
theorem isDumpable_iff {j : Json} :
    j.isDumpable = true ↔ j.allFinite = true ∧ j.allNumbers Number.isPrintable = true := by
  induction j using Json.induction with
  | null | bool | str => simp [Json.allNumbers]
  | num n => simp [Json.allNumbers, Number.isDumpable]
  | arr items ih =>
    simp only [Json.isDumpable, Json.allFinite, Json.allNumbers, allNumbersItems_iff] at ih ⊢
    exact (forall₂_congr ih).trans forall₂_and
  | obj entries ih =>
    simp only [Json.isDumpable, Json.allFinite, Json.allNumbers, allNumbersEntries_iff] at ih ⊢
    exact (forall₂_congr ih).trans forall₂_and

theorem allNumbers_strings (p : Number → Bool) (names : List String) :
    (Json.arr (names.map .str)).allNumbers p = true := by
  rw [Json.allNumbers, allNumbersItems_iff, List.forall_mem_map]
  exact fun name _ => by simp [Json.allNumbers]

/-- Whether a value is the string `s`. -/
def isStr (value : Json) (s : String) : Bool :=
  match value with
  | .str t => t == s
  | _ => false

/-- Whether a value is a string that is not blank. -/
def isNonblankStr (value : Json) : Bool :=
  match value with
  | .str s => !isBlank s
  | _ => false

/-- `set(entries) == set(expected)`. -/
def hasExactly (entries : List (String × Json)) (expected : List String) : Bool :=
  (Dict.keys entries).all (· ∈ expected) && expected.all (· ∈ Dict.keys entries)

end TgCurator
