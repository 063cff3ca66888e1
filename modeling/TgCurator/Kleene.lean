import Mathlib.Data.List.Perm.Basic

/-!
# Strong Kleene logic

A truth value is `some b` when it is known and `none` when it is not. Negation leaves
an unknown value unknown, a conjunction is false as soon as one side is, and a
disjunction is true as soon as one side is (Kleene's strong tables). `all` and `any`
are the connectives over lists.

`neg` is an involution that exchanges `all` and `any` (`neg_all`, `neg_any`), the list
connectives depend on the members only (`all_perm`, `any_perm`), and an evaluator that
walks a list from the left, stops at the first decisive value and remembers whether it
met an unknown one computes them (`settleAll_conj`, `settleAny_disj`). The connectives
are monotone in what is known (`Knows.all`, `Knows.any`).
-/

/-- A truth value: `none` is unknown. -/
abbrev Kleene := Option Bool

namespace Kleene

/-! ## The connectives -/

/-- Negation. -/
def neg : Kleene → Kleene
  | some b => some (!b)
  | none => none

/-- Conjunction. -/
def conj : Kleene → Kleene → Kleene
  | some false, _ => some false
  | some true, b => b
  | none, some false => some false
  | none, _ => none

/-- Disjunction. -/
def disj : Kleene → Kleene → Kleene
  | some true, _ => some true
  | some false, b => b
  | none, some true => some true
  | none, _ => none

/-- Conjunction of a list. -/
def all (l : List Kleene) : Kleene :=
  l.foldr conj (some true)

/-- Disjunction of a list. -/
def any (l : List Kleene) : Kleene :=
  l.foldr disj (some false)

@[simp] theorem neg_some (b : Bool) : neg (some b) = some (!b) :=
  rfl

@[simp] theorem neg_none : neg none = none :=
  rfl

@[simp] theorem neg_neg (a : Kleene) : neg (neg a) = a := by
  rcases a with - | - | - <;> rfl

theorem neg_eq_some_iff {a : Kleene} {b : Bool} : neg a = some b ↔ a = some (!b) := by
  rcases a with - | - | - <;> cases b <;> simp

@[simp] theorem conj_true (a : Kleene) : conj (some true) a = a :=
  rfl

@[simp] theorem conj_false (a : Kleene) : conj (some false) a = some false :=
  rfl

@[simp] theorem disj_true (a : Kleene) : disj (some true) a = some true :=
  rfl

@[simp] theorem disj_false (a : Kleene) : disj (some false) a = a :=
  rfl

/-- De Morgan's law for two values. -/
theorem neg_conj (a b : Kleene) : neg (conj a b) = disj (neg a) (neg b) := by
  rcases a with - | - | - <;> rcases b with - | - | - <;> rfl

/-- De Morgan's law for two values, the other way. -/
theorem neg_disj (a b : Kleene) : neg (disj a b) = conj (neg a) (neg b) := by
  rcases a with - | - | - <;> rcases b with - | - | - <;> rfl

theorem conj_left_comm (a b c : Kleene) : conj a (conj b c) = conj b (conj a c) := by
  rcases a with - | - | - <;> rcases b with - | - | - <;> rcases c with - | - | - <;> rfl

theorem disj_left_comm (a b c : Kleene) : disj a (disj b c) = disj b (disj a c) := by
  rcases a with - | - | - <;> rcases b with - | - | - <;> rcases c with - | - | - <;> rfl

instance : LeftCommutative conj := ⟨conj_left_comm⟩

instance : LeftCommutative disj := ⟨disj_left_comm⟩

/-! ## Lists -/

@[simp] theorem all_nil : all [] = some true :=
  rfl

@[simp] theorem all_cons (a : Kleene) (l : List Kleene) : all (a :: l) = conj a (all l) :=
  rfl

@[simp] theorem any_nil : any [] = some false :=
  rfl

@[simp] theorem any_cons (a : Kleene) (l : List Kleene) : any (a :: l) = disj a (any l) :=
  rfl

/-- De Morgan's law for a list. -/
theorem neg_all (l : List Kleene) : neg (all l) = any (l.map neg) := by
  induction l with
  | nil => rfl
  | cons a l ih => rw [all_cons, neg_conj, ih, List.map_cons, any_cons]

/-- De Morgan's law for a list, the other way. -/
theorem neg_any (l : List Kleene) : neg (any l) = all (l.map neg) := by
  induction l with
  | nil => rfl
  | cons a l ih => rw [any_cons, neg_disj, ih, List.map_cons, all_cons]

/-- A conjunction does not depend on the order of its members. -/
theorem all_perm {l l' : List Kleene} (h : l.Perm l') : all l = all l' :=
  h.foldr_eq _

/-- A disjunction does not depend on the order of its members. -/
theorem any_perm {l l' : List Kleene} (h : l.Perm l') : any l = any l' :=
  h.foldr_eq _

theorem any_eq_true_iff {l : List Kleene} : any l = some true ↔ some true ∈ l := by
  induction l with
  | nil => simp
  | cons a l ih =>
    rw [any_cons, List.mem_cons, ← ih]
    rcases a with - | - | -
    · generalize any l = b
      rcases b with - | - | - <;> simp [disj]
    · simp
    · simp

theorem any_eq_false_iff {l : List Kleene} : any l = some false ↔ ∀ a ∈ l, a = some false := by
  induction l with
  | nil => simp
  | cons a l ih =>
    rw [any_cons, List.forall_mem_cons, ← ih]
    rcases a with - | - | -
    · generalize any l = b
      rcases b with - | - | - <;> simp [disj]
    · simp
    · simp

/-! ## Knowing more -/

/-- Whatever `a` knows, `b` knows. -/
def Knows (a b : Kleene) : Prop :=
  ∀ v, a = some v → b = some v

theorem Knows.refl (a : Kleene) : Knows a a :=
  fun _ h => h

theorem Knows.neg {a b : Kleene} (h : Knows a b) : Knows (neg a) (neg b) :=
  fun _ hv => neg_eq_some_iff.mpr (h _ (neg_eq_some_iff.mp hv))

theorem Knows.conj {a a' b b' : Kleene} (h : Knows a a') (h' : Knows b b') :
    Knows (conj a b) (conj a' b') := by
  intro v hv
  rcases a with - | - | -
  · -- a conjunction with an unknown side is known when the other is false
    rcases b with - | - | -
    · cases hv
    · rw [h' false rfl, ← hv]
      rcases a' with - | - | - <;> rfl
    · cases hv
  · rw [h false rfl, ← hv]
    rfl
  · rw [h true rfl]
    exact h' v hv

theorem Knows.disj {a a' b b' : Kleene} (h : Knows a a') (h' : Knows b b') :
    Knows (disj a b) (disj a' b') := by
  have hdual := (h.neg.conj h'.neg).neg
  rwa [← neg_disj, ← neg_disj, neg_neg, neg_neg] at hdual

/-- A conjunction of more known members is more known. -/
theorem Knows.all {l l' : List Kleene} (h : List.Forall₂ Knows l l') : Knows (all l) (all l') := by
  induction h with
  | nil => exact .refl _
  | cons hab _ ih => exact hab.conj ih

/-- A disjunction of more known members is more known. -/
theorem Knows.any {l l' : List Kleene} (h : List.Forall₂ Knows l l') : Knows (any l) (any l') := by
  induction h with
  | nil => exact .refl _
  | cons hab _ ih => exact hab.disj ih

/-! ## A loop with a flag -/

/-- What a left-to-right loop over a conjunction yields from the flag it carries (an
unknown value was met) and the conjunction of the values still to come. -/
def settleAll (sawUnknown : Bool) (rest : Kleene) : Kleene :=
  conj (if sawUnknown then none else some true) rest

/-- The same for a disjunction. -/
def settleAny (sawUnknown : Bool) (rest : Kleene) : Kleene :=
  disj (if sawUnknown then none else some false) rest

@[simp] theorem settleAll_false (rest : Kleene) : settleAll false rest = rest :=
  rfl

@[simp] theorem settleAny_false (rest : Kleene) : settleAny false rest = rest :=
  rfl

/-- One turn of the loop: a false value ends it, any other value updates the flag. -/
theorem settleAll_conj (sawUnknown : Bool) (a rest : Kleene) :
    settleAll sawUnknown (conj a rest) =
      if a = some false then some false else settleAll (sawUnknown || a.isNone) rest := by
  rcases a with - | - | - <;> cases sawUnknown <;> rcases rest with - | - | - <;> rfl

/-- One turn of the loop: a true value ends it, any other value updates the flag. -/
theorem settleAny_disj (sawUnknown : Bool) (a rest : Kleene) :
    settleAny sawUnknown (disj a rest) =
      if a = some true then some true else settleAny (sawUnknown || a.isNone) rest := by
  rcases a with - | - | - <;> cases sawUnknown <;> rcases rest with - | - | - <;> rfl

/-- When nothing is left the flag decides. -/
theorem settleAll_nil (sawUnknown : Bool) :
    settleAll sawUnknown (all []) = if sawUnknown then none else some true := by
  cases sawUnknown <;> rfl

/-- When nothing is left the flag decides. -/
theorem settleAny_nil (sawUnknown : Bool) :
    settleAny sawUnknown (any []) = if sawUnknown then none else some false := by
  cases sawUnknown <;> rfl

end Kleene
