import Mathlib.Order.Lattice
import Mathlib.Data.List.Induction

/-!
# The newest element of a list

A register that keeps, of the values it is given one after another, the one of highest
rank, a later value winning a tie. `newest` is the register after a list of values, and
`merge` one assignment to it.

The register holds a value of the list that no value outranks (`newest_mem`,
`rank_le_newest`). Of more values only the newest matters (`newest_append`), and when a
rank determines the value, the register does not depend on the order of the list or on
repetitions (`newest_congr`).
-/

universe u v

namespace Newest

variable {α : Type u} {β : Type v} [LinearOrder β] (rank : α → β)

/-- The register after it is given `new`. -/
def merge (old : Option α) (new : α) : Option α :=
  match old with
  | none => some new
  | some o => if rank o ≤ rank new then some new else some o

/-- The register after a list of values. -/
def newest (l : List α) : Option α :=
  l.foldl (merge rank) none

variable {rank}

@[simp] theorem merge_none (a : α) : merge rank none a = some a :=
  rfl

theorem merge_of_le {o a : α} (h : rank o ≤ rank a) : merge rank (some o) a = some a :=
  if_pos h

theorem merge_of_lt {o a : α} (h : rank a < rank o) : merge rank (some o) a = some o :=
  if_neg (not_le.mpr h)

@[simp] theorem newest_nil : newest rank [] = none :=
  rfl

@[simp] theorem newest_concat (l : List α) (a : α) :
    newest rank (l ++ [a]) = merge rank (newest rank l) a := by
  simp [newest]

/-- The register holds one of the values, and no value outranks it. -/
theorem newest_spec (rank : α → β) (l : List α) :
    (newest rank l = none ∧ l = []) ∨
      ∃ a, newest rank l = some a ∧ a ∈ l ∧ ∀ b ∈ l, rank b ≤ rank a := by
  induction l using List.reverseRecOn with
  | nil => exact .inl ⟨rfl, rfl⟩
  | append_singleton l a ih =>
    refine .inr ?_
    rw [newest_concat]
    rcases ih with ⟨hnone, rfl⟩ | ⟨o, hsome, hmem, hmax⟩
    · exact ⟨a, by rw [hnone, merge_none], by simp, by simp⟩
    rw [hsome]
    rcases le_or_gt (rank o) (rank a) with hle | hlt
    · refine ⟨a, merge_of_le hle, by simp, fun b hb => ?_⟩
      rcases List.mem_append.mp hb with hb | hb
      · exact (hmax b hb).trans hle
      · rw [List.mem_singleton.mp hb]
    · refine ⟨o, merge_of_lt hlt, by simp [hmem], fun b hb => ?_⟩
      rcases List.mem_append.mp hb with hb | hb
      · exact hmax b hb
      · rw [List.mem_singleton.mp hb]
        exact hlt.le

/-- The register after more values is decided by the newest of them. -/
theorem newest_append (l l' : List α) :
    newest rank (l ++ l') = (newest rank l').elim (newest rank l) (merge rank (newest rank l)) := by
  induction l' using List.reverseRecOn with
  | nil => simp
  | append_singleton l' a ih =>
    rw [← List.append_assoc, newest_concat, newest_concat, ih]
    cases newest rank l' with
    | none => rfl
    | some b =>
      cases newest rank l with
      | none => rcases le_or_gt (rank b) (rank a) with hba | hba <;> simp [merge_of_le, merge_of_lt, hba]
      | some o =>
        rw [Option.elim_some]
        -- the three comparisons of `o`, `b` and `a`
        rcases le_or_gt (rank o) (rank b) with hob | hob <;>
          rcases le_or_gt (rank b) (rank a) with hba | hba
        · rw [merge_of_le hob, merge_of_le hba, Option.elim_some, merge_of_le (hob.trans hba)]
        · rw [merge_of_le hob, merge_of_lt hba, Option.elim_some, merge_of_le hob]
        · rw [merge_of_lt hob, merge_of_le hba, Option.elim_some]
        · rw [merge_of_lt hob, merge_of_lt hba, Option.elim_some, merge_of_lt hob,
            merge_of_lt (hba.trans hob)]

theorem newest_mem {l : List α} {a : α} (h : newest rank l = some a) : a ∈ l := by
  rcases newest_spec rank l with ⟨hnone, -⟩ | ⟨b, hsome, hmem, -⟩
  · simp [hnone] at h
  · obtain rfl : b = a := by simpa [hsome] using h
    exact hmem

theorem rank_le_newest {l : List α} {a b : α} (h : newest rank l = some a) (hb : b ∈ l) :
    rank b ≤ rank a := by
  rcases newest_spec rank l with ⟨hnone, -⟩ | ⟨c, hsome, -, hmax⟩
  · simp [hnone] at h
  · obtain rfl : c = a := by simpa [hsome] using h
    exact hmax b hb

@[simp] theorem newest_eq_none {l : List α} : newest rank l = none ↔ l = [] := by
  rcases newest_spec rank l with ⟨hnone, hnil⟩ | ⟨a, hsome, hmem, -⟩
  · simp [hnil]
  · simp [hsome, List.ne_nil_of_mem hmem]

/-- Where a rank determines the value, the register depends only on which values the
list has. -/
theorem newest_congr {l l' : List α} (hinj : ∀ a ∈ l, ∀ b ∈ l, rank a = rank b → a = b)
    (h : ∀ a, a ∈ l ↔ a ∈ l') : newest rank l = newest rank l' := by
  cases hl : newest rank l with
  | none =>
    have hnil := newest_eq_none.mp hl
    subst hnil
    exact (newest_eq_none.mpr (List.eq_nil_iff_forall_not_mem.mpr fun a ha =>
      List.not_mem_nil ((h a).mpr ha))).symm
  | some a =>
    cases hl' : newest rank l' with
    | none =>
      have hmem := (h a).mp (newest_mem hl)
      rw [newest_eq_none.mp hl'] at hmem
      exact absurd hmem List.not_mem_nil
    | some b =>
      have ha := newest_mem hl
      have hb := (h b).mpr (newest_mem hl')
      have hab := rank_le_newest hl' ((h a).mp ha)
      have hba := rank_le_newest hl hb
      rw [hinj a ha b hb (le_antisymm hab hba)]

end Newest
