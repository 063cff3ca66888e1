import Mathlib.Data.Finset.Insert
import Mathlib.Logic.Relation

/-!
# Paths that visit no node twice

A traversal that carries the nodes of its current path and stops at one it has seen follows the
paths `Fresh` describes. What such paths reach from nothing seen is what all paths reach
(`fresh_iff`): a path that comes back to a node is cut short there (`Fresh.insert_or`).
-/

namespace FreshPath

open Relation

variable {V : Type*} [DecidableEq V] {r : V → V → Prop} {seen seen' : Finset V} {a b c : V}

/-- A path from one node to another that visits no node of a set and none twice. -/
inductive Fresh (r : V → V → Prop) : Finset V → V → V → Prop
  | refl {seen : Finset V} {a : V} (ha : a ∉ seen) : Fresh r seen a a
  | step {seen : Finset V} {a b c : V} (ha : a ∉ seen) (hr : r a b)
      (h : Fresh r (insert a seen) b c) : Fresh r seen a c

theorem Fresh.notMem_left (h : Fresh r seen a b) : a ∉ seen := by
  cases h with
  | refl ha => exact ha
  | step ha => exact ha

theorem Fresh.notMem_right (h : Fresh r seen a b) : b ∉ seen := by
  induction h with
  | refl ha => exact ha
  | step _ _ _ ih => exact fun hb => ih (Finset.mem_insert_of_mem hb)

/-- A path that avoids more avoids less. -/
theorem Fresh.anti (h : Fresh r seen a b) (hseen : seen' ⊆ seen) : Fresh r seen' a b := by
  induction h generalizing seen' with
  | refl ha => exact .refl fun h => ha (hseen h)
  | step ha hr _ ih =>
    exact .step (fun h => ha (hseen h)) hr (ih (Finset.insert_subset_insert _ hseen))

/-- A path visits a node, and then it can start there, or avoids it. -/
theorem Fresh.insert_or (h : Fresh r seen b c) (a : V) :
    Fresh r (insert a seen) b c ∨ Fresh r seen a c := by
  induction h with
  | @refl seen b hb =>
    by_cases hab : b = a
    · exact .inr (hab ▸ .refl hb)
    · exact .inl (.refl (by simp [hab, hb]))
  | @step seen b d c hb hr h ih =>
    by_cases hab : b = a
    · exact .inr (hab ▸ .step hb hr h)
    · rcases ih with ih | ih
      · rw [Finset.insert_comm] at ih
        exact .inl (.step (by simp [hab, hb]) hr ih)
      · exact .inr (ih.anti (Finset.subset_insert _ _))

theorem Fresh.reaches (h : Fresh r seen a b) : ReflTransGen r a b := by
  induction h with
  | refl => exact .refl
  | step _ hr _ ih => exact .head hr ih

/-- From nothing seen, paths that visit no node twice reach what all paths do. -/
theorem fresh_iff : Fresh r ∅ a b ↔ ReflTransGen r a b := by
  refine ⟨Fresh.reaches, fun h => ?_⟩
  induction h using ReflTransGen.head_induction_on with
  | refl => exact .refl (Finset.notMem_empty _)
  | head hr _ ih =>
    rcases ih.insert_or _ with h | h
    · exact .step (Finset.notMem_empty _) hr h
    · exact h

end FreshPath
