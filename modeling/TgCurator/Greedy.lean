import Mathlib.Data.List.Basic

/-!
# Greedy selection

A scan over a list keeps an element when it is compatible with some fixed elements and with
everything kept before it, and ends when it has kept as many as it may.

What is kept is a sublist (`exists_scan_eq`), no longer than the limit (`length_scan_le`),
pairwise compatible (`pairwise_scan`), and maximal: unless the limit was reached, every
element left out is incompatible with a fixed or a kept one (`exists_incompatible`).
-/

namespace Greedy

variable {α : Type*} (compatible : α → α → Bool) (fixed : List α) (limit : ℕ)

/-- The scan, with what it has kept so far. -/
def scan (kept : List α) : List α → List α
  | [] => kept
  | a :: l =>
    if (fixed ++ kept).all (compatible a) then
      if (kept ++ [a]).length = limit then kept ++ [a] else scan (kept ++ [a]) l
    else scan kept l

/-- What the scan adds is a sublist. -/
theorem exists_scan_eq (l : List α) : ∀ kept : List α,
    ∃ added, scan compatible fixed limit kept l = kept ++ added ∧ added.Sublist l := by
  induction l with
  | nil => exact fun kept => ⟨[], (List.append_nil kept).symm, .slnil⟩
  | cons a l ih =>
    intro kept
    rw [scan]
    split_ifs with ha hlimit
    · exact ⟨[a], rfl, (List.nil_sublist l).cons_cons a⟩
    · obtain ⟨added, h, hsub⟩ := ih (kept ++ [a])
      exact ⟨a :: added, by rw [h, List.append_assoc, List.singleton_append], hsub.cons_cons a⟩
    · obtain ⟨added, h, hsub⟩ := ih kept
      exact ⟨added, h, hsub.cons a⟩

theorem length_scan_le (l : List α) : ∀ kept : List α, kept.length < limit →
    (scan compatible fixed limit kept l).length ≤ limit := by
  induction l with
  | nil => exact fun kept h => Nat.le_of_lt h
  | cons a l ih =>
    intro kept h
    rw [scan]
    split_ifs with ha hlimit
    · exact Nat.le_of_eq hlimit
    · refine ih _ ?_
      simp only [List.length_append, List.length_singleton] at hlimit ⊢
      omega
    · exact ih kept h

/-- The fixed and the kept elements are pairwise compatible. -/
theorem pairwise_scan (l : List α) : ∀ kept : List α,
    (fixed ++ kept).Pairwise (fun a b => compatible b a = true) →
    (fixed ++ scan compatible fixed limit kept l).Pairwise fun a b => compatible b a = true := by
  induction l with
  | nil => exact fun kept h => h
  | cons a l ih =>
    intro kept h
    have hadd : (fixed ++ kept).all (compatible a) = true →
        (fixed ++ (kept ++ [a])).Pairwise fun a b => compatible b a = true := by
      intro ha
      rw [← List.append_assoc]
      refine List.pairwise_append.mpr ⟨h, List.pairwise_singleton _ _, fun b hb c hc => ?_⟩
      obtain rfl := List.mem_singleton.mp hc
      exact List.all_eq_true.mp ha b hb
    rw [scan]
    split_ifs with ha hlimit
    · exact hadd ha
    · exact ih _ (hadd ha)
    · exact ih kept h

/-- Short of the limit, an element left out has an incompatible one among the fixed and
the kept. -/
theorem exists_incompatible (l : List α) : ∀ kept : List α,
    (scan compatible fixed limit kept l).length < limit →
    ∀ a ∈ l, a ∉ scan compatible fixed limit kept l →
      ∃ b ∈ fixed ++ scan compatible fixed limit kept l, compatible a b = false := by
  induction l with
  | nil => exact fun kept _ a ha => absurd ha List.not_mem_nil
  | cons c l ih =>
    intro kept
    rw [scan]
    split_ifs with hc hlimit
    · exact fun h => absurd hlimit (Nat.ne_of_lt h)
    · intro h a ha hout
      rcases List.mem_cons.mp ha with rfl | ha
      · obtain ⟨added, heq, -⟩ := exists_scan_eq compatible fixed limit l (kept ++ [a])
        exact absurd (by rw [heq]; simp) hout
      · exact ih _ h a ha hout
    · intro h a ha hout
      rcases List.mem_cons.mp ha with rfl | ha
      · obtain ⟨added, heq, -⟩ := exists_scan_eq compatible fixed limit l kept
        obtain ⟨b, hb, hab⟩ := List.all_eq_false.mp (Bool.eq_false_iff.mpr hc)
        refine ⟨b, ?_, Bool.eq_false_iff.mpr hab⟩
        rw [heq, ← List.append_assoc]
        exact List.mem_append_left _ hb
      · exact ih _ h a ha hout

end Greedy
