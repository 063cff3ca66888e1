import Mathlib.Data.List.Basic
import Mathlib.Logic.Relation

/-!
# Search with a worklist

A search pops an element off a stack of pending ones, skips it if it was found before, and
otherwise pushes its successors. `next` gives the successors, and fails on elements it
does not know. What a finished search has found is what the start elements reach
(`mem_search`), and it finishes when the fuel covers the start elements and all edges
(`isSome_search`).
-/

namespace Worklist

variable {α : Type*} [DecidableEq α] {next : α → Option (List α)}

/-- The search, from the pending and the found elements. -/
def search (next : α → Option (List α)) : ℕ → List α → List α → Option (List α)
  | _, [], found => some found
  | 0, _ :: _, _ => none
  | fuel + 1, a :: pending, found =>
    if a ∈ found then search next fuel pending found
    else (next a).bind fun successors =>
      search next fuel (successors.reverse ++ pending) (a :: found)

/-- `b` is a successor of `a`. -/
def Step (next : α → Option (List α)) (a b : α) : Prop :=
  ∃ successors, next a = some successors ∧ b ∈ successors

/-- Every successor of a found element is found or pending. -/
def Closed (next : α → Option (List α)) (pending found : List α) : Prop :=
  ∀ a ∈ found, ∀ b, Step next a b → b ∈ found ∨ b ∈ pending

/-! ## What is found -/

omit [DecidableEq α] in
theorem Closed.reaches {pending found : List α} (h : Closed next pending found) {a b : α}
    (ha : a ∈ found) (hab : Relation.ReflTransGen (Step next) a b) :
    b ∈ found ∨ ∃ c ∈ pending, Relation.ReflTransGen (Step next) c b := by
  induction hab using Relation.ReflTransGen.head_induction_on with
  | refl => exact .inl ha
  | @head a c hac hcb ih =>
    rcases h a ha c hac with hc | hc
    · exact ih hc
    · exact .inr ⟨c, hc, hcb⟩

theorem mem_search_of_closed : ∀ {fuel : ℕ} {pending found result : List α},
    search next fuel pending found = some result → Closed next pending found →
      ∀ b, b ∈ result ↔ b ∈ found ∨ ∃ a ∈ pending, Relation.ReflTransGen (Step next) a b
  | _, [], found, result, h, _, b => by
    obtain rfl : found = result := by simpa [search] using h
    simp
  | 0, _ :: _, _, _, h, _, _ => by simp [search] at h
  | fuel + 1, a :: pending, found, result, h, hclosed, b => by
    rw [search] at h
    split_ifs at h with ha
    · have hrest : Closed next pending found := fun c hc d hcd => by
        rcases hclosed c hc d hcd with hd | hd
        · exact .inl hd
        · rcases List.mem_cons.mp hd with rfl | hd
          · exact .inl ha
          · exact .inr hd
      rw [mem_search_of_closed h hrest b, List.exists_mem_cons_iff]
      have hdown : Relation.ReflTransGen (Step next) a b →
          b ∈ found ∨ ∃ c ∈ pending, Relation.ReflTransGen (Step next) c b := hrest.reaches ha
      tauto
    · obtain ⟨successors, hnext, h⟩ := Option.bind_eq_some_iff.mp h
      have hstep : ∀ c, Step next a c ↔ c ∈ successors := fun c => by simp [Step, hnext]
      have hrest : Closed next (successors.reverse ++ pending) (a :: found) := fun c hc d hcd => by
        rcases List.mem_cons.mp hc with rfl | hc
        · exact .inr (List.mem_append_left _ (List.mem_reverse.mpr ((hstep d).mp hcd)))
        · rcases hclosed c hc d hcd with hd | hd
          · exact .inl (List.mem_cons_of_mem _ hd)
          · rcases List.mem_cons.mp hd with rfl | hd
            · exact .inl (List.mem_cons_self ..)
            · exact .inr (List.mem_append_right _ hd)
      rw [mem_search_of_closed h hrest b, List.exists_mem_cons_iff,
        Relation.ReflTransGen.cases_head_iff (a := a)]
      simp only [hstep, List.mem_cons, List.mem_append, List.mem_reverse, or_and_right,
        exists_or, eq_comm (a := a)]
      rw [or_comm (a := b = a)]
      simp only [or_assoc]

/-- A finished search has found what the start elements reach. -/
theorem mem_search {fuel : ℕ} {start result : List α}
    (h : search next fuel start [] = some result) (b : α) :
    b ∈ result ↔ ∃ a ∈ start, Relation.ReflTransGen (Step next) a b := by
  rw [mem_search_of_closed h (by simp [Closed]) b]
  simp

/-! ## Fuel -/

/-- The number of edges that leave the elements not yet found. -/
def workload (next : α → Option (List α)) (found : List α) : List α → ℕ
  | [] => 0
  | a :: domain =>
    (if a ∈ found then 0 else ((next a).getD []).length) + workload next found domain

theorem workload_cons_le (next : α → Option (List α)) (a : α) (found domain : List α) :
    workload next (a :: found) domain ≤ workload next found domain := by
  induction domain with
  | nil => exact Nat.le_refl _
  | cons b domain ih =>
    simp only [workload, List.mem_cons]
    split_ifs <;> first | omega | simp_all

theorem workload_cons {a : α} {found domain successors : List α} (ha : a ∈ domain)
    (hfound : a ∉ found) (hnext : next a = some successors) :
    workload next (a :: found) domain + successors.length ≤ workload next found domain := by
  induction domain with
  | nil => cases ha
  | cons b domain ih =>
    by_cases hb : b = a
    · subst hb
      have hle := workload_cons_le next b found domain
      simp only [workload, List.mem_cons, true_or, if_true, if_neg hfound, hnext, Option.getD_some]
      omega
    · have hle := ih ((List.mem_cons.mp ha).resolve_left (Ne.symm hb))
      simp only [workload, List.mem_cons, hb, false_or]
      split_ifs <;> omega

/-- A search over a domain that `next` does not leave finishes. -/
theorem isSome_search_of_workload {domain : List α}
    (hdomain : ∀ a ∈ domain, ∃ successors, next a = some successors ∧ successors ⊆ domain) :
    ∀ {fuel : ℕ} {pending found : List α}, pending ⊆ domain →
      pending.length + workload next found domain ≤ fuel →
      (search next fuel pending found).isSome
  | _, [], _, _, _ => by simp [search]
  | 0, _ :: _, _, _, hfuel => by simp at hfuel
  | fuel + 1, a :: pending, found, hpending, hfuel => by
    obtain ⟨ha, hpending⟩ := List.cons_subset.mp hpending
    rw [List.length_cons] at hfuel
    rw [search]
    split_ifs with hfound
    · exact isSome_search_of_workload hdomain hpending (by omega)
    · obtain ⟨successors, hnext, hsub⟩ := hdomain a ha
      have hle := workload_cons ha hfound hnext
      rw [hnext, Option.bind_some]
      refine isSome_search_of_workload hdomain ?_ ?_
      · exact List.append_subset.mpr ⟨(List.reverse_subset.mpr hsub), hpending⟩
      · rw [List.length_append, List.length_reverse]
        omega

/-- Fuel for the start elements and every edge is enough. -/
theorem isSome_search {domain start : List α} {fuel : ℕ}
    (hdomain : ∀ a ∈ domain, ∃ successors, next a = some successors ∧ successors ⊆ domain)
    (hstart : start ⊆ domain) (hfuel : start.length + workload next [] domain ≤ fuel) :
    (search next fuel start []).isSome :=
  isSome_search_of_workload hdomain hstart hfuel

end Worklist
