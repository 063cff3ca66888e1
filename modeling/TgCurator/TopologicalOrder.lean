import Mathlib.Data.Finite.Prod
import Mathlib.Data.List.Lex
import Mathlib.Data.List.Nodup
import Mathlib.Data.List.Perm.Basic
import Mathlib.Data.Set.Finite.Basic
import Mathlib.Logic.Relation
import Mathlib.Order.WellFounded

/-!
# Least topological orders

A graph on the elements of a list, given by the dependencies of each. An element is
available after a list of others when it is not among them but its dependencies are, and a
greedy listing takes the least available element at each step (`Greedy`).

A greedy listing that nothing is available after lists every element exactly when the graph
has no cycle (`Greedy.complete_iff`). It is then a topological order, and the least one
(`Greedy.le_of_isOrder`). There is at most one such listing (`Greedy.eq`), whatever the order
in which the elements are given.
-/

universe u

namespace TopologicalOrder

variable {α : Type u} (deps : α → List α) (nodes : List α)

/-- The dependencies of the elements of the graph. -/
def Edge (a b : α) : Prop :=
  a ∈ nodes ∧ b ∈ deps a

/-- No element depends on itself, directly or through others. -/
def Acyclic : Prop :=
  ∀ a, ¬ Relation.TransGen (Edge deps nodes) a a

/-- An element that can come next. -/
structure Available (done : List α) (a : α) : Prop where
  mem : a ∈ nodes
  notMem : a ∉ done
  ready : ∀ b ∈ deps a, b ∈ done

/-- Each element comes after its dependencies. -/
def Respects (l : List α) : Prop :=
  ∀ before a after, l = before ++ a :: after → ∀ b ∈ deps a, b ∈ before

/-- A listing of the graph in which each element comes after its dependencies. -/
structure IsOrder (l : List α) : Prop where
  perm : l.Perm nodes
  respects : Respects deps l

/-- A listing that takes the least available element at each step. -/
inductive Greedy [LE α] : List α → Prop
  | nil : Greedy []
  | snoc {l : List α} {a : α} (h : Greedy l) (ha : Available deps nodes l a)
    (hleast : ∀ b, Available deps nodes l b → a ≤ b) : Greedy (l ++ [a])

variable {deps nodes}

/-- Adding an element after its dependencies. -/
theorem Respects.snoc {l : List α} {a : α} (h : Respects deps l) (ha : ∀ b ∈ deps a, b ∈ l) :
    Respects deps (l ++ [a]) := by
  intro before c after hsplit b hb
  rcases List.eq_nil_or_concat after with rfl | ⟨after', z, rfl⟩
  · obtain ⟨rfl, hc⟩ := List.append_inj' hsplit rfl
    obtain rfl : a = c := by simpa using hc
    exact ha b hb
  · have hsplit' : l ++ [a] = (before ++ c :: after') ++ [z] := by simpa using hsplit
    exact h before c after' (List.append_inj' hsplit' rfl).1 b hb

/-- In an order that respects the dependencies there is no cycle. -/
theorem acyclic_of_respects {l : List α} (hl : Respects deps l) (hnodup : l.Nodup)
    (hmem : ∀ a ∈ nodes, a ∈ l) : Acyclic deps nodes := by
  -- along a path, the element comes earlier and earlier
  have hpath : ∀ {a b}, Relation.TransGen (Edge deps nodes) a b →
      ∀ before after, l = before ++ a :: after → b ∈ before := by
    intro a b h
    induction h using Relation.TransGen.head_induction_on with
    | single hab =>
      intro before after hsplit
      exact hl before _ after hsplit _ hab.2
    | @head a c hac _ ih =>
      intro before after hsplit
      have hc := hl before _ after hsplit _ hac.2
      obtain ⟨before', after', rfl⟩ := List.append_of_mem hc
      have := ih before' (after' ++ a :: after) (by simp [hsplit])
      exact List.mem_append_left _ this
  intro a ha
  have hnode : a ∈ nodes := by
    rcases Relation.TransGen.head'_iff.mp ha with ⟨c, hac, -⟩
    exact hac.1
  obtain ⟨before, after, hsplit⟩ := List.append_of_mem (hmem a hnode)
  have hbefore := hpath ha before after hsplit
  rw [hsplit, List.nodup_append] at hnodup
  exact hnodup.2.2 a hbefore a (List.mem_cons_self ..) rfl

/-- Without a cycle something is available until everything is listed. -/
theorem exists_available (hacyclic : Acyclic deps nodes)
    (hdeps : ∀ a ∈ nodes, ∀ b ∈ deps a, b ∈ nodes) {l : List α} {a : α} (ha : a ∈ nodes)
    (hal : a ∉ l) : ∃ b, Available deps nodes l b := by
  classical
  -- a rest element below which no rest element is left
  let r : { a // a ∈ nodes } → { a // a ∈ nodes } → Prop := fun b a =>
    Relation.TransGen (Edge deps nodes) a.1 b.1
  have htrans : IsTrans _ r := ⟨fun _ _ _ hab hbc => hbc.trans hab⟩
  have hirrefl : Std.Irrefl r := ⟨fun a h => hacyclic a.1 h⟩
  have hfinite : Finite { a // a ∈ nodes } := (List.finite_toSet nodes).to_subtype
  have hwf := Finite.wellFounded_of_trans_of_irrefl r
  obtain ⟨b, hb, hmin⟩ := hwf.has_min { b | b.1 ∉ l } ⟨⟨a, ha⟩, hal⟩
  refine ⟨b.1, b.2, hb, fun c hc => ?_⟩
  by_contra hcl
  exact hmin ⟨c, hdeps b.1 b.2 c hc⟩ hcl (.single ⟨b.2, hc⟩)

namespace Greedy

section

variable [LE α] {l : List α}

theorem mem_nodes (h : Greedy deps nodes l) : ∀ a ∈ l, a ∈ nodes := by
  induction h with
  | nil => simp
  | snoc _ ha _ ih =>
    intro b hb
    rcases List.mem_append.mp hb with hb | hb
    · exact ih b hb
    · exact List.mem_singleton.mp hb ▸ ha.mem

theorem nodup (h : Greedy deps nodes l) : l.Nodup := by
  induction h with
  | nil => exact List.nodup_nil
  | snoc _ ha _ ih => exact List.Nodup.append ih (List.nodup_singleton _) (by simpa using ha.notMem)

theorem respects (h : Greedy deps nodes l) : Respects deps l := by
  induction h with
  | nil =>
    intro before a after hsplit
    simp at hsplit
  | snoc _ ha _ ih => exact ih.snoc ha.ready

theorem length_lt (h : Greedy deps nodes l) {a : α} (ha : Available deps nodes l a) :
    l.length < nodes.length := by
  have hnodup : (a :: l).Nodup := List.nodup_cons.mpr ⟨ha.notMem, h.nodup⟩
  have hsub : ∀ b ∈ a :: l, b ∈ nodes := List.forall_mem_cons.mpr ⟨ha.mem, h.mem_nodes⟩
  exact (List.subperm_of_subset hnodup hsub).length_le

/-- A listing that nothing is available after lists everything exactly when there is no
cycle. -/
theorem complete_iff (h : Greedy deps nodes l) (hnodes : nodes.Nodup)
    (hdeps : ∀ a ∈ nodes, ∀ b ∈ deps a, b ∈ nodes)
    (hdone : ∀ a, ¬ Available deps nodes l a) :
    l.length = nodes.length ↔ Acyclic deps nodes := by
  constructor
  · intro hlength
    have hperm := (List.subperm_of_subset h.nodup h.mem_nodes).perm_of_length_le hlength.ge
    exact acyclic_of_respects h.respects h.nodup fun a ha => hperm.mem_iff.mpr ha
  · intro hacyclic
    have hsub : ∀ a ∈ nodes, a ∈ l := by
      intro a ha
      by_contra hal
      obtain ⟨b, hb⟩ := exists_available hacyclic hdeps ha hal
      exact hdone b hb
    exact ((List.perm_ext_iff_of_nodup h.nodup hnodes).mpr fun a =>
      ⟨h.mem_nodes a, hsub a⟩).length_eq

theorem isOrder (h : Greedy deps nodes l) (hlength : l.length = nodes.length) :
    IsOrder deps nodes l :=
  ⟨(List.subperm_of_subset h.nodup h.mem_nodes).perm_of_length_le hlength.ge, h.respects⟩

end

variable [LinearOrder α] {l l' : List α}

/-- A greedy listing depends on the elements of the graph and their dependencies only. -/
theorem congr {deps' : α → List α} {nodes' : List α} (hnodes : ∀ a, a ∈ nodes' ↔ a ∈ nodes)
    (hdeps : ∀ a ∈ nodes, deps' a = deps a) (h : Greedy deps nodes l) : Greedy deps' nodes' l := by
  have hiff : ∀ done a, Available deps' nodes' done a ↔ Available deps nodes done a := by
    intro done a
    constructor
    · intro h
      have ha := (hnodes a).mp h.mem
      exact ⟨ha, h.notMem, hdeps a ha ▸ h.ready⟩
    · exact fun h => ⟨(hnodes a).mpr h.mem, h.notMem, (hdeps a h.mem).symm ▸ h.ready⟩
  induction h with
  | nil => exact .nil
  | snoc _ ha hleast ih =>
    exact .snoc ih ((hiff _ _).mpr ha) fun b hb => hleast b ((hiff _ _).mp hb)

/-- Where a greedy listing leaves an order that respects the dependencies, it has the lesser
element. -/
theorem prefix_or_less (h : Greedy deps nodes l) (hl' : Respects deps l') (hnodup : l'.Nodup)
    (hmem : ∀ a ∈ l', a ∈ nodes) (hlength : l.length ≤ l'.length) :
    l <+: l' ∨ ∃ common a rest b rest', l = common ++ a :: rest ∧ l' = common ++ b :: rest' ∧
      a < b := by
  induction h with
  | nil => exact .inl List.nil_prefix
  | @snoc l a _ ha hleast ih =>
    rw [List.length_append, List.length_singleton] at hlength
    rcases ih (by omega) with ⟨rest, rfl⟩ | ⟨common, b, rest, c, rest', rfl, rfl, hlt⟩
    · cases rest with
      | nil =>
        rw [List.append_nil] at hlength
        omega
      | cons b rest =>
        have hb : Available deps nodes l b := by
          refine ⟨hmem b (by simp), ?_, fun c hc => hl' l b rest rfl c hc⟩
          intro hbl
          rw [List.nodup_append] at hnodup
          exact hnodup.2.2 b hbl b (List.mem_cons_self ..) rfl
        rcases (hleast b hb).eq_or_lt with rfl | hlt
        · exact .inl ⟨rest, by simp⟩
        · exact .inr ⟨l, a, [], b, rest, rfl, rfl, hlt⟩
    · exact .inr ⟨common, b, rest ++ [a], c, rest', by simp, rfl, hlt⟩

/-- A complete greedy listing is the least topological order. -/
theorem le_of_isOrder (h : Greedy deps nodes l) (hnodes : nodes.Nodup)
    (hlength : l.length = nodes.length) (h' : IsOrder deps nodes l') : l ≤ l' := by
  have hlength' : l.length = l'.length := hlength.trans h'.perm.length_eq.symm
  have hless := h.prefix_or_less h'.respects (h'.perm.nodup_iff.mpr hnodes)
    (fun a ha => h'.perm.mem_iff.mp ha) hlength'.le
  rcases hless with hinitial | ⟨common, a, rest, b, rest', rfl, rfl, hlt⟩
  · rw [hinitial.eq_of_length hlength']
  · exact le_of_lt (List.append_left_lt (List.cons_lt_cons_iff.mpr (.inl hlt)))

/-- There is one complete greedy listing. -/
theorem eq (h : Greedy deps nodes l) (h' : Greedy deps nodes l') (hnodes : nodes.Nodup)
    (hlength : l.length = nodes.length) (hlength' : l'.length = nodes.length) : l = l' :=
  le_antisymm (h.le_of_isOrder hnodes hlength (h'.isOrder hlength'))
    (h'.le_of_isOrder hnodes hlength' (h.isOrder hlength))

end Greedy

end TopologicalOrder
