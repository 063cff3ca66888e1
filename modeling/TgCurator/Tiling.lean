import Mathlib.Order.Lattice
import Mathlib.Data.List.Sort

/-!
# Windows that tile an interval

A window is a pair of an exclusive lower end and an inclusive upper end. `Tiles lo ws hi`
says that the windows `ws`, one after the other, cover the points above `lo` up to `hi`.

A tiling has no gap (`Tiles.mem_iff`) and no overlap (`Tiles.pairwise`), so that a point
of the interval lies in exactly one window (`Tiles.exists_unique`). It is ordered by the
lower ends, and sorting its windows in any order gives it back (`Tiles.insertionSort_eq`).
-/

universe u

namespace Tiling

variable {α : Type u} [LinearOrder α]

/-- The windows cover the points above `lo` up to `hi`, one after the other. -/
def Tiles : α → List (α × α) → α → Prop
  | lo, [], hi => lo = hi
  | lo, w :: ws, hi => w.1 = lo ∧ lo < w.2 ∧ Tiles w.2 ws hi

/-- A window holds a point. -/
def Holds (w : α × α) (x : α) : Prop :=
  w.1 < x ∧ x ≤ w.2

/-- One window is left of another. -/
def Before (w w' : α × α) : Prop :=
  w.2 ≤ w'.1

/-- One window starts no later than another. -/
abbrev StartsBy (w w' : α × α) : Prop :=
  w.1 ≤ w'.1

variable {lo mid hi x : α} {ws ws' : List (α × α)}

theorem Tiles.le (h : Tiles lo ws hi) : lo ≤ hi := by
  induction ws generalizing lo with
  | nil => exact le_of_eq h
  | cons w ws ih => exact h.2.1.le.trans (ih h.2.2)

/-- A window that starts where a tiling ends extends it. -/
theorem Tiles.concat (h : Tiles lo ws mid) (hlt : mid < hi) : Tiles lo (ws ++ [(mid, hi)]) hi := by
  induction ws generalizing lo with
  | nil => exact ⟨h.symm, lt_of_eq_of_lt h hlt, rfl⟩
  | cons w ws ih => exact ⟨h.1, h.2.1, ih h.2.2⟩

/-- The windows lie within the interval. -/
theorem Tiles.bounds (h : Tiles lo ws hi) {w : α × α} (hw : w ∈ ws) :
    lo ≤ w.1 ∧ w.1 < w.2 ∧ w.2 ≤ hi := by
  induction ws generalizing lo with
  | nil => simp at hw
  | cons v ws ih =>
    obtain ⟨hstart, hlt, hrest⟩ := h
    rcases List.mem_cons.mp hw with rfl | hw
    · exact ⟨hstart.ge, hstart ▸ hlt, hrest.le⟩
    · obtain ⟨hlow, hw⟩ := ih hrest hw
      exact ⟨hlt.le.trans hlow, hw⟩

/-- No two windows overlap. -/
theorem Tiles.pairwise (h : Tiles lo ws hi) : ws.Pairwise Before := by
  induction ws generalizing lo with
  | nil => exact List.Pairwise.nil
  | cons w ws ih => exact List.Pairwise.cons (fun v hv => (h.2.2.bounds hv).1) (ih h.2.2)

/-- The windows leave no gap. -/
theorem Tiles.mem_iff (h : Tiles lo ws hi) : (∃ w ∈ ws, Holds w x) ↔ lo < x ∧ x ≤ hi := by
  induction ws generalizing lo with
  | nil =>
    obtain rfl : lo = hi := h
    simp
  | cons w ws ih =>
    obtain ⟨rfl, hlt, hrest⟩ := h
    rw [List.exists_mem_cons_iff, ih hrest]
    constructor
    · rintro (⟨hlow, hup⟩ | ⟨hlow, hup⟩)
      · exact ⟨hlow, hup.trans hrest.le⟩
      · exact ⟨hlt.trans hlow, hup⟩
    · rintro ⟨hlow, hup⟩
      exact (le_or_gt x w.2).imp (fun hle => ⟨hlow, hle⟩) fun hgt => ⟨hgt, hup⟩

theorem Holds.not_before {w w' : α × α} (hw : Holds w x) (hw' : Holds w' x) : ¬Before w w' :=
  fun h => absurd (hw.2.trans h) (not_le.mpr hw'.1)

/-- Of two windows one is left of the other. -/
theorem Tiles.before_or (h : Tiles lo ws hi) {v w : α × α} (hv : v ∈ ws) (hw : w ∈ ws)
    (hne : v ≠ w) : Before v w ∨ Before w v := by
  induction ws generalizing lo with
  | nil => simp at hv
  | cons u ws ih =>
    rcases List.mem_cons.mp hv with rfl | hv' <;> rcases List.mem_cons.mp hw with rfl | hw'
    · exact absurd rfl hne
    · exact .inl (h.2.2.bounds hw').1
    · exact .inr (h.2.2.bounds hv').1
    · exact ih h.2.2 hv' hw'

/-- A point of the interval lies in one window only. -/
theorem Tiles.exists_unique (h : Tiles lo ws hi) (hx : lo < x ∧ x ≤ hi) :
    ∃! w, w ∈ ws ∧ Holds w x := by
  obtain ⟨w, hw, hhold⟩ := h.mem_iff.mpr hx
  refine ⟨w, ⟨hw, hhold⟩, ?_⟩
  rintro v ⟨hv, hvhold⟩
  by_contra hne
  rcases h.before_or hv hw hne with hb | hb
  · exact hvhold.not_before hhold hb
  · exact hhold.not_before hvhold hb

instance : Std.Total (StartsBy (α := α)) :=
  ⟨fun w w' => le_total w.1 w'.1⟩

instance : IsTrans (α × α) StartsBy :=
  ⟨fun _ _ _ h h' => h.trans h'⟩

/-- Sorting the windows of a tiling by their lower ends gives the tiling. -/
theorem Tiles.insertionSort_eq (h : Tiles lo ws hi) (hperm : ws'.Perm ws) :
    ws'.insertionSort StartsBy = ws := by
  have hnext : ∀ a ∈ ws, ∀ b ∈ ws, Before a b → a.1 < b.1 :=
    fun a ha b _ hab => (h.bounds ha).2.1.trans_le hab
  have hstarts : ws.Pairwise StartsBy :=
    h.pairwise.imp_of_mem fun {a b} ha hb hab => (hnext a ha b hb hab).le
  refine List.Perm.eq_of_pairwise ?_ (List.pairwise_insertionSort _ _) hstarts
    ((List.perm_insertionSort _ _).trans hperm)
  intro a b ha hb hab hba
  have ha := hperm.mem_iff.mp ((List.perm_insertionSort _ _).mem_iff.mp ha)
  by_contra hne
  rcases h.before_or ha hb hne with hbefore | hbefore
  · exact absurd hba (not_le.mpr (hnext a ha b hb hbefore))
  · exact absurd hab (not_le.mpr (hnext b hb a ha hbefore))

end Tiling
