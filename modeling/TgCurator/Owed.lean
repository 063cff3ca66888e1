import Mathlib.Tactic.TypeStar

/-!
# Work that is left to someone

A worker makes a piece of work due in one step and does it in a later one. As long as it
lives the work is its own to do; if it stops in between, the work is lost, unless it was
done already or another worker has it too.

`Covered` says that all due work is done or left to a live worker. It survives the steps of
the workers (`Covered.acts`), and the stop of one exactly if another worker has what it had
left, or it was done (`Covered.stops_iff`). Where no worker has work left, all due work is done
(`Covered.done_of_quiet`).
-/

namespace Owed

variable {S N D : Type*} {due done : S → D → Prop} {owes : S → N → D → Prop}

variable (due done owes) in
/-- All due work is done, or left to a worker. -/
def Covered (s : S) : Prop :=
  ∀ d, due s d → done s d ∨ ∃ n, owes s n d

variable (due done owes) in
/-- One worker takes a step: what is due after it and was done or its own before is done or
its own after it, and so is what only became due. -/
structure Acts (s s' : S) (n : N) : Prop where
  others : ∀ m d, m ≠ n → owes s m d → owes s' m d
  keeps : ∀ d, due s' d → due s d → done s d ∨ owes s n d → done s' d ∨ owes s' n d
  takes : ∀ d, due s' d → ¬ due s d → done s' d ∨ owes s' n d

variable (due done owes) in
/-- What a worker has left is done, or another worker has it too. -/
def Shared (s : S) (n : N) : Prop :=
  ∀ d, due s d → owes s n d → done s d ∨ ∃ m, m ≠ n ∧ owes s m d

variable {s s' : S} {n : N}

theorem Covered.acts (h : Covered due done owes s) (hacts : Acts due done owes s s' n) :
    Covered due done owes s' := by
  intro d hd'
  by_cases hd : due s d
  · rcases h d hd with hdone | ⟨m, hm⟩
    · exact (hacts.keeps d hd' hd (.inl hdone)).imp_right fun hn => ⟨n, hn⟩
    · by_cases hmn : m = n
      · exact (hacts.keeps d hd' hd (.inr (hmn ▸ hm))).imp_right fun hn => ⟨n, hn⟩
      · exact .inr ⟨m, hacts.others m d hmn hm⟩
  · exact (hacts.takes d hd' hd).imp_right fun hn => ⟨n, hn⟩

/-- A worker that stops leaves the due work done or left to the others exactly if it shared
what it had left. -/
theorem Covered.stops_iff (h : Covered due done owes s)
    (hothers : ∀ m d, m ≠ n → (owes s' m d ↔ owes s m d)) (hgone : ∀ d, ¬ owes s' n d)
    (hsame : ∀ d, (due s' d ↔ due s d) ∧ (done s' d ↔ done s d)) :
    Covered due done owes s' ↔ Shared due done owes s n := by
  constructor
  · intro h' d hd hn
    rcases h' d ((hsame d).1.mpr hd) with hdone | ⟨m, hm⟩
    · exact .inl ((hsame d).2.mp hdone)
    · have hmn : m ≠ n := by
        rintro rfl
        exact hgone d hm
      exact .inr ⟨m, hmn, (hothers m d hmn).mp hm⟩
  · intro hshared d hd'
    have hd := (hsame d).1.mp hd'
    have hleft : done s d ∨ ∃ m, m ≠ n ∧ owes s m d := by
      rcases h d hd with hdone | ⟨m, hm⟩
      · exact .inl hdone
      · by_cases hmn : m = n
        · exact hshared d hd (hmn ▸ hm)
        · exact .inr ⟨m, hmn, hm⟩
    exact hleft.imp (hsame d).2.mpr fun ⟨m, hmn, hm⟩ => ⟨m, (hothers m d hmn).mpr hm⟩

theorem Covered.done_of_quiet (h : Covered due done owes s) {d : D} (hd : due s d)
    (hquiet : ∀ n, ¬ owes s n d) : done s d :=
  (h d hd).resolve_right fun ⟨n, hn⟩ => hquiet n hn

end Owed
