import Mathlib.Data.List.Basic
import Mathlib.Data.Option.Basic

/-!
# Runs of a partial step function

A system is a function that gives the state after an action, where the action is
possible. `run` performs a list of actions, and `Along` says that every step of a run
meets a condition on the state it starts from.

What one step keeps a run keeps (`run_invariant`), here with the steps limited to those
that meet a condition.
-/

universe u v

namespace Runs

variable {S : Type u} {A : Type v} (step : S → A → Option S)

/-- The state after a list of actions, if each is possible in its turn. -/
def run : S → List A → Option S
  | s, [] => some s
  | s, a :: as => (step s a).bind fun s' => run s' as

/-- Every step of a run meets a condition. -/
def Along (meets : S → A → Prop) : S → List A → Prop
  | _, [] => True
  | s, a :: as => meets s a ∧ ∀ s', step s a = some s' → Along meets s' as

/-- Whether every step of a run meets a condition. -/
def checks (meets : S → A → Bool) : S → List A → Bool
  | _, [] => true
  | s, a :: as => meets s a && (step s a).all fun s' => checks meets s' as

variable {step}

theorem run_cons {s s' : S} {a : A} {as : List A} :
    run step s (a :: as) = some s' ↔ ∃ t, step s a = some t ∧ run step t as = some s' :=
  Option.bind_eq_some_iff

theorem along_cons {meets : S → A → Prop} {s t : S} {a : A} {as : List A} (hmeets : meets s a)
    (ht : step s a = some t) (hrest : Along step meets t as) : Along step meets s (a :: as) :=
  ⟨hmeets, fun _ hs => Option.some.inj (ht.symm.trans hs) ▸ hrest⟩

theorem along_of_checks {meets : S → A → Bool} {meets' : S → A → Prop}
    (hmeets : ∀ s a, meets s a = true → meets' s a) {as : List A} {s : S}
    (h : checks step meets s as = true) : Along step meets' s as := by
  induction as generalizing s with
  | nil => trivial
  | cons a as ih =>
    rw [checks, Bool.and_eq_true] at h
    refine ⟨hmeets s a h.1, fun s' hs => ih ?_⟩
    rw [hs, Option.all_some] at h
    exact h.2

/-- What every step that meets the condition keeps, a run of such steps keeps. -/
theorem run_invariant {meets : S → A → Prop} {I : S → Prop}
    (hstep : ∀ s a s', I s → meets s a → step s a = some s' → I s') {as : List A} {s s' : S}
    (hI : I s) (halong : Along step meets s as) (hrun : run step s as = some s') : I s' := by
  induction as generalizing s with
  | nil =>
    obtain rfl := Option.some.inj hrun
    exact hI
  | cons a as ih =>
    obtain ⟨t, ht, hrun⟩ := run_cons.mp hrun
    exact ih (hstep s a t hI halong.1 ht) (halong.2 t ht) hrun

theorem along_of_forall {meets : S → A → Prop} (h : ∀ s a, meets s a) (as : List A) :
    ∀ s, Along step meets s as := by
  induction as with
  | nil => exact fun _ => trivial
  | cons a as ih => exact fun s => ⟨h s a, fun s' _ => ih s'⟩

theorem along_of_mem {meets : S → A → Prop} {as : List A} (h : ∀ a ∈ as, ∀ s, meets s a) :
    ∀ s, Along step meets s as := by
  induction as with
  | nil => exact fun _ => trivial
  | cons a as ih =>
    have has := ih fun a' ha' => h a' (List.mem_cons_of_mem a ha')
    exact fun s => ⟨h a List.mem_cons_self s, fun s' _ => has s'⟩

/-- An invariant of every step is one of every run. -/
theorem run_invariant' {I : S → Prop} (hstep : ∀ s a s', I s → step s a = some s' → I s')
    {as : List A} {s s' : S} (hI : I s) (hrun : run step s as = some s') : I s' :=
  @run_invariant _ _ _ (fun _ _ => True) I (fun s a s' h _ => hstep s a s' h) as s s' hI
    (along_of_forall (fun _ _ => trivial) as s) hrun

end Runs
