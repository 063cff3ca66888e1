import Mathlib.Data.Nat.Notation
import Mathlib.Logic.Function.Basic
import Mathlib.Logic.Relation

/-!
# Processes over a shared state that grows

Sequential processes call services on a shared state. A process is what it calls next and what it
does with each answer (`Proc`), and a call may raise. Processes start at any time, take turns in
any order and stop at any point (`Step`).

A discipline is an invariant of the shared state, an order in which it grows, and the calls that
are allowed; a service that is called as allowed keeps the invariant and lets the state grow. A
process is safe if it calls only what is allowed, whatever the others have done in between
(`Safe`, `Ensures`), and then every run of safe processes keeps the invariant (`sound_of_run`).

What a process returns if the others let it (`Returns`, `Gives`), a run makes it return
(`Returns.run`).
-/

namespace Processes

/-! ## Processes -/

/-- A sequential process, with calls that have answers of their own types. -/
inductive Proc (C : Type) (R : C → Type) (α : Type)
  | done (a : α)
  | call (c : C) (next : R c → Proc C R α)

variable {S C ε α β : Type} {R : C → Type}

/-- One process after another. -/
def Proc.bind : Proc C R α → (α → Proc C R β) → Proc C R β
  | done a, f => f a
  | call c next, f => call c fun r => (next r).bind f

instance : Monad (Proc C R) where
  pure := Proc.done
  bind := Proc.bind

/-- A process whose calls, and which itself, may raise. -/
abbrev Program (C : Type) (R : C → Type) (ε α : Type) :=
  ExceptT ε (Proc C fun c => Except ε (R c)) α

namespace Program

/-- Call a service. -/
def request (c : C) : Program C R ε (R c) :=
  ExceptT.mk (.call c .done)

/-- A computation without calls. -/
def compute (x : Except ε α) : Program C R ε α :=
  ExceptT.mk (.done x)

/-- The outcome of a program, also if it raises. -/
def attempt (p : Program C R ε α) : Program C R ε (Except ε α) :=
  ExceptT.mk (p.run.bind fun r => .done (.ok r))

/-- A program for each item, one after another. -/
def forEach (f : α → Program C R ε β) : List α → Program C R ε (List β)
  | [] => pure []
  | a :: items => do
    let b ← f a
    let bs ← forEach f items
    return b :: bs

end Program

/-! ## Disciplines -/

/-- What a process calls, in a state, with the answer and the state after it. -/
abbrev Service (S C : Type) (R : C → Type) :=
  ℕ → S → (c : C) → R c → S → Prop

/-- An invariant, an order of growth and the calls that each process is allowed. -/
structure Discipline (serves : Service S C R) where
  Inv : S → Prop
  Grows : S → S → Prop
  Allowed : ℕ → S → C → Prop
  refl : ∀ s, Grows s s
  trans : ∀ {s t u}, Grows s t → Grows t u → Grows s u
  keeps : ∀ {i s c r s'}, Inv s → Allowed i s c → serves i s c r s' → Inv s' ∧ Grows s s'

variable {serves : Service S C R} (d : Discipline serves) (i : ℕ)

/-- A process calls only what it is allowed, and ends with what is wanted. -/
def Safe (Q : S → α → Prop) : Proc C R α → S → Prop
  | .done a, s => ∀ t, d.Grows s t → d.Inv t → Q t a
  | .call c next, s => ∀ t, d.Grows s t → d.Inv t →
      d.Allowed i t c ∧ ∀ r u, serves i t c r u → Safe Q (next r) u

variable {d i} {s t : S} {Q : S → α → Prop} {Q' : S → β → Prop} {p : Proc C R α}

/-- A safe process stays safe. -/
theorem Safe.mono (h : Safe d i Q p s) (hgrows : d.Grows s t) : Safe d i Q p t := by
  cases p with
  | done a => exact fun u hu => h u (d.trans hgrows hu)
  | call c next => exact fun u hu => h u (d.trans hgrows hu)

theorem safe_of_forall (h : ∀ t, d.Grows s t → d.Inv t → Safe d i Q p t) : Safe d i Q p s := by
  cases p with
  | done a => exact fun t hgrows hinv => h t hgrows hinv t (d.refl t) hinv
  | call c next => exact fun t hgrows hinv => h t hgrows hinv t (d.refl t) hinv

theorem Safe.imp {Q' : S → α → Prop} (h : Safe d i Q p s)
    (hQ : ∀ t a, d.Inv t → Q t a → Q' t a) : Safe d i Q' p s := by
  induction p generalizing s with
  | done a => exact fun t hgrows hinv => hQ t a hinv (h t hgrows hinv)
  | call c next ih =>
    intro t hgrows hinv
    obtain ⟨hallowed, hnext⟩ := h t hgrows hinv
    exact ⟨hallowed, fun r u hserves => ih r (hnext r u hserves)⟩

/-- What follows a safe process is safe if it is after what the process ends with. -/
theorem Safe.bind {f : α → Proc C R β} (h : Safe d i Q p s)
    (hf : ∀ t a, d.Grows s t → d.Inv t → (∀ u, d.Grows t u → d.Inv u → Q u a) →
      Safe d i Q' (f a) t) : Safe d i Q' (p.bind f) s := by
  induction p generalizing s with
  | done a =>
    exact safe_of_forall fun t hgrows hinv => hf t a hgrows hinv fun u hu => h u (d.trans hgrows hu)
  | call c next ih =>
    intro t hgrows hinv
    obtain ⟨hallowed, hnext⟩ := h t hgrows hinv
    refine ⟨hallowed, fun r u hserves => ih r (hnext r u hserves) fun v a hv => ?_⟩
    have hu := (d.keeps hinv hallowed hserves).2
    exact hf v a (d.trans (d.trans hgrows hu) hv)

/-! ## Programs -/

section

variable {serves : Service S C fun c => Except ε (R c)} (d : Discipline serves) (i : ℕ)

/-- A program calls only what it is allowed, and what it returns is as wanted. -/
def Ensures (s : S) (p : Program C R ε α) (Q : S → α → Prop) : Prop :=
  Safe d i (fun t r => ∀ a, r = .ok a → Q t a) p.run s

variable {d i} {p : Program C R ε α}

namespace Ensures

theorem mono (h : Ensures d i s p Q) (hgrows : d.Grows s t) : Ensures d i t p Q :=
  Safe.mono h hgrows

theorem imp {Q' : S → α → Prop} (h : Ensures d i s p Q) (hQ : ∀ t a, d.Inv t → Q t a → Q' t a) :
    Ensures d i s p Q' :=
  Safe.imp h fun t _ hinv hr a ha => hQ t a hinv (hr a ha)

theorem safe (h : Ensures d i s p Q) : Safe d i (fun _ _ => True) p.run s :=
  Safe.imp h fun _ _ _ _ => trivial

theorem compute {x : Except ε α} (h : ∀ a, x = .ok a → ∀ t, d.Grows s t → d.Inv t → Q t a) :
    Ensures d i s (Program.compute x) Q :=
  fun t hgrows hinv a ha => h a ha t hgrows hinv

theorem pure {a : α} (h : ∀ t, d.Grows s t → d.Inv t → Q t a) : Ensures d i s (pure a) Q :=
  compute fun _ ha => Except.ok.inj ha ▸ h

theorem throw (e : ε) : Ensures d i s (throw e) Q := by
  have h : Ensures d i s (Program.compute (.error e)) Q := compute fun _ ha => by cases ha
  exact h

theorem bind {f : α → Program C R ε β} (h : Ensures d i s p Q)
    (hf : ∀ t a, d.Grows s t → d.Inv t → Q t a → Ensures d i t (f a) Q') :
    Ensures d i s (p >>= f) Q' := by
  refine Safe.bind h fun t r hgrows hinv hr => ?_
  cases r with
  | ok a => exact hf t a hgrows hinv (hr t (d.refl t) hinv a rfl)
  | error e => exact throw e

theorem request {c : C} {Q : S → R c → Prop}
    (hallowed : ∀ t, d.Grows s t → d.Inv t → d.Allowed i t c)
    (h : ∀ t r u, d.Grows s t → d.Inv t → serves i t c (.ok r) u →
      ∀ v, d.Grows u v → d.Inv v → Q v r) :
    Ensures d i s (Program.request c) Q :=
  fun t hgrows hinv => ⟨hallowed t hgrows hinv, fun _ u hserves v huv hv a ha =>
    h t a u hgrows hinv (ha ▸ hserves) v huv hv⟩

theorem attempt (h : Ensures d i s p Q) :
    Ensures d i s (Program.attempt p) fun t r => ∀ a, r = .ok a → Q t a := by
  refine Safe.bind h fun t r _ _ hr u hgrows hinv r' hr' a ha => ?_
  obtain rfl := Except.ok.inj hr'
  exact hr u hgrows hinv a ha

/-- What each program returns, if it stays so, all have. -/
theorem forEach {f : α → Program C R ε β} {items : List α}
    (hstable : ∀ t u b, d.Grows t u → Q' t b → Q' u b)
    (h : ∀ a ∈ items, ∀ t, d.Grows s t → d.Inv t → Ensures d i t (f a) Q') :
    Ensures d i s (Program.forEach f items) fun t bs => ∀ b ∈ bs, Q' t b := by
  induction items generalizing s with
  | nil => exact pure fun _ _ _ b hb => absurd hb List.not_mem_nil
  | cons a items ih =>
    refine bind (Q := Q') (safe_of_forall (h a (List.mem_cons_self ..))) fun t b hst _ hb => ?_
    refine bind (ih fun a ha u hu => h a (List.mem_cons_of_mem _ ha) u (d.trans hst hu)) ?_
    intro u bs htu _ hbs
    refine pure fun v huv _ => ?_
    rw [List.forall_mem_cons]
    exact ⟨hstable _ _ b (d.trans htu huv) hb, fun b hb => hstable _ _ b huv (hbs b hb)⟩

end Ensures

end

/-! ## Systems -/

/-- The shared state and the processes that were started and have not stopped. -/
structure System (S C : Type) (R : C → Type) (α : Type) where
  shared : S
  procs : ℕ → Option (Proc C R α)
  started : ℕ

/-- A step of a system: a process starts, a call of a process is answered, a process stops, or
the surroundings change the shared state. -/
inductive Step (serves : Service S C R) (programs : Proc C R α → Prop)
    (surroundings : S → S → Prop) : System S C R α → System S C R α → Prop
  | started (y : System S C R α) {p : Proc C R α} (hp : programs p) :
    Step serves programs surroundings y
      { y with
        procs := Function.update y.procs y.started (some p)
        started := y.started + 1 }
  | answered {y : System S C R α} {i : ℕ} {c : C} {next : R c → Proc C R α} {r : R c} {s : S}
    (hcall : y.procs i = some (.call c next)) (hserves : serves i y.shared c r s) :
    Step serves programs surroundings y
      { y with
        shared := s
        procs := Function.update y.procs i (some (next r)) }
  | stopped (y : System S C R α) (i : ℕ) :
    Step serves programs surroundings y { y with procs := Function.update y.procs i none }
  | changed {y : System S C R α} {s : S} (h : surroundings y.shared s) :
    Step serves programs surroundings y { y with shared := s }

/-- The invariant holds, and the processes are safe. -/
structure Sound (d : Discipline serves) (y : System S C R α) : Prop where
  inv : d.Inv y.shared
  safe : ∀ i p, y.procs i = some p → Safe d i (fun _ _ => True) p y.shared

variable {d : Discipline serves} {programs : Proc C R α → Prop} {surroundings : S → S → Prop}
  {y y' : System S C R α}

/-- A process of a sound system calls what it is allowed. -/
theorem Sound.allowed (h : Sound d y) {c : C} {next : R c → Proc C R α}
    (hcall : y.procs i = some (.call c next)) : d.Allowed i y.shared c :=
  (h.safe i _ hcall y.shared (d.refl _) h.inv).1

theorem Sound.update (h : Sound d y) (hs : d.Inv s) (hgrows : d.Grows y.shared s) (j : ℕ)
    {o : Option (Proc C R α)} (ho : ∀ p, o = some p → Safe d j (fun _ _ => True) p s)
    (started : ℕ) : Sound d ⟨s, Function.update y.procs j o, started⟩ := by
  refine ⟨hs, fun k p hp => ?_⟩
  dsimp only at hp
  rcases eq_or_ne k j with rfl | hne
  · rw [Function.update_self] at hp
    exact ho p hp
  · rw [Function.update_of_ne hne] at hp
    exact (h.safe k p hp).mono hgrows

/-- A step of safe processes keeps the invariant, and the shared state grows. -/
theorem Step.sound (hprograms : ∀ p, programs p → ∀ i s, Safe d i (fun _ _ => True) p s)
    (hsurroundings : ∀ s s', d.Inv s → surroundings s s' → d.Inv s' ∧ d.Grows s s')
    (h : Sound d y) (hstep : Step serves programs surroundings y y') :
    Sound d y' ∧ d.Grows y.shared y'.shared := by
  cases hstep with
  | started hp =>
    refine ⟨h.update h.inv (d.refl _) _ ?_ _, d.refl _⟩
    rintro p ⟨⟩
    exact hprograms _ hp _ _
  | answered hcall hserves =>
    obtain ⟨hallowed, hnext⟩ := h.safe _ _ hcall y.shared (d.refl _) h.inv
    obtain ⟨hinv, hgrows⟩ := d.keeps h.inv hallowed hserves
    refine ⟨h.update hinv hgrows _ ?_ _, hgrows⟩
    rintro p ⟨⟩
    exact hnext _ _ hserves
  | stopped i => exact ⟨h.update h.inv (d.refl _) _ (fun p hp => by cases hp) _, d.refl _⟩
  | changed hchange =>
    obtain ⟨hinv, hgrows⟩ := hsurroundings _ _ h.inv hchange
    exact ⟨⟨hinv, fun i p hp => (h.safe i p hp).mono hgrows⟩, hgrows⟩

/-- What a step keeps a run keeps. -/
theorem sound_of_run (hprograms : ∀ p, programs p → ∀ i s, Safe d i (fun _ _ => True) p s)
    (hsurroundings : ∀ s s', d.Inv s → surroundings s s' → d.Inv s' ∧ d.Grows s s')
    (h : Sound d y) (hrun : Relation.ReflTransGen (Step serves programs surroundings) y y') :
    Sound d y' ∧ d.Grows y.shared y'.shared := by
  induction hrun with
  | refl => exact ⟨h, d.refl _⟩
  | tail _ hstep ih =>
    obtain ⟨hsound, hgrows⟩ := hstep.sound hprograms hsurroundings ih.1
    exact ⟨hsound, d.trans ih.2 hgrows⟩

/-! ## Processes alone -/

/-- A process that takes all turns ends with a result, in a state. -/
inductive Returns (serves : Service S C R) (i : ℕ) : Proc C R α → S → α → S → Prop
  | done (a : α) (s : S) : Returns serves i (.done a) s a s
  | call {c : C} {next : R c → Proc C R α} {r : R c} {a : α} {s t u : S}
    (hserves : serves i s c r t) (h : Returns serves i (next r) t a u) :
    Returns serves i (.call c next) s a u

variable {a : α} {b : β} {u : S}

theorem Returns.bind {f : α → Proc C R β} (h : Returns serves i p s a t)
    (hf : Returns serves i (f a) t b u) : Returns serves i (p.bind f) s b u := by
  induction h with
  | done => exact hf
  | call hserves _ ih => exact .call hserves (ih hf)

/-- A run in which a process takes all turns. -/
theorem Returns.run (h : Returns serves i p s a u) (hshared : y.shared = s)
    (hproc : y.procs i = some p) :
    ∃ y', Relation.ReflTransGen (Step serves programs surroundings) y y' ∧ y'.shared = u := by
  induction h generalizing y with
  | done => exact ⟨y, .refl, hshared⟩
  | @call c next r a s t u hserves _ ih =>
    subst hshared
    have hstep : Step serves programs surroundings y _ := .answered hproc hserves
    obtain ⟨y', hrun, hend⟩ := ih (y := ⟨t, Function.update y.procs i (some (next r)), y.started⟩)
      rfl (Function.update_self ..)
    exact ⟨y', .head hstep hrun, hend⟩

section

variable {serves : Service S C fun c => Except ε (R c)}

/-- A program that takes all turns returns a result, in a state. -/
def Gives (serves : Service S C fun c => Except ε (R c)) (i : ℕ) (p : Program C R ε α) (s : S)
    (a : α) (t : S) : Prop :=
  Returns serves i p.run s (.ok a) t

namespace Gives

variable {p : Program C R ε α} {f : α → Program C R ε β}

theorem compute {x : Except ε α} (h : x = .ok a) (s : S) :
    Gives serves i (Program.compute x) s a s := by
  subst h
  exact .done _ s

theorem pure (a : α) (s : S) : Gives serves i (pure a) s a s :=
  .done _ s

theorem bind (h : Gives serves i p s a t) (hf : Gives serves i (f a) t b u) :
    Gives serves i (p >>= f) s b u :=
  Returns.bind h hf

theorem request {c : C} {r : R c} (h : serves i s c (.ok r) t) :
    Gives serves i (Program.request c) s r t :=
  .call h (.done _ t)

theorem attempt (h : Gives serves i p s a t) :
    Gives serves i (Program.attempt p) s (.ok a) t :=
  Returns.bind h (.done _ t)

end Gives

end

end Processes
