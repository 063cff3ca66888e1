import Mathlib.Data.List.Count

/-!
# Leased items

An item waits, is held under a token, or has ended. A grant counts an attempt and gives
the item to a new token, also while another token holds it; the holder can return it or
commit a result, which ends it, and an item can be stopped at any time before its end.
Grants and commits are the visible events.

`History es i` says that an item made with no attempts behind it is at `i` after the
events `es`. Then the attempts are the grants and stay in their bound (`attempts_eq`,
`attempts_le`), a token that holds the item was granted last (`getLast_of_held`), a commit
comes right after the grant to the same token and nothing comes after it
(`eq_of_committed`), so that there is at most one (`committed_le_one`).

A table of items logs the events of all of them. `Tracks items log` says that the log of
each item is a history of it, and `Tracks.moves` that a transaction keeps this, when it
makes, keeps or steps each item with the event it logs.
-/

universe u v

namespace Lease

variable {T : Type u}

/-- Where an item is. -/
inductive Phase (T : Type u)
  | waiting
  | held (token : T)
  | ended
  deriving DecidableEq

/-- The phase of a row that is active or not, under a token or none. -/
def Phase.ofRow (active : Bool) (token : Option T) : Phase T :=
  if active then
    match token with
    | some k => .held k
    | none => .waiting
  else .ended

/-- An item. -/
structure Item (T : Type u) where
  phase : Phase T
  attempts : ℕ
  maxAttempts : ℕ
  deriving DecidableEq

/-- What can be seen of an item from outside. -/
inductive Event (T : Type u)
  | granted (token : T)
  | committed (token : T)
  deriving DecidableEq

namespace Event

/-- Whether an event is a grant. -/
def isGranted : Event T → Bool
  | granted _ => true
  | committed _ => false

/-- Whether an event is a commit. -/
def isCommitted : Event T → Bool
  | granted _ => false
  | committed _ => true

end Event

/-- One step of an item. -/
inductive Step : Item T → Option (Event T) → Item T → Prop
  | granted {i : Item T} {k : T} (hphase : i.phase ≠ .ended) (hlt : i.attempts < i.maxAttempts) :
    Step i (some (.granted k)) { i with phase := .held k, attempts := i.attempts + 1 }
  | committed {i : Item T} {k : T} (hphase : i.phase = .held k) :
    Step i (some (.committed k)) { i with phase := .ended }
  | returned {i : Item T} {k : T} (hphase : i.phase = .held k) :
    Step i none { i with phase := .waiting }
  | stopped {i : Item T} (hphase : i.phase ≠ .ended) : Step i none { i with phase := .ended }

/-- The events of an item since it was made. -/
inductive History : List (Event T) → Item T → Prop
  | made (maxAttempts : ℕ) : History [] ⟨.waiting, 0, maxAttempts⟩
  | step {es : List (Event T)} {e : Option (Event T)} {i j : Item T} (h : History es i)
    (hstep : Step i e j) : History (es ++ e.toList) j

variable {es : List (Event T)} {e : Option (Event T)} {i j : Item T} {k : T}

/-- The end is final. -/
theorem Step.not_ended (h : Step i e j) : i.phase ≠ .ended := by
  cases h with
  | granted hphase _ => exact hphase
  | committed hphase => simp [hphase]
  | returned hphase => simp [hphase]
  | stopped hphase => exact hphase

namespace History

/-- The attempts are the grants. -/
theorem attempts_eq (h : History es i) : i.attempts = es.countP Event.isGranted := by
  induction h with
  | made => rfl
  | step h hstep ih => cases hstep <;> simp [ih, Event.isGranted]

/-- The attempts stay in their bound. -/
theorem attempts_le (h : History es i) : i.attempts ≤ i.maxAttempts := by
  induction h with
  | made => exact Nat.zero_le _
  | step h hstep ih =>
    cases hstep with
    | granted _ hlt => exact hlt
    | committed => exact ih
    | returned => exact ih
    | stopped => exact ih

/-- The token that holds an item was granted last. -/
theorem getLast_of_held (h : History es i) (hphase : i.phase = .held k) :
    ∃ es', es = es' ++ [.granted k] := by
  cases h with
  | made => cases hphase
  | step h hstep =>
    cases hstep with
    | granted =>
      cases hphase
      exact ⟨_, rfl⟩
    | committed => cases hphase
    | returned => cases hphase
    | stopped => cases hphase

/-- Nothing was committed before the end. -/
theorem no_commit (h : History es i) (hphase : i.phase ≠ .ended) :
    es.countP Event.isCommitted = 0 := by
  induction h with
  | made => rfl
  | step h hstep ih =>
    rw [List.countP_append, ih hstep.not_ended]
    cases hstep with
    | granted => rfl
    | committed => exact absurd rfl hphase
    | returned => rfl
    | stopped => rfl

/-- At most one commit is made. -/
theorem committed_le_one (h : History es i) : es.countP Event.isCommitted ≤ 1 := by
  cases h with
  | made => exact Nat.zero_le _
  | step h hstep =>
    rw [List.countP_append, h.no_commit hstep.not_ended]
    cases hstep <;> simp [Event.isCommitted]

theorem committed_notMem (h : History es i) (hphase : i.phase ≠ .ended) (k : T) :
    .committed k ∉ es := by
  intro hk
  have := List.countP_eq_zero.mp (h.no_commit hphase) _ hk
  exact this rfl

/-- A commit comes right after the grant to its token, and ends the item. -/
theorem eq_of_committed (h : History es i) (hk : .committed k ∈ es) :
    i.phase = .ended ∧ ∃ es', es = es' ++ [.granted k, .committed k] := by
  cases h with
  | made => cases hk
  | step h hstep =>
    have hold := h.committed_notMem hstep.not_ended k
    cases hstep with
    | granted => simp [hold] at hk
    | committed hphase =>
      obtain ⟨es', rfl⟩ := h.getLast_of_held hphase
      simp only [Option.toList_some, List.mem_append, hold, List.mem_singleton,
        Event.committed.injEq, false_or] at hk
      exact ⟨rfl, es', by simp [hk]⟩
    | returned => simp [hold] at hk
    | stopped => simp [hold] at hk

end History

/-! ## Tables of items -/

section

variable {K : Type v} [DecidableEq K]

/-- What a transaction can do to one item. -/
inductive Move : Option (Item T) → Option (Event T) → Option (Item T) → Prop
  | kept (o : Option (Item T)) : Move o none o
  | made (maxAttempts : ℕ) : Move none none (some ⟨.waiting, 0, maxAttempts⟩)
  | step {i : Item T} {e : Option (Event T)} {j : Item T} (h : Step i e j) :
    Move (some i) e (some j)

/-- The event of an item among what a transaction logs. -/
def eventOf (logged : Option (K × Event T)) (id : K) : Option (Event T) :=
  logged.bind fun e => if e.1 = id then some e.2 else none

/-- The events of an item. -/
def eventsOf (log : List (K × Event T)) (id : K) : List (Event T) :=
  (log.filter (·.1 = id)).map Prod.snd

/-- An item is where its events lead, and an item that is not there has none. -/
inductive Tracked : Option (Item T) → List (Event T) → Prop
  | absent : Tracked none []
  | present {i : Item T} {es : List (Event T)} (h : History es i) : Tracked (some i) es

/-- Each item is where its events lead. -/
def Tracks (items : K → Option (Item T)) (log : List (K × Event T)) : Prop :=
  ∀ id, Tracked (items id) (eventsOf log id)

variable {items items' : K → Option (Item T)} {log : List (K × Event T)}
  {logged : Option (K × Event T)} {id : K}

theorem eventsOf_append (log : List (K × Event T)) (logged : Option (K × Event T)) (id : K) :
    eventsOf (log ++ logged.toList) id = eventsOf log id ++ (eventOf logged id).toList := by
  cases logged with
  | none => simp [eventsOf, eventOf]
  | some e =>
    by_cases he : e.1 = id <;> simp [eventsOf, eventOf, he]

theorem Tracks.history (h : Tracks items log) (hi : items id = some i) :
    History (eventsOf log id) i := by
  have hid := h id
  rw [hi] at hid
  cases hid with
  | present hid => exact hid

/-- Keeping, making and stepping an item keeps its history. -/
theorem Tracked.move {o o' : Option (Item T)} (h : Tracked o es) (hmove : Move o e o') :
    Tracked o' (es ++ e.toList) := by
  cases hmove with
  | kept => simpa using h
  | made maxAttempts =>
    cases h
    exact .present (.made maxAttempts)
  | step hstep =>
    cases h with
    | present h => exact .present (h.step hstep)

/-- Keeping, making and stepping items keeps their histories. -/
theorem Tracks.moves (h : Tracks items log)
    (hmove : ∀ id, Move (items id) (eventOf logged id) (items' id)) :
    Tracks items' (log ++ logged.toList) := by
  intro id
  rw [eventsOf_append]
  exact (h id).move (hmove id)

/-- A token that commits holds the item. -/
theorem Move.committed {o o' : Option (Item T)} (h : Move o (some (.committed k)) o') :
    ∃ i, o = some i ∧ i.phase = .held k := by
  cases h with
  | step hstep =>
    cases hstep with
    | committed hphase => exact ⟨_, rfl, hphase⟩

/-- A token holds an item because it held it before, or by a grant. -/
theorem Move.held {o : Option (Item T)} (h : Move o e (some i)) (hphase : i.phase = .held k) :
    o = some i ∨ e = some (.granted k) := by
  cases h with
  | kept => exact .inl rfl
  | made => cases hphase
  | step hstep =>
    cases hstep with
    | granted =>
      cases hphase
      exact .inr rfl
    | committed => cases hphase
    | returned => cases hphase
    | stopped => cases hphase

end

end Lease
