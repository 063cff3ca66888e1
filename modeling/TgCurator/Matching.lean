import Mathlib.Data.List.Infix

/-!
# Patterns in a text

A `Pattern` looks at the start of a text and tells what it captures and how long the match is.
`tokens` cuts a text into the leftmost matches that do not overlap and the characters between
them, as the functions of a regular expression library do; `captures`, `found` and the
replacement of the matches are read off the tokens.

When no match of a pattern begins inside another (`Lawful`), the matches are those at all the
positions of the text (`captures_eq`), so that a pattern that is more special than another and
captures as much is the same pattern on the text (`isSome_of_length_eq`).
-/

namespace Matching

variable {τ α β : Type*}

/-- What a pattern captures at the start of a text, and the length of the match. -/
abbrev Pattern (τ α : Type*) := List τ → Option (α × ℕ)

/-- A character outside the matches, or a match. -/
inductive Token (τ α : Type*)
  | plain (c : τ)
  | hit (a : α) (text : List τ)

namespace Token

/-- The text of a token. -/
def text : Token τ α → List τ
  | plain c => [c]
  | hit _ text => text

/-- What a token captures. -/
def capture : Token τ α → Option α
  | plain _ => none
  | hit a _ => some a

end Token

/-- The tokens of a text after some characters of a match. -/
def tokens (m : Pattern τ α) : ℕ → List τ → List (Token τ α)
  | _, [] => []
  | skip + 1, _ :: cs => tokens m skip cs
  | 0, c :: cs =>
    match m (c :: cs) with
    | some (a, n) => .hit a ((c :: cs).take n) :: tokens m (n - 1) cs
    | none => .plain c :: tokens m 0 cs

/-- What is captured by the matches. -/
def captures (m : Pattern τ α) (text : List τ) : List α :=
  (tokens m 0 text).filterMap Token.capture

/-- Whether a text has a match. -/
def found (m : Pattern τ α) (text : List τ) : Bool :=
  text.tails.any fun t => (m t).isSome

/-- A match is not empty, lies within the text, and no other one begins inside it. -/
structure Lawful (m : Pattern τ α) : Prop where
  pos : ∀ {text a n}, m text = some (a, n) → 0 < n
  le : ∀ {text a n}, m text = some (a, n) → n ≤ text.length
  apart : ∀ {text a n k}, m text = some (a, n) → 0 < k → k < n → m (text.drop k) = none

variable {m : Pattern τ α} {m' : Pattern τ β} {text : List τ} {a : α} {n : ℕ}

theorem tokens_eq_drop (skip : ℕ) (text : List τ) :
    tokens m skip text = tokens m 0 (text.drop skip) := by
  induction text generalizing skip with
  | nil => cases skip <;> rfl
  | cons c cs ih =>
    cases skip with
    | zero => rfl
    | succ skip => exact ih skip

theorem tokens_of_none {c : τ} {cs : List τ} (h : m (c :: cs) = none) :
    tokens m 0 (c :: cs) = .plain c :: tokens m 0 cs := by
  rw [tokens, h]

theorem Lawful.tokens_of_some (hm : Lawful m) (h : m text = some (a, n)) :
    tokens m 0 text = .hit a (text.take n) :: tokens m 0 (text.drop n) := by
  have hpos := hm.pos h
  cases text with
  | nil =>
    have hle := hm.le h
    rw [List.length_nil] at hle
    omega
  | cons c cs =>
    obtain ⟨n, rfl⟩ : ∃ k, n = k + 1 := ⟨n - 1, by omega⟩
    rw [tokens, h]
    exact congrArg _ (tokens_eq_drop n cs)

/-- Induction over the tokens of a text. -/
theorem Lawful.induction (hm : Lawful m) {P : List τ → Prop} (nil : P [])
    (plain : ∀ c cs, m (c :: cs) = none → P cs → P (c :: cs))
    (hit : ∀ text a n, m text = some (a, n) → P (text.drop n) → P text) (text : List τ) :
    P text := by
  induction hlength : text.length using Nat.strong_induction_on generalizing text with
  | _ length ih =>
    subst hlength
    cases hmatch : m text with
    | some found =>
      obtain ⟨a, n⟩ := found
      have hpos := hm.pos hmatch
      have hle := hm.le hmatch
      have hlt : (text.drop n).length < text.length := by
        rw [List.length_drop]
        omega
      exact hit text a n hmatch (ih _ hlt _ rfl)
    | none =>
      cases text with
      | nil => exact nil
      | cons c cs => exact plain c cs hmatch (ih cs.length (by simp) cs rfl)

/-! ## All positions -/

theorem filterMap_tails_drop {f : List τ → Option β} :
    ∀ {k : ℕ} {text : List τ}, k ≤ text.length → (∀ j < k, f (text.drop j) = none) →
      text.tails.filterMap f = (text.drop k).tails.filterMap f
  | 0, _, _, _ => rfl
  | k + 1, [], hk, _ => by simp at hk
  | k + 1, c :: cs, hk, hnone => by
    have hfirst : f (c :: cs) = none := hnone 0 k.succ_pos
    rw [List.tails_cons, List.filterMap_cons_none hfirst, List.drop_succ_cons]
    refine filterMap_tails_drop (by simpa using hk) fun j hj => ?_
    exact hnone (j + 1) (by omega)

/-- The captures of the matches at all positions. -/
theorem Lawful.captures_eq (hm : Lawful m) (text : List τ) :
    captures m text = text.tails.filterMap fun t => (m t).map Prod.fst := by
  unfold captures
  induction text using hm.induction with
  | nil =>
    cases hnil : m [] with
    | none => simp [tokens, hnil]
    | some found =>
      have hpos := hm.pos hnil
      have hle := hm.le hnil
      rw [List.length_nil] at hle
      omega
  | plain c cs hnone ih =>
    rw [tokens_of_none hnone, List.filterMap_cons_none rfl, ih, List.tails_cons,
      List.filterMap_cons_none (by rw [hnone]; rfl)]
  | hit text a n hsome ih =>
    have hpos := hm.pos hsome
    have hle := hm.le hsome
    obtain ⟨c, cs, rfl⟩ : ∃ c cs, text = c :: cs := by
      cases text with
      | nil => simp at hle; omega
      | cons c cs => exact ⟨c, cs, rfl⟩
    obtain ⟨n, rfl⟩ : ∃ k, n = k + 1 := ⟨n - 1, by omega⟩
    have hcapture : (m (c :: cs)).map Prod.fst = some a := by
      rw [hsome]
      rfl
    rw [hm.tokens_of_some hsome, List.filterMap_cons, ih, List.tails_cons, List.filterMap_cons,
      hcapture, List.drop_succ_cons]
    refine congrArg _ (filterMap_tails_drop (by simpa using hle) fun j hj => ?_).symm
    have hapart := hm.apart hsome (k := j + 1) (by omega) (by omega)
    rw [List.drop_succ_cons] at hapart
    rw [hapart]
    rfl

/-- A pattern that is more special than another one and captures as much matches wherever the
other one does. -/
theorem isSome_of_length_eq (hm : Lawful m) (hm' : Lawful m')
    (himp : ∀ t, (m' t).isSome = true → (m t).isSome = true)
    (hlength : (captures m text).length = (captures m' text).length) {t : List τ}
    (ht : t <:+ text) (hsome : (m t).isSome = true) : (m' t).isSome = true := by
  rw [hm.captures_eq, hm'.captures_eq, List.length_filterMap_eq_countP,
    List.length_filterMap_eq_countP] at hlength
  simp only [Option.isSome_map] at hlength
  generalize hl : text.tails = l at hlength
  have hmem : t ∈ l := hl ▸ (List.mem_tails _ _).mpr ht
  clear hl ht
  induction l with
  | nil => cases hmem
  | cons u l ih =>
    have hle : l.countP (fun t => (m' t).isSome) ≤ l.countP fun t => (m t).isSome :=
      List.countP_mono_left fun x _ => himp x
    simp only [List.countP_cons] at hlength
    have hu := himp u
    rcases List.mem_cons.mp hmem with rfl | hmem
    · by_contra hnone
      simp only [hsome, hnone, if_true] at hlength
      simp at hlength
      omega
    · refine ih ?_ hmem
      split_ifs at hlength with h h'
      · omega
      · omega
      · exact absurd (hu ‹_›) h
      · omega

end Matching
