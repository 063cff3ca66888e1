import Mathlib.Data.List.Dedup
import Mathlib.Data.List.TakeWhile
import TgCurator.Analysis.Prompt

/-!
# What a rendered prompt holds

`Substitutes value template out` says that `out` is the template with each placeholder replaced
by its value and nothing else changed. `Scanner` reads the literal text of a template and the
values in the places of its placeholders, in order, and notices when they complete an
expression, be it inside a value or across a boundary (`Scanner.scan_iff`).

`render_substitutes_iff`: `render` returns the substituted template exactly when the scanner
notices nothing and each integer of the values can be printed. `render_refuses_expression_text` is
a text that is refused.
-/

namespace TgCurator

open Matching

/-! ## Characters -/

theorem isBrace_eq_false {c : Char} : isBrace c = false ↔ c ≠ '{' ∧ c ≠ '}' := by
  rw [isBrace, Bool.or_eq_false_iff, beq_eq_false_iff_ne, beq_eq_false_iff_ne]

theorem isNameChar_iff {c : Char} : isNameChar c = true ↔
    (65 ≤ c.toNat ∧ c.toNat ≤ 90) ∨ (97 ≤ c.toNat ∧ c.toNat ≤ 122) ∨ c.toNat = 95 ∨
      (48 ≤ c.toNat ∧ c.toNat ≤ 57) := by
  have hunderscore : c = '_' ↔ c.toNat = 95 := Char.ext_iff.trans UInt32.toNat_inj.symm
  have hle : ∀ {a b : Char}, a ≤ b ↔ a.toNat ≤ b.toNat := UInt32.le_iff_toNat_le
  simp only [isNameChar, isIdentifierStart, Bool.or_eq_true, Bool.and_eq_true, decide_eq_true_eq,
    beq_iff_eq, hle, hunderscore, or_assoc]
  rfl

theorem isSpace_of_isNameChar {c : Char} (h : isNameChar c = true) : isSpace c = false := by
  rw [isNameChar_iff] at h
  simp only [isSpace, Bool.or_eq_false_iff, Bool.and_eq_false_iff, decide_eq_false_iff_not,
    List.mem_cons, List.not_mem_nil, or_false]
  omega

theorem isBrace_of_isNameChar {c : Char} (h : isNameChar c = true) : isBrace c = false := by
  rw [isNameChar_iff] at h
  refine isBrace_eq_false.mpr ⟨?_, ?_⟩
  · rintro rfl
    revert h
    decide
  · rintro rfl
    revert h
    decide

theorem isBrace_of_isSpace {c : Char} (h : isSpace c = true) : isBrace c = false := by
  refine isBrace_eq_false.mpr ⟨?_, ?_⟩
  · rintro rfl
    revert h
    decide
  · rintro rfl
    revert h
    decide

/-! ## Expressions -/

theorem closingLength_eq_some {cs : List Char} {n : ℕ} : closingLength cs = some n ↔
    ∃ w rest, (∀ c ∈ w, isBrace c = false) ∧ cs = w ++ '}' :: '}' :: rest ∧ n = w.length + 2 := by
  fun_induction closingLength cs generalizing n with
  | case1 rest =>
    constructor
    · rintro ⟨⟩
      exact ⟨[], rest, by simp, rfl, rfl⟩
    · rintro ⟨w, rest', hw, heq, rfl⟩
      cases w with
      | nil => rfl
      | cons c w =>
        obtain ⟨rfl, -⟩ := List.cons.inj heq
        cases hw '}' (by simp)
  | case2 c cs hnot hbrace =>
    refine ⟨nofun, ?_⟩
    rintro ⟨w, rest, hw, heq, -⟩
    cases w with
    | nil =>
      obtain ⟨rfl, rfl⟩ := List.cons.inj heq
      exact (hnot rest rfl rfl).elim
    | cons c' w =>
      obtain ⟨rfl, -⟩ := List.cons.inj heq
      rw [hw c (by simp)] at hbrace
      cases hbrace
  | case3 c cs hnot hbrace ih =>
    rw [Option.map_eq_some_iff]
    constructor
    · rintro ⟨n, hn, rfl⟩
      obtain ⟨w, rest, hw, rfl, rfl⟩ := ih.mp hn
      refine ⟨c :: w, rest, ?_, rfl, rfl⟩
      exact List.forall_mem_cons.mpr ⟨by simpa using hbrace, hw⟩
    · rintro ⟨w, rest, hw, heq, rfl⟩
      cases w with
      | nil =>
        obtain ⟨rfl, -⟩ := List.cons.inj heq
        exact absurd rfl hbrace
      | cons c' w =>
        obtain ⟨rfl, rfl⟩ := List.cons.inj heq
        exact ⟨w.length + 2, ih.mpr ⟨w, rest, (List.forall_mem_cons.mp hw).2, rfl, rfl⟩, rfl⟩
  | case4 => simp

theorem matchExpression_eq_some {text : List Char} {u : Unit} {n : ℕ} :
    matchExpression text = some (u, n) ↔
      ∃ w rest, w ≠ [] ∧ (∀ c ∈ w, isBrace c = false) ∧
        text = '{' :: '{' :: (w ++ '}' :: '}' :: rest) ∧ n = w.length + 4 := by
  fun_cases matchExpression text with
  | case1 c cs hbrace =>
    refine ⟨nofun, ?_⟩
    rintro ⟨w, rest, hne, hw, heq, -⟩
    cases w with
    | nil => exact absurd rfl hne
    | cons c' w =>
      obtain ⟨rfl, -⟩ := List.cons.inj (List.cons.inj (List.cons.inj heq).2).2
      rw [hw c (by simp)] at hbrace
      cases hbrace
  | case2 c cs hbrace =>
    rw [Option.map_eq_some_iff]
    constructor
    · rintro ⟨n', hn', heq⟩
      obtain ⟨w, rest, hw, rfl, rfl⟩ := closingLength_eq_some.mp hn'
      obtain ⟨-, rfl⟩ := Prod.mk.inj heq
      refine ⟨c :: w, rest, List.cons_ne_nil c w, ?_, rfl, rfl⟩
      exact List.forall_mem_cons.mpr ⟨by simpa using hbrace, hw⟩
    · rintro ⟨w, rest, hne, hw, heq, rfl⟩
      cases w with
      | nil => exact absurd rfl hne
      | cons c' w =>
        obtain ⟨rfl, rfl⟩ := List.cons.inj (List.cons.inj (List.cons.inj heq).2).2
        exact ⟨w.length + 2, closingLength_eq_some.mpr
          ⟨w, rest, (List.forall_mem_cons.mp hw).2, rfl, rfl⟩, rfl⟩
  | case3 text hnot =>
    refine ⟨nofun, ?_⟩
    rintro ⟨w, rest, hne, hw, rfl, -⟩
    cases w with
    | nil => exact absurd rfl hne
    | cons c w => exact (hnot c _ rfl).elim

/-- Neither the group nor the closing braces hold an opening brace. -/
theorem getElem?_closing {w rest : List Char} (hw : ∀ c ∈ w, isBrace c = false) {j : ℕ}
    (hj : j < w.length + 2) : (w ++ '}' :: '}' :: rest)[j]? ≠ some '{' := by
  intro heq
  by_cases hlt : j < w.length
  · rw [List.getElem?_append_left hlt] at heq
    have hbrace := hw _ (List.mem_of_getElem? heq)
    cases hbrace
  · rw [List.getElem?_append_right (by omega)] at heq
    have hcases : j - w.length = 0 ∨ j - w.length = 1 := by omega
    rcases hcases with h | h
    · rw [h] at heq
      cases heq
    · rw [h] at heq
      cases heq

/-- No expression begins inside another. -/
theorem lawful_matchExpression : Lawful matchExpression where
  pos h := by
    obtain ⟨w, rest, -, -, -, rfl⟩ := matchExpression_eq_some.mp h
    omega
  le h := by
    obtain ⟨w, rest, -, -, rfl, rfl⟩ := matchExpression_eq_some.mp h
    simp only [List.length_cons, List.length_append]
    omega
  apart := by
    intro text u n k h hpos hlt
    obtain ⟨w, rest, -, hw, rfl, rfl⟩ := matchExpression_eq_some.mp h
    by_contra hsome
    obtain ⟨⟨u', n'⟩, hsome⟩ := Option.ne_none_iff_exists'.mp hsome
    obtain ⟨w', rest', -, -, heq, -⟩ := matchExpression_eq_some.mp hsome
    have hat : ∀ i < 2, ('{' :: '{' :: (w ++ '}' :: '}' :: rest))[k + i]? = some '{' := by
      intro i hi
      rw [← List.getElem?_drop, heq]
      match i, hi with
      | 0, _ => rfl
      | 1, _ => rfl
    obtain ⟨j, rfl⟩ : ∃ j, k = j + 1 := ⟨k - 1, by omega⟩
    cases j with
    | zero => exact getElem?_closing hw (Nat.succ_pos _) (hat 1 Nat.one_lt_two)
    | succ j => exact getElem?_closing hw (Nat.lt_of_add_lt_add_right hlt) (hat 0 Nat.two_pos)

/-! ## Placeholders -/

/-- A placeholder of a variable: its name between double braces, with spaces around it. -/
def Placeholder (name : String) (text : List Char) : Prop :=
  ∃ before after, (∀ c ∈ before, isSpace c = true) ∧ (∀ c ∈ after, isSpace c = true) ∧
    name.toList.head?.any isIdentifierStart = true ∧ (∀ c ∈ name.toList, isNameChar c = true) ∧
      text = '{' :: '{' :: (before ++ (name.toList ++ (after ++ ['}', '}'])))

/-- What `takeWhile` and `dropWhile` do at the end of a run. -/
theorem span_append {p : Char → Bool} {l r : List Char} (hl : ∀ c ∈ l, p c = true)
    (hr : r.head?.any p = false) : (l ++ r).takeWhile p = l ∧ (l ++ r).dropWhile p = r := by
  have htake : r.takeWhile p = [] ∧ r.dropWhile p = r := by
    cases r with
    | nil => exact ⟨rfl, rfl⟩
    | cons c r =>
      have hc : p c = false := hr
      rw [List.takeWhile_cons, List.dropWhile_cons, hc]
      exact ⟨rfl, rfl⟩
  rw [List.takeWhile_append_of_pos hl, List.dropWhile_append_of_pos hl, htake.1, htake.2,
    List.append_nil]
  exact ⟨rfl, rfl⟩

theorem matchVariable_of_placeholder {name : String} {written : List Char}
    (h : Placeholder name written) (rest : List Char) :
    matchVariable (written ++ rest) = some (name, written.length) := by
  obtain ⟨before, after, hbefore, hafter, hstart, hname, rfl⟩ := h
  obtain ⟨c, cs, hcs⟩ : ∃ c cs, name.toList = c :: cs := by
    cases hnil : name.toList with
    | nil => simp [hnil] at hstart
    | cons c cs => exact ⟨c, cs, rfl⟩
  have hspaces := span_append (r := name.toList ++ (after ++ '}' :: '}' :: rest)) hbefore (by
    rw [hcs]
    exact isSpace_of_isNameChar (hname c (by rw [hcs]; simp)))
  have hnames := span_append (r := after ++ '}' :: '}' :: rest) hname (by
    cases after with
    | nil => rfl
    | cons c after =>
      by_contra hc
      have hspace := isSpace_of_isNameChar ((Bool.not_eq_false _).mp hc)
      rw [hafter c (by simp)] at hspace
      cases hspace)
  have hspaces' := span_append (r := '}' :: '}' :: rest) hafter rfl
  have htext : '{' :: '{' :: (before ++ (name.toList ++ (after ++ ['}', '}']))) ++ rest =
      '{' :: '{' :: (before ++ (name.toList ++ (after ++ '}' :: '}' :: rest))) := by simp
  rw [htext, matchVariable, hspaces.1, hspaces.2, hnames.1, hnames.2, hspaces'.1, hspaces'.2, hcs]
  have hc : isIdentifierStart c = true := by
    rw [hcs] at hstart
    exact hstart
  change (if isIdentifierStart c = true then _ else _) = _
  rw [if_pos hc, ← hcs, String.ofList_toList, Option.some.injEq, Prod.mk.injEq]
  refine ⟨rfl, ?_⟩
  simp only [List.length_cons, List.length_append, List.length_nil]
  omega

theorem placeholder_of_matchVariable {text : List Char} {name : String} {n : ℕ} :
    matchVariable text = some (name, n) →
      ∃ written rest, Placeholder name written ∧ text = written ++ rest ∧ n = written.length := by
  fun_cases matchVariable text with
  | case1 cs before cs₁ name' cs₂ after c tail rest hclose hname hstart =>
    rintro ⟨⟩
    have hsplit : cs = before ++ (name' ++ (after ++ '}' :: '}' :: rest)) := by
      rw [← hclose, List.takeWhile_append_dropWhile, List.takeWhile_append_dropWhile,
        List.takeWhile_append_dropWhile]
    have hrun : ∀ {p : Char → Bool} {l : List Char}, ∀ c ∈ l.takeWhile p, p c = true :=
      fun _ hc => List.mem_takeWhile_imp hc
    refine ⟨'{' :: '{' :: (before ++ (name' ++ (after ++ ['}', '}']))), rest, ?_, ?_, ?_⟩
    · refine ⟨before, after, hrun, hrun, ?_, ?_, ?_⟩
      · rw [String.toList_ofList, hname]
        exact hstart
      · rw [String.toList_ofList]
        exact hrun
      · rw [String.toList_ofList]
    · rw [hsplit]
      simp
    · simp only [List.length_cons, List.length_append, List.length_nil]
      omega
  | case2 => exact nofun
  | case3 => exact nofun
  | case4 => exact nofun

/-- A placeholder is an expression. -/
theorem matchExpression_of_variable {text : List Char} {name : String} {n : ℕ}
    (h : matchVariable text = some (name, n)) : matchExpression text = some ((), n) := by
  obtain ⟨written, rest, ⟨before, after, hbefore, hafter, hstart, hname, rfl⟩, rfl, rfl⟩ :=
    placeholder_of_matchVariable h
  refine matchExpression_eq_some.mpr ⟨before ++ (name.toList ++ after), rest, ?_, ?_, ?_, ?_⟩
  · intro hnil
    rw [List.append_eq_nil_iff, List.append_eq_nil_iff] at hnil
    rw [hnil.2.1] at hstart
    cases hstart
  · intro c hc
    rw [List.mem_append, List.mem_append] at hc
    rcases hc with hc | hc | hc
    · exact isBrace_of_isSpace (hbefore c hc)
    · exact isBrace_of_isNameChar (hname c hc)
    · exact isBrace_of_isSpace (hafter c hc)
  · simp
  · simp only [List.length_cons, List.length_append, List.length_nil]
    omega

theorem lawful_matchVariable : Lawful matchVariable where
  pos h := lawful_matchExpression.pos (matchExpression_of_variable h)
  le h := lawful_matchExpression.le (matchExpression_of_variable h)
  apart := by
    intro text name n k h hpos hlt
    have hnone := lawful_matchExpression.apart (matchExpression_of_variable h) hpos hlt
    by_contra hsome
    obtain ⟨⟨name', n'⟩, hsome⟩ := Option.ne_none_iff_exists'.mp hsome
    rw [matchExpression_of_variable hsome] at hnone
    cases hnone

/-! ## Reading for expressions -/

/-- What the characters read so far can be the start of. -/
inductive Scanner
  /-- Nothing. -/
  | plain
  /-- One opening brace. -/
  | brace
  /-- Two opening braces, or more. -/
  | opened
  /-- Two opening braces and characters that are no braces. -/
  | inside
  /-- The same, and one closing brace. -/
  | closing
  /-- An expression was completed. -/
  | found
  deriving DecidableEq

namespace Scanner

/-- Read a character. -/
def step (s : Scanner) (c : Char) : Scanner :=
  match s with
  | plain => if c = '{' then brace else plain
  | brace => if c = '{' then opened else plain
  | opened => if c = '{' then opened else if c = '}' then plain else inside
  | inside => if c = '{' then brace else if c = '}' then closing else inside
  | closing => if c = '{' then brace else if c = '}' then found else plain
  | found => found

/-- Read a text. -/
def scan (s : Scanner) (text : List Char) : Scanner :=
  text.foldl step s

/-- Whether the rest of a text completes an expression. -/
def Completes : Scanner → List Char → Prop
  | plain, cs => Matching.found matchExpression cs = true
  | brace, cs => Matching.found matchExpression ('{' :: cs) = true
  | opened, cs => Matching.found matchExpression ('{' :: '{' :: cs) = true
  | inside, cs => (closingLength cs).isSome = true ∨ Matching.found matchExpression cs = true
  | closing, cs => cs.head? = some '}' ∨ Matching.found matchExpression cs = true
  | found, _ => True

theorem found_cons (c : Char) (cs : List Char) : Matching.found matchExpression (c :: cs) = true ↔
    (matchExpression (c :: cs)).isSome = true ∨ Matching.found matchExpression cs = true := by
  rw [Matching.found, List.tails_cons, List.any_cons, Bool.or_eq_true]
  rfl

/-- No expression begins at a character that is no opening brace. -/
theorem found_cons_of_ne {c : Char} (hc : c ≠ '{') (cs : List Char) :
    Matching.found matchExpression (c :: cs) = true ↔ Matching.found matchExpression cs = true := by
  have hnone : matchExpression (c :: cs) = none := by
    unfold matchExpression
    split
    · next heq => exact absurd (List.cons.inj heq).1 hc
    · rfl
  rw [found_cons, hnone]
  simp

theorem isSome_matchExpression (c : Char) (cs : List Char) :
    (matchExpression ('{' :: '{' :: c :: cs)).isSome = true ↔
      isBrace c = false ∧ (closingLength cs).isSome = true := by
  rw [matchExpression]
  cases isBrace c <;> simp

theorem isSome_closingLength (c : Char) (cs : List Char) :
    (closingLength (c :: cs)).isSome = true ↔
      (c = '}' ∧ cs.head? = some '}') ∨ (isBrace c = false ∧ (closingLength cs).isSome = true) := by
  by_cases hclose : c = '}' ∧ cs.head? = some '}'
  · obtain ⟨rfl, hhead⟩ := hclose
    obtain ⟨cs, rfl⟩ := List.head?_eq_some_iff.mp hhead
    simp [closingLength]
  · have hrest : closingLength (c :: cs) =
        if isBrace c then none else (closingLength cs).map (· + 1) := by
      rw [closingLength]
      rintro cs' rfl rfl
      exact hclose ⟨rfl, rfl⟩
    rw [hrest]
    cases isBrace c <;> simp [hclose]

/-- A character less is left to read. -/
theorem completes_step (s : Scanner) (c : Char) (cs : List Char) :
    s.Completes (c :: cs) ↔ (s.step c).Completes cs := by
  have hskip : c ≠ '{' → (Matching.found matchExpression ('{' :: c :: cs) = true ↔
      Matching.found matchExpression cs = true) := by
    intro hc
    have hnone : matchExpression ('{' :: c :: cs) = none := by
      unfold matchExpression
      split
      · next heq => exact absurd (List.cons.inj (List.cons.inj heq).2).1 hc
      · rfl
    rw [found_cons, hnone, found_cons_of_ne hc]
    simp
  cases s with
  | plain =>
    rw [step]
    split_ifs with hc
    · rw [hc]
      rfl
    · exact found_cons_of_ne hc cs
  | brace =>
    rw [step]
    split_ifs with hc
    · rw [hc]
      rfl
    · exact hskip hc
  | opened =>
    rw [step, Completes, found_cons, isSome_matchExpression]
    split_ifs with hc hc'
    · rw [hc]
      simp [Completes, isBrace]
    · rw [hskip hc, hc']
      simp [Completes, isBrace]
    · rw [hskip hc, isBrace_eq_false.mpr ⟨hc, hc'⟩]
      simp [Completes]
  | inside =>
    rw [step, Completes, isSome_closingLength]
    split_ifs with hc hc'
    · rw [hc]
      simp [Completes, isBrace]
    · rw [hc', found_cons_of_ne (by decide)]
      simp [Completes, isBrace]
    · rw [found_cons_of_ne hc, isBrace_eq_false.mpr ⟨hc, hc'⟩]
      simp [Completes, hc']
  | closing =>
    rw [step, Completes, List.head?_cons, Option.some.injEq]
    split_ifs with hc hc'
    · rw [hc]
      simp [Completes]
    · simp [Completes, hc']
    · rw [found_cons_of_ne hc]
      simp [Completes, hc']
  | found => exact Iff.rfl

theorem completes_scan (s : Scanner) (cs : List Char) :
    s.Completes cs ↔ s.scan cs = found := by
  induction cs generalizing s with
  | nil => cases s <;> simp [Completes, scan, Matching.found, matchExpression, closingLength]
  | cons c cs ih => exact (completes_step s c cs).trans (ih (s.step c))

/-- Reading a text from its start completes an expression exactly when the text has one. -/
theorem scan_iff (cs : List Char) :
    plain.scan cs = found ↔ Matching.found matchExpression cs = true :=
  (completes_scan plain cs).symm

end Scanner

/-! ## Templates -/

/-- The text in the place of a token of a template. -/
def expandToken (value : String → String) : Token Char String → List Char
  | .plain c => [c]
  | .hit name _ => (value name).toList

/-- No expression is completed by the literal text of a template and the values in the places
of its placeholders, read in order. -/
def ExpressionFree (value : String → String) (template : String) : Prop :=
  (tokens matchVariable 0 template.toList).foldl
    (fun s token => s.scan (expandToken value token)) Scanner.plain ≠ .found

/-- A text is a template with each placeholder replaced by its value. -/
inductive Substitutes (value : String → String) : List Char → List Char → Prop
  | nil : Substitutes value [] []
  | literal {c : Char} {template out : List Char}
      (hc : ∀ name written rest, Placeholder name written → c :: template ≠ written ++ rest)
      (h : Substitutes value template out) : Substitutes value (c :: template) (c :: out)
  | placeholder {name : String} {written template out : List Char}
      (hname : Placeholder name written) (h : Substitutes value template out) :
      Substitutes value (written ++ template) ((value name).toList ++ out)

variable {value : String → String}

theorem matchVariable_eq_none {text : List Char} : matchVariable text = none ↔
    ∀ name written rest, Placeholder name written → text ≠ written ++ rest := by
  constructor
  · rintro hnone name written rest hname rfl
    rw [matchVariable_of_placeholder hname rest] at hnone
    cases hnone
  · intro h
    by_contra hsome
    obtain ⟨⟨name, n⟩, hsome⟩ := Option.ne_none_iff_exists'.mp hsome
    obtain ⟨written, rest, hname, htext, -⟩ := placeholder_of_matchVariable hsome
    exact h name written rest hname htext

/-- The template with the values in it. -/
theorem substitutes_iff (value : String → String) (template out : List Char) :
    Substitutes value template out ↔
      out = (tokens matchVariable 0 template).flatMap (expandToken value) := by
  constructor
  · intro h
    induction h with
    | nil => rfl
    | @literal c template out hc _ ih =>
      rw [tokens_of_none (matchVariable_eq_none.mpr hc), List.flatMap_cons, ← ih]
      rfl
    | @placeholder name written template out hname _ ih =>
      rw [lawful_matchVariable.tokens_of_some (matchVariable_of_placeholder hname template),
        List.flatMap_cons, List.drop_left, ← ih]
      rfl
  · rintro rfl
    induction template using lawful_matchVariable.induction with
    | nil => exact .nil
    | plain c cs hnone ih =>
      rw [tokens_of_none hnone]
      exact .literal (matchVariable_eq_none.mp hnone) ih
    | hit text name n hsome ih =>
      rw [lawful_matchVariable.tokens_of_some hsome]
      obtain ⟨written, rest, hname, rfl, rfl⟩ := placeholder_of_matchVariable hsome
      rw [List.drop_left] at ih ⊢
      exact .placeholder hname ih

theorem expressionFree_iff (value : String → String) (template : String) :
    ExpressionFree value template ↔ found matchExpression
      ((tokens matchVariable 0 template.toList).flatMap (expandToken value)) = false := by
  rw [← Bool.not_eq_true, ← Scanner.scan_iff, Scanner.scan, List.foldl_flatMap]
  rfl

/-! ## The constructor -/

theorem sortedDifference_isEmpty {left right : List String} :
    (sortedDifference left right).isEmpty = true ↔ ∀ s ∈ left, s ∈ right := by
  rw [List.isEmpty_iff, sortedDifference, ← List.length_eq_zero_iff, List.length_insertionSort,
    List.length_eq_zero_iff, List.filter_eq_nil_iff]
  simp only [List.mem_dedup, decide_not, Bool.not_eq_true', decide_eq_false_iff_not, not_not]

theorem referencedIn_eq_ok {template : String} {names : List String}
    (h : referencedIn template = .ok names) : names = captures matchVariable template.toList ∧
      (captures matchExpression template.toList).length =
        (captures matchVariable template.toList).length := by
  unfold referencedIn at h
  obtain ⟨-, h⟩ := seq_eq_ok.mp h
  obtain ⟨hlength, h⟩ := seq_eq_ok.mp h
  exact ⟨(Except.ok.inj h).symm, of_decide_eq_true (ensure_eq_ok.mp hlength)⟩

/-- Each expression of a template is a placeholder of a declared variable. -/
structure WellFormed (declared : List String) (template : String) : Prop where
  placeholder : ∀ text n, text <:+ template.toList → matchExpression text = some ((), n) →
    ∃ name, matchVariable text = some (name, n)
  declared : ∀ name ∈ captures matchVariable template.toList, name ∈ declared

theorem wellFormed_of_referencedIn {template : String} {names declared : List String}
    (h : referencedIn template = .ok names) (hnames : ∀ name ∈ names, name ∈ declared) :
    WellFormed declared template := by
  obtain ⟨rfl, hlength⟩ := referencedIn_eq_ok h
  refine ⟨fun text n htext hsome => ?_, hnames⟩
  have himp : ∀ t, (matchVariable t).isSome = true → (matchExpression t).isSome = true := by
    intro t ht
    obtain ⟨⟨name, n⟩, ht⟩ := Option.isSome_iff_exists.mp ht
    rw [matchExpression_of_variable ht]
    rfl
  have hvariable := isSome_of_length_eq lawful_matchExpression lawful_matchVariable himp hlength
    htext (by rw [hsome]; rfl)
  obtain ⟨⟨name, n'⟩, hvariable⟩ := Option.isSome_iff_exists.mp hvariable
  rw [matchExpression_of_variable hvariable] at hsome
  obtain ⟨-, rfl⟩ := Prod.mk.inj (Option.some.inj hsome)
  exact ⟨name, hvariable⟩

namespace PromptTemplate

variable {versionId promptTemplateId systemPrompt userPromptTemplate : String}
  {versionNumber : ℤ} {declaredVariables : List String} {status : VersionStatus}
  {template : PromptTemplate} {floatText : ℚ → String} {values : Dict String Json}

/-- The templates that the constructor accepts. -/
theorem create_wellFormed (h : create versionId promptTemplateId versionNumber systemPrompt
      userPromptTemplate declaredVariables status = .ok template) :
    WellFormed template.declaredVariables template.systemPrompt ∧
      WellFormed template.declaredVariables template.userPromptTemplate := by
  unfold create at h
  obtain ⟨versionId', -, h⟩ := bind_eq_ok.mp h
  obtain ⟨promptTemplateId', -, h⟩ := bind_eq_ok.mp h
  obtain ⟨-, h⟩ := seq_eq_ok.mp h
  obtain ⟨-, h⟩ := seq_eq_ok.mp h
  obtain ⟨-, h⟩ := seq_eq_ok.mp h
  obtain ⟨-, h⟩ := seq_eq_ok.mp h
  obtain ⟨referenced, hreferenced, h⟩ := bind_eq_ok.mp h
  obtain ⟨hexact, h⟩ := seq_eq_ok.mp h
  obtain rfl := Except.ok.inj h
  unfold referencedVariables at hreferenced
  obtain ⟨system, hsystem, hreferenced⟩ := bind_eq_ok.mp hreferenced
  obtain ⟨user, huser, hreferenced⟩ := bind_eq_ok.mp hreferenced
  obtain ⟨-, hreferenced⟩ := seq_eq_ok.mp hreferenced
  obtain rfl := Except.ok.inj hreferenced
  have hmissing := (Bool.and_eq_true_iff.mp (ensure_eq_ok.mp hexact)).1
  rw [sortedDifference_isEmpty] at hmissing
  simp only [List.mem_dedup, List.mem_append] at hmissing
  exact ⟨wellFormed_of_referencedIn hsystem fun name hname => hmissing name (.inl hname),
    wellFormed_of_referencedIn huser fun name hname => hmissing name (.inr hname)⟩

/-! ## Rendering -/

/-- The text of a variable: a string as it is, another value as canonical JSON. -/
def valueText (floatText : ℚ → String) (values : Dict String Json) (name : String) : String :=
  match values.lookup name with
  | some (.str s) => s
  | some value => String.ofList (jsonText floatText value.canonical)
  | none => ""

theorem renderValue_eq {name : String} {value : Json} (hvalue : values.lookup name = some value)
    (hdumpable : value.isDumpable = true) :
    renderValue floatText value = .ok (valueText floatText values name) := by
  rw [valueText, hvalue]
  cases value with
  | str s => rfl
  | _ => exact canonicalJson_of_isDumpable hdumpable

/-- A value that is rendered has no integer that cannot be printed. -/
theorem allNumbers_isPrintable_of_renderValue {value : Json} {text : String}
    (h : renderValue floatText value = .ok text) :
    value.allNumbers Number.isPrintable = true := by
  have hcanonical : ∀ value : Json, canonicalJson floatText value = .ok text →
      value.allNumbers Number.isPrintable = true := by
    intro value h
    exact (isDumpable_iff.mp (ensure_eq_ok.mp (seq_eq_ok.mp h).1)).2
  cases value with
  | str s => rw [Json.allNumbers] <;> simp
  | _ => exact hcanonical _ h

/-- A comprehension whose items all return. -/
theorem mapM_eq_map {α β : Type} {f : α → Except PyError β} {g : α → β} {l : List α}
    (h : ∀ x ∈ l, f x = .ok (g x)) : l.mapM f = .ok (l.map g) := by
  rw [mapM_eq_ok, List.forall₂_map_right_iff, List.forall₂_same]
  exact h

/-- The values of the variables. -/
def replacements (template : PromptTemplate) (value : String → String) : Dict String String :=
  template.declaredVariables.map fun name => (name, value name)

theorem lookup_replacements {name : String} {value : String → String}
    (h : name ∈ template.declaredVariables) :
    (template.replacements value).lookup name = some (value name) := by
  unfold replacements
  generalize template.declaredVariables = names at h ⊢
  induction names with
  | nil => cases h
  | cons name' names ih =>
    rw [List.map_cons, Dict.lookup_cons]
    dsimp only
    split_ifs with hname
    · rw [hname]
    · exact ih ((List.mem_cons.mp h).resolve_left (Ne.symm hname))

/-- The replacements that `render` makes. -/
theorem mapM_renderValue (hexact : ∀ name, name ∈ values.keys ↔ name ∈ template.declaredVariables)
    (hdumpable : ∀ name value, values.lookup name = some value → value.isDumpable = true) :
    template.declaredVariables.mapM (replacementOf floatText values) =
      .ok (template.replacements (valueText floatText values)) := by
  refine mapM_eq_map fun name hname => ?_
  obtain ⟨value, hvalue⟩ := Option.ne_none_iff_exists'.mp
    (mt Dict.lookup_eq_none.mp (not_not.mpr ((hexact name).mpr hname)))
  have hrender : renderValue floatText value = .ok (valueText floatText values name) :=
    renderValue_eq hvalue (hdumpable name value hvalue)
  rw [replacementOf, hvalue]
  dsimp only
  rw [hrender]
  rfl

theorem renderTemplate_eq {text : String} (h : WellFormed template.declaredVariables text)
    (value : String → String) :
    renderTemplate text (template.replacements value) = (do
      let rendered := (tokens matchVariable 0 text.toList).flatMap (expandToken value)
      ensure (!found matchExpression rendered) "prompt contains an unresolved placeholder"
      return String.ofList rendered) := by
  unfold renderTemplate
  have hparts : (tokens matchVariable 0 text.toList).mapM
      (replaceToken (template.replacements value)) =
        .ok ((tokens matchVariable 0 text.toList).map (expandToken value)) := by
    refine mapM_eq_map fun token htoken => ?_
    cases token with
    | plain c => rfl
    | hit name written =>
      have hname := h.declared name (List.mem_filterMap.mpr ⟨_, htoken, rfl⟩)
      rw [replaceToken, lookup_replacements hname]
      rfl
  rw [hparts, List.flatMap_def]
  rfl

theorem render_eq
    (hexact : ∀ name, name ∈ values.keys ↔ name ∈ template.declaredVariables)
    (hdumpable : ∀ name value, values.lookup name = some value → value.isDumpable = true) :
    template.render floatText values = (do
      let replacements := template.replacements (valueText floatText values)
      let systemPrompt ← renderTemplate template.systemPrompt replacements
      let userPrompt ← renderTemplate template.userPromptTemplate replacements
      return { systemPrompt, userPrompt }) := by
  have hkeys : ((sortedDifference template.declaredVariables values.keys).isEmpty &&
      (sortedDifference values.keys template.declaredVariables).isEmpty) = true := by
    rw [Bool.and_eq_true, sortedDifference_isEmpty, sortedDifference_isEmpty]
    exact ⟨fun name => (hexact name).mpr, fun name => (hexact name).mp⟩
  unfold render
  dsimp only
  rw [ensure_eq_ok.mpr hkeys, mapM_renderValue hexact hdumpable]
  rfl

/-- The prompts are the templates with each placeholder replaced by its value. -/
def Substituted (template : PromptTemplate) (value : String → String) (rendered : RenderedPrompt) :
    Prop :=
  (∀ out, Substitutes value template.systemPrompt.toList out ↔
    out = rendered.systemPrompt.toList) ∧
  ∀ out, Substitutes value template.userPromptTemplate.toList out ↔
    out = rendered.userPrompt.toList

/-- A prompt is rendered only if each integer of the values can be printed. -/
theorem printable_of_render {rendered : RenderedPrompt}
    (hexact : ∀ name, name ∈ values.keys ↔ name ∈ template.declaredVariables)
    (h : template.render floatText values = .ok rendered) {name : String} {value : Json}
    (hvalue : values.lookup name = some value) :
    value.allNumbers Number.isPrintable = true := by
  unfold render at h
  obtain ⟨-, h⟩ := seq_eq_ok.mp h
  obtain ⟨replacements, hreplacements, -⟩ := bind_eq_ok.mp h
  have hname := (hexact name).mp (Dict.mem_keys.mpr ⟨value, Dict.mem_of_lookup hvalue⟩)
  obtain ⟨item, -, hitem⟩ := exists_right_of_mem (mapM_eq_ok.mp hreplacements) hname
  rw [replacementOf, hvalue] at hitem
  obtain ⟨text, htext, -⟩ := bind_eq_ok.mp hitem
  exact allNumbers_isPrintable_of_renderValue htext

/-- `render` on values that canonical JSON can hold. -/
theorem render_dumpable_iff (hcreate : create versionId promptTemplateId versionNumber systemPrompt
      userPromptTemplate declaredVariables status = .ok template)
    (hexact : ∀ name, name ∈ values.keys ↔ name ∈ template.declaredVariables)
    (hdumpable : ∀ name value, values.lookup name = some value → value.isDumpable = true) :
    (∃ rendered, template.render floatText values = .ok rendered ∧
      template.Substituted (valueText floatText values) rendered) ↔
    ExpressionFree (valueText floatText values) template.systemPrompt ∧
      ExpressionFree (valueText floatText values) template.userPromptTemplate := by
  obtain ⟨hsystem, huser⟩ := create_wellFormed hcreate
  rw [expressionFree_iff, expressionFree_iff, render_eq hexact hdumpable]
  unfold Substituted
  simp only [substitutes_iff]
  rw [renderTemplate_eq hsystem, renderTemplate_eq huser]
  generalize (tokens matchVariable 0 template.systemPrompt.toList).flatMap _ = system
  generalize (tokens matchVariable 0 template.userPromptTemplate.toList).flatMap _ = user
  constructor
  · rintro ⟨rendered, hrendered, -⟩
    obtain ⟨systemText, hsystemText, hrendered⟩ := bind_eq_ok.mp hrendered
    obtain ⟨userText, huserText, -⟩ := bind_eq_ok.mp hrendered
    obtain ⟨hsystemFree, -⟩ := seq_eq_ok.mp hsystemText
    obtain ⟨huserFree, -⟩ := seq_eq_ok.mp huserText
    rw [ensure_eq_ok, Bool.not_eq_true'] at hsystemFree huserFree
    exact ⟨hsystemFree, huserFree⟩
  · rintro ⟨hsystemFree, huserFree⟩
    refine ⟨⟨String.ofList system, String.ofList user⟩, ?_, ?_, ?_⟩
    · dsimp only
      rw [hsystemFree, huserFree]
      rfl
    · intro out
      rw [String.toList_ofList]
    · intro out
      rw [String.toList_ofList]

/-- For every template that the constructor accepts and values for exactly the declared
variables that are strings or finite: `render` returns the templates with each placeholder
replaced by its value exactly when no value holds an integer too long to be printed and the
literal text and the values, read in order, complete no expression. -/
theorem render_substitutes_iff (floatText : ℚ → String)
    (h : create versionId promptTemplateId versionNumber systemPrompt userPromptTemplate
      declaredVariables status = .ok template)
    (hexact : ∀ name, name ∈ values.keys ↔ name ∈ template.declaredVariables)
    (hfinite : ∀ e ∈ values, e.2.allFinite = true) :
    (∃ rendered, template.render floatText values = .ok rendered ∧
      template.Substituted (valueText floatText values) rendered) ↔
    (∀ name value, values.lookup name = some value →
        value.allNumbers Number.isPrintable = true) ∧
      ExpressionFree (valueText floatText values) template.systemPrompt ∧
      ExpressionFree (valueText floatText values) template.userPromptTemplate := by
  have hdumpable : (∀ name value, values.lookup name = some value →
      value.allNumbers Number.isPrintable = true) →
      ∀ name value, values.lookup name = some value → value.isDumpable = true :=
    fun hprint name value hvalue => isDumpable_iff.mpr
      ⟨hfinite _ (Dict.mem_of_lookup hvalue), hprint name value hvalue⟩
  constructor
  · rintro ⟨rendered, hrendered, hsubstituted⟩
    have hprint : ∀ name value, values.lookup name = some value →
        value.allNumbers Number.isPrintable = true :=
      fun _ _ hvalue => printable_of_render hexact hrendered hvalue
    exact ⟨hprint, (render_dumpable_iff h hexact (hdumpable hprint)).mp
      ⟨rendered, hrendered, hsubstituted⟩⟩
  · rintro ⟨hprint, hfree⟩
    exact (render_dumpable_iff h hexact (hdumpable hprint)).mpr hfree

/-- A template with one placeholder. -/
def messagePrompt : PromptTemplate where
  status := .published
  versionId := "v1"
  promptTemplateId := "p1"
  versionNumber := 1
  systemPrompt := "Label the post."
  userPromptTemplate := "Post: {{ message_text }}"
  declaredVariables := ["message_text"]

/-- `render_substitutes_iff` at a text with braces. -/
theorem render_substitutes_iff_braces :
    ∃ rendered, messagePrompt.render (fun _ => "") [("message_text", .str "\x7bhello\x7d\x7d")] =
        .ok rendered ∧
      messagePrompt.Substituted (valueText (fun _ => "") [("message_text", .str "\x7bhello\x7d\x7d")])
        rendered := by
  have hcreate : create "v1" "p1" 1 "Label the post." "Post: {{ message_text }}" ["message_text"]
      .published = .ok messagePrompt := rfl
  refine (render_substitutes_iff (fun _ => "") hcreate ?_ ?_).mpr ⟨?_, ?_, ?_⟩
  · intro name
    rfl
  · decide
  · intro name value hvalue
    obtain ⟨-, rfl⟩ := Prod.mk.inj (List.mem_singleton.mp (Dict.mem_of_lookup hvalue))
    rfl
  · unfold ExpressionFree
    decide +kernel
  · unfold ExpressionFree
    decide +kernel

/-- A text that holds an expression is refused. -/
theorem render_refuses_expression_text :
    create "v1" "p1" 1 "Label the post." "Post: {{ message_text }}" ["message_text"]
        .published = .ok messagePrompt ∧
      messagePrompt.render (fun _ => "") [("message_text", .str "see {{ x }}")] =
        .error (.domainValidation "prompt contains an unresolved placeholder" []) :=
  ⟨rfl, by decide +kernel⟩

end PromptTemplate

end TgCurator
