import TgCurator.JsonText

/-!
# The strings in a JSON text

A character is read back from its escape (`readChar_escapeChar`), so a string is told by its text
even when more text follows (`quote_append_inj`), and a dictionary of strings by the text of its
canonical form (`perm_of_jsonText_canonical`).
-/

namespace TgCurator

/-! ## Characters -/

/-- The value of a hexadecimal digit. -/
def hexValue (c : Char) : ℕ :=
  if c.toNat < 58 then c.toNat - 48 else c.toNat - 87

/-- The UTF-16 code unit of four digits. -/
def codeUnit (a b c d : Char) : ℕ :=
  hexValue a * 4096 + hexValue b * 256 + hexValue c * 16 + hexValue d

/-- The character of a short escape. -/
def shortEscape (c : Char) : Char :=
  match c with
  | 'n' => '\n'
  | 'r' => '\r'
  | 't' => '\t'
  | 'b' => '\x08'
  | 'f' => '\x0c'
  | c => c

/-- The character of a surrogate pair whose first half has been read. -/
def readLow (high : ℕ) : List Char → Option (Char × List Char)
  | '\\' :: 'u' :: a :: b :: c :: d :: text =>
    some (Char.ofNat (0x10000 + high * 0x400 + (codeUnit a b c d - 0xdc00)), text)
  | _ => none

/-- The first character of a text inside a JSON string, and the text after it. -/
def readChar : List Char → Option (Char × List Char)
  | '\\' :: 'u' :: a :: b :: c :: d :: text =>
    if 0xd800 ≤ codeUnit a b c d ∧ codeUnit a b c d < 0xdc00 then
      readLow (codeUnit a b c d - 0xd800) text
    else some (Char.ofNat (codeUnit a b c d), text)
  | '\\' :: c :: text => some (shortEscape c, text)
  | c :: text => some (c, text)
  | [] => none

theorem hexValue_hexDigit : ∀ n < 16, hexValue (hexDigit n) = n := by
  decide

theorem codeUnit_hexDigit {n : ℕ} (h : n < 0x10000) :
    codeUnit (hexDigit (n / 4096 % 16)) (hexDigit (n / 256 % 16)) (hexDigit (n / 16 % 16))
      (hexDigit (n % 16)) = n := by
  have hdigit : ∀ m, hexValue (hexDigit (m % 16)) = m % 16 :=
    fun m => hexValue_hexDigit _ (Nat.mod_lt m (by omega))
  unfold codeUnit
  rw [hdigit, hdigit, hdigit, hdigit]
  omega

theorem readChar_of_ne {c : Char} (h : c ≠ '\\') (text : List Char) :
    readChar (c :: text) = some (c, text) := by
  unfold readChar
  split
  · exact absurd (List.cons.inj ‹_›).1 h
  · exact absurd (List.cons.inj ‹_›).1 h
  · obtain ⟨rfl, rfl⟩ := List.cons.inj ‹_›
    rfl
  · cases ‹c :: text = []›

/-- A character outside the surrogates and the upper planes. -/
theorem readChar_escapeUnit {n : ℕ} (h : n < 0xd800 ∨ 0xdfff < n) (hn : n < 0x10000)
    (text : List Char) : readChar (escapeUnit n ++ text) = some (Char.ofNat n, text) := by
  have hunit := codeUnit_hexDigit hn
  simp only [escapeUnit, List.map_cons, List.map_nil, List.cons_append, List.nil_append]
  rw [readChar, hunit, if_neg (by omega)]

/-- A surrogate pair. -/
theorem readChar_surrogates {high low : ℕ} (hhigh : high < 0x400) (hlow : low < 0x400)
    (text : List Char) :
    readChar (escapeUnit (0xd800 + high) ++ (escapeUnit (0xdc00 + low) ++ text)) =
      some (Char.ofNat (0x10000 + high * 0x400 + low), text) := by
  have hunit : _ = 0xd800 + high := codeUnit_hexDigit (by omega)
  have hunit' : _ = 0xdc00 + low := codeUnit_hexDigit (by omega)
  simp only [escapeUnit, List.map_cons, List.map_nil, List.cons_append, List.nil_append]
  rw [readChar, hunit, if_pos (by omega), readLow, hunit', Nat.add_sub_cancel_left,
    Nat.add_sub_cancel_left]

theorem toNat_not_surrogate (c : Char) : c.toNat < 0xd800 ∨ 0xdfff < c.toNat := by
  rcases c.valid with h | h
  · exact .inl h
  · exact .inr h.1

theorem toNat_lt (c : Char) : c.toNat < 0x110000 := by
  rcases c.valid with h | h
  · exact h.trans (by omega)
  · exact h.2

/-- A character is read back from its escape. -/
theorem readChar_escapeChar (c : Char) (text : List Char) :
    readChar (escapeChar c ++ text) = some (c, text) := by
  unfold escapeChar
  split
  case h_8 hslash _ _ _ _ _ =>
    have hlt := toNat_lt c
    split_ifs with hplain hbasic
    · exact readChar_of_ne hslash text
    · rw [readChar_escapeUnit (toNat_not_surrogate c) hbasic, Char.ofNat_toNat]
    · have hnat : 0x10000 + (c.toNat - 0x10000) / 0x400 * 0x400 + (c.toNat - 0x10000) % 0x400 =
          c.toNat := by omega
      rw [List.append_assoc, readChar_surrogates (by omega) (by omega), hnat, Char.ofNat_toNat]
  all_goals rfl

/-! ## Strings -/

theorem escapeChar_ne_quote (c : Char) (text text' : List Char) :
    escapeChar c ++ text ≠ '"' :: text' := by
  intro h
  have hread := readChar_escapeChar c text
  rw [h, readChar_of_ne (by decide)] at hread
  obtain ⟨rfl, -⟩ := Prod.mk.inj (Option.some.inj hread)
  cases h

/-- Escaped characters up to the closing quote are told by the text. -/
theorem flatMap_escapeChar_inj {cs ds text text' : List Char}
    (h : cs.flatMap escapeChar ++ '"' :: text = ds.flatMap escapeChar ++ '"' :: text') :
    cs = ds ∧ text = text' := by
  induction cs generalizing ds with
  | nil =>
    cases ds with
    | nil => exact ⟨rfl, (List.cons.inj h).2⟩
    | cons d ds =>
      rw [List.flatMap_cons, List.append_assoc] at h
      exact absurd h.symm (escapeChar_ne_quote d _ text)
  | cons c cs ih =>
    rw [List.flatMap_cons, List.append_assoc] at h
    cases ds with
    | nil => exact absurd h (escapeChar_ne_quote c _ text')
    | cons d ds =>
      have hread := readChar_escapeChar c (cs.flatMap escapeChar ++ '"' :: text)
      rw [h, List.flatMap_cons, List.append_assoc, readChar_escapeChar] at hread
      obtain ⟨rfl, hrest⟩ := Prod.mk.inj (Option.some.inj hread)
      obtain ⟨rfl, htext⟩ := ih hrest.symm
      exact ⟨rfl, htext⟩

/-- A string is told by its text, even when more text follows. -/
theorem quote_append_inj {s t : String} {text text' : List Char}
    (h : quote s ++ text = quote t ++ text') : s = t ∧ text = text' := by
  simp only [quote, List.cons_append, List.append_assoc, List.nil_append] at h
  obtain ⟨hlist, htext⟩ := flatMap_escapeChar_inj (List.cons.inj h).2
  exact ⟨String.toList_inj.mp hlist, htext⟩

/-! ## Dictionaries of strings -/

/-- The items of a dictionary of strings. -/
def stringEntries (entries : List (String × String)) : List (String × Json) :=
  entries.map fun e => (e.1, .str e.2)

/-- The text of an item. -/
def itemText (e : String × String) : List Char :=
  quote e.1 ++ ':' :: quote e.2

theorem entryTexts_stringEntries (floatText : ℚ → String) (entries : List (String × String)) :
    entryTexts floatText (stringEntries entries) = entries.map itemText := by
  induction entries with
  | nil => rfl
  | cons e entries ih =>
    rw [stringEntries, List.map_cons, List.map_cons, ← ih, entryTexts, jsonText]
    rfl

theorem intercalate_cons_eq {α : Type*} (sep x : List α) (xs : List (List α)) :
    List.intercalate sep (x :: xs) = x ++ xs.flatMap (sep ++ ·) := by
  induction xs generalizing x with
  | nil => simp [List.intercalate]
  | cons y ys ih =>
    rw [List.intercalate_cons_cons, ih, List.flatMap_cons, List.append_assoc, List.append_assoc]

theorem itemText_append_inj {e e' : String × String} {text text' : List Char}
    (h : itemText e ++ text = itemText e' ++ text') : e = e' ∧ text = text' := by
  rw [itemText, itemText, List.append_assoc, List.append_assoc] at h
  obtain ⟨hkey, hvalue⟩ := quote_append_inj h
  obtain ⟨hvalue, htext⟩ := quote_append_inj (List.cons.inj hvalue).2
  exact ⟨Prod.ext hkey hvalue, htext⟩

/-- The items that follow an item. -/
theorem moreItems_inj {entries entries' : List (String × String)}
    (h : (entries.map itemText).flatMap ([','] ++ ·) ++ ['}'] =
      (entries'.map itemText).flatMap ([','] ++ ·) ++ ['}']) : entries = entries' := by
  induction entries generalizing entries' with
  | nil =>
    cases entries' with
    | nil => rfl
    | cons e' entries' => cases (List.cons.inj h).1
  | cons e entries ih =>
    cases entries' with
    | nil => cases (List.cons.inj h).1
    | cons e' entries' =>
      simp only [List.map_cons, List.flatMap_cons, List.append_assoc] at h
      obtain ⟨rfl, hrest⟩ := itemText_append_inj (List.append_cancel_left h)
      rw [ih hrest]

/-- A dictionary of strings is told by its text. -/
theorem jsonText_stringEntries_inj {floatText : ℚ → String}
    {entries entries' : List (String × String)}
    (h : jsonText floatText (.obj (stringEntries entries)) =
      jsonText floatText (.obj (stringEntries entries'))) : entries = entries' := by
  simp only [jsonText, entryTexts_stringEntries] at h
  replace h := (List.cons.inj h).2
  cases entries with
  | nil =>
    cases entries' with
    | nil => rfl
    | cons e' entries' =>
      rw [List.map_cons, intercalate_cons_eq] at h
      cases (List.cons.inj h).1
  | cons e entries =>
    rw [List.map_cons, intercalate_cons_eq, List.append_assoc] at h
    cases entries' with
    | nil => cases (List.cons.inj h).1
    | cons e' entries' =>
      rw [List.map_cons, intercalate_cons_eq, List.append_assoc] at h
      obtain ⟨rfl, hrest⟩ := itemText_append_inj h
      rw [moreItems_inj hrest]

/-- The items of a dictionary of strings in key order. -/
theorem canonical_stringEntries (entries : List (String × String)) :
    (Json.obj (stringEntries entries)).canonical =
      .obj (stringEntries (entries.insertionSort fun e e' => e.1 ≤ e'.1)) := by
  have hmap : (stringEntries entries).map (fun e => (e.1, Json.canonical e.2)) =
      stringEntries entries := by
    simp only [stringEntries, List.map_map, Function.comp_def, Json.canonical]
  rw [Json.canonical_obj, Json.canonicalEntries, hmap, stringEntries, stringEntries]
  exact congrArg Json.obj (List.map_insertionSort (fun e e' : String × String => e.1 ≤ e'.1)
    Json.KeyLE (fun e => (e.1, Json.str e.2)) entries fun _ _ _ _ => Iff.rfl).symm

/-- The items of a dictionary of strings are told by the text of its canonical form. -/
theorem perm_of_jsonText_canonical {floatText : ℚ → String}
    {entries entries' : List (String × String)}
    (h : jsonText floatText (Json.obj (stringEntries entries)).canonical =
      jsonText floatText (Json.obj (stringEntries entries')).canonical) :
    entries.Perm entries' := by
  rw [canonical_stringEntries, canonical_stringEntries] at h
  have hsorted := jsonText_stringEntries_inj h
  have hperm := (List.perm_insertionSort (fun e e' => e.1 ≤ e'.1) entries).symm
  rw [hsorted] at hperm
  exact hperm.trans (List.perm_insertionSort _ _)

end TgCurator
