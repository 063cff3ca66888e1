import TgCurator.Shared

/-!
# The text of a JSON value

`json.dumps` with sorted keys, without spaces, and with escapes for the characters outside
ASCII. The text of a finite float, `float.__repr__`, is a parameter.
-/

namespace TgCurator

/-- A hexadecimal digit. -/
def hexDigit (n : ℕ) : Char :=
  Char.ofNat (if n < 10 then 48 + n else 87 + n)

/-- The escape of a UTF-16 code unit. -/
def escapeUnit (n : ℕ) : List Char :=
  '\\' :: 'u' :: [n / 4096 % 16, n / 256 % 16, n / 16 % 16, n % 16].map hexDigit

/-- A character in a JSON string. -/
def escapeChar (c : Char) : List Char :=
  match c with
  | '"' => ['\\', '"']
  | '\\' => ['\\', '\\']
  | '\n' => ['\\', 'n']
  | '\r' => ['\\', 'r']
  | '\t' => ['\\', 't']
  | '\x08' => ['\\', 'b']
  | '\x0c' => ['\\', 'f']
  | _ =>
    if 0x20 ≤ c.toNat ∧ c.toNat ≤ 0x7e then [c]
    else if c.toNat < 0x10000 then escapeUnit c.toNat
    else
      -- Characters beyond the basic plane are a surrogate pair.
      escapeUnit (0xd800 + (c.toNat - 0x10000) / 0x400) ++
        escapeUnit (0xdc00 + (c.toNat - 0x10000) % 0x400)

/-- A JSON string. -/
def quote (s : String) : List Char :=
  '"' :: s.toList.flatMap escapeChar ++ ['"']

/-- A finite number. -/
def numberText (floatText : ℚ → String) : Number → List Char
  | .int n => (toString n).toList
  | .float x => (floatText x).toList
  | _ => []

mutual

/-- The text of a value whose dictionaries are in key order. -/
def jsonText (floatText : ℚ → String) : Json → List Char
  | .null => "null".toList
  | .bool b => (if b then "true" else "false").toList
  | .num n => numberText floatText n
  | .str s => quote s
  | .arr items => '[' :: (List.intercalate [','] (itemTexts floatText items) ++ [']'])
  | .obj entries => '{' :: (List.intercalate [','] (entryTexts floatText entries) ++ ['}'])

def itemTexts (floatText : ℚ → String) : List Json → List (List Char)
  | [] => []
  | j :: items => jsonText floatText j :: itemTexts floatText items

def entryTexts (floatText : ℚ → String) : List (String × Json) → List (List Char)
  | [] => []
  | (k, v) :: entries => (quote k ++ ':' :: jsonText floatText v) :: entryTexts floatText entries

end

/-- The text of a value with the items of its dictionaries in key order. -/
def canonicalText (floatText : ℚ → String) (value : Json) : String :=
  String.ofList (jsonText floatText value.canonical)

/-- `canonical_json`. -/
def canonicalJson (floatText : ℚ → String) (value : Json) : Except PyError String := do
  ensure value.isDumpable "value must be finite JSON-compatible data"
  return canonicalText floatText value

theorem canonicalJson_of_isDumpable {floatText : ℚ → String} {value : Json}
    (h : value.isDumpable = true) :
    canonicalJson floatText value = .ok (canonicalText floatText value) := by
  rw [canonicalJson, ensure_eq_ok.mpr h]
  rfl

example : canonicalJson (fun _ => "0.5") (.obj [("b", .num (.float (1 / 2))), ("a", .str "é\n😀")])
    = .ok "\x7b\"a\":\"\\u00e9\\n\\ud83d\\ude00\",\"b\":0.5\x7d" := by
  decide +kernel

end TgCurator
