import TgCurator.Shared

/-!
# Checks of the analysis domain

`validate_identifier` of `domain/analysis/common.py`, which admits the keys of label
definitions, and the checks of names and JSON objects.
-/

namespace TgCurator

/-- `value.strip()`. -/
def strip (value : String) : String :=
  String.ofList
    ((value.toList.dropWhile isSpace).reverse.dropWhile isSpace).reverse

/-- `[A-Za-z_]`. -/
def isIdentifierStart (c : Char) : Bool :=
  ('A' ≤ c && c ≤ 'Z') || ('a' ≤ c && c ≤ 'z') || c == '_'

/-- `[A-Za-z0-9_.-]`. -/
def isIdentifierChar (c : Char) : Bool :=
  isIdentifierStart c || ('0' ≤ c && c ≤ '9') || c == '.' || c == '-'

/-- `_IDENTIFIER_PATTERN.fullmatch`. -/
def matchesIdentifierPattern (value : String) : Bool :=
  match value.toList with
  | [] => false
  | c :: cs => isIdentifierStart c && cs.all isIdentifierChar

/-- `validate_identifier`. -/
def validateIdentifier (value field : String) : Except PyError String := do
  ensure (!isBlank value) "% must not be blank" [field]
  ensure (matchesIdentifierPattern (strip value))
    "% must start with a letter or underscore and contain only letters, digits, dots, underscores, or hyphens"
    [field]
  return strip value

/-- `validate_non_blank`. -/
def validateNonBlank (value field : String) : Except PyError String := do
  ensure (!isBlank value) "% must not be blank" [field]
  return strip value

/-- `require_json_object`: the object in canonical form. -/
def requireJsonObject (value : Json) (field : String) :
    Except PyError (List (String × Json)) :=
  match value with
  | .obj entries => do
    ensure (Json.obj entries).isDumpable "value must be finite JSON-compatible data"
    return Json.canonicalEntries entries
  | _ => .error (.domainValidation "% must be an object" [field])

end TgCurator
