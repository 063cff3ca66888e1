import TgCurator.Analysis.Stages
import TgCurator.JsonText
import TgCurator.Matching

/-!
# Prompt templates

`PromptTemplateVersion` of `domain/analysis/prompt.py`: the two patterns, the checks of the
constructor, and `render`, which replaces the placeholders and then looks for expressions in
the rendered text.

A pattern is the function of its matches. `_EXPRESSION_PATTERN` matches two opening braces, one
or more characters that are no braces, and two closing braces: the spaces around its group are
such characters.
-/

namespace TgCurator

open Matching

/-! ## Patterns -/

/-- `[{}]`. -/
def isBrace (c : Char) : Bool :=
  c == '{' || c == '}'

/-- `[A-Za-z0-9_]`. -/
def isNameChar (c : Char) : Bool :=
  isIdentifierStart c || ('0' ≤ c && c ≤ '9')

/-- `_VARIABLE_PATTERN`: the name between the braces. -/
def matchVariable : Pattern Char String
  | '{' :: '{' :: cs =>
    let before := cs.takeWhile isSpace
    let cs := cs.dropWhile isSpace
    let name := cs.takeWhile isNameChar
    let cs := cs.dropWhile isNameChar
    let after := cs.takeWhile isSpace
    match name, cs.dropWhile isSpace with
    | c :: _, '}' :: '}' :: _ =>
      if isIdentifierStart c then
        some (String.ofList name, before.length + name.length + after.length + 4)
      else none
    | _, _ => none
  | _ => none

/-- The length of characters that are no braces and two closing braces. -/
def closingLength : List Char → Option ℕ
  | '}' :: '}' :: _ => some 2
  | c :: cs => if isBrace c then none else (closingLength cs).map (· + 1)
  | [] => none

/-- `_EXPRESSION_PATTERN`. -/
def matchExpression : Pattern Char Unit
  | '{' :: '{' :: c :: cs =>
    if isBrace c then none else (closingLength cs).map fun n => ((), n + 3)
  | _ => none

/-- `needle in text`. -/
def containsText (needle : List Char) (text : List Char) : Bool :=
  text.tails.any needle.isPrefixOf

/-! ## The template -/

/-- `ALLOWED_PROMPT_VARIABLES`. -/
def allowedPromptVariables : List String :=
  ["label_definitions", "message_text", "asset_manifest", "previous_results",
    "source_channel_context"]

/-- The loop of `_referenced_variables` over the templates. -/
def referencedIn (template : String) : Except PyError (List String) := do
  ensure (!containsText ['{', '%'] template.toList && !containsText ['{', '#'] template.toList)
    "prompt control blocks and comments are not supported"
  let expressions := captures matchExpression template.toList
  let simple := captures matchVariable template.toList
  ensure (expressions.length = simple.length) "prompt placeholders must contain only a variable name"
  return simple

/-- `sorted(left - right)` on sets of strings. -/
def sortedDifference (left right : List String) : List String :=
  (left.dedup.filter (· ∉ right)).insertionSort (· ≤ ·)

/-- `_referenced_variables`. -/
def referencedVariables (systemPrompt userPromptTemplate : String) :
    Except PyError (List String) := do
  let system ← referencedIn systemPrompt
  let user ← referencedIn userPromptTemplate
  let referenced := (system ++ user).dedup
  let unsupported := sortedDifference referenced allowedPromptVariables
  ensure unsupported.isEmpty "prompt references unsupported variables: %" unsupported
  return referenced

/-- `RenderedPrompt`. -/
structure RenderedPrompt where
  systemPrompt : String
  userPrompt : String
  deriving DecidableEq

/-- `PromptTemplateVersion` with its text. -/
structure PromptTemplate extends PromptTemplateVersion where
  versionId : String
  promptTemplateId : String
  versionNumber : ℤ
  systemPrompt : String
  userPromptTemplate : String
  declaredVariables : List String

namespace PromptTemplate

/-- The constructor. -/
def create (versionId promptTemplateId : String) (versionNumber : ℤ)
    (systemPrompt userPromptTemplate : String) (declaredVariables : List String)
    (status : VersionStatus) : Except PyError PromptTemplate := do
  let versionId ← validateNonBlank versionId "prompt version_id"
  let promptTemplateId ← validateNonBlank promptTemplateId "prompt template id"
  ensure (0 < versionNumber) "% must be a positive integer" ["prompt version number"]
  ensure (!(isBlank systemPrompt && isBlank userPromptTemplate))
    "at least one prompt template must not be blank"
  ensure (declaredVariables.dedup.length = declaredVariables.length)
    "declared_variables cannot contain duplicates"
  let unsupported := sortedDifference declaredVariables allowedPromptVariables
  ensure unsupported.isEmpty "prompt declares unsupported variables: %" unsupported
  let referenced ← referencedVariables systemPrompt userPromptTemplate
  let missing := sortedDifference referenced declaredVariables
  let unused := sortedDifference declaredVariables referenced
  ensure (missing.isEmpty && unused.isEmpty)
    "prompt declared variables must exactly match template references; missing declarations=%, unused declarations=%"
    (missing ++ unused)
  return { versionId, promptTemplateId, versionNumber, systemPrompt, userPromptTemplate,
           declaredVariables, status }

end PromptTemplate

/-! ## Rendering -/

/-- `_render_value`. -/
def renderValue (floatText : ℚ → String) (value : Json) : Except PyError String :=
  match value with
  | .str s => .ok s
  | _ => canonicalJson floatText value

/-- The text that stands for a token of a template. -/
def replaceToken (replacements : Dict String String) (token : Token Char String) :
    Except PyError (List Char) :=
  match token with
  | .plain c => .ok [c]
  | .hit name _ =>
    match replacements.lookup name with
    | some value => .ok value.toList
    | none => .error .keyError

/-- `_render_template`. -/
def renderTemplate (template : String) (replacements : Dict String String) :
    Except PyError String := do
  let parts ← (tokens matchVariable 0 template.toList).mapM (replaceToken replacements)
  let rendered := parts.flatten
  ensure (!found matchExpression rendered) "prompt contains an unresolved placeholder"
  return String.ofList rendered

/-- The item of a variable in the replacements of `render`. -/
def replacementOf (floatText : ℚ → String) (values : Dict String Json) (key : String) :
    Except PyError (String × String) :=
  match values.lookup key with
  | some value => do return (key, ← renderValue floatText value)
  | none => .error .keyError

/-- `render`. -/
def PromptTemplate.render (template : PromptTemplate) (floatText : ℚ → String)
    (values : Dict String Json) : Except PyError RenderedPrompt := do
  let missing := sortedDifference template.declaredVariables values.keys
  let unknown := sortedDifference values.keys template.declaredVariables
  ensure (missing.isEmpty && unknown.isEmpty)
    "prompt values must exactly match declared variables; missing=%, unknown=%"
    (missing ++ unknown)
  let replacements ← template.declaredVariables.mapM (replacementOf floatText values)
  let systemPrompt ← renderTemplate template.systemPrompt replacements
  let userPrompt ← renderTemplate template.userPromptTemplate replacements
  return { systemPrompt, userPrompt }

end TgCurator
