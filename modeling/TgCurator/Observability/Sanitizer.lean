import TgCurator.Observability.SensitiveKeys
import TgCurator.Shared

/-!
# The sanitizer of stored documents

`sanitize_json` of `infrastructure/database/analysis_repository.py`, on the JSON values that a
provider answers and that metadata hold. It puts a mark in the place of the value of a sensitive
key and of a URL with credentials, and drops numbers that JSON does not have. `urlsplit` and
`parse_qsl` are a parameter; without a colon a text has no scheme.

`sanitized_document`: what is at a path of the sanitized document is what the sanitizer makes of
what is there in the document, as long as no key on the path is sensitive; at a sensitive key
there is the mark, and nothing below it. No string value of the result is a URL with credentials,
its numbers are finite, and it is its own sanitized document.
-/

namespace TgCurator

/-! ## URLs -/

/-- What `urlsplit` yields, with the keys that `parse_qsl` finds in the query. -/
structure SplitUrl where
  scheme : String
  netloc : String
  username : Option String
  password : Option String
  queryKeys : List String

/-- `urlsplit`, where it raises no `ValueError`. -/
structure UrlParser where
  urlsplit : String → Option SplitUrl
  scheme_of_no_colon : ∀ text url, ':' ∉ text.toList → urlsplit text = some url → url.scheme = ""

/-- `_REDACTED`. -/
def redacted : String :=
  "[REDACTED]"

/-- `_REDACTED_URL`. -/
def redactedUrl : String :=
  "[REDACTED_URL]"

/-- The fragments `_sanitize_string` looks for in the keys of a query. -/
def sensitiveQueryFragments : List String :=
  ["secret", "password", "apikey", "authorization", "token", "credential", "signature"]

/-- Whether a key of a query holds a fragment. -/
def isSensitiveQueryKey (key : String) : Bool :=
  sensitiveQueryFragments.any fun fragment => decide (fragment.toList <:+: normalizeKey key)

namespace SplitUrl

/-- A URL of the web. -/
def isWeb (url : SplitUrl) : Bool :=
  (lowerName url.scheme == "http".toList || lowerName url.scheme == "https".toList) &&
    url.netloc != ""

/-- Whether a URL names a user, or a secret in its query. -/
def hasCredentials (url : SplitUrl) : Bool :=
  url.username.isSome || url.password.isSome || url.queryKeys.any isSensitiveQueryKey

end SplitUrl

/-- `_sanitize_string`. -/
def sanitizeString (parser : UrlParser) (value : String) : String :=
  match parser.urlsplit value with
  | none => value
  | some url =>
    if !url.isWeb then value
    else if url.hasCredentials then redactedUrl
    else value

/-! ## Documents -/

mutual

/-- `sanitize_json`. -/
def sanitizeJson (parser : UrlParser) : Json → Json
  | .num (.float x) => .num (.float x)
  | .num (.int n) => .num (.int n)
  | .num _ => .null
  | .str s => .str (sanitizeString parser s)
  | .arr items => .arr (sanitizeItems parser items)
  | .obj entries => .obj (sanitizeEntries parser entries)
  | value => value

def sanitizeItems (parser : UrlParser) : List Json → List Json
  | [] => []
  | j :: items => sanitizeJson parser j :: sanitizeItems parser items

def sanitizeEntries (parser : UrlParser) : List (String × Json) → List (String × Json)
  | [] => []
  | (k, v) :: entries =>
    (k, if isSensitiveKey k then .str redacted else sanitizeJson parser v) ::
      sanitizeEntries parser entries

end

/-- The item of a key, sanitized. -/
def sanitizeItem (parser : UrlParser) (e : String × Json) : String × Json :=
  (e.1, if isSensitiveKey e.1 then .str redacted else sanitizeJson parser e.2)

/-- A step into a document. -/
inductive JsonStep
  | key (k : String)
  | index (i : ℕ)

/-- Whether a step is to the value of a sensitive key. -/
def JsonStep.isSensitive : JsonStep → Bool
  | key k => isSensitiveKey k
  | index _ => false

/-- What is one step into a document. -/
def stepInto : Json → JsonStep → Option Json
  | .obj entries, .key k => entries.lookup k
  | .arr items, .index i => items[i]?
  | _, _ => none

/-- What is at a path of a document. -/
def valueAt (value : Json) (path : List JsonStep) : Option Json :=
  path.foldlM stepInto value

/-- A text that is no URL of the web with credentials. -/
def UrlParser.Clean (parser : UrlParser) (text : String) : Prop :=
  ∀ url, parser.urlsplit text = some url → url.isWeb = true → url.hasCredentials = false

variable {parser : UrlParser}

theorem sanitizeItems_eq_map (items : List Json) :
    sanitizeItems parser items = items.map (sanitizeJson parser) := by
  induction items with
  | nil => rfl
  | cons j items ih => rw [sanitizeItems, ih, List.map_cons]

theorem sanitizeEntries_eq_map (entries : List (String × Json)) :
    sanitizeEntries parser entries = entries.map (sanitizeItem parser) := by
  induction entries with
  | nil => rfl
  | cons e entries ih => rw [sanitizeEntries, ih, List.map_cons, sanitizeItem]

@[simp] theorem sanitizeJson_arr (items : List Json) :
    sanitizeJson parser (.arr items) = .arr (items.map (sanitizeJson parser)) := by
  rw [sanitizeJson, sanitizeItems_eq_map]

@[simp] theorem sanitizeJson_obj (entries : List (String × Json)) :
    sanitizeJson parser (.obj entries) = .obj (entries.map (sanitizeItem parser)) := by
  rw [sanitizeJson, sanitizeEntries_eq_map]

@[simp] theorem sanitizeJson_str (s : String) :
    sanitizeJson parser (.str s) = .str (sanitizeString parser s) := by
  rw [sanitizeJson]

/-! ## Texts -/

/-- A text without a colon is no URL. -/
theorem UrlParser.isWeb_eq_false {text : String} {url : SplitUrl} (h : ':' ∉ text.toList)
    (hurl : parser.urlsplit text = some url) : url.isWeb = false := by
  rw [SplitUrl.isWeb, parser.scheme_of_no_colon text url h hurl]
  rfl

theorem UrlParser.clean_of_no_colon {text : String} (h : ':' ∉ text.toList) : parser.Clean text :=
  fun _ hurl hweb => absurd hweb (by rw [UrlParser.isWeb_eq_false h hurl]; decide)

theorem sanitizeString_of_clean {text : String} (h : parser.Clean text) :
    sanitizeString parser text = text := by
  unfold sanitizeString
  split
  · rfl
  · next url hurl =>
    split_ifs with hweb hcredentials
    · rfl
    · simp [h url hurl (by simpa using hweb)] at hcredentials
    · rfl

/-- A sanitized text has no credentials. -/
theorem clean_sanitizeString (text : String) : parser.Clean (sanitizeString parser text) := by
  cases hurl : parser.urlsplit text with
  | none =>
    have heq : sanitizeString parser text = text := by rw [sanitizeString, hurl]
    rw [heq]
    intro url hurl'
    cases hurl.symm.trans hurl'
  | some url =>
    by_cases hbad : url.isWeb = true ∧ url.hasCredentials = true
    · have heq : sanitizeString parser text = redactedUrl := by
        simp [sanitizeString, hurl, hbad.1, hbad.2]
      rw [heq]
      exact UrlParser.clean_of_no_colon (by decide)
    · have hclean : parser.Clean text := by
        intro url' hurl' hweb
        obtain rfl := Option.some.inj (hurl.symm.trans hurl')
        exact Bool.eq_false_iff.mpr fun hcredentials => hbad ⟨hweb, hcredentials⟩
      rwa [sanitizeString_of_clean hclean]

theorem clean_redacted : parser.Clean redacted :=
  UrlParser.clean_of_no_colon (by decide)

/-! ## Paths -/

/-- A lookup in a sanitized dictionary. -/
theorem lookup_sanitizeItem (entries : List (String × Json)) (k : String) :
    (entries.map (sanitizeItem parser)).lookup k = (entries.lookup k).map fun value =>
      if isSensitiveKey k then .str redacted else sanitizeJson parser value := by
  induction entries with
  | nil => rfl
  | cons e entries ih =>
    rw [List.map_cons, Dict.lookup_cons, Dict.lookup_cons, sanitizeItem]
    by_cases hkey : e.1 = k
    · rw [if_pos hkey, if_pos hkey, hkey]
      rfl
    · rw [if_neg hkey, if_neg hkey, ih]

/-- A step that is not to a sensitive key leads to the sanitized value. -/
theorem stepInto_sanitizeJson (value : Json) {step : JsonStep} (h : step.isSensitive = false) :
    stepInto (sanitizeJson parser value) step =
      (stepInto value step).map (sanitizeJson parser) := by
  cases value with
  | null => cases step <;> rfl
  | bool b => cases step <;> rfl
  | num n => cases n <;> cases step <;> rfl
  | str s => cases step <;> rfl
  | arr items =>
    rw [sanitizeJson_arr]
    cases step with
    | key k => rfl
    | index i => exact List.getElem?_map
  | obj entries =>
    rw [sanitizeJson_obj]
    cases step with
    | index i => rfl
    | key k =>
      have hkey : isSensitiveKey k = false := h
      rw [stepInto, stepInto, lookup_sanitizeItem, hkey]
      rfl

/-- A step to a sensitive key leads to the mark. -/
theorem stepInto_sanitizeJson_sensitive (value : Json) {k : String} (h : isSensitiveKey k = true) :
    stepInto (sanitizeJson parser value) (.key k) =
      (stepInto value (.key k)).map fun _ => .str redacted := by
  cases value with
  | null => rfl
  | bool b => rfl
  | num n => cases n <;> rfl
  | str s => rfl
  | arr items => rfl
  | obj entries =>
    rw [sanitizeJson_obj, stepInto, stepInto, lookup_sanitizeItem, h]
    rfl

theorem valueAt_cons (value : Json) (step : JsonStep) (path : List JsonStep) :
    valueAt value (step :: path) = (stepInto value step).bind (valueAt · path) :=
  rfl

theorem valueAt_append (value : Json) (path path' : List JsonStep) :
    valueAt value (path ++ path') = (valueAt value path).bind (valueAt · path') := by
  rw [valueAt, List.foldlM_append]
  rfl

/-- Along a path without sensitive keys the sanitizer acts on what is there. -/
theorem valueAt_sanitizeJson (value : Json) {path : List JsonStep}
    (h : ∀ step ∈ path, step.isSensitive = false) :
    valueAt (sanitizeJson parser value) path = (valueAt value path).map (sanitizeJson parser) := by
  induction path generalizing value with
  | nil => rfl
  | cons step path ih =>
    rw [List.forall_mem_cons] at h
    rw [valueAt_cons, valueAt_cons, stepInto_sanitizeJson value h.1]
    cases stepInto value step with
    | none => rfl
    | some item => exact ih item h.2

/-- Below a text there is nothing. -/
theorem valueAt_str {s : String} {path : List JsonStep} (h : path ≠ []) :
    valueAt (.str s) path = none := by
  cases path with
  | nil => exact absurd rfl h
  | cons step path => cases step <;> rfl

/-- What is at or below a sensitive key. -/
theorem valueAt_sanitizeJson_sensitive (value : Json) {path rest : List JsonStep} {k : String}
    (h : ∀ step ∈ path, step.isSensitive = false) (hk : isSensitiveKey k = true) :
    valueAt (sanitizeJson parser value) (path ++ .key k :: rest) =
      if rest = [] then (valueAt value (path ++ [.key k])).map fun _ => .str redacted
      else none := by
  rw [valueAt_append, valueAt_append, valueAt_sanitizeJson value h]
  cases valueAt value path with
  | none =>
    rw [Option.map_none, Option.bind_none, Option.bind_none]
    split_ifs <;> rfl
  | some item =>
    rw [Option.map_some, Option.bind_some, Option.bind_some, valueAt_cons, valueAt_cons,
      stepInto_sanitizeJson_sensitive item hk]
    cases stepInto item (.key k) with
    | none =>
      split_ifs <;> rfl
    | some below =>
      split_ifs with hrest
      · rw [hrest]
        rfl
      · exact valueAt_str hrest

/-- A text of the sanitized document has no credentials. -/
theorem clean_valueAt (value : Json) {path : List JsonStep} {text : String}
    (h : valueAt (sanitizeJson parser value) path = some (.str text)) : parser.Clean text := by
  induction path generalizing value with
  | nil =>
    have heq : sanitizeJson parser value = .str text := Option.some.inj h
    cases value with
    | null => cases heq
    | bool b => cases heq
    | num n => cases n <;> cases heq
    | str s =>
      rw [sanitizeJson_str] at heq
      obtain rfl := Json.str.inj heq
      exact clean_sanitizeString s
    | arr items =>
      rw [sanitizeJson_arr] at heq
      cases heq
    | obj entries =>
      rw [sanitizeJson_obj] at heq
      cases heq
  | cons step path ih =>
    rw [valueAt_cons] at h
    cases hstep : step.isSensitive with
    | false =>
      rw [stepInto_sanitizeJson value hstep] at h
      obtain ⟨item, hitem, htext⟩ := Option.bind_eq_some_iff.mp h
      obtain ⟨below, -, rfl⟩ := Option.map_eq_some_iff.mp hitem
      exact ih below htext
    | true =>
      cases step with
      | index i => cases hstep
      | key k =>
        rw [stepInto_sanitizeJson_sensitive value hstep] at h
        obtain ⟨item, hitem, htext⟩ := Option.bind_eq_some_iff.mp h
        obtain ⟨_, -, rfl⟩ := Option.map_eq_some_iff.mp hitem
        by_cases hpath : path = []
        · rw [hpath] at htext
          obtain rfl := Json.str.inj (Option.some.inj htext)
          exact clean_redacted
        · rw [valueAt_str hpath] at htext
          cases htext

/-! ## The document -/

theorem allFinite_sanitizeJson (value : Json) : (sanitizeJson parser value).allFinite = true := by
  induction value using Json.induction with
  | null => rfl
  | bool b => rfl
  | num n => cases n <;> rfl
  | str s => rfl
  | arr items ih =>
    rw [sanitizeJson_arr, Json.allFinite, Json.allNumbers, allNumbersItems_iff, List.forall_mem_map]
    exact ih
  | obj entries ih =>
    rw [sanitizeJson_obj, Json.allFinite, Json.allNumbers, allNumbersEntries_iff, List.forall_mem_map]
    intro e he
    rw [sanitizeItem]
    split_ifs
    · rfl
    · exact ih e he

theorem wf_sanitizeJson {value : Json} (h : value.WF) : (sanitizeJson parser value).WF := by
  induction value using Json.induction with
  | null => trivial
  | bool b => trivial
  | num n => cases n <;> trivial
  | str s => trivial
  | arr items ih =>
    rw [sanitizeJson_arr, Json.WF, Json.wfItems_iff, List.forall_mem_map]
    exact fun j hj => ih j hj (Json.wfItems_iff.mp h j hj)
  | obj entries ih =>
    obtain ⟨hkeys, hvalues⟩ := h
    rw [sanitizeJson_obj, Json.WF, Json.wfEntries_iff, List.forall_mem_map]
    refine ⟨?_, fun e he => ?_⟩
    · have heq : Dict.keys (entries.map (sanitizeItem parser)) = Dict.keys entries :=
        List.map_map
      rwa [heq]
    · rw [sanitizeItem]
      split_ifs
      · trivial
      · exact ih e he (Json.wfEntries_iff.mp hvalues e he)

theorem sanitizeJson_sanitizeJson (value : Json) :
    sanitizeJson parser (sanitizeJson parser value) = sanitizeJson parser value := by
  induction value using Json.induction with
  | null => rfl
  | bool b => rfl
  | num n => cases n <;> rfl
  | str s =>
    rw [sanitizeJson_str, sanitizeJson_str, sanitizeString_of_clean (clean_sanitizeString s)]
  | arr items ih =>
    rw [sanitizeJson_arr, sanitizeJson_arr, List.map_map]
    exact congrArg Json.arr (List.map_congr_left ih)
  | obj entries ih =>
    rw [sanitizeJson_obj, sanitizeJson_obj, List.map_map]
    refine congrArg Json.obj (List.map_congr_left fun e he => ?_)
    rw [Function.comp_apply, sanitizeItem, sanitizeItem]
    dsimp only
    split_ifs with hkey
    · rfl
    · rw [ih e he]

/-- The sanitized document, for every value: at a path without sensitive keys is what the
sanitizer makes of the value there; at a sensitive key is the mark, and below it nothing; no string
value in it is a URL with credentials; all its numbers are finite, and its keys are distinct where
those of the value are; and a document that is sanitized again stays as it is. -/
theorem sanitized_document (parser : UrlParser) (value : Json) :
    (∀ path : List JsonStep, (∀ step ∈ path, step.isSensitive = false) →
      valueAt (sanitizeJson parser value) path = (valueAt value path).map (sanitizeJson parser)) ∧
    (∀ (path rest : List JsonStep) (k : String), (∀ step ∈ path, step.isSensitive = false) →
      isSensitiveKey k = true → valueAt (sanitizeJson parser value) (path ++ .key k :: rest) =
        if rest = [] then (valueAt value (path ++ [.key k])).map fun _ => .str redacted else none) ∧
    (∀ (path : List JsonStep) (text : String),
      valueAt (sanitizeJson parser value) path = some (.str text) → parser.Clean text) ∧
    (sanitizeJson parser value).allFinite = true ∧
    (value.WF → (sanitizeJson parser value).WF) ∧
    sanitizeJson parser (sanitizeJson parser value) = sanitizeJson parser value :=
  ⟨fun _ h => valueAt_sanitizeJson value h,
    fun _ _ _ h hk => valueAt_sanitizeJson_sensitive value h hk,
    fun _ _ h => clean_valueAt value h, allFinite_sanitizeJson value,
    fun h => wf_sanitizeJson h, sanitizeJson_sanitizeJson value⟩

/-- A parser for texts that are no URLs. -/
def plainTexts : UrlParser where
  urlsplit _ := some ⟨"", "", none, none, []⟩
  scheme_of_no_colon _ _ _ h := by rw [← Option.some.inj h]

/-- A document with a header, a number that JSON does not have, and a count of tokens. -/
def headerDocument : Json :=
  .obj [("nested", .obj [("Authorization", .str "Bearer hidden"), ("latency", .num .nan)]),
    ("token_usage", .obj [("input_tokens", .num (.int 5))])]

theorem sanitized_document_header :
    valueAt (sanitizeJson plainTexts headerDocument) [.key "nested", .key "Authorization"] =
        some (.str redacted) ∧
      valueAt (sanitizeJson plainTexts headerDocument) [.key "token_usage", .key "input_tokens"] =
        some (.num (.int 5)) ∧
      (sanitizeJson plainTexts headerDocument).WF := by
  obtain ⟨hplain, hsensitive, -, -, hwf, -⟩ := sanitized_document plainTexts headerDocument
  have hnested : ∀ step ∈ [JsonStep.key "nested"], step.isSensitive = false := by
    decide +kernel
  have husage : ∀ step ∈ [JsonStep.key "token_usage", .key "input_tokens"],
      step.isSensitive = false := by
    decide +kernel
  refine ⟨(hsensitive _ [] "Authorization" hnested (by decide +kernel)).trans rfl,
    (hplain _ husage).trans rfl, hwf ?_⟩
  simp [headerDocument, Json.WF, Json.WFEntries, Dict.keys]

end TgCurator
