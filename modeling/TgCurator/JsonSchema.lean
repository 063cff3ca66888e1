import TgCurator.Json

/-!
# JSON Schema

Whether a JSON value meets a schema, itself a JSON value, for the keywords `type`, `enum`,
`minimum`, `maximum`, `properties`, `required`, `additionalProperties`, `items`, `minItems` and
`maxItems`. A keyword says nothing about a value of another type, and other keywords say
nothing at all.

`satisfies_closed_iff`, `satisfies_array_iff`, `satisfies_enum_iff` and the lemmas by them say
what the values of the usual schemas are: objects with the given members, arrays of items, one
of some strings, numbers between bounds.
-/

namespace JsonSchema

open Json

/-! ## Keywords -/

mutual

/-- Equality of JSON values: numbers by value, objects without regard to the order. -/
def sameValue : Json → Json → Bool
  | .null, b => match b with
    | .null => true
    | _ => false
  | .bool a, b => match b with
    | .bool b => a == b
    | _ => false
  | .num m, b => match b with
    | .num n => m.eq n
    | _ => false
  | .str s, b => match b with
    | .str t => s == t
    | _ => false
  | .arr xs, b => match b with
    | .arr ys => sameItems xs ys
    | _ => false
  | .obj xs, b => match b with
    | .obj ys => xs.length == ys.length && sameEntries xs ys
    | _ => false

def sameItems : List Json → List Json → Bool
  | [], [] => true
  | x :: xs, y :: ys => sameValue x y && sameItems xs ys
  | _, _ => false

def sameEntries : List (String × Json) → List (String × Json) → Bool
  | [], _ => true
  | (k, v) :: xs, ys =>
    (match ys.lookup k with
      | some w => sameValue v w
      | none => false) && sameEntries xs ys

end

/-- Whether a number is an integer. -/
def isIntegral : Number → Bool
  | .int _ => true
  | .float x => x.den == 1
  | _ => false

/-- Whether a value has the type of a name. -/
def hasTypeName (name : String) (value : Json) : Bool :=
  match value with
  | .null => name == "null"
  | .bool _ => name == "boolean"
  | .num n => name == "number" || (name == "integer" && isIntegral n)
  | .str _ => name == "string"
  | .arr _ => name == "array"
  | .obj _ => name == "object"

/-- `type`: a name, or one of several. -/
def hasType (argument value : Json) : Bool :=
  match argument with
  | .str name => hasTypeName name value
  | .arr names => names.any fun name =>
    match name with
    | .str name => hasTypeName name value
    | _ => false
  | _ => false

/-- `enum`. -/
def inEnum (argument value : Json) : Bool :=
  match argument with
  | .arr options => options.any fun option => sameValue option value
  | _ => false

/-- `minimum`. -/
def atLeast (argument value : Json) : Bool :=
  match argument, value with
  | .num m, .num n => m.le n
  | _, .num _ => false
  | _, _ => true

/-- `maximum`. -/
def atMost (argument value : Json) : Bool :=
  match argument, value with
  | .num m, .num n => n.le m
  | _, .num _ => false
  | _, _ => true

/-- `required`. -/
def hasRequired (argument value : Json) : Bool :=
  match argument, value with
  | .arr names, .obj entries => names.all fun name =>
    match name with
    | .str name => (entries.lookup name).isSome
    | _ => false
  | _, .obj _ => false
  | _, _ => true

/-- `minItems`. -/
def hasMinItems (argument value : Json) : Bool :=
  match argument, value with
  | .num n, .arr items => n.le (.int items.length)
  | _, .arr _ => false
  | _, _ => true

/-- `maxItems`. -/
def hasMaxItems (argument value : Json) : Bool :=
  match argument, value with
  | .num n, .arr items => (Number.int items.length).le n
  | _, .arr _ => false
  | _, _ => true

/-- The names under `properties` among the keywords of a schema. -/
def propertyNames (keywords : List (String × Json)) : List String :=
  match keywords.lookup "properties" with
  | some (.obj properties) => properties.map Prod.fst
  | _ => []

/-- The values of an object that are not under `properties`. -/
def additional (keywords : List (String × Json)) (value : Json) : List Json :=
  match value with
  | .obj entries => (entries.filter fun e => e.1 ∉ propertyNames keywords).map Prod.snd
  | _ => []

/-- The items of an array. -/
def itemsOf (value : Json) : List Json :=
  match value with
  | .arr items => items
  | _ => []

/-- The value of an object under a name. -/
def member? (value : Json) (name : String) : Option Json :=
  match value with
  | .obj entries => entries.lookup name
  | _ => none

/-! ## Schemas -/

mutual

/-- Whether a value meets a schema. -/
def satisfies : Json → Json → Bool
  | .bool b, _ => b
  | .obj keywords, value => satisfiesKeywords keywords keywords value
  | _, _ => false

/-- Whether a value meets some of the keywords of a schema. -/
def satisfiesKeywords (keywords : List (String × Json)) : List (String × Json) → Json → Bool
  | [], _ => true
  | (keyword, argument) :: rest, value =>
    (match keyword with
      | "type" => hasType argument value
      | "enum" => inEnum argument value
      | "minimum" => atLeast argument value
      | "maximum" => atMost argument value
      | "required" => hasRequired argument value
      | "minItems" => hasMinItems argument value
      | "maxItems" => hasMaxItems argument value
      | "items" => (itemsOf value).all fun item => satisfies argument item
      | "additionalProperties" =>
        (additional keywords value).all fun item => satisfies argument item
      | "properties" => satisfiesProperties argument value
      | _ => true) && satisfiesKeywords keywords rest value

/-- `properties`. -/
def satisfiesProperties : Json → Json → Bool
  | .obj properties, value => satisfiesMembers properties value
  | _, _ => false

/-- Whether the members of an object meet their schemas. -/
def satisfiesMembers : List (String × Json) → Json → Bool
  | [], _ => true
  | (name, schema) :: rest, value =>
    (match member? value name with
      | some item => satisfies schema item
      | none => true) && satisfiesMembers rest value

end

/-! ## Objects -/

attribute [local simp] hasTypeName itemsOf satisfies satisfiesKeywords

theorem satisfiesMembers_iff {properties : List (String × Json)} {value : Json} :
    satisfiesMembers properties value = true ↔
      ∀ p ∈ properties, ∀ item, member? value p.1 = some item → satisfies p.2 item = true := by
  induction properties with
  | nil => simp [satisfiesMembers]
  | cons p properties ih =>
    obtain ⟨name, schema⟩ := p
    rw [satisfiesMembers, Bool.and_eq_true, ih, List.forall_mem_cons]
    refine and_congr_left fun _ => ?_
    cases member? value name <;> simp

theorem satisfies_false (value : Json) : satisfies (.bool false) value = false := by
  rw [satisfies]

/-- The keywords of an object with the given members and no others. -/
def closed (properties : List (String × Json)) (required : List String) : List (String × Json) :=
  [("type", .str "object"), ("additionalProperties", .bool false),
    ("properties", .obj properties), ("required", .arr (required.map .str))]

theorem satisfies_obj (keywords : List (String × Json)) (value : Json) :
    satisfies (.obj keywords) value = satisfiesKeywords keywords keywords value := by
  rw [satisfies]

/-- The names of the keywords. -/
def keywordNames : List String :=
  ["type", "enum", "minimum", "maximum", "required", "minItems", "maxItems", "items",
    "additionalProperties", "properties"]

/-- Other names say nothing. -/
theorem satisfiesKeywords_of_unknown {keywords rest : List (String × Json)} {name : String}
    {argument value : Json} (h : name ∉ keywordNames) :
    satisfiesKeywords keywords ((name, argument) :: rest) value =
      satisfiesKeywords keywords rest value := by
  simp only [keywordNames, List.mem_cons, List.not_mem_nil, or_false, not_or] at h
  rw [satisfiesKeywords]
  · exact Bool.true_and _
  all_goals tauto

theorem satisfies_closed {properties : List (String × Json)} {required : List String}
    {value : Json} : satisfies (.obj (closed properties required)) value =
      (hasTypeName "object" value && ((additional (closed properties required) value).all
        (fun item => satisfies (.bool false) item) && (satisfiesMembers properties value &&
          hasRequired (.arr (required.map .str)) value))) := by
  rw [satisfies]
  conv_lhs => rw [closed]
  simp only [satisfiesKeywords, satisfiesProperties, hasType, Bool.and_true]
  rfl

/-- The values of a closed schema are the objects with just its members. -/
theorem satisfies_closed_iff {properties : List (String × Json)} {value : Json} :
    satisfies (.obj (closed properties (properties.map Prod.fst))) value = true ↔
      ∃ entries, value = .obj entries ∧
        (∀ name, name ∈ Dict.keys entries ↔ name ∈ properties.map Prod.fst) ∧
        ∀ p ∈ properties, ∃ item, entries.lookup p.1 = some item ∧ satisfies p.2 item = true := by
  rw [satisfies_closed]
  cases value with
  | obj entries =>
    have hnames : propertyNames (closed properties (properties.map Prod.fst)) =
        properties.map Prod.fst := rfl
    have hadditional : (additional (closed properties (properties.map Prod.fst)) (.obj entries)).all
        (fun item => satisfies (.bool false) item) = true ↔
        ∀ name ∈ Dict.keys entries, name ∈ properties.map Prod.fst := by
      simp only [additional, hnames, satisfies_false, List.all_eq_true, Bool.false_eq_true,
        imp_false, Dict.keys, List.forall_mem_map, List.mem_filter, decide_eq_true_eq]
      exact forall_congr' fun e => by rw [not_and, not_not]
    have hrequired : hasRequired (.arr ((properties.map Prod.fst).map .str)) (.obj entries) = true ↔
        ∀ p ∈ properties, (entries.lookup p.1).isSome = true := by
      rw [hasRequired, List.map_map, List.all_map, List.all_eq_true]
      rfl
    have htype : hasTypeName "object" (.obj entries) = true := rfl
    rw [htype, Bool.true_and, Bool.and_eq_true, Bool.and_eq_true, hadditional, hrequired,
      satisfiesMembers_iff]
    constructor
    · rintro ⟨hknown, hmembers, hpresent⟩
      refine ⟨entries, rfl, fun name => ⟨hknown name, fun hname => ?_⟩, fun p hp => ?_⟩
      · obtain ⟨p, hp, rfl⟩ := List.mem_map.mp hname
        obtain ⟨item, hitem⟩ := Option.isSome_iff_exists.mp (hpresent p hp)
        exact Dict.mem_keys.mpr ⟨item, Dict.mem_of_lookup hitem⟩
      · obtain ⟨item, hitem⟩ := Option.isSome_iff_exists.mp (hpresent p hp)
        exact ⟨item, hitem, hmembers p hp item hitem⟩
    · rintro ⟨entries', hentries, hnames, hmembers⟩
      obtain rfl := Json.obj.inj hentries
      refine ⟨fun name => (hnames name).mp, fun p hp item hitem => ?_, fun p hp => ?_⟩
      · obtain ⟨item', hitem', hsatisfies⟩ := hmembers p hp
        obtain rfl := Option.some.inj (hitem'.symm.trans hitem)
        exact hsatisfies
      · obtain ⟨item, hitem, -⟩ := hmembers p hp
        exact Option.isSome_iff_exists.mpr ⟨item, hitem⟩
  | _ => simp

/-! ## Arrays -/

theorem int_le_int (m n : ℤ) : (Number.int m).le (.int n) = decide (m ≤ n) := by
  simp only [Number.le, Number.value, WithBot.coe_le_coe, WithTop.coe_le_coe, Rat.intCast_le_intCast]

/-- The values of an array schema are the arrays of values of its items. -/
theorem satisfies_array_iff {items value : Json} :
    satisfies (.obj [("type", .str "array"), ("items", items)]) value = true ↔
      ∃ xs, value = .arr xs ∧ ∀ x ∈ xs, satisfies items x = true := by
  rw [satisfies]
  simp only [satisfiesKeywords, hasType, Bool.and_true]
  cases value <;> simp

/-- The same with a greatest length. -/
theorem satisfies_array_iff_of_length {items value : Json} {n : ℕ} :
    satisfies (.obj [("type", .str "array"), ("items", items), ("minItems", .num (.int 0)),
        ("maxItems", .num (.int n))]) value = true ↔
      ∃ xs, value = .arr xs ∧ xs.length ≤ n ∧ ∀ x ∈ xs, satisfies items x = true := by
  rw [satisfies]
  simp only [satisfiesKeywords, hasType, Bool.and_true]
  cases value with
  | arr xs => simp [hasMinItems, hasMaxItems, int_le_int, and_comm]
  | _ => simp

/-! ## Strings and numbers -/

theorem satisfies_string_iff {value : Json} :
    satisfies (.obj [("type", .str "string")]) value = true ↔ ∃ s, value = .str s := by
  rw [satisfies]
  simp only [satisfiesKeywords, hasType, Bool.and_true]
  cases value <;> simp

/-- The values of an enumeration of strings. -/
theorem satisfies_enum_iff {names : List String} {value : Json} :
    satisfies (.obj [("type", .str "string"), ("enum", .arr (names.map .str))]) value = true ↔
      ∃ s ∈ names, value = .str s := by
  rw [satisfies]
  simp only [satisfiesKeywords, hasType, Bool.and_true]
  cases value <;> simp [inEnum, sameValue]

/-- The numbers between two bounds. -/
theorem satisfies_between_iff {lower upper : Number} {value : Json} :
    satisfies (.obj [("type", .str "number"), ("minimum", .num lower), ("maximum", .num upper)])
        value = true ↔ ∃ n, value = .num n ∧ lower.le n = true ∧ n.le upper = true := by
  rw [satisfies]
  simp only [satisfiesKeywords, hasType, Bool.and_true]
  cases value <;> simp [atLeast, atMost]

end JsonSchema
