import TgCurator.JsonText
import TgCurator.Observability.MappingKeys

/-!
# Formatting a log record

`JsonFormatter.format` of `infrastructure/observability/logging.py`: the payload of a record, with
the event, the correlation fields and the context redacted, and its text by `json.dumps` with
`allow_nan=False`.

The redactor returns numbers as they are, and the strict dump refuses those that are not finite and
integers of more than 4300 digits; the redactor itself raises on such a key. So a record is
formatted exactly if every number shown of what it logs can be dumped and every key met in it has a
`str` (`formats_iff`); an event that is NaN loses its record (`not_formats_nan`).

The text of a record's message and of its exception type are given, as is the time.
-/

namespace TgCurator

/-- `CORRELATION_FIELDS`. -/
def correlationFields : List String :=
  ["message_id", "source_channel_id", "processing_range_id", "range_execution_id",
    "analysis_run_id", "stage_run_id", "inference_call_id", "routing_evaluation_id",
    "publication_intent_id"]

/-- A `logging.LogRecord`: what `getMessage` returns, the name of the exception's type, and the
attributes given by `extra`. -/
structure LogRecord (n : ℕ) where
  levelname : String
  name : String
  message : String
  excInfo : Option String
  attributes : Dict String (LogValue n)

/-- `getattr(record, name, None)`. -/
def LogRecord.getattr {n : ℕ} (record : LogRecord n) (name : String) : LogValue n :=
  (record.attributes.lookup name).getD .null

/-- `isinstance(value, Mapping)`. -/
def isMapping {n : ℕ} (graph : KeyedGraph n) : LogValue n → Bool
  | .container id =>
    match graph id with
    | .mapping _ => true
    | .sequence _ => false
  | _ => false

section

variable {n : ℕ} (redactText : String → String) (floatText : ℚ → String) (graph : KeyedGraph n)
  (service timestamp : String) (record : LogRecord n)

/-- An item of the payload, unless the value is `None`. -/
def optionalItem (name : String) (fieldName : Option String) (value : LogValue n) :
    Option (Dict String Json) :=
  if value = .null then some []
  else (redactKeyed redactText graph ∅ fieldName value).map fun item => [(name, item)]

/-- The context of a record in its payload. -/
def contextItem (context : LogValue n) : Option (Dict String Json) :=
  if isMapping graph context then
    (redactKeyed redactText graph ∅ none context).map fun item => [("context", item)]
  else some []

/-- The payload of `JsonFormatter.format`, or nothing where the redaction raises. -/
def formatterPayload : Option (Dict String Json) := do
  let event ← optionalItem redactText graph "event" none (record.getattr "event")
  let fields ← correlationFields.mapM fun field =>
    optionalItem redactText graph field (some field) (record.getattr field)
  let context ← contextItem redactText graph (record.getattr "context")
  return [("timestamp", .str timestamp), ("service", .str service),
    ("level", .str record.levelname), ("logger", .str record.name),
    ("message", .str (redactText record.message))] ++ event ++ fields.flatten ++ context ++
      record.excInfo.toList.map fun exceptionType => ("exception_type", .str exceptionType)

/-- `JsonFormatter.format`, or nothing for the `ValueError` of the redaction or of the strict
dump. -/
def formatRecord : Option String := do
  let payload ← formatterPayload redactText graph service timestamp record
  if (Json.obj payload).isDumpable then
    some (String.ofList (jsonText floatText (.obj payload)))
  else none

/-- A value is logged under a name that is not sensitive. -/
inductive Logged : LogValue n → Prop
  | event : Logged (record.getattr "event")
  | correlation {field : String} (hfield : field ∈ correlationFields)
      (hsafe : isSensitiveField field = false) : Logged (record.getattr field)
  | context (h : isMapping graph (record.getattr "context") = true) :
      Logged (record.getattr "context")

/-- Every key met in a value has a `str`, and every number shown of it can be dumped. -/
structure Loggable (value : LogValue n) : Prop where
  keys : PrintsKeys graph value
  numbers : ∀ x, Shows (KeyedGraph.named graph) value (.num x) → x.isDumpable = true

variable {graph redactText}

theorem not_shows_num_null {graph : ObjectGraph n} {x : Number} :
    ¬ Shows graph .null (.num x) := by
  rintro (h | ⟨_, ⟨_, hroot, -⟩, -⟩)
  · cases h
  · cases hroot

theorem loggable_null : Loggable graph .null where
  keys _ _ hroot := nomatch hroot
  numbers _ hx := absurd hx not_shows_num_null

/-- A value is redacted to what can be dumped exactly if its name is sensitive or it can be
logged. -/
theorem redactKeyed_isDumpable_iff {fieldName : Option String} {value : LogValue n} :
    (∃ j, redactKeyed redactText graph ∅ fieldName value = some j ∧ j.isDumpable = true) ↔
      fieldName.any isSensitiveField = true ∨ Loggable graph value := by
  simp only [redactKeyed_eq_some_iff]
  constructor
  · rintro ⟨_, ⟨hkeys, rfl⟩, hdumpable⟩
    rw [Json.isDumpable, allNumbers_redactForLog_iff] at hdumpable
    refine or_iff_not_imp_left.mpr fun hsafe => ⟨hkeys.resolve_left hsafe, ?_⟩
    exact hdumpable.resolve_left hsafe
  · intro h
    refine ⟨_, ⟨h.imp_right Loggable.keys, rfl⟩, ?_⟩
    rw [Json.isDumpable, allNumbers_redactForLog_iff]
    exact h.imp_right Loggable.numbers

theorem optionalItem_isDumpable_iff {name : String} {fieldName : Option String}
    {value : LogValue n} :
    (∃ items, optionalItem redactText graph name fieldName value = some items ∧
        ∀ e ∈ items, e.2.isDumpable = true) ↔
      fieldName.any isSensitiveField = true ∨ Loggable graph value := by
  rw [optionalItem]
  split_ifs with h
  · subst h
    exact iff_of_true ⟨[], rfl, List.forall_mem_nil _⟩ (.inr loggable_null)
  · simp only [Option.map_eq_some_iff, exists_exists_and_eq_and, List.forall_mem_singleton,
      redactKeyed_isDumpable_iff]

theorem contextItem_isDumpable_iff {context : LogValue n} :
    (∃ items, contextItem redactText graph context = some items ∧
        ∀ e ∈ items, e.2.isDumpable = true) ↔
      (isMapping graph context = true → Loggable graph context) := by
  rw [contextItem]
  split_ifs with h
  · simp only [Option.map_eq_some_iff, exists_exists_and_eq_and, List.forall_mem_singleton,
      redactKeyed_isDumpable_iff, h, true_imp_iff]
    exact or_iff_right (by simp)
  · exact iff_of_true ⟨[], rfl, List.forall_mem_nil _⟩ fun hmapping => absurd hmapping h

/-- The items of a comprehension can all be dumped exactly if those of each field can. -/
theorem mapM_isDumpable_iff {items : String → Option (Dict String Json)} {fields : List String} :
    (∃ all, fields.mapM items = some all ∧ ∀ e ∈ all.flatten, e.2.isDumpable = true) ↔
      ∀ field ∈ fields, ∃ entries, items field = some entries ∧
        ∀ e ∈ entries, e.2.isDumpable = true := by
  induction fields with
  | nil => simp
  | cons field fields ih =>
    rw [List.forall_mem_cons, ← ih, List.mapM_cons]
    constructor
    · rintro ⟨all, hall, hdumpable⟩
      obtain ⟨entries, hentries, hall⟩ := Option.bind_eq_some_iff.mp hall
      obtain ⟨rest, hrest, hall⟩ := Option.bind_eq_some_iff.mp hall
      obtain rfl := Option.some.inj hall
      rw [List.flatten_cons, List.forall_mem_append] at hdumpable
      exact ⟨⟨entries, hentries, hdumpable.1⟩, rest, hrest, hdumpable.2⟩
    · rintro ⟨⟨entries, hentries, hfirst⟩, rest, hrest, hrest'⟩
      refine ⟨entries :: rest, ?_, List.forall_mem_append.mpr ⟨hfirst, hrest'⟩⟩
      exact Option.bind_eq_some_iff.mpr
        ⟨entries, hentries, Option.bind_eq_some_iff.mpr ⟨rest, hrest, rfl⟩⟩

variable {service timestamp record floatText}

theorem formatRecord_eq_some_iff :
    (∃ text, formatRecord redactText floatText graph service timestamp record = some text) ↔
      ∃ payload, formatterPayload redactText graph service timestamp record = some payload ∧
        ∀ e ∈ payload, e.2.isDumpable = true := by
  simp only [← allNumbersEntries_iff]
  constructor
  · rintro ⟨text, htext⟩
    obtain ⟨payload, hpayload, htext⟩ := Option.bind_eq_some_iff.mp htext
    split_ifs at htext with hdumpable
    rw [Json.isDumpable, Json.allNumbers] at hdumpable
    exact ⟨payload, hpayload, hdumpable⟩
  · rintro ⟨payload, hpayload, hdumpable⟩
    refine ⟨_, Option.bind_eq_some_iff.mpr ⟨payload, hpayload, if_pos ?_⟩⟩
    rw [Json.isDumpable, Json.allNumbers]
    exact hdumpable

/-- The payload can be dumped exactly if its parts can. -/
theorem formatterPayload_isDumpable_iff :
    (∃ payload, formatterPayload redactText graph service timestamp record = some payload ∧
        ∀ e ∈ payload, e.2.isDumpable = true) ↔
      (∃ event, optionalItem redactText graph "event" none (record.getattr "event") = some event ∧
        ∀ e ∈ event, e.2.isDumpable = true) ∧
      (∃ fields, (correlationFields.mapM fun field =>
          optionalItem redactText graph field (some field) (record.getattr field)) = some fields ∧
        ∀ e ∈ fields.flatten, e.2.isDumpable = true) ∧
      ∃ context, contextItem redactText graph (record.getattr "context") = some context ∧
        ∀ e ∈ context, e.2.isDumpable = true := by
  have htexts : ∀ e ∈ [("timestamp", Json.str timestamp), ("service", .str service),
      ("level", .str record.levelname), ("logger", .str record.name),
      ("message", .str (redactText record.message))], e.2.isDumpable = true := by
    simp [Json.allNumbers]
  have hexc : ∀ e ∈ record.excInfo.toList.map fun exceptionType =>
      ("exception_type", Json.str exceptionType), e.2.isDumpable = true := by
    simp [Json.allNumbers]
  unfold formatterPayload
  constructor
  · rintro ⟨payload, hpayload, hdumpable⟩
    obtain ⟨event, hevent, hpayload⟩ := Option.bind_eq_some_iff.mp hpayload
    obtain ⟨fields, hfields, hpayload⟩ := Option.bind_eq_some_iff.mp hpayload
    obtain ⟨context, hcontext, hpayload⟩ := Option.bind_eq_some_iff.mp hpayload
    obtain rfl := Option.some.inj hpayload
    simp only [List.forall_mem_append] at hdumpable
    obtain ⟨⟨⟨⟨-, hevent'⟩, hfields'⟩, hcontext'⟩, -⟩ := hdumpable
    exact ⟨⟨event, hevent, hevent'⟩, ⟨fields, hfields, hfields'⟩, context, hcontext, hcontext'⟩
  · rintro ⟨⟨event, hevent, hevent'⟩, ⟨fields, hfields, hfields'⟩, context, hcontext, hcontext'⟩
    refine ⟨_, Option.bind_eq_some_iff.mpr ⟨event, hevent, Option.bind_eq_some_iff.mpr
      ⟨fields, hfields, Option.bind_eq_some_iff.mpr ⟨context, hcontext, rfl⟩⟩⟩, ?_⟩
    simp only [List.forall_mem_append]
    exact ⟨⟨⟨⟨htexts, hevent'⟩, hfields'⟩, hcontext'⟩, hexc⟩

/-- A record is formatted exactly if all that it logs can be. -/
theorem formatRecord_iff :
    (∃ text, formatRecord redactText floatText graph service timestamp record = some text) ↔
      ∀ value, Logged graph record value → Loggable graph value := by
  rw [formatRecord_eq_some_iff, formatterPayload_isDumpable_iff, mapM_isDumpable_iff,
    contextItem_isDumpable_iff]
  simp only [optionalItem_isDumpable_iff]
  constructor
  · rintro ⟨hevent, hfields, hcontext⟩ value hlogged
    cases hlogged with
    | event => exact hevent.resolve_left (by simp)
    | correlation hfield hsafe => exact (hfields _ hfield).resolve_left (by simp [hsafe])
    | context h => exact hcontext h
  · refine fun h => ⟨.inr (h _ .event), fun field hfield => ?_, fun hmapping =>
      h _ (.context hmapping)⟩
    refine or_iff_not_imp_left.mpr fun hsafe => h _ (.correlation hfield ?_)
    exact Bool.eq_false_of_not_eq_true hsafe

/-- What is redacted of a record can be dumped, and the record is formatted, exactly if every
number shown of what it logs is finite and has at most 4300 digits and every key met in it has a
`str`. -/
theorem formats_iff :
    ((∀ value, Logged graph record value →
        ∃ j, redactKeyed redactText graph ∅ none value = some j ∧ j.isDumpable = true) ∧
      ∃ text, formatRecord redactText floatText graph service timestamp record = some text) ↔
      ∀ value, Logged graph record value → PrintsKeys graph value ∧
        ∀ x, Shows (KeyedGraph.named graph) value (.num x) →
          x.isFinite = true ∧ x.isPrintable = true := by
  have hloggable : ∀ value, Loggable graph value ↔ PrintsKeys graph value ∧
      ∀ x, Shows (KeyedGraph.named graph) value (.num x) →
        x.isFinite = true ∧ x.isPrintable = true := by
    intro value
    have hdumpable : ∀ x : Number, x.isDumpable = true ↔ x.isFinite = true ∧ x.isPrintable = true :=
      fun x => by rw [Number.isDumpable, Bool.and_eq_true]
    simp only [← hdumpable]
    exact ⟨fun h => ⟨h.keys, h.numbers⟩, fun h => ⟨h.1, h.2⟩⟩
  have hvalues : ∀ value, (∃ j, redactKeyed redactText graph ∅ none value = some j ∧
      j.isDumpable = true) ↔ Loggable graph value :=
    fun _ => redactKeyed_isDumpable_iff.trans (or_iff_right (by simp))
  simp only [hvalues, formatRecord_iff, and_self_iff, hloggable]

end

/-- A record with NaN for its event. -/
def nanRecord : LogRecord 0 where
  levelname := "INFO"
  name := "tgcurator"
  message := "rescored"
  excInfo := none
  attributes := [("event", .num .nan)]

/-- The record of an event that is NaN is lost. -/
theorem not_formats_nan :
    formatRecord id (fun _ => "0.5") (fun i => i.elim0) "worker" "12:00" nanRecord = none := by
  have hevent : nanRecord.getattr "event" = .num .nan := by
    simp [LogRecord.getattr, nanRecord]
  refine Option.eq_none_iff_forall_ne_some.mpr fun text htext => ?_
  have hloggable := formatRecord_iff.mp ⟨text, htext⟩ _ .event
  exact absurd (hloggable.numbers .nan (.inl hevent)) (by decide)

end TgCurator
