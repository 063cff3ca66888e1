import Mathlib.Data.Finset.Card
import Mathlib.Data.Fintype.Basic
import Mathlib.Data.List.DropRight
import Mathlib.Data.List.Infix
import TgCurator.FreshPath
import TgCurator.Shared

/-!
# What a log record shows

`redact_for_log` of `infrastructure/observability/logging.py` on the values of a log record. The
values are an object graph: a container is referred to by its identity, so that containers may be
shared and may contain themselves, and the traversal carries the containers it is in.

A value is shown when it is reached without a field name that is sensitive (`Shows`), and what the
redactor does is a matter of what is shown: the numbers of its result are those shown
(`allNumbers_redactForLog_iff`), and a value is removed exactly if its own key is sensitive or its
mapping is not shown (`removed_iff`).

A mapping is given by the `str` of its keys, and the redaction of a text is a parameter.
-/

namespace TgCurator

/-! ## Field names -/

/-- `str.lower` of a character, as far as it yields a letter or a digit of ASCII: besides the
ASCII capitals only the Kelvin sign and the dotted capital I do. -/
def lowerChar (c : Char) : List Char :=
  if 'A' ≤ c && c ≤ 'Z' then [Char.ofNat (c.toNat + 32)]
  else if c = '\u212a' then ['k']
  else if c = '\u0130' then ['i', '\u0307']
  else [c]

/-- `str.lower`. -/
def lowerName (name : String) : List Char :=
  name.toList.flatMap lowerChar

/-- `[a-z0-9]`. -/
def isFieldChar (c : Char) : Bool :=
  ('a' ≤ c && c ≤ 'z') || ('0' ≤ c && c ≤ '9')

/-- `re.sub(r"[^a-z0-9]+", "_", name)`, within a run of other characters or not. -/
def underscoreRuns : Bool → List Char → List Char
  | _, [] => []
  | inRun, c :: cs =>
    if isFieldChar c then c :: underscoreRuns false cs
    else if inRun then underscoreRuns true cs
    else '_' :: underscoreRuns true cs

/-- `_normalize_field_name`. -/
def normalizeFieldName (fieldName : String) : List Char :=
  ((underscoreRuns false (lowerName fieldName)).dropWhile (· = '_')).rdropWhile (· = '_')

/-- `_SAFE_SECRET_METADATA_FIELDS`. -/
def safeSecretMetadataFields : List String :=
  ["secret_id", "secret_type", "key_id", "secret_configured"]

/-- `_SENSITIVE_PHRASES`. -/
def sensitivePhrases : List String :=
  ["password", "passwd", "api_key", "api_hash", "bot_token", "token", "access_token",
    "refresh_token", "authorization", "cookie", "set_cookie", "telegram_session",
    "session_string", "login_code", "verification_code", "phone_code", "two_factor", "2fa", "otp",
    "csrf", "ciphertext", "nonce", "master_key", "secret_value", "secret_plaintext"]

/-- Whether the name of a field is one of `_SAFE_SECRET_METADATA_FIELDS`. -/
def isSafeField (fieldName : String) : Bool :=
  safeSecretMetadataFields.any fun safe => safe.toList == normalizeFieldName fieldName

/-- `_is_sensitive_field`. -/
def isSensitiveField (fieldName : String) : Bool :=
  !isSafeField fieldName &&
    sensitivePhrases.any fun phrase => decide (phrase.toList <:+: normalizeFieldName fieldName)

/-! ## Values -/

/-- A value of a log record, in an object graph with `n` containers. -/
inductive LogValue (n : ℕ)
  | null
  | bool (b : Bool)
  | num (x : Number)
  | str (s : String)
  | bytes (length : ℕ)
  /-- A `SecretStr` or `SecretBytes`. -/
  | secret
  /-- A UUID, date, path or member of an enumeration, by its `str`. -/
  | text (s : String)
  /-- Another object, by the name of its type. -/
  | object (typeName : String)
  | container (id : Fin n)
  deriving DecidableEq

/-- What a container holds: the items of a mapping by the `str` of their keys, the last item of
each, or the items of a list, tuple or set. -/
inductive Container (n : ℕ)
  | mapping (entries : Dict String (LogValue n)) (nodup : entries.keys.Nodup)
  | sequence (items : List (LogValue n))

/-- An object graph. -/
abbrev ObjectGraph (n : ℕ) := Fin n → Container n

/-- `REDACTED_VALUE`. -/
def redactedValue : String :=
  "[REDACTED]"

/-- `RECURSIVE_VALUE`. -/
def recursiveValue : String :=
  "[RECURSIVE]"

section

variable {n : ℕ} (redactText : String → String)

theorem card_sdiff_insert_lt {id : Fin n} {seen : Finset (Fin n)} (h : id ∉ seen) :
    (Finset.univ \ insert id seen).card < (Finset.univ \ seen).card := by
  refine Finset.card_lt_card (Finset.ssubset_iff_of_subset ?_ |>.mpr ⟨id, ?_, ?_⟩)
  · exact Finset.sdiff_subset_sdiff (Finset.Subset.refl _) (Finset.subset_insert _ _)
  · simp [h]
  · simp

/-- `redact_for_log`. -/
def redactForLog (graph : ObjectGraph n) (seen : Finset (Fin n)) (fieldName : Option String)
    (value : LogValue n) : Json :=
  if fieldName.any isSensitiveField then .str redactedValue
  else
    match value with
    | .secret => .str redactedValue
    | .null => .null
    | .bool b => .bool b
    | .num x => .num x
    | .str s => .str (redactText s)
    | .bytes length => .str ("<bytes:" ++ length.repr ++ ">")
    | .text s => .str s
    | .object typeName => .str ("<" ++ typeName ++ ">")
    | .container id =>
      if _h : id ∈ seen then .str recursiveValue
      else
        match graph id with
        | .mapping entries _ => .obj (entries.map fun e =>
            (e.1, redactForLog graph (insert id seen) (some e.1) e.2))
        | .sequence items => .arr (items.map fun item =>
            redactForLog graph (insert id seen) none item)
termination_by (Finset.univ \ seen).card
decreasing_by all_goals exact card_sdiff_insert_lt _h

variable {graph : ObjectGraph n} {seen : Finset (Fin n)} {fieldName : Option String} {id : Fin n}
  {redactText}

theorem redactForLog_sensitive (h : fieldName.any isSensitiveField = true)
    (value : LogValue n) :
    redactForLog redactText graph seen fieldName value = .str redactedValue := by
  rw [redactForLog.eq_def, if_pos h]

theorem redactForLog_seen (hfield : fieldName.any isSensitiveField = false) (hid : id ∈ seen) :
    redactForLog redactText graph seen fieldName (.container id) = .str recursiveValue := by
  rw [redactForLog, hfield]
  simp [hid]

theorem redactForLog_mapping (hfield : fieldName.any isSensitiveField = false) (hid : id ∉ seen)
    {entries : Dict String (LogValue n)} {nodup : entries.keys.Nodup}
    (hgraph : graph id = .mapping entries nodup) :
    redactForLog redactText graph seen fieldName (.container id) = .obj (entries.map fun e =>
      (e.1, redactForLog redactText graph (insert id seen) (some e.1) e.2)) := by
  rw [redactForLog, hfield]
  simp [hid, hgraph]

theorem redactForLog_sequence (hfield : fieldName.any isSensitiveField = false) (hid : id ∉ seen)
    {items : List (LogValue n)} (hgraph : graph id = .sequence items) :
    redactForLog redactText graph seen fieldName (.container id) = .arr (items.map fun item =>
      redactForLog redactText graph (insert id seen) none item) := by
  rw [redactForLog, hfield]
  simp [hid, hgraph]

/-- What holds of the containers seen holds if it does whenever it holds of one more. -/
theorem seen_induction {P : Finset (Fin n) → Prop}
    (h : ∀ seen, (∀ id ∉ seen, P (insert id seen)) → P seen) (seen : Finset (Fin n)) :
    P seen := by
  induction hcard : (Finset.univ \ seen).card using Nat.strong_induction_on generalizing seen with
  | _ card ih =>
    subst hcard
    exact h seen fun id hid => ih _ (card_sdiff_insert_lt hid) _ rfl

/-! ## What is shown -/

/-- A container holds a value under no sensitive name. -/
def Holds (graph : ObjectGraph n) (id : Fin n) (value : LogValue n) : Prop :=
  match graph id with
  | .mapping entries _ => ∃ key, (key, value) ∈ entries ∧ isSensitiveField key = false
  | .sequence items => value ∈ items

/-- A container holds another one under no sensitive name. -/
def Edge (graph : ObjectGraph n) (id id' : Fin n) : Prop :=
  Holds graph id (.container id')

/-- A container is reached from a value under no sensitive name. -/
def Exposed (graph : ObjectGraph n) (value : LogValue n) (id : Fin n) : Prop :=
  ∃ root, value = .container root ∧ Relation.ReflTransGen (Edge graph) root id

/-- A value is reached from another one under no sensitive name. -/
def Shows (graph : ObjectGraph n) (value shown : LogValue n) : Prop :=
  value = shown ∨ ∃ id, Exposed graph value id ∧ Holds graph id shown

/-- A value is reached without entering a container that was seen. -/
def ShowsFrom (graph : ObjectGraph n) (seen : Finset (Fin n)) (value shown : LogValue n) : Prop :=
  value = shown ∨ ∃ root id, value = .container root ∧
    FreshPath.Fresh (Edge graph) seen root id ∧ Holds graph id shown

variable {value shown : LogValue n}

theorem holds_mapping_iff {entries : Dict String (LogValue n)} {nodup : entries.keys.Nodup}
    (h : graph id = .mapping entries nodup) :
    Holds graph id value ↔ ∃ key, (key, value) ∈ entries ∧ isSensitiveField key = false := by
  rw [Holds, h]

theorem holds_sequence_iff {items : List (LogValue n)} (h : graph id = .sequence items) :
    Holds graph id value ↔ value ∈ items := by
  rw [Holds, h]

theorem showsFrom_empty_iff : ShowsFrom graph ∅ value shown ↔ Shows graph value shown := by
  refine or_congr_right ⟨?_, ?_⟩
  · rintro ⟨root, id, hroot, hpath, hholds⟩
    exact ⟨id, ⟨root, hroot, FreshPath.fresh_iff.mp hpath⟩, hholds⟩
  · rintro ⟨id, ⟨root, hroot, hpath⟩, hholds⟩
    exact ⟨root, id, hroot, FreshPath.fresh_iff.mpr hpath, hholds⟩

/-- A value that is no container shows itself. -/
theorem showsFrom_iff_of_ne (h : ∀ id, value ≠ .container id) :
    ShowsFrom graph seen value shown ↔ value = shown := by
  refine ⟨fun hshows => ?_, .inl⟩
  rcases hshows with hshows | ⟨root, _, hroot, -⟩
  · exact hshows
  · exact absurd hroot (h root)

/-- A container that was not seen shows what the values it holds show. -/
theorem showsFrom_container_iff (hid : id ∉ seen) (hshown : .container id ≠ shown) :
    ShowsFrom graph seen (.container id) shown ↔
      ∃ item, Holds graph id item ∧ ShowsFrom graph (insert id seen) item shown := by
  constructor
  · rintro (h | ⟨root, id', hroot, hpath, hholds⟩)
    · exact absurd h hshown
    · obtain rfl := LogValue.container.inj hroot
      cases hpath with
      | refl => exact ⟨shown, hholds, .inl rfl⟩
      | step _ hedge hpath => exact ⟨_, hedge, .inr ⟨_, id', rfl, hpath, hholds⟩⟩
  · rintro ⟨item, hitem, rfl | ⟨root, id', rfl, hpath, hholds⟩⟩
    · exact .inr ⟨id, id, rfl, .refl hid, hitem⟩
    · exact .inr ⟨id, id', rfl, .step hid hitem hpath, hholds⟩

/-! ## Numbers -/

/-- The numbers of the result are those shown, and none if the name is sensitive. -/
theorem allNumbers_redactForLog_from (p : Number → Bool) (seen : Finset (Fin n)) :
    ∀ (fieldName : Option String) (value : LogValue n),
      (redactForLog redactText graph seen fieldName value).allNumbers p = true ↔
        fieldName.any isSensitiveField = true ∨
          ∀ x, ShowsFrom graph seen value (.num x) → p x = true := by
  induction seen using seen_induction with
  | h seen ih =>
  intro fieldName value
  cases hfield : fieldName.any isSensitiveField with
  | true =>
    rw [redactForLog_sensitive hfield]
    simp [Json.allNumbers]
  | false =>
    simp only [Bool.false_eq_true, false_or]
    cases value with
    | container id =>
      by_cases hid : id ∈ seen
      · rw [redactForLog_seen hfield hid]
        refine ⟨fun _ x hx => ?_, fun _ => by simp [Json.allNumbers]⟩
        obtain h | ⟨root, id', hroot, hpath, -⟩ := hx
        · cases h
        · obtain rfl := LogValue.container.inj hroot
          exact absurd hid hpath.notMem_left
      · have hitems : (∀ x, ShowsFrom graph seen (.container id) (.num x) → p x = true) ↔
            ∀ item, Holds graph id item → ∀ x, ShowsFrom graph (insert id seen) item (.num x) →
              p x = true := by
          simp only [showsFrom_container_iff hid (by simp : LogValue.container id ≠ .num _)]
          constructor
          · exact fun h item hitem x hx => h x ⟨item, hitem, hx⟩
          · rintro h x ⟨item, hitem, hx⟩
            exact h item hitem x hx
        rw [hitems]
        cases hgraph : graph id with
        | mapping entries nodup =>
          rw [redactForLog_mapping hfield hid hgraph, Json.allNumbers, allNumbersEntries_iff,
            List.forall_mem_map]
          simp only [ih id hid, holds_mapping_iff hgraph, Option.any_some]
          constructor
          · rintro h item ⟨key, hmem, hkey⟩
            exact (h (key, item) hmem).resolve_left (by simp [hkey])
          · intro h e he
            cases hkey : isSensitiveField e.1 with
            | true => exact .inl rfl
            | false => exact .inr (h e.2 ⟨e.1, he, hkey⟩)
        | sequence items =>
          rw [redactForLog_sequence hfield hid hgraph, Json.allNumbers, allNumbersItems_iff,
            List.forall_mem_map]
          simp only [ih id hid, holds_sequence_iff hgraph, Option.any_none, Bool.false_eq_true,
            false_or]
    | num x =>
      rw [redactForLog, hfield]
      simp [showsFrom_iff_of_ne, Json.allNumbers]
    | _ =>
      rw [redactForLog, hfield]
      simp [showsFrom_iff_of_ne, Json.allNumbers]

/-- The numbers of the result are those shown. -/
theorem allNumbers_redactForLog_iff {p : Number → Bool} :
    (redactForLog redactText graph ∅ fieldName value).allNumbers p = true ↔
      fieldName.any isSensitiveField = true ∨
        ∀ x, Shows graph value (.num x) → p x = true := by
  simp only [allNumbers_redactForLog_from, showsFrom_empty_iff]

/-! ## Removed values -/

/-- The items of a mapping, with another value for a key. -/
def setItems (entries : Dict String (LogValue n)) (key : String) (item : LogValue n) :
    Dict String (LogValue n) :=
  entries.map fun e => if e.1 = key then (e.1, item) else e

theorem keys_setItems (entries : Dict String (LogValue n)) (key : String) (item : LogValue n) :
    (setItems entries key item).keys = entries.keys := by
  rw [setItems, Dict.keys, List.map_map]
  refine List.map_congr_left fun e _ => ?_
  rw [Function.comp_apply]
  split_ifs <;> rfl

/-- A container, with another value for a key if it is a mapping. -/
def Container.setItem (key : String) (item : LogValue n) : Container n → Container n
  | .mapping entries nodup =>
    .mapping (setItems entries key item) ((keys_setItems entries key item).symm ▸ nodup)
  | .sequence items => .sequence items

/-- The graph with another value for a key of a mapping. -/
def ObjectGraph.setItem (graph : ObjectGraph n) (id : Fin n) (key : String) (item : LogValue n) :
    ObjectGraph n :=
  Function.update graph id ((graph id).setItem key item)

/-- What a record shows of a value does not depend on the item of a mapping under a key. -/
def Removed (redactText : String → String) (graph : ObjectGraph n) (value : LogValue n)
    (id : Fin n) (key : String) : Prop :=
  ∀ item, redactForLog redactText (ObjectGraph.setItem graph id key item) ∅ none value =
    redactForLog redactText graph ∅ none value

/-- Containers that differ in nothing but values under sensitive names. -/
inductive SameShown : Container n → Container n → Prop
  | mapping {entries entries' : Dict String (LogValue n)} {nodup : entries.keys.Nodup}
      {nodup' : entries'.keys.Nodup}
      (h : List.Forall₂ (fun e e' => e.1 = e'.1 ∧ (isSensitiveField e.1 = true ∨ e.2 = e'.2))
        entries entries') : SameShown (.mapping entries nodup) (.mapping entries' nodup')
  | sequence (items : List (LogValue n)) : SameShown (.sequence items) (.sequence items)

theorem SameShown.refl (container : Container n) : SameShown container container := by
  cases container with
  | mapping entries nodup =>
    exact .mapping (List.forall₂_same.mpr fun e _ => ⟨rfl, .inr rfl⟩)
  | sequence items => exact .sequence items

/-- Items that differ in nothing but values under sensitive names are shown alike if the others
are. -/
theorem map_redact_congr {graph' : ObjectGraph n} (seen seen' : Finset (Fin n))
    {entries entries' : Dict String (LogValue n)}
    (h : List.Forall₂ (fun e e' => e.1 = e'.1 ∧ (isSensitiveField e.1 = true ∨ e.2 = e'.2))
      entries entries')
    (hitem : ∀ e ∈ entries, isSensitiveField e.1 = false →
      redactForLog redactText graph seen (some e.1) e.2 =
        redactForLog redactText graph' seen' (some e.1) e.2) :
    (entries.map fun e => (e.1, redactForLog redactText graph seen (some e.1) e.2)) =
      entries'.map fun e => (e.1, redactForLog redactText graph' seen' (some e.1) e.2) := by
  induction h with
  | nil => rfl
  | @cons e e' _ _ he _ ih =>
    obtain ⟨hname, hvalue⟩ := he
    rw [List.map_cons, List.map_cons, ih fun e he => hitem e (List.mem_cons_of_mem _ he), ← hname]
    congr 2
    cases hkey : isSensitiveField e.1 with
    | true => rw [redactForLog_sensitive (by simpa), redactForLog_sensitive (by simpa)]
    | false => rw [hitem e (List.mem_cons_self ..) hkey, hvalue.resolve_left (by simp [hkey])]

/-- Graphs that agree, up to sensitive names, in the containers that are reached, are shown
alike. -/
theorem redactForLog_congr {graph' : ObjectGraph n} (seen : Finset (Fin n)) :
    ∀ (fieldName : Option String) (value : LogValue n),
      (∀ root id, value = .container root → FreshPath.Fresh (Edge graph) seen root id →
        SameShown (graph id) (graph' id)) →
      redactForLog redactText graph seen fieldName value =
        redactForLog redactText graph' seen fieldName value := by
  induction seen using seen_induction with
  | h seen ih =>
  intro fieldName value h
  cases hfield : fieldName.any isSensitiveField with
  | true => rw [redactForLog_sensitive hfield, redactForLog_sensitive hfield]
  | false =>
    cases value with
    | container id =>
      by_cases hid : id ∈ seen
      · rw [redactForLog_seen hfield hid, redactForLog_seen hfield hid]
      · have hitem : ∀ fieldName item, Holds graph id item →
            redactForLog redactText graph (insert id seen) fieldName item =
              redactForLog redactText graph' (insert id seen) fieldName item := by
          intro fieldName item hholds
          refine ih id hid fieldName item fun root id' hroot hpath => ?_
          subst hroot
          exact h id id' rfl (.step hid hholds hpath)
        have hsame := h id id rfl (.refl hid)
        generalize hgraph : graph id = container at hsame
        generalize hgraph' : graph' id = container' at hsame
        cases hsame with
        | mapping hentries =>
          rw [redactForLog_mapping hfield hid hgraph, redactForLog_mapping hfield hid hgraph']
          congr 1
          refine map_redact_congr _ _ hentries fun e he hkey => ?_
          exact hitem (some e.1) e.2 ((holds_mapping_iff hgraph).mpr ⟨e.1, he, hkey⟩)
        | sequence items =>
          rw [redactForLog_sequence hfield hid hgraph, redactForLog_sequence hfield hid hgraph']
          congr 1
          exact List.map_congr_left fun item hmem =>
            hitem none item ((holds_sequence_iff hgraph).mpr hmem)
    | _ =>
      rw [redactForLog, redactForLog]

theorem setItem_of_ne {id' : Fin n} (h : id' ≠ id) (key : String) (item : LogValue n) :
    ObjectGraph.setItem graph id key item id' = graph id' :=
  Function.update_of_ne h ..

theorem setItem_mapping {entries : Dict String (LogValue n)} {nodup : entries.keys.Nodup}
    (h : graph id = .mapping entries nodup) (key : String) (item : LogValue n) :
    ∃ nodup', ObjectGraph.setItem graph id key item id =
      .mapping (setItems entries key item) nodup' := by
  refine ⟨?_, ?_⟩
  · rwa [keys_setItems]
  · rw [ObjectGraph.setItem, Function.update_self, h]
    rfl

/-- A sensitive key is shown alike with any value. -/
theorem sameShown_setItem {key : String} (h : isSensitiveField key = true) (item : LogValue n)
    (container : Container n) : SameShown container (container.setItem key item) := by
  cases container with
  | mapping entries nodup =>
    refine .mapping ?_
    rw [setItems, List.forall₂_map_right_iff, List.forall₂_same]
    intro e _
    split_ifs with hkey
    · exact ⟨rfl, .inl (hkey ▸ h)⟩
    · exact ⟨rfl, .inr rfl⟩
  | sequence items => exact .sequence items

/-- A key of a container that is reached, if its name is not sensitive, is shown with its value. -/
theorem redactForLog_setItem_ne {root : Fin n} {key : String}
    {entries : Dict String (LogValue n)} {nodup : entries.keys.Nodup}
    (hpath : FreshPath.Fresh (Edge graph) seen root id) (hgraph : graph id = .mapping entries nodup)
    (hmem : key ∈ entries.keys) (hkey : isSensitiveField key = false)
    (hfield : fieldName.any isSensitiveField = false) :
    redactForLog redactText (ObjectGraph.setItem graph id key .null) seen fieldName
        (.container root) ≠
      redactForLog redactText (ObjectGraph.setItem graph id key (.bool true)) seen fieldName
        (.container root) := by
  intro heq
  induction hpath generalizing fieldName with
  | @refl seen id hid =>
    obtain ⟨_, hnull⟩ := setItem_mapping hgraph key .null
    obtain ⟨_, htrue⟩ := setItem_mapping hgraph key (.bool true)
    rw [redactForLog_mapping hfield hid hnull, redactForLog_mapping hfield hid htrue,
      Json.obj.injEq, setItems, setItems, List.map_map, List.map_map, List.map_inj_left] at heq
    obtain ⟨v, hv⟩ := Dict.mem_keys.mp hmem
    have hitem := heq (key, v) hv
    rw [Function.comp_apply, Function.comp_apply, if_pos rfl, if_pos rfl, redactForLog,
      redactForLog] at hitem
    simp [hkey] at hitem
  | @step seen a b id ha hedge hpath ih =>
    have hne : a ≠ id := by
      rintro rfl
      exact hpath.notMem_right (Finset.mem_insert_self ..)
    cases ha' : graph a with
    | mapping entries' nodup' =>
      obtain ⟨name, hname, hsafe⟩ := (holds_mapping_iff ha').mp hedge
      rw [redactForLog_mapping hfield ha ((setItem_of_ne hne ..).trans ha'),
        redactForLog_mapping hfield ha ((setItem_of_ne hne ..).trans ha'), Json.obj.injEq,
        List.map_inj_left] at heq
      exact ih hgraph (by simpa using hsafe) (Prod.mk.inj (heq _ hname)).2
    | sequence items =>
      have hitem := (holds_sequence_iff ha').mp hedge
      rw [redactForLog_sequence hfield ha ((setItem_of_ne hne ..).trans ha'),
        redactForLog_sequence hfield ha ((setItem_of_ne hne ..).trans ha'), Json.arr.injEq,
        List.map_inj_left] at heq
      exact ih hgraph rfl (heq _ hitem)

/-- A key of a mapping is removed exactly if its name is sensitive or its mapping not reached. -/
theorem removed_iff {key : String} {entries : Dict String (LogValue n)}
    {nodup : entries.keys.Nodup} (hgraph : graph id = .mapping entries nodup)
    (hmem : key ∈ entries.keys) :
    Removed redactText graph value id key ↔
      isSensitiveField key = true ∨ ¬ Exposed graph value id := by
  constructor
  · intro h
    by_contra hcon
    rw [not_or, not_not, Bool.not_eq_true] at hcon
    obtain ⟨hkey, root, rfl, hpath⟩ := hcon
    exact redactForLog_setItem_ne (FreshPath.fresh_iff.mpr hpath) hgraph hmem hkey rfl
      ((h .null).trans (h (.bool true)).symm)
  · intro h item
    refine (redactForLog_congr ∅ none value fun root id' hroot hpath => ?_).symm
    by_cases hid : id' = id
    · subst hid
      have hkey := h.resolve_right (not_not.mpr ⟨root, hroot, FreshPath.fresh_iff.mp hpath⟩)
      rw [ObjectGraph.setItem, Function.update_self]
      exact sameShown_setItem hkey item _
    · rw [setItem_of_ne hid]
      exact .refl _

end

end TgCurator
