import TgCurator.JsonText
import TgCurator.Review.Labels
import TgCurator.Runs

/-!
# Configuration versions

`ConfigurationVersion` of `domain/configuration/versions.py`: a JSON document with its hash, which
is revised while it is a draft, then published, then retired. `json.loads`, which the constructor
reads the document with, the text of a float and `sha256` are parameters.

`configuration_history`: in every run of calls, of which those that raise leave the version as it
is, the document can be read and has its hash, the version keeps its identity and goes on in its
life cycle, and once it is published nothing but its state changes. Each call is accepted exactly
in its state.
-/

namespace TgCurator

/-- `ConfigurationState`. -/
inductive ConfigurationState
  | draft | published | retired
  deriving DecidableEq

/-- The place of a state in the life cycle. -/
def ConfigurationState.rank : ConfigurationState → ℕ
  | draft => 0
  | published => 1
  | retired => 2

/-- The functions of the standard library that a version is made with. -/
structure ConfigurationCodec where
  floatText : ℚ → String
  /-- `json.loads`, where it raises no `ValueError`. -/
  loads : String → Option Json
  sha256 : String → String

/-- The arguments of `ConfigurationVersion`. -/
structure ConfigurationVersionFields where
  versionId : String
  configurationKind : String
  versionNumber : ℤ
  contentJson : String
  contentHash : String
  state : ConfigurationState := .draft
  publishedAt : Option ℤ := none
  deriving DecidableEq

section

variable (codec : ConfigurationCodec)

/-- `_load_json_object`. -/
def loadJsonObject (contentJson : String) : Except PyError (List (String × Json)) :=
  match codec.loads contentJson with
  | none => .error (.domainValidation "content_json must contain valid JSON" [])
  | some (.obj entries) => .ok entries
  | some _ => .error (.domainValidation "content_json must contain a JSON object" [])

/-- `__post_init__`. -/
def ConfigurationVersionFields.postInit (fields : ConfigurationVersionFields) :
    Except PyError Unit := do
  requireNonblank fields.versionId "version_id"
  requireNonblank fields.configurationKind "configuration_kind"
  ensure (1 ≤ fields.versionNumber) "version_number must be at least one"
  let _ ← loadJsonObject codec fields.contentJson
  ensure (fields.contentHash = codec.sha256 fields.contentJson)
    "content_hash does not match content_json"
  match fields.state with
  | .draft => ensure fields.publishedAt.isNone "a draft configuration cannot have published_at"
  | _ =>
    ensure fields.publishedAt.isSome "published and retired configurations require published_at"

/-- `ConfigurationVersion`. -/
structure ConfigurationVersion extends ConfigurationVersionFields where
  checked : toConfigurationVersionFields.postInit codec = .ok ()

/-- The constructor. -/
def ConfigurationVersionFields.create (fields : ConfigurationVersionFields) :
    Except PyError (ConfigurationVersion codec) :=
  match h : fields.postInit codec with
  | .ok () => .ok ⟨fields, h⟩
  | .error e => .error e

/-- `draft`. -/
def draftConfiguration (versionId configurationKind : String) (versionNumber : ℤ)
    (definition : Json) : Except PyError (ConfigurationVersion codec) := do
  ensure (definition matches .obj _) "configuration definition must be an object"
  ensure definition.isDumpable "configuration definition must be JSON serializable"
  let contentJson := canonicalText codec.floatText definition
  ConfigurationVersionFields.create codec {
    versionId := versionId
    configurationKind := configurationKind
    versionNumber := versionNumber
    contentJson := contentJson
    contentHash := codec.sha256 contentJson }

end

variable {codec : ConfigurationCodec}

namespace ConfigurationVersion

/-- `definition`. -/
def definition (version : ConfigurationVersion codec) : Except PyError (List (String × Json)) :=
  loadJsonObject codec version.contentJson

/-- `publish`. -/
def publish (version : ConfigurationVersion codec) (publishedAt : ℤ) :
    Except PyError (ConfigurationVersion codec) := do
  ensure (version.state = .draft) "only a draft configuration can be published"
  ConfigurationVersionFields.create codec { version.toConfigurationVersionFields with
    state := .published
    publishedAt := some publishedAt }

/-- `revise`. -/
def revise (version : ConfigurationVersion codec) (definition : Json) :
    Except PyError (ConfigurationVersion codec) := do
  ensure (version.state = .draft) "published or retired configuration versions are immutable"
  draftConfiguration codec version.versionId version.configurationKind version.versionNumber
    definition

/-- `retire`. -/
def retire (version : ConfigurationVersion codec) :
    Except PyError (ConfigurationVersion codec) := do
  ensure (version.state = .published) "only a published configuration can be retired"
  ConfigurationVersionFields.create codec { version.toConfigurationVersionFields with
    state := .retired }

end ConfigurationVersion

/-! ## Runs -/

/-- A call on a version. -/
inductive ConfigurationCall
  | publish (publishedAt : ℤ)
  | revise (definition : Json)
  | retire

/-- What a call returns. -/
def ConfigurationVersion.call (version : ConfigurationVersion codec) :
    ConfigurationCall → Except PyError (ConfigurationVersion codec)
  | .publish publishedAt => version.publish publishedAt
  | .revise definition => version.revise definition
  | .retire => version.retire

/-- A call that raises leaves the version as it is. -/
def configurationStep (version : ConfigurationVersion codec) (call : ConfigurationCall) :
    Option (ConfigurationVersion codec) :=
  match version.call call with
  | .ok version' => some version'
  | .error _ => some version

/-- What a version is later: it has the same identity and is not further back in its life cycle;
and what was published stays. -/
structure ConfigurationVersion.Later (version version' : ConfigurationVersion codec) : Prop where
  versionId : version'.versionId = version.versionId
  configurationKind : version'.configurationKind = version.configurationKind
  versionNumber : version'.versionNumber = version.versionNumber
  state : version.state.rank ≤ version'.state.rank
  frozen : version.state ≠ .draft → version'.contentJson = version.contentJson ∧
    version'.contentHash = version.contentHash ∧ version'.publishedAt = version.publishedAt

variable {version version' version'' : ConfigurationVersion codec} {call : ConfigurationCall}

theorem ConfigurationVersionFields.create_eq_ok {fields : ConfigurationVersionFields} :
    fields.create codec = .ok version ↔ version.toConfigurationVersionFields = fields := by
  unfold create
  split
  case h_1 h =>
    constructor
    · intro heq
      rw [← Except.ok.inj heq]
    · rintro rfl
      rfl
  case h_2 e h =>
    refine iff_of_false (fun heq => by cases heq) ?_
    rintro rfl
    rw [version.checked] at h
    cases h

/-- What the constructor has checked. -/
theorem ConfigurationVersion.checks (version : ConfigurationVersion codec) :
    (∃ entries, version.definition = .ok entries) ∧
      version.contentHash = codec.sha256 version.contentJson ∧
      (version.state = .draft ↔ version.publishedAt = none) := by
  have h := version.checked
  simp only [ConfigurationVersionFields.postInit, seq_eq_ok] at h
  obtain ⟨-, -, -, h⟩ := h
  obtain ⟨entries, hentries, h⟩ := bind_eq_ok.mp h
  obtain ⟨hhash, hstate⟩ := seq_eq_ok.mp h
  refine ⟨⟨entries, hentries⟩, of_decide_eq_true (ensure_eq_ok.mp hhash), ?_⟩
  cases hcase : version.state with
  | draft =>
    rw [hcase] at hstate
    exact iff_of_true rfl (Option.isNone_iff_eq_none.mp (ensure_eq_ok.mp hstate))
  | published =>
    rw [hcase] at hstate
    have hsome := ensure_eq_ok.mp hstate
    exact iff_of_false (by decide) (Option.isSome_iff_ne_none.mp hsome)
  | retired =>
    rw [hcase] at hstate
    have hsome := ensure_eq_ok.mp hstate
    exact iff_of_false (by decide) (Option.isSome_iff_ne_none.mp hsome)

/-- A document that was accepted is accepted with a time in a later state. -/
theorem ConfigurationVersionFields.postInit_timed {fields : ConfigurationVersionFields}
    (h : fields.postInit codec = .ok ()) {state : ConfigurationState} (hstate : state ≠ .draft)
    (time : ℤ) :
    ({ fields with state := state, publishedAt := some time } :
      ConfigurationVersionFields).postInit codec = .ok () := by
  simp only [postInit, seq_eq_ok] at h ⊢
  obtain ⟨hid, hkind, hnumber, h⟩ := h
  obtain ⟨entries, hentries, h⟩ := bind_eq_ok.mp h
  refine ⟨hid, hkind, hnumber, bind_eq_ok.mpr ⟨entries, hentries, seq_eq_ok.mpr
    ⟨(seq_eq_ok.mp h).1, ?_⟩⟩⟩
  cases state with
  | draft => exact absurd rfl hstate
  | published => rfl
  | retired => rfl

/-- A version is published exactly from a draft. -/
theorem ConfigurationVersion.publish_iff (version : ConfigurationVersion codec) (time : ℤ) :
    (∃ version', version.publish time = .ok version') ↔ version.state = .draft := by
  constructor
  · rintro ⟨version', h⟩
    exact of_decide_eq_true (ensure_eq_ok.mp (seq_eq_ok.mp h).1)
  · intro hdraft
    have hchecked := ConfigurationVersionFields.postInit_timed version.checked
      (by decide : ConfigurationState.published ≠ .draft) time
    exact ⟨⟨_, hchecked⟩, seq_eq_ok.mpr ⟨ensure_eq_ok.mpr (decide_eq_true hdraft),
      ConfigurationVersionFields.create_eq_ok.mpr rfl⟩⟩

/-- A version is retired exactly when it is published. -/
theorem ConfigurationVersion.retire_iff (version : ConfigurationVersion codec) :
    (∃ version', version.retire = .ok version') ↔ version.state = .published := by
  constructor
  · rintro ⟨version', h⟩
    exact of_decide_eq_true (ensure_eq_ok.mp (seq_eq_ok.mp h).1)
  · intro hpublished
    have htimed : version.publishedAt ≠ none := by
      rw [Ne, ← version.checks.2.2, hpublished]
      decide
    obtain ⟨time, htime⟩ := Option.ne_none_iff_exists'.mp htimed
    have hchecked := ConfigurationVersionFields.postInit_timed version.checked
      (by decide : ConfigurationState.retired ≠ .draft) time
    rw [← htime] at hchecked
    exact ⟨⟨_, hchecked⟩, seq_eq_ok.mpr ⟨ensure_eq_ok.mpr (decide_eq_true hpublished),
      ConfigurationVersionFields.create_eq_ok.mpr rfl⟩⟩

theorem draftConfiguration_eq_ok {versionId configurationKind : String} {versionNumber : ℤ}
    {definition : Json} :
    draftConfiguration codec versionId configurationKind versionNumber definition = .ok version ↔
      (definition matches .obj _) = true ∧ definition.isDumpable = true ∧
        version.toConfigurationVersionFields =
          { versionId
            configurationKind
            versionNumber
            contentJson := canonicalText codec.floatText definition
            contentHash := codec.sha256 (canonicalText codec.floatText definition) } := by
  simp only [draftConfiguration, seq_eq_ok, ensure_eq_ok,
    ConfigurationVersionFields.create_eq_ok]

/-- A version is revised exactly from a draft, to an object that `json.dumps` writes and
`json.loads` reads. -/
theorem ConfigurationVersion.revise_iff (version : ConfigurationVersion codec)
    (definition : Json) :
    (∃ version', version.revise definition = .ok version') ↔ version.state = .draft ∧
      (definition matches .obj _) = true ∧ definition.isDumpable = true ∧
        ∃ entries, codec.loads (canonicalText codec.floatText definition) =
          some (.obj entries) := by
  constructor
  · rintro ⟨version', h⟩
    obtain ⟨hdraft, h⟩ := seq_eq_ok.mp h
    obtain ⟨hobject, hdumpable, hfields⟩ := draftConfiguration_eq_ok.mp h
    obtain ⟨entries, hread⟩ := version'.checks.1
    refine ⟨of_decide_eq_true (ensure_eq_ok.mp hdraft), hobject, hdumpable, entries, ?_⟩
    rw [ConfigurationVersion.definition, loadJsonObject, hfields] at hread
    split at hread
    · cases hread
    · next hloads => rw [hloads, Except.ok.inj hread]
    · cases hread
  · rintro ⟨hdraft, hobject, hdumpable, entries, hloads⟩
    -- the identity of the version was checked before
    have hchecked := version.checked
    simp only [ConfigurationVersionFields.postInit, seq_eq_ok] at hchecked
    obtain ⟨hid, hkind, hnumber, -⟩ := hchecked
    let fields : ConfigurationVersionFields :=
      { versionId := version.versionId
        configurationKind := version.configurationKind
        versionNumber := version.versionNumber
        contentJson := canonicalText codec.floatText definition
        contentHash := codec.sha256 (canonicalText codec.floatText definition) }
    have hfields : fields.postInit codec = .ok () := by
      simp only [ConfigurationVersionFields.postInit, seq_eq_ok]
      refine ⟨hid, hkind, hnumber, bind_eq_ok.mpr ⟨entries, ?_, seq_eq_ok.mpr
        ⟨ensure_eq_ok.mpr (decide_eq_true rfl), rfl⟩⟩⟩
      rw [loadJsonObject, hloads]
    exact ⟨⟨fields, hfields⟩, seq_eq_ok.mpr ⟨ensure_eq_ok.mpr (decide_eq_true hdraft),
      draftConfiguration_eq_ok.mpr ⟨hobject, hdumpable, rfl⟩⟩⟩

/-- A revised version is a draft whose document is the text of its definition. -/
theorem ConfigurationVersion.revise_eq_ok {definition : Json}
    (h : version.revise definition = .ok version') :
    version'.contentJson = canonicalText codec.floatText definition ∧ version'.state = .draft := by
  obtain ⟨-, -, hfields⟩ := draftConfiguration_eq_ok.mp (seq_eq_ok.mp h).2
  exact ⟨by rw [hfields], by rw [hfields]⟩

theorem ConfigurationVersion.Later.refl (version : ConfigurationVersion codec) :
    version.Later version :=
  ⟨rfl, rfl, rfl, le_rfl, fun _ => ⟨rfl, rfl, rfl⟩⟩

theorem ConfigurationVersion.Later.trans (h : version.Later version')
    (h' : version'.Later version'') : version.Later version'' := by
  refine ⟨h'.versionId.trans h.versionId, h'.configurationKind.trans h.configurationKind,
    h'.versionNumber.trans h.versionNumber, h.state.trans h'.state, fun hstate => ?_⟩
  have hstate' : version'.state ≠ .draft := by
    intro heq
    have hrank := h.state
    rw [heq] at hrank
    cases hcase : version.state <;> simp_all [ConfigurationState.rank]
  obtain ⟨hjson, hhash, htime⟩ := h.frozen hstate
  obtain ⟨hjson', hhash', htime'⟩ := h'.frozen hstate'
  exact ⟨hjson'.trans hjson, hhash'.trans hhash, htime'.trans htime⟩

/-- What a call that returns makes of a version. -/
theorem ConfigurationVersion.later_of_call (h : version.call call = .ok version') :
    version.Later version' := by
  cases call with
  | publish publishedAt =>
    obtain ⟨hstate, h⟩ := seq_eq_ok.mp h
    have hdraft : version.state = .draft := of_decide_eq_true (ensure_eq_ok.mp hstate)
    have hfields := ConfigurationVersionFields.create_eq_ok.mp h
    refine ⟨by rw [hfields], by rw [hfields], by rw [hfields], ?_, fun hne => absurd hdraft hne⟩
    rw [hdraft]
    exact Nat.zero_le _
  | revise definition =>
    obtain ⟨hstate, h⟩ := seq_eq_ok.mp h
    have hdraft : version.state = .draft := of_decide_eq_true (ensure_eq_ok.mp hstate)
    obtain ⟨-, h⟩ := seq_eq_ok.mp h
    obtain ⟨-, h⟩ := seq_eq_ok.mp h
    have hfields := ConfigurationVersionFields.create_eq_ok.mp h
    refine ⟨by rw [hfields], by rw [hfields], by rw [hfields], ?_, fun hne => absurd hdraft hne⟩
    rw [hdraft]
    exact Nat.zero_le _
  | retire =>
    obtain ⟨hstate, h⟩ := seq_eq_ok.mp h
    have hpublished : version.state = .published := of_decide_eq_true (ensure_eq_ok.mp hstate)
    have hfields := ConfigurationVersionFields.create_eq_ok.mp h
    refine ⟨by rw [hfields], by rw [hfields], by rw [hfields], ?_, fun _ => ?_⟩
    · rw [hpublished, hfields]
      exact Nat.le_succ 1
    · rw [hfields]
      exact ⟨rfl, rfl, rfl⟩

theorem ConfigurationVersion.Later.step (h : version.Later version')
    (hstep : configurationStep version' call = some version'') : version.Later version'' := by
  unfold configurationStep at hstep
  split at hstep
  · next heq =>
    obtain rfl := Option.some.inj hstep
    exact h.trans (later_of_call heq)
  · obtain rfl := Option.some.inj hstep
    exact h

/-- In every run of calls, a version keeps its identity and goes on in its life cycle; once it is
published its document, its hash and its time stay; the document can be read, has its hash, and
has a time exactly when it is no draft. It is published exactly from a draft, revised exactly from a
draft with an object that can be written and read, which becomes the document, and retired exactly
when it is published. -/
theorem configuration_history (codec : ConfigurationCodec)
    (version version' : ConfigurationVersion codec) (calls : List ConfigurationCall)
    (hrun : Runs.run configurationStep version calls = some version') :
    version.Later version' ∧ (∃ entries, version'.definition = .ok entries) ∧
      version'.contentHash = codec.sha256 version'.contentJson ∧
      (version'.state = .draft ↔ version'.publishedAt = none) ∧
      (∀ time, (∃ version'', version'.publish time = .ok version'') ↔ version'.state = .draft) ∧
      (∀ definition, (∃ version'', version'.revise definition = .ok version'') ↔
        version'.state = .draft ∧ (definition matches .obj _) = true ∧
          definition.isDumpable = true ∧
            ∃ entries, codec.loads (canonicalText codec.floatText definition) =
              some (.obj entries)) ∧
      ((∃ version'', version'.retire = .ok version'') ↔ version'.state = .published) ∧
      ∀ definition version'', version'.revise definition = .ok version'' →
        version''.contentJson = canonicalText codec.floatText definition ∧
          version''.state = .draft := by
  obtain ⟨hread, hhash, htime⟩ := version'.checks
  exact ⟨Runs.run_invariant' (fun _ _ _ h => h.step) (ConfigurationVersion.Later.refl version)
    hrun, hread, hhash, htime, version'.publish_iff, version'.revise_iff, version'.retire_iff,
    fun _ _ h => ConfigurationVersion.revise_eq_ok h⟩

/-- A codec that reads two objects. -/
def twoObjectsCodec : ConfigurationCodec where
  floatText _ := ""
  loads text :=
    if text = "\x7b\x7d" then some (.obj [])
    else if text = "\x7b\"a\":\"b\"\x7d" then some (.obj [("a", .str "b")])
    else none
  sha256 text := "sha256:" ++ text

/-- A draft. -/
def draftVersion : ConfigurationVersion twoObjectsCodec where
  versionId := "version"
  configurationKind := "routing"
  versionNumber := 1
  contentJson := "\x7b\x7d"
  contentHash := "sha256:\x7b\x7d"
  checked := by decide +kernel

/-- The draft is revised, published, revised in vain and retired. -/
def revisedAndRetired : List ConfigurationCall :=
  [.revise (.obj [("a", .str "b")]), .publish 5, .revise (.obj []), .retire]

theorem configuration_history_retired : ∃ version',
    Runs.run configurationStep draftVersion revisedAndRetired = some version' ∧
      version'.state = .retired ∧ version'.publishedAt = some 5 ∧
      version'.contentJson = "\x7b\"a\":\"b\"\x7d" ∧
      version'.contentHash = "sha256:\x7b\"a\":\"b\"\x7d" ∧
      ¬∃ version'', version'.publish 6 = .ok version'' := by
  obtain ⟨version', hrun, hstate, htime, hjson⟩ : ∃ version',
      Runs.run configurationStep draftVersion revisedAndRetired = some version' ∧
        version'.state = .retired ∧ version'.publishedAt = some 5 ∧
          version'.contentJson = "\x7b\"a\":\"b\"\x7d" := by
    refine ⟨_, rfl, ?_, ?_, ?_⟩ <;> decide +kernel
  obtain ⟨-, -, hhash, -, hpublish, -⟩ :=
    configuration_history twoObjectsCodec draftVersion version' revisedAndRetired hrun
  refine ⟨version', hrun, hstate, htime, hjson, by rw [hhash, hjson]; rfl, ?_⟩
  rw [hpublish, hstate]
  decide

end TgCurator
