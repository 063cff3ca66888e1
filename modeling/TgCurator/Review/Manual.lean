import TgCurator.Review.Namespaces
import TgCurator.Routing.LabelConditions
import TgCurator.Routing.Reload
import TgCurator.Runs

/-!
# The manual labels of a message

`append_manual_label` and `list_manual_label_history` of `review_repository.py`. An event is
stored with its ids as UUIDs and its score as a float; the listing makes events of the rows
again, in the order of their times and ids.

Other transactions change the rows that the labels refer to. They keep the foreign keys, the
message of an asset, and the key and scope of a label version that is no draft
(`LabelTables.KeptBy`).

`manual_history`: in every run the listing of a message returns, and holds the events stored for
it, each in canonical form (`ManualLabelEvent.canonical`), in a strict order. So each identity of
the listing has one latest event, and each manual label of its namespaces still has the key and
scope of its version and a target of the message.
-/

namespace TgCurator

/-! ## Rows -/

/-- The columns of `label_definition_versions` that manual labels depend on. -/
structure LabelDefinitionVersionRecord where
  state : String
  enabled : Bool
  key : String
  scope : String

/-- A row of `manual_label_assignments`. The operation is stored as its value, one of two by a
`CHECK`. -/
structure ManualLabelAssignmentRecord where
  id : ℕ
  messageId : ℕ
  targetScope : String
  targetKind : String
  targetId : ℕ
  imageAssetId : Option ℕ
  videoAssetId : Option ℕ
  labelDefinitionVersionId : ℕ
  labelKey : String
  operation : ManualLabelOperation
  score : Option Number
  activated : Option Bool
  actorAdminUserId : ℕ
  reason : Option String
  createdAt : ℤ

/-- The tables that manual labels refer to; an asset is stored with its message. -/
structure LabelReferences where
  messages : List ℕ
  versions : Dict ℕ LabelDefinitionVersionRecord
  imageAssets : Dict ℕ ℕ
  videoAssets : Dict ℕ ℕ
  admins : List ℕ

/-- The assets of a kind other than `message`. -/
def LabelReferences.assets (refs : LabelReferences) (targetKind : String) : Dict ℕ ℕ :=
  if targetKind = "image_asset" then refs.imageAssets else refs.videoAssets

/-- The labels, in the order of their commits, and what they refer to. -/
structure LabelTables extends LabelReferences where
  rows : List ManualLabelAssignmentRecord

namespace ManualLabelAssignmentRecord

/-- The foreign keys. -/
def hasReferences (row : ManualLabelAssignmentRecord) (refs : LabelReferences) : Bool :=
  row.messageId ∈ refs.messages && row.labelDefinitionVersionId ∈ refs.versions.keys &&
    row.imageAssetId.all (· ∈ refs.imageAssets.keys) &&
    row.videoAssetId.all (· ∈ refs.videoAssets.keys) && row.actorAdminUserId ∈ refs.admins

/-- `manual_label_target_identity`, with the constraints on the kind and the scope. -/
def hasConsistentTarget (row : ManualLabelAssignmentRecord) : Bool :=
  match row.targetKind with
  | "message" =>
    row.targetScope = "global" && row.targetId = row.messageId && row.imageAssetId.isNone &&
      row.videoAssetId.isNone
  | "image_asset" =>
    row.targetScope = "media" && row.imageAssetId = some row.targetId && row.videoAssetId.isNone
  | "video_asset" =>
    row.targetScope = "media" && row.videoAssetId = some row.targetId && row.imageAssetId.isNone
  | _ => false

/-- `manual_label_payload`. -/
def hasPayload (row : ManualLabelAssignmentRecord) : Bool :=
  match row.operation with
  | .set => row.score.isSome && row.activated.isSome
  | .clear => row.score.isNone && row.activated.isNone

/-- The `CHECK` constraints. -/
def checks (row : ManualLabelAssignmentRecord) : Bool :=
  row.hasConsistentTarget && row.hasPayload && row.score.all inUnitInterval &&
    row.labelKey.toList.any (· ≠ ' ')

/-- `ORDER BY created_at, id`. -/
def key (row : ManualLabelAssignmentRecord) : ℤ ×ₗ ℕ :=
  toLex (row.createdAt, row.id)

abbrev LE (a b : ManualLabelAssignmentRecord) : Prop :=
  a.key ≤ b.key

end ManualLabelAssignmentRecord

/-! ## Storing an event -/

/-- `_validate_label_version`. -/
def validateLabelVersion (event : ManualLabelEvent)
    (version : Option LabelDefinitionVersionRecord) : Except PyError Unit :=
  match version with
  | none => ensure false "label definition version does not exist"
  | some version => do
    ensure (version.state = "published" && version.enabled)
      "manual labels require an enabled published label version"
    ensure (version.key = event.labelKey) "label key does not match label definition version"
    ensure (version.scope = event.targetScope)
      "label scope does not match manual label target"

/-- `_validate_media_target`. -/
def LabelReferences.validateMediaTarget (refs : LabelReferences) (uuid : UuidFormat)
    (event : ManualLabelEvent) (messageId : ℕ) : Except PyError Unit :=
  if event.targetKind = "message" then
    .ok ()
  else do
    let targetId ← uuid.asUuid event.targetId "target_id"
    ensure ((refs.assets event.targetKind).lookup targetId = some messageId)
      "manual label media target does not belong to message"

/-- The row of an event. -/
def ManualLabelEvent.record (uuid : UuidFormat) (event : ManualLabelEvent)
    (messageId labelVersionId : ℕ) : Except PyError ManualLabelAssignmentRecord := do
  let id ← uuid.asUuid event.eventId "event_id"
  let targetId ← uuid.asUuid event.targetId "target_id"
  let imageAssetId ← uuid.optionalUuid event.imageAssetId "image_asset_id"
  let videoAssetId ← uuid.optionalUuid event.videoAssetId "video_asset_id"
  let actorAdminUserId ← uuid.asUuid event.actorAdminUserId "actor_admin_user_id"
  return {
    id := id
    messageId := messageId
    targetScope := event.targetScope
    targetKind := event.targetKind
    targetId := targetId
    imageAssetId := imageAssetId
    videoAssetId := videoAssetId
    labelDefinitionVersionId := labelVersionId
    labelKey := event.labelKey
    operation := event.operation
    score := event.score.map toFloat
    activated := event.activated
    actorAdminUserId := actorAdminUserId
    reason := event.reason
    createdAt := event.createdAt }

/-- `append_manual_label`, a transaction. The row of an event meets the `CHECK` constraints
(`ManualLabelAssignmentRecord.Records.checks_eq`). -/
def LabelTables.appendManualLabel (t : LabelTables) (uuid : UuidFormat)
    (event : ManualLabelEvent) : Except PyError (LabelTables × ManualLabelEvent) := do
  let messageId ← uuid.asUuid event.messageId "message_id"
  let labelVersionId ← uuid.asUuid event.labelDefinitionVersionId "label_definition_version_id"
  ensure (messageId ∈ t.messages) "message does not exist"
  validateLabelVersion event (t.versions.lookup labelVersionId)
  t.validateMediaTarget uuid event messageId
  let row ← event.record uuid messageId labelVersionId
  if row.id ∉ t.rows.map (·.id) ∧ row.hasReferences t.toLabelReferences then
    return ({ t with rows := t.rows ++ [row] }, event)
  else
    throw .integrityError

/-! ## Reading the history -/

/-- The constructor of `ManualLabelEvent`. -/
def ManualLabelEventFields.create (fields : ManualLabelEventFields) :
    Except PyError ManualLabelEvent :=
  match h : fields.postInit with
  | .ok () => .ok ⟨fields, h⟩
  | .error e => .error e

/-- The arguments of `_manual_event_from_record`. -/
def ManualLabelAssignmentRecord.eventFields (uuid : UuidFormat)
    (row : ManualLabelAssignmentRecord) : ManualLabelEventFields where
  eventId := uuid.text row.id
  messageId := uuid.text row.messageId
  targetScope := row.targetScope
  targetKind := row.targetKind
  targetId := uuid.text row.targetId
  imageAssetId := row.imageAssetId.map uuid.text
  videoAssetId := row.videoAssetId.map uuid.text
  labelDefinitionVersionId := uuid.text row.labelDefinitionVersionId
  labelKey := row.labelKey
  operation := row.operation
  score := row.score
  activated := row.activated
  actorAdminUserId := uuid.text row.actorAdminUserId
  createdAt := row.createdAt
  reason := row.reason

/-- `_manual_event_from_record`. -/
def ManualLabelAssignmentRecord.event (uuid : UuidFormat) (row : ManualLabelAssignmentRecord) :
    Except PyError ManualLabelEvent :=
  (row.eventFields uuid).create

/-- The rows of a message, in the order of their times and ids. -/
def LabelTables.rowsOf (t : LabelTables) (messageId : ℕ) : List ManualLabelAssignmentRecord :=
  (t.rows.filter fun row => row.messageId = messageId).insertionSort
    ManualLabelAssignmentRecord.LE

/-- `list_manual_label_history`. -/
def LabelTables.listManualLabelHistory (t : LabelTables) (uuid : UuidFormat)
    (messageId : String) : Except PyError (List ManualLabelEvent) := do
  let messageId ← uuid.asUuid messageId "message_id"
  (t.rowsOf messageId).mapM fun row => row.event uuid

/-! ## Runs -/

/-- The tables, and the events stored in them so far. -/
structure LabelState where
  tables : LabelTables
  appended : List ManualLabelEvent

/-- A transaction. -/
inductive LabelAction
  /-- A call of `append_manual_label`. -/
  | append (event : ManualLabelEvent)
  /-- Others change the rows that manual labels refer to. -/
  | others (refs : LabelReferences)

/-- A transaction commits, or changes nothing. -/
def labelStep (uuid : UuidFormat) (s : LabelState) : LabelAction → Option LabelState
  | .append event =>
    match s.tables.appendManualLabel uuid event with
    | .ok (tables, event) => some ⟨tables, s.appended ++ [event]⟩
    | .error _ => some s
  | .others refs => some { s with tables := { s.tables with toLabelReferences := refs } }

/-- What the others keep: the foreign keys of the labels, the message of an asset, and the key
and scope of a version that is no draft. -/
structure LabelTables.KeptBy (t : LabelTables) (refs : LabelReferences) : Prop where
  restricted : ∀ row ∈ t.rows, row.hasReferences refs = true
  assets : ∀ kind id message message', (t.assets kind).lookup id = some message →
    (refs.assets kind).lookup id = some message' → message' = message
  versions : ∀ id version version', t.versions.lookup id = some version →
    version.state ≠ "draft" → refs.versions.lookup id = some version' →
      version'.state ≠ "draft" ∧ version'.key = version.key ∧ version'.scope = version.scope

/-- The others keep what the database and the code keep. -/
def LabelAction.Keeps (s : LabelState) : LabelAction → Prop
  | append _ => True
  | others refs => s.tables.KeptBy refs

/-- Before the first manual label. -/
structure LabelState.Fresh (s : LabelState) : Prop where
  rows : s.tables.rows = []
  appended : s.appended = []

/-! ## Canonical events -/

/-- The fields of an event with its ids in canonical text and its score as a float. -/
def ManualLabelEvent.canonical (uuid : UuidFormat) (event : ManualLabelEvent) :
    ManualLabelEventFields where
  eventId := uuid.canonical event.eventId
  messageId := uuid.canonical event.messageId
  targetScope := event.targetScope
  targetKind := event.targetKind
  targetId := uuid.canonical event.targetId
  imageAssetId := event.imageAssetId.map uuid.canonical
  videoAssetId := event.videoAssetId.map uuid.canonical
  labelDefinitionVersionId := uuid.canonical event.labelDefinitionVersionId
  labelKey := event.labelKey
  operation := event.operation
  score := event.score.map toFloat
  activated := event.activated
  actorAdminUserId := uuid.canonical event.actorAdminUserId
  createdAt := event.createdAt
  reason := event.reason

/-- The time and the id of an event. -/
def ManualLabelEvent.key (uuid : UuidFormat) (event : ManualLabelEvent) : ℤ ×ₗ ℕ :=
  toLex (event.createdAt, (uuid.parse event.eventId).getD 0)

/-- A label of a message fits the tables: it has the key and the scope of its version, and its
target is the message or an asset of it. -/
structure LabelReferences.Supports (refs : LabelReferences) (uuid : UuidFormat) (messageId : ℕ)
    (label : LabelSubject) : Prop where
  message : label.messageId = uuid.text messageId
  version : ∃ id version, uuid.parse label.labelDefinitionVersionId = some id ∧
    refs.versions.lookup id = some version ∧ version.key = label.labelKey ∧
      version.scope = label.targetScope
  target : label.targetKind = "message" ∧ label.targetId = label.messageId ∨
    ∃ id, uuid.parse label.targetId = some id ∧
      (refs.assets label.targetKind).lookup id = some messageId

variable {uuid : UuidFormat} {event event' : ManualLabelEvent} {row : ManualLabelAssignmentRecord}
  {t t' : LabelTables} {refs : LabelReferences} {s s' : LabelState} {a : LabelAction}

theorem ManualLabelEventFields.create_eq_ok {fields : ManualLabelEventFields} :
    fields.create = .ok event ↔ event.toManualLabelEventFields = fields := by
  unfold create
  split
  case h_1 h =>
    constructor
    · intro heq
      rw [← Except.ok.inj heq]
    · rintro rfl
      rfl
  case h_2 e h =>
    refine iff_of_false (fun heq => by cases heq) ?_
    rintro rfl
    rw [event.checked] at h
    cases h

/-- Whether a row is that of an event. -/
structure ManualLabelAssignmentRecord.Records (uuid : UuidFormat) (event : ManualLabelEvent)
    (row : ManualLabelAssignmentRecord) : Prop where
  messageId : uuid.parse event.messageId = some row.messageId
  versionId : uuid.parse event.labelDefinitionVersionId = some row.labelDefinitionVersionId
  record : event.record uuid row.messageId row.labelDefinitionVersionId = .ok row

namespace ManualLabelAssignmentRecord.Records

/-- A row read back has the canonical fields of its event. -/
theorem eventFields_eq (h : row.Records uuid event) :
    row.eventFields uuid = event.canonical uuid := by
  have hrecord := h.record
  unfold ManualLabelEvent.record at hrecord
  simp only [bind_eq_ok, UuidFormat.asUuid_eq_ok] at hrecord
  obtain ⟨id, hid, targetId, htarget, image, himage, video, hvideo, actor, hactor, hrow⟩ := hrecord
  have hmessage := UuidFormat.canonical_of_parse h.messageId
  have hversion := UuidFormat.canonical_of_parse h.versionId
  have hrow := Except.ok.inj hrow
  generalize row.messageId = messageId at hrow hmessage
  generalize row.labelDefinitionVersionId = versionId at hrow hversion
  subst hrow
  simp only [eventFields, ManualLabelEvent.canonical, hmessage, hversion,
    UuidFormat.canonical_of_parse hid, UuidFormat.canonical_of_parse htarget,
    UuidFormat.canonical_of_parse hactor, UuidFormat.optionalUuid_eq_ok himage,
    UuidFormat.optionalUuid_eq_ok hvideo]

end ManualLabelAssignmentRecord.Records

theorem requireNonblank_text (id : ℕ) (field : String) :
    requireNonblank (uuid.text id) field = .ok () := by
  rw [requireNonblank, uuid.text_not_blank]
  rfl

theorem inUnitInterval_toFloat (n : Number) : inUnitInterval (toFloat n) = inUnitInterval n := by
  simp only [inUnitInterval, Number.le, value_toFloat]

theorem inUnitInterval_of_ensure {n : Number} {message : String}
    (h : ensureUnitInterval n message = .ok ()) : inUnitInterval n = true := by
  unfold ensureUnitInterval at h
  split at h
  · split_ifs at h
    exact ensure_eq_ok.mp h
  · exact ensure_eq_ok.mp h

theorem ensureUnitInterval_toFloat {n : Number} (message : String)
    (h : inUnitInterval n = true) : ensureUnitInterval (toFloat n) message = .ok () := by
  have hfloat : ensureUnitInterval (toFloat n) message =
      ensure (inUnitInterval (toFloat n)) message := by
    cases n <;> rfl
  rw [hfloat, ensure_eq_ok, inUnitInterval_toFloat, h]

/-- The canonical fields of an event point at the same target. -/
theorem ManualLabelEvent.hasConsistentTarget_canonical
    (h : event.hasConsistentTarget = true) :
    (event.canonical uuid).hasConsistentTarget = true := by
  unfold LabelSubject.hasConsistentTarget at h ⊢
  dsimp only [canonical]
  split at h <;> simp_all

/-- What an event carries: nothing when it clears, and a score in range and a flag when it
sets. -/
theorem ManualLabelEvent.payload_cases (event : ManualLabelEvent) :
    (event.operation = .clear ∧ event.score = none ∧ event.activated = none) ∨
      (event.operation = .set ∧ ∃ score activated, event.score = some score ∧
        event.activated = some activated ∧ inUnitInterval score = true) := by
  have h := event.checked
  simp only [ManualLabelEventFields.postInit, seq_eq_ok] at h
  obtain ⟨-, -, -, -, -, h⟩ := h
  cases hop : event.operation with
  | clear => exact .inl ⟨rfl, by simpa [hop] using h⟩
  | set =>
    rw [hop] at h
    simp only [LabelSubject.validateLabelValue, seq_eq_ok] at h
    obtain ⟨-, -, -, h⟩ := h
    cases hscore : event.score with
    | none => simp [hscore] at h
    | some score =>
      rw [hscore] at h
      obtain ⟨hunit, hactivated⟩ := seq_eq_ok.mp h
      obtain ⟨activated, hactivated⟩ := Option.isSome_iff_exists.mp (ensure_eq_ok.mp hactivated)
      exact .inr ⟨rfl, score, activated, rfl, hactivated, inUnitInterval_of_ensure hunit⟩

namespace ManualLabelAssignmentRecord

/-- A row whose event has a consistent target has one itself. -/
theorem hasConsistentTarget_of_eventFields
    (h : (row.eventFields uuid).hasConsistentTarget = true) : row.hasConsistentTarget = true := by
  have hsome : ∀ {asset : Option ℕ} {id : ℕ}, asset.map uuid.text = some (uuid.text id) →
      asset = some id :=
    fun h => Option.map_injective uuid.text_injective h
  unfold LabelSubject.hasConsistentTarget at h
  dsimp only [eventFields] at h
  split at h
  case h_1 hkind =>
    rw [hasConsistentTarget, hkind]
    simp only [Bool.and_eq_true, decide_eq_true_eq, Option.isNone_map] at h ⊢
    obtain ⟨⟨⟨hscope, htarget⟩, himage⟩, hvideo⟩ := h
    exact ⟨⟨⟨of_decide_eq_true hscope, uuid.text_injective (of_decide_eq_true htarget)⟩, himage⟩,
      hvideo⟩
  case h_2 hkind =>
    rw [hasConsistentTarget, hkind]
    simp only [Bool.and_eq_true, decide_eq_true_eq, Option.isNone_map] at h ⊢
    obtain ⟨⟨hscope, himage⟩, hvideo⟩ := h
    exact ⟨⟨of_decide_eq_true hscope, hsome (of_decide_eq_true himage)⟩, hvideo⟩
  case h_3 hkind =>
    rw [hasConsistentTarget, hkind]
    simp only [Bool.and_eq_true, decide_eq_true_eq, Option.isNone_map] at h ⊢
    obtain ⟨⟨hscope, hvideo⟩, himage⟩ := h
    exact ⟨⟨of_decide_eq_true hscope, hsome (of_decide_eq_true hvideo)⟩, himage⟩
  case h_4 => cases h

namespace Records

/-- The constructor accepts the fields of a row of an event. -/
theorem postInit_eq (h : row.Records uuid event) : (row.eventFields uuid).postInit = .ok () := by
  have hchecked := event.checked
  simp only [ManualLabelEventFields.postInit, LabelSubject.validateTargetIdentity, seq_eq_ok,
    ensure_eq_ok] at hchecked
  obtain ⟨-, ⟨-, -, htarget⟩, -, hkey, -, -⟩ := hchecked
  have hsubject : (row.eventFields uuid).validateTargetIdentity = .ok () := by
    simp only [LabelSubject.validateTargetIdentity, seq_eq_ok, ensure_eq_ok]
    refine ⟨requireNonblank_text _ _, requireNonblank_text _ _, ?_⟩
    rw [h.eventFields_eq]
    exact ManualLabelEvent.hasConsistentTarget_canonical htarget
  have hkey' : requireNonblank (row.eventFields uuid).labelKey "label_key" = .ok () := by
    rw [h.eventFields_eq]
    exact hkey
  have hversion : requireNonblank (row.eventFields uuid).labelDefinitionVersionId
      "label_definition_version_id" = .ok () := requireNonblank_text _ _
  simp only [ManualLabelEventFields.postInit, seq_eq_ok]
  refine ⟨requireNonblank_text _ _, hsubject, hversion, hkey', requireNonblank_text _ _, ?_⟩
  have hoperation := congrArg (·.operation) h.eventFields_eq
  have hscore := congrArg (·.score) h.eventFields_eq
  have hactivated := congrArg (·.activated) h.eventFields_eq
  dsimp only [ManualLabelEvent.canonical] at hoperation hscore hactivated
  rcases event.payload_cases with ⟨hop, hnone, hnone'⟩ |
    ⟨hop, score, activated, hsome, hsome', hunit⟩
  · rw [hoperation, hop, hscore, hnone, hactivated, hnone']
    rfl
  · rw [hoperation, hop, hscore, hsome, hactivated, hsome']
    refine seq_eq_ok.mpr ⟨hsubject, seq_eq_ok.mpr ⟨hversion, seq_eq_ok.mpr ⟨hkey', ?_⟩⟩⟩
    exact seq_eq_ok.mpr ⟨ensureUnitInterval_toFloat _ hunit, rfl⟩

/-- The row of an event meets the `CHECK` constraints. -/
theorem checks_eq (h : row.Records uuid event) : row.checks = true := by
  have hpostInit := h.postInit_eq
  simp only [ManualLabelEventFields.postInit, LabelSubject.validateTargetIdentity, seq_eq_ok,
    ensure_eq_ok] at hpostInit
  obtain ⟨-, ⟨-, -, htarget⟩, -, hkey, -, -⟩ := hpostInit
  have hscore : row.score = event.score.map toFloat := congrArg (·.score) h.eventFields_eq
  have hactivated : row.activated = event.activated := congrArg (·.activated) h.eventFields_eq
  have hoperation : row.operation = event.operation := congrArg (·.operation) h.eventFields_eq
  have hblank : row.labelKey.toList.any (· ≠ ' ') = true := by
    have hkey : isBlank row.labelKey = false := by simpa [requireNonblank, eventFields] using hkey
    obtain ⟨c, hc, hspace⟩ := List.all_eq_false.mp hkey
    refine List.any_eq_true.mpr ⟨c, hc, decide_eq_true fun heq => hspace ?_⟩
    rw [heq]
    rfl
  rw [checks, hasConsistentTarget_of_eventFields htarget, hblank, hasPayload, hoperation, hscore,
    hactivated]
  rcases event.payload_cases with ⟨hop, hnone, hnone'⟩ |
    ⟨hop, score, activated, hsome, hsome', hunit⟩
  · rw [hop, hnone, hnone']
    rfl
  · rw [hop, hsome, hsome']
    simpa [inUnitInterval_toFloat] using hunit

/-- The row of an event, read back. -/
theorem event_eq (h : row.Records uuid event) :
    ∃ event', row.event uuid = .ok event' ∧
      event'.toManualLabelEventFields = event.canonical uuid :=
  ⟨⟨_, h.postInit_eq⟩, ManualLabelEventFields.create_eq_ok.mpr rfl, h.eventFields_eq⟩

end Records

end ManualLabelAssignmentRecord

/-! ## Steps -/

/-- A stored label has the key and scope of its version, and a target of its message. -/
structure ManualLabelAssignmentRecord.Fits (refs : LabelReferences)
    (row : ManualLabelAssignmentRecord) : Prop where
  version : ∃ version, refs.versions.lookup row.labelDefinitionVersionId = some version ∧
    version.state ≠ "draft" ∧ version.key = row.labelKey ∧ version.scope = row.targetScope
  target : row.targetKind ≠ "message" →
    (refs.assets row.targetKind).lookup row.targetId = some row.messageId

theorem validateLabelVersion_eq_ok {version? : Option LabelDefinitionVersionRecord}
    (h : validateLabelVersion event version? = .ok ()) :
    ∃ version, version? = some version ∧ version.state = "published" ∧
      version.key = event.labelKey ∧ version.scope = event.targetScope := by
  cases version? with
  | none => cases h
  | some version =>
    simp only [validateLabelVersion, seq_eq_ok, ensure_eq_ok, Bool.and_eq_true,
      decide_eq_true_eq] at h
    obtain ⟨⟨hstate, -⟩, hkey, hscope⟩ := h
    exact ⟨version, rfl, hstate, hkey, hscope⟩

theorem validateMediaTarget_eq_ok {messageId : ℕ}
    (h : refs.validateMediaTarget uuid event messageId = .ok ())
    (hkind : event.targetKind ≠ "message") :
    ∃ targetId, uuid.parse event.targetId = some targetId ∧
      (refs.assets event.targetKind).lookup targetId = some messageId := by
  rw [LabelReferences.validateMediaTarget, if_neg hkind] at h
  obtain ⟨targetId, htarget, h⟩ := bind_eq_ok.mp h
  exact ⟨targetId, UuidFormat.asUuid_eq_ok.mp htarget, of_decide_eq_true (ensure_eq_ok.mp h)⟩

theorem ManualLabelEvent.record_eq_ok {messageId labelVersionId : ℕ}
    (h : event.record uuid messageId labelVersionId = .ok row) :
    row.messageId = messageId ∧ row.labelDefinitionVersionId = labelVersionId ∧
      uuid.parse event.targetId = some row.targetId := by
  unfold record at h
  simp only [bind_eq_ok, UuidFormat.asUuid_eq_ok] at h
  obtain ⟨_, -, targetId, htarget, _, -, _, -, _, -, hrow⟩ := h
  rw [← Except.ok.inj hrow]
  exact ⟨rfl, rfl, htarget⟩

/-- What a call that returns does: it adds the row of its event, which fits. -/
theorem appendManualLabel_eq_ok (h : t.appendManualLabel uuid event = .ok (t', event')) :
    ∃ row, row.Records uuid event ∧ row.Fits t.toLabelReferences ∧
      row.id ∉ t.rows.map (·.id) ∧ t' = { t with rows := t.rows ++ [row] } ∧ event' = event := by
  unfold LabelTables.appendManualLabel at h
  simp only [bind_eq_ok, UuidFormat.asUuid_eq_ok] at h
  obtain ⟨messageId, hmessage, versionId, hversion, _, -, _, hlabel, _, htarget, row, hrow, h⟩ := h
  split_ifs at h with hinsert
  obtain ⟨rfl, rfl, hrowTarget⟩ := ManualLabelEvent.record_eq_ok hrow
  have hrecords : row.Records uuid event := ⟨hmessage, hversion, hrow⟩
  have hfields := hrecords.eventFields_eq
  have hkey : row.labelKey = event.labelKey := congrArg (·.labelKey) hfields
  have hscope : row.targetScope = event.targetScope := congrArg (·.targetScope) hfields
  have hkind : row.targetKind = event.targetKind := congrArg (·.targetKind) hfields
  obtain ⟨version, hlookup, hstate, hkey', hscope'⟩ := validateLabelVersion_eq_ok hlabel
  obtain ⟨rfl, rfl⟩ := Prod.mk.inj (Except.ok.inj h)
  refine ⟨row, hrecords, ⟨⟨version, hlookup, ?_, ?_, ?_⟩, fun hmedia => ?_⟩, hinsert.1, rfl, rfl⟩
  · rw [hstate]
    decide
  · rw [hkey', hkey]
  · rw [hscope', hscope]
  · rw [hkind] at hmedia ⊢
    obtain ⟨targetId, hparse, hasset⟩ := validateMediaTarget_eq_ok htarget hmedia
    obtain rfl := Option.some.inj (hparse.symm.trans hrowTarget)
    exact hasset

/-- What a step does: it stores the row of an event, changes what rows refer to, or nothing. -/
theorem labelStep_cases (h : labelStep uuid s a = some s') :
    (∃ event row, a = .append event ∧ row.Records uuid event ∧
      row.Fits s.tables.toLabelReferences ∧ row.id ∉ s.tables.rows.map (·.id) ∧
      s' = ⟨{ s.tables with rows := s.tables.rows ++ [row] }, s.appended ++ [event]⟩) ∨
    (∃ refs, a = .others refs ∧
      s' = { s with tables := { s.tables with toLabelReferences := refs } }) ∨ s' = s := by
  cases a with
  | append event =>
    rw [labelStep] at h
    cases hcall : s.tables.appendManualLabel uuid event with
    | ok result =>
      obtain ⟨tables, event'⟩ := result
      rw [hcall] at h
      obtain ⟨row, hrecords, hfits, hnew, rfl, rfl⟩ := appendManualLabel_eq_ok hcall
      exact .inl ⟨_, row, rfl, hrecords, hfits, hnew, (Option.some.inj h).symm⟩
    | error e =>
      rw [hcall] at h
      exact .inr (.inr (Option.some.inj h).symm)
  | others refs => exact .inr (.inl ⟨refs, rfl, (Option.some.inj h).symm⟩)

/-! ## The invariant -/

theorem exists_lookup_of_mem {K V : Type*} [DecidableEq K] {d : Dict K V} {k : K}
    (h : k ∈ d.keys) : ∃ v, d.lookup k = some v :=
  Option.ne_none_iff_exists'.mp fun hnone => Dict.lookup_eq_none.mp hnone h

namespace ManualLabelAssignmentRecord

/-- The media target of a row is an asset of its kind. -/
theorem mem_assets (hchecks : row.checks = true) (hrefs : row.hasReferences refs = true)
    (hkind : row.targetKind ≠ "message") : row.targetId ∈ (refs.assets row.targetKind).keys := by
  simp only [hasReferences, Bool.and_eq_true, decide_eq_true_eq] at hrefs
  obtain ⟨⟨⟨-, himage⟩, hvideo⟩, -⟩ := hrefs
  simp only [checks, Bool.and_eq_true] at hchecks
  obtain ⟨⟨⟨htarget, -⟩, -⟩, -⟩ := hchecks
  unfold hasConsistentTarget at htarget
  split at htarget
  case h_1 heq => exact absurd heq hkind
  case h_2 heq =>
    simp only [Bool.and_eq_true, decide_eq_true_eq] at htarget
    rw [htarget.1.2] at himage
    rw [heq]
    exact of_decide_eq_true himage
  case h_3 heq =>
    simp only [Bool.and_eq_true, decide_eq_true_eq] at htarget
    rw [htarget.1.2] at hvideo
    rw [heq]
    exact of_decide_eq_true hvideo
  case h_4 => cases htarget

/-- A label that fits goes on to fit when the others keep what they have to. -/
theorem Fits.keep (h : row.Fits t.toLabelReferences) (hrow : row ∈ t.rows)
    (hchecks : row.checks = true) (hkept : t.KeptBy refs) : row.Fits refs := by
  have hrefs := hkept.restricted row hrow
  obtain ⟨version, hlookup, hstate, hkey, hscope⟩ := h.version
  have hversionId : row.labelDefinitionVersionId ∈ refs.versions.keys := by
    simp only [hasReferences, Bool.and_eq_true, decide_eq_true_eq] at hrefs
    exact hrefs.1.1.1.2
  obtain ⟨version', hlookup'⟩ := exists_lookup_of_mem hversionId
  obtain ⟨hstate', hkey', hscope'⟩ := hkept.versions _ _ _ hlookup hstate hlookup'
  refine ⟨⟨version', hlookup', hstate', hkey'.trans hkey, hscope'.trans hscope⟩, fun hkind => ?_⟩
  obtain ⟨messageId, hmessage⟩ := exists_lookup_of_mem (mem_assets hchecks hrefs hkind)
  rw [hmessage, hkept.assets _ _ _ _ (h.target hkind) hmessage]

end ManualLabelAssignmentRecord

/-- What holds in every run: the rows are those of the events in their order, with ids of their
own. -/
structure RecordedInv (uuid : UuidFormat) (s : LabelState) : Prop where
  recorded : List.Forall₂ (fun event row => row.Records uuid event) s.appended s.tables.rows
  distinct : (s.tables.rows.map (·.id)).Nodup

/-- What holds when the others keep what they have to: the rows fit the tables too. -/
structure LabelInv (uuid : UuidFormat) (s : LabelState) : Prop extends RecordedInv uuid s where
  fits : ∀ row ∈ s.tables.rows, row.Fits s.tables.toLabelReferences

theorem LabelState.Fresh.recordedInv (h : s.Fresh) : RecordedInv uuid s := by
  refine ⟨?_, ?_⟩
  · rw [h.appended, h.rows]
    exact .nil
  · rw [h.rows]
    exact .nil

theorem LabelState.Fresh.inv (h : s.Fresh) : LabelInv uuid s := by
  refine ⟨h.recordedInv, fun row hrow => ?_⟩
  rw [h.rows] at hrow
  cases hrow

theorem RecordedInv.step (h : RecordedInv uuid s) (hstep : labelStep uuid s a = some s') :
    RecordedInv uuid s' := by
  rcases labelStep_cases hstep with ⟨event, row, -, hrecords, -, hnew, rfl⟩ | ⟨refs, -, rfl⟩ | rfl
  · refine ⟨List.rel_append h.recorded (.cons hrecords .nil), ?_⟩
    rw [List.map_append, List.nodup_append_comm]
    exact List.nodup_cons.mpr ⟨hnew, h.distinct⟩
  · exact ⟨h.recorded, h.distinct⟩
  · exact h

theorem LabelInv.step (h : LabelInv uuid s) (hkeeps : a.Keeps s)
    (hstep : labelStep uuid s a = some s') : LabelInv uuid s' := by
  refine ⟨h.toRecordedInv.step hstep, fun row hrow => ?_⟩
  rcases labelStep_cases hstep with ⟨event, row', -, -, hfits, -, rfl⟩ | ⟨refs, rfl, rfl⟩ | rfl
  · rcases List.mem_append.mp hrow with hrow | hrow
    · exact h.fits row hrow
    · rw [List.mem_singleton.mp hrow]
      exact hfits
  · obtain ⟨event, -, hrecords⟩ := exists_left_of_mem h.recorded hrow
    exact (h.fits row hrow).keep hrow hrecords.checks_eq hkeeps
  · exact h.fits row hrow

/-! ## Reading back -/

section

variable {messageId : ℕ}

theorem mem_rowsOf : row ∈ t.rowsOf messageId ↔ row ∈ t.rows ∧ row.messageId = messageId := by
  rw [LabelTables.rowsOf, List.mem_insertionSort, List.mem_filter, decide_eq_true_eq]

theorem key_of_eventFields (h : event'.toManualLabelEventFields = row.eventFields uuid) :
    event'.key uuid = row.key := by
  rw [ManualLabelEvent.key, h]
  simp only [ManualLabelAssignmentRecord.eventFields, uuid.parse_text, Option.getD_some]
  rfl

/-- The rows of a message are in a strict order. -/
theorem RecordedInv.pairwise_rowsOf (h : RecordedInv uuid s) (messageId : ℕ) :
    (s.tables.rowsOf messageId).Pairwise fun a b => a.key < b.key := by
  have hperm : (s.tables.rowsOf messageId).Perm
      (s.tables.rows.filter fun row => row.messageId = messageId) := List.perm_insertionSort _ _
  have hdistinct : ((s.tables.rowsOf messageId).map (·.id)).Nodup :=
    (hperm.map _).nodup_iff.mpr (h.distinct.sublist (List.filter_sublist.map _))
  have hsorted : (s.tables.rowsOf messageId).Pairwise ManualLabelAssignmentRecord.LE :=
    List.pairwise_insertionSort _ _
  refine (hsorted.and (List.pairwise_map.mp hdistinct)).imp fun hle => lt_of_le_of_ne hle.1 ?_
  exact fun heq => hle.2 (congrArg (fun k => (ofLex k).2) heq)

/-- The rows of a message are those of its events, in the order of the commits. -/
theorem RecordedInv.canonical_filter (h : RecordedInv uuid s) (messageId : ℕ) :
    (s.appended.filter fun event => uuid.parse event.messageId = some messageId).map
        (·.canonical uuid) =
      (s.tables.rows.filter fun row => row.messageId = messageId).map (·.eventFields uuid) := by
  have hfilter : List.Forall₂ (fun event row => row.Records uuid event)
      (s.appended.filter fun event => uuid.parse event.messageId = some messageId)
      (s.tables.rows.filter fun row => row.messageId = messageId) := by
    refine List.rel_filter (fun event row hrecords => ?_) h.recorded
    simp only [decide_eq_true_eq, hrecords.messageId, Option.some.injEq]
  rw [← List.forall₂_eq_eq_eq, List.forall₂_map_left_iff, List.forall₂_map_right_iff]
  exact hfilter.imp fun _ _ hrecords => hrecords.eventFields_eq.symm

/-- The listing of a message returns the events of its rows. -/
theorem RecordedInv.listManualLabelHistory_eq (h : RecordedInv uuid s) {text : String}
    (hid : uuid.parse text = some messageId) :
    ∃ events, s.tables.listManualLabelHistory uuid text = .ok events ∧
      List.Forall₂ (fun row event => event.toManualLabelEventFields = row.eventFields uuid)
        (s.tables.rowsOf messageId) events := by
  have hreads : ∀ row ∈ s.tables.rowsOf messageId, ∃ event, row.event uuid = .ok event := by
    intro row hrow
    obtain ⟨_, -, hrecords⟩ := exists_left_of_mem h.recorded (mem_rowsOf.mp hrow).1
    obtain ⟨event, hevent, -⟩ := hrecords.event_eq
    exact ⟨event, hevent⟩
  obtain ⟨events, hevents⟩ := exists_mapM_eq_ok hreads
  refine ⟨events, bind_eq_ok.mpr ⟨messageId, UuidFormat.asUuid_eq_ok.mpr hid, hevents⟩, ?_⟩
  exact (mapM_eq_ok.mp hevents).imp fun _ _ hevent =>
    ManualLabelEventFields.create_eq_ok.mp hevent

/-- The target of a row is its message, or an asset it is stored for. -/
theorem ManualLabelAssignmentRecord.Fits.supports (h : row.Fits refs)
    (hchecks : row.checks = true) :
    refs.Supports uuid row.messageId (row.eventFields uuid).toLabelSubject := by
  obtain ⟨version, hlookup, -, hkey, hscope⟩ := h.version
  refine ⟨rfl, ⟨_, version, uuid.parse_text _, hlookup, hkey, hscope⟩, ?_⟩
  by_cases hkind : row.targetKind = "message"
  · simp only [checks, Bool.and_eq_true] at hchecks
    obtain ⟨⟨⟨htarget, -⟩, -⟩, -⟩ := hchecks
    rw [hasConsistentTarget, hkind] at htarget
    simp only [Bool.and_eq_true, decide_eq_true_eq] at htarget
    exact .inl ⟨hkind, congrArg uuid.text htarget.1.1.2⟩
  · exact .inr ⟨_, uuid.parse_text _, h.target hkind⟩

end

/-- In every run, the listing of a message returns and holds the events stored for it, with
their ids in canonical text and their scores as floats, in the strict order of their times and
ids. So each identity has one latest event, and the manual labels that the namespaces make of
the listing have the key and the scope that their label versions have now, and the message or an
asset of it as their target. -/
theorem manual_history (uuid : UuidFormat) (s₀ s : LabelState) (h₀ : s₀.Fresh)
    (actions : List LabelAction)
    (hkeeps : Runs.Along (labelStep uuid) (fun s a => a.Keeps s) s₀ actions)
    (hrun : Runs.run (labelStep uuid) s₀ actions = some s) (messageId : String) (id : ℕ)
    (hid : uuid.parse messageId = some id) :
    ∃ events, s.tables.listManualLabelHistory uuid messageId = .ok events ∧
      (events.map (·.toManualLabelEventFields)).Perm
        ((s.appended.filter fun event => uuid.parse event.messageId = some id).map
          (·.canonical uuid)) ∧
      events.Pairwise (fun a b => a.key uuid < b.key uuid) ∧ DistinctKeys events ∧
      ∀ assignments, ∀ v ∈ (resolveLabelNamespaces assignments events).manual,
        s.tables.Supports uuid id v.toLabelSubject := by
  have hinv : LabelInv uuid s :=
    Runs.run_invariant (fun _ _ _ h hmeets hstep => h.step hmeets hstep) h₀.inv hkeeps hrun
  obtain ⟨events, hevents, hread⟩ := hinv.toRecordedInv.listManualLabelHistory_eq hid
  have hfields : events.map (·.toManualLabelEventFields) =
      (s.tables.rowsOf id).map (·.eventFields uuid) := by
    rw [← List.forall₂_eq_eq_eq, List.forall₂_map_left_iff, List.forall₂_map_right_iff]
    exact hread.flip
  have hsorted : events.Pairwise fun a b => a.key uuid < b.key uuid := by
    refine forall₂_pairwise (fun hrow hrow' hlt => ?_) hread (hinv.toRecordedInv.pairwise_rowsOf id)
    rwa [key_of_eventFields hrow, key_of_eventFields hrow']
  have hdistinct : DistinctKeys events := by
    refine hsorted.imp fun hlt heq => hlt.ne ?_
    obtain ⟨htime, hevent⟩ := Prod.mk.inj heq
    rw [ManualLabelEvent.key, ManualLabelEvent.key, htime, hevent]
  refine ⟨events, hevents, ?_, hsorted, hdistinct, fun assignments v hv => ?_⟩
  · rw [hfields, hinv.toRecordedInv.canonical_filter]
    exact (List.perm_insertionSort _ _).map _
  · obtain ⟨event, hlatest, hvalue⟩ := (mem_manual hdistinct).mp hv
    obtain ⟨row, hrow, hevent⟩ := exists_left_of_mem hread hlatest.mem
    obtain ⟨hstored, rfl⟩ := mem_rowsOf.mp hrow
    obtain ⟨_, -, hrecords⟩ := exists_left_of_mem hinv.recorded hstored
    rw [ManualLabelEvent.subject_asLabelValue hvalue, hevent]
    exact (hinv.fits row hstored).supports hrecords.checks_eq

/-- Message 6 and label version 2, in a state. -/
def spamReferences (state : String) : LabelReferences :=
  ⟨[6], [(2, ⟨state, true, "spam", "global"⟩)], [], [], [7]⟩

/-- Before the first label. -/
def unlabelled : LabelState :=
  ⟨⟨spamReferences "published", []⟩, []⟩

/-- Admin 7 sets the label on the message, with an integer as the score. -/
def spamEvent : ManualLabelEvent where
  messageId := sampleUuid.text 6
  targetScope := "global"
  targetKind := "message"
  targetId := sampleUuid.text 6
  labelDefinitionVersionId := sampleUuid.text 2
  labelKey := "spam"
  eventId := sampleUuid.text 8
  operation := .set
  actorAdminUserId := sampleUuid.text 7
  createdAt := 5
  score := some (.int 1)
  activated := some true
  checked := by decide +kernel

/-- The row of the event. -/
def spamRow : ManualLabelAssignmentRecord :=
  ⟨8, 6, "global", "message", 6, none, none, 2, "spam", .set, some (.float 1), some true, 7, none,
    5⟩

theorem labelStep_spamEvent : labelStep sampleUuid unlabelled (.append spamEvent) =
    some ⟨⟨spamReferences "published", [spamRow]⟩, [spamEvent]⟩ := by
  have happend : unlabelled.tables.appendManualLabel sampleUuid spamEvent =
      .ok (⟨spamReferences "published", [spamRow]⟩, spamEvent) := rfl
  rw [labelStep, happend]
  rfl

/-- The label of a version that is archived after it was set. -/
theorem manual_history_archived :
    ∃ s events, Runs.run (labelStep sampleUuid) unlabelled
        [.append spamEvent, .others (spamReferences "archived")] = some s ∧
      s.tables.listManualLabelHistory sampleUuid (sampleUuid.text 6) = .ok events ∧
      events.map (·.toManualLabelEventFields) = [spamEvent.canonical sampleUuid] ∧
      ∀ v ∈ (resolveLabelNamespaces [] events).manual,
        s.tables.Supports sampleUuid 6 v.toLabelSubject := by
  have hkept : LabelTables.KeptBy ⟨spamReferences "published", [spamRow]⟩
      (spamReferences "archived") := by
    refine ⟨fun row hrow => ?_, fun kind id message message' hasset _ => ?_,
      fun id version version' hversion _ hversion' => ?_⟩
    · rw [List.mem_singleton.mp hrow]
      rfl
    · simp [LabelReferences.assets, spamReferences] at hasset
    · simp only [spamReferences, Dict.lookup_cons, List.lookup_nil] at hversion hversion'
      split_ifs at hversion hversion'
      rw [← Option.some.inj hversion, ← Option.some.inj hversion']
      exact ⟨by decide, rfl, rfl⟩
  have hkeeps : Runs.Along (labelStep sampleUuid) (fun s a => a.Keeps s) unlabelled
      [.append spamEvent, .others (spamReferences "archived")] :=
    Runs.along_cons trivial labelStep_spamEvent (Runs.along_cons hkept rfl trivial)
  have hrun : Runs.run (labelStep sampleUuid) unlabelled
      [.append spamEvent, .others (spamReferences "archived")] =
        some ⟨⟨spamReferences "archived", [spamRow]⟩, [spamEvent]⟩ :=
    Runs.run_cons.mpr ⟨_, labelStep_spamEvent, rfl⟩
  obtain ⟨events, hevents, hperm, -, -, hsupports⟩ := manual_history sampleUuid unlabelled _
    ⟨rfl, rfl⟩ _ hkeeps hrun (sampleUuid.text 6) 6 (sampleUuid.parse_text 6)
  refine ⟨_, events, hrun, hevents, ?_, hsupports []⟩
  have hfilter : [spamEvent].filter (fun event => sampleUuid.parse event.messageId = some 6) =
      [spamEvent] := List.filter_cons_of_pos (decide_eq_true (sampleUuid.parse_text 6))
  rw [hfilter] at hperm
  exact List.perm_singleton.mp hperm

end TgCurator
