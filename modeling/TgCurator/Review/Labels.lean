import TgCurator.Shared

/-!
# Label values and manual label events

`domain/review/models.py`. A label value belongs to a target of a message: the message
itself, or one of its image or video assets. A manual event sets or clears the value of
one label definition version on one target. The checks of each `__post_init__` are a
field of the structure.

Timestamps are instants on one time line; the code requires aware datetimes, which
compare as instants.
-/

namespace TgCurator

/-- `ReviewStatus`. -/
inductive ReviewStatus
  | unreviewed | inReview | reviewed | needsAttention
  deriving DecidableEq

/-- `ReviewStatus.value`. -/
def ReviewStatus.value : ReviewStatus → String
  | unreviewed => "unreviewed"
  | inReview => "in_review"
  | reviewed => "reviewed"
  | needsAttention => "needs_attention"

/-- `ManualLabelOperation`. -/
inductive ManualLabelOperation
  | set | clear
  deriving DecidableEq

/-! ## Targets -/

/-- The fields that say which label of which target is meant. -/
structure LabelSubject where
  messageId : String
  targetScope : String
  targetKind : String
  targetId : String
  labelDefinitionVersionId : String
  labelKey : String
  imageAssetId : Option String := none
  videoAssetId : Option String := none
  deriving DecidableEq

/-- `_require_nonblank`. -/
def requireNonblank (value field : String) : Except PyError Unit :=
  ensure (!isBlank value) "% must not be blank" [field]

/-- The consistency of kind, scope and ids. -/
def LabelSubject.hasConsistentTarget (s : LabelSubject) : Bool :=
  match s.targetKind with
  | "message" =>
    s.targetScope = "global" && s.targetId = s.messageId && s.imageAssetId.isNone &&
      s.videoAssetId.isNone
  | "image_asset" =>
    s.targetScope = "media" && s.imageAssetId = some s.targetId && s.videoAssetId.isNone
  | "video_asset" =>
    s.targetScope = "media" && s.videoAssetId = some s.targetId && s.imageAssetId.isNone
  | _ => false

/-- `_validate_target_identity`. -/
def LabelSubject.validateTargetIdentity (s : LabelSubject) : Except PyError Unit := do
  requireNonblank s.messageId "message_id"
  requireNonblank s.targetId "target_id"
  ensure s.hasConsistentTarget "target identity is inconsistent"

/-- The `identity` of a label value or of a manual event. -/
def LabelSubject.identity (s : LabelSubject) : String × String × String :=
  (s.targetScope, s.targetId, s.labelDefinitionVersionId)

/-- `LabelValue.__post_init__`, on a score and a flag that may be missing. -/
def LabelSubject.validateLabelValue (s : LabelSubject) (score : Option Number)
    (activated : Option Bool) : Except PyError Unit := do
  s.validateTargetIdentity
  requireNonblank s.labelDefinitionVersionId "label_definition_version_id"
  requireNonblank s.labelKey "label_key"
  match score with
  | none => ensure false "score must be numeric"
  | some score =>
    ensureUnitInterval score "score must be in [0, 1]"
    ensure activated.isSome "activated must be a boolean"

/-! ## Label values -/

/-- `LabelValue`. -/
structure LabelValue extends LabelSubject where
  score : Number
  activated : Bool
  checked : toLabelSubject.validateLabelValue (some score) (some activated) = .ok ()
  deriving DecidableEq

theorem LabelSubject.targetScope_of_validate {s : LabelSubject}
    (h : s.validateTargetIdentity = .ok ()) : s.targetScope = "global" ∨ s.targetScope = "media" := by
  simp only [validateTargetIdentity, seq_eq_ok, ensure_eq_ok] at h
  obtain ⟨-, -, h⟩ := h
  unfold hasConsistentTarget at h
  split at h <;> simp_all

/-- A label value is on a message or on a media asset. -/
theorem LabelValue.targetScope_cases (v : LabelValue) :
    v.targetScope = "global" ∨ v.targetScope = "media" :=
  LabelSubject.targetScope_of_validate (seq_eq_ok.mp v.checked).1

/-! ## Manual events -/

/-- The arguments of `ManualLabelEvent`. -/
structure ManualLabelEventFields extends LabelSubject where
  eventId : String
  operation : ManualLabelOperation
  actorAdminUserId : String
  createdAt : ℤ
  score : Option Number := none
  activated : Option Bool := none
  reason : Option String := none
  deriving DecidableEq

/-- `ManualLabelEvent.__post_init__`. -/
def ManualLabelEventFields.postInit (event : ManualLabelEventFields) : Except PyError Unit := do
  requireNonblank event.eventId "event_id"
  event.validateTargetIdentity
  requireNonblank event.labelDefinitionVersionId "label_definition_version_id"
  requireNonblank event.labelKey "label_key"
  requireNonblank event.actorAdminUserId "actor_admin_user_id"
  match event.operation with
  | .clear =>
    ensure (event.score.isNone && event.activated.isNone)
      "clear events cannot contain score or activated"
  | .set => event.toLabelSubject.validateLabelValue event.score event.activated

/-- `ManualLabelEvent`. -/
structure ManualLabelEvent extends ManualLabelEventFields where
  checked : toManualLabelEventFields.postInit = .ok ()
  deriving DecidableEq

/-- `as_label_value`: a set event has a score and a flag that passed the checks of a
label value; a clear event has none. -/
def ManualLabelEvent.asLabelValue (event : ManualLabelEvent) : Option LabelValue :=
  match event.score, event.activated with
  | some score, some activated =>
    if h : event.toLabelSubject.validateLabelValue (some score) (some activated) = .ok () then
      some ⟨event.toLabelSubject, score, activated, h⟩
    else none
  | _, _ => none

/-- The label value of an event is about the subject of the event. -/
theorem ManualLabelEvent.subject_asLabelValue {event : ManualLabelEvent} {v : LabelValue}
    (h : event.asLabelValue = some v) : v.toLabelSubject = event.toLabelSubject := by
  unfold asLabelValue at h
  split at h
  · split_ifs at h
    rw [← Option.some.inj h]
  · cases h

/-- The label value of an event exists exactly when the event sets one. -/
theorem ManualLabelEvent.isSome_asLabelValue (event : ManualLabelEvent) :
    event.asLabelValue.isSome ↔ event.operation = .set := by
  have h := event.checked
  simp only [ManualLabelEventFields.postInit, seq_eq_ok] at h
  obtain ⟨-, -, -, -, -, h⟩ := h
  unfold asLabelValue
  cases hop : event.operation with
  | clear =>
    obtain ⟨hscore, -⟩ : event.score = none ∧ event.activated = none := by simpa [hop] using h
    simp [hscore]
  | set =>
    rw [hop] at h
    dsimp only at h
    have hvalue := h
    simp only [LabelSubject.validateLabelValue, seq_eq_ok] at h
    obtain ⟨-, -, -, h⟩ := h
    cases hscore : event.score with
    | none => simp [hscore] at h
    | some score =>
      cases hact : event.activated with
      | none => simp [hscore, hact, seq_eq_ok] at h
      | some activated =>
        rw [hscore, hact] at hvalue
        simp [hvalue]

end TgCurator
