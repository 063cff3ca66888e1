import Mathlib.Data.List.Sort
import Mathlib.Data.Prod.Lex
import TgCurator.Review.Labels
import TgCurator.Runs

/-!
# The review history of a message

`transition_review_status` and `list_review_history` of `review_repository.py`. A transition
locks the row of its message, so that transactions on one message commit one after the other,
and the events are in the order of their commits; the listing sorts them by time and id.

In the order of the commits the events of a message lead from the first status to the present
one (`LedTo.snoc`, `ReviewInv.step`). `listReviewHistory_spec`: the listing holds these events, and
is itself such a chain when each event has a later time, or a greater id at the same time, than
those of its message before it. `history_of_equal_times` is a listing that is no chain.
-/

namespace TgCurator

/-! ## Events -/

/-- `MessageReviewEvent`: a transition changes the status. -/
structure MessageReviewEvent where
  eventId : ℕ
  messageId : ℕ
  oldStatus : ReviewStatus
  newStatus : ReviewStatus
  actorAdminUserId : ℕ
  createdAt : ℤ
  reason : Option String
  changed : oldStatus ≠ newStatus
  deriving DecidableEq

namespace MessageReviewEvent

/-- `(created_at, id)`. -/
def key (event : MessageReviewEvent) : ℤ ×ₗ ℕ :=
  toLex (event.createdAt, event.eventId)

/-- `ORDER BY created_at, id`. -/
abbrev LE (a b : MessageReviewEvent) : Prop :=
  a.key ≤ b.key

end MessageReviewEvent

/-- The arguments of `transition_review_status`. -/
structure ReviewTransitionCall where
  eventId : ℕ
  messageId : ℕ
  newStatus : ReviewStatus
  actorAdminUserId : ℕ
  createdAt : ℤ
  reason : Option String := none

/-! ## Tables -/

/-- The rows the review of messages is kept in. The events are in the order of their commits. -/
structure ReviewTables where
  messages : Dict ℕ ReviewStatus
  admins : List ℕ
  events : List MessageReviewEvent

namespace ReviewTables

/-- `transition_review_status`, a transaction. -/
def transitionReviewStatus (t : ReviewTables) (call : ReviewTransitionCall) :
    Except PyError (ReviewTables × MessageReviewEvent) :=
  match t.messages.lookup call.messageId with
  | none => .error (.domainValidation "message does not exist" [])
  | some oldStatus =>
    if h : oldStatus = call.newStatus then
      .error (.domainValidation "review status transition must change status" [])
    else
      let event : MessageReviewEvent := ⟨call.eventId, call.messageId, oldStatus, call.newStatus,
        call.actorAdminUserId, call.createdAt, call.reason, h⟩
      -- The primary key and the reference to the admin are checked with the insert.
      if call.eventId ∈ t.events.map (·.eventId) ∨ call.actorAdminUserId ∉ t.admins then
        .error .integrityError
      else
        .ok ({ t with
          messages := t.messages.set call.messageId call.newStatus
          events := t.events ++ [event] }, event)

/-- The events of a message, in the order of their commits. -/
def committed (t : ReviewTables) (messageId : ℕ) : List MessageReviewEvent :=
  t.events.filter fun event => event.messageId = messageId

/-- `list_review_history`. -/
def listReviewHistory (t : ReviewTables) (messageId : ℕ) : List MessageReviewEvent :=
  (t.committed messageId).insertionSort MessageReviewEvent.LE

end ReviewTables

/-! ## Runs -/

/-- A transaction on the tables. -/
inductive ReviewAction
  /-- A message is stored. -/
  | insertMessage (messageId : ℕ)
  /-- A call of `transition_review_status`. -/
  | transition (call : ReviewTransitionCall)

/-- A transaction commits, or changes nothing. -/
def reviewStep (t : ReviewTables) : ReviewAction → Option ReviewTables
  | .insertMessage messageId =>
    if messageId ∈ t.messages.keys then none
    else some { t with messages := t.messages.set messageId .unreviewed }
  | .transition call =>
    match t.transitionReviewStatus call with
    | .ok (t', _) => some t'
    | .error _ => some t

/-- Before the first transition. -/
structure ReviewStart (t : ReviewTables) : Prop where
  unreviewed : ∀ id status, t.messages.lookup id = some status → status = .unreviewed
  events : t.events = []

/-- Events that lead from one status to another: each starts where the one before it ended. -/
def LedTo : ReviewStatus → List MessageReviewEvent → ReviewStatus → Prop
  | first, [], last => first = last
  | first, event :: events, last => event.oldStatus = first ∧ LedTo event.newStatus events last

/-- A transition has a later time, or a greater id at the same time, than the events of its
message. -/
def ReviewAction.Later (t : ReviewTables) : ReviewAction → Prop
  | insertMessage _ => True
  | transition call =>
    ∀ event ∈ t.committed call.messageId, event.key < toLex (call.createdAt, call.eventId)

instance (t : ReviewTables) (a : ReviewAction) : Decidable (a.Later t) :=
  match a with
  | .insertMessage _ => isTrue trivial
  | .transition call => inferInstanceAs (Decidable (∀ event ∈ t.committed call.messageId,
      event.key < toLex (call.createdAt, call.eventId)))

variable {t t' : ReviewTables} {a : ReviewAction} {first last : ReviewStatus}
  {events : List MessageReviewEvent} {event : MessageReviewEvent} {call : ReviewTransitionCall}
  {id : ℕ} {status : ReviewStatus}

/-- A chain goes on with an event that starts at its end. -/
theorem LedTo.snoc (h : LedTo first events event.oldStatus) :
    LedTo first (events ++ [event]) event.newStatus := by
  induction events generalizing first with
  | nil => exact ⟨h.symm, rfl⟩
  | cons _ _ ih => exact ⟨h.1, ih h.2⟩

/-- What a transition does. -/
theorem transitionReviewStatus_eq_ok (h : t.transitionReviewStatus call = .ok (t', event)) :
    t.messages.lookup call.messageId = some event.oldStatus ∧ event.messageId = call.messageId ∧
      event.newStatus = call.newStatus ∧ event.key = toLex (call.createdAt, call.eventId) ∧
        t'.messages = t.messages.set call.messageId call.newStatus ∧
          t'.events = t.events ++ [event] := by
  unfold ReviewTables.transitionReviewStatus at h
  cases hmessage : t.messages.lookup call.messageId with
  | none =>
    rw [hmessage] at h
    cases h
  | some oldStatus =>
    rw [hmessage] at h
    dsimp only at h
    split_ifs at h
    obtain ⟨rfl, rfl⟩ := Prod.mk.inj (Except.ok.inj h)
    exact ⟨rfl, rfl, rfl, rfl, rfl, rfl⟩

/-- What a step does: it stores a message, appends an event, or changes nothing. -/
theorem reviewStep_cases (h : reviewStep t a = some t') :
    (∃ id, a = .insertMessage id ∧ id ∉ t.messages.keys ∧
      t' = { t with messages := t.messages.set id .unreviewed }) ∨
    (∃ call event, a = .transition call ∧ t.transitionReviewStatus call = .ok (t', event)) ∨
    t' = t := by
  cases a with
  | insertMessage id =>
    rw [reviewStep] at h
    split_ifs at h with hid
    exact .inl ⟨id, rfl, hid, (Option.some.inj h).symm⟩
  | transition call =>
    rw [reviewStep] at h
    cases hcall : t.transitionReviewStatus call with
    | ok result =>
      rw [hcall] at h
      obtain rfl := Option.some.inj h
      exact .inr (.inl ⟨call, result.2, rfl, hcall⟩)
    | error error =>
      rw [hcall] at h
      exact .inr (.inr (Option.some.inj h).symm)

/-- What holds of the tables: the events of a message lead to its status, and there are no
events of other messages. -/
structure ReviewInv (t : ReviewTables) : Prop where
  led : ∀ id status, t.messages.lookup id = some status → LedTo .unreviewed (t.committed id) status
  stored : ∀ event ∈ t.events, event.messageId ∈ t.messages.keys

theorem ReviewStart.inv (h : ReviewStart t) : ReviewInv t := by
  refine ⟨fun id status hstatus => ?_, ?_⟩
  · rw [h.unreviewed id status hstatus, ReviewTables.committed, h.events]
    rfl
  · rw [h.events]
    exact nofun

theorem committed_append (ht' : t'.events = t.events ++ [event]) (id : ℕ) :
    t'.committed id =
      if event.messageId = id then t.committed id ++ [event] else t.committed id := by
  unfold ReviewTables.committed
  rw [ht', List.filter_append]
  split_ifs with hid
  · rw [List.filter_cons_of_pos (by simpa using hid), List.filter_nil]
  · rw [List.filter_cons_of_neg (by simpa using hid), List.filter_nil, List.append_nil]

/-- A step keeps the chains. -/
theorem ReviewInv.step (h : ReviewInv t) (hstep : reviewStep t a = some t') : ReviewInv t' := by
  rcases reviewStep_cases hstep with ⟨id, -, hid, rfl⟩ | ⟨call, event, -, hcall⟩ | rfl
  · have hnone : t.committed id = [] := by
      refine List.filter_eq_nil_iff.mpr fun event hevent heq => hid ?_
      exact of_decide_eq_true heq ▸ h.stored event hevent
    refine ⟨fun id' status hstatus => ?_, fun event hevent => ?_⟩
    · change LedTo _ (t.committed id') _
      rcases Dict.of_lookup_set hstatus with ⟨rfl, rfl⟩ | ⟨-, hstatus⟩
      · rw [hnone]
        rfl
      · exact h.led id' status hstatus
    · exact Dict.mem_keys_set.mpr (.inr (h.stored event hevent))
  · obtain ⟨hold, hmessage, hnew, -, hmessages, hevents⟩ := transitionReviewStatus_eq_ok hcall
    refine ⟨fun id status hstatus => ?_, fun event' hevent' => ?_⟩
    · rw [hmessages] at hstatus
      rw [committed_append hevents]
      rcases Dict.of_lookup_set hstatus with ⟨rfl, rfl⟩ | ⟨hid, hstatus⟩
      · rw [if_pos hmessage, ← hnew]
        exact (h.led _ _ hold).snoc
      · rw [if_neg (by rw [hmessage]; exact Ne.symm hid)]
        exact h.led id status hstatus
    · rw [hmessages, Dict.mem_keys_set]
      rw [hevents, List.mem_append, List.mem_singleton] at hevent'
      rcases hevent' with hevent' | rfl
      · exact .inr (h.stored event' hevent')
      · exact .inl hmessage
  · exact h

/-- A step whose transition is later keeps the events of each message in the order of their
keys. -/
theorem sorted_step (h : ∀ id, (t.committed id).Pairwise fun a b => a.key < b.key)
    (hlater : a.Later t) (hstep : reviewStep t a = some t') (id : ℕ) :
    (t'.committed id).Pairwise fun a b => a.key < b.key := by
  rcases reviewStep_cases hstep with ⟨id', -, -, rfl⟩ | ⟨call, event, rfl, hcall⟩ | rfl
  · exact h id
  · obtain ⟨-, hmessage, -, hkey, -, hevents⟩ := transitionReviewStatus_eq_ok hcall
    rw [committed_append hevents]
    split_ifs with hid
    · rw [List.pairwise_append]
      refine ⟨h id, List.pairwise_singleton _ _, fun event' hevent' event'' hevent'' => ?_⟩
      rw [List.mem_singleton.mp hevent'', hkey]
      rw [← hid, hmessage] at hevent'
      exact hlater event' hevent'
    · exact h id
  · exact h id

/-- In every run, the listing of a message holds the events of its transitions, in the order of
their times and ids; in the order of the commits they lead from the first status of the message
to its present one; and so does the listing when each transition has a later time, or a greater
id at the same time, than those of its message before it. -/
theorem listReviewHistory_spec (t₀ t : ReviewTables) (h₀ : ReviewStart t₀)
    (actions : List ReviewAction) (hrun : Runs.run reviewStep t₀ actions = some t) (id : ℕ)
    (status : ReviewStatus) (hstatus : t.messages.lookup id = some status) :
    (t.listReviewHistory id).Perm (t.committed id) ∧
      (t.listReviewHistory id).Pairwise MessageReviewEvent.LE ∧
      LedTo .unreviewed (t.committed id) status ∧
      (Runs.Along reviewStep (fun t a => a.Later t) t₀ actions →
        LedTo .unreviewed (t.listReviewHistory id) status) := by
  have hinv : ReviewInv t := Runs.run_invariant' (fun _ _ _ h => h.step) h₀.inv hrun
  have hled := hinv.led id status hstatus
  refine ⟨List.perm_insertionSort _ _, List.pairwise_insertionSort _ _, hled, fun halong => ?_⟩
  have hsorted : ∀ id, (t.committed id).Pairwise fun a b => a.key < b.key := by
    refine Runs.run_invariant (fun _ _ _ h hlater hstep => sorted_step h hlater hstep) ?_ halong hrun
    intro id
    rw [ReviewTables.committed, h₀.events]
    exact .nil
  have hle : (t.committed id).Pairwise MessageReviewEvent.LE := (hsorted id).imp fun h => h.le
  rwa [ReviewTables.listReviewHistory, hle.insertionSort_eq]

/-- A message that is reviewed and then needs attention, by events with these times and ids. -/
def reviewedTwice (time time' : ℤ) (eventId eventId' : ℕ) : List ReviewAction :=
  [.insertMessage 1, .transition ⟨eventId, 1, .reviewed, 7, time, none⟩,
    .transition ⟨eventId', 1, .needsAttention, 7, time', some "unclear"⟩]

theorem listReviewHistory_spec_reviewedTwice :
    ∃ t, Runs.run reviewStep ⟨[], [7], []⟩ (reviewedTwice 5 5 1 2) = some t ∧
      (t.listReviewHistory 1).length = 2 ∧
        LedTo .unreviewed (t.listReviewHistory 1) .needsAttention := by
  have h₀ : ReviewStart ⟨[], [7], []⟩ := ⟨nofun, rfl⟩
  have hchecks : Runs.checks reviewStep (fun t a => decide (a.Later t)) ⟨[], [7], []⟩
      (reviewedTwice 5 5 1 2) = true := by decide +kernel
  have halong : Runs.Along reviewStep (fun t a => a.Later t) ⟨[], [7], []⟩
      (reviewedTwice 5 5 1 2) :=
    Runs.along_of_checks (fun _ _ => of_decide_eq_true) hchecks
  exact ⟨_, rfl, rfl, (listReviewHistory_spec _ _ h₀ _ rfl 1 _ rfl).2.2.2 halong⟩

/-- Two events of one time whose ids are in the other order: the listing begins with the second
one. -/
theorem history_of_equal_times :
    ∃ t, Runs.run reviewStep ⟨[], [7], []⟩ (reviewedTwice 5 5 2 1) = some t ∧
      t.messages.lookup 1 = some .needsAttention ∧
        ¬ LedTo .unreviewed (t.listReviewHistory 1) .needsAttention := by
  refine ⟨_, rfl, rfl, ?_⟩
  rintro ⟨hfirst, -⟩
  cases hfirst

end TgCurator
