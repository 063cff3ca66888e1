import TgCurator.Ingestion.Buffer
import TgCurator.Messages.History
import TgCurator.Messages.Store
import TgCurator.Runs

/-!
# Realtime ingestion and reconnect

`RealtimeTelegramIngestion` of `application/realtime_ingestion.py` and
`ReconnectTelegramReconciliation` of `application/reconciliation.py`, with the cursors of
`reconciliation_repository.py`, as one system: Telegram's history, the tables, the
cursors, the buffer in memory and the calls under way.

A call runs as the program does between two awaits: it has taken its messages out of the
buffer, and each transaction it has still to make is a step of its own (`proceed`), in
any order with those of the other calls. An exception ends a call and leaves what it
committed; a crash ends every call and empties the buffer.

Telegram's history is the list of the versions of its messages. A new message has a
greater id than those of its source before it; an edit is a new version of an old one.
-/

namespace TgCurator

namespace Reconnect

/-! ## Cursors -/

/-- `_monotonic_cursor_advance_statement`. -/
def advance (cursor : Dict ℕ ℕ) (source telegramMessageId : ℕ) : Dict ℕ ℕ :=
  match cursor.lookup source with
  | none => cursor.set source telegramMessageId
  | some current =>
    if current < telegramMessageId then cursor.set source telegramMessageId else cursor

/-- One turn of the loop that collects `greatest_by_source`. -/
def raiseGreatest (greatest : Dict ℕ ℕ) (message : TelegramMessage) : Dict ℕ ℕ :=
  greatest.set message.sourceChannelId
    (max message.telegramMessageId ((greatest.lookup message.sourceChannelId).getD 0))

/-- `greatest_by_source`. -/
def greatestBySource (messages : List TelegramMessage) : Dict ℕ ℕ :=
  messages.foldl raiseGreatest []

/-! ## Calls under way -/

/-- A transaction of a realtime call. -/
inductive Operation
  | upsertMessage (message : NormalizedTelegramMessage)
  | recordLatestSeenMessage (sourceChannelId telegramMessageId : ℕ)
  | recordIngestedMessage (sourceChannelId telegramMessageId : ℕ)

/-- What a call under way has still to do. -/
inductive Call
  /-- `_ingest_ready`: the transactions left -/
  | ingestReady (operations : List Operation)
  /-- `reconcile`, before `newest_message` -/
  | newest (sourceChannelId fromExclusive : ℕ)
  /-- `reconcile`, before `record_latest_seen_message` -/
  | recordLatest (sourceChannelId fromExclusive upper : ℕ)
  /-- `reconcile`, before `fetch_history` -/
  | fetch (sourceChannelId fromExclusive upper : ℕ)
  /-- `reconcile`, before the upserts left and `record_ingested_message` -/
  | ingest (sourceChannelId fromExclusive upper : ℕ) (upserts : List NormalizedTelegramMessage)

/-- The loop over `greatest_by_source` in `_ingest_ready`. -/
def recordGreatest (messages : List TelegramMessage) : List Operation :=
  ((greatestBySource messages).insertionSort fun e e' => e.1 ≤ e'.1).flatMap fun e =>
    [.recordLatestSeenMessage e.1 e.2, .recordIngestedMessage e.1 e.2]

/-! ## The system -/

/-- Telegram, the tables, and the process. -/
structure State where
  history : List TelegramMessage
  store : Store
  lastSeen : Dict ℕ ℕ
  latestSeen : Dict ℕ ℕ
  buffer : MediaGroupAggregationBuffer
  calls : Dict ℕ Call := []

/-- The entry points of `RealtimeTelegramIngestion`. -/
inductive Trigger
  | ingestUpdate (message : TelegramMessage) (now : ℤ)
  | flushDue (now : ℤ)
  | flushAll

/-- What a realtime call takes out of the buffer. -/
def Trigger.release (buffer : MediaGroupAggregationBuffer) :
    Trigger → MediaGroupAggregationBuffer × List TelegramMessage
  | ingestUpdate message now => buffer.add message now
  | flushDue now => buffer.flushDue now
  | flushAll => buffer.flushAll

/-- What can happen. A call is named by a number. -/
inductive Action
  /-- a message is posted or edited, without an update -/
  | appear (message : TelegramMessage)
  /-- a realtime call, up to its first await -/
  | realtime (call : ℕ) (trigger : Trigger)
  /-- `reconcile`, up to its first await -/
  | reconcile (call sourceChannelId : ℕ)
  /-- `fetch_history` returns -/
  | fetched (call : ℕ) (messages : List TelegramMessage)
  /-- the next step of a call -/
  | proceed (call : ℕ)
  | crash

/-- The greatest id in the history of a source. -/
def newestMessage (history : List TelegramMessage) (sourceChannelId : ℕ) : Option ℕ :=
  ((history.filter (·.sourceChannelId = sourceChannelId)).map (·.telegramMessageId)).max?

/-- Whether a version may appear: an edit, or a message newer than its source has. -/
def mayAppear (history : List TelegramMessage) (message : TelegramMessage) : Bool :=
  history.any (·.component = message.component) ||
    history.all fun m => m.sourceChannelId = message.sourceChannelId →
      m.telegramMessageId < message.telegramMessageId

/-- `_validate_history_window`. -/
def validateHistoryWindow (messages : List TelegramMessage)
    (sourceChannelId fromExclusive upper : ℕ) : Except PyError Unit :=
  messages.forM fun m => do
    ensure (m.sourceChannelId = sourceChannelId)
      "Telegram reconciliation returned a message for another source channel"
    ensure (fromExclusive < m.telegramMessageId && m.telegramMessageId ≤ upper)
      "Telegram reconciliation returned a message outside the frozen window"

section

variable (sha256 : String → String)

/-- A call after its next step. -/
def setCall (s : State) (call : ℕ) (left : Call) : State :=
  { s with calls := s.calls.set call left }

/-- A call ends, by returning or by an exception. -/
def endCall (s : State) (call : ℕ) : State :=
  { s with calls := s.calls.erase call }

/-- `_ingest_ready` up to its first await. -/
def ingestReady (s : State) (call : ℕ) (ready : List TelegramMessage) : State :=
  match ready with
  | [] => s
  | _ =>
    match normalizeTelegramMessages ready with
    | .error _ => s
    | .ok normalized =>
      setCall s call (.ingestReady (normalized.map .upsertMessage ++ recordGreatest ready))

/-- An upsert of a call; an exception ends the call. -/
def upsertIn (s : State) (call : ℕ) (message : NormalizedTelegramMessage) (left : Call) : State :=
  match s.store.upsertMessage sha256 message with
  | .ok store => setCall { s with store } call left
  | .error _ => endCall s call

/-- The next step of a call. -/
def proceed (s : State) (call : ℕ) : Call → Option State
  | .ingestReady [] => some (endCall s call)
  | .ingestReady (.upsertMessage m :: operations) =>
    some (upsertIn sha256 s call m (.ingestReady operations))
  | .ingestReady (.recordLatestSeenMessage source id :: operations) =>
    some (setCall { s with latestSeen := advance s.latestSeen source id } call
      (.ingestReady operations))
  | .ingestReady (.recordIngestedMessage source id :: operations) =>
    some (setCall { s with lastSeen := advance s.lastSeen source id } call
      (.ingestReady operations))
  | .newest source fromExclusive =>
    match newestMessage s.history source with
    | none => some (endCall s call)
    | some newest => some (setCall s call (.recordLatest source fromExclusive newest))
  | .recordLatest source fromExclusive upper =>
    let s := { s with latestSeen := advance s.latestSeen source upper }
    if upper ≤ fromExclusive then some (endCall s call)
    else some (setCall s call (.fetch source fromExclusive upper))
  | .fetch _ _ _ => none
  | .ingest source fromExclusive upper (m :: ms) =>
    some (upsertIn sha256 s call m (.ingest source fromExclusive upper ms))
  | .ingest source _ upper [] =>
    some (endCall { s with lastSeen := advance s.lastSeen source upper } call)

/-- The history arrives at a call that waits for it. -/
def receive (s : State) (call : ℕ) (messages : List TelegramMessage) : Call → Option State
  | .fetch source fromExclusive upper =>
    if isWindow s.history source fromExclusive upper messages then
      match (do
        validateHistoryWindow messages source fromExclusive upper
        normalizeTelegramMessages messages) with
      | .error _ => some (endCall s call)
      | .ok upserts => some (setCall s call (.ingest source fromExclusive upper upserts))
    else none
  | _ => none

/-- Whether an action may happen: an update is of a message of the history, and a new
call has a name of its own. -/
def enabled (s : State) : Action → Bool
  | .appear message => mayAppear s.history message
  | .realtime call (.ingestUpdate message _) =>
    s.history.any (·.component = message.component) && call ∉ s.calls.keys
  | .realtime call _ => call ∉ s.calls.keys
  | .reconcile call _ => call ∉ s.calls.keys
  | _ => true

/-- One step of the system. -/
def step (s : State) (a : Action) : Option State :=
  if enabled s a then
    match a with
    | .appear message => some { s with history := s.history ++ [message] }
    | .realtime call trigger =>
      let (buffer, ready) := trigger.release s.buffer
      some (ingestReady { s with buffer } call ready)
    | .reconcile call source =>
      some (setCall s call (.newest source ((s.lastSeen.lookup source).getD 0)))
    | .fetched call messages => (s.calls.lookup call).bind (receive s call messages)
    | .proceed call => (s.calls.lookup call).bind (proceed sha256 s call)
    | .crash => some { s with buffer := { s.buffer with pending := [] }, calls := [] }
  else none

end

end Reconnect

end TgCurator
