import Opsia.Event.Outbox

/-!
# Workers and relays

`packages/runtime/worker.py` and `packages/runtime/relay.py` as one system: the
messages of the broker, any number of concurrent `EventProcessor.process` calls,
any number of `OutboxRelay.run_once` calls, and the database. A call is a task
whose `Phase` says which `await` or transaction comes next. Every choice that the
code does not make (what the handler returns, whether a call to the broker or the
database fails, when a process dies, how time passes) is part of an `Op`, and an
`Op` that the current phase does not allow changes nothing.
-/

namespace Opsia.Event

/-! ## Settings -/

/-- `EventRetryPolicy`, the fields the processor reads. -/
structure EventRetryPolicy : Type where
  maxAttempts : ℤ
  retryDelaySeconds : ℤ
  handlerTimeoutSeconds : ℤ
  deriving DecidableEq, Repr

/-- `validate_event_timing_contract`, for the settings of the broker and of the
ledger. -/
def validateEventTimingContract (handlerTimeoutSeconds ackWait processingStaleSeconds : ℤ) :
    Except String Unit :=
  if handlerTimeoutSeconds < ackWait ∧ ackWait < processingStaleSeconds then .ok ()
  else .error ("unsafe event timing contract: require " ++
    s!"WORKER_HANDLER_TIMEOUT_SECONDS({handlerTimeoutSeconds}) " ++
    s!"< NATS_ACK_WAIT_SECONDS({ackWait}) " ++
    s!"< EVENT_PROCESSING_STALE_SECONDS({processingStaleSeconds})")

/-- A deployment whose workers have all started: the codec, the settings of the
broker and of the ledger, and the policy of each service, which passed
`validate_event_timing_contract`. -/
structure Deployment : Type where
  /-- `Codec.decode`, `none` when it raises -/
  decode : List UInt8 → Option EventEnvelope
  ackWaitSeconds : ℤ
  processingStaleSeconds : ℤ
  policy : String → EventRetryPolicy
  valid : ∀ service, validateEventTimingContract (policy service).handlerTimeoutSeconds
    ackWaitSeconds processingStaleSeconds = .ok ()

/-! ## The system -/

/-- A message of the broker's stream, as one durable consumer sees it. -/
structure BusMessage : Type where
  /-- the service of the durable consumer -/
  consumer : String
  data : List UInt8
  /-- not delivered (again) before this moment -/
  availableAt : Timestamp
  acked : Bool
  deriving DecidableEq, Repr

/-- A claimed event: the decoded envelope and `processing.attempts`. -/
structure Work : Type where
  evt : EventEnvelope
  attempts : ℕ
  deriving DecidableEq, Repr

/-- Where a `process` call stands. -/
inductive Phase : Type where
  /-- called -/
  | received
  /-- the claim is committed -/
  | claimed (w : Work)
  /-- the handler runs, in a unit of work opened at `startedAt` -/
  | handling (w : Work) (startedAt : Timestamp)
  /-- the handler returned; its unit of work is not committed -/
  | returned (w : Work) (startedAt : Timestamp) (events : List EventEnvelope)
  /-- in `fail` -/
  | failing (w : Work)
  /-- `dead_letters.capture` returned -/
  | captured (w : Work)
  /-- `dead_letters.capture` raised -/
  | captureFailed (w : Work)
  /-- before `message.ack()` -/
  | acking
  /-- before `message.nak(…)` -/
  | naking
  /-- returned -/
  | settled
  /-- the process died -/
  | crashed
  deriving DecidableEq, Repr

/-- The claim a call holds. -/
def Phase.work? : Phase → Option Work
  | .claimed w | .handling w _ | .returned w _ _ | .failing w | .captured w | .captureFailed w =>
    some w
  | .received | .acking | .naking | .settled | .crashed => none

/-- A `process` call on one delivery of a message. -/
structure Task : Type where
  /-- the index of the message -/
  message : ℕ
  consumer : String
  data : List UInt8
  phase : Phase
  deriving DecidableEq, Repr

/-- Where a `run_once` call stands. -/
inductive RelayPhase : Type where
  /-- in the loop -/
  | publishing
  /-- before `mark_events_dead_lettered` -/
  | deadLettering (evt : EventEnvelope) (error : String)
  /-- in `finally` -/
  | marking
  /-- returned, raised, or died -/
  | stopped
  deriving DecidableEq, Repr

/-- A `run_once` call. -/
structure RelayRun : Type where
  source : Option String
  /-- the rows the loop has not reached -/
  rows : List EventEnvelope
  published : List String
  phase : RelayPhase
  deriving DecidableEq, Repr

def RelayRun.consumerName (r : RelayRun) : String :=
  "outbox-relay:" ++ (if r.source.getD "" = "" then "all" else r.source.getD "")

/-- The broker, the database, and the running calls. Messages, tasks and relays
are named by their positions. -/
structure System : Type where
  now : Timestamp
  messages : List BusMessage
  /-- the envelopes the broker accepted from relays -/
  stream : List EventEnvelope
  ledger : ProcessingLedger
  outbox : Outbox
  deadLetters : List EventDeadLetter
  /-- the next identifier minted by `uuid4` -/
  nextId : Uuid
  tasks : List Task
  relays : List RelayRun

/-- Nothing has happened yet. -/
def System.init : System where
  now := 0
  messages := []
  stream := []
  ledger := Table.empty
  outbox := Table.empty
  deadLetters := []
  nextId := 0
  tasks := []
  relays := []

/-- The ledger key of a claimed event. -/
def Task.key (t : Task) (evt : EventEnvelope) : EventKey := (evt.eventId, t.consumer)

/-- The task `i`, which was `t`, comes to the phase `p`. -/
def System.moveTask (s : System) (i : ℕ) (t : Task) (p : Phase) : System :=
  { s with tasks := s.tasks.set i { t with phase := p } }

/-- The relay `j` becomes `r`. -/
def System.setRelay (s : System) (j : ℕ) (r : RelayRun) : System :=
  { s with relays := s.relays.set j r }

/-! ## Choices of the environment -/

/-- How a unit of work ends. -/
inductive CommitOutcome : Type where
  | committed
  /-- committed, but the client saw an exception -/
  | unacknowledged
  | rolledBack
  deriving DecidableEq, Repr

/-- How a bounded dead-letter capture ends: the row is recorded before the event
is emitted, so a raised capture may have left one. -/
inductive CaptureOutcome : Type where
  | captured
  | raised (recorded : Bool)
  deriving DecidableEq, Repr

/-- The capture left a dead letter. -/
def CaptureOutcome.recorded : CaptureOutcome → Bool
  | .captured => true
  | .raised recorded => recorded

/-- How a publication ends. -/
inductive PublishOutcome : Type where
  | accepted
  /-- an exception or the timeout; the broker may have accepted the envelope -/
  | raised (accepted : Bool)
  /-- `MaxPayloadError` -/
  | nonRetryable (error : String)
  deriving DecidableEq, Repr

/-- A step of the environment or of one call. -/
inductive Op : Type where
  /-- time passes -/
  | tick (seconds : ℕ)
  /-- the stream has a message for a consumer -/
  | message (consumer : String) (data : List UInt8)
  /-- the message `m` is fetched, and `process` called on it -/
  | deliver (m : ℕ)
  /-- the message does not decode: `capture_raw` -/
  | captureRaw (i : ℕ) (error : String) (outcome : CaptureOutcome)
  /-- the claim transaction -/
  | begin (i : ℕ)
  /-- the handler is started -/
  | start (i : ℕ)
  /-- the handler returns -/
  | handlerReturns (i : ℕ) (events : List EventEnvelope)
  /-- the unit of work cannot be opened, or the handler raises or times out -/
  | handlerRaises (i : ℕ)
  /-- `stage_events`, `finish` and the end of the unit of work -/
  | commit (i : ℕ) (outcome : CommitOutcome)
  /-- the attempts are used up: `dead_letters.capture` -/
  | capture (i : ℕ) (error : String) (outcome : CaptureOutcome)
  /-- `ledger.dead_letter` -/
  | deadLetter (i : ℕ)
  /-- `ledger.retry` -/
  | retry (i : ℕ)
  /-- an exception that reaches the consume loop, or a worker that is stopping -/
  | giveUp (i : ℕ)
  /-- `message.ack()`, which may raise although the broker has it -/
  | ack (i : ℕ) (raised : Bool)
  /-- `message.nak(…)` -/
  | nak (i : ℕ)
  /-- the process of the call dies -/
  | crash (i : ℕ)
  /-- `run_once` is called and leases a batch -/
  | relayBegin (source : Option String) (limit : ℕ) (appNow : Timestamp) (locked : List String)
  /-- the next row of the batch is published -/
  | relayPublish (j : ℕ) (outcome : PublishOutcome)
  /-- `mark_events_dead_lettered`, which may raise -/
  | relayDeadLetter (j : ℕ) (raised : Bool)
  /-- `mark_events_sent` in `finally`, which may raise -/
  | relayMark (j : ℕ) (raised : Bool)
  /-- the process of the relay dies -/
  | relayCrash (j : ℕ)
  /-- `dead_letter_unsent_outbox_older_than` -/
  | sweep (cutoff : Timestamp) (limit : ℕ)
  deriving DecidableEq, Repr

/-! ## Steps of a `process` call -/

/-- Record a dead letter when the capture got that far. -/
def System.addDeadLetter (s : System) (outcome : CaptureOutcome) (row : EventDeadLetter) :
    System :=
  { s with deadLetters := if outcome.recorded then s.deadLetters ++ [row] else s.deadLetters }

/-- The decode branch of `process`. -/
def captureRawStep (s : System) (i : ℕ) (t : Task) (error : String) (outcome : CaptureOutcome) :
    System :=
  let s' := s.addDeadLetter outcome (recordRawDeadLetter s.nextId t.data t.consumer error)
  { s' with nextId := s.nextId + 1 }.moveTask i t
    (match outcome with
      | .captured => .acking
      | .raised _ => .naking)

/-- Where the answer of the claim leads: a closed row is acked, a row under a fresh
claim is left for later. -/
def EventProcessingRecord.next (processing : EventProcessingRecord) (evt : EventEnvelope) :
    Phase :=
  match processing.status with
  | .ledger .processing => .claimed ⟨evt, processing.attempts⟩
  | .ledger .processed | .ledger .deadLettered => .acking
  | .ledger .retrying | .claimBlocked | .unknown => .naking

/-- The claim of `process`. -/
def beginStep (d : Deployment) (s : System) (i : ℕ) (t : Task) (evt : EventEnvelope) : System :=
  let (processing, ledger) :=
    beginEventProcessing s.ledger s.now d.processingStaleSeconds (t.key evt)
  { s with ledger }.moveTask i t (processing.next evt)

/-- The end of the unit of work; the rows carry the time it was opened. -/
def commitStep (s : System) (i : ℕ) (t : Task) (w : Work) (startedAt : Timestamp)
    (events : List EventEnvelope) (outcome : CommitOutcome) : System :=
  let s' := { s with
    outbox := stageEvents s.outbox events
    ledger := finishEventProcessing s.ledger startedAt (t.key w.evt) }
  match outcome with
  | .committed => s'.moveTask i t .acking
  | .unacknowledged => s'.moveTask i t (.failing w)
  | .rolledBack => s.moveTask i t (.failing w)

/-- The first half of `fail` once the attempts are used up. -/
def captureStep (s : System) (i : ℕ) (t : Task) (w : Work) (error : String)
    (outcome : CaptureOutcome) : System :=
  (s.addDeadLetter outcome (recordDeadLetter w.evt t.consumer error w.attempts)).moveTask i t
    (match outcome with
      | .captured => .captured w
      | .raised _ => .captureFailed w)

/-- `ledger.dead_letter` and `ledger.retry`. -/
def failStep (s : System) (i : ℕ) (t : Task) (w : Work) (status : EventProcessingStatus)
    (next : Phase) : System :=
  { s with ledger := failEventProcessing s.ledger s.now (t.key w.evt) status }.moveTask i t next

/-- A step of the call `i`, which stands at `t.phase`. -/
def taskStep (d : Deployment) (s : System) (i : ℕ) (t : Task) : Op → System
  | .captureRaw _ error outcome =>
    match t.phase, d.decode t.data with
    | .received, none => captureRawStep s i t error outcome
    | _, _ => s
  | .begin _ =>
    match t.phase, d.decode t.data with
    | .received, some evt => beginStep d s i t evt
    | _, _ => s
  | .start _ =>
    match t.phase with
    | .claimed w => s.moveTask i t (.handling w s.now)
    | _ => s
  | .handlerReturns _ events =>
    match t.phase with
    | .handling w startedAt =>
      if s.now ≤ startedAt + (d.policy t.consumer).handlerTimeoutSeconds then
        s.moveTask i t (.returned w startedAt events)
      else s
    | _ => s
  | .handlerRaises _ =>
    match t.phase with
    | .claimed w | .handling w _ => s.moveTask i t (.failing w)
    | _ => s
  | .commit _ outcome =>
    match t.phase with
    | .returned w startedAt events => commitStep s i t w startedAt events outcome
    | _ => s
  | .capture _ error outcome =>
    match t.phase with
    | .failing w =>
      if (d.policy t.consumer).maxAttempts ≤ w.attempts then captureStep s i t w error outcome
      else s
    | _ => s
  | .deadLetter _ =>
    match t.phase with
    | .captured w => failStep s i t w .deadLettered .acking
    | _ => s
  | .retry _ =>
    match t.phase with
    | .failing w =>
      if w.attempts < (d.policy t.consumer).maxAttempts then failStep s i t w .retrying .naking
      else s
    | .captureFailed w => failStep s i t w .retrying .naking
    | _ => s
  | .giveUp _ =>
    match t.phase with
    | .received | .captured _ | .captureFailed _ | .acking => s.moveTask i t .naking
    | .failing w =>
      if w.attempts < (d.policy t.consumer).maxAttempts then s.moveTask i t .naking else s
    | _ => s
  | .ack _ raised =>
    match t.phase with
    | .acking =>
      { s with messages := s.messages.modify t.message fun m => { m with acked := true } }.moveTask
        i t (if raised then .naking else .settled)
    | _ => s
  | .nak _ =>
    match t.phase with
    | .naking =>
      { s with
        messages := s.messages.modify t.message fun m =>
          { m with availableAt := s.now + (d.policy t.consumer).retryDelaySeconds } }.moveTask
        i t .settled
    | _ => s
  | .crash _ => s.moveTask i t .crashed
  | _ => s

/-- The call a step belongs to. -/
def Op.task? : Op → Option ℕ
  | .captureRaw i _ _ | .begin i | .start i | .handlerReturns i _ | .handlerRaises i | .commit i _
  | .capture i _ _ | .deadLetter i | .retry i | .giveUp i | .ack i _ | .nak i | .crash i => some i
  | _ => none

/-! ## Steps of a `run_once` call -/

/-- The loop of `run_once` at its next row. -/
def relayPublishStep (s : System) (j : ℕ) (r : RelayRun) (evt : EventEnvelope)
    (rows : List EventEnvelope) : PublishOutcome → System
  | .accepted =>
    { s with stream := s.stream ++ [evt] }.setRelay j
      { r with rows, published := r.published ++ [evt.eventId] }
  | .raised accepted =>
    { s with stream := if accepted then s.stream ++ [evt] else s.stream }.setRelay j
      { r with phase := .marking }
  | .nonRetryable error => s.setRelay j { r with rows, phase := .deadLettering evt error }

/-- A step of the relay call `j`. -/
def relayStep (s : System) (j : ℕ) (r : RelayRun) : Op → System
  | .relayPublish _ outcome =>
    match r.phase, r.rows with
    | .publishing, evt :: rows => relayPublishStep s j r evt rows outcome
    | _, _ => s
  | .relayDeadLetter _ raised =>
    match r.phase with
    | .deadLettering evt error =>
      if raised then s.setRelay j { r with phase := .marking }
      else
        let (outbox, deadLetters) :=
          markEventsDeadLettered s.outbox s.deadLetters s.now evt r.consumerName error
        { s with outbox, deadLetters }.setRelay j { r with phase := .publishing }
    | _ => s
  | .relayMark _ raised =>
    if r.phase = .marking ∨ (r.phase = .publishing ∧ r.rows = []) then
      if raised ∨ r.published = [] then s.setRelay j { r with phase := .stopped }
      else
        { s with outbox := markEventsSent s.outbox s.now r.published }.setRelay j
          { r with phase := .stopped }
    else s
  | .relayCrash _ => s.setRelay j { r with phase := .stopped }
  | _ => s

/-- The relay a step belongs to. -/
def Op.relay? : Op → Option ℕ
  | .relayPublish j _ | .relayDeadLetter j _ | .relayMark j _ | .relayCrash j => some j
  | _ => none

/-! ## Steps of the system -/

/-- A step of the call it belongs to, if there is one. -/
def callStep (d : Deployment) (s : System) (op : Op) : System :=
  match op.task?.bind fun i => (s.tasks[i]?).map fun t => (i, t) with
  | some (i, t) => taskStep d s i t op
  | none =>
    match op.relay?.bind fun j => (s.relays[j]?).map fun r => (j, r) with
    | some (j, r) => relayStep s j r op
    | none => s

/-- One step of the system. -/
def step (d : Deployment) (s : System) (op : Op) : System :=
  match op with
  | .tick seconds => { s with now := s.now + seconds }
  | .message consumer data =>
    { s with messages := s.messages ++ [⟨consumer, data, s.now, false⟩] }
  | .deliver m =>
    match s.messages[m]? with
    | some message =>
      if !message.acked ∧ message.availableAt ≤ s.now then
        { s with
          messages := s.messages.set m { message with availableAt := s.now + d.ackWaitSeconds }
          tasks := s.tasks ++ [⟨m, message.consumer, message.data, .received⟩] }
      else s
    | none => s
  | .relayBegin source limit appNow locked =>
    let (rows, outbox) := unsentEvents s.outbox s.now appNow s.nextId limit source locked
    { s with outbox, nextId := s.nextId + 1, relays := s.relays ++ [⟨source, rows, [], .publishing⟩] }
  | .sweep cutoff limit =>
    let (outbox, deadLetters) :=
      deadLetterUnsentOutboxOlderThan s.outbox s.deadLetters s.now cutoff limit
    { s with outbox, deadLetters }
  | op => callStep d s op

end Opsia.Event
