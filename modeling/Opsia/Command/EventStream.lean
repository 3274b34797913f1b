import Opsia.Command.Lifecycle
import Opsia.Lib.SealedLog
import Mathlib.Data.Int.Notation

/-!
# The event stream of a command

`command_events` of `domains/command/router.py` with one subscription of
`packages/runtime/operation_events.py`: the handler subscribes, replays the durable
ledger after its cursor (or answers with a snapshot of the command row when there
is no ledger), and then follows the subscription, repairing gaps and lost wake-ups
from the ledger.

One browser watches one command. It holds at most one connection, gets a prefix of
the frames sent on it, and reconnects with the id of the last frame it got. Every
`await` of the handler is a step, so commits and announcements come in between.
-/

namespace Opsia.CommandEvents

/-! ## Events -/

structure OperationEvent : Type where
  sequence : ℕ
  kind : OperationEventKind
  /-- made from the command row by `command_snapshot_event` -/
  snapshot : Bool
  deriving DecidableEq, Repr

/-- `event.kind in {"completed", "failed", "cancelled"}`. -/
def OperationEvent.terminal (event : OperationEvent) : Bool := event.kind.terminal

/-- `events and events[-1].kind in {"completed", "failed", "cancelled"}`. -/
def endsStream (events : List OperationEvent) : Bool := events.getLast?.any (·.terminal)

/-- The rows of `command_operation_events` of the command; the ledger is the list of
their kinds. -/
def ledgerEvents (ledger : List OperationEventKind) : List OperationEvent :=
  ledger.mapIdx fun i kind => ⟨i + 1, kind, false⟩

/-- The default `limit` of a replay. -/
def replayLimit : ℕ := 500

def listCommandOperationEvents (ledger : List OperationEventKind) (afterSequence : ℕ) :
    List OperationEvent :=
  ((ledgerEvents ledger).filter (afterSequence < ·.sequence)).take replayLimit

/-- The `last_sequence` of `get_command_operation_event_context`. -/
def getCommandOperationEventContext (ledger : List OperationEventKind) : Option ℕ :=
  if ledger = [] then none else some ledger.length

def commandSnapshotEvent (status : CommandStatus) : OperationEvent where
  sequence := 1
  kind :=
    match status with
    | .completed => .completed
    | .failed => .failed
    | .cancelled => .cancelled
    | .queued | .leased | .running | .cancelRequested | .cancelling => .progress
  snapshot := true

/-! ## Cursors -/

/-- A `Last-Event-ID` header: blank, or what `int` makes of it. -/
inductive LastEventId : Type where
  | blank
  | invalid
  | value (n : ℤ)
  deriving DecidableEq, Repr

/-- `operation_event_cursor`; the error is the detail of a 422. -/
def operationEventCursor (after : Option ℕ) : Option LastEventId → Except String ℕ
  | none | some .blank => .ok (after.getD 0)
  | some .invalid => .error "invalid Last-Event-ID"
  | some (.value cursor) =>
    if cursor < 0 then .error "invalid Last-Event-ID"
    else if after.any fun n => (n : ℤ) ≠ cursor then .error "conflicting operation event cursor"
    else .ok cursor.toNat

/-! ## The subscription -/

def operationEventQueueMax : ℕ := 64

/-- What a subscription queue holds. -/
inductive QueueItem : Type where
  | event (event : OperationEvent)
  /-- `OperationEventStreamOverflow` -/
  | overflow
  deriving DecidableEq, Repr

def offer (queue : List QueueItem) (event : OperationEvent) : List QueueItem :=
  if queue.length < operationEventQueueMax then queue ++ [.event event] else [.overflow]

/-! ## The handler -/

/-- What the handler does after it emitted a list. -/
inductive Next : Type where
  /-- the initial list, and whether it ends the stream -/
  | opened (ends : Bool)
  /-- the list of a timeout, and whether it ends the stream -/
  | replayed (ends : Bool)
  /-- a live event is at hand; the list is that of its gap -/
  | repaired (live : OperationEvent)
  deriving DecidableEq, Repr

/-- Where the handler is. -/
inductive Stage : Type where
  /-- before `await replay(cursor)` -/
  | subscribed
  /-- before `await event_context(…)`: the replay was empty -/
  | contextRead
  /-- before `await db.get_agent_command(…)`: there is no ledger -/
  | rowRead
  /-- inside `emit` -/
  | emitting (pending : List OperationEvent) (next : Next)
  /-- inside `await subscription.next()` -/
  | waiting
  /-- before `await replay(delivered)` after a timeout -/
  | timedOut
  /-- before `await replay(delivered)` in front of a live event -/
  | repairing (live : OperationEvent)
  /-- the response is over -/
  | closed
  deriving DecidableEq, Repr

/-- What a connection sends. -/
inductive Output : Type where
  | frame (event : OperationEvent)
  | keepAlive
  deriving DecidableEq, Repr

/-- The event a frame carries. -/
def Output.event? : Output → Option OperationEvent
  | .frame event => some event
  | .keepAlive => none

/-- The frame of a terminal event. -/
def Output.terminal (output : Output) : Bool := output.event?.any (·.terminal)

/-- One connection: the variables of its handler, its queue, and all that was sent
on it. -/
structure Connection : Type where
  cursor : ℕ
  delivered : ℕ
  stage : Stage
  queue : List QueueItem
  outputs : List Output
  deriving DecidableEq, Repr

/-- The handler goes on to another stage. -/
def Connection.goTo (c : Connection) (stage : Stage) : Connection := { c with stage }

/-- The handler sends a frame and goes on. -/
def Connection.send (c : Connection) (event : OperationEvent) (stage : Stage) : Connection :=
  { c with delivered := event.sequence, stage, outputs := c.outputs ++ [.frame event] }

/-- The handler sends a keep-alive and waits again. -/
def Connection.keepAlive (c : Connection) : Connection :=
  { c with stage := .waiting, outputs := c.outputs ++ [.keepAlive] }

/-- `emit` at the head of its list. -/
def Connection.emit (c : Connection) (event : OperationEvent) (pending : List OperationEvent)
    (next : Next) : Connection :=
  if event.sequence ≤ c.delivered then c.goTo (.emitting pending next)
  else if c.delivered ≠ 0 ∧ event.sequence ≠ c.delivered + 1 then c.goTo .closed
  else c.send event (.emitting (if event.terminal then [] else pending) next)

/-- After `emit`. -/
def Connection.afterEmit (c : Connection) : Next → Connection
  | .opened ends => c.goTo (if ends then .closed else .waiting)
  | .replayed ends => if ends then c.goTo .closed else c.keepAlive
  | .repaired live =>
    if live.sequence ≤ c.delivered then c.goTo .waiting
    else if live.sequence ≠ c.delivered + 1 then c.goTo .closed
    else c.send live (if live.terminal then .closed else .waiting)

/-- The next item of the queue. -/
def Connection.take (c : Connection) : Connection :=
  match c.queue with
  | [] => c
  | .overflow :: queue => { c with queue, stage := .closed }
  | .event live :: queue =>
    { c with
      queue
      stage :=
        if live.sequence ≤ c.delivered then .waiting
        else if live.sequence ≠ c.delivered + 1 then .repairing live
        else .emitting [] (.repaired live) }

/-- The next step of the handler. `authorized` is what `require_cluster_read_access`
says when it is asked. -/
def Connection.serve (ledger : List OperationEventKind) (row : Option CommandStatus)
    (authorized : Bool) (c : Connection) : Connection :=
  match c.stage with
  | .subscribed =>
    let initial := listCommandOperationEvents ledger c.cursor
    if initial = [] then c.goTo .contextRead
    else if authorized then c.goTo (.emitting initial (.opened (endsStream initial)))
    else c.goTo .closed
  | .contextRead =>
    match getCommandOperationEventContext ledger with
    | none => c.goTo .rowRead
    | some lastSequence =>
      if lastSequence < c.cursor then c.goTo .closed
      else if authorized then c.goTo (.emitting [] (.opened false))
      else c.goTo .closed
  | .rowRead =>
    match row with
    | none => c.goTo .closed
    | some status =>
      let snapshot := commandSnapshotEvent status
      if authorized then c.goTo (.emitting [snapshot] (.opened snapshot.terminal))
      else c.goTo .closed
  | .emitting (event :: pending) next => c.emit event pending next
  | .emitting [] next => c.afterEmit next
  | .waiting => c.take
  | .timedOut =>
    let replayed := listCommandOperationEvents ledger c.delivered
    c.goTo (.emitting replayed (.replayed (endsStream replayed)))
  | .repairing live =>
    c.goTo (.emitting (listCommandOperationEvents ledger c.delivered) (.repaired live))
  | .closed => c

/-- What the handler has sent since. -/
def Connection.sentSince (c : Connection) (old : Connection) : List OperationEvent :=
  (c.outputs.drop old.outputs.length).filterMap Output.event?

/-! ## The system -/

/-- The ledger and the row of the command, the frames the browser got, the frames on
the wire, and the connection. -/
structure State : Type where
  ledger : List OperationEventKind
  row : Option CommandStatus
  received : List OperationEvent
  wire : List OperationEvent
  connection : Option Connection
  deriving DecidableEq, Repr

/-- A command without a ledger that nobody watches. -/
def State.start (row : Option CommandStatus) : State := ⟨[], row, [], [], none⟩

/-- What happens next. -/
inductive Action : Type where
  /-- an operation event is committed, unless the stream is over -/
  | commit (kind : OperationEventKind)
  /-- the command row changes -/
  | setRow (row : Option CommandStatus)
  /-- the browser connects -/
  | connect
  /-- the broker announces a committed event, perhaps again -/
  | announce (i : ℕ)
  /-- the handler takes its next step -/
  | serve (authorized : Bool)
  /-- the handler waited for `OPERATION_EVENT_REPLAY_POLL_SECONDS` -/
  | timeout
  /-- the browser gets the next frame -/
  | receive
  /-- the connection breaks, with the frames on the wire -/
  | disconnect
  deriving DecidableEq, Repr

/-- The `Last-Event-ID` of a browser: the id of the last frame it got. -/
def State.lastEventId (s : State) : Option LastEventId :=
  s.received.getLast?.map fun event => .value event.sequence

/-- A connection that just subscribed. -/
def Connection.fresh (cursor : ℕ) : Connection := ⟨cursor, cursor, .subscribed, [], []⟩

/-- One step. -/
def step (s : State) : Action → State
  | .commit kind => { s with ledger := SealedLog.push OperationEventKind.terminal s.ledger kind }
  | .setRow row => { s with row }
  | .connect =>
    match s.connection, operationEventCursor none s.lastEventId with
    | none, .ok cursor => { s with connection := some (.fresh cursor) }
    | _, _ => s
  | .announce i =>
    match s.connection, (ledgerEvents s.ledger)[i]? with
    | some c, some event => { s with connection := some { c with queue := offer c.queue event } }
    | _, _ => s
  | .serve authorized =>
    match s.connection with
    | none => s
    | some c =>
      let c' := c.serve s.ledger s.row authorized
      { s with connection := some c', wire := s.wire ++ c'.sentSince c }
  | .timeout =>
    match s.connection with
    | some ⟨cursor, delivered, .waiting, [], outputs⟩ =>
      { s with connection := some ⟨cursor, delivered, .timedOut, [], outputs⟩ }
    | _ => s
  | .receive =>
    match s.wire with
    | [] => s
    | event :: wire => { s with received := s.received ++ [event], wire }
  | .disconnect => { s with wire := [], connection := none }

/-- The frames of all connections, less those lost on the wire. -/
def State.frames (s : State) : List OperationEvent := s.received ++ s.wire

end Opsia.CommandEvents
