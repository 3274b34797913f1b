import Mathlib.Data.Rat.Defs
import Mathlib.Algebra.Order.Field.Rat
import Mathlib.Logic.Function.Basic
import Opsia.Lib.Runs
import Opsia.PortForward.Frames

/-!
# The agent's side of a port-forward session

`PortForwardController` handles one control message or data frame at a time; next to the task that
does this, a session has a watcher and every connection a reader. A task runs until it waits, and
what it does when it goes on is the top of its stack: the step function takes up one task at a time,
in any order, and says what the task finds when the wait is over.
-/

namespace Opsia.PortForward

/-! ## Messages -/

inductive PortForwardEndReason where
  | closed
  | idleTimeout
  | sessionTimeout
  | byteLimit
  | targetClosed
  deriving DecidableEq

/-- The members of `PortForwardErrorCode` that the agent uses for a session. -/
inductive PortForwardErrorCode where
  | creditViolation
  | protocolViolation
  | sessionLimit
  | targetUnavailable
  deriving DecidableEq

/-- The `connection_id` of a message. -/
abbrev ConnectionId := { id : ℤ // 1 ≤ id ∧ id ≤ 2 ^ 32 - 1 }

def portForwardCreditWindowBytes : ℕ := 256 * 1024

def maxPortForwardConnectionsPerSession : ℕ := 4

def maxPortForwardSessionSeconds : ℚ := 60 * 60

def maxPortForwardIdleSeconds : ℚ := 5 * 60

def maxPortForwardOpenSeconds : ℚ := 15

/-- `PortForwardOpen`; the capability, the resource and the port are the resolver's. -/
structure PortForwardOpen where
  sessionId : String
  generation : ℤ
  initialCreditBytes : ℕ := portForwardCreditWindowBytes
  session_ok : sessionMatches sessionId = true
  generation_ok : 1 ≤ generation
  credit_ok : maxPortForwardFrameBytes ≤ initialCreditBytes ∧
    initialCreditBytes ≤ portForwardCreditWindowBytes := by decide

/-- The control messages of an open session. -/
inductive AgentPortForwardRequest where
  | connectionOpen (connectionId : ConnectionId)
  | window (connectionId : ConnectionId) (direction : PortForwardDirection) (creditBytes : ℕ)
  | halfClose (connectionId : ConnectionId) (direction : PortForwardDirection)
  | connectionClose (connectionId : ConnectionId)
  | close
  deriving DecidableEq

/-- What the agent emits for a session: its events, all with the session's id and generation, and
the data frames. -/
inductive Emission where
  | opened
  | connectionOpened (connectionId : ConnectionId)
  | window (connectionId : ConnectionId) (direction : PortForwardDirection) (creditBytes : ℕ)
  | halfClose (connectionId : ConnectionId) (direction : PortForwardDirection)
  | connectionEnd (connectionId : ConnectionId) (reason : PortForwardEndReason)
      (desktopToTargetBytes targetToDesktopBytes : ℕ)
  | ended (reason : PortForwardEndReason) (desktopToTargetBytes targetToDesktopBytes : ℕ)
  | error (code : PortForwardErrorCode) (message : String) (retryable : Bool)
  | data (raw : Bytes)
  deriving DecidableEq

/-! ## The state -/

/-- The tasks of a session; a reader is named by its connection. -/
inductive TaskId where
  | receiver
  | watcher
  | reader (connection : ℕ)
  deriving DecidableEq

/-- What a task does when it goes on, named by what it waits for. -/
inductive Pending where
  /-- `_open_connection`: the connector, until a deadline -/
  | connected (connectionId : ConnectionId) (deadline : ℚ)
  /-- `_open_connection`: the emission of `PortForwardConnectionOpened` -/
  | announceWindow (connectionId : ConnectionId)
  /-- `handle_data`: the writer's drain, after a payload -/
  | drained (connection length nextTotal : ℕ)
  /-- `_half_close`: the writer's drain -/
  | halfClosed (connection : ℕ)
  /-- `_fail_connection`: the emission of the error -/
  | finishConnection (connectionId : ConnectionId)
  /-- `_finish_connection`: the cancelled reader -/
  | readerStopped (connection : ℕ) (reason : PortForwardEndReason)
  /-- `_finish_connection`: the writer's `wait_closed` -/
  | writerClosed (connection : ℕ) (reason : PortForwardEndReason)
  /-- `_finish_session`: between two connections of its list -/
  | finishRest (connectionIds : List ConnectionId) (reason : PortForwardEndReason)
  /-- `_finish_session`: the cancelled watcher -/
  | endSession (reason : PortForwardEndReason)
  /-- `_watch`: the sleep -/
  | watch
  /-- `_read_target`: credit -/
  | reserve
  /-- `_read_target`: data of the target, with the reserved credit -/
  | read (allowance : ℕ)
  /-- `_read_target`: the emission of the half-close -/
  | targetEnded
  deriving DecidableEq

/-- `AgentTcpConnection`, with its place in the session's table and whether its writer was
closed. -/
structure AgentTcpConnection where
  connectionId : ConnectionId
  inputCredit : ℕ
  outputCredit : ℕ
  expectedInputSequence : ℤ := 0
  outputSequence : ℕ := 0
  desktopToTargetBytes : ℕ := 0
  targetToDesktopBytes : ℕ := 0
  desktopHalfClosed : Bool := false
  targetHalfClosed : Bool := false
  done : Bool := false
  /-- it is in `session.connections` -/
  listed : Bool := true
  /-- `writer.close` was called -/
  closed : Bool := false
  deriving DecidableEq

/-- `AgentPortForwardSession`, with its tasks and what was emitted. A connection keeps its
number. -/
structure AgentPortForwardSession where
  request : PortForwardOpen
  startedAt : ℚ
  lastActivity : ℚ
  now : ℚ
  connections : List AgentTcpConnection := []
  desktopToTargetBytes : ℕ := 0
  targetToDesktopBytes : ℕ := 0
  done : Bool := false
  /-- it is in `controller.sessions` -/
  registered : Bool := true
  stack : TaskId → List Pending
  emitted : List Emission

namespace AgentPortForwardSession

/-- The session that `_open` puts into the table: the watcher sleeps, and `PortForwardOpened` is
emitted. -/
def opened (request : PortForwardOpen) (now : ℚ) : AgentPortForwardSession where
  request
  startedAt := now
  lastActivity := now
  now
  stack := fun task => if task = .watcher then [.watch] else []
  emitted := [.opened]

/-- `emit_event` and `emit_data`. -/
def emit (s : AgentPortForwardSession) (emission : Emission) : AgentPortForwardSession :=
  { s with emitted := s.emitted ++ [emission] }

/-- The task waits. -/
def await (s : AgentPortForwardSession) (task : TaskId) (pending : Pending) :
    AgentPortForwardSession :=
  { s with stack := Function.update s.stack task (pending :: s.stack task) }

/-- What is left of a task. -/
def setStack (s : AgentPortForwardSession) (task : TaskId) (stack : List Pending) :
    AgentPortForwardSession :=
  { s with stack := Function.update s.stack task stack }

/-- `session.last_activity = time.monotonic()`. -/
def touch (s : AgentPortForwardSession) : AgentPortForwardSession :=
  { s with lastActivity := s.now }

/-- Assignments to a connection. -/
def change (s : AgentPortForwardSession) (connection : ℕ)
    (f : AgentTcpConnection → AgentTcpConnection) : AgentPortForwardSession :=
  { s with connections := s.connections.modify connection f }

/-- `session.connections.get`: the number of the connection in the table. -/
def find? (s : AgentPortForwardSession) (connectionId : ConnectionId) : Option ℕ :=
  s.connections.findIdx? fun connection =>
    connection.listed && connection.connectionId == connectionId

/-- `session.connections.values()`. -/
def table (s : AgentPortForwardSession) : List AgentTcpConnection :=
  s.connections.filter (·.listed)

def error (s : AgentPortForwardSession) (code : PortForwardErrorCode) (message : String)
    (retryable : Bool) : AgentPortForwardSession :=
  s.emit (.error code message retryable)

/-! ## Finishing -/

/-- `_finish_connection` from `writer.close()` on, to `wait_closed`. -/
def closeWriter (s : AgentPortForwardSession) (task : TaskId) (connection : ℕ)
    (reason : PortForwardEndReason) : AgentPortForwardSession :=
  (s.change connection fun c => { c with closed := true }).await task
    (.writerClosed connection reason)

/-- `_finish_connection`, to its first wait. -/
def finishConnection (s : AgentPortForwardSession) (task : TaskId) (connectionId : ConnectionId)
    (reason : PortForwardEndReason) : AgentPortForwardSession :=
  match s.find? connectionId with
  | none => s
  | some connection =>
    let popped := s.change connection fun c => { c with listed := false }
    if s.connections[connection]?.map AgentTcpConnection.done = some true then popped
    else
      let finishing := popped.change connection fun c => { c with done := true }
      if task = .reader connection then finishing.closeWriter task connection reason
      else (finishing.setStack (.reader connection) []).await task
        (.readerStopped connection reason)

/-- `_finish_connection` after `wait_closed`. -/
def endConnection (s : AgentPortForwardSession) (c : AgentTcpConnection)
    (reason : PortForwardEndReason) : AgentPortForwardSession :=
  { s with
    desktopToTargetBytes := s.desktopToTargetBytes + c.desktopToTargetBytes
    targetToDesktopBytes := s.targetToDesktopBytes + c.targetToDesktopBytes }.emit
      (.connectionEnd c.connectionId reason c.desktopToTargetBytes c.targetToDesktopBytes)

/-- `_fail_connection`, to its first wait. -/
def failConnection (s : AgentPortForwardSession) (task : TaskId) (connectionId : ConnectionId)
    (code : PortForwardErrorCode) : AgentPortForwardSession :=
  (s.error code "Port-forward connection failed." (code ≠ .protocolViolation)).await task
    (.finishConnection connectionId)

/-- `_finish_session`, to its list of connections. -/
def finishSession (s : AgentPortForwardSession) (task : TaskId) (reason : PortForwardEndReason) :
    AgentPortForwardSession :=
  if s.done then s
  else { s with done := true }.await task
    (.finishRest (s.table.map AgentTcpConnection.connectionId) reason)

/-- `_finish_session` after its connections: the watcher is cancelled. -/
def stopWatcher (s : AgentPortForwardSession) (task : TaskId) (reason : PortForwardEndReason) :
    AgentPortForwardSession :=
  (if task = .watcher then s else s.setStack .watcher []).await task (.endSession reason)

/-- The end of `_finish_session`. -/
def endSession (s : AgentPortForwardSession) (reason : PortForwardEndReason) :
    AgentPortForwardSession :=
  { s with registered := false }.emit (.ended reason s.desktopToTargetBytes s.targetToDesktopBytes)

/-! ## Control messages and data frames -/

/-- `_open_connection`, to the connector. -/
def openConnection (s : AgentPortForwardSession) (connectionId : ConnectionId) :
    AgentPortForwardSession :=
  if (s.find? connectionId).isSome then s
  else if s.table.length ≥ maxPortForwardConnectionsPerSession then
    s.error .sessionLimit "Port-forward connection limit reached." false
  else s.await .receiver (.connected connectionId (s.now + maxPortForwardOpenSeconds))

/-- `session.connections[connection_id] = connection`. -/
def insert (s : AgentPortForwardSession) (connection : AgentTcpConnection) :
    AgentPortForwardSession :=
  { s with connections := s.connections.map (fun c =>
      if c.connectionId = connection.connectionId then { c with listed := false } else c) ++
    [connection] }

/-- `_open_connection` with the reader and the writer that the connector returned. -/
def addConnection (s : AgentPortForwardSession) (connectionId : ConnectionId) :
    AgentPortForwardSession :=
  let connection : AgentTcpConnection :=
    { connectionId
      inputCredit := s.request.initialCreditBytes
      outputCredit := s.request.initialCreditBytes }
  (((s.insert connection).touch.setStack (.reader s.connections.length) [.reserve]).emit
    (.connectionOpened connectionId)).await .receiver (.announceWindow connectionId)

def grantOutputCredit (s : AgentPortForwardSession) (connectionId : ConnectionId)
    (direction : PortForwardDirection) (creditBytes : ℕ) : AgentPortForwardSession :=
  match s.find? connectionId with
  | none => s
  | some connection =>
    match s.connections[connection]? with
    | none => s
    | some c =>
      if c.done ∨ direction ≠ .targetToDesktop then s
      else if c.outputCredit + creditBytes > portForwardCreditWindowBytes then
        s.failConnection .receiver connectionId .creditViolation
      else s.change connection fun c => { c with outputCredit := c.outputCredit + creditBytes }

/-- `_half_close`, to the drain. -/
def halfClose (s : AgentPortForwardSession) (connectionId : ConnectionId)
    (direction : PortForwardDirection) : AgentPortForwardSession :=
  match s.find? connectionId with
  | none => s
  | some connection =>
    match s.connections[connection]? with
    | none => s
    | some c =>
      if c.done then s
      else if direction ≠ .desktopToTarget then
        s.failConnection .receiver connectionId .protocolViolation
      else (s.change connection fun c => { c with desktopHalfClosed := true }).await .receiver
        (.halfClosed connection)

/-- `handle_control` for a message of the session. -/
def handleControl (s : AgentPortForwardSession) : AgentPortForwardRequest → AgentPortForwardSession
  | .connectionOpen connectionId => s.openConnection connectionId
  | .window connectionId direction creditBytes =>
    s.grantOutputCredit connectionId direction creditBytes
  | .halfClose connectionId direction => s.halfClose connectionId direction
  | .connectionClose connectionId => s.finishConnection .receiver connectionId .closed
  | .close => s.finishSession .receiver .closed

/-- The bytes of the other connections in the table. -/
def othersTotal (s : AgentPortForwardSession) (connection : ℕ)
    (bytes : AgentTcpConnection → ℕ) : ℕ :=
  ((s.connections.eraseIdx connection).filter (·.listed)).foldl (fun n c => n + bytes c) 0

/-- `handle_data` for a frame of the session, to the drain. -/
def handleData (s : AgentPortForwardSession) (frame : PortForwardDataFrame) :
    AgentPortForwardSession :=
  let connectionId : ConnectionId := ⟨frame.connectionId, frame.connection_ok⟩
  match s.find? connectionId with
  | none => s
  | some connection =>
    match s.connections[connection]? with
    | none => s
    | some c =>
      let nextTotal := c.desktopToTargetBytes + frame.payload.length
      if c.done then s
      else if frame.direction ≠ .desktopToTarget then
        s.failConnection .receiver connectionId .protocolViolation
      else if frame.sequence ≠ c.expectedInputSequence then
        s.failConnection .receiver connectionId .protocolViolation
      else if frame.payload.length > c.inputCredit then
        s.failConnection .receiver connectionId .creditViolation
      else if s.desktopToTargetBytes +
          s.othersTotal connection AgentTcpConnection.desktopToTargetBytes + nextTotal >
            maxPortForwardBytesPerDirection then
        s.finishConnection .receiver connectionId .byteLimit
      else (s.change connection fun c =>
        { c with
          expectedInputSequence := c.expectedInputSequence + 1
          inputCredit := c.inputCredit - frame.payload.length }).await .receiver
            (.drained connection frame.payload.length nextTotal)

/-! ## The reader -/

/-- `_reserve_output_credit`, which waits for credit: `none` while there is none. -/
def reserveOutputCredit (s : AgentPortForwardSession) (connection : ℕ) (c : AgentTcpConnection) :
    Option AgentPortForwardSession :=
  if c.done then some s
  else if c.outputCredit = 0 then none
  else
    let amount := min c.outputCredit maxPortForwardFrameBytes
    some ((s.change connection fun c => { c with outputCredit := c.outputCredit - amount }).await
      (.reader connection) (.read amount))

def restoreOutputCredit (s : AgentPortForwardSession) (connection amount : ℕ) :
    AgentPortForwardSession :=
  s.change connection fun c =>
    { c with outputCredit := min portForwardCreditWindowBytes (c.outputCredit + amount) }

/-- The data is within the byte limit of the session. -/
def WithinByteLimit (s : AgentPortForwardSession) (connection : ℕ) (c : AgentTcpConnection)
    (data : Bytes) : Prop :=
  s.targetToDesktopBytes + s.othersTotal connection AgentTcpConnection.targetToDesktopBytes +
    (c.targetToDesktopBytes + data.length) ≤ maxPortForwardBytesPerDirection

instance (s : AgentPortForwardSession) (connection : ℕ) (c : AgentTcpConnection) (data : Bytes) :
    Decidable (s.WithinByteLimit connection c data) :=
  inferInstanceAs (Decidable (_ ≤ _))

/-- `_read_target` with data of the target, once the credit is restored. -/
def forwardTarget (s : AgentPortForwardSession) (connection : ℕ) (c : AgentTcpConnection)
    (data : Bytes) : AgentPortForwardSession :=
  let task := TaskId.reader connection
  if s.WithinByteLimit connection c data then
    match PortForwardDataFrame.make s.request.sessionId s.request.generation c.connectionId
        c.outputSequence .targetToDesktop data with
    | .error _ => s.failConnection task c.connectionId .targetUnavailable
    | .ok frame =>
      let counted := (s.change connection fun c =>
        { c with
          outputSequence := c.outputSequence + 1
          targetToDesktopBytes := c.targetToDesktopBytes + data.length }).touch
      match encodePortForwardData frame with
      | .error _ => counted.failConnection task c.connectionId .targetUnavailable
      | .ok raw => (counted.emit (.data raw)).await task .reserve
  else s.finishConnection task c.connectionId .byteLimit

/-- `_read_target` with what it read. -/
def readTarget (s : AgentPortForwardSession) (connection allowance : ℕ) (c : AgentTcpConnection)
    (data : Bytes) : AgentPortForwardSession :=
  if data = [] then
    (((s.restoreOutputCredit connection allowance).change connection fun c =>
      { c with targetHalfClosed := true }).emit
        (.halfClose c.connectionId .targetToDesktop)).await (.reader connection) .targetEnded
  else
    let restored := if data.length < allowance then
      s.restoreOutputCredit connection (allowance - data.length) else s
    restored.forwardTarget connection c data

/-! ## The tasks -/

/-- `_watch` after its sleep. -/
def timedOut (s : AgentPortForwardSession) : Option PortForwardEndReason :=
  if s.now - s.startedAt ≥ maxPortForwardSessionSeconds then some .sessionTimeout
  else if s.now - s.lastActivity ≥ maxPortForwardIdleSeconds then some .idleTimeout
  else none

/-- A task goes on with what it had left: `none` if its wait is not over. -/
def proceed (s : AgentPortForwardSession) (task : TaskId) :
    Pending → Option AgentPortForwardSession
  | .connected connectionId deadline =>
    if s.now ≤ deadline then some (s.addConnection connectionId) else none
  | .announceWindow connectionId =>
    some (s.emit (.window connectionId .desktopToTarget s.request.initialCreditBytes))
  | .drained connection length nextTotal =>
    s.connections[connection]?.map fun c =>
      (s.change connection fun c =>
        { c with
          desktopToTargetBytes := nextTotal
          inputCredit := c.inputCredit + length }).touch.emit
        (.window c.connectionId .desktopToTarget length)
  | .halfClosed connection =>
    s.connections[connection]?.map fun c =>
      if c.targetHalfClosed then s.finishConnection task c.connectionId .targetClosed else s
  | .finishConnection connectionId => some (s.finishConnection task connectionId .closed)
  | .readerStopped connection reason => some (s.closeWriter task connection reason)
  | .writerClosed connection reason =>
    s.connections[connection]?.map fun c => s.endConnection c reason
  | .finishRest [] reason => some (s.stopWatcher task reason)
  | .finishRest (connectionId :: connectionIds) reason =>
    some ((s.await task (.finishRest connectionIds reason)).finishConnection task connectionId
      reason)
  | .endSession reason => some (s.endSession reason)
  | .watch =>
    match s.timedOut with
    | some reason => some (s.finishSession task reason)
    | none => some (if s.done then s else s.await task .watch)
  | .reserve =>
    match task with
    | .reader connection => s.connections[connection]?.bind (s.reserveOutputCredit connection)
    | _ => none
  | .read _ => none
  | .targetEnded =>
    match task with
    | .reader connection =>
      s.connections[connection]?.map fun c =>
        if c.desktopHalfClosed then s.finishConnection task c.connectionId .targetClosed else s
    | _ => none

/-- A task finds that what it waited for has failed; `wait_closed` and the drain of a half-close may
fail without a difference. -/
def proceedFailed (s : AgentPortForwardSession) (task : TaskId) :
    Pending → Option AgentPortForwardSession
  | .connected _ _ => some (s.error .targetUnavailable "Target TCP connection failed." true)
  | .drained connection _ _ =>
    s.connections[connection]?.map fun c =>
      s.failConnection task c.connectionId .targetUnavailable
  | .read _ =>
    match task with
    | .reader connection =>
      s.connections[connection]?.map fun c =>
        s.failConnection task c.connectionId .targetUnavailable
    | _ => none
  | _ => none

/-- What can happen next. -/
inductive Action where
  /-- a control message of the session arrives -/
  | receive (message : AgentPortForwardRequest)
  /-- a data frame arrives -/
  | receiveData (frame : PortForwardDataFrame)
  /-- a task goes on -/
  | resume (task : TaskId)
  /-- what a task waits for fails -/
  | fail (task : TaskId)
  /-- the target sends, or ends its side with no data -/
  | read (connection : ℕ) (data : Bytes)
  /-- time passes -/
  | elapse (seconds : ℚ)

/-- A task is taken up: the top of its stack is what it does. -/
def takeUp (s : AgentPortForwardSession) (task : TaskId)
    (f : AgentPortForwardSession → Pending → Option AgentPortForwardSession) :
    AgentPortForwardSession :=
  match s.stack task with
  | [] => s
  | pending :: rest => (f (s.setStack task rest) pending).getD s

/-- One step. Messages are handled one at a time, and only those of a session in the table. -/
def step (s : AgentPortForwardSession) : Action → AgentPortForwardSession
  | .receive message =>
    if s.registered ∧ s.stack .receiver = [] then s.handleControl message else s
  | .receiveData frame =>
    if s.registered ∧ s.stack .receiver = [] ∧ frame.sessionId = s.request.sessionId ∧
        frame.generation = s.request.generation then s.handleData frame
    else s
  | .resume task => s.takeUp task fun s pending => s.proceed task pending
  | .fail task => s.takeUp task fun s pending => s.proceedFailed task pending
  | .read connection data =>
    s.takeUp (.reader connection) fun s pending =>
      match pending with
      | .read allowance =>
        if data.length ≤ min allowance maxPortForwardFrameBytes then
          s.connections[connection]?.map fun c => s.readTarget connection allowance c data
        else none
      | _ => none
  | .elapse seconds => { s with now := s.now + max 0 seconds }

end AgentPortForwardSession

end Opsia.PortForward
