import Opsia.Command.Lifecycle
import Opsia.Lib.PyText
import Opsia.Lib.Table
import Opsia.Values

/-!
# The command store: tables and values

`domains/command/models.py` and the value types of
`domains/command/repository.py`. Every table is a `Table` keyed by its primary
key, so a store with a duplicate key cannot be built.

Identifiers minted by `uuid.uuid4()` are numbers drawn from the supply `nextId`
of the store; everything a caller chooses (command, workspace, cluster, agent,
idempotency keys) is a string. `func.now()` is the `now` of the transaction,
`datetime.now(UTC)` of an application server is a separate `appNow`; both are
seconds.
-/

namespace Opsia

def defaultWorkspaceId : String := "default"

def commandPriorityHigh : ℤ := 100

/-- `Command.RCA_TEST_SCENARIO_INJECT_ACTION`. -/
def rcaTestScenarioInjectAction : String := "rca.test.inject"

/-! ## Plans and results -/

/-- What `int(policy.get(key, default))` finds under a key of a JSON object. -/
inductive IntField : Type where
  /-- the key is absent: the default is taken -/
  | absent
  /-- `int` converts the value -/
  | value (n : ℤ)
  /-- `int` raises `TypeError` or `ValueError` -/
  | invalid
  deriving DecidableEq, Repr

/-- `int(policy.get(key, default))`, `none` when it raises. -/
def IntField.toInt (default : ℤ) : IntField → Option ℤ
  | .absent => some default
  | .value n => some n
  | .invalid => none

/-- The `retry_policy` object of a plan. -/
structure RetryPolicyBody : Type where
  maxAttempts : IntField
  retryDelaySeconds : IntField
  deriving DecidableEq, Repr

/-- The plan a command carries as its payload. -/
structure Plan : Type where
  commandId : String
  workspaceId : Option String
  clusterId : String
  action : String
  priority : Option ℤ
  /-- `none` when the key is missing or not an object -/
  retryPolicy : Option RetryPolicyBody
  directExecution : Bool
  deriving DecidableEq, Repr

/-- `str(plan.get("workspace_id", DEFAULT_WORKSPACE_ID))`. -/
def Plan.workspace (plan : Plan) : String := plan.workspaceId.getD defaultWorkspaceId

/-- `_command_retry_policy`: the attempt budget and the retry delay. -/
def commandRetryPolicy (payload : Plan) : ℤ × ℤ :=
  match payload.retryPolicy with
  | none => (1, 0)
  | some policy =>
    match policy.maxAttempts.toInt 1, policy.retryDelaySeconds.toInt 0 with
    | some maxAttempts, some delaySeconds => (max 1 maxAttempts, max 0 delaySeconds)
    | _, _ => (1, 0)

/-- The `result` document of a command; `{}` is the default value. -/
structure CommandResult : Type where
  status : Option CommandStatus := none
  applied : Option Bool := none
  message : Option String := none
  /-- the value under `retryable` when it is a boolean -/
  retryable : Option Bool := none
  deriving DecidableEq, Repr

/-- The identifier of a platform event: minted, or derived by `uuid5` from the
name `command-expired:{command_id}:{attempt_count}`. -/
inductive EventId : Type where
  | uuid4 (n : Uuid)
  | commandExpired (commandId : String) (attemptCount : ℕ)
  deriving DecidableEq, Repr

/-! ## The action catalogue -/

/-- `CommandActionSpec`: the control policy declared with an action. -/
structure CommandActionSpec : Type where
  action : String
  supportsCancel : Bool := true
  supportsManualRetry : Bool := false
  maxAttempts : ℤ := 1
  retryDelaySeconds : ℤ := 0
  deriving DecidableEq, Repr

/-- The registered actions, in registration order. -/
abbrev CommandCatalog : Type := List CommandActionSpec

/-- `command_action_spec`: the spec of an action. -/
def commandActionSpec (catalog : CommandCatalog) (action : String) : Option CommandActionSpec :=
  catalog.find? fun spec => spec.action = action

/-! ## Rows -/

/-- A row of `agent_commands`. -/
structure AgentCommand : Type where
  commandId : String
  workspaceId : String
  correlationId : String
  clusterId : String
  action : String
  priority : ℤ
  payload : Plan
  status : CommandStatus
  leaseId : Option Uuid
  agentId : Option String
  leasedUntil : Option Timestamp
  startedAt : Option Timestamp
  completedAt : Option Timestamp
  result : CommandResult
  confirmationEventId : Option EventId
  directExecution : Bool
  attemptCount : ℕ
  activeAttemptId : Option Uuid
  cancelRequestedAt : Option Timestamp
  cancelRequestedBy : Option String
  cancelReason : Option String
  cancelAcceptedAt : Option Timestamp
  cancelGeneration : ℕ
  terminalEventId : Option EventId
  createdAt : Timestamp
  updatedAt : Timestamp
  deriving DecidableEq, Repr

/-- A row of `agent_command_attempts`. -/
structure AgentCommandAttempt : Type where
  attemptId : Uuid
  commandId : String
  workspaceId : String
  clusterId : String
  attemptNo : ℕ
  status : CommandAttemptStatus
  availableAt : Timestamp
  leaseId : Option Uuid
  agentId : Option String
  leasedUntil : Option Timestamp
  startedAt : Option Timestamp
  completedAt : Option Timestamp
  result : CommandResult
  createdAt : Timestamp
  updatedAt : Timestamp
  deriving DecidableEq, Repr

/-- `CommandControlAction`: the two controls. -/
inductive ControlKind : Type where
  | cancel
  | retry
  deriving DecidableEq, Repr

/-- The `details` document of a control row. -/
structure ControlDetails : Type where
  statusBefore : CommandStatus
  correlationId : String
  statusAfter : CommandStatus
  cancelGeneration : Option ℕ := none
  attemptNo : Option ℕ := none
  retryDelaySeconds : Option ℤ := none
  maxAttempts : Option ℤ := none
  deriving DecidableEq, Repr

/-- A row of `command_control_actions`. -/
structure CommandControlAction : Type where
  controlId : Uuid
  workspaceId : String
  commandId : String
  action : ControlKind
  idempotencyKey : String
  requestedBy : String
  reason : Option String
  outcome : String
  eventId : EventId
  auditEventId : EventId
  attemptId : Option Uuid
  details : ControlDetails
  deriving DecidableEq, Repr

/-- `uq_command_control_action_idempotency`. -/
def CommandControlAction.key (c : CommandControlAction) :
    String × String × ControlKind × String :=
  (c.workspaceId, c.commandId, c.action, c.idempotencyKey)

/-- The identity of an operation stream. -/
abbrev StreamKey : Type := String × String

/-- A row of `command_operation_event_cursors`. -/
structure CommandOperationEventCursor : Type where
  workspaceId : String
  commandId : String
  lastSequence : ℕ
  terminalSequence : Option ℕ
  updatedAt : Timestamp
  deriving DecidableEq, Repr

/-- The primary key of a cursor. -/
def CommandOperationEventCursor.key (c : CommandOperationEventCursor) : StreamKey :=
  (c.workspaceId, c.commandId)

/-- The `payload` document of an operation event. -/
structure OperationPayload : Type where
  clusterId : String
  status : Option CommandStatus := none
  correlationId : Option String := none
  attemptId : Option Uuid := none
  result : Option CommandResult := none
  deriving DecidableEq, Repr

/-- A row of `command_operation_events`. -/
structure CommandOperationEvent : Type where
  workspaceId : String
  commandId : String
  sequence : ℕ
  clusterId : String
  kind : OperationEventKind
  payload : OperationPayload
  occurredAt : Timestamp
  deriving DecidableEq, Repr

/-- The stream an operation event belongs to. -/
def CommandOperationEvent.stream (e : CommandOperationEvent) : StreamKey :=
  (e.workspaceId, e.commandId)

/-- The primary key of an operation event. -/
def CommandOperationEvent.key (e : CommandOperationEvent) : StreamKey × ℕ :=
  (e.stream, e.sequence)

/-- The `command.completed` envelope staged in the outbox. -/
structure CommandCompletedEvent : Type where
  eventId : EventId
  source : String
  correlationId : String
  workspaceId : String
  commandId : String
  result : CommandResult
  deriving DecidableEq, Repr

/-! ## The store -/

/-- The command tables of the database. -/
structure Store : Type where
  commands : Table AgentCommand.commandId
  attempts : Table AgentCommandAttempt.attemptId
  controls : Table CommandControlAction.key
  cursors : Table CommandOperationEventCursor.key
  operationEvents : Table CommandOperationEvent.key
  outbox : Table CommandCompletedEvent.eventId
  /-- the next identifier `uuid4` hands out -/
  nextId : Uuid

/-- The empty store. -/
def Store.empty : Store := ⟨.empty, .empty, .empty, .empty, .empty, .empty, 0⟩

/-- What a transaction may raise. A raised transaction is rolled back. -/
inductive TxError : Type where
  /-- `ValueError` -/
  | valueError (message : String)
  /-- `KeyError` -/
  | keyError (key : String)
  /-- `IntegrityError` on a named constraint -/
  | integrityError (constraint : String)
  /-- `AgentCommandCapacityExceeded` -/
  | capacityExceeded (message : String)
  /-- `CommandControlNotFound` -/
  | controlNotFound (message : String)
  /-- `CommandControlConflict` -/
  | controlConflict (message : String)
  /-- `DuplicateCommandControl`, carrying the accepted control -/
  | duplicateControl (message : String) (control : CommandControlAction)
  deriving DecidableEq, Repr

/-- The outcome of a transaction: a reply and the committed store, or an
exception. -/
abbrev Tx (α : Type) : Type := Except TxError (α × Store)

/-- The store after a transaction: an exception rolls back. -/
def Tx.commit {α : Type} (s : Store) : Tx α → Store
  | .ok (_, s') => s'
  | .error _ => s

@[simp] theorem Tx.commit_ok {α : Type} (s s' : Store) (x : α) :
    Tx.commit s (.ok (x, s')) = s' := rfl

@[simp] theorem Tx.commit_error {α : Type} (s : Store) (e : TxError) :
    Tx.commit s (.error e : Tx α) = s := rfl

end Opsia
