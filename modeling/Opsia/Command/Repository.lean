import Opsia.Command.Store

/-!
# The command repository transitions

`domains/command/repository.py`, one definition per transaction. Every
transition locks the command row before it writes (`SELECT … FOR UPDATE`, an
`UPDATE` on the primary key, or an upsert on it), so a transaction is one atomic
function from the store to a reply and the committed store, or to an exception
that rolls everything back. A transition that finds no row returns its store
unchanged.

The row updates are the `.values(…)` of the statements, as functions on rows;
the transitions are the `where` clauses around them.
-/

namespace Opsia

open PyText

/-! ## The operation event stream -/

/-- The values of the cursor update: the next sequence, which closes the stream
when the event is terminal. -/
def CommandOperationEventCursor.advance (c : CommandOperationEventCursor)
    (kind : OperationEventKind) (now : Timestamp) : CommandOperationEventCursor :=
  { c with
    lastSequence := c.lastSequence + 1
    terminalSequence := if kind.terminal then some (c.lastSequence + 1) else c.terminalSequence
    updatedAt := now }

theorem CommandOperationEventCursor.key_advance (c : CommandOperationEventCursor)
    (kind : OperationEventKind) (now : Timestamp) : (c.advance kind now).key = c.key := rfl

/-- `append_command_operation_event_in_transaction` and its synchronous twin
`stage_command_operation_event_in_transaction`: advance the cursor of the stream
unless a terminal event closed it, and store the event under the new sequence. -/
def stageCommandOperationEvent (s : Store) (now : Timestamp) (workspaceId commandId : String)
    (kind : OperationEventKind) (payload : OperationPayload) :
    Tx (Option CommandOperationEvent) :=
  let clusterId := strip payload.clusterId
  if workspaceId = "" ∨ commandId = "" ∨ clusterId = "" then
    .error (.valueError "operation events require workspace, command, and cluster identity")
  else
    let cursors := s.cursors.insertIfAbsent ⟨workspaceId, commandId, 0, none, now⟩
    match cursors.find? (workspaceId, commandId) with
    | none => .ok (none, { s with cursors })
    | some cursor =>
      if cursor.terminalSequence.isSome then .ok (none, { s with cursors })
      else
        let row : CommandOperationEvent :=
          { workspaceId, commandId, sequence := cursor.lastSequence + 1, clusterId, kind, payload,
            occurredAt := now }
        match s.operationEvents.insert? row with
        | none => .error (.integrityError "command_operation_events_pkey")
        | some operationEvents =>
          let cursors := cursors.modify (workspaceId, commandId) (·.advance kind now)
            fun c => c.key_advance kind now
          .ok (some row, { s with cursors, operationEvents })

/-- `append_command_operation_event`: the same, in a transaction of its own and
with the identity trimmed. -/
def appendCommandOperationEvent (s : Store) (now : Timestamp) (workspaceId commandId : String)
    (kind : OperationEventKind) (payload : OperationPayload) :
    Tx (Option CommandOperationEvent) :=
  stageCommandOperationEvent s now (strip workspaceId) (strip commandId) kind payload

/-! ## Accepting and queueing -/

/-- `agent_command_values`: the values of a new logical row. -/
def agentCommandValues (now : Timestamp) (correlationId : String) (plan : Plan)
    (status : CommandStatus) (confirmationEventId : Option EventId) : AgentCommand where
  commandId := plan.commandId
  workspaceId := plan.workspace
  correlationId := correlationId
  clusterId := plan.clusterId
  action := plan.action
  priority := if plan.priority.getD 0 = 0 then commandPriorityHigh else plan.priority.getD 0
  payload := plan
  status := status
  leaseId := none
  agentId := none
  leasedUntil := none
  startedAt := none
  completedAt := none
  result := {}
  confirmationEventId := confirmationEventId
  directExecution := plan.directExecution
  attemptCount := 0
  activeAttemptId := none
  cancelRequestedAt := none
  cancelRequestedBy := none
  cancelReason := none
  cancelAcceptedAt := none
  cancelGeneration := 0
  terminalEventId := none
  createdAt := now
  updatedAt := now

/-- The values of a new attempt row in `agent_command_attempt_insert`. -/
def agentCommandAttemptValues (now : Timestamp) (attemptId : Uuid)
    (commandId workspaceId clusterId : String) (attemptNo : ℕ) (availableAt : Timestamp) :
    AgentCommandAttempt where
  attemptId := attemptId
  commandId := commandId
  workspaceId := workspaceId
  clusterId := clusterId
  attemptNo := attemptNo
  status := .queued
  availableAt := availableAt
  leaseId := none
  agentId := none
  leasedUntil := none
  startedAt := none
  completedAt := none
  result := {}
  createdAt := now
  updatedAt := now

/-- `agent_command_attempt_insert`: a known `attempt_id` is left alone, a second
attempt under the same number violates `uq_agent_command_attempt_number`. -/
def agentCommandAttemptInsert (attempts : Table AgentCommandAttempt.attemptId)
    (a : AgentCommandAttempt) : Except TxError (Table AgentCommandAttempt.attemptId) :=
  match attempts.insert? a with
  | none => .ok attempts
  | some attempts' =>
    if attempts.rows.any fun b => b.commandId = a.commandId && b.attemptNo = a.attemptNo then
      .error (.integrityError "uq_agent_command_attempt_number")
    else .ok attempts'

/-- The active commands of one workspace, cluster and action. -/
def countActiveAgentCommands (s : Store) (workspaceId clusterId action : String) : ℕ :=
  s.commands.rows.countP fun r =>
    r.workspaceId = workspaceId && r.clusterId = clusterId && r.action = action &&
      commandStatusIsActive r.status

/-- `INSERT … ON CONFLICT DO NOTHING RETURNING` of a logical row. -/
def insertLogicalCommand (s : Store) (now : Timestamp) (correlationId : String) (plan : Plan)
    (confirmationEventId : EventId) : Tx Bool :=
  match s.commands.insert?
    (agentCommandValues now correlationId plan .queued (some confirmationEventId)) with
  | none => .ok (false, s)
  | some commands => .ok (true, { s with commands })

/-- `stage_logical_command_acceptance_in_transaction`: create the logical row of
a receipt, within the capacity of its action. -/
def stageLogicalCommandAcceptance (s : Store) (now : Timestamp) (correlationId : String)
    (plan : Plan) (confirmationEventId : EventId) (maxActivePerAction : Option ℤ) : Tx Bool :=
  let accept := insertLogicalCommand s now correlationId plan confirmationEventId
  match maxActivePerAction with
  | none => accept
  | some limit =>
    if limit < 1 then .error (.valueError "command capacity must be positive")
    else if limit ≤ countActiveAgentCommands s plan.workspace plan.clusterId plan.action then
      .error (.capacityExceeded s!"active command capacity exceeded for {plan.action}")
    else accept

/-- The `stage` of `accept_command_with_receipt_stage`: the logical row and the
receipt event, in the transaction of the accepted platform event. -/
def acceptCommandWithReceiptStage (s : Store) (now : Timestamp) (correlationId : String)
    (plan : Plan) (receiptClusterId : String) (confirmationEventId : EventId)
    (maxActivePerAction : Option ℤ) : Tx (Option CommandOperationEvent) :=
  match stageLogicalCommandAcceptance s now correlationId plan confirmationEventId
    maxActivePerAction with
  | .error e => .error e
  | .ok (_, s₁) =>
    stageCommandOperationEvent s₁ now plan.workspace plan.commandId .progress
      { clusterId := receiptClusterId, status := some .queued, correlationId := some correlationId }

/-- The `set_` of `agent_command_queue_upsert`. -/
def AgentCommand.project (r : AgentCommand) (attemptId : Uuid) (now : Timestamp) : AgentCommand :=
  { r with attemptCount := 1, activeAttemptId := some attemptId, updatedAt := now }

theorem AgentCommand.commandId_project (r : AgentCommand) (attemptId : Uuid) (now : Timestamp) :
    (r.project attemptId now).commandId = r.commandId := rfl

/-- The `where` of `agent_command_queue_upsert`: queued and never projected. -/
def AgentCommand.unprojected (r : AgentCommand) : Bool :=
  decide (r.status = .queued) && r.activeAttemptId.isNone && decide (r.attemptCount = 0)

/-- `agent_command_queue_upsert`: the command table with the plan projected, or
`none` when the conflicting row is not an unprojected receipt. The conflict
target is the command id alone. -/
def agentCommandQueueUpsert (s : Store) (now : Timestamp) (correlationId : String) (plan : Plan)
    (attemptId : Uuid) : Option (Table AgentCommand.commandId) :=
  match s.commands.find? plan.commandId with
  | none =>
    s.commands.insert?
      { agentCommandValues now correlationId plan .queued none with
        attemptCount := 1, activeAttemptId := some attemptId }
  | some r =>
    if r.unprojected then
      some (s.commands.modify plan.commandId (·.project attemptId now)
        fun r => r.commandId_project attemptId now)
    else none

/-- `queue_agent_command`: project a plan with its first attempt. `False` means
that the command was already projected, or is past being queued. -/
def queueAgentCommand (s : Store) (now : Timestamp) (correlationId : String) (plan : Plan) :
    Tx Bool :=
  if plan.action = rcaTestScenarioInjectAction then
    .error (.valueError "RCA test inject commands require the atomic reservation guard")
  else
    match agentCommandQueueUpsert s now correlationId plan s.nextId with
    | none => .ok (false, s)
    | some commands =>
      match agentCommandAttemptInsert s.attempts
        (agentCommandAttemptValues now s.nextId plan.commandId plan.workspace plan.clusterId 1
          now) with
      | .error e => .error e
      | .ok attempts => .ok (true, { s with commands, attempts, nextId := s.nextId + 1 })

/-! ## Leasing -/

/-- A poll of an agent for its next command. -/
structure LeaseRequest : Type where
  now : Timestamp
  appNow : Timestamp
  clusterId : String
  workspaceId : String
  agentId : String
  leaseSeconds : ℤ
  /-- commands whose rows a concurrent transaction has locked (`SKIP LOCKED`) -/
  locked : List String
  deriving DecidableEq, Repr

/-- The `available` clause of the candidate query: queued, or leased past the
end of its lease. A running command is never re-leased. -/
def leaseAvailable (now : Timestamp) (r : AgentCommand) (a : AgentCommandAttempt) : Bool :=
  (decide (r.status = .queued) && decide (a.status = .queued)) ||
    (decide (r.status = .leased) && decide (a.status = .leased) && a.leasedUntil.any (· < now))

/-- The active attempt of a row joined to it, when the pair may be leased. -/
def leaseCandidate (s : Store) (req : LeaseRequest) (r : AgentCommand) :
    Option (AgentCommand × AgentCommandAttempt) :=
  match r.activeAttemptId.bind s.attempts.find? with
  | none => none
  | some a =>
    if r.workspaceId = req.workspaceId ∧ r.clusterId = req.clusterId ∧
        a.workspaceId = req.workspaceId ∧ a.clusterId = req.clusterId ∧
        a.availableAt ≤ req.now ∧ leaseAvailable req.now r a ∧ r.commandId ∉ req.locked then
      some (r, a)
    else none

/-- `ORDER BY priority DESC, created_at`. -/
def leaseBefore (x y : AgentCommand × AgentCommandAttempt) : Bool :=
  decide (y.1.priority < x.1.priority) ||
    (decide (x.1.priority = y.1.priority) && decide (x.1.createdAt ≤ y.1.createdAt))

/-- The earlier of two rows. -/
def leaseEarlier (best : Option (AgentCommand × AgentCommandAttempt))
    (x : AgentCommand × AgentCommandAttempt) : Option (AgentCommand × AgentCommandAttempt) :=
  match best with
  | none => some x
  | some y => if leaseBefore y x then some y else some x

/-- `ORDER BY … LIMIT 1`. -/
def leaseFirst (pairs : List (AgentCommand × AgentCommandAttempt)) :
    Option (AgentCommand × AgentCommandAttempt) := pairs.foldl leaseEarlier none

/-- The values both lease updates write. -/
def AgentCommand.lease (r : AgentCommand) (leaseId : Uuid) (agentId : String)
    (leasedUntil now : Timestamp) : AgentCommand :=
  { r with
    status := .leased, leaseId := some leaseId, agentId := some agentId,
    leasedUntil := some leasedUntil, updatedAt := now }

theorem AgentCommand.commandId_lease (r : AgentCommand) (leaseId : Uuid) (agentId : String)
    (leasedUntil now : Timestamp) :
    (r.lease leaseId agentId leasedUntil now).commandId = r.commandId := rfl

@[inherit_doc AgentCommand.lease]
def AgentCommandAttempt.lease (a : AgentCommandAttempt) (leaseId : Uuid) (agentId : String)
    (leasedUntil now : Timestamp) : AgentCommandAttempt :=
  { a with
    status := .leased, leaseId := some leaseId, agentId := some agentId,
    leasedUntil := some leasedUntil, updatedAt := now }

theorem AgentCommandAttempt.attemptId_lease (a : AgentCommandAttempt) (leaseId : Uuid)
    (agentId : String) (leasedUntil now : Timestamp) :
    (a.lease leaseId agentId leasedUntil now).attemptId = a.attemptId := rfl

/-- `LeasedAgentCommand`: what crosses the lease boundary. -/
structure LeasedAgentCommand : Type where
  commandId : String
  attemptId : Uuid
  leaseId : Uuid
  operationEvent : Option CommandOperationEvent
  deriving DecidableEq, Repr

/-- `lease_agent_command`. The candidate rows are locked when the two updates
run, so the updates' own status guards hold. -/
def leaseAgentCommand (s : Store) (req : LeaseRequest) : Tx (Option LeasedAgentCommand) :=
  match leaseFirst (s.commands.rows.filterMap (leaseCandidate s req)) with
  | none => .ok (none, s)
  | some (r, a) =>
    let leaseId := s.nextId
    let leasedUntil := req.appNow + req.leaseSeconds
    let s₁ := { s with
      commands := s.commands.modify r.commandId
        (·.lease leaseId req.agentId leasedUntil req.now)
        fun r => r.commandId_lease leaseId req.agentId leasedUntil req.now
      attempts := s.attempts.modify a.attemptId
        (·.lease leaseId req.agentId leasedUntil req.now)
        fun a => a.attemptId_lease leaseId req.agentId leasedUntil req.now
      nextId := s.nextId + 1 }
    match stageCommandOperationEvent s₁ req.now req.workspaceId r.commandId .progress
      { clusterId := req.clusterId, status := some .leased, correlationId := some r.correlationId,
        attemptId := some a.attemptId } with
    | .error e => .error e
    | .ok (event, s₂) => .ok (some ⟨r.commandId, a.attemptId, leaseId, event⟩, s₂)

/-! ## Starting, heartbeats and completion -/

/-- What an agent presents to act on a command it holds. -/
structure AgentClaim : Type where
  now : Timestamp
  appNow : Timestamp
  commandId : String
  workspaceId : String
  clusterId : String
  leaseId : Uuid
  agentId : String
  leaseSeconds : ℤ
  attemptId : Option Uuid
  deriving DecidableEq, Repr

/-- The `where` clauses every agent call shares: identity, lease holder, a live
lease, and one of the statuses the call accepts. -/
def AgentCommand.heldBy (r : AgentCommand) (req : AgentClaim) (statuses : List CommandStatus) :
    Bool :=
  decide (r.workspaceId = req.workspaceId) && decide (r.clusterId = req.clusterId) &&
    decide (r.leaseId = some req.leaseId) && decide (r.agentId = some req.agentId) &&
    decide (r.status ∈ statuses) && r.leasedUntil.any (req.now ≤ ·) &&
    req.attemptId.all fun aid => decide (r.activeAttemptId = some aid)

/-- The `where` clauses of the attempt updates of an agent call. -/
def AgentCommandAttempt.heldBy (a : AgentCommandAttempt) (req : AgentClaim)
    (statuses : List CommandAttemptStatus) : Bool :=
  decide (a.workspaceId = req.workspaceId) && decide (a.leaseId = some req.leaseId) &&
    decide (a.agentId = some req.agentId) && decide (a.status ∈ statuses)

/-- `UPDATE agent_command_attempts … WHERE attempt_id = active_attempt_id`: no
row when the command has no active attempt. -/
def updateActiveAttempt (attempts : Table AgentCommandAttempt.attemptId)
    (activeAttemptId : Option Uuid) (f : AgentCommandAttempt → AgentCommandAttempt)
    (hf : ∀ a, (f a).attemptId = a.attemptId) : Table AgentCommandAttempt.attemptId :=
  match activeAttemptId with
  | none => attempts
  | some aid => attempts.modify aid f hf

/-- The values `start_agent_command` writes. -/
def AgentCommand.start (r : AgentCommand) (leasedUntil now : Timestamp) : AgentCommand :=
  { r with
    status := .running, leasedUntil := some leasedUntil, startedAt := some now, updatedAt := now }

theorem AgentCommand.commandId_start (r : AgentCommand) (leasedUntil now : Timestamp) :
    (r.start leasedUntil now).commandId = r.commandId := rfl

/-- The guarded attempt update of `start_agent_command`. -/
def AgentCommandAttempt.start (a : AgentCommandAttempt) (req : AgentClaim)
    (leasedUntil : Timestamp) : AgentCommandAttempt :=
  if a.heldBy req [.leased] then
    { a with
      status := .running, startedAt := some req.now, leasedUntil := some leasedUntil,
      updatedAt := req.now }
  else a

theorem AgentCommandAttempt.attemptId_start (a : AgentCommandAttempt) (req : AgentClaim)
    (leasedUntil : Timestamp) : (a.start req leasedUntil).attemptId = a.attemptId := by
  rw [AgentCommandAttempt.start]
  split <;> rfl

structure StartedAgentCommand : Type where
  correlationId : String
  operationEvent : Option CommandOperationEvent
  deriving DecidableEq, Repr

def startAgentCommand (s : Store) (req : AgentClaim) : Tx (Option StartedAgentCommand) :=
  match (s.commands.find? req.commandId).filter (·.heldBy req [.leased]) with
  | none => .ok (none, s)
  | some r =>
    let leasedUntil := req.appNow + req.leaseSeconds
    let s₁ := { s with
      commands := s.commands.modify req.commandId (·.start leasedUntil req.now)
        fun r => r.commandId_start leasedUntil req.now
      attempts := updateActiveAttempt s.attempts r.activeAttemptId (·.start req leasedUntil)
        fun a => a.attemptId_start req leasedUntil }
    match stageCommandOperationEvent s₁ req.now req.workspaceId req.commandId .progress
      { clusterId := req.clusterId, status := some .running, correlationId := some r.correlationId,
        attemptId := r.activeAttemptId } with
    | .error e => .error e
    | .ok (event, s₂) => .ok (some ⟨r.correlationId, event⟩, s₂)

/-- `status == CANCEL_REQUESTED and observed_cancel_generation >= generation`. -/
def AgentCommand.acknowledged (r : AgentCommand) (observedCancelGeneration : Option ℤ) : Bool :=
  decide (r.status = .cancelRequested) &&
    observedCancelGeneration.any fun observed => decide ((r.cancelGeneration : ℤ) ≤ observed)

/-- The values `heartbeat_agent_command` writes. -/
def AgentCommand.heartbeat (r : AgentCommand) (acknowledged : Bool)
    (leasedUntil now : Timestamp) : AgentCommand :=
  { r with
    status := if acknowledged then .cancelling else r.status
    leasedUntil := some leasedUntil
    cancelAcceptedAt := if acknowledged then some now else r.cancelAcceptedAt
    updatedAt := now }

theorem AgentCommand.commandId_heartbeat (r : AgentCommand) (acknowledged : Bool)
    (leasedUntil now : Timestamp) :
    (r.heartbeat acknowledged leasedUntil now).commandId = r.commandId := rfl

/-- The guarded attempt update of `heartbeat_agent_command`. -/
def AgentCommandAttempt.heartbeat (a : AgentCommandAttempt) (req : AgentClaim)
    (leasedUntil : Timestamp) : AgentCommandAttempt :=
  if a.heldBy req [.leased, .running] then
    { a with leasedUntil := some leasedUntil, updatedAt := req.now }
  else a

theorem AgentCommandAttempt.attemptId_heartbeat (a : AgentCommandAttempt) (req : AgentClaim)
    (leasedUntil : Timestamp) : (a.heartbeat req leasedUntil).attemptId = a.attemptId := by
  rw [AgentCommandAttempt.heartbeat]
  split <;> rfl

/-- `HeartbeatAgentCommand`: the reply, with the reverse cancel control. -/
structure HeartbeatAgentCommand : Type where
  correlationId : String
  cancelRequested : Bool
  cancelGeneration : Option ℕ
  operationEvent : Option CommandOperationEvent
  deriving DecidableEq, Repr

/-- The tables after a heartbeat of a command with an active attempt. -/
def Store.heartbeatUpdate (s : Store) (req : AgentClaim) (observed : Option ℤ)
    (r : AgentCommand) : Store :=
  { s with
    commands := s.commands.modify req.commandId
      (·.heartbeat (r.acknowledged observed) (req.appNow + req.leaseSeconds) req.now)
      fun x => x.commandId_heartbeat (r.acknowledged observed) (req.appNow + req.leaseSeconds)
        req.now
    attempts := updateActiveAttempt s.attempts r.activeAttemptId
      (·.heartbeat req (req.appNow + req.leaseSeconds))
      fun a => a.attemptId_heartbeat req (req.appNow + req.leaseSeconds) }

/-- `heartbeat_agent_command`. The row update is keyed by the active attempt, so
a row without one is selected but not updated. -/
def heartbeatAgentCommand (s : Store) (req : AgentClaim)
    (observedCancelGeneration : Option ℤ) : Tx (Option HeartbeatAgentCommand) :=
  match (s.commands.find? req.commandId).filter
    (·.heldBy req [.leased, .running, .cancelRequested, .cancelling]) with
  | none => .ok (none, s)
  | some r =>
    let acknowledged := r.acknowledged observedCancelGeneration
    let s₁ :=
      if r.activeAttemptId.isSome then s.heartbeatUpdate req observedCancelGeneration r else s
    let nextStatus := if acknowledged then CommandStatus.cancelling else r.status
    let reply : Option CommandOperationEvent → HeartbeatAgentCommand := fun event =>
      { correlationId := r.correlationId
        cancelRequested := nextStatus ∈ [CommandStatus.cancelRequested, .cancelling]
        cancelGeneration := if r.cancelGeneration = 0 then none else some r.cancelGeneration
        operationEvent := event }
    if acknowledged then
      match stageCommandOperationEvent s₁ req.now req.workspaceId req.commandId .progress
        { clusterId := req.clusterId, status := some .cancelling,
          correlationId := some r.correlationId } with
      | .error e => .error e
      | .ok (event, s₂) => .ok (some (reply event), s₂)
    else .ok (some (reply none), s₁)

/-- The values `complete_agent_command_and_stage_event` writes. -/
def AgentCommand.complete (r : AgentCommand) (status : CommandStatus) (result : CommandResult)
    (now : Timestamp) : AgentCommand :=
  { r with status := status, result := result, completedAt := some now, updatedAt := now }

theorem AgentCommand.commandId_complete (r : AgentCommand) (status : CommandStatus)
    (result : CommandResult) (now : Timestamp) :
    (r.complete status result now).commandId = r.commandId := rfl

/-- `.values(terminal_event_id=completed.event_id)`. -/
def AgentCommand.recordTerminalEvent (r : AgentCommand) (eventId : EventId) : AgentCommand :=
  { r with terminalEventId := some eventId }

theorem AgentCommand.commandId_recordTerminalEvent (r : AgentCommand) (eventId : EventId) :
    (r.recordTerminalEvent eventId).commandId = r.commandId := rfl

/-- The guarded attempt update of `complete_agent_command_and_stage_event`. -/
def AgentCommandAttempt.complete (a : AgentCommandAttempt) (req : AgentClaim)
    (status : CommandAttemptStatus) (result : CommandResult) : AgentCommandAttempt :=
  if a.heldBy req [.running, .leased] then
    { a with
      status := status, result := result, completedAt := some req.now, updatedAt := req.now }
  else a

theorem AgentCommandAttempt.attemptId_complete (a : AgentCommandAttempt) (req : AgentClaim)
    (status : CommandAttemptStatus) (result : CommandResult) :
    (a.complete req status result).attemptId = a.attemptId := by
  rw [AgentCommandAttempt.complete]
  split <;> rfl

/-- `final_failure`: no manual retry of this failure will be accepted. -/
def finalFailure (catalog : CommandCatalog) (payload : Plan) (result : CommandResult)
    (attemptCount : ℕ) : Bool :=
  !(decide (result.retryable = some true) &&
    (commandActionSpec catalog payload.action).any (·.supportsManualRetry) &&
    decide ((attemptCount : ℤ) < (commandRetryPolicy payload).1))

/-- The event kind of a completion: a failure that may be retried leaves the
stream open. -/
def completionKind (catalog : CommandCatalog) (r : AgentCommand) (status : CommandStatus)
    (result : CommandResult) : Option OperationEventKind :=
  commandTerminalEventKind status
    (decide (status ≠ .failed) || finalFailure catalog r.payload result r.attemptCount)

structure CompletedAgentCommand : Type where
  event : CommandCompletedEvent
  operationEvent : Option CommandOperationEvent
  deriving DecidableEq, Repr

/-- The tables after the updates of a completion. -/
def Store.completeUpdate (s : Store) (req : AgentClaim) (status : CommandStatus)
    (attemptStatus : CommandAttemptStatus) (result : CommandResult) (r : AgentCommand) : Store :=
  { s with
    commands := s.commands.modify req.commandId (·.complete status result req.now)
      fun r => r.commandId_complete status result req.now
    attempts := updateActiveAttempt s.attempts r.activeAttemptId
      (·.complete req attemptStatus result)
      fun a => a.attemptId_complete req attemptStatus result }

/-- `complete_agent_command_and_stage_event`. A reported status that is not
terminal raises after the updates and rolls them back. -/
def completeAgentCommandAndStageEvent (catalog : CommandCatalog) (s : Store) (req : AgentClaim)
    (result : CommandResult) (source : String) : Tx (Option CompletedAgentCommand) :=
  match result.status with
  | none => .error (.keyError "status")
  | some status =>
    match (s.commands.find? req.commandId).filter
      (·.heldBy req [.running, .cancelRequested, .cancelling]) with
    | none => .ok (none, s)
    | some r =>
      match completionKind catalog r status result, status.attemptStatus with
      | some kind, some attemptStatus =>
        let s₁ := s.completeUpdate req status attemptStatus result r
        match stageCommandOperationEvent s₁ req.now req.workspaceId req.commandId kind
          { clusterId := req.clusterId, status := some status,
            correlationId := some r.correlationId, attemptId := r.activeAttemptId,
            result := some result } with
        | .error e => .error e
        | .ok (event, s₂) =>
          let completed : CommandCompletedEvent :=
            { eventId := .uuid4 s₂.nextId, source, correlationId := r.correlationId,
              workspaceId := req.workspaceId, commandId := req.commandId, result }
          let commands := if kind = .progress then s₂.commands else
            s₂.commands.modify req.commandId
              (·.recordTerminalEvent completed.eventId)
              fun r => r.commandId_recordTerminalEvent completed.eventId
          .ok (some ⟨completed, event⟩,
            { s₂ with
              commands, outbox := s₂.outbox.insertIfAbsent completed, nextId := s₂.nextId + 1 })
      | _, _ => .error (.valueError "non-terminal command status cannot close operation stream")

/-! ## Controls -/

/-- A cancel or retry control. -/
structure ControlRequest : Type where
  now : Timestamp
  workspaceId : String
  commandId : String
  action : ControlKind
  idempotencyKey : String
  requestedBy : String
  reason : Option String
  eventId : EventId
  auditEventId : EventId
  deriving DecidableEq, Repr

/-- The result document of a command cancelled before its execution; an empty
reason counts as none. -/
def cancelResult (reason : Option String) : CommandResult :=
  { status := some .cancelled, applied := some false,
    message := some (if reason.getD "" = "" then "command cancelled before execution started"
      else reason.getD "") }

/-- The values a cancel before execution writes to the command. -/
def AgentCommand.cancel (r : AgentCommand) (req : ControlRequest) (result : CommandResult) :
    AgentCommand :=
  { r with
    status := .cancelled, result := result, completedAt := some req.now,
    cancelRequestedAt := some req.now, cancelRequestedBy := some req.requestedBy,
    cancelReason := req.reason, terminalEventId := some req.eventId, updatedAt := req.now }

theorem AgentCommand.commandId_cancel (r : AgentCommand) (req : ControlRequest)
    (result : CommandResult) : (r.cancel req result).commandId = r.commandId := rfl

/-- The guarded attempt update of a cancel before execution. -/
def AgentCommandAttempt.cancel (a : AgentCommandAttempt) (req : ControlRequest)
    (result : CommandResult) : AgentCommandAttempt :=
  if a.workspaceId = req.workspaceId ∧ a.status ∈ [CommandAttemptStatus.queued, .leased] then
    { a with
      status := .cancelled, result := result, completedAt := some req.now, updatedAt := req.now }
  else a

theorem AgentCommandAttempt.attemptId_cancel (a : AgentCommandAttempt) (req : ControlRequest)
    (result : CommandResult) : (a.cancel req result).attemptId = a.attemptId := by
  rw [AgentCommandAttempt.cancel]
  split <;> rfl

/-- The values a cancel of a running command writes. -/
def AgentCommand.requestCancel (r : AgentCommand) (req : ControlRequest) : AgentCommand :=
  { r with
    status := .cancelRequested, cancelRequestedAt := some req.now,
    cancelRequestedBy := some req.requestedBy, cancelReason := req.reason,
    cancelGeneration := r.cancelGeneration + 1, updatedAt := req.now }

theorem AgentCommand.commandId_requestCancel (r : AgentCommand) (req : ControlRequest) :
    (r.requestCancel req).commandId = r.commandId := rfl

/-- The values an accepted retry writes. -/
def AgentCommand.retry (r : AgentCommand) (attemptId : Uuid) (now : Timestamp) : AgentCommand :=
  { r with
    status := .queued, attemptCount := r.attemptCount + 1, activeAttemptId := some attemptId,
    leaseId := none, agentId := none, leasedUntil := none, startedAt := none, completedAt := none,
    result := {}, cancelRequestedAt := none, cancelRequestedBy := none, cancelReason := none,
    cancelAcceptedAt := none, terminalEventId := none, updatedAt := now }

theorem AgentCommand.commandId_retry (r : AgentCommand) (attemptId : Uuid) (now : Timestamp) :
    (r.retry attemptId now).commandId = r.commandId := rfl

structure StagedCommandControl : Type where
  controlId : Uuid
  commandId : String
  action : ControlKind
  correlationId : String
  status : CommandStatus
  attemptId : Option Uuid
  operationEvent : Option CommandOperationEvent
  deriving DecidableEq, Repr

/-- What a control branch hands to the common tail: the staged event, the
outcome, the attempt, and the details of the control row. -/
structure ControlEffect : Type where
  operationEvent : Option CommandOperationEvent := none
  outcome : String := "accepted"
  attemptId : Option Uuid
  details : ControlDetails
  deriving DecidableEq, Repr

/-- The cancel branch of `stage_command_control_in_transaction`. -/
def stageCancelControl (catalog : CommandCatalog) (s : Store) (req : ControlRequest)
    (r : AgentCommand) : Tx ControlEffect :=
  let details : ControlDetails :=
    { statusBefore := r.status, correlationId := r.correlationId, statusAfter := r.status }
  if (commandActionSpec catalog r.action).any (·.supportsCancel) then
    match r.status with
    | .completed | .failed | .cancelled =>
      .error (.controlConflict "terminal command cannot be cancelled")
    | .cancelRequested | .cancelling =>
      .ok ({ outcome := "already_requested", attemptId := r.activeAttemptId,
             details := { details with cancelGeneration := some r.cancelGeneration } }, s)
    | .queued | .leased =>
      let result := cancelResult req.reason
      let s₁ := { s with
        commands := s.commands.modify req.commandId (·.cancel req result)
          fun r => r.commandId_cancel req result
        attempts := updateActiveAttempt s.attempts r.activeAttemptId (·.cancel req result)
          fun a => a.attemptId_cancel req result }
      match stageCommandOperationEvent s₁ req.now req.workspaceId req.commandId .cancelled
        { clusterId := r.clusterId, status := some .cancelled,
          correlationId := some r.correlationId, result := some result } with
      | .error e => .error e
      | .ok (event, s₂) =>
        .ok ({ operationEvent := event, attemptId := r.activeAttemptId,
               details := { details with statusAfter := .cancelled } }, s₂)
    | .running =>
      let s₁ := { s with
        commands := s.commands.modify req.commandId (·.requestCancel req)
          fun r => r.commandId_requestCancel req }
      match stageCommandOperationEvent s₁ req.now req.workspaceId req.commandId .progress
        { clusterId := r.clusterId, status := some .cancelRequested,
          correlationId := some r.correlationId } with
      | .error e => .error e
      | .ok (event, s₂) =>
        .ok ({ operationEvent := event, attemptId := r.activeAttemptId,
               details := { details with
                 statusAfter := .cancelRequested
                 cancelGeneration := some (r.cancelGeneration + 1) } }, s₂)
  else .error (.controlConflict "command action does not support cancellation")

/-- The retry branch of `stage_command_control_in_transaction`. -/
def stageRetryControl (catalog : CommandCatalog) (s : Store) (req : ControlRequest)
    (r : AgentCommand) : Tx ControlEffect :=
  let (maxAttempts, retryDelaySeconds) := commandRetryPolicy r.payload
  if r.status ≠ .failed then
    .error (.controlConflict "only a failed command may be retried")
  else if !(commandActionSpec catalog r.action).any (·.supportsManualRetry) ||
      decide (maxAttempts < 2) then
    .error (.controlConflict "command action retry policy does not allow manual retry")
  else if maxAttempts ≤ r.attemptCount then
    .error (.controlConflict "command retry budget is exhausted")
  else if r.result.retryable ≠ some true then
    .error (.controlConflict "failed command is not declared retryable")
  else
    let attemptId := s.nextId
    match agentCommandAttemptInsert s.attempts
      (agentCommandAttemptValues req.now attemptId req.commandId req.workspaceId r.clusterId
        (r.attemptCount + 1) (req.now + retryDelaySeconds)) with
    | .error e => .error e
    | .ok attempts =>
      let s₁ := { s with
        attempts
        commands := s.commands.modify req.commandId (·.retry attemptId req.now)
          fun r => r.commandId_retry attemptId req.now
        nextId := s.nextId + 1 }
      match stageCommandOperationEvent s₁ req.now req.workspaceId req.commandId .progress
        { clusterId := r.clusterId, status := some .queued, correlationId := some r.correlationId,
          attemptId := some attemptId } with
      | .error e => .error e
      | .ok (event, s₂) =>
        .ok ({ operationEvent := event, attemptId := some attemptId,
               details :=
                { statusBefore := r.status, correlationId := r.correlationId,
                  statusAfter := .queued, attemptNo := some (r.attemptCount + 1),
                  retryDelaySeconds := some retryDelaySeconds,
                  maxAttempts := some maxAttempts } }, s₂)

/-- `stage_command_control_in_transaction`. -/
def stageCommandControl (catalog : CommandCatalog) (s : Store) (req : ControlRequest) :
    Tx StagedCommandControl :=
  match (s.commands.find? req.commandId).filter (·.workspaceId = req.workspaceId) with
  | none => .error (.controlNotFound "command not found")
  | some r =>
    match s.controls.find? (req.workspaceId, req.commandId, req.action, req.idempotencyKey) with
    | some control =>
      .error (.duplicateControl "command control idempotency key was already accepted" control)
    | none =>
      let branch := match req.action with
        | .cancel => stageCancelControl catalog s req r
        | .retry => stageRetryControl catalog s req r
      match branch with
      | .error e => .error e
      | .ok (effect, s₁) =>
        let controlId := s₁.nextId
        let control : CommandControlAction :=
          { controlId, workspaceId := req.workspaceId, commandId := req.commandId,
            action := req.action, idempotencyKey := req.idempotencyKey,
            requestedBy := req.requestedBy, reason := req.reason, outcome := effect.outcome,
            eventId := req.eventId, auditEventId := req.auditEventId,
            attemptId := effect.attemptId, details := effect.details }
        .ok (⟨controlId, req.commandId, req.action, r.correlationId, effect.details.statusAfter,
            effect.attemptId, effect.operationEvent⟩,
          { s₁ with controls := s₁.controls.insertIfAbsent control, nextId := s₁.nextId + 1 })

/-! ## Rejection and expiry -/

/-- The result document of a rejected receipt. -/
def rejectionResult (reason : String) : CommandResult :=
  { status := some .failed, applied := some false, message := some reason,
    retryable := some false }

/-- The values `fail_logical_command_and_stage_event` writes. The attempts are
not touched. -/
def AgentCommand.reject (r : AgentCommand) (reason : String) (now : Timestamp) : AgentCommand :=
  { r with
    status := .failed, result := rejectionResult reason, completedAt := some now,
    updatedAt := now }

theorem AgentCommand.commandId_reject (r : AgentCommand) (reason : String) (now : Timestamp) :
    (r.reject reason now).commandId = r.commandId := rfl

/-- The `where` of `fail_logical_command_and_stage_event`. -/
def AgentCommand.rejectable (r : AgentCommand) (workspaceId clusterId : String) : Bool :=
  decide (r.workspaceId = workspaceId) && decide (r.clusterId = clusterId) &&
    decide (r.status = .queued)

/-- `fail_logical_command_and_stage_event`: close a receipt that the policy
worker rejected before agent execution. -/
def failLogicalCommandAndStageEvent (s : Store) (now : Timestamp)
    (workspaceId commandId clusterId reason : String) : Tx (Option CommandOperationEvent) :=
  match (s.commands.find? commandId).filter (·.rejectable workspaceId clusterId) with
  | none => .ok (none, s)
  | some r =>
    let s₁ := { s with
      commands := s.commands.modify commandId (·.reject reason now)
        fun r => r.commandId_reject reason now }
    stageCommandOperationEvent s₁ now workspaceId commandId .failed
      { clusterId, status := some .failed, correlationId := some r.correlationId,
        result := some (rejectionResult reason) }

/-- `cancelling_states`. -/
def CommandStatus.isCancelling : CommandStatus → Bool
  | .cancelRequested | .cancelling => true
  | .queued | .leased | .running | .completed | .failed | .cancelled => false

/-- The `where` of the janitor's update: a queued row older than the queue TTL,
a leased or running row whose lease ended more than the grace period ago, or a
row being cancelled that has been silent for as long. -/
def AgentCommand.expired (r : AgentCommand) (now : Timestamp)
    (graceSeconds queueTtlSeconds : ℤ) : Bool :=
  (decide (r.status = .queued) && decide (r.createdAt < now - queueTtlSeconds)) ||
    (decide (r.status ∈ [CommandStatus.leased, .running]) &&
      r.leasedUntil.any (· < now - graceSeconds)) ||
    (r.status.isCancelling && decide (r.leasedUntil.getD r.updatedAt < now - graceSeconds))

/-- `terminal_status`. -/
def AgentCommand.expiredStatus (r : AgentCommand) : CommandStatus :=
  if r.status.isCancelling then .cancelled else .failed

/-- The result document of an expired command. -/
def AgentCommand.expiredResult (r : AgentCommand) : CommandResult :=
  { status := some r.expiredStatus
    applied := some false
    message := some (
      if r.status = .queued then "command queue expired; no connected agent accepted the command"
      else if r.status.isCancelling then
        "command lease expired during cancellation; agent did not confirm"
      else "command lease expired; no agent completed the command") }

/-- The values the janitor writes to an expired command. -/
def AgentCommand.expire (r : AgentCommand) (now : Timestamp) : AgentCommand :=
  { r with
    status := r.expiredStatus, result := r.expiredResult, completedAt := some now,
    updatedAt := now }

theorem AgentCommand.commandId_expire (r : AgentCommand) (now : Timestamp) :
    (r.expire now).commandId = r.commandId := rfl

/-- The guarded attempt update of the janitor. -/
def AgentCommandAttempt.expire (a : AgentCommandAttempt) (workspaceId : String)
    (result : CommandResult) (now : Timestamp) : AgentCommandAttempt :=
  if a.workspaceId = workspaceId ∧
      a.status ∈ [CommandAttemptStatus.queued, .leased, .running] then
    { a with status := .expired, result := result, completedAt := some now, updatedAt := now }
  else a

theorem AgentCommandAttempt.attemptId_expire (a : AgentCommandAttempt) (workspaceId : String)
    (result : CommandResult) (now : Timestamp) :
    (a.expire workspaceId result now).attemptId = a.attemptId := by
  rw [AgentCommandAttempt.expire]
  split <;> rfl

/-- The tables after the updates of one expired row. -/
def Store.expireUpdate (s : Store) (now : Timestamp) (r : AgentCommand) : Store :=
  { s with
    commands := s.commands.modify r.commandId (·.expire now) fun r => r.commandId_expire now
    attempts := updateActiveAttempt s.attempts r.activeAttemptId
      (·.expire r.workspaceId r.expiredResult now)
      fun a => a.attemptId_expire r.workspaceId r.expiredResult now }

/-- One row of the janitor's sweep: the row's share of the `UPDATE … RETURNING`
and the body of the loop over the returned rows. -/
def failExpiredAgentCommand (now : Timestamp) (source : String) (s : Store) (r : AgentCommand) :
    Except TxError Store :=
  match stageCommandOperationEvent (s.expireUpdate now r) now r.workspaceId r.commandId
    (if r.expiredStatus = .cancelled then .cancelled else .failed)
    { clusterId := r.clusterId, status := some r.expiredStatus,
      correlationId := some r.correlationId, result := some r.expiredResult } with
  | .error e => .error e
  | .ok (_, s₂) =>
    let completed : CommandCompletedEvent :=
      { eventId := .commandExpired r.commandId r.attemptCount, source,
        correlationId := r.correlationId, workspaceId := r.workspaceId, commandId := r.commandId,
        result := r.expiredResult }
    .ok { s₂ with
      commands := s₂.commands.modify r.commandId
        (·.recordTerminalEvent completed.eventId)
        fun r => r.commandId_recordTerminalEvent completed.eventId
      outbox := s₂.outbox.insertIfAbsent completed }

/-- `fail_expired_agent_commands`: close every expired row, in one transaction.
The rows are chosen by one statement, before any of them is written. -/
def failExpiredAgentCommands (s : Store) (now : Timestamp) (graceSeconds queueTtlSeconds : ℤ)
    (source : String) : Tx (List AgentCommand) :=
  if graceSeconds < 1 ∨ queueTtlSeconds < 1 then
    .error (.valueError "command expiry durations must be positive")
  else
    let rows := s.commands.rows.filter (·.expired now graceSeconds queueTtlSeconds)
    match rows.foldlM (failExpiredAgentCommand now source) s with
    | .error e => .error e
    | .ok s' => .ok (rows.map (·.expire now), s')

/-! ## The transition system -/

/-- One transaction of the repository with its inputs. -/
inductive Op : Type where
  /-- the receipt transaction of the API -/
  | accept (now : Timestamp) (correlationId : String) (plan : Plan) (receiptClusterId : String)
      (confirmationEventId : EventId) (maxActivePerAction : Option ℤ)
  /-- `queue_agent_command` -/
  | queue (now : Timestamp) (correlationId : String) (plan : Plan)
  /-- `lease_agent_command` -/
  | lease (req : LeaseRequest)
  /-- `start_agent_command` -/
  | start (req : AgentClaim)
  /-- `heartbeat_agent_command` -/
  | heartbeat (req : AgentClaim) (observedCancelGeneration : Option ℤ)
  /-- the progress report a heartbeat may carry -/
  | progress (now : Timestamp) (workspaceId commandId : String) (payload : OperationPayload)
  /-- `complete_agent_command_and_stage_event` -/
  | complete (req : AgentClaim) (result : CommandResult) (source : String)
  /-- `stage_command_control_in_transaction` -/
  | control (req : ControlRequest)
  /-- `fail_logical_command_and_stage_event` -/
  | failLogical (now : Timestamp) (workspaceId commandId clusterId reason : String)
  /-- `fail_expired_agent_commands` -/
  | failExpired (now : Timestamp) (graceSeconds queueTtlSeconds : ℤ) (source : String)
  deriving DecidableEq, Repr

/-- The store after a transaction. -/
def step (catalog : CommandCatalog) (s : Store) : Op → Store
  | .accept now correlationId plan receiptClusterId confirmationEventId maxActivePerAction =>
    (acceptCommandWithReceiptStage s now correlationId plan receiptClusterId confirmationEventId
      maxActivePerAction).commit s
  | .queue now correlationId plan => (queueAgentCommand s now correlationId plan).commit s
  | .lease req => (leaseAgentCommand s req).commit s
  | .start req => (startAgentCommand s req).commit s
  | .heartbeat req observed => (heartbeatAgentCommand s req observed).commit s
  | .progress now workspaceId commandId payload =>
    (appendCommandOperationEvent s now workspaceId commandId .progress payload).commit s
  | .complete req result source =>
    (completeAgentCommandAndStageEvent catalog s req result source).commit s
  | .control req => (stageCommandControl catalog s req).commit s
  | .failLogical now workspaceId commandId clusterId reason =>
    (failLogicalCommandAndStageEvent s now workspaceId commandId clusterId reason).commit s
  | .failExpired now graceSeconds queueTtlSeconds source =>
    (failExpiredAgentCommands s now graceSeconds queueTtlSeconds source).commit s

end Opsia
