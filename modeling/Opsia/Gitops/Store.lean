import Opsia.Command.Lifecycle
import Opsia.Lib.PyText
import Opsia.Lib.Table
import Opsia.Values

/-!
# The GitOps workflow store

The tables `workflow_runs` and `approvals`, the part of `agent_commands` that a
workflow reads, and the functions over them, from `domains/gitops/repository.py`,
`domains/gitops/approvals.py` and `packages/contracts/gitops`.

A workflow run is scoped to a commit, approvals and commands to one resource of it.
Hash digests, `str.lower` and `str.casefold` are functions of a `Naming`, about which
nothing is assumed.
-/

namespace Opsia.Gitops

/-! ## Statuses -/

inductive WorkflowRunStatus : Type where
  | started
  | rendering
  | diffing
  | policyChecking
  | waitingForApproval
  | applying
  | rolloutWaiting
  | succeeded
  | failed
  deriving DecidableEq, Repr

/-- `WORKFLOW_STATUS_RANKS`. -/
def WorkflowRunStatus.rank : WorkflowRunStatus → ℕ
  | .started => 1
  | .rendering => 2
  | .diffing => 3
  | .policyChecking => 4
  | .waitingForApproval => 5
  | .applying => 6
  | .rolloutWaiting => 7
  | .succeeded => 8
  | .failed => 8

/-- `TERMINAL_WORKFLOW_STATUSES`. -/
def WorkflowRunStatus.isTerminal : WorkflowRunStatus → Bool
  | .succeeded | .failed => true
  | .started | .rendering | .diffing | .policyChecking | .waitingForApproval | .applying
  | .rolloutWaiting => false

/-- `workflow_transition_guard` with the further condition of every caller that the
status changes. -/
def workflowTransitionGuard (current new : WorkflowRunStatus) : Bool :=
  !current.isTerminal && current.rank ≤ new.rank && current ≠ new

theorem not_isTerminal_of_guard {current new : WorkflowRunStatus}
    (h : workflowTransitionGuard current new = true) : current.isTerminal = false := by
  unfold workflowTransitionGuard at h
  simp only [Bool.and_eq_true, Bool.not_eq_true'] at h
  exact h.1.1

inductive ApprovalStatus : Type where
  | requested
  | granted
  | rejected
  | expired
  | notRequired
  deriving DecidableEq, Repr

/-- `OPEN_APPROVAL_STATUSES`. -/
def ApprovalStatus.isOpen : ApprovalStatus → Bool
  | .requested | .notRequired => true
  | .granted | .rejected | .expired => false

inductive RiskLevel : Type where
  | sandboxOnly
  | nonSandboxNamespace
  | reviewRequired
  deriving DecidableEq, Repr

/-! ## Identities -/

/-- The fields of an event body that identify a workflow run. -/
structure Identity : Type where
  /-- empty when the event names no run -/
  workflowRunId : String
  workspaceId : String
  applicationId : String
  bindingId : String
  environment : String
  clusterId : String
  commitSha : String
  deriving DecidableEq, Repr

/-- What the model leaves to its environment: the digests of derived identifiers and
the case foldings of Unicode. -/
structure Naming : Type where
  /-- the digest that `derive_workflow_run_id` takes of the other fields -/
  runDigest : Identity → String
  /-- `hashlib.sha256(raw.encode()).hexdigest()[:32]` -/
  digest : String → String
  /-- `str.lower` -/
  lower : String → String
  /-- `str.casefold` -/
  casefold : String → String

variable (naming : Naming)

def deriveWorkflowRunId (identity : Identity) : String :=
  if identity.workflowRunId ≠ "" then identity.workflowRunId
  else "workflow-" ++ naming.runDigest identity

/-- `normalize_payload`: the identity with its run named. -/
def normalizePayload (identity : Identity) : Identity :=
  { identity with workflowRunId := deriveWorkflowRunId naming identity }

def resourceApprovalQualifier (namespaceName resource artifactDigest : String) : String :=
  let normalizedNamespace := PyText.strip namespaceName
  let normalizedResource := naming.casefold (PyText.strip resource)
  (if normalizedNamespace ≠ "" then normalizedNamespace else "cluster") ++ "|" ++
    (if normalizedResource ≠ "" then normalizedResource else "resource") ++ "|" ++
      PyText.strip artifactDigest

def deriveApprovalId (workflowRunId : String) (qualifier : Option String) : String :=
  "approval-" ++ naming.digest (workflowRunId ++ "|" ++ qualifier.getD "deploy-approval")

/-! ## Values -/

/-- The identity of a Kubernetes manifest, as `snapshot_from_kubernetes_object` reads it. -/
structure DesiredManifest : Type where
  kind : String
  name : String
  namespaceName : String
  deriving DecidableEq, Repr

/-- `Diff`: the difference of one resource between Git and the cluster. -/
structure Diff : Type where
  resource : String
  namespaceName : String
  desiredImage : String
  actualImage : String
  risk : RiskLevel
  workspaceId : String
  bindingId : String
  applicationId : String
  workflowRunId : String
  environment : String
  clusterId : String
  /-- `none` for an empty manifest -/
  desiredManifest : Option DesiredManifest
  hasChanges : Bool
  /-- `basis.artifact_digest` -/
  artifactDigest : String
  deriving DecidableEq, Repr

def Diff.isImageOnlyNoop (diff : Diff) : Bool :=
  diff.desiredImage ≠ "" && diff.desiredImage = diff.actualImage && diff.desiredManifest.isNone

/-- The identity fields of a diff. -/
def Diff.identity (diff : Diff) : Identity where
  workflowRunId := diff.workflowRunId
  workspaceId := diff.workspaceId
  applicationId := diff.applicationId
  bindingId := diff.bindingId
  environment := diff.environment
  clusterId := diff.clusterId
  commitSha := ""

/-- The approval that `diff-analyze-worker` derives for a diff. -/
def Diff.approvalRef (diff : Diff) : String :=
  deriveApprovalId naming diff.workflowRunId
    (some (resourceApprovalQualifier naming diff.namespaceName diff.resource diff.artifactDigest))

structure CommandRequestedBody : Type where
  clusterId : String
  action : String
  namespaceName : String
  reason : String
  diff : Diff
  workspaceId : String
  applicationId : String
  workflowRunId : String
  bindingId : String
  environment : String
  requestedBy : Option String
  approvalRef : Option String
  policyDecisionRef : Option String
  deriving DecidableEq, Repr

/-- The `details` document of an approval. -/
structure ApprovalDetails : Type where
  diff : Option Diff
  policyDecisionRef : Option String
  /-- the command under `command_requested` when it is an object -/
  commandRequested : Option CommandRequestedBody
  deriving DecidableEq, Repr

/-! ## Rows -/

/-- A row of `workflow_runs`. -/
structure WorkflowRun : Type where
  workflowRunId : String
  workspaceId : String
  applicationId : String
  bindingId : String
  environment : String
  clusterId : String
  commitSha : String
  status : WorkflowRunStatus
  commandId : Option String
  deriving DecidableEq, Repr

/-- The identity fields of a run. -/
def WorkflowRun.identity (run : WorkflowRun) : Identity where
  workflowRunId := run.workflowRunId
  workspaceId := run.workspaceId
  applicationId := run.applicationId
  bindingId := run.bindingId
  environment := run.environment
  clusterId := run.clusterId
  commitSha := run.commitSha

/-- A row of `approvals`. -/
structure Approval : Type where
  approvalId : String
  workflowRunId : String
  workspaceId : String
  applicationId : String
  bindingId : String
  environment : String
  status : ApprovalStatus
  decidedBy : Option String
  details : ApprovalDetails
  expiresAt : Option Timestamp
  deriving DecidableEq, Repr

/-- One item of `result.resources`. -/
structure ResourceResult : Type where
  /-- `none` when it is not a boolean -/
  applied : Option Bool
  status : String
  deriving DecidableEq, Repr

/-- The `result` document of a command. -/
structure CommandResult : Type where
  status : String
  applied : Option Bool
  resources : List ResourceResult
  rolloutReady : Option Bool
  deriving DecidableEq, Repr

/-- A row of `agent_commands`, with what a workflow reads of its payload. -/
structure QueuedCommand : Type where
  commandId : String
  status : CommandStatus
  payload : Identity
  approvalRef : String
  diff : Option Diff
  result : CommandResult
  deriving DecidableEq, Repr

/-- `promotion_gate_from_command_result(result)["eligible"]`. -/
def CommandResult.eligible (result : CommandResult) : Bool :=
  let failedResources := result.resources.filter fun item =>
    item.applied = some false || naming.lower item.status = "failed"
  result.status = "completed" && result.applied ≠ some false && failedResources.isEmpty &&
    result.rolloutReady ≠ some false

/-! ## The store -/

/-- The tables, and the diffs of the resources that were rendered for the runs. -/
structure Store : Type where
  runs : Table WorkflowRun.workflowRunId
  approvals : Table Approval.approvalId
  commands : Table QueuedCommand.commandId
  rendered : List Diff

/-- The empty store. -/
def Store.empty : Store := ⟨.empty, .empty, .empty, []⟩

/-! ## Workflow runs -/

/-- `start_workflow_run`: inserts the run, or moves the stored one forward; `none` when
nothing changes. -/
def Store.startWorkflowRun (s : Store) (run : Identity) (status : WorkflowRunStatus) :
    Option Store :=
  match s.runs.find? run.workflowRunId with
  | none =>
    some { s with
      runs := s.runs.put
        ⟨run.workflowRunId, run.workspaceId, run.applicationId, run.bindingId, run.environment,
          run.clusterId, run.commitSha, status, none⟩ }
  | some row =>
    if workflowTransitionGuard row.status status then
      some { s with
        runs := s.runs.modify run.workflowRunId
          (fun row => { row with status := status, commandId := none }) (fun _ => rfl) }
    else none

/-- `update_workflow_run` with a status, and with the command id when the payload has the
key; `none` when no row is updated. -/
def Store.updateWorkflowRun (s : Store) (workflowRunId : String) (status : WorkflowRunStatus)
    (commandId : Option (Option String)) : Option Store :=
  match s.runs.find? workflowRunId with
  | none => none
  | some row =>
    if workflowTransitionGuard row.status status then
      some { s with
        runs := s.runs.modify workflowRunId
          (fun row => { row with status := status, commandId := commandId.getD row.commandId })
          (fun _ => rfl) }
    else none

def Store.attachWorkflowCommand (s : Store) (workflowRunId commandId : String) : Store :=
  { s with
    runs := s.runs.modify workflowRunId (fun row => { row with commandId := some commandId })
      (fun _ => rfl) }

/-! ## Approvals -/

/-- `request_workflow_approval`: inserts the approval, or replaces what an open one says. -/
def Store.requestWorkflowApproval (s : Store) (approval : Approval) : Store :=
  match s.approvals.find? approval.approvalId with
  | none => { s with approvals := s.approvals.put approval }
  | some row =>
    if row.status.isOpen then
      { s with
        approvals := s.approvals.modify approval.approvalId
          (fun row => { row with
            status := approval.status, decidedBy := approval.decidedBy,
            details := approval.details, expiresAt := approval.expiresAt })
          (fun _ => rfl) }
    else s

/-- `resolve_workflow_approval`: sets the status of the approval, whatever it was. -/
def Store.resolveWorkflowApproval (s : Store) (approvalId : String) (status : ApprovalStatus)
    (decidedBy : Option String) (details : ApprovalDetails) : Store :=
  { s with
    approvals := s.approvals.modify approvalId
      (fun row => { row with status := status, decidedBy := decidedBy, details := details })
      (fun _ => rfl) }

/-- The condition of `resolve_workflow_approval_if_open`. -/
def Approval.resolvable (approval : Approval) (workspaceId : String) (now : Timestamp) : Bool :=
  approval.workspaceId = workspaceId && approval.status.isOpen &&
    approval.expiresAt.all fun expiresAt => now < expiresAt

/-- `resolve_workflow_approval_if_open`: `none` when no open approval is updated. -/
def Store.resolveWorkflowApprovalIfOpen (s : Store) (approvalId workspaceId : String)
    (status : ApprovalStatus) (decidedBy : Option String) (details : ApprovalDetails)
    (now : Timestamp) : Option Store :=
  match s.approvals.find? approvalId with
  | none => none
  | some row =>
    if row.resolvable workspaceId now then
      some (s.resolveWorkflowApproval approvalId status decidedBy details)
    else none

/-! ## Progress of the commands -/

/-- The approvals that `get_workflow_command_progress` returns. -/
def Store.approvalsOf (s : Store) (workflowRunId : String) : List Approval :=
  s.approvals.rows.filter fun row => row.workflowRunId = workflowRunId

/-- The commands that `get_workflow_command_progress` returns. -/
def Store.commandsOf (s : Store) (workflowRunId : String) : List QueuedCommand :=
  s.commands.rows.filter fun row => row.payload.workflowRunId = workflowRunId

/-- What `workflow_command_progress_status` answers. -/
inductive ProgressStatus : Type where
  | waiting
  | failed
  | succeeded
  deriving DecidableEq, Repr

def workflowCommandProgressStatus (approvals : List Approval) (commands : List QueuedCommand) :
    ProgressStatus :=
  if approvals.any fun item => item.status = .rejected then .failed
  else if approvals.any fun item => item.status ≠ .granted then .waiting
  else if !approvals.all fun item => item.approvalId ∈ commands.map QueuedCommand.approvalRef then
    .waiting
  else if commands.isEmpty then .waiting
  else if commands.any fun item => item.status = .failed || item.status = .cancelled then .failed
  else if commands.any fun item => item.status ≠ .completed then .waiting
  else if commands.any fun item => !item.result.eligible naming then .failed
  else .succeeded

/-- The progress of a run in the store. -/
def Store.progress (s : Store) (workflowRunId : String) : ProgressStatus :=
  workflowCommandProgressStatus naming (s.approvalsOf workflowRunId) (s.commandsOf workflowRunId)

/-- The checks of `prepare_approved_resource_snapshots` on one command. -/
def QueuedCommand.snapshotValid (command : QueuedCommand) (run : WorkflowRun) : Bool :=
  match command.diff with
  | none => false
  | some diff =>
    match diff.desiredManifest with
    | none => false
    | some desired =>
      naming.casefold (naming.lower desired.kind ++ "/" ++ desired.name) =
          naming.casefold diff.resource &&
        desired.namespaceName = diff.namespaceName && diff.workflowRunId = run.workflowRunId &&
        diff.workspaceId = run.workspaceId && diff.bindingId = run.bindingId &&
        diff.clusterId = run.clusterId

/-- `record_approved_workflow_snapshots`: how many commands it counts as handled. -/
def Store.recordApprovedWorkflowSnapshots (s : Store) (workflowRunId : String) : ℕ :=
  let approvals := s.approvalsOf workflowRunId
  let commands := s.commandsOf workflowRunId
  let granted := approvals.filter fun row => row.status = .granted
  match s.runs.find? workflowRunId with
  | none => 0
  | some run =>
    if approvals ≠ [] ∧ granted.length ≠ approvals.length then 0
    else if !granted.all fun row => row.approvalId ∈ commands.map QueuedCommand.approvalRef then 0
    else if commands.isEmpty ||
        commands.any fun row => row.status ≠ .completed || !row.result.eligible naming then 0
    else if commands.all fun command => command.snapshotValid naming run then commands.length
    else 0

end Opsia.Gitops
