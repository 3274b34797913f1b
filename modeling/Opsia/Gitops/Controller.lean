import Opsia.Gitops.Store

/-!
# The GitOps handlers

One definition per handler transaction: `services/gitops/workflow-controller/app.py`,
`persist_policy_decision` of `services/gitops/diff-analyze-worker/app.py` and the
approval endpoints of `domains/gitops/router.py`. A handler is given the event the bus
delivers, whatever it is (a redelivery included), and returns the bodies it emits and the
store it commits, or the message of the exception that rolls it back.

Timeline rows, workflow steps and applications are not part of the model. What a handler
learns from them is an input: whether the timeline row was inserted, which application
was stored.
-/

namespace Opsia.Gitops

/-! ## Events -/

/-- `ApprovalGrantedBody` and `ApprovalRejectedBody`. -/
structure ApprovalDecisionBody : Type where
  approvalId : String
  identity : Identity
  decidedBy : Option String
  details : ApprovalDetails
  deriving DecidableEq, Repr

/-- The event bodies that decide something later. -/
inductive EventBody : Type where
  | diffAnalyzed (diff : Diff) (safe : Bool)
  | safePrRequested (diff : Diff)
  | approvalRequested (approvalId : String) (run : Identity)
  | approvalGranted (decision : ApprovalDecisionBody)
  | approvalRejected (decision : ApprovalDecisionBody)
  | commandRequested (command : CommandRequestedBody)
  | workflowRunCompleted (run : Identity)
  | workflowRunFailed (run : Identity)
  deriving DecidableEq, Repr

/-- The outcome of a handler: what it emits and commits, or an exception. -/
abbrev Handled : Type := Except String (List EventBody × Store)

/-- The store after a handler: an exception rolls back. -/
def Handled.commit (s : Store) : Handled → Store
  | .ok (_, s') => s'
  | .error _ => s

/-- The bodies staged by a handler: an exception stages nothing. -/
def Handled.bodies : Handled → List EventBody
  | .ok (bodies, _) => bodies
  | .error _ => []

variable (naming : Naming)

/-! ## Runs -/

/-- The run of an event after `upsert_application` answered with the stored application. -/
def canonicalRun (identity : Identity) (canonicalApplicationId : Option String) : Identity :=
  let run := normalizePayload naming identity
  match canonicalApplicationId with
  | none => run
  | some applicationId =>
    if applicationId ≠ run.applicationId then
      { run with
        applicationId := applicationId
        workflowRunId := deriveWorkflowRunId naming
          { run with applicationId := applicationId, workflowRunId := "" } }
    else run

def ensureRun (s : Store) (identity : Identity) (canonicalApplicationId : Option String)
    (status : WorkflowRunStatus) (inserted : Bool) : Option Identity × Store :=
  let run := canonicalRun naming identity canonicalApplicationId
  match s.startWorkflowRun run status with
  | none => (none, s)
  | some s' => (if inserted then some run else none, s')

def transitionRun (s : Store) (identity : Identity) (status : WorkflowRunStatus)
    (commandId : Option (Option String)) (inserted : Bool) : Option Identity × Store :=
  let run := normalizePayload naming identity
  match s.updateWorkflowRun run.workflowRunId status commandId with
  | none => (none, s)
  | some s' => (if inserted then some run else none, s')

def workflowRunIdentityIsPersisted (s : Store) (run : Identity) : Bool :=
  match s.runs.find? run.workflowRunId with
  | none => false
  | some row =>
    row.workspaceId = run.workspaceId && row.applicationId = run.applicationId &&
      row.bindingId = run.bindingId && row.environment = run.environment &&
      (run.commitSha = "" || row.commitSha = run.commitSha)

/-- A handler that transitions the run and emits one body when it did. -/
def transitionAndEmit (s : Store) (identity : Identity) (status : WorkflowRunStatus)
    (commandId : Option (Option String)) (inserted : Bool) (body : Identity → List EventBody) :
    Handled :=
  match transitionRun naming s identity status commandId inserted with
  | (none, s') => .ok ([], s')
  | (some run, s') => .ok (body run, s')

/-! ## Recovery merges -/

/-- The stored recovery plan of a diff: whether the plan, its pull request and its
deployment request agree with the diff and the run. -/
structure RecoveryPlan : Type where
  agrees : WorkflowRun → Bool

/-- The run statuses that `exact_merged_recovery_request` admits. -/
def WorkflowRunStatus.admitsRecovery : WorkflowRunStatus → Bool
  | .started | .rendering | .diffing | .policyChecking | .waitingForApproval => true
  | .applying | .rolloutWaiting | .succeeded | .failed => false

/-- The request of `recovery_merge_authorization` is there: the plan is tracked and
authorises the diff. -/
def recoveryAuthorized (s : Store) (diff : Diff) : Option RecoveryPlan → Bool
  | none => false
  | some plan =>
    match s.runs.find? diff.workflowRunId with
    | none => false
    | some run => run.status.admitsRecovery && plan.agrees run

/-! ## Policy -/

def policyDecisionRef (approvalRef route : String) : String :=
  "policy-decision:" ++ approvalRef ++ ":" ++ route

structure PolicyDecision : Type where
  route : String
  safe : Bool
  approvalRef : Option String
  policyDecisionRef : Option String
  deriving DecidableEq, Repr

def evaluateSafePrPolicy (diff : Diff) : PolicyDecision :=
  if diff.isImageOnlyNoop || !diff.hasChanges then ⟨"noop", false, none, none⟩
  else
    let approvalRef := diff.approvalRef naming
    if diff.risk = .sandboxOnly then
      ⟨"safe_pr", true, some approvalRef, some (policyDecisionRef approvalRef "safe_pr")⟩
    else
      ⟨"approval_required", false, some approvalRef,
        some (policyDecisionRef approvalRef "approval_required")⟩

/-- The decision that `on_desired_diff` takes for a merged recovery. -/
def recoveryDecision (diff : Diff) : PolicyDecision :=
  let approvalRef := diff.approvalRef naming
  ⟨"recovery_pr_merged", false, some approvalRef,
    some (policyDecisionRef approvalRef "recovery_pr_merged")⟩

/-- The approval row that `persist_policy_decision` writes. -/
def policyApproval (diff : Diff) (decision : PolicyDecision) (approvalRef : String) : Approval where
  approvalId := approvalRef
  workflowRunId := deriveWorkflowRunId naming diff.identity
  workspaceId := diff.workspaceId
  applicationId := diff.applicationId
  bindingId := diff.bindingId
  environment := diff.environment
  status := if decision.route = "safe_pr" then .notRequired else .requested
  decidedBy := none
  details := ⟨some diff, decision.policyDecisionRef, none⟩
  expiresAt := none

def persistPolicyDecision (s : Store) (diff : Diff) (decision : PolicyDecision) : Store :=
  match decision.approvalRef with
  | none => s
  | some approvalRef =>
    let approval := policyApproval naming diff decision approvalRef
    let requested := s.requestWorkflowApproval approval
    if decision.route = "safe_pr" then
      requested.resolveWorkflowApproval approvalRef .granted (some "system-policy") approval.details
    else requested

/-- `on_desired_diff` of `diff-analyze-worker`. -/
def onDesiredDiff (s : Store) (diff : Diff) (plan : Option RecoveryPlan) : Handled :=
  let authorized := recoveryAuthorized s diff plan
  if plan.isSome && !authorized then .ok ([.diffAnalyzed diff false], s)
  else
    let decision :=
      if authorized then recoveryDecision naming diff else evaluateSafePrPolicy naming diff
    .ok (.diffAnalyzed diff decision.safe ::
        (if decision.route = "safe_pr" then [.safePrRequested diff] else []),
      persistPolicyDecision naming s diff decision)

/-! ## The approval endpoints -/

/-- The approval an endpoint may decide: `approval_record_or_404`,
`ensure_approval_is_open`, `approval_diff`, `require_approval_deploy_access`. -/
def decidableApproval (s : Store) (approvalId workspaceId : String) (deployAccess : Bool) :
    Except String (Approval × Diff) :=
  match s.approvals.find? approvalId with
  | none => .error "approval not found"
  | some record =>
    if record.workspaceId ≠ workspaceId then .error "approval not found"
    else if !record.status.isOpen then .error "approval already resolved"
    else
      match record.details.diff with
      | none => .error "approval diff is missing"
      | some diff =>
        if deployAccess then .ok (record, diff) else .error "approval access denied"

def approvalCommandRequest (record : Approval) (diff : Diff) (reason : Option String)
    (userId : String) : CommandRequestedBody where
  clusterId := if diff.clusterId ≠ "" then diff.clusterId else "default-target-cluster"
  action := "apply_manifest"
  namespaceName := if diff.namespaceName ≠ "" then diff.namespaceName else "sandbox"
  reason := reason.getD "approval granted"
  diff := diff
  workspaceId := record.workspaceId
  applicationId := record.applicationId
  workflowRunId := record.workflowRunId
  bindingId := record.bindingId
  environment := record.environment
  requestedBy := some userId
  approvalRef := some record.approvalId
  policyDecisionRef := some
    (record.details.policyDecisionRef.getD ("approval:" ++ record.approvalId ++ ":granted"))

/-- The identity that an endpoint puts into its event. -/
def Approval.identity (record : Approval) : Identity where
  workflowRunId := record.workflowRunId
  workspaceId := record.workspaceId
  applicationId := record.applicationId
  bindingId := record.bindingId
  environment := record.environment
  clusterId := ""
  commitSha := ""

def grantApproval (s : Store) (approvalId workspaceId userId : String) (reason : Option String)
    (deployAccess : Bool) (now : Timestamp) : Handled :=
  match decidableApproval s approvalId workspaceId deployAccess with
  | .error detail => .error detail
  | .ok (record, diff) =>
    let command := approvalCommandRequest record diff reason userId
    let details := { record.details with commandRequested := some command }
    match s.resolveWorkflowApprovalIfOpen approvalId workspaceId .granted (some userId) details
      now with
    | none => .error "approval already resolved"
    | some s' => .ok ([.approvalGranted ⟨approvalId, record.identity, some userId, details⟩], s')

def rejectApproval (s : Store) (approvalId workspaceId userId : String) (deployAccess : Bool)
    (now : Timestamp) : Handled :=
  match decidableApproval s approvalId workspaceId deployAccess with
  | .error detail => .error detail
  | .ok (record, _) =>
    match s.resolveWorkflowApprovalIfOpen approvalId workspaceId .rejected (some userId)
      record.details now with
    | none => .error "approval already resolved"
    | some s' =>
      .ok ([.approvalRejected ⟨approvalId, record.identity, some userId, record.details⟩], s')

/-! ## The workflow controller -/

/-- `approval_payload`: the approval that the controller names for a diff. -/
def approvalPayloadId (run : Identity) (diff : Diff) : String :=
  let resource := PyText.strip diff.resource
  deriveApprovalId naming run.workflowRunId
    (if resource ≠ "" then
      some (resourceApprovalQualifier naming (PyText.strip diff.namespaceName) resource
        (PyText.strip diff.artifactDigest))
    else none)

def mergedRecoveryCommand (diff : Diff) (approvalRef decisionRef : String) :
    CommandRequestedBody where
  clusterId := diff.clusterId
  action := "apply_manifest"
  namespaceName := diff.namespaceName
  reason := "operator-reviewed recovery PR merged"
  diff := diff
  workspaceId := diff.workspaceId
  applicationId := diff.applicationId
  workflowRunId := diff.workflowRunId
  bindingId := diff.bindingId
  environment := diff.environment
  requestedBy := some "recovery-pr-merge"
  approvalRef := some approvalRef
  policyDecisionRef := some decisionRef

/-- The branch of `on_diff_analyzed` for a merged recovery. -/
def dispatchRecovery (s : Store) (diff : Diff) (now : Timestamp) (inserted : Bool) : Handled :=
  let run := normalizePayload naming diff.identity
  let approvalRef := approvalPayloadId naming run diff
  let decisionRef := policyDecisionRef approvalRef "recovery_pr_merged"
  let command := mergedRecoveryCommand diff approvalRef decisionRef
  let details : ApprovalDetails := ⟨some diff, some decisionRef, some command⟩
  match s.resolveWorkflowApprovalIfOpen approvalRef run.workspaceId .granted
    (some "recovery-pr-merge") details now with
  | none => .ok ([], s)
  | some resolved =>
    match transitionRun naming resolved run .applying none inserted with
    | (none, _) => .error "merged recovery approval could not advance workflow"
    | (some _, s') => .ok ([.commandRequested command], s')

def onDiffAnalyzed (s : Store) (diff : Diff) (safe : Bool) (plan : Option RecoveryPlan)
    (now : Timestamp) (inserted : Bool) : Handled :=
  let run := normalizePayload naming diff.identity
  let authorized := recoveryAuthorized s diff plan
  if diff.isImageOnlyNoop then
    transitionAndEmit naming s run .succeeded none inserted fun run => [.workflowRunCompleted run]
  else if plan.isSome && !authorized then .ok ([], s)
  else if authorized then dispatchRecovery naming s diff now inserted
  else if safe then transitionAndEmit naming s run .applying none inserted fun _ => []
  else
    transitionAndEmit naming s run .waitingForApproval none inserted fun run =>
      [.approvalRequested (approvalPayloadId naming run diff) run]

def onApprovalGranted (s : Store) (evt : ApprovalDecisionBody) (inserted : Bool) : Handled :=
  let resolved := s.resolveWorkflowApproval evt.approvalId .granted evt.decidedBy evt.details
  let applying := transitionRun naming resolved evt.identity .applying none inserted
  .ok ((evt.details.commandRequested.map EventBody.commandRequested).toList, applying.2)

def onApprovalRejected (s : Store) (evt : ApprovalDecisionBody) (inserted : Bool) : Handled :=
  let resolved := s.resolveWorkflowApproval evt.approvalId .rejected evt.decidedBy evt.details
  transitionAndEmit naming resolved evt.identity .failed none inserted fun run =>
    [.workflowRunFailed run]

def onCommandQueued (s : Store) (identity : Identity) (commandId : String) (inserted : Bool) :
    Handled :=
  let run := normalizePayload naming identity
  if workflowRunIdentityIsPersisted s run then
    transitionAndEmit naming (s.attachWorkflowCommand run.workflowRunId commandId) run
      .rolloutWaiting (some (some commandId)) inserted fun _ => []
  else .ok ([], s)

/-- The run of a command: `get_workflow_identity_for_command` picks one of the runs that
point at it, else reads the payload of the queued command. -/
def workflowIdentityForCommand (s : Store) (commandId : String) (pick : ℕ) : Option Identity :=
  let runs := s.runs.rows.filter fun row => row.commandId = some commandId
  match runs[pick]?.or runs.head? with
  | some row => some row.identity
  | none =>
    match s.commands.find? commandId with
    | none => none
    | some command =>
      if command.payload.workflowRunId = "" ∨ command.payload.applicationId = "" then none
      else some command.payload

/-- The status that `on_command_completed` gives the run, `none` while it waits. -/
def completedStatus (s : Store) (workflowRunId : String) : Option WorkflowRunStatus :=
  match s.progress naming workflowRunId with
  | .waiting => none
  | .failed => some .failed
  | .succeeded =>
    if s.recordApprovedWorkflowSnapshots naming workflowRunId <
        (s.commandsOf workflowRunId).length then some .failed
    else some .succeeded

def onCommandCompleted (s : Store) (commandId : String) (pick : ℕ) (inserted : Bool) : Handled :=
  match workflowIdentityForCommand s commandId pick with
  | none => .ok ([], s)
  | some identity =>
    let run := normalizePayload naming identity
    match completedStatus naming s run.workflowRunId with
    | none => .ok ([], s)
    | some status =>
      transitionAndEmit naming (s.attachWorkflowCommand run.workflowRunId commandId) run status
        (some (some commandId)) inserted fun run =>
          if status = .succeeded then [.workflowRunCompleted run] else [.workflowRunFailed run]

/-! ## The system -/

/-- One transaction of a handler, an endpoint or a store. -/
inductive Action : Type where
  /-- `on_git_webhook` -/
  | gitWebhook (identity : Identity) (canonicalApplicationId : Option String) (inserted : Bool)
  /-- `on_git_changed`, `bound` when the binding is registered and active -/
  | gitChanged (identity : Identity) (canonicalApplicationId : Option String)
      (bound inserted : Bool)
  /-- `on_git_changed` of `manifest-render-worker`: the resources of the commit, with the
  diffs they will be analysed with -/
  | render (diffs : List Diff)
  /-- `on_manifest_rendered` -/
  | manifestRendered (identity : Identity) (inserted : Bool)
  /-- `on_manifest_invalid` -/
  | manifestInvalid (identity : Identity) (canonicalApplicationId : Option String)
      (inserted : Bool)
  /-- `on_diff_detected` -/
  | diffDetected (diff : Diff) (inserted : Bool)
  /-- `on_desired_diff` of `diff-analyze-worker` -/
  | desiredDiff (diff : Diff) (plan : Option RecoveryPlan)
  /-- `on_diff_analyzed` -/
  | diffAnalyzed (diff : Diff) (safe : Bool) (plan : Option RecoveryPlan) (now : Timestamp)
      (inserted : Bool)
  /-- `on_safe_pr_failed` -/
  | safePrFailed (identity : Identity) (inserted : Bool)
  /-- `grant_approval` of the router -/
  | grant (approvalId workspaceId userId : String) (reason : Option String)
      (deployAccess : Bool) (now : Timestamp)
  /-- `reject_approval` of the router -/
  | reject (approvalId workspaceId userId : String) (deployAccess : Bool) (now : Timestamp)
  /-- `on_approval_granted` -/
  | approvalGranted (evt : ApprovalDecisionBody) (inserted : Bool)
  /-- `on_approval_rejected` -/
  | approvalRejected (evt : ApprovalDecisionBody) (inserted : Bool)
  /-- `on_command_queued` -/
  | commandQueued (identity : Identity) (commandId : String) (inserted : Bool)
  /-- `on_command_rejected`; the requested body may carry a command id -/
  | commandRejected (requested : Identity) (commandId : Option (Option String))
      (inserted : Bool)
  /-- `on_command_completed` -/
  | commandCompleted (commandId : String) (pick : ℕ) (inserted : Bool)
  /-- a transaction of the command store, whatever it leaves in the table -/
  | commandStore (commands : Table QueuedCommand.commandId)

/-- What the transaction of an action emits and commits. -/
def handle (s : Store) : Action → Handled
  | .gitWebhook identity canonical inserted =>
    .ok ([], (ensureRun naming s identity canonical .started inserted).2)
  | .gitChanged identity canonical bound inserted =>
    .ok ([], if bound then (ensureRun naming s identity canonical .rendering inserted).2 else s)
  | .render diffs => .ok ([], { s with rendered := s.rendered ++ diffs })
  | .manifestRendered identity inserted =>
    transitionAndEmit naming s identity .diffing none inserted fun _ => []
  | .manifestInvalid identity canonical inserted =>
    let started := ensureRun naming s identity canonical .failed inserted
    .ok ((started.1.map EventBody.workflowRunFailed).toList, started.2)
  | .diffDetected diff inserted =>
    transitionAndEmit naming s diff.identity .policyChecking none inserted fun _ => []
  | .desiredDiff diff plan => onDesiredDiff naming s diff plan
  | .diffAnalyzed diff safe plan now inserted => onDiffAnalyzed naming s diff safe plan now inserted
  | .safePrFailed identity inserted =>
    transitionAndEmit naming s identity .failed none inserted fun run => [.workflowRunFailed run]
  | .grant approvalId workspaceId userId reason deployAccess now =>
    grantApproval s approvalId workspaceId userId reason deployAccess now
  | .reject approvalId workspaceId userId deployAccess now =>
    rejectApproval s approvalId workspaceId userId deployAccess now
  | .approvalGranted evt inserted => onApprovalGranted naming s evt inserted
  | .approvalRejected evt inserted => onApprovalRejected naming s evt inserted
  | .commandQueued identity commandId inserted => onCommandQueued naming s identity commandId inserted
  | .commandRejected requested commandId inserted =>
    transitionAndEmit naming s requested .failed commandId inserted fun run =>
      [.workflowRunFailed run]
  | .commandCompleted commandId pick inserted => onCommandCompleted naming s commandId pick inserted
  | .commandStore commands => .ok ([], { s with commands := commands })

/-- The store after the transaction. -/
def step (s : Store) (action : Action) : Store := (handle naming s action).commit s

/-- The bodies that the transaction stages. -/
def emits (s : Store) (action : Action) : List EventBody := (handle naming s action).bodies

end Opsia.Gitops
