import Opsia.Lib.Runs
import Opsia.Recovery.Handlers

/-!
# The recovery of an incident

The plans of a workspace with everything that writes them. A handler or a request reads a
row in one statement, decides, and writes in another one; between the two any other writer
may come. The worker gets its deployment events at least once, and an instance that dies
forgets what it has read.
-/

namespace Opsia.Recovery

variable (env : RecoveryEnv)

/-! ## State -/

/-- What a deployment event says. -/
inductive DeployOutcome : Type where
  /-- `WorkflowRunCompletedBody` -/
  | completed
  /-- `WorkflowRunFailedBody` -/
  | failed (reason : String)
  /-- `RecoveryPrMergedBody` -/
  | merged
  deriving DecidableEq

/-- An event about the deployment of a merge. -/
structure DeployEvent : Type where
  workflowRunId : String
  bindingId : String
  applicationId : String
  outcome : DeployOutcome
  deriving DecidableEq

/-- What the writers send besides deployment events. -/
inductive RecoveryEvent : Type where
  /-- `RecoveryActionSelectedBody`, with the attempt that its transaction stores -/
  | actionSelected (planId : String) (attemptId : Option String)
      (selected : RecoveryActionCandidate)
  | prTracked (planId url : String)
  /-- `GitWebhookReceivedBody` -/
  | deploymentRequested (request : DeploymentRequest)
  | verificationStarted (planId workflowRunId : String)
  | verificationUpdated (planId : String) (status : DecisionStatus) (reasonCode evidenceRef : String)
  | verificationFailed (planId reasonCode : String)
  | incidentResolved (planId evidenceRef : String)
  | retryRequested (planId stage : String) (attempt : ℕ)
  | followupRequired (planId reasonCode : String)
  deriving DecidableEq

/-- What an instance has read. -/
inductive Work : Type where
  /-- a request with a plan -/
  | plan (record : RecoveryPlanRecord)
  /-- a request that has stored its approval for the next attempt at a Safe PR -/
  | reselect (record : RecoveryPlanRecord) (selected : RecoveryActionCandidate)
      (requestedBy reason : String) (now : ℤ)
  | createdPr (event : SafePrCreated) (record : RecoveryPlanRecord)
      (approval : Option RecoveryApproval)
  | failedPr (event : SafePrFailed) (record : RecoveryPlanRecord)
  /-- a webhook, before the second lookup and after it -/
  | pullRequest (webhook : PullRequestWebhook) (base : RecoveryPlanRecord)
      (exact : Option (Option RecoveryPlanRecord))
  | deploy (event : DeployEvent) (record : RecoveryPlanRecord)
  /-- an evidence window with the plans that are still to be judged -/
  | evidence (window : EvidenceWindow) (now : ℤ) (records : List RecoveryPlanRecord)

/-- An instance at work. -/
structure Session : Type where
  id : ℕ
  work : Work

/-- The tables, the instances at work and the events. -/
structure RecoveryState : Type where
  plans : RecoveryPlans
  approvals : RecoveryApprovals
  runs : Table Gitops.WorkflowRun.workflowRunId
  sessions : Table Session.id
  /-- the deployment events that the worker has not acknowledged -/
  inbox : List DeployEvent
  outbox : List RecoveryEvent
  /-- the number of the next transaction -/
  xid : ℕ

/-- A state without plans. -/
def RecoveryState.empty : RecoveryState :=
  ⟨Table.empty, Table.empty, Table.empty, Table.empty, [], [], 0⟩

namespace RecoveryState

/-- The work of an instance. -/
def work? (s : RecoveryState) (h : ℕ) : Option Work := (s.sessions.find? h).map Session.work

/-- The instance has read something. -/
def begin (s : RecoveryState) (h : ℕ) (work : Work) : RecoveryState :=
  { s with sessions := s.sessions.put ⟨h, work⟩ }

/-- The instance is done. -/
def finish (s : RecoveryState) (h : ℕ) : RecoveryState :=
  { s with sessions := s.sessions.erase h }

/-- The transaction that comes next. -/
def next (s : RecoveryState) (now : ℤ) : Transaction := ⟨s.xid, now⟩

/-- A transaction that writes plans and sends events. -/
def commit (s : RecoveryState) (plans : RecoveryPlans) (events : List RecoveryEvent) :
    RecoveryState :=
  { s with
    plans := plans
    outbox := s.outbox ++ events
    xid := s.xid + 1 }

/-- `update_recovery_plan_lifecycle_if_status` with the events of its transaction; `none`
without a row to write. -/
def update? (s : RecoveryState) (now : ℤ) (planId : String) (expected status : RecoveryPlanStatus)
    (lifecycle : Lifecycle) (clearSelection : Bool) (events : List RecoveryEvent) :
    Option RecoveryState :=
  (updateRecoveryPlanLifecycleIfStatus (s.next now) s.plans planId [expected] status lifecycle
    clearSelection).map fun (plans, _) => s.commit plans events

/-- The same; without a row nothing is sent. -/
def update (s : RecoveryState) (now : ℤ) (planId : String) (expected status : RecoveryPlanStatus)
    (lifecycle : Lifecycle) (clearSelection : Bool) (events : List RecoveryEvent) : RecoveryState :=
  (s.update? now planId expected status lifecycle clearSelection events).getD s

/-- More events for the worker. -/
def tell (s : RecoveryState) (events : List DeployEvent) : RecoveryState :=
  { s with inbox := s.inbox ++ events }

end RecoveryState

open RecoveryState

/-! ## Selecting -/

/-- `upsert_recovery_plan` of the workers; with a candidate it has been selected
automatically. -/
def planRecovery (s : RecoveryState) (correlationId : String) (plan : RecoveryPlan)
    (selected : Option RecoveryActionCandidate) (now : ℤ) : RecoveryState :=
  match selected with
  | none =>
    s.commit (upsertRecoveryPlan (s.next now) s.plans correlationId plan .selectionRequested none
      none) []
  | some candidate =>
    s.commit (upsertRecoveryPlan (s.next now) s.plans correlationId plan .selected
      (some candidate.actionId) (some "agent-select"))
      [.actionSelected plan.planId none candidate]

/-- The candidate that `_select_recovery_action_from_record` approves: `params` are those that
the preflight has prepared. -/
def approvedSelection (plan : RecoveryPlan) (actionId : Option String) (params : Json) :
    Option RecoveryActionCandidate :=
  (candidateByActionId plan ((actionId.bind nonempty?).getD plan.recommendedActionId)).map
    fun candidate =>
      let prepared :=
        if candidate.route ∈ preflightRequiredRoutes then candidate.withParams params
        else candidate
      candidateWithApproval prepared (env.recoveryApprovalId plan.planId prepared.actionId)

/-- The approval of a selection. -/
def selectionApproval (plan : RecoveryPlan) (selected : RecoveryActionCandidate)
    (selectedBy : String) (reason : Option String) : RecoveryApproval :=
  recoveryApprovalPayload env plan selected (env.recoveryApprovalId plan.planId selected.actionId)
    selectedBy
    ((reason.bind nonempty?).getD ("operator selected recovery action: " ++ selected.title))

/-- The identity of the attempt that a transaction stores. -/
def attemptId (xid : ℕ) : String := "recovery-attempt-" ++ env.uuid xid

/-- `_select_recovery_action_from_record`. -/
def selectRecoveryAction (s : RecoveryState) (h : ℕ) (actionId : Option String) (params : Json)
    (selectedBy : String) (reason : Option String) (now : ℤ) : Option RecoveryState :=
  match s.work? h with
  | some (.plan record) =>
    let plan := record.plan
    (approvedSelection env plan actionId params).bind fun selected =>
      let approval := selectionApproval env plan selected selectedBy reason
      (selectRecoveryPlanActionIfOpen (s.next now) (attemptId env s.xid) s.plans plan.planId
        selected.actionId selectedBy).map fun (plans, _) =>
          { (s.finish h).commit plans
              [.actionSelected plan.planId (some (attemptId env s.xid))
                (candidateWithApprovalIdentity selected approval.workflowRunId)] with
            approvals := requestWorkflowApproval s.approvals approval }
  | _ => none

/-- `reopen_recovery_plan_action`, after a dispatch that failed and can be repeated. -/
def reopenRecovery (s : RecoveryState) (planId actionId reasonCode : String) (now : ℤ) :
    Option RecoveryState :=
  (reopenRecoveryPlanAction (s.next now) s.plans planId actionId).map fun plans =>
    s.commit plans [.followupRequired planId reasonCode]

/-! ## Pull requests -/

/-- The reads of `on_recovery_safe_pr_created`. -/
def receiveCreatedPr (s : RecoveryState) (h : ℕ) (event : SafePrCreated) : Option RecoveryState := do
  let record ← (PlanQuery.byCorrelation event.correlationId).run env.casefold s.plans
  let selected ← selectedRecoveryCandidate record
  if record.status = .selected && PyText.strip selected.route = safePrRoute then
    some (s.begin h (.createdPr event record (recoveryApprovalRecord env s.approvals record)))
  else none

/-- The rest of `on_recovery_safe_pr_created`. -/
def trackCreatedPr (s : RecoveryState) (h : ℕ) (collected : Json) (now : ℤ) :
    Option RecoveryState :=
  match s.work? h with
  | some (.createdPr event record approval) =>
    (selectedRecoveryCandidate record).map fun selected =>
      let params := selectedCandidateParams approval
      match safePrIdentityError event params with
      | some _ =>
        (reopenRecovery (s.finish h) record.planId (record.selectedActionId.getD "")
          "safe_pr_identity_incomplete" now).getD (s.finish h)
      | none =>
        (s.finish h).update now record.planId .selected .prOpen
          (trackedLifecycle env record selected params event collected now) false
          [.prTracked record.planId event.prUrl]
  | _ => none

/-- The reads of `on_recovery_safe_pr_failed`. -/
def receiveFailedPr (s : RecoveryState) (h : ℕ) (event : SafePrFailed) : Option RecoveryState := do
  let record ← (PlanQuery.byCorrelation event.correlationId).run env.casefold s.plans
  let (planId, actionId) ← failedSafePrRecoveryIdentity env s.approvals record event
  if PyText.strip record.planId = planId && record.status = .selected &&
      PyText.strip (record.selectedActionId.getD "") = actionId then
    some (s.begin h (.failedPr event record))
  else none

/-- The write of `on_recovery_safe_pr_failed`. -/
def failCreatedPr (s : RecoveryState) (h : ℕ) (now : ℤ) : Option RecoveryState :=
  match s.work? h with
  | some (.failedPr event record) =>
    some ((s.finish h).update now record.planId .selected .failed
      (safePrFailedLifecycle record.lifecycle event) false
      [.followupRequired record.planId event.reasonCode])
  | _ => none

/-- The first lookup of `handle_tracked_recovery_pull_request`. -/
def receivePullRequest (s : RecoveryState) (h : ℕ) (webhook : PullRequestWebhook) :
    Option RecoveryState :=
  ((PlanQuery.byPullRequestBase webhook.identity).run env.casefold s.plans).map fun base =>
    s.begin h (.pullRequest webhook base none)

/-- The second lookup of `handle_tracked_recovery_pull_request`. -/
def matchPullRequest (s : RecoveryState) (h : ℕ) : Option RecoveryState :=
  match s.work? h with
  | some (.pullRequest webhook base none) =>
    some (s.begin h (.pullRequest webhook base
      (some ((PlanQuery.byPullRequest webhook.identity).run env.casefold s.plans))))
  | _ => none

/-- The write of `handle_tracked_recovery_pull_request`. -/
def answerPullRequest (s : RecoveryState) (h : ℕ) (targets : List PollTarget) (image : String)
    (now : ℤ) : Option RecoveryState :=
  match s.work? h with
  | some (.pullRequest webhook base exact) =>
    -- only a merge needs the second lookup
    if exact.isNone && webhook.action = "closed" && webhook.merged then none
    else
      some (answerDecision (s.finish h) now
        (handleTrackedRecoveryPullRequest env webhook base exact.join targets image now))
  | _ => none
where
  /-- The write of a decision. -/
  answerDecision (s : RecoveryState) (now : ℤ) : PullRequestDecision → RecoveryState
    | .ignore => s
    | .reject record reasonCode reason =>
      s.update now record.planId .prOpen .selectionRequested
        (rejectedLifecycle record.lifecycle reasonCode reason) true
        [.verificationFailed record.planId reasonCode]
    | .merge record lifecycle request =>
      -- the merge is told to the worker in the transaction that stores it
      let told := lifecycle.merge.map fun merge =>
        ⟨merge.workflowRunId, merge.bindingId, merge.applicationId, .merged⟩
      ((s.update? now record.planId .prOpen .deployPending lifecycle false
        [.deploymentRequested request]).map fun next => next.tell told.toList).getD s

/-! ## Deployments -/

/-- The run that a request is carried out by. -/
def runOf (request : DeploymentRequest) : Gitops.WorkflowRun where
  workflowRunId := request.workflowRunId
  workspaceId := request.workspaceId
  applicationId := request.applicationId
  bindingId := request.bindingId
  environment := request.environment
  clusterId := request.clusterId
  commitSha := request.commitSha
  status := .started
  commandId := none

/-- A request is carried out: its run is created, if it is not there. -/
def startRun (s : RecoveryState) (request : DeploymentRequest) : Option RecoveryState :=
  if .deploymentRequested request ∈ s.outbox then
    some { s with runs := s.runs.insertIfAbsent (runOf request) }
  else none

/-- The event that tells the end of a run. -/
def endOf (run : Gitops.WorkflowRun) (status : Gitops.WorkflowRunStatus) (reason : String) :
    DeployEvent :=
  ⟨run.workflowRunId, run.bindingId, run.applicationId,
    if status = .succeeded then .completed else .failed reason⟩

/-- A run moves on; its end is told to the worker in the same transaction. -/
def moveRun (s : RecoveryState) (workflowRunId : String) (status : Gitops.WorkflowRunStatus)
    (reason : String) : Option RecoveryState :=
  (s.runs.find? workflowRunId).bind fun run =>
    if Gitops.workflowTransitionGuard run.status status then
      some
        { s with
          runs := s.runs.modify workflowRunId (fun run => { run with status := status })
            (fun _ => rfl)
          inbox := s.inbox ++ if status.isTerminal then [endOf run status reason] else [] }
    else none

/-- The read of the handlers of deployment events; without a plan the event is
acknowledged. -/
def receiveDeploy (s : RecoveryState) (h : ℕ) (event : DeployEvent) : Option RecoveryState :=
  if event ∈ s.inbox then
    match (PlanQuery.byWorkflow event.workflowRunId event.bindingId event.applicationId).run
        env.casefold s.plans with
    | some record => some (s.begin h (.deploy event record))
    | none => some { s with inbox := s.inbox.erase event }
  else none

/-- `start_recovery_verification` and `on_recovery_deploy_failed`, on the row that was
read. A run that is over stays as it is, so that it may be read with the write. -/
def answerDeployEvent (s : RecoveryState) (event : DeployEvent) (record : RecoveryPlanRecord)
    (now : ℤ) : RecoveryState :=
  if record.status ≠ .deployPending then s
  else
    match event.outcome with
    | .failed reason =>
      s.update now record.planId .deployPending .failed
        (deployFailedLifecycle record.lifecycle event.workflowRunId reason) false
        [.verificationFailed record.planId "recovery_deploy_failed"]
    | .completed | .merged =>
      if (s.runs.find? event.workflowRunId).any fun run => record.lifecycle.merge.any fun merge =>
          deployedBy env merge event.workflowRunId event.bindingId event.applicationId run then
        s.update now record.planId .deployPending .verificationPending
          (startedLifecycle record.lifecycle now) false
          [.verificationStarted record.planId event.workflowRunId]
      else s

/-- The write of the handlers of deployment events; the event is acknowledged, or else it is
delivered again. -/
def answerDeploy (s : RecoveryState) (h : ℕ) (now : ℤ) (acknowledged : Bool) :
    Option RecoveryState :=
  match s.work? h with
  | some (.deploy event record) =>
    let next := answerDeployEvent env (s.finish h) event record now
    some { next with inbox := if acknowledged then next.inbox.erase event else next.inbox }
  | _ => none

/-! ## Verification -/

/-- The reads of `on_recovery_verification_evidence`. -/
def receiveEvidence (s : RecoveryState) (h : ℕ) (window : EvidenceWindow) (clusterId : String)
    (now : ℤ) : RecoveryState :=
  s.begin h (.evidence window now (listRecoveryVerificationPlans s.plans clusterId 100))

/-- The events that follow a decision. -/
def decisionEvents (planId evidenceRef : String) (decision : VerificationDecision) :
    List RecoveryEvent :=
  .verificationUpdated planId decision.status decision.reasonCode evidenceRef ::
    match decision.status with
    | .pending => []
    | .failed => [.verificationFailed planId decision.reasonCode]
    | .completed => [.incidentResolved planId evidenceRef]

/-- One round of the loop of `on_recovery_verification_evidence`. -/
def judgePlan (s : RecoveryState) (window : EvidenceWindow) (record : RecoveryPlanRecord)
    (alerts : List Json) (now writtenAt : ℤ) : RecoveryState :=
  let decision := judge env.assessment record.plan record.lifecycle.verificationOrEmpty window
    alerts now
  s.update writtenAt record.planId .verificationPending decision.status.planStatus
    (judgedLifecycle record.lifecycle window decision) false
    (decisionEvents record.planId window.evidenceRef decision)

/-- The next round of the loop, at the time of its write. -/
def judgeNext (s : RecoveryState) (h : ℕ) (alerts : List Json) (writtenAt : ℤ) :
    Option RecoveryState :=
  match s.work? h with
  | some (.evidence window now (record :: records)) =>
    some (judgePlan env (s.begin h (.evidence window now records)) window record alerts now
      writtenAt)
  | _ => none

/-- The row that `expire_recovery_verifications` writes. -/
def expiredRecord (tx : Transaction) (record : RecoveryPlanRecord) : RecoveryPlanRecord :=
  { record with
    status := .failed
    lifecycle := expiredLifecycle record.lifecycle tx.now
    updatedAt := tx.now
    xmin := tx.xid }

/-- The time that a verification has to be over. -/
def RecoveryPlanRecord.deadline (record : RecoveryPlanRecord) : Option ℤ :=
  record.lifecycle.verification.bind Verification.deadlineAt

/-- The rows that `expire_recovery_verifications` takes, without those that other
transactions have locked. -/
def overdue (plans : RecoveryPlans) (locked : List String) (limit : ℕ) (now : ℤ) :
    List RecoveryPlanRecord :=
  let rows := plans.rows.filter fun record =>
    record.status = .verificationPending && record.deadline.any (· ≤ now) &&
      record.planId ∉ locked
  let position (record : RecoveryPlanRecord) : ℤ ×ₗ ℕ :=
    toLex (record.deadline.getD 0, record.serial)
  (rows.insertionSort fun a b => position a ≤ position b).take (max 1 (min limit 500))

def expireRecoveryVerifications (s : RecoveryState) (locked : List String) (limit : ℕ) (now : ℤ) :
    RecoveryState :=
  let rows := overdue s.plans locked limit now
  s.commit
    (s.plans.modifyWhere (fun record => record ∈ rows) (expiredRecord (s.next now)) fun _ => rfl)
    (rows.map fun record => .verificationFailed record.planId "verification_window_expired")

/-! ## Retrying -/

/-- The reason of a retry. -/
def retryReason (record : RecoveryPlanRecord) (request : RecoveryRetryRequest) : String :=
  (request.reason.bind nonempty?).getD ("operator retried " ++ retryReasonCode record.lifecycle)

/-- The checks that every retry begins with. -/
def retryable (record : RecoveryPlanRecord) (request : RecoveryRetryRequest) : Bool :=
  PyText.strip record.planId = request.expectedPlanId && record.status = .failed &&
    PyText.strip (record.selectedActionId.getD "") ≠ ""

/-- A Safe PR is what has failed. -/
def failedAtSafePr (record : RecoveryPlanRecord) : Bool :=
  record.lifecycle.failure.any fun failure => PyText.strip failure.stage = "safe_pr"

/-- The Safe PR branch of `retry_recovery_by_correlation` up to its transaction: the approval
is stored before it, `params` are those that the preflight has prepared. -/
def approveReselection (s : RecoveryState) (h : ℕ) (request : RecoveryRetryRequest) (params : Json)
    (now : ℤ) : Option RecoveryState :=
  match s.work? h with
  | some (.plan record) =>
    if retryable record request && failedAtSafePr record then
      let actionId := PyText.strip (record.selectedActionId.getD "")
      (candidateByActionId record.plan actionId).bind fun candidate =>
        if candidate.route ∉ safePrRoutes then none
        else
          let reason := retryReason record request
          let approvalRef := env.recoveryRetryApprovalId record.plan.planId actionId
            (recoverySelectionAttemptNumber record.lifecycle)
          let selected := candidateWithApproval (candidate.withParams params) approvalRef
          let approval := recoveryApprovalPayload env record.plan selected approvalRef
            request.requestedBy reason
          some
            { s.begin h (.reselect record
                (candidateWithApprovalIdentity selected approval.workflowRunId)
                request.requestedBy reason now) with
              approvals := requestWorkflowApproval s.approvals approval }
    else none
  | _ => none

/-- The transaction of the Safe PR branch. -/
def reselectRecovery (s : RecoveryState) (h : ℕ) (writtenAt : ℤ) : Option RecoveryState :=
  match s.work? h with
  | some (.reselect record selected requestedBy reason now) =>
    let actionId := PyText.strip (record.selectedActionId.getD "")
    some ((s.finish h).update writtenAt record.planId .failed .selected
      (reselectedLifecycle record.lifecycle (attemptId env s.xid) actionId requestedBy reason now)
      false
      [.retryRequested record.planId "safe_pr" (recoverySelectionAttemptNumber record.lifecycle),
        .actionSelected record.planId (some (attemptId env s.xid)) selected])
  | _ => none

/-- The other branches of `retry_recovery_by_correlation`. -/
def retryRecovery (s : RecoveryState) (h : ℕ) (request : RecoveryRetryRequest)
    (now writtenAt : ℤ) : Option RecoveryState :=
  match s.work? h with
  | some (.plan record) =>
    if retryable record request && !failedAtSafePr record then
      (decideRetry env record s.runs.find? request.requestedBy (retryReason record request)
        now).map fun decision =>
          match decision with
          | .deploy lifecycle deployment =>
            (s.finish h).update writtenAt record.planId .failed .deployPending lifecycle false
              [.retryRequested record.planId "deploy"
                ((lifecycle.merge.map RecoveryMerge.retryAttempt).getD 0),
                .deploymentRequested deployment]
          | .verification lifecycle =>
            (s.finish h).update writtenAt record.planId .failed .verificationPending lifecycle
              false
              [.retryRequested record.planId "verification"
                (recoveryRetryNumber record.lifecycle.verificationOrEmpty.retryAttempt)]
    else none
  | _ => none

/-! ## Runs -/

/-- The operations. -/
inductive RecoveryAction : Type where
  | plan (correlationId : String) (plan : RecoveryPlan)
      (selected : Option RecoveryActionCandidate) (now : ℤ)
  | reopen (planId actionId reasonCode : String) (now : ℤ)
  /-- a request looks a plan up -/
  | lookup (h : ℕ) (query : PlanQuery)
  | select (h : ℕ) (actionId : Option String) (params : Json) (selectedBy : String)
      (reason : Option String) (now : ℤ)
  | approveReselection (h : ℕ) (request : RecoveryRetryRequest) (params : Json) (now : ℤ)
  | reselect (h : ℕ) (writtenAt : ℤ)
  | retry (h : ℕ) (request : RecoveryRetryRequest) (now writtenAt : ℤ)
  | receiveCreatedPr (h : ℕ) (event : SafePrCreated)
  | trackCreatedPr (h : ℕ) (collected : Json) (now : ℤ)
  | receiveFailedPr (h : ℕ) (event : SafePrFailed)
  | failCreatedPr (h : ℕ) (now : ℤ)
  | receivePullRequest (h : ℕ) (webhook : PullRequestWebhook)
  | matchPullRequest (h : ℕ)
  | answerPullRequest (h : ℕ) (targets : List PollTarget) (image : String) (now : ℤ)
  | startRun (request : DeploymentRequest)
  | moveRun (workflowRunId : String) (status : Gitops.WorkflowRunStatus) (reason : String)
  | receiveDeploy (h : ℕ) (event : DeployEvent)
  | answerDeploy (h : ℕ) (now : ℤ) (acknowledged : Bool)
  | receiveEvidence (h : ℕ) (window : EvidenceWindow) (clusterId : String) (now : ℤ)
  | judgeNext (h : ℕ) (alerts : List Json) (writtenAt : ℤ)
  | expire (locked : List String) (limit : ℕ) (now : ℤ)
  /-- an instance dies -/
  | die (h : ℕ)

/-- What an operation does; `none` when it has nothing to work on, or is refused. -/
def RecoveryAction.apply (s : RecoveryState) : RecoveryAction → Option RecoveryState
  | .plan correlationId newPlan selected now =>
    some (planRecovery s correlationId newPlan selected now)
  | .reopen planId actionId reasonCode now => reopenRecovery s planId actionId reasonCode now
  | .lookup h query =>
    (query.run env.casefold s.plans).map fun record => s.begin h (.plan record)
  | .select h actionId params selectedBy reason now =>
    selectRecoveryAction env s h actionId params selectedBy reason now
  | .approveReselection h request params now =>
    Recovery.approveReselection env s h request params now
  | .reselect h writtenAt => reselectRecovery env s h writtenAt
  | .retry h request now writtenAt => retryRecovery env s h request now writtenAt
  | .receiveCreatedPr h event => Recovery.receiveCreatedPr env s h event
  | .trackCreatedPr h collected now => Recovery.trackCreatedPr env s h collected now
  | .receiveFailedPr h event => Recovery.receiveFailedPr env s h event
  | .failCreatedPr h now => Recovery.failCreatedPr s h now
  | .receivePullRequest h webhook => Recovery.receivePullRequest env s h webhook
  | .matchPullRequest h => Recovery.matchPullRequest env s h
  | .answerPullRequest h targets image now => Recovery.answerPullRequest env s h targets image now
  | .startRun request => Recovery.startRun s request
  | .moveRun workflowRunId status reason => Recovery.moveRun s workflowRunId status reason
  | .receiveDeploy h event => Recovery.receiveDeploy env s h event
  | .answerDeploy h now acknowledged => Recovery.answerDeploy env s h now acknowledged
  | .receiveEvidence h window clusterId now =>
    some (Recovery.receiveEvidence s h window clusterId now)
  | .judgeNext h alerts writtenAt => Recovery.judgeNext env s h alerts writtenAt
  | .expire locked limit now => some (expireRecoveryVerifications s locked limit now)
  | .die h => some (s.finish h)

/-- One operation. -/
def step (s : RecoveryState) (action : RecoveryAction) : RecoveryState :=
  (action.apply env s).getD s

/-! ## A small installation -/

/-- An installation with one merge: identities are put together from texts, a window shows
whether its target is healthy, and changes leave the replicas alone. -/
def RecoveryEnv.sample : RecoveryEnv where
  workspaceId := "ws"
  recoveryApprovalId planId actionId := "approval-" ++ planId ++ "-" ++ actionId
  recoveryRetryApprovalId planId actionId attempt :=
    "approval-" ++ planId ++ "-" ++ actionId ++ "-" ++ String.ofList (List.replicate attempt 'r')
  recoveryMergeWorkflowRunId _ _ := "workflow-merge"
  deployRetryWorkflowRunId _ _ _ := "workflow-retry"
  strip_mergeWorkflowRunId _ _ := by decide
  strip_retryWorkflowRunId _ _ _ := by decide
  derivedWorkflowRunId _ applicationId bindingId _ := "workflow-" ++ applicationId ++ bindingId
  uuid n := String.ofList (List.replicate n 'u')
  uuid_injective m n h := by
    have hlength := congrArg String.length h
    simpa using hlength
  casefold := id
  str _ := ""
  assessment :=
    { observedAfter := fun _ _ window => window.payload
      verificationChecks := fun _ _ observed _ =>
        [("healthy", match observed.get? "healthy" with
          | some (.bool healthy) => some healthy
          | _ => none)] }
  plannedVerification _ _ target _ _ :=
    { Verification.empty with
      minimumSeconds := some 300
      maximumSeconds := some 600
      evidenceCadenceSeconds := some 300
      target := some target }
  approvedReplicas _ := some none

/-- What a preflight prepares on a commit. -/
def sampleParams (commitSha : String) : Json :=
  .obj [("repository_id", .str "repo"), ("binding_id", .str "binding"),
    ("application_id", .str "app"), ("repo_ref", .str "owner/name"), ("base_branch", .str "main"),
    ("commit_sha", .str commitSha)]

/-- A plan with one Safe PR. -/
def samplePlan : RecoveryPlan where
  planId := "plan"
  incidentId := "incident"
  evidenceRef := "evidence"
  target := .obj [("cluster_id", .str "cluster")]
  recommendedActionId := "raise"
  candidates := [⟨"raise", "Raise the limit", "draft_pr", ⟨"ns", "Deployment", "web", .obj [], .null⟩,
    .null⟩]
  rest := .null

/-- The pull request of the plan on a commit. -/
def sampleCreated (commitSha : String) : SafePrCreated where
  correlationId := "corr"
  prUrl := "https://host/pr/1"
  mode := "github_rest"
  repositoryId := "repo"
  bindingId := "binding"
  applicationId := "app"
  environment := "sandbox"
  manifestPath := "web.yaml"
  repoRef := "owner/name"
  baseBranch := "main"
  commitSha := commitSha
  patchSha256 := "patch"
  prNumber := some 1
  prNodeId := "node"
  headRef := "recovery"
  headSha := "0123456789012345678901234567890123456789"

/-- The merge of the pull request. -/
def sampleMerge : PullRequestWebhook where
  action := "closed"
  merged := true
  identity :=
    { url := "https://host/pr/1"
      repoRef := "owner/name"
      baseBranch := "main"
      number := 1
      nodeId := "node"
      headRef := "recovery"
      headSha := "0123456789012345678901234567890123456789"
      mergeCommitSha := "m1" }

/-- The binding that the merge is deployed by. -/
def sampleTarget : PollTarget where
  workspaceId := "ws"
  repositoryId := "repo"
  repoRef := "owner/name"
  branch := "main"
  bindingId := "binding"
  applicationId := "app"
  environment := "sandbox"
  clusterId := "cluster"
  manifestPath := "web.yaml"

/-- The action of the plan is selected, and its pull request is tracked and merged. -/
def sampleMerged : List RecoveryAction :=
  [.plan "corr" samplePlan none 0, .lookup 0 (.byPlanId "plan"),
    .select 0 none (sampleParams "c1") "operator" none 0, .receiveCreatedPr 0 (sampleCreated "c1"),
    .trackCreatedPr 0 .null 0, .receivePullRequest 0 sampleMerge, .matchPullRequest 0,
    .answerPullRequest 0 [sampleTarget] "image" 0]

/-- The deployment that the merge asks for. -/
def sampleDeployment : DeploymentRequest where
  workspaceId := "ws"
  correlationId := "corr"
  workflowRunId := "workflow-merge"
  commitSha := "m1"
  repositoryId := "repo"
  repoRef := "owner/name"
  branch := "main"
  bindingId := "binding"
  applicationId := "app"
  clusterId := "cluster"
  manifestPath := "web.yaml"
  environment := "sandbox"
  image := "image"
  replicas := 2
  force := true

/-- Afterwards the deployment succeeds, and the verification starts. -/
def sampleVerifying : List RecoveryAction :=
  sampleMerged ++ [.startRun sampleDeployment, .moveRun "workflow-merge" .succeeded "",
    .receiveDeploy 0 ⟨"workflow-merge", "binding", "app", .completed⟩, .answerDeploy 0 0 true]

/-- A window some seconds after the start of the verification. -/
def sampleWindow (healthy : Bool) (key : String) (seconds : ℕ) : EvidenceWindow where
  evidenceRef := key
  evidenceKey := key
  windowStart := some (microseconds seconds)
  payload := .obj [("healthy", .bool healthy)]

end Opsia.Recovery
