import Opsia.Gitops.Store
import Opsia.Recovery.Verification

/-!
# The writers of recovery plans

What each of the writers decides from the row that it has read: the selection and the retry
of `domains/rca/router.py`, the pull request webhook of `domains/gitops/router.py`, and the
handlers of `services/ai/rca-feedback-worker/app.py`. A decision is a lifecycle to write, or
a refusal.
-/

namespace Opsia.Recovery

/-- The environment of the writers: derived identities, and what the checks of metrics and
of Git content show. -/
structure RecoveryEnv : Type where
  workspaceId : String
  /-- `recovery_approval_id` of the router and `recovery_approval_identity` of the worker -/
  recoveryApprovalId : (planId actionId : String) → String
  recoveryRetryApprovalId : (planId actionId : String) → ℕ → String
  recoveryMergeWorkflowRunId : (planId mergeCommitSha : String) → String
  /-- the identity of a deploy retry -/
  deployRetryWorkflowRunId : (planId commitSha : String) → ℕ → String
  /-- they are hexadecimal digests behind a word -/
  strip_mergeWorkflowRunId (planId mergeCommitSha : String) :
    PyText.strip (recoveryMergeWorkflowRunId planId mergeCommitSha) =
      recoveryMergeWorkflowRunId planId mergeCommitSha
  strip_retryWorkflowRunId (planId commitSha : String) (attempt : ℕ) :
    PyText.strip (deployRetryWorkflowRunId planId commitSha attempt) =
      deployRetryWorkflowRunId planId commitSha attempt
  /-- `derive_workflow_run_id` of an approval that names no run -/
  derivedWorkflowRunId : (workspaceId applicationId bindingId environment : String) → String
  /-- the successive values of `uuid.uuid4()` -/
  uuid : ℕ → String
  uuid_injective : Function.Injective uuid
  casefold : String → String
  /-- `str` of a JSON value that is no string -/
  str : Json → String
  assessment : Assessment
  /-- the verification that a pull request is tracked with: metrics and alerts before it -/
  plannedVerification : (params : Json) → List AuthorizedChange → RecoveryTarget →
    (collected : Json) → (now : ℤ) → Verification
  /-- `approved_change_contract` and `approved_replica_count` of `recovery_merge.py`; `none`
  when the changes are no contract -/
  approvedReplicas : List AuthorizedChange → Option (Option ℤ)

variable (env : RecoveryEnv)

/-! ## Candidates -/

/-- `draft_pr`, the route of a Safe PR that the worker tracks. -/
def safePrRoute : String := "draft_pr"

def safePrRoutes : List String := ["draft_pr", "safe_pr"]

def preflightRequiredRoutes : List String := safePrRoutes ++ ["auto"]

/-- The parameters of a draft with one more. -/
def setParam (params : Json) (field : String) (value : Json) : Json :=
  match params with
  | .obj fields => .obj ((fields.filter fun entry => entry.1 ≠ field) ++ [(field, value)])
  | other => other

/-- `replace(candidate, draft=replace(draft, params=...))`. -/
def RecoveryActionCandidate.withParams (candidate : RecoveryActionCandidate) (params : Json) :
    RecoveryActionCandidate :=
  { candidate with draft := { candidate.draft with params := params } }

/-- `candidate_by_action_id`; `none` when it raises. -/
def candidateByActionId (plan : RecoveryPlan) (actionId : String) :
    Option RecoveryActionCandidate :=
  plan.candidates.find? fun candidate => candidate.actionId = actionId

def recoveryPolicyDecisionRef (approvalRef : String) : String :=
  "recovery:" ++ approvalRef ++ ":selected"

def candidateWithApproval (candidate : RecoveryActionCandidate) (approvalRef : String) :
    RecoveryActionCandidate :=
  candidate.withParams
    (setParam (setParam candidate.draft.params "approval_ref" (.str approvalRef))
      "policy_decision_ref" (.str (recoveryPolicyDecisionRef approvalRef)))

def candidateWithApprovalIdentity (candidate : RecoveryActionCandidate) (workflowRunId : String) :
    RecoveryActionCandidate :=
  if workflowRunId = "" then candidate
  else candidate.withParams (setParam candidate.draft.params "workflow_run_id" (.str workflowRunId))

/-! ## Approvals -/

/-- A row of `approvals` of a recovery action. -/
structure RecoveryApproval : Type where
  approvalId : String
  workflowRunId : String
  workspaceId : String
  status : Gitops.ApprovalStatus
  reason : String
  requestedBy : String
  decidedBy : String
  /-- `details`: the plan, the action and the candidate as it was approved -/
  recoveryPlanId : String
  recoveryActionId : String
  policyDecisionRef : String
  selectedCandidate : RecoveryActionCandidate
  deriving DecidableEq

/-- `str(params.get(field, default))`. -/
def paramText (params : Json) (field default : String) : String :=
  match params.get? field with
  | none => default
  | some (.str s) => s
  | some value => env.str value

/-- A field that is truthy, as a text. -/
def truthyText? (object : Json) (field : String) : Option String :=
  match object.get? field with
  | some (.str s) => if s = "" then none else some s
  | some value => if value.truthy then some (env.str value) else none
  | none => none

/-- `recovery_approval_payload`, as the row that it becomes. -/
def recoveryApprovalPayload (plan : RecoveryPlan) (selected : RecoveryActionCandidate)
    (approvalRef selectedBy reason : String) : RecoveryApproval :=
  let params := selected.draft.params
  let workspaceId := ((truthyText? env plan.target "workspace_id").or
    (truthyText? env params "workspace_id")).getD env.workspaceId
  let explicit := paramText env params "workflow_run_id" ""
  { approvalId := approvalRef
    workflowRunId :=
      if explicit ≠ "" then explicit
      else env.derivedWorkflowRunId workspaceId (paramText env params "application_id" "")
        (paramText env params "binding_id" "") (paramText env params "environment" "sandbox")
    workspaceId := workspaceId
    status := .granted
    reason := reason
    requestedBy := selectedBy
    decidedBy := selectedBy
    recoveryPlanId := plan.planId
    recoveryActionId := selected.actionId
    policyDecisionRef := recoveryPolicyDecisionRef approvalRef
    selectedCandidate := selected }

/-- The rows of `approvals`. -/
abbrev RecoveryApprovals : Type := Table RecoveryApproval.approvalId

/-- `request_workflow_approval`: a row that is not open stays as it is. -/
def requestWorkflowApproval (approvals : RecoveryApprovals) (approval : RecoveryApproval) :
    RecoveryApprovals :=
  match approvals.find? approval.approvalId with
  | none => approvals.put approval
  | some current =>
    if current.status.isOpen then
      approvals.put
        { current with
          status := approval.status
          reason := approval.reason
          requestedBy := approval.requestedBy
          decidedBy := approval.decidedBy
          recoveryPlanId := approval.recoveryPlanId
          recoveryActionId := approval.recoveryActionId
          policyDecisionRef := approval.policyDecisionRef
          selectedCandidate := approval.selectedCandidate }
    else approvals

def getWorkflowApproval (approvals : RecoveryApprovals) (approvalId : String) :
    Option RecoveryApproval :=
  (approvals.find? approvalId).filter fun approval => approval.workspaceId = env.workspaceId

/-! ## A created pull request -/

/-- `SafePrCreatedBody`. -/
structure SafePrCreated : Type where
  correlationId : String
  prUrl : String
  mode : String
  repositoryId : String
  bindingId : String
  applicationId : String
  environment : String
  manifestPath : String
  repoRef : String
  baseBranch : String
  commitSha : String
  patchSha256 : String
  prNumber : Option ℤ
  prNodeId : String
  headRef : String
  headSha : String

def selectedRecoveryCandidate (record : RecoveryPlanRecord) : Option RecoveryActionCandidate :=
  let selectedActionId := PyText.strip (record.selectedActionId.getD "")
  if selectedActionId = "" then none
  else
    match record.plan.candidates.filter fun candidate =>
        PyText.strip candidate.actionId = selectedActionId with
    | [candidate] => some candidate
    | _ => none

def recoveryApprovalRecord (approvals : RecoveryApprovals) (record : RecoveryPlanRecord) :
    Option RecoveryApproval :=
  let planId := PyText.strip record.planId
  let actionId := PyText.strip (record.selectedActionId.getD "")
  if planId = "" || actionId = "" then none
  else getWorkflowApproval env approvals (env.recoveryApprovalId planId actionId)

def selectedCandidateParams (approval : Option RecoveryApproval) : Json :=
  (approval.map fun approval => approval.selectedCandidate.draft.params).getD (.obj [])

/-- `GITHUB_SHA_RE.fullmatch`. -/
def isGithubSha (sha : String) : Bool :=
  40 ≤ sha.length && sha.length ≤ 64 &&
    sha.toList.all fun c => ('0' ≤ c && c ≤ '9') || ('a' ≤ c && c ≤ 'f')

/-- The number, the node and the head of a pull request are known. -/
def SafePrCreated.wellFormed (event : SafePrCreated) : Bool :=
  event.mode = "github_rest" && event.prUrl.startsWith "https://" &&
    event.prNumber.any (0 < ·) && event.prNodeId ≠ "" && event.headRef ≠ "" &&
    isGithubSha event.headSha

/-- The pull request is that of the parameters. -/
def SafePrCreated.asApproved (event : SafePrCreated) (params : Json) : Bool :=
  textOf (params.get? "repository_id") = event.repositoryId &&
    textOf (params.get? "binding_id") = event.bindingId &&
    textOf (params.get? "application_id") = event.applicationId &&
    textOf (params.get? "repo_ref") = event.repoRef &&
    textOf (params.get? "base_branch") = event.baseBranch &&
    textOf (params.get? "commit_sha") = event.commitSha

def safePrIdentityError (event : SafePrCreated) (params : Json) : Option String :=
  if !event.wellFormed then
    some "생성된 PR의 number/node/head SHA가 없어 merge를 안전하게 추적할 수 없습니다."
  else if !event.asApproved params then
    some "생성된 PR identity가 승인된 GitOps 권위 context와 일치하지 않습니다."
  else none

/-- An item of `approved_change_contract`, on top of those before it. -/
def authorizedChange? (changes : List AuthorizedChange) (item : Json) : Option AuthorizedChange :=
  let fieldPath := textOf (item.get? "field_path")
  match item.get? "current_value", item.get? "desired_value" with
  | some current, some desired =>
    if fieldPath = "" || changes.any (fun change => change.fieldPath = fieldPath) then none
    else some ⟨fieldPath, current, desired⟩
  | _, _ => none

/-- `approved_change_contract` of the worker. -/
def authorizedChanges (params : Json) : List AuthorizedChange :=
  match params.get? "authorized_changes" with
  | some (.arr items) =>
    (items.foldlM (fun changes item =>
      (authorizedChange? changes item).map fun change => changes ++ [change]) []).getD []
  | _ => []

def selectedRecoveryTarget (plan : RecoveryPlan) (selected : RecoveryActionCandidate) :
    RecoveryTarget :=
  let text (field : String) (draftValue : String) : String :=
    match (selected.draft.params.get? field).filter Json.truthy with
    | some value => textOf (some value)
    | none =>
      if draftValue ≠ "" then PyText.strip draftValue else textOf (plan.target.get? field)
  { clusterId := text "cluster_id" ""
    namespaceName := text "namespace" selected.draft.namespaceName
    resourceKind := text "resource_kind" selected.draft.resourceKind
    resourceName := text "resource_name" selected.draft.resourceName }

/-- The lifecycle that `on_recovery_safe_pr_created` writes. -/
def trackedLifecycle (record : RecoveryPlanRecord) (selected : RecoveryActionCandidate)
    (params : Json) (event : SafePrCreated) (collected : Json) (now : ℤ) : Lifecycle :=
  let target := selectedRecoveryTarget record.plan selected
  let changes := authorizedChanges params
  { Lifecycle.empty with
    phase := some .prOpen
    attempt := record.lifecycle.attempt
    pr := some
      { url := event.prUrl
        number := (event.prNumber.getD 0).toNat
        nodeId := event.prNodeId
        headRef := event.headRef
        headSha := event.headSha
        repoRef := event.repoRef
        repositoryId := event.repositoryId
        bindingId := event.bindingId
        applicationId := event.applicationId
        baseBranch := event.baseBranch
        manifestPath := event.manifestPath
        environment := event.environment
        clusterId := target.clusterId
        patchSha256 := event.patchSha256
        trackedAt := now
        attemptId := (record.lifecycle.attempt.map RecoveryAttempt.id).bind nonempty? }
    verification := some (env.plannedVerification params changes target collected now)
    authorization := some (target, changes) }

/-! ## A pull request webhook -/

/-- A poll target of the registry. -/
structure PollTarget : Type where
  workspaceId : String
  repositoryId : String
  repoRef : String
  branch : String
  bindingId : String
  applicationId : String
  environment : String
  clusterId : String
  manifestPath : String

/-- A webhook about a pull request. -/
structure PullRequestWebhook : Type where
  action : String
  merged : Bool
  identity : PullRequestIdentity

/-- The fields that a poll target is matched by. -/
def expectedPollTarget (record : RecoveryPlanRecord) (pr : RecoveryPullRequest) : PollTarget where
  workspaceId := env.workspaceId
  repositoryId := pr.repositoryId
  repoRef := pr.repoRef
  branch := pr.baseBranch
  bindingId := pr.bindingId
  applicationId := pr.applicationId
  environment := pr.environment
  clusterId :=
    if pr.clusterId ≠ "" then pr.clusterId
    else (truthyText? env record.plan.target "cluster_id").getD ""
  manifestPath := pr.manifestPath

/-- The target is the expected one. -/
def PollTarget.agrees (expected candidate : PollTarget) : Bool :=
  candidate.workspaceId = expected.workspaceId &&
    candidate.repositoryId = expected.repositoryId &&
    env.casefold candidate.repoRef = env.casefold expected.repoRef &&
    candidate.branch = expected.branch && candidate.bindingId = expected.bindingId &&
    candidate.applicationId = expected.applicationId &&
    candidate.environment = expected.environment &&
    candidate.clusterId = expected.clusterId &&
    candidate.manifestPath = expected.manifestPath

def exactRecoveryPollTarget (targets : List PollTarget) (record : RecoveryPlanRecord) :
    Option PollTarget := do
  let pr ← record.lifecycle.pr
  let expected := expectedPollTarget env record pr
  if [expected.workspaceId, expected.repositoryId, expected.repoRef, expected.branch,
      expected.bindingId, expected.applicationId, expected.environment, expected.clusterId,
      expected.manifestPath].any (· = "") then none
  else
    match targets.filter (expected.agrees env) with
    | [target] => some target
    | _ => none

/-- What the handler of a webhook decides. -/
inductive PullRequestDecision : Type where
  /-- nothing is written -/
  | ignore
  /-- `reject_tracked_recovery_pull_request` of the record -/
  | reject (record : RecoveryPlanRecord) (reasonCode reason : String)
  /-- the record waits for the deployment of the merge -/
  | merge (record : RecoveryPlanRecord) (lifecycle : Lifecycle) (request : DeploymentRequest)

/-- The lifecycle that a merge is written with. -/
def mergedLifecycle (record : RecoveryPlanRecord) (pr : RecoveryPullRequest)
    (identity : PullRequestIdentity) (request : DeploymentRequest) (now : ℤ) : Lifecycle :=
  { record.lifecycle with
    phase := some .deployPending
    merge := some
      { prUrl := identity.url
        headSha := identity.headSha
        mergeCommitSha := identity.mergeCommitSha
        mergedAt := now
        workflowRunId := request.workflowRunId
        repositoryId := pr.repositoryId
        bindingId := pr.bindingId
        applicationId := pr.applicationId
        clusterId := pr.clusterId
        attemptId := record.lifecycle.attempt.map RecoveryAttempt.id
        retryAttempt := 0
        deploymentRequest := request
        previousWorkflowRunId := none } }

/-- `body_for_poll_target` of a merge. -/
def mergeRequest (record : RecoveryPlanRecord) (target : PollTarget)
    (identity : PullRequestIdentity) (image : String) (replicas : ℤ) : DeploymentRequest where
  workspaceId := target.workspaceId
  correlationId := record.correlationId
  workflowRunId := env.recoveryMergeWorkflowRunId record.planId identity.mergeCommitSha
  commitSha := identity.mergeCommitSha
  repositoryId := target.repositoryId
  repoRef := target.repoRef
  branch := target.branch
  bindingId := target.bindingId
  applicationId := target.applicationId
  clusterId := target.clusterId
  manifestPath := target.manifestPath
  environment := target.environment
  image := image
  replicas := replicas
  force := true

def defaultWebhookReplicas : ℤ := 2

/-- The end of `handle_tracked_recovery_pull_request`, with the record at the head of the
webhook. -/
def decideMerge (record : RecoveryPlanRecord) (identity : PullRequestIdentity)
    (targets : List PollTarget) (image : String) (now : ℤ) : PullRequestDecision :=
  match exactRecoveryPollTarget env targets record, record.lifecycle.pr with
  | some target, some pr =>
    if !(record.lifecycle.verificationOrEmpty.blockers.filter (· ≠ "")).isEmpty then .ignore
    else
      match env.approvedReplicas ((record.lifecycle.authorization.map Prod.snd).getD []) with
      | some replicas =>
        if image = "" || identity.mergeCommitSha = "" then
          .reject record "recovery_deploy_context_incomplete" contextReason
        else
          let request := mergeRequest env record target identity image
            (replicas.getD defaultWebhookReplicas)
          .merge record (mergedLifecycle record pr identity request now) request
      | none => .reject record "recovery_deploy_context_incomplete" contextReason
  | _, _ =>
    .reject record "recovery_binding_unavailable"
      "merge된 PR과 정확히 일치하는 활성 deployment binding을 찾지 못했습니다."
where
  /-- The reason of an incomplete context. -/
  contextReason : String :=
    "merge commit 또는 GitOps webhook image가 없어 배포를 시작할 수 없습니다."

/-- `handle_tracked_recovery_pull_request`, with the records that it has read. -/
def handleTrackedRecoveryPullRequest (webhook : PullRequestWebhook) (base : RecoveryPlanRecord)
    (exact : Option RecoveryPlanRecord) (targets : List PollTarget) (image : String) (now : ℤ) :
    PullRequestDecision :=
  if webhook.action = "synchronize" then
    .reject base "safe_pr_head_changed"
      "PR 생성 후 head가 변경되어 승인된 patch identity를 더 이상 신뢰할 수 없습니다."
  else if webhook.action ≠ "closed" then .ignore
  else if !webhook.merged then
    .reject base "safe_pr_closed_without_merge" "복구 PR이 merge되지 않고 닫혔습니다."
  else
    match exact with
    | none =>
      .reject base "safe_pr_head_mismatch"
        "merge webhook의 head SHA가 생성 시 저장한 Safe PR head SHA와 다릅니다."
    | some record => decideMerge env record webhook.identity targets image now

/-- The lifecycle of a failure before the merge. -/
def rejectedLifecycle (lifecycle : Lifecycle) (reasonCode reason : String) : Lifecycle :=
  { lifecycle with
    phase := some .failed
    failure := some (RecoveryFailure.plain reasonCode reason) }

/-! ## The end of a deployment -/

/-- The lifecycle that `on_recovery_deploy_failed` writes. -/
def deployFailedLifecycle (lifecycle : Lifecycle) (workflowRunId reason : String) : Lifecycle :=
  { lifecycle with
    phase := some .failed
    failure := some
      { RecoveryFailure.plain "recovery_deploy_failed" reason with
        workflowRunId := workflowRunId } }

/-- The run is that of the merge, and it has succeeded. -/
def deployedBy (merge : RecoveryMerge) (workflowRunId bindingId applicationId : String)
    (run : Gitops.WorkflowRun) : Bool :=
  PyText.strip merge.workflowRunId = workflowRunId && PyText.strip merge.bindingId = bindingId &&
    PyText.strip merge.applicationId = applicationId &&
    PyText.strip merge.mergeCommitSha = PyText.strip run.commitSha &&
    PyText.strip merge.clusterId = PyText.strip run.clusterId &&
    PyText.strip run.workspaceId = env.workspaceId &&
    PyText.strip run.bindingId = bindingId && PyText.strip run.applicationId = applicationId &&
    run.status = .succeeded

/-! ## A failed Safe PR -/

/-- `SafePrFailedBody`. -/
structure SafePrFailed : Type where
  correlationId : String
  approvalRef : Option String
  reasonCode : String
  reason : String
  stage : String
  workflowRunId : String
  commitSha : String

def failedSafePrRecoveryIdentity (approvals : RecoveryApprovals) (record : RecoveryPlanRecord)
    (event : SafePrFailed) : Option (String × String) :=
  let ofApproval := (event.approvalRef.map PyText.strip).bind fun approvalRef =>
    if approvalRef = "" then none
    else (getWorkflowApproval env approvals approvalRef).bind fun approval =>
      pair? approval.recoveryPlanId approval.recoveryActionId
  ofApproval.or
    (if record.status = .selected then
      pair? record.planId (record.selectedActionId.getD "")
    else none)
where
  /-- Two texts that are not empty. -/
  pair? (planId actionId : String) : Option (String × String) :=
    let planId := PyText.strip planId
    let actionId := PyText.strip actionId
    if planId = "" || actionId = "" then none else some (planId, actionId)

/-- The lifecycle that `on_recovery_safe_pr_failed` writes. -/
def safePrFailedLifecycle (lifecycle : Lifecycle) (event : SafePrFailed) : Lifecycle :=
  { lifecycle with
    phase := some .failed
    failure := some
      { stage := "safe_pr"
        reasonCode := event.reasonCode
        reason := event.reason
        evidenceRef := ""
        providerStage := event.stage
        approvalRef := PyText.strip (event.approvalRef.getD "")
        workflowRunId := event.workflowRunId
        commitSha := event.commitSha } }

/-! ## An operator retry -/

/-- A request to retry. -/
structure RecoveryRetryRequest : Type where
  expectedPlanId : String
  requestedBy : String
  reason : Option String

def recoveryWorkflowMatches (run : Option Gitops.WorkflowRun) (merge : RecoveryMerge)
    (status : Gitops.WorkflowRunStatus) : Bool :=
  let texts := [merge.workflowRunId, merge.bindingId, merge.applicationId, merge.clusterId,
    merge.mergeCommitSha].map PyText.strip
  !texts.any (· = "") && run.any fun run =>
    [run.workflowRunId, run.bindingId, run.applicationId, run.clusterId, run.commitSha].map
        PyText.strip = texts &&
      PyText.strip run.workspaceId = env.workspaceId && run.status = status

def deployRetryBody (record : RecoveryPlanRecord) (merge : RecoveryMerge)
    (run : Option Gitops.WorkflowRun) : Option DeploymentRequest :=
  let original := merge.deploymentRequest
  if recoveryWorkflowMatches env run merge .failed && record.lifecycle.pr.any (fun pr =>
      original.workspaceId = env.workspaceId &&
        original.correlationId = PyText.strip record.correlationId &&
        original.workflowRunId = PyText.strip merge.workflowRunId &&
        original.commitSha = PyText.strip merge.mergeCommitSha &&
        original.repositoryId = PyText.strip pr.repositoryId &&
        original.repoRef = PyText.strip pr.repoRef &&
        original.branch = PyText.strip pr.baseBranch &&
        original.bindingId = PyText.strip merge.bindingId &&
        original.applicationId = PyText.strip merge.applicationId &&
        original.clusterId = PyText.strip merge.clusterId &&
        original.manifestPath = PyText.strip pr.manifestPath) &&
      PyText.strip original.image ≠ "" && 0 < original.replicas then
    some
      { original with
        workflowRunId := env.deployRetryWorkflowRunId record.planId
          (PyText.strip merge.mergeCommitSha) (merge.retryAttempt + 1)
        force := true }
  else none

/-- What `retry_recovery_by_correlation` writes into the verification before a deployment. -/
def Verification.awaitDeploy (verification : Verification) : Verification :=
  { verification with
    status := "waiting_for_deploy"
    startedAt := none
    deadlineAt := none
    healthySince := none
    lastHealthyObservedAt := none
    distinctEvidenceCount := 0
    lastEvidenceKey := none
    after := none }

/-- The lifecycle of a deploy retry. -/
def redeployedLifecycle (lifecycle : Lifecycle) (merge : RecoveryMerge)
    (request : DeploymentRequest) (requestedBy reason : String) (now : ℤ) : Lifecycle :=
  { lifecycle with
    phase := some .deployPending
    merge := some
      { merge with
        previousWorkflowRunId := some (PyText.strip merge.workflowRunId)
        workflowRunId := request.workflowRunId
        deploymentRequest := request
        retryAttempt := merge.retryAttempt + 1 }
    verification := some lifecycle.verificationOrEmpty.awaitDeploy
    failure := none
    retry := some
      { stage := "deploy"
        attempt := merge.retryAttempt + 1
        requestedBy := requestedBy
        requestedAt := now
        reason := reason
        workflowRunId := some request.workflowRunId
        previousFailure := none } }

/-- The reason code that decides which stage is retried. -/
def retryReasonCode (lifecycle : Lifecycle) : String :=
  let code := PyText.strip ((lifecycle.failure.map RecoveryFailure.reasonCode).getD "")
  if code = "" then PyText.strip lifecycle.verificationOrEmpty.lastReasonCode else code

def recoverySelectionAttemptNumber (lifecycle : Lifecycle) : ℕ :=
  (lifecycle.attempt.map RecoveryAttempt.number).getD 0 + 1

/-- The lifecycle of a retried Safe PR. -/
def reselectedLifecycle (lifecycle : Lifecycle) (attemptId actionId requestedBy reason : String)
    (now : ℤ) : Lifecycle :=
  let number := recoverySelectionAttemptNumber lifecycle
  { Lifecycle.empty with
    phase := some .selected
    attempt := some ⟨attemptId, number, actionId, requestedBy, now⟩
    retry := some
      { stage := "safe_pr"
        attempt := number
        requestedBy := requestedBy
        requestedAt := now
        reason := reason
        workflowRunId := none
        previousFailure := lifecycle.failure } }

/-- What the request of a retry decides about the deployment or the verification. -/
inductive RetryDecision : Type where
  | deploy (lifecycle : Lifecycle) (request : DeploymentRequest)
  | verification (lifecycle : Lifecycle)

/-- The end of `retry_recovery_by_correlation`; `none` when it is refused. -/
def decideRetry (record : RecoveryPlanRecord) (run : String → Option Gitops.WorkflowRun)
    (requestedBy reason : String) (now : ℤ) : Option RetryDecision :=
  record.lifecycle.merge.bind fun merge =>
    let workflowRunId := PyText.strip merge.workflowRunId
    if workflowRunId = "" then none
    else if retryReasonCode record.lifecycle = "recovery_deploy_failed" then
      (deployRetryBody env record merge (run workflowRunId)).map fun request =>
        .deploy (redeployedLifecycle record.lifecycle merge request requestedBy reason now) request
    else if retryReasonCode record.lifecycle = "verification_window_expired" then
      if recoveryWorkflowMatches env (run workflowRunId) merge .succeeded then
        some (.verification
          (retriedLifecycle record.lifecycle now requestedBy reason workflowRunId))
      else none
    else none

end Opsia.Recovery
