import Mathlib.Data.List.Sort
import Mathlib.Data.Prod.Lex
import Opsia.Lib.Json
import Opsia.Lib.PyText
import Opsia.Lib.Table

/-!
# Recovery plans

`domains/rca/repository.py`: the rows of `recovery_plans` in one workspace, the lifecycle in
their payload, and the statements that read and write them. A plan is written whole, under a
condition on its status alone.

Instants are numbers of microseconds, which `isoformat` and `parse_datetime` hand on.
-/

namespace Opsia.Recovery

/-! ## Plans -/

/-- The values of `recovery_plans.status`, which are also the phases of a lifecycle. -/
inductive RecoveryPlanStatus : Type where
  | selectionRequested
  | selected
  | prOpen
  | deployPending
  | verificationPending
  | completed
  | failed
  deriving DecidableEq, Repr

/-- `HealingActionDraft`, as far as a recovery reads it; `rest` are its other fields. -/
structure HealingActionDraft : Type where
  namespaceName : String
  resourceKind : String
  resourceName : String
  params : Json
  rest : Json
  deriving DecidableEq

structure RecoveryActionCandidate : Type where
  actionId : String
  title : String
  route : String
  draft : HealingActionDraft
  rest : Json
  deriving DecidableEq

/-- `RecoveryPlan` without its lifecycle. -/
structure RecoveryPlan : Type where
  planId : String
  incidentId : String
  evidenceRef : String
  target : Json
  recommendedActionId : String
  candidates : List RecoveryActionCandidate
  rest : Json
  deriving DecidableEq

/-! ## The lifecycle -/

/-- `lifecycle["attempt"]`. -/
structure RecoveryAttempt : Type where
  id : String
  number : ℕ
  actionId : String
  selectedBy : String
  selectedAt : ℤ
  deriving DecidableEq

/-- The workload of a recovery. -/
structure RecoveryTarget : Type where
  clusterId : String
  namespaceName : String
  resourceKind : String
  resourceName : String
  deriving DecidableEq

/-- `lifecycle["pr"]`. -/
structure RecoveryPullRequest : Type where
  url : String
  number : ℕ
  nodeId : String
  headRef : String
  headSha : String
  repoRef : String
  repositoryId : String
  bindingId : String
  applicationId : String
  baseBranch : String
  manifestPath : String
  environment : String
  clusterId : String
  patchSha256 : String
  trackedAt : ℤ
  attemptId : Option String
  deriving DecidableEq

/-- `GitWebhookReceivedBody`, as a recovery sends it. -/
structure DeploymentRequest : Type where
  workspaceId : String
  correlationId : String
  workflowRunId : String
  commitSha : String
  repositoryId : String
  repoRef : String
  branch : String
  bindingId : String
  applicationId : String
  clusterId : String
  manifestPath : String
  environment : String
  image : String
  replicas : ℤ
  force : Bool
  deriving DecidableEq

/-- `lifecycle["merge"]`. -/
structure RecoveryMerge : Type where
  prUrl : String
  headSha : String
  mergeCommitSha : String
  mergedAt : ℤ
  workflowRunId : String
  repositoryId : String
  bindingId : String
  applicationId : String
  clusterId : String
  attemptId : Option String
  retryAttempt : ℕ
  deploymentRequest : DeploymentRequest
  previousWorkflowRunId : Option String
  deriving DecidableEq

/-- `lifecycle["failure"]`; the fields a failure does not have are empty. -/
structure RecoveryFailure : Type where
  stage : String
  reasonCode : String
  reason : String
  evidenceRef : String
  providerStage : String
  approvalRef : String
  workflowRunId : String
  commitSha : String
  deriving DecidableEq

/-- A failure with its code and its reason only. -/
def RecoveryFailure.plain (reasonCode reason : String) : RecoveryFailure :=
  ⟨"", reasonCode, reason, "", "", "", "", ""⟩

/-- `lifecycle["retry"]`. -/
structure RecoveryRetry : Type where
  stage : String
  attempt : ℕ
  requestedBy : String
  requestedAt : ℤ
  reason : String
  workflowRunId : Option String
  previousFailure : Option RecoveryFailure
  deriving DecidableEq

/-- An entry of `lifecycle["authorization"]["changes"]`. -/
structure AuthorizedChange : Type where
  fieldPath : String
  currentValue : Json
  desiredValue : Json
  deriving DecidableEq

structure VerificationAfter : Type where
  /-- what the evidence shows of the target -/
  observed : Json
  checks : List (String × Option Bool)
  observedAt : ℤ
  evidenceObservedAt : Option ℤ
  evidenceRef : String
  healthySince : Option ℤ
  stableMicroseconds : Option ℤ
  distinctEvidenceCount : Option ℕ
  deriving DecidableEq

/-- `lifecycle["verification"]`; what it expects besides the cadence of the evidence is read
by the checks alone. -/
structure Verification : Type where
  minimumSeconds : Option ℕ
  maximumSeconds : Option ℕ
  expected : Json
  evidenceCadenceSeconds : Option ℕ
  before : Json
  protectedBaseline : Json
  protectedSessionBaseline : Json
  target : Option RecoveryTarget
  status : String
  blockers : List String
  startedAt : Option ℤ
  deadlineAt : Option ℤ
  healthySince : Option ℤ
  lastHealthyObservedAt : Option ℤ
  distinctEvidenceCount : ℕ
  lastEvidenceKey : Option String
  lastReasonCode : String
  lastReason : String
  after : Option VerificationAfter
  lastSessionSamples : Json
  retryAttempt : Option ℕ
  expiredAt : Option ℤ
  deriving DecidableEq

/-- `payload["lifecycle"]`; `phase` is missing in a payload without a lifecycle. -/
structure Lifecycle : Type where
  phase : Option RecoveryPlanStatus
  attempt : Option RecoveryAttempt
  pr : Option RecoveryPullRequest
  verification : Option Verification
  /-- `authorization`: the target and the changes that are approved -/
  authorization : Option (RecoveryTarget × List AuthorizedChange)
  merge : Option RecoveryMerge
  failure : Option RecoveryFailure
  retry : Option RecoveryRetry
  deriving DecidableEq

/-- The lifecycle of a payload that has none. -/
def Lifecycle.empty : Lifecycle := ⟨none, none, none, none, none, none, none, none⟩

/-! ## Rows -/

/-- A row of `recovery_plans`. -/
structure RecoveryPlanRecord : Type where
  planId : String
  correlationId : String
  incidentId : String
  evidenceRef : String
  status : RecoveryPlanStatus
  selectedActionId : Option String
  selectedBy : Option String
  plan : RecoveryPlan
  lifecycle : Lifecycle
  updatedAt : ℤ
  /-- the serial `id` -/
  serial : ℕ
  /-- the transaction that wrote the row -/
  xmin : ℕ
  deriving DecidableEq

/-- The rows of a workspace. -/
abbrev RecoveryPlans : Type := Table RecoveryPlanRecord.planId

/-- A transaction that writes plans: its number and the value of `now()`. -/
structure Transaction : Type where
  xid : ℕ
  now : ℤ

/-- `OPEN_RECOVERY_PLAN_STATUSES`, which are the statuses that are not in
`RECOVERY_PLAN_MONOTONIC_STATUSES`. -/
def RecoveryPlanStatus.isOpen (status : RecoveryPlanStatus) : Bool := status = .selectionRequested

/-- The row with another lifecycle. -/
def RecoveryPlanRecord.withLifecycle (record : RecoveryPlanRecord) (tx : Transaction)
    (status : RecoveryPlanStatus) (lifecycle : Lifecycle) (clearSelection : Bool) :
    RecoveryPlanRecord :=
  { record with
    status := status
    selectedActionId := if clearSelection then none else record.selectedActionId
    selectedBy := if clearSelection then none else record.selectedBy
    lifecycle := lifecycle
    updatedAt := tx.now
    xmin := tx.xid }

/-- The row with a new attempt. -/
def RecoveryPlanRecord.withAttempt (record : RecoveryPlanRecord) (tx : Transaction)
    (attemptId actionId selectedBy : String) : RecoveryPlanRecord :=
  { record with
    status := .selected
    selectedActionId := some actionId
    selectedBy := some selectedBy
    lifecycle :=
      { Lifecycle.empty with
        phase := some .selected
        attempt := some
          { id := attemptId
            number := (record.lifecycle.attempt.map RecoveryAttempt.number).getD 0 + 1
            actionId := actionId
            selectedBy := selectedBy
            selectedAt := tx.now } }
    updatedAt := tx.now
    xmin := tx.xid }

/-- The row without its selection. -/
def RecoveryPlanRecord.withoutSelection (record : RecoveryPlanRecord) (tx : Transaction) :
    RecoveryPlanRecord :=
  { record with
    status := .selectionRequested
    selectedActionId := none
    selectedBy := none
    updatedAt := tx.now
    xmin := tx.xid }

/-- `upsert_recovery_plan`: the payload of the plan has no lifecycle. -/
def upsertRecoveryPlan (tx : Transaction) (plans : RecoveryPlans) (correlationId : String)
    (plan : RecoveryPlan) (status : RecoveryPlanStatus) (selectedActionId selectedBy : Option String) :
    RecoveryPlans :=
  let excluded : RecoveryPlanRecord :=
    { planId := plan.planId
      correlationId := correlationId
      incidentId := plan.incidentId
      evidenceRef := plan.evidenceRef
      status := status
      selectedActionId := selectedActionId
      selectedBy := selectedBy
      plan := plan
      lifecycle := Lifecycle.empty
      updatedAt := tx.now
      serial := tx.xid
      xmin := tx.xid }
  match plans.find? plan.planId with
  | none => plans.put excluded
  | some current =>
    if current.status.isOpen then plans.put { excluded with serial := current.serial }
    else
      plans.put
        { current with
          correlationId := correlationId
          incidentId := plan.incidentId
          evidenceRef := plan.evidenceRef
          updatedAt := tx.now
          xmin := tx.xid }

/-- `select_recovery_plan_action_if_open`; `none` when the plan is not open. -/
def selectRecoveryPlanActionIfOpen (tx : Transaction) (attemptId : String) (plans : RecoveryPlans)
    (planId actionId selectedBy : String) : Option (RecoveryPlans × RecoveryPlanRecord) := do
  let current ← plans.find? planId
  if current.status.isOpen then
    let row := current.withAttempt tx attemptId actionId selectedBy
    some (plans.put row, row)
  else none

/-- `reopen_recovery_plan_action`; `none` when it updates no row. -/
def reopenRecoveryPlanAction (tx : Transaction) (plans : RecoveryPlans)
    (planId actionId : String) : Option RecoveryPlans := do
  let current ← plans.find? planId
  if current.status = .selected && current.selectedActionId = some actionId then
    some (plans.put (current.withoutSelection tx))
  else none

/-- `update_recovery_plan_lifecycle_if_status`; `none` when the status is none of those that
are expected. -/
def updateRecoveryPlanLifecycleIfStatus (tx : Transaction) (plans : RecoveryPlans)
    (planId : String) (expectedStatuses : List RecoveryPlanStatus) (status : RecoveryPlanStatus)
    (lifecycle : Lifecycle) (clearSelection : Bool) : Option (RecoveryPlans × RecoveryPlanRecord) := do
  let current ← plans.find? planId
  if current.status ∈ expectedStatuses then
    let row := current.withLifecycle tx status lifecycle clearSelection
    some (plans.put row, row)
  else none

/-! ## Reading -/

/-- The identity of a pull request in a webhook, as far as a plan is looked up by it. -/
structure PullRequestIdentity : Type where
  url : String
  repoRef : String
  baseBranch : String
  number : ℕ
  nodeId : String
  headRef : String
  headSha : String
  mergeCommitSha : String
  deriving DecidableEq

/-- The row tracks the pull request; the head may have changed. -/
def RecoveryPlanRecord.tracksBase (casefold : String → String) (identity : PullRequestIdentity)
    (record : RecoveryPlanRecord) : Bool :=
  record.status = .prOpen && record.lifecycle.pr.any fun pr =>
    pr.url = identity.url && casefold pr.repoRef = casefold identity.repoRef &&
      pr.baseBranch = identity.baseBranch && pr.number = identity.number &&
      pr.nodeId = identity.nodeId && pr.headRef = identity.headRef

/-- The row tracks the pull request at this head. -/
def RecoveryPlanRecord.tracks (casefold : String → String) (identity : PullRequestIdentity)
    (record : RecoveryPlanRecord) : Bool :=
  record.tracksBase casefold identity &&
    record.lifecycle.pr.any fun pr => pr.headSha = identity.headSha

/-- The row is that of a deployment of the binding. -/
def RecoveryPlanRecord.deploys (workflowRunId bindingId applicationId : String)
    (record : RecoveryPlanRecord) : Bool :=
  (record.status = .deployPending || record.status = .verificationPending ||
      record.status = .completed || record.status = .failed) &&
    record.lifecycle.merge.any fun merge =>
      merge.workflowRunId = workflowRunId && merge.bindingId = bindingId &&
        merge.applicationId = applicationId

/-- What a plan is looked up by. -/
inductive PlanQuery : Type where
  /-- `get_recovery_plan` -/
  | byPlanId (planId : String)
  /-- `get_recovery_plan_by_correlation` -/
  | byCorrelation (correlationId : String)
  /-- `find_open_recovery_plan_for_pull_request_base_identity` -/
  | byPullRequestBase (identity : PullRequestIdentity)
  /-- `find_open_recovery_plan_for_pull_request` -/
  | byPullRequest (identity : PullRequestIdentity)
  /-- `get_recovery_plan_for_workflow` -/
  | byWorkflow (workflowRunId bindingId applicationId : String)

/-- The only row that satisfies a condition: `rows[0] if len(rows) == 1 else None`. -/
def onlyRow (plans : RecoveryPlans) (p : RecoveryPlanRecord → Bool) : Option RecoveryPlanRecord :=
  match plans.rows.filter p with
  | [record] => some record
  | _ => none

/-- The columns that the latest row comes last by. -/
def RecoveryPlanRecord.position (record : RecoveryPlanRecord) : ℤ ×ₗ ℕ :=
  toLex (record.updatedAt, record.serial)

/-- The row that a query returns. -/
def PlanQuery.run (casefold : String → String) (plans : RecoveryPlans) :
    PlanQuery → Option RecoveryPlanRecord
  | byPlanId planId => plans.find? planId
  | byCorrelation correlationId =>
    ((plans.rows.filter fun record => record.correlationId = correlationId).insertionSort
      fun a b => b.position ≤ a.position).head?
  | byPullRequestBase identity => onlyRow plans (RecoveryPlanRecord.tracksBase casefold identity)
  | byPullRequest identity => onlyRow plans (RecoveryPlanRecord.tracks casefold identity)
  | byWorkflow workflowRunId bindingId applicationId =>
    onlyRow plans (RecoveryPlanRecord.deploys workflowRunId bindingId applicationId)

/-- `list_recovery_verification_plans`: the oldest plans of a cluster that wait for
evidence. -/
def listRecoveryVerificationPlans (plans : RecoveryPlans) (clusterId : String) (limit : ℕ) :
    List RecoveryPlanRecord :=
  let rows := plans.rows.filter fun record =>
    record.status = .verificationPending &&
      record.plan.target.get? "cluster_id" = some (.str clusterId)
  (rows.insertionSort fun a b => a.position ≤ b.position).take (max 1 (min limit 500))

end Opsia.Recovery
