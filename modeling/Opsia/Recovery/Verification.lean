import Opsia.Recovery.Plans

/-!
# Recovery verification

`domains/rca/recovery_verification.py` and the lifecycles that its callers write: an evidence
window is judged against the verification of a plan, and the plan completes after the
conditions have held for a while, or fails at its deadline. A verification starts when the
deployment has succeeded, and starts again when an operator retries it.

What the metrics, the replicas and the alerts show is left to an `Assessment`: it compares
floating point numbers.
-/

namespace Opsia.Recovery

def defaultMinimumSeconds : ℕ := 300

def defaultMaximumSeconds : ℕ := 600

/-- A number of seconds in microseconds. -/
def microseconds (seconds : ℕ) : ℤ := seconds * 1000000

/-! ## Evidence -/

/-- The payload of an evidence window and the reference it came with. -/
structure EvidenceWindow : Type where
  evidenceRef : String
  evidenceKey : String
  windowStart : Option ℤ
  payload : Json
  deriving DecidableEq

/-- What an evidence window and the alerts show of a target. -/
structure Assessment : Type where
  /-- `observed_after` -/
  observedAfter : Verification → RecoveryTarget → EvidenceWindow → Json
  /-- `verification_checks`: whether every condition holds, `none` for a missing one -/
  verificationChecks : Verification → RecoveryTarget → Json → List Json →
    List (String × Option Bool)

/-- `text`. -/
def textOf : Option Json → String
  | some (.str s) => PyText.strip s
  | _ => ""

def recoveryTarget (plan : RecoveryPlan) : RecoveryTarget :=
  let selected := plan.candidates.find? fun candidate =>
    PyText.strip candidate.actionId = PyText.strip plan.recommendedActionId
  let orDraft (field : String) (ofDraft : HealingActionDraft → String) :=
    let text := textOf (plan.target.get? field)
    if text = "" then (selected.map fun candidate => PyText.strip (ofDraft candidate.draft)).getD ""
    else text
  { clusterId := textOf (plan.target.get? "cluster_id")
    namespaceName := orDraft "namespace" HealingActionDraft.namespaceName
    resourceKind := orDraft "resource_kind" HealingActionDraft.resourceKind
    resourceName := orDraft "resource_name" HealingActionDraft.resourceName }

/-- A lifecycle without a verification is read as one without fields. -/
def Verification.empty : Verification where
  minimumSeconds := none
  maximumSeconds := none
  expected := .null
  evidenceCadenceSeconds := none
  before := .null
  protectedBaseline := .null
  protectedSessionBaseline := .null
  target := none
  status := ""
  blockers := []
  startedAt := none
  deadlineAt := none
  healthySince := none
  lastHealthyObservedAt := none
  distinctEvidenceCount := 0
  lastEvidenceKey := none
  lastReasonCode := ""
  lastReason := ""
  after := none
  lastSessionSamples := .null
  retryAttempt := none
  expiredAt := none

/-! ## The decision -/

/-- `VerificationDecision.status`. -/
inductive DecisionStatus : Type where
  | pending
  | completed
  | failed
  deriving DecidableEq, Repr

structure VerificationDecision : Type where
  status : DecisionStatus
  reasonCode : String
  reason : String
  after : VerificationAfter
  healthySince : Option ℤ
  lastHealthyObservedAt : Option ℤ
  distinctEvidenceCount : ℕ
  lastEvidenceKey : Option String

/-- A text that is not empty. -/
def nonempty? (s : String) : Option String := if s = "" then none else some s

/-- The decision on a window that is not used: progress stays as it is. -/
def VerificationDecision.unused (verification : Verification) (after : VerificationAfter)
    (reasonCode reason : String) : VerificationDecision where
  status := .pending
  reasonCode := reasonCode
  reason := reason
  after := after
  healthySince := verification.healthySince
  lastHealthyObservedAt := verification.lastHealthyObservedAt
  distinctEvidenceCount := verification.distinctEvidenceCount
  lastEvidenceKey := verification.lastEvidenceKey.bind nonempty?

/-- The decision on a window that does not show the target healthy: progress is lost. -/
def VerificationDecision.lost (status : DecisionStatus) (after : VerificationAfter)
    (lastEvidenceKey : Option String) (reasonCode reason : String) : VerificationDecision where
  status := status
  reasonCode := reasonCode
  reason := reason
  after := after
  healthySince := none
  lastHealthyObservedAt := none
  distinctEvidenceCount := 0
  lastEvidenceKey := lastEvidenceKey

/-- The decision on a window that shows the target healthy. -/
def evaluateHealthy (verification : Verification) (after : VerificationAfter)
    (lastEvidenceKey : Option String) (minimumSeconds cadenceSeconds : ℕ)
    (observedAt now : ℤ) : VerificationDecision :=
  -- a gap of more than one and a half times the cadence starts anew
  let gap := verification.lastHealthyObservedAt.any fun previous =>
    observedAt - previous ≤ 0 || 3 * microseconds cadenceSeconds < 2 * (observedAt - previous)
  let healthySince := if gap then none else verification.healthySince
  let distinctCount := (if gap then 0 else verification.distinctEvidenceCount) + 1
  let stableFrom := healthySince.getD observedAt
  let stable := max 0 (observedAt - stableFrom)
  let after :=
    { after with
      healthySince := some stableFrom
      stableMicroseconds := some stable
      distinctEvidenceCount := some distinctCount }
  let decision (status : DecisionStatus) (reasonCode reason : String) : VerificationDecision :=
    ⟨status, reasonCode, reason, after, some stableFrom, some observedAt, distinctCount,
      lastEvidenceKey⟩
  let minimumDistinct := max 2 ((minimumSeconds + cadenceSeconds - 1) / cadenceSeconds + 1)
  if stable < microseconds minimumSeconds || distinctCount < minimumDistinct then
    if verification.deadlineAt.any (· ≤ now) then
      decision .failed "verification_window_expired"
        "최대 검증 시간 안에 최소 연속 정상화 시간을 충족하지 못했습니다."
    else
      decision .pending "stabilization_window_in_progress"
        ("정상화 조건이 " ++ toString (stable / 1000000) ++ "초 유지됐습니다. 최소 " ++
          toString minimumSeconds ++ "초 연속 관측 후 완료합니다.")
  else
    decision .completed "recovery_verified"
      ("동일 부하에서 실패율·Deployment replica·Alertmanager 해소 상태가 " ++
        toString minimumSeconds ++ "초 이상 안정적으로 유지됐습니다.")

def evaluateRecoveryEvidence (assessment : Assessment) (plan : RecoveryPlan)
    (verification : Verification) (evidence : EvidenceWindow) (alerts : List Json) (now : ℤ) :
    VerificationDecision :=
  let target := verification.target.getD (recoveryTarget plan)
  let minimumSeconds := (verification.minimumSeconds.map fun seconds =>
    max defaultMinimumSeconds (min seconds defaultMaximumSeconds)).getD defaultMinimumSeconds
  let evidenceKey := PyText.strip evidence.evidenceKey
  let observed := assessment.observedAfter verification target evidence
  let checks := assessment.verificationChecks verification target observed alerts
  let after : VerificationAfter :=
    { observed := observed
      checks := checks
      observedAt := now
      evidenceObservedAt := evidence.windowStart
      evidenceRef := evidenceKey
      healthySince := none
      stableMicroseconds := none
      distinctEvidenceCount := none }
  let previousKey := PyText.strip (verification.lastEvidenceKey.getD "")
  let lastEvidenceKey := (nonempty? evidenceKey).or (nonempty? previousKey)
  if evidenceKey ≠ "" && evidenceKey = previousKey then
    .unused verification after "duplicate_evidence_window"
      "이미 판정한 evidence 창의 재전달은 안정화 시간에 포함하지 않습니다."
  else
    match evidence.windowStart, verification.startedAt with
    | some observedAt, some startedAt =>
      if observedAt < startedAt || now < observedAt then stale verification after
      else
        let failedChecks := (checks.filter fun check => check.2 = some false).map Prod.fst
        let missingChecks := (checks.filter fun check => check.2 = none).map Prod.fst
        if !failedChecks.isEmpty || !missingChecks.isEmpty then
          let reason :=
            if !failedChecks.isEmpty then
              "복구 검증 조건이 충족되지 않았습니다: " ++ ", ".intercalate failedChecks
            else "복구 검증 근거가 아직 없습니다: " ++ ", ".intercalate missingChecks
          if verification.deadlineAt.any (· ≤ now) then
            .lost .failed after lastEvidenceKey "verification_window_expired"
              ("최대 검증 시간 안에 정상화 근거를 확보하지 못했습니다. " ++ reason)
          else
            .lost .pending after lastEvidenceKey
              (if !failedChecks.isEmpty then "verification_regressed"
                else "verification_evidence_missing") reason
        else
          match verification.evidenceCadenceSeconds.filter (0 < ·) with
          | none =>
            .lost .pending after lastEvidenceKey "verification_evidence_missing"
              "설치 정책의 evidence 수집 주기를 확인할 수 없어 안정화 시간을 계산하지 않습니다."
          | some cadenceSeconds =>
            evaluateHealthy verification after lastEvidenceKey minimumSeconds cadenceSeconds
              observedAt now
    | _, _ => stale verification after
where
  /-- The window is not of the time of the verification. -/
  stale (verification : Verification) (after : VerificationAfter) : VerificationDecision :=
    .unused verification after "stale_evidence_window"
      "검증 시작 이후의 trusted window_start를 가진 evidence만 사용합니다."

/-! ## Writing the decision down -/

/-- The text of the status of a decision. -/
def DecisionStatus.text : DecisionStatus → String
  | pending => "pending"
  | completed => "completed"
  | failed => "failed"

/-- The status of the plan after a decision. -/
def DecisionStatus.planStatus : DecisionStatus → RecoveryPlanStatus
  | pending => .verificationPending
  | completed => .completed
  | failed => .failed

/-- The samples of the protected sessions that a window shows. -/
def sessionSamples? (observed : Json) : Option Json :=
  match observed.get? "protected_active_sessions" with
  | some (.arr items) =>
    some (.arr (items.filter fun item => match item with
      | .obj _ => true
      | _ => false))
  | _ => none

/-- `verification.update` with a decision. -/
def Verification.record (verification : Verification) (decision : VerificationDecision) :
    Verification :=
  { verification with
    status := decision.status.text
    healthySince := decision.healthySince
    lastHealthyObservedAt := decision.lastHealthyObservedAt
    distinctEvidenceCount := decision.distinctEvidenceCount
    lastEvidenceKey := decision.lastEvidenceKey
    lastReasonCode := decision.reasonCode
    lastReason := decision.reason
    after := some decision.after
    lastSessionSamples :=
      (sessionSamples? decision.after.observed).getD verification.lastSessionSamples }

/-- The alerts that are looked up: there are none without the alert that the recovery began
with. -/
def consideredAlerts (verification : Verification) (alerts : List Json) : List Json :=
  if (verification.before.get? "alert_event_id").any Json.truthy &&
      (verification.before.get? "subject_key").any Json.truthy &&
      verification.startedAt.isSome then alerts
  else []

/-- The verification that a lifecycle has. -/
def Lifecycle.verificationOrEmpty (lifecycle : Lifecycle) : Verification :=
  lifecycle.verification.getD Verification.empty

/-- The decision of `on_recovery_verification_evidence` on one plan. -/
def judge (assessment : Assessment) (plan : RecoveryPlan) (verification : Verification)
    (evidence : EvidenceWindow) (alerts : List Json) (now : ℤ) : VerificationDecision :=
  evaluateRecoveryEvidence assessment plan verification evidence
    (consideredAlerts verification alerts) now

/-- The lifecycle that `on_recovery_verification_evidence` writes, with
`apply_verification_terminal_state`. -/
def judgedLifecycle (lifecycle : Lifecycle) (evidence : EvidenceWindow)
    (decision : VerificationDecision) : Lifecycle :=
  { lifecycle with
    phase := some decision.status.planStatus
    verification := some (lifecycle.verificationOrEmpty.record decision)
    failure :=
      match decision.status with
      | .failed =>
        some { RecoveryFailure.plain decision.reasonCode decision.reason with
          evidenceRef := evidence.evidenceRef }
      | .completed => none
      | .pending => lifecycle.failure }

/-! ## Starting, expiring and retrying -/

def verificationDeadline (startedAt : ℤ) (maximumSeconds : ℕ) : ℤ :=
  startedAt + microseconds maximumSeconds

/-- The lifecycle that `start_recovery_verification` writes. -/
def startedLifecycle (lifecycle : Lifecycle) (now : ℤ) : Lifecycle :=
  let verification := lifecycle.verificationOrEmpty
  let maximumSeconds := (verification.maximumSeconds.filter (0 < ·)).getD defaultMaximumSeconds
  { lifecycle with
    phase := some .verificationPending
    verification := some
      { verification with
        status := "verification_pending"
        startedAt := some now
        deadlineAt := some (verificationDeadline now maximumSeconds)
        healthySince := none
        lastReasonCode := "waiting_for_post_deploy_evidence"
        lastReason := "배포 성공 후 첫 정상화 evidence 창을 기다립니다." } }

/-- What `expire_recovery_verifications` writes into a verification. -/
def Verification.expire (verification : Verification) (now : ℤ) : Verification :=
  { verification with
    status := "failed"
    lastReasonCode := "verification_window_expired"
    lastReason :=
      "최대 검증 시간 안에 연속 정상화 근거가 충족되지 않아 복구 완료로 판정하지 않았습니다."
    expiredAt := some now }

/-- The lifecycle that `expire_recovery_verifications` writes. -/
def expiredLifecycle (lifecycle : Lifecycle) (now : ℤ) : Lifecycle :=
  let verification := lifecycle.verificationOrEmpty.expire now
  { lifecycle with
    phase := some .failed
    verification := some verification
    failure := some (RecoveryFailure.plain verification.lastReasonCode verification.lastReason) }

def recoveryRetryNumber (retryAttempt : Option ℕ) : ℕ := (retryAttempt.map (· + 1)).getD 1

/-- What `verification_retry_lifecycle` writes into a verification. -/
def Verification.restart (verification : Verification) (now : ℤ) : Verification :=
  let maximumSeconds := (verification.maximumSeconds.filter fun seconds =>
    0 < seconds && seconds ≤ defaultMaximumSeconds).getD defaultMaximumSeconds
  { verification with
    status := "verification_pending"
    startedAt := some now
    deadlineAt := some (verificationDeadline now maximumSeconds)
    healthySince := none
    lastHealthyObservedAt := none
    distinctEvidenceCount := 0
    lastEvidenceKey := none
    lastSessionSamples := verification.protectedSessionBaseline
    after := none
    lastReasonCode := "waiting_for_post_deploy_evidence"
    lastReason := "동일 배포 identity로 안정화 검증을 다시 시작했습니다."
    retryAttempt := some (recoveryRetryNumber verification.retryAttempt) }

/-- The lifecycle of `verification_retry_lifecycle`. -/
def retriedLifecycle (lifecycle : Lifecycle) (now : ℤ) (requestedBy reason workflowRunId : String) :
    Lifecycle :=
  let verification := lifecycle.verificationOrEmpty
  { lifecycle with
    phase := some .verificationPending
    verification := some (verification.restart now)
    failure := none
    retry := some
      { stage := "verification"
        attempt := recoveryRetryNumber verification.retryAttempt
        requestedBy := requestedBy
        requestedAt := now
        reason := reason
        workflowRunId := some workflowRunId
        previousFailure := none } }

end Opsia.Recovery
