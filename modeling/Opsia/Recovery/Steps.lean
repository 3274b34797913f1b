import Opsia.Recovery.System

/-!
# What an operation does to the plans

An operation writes no plan, or one row, or the overdue ones (`step_effect`). A row is
planned anew or touched, selected, reopened, or gets a lifecycle that a writer computed from
a row it has read (`LifecycleWrite`); whether the row is still that one is checked by its
status alone.
-/

namespace Opsia.Recovery

open RecoveryState

variable (env : RecoveryEnv)

/-! ## Writes -/

/-- What a writer computes from the row that it has read: the status that it expects and the
one that it writes, the lifecycle, and the events. -/
inductive LifecycleWrite (s : RecoveryState) : RecoveryAction → RecoveryPlanRecord →
    RecoveryPlanStatus → RecoveryPlanStatus → Lifecycle → List RecoveryEvent → Prop where
  | tracked (h : ℕ) (collected : Json) (now : ℤ) (event : SafePrCreated)
      (record : RecoveryPlanRecord) (approval : Option RecoveryApproval)
      (selected : RecoveryActionCandidate) (hwork : s.work? h = some (.createdPr event record approval))
      (hselected : selectedRecoveryCandidate record = some selected)
      (hidentity : safePrIdentityError event (selectedCandidateParams approval) = none) :
      LifecycleWrite s (.trackCreatedPr h collected now) record .selected .prOpen
        (trackedLifecycle env record selected (selectedCandidateParams approval) event collected now)
        [.prTracked record.planId event.prUrl]
  | prFailed (h : ℕ) (now : ℤ) (event : SafePrFailed) (record : RecoveryPlanRecord)
      (hwork : s.work? h = some (.failedPr event record)) :
      LifecycleWrite s (.failCreatedPr h now) record .selected .failed
        (safePrFailedLifecycle record.lifecycle event)
        [.followupRequired record.planId event.reasonCode]
  | rejected (h : ℕ) (targets : List PollTarget) (image : String) (now : ℤ)
      (webhook : PullRequestWebhook) (base : RecoveryPlanRecord)
      (exact : Option (Option RecoveryPlanRecord)) (record : RecoveryPlanRecord)
      (reasonCode reason : String) (hwork : s.work? h = some (.pullRequest webhook base exact))
      (hdecision : handleTrackedRecoveryPullRequest env webhook base exact.join targets image now =
        .reject record reasonCode reason) :
      LifecycleWrite s (.answerPullRequest h targets image now) record .prOpen .selectionRequested
        (rejectedLifecycle record.lifecycle reasonCode reason)
        [.verificationFailed record.planId reasonCode]
  | merged (h : ℕ) (targets : List PollTarget) (image : String) (now : ℤ)
      (webhook : PullRequestWebhook) (base : RecoveryPlanRecord)
      (exact : Option (Option RecoveryPlanRecord)) (record : RecoveryPlanRecord)
      (lifecycle : Lifecycle) (request : DeploymentRequest)
      (hwork : s.work? h = some (.pullRequest webhook base exact))
      (hdecision : handleTrackedRecoveryPullRequest env webhook base exact.join targets image now =
        .merge record lifecycle request) :
      LifecycleWrite s (.answerPullRequest h targets image now) record .prOpen .deployPending
        lifecycle [.deploymentRequested request]
  | deployFailed (h : ℕ) (now : ℤ) (acknowledged : Bool) (event : DeployEvent)
      (record : RecoveryPlanRecord) (reason : String)
      (hwork : s.work? h = some (.deploy event record)) (hstatus : record.status = .deployPending)
      (houtcome : event.outcome = .failed reason) :
      LifecycleWrite s (.answerDeploy h now acknowledged) record .deployPending .failed
        (deployFailedLifecycle record.lifecycle event.workflowRunId reason)
        [.verificationFailed record.planId "recovery_deploy_failed"]
  | started (h : ℕ) (now : ℤ) (acknowledged : Bool) (event : DeployEvent)
      (record : RecoveryPlanRecord) (hwork : s.work? h = some (.deploy event record))
      (hstatus : record.status = .deployPending) :
      LifecycleWrite s (.answerDeploy h now acknowledged) record .deployPending
        .verificationPending (startedLifecycle record.lifecycle now)
        [.verificationStarted record.planId event.workflowRunId]
  | judged (h : ℕ) (alerts : List Json) (writtenAt : ℤ) (window : EvidenceWindow) (now : ℤ)
      (record : RecoveryPlanRecord) (records : List RecoveryPlanRecord)
      (decision : VerificationDecision)
      (hwork : s.work? h = some (.evidence window now (record :: records)))
      (hdecision : decision = judge env.assessment record.plan record.lifecycle.verificationOrEmpty
        window alerts now) :
      LifecycleWrite s (.judgeNext h alerts writtenAt) record .verificationPending
        decision.status.planStatus (judgedLifecycle record.lifecycle window decision)
        (decisionEvents record.planId window.evidenceRef decision)
  | reselected (h : ℕ) (writtenAt : ℤ) (record : RecoveryPlanRecord)
      (selected : RecoveryActionCandidate) (requestedBy reason : String) (now : ℤ)
      (hwork : s.work? h = some (.reselect record selected requestedBy reason now)) :
      LifecycleWrite s (.reselect h writtenAt) record .failed .selected
        (reselectedLifecycle record.lifecycle (attemptId env s.xid)
          (PyText.strip (record.selectedActionId.getD "")) requestedBy reason now)
        [.retryRequested record.planId "safe_pr" (recoverySelectionAttemptNumber record.lifecycle),
          .actionSelected record.planId (some (attemptId env s.xid)) selected]
  | redeployed (h : ℕ) (request : RecoveryRetryRequest) (now writtenAt : ℤ)
      (record : RecoveryPlanRecord) (lifecycle : Lifecycle) (deployment : DeploymentRequest)
      (hwork : s.work? h = some (.plan record))
      (hretryable : (retryable record request && !failedAtSafePr record) = true)
      (hdecision : decideRetry env record s.runs.find? request.requestedBy
        (retryReason record request) now = some (.deploy lifecycle deployment)) :
      LifecycleWrite s (.retry h request now writtenAt) record .failed .deployPending lifecycle
        [.retryRequested record.planId "deploy"
          ((lifecycle.merge.map RecoveryMerge.retryAttempt).getD 0),
          .deploymentRequested deployment]
  | reverified (h : ℕ) (request : RecoveryRetryRequest) (now writtenAt : ℤ)
      (record : RecoveryPlanRecord) (lifecycle : Lifecycle)
      (hwork : s.work? h = some (.plan record))
      (hretryable : (retryable record request && !failedAtSafePr record) = true)
      (hdecision : decideRetry env record s.runs.find? request.requestedBy
        (retryReason record request) now = some (.verification lifecycle)) :
      LifecycleWrite s (.retry h request now writtenAt) record .failed .verificationPending
        lifecycle
        [.retryRequested record.planId "verification"
          (recoveryRetryNumber record.lifecycle.verificationOrEmpty.retryAttempt)]

/-- What a transaction writes in place of a row, and the events that it sends. -/
inductive Change (s : RecoveryState) (a : RecoveryAction) :
    Option RecoveryPlanRecord → RecoveryPlanRecord → List RecoveryEvent → Prop where
  /-- a plan that is new or open is planned -/
  | planned (correlationId : String) (plan : RecoveryPlan)
      (selected : Option RecoveryActionCandidate) (now : ℤ) (before : Option RecoveryPlanRecord)
      (after : RecoveryPlanRecord) (events : List RecoveryEvent)
      (ha : a = .plan correlationId plan selected now)
      (hopen : ∀ row, before = some row → row.status = .selectionRequested)
      (hstatus : (after.status = .selectionRequested ∧ events = []) ∨ ∃ candidate,
        after.status = .selected ∧ after.selectedActionId = some candidate.actionId ∧
          events = [.actionSelected after.planId none candidate])
      (hlifecycle : after.lifecycle = Lifecycle.empty) (hxmin : after.xmin = s.xid)
      (hplan : after.plan.planId = after.planId) : Change s a before after events
  /-- another plan event leaves the plan as it is -/
  | touched (row : RecoveryPlanRecord) (correlationId incidentId evidenceRef : String) (now : ℤ)
      (events : List RecoveryEvent) (hclosed : row.status ≠ .selectionRequested)
      (hevents : events = [] ∨ ∃ candidate, events = [.actionSelected row.planId none candidate]) :
      Change s a (some row)
        { row with
          correlationId := correlationId
          incidentId := incidentId
          evidenceRef := evidenceRef
          updatedAt := now
          xmin := s.xid } events
  /-- an operator selects an action of an open plan, and the approval is stored -/
  | selected (h : ℕ) (actionId : Option String) (params : Json) (selectedBy : String)
      (reason : Option String) (now : ℤ) (record row : RecoveryPlanRecord)
      (candidate : RecoveryActionCandidate)
      (ha : a = .select h actionId params selectedBy reason now)
      (hwork : s.work? h = some (.plan record)) (hkey : record.plan.planId = row.planId)
      (hopen : row.status = .selectionRequested)
      (hcandidate : approvedSelection env record.plan actionId params = some candidate)
      (happrovals : (step env s a).approvals = requestWorkflowApproval s.approvals
        (selectionApproval env record.plan candidate selectedBy reason)) :
      Change s a (some row)
        (row.withAttempt (s.next now) (attemptId env s.xid) candidate.actionId selectedBy)
        [.actionSelected row.planId (some (attemptId env s.xid))
          (candidateWithApprovalIdentity candidate
            (selectionApproval env record.plan candidate selectedBy reason).workflowRunId)]
  | reopened (row : RecoveryPlanRecord) (now : ℤ) (reasonCode : String)
      (hselected : row.status = .selected) :
      Change s a (some row) (row.withoutSelection (s.next now))
        [.followupRequired row.planId reasonCode]
  /-- a writer writes what it has computed -/
  | written (row record : RecoveryPlanRecord) (expected status : RecoveryPlanStatus)
      (lifecycle : Lifecycle) (events : List RecoveryEvent) (now : ℤ)
      (hwrite : LifecycleWrite env s a record expected status lifecycle events)
      (hkey : row.planId = record.planId) (hexpected : row.status = expected) :
      Change s a (some row)
        (row.withLifecycle (s.next now) status lifecycle (status = .selectionRequested)) events

/-- What an operation leaves of the plans and the events. -/
inductive Effect (s : RecoveryState) (a : RecoveryAction) (next : RecoveryState) : Prop where
  | quiet (hplans : next.plans = s.plans) (houtbox : next.outbox = s.outbox)
      (hxid : next.xid = s.xid)
  | wrote (after : RecoveryPlanRecord) (events : List RecoveryEvent)
      (hchange : Change env s a (s.plans.find? after.planId) after events)
      (hplans : next.plans = s.plans.put after) (houtbox : next.outbox = s.outbox ++ events)
      (hxid : next.xid = s.xid + 1)
  | expired (locked : List String) (limit : ℕ) (now : ℤ) (ha : a = .expire locked limit now)
      (hnext : next = expireRecoveryVerifications s locked limit now)

variable {env} {s : RecoveryState} {a : RecoveryAction}

variable {next : RecoveryState}

theorem Effect.congr {next' : RecoveryState} (h : Effect env s a next)
    (hplans : next'.plans = next.plans) (houtbox : next'.outbox = next.outbox)
    (hxid : next'.xid = next.xid) (hexpire : ∀ locked limit now, a ≠ .expire locked limit now) :
    Effect env s a next' := by
  cases h with
  | quiet hp ho hx => exact .quiet (hplans.trans hp) (houtbox.trans ho) (hxid.trans hx)
  | wrote after events hchange hp ho hx =>
    exact .wrote after events hchange (hplans.trans hp) (houtbox.trans ho) (hxid.trans hx)
  | expired locked limit now ha _ => exact absurd ha (hexpire locked limit now)

/-! ## The statements -/

theorem update_cases (s : RecoveryState) (now : ℤ) (planId : String)
    (expected status : RecoveryPlanStatus) (lifecycle : Lifecycle) (clearSelection : Bool)
    (events : List RecoveryEvent) :
    (s.update? now planId expected status lifecycle clearSelection events = none ∧
      ∀ row, s.plans.find? planId = some row → row.status ≠ expected) ∨
    ∃ row, s.plans.find? planId = some row ∧ row.status = expected ∧
      s.update? now planId expected status lifecycle clearSelection events =
        some (s.commit
          (s.plans.put (row.withLifecycle (s.next now) status lifecycle clearSelection)) events) := by
  simp only [update?, updateRecoveryPlanLifecycleIfStatus, Option.bind_eq_bind,
    List.mem_singleton]
  rcases hrow : s.plans.find? planId with _ | row
  · refine Or.inl ⟨by simp only [Option.bind_none, Option.map_none], fun row h => ?_⟩
    cases h
  · rw [Option.bind_some]
    by_cases hstatus : row.status = expected
    · refine Or.inr ⟨row, rfl, hstatus, ?_⟩
      rw [if_pos hstatus, Option.map_some]
    · refine Or.inl ⟨?_, fun row' hrow' => ?_⟩
      · rw [if_neg hstatus, Option.map_none]
      · obtain rfl := Option.some.inj hrow'
        exact hstatus

variable {h : ℕ} {now writtenAt : ℤ}

theorem Effect.update? (base : RecoveryState) {record : RecoveryPlanRecord}
    {expected status : RecoveryPlanStatus} {lifecycle : Lifecycle} {events : List RecoveryEvent}
    (hwrite : LifecycleWrite env s a record expected status lifecycle events)
    (hplans : base.plans = s.plans) (houtbox : base.outbox = s.outbox) (hxid : base.xid = s.xid)
    {clearSelection : Bool} (hclear : clearSelection = decide (status = .selectionRequested))
    (hnext : base.update? now record.planId expected status lifecycle clearSelection events =
      some next) : Effect env s a next := by
  rcases update_cases base now record.planId expected status lifecycle clearSelection events with
    ⟨hnone, -⟩ | ⟨row, hrow, hstatus, hsome⟩
  · rw [hnone] at hnext
    cases hnext
  · obtain rfl := Option.some.inj (hsome.symm.trans hnext)
    have hkey : row.planId = record.planId := Table.key_of_find? hrow
    have htx : base.next now = s.next now := by rw [RecoveryState.next, RecoveryState.next, hxid]
    refine .wrote (row.withLifecycle (s.next now) status lifecycle
      (status = .selectionRequested)) events ?_ ?_ ?_ ?_
    · change Change env s a (s.plans.find? row.planId) _ events
      rw [← hplans, hkey, hrow]
      exact .written row record expected status lifecycle events now hwrite hkey hstatus
    · change base.plans.put _ = _
      rw [hplans, htx, hclear]
    · change base.outbox ++ events = _
      rw [houtbox]
    · change base.xid + 1 = _
      rw [hxid]

theorem Effect.update (base : RecoveryState) {record : RecoveryPlanRecord}
    {expected status : RecoveryPlanStatus} {lifecycle : Lifecycle} {events : List RecoveryEvent}
    (hwrite : LifecycleWrite env s a record expected status lifecycle events)
    (hplans : base.plans = s.plans) (houtbox : base.outbox = s.outbox) (hxid : base.xid = s.xid)
    (now : ℤ) {clearSelection : Bool} (hclear : clearSelection = decide (status = .selectionRequested)) :
    Effect env s a
      (base.update now record.planId expected status lifecycle clearSelection events) := by
  rw [RecoveryState.update]
  rcases hnext : base.update? now record.planId expected status lifecycle clearSelection events with
    _ | next
  · exact .quiet hplans houtbox hxid
  · exact Effect.update? base hwrite hplans houtbox hxid hclear hnext

/-! ## The operations -/

/-- Planning inserts a row, replaces an open one or touches another one. -/
theorem planRecovery_effect (s : RecoveryState) (correlationId : String) (plan : RecoveryPlan)
    (selected : Option RecoveryActionCandidate) (now : ℤ) :
    Effect env s (.plan correlationId plan selected now)
      (planRecovery s correlationId plan selected now) := by
  have hupsert : ∀ status selectedActionId selectedBy events,
      ((status = .selectionRequested ∧ events = []) ∨ ∃ candidate,
        status = .selected ∧ selectedActionId = some candidate.actionId ∧
          events = [.actionSelected plan.planId none candidate]) →
      Effect env s (.plan correlationId plan selected now)
        (s.commit (upsertRecoveryPlan (s.next now) s.plans correlationId plan status
          selectedActionId selectedBy) events) := by
    intro status selectedActionId selectedBy events hstatus
    have hevents : events = [] ∨ ∃ candidate,
        events = [RecoveryEvent.actionSelected plan.planId none candidate] := by
      rcases hstatus with ⟨-, hevents⟩ | ⟨candidate, -, -, hevents⟩
      · exact Or.inl hevents
      · exact Or.inr ⟨candidate, hevents⟩
    rw [upsertRecoveryPlan]
    rcases hrow : s.plans.find? plan.planId with _ | row
    · refine .wrote _ events (.planned correlationId plan selected now _ _ events rfl ?_ hstatus rfl
        rfl rfl) rfl rfl rfl
      intro row h
      rw [hrow] at h
      cases h
    · dsimp only
      have hkey : row.planId = plan.planId := Table.key_of_find? hrow
      rcases hopen : row.status.isOpen with _ | _
      · rw [if_neg Bool.false_ne_true]
        refine .wrote _ events ?_ rfl rfl rfl
        change Change env s _ (s.plans.find? row.planId) _ events
        rw [hkey, hrow, ← hkey]
        refine .touched row correlationId plan.incidentId plan.evidenceRef now events ?_
          (hkey ▸ hevents)
        exact of_decide_eq_false hopen
      · rw [if_pos rfl]
        refine .wrote _ events (.planned correlationId plan selected now _ _ events rfl ?_ hstatus rfl
          rfl rfl) rfl rfl rfl
        intro row' h
        obtain rfl := Option.some.inj (hrow.symm.trans h)
        exact of_decide_eq_true hopen
  cases selected with
  | none => exact hupsert _ _ _ _ (Or.inl ⟨rfl, rfl⟩)
  | some candidate => exact hupsert _ _ _ _ (Or.inr ⟨candidate, rfl, rfl, rfl⟩)

theorem selectRecoveryAction_effect {actionId : Option String} {params : Json} {selectedBy : String}
    {reason : Option String}
    (hnext : selectRecoveryAction env s h actionId params selectedBy reason now = some next) :
    Effect env s (.select h actionId params selectedBy reason now) next := by
  have hstep : step env s (.select h actionId params selectedBy reason now) = next := by
    rw [step, RecoveryAction.apply, hnext, Option.getD_some]
  rw [selectRecoveryAction] at hnext
  split at hnext
  · rename_i record hwork
    simp only [Option.bind_eq_some_iff, Option.map_eq_some_iff, selectRecoveryPlanActionIfOpen,
      Option.bind_eq_bind, Option.ite_none_right_eq_some, Prod.exists] at hnext
    obtain ⟨candidate, hcandidate, plans, row', ⟨row, hrow, hopen, hrows⟩, rfl⟩ := hnext
    obtain ⟨rfl, -⟩ := Prod.mk.inj (Option.some.inj hrows)
    have hkey : row.planId = record.plan.planId := Table.key_of_find? hrow
    refine .wrote _ _ ?_ rfl rfl rfl
    change Change env s _ (s.plans.find? row.planId) _ _
    rw [hkey, hrow, ← hkey]
    exact .selected h actionId params selectedBy reason now record row candidate rfl hwork hkey.symm
      (of_decide_eq_true hopen) hcandidate (by rw [hstep])
  · cases hnext

theorem reopenRecovery_effect (base : RecoveryState) {planId actionId reasonCode : String}
    (hplans : base.plans = s.plans) (houtbox : base.outbox = s.outbox) (hxid : base.xid = s.xid)
    (hnext : reopenRecovery base planId actionId reasonCode now = some next) :
    Effect env s a next := by
  simp only [reopenRecovery, reopenRecoveryPlanAction, Option.map_eq_some_iff, Option.bind_eq_bind,
    Option.bind_eq_some_iff, Option.ite_none_right_eq_some, Bool.and_eq_true,
    decide_eq_true_eq] at hnext
  obtain ⟨plans, ⟨row, hrow, ⟨hselected, -⟩, hrows⟩, rfl⟩ := hnext
  obtain rfl := Option.some.inj hrows
  have hkey : row.planId = planId := Table.key_of_find? hrow
  have htx : base.next now = s.next now := by rw [RecoveryState.next, RecoveryState.next, hxid]
  refine .wrote (row.withoutSelection (s.next now)) [.followupRequired planId reasonCode]
    ?_ ?_ ?_ ?_
  · change Change env s a (s.plans.find? row.planId) _ _
    rw [← hplans, hkey, hrow, ← hkey]
    exact .reopened row now reasonCode hselected
  · change base.plans.put _ = _
    rw [hplans, htx]
  · change base.outbox ++ _ = _
    rw [houtbox]
  · change base.xid + 1 = _
    rw [hxid]

theorem trackCreatedPr_effect {collected : Json}
    (hnext : trackCreatedPr env s h collected now = some next) :
    Effect env s (.trackCreatedPr h collected now) next := by
  rw [trackCreatedPr] at hnext
  split at hnext
  · rename_i event record approval hwork
    obtain ⟨selected, hselected, rfl⟩ := Option.map_eq_some_iff.mp hnext
    dsimp only
    split
    · rcases hreopen : reopenRecovery (s.finish h) record.planId (record.selectedActionId.getD "")
        "safe_pr_identity_incomplete" now with _ | next
      · exact .quiet rfl rfl rfl
      · exact reopenRecovery_effect (s.finish h) rfl rfl rfl hreopen
    · rename_i hidentity
      exact Effect.update (s.finish h)
        (.tracked h collected now event record approval selected hwork hselected hidentity)
        rfl rfl rfl now rfl
  · cases hnext

theorem failCreatedPr_effect (hnext : failCreatedPr s h now = some next) :
    Effect env s (.failCreatedPr h now) next := by
  rw [failCreatedPr] at hnext
  split at hnext
  · rename_i event record hwork
    obtain rfl := Option.some.inj hnext
    exact Effect.update (s.finish h) (.prFailed h now event record hwork) rfl rfl rfl now rfl
  · cases hnext

theorem answerPullRequest_effect {targets : List PollTarget} {image : String}
    (hnext : answerPullRequest env s h targets image now = some next) :
    Effect env s (.answerPullRequest h targets image now) next := by
  rw [answerPullRequest] at hnext
  split at hnext
  · rename_i webhook base exact hwork
    split at hnext
    · cases hnext
    · obtain rfl := Option.some.inj hnext
      rcases hdecision : handleTrackedRecoveryPullRequest env webhook base exact.join targets image
        now with _ | ⟨record, reasonCode, reason⟩ | ⟨record, lifecycle, request⟩
      · exact .quiet rfl rfl rfl
      · exact Effect.update (s.finish h)
          (.rejected h targets image now webhook base exact record reasonCode reason hwork hdecision)
          rfl rfl rfl now rfl
      · simp only [answerPullRequest.answerDecision]
        rcases hupdate : (s.finish h).update? now record.planId .prOpen .deployPending lifecycle
          false [.deploymentRequested request] with _ | next
        · exact .quiet rfl rfl rfl
        · exact (Effect.update? (s.finish h)
            (.merged h targets image now webhook base exact record lifecycle request hwork hdecision)
            rfl rfl rfl rfl hupdate).congr rfl rfl rfl nofun
  · cases hnext

theorem answerDeploy_effect {acknowledged : Bool}
    (hnext : answerDeploy env s h now acknowledged = some next) :
    Effect env s (.answerDeploy h now acknowledged) next := by
  rw [answerDeploy] at hnext
  split at hnext
  · rename_i event record hwork
    obtain rfl := Option.some.inj hnext
    suffices hanswer : Effect env s (.answerDeploy h now acknowledged)
        (answerDeployEvent env (s.finish h) event record now) from
      hanswer.congr rfl rfl rfl nofun
    rw [answerDeployEvent]
    split
    · exact .quiet rfl rfl rfl
    · rename_i hstatus
      rw [not_not] at hstatus
      split
      · rename_i reason houtcome
        exact Effect.update (s.finish h) (.deployFailed h now acknowledged event record reason hwork hstatus houtcome)
          rfl rfl rfl now rfl
      all_goals
        split
        · exact Effect.update (s.finish h) (.started h now acknowledged event record hwork hstatus) rfl rfl rfl now
            rfl
        · exact .quiet rfl rfl rfl
  · cases hnext

theorem judgeNext_effect {alerts : List Json}
    (hnext : judgeNext env s h alerts writtenAt = some next) :
    Effect env s (.judgeNext h alerts writtenAt) next := by
  rw [judgeNext] at hnext
  split at hnext
  · rename_i window now record records hwork
    obtain rfl := Option.some.inj hnext
    rw [judgePlan]
    refine Effect.update (s.begin h (.evidence window now records)) (.judged h alerts writtenAt window now record records _ hwork rfl) rfl rfl
      rfl writtenAt ?_
    cases (judge env.assessment record.plan record.lifecycle.verificationOrEmpty window alerts
      now).status <;> rfl
  · cases hnext

theorem reselectRecovery_effect (hnext : reselectRecovery env s h writtenAt = some next) :
    Effect env s (.reselect h writtenAt) next := by
  rw [reselectRecovery] at hnext
  split at hnext
  · rename_i record selected requestedBy reason now hwork
    obtain rfl := Option.some.inj hnext
    exact Effect.update (s.finish h) (.reselected h writtenAt record selected requestedBy reason now hwork) rfl rfl
      rfl writtenAt rfl
  · cases hnext

theorem retryRecovery_effect {request : RecoveryRetryRequest}
    (hnext : retryRecovery env s h request now writtenAt = some next) :
    Effect env s (.retry h request now writtenAt) next := by
  rw [retryRecovery] at hnext
  split at hnext
  · rename_i record hwork
    simp only [Option.ite_none_right_eq_some, Option.map_eq_some_iff] at hnext
    obtain ⟨hretryable, decision, hdecision, rfl⟩ := hnext
    cases decision with
    | deploy lifecycle deployment =>
      exact Effect.update (s.finish h) (.redeployed h request now writtenAt record lifecycle deployment
        hwork hretryable hdecision) rfl rfl rfl writtenAt rfl
    | verification lifecycle =>
      exact Effect.update (s.finish h) (.reverified h request now writtenAt record lifecycle hwork
        hretryable hdecision) rfl rfl rfl writtenAt rfl
  · cases hnext

/-- An operation that goes through has an effect on the plans. -/
theorem apply_effect (hnext : a.apply env s = some next) :
    Effect env s a next := by
  cases a with
  | plan correlationId plan selected now =>
    obtain rfl := Option.some.inj hnext
    exact planRecovery_effect s correlationId plan selected now
  | reopen planId actionId reasonCode now => exact reopenRecovery_effect s rfl rfl rfl hnext
  | select h actionId params selectedBy reason now => exact selectRecoveryAction_effect hnext
  | reselect h writtenAt => exact reselectRecovery_effect hnext
  | retry h request now writtenAt => exact retryRecovery_effect hnext
  | trackCreatedPr h collected now => exact trackCreatedPr_effect hnext
  | failCreatedPr h now => exact failCreatedPr_effect hnext
  | answerPullRequest h targets image now => exact answerPullRequest_effect hnext
  | answerDeploy h now acknowledged => exact answerDeploy_effect hnext
  | judgeNext h alerts writtenAt => exact judgeNext_effect hnext
  | expire locked limit now =>
    obtain rfl := Option.some.inj hnext
    exact .expired locked limit now rfl rfl
  -- the others only read, or are about runs
  | lookup h query =>
    obtain ⟨record, -, rfl⟩ := Option.map_eq_some_iff.mp hnext
    exact .quiet rfl rfl rfl
  | approveReselection h request params now =>
    rw [RecoveryAction.apply, approveReselection] at hnext
    split at hnext
    · simp only [Option.ite_none_right_eq_some, Option.bind_eq_some_iff,
        Option.ite_none_left_eq_some] at hnext
      obtain ⟨-, candidate, -, -, hnext⟩ := hnext
      obtain rfl := Option.some.inj hnext
      exact .quiet rfl rfl rfl
    · cases hnext
  | receiveCreatedPr h event =>
    simp only [RecoveryAction.apply, receiveCreatedPr, Option.bind_eq_bind,
      Option.bind_eq_some_iff, Option.ite_none_right_eq_some] at hnext
    obtain ⟨record, -, selected, -, -, hnext⟩ := hnext
    obtain rfl := Option.some.inj hnext
    exact .quiet rfl rfl rfl
  | receiveFailedPr h event =>
    simp only [RecoveryAction.apply, receiveFailedPr, Option.bind_eq_bind,
      Option.bind_eq_some_iff, Option.ite_none_right_eq_some] at hnext
    obtain ⟨record, -, identity, -, -, hnext⟩ := hnext
    obtain rfl := Option.some.inj hnext
    exact .quiet rfl rfl rfl
  | receivePullRequest h webhook =>
    obtain ⟨base, -, rfl⟩ := Option.map_eq_some_iff.mp hnext
    exact .quiet rfl rfl rfl
  | matchPullRequest h =>
    rw [RecoveryAction.apply, matchPullRequest] at hnext
    split at hnext
    · obtain rfl := Option.some.inj hnext
      exact .quiet rfl rfl rfl
    · cases hnext
  | startRun request =>
    rw [RecoveryAction.apply, startRun] at hnext
    split at hnext
    · obtain rfl := Option.some.inj hnext
      exact .quiet rfl rfl rfl
    · cases hnext
  | moveRun workflowRunId status reason =>
    simp only [RecoveryAction.apply, moveRun, Option.bind_eq_some_iff,
      Option.ite_none_right_eq_some] at hnext
    obtain ⟨run, -, -, hnext⟩ := hnext
    obtain rfl := Option.some.inj hnext
    exact .quiet rfl rfl rfl
  | receiveDeploy h event =>
    rw [RecoveryAction.apply, receiveDeploy] at hnext
    split at hnext
    · split at hnext
      all_goals
        obtain rfl := Option.some.inj hnext
        exact .quiet rfl rfl rfl
    · cases hnext
  | receiveEvidence h window clusterId now =>
    obtain rfl := Option.some.inj hnext
    exact .quiet rfl rfl rfl
  | die h =>
    obtain rfl := Option.some.inj hnext
    exact .quiet rfl rfl rfl

theorem step_effect (env : RecoveryEnv) (s : RecoveryState) (a : RecoveryAction) :
    Effect env s a (step env s a) := by
  rw [step]
  rcases hnext : a.apply env s with _ | next
  · exact .quiet rfl rfl rfl
  · exact apply_effect hnext

end Opsia.Recovery
