import Opsia.Recovery.Reads

/-!
# Waiting for a deployment

A plan that waits for a deployment names the run of its merge. The run is created from the
request that was sent with the merge, its end is told to the worker, and the event stays until
it has been answered. `DeployLaw` keeps these together: as long as a run is requested once
(`freshDeployments`), the run belongs to one plan and one wait, so that an event about its end
that is answered, or dropped, leaves no plan behind that still waits for it.
-/

namespace Opsia.Recovery

open RecoveryState

variable (env : RecoveryEnv)

/-! ## The property -/

/-- A plan that waits for a run that is over has an event still to be delivered, with which it
leaves the status. -/
def NotStuck (s : RecoveryState) : Prop :=
  ∀ row ∈ s.plans.rows, row.status = .deployPending →
    ∀ merge run, row.lifecycle.merge = some merge →
      s.runs.find? merge.workflowRunId = some run → run.status.isTerminal = true →
        ∃ event ∈ s.inbox, event.workflowRunId = merge.workflowRunId ∧
          ∀ h now acknowledged,
            (Runs.run (step env) s [.receiveDeploy h event, .answerDeploy h now acknowledged]).statusOf
              row.planId ≠ some .deployPending

/-! ## The condition -/

/-- No deployment of the run has been asked for. -/
def RecoveryState.isNewRun (s : RecoveryState) (workflowRunId : String) : Bool :=
  s.outbox.all fun event => match event with
    | .deploymentRequested request => request.workflowRunId ≠ workflowRunId
    | _ => true

/-- A plan begins to wait for a new run. With the merge, the pull request names the cluster
that it is deployed to, and the name of the workspace has no blanks around it. -/
def freshDeployments (s : RecoveryState) : RecoveryAction → Bool
  | .answerPullRequest h targets image now =>
    match s.work? h with
    | some (.pullRequest webhook base exact) =>
      match handleTrackedRecoveryPullRequest env webhook base exact.join targets image now with
      | .merge record _ _ =>
        s.statusOf record.planId ≠ some .prOpen ||
          (s.isNewRun
              (env.recoveryMergeWorkflowRunId record.planId webhook.identity.mergeCommitSha) &&
            PyText.strip env.workspaceId = env.workspaceId &&
            record.lifecycle.pr.all fun pr =>
              PyText.strip pr.clusterId = PyText.strip (expectedPollTarget env record pr).clusterId)
      | _ => true
    | _ => true
  | .retry h request now _ =>
    match s.work? h with
    | some (.plan record) =>
      match decideRetry env record s.runs.find? request.requestedBy (retryReason record request)
          now with
      | some (.deploy _ _) =>
        !(retryable record request && !failedAtSafePr record) ||
          s.statusOf record.planId ≠ some .failed ||
            record.lifecycle.merge.all fun merge =>
              s.isNewRun (env.deployRetryWorkflowRunId record.planId
                (PyText.strip merge.mergeCommitSha) (merge.retryAttempt + 1))
      | _ => true
    | _ => true
  | _ => true

variable {env} {s : RecoveryState} {a : RecoveryAction}

/-! ## What is known of a merge -/

/-- The identity of a pull request comes from stripped parameters. -/
structure PullRequestOk (pr : RecoveryPullRequest) : Prop where
  binding : PyText.strip pr.bindingId = pr.bindingId
  application : PyText.strip pr.applicationId = pr.applicationId

variable (env) in
/-- A merge names the run of its request, and agrees with it. -/
structure MergeOk (s : RecoveryState) (merge : RecoveryMerge) : Prop where
  sent : .deploymentRequested merge.deploymentRequest ∈ s.outbox
  run : merge.workflowRunId = merge.deploymentRequest.workflowRunId
  strip_run : PyText.strip merge.workflowRunId = merge.workflowRunId
  binding : merge.deploymentRequest.bindingId = merge.bindingId
  strip_binding : PyText.strip merge.bindingId = merge.bindingId
  application : merge.deploymentRequest.applicationId = merge.applicationId
  strip_application : PyText.strip merge.applicationId = merge.applicationId
  commit : merge.deploymentRequest.commitSha = merge.mergeCommitSha
  cluster : PyText.strip merge.deploymentRequest.clusterId = PyText.strip merge.clusterId
  workspace : PyText.strip merge.deploymentRequest.workspaceId = env.workspaceId

/-- The event is about the run of the merge. -/
structure DeployEvent.About (event : DeployEvent) (merge : RecoveryMerge) : Prop where
  run : event.workflowRunId = merge.workflowRunId
  binding : event.bindingId = merge.bindingId
  application : event.applicationId = merge.applicationId

/-- The event tells how the run has ended. -/
def DeployEvent.Tells (event : DeployEvent) (run : Gitops.WorkflowRun) : Prop :=
  (event.outcome = .completed ∧ run.status = .succeeded) ∨
    ∃ reason, event.outcome = .failed reason ∧ run.status = .failed

variable (env) in
/-- The requests, the runs, the merges that are seen, and the events about them. -/
structure DeployLaw (s : RecoveryState) : Prop where
  requests : ∀ request request', .deploymentRequested request ∈ s.outbox →
    .deploymentRequested request' ∈ s.outbox → request.workflowRunId = request'.workflowRunId →
      request = request'
  runs : ∀ run ∈ s.runs.rows, ∃ request, .deploymentRequested request ∈ s.outbox ∧
    run = { runOf request with status := run.status }
  pr : ∀ record pr, s.Sees record → record.lifecycle.pr = some pr → PullRequestOk pr
  merge : ∀ record merge, s.Sees record → record.lifecycle.merge = some merge → MergeOk env s merge
  owner : ∀ record record' merge merge', s.Sees record → s.Sees record' →
    record.lifecycle.merge = some merge → record'.lifecycle.merge = some merge' →
      merge.workflowRunId = merge'.workflowRunId → record.planId = record'.planId
  /-- no row that has gone on was seen with the run that a plan waits for -/
  waiting : ∀ row ∈ s.plans.rows, row.status = .deployPending → ∀ merge,
    row.lifecycle.merge = some merge → ∀ record merge', s.Sees record →
      record.lifecycle.merge = some merge' → merge'.workflowRunId = merge.workflowRunId →
        record.status = .deployPending
  matched : ∀ h event record, s.work? h = some (.deploy event record) →
    ∃ merge, record.lifecycle.merge = some merge ∧ event.About merge
  told : ∀ row ∈ s.plans.rows, row.status = .deployPending → ∀ merge run,
    row.lifecycle.merge = some merge → s.runs.find? merge.workflowRunId = some run →
      run.status.isTerminal = true → ∃ event ∈ s.inbox, event.About merge ∧ event.Tells run

theorem deployLaw_empty (env : RecoveryEnv) : DeployLaw env .empty := by
  have hsees : ∀ record, ¬ RecoveryState.empty.Sees record := by
    rintro record (h | ⟨i, work, h, -⟩)
    · exact absurd h List.not_mem_nil
    · cases h
  refine ⟨?_, ?_, ?_, ?_, ?_, ?_, ?_, ?_⟩
  · exact fun _ _ h => absurd h List.not_mem_nil
  · exact fun _ h => absurd h List.not_mem_nil
  · exact fun record _ h => absurd h (hsees record)
  · exact fun record _ h => absurd h (hsees record)
  · exact fun record _ _ _ h => absurd h (hsees record)
  · exact fun _ h => absurd h List.not_mem_nil
  · intro h event record hwork
    cases hwork
  · exact fun _ h => absurd h List.not_mem_nil

/-! ## Writing -/

theorem isNewRun_iff {workflowRunId : String} :
    s.isNewRun workflowRunId = true ↔ ∀ request, .deploymentRequested request ∈ s.outbox →
      request.workflowRunId ≠ workflowRunId := by
  rw [isNewRun, List.all_eq_true]
  constructor
  · intro h request hrequest
    simpa using h _ hrequest
  · intro h event hevent
    cases event with
    | deploymentRequested request => simpa using h request hevent
    | _ => rfl

theorem MergeOk.step {merge : RecoveryMerge} (h : MergeOk env s merge) (a : RecoveryAction) :
    MergeOk env (step env s a) merge :=
  { h with sent := outbox_subset_step env s a h.sent }

theorem strip_textOf (value : Option Json) : PyText.strip (textOf value) = textOf value := by
  unfold textOf
  split
  · exact PyText.strip_strip _
  · decide

variable {record row : RecoveryPlanRecord} {event : DeployEvent} {run : Gitops.WorkflowRun}
  {events : List RecoveryEvent} {expected status : RecoveryPlanStatus} {request : DeploymentRequest}

theorem LifecycleWrite.pr {lifecycle : Lifecycle}
    (h : LifecycleWrite env s a record expected status lifecycle events) {pr : RecoveryPullRequest}
    (hpr : lifecycle.pr = some pr) :
    record.lifecycle.pr = some pr ∨ PullRequestOk pr := by
  cases h with
  | tracked i collected now event _ approval selected hwork hselected hidentity =>
    obtain rfl := Option.some.inj hpr
    have happroved : event.asApproved (selectedCandidateParams approval) = true := by
      rw [safePrIdentityError] at hidentity
      split at hidentity
      · cases hidentity
      · split at hidentity
        · cases hidentity
        · rename_i h
          simpa using h
    simp only [SafePrCreated.asApproved, Bool.and_eq_true, decide_eq_true_eq] at happroved
    refine Or.inr ⟨?_, ?_⟩
    · change PyText.strip event.bindingId = event.bindingId
      rw [← happroved.1.1.1.1.2]
      exact strip_textOf _
    · change PyText.strip event.applicationId = event.applicationId
      rw [← happroved.1.1.1.2]
      exact strip_textOf _
  | merged _ _ _ _ _ _ _ _ _ _ _ hdecision =>
    obtain ⟨-, target, pr, replicas, -, -, -, rfl⟩ := record_of_merge hdecision
    exact Or.inl hpr
  | redeployed _ _ _ _ _ _ _ _ _ hdecision =>
    obtain ⟨merge, -, -, rfl⟩ := merge_of_deploy hdecision
    exact Or.inl hpr
  | reverified _ _ _ _ _ _ _ _ hdecision =>
    obtain ⟨workflowRunId, rfl⟩ := lifecycle_of_verification hdecision
    exact Or.inl hpr
  | reselected => cases hpr
  | _ => exact Or.inl hpr

theorem agrees_of_exactRecoveryPollTarget {targets : List PollTarget} {target : PollTarget}
    {pr : RecoveryPullRequest} (hpr : record.lifecycle.pr = some pr)
    (h : exactRecoveryPollTarget env targets record = some target) :
    (expectedPollTarget env record pr).agrees env target = true := by
  simp only [exactRecoveryPollTarget, Option.bind_eq_bind, hpr, Option.bind_some] at h
  split at h
  · cases h
  · split at h
    · rename_i found hfound
      obtain rfl := Option.some.inj h
      exact (List.mem_filter.mp (hfound ▸ List.mem_singleton_self found)).2
    · cases h

theorem fields_of_agrees {expected candidate : PollTarget}
    (h : expected.agrees env candidate = true) :
    candidate.workspaceId = expected.workspaceId ∧ candidate.bindingId = expected.bindingId ∧
      candidate.applicationId = expected.applicationId ∧
        candidate.clusterId = expected.clusterId := by
  simp only [PollTarget.agrees, Bool.and_eq_true, decide_eq_true_eq] at h
  obtain ⟨⟨⟨⟨⟨⟨⟨⟨hworkspace, -⟩, -⟩, -⟩, hbinding⟩, happlication⟩, -⟩, hcluster⟩, -⟩ := h
  exact ⟨hworkspace, hbinding, happlication, hcluster⟩

theorem eq_of_deployRetryBody {merge : RecoveryMerge} {run : Option Gitops.WorkflowRun}
    (h : deployRetryBody env record merge run = some request) :
    request =
      { merge.deploymentRequest with
        workflowRunId := env.deployRetryWorkflowRunId record.planId
          (PyText.strip merge.mergeCommitSha) (merge.retryAttempt + 1)
        force := true } := by
  obtain ⟨-, h⟩ := Option.ite_none_right_eq_some.mp h
  exact (Option.some.inj h).symm

theorem LifecycleWrite.waits (hlaw : DeployLaw env s) (hok : freshDeployments env s a = true)
    {lifecycle : Lifecycle} (h : LifecycleWrite env s a record expected status lifecycle events)
    (hrow : s.plans.find? record.planId = some row) (hexpected : row.status = expected)
    (houtbox : (step env s a).outbox = s.outbox ++ events) (hstatus : status = .deployPending) :
    ∃ merge, lifecycle.merge = some merge ∧ s.isNewRun merge.workflowRunId = true ∧
      MergeOk env (step env s a) merge ∧
      ∀ request, .deploymentRequested request ∈ events → request = merge.deploymentRequest := by
  have hbefore : s.statusOf record.planId = some expected := by rw [statusOf_eq hrow, hexpected]
  cases h with
  | merged i targets image now webhook base exact _ _ request hwork hdecision =>
    obtain ⟨-, target, pr, replicas, htarget, hpr, rfl, rfl⟩ := record_of_merge hdecision
    obtain ⟨hworkspace, hbinding, happlication, hcluster⟩ :=
      fields_of_agrees (agrees_of_exactRecoveryPollTarget hpr htarget)
    obtain ⟨hstripped, happlicationStripped⟩ := hlaw.pr record pr
      (LifecycleWrite.sees (.merged i targets image now webhook base exact record _ _ hwork
        hdecision)) hpr
    simp only [freshDeployments, hwork, hdecision, hbefore, ne_eq, not_true_eq_false,
      decide_false, Bool.false_or, Bool.and_eq_true, decide_eq_true_eq, hpr, Option.all_some] at hok
    obtain ⟨⟨hnew, hstripWorkspace⟩, hstripCluster⟩ := hok
    refine ⟨_, rfl, hnew, ?_, fun request hrequest => ?_⟩
    · exact
        { sent := by
            rw [houtbox]
            exact List.mem_append_right _ (List.mem_singleton_self _)
          run := rfl
          strip_run := env.strip_mergeWorkflowRunId _ _
          binding := hbinding
          strip_binding := hstripped
          application := happlication
          strip_application := happlicationStripped
          commit := rfl
          cluster := by
            change PyText.strip target.clusterId = PyText.strip pr.clusterId
            rw [hcluster, hstripCluster]
          workspace := by
            change PyText.strip target.workspaceId = env.workspaceId
            rw [hworkspace]
            exact hstripWorkspace }
    · exact RecoveryEvent.deploymentRequested.inj (List.mem_singleton.mp hrequest)
  | redeployed i request now writtenAt _ _ deployment hwork hretryable hdecision =>
    have hsees : s.Sees record := Or.inr ⟨i, _, hwork, List.mem_singleton_self record⟩
    obtain ⟨merge, hmerge, hbody, rfl⟩ := merge_of_deploy hdecision
    obtain rfl := eq_of_deployRetryBody hbody
    have hold := hlaw.merge record merge hsees hmerge
    rw [freshDeployments, hwork] at hok
    dsimp only at hok
    rw [hdecision] at hok
    simp only [hretryable, Bool.not_true, hbefore, ne_eq, not_true_eq_false, decide_false,
      Bool.false_or, hmerge, Option.all_some] at hok
    refine ⟨_, rfl, hok, ?_, fun request hrequest => ?_⟩
    · exact
        { hold with
          sent := by
            rw [houtbox]
            exact List.mem_append_right _ (List.mem_cons_of_mem _ (List.mem_singleton_self _))
          run := rfl
          strip_run := env.strip_retryWorkflowRunId _ _ _ }
    · simp only [List.mem_cons, reduceCtorEq, RecoveryEvent.deploymentRequested.injEq,
        List.not_mem_nil, or_false, false_or] at hrequest
      exact hrequest
  | judged _ _ _ _ _ _ _ decision =>
    cases hdecision : decision.status <;> rw [hdecision] at hstatus <;> cases hstatus
  | _ => cases hstatus

theorem LifecycleWrite.keeps_merge {lifecycle : Lifecycle}
    (h : LifecycleWrite env s a record expected status lifecycle events)
    (hstatus : status ≠ .deployPending) :
    (∀ merge, lifecycle.merge = some merge → record.lifecycle.merge = some merge) ∧
      ∀ request, .deploymentRequested request ∉ events := by
  cases h with
  | merged | redeployed => exact absurd rfl hstatus
  | reverified _ _ _ _ _ _ _ _ hdecision =>
    obtain ⟨workflowRunId, rfl⟩ := lifecycle_of_verification hdecision
    exact ⟨fun _ h => h, fun request => by simp⟩
  | tracked | reselected => exact ⟨fun _ h => (by cases h), fun request => by simp⟩
  | judged _ _ _ _ _ _ _ decision =>
    refine ⟨fun _ h => h, fun request => ?_⟩
    rw [decisionEvents]
    cases decision.status <;> simp
  | _ => exact ⟨fun _ h => h, fun request => by simp⟩

theorem Writes.merge (hlaw : DeployLaw env s) (hok : freshDeployments env s a = true)
    (h : Writes env s a row) {merge : RecoveryMerge} (hmerge : row.lifecycle.merge = some merge) :
    (∃ record, s.Sees record ∧ record.planId = row.planId ∧ record.lifecycle.merge = some merge ∧
      (row.status = .deployPending → record ∈ s.plans.rows ∧ record.status = .deployPending)) ∨
      (row.status = .deployPending ∧ s.isNewRun merge.workflowRunId = true ∧
        MergeOk env (step env s a) merge) := by
  cases h with
  | expired before hbefore now hstatus hexpired hxid =>
    subst hexpired
    exact Or.inl ⟨before, Or.inl hbefore, rfl, hmerge, fun h => by cases h⟩
  | changed events hchange hplans houtbox hxid =>
    generalize hbefore : s.plans.find? row.planId = before at hchange
    cases hchange with
    | planned _ _ _ _ _ _ _ _ _ _ hlifecycle =>
      rw [hlifecycle] at hmerge
      cases hmerge
    | touched old =>
      have hold := Table.mem_of_find? hbefore
      exact Or.inl ⟨old, Or.inl hold, rfl, hmerge, fun h => ⟨hold, h⟩⟩
    | selected => cases hmerge
    | reopened old =>
      exact Or.inl ⟨old, Or.inl (Table.mem_of_find? hbefore), rfl, hmerge, fun h => by cases h⟩
    | written old record expected status lifecycle _ now hwrite hkey hexpected =>
      by_cases hstatus : status = .deployPending
      · obtain ⟨merge', hmerge', hnew, hmergeOk, -⟩ := hwrite.waits hlaw hok (hkey ▸ hbefore)
          hexpected houtbox hstatus
        obtain rfl := Option.some.inj (hmerge'.symm.trans hmerge)
        exact Or.inr ⟨hstatus, hnew, hmergeOk⟩
      · refine Or.inl ⟨record, hwrite.sees, hkey.symm, (hwrite.keeps_merge hstatus).1 merge hmerge,
          fun h => absurd h hstatus⟩

theorem request_of_step (hlaw : DeployLaw env s) (hok : freshDeployments env s a = true)
    (h : .deploymentRequested request ∈ (step env s a).outbox) :
    .deploymentRequested request ∈ s.outbox ∨ (s.isNewRun request.workflowRunId = true ∧
      ∀ other, .deploymentRequested other ∈ (step env s a).outbox →
        .deploymentRequested other ∈ s.outbox ∨ other = request) := by
  cases step_effect env s a with
  | quiet hplans houtbox hxid => exact Or.inl (houtbox ▸ h)
  | expired locked limit now ha hnext =>
    rw [hnext] at h
    rcases List.mem_append.mp h with h | h
    · exact Or.inl h
    · obtain ⟨row, -, hrow⟩ := List.mem_map.mp h
      cases hrow
  | wrote after events hchange hplans houtbox hxid =>
    rw [houtbox] at h
    rcases List.mem_append.mp h with h | h
    · exact Or.inl h
    · generalize hbefore : s.plans.find? after.planId = before at hchange
      cases hchange with
      | planned _ _ _ _ _ _ _ _ _ hstatus =>
        rcases hstatus with ⟨-, rfl⟩ | ⟨candidate, -, -, rfl⟩ <;> simp at h
      | touched _ _ _ _ _ _ _ hevents =>
        rcases hevents with rfl | ⟨candidate, rfl⟩ <;> simp at h
      | selected => simp at h
      | reopened => simp at h
      | written old record expected status lifecycle _ now hwrite hkey hexpected =>
        by_cases hstatus : status = .deployPending
        · obtain ⟨merge, -, hnew, hmergeOk, hevents⟩ := hwrite.waits hlaw hok (hkey ▸ hbefore)
            hexpected houtbox hstatus
          refine Or.inr ⟨?_, fun other hother => ?_⟩
          · rw [hevents request h, ← hmergeOk.run]
            exact hnew
          · rw [houtbox] at hother
            rcases List.mem_append.mp hother with hother | hother
            · exact Or.inl hother
            · exact Or.inr ((hevents other hother).trans (hevents request h).symm)
        · exact absurd h ((hwrite.keeps_merge hstatus).2 request)

/-! ## The invariant -/

theorem requests_step (hlaw : DeployLaw env s) (hok : freshDeployments env s a = true)
    {request' : DeploymentRequest} (h : .deploymentRequested request ∈ (step env s a).outbox)
    (h' : .deploymentRequested request' ∈ (step env s a).outbox)
    (hrun : request.workflowRunId = request'.workflowRunId) : request = request' := by
  rcases request_of_step hlaw hok h with hold | ⟨hnew, honly⟩
  · rcases request_of_step hlaw hok h' with hold' | ⟨hnew', -⟩
    · exact hlaw.requests request request' hold hold' hrun
    · exact absurd hrun (isNewRun_iff.mp hnew' request hold)
  · rcases honly request' h' with hold' | rfl
    · exact absurd hrun.symm (isNewRun_iff.mp hnew request' hold')
    · rfl

theorem runs_before (hlaw : DeployLaw env s) (a : RecoveryAction) :
    ∀ run ∈ (step env s a).runs.rows, ∃ request, .deploymentRequested request ∈ s.outbox ∧
      run = { runOf request with status := run.status } := by
  intro run hrun
  cases step_turnover env s a with
  | same hrest | finished _ hrest | began _ _ _ hrest | approved _ _ _ hrest
  | reapproved _ _ _ _ _ hrest | told _ _ hrest | dropped _ _ hrest
  | answered _ _ _ _ _ _ hrest =>
    rw [hrest.runs] at hrun
    exact hlaw.runs run hrun
  | startedRun request hrequest hrest =>
    rw [hrest.runs] at hrun
    rcases Table.mem_insertIfAbsent hrun with hrun | rfl
    · exact hlaw.runs run hrun
    · exact ⟨request, hrequest, rfl⟩
  | movedRun workflowRunId status reason moved hmoved hguard hrest =>
    rw [hrest.runs] at hrun
    obtain ⟨old, hold, rfl⟩ := List.mem_map.mp hrun
    obtain ⟨request, hrequest, heq⟩ := hlaw.runs old hold
    refine ⟨request, hrequest, ?_⟩
    split
    · rw [heq]
    · exact heq

theorem pr_step (hlaw : DeployLaw env s) (a : RecoveryAction) {pr : RecoveryPullRequest}
    (h : (step env s a).Sees record) (hpr : record.lifecycle.pr = some pr) : PullRequestOk pr := by
  rcases sees_step h with h | ⟨-, hwrites⟩
  · exact hlaw.pr record pr h hpr
  · cases hwrites with
    | expired before hbefore now hstatus hexpired hxid =>
      subst hexpired
      exact hlaw.pr before pr (Or.inl hbefore) hpr
    | changed events hchange hplans houtbox hxid =>
      generalize hbefore : s.plans.find? record.planId = before at hchange
      cases hchange with
      | planned _ _ _ _ _ _ _ _ _ _ hlifecycle =>
        rw [hlifecycle] at hpr
        cases hpr
      | touched old => exact hlaw.pr old pr (Or.inl (Table.mem_of_find? hbefore)) hpr
      | selected => cases hpr
      | reopened old => exact hlaw.pr old pr (Or.inl (Table.mem_of_find? hbefore)) hpr
      | written old read expected status lifecycle _ now hwrite =>
        rcases hwrite.pr hpr with hread | hpr
        · exact hlaw.pr read pr hwrite.sees hread
        · exact hpr

theorem seen_merge (hlaw : DeployLaw env s) (hok : freshDeployments env s a = true)
    (h : (step env s a).Sees record) {merge : RecoveryMerge}
    (hmerge : record.lifecycle.merge = some merge) :
    (∃ old, s.Sees old ∧ old.planId = record.planId ∧ old.lifecycle.merge = some merge ∧
      (old = record ∨ record ∈ (step env s a).plans.rows)) ∨
      (record.status = .deployPending ∧ s.isNewRun merge.workflowRunId = true ∧
        MergeOk env (step env s a) merge ∧ record ∈ (step env s a).plans.rows) := by
  rcases sees_step h with h | ⟨hrow, hwrites⟩
  · exact Or.inl ⟨record, h, rfl, hmerge, Or.inl rfl⟩
  · rcases hwrites.merge hlaw hok hmerge with ⟨old, hold, hkey, hmerge, -⟩ | ⟨hstatus, hnew, hmergeOk⟩
    · exact Or.inl ⟨old, hold, hkey, hmerge, Or.inr hrow⟩
    · exact Or.inr ⟨hstatus, hnew, hmergeOk, hrow⟩

/-- A run that is seen is not new. -/
theorem not_isNewRun (hlaw : DeployLaw env s) (h : s.Sees record) {merge : RecoveryMerge}
    (hmerge : record.lifecycle.merge = some merge) {workflowRunId : String}
    (hrun : merge.workflowRunId = workflowRunId) : s.isNewRun workflowRunId ≠ true := by
  intro hnew
  have hok := hlaw.merge record merge h hmerge
  exact isNewRun_iff.mp hnew merge.deploymentRequest hok.sent (hok.run.symm.trans hrun)

theorem merge_step (hlaw : DeployLaw env s) (hok : freshDeployments env s a = true)
    {merge : RecoveryMerge} (h : (step env s a).Sees record)
    (hmerge : record.lifecycle.merge = some merge) : MergeOk env (step env s a) merge := by
  rcases seen_merge hlaw hok h hmerge with ⟨old, hold, -, hmerge, -⟩ | ⟨-, -, hmergeOk, -⟩
  · exact (hlaw.merge old merge hold hmerge).step a
  · exact hmergeOk

theorem eq_of_new (hlaw : DeployLaw env s) {record' : RecoveryPlanRecord}
    {merge merge' : RecoveryMerge} (hrow : record ∈ (step env s a).plans.rows)
    (hrow' : record' ∈ (step env s a).plans.rows) (hmerge : record.lifecycle.merge = some merge)
    (hmerge' : record'.lifecycle.merge = some merge') (hnew : s.isNewRun merge.workflowRunId = true)
    (hnew' : s.isNewRun merge'.workflowRunId = true) :
    record.planId = record'.planId := by
  by_contra hne
  cases step_effect env s a with
  | quiet hplans houtbox hxid =>
    rw [hplans] at hrow
    exact not_isNewRun hlaw (Or.inl hrow) hmerge rfl hnew
  | wrote after events hchange hplans houtbox hxid =>
    rw [hplans] at hrow hrow'
    rcases Table.mem_put hrow with rfl | ⟨hold, -⟩
    · rcases Table.mem_put hrow' with rfl | ⟨hold', -⟩
      · exact hne rfl
      · exact not_isNewRun hlaw (Or.inl hold') hmerge' rfl hnew'
    · exact not_isNewRun hlaw (Or.inl hold) hmerge rfl hnew
  | expired locked limit now ha hnext =>
    have hplans : (step env s a).plans = s.plans.modifyWhere
        (fun record => record ∈ overdue s.plans locked limit now) (expiredRecord (s.next now))
        fun _ => rfl := by
      rw [hnext]
      rfl
    rw [hplans] at hrow
    rcases Table.mem_modifyWhere (f := expiredRecord (s.next now)) (fun _ => rfl) hrow with
      ⟨old, hold, -, rfl⟩ | ⟨hold, -⟩
    · exact not_isNewRun hlaw (Or.inl hold) hmerge rfl hnew
    · exact not_isNewRun hlaw (Or.inl hold) hmerge rfl hnew

theorem owner_step (hlaw : DeployLaw env s) (hok : freshDeployments env s a = true)
    {record' : RecoveryPlanRecord} {merge merge' : RecoveryMerge} (h : (step env s a).Sees record)
    (h' : (step env s a).Sees record') (hmerge : record.lifecycle.merge = some merge)
    (hmerge' : record'.lifecycle.merge = some merge')
    (hrun : merge.workflowRunId = merge'.workflowRunId) : record.planId = record'.planId := by
  rcases seen_merge hlaw hok h hmerge with ⟨old, hold, hkey, holdMerge, -⟩ | ⟨-, hnew, -, hrow⟩
  · rcases seen_merge hlaw hok h' hmerge' with ⟨old', hold', hkey', holdMerge', -⟩ | ⟨-, hnew', -⟩
    · rw [← hkey, ← hkey']
      exact hlaw.owner old old' merge merge' hold hold' holdMerge holdMerge' hrun
    · exact absurd hnew' (not_isNewRun hlaw hold holdMerge hrun)
  · rcases seen_merge hlaw hok h' hmerge' with ⟨old', hold', -, holdMerge', -⟩ | ⟨-, hnew', -, hrow'⟩
    · exact absurd hnew (not_isNewRun hlaw hold' holdMerge' hrun.symm)
    · exact eq_of_new hlaw hrow hrow' hmerge hmerge' hnew hnew'

theorem waiting_row (hlaw : DeployLaw env s) (hok : freshDeployments env s a = true)
    (hrow : row ∈ (step env s a).plans.rows) (hstatus : row.status = .deployPending)
    {merge : RecoveryMerge} (hmerge : row.lifecycle.merge = some merge) :
    (∃ old ∈ s.plans.rows, old.planId = row.planId ∧ old.status = .deployPending ∧
      old.lifecycle.merge = some merge) ∨ s.isNewRun merge.workflowRunId = true := by
  rcases row_of_step hrow with hold | hwrites
  · exact Or.inl ⟨row, hold, rfl, hstatus, hmerge⟩
  · rcases hwrites.merge hlaw hok hmerge with ⟨old, -, hkey, holdMerge, hwaits⟩ | ⟨-, hnew, -⟩
    · exact Or.inl ⟨old, (hwaits hstatus).1, hkey, (hwaits hstatus).2, holdMerge⟩
    · exact Or.inr hnew

theorem waiting_step (hlaw : DeployLaw env s) (hok : freshDeployments env s a = true)
    (hrow : row ∈ (step env s a).plans.rows) (hstatus : row.status = .deployPending)
    {merge : RecoveryMerge} (hmerge : row.lifecycle.merge = some merge) {merge' : RecoveryMerge}
    (h : (step env s a).Sees record) (hmerge' : record.lifecycle.merge = some merge')
    (hrun : merge'.workflowRunId = merge.workflowRunId) : record.status = .deployPending := by
  rcases seen_merge hlaw hok h hmerge' with ⟨seen, hseen, hkey, hseenMerge, hrecord⟩ | ⟨hwaits, -⟩
  · rcases waiting_row hlaw hok hrow hstatus hmerge with
      ⟨old, hold, holdKey, holdStatus, holdMerge⟩ | hnew
    · rcases hrecord with rfl | hwritten
      · exact hlaw.waiting old hold holdStatus merge holdMerge seen merge' hseen hseenMerge hrun
      · -- the row that was written is the one that waits
        have hplan : record.planId = row.planId := by
          rw [← hkey, ← holdKey]
          exact hlaw.owner seen old merge' merge hseen (Or.inl hold) hseenMerge holdMerge hrun
        have hfind := Table.find?_of_mem hwritten
        rw [hplan, Table.find?_of_mem hrow] at hfind
        obtain rfl := Option.some.inj hfind
        exact hstatus
    · exact absurd hnew (not_isNewRun hlaw hseen hseenMerge hrun)
  · exact hwaits

theorem matched_step (hlaw : DeployLaw env s) {h : ℕ}
    (hwork : (step env s a).work? h = some (.deploy event record)) :
    ∃ merge, record.lifecycle.merge = some merge ∧ event.About merge := by
  rcases work_of_step hwork with hwork | hbegins
  · exact hlaw.matched h event record hwork
  · cases hbegins with
    | deploy _ _ _ hquery =>
      have hdeploys := (mem_of_onlyRow hquery).2
      simp only [RecoveryPlanRecord.deploys, Bool.and_eq_true, Option.any_eq_true,
        decide_eq_true_eq] at hdeploys
      obtain ⟨-, merge, hmerge, ⟨hrun, hbinding⟩, happlication⟩ := hdeploys
      exact ⟨merge, hmerge, hrun.symm, hbinding.symm, happlication.symm⟩

/-! ## The end of a run -/

theorem statusOf_update {planId : String} (hrow : s.plans.find? planId = some row) (now : ℤ)
    (status : RecoveryPlanStatus) (lifecycle : Lifecycle) (clearSelection : Bool)
    (events : List RecoveryEvent) :
    (s.update now planId row.status status lifecycle clearSelection events).statusOf planId =
      some status := by
  rcases update_cases s now planId row.status status lifecycle clearSelection events with
    ⟨-, hnone⟩ | ⟨found, hfound, -, hsome⟩
  · exact absurd rfl (hnone row hrow)
  · obtain rfl := Option.some.inj (hrow.symm.trans hfound)
    rw [RecoveryState.update, hsome, Option.getD_some, statusOf]
    change (Table.find? (s.plans.put _) planId).map _ = _
    rw [Table.find?_put]
    exact (congrArg (Option.map RecoveryPlanRecord.status)
      (if_pos (Table.key_of_find? hrow).symm)).trans rfl

theorem run_of_merge (hlaw : DeployLaw env s) {merge : RecoveryMerge} (hok : MergeOk env s merge)
    (hrun : s.runs.find? merge.workflowRunId = some run) :
    run = { runOf merge.deploymentRequest with status := run.status } := by
  obtain ⟨request, hrequest, heq⟩ := hlaw.runs run (Table.mem_of_find? hrun)
  have hkey : run.workflowRunId = merge.workflowRunId := Table.key_of_find? hrun
  have hrequestRun : request.workflowRunId = run.workflowRunId := by
    rw [heq]
    rfl
  obtain rfl := hlaw.requests request merge.deploymentRequest hrequest hok.sent
    (hrequestRun.trans (hkey.trans hok.run))
  exact heq

theorem deployedBy_of_run (hlaw : DeployLaw env s) {merge : RecoveryMerge}
    (hok : MergeOk env s merge) (habout : event.About merge)
    (hrun : s.runs.find? merge.workflowRunId = some run) (hstatus : run.status = .succeeded) :
    deployedBy env merge event.workflowRunId event.bindingId event.applicationId run = true := by
  rw [run_of_merge hlaw hok hrun, hstatus, habout.run, habout.binding, habout.application]
  simp only [deployedBy, runOf, hok.strip_run, hok.strip_binding, hok.strip_application, hok.commit,
    hok.cluster, hok.workspace, hok.binding, hok.application, decide_true, Bool.and_self]

theorem answer_leaves (hlaw : DeployLaw env s) {h : ℕ}
    (hwork : s.work? h = some (.deploy event record)) (hstatus : record.status = .deployPending)
    (hrow : s.plans.find? record.planId = some row) (hrowStatus : row.status = .deployPending)
    {merge : RecoveryMerge} (hmerge : record.lifecycle.merge = some merge)
    (hok : MergeOk env s merge) (habout : event.About merge)
    (hrun : s.runs.find? merge.workflowRunId = some run) (htells : event.Tells run) (now : ℤ)
    (acknowledged : Bool) :
    (step env s (.answerDeploy h now acknowledged)).statusOf record.planId ≠
      some .deployPending := by
  have hfinish : (s.finish h).plans.find? record.planId = some row := hrow
  have hanswer : (answerDeployEvent env (s.finish h) event record now).statusOf record.planId ≠
      some .deployPending := by
    rw [answerDeployEvent, if_neg (not_not.mpr hstatus)]
    rcases htells with ⟨houtcome, hsucceeded⟩ | ⟨reason, houtcome, -⟩
    · have hfound : (s.finish h).runs.find? event.workflowRunId = some run := by
        rw [habout.run]
        exact hrun
      have hdeployed := deployedBy_of_run hlaw hok habout hrun hsucceeded
      simp only [houtcome, hfound, Option.any_some, hmerge, hdeployed, if_true, ← hrowStatus]
      rw [statusOf_update hfinish, hrowStatus]
      decide
    · simp only [houtcome, ← hrowStatus]
      rw [statusOf_update hfinish, hrowStatus]
      decide
  rw [step, RecoveryAction.apply, answerDeploy, hwork]
  exact hanswer

theorem query_of_waiting (hlaw : DeployLaw env s) (hrow : row ∈ s.plans.rows)
    (hstatus : row.status = .deployPending) {merge : RecoveryMerge}
    (hmerge : row.lifecycle.merge = some merge) (habout : event.About merge) :
    (PlanQuery.byWorkflow event.workflowRunId event.bindingId event.applicationId).run env.casefold
      s.plans = some row := by
  have hdeploys : row.deploys event.workflowRunId event.bindingId event.applicationId = true := by
    simp [RecoveryPlanRecord.deploys, hstatus, hmerge, habout.run, habout.binding,
      habout.application]
  have hnodup : s.plans.rows.Nodup := .of_map _ s.plans.nodup
  have honly : s.plans.rows.filter
      (RecoveryPlanRecord.deploys event.workflowRunId event.bindingId event.applicationId) =
        [row] := by
    refine List.perm_singleton.mp ((List.perm_ext_iff_of_nodup (hnodup.filter _)
      (List.nodup_singleton row)).mpr fun other => ?_)
    rw [List.mem_filter, List.mem_singleton]
    constructor
    · rintro ⟨hother, hotherDeploys⟩
      simp only [RecoveryPlanRecord.deploys, Bool.and_eq_true, Option.any_eq_true,
        decide_eq_true_eq] at hotherDeploys
      obtain ⟨-, merge', hmerge', ⟨hrun, -⟩, -⟩ := hotherDeploys
      have hplan := hlaw.owner other row merge' merge (Or.inl hother) (Or.inl hrow) hmerge' hmerge
        (hrun.trans habout.run)
      have hfind := Table.find?_of_mem hother
      rw [hplan, Table.find?_of_mem hrow] at hfind
      exact (Option.some.inj hfind).symm
    · rintro rfl
      exact ⟨hrow, hdeploys⟩
  rw [PlanQuery.run, onlyRow, honly]

theorem mem_erase_or_eq (other : DeployEvent) {events : List DeployEvent} (h : event ∈ events) :
    event ∈ events.erase other ∨ event = other := by
  by_cases hevent : event = other
  · exact Or.inr hevent
  · exact Or.inl ((List.mem_erase_of_ne hevent).mpr h)

theorem told_step (hlaw : DeployLaw env s) (hok : freshDeployments env s a = true)
    (hrow : row ∈ (step env s a).plans.rows) (hstatus : row.status = .deployPending)
    {merge : RecoveryMerge} (hmerge : row.lifecycle.merge = some merge)
    (hrun : (step env s a).runs.find? merge.workflowRunId = some run)
    (hterminal : run.status.isTerminal = true) :
    ∃ event ∈ (step env s a).inbox, event.About merge ∧ event.Tells run := by
  rcases waiting_row hlaw hok hrow hstatus hmerge with ⟨old, hold, hkey, holdStatus, holdMerge⟩ | hnew
  · -- the wait has begun before
    have hmergeOk := hlaw.merge old merge (Or.inl hold) holdMerge
    have htold := hlaw.told old hold holdStatus merge
    cases step_turnover env s a with
    | same hrest | finished _ hrest | began _ _ _ hrest | approved _ _ _ hrest
    | reapproved _ _ _ _ _ hrest =>
      rw [hrest.runs] at hrun
      rw [hrest.inbox]
      exact htold run holdMerge hrun hterminal
    | told h events hrest =>
      rw [hrest.runs] at hrun
      rw [hrest.inbox]
      obtain ⟨event, hevent, habout, htells⟩ := htold run holdMerge hrun hterminal
      exact ⟨event, List.mem_append_left _ hevent, habout, htells⟩
    | startedRun request hrequest hrest =>
      rw [hrest.runs, Table.find?_insertIfAbsent] at hrun
      rw [hrest.inbox]
      split at hrun
      · rcases hfind : s.runs.find? merge.workflowRunId with _ | found
        · rw [hfind, Option.getD_none] at hrun
          obtain rfl := Option.some.inj hrun
          cases hterminal
        · rw [hfind, Option.getD_some] at hrun
          obtain rfl := Option.some.inj hrun
          exact htold found holdMerge hfind hterminal
      · exact htold run holdMerge hrun hterminal
    | movedRun workflowRunId status reason moved hmoved hguard hrest =>
      rw [hrest.runs, Table.find?_modify] at hrun
      rw [hrest.inbox]
      split at hrun
      · rename_i hsame
        subst hsame
        rw [hmoved, Option.map_some] at hrun
        obtain rfl := Option.some.inj hrun
        change status.isTerminal = true at hterminal
        have heq := run_of_merge hlaw hmergeOk hmoved
        refine ⟨endOf moved status reason, ?_, ?_, ?_⟩
        · refine List.mem_append_right _ ?_
          rw [if_pos hterminal]
          exact List.mem_singleton_self _
        · have hkey : moved.workflowRunId = merge.workflowRunId := Table.key_of_find? hmoved
          refine ⟨hkey, ?_, ?_⟩
          · change moved.bindingId = merge.bindingId
            rw [heq]
            exact hmergeOk.binding
          · change moved.applicationId = merge.applicationId
            rw [heq]
            exact hmergeOk.application
        · cases status with
          | succeeded => exact Or.inl ⟨rfl, rfl⟩
          | failed => exact Or.inr ⟨reason, rfl, rfl⟩
          | _ => cases hterminal
      · obtain ⟨event, hevent, habout, htells⟩ := htold run holdMerge hrun hterminal
        exact ⟨event, List.mem_append_left _ hevent, habout, htells⟩
    | dropped dropped hquery hrest =>
      rw [hrest.runs] at hrun
      rw [hrest.inbox]
      obtain ⟨event, hevent, habout, htells⟩ := htold run holdMerge hrun hterminal
      rcases mem_erase_or_eq dropped hevent with hevent | rfl
      · exact ⟨event, hevent, habout, htells⟩
      · rw [query_of_waiting hlaw hold holdStatus holdMerge habout] at hquery
        cases hquery
    | answered h now answered record ha hwork hrest =>
      rw [hrest.runs] at hrun
      rw [hrest.inbox]
      obtain ⟨event, hevent, habout, htells⟩ := htold run holdMerge hrun hterminal
      rcases mem_erase_or_eq answered hevent with hevent | rfl
      · exact ⟨event, hevent, habout, htells⟩
      · -- the answer would have ended the wait
        obtain ⟨merge', hmerge', habout'⟩ := hlaw.matched h event record hwork
        have hsees : s.Sees record := Or.inr ⟨h, _, hwork, List.mem_singleton_self record⟩
        have hruns : merge'.workflowRunId = merge.workflowRunId := habout'.run.symm.trans habout.run
        have hplan := hlaw.owner record old merge' merge hsees (Or.inl hold) hmerge' holdMerge hruns
        have hrecord := hlaw.waiting old hold holdStatus merge holdMerge record merge' hsees hmerge'
          hruns
        have hfind : s.plans.find? record.planId = some old := by
          rw [hplan]
          exact Table.find?_of_mem hold
        have hleaves := answer_leaves hlaw hwork hrecord hfind holdStatus hmerge'
          (hlaw.merge record merge' hsees hmerge') habout' (hruns ▸ hrun) htells now true
        rw [ha] at hrow
        refine absurd ?_ hleaves
        rw [hplan, hkey, statusOf_eq (Table.find?_of_mem hrow), hstatus]
  · -- the run of a new wait is not there yet
    obtain ⟨request, hrequest, heq⟩ := runs_before hlaw a run (Table.mem_of_find? hrun)
    have hkey : run.workflowRunId = merge.workflowRunId := Table.key_of_find? hrun
    rw [heq] at hkey
    exact absurd hkey (isNewRun_iff.mp hnew request hrequest)

/-- A step that meets the condition keeps the invariant. -/
theorem deployLaw_step (s : RecoveryState) (a : RecoveryAction) (hlaw : DeployLaw env s)
    (hok : freshDeployments env s a = true) : DeployLaw env (step env s a) where
  requests _ _ h h' hrun := requests_step hlaw hok h h' hrun
  runs run hrun := by
    obtain ⟨request, hrequest, heq⟩ := runs_before hlaw a run hrun
    exact ⟨request, outbox_subset_step env s a hrequest, heq⟩
  pr _ _ h hpr := pr_step hlaw a h hpr
  merge _ _ h hmerge := merge_step hlaw hok h hmerge
  owner _ _ _ _ h h' hmerge hmerge' hrun := owner_step hlaw hok h h' hmerge hmerge' hrun
  waiting _ hrow hstatus _ hmerge _ _ h hmerge' hrun :=
    waiting_step hlaw hok hrow hstatus hmerge h hmerge' hrun
  matched _ _ _ hwork := matched_step hlaw hwork
  told _ hrow hstatus _ _ hmerge hrun hterminal :=
    told_step hlaw hok hrow hstatus hmerge hrun hterminal

theorem notStuck_of_law (hlaw : DeployLaw env s) : NotStuck env s := by
  intro row hrow hstatus merge run hmerge hrun hterminal
  obtain ⟨event, hevent, habout, htells⟩ := hlaw.told row hrow hstatus merge run hmerge hrun hterminal
  refine ⟨event, hevent, habout.run, fun h now acknowledged => ?_⟩
  have hquery := query_of_waiting hlaw hrow hstatus hmerge habout
  have hreceived : step env s (.receiveDeploy h event) = s.begin h (.deploy event row) := by
    simp only [step, RecoveryAction.apply, receiveDeploy, if_pos hevent, hquery, Option.getD_some]
  have hlaw' : DeployLaw env (s.begin h (.deploy event row)) :=
    hreceived ▸ deployLaw_step s (.receiveDeploy h event) hlaw rfl
  have hwork : (s.begin h (.deploy event row)).work? h = some (.deploy event row) := by
    rw [work?_begin, if_pos rfl]
  rw [Runs.run_cons, hreceived]
  exact answer_leaves hlaw' hwork hstatus (Table.find?_of_mem hrow) hstatus hmerge
    (hlaw'.merge row merge (Or.inl hrow) hmerge) habout hrun htells now acknowledged

end Opsia.Recovery
