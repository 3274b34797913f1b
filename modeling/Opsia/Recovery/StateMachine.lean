import Opsia.Recovery.Deployments

/-!
# The state machine of a recovery plan

What holds of the plans in every run: the status takes the edges of `recoveryEdge` only, a
selected plan has its action, the phase of the lifecycle is the status, and an incident is
resolved once (`run_edges`, `run_rows`, `run_resolved`).

A plan that waits for a deployment whose run is over leaves the status with the event that is
still to be delivered (`NotStuck`). This needs a run that belongs to the wait alone: a retry
that was computed from an earlier row names a run that is over, and the plan waits forever
(`stale_retry_is_stuck`). `run_state_machine` is about the runs in which a plan begins to wait
for a new run only (`freshDeployments`).
-/

namespace Opsia.Recovery

open RecoveryState

variable {env : RecoveryEnv} {s : RecoveryState} {a : RecoveryAction}

/-! ## Edges -/

/-- The edges of the status of a plan. -/
def recoveryEdge : RecoveryPlanStatus → RecoveryPlanStatus → Bool
  | .selectionRequested, .selected => true
  | .selected, .selectionRequested | .selected, .prOpen | .selected, .failed => true
  | .prOpen, .deployPending | .prOpen, .selectionRequested => true
  | .deployPending, .verificationPending | .deployPending, .failed => true
  | .verificationPending, .completed | .verificationPending, .failed => true
  | .failed, .selected | .failed, .deployPending | .failed, .verificationPending => true
  | _, _ => false

/-- Nothing leaves `completed`. -/
example : ∀ status, recoveryEdge .completed status = false := by
  intro status
  cases status <;> rfl

/-- A plan appears as requested or selected, and stays with its status or takes an edge. -/
def FollowsEdges (e : Runs.Entry RecoveryState RecoveryAction) : Prop :=
  ∀ planId, e.post.statusOf planId = e.pre.statusOf planId ∨
    (e.pre.statusOf planId = none ∧
      (e.post.statusOf planId = some .selectionRequested ∨
        e.post.statusOf planId = some .selected)) ∨
    ∃ before after, e.pre.statusOf planId = some before ∧ e.post.statusOf planId = some after ∧
      recoveryEdge before after = true

variable {events : List RecoveryEvent} {expected status : RecoveryPlanStatus}
  {lifecycle : Lifecycle} {record : RecoveryPlanRecord}

theorem LifecycleWrite.edge (h : LifecycleWrite env s a record expected status lifecycle events) :
    status = expected ∨ recoveryEdge expected status = true := by
  cases h with
  | judged _ _ _ _ _ _ _ decision => cases decision.status <;> simp [DecisionStatus.planStatus, recoveryEdge]
  | _ => exact Or.inr rfl

theorem followsEdges_step (env : RecoveryEnv) (s : RecoveryState) (a : RecoveryAction) :
    FollowsEdges ⟨s, a, step env s a⟩ := by
  intro planId
  cases rowChange_step env s a planId with
  | same hfind => exact Or.inl (by rw [statusOf, statusOf, hfind])
  | expired row locked limit now ha hrow hstatus hfind =>
    exact Or.inr (Or.inr ⟨.verificationPending, .failed, hstatus ▸ statusOf_eq hrow,
      statusOf_eq hfind, rfl⟩)
  | changed after events hchange hfind houtbox =>
    have hafter := statusOf_eq hfind
    generalize hbefore : s.plans.find? planId = before at hchange
    cases hchange with
    | planned _ _ _ _ _ _ _ _ hopen hstatus =>
      have hcases : after.status = .selectionRequested ∨ after.status = .selected := by
        rcases hstatus with ⟨hstatus, -⟩ | ⟨candidate, hstatus, -⟩
        · exact Or.inl hstatus
        · exact Or.inr hstatus
      rcases before with _ | row
      · refine Or.inr (Or.inl ⟨by rw [statusOf, hbefore, Option.map_none], ?_⟩)
        rcases hcases with h | h
        · exact Or.inl (hafter.trans (congrArg some h))
        · exact Or.inr (hafter.trans (congrArg some h))
      · have hrow : s.statusOf planId = some .selectionRequested := by
          rw [statusOf_eq hbefore, hopen row rfl]
        rcases hcases with h | h
        · exact Or.inl (by rw [hafter, h, hrow])
        · exact Or.inr (Or.inr ⟨_, _, hrow, hafter, h ▸ rfl⟩)
    | touched row => exact Or.inl (hafter.trans (statusOf_eq hbefore).symm)
    | selected _ _ _ _ _ _ _ row _ _ _ _ hopen =>
      exact Or.inr (Or.inr ⟨_, _, statusOf_eq hbefore, hafter, hopen ▸ rfl⟩)
    | reopened row _ _ hselected =>
      exact Or.inr (Or.inr ⟨_, _, statusOf_eq hbefore, hafter, hselected ▸ rfl⟩)
    | written row record expected status lifecycle _ now hwrite hkey hexpected =>
      rcases hwrite.edge with hsame | hedge
      · exact Or.inl (hafter.trans ((congrArg some (hsame.trans hexpected.symm)).trans
          (statusOf_eq hbefore).symm))
      · exact Or.inr (Or.inr ⟨_, _, statusOf_eq hbefore, hafter, hexpected ▸ hedge⟩)

theorem run_edges (env : RecoveryEnv) (actions : List RecoveryAction) :
    ∀ e ∈ Runs.trace (step env) .empty actions, FollowsEdges e := by
  intro e he
  have hedges := followsEdges_step env e.pre e.action
  obtain ⟨-, hpost⟩ := Runs.trace_invariant (P := fun _ => True) (fun _ _ _ => trivial) trivial e he
  rw [← hpost] at hedges
  exact hedges

/-! ## Rows -/

/-- A row that is no open selection has its action, and from the pull request on the phase is
the status. -/
structure RowLaw (row : RecoveryPlanRecord) : Prop where
  selected : row.status ≠ .selectionRequested → row.selectedActionId.isSome = true
  phase : row.status ≠ .selectionRequested → row.status ≠ .selected →
    row.lifecycle.phase = some row.status

theorem LifecycleWrite.phase (h : LifecycleWrite env s a record expected status lifecycle events)
    (hstatus : status ≠ .selectionRequested) : lifecycle.phase = some status := by
  cases h with
  | rejected => exact absurd rfl hstatus
  | merged _ _ _ _ _ _ _ _ _ _ _ hdecision =>
    obtain ⟨-, target, pr, replicas, -, -, -, rfl⟩ := record_of_merge hdecision
    rfl
  | redeployed _ _ _ _ _ _ _ _ _ hdecision =>
    obtain ⟨merge, -, -, rfl⟩ := merge_of_deploy hdecision
    rfl
  | reverified _ _ _ _ _ _ _ _ hdecision =>
    obtain ⟨workflowRunId, rfl⟩ := lifecycle_of_verification hdecision
    rfl
  | _ => rfl

theorem LifecycleWrite.expected_ne
    (h : LifecycleWrite env s a record expected status lifecycle events) :
    expected ≠ .selectionRequested := by
  cases h <;> decide

theorem rowLaw_step (s : RecoveryState) (a : RecoveryAction)
    (hlaw : ∀ row ∈ s.plans.rows, RowLaw row) : ∀ row ∈ (step env s a).plans.rows, RowLaw row := by
  intro row hrow
  rcases row_of_step hrow with hrow | hwrites
  · exact hlaw row hrow
  · cases hwrites with
    | expired before hbefore now hstatus hexpired hxid =>
      subst hexpired
      refine ⟨fun _ => (hlaw before hbefore).selected ?_, fun _ _ => rfl⟩
      rw [hstatus]
      decide
    | changed events hchange hplans houtbox hxid =>
      generalize hbefore : s.plans.find? row.planId = before at hchange
      cases hchange with
      | planned _ _ _ _ _ _ _ _ hopen hstatus =>
        rcases hstatus with ⟨hstatus, -⟩ | ⟨candidate, hstatus, hselected, -⟩
        · exact ⟨fun h => absurd hstatus h, fun h => absurd hstatus h⟩
        · exact ⟨fun _ => hselected ▸ rfl, fun _ h => absurd hstatus h⟩
      | touched old =>
        exact ⟨(hlaw old (Table.mem_of_find? hbefore)).selected,
          (hlaw old (Table.mem_of_find? hbefore)).phase⟩
      | selected => exact ⟨fun _ => rfl, fun _ h => absurd rfl h⟩
      | reopened => exact ⟨fun h => absurd rfl h, fun h => absurd rfl h⟩
      | written old record expected status lifecycle _ now hwrite hkey hexpected =>
        refine ⟨fun hstatus => ?_, fun hstatus _ => hwrite.phase hstatus⟩
        have hselected := (hlaw old (Table.mem_of_find? hbefore)).selected
          (hexpected ▸ hwrite.expected_ne)
        change status ≠ .selectionRequested at hstatus
        change (if _ then none else old.selectedActionId).isSome = true
        rw [if_neg (by simpa using hstatus)]
        exact hselected

theorem run_rows (env : RecoveryEnv) (actions : List RecoveryAction) :
    ∀ row ∈ (Runs.run (step env) .empty actions).plans.rows, RowLaw row :=
  Runs.run_invariant (P := fun s : RecoveryState => ∀ row ∈ s.plans.rows, RowLaw row) rowLaw_step
    (fun _ h => absurd h List.not_mem_nil) actions

/-! ## Incidents -/

/-- The event resolves the incident of the plan. -/
def RecoveryEvent.resolves (planId : String) : RecoveryEvent → Bool
  | .incidentResolved resolved _ => resolved = planId
  | _ => false

/-- How often the incident of a plan was resolved. -/
def RecoveryState.resolved (s : RecoveryState) (planId : String) : ℕ :=
  s.outbox.countP (·.resolves planId)

theorem LifecycleWrite.resolves (h : LifecycleWrite env s a record expected status lifecycle events)
    (planId : String) :
    events.countP (·.resolves planId) ≤
      if record.planId = planId ∧ expected = .verificationPending ∧ status = .completed then 1
      else 0 := by
  cases h with
  | judged _ _ _ _ _ _ _ decision =>
    rw [decisionEvents]
    cases decision.status with
    | completed =>
      by_cases hplan : record.planId = planId
      · simp [RecoveryEvent.resolves, DecisionStatus.planStatus, hplan]
      · simp [RecoveryEvent.resolves, hplan]
    | pending => simp [RecoveryEvent.resolves]
    | failed => simp [RecoveryEvent.resolves]
  | _ => simp [RecoveryEvent.resolves]

theorem Change.resolves {before : Option RecoveryPlanRecord} {after : RecoveryPlanRecord}
    (h : Change env s a before after events) (planId : String) :
    events.countP (·.resolves planId) ≤
      if after.planId = planId ∧ before.map RecoveryPlanRecord.status = some .verificationPending ∧
        after.status = .completed then 1 else 0 := by
  cases h with
  | planned _ _ _ _ _ _ _ _ _ hstatus =>
    rcases hstatus with ⟨-, rfl⟩ | ⟨candidate, -, -, rfl⟩ <;> simp [RecoveryEvent.resolves]
  | touched _ _ _ _ _ _ _ hevents =>
    rcases hevents with rfl | ⟨candidate, rfl⟩ <;> simp [RecoveryEvent.resolves]
  | selected => simp [RecoveryEvent.resolves]
  | reopened => simp [RecoveryEvent.resolves]
  | written row record expected status lifecycle _ now hwrite hkey hexpected =>
    refine (hwrite.resolves planId).trans (le_of_eq ?_)
    rw [← hkey, ← hexpected]
    simp only [Option.map_some, Option.some.injEq]
    rfl

theorem resolved_step (s : RecoveryState) (a : RecoveryAction)
    (hlaw : ∀ planId, s.resolved planId ≤ if s.statusOf planId = some .completed then 1 else 0) :
    ∀ planId, (step env s a).resolved planId ≤
      if (step env s a).statusOf planId = some .completed then 1 else 0 := by
  intro planId
  have hbefore := hlaw planId
  -- no step leaves `completed`
  have hkeeps : s.statusOf planId = some .completed →
      (step env s a).statusOf planId = some .completed := by
    intro h
    rcases followsEdges_step env s a planId with hsame | ⟨hnone, -⟩ | ⟨before, after, hb, -, hedge⟩
    · exact hsame.trans h
    · rw [h] at hnone
      cases hnone
    · obtain rfl := Option.some.inj (h.symm.trans hb)
      cases after <;> cases hedge
  have hle : s.resolved planId ≤
      if (step env s a).statusOf planId = some .completed then 1 else 0 := by
    by_cases h : s.statusOf planId = some .completed
    · rw [if_pos (hkeeps h)]
      rwa [if_pos h] at hbefore
    · rw [if_neg h] at hbefore
      exact hbefore.trans (Nat.zero_le _)
  cases step_effect env s a with
  | quiet hplans houtbox hxid =>
    rw [RecoveryState.resolved, houtbox]
    exact hle
  | expired locked limit now ha hnext =>
    have houtbox : (step env s a).resolved planId = s.resolved planId := by
      rw [hnext, RecoveryState.resolved, RecoveryState.resolved]
      change (s.outbox ++ List.map _ _).countP _ = _
      rw [List.countP_append, List.countP_map]
      exact Nat.add_eq_left.mpr (List.countP_eq_zero.mpr fun _ _ h => by cases h)
    rw [houtbox]
    exact hle
  | wrote after events hchange hplans houtbox hxid =>
    have hcount : (step env s a).resolved planId =
        s.resolved planId + events.countP (·.resolves planId) := by
      rw [RecoveryState.resolved, houtbox, List.countP_append]
      rfl
    have hevents := hchange.resolves planId
    rw [hcount]
    split at hevents
    · rename_i h
      obtain ⟨rfl, hpending, hcompleted⟩ := h
      have hfind := Table.find?_put s.plans after after.planId
      rw [if_pos rfl, ← hplans] at hfind
      rw [if_pos ((statusOf_eq hfind).trans (congrArg some hcompleted))]
      have hzero : s.resolved after.planId = 0 := by
        have hnot : s.statusOf after.planId ≠ some .completed := by
          rw [statusOf, hpending]
          decide
        rw [if_neg hnot] at hbefore
        exact Nat.le_zero.mp hbefore
      omega
    · omega

theorem run_resolved (env : RecoveryEnv) (actions : List RecoveryAction) (planId : String) :
    (Runs.run (step env) .empty actions).resolved planId ≤ 1 := by
  have hempty : ∀ planId, RecoveryState.empty.resolved planId ≤
      if RecoveryState.empty.statusOf planId = some .completed then 1 else 0 :=
    fun _ => Nat.zero_le _
  have hlaw := Runs.run_invariant (P := fun s : RecoveryState => ∀ planId,
    s.resolved planId ≤ if s.statusOf planId = some .completed then 1 else 0)
    (@resolved_step env) hempty actions planId
  split at hlaw
  · exact hlaw
  · exact hlaw.trans (Nat.zero_le 1)

/-! ## The theorem -/

theorem run_notStuck {actions : List RecoveryAction}
    (hok : Runs.Meets (step env) (fun s a => freshDeployments env s a = true) .empty actions) :
    NotStuck env (Runs.run (step env) .empty actions) :=
  notStuck_of_law (Runs.run_invariant_of_meets deployLaw_step (deployLaw_empty env) hok)

/-- In every run in which plans begin to wait for new runs only: plans follow the edges, rows
have their action and their phase, incidents are resolved once, and a plan that waits for a
run that is over leaves the status with an event that is still to be delivered. -/
theorem run_state_machine (env : RecoveryEnv) (actions : List RecoveryAction)
    (hok : Runs.Meets (step env) (fun s a => freshDeployments env s a = true) .empty actions) :
    (∀ e ∈ Runs.trace (step env) .empty actions, FollowsEdges e) ∧
      (∀ row ∈ (Runs.run (step env) .empty actions).plans.rows, RowLaw row) ∧
      (∀ planId, (Runs.run (step env) .empty actions).resolved planId ≤ 1) ∧
      NotStuck env (Runs.run (step env) .empty actions) :=
  ⟨run_edges env actions, run_rows env actions, run_resolved env actions, run_notStuck hok⟩

/-- The end of a deployment of the plan, as its worker handles it. -/
def sampleEnded (workflowRunId : String) (outcome : DeployOutcome) : List RecoveryAction :=
  [.receiveDeploy 0 ⟨workflowRunId, "binding", "app", outcome⟩, .answerDeploy 0 0 true]

/-- The deployment of the merge fails, and is retried. -/
def retriedOnce : List RecoveryAction :=
  sampleMerged ++ [.startRun sampleDeployment, .moveRun "workflow-merge" .failed "reason"] ++
    sampleEnded "workflow-merge" (.failed "reason") ++
    [.lookup 0 (.byPlanId "plan"), .lookup 1 (.byPlanId "plan"),
      .retry 0 ⟨"plan", "operator", none⟩ 0 0,
      .startRun { sampleDeployment with workflowRunId := "workflow-retry" },
      .moveRun "workflow-retry" .failed "reason"]

theorem state_machine_retried :
    (∀ e ∈ Runs.trace (step .sample) .empty retriedOnce, FollowsEdges e) ∧
      (∀ row ∈ (Runs.run (step .sample) .empty retriedOnce).plans.rows, RowLaw row) ∧
      (∀ planId, (Runs.run (step .sample) .empty retriedOnce).resolved planId ≤ 1) ∧
      NotStuck .sample (Runs.run (step .sample) .empty retriedOnce) :=
  run_state_machine .sample retriedOnce (by unfold Runs.Meets; decide +kernel)

/-- The retry fails too, and another operator, who has read the plan before the first retry,
retries it once more. -/
def retriedTwice : List RecoveryAction :=
  retriedOnce ++ [.receiveDeploy 0 ⟨"workflow-merge", "binding", "app", .merged⟩] ++
    sampleEnded "workflow-retry" (.failed "reason") ++ [.retry 1 ⟨"plan", "operator", none⟩ 0 0]

/-- The second retry names the run of the first one, which is over: nothing is left to be
delivered, and the plan waits. -/
theorem stale_retry_is_stuck :
    ¬ ∀ actions, NotStuck .sample (Runs.run (step .sample) .empty actions) := by
  intro h
  have hstuck : (Runs.run (step .sample) .empty retriedTwice).inbox = [] ∧
      ∃ row ∈ (Runs.run (step .sample) .empty retriedTwice).plans.rows,
        row.status = .deployPending ∧ ∃ merge ∈ row.lifecycle.merge,
          ∃ run ∈ (Runs.run (step .sample) .empty retriedTwice).runs.find? merge.workflowRunId,
            run.status.isTerminal = true := by
    decide +kernel
  obtain ⟨hinbox, row, hrow, hstatus, merge, hmerge, run, hrun, hterminal⟩ := hstuck
  obtain ⟨event, hevent, -⟩ := h retriedTwice row hrow hstatus merge run hmerge hrun hterminal
  rw [hinbox] at hevent
  exact absurd hevent List.not_mem_nil

end Opsia.Recovery
