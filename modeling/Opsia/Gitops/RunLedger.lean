import Opsia.Gitops.Dispatch
import Opsia.Timeline.Ledger

/-!
# What the controller writes for a run

A handler of the workflow controller writes `workflow_runs` at most once: `ensure_run`
inserts the run or moves it, `transition_run` and `on_command_completed` move it. With an
applied write it appends one `application_workflow` run fact to the timeline ledger, and only
after a new fact it emits its bodies.

`runWrite` is that write for each handler, and `handle_effect` says that it is all a handler
does to the runs, and decides what it announces about a finished run.
-/

namespace Opsia.Gitops

open Timeline (TimelineEvent)

/-! ## Facts -/

inductive WorkflowStepName : Type where
  | git
  | render
  | diff
  | policy
  | approval
  | safePr
  | apply
  | health
  deriving DecidableEq, Repr

/-- The text of a step name. -/
def WorkflowStepName.value : WorkflowStepName → String
  | .git => "git"
  | .render => "render"
  | .diff => "diff"
  | .policy => "policy"
  | .approval => "approval"
  | .safePr => "safe_pr"
  | .apply => "apply"
  | .health => "health"

inductive WorkflowStepStatus : Type where
  | pending
  | running
  | succeeded
  | failed
  | skipped
  deriving DecidableEq, Repr

/-- The text of a step status. -/
def WorkflowStepStatus.value : WorkflowStepStatus → String
  | .pending => "pending"
  | .running => "running"
  | .succeeded => "succeeded"
  | .failed => "failed"
  | .skipped => "skipped"

/-- The text of a run status. -/
def WorkflowRunStatus.value : WorkflowRunStatus → String
  | .started => "started"
  | .rendering => "rendering"
  | .diffing => "diffing"
  | .policyChecking => "policy_checking"
  | .waitingForApproval => "waiting_for_approval"
  | .applying => "applying"
  | .rolloutWaiting => "rollout_waiting"
  | .succeeded => "succeeded"
  | .failed => "failed"

/-- The id of an envelope: `str(uuid.uuid4())`, without a colon. -/
structure EventId : Type where
  text : String
  noColon : ':' ∉ text.toList
  deriving DecidableEq

/-- What a fact of `workflow_run_timeline_event` says. -/
structure WorkflowRunFact : Type where
  clusterId : String
  applicationId : String
  bindingId : String
  workflowRunId : String
  status : WorkflowRunStatus
  currentStep : WorkflowStepName
  deriving DecidableEq, Repr

/-- A row of the timeline ledger; `none` for a fact of another kind. -/
abbrev LedgerFact : Type := TimelineEvent (Option WorkflowRunFact)

/-- The source key of `workflow_run_timeline_event`. -/
def workflowRunSourceKey (event : EventId) (workflowRunId : String) (status : WorkflowRunStatus)
    (currentStep : WorkflowStepName) : String :=
  PyText.join ':'
    ["application_workflow", event.text, "run", workflowRunId, status.value, currentStep.value]

/-- The source key of `workflow_step_timeline_event`. -/
def workflowStepSourceKey (event : EventId) (workflowRunId : String) (step : WorkflowStepName)
    (status : WorkflowStepStatus) : String :=
  PyText.join ':'
    ["application_workflow", event.text, "step", workflowRunId, step.value, status.value]

/-- The sources of the other facts. -/
inductive OtherSource : Type where
  | inventory
  | incident
  | kubernetesEvent
  | gitops
  deriving DecidableEq, Repr

/-- The text of a source. -/
def OtherSource.value : OtherSource → String
  | .inventory => "inventory"
  | .incident => "incident"
  | .kubernetesEvent => "kubernetes_event"
  | .gitops => "gitops"

/-- The source key of a fact of another source: its name, and what follows the colon. -/
def otherSourceKey (source : OtherSource) (rest : String) : String :=
  PyText.join ':' [source.value, rest]

variable {s' s : Store} {bodies : List EventBody} {inserted : Bool} {status : WorkflowRunStatus}
  {now : Timestamp} {write : RunWrite} {body : Identity → List EventBody}

variable {t : Store} {approvalId workspaceId : String} {event : EventId} {row : WorkflowRun}
  {step : WorkflowStepName}

theorem event_of_workflowRunSourceKey {event' : EventId} {r r' : String}
    {status' : WorkflowRunStatus} {step' : WorkflowStepName}
    (h : workflowRunSourceKey event r status step = workflowRunSourceKey event' r' status' step') :
    event = event' := by
  obtain ⟨-, hrest⟩ := PyText.join_cons_inj (by decide) (by decide) h
  obtain ⟨htext, -⟩ := PyText.join_cons_inj event.noColon event'.noColon hrest
  cases event with
  | mk text noColon =>
    cases event' with
    | mk text' noColon' =>
      obtain rfl := htext
      rfl

theorem workflowStepSourceKey_ne {event' : EventId} {r r' : String} {status : WorkflowStepStatus}
    {status' : WorkflowRunStatus} {step' : WorkflowStepName} :
    workflowStepSourceKey event r step status ≠ workflowRunSourceKey event' r' status' step' := by
  intro h
  obtain ⟨-, hrest⟩ := PyText.join_cons_inj (by decide) (by decide) h
  obtain ⟨-, hrest⟩ := PyText.join_cons_inj event.noColon event'.noColon hrest
  obtain ⟨hkind, -⟩ := PyText.join_cons_inj (by decide) (by decide) hrest
  exact absurd hkind (by decide)

theorem otherSourceKey_ne {source : OtherSource} {rest : String} {r : String} :
    otherSourceKey source rest ≠ workflowRunSourceKey event r status step := by
  intro h
  have hcolon : ':' ∉ source.value.toList := by cases source <;> decide
  obtain ⟨hsource, -⟩ := PyText.join_cons_inj hcolon (by decide) h
  cases source <;> exact absurd hsource (by decide)

/-! ## The write of a handler -/

/-- A write of a handler to `workflow_runs`. -/
structure RunWrite : Type where
  run : Identity
  status : WorkflowRunStatus
  currentStep : WorkflowStepName
  /-- by `start_workflow_run`, which inserts a run that is not there -/
  creates : Bool
  deriving DecidableEq, Repr

variable (naming : Naming)

/-- The write of `ensure_run`. -/
def ensureWrite (identity : Identity) (canonicalApplicationId : Option String)
    (status : WorkflowRunStatus) (currentStep : WorkflowStepName) : RunWrite :=
  ⟨canonicalRun naming identity canonicalApplicationId, status, currentStep, true⟩

/-- The write of `transition_run`. -/
def transitionWrite (identity : Identity) (status : WorkflowRunStatus)
    (currentStep : WorkflowStepName) : RunWrite :=
  ⟨normalizePayload naming identity, status, currentStep, false⟩

/-- The write of the branch of `on_diff_analyzed` for a merged recovery. -/
def recoveryWrite (s : Store) (diff : Diff) (now : Timestamp) : Option RunWrite :=
  let run := normalizePayload naming diff.identity
  let approvalRef := approvalPayloadId naming run diff
  let decisionRef := policyDecisionRef approvalRef "recovery_pr_merged"
  let command := mergedRecoveryCommand diff approvalRef decisionRef
  if (s.resolveWorkflowApprovalIfOpen approvalRef run.workspaceId .granted
      (some "recovery-pr-merge") ⟨some diff, some decisionRef, some command⟩ now).isSome then
    some (transitionWrite naming run .applying .apply)
  else none

/-- The write of `on_diff_analyzed`. -/
def diffAnalyzedWrite (s : Store) (diff : Diff) (safe : Bool) (plan : Option RecoveryPlan)
    (now : Timestamp) : Option RunWrite :=
  let run := normalizePayload naming diff.identity
  let authorized := recoveryAuthorized s diff plan
  if diff.isImageOnlyNoop then some (transitionWrite naming run .succeeded .health)
  else if plan.isSome && !authorized then none
  else if authorized then recoveryWrite naming s diff now
  else if safe then some (transitionWrite naming run .applying .safePr)
  else some (transitionWrite naming run .waitingForApproval .approval)

/-- The write that a transaction makes if the guard of the table admits it. -/
def runWrite (s : Store) : Action → Option RunWrite
  | .gitWebhook identity canonical _ => some (ensureWrite naming identity canonical .started .git)
  | .gitChanged identity canonical bound _ =>
    if bound then some (ensureWrite naming identity canonical .rendering .render) else none
  | .manifestRendered identity _ => some (transitionWrite naming identity .diffing .diff)
  | .manifestInvalid identity canonical _ =>
    some (ensureWrite naming identity canonical .failed .render)
  | .diffDetected diff _ => some (transitionWrite naming diff.identity .policyChecking .policy)
  | .diffAnalyzed diff safe plan now _ => diffAnalyzedWrite naming s diff safe plan now
  | .safePrFailed identity _ => some (transitionWrite naming identity .failed .safePr)
  | .approvalGranted evt _ => some (transitionWrite naming evt.identity .applying .apply)
  | .approvalRejected evt _ => some (transitionWrite naming evt.identity .failed .approval)
  | .commandQueued identity _ _ =>
    let run := normalizePayload naming identity
    if workflowRunIdentityIsPersisted s run then
      some (transitionWrite naming run .rolloutWaiting .apply)
    else none
  | .commandRejected requested _ _ => some (transitionWrite naming requested .failed .apply)
  | .commandCompleted commandId pick _ =>
    match workflowIdentityForCommand s commandId pick with
    | none => none
    | some identity =>
      let run := normalizePayload naming identity
      (completedStatus naming s run.workflowRunId).map fun status =>
        transitionWrite naming run status .health
  | .render _ | .desiredDiff _ _ | .grant _ _ _ _ _ _ | .reject _ _ _ _ _ | .commandStore _ => none

/-- The stored run apart from its `command_id`. -/
def Store.runOf (s : Store) (workflowRunId : String) : Option WorkflowRun :=
  (s.runs.find? workflowRunId).map fun row => { row with commandId := none }

/-- The guard admits the write. -/
def RunWrite.applies (write : RunWrite) (s : Store) : Bool :=
  match s.runOf write.run.workflowRunId with
  | none => write.creates
  | some row => workflowTransitionGuard row.status write.status

/-- The write of a transaction, when the guard admits it. -/
def appliedWrite (s : Store) (action : Action) : Option RunWrite :=
  (runWrite naming s action).filter (·.applies s)

/-- The run that a write leaves. -/
def RunWrite.result (write : RunWrite) : Option WorkflowRun → WorkflowRun
  | none =>
    ⟨write.run.workflowRunId, write.run.workspaceId, write.run.applicationId,
      write.run.bindingId, write.run.environment, write.run.clusterId, write.run.commitSha,
      write.status, none⟩
  | some row => { row with status := write.status }

/-- The runs after the applied write of a transaction. -/
def runAfter (s : Store) (write : Option RunWrite) (workflowRunId : String) :
    Option WorkflowRun :=
  match write with
  | none => s.runOf workflowRunId
  | some write =>
    if workflowRunId = write.run.workflowRunId then some (write.result (s.runOf workflowRunId))
    else s.runOf workflowRunId

/-- `workflow_run_timeline_event` for an applied write. -/
def RunWrite.timelineEvent (event : EventId) (write : RunWrite) : LedgerFact where
  workspaceId := write.run.workspaceId
  sourceKey := workflowRunSourceKey event write.run.workflowRunId write.status write.currentStep
  fact := some ⟨write.run.clusterId, write.run.applicationId, write.run.bindingId,
    write.run.workflowRunId, write.status, write.currentStep⟩

/-- What a body announces about the end of a run. -/
def EventBody.finalStatus (workflowRunId : String) : EventBody → Option WorkflowRunStatus
  | .workflowRunCompleted run => if run.workflowRunId = workflowRunId then some .succeeded else none
  | .workflowRunFailed run => if run.workflowRunId = workflowRunId then some .failed else none
  | _ => none

/-- What a transaction announces after its write, when the fact was new. -/
def announcedAfter (write : Option RunWrite) (inserted : Bool) (workflowRunId : String) :
    List WorkflowRunStatus :=
  match write with
  | none => []
  | some write =>
    if inserted && write.status.isTerminal && write.run.workflowRunId = workflowRunId then
      [write.status]
    else []

/-- The action with the answer of the ledger. -/
def Action.withInserted (inserted : Bool) : Action → Action
  | .gitWebhook identity canonical _ => .gitWebhook identity canonical inserted
  | .gitChanged identity canonical bound _ => .gitChanged identity canonical bound inserted
  | .manifestRendered identity _ => .manifestRendered identity inserted
  | .manifestInvalid identity canonical _ => .manifestInvalid identity canonical inserted
  | .diffDetected diff _ => .diffDetected diff inserted
  | .diffAnalyzed diff safe plan now _ => .diffAnalyzed diff safe plan now inserted
  | .safePrFailed identity _ => .safePrFailed identity inserted
  | .approvalGranted evt _ => .approvalGranted evt inserted
  | .approvalRejected evt _ => .approvalRejected evt inserted
  | .commandQueued identity commandId _ => .commandQueued identity commandId inserted
  | .commandRejected requested commandId _ => .commandRejected requested commandId inserted
  | .commandCompleted commandId pick _ => .commandCompleted commandId pick inserted
  | .render diffs => .render diffs
  | .desiredDiff diff plan => .desiredDiff diff plan
  | .grant approvalId workspaceId userId reason deployAccess now =>
    .grant approvalId workspaceId userId reason deployAccess now
  | .reject approvalId workspaceId userId deployAccess now =>
    .reject approvalId workspaceId userId deployAccess now
  | .commandStore commands => .commandStore commands

/-! ## The writes, one by one -/

theorem runOf_modify (s : Store) (r : String) (f : WorkflowRun → WorkflowRun)
    (hf : ∀ row, (f row).workflowRunId = row.workflowRunId) (r' : String) :
    ({ s with runs := s.runs.modify r f hf } : Store).runOf r' =
      if r' = r then (s.runs.find? r).map fun row => { f row with commandId := none }
      else s.runOf r' := by
  rw [Store.runOf, Table.find?_modify]
  by_cases hr : r' = r
  · rw [if_pos hr, if_pos hr, hr, Option.map_map]
    rfl
  · rw [if_neg hr, if_neg hr]
    rfl

theorem runOf_attachWorkflowCommand (s : Store) (r commandId r' : String) :
    (s.attachWorkflowCommand r commandId).runOf r' = s.runOf r' := by
  rw [Store.attachWorkflowCommand, runOf_modify]
  by_cases hr : r' = r
  · rw [if_pos hr, hr]
    rfl
  · rw [if_neg hr]

theorem runOf_write (hfind : s.runs.find? write.run.workflowRunId = some row)
    (f : WorkflowRun → WorkflowRun) (hf : ∀ row, (f row).workflowRunId = row.workflowRunId)
    (hstatus : ∀ row, ({ f row with commandId := none } : WorkflowRun) =
      { row with status := write.status, commandId := none }) (r : String) :
    ({ s with runs := s.runs.modify write.run.workflowRunId f hf } : Store).runOf r =
      runAfter s (some write) r := by
  rw [runOf_modify, runAfter]
  by_cases hr : r = write.run.workflowRunId
  · rw [if_pos hr, if_pos hr, hr, Store.runOf, hfind, Option.map_some, Option.map_some, hstatus]
    rfl
  · rw [if_neg hr, if_neg hr]

theorem RunWrite.applies_of_find? (hfind : s.runs.find? write.run.workflowRunId = some row) :
    write.applies s = workflowTransitionGuard row.status write.status := by
  rw [RunWrite.applies, Store.runOf, hfind]
  rfl

theorem RunWrite.applies_of_none (hfind : s.runs.find? write.run.workflowRunId = none) :
    write.applies s = write.creates := by
  rw [RunWrite.applies, Store.runOf, hfind]
  rfl

theorem RunWrite.applies_congr (hkept : ∀ r, t.runOf r = s.runOf r) (write : RunWrite) :
    write.applies t = write.applies s := by
  rw [RunWrite.applies, RunWrite.applies, hkept]

theorem runAfter_congr (hkept : ∀ r, t.runOf r = s.runOf r) (write : Option RunWrite) (r : String) :
    runAfter t write r = runAfter s write r := by
  cases write with
  | none => exact hkept r
  | some write => rw [runAfter, runAfter, hkept]

theorem startWorkflowRun_spec (s : Store) (write : RunWrite) (hcreates : write.creates = true) :
    (write.applies s = true ∧ ∃ s', s.startWorkflowRun write.run write.status = some s' ∧
      ∀ r, s'.runOf r = runAfter s (some write) r) ∨
    (write.applies s = false ∧ s.startWorkflowRun write.run write.status = none) := by
  rcases hfind : s.runs.find? write.run.workflowRunId with _ | row
  · have hstart : s.startWorkflowRun write.run write.status =
        some { s with runs := s.runs.put (write.result none) } := by
      rw [Store.startWorkflowRun, hfind]
      rfl
    refine Or.inl ⟨(RunWrite.applies_of_none hfind).trans hcreates, _, hstart, fun r => ?_⟩
    have hkey : (write.result none).workflowRunId = write.run.workflowRunId := rfl
    change ((s.runs.put (write.result none)).find? r).map _ = _
    rw [Table.find?_put, hkey, runAfter]
    by_cases hr : r = write.run.workflowRunId
    · rw [if_pos hr, if_pos hr, hr, Store.runOf, hfind]
      rfl
    · rw [if_neg hr, if_neg hr]
      rfl
  · rw [RunWrite.applies_of_find? hfind, Store.startWorkflowRun, hfind]
    dsimp only
    rcases hguard : workflowTransitionGuard row.status write.status with _ | _
    · exact Or.inr ⟨rfl, if_neg Bool.false_ne_true⟩
    · exact Or.inl ⟨rfl, _, if_pos rfl, runOf_write hfind _ _ fun _ => rfl⟩

theorem updateWorkflowRun_spec (s : Store) (write : RunWrite) (hcreates : write.creates = false)
    (commandId : Option (Option String)) :
    (write.applies s = true ∧ ∃ s', s.updateWorkflowRun write.run.workflowRunId write.status
      commandId = some s' ∧ ∀ r, s'.runOf r = runAfter s (some write) r) ∨
    (write.applies s = false ∧
      s.updateWorkflowRun write.run.workflowRunId write.status commandId = none) := by
  rcases hfind : s.runs.find? write.run.workflowRunId with _ | row
  · refine Or.inr ⟨(RunWrite.applies_of_none hfind).trans hcreates, ?_⟩
    rw [Store.updateWorkflowRun, hfind]
  · rw [RunWrite.applies_of_find? hfind, Store.updateWorkflowRun, hfind]
    dsimp only
    rcases hguard : workflowTransitionGuard row.status write.status with _ | _
    · exact Or.inr ⟨rfl, if_neg Bool.false_ne_true⟩
    · exact Or.inl ⟨rfl, _, if_pos rfl, runOf_write hfind _ _ fun _ => rfl⟩

/-! ## What a transaction does -/

/-- What a transaction leaves and announces that makes the write `write`. -/
structure RunEffect (s : Store) (write : Option RunWrite) (inserted : Bool)
    (bodies : List EventBody) (s' : Store) : Prop where
  runs : ∀ r, s'.runOf r = runAfter s write r
  announced : ∀ r, bodies.filterMap (·.finalStatus r) = announcedAfter write inserted r

/-- A transaction that leaves the runs alone. -/
theorem RunEffect.of_kept (hruns : ∀ r, s'.runOf r = s.runOf r)
    (hbodies : ∀ r, bodies.filterMap (·.finalStatus r) = []) :
    RunEffect s none inserted bodies s' := ⟨hruns, hbodies⟩

/-- The bodies that a handler emits when it gives a run the status. -/
def Announces (status : WorkflowRunStatus) (body : Identity → List EventBody) : Prop :=
  ∀ run r, (body run).filterMap (·.finalStatus r) =
    if status.isTerminal && run.workflowRunId = r then [status] else []

/-- `ensure_run`, with the bodies of its handler. -/
theorem effect_of_ensureRun (s : Store) (identity : Identity) (canonical : Option String)
    (step : WorkflowStepName) (inserted : Bool) (hbody : Announces status body) :
    RunEffect s ((some (ensureWrite naming identity canonical status step)).filter (·.applies s))
      inserted (((ensureRun naming s identity canonical status inserted).1.map body).getD [])
      (ensureRun naming s identity canonical status inserted).2 := by
  rw [Option.filter_some, ensureRun]
  rcases startWorkflowRun_spec s (ensureWrite naming identity canonical status step) rfl with
    ⟨happlies, s', hs', hruns⟩ | ⟨hrefused, hs'⟩
  · simp only [ensureWrite] at hs'
    rw [if_pos happlies, hs']
    refine ⟨hruns, fun r => ?_⟩
    cases inserted with
    | false => rfl
    | true => exact hbody _ r
  · simp only [ensureWrite] at hs'
    rw [hrefused, if_neg Bool.false_ne_true, hs']
    exact RunEffect.of_kept (fun _ => rfl) fun _ => rfl

theorem effect_of_transitionRun (hkept : ∀ r, t.runOf r = s.runOf r) (identity : Identity)
    (step : WorkflowStepName) (commandId : Option (Option String)) (inserted : Bool)
    (hbody : Announces status body) :
    RunEffect s ((some (transitionWrite naming identity status step)).filter (·.applies s))
      inserted
      (((transitionRun naming t identity status commandId inserted).1.map body).getD [])
      (transitionRun naming t identity status commandId inserted).2 := by
  rw [Option.filter_some, ← RunWrite.applies_congr hkept, transitionRun]
  rcases updateWorkflowRun_spec t (transitionWrite naming identity status step) rfl commandId with
    ⟨happlies, s', hs', hruns⟩ | ⟨hrefused, hs'⟩
  · simp only [transitionWrite] at hs'
    rw [if_pos happlies, hs']
    refine ⟨fun r => (hruns r).trans (runAfter_congr hkept _ r), fun r => ?_⟩
    cases inserted with
    | false => rfl
    | true => exact hbody _ r
  · simp only [transitionWrite] at hs'
    rw [hrefused, if_neg Bool.false_ne_true, hs']
    exact RunEffect.of_kept hkept fun _ => rfl

theorem getD_map_nil (run : Option Identity) :
    (run.map fun _ => ([] : List EventBody)).getD [] = [] := by
  cases run <;> rfl

theorem announces_nothing (h : status.isTerminal = false)
    (hbody : ∀ run r, (body run).filterMap (·.finalStatus r) = []) : Announces status body := by
  intro run r
  rw [hbody, h]
  rfl

theorem announces_failed : Announces .failed fun run => [.workflowRunFailed run] := by
  intro run r
  by_cases hr : run.workflowRunId = r
  · simp [EventBody.finalStatus, WorkflowRunStatus.isTerminal, hr]
  · simp [EventBody.finalStatus, hr]

theorem announces_succeeded : Announces .succeeded fun run => [.workflowRunCompleted run] := by
  intro run r
  by_cases hr : run.workflowRunId = r
  · simp [EventBody.finalStatus, WorkflowRunStatus.isTerminal, hr]
  · simp [EventBody.finalStatus, hr]

theorem effect_of_transitionAndEmit (hkept : ∀ r, t.runOf r = s.runOf r) {identity : Identity}
    (step : WorkflowStepName) {commandId : Option (Option String)} (hbody : Announces status body)
    (h : transitionAndEmit naming t identity status commandId inserted body = .ok (bodies, s')) :
    RunEffect s ((some (transitionWrite naming identity status step)).filter (·.applies s))
      inserted bodies s' := by
  rw [transitionAndEmit_eq] at h
  obtain ⟨rfl, rfl⟩ := Prod.mk.inj (Except.ok.inj h)
  exact effect_of_transitionRun naming hkept identity step commandId inserted hbody

theorem runOf_persistPolicyDecision (s : Store) (diff : Diff) (decision : PolicyDecision)
    (r : String) : (persistPolicyDecision naming s diff decision).runOf r = s.runOf r := by
  have hrequest : ∀ approval, (s.requestWorkflowApproval approval).runs = s.runs := by
    intro approval
    rw [Store.requestWorkflowApproval]
    split
    · rfl
    · split
      · rfl
      · rfl
  rw [Store.runOf, Store.runOf, persistPolicyDecision]
  split
  · rfl
  · dsimp only
    split
    · rw [Store.resolveWorkflowApproval, hrequest]
    · rw [hrequest]

theorem runOf_resolveWorkflowApprovalIfOpen {status : ApprovalStatus} {decidedBy : Option String}
    {details : ApprovalDetails}
    (h : s.resolveWorkflowApprovalIfOpen approvalId workspaceId status decidedBy details now =
      some s') (r : String) : s'.runOf r = s.runOf r := by
  rw [resolveWorkflowApprovalIfOpen_eq_some h]
  rfl

theorem effect_of_dispatchRecovery (s : Store) {diff : Diff}
    (h : dispatchRecovery naming s diff now inserted = .ok (bodies, s')) :
    RunEffect s ((recoveryWrite naming s diff now).filter (·.applies s)) inserted bodies s' := by
  rw [dispatchRecovery] at h
  rw [recoveryWrite]
  split at h
  · rename_i hrefused
    obtain ⟨rfl, rfl⟩ := Prod.mk.inj (Except.ok.inj h)
    rw [hrefused, if_neg (by decide)]
    exact RunEffect.of_kept (fun _ => rfl) fun _ => rfl
  · rename_i resolved hresolved
    have hbody : ∀ command, Announces .applying fun _ => [.commandRequested command] :=
      fun command => announces_nothing rfl fun _ _ => rfl
    have heffect := fun command => effect_of_transitionRun naming
      (runOf_resolveWorkflowApprovalIfOpen hresolved) (normalizePayload naming diff.identity)
      .apply none inserted (hbody command)
    rw [hresolved, if_pos Option.isSome_some]
    split at h
    · cases h
    · rename_i run moved htransition
      obtain ⟨rfl, rfl⟩ := Prod.mk.inj (Except.ok.inj h)
      simp only [htransition] at heffect
      exact heffect _

theorem effect_of_onDiffAnalyzed (s : Store) {diff : Diff} {safe : Bool}
    {plan : Option RecoveryPlan}
    (h : onDiffAnalyzed naming s diff safe plan now inserted = .ok (bodies, s')) :
    RunEffect s ((diffAnalyzedWrite naming s diff safe plan now).filter (·.applies s)) inserted
      bodies s' := by
  rw [onDiffAnalyzed] at h
  rw [diffAnalyzedWrite]
  by_cases hnoop : diff.isImageOnlyNoop = true
  · rw [if_pos hnoop] at h ⊢
    exact effect_of_transitionAndEmit naming (fun _ => rfl) _ announces_succeeded h
  rw [if_neg hnoop] at h ⊢
  by_cases htracked : (plan.isSome && !recoveryAuthorized s diff plan) = true
  · rw [if_pos htracked] at h ⊢
    obtain ⟨rfl, rfl⟩ := Prod.mk.inj (Except.ok.inj h)
    exact RunEffect.of_kept (fun _ => rfl) fun _ => rfl
  rw [if_neg htracked] at h ⊢
  by_cases hauthorized : recoveryAuthorized s diff plan = true
  · rw [if_pos hauthorized] at h ⊢
    exact effect_of_dispatchRecovery naming s h
  rw [if_neg hauthorized] at h ⊢
  by_cases hsafe : safe = true
  · rw [if_pos hsafe] at h ⊢
    exact effect_of_transitionAndEmit naming (fun _ => rfl) _
      (announces_nothing rfl fun _ _ => rfl) h
  · rw [if_neg hsafe] at h ⊢
    exact effect_of_transitionAndEmit naming (fun _ => rfl) _
      (announces_nothing rfl fun _ _ => rfl) h

/-- Endpoints and the policy analyzer leave the runs alone and announce no end. -/
theorem effect_of_desiredDiff (s : Store) {diff : Diff} {plan : Option RecoveryPlan}
    (h : onDesiredDiff naming s diff plan = .ok (bodies, s')) :
    RunEffect s none inserted bodies s' := by
  rw [onDesiredDiff] at h
  dsimp only at h
  split at h
  · obtain ⟨rfl, rfl⟩ := Prod.mk.inj (Except.ok.inj h)
    exact RunEffect.of_kept (fun _ => rfl) fun _ => rfl
  · obtain ⟨rfl, rfl⟩ := Prod.mk.inj (Except.ok.inj h)
    refine RunEffect.of_kept (runOf_persistPolicyDecision naming s diff _) fun r => ?_
    generalize (if recoveryAuthorized s diff plan = true then recoveryDecision naming diff
      else evaluateSafePrPolicy naming diff) = decision
    by_cases hroute : decision.route = "safe_pr"
    · rw [if_pos hroute]
      rfl
    · rw [if_neg hroute]
      rfl

theorem effect_of_grantApproval (s : Store) {userId : String} {reason : Option String}
    {deployAccess : Bool}
    (h : grantApproval s approvalId workspaceId userId reason deployAccess now =
      .ok (bodies, s')) : RunEffect s none inserted bodies s' := by
  rw [grantApproval] at h
  split at h
  · cases h
  · dsimp only at h
    split at h
    · cases h
    · rename_i hresolved
      obtain ⟨rfl, rfl⟩ := Prod.mk.inj (Except.ok.inj h)
      exact RunEffect.of_kept (runOf_resolveWorkflowApprovalIfOpen hresolved) fun _ => rfl

theorem effect_of_rejectApproval (s : Store) {userId : String} {deployAccess : Bool}
    (h : rejectApproval s approvalId workspaceId userId deployAccess now = .ok (bodies, s')) :
    RunEffect s none inserted bodies s' := by
  rw [rejectApproval] at h
  split at h
  · cases h
  · split at h
    · cases h
    · rename_i hresolved
      obtain ⟨rfl, rfl⟩ := Prod.mk.inj (Except.ok.inj h)
      exact RunEffect.of_kept (runOf_resolveWorkflowApprovalIfOpen hresolved) fun _ => rfl

theorem effect_of_onApprovalGranted (s : Store) {evt : ApprovalDecisionBody}
    (h : onApprovalGranted naming s evt inserted = .ok (bodies, s')) :
    RunEffect s ((some (transitionWrite naming evt.identity .applying .apply)).filter
      (·.applies s)) inserted bodies s' := by
  have hkept : ∀ r, (s.resolveWorkflowApproval evt.approvalId .granted evt.decidedBy
      evt.details).runOf r =
      s.runOf r := fun _ => rfl
  have heffect := effect_of_transitionRun naming hkept evt.identity .apply none inserted
    (show Announces .applying fun _ => [] from announces_nothing rfl fun _ _ => rfl)
  rw [onApprovalGranted] at h
  obtain ⟨rfl, rfl⟩ := Prod.mk.inj (Except.ok.inj h)
  refine ⟨heffect.runs, fun r => ?_⟩
  rw [← heffect.announced r]
  rw [getD_map_nil]
  cases evt.details.commandRequested <;> rfl

theorem effect_of_onCommandQueued (s : Store) {identity : Identity} {commandId : String}
    (h : onCommandQueued naming s identity commandId inserted = .ok (bodies, s')) :
    RunEffect s (appliedWrite naming s (.commandQueued identity commandId inserted)) inserted
      bodies s' := by
  rw [onCommandQueued] at h
  rw [appliedWrite, runWrite]
  split at h
  · rename_i hpersisted
    rw [if_pos hpersisted]
    exact effect_of_transitionAndEmit naming (runOf_attachWorkflowCommand s _ commandId) _
      (announces_nothing rfl fun _ _ => rfl) h
  · rename_i hpersisted
    rw [if_neg hpersisted]
    obtain ⟨rfl, rfl⟩ := Prod.mk.inj (Except.ok.inj h)
    exact RunEffect.of_kept (fun _ => rfl) fun _ => rfl

theorem effect_of_onCommandCompleted (s : Store) {commandId : String} {pick : ℕ}
    (h : onCommandCompleted naming s commandId pick inserted = .ok (bodies, s')) :
    RunEffect s (appliedWrite naming s (.commandCompleted commandId pick inserted)) inserted
      bodies s' := by
  rw [onCommandCompleted] at h
  rw [appliedWrite, runWrite]
  rcases hidentity : workflowIdentityForCommand s commandId pick with _ | identity
  · rw [hidentity] at h
    obtain ⟨rfl, rfl⟩ := Prod.mk.inj (Except.ok.inj h)
    exact RunEffect.of_kept (fun _ => rfl) fun _ => rfl
  rw [hidentity] at h
  dsimp only at h ⊢
  rcases hstatus : completedStatus naming s (normalizePayload naming identity).workflowRunId with
    _ | status
  · rw [hstatus] at h
    obtain ⟨rfl, rfl⟩ := Prod.mk.inj (Except.ok.inj h)
    exact RunEffect.of_kept (fun _ => rfl) fun _ => rfl
  rw [hstatus] at h
  have hfinal : status = .succeeded ∨ status = .failed := by
    rw [completedStatus] at hstatus
    split at hstatus
    · cases hstatus
    · exact Or.inr (Option.some.inj hstatus).symm
    · split at hstatus
      · exact Or.inr (Option.some.inj hstatus).symm
      · exact Or.inl (Option.some.inj hstatus).symm
  rcases hfinal with rfl | rfl
  · exact effect_of_transitionAndEmit naming (runOf_attachWorkflowCommand s _ commandId) _
      announces_succeeded h
  · exact effect_of_transitionAndEmit naming (runOf_attachWorkflowCommand s _ commandId) _
      announces_failed h

/-- **What a transaction does to the runs**: it makes at most the one write of `runWrite`, and
announces the end of a run when that write ended it and the fact of the write was new. -/
theorem handle_effect (s : Store) (action : Action)
    (h : handle naming s (action.withInserted inserted) = .ok (bodies, s')) :
    RunEffect s (appliedWrite naming s action) inserted bodies s' := by
  have hsilent : ∀ {status : WorkflowRunStatus}, status.isTerminal = false →
      Announces status fun _ => [] := fun hstatus => announces_nothing hstatus fun _ _ => rfl
  cases action with
  | gitWebhook identity canonical _ =>
    obtain ⟨rfl, rfl⟩ := Prod.mk.inj (Except.ok.inj h)
    have heffect := effect_of_ensureRun naming s identity canonical .git inserted
      (hsilent (show WorkflowRunStatus.isTerminal .started = false from rfl))
    rw [getD_map_nil] at heffect
    exact heffect
  | gitChanged identity canonical bound _ =>
    obtain ⟨rfl, rfl⟩ := Prod.mk.inj (Except.ok.inj h)
    have heffect := effect_of_ensureRun naming s identity canonical .render inserted
      (hsilent (show WorkflowRunStatus.isTerminal .rendering = false from rfl))
    rw [getD_map_nil] at heffect
    cases bound with
    | false => exact RunEffect.of_kept (fun _ => rfl) fun _ => rfl
    | true => exact heffect
  | render diffs =>
    obtain ⟨rfl, rfl⟩ := Prod.mk.inj (Except.ok.inj h)
    exact RunEffect.of_kept (fun _ => rfl) fun _ => rfl
  | manifestRendered identity _ =>
    exact effect_of_transitionAndEmit naming (fun _ => rfl) _ (hsilent rfl) h
  | manifestInvalid identity canonical _ =>
    obtain ⟨rfl, rfl⟩ := Prod.mk.inj (Except.ok.inj h)
    have heffect := effect_of_ensureRun naming s identity canonical .render inserted
      announces_failed
    rcases hstart : ensureRun naming s identity canonical .failed inserted with ⟨_ | run, s'⟩
    · rw [hstart] at heffect
      exact heffect
    · rw [hstart] at heffect
      exact heffect
  | diffDetected diff _ =>
    exact effect_of_transitionAndEmit naming (fun _ => rfl) _ (hsilent rfl) h
  | desiredDiff diff plan => exact effect_of_desiredDiff naming s h
  | diffAnalyzed diff safe plan now _ => exact effect_of_onDiffAnalyzed naming s h
  | safePrFailed identity _ =>
    exact effect_of_transitionAndEmit naming (fun _ => rfl) _ announces_failed h
  | grant approvalId workspaceId userId reason deployAccess now =>
    exact effect_of_grantApproval s h
  | reject approvalId workspaceId userId deployAccess now => exact effect_of_rejectApproval s h
  | approvalGranted evt _ => exact effect_of_onApprovalGranted naming s h
  | approvalRejected evt _ =>
    have hkept : ∀ r, (s.resolveWorkflowApproval evt.approvalId .rejected evt.decidedBy
        evt.details).runOf r =
        s.runOf r := fun _ => rfl
    exact effect_of_transitionAndEmit naming hkept _ announces_failed h
  | commandQueued identity commandId _ => exact effect_of_onCommandQueued naming s h
  | commandRejected requested commandId _ =>
    exact effect_of_transitionAndEmit naming (fun _ => rfl) _ announces_failed h
  | commandCompleted commandId pick _ => exact effect_of_onCommandCompleted naming s h
  | commandStore commands =>
    obtain ⟨rfl, rfl⟩ := Prod.mk.inj (Except.ok.inj h)
    exact RunEffect.of_kept (fun _ => rfl) fun _ => rfl

theorem mem_appliedWrite {action : Action} (h : write ∈ appliedWrite naming s action) :
    write.applies s = true :=
  (Option.filter_eq_some_iff.mp h).2

/-! ## Runs move forward -/

theorem statusOf_eq (s : Store) (r : String) :
    s.statusOf r = (s.runOf r).map WorkflowRun.status := by
  rw [Store.statusOf, Store.runOf, Option.map_map]
  rfl

theorem guard_of_applies (happlies : write.applies s = true)
    (hrow : s.runOf write.run.workflowRunId = some row) :
    row.status.isTerminal = false ∧ row.status.rank ≤ write.status.rank ∧
      row.status ≠ write.status := by
  rw [RunWrite.applies, hrow] at happlies
  dsimp only at happlies
  rw [workflowTransitionGuard, Bool.and_eq_true, Bool.and_eq_true, Bool.not_eq_true',
    decide_eq_true_iff, decide_eq_true_iff] at happlies
  exact ⟨happlies.1.1, happlies.1.2, happlies.2⟩

/-- A run moves forward: it stays, its status never falls in rank, and a finished run is
left as it is. -/
def Forward (s s' : Store) : Prop :=
  ∀ r row, s.runOf r = some row → ∃ row', s'.runOf r = some row' ∧
    row.status.rank ≤ row'.status.rank ∧ (row.status.isTerminal = true → row' = row)

theorem forward_of_runs {write : Option RunWrite} (happlied : ∀ w ∈ write, w.applies s = true)
    (hruns : ∀ r, s'.runOf r = runAfter s write r) :
    Forward s s' := by
  intro r row hrow
  cases write with
  | none => exact ⟨row, (hruns r).trans hrow, le_refl _, fun _ => rfl⟩
  | some write =>
    by_cases hr : r = write.run.workflowRunId
    · subst hr
      obtain ⟨hlive, hrank, -⟩ := guard_of_applies (happlied write rfl) hrow
      refine ⟨{ row with status := write.status }, ?_, hrank, fun hterminal => ?_⟩
      · rw [hruns, runAfter, if_pos rfl, hrow]
        rfl
      · exact absurd (hlive.symm.trans hterminal) Bool.false_ne_true
    · refine ⟨row, ?_, le_refl _, fun _ => rfl⟩
      rw [hruns, runAfter, if_neg hr, hrow]

/-- The run that `transition_run` returns. -/
theorem transitionRun_fst (s : Store) (identity : Identity) (status : WorkflowRunStatus)
    (step : WorkflowStepName) (commandId : Option (Option String)) :
    (transitionRun naming s identity status commandId true).1 =
      if (transitionWrite naming identity status step).applies s then
        some (normalizePayload naming identity)
      else none := by
  rw [transitionRun]
  rcases updateWorkflowRun_spec s (transitionWrite naming identity status step) rfl commandId with
    ⟨happlies, s', hs', -⟩ | ⟨hrefused, hs'⟩
  · simp only [transitionWrite] at hs'
    rw [if_pos happlies, hs']
    rfl
  · simp only [transitionWrite] at hs'
    rw [hrefused, hs', if_neg Bool.false_ne_true]

end Opsia.Gitops
