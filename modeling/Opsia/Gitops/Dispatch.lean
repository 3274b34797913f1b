import Opsia.Gitops.Controller
import Opsia.Lib.Runs

/-!
# What is dispatched for a finished run

A terminal status is absorbing: no transaction changes it. What the workflow controller
still emits for a run with such a status is decided by its two handlers that emit
commands. `on_diff_analyzed` looks at the status of the run first. `on_approval_granted`
does not: the transition it tries is refused, and the command of the grant is emitted all
the same.

The main result gives the runs without such a command exactly: those in which no grant
with a command is handled while the run of the command is finished.
-/

namespace Opsia.Gitops

open Runs

/-! ## Finished runs -/

/-- The status of a stored run. -/
def Store.statusOf (s : Store) (workflowRunId : String) : Option WorkflowRunStatus :=
  (s.runs.find? workflowRunId).map WorkflowRun.status

/-- The run is FAILED or SUCCEEDED. -/
def Store.Finished (s : Store) (workflowRunId : String) : Prop :=
  ∃ status, s.statusOf workflowRunId = some status ∧ status.isTerminal = true

/-- Every terminal status is kept. -/
def Absorbs (s s' : Store) : Prop :=
  ∀ r status, s.statusOf r = some status → status.isTerminal = true → s'.statusOf r = some status

theorem Absorbs.refl (s : Store) : Absorbs s s := fun _ _ h _ => h

variable {s : Store} {status : WorkflowRunStatus} {command : CommandRequestedBody}

variable {s' : Store} {inserted : Bool} {r : String} {now : Timestamp}

theorem Absorbs.trans {s'' : Store} (h : Absorbs s s') (h' : Absorbs s' s'') :
    Absorbs s s'' := fun r status hr hterminal => h' r status (h r status hr hterminal) hterminal

/-- Whatever leaves the runs alone keeps every status. -/
theorem Absorbs.of_runs (h : s'.runs = s.runs) : Absorbs s s' := by
  intro r status hr _
  rw [Store.statusOf, h]
  exact hr

theorem Absorbs.finished (h : Absorbs s s') (hr : s.Finished r) :
    s'.Finished r := by
  obtain ⟨status, hstatus, hterminal⟩ := hr
  exact ⟨status, h r status hstatus hterminal, hterminal⟩

/-- An update of one run that is not finished. -/
theorem absorbs_modify {row : WorkflowRun} (hfind : s.runs.find? r = some row)
    (hlive : row.status.isTerminal = false) (f : WorkflowRun → WorkflowRun)
    (hf : ∀ row, (f row).workflowRunId = row.workflowRunId) :
    Absorbs s { s with runs := s.runs.modify r f hf } := by
  intro r' status hr' hterminal
  by_cases hsame : r' = r
  · subst hsame
    rw [Store.statusOf, hfind, Option.map_some] at hr'
    cases hr'
    rw [hlive] at hterminal
    cases hterminal
  · rw [Store.statusOf, Table.find?_modify_ne _ _ _ hsame]
    exact hr'

theorem absorbs_startWorkflowRun {run : Identity} (h : s.startWorkflowRun run status = some s') :
    Absorbs s s' := by
  unfold Store.startWorkflowRun at h
  rcases hfind : s.runs.find? run.workflowRunId with _ | row
  · rw [hfind] at h
    cases h
    intro r current hr _
    rw [Store.statusOf, Table.find?_put, if_neg]
    · exact hr
    · rintro rfl
      rw [Store.statusOf, hfind] at hr
      cases hr
  · rw [hfind] at h
    change (if _ then _ else none) = some s' at h
    split at h
    · rename_i hguard
      cases h
      exact absorbs_modify hfind (not_isTerminal_of_guard hguard) _ _
    · cases h

theorem absorbs_updateWorkflowRun {commandId : Option (Option String)}
    (h : s.updateWorkflowRun r status commandId = some s') :
    Absorbs s s' := by
  unfold Store.updateWorkflowRun at h
  rcases hfind : s.runs.find? r with _ | row
  · rw [hfind] at h
    cases h
  · rw [hfind] at h
    change (if _ then _ else none) = some s' at h
    split at h
    · rename_i hguard
      cases h
      exact absorbs_modify hfind (not_isTerminal_of_guard hguard) _ _
    · cases h

theorem absorbs_attachWorkflowCommand (s : Store) (r commandId : String) :
    Absorbs s (s.attachWorkflowCommand r commandId) := by
  intro r' status hr' _
  rw [Store.statusOf, Store.attachWorkflowCommand, Table.find?_modify]
  split
  · rw [Option.map_map]
    exact hr'
  · exact hr'

theorem absorbs_requestWorkflowApproval (s : Store) (approval : Approval) :
    Absorbs s (s.requestWorkflowApproval approval) := by
  apply Absorbs.of_runs
  rw [Store.requestWorkflowApproval]
  split
  · rfl
  · split
    · rfl
    · rfl

theorem absorbs_resolveWorkflowApproval (s : Store) (approvalId : String)
    (status : ApprovalStatus) (decidedBy : Option String) (details : ApprovalDetails) :
    Absorbs s (s.resolveWorkflowApproval approvalId status decidedBy details) :=
  Absorbs.of_runs rfl

/-- What a successful `resolve_workflow_approval_if_open` leaves. -/
theorem resolveWorkflowApprovalIfOpen_eq_some {approvalId workspaceId : String}
    {status : ApprovalStatus} {decidedBy : Option String} {details : ApprovalDetails}
    (h : s.resolveWorkflowApprovalIfOpen approvalId workspaceId status decidedBy details now =
      some s') :
    s' = s.resolveWorkflowApproval approvalId status decidedBy details := by
  unfold Store.resolveWorkflowApprovalIfOpen at h
  split at h
  · cases h
  · split at h
    · exact (Option.some.inj h).symm
    · cases h

variable (naming : Naming)

/-! ## Every transaction keeps a terminal status -/

theorem absorbs_ensureRun (s : Store) (identity : Identity) (canonical : Option String)
    (status : WorkflowRunStatus) (inserted : Bool) :
    Absorbs s (ensureRun naming s identity canonical status inserted).2 := by
  unfold ensureRun
  dsimp only
  rcases hstart : s.startWorkflowRun (canonicalRun naming identity canonical) status with _ | s'
  · exact Absorbs.refl s
  · exact absorbs_startWorkflowRun hstart

theorem absorbs_transitionRun (s : Store) (identity : Identity) (status : WorkflowRunStatus)
    (commandId : Option (Option String)) (inserted : Bool) :
    Absorbs s (transitionRun naming s identity status commandId inserted).2 := by
  unfold transitionRun
  dsimp only
  rcases hupdate : s.updateWorkflowRun (normalizePayload naming identity).workflowRunId status
    commandId with _ | s'
  · exact Absorbs.refl s
  · exact absorbs_updateWorkflowRun hupdate

theorem transitionAndEmit_eq (s : Store) (identity : Identity) (status : WorkflowRunStatus)
    (commandId : Option (Option String)) (inserted : Bool) (body : Identity → List EventBody) :
    transitionAndEmit naming s identity status commandId inserted body =
      .ok (((transitionRun naming s identity status commandId inserted).1.map body).getD [],
        (transitionRun naming s identity status commandId inserted).2) := by
  rw [transitionAndEmit]
  rcases transitionRun naming s identity status commandId inserted with ⟨_ | run, s'⟩
  · rfl
  · rfl

theorem absorbs_transitionAndEmit (s : Store) (identity : Identity) (status : WorkflowRunStatus)
    (commandId : Option (Option String)) (inserted : Bool) (body : Identity → List EventBody) :
    Absorbs s ((transitionAndEmit naming s identity status commandId inserted body).commit s) := by
  rw [transitionAndEmit_eq]
  exact absorbs_transitionRun naming s identity status commandId inserted

theorem absorbs_transitionAndEmit_of (h : Absorbs s s') (identity : Identity)
    (status : WorkflowRunStatus) (commandId : Option (Option String)) (inserted : Bool)
    (body : Identity → List EventBody) :
    Absorbs s ((transitionAndEmit naming s' identity status commandId inserted body).commit s) := by
  rw [transitionAndEmit_eq]
  exact h.trans (absorbs_transitionRun naming s' identity status commandId inserted)

theorem absorbs_persistPolicyDecision (s : Store) (diff : Diff) (decision : PolicyDecision) :
    Absorbs s (persistPolicyDecision naming s diff decision) := by
  rw [persistPolicyDecision]
  split
  · exact Absorbs.refl s
  · split
    · exact (absorbs_requestWorkflowApproval s _).trans
        (absorbs_resolveWorkflowApproval _ _ _ _ _)
    · exact absorbs_requestWorkflowApproval s _

theorem absorbs_grantApproval (s : Store) (approvalId workspaceId userId : String)
    (reason : Option String) (deployAccess : Bool) (now : Timestamp) :
    Absorbs s ((grantApproval s approvalId workspaceId userId reason deployAccess now).commit s) := by
  rw [grantApproval]
  split
  · exact Absorbs.refl s
  · dsimp only
    split
    · exact Absorbs.refl s
    · rename_i hresolve
      rw [resolveWorkflowApprovalIfOpen_eq_some hresolve]
      exact absorbs_resolveWorkflowApproval s _ _ _ _

theorem absorbs_rejectApproval (s : Store) (approvalId workspaceId userId : String)
    (deployAccess : Bool) (now : Timestamp) :
    Absorbs s ((rejectApproval s approvalId workspaceId userId deployAccess now).commit s) := by
  rw [rejectApproval]
  split
  · exact Absorbs.refl s
  · split
    · exact Absorbs.refl s
    · rename_i hresolve
      rw [resolveWorkflowApprovalIfOpen_eq_some hresolve]
      exact absorbs_resolveWorkflowApproval s _ _ _ _

theorem absorbs_dispatchRecovery (s : Store) (diff : Diff) (now : Timestamp) (inserted : Bool) :
    Absorbs s ((dispatchRecovery naming s diff now inserted).commit s) := by
  unfold dispatchRecovery
  dsimp only
  split
  · exact Absorbs.refl s
  · rename_i resolved hresolve
    have hresolved : Absorbs s resolved := by
      rw [resolveWorkflowApprovalIfOpen_eq_some hresolve]
      exact absorbs_resolveWorkflowApproval s _ _ _ _
    split
    · exact Absorbs.refl s
    · rename_i run s' htransition
      have hmoved := absorbs_transitionRun naming resolved (normalizePayload naming diff.identity)
        .applying none inserted
      rw [htransition] at hmoved
      exact hresolved.trans hmoved

theorem absorbs_onDiffAnalyzed (s : Store) (diff : Diff) (safe : Bool)
    (plan : Option RecoveryPlan) (now : Timestamp) (inserted : Bool) :
    Absorbs s ((onDiffAnalyzed naming s diff safe plan now inserted).commit s) := by
  unfold onDiffAnalyzed
  dsimp only
  split
  · exact absorbs_transitionAndEmit naming s _ _ _ _ _
  · split
    · exact Absorbs.refl s
    · split
      · exact absorbs_dispatchRecovery naming s diff now inserted
      · split
        · exact absorbs_transitionAndEmit naming s _ _ _ _ _
        · exact absorbs_transitionAndEmit naming s _ _ _ _ _

theorem absorbs_onDesiredDiff (s : Store) (diff : Diff) (plan : Option RecoveryPlan) :
    Absorbs s ((onDesiredDiff naming s diff plan).commit s) := by
  rw [onDesiredDiff]
  dsimp only
  split
  · exact Absorbs.refl s
  · exact absorbs_persistPolicyDecision naming s diff _

theorem absorbs_onCommandQueued (s : Store) (identity : Identity) (commandId : String)
    (inserted : Bool) : Absorbs s ((onCommandQueued naming s identity commandId inserted).commit s) := by
  unfold onCommandQueued
  dsimp only
  split
  · exact absorbs_transitionAndEmit_of naming (absorbs_attachWorkflowCommand s _ _) _ _ _ _ _
  · exact Absorbs.refl s

theorem absorbs_onCommandCompleted (s : Store) (commandId : String) (pick : ℕ)
    (inserted : Bool) : Absorbs s ((onCommandCompleted naming s commandId pick inserted).commit s) := by
  rw [onCommandCompleted]
  split
  · exact Absorbs.refl s
  · dsimp only
    split
    · exact Absorbs.refl s
    · exact absorbs_transitionAndEmit_of naming (absorbs_attachWorkflowCommand s _ _) _ _ _ _ _

/-- **A terminal status is absorbing.** -/
theorem absorbs_step (s : Store) (action : Action) : Absorbs s (step naming s action) := by
  cases action with
  | gitWebhook identity canonical inserted => exact absorbs_ensureRun naming s _ _ _ _
  | gitChanged identity canonical bound inserted =>
    cases bound with
    | true => exact absorbs_ensureRun naming s _ _ _ _
    | false => exact Absorbs.refl s
  | render diffs => exact Absorbs.of_runs rfl
  | manifestRendered identity inserted => exact absorbs_transitionAndEmit naming s _ _ _ _ _
  | manifestInvalid identity canonical inserted => exact absorbs_ensureRun naming s _ _ _ _
  | diffDetected diff inserted => exact absorbs_transitionAndEmit naming s _ _ _ _ _
  | desiredDiff diff plan => exact absorbs_onDesiredDiff naming s diff plan
  | diffAnalyzed diff safe plan now inserted =>
    exact absorbs_onDiffAnalyzed naming s diff safe plan now inserted
  | safePrFailed identity inserted => exact absorbs_transitionAndEmit naming s _ _ _ _ _
  | grant approvalId workspaceId userId reason deployAccess now =>
    exact absorbs_grantApproval s approvalId workspaceId userId reason deployAccess now
  | reject approvalId workspaceId userId deployAccess now =>
    exact absorbs_rejectApproval s approvalId workspaceId userId deployAccess now
  | approvalGranted evt inserted =>
    exact (absorbs_resolveWorkflowApproval s _ _ _ _).trans (absorbs_transitionRun naming _ _ _ _ _)
  | approvalRejected evt inserted =>
    exact absorbs_transitionAndEmit_of naming (absorbs_resolveWorkflowApproval s _ _ _ _) _ _ _ _ _
  | commandQueued identity commandId inserted =>
    exact absorbs_onCommandQueued naming s identity commandId inserted
  | commandRejected requested commandId inserted =>
    exact absorbs_transitionAndEmit naming s _ _ _ _ _
  | commandCompleted commandId pick inserted =>
    exact absorbs_onCommandCompleted naming s commandId pick inserted
  | commandStore commands => exact Absorbs.of_runs rfl

theorem run_finished (h : s.Finished r) (actions : List Action) :
    (run (step naming) s actions).Finished r :=
  run_invariant (P := fun s => s.Finished r) (fun s a hs => (absorbs_step naming s a).finished hs)
    h actions

/-! ## Who emits commands -/

/-- The body is no command. -/
def EventBody.isCommand : EventBody → Bool
  | .commandRequested _ => true
  | _ => false

theorem not_command_of_transitionAndEmit {identity : Identity} {commandId : Option (Option String)}
    {body : Identity → List EventBody} (hbody : ∀ run, ∀ b ∈ body run, b.isCommand = false) :
    ∀ b ∈ (transitionAndEmit naming s identity status commandId inserted body).bodies,
      b.isCommand = false := by
  intro b hb
  unfold transitionAndEmit at hb
  split at hb
  · exact absurd hb List.not_mem_nil
  · exact hbody _ b hb

theorem isTerminal_of_admitsRecovery (h : status.admitsRecovery = true) :
    status.isTerminal = false := by
  cases status with
  | started | rendering | diffing | policyChecking | waitingForApproval => rfl
  | applying | rolloutWaiting | succeeded | failed => cases h

theorem not_finished_of_recoveryAuthorized {diff : Diff} {plan : Option RecoveryPlan}
    (h : recoveryAuthorized s diff plan = true) : ¬ s.Finished diff.workflowRunId := by
  rintro ⟨status, hstatus, hterminal⟩
  unfold recoveryAuthorized at h
  split at h
  · cases h
  · split at h
    · cases h
    · rename_i row hfind
      rw [Store.statusOf, hfind, Option.map_some] at hstatus
      cases hstatus
      rw [Bool.and_eq_true] at h
      rw [isTerminal_of_admitsRecovery h.1] at hterminal
      cases hterminal

theorem command_of_dispatchRecovery {diff : Diff}
    (h : .commandRequested command ∈ (dispatchRecovery naming s diff now inserted).bodies) :
    command.workflowRunId = diff.workflowRunId := by
  unfold dispatchRecovery at h
  dsimp only at h
  split at h
  · exact absurd h List.not_mem_nil
  · split at h
    · exact absurd h List.not_mem_nil
    · cases List.mem_singleton.mp h
      rfl

theorem not_finished_of_onDiffAnalyzed {diff : Diff} {safe : Bool} {plan : Option RecoveryPlan}
    (h : .commandRequested command ∈
      (onDiffAnalyzed naming s diff safe plan now inserted).bodies) :
    ¬ s.Finished command.workflowRunId := by
  have hno : ∀ {status body}, (∀ run : Identity, ∀ b ∈ body run, b.isCommand = false) →
      .commandRequested command ∉ (transitionAndEmit naming s
        (normalizePayload naming diff.identity) status none inserted body).bodies := by
    intro status body hbody hmem
    cases not_command_of_transitionAndEmit naming hbody _ hmem
  unfold onDiffAnalyzed at h
  dsimp only at h
  split at h
  · refine absurd h (hno fun run b hb => ?_)
    rw [List.mem_singleton.mp hb]
    rfl
  · split at h
    · exact absurd h List.not_mem_nil
    · split at h
      · rename_i hauthorized
        rw [command_of_dispatchRecovery naming h]
        exact not_finished_of_recoveryAuthorized hauthorized
      · split at h
        · exact absurd h (hno fun run b hb => absurd hb List.not_mem_nil)
        · refine absurd h (hno fun run b hb => ?_)
          rw [List.mem_singleton.mp hb]
          rfl

theorem command_of_onApprovalGranted {evt : ApprovalDecisionBody} :
    .commandRequested command ∈ (onApprovalGranted naming s evt inserted).bodies ↔
      evt.details.commandRequested = some command := by
  change _ ∈ (Option.map EventBody.commandRequested _).toList ↔ _
  rw [Option.mem_toList, Option.map_eq_some_iff]
  constructor
  · rintro ⟨command', hsome, hsame⟩
    cases hsame
    exact hsome
  · intro hsome
    exact ⟨command, hsome, rfl⟩

/-- The condition of the main result: a grant with a command is handled only while the
run of the command is not finished. -/
def GrantIsLive (s : Store) : Action → Prop
  | .approvalGranted evt _ =>
    ∀ command, evt.details.commandRequested = some command → ¬ s.Finished command.workflowRunId
  | _ => True

/-- **What one transaction dispatches.** It emits a command for a finished run if and only
if it handles a grant that carries one. -/
theorem dispatches_live_iff (s : Store) (action : Action) :
    (∀ command, .commandRequested command ∈ emits naming s action →
      ¬ s.Finished command.workflowRunId) ↔ GrantIsLive s action := by
  have hno : ∀ {bodies : List EventBody}, (∀ b ∈ bodies, b.isCommand = false) →
      ∀ command, .commandRequested command ∈ bodies → ¬ s.Finished command.workflowRunId := by
    intro bodies hbodies command hmem
    cases hbodies _ hmem
  have hnil : ∀ b ∈ ([] : List EventBody), b.isCommand = false :=
    fun b hb => absurd hb List.not_mem_nil
  have hone : ∀ {b' : EventBody}, b'.isCommand = false → ∀ b ∈ [b'], b.isCommand = false := by
    intro b' hb' b hb
    rw [List.mem_singleton.mp hb]
    exact hb'
  cases action with
  | gitWebhook identity canonical inserted => exact iff_of_true (hno hnil) trivial
  | gitChanged identity canonical bound inserted => exact iff_of_true (hno hnil) trivial
  | render diffs => exact iff_of_true (hno hnil) trivial
  | manifestRendered identity inserted =>
    exact iff_of_true (hno (not_command_of_transitionAndEmit naming fun _ => hnil)) trivial
  | manifestInvalid identity canonical inserted =>
    refine iff_of_true (hno fun b hb => ?_) trivial
    obtain ⟨run, -, rfl⟩ := Option.map_eq_some_iff.mp (Option.mem_toList.mp hb)
    rfl
  | diffDetected diff inserted =>
    exact iff_of_true (hno (not_command_of_transitionAndEmit naming fun _ => hnil)) trivial
  | desiredDiff diff plan =>
    refine iff_of_true (hno fun b hb => ?_) trivial
    change b ∈ (onDesiredDiff naming s diff plan).bodies at hb
    unfold onDesiredDiff at hb
    dsimp only at hb
    generalize (if recoveryAuthorized s diff plan = true then recoveryDecision naming diff
      else evaluateSafePrPolicy naming diff) = decision at hb
    split at hb
    · exact hone rfl b hb
    · rcases List.mem_cons.mp hb with rfl | hb
      · rfl
      · split at hb
        · exact hone rfl b hb
        · exact hnil b hb
  | diffAnalyzed diff safe plan now inserted =>
    exact iff_of_true (fun command hmem => not_finished_of_onDiffAnalyzed naming hmem) trivial
  | safePrFailed identity inserted =>
    exact iff_of_true (hno (not_command_of_transitionAndEmit naming fun _ => hone rfl)) trivial
  | grant approvalId workspaceId userId reason deployAccess now =>
    refine iff_of_true (hno fun b hb => ?_) trivial
    change b ∈ (grantApproval s approvalId workspaceId userId reason deployAccess now).bodies at hb
    unfold grantApproval at hb
    split at hb
    · exact hnil b hb
    · dsimp only at hb
      split at hb
      · exact hnil b hb
      · exact hone rfl b hb
  | reject approvalId workspaceId userId deployAccess now =>
    refine iff_of_true (hno fun b hb => ?_) trivial
    change b ∈ (rejectApproval s approvalId workspaceId userId deployAccess now).bodies at hb
    unfold rejectApproval at hb
    split at hb
    · exact hnil b hb
    · split at hb
      · exact hnil b hb
      · exact hone rfl b hb
  | approvalGranted evt inserted =>
    exact forall_congr' fun command =>
      imp_congr_left (command_of_onApprovalGranted naming)
  | approvalRejected evt inserted =>
    exact iff_of_true (hno (not_command_of_transitionAndEmit naming fun _ => hone rfl)) trivial
  | commandQueued identity commandId inserted =>
    refine iff_of_true (hno fun b hb => ?_) trivial
    change b ∈ (onCommandQueued naming s identity commandId inserted).bodies at hb
    unfold onCommandQueued at hb
    dsimp only at hb
    split at hb
    · exact not_command_of_transitionAndEmit naming (fun _ => hnil) b hb
    · exact hnil b hb
  | commandRejected requested commandId inserted =>
    exact iff_of_true (hno (not_command_of_transitionAndEmit naming fun _ => hone rfl)) trivial
  | commandCompleted commandId pick inserted =>
    refine iff_of_true (hno fun b hb => ?_) trivial
    change b ∈ (onCommandCompleted naming s commandId pick inserted).bodies at hb
    unfold onCommandCompleted at hb
    split at hb
    · exact hnil b hb
    · dsimp only at hb
      split at hb
      · exact hnil b hb
      · refine not_command_of_transitionAndEmit naming (fun run b hb => ?_) b hb
        split at hb
        · exact hone rfl b hb
        · exact hone rfl b hb
  | commandStore commands => exact iff_of_true (hno hnil) trivial

/-! ## Main result -/

/-- Once a run is finished, no later transaction of the run of the system emits a command
for it. -/
def NeverDispatchesFinished (s : Store) (actions : List Action) : Prop :=
  ∀ before between after action r, actions = before ++ between ++ action :: after →
    (run (step naming) s before).Finished r →
      ∀ command, .commandRequested command ∈
          emits naming (run (step naming) s (before ++ between)) action →
        command.workflowRunId ≠ r

/-- **Nothing is dispatched for a finished run** in exactly the runs of the system in which
every grant with a command is handled while the run of the command is not finished. -/
theorem never_dispatches_finished_iff (s : Store) (actions : List Action) :
    NeverDispatchesFinished naming s actions ↔ Meets (step naming) GrantIsLive s actions := by
  constructor
  · intro hnever e he
    obtain ⟨before, after, hactions, hpre, -⟩ := mem_trace_iff.mp he
    rw [← dispatches_live_iff naming]
    intro command hmem hfinished
    rw [hpre] at hmem hfinished
    refine hnever before [] after e.action _ ?_ hfinished command ?_ rfl
    · rw [List.append_nil]
      exact hactions
    · rw [List.append_nil]
      exact hmem
  · rintro hmeets before between after action r rfl hfinished command hmem rfl
    have hlive : GrantIsLive (run (step naming) s (before ++ between)) action :=
      hmeets _ (step_mem_trace s (before ++ between) action after)
    refine (dispatches_live_iff naming _ action).mpr hlive command hmem ?_
    rw [run_append]
    exact run_finished naming hfinished between

/-! ## The command of a failed run -/

/-- The digests of the run below: the digested text itself. -/
def plainNaming : Naming := ⟨fun _ => "", fun raw => raw, fun s => s, fun s => s⟩

/-- The run of one commit of the application `shop`. -/
def shopRun : Identity := ⟨"run-1", "ws", "shop", "binding-1", "prod", "c1", "abc"⟩

/-- The diff of one deployment of that commit. -/
def shopDiff (name : String) : Diff where
  resource := "deployment/" ++ name
  namespaceName := "prod"
  desiredImage := "shop:2"
  actualImage := "shop:1"
  risk := .reviewRequired
  workspaceId := "ws"
  bindingId := "binding-1"
  applicationId := "shop"
  workflowRunId := "run-1"
  environment := "prod"
  clusterId := "c1"
  desiredManifest := some ⟨"deployment", name, "prod"⟩
  hasChanges := true
  artifactDigest := ""

/-- The approval of a diff, as the policy decision stores it. -/
def shopApproval (name : String) : Approval :=
  policyApproval plainNaming (shopDiff name) (evaluateSafePrPolicy plainNaming (shopDiff name))
    ((shopDiff name).approvalRef plainNaming)

/-- The event that granting the approval stages. -/
def shopGrant (name : String) : ApprovalDecisionBody :=
  ⟨(shopApproval name).approvalId, (shopApproval name).identity, some "alice",
    { (shopApproval name).details with
      commandRequested :=
        some (approvalCommandRequest (shopApproval name) (shopDiff name) none "alice") }⟩

/-- The event that rejecting the approval stages. -/
def shopReject (name : String) : ApprovalDecisionBody :=
  ⟨(shopApproval name).approvalId, (shopApproval name).identity, some "alice",
    (shopApproval name).details⟩

/-- Two resources of one commit: `api` is granted and `web` rejected, and the controller
handles the rejection first. -/
def rejectedRun : List Action :=
  [.gitWebhook shopRun none true, .desiredDiff (shopDiff "api") none,
    .desiredDiff (shopDiff "web") none,
    .diffAnalyzed (shopDiff "api") false none 10 true,
    .grant (shopApproval "api").approvalId "ws" "alice" none true 20,
    .reject (shopApproval "web").approvalId "ws" "alice" true 30,
    .approvalRejected (shopReject "web") true]

/-- **A rejected run is deployed.** The controller emits the command of the granted resource
after the rejection of the other one has failed the run. -/
theorem rejected_run_dispatches :
    ¬ ∀ (naming : Naming) (actions : List Action),
      NeverDispatchesFinished naming .empty actions := by
  intro h
  refine h plainNaming (rejectedRun ++ [.approvalGranted (shopGrant "api") true])
    rejectedRun [] [] _ "run-1" rfl ⟨.failed, ?_, rfl⟩ _ List.mem_cons_self rfl
  decide

/-- The handled events are the ones that the endpoints stage. -/
example : emits plainNaming (run (step plainNaming) .empty (rejectedRun.take 4))
    (.grant (shopApproval "api").approvalId "ws" "alice" none true 20) =
      [.approvalGranted (shopGrant "api")] := by decide

end Opsia.Gitops
