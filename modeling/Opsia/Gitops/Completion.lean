import Opsia.Gitops.Dispatch

/-!
# When a workflow run succeeds

`on_command_completed` derives the status of a run from the approvals and commands that
the database holds for it. The inversion lemma of `workflow_command_progress_status` says
what a success means for them. Whether they are all the resources of the commit is
another matter: a resource that `diff-analyze-worker` has not decided yet has no approval
row, and nothing counts it.

The main result is for the runs in which every resource of the commit has been decided
when the last command of the decided ones completes.
-/

namespace Opsia.Gitops

open Runs

variable (naming : Naming)

/-! ## What a success of the progress means -/

/-- Every approval and command of the run is through. -/
structure Through (approvals : List Approval) (commands : List QueuedCommand) : Prop where
  granted : ∀ approval ∈ approvals, approval.status = .granted
  referenced : ∀ approval ∈ approvals, ∃ command ∈ commands,
    command.approvalRef = approval.approvalId
  completed : ∀ command ∈ commands, command.status = .completed
  eligible : ∀ command ∈ commands, command.result.eligible naming = true

/-- **A succeeded progress.** -/
theorem through_of_succeeded {approvals : List Approval} {commands : List QueuedCommand}
    (h : workflowCommandProgressStatus naming approvals commands = .succeeded) :
    Through naming approvals commands := by
  unfold workflowCommandProgressStatus at h
  split at h
  · cases h
  split at h
  · cases h
  rename_i hgranted
  split at h
  · cases h
  rename_i hreferenced
  split at h
  · cases h
  split at h
  · cases h
  split at h
  · cases h
  rename_i hcompleted
  split at h
  · cases h
  rename_i heligible
  simp only [List.any_eq_true, not_exists, not_and, decide_eq_true_eq, ne_eq, not_not]
    at hgranted hcompleted
  simp only [Bool.not_eq_true', Bool.not_eq_false, List.all_eq_true, decide_eq_true_eq,
    List.mem_map] at hreferenced
  simp only [List.any_eq_true, not_exists, not_and, Bool.not_eq_true', Bool.not_eq_false]
    at heligible
  exact ⟨hgranted, hreferenced, hcompleted, heligible⟩

/-! ## Which step makes a run succeed -/

variable {s : Store} {workflowRunId : String}

theorem statusOf_updateWorkflowRun {s' : Store} {status : WorkflowRunStatus}
    {commandId : Option (Option String)}
    (h : s.updateWorkflowRun workflowRunId status commandId = some s') (r : String) :
    s'.statusOf r = if r = workflowRunId then some status else s.statusOf r := by
  unfold Store.updateWorkflowRun at h
  rcases hfind : s.runs.find? workflowRunId with _ | row
  · rw [hfind] at h
    cases h
  · rw [hfind] at h
    change (if _ then _ else none) = some s' at h
    split at h
    · cases h
      rw [Store.statusOf, Table.find?_modify]
      split
      · rename_i hsame
        rw [hsame, hfind]
        rfl
      · rfl
    · cases h

theorem statusOf_transitionRun (s : Store) (identity : Identity) (status : WorkflowRunStatus)
    (commandId : Option (Option String)) (inserted : Bool) (r : String) :
    (transitionRun naming s identity status commandId inserted).2.statusOf r = s.statusOf r ∨
      (r = deriveWorkflowRunId naming identity ∧
        (transitionRun naming s identity status commandId inserted).2.statusOf r = some status) := by
  unfold transitionRun
  dsimp only
  rcases hupdate : s.updateWorkflowRun (normalizePayload naming identity).workflowRunId status
    commandId with _ | s'
  · exact .inl rfl
  · have hstatus := statusOf_updateWorkflowRun hupdate r
    by_cases hsame : r = (normalizePayload naming identity).workflowRunId
    · rw [if_pos hsame] at hstatus
      exact .inr ⟨hsame, hstatus⟩
    · rw [if_neg hsame] at hstatus
      exact .inl hstatus

theorem statusOf_attachWorkflowCommand (s : Store) (workflowRunId commandId r : String) :
    (s.attachWorkflowCommand workflowRunId commandId).statusOf r = s.statusOf r := by
  rw [Store.statusOf, Store.attachWorkflowCommand, Table.find?_modify]
  split
  · rw [Option.map_map]
    rfl
  · rfl

/-- Every event names a run once its payload is normalised. -/
theorem deriveWorkflowRunId_ne_empty (identity : Identity) :
    deriveWorkflowRunId naming identity ≠ "" := by
  rw [deriveWorkflowRunId]
  split
  · assumption
  · intro h
    have hlength := congrArg String.length h
    have hprefix : "workflow-".length = 9 := by decide
    have hempty : "".length = 0 := by decide
    rw [String.length_append] at hlength
    omega

theorem deriveWorkflowRunId_normalizePayload (identity : Identity) :
    deriveWorkflowRunId naming (normalizePayload naming identity) =
      deriveWorkflowRunId naming identity :=
  if_pos (deriveWorkflowRunId_ne_empty naming identity)

theorem progress_of_completedStatus (h : completedStatus naming s workflowRunId = some .succeeded) :
    s.progress naming workflowRunId = .succeeded := by
  unfold completedStatus at h
  rcases hprogress : s.progress naming workflowRunId with _ | _ | _
  · rw [hprogress] at h
    cases h
  · rw [hprogress] at h
    cases h
  · rfl

/-- **A completion that makes a run succeed** has found all its approvals and commands
through. -/
theorem progress_of_completed {commandId : String} {pick : ℕ} {inserted : Bool} {r : String}
    (hbefore : s.statusOf r ≠ some .succeeded)
    (hafter : ((onCommandCompleted naming s commandId pick inserted).commit s).statusOf r =
      some .succeeded) :
    ∃ identity, workflowIdentityForCommand s commandId pick = some identity ∧
      r = deriveWorkflowRunId naming identity ∧ s.progress naming r = .succeeded := by
  unfold onCommandCompleted at hafter
  rcases hidentity : workflowIdentityForCommand s commandId pick with _ | identity
  · rw [hidentity] at hafter
    exact absurd hafter hbefore
  · rw [hidentity] at hafter
    dsimp only at hafter
    rcases hstatus : completedStatus naming s (normalizePayload naming identity).workflowRunId
      with _ | status
    · rw [hstatus] at hafter
      exact absurd hafter hbefore
    · rw [hstatus] at hafter
      dsimp only at hafter
      rw [transitionAndEmit_eq] at hafter
      change (transitionRun naming _ _ _ _ _).2.statusOf r = _ at hafter
      rcases statusOf_transitionRun naming
          (s.attachWorkflowCommand (normalizePayload naming identity).workflowRunId commandId)
          (normalizePayload naming identity) status (some (some commandId)) inserted r
        with hsame | ⟨hr, hset⟩
      · rw [hsame, statusOf_attachWorkflowCommand] at hafter
        exact absurd hafter hbefore
      · rw [hset] at hafter
        cases hafter
        rw [deriveWorkflowRunId_normalizePayload] at hr
        refine ⟨identity, rfl, hr, ?_⟩
        rw [hr]
        exact progress_of_completedStatus naming hstatus

/-! ## Main result -/

/-- The actionable diffs that were rendered for a run. -/
def Store.actionable (s : Store) (workflowRunId : String) : List Diff :=
  s.rendered.filter fun diff =>
    diff.hasChanges && deriveWorkflowRunId naming diff.identity = workflowRunId

/-- Every actionable resource of the run is approved and applied. -/
def Store.AllApplied (s : Store) (workflowRunId : String) : Prop :=
  ∀ diff ∈ s.actionable naming workflowRunId, ∃ approval ∈ s.approvalsOf workflowRunId,
    approval.approvalId = diff.approvalRef naming ∧ approval.status = .granted ∧
      ∃ command ∈ s.commandsOf workflowRunId, command.approvalRef = approval.approvalId ∧
        command.status = .completed ∧ command.result.eligible naming = true

/-- Every actionable resource of the run has been decided: its approval row exists. -/
def Store.AllDecided (s : Store) (workflowRunId : String) : Prop :=
  ∀ diff ∈ s.actionable naming workflowRunId, ∃ approval ∈ s.approvalsOf workflowRunId,
    approval.approvalId = diff.approvalRef naming

/-- The condition of the main result: a completion that finds the approvals and commands
of its run through finds every actionable resource decided. -/
def DecidedInTime (s : Store) : Action → Prop
  | .commandCompleted commandId pick _ =>
    ∀ identity, workflowIdentityForCommand s commandId pick = some identity →
      s.progress naming (deriveWorkflowRunId naming identity) = .succeeded →
        s.AllDecided naming (deriveWorkflowRunId naming identity)
  | _ => True

/-- The entry of a run of the system in which `on_command_completed` makes a workflow run
succeed. -/
def Succeeds (e : Entry Store Action) (workflowRunId : String) : Prop :=
  (∃ commandId pick inserted, e.action = .commandCompleted commandId pick inserted) ∧
    e.pre.statusOf workflowRunId ≠ some .succeeded ∧
      e.post.statusOf workflowRunId = some .succeeded

theorem allApplied_of_through (hdecided : s.AllDecided naming workflowRunId)
    (hthrough : Through naming (s.approvalsOf workflowRunId) (s.commandsOf workflowRunId)) :
    s.AllApplied naming workflowRunId := by
  intro diff hdiff
  obtain ⟨approval, happroval, hid⟩ := hdecided diff hdiff
  obtain ⟨command, hcommand, href⟩ := hthrough.referenced approval happroval
  exact ⟨approval, happroval, hid, hthrough.granted approval happroval, command, hcommand, href,
    hthrough.completed command hcommand, hthrough.eligible command hcommand⟩

/-- **A workflow run succeeds only when all of it was applied**, in every run of the system
in which a completion that finds its approvals and commands through finds every actionable
resource decided. -/
theorem run_succeeds_applied (s : Store) (actions : List Action)
    (hdecided : Meets (step naming) (DecidedInTime naming) s actions) :
    ∀ e ∈ trace (step naming) s actions, ∀ workflowRunId, Succeeds e workflowRunId →
      e.pre.AllApplied naming workflowRunId := by
  rintro ⟨pre, action, post⟩ he workflowRunId ⟨⟨commandId, pick, inserted, rfl⟩, hbefore, hafter⟩
  obtain ⟨-, -, -, -, hpost⟩ := mem_trace_iff.mp he
  dsimp only at hpost hbefore hafter
  rw [hpost] at hafter
  obtain ⟨identity, hidentity, rfl, hprogress⟩ := progress_of_completed naming hbefore hafter
  exact allApplied_of_through naming (hdecided _ he identity hidentity hprogress)
    (through_of_succeeded naming hprogress)

/-- The command of a granted approval of the commit of `shopRun`. -/
def shopCommand (name : String) (status : CommandStatus) (result : CommandResult) :
    QueuedCommand where
  commandId := "cmd-" ++ name
  status := status
  payload := shopRun
  approvalRef := (shopApproval name).approvalId
  diff := some (shopDiff name)
  result := result

/-- The result of an applied command. -/
def appliedResult : CommandResult := ⟨"completed", some true, [], some true⟩

/-- One resource of a commit, rendered, decided, granted, dispatched and applied. -/
def appliedRun (rendered : List Diff) : List Action :=
  [.gitWebhook shopRun none true, .render rendered, .desiredDiff (shopDiff "api") none,
    .diffAnalyzed (shopDiff "api") false none 10 true,
    .grant (shopApproval "api").approvalId "ws" "alice" none true 20,
    .approvalGranted (shopGrant "api") true,
    .commandStore (Table.empty.put (shopCommand "api" .queued ⟨"", none, [], none⟩)),
    .commandQueued shopRun "cmd-api" true,
    .commandStore (Table.empty.put (shopCommand "api" .completed appliedResult)),
    .commandCompleted "cmd-api" 0 true]

/-- The store before the completion. -/
def beforeCompletion (rendered : List Diff) : Store :=
  run (step plainNaming) .empty ((appliedRun rendered).take 9)

/-- The completion of the command. -/
def completion (rendered : List Diff) : Entry Store Action :=
  ⟨beforeCompletion rendered, .commandCompleted "cmd-api" 0 true,
    step plainNaming (beforeCompletion rendered) (.commandCompleted "cmd-api" 0 true)⟩

theorem completion_mem (rendered : List Diff) :
    completion rendered ∈ trace (step plainNaming) .empty (appliedRun rendered) := by
  have hlast : appliedRun rendered =
      (appliedRun rendered).take 9 ++ .commandCompleted "cmd-api" 0 true :: [] := rfl
  have hmem := @step_mem_trace _ _ (step plainNaming) Store.empty ((appliedRun rendered).take 9)
    (.commandCompleted "cmd-api" 0 true) []
  rw [← hlast] at hmem
  exact hmem

/-- The run of a commit of one resource succeeds, and the resource is applied. -/
theorem run_succeeds_applied_api :
    (beforeCompletion [shopDiff "api"]).AllApplied plainNaming "run-1" := by
  refine run_succeeds_applied plainNaming .empty (appliedRun [shopDiff "api"]) ?_
    (completion [shopDiff "api"]) (completion_mem _) "run-1"
    ⟨⟨_, _, _, rfl⟩, by decide, by decide⟩
  rw [appliedRun]
  simp only [meets_cons]
  refine ⟨trivial, trivial, trivial, trivial, trivial, trivial, trivial, trivial, trivial, ?_,
    fun e he => absurd he List.not_mem_nil⟩
  intro identity hidentity _
  have hrun : workflowIdentityForCommand (beforeCompletion [shopDiff "api"]) "cmd-api" 0 =
      some shopRun := by decide
  obtain rfl : identity = shopRun := Option.some.inj (hidentity.symm.trans hrun)
  rw [Store.AllDecided]
  decide

/-- **A run succeeds half applied.** Two resources were rendered; when the command of the
first completes, the second has not been decided and has no approval row yet. -/
theorem half_applied_run_succeeds :
    ¬ ∀ (naming : Naming) (actions : List Action),
      ∀ e ∈ trace (step naming) .empty actions, ∀ workflowRunId, Succeeds e workflowRunId →
        e.pre.AllApplied naming workflowRunId := by
  intro h
  have happlied := h plainNaming _ _ (completion_mem [shopDiff "api", shopDiff "web"]) "run-1"
    ⟨⟨_, _, _, rfl⟩, by decide, by decide⟩
  obtain ⟨approval, happroval, hid, -⟩ := happlied (shopDiff "web") (by decide)
  have hnone : ∀ approval ∈ (beforeCompletion [shopDiff "api", shopDiff "web"]).approvalsOf "run-1",
      approval.approvalId ≠ (shopDiff "web").approvalRef plainNaming := by decide
  exact hnone approval happroval hid

end Opsia.Gitops
