import Mathlib.Data.List.Perm.Subperm
import Opsia.Gitops.Landing
import Opsia.Lib.Runs

/-!
# Promotions and fan-outs of one commit

A webhook opens a run, and the run opens others: `fanout_global_bindings` sends a webhook to
each global binding of the repository, and `on_run_completed_promote` one to the binding that a
succeeded run promotes to. Nothing bounds the chain but the test whether the run of a binding
is there already, under the id that its application, its environment and the commit derive.

`ensure_run` may store the run under another application, the one that has the name of the
repository. While promotions stay in one repository this is one and the same application, and
each binding gets at most one run of the commit. A promotion into another repository may come
back under a second application.
-/

namespace Opsia.Gitops

open Runs

/-! ## Digests of runs -/

/-- `derive_workflow_run_id` takes the digest of five fields. -/
def Naming.hashed (naming : Naming) : Naming :=
  { naming with
    runDigest := fun identity => naming.digest (PyText.join '|'
      [identity.workspaceId, identity.applicationId, identity.bindingId, identity.environment,
        identity.commitSha]) }

/-- The id of the run of a binding at a commit, for an application. -/
def bindingRunId (naming : Naming) (workspaceId applicationId : String)
    (binding : DeploymentBinding) (commitSha : String) : String :=
  deriveWorkflowRunId naming.hashed
    ⟨"", workspaceId, applicationId, binding.bindingId, binding.environment, "", commitSha⟩

/-! ## The handlers -/

variable (naming : Naming) (g : Registry)

def Registry.getDeploymentBinding (workspaceId bindingId : String) : Option DeploymentBinding :=
  (g.bindings.find? bindingId).filter fun binding => binding.workspaceId = workspaceId

/-- `list_repository_deployment_bindings`, in the order of the table. -/
def Registry.listRepositoryDeploymentBindings (workspaceId repositoryId : String) :
    List DeploymentBinding :=
  g.bindings.rows.filter fun binding =>
    binding.workspaceId = workspaceId && binding.repositoryId = repositoryId &&
      binding.status = .active

/-- The repository that `get_application` joins. -/
def Registry.applicationRepository (applications : Applications)
    (workspaceId applicationId : String) : Option GitRepository :=
  ((applications.byKey.find? applicationId).filter fun application =>
    application.workspaceId = workspaceId).bind fun application =>
      (g.repositories.find? application.repositoryId).filter fun repository =>
        repository.workspaceId = workspaceId

def runExistsFor (s : Store) (workspaceId applicationId : String) (binding : DeploymentBinding)
    (commitSha : String) : Bool :=
  (s.runs.find? (bindingRunId naming workspaceId applicationId binding commitSha)).isSome

/-- The binding of a completed run, and the one that it promotes to. -/
def Registry.promotion (evt : Identity) : Option (DeploymentBinding × DeploymentBinding) :=
  (g.getDeploymentBinding evt.workspaceId evt.bindingId).bind fun source =>
    let targetId := source.deployPolicy.promotesToBindingId
    if targetId = "" || targetId = evt.bindingId then none
    else (g.getDeploymentBinding evt.workspaceId targetId).map fun target => (source, target)

/-- `on_run_completed_promote`, with the image and the replicas that
`promoted_image_and_replicas` reads. -/
def onRunCompletedPromote (applications : Applications) (s : Store) (evt : Identity)
    (image : String) (replicas : ℕ) : List GitWebhookReceivedBody :=
  match g.promotion evt with
  | none => []
  | some (_, target) =>
    let commitSha := ((s.runs.find? evt.workflowRunId).map WorkflowRun.commitSha).getD ""
    if commitSha = "" || runExistsFor naming s evt.workspaceId evt.applicationId target commitSha
    then []
    else
      match g.applicationRepository applications evt.workspaceId evt.applicationId with
      | none => []
      | some repository =>
        if image = "" then []
        else
          [entryWebhookForBinding evt.workspaceId evt.applicationId target commitSha image replicas
            repository.repoRef.text repository.defaultBranch]

/-- `fanout_global_bindings`; `isManagement` is what the registration of a cluster says. -/
def fanoutGlobalBindings (isManagement : String → Bool) (s : Store)
    (evt : GitWebhookReceivedBody) : List GitWebhookReceivedBody :=
  let source := g.getDeploymentBinding evt.workspaceId evt.bindingId
  let repositoryId := orDefault ((source.map DeploymentBinding.repositoryId).getD "")
    evt.repositoryId
  if source.any (fun binding => binding.deployPolicy.isGlobal) || repositoryId = "" then []
  else
    let targets := (g.listRepositoryDeploymentBindings evt.workspaceId repositoryId).filter
      fun binding => binding.bindingId ≠ evt.bindingId && binding.deployPolicy.isGlobal &&
        !isManagement binding.clusterId &&
          !runExistsFor naming s evt.workspaceId evt.applicationId binding evt.commitSha
    targets.map fun binding =>
      entryWebhookForBinding evt.workspaceId evt.applicationId binding evt.commitSha evt.image
        evt.replicas evt.repoRef evt.branch

/-! ## The system -/

/-- The cascade of one webhook: the applications and the runs, the entry webhooks and the
completed runs that wait for their handlers, the runs that were opened, and how many webhooks
the handlers emitted. -/
structure CascadeSystem : Type where
  applications : Applications
  store : Store
  webhooks : List GitWebhookReceivedBody
  completed : List Identity
  opened : List Identity
  emitted : ℕ

/-- The webhook of a poll target was accepted. -/
def CascadeSystem.start (applications : Applications) (store : Store)
    (webhook : GitWebhookReceivedBody) : CascadeSystem :=
  ⟨applications, store, [webhook], [], [], 0⟩

/-- One transaction. -/
inductive CascadeAction : Type where
  /-- `on_git_webhook` -/
  | webhook (body : GitWebhookReceivedBody) (inserted : Bool)
  /-- an opened run succeeds -/
  | succeed (workflowRunId : String)
  /-- `on_run_completed_promote` -/
  | promote (evt : Identity) (image : String) (replicas : ℕ)

/-- The runs that a transaction created. -/
def createdRuns (s s' : Store) : List Identity :=
  (s'.runs.rows.filter fun row => (s.runs.find? row.workflowRunId).isNone).map WorkflowRun.identity

variable (isManagement : String → Bool)

/-- One transaction; one that is not due, or that fails, changes nothing. -/
def CascadeSystem.step (s : CascadeSystem) : CascadeAction → CascadeSystem
  | .webhook body inserted =>
    if body ∈ s.webhooks then
      match ensureWebhookRun naming.hashed s.applications s.store body .started inserted with
      | .error _ => s
      | .ok (run, applications, store) =>
        let emitted :=
          if run.isSome then fanoutGlobalBindings naming g isManagement store body else []
        { applications := applications
          store := store
          webhooks := s.webhooks.erase body ++ emitted
          completed := s.completed
          opened := s.opened ++ createdRuns s.store store
          emitted := s.emitted + emitted.length }
    else s
  | .succeed workflowRunId =>
    if workflowRunId ∈ s.opened.map Identity.workflowRunId then
      match s.store.runs.find? workflowRunId with
      | none => s
      | some row =>
        let moved := transitionRun naming.hashed s.store row.identity .succeeded none true
        { s with store := moved.2, completed := s.completed ++ moved.1.toList }
    else s
  | .promote evt image replicas =>
    if evt ∈ s.completed then
      let emitted := onRunCompletedPromote naming g s.applications s.store evt image replicas
      { s with
        webhooks := s.webhooks ++ emitted
        completed := s.completed.erase evt
        emitted := s.emitted + emitted.length }
    else s

/-- The condition of the main result: a promotion stays in the repository of the run. -/
def staysInRepository (_s : CascadeSystem) : CascadeAction → Bool
  | .promote evt _ _ =>
    (g.promotion evt).all fun promotion => promotion.2.repositoryId = promotion.1.repositoryId
  | _ => true

/-- Each binding got at most one run, and the handlers emitted no more webhooks than the
bindings allow. -/
structure OpensOnce (s : CascadeSystem) : Prop where
  once : (s.opened.map Identity.bindingId).Nodup
  finite : s.emitted ≤ g.bindings.rows.length * (g.bindings.rows.length + 1)

/-! ## The run of a webhook -/

/-- The row that `start_workflow_run` inserts. -/
def startedRow (run : Identity) : WorkflowRun :=
  ⟨run.workflowRunId, run.workspaceId, run.applicationId, run.bindingId, run.environment,
    run.clusterId, run.commitSha, .started, none⟩

theorem createdRuns_self (s : Store) : createdRuns s s = [] := by
  rw [createdRuns, List.map_eq_nil_iff, List.filter_eq_nil_iff]
  intro row hrow
  rw [Table.find?_of_mem hrow]
  exact Bool.false_ne_true

variable {applications : Applications} {s : CascadeSystem} {body : GitWebhookReceivedBody}
  {row : WorkflowRun}

theorem createdRuns_put {s : Store} {run : Identity}
    (hfree : s.runs.find? run.workflowRunId = none) :
    createdRuns s { s with runs := s.runs.put (startedRow run) } = [run] := by
  have hself := createdRuns_self s
  rw [createdRuns, List.map_eq_nil_iff] at hself
  have hrows : (s.runs.put (startedRow run)).rows = s.runs.rows ++ [startedRow run] :=
    Table.rows_put_of_none hfree
  have hnew : [startedRow run].filter (fun row => (s.runs.find? row.workflowRunId).isNone) =
      [startedRow run] := by
    refine List.filter_eq_self.mpr fun row hrow => ?_
    rw [List.mem_singleton.mp hrow]
    change (s.runs.find? run.workflowRunId).isNone = true
    rw [hfree]
    rfl
  rw [createdRuns, hrows, List.filter_append, hself, hnew]
  rfl

theorem guard_started (status : WorkflowRunStatus) :
    workflowTransitionGuard status .started = false := by
  cases status <;> rfl

theorem ensureRun_started (naming : Naming) (s : Store) (identity : Identity)
    (canonical : Option String) (inserted : Bool) :
    let run := canonicalRun naming identity canonical
    (s.runs.find? run.workflowRunId = none ∧
      (ensureRun naming s identity canonical .started inserted).2 =
        { s with runs := s.runs.put (startedRow run) }) ∨
    ((s.runs.find? run.workflowRunId).isSome = true ∧
      ensureRun naming s identity canonical .started inserted = (none, s)) := by
  dsimp only
  rw [ensureRun, Store.startWorkflowRun]
  rcases hfind : s.runs.find? (canonicalRun naming identity canonical).workflowRunId with _ | row
  · exact Or.inl ⟨rfl, rfl⟩
  · refine Or.inr ⟨rfl, ?_⟩
    dsimp only
    rw [guard_started, if_neg Bool.false_ne_true]

/-- The five fields decide the id of a run. -/
theorem deriveWorkflowRunId_hashed {identity : Identity} (hunnamed : identity.workflowRunId = "")
    {binding : DeploymentBinding} (hbinding : identity.bindingId = binding.bindingId)
    (henvironment : identity.environment = binding.environment) :
    deriveWorkflowRunId naming.hashed identity =
      bindingRunId naming identity.workspaceId identity.applicationId binding
        identity.commitSha := by
  rw [bindingRunId, deriveWorkflowRunId, deriveWorkflowRunId, if_neg (not_not.mpr hunnamed),
    if_neg (not_not.mpr rfl), Naming.hashed]
  dsimp only
  rw [hbinding, henvironment]

theorem canonicalRun_webhook (hunnamed : body.workflowRunId = "") {binding : DeploymentBinding}
    (hbinding : body.bindingId = binding.bindingId)
    (henvironment : body.environment = binding.environment) (applicationId : String) :
    let run := canonicalRun naming.hashed (normalizeGitopsIdentity naming.hashed body).identity
      (some applicationId)
    run.workspaceId = body.workspaceId ∧ run.applicationId = applicationId ∧
      run.bindingId = binding.bindingId ∧ run.commitSha = body.commitSha ∧
      run.workflowRunId =
        bindingRunId naming body.workspaceId applicationId binding body.commitSha := by
  have hnamed : (normalizeGitopsIdentity naming.hashed body).Named :=
    scopedPayload_named naming.hashed "" body
  have hid : (normalizeGitopsIdentity naming.hashed body).bindingId = binding.bindingId :=
    (orDefault_of_ne (hbinding ▸ binding.hasId) _).trans hbinding
  generalize hrun : (normalizeGitopsIdentity naming.hashed body).identity = run
  have hfields : run.workspaceId = body.workspaceId ∧ run.bindingId = binding.bindingId ∧
      run.environment = binding.environment ∧ run.commitSha = body.commitSha := by
    rw [← hrun]
    exact ⟨rfl, hid, henvironment, rfl⟩
  obtain ⟨hworkspace, hrunBinding, hrunEnvironment, hcommit⟩ := hfields
  have hsame : normalizePayload naming.hashed run = run := by
    rw [← hrun, normalizePayload, deriveWorkflowRunId]
    exact congrArg (fun r => { (normalizeGitopsIdentity naming.hashed body).identity with
      workflowRunId := r }) (if_pos hnamed.run)
  rw [canonicalRun, hsame]
  by_cases happlication : applicationId ≠ run.applicationId
  · dsimp only
    rw [if_pos happlication]
    refine ⟨hworkspace, rfl, hrunBinding, hcommit, ?_⟩
    have hderived := @deriveWorkflowRunId_hashed naming
      { run with applicationId := applicationId, workflowRunId := "" } rfl binding hrunBinding
      hrunEnvironment
    dsimp only at hderived ⊢
    rw [hderived, hworkspace, hcommit]
  · dsimp only
    rw [if_neg happlication]
    refine ⟨hworkspace, (not_not.mp happlication).symm, hrunBinding, hcommit, ?_⟩
    -- the id that the payload itself derived
    have hown : run.workflowRunId = deriveWorkflowRunId naming.hashed
        { run with workflowRunId := body.workflowRunId } := by
      rw [← hrun]
      rfl
    have hderived := @deriveWorkflowRunId_hashed naming
      { run with workflowRunId := body.workflowRunId } hunnamed binding hrunBinding hrunEnvironment
    rw [hown, hderived]
    dsimp only
    rw [hworkspace, hcommit, not_not.mp happlication]

/-! ## One repository -/

/-- What names the application of the runs that are opened for a repository. -/
def GitRepository.applicationKey (repository : GitRepository) : String × String × String :=
  (repository.workspaceId, repository.repositoryId, repository.repoRef.name)

/-- An entry webhook for a binding of the repository. -/
structure EntersIn (repository : GitRepository) (commitSha : String)
    (body : GitWebhookReceivedBody) : Prop where
  workspace : body.workspaceId = repository.workspaceId
  inRepository : body.repositoryId = repository.repositoryId
  repoRef : body.repoRef = repository.repoRef.text
  commit : body.commitSha = commitSha
  unnamed : body.workflowRunId = ""
  binding : ∃ binding ∈ g.bindings.rows, binding.repositoryId = repository.repositoryId ∧
    body.bindingId = binding.bindingId ∧ body.environment = binding.environment

/-- A run of a binding of the repository, under the application that has its name. -/
structure OpenedIn (repository : GitRepository) (commitSha : String)
    (applications : Applications) (run : Identity) : Prop where
  workspace : run.workspaceId = repository.workspaceId
  application : ∃ row, applications.byAlt.find? repository.applicationKey = some row ∧
    row.applicationId = run.applicationId
  commit : run.commitSha = commitSha
  binding : ∃ binding ∈ g.bindings.rows, binding.repositoryId = repository.repositoryId ∧
    run.bindingId = binding.bindingId ∧
    run.workflowRunId =
      bindingRunId naming repository.workspaceId run.applicationId binding commitSha

variable {g} {repository : GitRepository} {commitSha : String}

theorem entersIn_entryWebhook {binding : DeploymentBinding} (hbinding : binding ∈ g.bindings.rows)
    (hrepository : binding.repositoryId = repository.repositoryId)
    (applicationId image : String) (replicas : ℕ) (branch : String) :
    EntersIn g repository commitSha
      (entryWebhookForBinding repository.workspaceId applicationId binding commitSha image replicas
        repository.repoRef.text branch) where
  workspace := rfl
  inRepository := hrepository
  repoRef := rfl
  commit := rfl
  unnamed := rfl
  binding := ⟨binding, hbinding, hrepository, rfl, rfl⟩

theorem entersIn_bodyForPollTarget {target : PollTarget} (h : target ∈ g.activeGithubPollTargets)
    (henvironment : target.binding.environment ≠ "") (image : String) (replicas : ℕ)
    (force : Bool) :
    target.repository ∈ g.repositories.rows ∧
      EntersIn g target.repository commitSha
        (bodyForPollTarget target commitSha image replicas force) := by
  have hrows := targetRows_of_mem h
  rw [Registry.activeGithubPollTargets, List.mem_filter] at h
  have hlisted := h.1
  rw [Registry.listActiveGithubPollTargets, List.mem_filter] at hlisted
  obtain ⟨binding, hbinding, hjoined⟩ := List.mem_flatMap.mp hlisted.1
  obtain ⟨repository, hrepository, hjoined⟩ := List.mem_flatMap.mp hjoined
  obtain ⟨application, -, rfl⟩ := List.mem_map.mp hjoined
  rw [List.mem_filter] at hrepository
  simp only [Bool.and_eq_true, decide_eq_true_iff] at hrepository
  refine ⟨hrepository.1, ?_, rfl, rfl, rfl, rfl, binding, hbinding, hrepository.2.2.symm, rfl, ?_⟩
  · exact (orDefault_of_ne hrows.workspace _).trans hrepository.2.1.symm
  · exact orDefault_of_ne henvironment _

theorem entersIn_fanout {s : Store} {emitted : GitWebhookReceivedBody}
    (h : EntersIn g repository commitSha body)
    (hemitted : emitted ∈ fanoutGlobalBindings naming g isManagement s body) :
    EntersIn g repository commitSha emitted := by
  obtain ⟨source, hsource, hin, hbinding, -⟩ := h.binding
  -- the repository of the fan-out is that of the binding, or the one of the webhook
  have hrepository : orDefault (((g.getDeploymentBinding body.workspaceId body.bindingId).map
      DeploymentBinding.repositoryId).getD "") body.repositoryId = repository.repositoryId := by
    rw [Registry.getDeploymentBinding, hbinding, Table.find?_of_mem hsource, Option.filter_some]
    split
    · have hid : source.repositoryId ≠ "" := hin ▸ repository.hasId
      exact (orDefault_of_ne hid _).trans hin
    · exact (if_neg fun hne => hne rfl).trans h.inRepository
  rw [fanoutGlobalBindings] at hemitted
  dsimp only at hemitted
  rw [hrepository] at hemitted
  split at hemitted
  · cases hemitted
  · obtain ⟨binding, htarget, rfl⟩ := List.mem_map.mp hemitted
    have hlisted := List.mem_of_mem_filter htarget
    rw [Registry.listRepositoryDeploymentBindings, List.mem_filter] at hlisted
    simp only [Bool.and_eq_true, decide_eq_true_iff] at hlisted
    rw [h.workspace, h.commit, h.repoRef]
    exact entersIn_entryWebhook hlisted.1 hlisted.2.1.2 _ _ _ _

theorem length_fanout_le (s : Store) (body : GitWebhookReceivedBody) :
    (fanoutGlobalBindings naming g isManagement s body).length ≤ g.bindings.rows.length := by
  rw [fanoutGlobalBindings]
  dsimp only
  split
  · exact Nat.zero_le _
  · rw [List.length_map]
    exact (List.length_filter_le _ _).trans (List.length_filter_le _ _)

theorem entersIn_promote {s : Store} {run : Identity}
    (hrepository : repository ∈ g.repositories.rows)
    (h : OpenedIn naming g repository commitSha applications run)
    (hstored : s.runs.find? run.workflowRunId = some row) (hrow : row.identity = run)
    (hstays : (g.promotion run).all fun promotion =>
      promotion.2.repositoryId = promotion.1.repositoryId) {image : String} {replicas : ℕ}
    {emitted : GitWebhookReceivedBody}
    (hemitted : emitted ∈ onRunCompletedPromote naming g applications s run image replicas) :
    EntersIn g repository commitSha emitted := by
  obtain ⟨source, hsource, hin, hbinding, -⟩ := h.binding
  obtain ⟨application, happlication, hid⟩ := h.application
  -- the target of the promotion is registered in the repository
  have htarget : ∀ promoted target, g.promotion run = some (promoted, target) →
      target ∈ g.bindings.rows ∧ target.repositoryId = repository.repositoryId := by
    intro promoted target hpromotion
    rw [hpromotion, Option.all_some, decide_eq_true_iff] at hstays
    rw [Registry.promotion] at hpromotion
    obtain ⟨binding, hfound, hpromotion⟩ := Option.bind_eq_some_iff.mp hpromotion
    dsimp only at hpromotion
    split at hpromotion
    · cases hpromotion
    · obtain ⟨_, htarget, hpair⟩ := Option.map_eq_some_iff.mp hpromotion
      obtain ⟨rfl, rfl⟩ := Prod.mk.inj hpair
      rw [Registry.getDeploymentBinding, Option.filter_eq_some_iff] at hfound htarget
      rw [hbinding, Table.find?_of_mem hsource] at hfound
      obtain rfl := Option.some.inj hfound.1
      exact ⟨Table.mem_of_find? htarget.1, hstays.trans hin⟩
  have hcommit : ((s.runs.find? run.workflowRunId).map WorkflowRun.commitSha).getD "" =
      commitSha := by
    rw [hstored]
    exact (congrArg Identity.commitSha hrow).trans h.commit
  have hjoined : g.applicationRepository applications run.workspaceId run.applicationId =
      some repository := by
    have hfound := UniqueTable.find?_of_byAlt happlication
    have hkey := Table.key_of_find? happlication
    obtain ⟨hworkspace, hrest⟩ := Prod.mk.inj hkey
    obtain ⟨hof, -⟩ := Prod.mk.inj hrest
    rw [Registry.applicationRepository, ← hid, hfound, Option.filter_some, if_pos, Option.bind_some,
      hof, Table.find?_of_mem hrepository, Option.filter_some, if_pos]
    · rw [h.workspace]
      exact decide_eq_true rfl
    · rw [h.workspace]
      exact decide_eq_true hworkspace
  rw [onRunCompletedPromote] at hemitted
  rcases hpromotion : g.promotion run with _ | ⟨promoted, target⟩
  · rw [hpromotion] at hemitted
    cases hemitted
  · obtain ⟨hregistered, htargetIn⟩ := htarget promoted target hpromotion
    rw [hpromotion, hcommit, hjoined] at hemitted
    dsimp only at hemitted
    split at hemitted
    · cases hemitted
    · split at hemitted
      · cases hemitted
      · rw [List.mem_singleton.mp hemitted, h.workspace]
        exact entersIn_entryWebhook hregistered htargetIn _ _ _ _

theorem length_promote_le (applications : Applications) (s : Store) (run : Identity)
    (image : String) (replicas : ℕ) :
    (onRunCompletedPromote naming g applications s run image replicas).length ≤ 1 := by
  rw [onRunCompletedPromote]
  rcases g.promotion run with _ | ⟨promoted, target⟩
  · exact Nat.zero_le _
  · dsimp only
    split
    · exact Nat.zero_le _
    · rcases g.applicationRepository applications run.workspaceId run.applicationId with _ | _
      · exact Nat.zero_le _
      · dsimp only
        split
        · exact Nat.zero_le _
        · exact le_refl 1

/-! ## What a webhook opens -/

/-- The applications before and after agree about the application of the repository. -/
def KeepsApplication (repository : GitRepository) (applications applications' : Applications) :
    Prop :=
  ∀ row, applications.byAlt.find? repository.applicationKey = some row →
    ∃ row', applications'.byAlt.find? repository.applicationKey = some row' ∧
      row'.applicationId = row.applicationId

variable {naming}

theorem OpenedIn.mono {applications' : Applications} {run : Identity}
    (hkeeps : KeepsApplication repository applications applications')
    (h : OpenedIn naming g repository commitSha applications run) :
    OpenedIn naming g repository commitSha applications' run := by
  obtain ⟨row, hrow, hid⟩ := h.application
  obtain ⟨row', hrow', hsame⟩ := hkeeps row hrow
  exact ⟨h.workspace, ⟨row', hrow', hsame.trans hid⟩, h.commit, h.binding⟩

theorem OpenedIn.workflowRunId_eq {run run' : Identity}
    (h : OpenedIn naming g repository commitSha applications run)
    (h' : OpenedIn naming g repository commitSha applications run')
    (hsame : run.bindingId = run'.bindingId) : run.workflowRunId = run'.workflowRunId := by
  obtain ⟨row, hrow, hid⟩ := h.application
  obtain ⟨row', hrow', hid'⟩ := h'.application
  obtain ⟨binding, hmem, -, hbinding, hrun⟩ := h.binding
  obtain ⟨binding', hmem', -, hbinding', hrun'⟩ := h'.binding
  obtain rfl := Option.some.inj (hrow.symm.trans hrow')
  have hrows : binding = binding' := by
    have hfound := Table.find?_of_mem hmem
    have hfound' := Table.find?_of_mem hmem'
    rw [← hbinding, hsame, hbinding', hfound'] at hfound
    exact (Option.some.inj hfound).symm
  rw [hrun, hrun', ← hid, ← hid', hrows]

theorem ensureWebhookRun_entersIn (h : EntersIn g repository commitSha body)
    {applications' : Applications} {s s' : Store} {inserted : Bool} {run : Option Identity}
    (hok : ensureWebhookRun naming.hashed applications s body .started inserted =
      .ok (run, applications', s')) :
    ∃ opened, OpenedIn naming g repository commitSha applications' opened ∧
      KeepsApplication repository applications applications' ∧
      ((s.runs.find? opened.workflowRunId = none ∧
          s' = { s with runs := s.runs.put (startedRow opened) }) ∨
        ((s.runs.find? opened.workflowRunId).isSome = true ∧ run = none ∧ s' = s)) := by
  obtain ⟨binding, hmem, hin, hbinding, henvironment⟩ := h.binding
  have hnamed : (normalizeGitopsIdentity naming.hashed body).Named :=
    scopedPayload_named naming.hashed "" body
  -- the application is looked up under the name of the repository
  have hname : applicationNameFor (normalizeGitopsIdentity naming.hashed body) =
      repository.repoRef.name := by
    have hhint : applicationNameHint (normalizeGitopsIdentity naming.hashed body) =
        repository.repoRef.name := applicationNameHint_of_text h.repoRef
    rw [applicationNameFor, hhint]
    exact orDefault_of_ne repository.repoRef.hasName _
  have hrepository : (normalizeGitopsIdentity naming.hashed body).repositoryId =
      repository.repositoryId := by
    have hid : body.repositoryId ≠ "" := h.inRepository ▸ repository.hasId
    exact (orDefault_of_ne hid _).trans h.inRepository
  have hkey : ((normalizeGitopsIdentity naming.hashed body).workspaceId,
      (normalizeGitopsIdentity naming.hashed body).repositoryId,
      applicationNameFor (normalizeGitopsIdentity naming.hashed body)) =
        repository.applicationKey := by
    rw [hrepository, hname, GitRepository.applicationKey, ← h.workspace]
    rfl
  rw [ensureWebhookRun_eq] at hok
  dsimp only at hok
  rcases hupserted : upsertApplication naming.hashed applications
    (applicationNameFor (normalizeGitopsIdentity naming.hashed body))
    (normalizeGitopsIdentity naming.hashed body) with detail | ⟨applicationId, upserted⟩
  · rw [hupserted] at hok
    cases hok
  · rw [hupserted] at hok
    obtain ⟨⟨row, hrow, hid⟩, hbefore⟩ := byAlt_upsertApplication naming.hashed hnamed hupserted
    rw [hkey] at hrow hbefore
    obtain ⟨hworkspace, happlication, hrunBinding, hcommit, hrunId⟩ :=
      canonicalRun_webhook naming h.unnamed hbinding henvironment applicationId
    have hstarted := ensureRun_started naming.hashed s
      (normalizeGitopsIdentity naming.hashed body).identity (some applicationId) inserted
    obtain ⟨hrun, hrest⟩ := Prod.mk.inj (Except.ok.inj hok)
    obtain ⟨happlications, hstore⟩ := Prod.mk.inj hrest
    dsimp only at hrun happlications hstore hstarted
    rw [h.workspace] at hworkspace hrunId
    rw [h.commit] at hcommit hrunId
    rw [← happlications]
    refine ⟨_, ⟨hworkspace, ⟨row, hrow, hid.trans happlication.symm⟩, hcommit,
      binding, hmem, hin, hrunBinding, hrunId.trans (by rw [happlication])⟩,
      fun row' hrow' => ⟨row, hrow, hid.trans (hbefore row' hrow').symm⟩, ?_⟩
    rcases hstarted with ⟨hfree, hput⟩ | ⟨hthere, hnone⟩
    · exact Or.inl ⟨hfree, hstore.symm.trans hput⟩
    · rw [hnone] at hrun hstore
      exact Or.inr ⟨hthere, hrun.symm, hstore.symm⟩

/-! ## The invariant -/

/-- The run is still to succeed. -/
def Store.running (s : Store) (run : Identity) : Bool :=
  (s.runs.find? run.workflowRunId).any fun row => !row.status.isTerminal

variable (naming g) in
/-- The cascade of a commit in one repository. Each run that is opened pays for the webhooks of
its fan-out and for the one of its promotion, which is due as long as it runs or waits for its
handler. -/
structure Confined (repository : GitRepository) (commitSha : String) (s : CascadeSystem) :
    Prop where
  webhooks : ∀ body ∈ s.webhooks, EntersIn g repository commitSha body
  opened : ∀ run ∈ s.opened, OpenedIn naming g repository commitSha s.applications run
  stored : ∀ run ∈ s.opened, ∃ row, s.store.runs.find? run.workflowRunId = some row ∧
    row.identity = run
  completed : ∀ run ∈ s.completed, run ∈ s.opened
  once : (s.opened.map Identity.bindingId).Nodup
  budget : s.emitted + (s.completed.length + s.opened.countP s.store.running) ≤
    s.opened.length * (g.bindings.rows.length + 1)

theorem confined_start {store : Store} {webhook : GitWebhookReceivedBody}
    (h : EntersIn g repository commitSha webhook) :
    Confined naming g repository commitSha (.start applications store webhook) where
  webhooks := fun _ hbody => List.mem_singleton.mp hbody ▸ h
  opened := fun _ hrun => absurd hrun List.not_mem_nil
  stored := fun _ hrun => absurd hrun List.not_mem_nil
  completed := fun _ hrun => absurd hrun List.not_mem_nil
  once := List.nodup_nil
  budget := Nat.zero_le _

/-- A run for each binding, and a number of webhooks that the bindings bound. -/
theorem Confined.opensOnce (h : Confined naming g repository commitSha s) :
    OpensOnce g s := by
  refine ⟨h.once, ?_⟩
  have hsub : s.opened.map Identity.bindingId ⊆
      g.bindings.rows.map DeploymentBinding.bindingId := by
    intro bindingId hmem
    obtain ⟨run, hrun, rfl⟩ := List.mem_map.mp hmem
    obtain ⟨binding, hbinding, -, hid, -⟩ := (h.opened run hrun).binding
    exact List.mem_map.mpr ⟨binding, hbinding, hid.symm⟩
  have hlength : s.opened.length ≤ g.bindings.rows.length := by
    have hle := (List.Nodup.subperm h.once hsub).length_le
    rwa [List.length_map, List.length_map] at hle
  calc s.emitted ≤ s.opened.length * (g.bindings.rows.length + 1) :=
        (Nat.le_add_right _ _).trans h.budget
    _ ≤ g.bindings.rows.length * (g.bindings.rows.length + 1) := Nat.mul_le_mul_right _ hlength

/-! ### A webhook is handled -/

variable {isManagement}

theorem Confined.absorb (h : Confined naming g repository commitSha s)
    (hkeeps : KeepsApplication repository s.applications applications)
    (body : GitWebhookReceivedBody) :
    Confined naming g repository commitSha
      { s with applications := applications, webhooks := s.webhooks.erase body } where
  webhooks := fun other hother => h.webhooks other (List.mem_of_mem_erase hother)
  opened := fun run hrun => (h.opened run hrun).mono hkeeps
  stored := h.stored
  completed := h.completed
  once := h.once
  budget := h.budget

theorem Confined.opening (h : Confined naming g repository commitSha s)
    (hkeeps : KeepsApplication repository s.applications applications) {opened : Identity}
    (hopened : OpenedIn naming g repository commitSha applications opened)
    (hfree : s.store.runs.find? opened.workflowRunId = none) (body : GitWebhookReceivedBody)
    {emitted : List GitWebhookReceivedBody}
    (hemitted : ∀ other ∈ emitted, EntersIn g repository commitSha other)
    (hlength : emitted.length ≤ g.bindings.rows.length) :
    Confined naming g repository commitSha
      { applications := applications
        store := { s.store with runs := s.store.runs.put (startedRow opened) }
        webhooks := s.webhooks.erase body ++ emitted
        completed := s.completed
        opened := s.opened ++ [opened]
        emitted := s.emitted + emitted.length } := by
  have hfind : ∀ r, (s.store.runs.put (startedRow opened)).find? r =
      if r = opened.workflowRunId then some (startedRow opened) else s.store.runs.find? r :=
    s.store.runs.find?_put (startedRow opened)
  -- the runs that are open have other ids
  have hother : ∀ run ∈ s.opened, run.workflowRunId ≠ opened.workflowRunId := by
    intro run hrun hsame
    obtain ⟨row, hrow, -⟩ := h.stored run hrun
    rw [hsame, hfree] at hrow
    cases hrow
  have hrunning : s.opened.countP
      (Store.running { s.store with runs := s.store.runs.put (startedRow opened) }) =
        s.opened.countP s.store.running := by
    refine List.countP_congr fun run hrun => ?_
    rw [Store.running, Store.running, hfind, if_neg (hother run hrun)]
  constructor
  · intro other hmem
    rcases List.mem_append.mp hmem with hmem | hmem
    · exact h.webhooks other (List.mem_of_mem_erase hmem)
    · exact hemitted other hmem
  · intro run hrun
    rcases List.mem_append.mp hrun with hrun | hrun
    · exact (h.opened run hrun).mono hkeeps
    · rw [List.mem_singleton.mp hrun]
      exact hopened
  · intro run hrun
    dsimp only
    rw [hfind]
    rcases List.mem_append.mp hrun with hrun | hrun
    · rw [if_neg (hother run hrun)]
      exact h.stored run hrun
    · rw [List.mem_singleton.mp hrun, if_pos rfl]
      exact ⟨_, rfl, rfl⟩
  · intro run hrun
    exact List.mem_append_left _ (h.completed run hrun)
  · -- a second run of the binding would have the id of the first
    rw [List.map_append, List.nodup_append]
    refine ⟨h.once, List.nodup_singleton _, ?_⟩
    intro bindingId hmem bindingId' hmem' hsame
    obtain ⟨run, hrun, rfl⟩ := List.mem_map.mp hmem
    obtain rfl := List.mem_singleton.mp hmem'
    exact hother run hrun (((h.opened run hrun).mono hkeeps).workflowRunId_eq hopened hsame)
  · have hbudget := h.budget
    have hnew : [opened].countP
        (Store.running { s.store with runs := s.store.runs.put (startedRow opened) }) ≤ 1 :=
      List.countP_le_length
    dsimp only at hnew ⊢
    rw [List.countP_append, hrunning, List.length_append, List.length_singleton, Nat.add_mul,
      Nat.one_mul]
    omega

theorem Confined.webhook (h : Confined naming g repository commitSha s)
    (body : GitWebhookReceivedBody) (inserted : Bool) :
    Confined naming g repository commitSha (s.step naming g isManagement (.webhook body inserted))
    := by
  rw [CascadeSystem.step]
  split
  · rename_i hdue
    have henters := h.webhooks body hdue
    split
    · exact h
    · rename_i run applications store hok
      obtain ⟨opened, hopened, hkeeps, hstore⟩ := ensureWebhookRun_entersIn henters hok
      rcases hstore with ⟨hfree, rfl⟩ | ⟨-, rfl, rfl⟩
      · rw [createdRuns_put hfree]
        refine h.opening hkeeps hopened hfree body (fun other hother => ?_) ?_
        · split at hother
          · exact entersIn_fanout naming isManagement henters hother
          · cases hother
        · split
          · exact length_fanout_le naming isManagement _ body
          · exact Nat.zero_le _
      · rw [createdRuns_self]
        simpa using h.absorb hkeeps body
  · exact h

/-! ### A run succeeds -/

theorem transitionRun_succeeded (naming : Naming) {s : Store}
    (hfound : s.runs.find? row.workflowRunId = some row) (hnamed : row.workflowRunId ≠ "") :
    transitionRun naming s row.identity .succeeded none true = (none, s) ∨
    (row.status.isTerminal = false ∧
      transitionRun naming s row.identity .succeeded none true =
        (some row.identity, { s with
          runs := s.runs.modify row.workflowRunId
            (fun row => { row with status := .succeeded, commandId := none.getD row.commandId })
            fun _ => rfl })) := by
  have hsame : normalizePayload naming row.identity = row.identity := by
    rw [normalizePayload, deriveWorkflowRunId]
    exact congrArg (fun r => { row.identity with workflowRunId := r }) (if_pos hnamed)
  have hid : row.identity.workflowRunId = row.workflowRunId := rfl
  rw [transitionRun, hsame, Store.updateWorkflowRun, hid, hfound]
  dsimp only
  rcases hguard : workflowTransitionGuard row.status .succeeded with _ | _
  · exact Or.inl rfl
  · exact Or.inr ⟨not_isTerminal_of_guard hguard, rfl⟩

theorem countP_add_one_le {l : List Identity} {p q : Identity → Bool} {run : Identity}
    (hrun : run ∈ l) (hp : p run = false) (hq : q run = true)
    (h : ∀ other ∈ l, p other = true → q other = true) : l.countP p + 1 ≤ l.countP q := by
  obtain ⟨before, after, rfl⟩ := List.mem_iff_append.mp hrun
  have hbefore : before.countP p ≤ before.countP q :=
    List.countP_mono_left fun other hother => h other (List.mem_append_left _ hother)
  have hafter : after.countP p ≤ after.countP q :=
    List.countP_mono_left fun other hother =>
      h other (List.mem_append_right _ (List.mem_cons_of_mem _ hother))
  rw [List.countP_append, List.countP_append, List.countP_cons_of_pos hq,
    List.countP_cons_of_neg (by rw [hp]; exact Bool.false_ne_true)]
  omega

theorem Confined.succeeding {run : Identity} (h : Confined naming g repository commitSha s)
    (hrun : run ∈ s.opened)
    (hrow : s.store.runs.find? run.workflowRunId = some row) (hlive : row.status.isTerminal = false)
    {store : Store} (hfind : ∀ r, store.runs.find? r =
      if r = run.workflowRunId then some { row with status := .succeeded }
      else s.store.runs.find? r) :
    Confined naming g repository commitSha
      { s with store := store, completed := s.completed ++ [run] } := by
  have hcount : s.opened.countP store.running + 1 ≤ s.opened.countP s.store.running := by
    refine countP_add_one_le hrun ?_ ?_ fun other _ hrunning => ?_
    · rw [Store.running, hfind, if_pos rfl]
      rfl
    · rw [Store.running, hrow, Option.any_some, hlive]
      rfl
    · rw [Store.running, hfind] at hrunning
      split at hrunning
      · cases hrunning
      · exact hrunning
  refine ⟨h.webhooks, h.opened, fun other hother => ?_, fun other hother => ?_, h.once, ?_⟩
  · obtain ⟨stored, hstored, hsame⟩ := h.stored other hother
    dsimp only
    rw [hfind]
    split
    · rename_i hthis
      rw [hthis, hrow] at hstored
      obtain rfl := Option.some.inj hstored
      exact ⟨_, rfl, hsame⟩
    · exact ⟨stored, hstored, hsame⟩
  · rcases List.mem_append.mp hother with hother | hother
    · exact h.completed other hother
    · rw [List.mem_singleton.mp hother]
      exact hrun
  · have hbudget := h.budget
    dsimp only
    rw [List.length_append, List.length_singleton]
    omega

theorem Confined.succeed (h : Confined naming g repository commitSha s) (workflowRunId : String) :
    Confined naming g repository commitSha
      (s.step naming g isManagement (.succeed workflowRunId)) := by
  rw [CascadeSystem.step]
  split
  · rename_i hopened
    obtain ⟨run, hrun, rfl⟩ := List.mem_map.mp hopened
    obtain ⟨row, hrow, hidentity⟩ := h.stored run hrun
    have hid : row.workflowRunId = run.workflowRunId := congrArg Identity.workflowRunId hidentity
    have hnamed : row.workflowRunId ≠ "" := by
      obtain ⟨binding, -, -, -, hderived⟩ := (h.opened run hrun).binding
      rw [hid, hderived, bindingRunId, deriveWorkflowRunId, if_neg (not_not.mpr rfl)]
      exact append_digest_ne_empty (by decide) _
    have hfound : s.store.runs.find? row.workflowRunId = some row := by rw [hid, hrow]
    rw [hrow]
    dsimp only
    rcases transitionRun_succeeded naming.hashed hfound hnamed with hkept | ⟨hlive, hmoved⟩
    · rw [hkept]
      simpa using h
    · rw [hmoved, hidentity]
      refine h.succeeding hrun hrow hlive fun r => ?_
      dsimp only
      rw [Table.find?_modify, ← hid]
      by_cases hr : r = row.workflowRunId
      · rw [if_pos hr, if_pos hr, hr, hfound]
        rfl
      · rw [if_neg hr, if_neg hr]
  · exact h

/-! ### A run is promoted -/

theorem Confined.promote (h : Confined naming g repository commitSha s)
    (hrepository : repository ∈ g.repositories.rows) (evt : Identity) (image : String)
    (replicas : ℕ) (hstays : staysInRepository g s (.promote evt image replicas) = true) :
    Confined naming g repository commitSha
      (s.step naming g isManagement (.promote evt image replicas)) := by
  rw [CascadeSystem.step]
  split
  · rename_i hdue
    have hopened := h.completed evt hdue
    obtain ⟨row, hrow, hidentity⟩ := h.stored evt hopened
    refine ⟨fun body hbody => ?_, h.opened, h.stored, fun run hrun => ?_, h.once, ?_⟩
    · rcases List.mem_append.mp hbody with hbody | hbody
      · exact h.webhooks body hbody
      · exact entersIn_promote naming hrepository (h.opened evt hopened) hrow hidentity hstays hbody
    · exact h.completed run (List.mem_of_mem_erase hrun)
    · have hbudget := h.budget
      have hlength := length_promote_le naming (g := g) s.applications s.store evt image replicas
      have herased := List.length_erase_of_mem hdue
      have hdue := List.length_pos_of_mem hdue
      dsimp only
      omega
  · exact h

/-! ## Main result -/

/-- A webhook for a poll target whose binding has an environment, with promotions that stay in
their repository: however the transactions interleave, each binding gets at most one run. -/
theorem opensOnce_of_staysInRepository (naming : Naming) (g : Registry)
    (isManagement : String → Bool) {target : PollTarget} (h : target ∈ g.activeGithubPollTargets)
    (henvironment : target.binding.environment ≠ "") (store : Store) (commitSha image : String)
    (replicas : ℕ) (force : Bool) (actions : List CascadeAction)
    (hstays : Meets (CascadeSystem.step naming g isManagement)
      (fun s action => staysInRepository g s action = true)
      (.start g.applications store (bodyForPollTarget target commitSha image replicas force))
      actions) :
    OpensOnce g (run (CascadeSystem.step naming g isManagement)
      (.start g.applications store (bodyForPollTarget target commitSha image replicas force))
      actions) := by
  obtain ⟨hrepository, henters⟩ :=
    @entersIn_bodyForPollTarget g commitSha target h henvironment image replicas force
  have hconfined : Confined naming g target.repository commitSha
      (run (CascadeSystem.step naming g isManagement)
        (.start g.applications store (bodyForPollTarget target commitSha image replicas force))
        actions) := by
    refine run_invariant_of_meets (fun s action hs hok => ?_) (confined_start henters) hstays
    cases action with
    | webhook body inserted => exact hs.webhook body inserted
    | succeed workflowRunId => exact hs.succeed workflowRunId
    | promote evt image replicas => exact hs.promote hrepository evt image replicas hok
  exact hconfined.opensOnce

/-! ## Cycles of promotions -/

/-- A binding `shop` that promotes to another one. -/
def cycleBinding (repositoryId environment promotesTo : String) : DeploymentBinding where
  bindingId := "binding-" ++ environment
  workspaceId := "ws"
  repositoryId := repositoryId
  watchTargetId := none
  clusterId := "c1"
  appName := "shop"
  manifestPath := "deploy.yaml"
  environment := environment
  status := .active
  deployPolicy := ⟨none, none, "binding-" ++ promotesTo, false⟩
  hasId := bindingId_ne_empty environment

/-- The repository `acme/infra`. -/
def infraRepository : GitRepository where
  repositoryId := "repo-infra"
  workspaceId := "ws"
  repoRef := ⟨"acme", "infra", by decide, by decide⟩
  defaultBranch := "main"
  status := .active
  hasId := by decide

/-- Its application `shop`. -/
def infraApplication : Application where
  applicationId := "app-infra"
  workspaceId := "ws"
  repositoryId := "repo-infra"
  name := "shop"
  manifestPath := "deploy.yaml"
  status := .active
  sourceType := none
  hasId := by decide

/-- `staging` of `acme/shop` and `prod` of the given repository promote to each other. -/
def cycleRegistry (prodRepositoryId : String) : Registry where
  repositories := ⟨[shopRepository, infraRepository], by decide⟩
  applications :=
    ⟨[namedApplication, shopApplication "app-other" "infra" (by decide), infraApplication],
      by decide, by decide⟩
  bindings :=
    ⟨[cycleBinding "repo-shop" "staging" "prod", cycleBinding prodRepositoryId "prod" "staging"],
      by
        change ["binding-" ++ "staging", "binding-" ++ "prod"].Nodup
        decide⟩
  watchTargets := .empty

/-- The poll target of `staging`. -/
def cycleTarget : PollTarget :=
  ⟨cycleBinding "repo-shop" "staging" "prod", shopRepository, namedApplication, none⟩

/-- A webhook opens its run under an application; the run succeeds and is promoted. -/
def webhookRound (body : GitWebhookReceivedBody) (applicationId : String) : List CascadeAction :=
  let run := canonicalRun plainNaming.hashed
    (normalizeGitopsIdentity plainNaming.hashed body).identity (some applicationId)
  [.webhook body true, .succeed run.workflowRunId, .promote run "shop:2" 1]

/-- `staging` is promoted to `prod` and `prod` back to `staging`: the applications of the three
rounds, and the `repo_ref` that the last two webhooks carry. -/
def cycleRounds (prodRepositoryId prodApplicationId backRepoRef backApplicationId : String) :
    List CascadeAction :=
  webhookRound (bodyForPollTarget cycleTarget "abc" "shop:2" 1 false) "app-shop" ++
    webhookRound (entryWebhookForBinding "ws" "app-shop"
      (cycleBinding prodRepositoryId "prod" "staging") "abc" "shop:2" 1 "acme/shop" "main")
      prodApplicationId ++
    webhookRound (entryWebhookForBinding "ws" prodApplicationId
      (cycleBinding "repo-shop" "staging" "prod") "abc" "shop:2" 1 backRepoRef "main")
      backApplicationId

/-- In one repository the cycle ends with a run for each binding. -/
theorem cycle_opensOnce :
    OpensOnce (cycleRegistry "repo-shop")
      (run (CascadeSystem.step plainNaming (cycleRegistry "repo-shop") fun _ => false)
        (.start (cycleRegistry "repo-shop").applications .empty
          (bodyForPollTarget cycleTarget "abc" "shop:2" 1 false))
        (cycleRounds "repo-shop" "app-shop" "acme/shop" "app-shop")) :=
  opensOnce_of_staysInRepository plainNaming (cycleRegistry "repo-shop") (fun _ => false)
    (by decide +kernel) (by decide) .empty "abc" "shop:2" 1 false _
    (List.all_eq_true.mp (by decide +kernel))

/-- **`staging` gets a second run of the commit** when `prod` is in another repository: the
promotion back lands on another application of `acme/shop`, whose id the test does not know. -/
theorem second_run_is_opened :
    ¬ ∀ (naming : Naming) (g : Registry) (isManagement : String → Bool) (target : PollTarget),
      target ∈ g.activeGithubPollTargets →
        ∀ (store : Store) (commitSha image : String) (replicas : ℕ) (force : Bool)
          (actions : List CascadeAction),
          OpensOnce g (run (CascadeSystem.step naming g isManagement)
            (.start g.applications store
              (bodyForPollTarget target commitSha image replicas force)) actions) := by
  intro h
  have hopens := h plainNaming (cycleRegistry "repo-infra") (fun _ => false) cycleTarget
    (by decide +kernel) .empty "abc" "shop:2" 1 false
    (cycleRounds "repo-infra" "app-infra" "acme/infra" "app-other")
  exact absurd hopens.once (by decide +kernel)

end Opsia.Gitops
