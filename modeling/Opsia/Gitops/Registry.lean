import Opsia.Gitops.Controller
import Opsia.Lib.UniqueTable

/-!
# Registered applications and the webhooks for them

The registered repositories, applications, bindings and watch targets, and what a webhook says
about them: `body_for_poll_target` makes one webhook for each active binding, and
`git-pull-worker` and the workflow controller each fill in the ids it leaves out.

`ensure_run` upserts the application before it starts the run. A webhook carries the id of its
application but not its name, so the name is taken from the repository, and the upsert looks for
the name before the id.
-/

namespace Opsia.Gitops

/-! ## Rows -/

/-- A `repo_ref` as `register_repository` stores it: an owner and a name. -/
structure RepoRef : Type where
  owner : String
  name : String
  noSlash : '/' ∉ name.toList
  hasName : name ≠ ""
  deriving DecidableEq

/-- The text of a `repo_ref`. -/
def RepoRef.text (repoRef : RepoRef) : String := repoRef.owner ++ "/" ++ repoRef.name

inductive RepositoryStatus : Type where
  | active
  | invalidCredential
  | disabled
  | sourceUnreachable
  | disconnected
  deriving DecidableEq, Repr

inductive ApplicationStatus : Type where
  | active
  | paused
  | archived
  deriving DecidableEq, Repr

inductive DeploymentBindingStatus : Type where
  | active
  | paused
  | invalidConfig
  deriving DecidableEq, Repr

inductive WatchTargetStatus : Type where
  | active
  | paused
  deriving DecidableEq, Repr

/-- A row of `git_repositories`. -/
structure GitRepository : Type where
  repositoryId : String
  workspaceId : String
  repoRef : RepoRef
  defaultBranch : String
  status : RepositoryStatus
  /-- ids are derived, never empty -/
  hasId : repositoryId ≠ ""
  deriving DecidableEq

/-- A row of `applications`. -/
structure Application : Type where
  applicationId : String
  workspaceId : String
  repositoryId : String
  name : String
  manifestPath : String
  status : ApplicationStatus
  /-- `metadata.source_type` -/
  sourceType : Option String
  hasId : applicationId ≠ ""
  deriving DecidableEq

/-- The identity that `upsert_application` merges by. -/
def Application.identity (application : Application) : String × String × String :=
  (application.workspaceId, application.repositoryId, application.name)

/-- `deploy_policy` of a binding. -/
structure DeployPolicy : Type where
  manifestSource : Option String
  sourceType : Option String
  /-- `promotes_to_binding_id`, empty when there is none -/
  promotesToBindingId : String
  /-- `global` -/
  isGlobal : Bool
  deriving DecidableEq

/-- A row of `deployment_bindings`. -/
structure DeploymentBinding : Type where
  bindingId : String
  workspaceId : String
  repositoryId : String
  watchTargetId : Option String
  clusterId : String
  appName : String
  manifestPath : String
  environment : String
  status : DeploymentBindingStatus
  deployPolicy : DeployPolicy
  hasId : bindingId ≠ ""
  deriving DecidableEq

/-- A row of `git_watch_targets`. -/
structure GitWatchTarget : Type where
  watchTargetId : String
  workspaceId : String
  repositoryId : String
  branch : String
  manifestPath : String
  lastSeenCommitSha : Option String
  status : WatchTargetStatus
  /-- `settings.source_type` -/
  sourceType : Option String
  deriving DecidableEq

/-- The source that a watch target is unique for. -/
def GitWatchTarget.source (watch : GitWatchTarget) : String × String × String × String :=
  (watch.workspaceId, watch.repositoryId, watch.branch, watch.manifestPath)

/-- `applications` with its constraints. -/
abbrev Applications : Type := UniqueTable Application.applicationId Application.identity

/-- `git_watch_targets` with its constraints. -/
abbrev WatchTargets : Type := UniqueTable GitWatchTarget.watchTargetId GitWatchTarget.source

/-- What is registered. -/
structure Registry : Type where
  repositories : Table GitRepository.repositoryId
  applications : Applications
  bindings : Table DeploymentBinding.bindingId
  watchTargets : WatchTargets

/-! ## Webhooks -/

structure GitWebhookReceivedBody : Type where
  commitSha : String
  image : String
  replicas : ℕ
  workspaceId : String
  repositoryId : String
  repoRef : String
  branch : String
  watchTargetId : String
  bindingId : String
  applicationId : String
  workflowRunId : String
  environment : String
  clusterId : String
  manifestPath : String
  sourceType : String
  force : Bool
  deriving DecidableEq, Repr

/-- The fields that identify a workflow run. -/
def GitWebhookReceivedBody.identity (body : GitWebhookReceivedBody) : Identity where
  workflowRunId := body.workflowRunId
  workspaceId := body.workspaceId
  applicationId := body.applicationId
  bindingId := body.bindingId
  environment := body.environment
  clusterId := body.clusterId
  commitSha := body.commitSha

/-- A row of `list_active_github_poll_targets`: the joined rows. -/
structure PollTarget : Type where
  binding : DeploymentBinding
  repository : GitRepository
  application : Application
  /-- the watch target of the binding, or the one of its source -/
  watch : Option GitWatchTarget
  deriving DecidableEq

/-- The joined watch target: by the id in the binding, else by the source. -/
def Registry.watchFor (g : Registry) (binding : DeploymentBinding) (repository : GitRepository) :
    Option GitWatchTarget :=
  -- a watch target of another repository does not count as that of the binding
  let byId := (binding.watchTargetId.bind g.watchTargets.byKey.find?).filter fun watch =>
    watch.workspaceId = binding.workspaceId && watch.repositoryId = binding.repositoryId
  let bySource := g.watchTargets.byAlt.find?
    (binding.workspaceId, binding.repositoryId, repository.defaultBranch, binding.manifestPath)
  byId.or bySource

/-- The columns `branch`, `watch_target_id`, `manifest_path` and `source_type`. -/
def PollTarget.branch (target : PollTarget) : String :=
  (target.watch.map GitWatchTarget.branch).getD target.repository.defaultBranch

def PollTarget.watchTargetId (target : PollTarget) : String :=
  ((target.watch.map GitWatchTarget.watchTargetId).or target.binding.watchTargetId).getD ""

def PollTarget.manifestPath (target : PollTarget) : String :=
  (target.watch.map GitWatchTarget.manifestPath).getD target.binding.manifestPath

def PollTarget.sourceType (target : PollTarget) : String :=
  let policy := target.binding.deployPolicy
  ((((target.watch.bind GitWatchTarget.sourceType).or policy.manifestSource).or
    policy.sourceType).or target.application.sourceType).getD ""

/-- The conditions on the statuses. -/
def PollTarget.isActive (target : PollTarget) : Bool :=
  target.repository.status = .active && target.application.status = .active &&
    target.binding.status = .active && target.watch.all fun watch => watch.status = .active

/-- `list_active_github_poll_targets`, whose limit takes a part of the rows. -/
def Registry.listActiveGithubPollTargets (g : Registry) : List PollTarget :=
  let targets := g.bindings.rows.flatMap fun binding =>
    let repositories := g.repositories.rows.filter fun repository =>
      repository.workspaceId = binding.workspaceId &&
        repository.repositoryId = binding.repositoryId
    let applications := g.applications.rows.filter fun application =>
      application.identity = (binding.workspaceId, binding.repositoryId, binding.appName)
    repositories.flatMap fun repository => applications.map fun application =>
      ⟨binding, repository, application, g.watchFor binding repository⟩
  targets.filter PollTarget.isActive

def Registry.activeGithubPollTargets (g : Registry) : List PollTarget :=
  g.listActiveGithubPollTargets.filter fun target =>
    PyText.strip target.binding.workspaceId ≠ "" &&
      PyText.strip target.repository.repoRef.text ≠ "" && PyText.strip target.branch ≠ ""

/-- `value or default`. -/
def orDefault (value default : String) : String := if value ≠ "" then value else default

def bodyForPollTarget (target : PollTarget) (commitSha image : String) (replicas : ℕ)
    (force : Bool) : GitWebhookReceivedBody where
  commitSha := commitSha
  image := image
  replicas := replicas
  workspaceId := orDefault target.binding.workspaceId "default"
  repositoryId := target.repository.repositoryId
  repoRef := target.repository.repoRef.text
  branch := orDefault target.branch "main"
  watchTargetId := target.watchTargetId
  bindingId := target.binding.bindingId
  applicationId := target.application.applicationId
  workflowRunId := ""
  environment := orDefault target.binding.environment "sandbox"
  clusterId := orDefault target.binding.clusterId "default-target-cluster"
  manifestPath := orDefault target.manifestPath "deploy.yaml"
  sourceType := target.sourceType
  force := force

def bindingSourceType (binding : DeploymentBinding) : String :=
  PyText.strip (orDefault (binding.deployPolicy.manifestSource.getD "")
    (binding.deployPolicy.sourceType.getD ""))

/-- `entry_webhook_for_binding`: the webhook of a promotion and of a fan-out. -/
def entryWebhookForBinding (workspaceId applicationId : String) (binding : DeploymentBinding)
    (commitSha image : String) (replicas : ℕ) (repoRef branch : String) :
    GitWebhookReceivedBody where
  commitSha := commitSha
  image := image
  replicas := replicas
  workspaceId := workspaceId
  repositoryId := binding.repositoryId
  repoRef := repoRef
  branch := branch
  watchTargetId := binding.watchTargetId.getD ""
  bindingId := binding.bindingId
  applicationId := applicationId
  workflowRunId := ""
  environment := binding.environment
  clusterId := binding.clusterId
  manifestPath := binding.manifestPath
  sourceType := bindingSourceType binding
  force := false

/-! ## Derived ids -/

variable (naming : Naming)

def deriveRepositoryId (body : GitWebhookReceivedBody) : String :=
  orDefault body.repositoryId
    ("repo-" ++ naming.digest (PyText.join '|' [body.workspaceId, body.repoRef]))

def deriveWatchTargetId (body : GitWebhookReceivedBody) : String :=
  orDefault body.watchTargetId
    ("watch-" ++ naming.digest (PyText.join '|'
      [body.workspaceId, deriveRepositoryId naming body, body.branch, body.manifestPath]))

/-- `derive_deployment_binding_id`; a webhook has no `namespace` and no `app_name`. -/
def deriveDeploymentBindingId (body : GitWebhookReceivedBody) : String :=
  orDefault body.bindingId
    ("binding-" ++ naming.digest (PyText.join '|'
      [body.workspaceId, deriveRepositoryId naming body, body.clusterId, "sandbox", ""]))

/-- `application_name_hint`: the last part of `repo_ref`. -/
def applicationNameHint (body : GitWebhookReceivedBody) : String :=
  if '/' ∈ body.repoRef.toList then PyText.rsplitLast body.repoRef '/' else ""

/-- `derive_application_name`, with the name that the payload carries. -/
def deriveApplicationName (name : String) (body : GitWebhookReceivedBody) : String :=
  orDefault name (applicationNameHint body)

def deriveApplicationId (name : String) (body : GitWebhookReceivedBody) : String :=
  orDefault body.applicationId
    ("app-" ++ naming.digest (PyText.join '|'
      [body.workspaceId, deriveRepositoryId naming body, body.manifestPath,
        deriveApplicationName name body]))

/-- The ids that both workers fill in, in the same order. -/
def scopedPayload (name : String) (body : GitWebhookReceivedBody) : GitWebhookReceivedBody :=
  let body := { body with repositoryId := deriveRepositoryId naming body }
  let body := { body with watchTargetId := deriveWatchTargetId naming body }
  let body := { body with bindingId := deriveDeploymentBindingId naming body }
  let body := { body with applicationId := deriveApplicationId naming name body }
  { body with workflowRunId := deriveWorkflowRunId naming body.identity }

/-- `normalize_gitops_identity` of `git-pull-worker`. -/
def normalizeGitopsIdentity (body : GitWebhookReceivedBody) : GitWebhookReceivedBody :=
  scopedPayload naming "" body

/-- `gitops_payload` of the workflow controller: the payload with the name it guessed. -/
def gitopsPayload (body : GitWebhookReceivedBody) : GitWebhookReceivedBody :=
  scopedPayload naming (applicationNameHint body) body

/-! ## Runs of an application -/

theorem orDefault_ne_empty {value default : String} (h : default ≠ "") :
    orDefault value default ≠ "" := by
  rw [orDefault]
  split
  · assumption
  · exact h

theorem orDefault_of_ne {value : String} (h : value ≠ "") (default : String) :
    orDefault value default = value := if_pos h

theorem append_digest_ne_empty {kind : String} (h : kind ≠ "") (digest : String) :
    kind ++ digest ≠ "" := fun hempty => h (String.append_eq_empty_iff.mp hempty).1

theorem bindingId_ne_empty (digest : String) : "binding-" ++ digest ≠ "" :=
  append_digest_ne_empty (by decide) digest

theorem deriveApplicationId_ne_empty (name : String) (body : GitWebhookReceivedBody) :
    deriveApplicationId naming name body ≠ "" :=
  orDefault_ne_empty (append_digest_ne_empty (by decide) _)

/-- The `update_values` of `upsert_application`; repository and name are those of the row. -/
def Application.updated (payload : GitWebhookReceivedBody) (application : Application) :
    Application :=
  { application with manifestPath := payload.manifestPath, status := .active, sourceType := none }

/-- `upsert_application` for a payload with the given name: the id it answers, and the
applications. -/
def upsertApplication (applications : Applications) (name : String)
    (payload : GitWebhookReceivedBody) : Except String (String × Applications) :=
  let repositoryId := deriveRepositoryId naming payload
  let applicationId := deriveApplicationId naming name payload
  let name := deriveApplicationName name payload
  match applications.byAlt.find? (payload.workspaceId, repositoryId, name) with
  | some row =>
    -- the id of the payload is not looked at
    .ok (row.applicationId, applications.modify row.applicationId (Application.updated payload)
      (fun _ => rfl) fun _ => rfl)
  | none =>
    match applications.insertDoNothing
      { applicationId := applicationId
        workspaceId := payload.workspaceId
        repositoryId := repositoryId
        name := name
        manifestPath := payload.manifestPath
        status := .active
        sourceType := none
        hasId := deriveApplicationId_ne_empty naming _ _ } with
    | some applications => .ok (applicationId, applications)
    | none => .error "application not found in workspace"

/-- `ensure_run` of a webhook: the application first, then the run. -/
def ensureWebhookRun (applications : Applications) (s : Store) (body : GitWebhookReceivedBody)
    (status : WorkflowRunStatus) (inserted : Bool) :
    Except String (Option Identity × Applications × Store) :=
  -- the payload goes through `normalize_payload` twice
  let name := applicationNameHint body
  let run := scopedPayload naming name (gitopsPayload naming body)
  match upsertApplication naming applications (orDefault name run.applicationId) run with
  | .error detail => .error detail
  | .ok (applicationId, applications) =>
    let ensured := ensureRun naming s run.identity (some applicationId) status inserted
    .ok (ensured.1, applications, ensured.2)

/-! ## The ids of a normalized payload -/

/-- The payload names all its ids. -/
structure GitWebhookReceivedBody.Named (body : GitWebhookReceivedBody) : Prop where
  repository : body.repositoryId ≠ ""
  watchTarget : body.watchTargetId ≠ ""
  binding : body.bindingId ≠ ""
  application : body.applicationId ≠ ""
  run : body.workflowRunId ≠ ""

theorem scopedPayload_named (name : String) (body : GitWebhookReceivedBody) :
    (scopedPayload naming name body).Named where
  repository := orDefault_ne_empty (append_digest_ne_empty (by decide) _)
  watchTarget := orDefault_ne_empty (append_digest_ne_empty (by decide) _)
  binding := orDefault_ne_empty (bindingId_ne_empty _)
  application := deriveApplicationId_ne_empty naming name _
  run := orDefault_ne_empty (append_digest_ne_empty (by decide) _)

theorem scopedPayload_of_named {body : GitWebhookReceivedBody} (h : body.Named) (name : String) :
    scopedPayload naming name body = body := by
  have hrepository : deriveRepositoryId naming body = body.repositoryId :=
    orDefault_of_ne h.repository _
  have hwatch : deriveWatchTargetId naming body = body.watchTargetId :=
    orDefault_of_ne h.watchTarget _
  have hbinding : deriveDeploymentBindingId naming body = body.bindingId :=
    orDefault_of_ne h.binding _
  have happlication : deriveApplicationId naming name body = body.applicationId :=
    orDefault_of_ne h.application _
  have hrun : deriveWorkflowRunId naming body.identity = body.workflowRunId := if_pos h.run
  simp only [scopedPayload, hrepository, hwatch, hbinding, happlication, hrun]

/-- The hint of the controller is what `derive_application_name` guesses itself, so that both
workers derive the same ids. -/
theorem gitopsPayload_eq (body : GitWebhookReceivedBody) :
    gitopsPayload naming body = normalizeGitopsIdentity naming body := by
  have hname : ∀ body : GitWebhookReceivedBody,
      deriveApplicationName (applicationNameHint body) body = deriveApplicationName "" body := by
    intro body
    rw [deriveApplicationName, deriveApplicationName, orDefault, orDefault]
    split
    · rfl
    · rfl
  have hid : ∀ body : GitWebhookReceivedBody,
      deriveApplicationId naming (applicationNameHint body) body =
        deriveApplicationId naming "" body := by
    intro body
    rw [deriveApplicationId, deriveApplicationId, hname]
  rw [gitopsPayload, normalizeGitopsIdentity, scopedPayload, scopedPayload]
  dsimp only
  rw [← hid]
  rfl

/-- The name under which `ensure_run` looks for the application of a normalized payload. -/
def applicationNameFor (run : GitWebhookReceivedBody) : String :=
  orDefault (applicationNameHint run) run.applicationId

theorem ensureWebhookRun_eq (applications : Applications) (s : Store)
    (body : GitWebhookReceivedBody) (status : WorkflowRunStatus) (inserted : Bool) :
    let run := normalizeGitopsIdentity naming body
    ensureWebhookRun naming applications s body status inserted =
      (upsertApplication naming applications (applicationNameFor run) run).map fun upserted =>
        let ensured := ensureRun naming s run.identity (some upserted.1) status inserted
        (ensured.1, upserted.2, ensured.2) := by
  have hnamed : (normalizeGitopsIdentity naming body).Named := scopedPayload_named naming "" body
  have hhint : applicationNameHint body =
      applicationNameHint (normalizeGitopsIdentity naming body) := rfl
  dsimp only
  rw [ensureWebhookRun, gitopsPayload_eq, scopedPayload_of_named naming hnamed, hhint,
    ← applicationNameFor]
  rcases upsertApplication naming applications _ _ with detail | ⟨applicationId, applications'⟩
  · rfl
  · rfl

/-! ## What `upsert_application` answers -/

variable {applications : Applications} {run : GitWebhookReceivedBody}

theorem applicationNameFor_ne_empty (h : run.Named) : applicationNameFor run ≠ "" :=
  orDefault_ne_empty h.application

theorem deriveRepositoryId_of_named (h : run.Named) :
    deriveRepositoryId naming run = run.repositoryId :=
  orDefault_of_ne h.repository _

theorem deriveApplicationName_of_named (h : run.Named) :
    deriveApplicationName (applicationNameFor run) run = applicationNameFor run :=
  orDefault_of_ne (applicationNameFor_ne_empty h) _

theorem upsertApplication_of_found (h : run.Named) {row : Application}
    (hfound : applications.byAlt.find?
      (run.workspaceId, run.repositoryId, applicationNameFor run) = some row) :
    upsertApplication naming applications (applicationNameFor run) run =
      .ok (row.applicationId, applications.modify row.applicationId (Application.updated run)
        (fun _ => rfl) fun _ => rfl) := by
  rw [upsertApplication]
  simp only [deriveRepositoryId_of_named naming h, deriveApplicationName_of_named h, hfound]

/-- Without one, the id of the payload must be free. -/
theorem upsertApplication_of_taken (h : run.Named)
    (hmissing : applications.byAlt.find?
      (run.workspaceId, run.repositoryId, applicationNameFor run) = none)
    {row : Application} (htaken : applications.byKey.find? run.applicationId = some row) :
    upsertApplication naming applications (applicationNameFor run) run =
      .error "application not found in workspace" := by
  have hid : deriveApplicationId naming (applicationNameFor run) run = run.applicationId :=
    orDefault_of_ne h.application _
  rw [upsertApplication]
  simp only [deriveRepositoryId_of_named naming h, deriveApplicationName_of_named h, hmissing]
  rw [← hid] at htaken
  rw [UniqueTable.insertDoNothing_of_taken htaken]

theorem byKey_upsertApplication {name : String} {payload : GitWebhookReceivedBody}
    {applications' : Applications} {applicationId : String}
    (h : upsertApplication naming applications name payload = .ok (applicationId, applications'))
    {id : String} (hid : id ≠ applicationId) :
    applications'.byKey.find? id = applications.byKey.find? id := by
  rw [upsertApplication] at h
  split at h
  · rename_i row hfound
    obtain ⟨rfl, rfl⟩ := Prod.mk.inj (Except.ok.inj h)
    have hkept := UniqueTable.byKey_modify applications row.applicationId
      (f := Application.updated payload) (fun _ => rfl) (fun _ => rfl) id
    rw [if_neg hid] at hkept
    exact hkept
  · split at h
    · rename_i hinserted
      obtain ⟨rfl, rfl⟩ := Prod.mk.inj (Except.ok.inj h)
      exact (UniqueTable.byKey_of_insertDoNothing hinserted id).trans (if_neg hid)
    · cases h

theorem byAlt_upsertApplication (h : run.Named) {applications' : Applications}
    {applicationId : String}
    (hok : upsertApplication naming applications (applicationNameFor run) run =
      .ok (applicationId, applications')) :
    (∃ row, applications'.byAlt.find?
        (run.workspaceId, run.repositoryId, applicationNameFor run) = some row ∧
      row.applicationId = applicationId) ∧
    ∀ row, applications.byAlt.find?
        (run.workspaceId, run.repositoryId, applicationNameFor run) = some row →
      row.applicationId = applicationId := by
  rcases hfound : applications.byAlt.find?
    (run.workspaceId, run.repositoryId, applicationNameFor run) with _ | row
  · refine ⟨?_, fun row hrow => by cases hrow⟩
    rw [upsertApplication] at hok
    simp only [deriveRepositoryId_of_named naming h, deriveApplicationName_of_named h,
      hfound] at hok
    split at hok
    · rename_i hinserted
      obtain ⟨rfl, rfl⟩ := Prod.mk.inj (Except.ok.inj hok)
      exact ⟨_, (UniqueTable.byAlt_of_insertDoNothing hinserted _).trans (if_pos rfl), rfl⟩
    · cases hok
  · rw [upsertApplication_of_found naming h hfound] at hok
    obtain ⟨rfl, rfl⟩ := Prod.mk.inj (Except.ok.inj hok)
    -- the update keeps the columns of both keys
    refine ⟨⟨Application.updated run row, ?_, rfl⟩, fun row' hrow' => by cases hrow'; rfl⟩
    have hupdated := UniqueTable.byAlt_modify applications row.applicationId
      (f := Application.updated run) (fun _ => rfl) (fun _ => rfl)
      (run.workspaceId, run.repositoryId, applicationNameFor run)
    rw [hfound, Option.map_some, if_pos rfl] at hupdated
    exact hupdated

end Opsia.Gitops
