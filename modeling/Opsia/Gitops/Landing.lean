import Opsia.Gitops.Registry
import Opsia.Gitops.RunLedger

/-!
# Where a webhook lands

A webhook for an active poll target names the application of the target. The controller looks
for the application under the name of the repository instead: it lands on the target exactly
when the application is named like its repository. Otherwise the upsert takes the application
that has this name, or fails when there is none.
-/

namespace Opsia.Gitops

variable (naming : Naming)

/-! ## The run that `ensure_run` creates -/

/-- The runs after `ensure_run`. -/
theorem runOf_ensureRun (s : Store) (identity : Identity) (canonical : Option String)
    (status : WorkflowRunStatus) (inserted : Bool) (r : String) :
    (ensureRun naming s identity canonical status inserted).2.runOf r =
      runAfter s ((some (ensureWrite naming identity canonical status .git)).filter
        (·.applies s)) r := by
  rw [ensureRun, Option.filter_some]
  rcases startWorkflowRun_spec s (ensureWrite naming identity canonical status .git) rfl with
    ⟨happlies, s', hs', hruns⟩ | ⟨hrefused, hs'⟩
  · simp only [ensureWrite] at hs'
    rw [if_pos happlies, hs']
    exact hruns r
  · simp only [ensureWrite] at hs'
    rw [hrefused, if_neg Bool.false_ne_true, hs']
    rfl

theorem identity_of_created {s : Store} {identity : Identity} {canonical : Option String}
    {status : WorkflowRunStatus} {inserted : Bool} {row : WorkflowRun}
    (hrow : row ∈ (ensureRun naming s identity canonical status inserted).2.runs.rows)
    (hnew : s.runs.find? row.workflowRunId = none) :
    row.identity = canonicalRun naming identity canonical := by
  have hafter := runOf_ensureRun naming s identity canonical status inserted row.workflowRunId
  have hnone : s.runOf row.workflowRunId = none := by rw [Store.runOf, hnew, Option.map_none]
  rw [Store.runOf, Table.find?_of_mem hrow, Option.map_some, Option.filter_some] at hafter
  split at hafter
  · rw [runAfter] at hafter
    split at hafter
    · rw [hnone] at hafter
      have hsame := congrArg WorkflowRun.identity (Option.some.inj hafter)
      exact hsame
    · rw [hnone] at hafter
      cases hafter
  · rw [runAfter, hnone] at hafter
    cases hafter

theorem identity_of_returned {s : Store} {identity : Identity} {canonical : Option String}
    {status : WorkflowRunStatus} {inserted : Bool} {run : Identity}
    (hrun : run ∈ (ensureRun naming s identity canonical status inserted).1) :
    run = canonicalRun naming identity canonical := by
  rw [ensureRun] at hrun
  rcases hstart : s.startWorkflowRun (canonicalRun naming identity canonical) status with _ | s'
  · rw [hstart] at hrun
    cases hrun
  · rw [hstart] at hrun
    cases inserted with
    | false => cases hrun
    | true => exact (Option.some.inj hrun).symm

/-! ## Landing on the target -/

/-- The run is that of the target, under the id that `git-pull-worker` derives. -/
structure IsRunOf (target : PollTarget) (body : GitWebhookReceivedBody) (run : Identity) :
    Prop where
  application : run.applicationId = target.application.applicationId
  binding : run.bindingId = target.binding.bindingId
  workflowRun : run.workflowRunId = (normalizeGitopsIdentity naming body).workflowRunId

/-- `ensure_run` of the webhook succeeds, whatever runs there are: what it creates and returns
is the run of the target, and no other application is written. -/
def LandsOnTarget (applications : Applications) (target : PollTarget)
    (body : GitWebhookReceivedBody) : Prop :=
  ∀ s status inserted, ∃ run applications' s',
    ensureWebhookRun naming applications s body status inserted = .ok (run, applications', s') ∧
      (∀ r ∈ run, IsRunOf naming target body r) ∧
      (∀ row ∈ s'.runs.rows, s.runs.find? row.workflowRunId = none →
        IsRunOf naming target body row.identity) ∧
      ∀ id, id ≠ target.application.applicationId →
        applications'.byKey.find? id = applications.byKey.find? id

/-! ## The webhook of a poll target -/

/-- The rows that a poll target joins. -/
structure TargetRows (g : Registry) (target : PollTarget) : Prop where
  application : target.application ∈ g.applications.rows
  repository : target.repository.repositoryId = target.binding.repositoryId
  identity : target.application.identity =
    (target.binding.workspaceId, target.binding.repositoryId, target.binding.appName)
  workspace : target.binding.workspaceId ≠ ""

theorem targetRows_of_mem {g : Registry} {target : PollTarget}
    (h : target ∈ g.activeGithubPollTargets) : TargetRows g target := by
  rw [Registry.activeGithubPollTargets, List.mem_filter] at h
  obtain ⟨hlisted, hfilter⟩ := h
  rw [Registry.listActiveGithubPollTargets, List.mem_filter] at hlisted
  obtain ⟨binding, -, hbinding⟩ := List.mem_flatMap.mp hlisted.1
  obtain ⟨repository, hrepository, hjoined⟩ := List.mem_flatMap.mp hbinding
  obtain ⟨application, happlication, rfl⟩ := List.mem_map.mp hjoined
  rw [List.mem_filter] at hrepository happlication
  simp only [Bool.and_eq_true, decide_eq_true_iff] at hrepository happlication hfilter
  refine ⟨happlication.1, hrepository.2.2, happlication.2, fun hempty => hfilter.1.1 ?_⟩
  rw [hempty]
  rfl

theorem applicationNameHint_of_text {body : GitWebhookReceivedBody} {repoRef : RepoRef}
    (h : body.repoRef = repoRef.text) : applicationNameHint body = repoRef.name := by
  have hslash : '/' ∈ repoRef.text.toList := by
    rw [RepoRef.text, String.toList_append, String.toList_append]
    exact List.mem_append_left _ (List.mem_append_right _ (by decide))
  rw [applicationNameHint, h, if_pos hslash]
  exact PyText.rsplitLast_append repoRef.noSlash

variable {g : Registry} {target : PollTarget} {commitSha image : String} {replicas : ℕ}
  {force : Bool}

theorem normalized_bodyForPollTarget (h : TargetRows g target) :
    let run := normalizeGitopsIdentity naming
      (bodyForPollTarget target commitSha image replicas force)
    run.Named ∧ run.workspaceId = target.binding.workspaceId ∧
      run.repositoryId = target.binding.repositoryId ∧
      run.applicationId = target.application.applicationId ∧
      run.bindingId = target.binding.bindingId ∧
      applicationNameFor run = target.repository.repoRef.name := by
  have hrepository : (normalizeGitopsIdentity naming
      (bodyForPollTarget target commitSha image replicas force)).repositoryId =
        target.repository.repositoryId := orDefault_of_ne target.repository.hasId _
  refine ⟨scopedPayload_named naming "" _, orDefault_of_ne h.workspace _,
    hrepository.trans h.repository, orDefault_of_ne target.application.hasId _,
    orDefault_of_ne target.binding.hasId _, ?_⟩
  have hhint : applicationNameHint (normalizeGitopsIdentity naming
      (bodyForPollTarget target commitSha image replicas force)) =
        target.repository.repoRef.name := applicationNameHint_of_text rfl
  rw [applicationNameFor, hhint]
  exact orDefault_of_ne target.repository.repoRef.hasName _

/-! ## Main result -/

theorem canonicalRun_of_same {run : GitWebhookReceivedBody} (h : run.Named) :
    canonicalRun naming run.identity (some run.applicationId) = run.identity := by
  have hsame : normalizePayload naming run.identity = run.identity := by
    rw [normalizePayload, deriveWorkflowRunId]
    exact congrArg (fun r => { run.identity with workflowRunId := r }) (if_pos h.run)
  rw [canonicalRun, hsame]
  exact if_neg fun hne => hne rfl

theorem applicationId_canonicalRun (identity : Identity) (applicationId : String) :
    (canonicalRun naming identity (some applicationId)).applicationId = applicationId := by
  rw [canonicalRun]
  split
  · rfl
  · rename_i hsame
    exact (not_not.mp hsame).symm

theorem identity_of_targetRows (h : TargetRows g target) :
    target.application.identity = (target.binding.workspaceId, target.binding.repositoryId,
      target.application.name) := by
  obtain ⟨hworkspace, hrest⟩ := Prod.mk.inj h.identity
  obtain ⟨hrepository, -⟩ := Prod.mk.inj hrest
  rw [Application.identity, hworkspace, hrepository]

theorem lands_of_named (h : TargetRows g target)
    (hname : target.application.name = target.repository.repoRef.name) :
    LandsOnTarget naming g.applications target
      (bodyForPollTarget target commitSha image replicas force) := by
  obtain ⟨hnamed, hworkspace, hrepository, happlication, hbinding, hrunName⟩ :=
    @normalized_bodyForPollTarget naming g target commitSha image replicas force h
  have hfound : g.applications.byAlt.find? target.application.identity =
      some target.application := Table.find?_of_mem (t := g.applications.byAlt) h.application
  rw [identity_of_targetRows h, hname, ← hworkspace, ← hrepository, ← hrunName] at hfound
  have hrun : IsRunOf naming target (bodyForPollTarget target commitSha image replicas force)
      (canonicalRun naming (normalizeGitopsIdentity naming
        (bodyForPollTarget target commitSha image replicas force)).identity
        (some (normalizeGitopsIdentity naming
          (bodyForPollTarget target commitSha image replicas force)).applicationId)) := by
    rw [canonicalRun_of_same naming hnamed]
    exact ⟨happlication, hbinding, rfl⟩
  have hupsert := upsertApplication_of_found naming hnamed hfound
  intro s status inserted
  rw [ensureWebhookRun_eq]
  dsimp only
  rw [hupsert]
  rw [← happlication] at hupsert ⊢
  refine ⟨_, _, _, rfl, fun r hr => ?_, fun row hrow hnew => ?_, fun id hid => ?_⟩
  · rw [identity_of_returned naming hr]
    exact hrun
  · rw [identity_of_created naming hrow hnew]
    exact hrun
  · exact byKey_upsertApplication naming hupsert hid

/-- **Webhooks land on the application they name** exactly when it is named like its
repository. -/
theorem landsOnTarget_iff (g : Registry) (target : PollTarget)
    (h : target ∈ g.activeGithubPollTargets) (commitSha image : String) (replicas : ℕ)
    (force : Bool) :
    LandsOnTarget naming g.applications target
        (bodyForPollTarget target commitSha image replicas force) ↔
      target.application.name = target.repository.repoRef.name := by
  have hpolled := targetRows_of_mem h
  refine ⟨fun hlands => ?_, lands_of_named naming hpolled⟩
  obtain ⟨hnamed, hworkspace, hrepository, happlication, -, hrunName⟩ :=
    @normalized_bodyForPollTarget naming g target commitSha image replicas force hpolled
  have htarget : g.applications.byKey.find? target.application.applicationId =
      some target.application := Table.find?_of_mem (t := g.applications.byKey) hpolled.application
  obtain ⟨run, applications', s', hok, hreturned, -⟩ := hlands .empty .started true
  rw [ensureWebhookRun_eq] at hok
  dsimp only at hok
  rcases hfound : g.applications.byAlt.find? (target.binding.workspaceId,
    target.binding.repositoryId, target.repository.repoRef.name) with _ | row
  · -- the id of the target is taken by the target itself
    rw [← hworkspace, ← hrepository, ← hrunName] at hfound
    rw [upsertApplication_of_taken naming hnamed hfound (happlication ▸ htarget)] at hok
    cases hok
  · -- the run goes to the application that was found
    have hkey : row.name = target.repository.repoRef.name := by
      have hidentity := Table.key_of_find? hfound
      exact (Prod.mk.inj (Prod.mk.inj hidentity).2).2
    rw [← hworkspace, ← hrepository, ← hrunName] at hfound
    rw [upsertApplication_of_found naming hnamed hfound] at hok
    obtain ⟨rfl, -⟩ := Prod.mk.inj (Except.ok.inj hok)
    -- its id is that of the target, and an id has one row
    have hrun := (hreturned _ rfl).application
    rw [applicationId_canonicalRun] at hrun
    have hid : row.applicationId = target.application.applicationId := hrun
    have hrow := UniqueTable.find?_of_byAlt hfound
    rw [hid, htarget] at hrow
    rw [Option.some.inj hrow]
    exact hkey

/-! ## Two applications of one repository -/

/-- The repository `acme/shop`. -/
def shopRepository : GitRepository where
  repositoryId := "repo-shop"
  workspaceId := "ws"
  repoRef := ⟨"acme", "shop", by decide, by decide⟩
  defaultBranch := "main"
  status := .active
  hasId := by decide

/-- Its applications, of the same name as the repository and of another name. -/
def shopApplication (applicationId name : String) (hasId : applicationId ≠ "") : Application where
  applicationId := applicationId
  workspaceId := "ws"
  repositoryId := "repo-shop"
  name := name
  manifestPath := "deploy.yaml"
  status := .active
  sourceType := none
  hasId := hasId

/-- The application of the name of the repository. -/
def namedApplication : Application := shopApplication "app-shop" "shop" (by decide)

/-- The binding of the application `api`. -/
def apiBinding : DeploymentBinding where
  bindingId := "binding-api"
  workspaceId := "ws"
  repositoryId := "repo-shop"
  watchTargetId := none
  clusterId := "c1"
  appName := "api"
  manifestPath := "deploy.yaml"
  environment := "prod"
  status := .active
  deployPolicy := ⟨none, none, "", false⟩
  hasId := by decide

/-- The applications `shop` and `api`, of which `api` is deployed. -/
def shopRegistry : Registry where
  repositories := ⟨[shopRepository], by decide⟩
  applications :=
    ⟨[namedApplication, shopApplication "app-api" "api" (by decide)], by decide, by decide⟩
  bindings := ⟨[apiBinding], by decide⟩
  watchTargets := .empty

/-- The poll target of the binding. -/
def apiTarget : PollTarget :=
  ⟨apiBinding, shopRepository, shopApplication "app-api" "api" (by decide), none⟩

/-- The target is polled, and its webhook lands on it if `api` is the name of the repository. -/
theorem apiTarget_lands_iff :
    LandsOnTarget plainNaming shopRegistry.applications apiTarget
        (bodyForPollTarget apiTarget "abc" "shop:2" 1 false) ↔ "api" = "shop" :=
  landsOnTarget_iff plainNaming shopRegistry apiTarget (by decide +kernel) "abc" "shop:2" 1 false

/-- **A webhook for `api` lands on `shop`.** -/
theorem webhook_lands_elsewhere :
    ¬ ∀ (naming : Naming) (g : Registry) (target : PollTarget),
      target ∈ g.activeGithubPollTargets → ∀ commitSha image replicas force,
        LandsOnTarget naming g.applications target
          (bodyForPollTarget target commitSha image replicas force) := by
  intro h
  have htarget : apiTarget ∈ shopRegistry.activeGithubPollTargets := by decide +kernel
  obtain ⟨run, applications, s, hok, hreturned, -⟩ :=
    h plainNaming shopRegistry apiTarget htarget "abc" "shop:2" 1 false .empty .started true
  have hrun : (ensureWebhookRun plainNaming shopRegistry.applications .empty
      (bodyForPollTarget apiTarget "abc" "shop:2" 1 false) .started true).toOption.bind
        (fun result => result.1.map Identity.applicationId) = some "app-shop" := by
    decide +kernel
  rw [hok] at hrun
  rcases run with _ | run
  · cases hrun
  · have happlication := (hreturned run rfl).application
    have hshop : run.applicationId = "app-shop" := Option.some.inj hrun
    rw [hshop] at happlication
    exact absurd happlication (by decide)

end Opsia.Gitops
