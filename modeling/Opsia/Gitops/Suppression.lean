import Opsia.Gitops.Landing
import Opsia.Lib.Runs

/-!
# The duplicate filter of git-pull-worker

`git-pull-worker` drops a webhook whose commit is the `last_seen_commit_sha` of the watch
target. The marker is written by `manifest-render-worker` when it is done with a change of a
binding. The work is that of a binding, the marker that of a watch target, which several
bindings may share: the first of them to be rendered at a commit suppresses the others.
-/

namespace Opsia.Gitops

open Runs

/-! ## The system -/

structure GitChangedBody : Type where
  commitSha : String
  image : String
  replicas : ℕ
  workspaceId : String
  repositoryId : String
  repoRef : String
  branch : String
  watchTargetId : String
  bindingId : String
  applicationId : String
  workflowRunId : String
  environment : String
  clusterId : String
  manifestPath : String
  sourceType : String
  deriving DecidableEq, Repr

/-- What a change is about: the binding and the commit. -/
def GitChangedBody.key (change : GitChangedBody) : String × String :=
  (change.bindingId, change.commitSha)

/-- Where an entry webhook comes from. -/
inductive EntryWebhook : Type where
  /-- a webhook for a poll target -/
  | poll (target : PollTarget) (commitSha image : String) (replicas : ℕ) (force : Bool)
  /-- a promotion to a binding, or a fan-out -/
  | forBinding (workspaceId applicationId : String) (binding : DeploymentBinding)
      (commitSha image : String) (replicas : ℕ) (repoRef branch : String)

/-- The webhook. -/
def EntryWebhook.body : EntryWebhook → GitWebhookReceivedBody
  | .poll target commitSha image replicas force =>
    bodyForPollTarget target commitSha image replicas force
  | .forBinding workspaceId applicationId binding commitSha image replicas repoRef branch =>
    entryWebhookForBinding workspaceId applicationId binding commitSha image replicas repoRef branch

/-- How `on_git_changed` of `manifest-render-worker` ends. -/
inductive RenderOutcome : Type where
  /-- rendered, or found among the rendered artifacts -/
  | rendered
  /-- a `ValueError`: the source is invalid -/
  | invalid
  /-- another error, which may pass -/
  | failed
  deriving DecidableEq, Repr

/-- The watch targets, the webhooks that wait for `git-pull-worker`, the changes that wait for
`manifest-render-worker`, and the bindings it is done with, each at a commit. -/
structure PullSystem : Type where
  watchTargets : WatchTargets
  webhooks : List GitWebhookReceivedBody
  changes : List GitChangedBody
  done : List (String × String)
  /-- the binding whose change marked the watch target last -/
  observer : String → Option String

/-- Before any transaction. -/
def PullSystem.start (watchTargets : WatchTargets) : PullSystem :=
  ⟨watchTargets, [], [], [], fun _ => none⟩

/-- One transaction. -/
inductive PullAction : Type where
  /-- an entry webhook is accepted -/
  | accept (entry : EntryWebhook)
  /-- `on_git_webhook` of `git-pull-worker`, with the id that stands for an empty commit -/
  | pull (webhook : GitWebhookReceivedBody) (uuid : String)
  /-- `on_git_changed` of `manifest-render-worker` -/
  | render (change : GitChangedBody) (outcome : RenderOutcome)

variable (naming : Naming)

def getWatchLastSeenCommitSha (watchTargets : WatchTargets) (watchTargetId workspaceId : String) :
    Option String :=
  ((watchTargets.byKey.find? watchTargetId).filter fun watch =>
    watch.workspaceId = workspaceId).bind fun watch =>
      watch.lastSeenCommitSha.filter fun commitSha => commitSha ≠ ""

/-- The change of a webhook. -/
def changeOf (webhook : GitWebhookReceivedBody) (uuid : String) : GitChangedBody :=
  let identity := normalizeGitopsIdentity naming webhook
  { commitSha := orDefault webhook.commitSha uuid
    image := webhook.image
    replicas := webhook.replicas
    workspaceId := identity.workspaceId
    repositoryId := identity.repositoryId
    repoRef := webhook.repoRef
    branch := webhook.branch
    watchTargetId := identity.watchTargetId
    bindingId := identity.bindingId
    applicationId := identity.applicationId
    workflowRunId := identity.workflowRunId
    environment := webhook.environment
    clusterId := webhook.clusterId
    manifestPath := webhook.manifestPath
    sourceType := webhook.sourceType }

/-- The commit is the one that its watch target has seen last. -/
def isSuppressed (watchTargets : WatchTargets) (change : GitChangedBody) : Bool :=
  getWatchLastSeenCommitSha watchTargets change.watchTargetId change.workspaceId =
    some change.commitSha

/-- `on_git_webhook` of `git-pull-worker`. -/
def pullGitWebhook (watchTargets : WatchTargets) (webhook : GitWebhookReceivedBody)
    (uuid : String) : List GitChangedBody :=
  let change := changeOf naming webhook uuid
  if isSuppressed watchTargets change && !webhook.force then [] else [change]

/-- The source of the change, by which `mark_watch_observed` looks for the watch target. -/
def GitChangedBody.source (change : GitChangedBody) : String × String × String × String :=
  (change.workspaceId, change.repositoryId, change.branch, change.manifestPath)

/-- The row that `mark_watch_observed` inserts. -/
def GitChangedBody.watchTarget (change : GitChangedBody) : GitWatchTarget where
  watchTargetId := change.watchTargetId
  workspaceId := change.workspaceId
  repositoryId := change.repositoryId
  branch := change.branch
  manifestPath := change.manifestPath
  lastSeenCommitSha := some change.commitSha
  status := .active
  sourceType := none

/-- `mark_watch_observed`: the id of the watch target that has the source, inserted or not;
`none` when the id is taken by a watch target of another source. -/
def markWatchObserved (watchTargets : WatchTargets) (change : GitChangedBody) :
    Option (String × WatchTargets) :=
  match watchTargets.byAlt.find? change.source with
  | some watch =>
    some (watch.watchTargetId, watchTargets.modify watch.watchTargetId
      (fun watch => { watch with lastSeenCommitSha := some change.commitSha })
      (fun _ => rfl) fun _ => rfl)
  | none =>
    -- no watch target has the source, but its id may be taken
    (watchTargets.insertDoNothing change.watchTarget).map fun watchTargets =>
      (change.watchTargetId, watchTargets)

/-- One transaction; one that is not due changes nothing. -/
def PullSystem.step (s : PullSystem) : PullAction → PullSystem
  | .accept entry => { s with webhooks := s.webhooks ++ [entry.body] }
  | .pull webhook uuid =>
    if webhook ∈ s.webhooks then
      { s with
        webhooks := s.webhooks.erase webhook
        changes := s.changes ++ pullGitWebhook naming s.watchTargets webhook uuid }
    else s
  | .render change outcome =>
    if change ∈ s.changes then
      if outcome = .failed then { s with changes := s.changes.erase change }
      else
        -- done with the change, rendered or found invalid: the commit is marked as seen
        match markWatchObserved s.watchTargets change with
        | none => s
        | some (watchTargetId, watchTargets) =>
          { s with
            watchTargets := watchTargets
            changes := s.changes.erase change
            done := s.done ++ [change.key]
            observer := Function.update s.observer watchTargetId (some change.bindingId) }
    else s

/-! ## What must not be skipped -/

/-- A webhook for a binding with which the renderer is not done at the commit leads to exactly
one change, for the binding and the commit. -/
def NotSkipped (e : Entry PullSystem PullAction) : Prop :=
  ∀ webhook uuid, e.action = .pull webhook uuid → webhook ∈ e.pre.webhooks →
    (changeOf naming webhook uuid).key ∉ e.pre.done →
      e.post.changes = e.pre.changes ++ [changeOf naming webhook uuid]

/-- The condition of the main result: a commit that the watch target has seen last was seen
there by the binding of the webhook, unless the webhook is forced or the renderer is done with
the binding at the commit. -/
def OwnObservation (s : PullSystem) : PullAction → Prop
  | .pull webhook uuid =>
    let change := changeOf naming webhook uuid
    webhook ∈ s.webhooks → webhook.force = false →
      isSuppressed s.watchTargets change = true →
        s.observer change.watchTargetId = some change.bindingId ∨ change.key ∈ s.done
  | _ => True

/-! ## The marker -/

/-- The renderer is done with whatever marked a watch target, at the commit of the marker. -/
def ObserversDone (s : PullSystem) : Prop :=
  ∀ id binding, s.observer id = some binding → ∃ watch commitSha,
    s.watchTargets.byKey.find? id = some watch ∧ watch.lastSeenCommitSha = some commitSha ∧
      (binding, commitSha) ∈ s.done

theorem markWatchObserved_spec {watchTargets watchTargets' : WatchTargets}
    {change : GitChangedBody} {id : String}
    (h : markWatchObserved watchTargets change = some (id, watchTargets')) :
    (∃ watch, watchTargets'.byKey.find? id = some watch ∧
      watch.lastSeenCommitSha = some change.commitSha) ∧
    ∀ id', id' ≠ id → watchTargets'.byKey.find? id' = watchTargets.byKey.find? id' := by
  rw [markWatchObserved] at h
  split at h
  · rename_i watch hfound
    obtain ⟨rfl, rfl⟩ := Prod.mk.inj (Option.some.inj h)
    have hmarked := UniqueTable.byKey_modify watchTargets watch.watchTargetId
      (f := fun watch => { watch with lastSeenCommitSha := some change.commitSha })
      (fun _ => rfl) fun _ => rfl
    refine ⟨?_, fun id' hid' => (hmarked id').trans (if_neg hid')⟩
    rw [hmarked, if_pos rfl, UniqueTable.find?_of_byAlt hfound]
    exact ⟨_, rfl, rfl⟩
  · obtain ⟨inserted, hinserted, hsame⟩ := Option.map_eq_some_iff.mp h
    obtain ⟨rfl, rfl⟩ := Prod.mk.inj hsame
    have hfind := UniqueTable.byKey_of_insertDoNothing hinserted
    exact ⟨⟨change.watchTarget, (hfind _).trans (if_pos rfl), rfl⟩,
      fun id' hid' => (hfind id').trans (if_neg hid')⟩

theorem ObserversDone.step {s : PullSystem} (h : ObserversDone s) (action : PullAction) :
    ObserversDone (s.step naming action) := by
  cases action with
  | accept entry => exact h
  | pull webhook uuid =>
    rw [PullSystem.step]
    split
    · exact h
    · exact h
  | render change outcome =>
    rw [PullSystem.step]
    by_cases hchange : change ∈ s.changes
    · rw [if_pos hchange]
      by_cases houtcome : outcome = .failed
      · rw [if_pos houtcome]
        exact h
      rw [if_neg houtcome]
      rcases hmark : markWatchObserved s.watchTargets change with _ | ⟨id, watchTargets⟩
      · exact h
      obtain ⟨⟨watch, hwatch, hseen⟩, hothers⟩ := markWatchObserved_spec hmark
      intro id' binding hobserver
      dsimp only at hobserver ⊢
      by_cases hid : id' = id
      · -- the watch target that was marked
        rw [hid, Function.update_self] at hobserver
        obtain rfl := Option.some.inj hobserver
        rw [hid]
        exact ⟨watch, change.commitSha, hwatch, hseen, List.mem_append_right _ List.mem_cons_self⟩
      · rw [Function.update_of_ne hid] at hobserver
        obtain ⟨old, commitSha, hold, hseen', hdone⟩ := h id' binding hobserver
        exact ⟨old, commitSha, (hothers id' hid).trans hold, hseen',
          List.mem_append_left _ hdone⟩
    · rw [if_neg hchange]
      exact h

theorem ObserversDone.repeats {s : PullSystem} (h : ObserversDone s) {change : GitChangedBody}
    (hsuppressed : isSuppressed s.watchTargets change = true)
    (hobserver : s.observer change.watchTargetId = some change.bindingId) :
    change.key ∈ s.done := by
  obtain ⟨watch, commitSha, hwatch, hseen, hdone⟩ := h _ _ hobserver
  rw [isSuppressed, decide_eq_true_iff, getWatchLastSeenCommitSha, hwatch] at hsuppressed
  obtain ⟨watch', hwatch', hcommit⟩ := Option.bind_eq_some_iff.mp hsuppressed
  obtain rfl := Option.some.inj (Option.filter_eq_some_iff.mp hwatch').1
  obtain ⟨hcommit, -⟩ := Option.filter_eq_some_iff.mp hcommit
  obtain rfl := Option.some.inj (hseen.symm.trans hcommit)
  exact hdone

/-! ## Main result -/

/-- **One transaction.** -/
theorem notSkipped_step {s : PullSystem} (h : ObserversDone s) (action : PullAction) :
    NotSkipped naming ⟨s, action, s.step naming action⟩ ↔ OwnObservation naming s action := by
  cases action with
  | accept entry | render change outcome =>
    exact iff_of_true (fun _ _ hpull => by cases hpull) trivial
  | pull webhook uuid =>
    rw [OwnObservation]
    have hstep : webhook ∈ s.webhooks → (s.step naming (.pull webhook uuid)).changes =
        s.changes ++ pullGitWebhook naming s.watchTargets webhook uuid := by
      intro hwebhook
      rw [PullSystem.step, if_pos hwebhook]
    constructor
    · intro hkept hwebhook hforce hsuppressed
      refine Or.inr (by_contra fun hdone => ?_)
      -- the webhook is dropped, so the list of changes does not grow
      have hgrows := hkept webhook uuid rfl hwebhook hdone
      rw [hstep hwebhook, pullGitWebhook, hsuppressed, hforce] at hgrows
      exact absurd hgrows (by simp)
    · intro hown webhook' uuid' hpull hwebhook hdone
      cases hpull
      rw [hstep hwebhook, pullGitWebhook]
      rcases hsuppressed : isSuppressed s.watchTargets (changeOf naming webhook uuid) with _ | _
      · rfl
      · rcases hforce : webhook.force with _ | _
        · -- suppressed and not forced, which the condition makes a repetition
          refine absurd ?_ hdone
          rcases hown hwebhook hforce hsuppressed with hobserver | hrendered
          · exact h.repeats hsuppressed hobserver
          · exact hrendered
        · rfl

/-- No commit is skipped in a run of the system, from watch targets that nobody marked. -/
def NoCommitSkipped (watchTargets : WatchTargets) (actions : List PullAction) : Prop :=
  ∀ e ∈ trace (PullSystem.step naming) (.start watchTargets) actions, NotSkipped naming e

/-- **No commit is skipped for a binding** in exactly the runs of the system in which a watch
target has seen the commit of a webhook last through the binding of the webhook itself. -/
theorem noCommitSkipped_iff (watchTargets : WatchTargets) (actions : List PullAction) :
    NoCommitSkipped naming watchTargets actions ↔
      Meets (PullSystem.step naming) (OwnObservation naming) (.start watchTargets) actions :=
  forall_trace_iff_meets (fun _ action hs _ => ObserversDone.step naming hs action)
    (fun _ action hs => notSkipped_step naming hs action)
    (fun _ _ hobserver => by cases hobserver) actions

/-! ## A promotion that is suppressed -/

/-- The watch target of the repository. -/
def shopWatch : GitWatchTarget where
  watchTargetId := "watch-shop"
  workspaceId := "ws"
  repositoryId := "repo-shop"
  branch := "main"
  manifestPath := "deploy.yaml"
  lastSeenCommitSha := none
  status := .active
  sourceType := none

/-- Two bindings of one watch target: `staging`, which promotes to `prod`. -/
def shopBinding (environment promotesTo : String) : DeploymentBinding where
  bindingId := "binding-" ++ environment
  workspaceId := "ws"
  repositoryId := "repo-shop"
  watchTargetId := some "watch-shop"
  clusterId := "c1"
  appName := "shop"
  manifestPath := "deploy.yaml"
  environment := environment
  status := .active
  deployPolicy := ⟨none, none, promotesTo, false⟩
  hasId := bindingId_ne_empty environment

/-- The poll target of `staging`. -/
def stagingTarget : PollTarget :=
  ⟨shopBinding "staging" "binding-prod", shopRepository, namedApplication, some shopWatch⟩

/-- The webhook for `staging` and the webhook of its promotion to `prod`. -/
def stagingWebhook : EntryWebhook := .poll stagingTarget "abc" "shop:2" 1 false

def promotionWebhook : EntryWebhook :=
  .forBinding "ws" "app-shop" (shopBinding "prod" "") "abc" "shop:2" 1 "acme/shop" "main"

/-- `staging` is rendered at the commit before `prod` is promoted to it. -/
def promotedRun : List PullAction :=
  [.accept stagingWebhook, .pull stagingWebhook.body "u1",
    .render (changeOf plainNaming stagingWebhook.body "u1") .rendered,
    .accept promotionWebhook, .pull promotionWebhook.body "u2"]

/-- **The promotion is suppressed**: its commit is the one that `staging` was rendered at. -/
theorem promotion_is_skipped :
    ¬ ∀ (naming : Naming) (watchTargets : WatchTargets) (actions : List PullAction),
      NoCommitSkipped naming watchTargets actions := by
  intro h
  have hkept := h plainNaming ⟨[shopWatch], by decide, by decide⟩ promotedRun _
    (step_mem_trace _ (promotedRun.take 4) (.pull promotionWebhook.body "u2") [])
    promotionWebhook.body "u2" rfl (by decide +kernel) (by decide +kernel)
  have hchanges := congrArg (List.map GitChangedBody.bindingId) hkept
  exact absurd hchanges (by decide +kernel)

end Opsia.Gitops
