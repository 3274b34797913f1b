import Mathlib.Data.Set.Function
import Mathlib.Logic.Function.Basic
import Mathlib.Tactic.Common
import Opsia.Lib.Runs

/-!
# The GitHub poller

`poll_once` of `services/gitops/github-poll-worker/poller.py` with its two memories: the
sha it delivered last and the ETag it saw last, both by the key of the target. The sha is
remembered after the webhook was accepted, the ETag already when GitHub answered.

What GitHub and the gateway do at a poll is part of the input. GitHub answers 304 exactly
when `If-None-Match` is the ETag of the current head.
-/

namespace Opsia.Gitops

/-! ## Targets -/

structure GitHubPollTarget : Type where
  workspaceId : String
  repositoryId : String
  repoRef : String
  branch : String
  watchTargetId : String
  bindingId : String
  applicationId : String
  environment : String
  clusterId : String
  manifestPath : String
  sourceType : String
  credentialRef : String
  databaseManaged : Bool
  deriving DecidableEq, Repr

def GitHubPollTarget.key (target : GitHubPollTarget) : String :=
  "|".intercalate
    [target.workspaceId, target.repositoryId, target.watchTargetId, target.bindingId,
      target.applicationId, target.environment, target.repoRef, target.branch,
      target.manifestPath, target.sourceType]

/-- `require_poll_config` does not raise. -/
def GitHubPollTarget.configured (target : GitHubPollTarget) : Bool :=
  target.repoRef ≠ "" && '/' ∈ target.repoRef.toList

/-- What the request for the commits of a target ends in. -/
inductive GitHubOutcome : Type where
  /-- no answer, or one that does not decode -/
  | raised
  /-- a status that `raise_for_status` raises -/
  | status (code : ℕ)
  /-- the newest commit of the branch, if it has one -/
  | head (sha : Option String)
  deriving DecidableEq, Repr

/-- `is_target_status_error`: an access error or a rate limit. -/
def isTargetStatusError (code : ℕ) : Bool := code ∈ [401, 403, 404, 429]

/-- The ETags of GitHub: the header of the answer with a head, empty when it sends none. An
ETag is that of one head. -/
structure GitHubETags : Type where
  etag : GitHubPollTarget → Option String → String
  etag_injective : ∀ target head head', etag target head ≠ "" →
    etag target head = etag target head' → head = head'

/-- One target in a cycle: what GitHub answers, and what the gateway would do with a
webhook. -/
structure TargetPoll : Type where
  target : GitHubPollTarget
  outcome : GitHubOutcome
  accepts : Bool
  deriving DecidableEq, Repr

/-! ## The poller -/

/-- The memories of the process, and the webhooks that the gateway accepted. -/
structure PollerState : Type where
  lastSha : String → Option String
  etag : String → Option String
  accepted : List (GitHubPollTarget × String)

/-- A process that has just started. -/
def PollerState.empty : PollerState := ⟨fun _ => none, fun _ => none, []⟩

/-- The settings of the process. -/
structure PollerSettings : Type where
  /-- `GITOPS_WEBHOOK_IMAGE` -/
  image : String
  /-- `POLL_ONCE` -/
  once : Bool

/-- What `latest_commit_sha` does. -/
inductive LatestCommit : Type where
  | raised
  | status (code : ℕ)
  | sha (sha : Option String)
  deriving DecidableEq, Repr

variable (github : GitHubETags) (settings : PollerSettings)

/-- The ETag of an answer is remembered. -/
def PollerState.noteEtag (s : PollerState) (target : GitHubPollTarget) (head : Option String) :
    PollerState :=
  let etag := github.etag target head
  if etag = "" then s else { s with etag := Function.update s.etag target.key (some etag) }

/-- `latest_commit_sha`: a conditional request, whose answer leaves its ETag behind. -/
def PollerState.latestCommitSha (s : PollerState) (target : GitHubPollTarget) :
    GitHubOutcome → PollerState × LatestCommit
  | .raised => (s, .raised)
  | .status code => (s, if target.configured then .status code else .raised)
  | .head head =>
    if !target.configured then (s, .raised)
    else if (s.etag target.key).any fun etag => etag ≠ "" && etag = github.etag target head then
      -- 304 says nothing about a webhook that failed in an earlier cycle
      (s, .sha none)
    else (s.noteEtag github target head, .sha head)

/-- `emit_webhook` and the line after it; `none` when it raises. -/
def PollerState.emitWebhook (s : PollerState) (poll : TargetPoll) (sha : String) :
    Option PollerState :=
  if settings.image ≠ "" && poll.accepts then
    -- the sha is remembered only now, its ETag when GitHub answered
    some { s with
      lastSha := Function.update s.lastSha poll.target.key (some sha)
      accepted := s.accepted ++ [(poll.target, sha)] }
  else none

/-- How one target of a cycle ends. -/
inductive TargetEnd : Type where
  | done
  | targetError
  | raised
  deriving DecidableEq, Repr

/-- The loop body of `poll_once`. -/
def PollerState.pollTarget (s : PollerState) (poll : TargetPoll) : PollerState × TargetEnd :=
  match s.latestCommitSha github poll.target poll.outcome with
  | (s, .raised) => (s, .raised)
  | (s, .status code) => (s, if isTargetStatusError code then .targetError else .raised)
  | (s, .sha none) => (s, .done)
  | (s, .sha (some sha)) =>
    if s.lastSha poll.target.key = some sha then (s, .done)
    else
      match s.emitWebhook settings poll sha with
      | some s => (s, .done)
      | none => (s, .raised)

/-- The loop of `poll_once`; false when it raises. -/
def PollerState.pollTargets (s : PollerState) (failed : Bool) : List TargetPoll → PollerState × Bool
  | [] => (s, !(settings.once && failed))
  | poll :: polls =>
    match s.pollTarget github settings poll with
    | (s, .done) => s.pollTargets failed polls
    | (s, .targetError) => s.pollTargets true polls
    | (s, .raised) => (s, false)

def PollerState.pollOnce (s : PollerState) (cycle : List TargetPoll) : PollerState × Bool :=
  s.pollTargets github settings false cycle

/-! ## What the memories stand for -/

/-- What is remembered of these targets was delivered. -/
structure Remembers (targets : Set GitHubPollTarget) (s : PollerState) : Prop where
  lastSha : ∀ target ∈ targets, ∀ sha, s.lastSha target.key = some sha →
    (target, sha) ∈ s.accepted
  etag : ∀ target ∈ targets, ∀ sha, github.etag target (some sha) ≠ "" →
    s.etag target.key = some (github.etag target (some sha)) → (target, sha) ∈ s.accepted

/-- A webhook that fails, or cannot be sent, although the ETag of its head is already
remembered. -/
def LosesWebhook (s : PollerState) (poll : TargetPoll) : Prop :=
  ∃ sha, (s.latestCommitSha github poll.target poll.outcome).2 = .sha (some sha) ∧
    s.lastSha poll.target.key ≠ some sha ∧ github.etag poll.target (some sha) ≠ "" ∧
    (settings.image ≠ "" && poll.accepts) = false

/-- No poll of the cycle loses a webhook. -/
def KeepsWebhooks (s : PollerState) : List TargetPoll → Prop
  | [] => True
  | poll :: polls => ¬ LosesWebhook github settings s poll ∧
      ((s.pollTarget github settings poll).2 ≠ .raised →
        KeepsWebhooks (s.pollTarget github settings poll).1 polls)

variable {github settings} {targets : Set GitHubPollTarget} {s : PollerState}

theorem Remembers.empty : Remembers github targets PollerState.empty := by
  refine ⟨fun target _ sha h => ?_, fun target _ sha _ h => ?_⟩
  · cases h
  · cases h

theorem Remembers.noteEtag (h : Remembers github targets s)
    (hkeys : Set.InjOn GitHubPollTarget.key targets) {target : GitHubPollTarget}
    (htarget : target ∈ targets) {head : Option String}
    (hhead : ∀ sha, head = some sha → github.etag target (some sha) ≠ "" →
      (target, sha) ∈ s.accepted) :
    Remembers github targets (s.noteEtag github target head) := by
  simp only [PollerState.noteEtag]
  by_cases hetag : github.etag target head = ""
  · rw [if_pos hetag]
    exact h
  · rw [if_neg hetag]
    refine ⟨h.lastSha, fun other hother sha hne hremembered => ?_⟩
    by_cases hkey : other.key = target.key
    · -- targets that are polled do not share a key
      obtain rfl := hkeys hother htarget hkey
      dsimp only at hremembered
      rw [Function.update_self] at hremembered
      have hsame := github.etag_injective other head (some sha) hetag
        (Option.some.inj hremembered)
      exact hhead sha hsame hne
    · dsimp only at hremembered
      rw [Function.update_of_ne hkey] at hremembered
      exact h.etag other hother sha hne hremembered

theorem Remembers.emitWebhook (h : Remembers github targets s)
    (hkeys : Set.InjOn GitHubPollTarget.key targets) {poll : TargetPoll}
    (htarget : poll.target ∈ targets) (sha : String) :
    Remembers github targets
      { s with
        lastSha := Function.update s.lastSha poll.target.key (some sha)
        accepted := s.accepted ++ [(poll.target, sha)] } := by
  refine ⟨fun other hother sha' hremembered => ?_, fun other hother sha' hne hremembered => ?_⟩
  · by_cases hkey : other.key = poll.target.key
    · obtain rfl := hkeys hother htarget hkey
      dsimp only at hremembered
      rw [Function.update_self] at hremembered
      obtain rfl := Option.some.inj hremembered
      exact List.mem_append_right _ (List.mem_singleton.mpr rfl)
    · dsimp only at hremembered
      rw [Function.update_of_ne hkey] at hremembered
      exact List.mem_append_left _ (h.lastSha other hother sha' hremembered)
  · exact List.mem_append_left _ (h.etag other hother sha' hne hremembered)

/-! ## One target -/

/-- **What polling one target can do.** -/
inductive Polled (github : GitHubETags) (settings : PollerSettings) (s : PollerState)
    (poll : TargetPoll) : PollerState × TargetEnd → Prop
  | raised : Polled github settings s poll (s, .raised)
  | targetError (code : ℕ) (houtcome : poll.outcome = .status code) :
      Polled github settings s poll (s, .targetError)
  | notModified (head : Option String) (houtcome : poll.outcome = .head head)
      (hne : github.etag poll.target head ≠ "")
      (hetag : s.etag poll.target.key = some (github.etag poll.target head)) :
      Polled github settings s poll (s, .done)
  | noCommit (houtcome : poll.outcome = .head none) :
      Polled github settings s poll (s.noteEtag github poll.target none, .done)
  | seen (sha : String) (houtcome : poll.outcome = .head (some sha))
      (hseen : s.lastSha poll.target.key = some sha) :
      Polled github settings s poll (s.noteEtag github poll.target (some sha), .done)
  | delivered (sha : String) (houtcome : poll.outcome = .head (some sha)) :
      Polled github settings s poll
        (PollerState.noteEtag github
          { s with
            lastSha := Function.update s.lastSha poll.target.key (some sha)
            accepted := s.accepted ++ [(poll.target, sha)] } poll.target (some sha), .done)
  | lost (sha : String) (houtcome : poll.outcome = .head (some sha))
      (hlost : github.etag poll.target (some sha) ≠ "" → LosesWebhook github settings s poll) :
      Polled github settings s poll (s.noteEtag github poll.target (some sha), .raised)

/-- Remembering an ETag leaves the other memory alone. -/
theorem lastSha_noteEtag (target : GitHubPollTarget) (head : Option String) :
    (s.noteEtag github target head).lastSha = s.lastSha := by
  simp only [PollerState.noteEtag]
  split
  · rfl
  · rfl

theorem accepted_noteEtag (target : GitHubPollTarget) (head : Option String) :
    (s.noteEtag github target head).accepted = s.accepted := by
  simp only [PollerState.noteEtag]
  split
  · rfl
  · rfl

theorem noteEtag_delivered (target : GitHubPollTarget) (head : Option String)
    (lastSha : String → Option String) (accepted : List (GitHubPollTarget × String)) :
    { s.noteEtag github target head with lastSha := lastSha, accepted := accepted } =
      PollerState.noteEtag github { s with lastSha := lastSha, accepted := accepted } target
        head := by
  simp only [PollerState.noteEtag]
  split
  · rfl
  · rfl

theorem polled (s : PollerState) (poll : TargetPoll) :
    Polled github settings s poll (s.pollTarget github settings poll) := by
  rw [PollerState.pollTarget]
  rcases houtcome : poll.outcome with _ | code | head
  · exact .raised
  · rw [PollerState.latestCommitSha]
    by_cases hconfigured : poll.target.configured = true
    · rw [if_pos hconfigured]
      dsimp only
      by_cases hcode : isTargetStatusError code = true
      · rw [if_pos hcode]
        exact .targetError code houtcome
      · rw [if_neg hcode]
        exact .raised
    · rw [if_neg hconfigured]
      exact .raised
  · by_cases hconfigured : poll.target.configured = true
    · by_cases hetag : (s.etag poll.target.key).any (fun etag =>
          etag ≠ "" && etag = github.etag poll.target head) = true
      · -- 304: the ETag of the current head is remembered
        rw [PollerState.latestCommitSha, hconfigured, Bool.not_true, if_neg Bool.false_ne_true,
          if_pos hetag]
        rcases hremembered : s.etag poll.target.key with _ | etag
        · rw [hremembered] at hetag
          cases hetag
        · rw [hremembered, Option.any_some, Bool.and_eq_true] at hetag
          obtain rfl := of_decide_eq_true hetag.2
          exact .notModified head houtcome (of_decide_eq_true hetag.1) hremembered
      · have hlatest : s.latestCommitSha github poll.target (.head head) =
            (s.noteEtag github poll.target head, .sha head) := by
          rw [PollerState.latestCommitSha, hconfigured, Bool.not_true, if_neg Bool.false_ne_true,
            if_neg hetag]
        rw [hlatest]
        rcases head with _ | sha
        · exact .noCommit houtcome
        · dsimp only
          rw [lastSha_noteEtag]
          by_cases hseen : s.lastSha poll.target.key = some sha
          · rw [if_pos hseen]
            exact .seen sha houtcome hseen
          · rw [if_neg hseen, PollerState.emitWebhook]
            by_cases haccepts : (settings.image ≠ "" && poll.accepts) = true
            · rw [if_pos haccepts, lastSha_noteEtag, accepted_noteEtag, noteEtag_delivered]
              exact .delivered sha houtcome
            · rw [if_neg haccepts]
              refine .lost sha houtcome fun hne => ⟨sha, ?_, hseen, hne, ?_⟩
              · rw [houtcome, hlatest]
              · exact (Bool.not_eq_true _).mp haccepts
    · have hmisconfigured := (Bool.not_eq_true poll.target.configured).mp hconfigured
      rw [PollerState.latestCommitSha, hmisconfigured, Bool.not_false, if_pos rfl]
      exact .raised

/-- What polling one target keeps and achieves. -/
structure PollKept (github : GitHubETags) (targets : Set GitHubPollTarget) (s : PollerState)
    (poll : TargetPoll) (next : PollerState × TargetEnd) : Prop where
  remembers : Remembers github targets next.1
  accepted : s.accepted ⊆ next.1.accepted
  delivered : next.2 ≠ .raised → ∀ sha, poll.outcome = .head (some sha) →
    (poll.target, sha) ∈ next.1.accepted

/-- **A poll that loses no webhook keeps the memories right**, and the webhook of the head
it saw was accepted. -/
theorem Polled.kept {poll : TargetPoll} {next : PollerState × TargetEnd}
    (hpolled : Polled github settings s poll next) (h : Remembers github targets s)
    (hkeys : Set.InjOn GitHubPollTarget.key targets) (htarget : poll.target ∈ targets)
    (hok : ¬ LosesWebhook github settings s poll) : PollKept github targets s poll next := by
  cases hpolled with
  | raised => exact ⟨h, fun _ => id, fun hraised => absurd rfl hraised⟩
  | targetError code houtcome =>
    refine ⟨h, fun _ => id, fun _ sha hhead => ?_⟩
    rw [houtcome] at hhead
    cases hhead
  | notModified head houtcome hne hetag =>
    refine ⟨h, fun _ => id, fun _ sha hhead => ?_⟩
    rw [houtcome] at hhead
    obtain rfl := GitHubOutcome.head.inj hhead
    exact h.etag poll.target htarget sha hne hetag
  | noCommit houtcome =>
    refine ⟨h.noteEtag hkeys htarget nofun, ?_, fun _ sha hhead => ?_⟩
    · rw [accepted_noteEtag]
      exact fun _ => id
    · rw [houtcome] at hhead
      cases hhead
  | seen sha houtcome hseen =>
    have hdelivered := h.lastSha poll.target htarget sha hseen
    refine ⟨h.noteEtag hkeys htarget fun sha' hhead _ => ?_, ?_, fun _ sha' hhead => ?_⟩
    · obtain rfl := Option.some.inj hhead
      exact hdelivered
    · rw [accepted_noteEtag]
      exact fun _ => id
    · rw [houtcome] at hhead
      obtain rfl := Option.some.inj (GitHubOutcome.head.inj hhead)
      rw [accepted_noteEtag]
      exact hdelivered
  | delivered sha houtcome =>
    have hdelivered : (poll.target, sha) ∈ s.accepted ++ [(poll.target, sha)] :=
      List.mem_append_right _ (List.mem_singleton.mpr rfl)
    refine ⟨(h.emitWebhook hkeys htarget sha).noteEtag hkeys htarget fun sha' hhead _ => ?_, ?_,
      fun _ sha' hhead => ?_⟩
    · obtain rfl := Option.some.inj hhead
      exact hdelivered
    · rw [accepted_noteEtag]
      exact List.subset_append_left _ _
    · rw [houtcome] at hhead
      obtain rfl := Option.some.inj (GitHubOutcome.head.inj hhead)
      rw [accepted_noteEtag]
      exact hdelivered
  | lost sha houtcome hlost =>
    -- without an ETag nothing is remembered, so that the next cycle sends the webhook again
    refine ⟨h.noteEtag hkeys htarget fun sha' hhead hne => ?_, ?_,
      fun hraised => absurd rfl hraised⟩
    · obtain rfl := Option.some.inj hhead
      exact absurd (hlost hne) hok
    · rw [accepted_noteEtag]
      exact fun _ => id

/-! ## Cycles -/

/-- The head of every target that GitHub answered for in the cycle was delivered. -/
def Delivers (s : PollerState) (cycle : List TargetPoll) : Prop :=
  ∀ poll ∈ cycle, ∀ sha, poll.outcome = .head (some sha) → (poll.target, sha) ∈ s.accepted

/-- **A cycle that loses no webhook** keeps the memories right, and when it ends without an
exception it has delivered every head. -/
theorem pollTargets_kept (hkeys : Set.InjOn GitHubPollTarget.key targets)
    {cycle : List TargetPoll} (hcycle : ∀ poll ∈ cycle, poll.target ∈ targets) (failed : Bool)
    (h : Remembers github targets s) (hok : KeepsWebhooks github settings s cycle) :
    Remembers github targets (s.pollTargets github settings failed cycle).1 ∧
      s.accepted ⊆ (s.pollTargets github settings failed cycle).1.accepted ∧
      ((s.pollTargets github settings failed cycle).2 = true →
        Delivers (s.pollTargets github settings failed cycle).1 cycle) := by
  induction cycle generalizing s failed with
  | nil => exact ⟨h, fun _ => id, fun _ poll hpoll => absurd hpoll List.not_mem_nil⟩
  | cons poll cycle ih =>
    obtain ⟨hkeeps, hrest⟩ := hok
    have hkept := (polled s poll).kept h hkeys (hcycle poll List.mem_cons_self) hkeeps
    have hcycle := fun p hp => hcycle p (List.mem_cons_of_mem _ hp)
    have hrun : ∀ next failed, PollKept github targets s poll (next, .done) →
        KeepsWebhooks github settings next cycle →
        Remembers github targets (next.pollTargets github settings failed cycle).1 ∧
          s.accepted ⊆ (next.pollTargets github settings failed cycle).1.accepted ∧
          ((next.pollTargets github settings failed cycle).2 = true →
            Delivers (next.pollTargets github settings failed cycle).1 (poll :: cycle)) := by
      intro next failed hkept hrest
      obtain ⟨hremembers, haccepted, hdelivers⟩ := ih hcycle failed hkept.remembers hrest
      refine ⟨hremembers, fun _ h => haccepted (hkept.accepted h), fun hdone p hp sha hhead => ?_⟩
      rcases List.mem_cons.mp hp with rfl | hp
      · exact haccepted (hkept.delivered nofun sha hhead)
      · exact hdelivers hdone p hp sha hhead
    rw [PollerState.pollTargets]
    rcases hend : s.pollTarget github settings poll with ⟨next, _ | _ | _⟩
    · rw [hend] at hkept hrest
      exact hrun next failed hkept (hrest nofun)
    · rw [hend] at hkept hrest
      exact hrun next true ⟨hkept.remembers, hkept.accepted, fun _ => hkept.delivered nofun⟩
        (hrest nofun)
    · rw [hend] at hkept
      exact ⟨hkept.remembers, hkept.accepted, nofun⟩

variable (github settings) in
/-- One cycle as a step of the process. -/
def cycleStep (s : PollerState) (cycle : List TargetPoll) : PollerState :=
  (s.pollOnce github settings cycle).1

/-- The targets of some cycles. -/
def targetsOf (cycles : List (List TargetPoll)) : Set GitHubPollTarget :=
  {target | ∃ cycle ∈ cycles, ∃ poll ∈ cycle, poll.target = target}

/-- ETags that are the shas themselves. -/
def plainETags : GitHubETags where
  etag _ head := head.getD ""
  etag_injective _ head head' hne heq := by
    rcases head with _ | sha
    · exact absurd rfl hne
    · rcases head' with _ | sha'
      · exact absurd heq hne
      · exact congrArg some heq

/-- A target with one new commit. -/
def newCommitPoll (accepts : Bool) : TargetPoll where
  target := ⟨"w", "r", "o/r", "main", "t", "b", "a", "dev", "c", "k8s", "", "", true⟩
  outcome := .head (some "c1")
  accepts := accepts

end Opsia.Gitops
