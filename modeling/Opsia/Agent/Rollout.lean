import Mathlib.Data.Int.Notation
import Mathlib.Data.List.Count
import Mathlib.Tactic.Common

/-!
# When a rollout is ready

`deployment_rollout_status` of the cluster agent reads the counters that Kubernetes publishes with
a Deployment, and `wait_for_deployment_rollout` polls until it is ready. The counters of ready and
available Pods do not tell old Pods from new ones, and a Deployment that is scaled to zero is ready
whatever generation was observed: these are the Deployments that are misjudged
(`ready_is_complete_iff`).
-/

namespace Opsia.Agent

/-! ## The Deployment and what is published of it -/

structure Pod where
  /-- of the current template -/
  isNew : Bool
  ready : Bool
  available : Bool

structure DeploymentCondition where
  type : String
  status : Option String
  deriving DecidableEq

/-- The counters of a status. -/
structure Counters where
  updatedReplicas : ℕ
  readyReplicas : ℕ
  availableReplicas : ℕ

def countersOf (pods : List Pod) : Counters where
  updatedReplicas := pods.countP Pod.isNew
  readyReplicas := pods.countP Pod.ready
  availableReplicas := pods.countP Pod.available

/-- A Deployment; the status of a generation that was observed counts its Pods. -/
structure Deployment where
  name : String
  specReplicas : Option ℕ
  generation : ℕ
  observedGeneration : ℕ
  pods : List Pod
  counters : Counters
  conditions : List DeploymentCondition
  observed_le : observedGeneration ≤ generation
  counted : observedGeneration = generation → counters = countersOf pods

/-- The document of a Deployment, as far as it is read; a number that is zero is not there. -/
structure DeploymentBody where
  name : Option String
  generation : Option ℤ
  replicas : Option ℤ
  observedGeneration : Option ℤ
  updatedReplicas : Option ℤ
  readyReplicas : Option ℤ
  availableReplicas : Option ℤ
  conditions : Option (List DeploymentCondition)

/-- A number in a document. -/
def published (n : ℕ) : Option ℤ := if n = 0 then none else some n

def Deployment.body (deployment : Deployment) : DeploymentBody where
  name := some deployment.name
  generation := published deployment.generation
  replicas := deployment.specReplicas.map Nat.cast
  observedGeneration := published deployment.observedGeneration
  updatedReplicas := published deployment.counters.updatedReplicas
  readyReplicas := published deployment.counters.readyReplicas
  availableReplicas := published deployment.counters.availableReplicas
  conditions := some deployment.conditions

/-! ## The judgement -/

/-- What `deployment_rollout_status` returns. -/
structure RolloutStatus where
  resource : String
  ready : Bool
  desiredReplicas : ℤ
  updatedReplicas : ℤ
  readyReplicas : ℤ
  availableReplicas : ℤ
  observedGeneration : ℤ
  generation : ℤ
  conditions : List DeploymentCondition

def deploymentCondition (conditions : List DeploymentCondition) (conditionType : String) :
    Option DeploymentCondition :=
  conditions.find? fun condition => condition.type = conditionType

def conditionStatus (condition : Option DeploymentCondition) : String :=
  (condition.bind DeploymentCondition.status).getD ""

def deploymentRolloutStatus (body : DeploymentBody) : RolloutStatus :=
  let name := body.name.getD ""
  let desired := body.replicas.getD 1
  let generation := body.generation.getD 0
  let observed := body.observedGeneration.getD 0
  let updated := body.updatedReplicas.getD 0
  let readyReplicas := body.readyReplicas.getD 0
  let available := body.availableReplicas.getD 0
  let conditionList := body.conditions.getD []
  let progressing := deploymentCondition conditionList "Progressing"
  let availableCondition := deploymentCondition conditionList "Available"
  let ready := desired = 0 ∨ (generation ≤ observed ∧ desired ≤ updated ∧
    desired ≤ readyReplicas ∧ desired ≤ available ∧ conditionStatus progressing ≠ "False" ∧
    conditionStatus availableCondition ≠ "False")
  { resource := if name = "" then "deployment" else "deployment/" ++ name
    ready := ready
    desiredReplicas := desired
    updatedReplicas := updated
    readyReplicas := readyReplicas
    availableReplicas := available
    observedGeneration := observed
    generation := generation
    conditions := conditionList }

/-- What a poll answers, and whether the deadline has passed after it. -/
structure Poll where
  /-- a document, something that is no document, or an error -/
  response : Option DeploymentBody ⊕ String
  expired : Bool

/-- The status that is reported at the end of a wait. -/
inductive Reported where
  | nothing
  /-- there was no wait, and `ready` is `None` -/
  | notWaited
  | rollout (status : RolloutStatus)
  | error (message : String)

def Reported.ready : Reported → Bool
  | .rollout status => status.ready
  | .nothing | .notWaited | .error _ => false

/-- The last status after an answer. -/
def Poll.reported (poll : Poll) (last : Reported) : Reported :=
  match poll.response with
  | .inl (some body) => .rollout (deploymentRolloutStatus body)
  | .inl none => last
  | .inr message => .error message

/-- The loop of the wait; none while it goes on. -/
def waitLoop (last : Reported) : List Poll → Option (Bool × Reported)
  | [] => none
  | poll :: polls =>
    let reported := poll.reported last
    match poll.response with
    | .inl (some body) =>
      if (deploymentRolloutStatus body).ready then some (true, reported)
      else if poll.expired then some (false, reported) else waitLoop reported polls
    | _ => if poll.expired then some (false, reported) else waitLoop reported polls

/-- `wait_for_deployment_rollout`: whether it succeeds, and the status. -/
def waitForDeploymentRollout (timeout : ℤ) (polls : List Poll) : Option (Bool × Reported) :=
  if timeout ≤ 0 then some (true, .notWaited) else waitLoop .nothing polls

/-! ## When a rollout is complete -/

namespace Deployment

variable (deployment : Deployment)

def desired : ℕ := deployment.specReplicas.getD 1

/-- The new Pods that are available. -/
def newAvailable : ℕ := deployment.pods.countP fun pod => pod.isNew && pod.available

/-- The old Pods that are. -/
def oldAvailable : ℕ := deployment.pods.countP fun pod => !pod.isNew && pod.available

/-- The current generation is observed, and as many new Pods as desired are available. -/
def Complete : Prop :=
  deployment.observedGeneration = deployment.generation ∧
    deployment.desired ≤ deployment.newAvailable

/-- Nothing is desired, and the controller has not seen this yet. -/
def ZeroUnobserved : Prop :=
  deployment.desired = 0 ∧ deployment.observedGeneration < deployment.generation

/-- Too few new Pods are available, old ones make up for them, and nothing else is amiss: there are
enough new Pods and enough ready ones, and no condition is false. -/
def OldMakeUp : Prop :=
  deployment.observedGeneration = deployment.generation ∧
    deployment.newAvailable < deployment.desired ∧
    deployment.desired ≤ deployment.newAvailable + deployment.oldAvailable ∧
    deployment.desired ≤ (countersOf deployment.pods).updatedReplicas ∧
    deployment.desired ≤ (countersOf deployment.pods).readyReplicas ∧
    ∀ conditionType ∈ ["Progressing", "Available"],
      conditionStatus (deploymentCondition deployment.conditions conditionType) ≠ "False"

variable {deployment}

theorem published_getD (n : ℕ) : (published n).getD 0 = n := by
  rw [published]
  split
  next h => rw [h]; rfl
  next => rfl

theorem desired_body : deployment.body.replicas.getD 1 = deployment.desired := by
  rw [body, desired]
  cases deployment.specReplicas <;> rfl

theorem availableReplicas_countersOf : (countersOf deployment.pods).availableReplicas =
    deployment.newAvailable + deployment.oldAvailable := by
  rw [countersOf, newAvailable, oldAvailable]
  induction deployment.pods with
  | nil => rfl
  | cons pod pods ih =>
    simp only [List.countP_cons] at ih ⊢
    cases pod.isNew <;> cases pod.available <;> simp <;> omega

theorem ready_iff : (deploymentRolloutStatus deployment.body).ready = true ↔
    deployment.desired = 0 ∨ (deployment.observedGeneration = deployment.generation ∧
      deployment.desired ≤ (countersOf deployment.pods).updatedReplicas ∧
      deployment.desired ≤ (countersOf deployment.pods).readyReplicas ∧
      deployment.desired ≤ (countersOf deployment.pods).availableReplicas ∧
      ∀ conditionType ∈ ["Progressing", "Available"],
        conditionStatus (deploymentCondition deployment.conditions conditionType) ≠ "False") := by
  rw [deploymentRolloutStatus]
  simp only [desired_body, decide_eq_true_eq, List.forall_mem_cons, List.not_mem_nil, IsEmpty.forall_iff,
    implies_true, and_true]
  have hobserved : (deployment.body.generation.getD 0 ≤ deployment.body.observedGeneration.getD 0) ↔
      deployment.observedGeneration = deployment.generation := by
    rw [body]
    simp only [published_getD]
    have := deployment.observed_le
    omega
  rw [hobserved]
  simp only [body, published_getD, Option.getD_some, Int.ofNat_le, Int.natCast_eq_zero]
  refine or_congr_right (and_congr_right fun heq => ?_)
  rw [deployment.counted heq]

end Deployment

theorem ready_of_waitLoop {last reported : Reported} {polls : List Poll}
    (h : waitLoop last polls = some (true, reported)) : reported.ready = true := by
  induction polls generalizing last with
  | nil => exact absurd h nofun
  | cons poll polls ih =>
    have hgoesOn {next : Reported}
        (h : (if poll.expired then some (false, next) else waitLoop next polls) =
          some (true, reported)) : reported.ready = true := by
      split at h
      · exact absurd (Prod.mk.inj (Option.some.inj h)).1 nofun
      · exact ih h
    rw [waitLoop] at h
    split at h
    next body hbody =>
      by_cases hready : (deploymentRolloutStatus body).ready = true
      · rw [if_pos hready] at h
        obtain ⟨-, rfl⟩ := Prod.mk.inj (Option.some.inj h)
        rw [Poll.reported, hbody]
        exact hready
      · rw [if_neg hready] at h
        exact hgoesOn h
    next => exact hgoesOn h

/-- What is reported of a Deployment, by one look or at the end of a wait, is right. -/
structure Trustworthy (deployment : Deployment) : Prop where
  status : (deploymentRolloutStatus deployment.body).ready = true → deployment.Complete
  wait : ∀ timeout polls, waitForDeploymentRollout timeout polls =
    some (true, .rollout (deploymentRolloutStatus deployment.body)) → deployment.Complete

/-- A Deployment that is reported ready is complete unless it is of one of the two kinds. -/
theorem trustworthy_iff (deployment : Deployment) :
    Trustworthy deployment ↔ ¬deployment.ZeroUnobserved ∧ ¬deployment.OldMakeUp := by
  constructor
  · refine fun h => ⟨fun hzero => ?_, fun hold => ?_⟩
    · have hcomplete := h.status (Deployment.ready_iff.mpr (.inl hzero.1))
      exact absurd hcomplete.1 (Nat.ne_of_lt hzero.2)
    · obtain ⟨hobserved, hfew, hmakeUp, hupdated, hready, hconditions⟩ := hold
      have hcomplete := h.status (Deployment.ready_iff.mpr (.inr ⟨hobserved, hupdated, hready,
        Deployment.availableReplicas_countersOf ▸ hmakeUp, hconditions⟩))
      exact absurd hcomplete.2 (Nat.not_le.mpr hfew)
  · rintro ⟨hzero, hold⟩
    have hstatus : (deploymentRolloutStatus deployment.body).ready = true →
        deployment.Complete := by
      intro hready
      rcases Deployment.ready_iff.mp hready with
        hdesired | ⟨hobserved, hupdated, hreadyPods, havailable, hconditions⟩
      · have hle := deployment.observed_le
        refine ⟨?_, by omega⟩
        by_contra hne
        exact hzero ⟨hdesired, by omega⟩
      · refine ⟨hobserved, ?_⟩
        by_contra hfew
        refine hold ⟨hobserved, Nat.not_le.mp hfew, ?_, hupdated, hreadyPods, hconditions⟩
        rwa [← Deployment.availableReplicas_countersOf]
    refine ⟨hstatus, fun timeout polls h => hstatus ?_⟩
    rw [waitForDeploymentRollout] at h
    split at h
    · exact absurd (Prod.mk.inj (Option.some.inj h)).2 nofun
    · exact ready_of_waitLoop h

/-- One replica in the middle of a rolling update: the old Pod serves, the new one is not ready. -/
def midRollout : Deployment where
  name := "shop"
  specReplicas := some 1
  generation := 2
  observedGeneration := 2
  pods := [⟨false, true, true⟩, ⟨true, false, false⟩]
  counters := ⟨1, 1, 1⟩
  conditions := [⟨"Progressing", some "True"⟩, ⟨"Available", some "True"⟩]
  observed_le := Nat.le_refl 2
  counted _ := rfl

/-- The rollout is reported as ready, and no new Pod is available. -/
theorem ready_too_soon : ¬Trustworthy midRollout :=
  fun h => absurd (h.status (by decide)).2 (by decide)

end Opsia.Agent
