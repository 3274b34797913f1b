import Opsia.Command.Consistency

/-!
# Delivering `command.requested`

`domains/command/handler.py`: the worker turns a request into a plan, queues it,
and closes the operation when the queue refuses it. The two repository calls are
two transactions, with any transactions of other processes between them.

`queue_agent_command` answers `False` for a duplicate as for a refusal, so the
second transaction of a duplicate delivery closes a command that is still queued.
`delivery_unchanged_iff` is the exact condition under which a duplicate delivery
changes nothing.
-/

namespace Opsia

open PyText Runs

/-! ## The request and its plan -/

/-- `CommandRequestedBody`, the fields the plan and the repository use. -/
structure CommandRequestedBody : Type where
  commandId : Option String
  workspaceId : String
  clusterId : String
  action : String
  priority : Option ℤ
  directExecution : Bool
  deriving DecidableEq, Repr

/-- `CommandConfig`, with the digest of `idempotency_key`. -/
structure CommandConfig : Type where
  defaultClusterId : String
  defaultCommandAction : String
  /-- the SHA-256 digest of the request, as a hexadecimal text -/
  idempotencyKey : CommandRequestedBody → String → String

/-- Python's `value or default` on texts. -/
def orDefault (value default : String) : String := if value = "" then default else value

def buildPlan (config : CommandConfig) (catalog : CommandCatalog) (command : CommandRequestedBody)
    (correlationId : String) : Plan :=
  let key := config.idempotencyKey command correlationId
  let action := orDefault command.action config.defaultCommandAction
  let actionSpec := commandActionSpec catalog action
  let priority := command.priority.getD 0
  { commandId := orDefault (command.commandId.getD "")
      ("cmd-" ++ String.ofList (key.toList.take 32))
    workspaceId := some command.workspaceId
    clusterId := orDefault command.clusterId config.defaultClusterId
    action
    priority := some (max commandPriorityHigh (if priority = 0 then commandPriorityHigh
      else priority))
    retryPolicy := some
      { maxAttempts := .value (match actionSpec with
          | some spec => if spec.supportsManualRetry then spec.maxAttempts else 1
          | none => 1)
        retryDelaySeconds := .value (match actionSpec with
          | some spec => spec.retryDelaySeconds
          | none => 0) }
    directExecution := command.directExecution }

/-! ## The handler -/

/-- One delivery of a request that passes policy: the clocks of its two
transactions, and what other processes commit between them. -/
structure Delivery : Type where
  command : CommandRequestedBody
  correlationId : String
  queuedAt : Timestamp
  between : List Op
  closedAt : Timestamp
  deriving DecidableEq, Repr

/-- What the handler yields after `command.dispatched`. -/
inductive DeliveryOutcome : Type where
  /-- `CommandQueuedForAgentBody` -/
  | queued
  /-- `CommandRejectedBody` -/
  | rejected (reason : String)
  /-- the handler raises -/
  | raised (error : TxError)
  deriving DecidableEq, Repr

/-- The stores a delivery passes through: after the queue transaction, before the
closing transaction, and at the end. -/
structure DeliveryRun : Type where
  outcome : DeliveryOutcome
  afterQueue : Store
  beforeClose : Store
  final : Store

/-- `handle_command_requested` past its policy checks: `queue_plan_for_agent`, and
`close_operation` when the plan was not inserted. -/
def handleCommandRequested (config : CommandConfig) (catalog : CommandCatalog) (s : Store)
    (d : Delivery) : DeliveryRun :=
  let plan := buildPlan config catalog d.command d.correlationId
  match queueAgentCommand s d.queuedAt d.correlationId plan with
  | .error e => ⟨.raised e, s, s, s⟩
  | .ok (true, s₁) => ⟨.queued, s₁, s₁, s₁⟩
  | .ok (false, s₁) =>
    let s₂ := run (step catalog) s₁ d.between
    match failLogicalCommandAndStageEvent s₂ d.closedAt plan.workspace plan.commandId
      plan.clusterId "agent command could not be queued" with
    | .error e => ⟨.raised e, s₁, s₂, s₂⟩
    | .ok (_, s₃) => ⟨.rejected "agent command could not be queued", s₁, s₂, s₃⟩

/-! ## A duplicate delivery -/

/-- The row, the attempts and the operation streams of a command are the same. -/
def SameCommand (s s' : Store) (c : String) : Prop :=
  s'.view c = s.view c ∧ ∀ w, s'.streamEvents (w, c) = s.streamEvents (w, c)

/-- The two transactions of the delivery leave the command alone. -/
def DeliveryUnchanged (s : Store) (r : DeliveryRun) (c : String) : Prop :=
  SameCommand s r.afterQueue c ∧ SameCommand r.beforeClose r.final c

/-- The closing transaction of the delivery meets the command still queued, under
the workspace and the cluster of the plan. -/
def ClosesQueued (config : CommandConfig) (catalog : CommandCatalog) (s : Store)
    (d : Delivery) : Prop :=
  let plan := buildPlan config catalog d.command d.correlationId
  plan.action ≠ rcaTestScenarioInjectAction ∧
    ∃ r, (run (step catalog) s d.between).commands.find? plan.commandId = some r ∧
      r.rejectable plan.workspace plan.clusterId = true ∧ r.Identified

theorem sameCommand_refl (s : Store) (c : String) : SameCommand s s c := ⟨rfl, fun _ => rfl⟩

theorem queue_projected {s : Store} {plan : Plan} {r : AgentCommand}
    (hr : s.commands.find? plan.commandId = some r) (hactive : r.activeAttemptId.isSome = true)
    (haction : plan.action ≠ rcaTestScenarioInjectAction) (now : Timestamp)
    (correlationId : String) :
    queueAgentCommand s now correlationId plan = .ok (false, s) := by
  have hprojected : r.unprojected = false := by
    obtain ⟨aid, haid⟩ := Option.isSome_iff_exists.mp hactive
    simp [AgentCommand.unprojected, haid]
  have hupsert : agentCommandQueueUpsert s now correlationId plan s.nextId = none := by
    rw [agentCommandQueueUpsert, hr]
    simp only [hprojected]
    rfl
  rw [queueAgentCommand, if_neg haction, hupsert]

/-- The closing transaction changes the command exactly when it meets it queued. -/
theorem failLogical_unchanged_iff {s : Store} (hs : StoreInv s) (now : Timestamp)
    (workspaceId commandId clusterId reason : String) :
    SameCommand s ((failLogicalCommandAndStageEvent s now workspaceId commandId clusterId
        reason).commit s) commandId ↔
      ¬ ∃ r, s.commands.find? commandId = some r ∧ r.rejectable workspaceId clusterId = true ∧
        r.Identified := by
  constructor
  · rintro ⟨hview, -⟩ ⟨r, hr, hreject, hw, hc, hcl⟩
    obtain ⟨hrw, hrcl, hqueued⟩ := AgentCommand.rejectable_iff.mp hreject
    rw [hrw] at hw
    rw [Table.key_of_find? hr] at hc
    rw [hrcl] at hcl
    have hstreams : ∀ k, StreamInv
        { s with
          commands := s.commands.modify commandId (·.reject reason now)
            fun r => r.commandId_reject reason now } k := fun k => (hs.streams k).congr rfl rfl
    have hevent : strip (OperationPayload.clusterId
        { clusterId, status := some .failed, correlationId := some r.correlationId,
          result := some (rejectionResult reason) }) ≠ "" := hcl
    obtain ⟨event, s', hstage⟩ := stage_succeeds hstreams hw hc hevent now .failed
    have hok : failLogicalCommandAndStageEvent s now workspaceId commandId clusterId reason =
        .ok (event, s') := by
      rw [failLogicalCommandAndStageEvent, hr, Option.filter_some, if_pos hreject]
      exact hstage
    have hfailed : s'.commands.find? commandId = some (r.reject reason now) := by
      rw [(stage_frame hstage).1, Table.find?_modify_self, hr]
      rfl
    -- the row was queued and is failed now
    rw [hok, Tx.commit_ok] at hview
    have hrow : some (r.reject reason now) = some r :=
      hfailed.symm.trans ((congrArg CommandView.row hview).trans hr)
    have hstatus := congrArg AgentCommand.status (Option.some.inj hrow)
    rw [hqueued] at hstatus
    cases hstatus
  · intro hnot
    rcases hok : failLogicalCommandAndStageEvent s now workspaceId commandId clusterId reason with
      e | ⟨event, s'⟩
    · exact sameCommand_refl s commandId
    · rw [Tx.commit_ok]
      rcases failLogical_cases hok with ⟨rfl, -⟩ | ⟨r, hr, hreject, hstage⟩
      · exact sameCommand_refl s' commandId
      · obtain ⟨hrw, hrcl, -⟩ := AgentCommand.rejectable_iff.mp hreject
        obtain ⟨hw, hc, hcl⟩ := (stage_cases hstage).1
        refine absurd ⟨r, hr, hreject, ?_⟩ hnot
        exact ⟨by rw [hrw]; exact hw, by rw [Table.key_of_find? hr]; exact hc,
          by rw [hrcl]; exact hcl⟩

/-- **Duplicate deliveries.** In every reachable store a further delivery of a
projected command leaves its row, attempts and streams unchanged, unless the
closing transaction of the delivery meets the command still queued; and then it
never does. -/
theorem delivery_unchanged_iff (config : CommandConfig) (catalog : CommandCatalog)
    (ops : List Op) (d : Delivery) (r : AgentCommand)
    (hr : (run (step catalog) Store.empty ops).commands.find?
      (buildPlan config catalog d.command d.correlationId).commandId = some r)
    (hprojected : r.activeAttemptId.isSome = true) :
    DeliveryUnchanged (run (step catalog) Store.empty ops)
        (handleCommandRequested config catalog (run (step catalog) Store.empty ops) d)
        (buildPlan config catalog d.command d.correlationId).commandId ↔
      ¬ ClosesQueued config catalog (run (step catalog) Store.empty ops) d := by
  have hinv : StoreInv (run (step catalog) (run (step catalog) Store.empty ops) d.between) :=
    run_invariant (step_inv catalog) (reachable_inv catalog ops) d.between
  rw [handleCommandRequested, ClosesQueued]
  generalize hplan : buildPlan config catalog d.command d.correlationId = plan at hr ⊢
  by_cases haction : plan.action = rcaTestScenarioInjectAction
  · -- the queue raises before anything is written
    have herror : queueAgentCommand (run (step catalog) Store.empty ops) d.queuedAt
        d.correlationId plan = .error (.valueError
          "RCA test inject commands require the atomic reservation guard") := by
      rw [queueAgentCommand, if_pos haction]
    simp only [herror]
    exact ⟨fun _ h => h.1 haction, fun _ => ⟨sameCommand_refl _ _, sameCommand_refl _ _⟩⟩
  · have hqueue := queue_projected hr hprojected haction d.queuedAt d.correlationId
    have hclose := failLogical_unchanged_iff hinv d.closedAt plan.workspace plan.commandId
      plan.clusterId "agent command could not be queued"
    simp only [hqueue]
    rcases hok : failLogicalCommandAndStageEvent
        (run (step catalog) (run (step catalog) Store.empty ops) d.between) d.closedAt
        plan.workspace plan.commandId plan.clusterId "agent command could not be queued" with
      e | ⟨event, s₃⟩ <;> rw [hok] at hclose <;>
      exact ⟨fun h hq => hclose.mp h.2 hq.2,
        fun h => ⟨sameCommand_refl _ _, hclose.mpr fun hq => h ⟨haction, hq⟩⟩⟩

/-! ## A redelivery before the first lease -/

/-- The default configuration, with a constant digest. -/
def defaultConfig : CommandConfig where
  defaultClusterId := "default-target-cluster"
  defaultCommandAction := "rollout_restart"
  idempotencyKey := fun _ _ => "0"

/-- The request of the restart. -/
def restartRequest : CommandRequestedBody where
  commandId := some "cmd-1"
  workspaceId := "ws-1"
  clusterId := "cluster-1"
  action := "rollout_restart"
  priority := none
  directExecution := false

/-- The request is delivered again while the command waits for its agent. -/
def redelivery (between : List Op) : Delivery := ⟨restartRequest, "corr-1", 1, between, 1⟩

/-- A redelivery closes the queued command. -/
theorem redelivery_closes_queued :
    ¬ ∀ (config : CommandConfig) (catalog : CommandCatalog) (ops : List Op) (d : Delivery)
        (r : AgentCommand),
      (run (step catalog) Store.empty ops).commands.find?
          (buildPlan config catalog d.command d.correlationId).commandId = some r →
        r.activeAttemptId.isSome = true →
        DeliveryUnchanged (run (step catalog) Store.empty ops)
          (handleCommandRequested config catalog (run (step catalog) Store.empty ops) d)
          (buildPlan config catalog d.command d.correlationId).commandId := by
  intro h
  have hbefore : ((run (step restartCatalog) Store.empty
      [.queue 0 "corr-1" restartPlan]).commands.find? "cmd-1").any
      (fun r => r.activeAttemptId.isSome && r.status = .queued) = true := by decide
  have hafter : ((handleCommandRequested defaultConfig restartCatalog
      (run (step restartCatalog) Store.empty [.queue 0 "corr-1" restartPlan])
      (redelivery [])).final.commands.find? "cmd-1").any (fun r => r.status = .failed) = true := by
    decide
  obtain ⟨r, hr, hqueued⟩ := (Option.any_eq_true _ _).mp hbefore
  obtain ⟨r', hr', hfailed⟩ := (Option.any_eq_true _ _).mp hafter
  rw [Bool.and_eq_true] at hqueued
  have hsame := (h defaultConfig restartCatalog [.queue 0 "corr-1" restartPlan] (redelivery []) r
    hr hqueued.1).2.1
  have hrow : some r' = some r := hr'.symm.trans ((congrArg CommandView.row hsame).trans hr)
  rw [← Option.some.inj hrow, of_decide_eq_true hfailed] at hqueued
  cases of_decide_eq_true hqueued.2

/-- A redelivery during which an agent leases the command changes nothing. -/
theorem redelivery_after_lease :
    DeliveryUnchanged (run (step restartCatalog) Store.empty [.queue 0 "corr-1" restartPlan])
      (handleCommandRequested defaultConfig restartCatalog
        (run (step restartCatalog) Store.empty [.queue 0 "corr-1" restartPlan])
        (redelivery [.lease ⟨1, 1, "cluster-1", "ws-1", "agent-1", 60, []⟩])) "cmd-1" := by
  have hbefore : ((run (step restartCatalog) Store.empty
      [.queue 0 "corr-1" restartPlan]).commands.find? "cmd-1").any
      (fun r => r.activeAttemptId.isSome) = true := by decide
  obtain ⟨r, hr, hprojected⟩ := (Option.any_eq_true _ _).mp hbefore
  refine (delivery_unchanged_iff defaultConfig restartCatalog _
    (redelivery [.lease ⟨1, 1, "cluster-1", "ws-1", "agent-1", 60, []⟩]) r hr hprojected).mpr ?_
  rintro ⟨-, x, hx, hreject, -⟩
  have hleased : ((run (step restartCatalog)
      (run (step restartCatalog) Store.empty [.queue 0 "corr-1" restartPlan])
      [.lease ⟨1, 1, "cluster-1", "ws-1", "agent-1", 60, []⟩]).commands.find? "cmd-1").all
      (fun r => r.status = .leased) = true := by decide
  rw [Option.all_eq_true] at hleased
  rw [AgentCommand.rejectable_iff, of_decide_eq_true (hleased x hx)] at hreject
  cases hreject.2.2

end Opsia
