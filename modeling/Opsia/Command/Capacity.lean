import Opsia.Command.Conformance

/-!
# The capacity of an action

A command may be accepted within a capacity: `max_active_per_action` bounds the
active commands of one workspace, cluster and action. The count is taken under an
advisory lock by the acceptance (`stageLogicalCommandAcceptance`), and by nothing
else, although a manual retry makes a failed command active again.

So the bound is an invariant of the runs in which no retry is accepted for a key
that is full. The program sees to that with its catalogue: the four actions it
accepts with a capacity (`cappedActions`) are registered without manual retry
(`not_retriesAtCapacity_of_capped`).
-/

namespace Opsia

open Runs

/-! ## The built-in catalogue -/

/-- The default of `DEFAULT_COMMAND_RETRY_MAX_ATTEMPTS`. -/
def defaultCommandRetryMaxAttempts : ℤ := 3

/-- The default of `DEFAULT_COMMAND_RETRY_DELAY_SECONDS`. -/
def defaultCommandRetryDelaySeconds : ℤ := 5

/-- A registration with `supports_manual_retry=True` and the default policy. -/
def CommandActionSpec.retryable (action : String) : CommandActionSpec where
  action := action
  supportsManualRetry := true
  maxAttempts := defaultCommandRetryMaxAttempts
  retryDelaySeconds := defaultCommandRetryDelaySeconds

def serviceHttpRequestAction : String := "service.http.request"

def resourceFileAction : String := "resource.files.read"

def helmReleaseArtifactReadAction : String := "helm.release.artifact.read"

def helmValuesPreviewAction : String := "helm.release.values.preview"

/-- `domains/command/builtin_actions.py`: the registrations, in order. -/
def builtinCommandCatalog : CommandCatalog :=
  [.retryable "rollout_restart",
    .retryable "apply_manifest",
    .retryable "catalog.helm.install",
    { action := "helm.release.operation" },
    .retryable "k8s.apps.v1.deployments.scale",
    .retryable "k8s.apps.v1.statefulsets.scale",
    .retryable "k8s.apps.v1.statefulsets.restart",
    .retryable "k8s.apps.v1.daemonsets.restart",
    .retryable "k8s.core.v1.nodes.cordon",
    .retryable "k8s.core.v1.nodes.uncordon",
    { action := "k8s.core.v1.nodes.drain" },
    { action := "k8s.core.v1.pods.debug" },
    { action := "k8s.core.v1.nodes.debug" },
    { action := "k8s.core.v1.nodes.debug.cleanup" },
    .retryable "k8s.batch.v1.cronjobs.trigger",
    .retryable "k8s.batch.v1.cronjobs.suspend",
    .retryable "k8s.batch.v1.cronjobs.resume",
    { action := "k8s.resource.delete" },
    { action := "gitops.resource.control" },
    { action := "k8s.apps.v1.deployments.rollback" },
    { action := "k8s.apps.v1.statefulsets.rollback" },
    { action := "k8s.apps.v1.daemonsets.rollback" },
    { action := rcaTestScenarioInjectAction },
    { action := "rca.test.cleanup" },
    { action := "cluster.agent.uninstall" },
    { action := serviceHttpRequestAction },
    { action := resourceFileAction },
    { action := "traffic.source.select" },
    { action := "traffic.source.connect" },
    { action := helmReleaseArtifactReadAction },
    { action := helmValuesPreviewAction }]

/-- The actions a route accepts with a capacity, with the capacity it passes:
`SERVICE_REQUEST_MAX_ACTIVE_PER_CLUSTER`, `MAX_ACTIVE_RESOURCE_FILE_COMMANDS`,
`HELM_ARTIFACT_MAX_ACTIVE_PER_CLUSTER` and
`HELM_VALUES_PREVIEW_MAX_ACTIVE_PER_CLUSTER`. -/
def cappedActions : List (String × ℕ) :=
  [(serviceHttpRequestAction, 16), (resourceFileAction, 32), (helmReleaseArtifactReadAction, 8),
    (helmValuesPreviewAction, 4)]

/-! ## The commands of a key -/

/-- What a capacity is counted over. -/
structure CapacityKey : Type where
  workspaceId : String
  clusterId : String
  action : String
  deriving DecidableEq, Repr

/-- The key an acceptance of the plan counts under. -/
def Plan.capacityKey (plan : Plan) : CapacityKey := ⟨plan.workspace, plan.clusterId, plan.action⟩

/-- The key a command is counted under. -/
def AgentCommand.capacityKey (r : AgentCommand) : CapacityKey :=
  ⟨r.workspaceId, r.clusterId, r.action⟩

/-- The command holds a place of the key. -/
def AgentCommand.occupies (key : CapacityKey) (r : AgentCommand) : Bool :=
  decide (r.capacityKey = key) && commandStatusIsActive r.status

/-- The places of a key that are taken. -/
def Store.active (s : Store) (key : CapacityKey) : ℕ :=
  countActiveAgentCommands s key.workspaceId key.clusterId key.action

variable {key : CapacityKey}

variable {op : Op} {r : AgentCommand} {s : Store}

@[simp] theorem AgentCommand.occupies_iff :
    r.occupies key = true ↔ r.capacityKey = key ∧ commandStatusIsActive r.status = true := by
  simp [AgentCommand.occupies]

theorem Store.active_eq (s : Store) (key : CapacityKey) :
    s.active key = s.commands.rows.countP (·.occupies key) := by
  obtain ⟨w, cl, action⟩ := key
  rw [Store.active, countActiveAgentCommands]
  refine List.countP_congr fun r _ => ?_
  simp [AgentCommand.capacityKey, and_assoc]

/-! ## The runs of a capped key -/

/-- The transactions of a key whose acceptances all pass the same capacity. The
worker projects receipts: a plan it queues under the key has been accepted. -/
def OfCapped (key : CapacityKey) (cap : ℕ) (s : Store) : Op → Prop
  | .accept _ _ plan _ _ limit => plan.capacityKey = key → limit = some (cap : ℤ)
  | .queue _ _ plan => plan.capacityKey = key → (s.commands.find? plan.commandId).isSome = true
  | .lease _ | .start _ | .heartbeat _ _ | .progress _ _ _ _ | .complete _ _ _ | .control _
  | .failLogical _ _ _ _ _ | .failExpired _ _ _ _ => True

/-- A retry that will be accepted for a command of the key, which is full. -/
def RetriesAtCapacity (catalog : CommandCatalog) (key : CapacityKey) (cap : ℕ) (s : Store)
    (op : Op) : Prop :=
  ∃ req r, op = .control req ∧ req.action = .retry ∧
    s.commands.find? req.commandId = some r ∧ r.capacityKey = key ∧ r.Retryable catalog ∧
    cap ≤ s.active key

/-- The transaction makes a command of the key active. -/
inductive Activates (catalog : CommandCatalog) (key : CapacityKey) (c : String)
    (row : Option AgentCommand) : Op → Prop where
  | accept {now : Timestamp} {correlationId : String} {plan : Plan} {receiptClusterId : String}
      {confirmationEventId : EventId} {limit : Option ℤ} (hc : plan.commandId = c)
      (hkey : plan.capacityKey = key) :
      Activates catalog key c row
        (.accept now correlationId plan receiptClusterId confirmationEventId limit)
  | queue {now : Timestamp} {correlationId : String} {plan : Plan} (hc : plan.commandId = c)
      (hkey : plan.capacityKey = key) (hnone : row = none) :
      Activates catalog key c row (.queue now correlationId plan)
  | retry {req : ControlRequest} {r : AgentCommand} (hc : req.commandId = c)
      (haction : req.action = .retry) (hrow : row = some r) (hkey : r.capacityKey = key)
      (hretry : r.Retryable catalog) : Activates catalog key c row (.control req)

theorem AgentCommand.occupies_of_open (hkey : r.capacityKey = key)
    (h : commandStatusIsTerminal r.status = false) :
    r.occupies key = true := by
  simp [hkey, commandStatusIsActive_eq, h]

theorem AgentCommand.not_terminal_of_occupies (h : r.occupies key = true) :
    commandStatusIsTerminal r.status = false := by
  simpa [commandStatusIsActive_eq] using (AgentCommand.occupies_iff.mp h).2

theorem CommandStep.occupies {catalog : CommandCatalog} {n n' : Uuid} {c : String}
    {v v' : CommandView} {event : Option (String × OperationEventKind)}
    (h : CommandStep catalog n n' c op v event v') {r' : AgentCommand} (hr' : v'.row = some r')
    (hocc : r'.occupies key = true) :
    (∃ r, v.row = some r ∧ r.occupies key = true) ∨ Activates catalog key c v.row op := by
  obtain ⟨hkey, -⟩ := AgentCommand.occupies_iff.mp hocc
  have hopen := AgentCommand.not_terminal_of_occupies hocc
  cases h with
  | idle | noted => exact Or.inl ⟨r', hr', hocc⟩
  | accepted hc =>
    cases hr'
    exact Or.inr (.accept hc hkey)
  | queued hc =>
    cases hr'
    exact Or.inr (.queue hc hkey rfl)
  | projected =>
    cases hr'
    exact Or.inl ⟨_, rfl, AgentCommand.occupies_of_open hkey hopen⟩
  | leased hn hw hcl ha hactive haw hdue havailable =>
    cases hr'
    exact Or.inl ⟨_, rfl, AgentCommand.occupies_of_open hkey (open_of_leaseAvailable havailable)⟩
  | started hc hheld =>
    cases hr'
    have hstatus := List.mem_singleton.mp (AgentCommand.heldBy_iff.mp hheld).status
    exact Or.inl ⟨_, rfl, AgentCommand.occupies_of_open hkey (by rw [hstatus]; rfl)⟩
  | heartbeat hc hheld =>
    cases hr'
    obtain ⟨-, hbefore⟩ := CommandStatus.held_cases (AgentCommand.heldBy_iff.mp hheld).status
    exact Or.inl ⟨_, rfl, AgentCommand.occupies_of_open hkey hbefore⟩
  | completed hc hstatus hheld hkind hattempt =>
    cases hr'
    have hclosed := commandStatusIsTerminal_of_attemptStatus hattempt
    exact absurd (hopen.symm.trans hclosed) Bool.false_ne_true
  | cancelled =>
    cases hr'
    cases hopen
  | cancelRequested hc hw haction hstatus =>
    cases hr'
    exact Or.inl ⟨_, rfl, AgentCommand.occupies_of_open hkey (by rw [hstatus]; rfl)⟩
  | retried hc hn hw haction hretry =>
    cases hr'
    exact Or.inr (.retry hc haction rfl hkey hretry)
  | rejected =>
    cases hr'
    cases hopen
  | @expired _ _ _ _ r =>
    cases hr'
    exact absurd (hopen.symm.trans r.expiredStatus_terminal) Bool.false_ne_true

/-! ## The bound -/

theorem step_active_le (catalog : CommandCatalog) (hs : StoreInv s) (new : List String)
    (h : ∀ c, Activates catalog key c (s.commands.find? c) op → c ∈ new) :
    (step catalog s op).active key ≤ s.active key + new.length := by
  rw [Store.active_eq, Store.active_eq]
  refine Table.countP_le_of_find? new fun c r' hr' hocc => ?_
  obtain ⟨event, hstep, -⟩ := (step_refines catalog hs op).command c
  obtain hbefore | hactivates := hstep.occupies hr' hocc
  · exact Or.inr hbefore
  · exact Or.inl (h c hactivates)

theorem active_lt_of_accept {now : Timestamp} {correlationId : String} {plan : Plan}
    {receiptClusterId : String} {confirmationEventId : EventId} {cap : ℕ}
    {reply : Option CommandOperationEvent × Store}
    (h : acceptCommandWithReceiptStage s now correlationId plan receiptClusterId
      confirmationEventId (some (cap : ℤ)) = .ok reply) : s.active plan.capacityKey < cap := by
  unfold acceptCommandWithReceiptStage stageLogicalCommandAcceptance at h
  by_contra hfull
  simp only at h
  have hcount : (cap : ℤ) ≤ countActiveAgentCommands s plan.workspace plan.clusterId
      plan.action := Int.ofNat_le.mpr (Nat.not_lt.mp hfull)
  by_cases hcap : (cap : ℤ) < 1
  · simp [hcap] at h
  · simp [hcap, hcount] at h

theorem step_active_le_capacity (catalog : CommandCatalog) (hs : StoreInv s) {cap : ℕ}
    (hop : OfCapped key cap s op) (hretry : ¬ RetriesAtCapacity catalog key cap s op)
    (hle : s.active key ≤ cap) :
    (step catalog s op).active key ≤ cap := by
  -- a step that hands no place out, or one place of a key with a free one
  have hnone : (∀ c, ¬ Activates catalog key c (s.commands.find? c) op) →
      (step catalog s op).active key ≤ cap := fun h =>
    (step_active_le catalog hs [] fun c hc => absurd hc (h c)).trans hle
  have hone : ∀ c, (∀ c', Activates catalog key c' (s.commands.find? c') op → c' = c) →
      s.active key < cap → (step catalog s op).active key ≤ cap := fun c h hlt =>
    (step_active_le catalog hs [c] fun c' hc' => List.mem_singleton.mpr (h c' hc')).trans hlt
  cases op with
  | accept now correlationId plan receiptClusterId confirmationEventId limit =>
    by_cases hkey : plan.capacityKey = key
    · obtain rfl := hop hkey
      rcases htx : acceptCommandWithReceiptStage s now correlationId plan receiptClusterId
          confirmationEventId (some (cap : ℤ)) with error | reply
      · rw [step, htx, Tx.commit_error]
        exact hle
      · refine hone plan.commandId (fun c hc => ?_) (by rw [← hkey]; exact active_lt_of_accept htx)
        cases hc with
        | accept hc => exact hc.symm
    · refine hnone fun c hc => ?_
      cases hc with
      | accept _ hk => exact hkey hk
  | queue now correlationId plan =>
    refine hnone fun c hc => ?_
    cases hc with
    | queue hc hkey hrow =>
      have hknown := hop hkey
      rw [hc, hrow] at hknown
      cases hknown
  | control req =>
    by_cases hfull : s.active key < cap
    · refine hone req.commandId (fun c hc => ?_) hfull
      cases hc with
      | retry hc => exact hc.symm
    · refine hnone fun c hc => ?_
      cases hc with
      | @retry _ r hc haction hrow hkey hr =>
        rw [← hc] at hrow
        exact hretry ⟨req, r, rfl, haction, hrow, hkey, hr, Nat.not_lt.mp hfull⟩
  | lease | start | heartbeat | progress | complete | failLogical | failExpired =>
    exact hnone fun c hc => by cases hc

theorem not_retriesAtCapacity_of_capped (hkey : key.action ∈ cappedActions.map (·.1)) (cap : ℕ)
    (s : Store) (op : Op) :
    ¬ RetriesAtCapacity builtinCommandCatalog key cap s op := by
  rintro ⟨req, r, -, -, -, rfl, hr, -⟩
  have hnever : ∀ action ∈ cappedActions.map (·.1),
      (commandActionSpec builtinCommandCatalog action).any (·.supportsManualRetry) = false := by
    decide +kernel
  exact absurd (hr.2.1.symm.trans (hnever r.action hkey)) (by simp)

/-- **Bounded active commands.** In every run whose acceptances of a key all pass
the same capacity, the active commands of the key stay within it, if no retry is
accepted while the key is full; for the actions the program accepts with a
capacity that is always so. A refused acceptance changes nothing. -/
theorem run_active_le_capacity (catalog : CommandCatalog) (key : CapacityKey) (cap : ℕ)
    (ops : List Op) (hops : Meets (step catalog) (OfCapped key cap) Store.empty ops)
    (hretry : Meets (step catalog) (fun s op => ¬ RetriesAtCapacity catalog key cap s op)
        Store.empty ops ∨
      (catalog = builtinCommandCatalog ∧ key.action ∈ cappedActions.map (·.1))) :
    ∀ e ∈ trace (step catalog) Store.empty ops, e.post.active key ≤ cap ∧
      ∀ now correlationId plan receiptClusterId confirmationEventId limit message,
        e.action = .accept now correlationId plan receiptClusterId confirmationEventId limit →
        acceptCommandWithReceiptStage e.pre now correlationId plan receiptClusterId
          confirmationEventId limit = .error (.capacityExceeded message) →
        e.post = e.pre := by
  have hfree : Meets (step catalog) (fun s op => ¬ RetriesAtCapacity catalog key cap s op)
      Store.empty ops := by
    obtain hmeets | ⟨rfl, hkey⟩ := hretry
    · exact hmeets
    · exact fun e _ => not_retriesAtCapacity_of_capped hkey cap e.pre e.action
  have hkeeps : ∀ s op, (StoreInv s ∧ s.active key ≤ cap) →
      (OfCapped key cap s op ∧ ¬ RetriesAtCapacity catalog key cap s op) →
      StoreInv (step catalog s op) ∧ (step catalog s op).active key ≤ cap :=
    fun s op hs hok => ⟨step_inv catalog s op hs.1,
      step_active_le_capacity catalog hs.1 hok.1 hok.2 hs.2⟩
  intro e he
  obtain ⟨hpre, hok, hpost⟩ := trace_invariant_of_meets hkeeps
    ⟨storeInv_empty, Nat.zero_le cap⟩ (fun e he => ⟨hops e he, hfree e he⟩) e he
  refine ⟨by rw [hpost]; exact (hkeeps e.pre e.action hpre hok).2, ?_⟩
  intro now correlationId plan receiptClusterId confirmationEventId limit message haction herror
  rw [hpost, haction, step, herror, Tx.commit_error]

/-! ## A retry at capacity -/

instance (key : CapacityKey) (cap : ℕ) (s : Store) : DecidablePred (OfCapped key cap s)
  | .accept _ _ plan _ _ limit =>
    inferInstanceAs (Decidable (plan.capacityKey = key → limit = some (cap : ℤ)))
  | .queue _ _ plan =>
    inferInstanceAs (Decidable
      (plan.capacityKey = key → (s.commands.find? plan.commandId).isSome = true))
  | .lease _ | .start _ | .heartbeat _ _ | .progress _ _ _ _ | .complete _ _ _ | .control _
  | .failLogical _ _ _ _ _ | .failExpired _ _ _ _ => inferInstanceAs (Decidable True)

/-- The receipt of a plan in the place of the only active command of its key. -/
def acceptOnly (now : Timestamp) (plan : Plan) (event : Uuid) : Op :=
  .accept now "corr-1" plan "cluster-1" (.uuid4 event) (some 1)

/-- The restart fails retryably, a second restart takes its place, and the first
one is retried. -/
def retriedAtCapacity : List Op :=
  [acceptOnly 0 restartPlan 100] ++ restartRunning ++
    [.complete (restartClaim 3) { status := some .failed, retryable := some true } "agent-api",
      acceptOnly 4 { restartPlan with commandId := "cmd-2" } 101,
      .control ⟨5, "ws-1", "cmd-1", .retry, "key-1", "operator-1", none, .uuid4 8, .uuid4 9⟩]

/-- Two restarts are active within a capacity of one. -/
theorem retry_exceeds_capacity :
    ¬ ∀ (catalog : CommandCatalog) (key : CapacityKey) (cap : ℕ) (ops : List Op),
      Meets (step catalog) (OfCapped key cap) Store.empty ops →
      ∀ e ∈ trace (step catalog) Store.empty ops, e.post.active key ≤ cap := by
  intro h
  have hops : Meets (step builtinCommandCatalog) (OfCapped restartPlan.capacityKey 1) Store.empty
      retriedAtCapacity := by
    unfold Meets
    decide +kernel
  have hbound := h builtinCommandCatalog restartPlan.capacityKey 1 retriedAtCapacity hops
  have hexceeds : (trace (step builtinCommandCatalog) Store.empty retriedAtCapacity).any
      (fun e => 1 < e.post.active restartPlan.capacityKey) = true := by decide +kernel
  obtain ⟨e, he, hlt⟩ := List.any_eq_true.mp hexceeds
  exact absurd (hbound e he) (Nat.not_le.mpr (of_decide_eq_true hlt))

/-- A preview of the values of a release. -/
def previewPlan (commandId : String) : Plan :=
  { restartPlan with commandId, action := helmValuesPreviewAction, retryPolicy := none }

/-- Of five previews accepted at once, the fifth is refused. -/
theorem run_active_le_capacity_previews :
    let ops := ["cmd-1", "cmd-2", "cmd-3", "cmd-4", "cmd-5"].map fun commandId =>
      Op.accept 0 "corr-1" (previewPlan commandId) "cluster-1" (.uuid4 100) (some 4)
    ∀ e ∈ trace (step builtinCommandCatalog) Store.empty ops,
      e.post.active (previewPlan "cmd-1").capacityKey ≤ 4 ∧
        ∀ now correlationId plan receiptClusterId confirmationEventId limit message,
          e.action = .accept now correlationId plan receiptClusterId confirmationEventId limit →
          acceptCommandWithReceiptStage e.pre now correlationId plan receiptClusterId
            confirmationEventId limit = .error (.capacityExceeded message) →
          e.post = e.pre := by
  refine run_active_le_capacity builtinCommandCatalog (previewPlan "cmd-1").capacityKey 4 _ ?_
    (Or.inr ⟨rfl, by decide +kernel⟩)
  unfold Meets
  decide +kernel

end Opsia
