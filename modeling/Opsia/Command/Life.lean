import Opsia.Command.Repository

/-!
# The life of one command

The transactions of `Command/Repository.lean` write several tables of a whole
store. This file is the view of them from a single command: its logical row and
its attempt rows, and a relation `CommandStep` with one constructor for each way
a transaction can touch them. `Command/Refinement.lean` proves that every
transaction is such a step for every command; everything later is proved about
`CommandStep`.

* `CommandView`, `onActive` — the row, the attempts, an update of the active one.
* `CommandStep` — what one transaction may do to one command, guards included.
* `RowInv` / `CommandInv` — the consistency of the two tables that holds in every
  reachable state, and its preservation by `CommandStep`.
-/

namespace Opsia

open PyText

/-! ## One command -/

/-- What the two tables hold about one command: its logical row and its attempts. -/
structure CommandView : Type where
  row : Option AgentCommand
  attempts : List AgentCommandAttempt
  deriving DecidableEq, Repr

/-- An update of the active attempt, of none when there is no active attempt. -/
def onActive (as : List AgentCommandAttempt) (active : Option Uuid)
    (f : AgentCommandAttempt → AgentCommandAttempt) : List AgentCommandAttempt :=
  match active with
  | none => as
  | some aid => as.map fun a => if a.attemptId = aid then f a else a

@[simp] theorem onActive_id (as : List AgentCommandAttempt) (active : Option Uuid) :
    onActive as active id = as := by
  cases active <;> simp [onActive]

variable {r : AgentCommand} {as : List AgentCommandAttempt} {n : Uuid} {a : AgentCommandAttempt}
  {req : AgentClaim} {status : CommandStatus} {attemptStatus : CommandAttemptStatus}
  {f : AgentCommandAttempt → AgentCommandAttempt}

theorem map_onActive {β : Type} (as : List AgentCommandAttempt) (active : Option Uuid)
    {g : AgentCommandAttempt → β} (hg : ∀ a, g (f a) = g a) :
    (onActive as active f).map g = as.map g := by
  cases active with
  | none => rfl
  | some aid =>
    rw [onActive, List.map_map]
    refine List.map_congr_left fun a _ => ?_
    by_cases ha : a.attemptId = aid
    · simp [ha, hg]
    · simp [ha]

theorem mem_onActive {active : Option Uuid} {b : AgentCommandAttempt} (h : b ∈ onActive as active f)
    :
    (∃ a ∈ as, active = some a.attemptId ∧ b = f a) ∨
      (b ∈ as ∧ active ≠ some b.attemptId) := by
  cases active with
  | none => exact Or.inr ⟨h, by simp⟩
  | some aid =>
    obtain ⟨a, ha, rfl⟩ := List.mem_map.mp h
    by_cases hid : a.attemptId = aid
    · rw [if_pos hid]
      exact Or.inl ⟨a, ha, by rw [hid], rfl⟩
    · rw [if_neg hid]
      exact Or.inr ⟨ha, fun he => hid (Option.some.inj he).symm⟩

theorem onActive_mem (ha : a ∈ as) (f : AgentCommandAttempt → AgentCommandAttempt) :
    f a ∈ onActive as (some a.attemptId) f :=
  List.mem_map.mpr ⟨a, ha, by rw [if_pos rfl]⟩

theorem onActive_mem_of_ne (ha : a ∈ as) {active : Option Uuid} (hne : active ≠ some a.attemptId)
    (f : AgentCommandAttempt → AgentCommandAttempt) : a ∈ onActive as active f := by
  cases active with
  | none => exact ha
  | some aid =>
    exact List.mem_map.mpr ⟨a, ha, by rw [if_neg fun h => hne (by rw [h])]⟩

/-! ## The steps of one command -/

/-- The identity an operation event needs. -/
def AgentCommand.Identified (r : AgentCommand) : Prop :=
  r.workspaceId ≠ "" ∧ r.commandId ≠ "" ∧ strip r.clusterId ≠ ""

/-- The guards of the retry branch: the retry would be accepted. -/
def AgentCommand.Retryable (catalog : CommandCatalog) (r : AgentCommand) : Prop :=
  r.status = .failed ∧
    (commandActionSpec catalog r.action).any (·.supportsManualRetry) = true ∧
    2 ≤ (commandRetryPolicy r.payload).1 ∧
    (r.attemptCount : ℤ) < (commandRetryPolicy r.payload).1 ∧
    r.result.retryable = some true

/-- What one transaction may do to the command `c`. The transaction draws the
identifiers from `n` up to `n'`; the third index is the operation event it
pushes, with the workspace of the stream. -/
inductive CommandStep (catalog : CommandCatalog) (n n' : Uuid) (c : String) :
    Op → CommandView → Option (String × OperationEventKind) → CommandView → Prop where
  /-- the transaction does not concern the command -/
  | idle {op : Op} {v : CommandView} : CommandStep catalog n n' c op v none v
  /-- a progress event without a state change: a progress report, or the receipt
  of a command that is already known -/
  | noted {op : Op} {v : CommandView} {w : String} :
      CommandStep catalog n n' c op v (some (w, .progress)) v
  /-- the receipt creates the logical row -/
  | accepted {now : Timestamp} {correlationId : String} {plan : Plan} {receiptClusterId : String}
      {confirmationEventId : EventId} {limit : Option ℤ} {as : List AgentCommandAttempt}
      (hc : plan.commandId = c) :
      CommandStep catalog n n' c
        (.accept now correlationId plan receiptClusterId confirmationEventId limit) ⟨none, as⟩
        (some (plan.workspace, .progress))
        ⟨some (agentCommandValues now correlationId plan .queued (some confirmationEventId)), as⟩
  /-- the worker projects a plan that has no receipt -/
  | queued {now : Timestamp} {correlationId : String} {plan : Plan}
      {as : List AgentCommandAttempt} (hc : plan.commandId = c) (hn : n < n') :
      CommandStep catalog n n' c (.queue now correlationId plan) ⟨none, as⟩ none
        ⟨some { agentCommandValues now correlationId plan .queued none with
            attemptCount := 1, activeAttemptId := some n },
          as ++ [agentCommandAttemptValues now n c plan.workspace plan.clusterId 1 now]⟩
  /-- the worker projects the plan of a receipt -/
  | projected {now : Timestamp} {correlationId : String} {plan : Plan} {r : AgentCommand}
      {as : List AgentCommandAttempt} (hc : plan.commandId = c) (hn : n < n')
      (hr : r.unprojected = true) :
      CommandStep catalog n n' c (.queue now correlationId plan) ⟨some r, as⟩ none
        ⟨some (r.project n now),
          as ++ [agentCommandAttemptValues now n c plan.workspace plan.clusterId 1 now]⟩
  /-- a poll leases the active attempt, under a new lease -/
  | leased {req : LeaseRequest} {r : AgentCommand} {as : List AgentCommandAttempt}
      {a : AgentCommandAttempt} (hn : n < n') (hw : r.workspaceId = req.workspaceId)
      (hcl : r.clusterId = req.clusterId) (ha : a ∈ as)
      (hactive : r.activeAttemptId = some a.attemptId) (haw : a.workspaceId = req.workspaceId)
      (hdue : a.availableAt ≤ req.now) (havailable : leaseAvailable req.now r a = true)
      (hid : r.Identified) :
      CommandStep catalog n n' c (.lease req) ⟨some r, as⟩ (some (r.workspaceId, .progress))
        ⟨some (r.lease n req.agentId (req.appNow + req.leaseSeconds) req.now),
          onActive as r.activeAttemptId
            (·.lease n req.agentId (req.appNow + req.leaseSeconds) req.now)⟩
  /-- the lease holder starts the attempt -/
  | started {req : AgentClaim} {r : AgentCommand} {as : List AgentCommandAttempt}
      (hc : req.commandId = c) (hheld : r.heldBy req [.leased] = true) :
      CommandStep catalog n n' c (.start req) ⟨some r, as⟩ (some (r.workspaceId, .progress))
        ⟨some (r.start (req.appNow + req.leaseSeconds) req.now),
          onActive as r.activeAttemptId (·.start req (req.appNow + req.leaseSeconds))⟩
  /-- the lease holder extends its lease, and may acknowledge a cancel -/
  | heartbeat {req : AgentClaim} {observed : Option ℤ} {r : AgentCommand}
      {as : List AgentCommandAttempt} (hc : req.commandId = c)
      (hheld : r.heldBy req [.leased, .running, .cancelRequested, .cancelling] = true) :
      CommandStep catalog n n' c (.heartbeat req observed) ⟨some r, as⟩
        (if r.acknowledged observed then some (r.workspaceId, .progress) else none)
        ⟨some (r.heartbeat (r.acknowledged observed) (req.appNow + req.leaseSeconds) req.now),
          onActive as r.activeAttemptId (·.heartbeat req (req.appNow + req.leaseSeconds))⟩
  /-- the lease holder reports a terminal status -/
  | completed {req : AgentClaim} {result : CommandResult} {source : String} {r : AgentCommand}
      {as : List AgentCommandAttempt} {status : CommandStatus} {kind : OperationEventKind}
      {attemptStatus : CommandAttemptStatus} {terminalEventId : Option EventId}
      (hc : req.commandId = c) (hstatus : result.status = some status)
      (hheld : r.heldBy req [.running, .cancelRequested, .cancelling] = true)
      (hkind : completionKind catalog r status result = some kind)
      (hattempt : status.attemptStatus = some attemptStatus) :
      CommandStep catalog n n' c (.complete req result source) ⟨some r, as⟩
        (some (r.workspaceId, kind))
        ⟨some { r.complete status result req.now with terminalEventId },
          onActive as r.activeAttemptId (·.complete req attemptStatus result)⟩
  /-- a cancel before execution closes the command -/
  | cancelled {req : ControlRequest} {r : AgentCommand} {as : List AgentCommandAttempt}
      {result : CommandResult} (hc : req.commandId = c) (hw : r.workspaceId = req.workspaceId)
      (haction : req.action = .cancel) (hstatus : r.status = .queued ∨ r.status = .leased)
      (hid : r.Identified) :
      CommandStep catalog n n' c (.control req) ⟨some r, as⟩ (some (r.workspaceId, .cancelled))
        ⟨some (r.cancel req result), onActive as r.activeAttemptId (·.cancel req result)⟩
  /-- a cancel of a running command is handed to its agent -/
  | cancelRequested {req : ControlRequest} {r : AgentCommand} {as : List AgentCommandAttempt}
      (hc : req.commandId = c) (hw : r.workspaceId = req.workspaceId)
      (haction : req.action = .cancel) (hstatus : r.status = .running) :
      CommandStep catalog n n' c (.control req) ⟨some r, as⟩ (some (r.workspaceId, .progress))
        ⟨some (r.requestCancel req), as⟩
  /-- an accepted retry queues a new attempt -/
  | retried {req : ControlRequest} {r : AgentCommand} {as : List AgentCommandAttempt}
      (hc : req.commandId = c) (hn : n < n') (hw : r.workspaceId = req.workspaceId)
      (haction : req.action = .retry) (hretry : r.Retryable catalog) :
      CommandStep catalog n n' c (.control req) ⟨some r, as⟩ (some (r.workspaceId, .progress))
        ⟨some (r.retry n req.now),
          as ++ [agentCommandAttemptValues req.now n c req.workspaceId r.clusterId
            (r.attemptCount + 1) (req.now + (commandRetryPolicy r.payload).2)]⟩
  /-- the policy worker's rejection path closes a queued command -/
  | rejected {now : Timestamp} {workspaceId clusterId reason : String} {r : AgentCommand}
      {as : List AgentCommandAttempt} (hr : r.rejectable workspaceId clusterId = true)
      (hid : r.Identified) :
      CommandStep catalog n n' c (.failLogical now workspaceId c clusterId reason) ⟨some r, as⟩
        (some (r.workspaceId, .failed)) ⟨some (r.reject reason now), as⟩
  /-- the janitor closes an expired command -/
  | expired {now : Timestamp} {graceSeconds queueTtlSeconds : ℤ} {source : String}
      {r : AgentCommand} {as : List AgentCommandAttempt} {terminalEventId : Option EventId}
      (hr : r.expired now graceSeconds queueTtlSeconds = true) (hid : r.Identified) :
      CommandStep catalog n n' c (.failExpired now graceSeconds queueTtlSeconds source)
        ⟨some r, as⟩
        (some (r.workspaceId, if r.expiredStatus = .cancelled then .cancelled else .failed))
        ⟨some { r.expire now with terminalEventId },
          onActive as r.activeAttemptId (·.expire r.workspaceId r.expiredResult now)⟩

variable {n' : Uuid} {now : Timestamp} {r' : AgentCommand} {v : CommandView}

theorem CommandStep.mono {catalog : CommandCatalog} {m : Uuid} {c : String} {op : Op}
    {v' : CommandView} {event : Option (String × OperationEventKind)}
    (h : CommandStep catalog n n' c op v event v') (hm : n' ≤ m) :
    CommandStep catalog n m c op v event v' := by
  cases h with
  | idle => exact .idle
  | noted => exact .noted
  | accepted hc => exact .accepted hc
  | queued hc hn => exact .queued hc (Nat.lt_of_lt_of_le hn hm)
  | projected hc hn hr => exact .projected hc (Nat.lt_of_lt_of_le hn hm) hr
  | leased hn hw hcl ha hactive haw hdue havailable hid =>
    exact .leased (Nat.lt_of_lt_of_le hn hm) hw hcl ha hactive haw hdue havailable hid
  | started hc hheld => exact .started hc hheld
  | heartbeat hc hheld => exact .heartbeat hc hheld
  | completed hc hstatus hheld hkind hattempt => exact .completed hc hstatus hheld hkind hattempt
  | cancelled hc hw haction hstatus hid => exact .cancelled hc hw haction hstatus hid
  | cancelRequested hc hw haction hstatus => exact .cancelRequested hc hw haction hstatus
  | retried hc hn hw haction hretry =>
    exact .retried hc (Nat.lt_of_lt_of_le hn hm) hw haction hretry
  | rejected hr hid => exact .rejected hr hid
  | expired hr hid => exact .expired hr hid

/-! ## The invariant of one command -/

/-- The row and its attempt carry the same lease. -/
structure SameLease (r : AgentCommand) (a : AgentCommandAttempt) : Prop where
  lease : ∃ leaseId, r.leaseId = some leaseId ∧ a.leaseId = some leaseId
  agent : ∃ agentId, r.agentId = some agentId ∧ a.agentId = some agentId
  workspace : a.workspaceId = r.workspaceId

/-- The status of the row and of its active attempt agree. A closed row says
nothing about its attempt here (see `Command/Consistency.lean`). -/
def Agrees (r : AgentCommand) (a : AgentCommandAttempt) : Prop :=
  match r.status with
  | .queued => a.status = .queued
  | .leased => a.status = .leased ∧ SameLease r a
  | .running | .cancelRequested | .cancelling => a.status = .running ∧ SameLease r a
  | .completed | .failed | .cancelled => True

theorem Agrees.open_cases (h : Agrees r a) (ht : commandStatusIsTerminal r.status = false) :
    (r.status = .queued ∧ a.status = .queued) ∨
      (r.status = .leased ∧ a.status = .leased ∧ SameLease r a) ∨
      (r.status ∈ [CommandStatus.running, .cancelRequested, .cancelling] ∧
        a.status = .running ∧ SameLease r a) := by
  unfold Agrees at h
  rcases hs : r.status with _ | _ | _ | _ | _ | _ | _ | _ <;> rw [hs] at h ht
  case queued => exact Or.inl ⟨rfl, h⟩
  case leased => exact Or.inr (Or.inl ⟨rfl, h⟩)
  case running | cancelRequested | cancelling => exact Or.inr (Or.inr ⟨by simp, h⟩)
  case completed | failed | cancelled => simp [commandStatusIsTerminal] at ht

/-- A row that was never projected. -/
structure Unprojected (r : AgentCommand) : Prop where
  count : r.attemptCount = 0
  status : r.status = .queued ∨ commandStatusIsTerminal r.status = true
  lease : r.leaseId = none

/-- The active attempt exists and agrees with the row; without one the row was
never projected. -/
def Phase (r : AgentCommand) (as : List AgentCommandAttempt) : Prop :=
  match r.activeAttemptId with
  | none => Unprojected r
  | some aid => ∃ a ∈ as, a.attemptId = aid ∧ Agrees r a

/-- The consistency of a logical row with its attempts. -/
structure RowInv (n : Uuid) (r : AgentCommand) (as : List AgentCommandAttempt) : Prop where
  /-- the attempts are numbered `1..attempt_count` -/
  numbers : as.map (·.attemptNo) = List.range' 1 r.attemptCount
  /-- attempt ids are distinct -/
  ids : (as.map (·.attemptId)).Nodup
  /-- attempt ids were minted -/
  fresh : ∀ a ∈ as, a.attemptId < n
  /-- only the active attempt may be open -/
  openActive : ∀ a ∈ as, a.status.isTerminal = false → r.activeAttemptId = some a.attemptId
  /-- the lease was minted -/
  leaseFresh : ∀ leaseId, r.leaseId = some leaseId → leaseId < n
  /-- the payload is the plan of the action -/
  payload : r.payload.action = r.action
  /-- row and active attempt agree -/
  phase : Phase r as
  /-- a command that left its queue can publish operation events -/
  identified : r.status ≠ .queued → r.Identified
  /-- a failure that may be retried closed its attempt -/
  retryable : r.status = .failed → r.result.retryable = some true →
    ∀ a ∈ as, a.status.isTerminal = true

/-- The consistency of a command; without a row it has no attempts. -/
def CommandInv (n : Uuid) (v : CommandView) : Prop :=
  match v.row with
  | none => v.attempts = []
  | some r => RowInv n r v.attempts

theorem commandInv_some :
    CommandInv n ⟨some r, as⟩ ↔ RowInv n r as := Iff.rfl

theorem commandInv_none :
    CommandInv n ⟨none, as⟩ ↔ as = [] := Iff.rfl

theorem RowInv.mono (h : RowInv n r as) (hn : n ≤ n') : RowInv n' r as :=
  { h with
    fresh := fun a ha => Nat.lt_of_lt_of_le (h.fresh a ha) hn
    leaseFresh := fun l hl => Nat.lt_of_lt_of_le (h.leaseFresh l hl) hn }

theorem CommandInv.mono (h : CommandInv n v) (hn : n ≤ n') :
    CommandInv n' v := by
  obtain ⟨_ | r, as⟩ := v
  · exact h
  · exact RowInv.mono h hn

theorem RowInv.active (h : RowInv n r as) {aid : Uuid} (haid : r.activeAttemptId = some aid) :
    ∃ a ∈ as, a.attemptId = aid ∧ Agrees r a := by
  have hphase := h.phase
  rw [Phase, haid] at hphase
  exact hphase

theorem RowInv.unprojected (h : RowInv n r as) (hnone : r.activeAttemptId = none) :
    Unprojected r := by
  have hphase := h.phase
  rw [Phase, hnone] at hphase
  exact hphase

theorem RowInv.eq_of_id (h : RowInv n r as) {b : AgentCommandAttempt} (ha : a ∈ as) (hb : b ∈ as)
    (hid : a.attemptId = b.attemptId) : a = b :=
  List.inj_on_of_nodup_map h.ids ha hb hid

theorem RowInv.active_of_held (h : RowInv n r as) (hq : r.status ≠ .queued)
    (ht : commandStatusIsTerminal r.status = false) :
    ∃ a ∈ as, r.activeAttemptId = some a.attemptId ∧ Agrees r a := by
  rcases hactive : r.activeAttemptId with _ | aid
  · rcases (h.unprojected hactive).status with hs | hs
    · exact absurd hs hq
    · rw [ht] at hs
      cases hs
  · obtain ⟨a, ha, rfl, hagrees⟩ := h.active hactive
    exact ⟨a, ha, rfl, hagrees⟩

theorem RowInv.one_le_count (h : RowInv n r as) (ha : a ∈ as) : 1 ≤ r.attemptCount := by
  have hlen : as.length = r.attemptCount := by
    have := congrArg List.length h.numbers
    rwa [List.length_map, List.length_range'] at this
  have hpos := List.length_pos_of_mem ha
  omega

/-! ## What an update keeps -/

/-- An update of a row that keeps its identity and its projection. -/
structure AgentCommand.Continues (r r' : AgentCommand) : Prop where
  commandId : r'.commandId = r.commandId
  workspaceId : r'.workspaceId = r.workspaceId
  clusterId : r'.clusterId = r.clusterId
  action : r'.action = r.action
  payload : r'.payload = r.payload
  createdAt : r'.createdAt = r.createdAt
  attemptCount : r'.attemptCount = r.attemptCount
  activeAttemptId : r'.activeAttemptId = r.activeAttemptId

/-- An update of an attempt that keeps its identity and its availability. -/
structure AgentCommandAttempt.Continues (a a' : AgentCommandAttempt) : Prop where
  attemptId : a'.attemptId = a.attemptId
  commandId : a'.commandId = a.commandId
  workspaceId : a'.workspaceId = a.workspaceId
  clusterId : a'.clusterId = a.clusterId
  attemptNo : a'.attemptNo = a.attemptNo
  availableAt : a'.availableAt = a.availableAt
  createdAt : a'.createdAt = a.createdAt

theorem AgentCommandAttempt.continues_refl (a : AgentCommandAttempt) : a.Continues a :=
  ⟨rfl, rfl, rfl, rfl, rfl, rfl, rfl⟩

theorem AgentCommandAttempt.continues_lease (a : AgentCommandAttempt) (leaseId : Uuid)
    (agentId : String) (leasedUntil now : Timestamp) :
    a.Continues (a.lease leaseId agentId leasedUntil now) :=
  ⟨rfl, rfl, rfl, rfl, rfl, rfl, rfl⟩

theorem AgentCommandAttempt.continues_start (a : AgentCommandAttempt) (req : AgentClaim)
    (leasedUntil : Timestamp) : a.Continues (a.start req leasedUntil) := by
  rw [AgentCommandAttempt.start]
  split <;> exact ⟨rfl, rfl, rfl, rfl, rfl, rfl, rfl⟩

theorem AgentCommandAttempt.continues_heartbeat (a : AgentCommandAttempt) (req : AgentClaim)
    (leasedUntil : Timestamp) : a.Continues (a.heartbeat req leasedUntil) := by
  rw [AgentCommandAttempt.heartbeat]
  split <;> exact ⟨rfl, rfl, rfl, rfl, rfl, rfl, rfl⟩

theorem AgentCommandAttempt.continues_complete (a : AgentCommandAttempt) (req : AgentClaim)
    (status : CommandAttemptStatus) (result : CommandResult) :
    a.Continues (a.complete req status result) := by
  rw [AgentCommandAttempt.complete]
  split <;> exact ⟨rfl, rfl, rfl, rfl, rfl, rfl, rfl⟩

theorem AgentCommandAttempt.continues_cancel (a : AgentCommandAttempt) (req : ControlRequest)
    (result : CommandResult) : a.Continues (a.cancel req result) := by
  rw [AgentCommandAttempt.cancel]
  split <;> exact ⟨rfl, rfl, rfl, rfl, rfl, rfl, rfl⟩

theorem AgentCommandAttempt.continues_expire (a : AgentCommandAttempt) (workspaceId : String)
    (result : CommandResult) (now : Timestamp) :
    a.Continues (a.expire workspaceId result now) := by
  rw [AgentCommandAttempt.expire]
  split <;> exact ⟨rfl, rfl, rfl, rfl, rfl, rfl, rfl⟩

theorem AgentCommand.continues_lease (r : AgentCommand) (leaseId : Uuid) (agentId : String)
    (leasedUntil now : Timestamp) : r.Continues (r.lease leaseId agentId leasedUntil now) :=
  ⟨rfl, rfl, rfl, rfl, rfl, rfl, rfl, rfl⟩

theorem AgentCommand.continues_start (r : AgentCommand) (leasedUntil now : Timestamp) :
    r.Continues (r.start leasedUntil now) :=
  ⟨rfl, rfl, rfl, rfl, rfl, rfl, rfl, rfl⟩

theorem AgentCommand.continues_heartbeat (r : AgentCommand) (acknowledged : Bool)
    (leasedUntil now : Timestamp) : r.Continues (r.heartbeat acknowledged leasedUntil now) :=
  ⟨rfl, rfl, rfl, rfl, rfl, rfl, rfl, rfl⟩

theorem AgentCommand.continues_complete (r : AgentCommand) (status : CommandStatus)
    (result : CommandResult) (now : Timestamp) (terminalEventId : Option EventId) :
    r.Continues { r.complete status result now with terminalEventId } :=
  ⟨rfl, rfl, rfl, rfl, rfl, rfl, rfl, rfl⟩

theorem AgentCommand.continues_cancel (r : AgentCommand) (req : ControlRequest)
    (result : CommandResult) : r.Continues (r.cancel req result) :=
  ⟨rfl, rfl, rfl, rfl, rfl, rfl, rfl, rfl⟩

theorem AgentCommand.continues_requestCancel (r : AgentCommand) (req : ControlRequest) :
    r.Continues (r.requestCancel req) :=
  ⟨rfl, rfl, rfl, rfl, rfl, rfl, rfl, rfl⟩

theorem AgentCommand.continues_reject (r : AgentCommand) (reason : String) (now : Timestamp) :
    r.Continues (r.reject reason now) :=
  ⟨rfl, rfl, rfl, rfl, rfl, rfl, rfl, rfl⟩

theorem AgentCommand.continues_expire (r : AgentCommand) (now : Timestamp)
    (terminalEventId : Option EventId) :
    r.Continues { r.expire now with terminalEventId } :=
  ⟨rfl, rfl, rfl, rfl, rfl, rfl, rfl, rfl⟩

theorem AgentCommand.Continues.identified (h : r.Continues r') (hid : r.Identified) :
    r'.Identified := by
  rw [AgentCommand.Identified, h.workspaceId, h.commandId, h.clusterId]
  exact hid

/-! ## The guards of an agent call -/

/-- The guards of an agent call on the row, as facts. -/
structure Held (r : AgentCommand) (req : AgentClaim) (statuses : List CommandStatus) : Prop where
  workspaceId : r.workspaceId = req.workspaceId
  clusterId : r.clusterId = req.clusterId
  leaseId : r.leaseId = some req.leaseId
  agentId : r.agentId = some req.agentId
  status : r.status ∈ statuses
  live : ∃ leasedUntil, r.leasedUntil = some leasedUntil ∧ req.now ≤ leasedUntil
  attemptId : ∀ aid, req.attemptId = some aid → r.activeAttemptId = some aid

theorem AgentCommand.heldBy_iff {statuses : List CommandStatus} :
    r.heldBy req statuses = true ↔ Held r req statuses := by
  simp only [AgentCommand.heldBy, Bool.and_eq_true, decide_eq_true_eq, Option.any_eq_true,
    Option.all_eq_true]
  constructor
  · rintro ⟨⟨⟨⟨⟨⟨hw, hcl⟩, hl⟩, hag⟩, hs⟩, t, ht, hle⟩, haid⟩
    exact ⟨hw, hcl, hl, hag, hs, ⟨t, ht, hle⟩, haid⟩
  · rintro ⟨hw, hcl, hl, hag, hs, ⟨t, ht, hle⟩, haid⟩
    exact ⟨⟨⟨⟨⟨⟨hw, hcl⟩, hl⟩, hag⟩, hs⟩, t, ht, hle⟩, haid⟩

theorem Held.attempt {statuses : List CommandStatus} (h : Held r req statuses)
    (hlease : SameLease r a) {attemptStatuses : List CommandAttemptStatus}
    (hs : a.status ∈ attemptStatuses) :
    a.heldBy req attemptStatuses = true := by
  obtain ⟨l, hrl, hal⟩ := hlease.lease
  obtain ⟨g, hrg, hag⟩ := hlease.agent
  have hl : some l = some req.leaseId := hrl.symm.trans h.leaseId
  have hg : some g = some req.agentId := hrg.symm.trans h.agentId
  simp only [AgentCommandAttempt.heldBy, Bool.and_eq_true, decide_eq_true_eq]
  exact ⟨⟨⟨hlease.workspace.trans h.workspaceId, hal.trans hl⟩, hag.trans hg⟩, hs⟩

theorem leaseAvailable_cases (h : leaseAvailable now r a = true) :
    (r.status = .queued ∧ a.status = .queued) ∨
      (r.status = .leased ∧ a.status = .leased ∧ ∃ t, a.leasedUntil = some t ∧ t < now) := by
  simpa [leaseAvailable, and_assoc, Option.any_eq_true] using h

theorem open_of_leaseAvailable (h : leaseAvailable now r a = true) :
    commandStatusIsTerminal r.status = false := by
  rcases leaseAvailable_cases h with ⟨hs, -⟩ | ⟨hs, -⟩ <;> rw [hs] <;> rfl

/-! ## Steps keep the invariant -/

theorem RowInv.update (h : RowInv n r as) (hn : n ≤ n') (hr : r.Continues r')
    (hf : ∀ a : AgentCommandAttempt, a.Continues (f a))
    (hlease : ∀ leaseId, r'.leaseId = some leaseId → leaseId < n')
    (hagrees : ∀ a ∈ as, r.activeAttemptId = some a.attemptId → Agrees r a → Agrees r' (f a))
    (hnone : Unprojected r → Unprojected r') (hid : r'.status ≠ .queued → r.Identified)
    (hretry : r'.status = .failed → r'.result.retryable = some true →
      ∀ a ∈ as, r.activeAttemptId = some a.attemptId → Agrees r a →
        (f a).status.isTerminal = true) :
    RowInv n' r' (onActive as r.activeAttemptId f) where
  numbers := by
    rw [map_onActive as _ fun a => (hf a).attemptNo, hr.attemptCount]
    exact h.numbers
  ids := by
    rw [map_onActive as _ fun a => (hf a).attemptId]
    exact h.ids
  fresh := by
    intro b hb
    rcases mem_onActive hb with ⟨a, ha, -, rfl⟩ | ⟨hb, -⟩
    · rw [(hf a).attemptId]
      exact Nat.lt_of_lt_of_le (h.fresh a ha) hn
    · exact Nat.lt_of_lt_of_le (h.fresh b hb) hn
  openActive := by
    intro b hb hopen
    rw [hr.activeAttemptId]
    rcases mem_onActive hb with ⟨a, -, hactive, rfl⟩ | ⟨hb, -⟩
    · rw [(hf a).attemptId]
      exact hactive
    · exact h.openActive b hb hopen
  leaseFresh := hlease
  payload := by
    rw [hr.payload, hr.action]
    exact h.payload
  phase := by
    rw [Phase, hr.activeAttemptId]
    rcases hactive : r.activeAttemptId with _ | aid
    · exact hnone (h.unprojected hactive)
    · obtain ⟨a, ha, rfl, hag⟩ := h.active hactive
      exact ⟨f a, onActive_mem ha f, (hf a).attemptId, hagrees a ha hactive hag⟩
  identified := fun hs => hr.identified (hid hs)
  retryable := by
    intro hs hres b hb
    rcases mem_onActive hb with ⟨a, ha, hactive, rfl⟩ | ⟨hb, hne⟩
    · obtain ⟨a', ha', hid', hag⟩ := h.active hactive
      have heq : a' = a := h.eq_of_id ha' ha hid'
      subst heq
      exact hretry hs hres a' ha hactive hag
    · rcases hterm : b.status.isTerminal with _ | _
      · exact absurd (h.openActive b hb hterm) hne
      · rfl

theorem RowInv.append (h : RowInv n r as) (hn : n < n')
    (hclosed : ∀ a ∈ as, a.status.isTerminal = true) (haid : a.attemptId = n)
    (hno : a.attemptNo = r.attemptCount + 1) (hstatus : a.status = .queued)
    (hcount : r'.attemptCount = r.attemptCount + 1) (hactive : r'.activeAttemptId = some n)
    (hrstatus : r'.status = .queued) (hlease : r'.leaseId = none)
    (hpayload : r'.payload = r.payload) (haction : r'.action = r.action) :
    RowInv n' r' (as ++ [a]) where
  numbers := by
    rw [List.map_append, h.numbers, hcount, List.range'_concat, List.map_singleton, hno]
    simp only [Nat.one_mul, Nat.add_comm]
  ids := by
    rw [List.map_append, List.nodup_append]
    refine ⟨h.ids, by simp, ?_⟩
    intro i hi j hj hij
    obtain ⟨b, hb, rfl⟩ := List.mem_map.mp hi
    rw [List.map_singleton, List.mem_singleton, haid] at hj
    exact absurd (hij.trans hj) (Nat.ne_of_lt (h.fresh b hb))
  fresh := by
    intro b hb
    rcases List.mem_append.mp hb with hb | hb
    · exact Nat.lt_trans (h.fresh b hb) hn
    · rw [List.mem_singleton.mp hb, haid]
      exact hn
  openActive := by
    intro b hb hopen
    rcases List.mem_append.mp hb with hb | hb
    · rw [hclosed b hb] at hopen
      cases hopen
    · rw [List.mem_singleton.mp hb, haid]
      exact hactive
  leaseFresh := by
    intro l hl
    rw [hlease] at hl
    cases hl
  payload := by
    rw [hpayload, haction]
    exact h.payload
  phase := by
    rw [Phase, hactive]
    refine ⟨a, List.mem_append_right as List.mem_cons_self, haid, ?_⟩
    rw [Agrees, hrstatus]
    exact hstatus
  identified := fun hs => absurd hrstatus hs
  retryable := by
    intro hs
    rw [hrstatus] at hs
    cases hs

theorem CommandStatus.held_cases
    (h : status ∈ [CommandStatus.leased, .running, .cancelRequested, .cancelling]) :
    status ≠ .queued ∧ commandStatusIsTerminal status = false := by
  cases status <;> simp at h <;> exact ⟨by simp, rfl⟩

theorem agrees_start (hheld : Held r req [.leased]) (h : Agrees r a) (leasedUntil : Timestamp) :
    Agrees (r.start leasedUntil req.now) (a.start req leasedUntil) ∧
      (a.start req leasedUntil).status = .running := by
  have hstatus : r.status = .leased := List.mem_singleton.mp hheld.status
  rw [Agrees, hstatus] at h
  obtain ⟨ha, hlease⟩ := h
  have hguard : a.heldBy req [.leased] = true := hheld.attempt hlease (by simp [ha])
  rw [AgentCommandAttempt.start, if_pos hguard]
  exact ⟨⟨rfl, hlease.lease, hlease.agent, hlease.workspace⟩, rfl⟩

theorem agrees_heartbeat (h : Agrees r a) (observed : Option ℤ) (leasedUntil : Timestamp) :
    Agrees (r.heartbeat (r.acknowledged observed) leasedUntil req.now)
      (a.heartbeat req leasedUntil) := by
  have hsame : ∀ {r' : AgentCommand}, r'.leaseId = r.leaseId → r'.agentId = r.agentId →
      r'.workspaceId = r.workspaceId → SameLease r a →
      SameLease r' (a.heartbeat req leasedUntil) := by
    intro r' hl hg hw hlease
    rw [AgentCommandAttempt.heartbeat]
    split <;>
      exact ⟨by rw [hl]; exact hlease.lease, by rw [hg]; exact hlease.agent,
        by rw [hw]; exact hlease.workspace⟩
  have hstatus : (a.heartbeat req leasedUntil).status = a.status := by
    rw [AgentCommandAttempt.heartbeat]
    split <;> rfl
  rcases hack : r.acknowledged observed with _ | _
  · have hr : (r.heartbeat false leasedUntil req.now).status = r.status := rfl
    rw [Agrees] at h ⊢
    rw [hr, hstatus]
    rcases hs : r.status with _ | _ | _ | _ | _ | _ | _ | _ <;> rw [hs] at h
    · exact h
    · exact ⟨h.1, hsame rfl rfl rfl h.2⟩
    · exact ⟨h.1, hsame rfl rfl rfl h.2⟩
    · exact ⟨h.1, hsame rfl rfl rfl h.2⟩
    · exact ⟨h.1, hsame rfl rfl rfl h.2⟩
    · trivial
    · trivial
    · trivial
  · -- an acknowledged cancel: `CANCEL_REQUESTED` becomes `CANCELLING`
    have hs : r.status = .cancelRequested := by
      rw [AgentCommand.acknowledged, Bool.and_eq_true, decide_eq_true_eq] at hack
      exact hack.1
    rw [Agrees, hs] at h
    exact ⟨hstatus.trans h.1, hsame rfl rfl rfl h.2⟩

theorem isTerminal_of_attemptStatus (h : status.attemptStatus = some attemptStatus) :
    attemptStatus.isTerminal = true := by
  cases status <;> simp [CommandStatus.attemptStatus] at h <;> subst h <;> rfl

theorem terminal_complete (hheld : Held r req [.running, .cancelRequested, .cancelling])
    (h : Agrees r a) (hattempt : status.attemptStatus = some attemptStatus) (result : CommandResult)
    :
    (a.complete req attemptStatus result).status.isTerminal = true := by
  have hrunning : a.status = .running ∧ SameLease r a := by
    have ht := (CommandStatus.held_cases (List.mem_cons_of_mem _ hheld.status)).2
    rcases h.open_cases ht with ⟨hs, -⟩ | ⟨hs, -⟩ | ⟨-, ha⟩
    · exact absurd hheld.status (by simp [hs])
    · exact absurd hheld.status (by simp [hs])
    · exact ha
  have hguard : a.heldBy req [.running, .leased] = true :=
    hheld.attempt hrunning.2 (by simp [hrunning.1])
  rw [AgentCommandAttempt.complete, if_pos hguard]
  exact isTerminal_of_attemptStatus hattempt

theorem agrees_of_terminal (h : commandStatusIsTerminal r.status = true) (a : AgentCommandAttempt) :
    Agrees r a := by
  rw [Agrees]
  cases hs : r.status <;> rw [hs] at h <;> trivial

theorem commandStatusIsTerminal_of_attemptStatus (h : status.attemptStatus = some attemptStatus) :
    commandStatusIsTerminal status = true := by
  cases status <;> simp [CommandStatus.attemptStatus] at h <;> rfl

theorem AgentCommand.expiredStatus_terminal (r : AgentCommand) :
    commandStatusIsTerminal r.expiredStatus = true := by
  rw [AgentCommand.expiredStatus]
  split <;> rfl

theorem AgentCommand.expired_open {graceSeconds queueTtlSeconds : ℤ}
    (h : r.expired now graceSeconds queueTtlSeconds = true) :
    commandStatusIsTerminal r.status = false := by
  unfold AgentCommand.expired at h
  rcases hs : r.status with _ | _ | _ | _ | _ | _ | _ | _ <;> rw [hs] at h
  case completed | failed | cancelled => simp [CommandStatus.isCancelling] at h
  all_goals rfl

theorem AgentCommand.unprojected_iff :
    r.unprojected = true ↔ r.status = .queued ∧ r.activeAttemptId = none ∧ r.attemptCount = 0 := by
  simp [AgentCommand.unprojected, and_assoc]

theorem AgentCommand.rejectable_iff {workspaceId clusterId : String} :
    r.rejectable workspaceId clusterId = true ↔
      r.workspaceId = workspaceId ∧ r.clusterId = clusterId ∧ r.status = .queued := by
  simp [AgentCommand.rejectable, and_assoc]

/-- **One step keeps the consistency of a command.** -/
theorem CommandStep.inv {catalog : CommandCatalog} {c : String} {op : Op} {v' : CommandView}
    {event : Option (String × OperationEventKind)} (h : CommandStep catalog n n' c op v event v')
    (hn : n ≤ n') (hv : CommandInv n v) :
    CommandInv n' v' := by
  cases h with
  | idle => exact hv.mono hn
  | noted => exact hv.mono hn
  | accepted hc =>
    rw [commandInv_none] at hv
    subst hv
    exact
      { numbers := rfl
        ids := List.nodup_nil
        fresh := fun a ha => absurd ha List.not_mem_nil
        openActive := fun a ha => absurd ha List.not_mem_nil
        leaseFresh := fun l hl => by cases hl
        payload := rfl
        phase := ⟨rfl, Or.inl rfl, rfl⟩
        identified := fun hs => absurd rfl hs
        retryable := fun hs => by cases hs }
  | queued hc hlt =>
    rw [commandInv_none] at hv
    subst hv
    refine
      { numbers := rfl
        ids := List.nodup_singleton _
        fresh := ?_
        openActive := ?_
        leaseFresh := fun l hl => by cases hl
        payload := rfl
        phase := ⟨_, List.mem_singleton.mpr rfl, rfl, rfl⟩
        identified := fun hs => absurd rfl hs
        retryable := fun hs => by cases hs }
    · intro a ha
      rw [List.mem_singleton.mp ha]
      exact hlt
    · intro a ha _
      rw [List.mem_singleton.mp ha]
      rfl
  | projected hc hlt hr =>
    obtain ⟨hstatus, hactive, hcount⟩ := AgentCommand.unprojected_iff.mp hr
    rw [commandInv_some] at hv
    -- a row without attempts: the new one is its first
    refine hv.append hlt (fun a ha => ?_) rfl (by rw [hcount]; rfl) rfl (by rw [hcount]; rfl) rfl
      hstatus (hv.unprojected hactive).lease rfl rfl
    have := hv.one_le_count ha
    omega
  | @leased req r as a hlt hw hcl ha hactive haw hdue havailable hid =>
    rw [commandInv_some] at hv
    refine hv.update hn (r.continues_lease ..) (fun b => b.continues_lease ..) ?_ ?_ ?_
      (fun _ => hid) (fun hs => by cases hs)
    · intro l hl
      cases hl
      exact hlt
    · intro b hb hb' _
      have heq : b = a := hv.eq_of_id hb ha (Option.some.inj (hb'.symm.trans hactive))
      subst heq
      exact ⟨rfl, ⟨n, rfl, rfl⟩, ⟨req.agentId, rfl, rfl⟩, haw.trans hw.symm⟩
    · intro hnone
      -- an unprojected row has no attempt to lease
      have := hv.one_le_count ha
      have := hnone.count
      omega
  | started hc hguard =>
    rw [commandInv_some] at hv
    have hheld := AgentCommand.heldBy_iff.mp hguard
    have hstatus := List.mem_singleton.mp hheld.status
    refine hv.update hn (AgentCommand.continues_start ..) (fun b => b.continues_start ..) ?_ ?_ ?_
      (fun _ => hv.identified (by rw [hstatus]; simp)) (fun hs => by cases hs)
    · intro l hl
      exact Nat.lt_of_lt_of_le (hv.leaseFresh l hl) hn
    · intro b _ _ hag
      exact (agrees_start hheld hag _).1
    · intro hnone
      rcases hnone.status with hs | hs
      · rw [hstatus] at hs
        cases hs
      · rw [hstatus] at hs
        cases hs
  | @heartbeat req observed r as hc hguard =>
    rw [commandInv_some] at hv
    have hheld := AgentCommand.heldBy_iff.mp hguard
    obtain ⟨hq, ht⟩ := CommandStatus.held_cases hheld.status
    refine hv.update hn (AgentCommand.continues_heartbeat ..) (fun b => b.continues_heartbeat ..)
      ?_ ?_ ?_ (fun _ => hv.identified hq) ?_
    · intro l hl
      exact Nat.lt_of_lt_of_le (hv.leaseFresh l hl) hn
    · intro b _ _ hag
      exact agrees_heartbeat hag _ _
    · intro hnone
      rcases hnone.status with hs | hs
      · exact absurd hs hq
      · rw [ht] at hs
        cases hs
    · intro hs
      have hne : (r.heartbeat (r.acknowledged observed) (req.appNow + req.leaseSeconds)
          req.now).status ≠ .failed := by
        rw [AgentCommand.heartbeat]
        dsimp only
        split
        · simp
        · intro hf
          rw [hf] at ht
          cases ht
      exact absurd hs hne
  | @completed req result source r as status kind attemptStatus terminalEventId hc hstatus hguard
      hkind hattempt =>
    rw [commandInv_some] at hv
    have hheld := AgentCommand.heldBy_iff.mp hguard
    have hterm := commandStatusIsTerminal_of_attemptStatus hattempt
    have hmem : r.status ∈ [CommandStatus.leased, .running, .cancelRequested, .cancelling] :=
      List.mem_cons_of_mem _ hheld.status
    obtain ⟨hq, ht⟩ := CommandStatus.held_cases hmem
    refine hv.update hn (AgentCommand.continues_complete ..) (fun b => b.continues_complete ..)
      ?_ ?_ ?_ (fun _ => hv.identified hq) ?_
    · intro l hl
      exact Nat.lt_of_lt_of_le (hv.leaseFresh l hl) hn
    · intro b _ _ _
      exact agrees_of_terminal hterm _
    · intro hnone
      exact ⟨hnone.count, Or.inr hterm, hnone.lease⟩
    · intro _ _ b _ _ hag
      exact terminal_complete hheld hag hattempt result
  | cancelled hc hw haction hstatus hid =>
    rw [commandInv_some] at hv
    refine hv.update hn (AgentCommand.continues_cancel ..) (fun b => b.continues_cancel ..) ?_ ?_ ?_
      (fun _ => hid) (fun hs => by cases hs)
    · intro l hl
      exact Nat.lt_of_lt_of_le (hv.leaseFresh l hl) hn
    · intro b _ _ _
      exact agrees_of_terminal rfl _
    · intro hnone
      exact ⟨hnone.count, Or.inr rfl, hnone.lease⟩
  | @cancelRequested req r as hc hw haction hstatus =>
    rw [commandInv_some] at hv ⊢
    rw [← onActive_id as r.activeAttemptId]
    refine hv.update hn (AgentCommand.continues_requestCancel ..) (fun b => b.continues_refl) ?_ ?_
      ?_ (fun _ => hv.identified (by rw [hstatus]; simp)) (fun hs => by cases hs)
    · intro l hl
      exact Nat.lt_of_lt_of_le (hv.leaseFresh l hl) hn
    · intro b _ _ hag
      rw [Agrees, hstatus] at hag
      exact ⟨hag.1, hag.2.lease, hag.2.agent, hag.2.workspace⟩
    · intro hnone
      rcases hnone.status with hs | hs
      · rw [hstatus] at hs
        cases hs
      · rw [hstatus] at hs
        cases hs
  | retried hc hlt hw haction hretry =>
    rw [commandInv_some] at hv
    obtain ⟨hfailed, -, -, -, hres⟩ := hretry
    exact hv.append hlt (hv.retryable hfailed hres) rfl rfl rfl rfl rfl rfl rfl rfl rfl
  | @rejected now workspaceId clusterId reason r as hr hid =>
    rw [commandInv_some] at hv ⊢
    rw [← onActive_id as r.activeAttemptId]
    refine hv.update hn (AgentCommand.continues_reject ..) (fun b => b.continues_refl) ?_ ?_ ?_
      (fun _ => hid) (fun _ hres => by cases hres)
    · intro l hl
      exact Nat.lt_of_lt_of_le (hv.leaseFresh l hl) hn
    · intro b _ _ _
      exact agrees_of_terminal rfl _
    · intro hnone
      exact ⟨hnone.count, Or.inr rfl, hnone.lease⟩
  | @expired now graceSeconds queueTtlSeconds source r as terminalEventId hr hid =>
    rw [commandInv_some] at hv
    refine hv.update hn (AgentCommand.continues_expire ..) (fun b => b.continues_expire ..) ?_ ?_ ?_
      (fun _ => hid) (fun _ hres => by cases hres)
    · intro l hl
      exact Nat.lt_of_lt_of_le (hv.leaseFresh l hl) hn
    · intro b _ _ _
      exact agrees_of_terminal r.expiredStatus_terminal _
    · intro hnone
      exact ⟨hnone.count, Or.inr r.expiredStatus_terminal, hnone.lease⟩

end Opsia
