import Opsia.Command.Refinement

/-!
# Logical command and attempts

What the two command tables say about each other in every reachable store. The
numbering, the single open attempt and the agreement of the statuses of an
active command hold in every run (`RowInv`). That a *closed* command has no open
attempt does not: the policy worker's rejection path closes the logical row and
leaves its attempt, and the attempt updates of the cancel and of the janitor miss
an attempt recorded under another workspace. `ClosesItsAttempt` says that a
transaction does neither; in runs of such transactions the whole agreement holds.
-/

namespace Opsia

open Runs

/-! ## The agreement of the two tables -/

/-- A logical row and its attempts agree. -/
structure Consistent (r : AgentCommand) (as : List AgentCommandAttempt) : Prop where
  /-- `attempt_count` counts the attempts -/
  count : as.length = r.attemptCount
  /-- the attempts are numbered `1..attempt_count` -/
  numbers : as.map (·.attemptNo) = List.range' 1 r.attemptCount
  /-- an open attempt is the active one -/
  openActive : ∀ a ∈ as, a.status.isTerminal = false → r.activeAttemptId = some a.attemptId
  /-- at most one attempt is open -/
  oneOpen : ∀ a ∈ as, ∀ b ∈ as, a.status.isTerminal = false → b.status.isTerminal = false → a = b
  /-- a queued command with an active attempt has it queued -/
  queued : r.status = .queued → ∀ aid, r.activeAttemptId = some aid →
    ∃ a ∈ as, a.attemptId = aid ∧ a.status = .queued
  /-- a leased command has its attempt leased under its lease -/
  leased : r.status = .leased →
    ∃ a ∈ as, r.activeAttemptId = some a.attemptId ∧ a.status = .leased ∧ SameLease r a
  /-- a running or cancelling command has its attempt running under its lease -/
  running : r.status ∈ [CommandStatus.running, .cancelRequested, .cancelling] →
    ∃ a ∈ as, r.activeAttemptId = some a.attemptId ∧ a.status = .running ∧ SameLease r a
  /-- a closed command has no open attempt -/
  closed : commandStatusIsTerminal r.status = true → ∀ a ∈ as, a.status.isTerminal = true

/-- Every command of the store agrees with its attempts, and every attempt
belongs to a command. -/
def StoreConsistent (s : Store) : Prop :=
  (∀ c r, s.commands.find? c = some r → Consistent r (s.view c).attempts) ∧
    ∀ a ∈ s.attempts.rows, ∃ r, s.commands.find? a.commandId = some r

/-- A closed command has no open attempt. -/
def ClosedInv (v : CommandView) : Prop :=
  ∀ r, v.row = some r → commandStatusIsTerminal r.status = true →
    ∀ a ∈ v.attempts, a.status.isTerminal = true

variable {r : AgentCommand} {as : List AgentCommandAttempt}

variable {n : Uuid} {a : AgentCommandAttempt}

/-- Everything but the last clause is part of the invariant of every run. -/
theorem RowInv.consistent (h : RowInv n r as) (hclosed : ClosedInv ⟨some r, as⟩) :
    Consistent r as where
  count := by
    have := congrArg List.length h.numbers
    rwa [List.length_map, List.length_range'] at this
  numbers := h.numbers
  openActive := h.openActive
  oneOpen := fun a ha b hb hoa hob =>
    h.eq_of_id ha hb (Option.some.inj ((h.openActive a ha hoa).symm.trans (h.openActive b hb hob)))
  queued := by
    intro hs aid haid
    obtain ⟨a, ha, hid, hag⟩ := h.active haid
    rw [Agrees, hs] at hag
    exact ⟨a, ha, hid, hag⟩
  leased := by
    intro hs
    obtain ⟨a, ha, hactive, hag⟩ :=
      h.active_of_held (by rw [hs]; simp) (by rw [hs]; rfl)
    rw [Agrees, hs] at hag
    exact ⟨a, ha, hactive, hag⟩
  running := by
    intro hs
    obtain ⟨hq, ht⟩ := CommandStatus.held_cases (List.mem_cons_of_mem .leased hs)
    obtain ⟨a, ha, hactive, hag⟩ := h.active_of_held hq ht
    rcases hag.open_cases ht with ⟨hr, -⟩ | ⟨hr, -⟩ | ⟨-, hrunning⟩
    · exact absurd hs (by simp [hr])
    · exact absurd hs (by simp [hr])
    · exact ⟨a, ha, hactive, hrunning⟩
  closed := fun hs => hclosed r rfl hs

/-! ## Closing a command -/

/-- The active attempt is recorded under the workspace of its command. -/
def AttemptAtHome (r : AgentCommand) (as : List AgentCommandAttempt) : Prop :=
  ∀ a ∈ as, r.activeAttemptId = some a.attemptId → a.workspaceId = r.workspaceId

/-- A transaction that closes the queued command `c` closes its attempt too: the
rejection path meets no attempt, the cancel and the janitor meet one of the
command's own workspace. -/
def ClosesItsAttempt (c : String) (v : CommandView) : Op → Prop
  | .failLogical _ workspaceId commandId clusterId _ =>
    ∀ r, v.row = some r → commandId = c → r.rejectable workspaceId clusterId = true →
      r.activeAttemptId = none
  | .control req =>
    ∀ r, v.row = some r → req.commandId = c → r.workspaceId = req.workspaceId →
      req.action = .cancel → r.status = .queued → AttemptAtHome r v.attempts
  | .failExpired now graceSeconds queueTtlSeconds _ =>
    ∀ r, v.row = some r → r.expired now graceSeconds queueTtlSeconds = true →
      r.status = .queued → AttemptAtHome r v.attempts
  | _ => True

theorem RowInv.all_closed (h : RowInv n r as) {f : AgentCommandAttempt → AgentCommandAttempt}
    (hf : ∀ a ∈ as, r.activeAttemptId = some a.attemptId → (f a).status.isTerminal = true) :
    ∀ a ∈ onActive as r.activeAttemptId f, a.status.isTerminal = true := by
  intro b hb
  rcases mem_onActive hb with ⟨a, ha, hactive, rfl⟩ | ⟨hb, hne⟩
  · exact hf a ha hactive
  · rcases ht : b.status.isTerminal with _ | _
    · exact absurd (h.openActive b hb ht) hne
    · rfl

theorem RowInv.agrees (h : RowInv n r as) (ha : a ∈ as)
    (hactive : r.activeAttemptId = some a.attemptId) : Agrees r a := by
  obtain ⟨b, hb, hid, hag⟩ := h.active hactive
  rwa [← h.eq_of_id hb ha hid]

theorem terminal_cancel {req : ControlRequest} (hw : a.workspaceId = req.workspaceId)
    (h : Agrees r a) (hstatus : r.status = .queued ∨ r.status = .leased) (result : CommandResult) :
    (a.cancel req result).status.isTerminal = true := by
  have hopen : a.status ∈ [CommandAttemptStatus.queued, .leased] := by
    have ht : commandStatusIsTerminal r.status = false := by
      rcases hstatus with hs | hs <;> rw [hs] <;> rfl
    rcases h.open_cases ht with ⟨-, ha⟩ | ⟨-, ha, -⟩ | ⟨hr, -⟩
    · simp [ha]
    · simp [ha]
    · rcases hstatus with hs | hs <;> simp [hs] at hr
  rw [AgentCommandAttempt.cancel, if_pos ⟨hw, hopen⟩]
  rfl

theorem terminal_expire (hw : a.workspaceId = r.workspaceId) (h : Agrees r a)
    (hstatus : commandStatusIsTerminal r.status = false) (result : CommandResult)
    (now : Timestamp) : (a.expire r.workspaceId result now).status.isTerminal = true := by
  have hopen : a.status ∈ [CommandAttemptStatus.queued, .leased, .running] := by
    rcases h.open_cases hstatus with ⟨-, ha⟩ | ⟨-, ha, -⟩ | ⟨-, ha, -⟩ <;> simp [ha]
  rw [AgentCommandAttempt.expire, if_pos ⟨hw, hopen⟩]
  rfl

theorem RowInv.at_home (h : RowInv n r as) (hq : r.status ≠ .queued)
    (ht : commandStatusIsTerminal r.status = false) : AttemptAtHome r as := by
  intro a ha hactive
  rcases (h.agrees ha hactive).open_cases ht with ⟨hs, -⟩ | ⟨-, -, hlease⟩ | ⟨-, -, hlease⟩
  · exact absurd hs hq
  · exact hlease.workspace
  · exact hlease.workspace

theorem CommandStep.closedInv {catalog : CommandCatalog} {n' : Uuid} {c : String} {op : Op}
    {v v' : CommandView} {event : Option (String × OperationEventKind)}
    (h : CommandStep catalog n n' c op v event v') (hv : CommandInv n v) (hclosed : ClosedInv v)
    (hok : ClosesItsAttempt c v op) : ClosedInv v' := by
  cases h with
  | idle => exact hclosed
  | noted => exact hclosed
  | accepted | queued | retried =>
    rintro r ⟨⟩ ht
    cases ht
  | @projected now correlationId plan r as hc hn hr =>
    rintro r' ⟨⟩ ht
    rw [AgentCommand.project, (AgentCommand.unprojected_iff.mp hr).1] at ht
    cases ht
  | leased | started | cancelRequested =>
    rintro r ⟨⟩ ht
    cases ht
  | @heartbeat req observed r as hc hguard =>
    rintro r' ⟨⟩ ht
    have hopen := (CommandStatus.held_cases (AgentCommand.heldBy_iff.mp hguard).status).2
    rw [AgentCommand.heartbeat] at ht
    dsimp only at ht
    split at ht
    · cases ht
    · rw [hopen] at ht
      cases ht
  | @completed req result source r as status kind attemptStatus terminalEventId hc hstatus hguard
      hkind hattempt =>
    rintro r' ⟨⟩ ht
    have hrow : RowInv n r as := hv
    exact hrow.all_closed fun a ha hactive =>
      terminal_complete (AgentCommand.heldBy_iff.mp hguard) (hrow.agrees ha hactive) hattempt result
  | @cancelled req r as result hc hw haction hstatus hid =>
    rintro r' ⟨⟩ ht
    have hrow : RowInv n r as := hv
    refine hrow.all_closed fun a ha hactive => ?_
    have hhome : a.workspaceId = r.workspaceId := by
      rcases hstatus with hs | hs
      · exact hok r rfl hc hw haction hs a ha hactive
      · exact hrow.at_home (by rw [hs]; simp) (by rw [hs]; rfl) a ha hactive
    exact terminal_cancel (hhome.trans hw) (hrow.agrees ha hactive) hstatus result
  | @rejected now workspaceId clusterId reason r as hr hid =>
    rintro r' ⟨⟩ ht a ha
    have hrow : RowInv n r as := hv
    -- the rejected command has no active attempt, so none is open
    have hnone := hok r rfl rfl hr
    rcases hterm : a.status.isTerminal with _ | _
    · rw [hrow.openActive a ha hterm] at hnone
      cases hnone
    · rfl
  | @expired now graceSeconds queueTtlSeconds source r as terminalEventId hr hid =>
    rintro r' ⟨⟩ ht
    have hrow : RowInv n r as := hv
    have hopen := AgentCommand.expired_open hr
    refine hrow.all_closed fun a ha hactive => ?_
    have hhome : a.workspaceId = r.workspaceId := by
      by_cases hs : r.status = .queued
      · exact hok r rfl hr hs a ha hactive
      · exact hrow.at_home hs hopen a ha hactive
    exact terminal_expire hhome (hrow.agrees ha hactive) hopen _ _

/-! ## Runs -/

/-- The condition on a transaction. -/
def ClosesAttempts (s : Store) (op : Op) : Prop := ∀ c, ClosesItsAttempt c (s.view c) op

theorem step_closedInv (catalog : CommandCatalog) (s : Store) (op : Op)
    (h : StoreInv s ∧ ∀ c, ClosedInv (s.view c)) (hok : ClosesAttempts s op) :
    StoreInv (step catalog s op) ∧ ∀ c, ClosedInv ((step catalog s op).view c) := by
  refine ⟨step_inv catalog s op h.1, fun c => ?_⟩
  obtain ⟨event, hstep, -⟩ := (step_refines catalog h.1 op).command c
  exact hstep.closedInv (h.1.commands c) (h.2 c) (hok c)

/-- **Row and attempts agree** in every store reached by transactions that close
the attempt of every command they close. -/
theorem run_consistent (catalog : CommandCatalog) (ops : List Op)
    (hok : Meets (step catalog) ClosesAttempts Store.empty ops) :
    StoreConsistent (run (step catalog) Store.empty ops) := by
  have hempty : StoreInv Store.empty ∧ ∀ c, ClosedInv (Store.empty.view c) :=
    ⟨storeInv_empty, fun c r hr => by cases hr⟩
  obtain ⟨hinv, hclosed⟩ := run_invariant_of_meets (step_closedInv catalog) hempty hok
  refine ⟨fun c r hr => ?_, fun a ha => ?_⟩
  · refine (hinv.row hr).consistent fun r' hr' ht => hclosed c r' ?_ ht
    cases hr'
    exact hr
  · rcases hr : (run (step catalog) Store.empty ops).commands.find? a.commandId with _ | r
    · have hnil := hinv.commands a.commandId
      rw [CommandInv, Store.view] at hnil
      simp only [hr] at hnil
      have hmem : a ∈ (run (step catalog) Store.empty ops).attempts.rows.filter
          fun b => b.commandId = a.commandId := List.mem_filter.mpr ⟨ha, decide_eq_true rfl⟩
      rw [hnil] at hmem
      exact absurd hmem List.not_mem_nil
    · exact ⟨r, rfl⟩

/-! ## A rejected command keeps its attempt -/

/-- A restart of a deployment, with two retries. -/
def restartPlan : Plan where
  commandId := "cmd-1"
  workspaceId := some "ws-1"
  clusterId := "cluster-1"
  action := "rollout_restart"
  priority := none
  retryPolicy := some ⟨.value 3, .value 10⟩
  directExecution := false

/-- The registered restart action. -/
def restartCatalog : CommandCatalog :=
  [{ action := "rollout_restart", supportsManualRetry := true, maxAttempts := 3 }]

/-- The worker projects a plan, then its rejection path closes the command. -/
def rejectedAfterQueue : List Op :=
  [.queue 0 "corr-1" restartPlan,
    .failLogical 1 "ws-1" "cmd-1" "cluster-1" "agent command could not be queued"]

/-- The closed command is left with a queued attempt. -/
theorem run_not_consistent :
    ¬ ∀ (catalog : CommandCatalog) (ops : List Op),
      StoreConsistent (run (step catalog) Store.empty ops) := by
  intro h
  have hconsistent := (h restartCatalog rejectedAfterQueue).1
  have hrow : ((run (step restartCatalog) Store.empty rejectedAfterQueue).commands.find?
      "cmd-1").any (fun r => commandStatusIsTerminal r.status) = true := by decide
  have hattempt : ((run (step restartCatalog) Store.empty rejectedAfterQueue).view
      "cmd-1").attempts.any (fun a => !a.status.isTerminal) = true := by decide
  obtain ⟨r, hr, hterminal⟩ := (Option.any_eq_true _ _).mp hrow
  obtain ⟨a, ha, hopen⟩ := List.any_eq_true.mp hattempt
  have hclosed := (hconsistent "cmd-1" r hr).closed hterminal a ha
  rw [hclosed] at hopen
  cases hopen

/-- A receipt that is rejected before it is projected. -/
theorem run_consistent_rejected_receipt :
    StoreConsistent (run (step restartCatalog) Store.empty
      [.accept 0 "corr-1" restartPlan "cluster-1" (.uuid4 7) none,
        .failLogical 1 "ws-1" "cmd-1" "cluster-1" "policy"]) := by
  refine run_consistent restartCatalog _ (meets_cons.mpr ⟨fun _ => trivial,
    meets_cons.mpr ⟨?_, fun _ h => absurd h List.not_mem_nil⟩⟩)
  rintro c r hr rfl -
  have hnone : ((step restartCatalog Store.empty (.accept 0 "corr-1" restartPlan "cluster-1"
      (.uuid4 7) none)).view "cmd-1").row.all (fun r => r.activeAttemptId.isNone) = true := by decide
  rw [Option.all_eq_true] at hnone
  exact Option.isNone_iff_eq_none.mp (hnone r hr)

end Opsia
