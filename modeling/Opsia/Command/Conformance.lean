import Opsia.Command.Consistency
import Opsia.Command.Execution

/-!
# The statements against the declared lifecycle

`lifecycle.py` declares which statuses may follow each other; the SQL statements
encode the same machine a second time. They agree but for one edge: the
completion stores whatever terminal status the agent reports, so a running
command that nobody asked to cancel goes from `RUNNING` to `CANCELLED`
(`CancelsRunning`). `step_conforms_iff` says that this is the only edge outside
the table, and that every such completion takes it.
-/

namespace Opsia

open PyText Runs

/-- Every command of both stores moved along the declared table. -/
def Conforms (s s' : Store) : Prop :=
  ∀ c r r', s.commands.find? c = some r → s'.commands.find? c = some r' →
    commandTransitionAllowed r.status r'.status = true

/-- The transaction is a completion that reports `CANCELLED` for a running
command, from the holder of its lease. -/
def CancelsRunning (s : Store) (op : Op) : Prop :=
  ∃ req result source r, op = .complete req result source ∧
    s.commands.find? req.commandId = some r ∧
    r.heldBy req [.running, .cancelRequested, .cancelling] = true ∧ r.status = .running ∧
    result.status = some .cancelled

theorem completion_allowed {before status : CommandStatus}
    {attemptStatus : CommandAttemptStatus}
    (hbefore : before ∈ [CommandStatus.running, .cancelRequested, .cancelling])
    (hattempt : status.attemptStatus = some attemptStatus)
    (hcancel : before = .running → status ≠ .cancelled) :
    commandTransitionAllowed before status = true := by
  have hterminal := commandStatusIsTerminal_of_attemptStatus hattempt
  simp only [List.mem_cons, List.not_mem_nil, or_false] at hbefore
  rcases hbefore with rfl | rfl | rfl
  · have hne := hcancel rfl
    cases status <;> first | rfl | exact absurd rfl hne | cases hterminal
  · cases status <;> first | rfl | cases hterminal
  · cases status <;> first | rfl | cases hterminal

/-- The edges of the janitor. -/
theorem expiry_allowed {r : AgentCommand} (hopen : commandStatusIsTerminal r.status = false) :
    commandTransitionAllowed r.status r.expiredStatus = true := by
  rw [AgentCommand.expiredStatus]
  cases hs : r.status <;> rw [hs] at hopen <;> first | rfl | cases hopen

/-- **Every other step follows the table.** -/
theorem CommandStep.conforms {catalog : CommandCatalog} {n n' : Uuid} {c : String} {op : Op}
    {v v' : CommandView} {event : Option (String × OperationEventKind)}
    (h : CommandStep catalog n n' c op v event v') {r r' : AgentCommand} (hr : v.row = some r)
    (hr' : v'.row = some r')
    (hok : ∀ req result source, op = .complete req result source → req.commandId = c →
      r.heldBy req [.running, .cancelRequested, .cancelling] = true → r.status = .running →
      result.status ≠ some .cancelled) :
    commandTransitionAllowed r.status r'.status = true := by
  cases h with
  | idle | noted =>
    rw [hr] at hr'
    cases hr'
    exact commandTransitionAllowed_self _
  | accepted | queued => cases hr
  | projected =>
    cases hr
    cases hr'
    exact commandTransitionAllowed_self _
  | leased hn hw hcl ha hactive haw hdue havailable hid =>
    cases hr
    cases hr'
    rcases leaseAvailable_cases havailable with ⟨hs, -⟩ | ⟨hs, -⟩ <;> rw [hs] <;> rfl
  | started hc hguard =>
    cases hr
    cases hr'
    rw [List.mem_singleton.mp (AgentCommand.heldBy_iff.mp hguard).status]
    rfl
  | @heartbeat req observed x as hc hguard =>
    cases hr
    cases hr'
    rcases hack : r.acknowledged observed with _ | _
    · exact commandTransitionAllowed_self _
    · rw [AgentCommand.acknowledged, Bool.and_eq_true, decide_eq_true_eq] at hack
      rw [hack.1]
      rfl
  | @completed req result source x as status kind attemptStatus terminalEventId hc hstatus hguard
      hkind hattempt =>
    cases hr
    cases hr'
    refine completion_allowed (AgentCommand.heldBy_iff.mp hguard).status hattempt
      fun hs hcancel => ?_
    exact hok req result source rfl hc hguard hs (hstatus.trans (congrArg some hcancel))
  | cancelled hc hw haction hstatus =>
    cases hr
    cases hr'
    rcases hstatus with hs | hs <;> rw [hs] <;> rfl
  | cancelRequested hc hw haction hstatus =>
    cases hr
    cases hr'
    rw [hstatus]
    rfl
  | retried hc hn hw haction hretry =>
    cases hr
    cases hr'
    rw [hretry.1]
    rfl
  | rejected hreject =>
    cases hr
    cases hr'
    rw [(AgentCommand.rejectable_iff.mp hreject).2.2]
    rfl
  | expired hexpired =>
    cases hr
    cases hr'
    exact expiry_allowed (AgentCommand.expired_open hexpired)

theorem complete_cancelled (catalog : CommandCatalog) {s : Store} (hs : StoreInv s)
    {req : AgentClaim} {result : CommandResult} (source : String) {r : AgentCommand}
    (hr : s.commands.find? req.commandId = some r)
    (hheld : r.heldBy req [.running, .cancelRequested, .cancelling] = true)
    (hstatus : result.status = some .cancelled) :
    ∃ reply s', completeAgentCommandAndStageEvent catalog s req result source =
      .ok (some reply, s') := by
  have hfacts := AgentCommand.heldBy_iff.mp hheld
  obtain ⟨hq, -⟩ := CommandStatus.held_cases (List.mem_cons_of_mem _ hfacts.status)
  obtain ⟨hw, hc, hcl⟩ := (hs.row hr).identified hq
  rw [hfacts.workspaceId] at hw
  rw [Table.key_of_find? hr] at hc
  rw [hfacts.clusterId] at hcl
  have hevent : strip (OperationPayload.clusterId
      { clusterId := req.clusterId, status := some .cancelled,
        correlationId := some r.correlationId, attemptId := r.activeAttemptId,
        result := some result }) ≠ "" := hcl
  have hstreams : ∀ k, StreamInv (s.completeUpdate req .cancelled .cancelled result r) k :=
    fun k => (hs.streams k).congr rfl rfl
  obtain ⟨event, s₂, hstage⟩ := stage_succeeds hstreams hw hc hevent req.now .cancelled
  have hkind : completionKind catalog r .cancelled result = some .cancelled := rfl
  rw [completeAgentCommandAndStageEvent]
  rw [hstatus, hr, Option.filter_some, if_pos hheld]
  simp only [hkind, CommandStatus.attemptStatus]
  rw [hstage]
  exact ⟨_, _, rfl⟩

/-- **Lifecycle conformance.** In every reachable store a transaction moves every
command along the declared table, unless it is a completion that reports
`CANCELLED` for a running command; and that completion never does. -/
theorem step_conforms_iff (catalog : CommandCatalog) (ops : List Op) (op : Op) :
    let s := run (step catalog) Store.empty ops
    Conforms s (step catalog s op) ↔ ¬ CancelsRunning s op := by
  intro s
  have hs : StoreInv s := reachable_inv catalog ops
  constructor
  · rintro hconforms ⟨req, result, source, r, rfl, hr, hheld, hrunning, hstatus⟩
    obtain ⟨reply, s', hok⟩ := complete_cancelled catalog hs source hr hheld hstatus
    obtain ⟨-, r', -, -, hr', hres, -⟩ := complete_ok hok
    have hstep : step catalog s (.complete req result source) = s' := by
      rw [step, hok, Tx.commit_ok]
    have := hconforms req.commandId r r' hr (by rw [hstep]; exact hr')
    have hcancelled : r'.status = .cancelled := Option.some.inj (hres.symm.trans hstatus)
    rw [hrunning, hcancelled] at this
    cases this
  · intro hok c r r' hr hr'
    obtain ⟨event, hstep, -⟩ := (step_refines catalog hs op).command c
    refine hstep.conforms hr hr' fun req result source hop hc hheld hrunning hstatus => ?_
    exact hok ⟨req, result, source, r, hop, by rw [hc]; exact hr, hheld, hrunning, hstatus⟩

/-! ## A running command reported cancelled -/

/-- The lease, start and completion of the restart by its agent. -/
def restartClaim (now : Timestamp) : AgentClaim where
  now := now
  appNow := now
  commandId := "cmd-1"
  workspaceId := "ws-1"
  clusterId := "cluster-1"
  leaseId := 1
  agentId := "agent-1"
  leaseSeconds := 60
  attemptId := none

/-- The restart is projected, leased and started. -/
def restartRunning : List Op :=
  [.queue 0 "corr-1" restartPlan,
    .lease ⟨1, 1, "cluster-1", "ws-1", "agent-1", 60, []⟩, .start (restartClaim 2)]

/-- The agent reports `CANCELLED` although no cancel was requested. -/
theorem step_not_conforms :
    ¬ ∀ (catalog : CommandCatalog) (ops : List Op) (op : Op),
      Conforms (run (step catalog) Store.empty ops)
        (step catalog (run (step catalog) Store.empty ops) op) := by
  intro h
  have hconforms := h restartCatalog restartRunning
    (.complete (restartClaim 3) { status := some .cancelled } "agent-api")
  have hbefore : ((run (step restartCatalog) Store.empty restartRunning).commands.find?
      "cmd-1").any (fun r => r.status = .running) = true := by decide
  have hafter : ((step restartCatalog (run (step restartCatalog) Store.empty restartRunning)
      (.complete (restartClaim 3) { status := some .cancelled } "agent-api")).commands.find?
      "cmd-1").any (fun r => r.status = .cancelled) = true := by decide
  obtain ⟨r, hr, hrunning⟩ := (Option.any_eq_true _ _).mp hbefore
  obtain ⟨r', hr', hcancelled⟩ := (Option.any_eq_true _ _).mp hafter
  have := hconforms "cmd-1" r r' hr hr'
  rw [of_decide_eq_true hrunning, of_decide_eq_true hcancelled] at this
  cases this

end Opsia
