import Opsia.Command.Refinement

/-!
# At-most-once execution of an attempt

Leases expire while their agents are alive, cancels and the janitor race with
completions. Three facts of a store are *stable* — once true, true after every
transaction — and decide the races:

* an attempt has `Reached` a stage: stages only grow, so an attempt starts once
  and is never leased after it started;
* an attempt is `Spent`: its command is closed, or has moved on to another
  attempt, so nothing closes the attempt a second time;
* a lease is `TakenOver`: its command is under a later lease or under none, so the
  old lease opens no guard again.

`run_at_most_once` turns them into statements about pairs of transactions of one
run.
-/

namespace Opsia

open Runs

/-! ## Stages of an attempt -/

/-- The stage of an attempt: queued, leased, running, closed. -/
def CommandAttemptStatus.stage : CommandAttemptStatus → ℕ
  | .queued => 0
  | .leased => 1
  | .running => 2
  | .completed | .failed | .cancelled | .expired => 3

theorem CommandAttemptStatus.stage_le (status : CommandAttemptStatus) : status.stage ≤ 3 := by
  cases status <;> decide

variable {aid : Uuid} {c : String} {op : Op} {s' : Store} {r r' : AgentCommand}
  {a : AgentCommandAttempt} {req : AgentClaim} {v v' : CommandView}

theorem onActive_advances {as : List AgentCommandAttempt} {active : Option Uuid}
    {f : AgentCommandAttempt → AgentCommandAttempt}
    (hf : ∀ a : AgentCommandAttempt, a.Continues (f a))
    (hstage : ∀ a ∈ as, active = some a.attemptId → a.status.stage ≤ (f a).status.stage)
    (ha : a ∈ as) :
    ∃ b ∈ onActive as active f, b.attemptId = a.attemptId ∧ a.status.stage ≤ b.status.stage := by
  by_cases hactive : active = some a.attemptId
  · subst hactive
    exact ⟨f a, onActive_mem ha f, (hf a).attemptId, hstage a ha rfl⟩
  · exact ⟨a, onActive_mem_of_ne ha hactive f, rfl, Nat.le_refl _⟩

variable {s : Store} {catalog : CommandCatalog} {event : Option (String × OperationEventKind)}

theorem CommandStep.advances {n n' : Uuid} (h : CommandStep catalog n n' c op v event v')
    (hv : CommandInv n v) (ha : a ∈ v.attempts) :
    ∃ b ∈ v'.attempts, b.attemptId = a.attemptId ∧ a.status.stage ≤ b.status.stage := by
  have hsame : ∀ {as : List AgentCommandAttempt}, a ∈ as →
      ∃ b ∈ as, b.attemptId = a.attemptId ∧ a.status.stage ≤ b.status.stage :=
    fun hmem => ⟨a, hmem, rfl, Nat.le_refl _⟩
  have hclosed : ∀ (x : AgentCommandAttempt) (status : CommandAttemptStatus),
      status.isTerminal = true → x.status.stage ≤ status.stage := by
    intro x status hs
    have hstage : status.stage = 3 := by cases status <;> first | rfl | cases hs
    rw [hstage]
    exact x.status.stage_le
  cases h with
  | idle | noted | accepted | cancelRequested | rejected => exact hsame ha
  | queued | projected | retried => exact hsame (List.mem_append_left _ ha)
  | @leased req r as b hn hw hcl hb hactive haw hdue havailable hid =>
    have hrow : RowInv n r as := hv
    refine onActive_advances (fun x => x.continues_lease ..) (fun x hx hxactive => ?_) ha
    have heq : x = b := hrow.eq_of_id hx hb (Option.some.inj (hxactive.symm.trans hactive))
    subst heq
    -- the candidate was queued or leased
    have hle : x.status.stage ≤ 1 := by
      rcases leaseAvailable_cases havailable with ⟨-, hs⟩ | ⟨-, hs, -⟩ <;> rw [hs] <;> decide
    exact hle
  | started hc hguard =>
    refine onActive_advances (fun x => x.continues_start ..) (fun x _ _ => ?_) ha
    dsimp only [AgentCommandAttempt.start]
    split
    · rename_i hheld
      simp only [AgentCommandAttempt.heldBy, Bool.and_eq_true, decide_eq_true_eq,
        List.mem_singleton] at hheld
      rw [hheld.2]
      exact Nat.le_succ 1
    · exact Nat.le_refl _
  | heartbeat =>
    refine onActive_advances (fun x => x.continues_heartbeat ..) (fun x _ _ => ?_) ha
    dsimp only [AgentCommandAttempt.heartbeat]
    split <;> exact Nat.le_refl _
  | completed hc hstatus hguard hkind hattempt =>
    refine onActive_advances (fun x => x.continues_complete ..) (fun x _ _ => ?_) ha
    dsimp only [AgentCommandAttempt.complete]
    split
    · exact hclosed x _ (isTerminal_of_attemptStatus hattempt)
    · exact Nat.le_refl _
  | cancelled =>
    refine onActive_advances (fun x => x.continues_cancel ..) (fun x _ _ => ?_) ha
    dsimp only [AgentCommandAttempt.cancel]
    split
    · exact hclosed x .cancelled rfl
    · exact Nat.le_refl _
  | expired =>
    refine onActive_advances (fun x => x.continues_expire ..) (fun x _ _ => ?_) ha
    dsimp only [AgentCommandAttempt.expire]
    split
    · exact hclosed x .expired rfl
    · exact Nat.le_refl _

/-- The attempt has reached the stage `k`. -/
def Reached (aid : Uuid) (k : ℕ) (s : Store) : Prop :=
  ∃ a ∈ s.attempts.rows, a.attemptId = aid ∧ k ≤ a.status.stage

theorem stable_reached (catalog : CommandCatalog) (aid : Uuid) (k : ℕ) :
    Stable (step catalog) StoreInv (Reached aid k) := by
  rintro s op hs ⟨a, ha, rfl, hk⟩
  obtain ⟨event, hstep, -⟩ := (step_refines catalog hs op).command a.commandId
  have hmem : a ∈ (s.view a.commandId).attempts := List.mem_filter.mpr ⟨ha, decide_eq_true rfl⟩
  obtain ⟨b, hb, hid, hstage⟩ := hstep.advances (hs.commands _) hmem
  exact ⟨b, (List.mem_filter.mp hb).1, hid, Nat.le_trans hk hstage⟩

theorem StoreInv.active_attempt (hs : StoreInv s) (hr : s.commands.find? c = some r)
    (haid : r.activeAttemptId = some aid) :
    ∃ a ∈ s.attempts.rows, a.attemptId = aid ∧ Agrees r a := by
  obtain ⟨a, ha, hid, hag⟩ := (hs.row hr).active haid
  exact ⟨a, (List.mem_filter.mp ha).1, hid, hag⟩

theorem not_reached (ha : a ∈ s.attempts.rows) {k : ℕ} (hk : a.status.stage < k) :
    ¬ Reached a.attemptId k s := by
  rintro ⟨b, hb, hid, hle⟩
  have heq : b = a := List.inj_on_of_nodup_map s.attempts.nodup hb ha hid
  subst heq
  omega

/-! ## Successful calls -/

/-- The active attempt of a command. -/
def Store.activeAttempt (s : Store) (c : String) : Option Uuid :=
  (s.commands.find? c).bind (·.activeAttemptId)

theorem start_ok {reply : StartedAgentCommand} (h : startAgentCommand s req = .ok (some reply, s'))
    :
    ∃ r, s.commands.find? req.commandId = some r ∧ Held r req [.leased] ∧
      s'.commands.find? req.commandId =
        some (r.start (req.appNow + req.leaseSeconds) req.now) := by
  rcases start_cases h with ⟨hnone, -⟩ | ⟨r, event, hr, hheld, -, hstage⟩
  · cases hnone
  · refine ⟨r, hr, AgentCommand.heldBy_iff.mp hheld, ?_⟩
    rw [(stage_frame hstage).1, Table.find?_modify_self, hr]
    rfl

theorem lease_ok {req : LeaseRequest} {reply : LeasedAgentCommand}
    (h : leaseAgentCommand s req = .ok (some reply, s')) :
    ∃ r a, Leasable s req r a ∧ reply.commandId = r.commandId ∧ reply.attemptId = a.attemptId ∧
      reply.leaseId = s.nextId ∧ s'.nextId = s.nextId + 1 ∧
      s'.commands.find? r.commandId =
        some (r.lease s.nextId req.agentId (req.appNow + req.leaseSeconds) req.now) := by
  rcases lease_cases h with ⟨hnone, -⟩ | ⟨r, a, event, hl, hreply, hstage⟩
  · cases hnone
  · cases hreply
    obtain ⟨hcommands, -, hnext⟩ := stage_frame hstage
    refine ⟨r, a, hl, rfl, rfl, rfl, hnext, ?_⟩
    rw [hcommands, Table.find?_modify_self, hl.row]
    rfl

theorem complete_ok {result : CommandResult} {source : String} {reply : CompletedAgentCommand}
    (h : completeAgentCommandAndStageEvent catalog s req result source = .ok (some reply, s')) :
    ∃ r r', s.commands.find? req.commandId = some r ∧
      Held r req [.running, .cancelRequested, .cancelling] ∧
      s'.commands.find? req.commandId = some r' ∧ result.status = some r'.status ∧
      commandStatusIsTerminal r'.status = true := by
  rcases complete_cases h with ⟨hnone, -⟩ | ⟨r, status, kind, attemptStatus, event, s₂, completed,
    hstatus, hr, hheld, hkind, hattempt, hstage, -, rfl⟩
  · cases hnone
  · have hrow : s₂.commands.find? req.commandId = some (r.complete status result req.now) := by
      rw [(stage_frame hstage).1, Store.completeUpdate, Table.find?_modify_self, hr]
      rfl
    have hterminal := commandStatusIsTerminal_of_attemptStatus hattempt
    by_cases hprogress : kind = .progress
    · refine ⟨r, r.complete status result req.now, hr, AgentCommand.heldBy_iff.mp hheld, ?_,
        hstatus, hterminal⟩
      simp only [if_pos hprogress]
      exact hrow
    · refine ⟨r, (r.complete status result req.now).recordTerminalEvent completed.eventId, hr,
        AgentCommand.heldBy_iff.mp hheld, ?_, hstatus, hterminal⟩
      simp only [if_neg hprogress]
      rw [Table.find?_modify_self, hrow]
      rfl

theorem heartbeat_ok {observed : Option ℤ} {reply : HeartbeatAgentCommand}
    (h : heartbeatAgentCommand s req observed = .ok (some reply, s')) :
    ∃ r, s.commands.find? req.commandId = some r ∧
      Held r req [.leased, .running, .cancelRequested, .cancelling] := by
  rcases heartbeat_cases h with ⟨hnone, -⟩ | ⟨r, s₁, hr, hheld, -⟩
  · cases hnone
  · exact ⟨r, hr, AgentCommand.heldBy_iff.mp hheld⟩

/-! ## Starting an attempt -/

/-- The entry is a successful start of the attempt. -/
def startsAttempt (aid : Uuid) (e : Entry Store Op) : Prop :=
  ∃ req reply s', e.action = .start req ∧ startAgentCommand e.pre req = .ok (some reply, s') ∧
    e.pre.activeAttempt req.commandId = some aid

/-- The entry is a successful lease of the attempt. -/
def leasesAttempt (aid : Uuid) (e : Entry Store Op) : Prop :=
  ∃ req reply s', e.action = .lease req ∧ leaseAgentCommand e.pre req = .ok (some reply, s') ∧
    reply.attemptId = aid

/-- A command is `RUNNING` in the attempt. -/
def runningIn (aid : Uuid) (s : Store) : Prop :=
  ∃ c r, s.commands.find? c = some r ∧ r.status = .running ∧ r.activeAttemptId = some aid

theorem activeAttempt_eq (hr : s.commands.find? c = some r) (h : s.activeAttempt c = some aid) :
    r.activeAttemptId = some aid := by
  rwa [Store.activeAttempt, hr] at h

/-- A command that runs in an attempt brought it to the running stage. -/
theorem reached_of_running (hs : StoreInv s) (h : runningIn aid s) :
    Reached aid 2 s := by
  obtain ⟨c, r, hr, hstatus, haid⟩ := h
  obtain ⟨a, ha, hid, hag⟩ := hs.active_attempt hr haid
  rw [Agrees, hstatus] at hag
  exact ⟨a, ha, hid, by rw [hag.1]; exact Nat.le_refl 2⟩

theorem start_reaches (catalog : CommandCatalog) (hs : StoreInv s)
    (h : startsAttempt aid ⟨s, op, step catalog s op⟩) :
    ¬ Reached aid 2 s ∧ Reached aid 2 (step catalog s op) := by
  obtain ⟨req, reply, s', rfl, hok, hactive⟩ := h
  obtain ⟨r, hr, hheld, hr'⟩ := start_ok hok
  have haid := activeAttempt_eq hr hactive
  have hstatus : r.status = .leased := List.mem_singleton.mp hheld.status
  refine ⟨?_, ?_⟩
  · obtain ⟨a, ha, rfl, hag⟩ := hs.active_attempt hr haid
    rw [Agrees, hstatus] at hag
    exact not_reached ha (by rw [hag.1]; exact Nat.lt_succ_self 1)
  · have hinv := step_inv catalog s (.start req) hs
    have hstep : step catalog s (.start req) = s' := by rw [step, hok, Tx.commit_ok]
    rw [hstep] at hinv ⊢
    exact reached_of_running hinv ⟨req.commandId, _, hr', rfl, haid⟩

theorem lease_not_reached {req : LeaseRequest} {reply : LeasedAgentCommand}
    (h : leaseAgentCommand s req = .ok (some reply, s')) : ¬ Reached reply.attemptId 2 s := by
  obtain ⟨r, a, hl, -, haid, -⟩ := lease_ok h
  have hlt : a.status.stage < 2 := by
    rcases leaseAvailable_cases hl.available with ⟨-, hs⟩ | ⟨-, hs, -⟩ <;> rw [hs] <;> decide
  rw [haid]
  exact not_reached (Table.mem_of_find? hl.attempt) hlt

/-! ## Closing an attempt -/

/-- The entry is a successful completion, cancel, rejection or expiry of a command
whose active attempt is `aid`. -/
def closesAttempt (catalog : CommandCatalog) (aid : Uuid) (e : Entry Store Op) : Prop :=
  match e.action with
  | .complete req result source => e.pre.activeAttempt req.commandId = some aid ∧
      ∃ reply s', completeAgentCommandAndStageEvent catalog e.pre req result source =
        .ok (some reply, s')
  | .control req => e.pre.activeAttempt req.commandId = some aid ∧
      ∃ reply s', stageCommandControl catalog e.pre req = .ok (reply, s') ∧
        reply.status = .cancelled
  | .failLogical now workspaceId commandId clusterId reason =>
      ∃ r event s', e.pre.commands.find? commandId = some r ∧
        r.rejectable workspaceId clusterId = true ∧ r.activeAttemptId = some aid ∧
        failLogicalCommandAndStageEvent e.pre now workspaceId commandId clusterId reason =
          .ok (event, s')
  | .failExpired now graceSeconds queueTtlSeconds source =>
      ∃ rows s', failExpiredAgentCommands e.pre now graceSeconds queueTtlSeconds source =
        .ok (rows, s') ∧ ∃ r ∈ rows, r.activeAttemptId = some aid
  | _ => False

/-- The attempt is minted, and every command still active in it is closed. -/
def Spent (aid : Uuid) (s : Store) : Prop :=
  aid < s.nextId ∧ ∀ c r, s.commands.find? c = some r → r.activeAttemptId = some aid →
    commandStatusIsTerminal r.status = true

theorem CommandStep.active {n n' : Uuid} (h : CommandStep catalog n n' c op v event v')
    (hr' : v'.row = some r') (haid : r'.activeAttemptId = some aid) (hold : aid < n) :
    ∃ r, v.row = some r ∧ r.activeAttemptId = some aid ∧
      (commandStatusIsTerminal r.status = true → commandStatusIsTerminal r'.status = true) := by
  have hnew : ∀ {x : AgentCommand}, x.activeAttemptId = some n → x = r' → False := by
    rintro x hx rfl
    rw [hx] at haid
    exact Nat.ne_of_gt hold (Option.some.inj haid)
  cases h with
  | idle | noted => exact ⟨r', hr', haid, id⟩
  | accepted =>
    cases hr'
    cases haid
  | queued => exact absurd (Option.some.inj hr') fun he => hnew rfl he
  | projected => exact absurd (Option.some.inj hr') fun he => hnew rfl he
  | retried => exact absurd (Option.some.inj hr') fun he => hnew rfl he
  | @leased req r as a hn hw hcl ha hactive haw hdue havailable hid =>
    cases hr'
    exact ⟨r, rfl, haid, fun ht => by rw [open_of_leaseAvailable havailable] at ht; cases ht⟩
  | @started req r as hc hguard =>
    cases hr'
    have hs := List.mem_singleton.mp (AgentCommand.heldBy_iff.mp hguard).status
    exact ⟨r, rfl, haid, fun ht => by rw [hs] at ht; cases ht⟩
  | @heartbeat req observed r as hc hguard =>
    cases hr'
    have hopen := (CommandStatus.held_cases (AgentCommand.heldBy_iff.mp hguard).status).2
    exact ⟨r, rfl, haid, fun ht => by rw [hopen] at ht; cases ht⟩
  | @completed req result source r as status kind attemptStatus terminalEventId hc hstatus hguard
      hkind hattempt =>
    cases hr'
    exact ⟨r, rfl, haid, fun _ => commandStatusIsTerminal_of_attemptStatus hattempt⟩
  | @cancelled req r =>
    cases hr'
    exact ⟨r, rfl, haid, fun _ => rfl⟩
  | @cancelRequested req r as hc hw haction hstatus =>
    cases hr'
    exact ⟨r, rfl, haid, fun ht => by rw [hstatus] at ht; cases ht⟩
  | @rejected now workspaceId clusterId reason r =>
    cases hr'
    exact ⟨r, rfl, haid, fun _ => rfl⟩
  | @expired now graceSeconds queueTtlSeconds source r =>
    cases hr'
    exact ⟨r, rfl, haid, fun _ => r.expiredStatus_terminal⟩

theorem stable_spent (catalog : CommandCatalog) (aid : Uuid) :
    Stable (step catalog) StoreInv (Spent aid) := by
  rintro s op hs ⟨hlt, hspent⟩
  have hrefines := step_refines catalog hs op
  refine ⟨Nat.lt_of_lt_of_le hlt hrefines.nextId, fun c r' hr' haid => ?_⟩
  obtain ⟨event, hstep, -⟩ := hrefines.command c
  obtain ⟨r, hr, hactive, hclosed⟩ := hstep.active hr' haid hlt
  exact hclosed (hspent c r hr hactive)

theorem spent_of_close (catalog : CommandCatalog) (hs : StoreInv s) (op : Op)
    (hr : s.commands.find? c = some r) (haid : r.activeAttemptId = some aid)
    (hopen : commandStatusIsTerminal r.status = false)
    (hr' : (step catalog s op).commands.find? c = some r')
    (hclosed : commandStatusIsTerminal r'.status = true) :
    ¬ Spent aid s ∧ Spent aid (step catalog s op) := by
  have hrefines := step_refines catalog hs op
  obtain ⟨a, ha, hid, -⟩ := hs.active_attempt hr haid
  have hlt : aid < s.nextId := hid ▸ hs.attempt_fresh ha
  refine ⟨fun h => ?_, Nat.lt_of_lt_of_le hlt hrefines.nextId, fun c₂ r₂ hr₂ haid₂ => ?_⟩
  · rw [h.2 c r hr haid] at hopen
    cases hopen
  · -- the attempt has one owner
    obtain ⟨event, hstep, -⟩ := hrefines.command c₂
    obtain ⟨x, hx, hxaid, -⟩ := hstep.active hr₂ haid₂ hlt
    have hfind : s.attempts.find? aid = some a := hid ▸ Table.find?_of_mem ha
    have hown := hs.active_owner hr haid hfind
    have hown₂ := hs.active_owner hx hxaid hfind
    have hcc : c₂ = c := hown₂.symm.trans hown
    subst hcc
    rw [hr'] at hr₂
    cases hr₂
    exact hclosed

theorem cancel_closes {req : ControlRequest} {effect : ControlEffect}
    (hr : s.commands.find? req.commandId = some r)
    (h : stageCancelControl catalog s req r = .ok (effect, s'))
    (hcancelled : effect.details.statusAfter = .cancelled) :
    commandStatusIsTerminal r.status = false ∧ ∃ r', s'.commands.find? req.commandId = some r' ∧
      commandStatusIsTerminal r'.status = true := by
  unfold stageCancelControl at h
  simp only at h
  split at h
  · rcases hstatus : r.status with _ | _ | _ | _ | _ | _ | _ | _ <;> rw [hstatus] at h <;>
      simp only at h
    case queued | leased =>
      refine ⟨rfl, ?_⟩
      split at h
      · cases h
      · rename_i event s₂ hstage
        cases h
        refine ⟨r.cancel req (cancelResult req.reason), ?_, rfl⟩
        rw [(stage_frame hstage).1, Table.find?_modify_self, hr]
        rfl
    case running =>
      split at h
      · cases h
      · cases h
        cases hcancelled
    case cancelRequested | cancelling =>
      cases h
      cases hcancelled
    all_goals cases h
  · cases h

theorem close_spends (catalog : CommandCatalog) (hs : StoreInv s)
    (h : closesAttempt catalog aid ⟨s, op, step catalog s op⟩) :
    ¬ Spent aid s ∧ Spent aid (step catalog s op) := by
  cases op with
  | complete req result source =>
    obtain ⟨hactive, reply, s', hok⟩ := h
    obtain ⟨r, r', hr, hheld, hr', -, hclosed⟩ := complete_ok hok
    have hopen := (CommandStatus.held_cases (List.mem_cons_of_mem _ hheld.status)).2
    refine spent_of_close catalog hs _ hr (activeAttempt_eq hr hactive) hopen ?_ hclosed
    change (Tx.commit s (completeAgentCommandAndStageEvent catalog s req result source)
      ).commands.find? req.commandId = _
    rw [hok]
    exact hr'
  | control req =>
    obtain ⟨hactive, reply, s', hok, hcancelled⟩ := h
    obtain ⟨r, effect, s₁, controls, hr, hw, hbranch, hstatus, -, rfl⟩ := control_cases hok
    rw [hcancelled] at hstatus
    rcases haction : req.action with _ | _ <;> rw [haction] at hbranch
    · obtain ⟨hopen, r', hr', hclosed⟩ := cancel_closes hr hbranch hstatus.symm
      refine spent_of_close catalog hs _ hr (activeAttempt_eq hr hactive) hopen ?_ hclosed
      change (Tx.commit s (stageCommandControl catalog s req)).commands.find? req.commandId = _
      rw [hok]
      exact hr'
    · rw [(retry_cases hbranch).2.1] at hstatus
      cases hstatus
  | failLogical now workspaceId commandId clusterId reason =>
    obtain ⟨r, event, s', hr, hreject, haid, hok⟩ := h
    have hopen : commandStatusIsTerminal r.status = false := by
      rw [(AgentCommand.rejectable_iff.mp hreject).2.2]
      rfl
    have hclosed : commandStatusIsTerminal (r.reject reason now).status = true := rfl
    refine spent_of_close catalog hs _ hr haid hopen ?_ hclosed
    change (Tx.commit s (failLogicalCommandAndStageEvent s now workspaceId commandId clusterId
      reason)).commands.find? commandId = _
    rw [hok]
    rcases failLogical_cases hok with ⟨-, hnone⟩ | ⟨r₂, hr₂, -, hstage⟩
    · rw [hr, Option.filter_some, if_pos hreject] at hnone
      cases hnone
    · rw [Tx.commit_ok, (stage_frame hstage).1, Table.find?_modify_self, hr]
      rfl
  | failExpired now graceSeconds queueTtlSeconds source =>
    obtain ⟨rows, s', hok, x, hx, haid⟩ := h
    obtain ⟨-, hwritten⟩ := failExpired_sweep catalog hs hok
    obtain ⟨r, rfl, hr, hexpired, -, eventId, hr'⟩ := hwritten x hx
    have hclosed : commandStatusIsTerminal ((r.expire now).recordTerminalEvent eventId).status =
        true := r.expiredStatus_terminal
    refine spent_of_close catalog hs _ hr haid (AgentCommand.expired_open hexpired) ?_ hclosed
    change (Tx.commit s (failExpiredAgentCommands s now graceSeconds queueTtlSeconds source)
      ).commands.find? r.commandId = _
    rw [hok]
    exact hr'
  | _ => exact h.elim

/-! ## Taking a lease over -/

/-- The entry is a lease of `c` that replaces the lease `old` by the lease `new`
of `agentId`. -/
def takesOver (c : String) (old new : Uuid) (agentId : String) (e : Entry Store Op) : Prop :=
  ∃ req reply s' r, e.action = .lease req ∧ leaseAgentCommand e.pre req = .ok (some reply, s') ∧
    reply.commandId = c ∧ e.pre.commands.find? c = some r ∧ r.leaseId = some old ∧
    reply.leaseId = new ∧ req.agentId = agentId

/-- The entry is a start, heartbeat or completion that succeeds for the claim. -/
def callSucceeds (catalog : CommandCatalog) (claim : AgentClaim) (e : Entry Store Op) : Prop :=
  match e.action with
  | .start req => req = claim ∧ ∃ reply s', startAgentCommand e.pre req = .ok (some reply, s')
  | .heartbeat req observed => req = claim ∧
      ∃ reply s', heartbeatAgentCommand e.pre req observed = .ok (some reply, s')
  | .complete req result source => req = claim ∧
      ∃ reply s', completeAgentCommandAndStageEvent catalog e.pre req result source =
        .ok (some reply, s')
  | _ => False

theorem call_held {claim : AgentClaim} {e : Entry Store Op} (h : callSucceeds catalog claim e) :
    ∃ r, e.pre.commands.find? claim.commandId = some r ∧ r.leaseId = some claim.leaseId ∧
      r.agentId = some claim.agentId := by
  obtain ⟨s, op, s₁⟩ := e
  cases op with
  | start req =>
    obtain ⟨rfl, reply, s', hok⟩ := h
    obtain ⟨r, hr, hheld, -⟩ := start_ok hok
    exact ⟨r, hr, hheld.leaseId, hheld.agentId⟩
  | heartbeat req observed =>
    obtain ⟨rfl, reply, s', hok⟩ := h
    obtain ⟨r, hr, hheld⟩ := heartbeat_ok hok
    exact ⟨r, hr, hheld.leaseId, hheld.agentId⟩
  | complete req result source =>
    obtain ⟨rfl, reply, s', hok⟩ := h
    obtain ⟨r, r', hr, hheld, -⟩ := complete_ok hok
    exact ⟨r, hr, hheld.leaseId, hheld.agentId⟩
  | _ => exact h.elim

theorem CommandStep.lease {n n' : Uuid} (h : CommandStep catalog n n' c op v event v')
    (hr' : v'.row = some r') {leaseId : Uuid} (hlease : r'.leaseId = some leaseId) :
    leaseId = n ∨ ∃ r, v.row = some r ∧ r.leaseId = some leaseId ∧ r'.agentId = r.agentId := by
  cases h with
  | idle | noted => exact Or.inr ⟨r', hr', hlease, rfl⟩
  | accepted | queued | retried =>
    cases hr'
    cases hlease
  | leased =>
    cases hr'
    exact Or.inl (Option.some.inj hlease).symm
  | projected | started | heartbeat | completed | cancelled | cancelRequested | rejected
    | expired =>
    cases hr'
    exact Or.inr ⟨_, rfl, hlease, rfl⟩

/-- The lease `new` of `agentId` on `c` superseded every lease minted before it. -/
def TakenOver (c : String) (new : Uuid) (agentId : String) (s : Store) : Prop :=
  new < s.nextId ∧ ∀ r, s.commands.find? c = some r → ∀ leaseId, r.leaseId = some leaseId →
    (leaseId = new ∧ r.agentId = some agentId) ∨ new < leaseId

theorem stable_takenOver (catalog : CommandCatalog) (c : String) (new : Uuid) (agentId : String) :
    Stable (step catalog) StoreInv (TakenOver c new agentId) := by
  rintro s op hs ⟨hlt, htaken⟩
  have hrefines := step_refines catalog hs op
  refine ⟨Nat.lt_of_lt_of_le hlt hrefines.nextId, fun r' hr' leaseId hlease => ?_⟩
  obtain ⟨event, hstep, -⟩ := hrefines.command c
  rcases hstep.lease hr' hlease with rfl | ⟨r, hr, hbefore, hagent⟩
  · exact Or.inr hlt
  · rw [hagent]
    exact htaken r hr leaseId hbefore

/-- A lease that replaces another supersedes it. -/
theorem takesOver_takenOver (catalog : CommandCatalog) (hs : StoreInv s) {old new : Uuid}
    {agentId : String} (h : takesOver c old new agentId ⟨s, op, step catalog s op⟩) :
    old < new ∧ TakenOver c new agentId (step catalog s op) := by
  obtain ⟨req, reply, s', r, rfl, hok, rfl, hr, hold, rfl, rfl⟩ := h
  obtain ⟨r₂, a, hl, hc, -, hleaseId, hnext, hr'⟩ := lease_ok hok
  have hstep : step catalog s (.lease req) = s' := by rw [step, hok, Tx.commit_ok]
  rw [hc, hl.row] at hr
  cases hr
  rw [hstep, hleaseId, hc]
  refine ⟨(hs.row hl.row).leaseFresh old hold, by rw [hnext]; exact Nat.lt_succ_self _, ?_⟩
  intro x hx leaseId hlease
  rw [hr'] at hx
  cases hx
  exact Or.inl ⟨(Option.some.inj hlease).symm, rfl⟩

/-! ## Runs -/

/-- How an earlier transaction of a run constrains a later one: a lease that was
taken over opens no call any more, the lease that took over is used by its own
agent only, and an attempt that runs is never leased again. -/
structure Fenced (catalog : CommandCatalog) (e e' : Entry Store Op) : Prop where
  takeover : ∀ c old new agentId, takesOver c old new agentId e →
    ∀ claim, callSucceeds catalog claim e' → claim.commandId = c →
      claim.leaseId ≠ old ∧ (claim.leaseId = new → claim.agentId = agentId)
  running : ∀ aid, runningIn aid e.post → ¬ leasesAttempt aid e'

theorem trace_fenced (catalog : CommandCatalog) (ops : List Op) :
    (trace (step catalog) Store.empty ops).Pairwise (Fenced catalog) := by
  refine trace_pairwise (step_inv catalog) (fun s op hs => ?_) storeInv_empty ops
  refine ⟨fun t => (∀ c old new agentId, takesOver c old new agentId ⟨s, op, step catalog s op⟩ →
      old < new ∧ TakenOver c new agentId t) ∧
      ∀ aid, runningIn aid (step catalog s op) → Reached aid 2 t, ⟨?_, ?_⟩, ?_, ?_⟩
  · exact fun c old new agentId h => takesOver_takenOver catalog hs h
  · exact fun aid h => reached_of_running (step_inv catalog s op hs) h
  · rintro t b ht ⟨htaken, hreached⟩
    refine ⟨fun c old new agentId h => ?_, fun aid h => ?_⟩
    · exact ⟨(htaken c old new agentId h).1,
        stable_takenOver catalog c new agentId t b ht (htaken c old new agentId h).2⟩
    · exact stable_reached catalog aid 2 t b ht (hreached aid h)
  · rintro t b ht ⟨htaken, hreached⟩
    refine ⟨fun c old new agentId h claim hcall hc => ?_, fun aid h => ?_⟩
    · obtain ⟨hlt, -, hrow⟩ := htaken c old new agentId h
      obtain ⟨r, hr, hlease, hagent⟩ := call_held hcall
      rw [hc] at hr
      rcases hrow r hr claim.leaseId hlease with ⟨hnew, hown⟩ | hlater
      · refine ⟨fun he => Nat.ne_of_lt hlt (he.symm.trans hnew), fun _ => ?_⟩
        exact Option.some.inj (hagent.symm.trans hown)
      · refine ⟨fun he => Nat.lt_irrefl old ?_, fun he => absurd he (Nat.ne_of_gt hlater)⟩
        rw [he] at hlater
        exact Nat.lt_trans hlt hlater
    · rintro ⟨req, reply, s', -, hok, rfl⟩
      exact lease_not_reached hok (hreached _ h)

/-- **At most once.** In every run, for every attempt: at most one start succeeds,
at most one transaction closes it, an agent whose lease was taken over succeeds
no more, and once running it is never leased again. -/
theorem run_at_most_once (catalog : CommandCatalog) (ops : List Op) :
    (∀ aid, AtMostOnce (startsAttempt aid) (trace (step catalog) Store.empty ops)) ∧
      (∀ aid, AtMostOnce (closesAttempt catalog aid) (trace (step catalog) Store.empty ops)) ∧
      (trace (step catalog) Store.empty ops).Pairwise (Fenced catalog) := by
  refine ⟨fun aid => ?_, fun aid => ?_, trace_fenced catalog ops⟩
  · exact atMostOnce_of_stable (step_inv catalog) (stable_reached catalog aid 2)
      (fun s op hs h => start_reaches catalog hs h) storeInv_empty ops
  · exact atMostOnce_of_stable (step_inv catalog) (stable_spent catalog aid)
      (fun s op hs h => close_spends catalog hs h) storeInv_empty ops

end Opsia
