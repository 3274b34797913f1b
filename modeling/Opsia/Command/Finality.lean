import Mathlib.Data.Fintype.EquivFin
import Opsia.Command.Refinement

/-!
# A stream closes when its command is final

The completion decides whether a failure closes the operation stream; the retry
control decides, elsewhere and later, whether the failed command may run again.
`Settled` is the state in which the command can do nothing more: a terminal
status that the retry control refuses. A stream is closed exactly when its
command is settled (`LogInv`), and a settled command never changes again.
-/

namespace Opsia

open PyText SealedLog Runs

/-- A terminal command that the retry control refuses. -/
def AgentCommand.Settled (catalog : CommandCatalog) (r : AgentCommand) : Prop :=
  commandStatusIsTerminal r.status = true ∧ ¬ r.Retryable catalog

/-- The streams of a command are open, but for the stream of a settled command. -/
def LogInv (catalog : CommandCatalog) (v : CommandView)
    (kinds : String → List OperationEventKind) : Prop :=
  ∀ w, Closed OperationEventKind.terminal (kinds w) ↔
    ∃ r, v.row = some r ∧ r.workspaceId = w ∧ r.Settled catalog

/-! ## Steps -/

variable {catalog : CommandCatalog} {r : AgentCommand}
  {event : Option (String × OperationEventKind)} {kinds : String → List OperationEventKind}

theorem closed_logAfter {w : String} {kinds : List OperationEventKind} :
    Closed OperationEventKind.terminal (logAfter event w kinds) ↔
      Closed OperationEventKind.terminal kinds ∨
        ∃ kind, event = some (w, kind) ∧ kind.terminal = true := by
  rcases event with _ | ⟨w', kind⟩
  · exact ⟨Or.inl, fun h => h.elim id fun ⟨_, he, _⟩ => by cases he⟩
  · rw [logAfter]
    by_cases hw : w = w'
    · rw [if_pos hw, closed_push, hw]
      constructor
      · rintro (h | h)
        · exact Or.inl h
        · exact Or.inr ⟨kind, rfl, h⟩
      · rintro (h | ⟨_, ⟨⟩, h⟩)
        · exact Or.inl h
        · exact Or.inr h
    · rw [if_neg hw]
      constructor
      · exact Or.inl
      · rintro (h | ⟨_, ⟨⟩, _⟩)
        · exact h
        · exact absurd rfl hw

variable {c : String} {v v' : CommandView}

theorem LogInv.keep (h : LogInv catalog v kinds) (hopen : ∀ r, v.row = some r → ¬ r.Settled catalog)
    (hopen' : ∀ r, v'.row = some r → ¬ r.Settled catalog)
    (hevent : ∀ w kind, event = some (w, kind) → kind.terminal = false) :
    LogInv catalog v' fun w => logAfter event w (kinds w) := by
  intro w
  rw [closed_logAfter, h w]
  constructor
  · rintro (⟨r, hr, -, hs⟩ | ⟨kind, he, hk⟩)
    · exact absurd hs (hopen r hr)
    · rw [hevent w kind he] at hk
      cases hk
  · rintro ⟨r, hr, -, hs⟩
    exact absurd hs (hopen' r hr)

theorem LogInv.close {r' : AgentCommand} {as as' : List AgentCommandAttempt}
    {kind : OperationEventKind} (h : LogInv catalog ⟨some r, as⟩ kinds)
    (hopen : ¬ r.Settled catalog) (hw : r'.workspaceId = r.workspaceId)
    (hkind : kind.terminal = true) (hsettled : r'.Settled catalog) :
    LogInv catalog ⟨some r', as'⟩ fun w => logAfter (some (r.workspaceId, kind)) w (kinds w) := by
  intro w
  rw [closed_logAfter, h w]
  constructor
  · rintro (⟨r₀, hr₀, -, hs⟩ | ⟨k, he, -⟩)
    · cases hr₀
      exact absurd hs hopen
    · cases he
      exact ⟨r', rfl, hw, hsettled⟩
  · rintro ⟨r₀, hr₀, hw₀, -⟩
    cases hr₀
    exact Or.inr ⟨kind, by rw [← hw₀, hw], hkind⟩

theorem LogInv.noted (h : LogInv catalog v kinds) (w : String) :
    LogInv catalog v fun w' => logAfter (some (w, .progress)) w' (kinds w') := by
  intro w'
  rw [closed_logAfter, h w']
  constructor
  · rintro (hs | ⟨kind, he, hk⟩)
    · exact hs
    · cases he
      cases hk
  · exact Or.inl

theorem AgentCommand.not_settled_of_open (h : commandStatusIsTerminal r.status = false) :
    ¬ r.Settled catalog := by
  rintro ⟨ht, -⟩
  rw [h] at ht
  cases ht

theorem AgentCommand.settled_of_not_failed (ht : commandStatusIsTerminal r.status = true)
    (hf : r.status ≠ .failed) :
    r.Settled catalog := ⟨ht, fun h => hf h.1⟩

theorem AgentCommand.settled_of_result (ht : commandStatusIsTerminal r.status = true)
    (hres : r.result.retryable ≠ some true) :
    r.Settled catalog := ⟨ht, fun h => hres h.2.2.2.2⟩

/-- **The two decisions agree.** The event of a completion is terminal exactly
when the retry control will refuse the completed row. -/
theorem completionKind_terminal_iff {status : CommandStatus} {result : CommandResult}
    {kind : OperationEventKind} (hkind : completionKind catalog r status result = some kind)
    (hterminal : commandStatusIsTerminal status = true) (hpayload : r.payload.action = r.action)
    (hcount : 1 ≤ r.attemptCount) (now : Timestamp) (terminalEventId : Option EventId) :
    kind.terminal = true ↔
      ({ r.complete status result now with terminalEventId } : AgentCommand).Settled catalog := by
  by_cases hfailed : status = .failed
  · subst hfailed
    have hfinal : finalFailure catalog r.payload result r.attemptCount = false ↔
        ({ r.complete .failed result now with terminalEventId } :
          AgentCommand).Retryable catalog := by
      rw [finalFailure, hpayload]
      simp only [Bool.not_eq_false', Bool.and_eq_true, decide_eq_true_eq]
      constructor
      · rintro ⟨⟨hres, hspec⟩, hbudget⟩
        exact ⟨rfl, hspec, show 2 ≤ (commandRetryPolicy r.payload).1 by omega, hbudget, hres⟩
      · rintro ⟨-, hspec, -, hbudget, hres⟩
        exact ⟨⟨hres, hspec⟩, hbudget⟩
    rw [completionKind] at hkind
    rcases hf : finalFailure catalog r.payload result r.attemptCount with _ | _
    · rw [hf] at hkind
      cases hkind
      exact ⟨fun h => (by cases h), fun h => absurd (hfinal.mp hf) h.2⟩
    · rw [hf] at hkind
      cases hkind
      refine ⟨fun _ => ⟨rfl, fun hretry => ?_⟩, fun _ => rfl⟩
      rw [hfinal.mpr hretry] at hf
      cases hf
  · have htrue : (decide (status ≠ .failed) ||
        finalFailure catalog r.payload result r.attemptCount) = true := by simp [hfailed]
    rw [completionKind, htrue] at hkind
    exact ⟨fun _ => AgentCommand.settled_of_not_failed hterminal hfailed,
      fun _ => (commandTerminalEventKind_final hkind).2⟩

/-- **One step keeps the streams of a command open until it is settled.** -/
theorem CommandStep.logInv {n n' : Uuid} {op : Op} (h : CommandStep catalog n n' c op v event v')
    (hv : CommandInv n v) (hlog : LogInv catalog v kinds) :
    LogInv catalog v' fun w => logAfter event w (kinds w) := by
  have hprogress : ∀ (u w : String) (kind : OperationEventKind),
      some (u, OperationEventKind.progress) = some (w, kind) → kind.terminal = false := by
    rintro u w kind ⟨⟩
    rfl
  cases h with
  | idle => exact hlog
  | noted => exact hlog.noted _
  | accepted =>
    refine hlog.keep (fun r hr => by cases hr) ?_ (hprogress _)
    rintro r ⟨⟩
    exact AgentCommand.not_settled_of_open rfl
  | queued =>
    refine hlog.keep (fun r hr => by cases hr) ?_ (fun _ _ he => by cases he)
    rintro r ⟨⟩
    exact AgentCommand.not_settled_of_open rfl
  | @projected now correlationId plan r as hc hn hr =>
    have hopen : commandStatusIsTerminal r.status = false := by
      rw [(AgentCommand.unprojected_iff.mp hr).1]
      rfl
    refine hlog.keep ?_ ?_ (fun _ _ he => by cases he)
    · rintro r' ⟨⟩
      exact AgentCommand.not_settled_of_open hopen
    · rintro r' ⟨⟩
      exact AgentCommand.not_settled_of_open hopen
  | @leased req r as a hn hw hcl ha hactive haw hdue havailable hid =>
    refine hlog.keep ?_ ?_ (hprogress _)
    · rintro r' ⟨⟩
      exact AgentCommand.not_settled_of_open (open_of_leaseAvailable havailable)
    · rintro r' ⟨⟩
      exact AgentCommand.not_settled_of_open rfl
  | @started req r as hc hguard =>
    have hstatus := List.mem_singleton.mp (AgentCommand.heldBy_iff.mp hguard).status
    refine hlog.keep ?_ ?_ (hprogress _)
    · rintro r' ⟨⟩
      exact AgentCommand.not_settled_of_open (by rw [hstatus]; rfl)
    · rintro r' ⟨⟩
      exact AgentCommand.not_settled_of_open rfl
  | @heartbeat req observed r as hc hguard =>
    have hopen := (CommandStatus.held_cases (AgentCommand.heldBy_iff.mp hguard).status).2
    refine hlog.keep ?_ ?_ ?_
    · rintro r' ⟨⟩
      exact AgentCommand.not_settled_of_open hopen
    · rintro r' ⟨⟩
      refine AgentCommand.not_settled_of_open ?_
      rw [AgentCommand.heartbeat]
      dsimp only
      split
      · rfl
      · exact hopen
    · intro w kind he
      split at he
      · exact hprogress _ w kind he
      · cases he
  | @completed req result source r as status kind attemptStatus terminalEventId hc hstatus hguard
      hkind hattempt =>
    have hheld := AgentCommand.heldBy_iff.mp hguard
    have hrow : RowInv n r as := hv
    have hterminal := commandStatusIsTerminal_of_attemptStatus hattempt
    obtain ⟨hq, hopen⟩ := CommandStatus.held_cases (List.mem_cons_of_mem _ hheld.status)
    obtain ⟨a, ha, -, -⟩ := hrow.active_of_held hq hopen
    have hiff := completionKind_terminal_iff hkind hterminal hrow.payload (hrow.one_le_count ha)
      req.now terminalEventId
    rcases hk : kind.terminal with _ | _
    · -- a failure that may be retried
      refine hlog.keep ?_ ?_ ?_
      · rintro r' ⟨⟩
        exact AgentCommand.not_settled_of_open hopen
      · rintro r' ⟨⟩ hsettled
        rw [hiff.mpr hsettled] at hk
        cases hk
      · rintro w k ⟨⟩
        exact hk
    · exact hlog.close (AgentCommand.not_settled_of_open hopen) rfl hk (hiff.mp hk)
  | @cancelled req r as result hc hw haction hstatus hid =>
    refine hlog.close (AgentCommand.not_settled_of_open ?_) rfl rfl
      (AgentCommand.settled_of_not_failed rfl (by simp [AgentCommand.cancel]))
    rcases hstatus with hs | hs <;> rw [hs] <;> rfl
  | @cancelRequested req r as hc hw haction hstatus =>
    refine hlog.keep ?_ ?_ (hprogress _)
    · rintro r' ⟨⟩
      exact AgentCommand.not_settled_of_open (by rw [hstatus]; rfl)
    · rintro r' ⟨⟩
      exact AgentCommand.not_settled_of_open rfl
  | @retried req r as hc hn hw haction hretry =>
    refine hlog.keep ?_ ?_ (hprogress _)
    · rintro r' ⟨⟩ hsettled
      exact hsettled.2 hretry
    · rintro r' ⟨⟩
      exact AgentCommand.not_settled_of_open rfl
  | @rejected now workspaceId clusterId reason r as hr hid =>
    refine hlog.close (AgentCommand.not_settled_of_open ?_) rfl rfl
      (AgentCommand.settled_of_result rfl (by simp [AgentCommand.reject, rejectionResult]))
    rw [(AgentCommand.rejectable_iff.mp hr).2.2]
    rfl
  | @expired now graceSeconds queueTtlSeconds source r as terminalEventId hr hid =>
    refine hlog.close (AgentCommand.not_settled_of_open (AgentCommand.expired_open hr)) rfl
      (by split <;> rfl) (AgentCommand.settled_of_result r.expiredStatus_terminal ?_)
    simp [AgentCommand.expire, AgentCommand.expiredResult]

theorem CommandStep.settled {n n' : Uuid} {op : Op} (h : CommandStep catalog n n' c op v event v')
    (hrow : v.row = some r) (hsettled : r.Settled catalog) : v' = v := by
  have hopen : commandStatusIsTerminal r.status ≠ false := by rw [hsettled.1]; simp
  cases h with
  | idle => rfl
  | noted => rfl
  | accepted | queued => cases hrow
  | projected hc hn hr =>
    cases hrow
    exact absurd (by rw [(AgentCommand.unprojected_iff.mp hr).1]; rfl) hopen
  | leased hn hw hcl ha hactive haw hdue havailable hid =>
    cases hrow
    exact absurd (open_of_leaseAvailable havailable) hopen
  | started hc hguard =>
    cases hrow
    have hs := List.mem_singleton.mp (AgentCommand.heldBy_iff.mp hguard).status
    exact absurd (by rw [hs]; rfl) hopen
  | heartbeat hc hguard =>
    cases hrow
    exact absurd (CommandStatus.held_cases (AgentCommand.heldBy_iff.mp hguard).status).2 hopen
  | completed hc hstatus hguard =>
    cases hrow
    have hs := (AgentCommand.heldBy_iff.mp hguard).status
    exact absurd (CommandStatus.held_cases (List.mem_cons_of_mem _ hs)).2 hopen
  | cancelled hc hw haction hstatus =>
    cases hrow
    rcases hstatus with hs | hs <;> exact absurd (by rw [hs]; rfl) hopen
  | cancelRequested hc hw haction hstatus =>
    cases hrow
    exact absurd (by rw [hstatus]; rfl) hopen
  | retried hc hn hw haction hretry =>
    cases hrow
    exact absurd hretry hsettled.2
  | rejected hr =>
    cases hrow
    exact absurd (by rw [(AgentCommand.rejectable_iff.mp hr).2.2]; rfl) hopen
  | expired hr =>
    cases hrow
    exact absurd (AgentCommand.expired_open hr) hopen

/-! ## The retry control -/

theorem exists_fresh_key (keys : List String) : ∃ key, key ∉ keys := by
  obtain ⟨key, hkey⟩ := Infinite.exists_notMem_finset keys.toFinset
  exact ⟨key, fun h => hkey (List.mem_toFinset.mpr h)⟩

theorem retry_accepted {s : Store} (hs : StoreInv s) (hr : s.commands.find? c = some r)
    (hretry : r.Retryable catalog) :
    ∃ req : ControlRequest, req.commandId = c ∧ req.workspaceId = r.workspaceId ∧
      req.action = .retry ∧ ∃ reply s', stageCommandControl catalog s req = .ok (reply, s') ∧
        s'.commands.find? c = some (r.retry s.nextId req.now) := by
  obtain ⟨key, hkey⟩ := exists_fresh_key (s.controls.rows.map (·.idempotencyKey))
  refine ⟨⟨0, r.workspaceId, c, .retry, key, "", none, .uuid4 0, .uuid4 0⟩, rfl, rfl, rfl, ?_⟩
  have hrow := hs.row hr
  obtain ⟨hstatus, hspec, hmax, hbudget, hres⟩ := hretry
  -- the key is unused
  have hcontrol : s.controls.find? (r.workspaceId, c, .retry, key) = none := by
    refine Table.find?_eq_none.mpr fun control hmem hk => hkey ?_
    have hk' : control.idempotencyKey = key := congrArg (·.2.2.2) hk
    exact hk' ▸ List.mem_map_of_mem (f := (·.idempotencyKey)) hmem
  -- the attempt is new, and no attempt has its number
  have hnone : s.attempts.find? s.nextId = none :=
    Table.find?_eq_none.mpr fun b hb hid => Nat.ne_of_lt (hs.attempt_fresh hb) hid
  have hnumber : ∀ b ∈ s.attempts.rows, b.commandId = c → b.attemptNo ≠ r.attemptCount + 1 := by
    intro b hb hc hno
    have hmem : b ∈ (s.view c).attempts := List.mem_filter.mpr ⟨hb, decide_eq_true hc⟩
    have hrange : b.attemptNo ∈ List.range' 1 r.attemptCount := by
      rw [← hrow.numbers]
      exact List.mem_map_of_mem hmem
    have := (List.mem_range'_1.mp hrange).2
    omega
  obtain ⟨attempts, hattempt⟩ := agentCommandAttemptInsert_ok
    (a := agentCommandAttemptValues 0 s.nextId c r.workspaceId r.clusterId (r.attemptCount + 1)
      (0 + (commandRetryPolicy r.payload).2)) hnone hnumber
  -- the event has an identity
  obtain ⟨hw, hc, hcl⟩ := hrow.identified (by rw [hstatus]; simp)
  rw [Table.key_of_find? hr] at hc
  have hstreams : ∀ k, StreamInv
      { s with
        attempts
        commands := s.commands.modify c (·.retry s.nextId 0) fun r => r.commandId_retry s.nextId 0
        nextId := s.nextId + 1 } k := fun k => (hs.streams k).congr rfl rfl
  have hevent : strip (OperationPayload.clusterId
      { clusterId := r.clusterId, status := some .queued, correlationId := some r.correlationId,
        attemptId := some s.nextId }) ≠ "" := hcl
  obtain ⟨event, s₂, hstage⟩ := stage_succeeds hstreams hw hc hevent 0 .progress
  obtain ⟨effect, hbranch⟩ : ∃ effect, stageRetryControl catalog s
      ⟨0, r.workspaceId, c, .retry, key, "", none, .uuid4 0, .uuid4 0⟩ r = .ok (effect, s₂) := by
    rw [stageRetryControl]
    rcases hp : commandRetryPolicy r.payload with ⟨maxAttempts, delay⟩
    rw [hp] at hmax hbudget hattempt
    simp only at hmax hbudget hattempt ⊢
    rw [if_neg (by rw [hstatus]; simp), if_neg (by rw [hspec]; simp; omega),
      if_neg (by omega), if_neg (by rw [hres]; simp), hattempt]
    simp only
    rw [hstage]
    exact ⟨_, rfl⟩
  have hcommands : s₂.commands.find? c = some (r.retry s.nextId 0) := by
    rw [(stage_spec hstreams hstage).commands, Table.find?_modify_self, hr]
    rfl
  rw [stageCommandControl]
  rw [hr, Option.filter_some, if_pos (decide_eq_true rfl)]
  simp only
  rw [hcontrol]
  simp only
  rw [hbranch]
  exact ⟨_, _, rfl, hcommands⟩

/-! ## Runs -/

/-- The command is terminal and no transaction changes its status. -/
def Store.Final (catalog : CommandCatalog) (s : Store) (w c : String) : Prop :=
  ∃ r, s.commands.find? c = some r ∧ r.workspaceId = w ∧
    commandStatusIsTerminal r.status = true ∧
    ∀ op, ((step catalog s op).commands.find? c).map (·.status) = some r.status

/-- The invariant of the store together with the state of its streams. -/
def FinalityInv (catalog : CommandCatalog) (s : Store) : Prop :=
  StoreInv s ∧ ∀ c, LogInv catalog (s.view c) fun w => s.kinds (w, c)

theorem finalityInv_empty (catalog : CommandCatalog) : FinalityInv catalog Store.empty :=
  ⟨storeInv_empty, fun _ _ =>
    ⟨fun h => absurd h not_closed_nil, fun ⟨_, hr, _⟩ => by cases hr⟩⟩

theorem step_finalityInv (catalog : CommandCatalog) (s : Store) (op : Op)
    (h : FinalityInv catalog s) : FinalityInv catalog (step catalog s op) := by
  refine ⟨step_inv catalog s op h.1, fun c w => ?_⟩
  obtain ⟨event, hstep, hkinds⟩ := (step_refines catalog h.1 op).command c
  simp only [hkinds w]
  exact hstep.logInv (h.1.commands c) (h.2 c) w

theorem run_settled {s : Store} (hs : StoreInv s) (hr : s.commands.find? c = some r)
    (hsettled : r.Settled catalog) (ops : List Op) :
    (run (step catalog) s ops).commands.find? c = some r := by
  have hstep : ∀ t op, StoreInv t ∧ t.commands.find? c = some r →
      StoreInv (step catalog t op) ∧ (step catalog t op).commands.find? c = some r := by
    rintro t op ⟨ht, hrow⟩
    obtain ⟨event, hstep, -⟩ := (step_refines catalog ht op).command c
    have hview := hstep.settled hrow hsettled
    exact ⟨step_inv catalog t op ht, (congrArg CommandView.row hview).trans hrow⟩
  exact (run_invariant hstep ⟨hs, hr⟩ ops).2

theorem FinalityInv.closed_iff {s : Store} (h : FinalityInv catalog s) (w c : String) :
    s.StreamClosed (w, c) ↔ s.Final catalog w c := by
  rw [Store.StreamClosed, h.2 c w]
  constructor
  · rintro ⟨r, hr, hw, hsettled⟩
    refine ⟨r, hr, hw, hsettled.1, fun op => ?_⟩
    have := run_settled h.1 hr hsettled [op]
    rw [run_cons, run_nil] at this
    rw [this]
    rfl
  · rintro ⟨r, hr, hw, hterminal, hfinal⟩
    refine ⟨r, hr, hw, hterminal, fun hretry => ?_⟩
    -- an accepted retry would change the status
    obtain ⟨req, -, -, -, reply, s', hok, hrow⟩ := retry_accepted h.1 hr hretry
    have := hfinal (.control req)
    rw [step, hok, Tx.commit_ok, hrow, hretry.1] at this
    cases this

/-- **The law of the operation stream.** In every reachable store, for every
stream: the sequences are `1..n`; a terminal event is the last one; the stream is
closed exactly when its command is final; a command that the retry control would
still accept has an open stream; and a command whose stream is closed keeps its
status in every continuation. -/
theorem run_stream_law (catalog : CommandCatalog) (ops : List Op) (w c : String) :
    let s := run (step catalog) Store.empty ops
    (s.streamEvents (w, c)).map (·.sequence) =
        List.range' 1 (s.streamEvents (w, c)).length ∧
      (∀ before e after, s.streamEvents (w, c) = before ++ e :: after →
        e.kind.terminal = true → after = []) ∧
      (s.StreamClosed (w, c) ↔ s.Final catalog w c) ∧
      (∀ req reply s', req.workspaceId = w → req.commandId = c → req.action = .retry →
        stageCommandControl catalog s req = .ok (reply, s') → ¬ s.StreamClosed (w, c)) ∧
      (s.StreamClosed (w, c) → ∃ r, s.commands.find? c = some r ∧
        ∀ ops', ((run (step catalog) s ops').commands.find? c).map (·.status) =
          some r.status) := by
  intro s
  have hinv : FinalityInv catalog s :=
    run_invariant (step_finalityInv catalog) (finalityInv_empty catalog) ops
  have hstream := hinv.1.streams (w, c)
  refine ⟨?_, ?_, hinv.closed_iff w c, ?_, ?_⟩
  · have := hstream.sequences
    rwa [Store.kinds, List.length_map] at this
  · intro before e after hevents hterminal
    rcases after with _ | ⟨e', after⟩
    · rfl
    · have hkinds : s.kinds (w, c) =
          before.map (·.kind) ++ e.kind :: (e' :: after).map (·.kind) := by
        rw [Store.kinds, hevents, List.map_append, List.map_cons]
      have hmem : e.kind ∈ (s.kinds (w, c)).dropLast := by
        rw [hkinds, List.dropLast_append_of_ne_nil (List.cons_ne_nil _ _), List.map_cons,
          List.dropLast_cons_of_ne_nil (List.cons_ne_nil _ _)]
        exact List.mem_append_right _ List.mem_cons_self
      rw [hstream.isSealed e.kind hmem] at hterminal
      cases hterminal
  · rintro req reply s' rfl rfl haction hok hclosed
    obtain ⟨r, hr, -, hsettled⟩ := (hinv.2 req.commandId req.workspaceId).mp hclosed
    obtain ⟨r', effect, s₁, controls, hr', -, hbranch, -⟩ := control_cases hok
    have hsame : some r' = some r := hr'.symm.trans hr
    cases hsame
    rw [haction] at hbranch
    exact hsettled.2 (retry_cases hbranch).1
  · intro hclosed
    obtain ⟨r, hr, -, hsettled⟩ := (hinv.2 c w).mp hclosed
    refine ⟨r, hr, fun ops' => ?_⟩
    rw [run_settled hinv.1 hr hsettled ops']
    rfl

end Opsia
