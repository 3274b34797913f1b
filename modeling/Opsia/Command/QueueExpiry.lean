import Opsia.Command.Conformance

/-!
# How long a queued command may wait

The janitor compares the creation time of the logical row with the queue TTL. A
retry queues the same row again, and so does the late projection of a receipt, so
the current attempt may be younger than the row. A sweep is fair when it closes a
queued command only if its current attempt has waited longer than the TTL
(`SweepLaw`). It is unfair exactly when it meets a queued row past the TTL whose
attempt is not (`SweepsYoung`), and in runs without such sweeps an accepted retry
keeps its leasing window (`RetryWindow`).
-/

namespace Opsia

open PyText Runs

/-! ## Sweeps -/

/-- Since when the command waits: the creation of its current attempt, or of its
row when it was never projected. -/
def Store.queuedSince (s : Store) (r : AgentCommand) : Timestamp :=
  match r.activeAttemptId.bind s.attempts.find? with
  | some a => a.createdAt
  | none => r.createdAt

/-- A sweep closes a queued command only if it has waited longer than the TTL. -/
def SweepLaw (catalog : CommandCatalog) (s : Store) (op : Op) : Prop :=
  ∀ now graceSeconds queueTtlSeconds source,
    op = .failExpired now graceSeconds queueTtlSeconds source →
    ∀ c r r', s.commands.find? c = some r → r.status = .queued →
      (step catalog s op).commands.find? c = some r' → commandStatusIsTerminal r'.status = true →
      s.queuedSince r < now - queueTtlSeconds

/-- The sweep will commit, and meets a queued row past the TTL whose current
attempt was queued within it. -/
def SweepsYoung (s : Store) (op : Op) : Prop :=
  ∃ now graceSeconds queueTtlSeconds source,
    op = .failExpired now graceSeconds queueTtlSeconds source ∧
    1 ≤ graceSeconds ∧ 1 ≤ queueTtlSeconds ∧
    (∀ r ∈ s.commands.rows, r.expired now graceSeconds queueTtlSeconds = true → r.Identified) ∧
    ∃ r ∈ s.commands.rows, r.status = .queued ∧ r.createdAt < now - queueTtlSeconds ∧
      now - queueTtlSeconds ≤ s.queuedSince r

theorem sweep_succeeds (catalog : CommandCatalog) {now : Timestamp}
    {graceSeconds queueTtlSeconds : ℤ} (source : String) {rows : List AgentCommand} :
    ∀ {s : Store}, StoreInv s → (rows.map (·.commandId)).Nodup →
      (∀ r ∈ rows, s.commands.find? r.commandId = some r ∧
        r.expired now graceSeconds queueTtlSeconds = true ∧ r.Identified) →
      ∃ s', rows.foldlM (failExpiredAgentCommand now source) s = .ok s' := by
  induction rows with
  | nil => exact fun _ _ _ => ⟨_, rfl⟩
  | cons r rows ih =>
    intro s hs hnodup hrows
    obtain ⟨hnotin, hnodup⟩ := List.nodup_cons.mp (by simpa only [List.map_cons] using hnodup)
    obtain ⟨hr, hexpired, hw, hc, hcl⟩ := hrows r List.mem_cons_self
    have hstreams : ∀ k, StreamInv (s.expireUpdate now r) k :=
      fun k => (hs.streams k).congr rfl rfl
    have hevent : strip (OperationPayload.clusterId
        { clusterId := r.clusterId, status := some r.expiredStatus,
          correlationId := some r.correlationId, result := some r.expiredResult }) ≠ "" := hcl
    obtain ⟨event, s₂, hstage⟩ := stage_succeeds hstreams hw hc hevent now
      (if r.expiredStatus = .cancelled then .cancelled else .failed)
    obtain ⟨s₁, hone⟩ : ∃ s₁, failExpiredAgentCommand now source s r = .ok s₁ := by
      rw [failExpiredAgentCommand]
      simp only
      rw [hstage]
      exact ⟨_, rfl⟩
    have hinv := (failExpiredAgentCommand_refines catalog hs hr hexpired hone).inv hs
    rw [List.foldlM_cons, hone]
    refine ih hinv hnodup fun x hx => ?_
    obtain ⟨hfind, hx'⟩ := hrows x (List.mem_cons_of_mem r hx)
    exact ⟨failExpiredAgentCommand_rest hs hr hnotin hone hx hfind, hx'⟩

variable {c : String} {s : Store}

theorem CommandStep.sweep_queued {catalog : CommandCatalog} {n n' : Uuid} {now : Timestamp}
    {graceSeconds queueTtlSeconds : ℤ} {source : String} {v v' : CommandView}
    {event : Option (String × OperationEventKind)}
    (h : CommandStep catalog n n' c (.failExpired now graceSeconds queueTtlSeconds source) v event
      v') {r r' : AgentCommand} (hr : v.row = some r) (hqueued : r.status = .queued)
    (hr' : v'.row = some r') (hclosed : commandStatusIsTerminal r'.status = true) :
    r.createdAt < now - queueTtlSeconds := by
  cases h with
  | idle | noted =>
    rw [hr] at hr'
    cases hr'
    rw [hqueued] at hclosed
    cases hclosed
  | expired hexpired =>
    cases hr
    simpa [AgentCommand.expired, hqueued, CommandStatus.isCancelling] using hexpired

/-- **The exact condition of a fair sweep.** -/
theorem sweepLaw_iff (catalog : CommandCatalog) (hs : StoreInv s) (op : Op) :
    SweepLaw catalog s op ↔ ¬ SweepsYoung s op := by
  constructor
  · rintro hlaw ⟨now, grace, ttl, source, rfl, hgrace, httl, hids, r, hmem, hqueued, hold, hyoung⟩
    have hr : s.commands.find? r.commandId = some r := Table.find?_of_mem hmem
    have hexpired : r.expired now grace ttl = true := by
      simp [AgentCommand.expired, hqueued, hold]
    have hchosen : ∀ x ∈ s.commands.rows.filter (·.expired now grace ttl),
        s.commands.find? x.commandId = some x ∧ x.expired now grace ttl = true ∧
          x.Identified := by
      intro x hx
      obtain ⟨hxmem, hxexp⟩ := List.mem_filter.mp hx
      exact ⟨Table.find?_of_mem hxmem, hxexp, hids x hxmem hxexp⟩
    obtain ⟨s', hfold⟩ := sweep_succeeds catalog source hs
      (s.commands.nodup.sublist (List.filter_sublist.map _)) hchosen
    have hok : failExpiredAgentCommands s now grace ttl source =
        .ok ((s.commands.rows.filter (·.expired now grace ttl)).map (·.expire now), s') := by
      rw [failExpiredAgentCommands, if_neg (by omega)]
      simp only
      rw [hfold]
    obtain ⟨-, hwritten⟩ := failExpired_sweep catalog hs hok
    obtain ⟨x, hx, hxr, -, -, eventId, hr'⟩ := hwritten (r.expire now)
      (List.mem_map_of_mem (List.mem_filter.mpr ⟨hmem, hexpired⟩))
    -- the swept row of this name is `r`
    have hcid : x.commandId = r.commandId := (congrArg AgentCommand.commandId hx).symm
    rw [hcid, hr] at hxr
    cases hxr
    have hpost : (step catalog s (.failExpired now grace ttl source)).commands.find? r.commandId =
        some ((r.expire now).recordTerminalEvent eventId) := by
      change (Tx.commit s (failExpiredAgentCommands s now grace ttl source)).commands.find? _ = _
      rw [hok]
      exact hr'
    have hwaited := hlaw now grace ttl source rfl r.commandId r _ hr hqueued hpost
      r.expiredStatus_terminal
    exact Int.not_lt.mpr hyoung hwaited
  · rintro hfair now grace ttl source rfl c r r' hr hqueued hr' hclosed
    have hrefines := step_refines catalog hs (.failExpired now grace ttl source)
    obtain ⟨event, hstep, -⟩ := hrefines.command c
    have hold := hstep.sweep_queued hr hqueued hr' hclosed
    by_contra hyoung
    -- the sweep committed, so its durations were positive and its rows identified
    rcases hok : failExpiredAgentCommands s now grace ttl source with e | ⟨rows, s'⟩
    · have hsame : step catalog s (.failExpired now grace ttl source) = s := by
        rw [step, hok, Tx.commit_error]
      rw [hsame, hr] at hr'
      cases hr'
      rw [hqueued] at hclosed
      cases hclosed
    · obtain ⟨hgrace, httl, chosen, rfl, rfl, -⟩ := failExpired_cases hok
      obtain ⟨-, hwritten⟩ := failExpired_sweep catalog hs hok
      refine hfair ⟨now, grace, ttl, source, rfl, hgrace, httl, fun x hx hexp => ?_, r,
        Table.mem_of_find? hr, hqueued, hold, Int.not_lt.mp hyoung⟩
      obtain ⟨y, hy, hyr, -, hid, -⟩ := hwritten (x.expire now)
        (List.mem_map_of_mem (List.mem_filter.mpr ⟨hx, hexp⟩))
      have hcid : y.commandId = x.commandId := (congrArg AgentCommand.commandId hy).symm
      rw [hcid, Table.find?_of_mem hx] at hyr
      cases hyr
      exact hid

/-! ## The window of a retry -/

theorem CommandStep.identity {catalog : CommandCatalog} {n n' : Uuid} {op : Op} {v v' : CommandView}
    {event : Option (String × OperationEventKind)} (h : CommandStep catalog n n' c op v event v') :
    (∀ r, v.row = some r → ∃ r', v'.row = some r' ∧ r'.workspaceId = r.workspaceId ∧
      r'.clusterId = r.clusterId) ∧
    ∀ a ∈ v.attempts, ∃ a' ∈ v'.attempts, a.Continues a' := by
  have hsame : ∀ as : List AgentCommandAttempt, ∀ a ∈ as, ∃ a' ∈ as, a.Continues a' :=
    fun _ a ha => ⟨a, ha, a.continues_refl⟩
  have hmore : ∀ (as : List AgentCommandAttempt) (b : AgentCommandAttempt), ∀ a ∈ as,
      ∃ a' ∈ as ++ [b], a.Continues a' :=
    fun _ _ a ha => ⟨a, List.mem_append_left _ ha, a.continues_refl⟩
  have hactive : ∀ (as : List AgentCommandAttempt) (active : Option Uuid)
      (f : AgentCommandAttempt → AgentCommandAttempt), (∀ a : AgentCommandAttempt, a.Continues (f a)) →
      ∀ a ∈ as, ∃ a' ∈ onActive as active f, a.Continues a' := by
    intro as active f hf a ha
    by_cases he : active = some a.attemptId
    · subst he
      exact ⟨f a, onActive_mem ha f, hf a⟩
    · exact ⟨a, onActive_mem_of_ne ha he f, a.continues_refl⟩
  cases h with
  | idle | noted => exact ⟨fun r hr => ⟨r, hr, rfl, rfl⟩, hsame _⟩
  | accepted => exact ⟨fun r hr => (by cases hr), hsame _⟩
  | queued => exact ⟨fun r hr => (by cases hr), hmore _ _⟩
  | projected | retried =>
    refine ⟨fun r hr => ?_, hmore _ _⟩
    cases hr
    exact ⟨_, rfl, rfl, rfl⟩
  | cancelRequested | rejected =>
    refine ⟨fun r hr => ?_, hsame _⟩
    cases hr
    exact ⟨_, rfl, rfl, rfl⟩
  | leased =>
    refine ⟨fun r hr => ?_, hactive _ _ _ fun a => a.continues_lease ..⟩
    cases hr
    exact ⟨_, rfl, rfl, rfl⟩
  | started =>
    refine ⟨fun r hr => ?_, hactive _ _ _ fun a => a.continues_start ..⟩
    cases hr
    exact ⟨_, rfl, rfl, rfl⟩
  | heartbeat =>
    refine ⟨fun r hr => ?_, hactive _ _ _ fun a => a.continues_heartbeat ..⟩
    cases hr
    exact ⟨_, rfl, rfl, rfl⟩
  | completed =>
    refine ⟨fun r hr => ?_, hactive _ _ _ fun a => a.continues_complete ..⟩
    cases hr
    exact ⟨_, rfl, rfl, rfl⟩
  | cancelled =>
    refine ⟨fun r hr => ?_, hactive _ _ _ fun a => a.continues_cancel ..⟩
    cases hr
    exact ⟨_, rfl, rfl, rfl⟩
  | expired =>
    refine ⟨fun r hr => ?_, hactive _ _ _ fun a => a.continues_expire ..⟩
    cases hr
    exact ⟨_, rfl, rfl, rfl⟩

/-- The entry is a retry of `c`, accepted at `t` with the delay `delay`, that
created the attempt `aid`. -/
def retriesAt (catalog : CommandCatalog) (c : String) (t delay : ℤ) (aid : Uuid)
    (e : Entry Store Op) : Prop :=
  ∃ req reply s' r, e.action = .control req ∧ req.action = .retry ∧ req.commandId = c ∧
    req.now = t ∧ e.pre.commands.find? c = some r ∧
    (commandRetryPolicy r.payload).2 = delay ∧
    stageCommandControl catalog e.pre req = .ok (reply, s') ∧ reply.attemptId = some aid

/-- The command waits in the attempt. -/
def waitsIn (s : Store) (c : String) (aid : Uuid) (r : AgentCommand) : Prop :=
  s.commands.find? c = some r ∧ r.status = .queued ∧ r.activeAttemptId = some aid

/-- The attempt of a retry: queued at `t`, available from `t + delay`, in the
workspace and the cluster of its command. -/
def RetryAttempt (c : String) (t delay : ℤ) (aid : Uuid) (s : Store) : Prop :=
  ∃ r a, s.commands.find? c = some r ∧ s.attempts.find? aid = some a ∧ a.commandId = c ∧
    a.createdAt = t ∧ a.availableAt = t + delay ∧ a.workspaceId = r.workspaceId ∧
    a.clusterId = r.clusterId

/-- While the command waits in the attempt of an accepted retry: every poll of its
cluster from `t + delay` on may lease it, and a sweep that closes it comes more
than `ttl` seconds after the retry, so more than `ttl - delay` after the attempt
became available. -/
structure RetryWindow (catalog : CommandCatalog) (e e' : Entry Store Op) : Prop where
  leasable : ∀ c t delay aid, retriesAt catalog c t delay aid e →
    ∀ r, waitsIn e'.pre c aid r → ∀ poll : LeaseRequest, poll.workspaceId = r.workspaceId →
      poll.clusterId = r.clusterId → t + delay ≤ poll.now → c ∉ poll.locked →
      (leaseCandidate e'.pre poll r).isSome = true
  expiry : ∀ c t delay aid, retriesAt catalog c t delay aid e →
    ∀ r, waitsIn e'.pre c aid r →
    ∀ now graceSeconds ttl source, e'.action = .failExpired now graceSeconds ttl source →
      ∀ r', e'.post.commands.find? c = some r' → commandStatusIsTerminal r'.status = true →
      ¬ SweepsYoung e'.pre e'.action → ttl - delay < now - (t + delay)

theorem stable_retryAttempt (catalog : CommandCatalog) (c : String) (t delay : ℤ) (aid : Uuid) :
    Stable (step catalog) StoreInv (RetryAttempt c t delay aid) := by
  rintro s op hs ⟨r, a, hr, ha, hc, hcreated, havailable, hw, hcl⟩
  obtain ⟨event, hstep, -⟩ := (step_refines catalog hs op).command c
  obtain ⟨hrow, hattempt⟩ := hstep.identity
  obtain ⟨r', hr', hw', hcl'⟩ := hrow r hr
  have hmem : a ∈ (s.view c).attempts :=
    List.mem_filter.mpr ⟨Table.mem_of_find? ha, decide_eq_true hc⟩
  obtain ⟨b, hb, hcont⟩ := hattempt a hmem
  have hfind := Table.find?_of_mem (List.mem_filter.mp hb).1
  rw [hcont.attemptId, Table.key_of_find? ha] at hfind
  exact ⟨r', b, hr', hfind, hcont.commandId.trans hc, hcont.createdAt.trans hcreated,
    hcont.availableAt.trans havailable, by rw [hcont.workspaceId, hw, hw'],
    by rw [hcont.clusterId, hcl, hcl']⟩

theorem retry_creates (catalog : CommandCatalog) (hs : StoreInv s) {op : Op} {t delay : ℤ}
    {aid : Uuid} (h : retriesAt catalog c t delay aid ⟨s, op, step catalog s op⟩) :
    RetryAttempt c t delay aid (step catalog s op) := by
  obtain ⟨req, reply, s', r, rfl, haction, rfl, rfl, hr, rfl, hok, haid⟩ := h
  have hstep : step catalog s (.control req) = s' := by rw [step, hok, Tx.commit_ok]
  obtain ⟨x, effect, s₁, controls, hx, hw, hbranch, -, hattemptId, rfl⟩ := control_cases hok
  rw [hx] at hr
  cases hr
  rw [haction] at hbranch
  obtain ⟨-, -, heffect, attempts, event, hinsert, hstage⟩ := retry_cases hbranch
  obtain ⟨hcommands, hattempts, -⟩ := stage_frame hstage
  have hnew : aid = s.nextId := Option.some.inj (haid.symm.trans (hattemptId.trans heffect))
  have hnone : s.attempts.find? s.nextId = none :=
    Table.find?_eq_none.mpr fun b hb hid => Nat.ne_of_lt (hs.attempt_fresh hb) hid
  have hfind : attempts.find? aid = some (agentCommandAttemptValues req.now s.nextId req.commandId
      req.workspaceId r.clusterId (r.attemptCount + 1)
      (req.now + (commandRetryPolicy r.payload).2)) := by
    rw [hnew]
    exact find?_agentCommandAttemptInsert hinsert hnone
  rw [hstep]
  refine ⟨r.retry s.nextId req.now, agentCommandAttemptValues req.now s.nextId req.commandId
    req.workspaceId r.clusterId (r.attemptCount + 1) (req.now + (commandRetryPolicy r.payload).2),
    ?_, ?_, rfl, rfl, rfl, hw.symm, rfl⟩
  · change s₁.commands.find? req.commandId = _
    rw [hcommands, Table.find?_modify_self, hx]
    rfl
  · change s₁.attempts.find? aid = _
    rw [hattempts]
    exact hfind

theorem RetryAttempt.waiting (hs : StoreInv s) {t delay : ℤ} {aid : Uuid}
    (h : RetryAttempt c t delay aid s) {r : AgentCommand} (hw : waitsIn s c aid r) :
    s.queuedSince r = t ∧ ∀ poll : LeaseRequest, poll.workspaceId = r.workspaceId →
      poll.clusterId = r.clusterId → t + delay ≤ poll.now → c ∉ poll.locked →
      (leaseCandidate s poll r).isSome = true := by
  obtain ⟨x, a, hx, ha, hc, rfl, havailable, haw, hacl⟩ := h
  obtain ⟨hr, hqueued, hactive⟩ := hw
  rw [hr] at hx
  cases hx
  have hjoin : r.activeAttemptId.bind s.attempts.find? = some a := by rw [hactive]; exact ha
  refine ⟨by rw [Store.queuedSince, hjoin], fun poll hpw hpcl hdue hlocked => ?_⟩
  have hstatus : a.status = .queued := by
    obtain ⟨b, hb, hid, hag⟩ := hs.active_attempt hr hactive
    have hfind := Table.find?_of_mem hb
    rw [hid, ha] at hfind
    cases hfind
    rw [Agrees, hqueued] at hag
    exact hag
  have hkey : r.commandId = c := Table.key_of_find? hr
  have havail : leaseAvailable poll.now r a = true := by simp [leaseAvailable, hqueued, hstatus]
  rw [leaseCandidate, hjoin]
  simp only
  rw [if_pos ⟨hpw.symm, hpcl.symm, haw.trans hpw.symm, hacl.trans hpcl.symm,
    by rw [havailable]; exact hdue, havail, by rw [hkey]; exact hlocked⟩]
  rfl

theorem trace_retryWindow (catalog : CommandCatalog) (ops : List Op) :
    (trace (step catalog) Store.empty ops).Pairwise (RetryWindow catalog) := by
  refine trace_pairwise (step_inv catalog) (fun s op hs => ?_) storeInv_empty ops
  refine ⟨fun u => ∀ c t delay aid, retriesAt catalog c t delay aid ⟨s, op, step catalog s op⟩ →
    RetryAttempt c t delay aid u, fun c t delay aid h => retry_creates catalog hs h,
    fun u b hu hD c t delay aid h => stable_retryAttempt catalog c t delay aid u b hu
      (hD c t delay aid h), fun u b hu hD => ⟨?_, ?_⟩⟩
  · exact fun c t delay aid h r hw => ((hD c t delay aid h).waiting hu hw).2
  · rintro c t delay aid h r hw now grace ttl source haction r' hr' hclosed hfair
    have hsince := ((hD c t delay aid h).waiting hu hw).1
    have hlaw := (sweepLaw_iff catalog hu b).mpr hfair now grace ttl source haction c r r' hw.1
      hw.2.1 hr' hclosed
    rw [hsince] at hlaw
    have hlaw' : t < now - ttl := hlaw
    omega

/-- **Queue expiry.** In every run whose sweeps never meet a queued row past the
TTL with a younger attempt, a sweep closes a queued command only after its
current attempt waited longer than the TTL, and an accepted retry stays leasable
for its window. -/
theorem run_queue_expiry (catalog : CommandCatalog) (ops : List Op)
    (hok : Meets (step catalog) (fun s op => ¬ SweepsYoung s op) Store.empty ops) :
    (∀ e ∈ trace (step catalog) Store.empty ops, SweepLaw catalog e.pre e.action) ∧
      (trace (step catalog) Store.empty ops).Pairwise (RetryWindow catalog) := by
  refine ⟨fun e he => ?_, trace_retryWindow catalog ops⟩
  have hinv := (trace_invariant (step_inv catalog) storeInv_empty e he).1
  exact (sweepLaw_iff catalog hinv e.action).mpr (hok e he)

/-! ## A retry that is swept at once -/

/-- The restart runs, fails retryably within a minute, and is retried at `t`. -/
def restartRetried (t : Timestamp) : List Op :=
  restartRunning ++
    [.complete (restartClaim 50) { status := some .failed, retryable := some true } "agent-api",
      .control ⟨t, "ws-1", "cmd-1", .retry, "key-1", "operator-1", none, .uuid4 8, .uuid4 9⟩]

/-- A sweep with the default TTL and grace. -/
def defaultSweep (now : Timestamp) : Op := .failExpired now 300 1800 "command-janitor"

/-- The retry is swept fifty seconds after it was accepted. -/
theorem sweep_closes_young_retry :
    ¬ ∀ (catalog : CommandCatalog) (ops : List Op), ∀ e ∈ trace (step catalog) Store.empty ops,
      SweepLaw catalog e.pre e.action := by
  intro h
  let s := run (step restartCatalog) Store.empty (restartRetried 1900)
  have hlaw : SweepLaw restartCatalog s (defaultSweep 1950) := by
    refine h restartCatalog (restartRetried 1900 ++ [defaultSweep 1950])
      ⟨s, defaultSweep 1950, step restartCatalog s (defaultSweep 1950)⟩ ?_
    rw [trace_append]
    exact List.mem_append_right _ (List.mem_singleton.mpr rfl)
  have hbefore : (s.commands.find? "cmd-1").any
      (fun r => r.status = .queued ∧ s.queuedSince r = 1900) = true := by decide
  have hafter : ((step restartCatalog s (defaultSweep 1950)).commands.find? "cmd-1").any
      (fun r => commandStatusIsTerminal r.status) = true := by decide
  obtain ⟨r, hr, hqueued⟩ := (Option.any_eq_true _ _).mp hbefore
  obtain ⟨r', hr', hclosed⟩ := (Option.any_eq_true _ _).mp hafter
  obtain ⟨hqueued, hsince⟩ := of_decide_eq_true hqueued
  have hwaited := hlaw 1950 300 1800 "command-janitor" rfl "cmd-1" r r' hr hqueued hr' hclosed
  rw [hsince] at hwaited
  exact absurd hwaited (by decide)

/-- A retry that is swept after its own TTL. -/
theorem run_queue_expiry_waited :
    let ops := restartRetried 100 ++ [defaultSweep 1950]
    (∀ e ∈ trace (step restartCatalog) Store.empty ops, SweepLaw restartCatalog e.pre e.action) ∧
      (trace (step restartCatalog) Store.empty ops).Pairwise (RetryWindow restartCatalog) := by
  refine run_queue_expiry restartCatalog _ fun e he => ?_
  rw [trace_append] at he
  rcases List.mem_append.mp he with he | he
  · -- no sweep comes before the retry
    rintro ⟨now, grace, ttl, source, haction, -⟩
    have hnone : (trace (step restartCatalog) Store.empty (restartRetried 100)).all
        (fun e => match e.action with | .failExpired .. => false | _ => true) = true := by decide
    have := List.all_eq_true.mp hnone e he
    rw [haction] at this
    cases this
  · obtain rfl := List.mem_singleton.mp he
    rintro ⟨now, grace, ttl, source, haction, -, -, -, r, hr, -, -, hyoung⟩
    cases haction
    have hwaited : (run (step restartCatalog) Store.empty (restartRetried 100)).commands.rows.all
        (fun r => (run (step restartCatalog) Store.empty (restartRetried 100)).queuedSince r < 150)
        = true := by decide
    have hlt := of_decide_eq_true (List.all_eq_true.mp hwaited r hr)
    exact absurd hyoung (Int.not_le.mpr hlt)

end Opsia
