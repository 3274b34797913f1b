import Opsia.Event.ExactlyOnce

/-!
# How often a handler is started

The attempt is counted when the event is claimed, so that a crash does not undo
it, but the count is compared with `max_attempts` only in `fail`. A worker that
dies after its claim never gets there: the stale claim is taken over whatever the
count is, and an event that kills its worker is started again for ever.

Each start uses up one claim (`potential`), so a run starts the handler at most as
often as the row counts attempts, and the count stays within `max_attempts` as
long as no stale claim of the last attempt is taken over and no superseded call
schedules a retry (`WithinBudget`).
-/

namespace Opsia.Event

open Runs

/-! ## Starts and claims -/

/-- The claim of a call whose handler is not started yet. -/
def Phase.claimed? : Phase → Option Work
  | .claimed w => some w
  | _ => none

/-- The call has claimed the row `k` and is about to start the handler. -/
def Task.waits (k : EventKey) (t : Task) : Bool :=
  t.phase.claimed?.any fun w => t.key w.evt = k

/-- The entry starts the handler for the row `k`. -/
def starts (k : EventKey) (e : Entry System Op) : Bool :=
  match e.action with
  | .start i => (e.pre.tasks[i]?).any (Task.waits k)
  | _ => false

theorem starts_cases {k : EventKey} {e : Entry System Op} (h : starts k e = true) :
    ∃ i t w, e.action = .start i ∧ e.pre.tasks[i]? = some t ∧ t.phase = .claimed w ∧
      t.key w.evt = k := by
  unfold starts at h
  split at h
  · rename_i i haction
    obtain ⟨t, ht, hwaits⟩ := (Option.any_eq_true _ _).mp h
    obtain ⟨w, hw, hk⟩ := (Option.any_eq_true _ _).mp hwaits
    unfold Phase.claimed? at hw
    split at hw
    · rename_i w' hphase
      cases hw
      exact ⟨i, t, w, haction, ht, hphase, of_decide_eq_true hk⟩
    · cases hw
  · cases h

/-- The attempts counted and not waiting for their start. -/
def potential (k : EventKey) (s : System) : ℤ :=
  ((s.board k).epoch : ℤ) - s.tasks.countP (Task.waits k)

section

variable {s s' : System} {i : ℕ} {t t' : Task} {k : EventKey}

/-- One call changes. -/
theorem countP_waits_set (ht : s.tasks[i]? = some t) (htasks : s'.tasks = s.tasks.set i t') :
    s'.tasks.countP (Task.waits k) + (t.waits k).toNat =
      s.tasks.countP (Task.waits k) + (t'.waits k).toNat := by
  obtain ⟨hlt, rfl⟩ := List.getElem?_eq_some_iff.mp ht
  have hle := List.boole_getElem_le_countP (p := Task.waits k) hlt
  have hset := List.countP_set (p := Task.waits k) (a := t') hlt
  have hnat : ∀ b : Bool, (if b = true then 1 else 0) = b.toNat := fun b => by cases b <;> rfl
  rw [hnat] at hle hset
  rw [hnat] at hset
  rw [htasks, hset]
  omega

theorem potential_le_of_set (ht : s.tasks[i]? = some t) (htasks : s'.tasks = s.tasks.set i t')
    (hcount : (s'.board k).epoch = (s.board k).epoch) (hwaits : t'.waits k = false) :
    potential k s ≤ potential k s' := by
  have hset := countP_waits_set (k := k) ht htasks
  rw [hwaits, Bool.toNat_false] at hset
  rw [potential, potential, hcount]
  omega

theorem epoch_congr (hrow : s'.ledger.find? k = s.ledger.find? k) :
    (s'.board k).epoch = (s.board k).epoch := by
  simp only [System.board, hrow]

/-- The outcomes do not change the count. -/
theorem epoch_fail {now : Timestamp} {k' : EventKey} {status : EventProcessingStatus}
    (hledger : s'.ledger = failEventProcessing s.ledger now k' status) :
    (s'.board k).epoch = (s.board k).epoch := by
  simp only [System.board, hledger, failEventProcessing, Table.find?_modify]
  by_cases hk : k = k'
  · rw [if_pos hk, Option.map_map]
    rfl
  · rw [if_neg hk]

theorem waits_next_of_ne {evt : EventEnvelope} {processing : EventProcessingRecord}
    (hk : t.key evt ≠ k) : Task.waits k { t with phase := processing.next evt } = false := by
  rw [Task.waits, EventProcessingRecord.next]
  split
  · exact decide_eq_false hk
  all_goals rfl

/-- A claim is counted, and waits for its start. -/
theorem potential_begun {evt : EventEnvelope} {now : Timestamp} {staleSeconds : ℤ}
    {processing : EventProcessingRecord} {ledger : ProcessingLedger} (ht : s.tasks[i]? = some t)
    (hphase : t.phase = .received)
    (h : Begun s.ledger now staleSeconds (t.key evt) processing ledger)
    (hledger : s'.ledger = ledger)
    (htasks : s'.tasks = s.tasks.set i { t with phase := processing.next evt }) :
    potential k s ≤ potential k s' := by
  have hold : t.waits k = false := by rw [Task.waits, hphase]; rfl
  have hset := countP_waits_set (k := k) ht htasks
  rw [hold, Bool.toNat_false, Nat.add_zero] at hset
  -- the count grows with the waiting calls
  have hpaid : (s.board k).epoch +
      (Task.waits k { t with phase := processing.next evt }).toNat ≤ (s'.board k).epoch := by
    by_cases hk : t.key evt = k
    · subst hk
      cases h with
      | first _ hr hins =>
        have hrow : s'.ledger.find? (t.key evt) = some (.first (t.key evt) now) := by
          rw [hledger, find?_first hins]
        rw [board_no_row hr, board_row hrow, Nat.zero_add]
        exact Bool.toNat_le _
      | again r hr hreclaim =>
        have hrow : s'.ledger.find? (t.key evt) = some (r.reclaim now) := by
          rw [hledger, find?_reclaim hr]
        rw [board_row hr, board_row hrow]
        exact Nat.add_le_add_left (Bool.toNat_le _) r.attempts
      | closed r hr hclosed =>
        have hwaits : Task.waits (t.key evt) { t with
            phase := EventProcessingRecord.next ⟨.ledger r.status, r.attempts⟩ evt } = false := by
          cases hstatus : r.status with
          | processed | deadLettered => rfl
          | processing | retrying =>
            rw [hstatus] at hclosed
            cases hclosed
        have hrow : s'.ledger.find? (t.key evt) = s.ledger.find? (t.key evt) := by rw [hledger]
        rw [hwaits, epoch_congr hrow]
        exact Nat.le_refl _
      | blocked r hr hheld =>
        have hrow : s'.ledger.find? (t.key evt) = s.ledger.find? (t.key evt) := by rw [hledger]
        rw [epoch_congr hrow]
        exact Nat.le_refl _
    · have hrow : s'.ledger.find? k = s.ledger.find? k := by rw [hledger, h.find?_ne (Ne.symm hk)]
      rw [waits_next_of_ne hk, epoch_congr hrow]
      exact Nat.le_refl _
  rw [potential, potential]
  omega

end

theorem step_potential (d : Deployment) (s : System) (op : Op) (k : EventKey) :
    potential k s + (if starts k ⟨s, op, step d s op⟩ then 1 else 0) ≤
      potential k (step d s op) := by
  by_cases hstarts : starts k ⟨s, op, step d s op⟩ = true
  · obtain ⟨i, t, w, rfl, ht, hphase, hk⟩ := starts_cases hstarts
    have ht : s.tasks[i]? = some t := ht
    have hstep : step d s (.start i) = s.moveTask i t (.handling w s.now) := by
      simp [step, callStep, Op.task?, ht, taskStep, hphase]
    have hwaits : t.waits k = true := by
      rw [Task.waits, hphase]
      exact decide_eq_true hk
    have hset := countP_waits_set (k := k) ht
      (show (step d s (.start i)).tasks = s.tasks.set i { t with phase := .handling w s.now } by
        rw [hstep]; rfl)
    have hnew : ({ t with phase := .handling w s.now } : Task).waits k = false := rfl
    have hcount : ((step d s (.start i)).board k).epoch = (s.board k).epoch := by rw [hstep]; rfl
    rw [hwaits, hnew, Bool.toNat_true, Bool.toNat_false] at hset
    rw [if_pos hstarts, potential, potential, hcount]
    omega
  · rw [if_neg hstarts, Int.add_zero]
    generalize hs' : step d s op = s' at hstarts
    have hstep : Step d s op s' := hs' ▸ step_spec d s op
    cases hstep with
    | idle | ticked | message | relayBegun | swept => exact Int.le_refl _
    | relay _ _ j r hr hop h =>
      obtain ⟨hledger, htasks, -⟩ := h.frame
      refine Int.le_of_eq ?_
      rw [potential, potential, System.board, System.board, hledger, htasks]
    | delivered m message hm hopen hdue =>
      have hcount : (s.tasks ++ [(⟨m, message.consumer, message.data, .received⟩ : Task)]).countP
          (Task.waits k) = s.tasks.countP (Task.waits k) := by
        rw [List.countP_append]
        rfl
      rw [potential, potential, hcount]
      exact Int.le_refl _
    | task _ _ i t ht h =>
      cases h with
      | idle => exact Int.le_refl _
      | moved _ p h => exact potential_le_of_set ht rfl rfl (by cases h <;> rfl)
      | rawCaptured error outcome hphase hdecode =>
        exact potential_le_of_set ht rfl rfl (by cases outcome <;> rfl)
      | begun evt processing ledger hphase hdecode hbegun =>
        exact potential_begun ht hphase hbegun rfl rfl
      | started w hphase => exact potential_le_of_set ht rfl rfl rfl
      | committed w startedAt events outcome hphase houtcome =>
        cases outcome with
        | committed => exact potential_le_of_set ht rfl (epoch_fail rfl) rfl
        | unacknowledged => exact potential_le_of_set ht rfl (epoch_fail rfl) rfl
        | rolledBack => exact absurd rfl houtcome
      | captured w error outcome hphase hspent =>
        exact potential_le_of_set ht rfl rfl (by cases outcome <;> rfl)
      | deadLettered w hphase => exact potential_le_of_set ht rfl (epoch_fail rfl) rfl
      | retried w hphase => exact potential_le_of_set ht rfl (epoch_fail rfl) rfl
      | acked raised hphase => exact potential_le_of_set ht rfl rfl (by cases raised <;> rfl)
      | naked hphase => exact potential_le_of_set ht rfl rfl rfl

/-! ## The budget -/

/-- The call `i` is about to take over a stale claim of the last attempt. -/
def System.takesOverSpent (d : Deployment) (s : System) (i : ℕ) : Bool :=
  (s.tasks[i]?).any fun t => (d.decode t.data).any fun evt =>
    (s.ledger.find? (t.key evt)).any fun r =>
      decide (r.status = .processing) && r.reclaimable s.now d.processingStaleSeconds &&
        decide ((d.policy t.consumer).maxAttempts ≤ r.attempts)

/-- No stale claim of the last attempt is taken over, and no retry is scheduled by
a superseded call. -/
def WithinBudget (d : Deployment) (s : System) : Op → Bool
  | .begin i => !s.takesOverSpent d i
  | .retry i => !s.superseded i
  | _ => true

/-- The step is a dead-letter capture that fails. -/
def Op.captureFails : Op → Bool
  | .capture _ _ (.raised _) => true
  | _ => false

/-- The count of the row `k` is within its budget, with one attempt left while a
retry is scheduled; no capture has failed. -/
structure BudgetInv (d : Deployment) (k : EventKey) (s : System) : Prop where
  spent : ∀ r, s.ledger.find? k = some r → (r.attempts : ℤ) ≤ (d.policy k.2).maxAttempts
  left : ∀ r, s.ledger.find? k = some r → r.status = .retrying →
    (r.attempts : ℤ) < (d.policy k.2).maxAttempts
  captures : ∀ t ∈ s.tasks, ∀ w, t.phase ≠ .captureFailed w

theorem captures_set {s s' : System} {i : ℕ} {t' : Task}
    (h : ∀ t ∈ s.tasks, ∀ w, t.phase ≠ .captureFailed w)
    (htasks : s'.tasks = s.tasks.set i t') (ht' : ∀ w, t'.phase ≠ .captureFailed w) :
    ∀ t ∈ s'.tasks, ∀ w, t.phase ≠ .captureFailed w := by
  intro t ht
  rw [htasks] at ht
  rcases List.mem_or_eq_of_mem_set ht with ht | rfl
  · exact h t ht
  · exact ht'

section

variable {d : Deployment} {s s' : System} {k : EventKey}

/-- A step that leaves the row alone. -/
theorem BudgetInv.keep (h : BudgetInv d k s) (hrow : s'.ledger.find? k = s.ledger.find? k)
    (hcaptures : ∀ t ∈ s'.tasks, ∀ w, t.phase ≠ .captureFailed w) : BudgetInv d k s' where
  spent := by rw [hrow]; exact h.spent
  left := by rw [hrow]; exact h.left
  captures := hcaptures

theorem BudgetInv.write (h : BudgetInv d k s) {now : Timestamp} {k' : EventKey}
    {status : EventProcessingStatus}
    (hledger : s'.ledger = failEventProcessing s.ledger now k' status)
    (hcaptures : ∀ t ∈ s'.tasks, ∀ w, t.phase ≠ .captureFailed w)
    (hleft : k = k' → status = .retrying → ∀ r, s.ledger.find? k = some r →
      (r.attempts : ℤ) < (d.policy k.2).maxAttempts) : BudgetInv d k s' := by
  have hfind := find?_failEventProcessing s.ledger now k' k status
  rw [← hledger] at hfind
  by_cases hk : k = k'
  · rw [if_pos hk] at hfind
    refine ⟨fun r hr => ?_, fun r hr hretrying => ?_, hcaptures⟩
    · obtain ⟨x, hx, rfl⟩ := Option.map_eq_some_iff.mp (hfind.symm.trans hr)
      exact h.spent x hx
    · obtain ⟨x, hx, rfl⟩ := Option.map_eq_some_iff.mp (hfind.symm.trans hr)
      exact hleft hk hretrying x hx
  · rw [if_neg hk] at hfind
    exact h.keep hfind hcaptures

theorem BudgetInv.claim (h : BudgetInv d k s) (hmax : 1 ≤ (d.policy k.2).maxAttempts) {i : ℕ}
    {t : Task} {evt : EventEnvelope} {processing : EventProcessingRecord}
    {ledger : ProcessingLedger} (ht : s.tasks[i]? = some t) (hdecode : d.decode t.data = some evt)
    (hbegun : Begun s.ledger s.now d.processingStaleSeconds (t.key evt) processing ledger)
    (hok : s.takesOverSpent d i = false) (hledger : s'.ledger = ledger)
    (hcaptures : ∀ t ∈ s'.tasks, ∀ w, t.phase ≠ .captureFailed w) : BudgetInv d k s' := by
  by_cases hk : t.key evt = k
  · subst hk
    cases hbegun with
    | first _ hr hins =>
      have hrow : s'.ledger.find? (t.key evt) = some (.first (t.key evt) s.now) := by
        rw [hledger, find?_first hins]
      refine ⟨fun r hr' => ?_, fun r hr' hretrying => ?_, hcaptures⟩
      · rw [hrow] at hr'
        cases hr'
        exact hmax
      · rw [hrow] at hr'
        cases hr'
        cases hretrying
    | again r hr hreclaim =>
      have hrow : s'.ledger.find? (t.key evt) = some (r.reclaim s.now) := by
        rw [hledger, find?_reclaim hr]
      -- a retry has an attempt left, and so has a stale claim that is taken over
      have hlt : (r.attempts : ℤ) < (d.policy t.consumer).maxAttempts := by
        rcases hstatus : r.status with _ | _ | _ | _
        · have hspent := hok
          simp only [System.takesOverSpent, ht, hdecode, hr, hstatus, hreclaim, Option.any_some,
            decide_true, Bool.true_and, decide_eq_false_iff_not] at hspent
          exact Int.not_le.mp hspent
        · have := EventProcessing.not_terminal_of_reclaimable hreclaim
          rw [hstatus] at this
          cases this
        · exact h.left r hr hstatus
        · have := EventProcessing.not_terminal_of_reclaimable hreclaim
          rw [hstatus] at this
          cases this
      refine ⟨fun x hx => ?_, fun x hx hretrying => ?_, hcaptures⟩
      · rw [hrow] at hx
        cases hx
        exact hlt
      · rw [hrow] at hx
        cases hx
        cases hretrying
    | closed | blocked => exact h.keep (by rw [hledger]) hcaptures
  · exact h.keep (by rw [hledger, hbegun.find?_ne (Ne.symm hk)]) hcaptures

end

theorem step_budgetInv (d : Deployment) (k : EventKey) (hmax : 1 ≤ (d.policy k.2).maxAttempts)
    (s : System) (op : Op) (hinv : BudgetInv d k s)
    (hok : WithinBudget d s op = true ∧ op.captureFails = false) :
    BudgetInv d k (step d s op) := by
  obtain ⟨hbudget, hcapture⟩ := hok
  generalize hs' : step d s op = s'
  have hstep : Step d s op s' := hs' ▸ step_spec d s op
  cases hstep with
  | idle | ticked | message | relayBegun | swept => exact hinv.keep rfl hinv.captures
  | relay _ _ j r hr hop h =>
    obtain ⟨hledger, htasks, -⟩ := h.frame
    exact hinv.keep (by rw [hledger]) (by rw [htasks]; exact hinv.captures)
  | delivered m message hm hopen hdue =>
    refine hinv.keep rfl fun t ht => ?_
    rcases List.mem_append.mp ht with ht | ht
    · exact hinv.captures t ht
    · rw [List.mem_singleton.mp ht]
      exact fun w hw => Phase.noConfusion hw
  | task _ _ i t ht h =>
    cases h with
    | idle => exact hinv
    | moved _ p h =>
      refine hinv.keep rfl (captures_set hinv.captures rfl ?_)
      cases h <;> exact fun w hw => Phase.noConfusion hw
    | rawCaptured error outcome hphase hdecode =>
      refine hinv.keep rfl (captures_set hinv.captures rfl ?_)
      cases outcome <;> exact fun w hw => Phase.noConfusion hw
    | begun evt processing ledger hphase hdecode hbegun =>
      refine hinv.claim hmax ht hdecode hbegun (by simpa [WithinBudget] using hbudget) rfl
        (captures_set hinv.captures rfl fun w hw => ?_)
      unfold EventProcessingRecord.next at hw
      split at hw <;> cases hw
    | started w hphase =>
      exact hinv.keep rfl (captures_set hinv.captures rfl fun w hw => Phase.noConfusion hw)
    | committed w startedAt events outcome hphase houtcome =>
      cases outcome with
      | committed | unacknowledged =>
        exact hinv.write rfl (captures_set hinv.captures rfl fun w hw => Phase.noConfusion hw)
          fun _ h => EventProcessingStatus.noConfusion h
      | rolledBack => exact absurd rfl houtcome
    | captured w error outcome hphase hspent =>
      cases outcome with
      | captured =>
        exact hinv.keep rfl (captures_set hinv.captures rfl fun w hw => Phase.noConfusion hw)
      | raised => cases hcapture
    | deadLettered w hphase =>
      exact hinv.write rfl (captures_set hinv.captures rfl fun w hw => Phase.noConfusion hw)
        fun _ h => EventProcessingStatus.noConfusion h
    | retried w hphase =>
      refine hinv.write rfl (captures_set hinv.captures rfl fun w hw => Phase.noConfusion hw)
        fun hk _ r hr => ?_
      rcases hphase with ⟨hphase, hleft⟩ | hphase
      · -- the retry is of the newest claim, which had an attempt left
        have hcurrent : s.superseded i = false := by simpa [WithinBudget] using hbudget
        subst hk
        have hattempts : r.attempts = w.attempts := by
          simpa [System.superseded, ht, hphase, Phase.work?, hr] using hcurrent
        rw [hattempts]
        exact hleft
      · exact absurd hphase (hinv.captures t (List.mem_of_getElem? ht) w)
    | acked raised hphase =>
      refine hinv.keep rfl (captures_set hinv.captures rfl ?_)
      cases raised <;> exact fun w hw => Phase.noConfusion hw
    | naked hphase =>
      exact hinv.keep rfl (captures_set hinv.captures rfl fun w hw => Phase.noConfusion hw)

/-! ## Runs -/

/-- **Bounded handler starts.** In a run whose dead-letter captures succeed, and
that neither takes over a stale claim of the last attempt nor lets a superseded
call schedule a retry, the handler is started at most `max_attempts` times for an
event. -/
theorem run_starts_le (d : Deployment) (ops : List Op) (k : EventKey)
    (hmax : 1 ≤ (d.policy k.2).maxAttempts)
    (hcapture : ∀ op ∈ ops, op.captureFails = false)
    (hok : Meets (step d) (fun s op => WithinBudget d s op = true) System.init ops) :
    ((trace (step d) System.init ops).countP (starts k) : ℤ) ≤ (d.policy k.2).maxAttempts := by
  have hinit : BudgetInv d k System.init :=
    ⟨fun r hr => (by cases hr), fun r hr => (by cases hr), fun t ht => absurd ht List.not_mem_nil⟩
  have hcaptures : Meets (step d) (fun s op => WithinBudget d s op = true ∧ op.captureFails = false)
      System.init ops := fun e he => ⟨hok e he, hcapture e.action (action_mem_of_trace he)⟩
  have hcount := countP_trace_le (P := fun _ => True) (fun _ _ _ _ => trivial) (starts k)
    (potential k) (fun s op _ _ => step_potential d s op k) trivial hcaptures
  have hfinal := run_invariant_of_meets (step_budgetInv d k hmax) hinit hcaptures
  have hzero : potential k System.init = 0 := rfl
  -- the starts are at most the attempts, and the attempts at most the budget
  have hattempts : ((run (step d) System.init ops).board k).epoch ≤ (d.policy k.2).maxAttempts := by
    rcases hr : (run (step d) System.init ops).ledger.find? k with _ | r
    · rw [board_no_row hr]
      exact Int.le_trans Int.one_nonneg hmax
    · rw [board_row hr]
      exact hfinal.spent r hr
  have hle : potential k (run (step d) System.init ops) ≤
      ((run (step d) System.init ops).board k).epoch := by
    rw [potential]
    omega
  omega

/-! ## An event that kills its worker -/

/-- The message is delivered, claimed and started, and the process dies. -/
def killedWorker (i : ℕ) : List Op := [.deliver 0, .begin i, .start i, .crash i, .tick 91]

/-- The event kills its worker four times, each time after the claim. -/
def poisonEvent : List Op :=
  .message "policy" [1] :: (killedWorker 0 ++ killedWorker 1 ++ killedWorker 2 ++ killedWorker 3)

/-- With a budget of three the handler is started a fourth time. -/
theorem run_starts_past_budget :
    ¬ ∀ (d : Deployment) (ops : List Op) (k : EventKey), 1 ≤ (d.policy k.2).maxAttempts →
      (∀ op ∈ ops, op.captureFails = false) →
      ((trace (step d) System.init ops).countP (starts k) : ℤ) ≤ (d.policy k.2).maxAttempts := by
  intro h
  have hle := h defaultDeployment poisonEvent ("evt-1", "policy") (by decide) (by decide)
  have hfour : (trace (step defaultDeployment) System.init poisonEvent).countP
      (starts ("evt-1", "policy")) = 4 := by decide
  rw [hfour] at hle
  exact absurd hle (by decide)

/-- A worker that dies twice and raises at the last attempt is dead-lettered. -/
theorem run_starts_le_killed :
    ((trace (step defaultDeployment) System.init (.message "policy" [1] ::
      (killedWorker 0 ++ killedWorker 1 ++ [.deliver 0, .begin 2, .start 2, .handlerRaises 2,
        .capture 2 "boom" .captured, .deadLetter 2, .ack 2 false]))).countP
      (starts ("evt-1", "policy")) : ℤ) ≤ 3 := by
  refine run_starts_le defaultDeployment _ ("evt-1", "policy") (by decide) (by decide) fun e he => ?_
  have hall : (trace (step defaultDeployment) System.init (.message "policy" [1] ::
      (killedWorker 0 ++ killedWorker 1 ++ [.deliver 0, .begin 2, .start 2, .handlerRaises 2,
        .capture 2 "boom" .captured, .deadLetter 2, .ack 2 false]))).all
      (fun e => WithinBudget defaultDeployment e.pre e.action) = true := by decide
  exact List.all_eq_true.mp hall e he

end Opsia.Event
