import Opsia.Event.Transitions
import Opsia.Lib.Fencing
import Opsia.Lib.Runs

/-!
# Exactly-once effect of the worker

A row of the ledger is a fenced resource in the sense of `Fencing`: `attempts` is
its epoch, and a call keeps the attempt number of its claim as its token. The code
does not check the token: `finish` and `fail` update the row by its key. So a run
refines the pattern when no call writes after its claim was taken over (`Fenced`),
and in such runs a closed row is final and the unit of work of an event is
committed at most once (`run_exactly_once`). The start-up contract on the timers
does not imply the condition, since only the handler is bounded by them.
-/

namespace Opsia.Event

open Fencing Runs

/-! ## The row as a fenced resource -/

/-- The token of a call for the row `k`. -/
def Task.token (k : EventKey) (t : Task) : Option ℕ :=
  t.phase.work?.bind fun w => if t.key w.evt = k then some w.attempts else none

/-- The claims on the row `k`. -/
def System.board (s : System) (k : EventKey) : Board ℕ (Option EventProcessingStatus) where
  epoch := ((s.ledger.find? k).map (·.attempts)).getD 0
  status := (s.ledger.find? k).map (·.status)
  token := fun i => (s.tasks[i]?).bind (Task.token k)

/-- The status of a row that is closed. -/
def Closed (status : Option EventProcessingStatus) : Prop :=
  status.any (·.terminal) = true

instance (status : Option EventProcessingStatus) : Decidable (Closed status) :=
  inferInstanceAs (Decidable (_ = true))

/-- The steps of a fenced ledger row. -/
abbrev RowStep : Board ℕ (Option EventProcessingStatus) →
    Board ℕ (Option EventProcessingStatus) → Prop :=
  Fencing.Step (some .processing) Closed

/-! ## Writes of superseded calls -/

/-- The claim of the call `i` was taken over: its row counts more attempts. -/
def System.superseded (s : System) (i : ℕ) : Bool :=
  (s.tasks[i]?).any fun t => t.phase.work?.any fun w =>
    (s.ledger.find? (t.key w.evt)).any fun r => decide (r.attempts ≠ w.attempts)

/-- The call whose outcome the step writes to the ledger. -/
def Op.writer? : Op → Option ℕ
  | .commit i .committed | .commit i .unacknowledged | .deadLetter i | .retry i => some i
  | _ => none

/-- The commit of a unit of work is reported as an exception. -/
def Op.unacknowledged : Op → Bool
  | .commit _ .unacknowledged => true
  | _ => false

/-- The step is no write of a superseded call, and no commit that its call does
not hear of. -/
def Fenced (s : System) (op : Op) : Bool :=
  !op.writer?.any s.superseded && !op.unacknowledged

/-! ## Every fenced step is a step of the pattern -/

section

variable {s s' : System} {i : ℕ} {t t' : Task} {k : EventKey}

theorem Task.token_of_work {w : Work} (h : t.phase.work? = some w) :
    t.token (t.key w.evt) = some w.attempts := by
  rw [Task.token, h, Option.bind_some, if_pos rfl]

theorem Task.token_of_none (h : t.phase.work? = none) : t.token k = none := by
  rw [Task.token, h, Option.bind_none]

theorem board_token (ht : s.tasks[i]? = some t) : (s.board k).token i = t.token k := by
  change (s.tasks[i]?).bind (Task.token k) = _
  rw [ht, Option.bind_some]

theorem tokens_set (ht : s.tasks[i]? = some t) (htasks : s'.tasks = s.tasks.set i t') :
    (s'.board k).token = Function.update (s.board k).token i (t'.token k) := by
  funext j
  by_cases hj : j = i
  · subst hj
    have hlt : j < s.tasks.length := (List.getElem?_eq_some_iff.mp ht).1
    simp [System.board, htasks, List.getElem?_set_self hlt]
  · simp [System.board, htasks, List.getElem?_set_ne (Ne.symm hj), hj]

theorem tokens_append (htasks : s'.tasks = s.tasks ++ [t]) (ht : t.phase.work? = none) (j : ℕ) :
    (s'.board k).token j = (s.board k).token j := by
  change (s'.tasks[j]?).bind (Task.token k) = (s.tasks[j]?).bind (Task.token k)
  rw [htasks]
  rcases Nat.lt_trichotomy j s.tasks.length with hj | hj | hj
  · rw [List.getElem?_append_left hj]
  · rw [hj, List.getElem?_concat_length, List.getElem?_eq_none (Nat.le_refl _)]
    exact Task.token_of_none ht
  · have hlen : (s.tasks ++ [t]).length ≤ j := by
      rw [List.length_append]
      exact hj
    rw [List.getElem?_eq_none hlen, List.getElem?_eq_none (Nat.le_of_lt hj)]

theorem board_row {r : EventProcessing} (hr : s.ledger.find? k = some r) :
    s.board k = ⟨r.attempts, some r.status, (s.board k).token⟩ := by
  simp [System.board, hr]

theorem board_no_row (hr : s.ledger.find? k = none) :
    s.board k = ⟨0, none, (s.board k).token⟩ := by
  simp [System.board, hr]

/-- A step of the call `i` that leaves the row alone. -/
theorem board_set (ht : s.tasks[i]? = some t) (hrow : s'.ledger.find? k = s.ledger.find? k)
    (htasks : s'.tasks = s.tasks.set i t') :
    s'.board k =
      { s.board k with token := Function.update (s.board k).token i (t'.token k) } := by
  rw [← tokens_set ht htasks]
  rcases hr : s.ledger.find? k with _ | r
  · rw [hr] at hrow
    rw [board_no_row hr]
    exact board_no_row hrow
  · rw [hr] at hrow
    rw [board_row hr]
    exact board_row hrow

theorem board_keep (ht : s.tasks[i]? = some t) (hrow : s'.ledger.find? k = s.ledger.find? k)
    (htasks : s'.tasks = s.tasks.set i t') (htoken : t'.token k = t.token k) :
    RowStep (s.board k) (s'.board k) := by
  rw [board_set ht hrow htasks, htoken, ← board_token ht, Function.update_eq_self]
  exact .idle _

theorem board_release (ht : s.tasks[i]? = some t) (hrow : s'.ledger.find? k = s.ledger.find? k)
    (htasks : s'.tasks = s.tasks.set i t') (htoken : t'.token k = none) :
    RowStep (s.board k) (s'.board k) := by
  rw [board_set ht hrow htasks, htoken]
  exact .release _ i

theorem newest_of_current {w : Work} (ht : s.tasks[i]? = some t) (hw : t.phase.work? = some w)
    (hinv : (s.board (t.key w.evt)).Inv (some .processing)) (hcurrent : s.superseded i = false) :
    ∃ r, s.ledger.find? (t.key w.evt) = some r ∧ r.attempts = w.attempts ∧
      r.status = .processing := by
  have hmine : (s.board (t.key w.evt)).token i = some w.attempts := by
    rw [board_token ht, Task.token_of_work hw]
  rcases hr : s.ledger.find? (t.key w.evt) with _ | r
  · -- no claim without a row
    have hpos := hinv.pos i _ hmine
    have hle := hinv.le_epoch i _ hmine
    rw [board_no_row hr] at hle
    exact absurd hle (Nat.not_le.mpr hpos)
  · have hattempts : r.attempts = w.attempts := by
      simpa [System.superseded, ht, hw, hr] using hcurrent
    have hworking := hinv.working i
    rw [hmine, board_row hr, hattempts] at hworking
    exact ⟨r, rfl, hattempts, Option.some.inj (hworking rfl)⟩

theorem board_write {w : Work} {status : EventProcessingStatus} {now : Timestamp}
    (ht : s.tasks[i]? = some t) (hw : t.phase.work? = some w)
    (hinv : (s.board (t.key w.evt)).Inv (some .processing)) (hcurrent : s.superseded i = false)
    (hledger : s'.ledger = failEventProcessing s.ledger now (t.key w.evt) status)
    (htasks : s'.tasks = s.tasks.set i t') (htoken : t'.phase.work? = none) :
    RowStep (s.board k) (s'.board k) := by
  by_cases hk : t.key w.evt = k
  · subst hk
    obtain ⟨r, hr, hattempts, -⟩ := newest_of_current ht hw hinv hcurrent
    have hrow : s'.ledger.find? (t.key w.evt) = some (r.outcome status now) := by
      rw [hledger, failEventProcessing, Table.find?_modify_self, hr]
      rfl
    have hnewest : (s.board (t.key w.evt)).token i = some (s.board (t.key w.evt)).epoch := by
      rw [board_token ht, Task.token_of_work hw, board_row hr, hattempts]
    have hwrite : s'.board (t.key w.evt) = (s.board (t.key w.evt)).write i (some status) := by
      rw [board_row hrow, tokens_set ht htasks, Task.token_of_none htoken, board_row hr]
      rfl
    rw [hwrite]
    exact .write _ i _ hnewest
  · refine board_release ht ?_ htasks (Task.token_of_none htoken)
    rw [hledger, failEventProcessing, Table.find?_modify_ne _ _ _ (Ne.symm hk)]

/-- A claim draws the next attempt number. -/
theorem board_begun {evt : EventEnvelope} {now : Timestamp} {staleSeconds : ℤ}
    {processing : EventProcessingRecord} {ledger : ProcessingLedger} (ht : s.tasks[i]? = some t)
    (h : Begun s.ledger now staleSeconds (t.key evt) processing ledger)
    (hledger : s'.ledger = ledger)
    (htasks : s'.tasks = s.tasks.set i { t with phase := processing.next evt }) :
    RowStep (s.board k) (s'.board k) := by
  have hother : t.key evt ≠ k → s'.ledger.find? k = s.ledger.find? k := fun hk => by
    rw [hledger, h.find?_ne (Ne.symm hk)]
  cases h with
  | first _ hr hins =>
    by_cases hk : t.key evt = k
    · subst hk
      have hrow : s'.ledger.find? (t.key evt) = some (.first (t.key evt) now) := by
        rw [hledger, find?_first hins]
      have hclaim : s'.board (t.key evt) = (s.board (t.key evt)).claim i (some .processing) := by
        have htoken : Task.token (t.key evt) { t with
            phase := EventProcessingRecord.next ⟨.ledger .processing, 1⟩ evt } = some 1 := if_pos rfl
        rw [board_row hrow, tokens_set ht htasks, htoken, board_no_row hr]
        rfl
      rw [hclaim]
      refine .claim _ i ?_
      rw [board_no_row hr]
      exact Bool.false_ne_true
    · exact board_release ht (hother hk) htasks (if_neg hk)
  | again r hr hreclaim =>
    by_cases hk : t.key evt = k
    · subst hk
      have hrow : s'.ledger.find? (t.key evt) = some (r.reclaim now) := by
        rw [hledger, find?_reclaim hr]
      have hclaim : s'.board (t.key evt) = (s.board (t.key evt)).claim i (some .processing) := by
        have htoken : Task.token (t.key evt) { t with
            phase := EventProcessingRecord.next ⟨.ledger .processing, r.attempts + 1⟩ evt } =
              some (r.attempts + 1) := if_pos rfl
        rw [board_row hrow, tokens_set ht htasks, htoken, board_row hr]
        rfl
      rw [hclaim]
      refine .claim _ i ?_
      rw [board_row hr, Closed, Option.any_some,
        EventProcessing.not_terminal_of_reclaimable hreclaim]
      exact Bool.false_ne_true
    · exact board_release ht (hother hk) htasks (if_neg hk)
  | closed r hr hclosed =>
    refine board_release ht (by rw [hledger]) htasks (Task.token_of_none ?_)
    cases hstatus : r.status with
    | processed | deadLettered => rfl
    | processing | retrying =>
      rw [hstatus] at hclosed
      cases hclosed
  | blocked r hr hheld =>
    exact board_release ht (by rw [hledger]) htasks (Task.token_of_none rfl)

end

/-- **The ledger row refines the fencing pattern** in fenced steps. -/
theorem step_board (d : Deployment) (s : System) (op : Op) (k : EventKey)
    (hinv : ∀ k, (s.board k).Inv (some .processing)) (hok : Fenced s op = true) :
    RowStep (s.board k) ((step d s op).board k) := by
  have hsame : ∀ s' : System, s'.ledger = s.ledger →
      (∀ j, (s'.board k).token j = (s.board k).token j) → RowStep (s.board k) (s'.board k) := by
    intro s' hl ht
    have hboard : s'.board k = s.board k := by
      rw [System.board, hl]
      exact congrArg (Board.mk _ _) (funext ht)
    rw [hboard]
    exact .idle _
  have hcurrent : ∀ i, op.writer? = some i → s.superseded i = false := by
    intro i hi
    simp only [Fenced, hi, Option.any_some, Bool.and_eq_true, Bool.not_eq_true'] at hok
    exact hok.1
  generalize hs' : step d s op = s'
  have hstep : Step d s op s' := hs' ▸ step_spec d s op
  cases hstep with
  | idle | ticked | message | relayBegun | swept => exact hsame _ rfl fun _ => rfl
  | relay _ _ j r hr hop h =>
    obtain ⟨hledger, htasks, -⟩ := h.frame
    refine hsame _ hledger fun i => ?_
    rw [System.board, htasks]
    rfl
  | delivered m message hm hopen hdue =>
    -- the new call holds no token
    exact hsame _ rfl (tokens_append rfl rfl)
  | task _ _ i t ht h =>
    cases h with
    | idle => exact .idle _
    | moved _ p h =>
      cases h with
      | returned w startedAt events hphase htime =>
        exact board_keep ht rfl rfl (by rw [Task.token, Task.token, hphase]; rfl)
      | raised w hphase | rolledBack w hphase =>
        exact board_keep ht rfl rfl (by rw [Task.token, Task.token, hphase]; rfl)
      | gaveUp | crashed => exact board_release ht rfl rfl rfl
    | rawCaptured error outcome hphase hdecode =>
      refine board_release ht rfl rfl ?_
      cases outcome <;> rfl
    | begun evt processing ledger hphase hdecode hbegun => exact board_begun ht hbegun rfl rfl
    | started w hphase => exact board_keep ht rfl rfl (by rw [Task.token, Task.token, hphase]; rfl)
    | committed w startedAt events outcome hphase houtcome =>
      have hw : t.phase.work? = some w := by rw [hphase]; rfl
      cases outcome with
      | committed => exact board_write ht hw (hinv _) (hcurrent i rfl) rfl rfl rfl
      | unacknowledged => simp [Fenced, Op.unacknowledged] at hok
      | rolledBack => exact absurd rfl houtcome
    | captured w error outcome hphase hspent =>
      refine board_keep ht rfl rfl ?_
      rw [Task.token, Task.token, hphase]
      cases outcome <;> rfl
    | deadLettered w hphase =>
      have hw : t.phase.work? = some w := by rw [hphase]; rfl
      exact board_write ht hw (hinv _) (hcurrent i rfl) rfl rfl rfl
    | retried w hphase =>
      have hw : t.phase.work? = some w := by rcases hphase with ⟨h, -⟩ | h <;> rw [h] <;> rfl
      exact board_write ht hw (hinv _) (hcurrent i rfl) rfl rfl rfl
    | acked raised hphase =>
      refine board_release ht rfl rfl ?_
      cases raised <;> rfl
    | naked hphase => exact board_release ht rfl rfl rfl

/-! ## Runs -/

/-- The invariant of fenced runs. -/
def BoardsInv (s : System) : Prop := ∀ k, (s.board k).Inv (some .processing)

theorem step_boardsInv (d : Deployment) (s : System) (op : Op) (hinv : BoardsInv s)
    (hok : Fenced s op = true) : BoardsInv (step d s op) :=
  fun k => (step_board d s op k hinv hok).inv (hinv k)

theorem boardsInv_init : BoardsInv System.init := fun _ => Board.inv_of_no_token fun _ => rfl

theorem step_closed (d : Deployment) (s : System) (op : Op) (k : EventKey) (hinv : BoardsInv s)
    (hok : Fenced s op = true) (hclosed : Closed (s.board k).status) :
    ((step d s op).board k).status = (s.board k).status :=
  (step_board d s op k hinv hok).status_of_closed Bool.false_ne_true (hinv k) hclosed

/-- The claim of a call whose handler returned. -/
def Phase.returned? : Phase → Option Work
  | .returned w _ _ => some w
  | _ => none

/-- The entry commits a unit of work for the row `k`: the business writes of the
handler, the returned events as outbox rows, and the outcome. -/
def commits (k : EventKey) (e : Entry System Op) : Bool :=
  match e.action with
  | .commit _ .rolledBack => false
  | .commit i _ => (e.pre.tasks[i]?).any fun t => t.phase.returned?.any fun w => t.key w.evt = k
  | _ => false

theorem commits_cases {k : EventKey} {e : Entry System Op} (h : commits k e = true) :
    ∃ i t w startedAt events outcome, e.action = .commit i outcome ∧ outcome ≠ .rolledBack ∧
      e.pre.tasks[i]? = some t ∧ t.phase = .returned w startedAt events ∧ t.key w.evt = k := by
  unfold commits at h
  split at h
  · cases h
  · rename_i i outcome houtcome haction
    obtain ⟨t, ht, hreturned⟩ := (Option.any_eq_true _ _).mp h
    obtain ⟨w, hw, hk⟩ := (Option.any_eq_true _ _).mp hreturned
    unfold Phase.returned? at hw
    split at hw
    · rename_i w' startedAt events hphase
      cases hw
      exact ⟨i, t, w, startedAt, events, outcome, haction,
        houtcome, ht, hphase, of_decide_eq_true hk⟩
    · cases hw
  · cases h

/-- The row `k`, closed after the entry `e`, is closed the same way after `e'`. -/
def KeepsClosed (k : EventKey) (e e' : Entry System Op) : Prop :=
  ∀ r, e.post.ledger.find? k = some r → r.status.terminal = true →
    ∃ r', e'.post.ledger.find? k = some r' ∧ r'.status = r.status

/-- A commit finds the row being worked on and leaves it processed. -/
theorem commits_closes (d : Deployment) {s : System} {op : Op} {k : EventKey} (hinv : BoardsInv s)
    (hok : Fenced s op = true) (h : commits k ⟨s, op, step d s op⟩ = true) :
    ¬ Closed (s.board k).status ∧ Closed ((step d s op).board k).status := by
  obtain ⟨i, t, w, startedAt, events, outcome, rfl, houtcome, ht, hphase, rfl⟩ := commits_cases h
  cases outcome with
  | unacknowledged => simp [Fenced, Op.unacknowledged] at hok
  | rolledBack => exact absurd rfl houtcome
  | committed =>
    have hcurrent : s.superseded i = false := by
      simpa [Fenced, Op.writer?, Op.unacknowledged] using hok
    obtain ⟨r, hr, -, hworking⟩ :=
      newest_of_current ht (show t.phase.work? = some w by rw [hphase]; rfl) (hinv _) hcurrent
    have hstep : step d s (.commit i .committed) = commitStep s i t w startedAt events .committed := by
      simp [step, callStep, Op.task?, ht, taskStep, hphase]
    have hrow : (step d s (.commit i .committed)).ledger.find? (t.key w.evt) =
        some (r.outcome .processed startedAt) := by
      rw [hstep]
      exact find?_finishEventProcessing hr startedAt
    rw [board_row hr, board_row hrow, hworking]
    exact ⟨Bool.false_ne_true, rfl⟩

/-- **Exactly-once effect.** In a run without writes of superseded calls a closed
row is final, and the unit of work of an event is committed at most once. -/
theorem run_exactly_once (d : Deployment) (ops : List Op) (k : EventKey)
    (hok : Meets (step d) (fun s op => Fenced s op = true) System.init ops) :
    (trace (step d) System.init ops).Pairwise (KeepsClosed k) ∧
      (trace (step d) System.init ops).countP (commits k) ≤ 1 := by
  constructor
  · refine trace_pairwise_of_meets (step_boardsInv d) (fun s op hs hop => ?_) boardsInv_init hok
    have hstable : ∀ u b, BoardsInv u → Fenced u b = true →
        (Closed ((step d s op).board k).status →
          (u.board k).status = ((step d s op).board k).status) →
        Closed ((step d s op).board k).status →
          ((step d u b).board k).status = ((step d s op).board k).status := by
      intro u b hu hb hD hclosed
      rw [step_closed d u b k hu hb (by rw [hD hclosed]; exact hclosed), hD hclosed]
    refine ⟨fun u => Closed ((step d s op).board k).status →
      (u.board k).status = ((step d s op).board k).status, fun _ => rfl, hstable, ?_⟩
    intro u b hu hb hD r hr hterminal
    have hpost : ((step d s op).board k).status = some r.status := by rw [board_row hr]
    have hkept := hstable u b hu hb hD (by rw [hpost]; exact hterminal)
    rw [hpost] at hkept
    obtain ⟨r', hr', hstatus⟩ := Option.map_eq_some_iff.mp hkept
    exact ⟨r', hr', hstatus⟩
  · -- a closed row has paid for its one commit
    let potential : System → ℤ := fun u => if Closed (u.board k).status then 1 else 0
    have hle : ∀ u, potential u ≤ 1 := by
      intro u
      dsimp only [potential]
      split <;> decide
    have hcount := countP_trace_le (step_boardsInv d) (commits k) potential
      (fun s op hs hop => ?_) boardsInv_init hok
    · have hinit : potential System.init = 0 := rfl
      have hlast := hle (run (step d) System.init ops)
      omega
    · by_cases hcommit : commits k ⟨s, op, step d s op⟩ = true
      · obtain ⟨hopen, hclosed⟩ := commits_closes d hs hop hcommit
        simp only [potential, if_neg hopen, if_pos hclosed, if_pos hcommit]
        decide
      · rw [if_neg hcommit, Int.add_zero]
        by_cases hclosed : Closed (s.board k).status
        · simp only [potential, step_closed d s op k hs hop hclosed]
          exact Int.le_refl _
        · simp only [potential, if_neg hclosed]
          split <;> decide

/-! ## A worker that stalls -/

/-- The default settings, and a codec that only rejects the empty message. -/
def defaultDeployment : Deployment where
  decode := fun data => if data = [] then none else some sampleEvent
  ackWaitSeconds := 60
  processingStaleSeconds := 90
  policy := fun _ => ⟨3, 2, 30⟩
  valid := fun _ => rfl

/-- A worker claims the event and its handler times out; the process is suspended
before `ledger.retry`. After the claim is stale another worker commits. -/
def stalledWorker : List Op :=
  [.message "policy" [1], .deliver 0, .begin 0, .start 0, .tick 30, .handlerRaises 0, .tick 61,
    .deliver 0, .begin 1, .start 1, .handlerReturns 1 [], .commit 1 .committed]

/-- The second worker dies before its ack, the first one resumes and schedules the
retry it owed; the redelivery runs the handler again. -/
def lateRetry : List Op :=
  [.crash 1, .retry 0, .nak 0, .tick 2, .deliver 0, .begin 2, .start 2, .handlerReturns 2 [],
    .commit 2 .committed]

/-- The business writes are committed twice. -/
theorem run_commits_twice :
    ¬ ∀ (d : Deployment) (ops : List Op) (k : EventKey),
      (trace (step d) System.init ops).Pairwise (KeepsClosed k) ∧
        (trace (step d) System.init ops).countP (commits k) ≤ 1 := by
  intro h
  have honce := (h defaultDeployment (stalledWorker ++ lateRetry) ("evt-1", "policy")).2
  have htwice : (trace (step defaultDeployment) System.init (stalledWorker ++ lateRetry)).countP
      (commits ("evt-1", "policy")) = 2 := by decide
  rw [htwice] at honce
  exact absurd honce (by decide)

/-- The stalled worker alone, which never writes, does no harm. -/
theorem run_exactly_once_stalled :
    (trace (step defaultDeployment) System.init stalledWorker).Pairwise
        (KeepsClosed ("evt-1", "policy")) ∧
      (trace (step defaultDeployment) System.init stalledWorker).countP
        (commits ("evt-1", "policy")) ≤ 1 := by
  refine run_exactly_once defaultDeployment stalledWorker _ fun e he => ?_
  have hall : (trace (step defaultDeployment) System.init stalledWorker).all
      (fun e => Fenced e.pre e.action) = true := by decide
  exact List.all_eq_true.mp hall e he

end Opsia.Event
