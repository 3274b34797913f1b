import Opsia.PortForward.Agent

/-!
# The life of a session

What opening and closing is about: which connections are in the table, which are open, what each
task waits for, and what was emitted. The invariant says that an open connection is in the table or
is being closed by a task that will close it, that a session which is being finished finishes every
connection of its table, and that at most four connections are open. Each kind of step keeps it.
-/

namespace Opsia.PortForward

/-- What the life of a connection is about. -/
structure ConnectionPhase where
  connectionId : ConnectionId
  listed : Bool
  done : Bool
  closed : Bool
  deriving DecidableEq

/-- What the life of a session is about. -/
structure Lifecycle where
  connections : List ConnectionPhase
  stack : TaskId → List Pending
  done : Bool
  registered : Bool
  emitted : List Emission

namespace Lifecycle

/-! ## What tasks wait for -/

/-- The event is `PortForwardEnd`. -/
def IsEnd (emission : Emission) : Prop :=
  ∃ reason desktopToTarget targetToDesktop,
    emission = .ended reason desktopToTarget targetToDesktop

/-- `_finish_session` is under way. -/
def IsFinish (pending : Pending) : Prop :=
  (∃ connectionIds reason, pending = .finishRest connectionIds reason) ∨
    ∃ reason, pending = .endSession reason

/-- `_finish_connection` is under way. -/
def IsClosing (pending : Pending) : Prop :=
  (∃ connection reason, pending = .readerStopped connection reason) ∨
    ∃ connection reason, pending = .writerClosed connection reason

/-- A wait after which a task says nothing when no connection is in the table. -/
def IsMute (pending : Pending) : Prop :=
  (∃ connection, pending = .halfClosed connection) ∨
    ∃ connectionId, pending = .finishConnection connectionId

variable {pending : Pending} {task : TaskId} {rest : List Pending}

theorem IsMute.not_finish (h : IsMute pending) : ¬IsFinish pending := by
  rintro (⟨_, _, rfl⟩ | ⟨_, rfl⟩) <;> rcases h with ⟨_, hf⟩ | ⟨_, hf⟩ <;> cases hf

theorem IsMute.not_readerStopped (h : IsMute pending) :
    ∀ k reason, pending ≠ .readerStopped k reason := by
  rintro k reason rfl
  rcases h with ⟨_, hf⟩ | ⟨_, hf⟩ <;> cases hf

theorem IsMute.not_connected (h : IsMute pending) :
    ∀ connectionId deadline, pending ≠ .connected connectionId deadline := by
  rintro connectionId deadline rfl
  rcases h with ⟨_, hf⟩ | ⟨_, hf⟩ <;> cases hf

/-- The waits of each task; finishing the session is apart. -/
def belongs : TaskId → Pending → Bool
  | .receiver, .connected _ _ | .receiver, .announceWindow _ | .receiver, .drained _ _ _
  | .receiver, .halfClosed _ | .receiver, .finishConnection _ | .receiver, .readerStopped _ _
  | .receiver, .writerClosed _ _ => true
  | .watcher, .watch => true
  | .reader _, .reserve | .reader _, .read _ | .reader _, .targetEnded
  | .reader _, .finishConnection _ | .reader _, .writerClosed _ _ => true
  | _, _ => false

/-- What the stack of a task can look like. -/
inductive Shape : TaskId → List Pending → Prop where
  | idle (task : TaskId) : Shape task []
  | waiting (task : TaskId) (pending : Pending) (h : belongs task pending = true) :
      Shape task [pending]
  /-- the session is finished, connection by connection -/
  | finishing (task : TaskId) (connectionIds : List ConnectionId) (reason : PortForwardEndReason)
      (htask : task = .receiver ∨ task = .watcher) : Shape task [.finishRest connectionIds reason]
  | closing (task : TaskId) (top : Pending) (connectionIds : List ConnectionId)
      (reason : PortForwardEndReason) (htask : task = .receiver ∨ task = .watcher)
      (hclosing : IsClosing top) : Shape task [top, .finishRest connectionIds reason]
  | ending (task : TaskId) (reason : PortForwardEndReason)
      (htask : task = .receiver ∨ task = .watcher) : Shape task [.endSession reason]

/-- How many connections are open. -/
def openCount (l : Lifecycle) : ℕ := l.connections.countP fun c => !c.closed

/-- The invariant of a session whose finish is not disturbed. -/
structure Inv (l : Lifecycle) : Prop where
  shape : ∀ task, Shape task (l.stack task)
  listed_open : ∀ (k : ℕ) (c : ConnectionPhase), l.connections[k]? = some c → c.listed = true →
    c.done = false ∧ c.closed = false
  unique : ∀ (j k : ℕ) (c d : ConnectionPhase), l.connections[j]? = some c →
    l.connections[k]? = some d → c.listed = true → d.listed = true →
      c.connectionId = d.connectionId → j = k
  stopped : ∀ (k : ℕ) (c : ConnectionPhase), l.connections[k]? = some c → c.listed = false →
    c.closed = false → ∃ task reason, .readerStopped k reason ∈ l.stack task
  stopping : ∀ task k reason, .readerStopped k reason ∈ l.stack task →
    ∃ c, l.connections[k]? = some c ∧ c.listed = false
  reader : ∀ (k : ℕ) (pending : Pending), pending ∈ l.stack (.reader k) →
    ¬IsClosing pending → ∃ c, l.connections[k]? = some c ∧ c.listed = true ∧
      ∀ connectionId, pending = .finishConnection connectionId → connectionId = c.connectionId
  connecting : ∀ connectionId deadline, .connected connectionId deadline ∈ l.stack .receiver →
    l.done = false → l.openCount + 1 ≤ maxPortForwardConnectionsPerSession ∧
      ∀ (k : ℕ) (c : ConnectionPhase), l.connections[k]? = some c → c.listed = true →
        c.connectionId ≠ connectionId
  cap : l.openCount ≤ maxPortForwardConnectionsPerSession
  finisher : ∀ task pending, pending ∈ l.stack task → IsFinish pending → l.done = true
  one_finisher : ∀ task other pending pending', pending ∈ l.stack task → IsFinish pending →
    pending' ∈ l.stack other → IsFinish pending' → task = other
  covered : l.done = true → l.registered = true →
    (∀ (k : ℕ) (c : ConnectionPhase), l.connections[k]? = some c → c.listed = false) ∨
      ∃ task connectionIds reason, .finishRest connectionIds reason ∈ l.stack task ∧
        ∀ (k : ℕ) (c : ConnectionPhase), l.connections[k]? = some c → c.listed = true →
          c.connectionId ∈ connectionIds
  ended : l.registered = false → (∀ task, ∀ pending ∈ l.stack task, IsMute pending) ∧
    ∀ (k : ℕ) (c : ConnectionPhase), l.connections[k]? = some c → c.closed = true
  log : (l.registered = true → ∀ emission ∈ l.emitted, ¬IsEnd emission) ∧
    (l.registered = false → ∃ before last, l.emitted = before ++ [last] ∧ IsEnd last ∧
      ∀ emission ∈ before, ¬IsEnd emission)

variable {l l' : Lifecycle}

/-! ## A session begins -/

theorem inv_opened (emitted : List Emission) (h : ∀ emission ∈ emitted, ¬IsEnd emission) :
    Inv ⟨[], fun task => if task = .watcher then [.watch] else [], false, true, emitted⟩ where
  shape task := by
    dsimp only
    split
    · rename_i htask
      exact htask ▸ .waiting _ _ rfl
    · exact .idle task
  listed_open k c hc := by simp at hc
  unique j k c d hc := by simp at hc
  stopped k c hc := by simp at hc
  stopping task k reason hp := by
    dsimp only at hp
    split at hp <;> simp at hp
  reader k pending hp := by simp at hp
  connecting connectionId deadline hp := by simp at hp
  cap := by simp [openCount]
  finisher task pending hp hfinish := by
    dsimp only at hp
    split at hp
    · obtain rfl := List.mem_singleton.mp hp
      rcases hfinish with ⟨_, _, hf⟩ | ⟨_, hf⟩ <;> cases hf
    · cases hp
  one_finisher task other pending pending' hp hfinish := by
    dsimp only at hp
    split at hp
    · obtain rfl := List.mem_singleton.mp hp
      rcases hfinish with ⟨_, _, hf⟩ | ⟨_, hf⟩ <;> cases hf
    · cases hp
  covered hdone := by cases hdone
  ended hregistered := by cases hregistered
  log := ⟨fun _ => h, fun hregistered => by cases hregistered⟩

/-- Events other than the end are added. -/
def Logs (l l' : Lifecycle) : Prop :=
  ∃ events, l'.emitted = l.emitted ++ events ∧ ∀ emission ∈ events, ¬IsEnd emission

theorem Inv.log_of_logs (h : l.Inv) (hregistered : l.registered = true)
    (hregistered' : l'.registered = true) (hlog : Logs l l') :
    (l'.registered = true → ∀ emission ∈ l'.emitted, ¬IsEnd emission) ∧
      (l'.registered = false → ∃ before last, l'.emitted = before ++ [last] ∧ IsEnd last ∧
        ∀ emission ∈ before, ¬IsEnd emission) := by
  obtain ⟨events, hevents, hquiet⟩ := hlog
  refine ⟨fun _ emission hmem => ?_, fun hover => ?_⟩
  · rw [hevents] at hmem
    rcases List.mem_append.mp hmem with hold | hnew
    · exact h.log.1 hregistered emission hold
    · exact hquiet emission hnew
  · rw [hregistered'] at hover
    cases hover

/-! ## A task goes on -/

theorem Inv.shape_of_others (h : l.Inv) (hself : Shape task (l'.stack task))
    (hothers : ∀ other, other ≠ task → l'.stack other = l.stack other) (other : TaskId) :
    Shape other (l'.stack other) := by
  by_cases hother : other = task
  · exact hother ▸ hself
  · rw [hothers other hother]
    exact h.shape other

/-- **What one task does keeps the invariant** when it opens and closes nothing, finishes only what
it was finishing, and closes what it was closing. -/
theorem Inv.work (h : l.Inv) (task : TaskId) (hregistered : l.registered = true)
    (hconnections : l'.connections = l.connections) (hdone : l'.done = l.done)
    (hregistered' : l'.registered = true)
    (hlog : Logs l l')
    (hothers : ∀ other, other ≠ task → l'.stack other = l.stack other)
    (hshape : Shape task (l'.stack task))
    (hstopped : ∀ k reason, .readerStopped k reason ∈ l'.stack task ↔
      .readerStopped k reason ∈ l.stack task)
    (hreader : ∀ k, task = .reader k → ∀ pending ∈ l'.stack task, ¬IsClosing pending →
      ∃ c, l.connections[k]? = some c ∧ c.listed = true ∧
        ∀ connectionId, pending = .finishConnection connectionId → connectionId = c.connectionId)
    (hconnecting : task = .receiver → ∀ connectionId deadline,
      .connected connectionId deadline ∈ l'.stack task → l.done = false →
        l.openCount + 1 ≤ maxPortForwardConnectionsPerSession ∧
          ∀ (k : ℕ) (c : ConnectionPhase), l.connections[k]? = some c → c.listed = true →
            c.connectionId ≠ connectionId)
    (hfinisher : ∀ pending ∈ l'.stack task, IsFinish pending →
      ∃ before ∈ l.stack task, IsFinish before)
    (hcovered : ∀ connectionIds reason, .finishRest connectionIds reason ∈ l.stack task →
      (∀ (k : ℕ) (c : ConnectionPhase), l.connections[k]? = some c → c.listed = false) ∨
        ∃ rest reason', .finishRest rest reason' ∈ l'.stack task ∧
          ∀ (k : ℕ) (c : ConnectionPhase), l.connections[k]? = some c → c.listed = true →
            c.connectionId ∈ connectionIds → c.connectionId ∈ rest) : l'.Inv := by
  have hcases : ∀ other pending, pending ∈ l'.stack other →
      (other = task ∧ pending ∈ l'.stack task) ∨ (other ≠ task ∧ pending ∈ l.stack other) := by
    intro other pending hp
    by_cases hother : other = task
    · exact .inl ⟨hother, hother ▸ hp⟩
    · exact .inr ⟨hother, hothers other hother ▸ hp⟩
  have hopen : l'.openCount = l.openCount := by rw [openCount, openCount, hconnections]
  have hbefore : ∀ other pending, pending ∈ l'.stack other → IsFinish pending →
      ∃ before ∈ l.stack other, IsFinish before := by
    intro other pending hp hfinish
    rcases hcases other pending hp with ⟨rfl, hp⟩ | ⟨-, hp⟩
    · exact hfinisher pending hp hfinish
    · exact ⟨pending, hp, hfinish⟩
  constructor
  case shape => exact h.shape_of_others hshape hothers
  case listed_open => rw [hconnections]; exact h.listed_open
  case unique => rw [hconnections]; exact h.unique
  case stopped =>
    rw [hconnections]
    intro k c hc hlisted hclosed
    obtain ⟨other, reason, hp⟩ := h.stopped k c hc hlisted hclosed
    by_cases hother : other = task
    · exact ⟨task, reason, (hstopped k reason).mpr (hother ▸ hp)⟩
    · exact ⟨other, reason, by rwa [hothers other hother]⟩
  case stopping =>
    rw [hconnections]
    intro other k reason hp
    rcases hcases _ _ hp with ⟨-, hp⟩ | ⟨-, hp⟩
    · exact h.stopping task k reason ((hstopped k reason).mp hp)
    · exact h.stopping other k reason hp
  case reader =>
    rw [hconnections]
    intro k pending hp hclosing
    rcases hcases _ pending hp with ⟨htask, hp⟩ | ⟨-, hp⟩
    · exact hreader k htask.symm pending hp hclosing
    · exact h.reader k pending hp hclosing
  case connecting =>
    rw [hconnections, hdone, hopen]
    intro connectionId deadline hp
    rcases hcases _ _ hp with ⟨htask, hp⟩ | ⟨-, hp⟩
    · exact hconnecting htask.symm connectionId deadline hp
    · exact h.connecting connectionId deadline hp
  case cap => rw [hopen]; exact h.cap
  case finisher =>
    intro other pending hp hfinish
    obtain ⟨before, hmem, hf⟩ := hbefore other pending hp hfinish
    rw [hdone]
    exact h.finisher other before hmem hf
  case one_finisher =>
    intro task₁ task₂ pending pending' hp hf hp' hf'
    obtain ⟨before, hmem, hbf⟩ := hbefore task₁ pending hp hf
    obtain ⟨before', hmem', hbf'⟩ := hbefore task₂ pending' hp' hf'
    exact h.one_finisher _ _ before before' hmem hbf hmem' hbf'
  case covered =>
    rw [hconnections, hdone]
    intro hfinished _
    rcases h.covered hfinished hregistered with hnone | ⟨other, connectionIds, reason, hp, hall⟩
    · exact .inl hnone
    · by_cases hother : other = task
      · subst hother
        rcases hcovered connectionIds reason hp with hnone | ⟨rest, reason', hrest, hkeeps⟩
        · exact .inl hnone
        · exact .inr ⟨other, rest, reason', hrest,
            fun k c hc hlisted => hkeeps k c hc hlisted (hall k c hc hlisted)⟩
      · exact .inr ⟨other, connectionIds, reason, by rwa [hothers other hother], hall⟩
  case ended => intro hover; rw [hregistered'] at hover; cases hover
  case log => exact h.log_of_logs hregistered hregistered' hlog

/-- **A task goes on with one wait after another**, and what lies below stays. -/
theorem Inv.exchange (h : l.Inv) (task : TaskId) (hregistered : l.registered = true)
    (hconnections : l'.connections = l.connections) (hdone : l'.done = l.done)
    (hregistered' : l'.registered = true)
    (hlog : Logs l l')
    (hothers : ∀ other, other ≠ task → l'.stack other = l.stack other)
    (olds news rest : List Pending) (hold : l.stack task = olds ++ rest)
    (hnew : l'.stack task = news ++ rest)
    (holds : ∀ pending ∈ olds, ¬IsFinish pending ∧ ∀ k reason, pending ≠ .readerStopped k reason)
    (hnews : ∀ pending ∈ news, ¬IsFinish pending ∧ ∀ k reason, pending ≠ .readerStopped k reason)
    (hshape : Shape task (news ++ rest))
    (hreader : ∀ k, task = .reader k → ∀ pending ∈ news, ¬IsClosing pending →
      ∃ c, l.connections[k]? = some c ∧ c.listed = true ∧
        ∀ connectionId, pending = .finishConnection connectionId → connectionId = c.connectionId)
    (hconnecting : task = .receiver → ∀ connectionId deadline,
      .connected connectionId deadline ∈ news → l.done = false →
        l.openCount + 1 ≤ maxPortForwardConnectionsPerSession ∧
          ∀ (k : ℕ) (c : ConnectionPhase), l.connections[k]? = some c → c.listed = true →
            c.connectionId ≠ connectionId) : l'.Inv := by
  have hrest : ∀ pending ∈ rest, pending ∈ l.stack task := by
    intro pending hp
    rw [hold]
    exact List.mem_append_right _ hp
  refine h.work task hregistered hconnections hdone hregistered' hlog hothers (hnew ▸ hshape)
    ?_ ?_ ?_ ?_ ?_
  · intro k reason
    rw [hnew, hold, List.mem_append, List.mem_append]
    constructor
    · rintro (hp | hp)
      · exact absurd rfl ((hnews _ hp).2 k reason)
      · exact .inr hp
    · rintro (hp | hp)
      · exact absurd rfl ((holds _ hp).2 k reason)
      · exact .inr hp
  · intro k htask pending hp hclosing
    rw [hnew] at hp
    rcases List.mem_append.mp hp with hp | hp
    · exact hreader k htask pending hp hclosing
    · exact h.reader k pending (htask ▸ hrest pending hp) hclosing
  · intro htask connectionId deadline hp
    rw [hnew] at hp
    rcases List.mem_append.mp hp with hp | hp
    · exact hconnecting htask connectionId deadline hp
    · exact h.connecting connectionId deadline (htask ▸ hrest _ hp)
  · intro pending hp hfinish
    rw [hnew] at hp
    rcases List.mem_append.mp hp with hp | hp
    · exact absurd hfinish (hnews pending hp).1
    · exact ⟨pending, hrest pending hp, hfinish⟩
  · intro connectionIds reason hp
    rw [hold] at hp
    rcases List.mem_append.mp hp with hp | hp
    · exact absurd (.inl ⟨connectionIds, reason, rfl⟩) (holds _ hp).1
    · exact .inr ⟨connectionIds, reason, by rw [hnew]; exact List.mem_append_right _ hp,
        fun _ _ _ _ hmem => hmem⟩

/-! ## A connection is closed -/

theorem Shape.of_reader {k : ℕ} {stack : List Pending} (h : Shape (.reader k) stack)
    (hp : pending ∈ stack) :
    ¬IsFinish pending ∧ ∀ j reason, pending ≠ .readerStopped j reason := by
  cases h with
  | idle => cases hp
  | waiting pending hbelongs =>
    obtain rfl := List.mem_singleton.mp hp
    constructor
    · rintro (⟨_, _, rfl⟩ | ⟨_, rfl⟩) <;> cases hbelongs
    · rintro j reason rfl
      cases hbelongs
  | finishing _ _ htask => rcases htask with hf | hf <;> cases hf
  | closing _ _ _ htask => rcases htask with hf | hf <;> cases hf
  | ending _ htask => rcases htask with hf | hf <;> cases hf

/-- **What closing one connection does keeps the invariant**: the connection is out of the table,
its reader is at most closing it, and while it is open a task waits for its reader to stop. -/
theorem Inv.closing (h : l.Inv) (hregistered : l.registered = true) {k : ℕ}
    {c : ConnectionPhase} (hk : l'.connections[k]? = some c) (hlisted : c.listed = false)
    (hconnections : ∀ j, j ≠ k → l'.connections[j]? = l.connections[j]?)
    (hopen : l'.openCount ≤ l.openCount) (hdone : l'.done = l.done)
    (hregistered' : l'.registered = true) (hlog : Logs l l')
    (hshape : ∀ task, Shape task (l'.stack task))
    (hold : ∀ task pending, pending ∈ l'.stack task →
      IsClosing pending ∨ IsFinish pending ∨ pending ∈ l.stack task)
    (hfinisher : ∀ task pending, pending ∈ l'.stack task → IsFinish pending →
      ∃ before ∈ l.stack task, IsFinish before)
    (hstopped : c.closed = false → ∃ task reason, .readerStopped k reason ∈ l'.stack task)
    (hkept : ∀ task j reason, j ≠ k → .readerStopped j reason ∈ l.stack task →
      .readerStopped j reason ∈ l'.stack task)
    (hstopping : ∀ task j reason, .readerStopped j reason ∈ l'.stack task →
      j = k ∨ .readerStopped j reason ∈ l.stack task)
    (hreader : ∀ pending ∈ l'.stack (.reader k), IsClosing pending)
    (hcovered : ∀ task connectionIds reason, .finishRest connectionIds reason ∈ l.stack task →
      ∃ later reason', .finishRest later reason' ∈ l'.stack task ∧
        ∀ (j : ℕ) (d : ConnectionPhase), l.connections[j]? = some d → d.listed = true → j ≠ k →
          d.connectionId ∈ connectionIds → d.connectionId ∈ later) : l'.Inv := by
  have hlost : ∀ {j : ℕ} {d : ConnectionPhase}, l'.connections[j]? = some d →
      d.listed = true → j ≠ k ∧ l.connections[j]? = some d := by
    intro j d hd hl
    by_cases hj : j = k
    · subst hj
      rw [hk] at hd
      rw [← Option.some.inj hd, hlisted] at hl
      cases hl
    · exact ⟨hj, hconnections j hj ▸ hd⟩
  constructor
  case shape => exact hshape
  case listed_open =>
    intro j d hd hl
    exact h.listed_open j d (hlost hd hl).2 hl
  case unique =>
    intro i j d e hd he hld hle hid
    exact h.unique i j d e (hlost hd hld).2 (hlost he hle).2 hld hle hid
  case stopped =>
    intro j d hd hl hopened
    by_cases hj : j = k
    · subst hj
      rw [hk] at hd
      exact hstopped (Option.some.inj hd ▸ hopened)
    · obtain ⟨task, reason, hp⟩ := h.stopped j d (hconnections j hj ▸ hd) hl hopened
      exact ⟨task, reason, hkept task j reason hj hp⟩
  case stopping =>
    intro task j reason hp
    by_cases hj : j = k
    · exact ⟨c, hj ▸ hk, hlisted⟩
    · rw [hconnections j hj]
      exact h.stopping task j reason ((hstopping task j reason hp).resolve_left hj)
  case reader =>
    intro j pending hp hnot
    have hj : j ≠ k := by
      rintro rfl
      exact hnot (hreader pending hp)
    rcases hold _ pending hp with hclosing | hfinish | hp
    · exact absurd hclosing hnot
    · exact absurd hfinish ((hshape _).of_reader hp).1
    · obtain ⟨d, hd, hl, hid⟩ := h.reader j pending hp hnot
      exact ⟨d, by rw [hconnections j hj, hd], hl, hid⟩
  case connecting =>
    intro connectionId deadline hp
    rcases hold _ _ hp with (⟨_, _, hf⟩ | ⟨_, _, hf⟩) | (⟨_, _, hf⟩ | ⟨_, hf⟩) | hp
    · cases hf
    · cases hf
    · cases hf
    · cases hf
    · intro hunfinished
      obtain ⟨hcount, hfresh⟩ := h.connecting connectionId deadline hp (hdone ▸ hunfinished)
      exact ⟨by omega, fun j d hd hl => hfresh j d (hlost hd hl).2 hl⟩
  case cap => exact le_trans hopen h.cap
  case finisher =>
    intro task pending hp hfinish
    obtain ⟨before, hmem, hf⟩ := hfinisher task pending hp hfinish
    rw [hdone]
    exact h.finisher task before hmem hf
  case one_finisher =>
    intro task₁ task₂ pending pending' hp hf hp' hf'
    obtain ⟨before, hmem, hbf⟩ := hfinisher task₁ pending hp hf
    obtain ⟨before', hmem', hbf'⟩ := hfinisher task₂ pending' hp' hf'
    exact h.one_finisher _ _ before before' hmem hbf hmem' hbf'
  case covered =>
    rw [hdone]
    intro hfinished _
    rcases h.covered hfinished hregistered with hnone | ⟨task, connectionIds, reason, hp, hall⟩
    · left
      intro j d hd
      by_contra hl
      have hl : d.listed = true := by simpa using hl
      rw [hnone j d (hlost hd hl).2] at hl
      cases hl
    · obtain ⟨later, reason', hlater, hkeeps⟩ := hcovered task connectionIds reason hp
      refine .inr ⟨task, later, reason', hlater, fun j d hd hl => ?_⟩
      obtain ⟨hj, hd⟩ := hlost hd hl
      exact hkeeps j d hd hl hj (hall j d hd hl)
  case ended => intro hover; rw [hregistered'] at hover; cases hover
  case log => exact h.log_of_logs hregistered hregistered' hlog

/-- **A task takes a connection out of the table or closes its writer**, and waits above what it
was finishing; the reader of the connection may have been cancelled. -/
theorem Inv.closingOn (h : l.Inv) (hregistered : l.registered = true) {k : ℕ} {c : ConnectionPhase}
    (hk : l'.connections[k]? = some c) (hlisted : c.listed = false)
    (hconnections : ∀ j, j ≠ k → l'.connections[j]? = l.connections[j]?)
    (hopen : l'.openCount ≤ l.openCount) (hdone : l'.done = l.done)
    (hregistered' : l'.registered = true) (hlog : Logs l l') {top : Pending}
    (hself : l'.stack task = top :: rest) (hshape : Shape task (top :: rest))
    (hclosing : IsClosing top) (hrest : ∀ pending ∈ rest, IsFinish pending)
    (hothers : ∀ other, other ≠ task → l'.stack other = l.stack other ∨
      (other = .reader k ∧ l'.stack other = []))
    (hreader : ∀ pending ∈ l'.stack (.reader k), IsClosing pending)
    (htop : ∀ j reason, top = .readerStopped j reason → j = k)
    (hopened : c.closed = false → ∃ reason, top = .readerStopped k reason)
    (hquiet : ∀ j reason, j ≠ k → .readerStopped j reason ∉ l.stack task)
    (hfinisher : ∀ pending ∈ rest, ∃ before ∈ l.stack task, IsFinish before)
    (hcovered : ∀ connectionIds reason, .finishRest connectionIds reason ∈ l.stack task →
      ∃ later reason', .finishRest later reason' ∈ rest ∧
        ∀ (j : ℕ) (d : ConnectionPhase), l.connections[j]? = some d → d.listed = true → j ≠ k →
          d.connectionId ∈ connectionIds → d.connectionId ∈ later) : l'.Inv := by
  have hcases : ∀ other pending, pending ∈ l'.stack other →
      (other = task ∧ (pending = top ∨ pending ∈ rest)) ∨
        (other ≠ task ∧ pending ∈ l.stack other) := by
    intro other pending hp
    by_cases hother : other = task
    · rw [hother, hself] at hp
      exact .inl ⟨hother, List.mem_cons.mp hp⟩
    · rcases hothers other hother with hsame | ⟨-, hempty⟩
      · exact .inr ⟨hother, hsame ▸ hp⟩
      · rw [hempty] at hp
        cases hp
  -- A reader that was cancelled neither finished the session nor waited for a reader.
  have hkept : ∀ other pending, other ≠ task → pending ∈ l.stack other →
      (IsFinish pending ∨ ∃ j reason, pending = .readerStopped j reason) →
        pending ∈ l'.stack other := by
    intro other pending hother hp hkind
    rcases hothers other hother with hsame | ⟨rfl, -⟩
    · rwa [hsame]
    · obtain ⟨hfinish, hstop⟩ := (h.shape _).of_reader hp
      rcases hkind with hf | ⟨j, reason, hf⟩
      · exact absurd hf hfinish
      · exact absurd hf (hstop j reason)
  refine h.closing hregistered hk hlisted hconnections hopen hdone hregistered' hlog ?_ ?_ ?_
    ?_ ?_ ?_ hreader ?_
  · intro other
    by_cases hother : other = task
    · rw [hother, hself]
      exact hshape
    · rcases hothers other hother with hsame | ⟨-, hempty⟩
      · rw [hsame]
        exact h.shape other
      · rw [hempty]
        exact .idle other
  · intro other pending hp
    rcases hcases other pending hp with ⟨-, rfl | hp⟩ | ⟨-, hp⟩
    · exact .inl hclosing
    · exact .inr (.inl (hrest pending hp))
    · exact .inr (.inr hp)
  · intro other pending hp hfinish
    rcases hcases other pending hp with ⟨rfl, rfl | hp⟩ | ⟨-, hp⟩
    · rcases hclosing with ⟨_, _, rfl⟩ | ⟨_, _, rfl⟩ <;>
        rcases hfinish with ⟨_, _, hf⟩ | ⟨_, hf⟩ <;> cases hf
    · exact hfinisher pending hp
    · exact ⟨pending, hp, hfinish⟩
  · intro hc
    obtain ⟨reason, rfl⟩ := hopened hc
    exact ⟨task, reason, by rw [hself]; exact List.mem_cons_self⟩
  · intro other j reason hj hp
    by_cases hother : other = task
    · exact absurd (hother ▸ hp) (hquiet j reason hj)
    · exact hkept other _ hother hp (.inr ⟨j, reason, rfl⟩)
  · intro other j reason hp
    rcases hcases other _ hp with ⟨-, hp | hp⟩ | ⟨-, hp⟩
    · exact .inl (htop j reason hp.symm)
    · rcases hrest _ hp with ⟨_, _, hf⟩ | ⟨_, hf⟩ <;> cases hf
    · exact .inr hp
  · intro other ids reason hp
    by_cases hother : other = task
    · obtain ⟨later, reason', hlater, hkeeps⟩ := hcovered ids reason (hother ▸ hp)
      refine ⟨later, reason', ?_, hkeeps⟩
      rw [hother, hself]
      exact List.mem_cons_of_mem _ hlater
    · exact ⟨ids, reason, hkept other _ hother hp (.inl (.inl ⟨ids, reason, rfl⟩)),
        fun _ _ _ _ _ hmem => hmem⟩

theorem Shape.finisher {stack : List Pending} (h : Shape task stack) (hp : pending ∈ stack)
    (hfinish : IsFinish pending) :
    task = .receiver ∨ task = .watcher := by
  cases h with
  | idle => cases hp
  | waiting _ hbelongs =>
    obtain rfl := List.mem_singleton.mp hp
    rcases hfinish with ⟨_, _, rfl⟩ | ⟨_, rfl⟩ <;> cases task <;> cases hbelongs
  | finishing _ _ htask => exact htask
  | closing _ _ _ htask => exact htask
  | ending _ htask => exact htask

/-- What lies below a wait. -/
theorem Shape.tail (h : Shape task (pending :: rest)) : Shape task rest := by
  cases h with
  | closing _ ids reason htask => exact .finishing task ids reason htask
  | _ => exact .idle task

theorem Shape.below (h : Shape task (pending :: rest)) :
    rest = [] ∨ ∃ connectionIds reason, rest = [.finishRest connectionIds reason] := by
  cases h with
  | closing _ ids reason => exact .inr ⟨ids, reason, rfl⟩
  | _ => exact .inl rfl

/-- Only closing a connection waits above something else. -/
theorem Shape.alone (h : Shape task (pending :: rest)) (hclosing : ¬IsClosing pending) :
    rest = [] := by
  cases h with
  | closing _ _ _ _ hall => exact absurd hall hclosing
  | _ => rfl

/-! ## A connection is opened -/

/-- **A connection is added while the session is not finished.** -/
theorem Inv.adding (h : l.Inv) (hregistered : l.registered = true) {connectionId : ConnectionId}
    {deadline : ℚ} (hstack : l.stack .receiver = [.connected connectionId deadline])
    (hunfinished : l.done = false)
    (hconnections : l'.connections = l.connections ++ [⟨connectionId, true, false, false⟩])
    (hdone : l'.done = l.done) (hregistered' : l'.registered = true)
    (hlog : Logs l l')
    (hreceiver : l'.stack .receiver = [.announceWindow connectionId])
    (hnew : l'.stack (.reader l.connections.length) = [.reserve])
    (hothers : ∀ task, task ≠ .receiver → task ≠ .reader l.connections.length →
      l'.stack task = l.stack task) : l'.Inv := by
  obtain ⟨hcount, hfresh⟩ :=
    h.connecting connectionId deadline (by rw [hstack]; exact List.mem_singleton_self _)
      hunfinished
  have hopen : l'.openCount = l.openCount + 1 := by
    rw [openCount, openCount, hconnections, List.countP_append]
    rfl
  have hcases : ∀ task pending, pending ∈ l'.stack task →
      (task = .receiver ∧ pending = .announceWindow connectionId) ∨
        (task = .reader l.connections.length ∧ pending = .reserve) ∨
          (task ≠ .receiver ∧ task ≠ .reader l.connections.length ∧ pending ∈ l.stack task) := by
    intro task pending hp
    by_cases hr : task = .receiver
    · rw [hr, hreceiver] at hp
      exact .inl ⟨hr, List.mem_singleton.mp hp⟩
    · by_cases hn : task = .reader l.connections.length
      · rw [hn, hnew] at hp
        exact .inr (.inl ⟨hn, List.mem_singleton.mp hp⟩)
      · exact .inr (.inr ⟨hr, hn, hothers task hr hn ▸ hp⟩)
  have hentry : ∀ {k : ℕ} {c : ConnectionPhase}, l'.connections[k]? = some c →
      (k = l.connections.length ∧ c = ⟨connectionId, true, false, false⟩) ∨
        (k ≠ l.connections.length ∧ l.connections[k]? = some c) := by
    intro k c hc
    rw [hconnections] at hc
    rcases Nat.lt_trichotomy k l.connections.length with hlt | rfl | hgt
    · rw [List.getElem?_append_left hlt] at hc
      exact .inr ⟨Nat.ne_of_lt hlt, hc⟩
    · rw [List.getElem?_concat_length] at hc
      exact .inl ⟨rfl, (Option.some.inj hc).symm⟩
    · rw [List.getElem?_eq_none (by simp; omega)] at hc
      cases hc
  have hlater : ∀ {k : ℕ} {c : ConnectionPhase}, l.connections[k]? = some c →
      l'.connections[k]? = some c := by
    intro k c hc
    rw [hconnections, List.getElem?_append_left (List.getElem?_eq_some_iff.mp hc).1, hc]
  have hunfinishing : ∀ task pending, pending ∈ l'.stack task → ¬IsFinish pending := by
    intro task pending hp hfinish
    rcases hcases task pending hp with ⟨-, rfl⟩ | ⟨-, rfl⟩ | ⟨-, -, hp⟩
    · rcases hfinish with ⟨_, _, hf⟩ | ⟨_, hf⟩ <;> cases hf
    · rcases hfinish with ⟨_, _, hf⟩ | ⟨_, hf⟩ <;> cases hf
    · have hf := h.finisher task pending hp hfinish
      rw [hunfinished] at hf
      cases hf
  constructor
  case shape =>
    intro task
    by_cases hr : task = .receiver
    · rw [hr, hreceiver]
      exact .waiting _ _ rfl
    · by_cases hn : task = .reader l.connections.length
      · rw [hn, hnew]
        exact .waiting _ _ rfl
      · rw [hothers task hr hn]
        exact h.shape task
  case listed_open =>
    intro k c hc hl
    rcases hentry hc with ⟨-, rfl⟩ | ⟨-, hc⟩
    · exact ⟨rfl, rfl⟩
    · exact h.listed_open k c hc hl
  case unique =>
    intro j k c d hc hd hlc hld hid
    rcases hentry hc with ⟨rfl, rfl⟩ | ⟨-, hc⟩ <;> rcases hentry hd with ⟨rfl, rfl⟩ | ⟨-, hd⟩
    · rfl
    · exact absurd hid.symm (hfresh k d hd hld)
    · exact absurd hid (hfresh j c hc hlc)
    · exact h.unique j k c d hc hd hlc hld hid
  case stopped =>
    intro k c hc hl hopened
    rcases hentry hc with ⟨-, rfl⟩ | ⟨-, hc⟩
    · cases hl
    · obtain ⟨task, reason, hp⟩ := h.stopped k c hc hl hopened
      refine ⟨task, reason, ?_⟩
      have hr : task ≠ .receiver := by
        rintro rfl
        rw [hstack] at hp
        cases List.mem_singleton.mp hp
      have hn : task ≠ .reader l.connections.length := by
        rintro rfl
        exact ((h.shape _).of_reader hp).2 k reason rfl
      rwa [hothers task hr hn]
  case stopping =>
    intro task k reason hp
    rcases hcases task _ hp with ⟨-, hf⟩ | ⟨-, hf⟩ | ⟨-, -, hp⟩
    · cases hf
    · cases hf
    · obtain ⟨c, hc, hl⟩ := h.stopping task k reason hp
      exact ⟨c, hlater hc, hl⟩
  case reader =>
    intro k pending hp hnot
    rcases hcases _ pending hp with ⟨hf, -⟩ | ⟨hk, rfl⟩ | ⟨-, -, hp⟩
    · cases hf
    · obtain rfl : k = l.connections.length := by injection hk
      refine ⟨⟨connectionId, true, false, false⟩, ?_, rfl, fun _ hf => by cases hf⟩
      rw [hconnections, List.getElem?_concat_length]
    · obtain ⟨c, hc, hl, hid⟩ := h.reader k pending hp hnot
      exact ⟨c, hlater hc, hl, hid⟩
  case connecting =>
    intro other time hp
    rcases hcases _ _ hp with ⟨-, hf⟩ | ⟨-, hf⟩ | ⟨hf, -⟩
    · cases hf
    · cases hf
    · exact absurd rfl hf
  case cap => omega
  case finisher => exact fun task pending hp hf => absurd hf (hunfinishing task pending hp)
  case one_finisher =>
    exact fun task other pending pending' hp hf => absurd hf (hunfinishing task pending hp)
  case covered =>
    intro hf
    rw [hdone, hunfinished] at hf
    cases hf
  case ended => intro hover; rw [hregistered'] at hover; cases hover
  case log => exact h.log_of_logs hregistered hregistered' hlog

/-! ## The session is finished -/

/-- **A task begins to finish the session.** -/
theorem Inv.finishing (h : l.Inv) (hregistered : l.registered = true)
    (htask : task = .receiver ∨ task = .watcher) (hunfinished : l.done = false)
    (hquiet : ∀ k reason, .readerStopped k reason ∉ l.stack task)
    (hconnections : l'.connections = l.connections) (hdone : l'.done = true)
    (hregistered' : l'.registered = true) (hlog : Logs l l') {connectionIds : List ConnectionId}
    {reason : PortForwardEndReason}
    (hids : ∀ (k : ℕ) (c : ConnectionPhase), l.connections[k]? = some c → c.listed = true →
      c.connectionId ∈ connectionIds) (hself : l'.stack task = [.finishRest connectionIds reason])
    (hothers : ∀ other, other ≠ task → l'.stack other = l.stack other) : l'.Inv := by
  have hcases : ∀ other pending, pending ∈ l'.stack other →
      (other = task ∧ pending = .finishRest connectionIds reason) ∨
        (other ≠ task ∧ pending ∈ l.stack other) := by
    intro other pending hp
    by_cases hother : other = task
    · rw [hother, hself] at hp
      exact .inl ⟨hother, List.mem_singleton.mp hp⟩
    · exact .inr ⟨hother, hothers other hother ▸ hp⟩
  have honly : ∀ other pending, pending ∈ l'.stack other → IsFinish pending → other = task := by
    intro other pending hp hfinish
    rcases hcases other pending hp with ⟨hother, -⟩ | ⟨-, hp⟩
    · exact hother
    · have hf := h.finisher other pending hp hfinish
      rw [hunfinished] at hf
      cases hf
  have hopen : l'.openCount = l.openCount := by rw [openCount, openCount, hconnections]
  constructor
  case shape =>
    refine h.shape_of_others ?_ hothers
    rw [hself]
    exact .finishing task connectionIds reason htask
  case listed_open => rw [hconnections]; exact h.listed_open
  case unique => rw [hconnections]; exact h.unique
  case stopped =>
    rw [hconnections]
    intro k c hc hl hopened
    obtain ⟨other, reason', hp⟩ := h.stopped k c hc hl hopened
    have hother : other ≠ task := by
      rintro rfl
      exact hquiet k reason' hp
    exact ⟨other, reason', by rwa [hothers other hother]⟩
  case stopping =>
    rw [hconnections]
    intro other k reason' hp
    rcases hcases other _ hp with ⟨-, hf⟩ | ⟨-, hp⟩
    · cases hf
    · exact h.stopping other k reason' hp
  case reader =>
    rw [hconnections]
    intro k pending hp hnot
    rcases hcases _ pending hp with ⟨hf, -⟩ | ⟨-, hp⟩
    · rcases htask with rfl | rfl <;> cases hf
    · exact h.reader k pending hp hnot
  case connecting =>
    intro _ _ _ hf
    rw [hdone] at hf
    cases hf
  case cap => rw [hopen]; exact h.cap
  case finisher => exact fun _ _ _ _ => hdone
  case one_finisher =>
    intro task₁ task₂ pending pending' hp hf hp' hf'
    rw [honly task₁ pending hp hf, honly task₂ pending' hp' hf']
  case covered =>
    rw [hconnections]
    exact fun _ _ => .inr ⟨task, connectionIds, reason, by rw [hself]; simp, hids⟩
  case ended => intro hover; rw [hregistered'] at hover; cases hover
  case log => exact h.log_of_logs hregistered hregistered' hlog

/-- **A session that has ended** stays as it is while its tasks stop. -/
theorem Inv.over (h : l.Inv) (hconnections : l'.connections = l.connections)
    (hregistered' : l'.registered = false) (hself : l'.stack task = [])
    (hothers : ∀ other, other ≠ task → l'.stack other = l.stack other)
    (hmute : ∀ other, other ≠ task → ∀ pending ∈ l.stack other, IsMute pending)
    (hclosed : ∀ (k : ℕ) (c : ConnectionPhase), l.connections[k]? = some c → c.closed = true)
    (hlog : ∃ before last, l'.emitted = before ++ [last] ∧ IsEnd last ∧
      ∀ emission ∈ before, ¬IsEnd emission) : l'.Inv := by
  have hleft : ∀ other pending, pending ∈ l'.stack other →
      pending ∈ l.stack other ∧ IsMute pending := by
    intro other pending hp
    by_cases hother : other = task
    · rw [hother, hself] at hp
      cases hp
    · rw [hothers other hother] at hp
      exact ⟨hp, hmute other hother pending hp⟩
  have hunfinishing : ∀ other pending, pending ∈ l'.stack other → ¬IsFinish pending := by
    intro other pending hp hfinish
    exact absurd hfinish (hleft other pending hp).2.not_finish
  have hopen : l'.openCount = l.openCount := by rw [openCount, openCount, hconnections]
  constructor
  case shape =>
    refine h.shape_of_others ?_ hothers
    rw [hself]
    exact .idle task
  case listed_open => rw [hconnections]; exact h.listed_open
  case unique => rw [hconnections]; exact h.unique
  case stopped =>
    rw [hconnections]
    intro k c hc _ hopened
    rw [hclosed k c hc] at hopened
    cases hopened
  case stopping =>
    rw [hconnections]
    exact fun other k reason hp => h.stopping other k reason (hleft other _ hp).1
  case reader =>
    rw [hconnections]
    exact fun k pending hp => h.reader k pending (hleft _ pending hp).1
  case connecting =>
    intro connectionId deadline hp
    exact absurd rfl ((hleft _ _ hp).2.not_connected connectionId deadline)
  case cap => rw [hopen]; exact h.cap
  case finisher => exact fun other pending hp hf => absurd hf (hunfinishing other pending hp)
  case one_finisher =>
    exact fun other _ pending _ hp hf => absurd hf (hunfinishing other pending hp)
  case covered => intro _ hf; rw [hregistered'] at hf; cases hf
  case ended =>
    rw [hconnections]
    exact fun _ => ⟨fun other pending hp => (hleft other pending hp).2, hclosed⟩
  case log => exact ⟨fun hf => absurd (hregistered'.symm.trans hf) nofun, fun _ => hlog⟩

/-- **The end of a session is announced** when no other task has anything to say. -/
theorem Inv.ending (h : l.Inv) (hregistered : l.registered = true) {reason : PortForwardEndReason}
    (hstack : l.stack task = [.endSession reason])
    (hmute : ∀ other, other ≠ task → ∀ pending ∈ l.stack other, IsMute pending)
    (hconnections : l'.connections = l.connections) (hregistered' : l'.registered = false)
    {last : Emission} (hemitted : l'.emitted = l.emitted ++ [last]) (hlast : IsEnd last)
    (hself : l'.stack task = []) (hothers : ∀ other, other ≠ task →
      l'.stack other = l.stack other) : l'.Inv := by
  have honly : ∀ other pending, pending ∈ l.stack other →
      pending = .endSession reason ∨ IsMute pending := by
    intro other pending hp
    by_cases hother : other = task
    · rw [hother, hstack] at hp
      exact .inl (List.mem_singleton.mp hp)
    · exact .inr (hmute other hother pending hp)
  have hfinished : l.done = true := by
    refine h.finisher task (.endSession reason) ?_ (.inr ⟨reason, rfl⟩)
    rw [hstack]
    exact List.mem_singleton_self _
  refine h.over hconnections hregistered' hself hothers hmute (fun k c hc => ?_)
    ⟨l.emitted, last, hemitted, hlast, h.log.1 hregistered⟩
  by_contra hopened
  have hopened : c.closed = false := by simpa using hopened
  have hunlisted : c.listed = false := by
    rcases h.covered hfinished hregistered with hnone | ⟨other, ids, reason', hp, -⟩
    · exact hnone k c hc
    · rcases honly other _ hp with hf | hf
      · cases hf
      · exact absurd (.inl ⟨ids, reason', rfl⟩) hf.not_finish
  obtain ⟨other, reason', hp⟩ := h.stopped k c hc hunlisted hopened
  rcases honly other _ hp with hf | hf
  · cases hf
  · exact hf.not_readerStopped k reason' rfl

theorem Inv.forgetting (h : l.Inv) (hregistered : l.registered = false)
    (hconnections : l'.connections = l.connections) (hregistered' : l'.registered = false)
    (hemitted : l'.emitted = l.emitted) (hself : l'.stack task = [])
    (hothers : ∀ other, other ≠ task → l'.stack other = l.stack other) : l'.Inv := by
  obtain ⟨hmute, hclosed⟩ := h.ended hregistered
  exact h.over hconnections hregistered' hself hothers (fun other _ => hmute other) hclosed
    (hemitted ▸ h.log.2 hregistered)

end Lifecycle

end Opsia.PortForward
