import Opsia.PortForward.Lifecycle

/-!
# The end of a session

`_open_connection` checks the session, waits for the connector and then inserts; `_finish_session`
takes its list of connections and waits between them. A session that is finished while a connect is
in flight, or that is connected to while it is being finished, keeps a connection after its end, and
what another task still has to say is said after it. In a run in which neither happens the end is
the end.
-/

namespace Opsia.PortForward

open Lifecycle

/-- What the life of a connection is about. -/
def AgentTcpConnection.phase (c : AgentTcpConnection) : ConnectionPhase where
  connectionId := c.connectionId
  listed := c.listed
  done := c.done
  closed := c.closed

namespace AgentPortForwardSession

/-- What the life of the session is about. -/
def life (s : AgentPortForwardSession) : Lifecycle where
  connections := s.connections.map AgentTcpConnection.phase
  stack := s.stack
  done := s.done
  registered := s.registered
  emitted := s.emitted

/-! ## The condition -/

/-- The end of a session is not disturbed by the step: no connector returns once the session is
being finished, and when the end is announced no other task has anything left to say. -/
structure Undisturbed (s : AgentPortForwardSession) (a : Action) : Prop where
  connect : ∀ connectionId deadline, a = .resume .receiver →
    s.stack .receiver = [.connected connectionId deadline] → s.now ≤ deadline → s.done = false
  announce : ∀ task reason, a = .resume task → s.stack task = [.endSession reason] →
    ∀ other, other ≠ task → ∀ pending ∈ s.stack other, IsMute pending

/-! ## Steps and the life of a session -/

variable {pending : Pending} {connectionId : ConnectionId} {c : AgentTcpConnection}
  {f : AgentTcpConnection → AgentTcpConnection} {news : List Pending}
  {reason : PortForwardEndReason}

theorem phase_modify {connections : List AgentTcpConnection} {k : ℕ}
    (hf : ∀ c, (f c).phase = c.phase) :
    (connections.modify k f).map AgentTcpConnection.phase =
      connections.map AgentTcpConnection.phase := by
  induction connections generalizing k with
  | nil => simp
  | cons c connections ih =>
    cases k with
    | zero => simp [hf]
    | succ k => simp [ih]

/-- What does not touch the table, the writer or `done` of a connection does not show. -/
theorem connections_life_change (s : AgentPortForwardSession) (k : ℕ)
    (hf : ∀ c, (f c).phase = c.phase) :
    (s.change k f).life = s.life := by
  simp only [life, change, phase_modify hf]

theorem getElem?_life {s : AgentPortForwardSession} {k : ℕ} {c : ConnectionPhase} :
    s.life.connections[k]? = some c ↔ ∃ d, s.connections[k]? = some d ∧ d.phase = c := by
  simp only [life, List.getElem?_map, Option.map_eq_some_iff]

theorem find?_eq_some {s : AgentPortForwardSession} {k : ℕ} (h : s.find? connectionId = some k) :
    ∃ c, s.connections[k]? = some c ∧ c.listed = true ∧
      c.connectionId = connectionId := by
  obtain ⟨hlt, hp, -⟩ := List.findIdx?_eq_some_iff_getElem.mp h
  rw [Bool.and_eq_true, beq_iff_eq] at hp
  exact ⟨s.connections[k], List.getElem?_eq_getElem hlt, hp.1, hp.2⟩

theorem find?_eq_none {s : AgentPortForwardSession} (h : s.find? connectionId = none) {k : ℕ}
    (hc : s.connections[k]? = some c) (hlisted : c.listed = true) :
    c.connectionId ≠ connectionId := by
  have hall := List.findIdx?_eq_none_iff.mp h c (List.mem_of_getElem? hc)
  rintro rfl
  simp [hlisted] at hall

theorem openCount_change_le (s : AgentPortForwardSession) (k : ℕ)
    (hf : ∀ c, (f c).closed = false → c.closed = false) :
    (s.change k f).life.openCount ≤ s.life.openCount := by
  simp only [openCount, life, change, List.countP_map]
  generalize s.connections = connections
  induction connections generalizing k with
  | nil => simp
  | cons c connections ih =>
    cases k with
    | zero =>
      simp only [List.modify_zero_cons, List.countP_cons, Function.comp_apply,
        AgentTcpConnection.phase]
      have hhead := hf c
      by_cases hclosed : (f c).closed = true
      · simp [hclosed]
      · have hopen := hhead (by simpa using hclosed)
        simp [hclosed, hopen]
    | succ k =>
      simp only [List.modify_succ_cons, List.countP_cons]
      exact Nat.add_le_add_right (ih k) _

theorem getElem?_change_self {s : AgentPortForwardSession} {k : ℕ} (hc : s.connections[k]? = some c)
    (f : AgentTcpConnection → AgentTcpConnection) :
    (s.change k f).connections[k]? = some (f c) := by
  rw [change, List.getElem?_modify, hc]
  simp

theorem getElem?_change_of_ne {s : AgentPortForwardSession} {k j : ℕ} (hj : j ≠ k)
    (f : AgentTcpConnection → AgentTcpConnection) :
    (s.change k f).connections[j]? = s.connections[j]? := by
  rw [change, List.getElem?_modify]
  simp [Ne.symm hj]

/-- A task goes on: it waits for something else, and events are emitted; nothing else shows. -/
structure GoesOn (s t : AgentPortForwardSession) (task : TaskId) (news rest : List Pending) :
    Prop where
  connections : t.life.connections = s.life.connections
  done : t.done = s.done
  registered : t.registered = s.registered
  log : Logs s.life t.life
  self : t.stack task = news ++ rest
  others : ∀ other, other ≠ task → t.stack other = s.stack other

variable {s t : AgentPortForwardSession} {task : TaskId} {rest : List Pending}

theorem GoesOn.refl (s : AgentPortForwardSession) (task : TaskId) :
    GoesOn s s task [] (s.stack task) :=
  ⟨rfl, rfl, rfl, ⟨[], by simp, by simp⟩, rfl, fun _ _ => rfl⟩

theorem GoesOn.takeUp (s : AgentPortForwardSession) (task : TaskId) (rest : List Pending) :
    GoesOn s (s.setStack task rest) task [] rest :=
  ⟨rfl, rfl, rfl, ⟨[], by simp [life, setStack], by simp⟩, by simp [setStack],
    fun other hother => by simp [setStack, hother]⟩

theorem GoesOn.emit (h : GoesOn s t task news rest) {emission : Emission}
    (hemission : ¬IsEnd emission) : GoesOn s (t.emit emission) task news rest := by
  obtain ⟨events, hevents, hquiet⟩ := h.log
  refine ⟨h.connections, h.done, h.registered, ⟨events ++ [emission], ?_, ?_⟩, h.self, h.others⟩
  · rw [← List.append_assoc, ← hevents]
    rfl
  · intro other hmem
    rcases List.mem_append.mp hmem with hold | hnew
    · exact hquiet other hold
    · exact List.mem_singleton.mp hnew ▸ hemission

theorem GoesOn.await (h : GoesOn s t task [] rest) (pending : Pending) :
    GoesOn s (t.await task pending) task [pending] rest := by
  refine ⟨h.connections, h.done, h.registered, h.log, ?_, fun other hother => ?_⟩
  · have hself := h.self
    simp only [AgentPortForwardSession.await, Function.update_self, hself]
    rfl
  · rw [← h.others other hother]
    simp [AgentPortForwardSession.await, hother]

theorem GoesOn.change (h : GoesOn s t task news rest) (k : ℕ) (hf : ∀ c, (f c).phase = c.phase) :
    GoesOn s (t.change k f) task news rest :=
  ⟨by rw [connections_life_change t k hf]; exact h.connections, h.done, h.registered, h.log, h.self,
    h.others⟩

theorem GoesOn.touch (h : GoesOn s t task news rest) :
    GoesOn s t.touch task news rest :=
  ⟨h.connections, h.done, h.registered, h.log, h.self, h.others⟩

theorem GoesOn.failConnection (h : GoesOn s t task [] rest) (connectionId : ConnectionId)
    (code : PortForwardErrorCode) : GoesOn s (t.failConnection task connectionId code) task
      [.finishConnection connectionId] rest := by
  refine (h.emit ?_).await _
  rintro ⟨_, _, _, hf⟩
  cases hf

/-- **Finishing a connection keeps the invariant.** -/
theorem inv_finishConnection (h : s.life.Inv) (hregistered : s.registered = true)
    (ht : GoesOn s t task [] rest) (reason : PortForwardEndReason) (hshape : Shape task rest)
    (hrest : rest = [] ∨ ∃ ids reason, rest = [.finishRest ids reason])
    (hquiet : ∀ k reason, .readerStopped k reason ∉ s.stack task)
    (hown : ∀ k, task = .reader k → ∃ c, s.life.connections[k]? = some c ∧ c.listed = true ∧
      c.connectionId = connectionId) (htask : rest = [] → task ≠ .watcher)
    (hfinisher : ∀ pending ∈ rest, ∃ before ∈ s.stack task, IsFinish before)
    (hcovered : ∀ ids reason, .finishRest ids reason ∈ s.stack task →
      ∃ later reason', .finishRest later reason' ∈ rest ∧
        ∀ id ∈ ids, id = connectionId ∨ id ∈ later) :
    (t.finishConnection task connectionId reason).life.Inv := by
  have hfinishes : ∀ pending ∈ rest, IsFinish pending := by
    rcases hrest with rfl | ⟨ids, reason, rfl⟩
    · simp
    · intro pending hp
      obtain rfl := List.mem_singleton.mp hp
      exact .inl ⟨ids, reason, rfl⟩
  cases hfind : t.find? connectionId with
  | none =>
    have hsame : t.finishConnection task connectionId reason = t := by
      simp only [finishConnection, hfind]
    rw [hsame]
    have hself : t.life.stack task = rest := ht.self
    have hclosed : ∀ k reason, .readerStopped k reason ∉ rest := by
      intro k reason hp
      rcases hfinishes _ hp with ⟨_, _, hf⟩ | ⟨_, hf⟩ <;> cases hf
    refine h.work task hregistered ht.connections ht.done (ht.registered.trans hregistered)
      ht.log ht.others (hself ▸ hshape) ?_ ?_ ?_ ?_ ?_ <;>
      rw [hself]
    · exact fun k reason => iff_of_false (hclosed k reason) (hquiet k reason)
    · rintro k rfl pending hp -
      exact absurd (hfinishes pending hp) (hshape.of_reader hp).1
    · rintro - id deadline hp
      rcases hfinishes _ hp with ⟨_, _, hf⟩ | ⟨_, hf⟩ <;> cases hf
    · exact fun pending hp _ => hfinisher pending hp
    · intro ids reason hp
      obtain ⟨later, reason', hlater, hkeeps⟩ := hcovered ids reason hp
      refine .inr ⟨later, reason', hlater, fun k c hc hl hmem => ?_⟩
      refine (hkeeps _ hmem).resolve_left ?_
      rw [← ht.connections] at hc
      obtain ⟨d, hd, rfl⟩ := getElem?_life.mp hc
      exact find?_eq_none hfind hd hl
  | some k =>
    obtain ⟨c, hc, hl, rfl⟩ := find?_eq_some hfind
    have hck : s.life.connections[k]? = some c.phase := by
      rw [← ht.connections]
      exact getElem?_life.mpr ⟨c, hc, rfl⟩
    have hdone : c.done = false := (h.listed_open k c.phase hck hl).1
    let finishing := (t.change k fun c => { c with listed := false }).change k
      fun c => { c with done := true }
    have hfinishing : finishing.connections[k]? = some { c with listed := false, done := true } :=
      getElem?_change_self (getElem?_change_self hc _) _
    have hothers : ∀ j, j ≠ k → finishing.life.connections[j]? = s.life.connections[j]? := by
      intro j hj
      rw [← ht.connections]
      simp only [life, List.getElem?_map, finishing, getElem?_change_of_ne hj]
    have hopen : finishing.life.openCount ≤ s.life.openCount := by
      refine le_trans (openCount_change_le _ k fun c hc => hc) ?_
      refine le_trans (openCount_change_le _ k fun c hc => hc) (le_of_eq ?_)
      rw [openCount, openCount, ht.connections]
    have hresult : t.finishConnection task c.connectionId reason =
        if task = .reader k then finishing.closeWriter task k reason
        else (finishing.setStack (.reader k) []).await task (.readerStopped k reason) := by
      simp only [finishConnection, hfind, hc, Option.map_some, hdone, Option.some.injEq,
        Bool.false_eq_true, if_false]
      rfl
    have hcoveredOn : ∀ ids reason, .finishRest ids reason ∈ s.life.stack task →
        ∃ later reason', .finishRest later reason' ∈ rest ∧
          ∀ (j : ℕ) (d : ConnectionPhase), s.life.connections[j]? = some d → d.listed = true →
            j ≠ k → d.connectionId ∈ ids → d.connectionId ∈ later := by
      intro ids reason hp
      obtain ⟨later, reason', hlater, hkeeps⟩ := hcovered ids reason hp
      refine ⟨later, reason', hlater, fun j d hd hld hj hmem => ?_⟩
      exact (hkeeps _ hmem).resolve_left fun hid => hj (h.unique j k d c.phase hd hck hld hl hid)
    rw [hresult]
    split
    · -- A reader closes its own connection.
      rename_i hreader
      subst hreader
      obtain rfl : rest = [] := by
        rcases hrest with hnil | ⟨ids, reason', rfl⟩
        · exact hnil
        · exact absurd (.inl ⟨ids, reason', rfl⟩) (hshape.of_reader List.mem_cons_self).1
      have hself : (finishing.closeWriter (.reader k) k reason).stack (.reader k) =
          [.writerClosed k reason] := by
        have hrest := ht.self
        simp [closeWriter, await, change, finishing, hrest]
      have hk : (finishing.change k fun c => { c with closed := true }).connections[k]? =
          some { c with listed := false, done := true, closed := true } :=
        getElem?_change_self hfinishing _
      refine h.closingOn hregistered (getElem?_life.mpr ⟨_, hk, rfl⟩) rfl ?_
        (le_trans (openCount_change_le finishing k fun c hc => by cases hc) hopen) ht.done
        (ht.registered.trans hregistered) ht.log hself ?_ (.inr ⟨k, reason, rfl⟩) (by simp) ?_
        ?_ ?_ ?_ (fun j reason _ => hquiet j reason) (by simp) hcoveredOn
      · intro j hj
        rw [← hothers j hj]
        simp only [life, List.getElem?_map, closeWriter, await, getElem?_change_of_ne hj]
      · exact .waiting _ _ rfl
      · intro other hother
        refine .inl (Eq.trans ?_ (ht.others other hother))
        simp [closeWriter, await, change, finishing, hother, life]
      · intro pending hp
        change pending ∈ (finishing.closeWriter (.reader k) k reason).stack (.reader k) at hp
        rw [hself] at hp
        exact .inr ⟨k, reason, List.mem_singleton.mp hp⟩
      · intro j reason' hf
        cases hf
      · intro hf
        cases hf
    · -- Another task waits for the cancelled reader.
      rename_i hreader
      have hself : ((finishing.setStack (.reader k) []).await task
          (.readerStopped k reason)).stack task = .readerStopped k reason :: rest := by
        have hrest := ht.self
        simp [await, setStack, change, finishing, hreader, hrest]
      have hempty : ((finishing.setStack (.reader k) []).await task
          (.readerStopped k reason)).stack (.reader k) = [] := by
        simp [await, setStack, Ne.symm hreader]
      refine h.closingOn hregistered (getElem?_life.mpr ⟨_, hfinishing, rfl⟩) rfl hothers hopen
        ht.done (ht.registered.trans hregistered) ht.log hself ?_ (.inl ⟨k, reason, rfl⟩)
        hfinishes ?_ ?_ ?_ (fun _ => ⟨reason, rfl⟩) (fun j reason _ => hquiet j reason)
        hfinisher hcoveredOn
      · rcases hrest with rfl | ⟨ids, reason', rfl⟩
        · cases task with
          | receiver => exact .waiting _ _ rfl
          | watcher => exact absurd rfl (htask rfl)
          | reader j =>
            obtain ⟨d, hd, hld, hid⟩ := hown j rfl
            exact absurd (h.unique j k d c.phase hd hck hld hl hid ▸ rfl) hreader
        · exact .closing task _ ids reason'
            (hshape.finisher List.mem_cons_self (.inl ⟨ids, reason', rfl⟩)) (.inl ⟨k, reason, rfl⟩)
      · intro other hother
        by_cases hk : other = .reader k
        · exact .inr ⟨hk, hk ▸ hempty⟩
        · refine .inl (Eq.trans ?_ (ht.others other hother))
          simp [await, setStack, change, finishing, hother, hk, life]
      · intro pending hp
        change pending ∈ ((finishing.setStack (.reader k) []).await task
          (.readerStopped k reason)).stack (.reader k) at hp
        rw [hempty] at hp
        cases hp
      · intro j reason' hf
        cases hf
        rfl

/-! ## Waits -/

/-- A wait in the middle of nothing that opens or closes. -/
def Plain (pending : Pending) : Prop :=
  ¬IsFinish pending ∧ ¬IsClosing pending ∧
    ∀ connectionId deadline, pending ≠ .connected connectionId deadline

theorem inv_drop (h : s.life.Inv) (hregistered : s.registered = true)
    (hstack : s.stack task = pending :: rest) (hfinish : ¬IsFinish pending)
    (hstop : ∀ k reason, pending ≠ .readerStopped k reason) (ht : GoesOn s t task [] rest) :
    t.life.Inv := by
  have hshape : Shape task (pending :: rest) := hstack ▸ h.shape task
  refine h.exchange task hregistered ht.connections ht.done (ht.registered.trans hregistered)
    ht.log ht.others [pending] [] rest hstack ht.self ?_ (by simp) hshape.tail (by simp)
    (by simp)
  intro other hp
  obtain rfl := List.mem_singleton.mp hp
  exact ⟨hfinish, hstop⟩

theorem inv_replace (h : s.life.Inv) (hregistered : s.registered = true) {next : Pending}
    (hstack : s.stack task = pending :: rest) (hpending : Plain pending) (hnext : Plain next)
    (hbelongs : belongs task next = true)
    (hid : ∀ k, task = .reader k → ∀ c, s.life.connections[k]? = some c →
      ∀ connectionId, next = .finishConnection connectionId → connectionId = c.connectionId)
    (ht : GoesOn s t task [next] rest) : t.life.Inv := by
  have hshape : Shape task (pending :: rest) := hstack ▸ h.shape task
  obtain rfl := hshape.alone hpending.2.1
  have hstops : ∀ {other : Pending}, Plain other → ∀ k reason, other ≠ .readerStopped k reason := by
    intro other hplain k reason hf
    exact hplain.2.1 (.inl ⟨k, reason, hf⟩)
  refine h.exchange task hregistered ht.connections ht.done (ht.registered.trans hregistered)
    ht.log ht.others [pending] [next] [] hstack ht.self ?_ ?_ ?_ ?_ ?_
  · intro other hp
    obtain rfl := List.mem_singleton.mp hp
    exact ⟨hpending.1, hstops hpending⟩
  · intro other hp
    obtain rfl := List.mem_singleton.mp hp
    exact ⟨hnext.1, hstops hnext⟩
  · exact .waiting task next hbelongs
  · rintro k rfl other hp -
    obtain rfl := List.mem_singleton.mp hp
    obtain ⟨c, hc, hl, -⟩ :=
      h.reader k pending (by rw [show s.life.stack _ = _ from hstack]; simp) hpending.2.1
    exact ⟨c, hc, hl, fun connectionId hf => hid k rfl c hc connectionId hf⟩
  · intro _ connectionId deadline hp
    exact absurd (List.mem_singleton.mp hp).symm (hnext.2.2 connectionId deadline)

theorem inv_message (h : s.life.Inv) (hregistered : s.registered = true)
    (hstack : s.stack .receiver = []) (hnews : news = [] ∨
      ∃ next, news = [next] ∧ belongs .receiver next = true ∧ ¬IsClosing next)
    (hconnecting : ∀ connectionId deadline, .connected connectionId deadline ∈ news →
      s.life.done = false → s.life.openCount + 1 ≤ maxPortForwardConnectionsPerSession ∧
        ∀ (k : ℕ) (c : ConnectionPhase), s.life.connections[k]? = some c → c.listed = true →
          c.connectionId ≠ connectionId) (ht : GoesOn s t .receiver news []) : t.life.Inv := by
  refine h.exchange .receiver hregistered ht.connections ht.done (ht.registered.trans hregistered)
    ht.log ht.others [] news [] hstack ht.self (by simp) ?_ ?_ ?_ (fun _ => hconnecting)
  · rcases hnews with rfl | ⟨next, rfl, hbelongs, hclosing⟩
    · simp
    · intro other hp
      obtain rfl := List.mem_singleton.mp hp
      refine ⟨?_, fun k reason hf => hclosing (.inl ⟨k, reason, hf⟩)⟩
      rintro (⟨_, _, rfl⟩ | ⟨_, rfl⟩) <;> cases hbelongs
  · rcases hnews with rfl | ⟨next, rfl, hbelongs, -⟩
    · exact .idle _
    · exact .waiting _ next hbelongs
  · intro k hf
    cases hf

theorem openCount_le_table (h : s.life.Inv) (hstack : s.stack .receiver = [])
    (hdone : s.done = false) : s.life.openCount ≤ s.table.length := by
  rw [openCount, table, ← List.countP_eq_length_filter]
  simp only [life, List.countP_map]
  refine List.countP_mono_left fun c hmem hopened => ?_
  by_contra hl
  obtain ⟨k, hk⟩ := List.getElem?_of_mem hmem
  obtain ⟨other, reason, hp⟩ := h.stopped k c.phase (getElem?_life.mpr ⟨c, hk, rfl⟩)
    (by simpa [AgentTcpConnection.phase] using hl) (by simpa using hopened)
  have hshape := h.shape other
  have hunfinished : ∀ pending ∈ s.life.stack other, ¬IsFinish pending := by
    intro pending hmem hfinish
    have hf := h.finisher other pending hmem hfinish
    rw [show s.life.done = s.done from rfl, hdone] at hf
    cases hf
  cases other with
  | receiver =>
    rw [show s.life.stack .receiver = s.stack .receiver from rfl, hstack] at hp
    cases hp
  | reader j => exact (hshape.of_reader hp).2 k reason rfl
  | watcher =>
    generalize s.life.stack .watcher = stack at hp hshape hunfinished
    cases hshape with
    | idle => cases hp
    | waiting _ hbelongs =>
      obtain rfl := List.mem_singleton.mp hp
      cases hbelongs
    | finishing ids reason' =>
      exact hunfinished (.finishRest ids reason') (by simp) (.inl ⟨ids, reason', rfl⟩)
    | closing _ ids reason' =>
      exact hunfinished (.finishRest ids reason') (by simp) (.inl ⟨ids, reason', rfl⟩)
    | ending reason' _ =>
      exact hunfinished (.endSession reason') (by simp) (.inr ⟨reason', rfl⟩)

/-! ## Messages -/

theorem idle_goesOn (hstack : s.stack .receiver = []) : GoesOn s s .receiver [] [] :=
  hstack ▸ GoesOn.refl s .receiver

/-- Nothing is waited for after the message. -/
theorem inv_handled (h : s.life.Inv) (hregistered : s.registered = true)
    (hstack : s.stack .receiver = []) (ht : GoesOn s t .receiver [] []) : t.life.Inv :=
  inv_message h hregistered hstack (.inl rfl) (by simp) ht

theorem inv_begin (h : s.life.Inv) (hregistered : s.registered = true)
    (hstack : s.stack .receiver = []) {next : Pending} (hbelongs : belongs .receiver next = true)
    (hnext : Plain next) (ht : GoesOn s t .receiver [next] []) : t.life.Inv := by
  refine inv_message h hregistered hstack (.inr ⟨next, rfl, hbelongs, hnext.2.1⟩) ?_ ht
  intro connectionId deadline hp
  exact absurd (List.mem_singleton.mp hp).symm (hnext.2.2 connectionId deadline)

theorem plain_finishConnection (connectionId : ConnectionId) :
    Plain (.finishConnection connectionId) := by
  simp [Plain, IsFinish, IsClosing]

theorem inv_finish_message (h : s.life.Inv) (hregistered : s.registered = true)
    (hstack : s.stack .receiver = []) (connectionId : ConnectionId)
    (reason : PortForwardEndReason) :
    (s.finishConnection .receiver connectionId reason).life.Inv := by
  refine inv_finishConnection h hregistered (idle_goesOn hstack) reason (.idle _) (.inl rfl) ?_ ?_
    (fun _ => by simp) (by simp) ?_
  · simp [hstack]
  · intro k hf
    cases hf
  · simp [hstack]

/-- **A task begins to finish the session.** -/
theorem inv_finishSession (h : s.life.Inv) (hregistered : s.registered = true)
    (htask : task = .receiver ∨ task = .watcher) (ht : GoesOn s t task [] [])
    (hdropped : t.life.Inv) (hquiet : ∀ k reason, .readerStopped k reason ∉ s.stack task)
    (reason : PortForwardEndReason) :
    (t.finishSession task reason).life.Inv := by
  unfold finishSession
  split
  · exact hdropped
  · rename_i hdone
    have hdone : s.done = false := by
      rw [← ht.done]
      simpa using hdone
    have hstack : ({ t with done := true }.await task (.finishRest
        (t.table.map AgentTcpConnection.connectionId) reason)).life.stack task =
          [.finishRest (t.table.map AgentTcpConnection.connectionId) reason] := by
      have hself := ht.self
      simp [life, AgentPortForwardSession.await, hself]
    have hids : ∀ (k : ℕ) (c : ConnectionPhase), s.life.connections[k]? = some c →
        c.listed = true → c.connectionId ∈ t.table.map AgentTcpConnection.connectionId := by
      intro k c hc hl
      rw [← ht.connections] at hc
      obtain ⟨d, hd, rfl⟩ := getElem?_life.mp hc
      exact List.mem_map_of_mem (List.mem_filter.mpr ⟨List.mem_of_getElem? hd, hl⟩)
    refine h.finishing hregistered htask hdone hquiet ht.connections rfl
      (ht.registered.trans hregistered) ht.log hids hstack ?_
    intro other hother
    refine Eq.trans ?_ (ht.others other hother)
    simp [life, AgentPortForwardSession.await, hother]

theorem not_isEnd_error (code : PortForwardErrorCode) (message : String) (retryable : Bool) :
    ¬IsEnd (.error code message retryable) := by
  rintro ⟨_, _, _, hf⟩
  cases hf

/-- **Handling a control message keeps the invariant.** -/
theorem inv_handleControl (h : s.life.Inv) (hregistered : s.registered = true)
    (hstack : s.stack .receiver = []) (message : AgentPortForwardRequest) :
    (s.handleControl message).life.Inv := by
  have hidle := idle_goesOn hstack
  cases message with
  | connectionOpen connectionId =>
    simp only [handleControl, openConnection]
    split_ifs with hfind hfull
    · exact h
    · exact inv_handled h hregistered hstack (hidle.emit (not_isEnd_error _ _ _))
    · refine inv_message h hregistered hstack (.inr ⟨_, rfl, ?_, ?_⟩) ?_ (hidle.await _)
      · rfl
      · simp [IsClosing]
      · intro other deadline hp hdone
        obtain ⟨rfl, -⟩ : other = connectionId ∧ _ := by simpa using hp
        have hcount := openCount_le_table h hstack hdone
        refine ⟨by omega, fun k c hc hl => ?_⟩
        obtain ⟨d, hd, rfl⟩ := getElem?_life.mp hc
        exact find?_eq_none (by simpa using hfind) hd hl
  | window connectionId direction creditBytes =>
    simp only [handleControl, grantOutputCredit]
    split
    · exact h
    · split
      · exact h
      · split_ifs
        · exact h
        · exact inv_begin h hregistered hstack rfl (plain_finishConnection _)
            (hidle.failConnection _ _)
        · exact inv_handled h hregistered hstack (hidle.change _ fun _ => rfl)
  | halfClose connectionId direction =>
    simp only [handleControl, halfClose]
    split
    · exact h
    · split
      · exact h
      · split_ifs
        · exact h
        · exact inv_begin h hregistered hstack rfl (plain_finishConnection _)
            (hidle.failConnection _ _)
        · refine inv_begin h hregistered hstack rfl ?_ (GoesOn.await (hidle.change _ ?_) _)
          · simp [Plain, IsFinish, IsClosing]
          · exact fun _ => rfl
  | connectionClose connectionId => exact inv_finish_message h hregistered hstack _ _
  | close =>
    exact inv_finishSession h hregistered (.inl rfl) hidle h (by simp [hstack]) _

theorem inv_handleData (h : s.life.Inv) (hregistered : s.registered = true)
    (hstack : s.stack .receiver = []) (frame : PortForwardDataFrame) :
    (s.handleData frame).life.Inv := by
  have hidle := idle_goesOn hstack
  simp only [handleData]
  split
  · exact h
  · split
    · exact h
    · split_ifs
      · exact h
      · exact inv_begin h hregistered hstack rfl (plain_finishConnection _)
          (hidle.failConnection _ _)
      · exact inv_begin h hregistered hstack rfl (plain_finishConnection _)
          (hidle.failConnection _ _)
      · exact inv_begin h hregistered hstack rfl (plain_finishConnection _)
          (hidle.failConnection _ _)
      · exact inv_finish_message h hregistered hstack _ _
      · refine inv_begin h hregistered hstack rfl ?_ (GoesOn.await (hidle.change _ ?_) _)
        · simp [Plain, IsFinish, IsClosing]
        · exact fun _ => rfl

/-! ## Tasks that go on -/

/-- **The writer is closed** once the reader has stopped. -/
theorem inv_closeWriter (h : s.life.Inv) (hregistered : s.registered = true) {k : ℕ}
    (hstack : s.stack task = .readerStopped k reason :: rest) (ht : GoesOn s t task [] rest) :
    (t.closeWriter task k reason).life.Inv := by
  have hlife : s.life.stack task = .readerStopped k reason :: rest := hstack
  have hmem : .readerStopped k reason ∈ s.life.stack task := by
    rw [hlife]
    exact List.mem_cons_self
  obtain ⟨c, hc, hl⟩ := h.stopping task k reason hmem
  rw [← ht.connections] at hc
  obtain ⟨d, hd, rfl⟩ := getElem?_life.mp hc
  have hk : (t.change k fun c => { c with closed := true }).connections[k]? =
      some { d with closed := true } := getElem?_change_self hd _
  have hshape : Shape task (.readerStopped k reason :: rest) := hlife ▸ h.shape task
  have hbelow := hshape.below
  have hself : (t.closeWriter task k reason).stack task = .writerClosed k reason :: rest := by
    have hself := ht.self
    simp only [List.nil_append] at hself
    simp [closeWriter, AgentPortForwardSession.await, AgentPortForwardSession.change, hself]
  have hstack' : ∀ other, other ≠ task →
      (t.closeWriter task k reason).stack other = s.stack other := by
    intro other hother
    refine Eq.trans ?_ (ht.others other hother)
    simp [closeWriter, AgentPortForwardSession.await, AgentPortForwardSession.change, hother]
  have hopen : (t.change k fun c => { c with closed := true }).life.openCount ≤
      s.life.openCount := by
    refine le_trans (openCount_change_le _ k fun c hc => by cases hc) (le_of_eq ?_)
    rw [openCount, openCount, ht.connections]
  have hfinishes : ∀ pending ∈ rest, IsFinish pending := by
    rcases hbelow with rfl | ⟨ids, reason', rfl⟩
    · simp
    · intro pending hp
      exact .inl ⟨ids, reason', List.mem_singleton.mp hp⟩
  refine h.closingOn hregistered (getElem?_life.mpr ⟨_, hk, rfl⟩) hl ?_ hopen ht.done
    (ht.registered.trans hregistered) ht.log hself ?_ (.inr ⟨k, reason, rfl⟩) hfinishes
    (fun other hother => .inl (hstack' other hother)) ?_ ?_ (fun hf => by cases hf) ?_ ?_ ?_
  · intro j hj
    rw [← ht.connections]
    simp only [life, List.getElem?_map, closeWriter, AgentPortForwardSession.await,
      getElem?_change_of_ne hj]
  · rcases hbelow with rfl | ⟨ids, reason', rfl⟩
    · cases hshape with
      | waiting _ hbelongs =>
        cases task <;> first | exact .waiting _ _ rfl | cases hbelongs
    · exact .closing task _ ids reason' (hshape.finisher (by simp) (.inl ⟨ids, reason', rfl⟩))
        (.inr ⟨k, reason, rfl⟩)
  · intro pending hp
    have htask : TaskId.reader k ≠ task := by
      rintro rfl
      exact ((h.shape _).of_reader hmem).2 k reason rfl
    change pending ∈ (t.closeWriter task k reason).stack (.reader k) at hp
    rw [hstack' _ htask] at hp
    by_contra hnot
    obtain ⟨e, he, hle, -⟩ := h.reader k pending hp hnot
    rw [← ht.connections, hc] at he
    rw [← Option.some.inj he, hl] at hle
    cases hle
  · intro j reason' hf
    cases hf
  · intro j reason' hj hp
    rw [hlife] at hp
    rcases List.mem_cons.mp hp with hf | hp
    · cases hf
      exact hj rfl
    · rcases hfinishes _ hp with ⟨_, _, hf⟩ | ⟨_, hf⟩ <;> cases hf
  · intro pending hp
    exact ⟨pending, by rw [hlife]; exact List.mem_cons_of_mem _ hp, hfinishes pending hp⟩
  · intro ids reason' hp
    rw [hlife] at hp
    rcases List.mem_cons.mp hp with hf | hp
    · cases hf
    · exact ⟨ids, reason', hp, fun _ _ _ _ _ hmem => hmem⟩

theorem mem_stack (hstack : s.stack task = pending :: rest) :
    pending ∈ s.life.stack task := by
  rw [show s.life.stack task = _ from hstack]
  exact List.mem_cons_self

theorem GoesOn.below (h : GoesOn s t task [pending] rest) :
    GoesOn s t task [] (pending :: rest) :=
  ⟨h.connections, h.done, h.registered, h.log, h.self, h.others⟩

theorem GoesOn.endConnection (h : GoesOn s t task [] rest) (c : AgentTcpConnection)
    (reason : PortForwardEndReason) : GoesOn s (t.endConnection c reason) task [] rest := by
  have hcounted : GoesOn s { t with
      desktopToTargetBytes := t.desktopToTargetBytes + c.desktopToTargetBytes
      targetToDesktopBytes := t.targetToDesktopBytes + c.targetToDesktopBytes } task [] rest :=
    ⟨h.connections, h.done, h.registered, h.log, h.self, h.others⟩
  refine hcounted.emit ?_
  rintro ⟨_, _, _, hf⟩
  cases hf

/-- **After a plain wait a connection is finished**, by a reader only its own. -/
theorem inv_finish_wait (h : s.life.Inv) (hregistered : s.registered = true)
    (hstack : s.stack task = pending :: rest) (hplain : Plain pending)
    (ht : GoesOn s t task [] rest) (reason : PortForwardEndReason) (htask : task ≠ .watcher)
    (hid : ∀ k, task = .reader k → ∀ c, s.life.connections[k]? = some c → c.listed = true →
      (∀ id, pending = .finishConnection id → id = c.connectionId) →
        c.connectionId = connectionId) :
    (t.finishConnection task connectionId reason).life.Inv := by
  have hmem := mem_stack hstack
  have hshape : Shape task (pending :: rest) := hstack ▸ h.shape task
  obtain rfl := hshape.alone hplain.2.1
  refine inv_finishConnection h hregistered ht reason (.idle task) (.inl rfl) ?_ ?_
    (fun _ => htask) (by simp) ?_
  · intro k reason' hp
    rw [hstack] at hp
    exact hplain.2.1 (.inl ⟨k, reason', (List.mem_singleton.mp hp).symm⟩)
  · rintro k rfl
    obtain ⟨c, hc, hl, hown⟩ := h.reader k pending hmem hplain.2.1
    exact ⟨c, hc, hl, hid k rfl c hc hl hown⟩
  · intro ids reason' hp
    rw [hstack] at hp
    exact absurd (.inl ⟨ids, reason', (List.mem_singleton.mp hp).symm⟩) hplain.1

theorem belongs_of_plain (h : s.life.Inv) (hstack : s.stack task = pending :: rest)
    (hfinish : ¬IsFinish pending) (hclosing : ¬IsClosing pending) :
    belongs task pending = true := by
  have hshape : Shape task (pending :: rest) := hstack ▸ h.shape task
  cases hshape with
  | waiting _ hbelongs => exact hbelongs
  | finishing ids reason => exact absurd (.inl ⟨ids, reason, rfl⟩) hfinish
  | closing _ _ _ _ hall => exact absurd hall hclosing
  | ending reason => exact absurd (.inr ⟨reason, rfl⟩) hfinish

theorem inv_addConnection (h : s.life.Inv) (hregistered : s.registered = true) {deadline : ℚ}
    (hstack : s.stack .receiver = [.connected connectionId deadline]) (hdone : s.done = false) :
    ((s.setStack .receiver []).addConnection connectionId).life.Inv := by
  obtain ⟨-, hfresh⟩ := h.connecting connectionId deadline (mem_stack hstack) hdone
  have hlength : s.life.connections.length = s.connections.length := List.length_map _
  refine h.adding hregistered hstack hdone ?_ rfl hregistered
    ⟨[.connectionOpened connectionId], rfl, ?_⟩ ?_ ?_ ?_
  · simp only [life, addConnection, await, emit, setStack, touch, insert, List.map_append,
      List.map_map]
    congr 1
    refine List.map_congr_left fun c hmem => ?_
    by_cases hid : c.connectionId = connectionId
    · -- A connection with this id was taken out of the table before.
      obtain ⟨k, hk⟩ := List.getElem?_of_mem hmem
      have hl : c.listed = false := by
        by_contra hl
        exact hfresh k c.phase (getElem?_life.mpr ⟨c, hk, rfl⟩)
          (by simpa [AgentTcpConnection.phase] using hl) hid
      simp [hid, AgentTcpConnection.phase, hl]
    · simp [hid]
  · simp [IsEnd]
  · simp [life, addConnection, await, emit, setStack, touch, insert]
  · rw [hlength]
    simp [life, addConnection, await, emit, setStack, touch, insert]
  · rw [hlength]
    intro task hr hn
    simp [life, addConnection, await, emit, setStack, touch, insert, hr, hn]

theorem inv_finishNext (h : s.life.Inv) (hregistered : s.registered = true)
    {connectionIds : List ConnectionId}
    (hstack : s.stack task = .finishRest (connectionId :: connectionIds) reason :: rest) :
    ((((s.setStack task rest).await task (.finishRest connectionIds reason)).finishConnection task
      connectionId reason)).life.Inv := by
  have hmem := mem_stack hstack
  have hfinish : IsFinish (.finishRest (connectionId :: connectionIds) reason) :=
    .inl ⟨_, _, rfl⟩
  have hshape : Shape task (.finishRest (connectionId :: connectionIds) reason :: rest) :=
    hstack ▸ h.shape task
  obtain rfl := hshape.alone (by simp [IsClosing])
  have htask := (h.shape task).finisher hmem hfinish
  refine inv_finishConnection h hregistered ((GoesOn.takeUp s task []).await _).below reason
    (.finishing task connectionIds reason htask) (.inr ⟨connectionIds, reason, rfl⟩) ?_ ?_
    (fun hf => by cases hf) ?_ ?_
  · simp [hstack]
  · rintro k rfl
    rcases htask with hf | hf <;> cases hf
  · exact fun _ _ => ⟨_, hmem, hfinish⟩
  · intro ids reason' hp
    rw [hstack] at hp
    obtain ⟨rfl, rfl⟩ : ids = connectionId :: connectionIds ∧ reason' = reason := by
      simpa using hp
    exact ⟨connectionIds, reason', List.mem_singleton_self _, fun id hid => List.mem_cons.mp hid⟩

theorem watcher_sleeps (h : s.life.Inv)
    (hfinish : ∀ pending ∈ s.stack .watcher, ¬IsFinish pending) :
    ∀ pending ∈ s.stack .watcher, pending = .watch := by
  have hshape : Shape .watcher (s.stack .watcher) := h.shape .watcher
  generalize s.stack .watcher = stack at hfinish hshape
  intro pending hp
  cases hshape with
  | idle => cases hp
  | waiting _ hbelongs =>
    obtain rfl := List.mem_singleton.mp hp
    cases pending <;> first | rfl | cases hbelongs
  | finishing ids reason =>
    exact absurd (.inl ⟨ids, reason, rfl⟩) (hfinish _ (List.mem_singleton_self _))
  | closing _ ids reason =>
    exact absurd (.inl ⟨ids, reason, rfl⟩) (hfinish (.finishRest ids reason) (by simp))
  | ending reason => exact absurd (.inr ⟨reason, rfl⟩) (hfinish _ (List.mem_singleton_self _))

/-- **The watcher is cancelled** while another task finishes the session. -/
theorem inv_cancelWatcher (h : s.life.Inv) (hregistered : s.registered = true)
    (hfinish : ∀ pending ∈ s.stack .watcher, ¬IsFinish pending) :
    (s.setStack .watcher []).life.Inv := by
  have hsleeps := watcher_sleeps h hfinish
  have ht := GoesOn.takeUp s .watcher []
  have hself : (s.setStack .watcher []).life.stack .watcher = [] := ht.self
  refine h.work .watcher hregistered ht.connections ht.done hregistered ht.log ht.others
    (hself ▸ .idle _) ?_ (by simp) (by simp) ?_ ?_ <;>
    rw [hself]
  · exact fun k reason => iff_of_false (by simp) fun hp => by cases hsleeps _ hp
  · simp
  · intro ids reason hp
    cases hsleeps _ hp

theorem inv_stopWatcher (h : s.life.Inv) (hregistered : s.registered = true)
    (hstack : s.stack task = [.finishRest [] reason]) :
    ((s.setStack task []).stopWatcher task reason).life.Inv := by
  have hmem : .finishRest [] reason ∈ s.stack task := mem_stack hstack
  have hfinish : IsFinish (.finishRest [] reason) := .inl ⟨_, _, rfl⟩
  have htask := (h.shape task).finisher hmem hfinish
  -- Once the watcher is cancelled, the task goes on from the end of its list.
  have hgo : ∀ {u : AgentPortForwardSession}, u.life.Inv → u.registered = true →
      u.stack task = [.finishRest [] reason] →
      GoesOn u ((s.setStack task []).stopWatcher task reason) task [.endSession reason] [] →
        ((s.setStack task []).stopWatcher task reason).life.Inv := by
    intro u hu huregistered hustack ht
    have hself : ((s.setStack task []).stopWatcher task reason).life.stack task =
        [.endSession reason] := ht.self
    have hustack : u.life.stack task = [.finishRest [] reason] := hustack
    refine hu.work task huregistered ht.connections ht.done (ht.registered.trans huregistered)
      ht.log ht.others (hself ▸ .ending task reason htask) ?_ ?_ ?_ ?_ ?_ <;>
      rw [hself]
    · simp [hustack]
    · rintro k rfl
      rcases htask with hf | hf <;> cases hf
    · simp
    · exact fun _ _ _ => ⟨_, by rw [hustack]; exact List.mem_singleton_self _, hfinish⟩
    · intro ids reason' hp
      rw [hustack] at hp
      obtain ⟨rfl, rfl⟩ : ids = [] ∧ reason' = reason := by simpa using hp
      rcases hu.covered (hu.finisher task _ (by rw [hustack]; simp) hfinish) huregistered with
        hnone | ⟨other, ids, reason'', hother, hall⟩
      · exact .inl hnone
      · obtain rfl := hu.one_finisher other task _ _ hother (.inl ⟨_, _, rfl⟩)
          (by rw [hustack]; simp) hfinish
        rw [hustack] at hother
        obtain ⟨rfl, -⟩ : ids = [] ∧ _ := by simpa using hother
        left
        intro k c hc
        by_contra hl
        exact absurd (hall k c hc (by simpa using hl)) (by simp)
  by_cases hwatcher : task = .watcher
  · refine hgo h hregistered hstack ?_
    simp only [stopWatcher, if_pos hwatcher]
    exact (GoesOn.takeUp s task []).await _
  · have hsleeps : ∀ pending ∈ s.stack .watcher, ¬IsFinish pending := by
      intro pending hp hf
      exact hwatcher (h.one_finisher task .watcher _ pending hmem hfinish hp hf)
    refine hgo (inv_cancelWatcher h hregistered hsleeps) hregistered ?_ ?_
    · simp [setStack, hwatcher, hstack]
    · have ht : GoesOn (s.setStack .watcher []) ((s.setStack task []).setStack .watcher []) task
          [] [] := by
        refine ⟨rfl, rfl, rfl, ⟨[], by simp [life, setStack], by simp⟩, ?_, ?_⟩
        · simp [setStack, hwatcher]
        · intro other hother
          by_cases hw : other = .watcher
          · simp [setStack, hw]
          · simp [setStack, hother, hw]
      simp only [stopWatcher, if_neg hwatcher]
      exact ht.await _

/-- **A task that goes on keeps the invariant.** -/
theorem inv_proceed (h : s.life.Inv) (hregistered : s.registered = true)
    (hstack : s.stack task = pending :: rest) (hfree : Undisturbed s (.resume task))
    (hnext : (s.setStack task rest).proceed task pending = some t) : t.life.Inv := by
  have hshape : Shape task (pending :: rest) := hstack ▸ h.shape task
  have ht := GoesOn.takeUp s task rest
  cases pending with
  | connected connectionId deadline =>
    have hbelongs := belongs_of_plain h hstack (by simp [IsFinish]) (by simp [IsClosing])
    obtain rfl : task = .receiver := by cases task <;> first | rfl | cases hbelongs
    obtain rfl := hshape.alone (by simp [IsClosing])
    simp only [proceed] at hnext
    split_ifs at hnext with htime
    obtain rfl := Option.some.inj hnext
    have hdone := hfree.connect connectionId deadline rfl hstack htime
    exact inv_addConnection h hregistered hstack hdone
  | announceWindow connectionId =>
    obtain rfl := Option.some.inj hnext
    exact inv_drop h hregistered hstack (by simp [IsFinish]) (by simp) (ht.emit (by simp [IsEnd]))
  | drained connection length nextTotal =>
    obtain ⟨c, hc, rfl⟩ := Option.map_eq_some_iff.mp hnext
    refine inv_drop h hregistered hstack (by simp [IsFinish]) (by simp)
      (GoesOn.emit (GoesOn.touch (ht.change _ ?_)) (by simp [IsEnd]))
    exact fun _ => rfl
  | halfClosed connection =>
    have hbelongs := belongs_of_plain h hstack (by simp [IsFinish]) (by simp [IsClosing])
    obtain rfl : task = .receiver := by cases task <;> first | rfl | cases hbelongs
    obtain ⟨c, hc, rfl⟩ := Option.map_eq_some_iff.mp hnext
    split_ifs
    · exact inv_finish_wait h hregistered hstack (by simp [Plain, IsFinish, IsClosing]) ht _
        (by simp) (by simp)
    · exact inv_drop h hregistered hstack (by simp [IsFinish]) (by simp) ht
  | finishConnection connectionId =>
    obtain rfl := Option.some.inj hnext
    refine inv_finish_wait h hregistered hstack (plain_finishConnection _) ht _ ?_ ?_
    · rintro rfl
      cases belongs_of_plain h hstack (by simp [IsFinish]) (by simp [IsClosing])
    · exact fun _ _ c _ _ hown => (hown connectionId rfl).symm
  | readerStopped connection reason =>
    obtain rfl := Option.some.inj hnext
    exact inv_closeWriter h hregistered hstack ht
  | writerClosed connection reason =>
    obtain ⟨c, hc, rfl⟩ := Option.map_eq_some_iff.mp hnext
    exact inv_drop h hregistered hstack (by simp [IsFinish]) (by simp) (ht.endConnection c reason)
  | finishRest connectionIds reason =>
    cases connectionIds with
    | nil =>
      obtain rfl := Option.some.inj hnext
      obtain rfl := hshape.alone (by simp [IsClosing])
      exact inv_stopWatcher h hregistered hstack
    | cons connectionId connectionIds =>
      obtain rfl := Option.some.inj hnext
      exact inv_finishNext h hregistered hstack
  | endSession reason =>
    obtain rfl := Option.some.inj hnext
    obtain rfl := hshape.alone (by simp [IsClosing])
    exact h.ending hregistered hstack (hfree.announce task reason rfl hstack) rfl rfl rfl
      ⟨_, _, _, rfl⟩ ht.self ht.others
  | watch =>
    have hbelongs := belongs_of_plain h hstack (by simp [IsFinish]) (by simp [IsClosing])
    obtain rfl : task = .watcher := by cases task <;> first | rfl | cases hbelongs
    obtain rfl := hshape.alone (by simp [IsClosing])
    have hdropped := inv_drop h hregistered hstack (by simp [IsFinish]) (by simp) ht
    cases htimed : s.timedOut with
    | some reason =>
      have hnext : some (AgentPortForwardSession.finishSession (s.setStack .watcher []) .watcher
          reason) = some t := by
        rw [← hnext]
        simp only [proceed, show (s.setStack .watcher []).timedOut = _ from htimed]
      obtain rfl := Option.some.inj hnext
      exact inv_finishSession h hregistered (.inr rfl) ht hdropped (by simp [hstack]) reason
    | none =>
      have hnext : some (if (s.setStack .watcher []).done then s.setStack .watcher []
          else (s.setStack .watcher []).await .watcher .watch) = some t := by
        rw [← hnext]
        simp only [proceed, show (s.setStack .watcher []).timedOut = _ from htimed]
      obtain rfl := Option.some.inj hnext
      split_ifs
      · exact hdropped
      · have hplain : Plain .watch := by simp [Plain, IsFinish, IsClosing]
        exact inv_replace h hregistered hstack hplain hplain rfl (by simp) (ht.await _)
  | reserve =>
    cases task with
    | reader connection =>
      obtain ⟨c, hc, hreserved⟩ := Option.bind_eq_some_iff.mp hnext
      simp only [reserveOutputCredit] at hreserved
      split_ifs at hreserved
      · obtain rfl := Option.some.inj hreserved
        exact inv_drop h hregistered hstack (by simp [IsFinish]) (by simp) ht
      · obtain rfl := Option.some.inj hreserved
        refine inv_replace h hregistered hstack (by simp [Plain, IsFinish, IsClosing])
          (by simp [Plain, IsFinish, IsClosing]) rfl (by simp) (GoesOn.await (ht.change _ ?_) _)
        exact fun _ => rfl
    | receiver => cases hnext
    | watcher => cases hnext
  | read allowance => cases hnext
  | targetEnded =>
    cases task with
    | reader connection =>
      obtain ⟨c, hc, rfl⟩ := Option.map_eq_some_iff.mp hnext
      split_ifs
      · refine inv_finish_wait h hregistered hstack (by simp [Plain, IsFinish, IsClosing]) ht _
          (by simp) ?_
        rintro k ⟨⟩ d hd - -
        obtain ⟨e, he, rfl⟩ := getElem?_life.mp hd
        exact congrArg AgentTcpConnection.connectionId (Option.some.inj (he.symm.trans hc))
      · exact inv_drop h hregistered hstack (by simp [IsFinish]) (by simp) ht
    | receiver => cases hnext
    | watcher => cases hnext

/-- **A connection is failed** by its reader or by the receiver. -/
theorem inv_fail_wait (h : s.life.Inv) (hregistered : s.registered = true)
    (hstack : s.stack task = pending :: rest) (hplain : Plain pending)
    (htask : ∀ connectionId, belongs task (.finishConnection connectionId) = true)
    (ht : GoesOn s t task [] rest) (code : PortForwardErrorCode)
    (hid : ∀ k, task = .reader k → ∀ c, s.life.connections[k]? = some c →
      connectionId = c.connectionId) :
    (t.failConnection task connectionId code).life.Inv := by
  refine inv_replace h hregistered hstack hplain (plain_finishConnection connectionId)
    (htask connectionId) ?_ (ht.failConnection connectionId code)
  rintro k hk c hc other ⟨⟩
  exact hid k hk c hc

theorem reader_connection {k : ℕ} (hc : s.connections[k]? = some c) :
    ∀ j, TaskId.reader k = .reader j → ∀ d, s.life.connections[j]? = some d →
      c.connectionId = d.connectionId := by
  rintro j ⟨⟩ d hd
  obtain ⟨e, he, rfl⟩ := getElem?_life.mp hd
  exact congrArg AgentTcpConnection.connectionId (Option.some.inj (hc.symm.trans he))

theorem inv_proceedFailed (h : s.life.Inv) (hregistered : s.registered = true)
    (hstack : s.stack task = pending :: rest)
    (hnext : (s.setStack task rest).proceedFailed task pending = some t) : t.life.Inv := by
  have ht := GoesOn.takeUp s task rest
  cases pending with
  | connected connectionId deadline =>
    obtain rfl := Option.some.inj hnext
    exact inv_drop h hregistered hstack (by simp [IsFinish]) (by simp)
      (ht.emit (not_isEnd_error _ _ _))
  | drained connection length nextTotal =>
    obtain ⟨c, hc, rfl⟩ := Option.map_eq_some_iff.mp hnext
    have hbelongs := belongs_of_plain h hstack (by simp [IsFinish]) (by simp [IsClosing])
    obtain rfl : task = .receiver := by cases task <;> first | rfl | cases hbelongs
    exact inv_fail_wait h hregistered hstack (by simp [Plain, IsFinish, IsClosing])
      (fun _ => rfl) ht _ (by simp)
  | read allowance =>
    cases task with
    | reader connection =>
      obtain ⟨c, hc, rfl⟩ := Option.map_eq_some_iff.mp hnext
      exact inv_fail_wait h hregistered hstack (by simp [Plain, IsFinish, IsClosing])
        (fun _ => rfl) ht _ (reader_connection hc)
    | receiver => cases hnext
    | watcher => cases hnext
  | _ => cases hnext

/-- **Data of the target keeps the invariant.** -/
theorem inv_readTarget (h : s.life.Inv) (hregistered : s.registered = true)
    {connection allowance : ℕ} (hstack : s.stack (.reader connection) = .read allowance :: rest)
    (hc : s.connections[connection]? = some c) (data : Bytes) :
    ((s.setStack (.reader connection) rest).readTarget connection allowance c data).life.Inv := by
  have ht := GoesOn.takeUp s (.reader connection) rest
  have hplain : Plain (.read allowance) := by simp [Plain, IsFinish, IsClosing]
  have hrestored : ∀ amount, GoesOn s ((s.setStack (.reader connection) rest).restoreOutputCredit
      connection amount) (.reader connection) [] rest := by
    intro amount
    exact ht.change connection fun _ => rfl
  unfold readTarget
  split
  · refine inv_replace h hregistered hstack hplain (by simp [Plain, IsFinish, IsClosing]) rfl
      (by simp) (GoesOn.await (GoesOn.emit (GoesOn.change (hrestored allowance) _ ?_) ?_) _)
    · exact fun _ => rfl
    · simp [IsEnd]
  · have hforward : ∀ {u : AgentPortForwardSession}, GoesOn s u (.reader connection) [] rest →
        (u.forwardTarget connection c data).life.Inv := by
      intro u hu
      unfold forwardTarget
      split
      · split
        · exact inv_fail_wait h hregistered hstack hplain (fun _ => rfl) hu _
            (reader_connection hc)
        · have hcounted : GoesOn s (u.change connection fun c =>
              { c with
                outputSequence := c.outputSequence + 1
                targetToDesktopBytes := c.targetToDesktopBytes + data.length }).touch
              (.reader connection) [] rest := by
            refine GoesOn.touch (hu.change connection ?_)
            exact fun _ => rfl
          split
          · exact inv_fail_wait h hregistered hstack hplain (fun _ => rfl) hcounted _
              (reader_connection hc)
          · exact inv_replace h hregistered hstack hplain (by simp [Plain, IsFinish, IsClosing])
              rfl (by simp) ((hcounted.emit (by simp [IsEnd])).await _)
      · refine inv_finish_wait h hregistered hstack hplain hu _ (by simp) ?_
        exact fun j hj d hd _ _ => (reader_connection hc j hj d hd).symm
    split
    · exact hforward (hrestored _)
    · exact hforward ht

/-! ## Runs -/

/-- **After the end of the session nothing shows but a wait that is forgotten.** -/
theorem step_over (h : s.life.Inv) (hregistered : s.registered = false) (a : Action) :
    (s.step a).life.Inv ∧ (s.step a).registered = false ∧
      (s.step a).connections = s.connections ∧ (s.step a).emitted = s.emitted := by
  obtain ⟨hmute, hclosed⟩ := h.ended hregistered
  have hsame : s.life.Inv ∧ s.registered = false ∧ s.connections = s.connections ∧
      s.emitted = s.emitted := ⟨h, hregistered, rfl, rfl⟩
  -- No connection is in the table.
  have hnone : ∀ (t : AgentPortForwardSession) id, t.connections = s.connections →
      t.find? id = none := by
    intro t id hconnections
    cases hfind : t.find? id with
    | none => rfl
    | some k =>
      obtain ⟨c, hc, hl, -⟩ := find?_eq_some hfind
      have hck := getElem?_life.mpr ⟨c, hconnections ▸ hc, rfl⟩
      have hopened := (h.listed_open k c.phase hck hl).2
      rw [hclosed k c.phase hck] at hopened
      cases hopened
  have hforget : ∀ task, (s.setStack task []).life.Inv ∧ (s.setStack task []).registered = false ∧
      (s.setStack task []).connections = s.connections ∧
        (s.setStack task []).emitted = s.emitted := by
    intro task
    have ht := GoesOn.takeUp s task []
    exact ⟨h.forgetting hregistered rfl hregistered rfl ht.self ht.others, hregistered, rfl,
      rfl⟩
  cases a with
  | receive message => simpa [step, hregistered] using h
  | receiveData frame => simpa [step, hregistered] using h
  | resume task =>
    simp only [step, takeUp]
    split
    · exact hsame
    · rename_i pending rest hstack
      have hshape : Shape task (pending :: rest) := hstack ▸ h.shape task
      rcases hmute task pending (mem_stack hstack) with ⟨connection, rfl⟩ | ⟨connectionId, rfl⟩
      · obtain rfl := hshape.alone (by simp [IsClosing])
        cases hc : s.connections[connection]? with
        | none =>
          simp only [proceed, show (s.setStack task []).connections[connection]? = none from hc]
          exact hsame
        | some c =>
          simp only [proceed, show (s.setStack task []).connections[connection]? = some c from hc,
            finishConnection, hnone (s.setStack task []) _ rfl, Option.map_some, ite_self]
          exact hforget task
      · obtain rfl := hshape.alone (by simp [IsClosing])
        simp only [proceed, finishConnection, hnone (s.setStack task []) _ rfl]
        exact hforget task
  | fail task =>
    simp only [step, takeUp]
    split
    · exact hsame
    · rename_i pending rest hstack
      rcases hmute task pending (mem_stack hstack) with ⟨connection, rfl⟩ | ⟨connectionId, rfl⟩ <;>
        exact hsame
  | read connection data =>
    simp only [step, takeUp]
    split
    · exact hsame
    · rename_i pending rest hstack
      rcases hmute _ pending (mem_stack hstack) with ⟨connection, rfl⟩ | ⟨connectionId, rfl⟩ <;>
        exact hsame
  | elapse seconds => exact hsame

/-- **A step that does not disturb the end of the session keeps the invariant.** -/
theorem inv_step (h : s.life.Inv) (a : Action) (hfree : Undisturbed s a) :
    (s.step a).life.Inv := by
  cases hregistered : s.registered with
  | false => exact (step_over h hregistered a).1
  | true =>
    cases a with
    | receive message =>
      simp only [step, hregistered, true_and]
      split_ifs with hidle
      · exact inv_handleControl h hregistered hidle message
      · exact h
    | receiveData frame =>
      simp only [step, hregistered, true_and]
      split_ifs with hidle
      · exact inv_handleData h hregistered hidle.1 frame
      · exact h
    | resume task =>
      simp only [step, takeUp]
      split
      · exact h
      · rename_i pending rest hstack
        cases hnext : (s.setStack task rest).proceed task pending with
        | none => exact h
        | some t => exact inv_proceed h hregistered hstack hfree hnext
    | fail task =>
      simp only [step, takeUp]
      split
      · exact h
      · rename_i pending rest hstack
        cases hnext : (s.setStack task rest).proceedFailed task pending with
        | none => exact h
        | some t => exact inv_proceedFailed h hregistered hstack hnext
    | read connection data =>
      simp only [step, takeUp]
      split
      · exact h
      · rename_i pending rest hstack
        cases pending with
        | read allowance =>
          dsimp only
          split_ifs with hfits
          · cases hc : s.connections[connection]? with
            | none =>
              rw [show (s.setStack _ rest).connections[connection]? = none from hc]
              exact h
            | some c =>
              rw [show (s.setStack _ rest).connections[connection]? = some c from hc]
              exact inv_readTarget h hregistered hstack hc data
          · exact h
        | _ => exact h
    | elapse seconds => exact h

theorem inv_run (request : PortForwardOpen) (now : ℚ) {actions : List Action}
    (hfree : Runs.Meets step Undisturbed (opened request now) actions) :
    (Runs.run step (opened request now) actions).life.Inv := by
  refine Runs.run_invariant_of_meets (P := fun s => s.life.Inv) (fun s a h ha => inv_step h a ha)
    ?_ hfree
  exact inv_opened [.opened] (by simp [IsEnd])

/-- After its end a session opens and says nothing. -/
theorem run_over (h : s.life.Inv) (hregistered : s.registered = false) (later : List Action) :
    (Runs.run step s later).connections = s.connections ∧
      (Runs.run step s later).emitted = s.emitted := by
  refine (Runs.run_invariant (P := fun t : AgentPortForwardSession => t.life.Inv ∧
    t.registered = false ∧ t.connections = s.connections ∧ t.emitted = s.emitted) ?_
      ⟨h, hregistered, rfl, rfl⟩ later).2.2
  rintro t a ⟨ht, hover, hconnections, hemitted⟩
  obtain ⟨hinv, hover', hconnections', hemitted'⟩ := step_over ht hover a
  exact ⟨hinv, hover', hconnections'.trans hconnections, hemitted'.trans hemitted⟩

/-! ## The end is the end -/

/-- The connections whose writer was not closed. -/
def openConnections (s : AgentPortForwardSession) : List AgentTcpConnection :=
  s.connections.filter (!·.closed)

/-- The session was removed, or `PortForwardEnd` was emitted. -/
def Over (s : AgentPortForwardSession) : Prop :=
  s.registered = false ∨ ∃ emission ∈ s.emitted, IsEnd emission

theorem length_openConnections (s : AgentPortForwardSession) :
    s.openConnections.length = s.life.openCount := by
  rw [openConnections, openCount, ← List.countP_eq_length_filter]
  simp only [life, List.countP_map]
  rfl

/-- **In a run that does not disturb it, the end of a session is the end**: `PortForwardEnd` is the
last event, and whatever happens later no connection is open and nothing more is emitted; and at
most `MAX_PORT_FORWARD_CONNECTIONS_PER_SESSION` connections are open at any time. -/
theorem end_is_final (request : PortForwardOpen) (now : ℚ) (actions : List Action)
    (hfree : Runs.Meets step Undisturbed (opened request now) actions) :
    let s := Runs.run step (opened request now) actions
    (s.Over →
      (∃ before last, s.emitted = before ++ [last] ∧ IsEnd last) ∧
      ∀ later, (Runs.run step s later).openConnections = [] ∧
        (Runs.run step s later).emitted = s.emitted) ∧
    s.openConnections.length ≤ maxPortForwardConnectionsPerSession := by
  intro s
  have h : s.life.Inv := inv_run request now hfree
  refine ⟨fun hover => ?_, ?_⟩
  · have hregistered : s.registered = false := by
      rcases hover with hregistered | ⟨emission, hmem, hend⟩
      · exact hregistered
      · by_contra hregistered
        have hregistered : s.registered = true := by simpa using hregistered
        exact h.log.1 hregistered emission hmem hend
    obtain ⟨before, last, hlog, hend, -⟩ := h.log.2 hregistered
    refine ⟨⟨before, last, hlog, hend⟩, fun later => ?_⟩
    obtain ⟨hconnections, hemitted⟩ := run_over h hregistered later
    refine ⟨List.filter_eq_nil_iff.mpr fun c hmem => ?_, hemitted⟩
    rw [hconnections] at hmem
    obtain ⟨k, hk⟩ := List.getElem?_of_mem hmem
    have hclosed := (h.ended hregistered).2 k c.phase (getElem?_life.mpr ⟨c, hk, rfl⟩)
    simpa [AgentTcpConnection.phase] using hclosed
  · rw [length_openConnections]
    exact h.cap

theorem sampleSession_ok : sessionMatches "11111111-1111-1111-1111-111111111111" = true := by
  decide +kernel

theorem sampleGeneration_ok : (1 : ℤ) ≤ 3 := by decide

theorem initialCredit_ok : maxPortForwardFrameBytes ≤ portForwardCreditWindowBytes ∧
    portForwardCreditWindowBytes ≤ portForwardCreditWindowBytes := by decide

/-- The session of the runs below. -/
def sampleRequest : PortForwardOpen where
  sessionId := "11111111-1111-1111-1111-111111111111"
  generation := 3
  session_ok := sampleSession_ok
  generation_ok := sampleGeneration_ok
  credit_ok := initialCredit_ok

theorem undisturbed_of_ne {s : AgentPortForwardSession} {a : Action}
    (h : ∀ task, a ≠ .resume task) : Undisturbed s a :=
  ⟨fun _ _ ha => absurd ha (h _), fun task _ ha => absurd ha (h task)⟩

theorem undisturbed_resume {s : AgentPortForwardSession} {task : TaskId} {rest : List Pending}
    (hstack : s.stack task = pending :: rest)
    (hconnected : ∀ connectionId deadline, pending ≠ .connected connectionId deadline)
    (hending : ∀ reason, pending ≠ .endSession reason) : Undisturbed s (.resume task) where
  connect connectionId deadline ha hstack' := by
    cases ha
    rw [hstack] at hstack'
    cases hstack'
    exact absurd rfl (hconnected _ _)
  announce other reason ha hstack' := by
    cases ha
    rw [hstack] at hstack'
    cases hstack'
    exact absurd rfl (hending _)

/-- A connection is opened, and the session is closed with it. -/
def closedRun : List Action :=
  [.receive (.connectionOpen ⟨1, by decide⟩), .resume .receiver, .resume .receiver,
    .receive .close, .resume .receiver, .resume .receiver, .resume .receiver, .resume .receiver,
    .resume .receiver]

theorem closedRun_alone (other : TaskId) (hother : other ≠ .receiver) :
    (Runs.run step (opened sampleRequest 0) closedRun.dropLast).stack other = [] := by
  simp [closedRun, Runs.run, step, takeUp, proceed, opened, handleControl, openConnection,
    find?, table, await, setStack, addConnection, insert, emit, touch, finishSession,
    finishConnection, closeWriter, change, endConnection, stopWatcher, hother,
    maxPortForwardConnectionsPerSession, maxPortForwardOpenSeconds, Function.update_apply]
  grind

theorem closedRun_undisturbed :
    Runs.Meets step Undisturbed (opened sampleRequest 0) closedRun := by
  have hquiet : ∀ {s : AgentPortForwardSession} (pending : Pending),
      s.stack .receiver = [pending] ∨ (∃ below, s.stack .receiver = [pending, below]) →
      (∀ id deadline, pending ≠ .connected id deadline) → (∀ reason, pending ≠ .endSession reason) →
        Undisturbed s (.resume .receiver) := by
    rintro s pending (hstack | ⟨below, hstack⟩)
    · exact undisturbed_resume hstack
    · exact undisturbed_resume hstack
  simp only [closedRun, Runs.meets_cons]
  refine ⟨undisturbed_of_ne (by simp), ?_, ?_, undisturbed_of_ne (by simp), ?_, ?_, ?_, ?_, ?_, ?_⟩
  · exact ⟨fun _ _ _ _ _ => rfl, fun task reason ha hstack => by cases ha; cases hstack⟩
  · exact hquiet (.announceWindow ⟨1, by decide⟩) (.inl (by decide +kernel)) (by simp) (by simp)
  · exact hquiet (.finishRest [⟨1, by decide⟩] .closed) (.inl (by decide +kernel)) (by simp)
      (by simp)
  · exact hquiet (.readerStopped 0 .closed)
      (.inr ⟨.finishRest [] .closed, by decide +kernel⟩) (by simp) (by simp)
  · exact hquiet (.writerClosed 0 .closed)
      (.inr ⟨.finishRest [] .closed, by decide +kernel⟩) (by simp) (by simp)
  · exact hquiet (.finishRest [] .closed) (.inl (by decide +kernel)) (by simp) (by simp)
  · have hself : (Runs.run step (opened sampleRequest 0) closedRun.dropLast).stack .receiver =
        [.endSession .closed] := by decide +kernel
    refine ⟨fun _ _ _ hstack => ?_, fun task reason ha hstack other hother pending hp => ?_⟩
    · cases hself.symm.trans hstack
    · cases ha
      cases (closedRun_alone other hother).symm ▸ hp
  · exact fun e he => by cases he

/-- The closed session has ended, and its only connection is closed. -/
theorem end_is_final_closed :
    let s := Runs.run step (opened sampleRequest 0) closedRun
    s.registered = false ∧
      (∀ later, (Runs.run step s later).openConnections = [] ∧
        (Runs.run step s later).emitted = s.emitted) := by
  have hregistered : (Runs.run step (opened sampleRequest 0) closedRun).registered = false := by
    decide +kernel
  exact ⟨hregistered,
    ((end_is_final sampleRequest 0 closedRun closedRun_undisturbed).1 (.inl hregistered)).2⟩

/-- **A connect in flight when the idle session is ended opens a connection after the end**: the
session has seen nothing for 290 seconds when the connect begins, and the connector returns after
`PortForwardEnd`. -/
theorem connection_opened_after_end :
    let s := Runs.run step (opened sampleRequest 0)
      [.elapse 290, .receive (.connectionOpen ⟨1, by decide⟩), .elapse 10, .resume .watcher,
        .resume .watcher, .resume .watcher]
    let t := s.step (.resume .receiver)
    s.registered = false ∧ s.emitted = [.opened, .ended .idleTimeout 0 0] ∧
      t.openConnections.length = 1 ∧
      t.emitted = s.emitted ++ [.connectionOpened ⟨1, by decide⟩] := by
  decide +kernel

end AgentPortForwardSession

end Opsia.PortForward
