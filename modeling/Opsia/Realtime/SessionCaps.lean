import Opsia.Realtime.SessionBrokers

/-!
# The limits of sessions

The brokers compare a limit with the sessions in the table, not with the sockets that have passed
this check and wait; and they keep the connection they read before they waited. When a check also
has room for those sockets, and no agent connects or disconnects while one of them waits, the limits
hold and every session begins on the connection of its agent.
-/

namespace Opsia.Realtime

/-- The connection a socket has read. -/
def TerminalWait.agent? : TerminalWait → Option ℕ
  | .authorization => none
  | .start agent | .audit agent _ => some agent

/-- The connection a socket has read. -/
def PortForwardWait.agent? : PortForwardWait → Option ℕ
  | .start agent | .authorization agent | .audit agent _ => some agent

/-- The sessions of a user in a workspace. -/
def ofUser (workspaceId userId : String) (owner : SessionOwner) : Bool :=
  owner.workspaceId = workspaceId ∧ owner.userId = userId

/-- The sessions on a cluster. -/
def ofCluster (clusterId : String) (owner : SessionOwner) : Bool := owner.clusterId = clusterId

namespace Broker

variable {ω : Type} {agent? : ω → Option ℕ} {p : SessionOwner → Bool} {b : Broker ω}

/-! ## Sessions, and sockets past their checks -/

/-- A socket of a kind that has read the connection of its agent. -/
def past (agent? : ω → Option ℕ) (p : SessionOwner → Bool) (serving : Serving ω) : Bool :=
  (agent? serving.wait).isSome && p serving.owner

/-- The sessions of a kind, and the sockets on their way to one. -/
def load (agent? : ω → Option ℕ) (p : SessionOwner → Bool) (b : Broker ω) : ℕ :=
  (b.sessions.rows.countP fun session => p session.owner) + b.serving.rows.countP (past agent? p)

theorem userSessionCount_le_load (agent? : ω → Option ℕ) (b : Broker ω)
    (workspaceId userId : String) :
    b.userSessionCount workspaceId userId ≤ b.load agent? (ofUser workspaceId userId) :=
  Nat.le_add_right _ _

theorem agentSessionCount_le_load (agent? : ω → Option ℕ) (b : Broker ω) (clusterId : String) :
    b.agentSessionCount clusterId ≤ b.load agent? (ofCluster clusterId) := Nat.le_add_right _ _

theorem load_refuse_le (agent? : ω → Option ℕ) (p : SessionOwner → Bool) (b : Broker ω)
    (socket : ℕ) (refusal : Refusal) : (b.refuse socket refusal).load agent? p ≤ b.load agent? p :=
  Nat.add_le_add_left (Table.countP_erase_le _ _ _) _

theorem load_finish_le (agent? : ω → Option ℕ) (p : SessionOwner → Bool) (b : Broker ω)
    (sessionId : String) : (b.finish sessionId).load agent? p ≤ b.load agent? p :=
  Nat.add_le_add_right (Table.countP_erase_le _ _ _) _

/-- A socket that begins to wait counts at most for itself. -/
theorem load_await_le (agent? : ω → Option ℕ) (p : SessionOwner → Bool) (b : Broker ω)
    (serving : Serving ω) : (b.await serving).load agent? p ≤
      b.load agent? p + if past agent? p serving then 1 else 0 := by
  have herase := Table.countP_erase_le b.serving serving.socket (past agent? p)
  have hput := Table.countP_put_le (b.serving.erase serving.socket) serving (past agent? p)
  simp only [load, await]
  omega

theorem load_await_of_find? {old new : Serving ω} (hfind : b.serving.find? new.socket = some old)
    (hpast : past agent? p new = past agent? p old) :
    (b.await new).load agent? p ≤ b.load agent? p := by
  have herase := Table.countP_erase hfind (past agent? p)
  have hput := Table.countP_put_le (b.serving.erase new.socket) new (past agent? p)
  rw [hpast] at hput
  simp only [load, await]
  omega

theorem load_enter_le {socket : ℕ} {old : Serving ω} (hfind : b.serving.find? socket = some old)
    {session : BrokerSession} (howner : session.owner = old.owner)
    (hagent : (agent? old.wait).isSome) :
    (b.enter socket session).load agent? p ≤ b.load agent? p := by
  have herase := Table.countP_erase hfind (past agent? p)
  have hput := Table.countP_put_le b.sessions session fun session => p session.owner
  have hpast : past agent? p old = p session.owner := by
    rw [past, hagent, Bool.true_and, howner]
  rw [hpast] at herase
  simp only [load, enter]
  omega

/-- Every socket has read the connection its agent still has. -/
def Bound (agent? : ω → Option ℕ) (connections : String → Option ℕ) (b : Broker ω) : Prop :=
  ∀ serving ∈ b.serving.rows, ∀ agent, agent? serving.wait = some agent →
    connections serving.owner.clusterId = some agent

variable {connections : String → Option ℕ}

theorem Bound.refuse (h : b.Bound agent? connections) (socket : ℕ) (refusal : Refusal) :
    (b.refuse socket refusal).Bound agent? connections :=
  fun serving hmem => h serving (Table.mem_of_mem_erase hmem)

theorem Bound.enter (h : b.Bound agent? connections) (socket : ℕ) (session : BrokerSession) :
    (b.enter socket session).Bound agent? connections :=
  fun serving hmem => h serving (Table.mem_of_mem_erase hmem)

theorem Bound.await (h : b.Bound agent? connections) {new : Serving ω}
    (hnew : ∀ agent, agent? new.wait = some agent →
      connections new.owner.clusterId = some agent) :
    (b.await new).Bound agent? connections := by
  intro serving hmem
  rcases Table.mem_put hmem with rfl | ⟨hold, -⟩
  · exact hnew
  · exact h serving (Table.mem_of_mem_erase hold)

theorem Bound.update (h : b.Bound agent? connections) {clusterId : String}
    (hnone : ∀ serving ∈ b.serving.rows, (agent? serving.wait).isSome →
      serving.owner.clusterId ≠ clusterId) (connection : Option ℕ) :
    b.Bound agent? (Function.update connections clusterId connection) := by
  intro serving hmem agent hagent
  rw [Function.update_of_ne (hnone serving hmem (by rw [hagent]; rfl))]
  exact h serving hmem agent hagent

/-- The session enters the table with the step. -/
def Enters (pre post : Broker ω) (session : BrokerSession) : Prop :=
  session ∈ post.sessions.rows ∧ session ∉ pre.sessions.rows

theorem enters_enter {socket : ℕ} {new session : BrokerSession}
    (h : Enters b (b.enter socket new) session) : session = new :=
  (Table.mem_put h.1).resolve_right fun hold => h.2 hold.1

theorem not_enters_of_subset {b' : Broker ω} (h : b'.sessions.rows ⊆ b.sessions.rows)
    (session : BrokerSession) : ¬Enters b b' session := fun hnew => hnew.2 (h hnew.1)

end Broker

namespace SessionGateway

open Broker

/-! ## The law -/

/-- The limits of the brokers. -/
structure WithinLimits (g : SessionGateway) : Prop where
  terminalUser : ∀ workspaceId userId,
    g.terminal.userSessionCount workspaceId userId ≤ maxTerminalSessionsPerUser
  portForwardUser : ∀ workspaceId userId,
    g.portForward.userSessionCount workspaceId userId ≤ maxPortForwardSessionsPerUser
  portForwardAgent : ∀ clusterId,
    g.portForward.agentSessionCount clusterId ≤ maxPortForwardSessionsPerAgent

/-- A session enters a table on the connection that its agent has registered. -/
structure EntersBound (g g' : SessionGateway) : Prop where
  terminal : ∀ session, Enters g.terminal g'.terminal session →
    g.connections session.owner.clusterId = some session.agent
  portForward : ∀ session, Enters g.portForward g'.portForward session →
    g.connections session.owner.clusterId = some session.agent

/-- No step finds room that a waiting socket will take, and no connection changes under one:
a socket that passes a limit also passes it with the sockets that passed it before, and no agent
connects or disconnects while a socket of its cluster has read its connection and waits. -/
structure Uncontended (g : SessionGateway) (a : Action) : Prop where
  terminal : ∀ socket token serving, a = .resumeTerminal socket true token →
    g.terminal.serving.find? socket = some serving → serving.wait = .authorization →
    g.terminal.userSessionCount serving.owner.workspaceId serving.owner.userId <
      maxTerminalSessionsPerUser →
    (g.connections serving.owner.clusterId).isSome →
    g.terminal.load TerminalWait.agent?
      (ofUser serving.owner.workspaceId serving.owner.userId) < maxTerminalSessionsPerUser
  portForward : ∀ socket request, a = .openPortForward socket request →
    portForwardRefusal request = none →
    g.portForward.userSessionCount request.workspaceId request.userId <
      maxPortForwardSessionsPerUser →
    g.portForward.agentSessionCount request.clusterId < maxPortForwardSessionsPerAgent →
    (g.connections request.clusterId).isSome →
    g.portForward.load PortForwardWait.agent? (ofUser request.workspaceId request.userId) <
        maxPortForwardSessionsPerUser ∧
      g.portForward.load PortForwardWait.agent? (ofCluster request.clusterId) <
        maxPortForwardSessionsPerAgent
  connection : ∀ clusterId, (a = .register clusterId ∨ ∃ connection,
      a = .unregister clusterId connection ∧ g.connections clusterId = some connection) →
    (∀ serving ∈ g.terminal.serving.rows, (TerminalWait.agent? serving.wait).isSome →
      serving.owner.clusterId ≠ clusterId) ∧
    ∀ serving ∈ g.portForward.serving.rows, (PortForwardWait.agent? serving.wait).isSome →
      serving.owner.clusterId ≠ clusterId

/-- The invariant: the limits hold with the sockets on their way to a session, and each of those has
read the connection its agent still has. -/
structure CapsInv (g : SessionGateway) : Prop where
  terminalUser : ∀ workspaceId userId,
    g.terminal.load TerminalWait.agent? (ofUser workspaceId userId) ≤ maxTerminalSessionsPerUser
  portForwardUser : ∀ workspaceId userId,
    g.portForward.load PortForwardWait.agent? (ofUser workspaceId userId) ≤
      maxPortForwardSessionsPerUser
  portForwardAgent : ∀ clusterId, g.portForward.load PortForwardWait.agent? (ofCluster clusterId) ≤
    maxPortForwardSessionsPerAgent
  terminalBound : g.terminal.Bound TerminalWait.agent? g.connections
  portForwardBound : g.portForward.Bound PortForwardWait.agent? g.connections

variable {g : SessionGateway}

theorem CapsInv.withinLimits (h : g.CapsInv) : g.WithinLimits where
  terminalUser workspaceId userId :=
    Nat.le_trans (userSessionCount_le_load _ _ _ _) (h.terminalUser workspaceId userId)
  portForwardUser workspaceId userId :=
    Nat.le_trans (userSessionCount_le_load _ _ _ _) (h.portForwardUser workspaceId userId)
  portForwardAgent clusterId :=
    Nat.le_trans (agentSessionCount_le_load _ _ _) (h.portForwardAgent clusterId)

theorem CapsInv.terminal (h : g.CapsInv) {b : Broker TerminalWait}
    (hload : ∀ p, b.load TerminalWait.agent? p ≤ g.terminal.load TerminalWait.agent? p)
    (hbound : b.Bound TerminalWait.agent? g.connections) : CapsInv { g with terminal := b } where
  terminalUser workspaceId userId := Nat.le_trans (hload _) (h.terminalUser workspaceId userId)
  portForwardUser := h.portForwardUser
  portForwardAgent := h.portForwardAgent
  terminalBound := hbound
  portForwardBound := h.portForwardBound

theorem CapsInv.portForward (h : g.CapsInv) {b : Broker PortForwardWait}
    (hload : ∀ p, b.load PortForwardWait.agent? p ≤ g.portForward.load PortForwardWait.agent? p)
    (hbound : b.Bound PortForwardWait.agent? g.connections) :
    CapsInv { g with portForward := b } where
  terminalUser := h.terminalUser
  portForwardUser workspaceId userId :=
    Nat.le_trans (hload _) (h.portForwardUser workspaceId userId)
  portForwardAgent clusterId := Nat.le_trans (hload _) (h.portForwardAgent clusterId)
  terminalBound := h.terminalBound
  portForwardBound := hbound

theorem load_await_le_of_room {ω : Type} {agent? : ω → Option ℕ} {b : Broker ω}
    {serving : Serving ω} {p : SessionOwner → Bool} {limit : ℕ} (hload : b.load agent? p ≤ limit)
    (hroom : p serving.owner = true → b.load agent? p < limit) :
    (b.await serving).load agent? p ≤ limit := by
  have hawait := load_await_le agent? p b serving
  by_cases hp : p serving.owner = true
  · have hlt := hroom hp
    split_ifs at hawait <;> omega
  · have hpast : past agent? p serving = false := by simp [past, hp]
    rw [hpast, if_neg Bool.false_ne_true] at hawait
    omega

/-! ## Steps -/

theorem capsInv_refuseTerminal (h : g.CapsInv) (socket : ℕ) (refusal : Refusal) :
    CapsInv { g with terminal := g.terminal.refuse socket refusal } :=
  h.terminal (fun p => load_refuse_le _ p _ socket refusal) (h.terminalBound.refuse socket refusal)

theorem capsInv_refusePortForward (h : g.CapsInv) (socket : ℕ) (refusal : Refusal) :
    CapsInv { g with portForward := g.portForward.refuse socket refusal } :=
  h.portForward (fun p => load_refuse_le _ p _ socket refusal)
    (h.portForwardBound.refuse socket refusal)

/-- **A terminal is admitted** when there is room for it. -/
theorem capsInv_admitTerminal (h : g.CapsInv) (socket : ℕ) (owner : SessionOwner)
    (hroom : g.terminal.userSessionCount owner.workspaceId owner.userId <
        maxTerminalSessionsPerUser → (g.connections owner.clusterId).isSome →
      g.terminal.load TerminalWait.agent? (ofUser owner.workspaceId owner.userId) <
        maxTerminalSessionsPerUser) :
    CapsInv { g with terminal := g.admitTerminal socket owner } := by
  unfold admitTerminal
  split_ifs with hfull
  · exact capsInv_refuseTerminal h socket _
  · cases hagent : g.connections owner.clusterId with
    | none => exact capsInv_refuseTerminal h socket _
    | some agent =>
      refine ⟨fun workspaceId userId => ?_, h.portForwardUser, h.portForwardAgent, ?_,
        h.portForwardBound⟩
      · refine load_await_le_of_room (h.terminalUser workspaceId userId) fun hp => ?_
        obtain ⟨rfl, rfl⟩ : owner.workspaceId = workspaceId ∧ owner.userId = userId := by
          simpa [ofUser] using hp
        exact hroom (by omega) (by rw [hagent]; rfl)
      · refine h.terminalBound.await ?_
        rintro _ ⟨⟩
        exact hagent

/-- **A port forward is admitted** when there is room for it. -/
theorem capsInv_admitPortForward (h : g.CapsInv) (socket : ℕ) (owner : SessionOwner)
    (hroom : g.portForward.userSessionCount owner.workspaceId owner.userId <
        maxPortForwardSessionsPerUser →
      g.portForward.agentSessionCount owner.clusterId < maxPortForwardSessionsPerAgent →
      (g.connections owner.clusterId).isSome →
      g.portForward.load PortForwardWait.agent? (ofUser owner.workspaceId owner.userId) <
          maxPortForwardSessionsPerUser ∧
        g.portForward.load PortForwardWait.agent? (ofCluster owner.clusterId) <
          maxPortForwardSessionsPerAgent) :
    CapsInv { g with portForward := g.admitPortForward socket owner } := by
  unfold admitPortForward
  split_ifs with huser hcluster
  · exact capsInv_refusePortForward h socket _
  · exact capsInv_refusePortForward h socket _
  · cases hagent : g.connections owner.clusterId with
    | none => exact capsInv_refusePortForward h socket _
    | some agent =>
      obtain ⟨hforUser, hforCluster⟩ := hroom (by omega) (by omega) (by rw [hagent]; rfl)
      refine ⟨h.terminalUser, fun workspaceId userId => ?_, fun clusterId => ?_, h.terminalBound,
        ?_⟩
      · refine load_await_le_of_room (h.portForwardUser workspaceId userId) fun hp => ?_
        obtain ⟨rfl, rfl⟩ : owner.workspaceId = workspaceId ∧ owner.userId = userId := by
          simpa [ofUser] using hp
        exact hforUser
      · refine load_await_le_of_room (h.portForwardAgent clusterId) fun hp => ?_
        obtain rfl : owner.clusterId = clusterId := by simpa [ofCluster] using hp
        exact hforCluster
      · refine h.portForwardBound.await ?_
        rintro _ ⟨⟩
        exact hagent

/-- **An agent connects or disconnects** while no socket of its cluster waits. -/
theorem CapsInv.update (h : g.CapsInv) {clusterId : String}
    (hterminal : ∀ serving ∈ g.terminal.serving.rows, (TerminalWait.agent? serving.wait).isSome →
      serving.owner.clusterId ≠ clusterId)
    (hportForward : ∀ serving ∈ g.portForward.serving.rows,
      (PortForwardWait.agent? serving.wait).isSome → serving.owner.clusterId ≠ clusterId)
    (connection : Option ℕ) (next : ℕ) :
    CapsInv { g with
      connections := Function.update g.connections clusterId connection
      nextConnection := next } where
  terminalUser := h.terminalUser
  portForwardUser := h.portForwardUser
  portForwardAgent := h.portForwardAgent
  terminalBound := h.terminalBound.update hterminal connection
  portForwardBound := h.portForwardBound.update hportForward connection

theorem capsInv_resumeTerminal (h : g.CapsInv) {socket : ℕ} {serving : Serving TerminalWait}
    (hfind : g.terminal.serving.find? socket = some serving) (ok : Bool) (token : String)
    (hfree : Uncontended g (.resumeTerminal socket ok token)) :
    CapsInv { g with terminal := g.resumeTerminal serving ok token } := by
  obtain rfl := Table.key_of_find? hfind
  have hbound := h.terminalBound serving (Table.mem_of_find? hfind)
  cases ok with
  | false => cases hwait : serving.wait <;> simp only [resumeTerminal, hwait] <;>
      exact capsInv_refuseTerminal h _ _
  | true =>
    cases hwait : serving.wait with
    | authorization =>
      simp only [resumeTerminal, hwait, if_true]
      exact capsInv_admitTerminal h _ _ (hfree.terminal _ token serving rfl hfind hwait)
    | start agent =>
      simp only [resumeTerminal, hwait, if_true]
      refine h.terminal (fun p => load_await_of_find? hfind ?_) (h.terminalBound.await ?_)
      · simp [past, TerminalWait.agent?, hwait]
      · rintro _ ⟨⟩
        exact hbound agent (by rw [hwait]; rfl)
    | audit agent sessionId =>
      simp only [resumeTerminal, hwait, if_true]
      refine h.terminal (fun p => load_enter_le hfind rfl ?_) (h.terminalBound.enter _ _)
      rw [hwait]
      rfl

theorem capsInv_resumePortForward (h : g.CapsInv) {socket : ℕ}
    {serving : Serving PortForwardWait}
    (hfind : g.portForward.serving.find? socket = some serving) (ok : Bool) (token : String) :
    CapsInv { g with portForward := g.resumePortForward serving ok token } := by
  obtain rfl := Table.key_of_find? hfind
  have hbound := h.portForwardBound serving (Table.mem_of_find? hfind)
  cases ok with
  | false => cases hwait : serving.wait <;> simp only [resumePortForward, hwait] <;>
      exact capsInv_refusePortForward h _ _
  | true =>
    cases hwait : serving.wait with
    | start agent =>
      simp only [resumePortForward, hwait, if_true]
      refine h.portForward (fun p => load_await_of_find? hfind ?_) (h.portForwardBound.await ?_)
      · simp [past, PortForwardWait.agent?, hwait]
      · rintro _ ⟨⟩
        exact hbound agent (by rw [hwait]; rfl)
    | authorization agent =>
      simp only [resumePortForward, hwait, if_true]
      refine h.portForward (fun p => load_await_of_find? hfind ?_) (h.portForwardBound.await ?_)
      · simp [past, PortForwardWait.agent?, hwait]
      · rintro _ ⟨⟩
        exact hbound agent (by rw [hwait]; rfl)
    | audit agent sessionId =>
      simp only [resumePortForward, hwait, if_true]
      refine h.portForward (fun p => load_enter_le hfind rfl ?_) (h.portForwardBound.enter _ _)
      rw [hwait]
      rfl

/-- **A step that is not contended keeps the invariant.** -/
theorem capsInv_step (h : g.CapsInv) (a : Action) (hfree : Uncontended g a) :
    (g.step a).CapsInv := by
  cases a with
  | openTerminal socket request =>
    simp only [step]
    split
    · exact h
    · unfold openTerminal
      split
      · exact capsInv_refuseTerminal h socket _
      · refine h.terminal (fun p => ?_) (h.terminalBound.await (by rintro _ ⟨⟩))
        refine Nat.le_trans (load_await_le _ p _ _) ?_
        simp [past, TerminalWait.agent?]
  | openPortForward socket request =>
    simp only [step]
    split
    · exact h
    · unfold openPortForward
      split
      · exact capsInv_refusePortForward h socket _
      · rename_i hvalid
        exact capsInv_admitPortForward h socket request.owner
          (hfree.portForward socket request rfl hvalid)
  | resumeTerminal socket ok token =>
    simp only [step]
    split
    · exact h
    · rename_i serving hfind
      exact capsInv_resumeTerminal h hfind ok token hfree
  | resumePortForward socket ok token =>
    simp only [step]
    split
    · exact h
    · rename_i serving hfind
      exact capsInv_resumePortForward h hfind ok token
  | finishTerminal sessionId => exact h.terminal (fun p => load_finish_le _ p _ _) h.terminalBound
  | finishPortForward sessionId =>
    exact h.portForward (fun p => load_finish_le _ p _ _) h.portForwardBound
  | register clusterId =>
    obtain ⟨hterminal, hportForward⟩ := hfree.connection clusterId (.inl rfl)
    exact h.update hterminal hportForward _ _
  | unregister clusterId connection =>
    simp only [step, unregister]
    split_ifs with hcurrent
    · obtain ⟨hterminal, hportForward⟩ :=
        hfree.connection clusterId (.inr ⟨connection, rfl, hcurrent⟩)
      exact h.update hterminal hportForward _ _
    · exact h

/-! ## Sessions that begin -/

theorem enters_resumeTerminal (h : g.CapsInv) {socket : ℕ} {serving : Serving TerminalWait}
    (hfind : g.terminal.serving.find? socket = some serving) {ok : Bool} {token : String}
    {session : BrokerSession}
    (hnew : Enters g.terminal (g.resumeTerminal serving ok token) session) :
    g.connections session.owner.clusterId = some session.agent := by
  have hsame : ∀ {b : Broker TerminalWait}, b.sessions = g.terminal.sessions →
      ¬Enters g.terminal b session :=
    fun hb => not_enters_of_subset (by rw [hb]; exact fun _ hmem => hmem) session
  cases hwait : serving.wait with
  | authorization =>
    simp only [resumeTerminal, hwait, admitTerminal] at hnew
    split_ifs at hnew
    · exact absurd hnew (hsame rfl)
    · split at hnew <;> exact absurd hnew (hsame rfl)
    · exact absurd hnew (hsame rfl)
  | start agent =>
    simp only [resumeTerminal, hwait] at hnew
    split_ifs at hnew <;> exact absurd hnew (hsame rfl)
  | audit agent sessionId =>
    simp only [resumeTerminal, hwait] at hnew
    split_ifs at hnew
    · obtain rfl := enters_enter hnew
      exact h.terminalBound serving (Table.mem_of_find? hfind) agent (by rw [hwait]; rfl)
    · exact absurd hnew (hsame rfl)

theorem enters_resumePortForward (h : g.CapsInv) {socket : ℕ}
    {serving : Serving PortForwardWait}
    (hfind : g.portForward.serving.find? socket = some serving) {ok : Bool} {token : String}
    {session : BrokerSession}
    (hnew : Enters g.portForward (g.resumePortForward serving ok token) session) :
    g.connections session.owner.clusterId = some session.agent := by
  have hsame : ∀ {b : Broker PortForwardWait}, b.sessions = g.portForward.sessions →
      ¬Enters g.portForward b session :=
    fun hb => not_enters_of_subset (by rw [hb]; exact fun _ hmem => hmem) session
  cases hwait : serving.wait with
  | start agent =>
    simp only [resumePortForward, hwait] at hnew
    split_ifs at hnew <;> exact absurd hnew (hsame rfl)
  | authorization agent =>
    simp only [resumePortForward, hwait] at hnew
    split_ifs at hnew <;> exact absurd hnew (hsame rfl)
  | audit agent sessionId =>
    simp only [resumePortForward, hwait] at hnew
    split_ifs at hnew
    · obtain rfl := enters_enter hnew
      exact h.portForwardBound serving (Table.mem_of_find? hfind) agent (by rw [hwait]; rfl)
    · exact absurd hnew (hsame rfl)

/-- **A session begins on the connection of its agent.** -/
theorem entersBound_step (h : g.CapsInv) (a : Action) : EntersBound g (g.step a) := by
  have hterminal : ∀ {g' : SessionGateway}, g'.terminal.sessions.rows ⊆ g.terminal.sessions.rows →
      ∀ session, Enters g.terminal g'.terminal session →
        g.connections session.owner.clusterId = some session.agent :=
    fun hb session hnew => absurd hnew (not_enters_of_subset hb session)
  have hportForward : ∀ {g' : SessionGateway},
      g'.portForward.sessions.rows ⊆ g.portForward.sessions.rows →
        ∀ session, Enters g.portForward g'.portForward session →
          g.connections session.owner.clusterId = some session.agent :=
    fun hb session hnew => absurd hnew (not_enters_of_subset hb session)
  have hsame : ∀ {g' : SessionGateway}, g'.terminal.sessions = g.terminal.sessions →
      g'.portForward.sessions = g.portForward.sessions → EntersBound g g' := by
    intro g' hb hb'
    exact ⟨hterminal (by rw [hb]; exact fun _ hmem => hmem),
      hportForward (by rw [hb']; exact fun _ hmem => hmem)⟩
  cases a with
  | openTerminal socket request =>
    simp only [step, openTerminal]
    split
    · exact hsame rfl rfl
    · split <;> exact hsame rfl rfl
  | openPortForward socket request =>
    simp only [step, openPortForward, admitPortForward]
    split
    · exact hsame rfl rfl
    · split
      · exact hsame rfl rfl
      · split_ifs
        · exact hsame rfl rfl
        · exact hsame rfl rfl
        · split <;> exact hsame rfl rfl
  | resumeTerminal socket ok token =>
    simp only [step]
    split
    · exact hsame rfl rfl
    · rename_i serving hfind
      exact ⟨fun session hnew => enters_resumeTerminal h hfind hnew,
        hportForward fun _ hmem => hmem⟩
  | resumePortForward socket ok token =>
    simp only [step]
    split
    · exact hsame rfl rfl
    · rename_i serving hfind
      exact ⟨hterminal fun _ hmem => hmem,
        fun session hnew => enters_resumePortForward h hfind hnew⟩
  | finishTerminal sessionId =>
    exact ⟨hterminal fun _ hmem => Table.mem_of_mem_erase hmem, hportForward fun _ hmem => hmem⟩
  | finishPortForward sessionId =>
    exact ⟨hterminal fun _ hmem => hmem, hportForward fun _ hmem => Table.mem_of_mem_erase hmem⟩
  | register clusterId => exact hsame rfl rfl
  | unregister clusterId connection =>
    simp only [step, unregister]
    split <;> exact hsame rfl rfl

/-! ## Runs -/

/-- The gateway when it starts. -/
def start : SessionGateway := {}

theorem capsInv_start : CapsInv start where
  terminalUser _ _ := Nat.zero_le _
  portForwardUser _ _ := Nat.zero_le _
  portForwardAgent _ := Nat.zero_le _
  terminalBound := by intro serving hmem; cases hmem
  portForwardBound := by intro serving hmem; cases hmem

/-- **In a run without contention the limits hold in every state, and every session begins on the
registered connection of its agent.** -/
theorem limits_hold (actions : List Action) (hfree : Runs.Meets step Uncontended start actions) :
    WithinLimits (Runs.run step start actions) ∧
      ∀ e ∈ Runs.trace step start actions, EntersBound e.pre e.post := by
  have hstep : ∀ g a, CapsInv g → Uncontended g a → CapsInv (g.step a) :=
    fun _ a h ha => capsInv_step h a ha
  constructor
  · exact (Runs.run_invariant_of_meets hstep capsInv_start hfree).withinLimits
  · intro e hmem
    obtain ⟨hinv, -, hpost⟩ := Runs.trace_invariant_of_meets hstep capsInv_start hfree e hmem
    rw [hpost]
    exact entersBound_step hinv e.action

/-- The request of the runs below. -/
def sampleSocket : BrowserRequest where
  workspaceId := "ws"
  clusterId := "c1"
  namespaceName := "default"
  pod := "web-0"
  container := "web"
  sessionWorkspaceId := "ws"
  userId := "ana"

/-- One socket alone gets its session. -/
theorem limits_hold_alone :
    let actions : List Action := [.register "c1", .openPortForward 1 sampleSocket,
      .resumePortForward 1 true "", .resumePortForward 1 true "s1", .resumePortForward 1 true ""]
    (Runs.run step start actions).portForward.userSessionCount "ws" "ana" = 1 ∧
      WithinLimits (Runs.run step start actions) ∧
        ∀ e ∈ Runs.trace step start actions, EntersBound e.pre e.post := by
  refine ⟨by decide +kernel, limits_hold _ ?_⟩
  simp only [Runs.meets_cons]
  have hresume : ∀ g ok token, Uncontended g (.resumePortForward 1 ok token) :=
    fun g ok token => ⟨by rintro _ _ _ ⟨⟩, by rintro _ _ ⟨⟩, by rintro _ (⟨⟨⟩⟩ | ⟨_, ⟨⟩, _⟩)⟩
  refine ⟨⟨by rintro _ _ _ ⟨⟩, by rintro _ _ ⟨⟩, fun _ _ => ⟨?_, ?_⟩⟩,
    ⟨by rintro _ _ _ ⟨⟩, ?_, by rintro _ (⟨⟨⟩⟩ | ⟨_, ⟨⟩, _⟩)⟩, hresume _ _ _, hresume _ _ _,
    hresume _ _ _, fun e he => by cases he⟩
  · exact fun serving hmem => by cases hmem
  · exact fun serving hmem => by cases hmem
  · rintro _ _ ⟨⟩ - - - -
    decide +kernel

/-- **Limits are exceeded, and a session begins on a connection that was replaced**: four sockets
pass the check before the first session is in the table, in either broker; and the agent connects
again while a socket waits for its start frame. -/
theorem fourth_session_enters :
    let sockets := [1, 2, 3, 4]
    let audited : List Action := sockets.flatMap fun socket =>
      [.resumePortForward socket true "", .resumePortForward socket true (toString socket),
        .resumePortForward socket true ""]
    let g := Runs.run step start
      (.register "c1" :: sockets.map (.openPortForward · sampleSocket) ++ audited)
    let authorized : List Action := sockets.flatMap fun socket =>
      [.openTerminal socket sampleSocket, .resumeTerminal socket true ""]
    let started : List Action := sockets.flatMap fun socket =>
      [.resumeTerminal socket true (toString socket), .resumeTerminal socket true ""]
    let h := Runs.run step start (.register "c1" :: authorized ++ started)
    let t := Runs.run step start [.register "c1", .openTerminal 1 sampleSocket,
      .resumeTerminal 1 true "", .register "c1", .resumeTerminal 1 true "s1"]
    g.portForward.userSessionCount "ws" "ana" = 4 ∧
      h.terminal.userSessionCount "ws" "ana" = 4 ∧
        t.connections "c1" = some 1 ∧
          (t.step (.resumeTerminal 1 true "")).terminal.sessions.rows =
            [⟨"s1", sampleSocket.owner, 0⟩] := by
  decide +kernel

end SessionGateway

end Opsia.Realtime
