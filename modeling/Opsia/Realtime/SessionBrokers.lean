import Mathlib.Logic.Function.Basic
import Opsia.Lib.Runs
import Opsia.Lib.Table

/-!
# The session brokers of the gateway

`serve_browser` of the terminal broker and of the port-forward broker reads how many sessions there
are and which connection the agent has, waits several times, and only then puts its session into the
table. A step takes one socket from one wait to the next; agents connect and disconnect and sessions
end at any time in between.
-/

namespace Opsia.Realtime

/-! ## Limits and answers -/

def maxTerminalSessionsPerUser : ℕ := 3

def maxPortForwardSessionsPerUser : ℕ := 3

def maxPortForwardSessionsPerAgent : ℕ := 8

/-- What a browser is told instead of a session. -/
inductive Refusal where
  | closed (code : ℕ)
  | error (code message : String) (retryable : Bool)
  deriving DecidableEq

def closeBadRequest : Refusal := .closed 4400

def closeUnauthorized : Refusal := .closed 4401

/-! ## Brokers -/

/-- Whose session it is, and on which cluster. -/
structure SessionOwner where
  workspaceId : String
  clusterId : String
  userId : String
  deriving DecidableEq

/-- A socket in `serve_browser`, before its session is in the table. -/
structure Serving (ω : Type) where
  socket : ℕ
  owner : SessionOwner
  wait : ω

/-- `BrowserTerminalSession` and `BrowserPortForwardSession`; a connection of an agent is named by
the number of its registration. -/
structure BrokerSession where
  sessionId : String
  owner : SessionOwner
  agent : ℕ
  deriving DecidableEq

/-- A broker, with the sockets that wait for a session and what the others were told. -/
structure Broker (ω : Type) where
  serving : Table (Serving.socket : Serving ω → ℕ) := .empty
  sessions : Table BrokerSession.sessionId := .empty
  refusals : List (ℕ × Refusal) := []

namespace Broker

variable {ω : Type}

/-- The socket waits. -/
def await (b : Broker ω) (serving : Serving ω) : Broker ω :=
  { b with serving := (b.serving.erase serving.socket).put serving }

/-- `serve_browser` returns without a session. -/
def refuse (b : Broker ω) (socket : ℕ) (refusal : Refusal) : Broker ω :=
  { b with
    serving := b.serving.erase socket
    refusals := b.refusals ++ [(socket, refusal)] }

/-- `self.sessions[session.session_id] = session`. -/
def enter (b : Broker ω) (socket : ℕ) (session : BrokerSession) : Broker ω :=
  { b with
    serving := b.serving.erase socket
    sessions := b.sessions.put session }

/-- `self.sessions.pop`. -/
def finish (b : Broker ω) (sessionId : String) : Broker ω :=
  { b with sessions := b.sessions.erase sessionId }

def userSessionCount (b : Broker ω) (workspaceId userId : String) : ℕ :=
  b.sessions.rows.countP fun session =>
    session.owner.workspaceId = workspaceId ∧ session.owner.userId = userId

def agentSessionCount (b : Broker ω) (clusterId : String) : ℕ :=
  b.sessions.rows.countP fun session => session.owner.clusterId = clusterId

end Broker

/-- Where `TerminalSessionBroker.serve_browser` waits. -/
inductive TerminalWait where
  | authorization
  | start (agent : ℕ)
  | audit (agent : ℕ) (sessionId : String)
  deriving DecidableEq

/-- Where `PortForwardSessionBroker.serve_browser` waits. -/
inductive PortForwardWait where
  | start (agent : ℕ)
  | authorization (agent : ℕ)
  | audit (agent : ℕ) (sessionId : String)
  deriving DecidableEq

/-- The registry of agent connections, with the number of the next one, and the two brokers. -/
structure SessionGateway where
  connections : String → Option ℕ := fun _ => none
  nextConnection : ℕ := 0
  terminal : Broker TerminalWait := {}
  portForward : Broker PortForwardWait := {}

/-- The query parameters of a socket, and the session of the browser (`_session_value`). -/
structure BrowserRequest where
  workspaceId : String
  clusterId : String
  namespaceName : String := ""
  pod : String := ""
  container : String := ""
  sessionWorkspaceId : String
  userId : String

/-- The owner of the session asked for. -/
def BrowserRequest.owner (request : BrowserRequest) : SessionOwner where
  workspaceId := request.workspaceId
  clusterId := request.clusterId
  userId := request.userId

namespace SessionGateway

/-! ## Terminals -/

/-- The checks of `TerminalSessionBroker.serve_browser` before it waits. -/
def terminalRefusal (request : BrowserRequest) : Option Refusal :=
  if "" ∈ [request.workspaceId, request.clusterId, request.namespaceName, request.pod,
      request.container] then some closeBadRequest
  else if request.workspaceId ≠ request.sessionWorkspaceId then some closeUnauthorized
  else none

/-- `TerminalSessionBroker.serve_browser`, to the authorizer. -/
def openTerminal (g : SessionGateway) (socket : ℕ) (request : BrowserRequest) :
    Broker TerminalWait :=
  match terminalRefusal request with
  | some refusal => g.terminal.refuse socket refusal
  | none => g.terminal.await ⟨socket, request.owner, .authorization⟩

/-- `TerminalSessionBroker.serve_browser` of an authorized socket, to the start frame. -/
def admitTerminal (g : SessionGateway) (socket : ℕ) (owner : SessionOwner) :
    Broker TerminalWait :=
  if g.terminal.userSessionCount owner.workspaceId owner.userId ≥ maxTerminalSessionsPerUser then
    g.terminal.refuse socket (.error "session_limit" "Terminal session limit reached." false)
  else
    match g.connections owner.clusterId with
    | none =>
      g.terminal.refuse socket (.error "agent_unavailable" "Target agent is offline." true)
    | some agent => g.terminal.await ⟨socket, owner, .start agent⟩

/-- `TerminalSessionBroker.serve_browser` after a wait: the socket is authorized, the start frame is
valid, the audit record is written; `token` is what `secrets.token_urlsafe` gives. -/
def resumeTerminal (g : SessionGateway) (serving : Serving TerminalWait) (ok : Bool)
    (token : String) : Broker TerminalWait :=
  let socket := serving.socket
  match serving.wait with
  | .authorization =>
    if ok then g.admitTerminal socket serving.owner else g.terminal.refuse socket closeUnauthorized
  | .start agent =>
    if ok then g.terminal.await ⟨socket, serving.owner, .audit agent token⟩
    else g.terminal.refuse socket closeBadRequest
  | .audit agent sessionId =>
    if ok then g.terminal.enter socket ⟨sessionId, serving.owner, agent⟩
    else g.terminal.refuse socket (.error "audit_unavailable" "Audit record unavailable." true)

/-! ## Port forwarding -/

/-- The first checks of `PortForwardSessionBroker.serve_browser`. -/
def portForwardRefusal (request : BrowserRequest) : Option Refusal :=
  if "" ∈ [request.workspaceId, request.clusterId] then some closeBadRequest
  else if request.workspaceId ≠ request.sessionWorkspaceId then some closeUnauthorized
  else if request.userId = "" then some closeUnauthorized
  else none

/-- The limits in `PortForwardSessionBroker.serve_browser`, to the start frame. -/
def admitPortForward (g : SessionGateway) (socket : ℕ) (owner : SessionOwner) :
    Broker PortForwardWait :=
  if g.portForward.userSessionCount owner.workspaceId owner.userId ≥
      maxPortForwardSessionsPerUser then
    g.portForward.refuse socket (.error "session_limit" "Port-forward limit reached." false)
  else if g.portForward.agentSessionCount owner.clusterId ≥ maxPortForwardSessionsPerAgent then
    g.portForward.refuse socket (.error "session_limit" "Agent port-forward limit reached." false)
  else
    match g.connections owner.clusterId with
    | none =>
      g.portForward.refuse socket (.error "agent_unavailable" "Target agent is offline." true)
    | some agent => g.portForward.await ⟨socket, owner, .start agent⟩

/-- `PortForwardSessionBroker.serve_browser`, to the start frame. -/
def openPortForward (g : SessionGateway) (socket : ℕ) (request : BrowserRequest) :
    Broker PortForwardWait :=
  match portForwardRefusal request with
  | some refusal => g.portForward.refuse socket refusal
  | none => g.admitPortForward socket request.owner

/-- `PortForwardSessionBroker.serve_browser` after a wait. -/
def resumePortForward (g : SessionGateway) (serving : Serving PortForwardWait) (ok : Bool)
    (token : String) : Broker PortForwardWait :=
  let socket := serving.socket
  match serving.wait with
  | .start agent =>
    if ok then g.portForward.await ⟨socket, serving.owner, .authorization agent⟩
    else g.portForward.refuse socket closeBadRequest
  | .authorization agent =>
    if ok then g.portForward.await ⟨socket, serving.owner, .audit agent token⟩
    else g.portForward.refuse socket closeUnauthorized
  | .audit agent sessionId =>
    if ok then g.portForward.enter socket ⟨sessionId, serving.owner, agent⟩
    else g.portForward.refuse socket (.error "audit_unavailable" "Audit record unavailable." true)

/-! ## Agents -/

/-- `AgentConnectionRegistry.register`. -/
def register (g : SessionGateway) (clusterId : String) : SessionGateway :=
  { g with
    connections := Function.update g.connections clusterId (some g.nextConnection)
    nextConnection := g.nextConnection + 1 }

/-- `AgentConnectionRegistry.unregister`. -/
def unregister (g : SessionGateway) (clusterId : String) (connection : ℕ) : SessionGateway :=
  if g.connections clusterId = some connection then
    { g with connections := Function.update g.connections clusterId none }
  else g

/-! ## Steps -/

/-- What can happen next. Sessions end for many reasons, and what `agent_disconnected` ends is among
them; here it matters only that they are gone. -/
inductive Action where
  | openTerminal (socket : ℕ) (request : BrowserRequest)
  | openPortForward (socket : ℕ) (request : BrowserRequest)
  | resumeTerminal (socket : ℕ) (ok : Bool) (token : String)
  | resumePortForward (socket : ℕ) (ok : Bool) (token : String)
  | finishTerminal (sessionId : String)
  | finishPortForward (sessionId : String)
  | register (clusterId : String)
  | unregister (clusterId : String) (connection : ℕ)

/-- One step; a socket is served once. -/
def step (g : SessionGateway) : Action → SessionGateway
  | .openTerminal socket request =>
    match g.terminal.serving.find? socket with
    | some _ => g
    | none => { g with terminal := g.openTerminal socket request }
  | .openPortForward socket request =>
    match g.portForward.serving.find? socket with
    | some _ => g
    | none => { g with portForward := g.openPortForward socket request }
  | .resumeTerminal socket ok token =>
    match g.terminal.serving.find? socket with
    | none => g
    | some serving => { g with terminal := g.resumeTerminal serving ok token }
  | .resumePortForward socket ok token =>
    match g.portForward.serving.find? socket with
    | none => g
    | some serving => { g with portForward := g.resumePortForward serving ok token }
  | .finishTerminal sessionId => { g with terminal := g.terminal.finish sessionId }
  | .finishPortForward sessionId => { g with portForward := g.portForward.finish sessionId }
  | .register clusterId => g.register clusterId
  | .unregister clusterId connection => g.unregister clusterId connection

end SessionGateway

end Opsia.Realtime
