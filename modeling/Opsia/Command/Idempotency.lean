import Opsia.Command.ResourceAction
import Opsia.Lib.Runs
import Opsia.Lib.Table

/-!
# One command for an Idempotency-Key

Every request that carries the key of one user in one workspace, as a session of
its own: it is received, validated against the inventory of that moment, looks
for a command under the derived id, and is accepted in a later transaction
(`accept_command_with_receipt_stage`), whose insert of the logical row does
nothing on a conflict.

In the runs where an acceptance finds no row under the id, and where a request
for an accepted command still finds the inventory it names, the key stands for
one command (`run_idempotent`). Two requests that both looked before either was
accepted break it (`concurrent_requests_accepted_twice`).
-/

namespace Opsia.ResourceAction

open Runs

/-! ## The command row and its receipt -/

/-- What the replay check reads of a row of `agent_commands`. -/
structure CommandRow : Type where
  commandId : String
  workspaceId : String
  correlationId : Uuid
  confirmationEventId : Option Uuid
  /-- `payload.diff.basis.request_fingerprint` -/
  requestFingerprint : Option String
  status : CommandStatus
  deriving DecidableEq, Repr

structure CommandReceipt : Type where
  commandId : String
  eventId : Uuid
  auditEventId : Uuid
  correlationId : Uuid
  status : CommandStatus
  deriving DecidableEq, Repr

/-- An accepted `command.requested` event. -/
structure CommandRequested : Type where
  eventId : Uuid
  correlationId : Uuid
  commandId : String
  action : String
  requestFingerprint : String
  deriving DecidableEq, Repr

/-- `command_accepted_response`. -/
def CommandRequested.receipt (event : CommandRequested) : CommandReceipt where
  commandId := event.commandId
  eventId := event.eventId
  auditEventId := event.eventId
  correlationId := event.correlationId
  status := .queued

def replayResourceActionReceipt (commands : Table CommandRow.commandId)
    (workspaceId commandId requestFingerprint idempotencyReusedCode : String) :
    Except HttpError (Option CommandReceipt) :=
  match (commands.find? commandId).filter (·.workspaceId = workspaceId) with
  | none => .ok none
  | some row =>
    if row.requestFingerprint ≠ some requestFingerprint then
      .error ⟨409, .coded idempotencyReusedCode
        "Idempotency-Key was already used for another resource action."⟩
    else
      match row.confirmationEventId with
      | none => .error (conflict "resource action receipt is incomplete")
      | some eventId =>
        .ok (some { commandId, eventId, auditEventId := eventId,
                    correlationId := row.correlationId, status := row.status })

/-! ## The requests of one key -/

/-- How far the handler of a request is. -/
inductive Stage : Type where
  | received
  | validated (prepared : Prepared)
  /-- no command was found under the derived id -/
  | cleared (prepared : Prepared)
  | answered (response : Except HttpError CommandReceipt)

/-- A request and its handler. -/
structure Session : Type where
  request : Request
  stage : Stage

/-- The answer of a session. -/
def Session.answer (session : Session) : Option (Except HttpError CommandReceipt) :=
  match session.stage with
  | .answered response => some response
  | .received | .validated _ | .cleared _ => none

/-- The command table, the accepted events, and the requests of the key. -/
structure State : Type where
  commands : Table CommandRow.commandId
  events : List CommandRequested
  sessions : List Session
  nextId : Uuid

/-- Before the first request. -/
def State.empty : State := ⟨.empty, [], [], 0⟩

/-- What happens next. -/
inductive Action : Type where
  /-- a request arrives -/
  | receive (request : Request)
  /-- the handler of a request validates it against what it reads now -/
  | validate (i : ℕ) (view : ResourceView)
  /-- `replay_resource_action_receipt` -/
  | replay (i : ℕ)
  /-- `accept_resource_control` -/
  | accept (i : ℕ) (view : ResourceView)
  /-- a command moves on -/
  | progress (commandId : String) (status : CommandStatus)

/-- The handler of a request goes on to a stage. -/
def State.advance (s : State) (i : ℕ) (session : Session) (stage : Stage) : State :=
  { s with sessions := s.sessions.set i { session with stage } }

/-- A command changes its status. -/
def CommandRow.progress (row : CommandRow) (status : CommandStatus) : CommandRow :=
  { row with status }

theorem CommandRow.commandId_progress (row : CommandRow) (status : CommandStatus) :
    (row.progress status).commandId = row.commandId := rfl

/-- The guards of `accept_resource_control`. The requests are confirmed, so they
execute directly and the management guard lets them pass. -/
def acceptanceGuards (g : Gateway) (view : ResourceView) (p : Prepared) : Except HttpError Unit :=
  match p.namespaceName.elim (.ok ()) (validateControlNamespace g) with
  | .error e => .error e
  | .ok () =>
    if view.deployAllowed p.clusterId then .ok ()
    else .error ⟨403, .text "resource access denied"⟩

/-- The event `accept_body` records. -/
def State.nextEvent (s : State) (commandId : String) (p : Prepared) : CommandRequested where
  eventId := s.nextId
  correlationId := s.nextId + 1
  commandId := commandId
  action := p.action
  requestFingerprint := p.requestFingerprint

/-- The row `agent_command_insert` writes for the event. -/
def CommandRequested.row (event : CommandRequested) (workspaceId : String) : CommandRow where
  commandId := event.commandId
  workspaceId := workspaceId
  correlationId := event.correlationId
  confirmationEventId := some event.eventId
  requestFingerprint := some event.requestFingerprint
  status := .queued

/-- `accept_command_with_receipt_stage`: the event, the logical row unless its id
is taken, and the receipt event, which needs an identity, in one transaction. -/
def acceptCommandWithReceiptStage (workspaceId commandId : String) (s : State) (p : Prepared) :
    Except HttpError CommandReceipt × State :=
  if workspaceId = "" ∨ PyText.strip p.clusterId = "" then
    (.error ⟨500, .text "operation events require workspace, command, and cluster identity"⟩, s)
  else
    let event := s.nextEvent commandId p
    (.ok event.receipt,
      { s with
        commands := s.commands.insertIfAbsent (event.row workspaceId)
        events := s.events ++ [event]
        nextId := s.nextId + 2 })

def acceptResourceControl (g : Gateway) (k : IdempotencyKey) (view : ResourceView) (s : State)
    (p : Prepared) : Except HttpError CommandReceipt × State :=
  match acceptanceGuards g view p with
  | .error e => (.error e, s)
  | .ok () => acceptCommandWithReceiptStage k.workspaceId (resourceActionCommandId g k) s p

/-- The step of a handler that validates its request. -/
def validateStep (g : Gateway) (k : IdempotencyKey) (view : ResourceView) (s : State) (i : ℕ)
    (session : Session) : State :=
  match session.request.prepare g k view with
  | .error e => s.advance i session (.answered (.error e))
  | .ok p => s.advance i session (.validated p)

/-- The step of a handler that looks for a command. -/
def replayStep (g : Gateway) (k : IdempotencyKey) (s : State) (i : ℕ) (session : Session)
    (p : Prepared) : State :=
  match replayResourceActionReceipt s.commands k.workspaceId (resourceActionCommandId g k)
    p.requestFingerprint p.idempotencyReusedCode with
  | .error e => s.advance i session (.answered (.error e))
  | .ok (some receipt) => s.advance i session (.answered (.ok receipt))
  | .ok none => s.advance i session (.cleared p)

/-- The step of a handler that accepts its command. -/
def acceptStep (g : Gateway) (k : IdempotencyKey) (view : ResourceView) (s : State) (i : ℕ)
    (session : Session) (p : Prepared) : State :=
  let (response, s') := acceptResourceControl g k view s p
  s'.advance i session (.answered response)

/-- One step. A handler that is not at the stage a step belongs to does nothing. -/
def step (g : Gateway) (k : IdempotencyKey) (s : State) : Action → State
  | .receive request => { s with sessions := s.sessions ++ [⟨request, .received⟩] }
  | .validate i view =>
    match s.sessions[i]? with
    | some ⟨request, .received⟩ => validateStep g k view s i ⟨request, .received⟩
    | _ => s
  | .replay i =>
    match s.sessions[i]? with
    | some ⟨request, .validated p⟩ => replayStep g k s i ⟨request, .validated p⟩ p
    | _ => s
  | .accept i view =>
    match s.sessions[i]? with
    | some ⟨request, .cleared p⟩ => acceptStep g k view s i ⟨request, .cleared p⟩ p
    | _ => s
  | .progress commandId status =>
    { s with
      commands := s.commands.modify commandId (·.progress status)
        fun row => row.commandId_progress status }

/-! ## What an idempotency key promises -/

/-- The step answers a request. -/
def Answers (e : Entry State Action) (request : Request)
    (response : Except HttpError CommandReceipt) : Prop :=
  ∃ (i : ℕ) (session session' : Session), e.pre.sessions[i]? = some session ∧
    session.answer = none ∧ e.post.sessions[i]? = some session' ∧ session'.answer = some response ∧
    session'.request = request

/-- At most one event is accepted under the derived id. An answer given once one
is accepted is its receipt for a request of the same fingerprint, and a 409 that
stages nothing for any other. -/
structure Idempotent (g : Gateway) (k : IdempotencyKey) (e : Entry State Action) : Prop where
  once : (e.post.events.filter (·.commandId = resourceActionCommandId g k)).length ≤ 1
  same : ∀ request response, Answers e request response →
    ∀ event ∈ e.post.events, event.commandId = resourceActionCommandId g k →
      event.requestFingerprint = request.fingerprint g k →
      ∃ receipt, response = .ok receipt ∧ receipt.eventId = event.eventId ∧
        receipt.correlationId = event.correlationId
  other : ∀ request response, Answers e request response →
    ∀ event ∈ e.post.events, event.commandId = resourceActionCommandId g k →
      event.requestFingerprint ≠ request.fingerprint g k →
      (∃ error, response = .error error ∧ error.statusCode = 409) ∧
        e.post.commands = e.pre.commands ∧ e.post.events = e.pre.events

/-- The step does not run into the two gaps: an acceptance finds no row under the
id, and a request that is validated for an accepted command is still valid on the
inventory, or, when it is another request, passes the checks that read nothing. -/
def undisturbed (g : Gateway) (k : IdempotencyKey) (s : State) : Action → Bool
  | .accept i _ =>
    match s.sessions[i]? with
    | some ⟨_, .cleared _⟩ => (s.commands.find? (resourceActionCommandId g k)).isNone
    | _ => true
  | .validate i view =>
    match s.sessions[i]?, s.commands.find? (resourceActionCommandId g k) with
    | some ⟨request, .received⟩, some row =>
      if row.requestFingerprint = some (request.fingerprint g k) then
        (request.prepare g k view).isOk
      else (request.preflight g).isOk
    | _, _ => true
  | .receive _ | .replay _ | .progress _ _ => true

/-! ## The invariant -/

/-- The row and the event of the accepted request. -/
structure Accepted (k : IdempotencyKey) (c : String) (row : CommandRow)
    (event : CommandRequested) : Prop where
  commandId : event.commandId = c
  workspaceId : row.workspaceId = k.workspaceId
  fingerprint : row.requestFingerprint = some event.requestFingerprint
  eventId : row.confirmationEventId = some event.eventId
  correlationId : row.correlationId = event.correlationId

/-- Nothing was accepted under the id, or one request was. -/
def Authority (k : IdempotencyKey) (c : String) (s : State) : Prop :=
  (s.commands.find? c = none ∧ s.events = []) ∨
    ∃ row event, s.commands.find? c = some row ∧ s.events = [event] ∧ Accepted k c row event

/-- A handler past its validation carries the fingerprint of its request. -/
def Session.Carries (g : Gateway) (k : IdempotencyKey) (session : Session) : Prop :=
  match session.stage with
  | .validated p | .cleared p => p.requestFingerprint = session.request.fingerprint g k
  | .received | .answered _ => True

/-- The invariant of the runs without a gap. -/
structure Inv (g : Gateway) (k : IdempotencyKey) (s : State) : Prop where
  authority : Authority k (resourceActionCommandId g k) s
  carries : ∀ session ∈ s.sessions, session.Carries g k

theorem inv_empty (g : Gateway) (k : IdempotencyKey) : Inv g k State.empty where
  authority := Or.inl ⟨rfl, rfl⟩
  carries := fun _ h => absurd h List.not_mem_nil

variable {k : IdempotencyKey} {session : Session} {response : Except HttpError CommandReceipt}

variable {s : State} {g : Gateway} {e : Entry State Action} {stage : Stage}

variable {i : ℕ} {a : Action} {c : String}

theorem Authority.once (h : Authority k c s) :
    (s.events.filter (·.commandId = c)).length ≤ 1 := by
  obtain ⟨-, he⟩ | ⟨_, event, -, he, -⟩ := h
  · simp [he]
  · rw [he]
    exact (List.length_filter_le ..).trans (by simp)

theorem Authority.row_of_event (h : Authority k c s) {event : CommandRequested}
    (he : event ∈ s.events) :
    ∃ row, s.commands.find? c = some row ∧ Accepted k c row event := by
  obtain ⟨-, hnil⟩ | ⟨row, event', hrow, hone, hacc⟩ := h
  · rw [hnil] at he
    exact absurd he List.not_mem_nil
  · rw [hone] at he
    obtain rfl := List.mem_singleton.mp he
    exact ⟨row, hrow, hacc⟩

theorem carries_set {sessions : List Session} (h : ∀ x ∈ sessions, x.Carries g k)
    (hsession : session.Carries g k) :
    ∀ x ∈ sessions.set i session, x.Carries g k := by
  intro x hx
  obtain hx | rfl := List.mem_or_eq_of_mem_set hx
  · exact h x hx
  · exact hsession

theorem Inv.advance (h : Inv g k s) (hstage : Session.Carries g k { session with stage }) :
    Inv g k (s.advance i session stage) where
  authority := h.authority
  carries := carries_set h.carries hstage

/-- A step that moves no handler on answers nobody. -/
theorem not_answers (h : ∀ (i : ℕ) (session : Session), e.pre.sessions[i]? = some session →
      e.post.sessions[i]? = some session) {request : Request} :
    ¬ Answers e request response := by
  rintro ⟨i, session, session', hpre, hnone, hpost, hsome, -⟩
  have hsame := h i session hpre
  rw [hpost] at hsame
  cases hsame
  exact absurd (hnone.symm.trans hsome) (by simp)

theorem answers_of_set (hpost : e.post.sessions = e.pre.sessions.set i { session with stage })
    {request : Request} (h : Answers e request response) :
    stage = .answered response ∧ request = session.request := by
  obtain ⟨j, before, after, hpre, hnone, hafter, hsome, rfl⟩ := h
  rw [hpost] at hafter
  by_cases hij : i = j
  · subst hij
    have hlt : i < e.pre.sessions.length := (List.getElem?_eq_some_iff.mp hpre).1
    rw [List.getElem?_set_self hlt] at hafter
    cases hafter
    refine ⟨?_, rfl⟩
    unfold Session.answer at hsome
    split at hsome
    · rename_i r hr
      cases hsome
      exact hr
    · cases hsome
    · cases hsome
    · cases hsome
  · rw [List.getElem?_set_ne hij, hpre] at hafter
    cases hafter
    exact absurd (hnone.symm.trans hsome) (by simp)

theorem idempotent_of_not_answers (hinv : Inv g k e.post)
    (h : ∀ request response, ¬ Answers e request response) : Idempotent g k e where
  once := hinv.authority.once
  same := fun request response ha => absurd ha (h request response)
  other := fun request response ha => absurd ha (h request response)

theorem idempotent_of_answer (hinv : Inv g k s)
    (hsame : ∀ event ∈ s.events, event.requestFingerprint = session.request.fingerprint g k →
      ∃ receipt, response = .ok receipt ∧ receipt.eventId = event.eventId ∧
        receipt.correlationId = event.correlationId)
    (hother : ∀ event ∈ s.events, event.requestFingerprint ≠ session.request.fingerprint g k →
      ∃ error, response = .error error ∧ error.statusCode = 409) :
    Idempotent g k ⟨s, a, s.advance i session (.answered response)⟩ where
  once := hinv.authority.once
  same := by
    intro request response' ha event he hc hfp
    obtain ⟨hstage, rfl⟩ := answers_of_set rfl ha
    cases hstage
    exact hsame event he hfp
  other := by
    intro request response' ha event he hc hfp
    obtain ⟨hstage, rfl⟩ := answers_of_set rfl ha
    cases hstage
    exact ⟨hother event he hfp, rfl, rfl⟩

theorem idempotent_of_advance (hinv : Inv g k s) (hstage : ∀ response, stage ≠ .answered response) :
    Idempotent g k ⟨s, a, s.advance i session stage⟩ where
  once := hinv.authority.once
  same := fun _ response ha => absurd (answers_of_set rfl ha).1 (hstage response)
  other := fun _ response ha => absurd (answers_of_set rfl ha).1 (hstage response)

/-! ## The steps of a handler -/

section Steps

variable {g : Gateway} {k : IdempotencyKey} {s : State} {i : ℕ} {request : Request}
  {p : Prepared}

theorem validateStep_spec (hs : Inv g k s) (hi : s.sessions[i]? = some ⟨request, .received⟩)
    {view : ResourceView} (hok : undisturbed g k s (.validate i view) = true) {a : Action} :
    Inv g k (validateStep g k view s i ⟨request, .received⟩) ∧
      Idempotent g k ⟨s, a, validateStep g k view s i ⟨request, .received⟩⟩ := by
  unfold validateStep
  -- a refused request is not the accepted one, and passed what reads nothing
  have hrefused : ∀ e, request.prepare g k view = .error e →
      (e.statusCode = 409 ∨ request.preflight g = .error e) → ∀ event ∈ s.events,
      event.requestFingerprint ≠ request.fingerprint g k ∧ e.statusCode = 409 := by
    intro e he hkind event hevent
    obtain ⟨row, hrow, hacc⟩ := hs.authority.row_of_event hevent
    simp only [undisturbed, hi, hrow] at hok
    split_ifs at hok with hfp
    · rw [he] at hok
      cases hok
    · refine ⟨fun heq => hfp (by rw [hacc.fingerprint, heq]), ?_⟩
      obtain hcode | hpre := hkind
      · exact hcode
      · rw [hpre] at hok
        cases hok
  obtain ⟨e, hpre, he⟩ | ⟨e, he, hcode⟩ | ⟨p, hp, hfp⟩ := request.prepare_cases g k view
  · simp only [he]
    refine ⟨hs.advance trivial, idempotent_of_answer hs (fun event hevent hfp => ?_)
      fun event hevent _ => ⟨e, rfl, (hrefused e he (Or.inr hpre) event hevent).2⟩⟩
    exact absurd hfp (hrefused e he (Or.inr hpre) event hevent).1
  · simp only [he]
    refine ⟨hs.advance trivial, idempotent_of_answer hs (fun event hevent hfp => ?_)
      fun event hevent _ => ⟨e, rfl, hcode⟩⟩
    exact absurd hfp (hrefused e he (Or.inl hcode) event hevent).1
  · simp only [hp]
    exact ⟨hs.advance hfp, idempotent_of_advance hs fun _ h => by cases h⟩

theorem replayStep_spec (hs : Inv g k s) (hi : s.sessions[i]? = some ⟨request, .validated p⟩)
    {a : Action} :
    Inv g k (replayStep g k s i ⟨request, .validated p⟩ p) ∧
      Idempotent g k ⟨s, a, replayStep g k s i ⟨request, .validated p⟩ p⟩ := by
  have hcarries : p.requestFingerprint = request.fingerprint g k :=
    hs.carries _ (List.mem_of_getElem? hi)
  unfold replayStep replayResourceActionReceipt
  obtain ⟨hnone, hnil⟩ | ⟨row, event, hrow, hone, hacc⟩ := hs.authority
  · simp only [hnone, Option.filter_none]
    exact ⟨hs.advance hcarries, idempotent_of_advance hs fun _ h => by cases h⟩
  · have hfilter : (some row).filter (fun r : CommandRow => r.workspaceId = k.workspaceId) =
        some row := by simp [hacc.workspaceId]
    simp only [hrow, hfilter]
    split_ifs with hfp
    · -- another request holds the key
      refine ⟨hs.advance trivial, idempotent_of_answer hs (fun event' hevent heq => ?_)
        fun _ _ _ => ⟨_, rfl, rfl⟩⟩
      rw [hone] at hevent
      obtain rfl := List.mem_singleton.mp hevent
      exact absurd (by rw [hacc.fingerprint, heq, hcarries]) hfp
    · simp only [hacc.eventId]
      refine ⟨hs.advance trivial, idempotent_of_answer hs (fun event' hevent _ => ?_)
        fun event' hevent hne => ?_⟩
      · rw [hone] at hevent
        obtain rfl := List.mem_singleton.mp hevent
        exact ⟨_, rfl, rfl, hacc.correlationId⟩
      · rw [hone] at hevent
        obtain rfl := List.mem_singleton.mp hevent
        rw [hacc.fingerprint, hcarries, ne_eq, not_not] at hfp
        exact absurd (Option.some.inj hfp) hne

theorem acceptResourceControl_cases (view : ResourceView) (p : Prepared)
    (hnone : s.commands.find? (resourceActionCommandId g k) = none) :
    (∃ e, acceptResourceControl g k view s p = (.error e, s)) ∨
      ∃ commands row, let event := s.nextEvent (resourceActionCommandId g k) p
        acceptResourceControl g k view s p =
          (.ok event.receipt,
            { s with commands, events := s.events ++ [event], nextId := s.nextId + 2 }) ∧
        commands.find? (resourceActionCommandId g k) = some row ∧
        Accepted k (resourceActionCommandId g k) row event := by
  unfold acceptResourceControl acceptCommandWithReceiptStage
  rcases acceptanceGuards g view p with e | u
  · exact Or.inl ⟨e, rfl⟩
  · cases u
    split_ifs with hid
    · exact Or.inl ⟨_, rfl⟩
    · refine Or.inr ⟨_, (s.nextEvent (resourceActionCommandId g k) p).row k.workspaceId, rfl, ?_,
        ⟨rfl, rfl, rfl, rfl, rfl⟩⟩
      have hkey : resourceActionCommandId g k =
          ((s.nextEvent (resourceActionCommandId g k) p).row k.workspaceId).commandId := rfl
      rw [Table.find?_insertIfAbsent, hnone, if_pos hkey]
      rfl

theorem acceptStep_spec (hs : Inv g k s) (hi : s.sessions[i]? = some ⟨request, .cleared p⟩)
    {view : ResourceView} (hok : undisturbed g k s (.accept i view) = true) {a : Action} :
    Inv g k (acceptStep g k view s i ⟨request, .cleared p⟩ p) ∧
      Idempotent g k ⟨s, a, acceptStep g k view s i ⟨request, .cleared p⟩ p⟩ := by
  have hcarries : p.requestFingerprint = request.fingerprint g k :=
    hs.carries _ (List.mem_of_getElem? hi)
  have hnone : s.commands.find? (resourceActionCommandId g k) = none := by
    simpa only [undisturbed, hi, Option.isNone_iff_eq_none] using hok
  have hnil : s.events = [] := by
    obtain ⟨-, hnil⟩ | ⟨row, event, hrow, -⟩ := hs.authority
    · exact hnil
    · rw [hnone] at hrow
      cases hrow
  unfold acceptStep
  obtain ⟨e, he⟩ | ⟨commands, row, haccept, hrow, hacc⟩ :=
    acceptResourceControl_cases view p hnone
  · simp only [he]
    refine ⟨hs.advance trivial, idempotent_of_answer hs ?_ ?_⟩ <;> simp [hnil]
  · simp only [haccept, hnil, List.nil_append]
    have hauthority : Authority k (resourceActionCommandId g k)
        { s with commands, events := [s.nextEvent (resourceActionCommandId g k) p],
                 nextId := s.nextId + 2 } := Or.inr ⟨row, _, hrow, rfl, hacc⟩
    refine ⟨⟨hauthority, carries_set hs.carries trivial⟩, ⟨hauthority.once, ?_, ?_⟩⟩
    · -- the answer is the receipt of the only event
      intro request' response ha event he hc hfp
      obtain ⟨hstage, rfl⟩ := answers_of_set rfl ha
      cases hstage
      obtain rfl := List.mem_singleton.mp he
      exact ⟨_, rfl, rfl, rfl⟩
    · intro request' response ha event he hc hne
      obtain ⟨hstage, rfl⟩ := answers_of_set rfl ha
      obtain rfl := List.mem_singleton.mp he
      exact absurd hcarries hne

end Steps

theorem Authority.progress (h : Authority k c s) (commandId : String) (status : CommandStatus) :
    Authority k c { s with
      commands := s.commands.modify commandId (·.progress status)
        fun row => row.commandId_progress status } := by
  obtain ⟨hnone, hnil⟩ | ⟨row, event, hrow, hone, hacc⟩ := h
  · refine Or.inl ⟨?_, hnil⟩
    rw [Table.find?_modify, hnone]
    simp
  · by_cases hc : commandId = c
    · subst hc
      refine Or.inr ⟨row.progress status, event, ?_, hone,
        ⟨hacc.commandId, hacc.workspaceId, hacc.fingerprint, hacc.eventId, hacc.correlationId⟩⟩
      rw [Table.find?_modify_self, hrow]
      rfl
    · refine Or.inr ⟨row, event, ?_, hone, hacc⟩
      rw [Table.find?_modify_ne _ _ _ (Ne.symm hc), hrow]

/-- **One step.** A step that runs into no gap keeps the invariant and the promise. -/
theorem step_idempotent (hs : Inv g k s) (hok : undisturbed g k s a = true) :
    Inv g k (step g k s a) ∧ Idempotent g k ⟨s, a, step g k s a⟩ := by
  have hidle : Inv g k s ∧ Idempotent g k ⟨s, a, s⟩ :=
    ⟨hs, idempotent_of_not_answers hs fun _ _ => not_answers fun _ _ h => h⟩
  cases a with
  | receive request =>
    have hinv : Inv g k (step g k s (.receive request)) := by
      refine ⟨hs.authority, fun session hsession => ?_⟩
      obtain hold | hnew := List.mem_append.mp hsession
      · exact hs.carries session hold
      · obtain rfl := List.mem_singleton.mp hnew
        trivial
    refine ⟨hinv, idempotent_of_not_answers hinv fun _ _ => not_answers fun i session hi => ?_⟩
    have hlt : i < s.sessions.length := (List.getElem?_eq_some_iff.mp hi).1
    exact (List.getElem?_append_left hlt).trans hi
  | validate i view =>
    simp only [step]
    split
    · rename_i hi
      exact validateStep_spec hs hi hok
    · exact hidle
  | replay i =>
    simp only [step]
    split
    · rename_i hi
      exact replayStep_spec hs hi
    · exact hidle
  | accept i view =>
    simp only [step]
    split
    · rename_i hi
      exact acceptStep_spec hs hi hok
    · exact hidle
  | progress commandId status =>
    have hinv : Inv g k (step g k s (.progress commandId status)) :=
      ⟨hs.authority.progress commandId status, hs.carries⟩
    exact ⟨hinv, idempotent_of_not_answers hinv fun _ _ => not_answers fun _ _ h => h⟩

/-- **One command for a key.** In every run whose acceptances find no row under
the id, and whose requests for an accepted command still find the inventory they
name, the key stands for one command. -/
theorem run_idempotent (g : Gateway) (k : IdempotencyKey) (actions : List Action)
    (hok : Meets (step g k) (fun s a => undisturbed g k s a = true) State.empty actions) :
    ∀ e ∈ trace (step g k) State.empty actions, Idempotent g k e := by
  have hkeeps : ∀ s a, Inv g k s → undisturbed g k s a = true → Inv g k (step g k s a) :=
    fun s a hs hok => (step_idempotent hs hok).1
  intro e he
  obtain ⟨hpre, hmeets, hpost⟩ := trace_invariant_of_meets hkeeps (inv_empty g k) hok e he
  obtain ⟨s, a, s'⟩ := e
  obtain rfl : s' = step g k s a := hpost
  exact (step_idempotent hpre hmeets).2

/-! ## Two requests at once -/

/-- A user of a workspace and a key. -/
def sampleKey : IdempotencyKey := ⟨"ws-1", "user-1", "key-00001"⟩

/-- A CronJob of the inventory. -/
def nightly : ResourceRef := ⟨"batch", "v1", "CronJob", some "shop", "nightly", "uid-1"⟩

/-- The capability revision the operator saw. -/
def sampleRevision : String := "3fc0e5c4c484797a0035141c53252fba96ec5923ec719b5c73d2b9078b31bf08"

/-- The operator triggers the CronJob. -/
def triggerNightly : Request :=
  .cronJobControl .trigger "cluster-1" "shop" "nightly"
    ⟨none, true, "resource-1", "snap-1", sampleRevision, nightly⟩

/-- The serialised content of the request. -/
def triggerContent : String :=
  "\x7b\"action\":\"k8s.batch.v1.cronjobs.trigger\"," ++
  "\"capability_revision\":\"3fc0e5c4c484797a0035141c53252fba96ec5923ec719b5c73d2b9078b31bf08\"," ++
  "\"reason\":\"trigger cronjob/nightly\",\"resource\":\x7b\"api_group\":\"batch\",\"kind\":\"CronJob\"," ++
  "\"name\":\"nightly\",\"namespace\":\"shop\",\"uid\":\"uid-1\",\"version\":\"v1\"\x7d,\"resource_id\":\"resource-1\"," ++
  "\"snapshot_id\":\"snap-1\",\"user_id\":\"user-1\",\"workspace_id\":\"ws-1\"\x7d"

/-- The hashes and the serialisation of the request. -/
def sampleGateway : Gateway where
  sha256 text :=
    if text = triggerContent then
      "bca96256adb6aa905c973d4fadb0dd1f3042c85051805b9e48085bc37fe66ed3"
    else if text = "ws-1\x00user-1\x00key-00001" then
      "daaa0a7b81749a8f146845ed1e418ecb9666400281f92997dc95be2fcd420958"
    else ""
  dumps value :=
    if value = .obj (actionFields sampleKey "k8s.batch.v1.cronjobs.trigger"
      "trigger cronjob/nightly" ⟨none, true, "resource-1", "snap-1", sampleRevision, nightly⟩) then
      triggerContent
    else ""
  casefold text := if text = "CronJob" then "cronjob" else text
  controlNamespaceAllowed _ := true

/-- The inventory still shows what the operator saw. -/
def sampleView : ResourceView where
  resource _ :=
    some ⟨"snap-1", "cluster-1", "batch/v1", "CronJob", some "shop", "nightly", "uid-1", "7"⟩
  capabilities _ := ⟨sampleRevision, ["cronjob.trigger"]⟩
  revisionSelection _ _ _ := none
  deployAllowed _ := true

/-- Two sessions send the request, and both look before either is accepted. -/
def concurrentRequests : List Action :=
  [.receive triggerNightly, .receive triggerNightly, .validate 0 sampleView,
    .validate 1 sampleView, .replay 0, .replay 1, .accept 0 sampleView, .accept 1 sampleView]

/-- Two events are accepted for one command. -/
theorem concurrent_requests_accepted_twice :
    ¬ ∀ (g : Gateway) (k : IdempotencyKey) (actions : List Action),
      ∀ e ∈ trace (step g k) State.empty actions, Idempotent g k e := by
  intro h
  have htwice : (trace (step sampleGateway sampleKey) State.empty concurrentRequests).any
      (fun e => 1 < (e.post.events.filter
        (·.commandId = resourceActionCommandId sampleGateway sampleKey)).length) = true := by
    decide +kernel
  obtain ⟨e, he, hlt⟩ := List.any_eq_true.mp htwice
  exact absurd (h sampleGateway sampleKey concurrentRequests e he).once
    (Nat.not_le.mpr (of_decide_eq_true hlt))

/-- One session after the other, while the command moves on: the second is
answered with the receipt of the first. -/
def repeatedRequest : List Action :=
  [.receive triggerNightly, .validate 0 sampleView, .replay 0, .accept 0 sampleView,
    .progress (resourceActionCommandId sampleGateway sampleKey) .running,
    .receive triggerNightly, .validate 1 sampleView, .replay 1]

theorem repeated_request_idempotent :
    let actions := repeatedRequest
    ∀ e ∈ trace (step sampleGateway sampleKey) State.empty actions,
      Idempotent sampleGateway sampleKey e := by
  refine run_idempotent sampleGateway sampleKey repeatedRequest ?_
  unfold Meets
  decide +kernel

end Opsia.ResourceAction
