import Opsia.Timeline.Replay

/-!
# The timeline stream

`_timeline_sse_body` and the browser that reads it. The generator is interrupted at each of its
reads, at each frame and at its wait for a wake-up; what coverage reads give, which wake-ups
come and when time passes is part of the steps, and so is where a connection breaks. Frames that
were emitted and not received when it breaks are lost.

A cursor token is what is signed: it decodes under the binding it was made for, until it
expires.
-/

namespace Opsia.Timeline

/-! ## Cursors and frames -/

def cursorTtlSeconds : ℕ := 600

/-- A `TimelineCursor`. -/
structure TimelineCursor : Type where
  /-- the fingerprint of the `TimelineCursorBinding` -/
  binding : String
  sequence : ℕ
  /-- in seconds -/
  expiresAt : ℕ
  deriving DecidableEq, Repr

/-- `int(time.time())`. -/
def seconds (now : ℕ) : ℕ := now / 1000000

/-- `TimelineReplayCursorCodec.encode`. -/
def encodeCursor (binding : String) (now sequence : ℕ) : TimelineCursor :=
  ⟨binding, sequence, seconds now + cursorTtlSeconds⟩

/-- `TimelineReplayCursorCodec.decode`. -/
def TimelineCursor.decode (cursor : TimelineCursor) (binding : String) (now : ℕ) : Option ℕ :=
  if cursor.expiresAt ≤ seconds now then none
  else if cursor.binding ≠ binding then none
  else some cursor.sequence

inductive TimelineStreamFrame (ψ : Type) : Type where
  | coverage (cursor : TimelineCursor)
  | event (cursor : TimelineCursor) (event : TimelineEvent (TimelineFact ψ))
  | resyncRequired (cursor : TimelineCursor)
  | error (cursor : TimelineCursor)

structure TimelineReadResolution (ψ : Type) : Type where
  workspaceId : String
  binding : String
  predicate : TimelineEvidencePredicate ψ
  maxBatchEvents : ℕ

/-! ## The generator -/

/-- Where `_timeline_sse_body` is interrupted. -/
inductive StreamStage (ψ : Type) : Type where
  /-- the first coverage read -/
  | starting
  /-- the read of the cursor row, at the head of the loop -/
  | replaying
  /-- the read of the records up to a high water -/
  | reading (highWater : ℕ)
  /-- the loop over the records; whether the page was full -/
  | emitting (records : List (TimelineLedgerEvent (TimelineFact ψ))) (highWater : ℕ) (full : Bool)
  /-- the coverage read after the records -/
  | refreshing (highWater : ℕ) (full : Bool)
  /-- `subscription.next` -/
  | waiting
  deriving DecidableEq

/-- The variables of `_timeline_sse_body`. -/
structure StreamSession (ψ : Type) : Type where
  delivered : ℕ
  coverageRefreshDue : Bool
  stage : StreamStage ψ
  deriving DecidableEq

/-- What a coverage read gives, against the coverage that was delivered. -/
inductive CoverageRead : Type where
  | failed
  | unchanged
  | additions
  deriving DecidableEq, Repr

/-- How the wait for a wake-up ends. -/
inductive WakeUp : Type where
  | appended
  | timeout
  | overflow
  | closed
  deriving DecidableEq, Repr

/-- The database, the clock, the generator, and the browser: the frames on their way, the cursor
of the last frame it received, and its events. -/
structure StreamState (ψ : Type) : Type where
  ledger : LedgerState (TimelineFact ψ)
  now : ℕ
  session : Option (StreamSession ψ)
  inFlight : List (TimelineStreamFrame ψ)
  cursor : TimelineCursor
  received : List (TimelineEvent (TimelineFact ψ))

variable {ψ : Type}

/-- A browser that holds a cursor, before anything was appended. -/
def StreamState.start (cursor : TimelineCursor) : StreamState ψ := ⟨.empty, 0, none, [], cursor, []⟩

/-- The generator goes on in another state. -/
def StreamState.goOn (s : StreamState ψ) (session : StreamSession ψ) : StreamState ψ :=
  { s with session := some session }

/-- `yield encode_sse_frame`, and then the generator goes on. -/
def StreamState.emit (s : StreamState ψ) (frame : TimelineStreamFrame ψ)
    (session : Option (StreamSession ψ)) : StreamState ψ :=
  { s with inFlight := s.inFlight ++ [frame], session := session }

section Generator

variable (r : TimelineReadResolution ψ) (s : StreamState ψ) (session : StreamSession ψ)

def StreamState.cursorAt (sequence : ℕ) : TimelineCursor := encodeCursor r.binding s.now sequence

/-- A coverage frame. -/
def StreamState.coverageAt (sequence : ℕ) : TimelineStreamFrame ψ :=
  .coverage (s.cursorAt r sequence)

/-- The end of the generator with an error. -/
def StreamState.failStream : StreamState ψ := s.emit (.error (s.cursorAt r session.delivered)) none

/-- The end of the loop's body: a full page is drained before the wait. -/
def StreamSession.afterPage (highWater : ℕ) (full : Bool) : StreamSession ψ :=
  if full then { session with stage := .replaying }
  else { session with delivered := max session.delivered highWater, stage := .waiting }

/-- One record of the page. -/
def StreamState.emitRecord (record : TimelineLedgerEvent (TimelineFact ψ))
    (records : List (TimelineLedgerEvent (TimelineFact ψ))) (highWater : ℕ) (full : Bool) :
    StreamState ψ :=
  let rest := { session with stage := .emitting records highWater full }
  if record.sequence ≤ session.delivered then s.goOn rest
  else
    let rest := { rest with delivered := record.sequence }
    if r.predicate.matchesStream s.now record.event then
      s.emit (.event (s.cursorAt r record.sequence) record.event) (some rest)
    else s.goOn rest

/-- The generator goes on after a statement or a frame. -/
def StreamState.resume : StreamState ψ :=
  match session.stage with
  | .starting | .refreshing _ _ | .waiting => s
  | .replaying =>
    let cursorState := s.ledger.cursorState r.workspaceId
    if resyncRequired session.delivered cursorState.2 then
      s.emit (.resyncRequired (s.cursorAt r cursorState.1)) none
    else s.goOn { session with stage := .reading cursorState.1 }
  | .reading highWater =>
    let records := s.ledger.replayRecords r.workspaceId r.predicate session.delivered highWater
      s.now r.maxBatchEvents
    s.goOn { session with stage := .emitting records highWater (r.maxBatchEvents ≤ records.length) }
  | .emitting (record :: records) highWater full =>
    s.emitRecord r session record records highWater full
  | .emitting [] highWater full =>
    if session.coverageRefreshDue then
      s.goOn { session with stage := .refreshing highWater full }
    else s.goOn (session.afterPage highWater full)

/-- A coverage read ends. -/
def StreamState.readCoverage (read : CoverageRead) : StreamState ψ :=
  match session.stage, read with
  | .starting, .failed => s.failStream r session
  | .starting, .unchanged => s.goOn { session with stage := .replaying }
  | .starting, .additions =>
    s.emit (s.coverageAt r session.delivered) (some { session with stage := .replaying })
  | .refreshing _ _, .failed => s.failStream r session
  | .refreshing highWater full, .unchanged =>
    s.goOn ({ session with coverageRefreshDue := false }.afterPage highWater full)
  | .refreshing highWater full, .additions =>
    s.emit (s.coverageAt r (max session.delivered highWater))
      (some ({ session with coverageRefreshDue := false }.afterPage highWater full))
  | _, _ => s

/-- The wait for a wake-up ends; whether coverage is due by then. -/
def StreamState.wakeUp (wake : WakeUp) (refreshDue : Bool) : StreamState ψ :=
  match session.stage, wake with
  | .waiting, .closed => s.failStream r session
  | .waiting, .appended | .waiting, .timeout | .waiting, .overflow =>
    s.goOn { session with coverageRefreshDue := refreshDue, stage := .replaying }
  | _, _ => s

end Generator

/-! ## The browser -/

/-- The browser takes the first frame on its way. -/
def StreamState.receive (s : StreamState ψ) : StreamState ψ :=
  match s.inFlight with
  | [] => s
  | .coverage cursor :: rest => { s with inFlight := rest, cursor := cursor }
  | .event cursor event :: rest =>
    { s with inFlight := rest, cursor := cursor, received := s.received ++ [event] }
  | .resyncRequired _ :: rest | .error _ :: rest => { s with inFlight := rest }

/-- `stream_timeline_events`, up to the generator: a request with the cursor of the browser. -/
def StreamState.connect (r : TimelineReadResolution ψ) (s : StreamState ψ) : StreamState ψ :=
  match s.session, s.inFlight, s.cursor.decode r.binding s.now with
  | none, [], some afterSequence => s.goOn ⟨afterSequence, false, .starting⟩
  | _, _, _ => s

/-! ## Steps -/

/-- What happens next. -/
inductive StreamAction (ψ : Type) : Type where
  | ledger (action : LedgerAction (TimelineFact ψ))
  | tick (elapsed : ℕ)
  | connect
  | resume
  | coverage (read : CoverageRead)
  | wake (wake : WakeUp) (refreshDue : Bool)
  | receive
  | disconnect

/-- One step, for the query of a resolution. -/
def StreamState.step (r : TimelineReadResolution ψ) (s : StreamState ψ) :
    StreamAction ψ → StreamState ψ
  | .ledger action => { s with ledger := s.ledger.step action }
  | .tick elapsed => { s with now := s.now + elapsed }
  | .connect => s.connect r
  | .resume => s.session.elim s fun session => s.resume r session
  | .coverage read => s.session.elim s fun session => s.readCoverage r session read
  | .wake wake refreshDue => s.session.elim s fun session => s.wakeUp r session wake refreshDue
  | .receive => s.receive
  | .disconnect => { s with session := none, inFlight := [] }

/-- The rows that a step commits. -/
def StreamState.committed (s : StreamState ψ) :
    StreamAction ψ → List (TimelineLedgerEvent (TimelineFact ψ))
  | .ledger action => (s.ledger.step action).rows.drop s.ledger.rows.length
  | .tick _ | .connect | .resume | .coverage _ | .wake _ _ | .receive | .disconnect => []

/-! ## The ledger in a step -/

section Ledger

variable {r : TimelineReadResolution ψ} {s : StreamState ψ} {session : StreamSession ψ}

theorem ledger_resume : (s.resume r session).ledger = s.ledger := by
  obtain ⟨delivered, due, stage⟩ := session
  cases stage with
  | starting | refreshing highWater full | waiting | reading highWater => rfl
  | replaying => simp only [StreamState.resume]; split <;> rfl
  | emitting records highWater full =>
    cases records with
    | nil => simp only [StreamState.resume]; split <;> rfl
    | cons record records =>
      simp only [StreamState.resume, StreamState.emitRecord]
      split
      · rfl
      · split <;> rfl

theorem ledger_readCoverage {read : CoverageRead} :
    (s.readCoverage r session read).ledger = s.ledger := by
  obtain ⟨delivered, due, stage⟩ := session
  cases stage <;> cases read <;> rfl

theorem ledger_wakeUp {wake : WakeUp} {refreshDue : Bool} :
    (s.wakeUp r session wake refreshDue).ledger = s.ledger := by
  obtain ⟨delivered, due, stage⟩ := session
  cases stage <;> cases wake <;> rfl

theorem ledger_receive : s.receive.ledger = s.ledger := by
  rw [StreamState.receive]
  rcases s.inFlight with _ | ⟨frame, rest⟩
  · rfl
  · cases frame <;> rfl

theorem ledger_connect : (s.connect r).ledger = s.ledger := by
  rw [StreamState.connect]
  split <;> rfl

theorem ledger_step (action : StreamAction ψ) : (∃ step, action = .ledger step) ∨
    ((s.step r action).ledger = s.ledger ∧ s.committed action = []) := by
  have helim : ∀ f : StreamSession ψ → StreamState ψ, (∀ session, (f session).ledger = s.ledger) →
      (s.session.elim s f).ledger = s.ledger := by
    intro f hf
    cases s.session with
    | none => rfl
    | some session => exact hf session
  cases action with
  | ledger step => exact Or.inl ⟨step, rfl⟩
  | tick elapsed | disconnect => exact Or.inr ⟨rfl, rfl⟩
  | connect => exact Or.inr ⟨ledger_connect, rfl⟩
  | resume => exact Or.inr ⟨helim _ fun _ => ledger_resume, rfl⟩
  | coverage read => exact Or.inr ⟨helim _ fun _ => ledger_readCoverage, rfl⟩
  | wake wake refreshDue => exact Or.inr ⟨helim _ fun _ => ledger_wakeUp, rfl⟩
  | receive => exact Or.inr ⟨ledger_receive, rfl⟩

end Ledger

end Opsia.Timeline
