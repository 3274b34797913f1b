import Opsia.Event.Ledger
import Opsia.Lib.PyText

/-!
# The transactional outbox and the dead letters

`packages/storage/repositories/outbox.py` and `dead_letter.py`. A row of the
outbox is staged in the transaction of the handler that returned the event,
leased by a relay, and marked sent; rows are keyed by `event_id`, in the order of
their `id`. Dead letters are only ever added.
-/

namespace Opsia.Event

/-! ## Dead letters -/

/-- The `payload` document of a dead letter. -/
inductive DeadLetterPayload : Type where
  /-- the body of the event -/
  | body (payload : String)
  /-- `{"raw": …}`, the text of an undecodable message -/
  | raw (text : String)
  deriving DecidableEq, Repr

/-- A row of `event_dead_letters` with the status `open`. -/
structure EventDeadLetter : Type where
  originalEventId : String
  originalSubject : String
  consumer : String
  correlationId : String
  attempts : ℕ
  error : String
  payload : DeadLetterPayload
  deriving DecidableEq, Repr

def errorMessageLimit : ℕ := 2000

def compactError (error : String) : String := String.ofList (error.toList.take errorMessageLimit)

def rawDeadLetterSubject : String := "__decode_failed__"

/-- The row of `record_dead_letter`. -/
def recordDeadLetter (evt : EventEnvelope) (consumer error : String) (attempts : ℕ) :
    EventDeadLetter where
  originalEventId := evt.eventId
  originalSubject := evt.subject
  consumer := consumer
  correlationId := evt.correlationId
  attempts := attempts
  error := compactError error
  payload := .body evt.payload

/-- The row of `record_raw_dead_letter`, with the minted identifier `id`. -/
def recordRawDeadLetter (id : Uuid) (raw : List UInt8) (consumer error : String) :
    EventDeadLetter where
  originalEventId := "decode-failure:" ++ toString id
  originalSubject := rawDeadLetterSubject
  consumer := consumer
  correlationId := "decode-failure:" ++ toString id
  attempts := 1
  error := compactError error
  payload := .raw (PyText.decodeReplace raw)

/-! ## The outbox -/

/-- A row of `outbox`: the envelope, the lease of a relay, and when it was sent. -/
structure OutboxModel : Type where
  evt : EventEnvelope
  leaseId : Option Uuid
  leasedUntil : Option Timestamp
  sentAt : Option Timestamp
  deriving DecidableEq, Repr

/-- The unique column `event_id`. -/
def OutboxModel.eventId (r : OutboxModel) : String := r.evt.eventId

/-- The table `outbox`. -/
abbrev Outbox : Type := Table OutboxModel.eventId

/-- The values of a staged event. -/
def OutboxModel.staged (evt : EventEnvelope) : OutboxModel := ⟨evt, none, none, none⟩

/-- `stage_events`: insert the rows, leaving known event ids alone. -/
def stageEvents (outbox : Outbox) (events : List EventEnvelope) : Outbox :=
  events.foldl (fun outbox evt => outbox.insertIfAbsent (.staged evt)) outbox

def defaultOutboxLeaseSeconds : ℤ := 60

/-- Not leased, or leased until a past moment. -/
def OutboxModel.available (r : OutboxModel) (now : Timestamp) : Bool :=
  r.leaseId.isNone || r.leasedUntil.any (· < now)

/-- The filters of `unsent_events`. -/
def OutboxModel.claimable (r : OutboxModel) (now : Timestamp) (source : Option String) : Bool :=
  r.sentAt.isNone && r.available now && source.all (· = r.evt.source)

/-- The values of the claim of a relay. -/
def OutboxModel.lease (r : OutboxModel) (leaseId : Uuid) (leasedUntil : Timestamp) :
    OutboxModel :=
  { r with leaseId := some leaseId, leasedUntil := some leasedUntil }

/-- The values that take a row out of the relays' sight. -/
def OutboxModel.markSent (r : OutboxModel) (now : Timestamp) : OutboxModel :=
  { r with sentAt := some now, leaseId := none, leasedUntil := none }

/-- `unsent_events`: lease a batch and return its envelopes. The rows in `locked`
are held by another transaction and skipped; `appNow` is the clock of the relay's
process. -/
def unsentEvents (outbox : Outbox) (now appNow : Timestamp) (leaseId : Uuid) (limit : ℕ)
    (source : Option String) (locked : List String) : List EventEnvelope × Outbox :=
  let claimed := (outbox.rows.filter fun r => r.claimable now source && !locked.contains r.eventId)
    |>.take limit
  (claimed.map (·.evt),
    outbox.modifyWhere (fun r => (claimed.map (·.eventId)).contains r.eventId)
      (·.lease leaseId (appNow + defaultOutboxLeaseSeconds)) fun _ => rfl)

def markEventsSent (outbox : Outbox) (now : Timestamp) (eventIds : List String) : Outbox :=
  outbox.modifyWhere (fun r => eventIds.contains r.eventId) (·.markSent now) fun _ => rfl

/-- `mark_events_dead_lettered` for one event: its dead letter and its row, in one
transaction. -/
def markEventsDeadLettered (outbox : Outbox) (deadLetters : List EventDeadLetter)
    (now : Timestamp) (evt : EventEnvelope) (consumer error : String) :
    Outbox × List EventDeadLetter :=
  (markEventsSent outbox now [evt.eventId],
    deadLetters ++ [recordDeadLetter evt consumer error 1])

/-- The filters of `dead_letter_unsent_outbox_older_than`. -/
def OutboxModel.abandoned (r : OutboxModel) (now cutoff : Timestamp) : Bool :=
  r.sentAt.isNone && decide (r.evt.createdAt < cutoff) && r.available now

def deadLetterUnsentOutboxOlderThan (outbox : Outbox) (deadLetters : List EventDeadLetter)
    (now cutoff : Timestamp) (limit : ℕ) : Outbox × List EventDeadLetter :=
  let rows := (outbox.rows.filter (·.abandoned now cutoff)).take limit
  (markEventsSent outbox now (rows.map (·.eventId)),
    deadLetters ++ rows.map fun r => recordDeadLetter r.evt "outbox-relay:retention"
      "unsent outbox exceeded retention window" 1)

/-! ## What the operations do to the rows -/

variable {events : List EventEnvelope} {now : Timestamp} {outbox : Outbox}

theorem mem_stageEvents {r : OutboxModel} :
    ∀ {outbox : Outbox}, r ∈ (stageEvents outbox events).rows →
      r ∈ outbox.rows ∨ ∃ evt ∈ events, r = .staged evt := by
  induction events with
  | nil => exact fun h => Or.inl h
  | cons evt events ih =>
    intro outbox h
    have hrest : r ∈ (stageEvents (outbox.insertIfAbsent (.staged evt)) events).rows := h
    rcases ih hrest with h | ⟨x, hx, rfl⟩
    · rcases Table.mem_insertIfAbsent h with h | rfl
      · exact Or.inl h
      · exact Or.inr ⟨evt, List.mem_cons_self, rfl⟩
    · exact Or.inr ⟨x, List.mem_cons_of_mem _ hx, rfl⟩

theorem mem_stageEvents_of_mem {r : OutboxModel} :
    ∀ {outbox : Outbox}, r ∈ outbox.rows → r ∈ (stageEvents outbox events).rows := by
  induction events with
  | nil => exact fun h => h
  | cons evt events ih => exact fun h => ih (Table.mem_insertIfAbsent_of_mem h _)

theorem staged_of_mem {evt : EventEnvelope} :
    ∀ {outbox : Outbox}, evt ∈ events →
      ∃ r ∈ (stageEvents outbox events).rows, r.eventId = evt.eventId := by
  induction events with
  | nil => exact fun h => absurd h List.not_mem_nil
  | cons x events ih =>
    intro outbox h
    rcases List.mem_cons.mp h with rfl | h
    · have hfind := Table.find?_insertIfAbsent outbox (.staged evt) evt.eventId
      rw [if_pos (show evt.eventId = (OutboxModel.staged evt).eventId from rfl)] at hfind
      have hrow : (outbox.find? evt.eventId).getD (.staged evt) ∈
          (stageEvents (outbox.insertIfAbsent (.staged evt)) events).rows :=
        mem_stageEvents_of_mem (Table.mem_of_find? hfind)
      exact ⟨_, hrow, Table.key_of_find? hfind⟩
    · exact ih h

theorem mem_markEventsSent {eventIds : List String} {row : OutboxModel}
    (h : row ∈ (markEventsSent outbox now eventIds).rows) :
    (∃ x ∈ outbox.rows, x.eventId ∈ eventIds ∧ row = x.markSent now) ∨ row ∈ outbox.rows := by
  rcases Table.mem_modifyWhere (t := outbox) (f := fun r : OutboxModel => r.markSent now)
    (fun _ => rfl) h with ⟨x, hx, hid, hrow⟩ | ⟨hrow, -⟩
  · exact Or.inl ⟨x, hx, List.contains_iff_mem.mp hid, hrow⟩
  · exact Or.inr hrow

theorem mem_unsentEvents {appNow : Timestamp} {leaseId : Uuid} {limit : ℕ} {source : Option String}
    {locked : List String} {row : OutboxModel}
    (h : row ∈ (unsentEvents outbox now appNow leaseId limit source locked).2.rows) :
    (∃ x ∈ outbox.rows, row = x.lease leaseId (appNow + defaultOutboxLeaseSeconds)) ∨
      row ∈ outbox.rows := by
  rcases Table.mem_modifyWhere (t := outbox)
    (f := fun r : OutboxModel => r.lease leaseId (appNow + defaultOutboxLeaseSeconds))
    (fun _ => rfl) h with ⟨x, hx, -, hrow⟩ | ⟨hrow, -⟩
  · exact Or.inl ⟨x, hx, hrow⟩
  · exact Or.inr hrow

theorem mem_unsentEvents_batch (appNow : Timestamp) (leaseId : Uuid) {limit : ℕ}
    {source : Option String} {locked : List String} {evt : EventEnvelope}
    (h : evt ∈ (unsentEvents outbox now appNow leaseId limit source locked).1) :
    ∃ row ∈ outbox.rows, row.evt = evt := by
  obtain ⟨row, hrow, rfl⟩ := List.mem_map.mp h
  exact ⟨row, (List.mem_filter.mp (List.mem_of_mem_take hrow)).1, rfl⟩

end Opsia.Event
