import Opsia.Lib.Table
import Opsia.Values

/-!
# Event envelopes and the processing ledger

`packages/contracts/event_bus` and `packages/storage/repositories/event.py`. The
ledger has one row for each event and consumer. A claim is one atomic upsert that
counts the attempt; `finish` and `fail` update the row by its key alone.
-/

namespace Opsia.Event

/-- `EventEnvelope`. The creation time is the moment its ISO text denotes, the
payload the text of its JSON document. -/
structure EventEnvelope : Type where
  eventId : String
  subject : String
  source : String
  correlationId : String
  causationId : Option String
  createdAt : Timestamp
  payload : String
  schemaVersion : ℕ
  workspaceId : Option String
  deriving DecidableEq, Repr

/-- The event of the examples. -/
def sampleEvent : EventEnvelope where
  eventId := "evt-1"
  subject := "command.requested"
  source := "api"
  correlationId := "corr-1"
  causationId := none
  createdAt := 0
  payload := "\x7b\x7d"
  schemaVersion := 1
  workspaceId := none

inductive EventProcessingStatus : Type where
  /-- claimed, the handler may be running -/
  | processing
  | processed
  /-- failed, to be tried again -/
  | retrying
  | deadLettered
  deriving DecidableEq, Repr

/-- Membership in `TERMINAL_STATUSES`. -/
def EventProcessingStatus.terminal : EventProcessingStatus → Bool
  | .processed | .deadLettered => true
  | .processing | .retrying => false

theorem EventProcessingStatus.terminal_cases {status : EventProcessingStatus}
    (h : status.terminal = true) : status = .processed ∨ status = .deadLettered := by
  cases status with
  | processed => exact Or.inl rfl
  | deadLettered => exact Or.inr rfl
  | processing | retrying => cases h

/-- A row of `event_processing`. -/
structure EventProcessing : Type where
  eventId : String
  consumer : String
  status : EventProcessingStatus
  attempts : ℕ
  updatedAt : Timestamp
  deriving DecidableEq, Repr

/-- The primary key of `event_processing`. -/
abbrev EventKey : Type := String × String

def EventProcessing.key (r : EventProcessing) : EventKey := (r.eventId, r.consumer)

/-- The table `event_processing`. -/
abbrev ProcessingLedger : Type := Table EventProcessing.key

/-! ## Claims -/

/-- The `where` of the claim's conflict update: not closed, and not held by a
claim younger than `PROCESSING_STALE_SECONDS`. -/
def EventProcessing.reclaimable (r : EventProcessing) (now : Timestamp) (staleSeconds : ℤ) :
    Bool :=
  !r.status.terminal &&
    (decide (r.status ≠ .processing) || decide (r.updatedAt < now - staleSeconds))

/-- The values of the claim's conflict update. -/
def EventProcessing.reclaim (r : EventProcessing) (now : Timestamp) : EventProcessing :=
  { r with attempts := r.attempts + 1, status := .processing, updatedAt := now }

theorem EventProcessing.key_reclaim (r : EventProcessing) (now : Timestamp) :
    (r.reclaim now).key = r.key := rfl

/-- The values of the claim's insert. -/
def EventProcessing.first (k : EventKey) (now : Timestamp) : EventProcessing where
  eventId := k.1
  consumer := k.2
  status := .processing
  attempts := 1
  updatedAt := now

theorem EventProcessing.key_first (k : EventKey) (now : Timestamp) :
    (EventProcessing.first k now).key = k := rfl

/-- What an `EventProcessingRecord` reports as the status: a status of the ledger,
`CLAIM_BLOCKED`, or `"unknown"`. -/
inductive RecordStatus : Type where
  | ledger (status : EventProcessingStatus)
  | claimBlocked
  | unknown
  deriving DecidableEq, Repr

structure EventProcessingRecord : Type where
  status : RecordStatus
  attempts : ℕ
  deriving DecidableEq, Repr

/-- `claim_event_processing`: the row the upsert returns, with the new ledger. -/
def claimEventProcessing (ledger : ProcessingLedger) (now : Timestamp) (staleSeconds : ℤ)
    (k : EventKey) : Option (EventProcessing × ProcessingLedger) :=
  match ledger.find? k with
  | none => (ledger.insert? (.first k now)).map fun ledger' => (.first k now, ledger')
  | some r =>
    if r.reclaimable now staleSeconds then
      some (r.reclaim now, ledger.modify k (·.reclaim now) fun r => r.key_reclaim now)
    else none

/-- `begin_event_processing`: the claim, or what refuses it. -/
def beginEventProcessing (ledger : ProcessingLedger) (now : Timestamp) (staleSeconds : ℤ)
    (k : EventKey) : EventProcessingRecord × ProcessingLedger :=
  match claimEventProcessing ledger now staleSeconds k with
  | some (r, ledger') => (⟨.ledger r.status, r.attempts⟩, ledger')
  | none =>
    match ledger.find? k with
    | some r =>
      -- a fresh claim of another instance
      (⟨if r.status = .processing then .claimBlocked else .ledger r.status, r.attempts⟩, ledger)
    | none => (⟨.unknown, 0⟩, ledger)

/-! ## Outcomes -/

/-- The values of `finish_event_processing` and `fail_event_processing`. -/
def EventProcessing.outcome (r : EventProcessing) (status : EventProcessingStatus)
    (now : Timestamp) : EventProcessing :=
  { r with status := status, updatedAt := now }

theorem EventProcessing.key_outcome (r : EventProcessing) (status : EventProcessingStatus)
    (now : Timestamp) : (r.outcome status now).key = r.key := rfl

/-- `fail_event_processing`: update the row by its key. -/
def failEventProcessing (ledger : ProcessingLedger) (now : Timestamp) (k : EventKey)
    (status : EventProcessingStatus) : ProcessingLedger :=
  ledger.modify k (·.outcome status now) fun r => r.key_outcome status now

/-- `finish_event_processing`: the same, with the status `PROCESSED`. -/
def finishEventProcessing (ledger : ProcessingLedger) (now : Timestamp) (k : EventKey) :
    ProcessingLedger :=
  ledger.modify k (·.outcome .processed now) fun r => r.key_outcome .processed now

/-! ## What the operations do to a row -/

/-- The three answers of a claim. -/
inductive Begun (ledger : ProcessingLedger) (now : Timestamp) (staleSeconds : ℤ) (k : EventKey) :
    EventProcessingRecord → ProcessingLedger → Prop
  /-- the first attempt -/
  | first (ledger' : ProcessingLedger) (hr : ledger.find? k = none)
      (hins : ledger.insert? (.first k now) = some ledger') :
      Begun ledger now staleSeconds k ⟨.ledger .processing, 1⟩ ledger'
  /-- a further attempt -/
  | again (r : EventProcessing) (hr : ledger.find? k = some r)
      (hclaim : r.reclaimable now staleSeconds = true) :
      Begun ledger now staleSeconds k ⟨.ledger .processing, r.attempts + 1⟩
        (ledger.modify k (·.reclaim now) fun r => r.key_reclaim now)
  /-- the row is closed -/
  | closed (r : EventProcessing) (hr : ledger.find? k = some r)
      (hclosed : r.status.terminal = true) :
      Begun ledger now staleSeconds k ⟨.ledger r.status, r.attempts⟩ ledger
  /-- the row is held by a fresh claim -/
  | blocked (r : EventProcessing) (hr : ledger.find? k = some r) (hheld : r.status = .processing) :
      Begun ledger now staleSeconds k ⟨.claimBlocked, r.attempts⟩ ledger

theorem begun (ledger : ProcessingLedger) (now : Timestamp) (staleSeconds : ℤ) (k : EventKey) :
    Begun ledger now staleSeconds k (beginEventProcessing ledger now staleSeconds k).1
      (beginEventProcessing ledger now staleSeconds k).2 := by
  rw [beginEventProcessing, claimEventProcessing]
  rcases hr : ledger.find? k with _ | r
  · obtain ⟨ledger', hins⟩ := Table.insert?_of_none (t := ledger) (r := .first k now) hr
    simp only [hins, Option.map_some]
    exact .first ledger' hr hins
  · rcases hclaim : r.reclaimable now staleSeconds with _ | _
    · have hclosed : r.status.terminal = true →
          Begun ledger now staleSeconds k ⟨.ledger r.status, r.attempts⟩ ledger := .closed r hr
      rcases hstatus : r.status with _ | _ | _ | _
      · have hblocked : Begun ledger now staleSeconds k ⟨.claimBlocked, r.attempts⟩ ledger :=
          .blocked r hr hstatus
        simpa [hclaim, hstatus] using hblocked
      · simpa [hclaim, hstatus] using hclosed (by rw [hstatus]; rfl)
      · -- a retrying row is always claimed
        simp [EventProcessing.reclaimable, hstatus, EventProcessingStatus.terminal] at hclaim
      · simpa [hclaim, hstatus] using hclosed (by rw [hstatus]; rfl)
    · have hagain : Begun ledger now staleSeconds k ⟨.ledger .processing, r.attempts + 1⟩
          (ledger.modify k (·.reclaim now) fun r => r.key_reclaim now) := .again r hr hclaim
      simpa [hclaim, EventProcessing.reclaim] using hagain

variable {k : EventKey} {now : Timestamp} {ledger' : ProcessingLedger} {r : EventProcessing}
  {staleSeconds : ℤ}

theorem find?_first {ledger : ProcessingLedger}
    (hins : ledger.insert? (.first k now) = some ledger') :
    ledger'.find? k = some (.first k now) := by
  rw [Table.find?_of_insert? hins, EventProcessing.key_first, if_pos rfl]

theorem find?_reclaim {ledger : ProcessingLedger} (hr : ledger.find? k = some r) (now : Timestamp) :
    (ledger.modify k (·.reclaim now) fun r => r.key_reclaim now).find? k = some (r.reclaim now) := by
  rw [Table.find?_modify_self, hr, Option.map_some]

/-- A claim leaves the rows of other events and consumers alone. -/
theorem Begun.find?_ne {ledger : ProcessingLedger} {k' : EventKey}
    {processing : EventProcessingRecord} (h : Begun ledger now staleSeconds k processing ledger')
    (hne : k' ≠ k) :
    ledger'.find? k' = ledger.find? k' := by
  cases h with
  | first _ hr hins =>
    rw [Table.find?_of_insert? hins, EventProcessing.key_first, if_neg hne]
  | again r hr hclaim => exact Table.find?_modify_ne _ _ _ hne
  | closed | blocked => rfl

/-- After a claim the row exists. -/
theorem Begun.isSome {ledger : ProcessingLedger} {processing : EventProcessingRecord}
    (h : Begun ledger now staleSeconds k processing ledger') :
    (ledger'.find? k).isSome = true := by
  cases h with
  | first _ hr hins => rw [find?_first hins, Option.isSome_some]
  | again r hr hclaim => rw [find?_reclaim hr, Option.isSome_some]
  | closed r hr | blocked r hr => rw [hr, Option.isSome_some]

theorem find?_failEventProcessing (ledger : ProcessingLedger) (now : Timestamp) (k k' : EventKey)
    (status : EventProcessingStatus) :
    (failEventProcessing ledger now k status).find? k' =
      if k' = k then (ledger.find? k').map (·.outcome status now) else ledger.find? k' :=
  Table.find?_modify ..

theorem find?_finishEventProcessing {ledger : ProcessingLedger} (hr : ledger.find? k = some r)
    (now : Timestamp) :
    (finishEventProcessing ledger now k).find? k = some (r.outcome .processed now) := by
  rw [finishEventProcessing, Table.find?_modify_self, hr, Option.map_some]

/-- A claimable row is not closed. -/
theorem EventProcessing.not_terminal_of_reclaimable (h : r.reclaimable now staleSeconds = true) :
    r.status.terminal = false := by
  simp only [EventProcessing.reclaimable, Bool.and_eq_true, Bool.not_eq_true'] at h
  exact h.1

end Opsia.Event
