import Opsia.Event.Ledger
import Opsia.Lib.PyText

/-!
# The in-process event bus

`packages/events/in_memory.py`. A method that does not wait is one step, since the
bus lives on one event loop; a `fetch` on an empty queue waits in `waiting` and
takes its batch when it is woken, in one step again; a delayed `nak` leaves a task
behind. Objects that the code passes around by reference are named: a stored event
by its position among the published ones, a subscription by its key, a message by
its position among the messages handed out.
-/

namespace Opsia.Event.InMemory

/-- The exceptions of the bus. -/
inductive PyError : Type where
  | runtimeError (message : String)
  | valueError (message : String)
  | lookupError (message : String)
  | timeoutError
  deriving DecidableEq, Repr

/-! ## Subjects -/

/-- The loop of `_subject_matches` on the tokens that are left. -/
def tokensMatch : List String → List String → Bool
  | [], subjectTokens => subjectTokens.isEmpty
  | token :: patternTokens, subjectTokens =>
    if token = ">" then patternTokens.isEmpty && !subjectTokens.isEmpty
    else
      match subjectTokens with
      | [] => false
      | subjectToken :: subjectTokens =>
        if token ≠ "*" ∧ token ≠ subjectToken then false
        else tokensMatch patternTokens subjectTokens

def subjectMatches (pattern subject : String) : Bool :=
  tokensMatch (PyText.split pattern '.') (PyText.split subject '.')

/-! ## Subscriptions -/

/-- `_StoredEvent`, with its place among the published events. -/
structure StoredEvent : Type where
  position : ℕ
  subject : String
  data : List UInt8
  deriving DecidableEq, Repr

structure QueuedEvent : Type where
  stored : StoredEvent
  redelivery : Bool
  deriving DecidableEq, Repr

/-- An entry of `_in_flight`. -/
structure Delivery : Type where
  deliveryId : ℕ
  queued : QueuedEvent
  deriving DecidableEq, Repr

/-- A task of `_delayed_tasks`, which runs `_requeue_after`. -/
structure DelayedTask : Type where
  queued : QueuedEvent
  /-- the task has run up to its `sleep` -/
  sleeping : Bool
  deriving DecidableEq, Repr

/-- A `fetch` call that waits for a first event. -/
structure Waiter : Type where
  batch : ℤ
  /-- the wait ends with a timeout -/
  timed : Bool
  deriving DecidableEq, Repr

/-- The key of a subscription: the subject and the durable. -/
abbrev Key : Type := String × String

/-- `_InMemoryEventSubscription`, with the calls that wait on its queue. -/
structure Subscription : Type where
  subject : String
  durable : String
  queue : List QueuedEvent
  inFlight : Table Delivery.deliveryId
  nextDeliveryId : ℕ
  redelivered : ℕ
  scheduled : ℤ
  delayedTasks : List DelayedTask
  waiting : List Waiter
  closed : Bool

def Subscription.key (sub : Subscription) : Key := (sub.subject, sub.durable)

/-- A new subscription. -/
def Subscription.new (subject durable : String) : Subscription where
  subject := subject
  durable := durable
  queue := []
  inFlight := Table.empty
  nextDeliveryId := 1
  redelivered := 0
  scheduled := 0
  delayedTasks := []
  waiting := []
  closed := false

/-- `_InMemoryEventMessage`. -/
structure Message : Type where
  data : List UInt8
  subscription : Key
  deliveryId : ℕ
  settled : Bool
  deriving DecidableEq, Repr

structure EventConsumerMetrics : Type where
  stream : String
  subject : String
  durable : String
  pending : ℤ
  ackPending : ℕ
  redelivered : ℕ
  deriving DecidableEq, Repr

def streamName : String := "SERVICE_EVENTS"

namespace Subscription

def enqueue (sub : Subscription) (stored : StoredEvent) : Subscription :=
  if sub.closed then sub else { sub with queue := sub.queue ++ [⟨stored, false⟩] }

theorem key_enqueue (sub : Subscription) (stored : StoredEvent) :
    (sub.enqueue stored).key = sub.key := by
  rw [enqueue]
  split <;> rfl

def deliver (sub : Subscription) (queued : QueuedEvent) : Message × Subscription :=
  (⟨queued.stored.data, sub.key, sub.nextDeliveryId, false⟩,
    { sub with
      nextDeliveryId := sub.nextDeliveryId + 1
      inFlight := sub.inFlight.put ⟨sub.nextDeliveryId, queued⟩
      redelivered := if queued.redelivery then sub.redelivered + 1 else sub.redelivered })

/-- `_deliver` for each event of a batch. -/
def deliverAll (sub : Subscription) : List QueuedEvent → List Message × Subscription
  | [] => ([], sub)
  | queued :: rest =>
    let (message, sub) := sub.deliver queued
    let (messages, sub) := deliverAll sub rest
    (message :: messages, sub)

/-- The end of `fetch`, once the queue has a first event: up to `batch` events
leave the queue and are delivered. -/
def takeBatch (sub : Subscription) (batch : ℤ) : List Message × Subscription :=
  { sub with queue := sub.queue.drop batch.toNat }.deliverAll (sub.queue.take batch.toNat)

/-- `fetch`, up to the moment it returns, raises, or waits. -/
def fetch (sub : Subscription) (batch : ℤ) (timeout : Option Rat) :
    Except PyError (List Message × Subscription) :=
  if sub.closed then .error (.runtimeError "in-memory subscription is closed")
  else if batch < 1 then .error (.valueError "fetch batch must be positive")
  else if sub.queue ≠ [] then .ok (sub.takeBatch batch)
  else
    match timeout with
    | none => .ok ([], { sub with waiting := sub.waiting ++ [⟨batch, false⟩] })
    | some seconds =>
      if seconds ≤ 0 then .error .timeoutError
      else .ok ([], { sub with waiting := sub.waiting ++ [⟨batch, true⟩] })

/-- The waiting call `w` is woken. If another call was faster it waits on. -/
def wake (sub : Subscription) (w : ℕ) : List Message × Subscription :=
  match sub.waiting[w]? with
  | some waiter =>
    if sub.queue ≠ [] then { sub with waiting := sub.waiting.eraseIdx w }.takeBatch waiter.batch
    else ([], sub)
  | none => ([], sub)

/-- The waiting call `w` times out or is cancelled. -/
def abandon (sub : Subscription) (w : ℕ) : Subscription :=
  { sub with waiting := sub.waiting.eraseIdx w }

def ack (sub : Subscription) (deliveryId : ℕ) : Subscription :=
  { sub with inFlight := sub.inFlight.erase deliveryId }

def nak (sub : Subscription) (deliveryId : ℕ) (delay : ℤ) : Subscription :=
  let popped := { sub with inFlight := sub.inFlight.erase deliveryId }
  match sub.inFlight.find? deliveryId with
  | none => popped
  | some delivery =>
    if sub.closed then popped
    else
      let redelivery : QueuedEvent := ⟨delivery.queued.stored, true⟩
      if delay = 0 then { popped with queue := popped.queue ++ [redelivery] }
      else
        { popped with
          scheduled := popped.scheduled + 1
          delayedTasks := popped.delayedTasks ++ [⟨redelivery, false⟩] }

/-- `_requeue_after` of the task `j` runs up to its `sleep`. -/
def beginSleep (sub : Subscription) (j : ℕ) : Subscription :=
  { sub with delayedTasks := sub.delayedTasks.modify j fun task => { task with sleeping := true } }

/-- `_requeue_after` of the task `j` after its `sleep`. -/
def requeue (sub : Subscription) (j : ℕ) : Subscription :=
  match sub.delayedTasks[j]? with
  | some task =>
    if task.sleeping then
      { sub with
        queue := if sub.closed then sub.queue else sub.queue ++ [task.queued]
        scheduled := sub.scheduled - 1
        delayedTasks := sub.delayedTasks.eraseIdx j }
    else sub
  | none => sub

def metrics (sub : Subscription) : EventConsumerMetrics where
  stream := streamName
  subject := sub.subject
  durable := sub.durable
  pending := sub.queue.length + sub.scheduled
  ackPending := sub.inFlight.rows.length
  redelivered := sub.redelivered

/-- `close`: the tasks are cancelled, and those that sleep run their `finally`. -/
def close (sub : Subscription) : Subscription :=
  { sub with
    closed := true
    scheduled := sub.scheduled - (sub.delayedTasks.countP (·.sleeping) : ℕ)
    delayedTasks := [] }

end Subscription

/-! ## The bus -/

/-- `InMemoryEventBus`, with the messages it has handed out. -/
structure InMemoryEventBus : Type where
  connected : Bool
  closed : Bool
  events : List StoredEvent
  subscriptions : Table Subscription.key
  messages : List Message

def InMemoryEventBus.init : InMemoryEventBus where
  connected := false
  closed := false
  events := []
  subscriptions := Table.empty
  messages := []

namespace InMemoryEventBus

def connect (bus : InMemoryEventBus) : Except PyError InMemoryEventBus :=
  if bus.closed then .error (.runtimeError "in-memory event bus is closed")
  else .ok { bus with connected := true }

def requireConnected (bus : InMemoryEventBus) : Except PyError Unit :=
  if bus.connected then .ok () else .error (.runtimeError "in-memory event bus is not connected")

/-- A stored event comes to the published ones and to the subscriptions of its
subject. -/
def store (bus : InMemoryEventBus) (stored : StoredEvent) : InMemoryEventBus :=
  { bus with
    events := bus.events ++ [stored]
    subscriptions := bus.subscriptions.modifyWhere
      (fun sub => subjectMatches sub.subject stored.subject) (·.enqueue stored)
      (·.key_enqueue stored) }

/-- `publish_envelope`; `encode` is `json.dumps(evt.to_dict()).encode()`, which may
raise. -/
def publishEnvelope (encode : EventEnvelope → Except PyError (List UInt8))
    (bus : InMemoryEventBus) (evt : EventEnvelope) : Except PyError InMemoryEventBus := do
  bus.requireConnected
  let data ← encode evt
  .ok (bus.store ⟨bus.events.length, evt.subject, data⟩)

/-- The replay of the history to a new subscription. -/
def replay (events : List StoredEvent) (subject : String) (sub : Subscription) : Subscription :=
  events.foldl
    (fun sub stored => if subjectMatches subject stored.subject then sub.enqueue stored else sub) sub

def subscribe (bus : InMemoryEventBus) (subject durable : String) :
    Except PyError InMemoryEventBus := do
  bus.requireConnected
  match bus.subscriptions.find? (subject, durable) with
  | some _ => .ok bus
  | none =>
    .ok { bus with
      subscriptions := bus.subscriptions.put (replay bus.events subject (.new subject durable)) }

def consumerMetrics (bus : InMemoryEventBus) (subject durable : String) :
    Except PyError EventConsumerMetrics := do
  bus.requireConnected
  match bus.subscriptions.find? (subject, durable) with
  | some sub => .ok sub.metrics
  | none => .error (.lookupError s!"unknown in-memory consumer: {durable} ({subject})")

/-- The subscription is mutated. -/
def set (bus : InMemoryEventBus) (sub : Subscription) : InMemoryEventBus :=
  { bus with subscriptions := bus.subscriptions.put sub }

/-- A method of the subscription of the key is called. -/
def mutate (bus : InMemoryEventBus) (key : Key) (method : Subscription → Subscription) :
    InMemoryEventBus :=
  match bus.subscriptions.find? key with
  | some sub => bus.set (method sub)
  | none => bus

/-- A `fetch` call hands its messages out. -/
def handOut (bus : InMemoryEventBus) (fetched : List Message × Subscription) : InMemoryEventBus :=
  { bus.set fetched.2 with messages := bus.messages ++ fetched.1 }

/-- `fetch` of the subscription of the key. -/
def fetch (bus : InMemoryEventBus) (key : Key) (batch : ℤ) (timeout : Option Rat) :
    Except PyError InMemoryEventBus :=
  match bus.subscriptions.find? key with
  | some sub => (sub.fetch batch timeout).map bus.handOut
  | none => .ok bus

/-- A waiting `fetch` of the subscription of the key is woken. -/
def wake (bus : InMemoryEventBus) (key : Key) (w : ℕ) : InMemoryEventBus :=
  match bus.subscriptions.find? key with
  | some sub => bus.handOut (sub.wake w)
  | none => bus

/-- The message `m` is settled. -/
def settle (bus : InMemoryEventBus) (m : ℕ) : InMemoryEventBus :=
  { bus with messages := bus.messages.modify m fun message => { message with settled := true } }

/-- `_InMemoryEventMessage.ack`. -/
def ack (bus : InMemoryEventBus) (m : ℕ) : InMemoryEventBus :=
  match bus.messages[m]? with
  | some message =>
    if message.settled then bus
    else (bus.settle m).mutate message.subscription (·.ack message.deliveryId)
  | none => bus

/-- `_InMemoryEventMessage.nak`. -/
def nak (bus : InMemoryEventBus) (m : ℕ) (delay : ℤ) : Except PyError InMemoryEventBus :=
  match bus.messages[m]? with
  | some message =>
    if delay < 0 then .error (.valueError "nak delay must be non-negative")
    else if message.settled then .ok bus
    else .ok ((bus.settle m).mutate message.subscription (·.nak message.deliveryId delay))
  | none => .ok bus

/-- `close`, up to the `close` of the subscriptions. -/
def close (bus : InMemoryEventBus) : InMemoryEventBus :=
  if bus.closed then bus else { bus with connected := false, closed := true }

end InMemoryEventBus

/-! ## Steps -/

/-- A call of a client, or a step of the event loop. -/
inductive Op : Type where
  | connect
  | publish (evt : EventEnvelope)
  | subscribe (subject durable : String)
  | fetch (key : Key) (batch : ℤ) (timeout : Option Rat)
  | wake (key : Key) (w : ℕ)
  | abandon (key : Key) (w : ℕ)
  | ack (m : ℕ)
  | nak (m : ℕ) (delay : ℤ)
  | beginSleep (key : Key) (j : ℕ)
  | requeue (key : Key) (j : ℕ)
  | close
  /-- `close` of a subscription of a closed bus -/
  | closeSubscription (key : Key)
  deriving DecidableEq, Repr

/-- What a call leaves: an exception changes nothing. -/
def InMemoryEventBus.after (bus : InMemoryEventBus) (result : Except PyError InMemoryEventBus) :
    InMemoryEventBus := result.toOption.getD bus

/-- A step. -/
def step (encode : EventEnvelope → Except PyError (List UInt8)) (bus : InMemoryEventBus) :
    Op → InMemoryEventBus
  | .connect => bus.after bus.connect
  | .publish evt => bus.after (bus.publishEnvelope encode evt)
  | .subscribe subject durable => bus.after (bus.subscribe subject durable)
  | .fetch key batch timeout => bus.after (bus.fetch key batch timeout)
  | .wake key w => bus.wake key w
  | .abandon key w => bus.mutate key (·.abandon w)
  | .ack m => bus.ack m
  | .nak m delay => bus.after (bus.nak m delay)
  | .beginSleep key j => bus.mutate key (·.beginSleep j)
  | .requeue key j => bus.mutate key (·.requeue j)
  | .close => bus.close
  | .closeSubscription key => if bus.closed then bus.mutate key (·.close) else bus

/-! ## Transitions -/

/-- What a step does, by cases. -/
inductive Step (encode : EventEnvelope → Except PyError (List UInt8)) (bus : InMemoryEventBus) :
    Op → InMemoryEventBus → Prop
  /-- an exception, or nothing to do; an ack does nothing to a settled message only -/
  | idle (op : Op) (hack : ∀ m message, op = .ack m → bus.messages[m]? = some message →
      message.settled = true) : Step encode bus op bus
  | connected : Step encode bus .connect { bus with connected := true }
  | published (evt : EventEnvelope) (data : List UInt8) (hconnected : bus.connected = true) :
      Step encode bus (.publish evt) (bus.store ⟨bus.events.length, evt.subject, data⟩)
  | subscribed (subject durable : String) (hconnected : bus.connected = true)
      (hnew : bus.subscriptions.find? (subject, durable) = none) :
      Step encode bus (.subscribe subject durable) { bus with
        subscriptions := bus.subscriptions.put
          (InMemoryEventBus.replay bus.events subject (.new subject durable)) }
  | fetched (key : Key) (batch : ℤ) (timeout : Option Rat) (sub : Subscription)
      (result : List Message × Subscription) (hfind : bus.subscriptions.find? key = some sub)
      (hfetch : sub.fetch batch timeout = .ok result) :
      Step encode bus (.fetch key batch timeout) (bus.handOut result)
  | woken (key : Key) (w : ℕ) (sub : Subscription)
      (hfind : bus.subscriptions.find? key = some sub) :
      Step encode bus (.wake key w) (bus.handOut (sub.wake w))
  | abandoned (key : Key) (w : ℕ) :
      Step encode bus (.abandon key w) (bus.mutate key (·.abandon w))
  | acked (m : ℕ) (message : Message) (hm : bus.messages[m]? = some message)
      (hopen : message.settled = false) :
      Step encode bus (.ack m)
        ((bus.settle m).mutate message.subscription (·.ack message.deliveryId))
  | naked (m : ℕ) (delay : ℤ) (message : Message) (hm : bus.messages[m]? = some message) :
      Step encode bus (.nak m delay)
        ((bus.settle m).mutate message.subscription (·.nak message.deliveryId delay))
  | sleeping (key : Key) (j : ℕ) :
      Step encode bus (.beginSleep key j) (bus.mutate key (·.beginSleep j))
  | requeued (key : Key) (j : ℕ) : Step encode bus (.requeue key j) (bus.mutate key (·.requeue j))
  | closed : Step encode bus .close { bus with connected := false, closed := true }
  | closedSubscription (key : Key) (hclosed : bus.closed = true) :
      Step encode bus (.closeSubscription key) (bus.mutate key (·.close))

section

variable {encode : EventEnvelope → Except PyError (List UInt8)} {bus : InMemoryEventBus} {op : Op}

theorem Step.after (hack : ∀ m, op ≠ .ack m) {result : Except PyError InMemoryEventBus}
    (h : ∀ bus', result = .ok bus' → Step encode bus op bus') :
    Step encode bus op (bus.after result) := by
  cases result with
  | error e => exact .idle op fun m _ hop => absurd hop (hack m)
  | ok bus' => exact h bus' rfl

theorem bind_requireConnected {β : Type} {next : Unit → Except PyError β} {b : β}
    (h : (bus.requireConnected >>= next) = .ok b) : bus.connected = true ∧ next () = .ok b := by
  unfold InMemoryEventBus.requireConnected at h
  split at h
  · exact ⟨‹_›, h⟩
  · cases h

end

theorem step_spec (encode : EventEnvelope → Except PyError (List UInt8)) (bus : InMemoryEventBus)
    (op : Op) : Step encode bus op (step encode bus op) := by
  cases op
  case connect =>
    refine .after (fun _ h => by cases h) fun bus' h => ?_
    unfold InMemoryEventBus.connect at h
    split at h
    · cases h
    · cases h
      exact .connected
  case publish evt =>
    refine .after (fun _ h => by cases h) fun bus' h => ?_
    obtain ⟨hconnected, hdata⟩ := bind_requireConnected h
    cases hencode : encode evt with
    | error e =>
      rw [hencode] at hdata
      cases hdata
    | ok data =>
      rw [hencode] at hdata
      cases hdata
      exact .published evt data hconnected
  case subscribe subject durable =>
    refine .after (fun _ h => by cases h) fun bus' h => ?_
    obtain ⟨hconnected, hdone⟩ := bind_requireConnected h
    split at hdone
    · cases hdone
      exact .idle _ fun _ _ hop => by cases hop
    · rename_i hnew
      cases hdone
      exact .subscribed subject durable hconnected hnew
  case fetch key batch timeout =>
    refine .after (fun _ h => by cases h) fun bus' h => ?_
    unfold InMemoryEventBus.fetch at h
    split at h
    · rename_i sub hfind
      cases hfetch : sub.fetch batch timeout with
      | error e =>
        rw [hfetch] at h
        cases h
      | ok result =>
        rw [hfetch] at h
        cases h
        exact .fetched key batch timeout sub result hfind hfetch
    · cases h
      exact .idle _ fun _ _ hop => by cases hop
  case wake key w =>
    change Step encode bus (.wake key w) (bus.wake key w)
    unfold InMemoryEventBus.wake
    split
    · exact .woken key w _ ‹_›
    · exact .idle _ fun _ _ hop => by cases hop
  case abandon key w => exact .abandoned key w
  case ack m =>
    change Step encode bus (.ack m) (bus.ack m)
    unfold InMemoryEventBus.ack
    split
    · rename_i message hm
      split
      · refine .idle _ fun m' x hop hx => ?_
        cases hop
        rw [hm] at hx
        cases hx
        assumption
      · exact .acked m message hm (Bool.eq_false_iff.mpr ‹_›)
    · rename_i hm
      refine .idle _ fun m' x hop hx => ?_
      cases hop
      rw [hm] at hx
      cases hx
  case nak m delay =>
    refine .after (fun _ h => by cases h) fun bus' h => ?_
    unfold InMemoryEventBus.nak at h
    split at h
    · rename_i message hm
      split at h
      · cases h
      · split at h
        · cases h
          exact .idle _ fun _ _ hop => by cases hop
        · cases h
          exact .naked m delay message hm
    · cases h
      exact .idle _ fun _ _ hop => by cases hop
  case beginSleep key j => exact .sleeping key j
  case requeue key j => exact .requeued key j
  case close =>
    change Step encode bus .close bus.close
    unfold InMemoryEventBus.close
    split
    · exact .idle _ fun _ _ hop => by cases hop
    · exact .closed
  case closeSubscription key =>
    simp only [step]
    split
    · exact .closedSubscription key ‹_›
    · exact .idle _ fun _ _ hop => by cases hop

end Opsia.Event.InMemory
