import Opsia.Event.Runtime

/-!
# The transitions of the event system

What `step` does, by cases: `TaskStep` for a step of a `process` call, `RelayStep`
for a step of a `run_once` call, `Step` for the whole system. Every invariant is
proved from these, never from the code of `step`.
-/

namespace Opsia.Event

section

variable (d : Deployment) (s : System) (i : ℕ) (t : Task)

/-- A phase that follows without touching the database: the handler returns or
raises, the unit of work is rolled back, the call gives up, its process dies. -/
inductive Moves : Op → Phase → Prop
  | returned (w : Work) (startedAt : Timestamp) (events : List EventEnvelope)
      (hphase : t.phase = .handling w startedAt)
      (htime : s.now ≤ startedAt + (d.policy t.consumer).handlerTimeoutSeconds) :
      Moves (.handlerReturns i events) (.returned w startedAt events)
  | raised (w : Work) (hphase : t.phase.work? = some w) : Moves (.handlerRaises i) (.failing w)
  | rolledBack (w : Work) (hphase : t.phase.work? = some w) :
      Moves (.commit i .rolledBack) (.failing w)
  | gaveUp : Moves (.giveUp i) .naking
  | crashed : Moves (.crash i) .crashed

/-- The steps of the call `i`, which stands at `t`. -/
inductive TaskStep : Op → System → Prop
  | idle (op : Op) : TaskStep op s
  | moved (op : Op) (p : Phase) (h : Moves d s i t op p) : TaskStep op (s.moveTask i t p)
  /-- an undecodable message -/
  | rawCaptured (error : String) (outcome : CaptureOutcome) (hphase : t.phase = .received)
      (hdecode : d.decode t.data = none) :
      TaskStep (.captureRaw i error outcome) (captureRawStep s i t error outcome)
  /-- the claim transaction -/
  | begun (evt : EventEnvelope) (processing : EventProcessingRecord) (ledger : ProcessingLedger)
      (hphase : t.phase = .received) (hdecode : d.decode t.data = some evt)
      (hbegun : Begun s.ledger s.now d.processingStaleSeconds (t.key evt) processing ledger) :
      TaskStep (.begin i) ({ s with ledger }.moveTask i t (processing.next evt))
  | started (w : Work) (hphase : t.phase = .claimed w) :
      TaskStep (.start i) (s.moveTask i t (.handling w s.now))
  /-- the unit of work is committed -/
  | committed (w : Work) (startedAt : Timestamp) (events : List EventEnvelope)
      (outcome : CommitOutcome) (hphase : t.phase = .returned w startedAt events)
      (houtcome : outcome ≠ .rolledBack) :
      TaskStep (.commit i outcome) (commitStep s i t w startedAt events outcome)
  | captured (w : Work) (error : String) (outcome : CaptureOutcome) (hphase : t.phase = .failing w)
      (hspent : (d.policy t.consumer).maxAttempts ≤ w.attempts) :
      TaskStep (.capture i error outcome) (captureStep s i t w error outcome)
  | deadLettered (w : Work) (hphase : t.phase = .captured w) :
      TaskStep (.deadLetter i) (failStep s i t w .deadLettered .acking)
  | retried (w : Work) (hphase : (t.phase = .failing w ∧
      w.attempts < (d.policy t.consumer).maxAttempts) ∨ t.phase = .captureFailed w) :
      TaskStep (.retry i) (failStep s i t w .retrying .naking)
  | acked (raised : Bool) (hphase : t.phase = .acking) :
      TaskStep (.ack i raised)
        ({ s with
            messages := s.messages.modify t.message fun m => { m with acked := true } }.moveTask i t
          (if raised then .naking else .settled))
  | naked (hphase : t.phase = .naking) :
      TaskStep (.nak i)
        ({ s with
            messages := s.messages.modify t.message fun m =>
              { m with
                availableAt := s.now + (d.policy t.consumer).retryDelaySeconds } }.moveTask i t
          .settled)

end

section

variable (s : System) (j : ℕ) (r : RelayRun)

/-- The steps of the relay call `j`, which stands at `r`. -/
inductive RelayStep : System → Prop
  | idle : RelayStep s
  /-- the call ends -/
  | stopped : RelayStep (s.setRelay j { r with phase := .stopped })
  /-- `mark_events_dead_lettered` raised -/
  | interrupted : RelayStep (s.setRelay j { r with phase := .marking })
  | published (evt : EventEnvelope) (rows : List EventEnvelope) (outcome : PublishOutcome)
      (hrows : r.rows = evt :: rows) : RelayStep (relayPublishStep s j r evt rows outcome)
  | deadLettered (evt : EventEnvelope) (error : String)
      (hphase : r.phase = .deadLettering evt error) :
      RelayStep
        ({ s with
            outbox := markEventsSent s.outbox s.now [evt.eventId]
            deadLetters := s.deadLetters ++ [recordDeadLetter evt r.consumerName error 1]
            }.setRelay j { r with phase := .publishing })
  | marked :
      RelayStep
        ({ s with outbox := markEventsSent s.outbox s.now r.published }.setRelay j
          { r with phase := .stopped })

end

/-- The steps of the system. -/
inductive Step (d : Deployment) (s : System) : Op → System → Prop
  | idle (op : Op) : Step d s op s
  | ticked (seconds : ℕ) : Step d s (.tick seconds) { s with now := s.now + seconds }
  | message (consumer : String) (data : List UInt8) :
      Step d s (.message consumer data)
        { s with messages := s.messages ++ [⟨consumer, data, s.now, false⟩] }
  | delivered (m : ℕ) (message : BusMessage) (hm : s.messages[m]? = some message)
      (hopen : message.acked = false) (hdue : message.availableAt ≤ s.now) :
      Step d s (.deliver m)
        { s with
          messages := s.messages.set m { message with availableAt := s.now + d.ackWaitSeconds }
          tasks := s.tasks ++ [⟨m, message.consumer, message.data, .received⟩] }
  | task (op : Op) (s' : System) (i : ℕ) (t : Task) (ht : s.tasks[i]? = some t)
      (h : TaskStep d s i t op s') : Step d s op s'
  | relayBegun (source : Option String) (limit : ℕ) (appNow : Timestamp) (locked : List String) :
      Step d s (.relayBegin source limit appNow locked)
        { s with
          outbox := (unsentEvents s.outbox s.now appNow s.nextId limit source locked).2
          nextId := s.nextId + 1
          relays := s.relays ++
            [⟨source, (unsentEvents s.outbox s.now appNow s.nextId limit source locked).1, [],
              .publishing⟩] }
  | relay (op : Op) (s' : System) (j : ℕ) (r : RelayRun) (hr : s.relays[j]? = some r)
      (hop : op.task? = none) (h : RelayStep s j r s') : Step d s op s'
  | swept (cutoff : Timestamp) (limit : ℕ) :
      Step d s (.sweep cutoff limit)
        { s with
          outbox :=
            (deadLetterUnsentOutboxOlderThan s.outbox s.deadLetters s.now cutoff limit).1
          deadLetters :=
            (deadLetterUnsentOutboxOlderThan s.outbox s.deadLetters s.now cutoff limit).2 }

theorem RelayStep.frame {s s' : System} {j : ℕ} {r : RelayRun} (h : RelayStep s j r s') :
    s'.ledger = s.ledger ∧ s'.tasks = s.tasks ∧ s'.messages = s.messages ∧
      ∀ row ∈ s.deadLetters, row ∈ s'.deadLetters := by
  cases h with
  | published evt rows outcome hrows =>
    cases outcome <;> exact ⟨rfl, rfl, rfl, fun _ hx => hx⟩
  | deadLettered => exact ⟨rfl, rfl, rfl, fun _ hx => List.mem_append_left _ hx⟩
  | _ => exact ⟨rfl, rfl, rfl, fun _ hx => hx⟩

/-! ## `step` takes these transitions -/

theorem taskStep_spec (d : Deployment) (s : System) (i : ℕ) (t : Task) (op : Op)
    (hop : op.task? = some i) : TaskStep d s i t op (taskStep d s i t op) := by
  cases op <;> cases hop
  case captureRaw error outcome =>
    simp only [taskStep]
    split
    · exact .rawCaptured error outcome ‹_› ‹_›
    · exact .idle _
  case begin =>
    simp only [taskStep]
    split
    · exact .begun _ _ _ ‹_› ‹_› (begun ..)
    · exact .idle _
  case start =>
    simp only [taskStep]
    split
    · exact .started _ ‹_›
    · exact .idle _
  case handlerReturns events =>
    simp only [taskStep]
    split
    · rename_i w startedAt hphase
      split
      · exact .moved _ _ (.returned w startedAt events hphase ‹_›)
      · exact .idle _
    · exact .idle _
  case handlerRaises =>
    simp only [taskStep]
    split
    · rename_i w hphase
      exact .moved _ _ (.raised w (by rw [hphase]; rfl))
    · rename_i w startedAt hphase
      exact .moved _ _ (.raised w (by rw [hphase]; rfl))
    · exact .idle _
  case commit outcome =>
    simp only [taskStep]
    split
    · rename_i w startedAt events hphase
      by_cases houtcome : outcome = .rolledBack
      · subst houtcome
        exact .moved _ _ (.rolledBack w (by rw [hphase]; rfl))
      · exact .committed w startedAt events outcome hphase houtcome
    · exact .idle _
  case capture error outcome =>
    simp only [taskStep]
    split
    · rename_i w hphase
      split
      · exact .captured w error outcome hphase ‹_›
      · exact .idle _
    · exact .idle _
  case deadLetter =>
    simp only [taskStep]
    split
    · exact .deadLettered _ ‹_›
    · exact .idle _
  case retry =>
    simp only [taskStep]
    split
    · rename_i w hphase
      split
      · exact .retried w (Or.inl ⟨hphase, ‹_›⟩)
      · exact .idle _
    · exact .retried _ (Or.inr ‹_›)
    · exact .idle _
  case giveUp =>
    simp only [taskStep]
    split
    · exact .moved _ _ .gaveUp
    · exact .moved _ _ .gaveUp
    · exact .moved _ _ .gaveUp
    · exact .moved _ _ .gaveUp
    · split
      · exact .moved _ _ .gaveUp
      · exact .idle _
    · exact .idle _
  case ack raised =>
    simp only [taskStep]
    split
    · exact .acked raised ‹_›
    · exact .idle _
  case nak =>
    simp only [taskStep]
    split
    · exact .naked ‹_›
    · exact .idle _
  case crash => exact .moved _ _ .crashed

theorem relayStep_spec (s : System) (j : ℕ) (r : RelayRun) (op : Op) :
    RelayStep s j r (relayStep s j r op) := by
  cases op
  case relayPublish j' outcome =>
    simp only [relayStep]
    split
    · exact .published _ _ outcome ‹_›
    · exact .idle
  case relayDeadLetter j' raised =>
    simp only [relayStep]
    split
    · rename_i evt error hphase
      split
      · exact .interrupted
      · exact .deadLettered evt error hphase
    · exact .idle
  case relayMark j' raised =>
    simp only [relayStep]
    split
    · split
      · exact .stopped
      · exact .marked
    · exact .idle
  case relayCrash j' => exact .stopped
  all_goals exact .idle

theorem step_spec (d : Deployment) (s : System) (op : Op) : Step d s op (step d s op) := by
  have hcall : Step d s op (callStep d s op) := by
    rw [callStep]
    split
    · rename_i i t hlook
      obtain ⟨i', hi', hmap⟩ := Option.bind_eq_some_iff.mp hlook
      obtain ⟨t', ht', heq⟩ := Option.map_eq_some_iff.mp hmap
      cases heq
      exact .task op _ i t ht' (taskStep_spec d s i t op hi')
    · split
      · rename_i j r hlook
        obtain ⟨j', hj', hmap⟩ := Option.bind_eq_some_iff.mp hlook
        obtain ⟨r', hr', heq⟩ := Option.map_eq_some_iff.mp hmap
        cases heq
        refine .relay op _ j r hr' ?_ (relayStep_spec s j r op)
        -- a step of a relay is a step of no task
        cases op <;> first | rfl | cases hj'
      · exact .idle op
  cases op
  case tick seconds => exact .ticked seconds
  case message consumer data => exact .message consumer data
  case deliver m =>
    simp only [step]
    split
    · rename_i message hm
      split
      · rename_i hready
        exact .delivered m message hm (by simpa using hready.1) hready.2
      · exact .idle _
    · exact .idle _
  case relayBegin source limit appNow locked => exact .relayBegun source limit appNow locked
  case sweep cutoff limit => exact .swept cutoff limit
  all_goals exact hcall

end Opsia.Event
