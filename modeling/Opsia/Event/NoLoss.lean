import Opsia.Event.ExactlyOnce
import Opsia.Event.Relay

/-!
# No event is lost

The claim, the business unit of work, the dead-letter capture, the outcome and the
ack are separate transactions and calls. `LossInv` says what each phase of a
`process` call has already secured, so that a crash between any two steps leaves
an acked message accounted for. The one step that breaks it is the retry of a
superseded call over a processed row; `KeepsProcessed` excludes it.
-/

namespace Opsia.Event

open Runs

/-! ## Accounting for a message -/

/-- The row `k` is processed. -/
def Processed (s : System) (k : EventKey) : Prop :=
  ∃ r, s.ledger.find? k = some r ∧ r.status = .processed

/-- A dead letter of the event and the consumer exists. -/
def DeadLettered (s : System) (k : EventKey) : Prop :=
  ∃ row ∈ s.deadLetters, row.originalEventId = k.1 ∧ row.consumer = k.2

/-- A dead letter with the text of the undecodable message exists. -/
def RawDeadLettered (s : System) (consumer : String) (data : List UInt8) : Prop :=
  ∃ row ∈ s.deadLetters, row.consumer = consumer ∧ row.payload = .raw (PyText.decodeReplace data)

/-- The message is processed by its consumer, or has a dead letter. -/
def Accounted (d : Deployment) (s : System) (consumer : String) (data : List UInt8) : Prop :=
  match d.decode data with
  | none => RawDeadLettered s consumer data
  | some evt => Processed s (evt.eventId, consumer) ∨ DeadLettered s (evt.eventId, consumer)

theorem mem_modify {l : List BusMessage} {n : ℕ} {f : BusMessage → BusMessage} {m : BusMessage}
    (h : m ∈ l.modify n f) : m ∈ l ∨ ∃ x, l[n]? = some x ∧ m = f x := by
  obtain ⟨j, hj⟩ := List.mem_iff_getElem?.mp h
  by_cases hn : n = j
  · subst hn
    rw [List.getElem?_modify_eq] at hj
    obtain ⟨x, hx, rfl⟩ := Option.map_eq_some_iff.mp hj
    exact Or.inr ⟨x, hx, rfl⟩
  · rw [List.getElem?_modify_ne f l hn] at hj
    exact Or.inl (List.mem_of_getElem? hj)

/-- What the phase of a call has secured. -/
structure TaskOk (d : Deployment) (s : System) (t : Task) : Prop where
  /-- a message about to be acked is accounted for -/
  acking : t.phase = .acking → Accounted d s t.consumer t.data
  /-- a call works on its message -/
  origin : ∃ m, s.messages[t.message]? = some m ∧ m.consumer = t.consumer ∧ m.data = t.data
  /-- a claimed event has its row -/
  work : ∀ w, t.phase.work? = some w → d.decode t.data = some w.evt ∧
    (s.ledger.find? (t.key w.evt)).isSome = true
  /-- a captured event has its dead letter -/
  captured : ∀ w, t.phase = .captured w → DeadLettered s (t.key w.evt)

/-- The invariant of the calls. -/
structure LossInv (d : Deployment) (s : System) : Prop where
  /-- an acked message is accounted for -/
  acked : ∀ m ∈ s.messages, m.acked = true → Accounted d s m.consumer m.data
  tasks : ∀ t ∈ s.tasks, TaskOk d s t
  /-- a dead-lettered row has its dead letter -/
  closed : ∀ k r, s.ledger.find? k = some r → r.status = .deadLettered → DeadLettered s k

/-- Messages keep their places, their consumers and their data. -/
def KeepsMessages (s s' : System) : Prop :=
  ∀ (j : ℕ) (m : BusMessage), s.messages[j]? = some m →
    ∃ m' : BusMessage, s'.messages[j]? = some m' ∧ m'.consumer = m.consumer ∧ m'.data = m.data

/-- Nothing is taken back: dead letters and rows stay, a processed row stays
processed or has a dead letter, a row that becomes dead-lettered has one. -/
structure Secures (s s' : System) : Prop where
  deadLetters : ∀ row ∈ s.deadLetters, row ∈ s'.deadLetters
  rows : ∀ k, (s.ledger.find? k).isSome = true → (s'.ledger.find? k).isSome = true
  processed : ∀ k, Processed s k → Processed s' k ∨ DeadLettered s' k
  closed : ∀ k r, s'.ledger.find? k = some r → r.status = .deadLettered → DeadLettered s' k

section

variable {d : Deployment} {s s' : System}

variable {t : Task} {k : EventKey} {p : Phase}

theorem DeadLettered.mono (h : DeadLettered s k) (hs : Secures s s') :
    DeadLettered s' k := by
  obtain ⟨row, hrow, hk⟩ := h
  exact ⟨row, hs.deadLetters row hrow, hk⟩

theorem Accounted.mono {consumer : String} {data : List UInt8}
    (h : Accounted d s consumer data) (hs : Secures s s') : Accounted d s' consumer data := by
  rw [Accounted] at h ⊢
  split at h
  · obtain ⟨row, hrow, hraw⟩ := h
    exact ⟨row, hs.deadLetters row hrow, hraw⟩
  · rcases h with h | h
    · exact hs.processed _ h
    · exact Or.inr (h.mono hs)

theorem Secures.of_ledger (h : LossInv d s) (hledger : s'.ledger = s.ledger)
    (hdead : ∀ row ∈ s.deadLetters, row ∈ s'.deadLetters) : Secures s s' where
  deadLetters := hdead
  rows := fun k hk => by rw [hledger]; exact hk
  processed := fun k hk => Or.inl (by rw [Processed, hledger]; exact hk)
  closed := by
    intro k r hr hstatus
    rw [hledger] at hr
    obtain ⟨row, hrow, hk⟩ := h.closed k r hr hstatus
    exact ⟨row, hdead row hrow, hk⟩

/-- One row is rewritten. -/
theorem Secures.of_row (h : LossInv d s) {x : EventProcessing}
    (hother : ∀ k', k' ≠ k → s'.ledger.find? k' = s.ledger.find? k')
    (hrow : s'.ledger.find? k = some x) (hdead : s'.deadLetters = s.deadLetters)
    (hprocessed : Processed s k → x.status = .processed ∨ DeadLettered s k)
    (hclosed : x.status = .deadLettered → DeadLettered s k) : Secures s s' := by
  have hkept : ∀ k', DeadLettered s k' → DeadLettered s' k' := by
    rintro k' ⟨row, hmem, hk⟩
    exact ⟨row, by rw [hdead]; exact hmem, hk⟩
  refine ⟨fun row hmem => by rw [hdead]; exact hmem, fun k' hk' => ?_, fun k' hk' => ?_,
    fun k' r hr hstatus => ?_⟩
  · by_cases hk : k' = k
    · rw [hk, hrow]
      rfl
    · rw [hother k' hk]
      exact hk'
  · by_cases hk : k' = k
    · subst hk
      rcases hprocessed hk' with hx | hx
      · exact Or.inl ⟨x, hrow, hx⟩
      · exact Or.inr (hkept k' hx)
    · exact Or.inl (by rw [Processed, hother k' hk]; exact hk')
  · by_cases hk : k' = k
    · subst hk
      rw [hrow] at hr
      cases hr
      exact hkept k' (hclosed hstatus)
    · rw [hother k' hk] at hr
      exact hkept k' (h.closed k' r hr hstatus)

/-- A claim. -/
theorem Secures.of_begun (h : LossInv d s) {now : Timestamp} {staleSeconds : ℤ}
    {processing : EventProcessingRecord} {ledger : ProcessingLedger}
    (hbegun : Begun s.ledger now staleSeconds k processing ledger) (hledger : s'.ledger = ledger)
    (hdead : s'.deadLetters = s.deadLetters) : Secures s s' := by
  have hother : ∀ k', k' ≠ k → s'.ledger.find? k' = s.ledger.find? k' := by
    intro k' hk'
    rw [hledger, hbegun.find?_ne hk']
  cases hbegun with
  | first _ hr hins =>
    refine .of_row h hother (by rw [hledger, find?_first hins]) hdead ?_ fun hx => by cases hx
    rintro ⟨r, hr', -⟩
    rw [hr] at hr'
    cases hr'
  | again r hr hreclaim =>
    refine .of_row h hother (by rw [hledger, find?_reclaim hr]) hdead ?_ fun hx => by cases hx
    -- a processed row is not claimed
    rintro ⟨x, hx, hstatus⟩
    rw [hr] at hx
    cases hx
    have hopen := EventProcessing.not_terminal_of_reclaimable hreclaim
    rw [hstatus] at hopen
    cases hopen
  | closed | blocked => exact .of_ledger h hledger fun row hmem => by rw [hdead]; exact hmem

theorem Secures.of_outcome (h : LossInv d s) {now : Timestamp} {status : EventProcessingStatus}
    (hrow : (s.ledger.find? k).isSome = true)
    (hledger : s'.ledger = failEventProcessing s.ledger now k status)
    (hdead : s'.deadLetters = s.deadLetters)
    (hprocessed : Processed s k → status = .processed ∨ DeadLettered s k)
    (hclosed : status = .deadLettered → DeadLettered s k) : Secures s s' := by
  obtain ⟨r, hr⟩ := Option.isSome_iff_exists.mp hrow
  refine .of_row h (x := r.outcome status now) (fun k' hk' => ?_) ?_ hdead hprocessed hclosed
  · rw [hledger, find?_failEventProcessing, if_neg hk']
  · rw [hledger, find?_failEventProcessing, if_pos rfl, hr, Option.map_some]

theorem TaskOk.mono (h : TaskOk d s t) (hs : Secures s s') (hm : KeepsMessages s s') :
    TaskOk d s' t where
  acking := fun hphase => (h.acking hphase).mono hs
  origin := by
    obtain ⟨m, hm₁, hconsumer, hdata⟩ := h.origin
    obtain ⟨m', hm', hconsumer', hdata'⟩ := hm _ m hm₁
    exact ⟨m', hm', hconsumer'.trans hconsumer, hdata'.trans hdata⟩
  work := fun w hw => ⟨(h.work w hw).1, hs.rows _ (h.work w hw).2⟩
  captured := fun w hw => (h.captured w hw).mono hs

/-- The invariant follows the step: calls stay or are again in order. -/
theorem LossInv.step (h : LossInv d s) (hs : Secures s s') (hm : KeepsMessages s s')
    (hacked : ∀ m ∈ s'.messages, m.acked = true →
      (∃ x ∈ s.messages, x.acked = true ∧ x.consumer = m.consumer ∧ x.data = m.data) ∨
        Accounted d s' m.consumer m.data)
    (htasks : ∀ t ∈ s'.tasks, t ∈ s.tasks ∨ TaskOk d s' t) : LossInv d s' where
  acked := by
    intro m hmem hm'
    rcases hacked m hmem hm' with ⟨x, hx, hxacked, hconsumer, hdata⟩ | hacc
    · rw [← hconsumer, ← hdata]
      exact (h.acked x hx hxacked).mono hs
    · exact hacc
  tasks := by
    intro t ht
    rcases htasks t ht with ht | ht
    · exact (h.tasks t ht).mono hs hm
    · exact ht
  closed := hs.closed

theorem keepsMessages_of_eq (hmessages : s'.messages = s.messages) : KeepsMessages s s' :=
  fun _ m hm => ⟨m, by rw [hmessages]; exact hm, rfl, rfl⟩

/-- A step of the call `i` that leaves the messages alone. -/
theorem LossInv.move (h : LossInv d s) (hs : Secures s s') {i : ℕ} (ht : s.tasks[i]? = some t)
    (htasks : s'.tasks = s.tasks.set i { t with phase := p }) (hmessages : s'.messages = s.messages)
    (hacking : p = .acking → Accounted d s' t.consumer t.data)
    (hwork : ∀ w, p.work? = some w → d.decode t.data = some w.evt ∧
      (s'.ledger.find? (t.key w.evt)).isSome = true)
    (hcaptured : ∀ w, p = .captured w → DeadLettered s' (t.key w.evt)) : LossInv d s' := by
  have hkeep := keepsMessages_of_eq hmessages
  refine h.step hs hkeep (fun m hm hacked => ?_) fun x hx => ?_
  · rw [hmessages] at hm
    exact Or.inl ⟨m, hm, hacked, rfl, rfl⟩
  · rw [htasks] at hx
    rcases List.mem_or_eq_of_mem_set hx with hx | rfl
    · exact Or.inl hx
    · have horigin := ((h.tasks t (List.mem_of_getElem? ht)).mono hs hkeep).origin
      exact Or.inr ⟨hacking, horigin, hwork, hcaptured⟩

/-- A call that ends without an ack. -/
theorem LossInv.leave (h : LossInv d s) (hs : Secures s s') {i : ℕ} (ht : s.tasks[i]? = some t)
    (htasks : s'.tasks = s.tasks.set i { t with phase := p }) (hmessages : s'.messages = s.messages)
    (hp : p.work? = none) (hne : p ≠ .acking) :
    LossInv d s' := by
  refine h.move hs ht htasks hmessages (fun hacking => absurd hacking hne) (fun w hw => ?_)
    fun w hw => ?_
  · rw [hp] at hw
    cases hw
  · rw [hw] at hp
    cases hp

/-- A call that keeps its claim. -/
theorem LossInv.proceed (h : LossInv d s) (hs : Secures s s') {i : ℕ} {w : Work}
    (ht : s.tasks[i]? = some t) (htasks : s'.tasks = s.tasks.set i { t with phase := p })
    (hmessages : s'.messages = s.messages) (hw : t.phase.work? = some w) (hp : p.work? = some w)
    (hcaptured : p = .captured w → DeadLettered s' (t.key w.evt)) : LossInv d s' := by
  obtain ⟨hdecode, hrow⟩ := (h.tasks t (List.mem_of_getElem? ht)).work w hw
  refine h.move hs ht htasks hmessages (fun hacking => ?_) (fun x hx => ?_) fun x hx => ?_
  · rw [hacking] at hp
    cases hp
  · rw [hp] at hx
    cases hx
    exact ⟨hdecode, hs.rows _ hrow⟩
  · have hwx : w = x := by
      rw [hx] at hp
      exact (Option.some.inj hp).symm
    subst hwx
    exact hcaptured hx

theorem LossInv.settle (h : LossInv d s) {i : ℕ} {f : BusMessage → BusMessage}
    (ht : s.tasks[i]? = some t) (hf : ∀ m, (f m).consumer = m.consumer ∧ (f m).data = m.data)
    (hacked : ∀ m, (f m).acked = true → m.acked = true ∨ t.phase = .acking) (hp : p.work? = none)
    (hne : p ≠ .acking) :
    LossInv d ({ s with messages := s.messages.modify t.message f }.moveTask i t p) := by
  have hok := h.tasks t (List.mem_of_getElem? ht)
  have hsec : Secures s ({ s with messages := s.messages.modify t.message f }.moveTask i t p) :=
    .of_ledger h rfl fun _ hx => hx
  have hkeep : KeepsMessages s
      ({ s with messages := s.messages.modify t.message f }.moveTask i t p) := by
    intro j m hm
    by_cases hj : t.message = j
    · subst hj
      have hget : (s.messages.modify t.message f)[t.message]? = some (f m) := by
        rw [List.getElem?_modify_eq, hm]
        rfl
      exact ⟨f m, hget, hf m⟩
    · exact ⟨m, (List.getElem?_modify_ne f _ hj).trans hm, rfl, rfl⟩
  refine h.step hsec hkeep (fun m hm hm' => ?_) fun x hx => ?_
  · rcases mem_modify hm with hm | ⟨y, hy, rfl⟩
    · exact Or.inl ⟨m, hm, hm', rfl, rfl⟩
    · rcases hacked y hm' with hy' | hacking
      · exact Or.inl ⟨y, List.mem_of_getElem? hy, hy', (hf y).1.symm, (hf y).2.symm⟩
      · -- the acked message is the one of the call
        obtain ⟨x, hx, hconsumer, hdata⟩ := hok.origin
        have hxy : x = y := Option.some.inj (hx.symm.trans hy)
        rw [(hf y).1, (hf y).2, ← hxy, hconsumer, hdata]
        exact Or.inr ((hok.acking hacking).mono hsec)
  · rcases List.mem_or_eq_of_mem_set hx with hx | rfl
    · exact Or.inl hx
    · refine Or.inr ⟨fun hacking => absurd hacking hne, (hok.mono hsec hkeep).origin,
        fun w hw => ?_, fun w hw => ?_⟩
      · rw [show ({ t with phase := p } : Task).phase = p from rfl, hp] at hw
        cases hw
      · rw [show p = .captured w from hw] at hp
        cases hp

end

/-! ## Steps -/

/-- The row of the call `i` is processed. -/
def System.processedRow (s : System) (i : ℕ) : Bool :=
  (s.tasks[i]?).any fun t => t.phase.work?.any fun w =>
    (s.ledger.find? (t.key w.evt)).any fun r => decide (r.status = .processed)

/-- The step does not schedule a retry over a processed row. -/
def KeepsProcessed (s : System) : Op → Bool
  | .retry i => !s.processedRow i
  | _ => true

theorem mem_addDeadLetter_of_recorded (s : System) (outcome : CaptureOutcome)
    (row : EventDeadLetter) (h : outcome.recorded = true) :
    row ∈ (s.addDeadLetter outcome row).deadLetters := by
  rw [System.addDeadLetter]
  rw [if_pos h]
  exact List.mem_append_right _ (List.mem_singleton.mpr rfl)

theorem TaskStep.lossInv {d : Deployment} {s s' : System} {i : ℕ} {t : Task} {op : Op}
    (h : TaskStep d s i t op s') (ht : s.tasks[i]? = some t) (hinv : LossInv d s)
    (hok : KeepsProcessed s op = true) : LossInv d s' := by
  have htask := hinv.tasks t (List.mem_of_getElem? ht)
  have hstill : ∀ p, Secures s (s.moveTask i t p) := fun p => .of_ledger hinv rfl fun _ hx => hx
  cases h with
  | idle => exact hinv
  | moved _ p h =>
    cases h with
    | returned w startedAt events hphase htime =>
      exact hinv.proceed (hstill _) ht rfl rfl (by rw [hphase]; rfl) rfl fun h => by cases h
    | raised w hphase | rolledBack w hphase =>
      exact hinv.proceed (hstill _) ht rfl rfl hphase rfl fun h => by cases h
    | gaveUp | crashed => exact hinv.leave (hstill _) ht rfl rfl rfl fun h => by cases h
  | rawCaptured error outcome hphase hdecode =>
    have hsec : Secures s (captureRawStep s i t error outcome) :=
      .of_ledger hinv rfl fun _ hx => mem_addDeadLetter hx
    cases outcome with
    | captured =>
      refine hinv.move hsec ht rfl rfl (fun _ => ?_) (fun x hx => (by cases hx)) fun x hx => by cases hx
      have hmem : recordRawDeadLetter s.nextId t.data t.consumer error ∈
          (captureRawStep s i t error .captured).deadLetters :=
        mem_addDeadLetter_of_recorded s .captured _ rfl
      rw [Accounted, hdecode]
      exact ⟨_, hmem, rfl, rfl⟩
    | raised => exact hinv.leave hsec ht rfl rfl rfl fun h => by cases h
  | begun evt processing ledger hphase hdecode hbegun =>
    have hsec : Secures s ({ s with ledger }.moveTask i t (processing.next evt)) :=
      .of_begun hinv hbegun rfl rfl
    refine hinv.move hsec ht rfl rfl (fun h => ?_) (fun x hx => ?_) fun x hx => ?_
    · -- a message is acked at once when its row is closed
      rw [Accounted, hdecode]
      cases hbegun with
      | first | again | blocked => cases h
      | closed r hr hclosed =>
        rcases EventProcessingStatus.terminal_cases hclosed with hstatus | hstatus
        · exact Or.inl ⟨r, hr, hstatus⟩
        · exact Or.inr ((hinv.closed _ r hr hstatus).mono hsec)
    · have hevt : x.evt = evt := by
        unfold EventProcessingRecord.next at hx
        split at hx <;> cases hx
        rfl
      subst hevt
      exact ⟨hdecode, hbegun.isSome⟩
    · unfold EventProcessingRecord.next at hx
      split at hx <;> cases hx
  | started w hphase =>
    exact hinv.proceed (hstill _) ht rfl rfl (by rw [hphase]; rfl) rfl fun h => by cases h
  | committed w startedAt events outcome hphase houtcome =>
    have hw : t.phase.work? = some w := by rw [hphase]; rfl
    obtain ⟨hdecode, hrow⟩ := htask.work w hw
    have hsec : ∀ u : System, u.ledger = finishEventProcessing s.ledger startedAt (t.key w.evt) →
        u.deadLetters = s.deadLetters → Secures s u := fun u hledger hdead =>
      .of_outcome hinv hrow hledger hdead (fun _ => Or.inl rfl) fun h => by cases h
    cases outcome with
    | committed =>
      refine hinv.move (hsec (commitStep s i t w startedAt events .committed) rfl rfl) ht rfl rfl
        (fun _ => ?_) (fun x hx => (by cases hx)) fun x hx => by cases hx
      obtain ⟨r, hr⟩ := Option.isSome_iff_exists.mp hrow
      rw [Accounted, hdecode]
      exact Or.inl ⟨r.outcome .processed startedAt, find?_finishEventProcessing hr startedAt, rfl⟩
    | unacknowledged =>
      exact hinv.proceed (hsec (commitStep s i t w startedAt events .unacknowledged) rfl rfl) ht
        rfl rfl hw rfl fun h => by cases h
    | rolledBack => exact absurd rfl houtcome
  | captured w error outcome hphase hspent =>
    have hsec : Secures s (captureStep s i t w error outcome) :=
      .of_ledger hinv rfl fun _ hx => mem_addDeadLetter hx
    have hw : t.phase.work? = some w := by rw [hphase]; rfl
    cases outcome with
    | captured =>
      have hmem : recordDeadLetter w.evt t.consumer error w.attempts ∈
          (captureStep s i t w error .captured).deadLetters :=
        mem_addDeadLetter_of_recorded s .captured _ rfl
      exact hinv.proceed hsec ht rfl rfl hw rfl fun _ => ⟨_, hmem, rfl, rfl⟩
    | raised => exact hinv.proceed hsec ht rfl rfl hw rfl fun h => by cases h
  | deadLettered w hphase =>
    obtain ⟨hdecode, hrow⟩ := htask.work w (by rw [hphase]; rfl)
    have hdead := htask.captured w hphase
    have hsec : Secures s (failStep s i t w .deadLettered .acking) :=
      .of_outcome hinv hrow rfl rfl (fun _ => Or.inr hdead) fun _ => hdead
    refine hinv.move hsec ht rfl rfl (fun _ => ?_) (fun x hx => (by cases hx)) fun x hx => by cases hx
    rw [Accounted, hdecode]
    exact Or.inr (hdead.mono hsec)
  | retried w hphase =>
    have hw : t.phase.work? = some w := by rcases hphase with ⟨h, -⟩ | h <;> rw [h] <;> rfl
    -- the row is not processed
    have hopen : ¬ Processed s (t.key w.evt) := by
      rintro ⟨r, hr, hstatus⟩
      simp [KeepsProcessed, System.processedRow, ht, hw, hr, hstatus] at hok
    have hsec : Secures s (failStep s i t w .retrying .naking) :=
      .of_outcome hinv (htask.work w hw).2 rfl rfl (fun h => absurd h hopen) fun h => by cases h
    exact hinv.leave hsec ht rfl rfl rfl fun h => by cases h
  | acked raised hphase =>
    refine hinv.settle ht (fun _ => ⟨rfl, rfl⟩) (fun _ _ => Or.inr hphase) ?_ fun h => ?_
    · cases raised <;> rfl
    · cases raised <;> cases h
  | naked hphase =>
    exact hinv.settle ht (fun _ => ⟨rfl, rfl⟩) (fun _ hm => Or.inl hm) rfl fun h => by cases h

theorem step_lossInv (d : Deployment) (s : System) (op : Op) (hinv : LossInv d s)
    (hok : KeepsProcessed s op = true) : LossInv d (step d s op) := by
  -- steps that leave the calls, the ledger and the messages alone
  have hkeep : ∀ s' : System, s'.ledger = s.ledger → s'.tasks = s.tasks →
      s'.messages = s.messages → (∀ row ∈ s.deadLetters, row ∈ s'.deadLetters) → LossInv d s' := by
    intro s' hledger htasks hmessages hdead
    refine hinv.step (.of_ledger hinv hledger hdead) (keepsMessages_of_eq hmessages)
      (fun m hm hacked => ?_) fun t ht => ?_
    · rw [hmessages] at hm
      exact Or.inl ⟨m, hm, hacked, rfl, rfl⟩
    · rw [htasks] at ht
      exact Or.inl ht
  generalize hs' : step d s op = s'
  have hstep : Step d s op s' := hs' ▸ step_spec d s op
  cases hstep with
  | idle => exact hinv
  | ticked | relayBegun => exact hkeep _ rfl rfl rfl fun _ hx => hx
  | swept => exact hkeep _ rfl rfl rfl fun _ hx => List.mem_append_left _ hx
  | relay _ _ j r hr hop h =>
    obtain ⟨hledger, htasks, hmessages, hdead⟩ := h.frame
    exact hkeep _ hledger htasks hmessages hdead
  | message consumer data =>
    refine hinv.step (.of_ledger hinv rfl fun _ hx => hx) (fun j m hm => ⟨m, ?_, rfl, rfl⟩)
      (fun m hm hacked => ?_) fun t ht => Or.inl ht
    · have hlt := (List.getElem?_eq_some_iff.mp hm).1
      exact (List.getElem?_append_left hlt).trans hm
    · rcases List.mem_append.mp hm with hm | hm
      · exact Or.inl ⟨m, hm, hacked, rfl, rfl⟩
      · rw [List.mem_singleton.mp hm] at hacked
        cases hacked
  | delivered m message hm hopen hdue =>
    have hlt := (List.getElem?_eq_some_iff.mp hm).1
    refine hinv.step (.of_ledger hinv rfl fun _ hx => hx) (fun j x hx => ?_)
      (fun x hx hacked => ?_) fun t ht => ?_
    · by_cases hj : m = j
      · subst hj
        have hxm : message = x := Option.some.inj (hm.symm.trans hx)
        exact ⟨_, List.getElem?_set_self hlt, by rw [← hxm], by rw [← hxm]⟩
      · exact ⟨x, (List.getElem?_set_ne hj).trans hx, rfl, rfl⟩
    · rcases List.mem_or_eq_of_mem_set hx with hx | rfl
      · exact Or.inl ⟨x, hx, hacked, rfl, rfl⟩
      · exact Or.inl ⟨message, List.mem_of_getElem? hm, hacked, rfl, rfl⟩
    · rcases List.mem_append.mp ht with ht | ht
      · exact Or.inl ht
      · -- the new call has secured nothing yet
        rw [List.mem_singleton.mp ht]
        exact Or.inr ⟨fun h => (by cases h), ⟨_, List.getElem?_set_self hlt, rfl, rfl⟩,
          fun w hw => (by cases hw), fun w hw => by cases hw⟩
  | task _ _ i t ht h => exact h.lossInv ht hinv hok

theorem lossInv_init (d : Deployment) : LossInv d System.init where
  acked := fun _ hm => absurd hm List.not_mem_nil
  tasks := fun _ ht => absurd ht List.not_mem_nil
  closed := fun _ _ hr => by cases hr

/-! ## Where a processed row comes from -/

/-- The entry commits a unit of work for the row `k`: the row is processed, and
every returned event is a row of the outbox, staged by the same transaction
unless its id was known before. -/
def CommitsEvents (k : EventKey) (e : Entry System Op) : Prop :=
  ∃ i t w startedAt events outcome, e.action = .commit i outcome ∧ e.pre.tasks[i]? = some t ∧
    t.phase = .returned w startedAt events ∧ t.key w.evt = k ∧ Processed e.post k ∧
    ∀ evt ∈ events, ∃ row ∈ e.post.outbox.rows, row.eventId = evt.eventId ∧
      (row ∈ e.pre.outbox.rows ∨ ∃ x ∈ events, row = .staged x)

section

variable {d : Deployment} {s s' : System} {k : EventKey}

theorem Processed.of_ledger (h : Processed s' k)
    (hrow : s'.ledger.find? k = s.ledger.find? k) : Processed s k := by
  rw [Processed, ← hrow]
  exact h

theorem Processed.of_begun (h : Processed s' k) {now : Timestamp} {staleSeconds : ℤ}
    {k' : EventKey} {processing : EventProcessingRecord} {ledger : ProcessingLedger}
    (hbegun : Begun s.ledger now staleSeconds k' processing ledger)
    (hledger : s'.ledger = ledger) : Processed s k := by
  rw [Processed, hledger] at h
  by_cases hk : k = k'
  · subst hk
    obtain ⟨x, hx, hstatus⟩ := h
    cases hbegun with
    | first _ hr hins =>
      rw [find?_first hins] at hx
      cases hx
      cases hstatus
    | again r hr hreclaim =>
      rw [find?_reclaim hr] at hx
      cases hx
      cases hstatus
    | closed | blocked => exact ⟨x, hx, hstatus⟩
  · rw [hbegun.find?_ne hk] at h
    exact h

theorem Processed.of_outcome (h : Processed s' k) {now : Timestamp} {k' : EventKey}
    {status : EventProcessingStatus} (hstatus : status ≠ .processed)
    (hledger : s'.ledger = failEventProcessing s.ledger now k' status) : Processed s k := by
  have hfind := find?_failEventProcessing s.ledger now k' k status
  rw [← hledger] at hfind
  by_cases hk : k = k'
  · obtain ⟨x, hx, hprocessed⟩ := h
    rw [if_pos hk] at hfind
    obtain ⟨r, -, rfl⟩ := Option.map_eq_some_iff.mp (hfind.symm.trans hx)
    exact absurd hprocessed hstatus
  · rw [if_neg hk] at hfind
    exact h.of_ledger hfind

theorem commitStep_database (s : System) (i : ℕ) (t : Task) (w : Work) (startedAt : Timestamp)
    (events : List EventEnvelope) {outcome : CommitOutcome} (houtcome : outcome ≠ .rolledBack) :
    (commitStep s i t w startedAt events outcome).ledger =
        finishEventProcessing s.ledger startedAt (t.key w.evt) ∧
      (commitStep s i t w startedAt events outcome).outbox = stageEvents s.outbox events := by
  cases outcome with
  | committed | unacknowledged => exact ⟨rfl, rfl⟩
  | rolledBack => exact absurd rfl houtcome

theorem staged_of_commit {events : List EventEnvelope} {outbox : Outbox} {evt : EventEnvelope}
    (hevt : evt ∈ events) : ∃ row ∈ (stageEvents outbox events).rows,
      row.eventId = evt.eventId ∧ (row ∈ outbox.rows ∨ ∃ x ∈ events, row = .staged x) := by
  obtain ⟨row, hrow, hid⟩ : ∃ row ∈ (stageEvents outbox events).rows,
    row.eventId = evt.eventId := staged_of_mem hevt
  exact ⟨row, hrow, hid, mem_stageEvents hrow⟩

theorem TaskStep.commitsEvents {i : ℕ} {t : Task} {op : Op} (h : TaskStep d s i t op s')
    (ht : s.tasks[i]? = some t) (hopen : ¬ Processed s k) (hprocessed : Processed s' k) :
    CommitsEvents k ⟨s, op, s'⟩ := by
  cases h with
  | committed w startedAt events outcome hphase houtcome =>
    obtain ⟨hledger, houtbox⟩ := commitStep_database s i t w startedAt events houtcome
    by_cases hk : t.key w.evt = k
    · refine ⟨i, t, w, startedAt, events, outcome, rfl, ht, hphase, hk, hprocessed, ?_⟩
      intro evt hevt
      change ∃ row ∈ (commitStep s i t w startedAt events outcome).outbox.rows, _
      rw [houtbox]
      exact staged_of_commit hevt
    · refine absurd (hprocessed.of_ledger ?_) hopen
      rw [hledger, finishEventProcessing, Table.find?_modify_ne _ _ _ (Ne.symm hk)]
  | begun evt processing ledger hphase hdecode hbegun =>
    exact absurd (hprocessed.of_begun hbegun rfl) hopen
  | deadLettered w hphase =>
    exact absurd (hprocessed.of_outcome (by decide) rfl) hopen
  | retried w hphase => exact absurd (hprocessed.of_outcome (by decide) rfl) hopen
  | _ => exact absurd (hprocessed.of_ledger rfl) hopen

theorem step_commitsEvents {op : Op} (hopen : ¬ Processed s k)
    (hprocessed : Processed (step d s op) k) : CommitsEvents k ⟨s, op, step d s op⟩ := by
  generalize hs' : step d s op = s' at hprocessed ⊢
  have hstep : Step d s op s' := hs' ▸ step_spec d s op
  cases hstep with
  | task _ _ i t ht h => exact h.commitsEvents ht hopen hprocessed
  | relay _ _ j r hr hop h => exact absurd (hprocessed.of_ledger (by rw [h.frame.1])) hopen
  | _ => exact absurd (hprocessed.of_ledger rfl) hopen

end

/-! ## Runs -/

/-- The acked message is accounted for in the state `s` after the run `l`: an
undecodable one by its dead letter, an event by its dead letter or by its
processed row, which a unit of work of the run committed with all its events. -/
def NotLost (d : Deployment) (l : List (Entry System Op)) (s : System) (m : BusMessage) : Prop :=
  match d.decode m.data with
  | none => RawDeadLettered s m.consumer m.data
  | some evt =>
    (Processed s (evt.eventId, m.consumer) ∧ ∃ e ∈ l, CommitsEvents (evt.eventId, m.consumer) e) ∨
      DeadLettered s (evt.eventId, m.consumer)

/-- **No event is lost.** In a run that schedules no retry over a processed row,
every acked message is accounted for, and every row of the outbox that is marked
sent was accepted by the broker or has a dead letter. -/
theorem run_no_event_lost (d : Deployment) (ops : List Op)
    (hok : Meets (step d) (fun s op => KeepsProcessed s op = true) System.init ops) :
    (∀ m ∈ (run (step d) System.init ops).messages, m.acked = true →
      NotLost d (trace (step d) System.init ops) (run (step d) System.init ops) m) ∧
    ∀ row ∈ (run (step d) System.init ops).outbox.rows, row.sentAt.isSome = true →
      Delivered (run (step d) System.init ops) row.evt := by
  constructor
  · intro m hm hacked
    have hinv := run_invariant_of_meets (step_lossInv d) (lossInv_init d) hok
    have hacc := hinv.acked m hm hacked
    unfold Accounted at hacc
    unfold NotLost
    split at hacc
    · exact hacc
    · rename_i evt hdecode
      rcases hacc with hprocessed | hdead
      · -- the row was processed by a step of the run
        have hinit : ¬ Processed System.init (evt.eventId, m.consumer) := by
          rintro ⟨r, hr, -⟩
          cases hr
        obtain ⟨e, he, hopen, hdone⟩ :=
          exists_establishing (D := (Processed · (evt.eventId, m.consumer))) hinit hprocessed
        have hpost := (trace_invariant (P := fun _ => True) (fun _ _ _ => trivial) trivial e he).2
        rw [hpost] at hdone
        have hcommits := step_commitsEvents hopen hdone
        rw [← hpost] at hcommits
        exact Or.inl ⟨hprocessed, e, he, hcommits⟩
      · exact Or.inr hdead
  · exact (run_invariant (step_relayInv d) relayInv_init ops).sent

/-! ## A retry that comes too late -/

/-- The second worker of `stalledWorker` acks; the first one resumes. -/
def retryAfterAck : List Op := stalledWorker ++ [.ack 1 false, .retry 0]

/-- The acked message has a row to be retried, which nobody will, and no dead
letter. -/
theorem run_loses_processed :
    ¬ ∀ (d : Deployment) (ops : List Op),
      ∀ m ∈ (run (step d) System.init ops).messages, m.acked = true →
        NotLost d (trace (step d) System.init ops) (run (step d) System.init ops) m := by
  intro h
  have hlost := h defaultDeployment retryAfterAck ⟨"policy", [1], 151, true⟩ (by decide) rfl
  rcases hlost with ⟨⟨r, hr, hstatus⟩, -⟩ | ⟨row, hrow, -⟩
  · have hrow : (run (step defaultDeployment) System.init retryAfterAck).ledger.find?
        ("evt-1", "policy") = some ⟨"evt-1", "policy", .retrying, 2, 91⟩ := by decide
    cases hrow.symm.trans hr
    cases hstatus
  · have hnone : (run (step defaultDeployment) System.init retryAfterAck).deadLetters = [] := by
      decide
    rw [hnone] at hrow
    cases hrow

/-- Without the late retry the acked message is accounted for. -/
theorem run_no_event_lost_acked :
    NotLost defaultDeployment
      (trace (step defaultDeployment) System.init (stalledWorker ++ [.ack 1 false]))
      (run (step defaultDeployment) System.init (stalledWorker ++ [.ack 1 false]))
      ⟨"policy", [1], 151, true⟩ := by
  refine (run_no_event_lost defaultDeployment _ fun e he => ?_).1 _ (by decide) rfl
  have hall : (trace (step defaultDeployment) System.init (stalledWorker ++ [.ack 1 false])).all
      (fun e => KeepsProcessed e.pre e.action) = true := by decide
  exact List.all_eq_true.mp hall e he

end Opsia.Event
