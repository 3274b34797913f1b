import Opsia.Event.Transitions

/-!
# What a sent row stands for

A row of the outbox is marked sent by a relay after the broker accepted its
envelope, in the transaction that records its dead letter, or by the sweep of
abandoned rows, which records one too. Batches of different relays may overlap
(leases expire) and fail in the middle, and relays may die at any point:
`RelayInv` holds after every step.
-/

namespace Opsia.Event

/-- The envelope has a row in the outbox. -/
def InOutbox (s : System) (evt : EventEnvelope) : Prop := ∃ row ∈ s.outbox.rows, row.evt = evt

/-- The envelope was accepted by the broker, or has a dead letter. -/
def Delivered (s : System) (evt : EventEnvelope) : Prop :=
  evt ∈ s.stream ∨ ∃ consumer error, recordDeadLetter evt consumer error 1 ∈ s.deadLetters

/-- A relay works on rows of the outbox, and reports as published what the broker
accepted. -/
structure RelayOk (s : System) (r : RelayRun) : Prop where
  rows : ∀ evt ∈ r.rows, InOutbox s evt
  deadLettering : ∀ evt error, r.phase = .deadLettering evt error → InOutbox s evt
  published : ∀ id ∈ r.published, ∃ evt ∈ s.stream, evt.eventId = id ∧ InOutbox s evt

/-- The invariant of the relays. -/
structure RelayInv (s : System) : Prop where
  relays : ∀ r ∈ s.relays, RelayOk s r
  sent : ∀ row ∈ s.outbox.rows, row.sentAt.isSome = true → Delivered s row.evt

/-- Nothing is taken back: envelopes stay in the outbox and in the stream, dead
letters stay. -/
structure Flows (s s' : System) : Prop where
  outbox : ∀ evt, InOutbox s evt → InOutbox s' evt
  stream : ∀ evt ∈ s.stream, evt ∈ s'.stream
  deadLetters : ∀ row ∈ s.deadLetters, row ∈ s'.deadLetters

section

variable {s s' : System}

variable {evt : EventEnvelope}

theorem Delivered.mono (h : Delivered s evt) (hf : Flows s s') :
    Delivered s' evt := by
  rcases h with h | ⟨consumer, error, h⟩
  · exact Or.inl (hf.stream evt h)
  · exact Or.inr ⟨consumer, error, hf.deadLetters _ h⟩

theorem RelayOk.mono {r : RelayRun} (h : RelayOk s r) (hf : Flows s s') : RelayOk s' r where
  rows := fun evt hevt => hf.outbox evt (h.rows evt hevt)
  deadLettering := fun evt error hphase => hf.outbox evt (h.deadLettering evt error hphase)
  published := by
    intro id hid
    obtain ⟨evt, hstream, hevt, hin⟩ := h.published id hid
    exact ⟨evt, hf.stream evt hstream, hevt, hf.outbox evt hin⟩

/-- The envelope of a row is determined by its id. -/
theorem evt_of_inOutbox (h : InOutbox s evt) {row : OutboxModel} (hrow : row ∈ s.outbox.rows)
    (hid : row.eventId = evt.eventId) : row.evt = evt := by
  obtain ⟨x, hx, rfl⟩ := h
  have hfind := Table.find?_of_mem hx
  have hfind' := Table.find?_of_mem hrow
  rw [hid] at hfind'
  rw [show x.evt.eventId = x.eventId from rfl, hfind] at hfind'
  rw [Option.some.inj hfind']

theorem RelayInv.step (h : RelayInv s) (hf : Flows s s')
    (hrelays : ∀ r ∈ s'.relays, r ∈ s.relays ∨ RelayOk s' r)
    (hsent : ∀ row ∈ s'.outbox.rows, row.sentAt.isSome = true →
      (∃ x ∈ s.outbox.rows, x.evt = row.evt ∧ x.sentAt.isSome = true) ∨ Delivered s' row.evt) :
    RelayInv s' where
  relays := by
    intro r hr
    rcases hrelays r hr with hr | hr
    · exact (h.relays r hr).mono hf
    · exact hr
  sent := by
    intro row hrow hmarked
    rcases hsent row hrow hmarked with ⟨x, hx, hevt, hxsent⟩ | hd
    · rw [← hevt]
      exact (h.sent x hx hxsent).mono hf
    · exact hd

theorem RelayInv.keep (h : RelayInv s) (houtbox : s'.outbox = s.outbox)
    (hrelays : s'.relays = s.relays) (hstream : s'.stream = s.stream)
    (hdead : ∀ row ∈ s.deadLetters, row ∈ s'.deadLetters) : RelayInv s' := by
  refine h.step ⟨fun evt hevt => ?_, fun evt hevt => ?_, hdead⟩ (fun r hr => ?_)
    (fun row hrow hmarked => ?_)
  · rw [InOutbox, houtbox]
    exact hevt
  · rw [hstream]
    exact hevt
  · rw [hrelays] at hr
    exact Or.inl hr
  · rw [houtbox] at hrow
    exact Or.inl ⟨row, hrow, rfl, hmarked⟩

/-! ## The operations of the outbox -/

theorem InOutbox.stage {events : List EventEnvelope} (h : InOutbox s evt)
    (houtbox : s'.outbox = stageEvents s.outbox events) : InOutbox s' evt := by
  obtain ⟨row, hrow, hevt⟩ := h
  refine ⟨row, ?_, hevt⟩
  rw [houtbox]
  exact mem_stageEvents_of_mem hrow

/-- An update that keeps the envelopes. -/
theorem InOutbox.modifyWhere {p : OutboxModel → Bool} {f : OutboxModel → OutboxModel}
    (h : InOutbox s evt) (hf : ∀ r, (f r).eventId = r.eventId) (hevt : ∀ r, (f r).evt = r.evt)
    (houtbox : s'.outbox = s.outbox.modifyWhere p f hf) : InOutbox s' evt := by
  obtain ⟨row, hrow, rfl⟩ := h
  obtain ⟨x, hx, rfl⟩ := Table.exists_mem_modifyWhere p hf hrow
  refine ⟨_, by rw [houtbox]; exact hx, ?_⟩
  split
  · exact hevt row
  · rfl

theorem InOutbox.markSent {now : Timestamp} {ids : List String} (h : InOutbox s evt)
    (houtbox : s'.outbox = markEventsSent s.outbox now ids) :
    InOutbox s' evt :=
  h.modifyWhere (f := (·.markSent now)) (fun _ => rfl) (fun _ => rfl) houtbox

theorem sent_of_markEventsSent {now : Timestamp} {ids : List String}
    (houtbox : s'.outbox = markEventsSent s.outbox now ids)
    (hids : ∀ row ∈ s.outbox.rows, row.eventId ∈ ids → Delivered s' row.evt) :
    ∀ row ∈ s'.outbox.rows, row.sentAt.isSome = true →
      (∃ x ∈ s.outbox.rows, x.evt = row.evt ∧ x.sentAt.isSome = true) ∨ Delivered s' row.evt := by
  intro row hrow hmarked
  rw [houtbox] at hrow
  rcases mem_markEventsSent hrow with ⟨x, hx, hxid, rfl⟩ | hrow
  · exact Or.inr (hids x hx hxid)
  · exact Or.inl ⟨row, hrow, rfl, hmarked⟩

end

/-! ## Steps of a relay -/

variable {s s' : System} {r : RelayRun}

theorem RelayInv.moveRelay {j : ℕ} (h : RelayInv s) (houtbox : s'.outbox = s.outbox)
    (hdead : s'.deadLetters = s.deadLetters) (hstream : ∀ evt ∈ s.stream, evt ∈ s'.stream)
    (hrelays : s'.relays = s.relays.set j r) (hr : RelayOk s' r) : RelayInv s' := by
  refine h.step ⟨fun evt hevt => ?_, hstream, fun row hrow => ?_⟩ (fun x hx => ?_)
    (fun row hrow hmarked => ?_)
  · rw [InOutbox, houtbox]
    exact hevt
  · rw [hdead]
    exact hrow
  · rw [hrelays] at hx
    rcases List.mem_or_eq_of_mem_set hx with hx | rfl
    · exact Or.inl hx
    · exact Or.inr hr
  · rw [houtbox] at hrow
    exact Or.inl ⟨row, hrow, rfl, hmarked⟩

theorem relayInv_publish {j : ℕ} {evt : EventEnvelope} {rows : List EventEnvelope}
    (hok : RelayOk s r) (hrows : r.rows = evt :: rows) (outcome : PublishOutcome)
    (hinv : RelayInv s) :
    RelayInv (relayPublishStep s j r evt rows outcome) := by
  have hhead : InOutbox s evt := hok.rows evt (by rw [hrows]; exact List.mem_cons_self)
  have htail : ∀ x ∈ rows, InOutbox s x :=
    fun x hx => hok.rows x (by rw [hrows]; exact List.mem_cons_of_mem evt hx)
  cases outcome with
  | accepted =>
    have hstream : ∀ x ∈ s.stream, x ∈ s.stream ++ [evt] := fun x hx => List.mem_append_left _ hx
    refine hinv.moveRelay rfl rfl hstream rfl ⟨htail, fun x error h => hok.deadLettering x error h,
      fun id hid => ?_⟩
    rcases List.mem_append.mp hid with hid | hid
    · obtain ⟨x, hx, hxid, hin⟩ := hok.published id hid
      exact ⟨x, hstream x hx, hxid, hin⟩
    · exact ⟨evt, List.mem_append_right _ (List.mem_singleton.mpr rfl),
        (List.mem_singleton.mp hid).symm, hhead⟩
  | raised accepted =>
    have hstream : ∀ x ∈ s.stream, x ∈ if accepted then s.stream ++ [evt] else s.stream := by
      intro x hx
      split
      · exact List.mem_append_left _ hx
      · exact hx
    refine hinv.moveRelay rfl rfl hstream rfl ⟨hok.rows, fun x error h => (by cases h),
      fun id hid => ?_⟩
    obtain ⟨x, hx, hxid, hin⟩ := hok.published id hid
    exact ⟨x, hstream x hx, hxid, hin⟩
  | nonRetryable error =>
    refine hinv.moveRelay rfl rfl (fun x hx => hx) rfl ⟨htail, fun x error' h => ?_, hok.published⟩
    cases h
    exact hhead

theorem RelayStep.relayInv {j : ℕ} (h : RelayStep s j r s') (hr : s.relays[j]? = some r)
    (hinv : RelayInv s) : RelayInv s' := by
  have hok := hinv.relays r (List.mem_of_getElem? hr)
  cases h with
  | idle => exact hinv
  | stopped | interrupted =>
    exact hinv.moveRelay rfl rfl (fun _ hx => hx) rfl
      ⟨hok.rows, fun _ _ h => (by cases h), hok.published⟩
  | published evt rows outcome hrows => exact relayInv_publish hok hrows outcome hinv
  | deadLettered evt error hphase =>
    -- the dead letter is recorded with the mark
    have hf : Flows s ({ s with
        outbox := markEventsSent s.outbox s.now [evt.eventId]
        deadLetters := s.deadLetters ++ [recordDeadLetter evt r.consumerName error 1]
        }.setRelay j { r with phase := .publishing }) :=
      ⟨fun x hx => hx.markSent rfl, fun _ hx => hx,
        fun _ hx => List.mem_append_left _ hx⟩
    refine hinv.step hf (fun x hx => ?_) (sent_of_markEventsSent rfl fun row hrow hid => ?_)
    · rcases List.mem_or_eq_of_mem_set hx with hx | rfl
      · exact Or.inl hx
      · have hmono := hok.mono hf
        exact Or.inr ⟨hmono.rows, fun _ _ h => (by cases h), hmono.published⟩
    · rw [evt_of_inOutbox (hok.deadLettering evt error hphase) hrow (List.mem_singleton.mp hid)]
      exact Or.inr ⟨_, _, List.mem_append_right _ (List.mem_singleton.mpr rfl)⟩
  | marked =>
    have hf : Flows s ({ s with
        outbox := markEventsSent s.outbox s.now r.published }.setRelay j
          { r with phase := .stopped }) :=
      ⟨fun x hx => hx.markSent rfl, fun _ hx => hx, fun _ hx => hx⟩
    refine hinv.step hf (fun x hx => ?_) (sent_of_markEventsSent rfl fun row hrow hid => ?_)
    · rcases List.mem_or_eq_of_mem_set hx with hx | rfl
      · exact Or.inl hx
      · have hmono := hok.mono hf
        exact Or.inr ⟨hmono.rows, fun _ _ h => (by cases h), hmono.published⟩
    · obtain ⟨evt, hstream, hevt, hin⟩ := hok.published _ hid
      rw [evt_of_inOutbox hin hrow hevt.symm]
      exact Or.inl hstream

/-! ## Steps of the system -/

theorem mem_addDeadLetter {outcome : CaptureOutcome} {row x : EventDeadLetter}
    (h : x ∈ s.deadLetters) : x ∈ (s.addDeadLetter outcome row).deadLetters := by
  rw [System.addDeadLetter]
  split
  · exact List.mem_append_left _ h
  · exact h

/-- A `process` call only stages rows. -/
theorem TaskStep.relayInv {d : Deployment} {i : ℕ} {t : Task} {op : Op} (h : TaskStep d s i t op s')
    (hinv : RelayInv s) : RelayInv s' := by
  cases h with
  | committed w startedAt events outcome hphase houtcome =>
    have hstage : ∀ u : System, u.outbox = stageEvents s.outbox events → u.relays = s.relays →
        u.stream = s.stream → u.deadLetters = s.deadLetters → RelayInv u := by
      intro u houtbox hrelays hstream hdead
      refine hinv.step ⟨fun evt hevt => hevt.stage houtbox, fun evt hevt => ?_, fun row hrow => ?_⟩
        (fun r hr => Or.inl (hrelays ▸ hr)) (fun row hrow hmarked => ?_)
      · rw [hstream]
        exact hevt
      · rw [hdead]
        exact hrow
      · -- a staged row is not sent
        rw [houtbox] at hrow
        rcases mem_stageEvents hrow with hrow | ⟨evt, -, rfl⟩
        · exact Or.inl ⟨row, hrow, rfl, hmarked⟩
        · cases hmarked
    cases outcome with
    | committed | unacknowledged => exact hstage _ rfl rfl rfl rfl
    | rolledBack => exact absurd rfl houtcome
  | rawCaptured error outcome hphase hdecode =>
    exact hinv.keep rfl rfl rfl fun row hrow => mem_addDeadLetter hrow
  | captured w error outcome hphase hspent =>
    exact hinv.keep rfl rfl rfl fun row hrow => mem_addDeadLetter hrow
  | _ => exact hinv.keep rfl rfl rfl fun _ hrow => hrow

theorem step_relayInv (d : Deployment) (s : System) (op : Op) (hinv : RelayInv s) :
    RelayInv (step d s op) := by
  generalize hs' : step d s op = s'
  have hstep : Step d s op s' := hs' ▸ step_spec d s op
  cases hstep with
  | idle | ticked | message | delivered => exact hinv.keep rfl rfl rfl fun _ hrow => hrow
  | task _ _ i t ht h => exact h.relayInv hinv
  | relay _ _ j r hr hop h => exact h.relayInv hr hinv
  | relayBegun source limit appNow locked =>
    have hout : ∀ u : System,
        u.outbox = (unsentEvents s.outbox s.now appNow s.nextId limit source locked).2 →
          ∀ evt, InOutbox s evt → InOutbox u evt := fun u hu evt hevt =>
      hevt.modifyWhere (f := (·.lease s.nextId (appNow + defaultOutboxLeaseSeconds)))
        (fun _ => rfl) (fun _ => rfl) hu
    refine hinv.step ⟨hout _ rfl, fun _ hx => hx, fun _ hx => hx⟩ (fun r hr => ?_)
      (fun row hrow hmarked => ?_)
    · rcases List.mem_append.mp hr with hr | hr
      · exact Or.inl hr
      · -- the batch is of rows of the outbox
        rw [List.mem_singleton.mp hr]
        exact Or.inr ⟨fun evt hevt => hout _ rfl evt (mem_unsentEvents_batch appNow s.nextId hevt),
          fun _ _ h => (by cases h), fun _ h => absurd h List.not_mem_nil⟩
    · rcases mem_unsentEvents hrow with ⟨x, hx, rfl⟩ | hrow
      · exact Or.inl ⟨x, hx, rfl, hmarked⟩
      · exact Or.inl ⟨row, hrow, rfl, hmarked⟩
  | swept cutoff limit =>
    refine hinv.step ⟨fun evt hevt => hevt.markSent rfl, fun _ hx => hx,
      fun _ hx => List.mem_append_left _ hx⟩ (fun _ hr => Or.inl hr)
      (sent_of_markEventsSent rfl fun row hrow hid => ?_)
    -- the row of a swept id is the swept row
    obtain ⟨x, hx, hxid⟩ := List.mem_map.mp hid
    have hxrow := (List.mem_filter.mp (List.mem_of_mem_take hx)).1
    rw [evt_of_inOutbox ⟨x, hxrow, rfl⟩ hrow hxid.symm]
    exact Or.inr ⟨_, _, List.mem_append_right _ (List.mem_map.mpr ⟨x, hx, rfl⟩)⟩

theorem relayInv_init : RelayInv System.init :=
  ⟨fun _ hr => absurd hr List.not_mem_nil, fun _ hrow => absurd hrow List.not_mem_nil⟩

end Opsia.Event
