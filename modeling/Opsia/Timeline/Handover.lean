import Opsia.Timeline.Resume

/-!
# From the timeline snapshot to its stream

A browser reads a snapshot and then one stream from the snapshot's cursor. The snapshot holds the
events up to the end of the query's window; its cursor is the last sequence of the ledger. An
event that is in the ledger by then and occurred at or after the end of the window is in neither
part, and so is one before the retention boundary. `handover_iff_covered` says that nothing else
is missing.
-/

namespace Opsia.Timeline

open Runs Spans

variable {ψ : Type}

/-! ## A snapshot and a stream -/

/-- The frame of `read_timeline_snapshot`. -/
structure SnapshotResponse (ψ : Type) : Type where
  events : List (TimelineEvent (TimelineFact ψ))
  cursor : TimelineCursor
  truncated : Bool

/-- `read_timeline_snapshot`; the cursor row was read before the records. -/
def LedgerState.readTimelineSnapshot (s : LedgerState (TimelineFact ψ))
    (r : TimelineReadResolution ψ) (cursorState : ℕ × ℕ) (now : ℕ) : SnapshotResponse ψ :=
  let snapshot := s.snapshotTimelineEvents r.workspaceId r.predicate cursorState now
    r.maxBatchEvents
  { events := (snapshot.records.filter fun row => r.predicate.matchesSnapshot row.event).map
      TimelineLedgerEvent.event
    cursor := encodeCursor r.binding now snapshot.highWaterSequence
    truncated := snapshot.truncated }

/-- A stream, with the rows that were not in the future when they were committed. -/
structure ObservedStream (ψ : Type) : Type where
  stream : StreamState ψ
  due : List (TimelineLedgerEvent (TimelineFact ψ))

/-- The rows that are not in the future. -/
def dueBy (now : ℕ) (rows : List (TimelineLedgerEvent (TimelineFact ψ))) :
    List (TimelineLedgerEvent (TimelineFact ψ)) :=
  rows.filter fun row => row.event.fact.occurredAt ≤ now

/-- A browser that holds the cursor of a snapshot. -/
def ObservedStream.start (s : LedgerState (TimelineFact ψ)) (now : ℕ) (cursor : TimelineCursor) :
    ObservedStream ψ := ⟨⟨s, now, none, [], cursor, []⟩, dueBy now s.rows⟩

/-- One step. -/
def ObservedStream.step (r : TimelineReadResolution ψ) (o : ObservedStream ψ)
    (action : StreamAction ψ) : ObservedStream ψ :=
  ⟨o.stream.step r action, o.due ++ dueBy o.stream.now (o.stream.committed action)⟩

/-- The browser opens or leaves a stream. -/
def StreamAction.reconnects : StreamAction ψ → Bool
  | .connect | .disconnect => true
  | .ledger _ | .tick _ | .resume | .coverage _ | .wake _ _ | .receive => false

/-- The event has the scope, the source and the filters of the query, from its first instant
on. -/
def TimelineReadResolution.wants (r : TimelineReadResolution ψ)
    (row : TimelineLedgerEvent (TimelineFact ψ)) : Bool :=
  r.predicate.selects row.event &&
    fromDatetime r.predicate.window.fromMs ≤ row.event.fact.occurredAt

/-- **A handover without a gap**, up to a sequence: the snapshot and the stream together hold
every event of the query that was not in the future, and no event twice. -/
structure HandsOver (r : TimelineReadResolution ψ) (snapshot : SnapshotResponse ψ)
    (o : ObservedStream ψ) (through : ℕ) : Prop where
  complete : ∀ row ∈ rowsOf r.workspaceId o.due, r.wants row = true → row.sequence ≤ through →
    row.event ∈ snapshot.events ++ o.stream.received
  once : ((snapshot.events ++ o.stream.received).map TimelineEvent.sourceKey).Nodup

/-- The snapshot covers the ledger: what the query wants of it is retained, and occurred before
the end of the window. -/
def Covered (r : TimelineReadResolution ψ) (s : LedgerState (TimelineFact ψ)) (now : ℕ) : Prop :=
  ∀ row ∈ rowsOf r.workspaceId s.rows, row.event.fact.occurredAt ≤ now → r.wants row = true →
    (s.cursorState r.workspaceId).2 - 1 < row.sequence ∧
      row.event.fact.occurredAt < fromDatetime r.predicate.window.toMs

/-! ## The invariant -/

/-- The events of frames. -/
def TimelineStreamFrame.events : TimelineStreamFrame ψ → List (TimelineEvent (TimelineFact ψ))
  | .event _ sent => [sent]
  | .coverage _ | .resyncRequired _ | .error _ => []

/-- The events that were sent, received or not. -/
def StreamState.sent (s : StreamState ψ) : List (TimelineEvent (TimelineFact ψ)) :=
  s.received ++ s.inFlight.flatMap TimelineStreamFrame.events

/-- The rows of the workspace, those of them that were due, and the last sequence. -/
structure DueView (ψ : Type) : Type where
  rows : List (TimelineLedgerEvent (TimelineFact ψ))
  due : List (TimelineLedgerEvent (TimelineFact ψ))
  last : ℕ

/-- The view of a state. -/
def ObservedStream.view (r : TimelineReadResolution ψ) (o : ObservedStream ψ) : DueView ψ :=
  ⟨o.stream.rows r, rowsOf r.workspaceId o.due, o.stream.ledger.lastSequence r.workspaceId⟩

/-- The rows that were sent, from the high water of the snapshot up to a position: all that were
due, and some of the others. -/
structure SentRows (r : TimelineReadResolution ψ) (v : DueView ψ) (highWater : ℕ)
    (sent : List (TimelineEvent (TimelineFact ψ))) (delivered : ℕ)
    (rows : List (TimelineLedgerEvent (TimelineFact ψ))) : Prop where
  events : sent = rows.map TimelineLedgerEvent.event
  grows : Grows TimelineLedgerEvent.sequence rows
  mem : ∀ row ∈ rows, row ∈ v.rows ∧ highWater < row.sequence ∧ row.sequence ≤ delivered
  complete : ∀ row ∈ v.due, r.streams row = true → highWater < row.sequence →
    row.sequence ≤ delivered → row ∈ rows
  after : highWater ≤ delivered
  le_last : delivered ≤ v.last

/-- A page, and what is due behind it. -/
structure PageRows (r : TimelineReadResolution ψ) (v : DueView ψ) (delivered through : ℕ)
    (full : Bool) (records : List (TimelineLedgerEvent (TimelineFact ψ))) : Prop where
  grows : Grows TimelineLedgerEvent.sequence records
  mem : ∀ row ∈ records, row ∈ v.rows ∧ delivered < row.sequence ∧ row.sequence ≤ through
  due : ∀ row ∈ v.due, r.streams row = true → delivered < row.sequence →
    row.sequence ≤ through →
      row ∈ records ∨ (full = true ∧ ∀ record ∈ records, record.sequence < row.sequence)
  le_last : through ≤ v.last

/-- The variables of the generator. -/
def ObservedStage (r : TimelineReadResolution ψ) (v : DueView ψ) (delivered : ℕ) :
    StreamStage ψ → Prop
  | .starting | .replaying | .waiting => True
  | .reading through => through ≤ v.last
  | .emitting records through full => PageRows r v delivered through full records
  | .refreshing through full => PageRows r v delivered through full []

/-- The stream of a snapshot in the course of a run. -/
structure HandoverOk (r : TimelineReadResolution ψ) (highWater : ℕ) (o : ObservedStream ψ) :
    Prop where
  ledger : LedgerOk o.stream.ledger
  due : ∀ row ∈ o.due, row ∈ o.stream.ledger.rows ∧ row.event.fact.occurredAt ≤ o.stream.now
  sent : ∃ delivered rows, SentRows r (o.view r) highWater o.stream.sent delivered rows ∧
    ∀ session, o.stream.session = some session →
      session.delivered = delivered ∧ ObservedStage r (o.view r) delivered session.stage

variable {r : TimelineReadResolution ψ} {highWater : ℕ} {o : ObservedStream ψ}

/-! ## Steps of the generator -/

variable {rows : List (TimelineLedgerEvent (TimelineFact ψ))} {v : DueView ψ}
  {session : StreamSession ψ} {row : TimelineLedgerEvent (TimelineFact ψ)}

theorem HandoverOk.goOn (h : HandoverOk r highWater o)
    (hsent : SentRows r (o.view r) highWater o.stream.sent session.delivered rows)
    (hstage : ObservedStage r (o.view r) session.delivered session.stage) :
    HandoverOk r highWater ⟨o.stream.goOn session, o.due⟩ where
  ledger := h.ledger
  due := h.due
  sent := ⟨session.delivered, rows, hsent, fun _ hsession => by
    obtain rfl := Option.some.inj hsession
    exact ⟨rfl, hstage⟩⟩

theorem HandoverOk.emit (h : HandoverOk r highWater o) {frame : TimelineStreamFrame ψ}
    {session : Option (StreamSession ψ)} {delivered : ℕ}
    (hsent : SentRows r (o.view r) highWater (o.stream.sent ++ frame.events) delivered rows)
    (hsession : ∀ session', session = some session' →
      session'.delivered = delivered ∧ ObservedStage r (o.view r) delivered session'.stage) :
    HandoverOk r highWater ⟨o.stream.emit frame session, o.due⟩ := by
  refine ⟨h.ledger, h.due, delivered, rows, ?_, hsession⟩
  have hframe : (o.stream.emit frame session).sent = o.stream.sent ++ frame.events := by
    simp [StreamState.sent, StreamState.emit]
  exact hframe ▸ hsent

theorem HandoverOk.emitQuiet (h : HandoverOk r highWater o) {frame : TimelineStreamFrame ψ}
    (hframe : frame.events = []) {session : Option (StreamSession ψ)} {delivered : ℕ}
    (hsent : SentRows r (o.view r) highWater o.stream.sent delivered rows)
    (hsession : ∀ session', session = some session' →
      session'.delivered = delivered ∧ ObservedStage r (o.view r) delivered session'.stage) :
    HandoverOk r highWater ⟨o.stream.emit frame session, o.due⟩ := by
  rw [← List.append_nil o.stream.sent, ← hframe] at hsent
  exact h.emit hsent hsession

theorem HandoverOk.failStream (h : HandoverOk r highWater o) :
    HandoverOk r highWater ⟨o.stream.failStream r session, o.due⟩ := by
  obtain ⟨delivered, rows, hsent, -⟩ := h.sent
  exact h.emitQuiet rfl hsent fun _ hnone => by cases hnone

variable {through : ℕ} {v' : DueView ψ} {cursor : TimelineCursor}

theorem PageRows.moved {delivered : ℕ} (h : PageRows r v delivered through false [])
    {sent : List (TimelineEvent (TimelineFact ψ))}
    (hsent : SentRows r v highWater sent delivered rows) :
    SentRows r v highWater sent (max delivered through) rows where
  events := hsent.events
  grows := hsent.grows
  mem := fun row hrow => by
    obtain ⟨hmem, hafter, hle⟩ := hsent.mem row hrow
    exact ⟨hmem, hafter, by omega⟩
  complete := by
    intro row hrow hstreams hafter hle
    rcases Nat.lt_or_ge delivered row.sequence with hlt | hge
    · rcases h.due row hrow hstreams hlt (by omega) with hnil | ⟨hfull, -⟩
      · exact absurd hnil List.not_mem_nil
      · cases hfull
    · exact hsent.complete row hrow hstreams hafter hge
  after := hsent.after.trans (le_max_left _ _)
  le_last := max_le hsent.le_last h.le_last

theorem HandoverOk.afterPage (session : StreamSession ψ) {full : Bool}
    (h : PageRows r v session.delivered through full [])
    {sent : List (TimelineEvent (TimelineFact ψ))}
    (hsent : SentRows r v highWater sent session.delivered rows) :
    SentRows r v highWater sent (session.afterPage through full).delivered rows ∧
      ObservedStage r v (session.afterPage through full).delivered
        (session.afterPage through full).stage := by
  rw [StreamSession.afterPage]
  cases full with
  | true => exact ⟨hsent, trivial⟩
  | false => exact ⟨h.moved hsent, trivial⟩

theorem HandoverOk.page (h : HandoverOk r highWater o) {delivered : ℕ}
    (hlast : through ≤ (o.view r).last) :
    PageRows r (o.view r) delivered through
      (r.maxBatchEvents ≤ (o.stream.ledger.replayRecords r.workspaceId r.predicate delivered
        through o.stream.now r.maxBatchEvents).length)
      (o.stream.ledger.replayRecords r.workspaceId r.predicate delivered through o.stream.now
        r.maxBatchEvents) := by
  have hgrows : Grows TimelineLedgerEvent.sequence ((span TimelineLedgerEvent.sequence
      (rowsOf r.workspaceId o.stream.ledger.rows) delivered through).filter fun row =>
        r.predicate.sqlPredicate .stream o.stream.now row.event) :=
    List.Pairwise.filter _ (h.ledger.grows r.workspaceId).span
  have hsplit := List.take_append_drop r.maxBatchEvents ((span TimelineLedgerEvent.sequence
    (rowsOf r.workspaceId o.stream.ledger.rows) delivered through).filter fun row =>
      r.predicate.sqlPredicate .stream o.stream.now row.event)
  rw [replayRecords_eq h.ledger]
  refine ⟨hgrows.sublist (List.take_sublist _ _), fun row hrow => ?_, ?_, hlast⟩
  · exact mem_span.mp (List.mem_filter.mp (List.mem_of_mem_take hrow)).1
  · intro row hrow hstreams hafter hle
    obtain ⟨hdue, hworkspace⟩ := List.mem_filter.mp hrow
    obtain ⟨hmem, hoccurred⟩ := h.due row hdue
    -- a row that is due is selected, in the page or behind it
    have hselected : r.predicate.sqlPredicate .stream o.stream.now row.event = true := by
      rw [TimelineEvidencePredicate.sqlPredicate_stream hoccurred]
      exact selected_of_streams hstreams
    have hin : row ∈ (span TimelineLedgerEvent.sequence
        (rowsOf r.workspaceId o.stream.ledger.rows) delivered through).filter fun row =>
          r.predicate.sqlPredicate .stream o.stream.now row.event :=
      List.mem_filter.mpr ⟨mem_span.mpr ⟨List.mem_filter.mpr ⟨hmem, hworkspace⟩, hafter, hle⟩,
        hselected⟩
    rw [← hsplit] at hin hgrows
    obtain ⟨-, -, hcross⟩ := List.pairwise_append.mp hgrows
    rcases List.mem_append.mp hin with htake | hdrop
    · exact Or.inl htake
    · refine Or.inr ⟨?_, fun record hrecord => hcross record hrecord row hdrop⟩
      have hlength := List.length_pos_of_mem hdrop
      rw [List.length_drop] at hlength
      rw [decide_eq_true_eq, List.length_take]
      omega

/-- **One record of a page** is sent, when it is due. -/
theorem HandoverOk.emitRecord (h : HandoverOk r highWater o)
    {record : TimelineLedgerEvent (TimelineFact ψ)}
    {records : List (TimelineLedgerEvent (TimelineFact ψ))} {full : Bool}
    (hsent : SentRows r (o.view r) highWater o.stream.sent session.delivered rows)
    (hpage : PageRows r (o.view r) session.delivered through full (record :: records)) :
    HandoverOk r highWater
      ⟨o.stream.emitRecord r session record records through full, o.due⟩ := by
  obtain ⟨hrow, hafter, hle⟩ := hpage.mem record List.mem_cons_self
  obtain ⟨hbefore, hgrows⟩ := List.pairwise_cons.mp hpage.grows
  have hrest : PageRows r (o.view r) record.sequence through full records := by
    refine ⟨hgrows, fun row hmem => ?_, fun row hdue hstreams hlt hend => ?_, hpage.le_last⟩
    · obtain ⟨hmemRow, -, hend⟩ := hpage.mem row (List.mem_cons_of_mem _ hmem)
      exact ⟨hmemRow, hbefore row hmem, hend⟩
    · rcases hpage.due row hdue hstreams (by omega) hend with hmem | ⟨hfull, hall⟩
      · rcases List.mem_cons.mp hmem with rfl | hmem
        · omega
        · exact Or.inl hmem
      · exact Or.inr ⟨hfull, fun x hx => hall x (List.mem_cons_of_mem _ hx)⟩
  -- what is due up to the record was sent before, or is the record
  have hupTo : ∀ row ∈ (o.view r).due, r.streams row = true → highWater < row.sequence →
      row.sequence ≤ record.sequence → row ∈ rows ∨ row = record := by
    intro row hdue hstreams hwater hend
    rcases Nat.lt_or_ge session.delivered row.sequence with hlt | hge
    · rcases hpage.due row hdue hstreams hlt (by omega) with hmem | ⟨-, hall⟩
      · rcases List.mem_cons.mp hmem with hsame | hmem
        · exact Or.inr hsame
        · have hlater := hbefore row hmem
          omega
      · have hlater := hall record List.mem_cons_self
        omega
    · exact Or.inl (hsent.complete row hdue hstreams hwater hge)
  have hwater := hsent.after
  have hlast := hpage.le_last
  rw [StreamState.emitRecord, if_neg (by omega)]
  dsimp only
  split
  · have hadded : SentRows r (o.view r) highWater (o.stream.sent ++ [record.event])
        record.sequence (rows ++ [record]) := by
      refine ⟨?_, ?_, fun row hmem => ?_, fun row hdue hstreams hwater hend => ?_, by omega,
        by omega⟩
      · rw [hsent.events, List.map_append]
        rfl
      · refine List.pairwise_append.mpr ⟨hsent.grows, List.pairwise_singleton _ _, ?_⟩
        intro row hmem x hx
        rw [List.mem_singleton.mp hx]
        have hlt := (hsent.mem row hmem).2.2
        omega
      · rcases List.mem_append.mp hmem with hmem | hmem
        · obtain ⟨hmemRow, hlt, hend⟩ := hsent.mem row hmem
          exact ⟨hmemRow, hlt, by omega⟩
        · rw [List.mem_singleton.mp hmem]
          exact ⟨hrow, by omega, le_refl _⟩
      · rcases hupTo row hdue hstreams hwater hend with hmem | rfl
        · exact List.mem_append_left _ hmem
        · exact List.mem_append_right _ List.mem_cons_self
    refine h.emit hadded fun session' hsession' => ?_
    obtain rfl := Option.some.inj hsession'
    exact ⟨rfl, hrest⟩
  · rename_i hdropped
    have hkept : SentRows r (o.view r) highWater o.stream.sent record.sequence rows := by
      refine ⟨hsent.events, hsent.grows, fun row hmem => ?_,
        fun row hdue hstreams hwater hend => ?_, by omega, by omega⟩
      · obtain ⟨hmemRow, hlt, hend⟩ := hsent.mem row hmem
        exact ⟨hmemRow, hlt, by omega⟩
      rcases hupTo row hdue hstreams hwater hend with hmem | rfl
      · exact hmem
      · -- the guard drops nothing that is due
        have hoccurred := (h.due row (List.mem_filter.mp hdue).1).2
        rw [streams_eq hoccurred (selected_of_streams hstreams)] at hstreams
        exact absurd hstreams hdropped
    exact h.goOn hkept hrest

theorem HandoverOk.resume (h : HandoverOk r highWater o)
    (hsession : o.stream.session = some session) :
    HandoverOk r highWater ⟨o.stream.resume r session, o.due⟩ := by
  obtain ⟨delivered, rows, hsent, hsessions⟩ := h.sent
  obtain ⟨rfl, hstage⟩ := hsessions session hsession
  obtain ⟨delivered, due, stage⟩ := session
  cases stage with
  | starting | refreshing through full | waiting => exact h
  | replaying =>
    rw [StreamState.resume]
    dsimp only
    split
    · exact h.emitQuiet rfl hsent fun _ hnone => by cases hnone
    · exact h.goOn hsent (Nat.le_of_eq cursorState_fst)
  | reading through => exact h.goOn hsent (h.page hstage)
  | emitting records through full =>
    cases records with
    | cons record records => exact h.emitRecord hsent hstage
    | nil =>
      rw [StreamState.resume]
      dsimp only
      split
      · exact h.goOn hsent hstage
      · obtain ⟨hmoved, hok⟩ := HandoverOk.afterPage
          ⟨delivered, due, .emitting [] through full⟩ hstage hsent
        exact h.goOn hmoved hok

theorem HandoverOk.readCoverage (h : HandoverOk r highWater o)
    (hsession : o.stream.session = some session) (read : CoverageRead) :
    HandoverOk r highWater ⟨o.stream.readCoverage r session read, o.due⟩ := by
  obtain ⟨delivered, rows, hsent, hsessions⟩ := h.sent
  obtain ⟨rfl, hstage⟩ := hsessions session hsession
  obtain ⟨delivered, due, stage⟩ := session
  cases stage with
  | replaying | reading through | emitting records through full | waiting =>
    cases read <;> exact h
  | starting =>
    cases read with
    | failed => exact h.failStream
    | unchanged => exact h.goOn hsent trivial
    | additions =>
      refine h.emitQuiet rfl hsent fun session' hsession' => ?_
      obtain rfl := Option.some.inj hsession'
      exact ⟨rfl, trivial⟩
  | refreshing through full =>
    obtain ⟨hmoved, hok⟩ := HandoverOk.afterPage
      ⟨delivered, false, .refreshing through full⟩ hstage hsent
    cases read with
    | failed => exact h.failStream
    | unchanged => exact h.goOn hmoved hok
    | additions =>
      refine h.emitQuiet rfl hmoved fun session' hsession' => ?_
      obtain rfl := Option.some.inj hsession'
      exact ⟨rfl, hok⟩

theorem HandoverOk.wakeUp (h : HandoverOk r highWater o)
    (hsession : o.stream.session = some session) (wake : WakeUp) (refreshDue : Bool) :
    HandoverOk r highWater ⟨o.stream.wakeUp r session wake refreshDue, o.due⟩ := by
  obtain ⟨delivered, rows, hsent, hsessions⟩ := h.sent
  obtain ⟨rfl, -⟩ := hsessions session hsession
  obtain ⟨delivered, due, stage⟩ := session
  cases stage with
  | starting | replaying | reading through | emitting records through full
  | refreshing through full => cases wake <;> exact h
  | waiting =>
    cases wake with
    | closed => exact h.failStream
    | appended | timeout | overflow => exact h.goOn hsent trivial

/-! ## Other steps -/

theorem HandoverOk.receive (h : HandoverOk r highWater o) :
    HandoverOk r highWater ⟨o.stream.receive, o.due⟩ := by
  obtain ⟨delivered, rows, hsent, hsessions⟩ := h.sent
  have hsame : o.stream.receive.sent = o.stream.sent := by
    rw [StreamState.receive, StreamState.sent, StreamState.sent]
    rcases hframes : o.stream.inFlight with _ | ⟨frame, rest⟩
    · simp [hframes]
    · cases frame <;> simp [TimelineStreamFrame.events]
  have hkept : o.stream.receive.ledger = o.stream.ledger ∧ o.stream.receive.now = o.stream.now ∧
      o.stream.receive.session = o.stream.session := by
    rw [StreamState.receive]
    rcases o.stream.inFlight with _ | ⟨frame, rest⟩
    · exact ⟨rfl, rfl, rfl⟩
    · cases frame <;> exact ⟨rfl, rfl, rfl⟩
  obtain ⟨hledger, hnow, hsession⟩ := hkept
  have hview : ObservedStream.view r ⟨o.stream.receive, o.due⟩ = o.view r := by
    simp [ObservedStream.view, StreamState.rows, hledger]
  refine ⟨hledger ▸ h.ledger, ?_, delivered, rows, ?_, ?_⟩
  · rw [hledger, hnow]
    exact h.due
  · rw [hview]
    dsimp only
    rw [hsame]
    exact hsent
  · rw [hview, hsession]
    exact hsessions

theorem HandoverOk.tick (h : HandoverOk r highWater o) (elapsed : ℕ) :
    HandoverOk r highWater
      ⟨{ o.stream with now := o.stream.now + elapsed }, o.due⟩ where
  ledger := h.ledger
  due := fun row hrow => ⟨(h.due row hrow).1, (h.due row hrow).2.trans (Nat.le_add_right _ _)⟩
  sent := h.sent

/-- A view of more rows: those that come later are behind the last sequence. -/
structure DueView.Grows (v v' : DueView ψ) : Prop where
  rows : ∃ later, v'.rows = v.rows ++ later ∧ ∀ row ∈ later, v.last < row.sequence
  kept : ∀ row ∈ v.due, row ∈ v'.due
  due : ∀ row ∈ v'.due, row ∈ v.due ∨ v.last < row.sequence
  last : v.last ≤ v'.last

theorem DueView.Grows.mem (h : v.Grows v') (hrow : row ∈ v.rows) :
    row ∈ v'.rows := by
  obtain ⟨later, hrows, -⟩ := h.rows
  rw [hrows]
  exact List.mem_append_left _ hrow

theorem DueView.Grows.refl (v : DueView ψ) : v.Grows v where
  rows := ⟨[], (List.append_nil _).symm, by simp⟩
  kept := fun _ => id
  due := fun _ => Or.inl
  last := le_refl _

theorem DueView.Grows.trans {v'' : DueView ψ} (h : v.Grows v') (h' : v'.Grows v'') :
    v.Grows v'' where
  rows := by
    obtain ⟨later, hrows, hlater⟩ := h.rows
    obtain ⟨more, hmoreRows, hmore⟩ := h'.rows
    refine ⟨later ++ more, by rw [hmoreRows, hrows, List.append_assoc], fun row hrow => ?_⟩
    rcases List.mem_append.mp hrow with hrow | hrow
    · exact hlater row hrow
    · exact Nat.lt_of_le_of_lt h.last (hmore row hrow)
  kept := fun row hrow => h'.kept row (h.kept row hrow)
  due := by
    intro row hrow
    rcases h'.due row hrow with hdue | hlater
    · exact h.due row hdue
    · exact Or.inr (Nat.lt_of_le_of_lt h.last hlater)
  last := h.last.trans h'.last

theorem SentRows.more {sent : List (TimelineEvent (TimelineFact ψ))} {delivered : ℕ}
    (h : SentRows r v highWater sent delivered rows) (hgrows : v.Grows v') :
    SentRows r v' highWater sent delivered rows where
  events := h.events
  grows := h.grows
  mem := fun row hrow => ⟨hgrows.mem (h.mem row hrow).1, (h.mem row hrow).2⟩
  complete := by
    intro row hrow hstreams hafter hle
    have hlast := h.le_last
    rcases hgrows.due row hrow with hdue | hlater
    · exact h.complete row hdue hstreams hafter hle
    · omega
  after := h.after
  le_last := h.le_last.trans hgrows.last

theorem PageRows.more {delivered : ℕ} {full : Bool}
    {records : List (TimelineLedgerEvent (TimelineFact ψ))}
    (h : PageRows r v delivered through full records) (hgrows : v.Grows v') :
    PageRows r v' delivered through full records where
  grows := h.grows
  mem := fun row hrow => ⟨hgrows.mem (h.mem row hrow).1, (h.mem row hrow).2⟩
  due := by
    intro row hrow hstreams hafter hle
    have hlast := h.le_last
    rcases hgrows.due row hrow with hdue | hlater
    · exact h.due row hdue hstreams hafter hle
    · omega
  le_last := h.le_last.trans hgrows.last

theorem ObservedStage.more {delivered : ℕ} {stage : StreamStage ψ}
    (h : ObservedStage r v delivered stage) (hgrows : v.Grows v') :
    ObservedStage r v' delivered stage := by
  cases stage with
  | starting | replaying | waiting => trivial
  | reading through => exact Nat.le_trans h hgrows.last
  | emitting records through full => exact PageRows.more h hgrows
  | refreshing through full => exact PageRows.more h hgrows

theorem view_ledgerStep (h : LedgerOk o.stream.ledger) (action : LedgerAction (TimelineFact ψ)) :
    (o.view r).Grows ((o.step r (.ledger action)).view r) := by
  obtain ⟨later, hrows, hlater, hlast⟩ := h.exists_later r.workspaceId action
  obtain ⟨more, hmore⟩ := exists_rows_step o.stream.ledger action
  have hcommitted : o.stream.committed (.ledger action) = more := by
    rw [StreamState.committed, hmore, List.drop_left]
  have hsame : rowsOf r.workspaceId more = later := by
    rw [hmore, rowsOf_append] at hrows
    exact List.append_cancel_left hrows
  have hdue : ((o.step r (.ledger action)).view r).due =
      (o.view r).due ++ rowsOf r.workspaceId (dueBy o.stream.now more) := by
    rw [← hcommitted]
    exact rowsOf_append
  refine ⟨⟨later, hrows, hlater⟩, fun row hrow => ?_, fun row hrow => ?_, hlast⟩
  · rw [hdue]
    exact List.mem_append_left _ hrow
  · rw [hdue] at hrow
    rcases List.mem_append.mp hrow with hrow | hrow
    · exact Or.inl hrow
    · refine Or.inr (hlater row ?_)
      obtain ⟨hin, hworkspace⟩ := List.mem_filter.mp hrow
      rw [← hsame]
      exact List.mem_filter.mpr ⟨(List.mem_filter.mp hin).1, hworkspace⟩

theorem HandoverOk.ledgerStep (h : HandoverOk r highWater o)
    (action : LedgerAction (TimelineFact ψ)) :
    HandoverOk r highWater (o.step r (.ledger action)) := by
  have hgrows := view_ledgerStep (r := r) h.ledger action
  obtain ⟨more, hmore⟩ := exists_rows_step o.stream.ledger action
  obtain ⟨delivered, rows, hsent, hsessions⟩ := h.sent
  refine ⟨h.ledger.step action, fun row hrow => ?_, delivered, rows, hsent.more hgrows,
    fun session hsession => ?_⟩
  · change row ∈ (o.stream.ledger.step action).rows ∧ _
    rw [hmore]
    rcases List.mem_append.mp hrow with hrow | hrow
    · obtain ⟨hmem, hoccurred⟩ := h.due row hrow
      exact ⟨List.mem_append_left _ hmem, hoccurred⟩
    · rw [StreamState.committed, hmore, List.drop_left] at hrow
      obtain ⟨hmem, hoccurred⟩ := List.mem_filter.mp hrow
      exact ⟨List.mem_append_right _ hmem, of_decide_eq_true hoccurred⟩
  · obtain ⟨hdelivered, hstage⟩ := hsessions session hsession
    exact ⟨hdelivered, hstage.more hgrows⟩

/-- **Every step of an open stream keeps the invariant.** -/
theorem HandoverOk.step (h : HandoverOk r highWater o) {action : StreamAction ψ}
    (hstays : action.reconnects = false) : HandoverOk r highWater (o.step r action) := by
  have hsome : ∀ f : StreamSession ψ → StreamState ψ,
      (∀ session, o.stream.session = some session → HandoverOk r highWater ⟨f session, o.due⟩) →
        HandoverOk r highWater ⟨o.stream.session.elim o.stream f, o.due⟩ := by
    intro f hf
    rcases hsession : o.stream.session with _ | session
    · exact h
    · exact hf session hsession
  -- only a step of the ledger commits rows
  have hdue : o.due ++ dueBy o.stream.now [] = o.due := List.append_nil _
  cases action with
  | ledger action => exact h.ledgerStep action
  | tick elapsed =>
    rw [ObservedStream.step, StreamState.committed, hdue]
    exact h.tick elapsed
  | connect | disconnect => cases hstays
  | resume =>
    rw [ObservedStream.step, StreamState.committed, hdue]
    exact hsome _ fun _ hsession => h.resume hsession
  | coverage read =>
    rw [ObservedStream.step, StreamState.committed, hdue]
    exact hsome _ fun _ hsession => h.readCoverage hsession read
  | wake wake refreshDue =>
    rw [ObservedStream.step, StreamState.committed, hdue]
    exact hsome _ fun _ hsession => h.wakeUp hsession wake refreshDue
  | receive =>
    rw [ObservedStream.step, StreamState.committed, hdue]
    exact h.receive

/-! ## Runs -/

theorem view_step (h : LedgerOk o.stream.ledger) (action : StreamAction ψ) :
    (o.view r).Grows ((o.step r action).view r) := by
  rcases ledger_step (r := r) (s := o.stream) action with ⟨step, rfl⟩ | ⟨hledger, hnone⟩
  · exact view_ledgerStep h step
  · have hdue : (o.step r action).due = o.due := by
      rw [ObservedStream.step, hnone]
      exact List.append_nil _
    have hview : (o.step r action).view r = o.view r := by
      rw [ObservedStream.view, ObservedStream.view, hdue, StreamState.rows, StreamState.rows]
      rw [ObservedStream.step, hledger]
    rw [hview]
    exact DueView.Grows.refl _

theorem LedgerOk.streamStep (h : LedgerOk o.stream.ledger) (action : StreamAction ψ) :
    LedgerOk (o.step r action).stream.ledger := by
  rcases ledger_step (r := r) (s := o.stream) action with ⟨step, rfl⟩ | ⟨hledger, -⟩
  · exact h.step step
  · exact hledger ▸ h

theorem view_run (h : LedgerOk o.stream.ledger) (actions : List (StreamAction ψ)) :
    LedgerOk (run (ObservedStream.step r) o actions).stream.ledger ∧
      (o.view r).Grows ((run (ObservedStream.step r) o actions).view r) := by
  induction actions generalizing o with
  | nil => exact ⟨h, DueView.Grows.refl _⟩
  | cons action actions ih =>
    obtain ⟨hok, hgrows⟩ := ih (h.streamStep (r := r) action)
    exact ⟨hok, (view_step h action).trans hgrows⟩

theorem run_handoverOk (h : HandoverOk r highWater o) {actions : List (StreamAction ψ)}
    (hstays : ∀ action ∈ actions, action.reconnects = false) :
    HandoverOk r highWater (run (ObservedStream.step r) o actions) := by
  induction actions generalizing o with
  | nil => exact h
  | cons action actions ih =>
    exact ih (h.step (hstays action List.mem_cons_self))
      fun next hnext => hstays next (List.mem_cons_of_mem _ hnext)

/-- The browser holds the cursor of the snapshot, and has no stream yet. -/
structure Unopened (cursor : TimelineCursor) (s : StreamState ψ) : Prop where
  session : s.session = none
  inFlight : s.inFlight = []
  received : s.received = []
  cursor : s.cursor = cursor

theorem Unopened.step {s : StreamState ψ} (h : Unopened cursor s) {action : StreamAction ψ}
    (hstays : action.reconnects = false) :
    Unopened cursor (s.step r action) := by
  obtain ⟨hsession, hframes, hreceived, hcursor⟩ := h
  cases action with
  | ledger action | tick elapsed => exact ⟨hsession, hframes, hreceived, hcursor⟩
  | connect | disconnect => cases hstays
  | resume | coverage read | wake wake refreshDue =>
    simp only [StreamState.step, hsession, Option.elim_none]
    exact ⟨hsession, hframes, hreceived, hcursor⟩
  | receive =>
    simp only [StreamState.step, StreamState.receive, hframes]
    exact ⟨hsession, hframes, hreceived, hcursor⟩

theorem run_unopened (h : Unopened cursor o.stream) {actions : List (StreamAction ψ)}
    (hstays : ∀ action ∈ actions, action.reconnects = false) :
    Unopened cursor (run (ObservedStream.step r) o actions).stream := by
  induction actions generalizing o with
  | nil => exact h
  | cons action actions ih =>
    exact ih (o := o.step r action) (h.step (hstays action List.mem_cons_self))
      fun next hnext => hstays next (List.mem_cons_of_mem _ hnext)

theorem HandoverOk.connect (h : HandoverOk r highWater o) (hunopened : Unopened cursor o.stream)
    (hcursor : cursor.sequence = highWater) :
    HandoverOk r highWater (o.step r .connect) := by
  obtain ⟨hsession, hframes, hreceived, rfl⟩ := hunopened
  obtain ⟨delivered, rows, hsent, -⟩ := h.sent
  have hnone : o.due ++ dueBy o.stream.now [] = o.due := List.append_nil _
  rw [ObservedStream.step, StreamState.committed, hnone, StreamState.step, StreamState.connect,
    hsession, hframes]
  rcases hdecode : o.stream.cursor.decode r.binding o.stream.now with _ | afterSequence
  · exact h
  · have hsequence : afterSequence = highWater :=
      (sequence_of_decode hdecode).trans hcursor
    have hnothing : SentRows r (o.view r) highWater o.stream.sent afterSequence [] := by
      refine ⟨?_, List.Pairwise.nil, by simp, ?_, hsequence.ge, ?_⟩
      · simp [StreamState.sent, hreceived, hframes]
      · intro row _ _ hafter hle
        omega
      · rw [hsequence]
        exact hsent.after.trans hsent.le_last
    exact h.goOn hnothing trivial

/-! ## The snapshot -/

/-- The rows that an untruncated snapshot shows. -/
def TimelineReadResolution.shows (r : TimelineReadResolution ψ)
    (row : TimelineLedgerEvent (TimelineFact ψ)) : Bool :=
  r.wants row && row.event.fact.occurredAt < fromDatetime r.predicate.window.toMs

theorem events_of_untruncated {s : LedgerState (TimelineFact ψ)} (h : LedgerOk s)
    {cursorState : ℕ × ℕ} {now : ℕ}
    (huntruncated : (s.readTimelineSnapshot r cursorState now).truncated = false) :
    (s.readTimelineSnapshot r cursorState now).events =
      ((span TimelineLedgerEvent.sequence (rowsOf r.workspaceId s.rows) (cursorState.2 - 1)
        cursorState.1).filter r.shows).map TimelineLedgerEvent.event := by
  rw [LedgerState.readTimelineSnapshot]
  dsimp only
  rw [records_of_untruncated h huntruncated, List.filter_filter]
  refine congrArg (List.map TimelineLedgerEvent.event) (List.filter_congr fun row _ => ?_)
  rw [TimelineReadResolution.shows, TimelineReadResolution.wants,
    TimelineEvidencePredicate.selects, TimelineEvidencePredicate.sqlPredicate,
    TimelineEvidencePredicate.matchesSnapshot, TimelineEvidencePredicate.isWithinSnapshotWindow]
  simp
  grind

/-! ## The handover -/

theorem wants_eq_streams (hlive : r.predicate.mode = .live)
    (row : TimelineLedgerEvent (TimelineFact ψ)) : r.wants row = r.streams row := by
  rw [TimelineReadResolution.wants, TimelineReadResolution.streams,
    TimelineEvidencePredicate.streams, TimelineEvidencePredicate.inStreamWindow, hlive]
  simp

/-- A snapshot of a state `before`, whose records were read in a later state, and a stream that
has sent the rows `sent` after it, up to a position. -/
structure HandedOver (r : TimelineReadResolution ψ) (before : LedgerState (TimelineFact ψ))
    (now : ℕ) (snapshot : SnapshotResponse ψ) (o : ObservedStream ψ) (delivered : ℕ)
    (shown sent : List (TimelineLedgerEvent (TimelineFact ψ))) : Prop where
  ledger : LedgerOk o.stream.ledger
  events : snapshot.events = shown.map TimelineLedgerEvent.event
  shownGrows : Grows TimelineLedgerEvent.sequence shown
  mem_shown : ∀ row, row ∈ shown ↔ row ∈ rowsOf r.workspaceId before.rows ∧
    (before.cursorState r.workspaceId).2 - 1 < row.sequence ∧ r.shows row = true
  received : o.stream.received = sent.map TimelineLedgerEvent.event
  sentRows : SentRows r (o.view r) (before.lastSequence r.workspaceId) o.stream.received delivered sent
  rows : ∃ later, (o.view r).rows = rowsOf r.workspaceId before.rows ++ later ∧
    ∀ row ∈ later, before.lastSequence r.workspaceId < row.sequence
  le_last : ∀ row ∈ rowsOf r.workspaceId before.rows,
    row.sequence ≤ before.lastSequence r.workspaceId
  due : ∀ row ∈ rowsOf r.workspaceId before.rows,
    row ∈ (o.view r).due ↔ row.event.fact.occurredAt ≤ now

variable {before : LedgerState (TimelineFact ψ)} {now delivered : ℕ}
  {snapshot : SnapshotResponse ψ} {shown sent : List (TimelineLedgerEvent (TimelineFact ψ))}

theorem HandedOver.mem_view (h : HandedOver r before now snapshot o delivered shown sent)
    (hrow : row ∈ shown ++ sent) :
    row ∈ (o.view r).rows := by
  obtain ⟨later, hrows, -⟩ := h.rows
  rcases List.mem_append.mp hrow with hrow | hrow
  · rw [hrows]
    exact List.mem_append_left _ ((h.mem_shown row).mp hrow).1
  · exact (h.sentRows.mem row hrow).1

theorem HandedOver.inj (h : HandedOver r before now snapshot o delivered shown sent)
    {row' : TimelineLedgerEvent (TimelineFact ψ)} (hrow : row ∈ (o.view r).rows)
    (hrow' : row' ∈ (o.view r).rows) (hkey : row.event.sourceKey = row'.event.sourceKey) :
    row = row' :=
  List.inj_on_of_nodup_map (h.ledger.allocated r.workspaceId).sourceKeys hrow hrow' hkey

theorem HandedOver.once (h : HandedOver r before now snapshot o delivered shown sent) :
    ((snapshot.events ++ o.stream.received).map TimelineEvent.sourceKey).Nodup := by
  have hgrows : Grows TimelineLedgerEvent.sequence (shown ++ sent) := by
    refine List.pairwise_append.mpr ⟨h.shownGrows, h.sentRows.grows, fun row hrow row' hrow' => ?_⟩
    have hle := h.le_last row ((h.mem_shown row).mp hrow).1
    have hlt := (h.sentRows.mem row' hrow').2.1
    omega
  have hnodup : (shown ++ sent).Nodup := hgrows.imp fun hlt hsame => by
    rw [hsame] at hlt
    omega
  rw [h.events, h.received, ← List.map_append, List.map_map]
  exact hnodup.map_on fun row hrow row' hrow' hkey =>
    h.inj (h.mem_view hrow) (h.mem_view hrow') hkey

theorem HandedOver.mem_union (h : HandedOver r before now snapshot o delivered shown sent)
    (hrow : row ∈ (o.view r).rows) :
    row.event ∈ snapshot.events ++ o.stream.received ↔ row ∈ shown ∨ row ∈ sent := by
  rw [h.events, h.received, ← List.map_append, List.mem_map, ← List.mem_append]
  constructor
  · rintro ⟨row', hrow', hevent⟩
    rw [← h.inj (h.mem_view hrow') hrow (congrArg TimelineEvent.sourceKey hevent)]
    exact hrow'
  · intro hmem
    exact ⟨row, hmem, rfl⟩

/-- **Nothing is missing exactly when the snapshot covers the ledger.** -/
theorem HandedOver.handsOver_iff (h : HandedOver r before now snapshot o delivered shown sent)
    (hlive : r.predicate.mode = .live)
    (hdue : ∀ row ∈ (o.view r).due, row ∈ (o.view r).rows) :
    HandsOver r snapshot o delivered ↔ Covered r before now := by
  obtain ⟨later, hrows, hlater⟩ := h.rows
  have hafter := h.sentRows.after
  constructor
  · intro hcomplete row hrow hoccurred hwants
    have hview : row ∈ (o.view r).rows := hrows ▸ List.mem_append_left _ hrow
    have hle := h.le_last row hrow
    have hunion := hcomplete.complete row ((h.due row hrow).mpr hoccurred) hwants (by omega)
    -- the stream sends no row that was in the ledger before
    rcases (h.mem_union hview).mp hunion with hshown | hsent
    · obtain ⟨-, hretained, hshows⟩ := (h.mem_shown row).mp hshown
      rw [TimelineReadResolution.shows, Bool.and_eq_true, decide_eq_true_eq] at hshows
      exact ⟨hretained, hshows.2⟩
    · have hlt := (h.sentRows.mem row hsent).2.1
      omega
  · intro hcovered
    refine ⟨fun row hrow hwants hle => ?_, h.once⟩
    have hview := hdue row hrow
    refine (h.mem_union hview).mpr ?_
    rw [hrows] at hview
    rcases List.mem_append.mp hview with hbefore | hnew
    · obtain ⟨hretained, hwindow⟩ := hcovered row hbefore ((h.due row hbefore).mp hrow) hwants
      refine Or.inl ((h.mem_shown row).mpr ⟨hbefore, hretained, ?_⟩)
      rw [TimelineReadResolution.shows, hwants]
      exact decide_eq_true hwindow
    · refine Or.inr (h.sentRows.complete row hrow ?_ (hlater row hnew) hle)
      rw [← wants_eq_streams hlive]
      exact hwants

/-! ## From any snapshot -/

/-- The snapshot whose cursor row is read after some steps of the ledger, and whose records are
read after some more. -/
def snapshotAfter (r : TimelineReadResolution ψ)
    (history between : List (LedgerAction (TimelineFact ψ))) (now : ℕ) : SnapshotResponse ψ :=
  (run LedgerState.step (run LedgerState.step .empty history) between).readTimelineSnapshot r
    ((run LedgerState.step .empty history).cursorState r.workspaceId) now

/-- The stream that is opened with the cursor of the snapshot, after some steps. -/
def streamAfter (r : TimelineReadResolution ψ)
    (history between : List (LedgerAction (TimelineFact ψ))) (now : ℕ)
    (idle actions : List (StreamAction ψ)) : ObservedStream ψ :=
  run (ObservedStream.step r)
    (.start (run LedgerState.step (run LedgerState.step .empty history) between) now
      (snapshotAfter r history between now).cursor) (idle ++ .connect :: actions)

section Handover

variable {history between : List (LedgerAction (TimelineFact ψ))}

/-- The invariant holds when the browser has its snapshot. -/
theorem handoverOk_start (r : TimelineReadResolution ψ) {s : LedgerState (TimelineFact ψ)}
    (h : LedgerOk s) (now : ℕ) (cursor : TimelineCursor)
    (hlast : highWater ≤ s.lastSequence r.workspaceId) :
    HandoverOk r highWater (.start s now cursor) where
  ledger := h
  due := fun row hrow => by
    obtain ⟨hmem, hoccurred⟩ := List.mem_filter.mp hrow
    exact ⟨hmem, of_decide_eq_true hoccurred⟩
  sent := by
    refine ⟨highWater, [], ⟨rfl, List.Pairwise.nil, by simp, ?_, le_refl _, hlast⟩, ?_⟩
    · intro row _ _ hafter hle
      omega
    · intro session hsession
      cases hsession

theorem streamAfter_ok (r : TimelineReadResolution ψ)
    (history between : List (LedgerAction (TimelineFact ψ))) (now : ℕ)
    {idle actions : List (StreamAction ψ)}
    (hstays : ∀ action ∈ idle ++ actions, action.reconnects = false) :
    HandoverOk r ((run LedgerState.step LedgerState.empty history).lastSequence r.workspaceId)
        (streamAfter r history between now idle actions) ∧
      ((ObservedStream.start (run LedgerState.step (run LedgerState.step .empty history) between)
        now (snapshotAfter r history between now).cursor).view r).Grows
          ((streamAfter r history between now idle actions).view r) := by
  obtain ⟨hok, -, -, -, hlast⟩ :=
    (run_ledgerOk history).exists_later_run r.workspaceId between
  have hstart := handoverOk_start r hok now (snapshotAfter r history between now).cursor hlast
  have hidle := run_handoverOk hstart
    fun action haction => hstays action (List.mem_append_left _ haction)
  have hunopened : Unopened (snapshotAfter r history between now).cursor
      (ObservedStream.start (run LedgerState.step (run LedgerState.step .empty history) between)
        now (snapshotAfter r history between now).cursor).stream := ⟨rfl, rfl, rfl, rfl⟩
  have hopen := hidle.connect (run_unopened hunopened
    fun action haction => hstays action (List.mem_append_left _ haction)) cursorState_fst
  refine ⟨?_, (view_run hok (idle ++ .connect :: actions)).2⟩
  rw [streamAfter, run_append, run_cons]
  exact run_handoverOk hopen fun action haction => hstays action (List.mem_append_right _ haction)

theorem streamAfter_handedOver {idle actions : List (StreamAction ψ)}
    (hstays : ∀ action ∈ idle ++ actions, action.reconnects = false)
    (huntruncated : (snapshotAfter r history between now).truncated = false)
    {session : StreamSession ψ}
    (hsession : (streamAfter r history between now idle actions).stream.session = some session)
    (hframes : (streamAfter r history between now idle actions).stream.inFlight = []) :
    ∃ shown sent, HandedOver r (run LedgerState.step .empty history) now
      (snapshotAfter r history between now) (streamAfter r history between now idle actions)
      session.delivered shown sent := by
  obtain ⟨hok, hgrows⟩ := streamAfter_ok r history between now hstays
  have hbefore := run_ledgerOk (φ := TimelineFact ψ) history
  obtain ⟨hread, later, hrows, hlater, hlast⟩ :=
    hbefore.exists_later_run r.workspaceId between
  obtain ⟨delivered, sent, hsent, hsessions⟩ := hok.sent
  obtain ⟨rfl, -⟩ := hsessions session hsession
  have hreceived : (streamAfter r history between now idle actions).stream.sent =
      (streamAfter r history between now idle actions).stream.received := by
    rw [StreamState.sent, hframes]
    exact List.append_nil _
  rw [hreceived] at hsent
  have hle : ∀ row ∈ rowsOf r.workspaceId (run LedgerState.step LedgerState.empty history).rows,
      row.sequence ≤ _ := fun row => hbefore.le_last
  obtain ⟨more, hmoreRows, hmore⟩ := hgrows.rows
  refine ⟨_, sent, hok.ledger, events_of_untruncated hread huntruncated,
    List.Pairwise.filter _ (hread.grows r.workspaceId).span, fun row => ?_, hsent.events, hsent,
    ⟨later ++ more, ?_, fun row hrow => ?_⟩, hle, fun row hrow => ?_⟩
  · rw [List.mem_filter, mem_span, hrows, cursorState_fst, List.mem_append]
    constructor
    · rintro ⟨⟨hmem, hretained, hend⟩, hshows⟩
      rcases hmem with hmem | hmem
      · exact ⟨hmem, hretained, hshows⟩
      · have hlt := hlater row hmem
        omega
    · rintro ⟨hmem, hretained, hshows⟩
      exact ⟨⟨Or.inl hmem, hretained, hle row hmem⟩, hshows⟩
  · rw [hmoreRows, ← List.append_assoc]
    exact congrArg (· ++ more) hrows
  · rcases List.mem_append.mp hrow with hrow | hrow
    · exact hlater row hrow
    · exact Nat.lt_of_le_of_lt hlast (hmore row hrow)
  · -- the rows of the snapshot that are due were due when it was read
    have hstart : row ∈ rowsOf r.workspaceId (dueBy now (run LedgerState.step
        (run LedgerState.step LedgerState.empty history) between).rows) ↔
          row.event.fact.occurredAt ≤ now := by
      obtain ⟨hmem, hworkspace⟩ := List.mem_filter.mp (hrows ▸ List.mem_append_left later hrow)
      rw [rowsOf, dueBy, List.mem_filter, List.mem_filter, decide_eq_true_eq]
      exact ⟨fun h => h.1.2, fun h => ⟨⟨hmem, h⟩, hworkspace⟩⟩
    rw [← hstart]
    constructor
    · intro hdue
      rcases hgrows.due row hdue with hdue | hlt
      · exact hdue
      · have hend := hle row hrow
        change (run LedgerState.step (run LedgerState.step LedgerState.empty history)
          between).lastSequence r.workspaceId < row.sequence at hlt
        omega
    · exact hgrows.kept row

/-- **The handover from a snapshot to its stream**, for a live query, an untruncated snapshot and
one stream with nothing on its way: up to the position of the stream there is no gap exactly when
the snapshot covers the ledger. -/
theorem handover_iff_covered (r : TimelineReadResolution ψ) (hlive : r.predicate.mode = .live)
    (history between : List (LedgerAction (TimelineFact ψ))) (now : ℕ)
    (huntruncated : (snapshotAfter r history between now).truncated = false)
    (idle actions : List (StreamAction ψ))
    (hstays : ∀ action ∈ idle ++ actions, action.reconnects = false)
    (session : StreamSession ψ)
    (hsession : (streamAfter r history between now idle actions).stream.session = some session)
    (hframes : (streamAfter r history between now idle actions).stream.inFlight = []) :
    HandsOver r (snapshotAfter r history between now)
        (streamAfter r history between now idle actions) session.delivered ↔
      Covered r (run LedgerState.step .empty history) now := by
  obtain ⟨shown, sent, hover⟩ :=
    streamAfter_handedOver hstays huntruncated hsession hframes
  refine hover.handsOver_iff hlive fun row hrow => ?_
  obtain ⟨hdue, hworkspace⟩ := List.mem_filter.mp hrow
  have hok := (streamAfter_ok r history between now hstays).1
  exact List.mem_filter.mpr ⟨(hok.due row hdue).1, hworkspace⟩

end Handover

/-- An event is appended that occurred at a time. -/
def appendOne (session : ℕ) (sourceKey : String) (occurredAt : ℕ) :
    List (LedgerAction (TimelineFact Unit)) :=
  [.begin session, .appendTimelineEvents session [⟨"default", sourceKey, ⟨occurredAt, ()⟩⟩]] ++
    List.replicate 6 (.statement session) ++ [.commit session]

/-- A stream up to its first wait, in which an event is appended. -/
def streamOneMore : List (StreamAction Unit) :=
  [.coverage .unchanged, .resume, .resume, .resume] ++ (appendOne 2 "deleted" 0).map .ledger ++
    [.wake .appended false] ++ List.replicate 7 .resume ++ [.receive]

/-- An event within the window before the snapshot, and another one after it. -/
theorem handover_of_window :
    HandsOver pagesOfOne (snapshotAfter pagesOfOne (appendOne 1 "created" 0) [] 0)
        (streamAfter pagesOfOne (appendOne 1 "created" 0) [] 0 [] streamOneMore) 2 ↔
      Covered pagesOfOne (run LedgerState.step .empty (appendOne 1 "created" 0)) 0 :=
  handover_iff_covered pagesOfOne rfl (appendOne 1 "created" 0) [] 0 (by decide +kernel) []
    streamOneMore (by decide +kernel) ⟨2, false, .waiting⟩ (by decide +kernel) (by decide +kernel)

/-- **An event after the window** that is committed before the snapshot is in neither part. -/
theorem event_after_window_is_lost :
    ¬ ∀ (r : TimelineReadResolution Unit) (history between : List (LedgerAction (TimelineFact Unit)))
      (now : ℕ) (idle actions : List (StreamAction Unit)) (session : StreamSession Unit),
      r.predicate.mode = .live → (snapshotAfter r history between now).truncated = false →
        (∀ action ∈ idle ++ actions, action.reconnects = false) →
        (streamAfter r history between now idle actions).stream.session = some session →
        (streamAfter r history between now idle actions).stream.inFlight = [] →
        HandsOver r (snapshotAfter r history between now)
          (streamAfter r history between now idle actions) session.delivered := by
  intro h
  have hover := h pagesOfOne (appendOne 1 "created" 1000000) [] 1500000 [] streamOneMore
    ⟨2, false, .waiting⟩ rfl (by decide +kernel) (by decide +kernel) (by decide +kernel)
      (by decide +kernel)
  have hlost := hover.complete ⟨1, ⟨"default", "created", ⟨1000000, ()⟩⟩⟩ (by decide +kernel)
    (by decide +kernel) (by decide +kernel)
  exact absurd hlost (by decide +kernel)

end Opsia.Timeline
