import Opsia.Timeline.Stream
import Opsia.Lib.Runs

/-!
# Resuming the timeline stream

A browser that resumes from the cursor of the last frame it received should miss no event and
get none twice. The cursors of frames and the scan boundary of the generator are different
positions; all of them are level: no event of the stream lies between what a frame's cursor
covers and what was sent up to it (`Sends`).

One frame breaks this. Coverage that is found after a full page is sent with the high water of
the replay, and the rest of the page's span is still to come (`StreamState.aheadOfPage`).
-/

namespace Opsia.Timeline

open Runs Spans

variable {ψ : Type}

/-! ## What is delivered -/

/-- The rows of the workspace. -/
def StreamState.rows (r : TimelineReadResolution ψ) (s : StreamState ψ) :
    List (TimelineLedgerEvent (TimelineFact ψ)) := rowsOf r.workspaceId s.ledger.rows

/-- A row of the stream. -/
def TimelineReadResolution.streams (r : TimelineReadResolution ψ)
    (row : TimelineLedgerEvent (TimelineFact ψ)) : Bool := r.predicate.streams row.event

/-- The events of the stream between two sequences. -/
def StreamState.streamed (r : TimelineReadResolution ψ) (s : StreamState ψ)
    (after through : ℕ) : List (TimelineEvent (TimelineFact ψ)) :=
  ((span TimelineLedgerEvent.sequence (s.rows r) after through).filter r.streams).map
    TimelineLedgerEvent.event

/-- **Resumed without loss**: over all sessions the browser has received the events of the stream
after the start, in the order of the ledger, up to its cursor, and each once; and when the
generator waits and nothing is on its way, up to the boundary of the last scan. -/
structure ResumedWithoutLoss (r : TimelineReadResolution ψ) (start : ℕ) (s : StreamState ψ) :
    Prop where
  received : s.received = s.streamed r start s.cursor.sequence
  once : (s.received.map TimelineEvent.sourceKey).Nodup
  scanned : ∀ session, s.session = some session → session.stage = .waiting → s.inFlight = [] →
    s.received = s.streamed r start session.delivered

/-! ## The condition -/

/-- The step commits no event of the future. -/
def StreamState.punctual (s : StreamState ψ) (action : StreamAction ψ) : Bool :=
  (s.committed action).all fun row => row.event.fact.occurredAt ≤ s.now

/-- Coverage is sent with the high water while events of the stream are left behind a full
page. -/
def StreamState.aheadOfPage (r : TimelineReadResolution ψ) (s : StreamState ψ) :
    StreamAction ψ → Bool
  | .coverage .additions =>
    match s.session with
    | some ⟨delivered, _, .refreshing highWater true⟩ =>
      (span TimelineLedgerEvent.sequence (s.rows r) delivered highWater).any r.streams
    | _ => false
  | _ => false

/-! ## Frames -/

/-- What a browser that began at a sequence may read: the rows, up to the last sequence. -/
structure StreamView (ψ : Type) : Type where
  rows : List (TimelineLedgerEvent (TimelineFact ψ))
  start : ℕ
  last : ℕ

/-- The view of a state. -/
def StreamState.view (r : TimelineReadResolution ψ) (start : ℕ) (s : StreamState ψ) :
    StreamView ψ := ⟨s.rows r, start, s.ledger.lastSequence r.workspaceId⟩

/-- A position between the start and the last sequence. -/
def StreamView.Within (v : StreamView ψ) (position : ℕ) : Prop :=
  v.start ≤ position ∧ position ≤ max v.start v.last

/-- Positions with no row of the stream between them. -/
structure LevelIn (r : TimelineReadResolution ψ) (v : StreamView ψ) (a b : ℕ) : Prop where
  left : v.Within a
  right : v.Within b
  level : Level TimelineLedgerEvent.sequence r.streams v.rows a b

/-- The row is the next one of the stream after a position. -/
structure NextRow (r : TimelineReadResolution ψ) (v : StreamView ψ) (position : ℕ)
    (row : TimelineLedgerEvent (TimelineFact ψ)) : Prop where
  mem : row ∈ v.rows
  streams : r.streams row = true
  after : position < row.sequence
  le_last : row.sequence ≤ v.last
  level : LevelIn r v position (row.sequence - 1)

/-- A frame takes the browser on from a position. -/
def FrameOk (r : TimelineReadResolution ψ) (v : StreamView ψ) (position : ℕ) :
    TimelineStreamFrame ψ → Prop
  | .coverage cursor => LevelIn r v position cursor.sequence
  | .event cursor event =>
    ∃ row, NextRow r v position row ∧ row.sequence = cursor.sequence ∧ row.event = event
  | .resyncRequired _ | .error _ => True

/-- Where the cursor of the browser is after a frame. -/
def TimelineStreamFrame.moves (position : ℕ) : TimelineStreamFrame ψ → ℕ
  | .coverage cursor | .event cursor _ => cursor.sequence
  | .resyncRequired _ | .error _ => position

/-- Frames take the browser on from a position to one that is level with the last. -/
def Sends (r : TimelineReadResolution ψ) (v : StreamView ψ) :
    ℕ → List (TimelineStreamFrame ψ) → ℕ → Prop
  | position, [], last => LevelIn r v position last
  | position, frame :: frames, last =>
    FrameOk r v position frame ∧ Sends r v (frame.moves position) frames last

section Frames

variable {r : TimelineReadResolution ψ} {v : StreamView ψ} {position last next : ℕ}
  {frames : List (TimelineStreamFrame ψ)}

theorem LevelIn.refl (h : v.Within position) : LevelIn r v position position :=
  ⟨h, h, Level.refl _⟩

theorem LevelIn.symm (h : LevelIn r v position last) : LevelIn r v last position :=
  ⟨h.right, h.left, h.level.symm⟩

theorem LevelIn.trans (h : LevelIn r v position last) (h' : LevelIn r v last next) :
    LevelIn r v position next := ⟨h.left, h'.right, h.level.trans h'.level⟩

variable {row : TimelineLedgerEvent (TimelineFact ψ)}

theorem NextRow.within (h : NextRow r v position row) : v.Within row.sequence := by
  obtain ⟨hstart, -⟩ := h.level.left
  have hafter := h.after
  have hle := h.le_last
  exact ⟨by omega, by omega⟩

theorem NextRow.of_level (h : NextRow r v last row) (hlevel : LevelIn r v position last) :
    NextRow r v position row where
  mem := h.mem
  streams := h.streams
  after := (hlevel.level row h.mem h.streams).mpr h.after
  le_last := h.le_last
  level := hlevel.trans h.level

theorem Sends.level (h : Sends r v position frames last) (hlevel : LevelIn r v last next) :
    Sends r v position frames next := by
  induction frames generalizing position with
  | nil => exact LevelIn.trans h hlevel
  | cons frame frames ih => exact ⟨h.1, ih h.2⟩

theorem Sends.coverage (h : Sends r v position frames last) {cursor : TimelineCursor}
    (hlevel : LevelIn r v last cursor.sequence) :
    Sends r v position (frames ++ [.coverage cursor]) last := by
  induction frames generalizing position with
  | nil => exact ⟨LevelIn.trans h hlevel, hlevel.symm⟩
  | cons frame frames ih => exact ⟨h.1, ih h.2⟩

theorem Sends.event (h : Sends r v position frames last) (hrow : NextRow r v last row)
    {cursor : TimelineCursor} (hcursor : cursor.sequence = row.sequence) :
    Sends r v position (frames ++ [.event cursor row.event]) row.sequence := by
  induction frames generalizing position with
  | nil =>
    refine ⟨⟨row, hrow.of_level h, hcursor.symm, rfl⟩, ?_⟩
    rw [TimelineStreamFrame.moves, hcursor]
    exact LevelIn.refl hrow.within
  | cons frame frames ih => exact ⟨h.1, ih h.2⟩

/-- A view of more rows: those that come later are behind the last sequence. -/
structure StreamView.Grows (v v' : StreamView ψ) : Prop where
  rows : ∃ later, v'.rows = v.rows ++ later ∧ ∀ row ∈ later, v.last < row.sequence
  start : v'.start = v.start
  last : v.last ≤ v'.last

variable {v' : StreamView ψ}

theorem StreamView.Grows.within (h : v.Grows v') (hwithin : v.Within position) :
    v'.Within position := by
  obtain ⟨hstart, hlast⟩ := hwithin
  have hmore := h.last
  rw [StreamView.Within, h.start]
  omega

theorem LevelIn.grows (h : LevelIn r v position last) (hgrows : v.Grows v') :
    LevelIn r v' position last := by
  obtain ⟨later, hrows, hlater⟩ := hgrows.rows
  refine ⟨hgrows.within h.left, hgrows.within h.right, ?_⟩
  rw [hrows]
  refine h.level.append_of_later ?_
  -- two positions within the view are both the start, or both before the later rows
  obtain ⟨hstart, hle⟩ := h.left
  obtain ⟨hstart', hle'⟩ := h.right
  rcases le_or_gt v.last v.start with hbefore | hbefore
  · exact Or.inl (by omega)
  · refine Or.inr fun row hrow => ?_
    have hlt := hlater row hrow
    omega

theorem NextRow.grows (h : NextRow r v position row) (hgrows : v.Grows v') :
    NextRow r v' position row where
  mem := by
    obtain ⟨later, hrows, -⟩ := hgrows.rows
    rw [hrows]
    exact List.mem_append_left _ h.mem
  streams := h.streams
  after := h.after
  le_last := h.le_last.trans hgrows.last
  level := h.level.grows hgrows

theorem FrameOk.grows {frame : TimelineStreamFrame ψ} (h : FrameOk r v position frame)
    (hgrows : v.Grows v') : FrameOk r v' position frame := by
  cases frame with
  | coverage cursor => exact LevelIn.grows h hgrows
  | event cursor event =>
    obtain ⟨row, hrow, hcursor, hevent⟩ := h
    exact ⟨row, hrow.grows hgrows, hcursor, hevent⟩
  | resyncRequired cursor | error cursor => trivial

theorem Sends.grows (h : Sends r v position frames last) (hgrows : v.Grows v') :
    Sends r v' position frames last := by
  induction frames generalizing position with
  | nil => exact LevelIn.grows h hgrows
  | cons frame frames ih => exact ⟨h.1.grows hgrows, ih h.2⟩

end Frames

/-! ## The invariant -/

/-- What the statement of the stream selects, the guard apart. -/
def TimelineReadResolution.selected (r : TimelineReadResolution ψ)
    (row : TimelineLedgerEvent (TimelineFact ψ)) : Bool :=
  r.predicate.sqlEvidence row.event && r.predicate.inStreamWindow row.event

/-- The variables of the generator: a high water is a last sequence, a page holds the first
selected rows up to it, and a short page all of them. -/
def StreamStageOk (r : TimelineReadResolution ψ) (v : StreamView ψ) (delivered : ℕ) :
    StreamStage ψ → Prop
  | .starting | .replaying | .waiting => True
  | .reading highWater => highWater ≤ v.last
  | .emitting records highWater full => highWater ≤ v.last ∧
    ∃ rest, (span TimelineLedgerEvent.sequence v.rows delivered highWater).filter r.selected =
      records ++ rest ∧ (full = false → rest = [])
  | .refreshing highWater full => highWater ≤ v.last ∧
    (full = false → LevelIn r v delivered (max delivered highWater))

/-- The stream in the course of a run. -/
structure StreamOk (r : TimelineReadResolution ψ) (start : ℕ) (s : StreamState ψ) : Prop where
  ledger : LedgerOk s.ledger
  punctual : ∀ row ∈ s.ledger.rows, row.event.fact.occurredAt ≤ s.now
  within : (s.view r start).Within s.cursor.sequence
  received : s.received = s.streamed r start s.cursor.sequence
  sent : ∃ last, Sends r (s.view r start) s.cursor.sequence s.inFlight last
  session : ∀ session, s.session = some session →
    Sends r (s.view r start) s.cursor.sequence s.inFlight session.delivered ∧
      StreamStageOk r (s.view r start) session.delivered session.stage

variable {r : TimelineReadResolution ψ} {start : ℕ} {s : StreamState ψ}

theorem streamOk_start (r : TimelineReadResolution ψ) (cursor : TimelineCursor) :
    StreamOk r cursor.sequence (.start cursor) where
  ledger := LedgerOk.empty
  punctual := fun _ hrow => absurd hrow List.not_mem_nil
  within := ⟨le_refl _, le_max_left _ _⟩
  received := by simp [StreamState.start, StreamState.streamed, span_of_le]
  sent := ⟨cursor.sequence, LevelIn.refl ⟨le_refl _, le_max_left _ _⟩⟩
  session := fun _ hsession => by cases hsession

variable {session : StreamSession ψ} {v : StreamView ψ} {frame : TimelineStreamFrame ψ}
  {row : TimelineLedgerEvent (TimelineFact ψ)}

theorem Sends.within {position last : ℕ} {frames : List (TimelineStreamFrame ψ)}
    (h : Sends r v position frames last) :
    v.Within last := by
  induction frames generalizing position with
  | nil => exact LevelIn.right h
  | cons frame frames ih => exact ih h.2

/-! ## Steps of the generator -/

theorem StreamOk.goOn (h : StreamOk r start s)
    (hsent : Sends r (s.view r start) s.cursor.sequence s.inFlight session.delivered)
    (hstage : StreamStageOk r (s.view r start) session.delivered session.stage) :
    StreamOk r start (s.goOn session) where
  ledger := h.ledger
  punctual := h.punctual
  within := h.within
  received := h.received
  sent := h.sent
  session := fun _ hsession => by
    obtain rfl := Option.some.inj hsession
    exact ⟨hsent, hstage⟩

theorem StreamOk.emit (h : StreamOk r start s) {session : Option (StreamSession ψ)} {last : ℕ}
    (hsent : Sends r (s.view r start) s.cursor.sequence (s.inFlight ++ [frame]) last)
    (hsession : ∀ session', session = some session' →
      LevelIn r (s.view r start) last session'.delivered ∧
        StreamStageOk r (s.view r start) session'.delivered session'.stage) :
    StreamOk r start (s.emit frame session) where
  ledger := h.ledger
  punctual := h.punctual
  within := h.within
  received := h.received
  sent := ⟨last, hsent⟩
  session := fun session' hsession' => by
    obtain ⟨hlevel, hstage⟩ := hsession session' hsession'
    exact ⟨hsent.level hlevel, hstage⟩

theorem Sends.ended {position last : ℕ} {frames : List (TimelineStreamFrame ψ)}
    (h : Sends r v position frames last)
    (hframe : ∀ place, FrameOk r v place frame ∧ frame.moves place = place) :
    Sends r v position (frames ++ [frame]) last := by
  induction frames generalizing position with
  | nil =>
    obtain ⟨hok, hmoves⟩ := hframe position
    refine ⟨hok, ?_⟩
    rw [hmoves]
    exact h
  | cons frame' frames ih => exact ⟨h.1, ih h.2⟩

theorem StreamOk.failStream (h : StreamOk r start s) (hsession : s.session = some session) :
    StreamOk r start (s.failStream r session) :=
  h.emit ((h.session session hsession).1.ended fun _ => ⟨trivial, rfl⟩) fun _ hnone => by
    cases hnone

variable {highWater delivered : ℕ}

theorem levelIn_max (hwithin : v.Within delivered) (hlast : highWater ≤ v.last)
    (hnone : (span TimelineLedgerEvent.sequence v.rows delivered highWater).filter r.streams = []) :
    LevelIn r v delivered (max delivered highWater) := by
  have hmax : v.Within (max delivered highWater) := by
    obtain ⟨hstart, hend⟩ := hwithin
    exact ⟨by omega, by omega⟩
  refine ⟨hwithin, hmax, ?_⟩
  rcases le_total highWater delivered with hle | hle
  · rw [max_eq_left hle]
    exact Level.refl _
  · rw [max_eq_right hle]
    exact level_of_filter_span hle hnone

/-- A page has been sent: the next scan begins, or the generator waits behind it. -/
theorem afterPage_ok (session : StreamSession ψ) {full : Bool}
    (hwithin : v.Within session.delivered)
    (hshort : full = false → LevelIn r v session.delivered (max session.delivered highWater)) :
    LevelIn r v session.delivered (session.afterPage highWater full).delivered ∧
      StreamStageOk r v (session.afterPage highWater full).delivered
        (session.afterPage highWater full).stage := by
  rw [StreamSession.afterPage]
  cases full with
  | true => exact ⟨LevelIn.refl hwithin, trivial⟩
  | false => exact ⟨hshort rfl, trivial⟩

theorem streams_eq {now : ℕ} (hpunctual : row.event.fact.occurredAt ≤ now)
    (hselected : r.selected row = true) :
    r.streams row = r.predicate.matchesStream now row.event := by
  rw [TimelineReadResolution.streams, TimelineEvidencePredicate.streams_iff hpunctual,
    TimelineEvidencePredicate.sqlPredicate_stream hpunctual]
  rw [TimelineReadResolution.selected] at hselected
  rw [hselected, Bool.true_and]

theorem selected_of_streams (h : r.streams row = true) : r.selected row = true := by
  simp only [TimelineReadResolution.streams, TimelineEvidencePredicate.streams,
    TimelineEvidencePredicate.selects, Bool.and_eq_true] at h
  obtain ⟨⟨hsql, -⟩, hwindow⟩ := h
  rw [TimelineReadResolution.selected, hsql, hwindow]
  rfl

theorem mem_of_rowsOf {φ : Type} {workspaceId : String} {rows : List (TimelineLedgerEvent φ)}
    {row : TimelineLedgerEvent φ} (h : row ∈ rowsOf workspaceId rows) : row ∈ rows :=
  (List.mem_filter.mp h).1

/-- **One record of a page**: the next row of the stream, or none of it. -/
theorem StreamOk.emitRecord (h : StreamOk r start s) {record : TimelineLedgerEvent (TimelineFact ψ)}
    {records : List (TimelineLedgerEvent (TimelineFact ψ))} {full : Bool}
    (hsent : Sends r (s.view r start) s.cursor.sequence s.inFlight session.delivered)
    (hstage : StreamStageOk r (s.view r start) session.delivered
      (.emitting (record :: records) highWater full)) :
    StreamOk r start (s.emitRecord r session record records highWater full) := by
  obtain ⟨hlast, rest, hpage, hshort⟩ := hstage
  have hgrows : Grows TimelineLedgerEvent.sequence (s.view r start).rows :=
    h.ledger.grows r.workspaceId
  rw [List.cons_append] at hpage
  obtain ⟨hafter, hle, hfirst, hrest⟩ := span_cons hgrows hpage
  have hlevel := level_of_span_cons hgrows hpage
  have hmem : record ∈ (span TimelineLedgerEvent.sequence (s.view r start).rows session.delivered
      highWater).filter r.selected := by
    rw [hpage]
    exact List.mem_cons_self
  obtain ⟨hspan, hselected⟩ := List.mem_filter.mp hmem
  have hrow := (mem_span.mp hspan).1
  have hstreams := streams_eq (h.punctual record (mem_of_rowsOf hrow)) hselected
  obtain ⟨hstart, hend⟩ := hsent.within
  have hwithin : (s.view r start).Within record.sequence := ⟨by omega, by omega⟩
  have hdue : StreamStageOk r (s.view r start) record.sequence
      (.emitting records highWater full) := ⟨hlast, rest, hrest, hshort⟩
  rw [StreamState.emitRecord, if_neg (by omega)]
  dsimp only
  cases hmatches : r.predicate.matchesStream s.now record.event with
  | true =>
    rw [hmatches] at hstreams
    have hnext : NextRow r (s.view r start) session.delivered record :=
      ⟨hrow, hstreams, hafter, hle.trans hlast, hsent.within, ⟨by omega, by omega⟩,
        hlevel.imp fun _ _ => selected_of_streams⟩
    rw [if_pos rfl]
    exact h.emit (hsent.event hnext rfl) fun session' hsession' => by
      obtain rfl := Option.some.inj hsession'
      exact ⟨LevelIn.refl hwithin, hdue⟩
  | false =>
    rw [hmatches] at hstreams
    -- the guard drops the only selected row up to this record
    have hnone : (span TimelineLedgerEvent.sequence (s.view r start).rows session.delivered
        record.sequence).filter r.streams = [] := by
      refine List.filter_eq_nil_iff.mpr fun x hx hstreamed => ?_
      have hin := List.mem_filter.mpr ⟨hx, selected_of_streams hstreamed⟩
      rw [hfirst, List.mem_singleton] at hin
      rw [hin, hstreams] at hstreamed
      cases hstreamed
    rw [if_neg Bool.false_ne_true]
    exact h.goOn (hsent.level ⟨hsent.within, hwithin, level_of_filter_span hafter.le hnone⟩) hdue

/-- **The page that is read** holds the first selected rows, all of them when it is short. -/
theorem StreamOk.page (h : StreamOk r start s) :
    ∃ rest, (span TimelineLedgerEvent.sequence (s.view r start).rows delivered highWater).filter
        r.selected = s.ledger.replayRecords r.workspaceId r.predicate delivered highWater s.now
          r.maxBatchEvents ++ rest ∧
      (decide (r.maxBatchEvents ≤ (s.ledger.replayRecords r.workspaceId r.predicate delivered
        highWater s.now r.maxBatchEvents).length) = false → rest = []) := by
  have hselected : (span TimelineLedgerEvent.sequence (rowsOf r.workspaceId s.ledger.rows) delivered
      highWater).filter (fun row => r.predicate.sqlPredicate .stream s.now row.event) =
      (span TimelineLedgerEvent.sequence (s.view r start).rows delivered highWater).filter
        r.selected := by
    refine List.filter_congr fun row hrow => ?_
    exact TimelineEvidencePredicate.sqlPredicate_stream
      (h.punctual row (mem_of_rowsOf (mem_span.mp hrow).1))
  rw [replayRecords_eq h.ledger, hselected]
  refine ⟨_, (List.take_append_drop r.maxBatchEvents _).symm, fun hshort => ?_⟩
  rw [decide_eq_false_iff_not, List.length_take] at hshort
  rw [List.drop_eq_nil_iff]
  omega

theorem StreamOk.resume (h : StreamOk r start s) (hsession : s.session = some session) :
    StreamOk r start (s.resume r session) := by
  obtain ⟨hsent, hstage⟩ := h.session session hsession
  obtain ⟨delivered, due, stage⟩ := session
  cases stage with
  | starting | refreshing highWater full | waiting => exact h
  | replaying =>
    rw [StreamState.resume]
    dsimp only
    split
    · exact h.emit (hsent.ended fun _ => ⟨trivial, rfl⟩) fun _ hnone => by cases hnone
    · exact h.goOn hsent (Nat.le_of_eq cursorState_fst)
  | reading highWater => exact h.goOn hsent ⟨hstage, h.page⟩
  | emitting records highWater full =>
    cases records with
    | cons record records => exact h.emitRecord hsent hstage
    | nil =>
      obtain ⟨hlast, rest, hpage, hshort⟩ := hstage
      -- behind a short page there is nothing of the stream up to the high water
      have hlevel : full = false →
          LevelIn r (s.view r start) delivered (max delivered highWater) := by
        intro hfull
        rw [hshort hfull] at hpage
        refine levelIn_max hsent.within hlast (List.filter_eq_nil_iff.mpr fun row hrow hstreams => ?_)
        exact List.filter_eq_nil_iff.mp hpage row hrow (selected_of_streams hstreams)
      rw [StreamState.resume]
      dsimp only
      split
      · exact h.goOn hsent ⟨hlast, hlevel⟩
      · obtain ⟨hnext, hok⟩ := afterPage_ok ⟨delivered, due, .emitting [] highWater full⟩
          hsent.within hlevel
        exact h.goOn (hsent.level hnext) hok

theorem StreamOk.readCoverage (h : StreamOk r start s) (hsession : s.session = some session)
    {read : CoverageRead} (hpage : s.aheadOfPage r (.coverage read) = false) :
    StreamOk r start (s.readCoverage r session read) := by
  obtain ⟨hsent, hstage⟩ := h.session session hsession
  obtain ⟨delivered, due, stage⟩ := session
  cases stage with
  | replaying | reading highWater | emitting records highWater full | waiting =>
    cases read <;> exact h
  | starting =>
    cases read with
    | failed => exact h.failStream hsession
    | unchanged => exact h.goOn hsent trivial
    | additions =>
      refine h.emit (hsent.coverage (LevelIn.refl hsent.within)) fun session' hsession' => ?_
      obtain rfl := Option.some.inj hsession'
      exact ⟨LevelIn.refl hsent.within, trivial⟩
  | refreshing highWater full =>
    obtain ⟨hlast, hshort⟩ := hstage
    obtain ⟨hnext, hok⟩ :=
      afterPage_ok ⟨delivered, false, .refreshing highWater full⟩ hsent.within hshort
    cases read with
    | failed => exact h.failStream hsession
    | unchanged => exact h.goOn (hsent.level hnext) hok
    | additions =>
      have hlevel : LevelIn r (s.view r start) delivered (max delivered highWater) := by
        cases full with
        | false => exact hshort rfl
        | true =>
          rw [StreamState.aheadOfPage, hsession] at hpage
          refine levelIn_max hsent.within hlast (List.filter_eq_nil_iff.mpr fun row hrow => ?_)
          exact List.any_eq_false.mp hpage row hrow
      refine h.emit (hsent.coverage hlevel) fun session' hsession' => ?_
      obtain rfl := Option.some.inj hsession'
      exact ⟨hnext, hok⟩

theorem StreamOk.wakeUp (h : StreamOk r start s) (hsession : s.session = some session)
    (wake : WakeUp) (refreshDue : Bool) :
    StreamOk r start (s.wakeUp r session wake refreshDue) := by
  obtain ⟨hsent, -⟩ := h.session session hsession
  obtain ⟨delivered, due, stage⟩ := session
  cases stage with
  | starting | replaying | reading highWater | emitting records highWater full
  | refreshing highWater full => cases wake <;> exact h
  | waiting =>
    cases wake with
    | closed => exact h.failStream hsession
    | appended | timeout | overflow => exact h.goOn hsent trivial

/-! ## Steps of the browser -/

theorem streamed_of_level {position next : ℕ}
    (hlevel : LevelIn r (s.view r start) position next) :
    s.streamed r start position = s.streamed r start next :=
  congrArg (List.map TimelineLedgerEvent.event) (filter_span_congr hlevel.level)

/-- What the browser has read with the next row. -/
theorem streamed_of_next (h : LedgerOk s.ledger) {position : ℕ}
    (hnext : NextRow r (s.view r start) position row) :
    s.streamed r start row.sequence = s.streamed r start position ++ [row.event] := by
  have hspan := filter_span_next (a := start) (h.grows r.workspaceId) hnext.mem hnext.streams
    hnext.level.left.1 hnext.after hnext.level.level
  exact (congrArg (List.map TimelineLedgerEvent.event) hspan).trans List.map_append

theorem StreamOk.receiveFrame (h : StreamOk r start s) {rest : List (TimelineStreamFrame ψ)}
    (hframes : s.inFlight = frame :: rest) {s' : StreamState ψ} (hledger : s'.ledger = s.ledger)
    (hnow : s'.now = s.now) (hsession : s'.session = s.session) (hrest : s'.inFlight = rest)
    (hcursor : s'.cursor.sequence = frame.moves s.cursor.sequence)
    (hwithin : (s.view r start).Within s'.cursor.sequence)
    (hreceived : s'.received = s.streamed r start s'.cursor.sequence) : StreamOk r start s' := by
  have hview : s'.view r start = s.view r start := by
    rw [StreamState.view, StreamState.view, StreamState.rows, StreamState.rows, hledger]
  have hstreamed : ∀ through, s'.streamed r start through = s.streamed r start through := by
    intro through
    rw [StreamState.streamed, StreamState.streamed, StreamState.rows, StreamState.rows, hledger]
  refine ⟨hledger ▸ h.ledger, by rw [hledger, hnow]; exact h.punctual, hview ▸ hwithin,
    by rw [hreceived, hstreamed], ?_, fun session hsome => ?_⟩
  · obtain ⟨last, hlast⟩ := h.sent
    rw [hframes] at hlast
    rw [hview, hrest, hcursor]
    exact ⟨last, hlast.2⟩
  · rw [hsession] at hsome
    obtain ⟨hsent, hstage⟩ := h.session session hsome
    rw [hframes] at hsent
    rw [hview, hrest, hcursor]
    exact ⟨hsent.2, hstage⟩

theorem StreamOk.receive (h : StreamOk r start s) : StreamOk r start s.receive := by
  rw [StreamState.receive]
  rcases hframes : s.inFlight with _ | ⟨frame, rest⟩
  · exact h
  · obtain ⟨last, hsent⟩ := h.sent
    rw [hframes] at hsent
    obtain ⟨hframe, -⟩ := hsent
    cases frame with
    | coverage cursor =>
      refine h.receiveFrame hframes rfl rfl rfl rfl rfl hframe.right ?_
      exact h.received.trans (streamed_of_level hframe)
    | event cursor event =>
      obtain ⟨row, hnext, hsequence, rfl⟩ := hframe
      refine h.receiveFrame hframes rfl rfl rfl rfl rfl (hsequence ▸ hnext.within) ?_
      dsimp only
      rw [← hsequence, streamed_of_next h.ledger hnext, ← h.received]
    | resyncRequired cursor | error cursor =>
      exact h.receiveFrame hframes rfl rfl rfl rfl rfl h.within h.received

theorem sequence_of_decode {cursor : TimelineCursor} {binding : String} {now sequence : ℕ}
    (h : cursor.decode binding now = some sequence) : sequence = cursor.sequence := by
  rw [TimelineCursor.decode] at h
  split at h
  · cases h
  · split at h
    · cases h
    · exact (Option.some.inj h).symm

theorem StreamOk.connect (h : StreamOk r start s) : StreamOk r start (s.connect r) := by
  rw [StreamState.connect]
  split
  · rename_i afterSequence hsession hframes hdecode
    refine h.goOn ?_ trivial
    rw [hframes, sequence_of_decode hdecode]
    exact LevelIn.refl h.within
  · exact h

theorem StreamOk.disconnect (h : StreamOk r start s) :
    StreamOk r start { s with session := none, inFlight := [] } where
  ledger := h.ledger
  punctual := h.punctual
  within := h.within
  received := h.received
  sent := ⟨s.cursor.sequence, LevelIn.refl h.within⟩
  session := fun _ hsession => by cases hsession

/-! ## Steps of the ledger and the clock -/

theorem StreamOk.tick (h : StreamOk r start s) (elapsed : ℕ) :
    StreamOk r start { s with now := s.now + elapsed } where
  ledger := h.ledger
  punctual := fun row hrow => (h.punctual row hrow).trans (Nat.le_add_right _ _)
  within := h.within
  received := h.received
  sent := h.sent
  session := h.session

theorem StreamStageOk.grows {v' : StreamView ψ} {stage : StreamStage ψ}
    (h : StreamStageOk r v delivered stage) (hgrows : v.Grows v') :
    StreamStageOk r v' delivered stage := by
  cases stage with
  | starting | replaying | waiting => trivial
  | reading highWater => exact Nat.le_trans h hgrows.last
  | emitting records highWater full =>
    obtain ⟨hlast, rest, hpage, hshort⟩ := h
    obtain ⟨later, hrows, hlater⟩ := hgrows.rows
    refine ⟨hlast.trans hgrows.last, rest, ?_, hshort⟩
    rw [hrows, span_append_of_later fun row hrow _ => Nat.lt_of_le_of_lt hlast (hlater row hrow)]
    exact hpage
  | refreshing highWater full =>
    exact ⟨h.1.trans hgrows.last, fun hshort => (h.2 hshort).grows hgrows⟩

theorem StreamOk.ledgerStep (h : StreamOk r start s) {action : LedgerAction (TimelineFact ψ)}
    (hpunctual : s.punctual (.ledger action) = true) :
    StreamOk r start { s with ledger := s.ledger.step action } := by
  obtain ⟨later, hrows, hlater, hlast⟩ := h.ledger.exists_later r.workspaceId action
  have hgrows : (s.view r start).Grows
      (StreamState.view r start { s with ledger := s.ledger.step action }) :=
    ⟨⟨later, hrows, hlater⟩, rfl, hlast⟩
  refine ⟨h.ledger.step action, ?_, hgrows.within h.within, ?_, ?_, fun session hsession => ?_⟩
  · obtain ⟨more, hmore⟩ := exists_rows_step s.ledger action
    intro row hrow
    dsimp only at hrow ⊢
    rw [StreamState.punctual, StreamState.committed, hmore, List.drop_left] at hpunctual
    rw [hmore] at hrow
    rcases List.mem_append.mp hrow with hrow | hrow
    · exact h.punctual row hrow
    · exact of_decide_eq_true (List.all_eq_true.mp hpunctual row hrow)
  · have hspan : span TimelineLedgerEvent.sequence (s.rows r ++ later) start s.cursor.sequence =
        span TimelineLedgerEvent.sequence (s.rows r) start s.cursor.sequence := by
      refine span_append_of_later fun row hrow hafter => ?_
      -- the cursor is at the start, or before the last sequence
      have hlt := hlater row hrow
      obtain ⟨-, hend⟩ := h.within
      change s.cursor.sequence ≤ max start (s.ledger.lastSequence r.workspaceId) at hend
      omega
    rw [StreamState.rows] at hspan
    rw [← hrows] at hspan
    dsimp only
    rw [h.received, StreamState.streamed, StreamState.streamed, StreamState.rows,
      StreamState.rows, hspan]
  · obtain ⟨last, hsent⟩ := h.sent
    exact ⟨last, hsent.grows hgrows⟩
  · obtain ⟨hsent, hstage⟩ := h.session session hsession
    exact ⟨hsent.grows hgrows, hstage.grows hgrows⟩

/-! ## Runs -/

/-- **Every step keeps the invariant**, when no event of the future is committed and coverage is
not sent ahead of a page. -/
theorem StreamOk.step (h : StreamOk r start s) {action : StreamAction ψ}
    (hpunctual : s.punctual action = true) (hpage : s.aheadOfPage r action = false) :
    StreamOk r start (s.step r action) := by
  have hsome : ∀ f : StreamSession ψ → StreamState ψ,
      (∀ session, s.session = some session → StreamOk r start (f session)) →
        StreamOk r start (s.session.elim s f) := by
    intro f hf
    rcases hsession : s.session with _ | session
    · exact h
    · exact hf session hsession
  cases action with
  | ledger action => exact h.ledgerStep hpunctual
  | tick elapsed => exact h.tick elapsed
  | connect => exact h.connect
  | resume => exact hsome _ fun _ hsession => h.resume hsession
  | coverage read => exact hsome _ fun _ hsession => h.readCoverage hsession hpage
  | wake wake refreshDue => exact hsome _ fun _ hsession => h.wakeUp hsession wake refreshDue
  | receive => exact h.receive
  | disconnect => exact h.disconnect

/-- The invariant gives what the browser has received. -/
theorem StreamOk.resumedWithoutLoss (h : StreamOk r start s) :
    ResumedWithoutLoss r start s := by
  refine ⟨h.received, ?_, fun session hsession _ hframes => ?_⟩
  · have hsublist : (((span TimelineLedgerEvent.sequence (s.rows r) start s.cursor.sequence).filter
        r.streams).map fun row => row.event.sourceKey).Sublist
          ((s.rows r).map fun row => row.event.sourceKey) :=
      (List.filter_sublist.trans List.filter_sublist).map _
    rw [h.received, StreamState.streamed, List.map_map]
    exact hsublist.nodup (h.ledger.allocated r.workspaceId).sourceKeys
  · obtain ⟨hsent, -⟩ := h.session session hsession
    rw [hframes] at hsent
    exact h.received.trans (streamed_of_level hsent)

/-- **The timeline stream is resumed without loss**, in every run that commits no event of the
future and sends no coverage ahead of a page. -/
theorem run_resumedWithoutLoss (r : TimelineReadResolution ψ) (cursor : TimelineCursor)
    (actions : List (StreamAction ψ))
    (hactions : Meets (StreamState.step r)
      (fun s action => s.punctual action = true ∧ s.aheadOfPage r action = false)
      (.start cursor) actions) :
    ResumedWithoutLoss r cursor.sequence (run (StreamState.step r) (.start cursor) actions) := by
  have hrun : StreamOk r cursor.sequence (run (StreamState.step r) (.start cursor) actions) :=
    run_invariant_of_meets (P := StreamOk r cursor.sequence)
      (fun _ _ h hok => h.step hok.1 hok.2) (streamOk_start r cursor) hactions
  exact hrun.resumedWithoutLoss

/-- Pages of one event. -/
def pagesOfOne : TimelineReadResolution Unit where
  workspaceId := "default"
  binding := "query"
  predicate := ⟨⟨0, 1000, Nat.zero_lt_succ 999⟩, .live, fun _ => true, fun _ => true⟩
  maxBatchEvents := 1

/-- Two events are appended in one transaction. -/
def appendTwo : List (StreamAction Unit) :=
  [.ledger (.begin 1), .ledger (.appendTimelineEvents 1
    [⟨"default", "created", ⟨0, ()⟩⟩, ⟨"default", "deleted", ⟨0, ()⟩⟩])] ++
    List.replicate 6 (.ledger (.statement 1)) ++ [.ledger (.commit 1)]

/-- A connection up to its first wait. -/
def connectAndWait : List (StreamAction Unit) :=
  [.connect, .coverage .unchanged, .resume, .resume, .resume]

/-- A connection that breaks after the first of two pages, with coverage in between or not, and
the one that resumes it. -/
def brokenStream (coverage : List (StreamAction Unit)) (due : Bool) : List (StreamAction Unit) :=
  connectAndWait ++ appendTwo ++ [.wake .appended due, .resume, .resume, .resume, .resume] ++
    coverage ++ [.receive, .receive, .disconnect, .connect, .coverage .unchanged] ++
      List.replicate 6 .resume ++ [.receive]

/-- Without coverage the second connection brings the second event. -/
theorem broken_resumedWithoutLoss :
    ResumedWithoutLoss pagesOfOne 0
      (run (StreamState.step pagesOfOne) (.start ⟨"query", 0, 600⟩) (brokenStream [] false)) :=
  run_resumedWithoutLoss pagesOfOne ⟨"query", 0, 600⟩ (brokenStream [] false)
    (by unfold Meets; decide +kernel)

/-- **Coverage ahead of a page** takes the cursor over the second event, which no connection
brings any more. -/
theorem coverage_skips_an_event :
    ¬ ∀ (r : TimelineReadResolution Unit) (cursor : TimelineCursor)
      (actions : List (StreamAction Unit)),
      r.predicate.mode = .live →
        Meets (StreamState.step r) (fun s action => s.punctual action = true) (.start cursor)
          actions →
        ResumedWithoutLoss r cursor.sequence (run (StreamState.step r) (.start cursor) actions) := by
  intro h
  have hstream := h pagesOfOne ⟨"query", 0, 600⟩ (brokenStream [.coverage .additions] true) rfl
    (by unfold Meets; decide +kernel)
  exact absurd hstream.received (by decide +kernel)

end Opsia.Timeline
