import Opsia.Lib.Keyset
import Opsia.Lib.Spans
import Opsia.Timeline.Allocation

/-!
# Reading the timeline ledger

`domains/timeline/predicate.py` and the reads of `TimelineLedgerRepository`: a snapshot of the
newest rows, and the replay of the rows after a sequence. A predicate selects events by their
time, here as the code does it, and by their scope, source, filters and pins, which the SQL
statement and the Python guard decide each on its own. Times are microseconds.
-/

namespace Opsia.Timeline

open Spans

/-! ## Events and predicates -/

/-- The columns of an event besides its workspace and its source key. -/
structure TimelineFact (ψ : Type) : Type where
  occurredAt : ℕ
  columns : ψ
  deriving DecidableEq, Repr

inductive TimelineReadMode : Type where
  | live
  | frozen
  deriving DecidableEq, Repr

/-- `TimelineWindow`, in milliseconds. -/
structure TimelineWindow : Type where
  fromMs : ℕ
  toMs : ℕ
  /-- `validate_bounds` -/
  positive : fromMs < toMs

/-- The phase of a read. -/
inductive ReadPhase : Type where
  | snapshot
  | stream
  deriving DecidableEq, Repr

def fromDatetime (milliseconds : ℕ) : ℕ := milliseconds * 1000

/-- `TimelineEvidencePredicate`, for one query. -/
structure TimelineEvidencePredicate (ψ : Type) : Type where
  window : TimelineWindow
  mode : TimelineReadMode
  /-- scope, source, filters and pins in the SQL statement -/
  sqlEvidence : TimelineEvent (TimelineFact ψ) → Bool
  /-- scope, source, filters and pins in the Python guard -/
  guardEvidence : TimelineEvent (TimelineFact ψ) → Bool

namespace TimelineEvidencePredicate

variable {ψ : Type} (p : TimelineEvidencePredicate ψ)

/-- `timeline_evidence_sql_predicate`; `func.now()` is an argument. -/
def sqlPredicate (phase : ReadPhase) (now : ℕ) (event : TimelineEvent (TimelineFact ψ)) : Bool :=
  p.sqlEvidence event &&
    (fromDatetime p.window.fromMs ≤ event.fact.occurredAt &&
      if phase = .snapshot || p.mode = .frozen then
        decide (event.fact.occurredAt < fromDatetime p.window.toMs)
      else decide (event.fact.occurredAt ≤ now))

def isWithinSnapshotWindow (event : TimelineEvent (TimelineFact ψ)) : Bool :=
  fromDatetime p.window.fromMs ≤ event.fact.occurredAt &&
    event.fact.occurredAt < fromDatetime p.window.toMs

def isWithinStreamWindow (now : ℕ) (event : TimelineEvent (TimelineFact ψ)) : Bool :=
  if event.fact.occurredAt < fromDatetime p.window.fromMs then false
  else if p.mode = .frozen then event.fact.occurredAt < fromDatetime p.window.toMs
  else event.fact.occurredAt ≤ now

def matchesSnapshot (event : TimelineEvent (TimelineFact ψ)) : Bool :=
  p.isWithinSnapshotWindow event && p.guardEvidence event

def matchesStream (now : ℕ) (event : TimelineEvent (TimelineFact ψ)) : Bool :=
  p.isWithinStreamWindow now event && p.guardEvidence event

/-- The event has the scope, the source and the filters of the query, for both sides. -/
def selects (event : TimelineEvent (TimelineFact ψ)) : Bool :=
  p.sqlEvidence event && p.guardEvidence event

/-- The window of the stream, for an event whose time has come. -/
def inStreamWindow (event : TimelineEvent (TimelineFact ψ)) : Bool :=
  fromDatetime p.window.fromMs ≤ event.fact.occurredAt &&
    (p.mode = .live || event.fact.occurredAt < fromDatetime p.window.toMs)

/-- The event belongs to the stream, once its time has come. -/
def streams (event : TimelineEvent (TimelineFact ψ)) : Bool :=
  p.selects event && p.inStreamWindow event

variable {p} {now : ℕ} {event : TimelineEvent (TimelineFact ψ)}

/-- What the statement selects. -/
theorem sqlPredicate_stream (h : event.fact.occurredAt ≤ now) :
    p.sqlPredicate .stream now event = (p.sqlEvidence event && p.inStreamWindow event) := by
  rw [sqlPredicate, inStreamWindow]
  cases hmode : p.mode with
  | live => simp [h]
  | frozen => simp

/-- What the statement selects and the guard lets through. -/
theorem streams_iff (h : event.fact.occurredAt ≤ now) :
    p.streams event = (p.sqlPredicate .stream now event && p.matchesStream now event) := by
  rw [sqlPredicate_stream h, streams, selects, inStreamWindow, matchesStream,
    isWithinStreamWindow]
  cases hmode : p.mode with
  | live => simp [h]; grind
  | frozen => simp; grind

end TimelineEvidencePredicate

/-! ## Statements -/

variable {ψ : Type} (s : LedgerState (TimelineFact ψ)) (workspaceId : String)
  (p : TimelineEvidencePredicate ψ)

/-- `_cursor_state`: the last sequence and the first that is retained. -/
def LedgerState.cursorState : ℕ × ℕ :=
  match s.cursors.find? workspaceId with
  | none => (0, 1)
  | some cursor => (cursor.lastSequence, cursor.retainedFromSequence)

def LedgerState.readRecords (after through : ℕ) (phase : ReadPhase) (now limit : ℕ)
    (replayOrder : Bool) : List (TimelineLedgerEvent (TimelineFact ψ)) :=
  let rows := Keyset.sorted TimelineLedgerEvent.sequence (s.rows.filter fun row =>
    (row.event.workspaceId = workspaceId && (after < row.sequence && row.sequence ≤ through)) &&
      p.sqlPredicate phase now row.event)
  if replayOrder then rows.take limit else (rows.reverse.take limit).reverse

structure TimelineLedgerSnapshot (ψ : Type) : Type where
  records : List (TimelineLedgerEvent (TimelineFact ψ))
  highWaterSequence : ℕ
  truncated : Bool

/-- `snapshot_timeline_events`: the cursor row was read before the records. -/
def LedgerState.snapshotTimelineEvents (cursorState : ℕ × ℕ) (now limit : ℕ) :
    TimelineLedgerSnapshot ψ :=
  let records := s.readRecords workspaceId p (cursorState.2 - 1) cursorState.1 .snapshot now
    (limit + 1) false
  let truncated := decide (limit < records.length)
  { records := if truncated then records.drop 1 else records
    highWaterSequence := cursorState.1
    truncated := truncated }

/-- The boundary check of `replay_timeline_events`. -/
def resyncRequired (after retainedFrom : ℕ) : Bool := after < retainedFrom - 1

/-- The records of `replay_timeline_events`, up to the last sequence that was read before. -/
def LedgerState.replayRecords (after highWater now limit : ℕ) :
    List (TimelineLedgerEvent (TimelineFact ψ)) :=
  s.readRecords workspaceId p after highWater .stream now limit true

/-! ## What a read finds -/

variable {s workspaceId p}

theorem cursorState_fst : (s.cursorState workspaceId).1 = s.lastSequence workspaceId := by
  rw [LedgerState.cursorState, LedgerState.lastSequence]
  cases s.cursors.find? workspaceId <;> rfl

theorem LedgerOk.grows {φ : Type} {s : LedgerState φ} (h : LedgerOk s) (workspaceId : String) :
    Grows TimelineLedgerEvent.sequence (rowsOf workspaceId s.rows) :=
  Grows.of_map_eq (h.allocated workspaceId).sequences

theorem LedgerOk.le_last {φ : Type} {s : LedgerState φ} (h : LedgerOk s) {workspaceId : String}
    {row : TimelineLedgerEvent φ} (hrow : row ∈ rowsOf workspaceId s.rows) :
    row.sequence ≤ s.lastSequence workspaceId := by
  have hmem := List.mem_map_of_mem (f := TimelineLedgerEvent.sequence) hrow
  rw [(h.allocated workspaceId).sequences, List.mem_range'_1] at hmem
  omega

theorem LedgerOk.exists_later {φ : Type} {s : LedgerState φ} (h : LedgerOk s)
    (workspaceId : String) (action : LedgerAction φ) : ∃ later,
      rowsOf workspaceId (s.step action).rows = rowsOf workspaceId s.rows ++ later ∧
        (∀ row ∈ later, s.lastSequence workspaceId < row.sequence) ∧
          s.lastSequence workspaceId ≤ (s.step action).lastSequence workspaceId := by
  obtain ⟨more, hmore⟩ := exists_rows_step s action
  have hbefore := (h.allocated workspaceId).sequences
  have hafter := ((h.step action).allocated workspaceId).sequences
  rw [hmore, rowsOf_append, List.map_append, hbefore] at hafter
  have hlength := congrArg List.length hafter
  rw [List.length_append, List.length_range', List.length_range'] at hlength
  -- what comes after the old sequences are the next ones
  have hsplit := List.range'_append_1 (s := 1) (m := s.lastSequence workspaceId)
    (n := (rowsOf workspaceId more).length)
  rw [List.length_map] at hlength
  rw [← hlength, ← hsplit] at hafter
  have hnext := List.append_cancel_left hafter
  refine ⟨rowsOf workspaceId more, by rw [hmore, rowsOf_append], fun row hrow => ?_, by omega⟩
  have hmem := List.mem_map_of_mem (f := TimelineLedgerEvent.sequence) hrow
  rw [hnext, List.mem_range'_1] at hmem
  omega

theorem LedgerOk.exists_later_run {φ : Type} {s : LedgerState φ} (h : LedgerOk s)
    (workspaceId : String) (actions : List (LedgerAction φ)) :
    LedgerOk (Runs.run LedgerState.step s actions) ∧ ∃ later,
      rowsOf workspaceId (Runs.run LedgerState.step s actions).rows =
          rowsOf workspaceId s.rows ++ later ∧
        (∀ row ∈ later, s.lastSequence workspaceId < row.sequence) ∧
          s.lastSequence workspaceId ≤
            (Runs.run LedgerState.step s actions).lastSequence workspaceId := by
  induction actions generalizing s with
  | nil => exact ⟨h, [], (List.append_nil _).symm, by simp, le_refl _⟩
  | cons action actions ih =>
    obtain ⟨later, hrows, hlater, hlast⟩ := h.exists_later workspaceId action
    obtain ⟨hok, more, hmoreRows, hmore, hmoreLast⟩ := ih (h.step action)
    refine ⟨hok, later ++ more, ?_, fun row hrow => ?_, hlast.trans hmoreLast⟩
    · rw [Runs.run_cons, hmoreRows, hrows, List.append_assoc]
    · rcases List.mem_append.mp hrow with hrow | hrow
      · exact hlater row hrow
      · exact Nat.lt_of_le_of_lt hlast (hmore row hrow)

theorem sorted_rows (h : LedgerOk s) {after through now : ℕ} {phase : ReadPhase} :
    Keyset.sorted TimelineLedgerEvent.sequence (s.rows.filter fun row =>
      (row.event.workspaceId = workspaceId && (after < row.sequence && row.sequence ≤ through)) &&
        p.sqlPredicate phase now row.event) =
      (span TimelineLedgerEvent.sequence (rowsOf workspaceId s.rows) after through).filter
        fun row => p.sqlPredicate phase now row.event := by
  have hfilter : (s.rows.filter fun row =>
      (row.event.workspaceId = workspaceId && (after < row.sequence && row.sequence ≤ through)) &&
        p.sqlPredicate phase now row.event) =
      (span TimelineLedgerEvent.sequence (rowsOf workspaceId s.rows) after through).filter
        fun row => p.sqlPredicate phase now row.event := by
    rw [span, rowsOf, List.filter_filter, List.filter_filter]
    refine List.filter_congr fun row _ => ?_
    cases decide (row.event.workspaceId = workspaceId) <;>
      cases p.sqlPredicate phase now row.event <;> simp
  rw [hfilter]
  have hgrows : Grows TimelineLedgerEvent.sequence _ :=
    List.Pairwise.filter (fun row => p.sqlPredicate phase now row.event)
      ((h.grows workspaceId).span (a := after) (b := through))
  exact List.Pairwise.insertionSort_eq (hgrows.imp fun hlt => hlt.le)

theorem replayRecords_eq (h : LedgerOk s) {after highWater now limit : ℕ} :
    s.replayRecords workspaceId p after highWater now limit =
      ((span TimelineLedgerEvent.sequence (rowsOf workspaceId s.rows) after highWater).filter
        fun row => p.sqlPredicate .stream now row.event).take limit := by
  rw [LedgerState.replayRecords, LedgerState.readRecords, if_pos rfl, sorted_rows h]

theorem readRecords_snapshot (h : LedgerOk s) {after highWater now limit : ℕ} :
    s.readRecords workspaceId p after highWater .snapshot now limit false =
      (((span TimelineLedgerEvent.sequence (rowsOf workspaceId s.rows) after highWater).filter
        fun row => p.sqlPredicate .snapshot now row.event).reverse.take limit).reverse := by
  rw [LedgerState.readRecords, if_neg Bool.false_ne_true, sorted_rows h]

theorem records_of_untruncated (h : LedgerOk s) {cursorState : ℕ × ℕ} {now limit : ℕ}
    (huntruncated :
      (s.snapshotTimelineEvents workspaceId p cursorState now limit).truncated = false) :
    (s.snapshotTimelineEvents workspaceId p cursorState now limit).records =
      (span TimelineLedgerEvent.sequence (rowsOf workspaceId s.rows) (cursorState.2 - 1)
        cursorState.1).filter fun row => p.sqlPredicate .snapshot now row.event := by
  rw [LedgerState.snapshotTimelineEvents] at huntruncated ⊢
  rw [readRecords_snapshot h] at huntruncated ⊢
  have hle := of_decide_eq_false huntruncated
  rw [List.length_reverse, List.length_take] at hle
  -- a read of one row more than the limit that stays within it has read all rows
  dsimp only at huntruncated ⊢
  rw [huntruncated, if_neg Bool.false_ne_true, List.take_of_length_le (by omega),
    List.reverse_reverse]

end Opsia.Timeline
