import Opsia.Lib.FirstWins
import Opsia.Lib.Runs
import Opsia.Lib.Table

/-!
# The timeline ledger

Transactions that append events to the timeline ledger and advance its retention,
interleaved statement by statement. A transaction may join several calls of
`append_timeline_events` and `advance_timeline_retention`, and ends with a commit or, at any
time, with a rollback.

Others see of a transaction only its locks until it commits. Its own version of a cursor row
is the lock of that row. The columns of an event besides its workspace and its source key
are any type, and come back from a row as they were written.
-/

namespace Opsia.Timeline

/-! ## Rows -/

structure TimelineEvent (φ : Type) : Type where
  workspaceId : String
  sourceKey : String
  fact : φ
  deriving DecidableEq, Repr

/-- `TimelineLedgerEvent`: an event with its sequence. -/
structure TimelineLedgerEvent (φ : Type) : Type where
  sequence : ℕ
  event : TimelineEvent φ
  deriving DecidableEq, Repr

structure TimelineLedgerCursor : Type where
  workspaceId : String
  lastSequence : ℕ
  retainedFromSequence : ℕ
  deriving DecidableEq, Repr

structure TimelineLedgerAppend (φ : Type) : Type where
  event : TimelineEvent φ
  sequence : ℕ
  inserted : Bool
  deriving DecidableEq, Repr

/-- A finished call of `append_timeline_events`. -/
structure AppendCall (φ : Type) : Type where
  batch : List (TimelineEvent φ)
  appends : List (TimelineLedgerAppend φ)
  deriving DecidableEq, Repr

/-- A finished call of `advance_timeline_retention`. -/
structure RetentionCall : Type where
  workspaceId : String
  boundary : ℕ
  retained : ℕ
  deriving DecidableEq, Repr

variable {φ : Type}

/-! ## One append -/

/-- `source_keys`: `dict.fromkeys` over the batch. -/
def sourceKeys (batch : List (TimelineEvent φ)) : List String :=
  FirstWins.firsts id (batch.map TimelineEvent.sourceKey)

/-- `first_events`: a dictionary filled from the end of the batch. -/
def firstEvents (batch : List (TimelineEvent φ)) : String → Option (TimelineEvent φ) :=
  batch.reverse.foldl (fun events event => Function.update events event.sourceKey (some event))
    fun _ => none

/-- A row is of the source key. -/
def TimelineLedgerEvent.hasKey (sourceKey : String) (row : TimelineLedgerEvent φ) : Bool :=
  row.event.sourceKey = sourceKey

/-- `existing_rows`: what the rows of a workspace already hold of some source keys. -/
def existingRows (rows : List (TimelineLedgerEvent φ)) (workspaceId : String)
    (keys : List String) : List (TimelineLedgerEvent φ) :=
  rows.filter fun row => row.event.workspaceId = workspaceId && row.event.sourceKey ∈ keys

def newEvents (batch : List (TimelineEvent φ)) (existing : List (TimelineLedgerEvent φ)) :
    List (TimelineEvent φ) :=
  ((sourceKeys batch).filter fun sourceKey => !existing.any (·.hasKey sourceKey)).filterMap
    (firstEvents batch)

/-- `values`: the new rows from a first sequence on. -/
def eventValues (first : ℕ) : List (TimelineEvent φ) → List (TimelineLedgerEvent φ)
  | [] => []
  | event :: events => ⟨first, event⟩ :: eventValues (first + 1) events

/-- `rows_by_key`: an inserted row goes before an existing one. -/
def rowsByKey (existing inserted : List (TimelineLedgerEvent φ)) (sourceKey : String) :
    Option (TimelineLedgerEvent φ) :=
  (inserted.find? (·.hasKey sourceKey)).or (existing.find? (·.hasKey sourceKey))

/-- The loop over the batch after the writes, with `reported_insertions`; `none` when a row
is missing. -/
def appendsAfter (existing inserted : List (TimelineLedgerEvent φ)) (reported : List String) :
    List (TimelineEvent φ) → Option (List (TimelineLedgerAppend φ))
  | [] => some []
  | event :: batch => do
    let row ← rowsByKey existing inserted event.sourceKey
    let rest ← appendsAfter existing inserted (event.sourceKey :: reported) batch
    pure (⟨row.event, row.sequence,
      inserted.any (·.hasKey event.sourceKey) && decide (event.sourceKey ∉ reported)⟩ :: rest)

/-! ## Transactions -/

def timelineAppendChunk : ℕ := 1000

/-- The statement of `append_timeline_events` that is due. -/
inductive AppendStage (φ : Type) : Type where
  | insertCursor
  | lockCursor
  | readExisting
  | allocate (existing : List (TimelineLedgerEvent φ))
  /-- the loop over the chunks, with the rows that are inserted and those still to insert -/
  | insertRows (existing inserted values : List (TimelineLedgerEvent φ))

/-- The statement of `advance_timeline_retention` that is due. -/
inductive RetentionStage : Type where
  | insertCursor
  | update
  | read

/-- The call a transaction is in. -/
inductive PendingCall (φ : Type) : Type where
  | append (workspaceId : String) (batch : List (TimelineEvent φ)) (stage : AppendStage φ)
  | retention (workspaceId : String) (boundary : ℕ) (stage : RetentionStage)

/-- An open transaction: the cursor rows that it holds, in its version, the rows that it
wrote, and its calls. -/
structure LedgerTransaction (φ : Type) : Type where
  session : ℕ
  cursors : Table TimelineLedgerCursor.workspaceId
  rows : List (TimelineLedgerEvent φ)
  appends : List (AppendCall φ)
  retentions : List RetentionCall
  pending : Option (PendingCall φ)

/-- The committed tables and calls, in the order of the commits, and the open
transactions. -/
structure LedgerState (φ : Type) : Type where
  cursors : Table TimelineLedgerCursor.workspaceId
  rows : List (TimelineLedgerEvent φ)
  appends : List (AppendCall φ)
  retentions : List RetentionCall
  transactions : Table fun tx : LedgerTransaction φ => tx.session

/-- Before any transaction. -/
def LedgerState.empty : LedgerState φ := ⟨Table.empty, [], [], [], Table.empty⟩

/-- A transaction that has just begun. -/
def LedgerTransaction.begin (session : ℕ) : LedgerTransaction φ :=
  ⟨session, Table.empty, [], [], [], none⟩

/-- One statement or decision of one transaction. -/
inductive LedgerAction (φ : Type) : Type where
  | begin (session : ℕ)
  | appendTimelineEvents (session : ℕ) (batch : List (TimelineEvent φ))
  | advanceTimelineRetention (session : ℕ) (workspaceId : String) (boundary : ℕ)
  | statement (session : ℕ)
  | commit (session : ℕ)
  | rollback (session : ℕ)

/-- How a statement ends: it waits for a lock, it raises, which ends the transaction, or it
is done. -/
inductive StatementEnd (φ : Type) : Type where
  | waits
  | raises
  | done (tx : LedgerTransaction φ)

/-- The transaction goes on with another statement. -/
def LedgerTransaction.next (tx : LedgerTransaction φ) (pending : Option (PendingCall φ)) :
    LedgerTransaction φ :=
  { tx with pending := pending }

/-- The transaction writes or locks a cursor row. -/
def LedgerTransaction.putCursor (tx : LedgerTransaction φ) (cursor : TimelineLedgerCursor) :
    LedgerTransaction φ :=
  { tx with cursors := tx.cursors.put cursor }

/-- Another transaction holds the cursor row. -/
def LedgerState.heldByOther (s : LedgerState φ) (tx : LedgerTransaction φ)
    (workspaceId : String) : Bool :=
  s.transactions.rows.any fun other =>
    other.session ≠ tx.session && (other.cursors.find? workspaceId).isSome

/-- The cursor row as a transaction sees it. -/
def LedgerState.seenCursor (s : LedgerState φ) (tx : LedgerTransaction φ)
    (workspaceId : String) : Option TimelineLedgerCursor :=
  (tx.cursors.find? workspaceId).or (s.cursors.find? workspaceId)

/-- `INSERT … ON CONFLICT DO NOTHING` of a cursor row. -/
def LedgerState.insertCursor (s : LedgerState φ) (tx : LedgerTransaction φ)
    (cursor : TimelineLedgerCursor) : StatementEnd φ :=
  if (s.seenCursor tx cursor.workspaceId).isSome then .done tx
  else if s.heldByOther tx cursor.workspaceId then .waits
  else .done (tx.putCursor cursor)

/-- `SELECT … FOR UPDATE` of a cursor row, which must be there. -/
def LedgerState.lockCursor (s : LedgerState φ) (tx : LedgerTransaction φ)
    (workspaceId : String) : StatementEnd φ :=
  match s.seenCursor tx workspaceId with
  | none => .raises
  | some cursor => if s.heldByOther tx workspaceId then .waits else .done (tx.putCursor cursor)

/-- Two rows violate the primary key or the unique source key. -/
def TimelineLedgerEvent.collides (a b : TimelineLedgerEvent φ) : Bool :=
  a.event.workspaceId = b.event.workspaceId &&
    (a.sequence = b.sequence || a.event.sourceKey = b.event.sourceKey)

/-- Two of the rows violate a constraint. -/
def collideWithin : List (TimelineLedgerEvent φ) → Bool
  | [] => false
  | row :: rows => rows.any row.collides || collideWithin rows

/-- `INSERT` of a chunk of rows. -/
def LedgerState.insertRows (s : LedgerState φ) (tx : LedgerTransaction φ)
    (chunk : List (TimelineLedgerEvent φ)) : StatementEnd φ :=
  if collideWithin chunk || chunk.any fun row => (s.rows ++ tx.rows).any row.collides then .raises
  else if chunk.any fun row => s.transactions.rows.any fun other =>
      other.session ≠ tx.session && other.rows.any row.collides then .waits
  else .done { tx with rows := tx.rows ++ chunk }

/-- Go on with another statement when this one is done. -/
def StatementEnd.next (end_ : StatementEnd φ) (pending : Option (PendingCall φ)) : StatementEnd φ :=
  match end_ with
  | .waits => .waits
  | .raises => .raises
  | .done tx => .done (tx.next pending)

/-- A statement of `append_timeline_events`. -/
def LedgerState.appendStatement (s : LedgerState φ) (tx : LedgerTransaction φ)
    (workspaceId : String) (batch : List (TimelineEvent φ)) : AppendStage φ → StatementEnd φ
  | .insertCursor =>
    (s.insertCursor tx ⟨workspaceId, 0, 1⟩).next (some (.append workspaceId batch .lockCursor))
  | .lockCursor =>
    (s.lockCursor tx workspaceId).next (some (.append workspaceId batch .readExisting))
  | .readExisting =>
    .done (tx.next (some (.append workspaceId batch
      (.allocate (existingRows (s.rows ++ tx.rows) workspaceId (sourceKeys batch))))))
  | .allocate existing =>
    let events := newEvents batch existing
    if events.isEmpty then
      .done (tx.next (some (.append workspaceId batch (.insertRows existing [] []))))
    else
      match s.seenCursor tx workspaceId with
      | none => .raises
      | some cursor =>
        let highWater := cursor.lastSequence + events.length
        .done ((tx.putCursor { cursor with lastSequence := highWater }).next
          (some (.append workspaceId batch
            (.insertRows existing [] (eventValues (highWater - events.length + 1) events)))))
  | .insertRows existing inserted values =>
    if values.isEmpty then
      match appendsAfter existing inserted [] batch with
      | none => .raises
      | some appends =>
        .done { tx with appends := tx.appends ++ [⟨batch, appends⟩], pending := none }
    else
      let chunk := values.take timelineAppendChunk
      (s.insertRows tx chunk).next (some (.append workspaceId batch
        (.insertRows existing (inserted ++ chunk) (values.drop timelineAppendChunk))))

/-- A statement of `advance_timeline_retention`. -/
def LedgerState.retentionStatement (s : LedgerState φ) (tx : LedgerTransaction φ)
    (workspaceId : String) (boundary : ℕ) : RetentionStage → StatementEnd φ
  | .insertCursor =>
    (s.insertCursor tx ⟨workspaceId, 0, boundary⟩).next
      (some (.retention workspaceId boundary .update))
  | .update =>
    match s.seenCursor tx workspaceId with
    | none => .done (tx.next (some (.retention workspaceId boundary .read)))
    | some cursor =>
      if cursor.retainedFromSequence < boundary then
        if s.heldByOther tx workspaceId then .waits
        else
          .done
            { tx.putCursor { cursor with retainedFromSequence := boundary } with
              retentions := tx.retentions ++ [⟨workspaceId, boundary, boundary⟩]
              pending := none }
      else .done (tx.next (some (.retention workspaceId boundary .read)))
  | .read =>
    match s.seenCursor tx workspaceId with
    | none => .raises
    | some cursor =>
      .done
        { tx with
          retentions := tx.retentions ++ [⟨workspaceId, boundary, cursor.retainedFromSequence⟩]
          pending := none }

/-- The statement that is due in a transaction. -/
def LedgerState.statement (s : LedgerState φ) (tx : LedgerTransaction φ) : StatementEnd φ :=
  match tx.pending with
  | none => .waits
  | some (.append workspaceId batch stage) => s.appendStatement tx workspaceId batch stage
  | some (.retention workspaceId boundary stage) =>
    s.retentionStatement tx workspaceId boundary stage

/-- The call `append_timeline_events`; `none` when it raises. -/
def LedgerTransaction.appendTimelineEvents (tx : LedgerTransaction φ)
    (batch : List (TimelineEvent φ)) : Option (LedgerTransaction φ) :=
  match batch with
  | [] => some { tx with appends := tx.appends ++ [⟨[], []⟩] }
  | event :: rest =>
    if rest.all fun other => other.workspaceId = event.workspaceId then
      some (tx.next (some (.append event.workspaceId batch .insertCursor)))
    else none

/-- The call `advance_timeline_retention`; `none` when it raises. -/
def LedgerTransaction.advanceTimelineRetention (tx : LedgerTransaction φ) (workspaceId : String)
    (boundary : ℕ) : Option (LedgerTransaction φ) :=
  if workspaceId = "" || boundary < 1 then none
  else some (tx.next (some (.retention workspaceId boundary .insertCursor)))

/-- The transaction becomes visible and releases its locks. -/
def LedgerState.commit (s : LedgerState φ) (tx : LedgerTransaction φ) : LedgerState φ where
  cursors := tx.cursors.rows.foldl Table.put s.cursors
  rows := s.rows ++ tx.rows
  appends := s.appends ++ tx.appends
  retentions := s.retentions ++ tx.retentions
  transactions := s.transactions.erase tx.session

/-- The open transaction has changed. -/
def LedgerState.put (s : LedgerState φ) (tx : LedgerTransaction φ) : LedgerState φ :=
  { s with transactions := s.transactions.put tx }

/-- The transaction is gone. -/
def LedgerState.rollback (s : LedgerState φ) (session : ℕ) : LedgerState φ :=
  { s with transactions := s.transactions.erase session }

/-- A call that raises before its first statement leaves the transaction as it was. -/
def LedgerState.call (s : LedgerState φ) (session : ℕ)
    (enter : LedgerTransaction φ → Option (LedgerTransaction φ)) : LedgerState φ :=
  match s.transactions.find? session with
  | none => s
  | some tx => if tx.pending.isNone then ((enter tx).map s.put).getD s else s

/-- One step; an action that is not due changes nothing. -/
def LedgerState.step (s : LedgerState φ) : LedgerAction φ → LedgerState φ
  | .begin session =>
    if (s.transactions.find? session).isNone then s.put (LedgerTransaction.begin session) else s
  | .appendTimelineEvents session batch => s.call session (·.appendTimelineEvents batch)
  | .advanceTimelineRetention session workspaceId boundary =>
    s.call session (·.advanceTimelineRetention workspaceId boundary)
  | .statement session =>
    match s.transactions.find? session with
    | none => s
    | some tx =>
      match s.statement tx with
      | .waits => s
      | .raises => s.rollback session
      | .done tx => s.put tx
  | .commit session =>
    match s.transactions.find? session with
    | none => s
    | some tx => if tx.pending.isNone then s.commit tx else s
  | .rollback session => s.rollback session

/-! ## The events of one append -/

theorem firstEvents_apply (batch : List (TimelineEvent φ)) (sourceKey : String) :
    firstEvents batch sourceKey = batch.find? fun event => event.sourceKey = sourceKey := by
  rw [firstEvents, List.foldl_reverse]
  induction batch with
  | nil => rfl
  | cons event batch ih =>
    rw [List.foldr_cons, List.find?_cons]
    by_cases hkey : event.sourceKey = sourceKey
    · simp [hkey]
    · simp only [hkey, decide_false]
      rw [Function.update_of_ne (Ne.symm hkey)]
      exact ih

theorem newEvents_eq (batch : List (TimelineEvent φ))
    (existing : List (TimelineLedgerEvent φ)) :
    newEvents batch existing = (FirstWins.firsts TimelineEvent.sourceKey batch).filter
      fun event => !existing.any (·.hasKey event.sourceKey) := by
  rw [newEvents, sourceKeys, FirstWins.firsts_map, List.filter_map, List.filterMap_map]
  have hfound : ∀ event ∈ (FirstWins.firsts TimelineEvent.sourceKey batch).filter
      ((fun sourceKey => !existing.any (·.hasKey sourceKey)) ∘ TimelineEvent.sourceKey),
      (firstEvents batch ∘ TimelineEvent.sourceKey) event = some event := by
    intro event hevent
    rw [Function.comp_apply, firstEvents_apply]
    exact FirstWins.find?_of_mem_firsts (List.mem_filter.mp hevent).1
  rw [List.filterMap_congr hfound, List.filterMap_some]
  rfl

theorem map_event_eventValues (first : ℕ) (events : List (TimelineEvent φ)) :
    (eventValues first events).map TimelineLedgerEvent.event = events := by
  induction events generalizing first with
  | nil => rfl
  | cons event events ih => rw [eventValues, List.map_cons, ih]

theorem map_sequence_eventValues (first : ℕ) (events : List (TimelineEvent φ)) :
    (eventValues first events).map TimelineLedgerEvent.sequence =
      List.range' first events.length := by
  induction events generalizing first with
  | nil => rfl
  | cons event events ih => rw [eventValues, List.map_cons, ih, List.length_cons, List.range'_succ]

/-- The result that reports a row as inserted. -/
def TimelineLedgerEvent.reported (row : TimelineLedgerEvent φ) : TimelineLedgerAppend φ :=
  ⟨row.event, row.sequence, true⟩

/-- The row of a result. -/
def TimelineLedgerAppend.row (append : TimelineLedgerAppend φ) : TimelineLedgerEvent φ :=
  ⟨append.sequence, append.event⟩

@[simp] theorem TimelineLedgerEvent.hasKey_iff {sourceKey : String}
    {row : TimelineLedgerEvent φ} : row.hasKey sourceKey = true ↔ row.event.sourceKey = sourceKey :=
  decide_eq_true_iff

variable {existing inserted : List (TimelineLedgerEvent φ)}

theorem mem_of_rowsByKey {sourceKey : String} {row : TimelineLedgerEvent φ}
    (h : rowsByKey existing inserted sourceKey = some row) :
    row ∈ inserted ++ existing ∧ row.event.sourceKey = sourceKey := by
  rcases Option.or_eq_some_iff.mp h with h | ⟨-, h⟩
  · exact ⟨List.mem_append_left _ (List.mem_of_find?_eq_some h),
      TimelineLedgerEvent.hasKey_iff.mp (List.find?_some h)⟩
  · exact ⟨List.mem_append_right _ (List.mem_of_find?_eq_some h),
      TimelineLedgerEvent.hasKey_iff.mp (List.find?_some h)⟩

theorem isSome_rowsByKey {sourceKey : String} :
    (rowsByKey existing inserted sourceKey).isSome = true ↔
      inserted.any (·.hasKey sourceKey) = true ∨ existing.any (·.hasKey sourceKey) = true := by
  rw [rowsByKey, Option.isSome_or, Bool.or_eq_true, List.find?_isSome, List.find?_isSome,
    List.any_eq_true, List.any_eq_true]

/-- **The results of a batch**: one for each event, showing the row of its source key, and
marked as inserted at the first event of each inserted source key. -/
theorem exists_appendsAfter {batch : List (TimelineEvent φ)} (reported : List String)
    (hfound : ∀ event ∈ batch, (rowsByKey existing inserted event.sourceKey).isSome = true) :
    ∃ appends, appendsAfter existing inserted reported batch = some appends ∧
      (∀ append ∈ appends, append.row ∈ inserted ++ existing) ∧
      appends.map (·.event.sourceKey) = batch.map TimelineEvent.sourceKey ∧
      appends.filter (·.inserted) =
        (FirstWins.firstsAfter TimelineEvent.sourceKey reported batch).filterMap fun event =>
          (inserted.find? (·.hasKey event.sourceKey)).map TimelineLedgerEvent.reported := by
  induction batch generalizing reported with
  | nil => exact ⟨[], rfl, by simp, rfl, rfl⟩
  | cons event batch ih =>
    obtain ⟨appends, happends, hrows, hkeys, hinserted⟩ :=
      ih (event.sourceKey :: reported) fun e he => hfound e (List.mem_cons_of_mem _ he)
    obtain ⟨row, hrow⟩ := Option.isSome_iff_exists.mp (hfound event List.mem_cons_self)
    obtain ⟨hmem, hkey⟩ := mem_of_rowsByKey hrow
    refine ⟨_, by simp only [appendsAfter, hrow, happends]; rfl, ?_, ?_, ?_⟩
    · intro append happend
      rcases List.mem_cons.mp happend with rfl | happend
      · exact hmem
      · exact hrows append happend
    · rw [List.map_cons, List.map_cons, hkeys, hkey]
    · by_cases hreported : event.sourceKey ∈ reported
      · have hseen : FirstWins.firstsAfter TimelineEvent.sourceKey (event.sourceKey :: reported)
            batch = FirstWins.firstsAfter TimelineEvent.sourceKey reported batch := by
          refine FirstWins.firstsAfter_congr fun k => ⟨fun h => ?_, List.mem_cons_of_mem _⟩
          rcases List.mem_cons.mp h with rfl | h
          · exact hreported
          · exact h
        simp only [FirstWins.firstsAfter, hreported, not_true_eq_false, decide_false,
          Bool.and_false, List.filter_cons, Bool.false_eq_true, if_false, if_true]
        rw [hinserted, hseen]
      · simp only [FirstWins.firstsAfter, hreported, not_false_eq_true, decide_true,
          Bool.and_true, List.filter_cons, if_false]
        rcases hfind : inserted.find? (·.hasKey event.sourceKey) with _ | first
        · have hany : inserted.any (·.hasKey event.sourceKey) = false := by
            rw [List.any_eq_false]
            exact List.find?_eq_none.mp hfind
          rw [if_neg (by simp [hany]), hinserted, List.filterMap_cons_none (by rw [hfind]; rfl)]
        · have hany : inserted.any (·.hasKey event.sourceKey) = true :=
            List.any_eq_true.mpr ⟨first, List.mem_of_find?_eq_some hfind, List.find?_some hfind⟩
          have hfirst : row = first := by
            rw [rowsByKey, hfind, Option.some_or] at hrow
            exact (Option.some.inj hrow).symm
          rw [if_pos hany, hinserted, List.filterMap_cons_some (by rw [hfind]; rfl), hany, hfirst]
          rfl

theorem filterMap_find?_rows {rows : List (TimelineLedgerEvent φ)}
    (hnodup : (rows.map fun row => row.event.sourceKey).Nodup) :
    ((rows.map TimelineLedgerEvent.event).filterMap fun event =>
        (rows.find? (·.hasKey event.sourceKey)).map TimelineLedgerEvent.reported) =
      rows.map TimelineLedgerEvent.reported := by
  rw [List.filterMap_map, ← List.filterMap_eq_map]
  refine List.filterMap_congr fun row hrow => ?_
  have hfind : rows.find? (·.hasKey row.event.sourceKey) = some row := by
    rcases hfind : rows.find? (·.hasKey row.event.sourceKey) with _ | other
    · exact absurd (TimelineLedgerEvent.hasKey_iff.mpr rfl)
        (List.find?_eq_none.mp hfind row hrow)
    · have hkey := TimelineLedgerEvent.hasKey_iff.mp (List.find?_some hfind)
      rw [hfind, List.inj_on_of_nodup_map hnodup (List.mem_of_find?_eq_some hfind) hrow hkey]
  rw [Function.comp_apply, hfind]
  rfl

/-! ## The law of a ledger -/

/-- The ledger of a workspace: gap-free rows that hold the first occurrences of the events
that were appended, each reported as inserted once, and results that show rows. -/
structure LedgerLaw (lastSequence : ℕ) (rows : List (TimelineLedgerEvent φ))
    (occurrences : List (TimelineEvent φ)) (appends : List (TimelineLedgerAppend φ)) : Prop where
  sequences : rows.map TimelineLedgerEvent.sequence = List.range' 1 lastSequence
  events : rows.map TimelineLedgerEvent.event =
    FirstWins.firsts TimelineEvent.sourceKey occurrences
  inserted : appends.filter (·.inserted) = rows.map TimelineLedgerEvent.reported
  shown : ∀ append ∈ appends, append.row ∈ rows
  keys : appends.map (·.event.sourceKey) = occurrences.map TimelineEvent.sourceKey

section Law

variable {lastSequence : ℕ} {rows : List (TimelineLedgerEvent φ)}
  {occurrences batch : List (TimelineEvent φ)} {appends : List (TimelineLedgerAppend φ)}

theorem LedgerLaw.empty : LedgerLaw 0 ([] : List (TimelineLedgerEvent φ)) [] [] :=
  ⟨rfl, rfl, rfl, by simp, rfl⟩

theorem any_hasKey_iff {sourceKey : String} : rows.any (·.hasKey sourceKey) = true ↔
    sourceKey ∈ (rows.map TimelineLedgerEvent.event).map TimelineEvent.sourceKey := by
  rw [List.map_map, List.any_eq_true, List.mem_map]
  simp only [TimelineLedgerEvent.hasKey_iff, Function.comp_apply]

theorem LedgerLaw.map_sourceKey (h : LedgerLaw lastSequence rows occurrences appends) :
    (rows.map fun row => row.event.sourceKey) =
      (FirstWins.firsts TimelineEvent.sourceKey occurrences).map TimelineEvent.sourceKey := by
  rw [← h.events, List.map_map]
  rfl

theorem LedgerLaw.nodup (h : LedgerLaw lastSequence rows occurrences appends) :
    (rows.map fun row => row.event.sourceKey).Nodup := by
  rw [h.map_sourceKey]
  exact FirstWins.nodup_firsts

theorem LedgerLaw.any_hasKey (h : LedgerLaw lastSequence rows occurrences appends)
    {sourceKey : String} : rows.any (·.hasKey sourceKey) = true ↔
      sourceKey ∈ occurrences.map TimelineEvent.sourceKey := by
  rw [any_hasKey_iff, h.events, FirstWins.mem_map_firsts]

theorem any_hasKey_filter {keys : List String} {sourceKey : String} (hkey : sourceKey ∈ keys) :
    (rows.filter fun row => decide (row.event.sourceKey ∈ keys)).any (·.hasKey sourceKey) =
      rows.any (·.hasKey sourceKey) := by
  rw [Bool.eq_iff_iff, List.any_eq_true, List.any_eq_true]
  simp only [List.mem_filter, decide_eq_true_eq, TimelineLedgerEvent.hasKey_iff]
  constructor
  · rintro ⟨row, ⟨hrow, -⟩, hrowKey⟩
    exact ⟨row, hrow, hrowKey⟩
  · rintro ⟨row, hrow, hrowKey⟩
    exact ⟨row, ⟨hrow, hrowKey ▸ hkey⟩, hrowKey⟩

/-- **An append keeps the law**, when it numbers its new events after the last sequence. -/
theorem LedgerLaw.append (h : LedgerLaw lastSequence rows occurrences appends)
    {existing values : List (TimelineLedgerEvent φ)}
    (hexisting : existing = rows.filter fun row => row.event.sourceKey ∈ sourceKeys batch)
    (hvalues : values = eventValues (lastSequence + 1) (newEvents batch existing)) :
    ∃ more, appendsAfter existing values [] batch = some more ∧
      LedgerLaw (lastSequence + (newEvents batch existing).length) (rows ++ values)
        (occurrences ++ batch) (appends ++ more) := by
  have hkeys : ∀ event ∈ batch, event.sourceKey ∈ sourceKeys batch := by
    intro event hevent
    rw [sourceKeys, FirstWins.firsts_map, FirstWins.mem_map_firsts]
    exact List.mem_map_of_mem hevent
  -- the new events are the first occurrences in the batch whose key was never appended
  have hnew : newEvents batch existing =
      (FirstWins.firsts TimelineEvent.sourceKey batch).filter fun event =>
        decide (event.sourceKey ∉ occurrences.map TimelineEvent.sourceKey) := by
    rw [newEvents_eq]
    refine List.filter_congr fun event hevent => ?_
    have hmem := (FirstWins.mem_of_mem_firstsAfter hevent).1
    rw [hexisting, any_hasKey_filter (hkeys event hmem), Bool.eq_iff_iff, Bool.not_eq_true',
      decide_eq_true_eq, ← h.any_hasKey, Bool.not_eq_true]
  have hevents : values.map TimelineLedgerEvent.event = newEvents batch existing := by
    rw [hvalues, map_event_eventValues]
  have hfirsts : (rows ++ values).map TimelineLedgerEvent.event =
      FirstWins.firsts TimelineEvent.sourceKey (occurrences ++ batch) := by
    rw [List.map_append, h.events, hevents, FirstWins.firsts_append, hnew]
  have hnodup : (values.map fun row => row.event.sourceKey).Nodup := by
    have hall : ((rows ++ values).map fun row => row.event.sourceKey).Nodup := by
      have hcomp := congrArg (List.map TimelineEvent.sourceKey) hfirsts
      rw [List.map_map] at hcomp
      exact hcomp ▸ FirstWins.nodup_firsts
    rw [List.map_append] at hall
    exact hall.of_append_right
  have hany : ∀ sourceKey, values.any (·.hasKey sourceKey) = true ↔
      sourceKey ∈ batch.map TimelineEvent.sourceKey ∧
        sourceKey ∉ occurrences.map TimelineEvent.sourceKey := by
    intro sourceKey
    rw [any_hasKey_iff, hevents, hnew, List.mem_map, ← FirstWins.mem_map_firsts, List.mem_map]
    simp only [List.mem_filter, decide_eq_true_eq]
    constructor
    · rintro ⟨event, ⟨hevent, hfresh⟩, rfl⟩
      exact ⟨⟨event, hevent, rfl⟩, hfresh⟩
    · rintro ⟨⟨event, hevent, rfl⟩, hfresh⟩
      exact ⟨event, ⟨hevent, hfresh⟩, rfl⟩
  have hfound : ∀ event ∈ batch, (rowsByKey existing values event.sourceKey).isSome = true := by
    intro event hevent
    rw [isSome_rowsByKey, hany]
    by_cases hold : event.sourceKey ∈ occurrences.map TimelineEvent.sourceKey
    · refine Or.inr ?_
      rw [hexisting, any_hasKey_filter (hkeys event hevent)]
      exact h.any_hasKey.mpr hold
    · exact Or.inl ⟨List.mem_map_of_mem hevent, hold⟩
  obtain ⟨more, hmore, hshown, hmoreKeys, hinserted⟩ := exists_appendsAfter [] hfound
  refine ⟨more, hmore, ?_, hfirsts, ?_, ?_, ?_⟩
  · rw [List.map_append, h.sequences, hvalues, map_sequence_eventValues,
      Nat.add_comm lastSequence 1]
    exact List.range'_append_1
  · have hmore : more.filter (·.inserted) = values.map TimelineLedgerEvent.reported := by
      rw [hinserted, ← filterMap_find?_rows hnodup, hevents, hnew, List.filterMap_filter]
      refine List.filterMap_congr fun event _ => ?_
      by_cases hold : event.sourceKey ∈ occurrences.map TimelineEvent.sourceKey
      · rw [if_neg (by simpa using hold)]
        have hnone : values.find? (·.hasKey event.sourceKey) = none := by
          refine List.find?_eq_none.mpr fun row hrow hrowKey => ?_
          exact ((hany _).mp (List.any_eq_true.mpr ⟨row, hrow, hrowKey⟩)).2 hold
        rw [hnone]
        rfl
      · rw [if_pos (decide_eq_true hold)]
    rw [List.filter_append, h.inserted, hmore, List.map_append]
  · intro append happend
    rcases List.mem_append.mp happend with happend | happend
    · exact List.mem_append_left _ (h.shown append happend)
    · rcases List.mem_append.mp (hshown append happend) with hrow | hrow
      · exact List.mem_append_right _ hrow
      · rw [hexisting] at hrow
        exact List.mem_append_left _ (List.mem_filter.mp hrow).1
  · rw [List.map_append, h.keys, hmoreKeys, List.map_append]

end Law

end Opsia.Timeline
