import Opsia.Timeline.Ledger

/-!
# Allocation in the timeline ledger

Whatever transactions interleave, the committed ledger of a workspace is gap-free. A
transaction that holds a cursor row keeps the law of that workspace over the committed
tables and its own writes, those included that its current append has allocated but not
inserted yet; nobody else writes there before it ends.
-/

namespace Opsia.Timeline

variable {φ : Type}

/-! ## One workspace -/

/-- The rows of a workspace. -/
def rowsOf (workspaceId : String) (rows : List (TimelineLedgerEvent φ)) :
    List (TimelineLedgerEvent φ) :=
  rows.filter fun row => row.event.workspaceId = workspaceId

/-- The events of a workspace that calls were given, in order. -/
def occurrencesOf (workspaceId : String) (calls : List (AppendCall φ)) : List (TimelineEvent φ) :=
  (calls.flatMap AppendCall.batch).filter fun event => event.workspaceId = workspaceId

/-- The results of calls for a workspace. -/
def appendsOf (workspaceId : String) (calls : List (AppendCall φ)) :
    List (TimelineLedgerAppend φ) :=
  (calls.flatMap AppendCall.appends).filter fun append => append.event.workspaceId = workspaceId

section Workspace

variable {workspaceId : String} {rows rows' : List (TimelineLedgerEvent φ)}
  {calls calls' : List (AppendCall φ)}

@[simp] theorem rowsOf_append :
    rowsOf workspaceId (rows ++ rows') = rowsOf workspaceId rows ++ rowsOf workspaceId rows' :=
  List.filter_append _ _

@[simp] theorem occurrencesOf_append : occurrencesOf workspaceId (calls ++ calls') =
    occurrencesOf workspaceId calls ++ occurrencesOf workspaceId calls' := by
  rw [occurrencesOf, List.flatMap_append, List.filter_append]
  rfl

@[simp] theorem appendsOf_append : appendsOf workspaceId (calls ++ calls') =
    appendsOf workspaceId calls ++ appendsOf workspaceId calls' := by
  rw [appendsOf, List.flatMap_append, List.filter_append]
  rfl

theorem existingRows_eq (keys : List String) : existingRows rows workspaceId keys =
    (rowsOf workspaceId rows).filter fun row => row.event.sourceKey ∈ keys := by
  rw [rowsOf, List.filter_filter]
  exact List.filter_congr fun row _ => Bool.and_comm _ _

variable (workspaceId rows calls) in
/-- The ledger of a workspace, with this last sequence, keeps the law. -/
def LawOf (lastSequence : ℕ) : Prop :=
  LedgerLaw lastSequence (rowsOf workspaceId rows) (occurrencesOf workspaceId calls)
    (appendsOf workspaceId calls)

variable (workspaceId rows calls) in
/-- Nothing of a workspace is among the rows and the calls. -/
structure Untouched : Prop where
  rows : rowsOf workspaceId rows = []
  occurrences : occurrencesOf workspaceId calls = []
  appends : appendsOf workspaceId calls = []

theorem Untouched.empty : Untouched workspaceId ([] : List (TimelineLedgerEvent φ)) [] :=
  ⟨rfl, rfl, rfl⟩

variable (rows calls) in
theorem lawOf_append (h : Untouched workspaceId rows' calls') (last : ℕ)
    (after : List (TimelineLedgerEvent φ)) (afterCalls : List (AppendCall φ)) :
    LawOf workspaceId (rows ++ rows' ++ after) (calls ++ calls' ++ afterCalls) last ↔
      LawOf workspaceId (rows ++ after) (calls ++ afterCalls) last := by
  simp only [LawOf, rowsOf_append, occurrencesOf_append, appendsOf_append, h.rows, h.occurrences,
    h.appends, List.append_nil]

theorem untouched_of_ne {batch : List (TimelineEvent φ)} {values : List (TimelineLedgerEvent φ)}
    {more : List (TimelineLedgerAppend φ)} {other : String} (hne : other ≠ workspaceId)
    (hbatch : ∀ event ∈ batch, event.workspaceId = workspaceId)
    (hvalues : ∀ row ∈ values, row.event.workspaceId = workspaceId)
    (hmore : ∀ append ∈ more, append.event.workspaceId = workspaceId) :
    Untouched other values [⟨batch, more⟩] := by
  refine ⟨?_, ?_, ?_⟩
  · refine List.filter_eq_nil_iff.mpr fun row hrow h => hne ?_
    rw [← of_decide_eq_true h, hvalues row hrow]
  · rw [occurrencesOf, List.flatMap_singleton]
    refine List.filter_eq_nil_iff.mpr fun event hevent h => hne ?_
    rw [← of_decide_eq_true h, hbatch event hevent]
  · rw [appendsOf, List.flatMap_singleton]
    refine List.filter_eq_nil_iff.mpr fun append happend h => hne ?_
    rw [← of_decide_eq_true h, hmore append happend]

theorem Untouched.append {before : List (TimelineLedgerEvent φ)} {callsBefore : List (AppendCall φ)}
    (h : Untouched workspaceId before callsBefore) (h' : Untouched workspaceId rows calls) :
    Untouched workspaceId (before ++ rows) (callsBefore ++ calls) := by
  refine ⟨?_, ?_, ?_⟩
  · rw [rowsOf_append, h.rows, h'.rows, List.append_nil]
  · rw [occurrencesOf_append, h.occurrences, h'.occurrences, List.append_nil]
  · rw [appendsOf_append, h.appends, h'.appends, List.append_nil]

/-- **An append keeps the law of its workspace.** -/
theorem LawOf.append {batch : List (TimelineEvent φ)} {last : ℕ}
    (h : LawOf workspaceId rows calls last)
    (hbatch : ∀ event ∈ batch, event.workspaceId = workspaceId)
    {existing values : List (TimelineLedgerEvent φ)}
    (hexisting : existing = existingRows rows workspaceId (sourceKeys batch))
    (hvalues : values = eventValues (last + 1) (newEvents batch existing)) :
    ∃ more, appendsAfter existing values [] batch = some more ∧
      (∀ row ∈ values, row.event.workspaceId = workspaceId) ∧
      (∀ append ∈ more, append.event.workspaceId = workspaceId) ∧
      LawOf workspaceId (rows ++ values) (calls ++ [⟨batch, more⟩])
        (last + (newEvents batch existing).length) := by
  rw [existingRows_eq] at hexisting
  obtain ⟨more, hmore, hlaw⟩ := LedgerLaw.append h hexisting hvalues
  have hvaluesOf : ∀ row ∈ values, row.event.workspaceId = workspaceId := by
    intro row hrow
    have hevent : row.event ∈ newEvents batch existing := by
      rw [← map_event_eventValues (last + 1) (newEvents batch existing), ← hvalues]
      exact List.mem_map_of_mem hrow
    rw [newEvents_eq] at hevent
    exact hbatch _ (FirstWins.mem_of_mem_firstsAfter (List.mem_filter.mp hevent).1).1
  have hmoreOf : ∀ append ∈ more, append.event.workspaceId = workspaceId := by
    intro append happend
    rcases List.mem_append.mp (hlaw.shown append (List.mem_append_right _ happend)) with h | h
    · exact of_decide_eq_true (List.mem_filter.mp h).2
    · exact hvaluesOf _ h
  refine ⟨more, hmore, hvaluesOf, hmoreOf, ?_⟩
  have hrowsOf : rowsOf workspaceId values = values :=
    List.filter_eq_self.mpr fun row hrow => decide_eq_true (hvaluesOf row hrow)
  have hoccurrencesOf : occurrencesOf workspaceId [⟨batch, more⟩] = batch := by
    rw [occurrencesOf, List.flatMap_singleton]
    exact List.filter_eq_self.mpr fun event hevent => decide_eq_true (hbatch event hevent)
  have happendsOf : appendsOf workspaceId [⟨batch, more⟩] = more := by
    rw [appendsOf, List.flatMap_singleton]
    exact List.filter_eq_self.mpr fun append happend => decide_eq_true (hmoreOf append happend)
  rw [LawOf, rowsOf_append, occurrencesOf_append, appendsOf_append, hrowsOf, hoccurrencesOf,
    happendsOf]
  exact hlaw

end Workspace

/-! ## What a transaction is committed to -/

/-- The rows that the current call has numbered and not inserted yet. -/
def PendingCall.values : PendingCall φ → List (TimelineLedgerEvent φ)
  | .append _ _ (.insertRows _ _ values) => values
  | _ => []

/-- The call that the current call will have been, once its rows are numbered. -/
def PendingCall.outcome : PendingCall φ → List (AppendCall φ)
  | .append _ batch (.insertRows existing inserted values) =>
    [⟨batch, (appendsAfter existing (inserted ++ values) [] batch).getD []⟩]
  | _ => []

/-- The rows of a transaction, numbered ones included. -/
def LedgerTransaction.settledRows (tx : LedgerTransaction φ) : List (TimelineLedgerEvent φ) :=
  tx.rows ++ tx.pending.elim [] PendingCall.values

/-- The calls of a transaction, with the one whose rows are numbered. -/
def LedgerTransaction.settledAppends (tx : LedgerTransaction φ) : List (AppendCall φ) :=
  tx.appends ++ tx.pending.elim [] PendingCall.outcome

/-- `last_sequence` of `_cursor_state`. -/
def LedgerState.lastSequence (s : LedgerState φ) (workspaceId : String) : ℕ :=
  (s.cursors.find? workspaceId).elim 0 TimelineLedgerCursor.lastSequence

/-- The last sequence as a transaction sees it. -/
def LedgerState.seenSequence (s : LedgerState φ) (tx : LedgerTransaction φ)
    (workspaceId : String) : ℕ :=
  (s.seenCursor tx workspaceId).elim 0 TimelineLedgerCursor.lastSequence

/-- What the transaction did before its current statement still holds at it. -/
def StageOk (s : LedgerState φ) (tx : LedgerTransaction φ) (workspaceId : String)
    (batch : List (TimelineEvent φ)) : AppendStage φ → Prop
  | .insertCursor => True
  | .lockCursor => True
  | .readExisting => tx.cursors.find? workspaceId ≠ none
  | .allocate existing => tx.cursors.find? workspaceId ≠ none ∧
      existing = existingRows (s.rows ++ tx.rows) workspaceId (sourceKeys batch)
  | .insertRows _ _ _ => True

/-- The same for its current call. -/
def CallOk (s : LedgerState φ) (tx : LedgerTransaction φ) : PendingCall φ → Prop
  | .append workspaceId batch stage =>
    (∀ event ∈ batch, event.workspaceId = workspaceId) ∧ StageOk s tx workspaceId batch stage
  | .retention _ _ _ => True

/-- An open transaction keeps the law where it holds the cursor, and has written nothing
elsewhere. -/
structure TransactionOk (s : LedgerState φ) (tx : LedgerTransaction φ) : Prop where
  law : ∀ workspaceId cursor, tx.cursors.find? workspaceId = some cursor →
    LawOf workspaceId (s.rows ++ tx.settledRows) (s.appends ++ tx.settledAppends)
      cursor.lastSequence
  untouched : ∀ workspaceId, tx.cursors.find? workspaceId = none →
    Untouched workspaceId tx.settledRows tx.settledAppends
  due : ∀ call, tx.pending = some call → CallOk s tx call

/-- The invariant of the ledger. -/
structure LedgerOk (s : LedgerState φ) : Prop where
  law : ∀ workspaceId, LawOf workspaceId s.rows s.appends (s.lastSequence workspaceId)
  exclusive : ∀ a ∈ s.transactions.rows, ∀ b ∈ s.transactions.rows, a.session ≠ b.session →
    ∀ workspaceId, a.cursors.find? workspaceId = none ∨ b.cursors.find? workspaceId = none
  transactions : ∀ tx ∈ s.transactions.rows, TransactionOk s tx

/-! ## What a statement does to its transaction -/

section Statement

variable {s : LedgerState φ} {tx tx' tx'' : LedgerTransaction φ}

variable {workspaceId : String} {batch : List (TimelineEvent φ)} {cursor : TimelineLedgerCursor}

theorem held_iff : s.heldByOther tx workspaceId = false ↔
    ∀ other ∈ s.transactions.rows, other.session ≠ tx.session →
      other.cursors.find? workspaceId = none := by
  simp only [LedgerState.heldByOther, List.any_eq_false, Bool.and_eq_true, decide_eq_true_eq,
    not_and, Bool.not_eq_true, Option.isSome_eq_false_iff, Option.isNone_iff_eq_none]

theorem settledRows_of_none (h : tx.pending = none) : tx.settledRows = tx.rows := by
  rw [LedgerTransaction.settledRows, h]
  exact List.append_nil _

theorem settledAppends_of_none (h : tx.pending = none) : tx.settledAppends = tx.appends := by
  rw [LedgerTransaction.settledAppends, h]
  exact List.append_nil _

/-- The law holds for what a transaction sees, whether it holds the cursor or not. -/
theorem TransactionOk.law_seen (h : TransactionOk s tx) (hs : LedgerOk s) (workspaceId : String) :
    LawOf workspaceId (s.rows ++ tx.settledRows) (s.appends ++ tx.settledAppends)
      (s.seenSequence tx workspaceId) := by
  rcases hown : tx.cursors.find? workspaceId with _ | cursor
  · have hlaw := hs.law workspaceId
    have hsame := lawOf_append s.rows s.appends
      (h.untouched workspaceId hown) (s.lastSequence workspaceId) [] []
    simp only [List.append_nil] at hsame
    rw [LedgerState.seenSequence, LedgerState.seenCursor, hown, Option.none_or]
    exact hsame.mpr hlaw
  · rw [LedgerState.seenSequence, LedgerState.seenCursor, hown, Option.some_or]
    exact h.law workspaceId cursor hown

variable (s tx tx') in
/-- A statement that neither numbers rows nor changes a last sequence: it may take cursor
rows that nobody else holds. -/
structure Relocked : Prop where
  session : tx'.session = tx.session
  rows : tx'.settledRows = tx.settledRows
  appends : tx'.settledAppends = tx.settledAppends
  cursors : ∀ workspaceId cursor, tx'.cursors.find? workspaceId = some cursor →
    cursor.lastSequence = s.seenSequence tx workspaceId
  kept : ∀ workspaceId, tx'.cursors.find? workspaceId = none →
    tx.cursors.find? workspaceId = none
  granted : ∀ workspaceId, tx.cursors.find? workspaceId = none →
    tx'.cursors.find? workspaceId ≠ none → s.heldByOther tx workspaceId = false

theorem Relocked.refl : Relocked s tx tx where
  session := rfl
  rows := rfl
  appends := rfl
  cursors := by
    intro workspaceId cursor hcursor
    rw [LedgerState.seenSequence, LedgerState.seenCursor, hcursor]
    rfl
  kept := fun _ h => h
  granted := fun _ hnone h => absurd hnone h

theorem Relocked.putCursor (hseen : cursor.lastSequence = s.seenSequence tx cursor.workspaceId)
    (hfree : s.heldByOther tx cursor.workspaceId = false) :
    Relocked s tx (tx.putCursor cursor) where
  session := rfl
  rows := rfl
  appends := rfl
  cursors := by
    intro workspaceId other hother
    rw [LedgerTransaction.putCursor, Table.find?_put] at hother
    split at hother
    · rename_i hkey
      obtain rfl := Option.some.inj hother
      rw [hkey]
      exact hseen
    · exact Relocked.refl.cursors workspaceId other hother
  kept := by
    intro workspaceId hnone
    rw [LedgerTransaction.putCursor, Table.find?_put] at hnone
    split at hnone
    · cases hnone
    · exact hnone
  granted := by
    intro workspaceId hnone hsome
    rw [LedgerTransaction.putCursor, Table.find?_put] at hsome
    split at hsome
    · rename_i hkey
      rw [hkey]
      exact hfree
    · exact absurd hnone hsome

theorem Relocked.trans_same (h : Relocked s tx tx') (hsession : tx''.session = tx'.session)
    (hcursors : tx''.cursors = tx'.cursors) (hrows : tx''.settledRows = tx'.settledRows)
    (happends : tx''.settledAppends = tx'.settledAppends) : Relocked s tx tx'' where
  session := hsession.trans h.session
  rows := hrows.trans h.rows
  appends := happends.trans h.appends
  cursors := hcursors ▸ h.cursors
  kept := hcursors ▸ h.kept
  granted := hcursors ▸ h.granted

variable (s tx tx') in
/-- The transaction after a statement. -/
structure Advanced : Prop where
  session : tx'.session = tx.session
  ok : TransactionOk s tx'
  granted : ∀ workspaceId, tx.cursors.find? workspaceId = none →
    tx'.cursors.find? workspaceId ≠ none → s.heldByOther tx workspaceId = false

theorem Relocked.advanced (hrel : Relocked s tx tx') (hs : LedgerOk s) (h : TransactionOk s tx)
    (hdue : ∀ call, tx'.pending = some call → CallOk s tx' call) : Advanced s tx tx' where
  session := hrel.session
  ok := by
    refine ⟨fun workspaceId cursor hcursor => ?_, fun workspaceId hnone => ?_, hdue⟩
    · rw [hrel.rows, hrel.appends, hrel.cursors workspaceId cursor hcursor]
      exact h.law_seen hs workspaceId
    · rw [hrel.rows, hrel.appends]
      exact h.untouched workspaceId (hrel.kept workspaceId hnone)
  granted := hrel.granted

theorem next_done {end_ : StatementEnd φ} {pending : Option (PendingCall φ)}
    (h : end_.next pending = .done tx') : ∃ tx, end_ = .done tx ∧ tx' = tx.next pending := by
  cases end_ with
  | waits => cases h
  | raises => cases h
  | done tx => exact ⟨tx, rfl, (StatementEnd.done.inj h).symm⟩

/-- A transaction that goes on to a statement that inserts no rows, from one that inserts
none. -/
theorem Relocked.next (h : Relocked s tx tx') {pending : Option (PendingCall φ)}
    (hvalues : tx'.pending.elim [] PendingCall.values = [])
    (houtcome : tx'.pending.elim [] PendingCall.outcome = [])
    (hvalues' : pending.elim [] PendingCall.values = [])
    (houtcome' : pending.elim [] PendingCall.outcome = []) :
    Relocked s tx (tx'.next pending) := by
  refine h.trans_same rfl rfl ?_ ?_
  · rw [LedgerTransaction.settledRows, LedgerTransaction.settledRows, hvalues]
    exact congrArg _ hvalues'
  · rw [LedgerTransaction.settledAppends, LedgerTransaction.settledAppends, houtcome]
    exact congrArg _ houtcome'

theorem relocked_insertCursor (hlast : cursor.lastSequence = 0)
    (h : s.insertCursor tx cursor = .done tx') :
    Relocked s tx tx' ∧ tx'.pending = tx.pending := by
  rw [LedgerState.insertCursor] at h
  split at h
  · obtain rfl := StatementEnd.done.inj h
    exact ⟨.refl, rfl⟩
  · rename_i hseen
    split at h
    · cases h
    · rename_i hfree
      obtain rfl := StatementEnd.done.inj h
      refine ⟨.putCursor ?_ (Bool.not_eq_true _ ▸ hfree), rfl⟩
      rw [Option.not_isSome_iff_eq_none] at hseen
      rw [LedgerState.seenSequence, hseen, hlast]
      rfl

theorem workspaceId_of_seenCursor (h : s.seenCursor tx workspaceId = some cursor) :
    cursor.workspaceId = workspaceId := by
  rcases Option.or_eq_some_iff.mp h with h | ⟨-, h⟩
  · exact Table.key_of_find? h
  · exact Table.key_of_find? h

theorem relocked_lockCursor (h : s.lockCursor tx workspaceId = .done tx') :
    Relocked s tx tx' ∧ tx'.pending = tx.pending ∧ tx'.cursors.find? workspaceId ≠ none := by
  rw [LedgerState.lockCursor] at h
  rcases hseen : s.seenCursor tx workspaceId with _ | cursor
  · rw [hseen] at h
    cases h
  · rw [hseen] at h
    dsimp only at h
    split at h
    · cases h
    · rename_i hfree
      obtain rfl := StatementEnd.done.inj h
      obtain rfl := workspaceId_of_seenCursor hseen
      refine ⟨.putCursor ?_ (Bool.not_eq_true _ ▸ hfree), rfl, ?_⟩
      · rw [LedgerState.seenSequence, hseen]
        rfl
      · rw [LedgerTransaction.putCursor, Table.find?_put, if_pos rfl]
        exact Option.some_ne_none cursor

/-- **Numbering the new events** keeps the law: the transaction holds the cursor, so that the
existing rows are still all there are. -/
theorem advanced_allocate (h : TransactionOk s tx) {existing : List (TimelineLedgerEvent φ)}
    (hpending : tx.pending = some (.append workspaceId batch (.allocate existing)))
    (hdone : s.appendStatement tx workspaceId batch (.allocate existing) = .done tx') :
    Advanced s tx tx' := by
  obtain ⟨hbatch, hlocked, hexisting⟩ := h.due _ hpending
  obtain ⟨cursor, hcursor⟩ := Option.ne_none_iff_exists'.mp hlocked
  have hseen : s.seenCursor tx workspaceId = some cursor := by
    rw [LedgerState.seenCursor, hcursor, Option.some_or]
  have hrows : tx.settledRows = tx.rows := by
    rw [LedgerTransaction.settledRows, hpending]
    exact List.append_nil _
  have happends : tx.settledAppends = tx.appends := by
    rw [LedgerTransaction.settledAppends, hpending]
    exact List.append_nil _
  have hlaw := h.law workspaceId cursor hcursor
  rw [hrows, happends] at hlaw
  obtain ⟨more, hmore, hvaluesOf, hmoreOf, hlaw⟩ := hlaw.append hbatch hexisting rfl
  -- both branches number the new events from the last sequence on
  obtain ⟨cursor', hlast, hkey, hcursors, htx'⟩ : ∃ cursor' : TimelineLedgerCursor,
      cursor'.lastSequence = cursor.lastSequence + (newEvents batch existing).length ∧
      cursor'.workspaceId = workspaceId ∧
      (∀ other, tx'.cursors.find? other =
        if other = workspaceId then some cursor' else tx.cursors.find? other) ∧
      tx' = { tx with
        cursors := tx'.cursors
        pending := some (.append workspaceId batch (.insertRows existing []
          (eventValues (cursor.lastSequence + 1) (newEvents batch existing)))) } := by
    have hkey : cursor.workspaceId = workspaceId := Table.key_of_find? hcursor
    rw [LedgerState.appendStatement] at hdone
    dsimp only at hdone
    split at hdone
    · rename_i hempty
      obtain rfl := StatementEnd.done.inj hdone
      rw [List.isEmpty_iff] at hempty
      refine ⟨cursor, by rw [hempty]; rfl, hkey, fun other => ?_, by rw [hempty]; rfl⟩
      by_cases hother : other = workspaceId
      · rw [if_pos hother, hother]
        exact hcursor
      · rw [if_neg hother]
        rfl
    · rw [hseen] at hdone
      dsimp only at hdone
      rw [Nat.add_sub_cancel] at hdone
      obtain rfl := StatementEnd.done.inj hdone
      refine ⟨{ cursor with
          lastSequence := cursor.lastSequence + (newEvents batch existing).length },
        rfl, hkey, fun other => ?_, rfl⟩
      exact (Table.find?_put _ _ _).trans (by rw [hkey])
  have hrows' : tx'.settledRows =
      tx.rows ++ eventValues (cursor.lastSequence + 1) (newEvents batch existing) := by
    rw [htx']
    rfl
  have happends' : tx'.settledAppends = tx.appends ++ [⟨batch, more⟩] := by
    rw [htx', LedgerTransaction.settledAppends, Option.elim_some, PendingCall.outcome,
      List.nil_append, hmore, Option.getD_some]
  have helse : ∀ other, other ≠ workspaceId → Untouched other
      (eventValues (cursor.lastSequence + 1) (newEvents batch existing)) [⟨batch, more⟩] :=
    fun other hne => untouched_of_ne hne hbatch hvaluesOf hmoreOf
  refine ⟨by rw [htx'], ⟨fun other own hown => ?_, fun other hnone => ?_, ?_⟩, ?_⟩
  · rw [hcursors] at hown
    rw [hrows', happends']
    split at hown
    · rename_i hother
      obtain rfl := Option.some.inj hown
      rw [hother, hlast, ← List.append_assoc, ← List.append_assoc]
      exact hlaw
    · rename_i hother
      have hold := h.law other own hown
      rw [hrows, happends] at hold
      have hsame := lawOf_append (s.rows ++ tx.rows) (s.appends ++ tx.appends)
        (helse other hother) own.lastSequence [] []
      simp only [List.append_nil, List.append_assoc] at hsame
      exact hsame.mpr (by rw [← List.append_assoc, ← List.append_assoc] at *; exact hold)
  · rw [hcursors] at hnone
    split at hnone
    · cases hnone
    · rename_i hother
      have hold := h.untouched other hnone
      rw [hrows, happends] at hold
      rw [hrows', happends']
      exact hold.append (helse other hother)
  · intro call hcall
    rw [htx'] at hcall
    obtain rfl := Option.some.inj hcall
    exact ⟨hbatch, trivial⟩
  · intro other hnone hsome
    rw [hcursors] at hsome
    split at hsome
    · rename_i hother
      rw [hother] at hnone
      exact absurd hnone hlocked
    · exact absurd hnone hsome

theorem relocked_insertRows {chunk : List (TimelineLedgerEvent φ)}
    (h : s.insertRows tx chunk = .done tx') : tx' = { tx with rows := tx.rows ++ chunk } := by
  rw [LedgerState.insertRows] at h
  split at h
  · cases h
  · split at h
    · cases h
    · exact (StatementEnd.done.inj h).symm

theorem advanced_appendStatement (hs : LedgerOk s) (h : TransactionOk s tx) {stage : AppendStage φ}
    (hpending : tx.pending = some (.append workspaceId batch stage))
    (hdone : s.appendStatement tx workspaceId batch stage = .done tx') : Advanced s tx tx' := by
  obtain ⟨hbatch, hstage⟩ := h.due _ hpending
  cases stage with
  | insertCursor =>
    obtain ⟨tx₁, hcursor, rfl⟩ := next_done hdone
    obtain ⟨hrel, hsame⟩ := relocked_insertCursor rfl hcursor
    rw [hpending] at hsame
    refine (hrel.next (by rw [hsame]; rfl) (by rw [hsame]; rfl) rfl rfl).advanced hs h ?_
    rintro call hcall
    obtain rfl := Option.some.inj hcall
    exact ⟨hbatch, trivial⟩
  | lockCursor =>
    obtain ⟨tx₁, hcursor, rfl⟩ := next_done hdone
    obtain ⟨hrel, hsame, hlocked⟩ := relocked_lockCursor hcursor
    rw [hpending] at hsame
    refine (hrel.next (by rw [hsame]; rfl) (by rw [hsame]; rfl) rfl rfl).advanced hs h ?_
    rintro call hcall
    obtain rfl := Option.some.inj hcall
    exact ⟨hbatch, hlocked⟩
  | readExisting =>
    obtain rfl := StatementEnd.done.inj hdone
    refine (Relocked.refl.next (by rw [hpending]; rfl) (by rw [hpending]; rfl)
      rfl rfl).advanced hs h ?_
    rintro call hcall
    obtain rfl := Option.some.inj hcall
    exact ⟨hbatch, hstage, rfl⟩
  | allocate existing => exact advanced_allocate h hpending hdone
  | insertRows existing inserted values =>
    rw [LedgerState.appendStatement] at hdone
    split at hdone
    · rename_i hempty
      obtain rfl := List.isEmpty_iff.mp hempty
      split at hdone
      · cases hdone
      · rename_i appends happends
        obtain rfl := StatementEnd.done.inj hdone
        refine Relocked.advanced ?_ hs h ?_
        · refine Relocked.refl.trans_same rfl rfl ?_ ?_
          · rw [LedgerTransaction.settledRows, LedgerTransaction.settledRows, hpending]
            rfl
          · rw [LedgerTransaction.settledAppends, LedgerTransaction.settledAppends, hpending,
              Option.elim_some, PendingCall.outcome, List.append_nil inserted, happends]
            exact List.append_nil _
        · intro call hcall
          cases hcall
    · obtain ⟨tx₁, hinsert, rfl⟩ := next_done hdone
      obtain rfl := relocked_insertRows hinsert
      have hsplit := List.take_append_drop timelineAppendChunk values
      refine Relocked.advanced ?_ hs h ?_
      · refine Relocked.refl.trans_same rfl rfl ?_ ?_
        · rw [LedgerTransaction.settledRows, LedgerTransaction.settledRows, hpending,
            LedgerTransaction.next, Option.elim_some, Option.elim_some, PendingCall.values,
            PendingCall.values, List.append_assoc, hsplit]
        · rw [LedgerTransaction.settledAppends, LedgerTransaction.settledAppends, hpending,
            LedgerTransaction.next, Option.elim_some, Option.elim_some, PendingCall.outcome,
            PendingCall.outcome, List.append_assoc inserted, hsplit]
      · rintro call hcall
        obtain rfl := Option.some.inj hcall
        exact ⟨hbatch, trivial⟩

theorem advanced_retentionStatement (hs : LedgerOk s) (h : TransactionOk s tx) {boundary : ℕ}
    {stage : RetentionStage} (hpending : tx.pending = some (.retention workspaceId boundary stage))
    (hdone : s.retentionStatement tx workspaceId boundary stage = .done tx') :
    Advanced s tx tx' := by
  have hvalues : tx.pending.elim [] PendingCall.values = [] := by
    rw [hpending]
    rfl
  have houtcome : tx.pending.elim [] PendingCall.outcome = [] := by
    rw [hpending]
    rfl
  have hidle : ∀ retentions, Relocked s tx
      { tx with retentions := retentions, pending := none } := by
    intro retentions
    refine Relocked.refl.trans_same rfl rfl ?_ ?_
    · rw [LedgerTransaction.settledRows, LedgerTransaction.settledRows, hvalues]
      rfl
    · rw [LedgerTransaction.settledAppends, LedgerTransaction.settledAppends, houtcome]
      rfl
  have hnext : ∀ stage, Relocked s tx (tx.next (some (.retention workspaceId boundary stage))) :=
    fun stage => Relocked.refl.next hvalues houtcome rfl rfl
  cases stage with
  | insertCursor =>
    obtain ⟨tx₁, hcursor, rfl⟩ := next_done hdone
    obtain ⟨hrel, hsame⟩ := relocked_insertCursor rfl hcursor
    rw [← hsame] at hvalues houtcome
    refine (hrel.next hvalues houtcome rfl rfl).advanced hs h ?_
    rintro call hcall
    obtain rfl := Option.some.inj hcall
    trivial
  | update =>
    rw [LedgerState.retentionStatement] at hdone
    rcases hseen : s.seenCursor tx workspaceId with _ | cursor
    · rw [hseen] at hdone
      obtain rfl := StatementEnd.done.inj hdone
      refine (hnext .read).advanced hs h ?_
      rintro call hcall
      obtain rfl := Option.some.inj hcall
      trivial
    · rw [hseen] at hdone
      dsimp only at hdone
      split at hdone
      · split at hdone
        · cases hdone
        · rename_i hfree
          obtain rfl := StatementEnd.done.inj hdone
          obtain rfl := workspaceId_of_seenCursor hseen
          have hput : Relocked s tx
              (tx.putCursor { cursor with retainedFromSequence := boundary }) := by
            refine .putCursor ?_ (Bool.not_eq_true _ ▸ hfree)
            rw [LedgerState.seenSequence, hseen]
            rfl
          refine Relocked.advanced ?_ hs h ?_
          · exact hput.trans_same rfl rfl (hidle []).rows (hidle []).appends
          · intro call hcall
            cases hcall
      · obtain rfl := StatementEnd.done.inj hdone
        refine (hnext .read).advanced hs h ?_
        rintro call hcall
        obtain rfl := Option.some.inj hcall
        trivial
  | read =>
    rw [LedgerState.retentionStatement] at hdone
    split at hdone
    · cases hdone
    · obtain rfl := StatementEnd.done.inj hdone
      refine (hidle _).advanced hs h ?_
      intro call hcall
      cases hcall

/-- **What a statement does**, whatever it is. -/
theorem advanced_statement (hs : LedgerOk s) (h : TransactionOk s tx)
    (hdone : s.statement tx = .done tx') : Advanced s tx tx' := by
  rw [LedgerState.statement] at hdone
  rcases hpending : tx.pending with _ | ⟨workspaceId, batch, stage⟩ | ⟨workspaceId, boundary, stage⟩
  · rw [hpending] at hdone
    cases hdone
  · rw [hpending] at hdone
    exact advanced_appendStatement hs h hpending hdone
  · rw [hpending] at hdone
    exact advanced_retentionStatement hs h hpending hdone

theorem relocked_enter (hnone : tx.pending = none) {call : PendingCall φ}
    (hvalues : call.values = []) (houtcome : call.outcome = []) :
    Relocked s tx (tx.next (some call)) :=
  Relocked.refl.next (by rw [hnone]; rfl) (by rw [hnone]; rfl) hvalues houtcome

/-- An empty batch changes nothing but the record of the calls. -/
theorem advanced_appendTimelineEvents (hs : LedgerOk s) (h : TransactionOk s tx)
    (hnone : tx.pending = none) (hdone : tx.appendTimelineEvents batch = some tx') :
    Advanced s tx tx' := by
  cases batch with
  | nil =>
    obtain rfl := Option.some.inj hdone
    have hempty : ∀ workspaceId,
        Untouched workspaceId ([] : List (TimelineLedgerEvent φ)) [⟨[], []⟩] :=
      fun _ => ⟨rfl, rfl, rfl⟩
    have happends : ∀ appends : List (AppendCall φ), LedgerTransaction.settledAppends
        { tx with appends := appends } = appends := fun _ => settledAppends_of_none hnone
    have hrows : ∀ appends : List (AppendCall φ), LedgerTransaction.settledRows
        { tx with appends := appends } = tx.rows := fun _ => settledRows_of_none hnone
    refine ⟨rfl, ⟨fun workspaceId cursor hcursor => ?_, fun workspaceId hfree => ?_, ?_⟩,
      fun _ hfree hheld => absurd hfree hheld⟩
    · have hold := h.law workspaceId cursor hcursor
      have hsame := lawOf_append (s.rows ++ tx.rows) (s.appends ++ tx.appends)
        (hempty workspaceId) cursor.lastSequence [] []
      rw [hrows tx.appends, happends tx.appends] at hold
      rw [hrows, happends]
      simp only [List.append_nil, List.append_assoc] at hsame
      exact hsame.mpr hold
    · have hold := (h.untouched workspaceId hfree).append (hempty workspaceId)
      rw [happends tx.appends, List.append_nil] at hold
      rw [happends]
      exact hold
    · intro call hcall
      exact absurd (hnone.symm.trans hcall) (Option.some_ne_none call).symm
  | cons event rest =>
    rw [LedgerTransaction.appendTimelineEvents] at hdone
    split at hdone
    · rename_i hsame
      obtain rfl := Option.some.inj hdone
      refine (relocked_enter hnone rfl rfl).advanced hs h ?_
      rintro call hcall
      obtain rfl := Option.some.inj hcall
      refine ⟨fun other hother => ?_, trivial⟩
      rcases List.mem_cons.mp hother with rfl | hother
      · rfl
      · exact of_decide_eq_true (List.all_eq_true.mp hsame other hother)
    · cases hdone

theorem advanced_advanceTimelineRetention (hs : LedgerOk s) (h : TransactionOk s tx)
    (hnone : tx.pending = none) {boundary : ℕ}
    (hdone : tx.advanceTimelineRetention workspaceId boundary = some tx') :
    Advanced s tx tx' := by
  rw [LedgerTransaction.advanceTimelineRetention] at hdone
  split at hdone
  · cases hdone
  · obtain rfl := Option.some.inj hdone
    refine (relocked_enter hnone rfl rfl).advanced hs h ?_
    rintro call hcall
    obtain rfl := Option.some.inj hcall
    trivial

end Statement

/-! ## What a step does to the ledger -/

section Step

variable {s : LedgerState φ} {tx : LedgerTransaction φ}

theorem LedgerOk.empty : LedgerOk (LedgerState.empty : LedgerState φ) where
  law := fun _ => LedgerLaw.empty
  exclusive := fun _ ha => absurd ha List.not_mem_nil
  transactions := fun _ htx => absurd htx List.not_mem_nil

theorem LedgerOk.put (h : LedgerOk s) (hok : TransactionOk s tx)
    (hfree : ∀ other ∈ s.transactions.rows, other.session ≠ tx.session → ∀ workspaceId,
      tx.cursors.find? workspaceId = none ∨ other.cursors.find? workspaceId = none) :
    LedgerOk (s.put tx) where
  law := h.law
  exclusive := by
    intro a ha b hb hne workspaceId
    rcases Table.mem_put ha with rfl | ⟨ha', hane⟩
    · rcases Table.mem_put hb with rfl | ⟨hb', hbne⟩
      · exact absurd rfl hne
      · exact hfree b hb' hbne workspaceId
    · rcases Table.mem_put hb with rfl | ⟨hb', hbne⟩
      · exact (hfree a ha' hane workspaceId).symm
      · exact h.exclusive a ha' b hb' hne workspaceId
  transactions := by
    intro other hother
    rcases Table.mem_put hother with rfl | ⟨hother, -⟩
    · exact ⟨hok.law, hok.untouched, hok.due⟩
    · have hold := h.transactions other hother
      exact ⟨hold.law, hold.untouched, hold.due⟩

theorem LedgerOk.advanced (h : LedgerOk s) (htx : tx ∈ s.transactions.rows)
    {tx' : LedgerTransaction φ} (hadv : Advanced s tx tx') : LedgerOk (s.put tx') := by
  refine h.put hadv.ok fun other hother hne workspaceId => ?_
  rw [hadv.session] at hne
  by_cases hheld : tx'.cursors.find? workspaceId = none
  · exact Or.inl hheld
  · refine Or.inr ?_
    by_cases hnone : tx.cursors.find? workspaceId = none
    · exact held_iff.mp (hadv.granted workspaceId hnone hheld) other hother hne
    · exact (h.exclusive tx htx other hother hne.symm workspaceId).resolve_left hnone

theorem LedgerOk.rollback (h : LedgerOk s) (session : ℕ) : LedgerOk (s.rollback session) where
  law := h.law
  exclusive := fun a ha b hb => h.exclusive a (Table.mem_of_mem_erase ha) b
    (Table.mem_of_mem_erase hb)
  transactions := by
    intro tx htx
    have hold := h.transactions tx (Table.mem_of_mem_erase htx)
    exact ⟨hold.law, hold.untouched, hold.due⟩

theorem find?_cursors_commit (workspaceId : String) :
    (s.commit tx).cursors.find? workspaceId = s.seenCursor tx workspaceId :=
  Table.find?_foldl_put tx.cursors.nodup s.cursors workspaceId

/-- **A commit keeps the law** where its transaction held the cursor, and changes nothing
elsewhere; the others see only rows where they hold nothing. -/
theorem LedgerOk.commit (h : LedgerOk s) (htx : s.transactions.find? tx.session = some tx)
    (hnone : tx.pending = none) : LedgerOk (s.commit tx) where
  law := by
    intro workspaceId
    have hlaw := (h.transactions tx (Table.mem_of_find? htx)).law_seen h workspaceId
    rw [settledRows_of_none hnone, settledAppends_of_none hnone] at hlaw
    rw [LedgerState.lastSequence, find?_cursors_commit]
    exact hlaw
  exclusive := fun a ha b hb => h.exclusive a (Table.mem_of_mem_erase ha) b
    (Table.mem_of_mem_erase hb)
  transactions := by
    intro other hother
    have hmem := Table.mem_of_mem_erase hother
    have hne : other.session ≠ tx.session := of_decide_eq_true (List.mem_filter.mp hother).2
    have hold := h.transactions other hmem
    have hown := h.transactions tx (Table.mem_of_find? htx)
    -- where another transaction holds the cursor, this one has written nothing
    have helse : ∀ workspaceId, other.cursors.find? workspaceId ≠ none →
        Untouched workspaceId tx.rows tx.appends := by
      intro workspaceId hheld
      have hfree := (h.exclusive other hmem tx (Table.mem_of_find? htx) hne
        workspaceId).resolve_left hheld
      have huntouched := hown.untouched workspaceId hfree
      rw [settledRows_of_none hnone, settledAppends_of_none hnone] at huntouched
      exact huntouched
    refine ⟨fun workspaceId cursor hcursor => ?_, hold.untouched, fun call hcall => ?_⟩
    · have hheld : other.cursors.find? workspaceId ≠ none := by
        rw [hcursor]
        exact Option.some_ne_none cursor
      exact (lawOf_append _ _ (helse workspaceId hheld) _ _ _).mpr
        (hold.law workspaceId cursor hcursor)
    · have hdue := hold.due call hcall
      cases call with
      | retention workspaceId boundary stage => trivial
      | append workspaceId batch stage =>
        refine ⟨hdue.1, ?_⟩
        cases stage with
        | insertCursor => trivial
        | lockCursor => trivial
        | readExisting => exact hdue.2
        | insertRows existing inserted values => trivial
        | allocate existing =>
          obtain ⟨hheld, hexisting⟩ := hdue.2
          refine ⟨hheld, ?_⟩
          rw [hexisting, existingRows_eq, existingRows_eq]
          simp only [LedgerState.commit, rowsOf_append, (helse workspaceId hheld).rows,
            List.append_nil]

/-- **Every step keeps the invariant.** -/
theorem LedgerOk.step (h : LedgerOk s) (action : LedgerAction φ) : LedgerOk (s.step action) := by
  have hcall : ∀ session enter, (∀ tx tx', TransactionOk s tx → tx.pending = none →
      enter tx = some tx' → Advanced s tx tx') → LedgerOk (s.call session enter) := by
    intro session enter henter
    rw [LedgerState.call]
    rcases htx : s.transactions.find? session with _ | tx
    · exact h
    · dsimp only
      split
      · rename_i hnone
        rcases hentered : enter tx with _ | tx'
        · exact h
        · have hmem := Table.mem_of_find? htx
          exact h.advanced hmem (henter tx tx' (h.transactions tx hmem)
            (Option.isNone_iff_eq_none.mp hnone) hentered)
      · exact h
  cases action with
  | begin session =>
    rw [LedgerState.step]
    split
    · refine h.put ⟨fun _ cursor hcursor => ?_, fun _ _ => Untouched.empty, fun call hcall => ?_⟩
        fun _ _ _ _ => Or.inl rfl
      · exact absurd hcursor (Option.some_ne_none cursor).symm
      · exact absurd hcall (Option.some_ne_none call).symm
    · exact h
  | appendTimelineEvents session batch =>
    exact hcall session _ fun _ _ hok hnone hdone =>
      advanced_appendTimelineEvents h hok hnone hdone
  | advanceTimelineRetention session workspaceId boundary =>
    exact hcall session _ fun _ _ hok hnone hdone =>
      advanced_advanceTimelineRetention h hok hnone hdone
  | statement session =>
    rw [LedgerState.step]
    rcases htx : s.transactions.find? session with _ | tx
    · exact h
    · dsimp only
      split
      · exact h
      · exact h.rollback session
      · rename_i tx' hdone
        have hmem := Table.mem_of_find? htx
        exact h.advanced hmem (advanced_statement h (h.transactions tx hmem) hdone)
  | commit session =>
    rw [LedgerState.step]
    rcases htx : s.transactions.find? session with _ | tx
    · exact h
    · dsimp only
      split
      · rename_i hnone
        obtain rfl := Table.key_of_find? htx
        exact h.commit htx (Option.isNone_iff_eq_none.mp hnone)
      · exact h
  | rollback session => exact h.rollback session

theorem exists_rows_step (s : LedgerState φ) (action : LedgerAction φ) :
    ∃ later, (s.step action).rows = s.rows ++ later := by
  have hsame : ∃ later, s.rows = s.rows ++ later := ⟨[], (List.append_nil _).symm⟩
  have hcall : ∀ session enter, ∃ later, (s.call session enter).rows = s.rows ++ later := by
    intro session enter
    rw [LedgerState.call]
    rcases s.transactions.find? session with _ | tx
    · exact hsame
    · dsimp only
      split
      · rcases enter tx with _ | tx'
        · exact hsame
        · exact hsame
      · exact hsame
  cases action with
  | begin session =>
    rw [LedgerState.step]
    split
    · exact hsame
    · exact hsame
  | appendTimelineEvents session batch => exact hcall session _
  | advanceTimelineRetention session workspaceId boundary => exact hcall session _
  | statement session =>
    rw [LedgerState.step]
    rcases s.transactions.find? session with _ | tx
    · exact hsame
    · dsimp only
      split
      · exact hsame
      · exact hsame
      · exact hsame
  | commit session =>
    rw [LedgerState.step]
    rcases s.transactions.find? session with _ | tx
    · exact hsame
    · dsimp only
      split
      · exact ⟨tx.rows, rfl⟩
      · exact hsame
  | rollback session => exact hsame

end Step

/-! ## Every run -/

theorem run_ledgerOk (actions : List (LedgerAction φ)) :
    LedgerOk (Runs.run LedgerState.step LedgerState.empty actions) :=
  Runs.run_invariant (fun _ action h => h.step action) LedgerOk.empty actions

theorem exists_rows_run (s : LedgerState φ) (actions : List (LedgerAction φ)) :
    ∃ later, (Runs.run LedgerState.step s actions).rows = s.rows ++ later := by
  refine Runs.run_invariant (P := fun t : LedgerState φ => ∃ later, t.rows = s.rows ++ later)
    ?_ ?_ actions
  · rintro t action ⟨later, hlater⟩
    obtain ⟨more, hmore⟩ := exists_rows_step t action
    exact ⟨later ++ more, by rw [hmore, hlater, List.append_assoc]⟩
  · exact ⟨[], (List.append_nil _).symm⟩

/-- What the ledger of a workspace stands for: its rows are numbered from 1 to the last
sequence, in the order of their commits, no two of one source key; each holds the first
committed event of its source key; and each source key that was appended is reported as
inserted by exactly one result. -/
structure Allocated (s : LedgerState φ) (workspaceId : String) : Prop where
  sequences : (rowsOf workspaceId s.rows).map TimelineLedgerEvent.sequence =
    List.range' 1 (s.lastSequence workspaceId)
  sourceKeys : ((rowsOf workspaceId s.rows).map fun row => row.event.sourceKey).Nodup
  first : ∀ row ∈ rowsOf workspaceId s.rows, (occurrencesOf workspaceId s.appends).find?
    (fun event => event.sourceKey = row.event.sourceKey) = some row.event
  stored : ∀ event ∈ occurrencesOf workspaceId s.appends, ∃ row ∈ rowsOf workspaceId s.rows,
    row.event.sourceKey = event.sourceKey
  inserted : ∀ event ∈ occurrencesOf workspaceId s.appends,
    (appendsOf workspaceId s.appends).countP (fun append =>
      append.inserted && decide (append.event.sourceKey = event.sourceKey)) = 1

theorem LedgerOk.allocated {s : LedgerState φ} (h : LedgerOk s) (workspaceId : String) :
    Allocated s workspaceId := by
  have hlaw := h.law workspaceId
  have hstored : ∀ event ∈ occurrencesOf workspaceId s.appends,
      ∃ row ∈ rowsOf workspaceId s.rows, row.event.sourceKey = event.sourceKey := by
    intro event hevent
    have hany := hlaw.any_hasKey.mpr (List.mem_map_of_mem hevent)
    obtain ⟨row, hrow, hkey⟩ := List.any_eq_true.mp hany
    exact ⟨row, hrow, TimelineLedgerEvent.hasKey_iff.mp hkey⟩
  refine ⟨hlaw.sequences, hlaw.nodup, fun row hrow => ?_, hstored, fun event hevent => ?_⟩
  · refine FirstWins.find?_of_mem_firsts ?_
    rw [← hlaw.events]
    exact List.mem_map_of_mem hrow
  · obtain ⟨row, hrow, hkey⟩ := hstored event hevent
    have hcount : (rowsOf workspaceId s.rows).countP
        (fun row => decide (row.event.sourceKey = event.sourceKey)) = 1 := by
      have hone := List.count_eq_one_of_mem hlaw.nodup (List.mem_map.mpr ⟨row, hrow, hkey⟩)
      rw [List.count, List.countP_map] at hone
      exact hone
    have hsplit : (appendsOf workspaceId s.appends).countP (fun append =>
        append.inserted && decide (append.event.sourceKey = event.sourceKey)) =
        ((appendsOf workspaceId s.appends).filter (·.inserted)).countP
          (fun append => decide (append.event.sourceKey = event.sourceKey)) := by
      rw [List.countP_filter]
      exact List.countP_congr fun append _ => by rw [Bool.and_comm]
    rw [hsplit, hlaw.inserted, List.countP_map]
    exact hcount

/-- **The timeline ledger, whatever transactions interleave.** In every reachable state the
ledger of each workspace is allocated as it should be; its rows are still there in every later
state, and the rows that come later have sequences above any last sequence seen before. -/
theorem run_allocated (actions more : List (LedgerAction φ)) :
    (∀ workspaceId,
      Allocated (Runs.run LedgerState.step LedgerState.empty actions) workspaceId) ∧
    ∃ later, (Runs.run LedgerState.step LedgerState.empty (actions ++ more)).rows =
        (Runs.run LedgerState.step LedgerState.empty actions).rows ++ later ∧
      ∀ row ∈ later, (Runs.run LedgerState.step LedgerState.empty actions).lastSequence
        row.event.workspaceId < row.sequence := by
  have hok := run_ledgerOk actions
  have hok' := run_ledgerOk (actions ++ more)
  rw [Runs.run_append] at hok' ⊢
  obtain ⟨later, hlater⟩ := exists_rows_run
    (Runs.run LedgerState.step LedgerState.empty actions) more
  refine ⟨hok.allocated, later, hlater, fun row hrow => ?_⟩
  -- the sequences of a workspace after the run are those before it, and those of later rows
  have hbefore := (hok.law row.event.workspaceId).sequences
  have hafter := (hok'.law row.event.workspaceId).sequences
  rw [hlater, rowsOf_append, List.map_append, hbefore] at hafter
  have hmem : row.sequence ∈
      (rowsOf row.event.workspaceId later).map TimelineLedgerEvent.sequence :=
    List.mem_map_of_mem (List.mem_filter.mpr ⟨hrow, decide_eq_true rfl⟩)
  have hnodup := List.nodup_range' (s := 1)
    (n := LedgerState.lastSequence (Runs.run LedgerState.step
      (Runs.run LedgerState.step LedgerState.empty actions) more) row.event.workspaceId)
  rw [← hafter, List.nodup_append] at hnodup
  have hge : 1 ≤ row.sequence := by
    have hin := List.mem_append_right (List.range' 1 (LedgerState.lastSequence
      (Runs.run LedgerState.step LedgerState.empty actions) row.event.workspaceId)) hmem
    rw [hafter, List.mem_range'_1] at hin
    exact hin.1
  by_contra hle
  refine hnodup.2.2 row.sequence (List.mem_range'_1.mpr ⟨hge, ?_⟩) row.sequence hmem rfl
  omega

end Opsia.Timeline
