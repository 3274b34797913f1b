import Opsia.Timeline.Ledger

/-!
# Appending alone

`append_timeline_events` of one transaction at a time: the writer of a snapshot holds the
cursor row of its workspace until it commits, so no other append of the workspace comes
between its statements.
-/

namespace Opsia.Timeline

variable {φ : Type}

/-- The cursors and the rows of the ledger. -/
structure TimelineLedger (φ : Type) : Type where
  cursors : Table TimelineLedgerCursor.workspaceId
  rows : List (TimelineLedgerEvent φ)

namespace TimelineLedger

/-- The ledger without rows. -/
def empty : TimelineLedger φ := ⟨Table.empty, []⟩

/-- The cursor of a workspace, inserted when it is absent. -/
def cursor (ledger : TimelineLedger φ) (workspaceId : String) : TimelineLedgerCursor :=
  (ledger.cursors.find? workspaceId).getD ⟨workspaceId, 0, 1⟩

/-- The events of a batch that the ledger has not got. -/
def freshEvents (ledger : TimelineLedger φ) (workspaceId : String)
    (batch : List (TimelineEvent φ)) : List (TimelineEvent φ) :=
  newEvents batch (existingRows ledger.rows workspaceId (sourceKeys batch))

/-- `append_timeline_events`, of a batch of one workspace. -/
def appendTimelineEvents (ledger : TimelineLedger φ) (workspaceId : String)
    (batch : List (TimelineEvent φ)) : TimelineLedger φ :=
  if batch.isEmpty then ledger
  else
    let events := ledger.freshEvents workspaceId batch
    let cursor := ledger.cursor workspaceId
    { cursors := ledger.cursors.put
        { cursor with lastSequence := cursor.lastSequence + events.length }
      rows := ledger.rows ++ eventValues (cursor.lastSequence + 1) events }

theorem events_append (ledger : TimelineLedger φ) (workspaceId : String)
    (batch : List (TimelineEvent φ)) :
    (ledger.appendTimelineEvents workspaceId batch).rows.map TimelineLedgerEvent.event =
      ledger.rows.map TimelineLedgerEvent.event ++ ledger.freshEvents workspaceId batch := by
  rw [appendTimelineEvents]
  split
  · rename_i hempty
    rw [List.isEmpty_iff.mp hempty]
    simp [freshEvents, newEvents, sourceKeys]
  · rw [List.map_append, map_event_eventValues]

theorem freshEvents_eq (ledger : TimelineLedger φ) (workspaceId : String)
    (batch : List (TimelineEvent φ)) :
    ledger.freshEvents workspaceId batch =
      (FirstWins.firsts TimelineEvent.sourceKey batch).filter fun event =>
        !ledger.rows.any fun row =>
          row.event.workspaceId = workspaceId && row.event.sourceKey = event.sourceKey := by
  rw [freshEvents, newEvents_eq]
  refine List.filter_congr fun event hevent => ?_
  have hkey : event.sourceKey ∈ sourceKeys batch := by
    rw [sourceKeys, FirstWins.firsts_map]
    exact List.mem_map_of_mem hevent
  have hany : ((existingRows ledger.rows workspaceId (sourceKeys batch)).any
      (·.hasKey event.sourceKey)) = ledger.rows.any fun row =>
        row.event.workspaceId = workspaceId && row.event.sourceKey = event.sourceKey := by
    rw [Bool.eq_iff_iff]
    simp only [existingRows, List.any_eq_true, List.mem_filter, Bool.and_eq_true,
      decide_eq_true_eq, TimelineLedgerEvent.hasKey_iff]
    constructor
    · rintro ⟨row, ⟨hrow, hworkspace, -⟩, hsame⟩
      exact ⟨row, hrow, hworkspace, hsame⟩
    · rintro ⟨row, hrow, hworkspace, hsame⟩
      exact ⟨row, ⟨hrow, hworkspace, hsame ▸ hkey⟩, hsame⟩
  rw [hany]

variable {batch : List (TimelineEvent φ)} {ledger : TimelineLedger φ} {workspaceId : String}
  {row : TimelineLedgerEvent φ}

theorem mem_append (h : row ∈ ledger.rows) (workspaceId : String) (batch : List (TimelineEvent φ)) :
    row ∈ (ledger.appendTimelineEvents workspaceId batch).rows := by
  rw [appendTimelineEvents]
  split
  · exact h
  · exact List.mem_append_left _ h

theorem event_of_mem_append (h : row ∈ (ledger.appendTimelineEvents workspaceId batch).rows) :
    (∃ old ∈ ledger.rows, old.event = row.event) ∨ row.event ∈ batch := by
  have hmem := List.mem_map_of_mem (f := TimelineLedgerEvent.event) h
  rw [events_append] at hmem
  rcases List.mem_append.mp hmem with hmem | hmem
  · exact Or.inl (List.mem_map.mp hmem)
  · rw [freshEvents_eq] at hmem
    exact Or.inr (FirstWins.mem_of_mem_firstsAfter (List.mem_filter.mp hmem).1).1

/-- **After an append every event of the batch has a row under its source key.** -/
theorem exists_row_append (ledger : TimelineLedger φ)
    (hbatch : ∀ event ∈ batch, event.workspaceId = workspaceId) {event : TimelineEvent φ}
    (hevent : event ∈ batch) :
    ∃ row ∈ (ledger.appendTimelineEvents workspaceId batch).rows,
      row.event.workspaceId = workspaceId ∧ row.event.sourceKey = event.sourceKey := by
  have hfirst : event.sourceKey ∈
      (FirstWins.firsts TimelineEvent.sourceKey batch).map TimelineEvent.sourceKey :=
    FirstWins.mem_map_firsts.mpr (List.mem_map_of_mem hevent)
  obtain ⟨first, hfirst, hkey⟩ := List.mem_map.mp hfirst
  rcases hthere : (ledger.rows.any fun row =>
      row.event.workspaceId = workspaceId && row.event.sourceKey = first.sourceKey) with _ | _
  · have hfresh : first ∈ ledger.freshEvents workspaceId batch := by
      rw [freshEvents_eq]
      exact List.mem_filter.mpr ⟨hfirst, by rw [hthere]; rfl⟩
    have hmem : first ∈ (ledger.appendTimelineEvents workspaceId batch).rows.map
        TimelineLedgerEvent.event := by
      rw [events_append]
      exact List.mem_append_right _ hfresh
    obtain ⟨row, hrow, rfl⟩ := List.mem_map.mp hmem
    exact ⟨row, hrow, hbatch _ (FirstWins.mem_of_mem_firstsAfter hfirst).1, hkey⟩
  · simp only [List.any_eq_true, Bool.and_eq_true, decide_eq_true_eq] at hthere
    obtain ⟨row, hrow, hworkspace, hsame⟩ := hthere
    exact ⟨row, mem_append hrow _ _, hworkspace, hsame.trans hkey⟩

/-! ## Source keys -/

/-- A workspace has one event of a source key. -/
def KeysUnique (ledger : TimelineLedger φ) : Prop :=
  (ledger.rows.map TimelineLedgerEvent.event).Pairwise fun event later =>
    event.workspaceId = later.workspaceId → event.sourceKey ≠ later.sourceKey

/-- **An append keeps the source keys unique.** -/
theorem KeysUnique.append (h : KeysUnique ledger)
    (hbatch : ∀ event ∈ batch, event.workspaceId = workspaceId) :
    KeysUnique (ledger.appendTimelineEvents workspaceId batch) := by
  rw [KeysUnique, events_append, freshEvents_eq]
  refine List.pairwise_append.mpr ⟨h, ?_, fun event hevent later hlater hsame hkey => ?_⟩
  · have hfirsts : (FirstWins.firsts TimelineEvent.sourceKey batch).Pairwise
        fun event later => event.sourceKey ≠ later.sourceKey :=
      List.pairwise_map.mp FirstWins.nodup_firsts
    refine List.Pairwise.filter _ (hfirsts.imp ?_)
    exact fun hne _ => hne
  · obtain ⟨hlater, hfresh⟩ := List.mem_filter.mp hlater
    obtain ⟨row, hrow, rfl⟩ := List.mem_map.mp hevent
    have hworkspace := hbatch later (FirstWins.mem_of_mem_firstsAfter hlater).1
    have hthere : (ledger.rows.any fun row =>
        row.event.workspaceId = workspaceId && row.event.sourceKey = later.sourceKey) = true := by
      refine List.any_eq_true.mpr ⟨row, hrow, ?_⟩
      simp [hkey, hsame.trans hworkspace]
    rw [hthere] at hfresh
    cases hfresh

/-! ## Sequences -/

/-- The rows of every workspace have growing sequences, up to that of its cursor. -/
structure Sequenced (ledger : TimelineLedger φ) : Prop where
  grows : ∀ workspaceId, (ledger.rows.filter fun row => row.event.workspaceId = workspaceId).Pairwise
    fun row later => row.sequence < later.sequence
  le_cursor : ∀ row ∈ ledger.rows,
    row.sequence ≤ (ledger.cursor row.event.workspaceId).lastSequence

theorem Sequenced.empty : Sequenced (TimelineLedger.empty : TimelineLedger φ) :=
  ⟨fun _ => List.Pairwise.nil, fun _ hrow => absurd hrow List.not_mem_nil⟩

theorem sequence_eventValues {first : ℕ} {events : List (TimelineEvent φ)}
    (h : row ∈ eventValues first events) :
    first ≤ row.sequence ∧ row.sequence < first + events.length := by
  have hmem : row.sequence ∈ (eventValues first events).map TimelineLedgerEvent.sequence :=
    List.mem_map_of_mem h
  rw [map_sequence_eventValues, List.mem_range'_1] at hmem
  exact hmem

theorem pairwise_eventValues (first : ℕ) (events : List (TimelineEvent φ)) :
    (eventValues first events).Pairwise fun row later => row.sequence < later.sequence := by
  have hrange := List.pairwise_lt_range' (s := first) (n := events.length)
  rw [← map_sequence_eventValues, List.pairwise_map] at hrange
  exact hrange

/-- **An append keeps the sequences growing**, when the batch is of the workspace. -/
theorem Sequenced.append (h : Sequenced ledger)
    (hbatch : ∀ event ∈ batch, event.workspaceId = workspaceId) :
    Sequenced (ledger.appendTimelineEvents workspaceId batch) := by
  rw [appendTimelineEvents]
  split
  · exact h
  have hvalues : ∀ row ∈ eventValues ((ledger.cursor workspaceId).lastSequence + 1)
      (ledger.freshEvents workspaceId batch), row.event.workspaceId = workspaceId := by
    intro row hrow
    have hmem : row.event ∈ ledger.freshEvents workspaceId batch := by
      rw [← map_event_eventValues ((ledger.cursor workspaceId).lastSequence + 1)
        (ledger.freshEvents workspaceId batch)]
      exact List.mem_map_of_mem hrow
    rw [freshEvents_eq] at hmem
    exact hbatch _ (FirstWins.mem_of_mem_firstsAfter (List.mem_filter.mp hmem).1).1
  refine ⟨fun other => ?_, fun row hrow => ?_⟩
  · rw [List.filter_append, List.pairwise_append]
    refine ⟨h.grows other, (pairwise_eventValues _ _).filter _, fun row hrow later hlater => ?_⟩
    obtain ⟨hrow, hother⟩ := List.mem_filter.mp hrow
    obtain ⟨hlater, hother'⟩ := List.mem_filter.mp hlater
    have hsame : row.event.workspaceId = workspaceId := by
      rw [of_decide_eq_true hother, ← of_decide_eq_true hother', hvalues later hlater]
    have hle := h.le_cursor row hrow
    have hlt := (sequence_eventValues hlater).1
    rw [hsame] at hle
    omega
  · rw [cursor, Table.find?_put]
    change _ ≤ ((if row.event.workspaceId = (ledger.cursor workspaceId).workspaceId then _
      else _ : Option TimelineLedgerCursor).getD _).lastSequence
    have hcursor : (ledger.cursor workspaceId).workspaceId = workspaceId := by
      rw [cursor]
      rcases hf : ledger.cursors.find? workspaceId with _ | found
      · rfl
      · exact Table.key_of_find? hf
    rw [hcursor]
    rcases List.mem_append.mp hrow with hrow | hrow
    · have hle := h.le_cursor row hrow
      split
      · rename_i hsame
        rw [hsame] at hle
        exact Nat.le_trans hle (Nat.le_add_right _ _)
      · exact hle
    · rw [if_pos (hvalues row hrow)]
      have hlt := (sequence_eventValues hrow).2
      change row.sequence ≤ _ + _
      omega

end TimelineLedger

end Opsia.Timeline
