import Opsia.Command.Repository
import Opsia.Lib.SealedLog

/-!
# The operation event stream refines a sealed log

The stream of a command is stored in two tables: the events themselves and a
cursor holding the last sequence and, once a terminal event was stored, its
sequence. `StreamInv` relates them: the stored sequences are `1..n`, the cursor
counts them, and the cursor is terminal exactly when the stored kinds are a
closed log. Under it `stageCommandOperationEvent` is `SealedLog.push` on the
kinds of its stream and nothing on any other (`stage_spec`).
-/

namespace Opsia

open PyText SealedLog

/-- The stored events of a stream, in insertion order. -/
def Store.streamEvents (s : Store) (k : StreamKey) : List CommandOperationEvent :=
  s.operationEvents.rows.filter fun e => e.stream = k

/-- The kinds of a stream: the abstract log. -/
def Store.kinds (s : Store) (k : StreamKey) : List OperationEventKind :=
  (s.streamEvents k).map (·.kind)

/-- The stream is closed by a terminal event. -/
def Store.StreamClosed (s : Store) (k : StreamKey) : Prop :=
  Closed OperationEventKind.terminal (s.kinds k)

/-- The cursor of a stream counts its events and knows whether it is closed. -/
def cursorAgrees (cursor : Option CommandOperationEventCursor)
    (kinds : List OperationEventKind) : Prop :=
  match cursor with
  | none => kinds = []
  | some c => c.lastSequence = kinds.length ∧
      (c.terminalSequence.isSome = true ↔ Closed OperationEventKind.terminal kinds)

/-- The two tables of a stream agree. -/
structure StreamInv (s : Store) (k : StreamKey) : Prop where
  /-- no gap and no duplicate -/
  sequences : (s.streamEvents k).map (·.sequence) = List.range' 1 (s.kinds k).length
  /-- the cursor row -/
  cursor : cursorAgrees (s.cursors.find? k) (s.kinds k)
  /-- a terminal event is the last one -/
  isSealed : Sealed OperationEventKind.terminal (s.kinds k)

theorem streamInv_empty (k : StreamKey) : StreamInv Store.empty k where
  sequences := rfl
  cursor := rfl
  isSealed := sealed_nil

variable {s : Store} {payload : OperationPayload} {workspaceId : String}
  {event : Option CommandOperationEvent}

variable {s' : Store} {commandId : String} {k : StreamKey} {kind : OperationEventKind}
  {now : Timestamp}

theorem Store.kinds_congr (hevents : s'.operationEvents = s.operationEvents) (k : StreamKey) :
    s'.kinds k = s.kinds k := by
  rw [Store.kinds, Store.kinds, Store.streamEvents, Store.streamEvents, hevents]

theorem StreamInv.congr (h : StreamInv s k) (hcursors : s'.cursors = s.cursors)
    (hevents : s'.operationEvents = s.operationEvents) :
    StreamInv s' k := by
  refine ⟨?_, ?_, ?_⟩
  · rw [Store.kinds_congr hevents, Store.streamEvents, hevents]
    exact h.sequences
  · rw [Store.kinds_congr hevents, hcursors]
    exact h.cursor
  · rw [Store.kinds_congr hevents]
    exact h.isSealed

/-- Fresh sequences do not collide with stored ones. -/
theorem StreamInv.sequence_free (h : StreamInv s k) :
    s.operationEvents.find? (k, (s.kinds k).length + 1) = none := by
  refine Table.find?_eq_none.mpr fun e he hkey => ?_
  obtain ⟨hstream, hseq⟩ := Prod.ext_iff.mp hkey
  have hmem : e ∈ s.streamEvents k := List.mem_filter.mpr
    ⟨he, decide_eq_true (show e.stream = k from hstream)⟩
  have hrange : e.sequence ∈ List.range' 1 (s.kinds k).length := by
    rw [← h.sequences]
    exact List.mem_map_of_mem hmem
  have hle := (List.mem_range'_1.mp hrange).2
  change e.sequence = (s.kinds k).length + 1 at hseq
  omega

/-- A staged event is pushed to the log of its stream; nothing else changes. -/
structure Staged (s s' : Store) (k : StreamKey) (kind : OperationEventKind) : Prop where
  commands : s'.commands = s.commands
  attempts : s'.attempts = s.attempts
  controls : s'.controls = s.controls
  outbox : s'.outbox = s.outbox
  nextId : s'.nextId = s.nextId
  kinds : ∀ k', s'.kinds k' =
    if k' = k then push OperationEventKind.terminal (s.kinds k') kind else s.kinds k'
  streams : ∀ k', StreamInv s' k'

/-- The store with the cursor row of a stream in place. -/
def Store.openCursor (s : Store) (now : Timestamp) (workspaceId commandId : String) : Store :=
  { s with cursors := s.cursors.insertIfAbsent ⟨workspaceId, commandId, 0, none, now⟩ }

theorem Store.find?_openCursor (s : Store) (now : Timestamp) (workspaceId commandId : String)
    (k : StreamKey) :
    (s.openCursor now workspaceId commandId).cursors.find? k =
      if k = (workspaceId, commandId) then
        some ((s.cursors.find? k).getD ⟨workspaceId, commandId, 0, none, now⟩)
      else s.cursors.find? k :=
  Table.find?_insertIfAbsent _ _ _

theorem streamInv_openCursor (hs : ∀ k, StreamInv s k) (now : Timestamp)
    (workspaceId commandId : String) (k : StreamKey) :
    StreamInv (s.openCursor now workspaceId commandId) k := by
  refine ⟨(hs k).sequences, ?_, (hs k).isSealed⟩
  have hcur := (hs k).cursor
  rw [Store.find?_openCursor]
  by_cases hk : k = (workspaceId, commandId)
  · rw [if_pos hk]
    rcases hf : s.cursors.find? k with _ | c
    · rw [hf] at hcur
      have hnil : (s.openCursor now workspaceId commandId).kinds k = [] := hcur
      rw [Option.getD_none, hnil]
      exact ⟨rfl, fun h => absurd h (by simp), fun h => absurd h not_closed_nil⟩
    · rw [hf] at hcur
      exact hcur
  · rw [if_neg hk]
    exact hcur

theorem streamEvents_insert {row : CommandOperationEvent}
    {operationEvents : Table CommandOperationEvent.key}
    (h : s.operationEvents.insert? row = some operationEvents) (k : StreamKey) :
    operationEvents.rows.filter (fun e => e.stream = k) =
      if k = row.stream then s.streamEvents k ++ [row] else s.streamEvents k := by
  rw [(Table.insert?_eq_some h).2, List.filter_append]
  by_cases hk : k = row.stream
  · have hrow : [row].filter (fun e => e.stream = k) = [row] := by simp [hk]
    rw [if_pos hk, hrow]
    rfl
  · have hrow : [row].filter (fun e => e.stream = k) = [] := by simp [Ne.symm hk]
    rw [if_neg hk, hrow, List.append_nil]
    rfl

/-- The store with an event stored and its cursor advanced. -/
def Store.storeEvent (s : Store) (now : Timestamp) (kind : OperationEventKind)
    (row : CommandOperationEvent) (operationEvents : Table CommandOperationEvent.key) : Store :=
  { s.openCursor now row.workspaceId row.commandId with
    cursors := (s.openCursor now row.workspaceId row.commandId).cursors.modify row.stream
      (·.advance kind now) fun c => c.key_advance kind now
    operationEvents }

theorem stage_cases
    (h : stageCommandOperationEvent s now workspaceId commandId kind payload = .ok (event, s')) :
    (workspaceId ≠ "" ∧ commandId ≠ "" ∧ strip payload.clusterId ≠ "") ∧
    ∃ cursor, (s.openCursor now workspaceId commandId).cursors.find? (workspaceId, commandId) =
        some cursor ∧
      ((cursor.terminalSequence.isSome = true ∧ s' = s.openCursor now workspaceId commandId) ∨
       (cursor.terminalSequence = none ∧ ∃ operationEvents row,
          row = (⟨workspaceId, commandId, cursor.lastSequence + 1, strip payload.clusterId, kind,
            payload, now⟩ : CommandOperationEvent) ∧
          s.operationEvents.insert? row = some operationEvents ∧
          s' = s.storeEvent now kind row operationEvents)) := by
  unfold stageCommandOperationEvent at h
  by_cases hid : workspaceId = "" ∨ commandId = "" ∨ strip payload.clusterId = ""
  · simp only [if_pos hid] at h
    cases h
  · simp only [if_neg hid] at h
    refine ⟨⟨fun hw => hid (Or.inl hw), fun hc => hid (Or.inr (Or.inl hc)),
      fun hcl => hid (Or.inr (Or.inr hcl))⟩, ?_⟩
    change (match (s.openCursor now workspaceId commandId).cursors.find?
      (workspaceId, commandId) with | none => _ | some cursor => _) = _ at h
    rcases hf : (s.openCursor now workspaceId commandId).cursors.find?
        (workspaceId, commandId) with _ | cursor
    · -- the cursor was just inserted
      rw [Store.find?_openCursor, if_pos rfl] at hf
      cases hf
    · rw [hf] at h
      refine ⟨cursor, rfl, ?_⟩
      simp only at h
      split at h
      · rename_i hclosed
        cases h
        exact Or.inl ⟨hclosed, rfl⟩
      · rename_i hopen
        split at h
        · cases h
        · rename_i operationEvents hinsert
          cases h
          exact Or.inr ⟨by simpa using hopen, operationEvents, _, rfl, hinsert, rfl⟩

theorem stage_frame
    (h : stageCommandOperationEvent s now workspaceId commandId kind payload = .ok (event, s')) :
    s'.commands = s.commands ∧ s'.attempts = s.attempts ∧ s'.nextId = s.nextId := by
  obtain ⟨-, cursor, -, ⟨-, rfl⟩ | ⟨-, operationEvents, row, -, -, rfl⟩⟩ := stage_cases h
  · exact ⟨rfl, rfl, rfl⟩
  · exact ⟨rfl, rfl, rfl⟩

theorem staged_advance {t : Store} (hs : ∀ k, StreamInv s k) (hopen : ¬ s.StreamClosed k)
    {row : CommandOperationEvent} (hrow : row.stream = k)
    (hseq : row.sequence = (s.kinds k).length + 1) (hevents : ∀ k', t.streamEvents k' =
      if k' = k then s.streamEvents k' ++ [row] else s.streamEvents k')
    (hcursor : ∀ k', k' ≠ k → cursorAgrees (t.cursors.find? k') (s.kinds k'))
    {c : CommandOperationEventCursor} (hfind : t.cursors.find? k = some c)
    (hlast : c.lastSequence = (s.kinds k).length + 1)
    (hterm : c.terminalSequence.isSome = true ↔ row.kind.terminal = true) :
    (∀ k', t.kinds k' =
      if k' = k then push OperationEventKind.terminal (s.kinds k') row.kind else s.kinds k') ∧
    ∀ k', StreamInv t k' := by
  have hkinds : ∀ k', t.kinds k' =
      if k' = k then push OperationEventKind.terminal (s.kinds k') row.kind
      else s.kinds k' := by
    intro k'
    rw [Store.kinds, hevents]
    by_cases hk : k' = k
    · rw [if_pos hk, if_pos hk, hk, push_of_open hopen, List.map_append]
      rfl
    · rw [if_neg hk, if_neg hk]
      rfl
  refine ⟨hkinds, fun k' => ?_⟩
  by_cases hk : k' = k
  · subst hk
    have hpush := hkinds k'
    rw [if_pos rfl] at hpush
    refine ⟨?_, ?_, ?_⟩
    · rw [hpush, push_of_open hopen, List.length_append, List.length_singleton,
        List.range'_concat, hevents, if_pos rfl, List.map_append, (hs k').sequences,
        List.map_singleton, hseq]
      simp only [Nat.one_mul, Nat.add_comm]
    · rw [hfind, hpush]
      refine ⟨?_, ?_⟩
      · rw [hlast, push_of_open hopen, List.length_append, List.length_singleton]
      · rw [hterm, closed_push]
        exact ⟨Or.inr, fun h => h.resolve_left hopen⟩
    · rw [hpush]
      exact sealed_push (hs k').isSealed row.kind
  · have hsame := hkinds k'
    rw [if_neg hk] at hsame
    refine ⟨?_, ?_, ?_⟩
    · rw [hsame, hevents, if_neg hk]
      exact (hs k').sequences
    · rw [hsame]
      exact hcursor k' hk
    · rw [hsame]
      exact (hs k').isSealed

/-- **Staging is a push.** -/
theorem stage_spec (hs : ∀ k, StreamInv s k)
    (h : stageCommandOperationEvent s now workspaceId commandId kind payload = .ok (event, s')) :
    Staged s s' (workspaceId, commandId) kind := by
  obtain ⟨-, cursor, hf, ⟨hclosed, rfl⟩ | ⟨hnone, operationEvents, row, hrow, hinsert, rfl⟩⟩ :=
    stage_cases h
  · -- a closed stream takes no event
    have hins := streamInv_openCursor hs now workspaceId commandId
    have hcur := (hins (workspaceId, commandId)).cursor
    rw [hf] at hcur
    refine ⟨rfl, rfl, rfl, rfl, rfl, fun k' => ?_, hins⟩
    by_cases hk : k' = (workspaceId, commandId)
    · rw [if_pos hk, hk]
      exact (push_of_closed (hcur.2.mp hclosed) kind).symm
    · rw [if_neg hk]
      rfl
  · have hins := streamInv_openCursor hs now workspaceId commandId
    have hcur := (hins (workspaceId, commandId)).cursor
    rw [hf] at hcur
    have hopen : ¬ s.StreamClosed (workspaceId, commandId) := by
      intro hc
      have := hcur.2.mpr hc
      rw [hnone] at this
      cases this
    have hlast : cursor.lastSequence = (s.kinds (workspaceId, commandId)).length := hcur.1
    have hstream : row.stream = (workspaceId, commandId) := by rw [hrow]; rfl
    have hkind : row.kind = kind := by rw [hrow]
    have hseq : row.sequence = (s.kinds (workspaceId, commandId)).length + 1 := by
      rw [hrow, ← hlast]
    have hcursor : ∀ k', k' ≠ (workspaceId, commandId) →
        cursorAgrees ((s.storeEvent now kind row operationEvents).cursors.find? k')
          (s.kinds k') := by
      intro k' hk
      rw [Store.storeEvent, Table.find?_modify_ne _ _ _ (by rw [hstream]; exact hk), hrow]
      exact (hins k').cursor
    have hadvanced : (s.storeEvent now kind row operationEvents).cursors.find?
        (workspaceId, commandId) = some (cursor.advance kind now) := by
      rw [Store.storeEvent, hstream, Table.find?_modify_self, hrow, hf]
      rfl
    obtain ⟨hkinds, hstreams⟩ := staged_advance (k := (workspaceId, commandId)) hs hopen hstream
      hseq
      (t := s.storeEvent now kind row operationEvents)
      (fun k' => by rw [← hstream]; exact streamEvents_insert hinsert k')
      (fun k' hk => hcursor k' hk)
      hadvanced (congrArg (· + 1) hlast)
      (by
        rw [hkind, CommandOperationEventCursor.advance]
        rcases kind.terminal with _ | _ <;> simp [hnone])
    rw [hkind] at hkinds
    exact ⟨rfl, rfl, rfl, rfl, rfl, hkinds, hstreams⟩

theorem stage_succeeds (hs : ∀ k, StreamInv s k) (hw : workspaceId ≠ "") (hc : commandId ≠ "")
    (hcl : strip payload.clusterId ≠ "") (now : Timestamp) (kind : OperationEventKind) :
    ∃ event s', stageCommandOperationEvent s now workspaceId commandId kind payload =
      .ok (event, s') := by
  rw [stageCommandOperationEvent]
  have hid : ¬ (workspaceId = "" ∨ commandId = "" ∨ strip payload.clusterId = "") := by
    rintro (h | h | h)
    · exact hw h
    · exact hc h
    · exact hcl h
  simp only [if_neg hid]
  have hcur := (streamInv_openCursor hs now workspaceId commandId (workspaceId, commandId)).cursor
  change cursorAgrees ((s.cursors.insertIfAbsent ⟨workspaceId, commandId, 0, none, now⟩).find?
    (workspaceId, commandId)) (s.kinds (workspaceId, commandId)) at hcur
  rcases hf : (s.cursors.insertIfAbsent ⟨workspaceId, commandId, 0, none, now⟩).find?
      (workspaceId, commandId) with _ | cursor
  · exact ⟨_, _, rfl⟩
  · rw [hf] at hcur
    simp only
    by_cases hclosed : cursor.terminalSequence.isSome = true
    · rw [if_pos hclosed]
      exact ⟨_, _, rfl⟩
    · rw [if_neg hclosed]
      have hlast : cursor.lastSequence = (s.kinds (workspaceId, commandId)).length := hcur.1
      have hfree := (hs (workspaceId, commandId)).sequence_free
      rw [← hlast] at hfree
      obtain ⟨t, ht⟩ := Table.insert?_of_none
        (r := (⟨workspaceId, commandId, cursor.lastSequence + 1, strip payload.clusterId, kind,
          payload, now⟩ : CommandOperationEvent)) hfree
      rw [ht]
      exact ⟨_, _, rfl⟩

end Opsia
