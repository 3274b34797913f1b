import Opsia.Command.EventStream
import Opsia.Lib.Runs
import Mathlib.Data.List.Induction

/-!
# A command stream delivered once

What the browser gets is the ledger, event by event: the frames of all connections
are its first events (`LedgerInv`), and a connection falls silent after the
terminal one. That holds of the runs in which the stream is never opened at its
end, no gap is repaired across its end, and the ledger does not begin under a
snapshot (`run_deliversOnce`). At each of the three the handler goes wrong; the
gap is the one that no client can avoid (`keepAlive_after_terminal`).
-/

namespace Opsia.CommandEvents

open Runs SealedLog

/-! ## The ledger as a list of events -/

/-- The ledger holds a terminal event. -/
abbrev LedgerClosed (ledger : List OperationEventKind) : Prop :=
  Closed OperationEventKind.terminal ledger

@[simp] theorem length_ledgerEvents (ledger : List OperationEventKind) :
    (ledgerEvents ledger).length = ledger.length := by
  simp [ledgerEvents]

theorem ledgerEvents_append (ledger : List OperationEventKind) (kind : OperationEventKind) :
    ledgerEvents (ledger ++ [kind]) = ledgerEvents ledger ++ [⟨ledger.length + 1, kind, false⟩] := by
  simp [ledgerEvents, List.mapIdx_append]

theorem getElem?_ledgerEvents (ledger : List OperationEventKind) (i : ℕ) :
    (ledgerEvents ledger)[i]? = ledger[i]?.map fun kind => ⟨i + 1, kind, false⟩ := by
  simp [ledgerEvents]

variable {s : State} {ledger : List OperationEventKind}

theorem sequence_of_append {before after : List OperationEvent} {event : OperationEvent}
    (h : ledgerEvents ledger = before ++ event :: after) :
    event.sequence = before.length + 1 ∧ event.snapshot = false := by
  have hat : (ledgerEvents ledger)[before.length]? = some event := by
    rw [h]
    simp
  rw [getElem?_ledgerEvents] at hat
  obtain ⟨kind, -, rfl⟩ := Option.map_eq_some_iff.mp hat
  exact ⟨rfl, rfl⟩

theorem mem_ledgerEvents {event : OperationEvent} (h : event ∈ ledgerEvents ledger) :
    event.snapshot = false ∧ 1 ≤ event.sequence ∧ event.sequence ≤ ledger.length ∧
      ledger[event.sequence - 1]? = some event.kind := by
  obtain ⟨i, hi⟩ := List.mem_iff_getElem?.mp h
  rw [getElem?_ledgerEvents] at hi
  obtain ⟨kind, hkind, rfl⟩ := Option.map_eq_some_iff.mp hi
  have hlt := (List.getElem?_eq_some_iff.mp hkind).1
  exact ⟨rfl, Nat.le_add_left 1 i, hlt, hkind⟩

theorem map_sequence_ledgerEvents (ledger : List OperationEventKind) :
    (ledgerEvents ledger).map (·.sequence) = List.range' 1 ledger.length := by
  induction ledger using List.reverseRecOn with
  | nil => rfl
  | append_singleton ledger kind ih =>
    rw [ledgerEvents_append, List.map_append, ih, List.length_append, List.length_singleton,
      List.range'_concat]
    simp [Nat.add_comm]

theorem sequence_of_terminal (hsealed : Sealed OperationEventKind.terminal ledger)
    {event : OperationEvent} (h : event ∈ ledgerEvents ledger) (ht : event.terminal = true) :
    LedgerClosed ledger ∧ event.sequence = ledger.length := by
  obtain ⟨-, hpos, hle, hkind⟩ := mem_ledgerEvents h
  refine ⟨⟨event.kind, List.mem_of_getElem? hkind, ht⟩, ?_⟩
  by_contra hne
  have hlt : event.sequence - 1 < ledger.length - 1 := by omega
  have hmem : event.kind ∈ ledger.dropLast := by
    refine List.mem_iff_getElem?.mpr ⟨event.sequence - 1, ?_⟩
    rw [List.getElem?_dropLast, if_pos hlt, hkind]
  exact absurd (ht.symm.trans (hsealed _ hmem)) (by simp)

theorem terminal_of_sequence (hsealed : Sealed OperationEventKind.terminal ledger)
    (hclosed : LedgerClosed ledger) {event : OperationEvent} (h : event ∈ ledgerEvents ledger)
    (hlast : event.sequence = ledger.length) : event.terminal = true := by
  obtain ⟨kind, hmem, ht⟩ := hclosed
  obtain ⟨-, hpos, -, hkind⟩ := mem_ledgerEvents h
  obtain ⟨i, hi⟩ := List.mem_iff_getElem?.mp hmem
  have hlt := (List.getElem?_eq_some_iff.mp hi).1
  by_cases hilast : i = event.sequence - 1
  · rw [hilast, hkind] at hi
    cases hi
    exact ht
  · have hdrop : kind ∈ ledger.dropLast := by
      refine List.mem_iff_getElem?.mpr ⟨i, ?_⟩
      rw [List.getElem?_dropLast, if_pos (by omega), hi]
    exact absurd (ht.symm.trans (hsealed _ hdrop)) (by simp)

theorem listCommandOperationEvents_eq (ledger : List OperationEventKind) (n : ℕ) :
    listCommandOperationEvents ledger n = ((ledgerEvents ledger).drop n).take replayLimit := by
  have hdrop : (ledgerEvents ledger).filter (n < ·.sequence) = (ledgerEvents ledger).drop n := by
    induction ledger using List.reverseRecOn with
    | nil => simp [ledgerEvents]
    | append_singleton ledger kind ih =>
      rw [ledgerEvents_append, List.filter_append, ih]
      by_cases hn : n ≤ ledger.length
      · rw [List.drop_append_of_le_length (by simpa using hn)]
        simp [Nat.lt_succ_of_le hn]
      · rw [List.drop_eq_nil_of_le (by simp; omega), List.drop_eq_nil_of_le (by simp; omega)]
        simp; omega
  rw [listCommandOperationEvents, hdrop]

/-! ## Pieces of the ledger -/

/-- The list is a piece of the ledger that starts no later than after `d` events. -/
def Segment (ledger : List OperationEventKind) (d : ℕ) (pending : List OperationEvent) : Prop :=
  ∃ before after, ledgerEvents ledger = before ++ pending ++ after ∧ before.length ≤ d

theorem segment_nil (ledger : List OperationEventKind) (d : ℕ) : Segment ledger d [] :=
  ⟨[], ledgerEvents ledger, rfl, Nat.zero_le d⟩

/-- A replay is a piece that starts at its cursor. -/
theorem segment_list (ledger : List OperationEventKind) (d : ℕ) :
    Segment ledger d (listCommandOperationEvents ledger d) := by
  refine ⟨(ledgerEvents ledger).take d, ((ledgerEvents ledger).drop d).drop replayLimit, ?_,
    List.length_take_le _ _⟩
  rw [listCommandOperationEvents_eq, List.append_assoc, List.take_append_drop,
    List.take_append_drop]

variable {d : ℕ} {c : Connection}

theorem Segment.push {pending : List OperationEvent} (h : Segment ledger d pending)
    (kind : OperationEventKind) :
    Segment (push OperationEventKind.terminal ledger kind) d pending := by
  by_cases hclosed : LedgerClosed ledger
  · rw [push_of_closed hclosed]
    exact h
  · obtain ⟨before, after, heq, hle⟩ := h
    rw [push_of_open hclosed]
    refine ⟨before, after ++ [⟨ledger.length + 1, kind, false⟩], ?_, hle⟩
    rw [ledgerEvents_append, heq]
    simp

theorem Segment.mem {pending : List OperationEvent} (h : Segment ledger d pending)
    {event : OperationEvent} (he : event ∈ pending) :
    event ∈ ledgerEvents ledger := by
  obtain ⟨before, after, heq, -⟩ := h
  rw [heq]
  exact List.mem_append_left _ (List.mem_append_right _ he)

theorem Segment.head {event : OperationEvent} {pending : List OperationEvent}
    (h : Segment ledger d (event :: pending)) :
    event.sequence ≤ d + 1 ∧ Segment ledger (max d event.sequence) pending := by
  obtain ⟨before, after, heq, hle⟩ := h
  have hcut : ledgerEvents ledger = before ++ event :: (pending ++ after) := by
    rw [heq]
    simp
  have hseq := (sequence_of_append hcut).1
  refine ⟨by omega, before ++ [event], after, by rw [heq]; simp, ?_⟩
  rw [List.length_append, List.length_singleton]
  omega

theorem Segment.not_terminal {pending : List OperationEvent} (h : Segment ledger d pending)
    (hsealed : Sealed OperationEventKind.terminal ledger) (hends : endsStream pending = false) :
    ∀ event ∈ pending, event.terminal = false := by
  intro event he
  by_contra ht
  rw [Bool.not_eq_false] at ht
  obtain ⟨-, hlast⟩ := sequence_of_terminal hsealed (h.mem he) ht
  obtain ⟨before, after, heq, -⟩ := h
  obtain ⟨l₁, l₂, rfl⟩ := List.append_of_mem he
  have hcut : ledgerEvents ledger = (before ++ l₁) ++ event :: (l₂ ++ after) := by
    rw [heq]
    simp
  have hseq := (sequence_of_append hcut).1
  -- the terminal event has nothing behind it
  have hlength := congrArg List.length heq
  simp only [length_ledgerEvents, List.length_append, List.length_cons] at hlength hseq
  have hnil : l₂ = [] := List.eq_nil_of_length_eq_zero (by omega)
  subst hnil
  simp [endsStream, ht] at hends

/-! ## What a stream promises, and the steps that may break it -/

/-- Every frame has the next number, no event of the ledger was passed over, and a
connection sends nothing after the terminal event, nor when its cursor covers it. -/
structure DeliversOnce (s : State) : Prop where
  contiguous : s.frames.map (·.sequence) = List.range' 1 s.frames.length
  complete : ∀ event ∈ ledgerEvents s.ledger, event.sequence ≤ s.frames.length → event ∈ s.frames
  last : ∀ c, s.connection = some c → ∀ output ∈ c.outputs.dropLast, output.terminal = false
  silent : ∀ c, s.connection = some c → LedgerClosed s.ledger → s.ledger.length ≤ c.cursor →
    c.outputs = []

/-- The events the handler still has to emit. -/
def Stage.pending : Stage → List OperationEvent
  | .emitting pending _ => pending
  | .subscribed | .contextRead | .rowRead | .waiting | .timedOut | .repairing _ | .closed => []

/-- The browser got a snapshot of the command row, or is about to. -/
def State.snapshotServed (s : State) : Bool :=
  s.frames.any (·.snapshot) || s.connection.any fun c => c.stage.pending.any (·.snapshot)

/-- The step runs into none of the three: the ledger does not begin once a snapshot
was served, nor before the handler makes one; the stream is not opened at its end;
and no gap is repaired once the ledger is closed. -/
def undisturbed (s : State) : Action → Bool
  | .commit _ => !s.ledger.isEmpty || !s.snapshotServed
  | .serve _ =>
    match s.connection with
    | none => true
    | some c =>
      match c.stage with
      | .contextRead => !(decide (LedgerClosed s.ledger) && decide (c.cursor = s.ledger.length))
      | .rowRead => s.ledger.isEmpty
      | .repairing _ => !decide (LedgerClosed s.ledger)
      | .subscribed | .emitting _ _ | .waiting | .timedOut | .closed => true
  | .setRow _ | .connect | .announce _ | .timeout | .receive | .disconnect => true

/-! ## The invariant of a stream with a ledger -/

/-- The ledger is closed, and all of it was sent. -/
def Done (ledger : List OperationEventKind) (d : ℕ) : Prop :=
  LedgerClosed ledger ∧ d = ledger.length

/-- The handler may send something after its list. -/
def Calm (ledger : List OperationEventKind) (d : ℕ) (pending : List OperationEvent) : Prop :=
  ¬ Done ledger d ∧ ∀ event ∈ pending, event.terminal = false

/-- What the end of a list relies on. -/
def NextInv (ledger : List OperationEventKind) (d : ℕ) (pending : List OperationEvent) :
    Next → Prop
  | .opened true | .replayed true => True
  | .opened false | .replayed false => Calm ledger d pending
  | .repaired live => Calm ledger d pending ∧ live ∈ ledgerEvents ledger

/-- What the handler relies on, by stage. -/
def StageInv (ledger : List OperationEventKind) (d : ℕ) (c : Connection) : Prop :=
  match c.stage with
  | .subscribed | .contextRead | .rowRead => c.outputs = [] ∧ c.cursor = d
  | .emitting pending next => Segment ledger d pending ∧ NextInv ledger d pending next
  | .waiting | .timedOut => ¬ Done ledger d
  | .repairing live => live ∈ ledgerEvents ledger
  | .closed => True

/-- A connection of which `d` events were sent, on it or before it. -/
structure ConnInv (ledger : List OperationEventKind) (d : ℕ) (c : Connection) : Prop where
  delivered : c.delivered = d
  cursor : c.cursor ≤ d
  last : ∀ output ∈ c.outputs.dropLast, output.terminal = false
  done : ∀ output ∈ c.outputs, output.terminal = true → Done ledger d
  silent : c.outputs ≠ [] → LedgerClosed ledger → c.cursor < ledger.length
  queue : ∀ event, QueueItem.event event ∈ c.queue → event ∈ ledgerEvents ledger
  empty : ledger = [] → c.queue = []
  stage : StageInv ledger d c

/-- The frames are the first events of the ledger. -/
structure LedgerInv (s : State) : Prop where
  ledger : Sealed OperationEventKind.terminal s.ledger
  frames : s.frames = (ledgerEvents s.ledger).take s.frames.length
  idle : s.connection = none → s.wire = []
  connection : ∀ c, s.connection = some c → ConnInv s.ledger s.frames.length c

theorem LedgerInv.frames_le (h : LedgerInv s) : s.frames.length ≤ s.ledger.length := by
  have hlength := congrArg List.length h.frames
  rw [List.length_take, length_ledgerEvents] at hlength
  omega

theorem LedgerInv.delivers (h : LedgerInv s) : DeliversOnce s where
  contiguous := by
    have hmap : s.frames.map (·.sequence) =
        ((ledgerEvents s.ledger).take s.frames.length).map (·.sequence) := congrArg _ h.frames
    rw [hmap, List.map_take, map_sequence_ledgerEvents, List.take_range'_of_length_ge h.frames_le]
  complete := by
    intro event he hle
    obtain ⟨i, hi⟩ := List.mem_iff_getElem?.mp he
    have hseq : event.sequence = i + 1 := by
      rw [getElem?_ledgerEvents] at hi
      obtain ⟨kind, -, rfl⟩ := Option.map_eq_some_iff.mp hi
      rfl
    rw [h.frames]
    exact List.mem_iff_getElem?.mpr ⟨i, by rw [List.getElem?_take_of_lt (by omega), hi]⟩
  last := fun c hc => (h.connection c hc).last
  silent := by
    intro c hc hclosed hle
    by_contra hne
    have := (h.connection c hc).silent hne hclosed
    omega

/-! ## Steps of the handler -/

section Handler

variable {ledger : List OperationEventKind} {d : ℕ} {c : Connection}

@[simp] theorem Connection.sentSince_goTo (c : Connection) (stage : Stage) :
    (c.goTo stage).sentSince c = [] := by
  simp [Connection.sentSince, Connection.goTo]

@[simp] theorem Connection.sentSince_send (c : Connection) (event : OperationEvent)
    (stage : Stage) : (c.send event stage).sentSince c = [event] := by
  simp [Connection.sentSince, Connection.send, Output.event?]

@[simp] theorem Connection.sentSince_keepAlive (c : Connection) :
    c.keepAlive.sentSince c = [] := by
  simp [Connection.sentSince, Connection.keepAlive, Output.event?]

theorem ConnInv.goTo (h : ConnInv ledger d c) {stage : Stage}
    (hstage : StageInv ledger d (c.goTo stage)) : ConnInv ledger d (c.goTo stage) where
  delivered := h.delivered
  cursor := h.cursor
  last := h.last
  done := h.done
  silent := h.silent
  queue := h.queue
  empty := h.empty
  stage := hstage

theorem ConnInv.not_terminal (h : ConnInv ledger d c) (hdone : ¬ Done ledger d) :
    ∀ output ∈ c.outputs, output.terminal = false := by
  intro output ho
  by_contra ht
  exact hdone (h.done output ho (by simpa using ht))

theorem ConnInv.send (h : ConnInv ledger d c)
    (hsealed : Sealed OperationEventKind.terminal ledger) {event : OperationEvent}
    (he : event ∈ ledgerEvents ledger) (hseq : event.sequence = d + 1) {stage : Stage}
    (hstage : StageInv ledger (d + 1) (c.send event stage)) :
    ConnInv ledger (d + 1) (c.send event stage) := by
  have hle := (mem_ledgerEvents he).2.2.1
  have hcursor := h.cursor
  have hnone : ∀ output ∈ c.outputs, output.terminal = false :=
    h.not_terminal fun hdone => by
      have := hdone.2
      omega
  refine ⟨hseq, Nat.le_succ_of_le h.cursor, ?_, ?_, fun _ _ => ?_, h.queue, h.empty, hstage⟩
  · rw [Connection.send, List.dropLast_concat]
    exact hnone
  · intro output ho ht
    rcases List.mem_append.mp ho with ho | ho
    · exact absurd (ht.symm.trans (hnone output ho)) (by simp)
    · -- the frame of the event itself
      obtain rfl := List.mem_singleton.mp ho
      obtain ⟨hclosed, hlast⟩ := sequence_of_terminal hsealed he ht
      exact ⟨hclosed, by omega⟩
  · change c.cursor < ledger.length
    omega

theorem ConnInv.keepAlive (h : ConnInv ledger d c) (hle : d ≤ ledger.length)
    (hdone : ¬ Done ledger d) : ConnInv ledger d c.keepAlive := by
  have hcursor := h.cursor
  have hnone := h.not_terminal hdone
  refine ⟨h.delivered, h.cursor, ?_, ?_, fun _ hclosed => ?_, h.queue, h.empty, hdone⟩
  · rw [Connection.keepAlive, List.dropLast_concat]
    exact hnone
  · intro output ho ht
    rcases List.mem_append.mp ho with ho | ho
    · exact h.done output ho ht
    · obtain rfl := List.mem_singleton.mp ho
      cases ht
  · change c.cursor < ledger.length
    have : d ≠ ledger.length := fun heq => hdone ⟨hclosed, heq⟩
    omega

/-- What a step of the handler keeps, with the events it sends. -/
def Keeps (ledger : List OperationEventKind) (d : ℕ) (c c' : Connection) : Prop :=
  (c'.sentSince c = [] ∧ ConnInv ledger d c') ∨
    ∃ event ∈ ledgerEvents ledger, event.sequence = d + 1 ∧ c'.sentSince c = [event] ∧
      ConnInv ledger (d + 1) c'

theorem ConnInv.keeps_goTo (h : ConnInv ledger d c) {stage : Stage}
    (hstage : StageInv ledger d (c.goTo stage)) : Keeps ledger d c (c.goTo stage) :=
  Or.inl ⟨c.sentSince_goTo stage, h.goTo hstage⟩

theorem not_done_succ (hsealed : Sealed OperationEventKind.terminal ledger)
    {event : OperationEvent} (he : event ∈ ledgerEvents ledger) (hseq : event.sequence = d + 1)
    (ht : event.terminal = false) : ¬ Done ledger (d + 1) := by
  rintro ⟨hclosed, hlast⟩
  exact absurd (ht.symm.trans (terminal_of_sequence hsealed hclosed he (hseq.trans hlast)))
    (by simp)

theorem ConnInv.emit (h : ConnInv ledger d c)
    (hsealed : Sealed OperationEventKind.terminal ledger) {event : OperationEvent}
    {pending : List OperationEvent} {next : Next} (hsegment : Segment ledger d (event :: pending))
    (hnext : NextInv ledger d (event :: pending) next) :
    Keeps ledger d c (c.emit event pending next) := by
  have hmem := hsegment.mem List.mem_cons_self
  obtain ⟨hle, hrest⟩ := hsegment.head
  -- a list that may be followed by more has no terminal event
  have hcalm : ∀ {d'}, Calm ledger d (event :: pending) → ¬ Done ledger d' →
      Calm ledger d' pending := fun hc hd => ⟨hd, fun x hx => hc.2 x (List.mem_cons_of_mem _ hx)⟩
  have hsend : event.sequence = d + 1 → ∀ rest, Segment ledger (d + 1) rest →
      NextInv ledger (d + 1) rest next → Keeps ledger d c (c.send event (.emitting rest next)) :=
    fun hseq rest hseg hn => Or.inr ⟨event, hmem, hseq, c.sentSince_send event _,
      h.send hsealed hmem hseq ⟨hseg, hn⟩⟩
  unfold Connection.emit
  rw [h.delivered]
  split_ifs with hskip hgap ht
  · rw [Nat.max_eq_left hskip] at hrest
    refine h.keeps_goTo ⟨hrest, ?_⟩
    match next, hnext with
    | .opened true, _ | .replayed true, _ => trivial
    | .opened false, hc | .replayed false, hc => exact hcalm hc hc.1
    | .repaired live, ⟨hc, hlive⟩ => exact ⟨hcalm hc hc.1, hlive⟩
  · exact h.keeps_goTo trivial
  · -- the terminal event: only the list of an ending stream has it
    refine hsend (by omega) [] (segment_nil ledger (d + 1)) ?_
    have hnot : ¬ Calm ledger d (event :: pending) := fun hc =>
      absurd (ht.symm.trans (hc.2 event List.mem_cons_self)) (by simp)
    match next, hnext with
    | .opened true, _ | .replayed true, _ => trivial
    | .opened false, hc | .replayed false, hc => exact absurd hc hnot
    | .repaired live, ⟨hc, _⟩ => exact absurd hc hnot
  · have hseq : event.sequence = d + 1 := by omega
    rw [Nat.max_eq_right (by omega), hseq] at hrest
    refine hsend hseq pending hrest ?_
    have hdone := not_done_succ hsealed hmem hseq (by simpa using ht)
    match next, hnext with
    | .opened true, _ | .replayed true, _ => trivial
    | .opened false, hc | .replayed false, hc => exact hcalm hc hdone
    | .repaired live, ⟨hc, hlive⟩ => exact ⟨hcalm hc hdone, hlive⟩

/-- After the list: the stream ends, waits, or goes on with the live event. -/
theorem ConnInv.afterEmit (h : ConnInv ledger d c)
    (hsealed : Sealed OperationEventKind.terminal ledger) (hle : d ≤ ledger.length) {next : Next}
    (hnext : NextInv ledger d [] next) : Keeps ledger d c (c.afterEmit next) := by
  match next, hnext with
  | .opened true, _ => exact h.keeps_goTo trivial
  | .opened false, hc => exact h.keeps_goTo hc.1
  | .replayed true, _ => exact h.keeps_goTo trivial
  | .replayed false, hc =>
    exact Or.inl ⟨c.sentSince_keepAlive, h.keepAlive hle hc.1⟩
  | .repaired live, ⟨hc, hlive⟩ =>
    simp only [Connection.afterEmit, h.delivered]
    split_ifs with hold hgap ht
    · exact h.keeps_goTo hc.1
    · exact h.keeps_goTo trivial
    · have hseq : live.sequence = d + 1 := by omega
      exact Or.inr ⟨live, hlive, hseq, c.sentSince_send live _, h.send hsealed hlive hseq trivial⟩
    · have hseq : live.sequence = d + 1 := by omega
      exact Or.inr ⟨live, hlive, hseq, c.sentSince_send live _, h.send hsealed hlive hseq
        (not_done_succ hsealed hlive hseq (by simpa using ht))⟩

theorem nextInv_list (hsealed : Sealed OperationEventKind.terminal ledger)
    (hdone : ¬ Done ledger d) :
    NextInv ledger d (listCommandOperationEvents ledger d)
        (.opened (endsStream (listCommandOperationEvents ledger d))) ∧
      NextInv ledger d (listCommandOperationEvents ledger d)
        (.replayed (endsStream (listCommandOperationEvents ledger d))) := by
  rcases hends : endsStream (listCommandOperationEvents ledger d) with _ | _
  · have hcalm : Calm ledger d (listCommandOperationEvents ledger d) :=
      ⟨hdone, (segment_list ledger d).not_terminal hsealed hends⟩
    exact ⟨hcalm, hcalm⟩
  · exact ⟨trivial, trivial⟩

/-- A replay that finds something is not at the end. -/
theorem not_done_of_list (h : listCommandOperationEvents ledger d ≠ []) : ¬ Done ledger d := by
  rintro ⟨-, hd⟩
  refine h ?_
  rw [listCommandOperationEvents_eq, List.drop_eq_nil_of_le (by simp [hd]), List.take_nil]

/-- The queue hands over an event of the ledger, or the overflow. -/
theorem ConnInv.take (h : ConnInv ledger d c) (hdone : ¬ Done ledger d) :
    Keeps ledger d c c.take := by
  have hsame : ∀ queue stage, Connection.sentSince { c with queue, stage } c = [] := by
    simp [Connection.sentSince]
  rcases hq : c.queue with _ | ⟨item, queue⟩
  · have htake : c.take = c := by simp only [Connection.take, hq]
    rw [htake]
    exact Or.inl ⟨by simpa using hsame c.queue c.stage, h⟩
  · have hrest : ∀ event, QueueItem.event event ∈ queue → event ∈ ledgerEvents ledger :=
      fun event he => h.queue event (by rw [hq]; exact List.mem_cons_of_mem _ he)
    have hempty : ledger = [] → queue = [] := fun he => by
      have := h.empty he
      rw [hq] at this
      cases this
    have hkeep : ∀ stage, StageInv ledger d { c with queue, stage } →
        Keeps ledger d c { c with queue, stage } := fun stage hs =>
      Or.inl ⟨hsame queue stage, h.delivered, h.cursor, h.last, h.done, h.silent, hrest, hempty, hs⟩
    cases item with
    | overflow =>
      simp only [Connection.take, hq]
      exact hkeep .closed trivial
    | event live =>
      have hlive := h.queue live (by rw [hq]; exact List.mem_cons_self)
      simp only [Connection.take, hq]
      refine hkeep _ ?_
      simp only [StageInv, h.delivered]
      split_ifs with hold hgap
      · exact hdone
      · exact hlive
      · exact ⟨segment_nil ledger d, ⟨hdone, fun _ he => absurd he List.not_mem_nil⟩, hlive⟩

/-- **One step of the handler.** It keeps the invariant, unless it opens the stream
at its end, repairs a gap across the end, or makes a snapshot. -/
theorem ConnInv.serve (h : ConnInv ledger d c)
    (hsealed : Sealed OperationEventKind.terminal ledger) (hle : d ≤ ledger.length)
    (row : Option CommandStatus) (authorized : Bool)
    (hopen : c.stage = .contextRead → ¬ Done ledger d)
    (hrow : c.stage ≠ .rowRead)
    (hrepair : ∀ live, c.stage = .repairing live → ¬ LedgerClosed ledger) :
    Keeps ledger d c (c.serve ledger row authorized) := by
  have hstage := h.stage
  unfold StageInv at hstage
  rcases hc : c.stage with _ | _ | _ | ⟨pending, next⟩ | _ | _ | live | _
  · rw [hc] at hstage
    obtain ⟨hout, hcur⟩ := hstage
    simp only [Connection.serve, hc, hcur]
    split_ifs with hnil hauth
    · exact h.keeps_goTo ⟨hout, hcur⟩
    · exact h.keeps_goTo ⟨segment_list ledger d,
        (nextInv_list hsealed (not_done_of_list hnil)).1⟩
    · exact h.keeps_goTo trivial
  · rw [hc] at hstage
    by_cases hnil : ledger = []
    · simp only [Connection.serve, hc, getCommandOperationEventContext, if_pos hnil]
      exact h.keeps_goTo hstage
    · simp only [Connection.serve, hc, getCommandOperationEventContext, if_neg hnil]
      split_ifs
      · exact h.keeps_goTo trivial
      · exact h.keeps_goTo ⟨segment_nil ledger d, hopen hc,
          fun _ he => absurd he List.not_mem_nil⟩
      · exact h.keeps_goTo trivial
  · exact absurd hc hrow
  · rw [hc] at hstage
    obtain ⟨hsegment, hnext⟩ := hstage
    cases pending with
    | nil =>
      simp only [Connection.serve, hc]
      exact h.afterEmit hsealed hle hnext
    | cons event pending =>
      simp only [Connection.serve, hc]
      exact h.emit hsealed hsegment hnext
  · rw [hc] at hstage
    simp only [Connection.serve, hc]
    exact h.take hstage
  · rw [hc] at hstage
    simp only [Connection.serve, hc, h.delivered]
    exact h.keeps_goTo ⟨segment_list ledger d, (nextInv_list hsealed hstage).2⟩
  · rw [hc] at hstage
    simp only [Connection.serve, hc, h.delivered]
    have hclosed := hrepair live hc
    refine h.keeps_goTo ⟨segment_list ledger d, ⟨fun hdone => hclosed hdone.1, ?_⟩, hstage⟩
    intro event he
    by_contra ht
    exact hclosed (sequence_of_terminal hsealed ((segment_list ledger d).mem he)
      (by simpa using ht)).1
  · have hsame : c.serve ledger row authorized = c.goTo .closed := by
      simp only [Connection.serve, hc, Connection.goTo]
      rw [← hc]
    rw [hsame]
    exact h.keeps_goTo trivial

end Handler

/-! ## Steps of the system around the handler -/

theorem ConnInv.push (h : ConnInv ledger d c) (hle : d ≤ ledger.length) (kind : OperationEventKind)
    :
    ConnInv (push OperationEventKind.terminal ledger kind) d c := by
  by_cases hclosed : LedgerClosed ledger
  · rw [push_of_closed hclosed]
    exact h
  · have hpush := push_of_open hclosed kind
    have hlength : (SealedLog.push OperationEventKind.terminal ledger kind).length =
        ledger.length + 1 := by
      rw [hpush]
      simp
    have hmem : ∀ event ∈ ledgerEvents ledger,
        event ∈ ledgerEvents (SealedLog.push OperationEventKind.terminal ledger kind) := by
      intro event he
      rw [hpush, ledgerEvents_append]
      exact List.mem_append_left _ he
    -- the new event has not been sent
    have hdone : ¬ Done (SealedLog.push OperationEventKind.terminal ledger kind) d := by
      rintro ⟨-, hd⟩
      omega
    have hcursor := h.cursor
    refine ⟨h.delivered, h.cursor, h.last, fun output ho ht => ?_, fun _ _ => by omega,
      fun event he => hmem event (h.queue event he), fun he => ?_, ?_⟩
    · exact absurd (h.done output ho ht).1 hclosed
    · rw [hpush] at he
      exact absurd he (by simp)
    · have hstage := h.stage
      unfold StageInv at hstage ⊢
      split at hstage
      · exact hstage
      · exact hstage
      · exact hstage
      · obtain ⟨hsegment, hnext⟩ := hstage
        refine ⟨hsegment.push kind, ?_⟩
        rename_i next _
        match next, hnext with
        | .opened true, _ | .replayed true, _ => trivial
        | .opened false, hc | .replayed false, hc => exact ⟨hdone, hc.2⟩
        | .repaired live, ⟨hc, hlive⟩ => exact ⟨⟨hdone, hc.2⟩, hmem live hlive⟩
      · exact hdone
      · exact hdone
      · exact hmem _ hstage
      · trivial

theorem ConnInv.offer (h : ConnInv ledger d c) {event : OperationEvent}
    (he : event ∈ ledgerEvents ledger) :
    ConnInv ledger d { c with queue := offer c.queue event } := by
  refine ⟨h.delivered, h.cursor, h.last, h.done, h.silent, fun x hx => ?_, fun hnil => ?_, h.stage⟩
  · change QueueItem.event x ∈ CommandEvents.offer c.queue event at hx
    unfold CommandEvents.offer at hx
    split_ifs at hx
    · rcases List.mem_append.mp hx with hx | hx
      · exact h.queue x hx
      · cases List.mem_singleton.mp hx
        exact he
    · cases List.mem_singleton.mp hx
  · rw [hnil] at he
    exact absurd he (by simp [ledgerEvents])

theorem cursor_of_contiguous (h : s.received.map (·.sequence) = List.range' 1 s.received.length) :
    operationEventCursor none s.lastEventId = .ok s.received.length := by
  rcases List.eq_nil_or_concat s.received with hnil | ⟨before, event, hconcat⟩
  · simp [State.lastEventId, hnil, operationEventCursor]
  · rw [List.concat_eq_append] at hconcat
    have hseq : event.sequence = before.length + 1 := by
      rw [hconcat, List.map_append, List.length_append, List.length_singleton,
        List.range'_concat] at h
      have := (List.append_inj' h rfl).2
      simp only [List.map_cons, List.map_nil, List.cons.injEq, and_true] at this
      omega
    have hlast : s.lastEventId = some (.value event.sequence) := by
      simp [State.lastEventId, hconcat]
    rw [hlast, operationEventCursor]
    simp [hconcat, hseq]
    omega

theorem connInv_fresh (ledger : List OperationEventKind) (d : ℕ) :
    ConnInv ledger d (Connection.fresh d) where
  delivered := rfl
  cursor := Nat.le_refl d
  last := fun _ ho => absurd ho List.not_mem_nil
  done := fun _ ho => absurd ho List.not_mem_nil
  silent := fun hne => absurd rfl hne
  queue := fun _ he => absurd he List.not_mem_nil
  empty := fun _ => rfl
  stage := ⟨rfl, rfl⟩

theorem LedgerInv.received (h : LedgerInv s) :
    s.received = (ledgerEvents s.ledger).take s.received.length := by
  have hpart : s.received = s.frames.take s.received.length := by
    rw [State.frames, List.take_left]
  have hle : s.received.length ≤ s.frames.length := by
    rw [State.frames, List.length_append]
    exact Nat.le_add_right _ _
  rw [h.frames, List.take_take, Nat.min_eq_left hle] at hpart
  exact hpart

theorem LedgerInv.disconnect (h : LedgerInv s) :
    LedgerInv { s with wire := [], connection := none } where
  ledger := h.ledger
  frames := by
    simp only [State.frames, List.append_nil]
    exact h.received
  idle := fun _ => rfl
  connection := fun _ hc => by cases hc

/-! ## The invariant of a stream under a snapshot -/

/-- The end of the stream was sent. -/
def Connection.ended (c : Connection) : Bool := c.outputs.any (·.terminal)

/-- What the handler relies on without a ledger, by stage. -/
def SnapshotStage (c : Connection) : Prop :=
  match c.stage with
  | .subscribed | .contextRead | .rowRead => c.outputs = []
  | .emitting [] (.opened true) | .closed => True
  | .emitting [] (.opened false) | .emitting [] (.replayed false) | .waiting | .timedOut =>
    c.ended = false
  | .emitting [event] (.opened ends) =>
    c.outputs = [] ∧ event.sequence = 1 ∧ event.snapshot = true ∧ ends = event.terminal
  | .emitting _ _ | .repairing _ => False

/-- A connection without a ledger. -/
structure SnapshotConn (d : ℕ) (c : Connection) : Prop where
  delivered : c.delivered = d
  last : ∀ output ∈ c.outputs.dropLast, output.terminal = false
  queue : c.queue = []
  stage : SnapshotStage c

/-- There is no ledger, and a snapshot was served. -/
structure SnapshotInv (s : State) : Prop where
  ledger : s.ledger = []
  frames : ∀ event ∈ s.frames, event.sequence = 1 ∧ event.snapshot = true
  once : s.frames.length ≤ 1
  served : s.snapshotServed = true
  idle : s.connection = none → s.wire = []
  connection : ∀ c, s.connection = some c → SnapshotConn s.frames.length c

theorem contiguous_of_first {events : List OperationEvent}
    (hone : ∀ event ∈ events, event.sequence = 1 ∧ event.snapshot = true)
    (hle : events.length ≤ 1) : events.map (·.sequence) = List.range' 1 events.length := by
  match events, hone, hle with
  | [], _, _ => rfl
  | [event], hone, _ => simp [(hone event List.mem_cons_self).1]

theorem SnapshotInv.delivers (h : SnapshotInv s) : DeliversOnce s where
  contiguous := contiguous_of_first h.frames h.once
  complete := by
    intro event he
    rw [h.ledger] at he
    exact absurd he (by simp [ledgerEvents])
  last := fun c hc => (h.connection c hc).last
  silent := by
    intro c hc hclosed
    rw [h.ledger] at hclosed
    exact absurd hclosed not_closed_nil

/-- **One step of the handler without a ledger.** It sends the snapshot if nobody
did before. -/
theorem SnapshotConn.serve (h : SnapshotConn d c) (hd : d ≤ 1)
    (hserved : d = 0 → ∃ event pending next, c.stage = .emitting (event :: pending) next)
    (row : Option CommandStatus) (authorized : Bool) :
    (d = 1 ∧ (c.serve [] row authorized).sentSince c = [] ∧
      SnapshotConn 1 (c.serve [] row authorized)) ∨
    (d = 0 ∧ ∃ event : OperationEvent, event.sequence = 1 ∧ event.snapshot = true ∧
      (c.serve [] row authorized).sentSince c = [event] ∧
      SnapshotConn 1 (c.serve [] row authorized)) := by
  have hstage := h.stage
  have hgoTo : ∀ stage, d = 1 → SnapshotStage (c.goTo stage) →
      (d = 1 ∧ (c.goTo stage).sentSince c = [] ∧ SnapshotConn 1 (c.goTo stage)) :=
    fun stage hone hs => ⟨hone, c.sentSince_goTo stage,
      ⟨h.delivered.trans hone, h.last, h.queue, hs⟩⟩
  -- only a pending snapshot is served before any frame
  have hone : (∀ event pending next, c.stage ≠ .emitting (event :: pending) next) → d = 1 := by
    intro hne
    by_contra hd1
    obtain ⟨event, pending, next, hs⟩ := hserved (by omega)
    exact hne event pending next hs
  unfold SnapshotStage at hstage
  split at hstage <;> rename_i hs
  · simp only [Connection.serve, hs, listCommandOperationEvents, ledgerEvents, List.mapIdx_nil,
      List.filter_nil, List.take_nil, if_true]
    exact Or.inl (hgoTo _ (hone (by simp [hs])) hstage)
  · simp only [Connection.serve, hs, getCommandOperationEventContext, if_true]
    exact Or.inl (hgoTo _ (hone (by simp [hs])) hstage)
  · have hd1 := hone (by simp [hs])
    rcases row with _ | status
    · simp only [Connection.serve, hs]
      exact Or.inl (hgoTo _ hd1 trivial)
    · simp only [Connection.serve, hs]
      split_ifs
      · exact Or.inl (hgoTo _ hd1 ⟨hstage, rfl, rfl, rfl⟩)
      · exact Or.inl (hgoTo _ hd1 trivial)
  · simp only [Connection.serve, hs, Connection.afterEmit, if_true]
    exact Or.inl (hgoTo _ (hone (by simp [hs])) trivial)
  · have hd1 := hone (by simp [hs])
    have hsame : c.serve [] row authorized = c.goTo .closed := by
      simp only [Connection.serve, hs, Connection.goTo]
      rw [← hs]
    rw [hsame]
    exact Or.inl (hgoTo _ hd1 trivial)
  · simp only [Connection.serve, hs, Connection.afterEmit]
    exact Or.inl (hgoTo _ (hone (by simp [hs])) hstage)
  · -- the keep-alive of a timeout
    have hd1 := hone (by simp [hs])
    have hnone : ∀ output ∈ c.outputs, output.terminal = false := by
      simpa [Connection.ended] using hstage
    simp only [Connection.serve, hs, Connection.afterEmit]
    refine Or.inl ⟨hd1, c.sentSince_keepAlive, h.delivered.trans hd1, ?_, h.queue, ?_⟩
    · change ∀ output ∈ (c.outputs ++ [Output.keepAlive]).dropLast, output.terminal = false
      rw [List.dropLast_concat]
      exact hnone
    · change (c.outputs ++ [Output.keepAlive]).any (·.terminal) = false
      rw [List.any_append]
      simpa [Connection.ended, Output.terminal, Output.event?] using hstage
  · have hd1 := hone (by simp [hs])
    have hsame : c.serve [] row authorized = c := by
      simp only [Connection.serve, hs, Connection.take, h.queue]
    rw [hsame]
    exact Or.inl ⟨hd1, by simp [Connection.sentSince], hd1 ▸ h⟩
  · simp only [Connection.serve, hs, listCommandOperationEvents, ledgerEvents, List.mapIdx_nil,
      List.filter_nil, List.take_nil]
    exact Or.inl (hgoTo _ (hone (by simp [hs])) hstage)
  · -- the snapshot itself
    rename_i event ends
    obtain ⟨hout, hseq, hsnap, rfl⟩ := hstage
    simp only [Connection.serve, hs, Connection.emit, h.delivered, hseq]
    by_cases hd1 : d = 1
    · rw [if_pos (by omega)]
      refine Or.inl (hgoTo _ hd1 ?_)
      rcases event.terminal with _ | _
      · simp [SnapshotStage, Connection.goTo, Connection.ended, hout]
      · trivial
    · have hd0 : d = 0 := by omega
      rw [if_neg (by omega), if_neg (by omega)]
      refine Or.inr ⟨hd0, _, hseq, hsnap, c.sentSince_send _ _, hseq, ?_, h.queue, ?_⟩
      · simp [Connection.send, hout]
      · rcases ht : event.terminal with _ | _
        · simp [SnapshotStage, Connection.send, Connection.ended, hout, Output.terminal,
            Output.event?, ht]
        · trivial
  · exact absurd hstage id
  · exact absurd hstage id

theorem SnapshotInv.served_cases (h : SnapshotInv s) :
    s.frames.length = 1 ∨ ∃ c event pending next, s.connection = some c ∧
      c.stage = .emitting (event :: pending) next := by
  have hserved := h.served
  unfold State.snapshotServed at hserved
  rcases Bool.or_eq_true_iff.mp hserved with hframes | hconn
  · have hne : s.frames ≠ [] := by
      intro hnil
      rw [hnil] at hframes
      cases hframes
    exact Or.inl (Nat.le_antisymm h.once (List.length_pos_iff.mpr hne))
  · obtain ⟨c, hc, hpending⟩ := (Option.any_eq_true _ _).mp hconn
    rcases hs : c.stage with _ | _ | _ | ⟨_ | ⟨event, pending⟩, next⟩ | _ | _ | _ | _ <;>
      rw [hs] at hpending <;> try cases hpending
    exact Or.inr ⟨c, event, pending, next, hc, hs⟩

theorem snapshotInv_of_frames (hledger : s.ledger = [])
    (hframes : ∀ event ∈ s.frames, event.sequence = 1 ∧ event.snapshot = true)
    (hone : s.frames.length = 1) (hidle : s.connection = none → s.wire = [])
    (hconn : ∀ c, s.connection = some c → SnapshotConn 1 c) : SnapshotInv s where
  ledger := hledger
  frames := hframes
  once := Nat.le_of_eq hone
  served := by
    obtain ⟨event, hevent⟩ := List.length_eq_one_iff.mp hone
    have hsnap := (hframes event (by rw [hevent]; exact List.mem_cons_self)).2
    rw [State.snapshotServed, hevent]
    simp [hsnap]
  idle := hidle
  connection := by
    rw [hone]
    exact hconn

/-- The invariant of a run: the stream has a ledger, or a snapshot stands for it. -/
def Inv (s : State) : Prop := LedgerInv s ∨ SnapshotInv s

theorem inv_start (row : Option CommandStatus) : Inv (State.start row) :=
  Or.inl ⟨sealed_nil, rfl, fun _ => rfl, fun _ hc => by cases hc⟩

theorem SnapshotInv.step (h : SnapshotInv s) {a : Action} (hok : undisturbed s a = true) :
    Inv (step s a) := by
  cases a with
  | commit kind =>
    -- the ledger does not begin under a snapshot
    simp [undisturbed, h.ledger, h.served] at hok
  | setRow row => exact Or.inr ⟨h.ledger, h.frames, h.once, h.served, h.idle, h.connection⟩
  | connect =>
    rcases hc : s.connection with _ | c
    · have hwire := h.idle hc
      have hframes : s.frames = s.received := by rw [State.frames, hwire, List.append_nil]
      have hcontiguous := contiguous_of_first h.frames h.once
      rw [hframes] at hcontiguous
      have hone : s.frames.length = 1 := by
        obtain hone | ⟨c, _, _, _, hc', -⟩ := h.served_cases
        · exact hone
        · rw [hc] at hc'
          cases hc'
      simp only [CommandEvents.step, hc, cursor_of_contiguous hcontiguous]
      refine Or.inr (snapshotInv_of_frames h.ledger h.frames hone (fun hn => by cases hn) ?_)
      intro c hc
      cases hc
      rw [← hframes, hone]
      exact ⟨rfl, fun _ ho => absurd ho List.not_mem_nil, rfl, rfl⟩
    · simp only [CommandEvents.step, hc]
      exact Or.inr h
  | announce i =>
    have hsame : CommandEvents.step s (.announce i) = s := by
      simp only [CommandEvents.step, h.ledger, ledgerEvents, List.mapIdx_nil, List.getElem?_nil]
      split <;> simp_all
    rw [hsame]
    exact Or.inr h
  | serve authorized =>
    rcases hc : s.connection with _ | c
    · simp only [CommandEvents.step, hc]
      exact Or.inr h
    · have hserved : s.frames.length = 0 → ∃ event pending next,
          c.stage = .emitting (event :: pending) next := by
        intro hzero
        obtain hone | ⟨c', event, pending, next, hc', hs⟩ := h.served_cases
        · cases hzero.symm.trans hone
        · rw [hc] at hc'
          cases hc'
          exact ⟨event, pending, next, hs⟩
      simp only [CommandEvents.step, hc, h.ledger]
      obtain ⟨hone, hsent, hconn⟩ | ⟨hzero, event, hseq, hsnap, hsent, hconn⟩ :=
        (h.connection c hc).serve h.once hserved s.row authorized
      · rw [hsent, List.append_nil]
        refine Or.inr (snapshotInv_of_frames rfl h.frames hone (fun hn => by cases hn) ?_)
        intro c' hc'
        cases hc'
        exact hconn
      · have hnil : s.received = [] ∧ s.wire = [] :=
          List.append_eq_nil_iff.mp (List.eq_nil_of_length_eq_zero hzero)
        rw [hsent, hnil.1, hnil.2]
        refine Or.inr (snapshotInv_of_frames rfl ?_ rfl (fun hn => by cases hn) ?_)
        · intro x hx
          obtain rfl := List.mem_singleton.mp hx
          exact ⟨hseq, hsnap⟩
        · intro c' hc'
          cases hc'
          exact hconn
  | timeout =>
    simp only [CommandEvents.step]
    split
    · rename_i cursor delivered outputs hc
      have hconn := h.connection _ hc
      have hone : s.frames.length = 1 := by
        obtain hone | ⟨c, event, pending, next, hc', hs⟩ := h.served_cases
        · exact hone
        · rw [hc] at hc'
          cases hc'
          cases hs
      refine Or.inr (snapshotInv_of_frames h.ledger h.frames hone (fun hn => by cases hn) ?_)
      intro c hc'
      cases hc'
      rw [← hone]
      exact ⟨hconn.delivered, hconn.last, rfl, hconn.stage⟩
    · exact Or.inr h
  | receive =>
    simp only [CommandEvents.step]
    rcases hw : s.wire with _ | ⟨event, wire⟩
    · exact Or.inr h
    · have hframes : State.frames { s with received := s.received ++ [event], wire } = s.frames := by
        simp [State.frames, hw]
      refine Or.inr ⟨h.ledger, by rw [hframes]; exact h.frames, by rw [hframes]; exact h.once, ?_,
        fun hn => ?_, by rw [hframes]; exact h.connection⟩
      · have hserved := h.served
        rw [State.snapshotServed] at hserved ⊢
        rw [hframes]
        exact hserved
      · have hidle := h.idle hn
        rw [hw] at hidle
        cases hidle
  | disconnect =>
    simp only [CommandEvents.step]
    rcases hr : s.received with _ | ⟨event, received⟩
    · refine Or.inl ⟨?_, ?_, fun _ => rfl, fun _ hc => by cases hc⟩
      · change Sealed _ s.ledger
        rw [h.ledger]
        exact sealed_nil
      · simp [State.frames]
    · have hframes : ∀ x ∈ event :: received, x.sequence = 1 ∧ x.snapshot = true := by
        intro x hx
        refine h.frames x (List.mem_append_left _ ?_)
        rw [hr]
        exact hx
      have hlength : (event :: received).length = 1 := by
        have hle := h.once
        rw [State.frames, hr, List.length_append, List.length_cons] at hle
        rw [List.length_cons]
        omega
      refine Or.inr (snapshotInv_of_frames h.ledger ?_ ?_ (fun _ => rfl) fun _ hc => by cases hc)
      · simpa [State.frames] using hframes
      · simpa [State.frames] using hlength

theorem LedgerInv.serve_row (h : LedgerInv s) (hc : s.connection = some c) (hs : c.stage = .rowRead)
    (hledger : s.ledger = []) (authorized : Bool) :
    Inv (step s (.serve authorized)) := by
  have hconn := h.connection c hc
  have hzero : s.frames.length = 0 := by
    have := h.frames_le
    rw [hledger] at this
    exact Nat.le_zero.mp this
  have hnil : s.frames = [] := List.eq_nil_of_length_eq_zero hzero
  have hframes : ∀ row c', State.frames ⟨s.ledger, row, s.received, s.wire, some c'⟩ = s.frames :=
    fun _ _ => rfl
  have hout : c.outputs = [] := by
    have hstage := hconn.stage
    rw [StageInv, hs] at hstage
    exact hstage.1
  simp only [step, hc, Connection.serve, hs]
  rcases s.row with _ | status
  · simp only [Connection.sentSince_goTo, List.append_nil]
    exact Or.inl ⟨h.ledger, h.frames, nofun, fun c' hc' => by
      cases hc'
      exact hconn.goTo trivial⟩
  · simp only
    split_ifs
    · simp only [Connection.sentSince_goTo, List.append_nil]
      refine Or.inr ⟨hledger, ?_, ?_, ?_, nofun, ?_⟩
      · rw [hframes, hnil]
        exact fun _ he => absurd he List.not_mem_nil
      · rw [hframes, hnil]
        exact Nat.zero_le 1
      · simp [State.snapshotServed, Connection.goTo, Stage.pending, commandSnapshotEvent]
      · intro c' hc'
        cases hc'
        rw [hframes]
        exact ⟨hconn.delivered, by simp [Connection.goTo, hout], hconn.empty hledger,
          hout, rfl, rfl, rfl⟩
    · simp only [Connection.sentSince_goTo, List.append_nil]
      exact Or.inl ⟨h.ledger, h.frames, nofun, fun c' hc' => by
        cases hc'
        exact hconn.goTo trivial⟩

theorem LedgerInv.serve (h : LedgerInv s) {c' : Connection}
    (hkeeps : Keeps s.ledger s.frames.length c c') :
    LedgerInv { s with connection := some c', wire := s.wire ++ c'.sentSince c } := by
  obtain ⟨hsent, hconn⟩ | ⟨event, he, hseq, hsent, hconn⟩ := hkeeps
  · rw [hsent, List.append_nil]
    exact ⟨h.ledger, h.frames, nofun, fun x hx => by
      cases hx
      exact hconn⟩
  · have hframes : State.frames { s with connection := some c', wire := s.wire ++ c'.sentSince c } =
        s.frames ++ [event] := by
      rw [hsent]
      simp [State.frames]
    have hle := (mem_ledgerEvents he).2.2.1
    refine ⟨h.ledger, ?_, nofun, fun x hx => ?_⟩
    · -- the frames and the next event are the first events again
      have hnext : (ledgerEvents s.ledger)[s.frames.length]? = some event := by
        obtain ⟨i, hi⟩ := List.mem_iff_getElem?.mp he
        have hidx : i = s.frames.length := by
          rw [getElem?_ledgerEvents] at hi
          obtain ⟨kind, -, rfl⟩ := Option.map_eq_some_iff.mp hi
          exact Nat.succ.inj hseq
        rw [← hidx]
        exact hi
      rw [hframes, List.length_append, List.length_singleton, List.take_add_one, ← h.frames, hnext]
      rfl
    · cases hx
      rw [hframes, List.length_append, List.length_singleton]
      exact hconn

theorem LedgerInv.step (h : LedgerInv s) {a : Action} (hok : undisturbed s a = true) :
    Inv (step s a) := by
  cases a with
  | commit kind =>
    refine Or.inl ⟨sealed_push h.ledger kind, ?_, h.idle, fun c hc =>
      (h.connection c hc).push h.frames_le kind⟩
    change s.frames = (ledgerEvents (push _ s.ledger kind)).take s.frames.length
    by_cases hclosed : LedgerClosed s.ledger
    · rw [push_of_closed hclosed]
      exact h.frames
    · rw [push_of_open hclosed, ledgerEvents_append,
        List.take_append_of_le_length (by simpa using h.frames_le)]
      exact h.frames
  | setRow row => exact Or.inl ⟨h.ledger, h.frames, h.idle, h.connection⟩
  | connect =>
    rcases hc : s.connection with _ | c
    · have hwire := h.idle hc
      have hframes : s.frames = s.received := by rw [State.frames, hwire, List.append_nil]
      have hcontiguous := h.delivers.contiguous
      rw [hframes] at hcontiguous
      simp only [CommandEvents.step, hc, cursor_of_contiguous hcontiguous]
      refine Or.inl ⟨h.ledger, h.frames, nofun, fun c hc => ?_⟩
      cases hc
      change ConnInv s.ledger s.frames.length _
      rw [hframes]
      exact connInv_fresh s.ledger s.received.length
    · simp only [CommandEvents.step, hc]
      exact Or.inl h
  | announce i =>
    simp only [CommandEvents.step]
    split
    · rename_i c event hc he
      refine Or.inl ⟨h.ledger, h.frames, nofun, fun x hx => ?_⟩
      cases hx
      exact (h.connection c hc).offer (List.mem_of_getElem? he)
    · exact Or.inl h
  | serve authorized =>
    rcases hc : s.connection with _ | c
    · simp only [CommandEvents.step, hc]
      exact Or.inl h
    · have hconn := h.connection c hc
      simp only [undisturbed, hc] at hok
      by_cases hrow : c.stage = .rowRead
      · rw [hrow] at hok
        exact h.serve_row hc hrow (List.isEmpty_iff.mp hok) authorized
      · simp only [CommandEvents.step, hc]
        refine Or.inl (h.serve (hconn.serve h.ledger h.frames_le s.row authorized ?_ hrow ?_))
        · intro hs hdone
          have hstage := hconn.stage
          rw [StageInv, hs] at hstage
          rw [hs] at hok
          simp [hdone.1, hstage.2, hdone.2] at hok
        · intro live hs hclosed
          rw [hs] at hok
          simp [hclosed] at hok
  | timeout =>
    simp only [CommandEvents.step]
    split
    · rename_i cursor delivered outputs hc
      have hconn := h.connection _ hc
      refine Or.inl ⟨h.ledger, h.frames, nofun, fun x hx => ?_⟩
      cases hx
      exact ⟨hconn.delivered, hconn.cursor, hconn.last, hconn.done, hconn.silent, hconn.queue,
        hconn.empty, hconn.stage⟩
    · exact Or.inl h
  | receive =>
    simp only [CommandEvents.step]
    rcases hw : s.wire with _ | ⟨event, wire⟩
    · exact Or.inl h
    · have hframes : State.frames { s with received := s.received ++ [event], wire } = s.frames := by
        simp [State.frames, hw]
      refine Or.inl ⟨h.ledger, by rw [hframes]; exact h.frames, fun hn => ?_, by
        rw [hframes]; exact h.connection⟩
      have hidle := h.idle hn
      rw [hw] at hidle
      cases hidle
  | disconnect => exact Or.inl h.disconnect

theorem step_inv {a : Action} (h : Inv s) (hok : undisturbed s a = true) :
    Inv (step s a) := by
  obtain h | h := h
  · exact h.step hok
  · exact h.step hok

/-- **The stream is delivered once.** In every run that runs into none of the
three, the frames of all connections are the ledger, event by event. -/
theorem run_deliversOnce (row : Option CommandStatus) (actions : List Action)
    (hok : Meets step (fun s a => undisturbed s a = true) (State.start row) actions) :
    DeliversOnce (run step (State.start row) actions) := by
  have hinv : Inv (run step (State.start row) actions) :=
    run_invariant_of_meets (fun _ _ h hok => step_inv h hok) (inv_start row) hok
  obtain h | h := hinv
  · exact h.delivers
  · exact h.delivers

/-! ## A keep-alive after the end -/

/-- Three events follow the first one, of which only the third is announced: the
handler repairs the gap in front of it with the terminal event on board. -/
def gapAcrossEnd : List Action :=
  [.commit .progress, .connect, .serve true, .serve true, .serve true, .commit .progress,
    .commit .progress, .commit .completed, .announce 2, .serve true, .serve true, .serve true,
    .serve true, .serve true, .serve true, .timeout, .serve true, .serve true]

/-- The handler goes on waiting after the terminal frame. -/
theorem keepAlive_after_terminal :
    ¬ ∀ (row : Option CommandStatus) (actions : List Action),
      DeliversOnce (run step (State.start row) actions) := by
  intro h
  have hlast := (h none gapAcrossEnd).last
  have hsent : ((run step (State.start none) gapAcrossEnd).connection.map (·.outputs)) =
      some [.frame ⟨1, .progress, false⟩, .frame ⟨2, .progress, false⟩,
        .frame ⟨3, .progress, false⟩, .frame ⟨4, .completed, false⟩, .keepAlive] := by
    decide +kernel
  obtain ⟨c, hc, hout⟩ := Option.map_eq_some_iff.mp hsent
  have hterminal := hlast c hc (.frame ⟨4, .completed, false⟩) (by rw [hout]; decide)
  cases hterminal

/-- A stream with a break in the middle and its end by a timeout. -/
theorem run_deliversOnce_resumed :
    DeliversOnce (run step (State.start (some .running))
      [.commit .progress, .connect, .serve true, .serve true, .receive, .serve true, .disconnect,
        .commit .progress, .connect, .serve true, .serve true, .receive, .serve true,
        .commit .completed, .timeout, .serve true, .serve true, .serve true]) := by
  refine run_deliversOnce (some .running) _ ?_
  unfold Meets
  decide +kernel

end Opsia.CommandEvents
