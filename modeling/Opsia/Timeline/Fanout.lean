import Mathlib.Data.List.Infix
import Mathlib.Data.PNat.Defs
import Opsia.Lib.Purge
import Opsia.Lib.PyText
import Opsia.Timeline.Ledger

/-!
# The timeline fan-out

`domains/timeline/fanout.py`. The fan-out lives on one event loop, so a method is one step; only
`next` may wait, on the queue of its subscription, and is then resumed in a step of its own, or
cancelled by a timeout. The state of a subscription is named by its place among all that were made,
and the dictionary of sets is kept as its pairs.

A subscription is *live* until it overflows or is closed. While it is live, what was read of it and
what is in its queue are all that was published for its workspace; from then on it is *cut*, and
only signals are read (`Course`).
-/

namespace Opsia.Timeline.Fanout

variable {φ : Type}

/-! ## Subscriptions -/

inductive SubscriptionItem (φ : Type) : Type where
  | committed (append : TimelineLedgerAppend φ)
  | overflowSignal
  | closedSignal
  deriving DecidableEq, Repr

/-- What a call ends with. -/
inductive Outcome (φ : Type) : Type where
  | done
  | subscribed (state : ℕ)
  | received (append : TimelineLedgerAppend φ)
  | valueError (message : String)
  /-- `TimelineFanoutOverflow` -/
  | overflow
  /-- `TimelineFanoutClosed` -/
  | closed (message : String)
  /-- it has not ended, or ends without an answer -/
  | waits
  deriving DecidableEq, Repr

/-- The answer, where there is one. -/
def Outcome.ended : Outcome φ → List (Outcome φ)
  | .waits => []
  | outcome => [outcome]

/-- The caller is told that it may have missed something, or that nothing more comes. -/
def Outcome.IsSignal : Outcome φ → Prop
  | .overflow | .closed _ => True
  | .done | .subscribed _ | .received _ | .valueError _ | .waits => False

theorem Outcome.mem_ended {o answer : Outcome φ} (h : answer ∈ o.ended) : answer = o := by
  cases o <;> first | exact List.mem_singleton.mp h | exact absurd h List.not_mem_nil

/-- What `next` makes of an item. -/
def SubscriptionItem.outcome : SubscriptionItem φ → Outcome φ
  | .committed append => .received append
  | .overflowSignal => .overflow
  | .closedSignal => .closed "timeline fanout subscription is closed"

/-- `_SubscriptionState`, with the number of calls of `next` that wait on the queue. -/
structure SubscriptionState (φ : Type) : Type where
  queue : List (SubscriptionItem φ)
  closed : Bool
  overflowed : Bool
  waiting : ℕ
  deriving DecidableEq, Repr

namespace SubscriptionState

/-- A new subscription. -/
def new : SubscriptionState φ := ⟨[], false, false, 0⟩

def replaceQueueWithSignal (state : SubscriptionState φ) (signal : SubscriptionItem φ) :
    SubscriptionState φ :=
  { state with queue := [signal] }

def offer (queueMax : ℕ+) (append : TimelineLedgerAppend φ) (state : SubscriptionState φ) :
    SubscriptionState φ :=
  if state.closed || state.overflowed then state
  else if state.queue.length < queueMax then
    { state with queue := state.queue ++ [.committed append] }
  else ({ state with overflowed := true }).replaceQueueWithSignal .overflowSignal

/-- `_dispose`, of the state. -/
def dispose (state : SubscriptionState φ) : SubscriptionState φ :=
  if state.closed then state
  else ({ state with closed := true }).replaceQueueWithSignal .closedSignal

/-- `next`, up to where it waits. -/
def next (state : SubscriptionState φ) : SubscriptionState φ × Outcome φ :=
  if state.closed then (state, .closed "timeline fanout subscription is closed")
  else if state.overflowed then (state, .overflow)
  else
    match state.queue with
    | [] => ({ state with waiting := state.waiting + 1 }, .waits)
    | item :: rest => ({ state with queue := rest }, item.outcome)

/-- A call of `next` that waits is resumed, and waits on where another was faster. -/
def resume (state : SubscriptionState φ) : SubscriptionState φ × Outcome φ :=
  if state.waiting = 0 then (state, .waits)
  else
    match state.queue with
    | [] => (state, .waits)
    | item :: rest => ({ state with queue := rest, waiting := state.waiting - 1 }, item.outcome)

/-- What can happen to a call of `next`. -/
inductive Call : Type where
  | next
  | resume
  | cancel
  deriving DecidableEq, Repr

/-- What happens to a call of `next` on the subscription. -/
def read (state : SubscriptionState φ) : Call → SubscriptionState φ × Outcome φ
  | .next => state.next
  | .resume => state.resume
  | .cancel => ({ state with waiting := state.waiting - 1 }, .waits)

end SubscriptionState

/-! ## The fan-out -/

structure InMemoryTimelineEventFanout (φ : Type) : Type where
  queueMax : ℕ+
  subscriptions : List (String × ℕ)
  states : List (SubscriptionState φ)
  closed : Bool

/-- What happens on the event loop. -/
inductive Action (φ : Type) : Type where
  | subscribe (workspaceId : String)
  | publish (append : TimelineLedgerAppend φ)
  | close
  | read (state : ℕ) (call : SubscriptionState.Call)
  | unsubscribe (state : ℕ)
  deriving DecidableEq, Repr

namespace InMemoryTimelineEventFanout

/-- `__init__`. -/
def new (queueMax : ℕ+) : InMemoryTimelineEventFanout φ := ⟨queueMax, [], [], false⟩

variable (s : InMemoryTimelineEventFanout φ)

def subscribe (workspaceId : String) : InMemoryTimelineEventFanout φ × Outcome φ :=
  let normalizedWorkspace := PyText.strip workspaceId
  if normalizedWorkspace = "" then (s, .valueError "timeline fanout workspace is required")
  else if s.closed then (s, .closed "timeline fanout is closed")
  else
    ({ s with
        subscriptions := (normalizedWorkspace, s.states.length) :: s.subscriptions
        states := s.states ++ [SubscriptionState.new] },
      .subscribed s.states.length)

def publishCommitted (append : TimelineLedgerAppend φ) : InMemoryTimelineEventFanout φ :=
  if s.closed || !append.inserted then s
  else
    { s with
      states := s.states.mapIdx fun i state =>
        if (append.event.workspaceId, i) ∈ s.subscriptions then state.offer s.queueMax append
        else state }

def dispose (i : ℕ) : InMemoryTimelineEventFanout φ :=
  { s with
    subscriptions :=
      if (s.states[i]?).any (!·.closed) then s.subscriptions.filter (·.2 ≠ i)
      else s.subscriptions
    states := s.states.modify i SubscriptionState.dispose }

def close : InMemoryTimelineEventFanout φ :=
  if s.closed then s
  else
    { s with
      closed := true
      states := s.states.mapIdx fun i state =>
        if i ∈ s.subscriptions.map Prod.snd then state.dispose else state
      subscriptions := [] }

/-- One step. -/
def step (s : InMemoryTimelineEventFanout φ) : Action φ → InMemoryTimelineEventFanout φ
  | .subscribe workspaceId => (s.subscribe workspaceId).1
  | .publish append => s.publishCommitted append
  | .close => s.close
  | .read i call => { s with states := s.states.modify i fun state => (state.read call).1 }
  | .unsubscribe i => s.dispose i

/-- What the call of a step ends with. -/
def outcome (s : InMemoryTimelineEventFanout φ) : Action φ → Outcome φ
  | .subscribe workspaceId => (s.subscribe workspaceId).2
  | .read i call => (s.states[i]?).elim .waits fun state => (state.read call).2
  | .publish _ | .close | .unsubscribe _ => .done

/-! ## One subscription -/

/-- What a step makes of the state of one subscription. -/
def react (i : ℕ) (state : SubscriptionState φ) : Action φ → SubscriptionState φ
  | .subscribe _ => state
  | .publish append =>
    if s.closed = false ∧ append.inserted = true ∧
        (append.event.workspaceId, i) ∈ s.subscriptions then
      state.offer s.queueMax append
    else state
  | .close =>
    if s.closed = false ∧ i ∈ s.subscriptions.map Prod.snd then state.dispose else state
  | .read j call => if j = i then (state.read call).1 else state
  | .unsubscribe j => if j = i then state.dispose else state

variable {s} {i : ℕ} {state : SubscriptionState φ}

theorem states_step (h : s.states[i]? = some state) (a : Action φ) :
    (s.step a).states[i]? = some (s.react i state a) := by
  have hlt : i < s.states.length := (List.getElem?_eq_some_iff.mp h).1
  have hmodify (j : ℕ) (f : SubscriptionState φ → SubscriptionState φ) :
      (s.states.modify j f)[i]? = some (if j = i then f state else state) := by
    rw [List.getElem?_modify, h]
    split <;> rfl
  cases a with
  | subscribe workspaceId =>
    rw [step, subscribe]
    split_ifs
    · exact h
    · exact h
    · exact (List.getElem?_append_left hlt).trans h
  | publish append =>
    rw [step, publishCommitted]
    cases hclosed : s.closed <;> cases hinserted : append.inserted <;>
      simp [react, hclosed, hinserted, List.getElem?_mapIdx, h]
  | close =>
    rw [step, close]
    by_cases hregistered : i ∈ s.subscriptions.map Prod.snd <;>
      cases hclosed : s.closed <;>
      simp only [react, hclosed, hregistered, List.getElem?_mapIdx, h, if_true, if_false, Option.map_some, and_true, and_false, and_self, reduceCtorEq, Bool.false_eq_true]
  | read j call => exact hmodify j _
  | unsubscribe j => exact hmodify j _

/-- What a call of `next` on a subscription is answered, when it ends with the step. -/
def reads (i : ℕ) (s : InMemoryTimelineEventFanout φ) : Action φ → List (Outcome φ)
  | .read j call => if j = i then (s.outcome (.read j call)).ended else []
  | .subscribe _ | .publish _ | .close | .unsubscribe _ => []

/-- What is published for a workspace. -/
def publishedFor (workspace : String) : Action φ → List (TimelineLedgerAppend φ)
  | .publish append =>
    if append.inserted = true ∧ append.event.workspaceId = workspace then [append] else []
  | .subscribe _ | .close | .read _ _ | .unsubscribe _ => []

end InMemoryTimelineEventFanout

/-! ## Live and cut -/

namespace SubscriptionState

variable {state : SubscriptionState φ} {published : List (TimelineLedgerAppend φ)}
  {told : List (Outcome φ)}

/-- Only signals are left to read. -/
def Cut (state : SubscriptionState φ) : Prop :=
  (state.closed = true ∨ state.overflowed = true) ∧
    ∀ item ∈ state.queue, item.outcome.IsSignal

/-- What a subscription is after so much was published for it and so much read of it. -/
inductive Course (state : SubscriptionState φ) (published : List (TimelineLedgerAppend φ)) :
    List (Outcome φ) → Prop
  | live {got left : List (TimelineLedgerAppend φ)} (hclosed : state.closed = false)
      (hoverflowed : state.overflowed = false) (hqueue : state.queue = left.map .committed)
      (hall : got ++ left = published) : Course state published (got.map .received)
  | cut {got : List (TimelineLedgerAppend φ)} {signals : List (Outcome φ)} (hcut : state.Cut)
      (hgot : got <+: published) (hsignals : ∀ o ∈ signals, o.IsSignal) :
      Course state published (got.map .received ++ signals)

theorem Cut.of_signal {signal : SubscriptionItem φ} (hsignal : signal.outcome.IsSignal)
    (hflag : state.closed = true ∨ state.overflowed = true) :
    (state.replaceQueueWithSignal signal).Cut :=
  ⟨hflag, List.forall_mem_singleton.mpr hsignal⟩

theorem Cut.offer (h : state.Cut) (queueMax : ℕ+) (append : TimelineLedgerAppend φ) :
    state.offer queueMax append = state := by
  rw [SubscriptionState.offer, if_pos (by simpa using h.1)]

theorem Cut.dispose (h : state.Cut) : state.dispose.Cut := by
  rw [SubscriptionState.dispose]
  split_ifs
  · exact h
  · exact Cut.of_signal trivial (Or.inl rfl)

theorem Cut.read (h : state.Cut) (call : Call) :
    (state.read call).1.Cut ∧ ∀ o ∈ (state.read call).2.ended, o.IsSignal := by
  cases call with
  | next =>
    have hsignal {signal : Outcome φ} (hs : signal.ended = [signal]) (ho : signal.IsSignal) :
        ∀ o ∈ signal.ended, o.IsSignal := hs ▸ List.forall_mem_singleton.mpr ho
    rcases h.1 with hclosed | hoverflowed
    · rw [SubscriptionState.read, next, if_pos hclosed]
      exact ⟨h, hsignal rfl trivial⟩
    · rw [SubscriptionState.read, next]
      split_ifs
      · exact ⟨h, hsignal rfl trivial⟩
      · exact ⟨h, hsignal rfl trivial⟩
  | resume =>
    rw [SubscriptionState.read, resume]
    split_ifs
    · exact ⟨h, nofun⟩
    · cases hqueue : state.queue with
      | nil => exact ⟨h, nofun⟩
      | cons item rest =>
        obtain ⟨hitem, hrest⟩ := List.forall_mem_cons.mp (hqueue ▸ h.2)
        exact ⟨⟨h.1, hrest⟩, fun o ho => Outcome.mem_ended ho ▸ hitem⟩
  | cancel => exact ⟨h, nofun⟩

theorem Course.take {got left : List (TimelineLedgerAppend φ)} {item : SubscriptionItem φ}
    {rest : List (SubscriptionItem φ)} (hqueue : state.queue = left.map .committed)
    (hall : got ++ left = published) (hitem : state.queue = item :: rest)
    {after : SubscriptionState φ} (hafter : after.queue = rest) (hclosed : after.closed = false)
    (hoverflowed : after.overflowed = false) :
    Course after published (got.map .received ++ item.outcome.ended) := by
  cases left with
  | nil => exact absurd (hitem.symm.trans hqueue) (List.cons_ne_nil _ _)
  | cons append left =>
    obtain ⟨rfl, rfl⟩ := List.cons.inj (hitem.symm.trans hqueue)
    have hgot : (got ++ [append]) ++ left = published := by
      rw [← hall, List.append_assoc, List.singleton_append]
    have hread := Course.live hclosed hoverflowed hafter hgot
    rw [List.map_append] at hread
    exact hread

theorem Course.offer (h : Course state published told) (queueMax : ℕ+)
    (append : TimelineLedgerAppend φ) :
    Course (state.offer queueMax append) (published ++ [append]) told := by
  cases h with
  | @live got left hclosed hoverflowed hqueue hall =>
    rw [SubscriptionState.offer, if_neg (by simp [hclosed, hoverflowed])]
    split_ifs
    · have hqueued : state.queue ++ [.committed append] = (left ++ [append]).map .committed := by
        rw [hqueue, List.map_append, List.map_singleton]
      exact Course.live hclosed hoverflowed hqueued (by rw [← hall, List.append_assoc])
    · have hgot : got <+: published ++ [append] :=
        ⟨left ++ [append], by rw [← hall, List.append_assoc]⟩
      have hsignal : ({ state with overflowed := true }.replaceQueueWithSignal .overflowSignal).Cut :=
        Cut.of_signal trivial (Or.inr rfl)
      have hcut := Course.cut hsignal hgot (List.forall_mem_nil Outcome.IsSignal)
      rw [List.append_nil] at hcut
      exact hcut
  | cut hcut hgot hsignals =>
    rw [hcut.offer]
    exact Course.cut hcut (hgot.trans (List.prefix_append _ _)) hsignals

theorem Course.dispose (h : Course state published told) :
    Course state.dispose published told := by
  cases h with
  | @live got left hclosed hoverflowed hqueue hall =>
    rw [SubscriptionState.dispose, if_neg (by simp [hclosed])]
    have hsignal : ({ state with closed := true }.replaceQueueWithSignal .closedSignal).Cut :=
      Cut.of_signal trivial (Or.inl rfl)
    have hcut := Course.cut hsignal ⟨left, hall⟩ (List.forall_mem_nil Outcome.IsSignal)
    rw [List.append_nil] at hcut
    exact hcut
  | cut hcut hgot hsignals => exact Course.cut hcut.dispose hgot hsignals

/-- **A call of `next` reads what was published next, or is told of the cut.** -/
theorem Course.read (h : Course state published told) (call : Call) :
    Course (state.read call).1 published (told ++ (state.read call).2.ended) := by
  cases h with
  | @live got left hclosed hoverflowed hqueue hall =>
    have hwaits {waiting : ℕ} : Course { state with waiting } published
        (got.map .received ++ Outcome.waits.ended) := by
      rw [Outcome.ended, List.append_nil]
      exact Course.live hclosed hoverflowed hqueue hall
    cases call with
    | next =>
      rw [SubscriptionState.read, next, if_neg (by simp [hclosed]), if_neg (by simp [hoverflowed])]
      split
      · exact hwaits
      · next item rest hitem => exact Course.take hqueue hall hitem rfl hclosed hoverflowed
    | resume =>
      rw [SubscriptionState.read, resume]
      split_ifs
      · exact hwaits
      · split
        · exact hwaits
        · next item rest hitem => exact Course.take hqueue hall hitem rfl hclosed hoverflowed
    | cancel => exact hwaits
  | cut hcut hgot hsignals =>
    obtain ⟨hread, hmore⟩ := hcut.read call
    rw [List.append_assoc]
    exact Course.cut hread hgot (List.forall_mem_append.mpr ⟨hsignals, hmore⟩)

theorem Course.grow (h : Course state published told) (hclosed : state.closed = true)
    (more : List (TimelineLedgerAppend φ)) : Course state (published ++ more) told := by
  cases h with
  | live hopen => exact absurd (hopen.symm.trans hclosed) Bool.false_ne_true
  | cut hcut hgot hsignals =>
    exact Course.cut hcut (hgot.trans (List.prefix_append _ _)) hsignals

end SubscriptionState

/-! ## Runs -/

namespace InMemoryTimelineEventFanout

open SubscriptionState Runs

variable {s t : InMemoryTimelineEventFanout φ} {i : ℕ} {workspace : String}
  {state : SubscriptionState φ} {published : List (TimelineLedgerAppend φ)}
  {told : List (Outcome φ)} {a : Action φ}

/-- The fan-out knows a subscription that is open, under its workspace and no other. -/
structure Registered (s : InMemoryTimelineEventFanout φ) (i : ℕ) (workspace : String)
    (state : SubscriptionState φ) : Prop where
  known : state.closed = false → ∀ key, (key, i) ∈ s.subscriptions ↔ key = workspace
  closed : s.closed = true → state.closed = true

/-- A subscription of a workspace, what was published for it, and what was read of it. -/
structure Follows (s : InMemoryTimelineEventFanout φ) (i : ℕ) (workspace : String)
    (published : List (TimelineLedgerAppend φ)) (told : List (Outcome φ))
    (state : SubscriptionState φ) : Prop where
  here : s.states[i]? = some state
  registered : s.Registered i workspace state
  course : state.Course published told

theorem offer_closed (state : SubscriptionState φ) (queueMax : ℕ+)
    (append : TimelineLedgerAppend φ) : (state.offer queueMax append).closed = state.closed := by
  rw [offer]
  split_ifs <;> rfl

theorem read_closed (state : SubscriptionState φ) (call : Call) :
    (state.read call).1.closed = state.closed := by
  cases call with
  | next =>
    rw [SubscriptionState.read, next]
    split_ifs
    · rfl
    · rfl
    · cases state.queue <;> rfl
  | resume =>
    rw [SubscriptionState.read, resume]
    split_ifs
    · rfl
    · cases state.queue <;> rfl
  | cancel => rfl

theorem dispose_closed (state : SubscriptionState φ) : state.dispose.closed = true := by
  rw [SubscriptionState.dispose]
  split_ifs with h
  · exact h
  · rfl

theorem Registered.step (hhere : s.states[i]? = some state)
    (h : s.Registered i workspace state) (a : Action φ) :
    (s.step a).Registered i workspace (s.react i state a) := by
  have hlt : i < s.states.length := (List.getElem?_eq_some_iff.mp hhere).1
  have hsame {t : InMemoryTimelineEventFanout φ} {after : SubscriptionState φ}
      (hclosed : t.closed = s.closed) (hsubscriptions : t.subscriptions = s.subscriptions)
      (hafter : after.closed = state.closed) : t.Registered i workspace after :=
    ⟨fun hopen => hsubscriptions ▸ h.known (hafter.symm.trans hopen),
      fun ht => hafter.trans (h.closed (hclosed.symm.trans ht))⟩
  have hgone {t : InMemoryTimelineEventFanout φ} {after : SubscriptionState φ}
      (hafter : after.closed = true) : t.Registered i workspace after :=
    ⟨fun hopen => absurd (hopen.symm.trans hafter) Bool.false_ne_true, fun _ => hafter⟩
  cases a with
  | subscribe workspaceId =>
    rw [InMemoryTimelineEventFanout.step, subscribe]
    split_ifs
    · exact h
    · exact h
    · refine ⟨fun hopen key => ?_, h.closed⟩
      rw [← h.known hopen key, List.mem_cons]
      exact or_iff_right fun heq => absurd (Prod.mk.inj heq).2 (Nat.ne_of_lt hlt)
  | publish append =>
    refine hsame ?_ ?_ ?_
    · rw [InMemoryTimelineEventFanout.step, publishCommitted]
      split_ifs <;> rfl
    · rw [InMemoryTimelineEventFanout.step, publishCommitted]
      split_ifs <;> rfl
    · rw [react]
      split_ifs
      · exact offer_closed state _ _
      · rfl
  | close =>
    rw [InMemoryTimelineEventFanout.step, InMemoryTimelineEventFanout.close, react]
    cases hclosed : s.closed with
    | true =>
      rw [if_pos rfl, if_neg fun hno => Bool.false_ne_true hno.1.symm]
      exact h
    | false =>
      rw [if_neg Bool.false_ne_true]
      refine hgone ?_
      split_ifs with hmem
      · exact dispose_closed state
      · by_contra hopen
        have hknown := (h.known (Bool.not_eq_true _ ▸ hopen) workspace).mpr rfl
        exact hmem ⟨rfl, List.mem_map.mpr ⟨_, hknown, rfl⟩⟩
  | read j call =>
    refine hsame rfl rfl ?_
    rw [react]
    split_ifs
    · exact read_closed state call
    · rfl
  | unsubscribe j =>
    rw [react]
    split_ifs with hj
    · exact hgone (dispose_closed state)
    · refine ⟨fun hopen key => ?_, h.closed⟩
      rw [← h.known hopen key, InMemoryTimelineEventFanout.step,
        InMemoryTimelineEventFanout.dispose]
      dsimp only
      split_ifs
      · rw [List.mem_filter]
        exact and_iff_left (decide_eq_true fun heq => hj heq.symm)
      · exact Iff.rfl

/-- **What a subscription is told keeps step with what is published for it.** -/
theorem Follows.step (h : Follows s i workspace published told state) (a : Action φ) :
    Follows (s.step a) i workspace (published ++ publishedFor workspace a) (told ++ s.reads i a)
      (s.react i state a) := by
  refine ⟨states_step h.here a, h.registered.step h.here a, ?_⟩
  have hsame : state.Course (published ++ []) (told ++ []) := by
    rw [List.append_nil, List.append_nil]
    exact h.course
  cases a with
  | subscribe workspaceId => exact hsame
  | publish append =>
    simp only [react, publishedFor, reads, List.append_nil]
    cases hclosed : state.closed with
    | true =>
      have hoffer : state.offer s.queueMax append = state := by
        rw [offer, if_pos (by simp [hclosed])]
      rw [hoffer, ite_self]
      exact h.course.grow hclosed _
    | false =>
      have hopen : s.closed = false :=
        Bool.eq_false_iff.mpr fun hs => Bool.false_ne_true (hclosed.symm.trans (h.registered.closed hs))
      simp only [hopen, true_and, h.registered.known hclosed]
      split_ifs
      · exact h.course.offer _ append
      · rw [List.append_nil]
        exact h.course
  | close =>
    simp only [react, publishedFor, reads, List.append_nil]
    split_ifs
    · exact h.course.dispose
    · exact h.course
  | read j call =>
    simp only [react, publishedFor, reads, List.append_nil]
    split_ifs with hj
    · rw [hj, outcome, h.here]
      exact h.course.read call
    · rw [List.append_nil]
      exact h.course
  | unsubscribe j =>
    simp only [react, publishedFor, reads, List.append_nil]
    split_ifs
    · exact h.course.dispose
    · exact h.course

/-- What the calls of `next` on a subscription are answered in a run. -/
def readsOf (i : ℕ) (s : InMemoryTimelineEventFanout φ) (as : List (Action φ)) :
    List (Outcome φ) :=
  (trace step s as).flatMap fun e => e.pre.reads i e.action

theorem Follows.run (h : Follows s i workspace published told state) (as : List (Action φ)) :
    ∃ state', Follows (run InMemoryTimelineEventFanout.step s as) i workspace
      (published ++ as.flatMap (publishedFor workspace)) (told ++ readsOf i s as) state' := by
  induction as generalizing s published told state with
  | nil =>
    refine ⟨state, ?_⟩
    simp only [readsOf, trace, List.flatMap_nil, List.append_nil, run_nil]
    exact h
  | cons a as ih =>
    obtain ⟨state', hstate'⟩ := ih (h.step a)
    refine ⟨state', ?_⟩
    simp only [readsOf, trace, List.flatMap_cons, run_cons, ← List.append_assoc]
    exact hstate'

theorem cut_step (hhere : s.states[i]? = some state) (h : state.Cut) (a : Action φ) :
    (s.react i state a).Cut ∧ ∀ o ∈ s.reads i a, o.IsSignal := by
  cases a with
  | subscribe workspaceId => exact ⟨h, nofun⟩
  | publish append =>
    rw [react, h.offer, ite_self]
    exact ⟨h, nofun⟩
  | close =>
    rw [react]
    split_ifs
    · exact ⟨h.dispose, nofun⟩
    · exact ⟨h, nofun⟩
  | read j call =>
    rw [react, reads]
    split_ifs with hj
    · rw [hj, outcome, hhere]
      exact h.read call
    · exact ⟨h, nofun⟩
  | unsubscribe j =>
    rw [react]
    split_ifs
    · exact ⟨h.dispose, nofun⟩
    · exact ⟨h, nofun⟩

/-- **Of a subscription that is cut, only signals are read.** -/
theorem cut_run (hhere : s.states[i]? = some state) (h : state.Cut) (as : List (Action φ)) :
    ∀ o ∈ readsOf i s as, o.IsSignal := by
  induction as generalizing s state with
  | nil => exact nofun
  | cons a as ih =>
    obtain ⟨hcut, hsignals⟩ := cut_step hhere h a
    rw [readsOf, trace, List.flatMap_cons]
    exact List.forall_mem_append.mpr ⟨hsignals, ih (states_step hhere a) hcut⟩

/-! ## Subscribing -/

/-- The dictionary names states that were made. -/
def Named (s : InMemoryTimelineEventFanout φ) : Prop :=
  ∀ entry ∈ s.subscriptions, entry.2 < s.states.length

theorem Named.step (s : InMemoryTimelineEventFanout φ) (a : Action φ) (h : s.Named) :
    (s.step a).Named := by
  have hmodify {f : SubscriptionState φ → SubscriptionState φ} {j : ℕ} :
      ∀ entry ∈ s.subscriptions, entry.2 < (s.states.modify j f).length := by
    rw [List.length_modify]
    exact h
  cases a with
  | subscribe workspaceId =>
    rw [InMemoryTimelineEventFanout.step, subscribe]
    split_ifs
    · exact h
    · exact h
    · intro entry hentry
      rw [List.length_append, List.length_singleton]
      rcases List.mem_cons.mp hentry with rfl | hentry
      · exact Nat.lt_succ_self _
      · exact Nat.lt_succ_of_lt (h entry hentry)
  | publish append =>
    rw [InMemoryTimelineEventFanout.step, publishCommitted]
    split_ifs
    · exact h
    · intro entry hentry
      rw [List.length_mapIdx]
      exact h entry hentry
  | close =>
    rw [InMemoryTimelineEventFanout.step, close]
    split_ifs
    · exact h
    · exact nofun
  | read j call => exact hmodify
  | unsubscribe j =>
    intro entry hentry
    rw [InMemoryTimelineEventFanout.step, dispose] at hentry ⊢
    refine hmodify entry ?_
    dsimp only at hentry
    split_ifs at hentry
    · exact (List.mem_filter.mp hentry).1
    · exact hentry

theorem follows_subscribe (hnamed : s.Named) {workspaceId : String}
    (h : s.outcome (.subscribe workspaceId) = .subscribed i) :
    Follows (s.step (.subscribe workspaceId)) i (PyText.strip workspaceId) [] [] .new := by
  rw [outcome, subscribe] at h
  rw [InMemoryTimelineEventFanout.step, subscribe]
  split_ifs at h ⊢ with hblank hclosed
  obtain rfl := Outcome.subscribed.inj h
  refine ⟨List.getElem?_concat_length, ⟨fun _ key => ?_, fun hs => absurd hs hclosed⟩, ?_⟩
  · rw [List.mem_cons, Prod.mk.injEq]
    constructor
    · rintro (⟨hkey, -⟩ | hold)
      · exact hkey
      · exact absurd (hnamed _ hold) (Nat.lt_irrefl _)
    · exact fun hkey => Or.inl ⟨hkey, rfl⟩
  · exact @Course.live _ _ _ [] [] rfl rfl rfl rfl

/-! ## Other subscribers -/

/-- An action that is not another subscriber's reading or leaving. -/
def mine (i : ℕ) : Action φ → Bool
  | .subscribe _ | .publish _ | .close => true
  | .read j _ | .unsubscribe j => j = i

/-- Fan-outs that one subscriber cannot tell apart. -/
structure Alike (i : ℕ) (s t : InMemoryTimelineEventFanout φ) : Prop where
  queueMax : s.queueMax = t.queueMax
  closed : s.closed = t.closed
  made : s.states.length = t.states.length
  here : s.states[i]? = t.states[i]?
  known : ∀ key, (key, i) ∈ s.subscriptions ↔ (key, i) ∈ t.subscriptions

theorem Alike.outcome (h : Alike i s t) (hmine : mine i a = true) :
    s.outcome a = t.outcome a := by
  cases a with
  | subscribe workspaceId => simp only [InMemoryTimelineEventFanout.outcome, subscribe, h.closed,
      h.made, apply_ite Prod.snd]
  | read j call =>
    obtain rfl : j = i := of_decide_eq_true hmine
    rw [InMemoryTimelineEventFanout.outcome, InMemoryTimelineEventFanout.outcome, h.here]
  | publish append => rfl
  | close => rfl
  | unsubscribe j => rfl

theorem Alike.modify (h : Alike i s t) (f : SubscriptionState φ → SubscriptionState φ) (j : ℕ) :
    Alike i { s with states := s.states.modify j f } { t with states := t.states.modify j f } where
  queueMax := h.queueMax
  closed := h.closed
  made := by rw [List.length_modify, List.length_modify, h.made]
  here := by rw [List.getElem?_modify, List.getElem?_modify, h.here]
  known := h.known

theorem Alike.step (h : Alike i s t) (hmine : mine i a = true) :
    Alike i (s.step a) (t.step a) := by
  cases a with
  | subscribe workspaceId =>
    rw [InMemoryTimelineEventFanout.step, InMemoryTimelineEventFanout.step, subscribe, subscribe,
      h.closed]
    split_ifs
    · exact h
    · exact h
    · refine ⟨h.queueMax, rfl, ?_, ?_, fun key => ?_⟩
      · rw [List.length_append, List.length_append, h.made]
      · rw [List.getElem?_append, List.getElem?_append, h.here, h.made]
      · rw [List.mem_cons, List.mem_cons, h.known, h.made]
  | publish append =>
    rw [InMemoryTimelineEventFanout.step, InMemoryTimelineEventFanout.step, publishCommitted,
      publishCommitted, h.closed]
    split_ifs
    · exact h
    · refine ⟨h.queueMax, rfl, ?_, ?_, h.known⟩
      · rw [List.length_mapIdx, List.length_mapIdx, h.made]
      · simp only [List.getElem?_mapIdx, h.here, h.known, h.queueMax]
  | close =>
    have hknown : i ∈ s.subscriptions.map Prod.snd ↔ i ∈ t.subscriptions.map Prod.snd := by
      simp only [List.mem_map, Prod.exists, exists_eq_right, h.known]
    rw [InMemoryTimelineEventFanout.step, InMemoryTimelineEventFanout.step, close, close, h.closed]
    split_ifs
    · exact h
    · refine ⟨h.queueMax, rfl, ?_, ?_, fun _ => Iff.rfl⟩
      · rw [List.length_mapIdx, List.length_mapIdx, h.made]
      · simp only [List.getElem?_mapIdx, h.here, hknown]
  | read j call => exact h.modify _ j
  | unsubscribe j =>
    obtain rfl : j = i := of_decide_eq_true hmine
    have hstates := h.modify SubscriptionState.dispose j
    refine ⟨h.queueMax, h.closed, hstates.made, hstates.here, fun key => ?_⟩
    rw [InMemoryTimelineEventFanout.step, InMemoryTimelineEventFanout.step, dispose, dispose,
      h.here]
    dsimp only
    split_ifs
    · rw [List.mem_filter, List.mem_filter, h.known]
    · exact h.known key

theorem Alike.other (h : Alike i s t) (hmine : mine i a = false) : Alike i (s.step a) t := by
  have hmodify {j : ℕ} (hj : j ≠ i) (f : SubscriptionState φ → SubscriptionState φ) :
      Alike i { s with states := s.states.modify j f } t := by
    refine ⟨h.queueMax, h.closed, ?_, ?_, h.known⟩
    · rw [List.length_modify, h.made]
    · simp only [List.getElem?_modify, h.here, if_neg hj, Option.map_eq_map, Option.map_id']
  cases a with
  | subscribe _ => exact absurd hmine nofun
  | publish _ => exact absurd hmine nofun
  | close => exact absurd hmine nofun
  | read j call => exact hmodify (of_decide_eq_false hmine) _
  | unsubscribe j =>
    have hj : j ≠ i := of_decide_eq_false hmine
    have hstates := hmodify hj SubscriptionState.dispose
    refine ⟨h.queueMax, h.closed, hstates.made, hstates.here, fun key => ?_⟩
    rw [← h.known key, InMemoryTimelineEventFanout.step, dispose]
    dsimp only
    split_ifs
    · rw [List.mem_filter]
      exact and_iff_left (decide_eq_true fun heq => hj heq.symm)
    · exact Iff.rfl

theorem unwinding (i : ℕ) : Purge.Unwinding (InMemoryTimelineEventFanout.step (φ := φ))
    InMemoryTimelineEventFanout.outcome (mine i) (fun _ => True) (Alike i) where
  output h _ hmine := h.outcome hmine
  consistent h _ hmine := h.step hmine
  respects h _ hmine := h.other hmine

/-! ## What a subscriber sees -/

/-- **A gap is never shown silently.** Whatever happens after a subscription was made, what is read
of it is first a prefix of what is published for its workspace, and from then on signals; while it
has neither overflowed nor been closed, nothing is missing between what was read and what is in its
queue; after it has overflowed only signals are read; and without all that the other subscribers do,
it is told the same. -/
theorem subscriber_sees_no_silent_gap (queueMax : ℕ+) (before after : List (Action φ))
    (workspaceId : String) (i : ℕ)
    (hsubscribed : (run step (new queueMax) before).outcome (.subscribe workspaceId) =
      .subscribed i) :
    let s := (run step (new queueMax) before).step (.subscribe workspaceId)
    let published := after.flatMap (publishedFor (PyText.strip workspaceId))
    (∃ got signals, readsOf i s after = got.map .received ++ signals ∧ got <+: published ∧
        ∀ o ∈ signals, o.IsSignal) ∧
      (∀ state, (run step s after).states[i]? = some state → state.closed = false →
        state.overflowed = false → ∃ got left, readsOf i s after = got.map .received ∧
          state.queue = left.map .committed ∧ got ++ left = published) ∧
      (∀ early late state, after = early ++ late → (run step s early).states[i]? = some state →
        state.overflowed = true → ∀ o ∈ readsOf i (run step s early) late, o.IsSignal) ∧
      Purge.observed step outcome (mine i) s after =
        Purge.observed step outcome (mine i) s (after.filter (mine i)) := by
  intro s published
  have hstart : Follows s i (PyText.strip workspaceId) [] [] .new :=
    follows_subscribe (run_invariant Named.step (fun _ h => absurd h List.not_mem_nil) before)
      hsubscribed
  obtain ⟨state, hstate⟩ := hstart.run after
  rw [List.nil_append, List.nil_append] at hstate
  refine ⟨?_, ?_, ?_, ?_⟩
  · obtain ⟨-, -, hcourse⟩ := hstate
    generalize readsOf i s after = told at hcourse
    cases hcourse with
    | @live got left _ _ _ hall =>
      exact ⟨got, [], (List.append_nil _).symm, ⟨left, hall⟩, nofun⟩
    | @cut got signals _ hgot hsignals => exact ⟨got, signals, rfl, hgot, hsignals⟩
  · intro state' hhere hclosed hoverflowed
    obtain rfl := Option.some.inj (hstate.here.symm.trans hhere)
    obtain ⟨-, -, hcourse⟩ := hstate
    generalize readsOf i s after = told at hcourse
    cases hcourse with
    | @live got left _ _ hqueue hall => exact ⟨got, left, rfl, hqueue, hall⟩
    | cut hcut => exact absurd hcut.1 (by simp [hclosed, hoverflowed])
  · rintro early late state' rfl hhere hoverflowed
    obtain ⟨early', hearly⟩ := hstart.run early
    obtain rfl := Option.some.inj (hearly.here.symm.trans hhere)
    refine cut_run hhere ?_ late
    obtain ⟨-, -, hcourse⟩ := hearly
    generalize [] ++ readsOf i s early = told at hcourse
    cases hcourse with
    | live _ hno => exact absurd (hno.symm.trans hoverflowed) Bool.false_ne_true
    | cut hcut => exact hcut
  · exact (unwinding i).observed_purge ⟨rfl, rfl, rfl, rfl, fun _ => Iff.rfl⟩ fun _ _ => trivial

/-- A row of the ledger that was just committed. -/
def committedRow (sequence : ℕ) : TimelineLedgerAppend ℕ :=
  ⟨⟨"team", "pod", sequence⟩, sequence, true⟩

/-- A subscriber with room for one event reads one of three, and is told of the gap. -/
theorem slow_subscriber_is_told :
    let s := (run step (new 1) []).step (.subscribe "team")
    let after : List (Action ℕ) := [.publish (committedRow 1), .read 0 .next,
      .publish (committedRow 2), .publish (committedRow 3), .read 0 .next]
    readsOf 0 s after = [.received (committedRow 1), .overflow] ∧
      ∃ got signals, readsOf 0 s after = got.map .received ++ signals ∧
        got <+: after.flatMap (publishedFor (PyText.strip "team")) ∧ ∀ o ∈ signals, o.IsSignal :=
  ⟨by decide, (subscriber_sees_no_silent_gap 1 [] _ "team" 0 (by decide)).1⟩

end InMemoryTimelineEventFanout

end Opsia.Timeline.Fanout
