import Opsia.Event.InMemory
import Opsia.Lib.Runs
import Mathlib.Data.List.Perm.Basic

/-!
# Conservation of the in-process bus

A subscription moves events between its queue, its deliveries in flight and its
delayed tasks, and forgets them at an ack; nothing else takes an event away or
brings one in. The count of an event over these places and the acks of the run so
far is the invariant: one for a published event of the subject, zero for others.
-/

namespace Opsia.Event.InMemory

open Runs

/-! ## The places of an event -/

namespace Subscription

/-- The events in the queue. -/
def queued (sub : Subscription) : List StoredEvent := sub.queue.map (·.stored)

/-- The events in flight. -/
def flying (sub : Subscription) : List StoredEvent := sub.inFlight.rows.map (·.queued.stored)

/-- The events scheduled for redelivery. -/
def delayed (sub : Subscription) : List StoredEvent := sub.delayedTasks.map (·.queued.stored)

/-- How often the subscription holds an event. -/
def copies (sub : Subscription) (e : StoredEvent) : ℕ :=
  sub.queued.count e + sub.flying.count e + sub.delayed.count e

end Subscription

/-- The event an ack takes out of the subscription of the key: the message is not
settled, and its delivery is in flight. -/
def acknowledges (key : Key) (entry : Entry InMemoryEventBus Op) : Option StoredEvent :=
  match entry.action with
  | .ack m =>
    match entry.pre.messages[m]? with
    | some message =>
      if message.settled ∨ message.subscription ≠ key then none
      else
        ((entry.pre.subscriptions.find? key).bind fun sub =>
          sub.inFlight.find? message.deliveryId).map (·.queued.stored)
    | none => none
  | _ => none

/-- The events of the subscription of the key that were acknowledged. -/
def acknowledged (key : Key) (l : List (Entry InMemoryEventBus Op)) : List StoredEvent :=
  l.filterMap (acknowledges key)

/-- What holds of a subscription of an open bus. -/
structure SubOk (events acked : List StoredEvent) (sub : Subscription) : Prop where
  opened : sub.closed = false
  /-- every event of the subject is in one place, once -/
  conserved : ∀ e, sub.copies e + acked.count e =
    if e ∈ events ∧ subjectMatches sub.subject e.subject = true then 1 else 0
  /-- the counter counts the tasks -/
  scheduled : sub.scheduled = sub.delayedTasks.length
  /-- delivery ids are used once -/
  fresh : ∀ delivery ∈ sub.inFlight.rows, delivery.deliveryId < sub.nextDeliveryId

/-- The invariant of an open bus, for the events acknowledged so far. -/
structure BusInv (acked : Key → List StoredEvent) (bus : InMemoryEventBus) : Prop where
  positions : bus.events.map (·.position) = List.range bus.events.length
  connected : bus.subscriptions.rows ≠ [] → bus.connected = true
  subs : ∀ sub ∈ bus.subscriptions.rows, SubOk bus.events (acked sub.key) sub
  unknown : ∀ key, bus.subscriptions.find? key = none → acked key = []

/-! ## Methods of a subscription -/

section

variable {events acked : List StoredEvent} {sub sub' : Subscription}

theorem SubOk.keep (h : SubOk events acked sub) (hsubject : sub'.subject = sub.subject)
    (hclosed : sub'.closed = sub.closed) (hcopies : ∀ e, sub'.copies e = sub.copies e)
    (hscheduled : sub'.scheduled - sub'.delayedTasks.length =
      sub.scheduled - sub.delayedTasks.length)
    (hfresh : ∀ delivery ∈ sub'.inFlight.rows, delivery.deliveryId < sub'.nextDeliveryId) :
    SubOk events acked sub' where
  opened := by rw [hclosed]; exact h.opened
  conserved := fun e => by rw [hcopies, hsubject]; exact h.conserved e
  scheduled := by
    have := h.scheduled
    omega
  fresh := hfresh

theorem enqueue_eq (hopen : sub.closed = false) (stored : StoredEvent) :
    sub.enqueue stored = { sub with queue := sub.queue ++ [⟨stored, false⟩] } := by
  rw [Subscription.enqueue, hopen, if_neg Bool.false_ne_true]

theorem deliverAll_spec (items : List QueuedEvent) (sub : Subscription)
    (hfresh : ∀ delivery ∈ sub.inFlight.rows, delivery.deliveryId < sub.nextDeliveryId) :
    ∃ n t r, (sub.deliverAll items).2 =
        { sub with nextDeliveryId := n, inFlight := t, redelivered := r } ∧
      (∀ delivery ∈ t.rows, delivery.deliveryId < n) ∧
      t.rows.map (·.queued.stored) = sub.flying ++ items.map (·.stored) := by
  induction items generalizing sub with
  | nil => exact ⟨_, _, _, rfl, hfresh, (List.append_nil _).symm⟩
  | cons item items ih =>
    -- the id of the delivery is new
    have hnew : sub.inFlight.find? sub.nextDeliveryId = none :=
      Table.find?_eq_none.mpr fun delivery hmem => Nat.ne_of_lt (hfresh delivery hmem)
    have hrows : (sub.deliver item).2.inFlight.rows =
        sub.inFlight.rows ++ [⟨sub.nextDeliveryId, item⟩] := Table.rows_put_of_none hnew
    obtain ⟨n, t, r, heq, hlt, hflying⟩ := ih (sub.deliver item).2 (by
      intro delivery hmem
      rw [hrows] at hmem
      rcases List.mem_append.mp hmem with hmem | hmem
      · exact Nat.lt_succ_of_lt (hfresh delivery hmem)
      · rw [List.mem_singleton.mp hmem]
        exact Nat.lt_succ_self _)
    refine ⟨n, t, r, heq, hlt, ?_⟩
    rw [hflying, Subscription.flying, hrows, List.map_append, List.append_assoc]
    rfl

theorem SubOk.takeBatch (h : SubOk events acked sub) (batch : ℤ) :
    SubOk events acked (sub.takeBatch batch).2 := by
  obtain ⟨n, t, r, heq, hfresh, hflying⟩ := deliverAll_spec (sub.queue.take batch.toNat)
    { sub with queue := sub.queue.drop batch.toNat } h.fresh
  rw [Subscription.takeBatch, heq]
  refine h.keep rfl rfl (fun e => ?_) rfl hfresh
  have hqueue : sub.queued.count e = ((sub.queue.take batch.toNat).map (·.stored)).count e +
      ((sub.queue.drop batch.toNat).map (·.stored)).count e := by
    rw [← List.count_append, ← List.map_append, List.take_append_drop]
    rfl
  have hflight : (t.rows.map (·.queued.stored)).count e = sub.flying.count e +
      ((sub.queue.take batch.toNat).map (·.stored)).count e := by
    rw [hflying, List.count_append]
    rfl
  change ((sub.queue.drop batch.toNat).map (·.stored)).count e +
    (t.rows.map (·.queued.stored)).count e + sub.delayed.count e = sub.copies e
  rw [Subscription.copies]
  omega

theorem SubOk.wait (h : SubOk events acked sub) (waiting : List Waiter) :
    SubOk events acked { sub with waiting } := h.keep rfl rfl (fun _ => rfl) rfl h.fresh

theorem count_flying_erase {delivery : Delivery} {deliveryId : ℕ}
    (hfind : sub.inFlight.find? deliveryId = some delivery) (e : StoredEvent) :
    sub.flying.count e = ((sub.inFlight.erase deliveryId).rows.map (·.queued.stored)).count e +
      [delivery.queued.stored].count e := by
  have hperm := (Table.perm_erase hfind).map (·.queued.stored)
  rw [Subscription.flying, hperm.count_eq, List.map_cons, ← List.singleton_append,
    List.count_append, Nat.add_comm]

theorem erase_of_none {deliveryId : ℕ} (hfind : sub.inFlight.find? deliveryId = none) :
    (sub.inFlight.erase deliveryId).rows = sub.inFlight.rows :=
  List.filter_eq_self.mpr fun delivery hmem => by
    simpa using Table.find?_eq_none.mp hfind delivery hmem

theorem SubOk.fresh_erase (h : SubOk events acked sub) (deliveryId : ℕ) :
    ∀ delivery ∈ (sub.inFlight.erase deliveryId).rows, delivery.deliveryId < sub.nextDeliveryId :=
  fun delivery hmem => h.fresh delivery (Table.mem_of_mem_erase hmem)

theorem SubOk.nak (h : SubOk events acked sub) (deliveryId : ℕ) (delay : ℤ) :
    SubOk events acked (sub.nak deliveryId delay) := by
  rw [Subscription.nak]
  rcases hfind : sub.inFlight.find? deliveryId with _ | delivery
  · refine h.keep rfl rfl (fun e => ?_) rfl (h.fresh_erase deliveryId)
    change sub.queued.count e + ((sub.inFlight.erase deliveryId).rows.map _).count e + _ = _
    rw [erase_of_none hfind]
    rfl
  · have hcount := fun e => count_flying_erase hfind e
    have hopen : ¬ sub.closed = true := by
      rw [h.opened]
      exact Bool.false_ne_true
    dsimp only
    rw [if_neg hopen]
    split
    · -- back to the queue
      refine h.keep rfl rfl (fun e => ?_) rfl (h.fresh_erase deliveryId)
      have he := hcount e
      simp only [Subscription.copies, Subscription.queued, Subscription.flying,
        Subscription.delayed, List.map_append, List.map_cons, List.map_nil,
        List.count_append] at he ⊢
      omega
    · -- to a delayed task
      refine h.keep rfl rfl (fun e => ?_) ?_ (h.fresh_erase deliveryId)
      · have he := hcount e
        simp only [Subscription.copies, Subscription.queued, Subscription.flying,
          Subscription.delayed, List.map_append, List.map_cons, List.map_nil,
          List.count_append] at he ⊢
        omega
      · change sub.scheduled + 1 - ((sub.delayedTasks ++ [_]).length : ℕ) = _
        rw [List.length_append, List.length_singleton]
        omega

theorem SubOk.beginSleep (h : SubOk events acked sub) (j : ℕ) :
    SubOk events acked (sub.beginSleep j) := by
  have hdelayed : (sub.beginSleep j).delayed = sub.delayed := by
    refine List.ext_getElem? fun i => ?_
    change ((sub.delayedTasks.modify j _).map _)[i]? = (sub.delayedTasks.map _)[i]?
    rw [List.getElem?_map, List.getElem?_map, List.getElem?_modify]
    cases sub.delayedTasks[i]? with
    | none => rfl
    | some task => by_cases hj : j = i <;> simp [hj]
  refine h.keep rfl rfl (fun e => ?_) ?_ h.fresh
  · rw [Subscription.copies, hdelayed]
    rfl
  · change sub.scheduled - ((sub.delayedTasks.modify j _).length : ℕ) = _
    rw [List.length_modify]

theorem SubOk.requeue (h : SubOk events acked sub) (j : ℕ) :
    SubOk events acked (sub.requeue j) := by
  rw [Subscription.requeue]
  split
  · rename_i task htask
    split
    · obtain ⟨hlt, hget⟩ := List.getElem?_eq_some_iff.mp htask
      have hperm := List.getElem_cons_eraseIdx_perm hlt
      rw [hget] at hperm
      have hopen : ¬ sub.closed = true := by
        rw [h.opened]
        exact Bool.false_ne_true
      rw [if_neg hopen]
      refine h.keep rfl rfl (fun e => ?_) ?_ h.fresh
      · have he := (hperm.map (·.queued.stored)).count_eq e
        rw [List.map_cons, ← List.singleton_append, List.count_append] at he
        simp only [Subscription.copies, Subscription.queued, Subscription.flying,
          Subscription.delayed, List.map_append, List.map_cons, List.map_nil, List.count_append]
        omega
      · have hlen := hperm.length_eq
        rw [List.length_cons] at hlen
        change sub.scheduled - 1 - ((sub.delayedTasks.eraseIdx j).length : ℕ) = _
        omega
    · exact h
  · exact h

theorem SubOk.ack (h : SubOk events acked sub) (deliveryId : ℕ) :
    SubOk events
      (acked ++ ((sub.inFlight.find? deliveryId).map (·.queued.stored)).toList)
      (sub.ack deliveryId) := by
  refine ⟨h.opened, fun e => ?_, h.scheduled, h.fresh_erase deliveryId⟩
  have hconserved := h.conserved e
  rcases hfind : sub.inFlight.find? deliveryId with _ | delivery
  · have hrows := erase_of_none hfind
    have hcopies : (sub.ack deliveryId).copies e = sub.copies e := by
      change sub.queued.count e + ((sub.inFlight.erase deliveryId).rows.map _).count e + _ = _
      rw [hrows]
      rfl
    rw [hcopies, Option.map_none, Option.toList_none, List.append_nil]
    exact hconserved
  · have hcount := count_flying_erase hfind e
    have hcopies : sub.copies e =
        (sub.ack deliveryId).copies e + [delivery.queued.stored].count e := by
      change sub.queued.count e + sub.flying.count e + sub.delayed.count e = sub.queued.count e +
        ((sub.inFlight.erase deliveryId).rows.map _).count e + sub.delayed.count e + _
      omega
    rw [Option.map_some, Option.toList_some, List.count_append]
    change (sub.ack deliveryId).copies e + (acked.count e + _) = _
    rw [hcopies] at hconserved
    change _ = if e ∈ events ∧ subjectMatches sub.subject e.subject = true then 1 else 0
    omega

theorem key_takeBatch (h : SubOk events acked sub) (batch : ℤ) :
    (sub.takeBatch batch).2.key = sub.key := by
  obtain ⟨n, t, r, heq, -⟩ := deliverAll_spec (sub.queue.take batch.toNat)
    { sub with queue := sub.queue.drop batch.toNat } h.fresh
  rw [Subscription.takeBatch, heq]
  rfl

theorem key_nak (sub : Subscription) (deliveryId : ℕ) (delay : ℤ) :
    (sub.nak deliveryId delay).key = sub.key := by
  rw [Subscription.nak]
  cases sub.inFlight.find? deliveryId with
  | none => rfl
  | some delivery =>
    dsimp only
    split
    · rfl
    · split <;> rfl

theorem key_requeue (sub : Subscription) (j : ℕ) : (sub.requeue j).key = sub.key := by
  rw [Subscription.requeue]
  split
  · split <;> rfl
  · rfl

/-- What `fetch` returns. -/
theorem SubOk.fetch (h : SubOk events acked sub) {batch : ℤ} {timeout : Option Rat}
    {fetched : List Message × Subscription} (hfetch : sub.fetch batch timeout = .ok fetched) :
    SubOk events acked fetched.2 ∧ fetched.2.key = sub.key := by
  unfold Subscription.fetch at hfetch
  split at hfetch
  · cases hfetch
  · split at hfetch
    · cases hfetch
    · split at hfetch
      · cases hfetch
        exact ⟨h.takeBatch batch, key_takeBatch h batch⟩
      · split at hfetch
        · cases hfetch
          exact ⟨h.wait _, rfl⟩
        · split at hfetch
          · cases hfetch
          · cases hfetch
            exact ⟨h.wait _, rfl⟩

/-- What a woken `fetch` returns. -/
theorem SubOk.wake (h : SubOk events acked sub) (w : ℕ) :
    SubOk events acked (sub.wake w).2 ∧ (sub.wake w).2.key = sub.key := by
  rw [Subscription.wake]
  split
  · rename_i waiter hw
    split
    · have hwait := h.wait (sub.waiting.eraseIdx w)
      exact ⟨hwait.takeBatch waiter.batch, key_takeBatch hwait waiter.batch⟩
    · exact ⟨h, rfl⟩
  · exact ⟨h, rfl⟩

theorem replay_eq (events : List StoredEvent) (subject : String) (sub : Subscription)
    (hopen : sub.closed = false) :
    InMemoryEventBus.replay events subject sub = { sub with
      queue := sub.queue ++
        (events.filter fun e => subjectMatches subject e.subject).map (⟨·, false⟩) } := by
  induction events generalizing sub with
  | nil =>
    change sub = { sub with queue := sub.queue ++ [] }
    rw [List.append_nil]
  | cons e events ih =>
    have hstep : InMemoryEventBus.replay (e :: events) subject sub =
        InMemoryEventBus.replay events subject
          (if subjectMatches subject e.subject then sub.enqueue e else sub) := rfl
    rw [hstep]
    by_cases hmatch : subjectMatches subject e.subject = true
    · rw [if_pos hmatch, enqueue_eq hopen, ih { sub with queue := sub.queue ++ [⟨e, false⟩] } hopen,
        List.filter_cons, if_pos hmatch, List.map_cons]
      simp
    · rw [if_neg hmatch, ih sub hopen, List.filter_cons, if_neg hmatch]

theorem subOk_replay (hnodup : events.Nodup) (subject durable : String) :
    SubOk events [] (InMemoryEventBus.replay events subject (.new subject durable)) ∧
      (InMemoryEventBus.replay events subject (.new subject durable)).key = (subject, durable) := by
  rw [replay_eq events subject _ rfl]
  refine ⟨⟨rfl, fun e => ?_, rfl, fun _ hmem => absurd hmem List.not_mem_nil⟩, rfl⟩
  have hqueued : Subscription.copies { Subscription.new subject durable with
      queue := (Subscription.new subject durable).queue ++
        (events.filter fun e => subjectMatches subject e.subject).map (⟨·, false⟩) } e =
      (events.filter fun e => subjectMatches subject e.subject).count e := by
    simp [Subscription.copies, Subscription.queued, Subscription.flying, Subscription.delayed,
      Subscription.new, Function.comp_def]
  rw [hqueued, (hnodup.filter _).count, List.count_nil, Nat.add_zero]
  simp only [List.mem_filter]
  rfl

end

/-! ## Steps of the bus -/

section

variable {acked acked' : Key → List StoredEvent} {bus : InMemoryEventBus} {key : Key}
  {sub sub' : Subscription}

theorem BusInv.set (h : BusInv acked bus) (hfind : bus.subscriptions.find? key = some sub)
    (hkey : sub'.key = key) (hok : SubOk bus.events (acked' key) sub')
    (hother : ∀ k, k ≠ key → acked' k = acked k) : BusInv acked' (bus.set sub') where
  positions := h.positions
  connected := fun _ => h.connected (List.ne_nil_of_mem (Table.mem_of_find? hfind))
  subs := by
    intro x hx
    rcases Table.mem_put hx with rfl | ⟨hx, hne⟩
    · rw [hkey]
      exact hok
    · rw [hkey] at hne
      rw [hother _ hne]
      exact h.subs x hx
  unknown := by
    intro k hk
    have hput : (bus.subscriptions.put sub').find? k = none := hk
    rw [Table.find?_put] at hput
    by_cases hk' : k = sub'.key
    · rw [if_pos hk'] at hput
      cases hput
    · rw [if_neg hk'] at hput
      rw [hother k (hkey ▸ hk')]
      exact h.unknown k hput

theorem BusInv.withMessages (h : BusInv acked bus) (messages : List Message) :
    BusInv acked { bus with messages } := ⟨h.positions, h.connected, h.subs, h.unknown⟩

theorem BusInv.subOk (h : BusInv acked bus) (hfind : bus.subscriptions.find? key = some sub) :
    SubOk bus.events (acked key) sub ∧ sub.key = key := by
  have hkey := Table.key_of_find? hfind
  have hok := h.subs sub (Table.mem_of_find? hfind)
  rw [hkey] at hok
  exact ⟨hok, hkey⟩

theorem BusInv.mutate (h : BusInv acked bus) {method : Subscription → Subscription}
    (hmethod : ∀ sub, SubOk bus.events (acked key) sub →
      SubOk bus.events (acked key) (method sub) ∧ (method sub).key = sub.key) :
    BusInv acked (bus.mutate key method) := by
  rw [InMemoryEventBus.mutate]
  split
  · rename_i sub hfind
    obtain ⟨hok, hkey⟩ := h.subOk hfind
    obtain ⟨hok', hkey'⟩ := hmethod sub hok
    exact h.set hfind (hkey'.trans hkey) hok' fun _ _ => rfl
  · exact h

theorem BusInv.handOut (h : BusInv acked bus) {fetched : List Message × Subscription}
    (hfind : bus.subscriptions.find? key = some sub)
    (hfetched : SubOk bus.events (acked key) fetched.2 ∧ fetched.2.key = sub.key) :
    BusInv acked (bus.handOut fetched) :=
  (h.set hfind (hfetched.2.trans (h.subOk hfind).2) hfetched.1 fun _ _ => rfl).withMessages _

theorem BusInv.notMem (h : BusInv acked bus) {stored : StoredEvent}
    (hposition : stored.position = bus.events.length) : stored ∉ bus.events := by
  intro hmem
  have hrange := List.mem_map_of_mem (f := (·.position)) hmem
  rw [h.positions, hposition] at hrange
  exact Nat.lt_irrefl _ (List.mem_range.mp hrange)

/-- A published event comes to the subscriptions of its subject. -/
theorem BusInv.store (h : BusInv acked bus) (hconnected : bus.connected = true)
    {stored : StoredEvent} (hposition : stored.position = bus.events.length) :
    BusInv acked (bus.store stored) where
  positions := by
    change (bus.events ++ [stored]).map _ = List.range (bus.events ++ [stored]).length
    rw [List.map_append, h.positions, List.length_append, List.length_singleton, List.range_succ,
      ← hposition]
    rfl
  connected := fun _ => hconnected
  subs := by
    intro x hx
    have hnew := h.notMem hposition
    have hevents : ∀ e, e ∈ bus.events ++ [stored] ↔ e ∈ bus.events ∨ e = stored := fun e => by
      rw [List.mem_append, List.mem_singleton]
    change SubOk (bus.events ++ [stored]) (acked x.key) x
    rcases Table.mem_modifyWhere (fun sub => sub.key_enqueue stored) hx with
      ⟨sub, hsub, hmatch, rfl⟩ | ⟨hsub, hmatch⟩
    · have hok := h.subs sub hsub
      rw [sub.key_enqueue, enqueue_eq hok.opened]
      refine ⟨hok.opened, fun e => ?_, hok.scheduled, hok.fresh⟩
      have hcopies : Subscription.copies { sub with queue := sub.queue ++ [⟨stored, false⟩] } e =
          sub.copies e + [stored].count e := by
        simp only [Subscription.copies, Subscription.queued, Subscription.flying,
          Subscription.delayed, List.map_append, List.map_cons, List.map_nil, List.count_append]
        omega
      have hconserved := hok.conserved e
      rw [hcopies]
      by_cases he : e = stored
      · -- the new event was nowhere
        subst he
        rw [if_neg fun hmem => hnew hmem.1] at hconserved
        rw [if_pos ⟨(hevents e).mpr (Or.inr rfl), hmatch⟩, List.count_singleton_self]
        omega
      · have hcount : [stored].count e = 0 :=
          List.count_eq_zero.mpr fun hmem => he (List.mem_singleton.mp hmem)
        rw [hcount, Nat.add_zero, hconserved]
        simp only [hevents, he, or_false]
    · have hok := h.subs x hsub
      refine ⟨hok.opened, fun e => ?_, hok.scheduled, hok.fresh⟩
      rw [hok.conserved e]
      by_cases he : e = stored
      · subst he
        rw [if_neg fun hmem => hnew hmem.1, if_neg fun hmem => ?_]
        rw [hmatch] at hmem
        exact Bool.false_ne_true hmem.2
      · simp only [hevents, he, or_false]
  unknown := by
    intro k hk
    refine h.unknown k (Table.find?_eq_none.mpr fun sub hsub hkey => ?_)
    obtain ⟨x, hx, hxsub⟩ := Table.exists_mem_modifyWhere
      (fun sub => subjectMatches sub.subject stored.subject)
      (f := (·.enqueue stored)) (fun sub => sub.key_enqueue stored) hsub
    refine Table.find?_eq_none.mp hk x hx ?_
    rw [hxsub]
    split
    · rw [sub.key_enqueue, hkey]
    · exact hkey

theorem BusInv.nodup (h : BusInv acked bus) : bus.events.Nodup := by
  refine List.Nodup.of_map (·.position) ?_
  rw [h.positions]
  exact List.nodup_range

theorem BusInv.subscribe (h : BusInv acked bus) (hconnected : bus.connected = true)
    {subject durable : String} (hnew : bus.subscriptions.find? (subject, durable) = none) :
    BusInv acked { bus with
      subscriptions := bus.subscriptions.put
        (InMemoryEventBus.replay bus.events subject (.new subject durable)) } := by
  obtain ⟨hok, hkey⟩ := subOk_replay h.nodup subject durable
  generalize InMemoryEventBus.replay bus.events subject (.new subject durable) = sub at hok hkey
  refine ⟨h.positions, fun _ => hconnected, fun x hx => ?_, fun k hk => ?_⟩
  · rcases Table.mem_put hx with rfl | ⟨hx, -⟩
    · rw [hkey, h.unknown _ hnew]
      exact hok
    · exact h.subs x hx
  · change (bus.subscriptions.put sub).find? k = none at hk
    rw [Table.find?_put] at hk
    split at hk
    · cases hk
    · exact h.unknown k hk

/-- What an entry adds to the acknowledged events. -/
def extend (acked : Key → List StoredEvent) (entry : Entry InMemoryEventBus Op) :
    Key → List StoredEvent := fun key => acked key ++ (acknowledges key entry).toList

theorem extend_of_none {entry : Entry InMemoryEventBus Op}
    (h : ∀ key, acknowledges key entry = none) : extend acked entry = acked := by
  funext key
  rw [extend, h, Option.toList_none, List.append_nil]

theorem acknowledges_of_open {m : ℕ} {message : Message} (hm : bus.messages[m]? = some message)
    (hopen : message.settled = false) (post : InMemoryEventBus) :
    acknowledges key ⟨bus, .ack m, post⟩ =
      if message.subscription ≠ key then none
      else ((bus.subscriptions.find? key).bind fun sub =>
        sub.inFlight.find? message.deliveryId).map (·.queued.stored) := by
  simp only [acknowledges, hm, hopen, Bool.false_eq_true, false_or]

theorem BusInv.ackStep (h : BusInv acked bus) {m : ℕ} {message : Message}
    (hm : bus.messages[m]? = some message) (hopen : message.settled = false)
    (post : InMemoryEventBus) :
    BusInv (extend acked ⟨bus, .ack m, post⟩)
      ((bus.settle m).mutate message.subscription (·.ack message.deliveryId)) := by
  rw [InMemoryEventBus.mutate]
  split
  · -- the delivery is popped
    rename_i sub hfind
    have hfind' : bus.subscriptions.find? message.subscription = some sub := hfind
    obtain ⟨hok, hkey⟩ := h.subOk hfind'
    refine (h.withMessages _).set hfind hkey ?_ fun k hk => ?_
    · rw [extend, acknowledges_of_open hm hopen, if_neg (not_not_intro rfl), hfind',
        Option.bind_some]
      exact hok.ack message.deliveryId
    · rw [extend, acknowledges_of_open hm hopen, if_pos (Ne.symm hk), Option.toList_none,
        List.append_nil]
  · rename_i hfind
    have hfind' : bus.subscriptions.find? message.subscription = none := hfind
    rw [extend_of_none fun key => ?_]
    · exact h.withMessages _
    · rw [acknowledges_of_open hm hopen]
      split
      · rfl
      · rename_i hkey
        rw [← not_not.mp hkey, hfind']
        rfl

theorem mutate_frame (bus : InMemoryEventBus) (key : Key) (method : Subscription → Subscription) :
    (bus.mutate key method).closed = bus.closed ∧
      (bus.mutate key method).messages = bus.messages := by
  rw [InMemoryEventBus.mutate]
  split <;> exact ⟨rfl, rfl⟩

theorem step_busInv (encode : EventEnvelope → Except PyError (List UInt8)) (op : Op)
    (h : BusInv acked bus) (hopen : (step encode bus op).closed = false) :
    BusInv (extend acked ⟨bus, op, step encode bus op⟩) (step encode bus op) := by
  generalize hbus' : step encode bus op = bus' at hopen
  have hstep : Step encode bus op bus' := hbus' ▸ step_spec encode bus op
  cases hstep with
  | acked m message hm hsettled => exact h.ackStep hm hsettled _
  | idle op hack =>
    rw [extend_of_none fun key => ?_]
    · exact h
    · -- an idle ack is of a settled message
      rw [acknowledges]
      split
      · split
        · rename_i hop _ message hm
          rw [if_pos (Or.inl (hack _ message hop hm))]
        · rfl
      · rfl
  | connected =>
    rw [extend_of_none fun _ => rfl]
    exact ⟨h.positions, fun _ => rfl, h.subs, h.unknown⟩
  | published evt data hconnected =>
    rw [extend_of_none fun _ => rfl]
    exact h.store hconnected rfl
  | subscribed subject durable hconnected hnew =>
    rw [extend_of_none fun _ => rfl]
    exact h.subscribe hconnected hnew
  | fetched key batch timeout sub result hfind hfetch =>
    rw [extend_of_none fun _ => rfl]
    exact h.handOut hfind ((h.subOk hfind).1.fetch hfetch)
  | woken key w sub hfind =>
    rw [extend_of_none fun _ => rfl]
    exact h.handOut hfind ((h.subOk hfind).1.wake w)
  | abandoned key w =>
    rw [extend_of_none fun _ => rfl]
    exact h.mutate fun sub hok => ⟨hok.wait _, rfl⟩
  | naked m delay message hm =>
    rw [extend_of_none fun _ => rfl]
    exact (h.withMessages _).mutate fun sub hok => ⟨hok.nak _ delay, key_nak sub _ delay⟩
  | sleeping key j =>
    rw [extend_of_none fun _ => rfl]
    exact h.mutate fun sub hok => ⟨hok.beginSleep j, rfl⟩
  | requeued key j =>
    rw [extend_of_none fun _ => rfl]
    exact h.mutate fun sub hok => ⟨hok.requeue j, key_requeue sub j⟩
  | closed => cases hopen
  | closedSubscription key hclosed =>
    rw [(mutate_frame bus key _).1, hclosed] at hopen
    cases hopen

end

/-! ## Closed buses and settled messages -/

/-- The message `m` is settled. -/
def InMemoryEventBus.settledAt (bus : InMemoryEventBus) (m : ℕ) : Prop :=
  ∃ message, bus.messages[m]? = some message ∧ message.settled = true

/-- Closed buses stay closed, settled messages stay settled. -/
structure Evolves (bus bus' : InMemoryEventBus) : Prop where
  closed : bus.closed = true → bus'.closed = true
  settled : ∀ m, bus.settledAt m → bus'.settledAt m

variable {bus : InMemoryEventBus}

theorem Evolves.of_append {bus' : InMemoryEventBus} {messages : List Message}
    (hclosed : bus.closed = true → bus'.closed = true)
    (hmessages : bus'.messages = bus.messages ++ messages) : Evolves bus bus' where
  closed := hclosed
  settled := by
    rintro m ⟨message, hm, hsettled⟩
    have hlt := (List.getElem?_eq_some_iff.mp hm).1
    exact ⟨message, by rw [hmessages, List.getElem?_append_left hlt]; exact hm, hsettled⟩

theorem settledAt_of_messages {bus' : InMemoryEventBus} {m : ℕ} (h : bus.settledAt m)
    (hmessages : bus'.messages = bus.messages) : bus'.settledAt m := by
  obtain ⟨message, hm, hsettled⟩ := h
  exact ⟨message, by rw [hmessages]; exact hm, hsettled⟩

theorem settledAt_settle {m : ℕ} {message : Message} (hm : bus.messages[m]? = some message) :
    (bus.settle m).settledAt m := by
  have hget : (bus.settle m).messages[m]? = some { message with settled := true } := by
    change (bus.messages.modify m _)[m]? = _
    rw [List.getElem?_modify_eq, hm]
    rfl
  exact ⟨_, hget, rfl⟩

theorem Evolves.of_settle (bus : InMemoryEventBus) (m : ℕ) (key : Key)
    (method : Subscription → Subscription) : Evolves bus ((bus.settle m).mutate key method) where
  closed := fun h => by
    rw [(mutate_frame _ key method).1]
    exact h
  settled := by
    rintro m' ⟨message, hm, hsettled⟩
    refine settledAt_of_messages ?_ (mutate_frame _ key method).2
    by_cases hne : m = m'
    · subst hne
      exact settledAt_settle hm
    · exact ⟨message, (List.getElem?_modify_ne _ _ hne).trans hm, hsettled⟩

theorem step_evolves (encode : EventEnvelope → Except PyError (List UInt8))
    (bus : InMemoryEventBus) (op : Op) : Evolves bus (step encode bus op) := by
  have hsame : ∀ bus' : InMemoryEventBus, (bus.closed = true → bus'.closed = true) →
      bus'.messages = bus.messages → Evolves bus bus' := fun bus' hclosed hmessages =>
    .of_append hclosed (hmessages.trans (List.append_nil _).symm)
  have hmutate : ∀ key method, Evolves bus (bus.mutate key method) := by
    intro key method
    obtain ⟨hclosed, hmessages⟩ := mutate_frame bus key method
    exact hsame _ (fun h => by rw [hclosed]; exact h) hmessages
  generalize hbus' : step encode bus op = bus'
  have hstep : Step encode bus op bus' := hbus' ▸ step_spec encode bus op
  cases hstep with
  | idle | connected | published | subscribed => exact hsame _ (fun h => h) rfl
  | fetched | woken => exact .of_append (fun h => h) rfl
  | abandoned | sleeping | requeued | closedSubscription => exact hmutate _ _
  | acked m message | naked m delay message => exact .of_settle bus m _ _
  | closed => exact hsame _ (fun _ => rfl) rfl

/-- The step acks or naks the message `m`. -/
def Op.handles (m : ℕ) : Op → Prop
  | .ack m' | .nak m' _ => m' = m
  | _ => False

/-- The step acks or naks the message `m`, and does not raise. -/
def Op.settles (m : ℕ) : Op → Prop
  | .ack m' => m' = m
  | .nak m' delay => m' = m ∧ 0 ≤ delay
  | _ => False

/-- Acks and naks of a settled message do nothing. -/
theorem step_of_settled (encode : EventEnvelope → Except PyError (List UInt8)) {op : Op} {m : ℕ}
    (h : bus.settledAt m) (hop : op.handles m) :
    step encode bus op = bus := by
  obtain ⟨message, hm, hsettled⟩ := h
  cases op with
  | ack m' =>
    subst hop
    simp only [step, InMemoryEventBus.ack, hm, hsettled, if_true]
  | nak m' delay =>
    subst hop
    simp only [step, InMemoryEventBus.nak, hm, hsettled, if_true]
    split <;> rfl
  | _ => exact hop.elim

theorem settledAt_of_settles (encode : EventEnvelope → Except PyError (List UInt8)) {op : Op}
    {m : ℕ} {message : Message} (hm : bus.messages[m]? = some message) (hop : op.settles m) :
    (step encode bus op).settledAt m := by
  by_cases hsettled : message.settled = true
  · exact (step_evolves encode bus op).settled m ⟨message, hm, hsettled⟩
  · have hmutate : ∀ method, ((bus.settle m).mutate message.subscription method).settledAt m :=
      fun method => settledAt_of_messages (settledAt_settle hm) (mutate_frame _ _ method).2
    cases op with
    | ack m' =>
      subst hop
      simp only [step, InMemoryEventBus.ack, hm, if_neg hsettled]
      exact hmutate _
    | nak m' delay =>
      obtain ⟨rfl, hdelay⟩ := hop
      simp only [step, InMemoryEventBus.nak, hm, if_neg hsettled, if_neg (Int.not_lt.mpr hdelay)]
      exact hmutate _
    | _ => exact hop.elim

/-! ## Runs -/

/-- The earlier entry acks or naks a message that was handed out, and the later one
does it again without an effect. -/
def SettlesOnce (entry entry' : Entry InMemoryEventBus Op) : Prop :=
  ∀ m, m < entry.pre.messages.length → entry.action.settles m → entry'.action.handles m →
    entry'.post = entry'.pre

/-- The invariant holds after every run that leaves the bus open. -/
theorem run_busInv (encode : EventEnvelope → Except PyError (List UInt8)) (ops : List Op)
    (hopen : (run (step encode) .init ops).closed = false) :
    BusInv (acknowledged · (trace (step encode) .init ops)) (run (step encode) .init ops) := by
  refine run_history_invariant (P := fun l bus => bus.closed = false →
    BusInv (acknowledged · l) bus) (fun l bus op ih hopen => ?_) (fun _ => ?_) ops hopen
  · have hbefore : bus.closed = false := by
      rcases hclosed : bus.closed with _ | _
      · rfl
      · rw [(step_evolves encode bus op).closed hclosed] at hopen
        cases hopen
    have hstep := step_busInv encode op (ih hbefore) hopen
    have hextend : (acknowledged · (l ++ [⟨bus, op, step encode bus op⟩])) =
        extend (acknowledged · l) ⟨bus, op, step encode bus op⟩ := by
      funext key
      rw [acknowledged, List.filterMap_append, extend, List.filterMap_cons, List.filterMap_nil]
      rcases acknowledges key ⟨bus, op, step encode bus op⟩ with _ | e <;> rfl
    rw [hextend]
    exact hstep
  · exact ⟨rfl, fun h => absurd rfl h, fun _ hsub => absurd hsub List.not_mem_nil, fun _ _ => rfl⟩

/-- Every event is in one of the places of the subscription, or acknowledged in
the run `l`: once if it is a published event of the subject, never otherwise. -/
def Conserved (l : List (Entry InMemoryEventBus Op)) (bus : InMemoryEventBus)
    (sub : Subscription) : Prop :=
  ∀ e, sub.queued.count e + sub.flying.count e + sub.delayed.count e +
      (acknowledged sub.key l).count e =
    if e ∈ bus.events ∧ subjectMatches sub.subject e.subject = true then 1 else 0

/-- `consumer_metrics` reports the sizes of the places. -/
def Measured (bus : InMemoryEventBus) (sub : Subscription) : Prop :=
  bus.consumerMetrics sub.subject sub.durable = .ok
    { stream := streamName
      subject := sub.subject
      durable := sub.durable
      pending := (sub.queued.length + sub.delayed.length : ℕ)
      ackPending := sub.flying.length
      redelivered := sub.redelivered }

theorem consumerMetrics_of_mem {sub : Subscription} (hsub : sub ∈ bus.subscriptions.rows)
    (hconnected : bus.connected = true) :
    bus.consumerMetrics sub.subject sub.durable = .ok sub.metrics := by
  have hfind : bus.subscriptions.find? (sub.subject, sub.durable) = some sub :=
    Table.find?_of_mem hsub
  rw [InMemoryEventBus.consumerMetrics, InMemoryEventBus.requireConnected]
  rw [hconnected, if_pos rfl, hfind]
  rfl

theorem SubOk.metrics {events acked : List StoredEvent} {sub : Subscription}
    (h : SubOk events acked sub) : sub.metrics =
      { stream := streamName
        subject := sub.subject
        durable := sub.durable
        pending := (sub.queued.length + sub.delayed.length : ℕ)
        ackPending := sub.flying.length
        redelivered := sub.redelivered } := by
  rw [Subscription.metrics, h.scheduled, Subscription.queued, Subscription.delayed,
    Subscription.flying, List.length_map, List.length_map, List.length_map]
  rfl

/-- A late subscriber gets the history, gives one event back at once and one after
a delay, and acks the first again when it comes back. -/
def lateSubscriber : List Op :=
  [.connect, .publish sampleEvent, .publish { sampleEvent with subject := "alert.raised" },
    .subscribe "command.*" "policy", .publish { sampleEvent with subject := "command.closed" },
    .fetch ("command.*", "policy") 5 none, .nak 0 0, .nak 1 30, .nak 0 0,
    .beginSleep ("command.*", "policy") 0, .fetch ("command.*", "policy") 1 (some 0), .ack 2,
    .requeue ("command.*", "policy") 0]

end Opsia.Event.InMemory
