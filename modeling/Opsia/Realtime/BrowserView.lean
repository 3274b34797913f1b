import Opsia.Lib.Runs
import Opsia.Realtime.Hub

/-!
# What a browser sees

The send loop of a browser (`_browser_send_loop` of
`services/realtime/realtime-gateway/app.py`) against the hub, in any order of
publications, registrations and reads: it sends one snapshot, taken at any time
after the registration, and then the messages of the queue. The browser replaces its
state on every snapshot and applies every summary and delta.

A filtered browser is told of a change by the new value alone, so a delta that takes
a resource out of the filter never reaches it (`browser_keeps_escaped_resource`).
Wherever no delta does that, the browser with an empty queue sees what a snapshot
would show (`run_browser_converges`). The invariant is that the queue, replayed, leads
the browser to the view of the hub, and for a browser whose snapshot is still to
come, leads the view of the hub to itself.
-/

namespace Opsia.Realtime

open ChangeFeed Runs

/-! ## Messages as a feed -/

/-- The view that a snapshot shows. -/
def SnapshotMessage.view (message : SnapshotMessage) : View SlotContent
  | .inl clusterId => (message.clusters.find? fun row => row.1 = clusterId).map Prod.snd
  | .inr key => (message.resources.find? fun row => row.1 = key).map Prod.snd

/-- What a summary changes. -/
def summaryChange (summary : LiveSummary) : Change SlotContent :=
  ⟨.inl summary.clusterId, some summary⟩

/-- What a delta changes. -/
def deltaChange (delta : ResourceDelta) : Change SlotContent :=
  ⟨.inr delta.key, delta.change.value⟩

/-- What the browser does with a message. -/
def BrowserMessage.apply (message : BrowserMessage) (w : View SlotContent) : View SlotContent :=
  match message with
  | .snapshot shown => shown.view
  | .liveSummary _ summary => (summaryChange summary).apply w
  | .resourceDelta delta => (deltaChange delta).apply w
  | .resyncRequired => w

/-- A message as a message of the feed; a resync carries no state. -/
def BrowserMessage.feed? : BrowserMessage → Option (Message SlotContent)
  | .snapshot shown => some (.snapshot shown.view)
  | .liveSummary _ summary => some (.change (summaryChange summary))
  | .resourceDelta delta => some (.change (deltaChange delta))
  | .resyncRequired => none

/-- The feed that a queue holds. -/
def feedOf (queue : List BrowserMessage) : List (Message SlotContent) :=
  queue.filterMap BrowserMessage.feed?

theorem feedOf_append (queue queue' : List BrowserMessage) :
    feedOf (queue ++ queue') = feedOf queue ++ feedOf queue' := List.filterMap_append

theorem replay_feedOf_cons (message : BrowserMessage) (queue : List BrowserMessage)
    (w : View SlotContent) :
    replay (feedOf (message :: queue)) w = replay (feedOf queue) (message.apply w) := by
  rcases message with shown | ⟨seq, summary⟩ | delta | _
  · rfl
  · rfl
  · rfl
  · rfl

theorem cut_view (hub : RealtimeHub) (subscription : Subscription) :
    (hub.cut subscription).view = hub.view subscription := by
  funext slot
  rcases slot with clusterId | key
  · rw [view_inl]
    change ((hub.summaries.rows.filter _).find? _).map Prod.snd = _
    rw [Table.find?_filter]
    rcases hfind : hub.summaries.find? clusterId with _ | row
    · split <;> rfl
    · have hkey : row.1 = clusterId := Table.key_of_find? hfind
      rw [Option.filter_some, hkey]
      split <;> rfl
  · rw [view_inr]
    change ((hub.resources.rows.filter _).find? _).map Prod.snd = _
    rw [Table.find?_filter, valuesOf]
    rcases hfind : hub.resources.find? key with _ | row
    · rfl
    · have hkey : row.1 = key := Table.key_of_find? hfind
      rw [Option.filter_some, Option.map_some, Option.filter_some, hkey]
      split <;> rfl

/-! ## What a publication does to a view -/

variable {s : BrowserSystem} {browser : BrowserClient} {hub : RealtimeHub} {delta : ResourceDelta}
  {subscription : Subscription}

theorem view_recorded (hub : RealtimeHub) {summary : LiveSummary}
    (h : summaryMatches subscription summary.clusterId = true) :
    (hub.recorded summary).view subscription =
      (summaryChange summary).apply (hub.view subscription) := by
  funext slot
  by_cases hslot : slot = .inl summary.clusterId
  · subst hslot
    rw [view_inl, RealtimeHub.recorded, if_pos h, Table.find?_put, if_pos rfl]
    exact (Change.apply_key (summaryChange summary) _).symm
  · rw [Change.apply_of_ne (summaryChange summary) _ hslot]
    rcases slot with clusterId | key
    · have hne : clusterId ≠ summary.clusterId := fun he => hslot (congrArg Sum.inl he)
      rw [view_inl, view_inl, RealtimeHub.recorded, Table.find?_put, if_neg hne]
    · rfl

theorem view_recorded_of_not (hub : RealtimeHub) {summary : LiveSummary}
    (h : summaryMatches subscription summary.clusterId = false) :
    (hub.recorded summary).view subscription = hub.view subscription := by
  funext slot
  rcases slot with clusterId | key
  · rw [view_inl, view_inl, RealtimeHub.recorded, Table.find?_put]
    by_cases hc : clusterId = summary.clusterId
    · rw [hc, h, if_neg Bool.false_ne_true, if_neg Bool.false_ne_true]
    · rw [if_neg hc]
  · rfl

theorem view_stored_of_ne (hub : RealtimeHub) {key : ResourceKey} (h : key ≠ delta.key)
    (subscription : Subscription) :
    (hub.stored delta).view subscription (.inr key) = hub.view subscription (.inr key) := by
  rw [view_inr, valuesOf_stored, Change.apply_of_ne _ _ h, ← view_inr]

theorem view_stored_self (hub : RealtimeHub) (delta : ResourceDelta)
    (subscription : Subscription) :
    (hub.stored delta).view subscription (.inr delta.key) =
      if deltaMatches subscription delta.key delta.value then delta.change.value else none := by
  rw [view_inr, valuesOf_stored]
  refine (congrArg (Option.filter _) (Change.apply_key delta.change _)).trans ?_
  rcases delta with ⟨seq, op, key, value⟩
  rcases op with _ | _
  · change Option.filter _ (some (value.getD [])) = if _ then some (value.getD []) else none
    rw [Option.filter_some, deltaMatches_some_getD]
  · change none = if _ then none else none
    rw [ite_self]

theorem view_stored (hub : RealtimeHub) (h : deltaMatches subscription delta.key delta.value = true)
    :
    (hub.stored delta).view subscription =
      (deltaChange delta).apply (hub.view subscription) := by
  funext slot
  by_cases hslot : slot = .inr delta.key
  · subst hslot
    rw [view_stored_self, if_pos h]
    exact (Change.apply_key (deltaChange delta) _).symm
  · rw [Change.apply_of_ne (deltaChange delta) _ hslot]
    rcases slot with clusterId | key
    · rfl
    · exact view_stored_of_ne hub (fun he => hslot (congrArg Sum.inr he)) subscription

/-- The delta does not take a resource out of the view of the subscription: what the
view holds at its key matches by the value of the delta too. -/
def keepsInView (hub : RealtimeHub) (delta : ResourceDelta) (subscription : Subscription) : Prop :=
  hub.view subscription (.inr delta.key) ≠ none →
    deltaMatches subscription delta.key delta.value = true

theorem view_stored_of_not (hub : RealtimeHub) (hkeeps : keepsInView hub delta subscription)
    (h : deltaMatches subscription delta.key delta.value = false) :
    (hub.stored delta).view subscription = hub.view subscription := by
  have hnone : hub.view subscription (.inr delta.key) = none := by
    by_contra hview
    rw [hkeeps hview] at h
    cases h
  funext slot
  rcases slot with clusterId | key
  · rfl
  · by_cases hkey : key = delta.key
    · subst hkey
      rw [hnone, view_stored_self, h]
      exact if_neg Bool.false_ne_true
    · exact view_stored_of_ne hub hkey subscription

/-! ## The system -/

/-- How far the send loop of a browser is. -/
inductive SendLoop : Type where
  /-- the first snapshot is still to come -/
  | connecting
  /-- the messages of the queue are being sent -/
  | streaming
  /-- `resync.required` was sent and the loop has ended -/
  | closed
  deriving DecidableEq, Repr

/-- The send loop of a browser and the state at the other end of its socket. -/
structure BrowserSession : Type where
  sendLoop : SendLoop
  shown : View SlotContent

/-- The hub and the sessions of its browsers. -/
structure BrowserSystem : Type where
  hub : RealtimeHub
  sessions : ℕ → BrowserSession

/-- A gateway without browsers. -/
def BrowserSystem.start (limits : RealtimeIngressLimits) : BrowserSystem where
  hub := RealtimeHub.new limits
  sessions := fun _ => ⟨.connecting, fun _ => none⟩

/-- What can happen at the gateway. -/
inductive BrowserAction : Type where
  | publishSummary (summary : LiveSummary)
  | publishDelta (delta : ResourceDelta)
  | register (subscription : Subscription)
  | unregister (client : ℕ)
  /-- the send loop of a browser sends its first snapshot -/
  | sendSnapshot (client : ℕ)
  /-- the send loop of a browser sends the next message of the queue -/
  | sendNext (client : ℕ)

/-- The session of one browser replaced. -/
def BrowserSystem.setSession (s : BrowserSystem) (client : ℕ) (session : BrowserSession) :
    BrowserSystem := { s with sessions := Function.update s.sessions client session }

/-- The queue of one browser replaced. -/
def RealtimeHub.setQueue (hub : RealtimeHub) (client : ℕ) (queue : List BrowserMessage) :
    RealtimeHub :=
  { hub with
    browsers := hub.browsers.modify client (fun b => { b with queue := queue }) fun _ => rfl }

/-- The first messages of `_browser_send_loop`. -/
def BrowserSystem.sendSnapshot (s : BrowserSystem) (client : ℕ) : BrowserSystem :=
  match s.hub.browsers.find? client, (s.sessions client).sendLoop with
  | some browser, .connecting =>
    match s.hub.snapshotFor browser.subscription with
    | .ok snapshot => s.setSession client ⟨.streaming, snapshot.view⟩
    | .error _ => s.setSession client { s.sessions client with sendLoop := .closed }
  | _, _ => s

/-- One round of the loop of `_browser_send_loop`. -/
def BrowserSystem.sendNext (s : BrowserSystem) (client : ℕ) : BrowserSystem :=
  match s.hub.browsers.find? client, (s.sessions client).sendLoop with
  | some browser, .streaming =>
    match browser.queue with
    | [] => s
    | message :: queue =>
      let s : BrowserSystem := { s with hub := s.hub.setQueue client queue }
      let session := s.sessions client
      if message = .resyncRequired then s.setSession client { session with sendLoop := .closed }
      else s.setSession client { session with shown := message.apply session.shown }
  | _, _ => s

/-- A delta reaches the hub; one that the hub refuses changes nothing. -/
def BrowserSystem.publishDelta (s : BrowserSystem) (delta : ResourceDelta) : BrowserSystem :=
  match s.hub.publishDelta delta with
  | .ok hub => { s with hub := hub }
  | .error _ => s

/-- One step of the gateway. -/
def BrowserSystem.step (s : BrowserSystem) : BrowserAction → BrowserSystem
  | .publishSummary summary => { s with hub := s.hub.publishSummary summary }
  | .publishDelta delta => s.publishDelta delta
  | .register subscription => { s with hub := s.hub.registerBrowser subscription }
  | .unregister client => { s with hub := s.hub.unregisterBrowser client }
  | .sendSnapshot client => s.sendSnapshot client
  | .sendNext client => s.sendNext client

/-! ## Queues that lead to the view -/

/-- Replayed from `w`, the queue of the browser leads to the view of the hub, unless
it will ask for a resync. -/
def Leads (hub : RealtimeHub) (browser : BrowserClient) (w : View SlotContent) : Prop :=
  .resyncRequired ∈ browser.queue ∨
    replay (feedOf browser.queue) w = hub.view browser.subscription

theorem leads_recovery (h : browser.queue = [hub.recovery browser.subscription])
    (w : View SlotContent) :
    Leads hub browser w := by
  rw [Leads]
  rw [h]
  rw [RealtimeHub.recovery]
  rcases hsnapshot : hub.snapshotFor browser.subscription with e | snapshot
  · exact Or.inl List.mem_cons_self
  · refine Or.inr ?_
    rw [replay_feedOf_cons]
    change snapshot.view = _
    rw [snapshotFor_eq_ok hsnapshot, cut_view]

variable {hub' : RealtimeHub} {c : Change SlotContent} {session : BrowserSession}

theorem Leads.of_view_eq {w : View SlotContent} (h : Leads hub browser w)
    (hview : hub'.view browser.subscription = hub.view browser.subscription) :
    Leads hub' browser w := by
  rcases h with hresync | hreplay
  · exact Or.inl hresync
  · exact Or.inr (hreplay.trans hview.symm)

theorem Leads.offer {w : View SlotContent} {message : BrowserMessage} (h : Leads hub browser w)
    (hfeed : message.feed? = some (.change c))
    (hview : hub'.view browser.subscription = c.apply (hub.view browser.subscription)) :
    Leads hub' (hub'.offer message browser) w := by
  rcases offer_queue hub' message browser with hqueue | hqueue
  · rw [Leads]
    rw [hqueue, offer_subscription, hview]
    rcases h with hresync | hreplay
    · exact Or.inl (List.mem_append_left _ hresync)
    · refine Or.inr ?_
      have hlast : feedOf [message] = [.change c] := by
        rw [feedOf, List.filterMap_cons_some hfeed, List.filterMap_nil]
      rw [feedOf_append, hlast, replay_append, hreplay]
      rfl
  · refine leads_recovery ?_ w
    rw [hqueue, offer_subscription]

theorem Leads.offer_self {message : BrowserMessage}
    (h : Leads hub browser (hub.view browser.subscription))
    (hfeed : message.feed? = some (.change c))
    (hview : hub'.view browser.subscription = c.apply (hub.view browser.subscription)) :
    Leads hub' (hub'.offer message browser) (hub'.view browser.subscription) := by
  have hfrom := h.offer hfeed hview
  rcases offer_queue hub' message browser with hqueue | hqueue
  · rcases hfrom with hresync | hreplay
    · exact Or.inl hresync
    · refine Or.inr ?_
      have hlast : feedOf [message] = [.change c] := by
        rw [feedOf, List.filterMap_cons_some hfeed, List.filterMap_nil]
      rw [← hreplay, hqueue, feedOf_append, hlast, replay_append, replay_append, hview]
      exact apply_replay_apply c _ _
  · refine leads_recovery ?_ _
    rw [hqueue, offer_subscription]

/-! ## The invariant -/

/-- The queue of a browser leads to the view of the hub: from what the browser shows,
and before its first snapshot from the view itself. -/
structure SessionInv (hub : RealtimeHub) (session : BrowserSession) (browser : BrowserClient) :
    Prop where
  streaming : session.sendLoop = .streaming → Leads hub browser session.shown
  connecting : session.sendLoop = .connecting →
    Leads hub browser (hub.view browser.subscription)

/-- The invariant of the gateway. -/
structure BrowserSystem.Inv (s : BrowserSystem) : Prop where
  leads : ∀ browser ∈ s.hub.browsers.rows, SessionInv s.hub (s.sessions browser.id) browser
  ids : ∀ browser ∈ s.hub.browsers.rows, browser.id < s.hub.nextBrowser
  fresh : ∀ client, s.hub.nextBrowser ≤ client → (s.sessions client).sendLoop = .connecting

theorem SessionInv.of_view_eq (h : SessionInv hub session browser)
    (hview : hub'.view browser.subscription = hub.view browser.subscription) :
    SessionInv hub' session browser where
  streaming hloop := (h.streaming hloop).of_view_eq hview
  connecting hloop := by
    rw [hview]
    exact (h.connecting hloop).of_view_eq hview

theorem BrowserSystem.Inv.fanOut (h : s.Inv) (hub : RealtimeHub)
    (hbrowsers : hub.browsers = s.hub.browsers) (hnext : hub.nextBrowser = s.hub.nextBrowser)
    (wants : Subscription → Bool) (message : BrowserMessage)
    (hfeed : message.feed? = some (.change c))
    (hwants : ∀ browser ∈ s.hub.browsers.rows, wants browser.subscription = true →
      hub.view browser.subscription = c.apply (s.hub.view browser.subscription))
    (hother : ∀ browser ∈ s.hub.browsers.rows, wants browser.subscription = false →
      hub.view browser.subscription = s.hub.view browser.subscription) :
    BrowserSystem.Inv { s with hub := hub.fanOut wants message } where
  leads := by
    intro browser hbrowser
    rcases Table.mem_modifyWhere (offer_id hub message) hbrowser with
      ⟨old, hold, hwant, rfl⟩ | ⟨hold, hwant⟩
    · rw [hbrowsers] at hold
      have hinv := h.leads old hold
      have hview := hwants old hold hwant
      rw [offer_id]
      refine ⟨fun hloop => ?_, fun hloop => ?_⟩
      · exact ((hinv.streaming hloop).offer hfeed hview).of_view_eq (view_fanOut ..)
      · rw [view_fanOut, offer_subscription]
        exact ((hinv.connecting hloop).offer_self hfeed hview).of_view_eq (view_fanOut ..)
    · rw [hbrowsers] at hold
      refine (h.leads browser hold).of_view_eq ?_
      rw [view_fanOut, hother browser hold hwant]
  ids := by
    intro browser hbrowser
    change browser.id < hub.nextBrowser
    rw [hnext]
    rcases Table.mem_modifyWhere (offer_id hub message) hbrowser with
      ⟨old, hold, -, rfl⟩ | ⟨hold, -⟩
    · rw [offer_id]
      exact h.ids old (hbrowsers ▸ hold)
    · exact h.ids browser (hbrowsers ▸ hold)
  fresh client hclient := h.fresh client (hnext ▸ hclient)

theorem BrowserSystem.Inv.publishSummary (h : s.Inv) (summary : LiveSummary) :
    (s.step (.publishSummary summary)).Inv := by
  refine h.fanOut (s.hub.recorded summary) rfl rfl
    (fun subscription => summaryMatches subscription summary.clusterId)
    (.liveSummary (s.hub.seq + 1) summary) (c := summaryChange summary) rfl ?_ ?_
  · intro browser _ hwant
    exact view_recorded s.hub hwant
  · intro browser _ hwant
    exact view_recorded_of_not s.hub hwant

theorem BrowserSystem.Inv.publishDelta (h : s.Inv)
    (hkeeps : ∀ browser ∈ s.hub.browsers.rows, keepsInView s.hub delta browser.subscription) :
    (s.step (.publishDelta delta)).Inv := by
  change (s.publishDelta delta).Inv
  rw [BrowserSystem.publishDelta]
  rcases hpublish : s.hub.publishDelta delta with e | hub
  · exact h
  · obtain rfl := publishDelta_eq_ok hpublish
    refine h.fanOut (s.hub.stored delta) rfl rfl
      (fun subscription => deltaMatches subscription delta.key delta.value)
      (.resourceDelta { delta with seq := s.hub.seq + 1 }) (c := deltaChange delta) rfl ?_ ?_
    · intro browser _ hwant
      exact view_stored s.hub hwant
    · intro browser hbrowser hwant
      exact view_stored_of_not s.hub (hkeeps browser hbrowser) hwant

theorem BrowserSystem.Inv.register (h : s.Inv) (subscription : Subscription) :
    (s.step (.register subscription)).Inv where
  leads := by
    intro browser hbrowser
    rcases Table.mem_insertIfAbsent hbrowser with hold | rfl
    · exact (h.leads browser hold).of_view_eq rfl
    · have hloop := h.fresh s.hub.nextBrowser (Nat.le_refl _)
      refine ⟨fun hstream => ?_, fun _ => Or.inr rfl⟩
      rw [show (s.step (.register subscription)).sessions = s.sessions from rfl, hloop] at hstream
      cases hstream
  ids := by
    intro browser hbrowser
    change browser.id < s.hub.nextBrowser + 1
    rcases Table.mem_insertIfAbsent hbrowser with hold | rfl
    · exact Nat.lt_succ_of_lt (h.ids browser hold)
    · exact Nat.lt_succ_self _
  fresh client hclient := h.fresh client (Nat.le_of_succ_le hclient)

theorem BrowserSystem.Inv.unregister (h : s.Inv) (client : ℕ) :
    (s.step (.unregister client)).Inv where
  leads browser hbrowser := (h.leads browser (Table.mem_of_mem_erase hbrowser)).of_view_eq rfl
  ids browser hbrowser := h.ids browser (Table.mem_of_mem_erase hbrowser)
  fresh := h.fresh

theorem BrowserSystem.Inv.setSession (h : s.Inv) (hbrowser : browser ∈ s.hub.browsers.rows)
    (hsession : SessionInv s.hub session browser) :
    (s.setSession browser.id session).Inv where
  leads := by
    intro other hother
    by_cases hid : other.id = browser.id
    · have hsame : other = browser :=
        List.inj_on_of_nodup_map s.hub.browsers.nodup hother hbrowser hid
      subst hsame
      change SessionInv s.hub (Function.update s.sessions other.id session other.id) other
      rw [Function.update_self]
      exact hsession
    · change SessionInv s.hub (Function.update s.sessions browser.id session other.id) other
      rw [Function.update_of_ne hid]
      exact h.leads other hother
  ids := h.ids
  fresh := by
    intro client hclient
    have hne : client ≠ browser.id := by
      have := h.ids browser hbrowser
      change s.hub.nextBrowser ≤ client at hclient
      omega
    change (Function.update s.sessions browser.id session client).sendLoop = _
    rw [Function.update_of_ne hne]
    exact h.fresh client hclient

theorem BrowserSystem.Inv.sendSnapshot (h : s.Inv) (client : ℕ) :
    (s.step (.sendSnapshot client)).Inv := by
  change (s.sendSnapshot client).Inv
  rw [BrowserSystem.sendSnapshot]
  split
  · rename_i browser hfind hloop
    have hmem := Table.mem_of_find? hfind
    obtain rfl : browser.id = client := Table.key_of_find? hfind
    have hinv := h.leads browser hmem
    rcases hsnapshot : s.hub.snapshotFor browser.subscription with e | snapshot
    · exact h.setSession hmem ⟨fun hne => (by cases hne), fun hne => (by cases hne)⟩
    · refine h.setSession hmem ⟨fun _ => ?_, fun hne => (by cases hne)⟩
      have hview : snapshot.view = s.hub.view browser.subscription := by
        rw [snapshotFor_eq_ok hsnapshot, cut_view]
      rw [hview]
      exact hinv.connecting hloop
  · exact h

theorem BrowserSystem.Inv.dequeue (h : s.Inv) (hbrowser : browser ∈ s.hub.browsers.rows)
    {queue : List BrowserMessage}
    (hsession : SessionInv s.hub session { browser with queue := queue }) :
    (BrowserSystem.setSession { s with hub := s.hub.setQueue browser.id queue } browser.id
      session).Inv where
  leads := by
    intro other hother
    obtain ⟨old, hold, rfl⟩ := List.mem_map.mp hother
    by_cases hid : old.id = browser.id
    · have hsame : old = browser :=
        List.inj_on_of_nodup_map s.hub.browsers.nodup hold hbrowser hid
      subst hsame
      rw [if_pos rfl]
      change SessionInv _ (Function.update s.sessions old.id session old.id) _
      rw [Function.update_self]
      exact hsession.of_view_eq rfl
    · rw [if_neg hid]
      change SessionInv _ (Function.update s.sessions browser.id session old.id) _
      rw [Function.update_of_ne hid]
      exact (h.leads old hold).of_view_eq rfl
  ids := by
    intro other hother
    obtain ⟨old, hold, rfl⟩ := List.mem_map.mp hother
    have := h.ids old hold
    split
    · exact this
    · exact this
  fresh := by
    intro client hclient
    have hne : client ≠ browser.id := by
      have := h.ids browser hbrowser
      change s.hub.nextBrowser ≤ client at hclient
      omega
    change (Function.update s.sessions browser.id session client).sendLoop = _
    rw [Function.update_of_ne hne]
    exact h.fresh client hclient

theorem BrowserSystem.Inv.sendNext (h : s.Inv) (client : ℕ) :
    (s.step (.sendNext client)).Inv := by
  change (s.sendNext client).Inv
  rw [BrowserSystem.sendNext]
  split
  · rename_i browser hfind hloop
    have hmem := Table.mem_of_find? hfind
    obtain rfl : browser.id = client := Table.key_of_find? hfind
    split
    · exact h
    · rename_i message queue hqueue
      dsimp only
      split
      · exact h.dequeue hmem ⟨fun hne => (by cases hne), fun hne => (by cases hne)⟩
      · rename_i hresync
        refine h.dequeue hmem ⟨fun _ => ?_, fun hne => (by rw [hloop] at hne; cases hne)⟩
        rcases (h.leads browser hmem).streaming hloop with hin | hreplay
        · rw [hqueue] at hin
          rcases List.mem_cons.mp hin with rfl | hin
          · exact absurd rfl hresync
          · exact Or.inl hin
        · rw [hqueue, replay_feedOf_cons] at hreplay
          exact Or.inr hreplay
  · exact h

/-! ## Main result -/

/-- The step publishes no delta that takes a resource out of the view of a browser:
what a browser is shown at the key passes its filter by the value of the delta too. -/
def LeavesNoView (s : BrowserSystem) : BrowserAction → Prop
  | .publishDelta delta =>
    ∀ browser ∈ s.hub.browsers.rows, keepsInView s.hub delta browser.subscription
  | _ => True

theorem BrowserSystem.Inv.step (h : s.Inv) {action : BrowserAction}
    (hleaves : LeavesNoView s action) : (s.step action).Inv := by
  cases action with
  | publishSummary summary => exact h.publishSummary summary
  | publishDelta delta => exact h.publishDelta hleaves
  | register subscription => exact h.register subscription
  | unregister client => exact h.unregister client
  | sendSnapshot client => exact h.sendSnapshot client
  | sendNext client => exact h.sendNext client

theorem start_inv (limits : RealtimeIngressLimits) : (BrowserSystem.start limits).Inv where
  leads _ hbrowser := absurd hbrowser List.not_mem_nil
  ids _ hbrowser := absurd hbrowser List.not_mem_nil
  fresh _ _ := rfl

/-- **Browser view convergence.** In every run in which no delta takes a resource out
of the view of a browser, a streaming browser with an empty queue shows exactly what a
snapshot for its subscription would show at that moment. -/
theorem run_browser_converges (limits : RealtimeIngressLimits) (actions : List BrowserAction)
    (hleaves : Meets BrowserSystem.step LeavesNoView (.start limits) actions)
    {browser : BrowserClient}
    (hbrowser : browser ∈ (run BrowserSystem.step (.start limits) actions).hub.browsers.rows)
    (hstreaming : ((run BrowserSystem.step (.start limits) actions).sessions
      browser.id).sendLoop = .streaming)
    (hempty : browser.queue = []) {snapshot : SnapshotMessage}
    (hsnapshot : (run BrowserSystem.step (.start limits) actions).hub.snapshotFor
      browser.subscription = .ok snapshot) :
    ((run BrowserSystem.step (.start limits) actions).sessions browser.id).shown =
      snapshot.view := by
  have hinv : (run BrowserSystem.step (.start limits) actions).Inv :=
    run_invariant_of_meets (fun _ _ h hok => h.step hok) (start_inv limits) hleaves
  rcases (hinv.leads browser hbrowser).streaming hstreaming with hin | hreplay
  · rw [hempty] at hin
    cases hin
  · rw [hempty] at hreplay
    rw [snapshotFor_eq_ok hsnapshot, cut_view]
    exact hreplay

/-- A pod of one cluster, used by the runs below. -/
def shopPod : ResourceKey := ⟨"c1", "default", "pod", "api"⟩

/-- The pod with an `app`. -/
def shopPodOf (app : String) : ResourceDelta :=
  ⟨0, .replace, shopPod, some [("phase", .str "Running"), ("app", .str app)]⟩

/-- A browser that watches the app `shop`. -/
def shopSubscription : Subscription := ⟨"w1", "c1", "", "shop"⟩

/-- A browser registers, a pod of its app appears, the browser gets its snapshot and
then the delta. -/
theorem run_browser_converges_overlap :
    ((run BrowserSystem.step (.start .default)
      [.register shopSubscription, .publishDelta (shopPodOf "shop"), .sendSnapshot 0,
        .sendNext 0]).sessions 0).shown (.inr shopPod) =
      some [("phase", .str "Running"), ("app", .str "shop")] := by
  have hmeets : Meets BrowserSystem.step LeavesNoView (.start .default)
      [.register shopSubscription, .publishDelta (shopPodOf "shop"), .sendSnapshot 0,
        .sendNext 0] := by
    refine meets_cons.mpr ⟨trivial, meets_cons.mpr ⟨?_, meets_cons.mpr ⟨trivial,
      meets_cons.mpr ⟨trivial, fun e he => absurd he List.not_mem_nil⟩⟩⟩⟩
    intro browser hbrowser _
    rcases List.mem_singleton.mp hbrowser with rfl
    decide
  have hrow : (⟨0, shopSubscription, [], 0⟩ : BrowserClient) ∈
      (run BrowserSystem.step (.start .default)
        [.register shopSubscription, .publishDelta (shopPodOf "shop"), .sendSnapshot 0,
          .sendNext 0]).hub.browsers.rows := List.mem_cons_self
  rw [run_browser_converges .default _ hmeets hrow rfl rfl rfl]
  rfl

/-- **A resource that leaves the filter stays on the screen.** The pod moves from the
app `shop` to the app `web`: the delta does not match the browser that watches `shop`,
its queue stays empty, and it shows the old pod for ever. -/
theorem browser_keeps_escaped_resource :
    ¬ ∀ (limits : RealtimeIngressLimits) (actions : List BrowserAction) (browser : BrowserClient)
      (snapshot : SnapshotMessage),
      browser ∈ (run BrowserSystem.step (.start limits) actions).hub.browsers.rows →
      ((run BrowserSystem.step (.start limits) actions).sessions browser.id).sendLoop =
        .streaming →
      browser.queue = [] →
      (run BrowserSystem.step (.start limits) actions).hub.snapshotFor browser.subscription =
        .ok snapshot →
      ((run BrowserSystem.step (.start limits) actions).sessions browser.id).shown =
        snapshot.view := by
  intro h
  have hshown := congrFun
    (h .default
      [.register shopSubscription, .sendSnapshot 0, .publishDelta (shopPodOf "shop"),
        .sendNext 0, .publishDelta (shopPodOf "web")]
      ⟨0, shopSubscription, [], 0⟩ ⟨2, [], []⟩ List.mem_cons_self rfl rfl rfl)
    (.inr shopPod)
  cases hshown

end Opsia.Realtime
