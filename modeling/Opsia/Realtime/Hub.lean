import Opsia.Lib.ChangeFeed
import Opsia.Lib.Table
import Opsia.Realtime.Contract

/-!
# The realtime hub

`services/realtime/realtime-gateway/hub.py`: the latest summary of every cluster, the
latest value of every resource, and a bounded queue for every browser. A browser is
named by the number of its registration; the iteration order of the set of browsers
is the order of registration. Every method is one step, since none of them waits.
-/

namespace Opsia.Realtime

open ChangeFeed

structure BrowserClient : Type where
  id : ℕ
  subscription : Subscription
  queue : List BrowserMessage
  droppedMessages : ℕ

structure RealtimeHub : Type where
  limits : RealtimeIngressLimits
  seq : ℕ
  summaries : Table (Prod.fst : String × LiveSummary → String)
  resources : Table (Prod.fst : ResourceKey × JsonObject → ResourceKey)
  browsers : Table BrowserClient.id
  /-- the number of the next registration -/
  nextBrowser : ℕ

/-- `RealtimeHub(limits=…)`. -/
def RealtimeHub.new (limits : RealtimeIngressLimits) : RealtimeHub where
  limits := limits
  seq := 0
  summaries := Table.empty
  resources := Table.empty
  browsers := Table.empty
  nextBrowser := 0

/-! ## Subscription filters -/

def summaryMatches (subscription : Subscription) (clusterId : String) : Bool :=
  subscription.clusterId = "" || subscription.clusterId = clusterId

/-- `(value or {}).get("app", "")`. -/
def appOf (value : Option JsonObject) : Json := ((value.getD []).lookup "app").getD (.str "")

def deltaMatches (subscription : Subscription) (key : ResourceKey) (value : Option JsonObject) :
    Bool :=
  if subscription.clusterId ≠ "" ∧ subscription.clusterId ≠ key.cluster then false
  else if subscription.namespaceName ≠ "" ∧ subscription.namespaceName ≠ key.namespaceName then
    false
  else if subscription.app ≠ "" then
    let app := appOf value
    if app.truthy ∧ app ≠ .str subscription.app then false else true
  else true

/-- An empty value is matched as a missing one. -/
@[simp] theorem deltaMatches_some_getD (subscription : Subscription) (key : ResourceKey)
    (value : Option JsonObject) :
    deltaMatches subscription key (some (value.getD [])) = deltaMatches subscription key value := by
  rcases value with _ | value
  · rfl
  · rfl

/-! ## Reading the state -/

/-- The contents that pass the filter of a subscription. -/
def RealtimeHub.cut (hub : RealtimeHub) (subscription : Subscription) : SnapshotMessage where
  seq := hub.seq
  clusters := hub.summaries.rows.filter fun row => summaryMatches subscription row.1
  resources := hub.resources.rows.filter fun row => deltaMatches subscription row.1 (some row.2)

def RealtimeHub.snapshotFor (hub : RealtimeHub) (subscription : Subscription) :
    Except RealtimeError SnapshotMessage :=
  let snapshot := hub.cut subscription
  if snapshot.resources.length > hub.limits.snapshotMaxResources then
    .error (.limit "snapshot_limit_exceeded")
  else if snapshot.state.bytes > hub.limits.snapshotMaxBytes then
    .error (.limit "snapshot_limit_exceeded")
  else .ok snapshot

def RealtimeHub.resourcesForCluster (hub : RealtimeHub) (clusterId : String) :
    List (ResourceKey × JsonObject) :=
  hub.resources.rows.filter fun row => row.1.cluster = clusterId

theorem snapshotFor_eq_ok {hub : RealtimeHub} {subscription : Subscription}
    {snapshot : SnapshotMessage} (h : hub.snapshotFor subscription = .ok snapshot) :
    snapshot = hub.cut subscription := by
  unfold RealtimeHub.snapshotFor at h
  dsimp only at h
  split at h
  · cases h
  · split at h
    · cases h
    · exact (Except.ok.inj h).symm

/-! ## Browsers -/

def RealtimeHub.registerBrowser (hub : RealtimeHub) (subscription : Subscription) : RealtimeHub :=
  { hub with
    browsers := hub.browsers.insertIfAbsent ⟨hub.nextBrowser, subscription, [], 0⟩
    nextBrowser := hub.nextBrowser + 1 }

def RealtimeHub.unregisterBrowser (hub : RealtimeHub) (client : ℕ) : RealtimeHub :=
  { hub with browsers := hub.browsers.erase client }

/-- The message that replaces the backlog of a slow browser. -/
def RealtimeHub.recovery (hub : RealtimeHub) (subscription : Subscription) : BrowserMessage :=
  match hub.snapshotFor subscription with
  | .ok snapshot => .snapshot snapshot
  | .error _ => .resyncRequired

def RealtimeHub.offer (hub : RealtimeHub) (message : BrowserMessage) (client : BrowserClient) :
    BrowserClient :=
  if client.queue.length < browserQueueMax then
    { client with queue := client.queue ++ [message] }
  else
    { client with
      droppedMessages := client.droppedMessages + client.queue.length
      queue := [hub.recovery client.subscription] }

@[simp] theorem offer_id (hub : RealtimeHub) (message : BrowserMessage) (client : BrowserClient) :
    (hub.offer message client).id = client.id := by
  rw [RealtimeHub.offer]
  split <;> rfl

@[simp] theorem offer_subscription (hub : RealtimeHub) (message : BrowserMessage)
    (client : BrowserClient) :
    (hub.offer message client).subscription = client.subscription := by
  rw [RealtimeHub.offer]
  split <;> rfl

theorem offer_queue (hub : RealtimeHub) (message : BrowserMessage) (client : BrowserClient) :
    (hub.offer message client).queue = client.queue ++ [message] ∨
      (hub.offer message client).queue = [hub.recovery client.subscription] := by
  rw [RealtimeHub.offer]
  split
  · exact Or.inl rfl
  · exact Or.inr rfl

/-- The loop over the browsers that a message is for. -/
def RealtimeHub.fanOut (hub : RealtimeHub) (wants : Subscription → Bool)
    (message : BrowserMessage) : RealtimeHub :=
  { hub with
    browsers := hub.browsers.modifyWhere (fun client => wants client.subscription)
      (hub.offer message) (offer_id hub message) }

/-! ## Agent ingest -/

/-- The contents after a summary was recorded. -/
def RealtimeHub.recorded (hub : RealtimeHub) (summary : LiveSummary) : RealtimeHub :=
  { hub with
    seq := hub.seq + 1
    summaries := hub.summaries.put (summary.clusterId, summary) }

def RealtimeHub.publishSummary (hub : RealtimeHub) (summary : LiveSummary) : RealtimeHub :=
  let hub := hub.recorded summary
  hub.fanOut (fun subscription => summaryMatches subscription summary.clusterId)
    (.liveSummary hub.seq summary)

/-- How many resources of a cluster are retained. -/
def RealtimeHub.retained (hub : RealtimeHub) (clusterId : String) : ℕ :=
  hub.resources.rows.countP fun row => row.1.cluster = clusterId

/-- The contents after a delta was stored. -/
def RealtimeHub.stored (hub : RealtimeHub) (delta : ResourceDelta) : RealtimeHub :=
  { hub with
    seq := hub.seq + 1
    resources := match delta.op with
      | .remove => hub.resources.erase delta.key
      | .replace => hub.resources.put (delta.key, delta.value.getD []) }

def RealtimeHub.publishDelta (hub : RealtimeHub) (delta : ResourceDelta) :
    Except RealtimeError RealtimeHub := do
  validateResourceDelta delta hub.limits
  if delta.op = .replace ∧ hub.resources.find? delta.key = none ∧
      hub.retained delta.key.cluster ≥ hub.limits.clusterRetainedResources then
    throw (.limit "cluster_resource_limit_exceeded")
  let hub := hub.stored delta
  return hub.fanOut (fun subscription => deltaMatches subscription delta.key delta.value)
    (.resourceDelta { delta with seq := hub.seq })

theorem publishDelta_eq_ok {hub hub' : RealtimeHub} {delta : ResourceDelta}
    (h : hub.publishDelta delta = .ok hub') :
    hub' = (hub.stored delta).fanOut
      (fun subscription => deltaMatches subscription delta.key delta.value)
      (.resourceDelta { delta with seq := hub.seq + 1 }) := by
  unfold RealtimeHub.publishDelta at h
  rcases hvalid : validateResourceDelta delta hub.limits with e | u
  · rw [hvalid] at h
    cases h
  · rw [hvalid] at h
    by_cases hlimit : delta.op = .replace ∧ hub.resources.find? delta.key = none ∧
        hub.retained delta.key.cluster ≥ hub.limits.clusterRetainedResources
    · simp only [bind, Except.bind, if_pos hlimit, throw, throwThe, MonadExceptOf.throw] at h
      cases h
    · simp only [bind, Except.bind, if_neg hlimit, pure, Except.pure] at h
      exact (Except.ok.inj h).symm

/-! ## The resources as a view -/

/-- The value of a resource. -/
abbrev ResourceValue : ResourceKey → Type := fun _ => JsonObject

/-- What a dictionary of resources holds. -/
def valuesOf (resources : Table (Prod.fst : ResourceKey × JsonObject → ResourceKey)) :
    View ResourceValue := fun key => (resources.find? key).map Prod.snd

/-- What a delta changes: a removed key, or a new value (`value or {}`). -/
def ResourceDelta.change (delta : ResourceDelta) : Change ResourceValue :=
  ⟨delta.key, match delta.op with
    | .remove => none
    | .replace => some (delta.value.getD [])⟩

theorem valuesOf_stored (hub : RealtimeHub) (delta : ResourceDelta) :
    valuesOf (hub.stored delta).resources = delta.change.apply (valuesOf hub.resources) := by
  funext key
  rcases delta with ⟨seq, op, k, value⟩
  by_cases hkey : key = k
  · subst hkey
    refine Eq.trans ?_ (Change.apply_key (ResourceDelta.change ⟨seq, op, key, value⟩) _).symm
    rcases op with _ | _
    · change ((hub.resources.put (key, value.getD [])).find? key).map Prod.snd = _
      rw [Table.find?_put, if_pos rfl]
      rfl
    · change ((hub.resources.erase key).find? key).map Prod.snd = _
      rw [Table.find?_erase, if_pos rfl]
      rfl
  · rw [Change.apply_of_ne _ _ hkey]
    rcases op with _ | _
    · change ((hub.resources.put (k, value.getD [])).find? key).map Prod.snd = _
      rw [Table.find?_put, if_neg hkey]
      rfl
    · change ((hub.resources.erase k).find? key).map Prod.snd = _
      rw [Table.find?_erase, if_neg hkey]
      rfl

/-! ## The state that a subscription sees -/

/-- What a summary or a resource of the hub is about. -/
abbrev Slot : Type := String ⊕ ResourceKey

/-- What a slot holds. -/
abbrev SlotContent : Slot → Type := Sum.elim (fun _ => LiveSummary) fun _ => JsonObject

/-- The summaries and resources that the subscription admits. -/
def RealtimeHub.view (hub : RealtimeHub) (subscription : Subscription) : View SlotContent
  | .inl clusterId =>
    if summaryMatches subscription clusterId then
      (hub.summaries.find? clusterId).map Prod.snd
    else none
  | .inr key => (valuesOf hub.resources key).filter fun value =>
      deltaMatches subscription key (some value)

theorem view_inl (hub : RealtimeHub) (subscription : Subscription) (clusterId : String) :
    hub.view subscription (.inl clusterId) =
      if summaryMatches subscription clusterId then
        (hub.summaries.find? clusterId).map Prod.snd
      else none := rfl

theorem view_inr (hub : RealtimeHub) (subscription : Subscription) (key : ResourceKey) :
    hub.view subscription (.inr key) =
      (valuesOf hub.resources key).filter fun value =>
        deltaMatches subscription key (some value) := rfl

theorem view_fanOut (hub : RealtimeHub) (wants : Subscription → Bool) (message : BrowserMessage)
    (subscription : Subscription) :
    (hub.fanOut wants message).view subscription = hub.view subscription := by
  funext slot
  rcases slot with clusterId | key <;> rfl

end Opsia.Realtime
