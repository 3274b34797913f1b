import Opsia.Lib.Runs
import Opsia.Realtime.Agent

/-!
# The hub as a mirror of the pods of a cluster

The publisher of the agent (`LiveSummaryPublisher.run`, `_publish_loop` and
`_resource_metrics_loop` of `services/target/cluster-agent/live_summary.py`) against
the ingest of the gateway (`_ingest` of `services/realtime/realtime-gateway/app.py`).
A publish cycle collects, then sends the differences and last the summary; a message
that was sent is on the wire until the gateway handles it, and a connection that ends
takes what it still holds with it. The gateway may close its end, and may restart with
an empty hub.

The collector compares with the pods it saw last, delivered or not, and never sends
its map again. So a restart of the gateway (`hub_misses_pods_after_restart`) or a
connection that ends inside a cycle leaves the hub wrong for ever. In every run that
loses no difference, the hub holds exactly the pods that the agent collected last
(`run_hub_mirrors`): the invariant is that the differences in flight lead there.
-/

namespace Opsia.Realtime

open ChangeFeed Runs

/-! ## The connection -/

/-- A message of the agent. -/
inductive AgentMessage : Type where
  /-- `LiveSummaryMessage` -/
  | liveSummary (summary : LiveSummary)
  /-- `ResourceDelta` -/
  | resourceDelta (delta : ResourceDelta)

/-- A connection of the agent to the gateway. -/
structure AgentConnection : Type where
  /-- the messages of the publish cycle that are still to be sent -/
  outbox : List AgentMessage
  /-- the last publish cycle has completed -/
  cycleDone : Bool
  /-- the messages that were sent and not handled yet -/
  wire : List AgentMessage
  /-- the gateway has not closed its end -/
  accepting : Bool

/-- A new connection. -/
def AgentConnection.new : AgentConnection := ⟨[], false, [], true⟩

def clusterResourceMetricsKey (clusterId : String) : ResourceKey :=
  ⟨clusterId, "cluster", "metrics", "live"⟩

/-- `_ingest` on the messages an agent sends: the hub afterwards, or `none` to close
the connection. -/
def ingest (hub : RealtimeHub) (clusterId : String) : AgentMessage → Option RealtimeHub
  | .liveSummary summary =>
    if summary.clusterId ≠ clusterId then none else some (hub.publishSummary summary)
  | .resourceDelta delta =>
    if delta.key.cluster ≠ clusterId then none else (hub.publishDelta delta).toOption

/-! ## The system -/

/-- The agent of one cluster, its connection, and the gateway. -/
structure MirrorSystem : Type where
  collector : SummaryCollector
  connection : Option AgentConnection
  hub : RealtimeHub

/-- An agent that has not collected and a gateway that has just started. -/
def MirrorSystem.start (clusterId : String) (limits : RealtimeIngressLimits) : MirrorSystem :=
  ⟨SummaryCollector.new clusterId, none, RealtimeHub.new limits⟩

/-- What can happen. -/
inductive MirrorAction : Type where
  /-- the agent opens a connection -/
  | connect
  /-- the publish loop collects; a collection that raises ends the connection -/
  | collect (collection : Collection)
  /-- the collector has no API access, and the cycle sends nothing -/
  | collectNothing
  /-- the publish loop sends its next message -/
  | send
  /-- the metrics loop sends its delta -/
  | sendMetrics (value : JsonObject)
  /-- the gateway handles the next message of the wire -/
  | receive
  /-- the gateway handles a message of another cluster -/
  | receiveOther (clusterId : String) (message : AgentMessage)
  /-- the connection ends: a send failed, the network broke, a budget was exceeded -/
  | drop
  /-- the gateway restarts with an empty hub -/
  | restart

/-- The publish loop after `await self.collector()`. -/
def MirrorSystem.collect (s : MirrorSystem) (c : AgentConnection) (collection : Collection) :
    MirrorSystem :=
  match s.collector.summarize collection with
  | .error _ => { s with connection := none }
  | .ok (summary, collector) =>
    let (deltas, collector) := collector.drainDeltas
    { s with
      collector := collector
      connection := some { c with
        outbox := deltas.map AgentMessage.resourceDelta ++ [.liveSummary summary]
        cycleDone := false } }

/-- The gateway takes the message `m` off the wire. -/
def MirrorSystem.handle (s : MirrorSystem) (c : AgentConnection) (m : AgentMessage)
    (wire : List AgentMessage) : MirrorSystem :=
  match ingest s.hub s.collector.clusterId m with
  | some hub => { s with hub := hub, connection := some { c with wire := wire } }
  | none => { s with connection := some { c with wire := [], accepting := false } }

/-- The receive loop of the gateway, while its end is open. -/
def MirrorSystem.receive (s : MirrorSystem) (c : AgentConnection) : MirrorSystem :=
  match c.accepting, c.wire with
  | true, m :: wire => s.handle c m wire
  | _, _ => s

/-- The connection after the publish loop sent its next message. -/
def AgentConnection.send (c : AgentConnection) : AgentConnection :=
  match c.outbox with
  | [] => c
  | m :: outbox =>
    { c with outbox := outbox, wire := c.wire ++ [m], cycleDone := outbox.isEmpty }

/-- The delta of the metrics loop. -/
def metricsDelta (clusterId : String) (value : JsonObject) : ResourceDelta :=
  ⟨0, .replace, clusterResourceMetricsKey clusterId, some value⟩

/-- One step of the connection `c`. -/
def MirrorSystem.stepOn (s : MirrorSystem) (c : AgentConnection) : MirrorAction → MirrorSystem
  | .collect collection => if c.outbox.isEmpty then s.collect c collection else s
  | .collectNothing =>
    if c.outbox.isEmpty then { s with connection := some { c with cycleDone := true } } else s
  | .send => { s with connection := some c.send }
  | .sendMetrics value =>
    let m := AgentMessage.resourceDelta (metricsDelta s.collector.clusterId value)
    { s with connection := some { c with wire := c.wire ++ [m] } }
  | .receive => s.receive c
  | .drop => { s with connection := none }
  | _ => s

/-- One step. -/
def MirrorSystem.step (s : MirrorSystem) (action : MirrorAction) : MirrorSystem :=
  match action, s.connection with
  | .connect, none => { s with connection := some AgentConnection.new }
  | .receiveOther clusterId message, _ =>
    if clusterId = s.collector.clusterId then s
    else { s with hub := (ingest s.hub clusterId message).getD s.hub }
  | .restart, _ => { s with hub := RealtimeHub.new s.hub.limits, connection := none }
  | action, some c => s.stepOn c action
  | _, none => s

/-! ## Differences in flight -/

/-- What a message changes in the resources of the hub. -/
def AgentMessage.change? : AgentMessage → Option (Change ResourceValue)
  | .liveSummary _ => none
  | .resourceDelta delta => some delta.change

/-- The changes that a list of messages carries. -/
def changesOf (messages : List AgentMessage) : List (Change ResourceValue) :=
  messages.filterMap AgentMessage.change?

theorem changesOf_append (messages messages' : List AgentMessage) :
    changesOf (messages ++ messages') = changesOf messages ++ changesOf messages' :=
  List.filterMap_append

/-- The messages on their way to the hub, the oldest first. -/
def AgentConnection.inFlight (c : AgentConnection) : List AgentMessage := c.wire ++ c.outbox

/-- The messages in flight of the connection, if there is one. -/
def MirrorSystem.inFlight (s : MirrorSystem) : List AgentMessage :=
  (s.connection.map AgentConnection.inFlight).getD []

/-- No change of a pod of the cluster is among the messages. -/
def NoPodChange (clusterId : String) (messages : List AgentMessage) : Prop :=
  ∀ c ∈ changesOf messages, ¬ c.key.isPodOf clusterId

/-- The differences in flight lead the pods of the hub to those collected last. -/
def MirrorSystem.Leads (s : MirrorSystem) : Prop :=
  ∀ key : ResourceKey, key.isPodOf s.collector.clusterId →
    applyAll (changesOf s.inFlight) (valuesOf s.hub.resources) key =
      valuesOf s.collector.lastResources key

variable {s : MirrorSystem} {clusterId : String}

variable {hub hub' : RealtimeHub} {c : AgentConnection} {key : ResourceKey}

theorem applyAll_of_noPodChange {messages : List AgentMessage} (h : NoPodChange clusterId messages)
    (hkey : key.isPodOf clusterId) (w : View ResourceValue) :
    applyAll (changesOf messages) w key = w key := by
  refine applyAll_of_not_mem w fun c hc hck => ?_
  rw [← hck] at hkey
  exact h c hc hkey

theorem ingest_summary_eq_some {summary : LiveSummary}
    (h : ingest hub clusterId (.liveSummary summary) = some hub') :
    hub' = hub.publishSummary summary := by
  change (if _ then none else _) = some hub' at h
  split at h
  · cases h
  · exact (Option.some.inj h).symm

theorem ingest_delta_eq_some {delta : ResourceDelta}
    (h : ingest hub clusterId (.resourceDelta delta) = some hub') :
    delta.key.cluster = clusterId ∧ hub.publishDelta delta = .ok hub' := by
  change (if _ then none else _) = some hub' at h
  split at h
  · cases h
  · rename_i hcluster
    refine ⟨not_not.mp hcluster, ?_⟩
    rcases hpublish : hub.publishDelta delta with e | published
    · rw [hpublish] at h
      cases h
    · rw [hpublish] at h
      rw [Option.some.inj h]

/-- What the gateway takes off the wire it stores. -/
theorem valuesOf_ingest {m : AgentMessage} (h : ingest hub clusterId m = some hub') :
    valuesOf hub'.resources = applyAll (changesOf [m]) (valuesOf hub.resources) := by
  rcases m with summary | delta
  · rw [ingest_summary_eq_some h]
    rfl
  · rw [publishDelta_eq_ok (ingest_delta_eq_some h).2]
    exact valuesOf_stored hub delta

theorem valuesOf_ingest_other {m : AgentMessage} (h : ingest hub clusterId m = some hub')
    (hkey : key.cluster ≠ clusterId) :
    valuesOf hub'.resources key = valuesOf hub.resources key := by
  rw [valuesOf_ingest h]
  refine applyAll_of_not_mem _ fun c hc hck => ?_
  rcases m with summary | delta
  · exact absurd hc List.not_mem_nil
  · obtain rfl : c = delta.change := List.mem_singleton.mp hc
    refine hkey ?_
    rw [← hck]
    exact (ingest_delta_eq_some h).1

/-! ## Every step that loses nothing -/

/-- The step loses no difference: a connection ends, or the gateway closes its end,
only while no pod change is in flight, and the gateway restarts only while the agent
has seen no pod. -/
def LosesNothing (s : MirrorSystem) : MirrorAction → Prop
  | .collect collection =>
    ∀ c, s.connection = some c → c.outbox = [] →
      (∀ result, s.collector.summarize collection ≠ .ok result) →
        NoPodChange s.collector.clusterId s.inFlight
  | .receive =>
    ∀ c m wire, s.connection = some c → c.accepting = true → c.wire = m :: wire →
      ingest s.hub s.collector.clusterId m = none →
        NoPodChange s.collector.clusterId s.inFlight
  | .drop => NoPodChange s.collector.clusterId s.inFlight
  | .restart => s.collector.lastResources.rows = []
  | _ => True

theorem MirrorSystem.Leads.of_inFlight (h : s.Leads) {connection : Option AgentConnection}
    (hsame : ∀ key : ResourceKey, key.isPodOf s.collector.clusterId →
      applyAll (changesOf (MirrorSystem.inFlight { s with connection := connection }))
          (valuesOf s.hub.resources) key =
        applyAll (changesOf s.inFlight) (valuesOf s.hub.resources) key) :
    MirrorSystem.Leads { s with connection := connection } :=
  fun key hkey => (hsame key hkey).trans (h key hkey)

theorem MirrorSystem.Leads.disconnect (h : s.Leads)
    (hnone : NoPodChange s.collector.clusterId s.inFlight) :
    MirrorSystem.Leads { s with connection := none } :=
  h.of_inFlight fun _ hkey => (applyAll_of_noPodChange hnone hkey _).symm

/-- A collection adds the differences behind the messages in flight. -/
theorem MirrorSystem.Leads.collect (h : s.Leads) (hc : s.connection = some c)
    (hempty : c.outbox = []) {collection : Collection}
    (hloses : LosesNothing s (.collect collection)) : (s.collect c collection).Leads := by
  have hflight : s.inFlight = c.wire := by
    rw [MirrorSystem.inFlight, hc, Option.map_some, Option.getD_some, AgentConnection.inFlight,
      hempty, List.append_nil]
  rw [MirrorSystem.collect]
  rcases hsummary : s.collector.summarize collection with e | ⟨summary, collector⟩
  · refine h.disconnect (hloses c hc hempty ?_)
    intro result hok
    rw [hsummary] at hok
    cases hok
  · obtain ⟨hcluster, hdeltas, -⟩ := summarize_eq_ok hsummary
    intro key hkey
    have hkey' : key.isPodOf s.collector.clusterId := hcluster ▸ hkey
    have hlast := h key hkey'
    rw [hflight] at hlast
    have hchanges : ∀ deltas : List ResourceDelta,
        changesOf (deltas.map AgentMessage.resourceDelta ++ [.liveSummary summary]) =
          deltas.map ResourceDelta.change := by
      intro deltas
      rw [changesOf_append, changesOf, List.filterMap_map]
      exact (List.append_nil _).trans
        (congrFun (List.filterMap_eq_map (f := ResourceDelta.change)) deltas)
    change applyAll (changesOf (c.wire ++ (collector.pendingDeltas.map AgentMessage.resourceDelta
      ++ [.liveSummary summary]))) _ key = _
    rw [changesOf_append, hchanges, applyAll_append, hdeltas, applyAll_at _ hlast]
    exact congrFun (applyAll_resourceDeltas ..) key

theorem MirrorSystem.Leads.handle (h : s.Leads) (hc : s.connection = some c)
    (haccepting : c.accepting = true) {m : AgentMessage} {wire : List AgentMessage}
    (hwire : c.wire = m :: wire) (hloses : LosesNothing s .receive) :
    (s.handle c m wire).Leads := by
  have hflight : s.inFlight = [m] ++ (wire ++ c.outbox) := by
    rw [MirrorSystem.inFlight, hc, Option.map_some, Option.getD_some, AgentConnection.inFlight,
      hwire]
    rfl
  rw [MirrorSystem.handle]
  rcases hingest : ingest s.hub s.collector.clusterId m with _ | hub
  · -- the connection is closed, and nothing was in flight that matters
    have hnone := hloses c m wire hc haccepting hwire hingest
    refine h.of_inFlight fun key hkey => ?_
    rw [applyAll_of_noPodChange hnone hkey]
    refine applyAll_of_noPodChange (fun d hd => hnone d ?_) hkey _
    rw [hflight, changesOf_append, changesOf_append]
    exact List.mem_append_right _ (List.mem_append_right _ hd)
  · intro key hkey
    have hkept := h key hkey
    rw [hflight, changesOf_append, applyAll_append, ← valuesOf_ingest hingest] at hkept
    exact hkept

theorem MirrorSystem.Leads.stepOn (h : s.Leads) (hc : s.connection = some c) {action : MirrorAction}
    (hloses : LosesNothing s action) (hrestart : action ≠ .restart) :
    (s.stepOn c action).Leads := by
  have hflight : s.inFlight = c.inFlight := by
    rw [MirrorSystem.inFlight, hc, Option.map_some, Option.getD_some]
  cases action with
  | collect collection =>
    change (if _ then s.collect c collection else s).Leads
    split
    · rename_i hempty
      exact h.collect hc (List.isEmpty_iff.mp hempty) hloses
    · exact h
  | collectNothing =>
    change (if _ then _ else s).Leads
    split
    · refine h.of_inFlight fun key _ => ?_
      rw [hflight]
      rfl
    · exact h
  | send =>
    refine h.of_inFlight fun key _ => ?_
    rw [hflight]
    change applyAll (changesOf c.send.inFlight) _ key = _
    have hsame : c.send.inFlight = c.inFlight := by
      unfold AgentConnection.send AgentConnection.inFlight
      rcases houtbox : c.outbox with _ | ⟨m, outbox⟩
      · exact congrArg _ houtbox
      · exact (List.append_cons ..).symm
    rw [hsame]
  | sendMetrics value =>
    refine h.of_inFlight fun key hkey => ?_
    rw [hflight]
    change applyAll (changesOf ((c.wire ++ [_]) ++ c.outbox)) _ key =
      applyAll (changesOf (c.wire ++ c.outbox)) _ key
    rw [changesOf_append, changesOf_append, changesOf_append, applyAll_append, applyAll_append,
      applyAll_append]
    refine applyAll_at _ (Change.apply_of_ne _ _ fun hkind => ?_)
    -- the metrics are no pod entry
    have := hkey.2
    rw [hkind] at this
    exact absurd (show "metrics" = "pod" from this) (by decide)
  | receive =>
    change (s.receive c).Leads
    unfold MirrorSystem.receive
    split
    · rename_i m wire haccepting hwire
      exact h.handle hc haccepting hwire hloses
    · exact h
  | drop => exact h.disconnect hloses
  | restart => exact absurd rfl hrestart
  | connect => exact h
  | receiveOther clusterId message => exact h

theorem MirrorSystem.Leads.step (h : s.Leads) {action : MirrorAction}
    (hloses : LosesNothing s action) : (s.step action).Leads := by
  unfold MirrorSystem.step
  split
  · rename_i hnone
    refine h.of_inFlight fun key _ => ?_
    rw [MirrorSystem.inFlight, MirrorSystem.inFlight, hnone]
    rfl
  · rename_i clusterId message
    split
    · exact h
    · rename_i hother
      intro key hkey
      refine (applyAll_at _ ?_).trans (h key hkey)
      rcases hingest : ingest s.hub clusterId message with _ | hub
      · rfl
      · exact valuesOf_ingest_other hingest fun he => hother (he.symm.trans hkey.1)
  · intro key _
    have hempty : valuesOf s.collector.lastResources key = none := by
      rw [valuesOf, Option.map_eq_none_iff, Table.find?_eq_none]
      intro row hrow
      rw [show s.collector.lastResources.rows = [] from hloses] at hrow
      exact absurd hrow List.not_mem_nil
    exact hempty.symm
  · rename_i c _ _ hrestart hc
    exact h.stepOn hc hloses hrestart
  · exact h

/-- The agent retains pod entries of its cluster only. -/
def MirrorSystem.PodsOnly (s : MirrorSystem) : Prop :=
  ∀ row ∈ s.collector.lastResources.rows, row.1.isPodOf s.collector.clusterId

theorem MirrorSystem.PodsOnly.stepOn (h : s.PodsOnly) (c : AgentConnection)
    (action : MirrorAction) : (s.stepOn c action).PodsOnly := by
  cases action with
  | collect collection =>
    change (if _ then s.collect c collection else s).PodsOnly
    split
    · unfold MirrorSystem.collect
      rcases hsummary : s.collector.summarize collection with e | ⟨summary, collector⟩
      · exact h
      · obtain ⟨hcluster, -, hlast⟩ := summarize_eq_ok hsummary
        intro row hrow
        change row ∈ collector.lastResources.rows at hrow
        change row.1.isPodOf collector.clusterId
        rw [hlast] at hrow
        rw [hcluster]
        exact isPodOf_of_mem_tallyPods hrow
    · exact h
  | receive =>
    change (s.receive c).PodsOnly
    unfold MirrorSystem.receive MirrorSystem.handle
    split
    · split
      · exact h
      · exact h
    · exact h
  | collectNothing =>
    change (if _ then _ else s).PodsOnly
    split
    · exact h
    · exact h
  | connect => exact h
  | send => exact h
  | sendMetrics value => exact h
  | receiveOther clusterId message => exact h
  | drop => exact h
  | restart => exact h

theorem MirrorSystem.PodsOnly.step (h : s.PodsOnly) (action : MirrorAction) :
    (s.step action).PodsOnly := by
  unfold MirrorSystem.step
  split
  · exact h
  · split
    · exact h
    · exact h
  · exact h
  · exact h.stepOn _ _
  · exact h

/-! ## Main result -/

/-- A publish cycle has completed on the current connection, and nothing of it is on
the wire any more. -/
def MirrorSystem.Settled (s : MirrorSystem) : Prop :=
  ∃ c, s.connection = some c ∧ c.accepting = true ∧ c.cycleDone = true ∧ c.outbox = [] ∧
    c.wire = []

/-- The pod entries that the hub retains for the cluster are the pods of the last
collection. -/
def MirrorSystem.Mirrors (s : MirrorSystem) : Prop :=
  ∀ (key : ResourceKey) (value : JsonObject), key.kind = "pod" →
    ((key, value) ∈ s.hub.resourcesForCluster s.collector.clusterId ↔
      (key, value) ∈ s.collector.lastResources.rows)

theorem mem_rows_iff {resources : PodMap} {value : JsonObject} :
    (key, value) ∈ resources.rows ↔ valuesOf resources key = some value := by
  constructor
  · intro hmem
    rw [valuesOf, Table.find?_of_mem hmem, Option.map_some]
  · intro hvalue
    obtain ⟨⟨key', value'⟩, hfind, rfl⟩ := Option.map_eq_some_iff.mp hvalue
    obtain rfl : key' = key := Table.key_of_find? hfind
    exact Table.mem_of_find? hfind

/-- **The hub mirrors the agent.** In every run that loses no difference, whenever a
publish cycle has completed on the current connection, the pod entries of the hub are
exactly the pods that the agent collected last. -/
theorem run_hub_mirrors (clusterId : String) (limits : RealtimeIngressLimits)
    (actions : List MirrorAction)
    (hloses : Meets MirrorSystem.step LosesNothing (.start clusterId limits) actions)
    (hsettled : (run MirrorSystem.step (.start clusterId limits) actions).Settled) :
    (run MirrorSystem.step (.start clusterId limits) actions).Mirrors := by
  have hinv : (run MirrorSystem.step (.start clusterId limits) actions).Leads ∧
      (run MirrorSystem.step (.start clusterId limits) actions).PodsOnly :=
    run_invariant_of_meets (P := fun s => s.Leads ∧ s.PodsOnly)
      (fun s a h hok => ⟨h.1.step hok, h.2.step a⟩)
      ⟨fun key _ => rfl, fun row hrow => absurd hrow List.not_mem_nil⟩ hloses
  obtain ⟨hleads, hpods⟩ := hinv
  obtain ⟨c, hc, -, -, houtbox, hwire⟩ := hsettled
  generalize run MirrorSystem.step (.start clusterId limits) actions = s at *
  have hflight : s.inFlight = [] := by
    rw [MirrorSystem.inFlight, hc, Option.map_some, Option.getD_some, AgentConnection.inFlight,
      houtbox, hwire, List.append_nil]
  have hsame : ∀ key : ResourceKey, key.isPodOf s.collector.clusterId →
      valuesOf s.hub.resources key = valuesOf s.collector.lastResources key := by
    intro key hkey
    have := hleads key hkey
    rw [hflight] at this
    exact this
  intro key value hkind
  constructor
  · intro hmem
    obtain ⟨hrow, hcluster⟩ := List.mem_filter.mp hmem
    have hkey : key.isPodOf s.collector.clusterId := ⟨of_decide_eq_true hcluster, hkind⟩
    exact mem_rows_iff.mpr ((hsame key hkey).symm.trans (mem_rows_iff.mp hrow))
  · intro hmem
    have hkey : key.isPodOf s.collector.clusterId := hpods _ hmem
    refine List.mem_filter.mpr ⟨?_, decide_eq_true hkey.1⟩
    exact mem_rows_iff.mpr ((hsame key hkey).trans (mem_rows_iff.mp hmem))

/-- The collection of one running pod, used by the runs below. -/
def onePod : Collection where
  pods := [⟨"default", "api", [⟨true, 0, ""⟩], "Running", "node-1", []⟩]
  podMetrics := fun _ => []
  metricsMetadata := none
  removals := []

/-- One connection with one publish cycle of one pod, every message handled. -/
def oneCycle : List MirrorAction :=
  [.connect, .collect onePod, .send, .receive, .send, .receive]

/-- After one cycle the hub holds the pod. -/
theorem run_hub_mirrors_oneCycle :
    (run MirrorSystem.step (.start "c1" .default) oneCycle).Mirrors ∧
      (run MirrorSystem.step (.start "c1" .default) oneCycle).hub.resources.rows.length = 1 := by
  refine ⟨run_hub_mirrors "c1" .default oneCycle ?_ ⟨_, rfl, rfl, rfl, rfl, rfl⟩, rfl⟩
  refine meets_cons.mpr ⟨trivial, meets_cons.mpr ⟨?_, meets_cons.mpr ⟨trivial,
    meets_cons.mpr ⟨?_, meets_cons.mpr ⟨trivial, meets_cons.mpr ⟨?_, fun e he =>
      absurd he List.not_mem_nil⟩⟩⟩⟩⟩⟩
  · intro c _ _ hfail
    exact absurd rfl (hfail _)
  · rintro c m wire ⟨⟩ - ⟨⟩ hrefused
    cases hrefused
  · rintro c m wire ⟨⟩ - ⟨⟩ hrefused
    cases hrefused

/-- **A restarted gateway misses the pods.** After a cycle of one pod the gateway
restarts; the agent reconnects and collects the same pod, which is no difference: the
cycle completes and the hub holds nothing. -/
theorem hub_misses_pods_after_restart :
    ¬ ∀ (clusterId : String) (limits : RealtimeIngressLimits) (actions : List MirrorAction),
      (run MirrorSystem.step (.start clusterId limits) actions).Settled →
      (run MirrorSystem.step (.start clusterId limits) actions).Mirrors := by
  intro h
  have hmirrors := h "c1" .default
    (oneCycle ++ [.restart, .connect, .collect onePod, .send, .receive])
    ⟨_, rfl, rfl, rfl, rfl, rfl⟩
  have hmem := (hmirrors ⟨"c1", "default", "pod", "api"⟩ _ rfl).mpr List.mem_cons_self
  cases hmem

end Opsia.Realtime
