import Opsia.Realtime.Hub

/-!
# The summary collector of the agent

`KubernetesPodSummaryCollector.summarize` and `resource_deltas` of
`services/target/cluster-agent/live_summary.py`: the bounded summary of a list of
pods, and the differences to the list before, which is all the agent sends of the
pods themselves.
-/

namespace Opsia.Realtime

open ChangeFeed

def liveSummaryPodTotalLimit : ℕ := 5000

def crashLoopReason : String := "CrashLoopBackOff"

/-! ## Pods -/

/-- An entry of `status.containerStatuses`. -/
structure ContainerStatus : Type where
  ready : Bool
  restartCount : ℕ
  /-- `state.waiting.reason` -/
  waitingReason : String

/-- What the collector reads of a pod; a missing text is empty. -/
structure Pod : Type where
  namespaceName : String
  name : String
  containerStatuses : List ContainerStatus
  phase : String
  nodeName : String
  /-- `kind` and `name` of the owner references -/
  ownerReferences : List (String × String)

/-- Every container is ready, and there is one. -/
def Pod.ready (pod : Pod) : Bool :=
  !pod.containerStatuses.isEmpty && pod.containerStatuses.all ContainerStatus.ready

/-- The restarts of all containers. -/
def Pod.restarts (pod : Pod) : ℕ :=
  pod.containerStatuses.foldl (fun total status => total + status.restartCount) 0

/-- Some container is in a crash loop. -/
def Pod.crash (pod : Pod) : Bool :=
  pod.containerStatuses.any fun status => status.waitingReason = crashLoopReason

/-- `str(status.phase or "Unknown")`. -/
def Pod.phaseText (pod : Pod) : String := if pod.phase = "" then "Unknown" else pod.phase

def podOwner (pod : Pod) : String × String := pod.ownerReferences.head?.getD ("", "")

def podHealth (phase : String) (ready : Bool) (restarts : ℕ) : String :=
  if phase ≠ "Running" ∨ !ready then "critical"
  else if restarts > 0 then "warning"
  else "healthy"

/-- `d[field] = value`. -/
def setField (fields : JsonObject) (field : String) (value : Json) : JsonObject :=
  if (fields.lookup field).isSome then
    fields.map fun entry => if entry.1 = field then (field, value) else entry
  else fields ++ [(field, value)]

/-- The retained value of a pod, with its metrics. -/
def Pod.value (pod : Pod) (metrics : JsonObject) : JsonObject :=
  metrics.foldl (fun fields entry => setField fields entry.1 entry.2)
    [ ("resource_type", .str "pod"), ("kind", .str "Pod"), ("name", .str pod.name),
      ("namespace", .str pod.namespaceName), ("phase", .str pod.phaseText),
      ("ready", .str (if pod.ready then "1/1" else "0/1")), ("restarts", natJson pod.restarts),
      ("node", .str pod.nodeName), ("owner_kind", .str (podOwner pod).1),
      ("owner_name", .str (podOwner pod).2),
      ("health", .str (podHealth pod.phaseText pod.ready pod.restarts)) ]

/-- The key of a pod. -/
def Pod.key (pod : Pod) (clusterId : String) : ResourceKey :=
  ⟨clusterId, pod.namespaceName, "pod", pod.name⟩

/-! ## Differences -/

/-- The pods of a collection by key. -/
abbrev PodMap : Type := Table (Prod.fst : ResourceKey × JsonObject → ResourceKey)

/-- The `replace` deltas of `resource_deltas`. -/
def replacedDeltas (before after : PodMap) : List ResourceDelta :=
  (after.rows.filter fun row => before.find? row.1 ≠ some row).map fun row =>
    ⟨0, .replace, row.1, some row.2⟩

/-- `before.keys() - after.keys()`, in the order of insertion. -/
def removedKeys (before after : PodMap) : List ResourceKey :=
  (before.rows.filter fun row => after.find? row.1 = none).map Prod.fst

/-- `resource_deltas`; a set has no order, so the order of the removals is an input. -/
def resourceDeltas (before after : PodMap) (removals : List ResourceKey) : List ResourceDelta :=
  let removed := removedKeys before after
  replacedDeltas before after ++
    (if removals.Perm removed then removals else removed).map fun key => ⟨0, .remove, key, none⟩

theorem mem_resourceDeltas {before after : PodMap} {removals : List ResourceKey}
    {delta : ResourceDelta} (h : delta ∈ resourceDeltas before after removals) :
    delta.change.value = valuesOf after delta.key ∧
      (after.find? delta.key ≠ none ∨ before.find? delta.key ≠ none) := by
  rcases List.mem_append.mp h with h | h
  · obtain ⟨row, hrow, rfl⟩ := List.mem_map.mp h
    have hfind := Table.find?_of_mem (List.mem_filter.mp hrow).1
    refine ⟨?_, Or.inl ?_⟩
    · change some row.2 = (after.find? row.1).map Prod.snd
      rw [hfind, Option.map_some]
    · rw [hfind]
      exact Option.some_ne_none row
  · obtain ⟨key, hkey, rfl⟩ := List.mem_map.mp h
    have hkey' : key ∈ removedKeys before after := by
      split at hkey
      · rename_i hperm
        exact hperm.mem_iff.mp hkey
      · exact hkey
    obtain ⟨row, hrow, rfl⟩ := List.mem_map.mp hkey'
    obtain ⟨hrow, hnone⟩ := List.mem_filter.mp hrow
    have hafter : after.find? row.1 = none := by simpa using hnone
    refine ⟨?_, Or.inr ?_⟩
    · change none = (after.find? row.1).map Prod.snd
      rw [hafter, Option.map_none]
    · rw [Table.find?_of_mem hrow]
      exact Option.some_ne_none row

theorem exists_mem_resourceDeltas {before after : PodMap} {removals : List ResourceKey}
    {key : ResourceKey} (h : valuesOf before key ≠ valuesOf after key) :
    ∃ delta ∈ resourceDeltas before after removals, delta.key = key := by
  rcases hafter : after.find? key with _ | row
  · rcases hbefore : before.find? key with _ | row
    · exact absurd (by rw [valuesOf, valuesOf, hbefore, hafter]) h
    · have hkey : row.1 = key := Table.key_of_find? hbefore
      have hremoved : key ∈ removedKeys before after := by
        refine List.mem_map.mpr ⟨row, List.mem_filter.mpr ⟨Table.mem_of_find? hbefore, ?_⟩, hkey⟩
        simp [hkey, hafter]
      refine ⟨⟨0, .remove, key, none⟩, List.mem_append_right _ (List.mem_map.mpr ⟨key, ?_, rfl⟩),
        rfl⟩
      split
      · rename_i hperm
        exact hperm.mem_iff.mpr hremoved
      · exact hremoved
  · have hkey : row.1 = key := Table.key_of_find? hafter
    have hdiff : before.find? row.1 ≠ some row := by
      intro hbefore
      rw [hkey] at hbefore
      exact h (by rw [valuesOf, valuesOf, hbefore, hafter])
    refine ⟨⟨0, .replace, row.1, some row.2⟩, List.mem_append_left _ ?_, hkey⟩
    exact List.mem_map.mpr ⟨row, List.mem_filter.mpr ⟨Table.mem_of_find? hafter,
      by simpa using hdiff⟩, rfl⟩

/-- **The differences lead from one map to the other**, in any order of the
removals. -/
theorem applyAll_resourceDeltas (before after : PodMap) (removals : List ResourceKey) :
    applyAll ((resourceDeltas before after removals).map ResourceDelta.change)
      (valuesOf before) = valuesOf after := by
  funext key
  by_cases hmem : ∃ delta ∈ resourceDeltas before after removals, delta.key = key
  · obtain ⟨delta, hdelta, hkey⟩ := hmem
    refine applyAll_of_mem _ ⟨delta.change, List.mem_map.mpr ⟨delta, hdelta, rfl⟩, hkey⟩ ?_
    intro c hc hck
    obtain ⟨delta', hdelta', rfl⟩ := List.mem_map.mp hc
    subst hck
    exact (mem_resourceDeltas hdelta').1
  · have hsame : valuesOf before key = valuesOf after key := by
      by_contra hne
      exact hmem (exists_mem_resourceDeltas hne)
    rw [applyAll_of_not_mem, hsame]
    intro c hc hkey
    obtain ⟨delta, hdelta, rfl⟩ := List.mem_map.mp hc
    exact hmem ⟨delta, hdelta, hkey⟩

/-! ## The collector -/

/-- `KubernetesPodSummaryCollector`, the object that outlives the connections. -/
structure SummaryCollector : Type where
  clusterId : String
  lastRestartTotal : Option ℕ
  lastResources : PodMap
  pendingDeltas : List ResourceDelta

/-- A new collector. -/
def SummaryCollector.new (clusterId : String) : SummaryCollector :=
  ⟨clusterId, none, Table.empty, []⟩

/-- The accumulators of the loop of `summarize`. -/
structure PodTally : Type where
  readyCount : ℕ
  restartTotal : ℕ
  crashLooping : Bool
  hotPods : List HotPod
  nextResources : PodMap

/-- The loop body of `summarize`. -/
def PodTally.add (clusterId : String) (podMetrics : String → JsonObject) (tally : PodTally)
    (pod : Pod) : PodTally :=
  let named := pod.namespaceName ≠ "" ∧ pod.name ≠ ""
  { readyCount := tally.readyCount + (if pod.ready then 1 else 0)
    restartTotal := tally.restartTotal + pod.restarts
    crashLooping := tally.crashLooping || pod.crash
    hotPods :=
      if (!pod.ready ∨ pod.restarts > 0) ∧ tally.hotPods.length < maxHotPods ∧ named then
        tally.hotPods ++ [⟨pod.namespaceName, pod.name, pod.restarts, pod.ready⟩]
      else tally.hotPods
    nextResources :=
      if named then
        tally.nextResources.put (pod.key clusterId,
          pod.value (podMetrics (pod.namespaceName ++ "/" ++ pod.name)))
      else tally.nextResources }

/-- The loop of `summarize`. -/
def tallyPods (clusterId : String) (podMetrics : String → JsonObject) (pods : List Pod) :
    PodTally :=
  pods.foldl (PodTally.add clusterId podMetrics) ⟨0, 0, false, [], Table.empty⟩

/-- `int(collection_interval_for_pods(pod_count) * 1000)`. -/
def windowMsForPods (podCount : ℕ) : ℕ :=
  if podCount < 200 then 1000
  else if podCount < 800 then 2000
  else if podCount < 2000 then 5000
  else 10000

/-- The rollout phase of a summary. -/
def rolloutPhase (tally : PodTally) (podsTotal : ℕ) : RolloutPhase :=
  if tally.crashLooping then .degraded
  else if tally.readyCount < podsTotal then .progressing
  else .idle

/-- What one collection observes: the pods and their metrics, the metadata of the
metrics, and the order in which the removed keys come out of their set. -/
structure Collection : Type where
  pods : List Pod
  podMetrics : String → JsonObject
  metricsMetadata : Option LiveMetricsMetadata
  removals : List ResourceKey

/-- `summarize` after the pagination loop. A delta whose key is not safe cannot be
built: the exception leaves the collector as it was. -/
def SummaryCollector.summarize (collector : SummaryCollector) (collection : Collection) :
    Except RealtimeError (LiveSummary × SummaryCollector) := do
  let pods := collection.pods.take liveSummaryPodTotalLimit
  let tally := tallyPods collector.clusterId collection.podMetrics pods
  let deltas := resourceDeltas collector.lastResources tally.nextResources collection.removals
  deltas.forM fun delta => validateDeltaKey delta.key 1024
  let summary : LiveSummary :=
    { clusterId := collector.clusterId
      windowMs := windowMsForPods pods.length
      podsReady := tally.readyCount
      podsTotal := pods.length
      restartDelta := (collector.lastRestartTotal.map fun last => tally.restartTotal - last).getD 0
      rolloutPhase := rolloutPhase tally pods.length
      hotPods := tally.hotPods
      metricsMetadata := collection.metricsMetadata }
  return (summary, { collector with
    lastRestartTotal := some tally.restartTotal
    lastResources := tally.nextResources
    pendingDeltas := deltas })

def SummaryCollector.drainDeltas (collector : SummaryCollector) :
    List ResourceDelta × SummaryCollector :=
  (collector.pendingDeltas, { collector with pendingDeltas := [] })

theorem summarize_eq_ok {collector collector' : SummaryCollector} {collection : Collection}
    {summary : LiveSummary} (h : collector.summarize collection = .ok (summary, collector')) :
    collector'.clusterId = collector.clusterId ∧
      collector'.pendingDeltas = resourceDeltas collector.lastResources collector'.lastResources
        collection.removals ∧
      collector'.lastResources = (tallyPods collector.clusterId collection.podMetrics
        (collection.pods.take liveSummaryPodTotalLimit)).nextResources := by
  unfold SummaryCollector.summarize at h
  simp only [bind, Except.bind, pure, Except.pure] at h
  split at h
  · cases h
  · obtain ⟨-, rfl⟩ := Prod.mk.inj (Except.ok.inj h)
    exact ⟨rfl, rfl, rfl⟩

/-! ## The keys of the collector -/

/-- A pod entry of a cluster. -/
def ResourceKey.isPodOf (key : ResourceKey) (clusterId : String) : Prop :=
  key.cluster = clusterId ∧ key.kind = "pod"

theorem isPodOf_of_mem_tallyPods {clusterId : String} {podMetrics : String → JsonObject}
    {pods : List Pod} {row : ResourceKey × JsonObject}
    (h : row ∈ (tallyPods clusterId podMetrics pods).nextResources.rows) :
    row.1.isPodOf clusterId := by
  suffices hall : ∀ (tally : PodTally),
      (∀ row ∈ tally.nextResources.rows, row.1.isPodOf clusterId) →
      ∀ row ∈ (pods.foldl (PodTally.add clusterId podMetrics) tally).nextResources.rows,
        row.1.isPodOf clusterId from
    hall _ (fun row hrow => absurd hrow List.not_mem_nil) row h
  clear h
  induction pods with
  | nil => exact fun tally h => h
  | cons pod pods ih =>
    intro tally htally
    refine ih _ fun row hrow => ?_
    change row ∈ (if _ then tally.nextResources.put (pod.key clusterId, _)
      else tally.nextResources).rows at hrow
    split at hrow
    · rcases Table.mem_put hrow with rfl | ⟨hold, -⟩
      · exact ⟨rfl, rfl⟩
      · exact htally row hold
    · exact htally row hrow

end Opsia.Realtime
