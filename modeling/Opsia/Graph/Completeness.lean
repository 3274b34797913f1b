import Opsia.Graph.Edges

/-!
# What a resource graph shows

A graph calls its relations exact when nothing is left out and nothing is unknown (`CallsExact`).
Its edges join its nodes and it is the same for every order of the items; where it calls its
relations exact, its edges are the relations among the items exactly when owners, nodes and Services
can be told (`graph_sound_and_complete`).
-/

namespace Opsia.Graph

variable {env : GraphEnv} {rows items : List GraphItem}

/-! ## Exactness -/

theorem sortedTexts_eq_nil_iff {texts : List String} :
    sortedTexts texts = [] ↔ ∀ text ∈ texts, text = "" := by
  have hperm := List.perm_insertionSort (· ≤ ·) (texts.filter (· ≠ "")).dedup
  rw [sortedTexts]
  constructor
  · intro h text htext
    rw [h] at hperm
    by_contra hne
    have hmem : text ∈ (texts.filter (· ≠ "")).dedup :=
      List.mem_dedup.mpr (List.mem_filter.mpr ⟨htext, decide_eq_true hne⟩)
    rw [hperm.symm.eq_nil] at hmem
    cases hmem
  · intro h
    have hnil : texts.filter (· ≠ "") = [] :=
      List.filter_eq_nil_iff.mpr fun text htext => by simp [h text htext]
    rw [hnil]
    rfl

theorem forall_reason_iff {c : Prop} [Decidable c] {reason : String} (hreason : reason ≠ "") :
    (∀ text ∈ (if c then [reason] else []), text = "") ↔ ¬ c := by
  by_cases hc : c
  · rw [if_pos hc, List.forall_mem_singleton]
    exact iff_of_false hreason (not_not.mpr hc)
  · rw [if_neg hc]
    exact iff_of_true (List.forall_mem_nil _) hc

theorem forall_reason_iff' {c : Prop} [Decidable c] {reason : String} (hreason : reason ≠ "") :
    (∀ text ∈ (if c then [] else [reason]), text = "") ↔ c := by
  by_cases hc : c
  · rw [if_pos hc]
    exact iff_of_true (List.forall_mem_nil _) hc
  · rw [if_neg hc, List.forall_mem_singleton]
    exact iff_of_false hreason hc

/-- The inputs on which a graph calls its relations exact: nothing is left out or unknown. -/
structure CallsExact (env : GraphEnv) (request : GraphRequest) (items : List GraphItem) : Prop where
  revision : 0 < request.snapshotRevision
  reasons : ∀ reason ∈ request.partialReasonCodes, reason = ""
  source : request.sourceComplete = true
  labels : request.labelsComplete = true
  untruncated : request.truncated = false
  omitted : request.omittedNodeCount ≤ 0
  nodes : items.length ≤ request.nodeLimit
  owners : ∀ item ∈ items, ownerReferenceIncomplete item = false
  selectors : ∀ item ∈ items,
    selectorUnknown env (Keyset.sorted GraphItem.key items) true item = false
  edges : (canonicalEdges (foundEdges env (Keyset.sorted GraphItem.key items) true)).length ≤
    request.edgeLimit

/-- The rows that a graph shows. -/
def graphRows (request : GraphRequest) (items : List GraphItem) : List GraphItem :=
  (Keyset.sorted GraphItem.key items).take request.nodeLimit

theorem graphRows_eq {request : GraphRequest} (h : items.length ≤ request.nodeLimit) :
    graphRows request items = Keyset.sorted GraphItem.key items :=
  List.take_of_length_le (Keyset.perm_sorted.length_eq.trans_le h)

theorem any_sorted_iff {p : GraphItem → Bool} :
    (¬ (Keyset.sorted GraphItem.key items).any p = true) ↔ ∀ item ∈ items, p item = false := by
  rw [Bool.not_eq_true, List.any_eq_false]
  simp only [Keyset.mem_sorted, Bool.not_eq_true]

/-- The count of the nodes left out, and whether something is. -/
theorem untruncated_iff {truncated : Bool} {omitted : ℤ} {left : ℕ} :
    (¬ ((truncated || decide (left ≠ 0)) = true ∨ max 0 omitted + (left : ℤ) ≠ 0)) ↔
      truncated = false ∧ omitted ≤ 0 ∧ left = 0 := by
  simp only [not_or, ne_eq, Bool.not_eq_true, Bool.or_eq_false_iff, decide_eq_false_iff_not,
    not_not]
  constructor
  · rintro ⟨⟨htruncated, hleft⟩, hsum⟩
    exact ⟨htruncated, by omega, hleft⟩
  · rintro ⟨htruncated, homitted, hleft⟩
    exact ⟨⟨htruncated, hleft⟩, by omega⟩

/-- **A graph calls its relations exact on these inputs.** -/
theorem callsExact_iff {request : GraphRequest} :
    CallsExact env request items ↔ 0 < request.snapshotRevision ∧
      sortedTexts (partialReasons env request (graphRows request items)
        (request.truncated || (Keyset.sorted GraphItem.key items).length - request.nodeLimit ≠ 0)
        (max 0 request.omittedNodeCount +
          ((Keyset.sorted GraphItem.key items).length - request.nodeLimit : ℕ))
        ((canonicalEdges (foundEdges env (graphRows request items)
          request.labelsComplete)).length - request.edgeLimit)) = [] := by
  rw [sortedTexts_eq_nil_iff, partialReasons]
  simp only [List.forall_mem_append]
  rw [forall_reason_iff' (by decide), forall_reason_iff' (by decide), forall_reason_iff (by decide),
    forall_reason_iff (by decide), forall_reason_iff (by decide), forall_reason_iff (by decide),
    untruncated_iff, not_not, Keyset.perm_sorted.length_eq, Nat.sub_eq_zero_iff_le,
    Nat.sub_eq_zero_iff_le]
  constructor
  · intro h
    rw [graphRows_eq h.nodes, h.labels, any_sorted_iff, any_sorted_iff]
    exact ⟨h.revision, ⟨⟨⟨⟨⟨h.reasons, h.source⟩, rfl⟩, h.selectors⟩, h.owners⟩, h.untruncated,
      h.omitted, h.nodes⟩, h.edges⟩
  · rintro ⟨hrevision, ⟨⟨⟨⟨⟨hreasons, hsource⟩, hlabels⟩, hselectors⟩, howners⟩, huntruncated,
      homitted, hnodes⟩, hedges⟩
    rw [graphRows_eq hnodes] at hselectors howners hedges
    rw [hlabels] at hselectors hedges
    exact ⟨hrevision, hreasons, hsource, hlabels, huntruncated, homitted, hnodes,
      any_sorted_iff.mp howners, any_sorted_iff.mp hselectors, hedges⟩

/-! ## The graph -/

/-- What a graph is asked for with: positive limits, items of one cluster with distinct keys. -/
structure Buildable (request : GraphRequest) (items : List GraphItem) : Prop where
  node_limit : 1 ≤ request.nodeLimit
  edge_limit : 1 ≤ request.edgeLimit
  named : ∀ item ∈ items, item.key ≠ ""
  distinct : (items.map GraphItem.key).Nodup
  one_cluster : ∀ a ∈ items, ∀ b ∈ items, a.resource.clusterId = b.resource.clusterId

variable {request : GraphRequest}

theorem severalClusters_eq_false
    (h : ∀ a ∈ rows, ∀ b ∈ rows, a.resource.clusterId = b.resource.clusterId) :
    severalClusters rows = false := by
  have hall : ∀ a ∈ ((rows.map (·.resource.clusterId)).filter (· ≠ "")).dedup,
      ∃ row ∈ rows, row.resource.clusterId = a := by
    intro a ha
    exact List.mem_map.mp (List.mem_filter.mp (List.mem_dedup.mp ha)).1
  have hnodup := List.nodup_dedup ((rows.map (·.resource.clusterId)).filter (· ≠ ""))
  rw [severalClusters, decide_eq_false_iff_not, Nat.not_lt]
  generalize ((rows.map (·.resource.clusterId)).filter (· ≠ "")).dedup = ids at hall hnodup
  rcases ids with _ | ⟨a, _ | ⟨b, ids⟩⟩
  · exact Nat.zero_le 1
  · exact Nat.le_refl 1
  · obtain ⟨row, hrow, rfl⟩ := hall a (by simp)
    obtain ⟨row', hrow', rfl⟩ := hall b (by simp)
    refine absurd ?_ (List.nodup_cons.mp hnodup).1
    rw [h row hrow row' hrow']
    exact List.mem_cons_self

theorem mem_of_mem_graphRows {item : GraphItem} (h : item ∈ graphRows request items) :
    item ∈ items :=
  Keyset.mem_sorted.mp (List.mem_of_mem_take h)

theorem nodup_graphRows (h : Buildable request items) :
    ((graphRows request items).map GraphItem.key).Nodup :=
  ((Keyset.perm_sorted.map GraphItem.key).nodup_iff.mpr h.distinct).sublist
    ((List.take_sublist _ _).map _)

theorem completeness_eq_exact_iff {revision : ℤ} {reasons : List String} :
    (if revision ≤ 0 then RelationCompleteness.unavailable
      else if reasons = [] then .exact else .isPartial) = .exact ↔
      0 < revision ∧ reasons = [] := by
  by_cases hrevision : revision ≤ 0
  · rw [if_pos hrevision]
    exact iff_of_false (by decide) fun h => absurd h.1 (Int.not_lt.mpr hrevision)
  · rw [if_neg hrevision, and_iff_right (Int.not_le.mp hrevision)]
    by_cases hreasons : reasons = []
    · rw [if_pos hreasons]
      exact iff_of_true rfl hreasons
    · rw [if_neg hreasons]
      exact iff_of_false (by decide) hreasons

/-- **A graph is built of the first rows and of the edges found among them.** -/
theorem buildResourceGraph_eq (h : Buildable request items) :
    ∃ graph, buildResourceGraph env request items = .ok graph ∧
      graph.nodes.map Node.nodeId = (graphRows request items).map GraphItem.key ∧
      graph.edges = (canonicalEdges (foundEdges env (graphRows request items)
        request.labelsComplete)).take request.edgeLimit ∧
      (∀ id, id ∈ graph.rootNodeIds ↔ id ∈ graph.nodes.map Node.nodeId ∧
        ∀ e ∈ graph.edges, e.kind = .owns → e.toNodeId ≠ id) ∧
      (graph.relationCompleteness = .exact ↔ CallsExact env request items) := by
  have hlimits : ¬ (request.nodeLimit < 1 ∨ request.edgeLimit < 1) := by
    rintro (hnode | hedge)
    · exact absurd h.node_limit (Nat.not_le.mpr hnode)
    · exact absurd h.edge_limit (Nat.not_le.mpr hedge)
  have hnamed : ¬ items.any (fun item => decide (item.key = "")) = true := by
    rw [List.any_eq_true]
    rintro ⟨item, hitem, hempty⟩
    exact h.named item hitem (of_decide_eq_true hempty)
  have hids : ((graphRows request items).map (node env)).map Node.nodeId =
      (graphRows request items).map GraphItem.key := by
    rw [List.map_map]
    rfl
  have hnodup := nodup_graphRows h
  have hcluster : severalClusters (graphRows request items) = false :=
    severalClusters_eq_false fun a ha b hb =>
      h.one_cluster a (mem_of_mem_graphRows ha) b (mem_of_mem_graphRows hb)
  rw [buildResourceGraph, if_neg hlimits, if_neg hnamed]
  refine ⟨_, (if_neg (not_not.mpr (hids ▸ hnodup))).trans
    (if_neg (Bool.eq_false_iff.mp hcluster)), hids, rfl, fun id => ?_, ?_⟩
  · simp only [List.mem_insertionSort, List.mem_filter, List.mem_map, decide_eq_true_eq]
    refine and_congr_right fun _ => ?_
    simp only [not_exists, not_and, and_imp]
  · rw [callsExact_iff]
    exact completeness_eq_exact_iff

theorem buildResourceGraph_perm (hkeys : (items.map GraphItem.key).Nodup) {items' : List GraphItem}
    (hperm : items'.Perm items) :
    buildResourceGraph env request items' = buildResourceGraph env request items := by
  simp only [buildResourceGraph, Keyset.sorted_eq_of_perm hkeys hperm, hperm.any_eq]

theorem sole_sorted_iff {P : GraphItem → Prop} {item : GraphItem} :
    Sole (Keyset.sorted GraphItem.key items) P item ↔ Sole items P item := by
  simp only [Sole, Keyset.mem_sorted]

theorem shows_sorted_iff {kind : RelationKind} {source target : GraphItem}
    (htarget : target ∈ Keyset.sorted GraphItem.key items) :
    Shows env (Keyset.sorted GraphItem.key items) true kind source target ↔
      Finds env items kind source target := by
  cases kind with
  | owns =>
    exact sole_sorted_iff (P := fun item =>
      Declares env target item ∧ item.namespaceName = target.namespaceName)
  | runsOn => exact sole_sorted_iff
  | selects => exact selected_iff_finds.trans (and_iff_right htarget)
  | routesTo => exact sole_sorted_iff

theorem edgesAreRelations_iff (hkeys : (items.map GraphItem.key).Nodup) {edges : List Edge}
    (hedges : ∀ e, e ∈ edges ↔ ∃ kind, ∃ source ∈ items, ∃ target ∈ items,
      Finds env items kind source target ∧ relationEdge env kind source target = e) :
    EdgesAreRelations env items edges ↔ Identifiable env items := by
  rw [← finds_iff_relates]
  have hshown (kind : RelationKind) {source target : GraphItem} (hsource : source ∈ items)
      (htarget : target ∈ items) : (∃ e ∈ edges, e.kind = kind ∧ e.fromNodeId = source.key ∧
        e.toNodeId = target.key) ↔ Finds env items kind source target := by
    constructor
    · rintro ⟨e, he, rfl, hfrom, hto⟩
      obtain ⟨kind, source', hsource', target', htarget', hfinds, rfl⟩ := (hedges e).mp he
      rw [relationEdge_from] at hfrom
      rw [relationEdge_to] at hto
      obtain rfl := List.inj_on_of_nodup_map hkeys hsource' hsource hfrom
      obtain rfl := List.inj_on_of_nodup_map hkeys htarget' htarget hto
      rwa [relationEdge_kind]
    · intro hfinds
      exact ⟨_, (hedges _).mpr ⟨kind, source, hsource, target, htarget, hfinds, rfl⟩,
        relationEdge_kind .., relationEdge_from .., relationEdge_to ..⟩
  constructor
  · intro h kind source hsource target htarget
    rw [← hshown kind hsource htarget, h]
    constructor
    · rintro ⟨source', hsource', target', htarget', hfrom, hto, hrelates⟩
      obtain rfl := List.inj_on_of_nodup_map hkeys hsource' hsource hfrom
      obtain rfl := List.inj_on_of_nodup_map hkeys htarget' htarget hto
      exact hrelates
    · intro hrelates
      exact ⟨source, hsource, target, htarget, rfl, rfl, hrelates⟩
  · intro h kind sourceId targetId
    constructor
    · rintro ⟨e, he, rfl, rfl, rfl⟩
      obtain ⟨kind, source, hsource, target, htarget, hfinds, rfl⟩ := (hedges e).mp he
      rw [relationEdge_kind, relationEdge_from, relationEdge_to]
      exact ⟨source, hsource, target, htarget, rfl, rfl,
        (h kind source hsource target htarget).mp hfinds⟩
    · rintro ⟨source, hsource, target, htarget, rfl, rfl, hrelates⟩
      exact (hshown kind hsource htarget).mpr ((h kind source hsource target htarget).mpr hrelates)

/-- **Where a graph calls its relations exact, its edges are the relations exactly when these can be
told.** -/
theorem edgesAreRelations_of_callsExact (h : Buildable request items)
    (hcalls : CallsExact env request items) :
    EdgesAreRelations env items ((canonicalEdges (foundEdges env (graphRows request items)
      request.labelsComplete)).take request.edgeLimit) ↔ Identifiable env items := by
  have hrows := nodup_graphRows h
  rw [graphRows_eq hcalls.nodes] at hrows ⊢
  rw [hcalls.labels, List.take_of_length_le hcalls.edges]
  refine edgesAreRelations_iff h.distinct fun e => ?_
  rw [mem_canonicalEdges hrows, mem_foundEdges hrows]
  constructor
  · rintro ⟨kind, source, hsource, target, htarget, hshows, rfl⟩
    exact ⟨kind, source, Keyset.mem_sorted.mp hsource, target, Keyset.mem_sorted.mp htarget,
      (shows_sorted_iff htarget).mp hshows, rfl⟩
  · rintro ⟨kind, source, hsource, target, htarget, hfinds, rfl⟩
    have htarget' : target ∈ Keyset.sorted GraphItem.key items := Keyset.mem_sorted.mpr htarget
    exact ⟨kind, source, Keyset.mem_sorted.mpr hsource, target, htarget',
      (shows_sorted_iff htarget').mpr hfinds, rfl⟩

/-- What a graph of items promises: its edges join its nodes and have ids of their own, the order of
the items does not matter, its roots are the nodes without an owner, and a graph that calls its
relations exact has the relations among the items as its edges. -/
structure SoundAndComplete (env : GraphEnv) (request : GraphRequest) (items : List GraphItem)
    (graph : ResourceGraph) : Prop where
  endpoints : ∀ e ∈ graph.edges, e.fromNodeId ∈ graph.nodes.map Node.nodeId ∧
    e.toNodeId ∈ graph.nodes.map Node.nodeId
  ids : (graph.edges.map Edge.edgeId).Nodup
  permuted : ∀ items', items'.Perm items → buildResourceGraph env request items' = .ok graph
  roots : ∀ id, id ∈ graph.rootNodeIds ↔ id ∈ graph.nodes.map Node.nodeId ∧
    ∀ e ∈ graph.edges, e.kind = .owns → e.toNodeId ≠ id
  complete : graph.relationCompleteness = .exact → EdgesAreRelations env items graph.edges

/-- **A graph is sound, and complete when it says so, exactly when the relations can be told on the
inputs on which it says so.** -/
theorem graph_sound_and_complete (env : GraphEnv) (request : GraphRequest)
    (items : List GraphItem) (h : Buildable request items) :
    ∃ graph, buildResourceGraph env request items = .ok graph ∧
      (SoundAndComplete env request items graph ↔
        (CallsExact env request items → Identifiable env items)) := by
  obtain ⟨graph, hgraph, hnodes, hedges, hroots, hexact⟩ :=
    @buildResourceGraph_eq env items request h
  have hrows := nodup_graphRows h
  have hfound (hcalls : CallsExact env request items) :
      EdgesAreRelations env items graph.edges ↔ Identifiable env items :=
    hedges ▸ edgesAreRelations_of_callsExact h hcalls
  refine ⟨graph, hgraph, fun hsound hcalls => ?_, fun hidentifiable => ?_⟩
  · exact (hfound hcalls).mp (hsound.complete (hexact.mpr hcalls))
  · refine ⟨fun e he => ?_, ?_, fun items' hperm => ?_, hroots, fun hcompleteness => ?_⟩
    · rw [hedges] at he
      obtain ⟨kind, source, hsource, target, htarget, -, rfl⟩ :=
        (mem_foundEdges hrows).mp ((mem_canonicalEdges hrows).mp (List.mem_of_mem_take he))
      rw [hnodes, relationEdge_from, relationEdge_to]
      exact ⟨List.mem_map_of_mem hsource, List.mem_map_of_mem htarget⟩
    · rw [hedges]
      exact (nodup_canonicalEdges _).sublist ((List.take_sublist _ _).map _)
    · rw [buildResourceGraph_perm h.distinct hperm, hgraph]
    · have hcalls := hexact.mp hcompleteness
      exact (hfound hcalls).mpr (hidentifiable hcalls)

/-! ## A Pod that its node owns -/

def sampleEnv : GraphEnv where
  casefold := fun text =>
    if text = "Node" then "node" else if text = "Pod" then "pod"
    else if text = "Service" then "service" else text
  str := fun value => match value with
    | .str text => text
    | _ => ""
  edgeDigest := id
  edgeDigest_injective := Function.injective_id
  graphDigest := fun payload => payload.filterFingerprint

def sampleRequest : GraphRequest where
  snapshotRevision := 1
  filterFingerprint := "f"
  sourceComplete := true
  labelsComplete := true
  truncated := false
  nodeLimit := 200
  edgeLimit := 1000
  omittedNodeCount := 0
  partialReasonCodes := []
  cluster := none
  authorizationRevision := ""

def noSummary : Summary := ⟨none, none, none, true, none, none, .none⟩

/-- An item of a kind in a namespace. -/
def sampleResource (key resourceType kind : String) (namespaceName : Option String)
    (name : String) (summary : Summary) : Resource where
  inventoryKey := key
  clusterId := "c1"
  resourceType := resourceType
  apiVersion := "v1"
  kind := kind
  namespaceName := namespaceName
  name := name
  uid := some key
  status := "ready"
  health := "healthy"
  observedAt := none
  deletedAt := none
  labels := []
  summary := summary

def sampleNode : GraphItem :=
  ⟨sampleResource "a1" "node" "Node" none "n1" noSummary, [], none, [], by decide⟩

/-- A mirror Pod of the node. -/
def sampleMirrorPod : GraphItem :=
  ⟨sampleResource "b1" "pod" "Pod" (some "kube-system") "etcd-n1"
    ⟨some "Node", some "n1", some "a1", true, some "n1", none, .none⟩, [], none, [], by decide⟩

/-- A Pod of the node that nothing owns. -/
def samplePod : GraphItem :=
  ⟨sampleResource "b2" "pod" "Pod" (some "shop") "web"
    ⟨none, none, none, true, some "n1", none, .none⟩, [], none, [], by decide⟩

theorem buildable_sample (pod : GraphItem) (hpod : pod = sampleMirrorPod ∨ pod = samplePod) :
    Buildable sampleRequest [sampleNode, pod] where
  node_limit := by decide
  edge_limit := by decide
  named := by rcases hpod with rfl | rfl <;> decide +kernel
  distinct := by rcases hpod with rfl | rfl <;> decide +kernel
  one_cluster := by rcases hpod with rfl | rfl <;> decide +kernel

theorem callsExact_mirrorPod :
    CallsExact sampleEnv sampleRequest [sampleNode, sampleMirrorPod] where
  revision := by decide
  reasons := by decide
  source := rfl
  labels := rfl
  untruncated := rfl
  omitted := by decide
  nodes := by decide
  owners := by decide +kernel
  selectors := by decide +kernel
  edges := by decide +kernel

/-- The graph of a node and its mirror Pod calls its relations exact and has no edge from the owner
of the Pod. -/
theorem graph_without_owner :
    Buildable sampleRequest [sampleNode, sampleMirrorPod] ∧
      ∃ graph,
        buildResourceGraph sampleEnv sampleRequest [sampleNode, sampleMirrorPod] = .ok graph ∧
        graph.relationCompleteness = .exact ∧
        ¬ SoundAndComplete sampleEnv sampleRequest [sampleNode, sampleMirrorPod] graph := by
  have hbuildable := buildable_sample sampleMirrorPod (.inl rfl)
  obtain ⟨graph, hgraph, -, hedges, -, hexact⟩ :=
    @buildResourceGraph_eq sampleEnv _ _ hbuildable
  have hcompleteness := hexact.mpr callsExact_mirrorPod
  refine ⟨hbuildable, graph, hgraph, hcompleteness, fun hsound => ?_⟩
  have hrelations := hsound.complete hcompleteness
  rw [hedges, edgesAreRelations_of_callsExact hbuildable callsExact_mirrorPod] at hrelations
  have hdeclares : Declares sampleEnv sampleMirrorPod sampleNode :=
    ⟨"Node", "a1", by decide +kernel, by decide +kernel, by decide +kernel, by decide +kernel, rfl⟩
  obtain ⟨hnamespace, -⟩ :=
    hrelations.owners sampleMirrorPod (by simp) sampleNode (by simp) hdeclares
  exact absurd hnamespace (by decide +kernel)

/-- The graph of a node and a Pod that runs on it. -/
theorem graph_of_placed_pod : ∃ graph,
    buildResourceGraph sampleEnv sampleRequest [sampleNode, samplePod] = .ok graph ∧
      (SoundAndComplete sampleEnv sampleRequest [sampleNode, samplePod] graph ↔
        (CallsExact sampleEnv sampleRequest [sampleNode, samplePod] →
          Identifiable sampleEnv [sampleNode, samplePod])) :=
  graph_sound_and_complete sampleEnv sampleRequest [sampleNode, samplePod]
    (buildable_sample samplePod (.inr rfl))

end Opsia.Graph
