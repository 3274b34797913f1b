import Mathlib.Data.Prod.Lex
import Opsia.Inventory.Projection
import Opsia.Lib.Keyset

/-!
# Reading the projection

The readers of `domains/inventory_filter/repository.py`: the snapshot context, which hands
out the revision to read at, and `list_filtered_resources`, which reads the versions at a
revision page by page.

The order of texts is the collation of the database, of which only one thing is used: it
tells inventory keys apart. The display names of clusters, read from another table, and
the times of a version are left out.
-/

namespace Opsia.Inventory

variable {κ χ : Type}

/-- The tables that the readers read, as one statement sees them. -/
structure FilterTables (κ χ : Type) : Type where
  revisions : List InventoryFilterRevision
  versions : List (InventoryResourceVersion κ χ)

def ids (values : List String) : List String :=
  ((values.map PyText.strip).filter fun value => value ≠ "").dedup.insertionSort
    fun a b => a ≤ b

/-! ## Snapshot contexts -/

/-- `_latest_filter_revisions_statement`, for one cluster. -/
def latestFilterRevision? (revisions : List InventoryFilterRevision) (workspaceId : String)
    (atRevision : Option ℕ) (clusterId : String) : Option InventoryFilterRevision :=
  ((revisions.filter fun row =>
    row.workspaceId = workspaceId && row.clusterId = clusterId &&
      atRevision.all fun bound => decide (row.revisionId ≤ bound)).insertionSort
        fun a b => b.revisionId ≤ a.revisionId).head?

/-- A snapshot context. -/
structure SnapshotContext : Type where
  snapshotRevision : ℕ
  observedAt : Option Int
  labelsComplete : Bool
  resourcesComplete : Bool
  applicationBindingsComplete : Bool
  partialReasonCodes : List String
  deriving DecidableEq, Repr

def snapshotContextByCluster (row : Option InventoryFilterRevision) : SnapshotContext :=
  match row with
  | none =>
    { snapshotRevision := 0
      observedAt := none
      labelsComplete := false
      resourcesComplete := false
      applicationBindingsComplete := false
      partialReasonCodes := ["missing_inventory_projection"] }
  | some row =>
    { snapshotRevision := row.revisionId
      observedAt := some row.observedAt
      labelsComplete := row.labelsComplete
      resourcesComplete := row.resourcesComplete
      applicationBindingsComplete := row.applicationBindingsComplete
      partialReasonCodes := sortedReasons row.partialReasonCodes }

/-- The context of no cluster. -/
def emptyContext : SnapshotContext where
  snapshotRevision := 0
  observedAt := none
  labelsComplete := true
  resourcesComplete := true
  applicationBindingsComplete := true
  partialReasonCodes := []

def aggregateSnapshotContexts (selected : List SnapshotContext) : SnapshotContext :=
  if selected.isEmpty then emptyContext
  else
    { snapshotRevision := (selected.map fun context => context.snapshotRevision).foldl max 0
      observedAt := (selected.filterMap fun context => context.observedAt).max?
      labelsComplete := selected.all fun context => context.labelsComplete
      resourcesComplete := selected.all fun context => context.resourcesComplete
      applicationBindingsComplete :=
        selected.all fun context => context.applicationBindingsComplete
      partialReasonCodes := sortedReasons (selected.flatMap fun context =>
        context.partialReasonCodes) }

def filterSnapshotContext (tables : FilterTables κ χ) (workspaceId : String)
    (allowedClusterIds : List String) (atRevision : Option ℕ) : SnapshotContext :=
  let clusterIds := ids allowedClusterIds
  if workspaceId = "" ∨ clusterIds = [] then emptyContext
  else
    aggregateSnapshotContexts (clusterIds.map fun clusterId =>
      snapshotContextByCluster
        (latestFilterRevision? tables.revisions workspaceId atRevision clusterId))

/-! ## Versions at a revision -/

section Versions

variable [DecidableEq κ] [DecidableEq χ]

/-- `ROW_NUMBER() OVER (PARTITION BY inventory_key ORDER BY valid_from_revision DESC)`. -/
def rowNumber (candidates : List (InventoryResourceVersion κ χ))
    (version : InventoryResourceVersion κ χ) : ℕ :=
  (((candidates.filter fun other => other.inventoryKey = version.inventoryKey).insertionSort
    fun a b => b.validFromRevision ≤ a.validFromRevision).findIdx fun other =>
      other.versionId = version.versionId) + 1

/-- The rows of `_inventory_versions_at_revision_statement`, before the rank is asked. -/
def candidateVersions (tables : FilterTables κ χ) (workspaceId : String)
    (clusterIds : List String) (snapshotRevision : ℕ) (includeDeleted : Bool) :
    List (InventoryResourceVersion κ χ) :=
  tables.versions.filter fun version =>
    version.workspaceId = workspaceId && version.clusterId ∈ clusterIds &&
      version.validFromRevision ≤ snapshotRevision &&
      (includeDeleted || version.validToRevision.all fun e => decide (snapshotRevision < e)) &&
      (latestFilterRevision? tables.revisions workspaceId (some snapshotRevision)
        version.clusterId).isSome

/-- The rows of `_inventory_versions_at_revision_statement` with rank 1. -/
def inventoryVersionsAtRevision (tables : FilterTables κ χ) (workspaceId : String)
    (clusterIds : List String) (snapshotRevision : ℕ) (includeDeleted : Bool) :
    List (InventoryResourceVersion κ χ) :=
  let candidates :=
    candidateVersions tables workspaceId clusterIds snapshotRevision includeDeleted
  candidates.filter fun version =>
    (if includeDeleted then rowNumber candidates version else 1) = 1

end Versions

/-! ## Filters -/

structure ResourceFilters : Type where
  clusters : List String
  namespaces : List (String × String)
  applications : List String
  resourceTypes : List String
  health : List String
  labels : List (String × String)
  query : Option String
  includeDeleted : Bool
  deriving DecidableEq, Repr

/-- `_has_resource_selection`. -/
def ResourceFilters.hasSelection (filters : ResourceFilters) : Bool :=
  !filters.clusters.isEmpty || !filters.namespaces.isEmpty || !filters.applications.isEmpty ||
    !filters.resourceTypes.isEmpty || !filters.health.isEmpty || !filters.labels.isEmpty ||
    filters.query.getD "" ≠ ""

/-- `search_text` of a version. -/
def searchText (encoding : Encoding κ χ) (version : InventoryResourceVersion κ χ) : String :=
  encoding.casefold (" ".intercalate
    [version.name, version.kind, version.namespaceName.getD "", version.resourceType,
      version.apiVersion, version.uid.getD ""])

/-- `_apply_resource_filters`, of one version. -/
def applyResourceFilters (encoding : Encoding κ χ) (filters : ResourceFilters)
    (allowedApplicationIds : List String) (version : InventoryResourceVersion κ χ) : Bool :=
  (filters.clusters.isEmpty || version.clusterId ∈ filters.clusters) &&
  (filters.namespaces.isEmpty || filters.namespaces.any fun pair =>
    version.clusterId = pair.1 && version.namespaceName = some pair.2) &&
  (filters.resourceTypes.isEmpty || version.resourceType ∈ filters.resourceTypes) &&
  (filters.health.isEmpty || version.health ∈ filters.health) &&
  (filters.query.getD "" = "" ||
    PyText.isIn (encoding.casefold (filters.query.getD "")).toList
      (searchText encoding version).toList) &&
  (filters.labels.all fun label => label ∈ version.labels) &&
  (filters.applications.isEmpty || version.applicationIds.any fun applicationId =>
    applicationId ∈ filters.applications && applicationId ∈ allowedApplicationIds)

/-! ## Sorting -/

/-- How the database orders texts. -/
structure Collation (κ τ : Type) : Type where
  text : String → τ
  key : κ → τ
  /-- inventory keys are told apart -/
  key_injective : Function.Injective key

/-- A cursor position. -/
structure Position (κ : Type) : Type where
  clusterId : String
  namespaceName : String
  resourceType : String
  kind : String
  name : String
  inventoryKey : κ
  deriving DecidableEq, Repr

/-- `_position`. -/
def positionOf (version : InventoryResourceVersion κ χ) : Position κ where
  clusterId := version.clusterId
  namespaceName := version.namespaceName.getD ""
  resourceType := version.resourceType
  kind := version.kind
  name := version.name
  inventoryKey := version.inventoryKey

/-- Tuples of six columns, in their order. -/
abbrev SortKey (τ : Type) : Type := τ ×ₗ τ ×ₗ τ ×ₗ τ ×ₗ τ ×ₗ τ

variable {τ : Type} [LinearOrder τ] (collation : Collation κ τ)

def positionTuple (position : Position κ) : SortKey τ :=
  toLex (collation.text position.clusterId, toLex (collation.text position.namespaceName,
    toLex (collation.text position.resourceType, toLex (collation.text position.kind,
      toLex (collation.text position.name, collation.key position.inventoryKey)))))

/-- `_sort_tuple`: the columns of a row are those of its position. -/
def sortTuple (version : InventoryResourceVersion κ χ) : SortKey τ :=
  positionTuple collation (positionOf version)

omit [LinearOrder τ] in
/-- **Rows with different keys have different sort tuples.** -/
theorem inventoryKey_eq_of_sortTuple {v w : InventoryResourceVersion κ χ}
    (h : sortTuple collation v = sortTuple collation w) : v.inventoryKey = w.inventoryKey := by
  simp only [sortTuple, positionTuple, positionOf, toLex_inj, Prod.mk.injEq] at h
  exact collation.key_injective h.2.2.2.2.2

/-- The priority column of `_resource_page_order`. -/
def graphRank (version : InventoryResourceVersion κ χ) : ℕ :=
  if version.resourceType ∈ ["workload", "pod", "node", "service", "endpoint"] then 0 else 1

/-! ## Listing -/

/-- The arguments of `list_filtered_resources`. -/
structure ResourceRequest (κ : Type) : Type where
  workspaceId : String
  allowedClusterIds : List String
  allowedApplicationIds : List String
  filters : ResourceFilters
  snapshotRevision : ℕ
  position : Option (Position κ)
  limit : Int
  graphPriority : Bool

/-- What a request is refused with. -/
inductive QueryError : Type where
  /-- graph-priority resource pages do not support a cursor position -/
  | graphPriorityCursor
  deriving DecidableEq, Repr

/-- An item of a page. -/
structure ResourceItem (κ : Type) : Type extends InventoryResource where
  inventoryKey : κ
  snapshotId : String
  workspaceId : String
  clusterId : String
  /-- the revision that closed the version, when that is not later than the one read at;
  the source shows the time of its snapshot -/
  deletedAt : Option ℕ
  applicationIds : List String
  applicationBindingExact : Bool
  deriving DecidableEq, Repr

def serializeVersionRow (snapshotRevision : ℕ) (allowedApplicationIds : List String)
    (version : InventoryResourceVersion κ χ) : ResourceItem κ where
  toInventoryResource := version.toInventoryResource
  inventoryKey := version.inventoryKey
  snapshotId := version.sourceSnapshotId
  workspaceId := version.workspaceId
  clusterId := version.clusterId
  deletedAt := version.validToRevision.filter fun e => decide (e ≤ snapshotRevision)
  applicationIds := version.applicationIds.filter fun applicationId =>
    applicationId ∈ allowedApplicationIds
  applicationBindingExact := version.applicationBindingComplete &&
    version.applicationIds.all fun applicationId => applicationId ∈ allowedApplicationIds

/-- The result of `list_filtered_resources`. -/
structure ResourcePage (κ : Type) : Type where
  items : List (ResourceItem κ)
  filteredCount : ℕ
  unfilteredCount : ℕ
  hasMore : Bool
  nextPosition : Option (Position κ)
  deriving DecidableEq, Repr

def emptyPage : ResourcePage κ where
  items := []
  filteredCount := 0
  unfilteredCount := 0
  hasMore := false
  nextPosition := none

section Listing

variable [DecidableEq κ] [DecidableEq χ] (encoding : Encoding κ χ)

/-- The versions that a request may see, before its filters. -/
def unfilteredVersions (tables : FilterTables κ χ) (request : ResourceRequest κ) :
    List (InventoryResourceVersion κ χ) :=
  inventoryVersionsAtRevision tables request.workspaceId (ids request.allowedClusterIds)
    request.snapshotRevision request.filters.includeDeleted

/-- The versions that a request asks for. -/
def filteredVersions (tables : FilterTables κ χ) (request : ResourceRequest κ) :
    List (InventoryResourceVersion κ χ) :=
  (unfilteredVersions tables request).filter
    (applyResourceFilters encoding request.filters (ids request.allowedApplicationIds))

def ResourceRequest.effectiveLimit (request : ResourceRequest κ) : ℕ :=
  (max 1 (min request.limit 200)).toNat

/-- The rows of the page statement. -/
def pageRows (tables : FilterTables κ χ) (request : ResourceRequest κ) :
    List (InventoryResourceVersion κ χ) :=
  if request.graphPriority then
    Keyset.fetched (fun version => (toLex (graphRank version, sortTuple collation version) :
      ℕ ×ₗ SortKey τ)) (filteredVersions encoding tables request) none request.effectiveLimit
  else
    Keyset.fetched (sortTuple collation) (filteredVersions encoding tables request)
      (request.position.map (positionTuple collation)) request.effectiveLimit

/-- The count column. -/
def filteredCount (tables : FilterTables κ χ) (request : ResourceRequest κ) : ℕ :=
  if request.filters.hasSelection then (filteredVersions encoding tables request).length
  else (unfilteredVersions tables request).length

/-- `list_filtered_resources`; the page statement and the count statement, which only an
empty page runs, each see the tables as they are when it runs. -/
def listFilteredResources (atPage atCount : FilterTables κ χ) (request : ResourceRequest κ) :
    Except QueryError (ResourcePage κ) :=
  if request.workspaceId = "" ∨ ids request.allowedClusterIds = [] ∨
      request.snapshotRevision = 0 then .ok emptyPage
  else if request.graphPriority && request.position.isSome then .error .graphPriorityCursor
  else
    let fetched := pageRows collation encoding atPage request
    let hasMore := decide (request.effectiveLimit < fetched.length)
    let rows := fetched.take request.effectiveLimit
    let counted := if rows.isEmpty then atCount else atPage
    let filteredTotal := filteredCount encoding counted request
    .ok
      { items := rows.map (serializeVersionRow request.snapshotRevision
          (ids request.allowedApplicationIds))
        filteredCount := filteredTotal
        unfilteredCount :=
          if request.filters.hasSelection then (unfilteredVersions counted request).length
          else filteredTotal
        hasMore := hasMore
        nextPosition := if hasMore then rows.getLast?.map positionOf else none }

end Listing

end Opsia.Inventory
