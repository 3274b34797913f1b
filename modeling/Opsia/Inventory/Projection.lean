import Opsia.Inventory.Resources
import Opsia.Lib.Temporal

/-!
# Snapshots and their projection

`save_inventory_snapshot_mutation` and the projection it drives in the same transaction,
`sync_inventory_filter_projection` of `domains/inventory_filter/repository.py`.

A snapshot is one transaction under the advisory lock of its cluster, so that the model
runs it as one function on the tables. The observation times of rows and versions and the
usage samples are left out: nothing here reads them. The timeline events of a snapshot are
in `Opsia.Inventory.TimelineFacts`.
-/

namespace Opsia.Inventory

/-! ## Application bindings -/

/-- A row of `authoritative_application_resource_statement`. -/
structure ApplicationResource : Type where
  bindingId : String
  applicationId : String
  apiVersion : String
  kind : String
  namespaceName : Option String
  name : String
  deriving DecidableEq, Repr

/-- What the GitOps tables say about one cluster when a snapshot is projected. -/
structure ApplicationBindings : Type where
  rows : List ApplicationResource
  activeBindingIds : List String
  deriving DecidableEq, Repr

variable {κ χ : Type} (encoding : Encoding κ χ)

/-- `_application_ids_by_resource_identity`, at the identity of one resource: the sorted
identifiers of its applications. -/
def applicationIdsOf (bindings : ApplicationBindings) (resource : InventoryResource) :
    List String :=
  let rows := bindings.rows.filter fun row =>
    encoding.casefold row.kind ≠ "" && row.name ≠ "" && row.applicationId ≠ "" &&
      row.apiVersion = resource.apiVersion &&
      encoding.casefold row.kind = encoding.casefold resource.kind &&
      row.namespaceName = resource.namespaceName && row.name = resource.name
  (rows.map fun row => row.applicationId).dedup.insertionSort fun a b => a ≤ b

/-- Its second result: every active binding of the cluster is covered. -/
def applicationBindingComplete (bindings : ApplicationBindings) : Bool :=
  bindings.activeBindingIds.all fun bindingId =>
    bindingId ∈ bindings.rows.map fun row => row.bindingId

/-! ## Versions -/

/-- A row of `inventory_resource_versions`, with the rows of the application table that
belong to it; the label rows are its labels. -/
structure InventoryResourceVersion (κ χ : Type) : Type extends Meaningful κ where
  versionId : ℕ
  sourceSnapshotId : String
  workspaceId : String
  clusterId : String
  validFromRevision : ℕ
  validToRevision : Option ℕ
  contentHash : χ
  deriving DecidableEq, Repr

/-- The version table as an interval-versioned table. -/
def versioning (κ χ : Type) : Versioning (InventoryResourceVersion κ χ) κ χ ℕ where
  key version := version.inventoryKey
  content version := version.contentHash
  start version := version.validFromRevision
  stop version := version.validToRevision
  close revisionId version := { version with validToRevision := some revisionId }
  key_close _ _ := rfl
  content_close _ _ := rfl
  start_close _ _ := rfl
  stop_close _ _ := rfl

/-- An open version of one cluster. -/
def InventoryResourceVersion.activeIn (workspaceId clusterId : String)
    (version : InventoryResourceVersion κ χ) : Bool :=
  version.workspaceId = workspaceId && version.clusterId = clusterId &&
    version.validToRevision = none

theorem InventoryResourceVersion.activeIn_iff {workspaceId clusterId : String}
    {version : InventoryResourceVersion κ χ} :
    version.activeIn workspaceId clusterId = true ↔
      version.workspaceId = workspaceId ∧ version.clusterId = clusterId ∧
        version.validToRevision = none := by
  simp [InventoryResourceVersion.activeIn, and_assoc]

def normalizedLabels (labels : List (String × String)) : List (String × String) :=
  (labels.filter fun label => label.1 ≠ "").insertionSort fun a b => a.1 ≤ b.1

/-- The fields of a row that its version keeps. -/
def meaningfulOf (bindings : ApplicationBindings) (resource : ResourceRecord κ) : Meaningful κ where
  toInventoryResource :=
    { resource.toInventoryResource with labels := normalizedLabels resource.labels }
  inventoryKey := resource.inventoryKey
  applicationIds := applicationIdsOf encoding bindings resource.toInventoryResource
  applicationBindingComplete := applicationBindingComplete bindings

/-- `_version_row`; the revision and the version identifier are stamped when it is
written. -/
def versionRow (bindings : ApplicationBindings) (snapshotId : String)
    (resource : ResourceRecord κ) : InventoryResourceVersion κ χ where
  toMeaningful := meaningfulOf encoding bindings resource
  versionId := 0
  sourceSnapshotId := snapshotId
  workspaceId := resource.workspaceId
  clusterId := resource.clusterId
  validFromRevision := 0
  validToRevision := none
  contentHash := encoding.contentHash (meaningfulOf encoding bindings resource)

/-! ## The diff -/

structure ProjectionDiff (κ χ : Type) : Type where
  applicationBindingComplete : Bool
  desiredRows : List (InventoryResourceVersion κ χ)
  closeIds : List ℕ

/-- What `sync_inventory_filter_projection` is told about a snapshot. -/
structure ProjectionInput : Type where
  workspaceId : String
  clusterId : String
  snapshotId : String
  observedAt : Int
  labelsComplete : Bool
  resourcesComplete : Bool
  partialReasonCodes : List String
  deletionScopes : List InventoryDeleteScope
  bindings : ApplicationBindings

variable [DecidableEq κ] [DecidableEq χ]

/-- `active_rows`, the open versions of the cluster by key. -/
def activeRows (versions : List (InventoryResourceVersion κ χ)) (workspaceId clusterId : String) :
    Table (ρ := InventoryResourceVersion κ χ) fun version => version.inventoryKey :=
  (versions.filter fun version => version.activeIn workspaceId clusterId).foldl
    Table.put Table.empty

/-- `current_rows`, the live rows that this snapshot wrote. -/
def currentRows (resources : InventoryRows κ) (input : ProjectionInput) :
    List (ResourceRecord κ) :=
  resources.rows.filter fun row =>
    row.liveIn input.workspaceId input.clusterId && row.snapshotId = input.snapshotId

def missingProjectionResourceDeleteSafe (input : ProjectionInput)
    (version : InventoryResourceVersion κ χ) : Bool :=
  input.resourcesComplete ||
    inDeletionScopes version.resourceType version.namespaceName input.deletionScopes

/-- The current rows that no active row of their key has the content of. -/
def changedRows (versions : List (InventoryResourceVersion κ χ)) (resources : InventoryRows κ)
    (input : ProjectionInput) : List (ResourceRecord κ) :=
  (currentRows resources input).filter fun resource =>
    ((activeRows versions input.workspaceId input.clusterId).find? resource.inventoryKey).all
      fun version => decide (version.contentHash ≠
        encoding.contentHash (meaningfulOf encoding input.bindings resource))

/-- The active rows that are not current, where that means they are gone. -/
def goneRows (versions : List (InventoryResourceVersion κ χ)) (resources : InventoryRows κ)
    (input : ProjectionInput) : List (InventoryResourceVersion κ χ) :=
  (activeRows versions input.workspaceId input.clusterId).rows.filter fun version =>
    decide (version.inventoryKey ∉
      (currentRows resources input).map fun resource => resource.inventoryKey) &&
      missingProjectionResourceDeleteSafe input version

def computeProjectionDiff (versions : List (InventoryResourceVersion κ χ))
    (resources : InventoryRows κ) (input : ProjectionInput) : ProjectionDiff κ χ :=
  let changed := changedRows encoding versions resources input
  let active := activeRows versions input.workspaceId input.clusterId
  { applicationBindingComplete := applicationBindingComplete input.bindings
    desiredRows := changed.map (versionRow encoding input.bindings input.snapshotId)
    closeIds :=
      (changed.filterMap fun resource =>
        (active.find? resource.inventoryKey).map fun version => version.versionId) ++
      (goneRows versions resources input).map fun version => version.versionId }

/-! ## Writing versions -/

/-- The inserted rows: stamped with the revision, and with the next identifiers. -/
def stamp (revisionId : ℕ) : (versionSeq : ℕ) → List (InventoryResourceVersion κ χ) →
    List (InventoryResourceVersion κ χ)
  | _, [] => []
  | versionSeq, row :: rows =>
    { row with versionId := versionSeq + 1, validFromRevision := revisionId } ::
      stamp revisionId (versionSeq + 1) rows

/-- The versions that `UPDATE … WHERE version_id IN … AND valid_to_revision IS NULL`
closes. -/
def ProjectionDiff.closes (diff : ProjectionDiff κ χ) (version : InventoryResourceVersion κ χ) :
    Bool :=
  decide (version.versionId ∈ diff.closeIds) && version.validToRevision = none

/-- `_write_projection_versions`: close what is superseded, insert what is new. -/
def writeProjectionVersions (versions : List (InventoryResourceVersion κ χ)) (versionSeq : ℕ)
    (revisionId : ℕ) (diff : ProjectionDiff κ χ) : List (InventoryResourceVersion κ χ) :=
  versions.map (fun version =>
    if diff.closes version then { version with validToRevision := some revisionId }
    else version) ++
  stamp revisionId versionSeq diff.desiredRows

/-! ## The tables -/

/-- A row of `cluster_inventory_snapshots`. -/
structure SnapshotRecord : Type where
  snapshotId : String
  workspaceId : String
  clusterId : String
  /-- the status is `ignored_stale` -/
  ignoredStale : Bool
  collectedAt : Int
  resourceCount : ℕ
  deriving DecidableEq, Repr

/-- A row of `inventory_filter_revisions`. -/
structure InventoryFilterRevision : Type where
  revisionId : ℕ
  snapshotId : String
  workspaceId : String
  clusterId : String
  observedAt : Int
  labelsComplete : Bool
  resourcesComplete : Bool
  applicationBindingsComplete : Bool
  partialReasonCodes : List String
  deriving DecidableEq, Repr

/-- The tables, with the last values of their two sequences. -/
structure InventoryTables (κ χ : Type) : Type where
  snapshots : List SnapshotRecord
  resources : InventoryRows κ
  revisions : List InventoryFilterRevision
  revisionSeq : ℕ
  versions : List (InventoryResourceVersion κ χ)
  versionSeq : ℕ

/-- Empty tables. -/
def InventoryTables.empty : InventoryTables κ χ where
  snapshots := []
  resources := Table.empty
  revisions := []
  revisionSeq := 0
  versions := []
  versionSeq := 0

/-- `sorted(set(reasons))`. -/
def sortedReasons (reasons : List String) : List String :=
  reasons.dedup.insertionSort fun a b => a ≤ b

/-- The reasons of a revision once the diff is known. -/
def revisionReasons (input : ProjectionInput) (diff : ProjectionDiff κ χ) : List String :=
  sortedReasons (input.partialReasonCodes ++
    if diff.applicationBindingComplete then [] else ["application_bindings_incomplete"])

/-- The row of a new revision. -/
def revisionRow (input : ProjectionInput) (revisionId : ℕ) (applicationBindingsComplete : Bool)
    (partialReasonCodes : List String) : InventoryFilterRevision where
  revisionId := revisionId
  snapshotId := input.snapshotId
  workspaceId := input.workspaceId
  clusterId := input.clusterId
  observedAt := input.observedAt
  labelsComplete := input.labelsComplete
  resourcesComplete := input.resourcesComplete
  applicationBindingsComplete := applicationBindingsComplete
  partialReasonCodes := partialReasonCodes

/-- `sync_inventory_filter_projection`. With the late lock the diff comes before the
revision is allocated; in the legacy order the revision is inserted first and completed
once the diff is known. -/
def syncInventoryFilterProjection (lateLock : Bool) (tables : InventoryTables κ χ)
    (input : ProjectionInput) : InventoryTables κ χ :=
  if lateLock then
    let diff := computeProjectionDiff encoding tables.versions tables.resources input
    let revisionId := tables.revisionSeq + 1
    { tables with
      revisions := tables.revisions ++
        [revisionRow input revisionId diff.applicationBindingComplete
          (revisionReasons input diff)]
      revisionSeq := revisionId
      versions := writeProjectionVersions tables.versions tables.versionSeq revisionId diff
      versionSeq := tables.versionSeq + diff.desiredRows.length }
  else
    let revisionId := tables.revisionSeq + 1
    let inserted := tables.revisions ++
      [revisionRow input revisionId false (sortedReasons input.partialReasonCodes)]
    let diff := computeProjectionDiff encoding tables.versions tables.resources input
    { tables with
      revisions := inserted.map fun row =>
        if row.revisionId = revisionId then
          { row with
            applicationBindingsComplete := diff.applicationBindingComplete
            partialReasonCodes := revisionReasons input diff }
        else row
      revisionSeq := revisionId
      versions := writeProjectionVersions tables.versions tables.versionSeq revisionId diff
      versionSeq := tables.versionSeq + diff.desiredRows.length }

/-! ## Saving a snapshot -/

/-- A call of `save_inventory_snapshot_mutation`. -/
structure SaveCall : Type where
  workspaceId : String
  clusterId : String
  payload : InventorySnapshot
  /-- the clock, of the process and of the database -/
  now : Int
  lateLock : Bool
  bindings : ApplicationBindings

/-- `parse_observed_at`. -/
def SaveCall.observedAt (call : SaveCall) : Int := call.payload.collectedAt.getD call.now

def SaveCall.resourcesComplete (call : SaveCall) : Bool :=
  call.payload.replace && call.payload.summary.resourcesComplete && !call.payload.summary.truncated

def SaveCall.labelsComplete (call : SaveCall) : Bool :=
  call.resourcesComplete && call.payload.summary.labelsComplete

def SaveCall.partialReasonCodes (call : SaveCall) : List String :=
  (if call.labelsComplete then [] else ["source_labels_truncated"]) ++
    if call.payload.summary.truncated then ["source_resources_truncated"]
    else if call.resourcesComplete then [] else ["source_resources_incomplete"]

/-- `scoped_delete_scopes`. -/
def SaveCall.deletionScopes (call : SaveCall) : List InventoryDeleteScope :=
  inventoryDeletionScopes call.payload.summary

/-- The identifier the call draws. -/
def snapshotIdOf (tables : InventoryTables κ χ) : String :=
  encoding.uuid tables.snapshots.length

def latestObservedAt (tables : InventoryTables κ χ) (call : SaveCall) : Option Int :=
  ((tables.snapshots.filter fun row =>
    row.workspaceId = call.workspaceId && row.clusterId = call.clusterId).map
      fun row => row.collectedAt).max?

/-- The snapshot is older than one the cluster already sent. -/
def isStale (tables : InventoryTables κ χ) (call : SaveCall) : Bool :=
  (latestObservedAt tables call).any fun latest => decide (call.observedAt < latest)

/-- The rows of the snapshot, one a key. -/
def normalizedRows (tables : InventoryTables κ χ) (call : SaveCall) : InventoryRows κ :=
  dedupeInventoryRows
    (observedRows encoding call.workspaceId call.clusterId (snapshotIdOf encoding tables)
      call.payload)

/-- `previous_rows`, the live rows of the cluster. -/
def previousRows (tables : InventoryTables κ χ) (call : SaveCall) : List (ResourceRecord κ) :=
  tables.resources.rows.filter fun row => row.liveIn call.workspaceId call.clusterId

/-- The rows of the snapshot under the keys that live rows of the same identity have. -/
def preservedRows (tables : InventoryTables κ χ) (call : SaveCall) : InventoryRows κ :=
  preserveExistingInventoryKeys (normalizedRows encoding tables call).rows
    (previousRows tables call)

/-- `missing_inventory_keys`; as a set, since only membership is asked. -/
def missingInventoryKeys (tables : InventoryTables κ χ) (call : SaveCall) : List κ :=
  let previous :=
    if call.resourcesComplete then previousRows tables call
    else (previousRows tables call).filter fun row =>
      inDeletionScopes row.resourceType row.namespaceName call.deletionScopes
  (previous.map fun row => row.inventoryKey).filter fun key =>
    key ∉ (preservedRows encoding tables call).rows.map fun row => row.inventoryKey

/-- The rows that the call may delete. -/
def deletePredicate (tables : InventoryTables κ χ) (call : SaveCall) : DeletePredicate κ where
  workspaceId := call.workspaceId
  clusterId := call.clusterId
  snapshotId := snapshotIdOf encoding tables
  missingInventoryKeys := missingInventoryKeys encoding tables call
  resourcesComplete := call.resourcesComplete
  scopes := call.deletionScopes

/-- `cluster_inventory_resources` after the upsert. -/
def upsertedResources (tables : InventoryTables κ χ) (call : SaveCall) : InventoryRows κ :=
  upsertAll tables.resources (preservedRows encoding tables call).rows

/-- `cluster_inventory_resources` after the upsert and the scoped delete. -/
def writtenResources (tables : InventoryTables κ χ) (call : SaveCall) : InventoryRows κ :=
  if (call.resourcesComplete || !call.deletionScopes.isEmpty) &&
      !(missingInventoryKeys encoding tables call).isEmpty then
    deleteMissing (upsertedResources encoding tables call) (deletePredicate encoding tables call)
      call.now
  else upsertedResources encoding tables call

/-- The row of `cluster_inventory_snapshots` that the call inserts. -/
def snapshotRow (tables : InventoryTables κ χ) (call : SaveCall) (ignoredStale : Bool)
    (resourceCount : ℕ) : SnapshotRecord where
  snapshotId := snapshotIdOf encoding tables
  workspaceId := call.workspaceId
  clusterId := call.clusterId
  ignoredStale := ignoredStale
  collectedAt := call.observedAt
  resourceCount := resourceCount

/-- What the projection is told. -/
def projectionInput (tables : InventoryTables κ χ) (call : SaveCall) : ProjectionInput where
  workspaceId := call.workspaceId
  clusterId := call.clusterId
  snapshotId := snapshotIdOf encoding tables
  observedAt := call.observedAt
  labelsComplete := call.labelsComplete
  resourcesComplete := call.resourcesComplete
  partialReasonCodes := call.partialReasonCodes
  deletionScopes := call.deletionScopes
  bindings := call.bindings

/-- `InventorySnapshotMutation.result`. -/
structure MutationResult : Type where
  accepted : Bool
  snapshotId : String
  clusterId : String
  resourceCount : ℕ
  markedDeleted : ℕ
  resourceTypes : List String
  deriving DecidableEq, Repr

def saveInventorySnapshotMutation (tables : InventoryTables κ χ) (call : SaveCall) :
    InventoryTables κ χ × MutationResult :=
  let normalized := normalizedRows encoding tables call
  let seenTypes := sortedReasons (normalized.rows.map fun row => row.resourceType)
  if isStale tables call then
    ({ tables with
       snapshots := tables.snapshots ++
         [snapshotRow encoding tables call true normalized.rows.length] },
     { accepted := false
       snapshotId := snapshotIdOf encoding tables
       clusterId := call.clusterId
       resourceCount := normalized.rows.length
       markedDeleted := 0
       resourceTypes := seenTypes })
  else
    let preserved := preservedRows encoding tables call
    let resources := writtenResources encoding tables call
    (syncInventoryFilterProjection encoding call.lateLock
       { tables with
         snapshots := tables.snapshots ++
           [snapshotRow encoding tables call false preserved.rows.length]
         resources := resources }
       (projectionInput encoding tables call),
     { accepted := true
       snapshotId := snapshotIdOf encoding tables
       clusterId := call.clusterId
       resourceCount := preserved.rows.length
       markedDeleted :=
         if (call.resourcesComplete || !call.deletionScopes.isEmpty) &&
             !(missingInventoryKeys encoding tables call).isEmpty then
           ((upsertedResources encoding tables call).rows.filter
             (deletePredicate encoding tables call).holds).length
         else 0
       resourceTypes := seenTypes })

end Opsia.Inventory
