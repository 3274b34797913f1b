import Opsia.Inventory.Coverage
import Opsia.Lib.Json
import Opsia.Lib.Table

/-!
# Inventory resources

The rows of `cluster_inventory_resources` and what `domains/inventory/repository.py` does
to one snapshot's resources before and while it writes them: normalisation, inventory
keys, deduplication, the upsert and the scoped delete.

Inventory keys and content hashes are SHA-256 digests. The model takes the types of the
digests and the two functions from an `Encoding`, which promises that they do not collide.
-/

namespace Opsia.Inventory

/-! ## Resources -/

/-- The fields of a resource that its versions keep; an absent text is empty, as both mean
the default. -/
structure InventoryResource : Type where
  resourceType : String
  apiVersion : String
  kind : String
  namespaceName : Option String
  name : String
  uid : Option String
  resourceVersion : Option String
  status : String
  health : String
  labels : List (String × String)
  summary : Json
  deriving DecidableEq, Repr

/-- A resource of a snapshot payload with the fields that no version keeps. -/
structure SnapshotResource : Type extends InventoryResource where
  annotations : List (String × String)
  raw : Json
  deriving DecidableEq, Repr

/-- What `inventory_resource_key` encodes. -/
structure ResourceIdentity : Type where
  workspaceId : String
  clusterId : String
  resourceType : String
  apiVersion : String
  /-- empty for a resource without a namespace -/
  namespaceName : String
  kind : String
  name : String
  deriving DecidableEq, Repr

/-- The `meaningful` fields of `_version_row`, which the content hash covers; the labels
are normalised. -/
structure Meaningful (κ : Type) : Type extends InventoryResource where
  inventoryKey : κ
  applicationIds : List String
  applicationBindingComplete : Bool
  deriving DecidableEq, Repr

/-- What the model leaves to its environment: the digests and the identifiers that do not
collide, and the case foldings and `str` of the language. -/
structure Encoding (κ χ : Type) : Type where
  /-- `hashlib.sha256(json.dumps(identity, …))` -/
  inventoryKey : ResourceIdentity → κ
  /-- `hashlib.sha256(json.dumps(meaningful, …))` -/
  contentHash : Meaningful κ → χ
  /-- the successive values of `uuid.uuid4()` -/
  uuid : ℕ → String
  lower : String → String
  casefold : String → String
  /-- `str` of a JSON value -/
  str : Json → String
  inventoryKey_injective : Function.Injective inventoryKey
  contentHash_injective : Function.Injective contentHash
  uuid_injective : Function.Injective uuid
  /-- lowering a stripped text leaves it stripped -/
  strip_lower : ∀ s, PyText.strip (lower (PyText.strip s)) = lower (PyText.strip s)

/-- An encoding that digests nothing and folds no case, to run the model with. -/
def Encoding.plain : Encoding ResourceIdentity (Meaningful ResourceIdentity) where
  inventoryKey := id
  contentHash := id
  uuid n := String.ofList (List.replicate n '0')
  lower := id
  casefold := id
  str _ := ""
  inventoryKey_injective := Function.injective_id
  contentHash_injective := Function.injective_id
  uuid_injective m n h := by
    have hlength := congrArg List.length (String.ofList_injective h)
    rw [List.length_replicate, List.length_replicate] at hlength
    exact hlength
  strip_lower s := PyText.strip_strip s

/-- A row of `cluster_inventory_resources`. -/
structure ResourceRecord (κ : Type) : Type extends SnapshotResource where
  inventoryKey : κ
  snapshotId : String
  workspaceId : String
  clusterId : String
  deletedAt : Option Int
  deriving DecidableEq, Repr

/-- The table, or any dictionary keyed by `inventory_key`. -/
abbrev InventoryRows (κ : Type) : Type := Table (ρ := ResourceRecord κ) fun row => row.inventoryKey

variable {κ χ : Type}

namespace ResourceRecord

/-- `inventory_resource_identity`. -/
def identity (row : ResourceRecord κ) : ResourceIdentity where
  workspaceId := row.workspaceId
  clusterId := row.clusterId
  resourceType := row.resourceType
  apiVersion := row.apiVersion
  namespaceName := row.namespaceName.getD ""
  kind := row.kind
  name := row.name

/-- A live row of one cluster. -/
def liveIn (workspaceId clusterId : String) (row : ResourceRecord κ) : Bool :=
  row.workspaceId = workspaceId && row.clusterId = clusterId && row.deletedAt = none

theorem liveIn_iff {workspaceId clusterId : String} {row : ResourceRecord κ} :
    row.liveIn workspaceId clusterId = true ↔
      row.workspaceId = workspaceId ∧ row.clusterId = clusterId ∧ row.deletedAt = none := by
  simp [liveIn, and_assoc]

end ResourceRecord

/-! ## Normalisation -/

section Normalisation

variable (encoding : Encoding κ χ)

def resourceTypeOf (resource : SnapshotResource) : String :=
  encoding.lower
    (PyText.strip (if resource.resourceType = "" then "custom" else resource.resourceType))

theorem strip_resourceTypeOf (resource : SnapshotResource) :
    PyText.strip (resourceTypeOf encoding resource) = resourceTypeOf encoding resource :=
  encoding.strip_lower _

def normalizeInventoryResource (workspaceId clusterId snapshotId : String)
    (resource : SnapshotResource) : ResourceRecord κ :=
  let resourceType := resourceTypeOf encoding resource
  let kind := if resource.kind = "" then resourceType else resource.kind
  let name :=
    if resource.name ≠ "" then resource.name
    else if resource.uid.getD "" ≠ "" then resource.uid.getD ""
    else resourceType ++ "-resource"
  { inventoryKey := encoding.inventoryKey
      { workspaceId := workspaceId
        clusterId := clusterId
        resourceType := resourceType
        apiVersion := resource.apiVersion
        namespaceName := resource.namespaceName.getD ""
        kind := kind
        name := name }
    snapshotId := snapshotId
    workspaceId := workspaceId
    clusterId := clusterId
    resourceType := resourceType
    apiVersion := resource.apiVersion
    kind := kind
    namespaceName := resource.namespaceName
    name := name
    uid := resource.uid
    resourceVersion := resource.resourceVersion
    status := if resource.status = "" then "unknown" else resource.status
    health := if resource.health = "" then "unknown" else resource.health
    labels := resource.labels
    summary := if resource.summary.truthy then resource.summary else .obj []
    annotations := resource.annotations
    raw := if resource.raw.truthy then resource.raw else .obj []
    deletedAt := none }

/-- `health.get(field) or default`, as a text. -/
def textOr (value : Json) (field : String) (default : String) : String :=
  match value.get? field with
  | some found => if found.truthy then encoding.str found else default
  | none => default

/-- What a snapshot payload says, as `save_inventory_snapshot_mutation` reads it. -/
structure InventorySnapshot : Type where
  /-- `none` when it is absent or does not parse -/
  collectedAt : Option Int
  replace : Bool
  resources : List SnapshotResource
  summary : SourceSummary
  health : Json
  usage : Json
  deriving Repr

/-- `snapshot_resources`: the resources of the payload, and one more row each for a health
and a usage report. -/
def snapshotResources (payload : InventorySnapshot) : List SnapshotResource :=
  payload.resources ++
    (if payload.health.truthy then
      [{ resourceType := "health"
         apiVersion := "platform/v1"
         kind := "ClusterHealth"
         namespaceName := none
         name := "cluster"
         uid := none
         resourceVersion := none
         status := textOr encoding payload.health "status" "unknown"
         health := textOr encoding payload.health "health"
           (textOr encoding payload.health "status" "unknown")
         labels := []
         summary := payload.health
         annotations := []
         raw := payload.health }]
    else []) ++
    (if payload.usage.truthy then
      [{ resourceType := "usage"
         apiVersion := "platform/v1"
         kind := "ClusterUsage"
         namespaceName := none
         name := "cluster"
         uid := none
         resourceVersion := none
         status := textOr encoding payload.usage "status" "sampled"
         health := "unknown"
         labels := []
         summary := payload.usage
         annotations := []
         raw := payload.usage }]
    else [])

/-- The rows of a snapshot before any of them is merged. -/
def observedRows (workspaceId clusterId snapshotId : String) (payload : InventorySnapshot) :
    List (ResourceRecord κ) :=
  (snapshotResources encoding payload).map
    (normalizeInventoryResource encoding workspaceId clusterId snapshotId)

end Normalisation

/-! ## Keys -/

variable [DecidableEq κ]

/-- `dedupe_inventory_rows`: one row a key, at the place of the first and with the value
of the last. -/
def dedupeInventoryRows (rows : List (ResourceRecord κ)) : InventoryRows κ :=
  rows.foldl Table.put Table.empty

/-- The key a live row of the same identity has. -/
def existingKey? (previousRows : List (ResourceRecord κ)) (identity : ResourceIdentity) :
    Option κ :=
  (previousRows.reverse.find? fun row => row.identity = identity).map fun row =>
    row.inventoryKey

def preserveExistingInventoryKeys (currentRows previousRows : List (ResourceRecord κ)) :
    InventoryRows κ :=
  dedupeInventoryRows (currentRows.map fun row =>
    { row with inventoryKey := (existingKey? previousRows row.identity).getD row.inventoryKey })

/-! ## Writing -/

/-- The columns that `ON CONFLICT DO UPDATE` sets; the workspace, the cluster and the type
of the existing row stay. -/
def onConflict (excluded existing : ResourceRecord κ) : ResourceRecord κ :=
  { existing with
    snapshotId := excluded.snapshotId
    apiVersion := excluded.apiVersion
    kind := excluded.kind
    namespaceName := excluded.namespaceName
    name := excluded.name
    uid := excluded.uid
    resourceVersion := excluded.resourceVersion
    status := excluded.status
    health := excluded.health
    labels := excluded.labels
    summary := excluded.summary
    annotations := excluded.annotations
    raw := excluded.raw
    deletedAt := none }

omit [DecidableEq κ] in
theorem inventoryKey_onConflict (excluded existing : ResourceRecord κ) :
    (onConflict excluded existing).inventoryKey = existing.inventoryKey := rfl

/-- `INSERT … ON CONFLICT (inventory_key) DO UPDATE`, of one row. -/
def upsert (table : InventoryRows κ) (resource : ResourceRecord κ) : InventoryRows κ :=
  match table.find? resource.inventoryKey with
  | some _ =>
    table.modify resource.inventoryKey (onConflict { resource with deletedAt := none })
      fun existing => inventoryKey_onConflict _ existing
  | none => table.put { resource with deletedAt := none }

/-- The batch upsert. -/
def upsertAll (table : InventoryRows κ) (resources : List (ResourceRecord κ)) : InventoryRows κ :=
  resources.foldl upsert table

/-- `UPDATE … SET deleted_at = now()`, of one row. -/
def markDeleted (now : Int) (row : ResourceRecord κ) : ResourceRecord κ :=
  { row with deletedAt := some now }

omit [DecidableEq κ] in
theorem inventoryKey_markDeleted (now : Int) (row : ResourceRecord κ) :
    (markDeleted now row).inventoryKey = row.inventoryKey := rfl

/-- The rows a snapshot may delete. -/
structure DeletePredicate (κ : Type) : Type where
  workspaceId : String
  clusterId : String
  snapshotId : String
  missingInventoryKeys : List κ
  resourcesComplete : Bool
  scopes : List InventoryDeleteScope

/-- `delete_predicates`. -/
def DeletePredicate.holds (predicate : DeletePredicate κ) (row : ResourceRecord κ) : Bool :=
  row.liveIn predicate.workspaceId predicate.clusterId &&
    row.snapshotId ≠ predicate.snapshotId &&
    row.inventoryKey ∈ predicate.missingInventoryKeys &&
    (predicate.resourcesComplete ||
      deleteScopePredicate row.resourceType row.namespaceName predicate.scopes)

theorem DeletePredicate.holds_iff {predicate : DeletePredicate κ} {row : ResourceRecord κ} :
    predicate.holds row = true ↔
      row.liveIn predicate.workspaceId predicate.clusterId = true ∧
        row.snapshotId ≠ predicate.snapshotId ∧
        row.inventoryKey ∈ predicate.missingInventoryKeys ∧
        (predicate.resourcesComplete = true ∨
          deleteScopePredicate row.resourceType row.namespaceName predicate.scopes = true) := by
  simp [DeletePredicate.holds, and_assoc]

/-- Mark the rows that the predicate selects. -/
def deleteMissing (table : InventoryRows κ) (predicate : DeletePredicate κ) (now : Int) :
    InventoryRows κ :=
  table.modifyWhere predicate.holds (markDeleted now) fun row => inventoryKey_markDeleted now row

/-! ## What the operations do to the row of a key -/

theorem find?_upsert (table : InventoryRows κ) (resource : ResourceRecord κ) (key : κ) :
    (upsert table resource).find? key =
      if key = resource.inventoryKey then
        some (((table.find? key).map (onConflict { resource with deletedAt := none })).getD
          { resource with deletedAt := none })
      else table.find? key := by
  rw [upsert]
  rcases hf : table.find? resource.inventoryKey with _ | existing
  · dsimp only
    rw [Table.find?_put]
    by_cases hk : key = resource.inventoryKey
    · rw [if_pos hk, if_pos hk, hk, hf, Option.map_none, Option.getD_none]
    · rw [if_neg hk, if_neg hk]
  · dsimp only
    rw [Table.find?_modify]
    by_cases hk : key = resource.inventoryKey
    · rw [if_pos hk, if_pos hk, hk, hf, Option.map_some, Option.getD_some]
    · rw [if_neg hk, if_neg hk]

end Opsia.Inventory
