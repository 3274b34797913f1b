import Mathlib.Data.List.Dedup
import Mathlib.Data.List.Sort
import Opsia.Lib.PyText

/-!
# Collection coverage

`domains/inventory/coverage.py`: what a snapshot says it observed of every Kubernetes
collection, and the scopes in which it may delete what it did not contain.

The entries of a snapshot's summary are read field by field, and a flag counts only when
it `is True`; the fields of an entry here are what that reading gives.
-/

namespace Opsia.Inventory

/-! ## Collections -/

/-- The keys of `RESOURCE_TYPES_BY_COLLECTION`. -/
inductive Collection : Type where
  | pods
  | nodes
  | workloads
  | workloadRevisions
  | services
  | ingresses
  | resourcequotas
  | endpoints
  | events
  | customResources
  deriving DecidableEq, Repr

/-- `RESOURCE_TYPES_BY_COLLECTION`. -/
def Collection.resourceTypes : Collection → List String
  | .pods => ["pod"]
  | .nodes => ["node"]
  | .workloads => ["workload"]
  | .workloadRevisions => ["workload_revision"]
  | .services => ["service"]
  | .ingresses => ["ingress"]
  | .resourcequotas => ["resourcequota"]
  | .endpoints => ["endpoint"]
  | .events => ["event"]
  | .customResources => ["custom_resource"]

def namespacedCollections : List Collection :=
  [.pods, .workloads, .workloadRevisions, .services, .ingresses, .resourcequotas, .endpoints,
    .events]

def clusterCollections : List Collection := [.nodes]

def deleteSafeCollections : List Collection :=
  [.pods, .nodes, .workloads, .workloadRevisions, .services, .ingresses, .resourcequotas,
    .endpoints]

/-! ## Coverage entries -/

/-- The values of the field `scope`. -/
inductive CoverageScope : Type where
  | namespaced
  | cluster
  deriving DecidableEq, Repr

/-- One entry of `collection_coverage`. -/
structure CoverageEntry : Type where
  /-- `none` for a name that is no key of `RESOURCE_TYPES_BY_COLLECTION` -/
  collection : Option Collection
  /-- `none` for any other text -/
  scope : Option CoverageScope
  namespaceName : Option String
  labelSelector : Option String
  observed : Bool
  complete : Bool
  deleteSafe : Bool
  truncated : Bool
  reasonCodes : List String
  deriving DecidableEq, Repr

/-- What `save_inventory_snapshot_mutation` reads of `payload["summary"]`. -/
structure SourceSummary : Type where
  liveInventory : Bool
  resourcesComplete : Bool
  labelsComplete : Bool
  /-- `collection_limits` is a dictionary with `truncated` true -/
  truncated : Bool
  collectionCoverage : List CoverageEntry
  deriving DecidableEq, Repr

/-- `_text` of an optional text. -/
def text (value : Option String) : String :=
  match value with
  | some value => PyText.strip value
  | none => ""

/-- `_reason_codes`. -/
def reasonCodesOf (value : List String) : List String :=
  (value.map PyText.strip).filter fun reason => reason ≠ ""

def deleteAuthoritativeEntry (entry : CoverageEntry) : Bool :=
  entry.complete && entry.deleteSafe && entry.observed && !entry.truncated &&
    text entry.labelSelector = "" && (reasonCodesOf entry.reasonCodes).isEmpty

/-! ## Deletion scopes -/

structure InventoryDeleteScope : Type where
  resourceType : String
  namespaceName : Option String
  deriving DecidableEq, Repr

/-- The scopes one coverage entry opens. -/
def entryScopes (entry : CoverageEntry) : List InventoryDeleteScope :=
  match entry.collection with
  | none => []
  | some collection =>
    if collection ∉ deleteSafeCollections ∨ collection.resourceTypes = [] then []
    else if !deleteAuthoritativeEntry entry then []
    else
      let namespaceName := text entry.namespaceName
      if collection ∈ namespacedCollections ∧ entry.scope = some .namespaced ∧
          namespaceName ≠ "" then
        collection.resourceTypes.map fun resourceType => ⟨resourceType, some namespaceName⟩
      else if collection ∈ clusterCollections ∧ entry.scope = some .cluster then
        collection.resourceTypes.map fun resourceType => ⟨resourceType, none⟩
      else []

/-- The order of `sorted(scopes, key=…)`. -/
def InventoryDeleteScope.le (a b : InventoryDeleteScope) : Prop :=
  a.resourceType < b.resourceType ∨
    (a.resourceType = b.resourceType ∧ a.namespaceName.getD "" ≤ b.namespaceName.getD "")

instance : DecidableRel InventoryDeleteScope.le := fun a b =>
  inferInstanceAs (Decidable (a.resourceType < b.resourceType ∨
    (a.resourceType = b.resourceType ∧ a.namespaceName.getD "" ≤ b.namespaceName.getD "")))

def inventoryDeletionScopes (summary : SourceSummary) : List InventoryDeleteScope :=
  if summary.liveInventory then
    (summary.collectionCoverage.flatMap entryScopes).dedup.insertionSort InventoryDeleteScope.le
  else []

/-- `inventory_row_in_deletion_scopes`, of a row's type and namespace. -/
def inDeletionScopes (resourceType : String) (namespaceName : Option String)
    (scopes : List InventoryDeleteScope) : Bool :=
  scopes.any fun scope =>
    scope.resourceType = PyText.strip resourceType && scope.namespaceName = namespaceName

/-- `inventory_delete_scope_predicate`, of a row's type and namespace: the comparison
that the database makes, which strips nothing. -/
def deleteScopePredicate (resourceType : String) (namespaceName : Option String)
    (scopes : List InventoryDeleteScope) : Bool :=
  scopes.any fun scope =>
    scope.resourceType = resourceType && scope.namespaceName = namespaceName

theorem deleteScopePredicate_eq {resourceType : String}
    (hstrip : PyText.strip resourceType = resourceType) (namespaceName : Option String)
    (scopes : List InventoryDeleteScope) :
    deleteScopePredicate resourceType namespaceName scopes =
      inDeletionScopes resourceType namespaceName scopes := by
  rw [deleteScopePredicate, inDeletionScopes, hstrip]

end Opsia.Inventory
