import Opsia.Gitops.Diffing
import Opsia.Lib.PyText

/-!
# The diff of a rendered manifest

`build_desired_diff` of the diff worker: which fields of a manifest are managed, what they
were when the manifest was last approved, what the cluster shows, and the changes between
them. Of the fields of the diff those are here that the check of a merged recovery reads.

The texts of values that are not strings, `str.lower` and `str.casefold` are left open.
-/

namespace Opsia.Gitops

/-- The fields of a dictionary. -/
abbrev PyFields : Type := List (String × PyValue)

/-- The text functions of the language that are left open. -/
structure PyTexts : Type where
  /-- `str` of a value that is not a string -/
  strOf : PyValue → String
  lower : String → String
  casefold : String → String

variable (texts : PyTexts)

/-- `str`. -/
def pyStr : PyValue → String
  | .str s => s
  | .none => texts.strOf .none
  | .bool b => texts.strOf (.bool b)
  | .int n => texts.strOf (.int n)
  | .float q => texts.strOf (.float q)
  | .list items => texts.strOf (.list items)
  | .dict fields => texts.strOf (.dict fields)

/-- `_mapping`. -/
def mappingOf (value : PyValue) : PyFields := value.dict?.getD []

/-- `_mapping(fields.get(key))`. -/
def mappingAt (fields : PyFields) (key : String) : PyFields :=
  mappingOf ((fields.lookup key).getD .none)

/-- `str(fields.get(key, default))`. -/
def textAt (fields : PyFields) (key default : String) : String :=
  pyStr texts ((fields.lookup key).getD (.str default))

/-! ## Managed fields of an object -/

/-- Copy the keys that are there below a parent path. -/
def copyKeys (parent : String) (keys : List String) (source : PyFields) (fields : FieldMap) :
    FieldMap :=
  keys.foldl (fun fields key =>
    match source.lookup key with
    | some value => PyValue.setField fields (parent ++ key) value
    | none => fields) fields

/-- Copy keys of the items of a list, each below its name. -/
def copyItems (parent : String) (keys : List String) (items : Option PyValue)
    (fields : FieldMap) : FieldMap :=
  ((items.bind PyValue.list?).getD []).foldl (fun fields item =>
    let found := mappingOf item
    copyKeys (parent ++ "[name=" ++ textAt texts found "name" "unnamed" ++ "].") keys found
      fields) fields

def deploymentFields (obj : PyFields) : FieldMap :=
  let spec := mappingAt obj "spec"
  let podSpec := mappingAt (mappingAt spec "template") "spec"
  let fields := copyKeys "spec." ["replicas"] spec []
  let fields := copyItems texts "spec.template.spec.containers"
    ["image", "env", "envFrom", "resources", "readinessProbe", "livenessProbe", "startupProbe"]
    (podSpec.lookup "containers") fields
  copyItems texts "spec.template.spec.volumes" ["configMap", "secret"]
    (podSpec.lookup "volumes") fields

def serviceFields (obj : PyFields) : FieldMap :=
  copyKeys "spec." ["type", "selector", "ports"] (mappingAt obj "spec") []

def configmapFields (obj : PyFields) : FieldMap := copyKeys "" ["data", "binaryData"] obj []

def extractManagedFields (obj : PyFields) : FieldMap :=
  let kind := textAt texts obj "kind" ""
  if kind = "Deployment" then deploymentFields texts obj
  else if kind = "Service" then serviceFields obj
  else if kind = "ConfigMap" then configmapFields obj
  else []

/-! ## Snapshots -/

/-- The source of a snapshot. -/
inductive SnapshotSource : Type where
  | renderedManifest
  | observedActualManifest
  | inventoryResourceMissing
  | observedActualImage
  | lastApprovedSnapshot
  | missingLastApprovedSnapshot
  | devPreviousLiveFallback
  deriving DecidableEq, Repr

structure ManagedFieldSnapshot : Type where
  resource : String
  namespaceName : String
  fields : FieldMap
  source : SnapshotSource

def resourceRef (kind name : String) : String := texts.lower kind ++ "/" ++ name

def snapshotFromKubernetesObject (obj : PyFields) (source : SnapshotSource) :
    ManagedFieldSnapshot :=
  let metadata := mappingAt obj "metadata"
  { resource := resourceRef texts (textAt texts obj "kind" "Unknown")
      (textAt texts metadata "name" "unknown")
    namespaceName := textAt texts metadata "namespace" "default"
    fields := extractManagedFields texts obj
    source := source }

/-- `last_approved_snapshot`, whose values are decoded dictionaries. -/
structure ApprovedSnapshot : Type where
  fields : FieldMap
  wellKeyed : ∀ field ∈ fields, field.2.WellKeyed

structure RenderedManifest : Type where
  apiVersion : String
  kind : String
  name : String
  namespaceName : String
  replicas : ℤ
  image : String
  manifest : PyFields
  declaredFields : List String
  managedFields : List String
  ignoredFields : List String
  lastApprovedSnapshot : ApprovedSnapshot

def renderedManifestToObject (rendered : RenderedManifest) : PyFields :=
  if rendered.manifest.isEmpty then
    [("apiVersion", .str rendered.apiVersion), ("kind", .str rendered.kind),
      ("metadata", .dict [("name", .str rendered.name),
        ("namespace", .str rendered.namespaceName)]),
      ("spec", .dict [("replicas", .int rendered.replicas),
        ("template", .dict [("spec", .dict [("containers", .list
          [.dict [("name", .str rendered.name), ("image", .str rendered.image)]])])])])]
  else rendered.manifest

/-- `rendered.metadata.namespace or Sandbox.NAMESPACE`. -/
def RenderedManifest.targetNamespace (rendered : RenderedManifest) : String :=
  if rendered.namespaceName = "" then "sandbox" else rendered.namespaceName

/-- What `load_actual_resource_manifest` and `load_actual_resource_image` found. -/
inductive Observation : Type where
  | manifest (obj : PyFields)
  | missing
  /-- a store that only knows the image -/
  | image (actualImage : String)

/-- `fields.setdefault(key, {})`, which must be a dictionary to go on. -/
def setdefaultDict (fields : PyFields) (key : String) : Option PyFields :=
  match fields.lookup key with
  | none => some []
  | some value => value.dict?

/-- The image of the first of the containers, if it is a dictionary; `none` when the first
of them cannot be asked for. -/
def withFirstImage (actualImage : String) : PyValue → Option PyValue
  | .list (.dict container :: rest) =>
    some (.list (.dict (PyValue.setField container "image" (.str actualImage)) :: rest))
  | .list items => some (.list items)
  | .str s => some (.str s)
  | value => if value.truthy then none else some value

/-- The manifest with the observed image of the first container; `none` when it raises. -/
def withActualImage (obj : PyFields) (actualImage : String) : Option PyFields := do
  let spec ← setdefaultDict obj "spec"
  let template ← setdefaultDict spec "template"
  let podSpec ← setdefaultDict template "spec"
  let containers ← withFirstImage actualImage ((podSpec.lookup "containers").getD (.list []))
  let podSpec := PyValue.setField podSpec "containers" containers
  let template := PyValue.setField template "spec" (.dict podSpec)
  let spec := PyValue.setField spec "template" (.dict template)
  pure (PyValue.setField obj "spec" (.dict spec))

/-- `load_live_snapshot`; `none` when it raises. -/
def loadLiveSnapshot (rendered : RenderedManifest) :
    Observation → Option ManagedFieldSnapshot
  | .manifest obj => some (snapshotFromKubernetesObject texts obj .observedActualManifest)
  | .missing =>
    some
      { resource := resourceRef texts rendered.kind rendered.name
        namespaceName := rendered.targetNamespace
        fields := []
        source := .inventoryResourceMissing }
  | .image actualImage =>
    let obj := renderedManifestToObject rendered
    if rendered.kind = "Deployment" && rendered.image ≠ "" then
      (withActualImage obj actualImage).map fun obj =>
        snapshotFromKubernetesObject texts obj .observedActualImage
    else some (snapshotFromKubernetesObject texts obj .observedActualImage)

/-! ## The policy -/

structure FieldPolicy : Type where
  declaredFields : List String
  managedFields : List String
  ignoredFields : List String
  unknownFields : List String
  lastApprovedSnapshot : ApprovedSnapshot

/-- The paths that are managed. -/
def managedFieldsOf (approvedSnapshotRequired : Bool) (rendered : RenderedManifest)
    (declaredFields : List String) : List String :=
  let snapshot := rendered.lastApprovedSnapshot.fields
  if !rendered.managedFields.isEmpty || !rendered.ignoredFields.isEmpty || !snapshot.isEmpty then
    if rendered.managedFields.isEmpty && !snapshot.isEmpty then
      sortedPaths (snapshot.map Prod.fst)
    else sortedPaths rendered.managedFields
  else if approvedSnapshotRequired then []
  else declaredFields

def loadFieldPolicy (approvedSnapshotRequired : Bool) (rendered : RenderedManifest) :
    FieldPolicy :=
  let declaredFields := sortedPaths
    (if rendered.declaredFields.isEmpty then
      (extractManagedFields texts (renderedManifestToObject rendered)).map Prod.fst
    else rendered.declaredFields)
  let managedFields := managedFieldsOf approvedSnapshotRequired rendered declaredFields
  { declaredFields := declaredFields
    managedFields := managedFields
    ignoredFields := sortedPaths rendered.ignoredFields
    unknownFields := declaredFields.filter fun path =>
      path ∉ managedFields && path ∉ rendered.ignoredFields
    lastApprovedSnapshot := rendered.lastApprovedSnapshot }

def loadPreviousDesiredSnapshot (approvedSnapshotRequired : Bool) (live : ManagedFieldSnapshot)
    (policy : FieldPolicy) : ManagedFieldSnapshot :=
  if !policy.lastApprovedSnapshot.fields.isEmpty then
    { live with
      fields := policy.lastApprovedSnapshot.fields
      source := .lastApprovedSnapshot }
  else if approvedSnapshotRequired then
    { live with
      fields := []
      source := .missingLastApprovedSnapshot }
  else { live with source := .devPreviousLiveFallback }

/-! ## The diff -/

def buildAdoptionRequiredChanges (live newDesired : FieldMap) (unknownFields : List String) :
    List FieldChange :=
  ((sortedPaths unknownFields).map fun path =>
      ⟨path, .adoptionRequired, .str missingText, valueOrMissing (some live) path,
        valueOrMissing (some newDesired) path⟩).filter fun change : FieldChange =>
    !(change.live.eq (.str missingText) && change.newDesired.eq (.str missingText))

/-- `Diff` as `build_desired_diff` fills it, as far as the check of a merged recovery reads it. -/
structure DesiredDiff : Type where
  resource : String
  namespaceName : String
  desiredManifest : PyFields
  status : DiffStatus
  hasChanges : Bool
  changes : List FieldChange

/-- The changes of `build_desired_diff`. -/
def desiredChanges (oldDesired live newDesired : ManagedFieldSnapshot) (policy : FieldPolicy) :
    List FieldChange :=
  let changes := compareManagedFields (some oldDesired.fields) live.fields newDesired.fields
    (some policy.managedFields) policy.ignoredFields
  (if live.source = .inventoryResourceMissing && oldDesired.source = .lastApprovedSnapshot then
    changes.filter fun change => !change.oldDesired.eq change.newDesired
  else changes) ++
    buildAdoptionRequiredChanges live.fields newDesired.fields policy.unknownFields

/-- `build_desired_diff`; `none` when it raises. -/
def buildDesiredDiff (approvedSnapshotRequired : Bool) (rendered : RenderedManifest)
    (observation : Observation) : Option DesiredDiff :=
  (loadLiveSnapshot texts rendered observation).map fun live =>
    let policy := loadFieldPolicy texts approvedSnapshotRequired rendered
    let newDesired := snapshotFromKubernetesObject texts (renderedManifestToObject rendered)
      .renderedManifest
    let oldDesired := loadPreviousDesiredSnapshot approvedSnapshotRequired live policy
    let changes := desiredChanges oldDesired live newDesired policy
    { resource :=
        if newDesired.resource = "" then resourceRef texts rendered.kind rendered.name
        else newDesired.resource
      namespaceName := rendered.targetNamespace
      desiredManifest := rendered.manifest
      status := summarizeStatus changes
      hasChanges := hasActionableChanges changes
      changes := changes }

end Opsia.Gitops
