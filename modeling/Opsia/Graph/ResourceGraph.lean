import Mathlib.Data.List.Dedup
import Mathlib.Data.Prod.Lex
import Mathlib.Data.String.Basic
import Opsia.Lib.Keyset
import Opsia.Lib.PyText
import Opsia.Lib.PyValue
import Opsia.Lib.Table

/-!
# The resource graph

`build_resource_graph`: the nodes are the inventory items up to a limit, the edges come from owner
references, node assignments, selectors and service names, each through an index of its own, and a
list of reasons says why the relations may be incomplete. Case folding, `str` of a value and the two
digests are taken from a `GraphEnv`.
-/

namespace Opsia.Graph

abbrev Labels := List (String × String)

abbrev Fields := List (String × PyValue)

/-! ## Items -/

structure Summary where
  ownerKind : Option String
  ownerName : Option String
  ownerUid : Option String
  /-- `owner_references_complete` is `True` -/
  ownerReferencesComplete : Bool
  nodeName : Option String
  serviceName : Option String
  selector : PyValue

/-- The `resource` of an inventory item. A text that may be missing is empty then, and an `Option`
where the code tells the two apart. -/
structure Resource where
  inventoryKey : String
  clusterId : String
  resourceType : String
  apiVersion : String
  kind : String
  namespaceName : Option String
  name : String
  uid : Option String
  status : String
  health : String
  observedAt : Option String
  deletedAt : Option String
  labels : Labels
  summary : Summary

structure GraphItem where
  resource : Resource
  applicationIds : List String
  applicationBindingCompleteness : Option String
  cluster : Fields
  /-- an inventory key is a hex digest, so the separator of edge identities is not in it -/
  key_plain : '\x1f' ∉ resource.inventoryKey.toList

def GraphItem.key (item : GraphItem) : String := item.resource.inventoryKey

/-! ## Nodes and edges -/

structure NodeIdentity where
  version : String
  clusterId : String
  resourceType : String
  apiVersion : String
  kind : String
  namespaceName : Option String
  name : String
  uid : Option String
  deriving DecidableEq

structure Node where
  nodeId : String
  category : String
  identity : NodeIdentity
  status : String
  health : String
  observedAt : Option String
  deletedAt : Option String
  applicationIds : List String
  applicationBindingCompleteness : String
  deriving DecidableEq

inductive RelationKind where
  | owns
  | runsOn
  | selects
  | routesTo
  deriving DecidableEq

def RelationKind.text : RelationKind → String
  | .owns => "owns"
  | .runsOn => "runs_on"
  | .selects => "selects"
  | .routesTo => "routes_to"

inductive RelationPlane where
  | ownership
  | placement
  | networkConfigured
  | networkEffective
  deriving DecidableEq

def RelationPlane.text : RelationPlane → String
  | .ownership => "ownership"
  | .placement => "placement"
  | .networkConfigured => "network_configured"
  | .networkEffective => "network_effective"

inductive EvidenceType where
  | ownerReference
  | nodeAssignment
  | selectorMatch
  | serviceNameLabel
  deriving DecidableEq

def EvidenceType.text : EvidenceType → String
  | .ownerReference => "owner_reference"
  | .nodeAssignment => "node_assignment"
  | .selectorMatch => "selector_match"
  | .serviceNameLabel => "service_name_label"

inductive EdgeAuthority where
  | authoritative
  | derived
  deriving DecidableEq

inductive EdgeState where
  | active
  | historical
  deriving DecidableEq

structure Edge where
  edgeId : String
  fromNodeId : String
  toNodeId : String
  kind : RelationKind
  plane : RelationPlane
  state : EdgeState
  evidenceType : EvidenceType
  authority : EdgeAuthority
  observedAt : Option String
  deriving DecidableEq

inductive RelationCompleteness where
  | exact
  | isPartial
  | unavailable
  deriving DecidableEq

structure ResourceGraph where
  graphRevision : String
  cluster : Fields
  nodes : List Node
  edges : List Edge
  rootNodeIds : List String
  nodeCount : ℕ
  edgeCount : ℕ
  omittedNodeCount : ℤ
  omittedEdgeCount : ℕ
  nodeLimit : ℕ
  edgeLimit : ℕ
  truncated : Bool
  relationCompleteness : RelationCompleteness
  partialReasonCodes : List String

/-- What the revision of a graph is the digest of. -/
structure RevisionPayload where
  relationVersion : String
  snapshotRevision : ℤ
  filterFingerprint : String
  authorizationRevision : String
  nodeIds : List String
  nodes : List Node
  edgeIds : List String
  edges : List Edge
  nodeLimit : ℕ
  edgeLimit : ℕ

/-- What the graph needs of the language: `str.casefold`, `str` of a value, and the digests of edges
and graphs, with no collision among edges. -/
structure GraphEnv where
  casefold : String → String
  str : PyValue → String
  edgeDigest : String → String
  edgeDigest_injective : Function.Injective edgeDigest
  graphDigest : RevisionPayload → String

/-- The arguments of a graph next to its items. -/
structure GraphRequest where
  snapshotRevision : ℤ
  filterFingerprint : String
  sourceComplete : Bool
  labelsComplete : Bool
  truncated : Bool
  nodeLimit : ℕ
  edgeLimit : ℕ
  omittedNodeCount : ℤ
  partialReasonCodes : List String
  cluster : Option Fields
  authorizationRevision : String

/-! ## Selectors -/

inductive SelectorResult where
  | isMatch
  | noMatch
  | unknown
  deriving DecidableEq

/-- `_optional_text` of a text. -/
def optionalText (value : Option String) : Option String :=
  let text := PyText.strip (value.getD "")
  if text = "" then none else some text

/-- `_optional_text` of a field of a mapping. -/
def optionalField (env : GraphEnv) (fields : Fields) (field : String) : Option String :=
  match fields.lookup field with
  | none => none
  | some value => if value.isNone then none else optionalText (some (env.str value))

def equalsRequirement (key value : String) (labels : Labels) (labelsComplete : Bool) :
    SelectorResult :=
  match labels.lookup key with
  | none => if labelsComplete then .noMatch else .unknown
  | some label => if label = value then .isMatch else .noMatch

/-- What an operator says of a label; `values` is the list of the expression. -/
def operatorResult (operator : String) (values : List String) (label : Option String)
    (labelsComplete : Bool) : SelectorResult :=
  if operator = "In" then
    if values = [] then .unknown
    else match label with
      | none => if labelsComplete then .noMatch else .unknown
      | some label => if label ∈ values then .isMatch else .noMatch
  else if operator = "NotIn" then
    if values = [] then .unknown
    else match label with
      | none => if labelsComplete then .isMatch else .unknown
      | some label => if label ∉ values then .isMatch else .noMatch
  else if operator = "Exists" then
    if values ≠ [] then .unknown
    else match label with
      | none => if labelsComplete then .noMatch else .unknown
      | some _ => .isMatch
  else if operator = "DoesNotExist" then
    if values ≠ [] then .unknown
    else match label with
      | none => if labelsComplete then .isMatch else .unknown
      | some _ => .noMatch
  else .unknown

def expressionResult (env : GraphEnv) (expression : PyValue) (labels : Labels)
    (labelsComplete : Bool) : SelectorResult :=
  match expression with
  | .dict fields =>
    match optionalField env fields "key", optionalField env fields "operator",
        (fields.lookup "values").getD (.list []) with
    | some key, some operator, .list values =>
      operatorResult operator (values.map env.str) (labels.lookup key) labelsComplete
    | _, _, _ => .unknown
  | _ => .unknown

/-- The requirements of a selector on labels; nothing where the selector has another form. -/
def selectorRequirements (env : GraphEnv) (selector : Fields) (labels : Labels)
    (labelsComplete structured : Bool) : Option (List SelectorResult) :=
  let equals (fields : Fields) := fields.map fun field =>
    equalsRequirement field.1 (env.str field.2) labels labelsComplete
  if structured then
    if selector.any fun field => field.1 ∉ ["matchLabels", "matchExpressions"] then none
    else match (selector.lookup "matchLabels").getD (.dict []),
        (selector.lookup "matchExpressions").getD (.list []) with
      | .dict matchLabels, .list expressions =>
        some (equals matchLabels ++
          expressions.map fun e => expressionResult env e labels labelsComplete)
      | _, _ => none
  else some (equals selector)

/-- The result of all requirements; no requirement tells nothing. -/
def combinedResult : Option (List SelectorResult) → SelectorResult
  | none | some [] => .unknown
  | some requirements =>
    if .noMatch ∈ requirements then .noMatch
    else if .unknown ∈ requirements then .unknown
    else .isMatch

def selectorResult (env : GraphEnv) (selector : Fields) (labels : Labels)
    (labelsComplete structured : Bool) : SelectorResult :=
  combinedResult (selectorRequirements env selector labels labelsComplete structured)

/-! ## Indexes -/

/-- The casefolded type of an item is the given one. -/
def GraphItem.hasType (env : GraphEnv) (item : GraphItem) (type : String) : Bool :=
  env.casefold item.resource.resourceType = type

def GraphItem.namespaceName (item : GraphItem) : Option String :=
  optionalText item.resource.namespaceName

/-- `_identity_index` at a key; items stand for their ids. -/
def identityIndex (env : GraphEnv) (rows : List GraphItem)
    (key : Option String × String × String) : List GraphItem :=
  Keyset.sorted GraphItem.key (rows.filter fun row =>
    (row.namespaceName, env.casefold row.resource.kind, row.resource.name) = key)

/-- `_node_name_index` at a name. -/
def nodeNameIndex (env : GraphEnv) (rows : List GraphItem) (name : String) : List GraphItem :=
  Keyset.sorted GraphItem.key (rows.filter fun row =>
    row.hasType env "node" ∧ row.resource.name = name)

/-- `_pods_by_namespace` at a namespace. -/
def podsByNamespace (env : GraphEnv) (rows : List GraphItem) (namespaceName : Option String) :
    List GraphItem :=
  Keyset.sorted GraphItem.key (rows.filter fun row =>
    row.hasType env "pod" ∧ row.namespaceName = namespaceName)

def unique : List GraphItem → Option GraphItem
  | [value] => some value
  | _ => none

/-! ## Edges -/

/-- The later of the observation times of two items. -/
def edgeObservedAt (a b : GraphItem) : Option String :=
  let observed := [a, b].filterMap fun item => optionalText item.resource.observedAt
  (observed.insertionSort (· ≤ ·)).getLast?

def historical (a b : GraphItem) : Bool :=
  [a, b].any fun item => (optionalText item.resource.deletedAt).isSome

/-- `_edge` between two items; the first two are the ends, in the order of the edge. -/
def edge (env : GraphEnv) (source target : GraphItem) (kind : RelationKind) (plane : RelationPlane)
    (evidenceType : EvidenceType) (authority : EdgeAuthority) : Edge where
  edgeId := "edge-" ++ env.edgeDigest (PyText.join '\x1f'
    ["v1", kind.text, plane.text, source.key, target.key, evidenceType.text])
  fromNodeId := source.key
  toNodeId := target.key
  kind := kind
  plane := plane
  state := if historical source target then .historical else .active
  evidenceType := evidenceType
  authority := authority
  observedAt := edgeObservedAt source target

/-- The edge from the owner that an item declares. -/
def ownsEdge (env : GraphEnv) (rows : List GraphItem) (child : GraphItem) : Option Edge :=
  let summary := child.resource.summary
  match optionalText summary.ownerKind, optionalText summary.ownerName with
  | some ownerKind, some ownerName =>
    let candidates := identityIndex env rows
      (child.namespaceName, env.casefold ownerKind, ownerName)
    let candidates := match optionalText summary.ownerUid with
      | some ownerUid => candidates.filter fun candidate =>
        optionalText candidate.resource.uid = some ownerUid
      | none => []
    (unique candidates).map fun owner =>
      edge env owner child .owns .ownership .ownerReference .authoritative
  | _, _ => none

/-- The owner of an item is declared without its uid, or not the only one. -/
def ownerReferenceIncomplete (child : GraphItem) : Bool :=
  let summary := child.resource.summary
  (optionalText summary.ownerKind).isSome && (optionalText summary.ownerName).isSome &&
    (!summary.ownerReferencesComplete || (optionalText summary.ownerUid).isNone)

/-- The edge from a Pod to its node. -/
def runsOnEdge (env : GraphEnv) (rows : List GraphItem) (pod : GraphItem) : Option Edge :=
  if pod.hasType env "pod" then do
    let nodeName ← optionalText pod.resource.summary.nodeName
    let node ← unique (nodeNameIndex env rows nodeName)
    some (edge env pod node .runsOn .placement .nodeAssignment .authoritative)
  else none

/-- The Pods that a Service or workload is compared with, each with the result. -/
def selectorResults (env : GraphEnv) (rows : List GraphItem) (labelsComplete : Bool)
    (source : GraphItem) : List (GraphItem × SelectorResult) :=
  if source.hasType env "service" || source.hasType env "workload" then
    match source.resource.summary.selector with
    | .dict (field :: fields) =>
      (podsByNamespace env rows source.namespaceName).map fun pod =>
        (pod, selectorResult env (field :: fields) pod.resource.labels labelsComplete
          (source.hasType env "workload"))
    | _ => []
  else []

def selectsEdges (env : GraphEnv) (rows : List GraphItem) (labelsComplete : Bool)
    (source : GraphItem) : List Edge :=
  (selectorResults env rows labelsComplete source).filterMap fun (pod, result) =>
    if result = .isMatch then
      some (edge env source pod .selects
        (if source.hasType env "service" then .networkConfigured else .ownership)
        .selectorMatch .derived)
    else none

def selectorUnknown (env : GraphEnv) (rows : List GraphItem) (labelsComplete : Bool)
    (source : GraphItem) : Bool :=
  (selectorResults env rows labelsComplete source).any fun (_, result) => result = .unknown

/-- The edge from the Service of an endpoint. -/
def routesToEdge (env : GraphEnv) (rows : List GraphItem) (endpoint : GraphItem) : Option Edge :=
  if endpoint.hasType env "endpoint" then do
    let serviceName ← optionalText endpoint.resource.summary.serviceName
    let service ← unique (identityIndex env rows (endpoint.namespaceName, "service", serviceName))
    some (edge env service endpoint .routesTo .networkEffective .serviceNameLabel .authoritative)
  else none

/-- The edges in the order in which they are found. -/
def foundEdges (env : GraphEnv) (rows : List GraphItem) (labelsComplete : Bool) : List Edge :=
  rows.flatMap (fun row => (ownsEdge env rows row).toList ++ (runsOnEdge env rows row).toList) ++
    rows.flatMap (selectsEdges env rows labelsComplete) ++ rows.filterMap (routesToEdge env rows)

/-- One edge an id, in the order of kind, ends and id. -/
def canonicalEdges (edges : List Edge) : List Edge :=
  Keyset.sorted
    (fun edge =>
      toLex (edge.kind.text, toLex (edge.fromNodeId, toLex (edge.toNodeId, edge.edgeId))))
    (edges.foldl Table.put (Table.empty : Table Edge.edgeId)).rows

/-! ## The graph -/

def knownCategories : List String := ["workload", "pod", "node", "service", "endpoint", "event"]

/-- A set of texts in order, without the empty one. -/
def sortedTexts (texts : List String) : List String :=
  ((texts.filter (· ≠ "")).dedup).insertionSort (· ≤ ·)

def node (env : GraphEnv) (item : GraphItem) : Node :=
  let resource := item.resource
  let resourceType := env.casefold resource.resourceType
  { nodeId := item.key
    category := if resourceType ∈ knownCategories then resourceType else "other"
    identity := {
      version := "v1"
      clusterId := resource.clusterId
      resourceType := resource.resourceType
      apiVersion := resource.apiVersion
      kind := resource.kind
      namespaceName := optionalText resource.namespaceName
      name := resource.name
      uid := optionalText resource.uid }
    status := resource.status
    health := resource.health
    observedAt := optionalText resource.observedAt
    deletedAt := optionalText resource.deletedAt
    applicationIds := sortedTexts item.applicationIds
    applicationBindingCompleteness :=
      let completeness := item.applicationBindingCompleteness.getD ""
      if completeness = "" then "unavailable" else completeness }

/-- More than one cluster is named. -/
def severalClusters (rows : List GraphItem) : Bool :=
  1 < ((rows.map (·.resource.clusterId)).filter (· ≠ "")).dedup.length

/-- Why the relations of a graph may be incomplete. -/
def partialReasons (env : GraphEnv) (request : GraphRequest) (rows : List GraphItem)
    (truncated : Bool) (omittedNodeCount : ℤ) (omittedEdgeCount : ℕ) : List String :=
  request.partialReasonCodes ++
    (if request.sourceComplete then [] else ["source_resources_incomplete"]) ++
    (if request.labelsComplete then [] else ["source_labels_incomplete"]) ++
    (if rows.any (selectorUnknown env rows request.labelsComplete) then
      ["selector_evidence_incomplete"] else []) ++
    (if rows.any ownerReferenceIncomplete then ["owner_reference_source_incomplete"] else []) ++
    (if truncated ∨ omittedNodeCount ≠ 0 then ["graph_node_budget_exceeded"] else []) ++
    (if omittedEdgeCount ≠ 0 then ["graph_edge_budget_exceeded"] else [])

/-- The cluster of the request or of the first item, with a cluster id. -/
def selectedCluster (request : GraphRequest) (rows : List GraphItem) : Fields :=
  let cluster := match request.cluster with
    | some (field :: fields) => field :: fields
    | _ => (rows.head?.map GraphItem.cluster).getD []
  if (cluster.lookup "cluster_id").isSome then cluster
  else cluster ++ [("cluster_id",
    .str ((rows.head?.map fun row => row.resource.clusterId).getD "unknown"))]

def buildResourceGraph (env : GraphEnv) (request : GraphRequest) (items : List GraphItem) :
    Except String ResourceGraph :=
  if request.nodeLimit < 1 ∨ request.edgeLimit < 1 then .error "graph limits must be positive"
  else if items.any (·.key = "") then .error "graph resource is missing inventory_key"
  else
    let allRows := Keyset.sorted GraphItem.key items
    let builderOmitted := allRows.length - request.nodeLimit
    let rows := allRows.take request.nodeLimit
    let omittedNodeCount := max 0 request.omittedNodeCount + builderOmitted
    let truncated := request.truncated || builderOmitted ≠ 0
    let nodes := rows.map (node env)
    let nodeIds := nodes.map Node.nodeId
    if ¬ nodeIds.Nodup then .error "graph node identities must be unique"
    else if severalClusters rows then .error "graph resources must belong to one cluster"
    else
      let found := canonicalEdges (foundEdges env rows request.labelsComplete)
      let omittedEdgeCount := found.length - request.edgeLimit
      let edges := found.take request.edgeLimit
      let reasons := sortedTexts
        (partialReasons env request rows truncated omittedNodeCount omittedEdgeCount)
      let owned := (edges.filter (·.kind = .owns)).map Edge.toNodeId
      .ok {
        graphRevision := "graph-" ++ env.graphDigest {
          relationVersion := "v1"
          snapshotRevision := request.snapshotRevision
          filterFingerprint := request.filterFingerprint
          authorizationRevision := request.authorizationRevision
          nodeIds := nodeIds.insertionSort (· ≤ ·)
          nodes := nodes
          edgeIds := edges.map Edge.edgeId
          edges := edges
          nodeLimit := request.nodeLimit
          edgeLimit := request.edgeLimit }
        cluster := selectedCluster request rows
        nodes := nodes
        edges := edges
        rootNodeIds := (nodeIds.filter (· ∉ owned)).insertionSort (· ≤ ·)
        nodeCount := nodes.length
        edgeCount := edges.length
        omittedNodeCount := omittedNodeCount
        omittedEdgeCount := omittedEdgeCount
        nodeLimit := request.nodeLimit
        edgeLimit := request.edgeLimit
        truncated := truncated || omittedNodeCount ≠ 0 || omittedEdgeCount ≠ 0
        relationCompleteness :=
          if request.snapshotRevision ≤ 0 then .unavailable
          else if reasons = [] then .exact
          else .isPartial
        partialReasonCodes := reasons }

end Opsia.Graph
