import Mathlib.Data.List.Sort
import Opsia.Lib.IpNetwork

/-!
# NetworkPolicy evaluation

`evaluate_network_policy` over the inventory rows of a cluster: two exact Pods, the observed
NetworkPolicies and Cilium policies (500 rows of both at most), and the Namespace row of the peer
where a selector asks for its labels. A part of a policy that its manifest may leave out is an
`Option`, since the code tells a missing field from an empty one.
-/

namespace Opsia.Traffic

/-! ## Policies as observed -/

inductive Direction where
  | ingress
  | egress
  deriving DecidableEq

inductive Protocol where
  | tcp
  | udp
  | sctp
  deriving DecidableEq

/-- `In`, `NotIn`, `Exists` and `DoesNotExist`. -/
inductive SelectorOperator where
  | isIn
  | isNotIn
  | doesExist
  | doesNotExist
  deriving DecidableEq

abbrev Labels := List (String × String)

structure MatchExpression where
  key : String
  operator : SelectorOperator
  values : List String

structure LabelSelector where
  matchLabels : Option Labels
  matchExpressions : Option (List MatchExpression)

/-- `not selector`: the selector `\x7b\x7d`. -/
def LabelSelector.isEmpty (selector : LabelSelector) : Bool :=
  selector.matchLabels.isNone && selector.matchExpressions.isNone

structure IpBlock where
  cidr : String
  except : List String

/-- A peer of a rule. The API takes no peer that names nothing. -/
structure PolicyPeer where
  ipBlock : Option IpBlock
  namespaceSelector : Option LabelSelector
  podSelector : Option LabelSelector
  /-- a peer names a block, namespaces or Pods -/
  given : (ipBlock.isSome || namespaceSelector.isSome || podSelector.isSome) = true

inductive PortValue where
  | number (port : ℤ)
  | name (port : String)

structure PolicyPort where
  protocol : Option Protocol
  port : Option PortValue
  endPort : Option ℤ

/-- A rule; its peers are `from` of an ingress rule and `to` of an egress rule. -/
structure PolicyRule where
  ports : Option (List PolicyPort)
  peers : Option (List PolicyPeer)

structure PolicySpec where
  podSelector : Option LabelSelector
  policyTypes : Option (List Direction)
  ingress : Option (List PolicyRule)
  egress : Option (List PolicyRule)

/-! ## Inventory rows -/

/-- What names an observed resource. -/
structure ObservedResource where
  clusterId : String
  apiVersion : String
  kind : String
  namespaceName : Option String
  name : String
  uid : String
  kind_ne : kind ≠ ""
  name_ne : name ≠ ""
  uid_ne : uid ≠ ""

/-- The labels column of a row and the labels of its raw manifest. -/
structure ObservedLabels where
  labels : Option Labels
  metadataLabels : Option Labels

structure ContainerPort where
  name : Option String
  protocol : Option Protocol
  containerPort : Option ℤ

structure Container where
  ports : Option (List ContainerPort)

structure ObservedPod extends ObservedResource, ObservedLabels where
  podIP : Option String
  containers : Option (List Container)

structure ObservedPolicy extends ObservedResource where
  spec : PolicySpec

structure ObservedCiliumPolicy extends ObservedResource where
  endpointSelector : Option LabelSelector

/-- The rows of a cluster in a workspace that the readers give, in the readers' order. -/
structure PolicyInventory where
  pod : (workspaceId clusterId namespaceName name : String) → Option ObservedPod
  namespaceRow : (workspaceId clusterId name : String) → Option ObservedLabels
  networkPolicies : (workspaceId clusterId : String) → List ObservedPolicy
  ciliumPolicies : (workspaceId clusterId : String) → List ObservedCiliumPolicy

/-- The flow asked about. -/
structure FlowQuery where
  workspaceId : String
  clusterId : String
  namespaceName : String
  podName : String
  podUid : String
  peerNamespace : String
  peerPodName : String
  peerPodUid : String
  direction : Direction
  port : ℤ
  protocol : Protocol
  port_pos : 1 ≤ port
  port_le : port ≤ 65535

inductive EvaluationError where
  /-- `NetworkPolicyIdentityChanged` -/
  | identityChanged (message : String)
  deriving DecidableEq

/-! ## The response -/

structure ResourceRef where
  apiGroup : String
  version : String
  kind : String
  namespaceName : Option String
  name : String
  uid : String

inductive PolicyEffect where
  | allow
  | deny
  | unknown
  deriving DecidableEq

structure SelectingNetworkPolicy where
  resource : ResourceRef
  effect : PolicyEffect
  reason : String

inductive TrafficVerdict where
  | allowed
  | denied
  | indeterminate
  deriving DecidableEq

/-- `complete` and `partial`. -/
inductive CoverageState where
  | complete
  | isPartial
  deriving DecidableEq

structure NetworkPolicyEvaluationCoverage where
  state : CoverageState
  evaluatedCount : ℕ
  returnedCount : ℕ
  reasonCodes : List String

structure NetworkPolicyEvaluationResponse where
  evaluatedPod : ResourceRef
  peerPod : ResourceRef
  direction : Direction
  port : ℤ
  protocol : Protocol
  selectingPolicies : List SelectingNetworkPolicy
  verdict : TrafficVerdict
  coverage : NetworkPolicyEvaluationCoverage

/-! ## Selectors, ports and blocks -/

/-- An expression that does not refuse the labels. -/
def MatchExpression.matches (expression : MatchExpression) (labels : Labels) : Bool :=
  let value := labels.lookup expression.key
  match expression.operator with
  | .isIn => value.any fun value => decide (value ∈ expression.values)
  -- a label that is not there is refused too
  | .isNotIn => value.any fun value => decide (value ∉ expression.values)
  | .doesExist => value.isSome
  | .doesNotExist => value.isNone

def selectorMatches (selector : LabelSelector) (labels : Labels) : Bool :=
  (selector.matchLabels.getD []).all (fun label => labels.lookup label.1 == some label.2) &&
    (selector.matchExpressions.getD []).all fun expression => expression.matches labels

/-- The selector of a field that may be missing. -/
def selectorOf (field : Option LabelSelector) : LabelSelector := field.getD ⟨none, none⟩

def labelsOf (resource : ObservedLabels) : Labels :=
  (resource.labels <|> resource.metadataLabels).getD []

/-- The numbers of the ports of a Pod that have a name and a protocol. -/
def namedPorts (pod : ObservedPod) (name : String) (protocol : Protocol) : List ℤ :=
  (pod.containers.getD []).flatMap fun container =>
    (container.ports.getD []).filterMap fun candidate =>
      if candidate.name = some name ∧ candidate.protocol.getD .tcp = protocol then
        candidate.containerPort
      else none

/-- One entry of `ports`. -/
def PolicyPort.allows (rule : PolicyPort) (destination : ObservedPod) (port : ℤ)
    (protocol : Protocol) : Bool :=
  rule.protocol.getD .tcp == protocol &&
    match rule.port with
    | none => true
    | some (.number first) => first ≤ port && port ≤ rule.endPort.getD first
    | some (.name name) => decide (port ∈ namedPorts destination name protocol)

def portsAllow (value : Option (List PolicyPort)) (destination : ObservedPod) (port : ℤ)
    (protocol : Protocol) : Bool :=
  match value with
  | none => true
  | some ports => ports.any fun rule => rule.allows destination port protocol

def podIp (pod : ObservedPod) : Option String := pod.podIP.filter (· ≠ "")

/-- `_ip_block_matches`; a text that `ipaddress` refuses makes the block match nothing. -/
def ipBlockMatches (value : IpBlock) (podIp : Option String) : Bool :=
  let answer := do
    let address ← podIp >>= Ip.ipAddress
    let network ← Ip.ipNetwork value.cidr
    let exceptions ← value.except.mapM Ip.ipNetwork
    some (network.contains address && !exceptions.any (·.contains address))
  answer.getD false

/-! ## Peers, rules and policies -/

/-- Whether a peer of a rule is the peer Pod; nothing where the labels of its namespace are not
known. -/
def peerMatches (inventory : PolicyInventory) (query : FlowQuery) (policyNamespace : String)
    (selector : PolicyPeer) (peer : ObservedPod) : Option Bool :=
  match selector.ipBlock with
  | some block => some (ipBlockMatches block (podIp peer))
  | none =>
    let podMatches := selector.podSelector.all fun podSelector =>
      selectorMatches podSelector (labelsOf peer.toObservedLabels)
    let peerNamespace := peer.namespaceName.getD ""
    match selector.namespaceSelector with
    | none => some (peerNamespace == policyNamespace && podMatches)
    | some namespaceSelector =>
      if namespaceSelector.isEmpty then some podMatches
      else do
        let row ← inventory.namespaceRow query.workspaceId query.clusterId peerNamespace
        some (selectorMatches namespaceSelector (labelsOf row) && podMatches)

def PolicySpec.rules (spec : PolicySpec) : Direction → Option (List PolicyRule)
  | .ingress => spec.ingress
  | .egress => spec.egress

def policyIsolatesDirection (spec : PolicySpec) (direction : Direction) : Bool :=
  let policyTypes := match spec.policyTypes with
    | some (type :: types) => type :: types
    | _ => if spec.egress.isSome then [.ingress, .egress] else [.ingress]
  decide (direction ∈ policyTypes)

/-- The loop of `_policy_allows` over the rules; `uncertain` says that a peer could not be told. -/
def rulesAllow (inventory : PolicyInventory) (query : FlowQuery) (policyNamespace : String)
    (evaluated peer : ObservedPod) : List PolicyRule → (uncertain : Bool) → Option Bool
  | [], uncertain => if uncertain then none else some false
  | rule :: rules, uncertain =>
    let destination := if query.direction = .ingress then evaluated else peer
    if portsAllow rule.ports destination query.port query.protocol then
      match rule.peers with
      | none => some true
      | some peers =>
        let told := peers.map fun selector =>
          peerMatches inventory query policyNamespace selector peer
        if told.any (· == some true) then some true
        else rulesAllow inventory query policyNamespace evaluated peer rules
          (uncertain || told.any (· == none))
    else rulesAllow inventory query policyNamespace evaluated peer rules uncertain

def policyAllows (inventory : PolicyInventory) (query : FlowQuery) (policyNamespace : String)
    (spec : PolicySpec) (evaluated peer : ObservedPod) : Option Bool :=
  match spec.rules query.direction with
  | none => some false
  | some rules => rulesAllow inventory query policyNamespace evaluated peer rules false

/-! ## The evaluation -/

def exactPod (inventory : PolicyInventory) (workspaceId clusterId namespaceName name uid : String) :
    Except EvaluationError ObservedPod :=
  match inventory.pod workspaceId clusterId namespaceName name with
  | none => .error (.identityChanged "exact Pod was not observed")
  | some row =>
    if row.clusterId ≠ clusterId ∨ row.namespaceName.getD "" ≠ namespaceName ∨ row.name ≠ name ∨
        row.uid ≠ uid ∨ row.apiVersion ≠ "v1" ∨ row.kind.toLower ≠ "pod" then
      .error (.identityChanged "exact Pod identity changed")
    else .ok row

def maxNetworkPoliciesPerEvaluation : ℕ := 500

/-- The policies within the limit, the Cilium policies within what it leaves, and whether there
are more. -/
def networkPolicies (inventory : PolicyInventory) (workspaceId clusterId : String) :
    List ObservedPolicy × List ObservedCiliumPolicy × Bool :=
  let observed := (inventory.networkPolicies workspaceId clusterId).take
    (maxNetworkPoliciesPerEvaluation + 1)
  let standard := observed.take maxNetworkPoliciesPerEvaluation
  if observed.length > maxNetworkPoliciesPerEvaluation then (standard, [], true)
  else
    let remaining := maxNetworkPoliciesPerEvaluation - standard.length
    let ciliumObserved := (inventory.ciliumPolicies workspaceId clusterId).take (remaining + 1)
    (standard, ciliumObserved.take remaining, decide (ciliumObserved.length > remaining))

/-- `api_version.rpartition("/")`: the group before the last slash and the version after it. -/
def resourceRef (resource : ObservedResource) : ResourceRef :=
  let parts := resource.apiVersion.toList.splitOn '/'
  { apiGroup := String.ofList (['/'].intercalate parts.dropLast)
    version := String.ofList (parts.getLast?.getD [])
    kind := resource.kind
    namespaceName := resource.namespaceName
    name := resource.name
    uid := resource.uid }

/-- What the evaluation has found so far. -/
structure Evaluation where
  selecting : List SelectingNetworkPolicy
  anyAllow : Bool
  namespaceLabelsUnavailable : Bool
  ciliumRuleUnsupported : Bool

def Evaluation.empty : Evaluation := ⟨[], false, false, false⟩

/-- The entry of the response about a selecting policy. -/
def selectingEntry (policy : ObservedPolicy) : Option Bool → SelectingNetworkPolicy
  | some true => ⟨resourceRef policy.toObservedResource, .allow,
      "a selecting policy rule admits the exact peer and destination port"⟩
  | some false => ⟨resourceRef policy.toObservedResource, .deny,
      "the selecting policy has no rule admitting the exact peer and port"⟩
  | none => ⟨resourceRef policy.toObservedResource, .unknown,
      "namespace labels required by a selecting policy were not observed"⟩

/-- A policy of the namespace that selects the Pod and isolates the direction. -/
def policySelects (query : FlowQuery) (evaluated : ObservedPod) (policy : ObservedPolicy) : Bool :=
  policy.namespaceName.getD "" == query.namespaceName &&
    selectorMatches (selectorOf policy.spec.podSelector) (labelsOf evaluated.toObservedLabels) &&
    policyIsolatesDirection policy.spec query.direction

/-- The body of the loop over the policies. -/
def evaluatePolicy (inventory : PolicyInventory) (query : FlowQuery) (evaluated peer : ObservedPod)
    (found : Evaluation) (policy : ObservedPolicy) : Evaluation :=
  if policySelects query evaluated policy then
    let allowed := policyAllows inventory query query.namespaceName policy.spec evaluated peer
    { found with
      selecting := found.selecting ++ [selectingEntry policy allowed]
      anyAllow := found.anyAllow || allowed == some true
      namespaceLabelsUnavailable := found.namespaceLabelsUnavailable || allowed == none }
  else found

def ciliumPolicySelects (query : FlowQuery) (evaluated : ObservedPod)
    (policy : ObservedCiliumPolicy) : Bool :=
  policy.namespaceName.getD "" == query.namespaceName &&
    selectorMatches (selectorOf policy.endpointSelector) (labelsOf evaluated.toObservedLabels)

/-- The body of the loop over the Cilium policies. -/
def evaluateCiliumPolicy (query : FlowQuery) (evaluated : ObservedPod) (found : Evaluation)
    (policy : ObservedCiliumPolicy) : Evaluation :=
  if ciliumPolicySelects query evaluated policy then
    { found with
      selecting := found.selecting ++ [⟨resourceRef policy.toObservedResource, .unknown,
        "Cilium policy selects the exact endpoint but rule evaluation is unavailable"⟩]
      ciliumRuleUnsupported := true }
  else found

/-- `sorted(incomplete_reasons)`. -/
def incompleteReasons (found : Evaluation) (truncated : Bool) : List String :=
  (if found.ciliumRuleUnsupported then ["cilium_network_policy_rule_unsupported"] else []) ++
    (if truncated then ["network_policy_limit_reached"] else []) ++
    (if found.namespaceLabelsUnavailable then ["network_policy_namespace_labels_unavailable"]
      else [])

/-- The order of the selecting policies: by namespace, then by name. -/
def SelectingNetworkPolicy.precedes (a b : SelectingNetworkPolicy) : Bool :=
  let namespaceOf (policy : SelectingNetworkPolicy) := policy.resource.namespaceName.getD ""
  namespaceOf a < namespaceOf b ||
    (namespaceOf a == namespaceOf b && a.resource.name ≤ b.resource.name)

def evaluateNetworkPolicy (inventory : PolicyInventory) (query : FlowQuery) :
    Except EvaluationError NetworkPolicyEvaluationResponse := do
  let evaluated ← exactPod inventory query.workspaceId query.clusterId query.namespaceName
    query.podName query.podUid
  let peer ← exactPod inventory query.workspaceId query.clusterId query.peerNamespace
    query.peerPodName query.peerPodUid
  let (policies, ciliumPolicies, truncated) :=
    networkPolicies inventory query.workspaceId query.clusterId
  let found := policies.foldl (evaluatePolicy inventory query evaluated peer) .empty
  let found := ciliumPolicies.foldl (evaluateCiliumPolicy query evaluated) found
  let reasons := incompleteReasons found truncated
  return {
    evaluatedPod := resourceRef evaluated.toObservedResource
    peerPod := resourceRef peer.toObservedResource
    direction := query.direction
    port := query.port
    protocol := query.protocol
    selectingPolicies := found.selecting.insertionSort fun a b => a.precedes b
    verdict :=
      if found.anyAllow || (found.selecting.isEmpty && reasons.isEmpty) then .allowed
      else if reasons.isEmpty then .denied
      else .indeterminate
    coverage := {
      state := if reasons.isEmpty then .complete else .isPartial
      evaluatedCount := policies.length + ciliumPolicies.length
      returnedCount := found.selecting.length
      reasonCodes := reasons } }

end Opsia.Traffic
