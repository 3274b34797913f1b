import Opsia.Lib.AllowRules
import Opsia.Traffic.NetworkPolicy

/-!
# What a NetworkPolicy means

The Kubernetes meaning of selectors, ports, peers and rules, and the plain part of it that the
evaluation follows. A selector is read plainly when each of its `NotIn` expressions is about a label
that is there; a rule is read plainly when it admits a flow by no empty list. The plain reading is
the narrower one (`plain_narrows`).
-/

namespace Opsia.Traffic

/-! ## The Kubernetes meaning -/

/-- What an operator says of the value of a label. -/
def SelectorOperator.Holds (values : List String) (value : Option String) :
    SelectorOperator → Prop
  | .isIn => ∃ text ∈ values, value = some text
  | .isNotIn => ∀ text ∈ values, value ≠ some text
  | .doesExist => value ≠ none
  | .doesNotExist => value = none

instance (values : List String) (value : Option String) :
    (operator : SelectorOperator) → Decidable (operator.Holds values value)
  | .isIn => inferInstanceAs (Decidable (∃ text ∈ values, value = some text))
  | .isNotIn => inferInstanceAs (Decidable (∀ text ∈ values, value ≠ some text))
  | .doesExist => inferInstanceAs (Decidable (value ≠ none))
  | .doesNotExist => inferInstanceAs (Decidable (value = none))

/-- A selector selects an object by its labels: all of `matchLabels` and all expressions hold. -/
def LabelSelector.Selects (selector : LabelSelector) (labels : Labels) : Prop :=
  (∀ label ∈ selector.matchLabels.getD [], labels.lookup label.1 = some label.2) ∧
    ∀ expression ∈ selector.matchExpressions.getD [],
      expression.operator.Holds expression.values (labels.lookup expression.key)

instance (selector : LabelSelector) (labels : Labels) : Decidable (selector.Selects labels) :=
  inferInstanceAs (Decidable (_ ∧ _))

/-- The address is in the block and in none of its exceptions. -/
def IpBlock.Holds (block : IpBlock) (text : Option String) : Prop :=
  ∃ address ∈ text.bind Ip.ipAddress,
    (∃ network ∈ Ip.ipNetwork block.cidr, network.Covers address) ∧
      ∀ item ∈ block.except, ∃ network ∈ Ip.ipNetwork item, ¬ network.Covers address

instance (block : IpBlock) (text : Option String) : Decidable (block.Holds text) :=
  inferInstanceAs (Decidable (∃ address ∈ text.bind Ip.ipAddress, _))

/-- A container of the Pod has a port of that name, protocol and number. -/
def ObservedPod.HasPort (pod : ObservedPod) (name : String) (protocol : Protocol) (port : ℤ) :
    Prop :=
  ∃ container ∈ pod.containers.getD [], ∃ candidate ∈ container.ports.getD [],
    (candidate.name = some name ∧ candidate.protocol.getD .tcp = protocol) ∧
      candidate.containerPort = some port

instance (pod : ObservedPod) (name : String) (protocol : Protocol) (port : ℤ) :
    Decidable (pod.HasPort name protocol port) :=
  inferInstanceAs (Decidable (∃ container ∈ pod.containers.getD [], _))

/-- A flow between two Pods, with the labels of the peer's namespace. -/
structure Flow where
  query : FlowQuery
  evaluated : ObservedPod
  peer : ObservedPod
  namespaceLabels : Labels

namespace Flow

variable (flow : Flow)

def destination : ObservedPod :=
  if flow.query.direction = .ingress then flow.evaluated else flow.peer

def evaluatedLabels : Labels := labelsOf flow.evaluated.toObservedLabels

def peerLabels : Labels := labelsOf flow.peer.toObservedLabels

end Flow

/-- The port is the port of the entry, in the range up to its `endPort`, or has its name. -/
def PortValue.Holds (flow : Flow) (endPort : Option ℤ) : PortValue → Prop
  | .number first => first ≤ flow.query.port ∧ flow.query.port ≤ endPort.getD first
  | .name text => flow.destination.HasPort text flow.query.protocol flow.query.port

instance (flow : Flow) (endPort : Option ℤ) :
    (value : PortValue) → Decidable (value.Holds flow endPort)
  | .number first =>
    inferInstanceAs (Decidable (first ≤ flow.query.port ∧ flow.query.port ≤ endPort.getD first))
  | .name text =>
    inferInstanceAs (Decidable (flow.destination.HasPort text flow.query.protocol flow.query.port))

def PolicyPort.Admits (entry : PolicyPort) (flow : Flow) : Prop :=
  entry.protocol.getD .tcp = flow.query.protocol ∧
    ∀ value ∈ entry.port, value.Holds flow entry.endPort

instance (entry : PolicyPort) (flow : Flow) : Decidable (entry.Admits flow) :=
  inferInstanceAs (Decidable (_ ∧ _))

/-- The peer is an address of the block, or a Pod of the selected namespaces (of the policy's own
where no selector is given) that the Pod selector selects. -/
def PolicyPeer.Admits (entry : PolicyPeer) (flow : Flow) : Prop :=
  (∀ block ∈ entry.ipBlock, block.Holds (podIp flow.peer)) ∧
    (entry.ipBlock = none →
      (entry.namespaceSelector = none →
        flow.peer.namespaceName.getD "" = flow.query.namespaceName) ∧
      (∀ selector ∈ entry.namespaceSelector, selector.Selects flow.namespaceLabels) ∧
      ∀ selector ∈ entry.podSelector, selector.Selects flow.peerLabels)

instance (entry : PolicyPeer) (flow : Flow) : Decidable (entry.Admits flow) :=
  inferInstanceAs (Decidable (_ ∧ (_ → _ ∧ _ ∧ _)))

/-- Missing or empty ports admit every port. -/
def PolicyRule.AdmitsPort (rule : PolicyRule) (flow : Flow) : Prop :=
  rule.ports.getD [] = [] ∨ ∃ entry ∈ rule.ports.getD [], entry.Admits flow

instance (rule : PolicyRule) (flow : Flow) : Decidable (rule.AdmitsPort flow) :=
  inferInstanceAs (Decidable (_ ∨ _))

/-- A missing or empty `from` or `to` admits every peer. -/
def PolicyRule.AdmitsPeer (rule : PolicyRule) (flow : Flow) : Prop :=
  rule.peers.getD [] = [] ∨ ∃ entry ∈ rule.peers.getD [], entry.Admits flow

instance (rule : PolicyRule) (flow : Flow) : Decidable (rule.AdmitsPeer flow) :=
  inferInstanceAs (Decidable (_ ∨ _))

/-- The direction is one of the policy types; without types, a policy is about ingress, and about
egress when it has an egress section. -/
def PolicySpec.Isolates (spec : PolicySpec) (direction : Direction) : Prop :=
  direction ∈ spec.policyTypes.getD [] ∨
    (spec.policyTypes.getD [] = [] ∧
      (direction = .ingress ∨ (direction = .egress ∧ spec.egress.isSome = true)))

instance (spec : PolicySpec) (direction : Direction) : Decidable (spec.Isolates direction) :=
  inferInstanceAs (Decidable (_ ∨ (_ ∧ (_ ∨ (_ ∧ _)))))

/-- The policies as Kubernetes reads them. -/
def kubernetes (flow : Flow) : AllowRules.Reading ObservedPolicy where
  Selects policy :=
    policy.namespaceName.getD "" = flow.query.namespaceName ∧
      (selectorOf policy.spec.podSelector).Selects flow.evaluatedLabels ∧
        policy.spec.Isolates flow.query.direction
  Admits policy :=
    ∃ rule ∈ (policy.spec.rules flow.query.direction).getD [],
      rule.AdmitsPort flow ∧ rule.AdmitsPeer flow

instance (flow : Flow) : DecidablePred (kubernetes flow).Selects := fun _ =>
  inferInstanceAs (Decidable (_ ∧ _ ∧ _))

instance (flow : Flow) : DecidablePred (kubernetes flow).Admits := fun policy =>
  inferInstanceAs (Decidable
    (∃ rule ∈ (policy.spec.rules flow.query.direction).getD [], _ ∧ _))

/-! ## The plain reading -/

/-- Each `NotIn` of the selector is about a label that is there. -/
def LabelSelector.IsPlain (selector : LabelSelector) (labels : Labels) : Prop :=
  ∀ expression ∈ selector.matchExpressions.getD [],
    expression.operator = .isNotIn → labels.lookup expression.key ≠ none

/-- The peer is admitted, and by plain selectors. -/
def PolicyPeer.AdmitsPlainly (entry : PolicyPeer) (flow : Flow) : Prop :=
  entry.Admits flow ∧
    (entry.ipBlock = none →
      (∀ selector ∈ entry.namespaceSelector, selector.IsPlain flow.namespaceLabels) ∧
      ∀ selector ∈ entry.podSelector, selector.IsPlain flow.peerLabels)

/-- The rule admits the flow, and not by an empty list. -/
def PolicyRule.AdmitsPlainly (rule : PolicyRule) (flow : Flow) : Prop :=
  (rule.ports = none ∨ ∃ entry ∈ rule.ports.getD [], entry.Admits flow) ∧
    (rule.peers = none ∨ ∃ entry ∈ rule.peers.getD [], entry.AdmitsPlainly flow)

/-- The policies read plainly. -/
def plain (flow : Flow) : AllowRules.Reading ObservedPolicy where
  Selects policy :=
    (kubernetes flow).Selects policy ∧
      (selectorOf policy.spec.podSelector).IsPlain flow.evaluatedLabels
  Admits policy :=
    ∃ rule ∈ (policy.spec.rules flow.query.direction).getD [], rule.AdmitsPlainly flow

theorem getD_eq_nil_or {α : Type} {field : Option (List α)} {P : α → Prop}
    (h : field = none ∨ ∃ a ∈ field.getD [], P a) :
    field.getD [] = [] ∨ ∃ a ∈ field.getD [], P a := by
  rcases h with rfl | hsome
  · exact .inl rfl
  · exact .inr hsome

theorem PolicyRule.AdmitsPlainly.admits {rule : PolicyRule} {flow : Flow}
    (h : rule.AdmitsPlainly flow) : rule.AdmitsPort flow ∧ rule.AdmitsPeer flow := by
  obtain ⟨hports, hpeers⟩ := h
  refine ⟨getD_eq_nil_or hports, ?_⟩
  obtain hnone | ⟨entry, hentry, hadmits⟩ := hpeers
  · exact getD_eq_nil_or (.inl hnone)
  · exact .inr ⟨entry, hentry, hadmits.1⟩

/-- **What is read plainly is meant so.** -/
theorem plain_narrows (flow : Flow) : (plain flow).Narrows (kubernetes flow) where
  selects := fun _ h => h.1
  admits := by
    rintro policy ⟨rule, hrule, hadmits⟩
    exact ⟨rule, hrule, hadmits.admits⟩

end Opsia.Traffic
