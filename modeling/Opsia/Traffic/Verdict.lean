import Opsia.Traffic.Semantics

/-!
# The verdict and the Kubernetes answer

The evaluation takes the plain reading of the policies, part by part: selectors, ports and blocks,
peers, the loop over the rules and the loop over the policies. Over exact Pods, with every policy
and every needed Namespace row observed, it gives the answer of the plain reading
(`verdict_plain`), so it gives the Kubernetes answer exactly where the plain reading suffices
(`verdict_follows_kubernetes`).
-/

namespace Opsia.Traffic

/-! ## Selectors, ports and blocks, read plainly -/

theorem matches_iff (expression : MatchExpression) (labels : Labels) :
    expression.matches labels = true ↔
      expression.operator.Holds expression.values (labels.lookup expression.key) ∧
        (expression.operator = .isNotIn → labels.lookup expression.key ≠ none) := by
  rw [MatchExpression.matches]
  cases labels.lookup expression.key with
  | none => cases expression.operator <;> simp [SelectorOperator.Holds]
  | some value =>
    cases expression.operator with
    | isNotIn => simpa [SelectorOperator.Holds] using List.forall_mem_ne.symm
    | _ => simp [SelectorOperator.Holds]

theorem selectorMatches_iff (selector : LabelSelector) (labels : Labels) :
    selectorMatches selector labels = true ↔
      selector.Selects labels ∧ selector.IsPlain labels := by
  simp only [selectorMatches, Bool.and_eq_true, List.all_eq_true, beq_iff_eq, matches_iff]
  constructor
  · rintro ⟨hlabels, hexpressions⟩
    exact ⟨⟨hlabels, fun e he => (hexpressions e he).1⟩, fun e he => (hexpressions e he).2⟩
  · rintro ⟨⟨hlabels, hexpressions⟩, hplain⟩
    exact ⟨hlabels, fun e he => ⟨hexpressions e he, hplain e he⟩⟩

theorem selects_of_isEmpty {selector : LabelSelector} (h : selector.isEmpty = true)
    (labels : Labels) : selector.Selects labels ∧ selector.IsPlain labels := by
  obtain ⟨matchLabels, matchExpressions⟩ := selector
  obtain ⟨hlabels, hexpressions⟩ := Bool.and_eq_true_iff.mp h
  obtain rfl := Option.isNone_iff_eq_none.mp hlabels
  obtain rfl := Option.isNone_iff_eq_none.mp hexpressions
  rw [← selectorMatches_iff]
  rfl

theorem mem_namedPorts (pod : ObservedPod) (name : String) (protocol : Protocol) (port : ℤ) :
    port ∈ namedPorts pod name protocol ↔ pod.HasPort name protocol port := by
  simp only [namedPorts, ObservedPod.HasPort, List.mem_flatMap, List.mem_filterMap,
    Option.ite_none_right_eq_some]

theorem allows_iff (entry : PolicyPort) (flow : Flow) :
    entry.allows flow.destination flow.query.port flow.query.protocol = true ↔
      entry.Admits flow := by
  rw [PolicyPort.allows, PolicyPort.Admits, Bool.and_eq_true, beq_iff_eq]
  refine and_congr_right fun _ => ?_
  cases entry.port with
  | none => simp
  | some value =>
    cases value with
    | number first => simp [PortValue.Holds]
    | name text => simp [PortValue.Holds, mem_namedPorts]

theorem portsAllow_iff (value : Option (List PolicyPort)) (flow : Flow) :
    portsAllow value flow.destination flow.query.port flow.query.protocol = true ↔
      (value = none ∨ ∃ entry ∈ value.getD [], entry.Admits flow) := by
  cases value with
  | none => simp [portsAllow]
  | some ports => simp [portsAllow, allows_iff]

theorem mapM_any_eq_false {texts : List String} {address : Ip.Address} :
    (∃ exceptions, texts.mapM Ip.ipNetwork = some exceptions ∧
      (exceptions.any (·.contains address)) = false) ↔
      ∀ item ∈ texts, ∃ network ∈ Ip.ipNetwork item, ¬ network.Covers address := by
  induction texts with
  | nil => simp
  | cons text texts ih =>
    rw [List.forall_mem_cons, ← ih]
    constructor
    · rintro ⟨exceptions, hmap, hnone⟩
      rw [List.mapM_cons] at hmap
      obtain ⟨network, hnetwork, hmap⟩ := Option.bind_eq_some_iff.mp hmap
      obtain ⟨rest, hrest, heq⟩ := Option.bind_eq_some_iff.mp hmap
      obtain rfl := Option.some.inj heq
      rw [List.any_cons, Bool.or_eq_false_iff] at hnone
      refine ⟨⟨network, hnetwork, ?_⟩, rest, hrest, hnone.2⟩
      rw [← network.contains_iff, hnone.1]
      exact Bool.false_ne_true
    · rintro ⟨⟨network, hnetwork, hcovers⟩, rest, hrest, hnone⟩
      refine ⟨network :: rest, ?_, ?_⟩
      · rw [List.mapM_cons, Option.mem_def.mp hnetwork, hrest]
        rfl
      · rw [← network.contains_iff, Bool.not_eq_true] at hcovers
        rw [List.any_cons, hcovers, hnone, Bool.or_self]

theorem ipBlockMatches_iff (block : IpBlock) (text : Option String) :
    ipBlockMatches block text = true ↔ block.Holds text := by
  rw [ipBlockMatches, Option.getD_eq_iff]
  simp only [IpBlock.Holds, ← mapM_any_eq_false]
  constructor
  · rintro (h | ⟨-, h⟩)
    · obtain ⟨address, haddress, h⟩ := Option.bind_eq_some_iff.mp h
      obtain ⟨network, hnetwork, h⟩ := Option.bind_eq_some_iff.mp h
      obtain ⟨exceptions, hexceptions, h⟩ := Option.bind_eq_some_iff.mp h
      have hanswer := Option.some.inj h
      rw [Bool.and_eq_true, Bool.not_eq_true'] at hanswer
      exact ⟨address, haddress, ⟨network, hnetwork, (network.contains_iff address).mp hanswer.1⟩,
        exceptions, hexceptions, hanswer.2⟩
    · cases h
  · rintro ⟨address, haddress, ⟨network, hnetwork, hcovers⟩, exceptions, hexceptions, hnone⟩
    refine .inl ?_
    rw [show text >>= Ip.ipAddress = some address from haddress, Option.mem_def.mp hnetwork,
      hexceptions]
    change some (network.contains address && !exceptions.any _) = some true
    rw [(network.contains_iff address).mpr hcovers, hnone]
    rfl

/-! ## Peers and rules -/

/-- The flow as the inventory has it: its Pods, and the labels of the peer's Namespace row. -/
def flowOf (inventory : PolicyInventory) (query : FlowQuery) (evaluated peer : ObservedPod) :
    Flow where
  query := query
  evaluated := evaluated
  peer := peer
  namespaceLabels := (inventory.namespaceRow query.workspaceId query.clusterId
    (peer.namespaceName.getD "")).elim [] labelsOf

/-- A peer whose Namespace row is needed: it selects namespaces by labels. -/
def PolicyPeer.NeedsNamespace (entry : PolicyPeer) : Prop :=
  entry.ipBlock = none ∧ ∃ selector ∈ entry.namespaceSelector, selector.isEmpty = false

section
variable {inventory : PolicyInventory} {query : FlowQuery} {evaluated peer : ObservedPod}

theorem podSelector_all_iff (flow : Flow) (selector : Option LabelSelector) :
    (selector.all fun podSelector => selectorMatches podSelector flow.peerLabels) = true ↔
      (∀ s ∈ selector, s.Selects flow.peerLabels) ∧ ∀ s ∈ selector, s.IsPlain flow.peerLabels := by
  cases selector with
  | none => simp
  | some selector => simp [selectorMatches_iff]

/-- **A peer is matched when it is admitted plainly, and is told of whenever its Namespace row is
there.** -/
theorem peerMatches_eq (entry : PolicyPeer)
    (hrow : entry.NeedsNamespace → (inventory.namespaceRow query.workspaceId query.clusterId
      (peer.namespaceName.getD "")).isSome = true) :
    ∃ answer, peerMatches inventory query query.namespaceName entry peer = some answer ∧
      (answer = true ↔ entry.AdmitsPlainly (flowOf inventory query evaluated peer)) := by
  set flow := flowOf inventory query evaluated peer with hflow
  have hpods := podSelector_all_iff flow entry.podSelector
  rw [peerMatches]
  cases hblock : entry.ipBlock with
  | some block =>
    refine ⟨_, rfl, ?_⟩
    simp [PolicyPeer.AdmitsPlainly, PolicyPeer.Admits, hblock, ipBlockMatches_iff, hflow, flowOf]
  | none =>
    cases hnamespaces : entry.namespaceSelector with
    | none =>
      refine ⟨_, rfl, ?_⟩
      change (_ && entry.podSelector.all fun s => selectorMatches s flow.peerLabels) = true ↔ _
      rw [Bool.and_eq_true, hpods, beq_iff_eq]
      simp [PolicyPeer.AdmitsPlainly, PolicyPeer.Admits, hblock, hnamespaces, hflow, flowOf,
        and_assoc]
    | some selector =>
      by_cases hempty : selector.isEmpty = true
      · refine ⟨_, if_pos hempty, ?_⟩
        change (entry.podSelector.all fun s => selectorMatches s flow.peerLabels) = true ↔ _
        rw [hpods]
        have hall := selects_of_isEmpty hempty flow.namespaceLabels
        simp [PolicyPeer.AdmitsPlainly, PolicyPeer.Admits, hblock, hnamespaces, hall]
      · obtain ⟨row, hrow⟩ := Option.isSome_iff_exists.mp
          (hrow ⟨hblock, selector, hnamespaces, Bool.eq_false_iff.mpr hempty⟩)
        have hlabels : flow.namespaceLabels = labelsOf row := by
          rw [hflow, flowOf, hrow]
          rfl
        refine ⟨_, (if_neg hempty).trans (by rw [hrow]; rfl), ?_⟩
        change (_ && entry.podSelector.all fun s => selectorMatches s flow.peerLabels) = true ↔ _
        rw [Bool.and_eq_true, hpods, selectorMatches_iff, ← hlabels]
        simp only [PolicyPeer.AdmitsPlainly, PolicyPeer.Admits, hblock, hnamespaces]
        grind

theorem any_answers {α : Type} {f : α → Option Bool} {P : α → Prop} {l : List α}
    (h : ∀ a ∈ l, ∃ answer, f a = some answer ∧ (answer = true ↔ P a)) :
    ((l.map f).any (· == some true) = true ↔ ∃ a ∈ l, P a) ∧ (l.map f).any (· == none) = false := by
  induction l with
  | nil => simp
  | cons a l ih =>
    obtain ⟨answer, hanswer, hiff⟩ := h a List.mem_cons_self
    obtain ⟨htrue, hnone⟩ := ih fun b hb => h b (List.mem_cons_of_mem _ hb)
    constructor
    · rw [List.map_cons, List.any_cons, Bool.or_eq_true, htrue, List.exists_mem_cons_iff, ← hiff,
        hanswer, beq_iff_eq, Option.some.injEq]
    · rw [List.map_cons, List.any_cons, hnone, hanswer, Bool.or_false]
      rfl

/-- The rules of a list whose peers are asked for need no row that is not there. -/
def NamespaceObserved (inventory : PolicyInventory) (query : FlowQuery) (peer : ObservedPod)
    (flow : Flow) (rules : List PolicyRule) : Prop :=
  ∀ rule ∈ rules, rule.AdmitsPort flow → ∀ entry ∈ rule.peers.getD [], entry.NeedsNamespace →
    (inventory.namespaceRow query.workspaceId query.clusterId
      (peer.namespaceName.getD "")).isSome = true

/-- **The loop over the rules finds one that admits the flow plainly, or tells that none does.** -/
theorem rulesAllow_eq (rules : List PolicyRule)
    (hrow : NamespaceObserved inventory query peer (flowOf inventory query evaluated peer) rules) :
    ∃ answer, rulesAllow inventory query query.namespaceName evaluated peer rules false =
        some answer ∧
      (answer = true ↔
        ∃ rule ∈ rules, rule.AdmitsPlainly (flowOf inventory query evaluated peer)) := by
  set flow := flowOf inventory query evaluated peer with hflow
  induction rules with
  | nil => exact ⟨false, rfl, by simp⟩
  | cons rule rules ih =>
    obtain ⟨answer, hanswer, hiff⟩ := ih fun r hr => hrow r (List.mem_cons_of_mem _ hr)
    have hports := portsAllow_iff rule.ports flow
    rw [List.exists_mem_cons_iff, rulesAllow]
    change ∃ answer, (if portsAllow rule.ports flow.destination flow.query.port flow.query.protocol
      then _ else _) = some answer ∧ _
    split
    case isFalse hrefused =>
      refine ⟨answer, hanswer, hiff.trans (or_iff_right fun hadmits => ?_).symm⟩
      exact hrefused (hports.mpr hadmits.1)
    case isTrue hallowed =>
      have hadmitsPort := hports.mp hallowed
      cases hpeers : rule.peers with
      | none => exact ⟨true, rfl, iff_of_true rfl (.inl ⟨hadmitsPort, .inl hpeers⟩)⟩
      | some peers =>
        have hpeer : ∀ entry ∈ peers, ∃ answer,
            peerMatches inventory query query.namespaceName entry peer = some answer ∧
              (answer = true ↔ entry.AdmitsPlainly flow) := by
          intro entry hentry
          refine peerMatches_eq entry (hrow rule List.mem_cons_self (getD_eq_nil_or hadmitsPort)
            entry ?_)
          rw [hpeers]
          exact hentry
        obtain ⟨htrue, hknown⟩ := any_answers hpeer
        by_cases hfound : ∃ entry ∈ peers, entry.AdmitsPlainly flow
        · refine ⟨true, if_pos (htrue.mpr hfound), iff_of_true rfl (.inl ⟨hadmitsPort, .inr ?_⟩)⟩
          rwa [hpeers]
        · refine ⟨answer, ?_, hiff.trans (or_iff_right fun hadmits => ?_).symm⟩
          · refine (if_neg (mt htrue.mp hfound)).trans ?_
            rw [hknown]
            exact hanswer
          · obtain hnone | hsome := hadmits.2
            · rw [hpeers] at hnone
              cases hnone
            · rw [hpeers] at hsome
              exact hfound hsome

/-! ## Policies -/

theorem policyIsolatesDirection_iff (spec : PolicySpec) (direction : Direction) :
    policyIsolatesDirection spec direction = true ↔ spec.Isolates direction := by
  rw [policyIsolatesDirection, decide_eq_true_eq, PolicySpec.Isolates]
  rcases spec.policyTypes with _ | _ | ⟨type, types⟩
  all_goals cases spec.egress <;> simp

theorem policySelects_iff (policy : ObservedPolicy) :
    policySelects query evaluated policy = true ↔
      (plain (flowOf inventory query evaluated peer)).Selects policy := by
  rw [policySelects, Bool.and_eq_true, Bool.and_eq_true, beq_iff_eq, selectorMatches_iff,
    policyIsolatesDirection_iff]
  constructor
  · rintro ⟨⟨hnamespace, hselects, hplain⟩, hisolates⟩
    exact ⟨⟨hnamespace, hselects, hisolates⟩, hplain⟩
  · rintro ⟨⟨hnamespace, hselects, hisolates⟩, hplain⟩
    exact ⟨⟨hnamespace, hselects, hplain⟩, hisolates⟩

theorem policyAllows_eq (policy : ObservedPolicy)
    (hrow : NamespaceObserved inventory query peer (flowOf inventory query evaluated peer)
      ((policy.spec.rules query.direction).getD [])) :
    ∃ answer, policyAllows inventory query query.namespaceName policy.spec evaluated peer =
        some answer ∧
      (answer = true ↔ (plain (flowOf inventory query evaluated peer)).Admits policy) := by
  obtain ⟨answer, hanswer, hiff⟩ := @rulesAllow_eq inventory query evaluated peer _ hrow
  refine ⟨answer, ?_, hiff⟩
  rw [policyAllows, ← hanswer]
  cases policy.spec.rules query.direction <;> rfl

/-! ## The evaluation -/

theorem foldl_evaluatePolicy (policies : List ObservedPolicy) (found : Evaluation) :
    policies.foldl (evaluatePolicy inventory query evaluated peer) found =
      let selecting := policies.filter (policySelects query evaluated)
      let answer (policy : ObservedPolicy) :=
        policyAllows inventory query query.namespaceName policy.spec evaluated peer
      { found with
        selecting := found.selecting ++ selecting.map fun p => selectingEntry p (answer p)
        anyAllow := found.anyAllow || (selecting.map answer).any (· == some true)
        namespaceLabelsUnavailable :=
          found.namespaceLabelsUnavailable || (selecting.map answer).any (· == none) } := by
  induction policies generalizing found with
  | nil => simp
  | cons policy policies ih =>
    rw [List.foldl_cons, ih, evaluatePolicy]
    by_cases hselects : policySelects query evaluated policy = true
    · rw [if_pos hselects, List.filter_cons_of_pos hselects]
      simp [Bool.or_assoc]
    · rw [if_neg hselects, List.filter_cons_of_neg hselects]

theorem ciliumPolicySelects_eq_false {policy : ObservedCiliumPolicy}
    (h : policy.namespaceName.getD "" = query.namespaceName →
      ¬ (selectorOf policy.endpointSelector).Selects (labelsOf evaluated.toObservedLabels)) :
    ciliumPolicySelects query evaluated policy = false := by
  rw [ciliumPolicySelects, Bool.and_eq_false_iff, beq_eq_false_iff_ne, Bool.eq_false_iff]
  by_cases hnamespace : policy.namespaceName.getD "" = query.namespaceName
  · exact .inr fun hmatches => h hnamespace ((selectorMatches_iff ..).mp hmatches).1
  · exact .inl hnamespace

theorem foldl_evaluateCiliumPolicy {policies : List ObservedCiliumPolicy} (found : Evaluation)
    (h : ∀ policy ∈ policies, ciliumPolicySelects query evaluated policy = false) :
    policies.foldl (evaluateCiliumPolicy query evaluated) found = found := by
  induction policies with
  | nil => rfl
  | cons policy policies ih =>
    have hnot : ¬ ciliumPolicySelects query evaluated policy = true :=
      Bool.eq_false_iff.mp (h policy List.mem_cons_self)
    rw [List.foldl_cons, evaluateCiliumPolicy, if_neg hnot]
    exact ih fun p hp => h p (List.mem_cons_of_mem _ hp)

theorem networkPolicies_eq {workspaceId clusterId : String}
    (h : (inventory.networkPolicies workspaceId clusterId).length +
      (inventory.ciliumPolicies workspaceId clusterId).length ≤ maxNetworkPoliciesPerEvaluation) :
    networkPolicies inventory workspaceId clusterId =
      (inventory.networkPolicies workspaceId clusterId,
        inventory.ciliumPolicies workspaceId clusterId, false) := by
  have hpolicies : (inventory.networkPolicies workspaceId clusterId).length ≤
      maxNetworkPoliciesPerEvaluation := by omega
  have hcilium : (inventory.ciliumPolicies workspaceId clusterId).length ≤
      maxNetworkPoliciesPerEvaluation -
        (inventory.networkPolicies workspaceId clusterId).length := by omega
  simp only [networkPolicies]
  rw [List.take_of_length_le (Nat.le_succ_of_le hpolicies), List.take_of_length_le hpolicies,
    if_neg (Nat.not_lt.mpr hpolicies), List.take_of_length_le (Nat.le_succ_of_le hcilium),
    List.take_of_length_le hcilium, decide_eq_false (Nat.not_lt.mpr hcilium)]

theorem exactPod_of_observed {workspaceId clusterId namespaceName name uid : String}
    {row : ObservedPod} (hrow : inventory.pod workspaceId clusterId namespaceName name = some row)
    (hexact : ¬ (row.clusterId ≠ clusterId ∨ row.namespaceName.getD "" ≠ namespaceName ∨
      row.name ≠ name ∨ row.uid ≠ uid ∨ row.apiVersion ≠ "v1" ∨ row.kind.toLower ≠ "pod")) :
    exactPod inventory workspaceId clusterId namespaceName name uid = .ok row := by
  rw [exactPod, hrow]
  exact if_neg hexact

/-- A verdict says whether a flow is permitted. -/
def TrafficVerdict.Answers (verdict : TrafficVerdict) (permitted : Prop) : Prop :=
  (permitted → verdict = .allowed) ∧ (¬ permitted → verdict = .denied)

instance (verdict : TrafficVerdict) (permitted : Prop) [Decidable permitted] :
    Decidable (verdict.Answers permitted) :=
  inferInstanceAs (Decidable (_ ∧ _))

theorem TrafficVerdict.Answers.iff {verdict : TrafficVerdict} {permitted permitted' : Prop}
    (h : verdict.Answers permitted) : verdict.Answers permitted' ↔ (permitted ↔ permitted') := by
  by_cases hp : permitted
  · obtain rfl := h.1 hp
    by_cases hp' : permitted' <;> simp [Answers, hp, hp']
  · obtain rfl := h.2 hp
    by_cases hp' : permitted' <;> simp [Answers, hp, hp']

variable (inventory query evaluated peer) in
/-- What an evaluation is asked with: the exact Pods, no more policies than the limit, no Cilium
policy that selects the Pod, and the Namespace rows that selecting policies need. -/
structure FullyObserved : Prop where
  evaluated_exact : exactPod inventory query.workspaceId query.clusterId query.namespaceName
    query.podName query.podUid = .ok evaluated
  peer_exact : exactPod inventory query.workspaceId query.clusterId query.peerNamespace
    query.peerPodName query.peerPodUid = .ok peer
  within_limit : (inventory.networkPolicies query.workspaceId query.clusterId).length +
    (inventory.ciliumPolicies query.workspaceId query.clusterId).length ≤
      maxNetworkPoliciesPerEvaluation
  no_cilium : ∀ policy ∈ inventory.ciliumPolicies query.workspaceId query.clusterId,
    policy.namespaceName.getD "" = query.namespaceName →
      ¬ (selectorOf policy.endpointSelector).Selects (labelsOf evaluated.toObservedLabels)
  namespace_observed : ∀ policy ∈ inventory.networkPolicies query.workspaceId query.clusterId,
    (kubernetes (flowOf inventory query evaluated peer)).Selects policy →
      NamespaceObserved inventory query peer (flowOf inventory query evaluated peer)
        ((policy.spec.rules query.direction).getD [])

theorem plain_permits_iff (policies : List ObservedPolicy)
    (hrow : ∀ policy ∈ policies,
      (kubernetes (flowOf inventory query evaluated peer)).Selects policy →
        NamespaceObserved inventory query peer (flowOf inventory query evaluated peer)
          ((policy.spec.rules query.direction).getD [])) :
    let selecting := policies.filter (policySelects query evaluated)
    let answers := selecting.map fun policy =>
      policyAllows inventory query query.namespaceName policy.spec evaluated peer
    (answers.any (· == some true) = true ∨ selecting = [] ↔
        (plain (flowOf inventory query evaluated peer)).Permits policies) ∧
      answers.any (· == none) = false := by
  intro selecting answers
  set flow := flowOf inventory query evaluated peer with hflow
  have hselects (policy : ObservedPolicy) : policySelects query evaluated policy = true ↔
      (plain flow).Selects policy := policySelects_iff policy
  have hanswers : ∀ policy ∈ selecting, ∃ answer,
      policyAllows inventory query query.namespaceName policy.spec evaluated peer = some answer ∧
        (answer = true ↔ (plain flow).Admits policy) := by
    intro policy hpolicy
    obtain ⟨hmem, hselected⟩ := List.mem_filter.mp hpolicy
    exact policyAllows_eq policy (hrow policy hmem ((hselects policy).mp hselected).1)
  obtain ⟨hallow, hknown⟩ := any_answers hanswers
  refine ⟨?_, hknown⟩
  rw [hallow, or_comm, List.filter_eq_nil_iff, AllowRules.Reading.Permits]
  refine or_congr ?_ ?_
  · simp only [hselects]
  · simp only [selecting, List.mem_filter, hselects, and_assoc]

/-- **The verdict is the answer of the plain reading.** -/
theorem verdict_plain (h : FullyObserved inventory query evaluated peer) :
    ∃ response, evaluateNetworkPolicy inventory query = .ok response ∧
      response.verdict.Answers ((plain (flowOf inventory query evaluated peer)).Permits
        (inventory.networkPolicies query.workspaceId query.clusterId)) := by
  obtain ⟨hpermits, hknown⟩ := plain_permits_iff _ h.namespace_observed
  simp only [evaluateNetworkPolicy, h.evaluated_exact, h.peer_exact]
  rw [networkPolicies_eq h.within_limit]
  refine ⟨_, rfl, ?_⟩
  simp only [foldl_evaluatePolicy, foldl_evaluateCiliumPolicy _ fun policy hpolicy =>
    ciliumPolicySelects_eq_false (h.no_cilium policy hpolicy), Evaluation.empty, hknown,
    List.nil_append, Bool.false_or, List.isEmpty_map]
  -- nothing is left unknown, so an answer that is not `allowed` is `denied`
  change (if (_ || (_ && true)) = true then TrafficVerdict.allowed else .denied).Answers _
  rw [← List.isEmpty_iff, ← Bool.or_eq_true] at hpermits
  rw [Bool.and_true]
  exact ⟨fun hp => if_pos (hpermits.mpr hp), fun hp => if_neg (mt hpermits.mp hp)⟩

/-- **The verdict is the Kubernetes answer exactly where the plain reading suffices.** -/
theorem verdict_follows_kubernetes (h : FullyObserved inventory query evaluated peer) :
    ∃ response, evaluateNetworkPolicy inventory query = .ok response ∧
      (response.verdict.Answers ((kubernetes (flowOf inventory query evaluated peer)).Permits
          (inventory.networkPolicies query.workspaceId query.clusterId)) ↔
        (plain (flowOf inventory query evaluated peer)).Suffices
          (kubernetes (flowOf inventory query evaluated peer))
          (inventory.networkPolicies query.workspaceId query.clusterId)) := by
  obtain ⟨response, hresponse, hverdict⟩ := verdict_plain h
  exact ⟨response, hresponse, hverdict.iff.trans
    (AllowRules.Reading.permits_iff_permits_iff (plain_narrows _))⟩

end

/-! ## A Pod without labels -/

/-- A Pod of the namespace `shop` without labels. -/
def samplePod (name uid : String) (hname : name ≠ "") (huid : uid ≠ "") : ObservedPod where
  clusterId := "c1"
  apiVersion := "v1"
  kind := "Pod"
  namespaceName := some "shop"
  name := name
  uid := uid
  kind_ne := by decide
  name_ne := hname
  uid_ne := huid
  labels := none
  metadataLabels := none
  podIP := some "10.0.0.7"
  containers := none

def sampleWeb : ObservedPod := samplePod "web" "u1" (by decide) (by decide)

def sampleJob : ObservedPod := samplePod "job" "u2" (by decide) (by decide)

def samplePolicy (spec : PolicySpec) : ObservedPolicy where
  clusterId := "c1"
  apiVersion := "networking.k8s.io/v1"
  kind := "NetworkPolicy"
  namespaceName := some "shop"
  name := "rule"
  uid := "p1"
  kind_ne := by decide
  name_ne := by decide
  uid_ne := by decide
  spec := spec

/-- The two Pods and one policy. -/
def sampleInventory (spec : PolicySpec) : PolicyInventory where
  pod := fun _ _ _ name => if name = "web" then some sampleWeb else some sampleJob
  namespaceRow := fun _ _ _ => none
  networkPolicies := fun _ _ => [samplePolicy spec]
  ciliumPolicies := fun _ _ => []

/-- From the job to port 80 of the web Pod. -/
def sampleQuery : FlowQuery where
  workspaceId := "w"
  clusterId := "c1"
  namespaceName := "shop"
  podName := "web"
  podUid := "u1"
  peerNamespace := "shop"
  peerPodName := "job"
  peerPodUid := "u2"
  direction := .ingress
  port := 80
  protocol := .tcp
  port_pos := by decide
  port_le := by decide

theorem fullyObserved_sample (spec : PolicySpec)
    (hpeers : ∀ rule ∈ spec.ingress.getD [], ∀ entry ∈ rule.peers.getD [],
      entry.namespaceSelector = none) :
    FullyObserved (sampleInventory spec) sampleQuery sampleWeb sampleJob where
  evaluated_exact := exactPod_of_observed rfl (by decide +kernel)
  peer_exact := exactPod_of_observed rfl (by decide +kernel)
  within_limit := Nat.le_of_ble_eq_true rfl
  no_cilium := fun _ hpolicy => absurd hpolicy List.not_mem_nil
  namespace_observed := by
    intro policy hpolicy _ rule hrule _ entry hentry hneeds
    obtain rfl := List.mem_singleton.mp hpolicy
    obtain ⟨-, selector, hselector, -⟩ := hneeds
    rw [hpeers rule hrule entry hentry] at hselector
    cases hselector

/-- Pods outside production take nothing. -/
def isolateUnlessProd : PolicySpec where
  podSelector := some ⟨none, some [⟨"env", .isNotIn, ["prod"]⟩]⟩
  policyTypes := none
  ingress := none
  egress := none

/-- Every Pod takes what a rule lets in. -/
def admitBy (rule : PolicyRule) : PolicySpec where
  podSelector := none
  policyTypes := none
  ingress := some [rule]
  egress := none

def sampleFlow (spec : PolicySpec) : Flow :=
  flowOf (sampleInventory spec) sampleQuery sampleWeb sampleJob

/-- With everything observed, the verdict on the sample is not the Kubernetes answer. -/
def Misread (spec : PolicySpec) : Prop :=
  FullyObserved (sampleInventory spec) sampleQuery sampleWeb sampleJob ∧
    ∃ response, evaluateNetworkPolicy (sampleInventory spec) sampleQuery = .ok response ∧
      ¬ response.verdict.Answers ((kubernetes (sampleFlow spec)).Permits [samplePolicy spec])

theorem misread_of_verdict {spec : PolicySpec} {v : TrafficVerdict}
    (hpeers : ∀ rule ∈ spec.ingress.getD [], ∀ entry ∈ rule.peers.getD [],
      entry.namespaceSelector = none)
    (hverdict : (evaluateNetworkPolicy (sampleInventory spec) sampleQuery).toOption.map
      (·.verdict) = some v)
    (hwrong : ¬ v.Answers ((kubernetes (sampleFlow spec)).Permits [samplePolicy spec])) :
    Misread spec := by
  refine ⟨fullyObserved_sample spec hpeers, ?_⟩
  cases hresponse : evaluateNetworkPolicy (sampleInventory spec) sampleQuery with
  | error e =>
    rw [hresponse] at hverdict
    cases hverdict
  | ok response =>
    rw [hresponse] at hverdict
    obtain rfl := Option.some.inj hverdict
    exact ⟨response, rfl, hwrong⟩

/-- The evaluation lets the flow in that the first policy keeps out, and keeps out what the other
two let in by an empty list. -/
theorem verdict_against_kubernetes :
    Misread isolateUnlessProd ∧ Misread (admitBy ⟨none, some []⟩) ∧
      Misread (admitBy ⟨some [], none⟩) := by
  refine ⟨?_, ?_, ?_⟩
  · exact misread_of_verdict (v := .allowed) (by simp [isolateUnlessProd]) (by decide +kernel)
      (by decide +kernel)
  · exact misread_of_verdict (v := .denied) (by simp [admitBy]) (by decide +kernel)
      (by decide +kernel)
  · exact misread_of_verdict (v := .denied) (by simp [admitBy]) (by decide +kernel)
      (by decide +kernel)

/-- Every Pod takes everything. -/
def admitAll : PolicySpec := admitBy ⟨none, none⟩

/-- A rule without lists is read as it is meant. -/
theorem verdict_of_admitAll : ∃ response,
    evaluateNetworkPolicy (sampleInventory admitAll) sampleQuery = .ok response ∧
      (response.verdict.Answers ((kubernetes (sampleFlow admitAll)).Permits
          [samplePolicy admitAll]) ↔
        (plain (sampleFlow admitAll)).Suffices (kubernetes (sampleFlow admitAll))
          [samplePolicy admitAll]) :=
  verdict_follows_kubernetes (fullyObserved_sample admitAll (by simp [admitAll, admitBy]))

end Opsia.Traffic
