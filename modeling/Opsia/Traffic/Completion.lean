import Opsia.Lib.Told
import Opsia.Traffic.Verdict

/-!
# Verdicts and missing information

A completion of an observation gives labels to Namespace rows that were not observed and adds
policies where the limit had cut some off; whatever its limit, an evaluation of it finds what the
evaluation of the observation found. What could not be told is never taken for a refusal, and
a denial is only told when nothing is missing, so a definite verdict stays.
-/

namespace Opsia.Traffic

/-! ## The evaluation with a limit -/

/-- `_network_policies` with the limit as an argument. -/
def networkPoliciesWithin (limit : ℕ) (inventory : PolicyInventory)
    (workspaceId clusterId : String) : List ObservedPolicy × List ObservedCiliumPolicy × Bool :=
  let observed := (inventory.networkPolicies workspaceId clusterId).take (limit + 1)
  let standard := observed.take limit
  if observed.length > limit then (standard, [], true)
  else
    let remaining := limit - standard.length
    let ciliumObserved := (inventory.ciliumPolicies workspaceId clusterId).take (remaining + 1)
    (standard, ciliumObserved.take remaining, decide (ciliumObserved.length > remaining))

/-- What the two loops find among policies. -/
def findings (inventory : PolicyInventory) (query : FlowQuery) (evaluated peer : ObservedPod)
    (policies : List ObservedPolicy × List ObservedCiliumPolicy × Bool) : Evaluation :=
  policies.2.1.foldl (evaluateCiliumPolicy query evaluated)
    (policies.1.foldl (evaluatePolicy inventory query evaluated peer) .empty)

/-- The verdict of what was found. -/
def verdictOf (found : Evaluation) (truncated : Bool) : TrafficVerdict :=
  let reasons := incompleteReasons found truncated
  if found.anyAllow || (found.selecting.isEmpty && reasons.isEmpty) then .allowed
  else if reasons.isEmpty then .denied
  else .indeterminate

/-- The verdict of `evaluate_network_policy` with the limit as an argument. -/
def verdictWithin (limit : ℕ) (inventory : PolicyInventory) (query : FlowQuery) :
    Except EvaluationError TrafficVerdict := do
  let evaluated ← exactPod inventory query.workspaceId query.clusterId query.namespaceName
    query.podName query.podUid
  let peer ← exactPod inventory query.workspaceId query.clusterId query.peerNamespace
    query.peerPodName query.peerPodUid
  let policies := networkPoliciesWithin limit inventory query.workspaceId query.clusterId
  return verdictOf (findings inventory query evaluated peer policies) policies.2.2

/-- **The verdict of the code is the one within its limit.** -/
theorem verdictWithin_max (inventory : PolicyInventory) (query : FlowQuery) :
    verdictWithin maxNetworkPoliciesPerEvaluation inventory query =
      (evaluateNetworkPolicy inventory query).map NetworkPolicyEvaluationResponse.verdict := by
  unfold verdictWithin evaluateNetworkPolicy
  cases exactPod inventory query.workspaceId query.clusterId query.namespaceName query.podName
      query.podUid with
  | error e => rfl
  | ok evaluated =>
    cases exactPod inventory query.workspaceId query.clusterId query.peerNamespace
        query.peerPodName query.peerPodUid with
    | error e => rfl
    | ok peer => rfl

/-! ## Completions -/

/-- The observation is completed: Namespace rows that it lacks may be there, and policies beyond the
limit may follow those within it. -/
structure PolicyInventory.CompletedBy (inventory completed : PolicyInventory) : Prop where
  pods : completed.pod = inventory.pod
  cilium : completed.ciliumPolicies = inventory.ciliumPolicies
  namespaces : ∀ workspaceId clusterId name,
    Told.Le (inventory.namespaceRow workspaceId clusterId name)
      (completed.namespaceRow workspaceId clusterId name)
  policies : ∀ workspaceId clusterId,
    let observed := inventory.networkPolicies workspaceId clusterId
    let all := completed.networkPolicies workspaceId clusterId
    if observed.length ≤ maxNetworkPoliciesPerEvaluation then all = observed
    else ∃ more, all = observed.take maxNetworkPoliciesPerEvaluation ++ more

section
variable {inventory completed : PolicyInventory} {query : FlowQuery} {evaluated peer : ObservedPod}

theorem peerMatches_le (h : inventory.CompletedBy completed) (policyNamespace : String)
    (selector : PolicyPeer) :
    Told.Le (peerMatches inventory query policyNamespace selector peer)
      (peerMatches completed query policyNamespace selector peer) := by
  rw [peerMatches, peerMatches]
  cases selector.ipBlock with
  | some block => exact Told.Le.refl _
  | none =>
    cases selector.namespaceSelector with
    | none => exact Told.Le.refl _
    | some namespaceSelector =>
      by_cases hempty : namespaceSelector.isEmpty = true
      · simp only [if_pos hempty]
        exact Told.Le.refl _
      · simp only [if_neg hempty]
        exact (h.namespaces _ _ _).bind _

/-- Once a peer could not be told, the loop tells of no refusal. -/
theorem rulesAllow_uncertain (policyNamespace : String) (rules : List PolicyRule) :
    rulesAllow inventory query policyNamespace evaluated peer rules true ≠ some false := by
  induction rules with
  | nil =>
    intro h
    cases h
  | cons rule rules ih =>
    rw [rulesAllow]
    generalize (if query.direction = .ingress then evaluated else peer) = destination
    split
    case isFalse => exact ih
    case isTrue =>
      cases rule.peers with
      | none =>
        intro h
        cases h
      | some peers =>
        dsimp only
        split
        · intro h
          cases h
        · exact ih

/-- **The loop over the rules tells the same with more information.** -/
theorem rulesAllow_le (h : inventory.CompletedBy completed) (policyNamespace : String)
    (rules : List PolicyRule) {uncertain uncertain' : Bool}
    (hless : uncertain' = true → uncertain = true) :
    Told.Le (rulesAllow inventory query policyNamespace evaluated peer rules uncertain)
      (rulesAllow completed query policyNamespace evaluated peer rules uncertain') := by
  induction rules generalizing uncertain uncertain' with
  | nil =>
    intro b hb
    cases huncertain : uncertain with
    | true =>
      rw [rulesAllow, huncertain] at hb
      cases hb
    | false =>
      have hcertain : uncertain' = false := Bool.eq_false_iff.mpr fun ht => by
        rw [hless ht] at huncertain
        cases huncertain
      rw [rulesAllow, huncertain] at hb
      rw [rulesAllow, hcertain]
      exact hb
  | cons rule rules ih =>
    rw [rulesAllow, rulesAllow]
    generalize (if query.direction = .ingress then evaluated else peer) = destination
    split
    case isFalse => exact ih hless
    case isTrue =>
      cases rule.peers with
      | none => exact Told.Le.refl _
      | some peers =>
        have hpeers : ∀ selector ∈ peers,
            Told.Le (peerMatches inventory query policyNamespace selector peer)
              (peerMatches completed query policyNamespace selector peer) :=
          fun selector _ => peerMatches_le h policyNamespace selector
        dsimp only
        by_cases hfound : (peers.map fun selector =>
            peerMatches inventory query policyNamespace selector peer).any (· == some true) = true
        · rw [if_pos hfound, if_pos (Told.any_true_mono hpeers hfound)]
          exact Told.Le.refl _
        · rw [if_neg hfound]
          split
          case isTrue hnow =>
            -- a peer that is matched now could not be told before
            intro b hb
            cases htold : (peers.map fun selector =>
                peerMatches inventory query policyNamespace selector peer).any (· == none) with
            | false =>
              rw [Told.map_eq_of_told hpeers htold] at hnow
              exact absurd hnow hfound
            | true =>
              rw [htold, Bool.or_true] at hb
              cases b with
              | true => rfl
              | false => exact absurd hb (rulesAllow_uncertain policyNamespace rules)
          case isFalse =>
            refine ih fun huncertain => ?_
            obtain hbefore | hmissing := Bool.or_eq_true_iff.mp huncertain
            · rw [hless hbefore, Bool.true_or]
            · rw [Told.any_none_anti hpeers hmissing, Bool.or_true]

theorem policyAllows_le (h : inventory.CompletedBy completed) (policyNamespace : String)
    (spec : PolicySpec) :
    Told.Le (policyAllows inventory query policyNamespace spec evaluated peer)
      (policyAllows completed query policyNamespace spec evaluated peer) := by
  rw [policyAllows, policyAllows]
  cases spec.rules query.direction with
  | none => exact Told.Le.refl _
  | some rules => exact rulesAllow_le h policyNamespace rules id

/-! ## What the loops find -/

theorem anyAllow_foldl_cilium (policies : List ObservedCiliumPolicy) (found : Evaluation) :
    (policies.foldl (evaluateCiliumPolicy query evaluated) found).anyAllow = found.anyAllow ∧
      (policies.foldl (evaluateCiliumPolicy query evaluated) found).namespaceLabelsUnavailable =
        found.namespaceLabelsUnavailable := by
  induction policies generalizing found with
  | nil => exact ⟨rfl, rfl⟩
  | cons policy policies ih =>
    rw [List.foldl_cons]
    have hstep : (evaluateCiliumPolicy query evaluated found policy).anyAllow = found.anyAllow ∧
        (evaluateCiliumPolicy query evaluated found policy).namespaceLabelsUnavailable =
          found.namespaceLabelsUnavailable := by
      rw [evaluateCiliumPolicy]
      split
      · exact ⟨rfl, rfl⟩
      · exact ⟨rfl, rfl⟩
    exact ⟨(ih _).1.trans hstep.1, (ih _).2.trans hstep.2⟩

/-- Whether a policy is found that admits the flow, and whether one could not be told. -/
theorem findings_flags
    (policies : List ObservedPolicy × List ObservedCiliumPolicy × Bool) :
    let answers := (policies.1.filter (policySelects query evaluated)).map fun policy =>
      policyAllows inventory query query.namespaceName policy.spec evaluated peer
    (findings inventory query evaluated peer policies).anyAllow = answers.any (· == some true) ∧
      (findings inventory query evaluated peer policies).namespaceLabelsUnavailable =
        answers.any (· == none) := by
  intro answers
  rw [findings]
  have hcilium := @anyAllow_foldl_cilium query evaluated policies.2.1
    (policies.1.foldl (evaluatePolicy inventory query evaluated peer) .empty)
  rw [foldl_evaluatePolicy] at hcilium ⊢
  exact hcilium

/-! ## Policies within a limit -/

theorem fst_networkPoliciesWithin (limit : ℕ) (inventory : PolicyInventory)
    (workspaceId clusterId : String) :
    (networkPoliciesWithin limit inventory workspaceId clusterId).1 =
      (inventory.networkPolicies workspaceId clusterId).take limit := by
  have htake : ((inventory.networkPolicies workspaceId clusterId).take (limit + 1)).take limit =
      (inventory.networkPolicies workspaceId clusterId).take limit := by
    rw [List.take_take, Nat.min_eq_left (Nat.le_succ limit)]
  rw [networkPoliciesWithin]
  dsimp only
  split
  · exact htake
  · exact htake

variable {clusterId workspaceId : String} {limit : ℕ}

theorem networkPoliciesWithin_of_fits
    (h : (inventory.networkPolicies workspaceId clusterId).length +
      (inventory.ciliumPolicies workspaceId clusterId).length ≤ limit) :
    networkPoliciesWithin limit inventory workspaceId clusterId =
      (inventory.networkPolicies workspaceId clusterId,
        inventory.ciliumPolicies workspaceId clusterId, false) := by
  have hpolicies : (inventory.networkPolicies workspaceId clusterId).length ≤ limit := by omega
  have hcilium : (inventory.ciliumPolicies workspaceId clusterId).length ≤
      limit - (inventory.networkPolicies workspaceId clusterId).length := by omega
  simp only [networkPoliciesWithin]
  rw [List.take_of_length_le (Nat.le_succ_of_le hpolicies), List.take_of_length_le hpolicies,
    if_neg (Nat.not_lt.mpr hpolicies), List.take_of_length_le (Nat.le_succ_of_le hcilium),
    List.take_of_length_le hcilium, decide_eq_false (Nat.not_lt.mpr hcilium)]

theorem fits_of_not_truncated
    (h : (networkPoliciesWithin limit inventory workspaceId clusterId).2.2 = false) :
    (inventory.networkPolicies workspaceId clusterId).length +
      (inventory.ciliumPolicies workspaceId clusterId).length ≤ limit := by
  rw [networkPoliciesWithin] at h
  dsimp only at h
  split at h
  · cases h
  · rename_i hfew
    have hcilium := of_decide_eq_false h
    simp only [List.length_take] at hfew hcilium
    omega

/-- **A completion has the policies that were found, in their order.** -/
theorem PolicyInventory.CompletedBy.mem_policies (h : inventory.CompletedBy completed)
    (hlimit : maxNetworkPoliciesPerEvaluation ≤ limit) {policy : ObservedPolicy}
    (hpolicy : policy ∈ (networkPoliciesWithin maxNetworkPoliciesPerEvaluation inventory workspaceId
      clusterId).1) :
    policy ∈ (networkPoliciesWithin limit completed workspaceId clusterId).1 := by
  rw [fst_networkPoliciesWithin] at hpolicy ⊢
  have hpolicies := h.policies workspaceId clusterId
  dsimp only at hpolicies
  split at hpolicies
  case isTrue hfew =>
    rw [hpolicies, List.take_of_length_le (hfew.trans hlimit)]
    exact List.mem_of_mem_take hpolicy
  case isFalse =>
    obtain ⟨more, hmore⟩ := hpolicies
    rw [hmore, List.take_append, List.take_take, Nat.min_eq_right hlimit]
    exact List.mem_append_left _ hpolicy

theorem PolicyInventory.CompletedBy.policies_eq (h : inventory.CompletedBy completed)
    (hlimit : maxNetworkPoliciesPerEvaluation ≤ limit)
    (hall : (networkPoliciesWithin maxNetworkPoliciesPerEvaluation inventory workspaceId
      clusterId).2.2 = false) :
    networkPoliciesWithin limit completed workspaceId clusterId =
      networkPoliciesWithin maxNetworkPoliciesPerEvaluation inventory workspaceId clusterId := by
  have hfits := fits_of_not_truncated hall
  have hpolicies := h.policies workspaceId clusterId
  dsimp only at hpolicies
  rw [if_pos (Nat.le_of_add_right_le hfits)] at hpolicies
  have hfits' : (completed.networkPolicies workspaceId clusterId).length +
      (completed.ciliumPolicies workspaceId clusterId).length ≤ limit := by
    rw [hpolicies, h.cilium]
    exact hfits.trans hlimit
  rw [networkPoliciesWithin_of_fits hfits, networkPoliciesWithin_of_fits hfits', hpolicies,
    h.cilium]

/-! ## Definite verdicts -/

theorem anyAllow_mono (h : inventory.CompletedBy completed)
    {policies policies' : List ObservedPolicy × List ObservedCiliumPolicy × Bool}
    (hsub : ∀ policy ∈ policies.1, policy ∈ policies'.1)
    (hallow : (findings inventory query evaluated peer policies).anyAllow = true) :
    (findings completed query evaluated peer policies').anyAllow = true := by
  rw [(findings_flags policies).1] at hallow
  rw [(findings_flags policies').1]
  have hmono := Told.any_true_mono
    (fun policy _ => policyAllows_le h query.namespaceName policy.spec) hallow
  obtain ⟨answer, hanswer, hequal⟩ := List.any_eq_true.mp hmono
  obtain ⟨policy, hpolicy, rfl⟩ := List.mem_map.mp hanswer
  obtain ⟨hmem, hselects⟩ := List.mem_filter.mp hpolicy
  refine List.any_eq_true.mpr ⟨_, List.mem_map_of_mem ?_, hequal⟩
  exact List.mem_filter.mpr ⟨hsub policy hmem, hselects⟩

theorem findings_eq (h : inventory.CompletedBy completed)
    {policies : List ObservedPolicy × List ObservedCiliumPolicy × Bool}
    (hknown :
      (findings inventory query evaluated peer policies).namespaceLabelsUnavailable = false) :
    findings completed query evaluated peer policies =
      findings inventory query evaluated peer policies := by
  rw [(findings_flags policies).2] at hknown
  have hsame := Told.map_eq_of_told
    (fun policy _ => policyAllows_le h query.namespaceName policy.spec) hknown
  have hentries := List.map_inj_left.mp hsame
  rw [findings, findings, foldl_evaluatePolicy, foldl_evaluatePolicy]
  simp only [hsame]
  have hselecting : ((policies.1.filter (policySelects query evaluated)).map fun policy =>
        selectingEntry policy
          (policyAllows completed query query.namespaceName policy.spec evaluated peer)) =
      (policies.1.filter (policySelects query evaluated)).map fun policy =>
        selectingEntry policy
          (policyAllows inventory query query.namespaceName policy.spec evaluated peer) :=
    List.map_congr_left fun policy hpolicy =>
      congrArg (selectingEntry policy) (hentries policy hpolicy)
  rw [hselecting]

theorem told_of_definite {found : Evaluation} {truncated : Bool}
    (hdefinite : verdictOf found truncated ≠ .indeterminate) (hnone : found.anyAllow = false) :
    found.namespaceLabelsUnavailable = false ∧ truncated = false := by
  by_contra hmissing
  have hreasons : (incompleteReasons found truncated).isEmpty = false := by
    rw [List.isEmpty_eq_false_iff]
    intro hempty
    obtain ⟨hleft, hnamespaces⟩ := List.append_eq_nil_iff.mp hempty
    obtain ⟨-, htruncated⟩ := List.append_eq_nil_iff.mp hleft
    refine hmissing ⟨?_, ?_⟩
    · by_contra htrue
      rw [if_pos (Bool.eq_true_of_not_eq_false htrue)] at hnamespaces
      cases hnamespaces
    · by_contra htrue
      rw [if_pos (Bool.eq_true_of_not_eq_false htrue)] at htruncated
      cases htruncated
  refine hdefinite ?_
  simp only [verdictOf, hnone, hreasons, Bool.and_false, Bool.or_false, Bool.false_eq_true,
    if_false]

theorem verdictOf_of_anyAllow {found : Evaluation} (truncated : Bool) (h : found.anyAllow = true) :
    verdictOf found truncated = .allowed := by
  rw [verdictOf, h, Bool.true_or, if_pos rfl]

/-- **Definite verdicts survive missing information.** -/
theorem definite_verdict_survives {limit : ℕ} (h : inventory.CompletedBy completed)
    (hlimit : maxNetworkPoliciesPerEvaluation ≤ limit) {verdict : TrafficVerdict}
    (hverdict : (evaluateNetworkPolicy inventory query).map
      NetworkPolicyEvaluationResponse.verdict = .ok verdict)
    (hdefinite : verdict ≠ .indeterminate) :
    verdictWithin limit completed query = .ok verdict ∧
      (evaluateNetworkPolicy completed query).map NetworkPolicyEvaluationResponse.verdict =
        .ok verdict := by
  rw [← verdictWithin_max] at hverdict ⊢
  suffices hany : ∀ limit, maxNetworkPoliciesPerEvaluation ≤ limit →
      verdictWithin limit completed query = .ok verdict from ⟨hany limit hlimit, hany _ le_rfl⟩
  intro limit hlimit
  have hpod (name₁ name₂ uid : String) :
      exactPod completed query.workspaceId query.clusterId name₁ name₂ uid =
        exactPod inventory query.workspaceId query.clusterId name₁ name₂ uid := by
    rw [exactPod, exactPod, h.pods]
  unfold verdictWithin at hverdict ⊢
  rw [hpod, hpod]
  cases hevaluated : exactPod inventory query.workspaceId query.clusterId query.namespaceName
      query.podName query.podUid with
  | error e =>
    rw [hevaluated] at hverdict
    cases hverdict
  | ok evaluated =>
    cases hpeer : exactPod inventory query.workspaceId query.clusterId query.peerNamespace
        query.peerPodName query.peerPodUid with
    | error e =>
      rw [hevaluated, hpeer] at hverdict
      cases hverdict
    | ok peer =>
      rw [hevaluated, hpeer] at hverdict
      obtain rfl := Except.ok.inj hverdict
      refine congrArg Except.ok ?_
      set policies := networkPoliciesWithin maxNetworkPoliciesPerEvaluation inventory
        query.workspaceId query.clusterId with hpolicies
      cases hallow : (findings inventory query evaluated peer policies).anyAllow with
      | true =>
        have hstill := anyAllow_mono h (fun _ => h.mem_policies hlimit) hallow
        rw [verdictOf_of_anyAllow _ hallow]
        exact verdictOf_of_anyAllow _ hstill
      | false =>
        obtain ⟨hknown, hall⟩ := told_of_definite hdefinite hallow
        rw [h.policies_eq hlimit hall, ← hpolicies, findings_eq h hknown]

end

/-- Pods of production namespaces may come in, and so may every Pod at port 80. -/
def admitProductionOrWeb : PolicySpec where
  podSelector := none
  policyTypes := none
  ingress := some [
    ⟨none, some [⟨none, some ⟨some [("env", "prod")], none⟩, none, rfl⟩]⟩,
    ⟨some [⟨none, some (.number 80), none⟩], none⟩]
  egress := none

/-- The sample with the labels of its namespace observed. -/
def labelledInventory (spec : PolicySpec) : PolicyInventory :=
  { sampleInventory spec with namespaceRow := fun _ _ _ => some ⟨some [("env", "dev")], none⟩ }

/-- The port decides, whatever the labels of the namespace are. -/
theorem verdict_of_labelled :
    verdictWithin 1000 (labelledInventory admitProductionOrWeb) sampleQuery = .ok .allowed ∧
      (evaluateNetworkPolicy (labelledInventory admitProductionOrWeb) sampleQuery).map
        NetworkPolicyEvaluationResponse.verdict = .ok .allowed := by
  have hcompleted : (sampleInventory admitProductionOrWeb).CompletedBy
      (labelledInventory admitProductionOrWeb) :=
    ⟨rfl, rfl, fun _ _ _ => Told.le_of_none _, fun _ _ => rfl⟩
  have hverdict : (evaluateNetworkPolicy (sampleInventory admitProductionOrWeb) sampleQuery).map
      NetworkPolicyEvaluationResponse.verdict = .ok .allowed := by
    have hsome : (evaluateNetworkPolicy (sampleInventory admitProductionOrWeb)
        sampleQuery).toOption.map (·.verdict) = some .allowed := by decide +kernel
    cases hresponse : evaluateNetworkPolicy (sampleInventory admitProductionOrWeb) sampleQuery with
    | error e =>
      rw [hresponse] at hsome
      cases hsome
    | ok response =>
      rw [hresponse] at hsome
      exact congrArg Except.ok (Option.some.inj hsome)
  exact definite_verdict_survives hcompleted (show 500 ≤ 1000 by decide) hverdict (by decide)

end Opsia.Traffic
