import Opsia.Graph.Relations

/-!
# The edges that are found

A selector gives a match when its requirements can be read and hold, an index tells an item when it
is the only one at its key, so the edges found among items are the relations as they are found
(`mem_foundEdges`). An edge id stands for a kind and two ends (`relationEdge_id_inj`), so no edge is
lost where one edge an id is kept (`mem_canonicalEdges`).
-/

namespace Opsia.Graph

variable {env : GraphEnv} {rows items : List GraphItem} {labelsComplete : Bool}

/-! ## Selectors -/

variable {labels : Labels} {source : GraphItem}

theorem equalsRequirement_iff {key value : String} :
    equalsRequirement key value labels true = .isMatch ↔
      (Requirement.equals key value).Holds labels := by
  rw [equalsRequirement, Requirement.Holds]
  cases labels.lookup key with
  | none => simp
  | some label => simp

theorem exists_some_eq_iff {requirement : Requirement} :
    (∃ r, some requirement = some r ∧ r.Holds labels) ↔ requirement.Holds labels := by
  simp

theorem operatorResult_iff {operator key : String} {values : List String} :
    operatorResult operator values (labels.lookup key) true = .isMatch ↔
      ∃ requirement, readOperator operator key values = some requirement ∧
        requirement.Holds labels := by
  unfold operatorResult readOperator
  by_cases hIn : operator = "In"
  · rw [if_pos hIn, if_pos hIn]
    by_cases hvalues : values = []
    · simp [hvalues]
    · rw [if_neg hvalues, if_neg hvalues, exists_some_eq_iff, Requirement.Holds]
      cases labels.lookup key <;> simp
  rw [if_neg hIn, if_neg hIn]
  by_cases hNotIn : operator = "NotIn"
  · rw [if_pos hNotIn, if_pos hNotIn]
    by_cases hvalues : values = []
    · simp [hvalues]
    · rw [if_neg hvalues, if_neg hvalues, exists_some_eq_iff, Requirement.Holds]
      cases labels.lookup key <;> simp [List.forall_mem_ne]
  rw [if_neg hNotIn, if_neg hNotIn]
  by_cases hExists : operator = "Exists"
  · rw [if_pos hExists, if_pos hExists]
    by_cases hvalues : values = []
    · rw [if_neg (not_not.mpr hvalues), if_pos hvalues, exists_some_eq_iff, Requirement.Holds]
      cases labels.lookup key <;> simp
    · simp [hvalues]
  rw [if_neg hExists, if_neg hExists]
  by_cases hDoesNotExist : operator = "DoesNotExist"
  · rw [if_pos hDoesNotExist, if_pos hDoesNotExist]
    by_cases hvalues : values = []
    · rw [if_neg (not_not.mpr hvalues), if_pos hvalues, exists_some_eq_iff, Requirement.Holds]
      cases labels.lookup key <;> simp
    · simp [hvalues]
  rw [if_neg hDoesNotExist, if_neg hDoesNotExist]
  simp

theorem expressionResult_iff {expression : PyValue} :
    expressionResult env expression labels true = .isMatch ↔
      ∃ requirement, readExpression env expression = some requirement ∧
        requirement.Holds labels := by
  cases expression with
  | dict fields =>
    simp only [expressionResult, readExpression]
    generalize optionalField env fields "key" = key
    generalize optionalField env fields "operator" = operator
    generalize (fields.lookup "values").getD (.list []) = values
    cases key with
    | none => simp
    | some key =>
      cases operator with
      | none => simp
      | some operator =>
        cases values with
        | list values => exact operatorResult_iff
        | _ => simp
  | _ => simp [expressionResult, readExpression]

theorem all_isMatch_iff {expressions : List PyValue} :
    (∀ e ∈ expressions, expressionResult env e labels true = .isMatch) ↔
      ∃ read, expressions.mapM (readExpression env) = some read ∧
        ∀ requirement ∈ read, requirement.Holds labels := by
  induction expressions with
  | nil => simp
  | cons expression expressions ih =>
    rw [List.forall_mem_cons, ih, expressionResult_iff]
    constructor
    · rintro ⟨⟨requirement, hread, hholds⟩, read, hrest, hall⟩
      refine ⟨requirement :: read, ?_, List.forall_mem_cons.mpr ⟨hholds, hall⟩⟩
      rw [List.mapM_cons, hread, hrest]
      rfl
    · rintro ⟨read, hread, hall⟩
      rw [List.mapM_cons] at hread
      obtain ⟨requirement, hrequirement, hrest⟩ := Option.bind_eq_some_iff.mp hread
      obtain ⟨rest, hmap, heq⟩ := Option.bind_eq_some_iff.mp hrest
      obtain rfl := Option.some.inj heq
      obtain ⟨hholds, hall⟩ := List.forall_mem_cons.mp hall
      exact ⟨⟨requirement, hrequirement, hholds⟩, rest, hmap, hall⟩

theorem mapM_eq_nil_iff {expressions : List PyValue} {read : List Requirement}
    (h : expressions.mapM (readExpression env) = some read) : read = [] ↔ expressions = [] := by
  cases expressions with
  | nil =>
    obtain rfl := Option.some.inj h
    exact iff_of_true rfl rfl
  | cons expression expressions =>
    rw [List.mapM_cons] at h
    obtain ⟨requirement, -, hrest⟩ := Option.bind_eq_some_iff.mp h
    obtain ⟨rest, -, heq⟩ := Option.bind_eq_some_iff.mp hrest
    obtain rfl := Option.some.inj heq
    exact iff_of_false (List.cons_ne_nil _ _) (List.cons_ne_nil _ _)

theorem equals_isMatch_iff {fields : Fields} :
    (∀ field ∈ fields, equalsRequirement field.1 (env.str field.2) labels true = .isMatch) ↔
      ∀ requirement ∈ fields.map fun field => Requirement.equals field.1 (env.str field.2),
        requirement.Holds labels := by
  rw [List.forall_mem_map]
  simp only [equalsRequirement_iff]

theorem combinedResult_iff {requirements : Option (List SelectorResult)} :
    combinedResult requirements = .isMatch ↔
      ∃ results, requirements = some results ∧ results ≠ [] ∧ ∀ r ∈ results, r = .isMatch := by
  rcases requirements with _ | _ | ⟨result, results⟩
  · simp [combinedResult]
  · simp [combinedResult]
  · constructor
    · intro h
      refine ⟨_, rfl, List.cons_ne_nil _ _, fun r hr => ?_⟩
      change (if _ then SelectorResult.noMatch else if _ then .unknown else .isMatch) = _ at h
      split_ifs at h with hno hunknown
      cases r with
      | isMatch => rfl
      | noMatch => exact absurd hr hno
      | unknown => exact absurd hr hunknown
    · rintro ⟨_, heq, -, hall⟩
      obtain rfl := Option.some.inj heq
      have hno : SelectorResult.noMatch ∉ result :: results := fun h => by cases hall _ h
      have hunknown : SelectorResult.unknown ∉ result :: results := fun h => by cases hall _ h
      exact (if_neg hno).trans (if_neg hunknown)

/-- **A selector gives a match when its requirements are read and hold**, where the labels are
complete. -/
theorem selectorResult_iff {selector : Fields} {structured : Bool} :
    selectorResult env selector labels true structured = .isMatch ↔
      ∃ requirements, readSelector env selector structured = some requirements ∧
        requirements ≠ [] ∧ ∀ requirement ∈ requirements, requirement.Holds labels := by
  rw [selectorResult, combinedResult_iff]
  cases structured with
  | false =>
    simp only [selectorRequirements, readSelector, Bool.false_eq_true, if_false,
      Option.some.injEq, exists_eq_left']
    rw [List.forall_mem_map, equals_isMatch_iff]
    simp
  | true =>
    simp only [selectorRequirements, readSelector, if_true]
    split_ifs with hother
    · simp
    · generalize (selector.lookup "matchLabels").getD (.dict []) = matchLabels
      generalize (selector.lookup "matchExpressions").getD (.list []) = expressions
      cases matchLabels with
      | dict matchLabels =>
        cases expressions with
        | list expressions =>
          simp only [Option.some.injEq, exists_eq_left', List.forall_mem_append,
            List.forall_mem_map, equals_isMatch_iff, all_isMatch_iff]
          constructor
          · rintro ⟨hne, hequals, read, hread, hall⟩
            refine ⟨_, Option.bind_eq_some_iff.mpr ⟨read, hread, rfl⟩, ?_,
              List.forall_mem_append.mpr ⟨List.forall_mem_map.mpr hequals, hall⟩⟩
            simpa [mapM_eq_nil_iff hread] using hne
          · rintro ⟨requirements, hrequirements, hne, hall⟩
            obtain ⟨read, hread, heq⟩ := Option.bind_eq_some_iff.mp hrequirements
            obtain rfl := Option.some.inj heq
            obtain ⟨hequals, hall⟩ := List.forall_mem_append.mp hall
            refine ⟨?_, List.forall_mem_map.mp hequals, read, hread, hall⟩
            simpa [mapM_eq_nil_iff hread] using hne
        | _ => simp
      | _ => simp

/-! ## Indexes -/

variable {e : Edge} {item pod : GraphItem}

theorem unique_eq_some_iff {l : List GraphItem} :
    unique l = some item ↔ l = [item] := by
  rcases l with _ | ⟨a, _ | ⟨b, l⟩⟩ <;> simp [unique]

/-- **An index tells an item when it is the only one at its key.** -/
theorem unique_sorted_filter (hkeys : (rows.map GraphItem.key).Nodup) (p : GraphItem → Bool) :
    unique (Keyset.sorted GraphItem.key (rows.filter p)) = some item ↔
      item ∈ rows ∧ Sole rows (fun other => p other = true) item := by
  have hnodup : (rows.filter p).Nodup := (List.Nodup.of_map _ hkeys).filter p
  rw [unique_eq_some_iff]
  constructor
  · intro h
    have hmem : ∀ other, other ∈ rows ∧ p other = true ↔ other = item := by
      intro other
      rw [← List.mem_filter, ← List.mem_singleton, ← h]
      exact Keyset.mem_sorted.symm
    obtain ⟨hitem, hp⟩ := (hmem item).mpr rfl
    exact ⟨hitem, hp, fun other hother ho => (hmem other).mp ⟨hother, ho⟩⟩
  · rintro ⟨hitem, hp, hsole⟩
    refine List.perm_singleton.mp (Keyset.perm_sorted.trans (List.Perm.of_eq ?_))
    have hall : ∀ other ∈ rows.filter p, other = item := fun other hother =>
      hsole other (List.mem_filter.mp hother).1 (List.mem_filter.mp hother).2
    have hmem : item ∈ rows.filter p := List.mem_filter.mpr ⟨hitem, hp⟩
    generalize rows.filter p = l at hnodup hall hmem
    rcases l with _ | ⟨a, _ | ⟨b, l⟩⟩
    · cases hmem
    · rw [hall a List.mem_cons_self]
    · refine absurd ?_ (List.nodup_cons.mp hnodup).1
      rw [hall a List.mem_cons_self, ← hall b (by simp)]
      exact List.mem_cons_self

theorem sole_congr {P Q : GraphItem → Prop} (h : ∀ item, P item ↔ Q item) :
    Sole rows P item ↔ Sole rows Q item := by
  simp only [Sole, h]

/-! ## Edges -/

/-- The edge of a relation between two items. -/
def relationEdge (env : GraphEnv) (kind : RelationKind) (source target : GraphItem) : Edge :=
  match kind with
  | .owns => edge env source target .owns .ownership .ownerReference .authoritative
  | .runsOn => edge env source target .runsOn .placement .nodeAssignment .authoritative
  | .selects => edge env source target .selects
    (if source.hasType env "service" then .networkConfigured else .ownership)
    .selectorMatch .derived
  | .routesTo => edge env source target .routesTo .networkEffective .serviceNameLabel .authoritative

theorem ownsEdge_iff (hkeys : (rows.map GraphItem.key).Nodup) {child : GraphItem} :
    ownsEdge env rows child = some e ↔
      ∃ owner ∈ rows, Finds env rows .owns owner child ∧
        relationEdge env .owns owner child = e := by
  rw [ownsEdge]
  cases hkind : optionalText child.resource.summary.ownerKind with
  | none => simp [Finds, Sole, Declares, hkind]
  | some ownerKind =>
    cases hname : optionalText child.resource.summary.ownerName with
    | none => simp [Finds, Sole, Declares, hname]
    | some ownerName =>
      cases huid : optionalText child.resource.summary.ownerUid with
      | none => simp [Finds, Sole, Declares, huid, unique]
      | some ownerUid =>
        have hcandidates (owner : GraphItem) : unique ((identityIndex env rows
            (child.namespaceName, env.casefold ownerKind, ownerName)).filter fun candidate =>
              optionalText candidate.resource.uid = some ownerUid) = some owner ↔
            owner ∈ rows ∧ Finds env rows .owns owner child := by
          rw [identityIndex, ← Keyset.sorted_filter ((hkeys.sublist (List.filter_sublist.map _))),
            List.filter_filter, unique_sorted_filter hkeys]
          refine and_congr_right fun _ => sole_congr (Q := fun item =>
            Declares env child item ∧ item.namespaceName = child.namespaceName) fun item => ?_
          simp only [Declares, hkind, hname, huid, Bool.and_eq_true, decide_eq_true_eq,
            Prod.mk.injEq, Option.some.injEq, ↓existsAndEq]
          grind
        simp only [Option.map_eq_some_iff, hcandidates, and_assoc]
        rfl

theorem runsOnEdge_iff (hkeys : (rows.map GraphItem.key).Nodup) :
    runsOnEdge env rows pod = some e ↔
      ∃ node ∈ rows, Finds env rows .runsOn pod node ∧ relationEdge env .runsOn pod node = e := by
  rw [runsOnEdge]
  by_cases hpod : pod.hasType env "pod" = true
  · rw [if_pos hpod]
    cases hname : optionalText pod.resource.summary.nodeName with
    | none => simp [Finds, Sole, Relates, hname]
    | some nodeName =>
      have hnode (node : GraphItem) : unique (nodeNameIndex env rows nodeName) = some node ↔
          node ∈ rows ∧ Finds env rows .runsOn pod node := by
        rw [nodeNameIndex, unique_sorted_filter hkeys]
        refine and_congr_right fun _ => sole_congr fun item => ?_
        simp only [Relates, hpod, hname, decide_eq_true_eq, true_and, Option.some.injEq]
        exact and_congr_right fun _ => eq_comm
      simp only [Option.bind_eq_bind, Option.bind_some, Option.bind_eq_some_iff, hnode,
        Option.some.injEq, and_assoc]
      rfl
  · rw [if_neg hpod]
    simp [Finds, Sole, Relates, hpod]

theorem routesToEdge_iff (hkeys : (rows.map GraphItem.key).Nodup) {endpoint : GraphItem} :
    routesToEdge env rows endpoint = some e ↔
      ∃ service ∈ rows, Finds env rows .routesTo service endpoint ∧
        relationEdge env .routesTo service endpoint = e := by
  rw [routesToEdge]
  by_cases hendpoint : endpoint.hasType env "endpoint" = true
  · rw [if_pos hendpoint]
    cases hname : optionalText endpoint.resource.summary.serviceName with
    | none => simp [Finds, Sole, NamedKind, Names, hname]
    | some serviceName =>
      have hservice (service : GraphItem) : unique (identityIndex env rows
          (endpoint.namespaceName, "service", serviceName)) = some service ↔
          service ∈ rows ∧ Finds env rows .routesTo service endpoint := by
        rw [identityIndex, unique_sorted_filter hkeys]
        refine and_congr_right fun _ => sole_congr fun item => ?_
        simp only [NamedKind, Names, hendpoint, hname, decide_eq_true_eq, true_and,
          Option.some.injEq, Prod.mk.injEq]
        grind
      simp only [Option.bind_eq_bind, Option.bind_some, Option.bind_eq_some_iff, hservice,
        Option.some.injEq, and_assoc]
      rfl
  · rw [if_neg hendpoint]
    simp [Finds, Sole, NamedKind, Names, hendpoint]

/-- The selector of a Service or workload gave a match on a Pod. -/
def Selected (env : GraphEnv) (rows : List GraphItem) (labelsComplete : Bool)
    (source pod : GraphItem) : Prop :=
  (pod, SelectorResult.isMatch) ∈ selectorResults env rows labelsComplete source

theorem selectsEdges_iff :
    e ∈ selectsEdges env rows labelsComplete source ↔
      ∃ pod, Selected env rows labelsComplete source pod ∧
        relationEdge env .selects source pod = e := by
  simp only [selectsEdges, List.mem_filterMap, Prod.exists, Option.ite_none_right_eq_some,
    Option.some.injEq, Selected, relationEdge]
  constructor
  · rintro ⟨pod, _, hmem, rfl, rfl⟩
    exact ⟨pod, hmem, rfl⟩
  · rintro ⟨pod, hmem, rfl⟩
    exact ⟨pod, _, hmem, rfl, rfl⟩

theorem selected_iff :
    Selected env rows labelsComplete source pod ↔
      pod ∈ rows ∧ (source.hasType env "service" = true ∨ source.hasType env "workload" = true) ∧
        pod.hasType env "pod" = true ∧ pod.namespaceName = source.namespaceName ∧
          ∃ selector, source.resource.summary.selector = .dict selector ∧ selector ≠ [] ∧
            selectorResult env selector pod.resource.labels labelsComplete
              (source.hasType env "workload") = .isMatch := by
  rw [Selected, selectorResults]
  by_cases htype : source.hasType env "service" = true ∨ source.hasType env "workload" = true
  · rw [if_pos (by simpa using htype)]
    split
    case h_1 field fields heq =>
      simp only [heq, List.mem_map, Prod.mk.injEq, podsByNamespace, Keyset.mem_sorted,
        List.mem_filter, decide_eq_true_eq, htype, true_and, PyValue.dict.injEq, ↓existsAndEq]
      constructor
      · rintro ⟨⟨hitem, hpod, hnamespace⟩, hmatch⟩
        exact ⟨hitem, hpod, hnamespace, List.cons_ne_nil _ _, hmatch⟩
      · rintro ⟨hitem, hpod, hnamespace, -, hmatch⟩
        exact ⟨⟨hitem, hpod, hnamespace⟩, hmatch⟩
    case h_2 hother =>
      refine iff_of_false List.not_mem_nil ?_
      rintro ⟨-, -, -, -, selector, heq, hne, -⟩
      obtain ⟨field, fields, rfl⟩ := List.exists_cons_of_ne_nil hne
      exact hother field fields heq
  · rw [if_neg (by simpa using htype)]
    exact iff_of_false List.not_mem_nil fun h => htype h.2.1

theorem matches_ne_nil {selector : Fields}
    (hselector : source.resource.summary.selector = .dict selector)
    (h : Matches env source labels) : selector ≠ [] := by
  rintro rfl
  obtain ⟨selector, requirements, heq, hread, hne, -⟩ := h
  rw [hselector] at heq
  obtain rfl := PyValue.dict.inj heq
  rw [readSelector] at hread
  cases htype : source.hasType env "workload" <;> rw [htype] at hread
  · exact hne (Option.some.inj hread).symm
  · exact hne (Option.some.inj hread).symm

/-- **With complete labels, the Pods found are the ones that the selector matches.** -/
theorem selected_iff_finds :
    Selected env rows true source pod ↔ pod ∈ rows ∧ Finds env rows .selects source pod := by
  rw [selected_iff]
  refine and_congr_right fun _ => and_congr_right fun _ => and_congr_right fun _ =>
    and_congr_right fun _ => ?_
  simp only [selectorResult_iff]
  constructor
  · rintro ⟨selector, heq, -, requirements, hread, hne, hall⟩
    exact ⟨selector, requirements, heq, hread, hne, hall⟩
  · intro hmatches
    obtain ⟨selector, requirements, heq, hread, hne, hall⟩ := hmatches
    exact ⟨selector, heq, matches_ne_nil heq ⟨selector, requirements, heq, hread, hne, hall⟩,
      requirements, hread, hne, hall⟩

/-- A relation that the graph shows, whatever is known of the labels. -/
def Shows (env : GraphEnv) (rows : List GraphItem) (labelsComplete : Bool) (kind : RelationKind)
    (source target : GraphItem) : Prop :=
  match kind with
  | .selects => Selected env rows labelsComplete source target
  | kind => Finds env rows kind source target

theorem mem_foundEdges (hkeys : (rows.map GraphItem.key).Nodup) :
    e ∈ foundEdges env rows labelsComplete ↔
      ∃ kind, ∃ source ∈ rows, ∃ target ∈ rows, Shows env rows labelsComplete kind source target ∧
        relationEdge env kind source target = e := by
  simp only [foundEdges, List.mem_append, List.mem_flatMap, List.mem_filterMap, Option.mem_toList,
    ownsEdge_iff hkeys, runsOnEdge_iff hkeys, routesToEdge_iff hkeys,
    selectsEdges_iff]
  constructor
  · rintro ((⟨row, hrow, ⟨owner, howner, hfinds, rfl⟩ | ⟨node, hnode, hfinds, rfl⟩⟩ |
      ⟨source, hsource, pod, hselected, rfl⟩) |
      ⟨endpoint, hendpoint, service, hservice, hfinds, rfl⟩)
    · exact ⟨.owns, owner, howner, row, hrow, hfinds, rfl⟩
    · exact ⟨.runsOn, row, hrow, node, hnode, hfinds, rfl⟩
    · exact ⟨.selects, source, hsource, pod, (selected_iff.mp hselected).1, hselected, rfl⟩
    · exact ⟨.routesTo, service, hservice, endpoint, hendpoint, hfinds, rfl⟩
  · rintro ⟨kind, source, hsource, target, htarget, hshows, rfl⟩
    cases kind with
    | owns => exact .inl (.inl ⟨target, htarget, .inl ⟨source, hsource, hshows, rfl⟩⟩)
    | runsOn => exact .inl (.inl ⟨source, hsource, .inr ⟨target, htarget, hshows, rfl⟩⟩)
    | selects => exact .inl (.inr ⟨source, hsource, target, hshows, rfl⟩)
    | routesTo => exact .inr ⟨target, htarget, source, hsource, hshows, rfl⟩

/-! ## Edge ids -/

@[simp] theorem relationEdge_kind (kind : RelationKind) (source target : GraphItem) :
    (relationEdge env kind source target).kind = kind := by
  cases kind <;> rfl

@[simp] theorem relationEdge_from (kind : RelationKind) (source target : GraphItem) :
    (relationEdge env kind source target).fromNodeId = source.key := by
  cases kind <;> rfl

@[simp] theorem relationEdge_to (kind : RelationKind) (source target : GraphItem) :
    (relationEdge env kind source target).toNodeId = target.key := by
  cases kind <;> rfl

theorem kindText_inj {k k' : RelationKind} (h : k.text = k'.text) : k = k' := by
  revert h
  cases k <;> cases k' <;> decide

theorem kindText_plain (kind : RelationKind) : '\x1f' ∉ kind.text.toList := by
  cases kind <;> decide

theorem planeText_plain (plane : RelationPlane) : '\x1f' ∉ plane.text.toList := by
  cases plane <;> decide

theorem relationEdge_id (kind : RelationKind) (source target : GraphItem) :
    ∃ plane : RelationPlane, ∃ evidence : EvidenceType,
      (relationEdge env kind source target).edgeId = "edge-" ++ env.edgeDigest (PyText.join '\x1f'
        ["v1", kind.text, plane.text, source.key, target.key, evidence.text]) := by
  cases kind <;> exact ⟨_, _, rfl⟩

/-- **An edge id stands for a kind and two ends.** -/
theorem relationEdge_id_inj {kind kind' : RelationKind} {target source' target' : GraphItem}
    (h : (relationEdge env kind source target).edgeId =
      (relationEdge env kind' source' target').edgeId) :
    kind = kind' ∧ source.key = source'.key ∧ target.key = target'.key := by
  obtain ⟨plane, evidence, hid⟩ := @relationEdge_id env kind source target
  obtain ⟨plane', evidence', hid'⟩ := @relationEdge_id env kind' source' target'
  rw [hid, hid'] at h
  have hjoin := env.edgeDigest_injective (String.append_right_inj _ |>.mp h)
  obtain ⟨-, hjoin⟩ := PyText.join_cons_inj (by decide) (by decide) hjoin
  obtain ⟨hkind, hjoin⟩ := PyText.join_cons_inj (kindText_plain _) (kindText_plain _) hjoin
  obtain ⟨-, hjoin⟩ := PyText.join_cons_inj (planeText_plain _) (planeText_plain _) hjoin
  obtain ⟨hsource, hjoin⟩ := PyText.join_cons_inj source.key_plain source'.key_plain hjoin
  obtain ⟨htarget, -⟩ := PyText.join_cons_inj target.key_plain target'.key_plain hjoin
  exact ⟨kindText_inj hkind, hsource, htarget⟩

theorem eq_of_edgeId_eq (hkeys : (rows.map GraphItem.key).Nodup) {e' : Edge}
    (he : e ∈ foundEdges env rows labelsComplete) (he' : e' ∈ foundEdges env rows labelsComplete)
    (h : e.edgeId = e'.edgeId) : e = e' := by
  obtain ⟨kind, source, hsource, target, htarget, -, rfl⟩ := (mem_foundEdges hkeys).mp he
  obtain ⟨kind', source', hsource', target', htarget', -, rfl⟩ := (mem_foundEdges hkeys).mp he'
  obtain ⟨rfl, hfrom, hto⟩ := relationEdge_id_inj h
  obtain rfl := List.inj_on_of_nodup_map hkeys hsource hsource' hfrom
  obtain rfl := List.inj_on_of_nodup_map hkeys htarget htarget' hto
  rfl

theorem mem_canonicalEdges (hkeys : (rows.map GraphItem.key).Nodup) :
    e ∈ canonicalEdges (foundEdges env rows labelsComplete) ↔
      e ∈ foundEdges env rows labelsComplete := by
  rw [canonicalEdges, Keyset.mem_sorted]
  constructor
  · intro h
    obtain hmem | hmem := Table.mem_foldl_put h
    · exact hmem
    · cases hmem
  · intro h
    obtain ⟨e', he', hid⟩ := Table.exists_foldl_put (t := (Table.empty : Table Edge.edgeId)) h
    obtain hmem | hmem := Table.mem_foldl_put he'
    · obtain rfl := eq_of_edgeId_eq hkeys hmem h hid
      exact he'
    · cases hmem

theorem nodup_canonicalEdges (edges : List Edge) : ((canonicalEdges edges).map Edge.edgeId).Nodup :=
  (Keyset.perm_sorted.map Edge.edgeId).nodup_iff.mpr
    (edges.foldl Table.put (Table.empty : Table Edge.edgeId)).nodup

end Opsia.Graph
