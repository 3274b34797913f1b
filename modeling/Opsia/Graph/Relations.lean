import Opsia.Graph.ResourceGraph

/-!
# The relations among inventory items

What the edges of a resource graph are about: an owner that an item declares, the node of a Pod, the
Pods that a selector matches, the Service of an endpoint. A selector is read as a list of
requirements first (`readSelector`). The relations are told here by the items alone, without any
index; `Sole` is what an index with a rule against ambiguity tells instead, and `Finds` are the
relations as the graph finds them.
-/

namespace Opsia.Graph

/-! ## Selectors -/

inductive Requirement where
  | equals (key value : String)
  | isIn (key : String) (values : List String)
  | isNotIn (key : String) (values : List String)
  | isPresent (key : String)
  | isAbsent (key : String)

/-- What a requirement says of labels; an absent label is in no list. -/
def Requirement.Holds (labels : Labels) : Requirement → Prop
  | .equals key value => labels.lookup key = some value
  | .isIn key values => ∃ value ∈ values, labels.lookup key = some value
  | .isNotIn key values => ∀ value ∈ values, labels.lookup key ≠ some value
  | .isPresent key => labels.lookup key ≠ none
  | .isAbsent key => labels.lookup key = none

/-- An operator takes values or none. -/
def readOperator (operator key : String) (values : List String) : Option Requirement :=
  if operator = "In" then if values = [] then none else some (.isIn key values)
  else if operator = "NotIn" then if values = [] then none else some (.isNotIn key values)
  else if operator = "Exists" then if values = [] then some (.isPresent key) else none
  else if operator = "DoesNotExist" then if values = [] then some (.isAbsent key) else none
  else none

def readExpression (env : GraphEnv) (expression : PyValue) : Option Requirement :=
  match expression with
  | .dict fields =>
    match optionalField env fields "key", optionalField env fields "operator",
        (fields.lookup "values").getD (.list []) with
    | some key, some operator, .list values => readOperator operator key (values.map env.str)
    | _, _, _ => none
  | _ => none

/-- The requirements of a selector: a map of labels, or a label selector. -/
def readSelector (env : GraphEnv) (selector : Fields) (structured : Bool) :
    Option (List Requirement) :=
  let equals (fields : Fields) := fields.map fun field =>
    Requirement.equals field.1 (env.str field.2)
  if structured then
    if selector.any fun field => field.1 ∉ ["matchLabels", "matchExpressions"] then none
    else match (selector.lookup "matchLabels").getD (.dict []),
        (selector.lookup "matchExpressions").getD (.list []) with
      | .dict matchLabels, .list expressions => do
        let read ← expressions.mapM (readExpression env)
        some (equals matchLabels ++ read)
      | _, _ => none
  else some (equals selector)

/-- The selector of an item matches labels: it can be read, it is not empty, and it holds. -/
def Matches (env : GraphEnv) (source : GraphItem) (labels : Labels) : Prop :=
  ∃ selector requirements, source.resource.summary.selector = .dict selector ∧
    readSelector env selector (source.hasType env "workload") = some requirements ∧
    requirements ≠ [] ∧ ∀ requirement ∈ requirements, requirement.Holds labels

/-! ## Relations -/

/-- An item declares another as its owner, by uid, kind and name. -/
def Declares (env : GraphEnv) (child owner : GraphItem) : Prop :=
  ∃ ownerKind ownerUid, optionalText child.resource.summary.ownerKind = some ownerKind ∧
    optionalText child.resource.summary.ownerName = some owner.resource.name ∧
    optionalText child.resource.summary.ownerUid = some ownerUid ∧
    optionalText owner.resource.uid = some ownerUid ∧
    env.casefold owner.resource.kind = env.casefold ownerKind

/-- An endpoint has the name of an item of its namespace as the name of its Service. -/
def Names (env : GraphEnv) (endpoint service : GraphItem) : Prop :=
  endpoint.hasType env "endpoint" = true ∧ service.namespaceName = endpoint.namespaceName ∧
    optionalText endpoint.resource.summary.serviceName = some service.resource.name

/-- The relations among items, by the ends of their edges. -/
def Relates (env : GraphEnv) : RelationKind → (source target : GraphItem) → Prop
  | .owns, owner, child => Declares env child owner
  | .runsOn, pod, node =>
    pod.hasType env "pod" = true ∧ node.hasType env "node" = true ∧
      optionalText pod.resource.summary.nodeName = some node.resource.name
  | .selects, source, pod =>
    (source.hasType env "service" = true ∨ source.hasType env "workload" = true) ∧
      pod.hasType env "pod" = true ∧ pod.namespaceName = source.namespaceName ∧
      Matches env source pod.resource.labels
  | .routesTo, service, endpoint =>
    service.hasType env "service" = true ∧ Names env endpoint service

/-- The edges are the relations among the items. -/
def EdgesAreRelations (env : GraphEnv) (items : List GraphItem) (edges : List Edge) : Prop :=
  ∀ kind sourceId targetId,
    (∃ e ∈ edges, e.kind = kind ∧ e.fromNodeId = sourceId ∧ e.toNodeId = targetId) ↔
      ∃ source ∈ items, ∃ target ∈ items,
        source.key = sourceId ∧ target.key = targetId ∧ Relates env kind source target

/-! ## Relations as they are found -/

/-- The only item with a property. -/
def Sole (items : List GraphItem) (P : GraphItem → Prop) (item : GraphItem) : Prop :=
  P item ∧ ∀ other ∈ items, P other → other = item

/-- An item of kind Service, whatever its type, that an endpoint names. -/
def NamedKind (env : GraphEnv) (endpoint service : GraphItem) : Prop :=
  env.casefold service.resource.kind = "service" ∧ Names env endpoint service

/-- The relations as the indexes tell them: an owner in the namespace of its item, and no owner,
node or Service where two could be meant. -/
def Finds (env : GraphEnv) (items : List GraphItem) :
    RelationKind → (source target : GraphItem) → Prop
  | .owns, owner, child =>
    Sole items (fun item =>
      Declares env child item ∧ item.namespaceName = child.namespaceName) owner
  | .runsOn, pod, node => Sole items (Relates env .runsOn pod) node
  | .selects, source, pod => Relates env .selects source pod
  | .routesTo, service, endpoint => Sole items (NamedKind env endpoint) service

/-- Declared owners, nodes and Services can be told: a declared owner is in the namespace of its
item and the only one, the node of a Pod is the only one, and the Service of an endpoint is the only
item of kind Service that the endpoint names, where it has one. -/
structure Identifiable (env : GraphEnv) (items : List GraphItem) : Prop where
  owners : ∀ child ∈ items, ∀ owner ∈ items, Declares env child owner →
    owner.namespaceName = child.namespaceName ∧
      ∀ other ∈ items, Declares env child other → other = owner
  nodes : ∀ pod ∈ items, ∀ node ∈ items, Relates env .runsOn pod node →
    ∀ other ∈ items, Relates env .runsOn pod other → other = node
  services : ∀ endpoint ∈ items, ∀ service ∈ items, Relates env .routesTo service endpoint →
    Sole items (fun item => NamedKind env endpoint item ∨ Relates env .routesTo item endpoint)
      service ∧ NamedKind env endpoint service
  others : ∀ endpoint ∈ items, ∀ item ∈ items, Sole items (NamedKind env endpoint) item →
    Relates env .routesTo item endpoint

variable {env : GraphEnv} {items : List GraphItem}

theorem Identifiable.finds_iff (h : Identifiable env items) {kind : RelationKind}
    {source target : GraphItem} (hsource : source ∈ items) (htarget : target ∈ items) :
    Finds env items kind source target ↔ Relates env kind source target := by
  cases kind with
  | owns =>
    constructor
    · rintro ⟨⟨hdeclares, -⟩, -⟩
      exact hdeclares
    · intro hdeclares
      obtain ⟨hnamespace, hsole⟩ := h.owners target htarget source hsource hdeclares
      exact ⟨⟨hdeclares, hnamespace⟩, fun other hother ho => hsole other hother ho.1⟩
  | runsOn =>
    exact ⟨fun hfinds => hfinds.1, fun hrelates =>
      ⟨hrelates, h.nodes source hsource target htarget hrelates⟩⟩
  | selects => exact Iff.rfl
  | routesTo =>
    constructor
    · intro hsole
      exact h.others target htarget source hsource hsole
    · intro hrelates
      obtain ⟨⟨-, hsole⟩, hnamed⟩ := h.services target htarget source hsource hrelates
      exact ⟨hnamed, fun other hother ho => hsole other hother (.inl ho)⟩

/-- **What is found is what holds exactly when owners, nodes and Services can be told.** -/
theorem finds_iff_relates :
    (∀ kind, ∀ source ∈ items, ∀ target ∈ items,
      (Finds env items kind source target ↔ Relates env kind source target)) ↔
      Identifiable env items := by
  constructor
  · intro h
    refine ⟨?_, ?_, ?_, ?_⟩
    · intro child hchild owner howner hdeclares
      obtain ⟨⟨-, hnamespace⟩, hsole⟩ := (h .owns owner howner child hchild).mpr hdeclares
      refine ⟨hnamespace, fun other hother ho => hsole other hother ⟨ho, ?_⟩⟩
      obtain ⟨⟨-, hnamespace'⟩, -⟩ := (h .owns other hother child hchild).mpr ho
      exact hnamespace'
    · intro pod hpod node hnode hrelates
      exact ((h .runsOn pod hpod node hnode).mpr hrelates).2
    · intro endpoint hendpoint service hservice hrelates
      obtain ⟨hnamed, hsole⟩ := (h .routesTo service hservice endpoint hendpoint).mpr hrelates
      refine ⟨⟨.inr hrelates, fun other hother ho => ?_⟩, hnamed⟩
      rcases ho with ho | ho
      · exact hsole other hother ho
      · exact hsole other hother ((h .routesTo other hother endpoint hendpoint).mpr ho).1
    · intro endpoint hendpoint item hitem hsole
      exact (h .routesTo item hitem endpoint hendpoint).mp hsole
  · intro h kind source hsource target htarget
    exact h.finds_iff hsource htarget

end Opsia.Graph
