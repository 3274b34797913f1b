import Opsia.Lib.Json
import Opsia.Lib.PyText
import Opsia.Lib.SqlTruth
import Opsia.Timeline.Replay

/-!
# Which events are evidence

`domains/timeline/predicate.py` says twice which events a query selects: a guard in Python over a
typed event, for what is streamed, and a condition in SQL over the row of the event, for what is
read from the ledger. Here are both, with the row that the ledger makes of an event. Times are
microseconds.
-/

namespace Opsia.Timeline.Evidence

/-! ## Events -/

inductive TimelineSource : Type where
  | inventory
  | incident
  | applicationWorkflow
  | kubernetesEvent
  | gitops
  deriving DecidableEq, Repr

inductive TimelineActivity : Type where
  | change
  | k8sEvent
  | warning
  | unhealthy
  deriving DecidableEq, Repr

inductive TimelineEventType : Type where
  | add
  | update
  | delete
  | k8sEvent
  | incident
  | deployment
  | gitopsChange
  deriving DecidableEq, Repr

structure ResourceRef : Type where
  apiGroup : String := ""
  version : String := ""
  kind : String
  namespaceName : Option String := none
  name : String
  uid : String
  deriving DecidableEq, Repr

inductive TimelineSubject : Type where
  | resource (resource : ResourceRef)
  | inventoryLocator (inventoryKey apiGroup version resourceKind : String)
      (namespaceName : Option String) (name : String)
  | incident (incidentId : String) (correlationId : Option String)
  | applicationWorkflow (applicationId bindingId workflowRunId : String)
  deriving DecidableEq, Repr

/-- `isinstance(subject, TimelineResourceSubject)`, with its `resource`. -/
def TimelineSubject.ref : TimelineSubject → Option ResourceRef
  | .resource ref => some ref
  | _ => none

/-- `isinstance(subject, TimelineApplicationWorkflowSubject)`, with its `application_id`. -/
def TimelineSubject.applicationId : TimelineSubject → Option String
  | .applicationWorkflow applicationId _ _ => some applicationId
  | _ => none

/-- `TimelineEvent`; `zoned` says whether the time has a time zone. -/
structure TimelineEvent : Type where
  eventId : String
  source : TimelineSource
  sourceKey : String
  nativeId : String
  activity : TimelineActivity
  occurredAt : ℤ
  zoned : Bool
  workspaceId : String
  clusterId : String
  subject : TimelineSubject
  resource : Option ResourceRef
  eventType : TimelineEventType
  title : String
  /-- `validate_exact_resource_relation`, of the source -/
  application : source = .applicationWorkflow ∨ source = .gitops → subject.applicationId.isSome
  /-- `validate_exact_resource_relation`, of a resource -/
  exact : ∀ r, subject = .resource r → resource = some r
  /-- `validate_exact_resource_relation`, of evidence without a UID -/
  locator : ∀ key group version kind space name,
    subject = .inventoryLocator key group version kind space name → resource = none

/-! ## Queries -/

structure ClusterScope : Type where
  workspaceId : String
  clusterId : String
  namespaces : List String

structure TimelineLedgerReadScope : Type where
  workspaceId : String
  scopes : List ClusterScope
  inventoryClusterIds : List String := []
  kubernetesEventClusterIds : List String := []
  incidentClusterIds : List String := []
  applicationWorkflowIds : List String := []
  gitopsApplicationIds : List String := []
  scopes_ne : scopes ≠ []
  /-- `__post_init__` -/
  workspace : ∀ scope ∈ scopes, scope.workspaceId = workspaceId

structure TimelineEvidenceFilters : Type where
  activity : List TimelineActivity := []
  kinds : List String := []
  includeDeleted : Bool := true
  pinnedOnly : Bool := false
  search : String := ""

structure TimelineReplayIdentity : Type where
  window : TimelineWindow
  mode : TimelineReadMode
  filters : TimelineEvidenceFilters

structure TimelinePinMembership : Type where
  resourceIdentities : List (String × String) := []
  applicationIds : List String := []
  /-- `__post_init__` -/
  nonempty : ∀ pin ∈ resourceIdentities, pin.1 ≠ "" ∧ pin.2 ≠ ""

/-- `TimelineEvidencePredicate`. -/
structure EvidencePredicate : Type where
  readScope : TimelineLedgerReadScope
  replayIdentity : TimelineReplayIdentity
  pinMembership : Option TimelinePinMembership
  /-- `__init__` -/
  pinned : replayIdentity.filters.pinnedOnly = true → pinMembership.isSome = true

/-- What `str.casefold` makes of a character, and what `ILIKE` compares of it. -/
structure CaseTables : Type where
  casefold : Char → List Char
  lower : Char → Char

/-- `str.casefold`. -/
def CaseTables.casefolded (tables : CaseTables) (s : String) : List Char :=
  s.toList.flatMap tables.casefold

/-- The text that `ILIKE` compares. -/
def CaseTables.lowered (tables : CaseTables) (s : String) : List Char := s.toList.map tables.lower

/-! ## The guard -/

variable (tables : CaseTables) (event : TimelineEvent)

def resourceKind : Option String :=
  match event.resource with
  | some resource => some resource.kind
  | none =>
    match event.subject with
    | .resource resource => some resource.kind
    | .inventoryLocator _ _ _ kind _ _ => some kind
    | _ => none

def eventNamespace : Option String :=
  match event.resource with
  | some resource => resource.namespaceName
  | none =>
    match event.subject with
    | .resource resource => resource.namespaceName
    | .inventoryLocator _ _ _ _ namespaceName _ => namespaceName
    | _ => none

def scopeMatches (scopes : List ClusterScope) : Bool :=
  scopes.any fun scope =>
    event.workspaceId = scope.workspaceId && event.clusterId = scope.clusterId &&
      (scope.namespaces.isEmpty ||
        scope.namespaces.any fun name => eventNamespace event = some name)

def sourceIsAuthorized (readScope : TimelineLedgerReadScope) : Bool :=
  match event.source with
  | .inventory => event.clusterId ∈ readScope.inventoryClusterIds
  | .kubernetesEvent => event.clusterId ∈ readScope.kubernetesEventClusterIds
  | .incident => event.clusterId ∈ readScope.incidentClusterIds
  | .applicationWorkflow =>
    event.subject.applicationId.any fun id => id ∈ readScope.applicationWorkflowIds
  | .gitops => event.subject.applicationId.any fun id => id ∈ readScope.gitopsApplicationIds

def isWithinSnapshotWindow (identity : TimelineReplayIdentity) : Bool :=
  if event.zoned then
    (fromDatetime identity.window.fromMs : ℤ) ≤ event.occurredAt &&
      event.occurredAt < (fromDatetime identity.window.toMs : ℤ)
  else false

def isWithinStreamWindow (identity : TimelineReplayIdentity) (now : ℤ) : Bool :=
  if !event.zoned || event.occurredAt < (fromDatetime identity.window.fromMs : ℤ) then false
  else if identity.mode = .frozen then
    event.occurredAt < (fromDatetime identity.window.toMs : ℤ)
  else event.occurredAt ≤ now

def searchValues : List String :=
  [event.eventId, event.sourceKey, event.nativeId, event.title] ++
    (match event.resource with
      | some resource => [resource.kind, resource.name, resource.uid]
      | none => []) ++
    match event.subject with
    | .resource resource => [resource.kind, resource.name, resource.uid]
    | .inventoryLocator inventoryKey _ _ kind _ name => [kind, name, inventoryKey]
    | .applicationWorkflow applicationId bindingId workflowRunId =>
      [applicationId, bindingId, workflowRunId]
    | .incident incidentId correlationId => incidentId :: correlationId.toList

def searchMatches (search : String) : Bool :=
  (searchValues event).any fun value =>
    PyText.isIn (tables.casefolded search) (tables.casefolded value)

def matchesFilters (identity : TimelineReplayIdentity) : Bool :=
  let filters := identity.filters
  if !filters.activity.isEmpty && event.activity ∉ filters.activity then false
  else if !filters.kinds.isEmpty &&
      !(filters.kinds.any fun kind => resourceKind event = some kind) then false
  else if !filters.includeDeleted && event.eventType = .delete then false
  else filters.search = "" || searchMatches tables event filters.search

def matchesPins (identity : TimelineReplayIdentity) (membership : Option TimelinePinMembership) :
    Bool :=
  if !identity.filters.pinnedOnly then true
  else
    match membership with
    | none => false
    | some membership =>
      let resource := event.resource.or event.subject.ref
      (resource.any fun resource =>
          membership.resourceIdentities.contains (event.clusterId, resource.uid)) ||
        event.subject.applicationId.any fun id => id ∈ membership.applicationIds

def EvidencePredicate.matchesSnapshot (p : EvidencePredicate) : Bool :=
  scopeMatches event p.readScope.scopes && sourceIsAuthorized event p.readScope &&
    isWithinSnapshotWindow event p.replayIdentity && matchesFilters tables event p.replayIdentity &&
    matchesPins event p.replayIdentity p.pinMembership

def EvidencePredicate.matchesStream (p : EvidencePredicate) (now : ℤ) : Bool :=
  scopeMatches event p.readScope.scopes && sourceIsAuthorized event p.readScope &&
    isWithinStreamWindow event p.replayIdentity now &&
    matchesFilters tables event p.replayIdentity &&
    matchesPins event p.replayIdentity p.pinMembership

/-- The guard of a phase. -/
def EvidencePredicate.matchesPhase (p : EvidencePredicate) (phase : ReadPhase) (now : ℤ) : Bool :=
  match phase with
  | .snapshot => p.matchesSnapshot tables event
  | .stream => p.matchesStream tables event now

/-! ## Rows -/

/-- `model_dump` of a resource. -/
def ResourceRef.modelDump (resource : ResourceRef) : Json :=
  .obj [("api_group", .str resource.apiGroup), ("version", .str resource.version),
    ("kind", .str resource.kind),
    ("namespace", resource.namespaceName.elim .null .str),
    ("name", .str resource.name), ("uid", .str resource.uid)]

/-- `model_dump` of a subject. -/
def TimelineSubject.modelDump : TimelineSubject → Json
  | .resource ref => .obj [("kind", .str "resource"), ("resource", ref.modelDump)]
  | .inventoryLocator inventoryKey apiGroup version resourceKind namespaceName name =>
    .obj [("kind", .str "inventory_locator"), ("inventory_key", .str inventoryKey),
      ("api_group", .str apiGroup), ("version", .str version),
      ("resource_kind", .str resourceKind), ("namespace", namespaceName.elim .null .str),
      ("name", .str name)]
  | .incident incidentId correlationId =>
    .obj [("kind", .str "incident"), ("incident_id", .str incidentId),
      ("correlation_id", correlationId.elim .null .str)]
  | .applicationWorkflow applicationId bindingId workflowRunId =>
    .obj [("kind", .str "application_workflow"), ("application_id", .str applicationId),
      ("binding_id", .str bindingId), ("workflow_run_id", .str workflowRunId)]

/-- The columns of `timeline_ledger_events` that the condition reads. A missing resource is the
JSON `null`. -/
structure LedgerRow : Type where
  eventId : String
  source : TimelineSource
  sourceKey : String
  nativeId : String
  activity : TimelineActivity
  occurredAt : ℤ
  workspaceId : String
  clusterId : String
  namespaceName : Option String
  subject : Json
  resource : Json
  eventType : TimelineEventType
  title : String

/-- `getattr(subject, "namespace", None)`. -/
def TimelineSubject.namespaceName : TimelineSubject → Option String
  | .inventoryLocator _ _ _ _ namespaceName _ => namespaceName
  | _ => none

def eventValues : LedgerRow where
  eventId := event.eventId
  source := event.source
  sourceKey := event.sourceKey
  nativeId := event.nativeId
  activity := event.activity
  occurredAt := event.occurredAt
  workspaceId := event.workspaceId
  clusterId := event.clusterId
  namespaceName := event.resource.elim event.subject.namespaceName ResourceRef.namespaceName
  subject := event.subject.modelDump
  resource := event.resource.elim .null ResourceRef.modelDump
  eventType := event.eventType
  title := event.title

/-! ## The condition -/

open SqlTruth

/-- `column["…"].astext`: the text of a scalar, or `NULL`. -/
def astext : Json → Option String
  | .str s => some s
  | .num literal => some literal
  | .bool b => some (if b then "true" else "false")
  | _ => none

/-- `column["…"]["…"].astext`. -/
def fieldText : Json → List String → Option String
  | value, [] => astext value
  | value, field :: path => (value.get? field).bind (fieldText · path)

variable (row : LedgerRow)

def scopeSqlPredicate (scopes : List ClusterScope) : SqlTruth :=
  any (scopes.map fun scope =>
    if scope.namespaces.isEmpty then known (row.clusterId = scope.clusterId)
    else both (known (row.clusterId = scope.clusterId)) (isIn row.namespaceName scope.namespaces))

/-- One source of `_source_authorization_sql_predicate`. -/
def sourceGrant (source : TimelineSource) (column : Option String) (ids : List String) :
    List SqlTruth :=
  if ids.isEmpty then [] else [both (known (row.source = source)) (isIn column ids)]

def sourceAuthorizationSqlPredicate (readScope : TimelineLedgerReadScope) : SqlTruth :=
  let applicationId := fieldText row.subject ["application_id"]
  any (sourceGrant row .inventory (some row.clusterId) readScope.inventoryClusterIds ++
    sourceGrant row .kubernetesEvent (some row.clusterId) readScope.kubernetesEventClusterIds ++
    sourceGrant row .incident (some row.clusterId) readScope.incidentClusterIds ++
    sourceGrant row .applicationWorkflow applicationId readScope.applicationWorkflowIds ++
    sourceGrant row .gitops applicationId readScope.gitopsApplicationIds)

/-- `timeline_resource_kind_sql`. -/
def resourceKindSql : Option String :=
  coalesce [fieldText row.resource ["kind"], fieldText row.subject ["resource", "kind"],
    fieldText row.subject ["resource_kind"]]

def searchColumns : List (Option String) :=
  [some row.eventId, some row.sourceKey, some row.nativeId, some row.title,
    fieldText row.resource ["kind"], fieldText row.resource ["name"],
    fieldText row.resource ["uid"], fieldText row.subject ["resource", "kind"],
    fieldText row.subject ["resource", "name"], fieldText row.subject ["resource", "uid"],
    fieldText row.subject ["resource_kind"], fieldText row.subject ["name"],
    fieldText row.subject ["inventory_key"], fieldText row.subject ["application_id"],
    fieldText row.subject ["binding_id"], fieldText row.subject ["workflow_run_id"],
    fieldText row.subject ["incident_id"], fieldText row.subject ["correlation_id"]]

/-- `column.ilike(_escaped_contains_pattern(search), escape="\\")`. -/
def ilike (search : String) (column : Option String) : SqlTruth :=
  ofColumn (fun value => PyText.isIn (tables.lowered search) (tables.lowered value)) column

def pinMembershipSqlPredicate (membership : Option TimelinePinMembership) : SqlTruth :=
  match membership with
  | none => known false
  | some membership =>
    any (membership.resourceIdentities.map (fun pin =>
        both (known (row.clusterId = pin.1))
          (either (eq (fieldText row.resource ["uid"]) pin.2)
            (eq (fieldText row.subject ["resource", "uid"]) pin.2))) ++
      if membership.applicationIds.isEmpty then []
      else [isIn (fieldText row.subject ["application_id"]) membership.applicationIds])

/-- `timeline_evidence_sql_predicate`; `func.now()` is an argument. -/
def EvidencePredicate.sqlPredicate (p : EvidencePredicate) (phase : ReadPhase) (now : ℤ) :
    SqlTruth :=
  let identity := p.replayIdentity
  let filters := identity.filters
  all ([scopeSqlPredicate row p.readScope.scopes,
      sourceAuthorizationSqlPredicate row p.readScope,
      known ((fromDatetime identity.window.fromMs : ℤ) ≤ row.occurredAt)] ++
    (if phase = .snapshot || identity.mode = .frozen then
      [known (row.occurredAt < (fromDatetime identity.window.toMs : ℤ))]
    else [known (row.occurredAt ≤ now)]) ++
    (if filters.activity.isEmpty then [] else [isIn (some row.activity) filters.activity]) ++
    (if filters.kinds.isEmpty then [] else [isIn (resourceKindSql row) filters.kinds]) ++
    (if filters.includeDeleted then [] else [known (row.eventType ≠ .delete)]) ++
    (if filters.search = "" then []
      else [any ((searchColumns row).map (ilike tables filters.search))]) ++
    if filters.pinnedOnly then [pinMembershipSqlPredicate row p.pinMembership] else [])

end Opsia.Timeline.Evidence
