import Opsia.Timeline.Evidence

/-!
# The guard and the condition

Both ask the same of the scope, the source, the time, the kind and the pins of an event
(`Admits`). The guard alone asks for the workspace and for a time zone, and the two search for a
text differently: `str.casefold` makes several characters of one where `ILIKE` compares character
by character. So they select the same events exactly when this makes no difference
(`matchesPhase_agrees_iff`).
-/

namespace Opsia.Timeline.Evidence

open SqlTruth

variable {tables : CaseTables} {event : TimelineEvent} {p : EvidencePredicate} {phase : ReadPhase}
  {now : ℤ}

/-! ## What both sides ask -/

/-- The scope of a query, without its workspace. -/
def InScope (event : TimelineEvent) (scopes : List ClusterScope) : Prop :=
  ∃ scope ∈ scopes, event.clusterId = scope.clusterId ∧
    (scope.namespaces = [] ∨ ∃ name ∈ scope.namespaces, eventNamespace event = some name)

/-- The time of a phase. -/
def InWindow (identity : TimelineReplayIdentity) (phase : ReadPhase) (now occurredAt : ℤ) : Prop :=
  (fromDatetime identity.window.fromMs : ℤ) ≤ occurredAt ∧
    if phase = .snapshot ∨ identity.mode = .frozen then
      occurredAt < (fromDatetime identity.window.toMs : ℤ)
    else occurredAt ≤ now

/-- **What a query asks** of an event besides its workspace and its texts. -/
structure Admits (p : EvidencePredicate) (phase : ReadPhase) (now : ℤ) (event : TimelineEvent) :
    Prop where
  scope : InScope event p.readScope.scopes
  source : sourceIsAuthorized event p.readScope = true
  window : InWindow p.replayIdentity phase now event.occurredAt
  activity : p.replayIdentity.filters.activity = [] ∨
    event.activity ∈ p.replayIdentity.filters.activity
  kinds : p.replayIdentity.filters.kinds = [] ∨
    ∃ kind ∈ p.replayIdentity.filters.kinds, resourceKind event = some kind
  deleted : p.replayIdentity.filters.includeDeleted = true ∨ event.eventType ≠ .delete
  pins : matchesPins event p.replayIdentity p.pinMembership = true

/-- The event is one of the workspace, and its time has a zone. -/
def Inside (p : EvidencePredicate) (event : TimelineEvent) : Prop :=
  event.workspaceId = p.readScope.workspaceId ∧ event.zoned = true

/-- `ILIKE` finds the text in one of the searched values. -/
def ilikeMatches (tables : CaseTables) (event : TimelineEvent) (search : String) : Bool :=
  (searchValues event).any fun value =>
    PyText.isIn (tables.lowered search) (tables.lowered value)

/-! ## Rows -/

theorem fieldText_resource (ref : ResourceRef) :
    fieldText ref.modelDump ["kind"] = some ref.kind ∧
      fieldText ref.modelDump ["name"] = some ref.name ∧
        fieldText ref.modelDump ["uid"] = some ref.uid := by
  simp [ResourceRef.modelDump, fieldText, astext, Json.get?, List.lookup_cons]

/-- `subject["application_id"]` is there for a workflow only. -/
theorem fieldText_applicationId (subject : TimelineSubject) :
    fieldText subject.modelDump ["application_id"] = subject.applicationId := by
  cases subject with
  | resource ref => simp [TimelineSubject.modelDump, fieldText, Json.get?, List.lookup_cons,
      TimelineSubject.applicationId]
  | inventoryLocator => simp [TimelineSubject.modelDump, fieldText, Json.get?, List.lookup_cons,
      TimelineSubject.applicationId]
  | incident => simp [TimelineSubject.modelDump, fieldText, Json.get?, List.lookup_cons,
      TimelineSubject.applicationId]
  | applicationWorkflow => simp [TimelineSubject.modelDump, fieldText, Json.get?, List.lookup_cons,
      TimelineSubject.applicationId, astext]

theorem TimelineEvent.shape (event : TimelineEvent) :
    (∃ ref, event.subject = .resource ref ∧ event.resource = some ref) ∨
      (∃ key group version kind space name,
        event.subject = .inventoryLocator key group version kind space name ∧
          event.resource = none) ∨
      (∃ id correlationId, event.subject = .incident id correlationId) ∨
      ∃ id bindingId runId, event.subject = .applicationWorkflow id bindingId runId := by
  cases hsubject : event.subject with
  | resource ref => exact .inl ⟨ref, rfl, event.exact ref hsubject⟩
  | inventoryLocator key group version kind space name =>
    exact .inr (.inl ⟨key, group, version, kind, space, name, rfl,
      event.locator key group version kind space name hsubject⟩)
  | incident id correlationId => exact .inr (.inr (.inl ⟨id, correlationId, rfl⟩))
  | applicationWorkflow id bindingId runId => exact .inr (.inr (.inr ⟨id, bindingId, runId, rfl⟩))

/-- The column holds the namespace that the guard reads. -/
theorem namespaceName_eventValues (event : TimelineEvent) :
    (eventValues event).namespaceName = eventNamespace event := by
  obtain ⟨ref, hsubject, hresource⟩ | ⟨_, _, _, _, _, _, hsubject, hresource⟩ | ⟨_, _, hsubject⟩ |
    ⟨_, _, _, hsubject⟩ := event.shape
  · simp [eventValues, eventNamespace, hresource]
  · simp [eventValues, eventNamespace, hresource, hsubject, TimelineSubject.namespaceName]
  · cases hresource : event.resource <;>
      simp [eventValues, eventNamespace, hresource, hsubject, TimelineSubject.namespaceName]
  · cases hresource : event.resource <;>
      simp [eventValues, eventNamespace, hresource, hsubject, TimelineSubject.namespaceName]

theorem resourceKindSql_eventValues (event : TimelineEvent) :
    resourceKindSql (eventValues event) = resourceKind event := by
  obtain ⟨ref, hsubject, hresource⟩ | ⟨_, _, _, _, _, _, hsubject, hresource⟩ | ⟨_, _, hsubject⟩ |
    ⟨_, _, _, hsubject⟩ := event.shape
  · simp [resourceKindSql, coalesce, eventValues, resourceKind, hresource, fieldText_resource]
  · simp [resourceKindSql, coalesce, eventValues, resourceKind, hresource, hsubject, fieldText,
      astext, Json.get?, TimelineSubject.modelDump, List.lookup_cons]
  · cases hresource : event.resource <;>
      simp [resourceKindSql, coalesce, eventValues, resourceKind, hresource, hsubject, fieldText,
        astext, Json.get?, TimelineSubject.modelDump, ResourceRef.modelDump,
        List.lookup_cons]
  · cases hresource : event.resource <;>
      simp [resourceKindSql, coalesce, eventValues, resourceKind, hresource, hsubject, fieldText,
        astext, Json.get?, TimelineSubject.modelDump, ResourceRef.modelDump,
        List.lookup_cons]

theorem mem_searchColumns (event : TimelineEvent) (value : String) :
    some value ∈ searchColumns (eventValues event) ↔ value ∈ searchValues event := by
  obtain ⟨ref, hsubject, hresource⟩ | ⟨_, _, _, _, _, _, hsubject, hresource⟩ |
    ⟨_, correlationId, hsubject⟩ | ⟨_, _, _, hsubject⟩ := event.shape
  · simp [searchColumns, searchValues, eventValues, hresource, hsubject, fieldText, astext,
      Json.get?, TimelineSubject.modelDump, ResourceRef.modelDump, List.lookup_cons]
  · simp [searchColumns, searchValues, eventValues, hresource, hsubject, fieldText, astext,
      Json.get?, TimelineSubject.modelDump, List.lookup_cons]
  · cases hresource : event.resource <;> cases correlationId <;>
      simp [searchColumns, searchValues, eventValues, hresource, hsubject, fieldText, astext,
        Json.get?, TimelineSubject.modelDump, ResourceRef.modelDump, List.lookup_cons]
  · cases hresource : event.resource <;>
      simp [searchColumns, searchValues, eventValues, hresource, hsubject, fieldText, astext,
        Json.get?, TimelineSubject.modelDump, ResourceRef.modelDump, List.lookup_cons]

theorem fieldText_uid (event : TimelineEvent) (uid : String) :
    (fieldText (eventValues event).resource ["uid"] = some uid ∨
        fieldText (eventValues event).subject ["resource", "uid"] = some uid) ↔
      ∃ ref ∈ event.resource, ref.uid = uid := by
  obtain ⟨ref, hsubject, hresource⟩ | ⟨_, _, _, _, _, _, hsubject, hresource⟩ | ⟨_, _, hsubject⟩ |
    ⟨_, _, _, hsubject⟩ := event.shape
  · simp [eventValues, hresource, hsubject, fieldText, astext, Json.get?,
      TimelineSubject.modelDump, ResourceRef.modelDump, List.lookup_cons]
  · simp [eventValues, hresource, hsubject, fieldText, astext, Json.get?,
      TimelineSubject.modelDump, List.lookup_cons]
  · cases hresource : event.resource <;>
      simp [eventValues, hresource, hsubject, fieldText, astext, Json.get?,
        TimelineSubject.modelDump, ResourceRef.modelDump, List.lookup_cons]
  · cases hresource : event.resource <;>
      simp [eventValues, hresource, hsubject, fieldText, astext, Json.get?,
        TimelineSubject.modelDump, ResourceRef.modelDump, List.lookup_cons]

/-! ## Piece by piece -/

theorem holds_scopeSqlPredicate (event : TimelineEvent) (scopes : List ClusterScope) :
    Holds (scopeSqlPredicate (eventValues event) scopes) ↔ InScope event scopes := by
  have hscope : ∀ scope : ClusterScope,
      Holds (if scope.namespaces.isEmpty = true then
          known ((eventValues event).clusterId = scope.clusterId)
        else both (known ((eventValues event).clusterId = scope.clusterId))
          (isIn (eventValues event).namespaceName scope.namespaces)) ↔
        event.clusterId = scope.clusterId ∧
          (scope.namespaces = [] ∨
            ∃ name ∈ scope.namespaces, eventNamespace event = some name) := by
    intro scope
    rw [namespaceName_eventValues]
    by_cases hempty : scope.namespaces = []
    · simp only [hempty, List.isEmpty_nil, if_true, holds_known, decide_eq_true_eq]
      simp [eventValues]
    · simp only [List.isEmpty_iff, hempty, if_false, holds_both, holds_known, holds_isIn,
        decide_eq_true_eq]
      simp [eventValues]
  simp only [scopeSqlPredicate, holds_any, List.mem_map, InScope]
  constructor
  · rintro ⟨_, ⟨scope, hmem, rfl⟩, hholds⟩
    exact ⟨scope, hmem, (hscope scope).mp hholds⟩
  · rintro ⟨scope, hmem, hmatch⟩
    exact ⟨_, ⟨scope, hmem, rfl⟩, (hscope scope).mpr hmatch⟩

theorem scopeMatches_iff (event : TimelineEvent) (readScope : TimelineLedgerReadScope) :
    scopeMatches event readScope.scopes = true ↔
      event.workspaceId = readScope.workspaceId ∧ InScope event readScope.scopes := by
  simp only [scopeMatches, List.any_eq_true, Bool.and_eq_true, decide_eq_true_eq, Bool.or_eq_true,
    List.isEmpty_iff, InScope]
  constructor
  · rintro ⟨scope, hmem, ⟨hworkspace, hcluster⟩, hnamespaces⟩
    exact ⟨hworkspace.trans (readScope.workspace scope hmem), scope, hmem, hcluster, hnamespaces⟩
  · rintro ⟨hworkspace, scope, hmem, hcluster, hnamespaces⟩
    exact ⟨scope, hmem, ⟨hworkspace.trans (readScope.workspace scope hmem).symm, hcluster⟩,
      hnamespaces⟩

theorem holds_sourceGrant {row : LedgerRow} {source : TimelineSource} {column : Option String}
    {ids : List String} :
    (∃ t ∈ sourceGrant row source column ids, Holds t) ↔
      row.source = source ∧ ∃ id ∈ ids, column = some id := by
  by_cases hempty : ids = []
  · simp [sourceGrant, hempty]
  · simp [sourceGrant, hempty]

theorem holds_sourceAuthorization (event : TimelineEvent) (readScope : TimelineLedgerReadScope) :
    Holds (sourceAuthorizationSqlPredicate (eventValues event) readScope) ↔
      sourceIsAuthorized event readScope = true := by
  have happlication : fieldText (eventValues event).subject ["application_id"] =
      event.subject.applicationId := fieldText_applicationId event.subject
  simp only [sourceAuthorizationSqlPredicate, holds_any, List.mem_append, or_and_right, exists_or,
    holds_sourceGrant, happlication]
  cases hsource : event.source <;>
    simp [sourceIsAuthorized, eventValues, hsource, Option.any_eq_true, and_comm]

theorem isWithinSnapshotWindow_iff (event : TimelineEvent) (identity : TimelineReplayIdentity) :
    isWithinSnapshotWindow event identity = true ↔
      event.zoned = true ∧ InWindow identity .snapshot now event.occurredAt := by
  simp [isWithinSnapshotWindow, InWindow]

theorem isWithinStreamWindow_iff (event : TimelineEvent) (identity : TimelineReplayIdentity) :
    isWithinStreamWindow event identity now = true ↔
      event.zoned = true ∧ InWindow identity .stream now event.occurredAt := by
  simp only [isWithinStreamWindow, InWindow, reduceCtorEq, false_or]
  cases hzoned : event.zoned with
  | false => simp
  | true =>
    by_cases hmode : identity.mode = .frozen
    · simp [hmode]
    · simp [hmode]

theorem matchesFilters_iff (event : TimelineEvent) (identity : TimelineReplayIdentity) :
    matchesFilters tables event identity = true ↔
      (identity.filters.activity = [] ∨ event.activity ∈ identity.filters.activity) ∧
        (identity.filters.kinds = [] ∨
          ∃ kind ∈ identity.filters.kinds, resourceKind event = some kind) ∧
        (identity.filters.includeDeleted = true ∨ event.eventType ≠ .delete) ∧
        (identity.filters.search = "" ∨
          searchMatches tables event identity.filters.search = true) := by
  simp only [matchesFilters]
  grind

theorem holds_pinMembership (event : TimelineEvent) (membership : TimelinePinMembership) :
    Holds (pinMembershipSqlPredicate (eventValues event) (some membership)) ↔
      (∃ ref ∈ event.resource, (event.clusterId, ref.uid) ∈ membership.resourceIdentities) ∨
        ∃ id ∈ membership.applicationIds, event.subject.applicationId = some id := by
  have happlication : fieldText (eventValues event).subject ["application_id"] =
      event.subject.applicationId := fieldText_applicationId event.subject
  have hpins : (∃ t ∈ membership.resourceIdentities.map (fun pin =>
        both (known ((eventValues event).clusterId = pin.1))
          (either (eq (fieldText (eventValues event).resource ["uid"]) pin.2)
            (eq (fieldText (eventValues event).subject ["resource", "uid"]) pin.2))), Holds t) ↔
      ∃ ref ∈ event.resource, (event.clusterId, ref.uid) ∈ membership.resourceIdentities := by
    simp only [List.mem_map, exists_exists_and_eq_and, holds_both, holds_known,
      decide_eq_true_eq, holds_either, holds_eq, fieldText_uid]
    constructor
    · rintro ⟨pin, hpin, hcluster, ref, href, huid⟩
      refine ⟨ref, href, ?_⟩
      rw [huid, show event.clusterId = pin.1 from hcluster]
      exact hpin
    · rintro ⟨ref, href, hmem⟩
      exact ⟨_, hmem, rfl, ref, href, rfl⟩
  have hids : (∃ t ∈ (if membership.applicationIds.isEmpty = true then []
        else [isIn (fieldText (eventValues event).subject ["application_id"])
          membership.applicationIds]), Holds t) ↔
      ∃ id ∈ membership.applicationIds, event.subject.applicationId = some id := by
    rw [happlication]
    by_cases hempty : membership.applicationIds = []
    · simp [hempty]
    · simp [hempty]
  simp only [pinMembershipSqlPredicate, holds_any, List.mem_append, or_and_right, exists_or]
  exact or_congr hpins hids

theorem matchesPins_iff (event : TimelineEvent) (identity : TimelineReplayIdentity)
    (membership : Option TimelinePinMembership) :
    matchesPins event identity membership = true ↔
      (identity.filters.pinnedOnly = true →
        Holds (pinMembershipSqlPredicate (eventValues event) membership)) := by
  cases hpinned : identity.filters.pinnedOnly with
  | false => simp [matchesPins, hpinned]
  | true =>
    cases membership with
    | none => simp [matchesPins, hpinned, pinMembershipSqlPredicate]
    | some membership =>
      -- the resource of a resource subject is the resource of the event
      have hresource : event.resource.or event.subject.ref = event.resource := by
        obtain ⟨ref, hsubject, hresource⟩ | ⟨_, _, _, _, _, _, hsubject, -⟩ | ⟨_, _, hsubject⟩ |
          ⟨_, _, _, hsubject⟩ := event.shape
        · simp [hsubject, hresource, TimelineSubject.ref]
        · simp [hsubject, TimelineSubject.ref]
        · simp [hsubject, TimelineSubject.ref]
        · simp [hsubject, TimelineSubject.ref]
      simp only [matchesPins, hpinned, Bool.not_true, Bool.false_eq_true, if_false, hresource,
        holds_pinMembership]
      simp [Option.any_eq_true, and_comm]

/-! ## The two sides -/

/-- **The condition** asks what the query asks, and searches character by character. -/
theorem holds_sqlPredicate (event : TimelineEvent) :
    Holds (p.sqlPredicate tables (eventValues event) phase now) ↔
      Admits p phase now event ∧ (p.replayIdentity.filters.search = "" ∨
        ilikeMatches tables event p.replayIdentity.filters.search = true) := by
  have hsearch : Holds (any ((searchColumns (eventValues event)).map
      (ilike tables p.replayIdentity.filters.search))) ↔
      ilikeMatches tables event p.replayIdentity.filters.search = true := by
    simp only [holds_any, List.mem_map, exists_exists_and_eq_and, ilike, holds_ofColumn,
      ilikeMatches, List.any_eq_true, Option.mem_def]
    constructor
    · rintro ⟨column, hmem, value, rfl, hfound⟩
      exact ⟨value, (mem_searchColumns event value).mp hmem, hfound⟩
    · rintro ⟨value, hmem, hfound⟩
      exact ⟨some value, (mem_searchColumns event value).mpr hmem, value, rfl, hfound⟩
  have hlist : ∀ {c : Prop} [Decidable c] {t : SqlTruth},
      (∀ u ∈ (if c then [] else [t]), Holds u) ↔ c ∨ Holds t := by
    intro c _ t
    by_cases hc : c
    · simp [hc]
    · simp [hc]
  have hpins : (∀ u ∈ (if p.replayIdentity.filters.pinnedOnly = true then
        [pinMembershipSqlPredicate (eventValues event) p.pinMembership] else []), Holds u) ↔
      matchesPins event p.replayIdentity p.pinMembership = true := by
    rw [matchesPins_iff]
    cases p.replayIdentity.filters.pinnedOnly <;> simp
  have hwindow : (∀ u ∈ (if (decide (phase = .snapshot) ||
          decide (p.replayIdentity.mode = .frozen)) = true then
        [known (event.occurredAt < (fromDatetime p.replayIdentity.window.toMs : ℤ))]
      else [known (event.occurredAt ≤ now)]), Holds u) ↔
      if phase = .snapshot ∨ p.replayIdentity.mode = .frozen then
        event.occurredAt < (fromDatetime p.replayIdentity.window.toMs : ℤ)
      else event.occurredAt ≤ now := by
    simp only [Bool.or_eq_true, decide_eq_true_eq]
    split
    · simp only [List.forall_mem_singleton, holds_known, decide_eq_true_eq]
    · simp only [List.forall_mem_singleton, holds_known, decide_eq_true_eq]
  have hactivity : (isIn (some (eventValues event).activity)
      p.replayIdentity.filters.activity).Holds ↔
      event.activity ∈ p.replayIdentity.filters.activity := by
    simp [eventValues]
  have hdeleted : (eventValues event).eventType = event.eventType := rfl
  have htime : (eventValues event).occurredAt = event.occurredAt := rfl
  simp only [EvidencePredicate.sqlPredicate, holds_all, List.forall_mem_append, hlist, hpins,
    hsearch, hwindow, hactivity, hdeleted, htime, List.forall_mem_cons, holds_scopeSqlPredicate,
    holds_sourceAuthorization, resourceKindSql_eventValues, holds_isIn, holds_known,
    decide_eq_true_eq, List.isEmpty_iff, List.not_mem_nil, false_imp_iff, implies_true, and_true]
  constructor
  · rintro ⟨⟨⟨⟨⟨⟨⟨hscope, hsource, hfrom⟩, hto⟩, hactivity⟩, hkinds⟩, hdeleted⟩, hsearch⟩, hpins⟩
    exact ⟨⟨hscope, hsource, ⟨hfrom, hto⟩, hactivity, hkinds, hdeleted, hpins⟩, hsearch⟩
  · rintro ⟨⟨hscope, hsource, ⟨hfrom, hto⟩, hactivity, hkinds, hdeleted, hpins⟩, hsearch⟩
    exact ⟨⟨⟨⟨⟨⟨⟨hscope, hsource, hfrom⟩, hto⟩, hactivity⟩, hkinds⟩, hdeleted⟩, hsearch⟩, hpins⟩

/-- **The guard** asks what the query asks, for the workspace and for a time zone, and searches
casefolded texts. -/
theorem matchesPhase_iff (event : TimelineEvent) :
    p.matchesPhase tables event phase now = true ↔
      Inside p event ∧ Admits p phase now event ∧ (p.replayIdentity.filters.search = "" ∨
        searchMatches tables event p.replayIdentity.filters.search = true) := by
  have hparts : p.matchesPhase tables event phase now = true ↔
      scopeMatches event p.readScope.scopes = true ∧ sourceIsAuthorized event p.readScope = true ∧
        (event.zoned = true ∧ InWindow p.replayIdentity phase now event.occurredAt) ∧
        matchesFilters tables event p.replayIdentity = true ∧
        matchesPins event p.replayIdentity p.pinMembership = true := by
    cases phase with
    | snapshot =>
      simp only [EvidencePredicate.matchesPhase, EvidencePredicate.matchesSnapshot,
        Bool.and_eq_true, @isWithinSnapshotWindow_iff now, and_assoc]
    | stream =>
      simp only [EvidencePredicate.matchesPhase, EvidencePredicate.matchesStream,
        Bool.and_eq_true, isWithinStreamWindow_iff, and_assoc]
  rw [hparts, scopeMatches_iff, matchesFilters_iff]
  constructor
  · rintro ⟨⟨hworkspace, hscope⟩, hsource, ⟨hzoned, hwindow⟩,
      ⟨hactivity, hkinds, hdeleted, hsearch⟩, hpins⟩
    exact ⟨⟨hworkspace, hzoned⟩, ⟨hscope, hsource, hwindow, hactivity, hkinds, hdeleted, hpins⟩,
      hsearch⟩
  · rintro ⟨⟨hworkspace, hzoned⟩, hadmits, hsearch⟩
    exact ⟨⟨hworkspace, hadmits.scope⟩, hadmits.source, ⟨hzoned, hadmits.window⟩,
      ⟨hadmits.activity, hadmits.kinds, hadmits.deleted, hsearch⟩, hadmits.pins⟩

/-! ## When they agree -/

/-- The search finds the same, whichever way it is done. -/
def FindsAlike (tables : CaseTables) (event : TimelineEvent) (search : String) : Prop :=
  search = "" ∨ searchMatches tables event search = ilikeMatches tables event search

/-- Characters that fold one by one, and that casefolding and `ILIKE` identify alike. -/
def CaseTables.Plain (tables : CaseTables) (c : Char → Prop) : Prop :=
  ∃ fold : Char → Char, ∀ a, c a → tables.casefold a = [fold a] ∧
    ∀ b, c b → (fold a = fold b ↔ tables.lower a = tables.lower b)

theorem findsAlike_of_plain {c : Char → Prop} (hplain : tables.Plain c) {search : String}
    (hsearch : ∀ a ∈ search.toList, c a)
    (hvalues : ∀ value ∈ searchValues event, ∀ a ∈ value.toList, c a) :
    FindsAlike tables event search := by
  obtain ⟨fold, hfold⟩ := hplain
  have hfolded : ∀ s : String, (∀ a ∈ s.toList, c a) → tables.casefolded s = s.toList.map fold := by
    intro s hs
    rw [CaseTables.casefolded, List.map_eq_flatMap]
    exact List.flatMap_congr fun a ha => (hfold a (hs a ha)).1
  have hfound : ∀ value ∈ searchValues event,
      PyText.isIn (tables.casefolded search) (tables.casefolded value) =
        PyText.isIn (tables.lowered search) (tables.lowered value) := by
    intro value hvalue
    rw [hfolded search hsearch, hfolded value (hvalues value hvalue)]
    exact PyText.isIn_map_congr fun a ha b hb =>
      (hfold a (hsearch a ha)).2 b (hvalues value hvalue b hb)
  rw [FindsAlike, searchMatches, ilikeMatches, Bool.eq_iff_iff, List.any_eq_true,
    List.any_eq_true]
  exact .inr (exists_congr fun value => and_congr_right fun hvalue => by rw [hfound value hvalue])

/-- **What the two sides differ in** makes no difference: an event inside is found alike, and an
event outside is one that the search of the condition leaves out. -/
def Undivided (tables : CaseTables) (p : EvidencePredicate) (event : TimelineEvent) : Prop :=
  let search := p.replayIdentity.filters.search
  (Inside p event → FindsAlike tables event search) ∧
    (¬Inside p event → search ≠ "" ∧ ilikeMatches tables event search = false)

/-- **The guard accepts an event exactly when its row satisfies the condition**, if and only if the
query does not ask for the event, or what the sides differ in makes no difference. -/
theorem matchesPhase_agrees_iff (tables : CaseTables) (p : EvidencePredicate) (phase : ReadPhase)
    (now : ℤ) (event : TimelineEvent) :
    (p.matchesPhase tables event phase now = true ↔
        Holds (p.sqlPredicate tables (eventValues event) phase now)) ↔
      (Admits p phase now event → Undivided tables p event) := by
  rw [matchesPhase_iff, holds_sqlPredicate, Undivided, FindsAlike]
  by_cases hadmits : Admits p phase now event
  · by_cases hinside : Inside p event
    · simp only [hadmits, hinside, true_and, true_imp_iff, not_true_eq_false, false_imp_iff,
        and_true]
      by_cases hsearch : p.replayIdentity.filters.search = ""
      · simp [hsearch]
      · simp only [hsearch, false_or]
        exact Bool.eq_iff_iff.symm
    · simp only [hadmits, hinside, false_and, true_and, true_imp_iff, false_iff, not_or,
        Bool.not_eq_true, false_imp_iff, not_false_eq_true]
  · simp [hadmits]

/-! ## A sharp s -/

/-- ASCII letters and `ß`, which casefolding makes `ss`. -/
def sharpTables : CaseTables where
  casefold c := if c = 'ß' then ['s', 's'] else [c.toLower]
  lower := Char.toLower

/-- An incident, by its title. -/
def incidentTitled (title : String) : TimelineEvent where
  eventId := "event-1"
  source := .incident
  sourceKey := "incident:1"
  nativeId := "1"
  activity := .unhealthy
  occurredAt := 5_000_000
  zoned := true
  workspaceId := "ws"
  clusterId := "cluster"
  subject := .incident "incident-1" none
  resource := none
  eventType := .incident
  title := title
  application h := by simp at h
  exact _ h := by cases h
  locator _ _ _ _ _ _ _ := rfl

/-- A search in the cluster of the incident. -/
def searching (search : String) : EvidencePredicate where
  readScope :=
    { workspaceId := "ws"
      scopes := [⟨"ws", "cluster", []⟩]
      incidentClusterIds := ["cluster"]
      scopes_ne := by simp
      workspace := by simp }
  replayIdentity :=
    { window := ⟨0, 10_000, by decide⟩
      mode := .live
      filters := { search := search } }
  pinMembership := none
  pinned h := by cases h

/-- The stream shows an incident that the ledger does not read back. -/
theorem guard_finds_sharp_s :
    (searching "strasse").matchesPhase sharpTables (incidentTitled "Straße down") .stream
        6_000_000 = true ∧
      ¬Holds ((searching "strasse").sqlPredicate sharpTables
        (eventValues (incidentTitled "Straße down")) .stream 6_000_000) := by
  decide +kernel

end Opsia.Timeline.Evidence
