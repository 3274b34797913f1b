import Mathlib.Data.Prod.Lex
import Opsia.Inventory.KubernetesEvents
import Opsia.Inventory.Projection
import Opsia.Timeline.Append

/-!
# Timeline facts of a snapshot

The Timeline events that `save_inventory_snapshot_mutation` derives from one snapshot, by
comparing its rows with the live rows and its Event capture with the latest stored one, and
their append to the ledger in the same transaction (`domains/inventory/ingest.py`).

The source key of an inventory fact starts with a fingerprint of the row and ends, after
`correlate_inventory_timeline_events`, with the snapshot, the revision and the version.
-/

namespace Opsia.Inventory

/-- An encoding with what the source keys of facts are made of. -/
structure FactEncoding (κ χ : Type) : Type extends Encoding κ χ where
  literals : Literals
  /-- the text of an inventory key -/
  keyText : κ → String
  /-- `hashlib.sha256(json.dumps(fields, …)).hexdigest()` of the semantic fields -/
  fingerprint : SnapshotResource → String
  uuid_text : ∀ n, PyText.strip (uuid n) ≠ ""

theorem Encoding.strip_plain (n : ℕ) : PyText.strip (Encoding.plain.uuid (n + 1)) ≠ "" := by
  have hzero : PyText.isSpace '0' = false := by decide
  have hkept : ∀ m, (List.replicate m '0').dropWhile PyText.isSpace = List.replicate m '0' := by
    intro m
    cases m with
    | zero => rfl
    | succ m => rw [List.replicate_succ, List.dropWhile_cons_of_neg (by simp [hzero])]
  rw [PyText.strip, Encoding.plain, String.toList_ofList, hkept, List.reverse_replicate, hkept,
    List.reverse_replicate]
  intro h
  simpa using congrArg String.toList h

/-- An encoding that digests nothing, to run the model with. -/
def FactEncoding.plain : FactEncoding ResourceIdentity (Meaningful ResourceIdentity) where
  toEncoding :=
    { Encoding.plain with
      uuid := fun n => Encoding.plain.uuid (n + 1)
      uuid_injective := fun _ _ h => Nat.succ_injective (Encoding.plain.uuid_injective h) }
  literals := Literals.plain
  keyText identity := PyText.join '/' [identity.clusterId, identity.resourceType, identity.name]
  fingerprint resource := PyText.join '/' [resource.name, resource.status]
  uuid_text := Encoding.strip_plain

variable {κ χ : Type}

/-! ## Changes of a resource -/

inductive InventoryTimelineChange : Type where
  | add
  | update
  | delete
  deriving DecidableEq, Repr

/-- The word of a change in a source key. -/
def InventoryTimelineChange.text : InventoryTimelineChange → String
  | .add => "add"
  | .update => "update"
  | .delete => "delete"

/-- The word of a change in a title. -/
def InventoryTimelineChange.verb : InventoryTimelineChange → String
  | .add => "added"
  | .update => "updated"
  | .delete => "deleted"

def isTimelineInventoryResource (row : ResourceRecord κ) : Bool :=
  row.resourceType ∉ ["health", "usage", "event"]

/-- The fields of `INVENTORY_TIMELINE_SEMANTIC_FIELDS`, without the collection time in the
summary. -/
def semanticFields (row : ResourceRecord κ) : SnapshotResource :=
  { row.toSnapshotResource with summary := row.summary.pop "collected_at" }

/-- `==` of two dictionaries of texts. -/
def sameTexts (xs ys : List (String × String)) : Bool :=
  xs.length = ys.length && xs.all fun entry => ys.lookup entry.1 = some entry.2

def inventoryResourceChanged (previous current : ResourceRecord κ) : Bool :=
  let a := semanticFields previous
  let b := semanticFields current
  a.resourceType ≠ b.resourceType || a.apiVersion ≠ b.apiVersion || a.kind ≠ b.kind ||
    a.namespaceName ≠ b.namespaceName || a.name ≠ b.name || a.uid ≠ b.uid ||
    a.resourceVersion ≠ b.resourceVersion || a.status ≠ b.status || a.health ≠ b.health ||
    !sameTexts a.labels b.labels || !sameTexts a.annotations b.annotations ||
    !a.summary.same b.summary || !a.raw.same b.raw

/-- What a complete snapshot says about one key: the row it had and the row it has. -/
def changeOf? : (previous current : Option (ResourceRecord κ)) → Option InventoryTimelineChange
  | none, none => none
  | none, some _ => some .add
  | some _, none => some .delete
  | some previous, some current =>
    if inventoryResourceChanged previous current then some .update else none

/-! ## Facts -/

/-- `TimelineInventoryLocatorSubject`. -/
structure InventoryLocator : Type where
  inventoryKey : String
  apiGroup : String
  version : String
  resourceKind : String
  namespaceName : Option String
  name : String
  deriving DecidableEq, Repr

/-- The subject of an inventory fact; an exact resource is also the fact's resource. -/
inductive TimelineSubject : Type where
  | resource (ref : ResourceRef)
  | inventoryLocator (locator : InventoryLocator)
  deriving DecidableEq, Repr

/-- The metadata that `correlate_inventory_timeline_events` adds. -/
structure InventoryCorrelation : Type where
  sourceSnapshotId : String
  revisionId : ℕ
  versionId : ℕ
  deriving DecidableEq, Repr

/-- The columns of a Timeline event of the source `inventory` that vary. -/
structure InventoryFact (κ : Type) : Type where
  eventId : String
  nativeId : κ
  clusterId : String
  occurredAt : ℤ
  subject : TimelineSubject
  eventType : InventoryTimelineChange
  title : String
  correlation : Option InventoryCorrelation
  deriving DecidableEq, Repr

/-- A fact of either source. -/
inductive TimelineFact (κ : Type) : Type where
  | inventory (fact : InventoryFact κ)
  | kubernetesEvent (fact : KubernetesEventFact)
  deriving DecidableEq, Repr

/-- An event with a fact. -/
abbrev FactEvent (κ : Type) : Type := Timeline.TimelineEvent (TimelineFact κ)

variable (encoding : FactEncoding κ χ)

def inventoryTimelineSourceKey (change : InventoryTimelineChange) (row : ResourceRecord κ) :
    String :=
  PyText.join ':' ["inventory", change.text, encoding.keyText row.inventoryKey,
    encoding.fingerprint (semanticFields row)]

/-- `split_api_version` of `domains/timeline/mapping.py`. -/
def splitApiVersion (apiVersion : String) : String × String :=
  splitGroupVersion (PyText.strip apiVersion)

/-- A text of a length that the contract allows. -/
def textWithin (least most : ℕ) (s : String) : Bool := least ≤ s.length && s.length ≤ most

/-- What the contract says about a subject. -/
def TimelineSubject.valid : TimelineSubject → Bool
  | .resource ref => ref.kind ≠ "" && ref.name ≠ "" && ref.uid ≠ ""
  | .inventoryLocator locator =>
    textWithin 1 512 locator.inventoryKey && textWithin 1 253 locator.resourceKind &&
      locator.namespaceName.all (textWithin 0 253) && textWithin 1 253 locator.name

/-- `inventory_change_timeline_event`, with the checks of the `TimelineEvent` it builds;
`none` when one of them raises. -/
def inventoryChangeTimelineEvent (workspaceId clusterId : String) (observedAt : ℤ)
    (change : InventoryTimelineChange) (row : ResourceRecord κ) : Option (FactEvent κ) :=
  let keyText := encoding.keyText row.inventoryKey
  let kind :=
    if row.kind ≠ "" then row.kind
    else if row.resourceType ≠ "" then row.resourceType
    else "Resource"
  let name := if row.name ≠ "" then row.name else keyText
  let sourceKey := inventoryTimelineSourceKey encoding change row
  let title := kind ++ " " ++ name ++ " " ++ change.verb
  let (apiGroup, version) := splitApiVersion row.apiVersion
  let uid := PyText.strip (row.uid.getD "")
  let subject : TimelineSubject :=
    if uid ≠ "" then .resource ⟨apiGroup, version, kind, row.namespaceName, name, uid⟩
    else .inventoryLocator ⟨keyText, apiGroup, version, kind, row.namespaceName, name⟩
  if workspaceId ≠ "" && clusterId ≠ "" && textWithin 1 512 sourceKey &&
      textWithin 1 1024 keyText && textWithin 1 1000 title && subject.valid then
    some
      { workspaceId := workspaceId
        sourceKey := sourceKey
        fact := .inventory
          { eventId := sourceKey
            nativeId := row.inventoryKey
            clusterId := clusterId
            occurredAt := observedAt
            subject := subject
            eventType := change
            title := title
            correlation := none } }
  else none

variable [DecidableEq κ]

/-- The rows by their keys, in the order of the keys. -/
def sortedByKey (rows : List (ResourceRecord κ)) : List (ResourceRecord κ) :=
  rows.insertionSort fun a b => encoding.keyText a.inventoryKey ≤ encoding.keyText b.inventoryKey

/-- The rows of a cut that enter the timeline. -/
def timelineRows (rows : List (ResourceRecord κ)) : InventoryRows κ :=
  dedupeInventoryRows (rows.filter isTimelineInventoryResource)

/-- `changes`: the rows that are new or changed, and then those that are gone. -/
def inventoryChanges (previousRows currentRows : List (ResourceRecord κ)) :
    List (InventoryTimelineChange × ResourceRecord κ) :=
  let previousByKey := timelineRows previousRows
  let currentByKey := timelineRows currentRows
  (sortedByKey encoding currentByKey.rows).filterMap (fun current =>
    (changeOf? (previousByKey.find? current.inventoryKey) (some current)).map fun change =>
      (change, current)) ++
  (sortedByKey encoding previousByKey.rows).filterMap fun previous =>
    if (currentByKey.find? previous.inventoryKey).isSome then none
    else some (.delete, previous)

/-- `inventory_events`: an incomplete snapshot establishes none. -/
def inventoryEventsOf (workspaceId clusterId : String) (observedAt : ℤ)
    (previousRows currentRows : List (ResourceRecord κ)) (resourcesComplete : Bool) :
    Option (List (FactEvent κ)) :=
  if resourcesComplete then
    (inventoryChanges encoding previousRows currentRows).mapM fun entry =>
      inventoryChangeTimelineEvent encoding workspaceId clusterId observedAt entry.1 entry.2
  else some []

/-- `inventory_timeline_events`; `none` when an event breaks its contract. -/
def inventoryTimelineEvents (workspaceId clusterId : String) (observedAt : ℤ)
    (previousRows currentRows : List (ResourceRecord κ)) (resourcesComplete : Bool)
    (previousEventBatch : Option KubernetesEventFactBatch)
    (currentEventBatch : KubernetesEventFactBatch) : Option (List (FactEvent κ)) := do
  let inventoryEvents ← inventoryEventsOf encoding workspaceId clusterId observedAt previousRows
    currentRows resourcesComplete
  let eventFacts ← kubernetesEventFactTimelineEvents encoding.literals clusterId observedAt
    previousEventBatch currentEventBatch
  pure (inventoryEvents ++
    eventFacts.map fun fact => ⟨workspaceId, fact.eventId, .kubernetesEvent fact⟩)

/-! ## Correlation -/

variable [DecidableEq χ]

/-- `version_ids_by_inventory_key`: the versions that a snapshot inserts, over those that
were open. -/
def versionIdsByInventoryKey (tables : InventoryTables κ χ) (call : SaveCall) (key : κ) :
    Option ℕ :=
  let diff := computeProjectionDiff encoding.toEncoding tables.versions
    (writtenResources encoding.toEncoding tables call)
    (projectionInput encoding.toEncoding tables call)
  let inserted := stamp (tables.revisionSeq + 1) tables.versionSeq diff.desiredRows
  let active := activeRows tables.versions call.workspaceId call.clusterId
  ((inserted.find? fun version => version.inventoryKey = key).or (active.find? key)).map
    fun version => version.versionId

/-- The source key of a correlated fact. -/
def correlatedSourceKey (sourceKey snapshotId : String) (revisionId versionId : ℕ) : String :=
  sourceKey ++ ":snapshot:" ++ snapshotId ++ ":revision:" ++ toString revisionId ++
    ":version:" ++ toString versionId

/-- `correlate_inventory_timeline_events`, of one event; `none` when it raises. -/
def correlateTimelineEvent (snapshotId : String) (revisionId : ℕ) (versionIds : κ → Option ℕ)
    (event : FactEvent κ) : Option (FactEvent κ) :=
  match event.fact with
  | .kubernetesEvent _ => some event
  | .inventory fact =>
    match versionIds fact.nativeId with
    | none => none
    | some versionId =>
      if versionId < 1 then none
      else
        let sourceKey := correlatedSourceKey event.sourceKey snapshotId revisionId versionId
        some
          { event with
            sourceKey := sourceKey
            fact := .inventory
              { fact with
                eventId := sourceKey
                correlation := some ⟨snapshotId, revisionId, versionId⟩ } }

def correlateInventoryTimelineEvents (snapshotId : String) (revisionId : ℕ)
    (versionIds : κ → Option ℕ) (events : List (FactEvent κ)) : Option (List (FactEvent κ)) :=
  let stripped := PyText.strip snapshotId
  if stripped = "" || revisionId < 1 then none
  else events.mapM (correlateTimelineEvent stripped revisionId versionIds)

/-! ## Stored captures -/

/-- A row of `cluster_inventory_snapshots`, as far as Event captures are read from it. The
column `event_capture` keeps a capture that has an observation time, and decodes to it
again. -/
structure CaptureRow : Type where
  snapshotId : String
  workspaceId : String
  clusterId : String
  status : String
  collectedAt : ℤ
  createdAt : ℤ
  eventCapture : Option KubernetesEventCapture
  summary : Json

/-- The row is a candidate with this time of its capture. -/
def CaptureRow.candidateAt? (workspaceId clusterId : String) (row : CaptureRow) :
    Option UtcTime :=
  if row.workspaceId = workspaceId && row.clusterId = clusterId && row.status ≠ "ignored_stale"
  then row.eventCapture.bind fun capture => capture.observedAt
  else none

/-- The columns that candidates are ordered by. -/
def CaptureRow.position (row : CaptureRow) (observedAt : UtcTime) : UtcTime ×ₗ ℤ ×ₗ ℤ ×ₗ String :=
  toLex (observedAt, toLex (row.collectedAt, toLex (row.createdAt, row.snapshotId)))

def kubernetesEventCaptureCandidateLimit : ℕ := 128

/-- `candidate_statement`: the latest captures of a cluster. -/
def captureCandidates (captures : List CaptureRow) (workspaceId clusterId : String) :
    List CaptureRow :=
  let candidates := captures.filterMap fun row =>
    (row.candidateAt? workspaceId clusterId).map fun observedAt => (row.position observedAt, row)
  ((candidates.insertionSort fun a b => b.1 ≤ a.1).take
    kubernetesEventCaptureCandidateLimit).map Prod.snd

def latestCompleteKubernetesEventBatch (literals : Literals) (captures : List CaptureRow)
    (workspaceId clusterId : String) : Option KubernetesEventFactBatch := do
  let candidate ← (captureCandidates captures workspaceId clusterId).find? fun row =>
    row.eventCapture.any KubernetesEventCapture.authoritative
  let snapshot ← captures.find? fun row =>
    row.snapshotId = candidate.snapshotId && row.workspaceId = workspaceId &&
      row.clusterId = clusterId
  let batch := KubernetesEventFactBatch.fromSnapshotSummary literals snapshot.summary
  if batch.capture.authoritative then some batch else none

/-! ## Saving a snapshot with its facts -/

/-- A call, with what the payload says besides its resources. -/
structure IngestCall : Type extends SaveCall where
  /-- `payload.get("status") or "accepted"` -/
  status : String
  /-- the summary of the payload, where its Event capture is read -/
  eventSummary : Json

/-- The tables that a snapshot writes. -/
structure IngestState (κ χ : Type) : Type where
  tables : InventoryTables κ χ
  captures : List CaptureRow
  ledger : Timeline.TimelineLedger (TimelineFact κ)

/-- Empty tables. -/
def IngestState.empty : IngestState κ χ := ⟨InventoryTables.empty, [], Timeline.TimelineLedger.empty⟩

/-- The Event capture of a call. -/
def IngestCall.eventBatch (call : IngestCall) : KubernetesEventFactBatch :=
  KubernetesEventFactBatch.fromSnapshotSummary encoding.literals call.eventSummary

/-- The row of a call in `cluster_inventory_snapshots`. -/
def captureRow (s : IngestState κ χ) (call : IngestCall) (status : String) : CaptureRow where
  snapshotId := snapshotIdOf encoding.toEncoding s.tables
  workspaceId := call.workspaceId
  clusterId := call.clusterId
  status := status
  collectedAt := call.observedAt
  createdAt := call.now
  eventCapture :=
    let capture := (call.eventBatch encoding).capture
    if capture.observedAt.isSome then some capture else none
  summary := call.eventSummary

/-- The capture that a snapshot is compared with. -/
def previousEventBatch (s : IngestState κ χ) (call : IngestCall) :
    Option KubernetesEventFactBatch :=
  if (call.eventBatch encoding).capture.authoritative then
    latestCompleteKubernetesEventBatch encoding.literals s.captures call.workspaceId
      call.clusterId
  else none

/-- The events of an accepted snapshot before they are correlated. -/
def derivedEvents (s : IngestState κ χ) (call : IngestCall) : Option (List (FactEvent κ)) :=
  inventoryTimelineEvents encoding call.workspaceId call.clusterId call.observedAt
    (previousRows s.tables call.toSaveCall)
    (preservedRows encoding.toEncoding s.tables call.toSaveCall).rows call.resourcesComplete
    (previousEventBatch encoding s call) (call.eventBatch encoding)

/-- The events of an accepted snapshot. -/
def snapshotEvents (s : IngestState κ χ) (call : IngestCall) : Option (List (FactEvent κ)) := do
  let events ← derivedEvents encoding s call
  correlateInventoryTimelineEvents (snapshotIdOf encoding.toEncoding s.tables)
    (s.tables.revisionSeq + 1) (versionIdsByInventoryKey encoding s.tables call.toSaveCall) events

/-- `_write_inventory_snapshot`: the mutation and the append of its events; `none` when it
raises, and the transaction is rolled back. -/
def writeInventorySnapshot (s : IngestState κ χ) (call : IngestCall) :
    Option (IngestState κ χ × MutationResult) :=
  let (tables, result) :=
    saveInventorySnapshotMutation encoding.toEncoding s.tables call.toSaveCall
  if isStale s.tables call.toSaveCall then
    some ({ s with
      tables := tables
      captures := s.captures ++ [captureRow encoding s call "ignored_stale"] }, result)
  else
    (snapshotEvents encoding s call).map fun events =>
      ({ tables := tables
         captures := s.captures ++ [captureRow encoding s call call.status]
         ledger := s.ledger.appendTimelineEvents call.workspaceId events }, result)

/-- One call. -/
def ingest (s : IngestState κ χ) (call : IngestCall) : IngestState κ χ :=
  ((writeInventorySnapshot encoding s call).map Prod.fst).getD s

end Opsia.Inventory
