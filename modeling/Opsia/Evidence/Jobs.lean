import Opsia.Lib.Json
import Opsia.Lib.Table
import Opsia.Values

/-!
# Evidence jobs

The tables `evidence_jobs` and `evidence_windows` and their transactions, from
`domains/target/repository.py` and `domains/target/evidence_jobs.py`: queueing, leasing,
reporting, the janitor and the recording of a window's event.

`uuid.uuid4()` of a lease is drawn from the supply `nextId`. `func.now()` is the `now` of
a transaction and `datetime.now(UTC)` of the application server a separate `appNow`. The
rows that `SKIP LOCKED` passes over are an input.
-/

namespace Opsia.Evidence

/-! ## Provider results -/

def collectionStates : List String := ["completed", "partial", "unavailable", "not_queried"]

def collectionCountFields : List String :=
  ["query_count", "completed_query_count", "failed_query_count"]

/-- `value[:MAX_COLLECTION_REASON_CODE_LENGTH]`. -/
def clip (value : String) : String := String.ofList (value.toList.take 120)

/-- The literal is an integer that is not negative. -/
def isCount (literal : String) : Bool :=
  literal = "-0" || (literal ≠ "" && literal.toList.all fun c => '0' ≤ c && c ≤ '9')

/-- The count fields of a provider status. -/
def countFields (rawStatus : Json) : List (String × Json) :=
  collectionCountFields.filterMap fun field =>
    match rawStatus.get? field with
    | some (.num literal) => if isCount literal then some (field, .num literal) else none
    | _ => none

/-- The reason codes of a provider status. -/
def reasonCodes (rawStatus : Json) : List (String × Json) :=
  match rawStatus.get? "reason_codes" with
  | some (.arr codes) =>
    [("reason_codes", .arr ((codes.take 8).filterMap fun code =>
      match code with
      | .str reason => if reason ≠ "" then some (.str (clip reason)) else none
      | _ => none))]
  | _ => []

/-- The bounded fields of a provider status; none unless its state is known. -/
def boundedStatus (rawStatus : Json) : List (String × Json) :=
  match rawStatus.get? "status" with
  | some (.str state) =>
    if state ∈ collectionStates then
      ("status", .str state) ::
        (match rawStatus.get? "source" with
          | some (.str source) => if source ≠ "" then [("source", .str (clip source))] else []
          | _ => []) ++
        countFields rawStatus ++ reasonCodes rawStatus
    else []
  | _ => []

def normalizedProviderCollectionStatus (providerKey : String) (result : Json) :
    List (String × Json) :=
  match result.get? "collection_status" with
  | none => []
  | some collectionStatus =>
    match collectionStatus.get? "providers" with
    | none => []
    | some providers =>
      match providers.get? providerKey with
      | none => []
      | some rawStatus => boundedStatus rawStatus

def normalizeEvidenceProviderResult (providerKey : String) (result : Json) : Json :=
  let bucket := (result.get? providerKey).getD result
  let status := normalizedProviderCollectionStatus providerKey result
  if status.isEmpty then .obj [(providerKey, bucket)]
  else
    .obj ([(providerKey, bucket)].filter (fun field => field.1 ≠ "collection_status") ++
      [("collection_status", .obj [("providers", .obj [(providerKey, .obj status)])])])

/-! ## Tables -/

/-- The status of an evidence job. -/
inductive EvidenceJobStatus : Type where
  | queued
  | leased
  | completed
  | failed
  deriving DecidableEq, Repr

/-- `TERMINAL_EVIDENCE_JOB_STATUSES`. -/
def EvidenceJobStatus.isTerminal : EvidenceJobStatus → Bool
  | .completed | .failed => true
  | .queued | .leased => false

/-- A lease as its holder knows it: the identifier and the agent. -/
abbrev Lease : Type := Uuid × String

/-- A row of `evidence_jobs`; `lease_id` and `agent_id` are written together. -/
structure EvidenceJob : Type where
  jobId : String
  evidenceKey : String
  workspaceId : String
  clusterId : String
  sourceId : String
  providerKey : String
  windowStart : String
  policyGeneration : ℤ
  providerPolicy : Json
  status : EvidenceJobStatus
  lease : Option Lease
  leasedUntil : Option Timestamp
  attemptCount : ℕ
  maxAttempts : ℤ
  failurePolicy : String
  result : Option Json
  error : Option String
  createdAt : Timestamp
  deriving DecidableEq, Repr

/-- A row of `evidence_windows`. -/
structure EvidenceWindow : Type where
  evidenceKey : String
  workspaceId : String
  clusterId : String
  sourceId : String
  windowStart : String
  agentId : Option String
  eventId : String
  correlationId : String
  payload : Json
  deriving DecidableEq, Repr

/-- A staged event, with the evidence it was staged for. -/
structure StagedEvent : Type where
  eventId : String
  workspaceId : String
  evidenceKey : String
  payload : Json
  deriving DecidableEq, Repr

/-- The tables and the supply of lease identifiers. -/
structure Store : Type where
  jobs : Table EvidenceJob.jobId
  windows : Table EvidenceWindow.evidenceKey
  outbox : Table StagedEvent.eventId
  nextId : Uuid

/-- The empty store. -/
def Store.empty : Store := ⟨.empty, .empty, .empty, 0⟩

/-! ## Queueing -/

/-- The arguments of `queue_evidence_jobs`. -/
structure QueueRequest : Type where
  workspaceId : String
  clusterId : String
  sourceId : String
  windowStart : String
  providerKeys : List String
  failurePolicy : String
  maxAttempts : ℤ
  policyGeneration : ℤ
  providerPolicies : List (String × Json)
  deriving DecidableEq, Repr

def evidenceKey (workspaceId clusterId sourceId windowStart : String) : String :=
  ":".intercalate [workspaceId, clusterId, sourceId, windowStart]

def evidenceJobId (workspaceId clusterId sourceId windowStart providerKey : String) : String :=
  ":".intercalate [evidenceKey workspaceId clusterId sourceId windowStart, providerKey]

/-- The row that is queued for one provider. -/
def QueueRequest.job (request : QueueRequest) (now : Timestamp) (providerKey : String) :
    EvidenceJob where
  jobId := evidenceJobId request.workspaceId request.clusterId request.sourceId
    request.windowStart providerKey
  evidenceKey := evidenceKey request.workspaceId request.clusterId request.sourceId
    request.windowStart
  workspaceId := request.workspaceId
  clusterId := request.clusterId
  sourceId := request.sourceId
  providerKey := providerKey
  windowStart := request.windowStart
  policyGeneration := request.policyGeneration
  providerPolicy := (request.providerPolicies.lookup providerKey).getD (.obj [])
  status := .queued
  lease := none
  leasedUntil := none
  attemptCount := 0
  maxAttempts := request.maxAttempts
  failurePolicy := request.failurePolicy
  result := none
  error := none
  createdAt := now

/-- `INSERT … ON CONFLICT DO NOTHING RETURNING job_id` for one provider. -/
def QueueRequest.insert (request : QueueRequest) (now : Timestamp)
    (queued : List String × Table EvidenceJob.jobId) (providerKey : String) :
    List String × Table EvidenceJob.jobId :=
  match queued.2.insert? (request.job now providerKey) with
  | none => queued
  | some jobs => (queued.1 ++ [(request.job now providerKey).jobId], jobs)

/-- `queue_evidence_jobs`: the queued job ids, and the store. -/
def Store.queueEvidenceJobs (s : Store) (request : QueueRequest) (now : Timestamp) :
    List String × Store :=
  let queued := request.providerKeys.eraseDups.foldl (request.insert now) ([], s.jobs)
  (queued.1, { s with jobs := queued.2 })

/-! ## Leasing -/

/-- The condition `available` of `lease_evidence_job`, with its bound on the attempts. -/
def EvidenceJob.leasable (job : EvidenceJob) (now : Timestamp) : Bool :=
  (job.status = .queued || (job.status = .leased && job.leasedUntil.any fun until_ => until_ < now)) &&
    (job.attemptCount : ℤ) < job.maxAttempts

/-- The arguments of `lease_evidence_job`, the clocks, the rows that are locked, and which
of several oldest rows the database returns. -/
structure LeaseRequest : Type where
  workspaceId : String
  clusterId : String
  providerKey : String
  agentId : String
  leaseSeconds : ℤ
  now : Timestamp
  appNow : Timestamp
  locked : List String
  pick : ℕ
  deriving DecidableEq, Repr

/-- The rows that `lease_evidence_job` may take. -/
def Store.leaseCandidates (s : Store) (request : LeaseRequest) : List EvidenceJob :=
  s.jobs.rows.filter fun job =>
    job.workspaceId = request.workspaceId && job.clusterId = request.clusterId &&
      job.providerKey = request.providerKey && job.leasable request.now &&
      job.jobId ∉ request.locked

/-- `ORDER BY created_at LIMIT 1`: one of the oldest rows. -/
def oldest (jobs : List EvidenceJob) (pick : ℕ) : Option EvidenceJob :=
  let first := jobs.filter fun job => jobs.all fun other => job.createdAt ≤ other.createdAt
  first[pick]?.or first.head?

/-- The row after the lease. -/
def EvidenceJob.leasedTo (job : EvidenceJob) (lease : Lease) (leasedUntil : Timestamp) :
    EvidenceJob :=
  { job with
    status := .leased
    lease := some lease
    leasedUntil := some leasedUntil
    attemptCount := job.attemptCount + 1
    error := none }

@[simp] theorem EvidenceJob.jobId_leasedTo (job : EvidenceJob) (lease : Lease)
    (leasedUntil : Timestamp) : (job.leasedTo lease leasedUntil).jobId = job.jobId := rfl

/-- `lease_evidence_job`: the leased row, and the store. -/
def Store.leaseEvidenceJob (s : Store) (request : LeaseRequest) : Option EvidenceJob × Store :=
  match oldest (s.leaseCandidates request) request.pick with
  | none => (none, s)
  | some job =>
    let lease := (s.nextId, request.agentId)
    let leasedUntil := request.appNow + request.leaseSeconds
    (some (job.leasedTo lease leasedUntil),
      { s with
        jobs := s.jobs.modify job.jobId (fun row => row.leasedTo lease leasedUntil)
          fun row => row.jobId_leasedTo lease leasedUntil
        nextId := s.nextId + 1 })

/-! ## Reports -/

/-- The arguments of `complete_evidence_job`. -/
structure Report : Type where
  workspaceId : String
  clusterId : String
  jobId : String
  lease : Lease
  /-- the reported status is `failed` -/
  failed : Bool
  result : Json
  error : String
  deriving DecidableEq, Repr

/-- The report names the row and its current lease. -/
def EvidenceJob.matches (job : EvidenceJob) (report : Report) : Bool :=
  job.workspaceId = report.workspaceId && job.clusterId = report.clusterId &&
    job.lease = some report.lease

/-- The status after an accepted report. -/
def EvidenceJob.nextStatus (job : EvidenceJob) (report : Report) : EvidenceJobStatus :=
  if report.failed then
    if job.maxAttempts ≤ job.attemptCount then .failed else .queued
  else .completed

/-- The row after an accepted report. -/
def EvidenceJob.reported (job : EvidenceJob) (report : Report) : EvidenceJob :=
  { job with
    status := job.nextStatus report
    result :=
      if job.nextStatus report = .completed then
        some (normalizeEvidenceProviderResult job.providerKey report.result)
      else none
    error := if report.error ≠ "" then some report.error else none }

@[simp] theorem EvidenceJob.jobId_reported (job : EvidenceJob) (report : Report) :
    (job.reported report).jobId = job.jobId := rfl

/-- What `complete_evidence_job` answers. -/
inductive ReportReply : Type where
  /-- the report is accepted; the row after it -/
  | accepted (job : EvidenceJob)
  /-- a repeated report: the row as it is -/
  | existing (job : EvidenceJob)
  /-- `None` -/
  | refused
  deriving DecidableEq, Repr

def Store.completeEvidenceJob (s : Store) (report : Report) : ReportReply × Store :=
  match s.jobs.find? report.jobId with
  | none => (.refused, s)
  | some job =>
    if job.matches report then
      if job.status = .leased then
        (.accepted (job.reported report),
          { s with
            jobs := s.jobs.modify report.jobId (fun row => row.reported report)
              fun row => row.jobId_reported report })
      else (.existing job, s)
    else (.refused, s)

/-! ## The janitor -/

/-- The lease has expired and the attempts are used up. -/
def EvidenceJob.exhausted (job : EvidenceJob) (now : Timestamp) : Bool :=
  job.status = .leased && (job.leasedUntil.any fun until_ => until_ < now) &&
    job.maxAttempts ≤ job.attemptCount

/-- The rows that `fail_exhausted_evidence_jobs` selects. -/
def Store.exhaustedJobs (s : Store) (limit : ℕ) (now : Timestamp) (locked : List String) :
    List EvidenceJob :=
  ((s.jobs.rows.filter fun job => job.exhausted now && job.jobId ∉ locked).mergeSort
    fun job other => job.jobId ≤ other.jobId).take limit

/-- The row after the janitor. -/
def EvidenceJob.closed (job : EvidenceJob) : EvidenceJob :=
  { job with
    status := .failed
    result := none
    error := some "lease expired; retry attempts exhausted" }

@[simp] theorem EvidenceJob.jobId_closed (job : EvidenceJob) : job.closed.jobId = job.jobId := rfl

/-- `fail_exhausted_evidence_jobs`: the evidence keys of the closed jobs, and the store. -/
def Store.failExhaustedEvidenceJobs (s : Store) (limit : ℕ) (now : Timestamp)
    (locked : List String) : List String × Store :=
  let selected := s.exhaustedJobs limit now locked
  ((selected.map EvidenceJob.evidenceKey).eraseDups.mergeSort fun key other => key ≤ other,
    { s with
      jobs := s.jobs.modifyWhere (fun job => job.jobId ∈ selected.map EvidenceJob.jobId)
        EvidenceJob.closed EvidenceJob.jobId_closed })

/-! ## Windows -/

/-- What `record_evidence_event_once` answers. -/
structure RecordReply : Type where
  duplicate : Bool
  eventId : String
  correlationId : String
  deriving DecidableEq, Repr

/-- The provider results of a window are cleared. -/
def EvidenceJob.cleared (job : EvidenceJob) : EvidenceJob := { job with result := none }

@[simp] theorem EvidenceJob.jobId_cleared (job : EvidenceJob) :
    job.cleared.jobId = job.jobId := rfl

def Store.recordEvidenceEventOnce (s : Store) (window : EvidenceWindow) :
    Option RecordReply × Store :=
  match s.windows.insert? window with
  | none =>
    ((s.windows.find? window.evidenceKey).map fun row => ⟨true, row.eventId, row.correlationId⟩, s)
  | some windows =>
    (some ⟨false, window.eventId, window.correlationId⟩,
      { s with
        windows := windows
        outbox := s.outbox.insertIfAbsent
          ⟨window.eventId, window.workspaceId, window.evidenceKey, window.payload⟩
        jobs := s.jobs.modifyWhere
          (fun job => job.evidenceKey = window.evidenceKey &&
            job.workspaceId = window.workspaceId && job.result.isSome)
          EvidenceJob.cleared EvidenceJob.jobId_cleared })

/-! ## The system -/

/-- One transaction. -/
inductive Action : Type where
  /-- `queue_evidence_jobs` -/
  | queue (request : QueueRequest) (now : Timestamp)
  /-- `lease_evidence_job` -/
  | lease (request : LeaseRequest)
  /-- `complete_evidence_job` -/
  | complete (report : Report)
  /-- `fail_exhausted_evidence_jobs` -/
  | failExhausted (limit : ℕ) (now : Timestamp) (locked : List String)
  /-- `record_evidence_event_once` -/
  | record (window : EvidenceWindow)
  deriving DecidableEq, Repr

/-- The store after a transaction. -/
def step (s : Store) : Action → Store
  | .queue request now => (s.queueEvidenceJobs request now).2
  | .lease request => (s.leaseEvidenceJob request).2
  | .complete report => (s.completeEvidenceJob report).2
  | .failExhausted limit now locked => (s.failExhaustedEvidenceJobs limit now locked).2
  | .record window => (s.recordEvidenceEventOnce window).2

end Opsia.Evidence
