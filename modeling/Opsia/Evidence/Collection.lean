import Opsia.Evidence.Aggregation
import Opsia.Evidence.Lifecycle
import Opsia.Evidence.Scheduler

/-!
# Collecting the evidence of a window

The scheduler of an agent and the server that queues, leases and completes its jobs and publishes
the windows, as one system. A call of `schedule_once` is in flight between its request and its
response, and the configuration may change meanwhile; `emit_evidence_if_ready` is in flight between
its three transactions. Event ids are minted, so no window is recorded as `pending:`.
-/

namespace Opsia.Evidence

open Runs

/-! ## The server's handling of a schedule call -/

/-- What the policy of a cluster says about its evidence jobs. -/
structure EvidencePolicy where
  /-- the providers with whether they are enabled and their dump -/
  providers : List (String × Bool × Json)
  /-- the dump of `EvidenceProviderPolicy()` -/
  defaultProvider : Json
  failurePolicy : String
  maxAttempts : ℤ
  generation : ℤ

def enabledProviderKeys (policy : EvidencePolicy) (requested : List String) : List String :=
  requested.eraseDups.filter fun providerKey =>
    ((policy.providers.lookup providerKey).map Prod.fst).getD true

def providerPolicySnapshots (policy : EvidencePolicy) (providerKeys : List String) : JsonFields :=
  providerKeys.map fun providerKey =>
    (providerKey, ((policy.providers.lookup providerKey).map Prod.snd).getD policy.defaultProvider)

/-- The jobs that `schedule_evidence_jobs` queues for a call. -/
def queueRequest (scheduler : EvidenceJobScheduler) (policy : EvidencePolicy)
    (call : EvidenceJobScheduler.ScheduleCall) : QueueRequest :=
  let providerKeys := enabledProviderKeys policy call.dueProviderKeys
  { workspaceId := scheduler.workspaceId
    clusterId := scheduler.clusterId
    sourceId := scheduler.sourceId
    windowStart := call.windowStart
    providerKeys := providerKeys
    failurePolicy := policy.failurePolicy
    maxAttempts := policy.maxAttempts
    policyGeneration := policy.generation
    providerPolicies := providerPolicySnapshots policy providerKeys }

/-! ## The system -/

/-- A call of `emit_evidence_if_ready`, and the payload once it is read. -/
structure Emission where
  evidenceKey : String
  payload : Option JsonFields

/-- The tables, the agent's scheduler, its call and the emissions in flight. -/
structure CollectionState where
  store : Store
  scheduler : EvidenceJobScheduler
  call : Option EvidenceJobScheduler.ScheduleCall
  emissions : List Emission

/-- One step of the agent or the server. -/
inductive CollectionAction where
  /-- `schedule_once` sends its request -/
  | schedule (now : ℚ)
  /-- the server handles the request -/
  | queue (policy : EvidencePolicy) (now : Timestamp)
  /-- the response arrives -/
  | scheduled
  /-- the call fails -/
  | scheduleFailed
  | configure (providerIntervals : List (String × ℤ)) (enabledProviderKeys : List String)
  | register (providerKey : String) (intervalSeconds : ℤ) (enabled : Bool)
  | unregister (providerKey : String)
  | lease (request : LeaseRequest)
  | complete (report : Report)
  | failExhausted (limit : ℕ) (now : Timestamp) (locked : List String)
  /-- `emit_evidence_if_ready` looks for the window -/
  | emit (evidenceKey : String)
  /-- an emission reads the payload -/
  | read (emission : ℕ)
  /-- an emission records the window -/
  | record (emission : ℕ) (eventId : Uuid)

/-- The text of a body's field; `some none` when it is null. -/
def bodyText (body : JsonFields) (field : String) : Option (Option String) :=
  match body.lookup field with
  | some (.str s) => some (some s)
  | some .null | none => some none
  | _ => none

/-- The arguments of `record_evidence_event_once`; `none` when the database refuses them. -/
def recordedWindow (evidenceKey : String) (body : JsonFields) (eventId : Uuid) :
    Option EvidenceWindow := do
  let workspaceId ← (← bodyText body "workspace_id")
  let clusterId ← (← bodyText body "cluster_id")
  let sourceId ← bodyText body "source_id"
  let windowStart ← bodyText body "window_start"
  let agentId ← bodyText body "agent_id"
  let correlationId ← bodyText body "correlation_id"
  let event := toString eventId
  some
    { evidenceKey := evidenceKey
      workspaceId := workspaceId
      clusterId := clusterId
      sourceId := (sourceId.filter (· ≠ "")).getD "cluster-snapshot"
      windowStart := (windowStart.filter (· ≠ "")).getD evidenceKey
      agentId := agentId
      eventId := event
      correlationId := (correlationId.filter (· ≠ "")).getD event
      payload := .obj body }

/-- The window that an emission records, once its payload is read. -/
def Emission.window (emission : Emission) (eventId : Uuid) : Option EvidenceWindow :=
  emission.payload.bind fun payload =>
    recordedWindow emission.evidenceKey (evidenceBody payload) eventId

/-- An emission after it reads the payload; it ends when the window is not ready. -/
def CollectionState.readEmission (pyStr : Json → String) (s : CollectionState) (i : ℕ) :
    List Emission :=
  match s.emissions[i]? with
  | some ⟨evidenceKey, none⟩ =>
    match s.store.evidencePayloadIfReady pyStr evidenceKey with
    | some payload => s.emissions.set i ⟨evidenceKey, some payload⟩
    | none => s.emissions.eraseIdx i
  | _ => s.emissions

/-- The transaction that a step makes on the tables. -/
def CollectionState.transaction (s : CollectionState) : CollectionAction → Option Action
  | .queue policy now => s.call.map fun call => .queue (queueRequest s.scheduler policy call) now
  | .lease request => some (.lease request)
  | .complete report => some (.complete report)
  | .failExhausted limit now locked => some (.failExhausted limit now locked)
  | .record i eventId =>
    (s.emissions[i]?.bind fun emission => emission.window eventId).map .record
  | _ => none

/-- The emissions in flight after a step. -/
def CollectionState.emissionsAfter (pyStr : Json → String) (s : CollectionState) :
    CollectionAction → List Emission
  | .emit evidenceKey =>
    if (s.store.windows.find? evidenceKey).isSome then s.emissions
    else s.emissions ++ [⟨evidenceKey, none⟩]
  | .read i => s.readEmission pyStr i
  | .record i _ =>
    if (s.emissions[i]?.bind Emission.payload).isSome then s.emissions.eraseIdx i else s.emissions
  | _ => s.emissions

/-- The agent's scheduler and its call after a step. -/
def CollectionState.agentAfter (s : CollectionState) :
    CollectionAction → EvidenceJobScheduler × Option EvidenceJobScheduler.ScheduleCall
  | .schedule now =>
    (s.scheduler, match s.call with
      | some call => some call
      | none => s.scheduler.scheduleOnce now)
  | .scheduled => (s.call.elim s.scheduler s.scheduler.scheduled, none)
  | .scheduleFailed => (s.scheduler, none)
  | .configure intervals keys =>
    ((s.scheduler.configureSchedule intervals keys).getD s.scheduler, s.call)
  | .register providerKey interval enabled =>
    ((s.scheduler.registerProvider providerKey interval enabled).getD s.scheduler, s.call)
  | .unregister providerKey => (s.scheduler.unregisterProvider providerKey, s.call)
  | _ => (s.scheduler, s.call)

/-- The state after a step. -/
def collect (pyStr : Json → String) (s : CollectionState) (a : CollectionAction) :
    CollectionState :=
  let agent := s.agentAfter a
  { store := (s.transaction a).elim s.store (step s.store)
    scheduler := agent.1
    call := agent.2
    emissions := s.emissionsAfter pyStr a }

/-- The system at the start of an agent. -/
def CollectionState.start (scheduler : EvidenceJobScheduler) : CollectionState :=
  ⟨.empty, scheduler, none, []⟩

/-! ## What is claimed of a run -/

/-- A step completes a job with a result. -/
def Completes (e : Entry CollectionState CollectionAction) (job : EvidenceJob) (result : Json) :
    Prop :=
  ∃ report, e.action = .complete report ∧
    (e.pre.store.completeEvidenceJob report).1 = .accepted job ∧ job.status = .completed ∧
    job.result = some result

/-- What holds of the windows after a history `l`. -/
structure CollectionLaw (l : List (Entry CollectionState CollectionAction)) (s : CollectionState) :
    Prop where
  /-- no job of a recorded window is open -/
  closed : ∀ job ∈ s.store.jobs.rows, Recorded job.evidenceKey s.store → job.status.isTerminal = true
  /-- no job is queued for a recorded window -/
  queued : ∀ e ∈ l, ∀ job ∈ e.post.store.jobs.rows, e.pre.store.jobs.find? job.jobId = none →
    ¬ Recorded job.evidenceKey e.pre.store
  /-- the window of a completed job carries its result -/
  contained : ∀ e ∈ l, ∀ job result, Completes e job result →
    ∀ window, s.store.windows.find? job.evidenceKey = some window →
      ∃ body, window.payload = .obj body ∧ Contained body job.providerKey result

/-- The window of a key may take further jobs: it is not recorded, and no emission in flight has
read its payload. -/
def CollectionState.Open (s : CollectionState) (key : String) : Prop :=
  ¬ Recorded key s.store ∧
    ∀ emission ∈ s.emissions, emission.evidenceKey = key → emission.payload = none

/-- A step queues no new job for a window that is closed already. -/
def QueuesInTime (s : CollectionState) (a : CollectionAction) : Prop :=
  ∀ request now, s.transaction a = some (.queue request now) →
    ∀ providerKey ∈ request.providerKeys,
      s.store.jobs.find? (request.job now providerKey).jobId = none →
        s.Open (request.job now providerKey).evidenceKey

end Opsia.Evidence
