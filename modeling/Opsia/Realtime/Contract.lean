import Opsia.Lib.Json

/-!
# The realtime contract

The messages of `packages/contracts/realtime.py` and their validation. The key of a
resource delta is its four segments, since a key whose text does not split into four
safe segments is refused before anything reads it.
-/

namespace Opsia.Realtime

/-- A `dict[str, Any]` that came from JSON. -/
abbrev JsonObject : Type := List (String × Json)

/-- The exceptions of the realtime path: `RealtimeLimitError` with its code, and
`ValueError`. -/
inductive RealtimeError : Type where
  | limit (code : String)
  | value (message : String)
  deriving DecidableEq, Repr

def browserQueueMax : ℕ := 32

def maxHotPods : ℕ := 20

/-- The budgets of `RealtimeIngressLimits` that the contract and the hub check. -/
structure RealtimeIngressLimits : Type where
  deltaKeyMaxLength : ℕ
  deltaValueMaxBytes : ℕ
  deltaValueMaxFields : ℕ
  deltaValueMaxDepth : ℕ
  clusterRetainedResources : ℕ
  snapshotMaxResources : ℕ
  snapshotMaxBytes : ℕ

/-- The defaults of `RealtimeIngressLimits`. -/
def RealtimeIngressLimits.default : RealtimeIngressLimits where
  deltaKeyMaxLength := 1024
  deltaValueMaxBytes := 16 * 1024
  deltaValueMaxFields := 256
  deltaValueMaxDepth := 8
  clusterRetainedResources := 5000
  snapshotMaxResources := 5000
  snapshotMaxBytes := 16 * 1024 * 1024

/-! ## Summaries -/

/-- `HotPod`; `cpu_ratio` is never measured. -/
structure HotPod : Type where
  namespaceName : String
  pod : String
  restartCount : ℕ
  ready : Bool
  deriving DecidableEq, Repr

inductive RolloutPhase : Type where
  | idle
  | progressing
  | degraded
  deriving DecidableEq, Repr

/-- `LiveMetricsMetadata`; the interval is a number literal. -/
structure LiveMetricsMetadata : Type where
  source : String
  actualIntervalSeconds : Option String
  degradedReason : Option String
  deriving DecidableEq, Repr

structure LiveSummary : Type where
  clusterId : String
  windowMs : ℕ
  podsReady : ℕ
  podsTotal : ℕ
  restartDelta : ℕ
  rolloutPhase : RolloutPhase
  hotPods : List HotPod
  metricsMetadata : Option LiveMetricsMetadata
  deriving DecidableEq, Repr

/-- The text of a rollout phase. -/
def RolloutPhase.text : RolloutPhase → String
  | .idle => "idle"
  | .progressing => "progressing"
  | .degraded => "degraded"

/-- A natural number as JSON. -/
def natJson (n : ℕ) : Json := .num (toString n)

/-- An optional text as JSON. -/
def optionJson (f : String → Json) : Option String → Json
  | some s => f s
  | none => .null

/-- `summary.model_dump(mode="json")`. -/
def LiveSummary.modelDump (summary : LiveSummary) : Json :=
  .obj
    [ ("cluster_id", .str summary.clusterId),
      ("window_ms", natJson summary.windowMs),
      ("pods_ready", natJson summary.podsReady),
      ("pods_total", natJson summary.podsTotal),
      ("restart_delta", natJson summary.restartDelta),
      ("rollout_phase", .str summary.rolloutPhase.text),
      ("hot_pods", .arr (summary.hotPods.map fun pod => .obj
        [ ("namespace", .str pod.namespaceName), ("pod", .str pod.pod), ("cpu_ratio", .null),
          ("restart_count", natJson pod.restartCount), ("ready", .bool pod.ready) ])),
      ("metrics_metadata", match summary.metricsMetadata with
        | none => .null
        | some metadata => .obj
          [ ("source", .str metadata.source),
            ("actual_interval_seconds", optionJson .num metadata.actualIntervalSeconds),
            ("degraded_reason", optionJson .str metadata.degradedReason) ]) ]

/-! ## Resource deltas -/

/-- The segments of a delta key `"<cluster>/<namespace>/<kind>/<name>"`. -/
structure ResourceKey : Type where
  cluster : String
  namespaceName : String
  kind : String
  name : String
  deriving DecidableEq, Repr

/-- The text of a key. -/
def ResourceKey.text (key : ResourceKey) : String :=
  key.cluster ++ "/" ++ key.namespaceName ++ "/" ++ key.kind ++ "/" ++ key.name

/-- `len(key)`. -/
def ResourceKey.length (key : ResourceKey) : ℕ :=
  key.cluster.length + key.namespaceName.length + key.kind.length + key.name.length + 3

/-- `DELTA_KEY_SEGMENT_PATTERN.fullmatch`. -/
def safeSegment (segment : String) : Bool :=
  match segment.toList with
  | [] => false
  | c :: cs => c.isAlphanum && cs.all fun c => c.isAlphanum || c = '.' || c = '_' || c = '-'

inductive DeltaOp : Type where
  | replace
  | remove
  deriving DecidableEq, Repr

structure ResourceDelta : Type where
  seq : ℕ
  op : DeltaOp
  key : ResourceKey
  value : Option JsonObject
  deriving DecidableEq

def validateDeltaKey (key : ResourceKey) (maxLength : ℕ) : Except RealtimeError Unit :=
  if key.length > maxLength then .error (.limit "delta_key_too_large")
  else if !(safeSegment key.cluster && safeSegment key.namespaceName && safeSegment key.kind &&
      safeSegment key.name) then
    .error (.value "resource delta key must have four safe non-empty segments")
  else .ok ()

mutual

/-- `visit` of `_validate_json_shape`: the fields seen so far, or the budget that the
value breaks. -/
def visit (maxFields maxDepth depth fields : ℕ) : Json → Except RealtimeError ℕ
  | .arr items =>
    if depth > maxDepth then .error (.limit "delta_value_too_deep")
    else visitItems maxFields maxDepth depth fields items
  | .obj entries =>
    if depth > maxDepth then .error (.limit "delta_value_too_deep")
    else visitEntries maxFields maxDepth depth fields entries
  | .null | .bool _ | .num _ | .str _ =>
    if depth > maxDepth then .error (.limit "delta_value_too_deep") else .ok fields

/-- The loop of `visit` over a list. -/
def visitItems (maxFields maxDepth depth fields : ℕ) : List Json → Except RealtimeError ℕ
  | [] => .ok fields
  | item :: items =>
    if fields + 1 > maxFields then .error (.limit "delta_value_too_many_fields")
    else do
      let fields ← visit maxFields maxDepth (depth + 1) (fields + 1) item
      visitItems maxFields maxDepth depth fields items

/-- The loop of `visit` over a dictionary. -/
def visitEntries (maxFields maxDepth depth fields : ℕ) :
    List (String × Json) → Except RealtimeError ℕ
  | [] => .ok fields
  | (_, child) :: entries =>
    if fields + 1 > maxFields then .error (.limit "delta_value_too_many_fields")
    else do
      let fields ← visit maxFields maxDepth (depth + 1) (fields + 1) child
      visitEntries maxFields maxDepth depth fields entries

end

def validateResourceDelta (delta : ResourceDelta) (limits : RealtimeIngressLimits) :
    Except RealtimeError Unit := do
  validateDeltaKey delta.key limits.deltaKeyMaxLength
  match delta.value with
  | none =>
    if delta.op = .replace then
      throw (.value "resource delta replace requires a value")
  | some value =>
    if Json.bytes (.obj value) > limits.deltaValueMaxBytes then
      throw (.limit "delta_value_too_large")
    let _ ← visit limits.deltaValueMaxFields limits.deltaValueMaxDepth 1 0 (.obj value)

/-! ## Subscriptions and messages to a browser -/

/-- `Subscription`; an empty text admits everything. -/
structure Subscription : Type where
  workspaceId : String
  clusterId : String
  namespaceName : String
  app : String
  deriving DecidableEq, Repr

/-- `SnapshotMessage` with the two dictionaries of its state. -/
structure SnapshotMessage : Type where
  seq : ℕ
  clusters : List (String × LiveSummary)
  resources : List (ResourceKey × JsonObject)
  deriving DecidableEq

/-- What the hub puts into the queue of a browser. -/
inductive BrowserMessage : Type where
  /-- `SnapshotMessage` -/
  | snapshot (message : SnapshotMessage)
  /-- `LiveSummaryMessage`; its cluster is the summary's -/
  | liveSummary (seq : ℕ) (summary : LiveSummary)
  /-- `ResourceDelta` -/
  | resourceDelta (delta : ResourceDelta)
  /-- `ResyncRequiredMessage` -/
  | resyncRequired
  deriving DecidableEq

/-- The state of a snapshot as it is serialised. -/
def SnapshotMessage.state (message : SnapshotMessage) : Json :=
  .obj
    [ ("clusters", .obj (message.clusters.map fun (cluster, summary) =>
        (cluster, summary.modelDump))),
      ("resources", .obj (message.resources.map fun (key, value) => (key.text, .obj value))) ]

end Opsia.Realtime
