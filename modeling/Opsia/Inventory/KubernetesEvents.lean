import Mathlib.Data.List.Sort
import Mathlib.Data.String.Basic
import Opsia.Lib.Json
import Opsia.Lib.PyTime
import Opsia.Lib.Table

/-!
# Kubernetes Event facts

`domains/inventory/kubernetes_events.py`: the proof of completeness that comes with an
Event capture, the observations of a capture, and the facts that one capture adds to the
one before it. A count or a timestamp that does not parse makes the whole capture one with
a gap.

What the language reads from a text is left to `Literals`.
-/

namespace Opsia.Inventory

/-- The literals of the language. -/
structure Literals : Type where
  /-- `str` of a JSON value that is no string -/
  str : Json → String
  /-- `int` of a text; `none` when it raises -/
  int : String → Option ℤ
  /-- `datetime.fromisoformat` of a text with `Z` for the zone UTC, a naive time in UTC -/
  fromisoformat : String → Option UtcTime
  casefold : String → String

/-- The value of some digits. -/
def digitsValue (digits : List Char) : Option ℕ :=
  digits.foldlM (fun n c => if c.isDigit then some (10 * n + (c.toNat - 48)) else none) 0

/-- The value of a number that is an `int`: digits, after a sign if it is negative. -/
def intOf (literal : String) : Option ℤ :=
  match literal.toList with
  | [] | ['-'] => none
  | '-' :: digits => (digitsValue digits).map fun n => -(n : ℤ)
  | digits => (digitsValue digits).map fun n => (n : ℤ)

/-- A time of the form that `isoformat` prints in UTC, to the second. -/
def parseSeconds (s : String) : Option UtcTime :=
  match s.toList with
  | [a, b, c, d, '-', e, f, '-', g, h, 'T', i, j, ':', k, l, ':', m, n, 'Z'] => do
    let year ← digitsValue [a, b, c, d]
    let month ← digitsValue [e, f]
    let day ← digitsValue [g, h]
    let hour ← digitsValue [i, j]
    let minute ← digitsValue [k, l]
    let second ← digitsValue [m, n]
    if 1 ≤ year && 1 ≤ month && month ≤ 12 && 1 ≤ day && day ≤ 31 && hour < 24 && minute < 60 &&
        second < 60 then
      some (.ofNumbers year month day hour minute second)
    else none
  | _ => none

/-- Literals to run the model with: they read plain integers, and times to the second. -/
def Literals.plain : Literals where
  str _ := ""
  int := intOf
  fromisoformat := parseSeconds
  casefold := String.toLower

variable (literals : Literals)

/-! ## Reading a field -/

def normalizedText : Option Json → String
  | none | some .null => ""
  | some (.str s) => PyText.strip s
  | some value => PyText.strip (literals.str value)

def nullableText (value : Option Json) : Option String :=
  let normalized := normalizedText literals value
  if normalized = "" then none else some normalized

def parseTimestamp : Option Json → Option UtcTime
  | some (.str s) => if PyText.strip s = "" then none else literals.fromisoformat s
  | _ => none

/-- A number that is at least the bound. -/
def atLeast (bound : ℤ) (parsed : Option ℤ) : Option ℕ :=
  parsed.bind fun n => if bound ≤ n then some n.toNat else none

def positiveInt : Option Json → Option ℕ
  | some (.num literal) => atLeast 1 (intOf literal)
  | some (.str s) => atLeast 1 (literals.int s)
  | _ => none

def exactNonnegativeInt : Option Json → Option ℕ
  | some (.num literal) => atLeast 0 (intOf literal)
  | _ => none

/-! ## Captures -/

structure KubernetesEventCapture : Type where
  complete : Bool
  truncated : Bool
  reason : String
  observedAt : Option UtcTime
  maxAgeSeconds : Option ℕ
  coverage : List (String × Json)
  deriving DecidableEq, Repr

namespace KubernetesEventCapture

/-- A capture without a usable proof. -/
def unproven : KubernetesEventCapture := ⟨false, false, "", none, none, []⟩

def authoritative (capture : KubernetesEventCapture) : Bool :=
  capture.complete && !capture.truncated && capture.reason = "complete" &&
    capture.observedAt.isSome && capture.maxAgeSeconds.any (0 < ·) &&
    capture.coverage.lookup "scope" = some (.str "all_namespaces") &&
    capture.coverage.lookup "pagination" = some (.str "continue") &&
    !(capture.coverage.lookup "gap").any Json.truthy

/-- `is_fresh_at`; a snapshot is observed at a number of microseconds. -/
def isFreshAt (capture : KubernetesEventCapture) (observedAt : ℤ) : Bool :=
  capture.authoritative &&
    match capture.observedAt, capture.maxAgeSeconds with
    | some at_, some maxAge =>
      let age := observedAt - at_.toMicroseconds
      0 ≤ age && age ≤ maxAge * 1000000
    | _, _ => false

def withGap (capture : KubernetesEventCapture) (reason : String) : KubernetesEventCapture :=
  { capture with
    complete := false
    reason := reason
    coverage := (capture.coverage.filter fun field => field.1 ≠ "gap") ++ [("gap", .str reason)] }

def fromSnapshotSummary (summary : Json) : KubernetesEventCapture :=
  match summary.get? "kubernetes_event_capture" with
  | some (.obj fields) =>
    let capture : Json := .obj fields
    match capture.get? "complete", capture.get? "truncated" with
    | some (.bool complete), some (.bool truncated) =>
      let freshness := (capture.get? "freshness").getD (.obj [])
      { complete := complete
        truncated := truncated
        reason := normalizedText literals (capture.get? "reason")
        observedAt := parseTimestamp literals (freshness.get? "observed_at")
        maxAgeSeconds := positiveInt literals (freshness.get? "max_age_seconds")
        coverage :=
          match capture.get? "coverage" with
          | some (.obj coverage) => coverage
          | _ => [] }
    | _, _ => unproven
  | _ => unproven

theorem authoritative_of_fresh {capture : KubernetesEventCapture} {observedAt : ℤ}
    (h : capture.isFreshAt observedAt = true) : capture.authoritative = true :=
  (Bool.and_eq_true_iff.mp h).1

end KubernetesEventCapture

/-! ## Observations -/

structure KubernetesEventObservation : Type where
  uid : String
  apiVersion : String
  namespaceName : Option String
  name : String
  eventType : String
  count : ℕ
  lastOccurrenceAt : UtcTime
  deriving DecidableEq, Repr

def eventLastOccurrence (fact : Json) : Option UtcTime :=
  (parseTimestamp literals (fact.get? "last_occurrence_at")).or
    (parseTimestamp literals (fact.get? "last_timestamp"))

def kubernetesEventFactObservation (fact : Json) : Option KubernetesEventObservation :=
  let uid := normalizedText literals (fact.get? "uid")
  let name := normalizedText literals (fact.get? "name")
  match positiveInt literals (fact.get? "count"), eventLastOccurrence literals fact with
  | some count, some lastOccurrenceAt =>
    if uid = "" || name = "" then none
    else some
      { uid := uid
        apiVersion := normalizedText literals (fact.get? "api_version")
        namespaceName := nullableText literals (fact.get? "namespace")
        name := name
        eventType := normalizedText literals (fact.get? "type")
        count := count
        lastOccurrenceAt := lastOccurrenceAt }
  | _, _ => none

structure KubernetesEventFactBatch : Type where
  capture : KubernetesEventCapture
  observations : List KubernetesEventObservation
  deriving DecidableEq, Repr

def KubernetesEventFactBatch.fromSnapshotSummary (summary : Json) : KubernetesEventFactBatch :=
  let capture := KubernetesEventCapture.fromSnapshotSummary literals summary
  if !capture.authoritative then ⟨capture, []⟩
  else
    let invalid := capture.withGap "invalid_event_fact_contract"
    match summary.get? "kubernetes_event_facts" with
    | some (.arr facts) =>
      match facts.mapM (kubernetesEventFactObservation literals) with
      | none => ⟨invalid, []⟩
      | some observations =>
        if exactNonnegativeInt (capture.coverage.lookup "event_count") =
            some observations.length then
          ⟨capture, observations⟩
        else ⟨invalid, []⟩
    | _ => ⟨invalid, []⟩

/-! ## What advances -/

namespace KubernetesEventObservation

/-- `observation_sort_key(self) > observation_sort_key(other)`. -/
def newerThan (self other : KubernetesEventObservation) : Bool :=
  other.count < self.count ||
    (other.count = self.count && other.lastOccurrenceAt < self.lastOccurrenceAt)

/-- The observation says no more than another one of the same Event. -/
def coveredBy (self other : KubernetesEventObservation) : Prop :=
  self.uid = other.uid ∧ self.count ≤ other.count ∧
    self.lastOccurrenceAt ≤ other.lastOccurrenceAt

end KubernetesEventObservation

/-- `event_observations_by_uid_from_facts`, the newest observation of every Event. -/
def eventObservationsByUid (observations : List KubernetesEventObservation) :
    Table KubernetesEventObservation.uid :=
  observations.foldl
    (fun byUid observation =>
      match byUid.find? observation.uid with
      | none => byUid.put observation
      | some existing => if observation.newerThan existing then byUid.put observation else byUid)
    Table.empty

def eventObservationAdvanced (previous : Option KubernetesEventObservation)
    (current : KubernetesEventObservation) : Bool :=
  match previous with
  | none => true
  | some previous =>
    previous.count < current.count || previous.lastOccurrenceAt < current.lastOccurrenceAt

theorem advanced_iff {previous current : KubernetesEventObservation}
    (huid : current.uid = previous.uid) :
    eventObservationAdvanced (some previous) current = true ↔ ¬ current.coveredBy previous := by
  simp only [eventObservationAdvanced, Bool.or_eq_true, decide_eq_true_eq,
    KubernetesEventObservation.coveredBy, huid, true_and, not_and_or, not_le]

/-! ## Facts -/

/-- `split_api_version`, of a text that is not stripped. -/
def splitGroupVersion (apiVersion : String) : String × String :=
  if '/' ∈ apiVersion.toList then
    (String.ofList (apiVersion.toList.rdropWhile (· ≠ '/')).dropLast,
      PyText.rsplitLast apiVersion '/')
  else ("", apiVersion)

structure ResourceRef : Type where
  apiGroup : String
  version : String
  kind : String
  namespaceName : Option String
  name : String
  uid : String
  deriving DecidableEq, Repr

/-- The columns of a Timeline event of the source `kubernetes_event` that vary: its
resource is also its subject, and its metadata always say that the collection is complete
and not truncated. -/
structure KubernetesEventFact : Type where
  eventId : String
  clusterId : String
  resource : ResourceRef
  occurredAt : UtcTime
  /-- the severity is `warning`, not `info` -/
  warning : Bool
  count : ℕ
  collectionReason : String
  captureObservedAt : Option UtcTime
  freshnessMaxAgeSeconds : Option ℕ
  deriving DecidableEq, Repr

def KubernetesEventFact.nativeId (fact : KubernetesEventFact) : String := fact.resource.uid

def kubernetesEventSourceKey (observation : KubernetesEventObservation) : String :=
  PyText.join ':' ["kubernetes_event", observation.uid, toString observation.count,
    observation.lastOccurrenceAt.isoformatZ]

/-- `kubernetes_event_timeline_event`; `none` when the event breaks its contract, which
raises. -/
def kubernetesEventTimelineEvent (clusterId : String) (observation : KubernetesEventObservation)
    (capture : KubernetesEventCapture) : Option KubernetesEventFact :=
  let sourceKey := kubernetesEventSourceKey observation
  let (apiGroup, version) := splitGroupVersion observation.apiVersion
  if clusterId ≠ "" && observation.name ≠ "" && observation.uid ≠ "" &&
      sourceKey.length ≤ 512 && observation.uid.length ≤ 1024 then
    some
      { eventId := sourceKey
        clusterId := clusterId
        resource :=
          { apiGroup := apiGroup
            version := version
            kind := "Event"
            namespaceName := observation.namespaceName
            name := observation.name
            uid := observation.uid }
        occurredAt := observation.lastOccurrenceAt
        warning := literals.casefold observation.eventType = "warning"
        count := observation.count
        collectionReason := capture.reason
        captureObservedAt := capture.observedAt
        freshnessMaxAgeSeconds := capture.maxAgeSeconds }
  else none

/-- The observations of a capture that advance over the capture before it, by `uid`. -/
def advancedObservations (previous : Option KubernetesEventFactBatch)
    (current : KubernetesEventFactBatch) : List KubernetesEventObservation :=
  let previousByUid : Table KubernetesEventObservation.uid :=
    match previous with
    | some batch =>
      if batch.capture.authoritative then eventObservationsByUid batch.observations
      else Table.empty
    | none => Table.empty
  ((eventObservationsByUid current.observations).rows.insertionSort
      fun a b => a.uid ≤ b.uid).filter fun observation =>
    eventObservationAdvanced (previousByUid.find? observation.uid) observation

/-- `kubernetes_event_fact_timeline_events`; `none` when one of them raises. -/
def kubernetesEventFactTimelineEvents (clusterId : String) (observedAt : ℤ)
    (previous : Option KubernetesEventFactBatch) (current : KubernetesEventFactBatch) :
    Option (List KubernetesEventFact) :=
  if !current.capture.isFreshAt observedAt then some []
  else
    (advancedObservations previous current).mapM fun observation =>
      kubernetesEventTimelineEvent literals clusterId observation current.capture

end Opsia.Inventory
