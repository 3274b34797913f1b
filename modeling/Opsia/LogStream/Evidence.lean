import Mathlib.Data.Rat.Defs
import Opsia.Lib.Overlap
import Opsia.Lib.PyValue

/-!
# Evidence of a log stream

`read_log_stream_evidence` of `domains/log_stream/service.py`: the lines of the completed batches of
one log stream, read again for the assistant. The batches overlap; of each, no more lines are
extracted than are still missing, and then those that are known are dropped. The reading is the one
of `Overlap` (`gather_eq`), so it hides lines where a batch begins with known ones
(`evidence_exhaustive_iff`).
-/

namespace Opsia.LogStream

abbrev Fields := List (String × PyValue)

def logStreamProtocol : String := "log-stream.v1"

def maxAiLogEvidence : ℤ := 20

def logStreamBatchLimit : ℕ := 20

def maxLogLineLength : ℕ := 4096

def truncatedLogLineSuffix : String := " [TRUNCATED]"

/-! ## Targets -/

inductive TargetType where
  | pod | workload | scheduledRun
  deriving DecidableEq

/-- `LogStreamTarget`, without the containers, which are not read here. -/
structure LogStreamTarget where
  targetType : TargetType
  clusterId : String
  namespaceName : String
  name : String
  kind : String
  resourceType : String
  pods : List String
  container : Option String
  uid : Option String
  ownerKind : Option String
  ownerName : Option String
  ownerUid : Option String

def TargetType.name : TargetType → String
  | .pod => "pod"
  | .workload => "workload"
  | .scheduledRun => "scheduled_run"

def logicalTargetIdentity (target : LogStreamTarget) : List String :=
  let owner (value : Option String) := if target.targetType = .scheduledRun then value.getD "" else ""
  [target.targetType.name, target.clusterId, target.namespaceName, target.name, target.kind,
    target.resourceType, target.container.getD "", target.uid.getD "", owner target.ownerKind,
    owner target.ownerName, owner target.ownerUid]

def logicalTargetMatches (expected actual : LogStreamTarget) : Bool :=
  let actual := if expected.uid = none then { actual with uid := none } else actual
  logicalTargetIdentity expected = logicalTargetIdentity actual

/-! ## Lines -/

structure LogStreamLog where
  id : String
  observedAt : ℚ
  pod : String
  container : String
  line : String
  lineTruncated : Bool

/-- The constraints on the fields of `LogStreamLog`. -/
def LogStreamLog.Valid (event : LogStreamLog) : Prop :=
  (1 ≤ event.id.length ∧ event.id.length ≤ 255) ∧ (1 ≤ event.pod.length ∧ event.pod.length ≤ 253) ∧
    (1 ≤ event.container.length ∧ event.container.length ≤ 253) ∧
    event.line.length ≤ maxLogLineLength

instance (event : LogStreamLog) : Decidable event.Valid :=
  inferInstanceAs (Decidable ((_ ∧ _) ∧ (_ ∧ _) ∧ (_ ∧ _) ∧ _))

structure PersistedLogEvidence where
  event : LogStreamLog
  link : String

/-- What is used of the language and of other modules: `str`, the time of a timestamp, redaction,
the first half of a SHA-256 digest, links, and the target that a command was persisted for. -/
structure LogEnv where
  str : PyValue → String
  observedAt : PyValue → Option ℚ
  redactLogLine : String → String
  digest : String → String
  link : LogStreamTarget → String
  targetFromCommand : Fields → Option LogStreamTarget

def truncateLogLine (line : String) : String × Bool :=
  if line.length ≤ maxLogLineLength then (line, false)
  else
    let keepLength := maxLogLineLength - truncatedLogLineSuffix.length
    (String.ofList (line.toList.take keepLength) ++ truncatedLogLineSuffix, true)

def streamLabel (stream : Fields) (keys : List String) : Option String :=
  keys.findSome? fun key => ((stream.lookup key).bind PyValue.str?).filter fun value => value ≠ ""

variable (env : LogEnv)

def lineId (clusterId ns pod container timestampIdentity line : String) : String :=
  "log-" ++ env.digest
    ("\x1f".intercalate [clusterId, ns, pod, container, timestampIdentity, line])

/-- The evidence that a value of a stream gives: nothing where it is passed over, and no event
where `LogStreamLog` refuses it. -/
def lineEvidence (target : LogStreamTarget) (ns pod container : String) (value : PyValue) :
    Option (Option PersistedLogEvidence) :=
  match value with
  | .dict fields =>
    let rawTimestamp := (fields.lookup "timestamp").getD .none
    match fields.lookup "line", env.observedAt rawTimestamp with
    | some (.str text), some observedAt =>
      let truncated := truncateLogLine (env.redactLogLine text)
      let event : LogStreamLog :=
        { id := lineId env target.clusterId ns pod container (env.str rawTimestamp) truncated.1
          observedAt := observedAt
          pod := pod
          container := container
          line := truncated.1
          lineTruncated :=
            ((fields.lookup "line_truncated").getD .none).truthy || truncated.2 }
      some (if event.Valid then some ⟨event, env.link target⟩ else none)
    | _, _ => none
  | _ => none

/-- The namespace, Pod and container of a stream, and its values, where it is one of the target. -/
def targetStream (target : LogStreamTarget) (payload : PyValue) :
    Option ((String × String × String) × List PyValue) :=
  match payload with
  | .dict fields =>
    let labels := ((fields.lookup "stream").bind PyValue.dict?).getD []
    match streamLabel labels ["k8s_namespace_name", "namespace"],
        streamLabel labels ["k8s_pod_name", "pod", "pod_name", "kubernetes_pod_name"],
        streamLabel labels ["k8s_container_name", "container", "container_name",
          "kubernetes_container_name"] with
    | some ns, some pod, some container =>
      if ns ≠ target.namespaceName ∨ pod ∉ target.pods ∨
          (target.container ≠ none ∧ target.container ≠ some container) then none
      else
        match fields.lookup "values" with
        | some (.list values) => some ((ns, pod, container), values)
        | _ => none
    | _, _, _ => none
  | _ => none

/-- The loop of `_stream_evidence`; nothing where it raises. -/
def takeEvidence (target : LogStreamTarget) (place : String × String × String) (limit : ℤ)
    (evidence : List PersistedLogEvidence) : List PyValue → Option (List PersistedLogEvidence)
  | [] => some evidence
  | value :: values =>
    match lineEvidence env target place.1 place.2.1 place.2.2 value with
    | none => takeEvidence target place limit evidence values
    | some none => none
    | some (some item) =>
      if limit ≤ (evidence ++ [item]).length then some (evidence ++ [item])
      else takeEvidence target place limit (evidence ++ [item]) values

def streamEvidence (payload : PyValue) (target : LogStreamTarget) (limit : ℤ) :
    Option (List PersistedLogEvidence) :=
  if limit ≤ 0 then some []
  else
    match targetStream target payload with
    | none => some []
    | some (place, values) => takeEvidence env target place limit [] values

def commandQuery (row : Fields) : Fields :=
  let plan := ((row.lookup "payload").bind PyValue.dict?).getD []
  let body := ((plan.lookup "payload").bind PyValue.dict?).getD []
  ((body.lookup "query").bind PyValue.dict?).getD []

/-- `str(row.get(key) or "")`. -/
def textOf (row : Fields) (key : String) : String :=
  let value := (row.lookup key).getD .none
  if value.truthy then env.str value else ""

/-- The streams of a batch of the command's own query that was redacted. -/
def batchStreams (expectedName expectedLogql : String) (batch : PyValue) : List PyValue :=
  match batch with
  | .dict fields =>
    if (fields.lookup "source").bind PyValue.str? ≠ some "loki" ∨
        (fields.lookup "query_name").bind PyValue.str? ≠ some expectedName ∨
        (fields.lookup "query").bind PyValue.str? ≠ some expectedLogql then []
    else
      match (fields.lookup "redaction_summary").bind PyValue.dict? with
      | none => []
      | some summary =>
        match summary.lookup "applied", fields.lookup "streams" with
        | some (.bool true), some (.list streams) => streams
        | _, _ => []
  | _ => []

/-- The loop over the streams of a batch, and whether it returned. -/
def extractStreams (target : LogStreamTarget) (limit : ℤ) (evidence : List PersistedLogEvidence) :
    List PyValue → Option (Bool × List PersistedLogEvidence)
  | [] => some (false, evidence)
  | payload :: streams =>
    (streamEvidence env payload target (limit - evidence.length)).bind fun more =>
      if limit ≤ (evidence ++ more).length then some (true, evidence ++ more)
      else extractStreams target limit (evidence ++ more) streams

/-- The loop over the batches. -/
def extractBatches (target : LogStreamTarget) (expectedName expectedLogql : String) (limit : ℤ)
    (evidence : List PersistedLogEvidence) : List PyValue → Option (List PersistedLogEvidence)
  | [] => some evidence
  | batch :: batches =>
    (extractStreams env target limit evidence
        (batchStreams expectedName expectedLogql batch)).bind fun (returned, more) =>
      if returned then some more
      else extractBatches target expectedName expectedLogql limit more batches

/-- The batches of the result of a command. -/
def resultBatches (row : Fields) : List PyValue :=
  match (row.lookup "result").bind PyValue.dict? with
  | none => []
  | some result =>
    match result.lookup "result" with
    | some (.list batches) => batches
    | _ => []

/-- `extract_log_evidence`; nothing where it raises. -/
def extractLogEvidence (row : Fields) (target : LogStreamTarget) (limit : ℤ) :
    Option (List PersistedLogEvidence) :=
  let expectedQuery := commandQuery row
  extractBatches env target (textOf env expectedQuery "name") (textOf env expectedQuery "query")
    limit [] (resultBatches row)

/-! ## Reading -/

/-- `BoundedDedupe`; the order is that of the ids. -/
structure BoundedDedupe where
  maxItems : ℕ
  ids : List String := []
  order : List String := []

/-- The oldest ids beyond the bound are dropped. -/
def BoundedDedupe.evict (maxItems : ℕ) (ids : List String) : List String → List String × List String
  | [] => (ids, [])
  | oldest :: order =>
    if maxItems < (oldest :: order).length then evict maxItems (ids.erase oldest) order
    else (ids, oldest :: order)

/-- `BoundedDedupe.add`: whether the value is new. -/
def BoundedDedupe.add (seen : BoundedDedupe) (value : String) : Bool × BoundedDedupe :=
  if value ∈ seen.ids then (false, seen)
  else
    let kept := evict seen.maxItems (seen.ids ++ [value]) (seen.order ++ [value])
    (true, { seen with ids := kept.1, order := kept.2 })

/-- The loop over the evidence of a batch, and whether it returned. -/
def addEvidence (evidenceLimit : ℕ) (seen : BoundedDedupe) (unique : List PersistedLogEvidence) :
    List PersistedLogEvidence → Bool × BoundedDedupe × List PersistedLogEvidence
  | [] => (false, seen, unique)
  | item :: items =>
    let added := seen.add item.event.id
    let unique := if added.1 then unique ++ [item] else unique
    if evidenceLimit ≤ unique.length then (true, added.2, unique)
    else addEvidence evidenceLimit added.2 unique items

/-- The loop over the completed batches. -/
def gather (evidenceLimit : ℕ) (seen : BoundedDedupe) (unique : List PersistedLogEvidence) :
    List (Fields × LogStreamTarget) → Option (List PersistedLogEvidence)
  | [] => some unique
  | (candidate, target) :: completed =>
    (extractLogEvidence env candidate target (evidenceLimit - unique.length : ℤ)).bind fun items =>
      match addEvidence evidenceLimit seen unique items with
      | (true, _, unique) => some unique
      | (false, seen, unique) => gather evidenceLimit seen unique completed

/-- `_owned_log_query` without an expected query. -/
def ownedLogQuery (row : Fields) (userId : PyValue) : Bool :=
  let payload := ((row.lookup "payload").bind PyValue.dict?).getD []
  let metadata := (((commandQuery row).lookup "log_stream").bind PyValue.dict?).getD []
  textOf env row "action" = "telemetry.query.run" &&
    ((payload.lookup "requested_by").getD .none).eq userId &&
    (metadata.lookup "protocol").bind PyValue.str? = some logStreamProtocol

/-- The loop over the rows of a correlation: their ids and the completed ones; nothing where a row
is not one of the stream. -/
def checkCandidates (userId : PyValue) (correlationId : String) (logicalIdentity : List String)
    (commandIds : List String) :
    List PyValue → Option (List String × List (Fields × LogStreamTarget))
  | [] => some (commandIds, [])
  | .dict candidate :: rows =>
    match candidate.lookup "command_id", env.targetFromCommand candidate with
    | some (.str commandId), some target =>
      if commandId = "" ∨ commandId ∈ commandIds ∨
          (candidate.lookup "correlation_id").bind PyValue.str? ≠ some correlationId ∨
          ownedLogQuery env candidate userId = false ∨
          textOf env candidate "cluster_id" ≠ target.clusterId ∨
          logicalTargetIdentity target ≠ logicalIdentity then none
      else
        (checkCandidates userId correlationId logicalIdentity (commandId :: commandIds) rows).map
          fun (ids, completed) =>
            (ids, if textOf env candidate "status" = "completed" then
              (candidate, target) :: completed else completed)
    | _, _ => none
  | _ :: _ => none

/-- What a read finds in the database: the command of the stream, what its target resolves to now,
and the commands of a correlation. -/
structure EvidenceQuery where
  userId : PyValue
  streamId : String
  row : Option Fields
  reresolveTarget : LogStreamTarget → Option LogStreamTarget
  listAgentCommands : String → Option (List PyValue)

/-- The completed batches of the stream, with their targets; nothing where it is not a stream that
the user may read. -/
def completedBatches (query : EvidenceQuery) : Option (List (Fields × LogStreamTarget)) := do
  let row ← query.row
  if ownedLogQuery env row query.userId = false then none
  let target ← env.targetFromCommand row
  let correlationId ← (row.lookup "correlation_id").bind PyValue.str?
  if textOf env row "cluster_id" ≠ target.clusterId ∨ correlationId = "" ∨
      textOf env row "status" ≠ "completed" then none
  let currentTarget ← query.reresolveTarget target
  let rows ← query.listAgentCommands correlationId
  if rows = [] ∨ logStreamBatchLimit < rows.length ∨
      logicalTargetMatches target currentTarget = false then none
  let (commandIds, completed) ← checkCandidates env query.userId correlationId
    (logicalTargetIdentity target) [] rows
  if query.streamId ∉ commandIds then none
  some completed

/-- `max(1, min(limit, MAX_AI_LOG_EVIDENCE))`. -/
def evidenceLimit (limit : ℤ) : ℕ := (max 1 (min limit maxAiLogEvidence)).toNat

/-- `read_log_stream_evidence`; nothing where it raises. -/
def readLogStreamEvidence (query : EvidenceQuery) (limit : ℤ) :
    Option (List PersistedLogEvidence) :=
  match completedBatches env query with
  | none => some []
  | some completed => gather env (evidenceLimit limit) { maxItems := evidenceLimit limit } [] completed

/-! ## The lines of a batch -/

open Overlap

/-- The eligible lines of a stream. -/
def streamLines (target : LogStreamTarget) (payload : PyValue) :
    List (Option PersistedLogEvidence) :=
  match targetStream target payload with
  | none => []
  | some (place, values) =>
    values.filterMap (lineEvidence env target place.1 place.2.1 place.2.2)

/-- **The eligible lines of a batch**, all of them. -/
def eligibleLines (batch : Fields × LogStreamTarget) : List (Option PersistedLogEvidence) :=
  let expectedQuery := commandQuery batch.1
  ((resultBatches batch.1).flatMap (batchStreams (textOf env expectedQuery "name")
    (textOf env expectedQuery "query"))).flatMap (streamLines env batch.2)

variable {env}

variable {evidence : List PersistedLogEvidence}

theorem takeEvidence_eq (target : LogStreamTarget) (place : String × String × String) (limit : ℕ)
    (values : List PyValue) (hroom : evidence.length < limit) :
    takeEvidence env target place limit evidence values =
      (built ((values.filterMap (lineEvidence env target place.1 place.2.1 place.2.2)).take
        (limit - evidence.length))).map (evidence ++ ·) := by
  induction values generalizing evidence with
  | nil => simp [takeEvidence, built]
  | cons value values ih =>
    obtain ⟨room, hlimit⟩ : ∃ room, limit - evidence.length = room + 1 :=
      ⟨limit - evidence.length - 1, by omega⟩
    rw [takeEvidence]
    cases hline : lineEvidence env target place.1 place.2.1 place.2.2 value with
    | none => rw [List.filterMap_cons_none hline, ← ih hroom]
    | some line =>
      rw [List.filterMap_cons_some hline, hlimit, List.take_succ_cons]
      cases line with
      | none => rfl
      | some item =>
        rw [built]
        dsimp only
        by_cases hfull : limit ≤ (evidence ++ [item]).length
        · obtain rfl : room = 0 := by
            rw [List.length_append, List.length_singleton] at hfull
            omega
          rw [if_pos (by exact_mod_cast hfull), List.take_zero]
          rfl
        · rw [if_neg (by exact_mod_cast hfull), ih (not_le.mp hfull)]
          have hleft : limit - (evidence ++ [item]).length = room := by
            rw [List.length_append, List.length_singleton]
            omega
          rw [hleft, Option.map_map]
          refine congrArg (Option.map · _) (funext fun rest => ?_)
          simp

theorem streamEvidence_eq (payload : PyValue) (target : LogStreamTarget) {limit : ℕ}
    (hlimit : 0 < limit) : streamEvidence env payload target limit =
      built ((streamLines env target payload).take limit) := by
  rw [streamEvidence, if_neg (by omega), streamLines]
  cases targetStream target payload with
  | none => simp [built]
  | some stream =>
    obtain ⟨place, values⟩ := stream
    have hroom : ([] : List PersistedLogEvidence).length < limit := hlimit
    have hall : takeEvidence env target place limit [] values = _ :=
      takeEvidence_eq target place limit values hroom
    rw [List.length_nil, Nat.sub_zero] at hall
    refine hall.trans ?_
    cases built (List.take limit
        (values.filterMap (lineEvidence env target place.1 place.2.1 place.2.2))) with
    | none => rfl
    | some more => rfl

theorem extractStreams_eq (target : LogStreamTarget) (limit : ℕ) (streams : List PyValue)
    (hroom : evidence.length < limit) :
    extractStreams env target limit evidence streams =
      (built ((streams.flatMap (streamLines env target)).take (limit - evidence.length))).map
        fun more => (decide (limit ≤ (evidence ++ more).length), evidence ++ more) := by
  induction streams generalizing evidence with
  | nil => simp [extractStreams, built, hroom]
  | cons payload streams ih =>
    have hmissing : (limit - evidence.length : ℤ) = (limit - evidence.length : ℕ) := by omega
    rw [extractStreams, hmissing, streamEvidence_eq payload target (by omega), List.flatMap_cons,
      List.take_append, built_append]
    cases hbuilt : built ((streamLines env target payload).take (limit - evidence.length)) with
    | none => rfl
    | some more =>
      have hlength := length_of_built hbuilt
      rw [List.length_take] at hlength
      rw [Option.bind_some, Option.bind_some]
      by_cases hfull : limit ≤ (evidence ++ more).length
      · have hnone : limit - evidence.length - (streamLines env target payload).length = 0 := by
          rw [List.length_append] at hfull
          omega
        rw [if_pos (by exact_mod_cast hfull), hnone, List.take_zero, built, Option.map_some,
          Option.map_some, List.append_nil, decide_eq_true hfull]
      · have hleft : limit - evidence.length - (streamLines env target payload).length =
            limit - (evidence ++ more).length := by
          rw [List.length_append] at hfull ⊢
          omega
        rw [if_neg (by exact_mod_cast hfull), ih (not_le.mp hfull), hleft, Option.map_map]
        refine congrArg (Option.map · _) (funext fun rest => ?_)
        simp [List.append_assoc]

theorem extractBatches_eq (target : LogStreamTarget) (expectedName expectedLogql : String)
    (limit : ℕ) (batches : List PyValue) (hroom : evidence.length < limit) :
    extractBatches env target expectedName expectedLogql limit evidence batches =
      (built (((batches.flatMap (batchStreams expectedName expectedLogql)).flatMap
        (streamLines env target)).take (limit - evidence.length))).map (evidence ++ ·) := by
  induction batches generalizing evidence with
  | nil => simp [extractBatches, built]
  | cons batch batches ih =>
    rw [extractBatches, extractStreams_eq target limit _ hroom, List.flatMap_cons,
      List.flatMap_append, List.take_append, built_append]
    generalize hlines : (batchStreams expectedName expectedLogql batch).flatMap
      (streamLines env target) = lines
    cases hbuilt : built (lines.take (limit - evidence.length)) with
    | none => rfl
    | some more =>
      have hlength := length_of_built hbuilt
      rw [List.length_take] at hlength
      rw [Option.map_some, Option.bind_some, Option.bind_some]
      dsimp only
      by_cases hfull : limit ≤ (evidence ++ more).length
      · have hnone : limit - evidence.length - lines.length = 0 := by
          rw [List.length_append] at hfull
          omega
        rw [if_pos (decide_eq_true hfull), hnone, List.take_zero]
        simp [built]
      · have hleft : limit - evidence.length - lines.length = limit - (evidence ++ more).length := by
          rw [List.length_append] at hfull ⊢
          omega
        rw [if_neg (by simpa using hfull), ih (not_le.mp hfull), hleft, Option.map_map]
        refine congrArg (Option.map · _) (funext fun rest => ?_)
        simp [List.append_assoc]

/-- **An extraction is the beginning of the eligible lines.** -/
theorem extractLogEvidence_eq (batch : Fields × LogStreamTarget) {limit : ℕ} (hlimit : 0 < limit) :
    extractLogEvidence env batch.1 batch.2 limit =
      built ((eligibleLines env batch).take limit) := by
  rw [extractLogEvidence]
  have hroom : ([] : List PersistedLogEvidence).length < limit := hlimit
  refine (extractBatches_eq batch.2 _ _ limit _ hroom).trans ?_
  rw [eligibleLines, List.length_nil, Nat.sub_zero]
  cases built (List.take limit _) with
  | none => rfl
  | some more => rfl

/-! ## The reading -/

/-- The id of the line. -/
def evidenceId (item : PersistedLogEvidence) : String := item.event.id

theorem evict_of_le {maxItems : ℕ} (ids : List String) {order : List String}
    (h : order.length ≤ maxItems) : BoundedDedupe.evict maxItems ids order = (ids, order) := by
  cases order with
  | nil => rfl
  | cons oldest order => rw [BoundedDedupe.evict, if_neg (not_lt.mpr h)]

/-- The ids that were added and not dropped. -/
def BoundedDedupe.ofIds (maxItems : ℕ) (ids : List String) : BoundedDedupe := ⟨maxItems, ids, ids⟩

theorem add_of_mem {maxItems : ℕ} {ids : List String} {value : String} (h : value ∈ ids) :
    (BoundedDedupe.ofIds maxItems ids).add value = (false, .ofIds maxItems ids) := if_pos h

theorem add_of_not_mem {maxItems : ℕ} {ids : List String} {value : String} (h : value ∉ ids)
    (hroom : ids.length < maxItems) : (BoundedDedupe.ofIds maxItems ids).add value =
      (true, .ofIds maxItems (ids ++ [value])) := by
  have hevict : BoundedDedupe.evict maxItems (ids ++ [value]) (ids ++ [value]) =
      (ids ++ [value], ids ++ [value]) := by
    refine evict_of_le _ ?_
    rw [List.length_append, List.length_singleton]
    omega
  rw [BoundedDedupe.add, BoundedDedupe.ofIds, if_neg h, hevict]
  rfl

/-- The new lines are added; no id is dropped before there are enough lines. -/
theorem addEvidence_eq (limit : ℕ) (items : List PersistedLogEvidence)
    {unique : List PersistedLogEvidence} (hroom : unique.length < limit)
    (hitems : unique.length + items.length ≤ limit) :
    let found := unique ++ FirstWins.firstsAfter evidenceId (unique.map evidenceId) items
    addEvidence limit (.ofIds limit (unique.map evidenceId)) unique items =
      (decide (limit ≤ found.length), .ofIds limit (found.map evidenceId), found) := by
  induction items generalizing unique with
  | nil => simp [addEvidence, FirstWins.firstsAfter, hroom]
  | cons item items ih =>
    rw [List.length_cons] at hitems
    by_cases hknown : evidenceId item ∈ unique.map evidenceId
    · have hadd : (BoundedDedupe.ofIds limit (unique.map evidenceId)).add item.event.id = _ :=
        add_of_mem hknown
      simp only [addEvidence, hadd, Bool.false_eq_true, if_false, if_neg (not_le.mpr hroom),
        FirstWins.firstsAfter, if_pos hknown]
      exact ih hroom (by omega)
    · have hadd : (BoundedDedupe.ofIds limit (unique.map evidenceId)).add item.event.id = _ :=
        add_of_not_mem hknown (by rwa [List.length_map])
      have hids : unique.map evidenceId ++ [item.event.id] = (unique ++ [item]).map evidenceId := by
        rw [List.map_append]
        rfl
      have hafter : FirstWins.firstsAfter evidenceId (evidenceId item :: unique.map evidenceId) items =
          FirstWins.firstsAfter evidenceId ((unique ++ [item]).map evidenceId) items := by
        refine FirstWins.firstsAfter_congr fun k => ?_
        rw [← hids, List.mem_append, List.mem_singleton, List.mem_cons, or_comm]
        rfl
      simp only [addEvidence, hadd, if_true, FirstWins.firstsAfter, if_neg hknown, hids, hafter]
      by_cases hfull : limit ≤ (unique ++ [item]).length
      · -- nothing is left to add
        have hnil : items = [] := by
          rw [List.length_append, List.length_singleton] at hfull
          exact List.length_eq_zero_iff.mp (by omega)
        rw [if_pos hfull, hnil, FirstWins.firstsAfter, decide_eq_true hfull]
      · have hrest := ih (show (unique ++ [item]).length < limit from not_le.mp hfull) (by
          rw [List.length_append, List.length_singleton]
          omega)
        rw [if_neg hfull, hrest, List.append_assoc, List.singleton_append]

/-- **The batches are read as overlapping lists.** -/
theorem gather_eq {limit : ℕ} (completed : List (Fields × LogStreamTarget))
    {unique : List PersistedLogEvidence} (hroom : unique.length < limit) :
    gather env limit (.ofIds limit (unique.map evidenceId)) unique completed =
      window evidenceId limit (completed.map (eligibleLines env)) unique := by
  induction completed generalizing unique with
  | nil => rfl
  | cons batch completed ih =>
    obtain ⟨candidate, target⟩ := batch
    have hmissing : (limit - unique.length : ℤ) = (limit - unique.length : ℕ) := by omega
    rw [gather, hmissing, List.map_cons, window, if_neg (not_le.mpr hroom),
      extractLogEvidence_eq (candidate, target) (by omega)]
    cases hbuilt : built ((eligibleLines env (candidate, target)).take (limit - unique.length)) with
    | none => rfl
    | some items =>
      have hlength := length_of_built hbuilt
      rw [List.length_take] at hlength
      rw [Option.bind_some, Option.bind_some, addEvidence_eq limit items hroom (by omega)]
      by_cases hfull : limit ≤ (unique ++ FirstWins.firstsAfter evidenceId
          (unique.map evidenceId) items).length
      · rw [decide_eq_true hfull]
        cases completed with
        | nil => rfl
        | cons => rw [List.map_cons, window, if_pos hfull]
      · rw [decide_eq_false hfull]
        exact ih (not_le.mp hfull)

/-! ## What is hidden -/

/-- The different eligible lines of some batches. -/
def distinctLines (env : LogEnv) (batches : List (Fields × LogStreamTarget)) :
    List PersistedLogEvidence :=
  distinct evidenceId (batches.map (eligibleLines env))

/-- **What a read should return**: different lines, and as many as there are up to the limit. -/
def ReadsAll (env : LogEnv) (limit : ℤ) (batches : List (Fields × LogStreamTarget))
    (result : Option (List PersistedLogEvidence)) : Prop :=
  ∃ evidence, result = some evidence ∧ (evidence.map evidenceId).Nodup ∧
    (evidence.length : ℤ) = min limit (distinctLines env batches).length

/-- The reading of some completed batches. -/
def readBatches (env : LogEnv) (limit : ℤ) (batches : List (Fields × LogStreamTarget)) :
    Option (List PersistedLogEvidence) :=
  gather env (evidenceLimit limit) { maxItems := evidenceLimit limit } [] batches

/-- **When it does**: no batch hides new lines behind lines of earlier ones, and the limit is not
one that the reading does not take. -/
structure Unhidden (env : LogEnv) (limit : ℤ) (batches : List (Fields × LogStreamTarget)) :
    Prop where
  taken : min limit (distinctLines env batches).length =
    min (evidenceLimit limit : ℤ) (distinctLines env batches).length
  shown : Overlap.Unhidden evidenceId (evidenceLimit limit) (batches.map (eligibleLines env))

theorem readBatches_eq (limit : ℤ) (batches : List (Fields × LogStreamTarget)) :
    readBatches env limit batches =
      window evidenceId (evidenceLimit limit) (batches.map (eligibleLines env)) [] := by
  have hpos : 0 < evidenceLimit limit := by
    rw [evidenceLimit]
    omega
  have hroom : ([] : List PersistedLogEvidence).length < evidenceLimit limit := hpos
  exact gather_eq batches hroom

theorem readsAll_iff (limit : ℤ) (batches : List (Fields × LogStreamTarget)) :
    ReadsAll env limit batches (readBatches env limit batches) ↔
      min limit (distinctLines env batches).length =
        min (evidenceLimit limit : ℤ) (distinctLines env batches).length ∧
      Exhaustive evidenceId (evidenceLimit limit) (batches.map (eligibleLines env)) := by
  rw [ReadsAll, readBatches_eq]
  constructor
  · rintro ⟨found, hfound, -, hlength⟩
    have hle : found.length ≤ (distinctLines env batches).length := length_le_of_window hfound
    have hlimit := (window_sound hfound).2.2
    have hnone : found.length = 0 → (distinctLines env batches).length = 0 := by
      intro hzero
      obtain rfl := List.length_eq_zero_iff.mp hzero
      have hpos : 0 < evidenceLimit limit := by
        rw [evidenceLimit]
        omega
      exact List.length_eq_zero_iff.mpr (distinct_eq_nil_of_window hpos hfound)
    have htaken : min limit (distinctLines env batches).length =
        min (evidenceLimit limit : ℤ) (distinctLines env batches).length := by
      simp only [evidenceLimit, maxAiLogEvidence] at hlimit ⊢
      omega
    refine ⟨htaken, found, hfound, ?_⟩
    change found.length = min _ (distinctLines env batches).length
    omega
  · rintro ⟨htaken, found, hfound, hlength⟩
    refine ⟨found, hfound, (window_sound hfound).1, ?_⟩
    change found.length = min _ (distinctLines env batches).length at hlength
    omega

/-- **Lines are read up to the limit, however many of the batches there are, exactly when no batch
hides new ones.** -/
theorem readsAll_take_iff (limit : ℤ) (batches : List (Fields × LogStreamTarget)) :
    (∀ n, ReadsAll env limit (batches.take n) (readBatches env limit (batches.take n))) ↔
      Unhidden env limit batches := by
  simp only [readsAll_iff]
  constructor
  · intro h
    refine ⟨?_, exhaustive_iff_unhidden.mp fun n => ?_⟩
    · have hall := (h batches.length).1
      rwa [List.take_length] at hall
    · rw [← List.map_take]
      exact (h n).2
  · rintro ⟨htaken, hshown⟩ n
    have hle : (distinctLines env (batches.take n)).length ≤ (distinctLines env batches).length := by
      rw [distinctLines, List.map_take]
      exact length_distinct_take_le _ n
    refine ⟨?_, ?_⟩
    · simp only [evidenceLimit, maxAiLogEvidence] at htaken ⊢
      omega
    · rw [List.map_take]
      exact exhaustive_iff_unhidden.mpr hshown n

theorem readLogStreamEvidence_eq {query : EvidenceQuery}
    {completed : List (Fields × LogStreamTarget)}
    (h : completedBatches env query = some completed) (limit : ℤ) :
    readLogStreamEvidence env query limit = readBatches env limit completed := by
  rw [readLogStreamEvidence, h]
  rfl

/-- **A read finds all lines up to the limit when no batch hides new ones**, and only then does
every reading of the batches as they come. -/
theorem evidence_exhaustive_iff (env : LogEnv) (query : EvidenceQuery) (limit : ℤ)
    {completed : List (Fields × LogStreamTarget)}
    (h : completedBatches env query = some completed) :
    (Unhidden env limit completed →
      ReadsAll env limit completed (readLogStreamEvidence env query limit)) ∧
    ((∀ n, ReadsAll env limit (completed.take n) (readBatches env limit (completed.take n))) ↔
      Unhidden env limit completed) := by
  refine ⟨fun hshown => ?_, readsAll_take_iff limit completed⟩
  have hall := (readsAll_take_iff limit completed).mpr hshown completed.length
  rwa [List.take_length, ← readLogStreamEvidence_eq h limit] at hall

/-! ## Two batches of a stream -/

/-- A Pod of which nothing else is known. -/
def samplePod : LogStreamTarget where
  targetType := .pod
  clusterId := "c"
  namespaceName := "ns"
  name := "p"
  kind := "Pod"
  resourceType := "pod"
  pods := ["p"]
  container := none
  uid := none
  ownerKind := none
  ownerName := none
  ownerUid := none

/-- Texts of strings only, integers as times, and lines as they are. -/
def sampleEnv : LogEnv where
  str value := value.str?.getD ""
  observedAt value := value.number?
  redactLogLine := id
  digest := id
  link _ := ""
  targetFromCommand _ := some samplePod

/-- A completed batch with some lines, all of one time. -/
def sampleBatch (commandId : String) (lines : List String) : Fields :=
  [("command_id", .str commandId), ("correlation_id", .str "corr"), ("cluster_id", .str "c"),
    ("action", .str "telemetry.query.run"), ("status", .str "completed"),
    ("payload", .dict [("requested_by", .str "u"), ("payload", .dict [("query", .dict
      [("name", .str "q"), ("query", .str "{}"),
        ("log_stream", .dict [("protocol", .str "log-stream.v1")])])])]),
    ("result", .dict [("result", .list [.dict [("source", .str "loki"), ("query_name", .str "q"),
      ("query", .str "{}"), ("redaction_summary", .dict [("applied", .bool true)]),
      ("streams", .list [.dict [("stream", .dict [("namespace", .str "ns"), ("pod", .str "p"),
        ("container", .str "app")]), ("values", .list (lines.map fun line =>
          .dict [("timestamp", .int 1), ("line", .str line)]))]])]])])]

/-- The read of two batches. -/
def sampleQuery (first second : List String) : EvidenceQuery where
  userId := .str "u"
  streamId := "1"
  row := some (sampleBatch "1" first)
  reresolveTarget := some
  listAgentCommands _ :=
    some [.dict (sampleBatch "1" first), .dict (sampleBatch "2" second)]

theorem completedBatches_sample (first second : List String) :
    completedBatches sampleEnv (sampleQuery first second) =
      some [(sampleBatch "1" first, samplePod), (sampleBatch "2" second, samplePod)] := by
  rfl

/-- Two batches without a common line. -/
theorem evidence_exhaustive_sample :
    (∀ n, ReadsAll sampleEnv 2
      ([(sampleBatch "1" ["a"], samplePod), (sampleBatch "2" ["b"], samplePod)].take n)
      (readBatches sampleEnv 2
        ([(sampleBatch "1" ["a"], samplePod), (sampleBatch "2" ["b"], samplePod)].take n))) ↔
      Unhidden sampleEnv 2
        [(sampleBatch "1" ["a"], samplePod), (sampleBatch "2" ["b"], samplePod)] :=
  (evidence_exhaustive_iff sampleEnv (sampleQuery ["a"] ["b"]) 2 (completedBatches_sample _ _)).2

/-- **A line behind a known one is hidden**: one line is returned of two that are there, although
two may be. -/
theorem evidence_hidden : ¬ReadsAll sampleEnv 2
    [(sampleBatch "1" ["a"], samplePod), (sampleBatch "2" ["a", "b"], samplePod)]
    (readLogStreamEvidence sampleEnv (sampleQuery ["a"] ["a", "b"]) 2) := by
  rintro ⟨evidence, hread, -, hlength⟩
  have hone : (readLogStreamEvidence sampleEnv (sampleQuery ["a"] ["a", "b"]) 2).map List.length =
      some 1 := by decide
  have htwo : (distinctLines sampleEnv
      [(sampleBatch "1" ["a"], samplePod), (sampleBatch "2" ["a", "b"], samplePod)]).length = 2 := by
    decide
  rw [hread, Option.map_some, Option.some.injEq] at hone
  rw [hone, htwo] at hlength
  cases hlength

end Opsia.LogStream
