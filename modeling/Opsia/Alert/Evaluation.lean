import Mathlib.Data.Rat.Defs
import Opsia.Lib.Json
import Opsia.Lib.Runs
import Opsia.Lib.Table

/-!
# The evaluation of alert rules

`domains/alert/evaluation.py` and the statements of `domains/alert/repository.py`: one
evaluator reads the state of a rule and a subject, compares a sample with the threshold and
writes the state back, and the ledger of alert events moves with it. Operators acknowledge and
promote events, and the end of an incident resolves those that are linked to it.

The tables are those of one workspace. The deployment runs one evaluator and stops it before it
starts another, so there is at most one sample at work; between its reads and its writes any
other operation may happen. The value of a finite float is a rational number.
-/

namespace Opsia.Alert

/-! ## Samples and rules -/

/-- `AlertMeasurement.subject`: a pod of a cluster. -/
structure AlertSubject : Type where
  cluster : String
  namespaceName : String
  kind : String
  name : String
  deriving DecidableEq

/-- An item of the evidence of a sample. -/
structure EvidenceItem : Type where
  observedAt : Option ℤ
  rest : Json
  deriving DecidableEq

structure AlertMeasurement : Type where
  subject : AlertSubject
  observedValue : ℚ
  observedAt : ℤ
  evidence : List EvidenceItem
  evidence_ne : evidence ≠ []
  deriving DecidableEq

/-- The comparators that a rule can have. -/
inductive AlertComparator : Type where
  | gt
  | ge
  | lt
  | le
  deriving DecidableEq, Repr

/-- A row of `alert_rules`, without its counters. -/
structure AlertRule : Type where
  ruleId : String
  name : String
  comparator : AlertComparator
  threshold : ℚ
  forSeconds : ℕ
  severity : String
  channels : List String
  /-- the schema of a rule asks for a second at least -/
  forSeconds_pos : 0 < forSeconds
  deriving DecidableEq

def compareAlertValue (value : ℚ) (comparator : AlertComparator) (threshold : ℚ) : Bool :=
  match comparator with
  | .gt => threshold < value
  | .ge => threshold ≤ value
  | .lt => value < threshold
  | .le => value ≤ threshold

/-- `_last_observed_at`, of the evidence that a state has. -/
def lastObservedAt (evidence : List EvidenceItem) : Option ℤ :=
  (evidence.filterMap EvidenceItem.observedAt).max?

/-- A number of seconds in microseconds. -/
def seconds (n : ℕ) : ℤ := n * 1000000

/-! ## The tables -/

inductive AlertEventStatus : Type where
  | firing
  | acked
  | resolved
  deriving DecidableEq, Repr

/-- A row of `alert_events` that belongs to a rule. -/
structure AlertEvent : Type where
  eventId : String
  ruleId : String
  ruleName : String
  source : String
  severity : String
  subjectKey : String
  subject : AlertSubject
  firedAt : ℤ
  resolvedAt : Option ℤ
  status : AlertEventStatus
  observedValue : ℚ
  threshold : ℚ
  evidence : List EvidenceItem
  incidentId : Option String
  acknowledged : Option (ℤ × String)
  promoted : Option (ℤ × String)
  deriving DecidableEq

/-- `status in ('firing', 'acked')`. -/
def AlertEvent.active (event : AlertEvent) : Bool := event.status ≠ .resolved

/-- The rule and the subject of a row. -/
abbrev TargetKey : Type := String × String

/-- The rule and the subject of an event. -/
def AlertEvent.target (event : AlertEvent) : TargetKey := (event.ruleId, event.subjectKey)

/-- A row of `alert_rule_target_states`. -/
structure TargetState : Type where
  ruleId : String
  subjectKey : String
  subject : AlertSubject
  conditionSince : Option ℤ
  activeEventId : Option String
  lastObservedValue : ℚ
  lastEvidence : List EvidenceItem
  lastEvaluatedAt : ℤ
  deriving DecidableEq

/-- The primary key of a target state. -/
def TargetState.key (row : TargetState) : TargetKey := (row.ruleId, row.subjectKey)

/-- The transitions that are told to the notifier. -/
inductive TransitionKind : Type where
  | firing
  | resolved
  deriving DecidableEq, Repr

/-- `_notification_transition`, without the fields of the event. -/
structure AlertTransition : Type where
  eventId : String
  kind : TransitionKind
  channelIds : List String
  deriving DecidableEq

/-- What the model leaves to the installation. -/
structure AlertEnv : Type where
  /-- `AlertMeasurement.subject_key`: a digest of the subject -/
  subjectKey : AlertSubject → String
  /-- the event ids in the order in which they are drawn: `ale-` and a UUID -/
  uuid : ℕ → String
  uuid_injective : Function.Injective uuid

variable (env : AlertEnv)

/-! ## A sample at work -/

/-- A sample with the state that was read for it. -/
structure Evaluation : Type where
  rule : AlertRule
  measurement : AlertMeasurement
  evaluatedAt : ℤ
  state : Option TargetState
  /-- the active event has been refreshed -/
  refreshed : Bool
  deriving DecidableEq

namespace Evaluation

/-- The rule and the subject of a sample. -/
def key (evaluation : Evaluation) : TargetKey :=
  (evaluation.rule.ruleId, env.subjectKey evaluation.measurement.subject)

/-- The sample breaches the threshold. -/
def matched (evaluation : Evaluation) : Bool :=
  compareAlertValue evaluation.measurement.observedValue evaluation.rule.comparator
    evaluation.rule.threshold

/-- `state_payload`, with the fields that a branch adds. -/
def row (evaluation : Evaluation) (conditionSince : Option ℤ) (activeEventId : Option String) :
    TargetState where
  ruleId := evaluation.rule.ruleId
  subjectKey := env.subjectKey evaluation.measurement.subject
  subject := evaluation.measurement.subject
  conditionSince := conditionSince
  activeEventId := activeEventId
  lastObservedValue := evaluation.measurement.observedValue
  lastEvidence := evaluation.measurement.evidence
  lastEvaluatedAt := evaluation.evaluatedAt

/-- `_firing_event`, with the event id that is drawn. -/
def firingEvent (evaluation : Evaluation) (eventId : String) : AlertEvent where
  eventId := eventId
  ruleId := evaluation.rule.ruleId
  ruleName := evaluation.rule.name
  source := "opsia"
  severity := evaluation.rule.severity
  subjectKey := env.subjectKey evaluation.measurement.subject
  subject := evaluation.measurement.subject
  firedAt := evaluation.evaluatedAt
  resolvedAt := none
  status := .firing
  observedValue := evaluation.measurement.observedValue
  threshold := evaluation.rule.threshold
  evidence := evaluation.measurement.evidence
  incidentId := none
  acknowledged := none
  promoted := none

end Evaluation

/-- What `_evaluate_measurement` does with a sample that is new. -/
inductive Course : Type where
  /-- the state is written without an event -/
  | observe (conditionSince : Option ℤ)
  /-- `_recover` resolves the active event -/
  | recover (eventId : String)
  /-- the active event goes on -/
  | refresh (eventId : String) (conditionSince : Option ℤ)
  /-- the condition has held for long enough -/
  | activate (conditionSince : ℤ)
  deriving DecidableEq

/-- The branch of `_evaluate_measurement` that a sample takes. -/
def Evaluation.course (evaluation : Evaluation) : Course :=
  let conditionSince := evaluation.state.bind TargetState.conditionSince
  let observedAt := evaluation.measurement.observedAt
  match evaluation.matched, evaluation.state.bind TargetState.activeEventId with
  | false, none => .observe none
  | false, some eventId => .recover eventId
  | true, some eventId => .refresh eventId conditionSince
  | true, none =>
    match conditionSince with
    | none => .observe (some observedAt)
    | some since =>
      if observedAt - since < seconds evaluation.rule.forSeconds then .observe (some since)
      else .activate since

/-! ## Statements -/

/-- The tables, the sample at work, and what the notifier was told. -/
structure AlertState : Type where
  targets : Table TargetState.key
  events : Table AlertEvent.eventId
  evaluation : Option Evaluation
  transitions : List AlertTransition
  /-- the number of event ids that were drawn -/
  drawn : ℕ

/-- A state without events. -/
def AlertState.empty : AlertState := ⟨Table.empty, Table.empty, none, [], 0⟩

namespace AlertState

def upsertAlertRuleTargetState (s : AlertState) (row : TargetState) : AlertState :=
  { s with targets := s.targets.put row }

/-- The event with a sample in it. -/
def observed (event : AlertEvent) (evaluation : Evaluation) : AlertEvent :=
  { event with
    observedValue := evaluation.measurement.observedValue
    evidence := evaluation.measurement.evidence }

/-- The event that a sample resolves. -/
def closed (event : AlertEvent) (evaluation : Evaluation) : AlertEvent :=
  { observed event evaluation with
    status := .resolved
    resolvedAt := some evaluation.evaluatedAt }

/-- The state of a target whose event a sample resolves. -/
def recovered (row : TargetState) (evaluation : Evaluation) : TargetState :=
  { row with
    conditionSince := none
    activeEventId := none
    lastObservedValue := evaluation.measurement.observedValue
    lastEvidence := evaluation.measurement.evidence
    lastEvaluatedAt := evaluation.evaluatedAt }

def refreshAlertRuleEvent (s : AlertState) (eventId : String) (evaluation : Evaluation) :
    AlertState :=
  { s with
    events := s.events.modify eventId
      (fun event => if event.active then observed event evaluation else event)
      (fun event => by split <;> rfl) }

/-- `activate_alert_rule_event`: the event that is active afterwards, and whether it is new.
`none` stands for a violation of the primary key. -/
def activateAlertRuleEvent (s : AlertState) (evaluation : Evaluation) (conditionSince : ℤ)
    (event : AlertEvent) : Option (AlertEvent × Bool × AlertState) :=
  match s.events.rows.find? fun row => row.active && row.target = event.target with
  | some saved =>
    some (saved, false,
      s.upsertAlertRuleTargetState (evaluation.row env (some conditionSince) (some saved.eventId)))
  | none =>
    (s.events.insert? event).map fun events =>
      (event, true,
        { s with events := events }.upsertAlertRuleTargetState
          (evaluation.row env (some conditionSince) (some event.eventId)))

/-- `resolve_alert_rule_event`: `none` when no row is active. -/
def resolveAlertRuleEvent (s : AlertState) (evaluation : Evaluation) (eventId : String) :
    Option AlertState :=
  if (s.events.find? eventId).any AlertEvent.active then
    some
      { s with
        events := s.events.modify eventId (closed · evaluation) (fun _ => rfl)
        targets := s.targets.modify (evaluation.key env) (recovered · evaluation) (fun _ => rfl) }
  else none

def acknowledgeAlertEvent (s : AlertState) (eventId actorId : String) (now : ℤ) : AlertState :=
  { s with
    events := s.events.modify eventId
      (fun event =>
        if event.status = .firing then
          { event with status := .acked, acknowledged := some (now, actorId) }
        else event)
      (fun event => by split <;> rfl) }

def promoteAlertEvent (s : AlertState) (eventId incidentId actorId : String) (now : ℤ) :
    AlertState :=
  { s with
    events := s.events.modify eventId
      (fun event =>
        if event.incidentId.any (· ≠ "") then event
        else { event with incidentId := some incidentId, promoted := some (now, actorId) })
      (fun event => by split <;> rfl) }

/-- The event is active and linked to an incident. -/
def linked (incidentId : String) (event : AlertEvent) : Bool :=
  event.active && event.incidentId = some incidentId

def resolveIncidentAlertEvents (s : AlertState) (incidentId : String) (now : ℤ) : AlertState :=
  { s with
    events := s.events.modifyWhere (linked incidentId)
      (fun event => { event with status := .resolved, resolvedAt := some now }) (fun _ => rfl) }

/-- The notifier is told in the transaction of the transition. -/
def tell (s : AlertState) (rule : AlertRule) (eventId : String) (kind : TransitionKind) :
    AlertState :=
  { s with transitions := s.transitions ++ [⟨eventId, kind, rule.channels⟩] }

end AlertState

open AlertState

/-! ## The evaluator -/

/-- The read of `_evaluate_measurement`: a sample that is not newer than the evidence of the
state is dropped. -/
def readTarget (s : AlertState) (rule : AlertRule) (measurement : AlertMeasurement)
    (evaluatedAt : ℤ) : AlertState :=
  let state := s.targets.find? (rule.ruleId, env.subjectKey measurement.subject)
  let last := state.bind fun row => lastObservedAt row.lastEvidence
  { s with
    evaluation :=
      if last.any (measurement.observedAt ≤ ·) then none
      else some ⟨rule, measurement, evaluatedAt, state, false⟩ }

/-- The refresh of the active event, before the state is written. -/
def refreshActive (s : AlertState) : Option AlertState :=
  s.evaluation.bind fun evaluation =>
    match evaluation.course with
    | .refresh eventId _ =>
      some
        { s.refreshAlertRuleEvent eventId evaluation with
          evaluation := some { evaluation with refreshed := true } }
    | _ => none

/-- The write of `_evaluate_measurement`. A transition that cannot be staged rolls the write
back. -/
def writeTarget (s : AlertState) (staged : Bool) : Option AlertState :=
  s.evaluation.bind fun evaluation =>
    let s := { s with evaluation := none }
    match evaluation.course with
    | .observe conditionSince =>
      some (s.upsertAlertRuleTargetState (evaluation.row env conditionSince none))
    | .refresh eventId conditionSince =>
      if evaluation.refreshed then
        some (s.upsertAlertRuleTargetState (evaluation.row env conditionSince (some eventId)))
      else none
    | .recover eventId =>
      some <|
        match s.resolveAlertRuleEvent env evaluation eventId with
        | some next => if staged then next.tell evaluation.rule eventId .resolved else s
        | none => s
    | .activate conditionSince =>
      let event := evaluation.firingEvent env (env.uuid s.drawn)
      let s := { s with drawn := s.drawn + 1 }
      some <|
        match s.activateAlertRuleEvent env evaluation conditionSince event with
        | some (saved, true, next) =>
          if staged then next.tell evaluation.rule saved.eventId .firing else s
        | some (_, false, next) => next
        | none => s

/-! ## Operations -/

/-- The operations on the tables. -/
inductive AlertAction : Type where
  | readTarget (rule : AlertRule) (measurement : AlertMeasurement) (evaluatedAt : ℤ)
  | refreshActive
  | writeTarget (staged : Bool)
  | acknowledge (eventId actorId : String) (now : ℤ)
  | promote (eventId incidentId actorId : String) (now : ℤ)
  | resolveIncident (incidentId : String) (now : ℤ)
  deriving DecidableEq

/-- One operation; without anything to do the tables stay as they are. -/
def step (s : AlertState) : AlertAction → AlertState
  | .readTarget rule measurement evaluatedAt => readTarget env s rule measurement evaluatedAt
  | .refreshActive => (refreshActive s).getD s
  | .writeTarget staged => (writeTarget env s staged).getD s
  | .acknowledge eventId actorId now => s.acknowledgeAlertEvent eventId actorId now
  | .promote eventId incidentId actorId now => s.promoteAlertEvent eventId incidentId actorId now
  | .resolveIncident incidentId now => s.resolveIncidentAlertEvents incidentId now

end Opsia.Alert
