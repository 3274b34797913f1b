import Opsia.Alert.Evaluation

/-!
# Occurrences of Alertmanager

`upsert_external_alert_event` of `domains/alert/repository.py` keeps one row for every occurrence:
notifications may be repeated and come late, while operators acknowledge and promote the row and the
end of an incident resolves it. Every operation is one transaction.
-/

namespace Opsia.Alert

/-! ## Rows -/

/-- The row of an occurrence in `alert_events`; it belongs to no rule. -/
structure ExternalAlertEvent : Type where
  eventId : String
  workspaceId : String
  ruleName : String
  source : String
  severity : String
  subjectKey : String
  subject : Json
  firedAt : ℤ
  resolvedAt : Option ℤ
  status : AlertEventStatus
  observedValue : Option ℚ
  threshold : Option ℚ
  seriesIdentity : Option Json
  evidence : List Json
  incidentId : Option String
  acknowledged : Option (ℤ × String) := none
  promoted : Option (ℤ × String) := none

/-- The table of occurrences. -/
abbrev Occurrences : Type := Table ExternalAlertEvent.eventId

/-- The payload of `upsert_external_alert_event`, for a firing alert or for a resolved one. -/
structure AlertNotification : Type where
  eventId : String
  workspaceId : String
  ruleName : String
  source : String
  severity : String
  subjectKey : String
  subject : Json
  firedAt : ℤ
  /-- the time of the end, when the alert is resolved -/
  resolvedAt : Option ℤ
  observedValue : Option ℚ
  threshold : Option ℚ
  seriesIdentity : Option Json
  evidence : List Json
  incidentId : Option String

/-- `payload["status"]`: `resolved_at` is given for a resolved alert only. -/
def AlertNotification.status (notification : AlertNotification) : AlertEventStatus :=
  if notification.resolvedAt.isSome then .resolved else .firing

/-- The row that is inserted. -/
def AlertNotification.row (notification : AlertNotification) : ExternalAlertEvent where
  eventId := notification.eventId
  workspaceId := notification.workspaceId
  ruleName := notification.ruleName
  source := notification.source
  severity := notification.severity
  subjectKey := notification.subjectKey
  subject := notification.subject
  firedAt := notification.firedAt
  resolvedAt := notification.resolvedAt
  status := notification.status
  observedValue := notification.observedValue
  threshold := notification.threshold
  seriesIdentity := notification.seriesIdentity
  evidence := notification.evidence
  incidentId := notification.incidentId

/-! ## Statements -/

/-- `incident_changed`; a comparison with `NULL` is not true. -/
def incidentChanged (excluded stored : Option String) : Bool :=
  excluded.isSome && stored.isSome && excluded ≠ stored

def resolvedIsTerminal (excluded stored : ExternalAlertEvent) : Bool :=
  stored.status = .resolved && excluded.status ≠ .resolved &&
    !incidentChanged excluded.incidentId stored.incidentId

/-- `ON CONFLICT (event_id) DO UPDATE` of `upsert_external_alert_event`. -/
def conflictUpdate (excluded stored : ExternalAlertEvent) : ExternalAlertEvent :=
  let terminal := resolvedIsTerminal excluded stored
  let changed := incidentChanged excluded.incidentId stored.incidentId
  { stored with
    workspaceId := excluded.workspaceId
    ruleName := excluded.ruleName
    source := excluded.source
    severity := excluded.severity
    subjectKey := excluded.subjectKey
    subject := excluded.subject
    resolvedAt := if terminal then stored.resolvedAt else excluded.resolvedAt
    status := if terminal then stored.status else excluded.status
    observedValue := if terminal then stored.observedValue else excluded.observedValue
    threshold := if terminal then stored.threshold else excluded.threshold
    seriesIdentity := excluded.seriesIdentity.or stored.seriesIdentity
    evidence := if terminal then stored.evidence else excluded.evidence
    incidentId := excluded.incidentId.or stored.incidentId
    acknowledged := if changed then none else stored.acknowledged
    promoted := if changed then none else stored.promoted }

theorem eventId_conflictUpdate (excluded stored : ExternalAlertEvent) :
    (conflictUpdate excluded stored).eventId = stored.eventId := rfl

namespace Occurrences

def upsertExternalAlertEvent (s : Occurrences) (notification : AlertNotification) : Occurrences :=
  match s.find? notification.eventId with
  | none => s.insertIfAbsent notification.row
  | some _ =>
    s.modify notification.eventId (conflictUpdate notification.row) (eventId_conflictUpdate _)

/-- `acknowledge_alert_event`; a resolved event is refused. -/
def acknowledgeAlertEvent (s : Occurrences) (workspaceId eventId actorId : String) (now : ℤ) :
    Occurrences :=
  s.modify eventId
    (fun event =>
      if event.workspaceId = workspaceId ∧ event.status = .firing then
        { event with status := .acked, acknowledged := some (now, actorId) }
      else event)
    (fun event => by split <;> rfl)

def promoteAlertEvent (s : Occurrences) (workspaceId eventId incidentId actorId : String)
    (now : ℤ) : Occurrences :=
  s.modify eventId
    (fun event =>
      if event.workspaceId = workspaceId ∧ ¬event.incidentId.any (· ≠ "") then
        { event with incidentId := some incidentId, promoted := some (now, actorId) }
      else event)
    (fun event => by split <;> rfl)

def resolveIncidentAlertEvents (s : Occurrences) (workspaceId incidentId : String) (now : ℤ) :
    Occurrences :=
  s.modifyWhere
    (fun event => event.workspaceId = workspaceId && event.incidentId = some incidentId &&
      event.status ≠ .resolved)
    (fun event => { event with status := .resolved, resolvedAt := some now }) fun _ => rfl

/-- What can happen to occurrences. -/
inductive Action : Type where
  | notify (notification : AlertNotification)
  | acknowledge (workspaceId eventId actorId : String) (now : ℤ)
  | promote (workspaceId eventId incidentId actorId : String) (now : ℤ)
  | resolveIncident (workspaceId incidentId : String) (now : ℤ)

/-- One transaction. -/
def step (s : Occurrences) : Action → Occurrences
  | .notify notification => s.upsertExternalAlertEvent notification
  | .acknowledge workspaceId eventId actorId now =>
    s.acknowledgeAlertEvent workspaceId eventId actorId now
  | .promote workspaceId eventId incidentId actorId now =>
    s.promoteAlertEvent workspaceId eventId incidentId actorId now
  | .resolveIncident workspaceId incidentId now =>
    s.resolveIncidentAlertEvents workspaceId incidentId now

end Occurrences

end Opsia.Alert
