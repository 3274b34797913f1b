import Opsia.Alert.External

/-!
# The status of an occurrence

A firing notification leaves a resolved row as it is, but it writes its own status over an
acknowledged one. Apart from that the status of a row only moves forward.
-/

namespace Opsia.Alert

/-- The order of the statuses. -/
def AlertEventStatus.rank : AlertEventStatus → ℕ
  | .firing => 0
  | .acked => 1
  | .resolved => 2

theorem AlertEventStatus.rank_le_resolved (status : AlertEventStatus) :
    status.rank ≤ AlertEventStatus.resolved.rank := by
  cases status <;> decide

namespace Occurrences

/-! ## One row -/

/-- What a step does to a row. -/
def Action.effect (stored : ExternalAlertEvent) : Action → ExternalAlertEvent
  | .notify notification =>
    if notification.eventId = stored.eventId then conflictUpdate notification.row stored else stored
  | .acknowledge workspaceId eventId actorId now =>
    if eventId = stored.eventId ∧ stored.workspaceId = workspaceId ∧ stored.status = .firing then
      { stored with status := .acked, acknowledged := some (now, actorId) }
    else stored
  | .promote workspaceId eventId incidentId actorId now =>
    if eventId = stored.eventId ∧ stored.workspaceId = workspaceId ∧
        ¬stored.incidentId.any (· ≠ "") then
      { stored with incidentId := some incidentId, promoted := some (now, actorId) }
    else stored
  | .resolveIncident workspaceId incidentId now =>
    if stored.workspaceId = workspaceId ∧ stored.incidentId = some incidentId ∧
        stored.status ≠ .resolved then
      { stored with status := .resolved, resolvedAt := some now }
    else stored

variable {stored : ExternalAlertEvent}

/-- **A row stays, changed by the effect of the step.** -/
theorem find?_step {s : Occurrences} {eventId : String} (h : s.find? eventId = some stored)
    (a : Action) :
    (s.step a).find? eventId = some (a.effect stored) := by
  obtain rfl := Table.key_of_find? h
  cases a with
  | notify notification =>
    simp only [step, upsertExternalAlertEvent, Action.effect]
    cases hfind : s.find? notification.eventId with
    | none =>
      have hne : notification.eventId ≠ stored.eventId := by
        rintro heq
        rw [heq, h] at hfind
        cases hfind
      rw [if_neg hne]
      exact (Table.find?_insertIfAbsent s _ _).trans
        ((if_neg fun heq => hne heq.symm).trans h)
    | some _ =>
      dsimp only
      rw [Table.find?_modify, h]
      split_ifs with hid hid' hid'
      · rfl
      · exact absurd hid.symm hid'
      · exact absurd hid'.symm hid
      · rfl
  | acknowledge workspaceId eventId actorId now =>
    simp only [step, acknowledgeAlertEvent, Action.effect]
    rw [Table.find?_modify, h]
    by_cases hid : stored.eventId = eventId
    · simp [hid]
    · simp [hid, Ne.symm hid]
  | promote workspaceId eventId incidentId actorId now =>
    simp only [step, promoteAlertEvent, Action.effect]
    rw [Table.find?_modify, h]
    by_cases hid : stored.eventId = eventId
    · simp [hid]
    · simp [hid, Ne.symm hid]
  | resolveIncident workspaceId incidentId now =>
    simp only [step, resolveIncidentAlertEvents, Action.effect]
    rw [Table.find?_modifyWhere, h]
    simp [and_assoc]

/-- The notification says that the incident of a row is another one. -/
def ChangesIncident (s : Occurrences) (a : Action) : Prop :=
  ∃ notification stored, a = .notify notification ∧
    s.find? notification.eventId = some stored ∧
      incidentChanged notification.incidentId stored.incidentId = true

/-- A firing notification comes for an acknowledged row. -/
def NotifiesAcknowledged (s : Occurrences) (a : Action) : Prop :=
  ∃ notification stored, a = .notify notification ∧
    s.find? notification.eventId = some stored ∧ stored.status = .acked ∧
      notification.status = .firing

/-- Every status moves along firing, acked, resolved. -/
def MovesForward (s s' : Occurrences) : Prop :=
  ∀ eventId stored, s.find? eventId = some stored → ∃ row, s'.find? eventId = some row ∧
    stored.status.rank ≤ row.status.rank

/-- A resolved row keeps its end and its measurements. -/
def KeepsResolved (s s' : Occurrences) : Prop :=
  ∀ eventId stored, s.find? eventId = some stored → stored.status = .resolved →
    ∃ row, s'.find? eventId = some row ∧ row.resolvedAt = stored.resolvedAt ∧
      row.observedValue = stored.observedValue ∧ row.threshold = stored.threshold ∧
        row.evidence = stored.evidence

/-- The step is no notification of a resolved alert. -/
def Action.IsResolved (a : Action) : Prop :=
  ∃ notification, a = .notify notification ∧ notification.status = .resolved

/-! ## Steps -/

variable {s : Occurrences} {a : Action}

theorem status_conflictUpdate {notification : AlertNotification}
    (hsame : incidentChanged notification.incidentId stored.incidentId = false) :
    (conflictUpdate notification.row stored).status =
      if stored.status = .resolved then .resolved else notification.status := by
  have hrow : notification.row.status = notification.status := rfl
  have hincident : notification.row.incidentId = notification.incidentId := rfl
  simp only [conflictUpdate, resolvedIsTerminal, hrow, hincident, hsame]
  by_cases hresolved : stored.status = .resolved
  · by_cases hnew : notification.status = .resolved <;> simp [hresolved, hnew]
  · simp [hresolved]

theorem incident_of_same {notification : AlertNotification}
    (hsame : ¬ChangesIncident s (.notify notification))
    (hfind : s.find? notification.eventId = some stored) :
    incidentChanged notification.incidentId stored.incidentId = false := by
  by_contra hchanged
  exact hsame ⟨notification, stored, rfl, hfind, by simpa using hchanged⟩

/-- **A step moves the status of a row forward**, unless a firing notification comes for an
acknowledged row. -/
theorem rank_le_effect (hfind : s.find? stored.eventId = some stored) (hsame : ¬ChangesIncident s a)
    (hacked : ¬NotifiesAcknowledged s a) :
    stored.status.rank ≤ (a.effect stored).status.rank := by
  cases a with
  | notify notification =>
    simp only [Action.effect]
    split_ifs with hid
    · have hstored : s.find? notification.eventId = some stored := by rw [hid, hfind]
      have hincident := incident_of_same hsame hstored
      rw [status_conflictUpdate hincident]
      cases hstatus : stored.status with
      | firing => exact Nat.zero_le _
      | acked =>
        cases hnew : notification.status with
        | firing => exact absurd ⟨notification, stored, rfl, hstored, hstatus, hnew⟩ hacked
        | acked => exact Nat.le_refl _
        | resolved => exact AlertEventStatus.rank_le_resolved _
      | resolved => exact Nat.le_refl _
    · exact Nat.le_refl _
  | acknowledge workspaceId eventId actorId now =>
    simp only [Action.effect]
    split_ifs with hfiring
    · rw [hfiring.2.2]
      exact Nat.zero_le _
    · exact Nat.le_refl _
  | promote workspaceId eventId incidentId actorId now =>
    simp only [Action.effect]
    split_ifs <;> exact Nat.le_refl _
  | resolveIncident workspaceId incidentId now =>
    simp only [Action.effect]
    split_ifs
    · exact AlertEventStatus.rank_le_resolved _
    · exact Nat.le_refl _

/-- **A resolved row keeps its end and its measurements** against anything but a resolved
notification. -/
theorem keepsResolved_effect (hfind : s.find? stored.eventId = some stored)
    (hresolved : stored.status = .resolved) (hsame : ¬ChangesIncident s a) (hfiring : ¬a.IsResolved)
    :
    (a.effect stored).resolvedAt = stored.resolvedAt ∧
      (a.effect stored).observedValue = stored.observedValue ∧
        (a.effect stored).threshold = stored.threshold ∧
          (a.effect stored).evidence = stored.evidence := by
  cases a with
  | notify notification =>
    simp only [Action.effect]
    split_ifs with hid
    · have hstored : s.find? notification.eventId = some stored := by rw [hid, hfind]
      have hincident := incident_of_same hsame hstored
      have hnew : notification.status ≠ .resolved := fun hnew => hfiring ⟨notification, rfl, hnew⟩
      have hterminal : resolvedIsTerminal notification.row stored = true := by
        have hrow : notification.row.status = notification.status := rfl
        have hincidentRow : notification.row.incidentId = notification.incidentId := rfl
        simp [resolvedIsTerminal, hresolved, hrow, hnew, hincidentRow, hincident]
      simp only [conflictUpdate, hterminal, if_true, and_self]
    · exact ⟨rfl, rfl, rfl, rfl⟩
  | acknowledge workspaceId eventId actorId now =>
    simp only [Action.effect]
    split_ifs <;> exact ⟨rfl, rfl, rfl, rfl⟩
  | promote workspaceId eventId incidentId actorId now =>
    simp only [Action.effect]
    split_ifs <;> exact ⟨rfl, rfl, rfl, rfl⟩
  | resolveIncident workspaceId incidentId now =>
    have hend : Action.effect stored (.resolveIncident workspaceId incidentId now) = stored :=
      if_neg fun h => h.2.2 hresolved
    rw [hend]
    exact ⟨rfl, rfl, rfl, rfl⟩

theorem movesForward_step (hsame : ¬ChangesIncident s a) (hacked : ¬NotifiesAcknowledged s a) :
    MovesForward s (s.step a) := by
  intro eventId stored hfind
  refine ⟨a.effect stored, find?_step hfind a, rank_le_effect ?_ hsame hacked⟩
  rw [Table.key_of_find? hfind, hfind]

theorem keepsResolved_step (hsame : ¬ChangesIncident s a) (hfiring : ¬a.IsResolved) :
    KeepsResolved s (s.step a) := by
  intro eventId stored hfind hresolved
  refine ⟨a.effect stored, find?_step hfind a, keepsResolved_effect ?_ hresolved hsame hfiring⟩
  rw [Table.key_of_find? hfind, hfind]

theorem not_movesForward (hsame : ¬ChangesIncident s a) (hacked : NotifiesAcknowledged s a) :
    ¬MovesForward s (s.step a) := by
  intro hforward
  obtain ⟨notification, stored, rfl, hfind, hstatus, hnew⟩ := hacked
  have hincident : incidentChanged notification.incidentId stored.incidentId = false := by
    by_contra hchanged
    exact hsame ⟨notification, stored, rfl, hfind, by simpa using hchanged⟩
  obtain ⟨row, hrow, hle⟩ := hforward _ stored hfind
  rw [find?_step hfind] at hrow
  obtain rfl := Option.some.inj hrow
  have hid : notification.eventId = stored.eventId := (Table.key_of_find? hfind).symm
  have hfinal : (Action.effect stored (.notify notification)).status = .firing := by
    rw [Action.effect, if_pos hid, status_conflictUpdate hincident, hstatus, if_neg (by simp), hnew]
  rw [hfinal, hstatus] at hle
  exact absurd hle (by decide)

/-! ## Runs -/

/-- **In a run that changes no incident, statuses move only forward, and resolved rows keep their
end and their measurements against everything but a resolved notification, if and only if no firing
notification comes for an acknowledged row.** -/
theorem forward_iff (s : Occurrences) (actions : List Action)
    (hsame : Runs.Meets step (fun s a => ¬ChangesIncident s a) s actions) :
    (∀ e ∈ Runs.trace step s actions, MovesForward e.pre e.post ∧
      (¬e.action.IsResolved → KeepsResolved e.pre e.post)) ↔
    ∀ e ∈ Runs.trace step s actions, ¬NotifiesAcknowledged e.pre e.action := by
  have hpost : ∀ e ∈ Runs.trace step s actions, e.post = e.pre.step e.action := by
    intro e he
    obtain ⟨_, _, _, _, hpost⟩ := Runs.mem_trace_iff.mp he
    exact hpost
  constructor
  · intro hforward e he hacked
    have hmoves := (hforward e he).1
    rw [hpost e he] at hmoves
    exact not_movesForward (hsame e he) hacked hmoves
  · intro hacked e he
    rw [hpost e he]
    exact ⟨movesForward_step (hsame e he) (hacked e he), keepsResolved_step (hsame e he)⟩

theorem not_changesIncident_of_none {s : Occurrences} {a : Action}
    (h : ∀ notification, a = .notify notification → notification.incidentId = none) :
    ¬ChangesIncident s a := by
  rintro ⟨notification, stored, rfl, -, hchanged⟩
  rw [h notification rfl] at hchanged
  cases hchanged

theorem not_notifiesAcknowledged {s : Occurrences} {a : Action}
    (h : ∀ notification, a = .notify notification →
      (s.find? notification.eventId).map ExternalAlertEvent.status ≠ some .acked) :
    ¬NotifiesAcknowledged s a := by
  rintro ⟨notification, stored, rfl, hfind, hstatus, -⟩
  exact h notification rfl (by rw [hfind, Option.map_some, hstatus])

/-- The notifications of the runs below. -/
def sampleNotification (resolvedAt : Option ℤ) (value : ℚ) : AlertNotification where
  eventId := "ale-am-1"
  workspaceId := "ws"
  ruleName := "HighLatency"
  source := "alertmanager"
  severity := "warning"
  subjectKey := "k"
  subject := .null
  firedAt := 0
  resolvedAt
  observedValue := some value
  threshold := some 1
  seriesIdentity := none
  evidence := []
  incidentId := none

/-- An acknowledged occurrence is resolved, and a firing notification comes late. -/
theorem forward_iff_late :
    let actions : List Action := [.notify (sampleNotification none 2),
      .acknowledge "ws" "ale-am-1" "ana" 5, .notify (sampleNotification (some 9) 0),
      .notify (sampleNotification none 3)]
    ∀ e ∈ Runs.trace step Table.empty actions, MovesForward e.pre e.post ∧
      (¬e.action.IsResolved → KeepsResolved e.pre e.post) := by
  have hsame : ∀ s : Occurrences, ∀ resolvedAt value,
      ¬ChangesIncident s (.notify (sampleNotification resolvedAt value)) :=
    fun s resolvedAt value => not_changesIncident_of_none (by rintro _ ⟨⟩; rfl)
  refine (forward_iff _ _ (Runs.meets_cons.mpr ⟨hsame _ _ _, Runs.meets_cons.mpr ⟨?_,
    Runs.meets_cons.mpr ⟨hsame _ _ _, Runs.meets_cons.mpr ⟨hsame _ _ _, ?_⟩⟩⟩⟩)).mpr ?_
  · exact not_changesIncident_of_none (by rintro _ ⟨⟩)
  · exact fun e he => by cases he
  · simp only [Runs.trace, List.forall_mem_cons]
    refine ⟨not_notifiesAcknowledged ?_, not_notifiesAcknowledged ?_, ?_,
      not_notifiesAcknowledged ?_, fun e he => by cases he⟩
    · rintro _ ⟨⟩
      decide +kernel
    · rintro _ ⟨⟩
    · rintro ⟨notification, stored, ha, -, -, hnew⟩
      cases ha
      cases hnew
    · rintro _ ⟨⟩
      decide +kernel

/-- **A repeated firing notification undoes an acknowledgement.** -/
theorem acknowledgement_is_undone :
    let s := Runs.run step Table.empty
      [.notify (sampleNotification none 2), .acknowledge "ws" "ale-am-1" "ana" 5]
    let t := step s (.notify (sampleNotification none 2))
    (s.find? "ale-am-1").map ExternalAlertEvent.status = some .acked ∧
      (t.find? "ale-am-1").map ExternalAlertEvent.status = some .firing ∧
        (t.find? "ale-am-1").map ExternalAlertEvent.acknowledged = some (some (5, "ana")) := by
  decide +kernel

end Occurrences

end Opsia.Alert
