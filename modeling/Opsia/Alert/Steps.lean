import Opsia.Alert.Evaluation

/-!
# What an operation does to rules and subjects

`Outcome` says once what a step can do to the target states, the events and the transitions:
operators and incidents let events age, and the evaluator stores the state of a sample, fires an
event or resolves it. `AlertLaw` is what the tables keep in every run: the sample at work has
the state of the table, and the state of an active event refers to it.
-/

namespace Opsia.Alert

open AlertState

variable (env : AlertEnv)

/-! ## The sample of a step -/

/-- The write of a sample is committed: it is not rolled back, and the row that it is about is
there. -/
def Evaluation.commits (s : AlertState) (evaluation : Evaluation) (staged : Bool) : Bool :=
  match evaluation.course with
  | .observe _ => true
  | .refresh _ _ => evaluation.refreshed
  | .recover eventId => staged && (s.events.find? eventId).any AlertEvent.active
  | .activate _ => staged

/-- The sample that an entry processes. -/
def processed (e : Runs.Entry AlertState AlertAction) : Option Evaluation :=
  match e.action with
  | .writeTarget staged => e.pre.evaluation.filter fun evaluation => evaluation.commits e.pre staged
  | _ => none

/-- An event before and after a step: it keeps its rule and its subject, and is never opened
again. -/
structure Aged (before after : AlertEvent) : Prop where
  target : after.target = before.target
  active : after.active = true → before.active = true

/-- The events of a table age. -/
def AllAged (events events' : Table AlertEvent.eventId) : Prop :=
  ∀ eventId, (events.find? eventId = none ∧ events'.find? eventId = none) ∨
    ∃ before after, events.find? eventId = some before ∧ events'.find? eventId = some after ∧
      Aged before after

/-- A step of the end of an incident that an event is linked to. -/
def Closes (a : AlertAction) (event : AlertEvent) : Prop :=
  ∃ incidentId now, a = .resolveIncident incidentId now ∧ event.incidentId = some incidentId

/-- What a step does to the tables. -/
inductive Outcome (s : AlertState) (a : AlertAction) : AlertState → Prop where
  /-- no sample is processed -/
  | aged (next : AlertState) (htargets : next.targets = s.targets)
      (htransitions : next.transitions = s.transitions) (hdrawn : s.drawn ≤ next.drawn)
      (hevents : AllAged s.events next.events)
      (hclosed : ∀ eventId event, s.events.find? eventId = some event → event.active = true →
        (∃ after, next.events.find? eventId = some after ∧ after.active = true) ∨ Closes a event)
      (hprocessed : processed ⟨s, a, next⟩ = none)
      (hwrite : ∀ staged, a = .writeTarget staged → next.events = s.events) :
      Outcome s a next
  /-- the state of a sample is stored with the event that it had -/
  | stored (evaluation : Evaluation) (staged : Bool) (conditionSince : Option ℤ)
      (activeEventId : Option String) (ha : a = .writeTarget staged)
      (hevaluation : s.evaluation = some evaluation) (hcommits : evaluation.commits s staged = true)
      (hcourse : (evaluation.course = .observe conditionSince ∧ activeEventId = none) ∨
        ∃ eventId, evaluation.course = .refresh eventId conditionSince ∧
          activeEventId = some eventId) :
      Outcome s a
        ({ s with evaluation := none }.upsertAlertRuleTargetState
          (evaluation.row env conditionSince activeEventId))
  | resolved (evaluation : Evaluation) (eventId : String) (event : AlertEvent) (next : AlertState)
      (ha : a = .writeTarget true) (hevaluation : s.evaluation = some evaluation)
      (hcommits : evaluation.commits s true = true)
      (hcourse : evaluation.course = .recover eventId)
      (hfind : s.events.find? eventId = some event) (hactive : event.active = true)
      (hnext : { s with evaluation := none }.resolveAlertRuleEvent env evaluation eventId =
        some next) :
      Outcome s a (next.tell evaluation.rule eventId .resolved)
  | fired (evaluation : Evaluation) (conditionSince : ℤ) (events : Table AlertEvent.eventId)
      (ha : a = .writeTarget true) (hevaluation : s.evaluation = some evaluation)
      (hcommits : evaluation.commits s true = true)
      (hcourse : evaluation.course = .activate conditionSince)
      (hevents : s.events.insert? (evaluation.firingEvent env (env.uuid s.drawn)) = some events) :
      Outcome s a
        (tell
          ({ s with evaluation := none, drawn := s.drawn + 1, events := events
             }.upsertAlertRuleTargetState
            (evaluation.row env (some conditionSince) (some (env.uuid s.drawn))))
          evaluation.rule (env.uuid s.drawn) .firing)
  /-- the event of another sample is adopted -/
  | adopted (evaluation : Evaluation) (staged : Bool) (conditionSince : ℤ) (saved : AlertEvent)
      (ha : a = .writeTarget staged) (hevaluation : s.evaluation = some evaluation)
      (hcourse : evaluation.course = .activate conditionSince) (hsaved : saved ∈ s.events.rows)
      (hactive : saved.active = true) (htarget : saved.target = evaluation.key env) :
      Outcome s a
        ({ s with evaluation := none, drawn := s.drawn + 1 }.upsertAlertRuleTargetState
          (evaluation.row env (some conditionSince) (some saved.eventId)))

variable {env} {s : AlertState} {a : AlertAction}

variable {evaluation : Evaluation} {eventId : String} {next : AlertState}
  {f : AlertEvent → AlertEvent}

theorem processed_writeTarget (h : s.evaluation = some evaluation) (staged : Bool)
    (next : AlertState) : processed ⟨s, .writeTarget staged, next⟩ =
      if evaluation.commits s staged then some evaluation else none := by
  simp only [processed, h, Option.filter_some]

theorem processed_of_commits {staged : Bool} (ha : a = .writeTarget staged)
    (h : s.evaluation = some evaluation) (hcommits : evaluation.commits s staged = true)
    (next : AlertState) : processed ⟨s, a, next⟩ = some evaluation := by
  rw [ha, processed_writeTarget h, hcommits]
  rfl

theorem AllAged.refl (events : Table AlertEvent.eventId) : AllAged events events := by
  intro eventId
  cases h : events.find? eventId with
  | none => exact Or.inl ⟨rfl, rfl⟩
  | some event => exact Or.inr ⟨event, event, rfl, rfl, rfl, id⟩

theorem AllAged.modifyWhere (events : Table AlertEvent.eventId) (p : AlertEvent → Bool)
    (hf : ∀ event, (f event).eventId = event.eventId) (haged : ∀ event, Aged event (f event)) :
    AllAged events (events.modifyWhere p f hf) := by
  intro eventId
  rw [Table.find?_modifyWhere]
  cases h : events.find? eventId with
  | none => exact Or.inl ⟨rfl, rfl⟩
  | some event =>
    refine Or.inr ⟨event, _, rfl, rfl, ?_⟩
    dsimp only
    split
    · exact haged event
    · exact ⟨rfl, id⟩

theorem AllAged.modify (events : Table AlertEvent.eventId) (eventId : String)
    (hf : ∀ event, (f event).eventId = event.eventId) (haged : ∀ event, Aged event (f event)) :
    AllAged events (events.modify eventId f hf) := by
  intro eventId'
  rw [Table.find?_modify]
  cases h : events.find? eventId' with
  | none => exact Or.inl ⟨rfl, by split <;> rfl⟩
  | some event =>
    split
    · exact Or.inr ⟨event, f event, rfl, rfl, haged event⟩
    · exact Or.inr ⟨event, event, rfl, rfl, rfl, id⟩

theorem Outcome.changed (htargets : next.targets = s.targets)
    (htransitions : next.transitions = s.transitions) (hdrawn : s.drawn ≤ next.drawn)
    (eventId : String) (hf : ∀ event, (f event).eventId = event.eventId)
    (hsame : ∀ event, (f event).target = event.target ∧ (f event).active = event.active)
    (hevents : next.events = s.events.modify eventId f hf)
    (ha : ∀ staged, a ≠ .writeTarget staged) : Outcome env s a next := by
  refine .aged next htargets htransitions hdrawn ?_ ?_ ?_ fun staged h => absurd h (ha staged)
  · rw [hevents]
    exact AllAged.modify _ _ hf fun event => ⟨(hsame event).1, fun h => (hsame event).2 ▸ h⟩
  · intro eventId' event hfind hactive
    rw [hevents, Table.find?_modify, hfind]
    split
    · exact Or.inl ⟨f event, rfl, (hsame event).2.trans hactive⟩
    · exact Or.inl ⟨event, rfl, hactive⟩
  · cases a with
    | writeTarget staged => exact absurd rfl (ha staged)
    | _ => rfl

theorem Outcome.same (htargets : next.targets = s.targets)
    (htransitions : next.transitions = s.transitions) (hdrawn : s.drawn ≤ next.drawn)
    (hevents : next.events = s.events) (hprocessed : processed ⟨s, a, next⟩ = none) :
    Outcome env s a next := by
  refine .aged next htargets htransitions hdrawn (hevents ▸ AllAged.refl _) ?_ hprocessed
    fun _ _ => hevents
  intro eventId event hfind hactive
  rw [hevents]
  exact Or.inl ⟨event, hfind, hactive⟩

/-! ## The operations -/

theorem outcome_readTarget (s : AlertState) (rule : AlertRule) (measurement : AlertMeasurement)
    (evaluatedAt : ℤ) : Outcome env s (.readTarget rule measurement evaluatedAt)
      (readTarget env s rule measurement evaluatedAt) :=
  .same rfl rfl (le_refl _) rfl rfl

theorem outcome_refreshActive (s : AlertState) :
    Outcome env s .refreshActive ((refreshActive s).getD s) := by
  rcases h : refreshActive s with _ | next
  · exact .same rfl rfl (le_refl _) rfl rfl
  · rw [Option.getD_some]
    obtain ⟨evaluation, -, h⟩ := Option.bind_eq_some_iff.mp h
    split at h
    · obtain rfl := Option.some.inj h
      refine .changed rfl rfl (le_refl _) _ (fun event => by split <;> rfl) (fun event => ?_) rfl
        (by simp)
      split
      · exact ⟨rfl, rfl⟩
      · exact ⟨rfl, rfl⟩
    · cases h

theorem outcome_acknowledge (s : AlertState) (eventId actorId : String) (now : ℤ) :
    Outcome env s (.acknowledge eventId actorId now)
      (s.acknowledgeAlertEvent eventId actorId now) := by
  refine .changed rfl rfl (le_refl _) eventId (fun event => by split <;> rfl) (fun event => ?_) rfl
    (by simp)
  split
  · rename_i hfiring
    refine ⟨rfl, ?_⟩
    rw [AlertEvent.active, AlertEvent.active, hfiring]
    rfl
  · exact ⟨rfl, rfl⟩

theorem outcome_promote (s : AlertState) (eventId incidentId actorId : String) (now : ℤ) :
    Outcome env s (.promote eventId incidentId actorId now)
      (s.promoteAlertEvent eventId incidentId actorId now) := by
  refine .changed rfl rfl (le_refl _) eventId (fun event => by split <;> rfl) (fun event => ?_) rfl
    (by simp)
  split
  · exact ⟨rfl, rfl⟩
  · exact ⟨rfl, rfl⟩

theorem outcome_resolveIncident (s : AlertState) (incidentId : String) (now : ℤ) :
    Outcome env s (.resolveIncident incidentId now)
      (s.resolveIncidentAlertEvents incidentId now) := by
  refine .aged _ rfl rfl (le_refl _) ?_ ?_ rfl (fun _ h => by cases h)
  · refine AllAged.modifyWhere _ _ (fun _ => ?_) fun event => ?_
    · rfl
    · exact ⟨rfl, fun h => absurd h (by simp [AlertEvent.active])⟩
  · intro eventId event hfind hactive
    by_cases hlinked : linked incidentId event = true
    · have hincident : event.incidentId = some incidentId := by
        rw [linked, Bool.and_eq_true, decide_eq_true_eq] at hlinked
        exact hlinked.2
      exact Or.inr ⟨incidentId, now, rfl, hincident⟩
    · refine Or.inl ⟨event, ?_, hactive⟩
      rw [resolveIncidentAlertEvents, Table.find?_modifyWhere, hfind, Option.map_some,
        if_neg hlinked]

theorem activate_cases (s : AlertState) (evaluation : Evaluation) (conditionSince : ℤ)
    (event : AlertEvent) (htarget : event.target = evaluation.key env)
    (hnew : s.events.find? event.eventId = none) :
    (∃ saved ∈ s.events.rows, saved.active = true ∧ saved.target = evaluation.key env ∧
        s.activateAlertRuleEvent env evaluation conditionSince event =
          some (saved, false, s.upsertAlertRuleTargetState
            (evaluation.row env (some conditionSince) (some saved.eventId)))) ∨
      ∃ events, s.events.insert? event = some events ∧
        s.activateAlertRuleEvent env evaluation conditionSince event =
          some (event, true, { s with events := events }.upsertAlertRuleTargetState
            (evaluation.row env (some conditionSince) (some event.eventId))) := by
  rw [activateAlertRuleEvent]
  split
  case h_1 saved hsaved =>
    have hboth := List.find?_some hsaved
    rw [Bool.and_eq_true, decide_eq_true_eq] at hboth
    exact Or.inl ⟨saved, List.mem_of_find?_eq_some hsaved, hboth.1, hboth.2.trans htarget, rfl⟩
  case h_2 =>
    obtain ⟨events, hinsert⟩ := Table.insert?_of_none hnew
    rw [hinsert]
    exact Or.inr ⟨events, rfl, rfl⟩

theorem outcome_writeTarget (s : AlertState) (staged : Bool)
    (hnew : s.events.find? (env.uuid s.drawn) = none) :
    Outcome env s (.writeTarget staged) ((writeTarget env s staged).getD s) := by
  have hnothing : processed ⟨s, .writeTarget staged, s⟩ = none → Outcome env s (.writeTarget staged) s :=
    .same rfl rfl (le_refl _) rfl
  cases hevaluation : s.evaluation with
  | none =>
    rw [writeTarget, hevaluation]
    exact hnothing (by rw [processed, hevaluation]; rfl)
  | some evaluation =>
    have hprocessed (next : AlertState) (h : evaluation.commits s staged = false) :
        processed ⟨s, .writeTarget staged, next⟩ = none := by
      rw [processed_writeTarget hevaluation, h]
      rfl
    rw [writeTarget, hevaluation, Option.bind_some]
    dsimp only
    cases hcourse : evaluation.course with
    | observe conditionSince =>
      exact .stored evaluation staged conditionSince none rfl hevaluation
        (by rw [Evaluation.commits, hcourse]) (Or.inl ⟨hcourse, rfl⟩)
    | refresh eventId conditionSince =>
      cases hrefreshed : evaluation.refreshed with
      | false => exact hnothing (hprocessed s (by rw [Evaluation.commits, hcourse]; exact hrefreshed))
      | true =>
        exact .stored evaluation staged conditionSince (some eventId) rfl hevaluation
          (by rw [Evaluation.commits, hcourse]; exact hrefreshed)
          (Or.inr ⟨eventId, hcourse, rfl⟩)
    | recover eventId =>
      dsimp only
      rw [Option.getD_some]
      cases hresolved : resolveAlertRuleEvent env { s with evaluation := none } evaluation
          eventId with
      | none =>
        refine .same rfl rfl (le_refl _) rfl (hprocessed _ ?_)
        rw [Evaluation.commits, hcourse]
        rw [resolveAlertRuleEvent] at hresolved
        split at hresolved
        · cases hresolved
        · rename_i hactive
          exact (congrArg (staged && ·) (Bool.eq_false_iff.mpr hactive)).trans (Bool.and_false _)
      | some next =>
        cases staged with
        | false => exact .same rfl rfl (le_refl _) rfl (hprocessed _ (by
            rw [Evaluation.commits, hcourse]; rfl))
        | true =>
          obtain ⟨hactive, -⟩ := Option.ite_none_right_eq_some.mp hresolved
          have hcommits : evaluation.commits s true = true := by
            rw [Evaluation.commits, hcourse]
            exact hactive
          obtain ⟨event, hfind, hactive⟩ := (Option.any_eq_true ..).mp hactive
          exact .resolved evaluation eventId event next rfl hevaluation hcommits hcourse hfind
            hactive hresolved
    | activate conditionSince =>
      dsimp only
      rw [Option.getD_some]
      rcases activate_cases { s with evaluation := none, drawn := s.drawn + 1 } evaluation
        conditionSince (evaluation.firingEvent env (env.uuid s.drawn)) rfl hnew with
        ⟨saved, hsaved, hactive, htarget, h⟩ | ⟨events, hinsert, h⟩
      · rw [h]
        exact .adopted evaluation staged conditionSince saved rfl hevaluation hcourse hsaved hactive
          htarget
      · rw [h]
        cases staged with
        | false => exact .same rfl rfl (Nat.le_succ _) rfl (hprocessed _ (by
            rw [Evaluation.commits, hcourse]))
        | true => exact .fired evaluation conditionSince events rfl hevaluation (by
            rw [Evaluation.commits, hcourse]) hcourse hinsert

/-! ## The branches -/

section
variable {evaluation : Evaluation} {eventId : String}

/-- The event that the state of a sample refers to. -/
def Evaluation.activeEventId (evaluation : Evaluation) : Option String :=
  evaluation.state.bind TargetState.activeEventId

/-- The time since which the condition holds in the state of a sample. -/
def Evaluation.conditionSince (evaluation : Evaluation) : Option ℤ :=
  evaluation.state.bind TargetState.conditionSince

theorem course_of_active (h : evaluation.activeEventId = some eventId) :
    evaluation.course =
      if evaluation.matched then .refresh eventId evaluation.conditionSince
      else .recover eventId := by
  rw [Evaluation.activeEventId] at h
  simp only [Evaluation.course, h]
  cases evaluation.matched <;> rfl

theorem course_of_idle (h : evaluation.activeEventId = none) :
    evaluation.course =
      if evaluation.matched then
        match evaluation.conditionSince with
        | none => .observe (some evaluation.measurement.observedAt)
        | some since =>
          if evaluation.measurement.observedAt - since < seconds evaluation.rule.forSeconds then
            .observe (some since)
          else .activate since
      else .observe none := by
  rw [Evaluation.activeEventId] at h
  simp only [Evaluation.course, h]
  cases evaluation.matched <;> rfl

theorem idle_cases (h : evaluation.activeEventId = none) :
    (evaluation.matched = false ∧ evaluation.course = .observe none) ∨
      (evaluation.matched = true ∧ evaluation.conditionSince = none ∧
        evaluation.course = .observe (some evaluation.measurement.observedAt)) ∨
      ∃ since, evaluation.matched = true ∧ evaluation.conditionSince = some since ∧
        if evaluation.measurement.observedAt - since < seconds evaluation.rule.forSeconds then
          evaluation.course = .observe (some since)
        else evaluation.course = .activate since := by
  have hcourse := course_of_idle h
  cases hmatched : evaluation.matched with
  | false =>
    rw [hmatched] at hcourse
    exact Or.inl ⟨rfl, hcourse⟩
  | true =>
    rw [hmatched, if_pos rfl] at hcourse
    cases hsince : evaluation.conditionSince with
    | none =>
      rw [hsince] at hcourse
      exact Or.inr (Or.inl ⟨rfl, rfl, hcourse⟩)
    | some since =>
      rw [hsince] at hcourse
      refine Or.inr (Or.inr ⟨since, rfl, rfl, ?_⟩)
      dsimp only at hcourse
      split
      · rename_i hshort
        rw [if_pos hshort] at hcourse
        exact hcourse
      · rename_i hlong
        rw [if_neg hlong] at hcourse
        exact hcourse

theorem idle_of_observe {conditionSince : Option ℤ} (h : evaluation.course = .observe conditionSince) :
    evaluation.activeEventId = none := by
  cases hactive : evaluation.activeEventId with
  | none => rfl
  | some eventId =>
    rw [course_of_active hactive] at h
    split at h <;> cases h

theorem idle_of_activate {conditionSince : ℤ} (h : evaluation.course = .activate conditionSince) :
    evaluation.activeEventId = none := by
  cases hactive : evaluation.activeEventId with
  | none => rfl
  | some eventId =>
    rw [course_of_active hactive] at h
    split at h <;> cases h

theorem active_of_refresh {conditionSince : Option ℤ}
    (h : evaluation.course = .refresh eventId conditionSince) :
    evaluation.activeEventId = some eventId ∧ evaluation.matched = true ∧
      conditionSince = evaluation.conditionSince := by
  cases hactive : evaluation.activeEventId with
  | none =>
    rcases idle_cases hactive with ⟨-, hcourse⟩ | ⟨-, -, hcourse⟩ | ⟨since, -, -, hcourse⟩
    · cases hcourse.symm.trans h
    · cases hcourse.symm.trans h
    · split at hcourse <;> cases hcourse.symm.trans h
  | some active =>
    rw [course_of_active hactive] at h
    split at h
    · rename_i hmatched
      obtain ⟨rfl, rfl⟩ := Course.refresh.inj h
      exact ⟨rfl, hmatched, rfl⟩
    · cases h

theorem active_of_recover (h : evaluation.course = .recover eventId) :
    evaluation.activeEventId = some eventId ∧ evaluation.matched = false := by
  cases hactive : evaluation.activeEventId with
  | none =>
    rcases idle_cases hactive with ⟨-, hcourse⟩ | ⟨-, -, hcourse⟩ | ⟨since, -, -, hcourse⟩
    · cases hcourse.symm.trans h
    · cases hcourse.symm.trans h
    · split at hcourse <;> cases hcourse.symm.trans h
  | some active =>
    rw [course_of_active hactive] at h
    split at h
    · cases h
    · rename_i hmatched
      obtain rfl := Course.recover.inj h
      exact ⟨rfl, Bool.eq_false_iff.mpr hmatched⟩

end

/-! ## What the tables keep -/

/-- The event that the state of a target refers to. -/
def AlertState.activeOf (s : AlertState) (key : TargetKey) : Option String :=
  (s.targets.find? key).bind TargetState.activeEventId

variable (env) in
/-- What the tables keep. -/
structure AlertLaw (s : AlertState) : Prop where
  /-- the sample at work has the state of the table -/
  reading : ∀ evaluation, s.evaluation = some evaluation →
    evaluation.state = s.targets.find? (evaluation.key env)
  /-- the event ids of the table were drawn -/
  drawn : ∀ eventId event, s.events.find? eventId = some event → ∃ n < s.drawn, eventId = env.uuid n
  /-- the state of an active event refers to it -/
  owned : ∀ eventId event, s.events.find? eventId = some event → event.active = true →
    s.activeOf event.target = some eventId
  /-- a state refers to events of its own rule and subject -/
  refers : ∀ key eventId, s.activeOf key = some eventId →
    ∃ event, s.events.find? eventId = some event ∧ event.target = key

theorem AlertLaw.new (h : AlertLaw env s) : s.events.find? (env.uuid s.drawn) = none := by
  cases hfind : s.events.find? (env.uuid s.drawn) with
  | none => rfl
  | some event =>
    obtain ⟨n, hn, heq⟩ := h.drawn _ _ hfind
    have := env.uuid_injective heq
    omega

/-- **One step of the tables.** -/
theorem outcome_step (h : AlertLaw env s) (a : AlertAction) : Outcome env s a (step env s a) := by
  cases a with
  | readTarget rule measurement evaluatedAt => exact outcome_readTarget s rule measurement evaluatedAt
  | refreshActive => exact outcome_refreshActive s
  | writeTarget staged => exact outcome_writeTarget s staged h.new
  | acknowledge eventId actorId now => exact outcome_acknowledge s eventId actorId now
  | promote eventId incidentId actorId now => exact outcome_promote s eventId incidentId actorId now
  | resolveIncident incidentId now => exact outcome_resolveIncident s incidentId now

theorem evaluation_activate {conditionSince : ℤ} {event saved : AlertEvent} {created : Bool}
    (h : s.activateAlertRuleEvent env evaluation conditionSince event =
      some (saved, created, next)) : next.evaluation = s.evaluation := by
  rw [activateAlertRuleEvent] at h
  split at h
  · obtain ⟨-, -, rfl⟩ : _ ∧ _ ∧ _ = next := by simpa using h
    rfl
  · obtain ⟨events, -, h⟩ := Option.map_eq_some_iff.mp h
    obtain ⟨-, -, rfl⟩ : _ ∧ _ ∧ _ = next := by simpa using h
    rfl

theorem evaluation_writeTarget {staged : Bool} (h : writeTarget env s staged = some next) :
    next.evaluation = none := by
  obtain ⟨evaluation, -, h⟩ := Option.bind_eq_some_iff.mp h
  dsimp only at h
  split at h
  · exact Option.some.inj h ▸ rfl
  · obtain ⟨-, h⟩ := Option.ite_none_right_eq_some.mp h
    exact Option.some.inj h ▸ rfl
  · rw [← Option.some.inj h]
    split
    · rename_i hresolved
      obtain ⟨-, hresolved⟩ := Option.ite_none_right_eq_some.mp hresolved
      obtain rfl := Option.some.inj hresolved
      split <;> rfl
    · rfl
  · rw [← Option.some.inj h]
    split
    · rename_i hactivated
      split
      · exact evaluation_activate hactivated
      · rfl
    · rename_i hactivated
      exact evaluation_activate hactivated
    · rfl

theorem evaluation_step (h : (step env s a).evaluation = some evaluation) :
    (step env s a).targets = s.targets ∧
      ((∃ rule measurement evaluatedAt, a = .readTarget rule measurement evaluatedAt ∧
          evaluation = ⟨rule, measurement, evaluatedAt,
            s.targets.find? (rule.ruleId, env.subjectKey measurement.subject), false⟩ ∧
          ∀ row last, s.targets.find? (rule.ruleId, env.subjectKey measurement.subject) = some row →
            lastObservedAt row.lastEvidence = some last → last < measurement.observedAt) ∨
        ∃ before, s.evaluation = some before ∧
          evaluation = { before with refreshed := evaluation.refreshed }) := by
  cases a with
  | readTarget rule measurement evaluatedAt =>
    refine ⟨rfl, Or.inl ⟨rule, measurement, evaluatedAt, rfl, ?_⟩⟩
    simp only [step, readTarget] at h
    split at h
    · cases h
    · rename_i hnew
      refine ⟨(Option.some.inj h).symm, ?_⟩
      intro row last hrow hlast
      simp only [hrow, Option.bind_some, hlast, Option.any_some, decide_eq_true_eq] at hnew
      exact Int.not_le.mp hnew
  | refreshActive =>
    simp only [step] at h ⊢
    rcases hnext : refreshActive s with _ | next
    · rw [hnext, Option.getD_none] at h
      exact ⟨rfl, Or.inr ⟨evaluation, h, rfl⟩⟩
    · rw [hnext, Option.getD_some] at h
      obtain ⟨before, hbefore, hnext⟩ := Option.bind_eq_some_iff.mp hnext
      split at hnext
      · obtain rfl := Option.some.inj hnext
        obtain rfl := Option.some.inj h
        exact ⟨rfl, Or.inr ⟨before, hbefore, rfl⟩⟩
      · cases hnext
  | writeTarget staged =>
    simp only [step] at h ⊢
    rcases hnext : writeTarget env s staged with _ | next
    · rw [hnext, Option.getD_none] at h
      exact ⟨rfl, Or.inr ⟨evaluation, h, rfl⟩⟩
    · rw [hnext, Option.getD_some] at h
      rw [evaluation_writeTarget hnext] at h
      cases h
  | acknowledge => exact ⟨rfl, Or.inr ⟨evaluation, h, rfl⟩⟩
  | promote => exact ⟨rfl, Or.inr ⟨evaluation, h, rfl⟩⟩
  | resolveIncident => exact ⟨rfl, Or.inr ⟨evaluation, h, rfl⟩⟩

theorem reading_step (h : AlertLaw env s)
    (hevaluation : (step env s a).evaluation = some evaluation) :
    evaluation.state = (step env s a).targets.find? (evaluation.key env) := by
  obtain ⟨htargets, ⟨rule, measurement, evaluatedAt, -, rfl, -⟩ | ⟨before, hbefore, heq⟩⟩ :=
    evaluation_step hevaluation
  · rw [htargets]
    rfl
  · rw [htargets, heq]
    exact h.reading before hbefore

theorem AllAged.before {events events' : Table AlertEvent.eventId} (h : AllAged events events')
    {after : AlertEvent} (hfind : events'.find? eventId = some after) :
    ∃ before, events.find? eventId = some before ∧ Aged before after := by
  rcases h eventId with ⟨-, hnone⟩ | ⟨before, after', hbefore, hafter, haged⟩
  · rw [hnone] at hfind
    cases hfind
  · obtain rfl := Option.some.inj (hafter.symm.trans hfind)
    exact ⟨before, hbefore, haged⟩

theorem find?_of_resolved (hnext : s.resolveAlertRuleEvent env evaluation eventId = some next)
    (eventId' : String) :
    next.events.find? eventId' =
      if eventId' = eventId then (s.events.find? eventId').map (closed · evaluation)
      else s.events.find? eventId' := by
  obtain ⟨-, hnext⟩ := Option.ite_none_right_eq_some.mp hnext
  obtain rfl := Option.some.inj hnext
  exact Table.find?_modify s.events eventId eventId' (closed · evaluation) fun _ => rfl

theorem target_of_resolved (hnext : s.resolveAlertRuleEvent env evaluation eventId = some next)
    (key : TargetKey) :
    next.targets.find? key =
      if key = evaluation.key env then (s.targets.find? key).map (recovered · evaluation)
      else s.targets.find? key := by
  obtain ⟨-, hnext⟩ := Option.ite_none_right_eq_some.mp hnext
  obtain rfl := Option.some.inj hnext
  exact Table.find?_modify s.targets _ key (recovered · evaluation) fun _ => rfl

theorem target_of_stored (targets : Table TargetState.key) (evaluation : Evaluation)
    (conditionSince : Option ℤ) (activeEventId : Option String) (key : TargetKey) :
    (targets.put (evaluation.row env conditionSince activeEventId)).find? key =
      if key = evaluation.key env then some (evaluation.row env conditionSince activeEventId)
      else targets.find? key := Table.find?_put ..

theorem drawn_step (h : AlertLaw env s) {event : AlertEvent}
    (hfind : (step env s a).events.find? eventId = some event) :
    ∃ n < (step env s a).drawn, eventId = env.uuid n := by
  have hout := outcome_step h a
  generalize step env s a = next at hout hfind
  cases hout with
  | aged _ htargets htransitions hdrawn hevents hclosed hprocessed hwrite =>
    obtain ⟨before, hbefore, -⟩ := hevents.before hfind
    obtain ⟨n, hn, heq⟩ := h.drawn _ _ hbefore
    exact ⟨n, hn.trans_le hdrawn, heq⟩
  | stored => exact h.drawn eventId event hfind
  | resolved evaluation eventId' event' next ha hevaluation hcommits hcourse hevent hactive hnext =>
    have hdrawn : next.drawn = s.drawn := by
      obtain ⟨-, hnext⟩ := Option.ite_none_right_eq_some.mp hnext
      exact Option.some.inj hnext ▸ rfl
    have hfind' := (find?_of_resolved hnext eventId).symm.trans hfind
    obtain ⟨before, hbefore⟩ : ∃ before, s.events.find? eventId = some before := by
      split at hfind'
      · obtain ⟨before, hbefore, -⟩ := Option.map_eq_some_iff.mp hfind'
        exact ⟨before, hbefore⟩
      · exact ⟨event, hfind'⟩
    obtain ⟨n, hn, heq⟩ := h.drawn _ _ hbefore
    exact ⟨n, by change n < next.drawn; omega, heq⟩
  | fired evaluation conditionSince events ha hevaluation hcommits hcourse hinsert =>
    have hfind' := (Table.find?_of_insert? hinsert eventId).symm.trans hfind
    split at hfind'
    · rename_i heq
      exact ⟨s.drawn, Nat.lt_succ_self _, heq⟩
    · obtain ⟨n, hn, heq⟩ := h.drawn _ _ hfind'
      exact ⟨n, hn.trans (Nat.lt_succ_self _), heq⟩
  | adopted =>
    obtain ⟨n, hn, heq⟩ := h.drawn _ _ hfind
    exact ⟨n, hn.trans (Nat.lt_succ_self _), heq⟩

theorem AlertLaw.active (h : AlertLaw env s) (hevaluation : s.evaluation = some evaluation) :
    evaluation.activeEventId = s.activeOf (evaluation.key env) := by
  rw [Evaluation.activeEventId, h.reading evaluation hevaluation]
  rfl

theorem AlertLaw.not_adopted (h : AlertLaw env s) (hevaluation : s.evaluation = some evaluation)
    {saved : AlertEvent} (hsaved : saved ∈ s.events.rows) (hactive : saved.active = true)
    (htarget : saved.target = evaluation.key env) {conditionSince : ℤ} :
    evaluation.course ≠ .activate conditionSince := by
  intro hcourse
  have howned := h.owned _ _ (Table.find?_of_mem hsaved) hactive
  rw [htarget] at howned
  have hsame := (h.active hevaluation).trans howned
  rw [idle_of_activate hcourse] at hsame
  cases hsame

theorem target_firingEvent (evaluation : Evaluation) (eventId : String) :
    (evaluation.firingEvent env eventId).target = evaluation.key env := rfl

theorem owned_step (h : AlertLaw env s) {event : AlertEvent}
    (hfind : (step env s a).events.find? eventId = some event) (hactive : event.active = true) :
    (step env s a).activeOf event.target = some eventId := by
  have hout := outcome_step h a
  generalize step env s a = next at hout hfind ⊢
  cases hout with
  | aged _ htargets htransitions hdrawn hevents hclosed hprocessed hwrite =>
    obtain ⟨before, hbefore, haged⟩ := hevents.before hfind
    rw [activeOf, htargets, haged.target]
    exact h.owned _ _ hbefore (haged.active hactive)
  | stored evaluation staged conditionSince activeEventId ha hevaluation hcommits hcourse =>
    have howned := h.owned _ _ hfind hactive
    rw [activeOf, upsertAlertRuleTargetState, target_of_stored]
    split
    · rename_i hkey
      rw [hkey] at howned
      have hsame := (h.active hevaluation).trans howned
      rcases hcourse with ⟨hobserve, rfl⟩ | ⟨active, hrefresh, rfl⟩
      · rw [idle_of_observe hobserve] at hsame
        cases hsame
      · exact (active_of_refresh hrefresh).1.symm.trans hsame
    · exact howned
  | resolved evaluation active event' next ha hevaluation hcommits hcourse hevent hactive' hnext =>
    have hfind' := (find?_of_resolved hnext eventId).symm.trans hfind
    change (next.targets.find? event.target).bind _ = _
    rw [target_of_resolved hnext]
    split at hfind'
    · obtain ⟨before, -, rfl⟩ := Option.map_eq_some_iff.mp hfind'
      exact absurd hactive (by simp [AlertEvent.active, closed])
    · rename_i hne
      have howned := h.owned _ _ hfind' hactive
      split
      · rename_i hkey
        rw [hkey] at howned
        have hsame := (h.active hevaluation).trans howned
        rw [(active_of_recover hcourse).1] at hsame
        exact absurd (Option.some.inj hsame).symm hne
      · exact howned
  | fired evaluation conditionSince events ha hevaluation hcommits hcourse hinsert =>
    have hfind' := (Table.find?_of_insert? hinsert eventId).symm.trans hfind
    change ((s.targets.put _).find? event.target).bind _ = _
    rw [target_of_stored]
    split at hfind'
    · rename_i heq
      obtain rfl := Option.some.inj hfind'
      rw [if_pos (target_firingEvent ..), heq]
      rfl
    · have howned := h.owned _ _ hfind' hactive
      split
      · rename_i hkey
        rw [hkey] at howned
        have hsame := (h.active hevaluation).trans howned
        rw [idle_of_activate hcourse] at hsame
        cases hsame
      · exact howned
  | adopted evaluation staged conditionSince saved ha hevaluation hcourse hsaved hactive' htarget =>
    exact absurd hcourse (h.not_adopted hevaluation hsaved hactive' htarget)

/-- Events stay in the table, and are never opened again. -/
theorem event_step (hlaw : AlertLaw env s) (a : AlertAction) {event : AlertEvent}
    (hfind : s.events.find? eventId = some event) :
    ∃ after, (step env s a).events.find? eventId = some after ∧ Aged event after := by
  have hout := outcome_step hlaw a
  generalize step env s a = next at hout ⊢
  have hsame (h : next.events.find? eventId = some event) :
      ∃ after, next.events.find? eventId = some after ∧ Aged event after := ⟨event, h, rfl, id⟩
  cases hout with
  | aged _ htargets htransitions hdrawn hevents =>
    rcases hevents eventId with ⟨hnone, -⟩ | ⟨before, after, hbefore, hafter, haged⟩
    · rw [hfind] at hnone
      cases hnone
    · obtain rfl := Option.some.inj (hbefore.symm.trans hfind)
      exact ⟨after, hafter, haged⟩
  | stored => exact hsame hfind
  | resolved evaluation eventId' event' next ha hevaluation hcommits hcourse hevent hactive hnext =>
    have hafter := find?_of_resolved hnext eventId
    rw [hfind, Option.map_some] at hafter
    split at hafter
    · exact ⟨_, hafter, rfl, fun h => absurd h (by simp [AlertEvent.active, closed])⟩
    · exact hsame hafter
  | fired evaluation conditionSince events ha hevaluation hcommits hcourse hinsert =>
    refine hsame ((Table.find?_of_insert? hinsert _).trans ((if_neg ?_).trans hfind))
    rintro rfl
    exact absurd (hlaw.new.symm.trans hfind) (by simp)
  | adopted evaluation staged conditionSince saved ha hevaluation hcourse hsaved hactive htarget =>
    exact absurd hcourse (hlaw.not_adopted hevaluation hsaved hactive htarget)

/-- The event that a target refers to after a step is the one before, or a new one. -/
theorem activeOf_step (h : AlertLaw env s) {key : TargetKey}
    (hactive : (step env s a).activeOf key = some eventId) :
    s.activeOf key = some eventId ∨
      ∃ event, (step env s a).events.find? eventId = some event ∧ event.target = key ∧
        event.active = true := by
  have hout := outcome_step h a
  generalize step env s a = next at hout hactive ⊢
  cases hout with
  | aged _ htargets =>
    rw [activeOf, htargets] at hactive
    exact Or.inl hactive
  | stored evaluation staged conditionSince activeEventId ha hevaluation hcommits hcourse =>
    rw [activeOf, upsertAlertRuleTargetState, target_of_stored] at hactive
    split at hactive
    · rename_i hkey
      change activeEventId = some eventId at hactive
      rcases hcourse with ⟨-, rfl⟩ | ⟨active, hrefresh, rfl⟩
      · cases hactive
      · rw [hkey, ← h.active hevaluation, (active_of_refresh hrefresh).1]
        exact Or.inl hactive
    · exact Or.inl hactive
  | resolved evaluation active event next ha hevaluation hcommits hcourse hevent hactive' hnext =>
    change (next.targets.find? key).bind _ = _ at hactive
    rw [target_of_resolved hnext] at hactive
    split at hactive
    · obtain ⟨row, hrow, hnone⟩ := Option.bind_eq_some_iff.mp hactive
      obtain ⟨before, -, rfl⟩ := Option.map_eq_some_iff.mp hrow
      cases hnone
    · exact Or.inl hactive
  | fired evaluation conditionSince events ha hevaluation hcommits hcourse hinsert =>
    change ((s.targets.put _).find? key).bind _ = _ at hactive
    rw [target_of_stored] at hactive
    split at hactive
    · rename_i hkey
      obtain rfl := Option.some.inj hactive
      exact Or.inr ⟨_, (Table.find?_of_insert? hinsert _).trans (if_pos rfl), hkey.symm, rfl⟩
    · exact Or.inl hactive
  | adopted evaluation staged conditionSince saved ha hevaluation hcourse hsaved hactive' htarget =>
    exact absurd hcourse (h.not_adopted hevaluation hsaved hactive' htarget)

theorem refers_step (h : AlertLaw env s) {key : TargetKey}
    (hactive : (step env s a).activeOf key = some eventId) :
    ∃ event, (step env s a).events.find? eventId = some event ∧ event.target = key := by
  rcases activeOf_step h hactive with hbefore | ⟨event, hfind, htarget, -⟩
  · obtain ⟨event, hfind, htarget⟩ := h.refers key eventId hbefore
    obtain ⟨after, hafter, haged⟩ := event_step h a hfind
    exact ⟨after, hafter, haged.target.trans htarget⟩
  · exact ⟨event, hfind, htarget⟩

/-- **Every step keeps what the tables keep.** -/
theorem alertLaw_step (h : AlertLaw env s) (a : AlertAction) : AlertLaw env (step env s a) where
  reading := fun _ => reading_step h
  drawn := fun _ _ => drawn_step h
  owned := fun _ _ => owned_step h
  refers := fun _ _ => refers_step h

theorem alertLaw_empty : AlertLaw env .empty where
  reading := fun _ h => by cases h
  drawn := fun _ _ h => by cases h
  owned := fun _ _ h => by cases h
  refers := fun _ _ h => by cases h

theorem run_alertLaw (actions : List AlertAction) :
    AlertLaw env (Runs.run (step env) .empty actions) :=
  Runs.run_invariant (P := AlertLaw env) (fun _ a h => alertLaw_step h a) alertLaw_empty actions

/-- **Every active event is the one that its rule and subject refer to**, so they have only one. -/
theorem active_events_owned (env : AlertEnv) (actions : List AlertAction) :
    let s := Runs.run (step env) .empty actions
    let active := s.events.rows.filter AlertEvent.active
    active.map (fun event => s.activeOf event.target) = active.map (some ·.eventId) ∧
      (active.map AlertEvent.target).Nodup := by
  intro s active
  have howned : active.map (fun event => s.activeOf event.target) = active.map (some ·.eventId) := by
    refine List.map_congr_left fun event hevent => ?_
    obtain ⟨hevent, hactive⟩ := List.mem_filter.mp hevent
    exact (run_alertLaw actions).owned _ _ (Table.find?_of_mem hevent) hactive
  have hids : (active.map AlertEvent.eventId).Nodup :=
    (List.filter_sublist.map _).nodup s.events.nodup
  have hsome := hids.map (f := some) fun _ _ => Option.some.inj
  refine ⟨howned, List.Nodup.of_map s.activeOf ?_⟩
  rw [List.map_map] at hsome ⊢
  exact howned ▸ hsome

/-- The time since which the condition of a target holds. -/
def AlertState.conditionOf (s : AlertState) (key : TargetKey) : Option ℤ :=
  (s.targets.find? key).bind TargetState.conditionSince

theorem AlertLaw.condition (h : AlertLaw env s) (hevaluation : s.evaluation = some evaluation) :
    evaluation.conditionSince = s.conditionOf (evaluation.key env) := by
  rw [Evaluation.conditionSince, h.reading evaluation hevaluation]
  rfl

theorem evaluation_of_processed {next : AlertState} {evaluation : Evaluation}
    (h : processed ⟨s, a, next⟩ = some evaluation) : s.evaluation = some evaluation := by
  cases a with
  | writeTarget staged => exact (Option.filter_eq_some_iff.mp h).1
  | _ => cases h

end Opsia.Alert
