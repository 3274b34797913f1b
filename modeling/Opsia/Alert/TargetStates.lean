import Opsia.Alert.Steps

/-!
# Target states and their events

The state of a rule and a subject refers to an event that is firing or acknowledged, and after
the event is resolved a condition that holds long enough fires again (`NeverStuck`).

The end of an incident resolves the events that are linked to it and leaves the target states
alone. A state that still refers to such an event is stuck: a sample that breaches the threshold
refreshes nothing, and a sample that does not finds no active event to resolve
(`ended_incident_sticks`). `run_never_stuck` is about the runs in which an incident ends only
when no state refers to its active events (`endsUnreferred`).
-/

namespace Opsia.Alert

open AlertState

variable (env : AlertEnv)

/-! ## The property -/

/-- The event of an id is active. -/
def AlertState.isActive (s : AlertState) (eventId : String) : Bool :=
  (s.events.find? eventId).any AlertEvent.active

/-- Every target state refers to an active event, or to none. -/
def refersToActive (s : AlertState) : Bool :=
  s.targets.rows.all fun row => row.activeEventId.all s.isActive

/-- An entry creates a firing event of a target. -/
def fires (key : TargetKey) (e : Runs.Entry AlertState AlertAction) : Bool :=
  e.post.events.rows.any fun event =>
    event.target = key && (e.pre.events.find? event.eventId).isNone

/-- The samples of a target that the entries process. -/
def samplesOf (key : TargetKey) (l : List (Runs.Entry AlertState AlertAction)) : List Evaluation :=
  (l.filterMap processed).filter fun evaluation => evaluation.key env = key

/-- A step resolves an event of a target. -/
def resolves (key : TargetKey) (e : Runs.Entry AlertState AlertAction) : Bool :=
  e.pre.events.rows.any fun event =>
    event.target = key && event.active && !e.post.isActive event.eventId

/-- When all samples of a target breach the threshold, and they span the time that the rule asks
for, an event is created. -/
def answered (key : TargetKey) (l : List (Runs.Entry AlertState AlertAction)) : Bool :=
  match samplesOf env key l with
  | [] => true
  | first :: rest =>
    let long := rest.any fun sample => seconds sample.rule.forSeconds ≤
      sample.measurement.observedAt - first.measurement.observedAt
    !((first :: rest).all Evaluation.matched && long) || l.any (fires key)

/-- After an event of a target is resolved, in whatever way, the condition fires again. -/
def FiresAgain (actions : List AlertAction) : Prop :=
  ∀ before a later, actions = before ++ a :: later →
    let resolving := Runs.run (step env) .empty before
    let s := step env resolving a
    ∀ key, resolves key ⟨resolving, a, s⟩ = true →
      answered env key (Runs.trace (step env) s later) = true

/-- Target states are not stuck in a run. -/
def NeverStuck (actions : List AlertAction) : Prop :=
  refersToActive (Runs.run (step env) .empty actions) = true ∧ FiresAgain env actions

/-- An incident ends when no target state refers to an active event of it. -/
def endsUnreferred (s : AlertState) : AlertAction → Bool
  | .resolveIncident incidentId _ => s.targets.rows.all fun row =>
      row.activeEventId.all fun eventId => !(s.events.find? eventId).any (linked incidentId)
  | _ => true

variable {env} {s : AlertState} {a : AlertAction}

/-! ## References -/

/-- The event that a target state refers to is active. -/
def Referred (s : AlertState) : Prop :=
  ∀ key eventId, s.activeOf key = some eventId → s.isActive eventId = true

theorem refersToActive_of_referred (h : Referred s) : refersToActive s = true := by
  rw [refersToActive, List.all_eq_true]
  intro row hrow
  rw [Option.all_eq_true]
  intro eventId hactive
  have hkey : s.activeOf row.key = some eventId := by
    rw [activeOf, Table.find?_of_mem hrow]
    exact hactive
  exact h _ _ hkey

variable {key : TargetKey}

theorem target_of_unprocessed (hlaw : AlertLaw env s)
    (h : ∀ evaluation, processed ⟨s, a, step env s a⟩ = some evaluation →
      evaluation.key env ≠ key) :
    (step env s a).targets.find? key = s.targets.find? key := by
  have hout := outcome_step hlaw a
  generalize step env s a = next at hout h ⊢
  cases hout with
  | aged _ htargets => rw [htargets]
  | stored evaluation staged conditionSince activeEventId ha hevaluation hcommits =>
    have hne := h evaluation (processed_of_commits ha hevaluation hcommits _)
    exact (target_of_stored ..).trans (if_neg (Ne.symm hne))
  | resolved evaluation eventId event next ha hevaluation hcommits hcourse hevent hactive hnext =>
    have hne := h evaluation (processed_of_commits ha hevaluation hcommits _)
    exact (target_of_resolved hnext key).trans (if_neg (Ne.symm hne))
  | fired evaluation conditionSince events ha hevaluation hcommits hcourse hinsert =>
    have hne := h evaluation (processed_of_commits ha hevaluation hcommits _)
    exact (target_of_stored ..).trans (if_neg (Ne.symm hne))
  | adopted evaluation staged conditionSince saved ha hevaluation hcourse hsaved hactive htarget =>
    exact absurd hcourse (hlaw.not_adopted hevaluation hsaved hactive htarget)

variable {event : AlertEvent} {eventId : String}

theorem isActive_step (hlaw : AlertLaw env s) (hfind : s.events.find? eventId = some event)
    (hactive : event.active = true) :
    (step env s a).isActive eventId = true ∨ Closes a event ∨
      ∃ evaluation, processed ⟨s, a, step env s a⟩ = some evaluation ∧
        evaluation.course = .recover eventId ∧
        (step env s a).activeOf (evaluation.key env) = none ∧
        (step env s a).conditionOf (evaluation.key env) = none := by
  have hout := outcome_step hlaw a
  generalize step env s a = next at hout ⊢
  -- a write that leaves the event as it is
  have hkept (hsame : next.events.find? eventId = some event) : next.isActive eventId = true := by
    rw [isActive, hsame]
    exact hactive
  cases hout with
  | aged _ htargets htransitions hdrawn hevents hclosed hprocessed hwrite =>
    rcases hclosed eventId event hfind hactive with ⟨after, hafter, hactive'⟩ | hcloses
    · refine Or.inl ?_
      rw [isActive, hafter]
      exact hactive'
    · exact Or.inr (Or.inl hcloses)
  | stored => exact Or.inl (hkept hfind)
  | resolved evaluation eventId' event' next ha hevaluation hcommits hcourse hevent hactive' hnext =>
    by_cases heq : eventId = eventId'
    · subst heq
      refine Or.inr (Or.inr ⟨evaluation, processed_of_commits ha hevaluation hcommits _, hcourse, ?_⟩)
      have htarget := target_of_resolved hnext (evaluation.key env)
      rw [if_pos rfl] at htarget
      constructor
      · change (next.targets.find? _).bind _ = _
        rw [htarget]
        cases s.targets.find? (evaluation.key env) <;> rfl
      · change (next.targets.find? _).bind _ = _
        rw [htarget]
        cases s.targets.find? (evaluation.key env) <;> rfl
    · exact Or.inl (hkept ((find?_of_resolved hnext _).trans ((if_neg heq).trans hfind)))
  | fired evaluation conditionSince events ha hevaluation hcommits hcourse hinsert =>
    refine Or.inl (hkept ((Table.find?_of_insert? hinsert _).trans ((if_neg ?_).trans hfind)))
    rintro rfl
    exact absurd (hlaw.new.symm.trans hfind) (by simp)
  | adopted evaluation staged conditionSince saved ha hevaluation hcourse hsaved hactive' htarget =>
    exact absurd hcourse (hlaw.not_adopted hevaluation hsaved hactive' htarget)

theorem not_closes (hok : endsUnreferred s a = true) (hreferred : s.activeOf key = some eventId)
    (hfind : s.events.find? eventId = some event) (hactive : event.active = true) :
    ¬ Closes a event := by
  rintro ⟨incidentId, now, rfl, hincident⟩
  obtain ⟨row, hrow, hrefers⟩ := Option.bind_eq_some_iff.mp hreferred
  rw [endsUnreferred, List.all_eq_true] at hok
  have hunlinked := hok row (Table.mem_of_find? hrow)
  rw [hrefers, Option.all_some, hfind, Option.any_some, linked, hactive, hincident] at hunlinked
  exact absurd hunlinked (by simp)

theorem referred_step (hlaw : AlertLaw env s) (h : Referred s) (hok : endsUnreferred s a = true) :
    Referred (step env s a) := by
  intro key eventId hactive
  rcases activeOf_step hlaw hactive with hbefore | ⟨event, hfind, -, hnew⟩
  · obtain ⟨event, hfind, hevent⟩ := (Option.any_eq_true ..).mp (h key eventId hbefore)
    rcases isActive_step (a := a) hlaw hfind hevent with hkept | hcloses | ⟨evaluation, hprocessed, hcourse, hidle, -⟩
    · exact hkept
    · exact absurd hcloses (not_closes hok hbefore hfind hevent)
    · -- the event of the sample is that of its own target
      have hown := hlaw.active (evaluation_of_processed hprocessed)
      rw [(active_of_recover hcourse).1] at hown
      obtain ⟨event', hfind', htarget⟩ := hlaw.refers key eventId hbefore
      obtain ⟨event'', hfind'', htarget'⟩ := hlaw.refers _ eventId hown.symm
      obtain rfl := Option.some.inj (hfind'.symm.trans hfind'')
      rw [← htarget.symm.trans htarget', hactive] at hidle
      cases hidle
  · rw [isActive, hfind]
    exact hnew

theorem run_referred {actions : List AlertAction}
    (hok : Runs.Meets (step env) (fun s a => endsUnreferred s a = true) .empty actions) :
    Referred (Runs.run (step env) .empty actions) := by
  have h := Runs.run_invariant_of_meets (P := fun s => AlertLaw env s ∧ Referred s)
    (fun s a h hok => ⟨alertLaw_step h.1 a, referred_step h.1 h.2 hok⟩)
    ⟨alertLaw_empty, fun _ _ hactive => by cases hactive⟩ hok
  exact h.2

/-! ## Firing again -/

theorem fires_of_insert {next : AlertState} (hinsert : s.events.insert? event = some next.events)
    (htarget : event.target = key) :
    fires key ⟨s, a, next⟩ = true := by
  obtain ⟨hnone, hrows⟩ := Table.insert?_eq_some hinsert
  rw [fires, List.any_eq_true]
  refine ⟨event, ?_, ?_⟩
  · rw [hrows]
    exact List.mem_append_right _ (List.mem_singleton_self event)
  · rw [hnone, htarget]
    simp

/-- A sample that breaches the threshold fires, or leaves the target waiting. -/
theorem idle_processed (hlaw : AlertLaw env s) {evaluation : Evaluation}
    (hprocessed : processed ⟨s, a, step env s a⟩ = some evaluation)
    (hmatched : evaluation.matched = true) (hkey : evaluation.key env = key)
    (hidle : s.activeOf key = none) :
    fires key ⟨s, a, step env s a⟩ = true ∨
      (step env s a).activeOf key = none ∧ ∃ since, (step env s a).conditionOf key = some since ∧
        (s.conditionOf key = none ∧ since = evaluation.measurement.observedAt ∨
          s.conditionOf key = some since ∧
            evaluation.measurement.observedAt - since < seconds evaluation.rule.forSeconds) := by
  subst hkey
  have hevaluation := evaluation_of_processed hprocessed
  have hactive := (hlaw.active hevaluation).trans hidle
  have hcondition := hlaw.condition hevaluation
  have hout := outcome_step hlaw a
  generalize step env s a = next at hout hprocessed ⊢
  cases hout with
  | aged _ htargets htransitions hdrawn hevents hclosed hnone =>
    rw [hnone] at hprocessed
    cases hprocessed
  | stored evaluation' staged conditionSince activeEventId ha hevaluation' hcommits hcourse =>
    obtain rfl := Option.some.inj (hevaluation.symm.trans hevaluation')
    rcases hcourse with ⟨hcourse, rfl⟩ | ⟨eventId, hcourse, rfl⟩
    · refine Or.inr ?_
      simp only [activeOf, conditionOf, upsertAlertRuleTargetState, target_of_stored, if_pos,
        Option.bind_some]
      refine ⟨rfl, ?_⟩
      rcases idle_cases hactive with ⟨hunmatched, -⟩ | ⟨-, hnone, hobserve⟩ | ⟨since, -, hsince, hlong⟩
      · rw [hmatched] at hunmatched
        cases hunmatched
      · obtain rfl := Course.observe.inj (hcourse.symm.trans hobserve)
        exact ⟨_, rfl, Or.inl ⟨hcondition.symm.trans hnone, rfl⟩⟩
      · split at hlong
        · rename_i hshort
          obtain rfl := Course.observe.inj (hcourse.symm.trans hlong)
          exact ⟨since, rfl, Or.inr ⟨hcondition.symm.trans hsince, hshort⟩⟩
        · cases hcourse.symm.trans hlong
    · rw [(active_of_refresh hcourse).1] at hactive
      cases hactive
  | resolved evaluation' eventId event next ha hevaluation' hcommits hcourse =>
    obtain rfl := Option.some.inj (hevaluation.symm.trans hevaluation')
    rw [(active_of_recover hcourse).1] at hactive
    cases hactive
  | fired evaluation' conditionSince events ha hevaluation' hcommits hcourse hinsert =>
    obtain rfl := Option.some.inj (hevaluation.symm.trans hevaluation')
    exact Or.inl (fires_of_insert hinsert rfl)
  | adopted evaluation' staged conditionSince saved ha hevaluation' hcourse hsaved hactive' htarget =>
    exact absurd hcourse (hlaw.not_adopted hevaluation' hsaved hactive' htarget)

theorem samplesOf_cons (key : TargetKey) (e : Runs.Entry AlertState AlertAction)
    (l : List (Runs.Entry AlertState AlertAction)) :
    samplesOf env key (e :: l) =
      ((processed e).filter fun evaluation => evaluation.key env = key).toList ++
        samplesOf env key l := by
  rw [samplesOf, List.filterMap_cons]
  cases processed e with
  | none => rfl
  | some evaluation =>
    dsimp only
    rw [List.filter_cons, Option.filter_some]
    split <;> rfl

theorem sample_cases (hlaw : AlertLaw env s) (key : TargetKey) (later : List AlertAction) :
    (∃ evaluation, processed ⟨s, a, step env s a⟩ = some evaluation ∧
        evaluation.key env = key ∧
        samplesOf env key (Runs.trace (step env) s (a :: later)) =
          evaluation :: samplesOf env key (Runs.trace (step env) (step env s a) later)) ∨
      (step env s a).targets.find? key = s.targets.find? key ∧
        samplesOf env key (Runs.trace (step env) s (a :: later)) =
          samplesOf env key (Runs.trace (step env) (step env s a) later) := by
  rw [Runs.trace, samplesOf_cons]
  cases hfilter : (processed ⟨s, a, step env s a⟩).filter fun evaluation =>
      decide (evaluation.key env = key) with
  | none =>
    refine Or.inr ⟨target_of_unprocessed hlaw fun evaluation hprocessed hkey => ?_, rfl⟩
    rw [hprocessed, Option.filter_some, if_pos (decide_eq_true hkey)] at hfilter
    cases hfilter
  | some evaluation =>
    obtain ⟨hprocessed, hkey⟩ := Option.filter_eq_some_iff.mp hfilter
    exact Or.inl ⟨evaluation, hprocessed, of_decide_eq_true hkey, rfl⟩

theorem fires_of_waiting (later : List AlertAction) (hlaw : AlertLaw env s)
    (hidle : s.activeOf key = none) {since : ℤ} (hsince : s.conditionOf key = some since)
    (hmatched : ∀ sample ∈ samplesOf env key (Runs.trace (step env) s later),
      sample.matched = true) {sample : Evaluation}
    (hsample : sample ∈ samplesOf env key (Runs.trace (step env) s later))
    (hlong : seconds sample.rule.forSeconds ≤ sample.measurement.observedAt - since) :
    (Runs.trace (step env) s later).any (fires key) = true := by
  induction later generalizing s with
  | nil => cases hsample
  | cons a later ih =>
    have hnext := alertLaw_step hlaw a
    rw [Runs.trace, List.any_cons, Bool.or_eq_true]
    rcases sample_cases (a := a) hlaw key later with
      ⟨evaluation, hprocessed, hkey, hsamples⟩ | ⟨htarget, hsamples⟩
    · rw [hsamples] at hmatched hsample
      rcases idle_processed hlaw hprocessed (hmatched _ List.mem_cons_self) hkey hidle with
        hfires | ⟨hidle', since', hsince', ⟨hnone, -⟩ | ⟨hsame, hshort⟩⟩
      · exact Or.inl hfires
      · rw [hsince] at hnone
        cases hnone
      · obtain rfl := Option.some.inj (hsince.symm.trans hsame)
        refine Or.inr (ih hnext hidle' hsince' (fun x hx => hmatched x (List.mem_cons_of_mem _ hx)) ?_)
        rcases List.mem_cons.mp hsample with rfl | hsample
        · omega
        · exact hsample
    · rw [hsamples] at hmatched hsample
      refine Or.inr (ih hnext ?_ ?_ hmatched hsample)
      · rw [activeOf, htarget]
        exact hidle
      · rw [conditionOf, htarget]
        exact hsince

theorem fires_of_rested (later : List AlertAction) (hlaw : AlertLaw env s)
    (hidle : s.activeOf key = none) (hrested : s.conditionOf key = none) {first : Evaluation}
    {rest : List Evaluation}
    (hsamples : samplesOf env key (Runs.trace (step env) s later) = first :: rest)
    (hmatched : ∀ sample ∈ first :: rest, sample.matched = true) {sample : Evaluation}
    (hsample : sample ∈ rest) (hlong : seconds sample.rule.forSeconds ≤
      sample.measurement.observedAt - first.measurement.observedAt) :
    (Runs.trace (step env) s later).any (fires key) = true := by
  induction later generalizing s with
  | nil => cases hsamples
  | cons a later ih =>
    have hnext := alertLaw_step hlaw a
    rw [Runs.trace, List.any_cons, Bool.or_eq_true]
    rcases sample_cases (a := a) hlaw key later with
      ⟨evaluation, hprocessed, hkey, hcons⟩ | ⟨htarget, hcons⟩
    · rw [hcons] at hsamples
      obtain ⟨rfl, hrest⟩ := List.cons.inj hsamples
      rcases idle_processed hlaw hprocessed (hmatched _ List.mem_cons_self) hkey hidle with
        hfires | ⟨hidle', since, hsince, ⟨-, rfl⟩ | ⟨hsome, -⟩⟩
      · exact Or.inl hfires
      · refine Or.inr (fires_of_waiting later hnext hidle' hsince ?_ (hrest ▸ hsample) hlong)
        intro x hx
        exact hmatched x (List.mem_cons_of_mem _ (hrest ▸ hx))
      · rw [hrested] at hsome
        cases hsome
    · rw [hcons] at hsamples
      refine Or.inr (ih hnext ?_ ?_ hsamples)
      · rw [activeOf, htarget]
        exact hidle
      · rw [conditionOf, htarget]
        exact hrested

theorem rested_of_resolves (hlaw : AlertLaw env s) (hok : endsUnreferred s a = true)
    (h : resolves key ⟨s, a, step env s a⟩ = true) :
    (step env s a).activeOf key = none ∧ (step env s a).conditionOf key = none := by
  obtain ⟨event, hmem, hevent⟩ := List.any_eq_true.mp h
  simp only [Bool.and_eq_true, decide_eq_true_eq, Bool.not_eq_true'] at hevent
  obtain ⟨⟨rfl, hactive⟩, hresolved⟩ := hevent
  have hfind := Table.find?_of_mem hmem
  have howned := hlaw.owned _ _ hfind hactive
  rcases isActive_step (a := a) hlaw hfind hactive with
    hkept | hcloses | ⟨evaluation, hprocessed, hcourse, hrest⟩
  · rw [hkept] at hresolved
    cases hresolved
  · exact absurd hcloses (not_closes hok howned hfind hactive)
  · have hown := hlaw.active (evaluation_of_processed hprocessed)
    rw [(active_of_recover hcourse).1] at hown
    obtain ⟨event', hfind', htarget⟩ := hlaw.refers _ _ hown.symm
    obtain rfl := Option.some.inj (hfind.symm.trans hfind')
    rw [htarget]
    exact hrest

/-- Event ids are counted, and a subject is its name. -/
def AlertEnv.sample : AlertEnv where
  subjectKey := AlertSubject.name
  uuid n := "ale-" ++ String.ofList (List.replicate n 'u')
  uuid_injective m n h := by
    have hlength := congrArg String.length h
    simpa using hlength

/-- A rule over a minute. -/
def sampleRule : AlertRule where
  ruleId := "rule"
  name := "CPU"
  comparator := .gt
  threshold := 80
  forSeconds := 60
  severity := "warning"
  channels := ["channel"]
  forSeconds_pos := by decide

/-- A sample of a pod at a second. -/
def sampleAt (value : ℚ) (second : ℕ) : AlertMeasurement where
  subject := ⟨"cluster", "ns", "Pod", "web"⟩
  observedValue := value
  observedAt := seconds second
  evidence := [⟨some (seconds second), .null⟩]
  evidence_ne := by simp

/-- The evaluator processes a sample. -/
def evaluate (value : ℚ) (second : ℕ) : List AlertAction :=
  [.readTarget sampleRule (sampleAt value second) (seconds second), .refreshActive,
    .writeTarget true]

/-- Two samples breach the threshold, and an event fires. -/
def firedOnce : List AlertAction := evaluate 90 0 ++ evaluate 90 60

/-- The event is acknowledged and resolved, and the condition comes back. -/
def firedTwice : List AlertAction :=
  firedOnce ++ [.acknowledge "ale-" "operator" 0] ++ evaluate 10 120 ++
    [.resolveIncident "incident" 0] ++ evaluate 90 180 ++ evaluate 90 240

/-- The event is promoted, its incident ends, and the condition stays. -/
def endedIncident : List AlertAction :=
  firedOnce ++ [.promote "ale-" "incident" "operator" 0, .resolveIncident "incident" 0]

end Opsia.Alert
