import Opsia.Alert.TargetStates
import Opsia.Lib.Streaks

/-!
# Firing

An event fires on a streak of samples that breach the threshold, over the time that the rule
asks for; between two events of a target one is resolved; and the notifier is told every
transition once (`FiringSound`).

A sample is known to be new by the evidence of the state, so the samples carry their own time in
their evidence (`carriesOwn`). Operators and incidents may do what they like in between.
-/

namespace Opsia.Alert

open AlertState

open Streaks (Streak)

variable (env : AlertEnv)

/-! ## The property -/

/-- The sample of a read carries its own time in its evidence. -/
def carriesOwn : AlertAction → Bool
  | .readTarget _ measurement _ =>
    lastObservedAt measurement.evidence = some measurement.observedAt
  | _ => true

/-- The entries end with a streak of samples of a target, taken at increasing times, that all
breach the threshold. -/
def BreachStreak (key : TargetKey) :
    List (Runs.Entry AlertState AlertAction) → ℤ → ℤ → ℕ → Prop :=
  Streak (fun e => (processed e).any fun sample => sample.key env = key)
    (fun e => (processed e).any Evaluation.matched = true)
    (fun e => (processed e).map fun sample => sample.measurement.observedAt) (· < ·)

/-- A sample resolves an event of a target. -/
def recovers (key : TargetKey) (e : Runs.Entry AlertState AlertAction) : Bool :=
  match e.action with
  | .writeTarget _ => resolves key e
  | _ => false

/-- The evaluator makes an event fire, or resolves it. -/
def occurs (eventId : String) (kind : TransitionKind) (e : Runs.Entry AlertState AlertAction) :
    Bool :=
  match e.action, kind with
  | .writeTarget _, .firing =>
    (e.pre.events.find? eventId).isNone && (e.post.events.find? eventId).isSome
  | .writeTarget _, .resolved => e.pre.isActive eventId && !e.post.isActive eventId
  | _, _ => false

/-- The transition of an event. -/
def AlertTransition.isOf (eventId : String) (kind : TransitionKind) (transition : AlertTransition) :
    Bool := transition.eventId = eventId && transition.kind = kind

/-- What a run says of firing events. -/
structure FiringSound (actions : List AlertAction) : Prop where
  /-- an event fires on a streak that is long enough -/
  streak : ∀ before a later, actions = before ++ a :: later →
    let s := Runs.run (step env) .empty before
    ∀ key, fires key ⟨s, a, step env s a⟩ = true →
      ∃ sample first last count, processed ⟨s, a, step env s a⟩ = some sample ∧
        sample.key env = key ∧
        BreachStreak env key (Runs.trace (step env) .empty (before ++ [a])) first last count ∧
        seconds sample.rule.forSeconds ≤ last - first
  /-- between two events of a target one is resolved -/
  between : ∀ before a middle b later, actions = before ++ a :: (middle ++ b :: later) →
    let s := Runs.run (step env) .empty before
    let t := Runs.run (step env) (step env s a) middle
    ∀ key, fires key ⟨s, a, step env s a⟩ = true → fires key ⟨t, b, step env t b⟩ = true →
      (Runs.trace (step env) (step env s a) middle).any (recovers key) = true
  /-- every transition is told -/
  told : ∀ eventId kind,
    (Runs.run (step env) .empty actions).transitions.countP (AlertTransition.isOf eventId kind) =
      (Runs.trace (step env) .empty actions).countP (occurs eventId kind)
  /-- no transition is told twice -/
  once : ∀ eventId kind,
    (Runs.run (step env) .empty actions).transitions.countP (AlertTransition.isOf eventId kind) ≤ 1

variable {env} {s : AlertState} {a : AlertAction}

/-! ## Steps that fire -/

variable {eventId : String} {key : TargetKey} {next : AlertState} {sample : Evaluation}
  {e : Runs.Entry AlertState AlertAction}

theorem not_fires (h : ∀ eventId event, next.events.find? eventId = some event →
      ∃ before, s.events.find? eventId = some before) : fires key ⟨s, a, next⟩ = false := by
  rw [fires, List.any_eq_false]
  intro event hmem hnew
  obtain ⟨before, hbefore⟩ := h _ _ (Table.find?_of_mem hmem)
  rw [hbefore] at hnew
  simp at hnew

theorem fired_of_fires (hlaw : AlertLaw env s) (h : fires key ⟨s, a, step env s a⟩ = true) :
    ∃ sample since, processed ⟨s, a, step env s a⟩ = some sample ∧ sample.key env = key ∧
      s.activeOf key = none ∧ s.conditionOf key = some since ∧ sample.matched = true ∧
      seconds sample.rule.forSeconds ≤ sample.measurement.observedAt - since ∧
      (step env s a).activeOf key = some (env.uuid s.drawn) := by
  have hout := outcome_step hlaw a
  generalize step env s a = next at hout h ⊢
  have hold (hsame : next.events = s.events) : fires key ⟨s, a, next⟩ = false :=
    not_fires fun eventId event hfind => ⟨event, hsame ▸ hfind⟩
  cases hout with
  | aged _ htargets htransitions hdrawn hevents =>
    rw [not_fires fun eventId event hfind =>
      (hevents.before hfind).imp fun _ hbefore => hbefore.1] at h
    cases h
  | stored =>
    rw [hold rfl] at h
    cases h
  | resolved evaluation eventId event next ha hevaluation hcommits hcourse hevent hactive hnext =>
    rw [not_fires fun eventId' event' hfind => ?_] at h
    · cases h
    · have hfind' := (find?_of_resolved hnext eventId').symm.trans hfind
      split at hfind'
      · obtain ⟨before, hbefore, -⟩ := Option.map_eq_some_iff.mp hfind'
        exact ⟨before, hbefore⟩
      · exact ⟨event', hfind'⟩
  | fired evaluation conditionSince events ha hevaluation hcommits hcourse hinsert =>
    have hprocessed := processed_of_commits ha hevaluation hcommits
    have hidle := idle_of_activate hcourse
    have hkey : evaluation.key env = key := by
      obtain ⟨event, hmem, hnew⟩ := List.any_eq_true.mp h
      simp only [Bool.and_eq_true, decide_eq_true_eq, Option.isNone_iff_eq_none] at hnew
      have hfind := (Table.find?_of_insert? hinsert event.eventId).symm.trans
        (Table.find?_of_mem hmem)
      split at hfind
      · obtain rfl := Option.some.inj hfind
        exact hnew.1
      · rw [hnew.2] at hfind
        cases hfind
    subst hkey
    rcases idle_cases hidle with ⟨-, hobserve⟩ | ⟨-, -, hobserve⟩ | ⟨since, hmatched, hsince, hlong⟩
    · cases hcourse.symm.trans hobserve
    · cases hcourse.symm.trans hobserve
    · split at hlong
      · cases hcourse.symm.trans hlong
      · rename_i hshort
        refine ⟨evaluation, since, hprocessed _, rfl, (hlaw.active hevaluation).symm.trans hidle,
          (hlaw.condition hevaluation).symm.trans hsince, hmatched, Int.not_lt.mp hshort, ?_⟩
        change ((s.targets.put _).find? _).bind _ = _
        rw [target_of_stored, if_pos rfl]
        rfl
  | adopted evaluation staged conditionSince saved ha hevaluation hcourse hsaved hactive htarget =>
    exact absurd hcourse (hlaw.not_adopted hevaluation hsaved hactive htarget)

/-! ## Streaks -/

/-- The time of the last sample in the state of a target. -/
def AlertState.lastOf (s : AlertState) (key : TargetKey) : Option ℤ :=
  (s.targets.find? key).bind fun row => lastObservedAt row.lastEvidence

variable (env) in
/-- The condition of a target without an event has held for a streak of samples. -/
structure StreakLaw (l : List (Runs.Entry AlertState AlertAction)) (s : AlertState) : Prop where
  law : AlertLaw env s
  /-- the sample at work is new -/
  reading : ∀ sample, s.evaluation = some sample →
    lastObservedAt sample.measurement.evidence = some sample.measurement.observedAt ∧
      ∀ last, s.lastOf (sample.key env) = some last → last < sample.measurement.observedAt
  streak : ∀ key since, s.activeOf key = none → s.conditionOf key = some since →
    ∃ last count, s.lastOf key = some last ∧ BreachStreak env key l since last count

variable {l : List (Runs.Entry AlertState AlertAction)}

theorem streak_of_processed (h : StreakLaw env l s) (hpre : e.pre = s)
    (hprocessed : processed e = some sample) (hmatched : sample.matched = true)
    (hidle : s.activeOf (sample.key env) = none) {since : ℤ}
    (hsince : s.conditionOf (sample.key env) = some since) :
    ∃ count, BreachStreak env (sample.key env) (l ++ [e]) since sample.measurement.observedAt
      count := by
  obtain ⟨last, count, hlast, hstreak⟩ := h.streak _ since hidle hsince
  have hevaluation : s.evaluation = some sample := by
    rw [← hpre]
    exact @evaluation_of_processed e.pre e.action e.post sample hprocessed
  refine ⟨count + 1, hstreak.snoc ?_ ?_ ?_ ((h.reading sample hevaluation).2 last hlast)⟩
  · rw [hprocessed, Option.any_some, decide_eq_true_eq]
  · rw [hprocessed]
    exact hmatched
  · rw [hprocessed]
    rfl

theorem streak_of_first (hprocessed : processed e = some sample) (hmatched : sample.matched = true)
    :
    BreachStreak env (sample.key env) (l ++ [e]) sample.measurement.observedAt
      sample.measurement.observedAt 1 := by
  refine Streak.alone ?_ ?_ ?_
  · rw [hprocessed, Option.any_some, decide_eq_true_eq]
  · rw [hprocessed]
    exact hmatched
  · rw [hprocessed]
    rfl

theorem streak_of_unprocessed (h : StreakLaw env l s)
    (hnone : ∀ sample, processed e = some sample → sample.key env ≠ key) {t : AlertState}
    (htarget : t.targets.find? key = s.targets.find? key) {since : ℤ}
    (hidle : t.activeOf key = none) (hsince : t.conditionOf key = some since) :
    ∃ last count, t.lastOf key = some last ∧ BreachStreak env key (l ++ [e]) since last count := by
  rw [activeOf, htarget] at hidle
  rw [conditionOf, htarget] at hsince
  rw [lastOf, htarget]
  obtain ⟨last, count, hlast, hstreak⟩ := h.streak key since hidle hsince
  refine ⟨last, count, hlast, hstreak.skip ?_⟩
  rw [Option.any_eq_false]
  intro sample hsample
  exact decide_eq_false (hnone sample hsample)

theorem reading_of_carriesOwn (h : StreakLaw env l s) (hok : carriesOwn a = true)
    (hsample : (step env s a).evaluation = some sample) :
    lastObservedAt sample.measurement.evidence = some sample.measurement.observedAt ∧
      ∀ last, (step env s a).lastOf (sample.key env) = some last →
        last < sample.measurement.observedAt := by
  obtain ⟨htargets, ⟨rule, measurement, evaluatedAt, rfl, rfl, hnew⟩ | ⟨before, hbefore, heq⟩⟩ :=
    evaluation_step hsample
  · refine ⟨of_decide_eq_true hok, fun last hlast => ?_⟩
    rw [lastOf, htargets] at hlast
    obtain ⟨row, hrow, hlast⟩ := Option.bind_eq_some_iff.mp hlast
    exact hnew row last hrow hlast
  · rw [lastOf, htargets, heq]
    exact h.reading before hbefore

theorem stored_of_processed (hlaw : AlertLaw env s)
    (hprocessed : processed ⟨s, a, step env s a⟩ = some sample) {since : ℤ}
    (hidle : (step env s a).activeOf (sample.key env) = none)
    (hsince : (step env s a).conditionOf (sample.key env) = some since) :
    sample.matched = true ∧ s.activeOf (sample.key env) = none ∧
      (step env s a).lastOf (sample.key env) = lastObservedAt sample.measurement.evidence ∧
      (s.conditionOf (sample.key env) = none ∧ since = sample.measurement.observedAt ∨
        s.conditionOf (sample.key env) = some since) := by
  have hevaluation := evaluation_of_processed hprocessed
  have hactive := hlaw.active hevaluation
  have hcondition := hlaw.condition hevaluation
  have hout := outcome_step hlaw a
  generalize step env s a = next at hout hprocessed hidle hsince ⊢
  cases hout with
  | aged _ htargets htransitions hdrawn hevents hclosed hnone =>
    rw [hnone] at hprocessed
    cases hprocessed
  | stored evaluation staged conditionSince activeEventId ha hevaluation' hcommits hcourse =>
    obtain rfl := Option.some.inj (hevaluation.symm.trans hevaluation')
    rw [activeOf, upsertAlertRuleTargetState, target_of_stored, if_pos rfl] at hidle
    rw [conditionOf, upsertAlertRuleTargetState, target_of_stored, if_pos rfl] at hsince
    rw [lastOf, upsertAlertRuleTargetState, target_of_stored, if_pos rfl]
    change activeEventId = none at hidle
    change conditionSince = some since at hsince
    subst hidle hsince
    rcases hcourse with ⟨hcourse, -⟩ | ⟨eventId, -, hnone⟩
    · have hnone := idle_of_observe hcourse
      rcases idle_cases hnone with ⟨-, hobserve⟩ | ⟨hmatched, hfirst, hobserve⟩ | ⟨since', hmatched, hheld, hlong⟩
      · cases hcourse.symm.trans hobserve
      · obtain rfl := Option.some.inj (Course.observe.inj (hcourse.symm.trans hobserve))
        exact ⟨hmatched, hactive.symm.trans hnone, rfl, Or.inl ⟨hcondition.symm.trans hfirst, rfl⟩⟩
      · split at hlong
        · obtain rfl := Option.some.inj (Course.observe.inj (hcourse.symm.trans hlong))
          exact ⟨hmatched, hactive.symm.trans hnone, rfl, Or.inr (hcondition.symm.trans hheld)⟩
        · cases hcourse.symm.trans hlong
    · cases hnone
  | resolved evaluation eventId event next ha hevaluation' hcommits hcourse hevent hactive' hnext =>
    obtain rfl := Option.some.inj (hevaluation.symm.trans hevaluation')
    change (next.targets.find? _).bind _ = _ at hsince
    rw [target_of_resolved hnext, if_pos rfl] at hsince
    obtain ⟨row, hrow, hnone⟩ := Option.bind_eq_some_iff.mp hsince
    obtain ⟨before, -, rfl⟩ := Option.map_eq_some_iff.mp hrow
    cases hnone
  | fired evaluation conditionSince events ha hevaluation' hcommits hcourse hinsert =>
    obtain rfl := Option.some.inj (hevaluation.symm.trans hevaluation')
    change ((s.targets.put _).find? _).bind _ = _ at hidle
    rw [target_of_stored, if_pos rfl] at hidle
    cases hidle
  | adopted evaluation staged conditionSince saved ha hevaluation' hcourse hsaved hactive' htarget =>
    exact absurd hcourse (hlaw.not_adopted hevaluation' hsaved hactive' htarget)

theorem streakLaw_step (h : StreakLaw env l s) (hok : carriesOwn a = true) :
    StreakLaw env (l ++ [⟨s, a, step env s a⟩]) (step env s a) where
  law := alertLaw_step h.law a
  reading := fun _ => reading_of_carriesOwn h hok
  streak := by
    intro key since hidle hsince
    cases hfilter : (processed ⟨s, a, step env s a⟩).filter fun sample =>
        decide (sample.key env = key) with
    | none =>
      have hnone : ∀ sample, processed ⟨s, a, step env s a⟩ = some sample → sample.key env ≠ key := by
        intro sample hprocessed hkey
        rw [hprocessed, Option.filter_some, if_pos (decide_eq_true hkey)] at hfilter
        cases hfilter
      exact streak_of_unprocessed h hnone (target_of_unprocessed h.law hnone) hidle hsince
    | some sample =>
      obtain ⟨hprocessed, hkey⟩ := Option.filter_eq_some_iff.mp hfilter
      obtain rfl := of_decide_eq_true hkey
      have hevaluation := evaluation_of_processed hprocessed
      have hstored := stored_of_processed h.law hprocessed hidle hsince
      obtain ⟨hmatched, hidle', hlast, hcondition⟩ := hstored
      refine ⟨sample.measurement.observedAt, ?_⟩
      rw [hlast]
      rcases hcondition with ⟨-, rfl⟩ | hcondition
      · exact ⟨1, (h.reading sample hevaluation).1, streak_of_first hprocessed hmatched⟩
      · obtain ⟨count, hstreak⟩ := streak_of_processed h rfl hprocessed hmatched hidle' hcondition
        exact ⟨count, (h.reading sample hevaluation).1, hstreak⟩

theorem run_streakLaw {actions : List AlertAction}
    (hok : Runs.Meets (step env) (fun _ a => carriesOwn a = true) .empty actions) :
    StreakLaw env (Runs.trace (step env) .empty actions) (Runs.run (step env) .empty actions) := by
  refine Runs.run_history_invariant_of_meets (P := fun l s => StreakLaw env l s) ?_ ?_ hok
  · intro l s a h hok
    exact streakLaw_step h hok
  · exact ⟨alertLaw_empty, fun _ h => (by cases h), fun _ _ _ h => (by cases h)⟩

/-! ## Between two events -/

theorem isActive_of_resolved {evaluation : Evaluation}
    (hnext : s.resolveAlertRuleEvent env evaluation eventId = some next) (eventId' : String) :
    next.isActive eventId' = if eventId' = eventId then false else s.isActive eventId' := by
  rw [isActive, find?_of_resolved hnext]
  split
  · cases s.events.find? eventId' <;> rfl
  · rfl

/-- A state keeps its event until a sample resolves it. -/
theorem activeOf_kept (hlaw : AlertLaw env s) (hactive : s.activeOf key = some eventId)
    (hkept : recovers key ⟨s, a, step env s a⟩ = false) :
    (step env s a).activeOf key = some eventId := by
  have hout := outcome_step hlaw a
  generalize step env s a = next at hout hkept ⊢
  cases hout with
  | aged _ htargets =>
    rw [activeOf, htargets]
    exact hactive
  | stored evaluation staged conditionSince activeEventId ha hevaluation hcommits hcourse =>
    rw [activeOf, upsertAlertRuleTargetState, target_of_stored]
    split
    · rename_i hkey
      rw [hkey, ← hlaw.active hevaluation] at hactive
      rcases hcourse with ⟨hobserve, rfl⟩ | ⟨active, hrefresh, rfl⟩
      · rw [idle_of_observe hobserve] at hactive
        cases hactive
      · exact (active_of_refresh hrefresh).1.symm.trans hactive
    · exact hactive
  | resolved evaluation eventId' event next ha hevaluation hcommits hcourse hevent hactive' hnext =>
    change (next.targets.find? key).bind _ = _
    rw [target_of_resolved hnext]
    split
    · rename_i hkey
      subst ha hkey
      have hown := hlaw.active hevaluation
      rw [(active_of_recover hcourse).1] at hown
      obtain ⟨event', hfind, htarget⟩ := hlaw.refers _ _ hown.symm
      obtain rfl := Option.some.inj (hevent.symm.trans hfind)
      have hresolved : (next.tell evaluation.rule eventId' .resolved).isActive event.eventId = false := by
        have heq : event.eventId = eventId' := Table.key_of_find? hevent
        exact (isActive_of_resolved hnext _).trans (if_pos heq)
      have hrecovers : recovers (evaluation.key env)
          ⟨s, .writeTarget true, next.tell evaluation.rule eventId' .resolved⟩ = true := by
        refine List.any_eq_true.mpr ⟨event, Table.mem_of_find? hevent, ?_⟩
        rw [hresolved, hactive', htarget]
        simp
      rw [hrecovers] at hkept
      cases hkept
    · exact hactive
  | fired evaluation conditionSince events ha hevaluation hcommits hcourse hinsert =>
    change ((s.targets.put _).find? key).bind _ = _
    rw [target_of_stored]
    split
    · rename_i hkey
      rw [hkey, ← hlaw.active hevaluation, idle_of_activate hcourse] at hactive
      cases hactive
    · exact hactive
  | adopted evaluation staged conditionSince saved ha hevaluation hcourse hsaved hactive' htarget =>
    exact absurd hcourse (hlaw.not_adopted hevaluation hsaved hactive' htarget)

theorem run_activeOf_kept (hlaw : AlertLaw env s) (hactive : s.activeOf key = some eventId)
    (middle : List AlertAction)
    (hkept : (Runs.trace (step env) s middle).any (recovers key) = false) :
    (Runs.run (step env) s middle).activeOf key = some eventId := by
  induction middle generalizing s with
  | nil => exact hactive
  | cons a middle ih =>
    rw [Runs.trace, List.any_cons, Bool.or_eq_false_iff] at hkept
    exact ih (alertLaw_step hlaw a) (activeOf_kept hlaw hactive hkept.1) hkept.2

/-! ## What the notifier is told -/

theorem not_occurs (h : ∀ staged, a = .writeTarget staged →
    next.events = s.events) (eventId : String) (kind : TransitionKind) :
    occurs eventId kind ⟨s, a, next⟩ = false := by
  cases a with
  | writeTarget staged =>
    have hsame := h staged rfl
    cases kind with
    | firing =>
      simp only [occurs, hsame]
      cases s.events.find? eventId <;> rfl
    | resolved =>
      simp only [occurs, isActive, hsame]
      cases (s.events.find? eventId).any AlertEvent.active <;> rfl
  | _ => cases kind <;> rfl

/-- **The notifier is told what occurs in a step.** -/
theorem told_step (hlaw : AlertLaw env s) (a : AlertAction) (eventId : String)
    (kind : TransitionKind) :
    (step env s a).transitions.countP (AlertTransition.isOf eventId kind) =
      s.transitions.countP (AlertTransition.isOf eventId kind) +
        if occurs eventId kind ⟨s, a, step env s a⟩ then 1 else 0 := by
  have hout := outcome_step hlaw a
  generalize step env s a = next at hout ⊢
  cases hout with
  | aged _ htargets htransitions hdrawn hevents hclosed hprocessed hwrite =>
    rw [not_occurs hwrite, htransitions]
    rfl
  | stored evaluation staged conditionSince activeEventId =>
    have hnot : occurs eventId kind ⟨s, a, { s with evaluation := none }.upsertAlertRuleTargetState
        (evaluation.row env conditionSince activeEventId)⟩ = false :=
      not_occurs (fun _ _ => rfl) eventId kind
    rw [hnot]
    rfl
  | resolved evaluation eventId' event next ha hevaluation hcommits hcourse hevent hactive hnext =>
    subst ha
    have htold : next.transitions = s.transitions := by
      obtain ⟨-, hnext⟩ := Option.ite_none_right_eq_some.mp hnext
      exact Option.some.inj hnext ▸ rfl
    have hoccurs : occurs eventId kind
        ⟨s, .writeTarget true, next.tell evaluation.rule eventId' .resolved⟩ =
          AlertTransition.isOf eventId kind ⟨eventId', .resolved, evaluation.rule.channels⟩ := by
      cases kind with
      | firing =>
        have hafter := find?_of_resolved hnext eventId
        change ((s.events.find? eventId).isNone && (next.events.find? eventId).isSome) = _
        rw [hafter]
        cases s.events.find? eventId <;> simp [AlertTransition.isOf]
      | resolved =>
        change (s.isActive eventId && !next.isActive eventId) = _
        rw [isActive_of_resolved hnext]
        by_cases heq : eventId = eventId'
        · subst heq
          rw [if_pos rfl, isActive, hevent, Option.any_some, hactive]
          simp [AlertTransition.isOf]
        · rw [if_neg heq]
          change (s.isActive eventId && !s.isActive eventId) = _
          rw [Bool.and_not_self]
          simp [AlertTransition.isOf, Ne.symm heq]
    rw [hoccurs]
    change (next.transitions ++ _).countP _ = _
    rw [htold, List.countP_append, List.countP_singleton]
  | fired evaluation conditionSince events ha hevaluation hcommits hcourse hinsert =>
    subst ha
    have hfind : events.find? eventId =
        if eventId = env.uuid s.drawn then some (evaluation.firingEvent env (env.uuid s.drawn))
        else s.events.find? eventId := Table.find?_of_insert? hinsert eventId
    have hnew : s.events.find? (env.uuid s.drawn) = none := hlaw.new
    have hoccurs : ∀ next : AlertState, next.events = events →
        occurs eventId kind ⟨s, .writeTarget true, next⟩ =
          AlertTransition.isOf eventId kind
            ⟨env.uuid s.drawn, .firing, evaluation.rule.channels⟩ := by
      rintro next rfl
      cases kind with
      | firing =>
        change ((s.events.find? eventId).isNone && (next.events.find? eventId).isSome) = _
        rw [hfind]
        by_cases heq : eventId = env.uuid s.drawn
        · subst heq
          rw [if_pos rfl, hnew]
          simp [AlertTransition.isOf]
        · rw [if_neg heq]
          cases s.events.find? eventId <;> simp [AlertTransition.isOf, Ne.symm heq]
      | resolved =>
        change (s.isActive eventId && !next.isActive eventId) = _
        rw [isActive, isActive, hfind]
        by_cases heq : eventId = env.uuid s.drawn
        · subst heq
          rw [hnew]
          simp [AlertTransition.isOf]
        · rw [if_neg heq, Bool.and_not_self]
          simp [AlertTransition.isOf]
    rw [hoccurs _ rfl]
    change (s.transitions ++ _).countP _ = _
    rw [List.countP_append, List.countP_singleton]
  | adopted evaluation staged conditionSince saved ha hevaluation hcourse hsaved hactive htarget =>
    exact absurd hcourse (hlaw.not_adopted hevaluation hsaved hactive htarget)

/-- What the notifier was told of an event is what has become of it. -/
structure ToldLaw (s : AlertState) : Prop where
  once : ∀ eventId kind, s.transitions.countP (AlertTransition.isOf eventId kind) ≤ 1
  firing : ∀ eventId, 0 < s.transitions.countP (AlertTransition.isOf eventId .firing) →
    ∃ event, s.events.find? eventId = some event
  resolved : ∀ eventId, 0 < s.transitions.countP (AlertTransition.isOf eventId .resolved) →
    ∃ event, s.events.find? eventId = some event ∧ event.active = false

theorem new_of_occurs (h : ToldLaw s) {kind : TransitionKind}
    (hoccurs : occurs eventId kind ⟨s, a, next⟩ = true) :
    s.transitions.countP (AlertTransition.isOf eventId kind) = 0 := by
  cases a with
  | writeTarget staged =>
    refine Nat.eq_zero_of_not_pos fun htold => ?_
    cases kind with
    | firing =>
      obtain ⟨event, hfind⟩ := h.firing eventId htold
      simp only [occurs, hfind, Option.isNone_some, Bool.false_and, Bool.false_eq_true] at hoccurs
    | resolved =>
      obtain ⟨event, hfind, hclosed⟩ := h.resolved eventId htold
      simp only [occurs, isActive, hfind, Option.any_some, hclosed, Bool.false_and,
        Bool.false_eq_true] at hoccurs
  | _ => cases hoccurs

theorem after_of_occurs {kind : TransitionKind} (hoccurs : occurs eventId kind ⟨s, a, next⟩ = true)
    :
    (kind = .firing → ∃ event, next.events.find? eventId = some event) ∧
      (kind = .resolved → s.isActive eventId = true ∧ next.isActive eventId = false) := by
  cases a with
  | writeTarget staged =>
    cases kind with
    | firing =>
      refine ⟨fun _ => ?_, fun h => by cases h⟩
      exact Option.isSome_iff_exists.mp (Bool.and_eq_true_iff.mp hoccurs).2
    | resolved =>
      refine ⟨fun h => (by cases h), fun _ => ?_⟩
      obtain ⟨hbefore, hafter⟩ := Bool.and_eq_true_iff.mp hoccurs
      exact ⟨hbefore, (Bool.not_eq_true' _).mp hafter⟩
  | _ => cases hoccurs

theorem toldLaw_step (hlaw : AlertLaw env s) (h : ToldLaw s) (a : AlertAction) :
    ToldLaw (step env s a) where
  once := by
    intro eventId kind
    rw [told_step hlaw]
    split
    · rename_i hoccurs
      rw [new_of_occurs h hoccurs]
    · exact h.once eventId kind
  firing := by
    intro eventId htold
    rw [told_step hlaw] at htold
    split at htold
    · rename_i hoccurs
      exact (after_of_occurs hoccurs).1 rfl
    · obtain ⟨event, hfind⟩ := h.firing eventId htold
      exact (event_step hlaw a hfind).imp fun _ hafter => hafter.1
  resolved := by
    intro eventId htold
    rw [told_step hlaw] at htold
    split at htold
    · rename_i hoccurs
      obtain ⟨hbefore, hafter⟩ := (after_of_occurs hoccurs).2 rfl
      obtain ⟨event, hfind, -⟩ := (Option.any_eq_true ..).mp hbefore
      obtain ⟨after, hfind', -⟩ := event_step hlaw a hfind
      rw [isActive, hfind', Option.any_some] at hafter
      exact ⟨after, hfind', hafter⟩
    · obtain ⟨event, hfind, hclosed⟩ := h.resolved eventId htold
      obtain ⟨after, hfind', haged⟩ := event_step hlaw a hfind
      refine ⟨after, hfind', Bool.eq_false_iff.mpr fun hactive => ?_⟩
      rw [haged.active hactive] at hclosed
      cases hclosed

theorem run_told (actions : List AlertAction) :
    let s := Runs.run (step env) .empty actions
    ToldLaw s ∧ ∀ eventId kind, s.transitions.countP (AlertTransition.isOf eventId kind) =
      (Runs.trace (step env) .empty actions).countP (occurs eventId kind) := by
  intro s
  suffices h : AlertLaw env s ∧ ToldLaw s ∧ ∀ eventId kind,
      s.transitions.countP (AlertTransition.isOf eventId kind) =
        (Runs.trace (step env) .empty actions).countP (occurs eventId kind) from h.2
  refine Runs.run_history_invariant
    (P := fun l s => AlertLaw env s ∧ ToldLaw s ∧ ∀ eventId kind,
      s.transitions.countP (AlertTransition.isOf eventId kind) = l.countP (occurs eventId kind)) ?_
    ⟨alertLaw_empty, ⟨fun _ _ => Nat.zero_le 1, fun _ h => (by cases h), fun _ h => (by cases h)⟩,
      fun _ _ => rfl⟩ actions
  rintro l s a ⟨hlaw, htold, hcount⟩
  refine ⟨alertLaw_step hlaw a, toldLaw_step hlaw htold a, fun eventId kind => ?_⟩
  rw [told_step hlaw, hcount, List.countP_append, List.countP_singleton]

/-- **Events fire on streaks, are resolved in between, and every transition is told once.** -/
theorem run_firing_sound (env : AlertEnv) (actions : List AlertAction)
    (hok : Runs.Meets (step env) (fun _ a => carriesOwn a = true) .empty actions) :
    FiringSound env actions where
  streak := by
    rintro before a later rfl s key hfires
    have hstreak : StreakLaw env _ s := run_streakLaw hok.left
    obtain ⟨sample, since, hprocessed, rfl, hidle, hsince, hmatched, hlong, -⟩ :=
      fired_of_fires hstreak.law hfires
    obtain ⟨count, hbreach⟩ := streak_of_processed hstreak rfl hprocessed hmatched hidle hsince
    refine ⟨sample, since, sample.measurement.observedAt, count, hprocessed, rfl, ?_, hlong⟩
    rw [Runs.trace_append]
    exact hbreach
  between := by
    rintro before a middle b later rfl s t key hfirst hsecond
    have hlaw : AlertLaw env s := run_alertLaw before
    obtain ⟨-, -, -, -, -, -, -, -, hactive⟩ := fired_of_fires hlaw hfirst
    have hmiddle : AlertLaw env t :=
      Runs.run_invariant (P := AlertLaw env) (fun _ a h => alertLaw_step h a)
        (alertLaw_step hlaw a) middle
    obtain ⟨-, -, -, -, hidle, -⟩ := fired_of_fires hmiddle hsecond
    by_contra hkept
    have hstays := run_activeOf_kept (alertLaw_step hlaw a) hactive middle
      (Bool.eq_false_iff.mpr hkept)
    rw [hidle] at hstays
    cases hstays
  told := (run_told actions).2
  once := (run_told actions).1.once

theorem firing_sound_twice : FiringSound .sample firedTwice :=
  run_firing_sound .sample firedTwice (by unfold Runs.Meets; decide +kernel)

end Opsia.Alert
