import Opsia.Recovery.Reads

/-!
# Progress of a verification

The windows that are accepted for a plan, folded into the verification that its attempt
started with, are what the stored verification should be (`ProgressKept`), and every decision
should be made on all the windows that were accepted before it (`DecidesOnAll`).

A decision writes the whole lifecycle that it was computed from under a condition on the
status alone, and a retry comes back to the same status, so that a handler may write what it
has read in an earlier attempt (`stale_judgement_wins`). `run_progress_kept` is about the runs
in which a decision that is written finds the lifecycle that it was made on
(`judgesCurrent`).
-/

namespace Opsia.Recovery

open RecoveryState

variable (env : RecoveryEnv)

/-! ## Progress -/

/-- A window with what it is judged on. -/
structure Judgement : Type where
  window : EvidenceWindow
  alerts : List Json
  now : ℤ
  deriving DecidableEq

/-- The verification after one more window. -/
def Verification.process (plan : RecoveryPlan) (verification : Verification)
    (judgement : Judgement) : Verification :=
  verification.record
    (judge env.assessment plan verification judgement.window judgement.alerts judgement.now)

/-- An attempt at a verification: what it started with, the windows that were accepted since,
and when it has expired. -/
structure Progress : Type where
  start : Verification
  windows : List Judgement
  expiredAt : Option ℤ
  deriving DecidableEq

/-- The verification after the windows in some order. -/
def Progress.result (plan : RecoveryPlan) (progress : Progress) (order : List Judgement) :
    Verification :=
  let verification := order.foldl (Verification.process env plan) progress.start
  (progress.expiredAt.map verification.expire).getD verification

/-- The window that an entry has accepted for a plan, with the row that it was judged on. -/
def acceptedAt (planId : String) (e : Runs.Entry RecoveryState RecoveryAction) :
    Option (RecoveryPlanRecord × Judgement) :=
  match e.action with
  | .judgeNext h alerts _ =>
    match e.pre.work? h with
    | some (.evidence window now (record :: _)) =>
      if record.planId = planId ∧ e.pre.statusOf planId = some .verificationPending then
        some (record, ⟨window, alerts, now⟩)
      else none
    | _ => none
  | _ => none

/-- The attempt of a plan after one more entry. -/
def Progress.next (planId : String) (progress : Option Progress)
    (e : Runs.Entry RecoveryState RecoveryAction) : Option Progress :=
  if e.pre.statusOf planId = some .verificationPending then
    match acceptedAt planId e, e.action with
    | some (_, judgement), _ =>
      progress.map fun progress => { progress with windows := progress.windows ++ [judgement] }
    | none, .expire _ _ now =>
      if e.post.statusOf planId = some .failed then
        progress.map fun progress => { progress with expiredAt := some now }
      else progress
    | none, _ => progress
  else if e.post.statusOf planId = some .verificationPending then
    (e.post.plans.find? planId).bind fun row =>
      row.lifecycle.verification.map fun start => ⟨start, [], none⟩
  else if e.post.statusOf planId = e.pre.statusOf planId then progress
  else none

/-- The current attempt of a plan in a run. -/
def progressOf (planId : String) (l : List (Runs.Entry RecoveryState RecoveryAction)) :
    Option Progress :=
  l.foldl (Progress.next planId) none

/-! ## The property -/

/-- The stored verification is what the windows of the current attempt give in some order. -/
def ProgressKept (l : List (Runs.Entry RecoveryState RecoveryAction)) (s : RecoveryState) : Prop :=
  ∀ row ∈ s.plans.rows,
    (row.status = .verificationPending ∨ row.status = .completed →
      (progressOf row.planId l).isSome = true) ∧
    ∀ progress, progressOf row.planId l = some progress →
      ∃ order, order.Perm progress.windows ∧
        row.lifecycle.verification = some (progress.result env row.plan order)

/-- A window is judged on the verification that all the windows that were accepted before it
in the current attempt have left. -/
def DecidesOnAll (l : List (Runs.Entry RecoveryState RecoveryAction))
    (e : Runs.Entry RecoveryState RecoveryAction) : Prop :=
  ∀ planId record judgement, acceptedAt planId e = some (record, judgement) →
    ∃ progress, progressOf planId l = some progress ∧
      record.lifecycle.verification = some (progress.result env record.plan progress.windows)

/-- A decision that is written finds the lifecycle that it was made on. -/
def judgesCurrent (s : RecoveryState) : RecoveryAction → Bool
  | .judgeNext h _ _ =>
    match s.work? h with
    | some (.evidence _ _ (record :: _)) =>
      (s.plans.find? record.planId).all fun row =>
        row.status ≠ .verificationPending ||
          (row.lifecycle = record.lifecycle && row.plan = record.plan)
    | _ => true
  | _ => true

variable {env} {s : RecoveryState} {a : RecoveryAction}

/-! ## One entry -/

theorem progressOf_append (planId : String) (l : List (Runs.Entry RecoveryState RecoveryAction))
    (e : Runs.Entry RecoveryState RecoveryAction) :
    progressOf planId (l ++ [e]) = Progress.next planId (progressOf planId l) e := by
  rw [progressOf, List.foldl_append]
  rfl

theorem result_append (plan : RecoveryPlan) (progress : Progress) (judgement : Judgement)
    (hexpired : progress.expiredAt = none) :
    { progress with windows := progress.windows ++ [judgement] }.result env plan
        (progress.windows ++ [judgement]) =
      (progress.result env plan progress.windows).process env plan judgement := by
  simp only [Progress.result, hexpired, Option.map_none, Option.getD_none, List.foldl_append,
    List.foldl_cons, List.foldl_nil]

variable {progress : Option Progress} {planId : String} {record : RecoveryPlanRecord}

theorem find?_of_accepted {judgement : Judgement}
    (h : acceptedAt planId ⟨s, a, step env s a⟩ = some (record, judgement)) :
    ∃ row i writtenAt records,
      s.plans.find? planId = some row ∧ row.status = .verificationPending ∧
        a = .judgeNext i judgement.alerts writtenAt ∧
        s.work? i = some (.evidence judgement.window judgement.now (record :: records)) ∧
        record.planId = planId ∧
        let decision := judge env.assessment record.plan record.lifecycle.verificationOrEmpty
          judgement.window judgement.alerts judgement.now
        (step env s a).plans.find? planId = some (row.withLifecycle (s.next writtenAt)
          decision.status.planStatus (judgedLifecycle record.lifecycle judgement.window decision)
          false) := by
  rw [acceptedAt] at h
  split at h
  · rename_i i alerts writtenAt ha
    split at h
    · rename_i window now found records hwork
      obtain ⟨⟨hkey, hpending⟩, h⟩ := Option.ite_none_right_eq_some.mp h
      obtain ⟨rfl, rfl⟩ := Prod.mk.inj (Option.some.inj h)
      dsimp only at ha hwork hpending ⊢
      obtain ⟨row, hrow, hstatus⟩ := Option.map_eq_some_iff.mp hpending
      refine ⟨row, i, writtenAt, records, hrow, hstatus, ha, hwork, hkey, ?_⟩
      subst ha hkey
      rw [step, RecoveryAction.apply, judgeNext, hwork, Option.getD_some, judgePlan,
        RecoveryState.update]
      rcases update_cases (s.begin i (.evidence window now records)) writtenAt found.planId
        .verificationPending
        (judge env.assessment found.plan found.lifecycle.verificationOrEmpty window alerts
          now).status.planStatus
        (judgedLifecycle found.lifecycle window (judge env.assessment found.plan
          found.lifecycle.verificationOrEmpty window alerts now)) false
        (decisionEvents found.planId window.evidenceRef (judge env.assessment found.plan
          found.lifecycle.verificationOrEmpty window alerts now)) with
        ⟨-, hnone⟩ | ⟨row', hrow', -, hsome⟩
      · exact absurd hstatus (hnone row hrow)
      · obtain rfl := Option.some.inj (hrow.symm.trans hrow')
        rw [hsome, Option.getD_some]
        change Table.find? (s.plans.put _) found.planId = _
        rw [Table.find?_put]
        exact if_pos (Table.key_of_find? hrow).symm
    · cases h
  · cases h

variable (env) in
/-- The attempt of a plan and its row: an attempt belongs to a plan that is being verified, or
has been, and the windows in the order of their acceptance give the stored verification. -/
structure PlanLaw (progress : Option Progress) (row? : Option RecoveryPlanRecord) : Prop where
  running : ∀ row, row? = some row → row.status = .verificationPending ∨ row.status = .completed →
    ∃ p, progress = some p ∧ (row.status = .verificationPending → p.expiredAt = none)
  stored : ∀ p, progress = some p → ∃ row, row? = some row ∧
    (row.status = .verificationPending ∨ row.status = .completed ∨ row.status = .failed) ∧
      row.lifecycle.verification = some (p.result env row.plan p.windows)

theorem PlanLaw.none {row? : Option RecoveryPlanRecord}
    (h : ∀ row, row? = some row → row.status ≠ .verificationPending ∧ row.status ≠ .completed) :
    PlanLaw env none row? where
  running row hrow hstatus := by
    obtain ⟨hpending, hcompleted⟩ := h row hrow
    rcases hstatus with hstatus | hstatus
    · exact absurd hstatus hpending
    · exact absurd hstatus hcompleted
  stored _ h := by cases h

theorem PlanLaw.eq_none {row? : Option RecoveryPlanRecord} (hlaw : PlanLaw env progress row?)
    (h : ∀ row, row? = some row → row.status ≠ .verificationPending ∧ row.status ≠ .completed ∧
      row.status ≠ .failed) : progress = .none := by
  rcases progress with _ | p
  · rfl
  · obtain ⟨row, hrow, hstatus, -⟩ := hlaw.stored p rfl
    obtain ⟨hpending, hcompleted, hfailed⟩ := h row hrow
    rcases hstatus with hstatus | hstatus | hstatus
    · exact absurd hstatus hpending
    · exact absurd hstatus hcompleted
    · exact absurd hstatus hfailed

theorem PlanLaw.congr {row row' : RecoveryPlanRecord} (hlaw : PlanLaw env progress (some row))
    (hstatus : row'.status = row.status) (hplan : row'.plan = row.plan)
    (hlifecycle : row'.lifecycle = row.lifecycle) :
    PlanLaw env progress (some row') where
  running found hfound h := by
    obtain rfl := Option.some.inj hfound
    rw [hstatus] at h ⊢
    exact hlaw.running row rfl h
  stored p hp := by
    obtain ⟨found, hfound, hcases, hverification⟩ := hlaw.stored p hp
    obtain rfl := Option.some.inj hfound
    refine ⟨row', rfl, ?_, ?_⟩
    · rw [hstatus]
      exact hcases
    · rw [hlifecycle, hplan]
      exact hverification

theorem planLaw_accepted (hlaw : PlanLaw env progress (s.plans.find? planId))
    (hok : judgesCurrent s a = true) {judgement : Judgement}
    (h : acceptedAt planId ⟨s, a, step env s a⟩ = some (record, judgement)) :
    (∃ p, progress = some p ∧
      record.lifecycle.verification = some (p.result env record.plan p.windows)) ∧
      PlanLaw env (Progress.next planId progress ⟨s, a, step env s a⟩)
        ((step env s a).plans.find? planId) := by
  obtain ⟨row, i, writtenAt, records, hrow, hstatus, ha, hwork, hkey, hfind⟩ := find?_of_accepted h
  have hcurrent : row.lifecycle = record.lifecycle ∧ row.plan = record.plan := by
    rw [ha, judgesCurrent, hwork] at hok
    simpa [hkey, hrow, hstatus] using hok
  obtain ⟨hlifecycle, hplan⟩ := hcurrent
  obtain ⟨p, hp, hexpired⟩ := hlaw.running row hrow (Or.inl hstatus)
  obtain ⟨found, hfound, -, hverification⟩ := hlaw.stored p hp
  obtain rfl := Option.some.inj (hrow.symm.trans hfound)
  rw [hlifecycle, hplan] at hverification
  have hpending : s.statusOf planId = some .verificationPending := by rw [statusOf_eq hrow, hstatus]
  have hnext : Progress.next planId progress ⟨s, a, step env s a⟩ =
      some { p with windows := p.windows ++ [judgement] } := by
    rw [Progress.next, if_pos hpending, h, hp]
    rfl
  refine ⟨⟨p, hp, hverification⟩, ?_⟩
  rw [hnext, hfind]
  refine ⟨fun after hafter _ => ⟨_, rfl, fun _ => hexpired hstatus⟩, fun p' hp' => ?_⟩
  obtain rfl := Option.some.inj hp'
  refine ⟨_, rfl, ?_, ?_⟩
  · change DecisionStatus.planStatus _ = _ ∨ DecisionStatus.planStatus _ = _ ∨
      DecisionStatus.planStatus _ = _
    cases (judge env.assessment record.plan record.lifecycle.verificationOrEmpty judgement.window
      judgement.alerts judgement.now).status <;> decide
  · change some (record.lifecycle.verificationOrEmpty.record _) = some (Progress.result env row.plan
      _ (p.windows ++ [judgement]))
    rw [result_append row.plan p judgement (hexpired hstatus), Lifecycle.verificationOrEmpty,
      hverification, Option.getD_some, hplan]
    rfl

theorem planLaw_written {row : RecoveryPlanRecord} {expected status : RecoveryPlanStatus}
    {lifecycle : Lifecycle} {events : List RecoveryEvent} {now : ℤ} {clearSelection : Bool}
    (hwrite : LifecycleWrite env s a record expected status lifecycle events)
    (hrow : s.plans.find? planId = some row) (hexpected : row.status = expected)
    (hfind : (step env s a).plans.find? planId =
      some (row.withLifecycle (s.next now) status lifecycle clearSelection))
    (hnot : row.status ≠ .verificationPending) :
    PlanLaw env (Progress.next planId progress ⟨s, a, step env s a⟩)
      ((step env s a).plans.find? planId) := by
  have hbefore : s.statusOf planId = some expected := by rw [statusOf_eq hrow, hexpected]
  have hafter : (step env s a).statusOf planId = some status := statusOf_eq hfind
  rw [hexpected] at hnot
  have hends : status ≠ .verificationPending → status ≠ expected → status ≠ .completed →
      PlanLaw env (Progress.next planId progress ⟨s, a, step env s a⟩)
        ((step env s a).plans.find? planId) := by
    intro hpending hchanges hcompleted
    have hnext : Progress.next planId progress ⟨s, a, step env s a⟩ = none := by
      simp only [Progress.next, hbefore, hafter, Option.some.injEq, hnot, hpending, hchanges,
        if_false]
    rw [hnext, hfind]
    refine .none fun after h => ?_
    obtain rfl := Option.some.inj h
    exact ⟨hpending, hcompleted⟩
  have hstarts : ∀ start, status = .verificationPending → lifecycle.verification = some start →
      PlanLaw env (Progress.next planId progress ⟨s, a, step env s a⟩)
        ((step env s a).plans.find? planId) := by
    intro start hpending hstart
    have hnext : Progress.next planId progress ⟨s, a, step env s a⟩ = some ⟨start, [], none⟩ := by
      simp only [Progress.next, hbefore, hafter, Option.some.injEq, hnot, hpending, if_false,
        if_true, hfind, Option.bind_some]
      change lifecycle.verification.map _ = _
      rw [hstart]
      rfl
    rw [hnext, hfind]
    refine ⟨fun after hafter _ => ⟨_, rfl, fun _ => rfl⟩, fun p hp => ?_⟩
    obtain rfl := Option.some.inj hp
    exact ⟨_, rfl, Or.inl hpending, hstart⟩
  cases hwrite with
  | started => exact hstarts _ rfl rfl
  | reverified _ _ _ _ _ _ _ _ hdecision =>
    obtain ⟨workflowRunId, rfl⟩ := lifecycle_of_verification hdecision
    exact hstarts _ rfl rfl
  | judged => exact absurd rfl hnot
  | _ => exact hends (by decide) (by decide) (by decide)

/-- An entry that accepts no window and leaves the status alone leaves the attempt alone. -/
theorem next_of_statusOf_eq (hstatus : (step env s a).statusOf planId = s.statusOf planId)
    (haccepted : acceptedAt planId ⟨s, a, step env s a⟩ = none) :
    Progress.next planId progress ⟨s, a, step env s a⟩ = progress := by
  rw [Progress.next]
  dsimp only
  split
  · rename_i hpending
    rw [haccepted, hstatus, hpending]
    cases a <;> rfl
  · rename_i hpending
    rw [hstatus, if_neg hpending]

/-- Before the verification there is no attempt, and an entry that goes on there starts none. -/
theorem planLaw_early {after : RecoveryPlanRecord}
    (hlaw : PlanLaw env progress (s.plans.find? planId))
    (hbefore : ∀ row, s.plans.find? planId = some row → row.status ≠ .verificationPending ∧
      row.status ≠ .completed ∧ row.status ≠ .failed)
    (hfind : (step env s a).plans.find? planId = some after)
    (hafter : after.status = .selectionRequested ∨ after.status = .selected) :
    PlanLaw env (Progress.next planId progress ⟨s, a, step env s a⟩)
      ((step env s a).plans.find? planId) := by
  have hpending : s.statusOf planId ≠ some .verificationPending := by
    intro h
    obtain ⟨row, hrow, hstatus⟩ := Option.map_eq_some_iff.mp h
    exact (hbefore row hrow).1 hstatus
  have hnot : after.status ≠ .verificationPending ∧ after.status ≠ .completed := by
    rcases hafter with h | h <;> rw [h] <;> decide
  have hposted : (step env s a).statusOf planId ≠ some .verificationPending := by
    rw [statusOf_eq hfind]
    exact fun h => hnot.1 (Option.some.inj h)
  have hnext : Progress.next planId progress ⟨s, a, step env s a⟩ = none := by
    rw [hlaw.eq_none hbefore, Progress.next]
    dsimp only
    rw [if_neg hpending, if_neg hposted]
    exact ite_self none
  rw [hnext, hfind]
  refine .none fun row hrow => ?_
  obtain rfl := Option.some.inj hrow
  exact hnot

theorem planLaw_step (hlaw : PlanLaw env progress (s.plans.find? planId))
    (hok : judgesCurrent s a = true) :
    PlanLaw env (Progress.next planId progress ⟨s, a, step env s a⟩)
      ((step env s a).plans.find? planId) := by
  rcases haccepted : acceptedAt planId ⟨s, a, step env s a⟩ with _ | ⟨record, judgement⟩
  · cases rowChange_step env s a planId with
    | same hfind =>
      have hstatus : (step env s a).statusOf planId = s.statusOf planId := by
        rw [statusOf, statusOf, hfind]
      rw [next_of_statusOf_eq hstatus haccepted, hfind]
      exact hlaw
    | expired row locked limit now ha hrow hstatus hfind =>
      obtain ⟨p, rfl, hexpired⟩ := hlaw.running row hrow (Or.inl hstatus)
      obtain ⟨found, hfound, -, hverification⟩ := hlaw.stored p rfl
      obtain rfl := Option.some.inj (hrow.symm.trans hfound)
      have hpending : s.statusOf planId = some .verificationPending := by
        rw [statusOf_eq hrow, hstatus]
      have hnext : Progress.next planId (some p) ⟨s, a, step env s a⟩ =
          some { p with expiredAt := some now } := by
        rw [Progress.next, if_pos hpending, haccepted, ha]
        exact if_pos (ha ▸ statusOf_eq hfind)
      rw [hnext, hfind]
      refine ⟨fun after hafter h => ?_, fun p' hp' => ?_⟩
      · obtain rfl := Option.some.inj hafter
        rcases h with h | h <;> cases h
      · obtain rfl := Option.some.inj hp'
        refine ⟨_, rfl, Or.inr (Or.inr rfl), ?_⟩
        change some (row.lifecycle.verificationOrEmpty.expire now) = _
        rw [Lifecycle.verificationOrEmpty, hverification, Option.getD_some]
        simp only [Progress.result, hexpired hstatus, Option.map_none, Option.getD_none,
          Option.map_some, Option.getD_some]
        rfl
    | changed after events hchange hfind houtbox =>
      generalize hbefore : s.plans.find? planId = before at hchange
      have hearly : ∀ row, before = some row → row.status = .selectionRequested ∨
          row.status = .selected → ∀ found, s.plans.find? planId = some found →
            found.status ≠ .verificationPending ∧ found.status ≠ .completed ∧
              found.status ≠ .failed := by
        rintro row rfl hstatus found hfound
        obtain rfl := Option.some.inj (hbefore.symm.trans hfound)
        rcases hstatus with h | h <;> rw [h] <;> decide
      cases hchange with
      | planned _ _ _ _ _ _ _ _ hopen hstatus =>
        refine planLaw_early hlaw (fun row hrow => ?_) hfind ?_
        · exact hearly row (hbefore.symm.trans hrow)
            (Or.inl (hopen row (hbefore.symm.trans hrow))) row hrow
        · rcases hstatus with ⟨hstatus, -⟩ | ⟨candidate, hstatus, -⟩
          · exact Or.inl hstatus
          · exact Or.inr hstatus
      | touched row =>
        have hstatus : (step env s a).statusOf planId = s.statusOf planId := by
          rw [statusOf_eq hfind, statusOf_eq hbefore]
        rw [next_of_statusOf_eq hstatus haccepted, hfind]
        rw [hbefore] at hlaw
        exact hlaw.congr rfl rfl rfl
      | selected _ _ _ _ _ _ _ row _ _ _ _ hopen =>
        exact planLaw_early hlaw (hearly row rfl (Or.inl hopen)) hfind (Or.inr rfl)
      | reopened row _ _ hselected =>
        exact planLaw_early hlaw (hearly row rfl (Or.inr hselected)) hfind (Or.inl rfl)
      | written row record expected status lifecycle _ now hwrite hkey hexpected =>
        refine planLaw_written hwrite hbefore hexpected hfind fun hpending => ?_
        -- only a judgement expects the status, and it would be accepted
        cases hwrite with
        | judged h alerts writtenAt window now _ records decision hwork =>
          have hplan : record.planId = planId := hkey.symm.trans (Table.key_of_find? hbefore)
          have hstatus : s.statusOf planId = some .verificationPending := by
            rw [statusOf_eq hbefore, hpending]
          have hsome : acceptedAt planId ⟨s, .judgeNext h alerts writtenAt,
              step env s (.judgeNext h alerts writtenAt)⟩ =
                some (record, ⟨window, alerts, now⟩) := by
            simp only [acceptedAt, hwork]
            exact if_pos ⟨hplan, hstatus⟩
          rw [hsome] at haccepted
          cases haccepted
        | _ => exact absurd (hexpected.symm.trans hpending) (by decide)
  · exact (planLaw_accepted hlaw hok haccepted).2

/-! ## Runs -/

variable (env) in
/-- The law of every plan, and of what was decided so far. -/
def ProgressLaw (l : List (Runs.Entry RecoveryState RecoveryAction)) (s : RecoveryState) : Prop :=
  ∀ planId, PlanLaw env (progressOf planId l) (s.plans.find? planId)

theorem progressLaw_empty (env : RecoveryEnv) : ProgressLaw env [] .empty := fun planId =>
  .none fun row h => by cases h

theorem run_progressLaw {actions : List RecoveryAction}
    (hok : Runs.Meets (step env) (fun s a => judgesCurrent s a = true) .empty actions) :
    ProgressLaw env (Runs.trace (step env) .empty actions)
      (Runs.run (step env) .empty actions) := by
  refine Runs.run_history_invariant_of_meets (fun l s a hlaw hok planId => ?_)
    (progressLaw_empty env) hok
  rw [progressOf_append]
  exact planLaw_step (hlaw planId) hok

/-- In every run in which a decision that is written finds the lifecycle that it was made on,
every stored verification is what the accepted windows of its attempt give one after another,
and every accepted window was judged on all that were accepted before it in the attempt. -/
theorem run_progress_kept (env : RecoveryEnv) (actions : List RecoveryAction)
    (hok : Runs.Meets (step env) (fun s a => judgesCurrent s a = true) .empty actions) :
    ProgressKept env (Runs.trace (step env) .empty actions)
        (Runs.run (step env) .empty actions) ∧
      ∀ before a after, actions = before ++ a :: after →
        DecidesOnAll env (Runs.trace (step env) .empty before)
          ⟨Runs.run (step env) .empty before, a,
            step env (Runs.run (step env) .empty before) a⟩ := by
  constructor
  · intro row hrow
    have hlaw := run_progressLaw hok row.planId
    have hfind := Table.find?_of_mem hrow
    refine ⟨fun hstatus => ?_, fun p hp => ?_⟩
    · obtain ⟨p, hp, -⟩ := hlaw.running row hfind hstatus
      rw [hp]
      rfl
    · obtain ⟨found, hfound, -, hverification⟩ := hlaw.stored p hp
      obtain rfl := Option.some.inj (hfind.symm.trans hfound)
      exact ⟨p.windows, .refl _, hverification⟩
  · rintro before a after rfl planId record judgement haccepted
    have hmeets := hok _ (Runs.step_mem_trace RecoveryState.empty before a after)
    exact (planLaw_accepted (run_progressLaw hok.left planId) hmeets haccepted).1

/-- One window is accepted, then the verification expires. -/
def judgedOnce : List RecoveryAction :=
  sampleVerifying ++
    [.receiveEvidence 1 (sampleWindow true "w1" 100) "cluster" (microseconds 110),
      .judgeNext 1 [] (microseconds 120), .expire [] 10 (microseconds 600)]

theorem progress_kept_once :
    ProgressKept .sample (Runs.trace (step .sample) .empty judgedOnce)
        (Runs.run (step .sample) .empty judgedOnce) ∧
      ∀ before a after, judgedOnce = before ++ a :: after →
        DecidesOnAll .sample (Runs.trace (step .sample) .empty before)
          ⟨Runs.run (step .sample) .empty before, a,
            step .sample (Runs.run (step .sample) .empty before) a⟩ :=
  run_progress_kept .sample judgedOnce (by unfold Runs.Meets; decide +kernel)

/-- A handler reads the plan, the verification expires and is retried, and the handler writes
its decision. -/
def judgedLate : List RecoveryAction :=
  sampleVerifying ++
    [.receiveEvidence 1 (sampleWindow true "w1" 100) "cluster" (microseconds 110),
      .expire [] 10 (microseconds 600), .lookup 0 (.byPlanId "plan"),
      .retry 0 ⟨"plan", "operator", none⟩ (microseconds 700) (microseconds 700),
      .judgeNext 1 [] (microseconds 710)]

/-- The decision of the earlier attempt is the state of the later one. -/
theorem stale_judgement_wins :
    ¬ ∀ actions, ProgressKept .sample (Runs.trace (step .sample) .empty actions)
      (Runs.run (step .sample) .empty actions) := by
  intro h
  have hrow : ∃ row ∈ (Runs.run (step .sample) .empty judgedLate).plans.rows,
      ∃ progress ∈ progressOf row.planId (Runs.trace (step .sample) .empty judgedLate),
        ∃ judgement ∈ progress.windows, progress.windows = [judgement] ∧
          row.lifecycle.verification ≠
            some (progress.result .sample row.plan progress.windows) := by
    decide +kernel
  obtain ⟨row, hrow, progress, hprogress, judgement, -, hwindows, hne⟩ := hrow
  obtain ⟨order, horder, hverification⟩ := (h judgedLate row hrow).2 progress hprogress
  rw [hwindows] at horder hne
  rw [List.perm_singleton.mp horder] at hverification
  exact hne hverification

end Opsia.Recovery
