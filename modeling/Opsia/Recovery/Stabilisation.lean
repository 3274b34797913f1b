import Opsia.Lib.Streaks
import Opsia.Recovery.Progress

/-!
# Stabilisation

A verification completes on a streak of windows that all show the target healthy, close
enough to each other, enough of them, over a long enough time. The code keeps five fields of
it from window to window; `Stabilising` says which streak of the windows these fields stand
for, and `run_stabilises` reads it off when the decision is that the recovery is verified.

A window that comes again, or that is not of the time of the verification, is set aside: it
neither counts nor ends the streak.
-/

namespace Opsia.Recovery

open Streaks (Streak)

section
variable (assessment : Assessment) (plan : RecoveryPlan)

/-! ## Windows one after the other -/

/-- The decision on a window. -/
def decisionOn (verification : Verification) (judgement : Judgement) : VerificationDecision :=
  evaluateRecoveryEvidence assessment plan verification judgement.window judgement.alerts
    judgement.now

/-- The verification with the decision on a window written back. -/
def writeBack (verification : Verification) (judgement : Judgement) : Verification :=
  verification.record (decisionOn assessment plan verification judgement)

/-- What the conditions of a verification say of a window. -/
def checksOn (verification : Verification) (judgement : Judgement) : List (String × Option Bool) :=
  let target := verification.target.getD (recoveryTarget plan)
  assessment.verificationChecks verification target
    (assessment.observedAfter verification target judgement.window) judgement.alerts

/-- Every condition holds on a window. -/
def showsHealthy (verification : Verification) (judgement : Judgement) : Bool :=
  (checksOn assessment plan verification judgement).all fun check => check.2 = some true

end

/-- The window is of the time of the verification, and not of the future. -/
def Judgement.timely (verification : Verification) (judgement : Judgement) : Bool :=
  judgement.window.windowStart.any fun observedAt =>
    verification.startedAt.any fun startedAt =>
      startedAt ≤ observedAt && observedAt ≤ judgement.now

/-- The window is the one that was judged last. -/
def Judgement.repeated (verification : Verification) (judgement : Judgement) : Bool :=
  let evidenceKey := PyText.strip judgement.window.evidenceKey
  evidenceKey ≠ "" && evidenceKey = PyText.strip (verification.lastEvidenceKey.getD "")

/-- The window is judged, not set aside. -/
def Judgement.counts (verification : Verification) (judgement : Judgement) : Bool :=
  judgement.timely verification && !judgement.repeated verification

/-- The seconds that the conditions have to hold: `minimum_seconds` within its bounds. -/
def Verification.boundedMinimum (verification : Verification) : ℕ :=
  (verification.minimumSeconds.map fun seconds =>
    max defaultMinimumSeconds (min seconds defaultMaximumSeconds)).getD defaultMinimumSeconds

theorem microseconds_boundedMinimum_pos {verification : Verification} :
    0 < microseconds verification.boundedMinimum := by
  have : defaultMinimumSeconds ≤ verification.boundedMinimum := by
    rw [Verification.boundedMinimum]
    cases verification.minimumSeconds with
    | none => exact le_refl _
    | some seconds => exact le_max_left _ _
  simp only [microseconds, defaultMinimumSeconds] at this ⊢
  omega

/-- The number of windows that it takes. -/
def minimumDistinct (minimumSeconds cadenceSeconds : ℕ) : ℕ :=
  max 2 ((minimumSeconds + cadenceSeconds - 1) / cadenceSeconds + 1)

/-- The deadline of a verification is over. -/
def Verification.overdue (verification : Verification) (now : ℤ) : Prop :=
  ∃ deadlineAt, verification.deadlineAt = some deadlineAt ∧ deadlineAt ≤ now

/-- No window counts for a verification yet. -/
def Verification.Fresh (verification : Verification) : Prop :=
  verification.healthySince = none ∧ verification.lastHealthyObservedAt = none ∧
    verification.distinctEvidenceCount = 0

/-! ## What a decision can be -/

variable {assessment : Assessment} {plan : RecoveryPlan}

/-- What the decision on a window can be. -/
inductive Ruling (assessment : Assessment) (plan : RecoveryPlan) (verification : Verification)
    (judgement : Judgement) : VerificationDecision → Prop
  /-- a window that is set aside changes nothing -/
  | setAside (after : VerificationAfter) (reasonCode reason : String)
      (h : judgement.counts verification = false) :
      Ruling assessment plan verification judgement
        (.unused verification after reasonCode reason)
  /-- a window that fails a condition, or whose cadence is not known, ends the streak -/
  | lost (status : DecisionStatus) (after : VerificationAfter) (lastEvidenceKey : Option String)
      (reasonCode reason : String) (h : judgement.counts verification = true)
      (hpending : status ≠ .completed)
      (hfailed : status = .failed → verification.overdue judgement.now) :
      Ruling assessment plan verification judgement
        (.lost status after lastEvidenceKey reasonCode reason)
  /-- a window that shows the target healthy -/
  | healthy (after : VerificationAfter) (lastEvidenceKey : Option String) (cadenceSeconds : ℕ)
      (observedAt : ℤ) (h : judgement.counts verification = true)
      (hhealthy : showsHealthy assessment plan verification judgement = true)
      (hcadence : verification.evidenceCadenceSeconds = some cadenceSeconds)
      (hobserved : judgement.window.windowStart = some observedAt) :
      Ruling assessment plan verification judgement
        (evaluateHealthy verification after lastEvidenceKey verification.boundedMinimum
          cadenceSeconds observedAt judgement.now)

theorem overdue_iff {verification : Verification} {now : ℤ} :
    verification.deadlineAt.any (· ≤ now) = true ↔ verification.overdue now := by
  simp [Option.any_eq_true, Verification.overdue]

theorem all_of_none_failed_or_missing {checks : List (String × Option Bool)}
    (hfailed : ((checks.filter fun check => check.2 = some false).map Prod.fst).isEmpty = true)
    (hmissing : ((checks.filter fun check => check.2 = none).map Prod.fst).isEmpty = true) :
    checks.all (fun check => check.2 = some true) = true := by
  simp only [List.isEmpty_iff, List.map_eq_nil_iff, List.filter_eq_nil_iff, decide_eq_true_eq]
    at hfailed hmissing
  refine List.all_eq_true.mpr ?_
  intro check hmem
  have hf := hfailed check hmem
  have hm := hmissing check hmem
  match hvalue : check.2 with
  | none => exact absurd hvalue hm
  | some false => exact absurd hvalue hf
  | some true => rfl

/-- **The decision on a window.** -/
theorem ruling (verification : Verification) (judgement : Judgement) :
    Ruling assessment plan verification judgement
      (decisionOn assessment plan verification judgement) := by
  simp only [decisionOn, evaluateRecoveryEvidence]
  split
  case isTrue hrepeated =>
    refine .setAside _ _ _ ?_
    have : judgement.repeated verification = true := hrepeated
    rw [Judgement.counts, this, Bool.not_true, Bool.and_false]
  case isFalse hrepeated =>
    have hnew : judgement.repeated verification = false := Bool.eq_false_iff.mpr hrepeated
    split
    case h_1 observedAt startedAt hobserved hstarted =>
      split
      case isTrue htime =>
        refine .setAside _ _ _ ?_
        have : judgement.timely verification = false := by
          simp only [Judgement.timely, hobserved, hstarted, Option.any_some]
          simp only [Bool.or_eq_true, decide_eq_true_eq] at htime
          simp only [Bool.and_eq_false_iff, decide_eq_false_iff_not]
          omega
        rw [Judgement.counts, this, Bool.false_and]
      case isFalse htime =>
        have htimely : judgement.timely verification = true := by
          simp only [Judgement.timely, hobserved, hstarted, Option.any_some]
          simp only [Bool.or_eq_true, decide_eq_true_eq] at htime
          simp only [Bool.and_eq_true, decide_eq_true_eq]
          omega
        have hcounts : judgement.counts verification = true := by
          rw [Judgement.counts, htimely, hnew]
          rfl
        split
        case isTrue =>
          split
          case isTrue hdeadline =>
            exact .lost _ _ _ _ _ hcounts (by decide) fun _ => overdue_iff.mp hdeadline
          case isFalse =>
            exact .lost _ _ _ _ _ hcounts (by decide) (fun h => absurd h (by decide))
        case isFalse hchecks =>
          simp only [Bool.or_eq_true, Bool.not_eq_true', not_or, Bool.not_eq_false] at hchecks
          split
          case h_1 => exact .lost _ _ _ _ _ hcounts (by decide) (fun h => absurd h (by decide))
          case h_2 cadenceSeconds hcadence =>
            exact .healthy _ _ cadenceSeconds observedAt hcounts
              (all_of_none_failed_or_missing hchecks.1 hchecks.2)
              (Option.filter_eq_some_iff.mp hcadence).1 hobserved
    case h_2 hnone =>
      refine .setAside _ _ _ ?_
      have : judgement.timely verification = false := by
        rw [Judgement.timely]
        match hobserved : judgement.window.windowStart, hstarted : verification.startedAt with
        | some _, some _ => exact absurd hstarted (hnone _ _ hobserved)
        | some _, none => rfl
        | none, _ => rfl
      rw [Judgement.counts, this, Bool.false_and]

/-- The window goes on with the streak that the last one ended. -/
def continues (verification : Verification) (cadenceSeconds : ℕ) (observedAt : ℤ) : Prop :=
  ∃ previous, verification.lastHealthyObservedAt = some previous ∧ previous < observedAt ∧
    2 * (observedAt - previous) ≤ 3 * microseconds cadenceSeconds

/-- A window that the streak cannot go on with. -/
def breaks (verification : Verification) (cadenceSeconds : ℕ) (observedAt : ℤ) : Bool :=
  verification.lastHealthyObservedAt.any fun previous =>
    observedAt - previous ≤ 0 || 3 * microseconds cadenceSeconds < 2 * (observedAt - previous)

theorem breaks_iff {verification : Verification} {cadenceSeconds : ℕ} {observedAt : ℤ} :
    breaks verification cadenceSeconds observedAt = true ↔
      verification.lastHealthyObservedAt ≠ none ∧
        ¬ continues verification cadenceSeconds observedAt := by
  cases h : verification.lastHealthyObservedAt with
  | none => simp [breaks, h]
  | some previous =>
    simp only [breaks, continues, h, Option.any_some, Bool.or_eq_true, decide_eq_true_eq,
      Option.some.injEq, exists_eq_left', ne_eq, reduceCtorEq, not_false_eq_true, true_and]
    omega

/-- The decision on a streak: its start, its number of windows, and the last of them. -/
def settle (verification : Verification) (after : VerificationAfter)
    (lastEvidenceKey : Option String) (minimumSeconds cadenceSeconds : ℕ) (observedAt now : ℤ)
    (stableFrom : ℤ) (distinctCount : ℕ) : VerificationDecision :=
  let stable := max 0 (observedAt - stableFrom)
  let decision (status : DecisionStatus) (reasonCode reason : String) : VerificationDecision :=
    { status := status
      reasonCode := reasonCode
      reason := reason
      after :=
        { after with
          healthySince := some stableFrom
          stableMicroseconds := some stable
          distinctEvidenceCount := some distinctCount }
      healthySince := some stableFrom
      lastHealthyObservedAt := some observedAt
      distinctEvidenceCount := distinctCount
      lastEvidenceKey := lastEvidenceKey }
  if stable < microseconds minimumSeconds ||
      distinctCount < minimumDistinct minimumSeconds cadenceSeconds then
    if verification.deadlineAt.any (· ≤ now) then
      decision .failed "verification_window_expired"
        "최대 검증 시간 안에 최소 연속 정상화 시간을 충족하지 못했습니다."
    else
      decision .pending "stabilization_window_in_progress"
        ("정상화 조건이 " ++ toString (stable / 1000000) ++ "초 유지됐습니다. 최소 " ++
          toString minimumSeconds ++ "초 연속 관측 후 완료합니다.")
  else
    decision .completed "recovery_verified"
      ("동일 부하에서 실패율·Deployment replica·Alertmanager 해소 상태가 " ++
        toString minimumSeconds ++ "초 이상 안정적으로 유지됐습니다.")

theorem evaluateHealthy_eq (verification : Verification) (after : VerificationAfter)
    (lastEvidenceKey : Option String) (minimumSeconds cadenceSeconds : ℕ) (observedAt now : ℤ) :
    evaluateHealthy verification after lastEvidenceKey minimumSeconds cadenceSeconds observedAt
        now =
      let broken := breaks verification cadenceSeconds observedAt
      settle verification after lastEvidenceKey minimumSeconds cadenceSeconds observedAt now
        ((if broken then none else verification.healthySince).getD observedAt)
        ((if broken then 0 else verification.distinctEvidenceCount) + 1) := rfl

section
variable (verification : Verification) (after : VerificationAfter)
  (lastEvidenceKey : Option String) (minimumSeconds cadenceSeconds : ℕ) (observedAt now : ℤ)
  (stableFrom : ℤ) (distinctCount : ℕ)

/-! What the decision keeps of a streak. -/

@[simp] theorem settle_healthySince :
    (settle verification after lastEvidenceKey minimumSeconds cadenceSeconds observedAt now
      stableFrom distinctCount).healthySince = some stableFrom := by
  simp only [settle]
  split
  · split <;> rfl
  · rfl

@[simp] theorem settle_lastHealthyObservedAt :
    (settle verification after lastEvidenceKey minimumSeconds cadenceSeconds observedAt now
      stableFrom distinctCount).lastHealthyObservedAt = some observedAt := by
  simp only [settle]
  split
  · split <;> rfl
  · rfl

@[simp] theorem settle_distinctEvidenceCount :
    (settle verification after lastEvidenceKey minimumSeconds cadenceSeconds observedAt now
      stableFrom distinctCount).distinctEvidenceCount = distinctCount := by
  simp only [settle]
  split
  · split <;> rfl
  · rfl

variable {verification after lastEvidenceKey minimumSeconds cadenceSeconds observedAt now
  stableFrom distinctCount}

/-- A recovery is verified when the streak is long enough and has enough windows. -/
theorem settle_completed
    (h : (settle verification after lastEvidenceKey minimumSeconds cadenceSeconds observedAt now
      stableFrom distinctCount).status = .completed) :
    microseconds minimumSeconds ≤ max 0 (observedAt - stableFrom) ∧
      minimumDistinct minimumSeconds cadenceSeconds ≤ distinctCount := by
  simp only [settle] at h
  split at h
  case isTrue => split at h <;> exact absurd h (by simp)
  case isFalse hlong =>
    simp only [Bool.or_eq_true, decide_eq_true_eq, not_or, not_lt] at hlong
    exact hlong

theorem settle_failed
    (h : (settle verification after lastEvidenceKey minimumSeconds cadenceSeconds observedAt now
      stableFrom distinctCount).status = .failed) : verification.overdue now := by
  simp only [settle] at h
  split at h
  · split at h
    case isTrue hdeadline => exact overdue_iff.mp hdeadline
    case isFalse => exact absurd h (by simp)
  · exact absurd h (by simp)

end

/-! ## The streak that the fields stand for -/

/-- A window with the verification that it is judged on. -/
abbrev JudgedWindow : Type := Runs.Entry Verification Judgement

/-- The windows end with a streak of healthy ones: each that counts is of the time of the
verification, shows the target healthy and follows the one before it closely. -/
def HealthyStreak (assessment : Assessment) (plan : RecoveryPlan) (start : Verification)
    (cadenceSeconds : ℕ) : List JudgedWindow → ℤ → ℤ → ℕ → Prop :=
  Streak (fun e => e.action.counts e.pre)
    (fun e => e.action.timely start = true ∧ showsHealthy assessment plan e.pre e.action = true)
    (fun e => e.action.window.windowStart)
    (fun t t' => t < t' ∧ 2 * (t' - t) ≤ 3 * microseconds cadenceSeconds)

/-- The conditions of a verification hold for long enough: the windows end with a streak over
the bounded minimum, with as many windows as the cadence asks for. -/
def Stabilised (assessment : Assessment) (plan : RecoveryPlan) (start : Verification)
    (windows : List JudgedWindow) : Prop :=
  ∃ cadenceSeconds first last count,
    start.evidenceCadenceSeconds = some cadenceSeconds ∧
      HealthyStreak assessment plan start cadenceSeconds windows first last count ∧
      microseconds start.boundedMinimum ≤ last - first ∧
      minimumDistinct start.boundedMinimum cadenceSeconds ≤ count

/-- The fields of the verification stand for a streak, or no window counts. -/
def Stabilising (assessment : Assessment) (plan : RecoveryPlan) (start verification : Verification)
    (windows : List JudgedWindow) : Prop :=
  verification.Fresh ∨ ∃ cadenceSeconds first last,
    start.evidenceCadenceSeconds = some cadenceSeconds ∧
      verification.healthySince = some first ∧ verification.lastHealthyObservedAt = some last ∧
      HealthyStreak assessment plan start cadenceSeconds windows first last
        verification.distinctEvidenceCount

/-- What a verification is judged by stays as it was at its start. -/
structure SameTerms (start verification : Verification) : Prop where
  minimumSeconds : verification.minimumSeconds = start.minimumSeconds
  evidenceCadenceSeconds : verification.evidenceCadenceSeconds = start.evidenceCadenceSeconds
  startedAt : verification.startedAt = start.startedAt
  deadlineAt : verification.deadlineAt = start.deadlineAt

namespace SameTerms

variable {start verification : Verification}

theorem record (h : SameTerms start verification) (decision : VerificationDecision) :
    SameTerms start (verification.record decision) :=
  ⟨h.minimumSeconds, h.evidenceCadenceSeconds, h.startedAt, h.deadlineAt⟩

theorem boundedMinimum (h : SameTerms start verification) :
    verification.boundedMinimum = start.boundedMinimum := by
  rw [Verification.boundedMinimum, h.minimumSeconds]
  rfl

theorem timely (h : SameTerms start verification) (judgement : Judgement) :
    judgement.timely verification = judgement.timely start := by
  rw [Judgement.timely, h.startedAt]
  rfl

theorem overdue (h : SameTerms start verification) {now : ℤ} :
    verification.overdue now ↔ start.overdue now := by
  rw [Verification.overdue, h.deadlineAt]
  rfl

end SameTerms

variable {start verification : Verification} {windows : List JudgedWindow}

variable {e : JudgedWindow} {decision : VerificationDecision}

theorem streak_of_healthy (hterms : SameTerms start e.pre)
    (hkept : Stabilising assessment plan start e.pre windows)
    (hcounts : e.action.counts e.pre = true)
    (hhealthy : showsHealthy assessment plan e.pre e.action = true) {cadenceSeconds : ℕ}
    (hcadence : start.evidenceCadenceSeconds = some cadenceSeconds) {observedAt : ℤ}
    (hobserved : e.action.window.windowStart = some observedAt) :
    let broken := breaks e.pre cadenceSeconds observedAt
    HealthyStreak assessment plan start cadenceSeconds (windows ++ [e])
      ((if broken then none else e.pre.healthySince).getD observedAt) observedAt
      ((if broken then 0 else e.pre.distinctEvidenceCount) + 1) := by
  have htimely : e.action.timely start = true := by
    rw [← hterms.timely]
    exact (Bool.and_eq_true_iff.mp hcounts).1
  have halone : HealthyStreak assessment plan start cadenceSeconds (windows ++ [e]) observedAt
      observedAt 1 := by
    refine Streak.alone ?_ ?_ hobserved
    · exact hcounts
    · exact ⟨htimely, hhealthy⟩
  cases hbroken : breaks e.pre cadenceSeconds observedAt with
  | true => exact halone
  | false =>
    simp only [Bool.false_eq_true, if_false]
    rcases hkept with ⟨hsince, -, hcount⟩ | ⟨cadence', first, last, hcadence', hsince, hlast, h⟩
    · rw [hsince, hcount]
      exact halone
    · obtain rfl := Option.some.inj (hcadence'.symm.trans hcadence)
      rw [hsince]
      refine h.snoc hcounts ⟨htimely, hhealthy⟩ hobserved ?_
      by_contra hgap
      refine absurd (breaks_iff.mpr ⟨by simp [hlast], ?_⟩) (Bool.eq_false_iff.mp hbroken)
      rintro ⟨previous, hprevious, hclose⟩
      obtain rfl := Option.some.inj (hprevious.symm.trans hlast)
      exact hgap hclose

theorem stabilising_record (hterms : SameTerms start e.pre)
    (hkept : Stabilising assessment plan start e.pre windows)
    (hruling : Ruling assessment plan e.pre e.action decision) :
    Stabilising assessment plan start (e.pre.record decision) (windows ++ [e]) := by
  cases hruling with
  | setAside after reasonCode reason h =>
    rcases hkept with hfresh | ⟨cadenceSeconds, first, last, hcadence, hsince, hlast, hstreak⟩
    · exact .inl hfresh
    · exact .inr ⟨cadenceSeconds, first, last, hcadence, hsince, hlast, hstreak.skip h⟩
  | lost => exact .inl ⟨rfl, rfl, rfl⟩
  | healthy after lastEvidenceKey cadenceSeconds observedAt h hhealthy hcadence hobserved =>
    rw [hterms.evidenceCadenceSeconds] at hcadence
    rw [evaluateHealthy_eq]
    refine .inr ⟨cadenceSeconds, _, observedAt, hcadence, settle_healthySince ..,
      settle_lastHealthyObservedAt .., ?_⟩
    simp only [Verification.record, settle_distinctEvidenceCount]
    exact streak_of_healthy hterms hkept h hhealthy hcadence hobserved

/-- A decision that the recovery is verified has a streak behind it. -/
theorem stabilised_of_completed (hterms : SameTerms start e.pre)
    (hkept : Stabilising assessment plan start e.pre windows)
    (hruling : Ruling assessment plan e.pre e.action decision)
    (hcompleted : decision.status = .completed) :
    Stabilised assessment plan start (windows ++ [e]) := by
  cases hruling with
  | setAside => exact absurd hcompleted (by simp [VerificationDecision.unused])
  | lost status after lastEvidenceKey reasonCode reason h hpending hfailed =>
    exact absurd hcompleted hpending
  | healthy after lastEvidenceKey cadenceSeconds observedAt h hhealthy hcadence hobserved =>
    rw [hterms.evidenceCadenceSeconds] at hcadence
    rw [evaluateHealthy_eq] at hcompleted
    obtain ⟨hlong, hmany⟩ := settle_completed hcompleted
    rw [hterms.boundedMinimum] at hlong hmany
    refine ⟨cadenceSeconds, _, observedAt, _, hcadence,
      streak_of_healthy hterms hkept h hhealthy hcadence hobserved, ?_, hmany⟩
    have hpositive : 0 < microseconds start.boundedMinimum := microseconds_boundedMinimum_pos
    omega

theorem overdue_of_failed (hterms : SameTerms start e.pre)
    (hruling : Ruling assessment plan e.pre e.action decision)
    (hfailed : decision.status = .failed) : start.overdue e.action.now := by
  refine hterms.overdue.mp ?_
  cases hruling with
  | setAside => exact absurd hfailed (by simp [VerificationDecision.unused])
  | lost status after lastEvidenceKey reasonCode reason h hpending hdeadline =>
    exact hdeadline hfailed
  | healthy after lastEvidenceKey cadenceSeconds observedAt =>
    exact settle_failed (evaluateHealthy_eq .. ▸ hfailed)

/-! ## Runs -/

/-- Whatever the windows, the fields of the verification stand for a streak of them. -/
theorem run_stabilising (hfresh : start.Fresh) (judgements : List Judgement) :
    let verification := Runs.run (writeBack assessment plan) start judgements
    SameTerms start verification ∧ Stabilising assessment plan start verification
      (Runs.trace (writeBack assessment plan) start judgements) := by
  refine Runs.run_history_invariant
    (P := fun windows verification => SameTerms start verification ∧
      Stabilising assessment plan start verification windows) ?_
    ⟨⟨rfl, rfl, rfl, rfl⟩, .inl hfresh⟩ judgements
  rintro windows verification judgement ⟨hterms, hkept⟩
  exact ⟨hterms.record _, stabilising_record
    (e := ⟨verification, judgement, writeBack assessment plan verification judgement⟩) hterms hkept
    (ruling verification judgement)⟩

/-- **A recovery is verified on a streak of healthy windows only, and fails after its deadline
only.** -/
theorem run_stabilises (assessment : Assessment) (plan : RecoveryPlan) (start : Verification)
    (hfresh : start.Fresh) (judgements : List Judgement) (judgement : Judgement) :
    let verification := Runs.run (writeBack assessment plan) start judgements
    let decision := decisionOn assessment plan verification judgement
    (decision.status = .completed → Stabilised assessment plan start
        (Runs.trace (writeBack assessment plan) start (judgements ++ [judgement]))) ∧
      (decision.status = .failed → start.overdue judgement.now) := by
  have hstreak := @run_stabilising assessment plan start hfresh judgements
  obtain ⟨hterms, hkept⟩ := hstreak
  have hruling : Ruling assessment plan _ judgement _ :=
    ruling (Runs.run (writeBack assessment plan) start judgements) judgement
  constructor
  · intro hcompleted
    rw [Runs.trace_append]
    exact stabilised_of_completed (e := ⟨_, judgement, _⟩) hterms hkept hruling hcompleted
  · intro hfailed
    exact overdue_of_failed (e := ⟨_, judgement, start⟩) hterms hruling hfailed

/-- A verification that asks for three windows over five minutes. -/
def sampleStart : Verification :=
  { Verification.empty with
    evidenceCadenceSeconds := some 150
    startedAt := some 0
    deadlineAt := some (microseconds 600) }

/-- A window some seconds after the start, judged a second later. -/
def judgedAt (healthy : Bool) (key : String) (seconds : ℕ) : Judgement :=
  ⟨sampleWindow healthy key seconds, [], microseconds (seconds + 1)⟩

/-- A window fails, two show the target healthy, and the first of the two comes again. -/
def sampleJudgements : List Judgement :=
  [judgedAt false "w1" 10, judgedAt true "w2" 160, judgedAt true "w2" 160, judgedAt true "w3" 310]

theorem stabilises_once :
    (decisionOn RecoveryEnv.sample.assessment samplePlan
        (Runs.run (writeBack RecoveryEnv.sample.assessment samplePlan) sampleStart sampleJudgements)
        (judgedAt true "w4" 460)).status = .completed ∧
      Stabilised RecoveryEnv.sample.assessment samplePlan sampleStart
        (Runs.trace (writeBack RecoveryEnv.sample.assessment samplePlan) sampleStart
          (sampleJudgements ++ [judgedAt true "w4" 460])) := by
  have hcompleted : (decisionOn RecoveryEnv.sample.assessment samplePlan
      (Runs.run (writeBack RecoveryEnv.sample.assessment samplePlan) sampleStart sampleJudgements)
      (judgedAt true "w4" 460)).status = .completed := by decide +kernel
  exact ⟨hcompleted, (run_stabilises RecoveryEnv.sample.assessment samplePlan sampleStart
    ⟨rfl, rfl, rfl⟩ sampleJudgements (judgedAt true "w4" 460)).1 hcompleted⟩

end Opsia.Recovery
