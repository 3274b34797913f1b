import Opsia.Gitops.DesiredDiff
import Opsia.Lib.Dependencies
import Opsia.Lib.Fields

/-!
# The preview of a release plan

`domains/release_flow/preview.py`: the blockers of a list of release steps, the waves in which their
dependencies let them run, and the preview that shows both. Blockers, cycles and waves are three
passes; a plan has no blocker exactly where it can be run (`graphBlockers_eq_nil_iff`), and then the
waves are a schedule (`preview_is_schedule`).
-/

namespace Opsia.Release

open Dependencies (Graph)
open Gitops (PyFields PyTexts pyStr)

/-! ## Plans -/

/-- A release step, with what the preview reads of it. -/
structure ReleaseStep where
  stepId : Option String
  applicationId : Option String
  name : Option String
  position : Option ℤ
  dependsOn : Option (List String)
  config : PyFields

structure ReleasePlan where
  planId : Option String
  settings : PyFields
  steps : List ReleaseStep

variable (texts : PyTexts) (settings : PyFields) (steps : List ReleaseStep)

/-- `str(text or default)`. -/
def orText (text : Option String) (default : String) : String :=
  match text with
  | none => default
  | some text => if text = "" then default else text

/-- `str(step.get("application_id") or "")`. -/
def ReleaseStep.appId (step : ReleaseStep) : String := orText step.applicationId ""

/-- `list_value(step.get("depends_on"))`. -/
def ReleaseStep.dependencies (step : ReleaseStep) : List String := step.dependsOn.getD []

def depsFor (step : ReleaseStep) : List String := step.dependencies.filter (· ≠ "")

/-- The dictionary of the dependencies. -/
def stepGraph : Graph String :=
  steps.foldl (fun graph step => Fields.put graph step.appId (depsFor step)) []

/-! ## Blockers -/

def duplicateBlocker (appId : String) : String :=
  "Application " ++ appId ++ " appears more than once."

def missingBlocker : String := "A release step is missing application_id."

def selfBlocker (appId : String) : String := "Application " ++ appId ++ " depends on itself."

def unknownBlocker (appId depId : String) : String :=
  "Application " ++ appId ++ " depends on unknown step " ++ depId ++ "."

def cycleBlocker : String := "Release dependencies contain a cycle."

def emptyBlocker : String := "No release steps are configured."

/-- The blockers of one step. -/
def stepBlockers (known : List String) (step : ReleaseStep) : List String :=
  if step.appId = "" then [missingBlocker]
  else step.dependencies.filterMap fun dep =>
    if dep = step.appId then some (selfBlocker step.appId)
    else if dep ∉ known then some (unknownBlocker step.appId dep)
    else none

def graphBlockers : List String :=
  let ids := steps.map ReleaseStep.appId
  let known := (ids.filter (· ≠ "")).dedup
  let duplicates := (known.filter fun appId => 1 < ids.count appId).mergeSort fun a b => a ≤ b
  let blockers := duplicates.map duplicateBlocker ++ steps.flatMap (stepBlockers known)
  if blockers = [] && Dependencies.hasCycle (stepGraph steps) then blockers ++ [cycleBlocker]
  else blockers

def dependencyWaves : List (String × ℕ) := Dependencies.layers (stepGraph steps)

/-! ## The preview -/

structure PreviewStep where
  stepId : String
  applicationId : String
  name : String
  position : ℤ
  wave : Option ℕ
  blockedBy : List String
  gate : String
  strategy : String
  environment : String
  action : String

def firstEnvironment : String :=
  match ((settings.lookup "environment_order").bind PyValue.list?).getD [] with
  | [] => ""
  | first :: _ => pyStr texts first

/-- `str(fields.get(key) or default)`. -/
def fieldOr (fields : PyFields) (key default : String) : String :=
  let value := (fields.lookup key).getD .none
  if value.truthy then pyStr texts value else default

def previewStep (step : ReleaseStep) (index : ℕ) (wave : Option ℕ) : PreviewStep :=
  let gate := fieldOr texts step.config "approval_gate" "inherit"
  { stepId := orText step.stepId ("preview-step-" ++ toString index)
    applicationId := step.appId
    name := orText step.name step.appId
    position := step.position.getD index
    wave := wave
    blockedBy := depsFor step
    gate := if gate = "inherit" then fieldOr texts settings "approval_policy" "auto_safe" else gate
    strategy := fieldOr texts step.config "strategy"
      (fieldOr texts settings "default_strategy" "rolling")
    environment := fieldOr texts step.config "environment"
      (orText (some (firstEnvironment texts settings)) "sandbox")
    action := fieldOr texts step.config "execution_action" "render_diff_apply" }

structure PreviewWave where
  wave : ℕ
  stepIds : List String
  applications : List String

/-- The groups of `grouped_waves`. -/
def groupSteps (steps : List PreviewStep) : List (ℕ × List PreviewStep) :=
  Fields.collect PreviewStep.wave steps []

def groupedWaves (steps : List PreviewStep) : List PreviewWave :=
  ((groupSteps steps).mergeSort fun a b => a.1 ≤ b.1).map fun group =>
    ⟨group.1, group.2.map PreviewStep.stepId, group.2.map PreviewStep.applicationId⟩

def previewSummary (stepCount waveCount : ℕ) (blockers : List String) : String :=
  if blockers ≠ [] then
    toString blockers.length ++ " blocker(s) must be resolved before execution."
  else if stepCount = 0 then emptyBlocker
  else toString stepCount ++ " step(s) can run in " ++ toString waveCount ++
    " dependency wave(s)."

structure ReleasePlanPreview where
  planId : Option String
  executable : Bool
  summary : String
  waves : List PreviewWave
  steps : List PreviewStep
  blockers : List String

/-- The steps of a preview, of a plan with these blockers. -/
def previewSteps (blockers : List String) : List PreviewStep :=
  let waveByApp := if blockers = [] then dependencyWaves steps else []
  steps.mapIdx fun index step =>
    previewStep texts settings step index (waveByApp.lookup step.appId)

def buildReleasePlanPreview (payload : ReleasePlan) : ReleasePlanPreview :=
  let graph := graphBlockers payload.steps
  let steps := previewSteps texts payload.settings payload.steps graph
  let waves := groupedWaves steps
  let blockers := if payload.steps = [] then graph ++ [emptyBlocker] else graph
  { planId := payload.planId
    executable := blockers = []
    summary := previewSummary payload.steps.length waves.length blockers
    waves := waves
    steps := steps
    blockers := blockers }

/-! ## Plans without blockers -/

/-- One step comes before another, which depends on it. -/
def ComesBefore (dep appId : String) : Prop :=
  ∃ step ∈ steps, step.appId = appId ∧ dep ∈ step.dependencies

/-- Every step has an application of its own, and depends on other steps, in no circle. -/
structure Orderly (steps : List ReleaseStep) : Prop where
  named : ∀ step ∈ steps, step.appId ≠ ""
  distinct : (steps.map ReleaseStep.appId).Nodup
  known : ∀ step ∈ steps, ∀ dep ∈ step.dependencies,
    ∃ other ∈ steps, other.appId = dep ∧ dep ≠ step.appId
  acyclic : ∀ appId, ¬Relation.TransGen (ComesBefore steps) appId appId

variable {texts settings steps}

theorem stepGraph_eq (h : (steps.map ReleaseStep.appId).Nodup) :
    stepGraph steps = steps.map fun step => (step.appId, depsFor step) := by
  have hfold : ∀ (rest : List ReleaseStep) (graph : Graph String),
      (graph.map Prod.fst ++ rest.map ReleaseStep.appId).Nodup →
      rest.foldl (fun graph step => Fields.put graph step.appId (depsFor step)) graph =
        graph ++ rest.map fun step => (step.appId, depsFor step) := by
    intro rest
    induction rest with
    | nil => intro graph _; exact (List.append_nil graph).symm
    | cons step rest ih =>
      intro graph hnodup
      have hnew : step.appId ∉ graph.map Prod.fst := fun hmem =>
        (List.nodup_append.mp hnodup).2.2 _ hmem _ List.mem_cons_self rfl
      rw [List.foldl_cons, Fields.put_of_notMem hnew, ih, List.append_assoc]
      · rfl
      · rw [List.map_append, List.append_assoc]
        exact hnodup
  exact hfold steps [] h

theorem nodes_stepGraph (h : (steps.map ReleaseStep.appId).Nodup) :
    Dependencies.nodes (stepGraph steps) = steps.map ReleaseStep.appId := by
  rw [Dependencies.nodes, stepGraph_eq h, List.map_map]
  rfl

theorem mem_deps_stepGraph (h : (steps.map ReleaseStep.appId).Nodup) {dep appId : String} :
    dep ∈ Dependencies.deps (stepGraph steps) appId ↔
      ∃ step ∈ steps, step.appId = appId ∧ dep ∈ depsFor step := by
  rw [Dependencies.mem_deps_iff (nodes_stepGraph h ▸ h), stepGraph_eq h]
  constructor
  · rintro ⟨ds, hmem, hdep⟩
    obtain ⟨step, hstep, heq⟩ := List.mem_map.mp hmem
    obtain ⟨rfl, rfl⟩ := Prod.mk.inj heq
    exact ⟨step, hstep, rfl, hdep⟩
  · rintro ⟨step, hstep, rfl, hdep⟩
    exact ⟨_, List.mem_map_of_mem hstep, hdep⟩

variable {step : ReleaseStep}

theorem stepBlockers_eq_nil_iff {known : List String} :
    stepBlockers known step = [] ↔
      step.appId ≠ "" ∧ ∀ dep ∈ step.dependencies, dep ≠ step.appId ∧ dep ∈ known := by
  rw [stepBlockers]
  by_cases hid : step.appId = ""
  · rw [if_pos hid]
    exact ⟨fun h => absurd h nofun, fun h => absurd hid h.1⟩
  · rw [if_neg hid, List.filterMap_eq_nil_iff]
    refine ⟨fun h => ⟨hid, fun dep hdep => ?_⟩, fun h dep hdep => ?_⟩
    · have hnone := h dep hdep
      by_cases hself : dep = step.appId
      · rw [if_pos hself] at hnone
        exact absurd hnone nofun
      · rw [if_neg hself] at hnone
        refine ⟨hself, ?_⟩
        by_contra hunknown
        rw [if_pos hunknown] at hnone
        exact absurd hnone nofun
    · rw [if_neg (h.2 dep hdep).1, if_neg (not_not.mpr (h.2 dep hdep).2)]

theorem mem_known {appId : String} :
    appId ∈ ((steps.map ReleaseStep.appId).filter (· ≠ "")).dedup ↔
      (∃ step ∈ steps, step.appId = appId) ∧ appId ≠ "" := by
  rw [List.mem_dedup, List.mem_filter, List.mem_map, decide_eq_true_eq]

theorem mem_depsFor {dep : String} :
    dep ∈ depsFor step ↔ dep ∈ step.dependencies ∧ dep ≠ "" := by
  rw [depsFor, List.mem_filter, decide_eq_true_eq]

/-- Every dependency of the plan is another step with a name. -/
def Known (steps : List ReleaseStep) : Prop :=
  ∀ step ∈ steps, step.appId ≠ "" ∧ ∀ dep ∈ step.dependencies,
    dep ≠ step.appId ∧ (∃ other ∈ steps, other.appId = dep) ∧ dep ≠ ""

theorem flatMap_stepBlockers_eq_nil_iff :
    steps.flatMap (stepBlockers ((steps.map ReleaseStep.appId).filter (· ≠ "")).dedup) = [] ↔
      Known steps := by
  rw [List.flatMap_eq_nil_iff]
  simp only [stepBlockers_eq_nil_iff, mem_known]
  rfl

theorem before_iff (hnodup : (steps.map ReleaseStep.appId).Nodup) (hknown : Known steps)
    {dep appId : String} :
    Dependencies.Before (stepGraph steps) dep appId ↔ ComesBefore steps dep appId := by
  rw [Dependencies.Before, nodes_stepGraph hnodup, mem_deps_stepGraph hnodup, ComesBefore]
  constructor
  · rintro ⟨-, step, hstep, heq, hdep⟩
    exact ⟨step, hstep, heq, (mem_depsFor.mp hdep).1⟩
  · rintro ⟨step, hstep, heq, hdep⟩
    obtain ⟨-, hother, hne⟩ := (hknown step hstep).2 dep hdep
    exact ⟨List.mem_map.mpr hother, step, hstep, heq, mem_depsFor.mpr ⟨hdep, hne⟩⟩

theorem duplicates_eq_nil_iff (hnamed : ∀ step ∈ steps, step.appId ≠ "") :
    (((((steps.map ReleaseStep.appId).filter (· ≠ "")).dedup.filter fun appId =>
      1 < (steps.map ReleaseStep.appId).count appId).mergeSort fun a b => a ≤ b).map
        duplicateBlocker) = [] ↔ (steps.map ReleaseStep.appId).Nodup := by
  rw [List.map_eq_nil_iff, ← List.length_eq_zero_iff, List.length_mergeSort,
    List.length_eq_zero_iff, List.filter_eq_nil_iff, List.nodup_iff_count_le_one]
  constructor
  · intro h appId
    by_cases hmem : appId ∈ steps.map ReleaseStep.appId
    · obtain ⟨step, hstep, rfl⟩ := List.mem_map.mp hmem
      have hle := h step.appId (mem_known.mpr ⟨⟨step, hstep, rfl⟩, hnamed step hstep⟩)
      simpa using hle
    · rw [List.count_eq_zero_of_not_mem hmem]
      exact Nat.zero_le 1
  · intro h appId _
    simpa using h appId

theorem hasCycle_stepGraph (hnodup : (steps.map ReleaseStep.appId).Nodup) (hknown : Known steps) :
    Dependencies.hasCycle (stepGraph steps) = false ↔
      ∀ appId, ¬Relation.TransGen (ComesBefore steps) appId appId := by
  have hrel : Dependencies.Before (stepGraph steps) = ComesBefore steps := by
    funext dep appId
    exact propext (before_iff hnodup hknown)
  rw [Bool.eq_false_iff, Ne, Dependencies.hasCycle_iff, not_exists, hrel]

theorem Orderly.isKnown (h : Orderly steps) : Known steps := by
  refine fun step hstep => ⟨h.named step hstep, fun dep hdep => ?_⟩
  obtain ⟨other, hother, rfl, hself⟩ := h.known step hstep dep hdep
  exact ⟨hself, ⟨other, hother, rfl⟩, h.named other hother⟩

/-- **There is no blocker exactly where the plan is orderly.** -/
theorem graphBlockers_eq_nil_iff : graphBlockers steps = [] ↔ Orderly steps := by
  rw [graphBlockers]
  constructor
  · intro h
    split at h
    next => exact absurd (List.append_eq_nil_iff.mp h).2 nofun
    next hno =>
      obtain ⟨hduplicates, hsteps⟩ := List.append_eq_nil_iff.mp h
      have hknown := flatMap_stepBlockers_eq_nil_iff.mp hsteps
      have hnodup := (duplicates_eq_nil_iff fun step hstep => (hknown step hstep).1).mp hduplicates
      rw [h] at hno
      refine ⟨fun step hstep => (hknown step hstep).1, hnodup, fun step hstep dep hdep => ?_,
        (hasCycle_stepGraph hnodup hknown).mp (by simpa using hno)⟩
      obtain ⟨hself, ⟨other, hother, heq⟩, -⟩ := (hknown step hstep).2 dep hdep
      exact ⟨other, hother, heq, hself⟩
  · intro h
    rw [(duplicates_eq_nil_iff h.named).mpr h.distinct,
      flatMap_stepBlockers_eq_nil_iff.mpr h.isKnown,
      (hasCycle_stepGraph h.distinct h.isKnown).mpr h.acyclic]
    rfl

/-! ## Schedules -/

/-- The last wave of some applications; before the first one if there are none. -/
def lastWave (wave : String → ℕ) (appIds : List String) : ℕ := (appIds.map wave).foldr max 0

/-- Every step has its wave, the one after the last wave of what it depends on, and the waves of the
preview list every step once. -/
structure IsSchedule (steps : List ReleaseStep) (preview : ReleasePlanPreview)
    (wave : String → ℕ) : Prop where
  same : preview.steps.map PreviewStep.applicationId = steps.map ReleaseStep.appId
  given : ∀ step ∈ preview.steps, step.wave = some (wave step.applicationId)
  before : ∀ step ∈ steps, ∀ dep ∈ step.dependencies, wave dep < wave step.appId
  next : ∀ step ∈ steps, wave step.appId = lastWave wave step.dependencies + 1
  increasing : (preview.waves.map PreviewWave.wave).Pairwise (· < ·)
  grouped : ∀ group ∈ preview.waves, ∀ appId ∈ group.applications, wave appId = group.wave
  once : (preview.waves.flatMap PreviewWave.applications).Perm (steps.map ReleaseStep.appId)
  onceStep : (preview.waves.flatMap PreviewWave.stepIds).Perm
    (preview.steps.map PreviewStep.stepId)

theorem lastWave_eq {wave : String → ℕ} {appIds : List String} {w : ℕ}
    (hbelow : ∀ appId ∈ appIds, wave appId ≤ w) (hat : w = 0 ∨ ∃ appId ∈ appIds, wave appId = w) :
    lastWave wave appIds = w := by
  rw [lastWave]
  apply Nat.le_antisymm
  · clear hat
    induction appIds with
    | nil => exact Nat.zero_le w
    | cons appId appIds ih =>
      exact max_le (hbelow appId List.mem_cons_self)
        (ih fun other hother => hbelow other (List.mem_cons_of_mem _ hother))
  · rcases hat with rfl | ⟨appId, hmem, rfl⟩
    · exact Nat.zero_le _
    · clear hbelow
      induction appIds with
      | nil => exact absurd hmem List.not_mem_nil
      | cons other appIds ih =>
        rcases List.mem_cons.mp hmem with rfl | hmem
        · exact le_max_left _ _
        · exact (ih hmem).trans (le_max_right _ _)

/-- The wave of an application in the waves of the plan. -/
def waveOf (steps : List ReleaseStep) (appId : String) : ℕ :=
  ((dependencyWaves steps).lookup appId).getD 0

theorem Orderly.isLayering (h : Orderly steps) :
    Dependencies.IsLayering (stepGraph steps) (dependencyWaves steps) := by
  have hnodes := nodes_stepGraph h.distinct
  refine Dependencies.layers_isLayering (hnodes ▸ h.distinct) ?_
    ((hasCycle_stepGraph h.distinct h.isKnown).mpr h.acyclic)
  intro appId _ dep hdep
  obtain ⟨step, hstep, -, hdep⟩ := (mem_deps_stepGraph h.distinct).mp hdep
  rw [hnodes]
  exact List.mem_map.mpr ((h.isKnown step hstep).2 dep (mem_depsFor.mp hdep).1).2.1

/-- The waves of a plan name each application once. -/
theorem Orderly.lookup_eq (h : Orderly steps) {appId : String} {w : ℕ}
    (hmem : (appId, w) ∈ dependencyWaves steps) :
    (dependencyWaves steps).lookup appId = some w :=
  Fields.lookup_of_mem h.isLayering.nodup hmem

theorem Orderly.mem_waves (h : Orderly steps) (hstep : step ∈ steps) :
    (step.appId, waveOf steps step.appId) ∈ dependencyWaves steps := by
  have hmem : step.appId ∈ (dependencyWaves steps).map Prod.fst := by
    rw [h.isLayering.mem_iff, nodes_stepGraph h.distinct]
    exact List.mem_map_of_mem hstep
  obtain ⟨entry, hentry, heq⟩ := List.mem_map.mp hmem
  obtain ⟨appId, w⟩ := entry
  obtain rfl : appId = step.appId := heq
  rwa [waveOf, h.lookup_eq hentry]

theorem Orderly.waveOf_eq (h : Orderly steps) {appId : String} {w : ℕ}
    (hmem : (appId, w) ∈ dependencyWaves steps) : waveOf steps appId = w := by
  rw [waveOf, h.lookup_eq hmem]
  rfl

theorem Orderly.mem_deps (h : Orderly steps) (hstep : step ∈ steps) {dep : String} :
    dep ∈ Dependencies.deps (stepGraph steps) step.appId ↔
      dep ∈ step.dependencies := by
  rw [mem_deps_stepGraph h.distinct]
  constructor
  · rintro ⟨other, hother, heq, hdep⟩
    obtain rfl := List.inj_on_of_nodup_map h.distinct hother hstep heq
    exact (mem_depsFor.mp hdep).1
  · intro hdep
    exact ⟨step, hstep, rfl, mem_depsFor.mpr ⟨hdep, ((h.isKnown step hstep).2 dep hdep).2.2⟩⟩

theorem Orderly.waveOf_lt (h : Orderly steps) (hstep : step ∈ steps) {dep : String}
    (hdep : dep ∈ step.dependencies) :
    waveOf steps dep < waveOf steps step.appId := by
  obtain ⟨w, hw, hlt⟩ := h.isLayering.below _ _ (h.mem_waves hstep) dep ((h.mem_deps hstep).mpr hdep)
  rwa [h.waveOf_eq hw]

theorem Orderly.waveOf_next (h : Orderly steps) (hstep : step ∈ steps) :
    waveOf steps step.appId = lastWave (waveOf steps) step.dependencies + 1 := by
  have hpos := h.isLayering.pos _ _ (h.mem_waves hstep)
  have hlast : lastWave (waveOf steps) step.dependencies = waveOf steps step.appId - 1 := by
    refine lastWave_eq (fun dep hdep => ?_) ?_
    · have := h.waveOf_lt hstep hdep
      omega
    · rcases h.isLayering.next _ _ (h.mem_waves hstep) with hfirst | ⟨dep, hdep, hw⟩
      · exact .inl (by omega)
      · exact .inr ⟨dep, (h.mem_deps hstep).mp hdep, h.waveOf_eq hw⟩
  omega

/-! ## Groups -/

theorem members_groupSteps (steps : List PreviewStep) :
    (Fields.members (groupSteps steps)).Perm
      (steps.filterMap fun step => step.wave.map fun wave => (wave, step)) :=
  Fields.members_collect PreviewStep.wave steps []

theorem flatMap_sorted_groups (steps : List PreviewStep) (text : PreviewStep → String) :
    (((groupSteps steps).mergeSort fun a b => a.1 ≤ b.1).flatMap fun group =>
      group.2.map text).Perm ((steps.filter fun step => step.wave.isSome).map text) := by
  have hmembers (groups : List (ℕ × List PreviewStep)) :
      (groups.flatMap fun group => group.2.map text) =
        (Fields.members groups).map fun member => text member.2 := by
    rw [Fields.members, List.map_flatMap]
    simp only [List.map_map, Function.comp_def]
  have hfilter : (steps.filterMap fun step => step.wave.map fun wave => (wave, step)).map
      (fun member => text member.2) = (steps.filter fun step => step.wave.isSome).map text := by
    induction steps with
    | nil => rfl
    | cons step steps ih =>
      rw [List.filterMap_cons, List.filter_cons]
      rcases step.wave with _ | wave
      · exact ih
      · exact congrArg (text step :: ·) ih
  refine ((List.mergeSort_perm _ _).flatMap_right _).trans ?_
  rw [hmembers, ← hfilter]
  exact (members_groupSteps steps).map _

theorem wave_of_mem_group {steps : List PreviewStep} {group : ℕ × List PreviewStep}
    (hgroup : group ∈ groupSteps steps) {step : PreviewStep} (hstep : step ∈ group.2) :
    step ∈ steps ∧ step.wave = some group.1 := by
  have hmember : (group.1, step) ∈ Fields.members (groupSteps steps) :=
    List.mem_flatMap.mpr ⟨group, hgroup, List.mem_map_of_mem hstep⟩
  obtain ⟨other, hother, heq⟩ := List.mem_filterMap.mp ((members_groupSteps steps).mem_iff.mp hmember)
  obtain ⟨wave, hwave, heq⟩ := Option.map_eq_some_iff.mp heq
  obtain ⟨rfl, rfl⟩ := Prod.mk.inj heq
  exact ⟨hother, hwave⟩

theorem groupedWaves_increasing (steps : List PreviewStep) :
    ((groupedWaves steps).map PreviewWave.wave).Pairwise (· < ·) := by
  have hsorted : ((groupSteps steps).mergeSort fun a b => a.1 ≤ b.1).Pairwise
      fun a b => a.1 ≤ b.1 := by
    refine (List.pairwise_mergeSort ?_ ?_ _).imp fun h => of_decide_eq_true h
    · intro a b c hab hbc
      exact decide_eq_true ((of_decide_eq_true hab).trans (of_decide_eq_true hbc))
    · intro a b
      rw [Bool.or_eq_true, decide_eq_true_eq, decide_eq_true_eq]
      exact Nat.le_total a.1 b.1
  have hnodup : (((groupSteps steps).mergeSort fun a b => a.1 ≤ b.1).map Prod.fst).Nodup :=
    ((List.mergeSort_perm _ _).map Prod.fst).nodup_iff.mpr
      (Fields.nodup_collect PreviewStep.wave steps List.nodup_nil)
  rw [groupedWaves, List.map_map]
  refine List.pairwise_map.mpr ?_
  exact (hsorted.and (List.pairwise_map.mp hnodup)).imp fun h => Nat.lt_of_le_of_ne h.1 h.2

/-! ## The preview of a plan -/

theorem mem_previewSteps {blockers : List String} {step : PreviewStep}
    (h : step ∈ previewSteps texts settings steps blockers) : ∃ other ∈ steps,
      step.applicationId = other.appId ∧
      step.wave = (if blockers = [] then dependencyWaves steps else []).lookup other.appId := by
  obtain ⟨index, hindex, rfl⟩ := List.mem_mapIdx.mp h
  exact ⟨steps[index], List.getElem_mem hindex, rfl, rfl⟩

theorem applicationId_previewSteps (blockers : List String) :
    (previewSteps texts settings steps blockers).map PreviewStep.applicationId =
      steps.map ReleaseStep.appId := by
  refine List.ext_getElem ?_ fun index hindex _ => ?_
  · rw [List.length_map, List.length_map, previewSteps, List.length_mapIdx]
  · rw [List.getElem_map, List.getElem_map]
    simp only [previewSteps, List.getElem_mapIdx]
    rfl

theorem wave_eq_none {blockers : List String} (h : blockers ≠ []) {step : PreviewStep}
    (hstep : step ∈ previewSteps texts settings steps blockers) : step.wave = none := by
  obtain ⟨other, -, -, hwave⟩ := mem_previewSteps hstep
  rw [hwave, if_neg h]
  rfl

theorem Orderly.wave_eq (h : Orderly steps) {step : PreviewStep}
    (hstep : step ∈ previewSteps texts settings steps []) :
    step.wave = some (waveOf steps step.applicationId) := by
  obtain ⟨other, hother, heq, hwave⟩ := mem_previewSteps hstep
  rw [hwave, if_pos rfl, heq]
  exact h.lookup_eq (h.mem_waves hother)

theorem Orderly.filter_wave (h : Orderly steps) :
    (previewSteps texts settings steps []).filter (fun step => step.wave.isSome) =
      previewSteps texts settings steps [] := by
  rw [List.filter_eq_self]
  intro step hstep
  rw [h.wave_eq hstep]
  rfl

theorem Orderly.isSchedule {payload : ReleasePlan} (h : Orderly payload.steps) :
    IsSchedule payload.steps (buildReleasePlanPreview texts payload) (waveOf payload.steps) := by
  have hsteps : (buildReleasePlanPreview texts payload).steps =
      previewSteps texts payload.settings payload.steps [] := by
    rw [buildReleasePlanPreview, graphBlockers_eq_nil_iff.mpr h]
  have hwaves : (buildReleasePlanPreview texts payload).waves =
      groupedWaves (previewSteps texts payload.settings payload.steps []) := by
    rw [buildReleasePlanPreview, graphBlockers_eq_nil_iff.mpr h]
  exact {
    same := by rw [hsteps, applicationId_previewSteps]
    given := fun step hstep => h.wave_eq (hsteps ▸ hstep)
    before := fun step hstep dep hdep => h.waveOf_lt hstep hdep
    next := fun step hstep => h.waveOf_next hstep
    increasing := hwaves ▸ groupedWaves_increasing _
    grouped := by
      intro wave hwave appId happId
      rw [hwaves] at hwave
      obtain ⟨group, hgroup, rfl⟩ := List.mem_map.mp hwave
      obtain ⟨step, hstep, rfl⟩ := List.mem_map.mp happId
      obtain ⟨hmem, hw⟩ := wave_of_mem_group (List.mem_mergeSort.mp hgroup) hstep
      exact Option.some.inj ((h.wave_eq hmem).symm.trans hw)
    once := by
      rw [hwaves, groupedWaves, List.flatMap_map]
      refine (flatMap_sorted_groups _ PreviewStep.applicationId).trans ?_
      rw [h.filter_wave, applicationId_previewSteps]
    onceStep := by
      rw [hwaves, hsteps, groupedWaves, List.flatMap_map]
      refine (flatMap_sorted_groups _ PreviewStep.stepId).trans ?_
      rw [h.filter_wave] }

theorem executable_iff {payload : ReleasePlan} :
    (buildReleasePlanPreview texts payload).executable = true ↔
      payload.steps ≠ [] ∧ Orderly payload.steps := by
  rw [← graphBlockers_eq_nil_iff, buildReleasePlanPreview, decide_eq_true_eq]
  split
  next hempty =>
    constructor
    · intro h
      exact absurd (List.append_eq_nil_iff.mp h).2 nofun
    · intro h
      exact absurd hempty h.1
  next hsteps => exact ⟨fun h => ⟨hsteps, h⟩, fun h => h.2⟩

variable (texts) in
/-- **A plan is executable exactly where it has steps and is orderly; then the preview is a
schedule, and else no step is given a wave.** -/
theorem preview_is_schedule (payload : ReleasePlan) :
    ((buildReleasePlanPreview texts payload).executable = true ↔
      payload.steps ≠ [] ∧ Orderly payload.steps) ∧
    ((buildReleasePlanPreview texts payload).executable = true →
      ∃ wave, IsSchedule payload.steps (buildReleasePlanPreview texts payload) wave) ∧
    ((buildReleasePlanPreview texts payload).executable = false →
      ∀ step ∈ (buildReleasePlanPreview texts payload).steps, step.wave = none) := by
  refine ⟨executable_iff, fun h => ⟨_, (executable_iff.mp h).2.isSchedule⟩, fun h step hstep => ?_⟩
  by_cases hgraph : graphBlockers payload.steps = []
  · -- No blocker of the graph: then there is no step.
    have hempty : payload.steps = [] := by
      by_contra hne
      exact Bool.false_ne_true
        (h.symm.trans (executable_iff.mpr ⟨hne, graphBlockers_eq_nil_iff.mp hgraph⟩))
    obtain ⟨other, hother, -⟩ := mem_previewSteps hstep
    rw [hempty] at hother
    exact absurd hother List.not_mem_nil
  · exact wave_eq_none hgraph hstep

end Opsia.Release
