import Opsia.Gitops.ApprovalFinality
import Opsia.Gitops.RunLedger

/-!
# The route of a diff

`diff-analyze-worker` decides the route of a diff from the diff, and stores the approval of
a diff that needs one. The workflow controller decides it again, from the flag `safe` of the
analyzer and `is_image_only_noop`, and announces an approval only when the run moves to
WAITING_FOR_APPROVAL.

The two agree in general only while the run waits for one approval at most: a second one is
stored and never announced, and a diff without actionable changes, a no-op for the analyzer,
makes the run wait for an approval that nobody stored.
-/

namespace Opsia.Gitops

open Runs

variable (naming : Naming) {r : String}

/-! ## The system -/

/-- A diff of the run `r`, of a named resource. -/
structure RunDiff (r : String) : Type where
  diff : Diff
  ofRun : diff.workflowRunId = r
  hasRun : diff.workflowRunId ≠ ""
  /-- `resource_ref` joins the kind and the name with a slash -/
  named : PyText.strip diff.resource ≠ ""
  deriving DecidableEq

/-- A `DiffAnalyzedBody` on its way to the controller: the diff and its flag `safe`. -/
abbrev AnalyzedDiff (r : String) : Type := RunDiff r × Bool

/-- The store, the analyzed diffs of the run that wait for the controller, the approvals that
the analyzer stored as REQUESTED for them, and those that the controller announced. -/
structure RoutingSystem (r : String) : Type where
  store : Store
  waiting : List (AnalyzedDiff r)
  requested : List String
  announced : List String

/-- One transaction of the system. -/
inductive RoutingAction (r : String) : Type where
  /-- `on_desired_diff` of `diff-analyze-worker` -/
  | analyze (diff : RunDiff r)
  /-- `on_diff_analyzed` of the workflow controller -/
  | route (event : AnalyzedDiff r) (now : Timestamp)
  /-- any other transaction -/
  | other (action : Action)

/-- A diff of the run that no recovery plan tracks is analyzed or routed. -/
def Action.isRouted (r : String) : Action → Bool
  | .desiredDiff diff none => diff.workflowRunId = r
  | .diffAnalyzed diff _ none _ _ => diff.workflowRunId = r
  | _ => false

/-- The approval that `persist_policy_decision` has stored as REQUESTED. -/
def persistedRequest (store : Store) (diff : Diff) : Option String :=
  if (evaluateSafePrPolicy naming diff).route = "approval_required" then
    (evaluateSafePrPolicy naming diff).approvalRef.filter fun approvalRef =>
      (store.decisionOf approvalRef).any fun decision => decision.1 = .requested
  else none

/-- The flag of a `DiffAnalyzedBody`. -/
def EventBody.safe? : EventBody → Option Bool
  | .diffAnalyzed _ safe => some safe
  | _ => none

/-- The approval that an `ApprovalRequestedBody` names. -/
def EventBody.approvalRequested? : EventBody → Option String
  | .approvalRequested approvalId _ => some approvalId
  | _ => none

/-- One transaction; one that is not due changes nothing. -/
def RoutingSystem.step (s : RoutingSystem r) : RoutingAction r → RoutingSystem r
  | .analyze diff =>
    match onDesiredDiff naming s.store diff.diff none with
    | .error _ => s
    | .ok (bodies, store) =>
      { s with
        store := store
        waiting := s.waiting ++ (bodies.filterMap EventBody.safe?).map fun safe => (diff, safe)
        requested := s.requested ++ (persistedRequest naming store diff.diff).toList }
  | .route event now =>
    if event ∈ s.waiting then
      match onDiffAnalyzed naming s.store event.1.diff event.2 none now true with
      | .error _ => s
      | .ok (bodies, store) =>
        { s with
          store := store
          waiting := s.waiting.erase event
          announced := s.announced ++ bodies.filterMap EventBody.approvalRequested? }
    else s
  | .other action =>
    if action.isRouted r then s
    else
      match handle naming s.store action with
      | .error _ => s
      | .ok (_, store) => { s with store := store }

/-! ## What the two must agree about -/

/-- The diff asks for the approval. -/
def RunDiff.Asks (diff : RunDiff r) (approvalId : String) : Prop :=
  (evaluateSafePrPolicy naming diff.diff).route = "approval_required" ∧
    (evaluateSafePrPolicy naming diff.diff).approvalRef = some approvalId

/-- The controller announced what the analyzer requested: each approval once, no other one,
and none is missing once its diffs are routed. -/
structure Agreed (s : RoutingSystem r) : Prop where
  once : s.announced.Nodup
  stored : ∀ id ∈ s.announced, id ∈ s.requested
  complete : ∀ id ∈ s.requested, id ∈ s.announced ∨ ∃ event ∈ s.waiting, event.1.Asks naming id

/-- A diff that is a no-op for the analyzer does not make the run wait for an approval. -/
def NoopKept (e : Entry (RoutingSystem r) (RoutingAction r)) : Prop :=
  ∀ event now, e.action = .route event now →
    (evaluateSafePrPolicy naming event.1.diff).route = "noop" →
      e.post.store.statusOf r = some .waitingForApproval →
        e.pre.store.statusOf r = some .waitingForApproval

/-- The run can be moved to WAITING_FOR_APPROVAL. -/
def Store.admitsWaiting (s : Store) (workflowRunId : String) : Bool :=
  (s.statusOf workflowRunId).any fun status => workflowTransitionGuard status .waitingForApproval

/-- The condition of the main result, about a diff that is routed and is no image-only no-op.
Without actionable changes, the run cannot be moved to WAITING_FOR_APPROVAL. With changes
that need an approval, either the run can be moved there and the approval was stored as
REQUESTED, or the run cannot, and the approval was never stored so, is announced already, or
another diff that asks for it is still on its way. -/
def RoutesAlike (s : RoutingSystem r) : RoutingAction r → Prop
  | .route event _ =>
    event ∈ s.waiting → event.1.diff.isImageOnlyNoop = false →
      (event.1.diff.hasChanges = false → s.store.admitsWaiting r = false) ∧
      (event.1.diff.hasChanges = true → event.1.diff.risk ≠ .sandboxOnly →
        (s.store.admitsWaiting r = true →
          event.1.diff.approvalRef naming ∈ s.requested) ∧
        (s.store.admitsWaiting r = false → event.1.diff.approvalRef naming ∈ s.requested →
          event.1.diff.approvalRef naming ∈ s.announced ∨
            ∃ other ∈ s.waiting.erase event,
              other.1.Asks naming (event.1.diff.approvalRef naming)))
  | _ => True

/-! ## The two deciders -/

theorem approvalPayloadId_eq (diff : RunDiff r) :
    approvalPayloadId naming (normalizePayload naming diff.diff.identity) diff.diff =
      diff.diff.approvalRef naming := by
  have hrun : (normalizePayload naming diff.diff.identity).workflowRunId =
      diff.diff.workflowRunId := if_pos diff.hasRun
  rw [approvalPayloadId, hrun, Diff.approvalRef]
  rw [if_pos diff.named, resourceApprovalQualifier, resourceApprovalQualifier]
  simp only [PyText.strip_strip]

theorem normalizePayload_of_hasRun {identity : Identity} (h : identity.workflowRunId ≠ "") :
    normalizePayload naming identity = identity := by
  rw [normalizePayload, deriveWorkflowRunId, if_pos h]

theorem workflowRunId_transitionWrite (diff : RunDiff r) (status : WorkflowRunStatus)
    (step : WorkflowStepName) :
    (transitionWrite naming (normalizePayload naming diff.diff.identity) status
      step).run.workflowRunId = r := by
  have hrun : diff.diff.identity.workflowRunId ≠ "" := diff.hasRun
  rw [transitionWrite, normalizePayload_of_hasRun naming hrun,
    normalizePayload_of_hasRun naming hrun]
  exact diff.ofRun

/-- The status that the controller gives the run of a diff. -/
def routedStatus (diff : Diff) (safe : Bool) : WorkflowRunStatus :=
  if diff.isImageOnlyNoop then .succeeded else if safe then .applying else .waitingForApproval

/-- The write of `on_diff_analyzed` for a diff without a recovery plan. -/
def routedWrite (diff : Diff) (safe : Bool) : RunWrite :=
  transitionWrite naming (normalizePayload naming diff.identity) (routedStatus diff safe)
    (if diff.isImageOnlyNoop then .health else if safe then .safePr else .approval)

theorem diffAnalyzedWrite_eq (s : Store) (diff : Diff) (safe : Bool) (now : Timestamp) :
    diffAnalyzedWrite naming s diff safe none now = some (routedWrite naming diff safe) := by
  rw [diffAnalyzedWrite, routedWrite, routedStatus]
  by_cases hnoop : diff.isImageOnlyNoop = true
  · rw [if_pos hnoop, if_pos hnoop, if_pos hnoop]
  · rw [if_neg hnoop, if_neg hnoop, if_neg hnoop]
    cases safe with
    | true => rfl
    | false => rfl

theorem workflowRunId_routedWrite (diff : RunDiff r) (safe : Bool) :
    (routedWrite naming diff.diff safe).run.workflowRunId = r :=
  workflowRunId_transitionWrite naming diff _ _

theorem applies_routedWrite (s : Store) (diff : RunDiff r) (safe : Bool) :
    (routedWrite naming diff.diff safe).applies s =
      (s.statusOf r).any fun status =>
        workflowTransitionGuard status (routedStatus diff.diff safe) := by
  rw [RunWrite.applies, workflowRunId_routedWrite, statusOf_eq]
  rcases s.runOf r with _ | row
  · rfl
  · rfl

/-! ## What a step does -/

/-- The approvals that the controller announces for an analyzed diff. -/
def announcedFor (s : Store) (event : AnalyzedDiff r) : List String :=
  if event.1.diff.isImageOnlyNoop = false ∧ event.2 = false ∧ s.admitsWaiting r = true then
    [event.1.diff.approvalRef naming]
  else []

theorem onDiffAnalyzed_spec (s : Store) (event : AnalyzedDiff r) (now : Timestamp) :
    ∃ bodies store, onDiffAnalyzed naming s event.1.diff event.2 none now true =
        .ok (bodies, store) ∧
      bodies.filterMap EventBody.approvalRequested? = announcedFor naming s event ∧
      ∀ r', store.runOf r' = runAfter s ((some (routedWrite naming event.1.diff event.2)).filter
        (·.applies s)) r' := by
  obtain ⟨diff, safe⟩ := event
  have hruns : ∀ {bodies store}, onDiffAnalyzed naming s diff.diff safe none now true =
      .ok (bodies, store) → ∀ r', store.runOf r' =
        runAfter s ((some (routedWrite naming diff.diff safe)).filter (·.applies s)) r' := by
    intro bodies store h
    have heffect := effect_of_onDiffAnalyzed naming s h
    rw [diffAnalyzedWrite_eq] at heffect
    exact heffect.runs
  -- the write is that of `RunLedger`; what is left is what the controller announces
  suffices h : ∃ bodies store, onDiffAnalyzed naming s diff.diff safe none now true =
      .ok (bodies, store) ∧
        bodies.filterMap EventBody.approvalRequested? = announcedFor naming s (diff, safe) by
    obtain ⟨bodies, store, hok, hannounced⟩ := h
    exact ⟨bodies, store, hok, hannounced, hruns hok⟩
  rw [onDiffAnalyzed, announcedFor]
  dsimp only
  by_cases hnoop : diff.diff.isImageOnlyNoop = true
  · rw [if_pos hnoop, transitionAndEmit_eq]
    refine ⟨_, _, rfl, ?_⟩
    rw [if_neg fun h => Bool.false_ne_true (h.1.symm.trans hnoop)]
    rcases (transitionRun naming s (normalizePayload naming diff.diff.identity) .succeeded none
      true).1 with _ | run
    · rfl
    · rfl
  rw [Bool.not_eq_true] at hnoop
  cases safe with
  | true =>
    rw [hnoop, if_neg Bool.false_ne_true]
    change ∃ bodies store, transitionAndEmit naming s _ .applying none true _ = _ ∧ _
    rw [transitionAndEmit_eq]
    refine ⟨_, _, rfl, ?_⟩
    rw [getD_map_nil]
    rfl
  | false =>
    rw [hnoop, if_neg Bool.false_ne_true]
    change ∃ bodies store, transitionAndEmit naming s _ .waitingForApproval none true _ = _ ∧ _
    rw [transitionAndEmit_eq]
    refine ⟨_, _, rfl, ?_⟩
    have happlies : (transitionWrite naming (normalizePayload naming diff.diff.identity)
        .waitingForApproval .approval).applies s = s.admitsWaiting r := by
      have := applies_routedWrite naming s diff false
      rw [routedWrite, routedStatus, hnoop] at this
      exact this
    rw [transitionRun_fst naming s _ _ .approval, happlies]
    by_cases hadmits : s.admitsWaiting r = true
    · rw [if_pos hadmits, if_pos ⟨rfl, rfl, hadmits⟩]
      have hrun : diff.diff.identity.workflowRunId ≠ "" := diff.hasRun
      rw [← approvalPayloadId_eq, normalizePayload_of_hasRun naming hrun,
        normalizePayload_of_hasRun naming hrun]
      rfl
    · rw [if_neg hadmits, if_neg fun h => hadmits h.2.2]
      rfl

theorem step_analyze (s : RoutingSystem r) (diff : RunDiff r) :
    let decision := evaluateSafePrPolicy naming diff.diff
    let store := persistPolicyDecision naming s.store diff.diff decision
    s.step naming (.analyze diff) =
      ⟨store, s.waiting ++ [(diff, decision.safe)],
        s.requested ++ (persistedRequest naming store diff.diff).toList, s.announced⟩ := by
  dsimp only
  have hanalyzed : onDesiredDiff naming s.store diff.diff none =
      .ok (.diffAnalyzed diff.diff (evaluateSafePrPolicy naming diff.diff).safe ::
        (if (evaluateSafePrPolicy naming diff.diff).route = "safe_pr" then
          [.safePrRequested diff.diff] else []),
        persistPolicyDecision naming s.store diff.diff
          (evaluateSafePrPolicy naming diff.diff)) := rfl
  rw [RoutingSystem.step, hanalyzed]
  by_cases hroute : (evaluateSafePrPolicy naming diff.diff).route = "safe_pr"
  · rw [if_pos hroute]
    rfl
  · rw [if_neg hroute]
    rfl

variable {s : RoutingSystem r} {event : AnalyzedDiff r}

theorem step_route (hevent : event ∈ s.waiting) (now : Timestamp) :
    ∃ store, s.step naming (.route event now) =
        ⟨store, s.waiting.erase event, s.requested,
          s.announced ++ announcedFor naming s.store event⟩ ∧
      ∀ r', store.runOf r' = runAfter s.store
        ((some (routedWrite naming event.1.diff event.2)).filter (·.applies s.store)) r' := by
  obtain ⟨bodies, store, hok, hannounced, hruns⟩ := onDiffAnalyzed_spec naming s.store event now
  refine ⟨store, ?_, hruns⟩
  rw [RoutingSystem.step, if_pos hevent, hok, ← hannounced]

/-- Every action carries an answer of the ledger, or none is asked. -/
theorem exists_withInserted (action : Action) :
    ∃ inserted, action.withInserted inserted = action := by
  cases action with
  | gitWebhook _ _ inserted | gitChanged _ _ _ inserted | manifestRendered _ inserted
  | manifestInvalid _ _ inserted | diffDetected _ inserted | diffAnalyzed _ _ _ _ inserted
  | safePrFailed _ inserted | approvalGranted _ inserted | approvalRejected _ inserted
  | commandQueued _ _ inserted | commandRejected _ _ inserted | commandCompleted _ _ inserted =>
    exact ⟨inserted, rfl⟩
  | render _ | desiredDiff _ _ | grant _ _ _ _ _ _ | reject _ _ _ _ _ | commandStore _ =>
    exact ⟨true, rfl⟩

theorem forward_of_handle {s s' : Store} {action : Action} {bodies : List EventBody}
    (h : handle naming s action = .ok (bodies, s')) : Forward s s' := by
  obtain ⟨inserted, hinserted⟩ := exists_withInserted action
  rw [← hinserted] at h
  exact forward_of_runs (fun write hwrite => mem_appliedWrite naming hwrite)
    (handle_effect naming s action h).runs

theorem Forward.refl (s : Store) : Forward s s :=
  fun _ row hrow => ⟨row, hrow, le_refl _, fun _ => rfl⟩

theorem step_other (s : RoutingSystem r) (action : Action) :
    ∃ store, s.step naming (.other action) = { s with store := store } ∧ Forward s.store store := by
  rw [RoutingSystem.step]
  by_cases hrouted : action.isRouted r = true
  · exact ⟨s.store, if_pos hrouted, Forward.refl s.store⟩
  · rw [if_neg hrouted]
    rcases hhandle : handle naming s.store action with _ | ⟨bodies, store⟩
    · exact ⟨s.store, rfl, Forward.refl s.store⟩
    · exact ⟨store, rfl, forward_of_handle naming hhandle⟩

/-! ## The route of the policy -/

theorem evaluateSafePrPolicy_cases (diff : Diff) :
    (diff.isImageOnlyNoop = true ∧ evaluateSafePrPolicy naming diff = ⟨"noop", false, none, none⟩) ∨
    (diff.isImageOnlyNoop = false ∧ diff.hasChanges = false ∧
      evaluateSafePrPolicy naming diff = ⟨"noop", false, none, none⟩) ∨
    (diff.isImageOnlyNoop = false ∧ diff.hasChanges = true ∧ diff.risk = .sandboxOnly ∧
      (evaluateSafePrPolicy naming diff).route = "safe_pr" ∧
      (evaluateSafePrPolicy naming diff).safe = true) ∨
    (diff.isImageOnlyNoop = false ∧ diff.hasChanges = true ∧ diff.risk ≠ .sandboxOnly ∧
      (evaluateSafePrPolicy naming diff).route = "approval_required" ∧
      (evaluateSafePrPolicy naming diff).safe = false ∧
      (evaluateSafePrPolicy naming diff).approvalRef = some (diff.approvalRef naming)) := by
  rw [evaluateSafePrPolicy]
  rcases diff.isImageOnlyNoop with _ | _
  · rcases diff.hasChanges with _ | _
    · exact Or.inr (Or.inl ⟨rfl, rfl, rfl⟩)
    · by_cases hrisk : diff.risk = .sandboxOnly
      · rw [if_pos hrisk]
        exact Or.inr (Or.inr (Or.inl ⟨rfl, rfl, hrisk, rfl, rfl⟩))
      · rw [if_neg hrisk]
        exact Or.inr (Or.inr (Or.inr ⟨rfl, rfl, hrisk, rfl, rfl, rfl⟩))
  · exact Or.inl ⟨rfl, rfl⟩

theorem RunDiff.not_asks {diff : RunDiff r} {route : String} (hroute : route ≠ "approval_required")
    (h : (evaluateSafePrPolicy naming diff.diff).route = route) (id : String) :
    ¬ diff.Asks naming id := fun hasks => hroute (h.symm.trans hasks.1)

/-! ## One transaction -/

/-- What holds in every run of the system: the analyzer's flag is that of its policy, and after
an announcement the run is past WAITING_FOR_APPROVAL or there. -/
structure Routes (s : RoutingSystem r) : Prop where
  flags : ∀ event ∈ s.waiting, event.2 = (evaluateSafePrPolicy naming event.1.diff).safe
  late : s.announced ≠ [] → ∃ row, s.store.runOf r = some row ∧
    WorkflowRunStatus.waitingForApproval.rank ≤ row.status.rank

/-- The run cannot be moved there again. -/
theorem Routes.admitsWaiting (h : Routes naming s) (hannounced : s.announced ≠ []) :
    s.store.admitsWaiting r = false := by
  obtain ⟨row, hrow, hrank⟩ := h.late hannounced
  rw [Store.admitsWaiting, statusOf_eq, hrow]
  change workflowTransitionGuard row.status .waitingForApproval = false
  generalize row.status = status at hrank
  cases status with
  | started | rendering | diffing | policyChecking => exact absurd hrank (by decide)
  | waitingForApproval | applying | rolloutWaiting | succeeded | failed => rfl

theorem Routes.forward (h : Routes naming s) {t : RoutingSystem r}
    (hforward : Forward s.store t.store) (hannounced : t.announced = s.announced)
    (hflags : ∀ event ∈ t.waiting, event.2 = (evaluateSafePrPolicy naming event.1.diff).safe) :
    Routes naming t := by
  refine ⟨hflags, fun hsome => ?_⟩
  obtain ⟨row, hrow, hrank⟩ := h.late (hannounced ▸ hsome)
  obtain ⟨row', hrow', hrank', -⟩ := hforward r row hrow
  exact ⟨row', hrow', hrank.trans hrank'⟩

theorem statusOf_routed {s store : Store} (hruns : ∀ r', store.runOf r' = runAfter s
      ((some (routedWrite naming event.1.diff event.2)).filter (·.applies s)) r') :
    store.statusOf r =
      if (s.statusOf r).any fun status =>
          workflowTransitionGuard status (routedStatus event.1.diff event.2) then
        some (routedStatus event.1.diff event.2)
      else s.statusOf r := by
  rw [statusOf_eq, hruns, Option.filter_some, applies_routedWrite]
  split
  · rename_i happlies
    rw [runAfter, if_pos (workflowRunId_routedWrite naming event.1 event.2).symm]
    rw [statusOf_eq] at happlies
    rcases hrow : s.runOf r with _ | row
    · rw [hrow] at happlies
      cases happlies
    · rfl
  · rw [runAfter, statusOf_eq]

theorem statusOf_announced {s store : Store} (hannounces : announcedFor naming s event ≠ [])
    (hruns : ∀ r', store.runOf r' = runAfter s
      ((some (routedWrite naming event.1.diff event.2)).filter (·.applies s)) r') :
    store.statusOf r = some .waitingForApproval := by
  rw [announcedFor] at hannounces
  split at hannounces
  · rename_i hcase
    obtain ⟨hnoop, hsafe, hadmits⟩ := hcase
    have hstatus : routedStatus event.1.diff event.2 = .waitingForApproval := by
      rw [routedStatus, hnoop, hsafe]
      rfl
    rw [statusOf_routed naming hruns, hstatus]
    exact if_pos hadmits
  · exact absurd rfl hannounces

theorem Routes.step (h : Routes naming s) (action : RoutingAction r) :
    Routes naming (s.step naming action) := by
  cases action with
  | analyze diff =>
    rw [step_analyze]
    have hforward : Forward s.store (persistPolicyDecision naming s.store diff.diff
        (evaluateSafePrPolicy naming diff.diff)) := fun r' row hrow =>
      ⟨row, (runOf_persistPolicyDecision naming s.store _ _ r').trans hrow, le_refl _, fun _ => rfl⟩
    refine h.forward naming hforward rfl ?_
    intro event hevent
    rcases List.mem_append.mp hevent with hevent | hevent
    · exact h.flags event hevent
    · rw [List.mem_singleton.mp hevent]
  | route event now =>
    by_cases hevent : event ∈ s.waiting
    · obtain ⟨store, hstep, hruns⟩ := step_route naming hevent now
      have hflags : ∀ event' ∈ s.waiting.erase event,
          event'.2 = (evaluateSafePrPolicy naming event'.1.diff).safe :=
        fun event' hevent' => h.flags event' (List.mem_of_mem_erase hevent')
      rw [hstep]
      by_cases hannounces : announcedFor naming s.store event = []
      · refine h.forward naming (forward_of_runs (fun w hw => ?_) hruns) ?_ hflags
        · exact (Option.filter_eq_some_iff.mp hw).2
        · rw [hannounces, List.append_nil]
      · refine ⟨hflags, fun _ => ?_⟩
        have hstatus := statusOf_announced naming hannounces hruns
        rw [statusOf_eq, Option.map_eq_some_iff] at hstatus
        obtain ⟨row, hrow, hwaiting⟩ := hstatus
        exact ⟨row, hrow, hwaiting ▸ le_refl _⟩
    · rw [RoutingSystem.step, if_neg hevent]
      exact h
  | other action =>
    obtain ⟨store, hstep, hforward⟩ := step_other naming s action
    rw [hstep]
    exact h.forward naming hforward rfl h.flags

/-! ## When a routed diff is routed alike -/

theorem Agreed.silent (h : Agreed naming s) (hasks : ∀ id, ¬ event.1.Asks naming id) (store : Store)
    :
    Agreed naming ⟨store, s.waiting.erase event, s.requested, s.announced⟩ := by
  refine ⟨h.once, h.stored, fun id hid => ?_⟩
  rcases h.complete id hid with hannounced | ⟨other, hother, hotherAsks⟩
  · exact Or.inl hannounced
  · have hne : other ≠ event := by
      rintro rfl
      exact hasks id hotherAsks
    exact Or.inr ⟨other, (List.mem_erase_of_ne hne).mpr hother, hotherAsks⟩

theorem agreed_announced_iff (h : Agreed naming s) {approvalId : String}
    (hasks : ∀ id, event.1.Asks naming id → id = approvalId) (hnone : s.announced = [])
    (store : Store) :
    Agreed naming ⟨store, s.waiting.erase event, s.requested, s.announced ++ [approvalId]⟩ ↔
      approvalId ∈ s.requested := by
  rw [hnone, List.nil_append]
  constructor
  · intro hagreed
    exact hagreed.stored approvalId List.mem_cons_self
  · intro hrequested
    refine ⟨List.nodup_singleton approvalId, fun id hid => ?_, fun id hid => ?_⟩
    · rw [List.mem_singleton.mp hid]
      exact hrequested
    · rcases h.complete id hid with hannounced | ⟨other, hother, hotherAsks⟩
      · rw [hnone] at hannounced
        exact absurd hannounced List.not_mem_nil
      · by_cases hsame : other = event
        · rw [hsame] at hotherAsks
          exact Or.inl (List.mem_singleton.mpr (hasks id hotherAsks))
        · exact Or.inr ⟨other, (List.mem_erase_of_ne hsame).mpr hother, hotherAsks⟩

theorem agreed_unannounced_iff (h : Agreed naming s) {approvalId : String}
    (hasks : ∀ id, event.1.Asks naming id → id = approvalId) (store : Store) :
    Agreed naming ⟨store, s.waiting.erase event, s.requested, s.announced⟩ ↔
      (approvalId ∈ s.requested → approvalId ∈ s.announced ∨
        ∃ other ∈ s.waiting.erase event, other.1.Asks naming approvalId) := by
  constructor
  · exact fun hagreed hrequested => hagreed.complete approvalId hrequested
  · intro hcomplete
    refine ⟨h.once, h.stored, fun id hid => ?_⟩
    rcases h.complete id hid with hannounced | ⟨other, hother, hotherAsks⟩
    · exact Or.inl hannounced
    · by_cases hsame : other = event
      · rw [hsame] at hotherAsks
        obtain rfl := hasks id hotherAsks
        exact hcomplete hid
      · exact Or.inr ⟨other, (List.mem_erase_of_ne hsame).mpr hother, hotherAsks⟩

theorem noopKept_route {t : RoutingSystem r} {now : Timestamp} :
    NoopKept naming ⟨s, .route event now, t⟩ ↔
      ((evaluateSafePrPolicy naming event.1.diff).route = "noop" →
        t.store.statusOf r = some .waitingForApproval →
          s.store.statusOf r = some .waitingForApproval) := by
  constructor
  · exact fun h => h event now rfl
  · intro h event' now' haction
    cases haction
    exact h

theorem not_waiting_of_admits {s : Store} (h : s.admitsWaiting r = true) :
    s.statusOf r ≠ some .waitingForApproval := by
  intro hstatus
  rw [Store.admitsWaiting, hstatus] at h
  cases h

/-- The transaction of the controller for one diff. -/
theorem routesAlike_route (hroutes : Routes naming s) (hagreed : Agreed naming s)
    (hevent : event ∈ s.waiting) (now : Timestamp) :
    Agreed naming (s.step naming (.route event now)) ∧
        NoopKept naming ⟨s, .route event now, s.step naming (.route event now)⟩ ↔
      RoutesAlike naming s (.route event now) := by
  obtain ⟨store, hstep, hruns⟩ := step_route naming hevent now
  have hstatus := statusOf_routed naming hruns
  have hflag := hroutes.flags event hevent
  rw [noopKept_route, hstep, RoutesAlike]
  dsimp only
  rcases evaluateSafePrPolicy_cases naming event.1.diff with
    ⟨hnoop, hpolicy⟩ | ⟨hnoop, hchanges, hpolicy⟩ | ⟨hnoop, hchanges, hrisk, hroute, hsafe⟩ |
      ⟨hnoop, hchanges, hrisk, hroute, hsafe, href⟩
  · -- an image-only no-op ends the run
    have hasks : ∀ id, ¬ event.1.Asks naming id := RunDiff.not_asks naming (by decide)
      (congrArg PolicyDecision.route hpolicy)
    have hsilent : announcedFor naming s.store event = [] :=
      if_neg fun h => Bool.false_ne_true (h.1.symm.trans hnoop)
    have hsucceeded : routedStatus event.1.diff event.2 = .succeeded := by
      rw [routedStatus, if_pos hnoop]
    rw [hsilent, List.append_nil]
    refine iff_of_true ⟨hagreed.silent naming hasks store, fun _ hwaiting => ?_⟩ ?_
    · rw [hstatus, hsucceeded] at hwaiting
      split at hwaiting
      · cases hwaiting
      · exact hwaiting
    · intro _ hfalse
      exact absurd (hfalse.symm.trans hnoop) Bool.false_ne_true
  · -- no actionable change: the run is moved to WAITING_FOR_APPROVAL if it can be
    have hasks : ∀ id, ¬ event.1.Asks naming id := RunDiff.not_asks naming (by decide)
      (congrArg PolicyDecision.route hpolicy)
    have hsafe : event.2 = false := hflag.trans (congrArg PolicyDecision.safe hpolicy)
    have hwaits : routedStatus event.1.diff event.2 = .waitingForApproval := by
      rw [routedStatus, hnoop, hsafe]
      rfl
    rw [hwaits] at hstatus
    by_cases hadmits : s.store.admitsWaiting r = true
    · have hmoved : store.statusOf r = some .waitingForApproval := hstatus.trans (if_pos hadmits)
      refine iff_of_false ?_ ?_
      · rintro ⟨-, hkept⟩
        exact not_waiting_of_admits hadmits
          (hkept (congrArg PolicyDecision.route hpolicy) hmoved)
      · intro h
        exact Bool.false_ne_true (((h hevent hnoop).1 hchanges).symm.trans hadmits)
    · have hkept : store.statusOf r = s.store.statusOf r := hstatus.trans (if_neg hadmits)
      have hsilent : announcedFor naming s.store event = [] := if_neg fun h => hadmits h.2.2
      rw [hsilent, List.append_nil, hkept]
      refine iff_of_true ⟨hagreed.silent naming hasks store, fun _ hwaiting => hwaiting⟩ ?_
      refine fun _ _ => ⟨fun _ => eq_false_of_ne_true hadmits, fun hsome => ?_⟩
      exact absurd (hchanges.symm.trans hsome) Bool.false_ne_true
  · -- within the sandbox: no approval
    have hasks : ∀ id, ¬ event.1.Asks naming id := RunDiff.not_asks naming (by decide) hroute
    have hsilent : announcedFor naming s.store event = [] :=
      if_neg fun h => Bool.false_ne_true (h.2.1.symm.trans (hflag.trans hsafe))
    rw [hsilent, List.append_nil, hroute]
    refine iff_of_true ⟨hagreed.silent naming hasks store, fun hfalse => ?_⟩ ?_
    · exact absurd hfalse (by decide)
    · refine fun _ _ => ⟨fun hnone => ?_, fun _ hother => absurd hrisk hother⟩
      exact absurd (hnone.symm.trans hchanges) Bool.false_ne_true
  · -- an approval: announced if the run can be moved to WAITING_FOR_APPROVAL
    have hasks : ∀ id, event.1.Asks naming id → id = event.1.diff.approvalRef naming := by
      rintro id ⟨-, hid⟩
      exact Option.some.inj (hid.symm.trans href)
    have hnoNoop : (evaluateSafePrPolicy naming event.1.diff).route ≠ "noop" := by
      rw [hroute]
      decide
    rw [and_iff_left fun hfalse => absurd hfalse hnoNoop]
    have hasked : ∀ p q : Prop, ((event ∈ s.waiting → event.1.diff.isImageOnlyNoop = false →
        (event.1.diff.hasChanges = false → p) ∧
          (event.1.diff.hasChanges = true → event.1.diff.risk ≠ .sandboxOnly → q)) ↔ q) := by
      intro p q
      constructor
      · exact fun h => (h hevent hnoop).2 hchanges hrisk
      · refine fun hq _ _ => ⟨fun hnone => ?_, fun _ _ => hq⟩
        exact absurd (hnone.symm.trans hchanges) Bool.false_ne_true
    rw [hasked]
    by_cases hadmits : s.store.admitsWaiting r = true
    · have hnone : s.announced = [] := by
        by_contra hsome
        exact Bool.false_ne_true ((hroutes.admitsWaiting naming hsome).symm.trans hadmits)
      have hone : announcedFor naming s.store event = [event.1.diff.approvalRef naming] :=
        if_pos ⟨hnoop, hflag.trans hsafe, hadmits⟩
      rw [hone, agreed_announced_iff naming hagreed hasks hnone, hadmits]
      exact ⟨fun h => ⟨fun _ => h, fun hfalse => absurd hfalse (by decide)⟩, fun h => h.1 rfl⟩
    · have hrefused := eq_false_of_ne_true hadmits
      have hsilent : announcedFor naming s.store event = [] := if_neg fun h => hadmits h.2.2
      rw [hsilent, List.append_nil, agreed_unannounced_iff naming hagreed hasks, hrefused]
      exact ⟨fun h => ⟨fun hfalse => absurd hfalse (by decide), fun _ => h⟩, fun h => h.2 rfl⟩

/-- **One transaction.** -/
theorem routesAlike_step (hroutes : Routes naming s) (hagreed : Agreed naming s)
    (action : RoutingAction r) :
    Agreed naming (s.step naming action) ∧
        NoopKept naming ⟨s, action, s.step naming action⟩ ↔ RoutesAlike naming s action := by
  cases action with
  | analyze diff =>
    refine iff_of_true ⟨?_, fun _ _ hfalse => by cases hfalse⟩ trivial
    rw [step_analyze]
    refine ⟨hagreed.once, fun id hid => List.mem_append_left _ (hagreed.stored id hid), ?_⟩
    intro id hid
    rcases List.mem_append.mp hid with hid | hid
    · rcases hagreed.complete id hid with hannounced | ⟨other, hother, hasks⟩
      · exact Or.inl hannounced
      · exact Or.inr ⟨other, List.mem_append_left _ hother, hasks⟩
    · -- the new request is asked for by the diff that was analyzed
      refine Or.inr ⟨_, List.mem_append_right _ List.mem_cons_self, ?_⟩
      rw [Option.mem_toList, persistedRequest] at hid
      split at hid
      · rename_i hroute
        exact ⟨hroute, (Option.filter_eq_some_iff.mp hid).1⟩
      · cases hid
  | route event now =>
    by_cases hevent : event ∈ s.waiting
    · exact routesAlike_route naming hroutes hagreed hevent now
    · have hstep : s.step naming (.route event now) = s := if_neg hevent
      rw [hstep]
      refine iff_of_true ⟨hagreed, ?_⟩ fun hmem => absurd hmem hevent
      exact (noopKept_route naming).mpr fun _ hwaiting => hwaiting
  | other action =>
    obtain ⟨store, hstep, -⟩ := step_other naming s action
    refine iff_of_true ⟨?_, fun _ _ hfalse => by cases hfalse⟩ trivial
    rw [hstep]
    exact ⟨hagreed.once, hagreed.stored, hagreed.complete⟩

/-! ## Every run of the system -/

/-- The analyzer and the controller take the same route in a run of the system, from a store
with whatever it holds and no diff of the run analyzed yet. -/
def SameRoute (store : Store) (actions : List (RoutingAction r)) : Prop :=
  ∀ e ∈ trace (RoutingSystem.step naming) ⟨store, [], [], []⟩ actions,
    Agreed naming e.post ∧ NoopKept naming e

/-- **The analyzer and the controller take the same route** in exactly the runs of the system
in which the controller finds the run open for each first request, and never open for a diff
without actionable changes. -/
theorem sameRoute_iff (store : Store) (actions : List (RoutingAction r)) :
    SameRoute naming store actions ↔
      Meets (RoutingSystem.step naming) (RoutesAlike naming) ⟨store, [], [], []⟩ actions := by
  have hstart : Routes naming (⟨store, [], [], []⟩ : RoutingSystem r) ∧
      Agreed naming (⟨store, [], [], []⟩ : RoutingSystem r) :=
    ⟨⟨fun _ hevent => absurd hevent List.not_mem_nil, fun hnil => absurd rfl hnil⟩,
      List.nodup_nil, fun _ hid => absurd hid List.not_mem_nil,
      fun _ hid => absurd hid List.not_mem_nil⟩
  refine forall_trace_iff_meets (P := fun s => Routes naming s ∧ Agreed naming s) ?_ ?_
    hstart actions
  · rintro s action ⟨hroutes, hagreed⟩ hok
    exact ⟨hroutes.step naming action, ((routesAlike_step naming hroutes hagreed action).mpr hok).1⟩
  · rintro s action ⟨hroutes, hagreed⟩
    exact routesAlike_step naming hroutes hagreed action

/-! ## The second resource of a commit -/

/-- The diff of one deployment of the commit. -/
def shopRunDiff (name : String) (named : PyText.strip (shopDiff name).resource ≠ "") :
    RunDiff "run-1" := ⟨shopDiff name, rfl, (by decide : "run-1" ≠ ""), named⟩

/-- Two deployments of one commit need an approval each. -/
def twoResources : List (RoutingAction "run-1") :=
  let api := shopRunDiff "api" (by decide)
  let web := shopRunDiff "web" (by decide)
  [.other (.gitWebhook shopRun none true), .analyze api, .analyze web, .route (api, false) 10,
    .route (web, false) 20]

/-- **The second approval is never announced**: the run waits for the first one already. -/
theorem second_approval_is_not_announced :
    ¬ ∀ (naming : Naming) (r : String) (store : Store) (actions : List (RoutingAction r)),
      SameRoute naming store actions := by
  intro h
  have hagreed := (h plainNaming "run-1" .empty twoResources _
    (step_mem_trace _ (twoResources.take 4) (.route (shopRunDiff "web" (by decide), false) 20)
      [])).1
  have hrequested : (shopDiff "web").approvalRef plainNaming ∈
      (run (RoutingSystem.step plainNaming) ⟨.empty, [], [], []⟩ twoResources).requested := by
    decide +kernel
  rcases hagreed.complete _ hrequested with hannounced | ⟨event, hevent, -⟩
  · exact absurd hannounced (by decide +kernel)
  · have hnone : (run (RoutingSystem.step plainNaming) ⟨.empty, [], [], []⟩
        twoResources).waiting = [] := by decide +kernel
    exact absurd (hnone ▸ hevent) List.not_mem_nil

end Opsia.Gitops
