import Opsia.Gitops.RunLedger

/-!
# Runs move forward and end once

The workflow controller with its store, the timeline ledger, the outbox and the processed
events. A delivery is one transaction: the handler, the facts it appends and the bodies it
stages commit together, once for each event id. Endpoints, the policy analyzer and the
renderer commit in between, and other sources append facts of their own.

The source key of a run fact names the event of the handler. So in a transaction that is
not a repetition the fact is always new, and store, ledger and outbox move together.
-/

namespace Opsia.Gitops

open Runs

/-! ## The system -/

/-- The store, the ledger, the staged bodies and the events that the controller processed. -/
structure WorkflowSystem : Type where
  store : Store
  ledger : List LedgerFact
  outbox : List EventBody
  processed : List EventId

/-- Before any transaction. -/
def WorkflowSystem.empty : WorkflowSystem := ⟨.empty, [], [], []⟩

/-- A fact of `append_workflow_step_timeline`. -/
structure StepFact : Type where
  workspaceId : String
  workflowRunId : String
  step : WorkflowStepName
  status : WorkflowStepStatus
  deriving DecidableEq, Repr

/-- The event of a step fact. -/
def StepFact.timelineEvent (event : EventId) (fact : StepFact) : LedgerFact :=
  ⟨fact.workspaceId, workflowStepSourceKey event fact.workflowRunId fact.step fact.status, none⟩

/-- No row of the ledger has the source key in the workspace. -/
def isNewFact (ledger : List LedgerFact) (event : LedgerFact) : Bool :=
  !ledger.any fun row => row.workspaceId = event.workspaceId && row.sourceKey = event.sourceKey

/-- `append_timeline_event`, of which the controller reads `inserted`. -/
def appendTimelineEvent (ledger : List LedgerFact) (event : LedgerFact) : List LedgerFact :=
  if isNewFact ledger event then ledger ++ [event] else ledger

/-- A handler of the workflow controller. -/
def Action.isHandler : Action → Bool
  | .gitWebhook _ _ _ | .gitChanged _ _ _ _ | .manifestRendered _ _ | .manifestInvalid _ _ _
  | .diffDetected _ _ | .diffAnalyzed _ _ _ _ _ | .safePrFailed _ _ | .approvalGranted _ _
  | .approvalRejected _ _ | .commandQueued _ _ _ | .commandRejected _ _ _
  | .commandCompleted _ _ _ => true
  | .render _ | .desiredDiff _ _ | .grant _ _ _ _ _ _ | .reject _ _ _ _ _ | .commandStore _ => false

/-- One transaction of the system. -/
inductive SystemAction : Type where
  /-- an event is delivered to its handler, whose steps append the facts `steps`; `raises`
  when the transaction is lost after the writes -/
  | deliver (event : EventId) (action : Action) (steps : List StepFact) (raises : Bool)
  /-- a transaction of an endpoint or of another worker -/
  | elsewhere (action : Action)
  /-- a fact of another source -/
  | append (workspaceId : String) (source : OtherSource) (rest : String)

variable (naming : Naming)

/-- Whether the ledger takes the run fact of a handler. -/
def WorkflowSystem.inserted (s : WorkflowSystem) (event : EventId) (action : Action) : Bool :=
  (appliedWrite naming s.store action).all fun write =>
    isNewFact s.ledger (write.timelineEvent event)

/-- The ledger after the run fact of a handler. -/
def WorkflowSystem.appendRunFact (s : WorkflowSystem) (event : EventId) (action : Action) :
    List LedgerFact :=
  match appliedWrite naming s.store action with
  | none => s.ledger
  | some write => appendTimelineEvent s.ledger (write.timelineEvent event)

/-- A delivery of an event to its handler. -/
def WorkflowSystem.deliver (s : WorkflowSystem) (event : EventId) (action : Action)
    (steps : List StepFact) (raises : Bool) : WorkflowSystem :=
  if event ∈ s.processed || raises || !action.isHandler then s
  else
    match handle naming s.store (action.withInserted (s.inserted naming event action)) with
    | .error _ => s
    | .ok (bodies, store) =>
      { store := store
        ledger := (steps.map (StepFact.timelineEvent event)).foldl appendTimelineEvent
          (s.appendRunFact naming event action)
        outbox := s.outbox ++ bodies
        processed := s.processed ++ [event] }

/-- One transaction; one that is not due changes nothing. -/
def WorkflowSystem.step (s : WorkflowSystem) : SystemAction → WorkflowSystem
  | .deliver event action steps raises => s.deliver naming event action steps raises
  | .elsewhere action =>
    if action.isHandler then s
    else
      match handle naming s.store action with
      | .error _ => s
      | .ok (bodies, store) => { s with store := store, outbox := s.outbox ++ bodies }
  | .append workspaceId source rest =>
    let fact : LedgerFact := ⟨workspaceId, otherSourceKey source rest, none⟩
    { s with ledger := appendTimelineEvent s.ledger fact }

/-- The statuses that the ledger records for a run. -/
def runFacts (ledger : List LedgerFact) (workflowRunId : String) : List WorkflowRunStatus :=
  ledger.filterMap fun row => row.fact.bind fun fact =>
    if fact.workflowRunId = workflowRunId then some fact.status else none

/-- The ends that the outbox announces for a run. -/
def announced (outbox : List EventBody) (workflowRunId : String) : List WorkflowRunStatus :=
  outbox.filterMap (·.finalStatus workflowRunId)

/-- The status that a transaction gives a run. -/
def statusChange (s s' : Store) (workflowRunId : String) : Option WorkflowRunStatus :=
  if s'.statusOf workflowRunId = s.statusOf workflowRunId then none else s'.statusOf workflowRunId

/-- The status changes of a run, in order. -/
def statusChanges (workflowRunId : String) (entries : List (Entry WorkflowSystem SystemAction)) :
    List WorkflowRunStatus :=
  entries.filterMap fun e => statusChange e.pre.store e.post.store workflowRunId

/-! ## Facts of the ledger -/

/-- Every run fact is of a processed event. -/
def Recorded (ledger : List LedgerFact) (processed : List EventId) : Prop :=
  ∀ row ∈ ledger, ∀ event r status step,
    row.sourceKey = workflowRunSourceKey event r status step → event ∈ processed

variable {s s' : WorkflowSystem} {ledger : List LedgerFact} {processed : List EventId}

theorem mem_appendTimelineEvent {event row : LedgerFact}
    (h : row ∈ appendTimelineEvent ledger event) : row ∈ ledger ∨ row = event := by
  rw [appendTimelineEvent] at h
  split at h
  · rcases List.mem_append.mp h with h | h
    · exact Or.inl h
    · exact Or.inr (List.mem_singleton.mp h)
  · exact Or.inl h

variable {event : EventId} {write : Option RunWrite}

theorem Recorded.isNewFact (h : Recorded ledger processed) (hevent : event ∉ processed)
    (write : RunWrite) :
    isNewFact ledger (write.timelineEvent event) = true := by
  rw [Gitops.isNewFact, Bool.not_eq_true', List.any_eq_false]
  intro row hrow hsame
  rw [Bool.and_eq_true, decide_eq_true_iff, decide_eq_true_iff] at hsame
  exact hevent (h row hrow _ _ _ _ hsame.2)

theorem Recorded.mono {processed' : List EventId} (h : Recorded ledger processed)
    (hsub : processed ⊆ processed') :
    Recorded ledger processed' :=
  fun row hrow event r status step hkey => hsub (h row hrow event r status step hkey)

theorem Recorded.append_other (h : Recorded ledger processed) {fact : LedgerFact}
    (hkey : ∀ event r status step, fact.sourceKey ≠ workflowRunSourceKey event r status step) :
    Recorded (appendTimelineEvent ledger fact) processed := by
  intro row hrow event r status step hrowKey
  rcases mem_appendTimelineEvent hrow with hrow | rfl
  · exact h row hrow event r status step hrowKey
  · exact absurd hrowKey (hkey event r status step)

theorem runFacts_append_other {fact : LedgerFact} (hfact : fact.fact = none) (r : String) :
    runFacts (appendTimelineEvent ledger fact) r = runFacts ledger r := by
  rw [appendTimelineEvent]
  split
  · rw [runFacts, List.filterMap_append]
    simp [runFacts, hfact]
  · rfl

theorem Recorded.append_steps (h : Recorded ledger processed) (event : EventId)
    (steps : List StepFact) :
    Recorded ((steps.map (StepFact.timelineEvent event)).foldl appendTimelineEvent ledger)
      processed := by
  induction steps generalizing ledger with
  | nil => exact h
  | cons step steps ih => exact ih (h.append_other fun _ _ _ _ => workflowStepSourceKey_ne)

theorem runFacts_append_steps (ledger : List LedgerFact) (event : EventId)
    (steps : List StepFact) (r : String) :
    runFacts ((steps.map (StepFact.timelineEvent event)).foldl appendTimelineEvent ledger) r =
      runFacts ledger r := by
  induction steps generalizing ledger with
  | nil => rfl
  | cons step steps ih =>
    rw [List.map_cons, List.foldl_cons, ih, runFacts_append_other]
    rfl

/-- What a write records. -/
def recordedBy (write : Option RunWrite) (r : String) : List WorkflowRunStatus :=
  match write with
  | none => []
  | some write => if write.run.workflowRunId = r then [write.status] else []

theorem runFacts_append_run {write : RunWrite}
    (hnew : isNewFact ledger (write.timelineEvent event) = true) (r : String) :
    runFacts (appendTimelineEvent ledger (write.timelineEvent event)) r =
      runFacts ledger r ++ recordedBy (some write) r := by
  rw [appendTimelineEvent, if_pos hnew, runFacts, List.filterMap_append]
  by_cases hr : write.run.workflowRunId = r
  · simp [runFacts, RunWrite.timelineEvent, recordedBy, hr]
  · simp [runFacts, RunWrite.timelineEvent, recordedBy, hr]

/-! ## One transaction -/

/-- A transaction moves the store, the ledger and the outbox by one write. -/
structure MovesTogether (s s' : WorkflowSystem) (write : Option RunWrite) : Prop where
  applied : ∀ w ∈ write, w.applies s.store = true
  runs : ∀ r, s'.store.runOf r = runAfter s.store write r
  facts : ∀ r, runFacts s'.ledger r = runFacts s.ledger r ++ recordedBy write r
  announcements : ∀ r, announced s'.outbox r = announced s.outbox r ++ announcedAfter write true r
  recorded : Recorded s'.ledger s'.processed

theorem MovesTogether.of_kept (hruns : ∀ r, s'.store.runOf r = s.store.runOf r)
    (hfacts : ∀ r, runFacts s'.ledger r = runFacts s.ledger r)
    (hannounced : ∀ r, announced s'.outbox r = announced s.outbox r)
    (hrecorded : Recorded s'.ledger s'.processed) : MovesTogether s s' none where
  applied := fun _ hw => by cases hw
  runs := hruns
  facts := fun r => (hfacts r).trans (List.append_nil _).symm
  announcements := fun r => (hannounced r).trans (List.append_nil _).symm
  recorded := hrecorded

/-- A transaction that is not due. -/
theorem MovesTogether.refl (h : Recorded s.ledger s.processed) :
    MovesTogether s s none :=
  MovesTogether.of_kept (fun _ => rfl) (fun _ => rfl) (fun _ => rfl) h

theorem announced_append (outbox bodies : List EventBody) (r : String) :
    announced (outbox ++ bodies) r = announced outbox r ++ announced bodies r :=
  List.filterMap_append

/-- What is no handler writes nothing to a run and asks for no fact. -/
theorem of_not_isHandler {s : Store} {action : Action} (h : ¬ action.isHandler = true) :
    appliedWrite naming s action = none ∧ ∀ inserted, action.withInserted inserted = action := by
  cases action with
  | render _ | desiredDiff _ _ | grant _ _ _ _ _ _ | reject _ _ _ _ _ | commandStore _ =>
    exact ⟨rfl, fun _ => rfl⟩
  | gitWebhook _ _ _ | gitChanged _ _ _ _ | manifestRendered _ _ | manifestInvalid _ _ _
  | diffDetected _ _ | diffAnalyzed _ _ _ _ _ | safePrFailed _ _ | approvalGranted _ _
  | approvalRejected _ _ | commandQueued _ _ _ | commandRejected _ _ _
  | commandCompleted _ _ _ => exact absurd rfl h

theorem Recorded.deliver (h : Recorded s.ledger s.processed) (hevent : event ∉ s.processed)
    (action : Action) :
    s.inserted naming event action = true ∧
      (∀ r, runFacts (s.appendRunFact naming event action) r =
        runFacts s.ledger r ++ recordedBy (appliedWrite naming s.store action) r) ∧
      Recorded (s.appendRunFact naming event action) (s.processed ++ [event]) := by
  rw [WorkflowSystem.inserted, WorkflowSystem.appendRunFact]
  rcases appliedWrite naming s.store action with _ | write
  · exact ⟨rfl, fun r => (List.append_nil _).symm, h.mono (List.subset_append_left _ _)⟩
  · have hnew := h.isNewFact hevent write
    refine ⟨hnew, runFacts_append_run hnew, ?_⟩
    intro row hrow event' r status step hkey
    rcases mem_appendTimelineEvent hrow with hrow | rfl
    · exact List.mem_append_left _ (h row hrow event' r status step hkey)
    · rw [← event_of_workflowRunSourceKey hkey]
      exact List.mem_append_right _ List.mem_cons_self

/-- **One delivery** moves store, ledger and outbox together. -/
theorem movesTogether_deliver (h : Recorded s.ledger s.processed) (event : EventId)
    (action : Action) (steps : List StepFact) (raises : Bool) :
    ∃ write, MovesTogether s (s.deliver naming event action steps raises) write := by
  rw [WorkflowSystem.deliver]
  by_cases hdue : (decide (event ∈ s.processed) || raises || !action.isHandler) = true
  · rw [if_pos hdue]
    exact ⟨none, MovesTogether.refl h⟩
  rw [if_neg hdue]
  have hevent : event ∉ s.processed := by
    intro hmem
    simp [hmem] at hdue
  obtain ⟨hinserted, hfacts, hrecorded⟩ := h.deliver naming hevent action
  rw [hinserted]
  rcases hhandle : handle naming s.store (action.withInserted true) with _ | ⟨bodies, store⟩
  · exact ⟨none, MovesTogether.refl h⟩
  have heffect := handle_effect naming s.store action hhandle
  refine ⟨appliedWrite naming s.store action, fun w hw => mem_appliedWrite naming hw,
    heffect.runs, fun r => ?_, fun r => ?_, hrecorded.append_steps event steps⟩
  · exact (runFacts_append_steps _ event steps r).trans (hfacts r)
  · exact (announced_append s.outbox bodies r).trans
      (congrArg (announced s.outbox r ++ ·) (heffect.announced r))

/-- **One transaction** moves store, ledger and outbox together. -/
theorem movesTogether_step (h : Recorded s.ledger s.processed) (action : SystemAction) :
    ∃ write, MovesTogether s (s.step naming action) write := by
  cases action with
  | deliver event action steps raises =>
    exact movesTogether_deliver naming h event action steps raises
  | elsewhere action =>
    rw [WorkflowSystem.step]
    by_cases hhandler : action.isHandler = true
    · rw [if_pos hhandler]
      exact ⟨none, MovesTogether.refl h⟩
    rw [if_neg hhandler]
    rcases hhandle : handle naming s.store action with _ | ⟨bodies, store⟩
    · exact ⟨none, MovesTogether.refl h⟩
    obtain ⟨hwrite, hinserted⟩ := of_not_isHandler naming (s := s.store) hhandler
    rw [← hinserted true] at hhandle
    have heffect := handle_effect naming s.store action hhandle
    rw [hwrite] at heffect
    refine ⟨none, MovesTogether.of_kept heffect.runs (fun _ => rfl) (fun r => ?_) h⟩
    exact ((announced_append s.outbox bodies r).trans
      (congrArg (announced s.outbox r ++ ·) (heffect.announced r))).trans (List.append_nil _)
  | append workspaceId source rest =>
    exact ⟨none, MovesTogether.of_kept (fun _ => rfl) (runFacts_append_other rfl) (fun _ => rfl)
      (h.append_other fun _ _ _ _ => otherSourceKey_ne)⟩

/-! ## Every run of the system -/

theorem MovesTogether.forward (h : MovesTogether s s' write) :
    Forward s.store s'.store :=
  forward_of_runs h.applied h.runs

theorem MovesTogether.recordedBy_eq (h : MovesTogether s s' write) (r : String) :
    recordedBy write r = (statusChange s.store s'.store r).toList := by
  cases write with
  | none =>
    have hsame : s'.store.statusOf r = s.store.statusOf r := by
      rw [statusOf_eq, statusOf_eq, h.runs]
      rfl
    rw [statusChange, if_pos hsame]
    rfl
  | some write =>
    by_cases hr : write.run.workflowRunId = r
    · subst hr
      have hafter : s'.store.statusOf write.run.workflowRunId = some write.status := by
        rw [statusOf_eq, h.runs, runAfter, if_pos rfl]
        cases s.store.runOf write.run.workflowRunId <;> rfl
      have hchanged : s'.store.statusOf write.run.workflowRunId ≠
          s.store.statusOf write.run.workflowRunId := by
        rw [hafter, statusOf_eq]
        rcases hrow : s.store.runOf write.run.workflowRunId with _ | row
        · exact Option.some_ne_none _
        · exact fun hsame => (guard_of_applies (h.applied write rfl) hrow).2.2
            (Option.some.inj hsame).symm
      rw [statusChange, if_neg hchanged, hafter, recordedBy, if_pos rfl]
      rfl
    · have hsame : s'.store.statusOf r = s.store.statusOf r := by
        rw [statusOf_eq, statusOf_eq, h.runs, runAfter, if_neg (Ne.symm hr)]
      rw [statusChange, if_pos hsame, recordedBy, if_neg hr]
      rfl

/-- The ends that the outbox must announce for a stored status. -/
def endOf (status : Option WorkflowRunStatus) : List WorkflowRunStatus :=
  (status.filter WorkflowRunStatus.isTerminal).toList

theorem MovesTogether.announced_eq (h : MovesTogether s s' write) {r : String}
    (hs : announced s.outbox r = endOf (s.store.statusOf r)) :
    announced s'.outbox r = endOf (s'.store.statusOf r) := by
  rw [h.announcements, hs, statusOf_eq, statusOf_eq, h.runs]
  cases write with
  | none => exact List.append_nil _
  | some write =>
    rw [runAfter, announcedAfter]
    by_cases hr : r = write.run.workflowRunId
    · subst hr
      -- the run was not finished before, so nothing was announced yet
      have hbefore : endOf ((s.store.runOf write.run.workflowRunId).map WorkflowRun.status) =
          [] := by
        rcases hrow : s.store.runOf write.run.workflowRunId with _ | row
        · rfl
        · have hlive := (guard_of_applies (h.applied write rfl) hrow).1
          rw [endOf, Option.map_some, Option.filter_some, hlive, if_neg Bool.false_ne_true]
          rfl
      have hresult : (write.result (s.store.runOf write.run.workflowRunId)).status =
          write.status := by
        cases s.store.runOf write.run.workflowRunId <;> rfl
      rw [hbefore, if_pos rfl, List.nil_append, endOf, Option.map_some, hresult,
        Option.filter_some]
      rcases hterminal : write.status.isTerminal with _ | _
      · simp
      · simp
    · rw [if_neg hr]
      simp [Ne.symm hr]

/-- **What holds of every run of the system.** -/
structure WorkflowLaw (actions : List SystemAction) : Prop where
  /-- every transaction moves the runs forward -/
  forward : ∀ e ∈ trace (WorkflowSystem.step naming) .empty actions,
    Forward e.pre.store e.post.store
  /-- the ledger has one run fact for each status change of a run, and no other -/
  facts : ∀ r, runFacts (run (WorkflowSystem.step naming) .empty actions).ledger r =
    statusChanges r (trace (WorkflowSystem.step naming) .empty actions)
  /-- the outbox announces one end for each finished run, and no other -/
  ends : ∀ r, announced (run (WorkflowSystem.step naming) .empty actions).outbox r =
    endOf ((run (WorkflowSystem.step naming) .empty actions).store.statusOf r)

/-- What the transactions so far have left. -/
structure Tracked (entries : List (Entry WorkflowSystem SystemAction)) (s : WorkflowSystem) :
    Prop where
  recorded : Recorded s.ledger s.processed
  facts : ∀ r, runFacts s.ledger r = statusChanges r entries
  ends : ∀ r, announced s.outbox r = endOf (s.store.statusOf r)

theorem Tracked.step {entries : List (Entry WorkflowSystem SystemAction)} (h : Tracked entries s)
    (action : SystemAction) :
    Tracked (entries ++ [⟨s, action, s.step naming action⟩]) (s.step naming action) := by
  obtain ⟨write, hmoves⟩ := movesTogether_step naming h.recorded action
  refine ⟨hmoves.recorded, fun r => ?_, fun r => hmoves.announced_eq (h.ends r)⟩
  rw [hmoves.facts, h.facts, hmoves.recordedBy_eq, statusChanges, statusChanges,
    List.filterMap_append]
  rcases hchange : statusChange s.store (s.step naming action).store r with _ | status
  · simp [hchange]
  · simp [hchange]

/-- **Runs only move forward and end once**: in every run of the system the rank of a stored
status never falls, a finished run keeps everything but its `command_id`, the ledger has one
run fact for each status change, and the outbox announces exactly the end of each finished
run. -/
theorem run_workflowLaw (actions : List SystemAction) : WorkflowLaw naming actions := by
  have hempty : Recorded WorkflowSystem.empty.ledger WorkflowSystem.empty.processed :=
    fun row hrow => absurd hrow List.not_mem_nil
  have hstep : ∀ (s : WorkflowSystem) a, Recorded s.ledger s.processed →
      Recorded (s.step naming a).ledger (s.step naming a).processed := by
    intro s a hs
    obtain ⟨write, hmoves⟩ := movesTogether_step naming hs a
    exact hmoves.recorded
  have htracked := run_history_invariant (P := Tracked) (fun _ s a hs => hs.step naming a)
    ⟨hempty, fun _ => rfl, fun _ => rfl⟩ actions
  refine ⟨fun e he => ?_, htracked.facts, htracked.ends⟩
  obtain ⟨hpre, hpost⟩ := trace_invariant hstep hempty e he
  obtain ⟨write, hmoves⟩ := movesTogether_step naming hpre e.action
  rw [hpost]
  exact hmoves.forward

/-! ## The command of a failed run -/

/-- A run that a rejected command has failed. -/
def failedRun : List SystemAction :=
  [.deliver ⟨"e1", by decide⟩ (.gitWebhook shopRun none true) [] false,
    .deliver ⟨"e2", by decide⟩ (.commandRejected shopRun none true) [] false]

/-- The command of another resource of the commit is queued. -/
def lateCommand : SystemAction :=
  .deliver ⟨"e3", by decide⟩ (.commandQueued shopRun "command-2" true) [] false

/-- **A failed run is changed**: `attach_workflow_command` writes the id of a command that is
queued later into its row. -/
theorem finished_run_is_changed :
    ¬ ∀ (naming : Naming) (actions : List SystemAction),
      ∀ e ∈ trace (WorkflowSystem.step naming) .empty actions, ∀ r row,
        e.pre.store.runs.find? r = some row → row.status.isTerminal = true →
          e.post.store.runs.find? r = some row := by
  intro h
  have hkept := h plainNaming (failedRun ++ lateCommand :: []) _
    (step_mem_trace WorkflowSystem.empty failedRun lateCommand []) "run-1"
    ⟨"run-1", "ws", "shop", "binding-1", "prod", "c1", "abc", .failed, none⟩
    (by decide +kernel) rfl
  exact absurd hkept (by decide +kernel)

end Opsia.Gitops
