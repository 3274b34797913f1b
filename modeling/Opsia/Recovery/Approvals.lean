import Opsia.Recovery.Reads

/-!
# The approval of an attempt

A created pull request is compared with the approval that the worker reads back for the
plan. `approvalIsCurrent` asks that it is the approval of the attempt that the plan stores:
it describes the candidate that was dispatched for the attempt, and a pull request created
as dispatched is tracked.

An approval is stored as granted, which no later request replaces, and the worker looks it
up by the plan and the action, while an operator retry stores its approval by the attempt
too. So the approval of the first selection of an action is the one that is read for all of
its attempts (`reselection_is_rejected`). `run_approvals_current` is about the runs in which
every selection finds its approval missing or equal (`keepsApprovals`).
-/

namespace Opsia.Recovery

open RecoveryState

variable (env : RecoveryEnv)

/-! ## The property -/

/-- The candidate of the approval is the one that was dispatched. -/
def RecoveryApproval.describes (approval : RecoveryApproval) (dispatched : RecoveryActionCandidate) :
    Bool :=
  candidateWithApprovalIdentity approval.selectedCandidate approval.workflowRunId = dispatched

/-- The candidate was dispatched for the attempt that the row stores. -/
def RecoveryState.Dispatched (s : RecoveryState) (record : RecoveryPlanRecord)
    (dispatched : RecoveryActionCandidate) : Prop :=
  ∃ attempt, record.lifecycle.attempt = some attempt ∧
    .actionSelected record.planId (some attempt.id) dispatched ∈ s.outbox

/-- The candidates that were dispatched for the attempt that the row stores. -/
def RecoveryState.dispatchedFor (s : RecoveryState) (record : RecoveryPlanRecord) :
    List RecoveryActionCandidate :=
  s.outbox.filterMap fun event => match event with
    | .actionSelected planId (some id) dispatched =>
      if planId = record.planId ∧ record.lifecycle.attempt.map RecoveryAttempt.id = some id then
        some dispatched
      else none
    | _ => none

/-- The approval that `on_recovery_safe_pr_created` reads is that of the attempt of the row,
and a pull request created as dispatched for the stored attempt is tracked. -/
def approvalIsCurrent (e : Runs.Entry RecoveryState RecoveryAction) : Bool :=
  match e.action with
  | .receiveCreatedPr h _ =>
    match e.post.work? h with
    | some (.createdPr _ record approval) =>
      (e.pre.dispatchedFor record).all fun dispatched => approval.any (·.describes dispatched)
    | _ => true
  | .trackCreatedPr h _ _ =>
    match e.pre.work? h with
    | some (.createdPr event record _) =>
      e.pre.plans.find? record.planId ≠ some record ||
        (e.pre.dispatchedFor record).all fun dispatched =>
          !(event.wellFormed && event.asApproved dispatched.draft.params) ||
            (e.post.plans.find? record.planId).map RecoveryPlanRecord.status = some .prOpen
    | _ => true
  | _ => true

/-! ## The condition -/

/-- A selection that goes through stores its approval where the worker looks for it, and
finds none there, or one that describes the candidate that it dispatches; so does a retry
without storing one there. -/
def keepsApprovals (s : RecoveryState) : RecoveryAction → Bool
  | .select h actionId params selectedBy reason _ =>
    match s.work? h with
    | some (.plan record) =>
      let planId := record.plan.planId
      !(s.plans.find? planId).any (fun row => row.status.isOpen) ||
        (approvedSelection env record.plan actionId params).all fun selected =>
          let approval := selectionApproval env record.plan selected selectedBy reason
          let stored := (s.approvals.find? approval.approvalId).getD approval
          PyText.strip planId ≠ "" && PyText.strip selected.actionId ≠ "" &&
            env.recoveryApprovalId (PyText.strip planId) (PyText.strip selected.actionId) =
              approval.approvalId &&
            stored.workspaceId = env.workspaceId &&
            stored.describes (candidateWithApprovalIdentity selected approval.workflowRunId)
    | _ => true
  | .reselect h _ =>
    match s.work? h with
    | some (.reselect record selected _ _ _) =>
      (s.plans.find? record.planId).all fun row =>
        row.status ≠ .failed ||
          (recoveryApprovalRecord env s.approvals row).any (·.describes selected)
    | _ => true
  | _ => true

variable {env} {s : RecoveryState} {a : RecoveryAction}

/-! ## Attempts -/

variable {dispatched : RecoveryActionCandidate} {record row : RecoveryPlanRecord}
  {id planId : String} {events : List RecoveryEvent}

theorem mem_dispatchedFor :
    dispatched ∈ s.dispatchedFor record ↔ s.Dispatched record dispatched := by
  rw [dispatchedFor, List.mem_filterMap, Dispatched]
  constructor
  · rintro ⟨event, hevent, hsome⟩
    split at hsome
    · rename_i planId id selected
      obtain ⟨⟨rfl, hid⟩, hselected⟩ := Option.ite_none_right_eq_some.mp hsome
      obtain rfl := Option.some.inj hselected
      obtain ⟨attempt, hattempt, rfl⟩ := Option.map_eq_some_iff.mp hid
      exact ⟨attempt, hattempt, hevent⟩
    · cases hsome
  · rintro ⟨attempt, hattempt, hevent⟩
    refine ⟨_, hevent, ?_⟩
    rw [hattempt]
    exact if_pos ⟨rfl, rfl⟩

theorem attemptId_injective (env : RecoveryEnv) : Function.Injective (attemptId env) := by
  intro m n h
  have hchars := congrArg String.toList h
  simp only [attemptId, String.toList_append, List.append_cancel_left_eq] at hchars
  exact env.uuid_injective (String.toList_inj.mp hchars)

variable (env) in
/-- The identity of an attempt that an earlier transaction has stored. -/
def RecoveryState.Issued (s : RecoveryState) (id : String) : Prop :=
  ∃ n < s.xid, id = attemptId env n

theorem RecoveryState.Issued.step (h : s.Issued env id) (a : RecoveryAction) :
    (step env s a).Issued env id := by
  obtain ⟨n, hn, hid⟩ := h
  exact ⟨n, hn.trans_le (xid_le_step env s a), hid⟩

/-- The next identity is a new one. -/
theorem RecoveryState.Issued.ne (h : s.Issued env id) : id ≠ attemptId env s.xid := by
  obtain ⟨n, hn, rfl⟩ := h
  intro hid
  have := attemptId_injective env hid
  omega

theorem LifecycleWrite.attempt {expected status : RecoveryPlanStatus} {lifecycle : Lifecycle}
    (h : LifecycleWrite env s a record expected status lifecycle events) :
    lifecycle.attempt = record.lifecycle.attempt ∨
      lifecycle.attempt.map RecoveryAttempt.id = some (attemptId env s.xid) := by
  cases h with
  | reselected => exact Or.inr rfl
  | merged _ _ _ _ _ _ _ _ _ _ _ hdecision =>
    obtain ⟨-, target, pr, replicas, -, -, -, rfl⟩ := record_of_merge hdecision
    exact Or.inl rfl
  | redeployed _ _ _ _ _ _ _ _ _ hdecision =>
    obtain ⟨merge, -, -, rfl⟩ := merge_of_deploy hdecision
    exact Or.inl rfl
  | reverified _ _ _ _ _ _ _ _ hdecision =>
    obtain ⟨workflowRunId, rfl⟩ := lifecycle_of_verification hdecision
    exact Or.inl rfl
  | _ => exact Or.inl rfl

theorem Writes.attempt (h : Writes env s a row) {attempt : RecoveryAttempt}
    (hattempt : row.lifecycle.attempt = some attempt) :
    (∃ record, s.Sees record ∧ record.lifecycle.attempt = some attempt) ∨
      (attempt.id = attemptId env s.xid ∧ (step env s a).xid = s.xid + 1) := by
  cases h with
  | expired before hrow now hstatus hexpired hxid =>
    subst hexpired
    exact Or.inl ⟨before, Or.inl hrow, hattempt⟩
  | changed events hchange hplans houtbox hxid =>
    generalize hbefore : s.plans.find? row.planId = before at hchange
    cases hchange with
    | planned _ _ _ _ _ _ _ _ _ _ hlifecycle =>
      rw [hlifecycle] at hattempt
      cases hattempt
    | touched old => exact Or.inl ⟨old, Or.inl (Table.mem_of_find? hbefore), hattempt⟩
    | selected =>
      obtain rfl := Option.some.inj hattempt
      exact Or.inr ⟨rfl, hxid⟩
    | reopened old => exact Or.inl ⟨old, Or.inl (Table.mem_of_find? hbefore), hattempt⟩
    | written old record expected status lifecycle _ now hwrite =>
      rcases hwrite.attempt with hold | hnew
      · exact Or.inl ⟨record, hwrite.sees, hold ▸ hattempt⟩
      · change lifecycle.attempt = some attempt at hattempt
        rw [hattempt, Option.map_some] at hnew
        exact Or.inr ⟨Option.some.inj hnew, hxid⟩

theorem Change.attempt_of_mem {before : Option RecoveryPlanRecord} {after : RecoveryPlanRecord}
    (h : Change env s a before after events)
    (hevent : .actionSelected planId (some id) dispatched ∈ events) : id = attemptId env s.xid := by
  cases h with
  | planned _ _ _ _ _ _ _ _ _ hstatus =>
    rcases hstatus with ⟨-, rfl⟩ | ⟨candidate, -, -, rfl⟩ <;> simp at hevent
  | touched _ _ _ _ _ _ _ hevents =>
    rcases hevents with rfl | ⟨candidate, rfl⟩ <;> simp at hevent
  | selected =>
    simp only [List.mem_singleton, RecoveryEvent.actionSelected.injEq, Option.some.injEq] at hevent
    exact hevent.2.1
  | reopened => simp at hevent
  | written _ _ _ _ _ _ _ hwrite =>
    cases hwrite with
    | reselected =>
      simp only [List.mem_cons, reduceCtorEq, RecoveryEvent.actionSelected.injEq,
        Option.some.injEq, List.not_mem_nil, or_false, false_or] at hevent
      exact hevent.2.1
    | judged h alerts writtenAt window now record records decision =>
      rw [decisionEvents] at hevent
      cases hdecision : decision.status <;> rw [hdecision] at hevent <;> simp at hevent
    | _ => simp at hevent

theorem dispatched_of_step
    (h : .actionSelected planId (some id) dispatched ∈ (step env s a).outbox) :
    .actionSelected planId (some id) dispatched ∈ s.outbox ∨
      (id = attemptId env s.xid ∧ (step env s a).xid = s.xid + 1) := by
  cases step_effect env s a with
  | quiet hplans houtbox hxid => exact Or.inl (houtbox ▸ h)
  | wrote after events hchange hplans houtbox hxid =>
    rw [houtbox] at h
    rcases List.mem_append.mp h with h | h
    · exact Or.inl h
    · exact Or.inr ⟨hchange.attempt_of_mem h, hxid⟩
  | expired locked limit now ha hnext =>
    rw [hnext] at h
    rcases List.mem_append.mp h with h | h
    · exact Or.inl h
    · obtain ⟨row, -, hrow⟩ := List.mem_map.mp h
      cases hrow

theorem dispatched_before
    (hissued : ∀ attempt, record.lifecycle.attempt = some attempt → s.Issued env attempt.id)
    (h : (step env s a).Dispatched record dispatched) :
    s.Dispatched record dispatched := by
  obtain ⟨attempt, hattempt, hevent⟩ := h
  rcases dispatched_of_step hevent with hevent | ⟨hid, -⟩
  · exact ⟨attempt, hattempt, hevent⟩
  · exact absurd hid (hissued attempt hattempt).ne

/-! ## Stored approvals -/

theorem requestWorkflowApproval_eq {approvals : RecoveryApprovals}
    (hgranted : ∀ stored ∈ approvals.rows, stored.status = .granted) (approval : RecoveryApproval) :
    requestWorkflowApproval approvals approval = approvals.insertIfAbsent approval := by
  rw [requestWorkflowApproval, Table.insertIfAbsent]
  rcases hfind : approvals.find? approval.approvalId with _ | stored
  · obtain ⟨inserted, hinsert⟩ := Table.insert?_of_none hfind
    dsimp only
    rw [Table.put, hinsert, Option.getD_some, Option.getD_some]
  · have hclosed : stored.status.isOpen = false := by
      rw [hgranted stored (Table.mem_of_find? hfind)]
      rfl
    have hinsert : approvals.insert? approval = none := by
      rcases hi : approvals.insert? approval with _ | inserted
      · rfl
      · rw [(Table.insert?_eq_some hi).1] at hfind
        cases hfind
    dsimp only
    rw [hclosed, hinsert, if_neg Bool.false_ne_true, Option.getD_none]

theorem approvals_step (env : RecoveryEnv) (s : RecoveryState) (a : RecoveryAction) :
    (step env s a).approvals = s.approvals ∨ ∃ approval, approval.status = .granted ∧
      (step env s a).approvals = requestWorkflowApproval s.approvals approval := by
  cases step_turnover env s a with
  | same hrest | finished _ hrest | began _ _ _ hrest | told _ _ hrest | startedRun _ _ hrest
  | movedRun _ _ _ _ _ _ hrest | dropped _ _ hrest | answered _ _ _ _ _ _ hrest =>
    exact Or.inl hrest.approvals
  | approved _ approval hgranted hrest | reapproved _ _ _ approval hgranted hrest =>
    exact Or.inr ⟨approval, hgranted, hrest.approvals⟩

theorem find?_approvals_step (hgranted : ∀ stored ∈ s.approvals.rows, stored.status = .granted)
    (a : RecoveryAction) {stored : RecoveryApproval} (h : s.approvals.find? id = some stored) :
    (step env s a).approvals.find? id = some stored := by
  rcases approvals_step env s a with hsame | ⟨approval, -, hrequest⟩
  · rw [hsame, h]
  · rw [hrequest, requestWorkflowApproval_eq hgranted, Table.find?_insertIfAbsent, h]
    simp

theorem granted_step (hgranted : ∀ stored ∈ s.approvals.rows, stored.status = .granted)
    (a : RecoveryAction) :
    ∀ stored ∈ (step env s a).approvals.rows, stored.status = .granted := by
  intro stored hstored
  rcases approvals_step env s a with hsame | ⟨approval, happroval, hrequest⟩
  · exact hgranted stored (hsame ▸ hstored)
  · rw [hrequest, requestWorkflowApproval_eq hgranted] at hstored
    rcases Table.mem_insertIfAbsent hstored with hstored | rfl
    · exact hgranted stored hstored
    · exact happroval

theorem recoveryApprovalRecord_eq_some {approvals : RecoveryApprovals} {stored : RecoveryApproval} :
    recoveryApprovalRecord env approvals row = some stored ↔
      PyText.strip row.planId ≠ "" ∧ PyText.strip (row.selectedActionId.getD "") ≠ "" ∧
        approvals.find? (env.recoveryApprovalId (PyText.strip row.planId)
          (PyText.strip (row.selectedActionId.getD ""))) = some stored ∧
        stored.workspaceId = env.workspaceId := by
  simp [recoveryApprovalRecord, getWorkflowApproval, Option.filter_eq_some_iff, and_assoc]

/-- The worker keeps finding the approval that it finds. -/
theorem recoveryApprovalRecord_step
    (hgranted : ∀ stored ∈ s.approvals.rows, stored.status = .granted) (a : RecoveryAction)
    {p : RecoveryApproval → Bool} (h : (recoveryApprovalRecord env s.approvals row).any p = true) :
    (recoveryApprovalRecord env (step env s a).approvals row).any p = true := by
  obtain ⟨stored, hstored, hp⟩ := (Option.any_eq_true p _).mp h
  obtain ⟨hplanId, hactionId, hfind, hworkspace⟩ := recoveryApprovalRecord_eq_some.mp hstored
  rw [recoveryApprovalRecord_eq_some.mpr
    ⟨hplanId, hactionId, find?_approvals_step hgranted a hfind, hworkspace⟩]
  exact hp

/-! ## The invariant -/

variable (env) in
/-- Attempts are numbered by transactions, and the approval that the worker finds for a
selected row, or has found, is that of its attempt. -/
structure ApprovalLaw (s : RecoveryState) : Prop where
  granted : ∀ stored ∈ s.approvals.rows, stored.status = .granted
  dispatched : ∀ planId id dispatched,
    .actionSelected planId (some id) dispatched ∈ s.outbox → s.Issued env id
  attempt : ∀ record attempt, s.Sees record → record.lifecycle.attempt = some attempt →
    s.Issued env attempt.id
  current : ∀ row ∈ s.plans.rows, row.status = .selected → ∀ dispatched,
    s.Dispatched row dispatched →
      (recoveryApprovalRecord env s.approvals row).any (·.describes dispatched) = true
  held : ∀ h event record approval, s.work? h = some (.createdPr event record approval) →
    record.status = .selected ∧ (selectedRecoveryCandidate record).isSome = true ∧
      ∀ dispatched, s.Dispatched record dispatched → approval.any (·.describes dispatched) = true

theorem approvalLaw_empty (env : RecoveryEnv) : ApprovalLaw env .empty where
  granted _ h := absurd h List.not_mem_nil
  dispatched _ _ _ h := absurd h List.not_mem_nil
  attempt record _ h _ := by
    rcases h with h | ⟨i, work, h, -⟩
    · exact absurd h List.not_mem_nil
    · cases h
  current _ h := absurd h List.not_mem_nil
  held _ _ _ _ h := by cases h

theorem dispatched_step (hlaw : ApprovalLaw env s) (a : RecoveryAction)
    (h : .actionSelected planId (some id) dispatched ∈ (step env s a).outbox) :
    (step env s a).Issued env id := by
  rcases dispatched_of_step h with h | ⟨hid, hxid⟩
  · exact (hlaw.dispatched planId id dispatched h).step a
  · exact ⟨s.xid, hxid ▸ Nat.lt_succ_self s.xid, hid⟩

theorem attempt_step (hlaw : ApprovalLaw env s) (a : RecoveryAction) {attempt : RecoveryAttempt}
    (h : (step env s a).Sees record) (hattempt : record.lifecycle.attempt = some attempt) :
    (step env s a).Issued env attempt.id := by
  rcases sees_step h with h | ⟨-, hwrites⟩
  · exact (hlaw.attempt record attempt h hattempt).step a
  · rcases hwrites.attempt hattempt with ⟨before, hbefore, hattempt⟩ | ⟨hid, hxid⟩
    · exact (hlaw.attempt before attempt hbefore hattempt).step a
    · exact ⟨s.xid, hxid ▸ Nat.lt_succ_self s.xid, hid⟩

theorem current_of_seen (hlaw : ApprovalLaw env s) (hrow : row ∈ s.plans.rows)
    (hstatus : row.status = .selected) (h : (step env s a).Dispatched row dispatched) :
    (recoveryApprovalRecord env (step env s a).approvals row).any (·.describes dispatched) =
      true := by
  have hbefore := dispatched_before (fun attempt => hlaw.attempt row attempt (Or.inl hrow)) h
  exact recoveryApprovalRecord_step hlaw.granted a (hlaw.current row hrow hstatus dispatched hbefore)

theorem dispatched_of_new (hlaw : ApprovalLaw env s)
    (houtbox : (step env s a).outbox = s.outbox ++ events)
    (h : .actionSelected planId (some (attemptId env s.xid)) dispatched ∈
      (step env s a).outbox) :
    .actionSelected planId (some (attemptId env s.xid)) dispatched ∈ events := by
  rw [houtbox] at h
  rcases List.mem_append.mp h with h | h
  · exact absurd rfl (hlaw.dispatched _ _ _ h).ne
  · exact h

theorem keepsApprovals_select {h : ℕ} {actionId : Option String} {params : Json}
    {selectedBy : String} {reason : Option String} {now : ℤ} {selected : RecoveryActionCandidate}
    (hwork : s.work? h = some (.plan record)) (hrow : s.plans.find? record.plan.planId = some row)
    (hopen : row.status = .selectionRequested)
    (hselected : approvedSelection env record.plan actionId params = some selected)
    (hok : keepsApprovals env s (.select h actionId params selectedBy reason now) = true) :
    let approval := selectionApproval env record.plan selected selectedBy reason
    let stored := (s.approvals.find? approval.approvalId).getD approval
    PyText.strip record.plan.planId ≠ "" ∧ PyText.strip selected.actionId ≠ "" ∧
      env.recoveryApprovalId (PyText.strip record.plan.planId) (PyText.strip selected.actionId) =
        approval.approvalId ∧
      stored.workspaceId = env.workspaceId ∧
      stored.describes (candidateWithApprovalIdentity selected approval.workflowRunId) = true := by
  have hisOpen : row.status.isOpen = true := by
    rw [hopen]
    rfl
  simpa [keepsApprovals, hwork, hrow, hisOpen, hselected, and_assoc] using hok

theorem current_of_selected (hlaw : ApprovalLaw env s) {h : ℕ} {actionId : Option String}
    {params : Json} {selectedBy : String} {reason : Option String} {now : ℤ}
    {selected : RecoveryActionCandidate} (hwork : s.work? h = some (.plan record))
    (hrow : s.plans.find? record.plan.planId = some row) (hopen : row.status = .selectionRequested)
    (hselected : approvedSelection env record.plan actionId params = some selected)
    (hok : keepsApprovals env s (.select h actionId params selectedBy reason now) = true)
    (happrovals : (step env s a).approvals = requestWorkflowApproval s.approvals
      (selectionApproval env record.plan selected selectedBy reason)) (tx : Transaction)
    (id : String) :
    (recoveryApprovalRecord env (step env s a).approvals
      (row.withAttempt tx id selected.actionId selectedBy)).any
        (·.describes (candidateWithApprovalIdentity selected
          (selectionApproval env record.plan selected selectedBy reason).workflowRunId)) = true := by
  obtain ⟨hplanId, hactionId, hid, hworkspace, hdescribes⟩ :=
    keepsApprovals_select hwork hrow hopen hselected hok
  have hkey : row.planId = record.plan.planId := Table.key_of_find? hrow
  have hread : recoveryApprovalRecord env (step env s a).approvals
      (row.withAttempt tx id selected.actionId selectedBy) =
        some ((s.approvals.find?
          (selectionApproval env record.plan selected selectedBy reason).approvalId).getD
            (selectionApproval env record.plan selected selectedBy reason)) := by
    refine recoveryApprovalRecord_eq_some.mpr ⟨?_, hactionId, ?_, hworkspace⟩
    · change PyText.strip row.planId ≠ ""
      rw [hkey]
      exact hplanId
    · change (step env s a).approvals.find? (env.recoveryApprovalId (PyText.strip row.planId)
        (PyText.strip selected.actionId)) = _
      rw [hkey, hid, happrovals, requestWorkflowApproval_eq hlaw.granted,
        Table.find?_insertIfAbsent, if_pos rfl]
  rw [hread]
  exact hdescribes

theorem current_of_writes (hlaw : ApprovalLaw env s) (hok : keepsApprovals env s a = true)
    (hwrites : Writes env s a row) (hstatus : row.status = .selected)
    (h : (step env s a).Dispatched row dispatched) :
    (recoveryApprovalRecord env (step env s a).approvals row).any (·.describes dispatched) =
      true := by
  cases hwrites with
  | expired before hrow now _ hexpired hxid =>
    subst hexpired
    cases hstatus
  | changed events hchange hplans houtbox hxid =>
    generalize hbefore : s.plans.find? row.planId = before at hchange
    cases hchange with
    | planned _ _ _ _ _ _ _ _ _ _ hlifecycle =>
      obtain ⟨attempt, hattempt, -⟩ := h
      rw [hlifecycle] at hattempt
      cases hattempt
    | touched old => exact (current_of_seen hlaw (Table.mem_of_find? hbefore) hstatus h :)
    | selected i actionId params selectedBy reason now record old candidate ha hwork hkey hopen
        hcandidate happrovals =>
      obtain ⟨attempt, hattempt, hevent⟩ := h
      obtain rfl := Option.some.inj hattempt
      have hnew := dispatched_of_new hlaw houtbox hevent
      simp only [List.mem_singleton, RecoveryEvent.actionSelected.injEq] at hnew
      obtain ⟨-, -, rfl⟩ := hnew
      subst ha
      exact current_of_selected hlaw hwork (hkey ▸ hbefore) hopen hcandidate hok happrovals _ _
    | reopened => cases hstatus
    | written old record expected status lifecycle _ now hwrite hkey hexpected =>
      cases hwrite with
      | reselected i writtenAt _ selected requestedBy reason now hwork =>
        obtain ⟨attempt, hattempt, hevent⟩ := h
        obtain rfl := Option.some.inj hattempt
        have hnew := dispatched_of_new hlaw houtbox hevent
        simp only [List.mem_cons, reduceCtorEq, RecoveryEvent.actionSelected.injEq,
          List.not_mem_nil, or_false, false_or] at hnew
        obtain ⟨-, -, rfl⟩ := hnew
        have hread : (recoveryApprovalRecord env s.approvals old).any (·.describes dispatched) =
            true := by
          have hfind : s.plans.find? record.planId = some old := hkey ▸ hbefore
          simpa [keepsApprovals, hwork, hfind, hexpected] using hok
        exact recoveryApprovalRecord_step hlaw.granted _ hread
      | judged _ _ _ _ _ _ _ decision =>
        change decision.status.planStatus = _ at hstatus
        cases hdecision : decision.status <;> rw [hdecision] at hstatus <;> cases hstatus
      | _ => cases hstatus

theorem held_step (hlaw : ApprovalLaw env s) (a : RecoveryAction) {h : ℕ} {event : SafePrCreated}
    {approval : Option RecoveryApproval}
    (hwork : (step env s a).work? h = some (.createdPr event record approval)) :
    record.status = .selected ∧ (selectedRecoveryCandidate record).isSome = true ∧
      ∀ dispatched, (step env s a).Dispatched record dispatched →
        approval.any (·.describes dispatched) = true := by
  rcases work_of_step hwork with hwork | hbegins
  · obtain ⟨hstatus, hselected, hdescribes⟩ := hlaw.held h event record approval hwork
    refine ⟨hstatus, hselected, fun dispatched hdispatched => ?_⟩
    have hsees : s.Sees record := Or.inr ⟨h, _, hwork, List.mem_singleton_self record⟩
    exact hdescribes dispatched
      (dispatched_before (fun attempt => hlaw.attempt record attempt hsees) hdispatched)
  · cases hbegins with
    | createdPr _ _ _ selected hquery hselected hstatus =>
      have hrow : record ∈ s.plans.rows := PlanQuery.mem_of_run hquery
      refine ⟨hstatus, hselected ▸ rfl, fun dispatched hdispatched => ?_⟩
      exact hlaw.current record hrow hstatus dispatched
        (dispatched_before (fun attempt => hlaw.attempt record attempt (Or.inl hrow)) hdispatched)

theorem approvalLaw_step (s : RecoveryState) (a : RecoveryAction) (hlaw : ApprovalLaw env s)
    (hok : keepsApprovals env s a = true) : ApprovalLaw env (step env s a) where
  granted := granted_step hlaw.granted a
  dispatched _ _ _ h := dispatched_step hlaw a h
  attempt _ _ h hattempt := attempt_step hlaw a h hattempt
  current row hrow hstatus dispatched h := by
    rcases row_of_step hrow with hrow | hwrites
    · exact current_of_seen hlaw hrow hstatus h
    · exact current_of_writes hlaw hok hwrites hstatus h
  held _ _ _ _ hwork := held_step hlaw a hwork

/-! ## Tracking -/

theorem lookup_setParam {fields : List (String × Json)} {field other : String} (h : other ≠ field)
    (value : Json) :
    ((fields.filter fun entry => entry.1 ≠ field) ++ [(field, value)]).lookup other =
      fields.lookup other := by
  induction fields with
  | nil => simp [h]
  | cons entry fields ih =>
    obtain ⟨key, old⟩ := entry
    by_cases hkey : key = field
    · have hother : (other == key) = false := by simpa [hkey] using h
      rw [List.filter_cons_of_neg (by simpa using hkey), ih, List.lookup_cons, hother]
    · rw [List.filter_cons_of_pos (by simpa using hkey), List.cons_append, List.lookup_cons,
        List.lookup_cons, ih]

theorem get?_setParam {field other : String} (h : other ≠ field) (params value : Json) :
    (setParam params field value).get? other = params.get? other := by
  cases params with
  | obj fields => exact lookup_setParam h value
  | _ => rfl

theorem asApproved_of_describes {approval : RecoveryApproval}
    (h : approval.describes dispatched = true) (event : SafePrCreated) :
    event.asApproved approval.selectedCandidate.draft.params =
      event.asApproved dispatched.draft.params := by
  have hparams : ∀ field, field ≠ "workflow_run_id" →
      approval.selectedCandidate.draft.params.get? field = dispatched.draft.params.get? field := by
    intro field hfield
    rw [← of_decide_eq_true h, candidateWithApprovalIdentity]
    split
    · rfl
    · exact (get?_setParam hfield _ _).symm
  simp only [SafePrCreated.asApproved]
  rw [hparams _ (by decide), hparams _ (by decide), hparams _ (by decide), hparams _ (by decide),
    hparams _ (by decide), hparams _ (by decide)]

theorem track_of_identity {h : ℕ} {collected : Json} {now : ℤ} {event : SafePrCreated}
    {approval : Option RecoveryApproval}
    (hwork : s.work? h = some (.createdPr event record approval))
    (hrow : s.plans.find? record.planId = some record) (hstatus : record.status = .selected)
    (hselected : (selectedRecoveryCandidate record).isSome = true)
    (hidentity : safePrIdentityError event (selectedCandidateParams approval) = none) :
    ((step env s (.trackCreatedPr h collected now)).plans.find? record.planId).map
      RecoveryPlanRecord.status = some .prOpen := by
  obtain ⟨selected, hselected⟩ := Option.isSome_iff_exists.mp hselected
  rcases update_cases (s.finish h) now record.planId .selected .prOpen
    (trackedLifecycle env record selected (selectedCandidateParams approval) event collected now)
    false [.prTracked record.planId event.prUrl] with ⟨-, hnone⟩ | ⟨row, hfound, -, hsome⟩
  · exact absurd hstatus (hnone record hrow)
  · obtain rfl := Option.some.inj (hrow.symm.trans hfound)
    rw [step, RecoveryAction.apply, trackCreatedPr, hwork]
    simp only [hselected, Option.map_some, hidentity, Option.getD_some, RecoveryState.update, hsome]
    change (Table.find? (s.plans.put _) record.planId).map _ = _
    rw [Table.find?_put]
    exact (congrArg (Option.map RecoveryPlanRecord.status) (if_pos rfl)).trans rfl

/-! ## The theorem -/

/-- Under the invariant, an entry has the property. -/
theorem approvalIsCurrent_step (hlaw : ApprovalLaw env s) (hok : keepsApprovals env s a = true) :
    approvalIsCurrent ⟨s, a, step env s a⟩ = true := by
  simp only [approvalIsCurrent]
  split
  · rename_i h created
    split
    · rename_i event record approval hwork
      refine List.all_eq_true.mpr fun dispatched hdispatched => ?_
      obtain ⟨attempt, hattempt, hevent⟩ := mem_dispatchedFor.mp hdispatched
      obtain ⟨-, -, hdescribes⟩ := held_step hlaw _ hwork
      exact hdescribes dispatched ⟨attempt, hattempt, outbox_subset_step env s _ hevent⟩
    · rfl
  · rename_i h collected now
    split
    · rename_i event record approval hwork
      obtain ⟨hstatus, hselected, hdescribes⟩ := hlaw.held h event record approval hwork
      by_cases hrow : s.plans.find? record.planId = some record
      · refine Bool.or_eq_true_iff.mpr (Or.inr (List.all_eq_true.mpr fun dispatched hdispatched => ?_))
        obtain ⟨stored, rfl, hstored⟩ := (Option.any_eq_true _ _).mp
          (hdescribes dispatched (mem_dispatchedFor.mp hdispatched))
        rcases hcreated : event.wellFormed && event.asApproved dispatched.draft.params with _ | _
        · rfl
        · obtain ⟨hwellFormed, hasApproved⟩ := Bool.and_eq_true_iff.mp hcreated
          have hidentity : event.asApproved (selectedCandidateParams (some stored)) = true :=
            (asApproved_of_describes hstored event).trans hasApproved
          refine decide_eq_true (track_of_identity hwork hrow hstatus hselected ?_)
          simp [safePrIdentityError, hwellFormed, hidentity]
      · exact Bool.or_eq_true_iff.mpr (Or.inl (decide_eq_true hrow))
    · rfl
  · rfl

/-- In every run in which selections and retries keep the approvals of attempts apart, the
approval that the worker reads is that of the attempt that the plan stores, and a pull
request created as dispatched for it is tracked. -/
theorem run_approvals_current (env : RecoveryEnv) (actions : List RecoveryAction)
    (hok : Runs.Meets (step env) (fun s a => keepsApprovals env s a = true) .empty actions) :
    ∀ e ∈ Runs.trace (step env) .empty actions, approvalIsCurrent e = true := by
  intro e he
  obtain ⟨hlaw, hok, hpost⟩ := Runs.trace_invariant_of_meets approvalLaw_step
    (approvalLaw_empty env) hok e he
  have hcurrent := approvalIsCurrent_step hlaw hok
  rw [← hpost] at hcurrent
  exact hcurrent

/-- An action is selected once, and its pull request is tracked. -/
def selectedOnce : List RecoveryAction :=
  [.plan "corr" samplePlan none 0, .lookup 0 (.byPlanId "plan"),
    .select 0 none (sampleParams "c1") "operator" none 1, .receiveCreatedPr 1 (sampleCreated "c1"),
    .trackCreatedPr 1 .null 2]

theorem approvals_current_once :
    (Runs.trace (step .sample) .empty selectedOnce).all approvalIsCurrent = true :=
  List.all_eq_true.mpr
    (run_approvals_current .sample selectedOnce (by unfold Runs.Meets; decide +kernel))

/-- An action is selected, reopened and selected again on a later commit, which its pull
request is created on. -/
def selectedTwice : List RecoveryAction :=
  [.plan "corr" samplePlan none 0, .lookup 0 (.byPlanId "plan"),
    .select 0 none (sampleParams "c1") "operator" none 1, .reopen "plan" "raise" "preflight" 2,
    .lookup 0 (.byPlanId "plan"), .select 0 none (sampleParams "c2") "operator" none 3,
    .receiveCreatedPr 1 (sampleCreated "c2"), .trackCreatedPr 1 .null 4]

/-- The pull request of the second selection is compared with the approval of the first one,
and is not tracked. -/
theorem reselection_is_rejected :
    ¬ (∀ actions, ∀ e ∈ Runs.trace (step .sample) .empty actions, approvalIsCurrent e = true) := by
  intro h
  have hrun : ¬ ∀ e ∈ Runs.trace (step .sample) .empty selectedTwice, approvalIsCurrent e = true := by
    decide +kernel
  exact hrun (h selectedTwice)

end Opsia.Recovery
