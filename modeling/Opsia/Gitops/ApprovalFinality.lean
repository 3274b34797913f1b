import Opsia.Gitops.Dispatch

/-!
# Decisions about approvals

The approvals with their deciders, the decision events on their way to the controller and the
commands that the controller dispatched. Approvals are written by `request_workflow_approval`
and `resolve_workflow_approval_if_open`, which leave a decided row alone, and by
`resolve_workflow_approval`, which does not: the handlers of the decision events use it, and
`persist_policy_decision` for the route `safe_pr`.

A decision event repeats what its endpoint has already written. A `safe_pr` decision does not:
it overwrites the decision of a user when the diff of the resource is analysed again.
-/

namespace Opsia.Gitops

open Runs

/-! ## The system -/

/-- A status that a decision gives. -/
def ApprovalStatus.isDecided : ApprovalStatus → Bool
  | .granted | .rejected => true
  | .requested | .expired | .notRequired => false

/-- The status of a stored approval, and who decided it. -/
def Store.decisionOf (s : Store) (approvalId : String) :
    Option (ApprovalStatus × Option String) :=
  (s.approvals.find? approvalId).map fun row => (row.status, row.decidedBy)

/-- A body that the controller handles as a decision. -/
def EventBody.isDecision : EventBody → Bool
  | .approvalGranted _ | .approvalRejected _ => true
  | _ => false

/-- The command of a body. -/
def EventBody.command? : EventBody → Option CommandRequestedBody
  | .commandRequested command => some command
  | _ => none

/-- The store, the decision events that wait for the controller and the commands it emitted. -/
structure ApprovalSystem : Type where
  store : Store
  pending : List EventBody
  dispatched : List CommandRequestedBody

/-- Before any transaction. -/
def ApprovalSystem.empty : ApprovalSystem := ⟨.empty, [], []⟩

/-- The transaction that handles a decision event. -/
def EventBody.handler (inserted : Bool) : EventBody → Option Action
  | .approvalGranted evt => some (.approvalGranted evt inserted)
  | .approvalRejected evt => some (.approvalRejected evt inserted)
  | _ => none

/-- The handlers of decision events. -/
def Action.isDecisionHandler : Action → Bool
  | .approvalGranted _ _ | .approvalRejected _ _ => true
  | _ => false

/-- One transaction of the system. -/
inductive ApprovalAction : Type where
  /-- `request_workflow_approval` of another component -/
  | request (approval : Approval)
  /-- a transaction that handles no decision event -/
  | transaction (action : Action)
  /-- the controller handles a decision event that waits -/
  | decide (body : EventBody) (inserted : Bool)
  /-- a decision event is dead-lettered -/
  | discard (body : EventBody)

variable (naming : Naming)

/-- A transaction commits its store and stages its bodies. -/
def ApprovalSystem.commit (s : ApprovalSystem) (pending : List EventBody) :
    Handled → ApprovalSystem
  | .error _ => s
  | .ok (bodies, store) =>
    ⟨store, pending ++ bodies.filter EventBody.isDecision,
      s.dispatched ++ bodies.filterMap EventBody.command?⟩

/-- One transaction; one that is not due changes nothing. -/
def ApprovalSystem.step (s : ApprovalSystem) : ApprovalAction → ApprovalSystem
  | .request approval => { s with store := s.store.requestWorkflowApproval approval }
  | .transaction action =>
    if action.isDecisionHandler then s else s.commit s.pending (handle naming s.store action)
  | .decide body inserted =>
    match body.handler inserted with
    | none => s
    | some action =>
      if body ∈ s.pending then s.commit (s.pending.erase body) (handle naming s.store action)
      else s
  | .discard body => { s with pending := s.pending.erase body }

/-! ## The writes to an approval -/

theorem decisionOf_requestWorkflowApproval (s : Store) (approval : Approval) (id : String) :
    (s.requestWorkflowApproval approval).decisionOf id =
      if id = approval.approvalId ∧ ∀ d ∈ s.decisionOf id, d.1.isOpen = true then
        some (approval.status, approval.decidedBy)
      else s.decisionOf id := by
  rw [Store.requestWorkflowApproval, Store.decisionOf, Store.decisionOf]
  by_cases hid : id = approval.approvalId
  · subst hid
    rcases hfind : s.approvals.find? approval.approvalId with _ | row
    · rw [if_pos ⟨rfl, fun d hd => by cases hd⟩]
      change ((s.approvals.put approval).find? approval.approvalId).map _ = _
      rw [Table.find?_put, if_pos rfl]
      rfl
    · dsimp only
      by_cases hopen : row.status.isOpen = true
      · rw [if_pos hopen, if_pos ⟨rfl, fun d hd => by cases hd; exact hopen⟩]
        rw [Table.find?_modify_self, hfind]
        rfl
      · rw [if_neg hopen, if_neg fun h => hopen (h.2 _ rfl), hfind]
  · rw [if_neg fun h => hid h.1]
    rcases s.approvals.find? approval.approvalId with _ | row
    · change ((s.approvals.put approval).find? id).map _ = _
      rw [Table.find?_put, if_neg hid]
    · dsimp only
      by_cases hopen : row.status.isOpen = true
      · rw [if_pos hopen, Table.find?_modify_ne _ _ _ hid]
      · rw [if_neg hopen]

theorem decisionOf_resolveWorkflowApproval (s : Store) (approvalId : String)
    (status : ApprovalStatus) (decidedBy : Option String) (details : ApprovalDetails)
    (id : String) :
    (s.resolveWorkflowApproval approvalId status decidedBy details).decisionOf id =
      if id = approvalId then (s.decisionOf id).map fun _ => (status, decidedBy)
      else s.decisionOf id := by
  rw [Store.resolveWorkflowApproval, Store.decisionOf, Store.decisionOf, Table.find?_modify]
  by_cases hid : id = approvalId
  · rw [if_pos hid, if_pos hid, Option.map_map, Option.map_map, hid]
    rfl
  · rw [if_neg hid, if_neg hid]

variable {bodies : List EventBody} {s' : Store} {s : ApprovalSystem}
  {approvalId workspaceId : String} {auto : Option String} {now : Timestamp}
  {status : ApprovalStatus}

variable {diff : Diff} {id : String} {store : Store} {body : EventBody} {decidedBy : Option String}
  {deployAccess inserted : Bool}

theorem isOpen_of_resolveIfOpen {s : Store} {details : ApprovalDetails}
    (h : s.resolveWorkflowApprovalIfOpen approvalId workspaceId status decidedBy details now =
      some s') : ∃ d, s.decisionOf approvalId = some d ∧ d.1.isOpen = true := by
  rw [Store.resolveWorkflowApprovalIfOpen] at h
  rcases hfind : s.approvals.find? approvalId with _ | row
  · rw [hfind] at h
    cases h
  · rw [hfind] at h
    dsimp only at h
    by_cases hresolvable : row.resolvable workspaceId now = true
    · rw [Approval.resolvable, Bool.and_eq_true, Bool.and_eq_true] at hresolvable
      refine ⟨(row.status, row.decidedBy), ?_, hresolvable.1.2⟩
      rw [Store.decisionOf, hfind]
      rfl
    · rw [if_neg hresolvable] at h
      cases h

/-! ## What a transaction does to the approvals -/

/-- A body that neither decides nor dispatches. -/
def EventBody.isQuiet (body : EventBody) : Prop :=
  body.isDecision = false ∧ body.command? = none

/-- The approval that a transaction grants by policy, open or not: that of a diff without a
recovery plan whose route is `safe_pr`. -/
def Action.autoGrant : Action → Option String
  | .desiredDiff diff plan =>
    if plan.isNone && (evaluateSafePrPolicy naming diff).route = "safe_pr" then
      (evaluateSafePrPolicy naming diff).approvalRef
    else none
  | _ => none

/-- What the transactions that handle no decision event do to the approvals. -/
inductive ApprovalEffect (s : Store) (auto : Option String) : List EventBody → Store → Prop
  | kept {bodies : List EventBody} {s' : Store} (hkept : ∀ id, s'.decisionOf id = s.decisionOf id)
      (hquiet : ∀ body ∈ bodies, body.isQuiet) : ApprovalEffect s auto bodies s'
  | requested {bodies : List EventBody} (approval : Approval)
      (hquiet : ∀ body ∈ bodies, body.isQuiet) :
      ApprovalEffect s auto bodies (s.requestWorkflowApproval approval)
  /-- `persist_policy_decision` for the route `safe_pr` -/
  | autoGranted {bodies : List EventBody} (approval : Approval)
      (hauto : auto = some approval.approvalId) (hquiet : ∀ body ∈ bodies, body.isQuiet) :
      ApprovalEffect s auto bodies ((s.requestWorkflowApproval approval).resolveWorkflowApproval
        approval.approvalId .granted (some "system-policy") approval.details)
  /-- `grant_approval` -/
  | granted {s' : Store} (evt : ApprovalDecisionBody)
      (hopen : ∃ d, s.decisionOf evt.approvalId = some d ∧ d.1.isOpen = true)
      (hcommand : ∀ command ∈ evt.details.commandRequested,
        command.approvalRef = some evt.approvalId)
      (hdecided : ∀ id, s'.decisionOf id =
        if id = evt.approvalId then some (.granted, evt.decidedBy) else s.decisionOf id) :
      ApprovalEffect s auto [.approvalGranted evt] s'
  /-- `reject_approval` -/
  | rejected {s' : Store} (evt : ApprovalDecisionBody)
      (hopen : ∃ d, s.decisionOf evt.approvalId = some d ∧ d.1.isOpen = true)
      (hdecided : ∀ id, s'.decisionOf id =
        if id = evt.approvalId then some (.rejected, evt.decidedBy) else s.decisionOf id) :
      ApprovalEffect s auto [.approvalRejected evt] s'
  /-- `on_diff_analyzed` for a merged recovery -/
  | recovered {s' : Store} (command : CommandRequestedBody) (approvalId : String)
      (hopen : ∃ d, s.decisionOf approvalId = some d ∧ d.1.isOpen = true)
      (hcommand : command.approvalRef = some approvalId)
      (hdecided : ∀ id, s'.decisionOf id =
        if id = approvalId then some (.granted, some "recovery-pr-merge") else s.decisionOf id) :
      ApprovalEffect s auto [.commandRequested command] s'

theorem decisionOf_resolveIfOpen {s : Store} {details : ApprovalDetails}
    (h : s.resolveWorkflowApprovalIfOpen approvalId workspaceId status decidedBy details now =
      some s') (id : String) :
    s'.decisionOf id = if id = approvalId then some (status, decidedBy) else s.decisionOf id := by
  obtain ⟨d, hd, -⟩ := isOpen_of_resolveIfOpen h
  rw [resolveWorkflowApprovalIfOpen_eq_some h, decisionOf_resolveWorkflowApproval]
  by_cases hid : id = approvalId
  · rw [if_pos hid, if_pos hid, hid, hd]
    rfl
  · rw [if_neg hid, if_neg hid]

theorem decisionOf_congr {s : Store} (h : s'.approvals = s.approvals) (id : String) :
    s'.decisionOf id = s.decisionOf id := by
  rw [Store.decisionOf, h]
  rfl

theorem approvals_ensureRun (s : Store) (identity : Identity) (canonical : Option String)
    (status : WorkflowRunStatus) (inserted : Bool) :
    (ensureRun naming s identity canonical status inserted).2.approvals = s.approvals := by
  rw [ensureRun]
  rcases hstart : s.startWorkflowRun (canonicalRun naming identity canonical) status with _ | s'
  · rfl
  · rw [Store.startWorkflowRun] at hstart
    split at hstart
    · cases hstart
      rfl
    · split at hstart
      · cases hstart
        rfl
      · cases hstart

theorem approvals_transitionRun (s : Store) (identity : Identity) (status : WorkflowRunStatus)
    (commandId : Option (Option String)) (inserted : Bool) :
    (transitionRun naming s identity status commandId inserted).2.approvals = s.approvals := by
  rw [transitionRun]
  rcases hupdate : s.updateWorkflowRun (normalizePayload naming identity).workflowRunId status
    commandId with _ | s'
  · rfl
  · rw [Store.updateWorkflowRun] at hupdate
    split at hupdate
    · cases hupdate
    · split at hupdate
      · cases hupdate
        rfl
      · cases hupdate

theorem approvals_attachWorkflowCommand (s : Store) (r commandId : String) :
    (s.attachWorkflowCommand r commandId).approvals = s.approvals := rfl

theorem approvalEffect_of_transitionAndEmit {s t : Store} (hkept : t.approvals = s.approvals)
    {identity : Identity} {status : WorkflowRunStatus} {commandId : Option (Option String)}
    {body : Identity → List EventBody} (hquiet : ∀ run, ∀ b ∈ body run, b.isQuiet)
    (h : transitionAndEmit naming t identity status commandId inserted body = .ok (bodies, s')) :
    ApprovalEffect s auto bodies s' := by
  rw [transitionAndEmit_eq] at h
  obtain ⟨rfl, rfl⟩ := Prod.mk.inj (Except.ok.inj h)
  refine .kept (decisionOf_congr ((approvals_transitionRun naming t _ _ _ _).trans hkept)) ?_
  intro b hb
  rcases hrun : (transitionRun naming t identity status commandId inserted).1 with _ | run
  · rw [hrun] at hb
    exact absurd hb List.not_mem_nil
  · rw [hrun] at hb
    exact hquiet run b hb

/-- The bodies of such handlers: none, or one that is quiet. -/
theorem quiet_nil (_run : Identity) : ∀ b ∈ ([] : List EventBody), b.isQuiet :=
  fun _ hb => absurd hb List.not_mem_nil

theorem quiet_singleton (h : body.isQuiet) : ∀ b ∈ [body], b.isQuiet :=
  fun _ hb => List.mem_singleton.mp hb ▸ h

theorem approvalEffect_of_persistPolicyDecision (s : Store) {decision : PolicyDecision}
    (hauto : decision.route = "safe_pr" → auto = decision.approvalRef)
    (hquiet : ∀ b ∈ bodies, b.isQuiet) :
    ApprovalEffect s auto bodies (persistPolicyDecision naming s diff decision) := by
  rw [persistPolicyDecision]
  rcases happroval : decision.approvalRef with _ | approvalRef
  · exact .kept (fun _ => rfl) hquiet
  · dsimp only
    by_cases hroute : decision.route = "safe_pr"
    · rw [if_pos hroute]
      exact .autoGranted (policyApproval naming diff decision approvalRef)
        ((hauto hroute).trans happroval) hquiet
    · rw [if_neg hroute]
      exact .requested (policyApproval naming diff decision approvalRef) hquiet

theorem approvalEffect_of_onDesiredDiff (s : Store) {plan : Option RecoveryPlan}
    (h : onDesiredDiff naming s diff plan = .ok (bodies, s')) :
    ApprovalEffect s ((Action.desiredDiff diff plan).autoGrant naming) bodies s' := by
  rw [onDesiredDiff] at h
  dsimp only at h
  by_cases htracked : (plan.isSome && !recoveryAuthorized s diff plan) = true
  · rw [if_pos htracked] at h
    obtain ⟨rfl, rfl⟩ := Prod.mk.inj (Except.ok.inj h)
    exact .kept (fun _ => rfl) (quiet_singleton ⟨rfl, rfl⟩)
  rw [if_neg htracked] at h
  obtain ⟨rfl, rfl⟩ := Prod.mk.inj (Except.ok.inj h)
  refine approvalEffect_of_persistPolicyDecision naming s (fun hroute => ?_) fun b hb => ?_
  · by_cases hauthorized : recoveryAuthorized s diff plan = true
    · rw [if_pos hauthorized] at hroute
      have hne : "recovery_pr_merged" ≠ "safe_pr" := by decide
      exact absurd hroute hne
    · rw [if_neg hauthorized] at hroute ⊢
      -- a plan that does not authorise the diff would have returned before
      have hplan : plan.isNone = true := by
        cases plan with
        | none => rfl
        | some plan => simp [hauthorized] at htracked
      rw [Action.autoGrant, hplan, hroute, if_pos (by decide)]
  · generalize (if recoveryAuthorized s diff plan = true then recoveryDecision naming diff
      else evaluateSafePrPolicy naming diff) = decision at hb
    rcases List.mem_cons.mp hb with rfl | hb
    · exact ⟨rfl, rfl⟩
    · split at hb
      · exact quiet_singleton ⟨rfl, rfl⟩ b hb
      · exact absurd hb List.not_mem_nil

theorem decidableApproval_eq_ok {s : Store} {record : Approval}
    (h : decidableApproval s approvalId workspaceId deployAccess = .ok (record, diff)) :
    record.approvalId = approvalId := by
  rw [decidableApproval] at h
  rcases hfind : s.approvals.find? approvalId with _ | row
  · rw [hfind] at h
    cases h
  rw [hfind] at h
  dsimp only at h
  split at h
  · cases h
  · split at h
    · cases h
    · split at h
      · cases h
      · split at h
        · obtain ⟨rfl, -⟩ := Prod.mk.inj (Except.ok.inj h)
          exact Table.key_of_find? hfind
        · cases h

theorem approvalEffect_of_grantApproval (s : Store) {userId : String} {reason : Option String}
    (h : grantApproval s approvalId workspaceId userId reason deployAccess now =
      .ok (bodies, s')) : ApprovalEffect s auto bodies s' := by
  rw [grantApproval] at h
  rcases hrecord : decidableApproval s approvalId workspaceId deployAccess with _ | ⟨record, diff⟩
  · rw [hrecord] at h
    cases h
  rw [hrecord] at h
  dsimp only at h
  split at h
  · cases h
  · rename_i hresolved
    obtain ⟨rfl, rfl⟩ := Prod.mk.inj (Except.ok.inj h)
    refine .granted _ (isOpen_of_resolveIfOpen hresolved) ?_ (decisionOf_resolveIfOpen hresolved)
    intro command hcommand
    obtain rfl := Option.some.inj hcommand
    exact congrArg some (decidableApproval_eq_ok hrecord)

theorem approvalEffect_of_rejectApproval (s : Store) {userId : String}
    (h : rejectApproval s approvalId workspaceId userId deployAccess now = .ok (bodies, s')) :
    ApprovalEffect s auto bodies s' := by
  rw [rejectApproval] at h
  rcases hrecord : decidableApproval s approvalId workspaceId deployAccess with _ | ⟨record, diff⟩
  · rw [hrecord] at h
    cases h
  rw [hrecord] at h
  dsimp only at h
  split at h
  · cases h
  · rename_i hresolved
    obtain ⟨rfl, rfl⟩ := Prod.mk.inj (Except.ok.inj h)
    exact .rejected _ (isOpen_of_resolveIfOpen hresolved) (decisionOf_resolveIfOpen hresolved)

theorem approvalEffect_of_dispatchRecovery (s : Store)
    (h : dispatchRecovery naming s diff now inserted = .ok (bodies, s')) :
    ApprovalEffect s auto bodies s' := by
  rw [dispatchRecovery] at h
  split at h
  · obtain ⟨rfl, rfl⟩ := Prod.mk.inj (Except.ok.inj h)
    exact .kept (fun _ => rfl) (quiet_nil diff.identity)
  · rename_i resolved hresolved
    split at h
    · cases h
    · rename_i run moved htransition
      obtain ⟨rfl, rfl⟩ := Prod.mk.inj (Except.ok.inj h)
      have happrovals := approvals_transitionRun naming resolved
        (normalizePayload naming diff.identity) .applying none inserted
      rw [htransition] at happrovals
      exact .recovered _ _ (isOpen_of_resolveIfOpen hresolved) rfl fun id =>
        (decisionOf_congr happrovals id).trans (decisionOf_resolveIfOpen hresolved id)

theorem approvalEffect_of_onDiffAnalyzed (s : Store) {safe : Bool} {plan : Option RecoveryPlan}
    (h : onDiffAnalyzed naming s diff safe plan now inserted = .ok (bodies, s')) :
    ApprovalEffect s auto bodies s' := by
  rw [onDiffAnalyzed] at h
  split at h
  · exact approvalEffect_of_transitionAndEmit naming rfl
      (fun _ => quiet_singleton ⟨rfl, rfl⟩) h
  split at h
  · obtain ⟨rfl, rfl⟩ := Prod.mk.inj (Except.ok.inj h)
    exact .kept (fun _ => rfl) (quiet_nil diff.identity)
  split at h
  · exact approvalEffect_of_dispatchRecovery naming s h
  split at h
  · exact approvalEffect_of_transitionAndEmit naming rfl quiet_nil h
  · exact approvalEffect_of_transitionAndEmit naming rfl
      (fun _ => quiet_singleton ⟨rfl, rfl⟩) h

/-- **What a transaction does to the approvals** that handles no decision event. -/
theorem handle_approvalEffect (s : Store) (action : Action)
    (hother : action.isDecisionHandler = false) (h : handle naming s action = .ok (bodies, s')) :
    ApprovalEffect s (action.autoGrant naming) bodies s' := by
  cases action with
  | gitWebhook identity canonical inserted =>
    obtain ⟨rfl, rfl⟩ := Prod.mk.inj (Except.ok.inj h)
    exact .kept (decisionOf_congr (approvals_ensureRun naming s _ _ _ _)) (quiet_nil identity)
  | gitChanged identity canonical bound inserted =>
    obtain ⟨rfl, rfl⟩ := Prod.mk.inj (Except.ok.inj h)
    cases bound with
    | false => exact .kept (fun _ => rfl) (quiet_nil identity)
    | true =>
      exact .kept (decisionOf_congr (approvals_ensureRun naming s _ _ _ _)) (quiet_nil identity)
  | render diffs =>
    obtain ⟨rfl, rfl⟩ := Prod.mk.inj (Except.ok.inj h)
    exact .kept (fun _ => rfl) fun _ hb => absurd hb List.not_mem_nil
  | manifestRendered identity inserted =>
    exact approvalEffect_of_transitionAndEmit naming rfl quiet_nil h
  | manifestInvalid identity canonical inserted =>
    obtain ⟨rfl, rfl⟩ := Prod.mk.inj (Except.ok.inj h)
    refine .kept (decisionOf_congr (approvals_ensureRun naming s _ _ _ _)) fun b hb => ?_
    obtain ⟨run, -, rfl⟩ := Option.map_eq_some_iff.mp (Option.mem_toList.mp hb)
    exact ⟨rfl, rfl⟩
  | diffDetected diff inserted => exact approvalEffect_of_transitionAndEmit naming rfl quiet_nil h
  | desiredDiff diff plan => exact approvalEffect_of_onDesiredDiff naming s h
  | diffAnalyzed diff safe plan now inserted => exact approvalEffect_of_onDiffAnalyzed naming s h
  | safePrFailed identity inserted =>
    exact approvalEffect_of_transitionAndEmit naming rfl (fun _ => quiet_singleton ⟨rfl, rfl⟩) h
  | grant approvalId workspaceId userId reason deployAccess now =>
    exact approvalEffect_of_grantApproval s h
  | reject approvalId workspaceId userId deployAccess now =>
    exact approvalEffect_of_rejectApproval s h
  | approvalGranted evt inserted => cases hother
  | approvalRejected evt inserted => cases hother
  | commandQueued identity commandId inserted =>
    change onCommandQueued naming s identity commandId inserted = _ at h
    rw [onCommandQueued] at h
    split at h
    · exact approvalEffect_of_transitionAndEmit naming
        (approvals_attachWorkflowCommand s _ commandId) quiet_nil h
    · obtain ⟨rfl, rfl⟩ := Prod.mk.inj (Except.ok.inj h)
      exact .kept (fun _ => rfl) (quiet_nil identity)
  | commandRejected requested commandId inserted =>
    exact approvalEffect_of_transitionAndEmit naming rfl (fun _ => quiet_singleton ⟨rfl, rfl⟩) h
  | commandCompleted commandId pick inserted =>
    change onCommandCompleted naming s commandId pick inserted = _ at h
    rw [onCommandCompleted] at h
    split at h
    · obtain ⟨rfl, rfl⟩ := Prod.mk.inj (Except.ok.inj h)
      exact .kept (fun _ => rfl) fun _ hb => absurd hb List.not_mem_nil
    · dsimp only at h
      split at h
      · obtain ⟨rfl, rfl⟩ := Prod.mk.inj (Except.ok.inj h)
        exact .kept (fun _ => rfl) fun _ hb => absurd hb List.not_mem_nil
      · refine approvalEffect_of_transitionAndEmit naming
          (approvals_attachWorkflowCommand s _ commandId) (fun run => ?_) h
        split
        · exact quiet_singleton ⟨rfl, rfl⟩
        · exact quiet_singleton ⟨rfl, rfl⟩
  | commandStore commands =>
    obtain ⟨rfl, rfl⟩ := Prod.mk.inj (Except.ok.inj h)
    exact .kept (fun _ => rfl) fun _ hb => absurd hb List.not_mem_nil

/-! ## Decisions that hold -/

/-- Decided approvals keep their status and their decider. -/
def DecisionsKept (s s' : Store) : Prop :=
  ∀ id d, s.decisionOf id = some d → d.1.isDecided = true → s'.decisionOf id = some d

/-- The condition of the main result: a diff is not granted by policy when its approval is
decided otherwise. -/
def RespectsDecision (s : ApprovalSystem) : ApprovalAction → Prop
  | .transaction action =>
    ∀ id ∈ action.autoGrant naming, ∀ d, s.store.decisionOf id = some d →
      d.1.isDecided = true → d = (.granted, some "system-policy")
  | _ => True

theorem isOpen_of_isDecided (h : status.isDecided = true) :
    status.isOpen = false := by
  cases status with
  | granted | rejected => rfl
  | requested | expired | notRequired => cases h

theorem decisionsKept_requestWorkflowApproval (s : Store) (approval : Approval) :
    DecisionsKept s (s.requestWorkflowApproval approval) := by
  intro id d hd hdecided
  have hclosed := isOpen_of_isDecided hdecided
  rw [decisionOf_requestWorkflowApproval, if_neg]
  · exact hd
  · rintro ⟨-, hopen⟩
    exact Bool.false_ne_true (hclosed.symm.trans (hopen d hd))

theorem decisionsKept_of_decided {s : Store}
    (hopen : ∃ d, s.decisionOf approvalId = some d ∧ d.1.isOpen = true)
    {decision : ApprovalStatus × Option String} (hdecided : ∀ id, s'.decisionOf id =
      if id = approvalId then some decision else s.decisionOf id) : DecisionsKept s s' := by
  intro id d hd hclosed
  rw [hdecided, if_neg]
  · exact hd
  · rintro rfl
    obtain ⟨d', hd', hopen⟩ := hopen
    obtain rfl := Option.some.inj (hd.symm.trans hd')
    exact Bool.false_ne_true ((isOpen_of_isDecided hclosed).symm.trans hopen)

theorem ApprovalEffect.decisionsKept {s : Store} (h : ApprovalEffect s auto bodies s')
    (hauto : ∀ id ∈ auto, ∀ d, s.decisionOf id = some d → d.1.isDecided = true →
      d = (.granted, some "system-policy")) : DecisionsKept s s' := by
  cases h with
  | kept hkept hquiet => exact fun id d hd _ => (hkept id).trans hd
  | requested approval hquiet => exact decisionsKept_requestWorkflowApproval s approval
  | autoGranted approval hid hquiet =>
    intro id d hd hdecided
    have hrequested := decisionsKept_requestWorkflowApproval s approval id d hd hdecided
    rw [decisionOf_resolveWorkflowApproval, hrequested]
    by_cases hsame : id = approval.approvalId
    · rw [if_pos hsame, Option.map_some]
      rw [hsame] at hd
      rw [hauto approval.approvalId hid d hd hdecided]
    · rw [if_neg hsame]
  | granted evt hopen hcommand hdecided => exact decisionsKept_of_decided hopen hdecided
  | rejected evt hopen hdecided => exact decisionsKept_of_decided hopen hdecided
  | recovered command approvalId hopen hcommand hdecided =>
    exact decisionsKept_of_decided hopen hdecided

/-! ## The decisions on their way -/

/-- A grant of the approval that waits. -/
def EventBody.grants (approvalId : String) : EventBody → Bool
  | .approvalGranted evt => evt.approvalId = approvalId
  | _ => false

/-- The command is for the approval. -/
def CommandRequestedBody.isFor (approvalId : String) (command : CommandRequestedBody) : Bool :=
  command.approvalRef = some approvalId

/-- What the grants on their way and the dispatched commands make of an approval. -/
def ApprovalSystem.claims (s : ApprovalSystem) (approvalId : String) : ℕ :=
  s.pending.countP (·.grants approvalId) + s.dispatched.countP (·.isFor approvalId)

/-- A body that adds to them. -/
def EventBody.claims (approvalId : String) : EventBody → Bool
  | .approvalGranted evt => evt.approvalId = approvalId
  | .commandRequested command => command.approvalRef = some approvalId
  | _ => false

theorem countP_claims (bodies : List EventBody) (id : String) :
    bodies.countP (·.claims id) = (bodies.filter EventBody.isDecision).countP (·.grants id) +
      (bodies.filterMap EventBody.command?).countP (·.isFor id) := by
  induction bodies with
  | nil => rfl
  | cons body bodies ih =>
    rw [List.countP_cons, ih]
    cases body with
    | approvalGranted evt =>
      have hfilter : (EventBody.approvalGranted evt :: bodies).filter EventBody.isDecision =
          .approvalGranted evt :: bodies.filter EventBody.isDecision := rfl
      rw [hfilter, List.countP_cons]
      exact Nat.add_right_comm _ _ _
    | commandRequested command =>
      have hcommands : (EventBody.commandRequested command :: bodies).filterMap
          EventBody.command? = command :: bodies.filterMap EventBody.command? := rfl
      rw [hcommands, List.countP_cons]
      exact Nat.add_assoc _ _ _
    | approvalRejected evt =>
      have hfilter : (EventBody.approvalRejected evt :: bodies).filter EventBody.isDecision =
          .approvalRejected evt :: bodies.filter EventBody.isDecision := rfl
      rw [hfilter, List.countP_cons]
      exact Nat.add_right_comm _ _ _
    | diffAnalyzed _ _ | safePrRequested _ | approvalRequested _ _ | workflowRunCompleted _
    | workflowRunFailed _ => rfl

/-- What a transaction adds to them. -/
theorem claims_commit (s : ApprovalSystem) (pending : List EventBody) (bodies : List EventBody)
    (store : Store) (id : String) :
    (s.commit pending (.ok (bodies, store))).claims id =
      (ApprovalSystem.mk store pending s.dispatched).claims id +
        bodies.countP (·.claims id) := by
  rw [countP_claims]
  simp only [ApprovalSystem.commit, ApprovalSystem.claims, List.countP_append]
  omega

theorem countP_claims_granted (evt : ApprovalDecisionBody) (id : String) :
    [EventBody.approvalGranted evt].countP (·.claims id) = if evt.approvalId = id then 1 else 0 := by
  rw [List.countP_singleton, EventBody.claims]
  by_cases hid : evt.approvalId = id
  · simp [hid]
  · simp [hid]

theorem countP_claims_command {command : CommandRequestedBody}
    (hcommand : command.approvalRef = some approvalId) (id : String) :
    [EventBody.commandRequested command].countP (·.claims id) =
      if approvalId = id then 1 else 0 := by
  rw [List.countP_singleton, EventBody.claims, hcommand]
  by_cases hid : approvalId = id
  · simp [hid]
  · simp [hid]

/-- The approval is granted. -/
def Store.Granted (s : Store) (approvalId : String) : Prop :=
  ∃ decidedBy, s.decisionOf approvalId = some (.granted, decidedBy)

/-- What the decisions on their way say is stored, and each approval has at most one command,
dispatched or on its way. -/
structure DecisionsHold (s : ApprovalSystem) : Prop where
  granted : ∀ evt, .approvalGranted evt ∈ s.pending →
    s.store.decisionOf evt.approvalId = some (.granted, evt.decidedBy) ∧
      ∀ command ∈ evt.details.commandRequested, command.approvalRef = some evt.approvalId
  rejected : ∀ evt, .approvalRejected evt ∈ s.pending →
    s.store.decisionOf evt.approvalId = some (.rejected, evt.decidedBy)
  dispatched : ∀ command ∈ s.dispatched, ∀ id, command.approvalRef = some id → s.store.Granted id
  once : ∀ id, s.claims id ≤ 1

theorem DecisionsKept.granted {s : Store} (h : DecisionsKept s s') (hgranted : s.Granted id) :
    s'.Granted id := by
  obtain ⟨decidedBy, hd⟩ := hgranted
  exact ⟨decidedBy, h id _ hd rfl⟩

theorem DecisionsHold.granted_of_claims (h : DecisionsHold s) (hclaims : 0 < s.claims id) :
    s.store.Granted id := by
  rcases Nat.add_pos_iff_pos_or_pos.mp hclaims with hpending | hdispatched
  · obtain ⟨body, hbody, hgrants⟩ := List.countP_pos_iff.mp hpending
    cases body with
    | approvalGranted evt =>
      obtain rfl := of_decide_eq_true hgrants
      exact ⟨_, (h.granted evt hbody).1⟩
    | _ => cases hgrants
  · obtain ⟨command, hcommand, hfor⟩ := List.countP_pos_iff.mp hdispatched
    exact h.dispatched command hcommand id (of_decide_eq_true hfor)

theorem DecisionsHold.claims_of_open (h : DecisionsHold s)
    (hopen : ∃ d, s.store.decisionOf id = some d ∧ d.1.isOpen = true) : s.claims id = 0 := by
  by_contra hne
  obtain ⟨decidedBy, hgranted⟩ := h.granted_of_claims (Nat.pos_of_ne_zero hne)
  obtain ⟨d, hd, hopen⟩ := hopen
  obtain rfl := Option.some.inj (hgranted.symm.trans hd)
  cases hopen

theorem DecisionsHold.commit (h : DecisionsHold s) (hkept : DecisionsKept s.store store)
    {pending : List EventBody} {dispatched : List CommandRequestedBody}
    (hgranted : ∀ evt, .approvalGranted evt ∈ pending → .approvalGranted evt ∈ s.pending ∨
      store.decisionOf evt.approvalId = some (.granted, evt.decidedBy) ∧
        ∀ command ∈ evt.details.commandRequested, command.approvalRef = some evt.approvalId)
    (hrejected : ∀ evt, .approvalRejected evt ∈ pending → .approvalRejected evt ∈ s.pending ∨
      store.decisionOf evt.approvalId = some (.rejected, evt.decidedBy))
    (hdispatched : ∀ command ∈ dispatched, command ∈ s.dispatched ∨
      ∀ id, command.approvalRef = some id → store.Granted id)
    (honce : ∀ id, (ApprovalSystem.mk store pending dispatched).claims id ≤ 1) :
    DecisionsHold ⟨store, pending, dispatched⟩ where
  granted := fun evt hevt => by
    rcases hgranted evt hevt with hold | hnew
    · exact ⟨hkept _ _ (h.granted evt hold).1 rfl, (h.granted evt hold).2⟩
    · exact hnew
  rejected := fun evt hevt => by
    rcases hrejected evt hevt with hold | hnew
    · exact hkept _ _ (h.rejected evt hold) rfl
    · exact hnew
  dispatched := fun command hcommand id hid => by
    rcases hdispatched command hcommand with hold | hnew
    · exact hkept.granted (h.dispatched command hold id hid)
    · exact hnew id hid
  once := honce

theorem filter_isDecision_of_quiet (h : ∀ b ∈ bodies, b.isQuiet) :
    bodies.filter EventBody.isDecision = [] := by
  refine List.filter_eq_nil_iff.mpr fun b hb hdecision => ?_
  exact Bool.false_ne_true ((h b hb).1.symm.trans hdecision)

theorem filterMap_command_of_quiet (h : ∀ b ∈ bodies, b.isQuiet) :
    bodies.filterMap EventBody.command? = [] :=
  List.filterMap_eq_nil_iff.mpr fun b hb => (h b hb).2

theorem DecisionsHold.commit_quiet (h : DecisionsHold s) (hkept : DecisionsKept s.store store)
    (hquiet : ∀ b ∈ bodies, b.isQuiet) :
    DecisionsHold (s.commit s.pending (.ok (bodies, store))) := by
  rw [ApprovalSystem.commit, filter_isDecision_of_quiet hquiet, filterMap_command_of_quiet hquiet,
    List.append_nil, List.append_nil]
  exact h.commit hkept (fun _ => Or.inl) (fun _ => Or.inl) (fun _ => Or.inl) h.once

/-- **A transaction that handles no decision event.** -/
theorem DecisionsHold.transaction (h : DecisionsHold s)
    (heffect : ApprovalEffect s.store auto bodies store) (hkept : DecisionsKept s.store store) :
    DecisionsHold (s.commit s.pending (.ok (bodies, store))) := by
  cases heffect with
  | kept hkept' hquiet => exact h.commit_quiet hkept hquiet
  | requested approval hquiet => exact h.commit_quiet hkept hquiet
  | autoGranted approval hid hquiet => exact h.commit_quiet hkept hquiet
  | granted evt hopen hcommand hdecided =>
    have hnone := h.claims_of_open hopen
    have hnow : store.decisionOf evt.approvalId = some (.granted, evt.decidedBy) :=
      (hdecided evt.approvalId).trans (if_pos rfl)
    refine h.commit hkept (fun evt' hevt => ?_) (fun evt' hevt => ?_) (fun command hmem => ?_)
      fun id => ?_
    · rcases List.mem_append.mp hevt with hevt | hevt
      · exact Or.inl hevt
      · cases List.mem_singleton.mp hevt
        exact Or.inr ⟨hnow, hcommand⟩
    · rcases List.mem_append.mp hevt with hevt | hevt
      · exact Or.inl hevt
      · cases List.mem_singleton.mp hevt
    · rcases List.mem_append.mp hmem with hmem | hmem
      · exact Or.inl hmem
      · exact absurd hmem List.not_mem_nil
    · refine (claims_commit s s.pending [.approvalGranted evt] store id).trans_le ?_
      change s.claims id + _ ≤ 1
      rw [countP_claims_granted]
      by_cases hid : evt.approvalId = id
      · rw [if_pos hid, ← hid, hnone]
      · rw [if_neg hid]
        exact h.once id
  | rejected evt hopen hdecided =>
    have hnow : store.decisionOf evt.approvalId = some (.rejected, evt.decidedBy) :=
      (hdecided evt.approvalId).trans (if_pos rfl)
    refine h.commit hkept (fun evt' hevt => ?_) (fun evt' hevt => ?_) (fun command hmem => ?_)
      fun id => ?_
    · rcases List.mem_append.mp hevt with hevt | hevt
      · exact Or.inl hevt
      · cases List.mem_singleton.mp hevt
    · rcases List.mem_append.mp hevt with hevt | hevt
      · exact Or.inl hevt
      · cases List.mem_singleton.mp hevt
        exact Or.inr hnow
    · rcases List.mem_append.mp hmem with hmem | hmem
      · exact Or.inl hmem
      · exact absurd hmem List.not_mem_nil
    · exact (claims_commit s s.pending [.approvalRejected evt] store id).trans_le (h.once id)
  | recovered command approvalId hopen hcommand hdecided =>
    have hnone := h.claims_of_open hopen
    have hnow : store.Granted approvalId := ⟨_, (hdecided approvalId).trans (if_pos rfl)⟩
    refine h.commit hkept (fun evt' hevt => ?_) (fun evt' hevt => ?_) (fun command' hmem => ?_)
      fun id => ?_
    · rcases List.mem_append.mp hevt with hevt | hevt
      · exact Or.inl hevt
      · exact absurd hevt List.not_mem_nil
    · rcases List.mem_append.mp hevt with hevt | hevt
      · exact Or.inl hevt
      · exact absurd hevt List.not_mem_nil
    · rcases List.mem_append.mp hmem with hmem | hmem
      · exact Or.inl hmem
      · cases List.mem_singleton.mp hmem
        refine Or.inr fun id hid => ?_
        obtain rfl := Option.some.inj (hcommand.symm.trans hid)
        exact hnow
    · refine (claims_commit s s.pending [.commandRequested command] store id).trans_le ?_
      change s.claims id + _ ≤ 1
      rw [countP_claims_command hcommand]
      by_cases hid : approvalId = id
      · rw [if_pos hid, ← hid, hnone]
      · rw [if_neg hid]
        exact h.once id

/-- A decision event that is gone from those that wait. -/
theorem claims_erase (hbody : body ∈ s.pending) (store : Store) (id : String) :
    s.claims id = (if body.grants id then 1 else 0) +
      (ApprovalSystem.mk store (s.pending.erase body) s.dispatched).claims id := by
  simp only [ApprovalSystem.claims]
  rw [(List.perm_cons_erase hbody).countP_eq, List.countP_cons]
  omega

theorem decisionsKept_of_eq {s : Store} (h : ∀ id, s'.decisionOf id = s.decisionOf id) :
    DecisionsKept s s' := fun id _ hd _ => (h id).trans hd

theorem decisionOf_resolve_again {s : Store}
    (hd : s.decisionOf approvalId = some (status, decidedBy)) (details : ApprovalDetails)
    (id : String) :
    (s.resolveWorkflowApproval approvalId status decidedBy details).decisionOf id =
      s.decisionOf id := by
  rw [decisionOf_resolveWorkflowApproval]
  by_cases hid : id = approvalId
  · rw [if_pos hid, hid, hd]
    rfl
  · rw [if_neg hid]

/-- **A decision event that is handled**: its decision is stored already, and the command of
a grant takes the place of the event. -/
theorem DecisionsHold.handled (h : DecisionsHold s) (hbody : body ∈ s.pending)
    (hsame : ∀ id, store.decisionOf id = s.store.decisionOf id)
    (hbodies : ∀ b ∈ bodies, b.isDecision = false)
    (hcommand : ∀ command, .commandRequested command ∈ bodies → ∀ id,
      command.approvalRef = some id → s.store.Granted id)
    (hclaims : ∀ id, bodies.countP (·.claims id) ≤ if body.grants id then 1 else 0) :
    DecisionsHold (s.commit (s.pending.erase body) (.ok (bodies, store))) := by
  have hnone : bodies.filter EventBody.isDecision = [] := by
    refine List.filter_eq_nil_iff.mpr fun b hb hdecision => ?_
    exact Bool.false_ne_true ((hbodies b hb).symm.trans hdecision)
  have hpending : ∀ b, b ∈ s.pending.erase body ++ bodies.filter EventBody.isDecision →
      b ∈ s.pending := by
    intro b hb
    rw [hnone, List.append_nil] at hb
    exact List.mem_of_mem_erase hb
  refine h.commit (decisionsKept_of_eq hsame) (fun evt hevt => Or.inl (hpending _ hevt))
    (fun evt hevt => Or.inl (hpending _ hevt)) (fun command hmem => ?_) fun id => ?_
  · rcases List.mem_append.mp hmem with hmem | hmem
    · exact Or.inl hmem
    · obtain ⟨b, hb, hcommandBody⟩ := List.mem_filterMap.mp hmem
      refine Or.inr fun id hid => ?_
      cases b with
      | commandRequested command' =>
        obtain rfl := Option.some.inj hcommandBody
        obtain ⟨decidedBy, hgranted⟩ := hcommand _ hb id hid
        exact ⟨decidedBy, (hsame id).trans hgranted⟩
      | _ => cases hcommandBody
  · refine (claims_commit s (s.pending.erase body) bodies store id).trans_le ?_
    have honce := h.once id
    rw [claims_erase hbody store] at honce
    have hbound := hclaims id
    omega

theorem DecisionsHold.grantHandled (h : DecisionsHold s) {evt : ApprovalDecisionBody}
    (hevt : .approvalGranted evt ∈ s.pending) (inserted : Bool) :
    DecisionsKept s.store (s.commit (s.pending.erase (.approvalGranted evt))
        (onApprovalGranted naming s.store evt inserted)).store ∧
      DecisionsHold (s.commit (s.pending.erase (.approvalGranted evt))
        (onApprovalGranted naming s.store evt inserted)) := by
  obtain ⟨hgranted, hcommand⟩ := h.granted evt hevt
  have hsame : ∀ id, (transitionRun naming (s.store.resolveWorkflowApproval evt.approvalId .granted
      evt.decidedBy evt.details) evt.identity .applying none inserted).2.decisionOf id =
        s.store.decisionOf id := fun id =>
    (decisionOf_congr (approvals_transitionRun naming _ _ _ _ _) id).trans
      (decisionOf_resolve_again hgranted evt.details id)
  refine ⟨decisionsKept_of_eq hsame, ?_⟩
  have hone : ∀ b ∈ (evt.details.commandRequested.map EventBody.commandRequested).toList,
      ∃ command, evt.details.commandRequested = some command ∧ b = .commandRequested command := by
    intro b hb
    obtain ⟨command, hsome, rfl⟩ := Option.map_eq_some_iff.mp (Option.mem_toList.mp hb)
    exact ⟨command, hsome, rfl⟩
  refine h.handled hevt hsame (fun b hb => ?_) (fun command hmem id hid => ?_) fun id => ?_
  · obtain ⟨command, -, rfl⟩ := hone b hb
    rfl
  · obtain ⟨command', hsome, hsame⟩ := hone _ hmem
    cases hsame
    obtain rfl := Option.some.inj ((hcommand command hsome).symm.trans hid)
    exact ⟨_, hgranted⟩
  · rcases hsome : evt.details.commandRequested with _ | command
    · exact Nat.zero_le _
    · change [EventBody.commandRequested command].countP (·.claims id) ≤ _
      rw [countP_claims_command (hcommand command hsome)]
      by_cases hid : evt.approvalId = id
      · rw [if_pos hid, if_pos (show (EventBody.approvalGranted evt).grants id = true from
          decide_eq_true hid)]
      · rw [if_neg hid]
        exact Nat.zero_le _

theorem DecisionsHold.rejectionHandled (h : DecisionsHold s) {evt : ApprovalDecisionBody}
    (hevt : .approvalRejected evt ∈ s.pending) (inserted : Bool) :
    DecisionsKept s.store (s.commit (s.pending.erase (.approvalRejected evt))
        (onApprovalRejected naming s.store evt inserted)).store ∧
      DecisionsHold (s.commit (s.pending.erase (.approvalRejected evt))
        (onApprovalRejected naming s.store evt inserted)) := by
  rw [onApprovalRejected, transitionAndEmit_eq]
  have hsame : ∀ id, (transitionRun naming (s.store.resolveWorkflowApproval evt.approvalId .rejected
      evt.decidedBy evt.details) evt.identity .failed none inserted).2.decisionOf id =
        s.store.decisionOf id := fun id =>
    (decisionOf_congr (approvals_transitionRun naming _ _ _ _ _) id).trans
      (decisionOf_resolve_again (h.rejected evt hevt) evt.details id)
  refine ⟨decisionsKept_of_eq hsame, ?_⟩
  generalize (transitionRun naming (s.store.resolveWorkflowApproval evt.approvalId .rejected
    evt.decidedBy evt.details) evt.identity .failed none inserted).1 = run
  have hquiet : ∀ b ∈ (run.map fun run => [EventBody.workflowRunFailed run]).getD [],
      b.isQuiet := by
    cases run with
    | none => exact quiet_nil evt.identity
    | some run => exact quiet_singleton ⟨rfl, rfl⟩
  refine h.handled hevt hsame (fun b hb => (hquiet b hb).1) (fun command hmem => ?_) fun id => ?_
  · cases (hquiet _ hmem).2
  · rw [countP_claims, filter_isDecision_of_quiet hquiet, filterMap_command_of_quiet hquiet]
    exact Nat.zero_le _

/-- **One transaction** keeps the decided approvals, if it respects them. -/
theorem DecisionsHold.step (h : DecisionsHold s) (action : ApprovalAction)
    (hrespects : RespectsDecision naming s action) :
    DecisionsKept s.store (s.step naming action).store ∧ DecisionsHold (s.step naming action) := by
  have hrefl : DecisionsKept s.store s.store := fun _ _ hd _ => hd
  cases action with
  | request approval =>
    have hkept := decisionsKept_requestWorkflowApproval s.store approval
    exact ⟨hkept, h.commit hkept (fun _ => Or.inl) (fun _ => Or.inl) (fun _ => Or.inl) h.once⟩
  | transaction action =>
    rw [ApprovalSystem.step]
    rcases hhandler : action.isDecisionHandler with _ | _
    · rw [if_neg Bool.false_ne_true]
      rcases hhandle : handle naming s.store action with _ | ⟨bodies, store⟩
      · exact ⟨hrefl, h⟩
      · have heffect := handle_approvalEffect naming s.store action hhandler hhandle
        have hkept := heffect.decisionsKept hrespects
        exact ⟨hkept, h.transaction heffect hkept⟩
    · exact ⟨hrefl, h⟩
  | decide body inserted =>
    rw [ApprovalSystem.step]
    by_cases hmem : body ∈ s.pending
    · cases body with
      | approvalGranted evt =>
        rw [EventBody.handler]
        dsimp only
        rw [if_pos hmem]
        exact h.grantHandled naming hmem inserted
      | approvalRejected evt =>
        rw [EventBody.handler]
        dsimp only
        rw [if_pos hmem]
        exact h.rejectionHandled naming hmem inserted
      | _ => exact ⟨hrefl, h⟩
    · cases body with
      | approvalGranted evt | approvalRejected evt =>
        rw [EventBody.handler]
        dsimp only
        rw [if_neg hmem]
        exact ⟨hrefl, h⟩
      | _ => exact ⟨hrefl, h⟩
  | discard body =>
    refine ⟨hrefl, h.commit hrefl (fun evt hevt => Or.inl (List.mem_of_mem_erase hevt))
      (fun evt hevt => Or.inl (List.mem_of_mem_erase hevt)) (fun _ => Or.inl) fun id => ?_⟩
    refine Nat.le_trans ?_ (h.once id)
    exact Nat.add_le_add_right List.erase_sublist.countP_le _

/-! ## Every run of the system -/

theorem DecisionsHold.empty : DecisionsHold .empty where
  granted := fun _ hevt => absurd hevt List.not_mem_nil
  rejected := fun _ hevt => absurd hevt List.not_mem_nil
  dispatched := fun _ hcommand => absurd hcommand List.not_mem_nil
  once := fun _ => Nat.zero_le 1

theorem decisionOf_autoGrant {action : Action} (hauto : id ∈ action.autoGrant naming)
    {d : ApprovalStatus × Option String} (hd : s.store.decisionOf id = some d)
    (hdecided : d.1.isDecided = true) :
    (s.step naming (.transaction action)).store.decisionOf id =
      some (.granted, some "system-policy") := by
  cases action with
  | desiredDiff diff plan =>
    rw [Action.autoGrant] at hauto
    by_cases hpolicy : (plan.isNone && (evaluateSafePrPolicy naming diff).route = "safe_pr") = true
    · rw [if_pos hpolicy] at hauto
      rw [Bool.and_eq_true, decide_eq_true_iff] at hpolicy
      obtain ⟨hplan, hroute⟩ := hpolicy
      obtain rfl := Option.isNone_iff_eq_none.mp hplan
      have happroval : (evaluateSafePrPolicy naming diff).approvalRef = some id := hauto
      have hstore : (s.step naming (.transaction (.desiredDiff diff none))).store =
          (s.store.requestWorkflowApproval
            (policyApproval naming diff (evaluateSafePrPolicy naming diff) id)).resolveWorkflowApproval
              id .granted (some "system-policy")
              (policyApproval naming diff (evaluateSafePrPolicy naming diff) id).details := by
        change persistPolicyDecision naming s.store diff (evaluateSafePrPolicy naming diff) = _
        rw [persistPolicyDecision, happroval]
        dsimp only
        rw [if_pos hroute]
      rw [hstore, decisionOf_resolveWorkflowApproval, if_pos rfl,
        decisionsKept_requestWorkflowApproval s.store _ id d hd hdecided]
      rfl
    · rw [if_neg hpolicy] at hauto
      cases hauto
  | _ => cases hauto

/-- Approvals are final in a run: no transaction changes a decision, and the controller emits
at most one command for each approval. -/
def ApprovalsFinal (actions : List ApprovalAction) : Prop :=
  (∀ e ∈ trace (ApprovalSystem.step naming) .empty actions,
    DecisionsKept e.pre.store e.post.store) ∧
    ∀ id, (run (ApprovalSystem.step naming) .empty actions).dispatched.countP (·.isFor id) ≤ 1

/-- **Approvals are final** in exactly the runs in which the policy grants no approval that is
already decided otherwise. -/
theorem approvalsFinal_iff (actions : List ApprovalAction) :
    ApprovalsFinal naming actions ↔
      Meets (ApprovalSystem.step naming) (RespectsDecision naming) .empty actions := by
  constructor
  · rintro ⟨hkept, -⟩ e he
    obtain ⟨-, -, -, -, hpost⟩ := mem_trace_iff.mp he
    rcases haction : e.action with approval | action | ⟨body, inserted⟩ | body
    · trivial
    · intro id hauto d hd hdecided
      have hstays := hkept e he id d hd hdecided
      rw [hpost, haction, decisionOf_autoGrant naming hauto hd hdecided] at hstays
      exact (Option.some.inj hstays).symm
    · trivial
    · trivial
  · intro hmeets
    have hstep : ∀ s action, DecisionsHold s → RespectsDecision naming s action →
        DecisionsHold (s.step naming action) := fun s action hs hrespects =>
      (hs.step naming action hrespects).2
    refine ⟨fun e he => ?_, fun id => ?_⟩
    · obtain ⟨hpre, hrespects, hpost⟩ :=
        trace_invariant_of_meets hstep DecisionsHold.empty hmeets e he
      rw [hpost]
      exact (hpre.step naming e.action hrespects).1
    · have honce := (run_invariant_of_meets hstep DecisionsHold.empty hmeets).once id
      exact Nat.le_trans (Nat.le_add_left _ _) honce

/-! ## A rejection that is overruled -/

/-- A diff in the sandbox, first with a conflict in the cluster and then without. -/
def sandboxDiff (risk : RiskLevel) : Diff :=
  { shopDiff "web" with namespaceName := "sandbox", risk := risk }

/-- A user rejects the change, and the diff of the resource is analysed again. -/
def overruledRun : List ApprovalAction :=
  [.transaction (.desiredDiff (sandboxDiff .reviewRequired) none),
    .transaction (.reject ((sandboxDiff .reviewRequired).approvalRef plainNaming) "ws" "alice"
      true 10),
    .transaction (.desiredDiff (sandboxDiff .sandboxOnly) none)]

/-- **A rejected approval is granted** when the same artifact is analysed again and is now
within the sandbox policy. -/
theorem rejected_approval_is_granted :
    ¬ ∀ (naming : Naming) (actions : List ApprovalAction), ApprovalsFinal naming actions := by
  intro h
  have hkept := (h plainNaming overruledRun).1 _
    (step_mem_trace ApprovalSystem.empty (overruledRun.take 2)
      (.transaction (.desiredDiff (sandboxDiff .sandboxOnly) none)) [])
    ((sandboxDiff .reviewRequired).approvalRef plainNaming) (.rejected, some "alice")
    (by decide +kernel) rfl
  exact absurd hkept (by decide +kernel)

end Opsia.Gitops
