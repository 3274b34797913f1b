import Opsia.Recovery.Steps

/-!
# What has been read

An instance writes back what it has computed from a row that it read before, so that an
invariant of the rows has to hold of the rows that instances still hold. A row that is *seen*
is one of the two; after a step every seen row was seen before or has just been written
(`sees_step`), which is the induction for such invariants.
-/

namespace Opsia.Recovery

open RecoveryState

variable {env : RecoveryEnv} {s : RecoveryState} {a : RecoveryAction}

/-! ## Reading -/

/-- The rows that an instance has read. -/
def Work.records : Work → List RecoveryPlanRecord
  | plan record => [record]
  | reselect record _ _ _ _ => [record]
  | createdPr _ record _ => [record]
  | failedPr _ record => [record]
  | pullRequest _ base exact => base :: exact.join.toList
  | deploy _ record => [record]
  | evidence _ _ records => records

variable {record : RecoveryPlanRecord} {lifecycle : Lifecycle} {plans : RecoveryPlans}

theorem mem_of_onlyRow {p : RecoveryPlanRecord → Bool} (h : onlyRow plans p = some record) :
    record ∈ plans.rows ∧ p record = true := by
  rw [onlyRow] at h
  split at h
  · rename_i row hrows
    obtain rfl := Option.some.inj h
    exact List.mem_filter.mp (hrows ▸ List.mem_singleton_self row)
  · cases h

theorem PlanQuery.mem_of_run {casefold : String → String} {query : PlanQuery}
    (h : query.run casefold plans = some record) :
    record ∈ plans.rows := by
  cases query with
  | byPlanId planId => exact Table.mem_of_find? h
  | byCorrelation correlationId =>
    have hmem := List.mem_of_mem_head? h
    rw [List.mem_insertionSort] at hmem
    exact List.mem_of_mem_filter hmem
  | byPullRequestBase identity => exact (mem_of_onlyRow h).1
  | byPullRequest identity => exact (mem_of_onlyRow h).1
  | byWorkflow workflowRunId bindingId applicationId => exact (mem_of_onlyRow h).1

theorem mem_listRecoveryVerificationPlans {clusterId : String} {limit : ℕ}
    (h : record ∈ listRecoveryVerificationPlans plans clusterId limit) :
    record ∈ plans.rows ∧ record.status = .verificationPending := by
  have hmem := List.mem_of_mem_take h
  rw [List.mem_insertionSort, List.mem_filter, Bool.and_eq_true, decide_eq_true_eq] at hmem
  exact ⟨hmem.1, hmem.2.1⟩

/-! ## Instances -/

theorem work?_congr {s' : RecoveryState} (h : s'.sessions = s.sessions) (i : ℕ) :
    s'.work? i = s.work? i := by
  rw [work?, work?, h]

theorem work?_begin (s : RecoveryState) (h : ℕ) (work : Work) (i : ℕ) :
    (s.begin h work).work? i = if i = h then some work else s.work? i := by
  rw [work?, RecoveryState.begin, Table.find?_put]
  split
  · rfl
  · rfl

theorem work?_finish (s : RecoveryState) (h i : ℕ) :
    (s.finish h).work? i = if i = h then none else s.work? i := by
  rw [work?, finish, Table.find?_erase]
  split
  · rfl
  · rfl

/-- The two states differ in the plans and in what was sent about them at most. -/
structure RecoveryState.SameRest (next s : RecoveryState) : Prop where
  approvals : next.approvals = s.approvals
  runs : next.runs = s.runs
  sessions : next.sessions = s.sessions
  inbox : next.inbox = s.inbox

theorem RecoveryState.SameRest.refl (s : RecoveryState) : s.SameRest s := ⟨rfl, rfl, rfl, rfl⟩

variable {now : ℤ} {next : RecoveryState} {planId reason : String}

theorem sameRest_of_update? {s : RecoveryState} {expected status : RecoveryPlanStatus}
    {clearSelection : Bool} {events : List RecoveryEvent}
    (h : s.update? now planId expected status lifecycle clearSelection events = some next) :
    next.SameRest s := by
  obtain ⟨plans, -, rfl⟩ := Option.map_eq_some_iff.mp h
  exact ⟨rfl, rfl, rfl, rfl⟩

theorem sameRest_update (s : RecoveryState) (now : ℤ) (planId : String)
    (expected status : RecoveryPlanStatus) (lifecycle : Lifecycle) (clearSelection : Bool)
    (events : List RecoveryEvent) :
    (s.update now planId expected status lifecycle clearSelection events).SameRest s := by
  rw [RecoveryState.update]
  rcases hupdate : s.update? now planId expected status lifecycle clearSelection events with _ | next
  · exact .refl s
  · exact sameRest_of_update? hupdate

theorem sameRest_of_reopenRecovery {s : RecoveryState} {actionId reasonCode : String}
    (h : reopenRecovery s planId actionId reasonCode now = some next) :
    next.SameRest s := by
  obtain ⟨plans, -, rfl⟩ := Option.map_eq_some_iff.mp h
  exact ⟨rfl, rfl, rfl, rfl⟩

variable (env) in
/-- What an operation has an instance begin. -/
inductive Begins (s : RecoveryState) : RecoveryAction → ℕ → Work → Prop where
  | lookup (h : ℕ) (query : PlanQuery) (record : RecoveryPlanRecord)
      (hquery : query.run env.casefold s.plans = some record) :
      Begins s (.lookup h query) h (.plan record)
  | reselect (h : ℕ) (request : RecoveryRetryRequest) (params : Json) (now : ℤ)
      (record : RecoveryPlanRecord) (selected : RecoveryActionCandidate) (reason : String)
      (hwork : s.work? h = some (.plan record)) :
      Begins s (.approveReselection h request params now) h
        (.reselect record selected request.requestedBy reason now)
  | createdPr (h : ℕ) (event : SafePrCreated) (record : RecoveryPlanRecord)
      (selected : RecoveryActionCandidate)
      (hquery : (PlanQuery.byCorrelation event.correlationId).run env.casefold s.plans = some record)
      (hselected : selectedRecoveryCandidate record = some selected)
      (hstatus : record.status = .selected) :
      Begins s (.receiveCreatedPr h event) h
        (.createdPr event record (recoveryApprovalRecord env s.approvals record))
  | failedPr (h : ℕ) (event : SafePrFailed) (record : RecoveryPlanRecord)
      (hquery : (PlanQuery.byCorrelation event.correlationId).run env.casefold s.plans =
        some record) :
      Begins s (.receiveFailedPr h event) h (.failedPr event record)
  | pullRequest (h : ℕ) (webhook : PullRequestWebhook) (base : RecoveryPlanRecord)
      (hquery : (PlanQuery.byPullRequestBase webhook.identity).run env.casefold s.plans =
        some base) :
      Begins s (.receivePullRequest h webhook) h (.pullRequest webhook base none)
  | matched (h : ℕ) (webhook : PullRequestWebhook) (base : RecoveryPlanRecord)
      (hwork : s.work? h = some (.pullRequest webhook base none)) :
      Begins s (.matchPullRequest h) h (.pullRequest webhook base
        (some ((PlanQuery.byPullRequest webhook.identity).run env.casefold s.plans)))
  | deploy (h : ℕ) (event : DeployEvent) (record : RecoveryPlanRecord)
      (hquery : (PlanQuery.byWorkflow event.workflowRunId event.bindingId
        event.applicationId).run env.casefold s.plans = some record) :
      Begins s (.receiveDeploy h event) h (.deploy event record)
  | evidence (h : ℕ) (window : EvidenceWindow) (clusterId : String) (now : ℤ) :
      Begins s (.receiveEvidence h window clusterId now) h
        (.evidence window now (listRecoveryVerificationPlans s.plans clusterId 100))
  | judged (h : ℕ) (alerts : List Json) (writtenAt : ℤ) (window : EvidenceWindow) (now : ℤ)
      (record : RecoveryPlanRecord) (records : List RecoveryPlanRecord)
      (hwork : s.work? h = some (.evidence window now (record :: records))) :
      Begins s (.judgeNext h alerts writtenAt) h (.evidence window now records)

variable (env) in
/-- What an operation does besides writing plans. -/
inductive Turnover (s : RecoveryState) (a : RecoveryAction) (next : RecoveryState) : Prop where
  | same (hrest : next.SameRest s)
  | finished (h : ℕ) (hrest : next.SameRest (s.finish h))
  | began (h : ℕ) (work : Work) (hbegins : Begins env s a h work)
      (hrest : next.SameRest (s.begin h work))
  /-- a selection stores its approval -/
  | approved (h : ℕ) (approval : RecoveryApproval) (hgranted : approval.status = .granted)
      (hrest : next.SameRest
        { s.finish h with approvals := requestWorkflowApproval s.approvals approval })
  /-- a retry of a Safe PR stores its approval before its transaction -/
  | reapproved (h : ℕ) (work : Work) (hbegins : Begins env s a h work) (approval : RecoveryApproval)
      (hgranted : approval.status = .granted)
      (hrest : next.SameRest
        { s.begin h work with approvals := requestWorkflowApproval s.approvals approval })
  /-- a merge is told to the worker -/
  | told (h : ℕ) (events : List DeployEvent) (hrest : next.SameRest ((s.finish h).tell events))
  | startedRun (request : DeploymentRequest) (hrequest : .deploymentRequested request ∈ s.outbox)
      (hrest : next.SameRest { s with runs := s.runs.insertIfAbsent (runOf request) })
  | movedRun (workflowRunId : String) (status : Gitops.WorkflowRunStatus) (reason : String)
      (run : Gitops.WorkflowRun) (hrun : s.runs.find? workflowRunId = some run)
      (hguard : Gitops.workflowTransitionGuard run.status status = true)
      (hrest : next.SameRest
        { s with
          runs := s.runs.modify workflowRunId (fun run => { run with status := status })
            (fun _ => rfl)
          inbox := s.inbox ++ if status.isTerminal then [endOf run status reason] else [] })
  /-- an event that is about no plan is acknowledged -/
  | dropped (event : DeployEvent)
      (hquery : (PlanQuery.byWorkflow event.workflowRunId event.bindingId
        event.applicationId).run env.casefold s.plans = none)
      (hrest : next.SameRest { s with inbox := s.inbox.erase event })
  /-- an event has been worked on -/
  | answered (h : ℕ) (now : ℤ) (event : DeployEvent) (record : RecoveryPlanRecord)
      (ha : a = .answerDeploy h now true) (hwork : s.work? h = some (.deploy event record))
      (hrest : next.SameRest { s.finish h with inbox := s.inbox.erase event })

/-- An operation that goes through does one of these. -/
theorem apply_turnover (hnext : a.apply env s = some next) :
    Turnover env s a next := by
  cases a with
  | plan correlationId plan selected now =>
    obtain rfl := Option.some.inj hnext
    cases selected with
    | none => exact .same ⟨rfl, rfl, rfl, rfl⟩
    | some candidate => exact .same ⟨rfl, rfl, rfl, rfl⟩
  | reopen planId actionId reasonCode now => exact .same (sameRest_of_reopenRecovery hnext)
  | lookup h query =>
    obtain ⟨record, hquery, rfl⟩ := Option.map_eq_some_iff.mp hnext
    exact .began h _ (.lookup h query record hquery) (.refl _)
  | select h actionId params selectedBy reason now =>
    rw [RecoveryAction.apply, selectRecoveryAction] at hnext
    split at hnext
    · simp only [Option.bind_eq_some_iff, Option.map_eq_some_iff] at hnext
      obtain ⟨candidate, -, rows, -, rfl⟩ := hnext
      exact .approved h _ rfl ⟨rfl, rfl, rfl, rfl⟩
    · cases hnext
  | approveReselection h request params now =>
    rw [RecoveryAction.apply, approveReselection] at hnext
    split at hnext
    · rename_i record hwork
      simp only [Option.ite_none_right_eq_some, Option.bind_eq_some_iff,
        Option.ite_none_left_eq_some] at hnext
      obtain ⟨-, candidate, -, -, hnext⟩ := hnext
      obtain rfl := Option.some.inj hnext
      exact .reapproved h _ (.reselect h request params now record _ _ hwork) _ rfl (.refl _)
    · cases hnext
  | reselect h writtenAt =>
    rw [RecoveryAction.apply, reselectRecovery] at hnext
    split at hnext
    · obtain rfl := Option.some.inj hnext
      exact .finished h (sameRest_update ..)
    · cases hnext
  | retry h request now writtenAt =>
    rw [RecoveryAction.apply, retryRecovery] at hnext
    split at hnext
    · simp only [Option.ite_none_right_eq_some, Option.map_eq_some_iff] at hnext
      obtain ⟨-, decision, -, rfl⟩ := hnext
      cases decision with
      | deploy lifecycle deployment => exact .finished h (sameRest_update ..)
      | verification lifecycle => exact .finished h (sameRest_update ..)
    · cases hnext
  | receiveCreatedPr h event =>
    simp only [RecoveryAction.apply, receiveCreatedPr, Option.bind_eq_bind,
      Option.bind_eq_some_iff, Option.ite_none_right_eq_some, Bool.and_eq_true,
      decide_eq_true_eq] at hnext
    obtain ⟨record, hquery, selected, hselected, ⟨hstatus, -⟩, hnext⟩ := hnext
    obtain rfl := Option.some.inj hnext
    exact .began h _ (.createdPr h event record selected hquery hselected hstatus) (.refl _)
  | trackCreatedPr h collected now =>
    rw [RecoveryAction.apply, trackCreatedPr] at hnext
    split at hnext
    · rename_i event record approval hwork
      obtain ⟨selected, -, rfl⟩ := Option.map_eq_some_iff.mp hnext
      refine .finished h ?_
      dsimp only
      split
      · rcases hreopen : reopenRecovery (s.finish h) record.planId
          (record.selectedActionId.getD "") "safe_pr_identity_incomplete" now with _ | next
        · exact .refl _
        · exact sameRest_of_reopenRecovery hreopen
      · exact sameRest_update ..
    · cases hnext
  | receiveFailedPr h event =>
    simp only [RecoveryAction.apply, receiveFailedPr, Option.bind_eq_bind,
      Option.bind_eq_some_iff, Option.ite_none_right_eq_some] at hnext
    obtain ⟨record, hquery, identity, -, -, hnext⟩ := hnext
    obtain rfl := Option.some.inj hnext
    exact .began h _ (.failedPr h event record hquery) (.refl _)
  | failCreatedPr h now =>
    rw [RecoveryAction.apply, failCreatedPr] at hnext
    split at hnext
    · obtain rfl := Option.some.inj hnext
      exact .finished h (sameRest_update ..)
    · cases hnext
  | receivePullRequest h webhook =>
    obtain ⟨base, hquery, rfl⟩ := Option.map_eq_some_iff.mp hnext
    exact .began h _ (.pullRequest h webhook base hquery) (.refl _)
  | matchPullRequest h =>
    rw [RecoveryAction.apply, matchPullRequest] at hnext
    split at hnext
    · rename_i webhook base hwork
      obtain rfl := Option.some.inj hnext
      exact .began h _ (.matched h webhook base hwork) (.refl _)
    · cases hnext
  | answerPullRequest h targets image now =>
    rw [RecoveryAction.apply, answerPullRequest] at hnext
    split at hnext
    · rename_i webhook base exact hwork
      split at hnext
      · cases hnext
      · obtain rfl := Option.some.inj hnext
        rcases handleTrackedRecoveryPullRequest env webhook base exact.join targets image now with
          _ | ⟨record, reasonCode, reason⟩ | ⟨record, lifecycle, request⟩
        · exact .finished h (.refl _)
        · exact .finished h (sameRest_update ..)
        · simp only [answerPullRequest.answerDecision]
          rcases hupdate : (s.finish h).update? now record.planId .prOpen .deployPending lifecycle
            false [.deploymentRequested request] with _ | next
          · exact .finished h (.refl _)
          · obtain ⟨happrovals, hruns, hsessions, hinbox⟩ := sameRest_of_update? hupdate
            exact .told h _ ⟨happrovals, hruns, hsessions, congrArg (· ++ _) hinbox⟩
    · cases hnext
  | startRun request =>
    obtain ⟨hrequest, hnext⟩ := Option.ite_none_right_eq_some.mp hnext
    obtain rfl := Option.some.inj hnext
    exact .startedRun request hrequest (.refl _)
  | moveRun workflowRunId status reason =>
    simp only [RecoveryAction.apply, moveRun, Option.bind_eq_some_iff,
      Option.ite_none_right_eq_some] at hnext
    obtain ⟨run, hrun, hguard, hnext⟩ := hnext
    obtain rfl := Option.some.inj hnext
    exact .movedRun workflowRunId status reason run hrun hguard (.refl _)
  | receiveDeploy h event =>
    obtain ⟨-, hnext⟩ := Option.ite_none_right_eq_some.mp hnext
    rcases hquery : (PlanQuery.byWorkflow event.workflowRunId event.bindingId
      event.applicationId).run env.casefold s.plans with _ | record
    · rw [hquery] at hnext
      obtain rfl := Option.some.inj hnext
      exact .dropped event hquery (.refl _)
    · rw [hquery] at hnext
      obtain rfl := Option.some.inj hnext
      exact .began h _ (.deploy h event record hquery) (.refl _)
  | answerDeploy h now acknowledged =>
    rw [RecoveryAction.apply, answerDeploy] at hnext
    split at hnext
    · rename_i event record hwork
      obtain rfl := Option.some.inj hnext
      have hrest : (answerDeployEvent env (s.finish h) event record now).SameRest (s.finish h) := by
        rw [answerDeployEvent]
        split
        · exact .refl _
        · split
          · exact sameRest_update ..
          all_goals
            split
            · exact sameRest_update ..
            · exact .refl _
      obtain ⟨happrovals, hruns, hsessions, hinbox⟩ := hrest
      cases acknowledged with
      | false => exact .finished h ⟨happrovals, hruns, hsessions, hinbox⟩
      | true =>
        exact .answered h now event record rfl hwork
          ⟨happrovals, hruns, hsessions, congrArg (List.erase · event) hinbox⟩
    · cases hnext
  | receiveEvidence h window clusterId now =>
    obtain rfl := Option.some.inj hnext
    exact .began h _ (.evidence h window clusterId now) (.refl _)
  | judgeNext h alerts writtenAt =>
    rw [RecoveryAction.apply, judgeNext] at hnext
    split at hnext
    · rename_i window now record records hwork
      obtain rfl := Option.some.inj hnext
      exact .began h _ (.judged h alerts writtenAt window now record records hwork)
        (sameRest_update ..)
    · cases hnext
  | expire locked limit now =>
    obtain rfl := Option.some.inj hnext
    exact .same ⟨rfl, rfl, rfl, rfl⟩
  | die h =>
    obtain rfl := Option.some.inj hnext
    exact .finished h (.refl _)

/-- Every operation does one of these. -/
theorem step_turnover (env : RecoveryEnv) (s : RecoveryState) (a : RecoveryAction) :
    Turnover env s a (step env s a) := by
  rw [step]
  rcases hnext : a.apply env s with _ | next
  · exact .same (.refl s)
  · exact apply_turnover hnext

theorem work?_finish_eq_some {h i : ℕ} {work : Work} (hwork : (s.finish h).work? i = some work) :
    s.work? i = some work := by
  rw [work?_finish] at hwork
  split at hwork
  · cases hwork
  · exact hwork

theorem work_of_step {i : ℕ} {work : Work} (hwork : (step env s a).work? i = some work) :
    s.work? i = some work ∨ Begins env s a i work := by
  have hbegan : ∀ {h : ℕ} {begun : Work}, Begins env s a h begun →
      (s.begin h begun).work? i = some work → s.work? i = some work ∨ Begins env s a i work := by
    intro h begun hbegins hwork
    rw [work?_begin] at hwork
    split at hwork
    · rename_i hi
      obtain rfl := Option.some.inj hwork
      exact Or.inr (hi ▸ hbegins)
    · exact Or.inl hwork
  cases step_turnover env s a with
  | same hrest | startedRun _ _ hrest | movedRun _ _ _ _ _ _ hrest | dropped _ _ hrest =>
    exact Or.inl ((work?_congr hrest.sessions i).symm.trans hwork)
  | finished h hrest | approved h _ _ hrest | told h _ hrest | answered h _ _ _ _ _ hrest =>
    exact Or.inl (work?_finish_eq_some ((work?_congr hrest.sessions i).symm.trans hwork))
  | began h begun hbegins hrest | reapproved h begun hbegins _ _ hrest =>
    exact hbegan hbegins ((work?_congr hrest.sessions i).symm.trans hwork)

/-! ## Seen rows -/

/-- The status of a plan. -/
def RecoveryState.statusOf (s : RecoveryState) (planId : String) : Option RecoveryPlanStatus :=
  (s.plans.find? planId).map RecoveryPlanRecord.status

theorem statusOf_eq {row : RecoveryPlanRecord} (h : s.plans.find? planId = some row) :
    s.statusOf planId = some row.status := by
  rw [statusOf, h, Option.map_some]

/-- The row is in the table, or an instance has read it. -/
def RecoveryState.Sees (s : RecoveryState) (record : RecoveryPlanRecord) : Prop :=
  record ∈ s.plans.rows ∨ ∃ h work, s.work? h = some work ∧ record ∈ work.records

/-- An instance begins with rows of the table, and with those that it has read before. -/
theorem Begins.sees {h : ℕ} {work : Work} (hbegins : Begins env s a h work)
    (hrecord : record ∈ work.records) : s.Sees record := by
  cases hbegins with
  | lookup h query _ hquery =>
    obtain rfl := List.mem_singleton.mp hrecord
    exact Or.inl (PlanQuery.mem_of_run hquery)
  | reselect h request params now _ selected reason hwork =>
    exact Or.inr ⟨h, _, hwork, hrecord⟩
  | createdPr h event _ selected hquery hselected hstatus =>
    obtain rfl := List.mem_singleton.mp hrecord
    exact Or.inl (PlanQuery.mem_of_run hquery)
  | failedPr h event _ hquery =>
    obtain rfl := List.mem_singleton.mp hrecord
    exact Or.inl (PlanQuery.mem_of_run hquery)
  | pullRequest h webhook base hquery =>
    obtain rfl := List.mem_singleton.mp hrecord
    exact Or.inl (PlanQuery.mem_of_run hquery)
  | matched h webhook base hwork =>
    rcases List.mem_cons.mp hrecord with rfl | hrecord
    · exact Or.inr ⟨h, _, hwork, List.mem_cons_self⟩
    · rw [Option.join_some] at hrecord
      exact Or.inl (PlanQuery.mem_of_run (Option.mem_toList.mp hrecord))
  | deploy h event _ hquery =>
    obtain rfl := List.mem_singleton.mp hrecord
    exact Or.inl (PlanQuery.mem_of_run hquery)
  | evidence h window clusterId now =>
    exact Or.inl (mem_listRecoveryVerificationPlans hrecord).1
  | judged h alerts writtenAt window now judgedRecord records hwork =>
    exact Or.inr ⟨h, _, hwork, List.mem_cons_of_mem judgedRecord hrecord⟩

variable (env) in
/-- The step writes the row. -/
inductive Writes (s : RecoveryState) (a : RecoveryAction) (record : RecoveryPlanRecord) : Prop where
  | changed (events : List RecoveryEvent)
      (hchange : Change env s a (s.plans.find? record.planId) record events)
      (hplans : (step env s a).plans = s.plans.put record)
      (houtbox : (step env s a).outbox = s.outbox ++ events)
      (hxid : (step env s a).xid = s.xid + 1)
  | expired (row : RecoveryPlanRecord) (hrow : row ∈ s.plans.rows) (now : ℤ)
      (hstatus : row.status = .verificationPending)
      (hexpired : record = expiredRecord (s.next now) row)
      (hxid : (step env s a).xid = s.xid + 1)

/-- A row that is taken waits for evidence. -/
theorem status_of_overdue {locked : List String} {limit : ℕ}
    (h : record ∈ overdue plans locked limit now) :
    record.status = .verificationPending := by
  have hmem := List.mem_of_mem_take h
  rw [List.mem_insertionSort, List.mem_filter] at hmem
  simp only [Bool.and_eq_true, decide_eq_true_eq] at hmem
  exact hmem.2.1.1

theorem row_of_step (h : record ∈ (step env s a).plans.rows) :
    record ∈ s.plans.rows ∨ Writes env s a record := by
  cases step_effect env s a with
  | quiet hplans houtbox hxid => exact Or.inl (hplans ▸ h)
  | wrote after events hchange hplans houtbox hxid =>
    rw [hplans] at h
    rcases Table.mem_put h with rfl | ⟨h, -⟩
    · exact Or.inr (.changed events hchange hplans houtbox hxid)
    · exact Or.inl h
  | expired locked limit now ha hnext =>
    have hxid : (step env s a).xid = s.xid + 1 := by
      rw [hnext]
      rfl
    rw [hnext] at h
    rcases Table.mem_modifyWhere (f := expiredRecord (s.next now)) (fun _ => rfl) h with ⟨row, hrow, htaken, rfl⟩ | ⟨h, -⟩
    · exact Or.inr (.expired row hrow now (status_of_overdue (of_decide_eq_true htaken)) rfl
        hxid)
    · exact Or.inl h

variable (env) in
/-- What a step does to the row of a plan. -/
inductive RowChange (s : RecoveryState) (a : RecoveryAction) (planId : String) : Prop where
  | same (hfind : (step env s a).plans.find? planId = s.plans.find? planId)
  | changed (after : RecoveryPlanRecord) (events : List RecoveryEvent)
      (hchange : Change env s a (s.plans.find? planId) after events)
      (hfind : (step env s a).plans.find? planId = some after)
      (houtbox : (step env s a).outbox = s.outbox ++ events)
  | expired (row : RecoveryPlanRecord) (locked : List String) (limit : ℕ) (now : ℤ)
      (ha : a = .expire locked limit now) (hrow : s.plans.find? planId = some row)
      (hstatus : row.status = .verificationPending)
      (hfind : (step env s a).plans.find? planId = some (expiredRecord (s.next now) row))

theorem rowChange_step (env : RecoveryEnv) (s : RecoveryState) (a : RecoveryAction)
    (planId : String) : RowChange env s a planId := by
  cases step_effect env s a with
  | quiet hplans houtbox hxid => exact .same (by rw [hplans])
  | wrote after events hchange hplans houtbox hxid =>
    have hfind := Table.find?_put s.plans after planId
    rw [← hplans] at hfind
    split at hfind
    · rename_i hkey
      subst hkey
      exact .changed after events hchange hfind houtbox
    · exact .same hfind
  | expired locked limit now ha hnext =>
    have hfind := Table.find?_modifyWhere s.plans
      (fun record => record ∈ overdue s.plans locked limit now) (expiredRecord (s.next now))
      (fun _ => rfl) planId
    have hplans : (step env s a).plans.find? planId = _ := (by rw [hnext]; rfl : _ = _).trans hfind
    rcases hrow : s.plans.find? planId with _ | row
    · rw [hrow] at hplans
      exact .same (hplans.trans hrow.symm)
    · rw [hrow, Option.map_some] at hplans
      split at hplans
      · rename_i htaken
        exact .expired row locked limit now ha hrow (status_of_overdue (of_decide_eq_true htaken))
          hplans
      · exact .same (hplans.trans hrow.symm)

/-- Numbers of transactions are never used again. -/
theorem xid_le_step (env : RecoveryEnv) (s : RecoveryState) (a : RecoveryAction) :
    s.xid ≤ (step env s a).xid := by
  cases step_effect env s a with
  | quiet hplans houtbox hxid => exact hxid.ge
  | wrote after events hchange hplans houtbox hxid => omega
  | expired locked limit now ha hnext =>
    rw [hnext]
    exact Nat.le_succ s.xid

/-- What has been sent stays sent. -/
theorem outbox_subset_step (env : RecoveryEnv) (s : RecoveryState) (a : RecoveryAction) :
    s.outbox ⊆ (step env s a).outbox := by
  cases step_effect env s a with
  | quiet hplans houtbox hxid => exact houtbox ▸ List.Subset.refl _
  | wrote after events hchange hplans houtbox hxid =>
    exact houtbox ▸ List.subset_append_left s.outbox events
  | expired locked limit now ha hnext =>
    rw [hnext]
    exact List.subset_append_left s.outbox _

theorem sees_step (h : (step env s a).Sees record) :
    s.Sees record ∨ (record ∈ (step env s a).plans.rows ∧ Writes env s a record) := by
  rcases h with hrow | ⟨i, work, hwork, hrecord⟩
  · rcases row_of_step hrow with hold | hwrites
    · exact Or.inl (Or.inl hold)
    · exact Or.inr ⟨hrow, hwrites⟩
  · rcases work_of_step hwork with hwork | hbegins
    · exact Or.inl (Or.inr ⟨i, work, hwork, hrecord⟩)
    · exact Or.inl (hbegins.sees hrecord)

theorem decideMerge_cases (env : RecoveryEnv) (record : RecoveryPlanRecord)
    (identity : PullRequestIdentity) (targets : List PollTarget) (image : String) (now : ℤ) :
    decideMerge env record identity targets image now = .ignore ∨
      (∃ reasonCode reason, decideMerge env record identity targets image now =
        .reject record reasonCode reason) ∨
      ∃ target pr replicas, exactRecoveryPollTarget env targets record = some target ∧
        record.lifecycle.pr = some pr ∧
        decideMerge env record identity targets image now = .merge record
          (mergedLifecycle record pr identity
            (mergeRequest env record target identity image replicas) now)
          (mergeRequest env record target identity image replicas) := by
  rw [decideMerge]
  split
  · rename_i target pr htarget hpr
    split
    · exact Or.inl rfl
    · split
      · rename_i replicas hreplicas
        split
        · exact Or.inr (Or.inl ⟨_, _, rfl⟩)
        · exact Or.inr (Or.inr ⟨target, pr, _, htarget, hpr, rfl⟩)
      · exact Or.inr (Or.inl ⟨_, _, rfl⟩)
  · exact Or.inr (Or.inl ⟨_, _, rfl⟩)

theorem handleTracked_cases (env : RecoveryEnv) (webhook : PullRequestWebhook)
    (base : RecoveryPlanRecord) (exact : Option RecoveryPlanRecord) (targets : List PollTarget)
    (image : String) (now : ℤ) :
    handleTrackedRecoveryPullRequest env webhook base exact targets image now = .ignore ∨
      (∃ reasonCode reason, handleTrackedRecoveryPullRequest env webhook base exact targets image
        now = .reject base reasonCode reason) ∨
      ∃ record, exact = some record ∧
        handleTrackedRecoveryPullRequest env webhook base exact targets image now =
          decideMerge env record webhook.identity targets image now := by
  simp only [handleTrackedRecoveryPullRequest]
  split
  · exact Or.inr (Or.inl ⟨_, _, rfl⟩)
  · split
    · exact Or.inl rfl
    · split
      · exact Or.inr (Or.inl ⟨_, _, rfl⟩)
      · cases exact with
        | none => exact Or.inr (Or.inl ⟨_, _, rfl⟩)
        | some record => exact Or.inr (Or.inr ⟨record, rfl, rfl⟩)

theorem record_of_reject {webhook : PullRequestWebhook} {base : RecoveryPlanRecord}
    {exact : Option RecoveryPlanRecord} {targets : List PollTarget} {image : String}
    {reasonCode : String}
    (h : handleTrackedRecoveryPullRequest env webhook base exact targets image now =
      .reject record reasonCode reason) : record ∈ base :: exact.toList := by
  rcases handleTracked_cases env webhook base exact targets image now with
    hd | ⟨code, text, hd⟩ | ⟨found, rfl, hd⟩
  · cases hd.symm.trans h
  · obtain ⟨rfl, -, -⟩ := PullRequestDecision.reject.inj (hd.symm.trans h)
    exact List.mem_cons_self
  · rcases decideMerge_cases env found webhook.identity targets image now with
      hm | ⟨code, text, hm⟩ | ⟨target, pr, replicas, -, -, hm⟩
    · cases (hd.trans hm).symm.trans h
    · obtain ⟨rfl, -, -⟩ := PullRequestDecision.reject.inj ((hd.trans hm).symm.trans h)
      exact List.mem_cons_of_mem base (List.mem_singleton_self found)
    · cases (hd.trans hm).symm.trans h

theorem record_of_merge {webhook : PullRequestWebhook} {base : RecoveryPlanRecord}
    {exact : Option RecoveryPlanRecord} {targets : List PollTarget} {image : String}
    {request : DeploymentRequest}
    (h : handleTrackedRecoveryPullRequest env webhook base exact targets image now =
      .merge record lifecycle request) :
    exact = some record ∧ ∃ target pr replicas,
      exactRecoveryPollTarget env targets record = some target ∧ record.lifecycle.pr = some pr ∧
        request = mergeRequest env record target webhook.identity image replicas ∧
        lifecycle = mergedLifecycle record pr webhook.identity request now := by
  rcases handleTracked_cases env webhook base exact targets image now with
    hd | ⟨code, text, hd⟩ | ⟨found, hfound, hd⟩
  · cases hd.symm.trans h
  · cases hd.symm.trans h
  · rcases decideMerge_cases env found webhook.identity targets image now with
      hm | ⟨code, text, hm⟩ | ⟨target, pr, replicas, htarget, hpr, hm⟩
    · cases (hd.trans hm).symm.trans h
    · cases (hd.trans hm).symm.trans h
    · obtain ⟨rfl, hlifecycle, hrequest⟩ := PullRequestDecision.merge.inj ((hd.trans hm).symm.trans h)
      refine ⟨hfound, target, pr, replicas, htarget, hpr, hrequest.symm, ?_⟩
      rw [← hrequest]
      exact hlifecycle.symm

theorem merge_of_deploy {run : String → Option Gitops.WorkflowRun} {requestedBy : String}
    {request : DeploymentRequest}
    (h : decideRetry env record run requestedBy reason now = some (.deploy lifecycle request)) :
    ∃ merge, record.lifecycle.merge = some merge ∧
      deployRetryBody env record merge (run (PyText.strip merge.workflowRunId)) = some request ∧
      lifecycle = redeployedLifecycle record.lifecycle merge request requestedBy reason now := by
  obtain ⟨merge, hmerge, h⟩ := Option.bind_eq_some_iff.mp h
  dsimp only at h
  split at h
  · cases h
  · split at h
    · obtain ⟨body, hbody, h⟩ := Option.map_eq_some_iff.mp h
      obtain ⟨hlifecycle, rfl⟩ := RetryDecision.deploy.inj h
      exact ⟨merge, hmerge, hbody, hlifecycle.symm⟩
    · split at h
      · split at h
        · cases Option.some.inj h
        · cases h
      · cases h

theorem lifecycle_of_verification {run : String → Option Gitops.WorkflowRun} {requestedBy : String}
    (h : decideRetry env record run requestedBy reason now = some (.verification lifecycle)) :
    ∃ workflowRunId,
      lifecycle = retriedLifecycle record.lifecycle now requestedBy reason workflowRunId := by
  obtain ⟨merge, -, h⟩ := Option.bind_eq_some_iff.mp h
  dsimp only at h
  split at h
  · cases h
  · split at h
    · obtain ⟨body, -, h⟩ := Option.map_eq_some_iff.mp h
      cases h
    · split at h
      · split at h
        · exact ⟨_, (RetryDecision.verification.inj (Option.some.inj h)).symm⟩
        · cases h
      · cases h

theorem LifecycleWrite.sees {expected status : RecoveryPlanStatus} {events : List RecoveryEvent}
    (h : LifecycleWrite env s a record expected status lifecycle events) : s.Sees record := by
  cases h with
  | tracked i collected now event _ approval selected hwork _ _ =>
    exact Or.inr ⟨i, _, hwork, List.mem_singleton_self _⟩
  | prFailed i now event _ hwork => exact Or.inr ⟨i, _, hwork, List.mem_singleton_self _⟩
  | rejected i targets image now webhook base exact _ reasonCode reason hwork hdecision =>
    exact Or.inr ⟨i, _, hwork, record_of_reject hdecision⟩
  | merged i targets image now webhook base exact _ _ request hwork hdecision =>
    refine Or.inr ⟨i, _, hwork, List.mem_cons_of_mem base ?_⟩
    rw [(record_of_merge hdecision).1]
    exact List.mem_singleton_self _
  | deployFailed i now acknowledged event _ reason hwork _ _ =>
    exact Or.inr ⟨i, _, hwork, List.mem_singleton_self _⟩
  | started i now acknowledged event _ hwork _ =>
    exact Or.inr ⟨i, _, hwork, List.mem_singleton_self _⟩
  | judged i alerts writtenAt window now _ records decision hwork _ =>
    exact Or.inr ⟨i, _, hwork, List.mem_cons_self⟩
  | reselected i writtenAt _ selected requestedBy reason now hwork =>
    exact Or.inr ⟨i, _, hwork, List.mem_singleton_self _⟩
  | redeployed i request now writtenAt _ _ deployment hwork _ _ =>
    exact Or.inr ⟨i, _, hwork, List.mem_singleton_self _⟩
  | reverified i request now writtenAt _ _ hwork _ _ =>
    exact Or.inr ⟨i, _, hwork, List.mem_singleton_self _⟩

end Opsia.Recovery
