import Opsia.Evidence.Jobs
import Opsia.Lib.Runs

/-!
# The lifecycle of an evidence job

`JobStep` says once what a transaction can do to a row: keep it, queue it, lease it,
report it, close it or clear its result. Every part of the lifecycle is derived from it,
together with the history of the leases granted and the reports accepted so far.
-/

namespace Opsia.Evidence

open Runs

/-! ## What a transaction grants and accepts -/

/-- The lease that a transaction grants on a job. -/
def granted (s : Store) (a : Action) (jobId : String) : Option Lease :=
  match a with
  | .lease request =>
    match (s.leaseEvidenceJob request).1 with
    | none => none
    | some job => if job.jobId = jobId then job.lease else none
  | _ => none

/-- The report that a transaction accepts for a job. -/
def acceptedReport (s : Store) (a : Action) (jobId : String) : Option Report :=
  match a with
  | .complete report =>
    match (s.completeEvidenceJob report).1 with
    | .accepted _ => if report.jobId = jobId then some report else none
    | _ => none
  | _ => none

/-- What a transaction does to the row of one job. -/
inductive JobStep (s : Store) (a : Action) : Option EvidenceJob → EvidenceJob → Prop
  /-- the row is as it was -/
  | kept (job : EvidenceJob) (hgranted : granted s a job.jobId = none)
      (hreport : acceptedReport s a job.jobId = none) : JobStep s a (some job) job
  /-- the row is inserted -/
  | queued (request : QueueRequest) (now : Timestamp) (providerKey : String)
      (ha : a = .queue request now) : JobStep s a none (request.job now providerKey)
  /-- the row is leased -/
  | leased (job : EvidenceJob) (request : LeaseRequest) (ha : a = .lease request)
      (hleasable : job.leasable request.now = true)
      (hgranted : granted s a job.jobId = some (s.nextId, request.agentId)) :
      JobStep s a (some job)
        (job.leasedTo (s.nextId, request.agentId) (request.appNow + request.leaseSeconds))
  /-- the report of its holder is accepted -/
  | reported (job : EvidenceJob) (report : Report) (ha : a = .complete report)
      (hlease : job.lease = some report.lease) (hstatus : job.status = .leased)
      (hreport : acceptedReport s a job.jobId = some report) :
      JobStep s a (some job) (job.reported report)
  /-- the janitor closes the row -/
  | closed (job : EvidenceJob) (limit : ℕ) (now : Timestamp) (locked : List String)
      (ha : a = .failExhausted limit now locked) (hexhausted : job.exhausted now = true) :
      JobStep s a (some job) job.closed
  /-- the result of the row is cleared -/
  | cleared (job : EvidenceJob) (window : EvidenceWindow) (ha : a = .record window) :
      JobStep s a (some job) job.cleared

/-! ## Every transaction is a step of every row -/

variable {s : Store} {jobId : String} {a : Action} {job : EvidenceJob} {request : QueueRequest}
  {l : List (Entry Store Action)}

theorem find?_insert {now : Timestamp} {queued : List String × Table EvidenceJob.jobId}
    {providerKey : String} (h : (request.insert now queued providerKey).2.find? jobId = some job) :
    queued.2.find? jobId = some job ∨
      (queued.2.find? jobId = none ∧ job = request.job now providerKey) := by
  simp only [QueueRequest.insert] at h
  rcases hinsert : queued.2.insert? (request.job now providerKey) with _ | jobs
  · rw [hinsert] at h
    exact .inl h
  · rw [hinsert] at h
    dsimp only at h
    rw [Table.find?_of_insert? hinsert] at h
    by_cases hsame : jobId = (request.job now providerKey).jobId
    · rw [if_pos hsame] at h
      refine .inr ⟨?_, (Option.some.inj h).symm⟩
      rw [hsame]
      exact (Table.insert?_eq_some hinsert).1
    · rw [if_neg hsame] at h
      exact .inl h

theorem find?_insert_of_some {now : Timestamp} {queued : List String × Table EvidenceJob.jobId}
    {providerKey : String} (h : queued.2.find? jobId = some job) :
    (request.insert now queued providerKey).2.find? jobId = some job := by
  simp only [QueueRequest.insert]
  rcases hinsert : queued.2.insert? (request.job now providerKey) with _ | jobs
  · exact h
  · dsimp only
    rw [Table.find?_of_insert? hinsert, if_neg]
    · exact h
    · rintro rfl
      rw [(Table.insert?_eq_some hinsert).1] at h
      cases h

theorem find?_queue_of_some {now : Timestamp} {providerKeys : List String}
    {queued : List String × Table EvidenceJob.jobId} (h : queued.2.find? jobId = some job) :
    (providerKeys.foldl (request.insert now) queued).2.find? jobId = some job := by
  induction providerKeys generalizing queued with
  | nil => exact h
  | cons providerKey providerKeys ih => exact ih (find?_insert_of_some h)

theorem find?_queue {now : Timestamp} {providerKeys : List String}
    {queued : List String × Table EvidenceJob.jobId}
    (h : (providerKeys.foldl (request.insert now) queued).2.find? jobId = some job) :
    queued.2.find? jobId = some job ∨
      (queued.2.find? jobId = none ∧ ∃ providerKey, job = request.job now providerKey) := by
  rcases hold : queued.2.find? jobId with _ | old
  · refine .inr ⟨rfl, ?_⟩
    induction providerKeys generalizing queued with
    | nil =>
      change queued.2.find? jobId = some job at h
      rw [hold] at h
      cases h
    | cons providerKey providerKeys ih =>
      rcases hnext : (request.insert now queued providerKey).2.find? jobId with _ | row
      · exact ih h hnext
      · rcases find?_insert hnext with hfound | ⟨-, rfl⟩
        · rw [hold] at hfound
          cases hfound
        · refine ⟨providerKey, ?_⟩
          have hlast : (providerKeys.foldl (request.insert now)
              (request.insert now queued providerKey)).2.find? jobId =
                some (request.job now providerKey) := find?_queue_of_some hnext
          exact Option.some.inj (h.symm.trans hlast)
  · rw [find?_queue_of_some hold] at h
    exact .inl h

/-- A candidate of a lease is a leasable row. -/
theorem mem_of_oldest {jobs : List EvidenceJob} {pick : ℕ} (h : oldest jobs pick = some job) :
    job ∈ jobs := by
  simp only [oldest, Option.or_eq_some_iff] at h
  rcases h with h | ⟨-, h⟩
  · exact List.mem_of_mem_filter (List.mem_of_getElem? h)
  · exact List.mem_of_mem_filter (List.mem_of_head? h)

theorem leaseEvidenceJob_cases (s : Store) (request : LeaseRequest) :
    s.leaseEvidenceJob request = (none, s) ∨
      ∃ job ∈ s.jobs.rows, job.leasable request.now = true ∧
        s.leaseEvidenceJob request =
          (some (job.leasedTo (s.nextId, request.agentId) (request.appNow + request.leaseSeconds)),
            { s with
              jobs := s.jobs.modify job.jobId
                (fun row => row.leasedTo (s.nextId, request.agentId)
                  (request.appNow + request.leaseSeconds))
                fun row => row.jobId_leasedTo _ _
              nextId := s.nextId + 1 }) := by
  rcases holdest : oldest (s.leaseCandidates request) request.pick with _ | job
  · left
    simp only [Store.leaseEvidenceJob, holdest]
  · right
    obtain ⟨hjob, hcandidate⟩ := List.mem_filter.mp (mem_of_oldest holdest)
    simp only [Bool.and_eq_true] at hcandidate
    refine ⟨job, hjob, hcandidate.1.2, ?_⟩
    simp only [Store.leaseEvidenceJob, holdest]

theorem completeEvidenceJob_cases (s : Store) (report : Report) :
    ((s.completeEvidenceJob report).2 = s ∧
        ∀ job, (s.completeEvidenceJob report).1 ≠ .accepted job) ∨
      ∃ job ∈ s.jobs.rows, job.jobId = report.jobId ∧ job.lease = some report.lease ∧
        job.status = .leased ∧ s.completeEvidenceJob report =
          (.accepted (job.reported report),
            { s with
              jobs := s.jobs.modify report.jobId (fun row => row.reported report)
                fun row => row.jobId_reported report }) := by
  rcases hfind : s.jobs.find? report.jobId with _ | job
  · left
    simp [Store.completeEvidenceJob, hfind]
  · by_cases hmatches : job.matches report = true
    · by_cases hstatus : job.status = .leased
      · right
        have hlease := hmatches
        simp only [EvidenceJob.matches, Bool.and_eq_true, decide_eq_true_eq] at hlease
        refine ⟨job, Table.mem_of_find? hfind, Table.key_of_find? hfind, hlease.2, hstatus, ?_⟩
        simp only [Store.completeEvidenceJob, hfind, if_pos hmatches, if_pos hstatus]
      · left
        simp [Store.completeEvidenceJob, hfind, hmatches, hstatus]
    · left
      simp [Store.completeEvidenceJob, hfind, hmatches]

/-- **Every row of the store after a transaction** is the row before it after one step. -/
theorem jobStep_of_find? (h : (step s a).jobs.find? jobId = some job) :
    JobStep s a (s.jobs.find? jobId) job := by
  have hid : job.jobId = jobId := Table.key_of_find? h
  cases a with
  | queue request now =>
    rcases find?_queue h with hold | ⟨hnone, providerKey, rfl⟩
    · change s.jobs.find? jobId = some job at hold
      rw [hold]
      exact .kept job rfl rfl
    · change s.jobs.find? jobId = none at hnone
      rw [hnone]
      exact .queued request now providerKey rfl
  | lease request =>
    rcases leaseEvidenceJob_cases s request with hlease | ⟨old, hold, hleasable, hlease⟩
    · change (s.leaseEvidenceJob request).2.jobs.find? jobId = some job at h
      rw [hlease] at h
      rw [h]
      refine .kept job ?_ rfl
      simp only [granted, hlease]
    · change (s.leaseEvidenceJob request).2.jobs.find? jobId = some job at h
      rw [hlease] at h
      dsimp only at h
      rw [Table.find?_modify] at h
      by_cases hsame : jobId = old.jobId
      · rw [if_pos hsame, hsame, Table.find?_of_mem hold, Option.map_some] at h
        cases h
        rw [hsame, Table.find?_of_mem hold]
        refine .leased old request rfl hleasable ?_
        simp only [granted, hlease]
        exact if_pos rfl
      · rw [if_neg hsame] at h
        rw [h]
        refine .kept job ?_ rfl
        simp only [granted, hlease]
        exact if_neg fun hsame' => hsame (hid.symm.trans hsame'.symm)
  | complete report =>
    rcases completeEvidenceJob_cases s report with ⟨hstore, hreply⟩ | ⟨old, hold, hkey, hlease,
      hstatus, hcomplete⟩
    · change (s.completeEvidenceJob report).2.jobs.find? jobId = some job at h
      rw [hstore] at h
      rw [h]
      refine .kept job rfl ?_
      simp only [acceptedReport]
    · change (s.completeEvidenceJob report).2.jobs.find? jobId = some job at h
      rw [hcomplete] at h
      dsimp only at h
      rw [Table.find?_modify] at h
      by_cases hsame : jobId = report.jobId
      · have hfind : s.jobs.find? jobId = some old := by
          rw [hsame, ← hkey]
          exact Table.find?_of_mem hold
        rw [if_pos hsame, hfind, Option.map_some] at h
        cases h
        rw [hfind]
        refine .reported old report rfl hlease hstatus ?_
        simp only [acceptedReport, hcomplete]
        exact if_pos hkey.symm
      · rw [if_neg hsame] at h
        rw [h]
        refine .kept job rfl ?_
        simp only [acceptedReport, hcomplete]
        exact if_neg fun hsame' => hsame (hid.symm.trans hsame'.symm)
  | failExhausted limit now locked =>
    change ((s.failExhaustedEvidenceJobs limit now locked).2.jobs.find? jobId) = some job at h
    simp only [Store.failExhaustedEvidenceJobs] at h
    rw [Table.find?_modifyWhere] at h
    obtain ⟨old, hfind, hjob⟩ := Option.map_eq_some_iff.mp h
    rw [hfind]
    by_cases hselected : old.jobId ∈ (s.exhaustedJobs limit now locked).map EvidenceJob.jobId
    · rw [decide_eq_true hselected] at hjob
      subst hjob
      refine .closed old limit now locked rfl ?_
      obtain ⟨row, hrow, hsame⟩ := List.mem_map.mp hselected
      have hrow' := List.mem_of_mem_take hrow
      rw [List.mem_mergeSort] at hrow'
      obtain ⟨hmem, hexhausted⟩ := List.mem_filter.mp hrow'
      have hrows : row = old := by
        have := Table.find?_of_mem hmem
        rw [hsame, Table.find?_of_mem (Table.mem_of_find? hfind)] at this
        exact (Option.some.inj this).symm
      rw [Bool.and_eq_true] at hexhausted
      rw [← hrows]
      exact hexhausted.1
    · rw [decide_eq_false hselected] at hjob
      subst hjob
      exact .kept old rfl rfl
  | record window =>
    change ((s.recordEvidenceEventOnce window).2.jobs.find? jobId) = some job at h
    simp only [Store.recordEvidenceEventOnce] at h
    rcases hinsert : s.windows.insert? window with _ | windows
    · rw [hinsert] at h
      dsimp only at h
      rw [h]
      exact .kept job rfl rfl
    · rw [hinsert] at h
      dsimp only at h
      rw [Table.find?_modifyWhere] at h
      obtain ⟨old, hfind, hjob⟩ := Option.map_eq_some_iff.mp h
      rw [hfind]
      split at hjob
      · subst hjob
        exact .cleared old window rfl
      · subst hjob
        exact .kept old rfl rfl

/-- No transaction removes a row. -/
theorem exists_find?_step {old : EvidenceJob} (h : s.jobs.find? jobId = some old) (a : Action) :
    ∃ job, (step s a).jobs.find? jobId = some job := by
  cases a with
  | queue request now => exact ⟨old, find?_queue_of_some h⟩
  | lease request =>
    rcases leaseEvidenceJob_cases s request with hlease | ⟨row, -, -, hlease⟩
    · refine ⟨old, ?_⟩
      change (s.leaseEvidenceJob request).2.jobs.find? jobId = some old
      rw [hlease]
      exact h
    · change ∃ job, (s.leaseEvidenceJob request).2.jobs.find? jobId = some job
      rw [hlease]
      dsimp only
      rw [Table.find?_modify, h]
      split
      · exact ⟨_, rfl⟩
      · exact ⟨_, rfl⟩
  | complete report =>
    rcases completeEvidenceJob_cases s report with ⟨hstore, -⟩ | ⟨row, -, -, -, -, hcomplete⟩
    · refine ⟨old, ?_⟩
      change (s.completeEvidenceJob report).2.jobs.find? jobId = some old
      rw [hstore]
      exact h
    · change ∃ job, (s.completeEvidenceJob report).2.jobs.find? jobId = some job
      rw [hcomplete]
      dsimp only
      rw [Table.find?_modify, h]
      split
      · exact ⟨_, rfl⟩
      · exact ⟨_, rfl⟩
  | failExhausted limit now locked =>
    change ∃ job, (s.failExhaustedEvidenceJobs limit now locked).2.jobs.find? jobId = some job
    simp only [Store.failExhaustedEvidenceJobs]
    rw [Table.find?_modifyWhere, h]
    exact ⟨_, rfl⟩
  | record window =>
    change ∃ job, (s.recordEvidenceEventOnce window).2.jobs.find? jobId = some job
    simp only [Store.recordEvidenceEventOnce]
    rcases s.windows.insert? window with _ | windows
    · exact ⟨old, h⟩
    · dsimp only
      rw [Table.find?_modifyWhere, h]
      exact ⟨_, rfl⟩

/-! ## The history of a job -/

/-- The leases granted on a job, oldest first. -/
def grants (l : List (Entry Store Action)) (jobId : String) : List Lease :=
  l.filterMap fun e => granted e.pre e.action jobId

/-- The reports accepted for a job, oldest first. -/
def reports (l : List (Entry Store Action)) (jobId : String) : List Report :=
  l.filterMap fun e => acceptedReport e.pre e.action jobId

/-- The row agrees with the history of its job. -/
structure Tracked (l : List (Entry Store Action)) (job : EvidenceJob) : Prop where
  /-- the attempts are the leases granted -/
  attempts : job.attemptCount = (grants l job.jobId).length
  /-- the row names the lease granted last -/
  lease : job.lease = (grants l job.jobId).getLast?
  /-- no attempt is granted beyond the budget -/
  budget : 1 ≤ job.maxAttempts → (job.attemptCount : ℤ) ≤ job.maxAttempts
  /-- a queued row has an attempt left -/
  queued : 1 ≤ job.maxAttempts → job.status = .queued → (job.attemptCount : ℤ) < job.maxAttempts
  /-- a leased row has a deadline -/
  leased : job.status = .leased → job.leasedUntil.isSome
  /-- a stored result is the accepted report of the lease granted last -/
  result : ∀ value, job.result = some value → job.status = .completed ∧
    ∃ report ∈ reports l job.jobId, job.lease = some report.lease ∧
      value = normalizeEvidenceProviderResult job.providerKey report.result

/-- The history invariant: every row is tracked, and a job without a row has no lease. -/
structure History (l : List (Entry Store Action)) (s : Store) : Prop where
  tracked : ∀ jobId job, s.jobs.find? jobId = some job → Tracked l job
  absent : ∀ jobId, s.jobs.find? jobId = none → grants l jobId = []

theorem grants_append (l : List (Entry Store Action)) (s : Store) (a : Action) (jobId : String) :
    grants (l ++ [⟨s, a, step s a⟩]) jobId = grants l jobId ++ (granted s a jobId).toList := by
  rw [grants, List.filterMap_append]
  rcases hgranted : granted s a jobId with _ | lease
  · simp [grants, hgranted]
  · simp [grants, hgranted]

theorem reports_append (l : List (Entry Store Action)) (s : Store) (a : Action) (jobId : String) :
    reports (l ++ [⟨s, a, step s a⟩]) jobId =
      reports l jobId ++ (acceptedReport s a jobId).toList := by
  rw [reports, List.filterMap_append]
  rcases hreport : acceptedReport s a jobId with _ | report
  · simp [reports, hreport]
  · simp [reports, hreport]

theorem grants_append_of_none (h : granted s a jobId = none) :
    grants (l ++ [⟨s, a, step s a⟩]) jobId = grants l jobId := by
  rw [grants_append, h, Option.toList_none, List.append_nil]

/-- **One step of a tracked row.** -/
theorem Tracked.step {old : Option EvidenceJob} (h : ∀ row, old = some row → Tracked l row)
    (habsent : old = none → grants l job.jobId = []) (hstep : JobStep s a old job) :
    Tracked (l ++ [⟨s, a, step s a⟩]) job := by
  have hreports : ∀ jobId report, report ∈ reports l jobId →
      report ∈ reports (l ++ [⟨s, a, Evidence.step s a⟩]) jobId := by
    intro jobId report hreport
    rw [reports_append]
    exact List.mem_append_left _ hreport
  cases hstep with
  | kept job hgranted hreport =>
    have hrow := h job rfl
    have hgrants := grants_append_of_none (l := l) hgranted
    refine ⟨?_, ?_, hrow.budget, hrow.queued, hrow.leased, ?_⟩
    · rw [hgrants]
      exact hrow.attempts
    · rw [hgrants]
      exact hrow.lease
    · intro value hvalue
      obtain ⟨hstatus, report, hmem, hlease, hvalue⟩ := hrow.result value hvalue
      exact ⟨hstatus, report, hreports _ _ hmem, hlease, hvalue⟩
  | queued request now providerKey ha =>
    subst ha
    have hgrants : grants (l ++ [⟨s, .queue request now, Evidence.step s (.queue request now)⟩])
        (request.job now providerKey).jobId = [] :=
      (grants_append_of_none rfl).trans (habsent rfl)
    refine ⟨?_, ?_, ?_, ?_, ?_, ?_⟩
    · rw [hgrants]
      rfl
    · rw [hgrants]
      rfl
    · intro hmax
      change (0 : ℤ) ≤ _
      omega
    · intro hmax _
      change (0 : ℤ) < _
      omega
    · intro hstatus
      cases hstatus
    · intro value hvalue
      cases hvalue
  | leased job request ha hleasable hgranted =>
    have hrow := h job rfl
    have hgrants : grants (l ++ [⟨s, a, Evidence.step s a⟩]) job.jobId =
        grants l job.jobId ++ [(s.nextId, request.agentId)] := by
      rw [grants_append, hgranted, Option.toList_some]
    rw [EvidenceJob.leasable, Bool.and_eq_true, decide_eq_true_eq] at hleasable
    refine ⟨?_, ?_, ?_, ?_, ?_, ?_⟩
    · rw [EvidenceJob.jobId_leasedTo, hgrants, List.length_append, ← hrow.attempts]
      rfl
    · rw [EvidenceJob.jobId_leasedTo, hgrants, List.getLast?_concat]
      rfl
    · intro _
      have := hleasable.2
      change ((job.attemptCount + 1 : ℕ) : ℤ) ≤ job.maxAttempts
      omega
    · intro _ hstatus
      cases hstatus
    · intro _
      rfl
    · intro value hvalue
      obtain ⟨hcompleted, -⟩ := hrow.result value hvalue
      rw [hcompleted] at hleasable
      cases hleasable.1
  | reported job report ha hlease hstatus hreport =>
    have hrow := h job rfl
    have hgrants : grants (l ++ [⟨s, a, Evidence.step s a⟩]) job.jobId = grants l job.jobId := by
      subst ha
      exact grants_append_of_none rfl
    refine ⟨?_, ?_, hrow.budget, ?_, ?_, ?_⟩
    · rw [EvidenceJob.jobId_reported, hgrants]
      exact hrow.attempts
    · rw [EvidenceJob.jobId_reported, hgrants]
      exact hrow.lease
    · intro _ hqueued
      change job.nextStatus report = .queued at hqueued
      change (job.attemptCount : ℤ) < job.maxAttempts
      simp only [EvidenceJob.nextStatus] at hqueued
      split at hqueued
      · split at hqueued
        · cases hqueued
        · omega
      · cases hqueued
    · intro hleased
      change job.nextStatus report = .leased at hleased
      simp only [EvidenceJob.nextStatus] at hleased
      split at hleased
      · split at hleased
        · cases hleased
        · cases hleased
      · cases hleased
    · intro value hvalue
      change (if _ then _ else none) = some value at hvalue
      split at hvalue
      · rename_i hcompleted
        refine ⟨hcompleted, report, ?_, hlease, (Option.some.inj hvalue).symm⟩
        rw [EvidenceJob.jobId_reported, reports_append, hreport]
        exact List.mem_append_right _ List.mem_cons_self
      · cases hvalue
  | closed job limit now locked ha hexhausted =>
    have hrow := h job rfl
    have hgrants : grants (l ++ [⟨s, a, Evidence.step s a⟩]) job.jobId = grants l job.jobId := by
      subst ha
      exact grants_append_of_none rfl
    refine ⟨?_, ?_, hrow.budget, ?_, ?_, ?_⟩
    · rw [EvidenceJob.jobId_closed, hgrants]
      exact hrow.attempts
    · rw [EvidenceJob.jobId_closed, hgrants]
      exact hrow.lease
    · intro _ hqueued
      cases hqueued
    · intro hleased
      cases hleased
    · intro value hvalue
      cases hvalue
  | cleared job window ha =>
    have hrow := h job rfl
    have hgrants : grants (l ++ [⟨s, a, Evidence.step s a⟩]) job.jobId = grants l job.jobId := by
      subst ha
      exact grants_append_of_none rfl
    refine ⟨?_, ?_, hrow.budget, hrow.queued, hrow.leased, ?_⟩
    · rw [EvidenceJob.jobId_cleared, hgrants]
      exact hrow.attempts
    · rw [EvidenceJob.jobId_cleared, hgrants]
      exact hrow.lease
    · intro value hvalue
      cases hvalue

theorem granted_of_absent (h : s.jobs.find? jobId = none) (a : Action) :
    granted s a jobId = none := by
  cases a with
  | lease request =>
    rcases leaseEvidenceJob_cases s request with hlease | ⟨row, hrow, -, hlease⟩
    · simp only [granted, hlease]
    · simp only [granted, hlease]
      exact if_neg (Table.find?_eq_none.mp h row hrow)
  | queue request now => rfl
  | complete report => rfl
  | failExhausted limit now locked => rfl
  | record window => rfl

/-- **The history invariant.** -/
theorem run_history (actions : List Action) :
    History (trace step .empty actions) (run step .empty actions) := by
  refine run_history_invariant (P := History) (fun l s a h => ⟨?_, ?_⟩) ⟨?_, ?_⟩ actions
  · intro jobId job hfind
    have hid : job.jobId = jobId := Table.key_of_find? hfind
    refine Tracked.step (fun row hrow => h.tracked jobId row hrow) (fun hnone => ?_)
      (jobStep_of_find? hfind)
    rw [hid]
    exact h.absent jobId hnone
  · intro jobId hnone
    have hold : s.jobs.find? jobId = none := by
      rcases hfind : s.jobs.find? jobId with _ | old
      · rfl
      · obtain ⟨job, hjob⟩ := exists_find?_step hfind a
        rw [hnone] at hjob
        cases hjob
    rw [grants_append_of_none (granted_of_absent hold a)]
    exact h.absent jobId hold
  · intro jobId job hfind
    cases hfind
  · intro jobId _
    rfl

/-! ## Absorbing statuses -/

theorem JobStep.status_of_terminal {old : EvidenceJob} (h : JobStep s a (some old) job)
    (hterminal : old.status.isTerminal = true) :
    job.status = old.status := by
  cases h with
  | kept _ hgranted hreport => rfl
  | leased _ request ha hleasable hgranted =>
    simp only [EvidenceJob.leasable, Bool.and_eq_true] at hleasable
    rcases hstatus : old.status with _ | _ | _ | _
    · rw [hstatus] at hterminal
      cases hterminal
    · rw [hstatus] at hterminal
      cases hterminal
    · rw [hstatus] at hleasable
      cases hleasable.1
    · rw [hstatus] at hleasable
      cases hleasable.1
  | reported _ report ha hlease hstatus hreport =>
    rw [hstatus] at hterminal
    cases hterminal
  | closed _ limit now locked ha hexhausted =>
    simp only [EvidenceJob.exhausted, Bool.and_eq_true, decide_eq_true_eq] at hexhausted
    rw [hexhausted.1.1] at hterminal
    cases hterminal
  | cleared _ window ha => rfl

/-! ## One report for each lease -/

/-- Lease identifiers are drawn from the supply, and no two rows share one. -/
structure LeasesFresh (s : Store) : Prop where
  drawn : ∀ jobId job lease, s.jobs.find? jobId = some job → job.lease = some lease →
    lease.1 < s.nextId
  unshared : ∀ jobId job jobId' job' lease lease', s.jobs.find? jobId = some job →
    s.jobs.find? jobId' = some job' → job.lease = some lease → job'.lease = some lease' →
      lease.1 = lease'.1 → jobId = jobId'

/-- The supply of identifiers never goes back, and advances when a lease is granted. -/
theorem nextId_step (s : Store) (a : Action) : s.nextId ≤ (step s a).nextId := by
  cases a with
  | queue request now => exact Nat.le_refl _
  | lease request =>
    rcases leaseEvidenceJob_cases s request with hlease | ⟨row, -, -, hlease⟩
    · exact Nat.le_of_eq (congrArg (fun r : Option EvidenceJob × Store => r.2.nextId) hlease).symm
    · refine Nat.le_trans (Nat.le_succ _) (Nat.le_of_eq ?_)
      exact (congrArg (fun r : Option EvidenceJob × Store => r.2.nextId) hlease).symm
  | complete report =>
    rcases completeEvidenceJob_cases s report with ⟨hstore, -⟩ | ⟨row, -, -, -, -, hcomplete⟩
    · exact Nat.le_of_eq (congrArg Store.nextId hstore).symm
    · exact Nat.le_of_eq (congrArg (fun r : ReportReply × Store => r.2.nextId) hcomplete).symm
  | failExhausted limit now locked => exact Nat.le_refl _
  | record window =>
    change s.nextId ≤ (s.recordEvidenceEventOnce window).2.nextId
    simp only [Store.recordEvidenceEventOnce]
    split
    · exact Nat.le_refl _
    · exact Nat.le_refl _

theorem nextId_of_granted {lease : Lease} (h : granted s a jobId = some lease) :
    (step s a).nextId = s.nextId + 1 := by
  cases a with
  | lease request =>
    rcases leaseEvidenceJob_cases s request with hlease | ⟨row, -, -, hlease⟩
    · simp only [granted, hlease] at h
      cases h
    · change (s.leaseEvidenceJob request).2.nextId = _
      rw [hlease]
  | queue request now => cases h
  | complete report => cases h
  | failExhausted limit now locked => cases h
  | record window => cases h

theorem granted_unique {jobId' : String} {lease lease' : Lease} (h : granted s a jobId = some lease)
    (h' : granted s a jobId' = some lease') :
    jobId = jobId' := by
  cases a with
  | lease request =>
    simp only [granted] at h h'
    rcases hreply : (s.leaseEvidenceJob request).1 with _ | job
    · rw [hreply] at h
      cases h
    · rw [hreply] at h h'
      change (if job.jobId = jobId then job.lease else none) = some lease at h
      change (if job.jobId = jobId' then job.lease else none) = some lease' at h'
      split at h
      · rename_i hsame
        split at h'
        · rename_i hsame'
          exact hsame.symm.trans hsame'
        · cases h'
      · cases h
  | queue request now => cases h
  | complete report => cases h
  | failExhausted limit now locked => cases h
  | record window => cases h

theorem JobStep.lease_cases {old : Option EvidenceJob} {lease : Lease} (h : JobStep s a old job)
    (hlease : job.lease = some lease) :
    (∃ row, old = some row ∧ row.lease = some lease ∧ row.jobId = job.jobId) ∨
      (granted s a job.jobId = some lease ∧ lease.1 = s.nextId) := by
  cases h with
  | kept job hgranted hreport => exact .inl ⟨job, rfl, hlease, rfl⟩
  | queued request now providerKey ha => cases hlease
  | leased job request ha hleasable hgranted =>
    cases hlease
    exact .inr ⟨hgranted, rfl⟩
  | reported job report ha hlease' hstatus hreport => exact .inl ⟨job, rfl, hlease, rfl⟩
  | closed job limit now locked ha hexhausted => exact .inl ⟨job, rfl, hlease, rfl⟩
  | cleared job window ha => exact .inl ⟨job, rfl, hlease, rfl⟩

/-- **Leases stay fresh.** -/
theorem LeasesFresh.step (h : LeasesFresh s) (a : Action) :
    LeasesFresh (step s a) := by
  constructor
  · intro jobId job lease hfind hlease
    rcases (jobStep_of_find? hfind).lease_cases hlease with ⟨row, hrow, hold, -⟩ | ⟨hgranted, hid⟩
    · exact Nat.lt_of_lt_of_le (h.drawn jobId row lease hrow hold) (nextId_step s a)
    · rw [nextId_of_granted hgranted, hid]
      exact Nat.lt_succ_self _
  · intro jobId job jobId' job' lease lease' hfind hfind' hlease hlease' hsame
    have hid : job.jobId = jobId := Table.key_of_find? hfind
    have hid' : job'.jobId = jobId' := Table.key_of_find? hfind'
    rcases (jobStep_of_find? hfind).lease_cases hlease with ⟨row, hrow, hold, -⟩ | ⟨hgranted, hnext⟩
    · rcases (jobStep_of_find? hfind').lease_cases hlease' with
        ⟨row', hrow', hold', -⟩ | ⟨hgranted', hnext'⟩
      · exact h.unshared jobId row jobId' row' lease lease' hrow hrow' hold hold' hsame
      · have hdrawn := h.drawn jobId row lease hrow hold
        rw [hsame, hnext'] at hdrawn
        exact absurd hdrawn (Nat.lt_irrefl _)
    · rcases (jobStep_of_find? hfind').lease_cases hlease' with
        ⟨row', hrow', hold', -⟩ | ⟨hgranted', hnext'⟩
      · have hdrawn := h.drawn jobId' row' lease' hrow' hold'
        rw [← hsame, hnext] at hdrawn
        exact absurd hdrawn (Nat.lt_irrefl _)
      · rw [← hid, ← hid']
        exact granted_unique hgranted hgranted'

/-- The lease can no longer be reported: its identifier is drawn, and no row holds it. -/
def Spent (leaseId : Uuid) (s : Store) : Prop :=
  leaseId < s.nextId ∧ ∀ jobId job lease, s.jobs.find? jobId = some job →
    job.lease = some lease → lease.1 = leaseId → job.status ≠ .leased

/-- An accepted report of the lease. -/
def AcceptsLease (leaseId : Uuid) (e : Entry Store Action) : Prop :=
  ∃ jobId report, acceptedReport e.pre e.action jobId = some report ∧ report.lease.1 = leaseId

theorem find?_of_acceptedReport {report : Report} (h : acceptedReport s a jobId = some report) :
    a = .complete report ∧
      ∃ job, s.jobs.find? jobId = some job ∧ job.lease = some report.lease ∧
        job.status = .leased := by
  cases a with
  | complete sent =>
    rcases completeEvidenceJob_cases s sent with ⟨-, hreply⟩ | ⟨job, hjob, hkey, hlease, hstatus,
      hcomplete⟩
    · simp only [acceptedReport] at h
      cases h
    · simp only [acceptedReport, hcomplete] at h
      change (if sent.jobId = jobId then some sent else none) = some report at h
      split at h
      · rename_i hsame
        cases h
        refine ⟨rfl, job, ?_, hlease, hstatus⟩
        rw [← hsame, ← hkey]
        exact Table.find?_of_mem hjob
      · cases h
  | queue request now => cases h
  | lease request => cases h
  | failExhausted limit now locked => cases h
  | record window => cases h

theorem Spent.step {leaseId : Uuid} (h : Spent leaseId s) (a : Action) :
    Spent leaseId (step s a) := by
  refine ⟨Nat.lt_of_lt_of_le h.1 (nextId_step s a), ?_⟩
  intro jobId job lease hfind hlease hsame hleased
  have hstep := jobStep_of_find? hfind
  generalize hold : s.jobs.find? jobId = old at hstep
  cases hstep with
  | kept _ hgranted hreport => exact h.2 jobId job lease hold hlease hsame hleased
  | queued request now providerKey ha => cases hlease
  | leased row request ha hleasable hgranted =>
    cases hlease
    have hdrawn := h.1
    rw [← hsame] at hdrawn
    exact Nat.lt_irrefl _ hdrawn
  | reported row report ha hlease' hstatus hreport =>
    exact h.2 jobId row lease hold hlease hsame hstatus
  | closed row limit now locked ha hexhausted => cases hleased
  | cleared row window ha => exact h.2 jobId row lease hold hlease hsame hleased

theorem spent_of_acceptedReport (hfresh : LeasesFresh s) {report : Report}
    (h : acceptedReport s a jobId = some report) :
    ¬ Spent report.lease.1 s ∧ Spent report.lease.1 (step s a) := by
  obtain ⟨rfl, job, hfind, hlease, hstatus⟩ := find?_of_acceptedReport h
  refine ⟨fun hspent => hspent.2 jobId job report.lease hfind hlease rfl hstatus, ?_, ?_⟩
  · exact Nat.lt_of_lt_of_le (hfresh.drawn jobId job report.lease hfind hlease)
      (nextId_step s (.complete report))
  · intro jobId' job' lease' hfind' hlease' hsame hleased
    have hid' : job'.jobId = jobId' := Table.key_of_find? hfind'
    have hstep := jobStep_of_find? hfind'
    generalize hold : s.jobs.find? jobId' = old at hstep
    cases hstep with
    | kept _ hgranted hreport =>
      -- the row would be the reported one, by the uniqueness of its lease
      have hrow := hfresh.unshared jobId' job' jobId job lease' report.lease hold hfind hlease'
        hlease hsame
      rw [hid', hrow, h] at hreport
      cases hreport
    | queued request now providerKey ha => cases ha
    | leased row request ha hleasable hgranted => cases ha
    | reported row sent ha hlease'' hstatus' hreport =>
      change row.nextStatus sent = .leased at hleased
      simp only [EvidenceJob.nextStatus] at hleased
      split at hleased
      · split at hleased
        · cases hleased
        · cases hleased
      · cases hleased
    | closed row limit now locked ha hexhausted => cases ha
    | cleared row window ha => cases ha

/-! ## One event for each window -/

/-- The transaction stages the event of an evidence key. -/
def Stages (key : String) (e : Entry Store Action) : Prop :=
  ∃ window, e.action = .record window ∧ window.evidenceKey = key ∧
    ∃ reply, (e.pre.recordEvidenceEventOnce window).1 = some reply ∧ reply.duplicate = false

/-- The window of an evidence key is there. -/
def Recorded (key : String) (s : Store) : Prop := s.windows.find? key ≠ none

/-- **What recording does to the windows.** -/
theorem find?_recordEvidenceEventOnce (s : Store) (window : EvidenceWindow) (key : String) :
    (s.recordEvidenceEventOnce window).2.windows.find? key =
      if key = window.evidenceKey then some ((s.windows.find? key).getD window)
      else s.windows.find? key := by
  rw [Store.recordEvidenceEventOnce]
  cases hinsert : s.windows.insert? window with
  | some windows =>
    obtain ⟨hnone, -⟩ := Table.insert?_eq_some hinsert
    refine (Table.find?_of_insert? hinsert key).trans ?_
    by_cases hkey : key = window.evidenceKey
    · rw [if_pos hkey, if_pos hkey, hkey, hnone, Option.getD_none]
    · rw [if_neg hkey, if_neg hkey]
  | none =>
    by_cases hkey : key = window.evidenceKey
    · cases hfind : s.windows.find? key with
      | some row => rw [if_pos hkey, Option.getD_some]
      | none =>
        obtain ⟨windows, hsome⟩ := Table.insert?_of_none (hkey ▸ hfind)
        rw [hinsert] at hsome
        cases hsome
    · rw [if_neg hkey]

/-- No transaction removes a window. -/
theorem Recorded.step {key : String} (h : Recorded key s) (a : Action) :
    Recorded key (step s a) := by
  cases a with
  | queue request now => exact h
  | lease request =>
    rcases leaseEvidenceJob_cases s request with hlease | ⟨row, -, -, hlease⟩
    · change (s.leaseEvidenceJob request).2.windows.find? key ≠ none
      rw [hlease]
      exact h
    · change (s.leaseEvidenceJob request).2.windows.find? key ≠ none
      rw [hlease]
      exact h
  | complete report =>
    rcases completeEvidenceJob_cases s report with ⟨hstore, -⟩ | ⟨row, -, -, -, -, hcomplete⟩
    · change (s.completeEvidenceJob report).2.windows.find? key ≠ none
      rw [hstore]
      exact h
    · change (s.completeEvidenceJob report).2.windows.find? key ≠ none
      rw [hcomplete]
      exact h
  | failExhausted limit now locked => exact h
  | record window =>
    change (s.recordEvidenceEventOnce window).2.windows.find? key ≠ none
    simp only [Store.recordEvidenceEventOnce]
    rcases hinsert : s.windows.insert? window with _ | windows
    · exact h
    · dsimp only
      rw [Table.find?_of_insert? hinsert]
      split
      · exact Option.some_ne_none _
      · exact h

theorem recorded_of_stages {key : String} (h : Stages key ⟨s, a, step s a⟩) :
    ¬ Recorded key s ∧ Recorded key (step s a) := by
  obtain ⟨window, ha, rfl, reply, hreply, hduplicate⟩ := h
  dsimp only at ha hreply
  subst ha
  simp only [Store.recordEvidenceEventOnce] at hreply
  rcases hinsert : s.windows.insert? window with _ | windows
  · rw [hinsert] at hreply
    obtain ⟨row, -, rfl⟩ := Option.map_eq_some_iff.mp hreply
    cases hduplicate
  · refine ⟨fun hrecorded => hrecorded (Table.insert?_eq_some hinsert).1, ?_⟩
    change (s.recordEvidenceEventOnce window).2.windows.find? window.evidenceKey ≠ none
    simp only [Store.recordEvidenceEventOnce, hinsert]
    rw [Table.find?_of_insert? hinsert, if_pos rfl]
    exact Option.some_ne_none _

/-! ## Main result -/

/-- An agent of the job's provider can lease it now. -/
def Leasable (s : Store) (job : EvidenceJob) (now : Timestamp) : Prop :=
  ∀ request : LeaseRequest, request.workspaceId = job.workspaceId →
    request.clusterId = job.clusterId → request.providerKey = job.providerKey →
      request.now = now → job.jobId ∉ request.locked → job ∈ s.leaseCandidates request

/-- The lease of the job has not expired. -/
def HoldsLease (job : EvidenceJob) (now : Timestamp) : Prop :=
  job.status = .leased ∧ ∃ leasedUntil, job.leasedUntil = some leasedUntil ∧ now ≤ leasedUntil

/-- The janitor closes the job now. -/
def Closable (s : Store) (job : EvidenceJob) (now : Timestamp) : Prop :=
  ∃ limit, job ∈ s.exhaustedJobs limit now []

/-- What holds of the jobs after a history `l` of transactions. -/
structure EvidenceLaw (l : List (Entry Store Action)) (s : Store) : Prop where
  /-- the attempts are the leases granted, and stay within the budget -/
  attempts : ∀ job ∈ s.jobs.rows, 1 ≤ job.maxAttempts →
    job.attemptCount = (grants l job.jobId).length ∧ (job.attemptCount : ℤ) ≤ job.maxAttempts
  /-- a queued job has an attempt left -/
  queued : ∀ job ∈ s.jobs.rows, 1 ≤ job.maxAttempts → job.status = .queued →
    (job.attemptCount : ℤ) < job.maxAttempts
  /-- no job that is not terminal is stuck -/
  live : ∀ job ∈ s.jobs.rows, 1 ≤ job.maxAttempts → job.status.isTerminal = false →
    ∀ now, Leasable s job now ∨ HoldsLease job now ∨ Closable s job now
  /-- COMPLETED and FAILED are absorbing -/
  absorbing : ∀ e ∈ l, ∀ jobId old, e.pre.jobs.find? jobId = some old →
    old.status.isTerminal = true →
      ∃ job, e.post.jobs.find? jobId = some job ∧ job.status = old.status
  /-- a lease is reported at most once -/
  reportedOnce : ∀ leaseId, AtMostOnce (AcceptsLease leaseId) l
  /-- a stored result comes from the holder of the last lease -/
  result : ∀ job ∈ s.jobs.rows, ∀ value, job.result = some value →
    ∃ report ∈ reports l job.jobId, (grants l job.jobId).getLast? = some report.lease ∧
      value = normalizeEvidenceProviderResult job.providerKey report.result
  /-- the event of an evidence key is staged at most once -/
  stagedOnce : ∀ key, AtMostOnce (Stages key) l

theorem live_of_tracked (h : Tracked l job) (hjob : job ∈ s.jobs.rows) (hmax : 1 ≤ job.maxAttempts)
    (hterminal : job.status.isTerminal = false) (now : Timestamp) :
    Leasable s job now ∨ HoldsLease job now ∨ Closable s job now := by
  have hcandidate : job.leasable now = true → Leasable s job now := by
    intro hleasable request hworkspace hcluster hprovider hnow hlocked
    refine List.mem_filter.mpr ⟨hjob, ?_⟩
    simp only [hworkspace, hcluster, hprovider, hnow, hleasable, hlocked, decide_true,
      Bool.and_true, not_false_eq_true]
  rcases hstatus : job.status with _ | _ | _ | _
  · left
    apply hcandidate
    simp only [EvidenceJob.leasable, hstatus, Bool.and_eq_true, decide_eq_true_eq]
    exact ⟨rfl, h.queued hmax hstatus⟩
  · obtain ⟨leasedUntil, huntil⟩ := Option.isSome_iff_exists.mp (h.leased hstatus)
    by_cases hexpired : leasedUntil < now
    · by_cases hleft : (job.attemptCount : ℤ) < job.maxAttempts
      · left
        apply hcandidate
        simp only [EvidenceJob.leasable, hstatus, huntil, Bool.and_eq_true, decide_eq_true_eq]
        exact ⟨by simp [hexpired], hleft⟩
      · right
        right
        refine ⟨s.jobs.rows.length, ?_⟩
        have hmem : job ∈ s.jobs.rows.filter fun job =>
            job.exhausted now && decide (job.jobId ∉ ([] : List String)) := by
          refine List.mem_filter.mpr ⟨hjob, ?_⟩
          simp only [EvidenceJob.exhausted, hstatus, huntil, Bool.and_eq_true, decide_eq_true_eq]
          exact ⟨⟨⟨trivial, by simp [hexpired]⟩, Int.not_lt.mp hleft⟩, List.not_mem_nil⟩
        simp only [Store.exhaustedJobs]
        rw [List.take_of_length_le]
        · exact List.mem_mergeSort.mpr hmem
        · rw [List.length_mergeSort]
          exact List.length_filter_le _ _
    · right
      left
      exact ⟨hstatus, leasedUntil, huntil, Int.not_lt.mp hexpired⟩
  · rw [hstatus] at hterminal
    cases hterminal
  · rw [hstatus] at hterminal
    cases hterminal

/-- **The lifecycle of evidence jobs.** In every run of queueing, leasing, reporting, the
janitor and the recording of windows, from the empty tables. -/
theorem run_evidence_law (actions : List Action) :
    EvidenceLaw (trace step .empty actions) (run step .empty actions) := by
  have hhistory := run_history actions
  have htracked : ∀ job ∈ (run step .empty actions).jobs.rows,
      Tracked (trace step .empty actions) job :=
    fun job hjob => hhistory.tracked job.jobId job (Table.find?_of_mem hjob)
  have hempty : LeasesFresh Store.empty :=
    ⟨fun _ _ _ hfind => (by cases hfind), fun _ _ _ _ _ _ hfind => (by cases hfind)⟩
  constructor
  · exact fun job hjob hmax => ⟨(htracked job hjob).attempts, (htracked job hjob).budget hmax⟩
  · exact fun job hjob hmax hstatus => (htracked job hjob).queued hmax hstatus
  · exact fun job hjob hmax hterminal now => live_of_tracked (htracked job hjob) hjob hmax
      hterminal now
  · intro e he jobId old hfind hterminal
    obtain ⟨-, -, -, -, hpost⟩ := mem_trace_iff.mp he
    obtain ⟨job, hjob⟩ := exists_find?_step hfind e.action
    have hstep := jobStep_of_find? hjob
    rw [hfind] at hstep
    rw [hpost]
    exact ⟨job, hjob, hstep.status_of_terminal hterminal⟩
  · intro leaseId
    refine atMostOnce_of_stable (P := LeasesFresh) (D := Spent leaseId)
      (fun s a h => h.step a) (fun s a _ h => h.step a) ?_ hempty actions
    rintro s a hfresh ⟨jobId, report, hreport, rfl⟩
    exact spent_of_acceptedReport hfresh hreport
  · intro job hjob value hvalue
    obtain ⟨-, report, hreport, hlease, hvalue⟩ := (htracked job hjob).result value hvalue
    exact ⟨report, hreport, (htracked job hjob).lease.symm.trans hlease, hvalue⟩
  · intro key
    refine atMostOnce_of_stable (P := fun _ => True) (D := Recorded key)
      (fun _ _ _ => trivial) (fun s a _ h => h.step a) ?_ trivial actions
    exact fun s a _ h => recorded_of_stages h

end Opsia.Evidence
