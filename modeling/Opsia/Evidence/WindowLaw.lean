import Opsia.Evidence.Collection

/-!
# No window is published too early

A window is published from the rows that its emission read. Once they are read, all of them are
terminal, and no transaction changes a terminal row, so what is published is what the rows hold: the
one thing that breaks this is a job queued late.
-/

namespace Opsia.Evidence

open Runs

/-! ## What a transaction does to the rows of a key -/

/-- The rows of a window. -/
def Store.rowsOf (s : Store) (key : String) : List EvidenceJob :=
  s.jobs.rows.filter fun row => row.evidenceKey = key

variable {x : CollectionAction} {key : String} {job : EvidenceJob} {payload : JsonFields}

variable {a : Action} {row : EvidenceJob}

theorem mem_rowsOf {s : Store} :
    row ∈ s.rowsOf key ↔ row ∈ s.jobs.rows ∧ row.evidenceKey = key := by
  simp [Store.rowsOf]

theorem evidenceKey_ne_of_open {s : Store}
    (hclosed : ∀ row ∈ s.rowsOf key, row.status.isTerminal = true) (hrow : row ∈ s.jobs.rows)
    (hopen : row.status.isTerminal = false) :
    row.evidenceKey ≠ key := by
  intro hkey
  have hterminal := hclosed row (mem_rowsOf.mpr ⟨hrow, hkey⟩)
  rw [hopen] at hterminal
  cases hterminal

theorem isTerminal_of_leasable {now : Timestamp} (h : job.leasable now = true) :
    job.status.isTerminal = false := by
  simp only [EvidenceJob.leasable, Bool.and_eq_true] at h
  cases hstatus : job.status with
  | queued => rfl
  | leased => rfl
  | completed =>
    rw [hstatus] at h
    cases h.1
  | failed =>
    rw [hstatus] at h
    cases h.1

theorem foldl_insert_of_found {request : QueueRequest} {now : Timestamp}
    {providerKeys : List String} {queued : List String × Table EvidenceJob.jobId}
    (h : ∀ providerKey ∈ providerKeys,
      queued.2.find? (request.job now providerKey).jobId ≠ none) :
    providerKeys.foldl (request.insert now) queued = queued := by
  induction providerKeys with
  | nil => rfl
  | cons providerKey providerKeys ih =>
    obtain ⟨hhead, htail⟩ := List.forall_mem_cons.mp h
    have hinsert : request.insert now queued providerKey = queued := by
      rw [QueueRequest.insert]
      cases hsome : queued.2.insert? (request.job now providerKey) with
      | none => rfl
      | some jobs => exact absurd (Table.insert?_eq_some hsome).1 hhead
    rw [List.foldl_cons, hinsert]
    exact ih htail

theorem filter_foldl_insert {request : QueueRequest} {now : Timestamp}
    (hkey : ∀ providerKey, (request.job now providerKey).evidenceKey ≠ key)
    (providerKeys : List String) (queued : List String × Table EvidenceJob.jobId) :
    ((providerKeys.foldl (request.insert now) queued).2.rows.filter
      fun row => row.evidenceKey = key) =
        queued.2.rows.filter fun row => row.evidenceKey = key := by
  induction providerKeys generalizing queued with
  | nil => rfl
  | cons providerKey providerKeys ih =>
    rw [List.foldl_cons, ih, QueueRequest.insert]
    cases hsome : queued.2.insert? (request.job now providerKey) with
    | none => rfl
    | some jobs =>
      obtain ⟨-, hrows⟩ := Table.insert?_eq_some hsome
      rw [hrows, List.filter_append]
      simp [hkey providerKey]

/-- **No transaction changes the rows of a window whose rows are terminal**, but for a job queued
for it and for the recording of the window. -/
theorem rowsOf_step {s : Store} (hclosed : ∀ row ∈ s.rowsOf key, row.status.isTerminal = true)
    (hqueue : ∀ request now, a = .queue request now → ∀ providerKey ∈ request.providerKeys,
      (request.job now providerKey).evidenceKey = key →
        s.jobs.find? (request.job now providerKey).jobId ≠ none)
    (hrecord : ∀ window, a = .record window → window.evidenceKey = key → Recorded key s) :
    (step s a).rowsOf key = s.rowsOf key := by
  cases a with
  | queue request now =>
    by_cases hkey : evidenceKey request.workspaceId request.clusterId request.sourceId
        request.windowStart = key
    · have hfound : ∀ providerKey ∈ request.providerKeys.eraseDups,
          s.jobs.find? (request.job now providerKey).jobId ≠ none :=
        fun providerKey hmem => hqueue request now rfl providerKey (List.mem_eraseDups.mp hmem) hkey
      have hsame := @foldl_insert_of_found request now _ ([], s.jobs) hfound
      exact congrArg (fun queued : List String × Table EvidenceJob.jobId =>
        queued.2.rows.filter fun row => row.evidenceKey = key) hsame
    · exact filter_foldl_insert (fun _ => hkey) _ _
  | lease request =>
    obtain hlease | ⟨job, hjob, hleasable, hlease⟩ := leaseEvidenceJob_cases s request
    · change (s.leaseEvidenceJob request).2.rowsOf key = _
      rw [hlease]
    · change (s.leaseEvidenceJob request).2.rowsOf key = _
      rw [hlease]
      let leased (row : EvidenceJob) : EvidenceJob :=
        row.leasedTo (s.nextId, request.agentId) (request.appNow + request.leaseSeconds)
      refine Table.filter_modify_of_not s.jobs _ leased (fun _ => rfl) _ (fun _ => rfl)
        fun row hrow => ?_
      rw [Table.find?_of_mem hjob] at hrow
      obtain rfl := Option.some.inj hrow
      exact decide_eq_false (evidenceKey_ne_of_open hclosed hjob (isTerminal_of_leasable hleasable))
  | complete report =>
    obtain ⟨hstore, -⟩ | ⟨job, hjob, hid, -, hstatus, hcomplete⟩ :=
      completeEvidenceJob_cases s report
    · change (s.completeEvidenceJob report).2.rowsOf key = _
      rw [hstore]
    · change (s.completeEvidenceJob report).2.rowsOf key = _
      rw [hcomplete]
      refine Table.filter_modify_of_not s.jobs _ (EvidenceJob.reported · report) (fun _ => rfl) _
        (fun _ => rfl) fun row hrow => ?_
      rw [← hid, Table.find?_of_mem hjob] at hrow
      obtain rfl := Option.some.inj hrow
      exact decide_eq_false (evidenceKey_ne_of_open hclosed hjob (by rw [hstatus]; rfl))
  | failExhausted limit now locked =>
    refine Table.filter_modifyWhere_of_not s.jobs _ EvidenceJob.closed EvidenceJob.jobId_closed _
      (fun _ => rfl) fun row hrow hid => ?_
    obtain ⟨other, hother, hsame⟩ := List.mem_map.mp (of_decide_eq_true hid)
    have hselected := List.mem_mergeSort.mp (List.mem_of_mem_take hother)
    obtain ⟨hmem, hexhausted⟩ := List.mem_filter.mp hselected
    obtain rfl := List.inj_on_of_nodup_map s.jobs.nodup hmem hrow hsame
    simp only [EvidenceJob.exhausted, Bool.and_eq_true, decide_eq_true_eq] at hexhausted
    refine decide_eq_false (evidenceKey_ne_of_open hclosed hrow ?_)
    rw [hexhausted.1.1.1]
    rfl
  | record window =>
    change (s.recordEvidenceEventOnce window).2.rowsOf key = _
    rw [Store.recordEvidenceEventOnce]
    cases hinsert : s.windows.insert? window with
    | none => rfl
    | some windows =>
      refine Table.filter_modifyWhere_of_not s.jobs _ EvidenceJob.cleared EvidenceJob.jobId_cleared _
        (fun _ => rfl) fun row hrow hcond => ?_
      simp only [Bool.and_eq_true, decide_eq_true_eq] at hcond
      refine decide_eq_false fun hkey => ?_
      have hwindow : window.evidenceKey = key := hcond.1.1.symm.trans hkey
      refine hrecord window rfl hwindow ?_
      rw [← hwindow]
      exact (Table.insert?_eq_some hinsert).1

/-! ## What a transaction does to one row and to the windows -/

theorem JobStep.keys {s : Store} {old : EvidenceJob} (h : JobStep s a (some old) job) :
    job.evidenceKey = old.evidenceKey ∧ job.providerKey = old.providerKey := by
  cases h with
  | kept => exact ⟨rfl, rfl⟩
  | leased => exact ⟨rfl, rfl⟩
  | reported => exact ⟨rfl, rfl⟩
  | closed => exact ⟨rfl, rfl⟩
  | cleared => exact ⟨rfl, rfl⟩

theorem mem_step_of_completed {s : Store} (hrow : row ∈ s.jobs.rows)
    (hstatus : row.status = .completed)
    (hrecord : ∀ window, a = .record window → window.evidenceKey ≠ row.evidenceKey) :
    row ∈ (step s a).jobs.rows := by
  have hfind := Table.find?_of_mem hrow
  obtain ⟨job, hjob⟩ := exists_find?_step hfind a
  have hstep := jobStep_of_find? hjob
  rw [hfind] at hstep
  generalize hid : row.jobId = jobId at hfind hjob
  cases hstep with
  | kept => exact Table.mem_of_find? hjob
  | leased _ request ha hleasable =>
    have hopen := isTerminal_of_leasable hleasable
    rw [hstatus] at hopen
    cases hopen
  | reported _ report ha hlease hleased =>
    rw [hstatus] at hleased
    cases hleased
  | closed _ limit now locked ha hexhausted =>
    simp only [EvidenceJob.exhausted, hstatus, Bool.and_eq_true] at hexhausted
    cases hexhausted.1.1
  | cleared _ window ha =>
    subst ha
    -- the rows of another window are not cleared
    have hkept : row ∈ (s.recordEvidenceEventOnce window).2.jobs.rows := by
      rw [Store.recordEvidenceEventOnce]
      cases hinsert : s.windows.insert? window with
      | none => exact hrow
      | some windows =>
        obtain ⟨x, hx, hsame⟩ := Table.exists_mem_modifyWhere
          (fun job => job.evidenceKey = window.evidenceKey &&
            job.workspaceId = window.workspaceId && job.result.isSome)
          EvidenceJob.jobId_cleared hrow
        rw [decide_eq_false (Ne.symm (hrecord window rfl)), Bool.false_and, Bool.false_and,
          if_neg Bool.false_ne_true] at hsame
        subst hsame
        exact hx
    exact hkept

theorem windows_step {s : Store} (h : ∀ window, a ≠ .record window) :
    (step s a).windows = s.windows := by
  cases a with
  | queue request now => rfl
  | lease request =>
    obtain hlease | ⟨job, -, -, hlease⟩ := leaseEvidenceJob_cases s request
    · change (s.leaseEvidenceJob request).2.windows = _
      rw [hlease]
    · change (s.leaseEvidenceJob request).2.windows = _
      rw [hlease]
  | complete report =>
    obtain ⟨hstore, -⟩ | ⟨job, -, -, -, -, hcomplete⟩ := completeEvidenceJob_cases s report
    · change (s.completeEvidenceJob report).2.windows = _
      rw [hstore]
    · change (s.completeEvidenceJob report).2.windows = _
      rw [hcomplete]
  | failExhausted limit now locked => rfl
  | record window => exact absurd rfl (h window)

/-- **The windows after a transaction.** -/
theorem find?_windows_step (s : Store) (a : Action) (key : String) :
    (step s a).windows.find? key = s.windows.find? key ∨
      ∃ window, a = .record window ∧ window.evidenceKey = key ∧ ¬ Recorded key s ∧
        (step s a).windows.find? key = some window := by
  by_cases ha : ∃ window, a = .record window
  · obtain ⟨window, rfl⟩ := ha
    have hwindow := find?_recordEvidenceEventOnce s window key
    by_cases hkey : key = window.evidenceKey
    · rw [if_pos hkey] at hwindow
      cases hfind : s.windows.find? key with
      | some row =>
        rw [hfind, Option.getD_some] at hwindow
        exact Or.inl hwindow
      | none =>
        rw [hfind, Option.getD_none] at hwindow
        exact Or.inr ⟨window, rfl, hkey.symm, not_not.mpr hfind, hwindow⟩
    · rw [if_neg hkey] at hwindow
      exact Or.inl hwindow
  · exact Or.inl (congrArg (Table.find? · key) (windows_step fun window h => ha ⟨window, h⟩))

/-! ## The invariant -/

/-- The job is still completed as it was, and its window carries its result once it is there. -/
structure Settled (s : Store) (job : EvidenceJob) (result : JsonFields) : Prop where
  row : ∃ row ∈ s.jobs.rows, row.evidenceKey = job.evidenceKey ∧
    row.providerKey = job.providerKey ∧ row.status = .completed ∧
    (¬ Recorded job.evidenceKey s → row.result = some (.obj result))
  contained : ∀ window, s.windows.find? job.evidenceKey = some window →
    ∃ body, window.payload = .obj body ∧ Contained body job.providerKey (.obj result)

/-- What holds of the system. -/
structure CollectionInv (pyStr : Json → String) (s : CollectionState) : Prop where
  /-- a job is known by its window and its provider -/
  ids : ∀ job ∈ s.store.jobs.rows, job.jobId = ":".intercalate [job.evidenceKey, job.providerKey]
  closed : ∀ job ∈ s.store.jobs.rows, Recorded job.evidenceKey s.store →
    job.status.isTerminal = true
  /-- what an emission has read is what the rows hold -/
  reads : ∀ emission ∈ s.emissions, ∀ payload, emission.payload = some payload →
    ¬ Recorded emission.evidenceKey s.store →
      s.store.evidencePayloadIfReady pyStr emission.evidenceKey = some payload

variable {pyStr : Json → String} {s : CollectionState}

theorem evidencePayloadIfReady_congr {s t : Store} (h : s.rowsOf key = t.rowsOf key) :
    s.evidencePayloadIfReady pyStr key = t.evidencePayloadIfReady pyStr key :=
  congrArg (fun rows : List EvidenceJob => aggregateEvidencePayload pyStr
    (rows.mergeSort fun a b => a.providerKey ≤ b.providerKey)) h

theorem isTerminal_of_payload {s : Store} (h : s.evidencePayloadIfReady pyStr key = some payload) :
    ∀ row ∈ s.rowsOf key, row.status.isTerminal = true := by
  intro row hrow
  unfold Store.evidencePayloadIfReady aggregateEvidencePayload at h
  split at h
  · cases h
  · split at h
    · rename_i hready
      simp only [ready, Bool.and_eq_true, List.all_eq_true] at hready
      exact hready.1 row (List.mem_mergeSort.mpr hrow)
    · cases h

/-- **What a payload carries of a completed job of its window.** -/
theorem CollectionInv.contained (h : CollectionInv pyStr s)
    (hpayload : s.store.evidencePayloadIfReady pyStr key = some payload)
    (hrow : row ∈ s.store.jobs.rows) (hkey : row.evidenceKey = key)
    (hstatus : row.status = .completed) {result : JsonFields}
    (hresult : row.result = some (.obj result)) :
    Contained (evidenceBody payload) row.providerKey (.obj result) := by
  refine contained_of_aggregate hpayload ?_ (List.mem_mergeSort.mpr (mem_rowsOf.mpr ⟨hrow, hkey⟩))
    hstatus hresult
  intro other hother hprovider
  obtain ⟨hmem, hother⟩ := mem_rowsOf.mp (List.mem_mergeSort.mp hother)
  have hid : other.jobId = row.jobId := by
    rw [h.ids other hmem, h.ids row hrow, hother, hkey, hprovider]
  exact List.inj_on_of_nodup_map s.store.jobs.nodup hmem hrow hid

theorem transaction_record {window : EvidenceWindow} (h : s.transaction x = some (.record window)) :
    ∃ emission ∈ s.emissions, ∃ payload, emission.payload = some payload ∧
      window.evidenceKey = emission.evidenceKey ∧ window.payload = .obj (evidenceBody payload) := by
  cases x with
  | record i eventId =>
    obtain ⟨window', hwindow, haction⟩ := Option.map_eq_some_iff.mp h
    obtain rfl := Action.record.inj haction
    obtain ⟨emission, hemission, hwindow⟩ := Option.bind_eq_some_iff.mp hwindow
    obtain ⟨payload, hpayload, hwindow⟩ := Option.bind_eq_some_iff.mp hwindow
    refine ⟨emission, List.mem_of_getElem? hemission, payload, hpayload, ?_⟩
    simp only [recordedWindow, Option.bind_eq_bind, Option.bind_eq_some_iff, Option.some.injEq]
      at hwindow
    obtain ⟨_, -, _, -, _, -, _, -, _, -, _, -, _, -, _, -, rfl⟩ := hwindow
    exact ⟨rfl, rfl⟩
  | queue policy now =>
    obtain ⟨call, -, haction⟩ := Option.map_eq_some_iff.mp h
    cases haction
  | schedule => cases h
  | scheduled => cases h
  | scheduleFailed => cases h
  | configure => cases h
  | register => cases h
  | unregister => cases h
  | lease => cases h
  | complete => cases h
  | failExhausted => cases h
  | emit => cases h
  | read => cases h

/-! ## One step -/

theorem store_collect (x : CollectionAction) :
    (collect pyStr s x).store = (s.transaction x).elim s.store (step s.store) := rfl

theorem recorded_collect (h : Recorded key s.store) (x : CollectionAction) :
    Recorded key (collect pyStr s x).store := by
  rw [store_collect]
  cases s.transaction x with
  | none => exact h
  | some a => exact h.step a

theorem recorded_record (s : Store) (window : EvidenceWindow) :
    Recorded window.evidenceKey (step s (.record window)) := by
  have hwindow := find?_recordEvidenceEventOnce s window window.evidenceKey
  rw [if_pos rfl] at hwindow
  intro hnone
  rw [show (step s (.record window)).windows = (s.recordEvidenceEventOnce window).2.windows from rfl,
    hwindow] at hnone
  cases hnone

variable (pyStr) in
theorem rowsOf_collect (hok : QueuesInTime s x)
    (hclosed : ∀ row ∈ s.store.rowsOf key, row.status.isTerminal = true) (hopen : ¬ s.Open key)
    (hrecord : Recorded key (collect pyStr s x).store → Recorded key s.store) :
    (collect pyStr s x).store.rowsOf key = s.store.rowsOf key := by
  rw [store_collect] at hrecord ⊢
  cases hx : s.transaction x with
  | none => rfl
  | some a =>
    rw [hx] at hrecord
    refine rowsOf_step hclosed ?_ ?_
    · rintro request now rfl providerKey hmem hkey hnone
      exact hopen (hkey ▸ hok request now hx providerKey hmem hnone)
    · rintro window rfl rfl
      exact hrecord (recorded_record s.store window)

theorem mem_emissionsAfter {emission : Emission} (h : emission ∈ s.emissionsAfter pyStr x) :
    emission ∈ s.emissions ∨ emission.payload = none ∨ (s.transaction x = none ∧
      emission.payload = s.store.evidencePayloadIfReady pyStr emission.evidenceKey) := by
  cases x with
  | emit key =>
    rw [CollectionState.emissionsAfter] at h
    split at h
    · exact Or.inl h
    · obtain h | h := List.mem_append.mp h
      · exact Or.inl h
      · obtain rfl := List.mem_singleton.mp h
        exact Or.inr (Or.inl rfl)
  | read i =>
    rw [CollectionState.emissionsAfter, CollectionState.readEmission] at h
    split at h
    · rename_i evidenceKey _
      split at h
      · rename_i payload hpayload
        obtain h | rfl := List.mem_or_eq_of_mem_set h
        · exact Or.inl h
        · exact Or.inr (Or.inr ⟨rfl, hpayload.symm⟩)
      · exact Or.inl (List.mem_of_mem_eraseIdx h)
    · exact Or.inl h
  | record i eventId =>
    rw [CollectionState.emissionsAfter] at h
    split at h
    · exact Or.inl (List.mem_of_mem_eraseIdx h)
    · exact Or.inl h
  | schedule => exact Or.inl h
  | queue => exact Or.inl h
  | scheduled => exact Or.inl h
  | scheduleFailed => exact Or.inl h
  | configure => exact Or.inl h
  | register => exact Or.inl h
  | unregister => exact Or.inl h
  | lease => exact Or.inl h
  | complete => exact Or.inl h
  | failExhausted => exact Or.inl h

theorem mem_collect (h : job ∈ (collect pyStr s x).store.jobs.rows) :
    job ∈ s.store.jobs.rows ∨ ∃ a, s.transaction x = some a ∧
      JobStep s.store a (s.store.jobs.find? job.jobId) job := by
  rw [store_collect] at h
  cases hx : s.transaction x with
  | none =>
    rw [hx] at h
    exact Or.inl h
  | some a =>
    rw [hx] at h
    exact Or.inr ⟨a, rfl, jobStep_of_find? (Table.find?_of_mem h)⟩

variable (pyStr) in
theorem windows_collect (x : CollectionAction) (key : String) :
    (collect pyStr s x).store.windows.find? key = s.store.windows.find? key ∨
      ∃ window, s.transaction x = some (.record window) ∧ window.evidenceKey = key ∧
        ¬ Recorded key s.store ∧ (collect pyStr s x).store.windows.find? key = some window := by
  rw [store_collect]
  cases hx : s.transaction x with
  | none => exact Or.inl rfl
  | some a =>
    obtain hsame | ⟨window, rfl, hkey, hnew, hfind⟩ := find?_windows_step s.store a key
    · exact Or.inl hsame
    · exact Or.inr ⟨window, rfl, hkey, hnew, hfind⟩

/-- **A window that a step records carries what the rows hold.** -/
theorem CollectionInv.payload_of_record (h : CollectionInv pyStr s) {window : EvidenceWindow}
    (hx : s.transaction x = some (.record window)) (hnew : ¬ Recorded window.evidenceKey s.store) :
    ∃ payload, s.store.evidencePayloadIfReady pyStr window.evidenceKey = some payload ∧
      window.payload = .obj (evidenceBody payload) := by
  obtain ⟨emission, hmem, payload, hpayload, hkey, hbody⟩ := transaction_record hx
  refine ⟨payload, ?_, hbody⟩
  rw [hkey] at hnew ⊢
  exact h.reads emission hmem payload hpayload hnew

theorem CollectionInv.ids_collect (h : CollectionInv pyStr s)
    (hjob : job ∈ (collect pyStr s x).store.jobs.rows) :
    job.jobId = ":".intercalate [job.evidenceKey, job.providerKey] := by
  obtain hjob | ⟨a, -, hstep⟩ := mem_collect hjob
  · exact h.ids job hjob
  · cases hold : s.store.jobs.find? job.jobId with
    | none =>
      rw [hold] at hstep
      cases hstep with
      | queued request now providerKey ha => rfl
    | some old =>
      rw [hold] at hstep
      obtain ⟨hkey, hprovider⟩ := hstep.keys
      rw [hkey, hprovider, ← h.ids old (Table.mem_of_find? hold)]
      exact (Table.key_of_find? hold).symm

theorem CollectionInv.closed_collect (h : CollectionInv pyStr s) (hok : QueuesInTime s x)
    (hjob : job ∈ (collect pyStr s x).store.jobs.rows)
    (hrecorded : Recorded job.evidenceKey (collect pyStr s x).store) :
    job.status.isTerminal = true := by
  by_cases hbefore : Recorded job.evidenceKey s.store
  · -- the rows of a recorded window stay
    have hclosed : ∀ row ∈ s.store.rowsOf job.evidenceKey, row.status.isTerminal = true := by
      intro row hrow
      obtain ⟨hmem, hkey⟩ := mem_rowsOf.mp hrow
      exact h.closed row hmem (hkey ▸ hbefore)
    have hsame := rowsOf_collect pyStr hok hclosed (fun hopen => hopen.1 hbefore)
      (fun _ => hbefore)
    exact hclosed job (hsame ▸ mem_rowsOf.mpr ⟨hjob, rfl⟩)
  · -- the window is recorded by an emission, which has read terminal rows
    obtain hsame | ⟨window, hx, hkey, hnew, -⟩ := windows_collect pyStr x job.evidenceKey
    · exact absurd (fun hnone => hrecorded (hsame.trans hnone)) hbefore
    · obtain ⟨payload, hpayload, -⟩ := h.payload_of_record hx (hkey ▸ hnew)
      have hclosed := isTerminal_of_payload hpayload
      rw [hkey] at hclosed
      obtain hjob | ⟨a, hx', hstep⟩ := mem_collect hjob
      · exact hclosed job (mem_rowsOf.mpr ⟨hjob, rfl⟩)
      · rw [hx] at hx'
        obtain rfl := Option.some.inj hx'
        cases hold : s.store.jobs.find? job.jobId with
        | none =>
          rw [hold] at hstep
          cases hstep with
          | queued request now providerKey ha => cases ha
        | some old =>
          rw [hold] at hstep
          have hterminal := hclosed old
            (mem_rowsOf.mpr ⟨Table.mem_of_find? hold, hstep.keys.1.symm⟩)
          rw [hstep.status_of_terminal hterminal]
          exact hterminal

theorem CollectionInv.reads_collect (h : CollectionInv pyStr s) (hok : QueuesInTime s x)
    {emission : Emission} (hmem : emission ∈ (collect pyStr s x).emissions)
    (hpayload : emission.payload = some payload)
    (hnew : ¬ Recorded emission.evidenceKey (collect pyStr s x).store) :
    (collect pyStr s x).store.evidencePayloadIfReady pyStr emission.evidenceKey = some payload := by
  have hbefore : ¬ Recorded emission.evidenceKey s.store := fun hr => hnew (recorded_collect hr x)
  obtain hmem | hnone | ⟨hx, hread⟩ := mem_emissionsAfter hmem
  · have hready := h.reads emission hmem payload hpayload hbefore
    have hopen : ¬ s.Open emission.evidenceKey := by
      intro hopen
      rw [hopen.2 emission hmem rfl] at hpayload
      cases hpayload
    have hsame := rowsOf_collect pyStr hok (isTerminal_of_payload hready) hopen
      (fun hr => absurd hr hnew)
    exact (evidencePayloadIfReady_congr hsame).trans hready
  · rw [hnone] at hpayload
    cases hpayload
  · rw [store_collect, hx]
    exact hread.symm.trans hpayload

/-- **A step in time keeps the invariant.** -/
theorem CollectionInv.step (h : CollectionInv pyStr s) (hok : QueuesInTime s x) :
    CollectionInv pyStr (collect pyStr s x) where
  ids _ hjob := h.ids_collect hjob
  closed _ hjob hrecorded := h.closed_collect hok hjob hrecorded
  reads _ hmem _ hpayload hnew := h.reads_collect hok hmem hpayload hnew

/-- **A settled job stays settled.** -/
theorem Settled.step (h : CollectionInv pyStr s) {result : JsonFields}
    (hjob : Settled s.store job result) (x : CollectionAction) :
    Settled (collect pyStr s x).store job result := by
  obtain ⟨row, hrow, hkey, hprovider, hstatus, hresult⟩ := hjob.row
  constructor
  · by_cases hrecord : ∃ window, s.transaction x = some (.record window) ∧
        window.evidenceKey = row.evidenceKey
    · -- the row may be cleared
      obtain ⟨window, hx, hwindow⟩ := hrecord
      have hrecorded : Recorded job.evidenceKey (collect pyStr s x).store := by
        rw [store_collect, hx, ← hkey, ← hwindow]
        exact recorded_record s.store window
      have hfind := Table.find?_of_mem hrow
      obtain ⟨row', hrow'⟩ := exists_find?_step hfind (.record window)
      have hstep := jobStep_of_find? hrow'
      rw [hfind] at hstep
      refine ⟨row', ?_, hstep.keys.1.trans hkey, hstep.keys.2.trans hprovider,
        (hstep.status_of_terminal (by rw [hstatus]; rfl)).trans hstatus,
        fun hnew => absurd hrecorded hnew⟩
      rw [store_collect, hx]
      exact Table.mem_of_find? hrow'
    · refine ⟨row, ?_, hkey, hprovider, hstatus,
        fun hnew => hresult fun hr => hnew (recorded_collect hr x)⟩
      rw [store_collect]
      cases hx : s.transaction x with
      | none => exact hrow
      | some a =>
        refine mem_step_of_completed hrow hstatus fun window ha hwindow =>
          hrecord ⟨window, ?_, hwindow⟩
        rw [hx, ha]
  · intro window hwindow
    obtain hsame | ⟨window', hx, hwindowKey, hnew, hfind⟩ :=
      windows_collect pyStr x job.evidenceKey
    · exact hjob.contained window (hsame ▸ hwindow)
    · obtain rfl := Option.some.inj (hfind.symm.trans hwindow)
      obtain ⟨payload, hpayload, hbody⟩ := h.payload_of_record hx (hwindowKey ▸ hnew)
      refine ⟨_, hbody, ?_⟩
      rw [← hprovider]
      exact h.contained hpayload hrow (hkey.trans hwindowKey.symm) hstatus (hresult hnew)

theorem normalize_eq_obj (providerKey : String) (result : Json) :
    ∃ fields, normalizeEvidenceProviderResult providerKey result = .obj fields := by
  simp only [normalizeEvidenceProviderResult]
  split
  · exact ⟨_, rfl⟩
  · exact ⟨_, rfl⟩

theorem settled_of_completes (h : CollectionInv pyStr s) {result : Json}
    (hcompletes : Completes ⟨s, x, collect pyStr s x⟩ job result) :
    ∃ fields, result = .obj fields ∧ Settled (collect pyStr s x).store job fields := by
  obtain ⟨report, rfl, hreply, hstatus, hresult⟩ := hcompletes
  obtain ⟨-, hrefused⟩ | ⟨old, hold, hid, -, hleased, hcomplete⟩ :=
    completeEvidenceJob_cases s.store report
  · exact absurd hreply (hrefused job)
  · rw [hcomplete] at hreply
    obtain rfl := ReportReply.accepted.inj hreply
    have hnext : old.nextStatus report = .completed := hstatus
    have hstored : (old.reported report).result =
        some (normalizeEvidenceProviderResult old.providerKey report.result) := if_pos hnext
    obtain ⟨fields, hfields⟩ := normalize_eq_obj old.providerKey report.result
    rw [hfields] at hstored
    refine ⟨fields, Option.some.inj (hresult.symm.trans hstored), ?_, ?_⟩
    · refine ⟨old.reported report, ?_, rfl, rfl, hstatus, fun _ => hstored⟩
      change _ ∈ (s.store.completeEvidenceJob report).2.jobs.rows
      rw [hcomplete]
      exact List.mem_map.mpr ⟨old, hold, if_pos hid⟩
    · -- the window of a leased job is not recorded
      intro window hwindow
      have hopen : ¬ Recorded old.evidenceKey s.store := by
        intro hrecorded
        have hterminal := h.closed old hold hrecorded
        rw [hleased] at hterminal
        cases hterminal
      have hsame : (collect pyStr s (.complete report)).store.windows = s.store.windows :=
        windows_step (a := .complete report) (fun _ => nofun)
      rw [hsame] at hwindow
      exact absurd (fun hnone => Option.some_ne_none window (hwindow.symm.trans hnone)) hopen

theorem not_recorded_of_queued (hok : QueuesInTime s x)
    (hjob : job ∈ (collect pyStr s x).store.jobs.rows)
    (hnew : s.store.jobs.find? job.jobId = none) : ¬ Recorded job.evidenceKey s.store := by
  have habsent : job ∉ s.store.jobs.rows := by
    intro hmem
    rw [Table.find?_of_mem hmem] at hnew
    cases hnew
  obtain hmem | ⟨a, hx, hstep⟩ := mem_collect hjob
  · exact absurd hmem habsent
  · rw [hnew] at hstep
    cases hstep with
    | queued request now providerKey ha =>
      subst ha
      intro hrecorded
      -- some provider of the request has no row yet, for otherwise nothing is inserted
      have hfound : ∀ other ∈ request.providerKeys.eraseDups,
          s.store.jobs.find? (request.job now other).jobId ≠ none :=
        fun other hother hnone =>
          (hok request now hx other (List.mem_eraseDups.mp hother) hnone).1 hrecorded
      have hsame := @foldl_insert_of_found request now _ ([], s.store.jobs) hfound
      rw [store_collect, hx] at hjob
      refine habsent ?_
      have hrows : (step s.store (.queue request now)).jobs.rows = s.store.jobs.rows :=
        congrArg (fun queued : List String × Table EvidenceJob.jobId => queued.2.rows) hsame
      exact hrows ▸ hjob

/-! ## Queueing in time -/

/-- A window that an emission has read, or that is recorded, has a row. -/
structure Backed (s : CollectionState) : Prop where
  recorded : ∀ key, Recorded key s.store → ∃ row ∈ s.store.jobs.rows, row.evidenceKey = key
  read : ∀ emission ∈ s.emissions, emission.payload ≠ none →
    ∃ row ∈ s.store.jobs.rows, row.evidenceKey = emission.evidenceKey

theorem exists_row_collect (x : CollectionAction)
    (h : ∃ row ∈ s.store.jobs.rows, row.evidenceKey = key) :
    ∃ row ∈ (collect pyStr s x).store.jobs.rows, row.evidenceKey = key := by
  obtain ⟨row, hrow, hkey⟩ := h
  rw [store_collect]
  cases s.transaction x with
  | none => exact ⟨row, hrow, hkey⟩
  | some a =>
    have hfind := Table.find?_of_mem hrow
    obtain ⟨row', hrow'⟩ := exists_find?_step hfind a
    have hstep := jobStep_of_find? hrow'
    rw [hfind] at hstep
    exact ⟨row', Table.mem_of_find? hrow', hstep.keys.1.trans hkey⟩

theorem exists_row_of_payload {s : Store} (h : s.evidencePayloadIfReady pyStr key = some payload) :
    ∃ row ∈ s.jobs.rows, row.evidenceKey = key := by
  unfold Store.evidencePayloadIfReady aggregateEvidencePayload at h
  split at h
  · cases h
  · rename_i first rest hrows
    have hmem : first ∈ s.rowsOf key := by
      have hcons := hrows.symm ▸ (List.mem_cons_self : first ∈ first :: rest)
      exact List.mem_mergeSort.mp hcons
    exact ⟨first, mem_rowsOf.mp hmem⟩

theorem Backed.step (h : Backed s) (x : CollectionAction) : Backed (collect pyStr s x) := by
  constructor
  · intro key hrecorded
    refine exists_row_collect x ?_
    obtain hsame | ⟨window, hx, rfl, -, -⟩ := windows_collect pyStr x key
    · exact h.recorded key fun hnone => hrecorded (hsame.trans hnone)
    · obtain ⟨emission, hmem, payload, hpayload, hkey, -⟩ := transaction_record hx
      rw [hkey]
      exact h.read emission hmem (hpayload ▸ Option.some_ne_none payload)
  · intro emission hmem hne
    refine exists_row_collect x ?_
    obtain hmem | hnone | ⟨-, hread⟩ := mem_emissionsAfter hmem
    · exact h.read emission hmem hne
    · exact absurd hnone hne
    · obtain ⟨payload, hpayload⟩ := Option.ne_none_iff_exists'.mp hne
      exact exists_row_of_payload (hread.symm.trans hpayload)

theorem run_backed (pyStr : Json → String) (scheduler : EvidenceJobScheduler)
    (actions : List CollectionAction) : Backed (run (collect pyStr) (.start scheduler) actions) :=
  run_invariant (fun _ x h => h.step x)
    ⟨fun _ hrecorded => absurd rfl hrecorded, fun _ hmem => absurd hmem List.not_mem_nil⟩ actions

/-- **A call queues in time when it is the first one for its window, or names only providers that
have a job in it.** -/
theorem queuesInTime_of_first (h : Backed s)
    (hfirst : ∀ request now, s.transaction x = some (.queue request now) →
      (∀ row ∈ s.store.jobs.rows, row.evidenceKey ≠ evidenceKey request.workspaceId
        request.clusterId request.sourceId request.windowStart) ∨
      ∀ providerKey ∈ request.providerKeys,
        s.store.jobs.find? (request.job now providerKey).jobId ≠ none) :
    QueuesInTime s x := by
  intro request now hx providerKey hmem hnone
  obtain habsent | hfound := hfirst request now hx
  · constructor
    · intro hrecorded
      obtain ⟨row, hrow, hkey⟩ := h.recorded _ hrecorded
      exact habsent row hrow hkey
    · intro emission hemission hkey
      by_contra hne
      obtain ⟨row, hrow, hrowKey⟩ := h.read emission hemission hne
      exact habsent row hrow (hrowKey.trans hkey)
  · exact absurd hnone (hfound providerKey hmem)

/-- `QueuesInTime` as a computation. -/
def queuesInTime (s : CollectionState) (x : CollectionAction) : Bool :=
  match s.transaction x with
  | some (.queue request now) => request.providerKeys.all fun providerKey =>
    let job := request.job now providerKey
    (s.store.jobs.find? job.jobId).isSome ||
      ((s.store.windows.find? job.evidenceKey).isNone &&
        s.emissions.all fun emission =>
          emission.evidenceKey ≠ job.evidenceKey || emission.payload.isNone)
  | _ => true

theorem queuesInTime_of_true (h : queuesInTime s x = true) :
    QueuesInTime s x := by
  intro request now hx providerKey hmem hnone
  simp only [queuesInTime, hx, List.all_eq_true] at h
  have hprovider := h providerKey hmem
  simp only [hnone, Option.isSome_none, Bool.false_or, Bool.and_eq_true, List.all_eq_true,
    Bool.or_eq_true, decide_eq_true_eq, Option.isNone_iff_eq_none] at hprovider
  refine ⟨not_not.mpr hprovider.1, fun emission hemission hkey => ?_⟩
  exact (hprovider.2 emission hemission).resolve_left (not_not.mpr hkey)

/-! ## Main result -/

/-- **No window is published too early.** In every run whose steps all queue in time. -/
theorem run_collection_law (pyStr : Json → String) (scheduler : EvidenceJobScheduler)
    (actions : List CollectionAction)
    (hmeets : Meets (collect pyStr) QueuesInTime (.start scheduler) actions) :
    CollectionLaw (trace (collect pyStr) (.start scheduler) actions)
      (run (collect pyStr) (.start scheduler) actions) := by
  have hempty : CollectionInv pyStr (.start scheduler) := by
    refine ⟨fun job hjob => ?_, fun job hjob => ?_, fun emission hmem => ?_⟩
    · exact absurd hjob List.not_mem_nil
    · exact absurd hjob List.not_mem_nil
    · exact absurd hmem List.not_mem_nil
  have hrun := run_history_invariant_of_meets
    (P := fun l s => CollectionInv pyStr s ∧ ∀ e ∈ l, ∀ job result, Completes e job result →
      ∃ fields, result = .obj fields ∧ Settled s.store job fields)
    (fun l s x hinv hok => by
      refine ⟨hinv.1.step hok, ?_⟩
      intro e he job result hcompletes
      obtain he | he := List.mem_append.mp he
      · obtain ⟨fields, hfields, hsettled⟩ := hinv.2 e he job result hcompletes
        exact ⟨fields, hfields, hsettled.step hinv.1 x⟩
      · obtain rfl := List.mem_singleton.mp he
        exact settled_of_completes hinv.1 hcompletes)
    ⟨hempty, fun e he => absurd he List.not_mem_nil⟩ hmeets
  obtain ⟨hinv, hsettled⟩ := hrun
  refine ⟨hinv.closed, ?_, ?_⟩
  · intro e he job hjob hnew
    have hok := hmeets e he
    obtain ⟨-, -, -, -, hpost⟩ := mem_trace_iff.mp he
    rw [hpost] at hjob
    exact not_recorded_of_queued hok hjob hnew
  · intro e he job result hcompletes window hwindow
    obtain ⟨fields, rfl, hjob⟩ := hsettled e he job result hcompletes
    exact hjob.contained window hwindow

/-! ## Two runs -/

/-- A policy that enables every provider. -/
def openPolicy : EvidencePolicy := ⟨[], .obj [], "allow_partial", 3, 1⟩

/-- A job of the window of the first minute is leased and completed. -/
def collected (providerKey : String) (leaseId : Uuid) : List CollectionAction :=
  [.lease ⟨"w", "c", providerKey, "agent", 60, 61, 61, [], 0⟩,
    .complete ⟨"w", "c", "w:c:cluster-snapshot:1970-01-01T00:01:00+00:00:" ++ providerKey,
      (leaseId, "agent"), false, .obj [(providerKey, .obj [("up", .bool true)])], ""⟩]

/-- The window of the first minute is published, and then a provider is registered. -/
def registeredAfter : List CollectionAction :=
  [.schedule 60, .queue openPolicy 60, .scheduled] ++ collected "kubernetes" 0 ++
    [.emit "w:c:cluster-snapshot:1970-01-01T00:01:00+00:00", .read 0, .record 0 0,
      .register "metrics" 60 true]

/-- An agent with one provider and windows of a minute. -/
def agentStart : CollectionState := .start (.new "c" "w" "cluster-snapshot" ["kubernetes"] 60)

/-- The provider is first scheduled in the next minute. -/
theorem collection_law_of_next_minute :
    CollectionLaw
      (trace (collect fun _ => "") agentStart
        (registeredAfter ++ [.schedule 120, .queue openPolicy 120, .scheduled]))
      (run (collect fun _ => "") agentStart
        (registeredAfter ++ [.schedule 120, .queue openPolicy 120, .scheduled])) := by
  have hmeets : ((trace (collect fun _ => "") agentStart
      (registeredAfter ++ [.schedule 120, .queue openPolicy 120, .scheduled])).all
        fun e => queuesInTime e.pre e.action) = true := by decide +kernel
  exact run_collection_law _ _ _ fun e he =>
    queuesInTime_of_true (List.all_eq_true.mp hmeets e he)

/-- The provider is scheduled in the same minute: its job completes, and the published window
does not have its result. -/
theorem collection_law_fails :
    let before := registeredAfter ++ [.schedule 70]
    let after := .scheduled :: collected "metrics" 1
    let actions := before ++ .queue openPolicy 70 :: after
    let last := run (collect fun _ => "") agentStart actions
    (last.store.jobs.rows.any fun job => job.providerKey = "metrics" && job.status = .completed &&
      (last.store.windows.find? job.evidenceKey).any fun window =>
        window.payload.get? "metrics" = some (.obj [])) = true ∧
      ¬ CollectionLaw (trace (collect fun _ => "") agentStart actions) last := by
  intro before after actions last
  have hlost : (last.store.jobs.rows.any fun job => job.providerKey = "metrics" &&
      job.status = .completed && (last.store.windows.find? job.evidenceKey).any fun window =>
        window.payload.get? "metrics" = some (.obj [])) = true := by decide +kernel
  refine ⟨hlost, fun hlaw => ?_⟩
  have hlate : ((collect (fun _ => "") (run (collect fun _ => "") agentStart before)
      (.queue openPolicy 70)).store.jobs.rows.any fun job =>
        ((run (collect fun _ => "") agentStart before).store.jobs.find? job.jobId).isNone &&
          ((run (collect fun _ => "") agentStart before).store.windows.find?
            job.evidenceKey).isSome) = true := by decide +kernel
  obtain ⟨job, hjob, hcond⟩ := List.any_eq_true.mp hlate
  simp only [Bool.and_eq_true, Option.isNone_iff_eq_none] at hcond
  refine hlaw.queued _ (step_mem_trace agentStart before (.queue openPolicy 70) after) job hjob
    hcond.1 fun hnone => ?_
  rw [hnone] at hcond
  cases hcond.2

end Opsia.Evidence
