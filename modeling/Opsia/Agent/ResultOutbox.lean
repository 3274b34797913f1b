import Mathlib.Data.Rat.Defs
import Opsia.Lib.Runs
import Opsia.Lib.Table

/-!
# The outbox of command results

`commands/outbox.py` of the cluster agent: a SQLite table with the result of each attempt of a
command until the server has it. A result is sent again until it was sent or has failed too often;
the result of an uninstallation waits for its finalization once the server acknowledged it.

A call changes the row of its own key only (`find?_step`), and what it does to that row is
`rowAfter`. The count of a row is not that of its status: a result that is enqueued anew keeps it,
and a late failure reads it whatever the status is (`abandoned_too_soon`). Where neither happens,
the outbox is lawful (`lawful_of_careful`).
-/

namespace Opsia.Agent

/-! ## Rows -/

/-- The primary key. -/
structure ResultKey where
  commandId : String
  attemptId : String
  deriving DecidableEq

/-- `attempt_id or f"legacy:{command_id}"`. -/
def resultKey (commandId : String) (attemptId : Option String) : ResultKey where
  commandId := commandId
  attemptId := match attemptId with
    | none => "legacy:" ++ commandId
    | some attemptId => if attemptId = "" then "legacy:" ++ commandId else attemptId

/-- `COMMAND_RESULT_STATUS_…`. -/
inductive ResultStatus where
  | abandoned | ackedFinalizationPending | pending
  deriving DecidableEq

/-- A row of `command_results`. -/
structure CommandResult where
  key : ResultKey
  workspaceId : String
  leaseId : String
  agentId : String
  status : ResultStatus
  resultJson : String
  attemptCount : ℕ
  lastError : Option String
  createdAt : ℚ
  updatedAt : ℚ

abbrev CommandResultOutbox := Table CommandResult.key

/-! ## Calls -/

/-- The columns that `enqueue_result` writes. -/
structure Enqueued where
  workspaceId : String
  leaseId : String
  agentId : String
  resultJson : String

/-- The calls, with their arguments beside the key and the clock. -/
inductive OutboxCall where
  | enqueueResult (result : Enqueued)
  | markAcknowledgedForFinalization
  | markFinalized
  | markSent
  | recordFailure (error : String) (maxAttempts : ℤ)

/-- A call for the result of an attempt, at a time. -/
structure OutboxAction where
  commandId : String
  attemptId : Option String
  now : ℚ
  call : OutboxCall

def OutboxAction.key (action : OutboxAction) : ResultKey :=
  resultKey action.commandId action.attemptId

variable (key : ResultKey) (now : ℚ)

/-- The inserted row; a row in conflict keeps its count, its error and its time of creation. -/
def Enqueued.row (result : Enqueued) (old : Option CommandResult) : CommandResult where
  key := key
  workspaceId := result.workspaceId
  leaseId := result.leaseId
  agentId := result.agentId
  status := .pending
  resultJson := result.resultJson
  attemptCount := (old.map CommandResult.attemptCount).getD 0
  lastError := old.bind CommandResult.lastError
  createdAt := (old.map CommandResult.createdAt).getD now
  updatedAt := now

def enqueueResult (outbox : CommandResultOutbox) (result : Enqueued) : CommandResultOutbox :=
  outbox.put (result.row key now (outbox.find? key))

/-- `mark_acknowledged_for_finalization`; nothing where it raises. -/
def markAcknowledgedForFinalization (outbox : CommandResultOutbox) : Option CommandResultOutbox :=
  if (outbox.find? key).any fun row => row.status = .pending then
    some (outbox.modify key (fun row => { row with
      status := .ackedFinalizationPending, lastError := none, updatedAt := now }) fun _ => rfl)
  else none

def markFinalized (outbox : CommandResultOutbox) : CommandResultOutbox :=
  if (outbox.find? key).any fun row => row.status = .ackedFinalizationPending then outbox.erase key
  else outbox

def markSent (outbox : CommandResultOutbox) : CommandResultOutbox := outbox.erase key

/-- A failed attempt of a pending result. -/
def CommandResult.failed (row : CommandResult) (error : String) : CommandResult :=
  if row.status = .pending then
    { row with attemptCount := row.attemptCount + 1, lastError := some error, updatedAt := now }
  else row

def CommandResult.abandon (row : CommandResult) : CommandResult :=
  { row with status := .abandoned, updatedAt := now }

@[simp] theorem CommandResult.key_failed (row : CommandResult) (error : String) :
    (row.failed now error).key = row.key := by
  rw [CommandResult.failed]
  split <;> rfl

@[simp] theorem CommandResult.key_abandon (row : CommandResult) :
    (row.abandon now).key = row.key := rfl

/-- `record_failure`, and whether the result is abandoned. -/
def recordFailure (outbox : CommandResultOutbox) (error : String) (maxAttempts : ℤ) :
    CommandResultOutbox × Bool :=
  let counted := outbox.modify key (fun row => row.failed now error)
    fun row => row.key_failed now error
  let attemptCount := ((counted.find? key).map CommandResult.attemptCount).getD 0
  -- whatever the status of the row is
  if max 1 maxAttempts ≤ attemptCount then
    (counted.modify key (fun row => row.abandon now) fun row => row.key_abandon now, true)
  else (counted, false)

/-- The outbox after a call; one that raises rolls back. -/
def step (outbox : CommandResultOutbox) (action : OutboxAction) : CommandResultOutbox :=
  match action.call with
  | .enqueueResult result => enqueueResult action.key action.now outbox result
  | .markAcknowledgedForFinalization =>
    (markAcknowledgedForFinalization action.key action.now outbox).getD outbox
  | .markFinalized => markFinalized action.key outbox
  | .markSent => markSent action.key outbox
  | .recordFailure error maxAttempts =>
    (recordFailure action.key action.now outbox error maxAttempts).1

/-! ## What a call does to a row -/

/-- What a call does to the row of its key. -/
def rowAfter (call : OutboxCall) (old : Option CommandResult) : Option CommandResult :=
  match call with
  | .enqueueResult result => some (result.row key now old)
  | .markAcknowledgedForFinalization => old.map fun row =>
      if row.status = .pending then
        { row with status := .ackedFinalizationPending, lastError := none, updatedAt := now }
      else row
  | .markFinalized => old.filter fun row => row.status ≠ .ackedFinalizationPending
  | .markSent => none
  | .recordFailure error maxAttempts => old.map fun row =>
      let counted := row.failed now error
      if max 1 maxAttempts ≤ counted.attemptCount then counted.abandon now else counted

variable {key now} {outbox : CommandResultOutbox}

theorem find?_recordFailure (error : String) (maxAttempts : ℤ) (k : ResultKey) :
    (recordFailure key now outbox error maxAttempts).1.find? k =
      if k = key then rowAfter key now (.recordFailure error maxAttempts) (outbox.find? key)
      else outbox.find? k := by
  rw [recordFailure, rowAfter]
  simp only [Table.find?_modify_self]
  by_cases hk : k = key
  · subst hk
    rw [if_pos rfl]
    rcases hrow : outbox.find? k with _ | row
    · have hmore : ¬max 1 maxAttempts ≤ ((0 : ℕ) : ℤ) := by omega
      rw [Option.map_none, Option.map_none, Option.getD_none, if_neg hmore, Table.find?_modify_self, hrow]
      rfl
    · simp only [Option.map_some, Option.getD_some]
      split
      · rw [Table.find?_modify_self, Table.find?_modify_self, hrow]
        rfl
      · rw [Table.find?_modify_self, hrow]
        rfl
  · rw [if_neg hk]
    split
    · rw [Table.find?_modify_ne _ _ _ hk, Table.find?_modify_ne _ _ _ hk]
    · rw [Table.find?_modify_ne _ _ _ hk]

theorem find?_markAcknowledgedForFinalization (k : ResultKey) :
    ((markAcknowledgedForFinalization key now outbox).getD outbox).find? k =
      if k = key then rowAfter key now .markAcknowledgedForFinalization (outbox.find? key)
      else outbox.find? k := by
  rw [markAcknowledgedForFinalization, rowAfter]
  rcases hrow : outbox.find? key with _ | row
  · rw [Option.any_none, if_neg Bool.false_ne_true, Option.getD_none]
    split
    · rename_i hk
      rw [hk, hrow]
      rfl
    · rfl
  rw [Option.any_some, Option.map_some]
  by_cases hpending : row.status = .pending
  · rw [if_pos (decide_eq_true hpending), if_pos hpending, Option.getD_some, Table.find?_modify]
    split
    · rename_i hk
      rw [hk, hrow, Option.map_some]
    · rfl
  · rw [if_neg (by simpa using hpending), if_neg hpending, Option.getD_none]
    split
    · rename_i hk
      rw [hk, hrow]
    · rfl

theorem find?_markFinalized (k : ResultKey) : (markFinalized key outbox).find? k =
    if k = key then rowAfter key now .markFinalized (outbox.find? key) else outbox.find? k := by
  rw [markFinalized, rowAfter]
  rcases hrow : outbox.find? key with _ | row
  · rw [Option.any_none, if_neg Bool.false_ne_true]
    split
    · rename_i hk
      rw [hk, hrow]
      rfl
    · rfl
  rw [Option.any_some]
  by_cases hacked : row.status = .ackedFinalizationPending
  · have hnone : (some row).filter (fun row => row.status ≠ .ackedFinalizationPending) = none := by
      simp [hacked]
    rw [if_pos (decide_eq_true hacked), hnone, Table.find?_erase]
  · have hsome : (some row).filter (fun row => row.status ≠ .ackedFinalizationPending) =
        some row := by
      simp [hacked]
    rw [if_neg (by simpa using hacked), hsome]
    split
    · rename_i hk
      rw [hk, hrow]
    · rfl

/-- **A call changes the row of its key only**, as `rowAfter` says. -/
theorem find?_step (outbox : CommandResultOutbox) (action : OutboxAction) (k : ResultKey) :
    (step outbox action).find? k =
      if k = action.key then rowAfter action.key action.now action.call (outbox.find? action.key)
      else outbox.find? k := by
  rw [step]
  cases action.call with
  | enqueueResult result => exact Table.find?_put _ _ _
  | markAcknowledgedForFinalization => exact find?_markAcknowledgedForFinalization k
  | markFinalized => exact find?_markFinalized k
  | markSent => exact Table.find?_erase _ _ _
  | recordFailure error maxAttempts => exact find?_recordFailure error maxAttempts k

theorem find?_step_of_ne {action : OutboxAction} {k : ResultKey} (h : k ≠ action.key) :
    (step outbox action).find? k = outbox.find? k := by
  rw [find?_step, if_neg h]

theorem find?_step_self (outbox : CommandResultOutbox) (action : OutboxAction) :
    (step outbox action).find? action.key =
      rowAfter action.key action.now action.call (outbox.find? action.key) := by
  rw [find?_step, if_pos rfl]

/-! ## The laws -/

/-- A new enqueue of a result. -/
def OutboxAction.Enqueues (action : OutboxAction) (k : ResultKey) : Prop :=
  action.key = k ∧ ∃ result, action.call = .enqueueResult result

/-- The call removes a result, or may. -/
def OutboxAction.Removes (action : OutboxAction) (k : ResultKey) : Prop :=
  action.key = k ∧ (action.call = .markSent ∨ action.call = .markFinalized)

/-- The status of a result. -/
def statusOf (outbox : CommandResultOutbox) (k : ResultKey) : Option ResultStatus :=
  (outbox.find? k).map CommandResult.status

abbrev OutboxEntry := Runs.Entry CommandResultOutbox OutboxAction

/-- The failures of a result while it was pending, after a further step. -/
def countFailure (k : ResultKey) (failures : ℕ) (entry : OutboxEntry) : ℕ :=
  if entry.action.key = k then
    match entry.action.call with
    | .enqueueResult _ => 0
    | .recordFailure _ _ => if statusOf entry.pre k = some .pending then failures + 1 else failures
    | _ => failures
  else failures

/-- The failures of a result while it was pending, since its last enqueue. -/
def failuresSince (k : ResultKey) (history : List OutboxEntry) : ℕ :=
  history.foldl (countFailure k) 0

/-- **What the outbox should do** over a run of calls. -/
structure Lawful (actions : List OutboxAction) : Prop where
  /-- An acknowledged result leaves its state by a removal or a new enqueue only. -/
  acknowledged : ∀ entry ∈ Runs.trace step .empty actions, ∀ k,
    statusOf entry.pre k = some .ackedFinalizationPending →
      statusOf entry.post k = some .ackedFinalizationPending ∨
        entry.action.Enqueues k ∨ entry.action.Removes k
  /-- It is not abandoned. -/
  notAbandoned : ∀ entry ∈ Runs.trace step .empty actions, ∀ k,
    statusOf entry.pre k = some .ackedFinalizationPending →
      statusOf entry.post k ≠ some .abandoned
  /-- A pending result is abandoned after enough failures since its last enqueue. -/
  patient : ∀ before action after, actions = before ++ action :: after → ∀ k,
    let outbox := Runs.run step .empty before
    statusOf outbox k = some .pending → statusOf (step outbox action) k = some .abandoned →
      ∃ error maxAttempts, action.key = k ∧ action.call = .recordFailure error maxAttempts ∧
        max 1 maxAttempts ≤
          failuresSince k (Runs.trace step .empty (before ++ [action]))
  /-- No call changes another result. -/
  separate : ∀ entry ∈ Runs.trace step .empty actions, ∀ k, k ≠ entry.action.key →
    entry.post.find? k = entry.pre.find? k
  /-- An enqueued result is there, as it was enqueued last, or was removed since. -/
  kept : ∀ before action after, actions = before ++ action :: after → ∀ k result,
    action.key = k → action.call = .enqueueResult result → (∀ a ∈ after, ¬a.Enqueues k) →
      (∃ row, (Runs.run step .empty actions).find? k = some row ∧
        row.resultJson = result.resultJson) ∨
      ∃ entry ∈ Runs.trace step (Runs.run step .empty (before ++ [action])) after,
        entry.action.Removes k ∧ statusOf entry.pre k ≠ none ∧ statusOf entry.post k = none

/-- A call that a row can take without harm. -/
def OutboxCall.Spares (call : OutboxCall) (row : CommandResult) : Prop :=
  match call with
  | .enqueueResult _ => row.attemptCount = 0
  | .recordFailure _ maxAttempts =>
    row.status = .ackedFinalizationPending → (row.attemptCount : ℤ) < max 1 maxAttempts
  | .markAcknowledgedForFinalization | .markFinalized | .markSent => True

instance (call : OutboxCall) (row : CommandResult) : Decidable (call.Spares row) :=
  match call with
  | .enqueueResult _ => inferInstanceAs (Decidable (_ = _))
  | .recordFailure _ _ => inferInstanceAs (Decidable (_ → _))
  | .markAcknowledgedForFinalization | .markFinalized | .markSent => instDecidableTrue

/-- **When it does**: a result is enqueued anew only where it has no failures, and no failure is
recorded for an acknowledged result that has failed as often as results may. -/
def Careful (outbox : CommandResultOutbox) (action : OutboxAction) : Prop :=
  ∀ row ∈ outbox.find? action.key, action.call.Spares row

instance (outbox : CommandResultOutbox) (action : OutboxAction) :
    Decidable (Careful outbox action) :=
  inferInstanceAs (Decidable (∀ row ∈ _, _))

/-! ## One step -/

variable {action : OutboxAction} {k : ResultKey}

theorem CommandResult.failed_of_ne {row : CommandResult} (h : row.status ≠ .pending)
    (error : String) : row.failed now error = row := if_neg h

theorem CommandResult.failed_of_pending {row : CommandResult} (h : row.status = .pending)
    (error : String) : row.failed now error =
      { row with attemptCount := row.attemptCount + 1, lastError := some error, updatedAt := now } :=
  if_pos h

theorem Careful.enqueue (h : Careful outbox action) {result : Enqueued}
    (hcall : action.call = .enqueueResult result) {row : CommandResult}
    (hrow : outbox.find? action.key = some row) : row.attemptCount = 0 := by
  have hrow := h row hrow
  rw [hcall] at hrow
  exact hrow

theorem Careful.failure (h : Careful outbox action) {error : String} {maxAttempts : ℤ}
    (hcall : action.call = .recordFailure error maxAttempts) {row : CommandResult}
    (hrow : outbox.find? action.key = some row) (hacked : row.status = .ackedFinalizationPending) :
    (row.attemptCount : ℤ) < max 1 maxAttempts := by
  have hrow := h row hrow
  rw [hcall] at hrow
  exact hrow hacked

/-- What becomes of an acknowledged result. -/
theorem status_step_of_acked (hcareful : Careful outbox action)
    (h : statusOf outbox k = some .ackedFinalizationPending) :
    statusOf (step outbox action) k = some .ackedFinalizationPending ∨
      (action.Enqueues k ∧ statusOf (step outbox action) k = some .pending) ∨
      (action.Removes k ∧ statusOf (step outbox action) k = none) := by
  by_cases hk : k = action.key
  · subst hk
    obtain ⟨row, hrow, hacked⟩ := Option.map_eq_some_iff.mp h
    have hpending : row.status ≠ .pending := by simp [hacked]
    rw [statusOf, find?_step_self, hrow]
    cases hcall : action.call with
    | enqueueResult result => exact .inr (.inl ⟨⟨rfl, result, hcall⟩, rfl⟩)
    | markAcknowledgedForFinalization =>
      rw [rowAfter, Option.map_some, if_neg hpending, Option.map_some, hacked]
      exact .inl rfl
    | markFinalized => exact .inr (.inr ⟨⟨rfl, .inr hcall⟩, by simp [rowAfter, hacked]⟩)
    | markSent => exact .inr (.inr ⟨⟨rfl, .inl hcall⟩, rfl⟩)
    | recordFailure error maxAttempts =>
      have hfew := hcareful.failure hcall hrow hacked
      simp only [rowAfter, Option.map_some, row.failed_of_ne hpending]
      rw [if_neg (Int.not_le.mpr hfew), hacked]
      exact .inl rfl
  · left
    rw [statusOf, find?_step_of_ne hk]
    exact h

theorem exists_of_abandoned (h : statusOf outbox k = some .pending)
    (h' : statusOf (step outbox action) k = some .abandoned) :
    ∃ row error maxAttempts, outbox.find? k = some row ∧ action.key = k ∧
      action.call = .recordFailure error maxAttempts ∧
      max 1 maxAttempts ≤ (row.attemptCount : ℤ) + 1 := by
  by_cases hk : k = action.key
  · subst hk
    obtain ⟨row, hrow, hpending⟩ := Option.map_eq_some_iff.mp h
    rw [statusOf, find?_step_self, hrow] at h'
    cases hcall : action.call with
    | enqueueResult result =>
      rw [hcall] at h'
      cases h'
    | markAcknowledgedForFinalization =>
      rw [hcall, rowAfter, Option.map_some, if_pos hpending] at h'
      cases h'
    | markFinalized => simp [hcall, rowAfter, hpending] at h'
    | markSent =>
      rw [hcall] at h'
      cases h'
    | recordFailure error maxAttempts =>
      refine ⟨row, error, maxAttempts, hrow, rfl, rfl, ?_⟩
      by_contra hfew
      rw [hcall] at h'
      simp only [rowAfter, Option.map_some, row.failed_of_pending hpending] at h'
      rw [if_neg (by push_cast; exact hfew)] at h'
      simp [hpending] at h'
  · rw [statusOf, find?_step_of_ne hk] at h'
    rw [statusOf] at h
    rw [h] at h'
    cases h'

theorem attemptCount_step (hcareful : Careful outbox action) {row row' : CommandResult}
    (hrow : outbox.find? action.key = some row)
    (hrow' : (step outbox action).find? action.key = some row') :
    row'.attemptCount = countFailure action.key row.attemptCount ⟨outbox, action, step outbox action⟩ := by
  have hstatus : statusOf outbox action.key = some row.status := by rw [statusOf, hrow, Option.map_some]
  rw [find?_step_self, hrow] at hrow'
  rw [countFailure, if_pos rfl]
  cases hcall : action.call with
  | enqueueResult result =>
    rw [hcall] at hrow'
    have hzero := hcareful.enqueue hcall hrow
    obtain rfl := Option.some.inj hrow'
    exact hzero
  | markAcknowledgedForFinalization =>
    rw [hcall, rowAfter, Option.map_some] at hrow'
    obtain rfl := Option.some.inj hrow'
    split <;> rfl
  | markFinalized =>
    rw [hcall, rowAfter] at hrow'
    obtain ⟨hsame, -⟩ := Option.filter_eq_some_iff.mp hrow'
    obtain rfl := Option.some.inj hsame
    rfl
  | markSent =>
    rw [hcall] at hrow'
    cases hrow'
  | recordFailure error maxAttempts =>
    rw [hcall, rowAfter, Option.map_some] at hrow'
    obtain rfl := Option.some.inj hrow'
    have hkeeps : ∀ (p : Prop) [Decidable p] (r : CommandResult),
        (if p then r.abandon action.now else r).attemptCount = r.attemptCount := by
      intro p _ r
      split <;> rfl
    simp only [hkeeps, hstatus, Option.some.injEq]
    by_cases hpending : row.status = .pending
    · rw [row.failed_of_pending hpending, if_pos hpending]
    · rw [row.failed_of_ne hpending, if_neg hpending]

/-- **A row counts the failures since its last enqueue.** -/
theorem attemptCount_run {actions : List OutboxAction}
    (h : Runs.Meets step Careful .empty actions) {row : CommandResult}
    (hrow : (Runs.run step .empty actions).find? k = some row) :
    row.attemptCount = failuresSince k (Runs.trace step .empty actions) := by
  refine Runs.run_history_invariant_of_meets (P := fun history outbox => ∀ k row,
    outbox.find? k = some row → row.attemptCount = failuresSince k history) ?_ ?_ h k row hrow
  · intro history outbox action hinv hcareful k row' hrow'
    have hlast : failuresSince k (history ++ [⟨outbox, action, step outbox action⟩]) =
        countFailure k (failuresSince k history) ⟨outbox, action, step outbox action⟩ :=
      List.foldl_concat ..
    rw [hlast]
    by_cases hk : k = action.key
    · subst hk
      rcases hrow : outbox.find? action.key with _ | row
      · -- the row is new, so it was enqueued
        rw [find?_step_self, hrow] at hrow'
        rw [countFailure, if_pos rfl]
        cases hcall : action.call with
        | enqueueResult result =>
          rw [hcall] at hrow'
          obtain rfl := Option.some.inj hrow'
          rfl
        | _ =>
          rw [hcall] at hrow'
          cases hrow'
      · rw [← hinv _ row hrow]
        exact attemptCount_step hcareful hrow hrow'
    · rw [find?_step_of_ne hk] at hrow'
      rw [countFailure, if_neg (Ne.symm hk)]
      exact hinv k row' hrow'
  · intro k row hrow
    cases hrow

theorem exists_of_find? {row : CommandResult} (hrow : outbox.find? k = some row)
    {actions : List OutboxAction} (hactions : ∀ action ∈ actions, ¬action.Enqueues k) :
    (∃ row', (Runs.run step outbox actions).find? k = some row' ∧
      row'.resultJson = row.resultJson) ∨
    ∃ entry ∈ Runs.trace step outbox actions, entry.action.Removes k ∧
      statusOf entry.pre k ≠ none ∧ statusOf entry.post k = none := by
  induction actions generalizing outbox row with
  | nil => exact .inl ⟨row, hrow, rfl⟩
  | cons action actions ih =>
    obtain ⟨hnew, hactions⟩ := List.forall_mem_cons.mp hactions
    have hstep : (∃ row', (step outbox action).find? k = some row' ∧
        row'.resultJson = row.resultJson) ∨
        (action.Removes k ∧ (step outbox action).find? k = none) := by
      by_cases hk : k = action.key
      · subst hk
        rw [find?_step_self, hrow]
        cases hcall : action.call with
        | enqueueResult result => exact absurd ⟨rfl, result, hcall⟩ hnew
        | markAcknowledgedForFinalization =>
          refine .inl ⟨_, rfl, ?_⟩
          dsimp only
          split <;> rfl
        | markFinalized =>
          by_cases hacked : row.status = .ackedFinalizationPending
          · exact .inr ⟨⟨rfl, .inr hcall⟩, by simp [rowAfter, hacked]⟩
          · exact .inl ⟨row, by simp [rowAfter, hacked], rfl⟩
        | markSent => exact .inr ⟨⟨rfl, .inl hcall⟩, rfl⟩
        | recordFailure error maxAttempts =>
          refine .inl ⟨_, rfl, ?_⟩
          have hfailed : (row.failed action.now error).resultJson = row.resultJson := by
            rw [CommandResult.failed]
            split <;> rfl
          dsimp only
          split
          · exact hfailed
          · exact hfailed
      · exact .inl ⟨row, by rw [find?_step_of_ne hk, hrow], rfl⟩
    rcases hstep with ⟨row', hrow', hjson⟩ | ⟨hremoves, hnone⟩
    · rcases ih hrow' hactions with ⟨last, hlast, hjson'⟩ | ⟨entry, hentry, hcase⟩
      · exact .inl ⟨last, hlast, hjson'.trans hjson⟩
      · exact .inr ⟨entry, List.mem_cons_of_mem _ hentry, hcase⟩
    · refine .inr ⟨⟨outbox, action, step outbox action⟩, List.mem_cons_self, hremoves, ?_, ?_⟩
      · rw [statusOf, hrow]
        exact Option.some_ne_none _
      · rw [statusOf, hnone]
        rfl

/-! ## The run -/

/-- **The outbox of a careful agent is lawful**: an acknowledged result is not abandoned, a pending
one not before its time, and no result is lost. -/
theorem lawful_of_careful {actions : List OutboxAction}
    (h : Runs.Meets step Careful .empty actions) : Lawful actions := by
  have hsteps : ∀ entry ∈ Runs.trace step .empty actions,
      Careful entry.pre entry.action ∧ entry.post = step entry.pre entry.action := fun entry hentry =>
    (Runs.trace_invariant_of_meets (P := fun _ => True) (fun _ _ _ _ => trivial) trivial h entry
      hentry).2
  constructor
  case acknowledged =>
    intro entry hentry k hacked
    obtain ⟨hcareful, hpost⟩ := hsteps entry hentry
    rw [hpost]
    rcases status_step_of_acked hcareful hacked with hstays | ⟨hnew, -⟩ | ⟨hremoves, -⟩
    · exact .inl hstays
    · exact .inr (.inl hnew)
    · exact .inr (.inr hremoves)
  case notAbandoned =>
    intro entry hentry k hacked
    obtain ⟨hcareful, hpost⟩ := hsteps entry hentry
    rw [hpost]
    rcases status_step_of_acked hcareful hacked with he | ⟨-, he⟩ | ⟨-, he⟩
    all_goals rw [he]; decide
  case patient =>
    rintro before action after rfl k outbox hpending habandoned
    obtain ⟨row, error, maxAttempts, hrow, rfl, hcall, hmany⟩ :=
      exists_of_abandoned hpending habandoned
    refine ⟨error, maxAttempts, rfl, hcall, ?_⟩
    have hlast : failuresSince action.key (Runs.trace step .empty (before ++ [action])) =
        countFailure action.key (failuresSince action.key (Runs.trace step .empty before))
          ⟨outbox, action, step outbox action⟩ := by
      rw [Runs.trace_append]
      exact List.foldl_concat ..
    rw [hlast, ← attemptCount_run h.left hrow, countFailure, if_pos rfl, hcall]
    simp only [hpending, if_true]
    exact_mod_cast hmany
  case separate =>
    intro entry hentry k hk
    rw [(hsteps entry hentry).2]
    exact find?_step_of_ne hk
  case kept =>
    rintro before action after rfl k result rfl hcall hafter
    have hrow : (step (Runs.run step .empty before) action).find? action.key =
        some (result.row action.key action.now
          ((Runs.run step .empty before).find? action.key)) := by
      rw [find?_step_self, hcall]
      rfl
    rw [Runs.run_append, Runs.run_cons, Runs.run_append]
    exact exists_of_find? hrow hafter

/-- The calls for one attempt, at their places in a list as times. -/
def attemptCalls (calls : List OutboxCall) : List OutboxAction :=
  calls.map fun call => ⟨"cmd", some "att", 0, call⟩

/-- A result that fails, is acknowledged when it is sent again, and is finalized. -/
theorem lawful_uninstall : Lawful (attemptCalls [.enqueueResult ⟨"ws", "lease", "agent", "{}"⟩,
    .recordFailure "timeout" 2, .markAcknowledgedForFinalization, .recordFailure "late" 2,
    .markFinalized]) := by
  refine lawful_of_careful ?_
  simp only [attemptCalls, List.map_cons, List.map_nil, Runs.meets_cons]
  refine ⟨by decide, by decide, by decide, by decide, by decide, ?_⟩
  exact fun _ hentry => absurd hentry List.not_mem_nil

/-- **A late failure abandons an acknowledged result**, and a result that is enqueued anew is
abandoned before its time. -/
theorem abandoned_too_soon :
    ¬Lawful (attemptCalls [.enqueueResult ⟨"ws", "lease", "agent", "{}"⟩,
      .recordFailure "timeout" 1, .enqueueResult ⟨"ws", "lease", "agent", "{}"⟩,
      .markAcknowledgedForFinalization, .recordFailure "late" 1]) ∧
    ¬Lawful (attemptCalls [.enqueueResult ⟨"ws", "lease", "agent", "{}"⟩,
      .recordFailure "timeout" 2, .enqueueResult ⟨"ws", "lease", "agent", "{}"⟩,
      .recordFailure "timeout" 2]) := by
  constructor
  · intro h
    refine h.notAbandoned _ (Runs.step_mem_trace _ (attemptCalls
      [.enqueueResult ⟨"ws", "lease", "agent", "{}"⟩, .recordFailure "timeout" 1,
        .enqueueResult ⟨"ws", "lease", "agent", "{}"⟩, .markAcknowledgedForFinalization])
      ⟨"cmd", some "att", 0, .recordFailure "late" 1⟩ []) ⟨"cmd", "att"⟩ ?_ ?_
    · decide
    · decide
  · intro h
    obtain ⟨error, maxAttempts, -, hcall, hmany⟩ := h.patient (attemptCalls
      [.enqueueResult ⟨"ws", "lease", "agent", "{}"⟩, .recordFailure "timeout" 2,
        .enqueueResult ⟨"ws", "lease", "agent", "{}"⟩])
      ⟨"cmd", some "att", 0, .recordFailure "timeout" 2⟩ [] rfl ⟨"cmd", "att"⟩ (by decide) (by decide)
    cases hcall
    revert hmany
    decide

end Opsia.Agent
