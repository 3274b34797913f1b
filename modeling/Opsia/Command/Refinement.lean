import Opsia.Command.Life
import Opsia.Command.Stream
import Opsia.Lib.Runs

/-!
# Every transaction is one step of each command

The store invariant `StoreInv` (every stream is a sealed log, every command is
consistent) and the refinement theorem `step_refines`: from a store that
satisfies it, a transaction is, seen from any command, one `CommandStep`, and the
operation events of the command grow by exactly the event of that step. The
invariant follows for every run (`reachable_inv`).
-/

namespace Opsia

open SealedLog Runs

/-! ## The view of a command -/

/-- What the store holds about one command. -/
def Store.view (s : Store) (c : String) : CommandView :=
  ⟨s.commands.find? c, s.attempts.rows.filter fun a => a.commandId = c⟩

theorem Store.view_of_find? {s : Store} {commandId : String} {row : Option AgentCommand}
    (h : s.commands.find? commandId = row) :
    s.view commandId = ⟨row, (s.view commandId).attempts⟩ :=
  congrArg (CommandView.mk · _) h

/-- The invariant of the store. -/
structure StoreInv (s : Store) : Prop where
  streams : ∀ k, StreamInv s k
  commands : ∀ c, CommandInv s.nextId (s.view c)

theorem storeInv_empty : StoreInv Store.empty where
  streams := streamInv_empty
  commands := fun _ => rfl

/-- The kinds of a stream after an optional event. -/
def logAfter (event : Option (String × OperationEventKind)) (w : String)
    (kinds : List OperationEventKind) : List OperationEventKind :=
  match event with
  | none => kinds
  | some (w', kind) => if w = w' then push OperationEventKind.terminal kinds kind else kinds

/-- A transaction that touches one command only: the rows of the command are now
`v`, its stream took the event, everything else is unchanged. -/
structure Touches (s s' : Store) (c : String) (event : Option (String × OperationEventKind))
    (v : CommandView) : Prop where
  self : s'.view c = v
  other : ∀ c', c' ≠ c → s'.view c' = s.view c'
  kinds : ∀ w c', s'.kinds (w, c') =
    if c' = c then logAfter event w (s.kinds (w, c')) else s.kinds (w, c')
  streams : ∀ k, StreamInv s' k

/-- The transaction is one step of every command. -/
structure Refines (catalog : CommandCatalog) (op : Op) (s s' : Store) : Prop where
  nextId : s.nextId ≤ s'.nextId
  streams : ∀ k, StreamInv s' k
  command : ∀ c, ∃ event,
    CommandStep catalog s.nextId s'.nextId c op (s.view c) event (s'.view c) ∧
      ∀ w, s'.kinds (w, c) = logAfter event w (s.kinds (w, c))

variable {s s' : Store} {catalog : CommandCatalog} {now : Timestamp} {r : AgentCommand}
  {c source correlationId : String} {a : AgentCommandAttempt} {req : AgentClaim}
  {event : Option CommandOperationEvent} {queueTtlSeconds : ℤ} {rows : List AgentCommand}

theorem Refines.inv {op : Op} (h : Refines catalog op s s') (hs : StoreInv s) : StoreInv s' where
  streams := h.streams
  commands := fun c => by
    obtain ⟨_, hstep, -⟩ := h.command c
    exact hstep.inv h.nextId (hs.commands c)

/-- A transaction that changes nothing. -/
theorem refines_refl (catalog : CommandCatalog) (op : Op) (hs : StoreInv s) :
    Refines catalog op s s :=
  ⟨Nat.le_refl _, hs.streams, fun _ => ⟨none, .idle, fun _ => rfl⟩⟩

variable {s₁ : Store} {plan : Plan} {graceSeconds : ℤ} {v : CommandView}
  {commandId workspaceId : String} {effect : ControlEffect}

theorem Touches.refines {op : Op} {event : Option (String × OperationEventKind)}
    (h : Touches s s' c event v) (hn : s.nextId ≤ s'.nextId)
    (hstep : CommandStep catalog s.nextId s'.nextId c op (s.view c) event v) :
    Refines catalog op s s' := by
  refine ⟨hn, h.streams, fun c' => ?_⟩
  by_cases hc : c' = c
  · subst hc
    refine ⟨event, by rw [h.self]; exact hstep, fun w => ?_⟩
    rw [h.kinds, if_pos rfl]
  · refine ⟨none, by rw [h.other c' hc]; exact .idle, fun w => ?_⟩
    rw [h.kinds, if_neg hc]
    rfl

/-! ## Composing what a transaction touches -/

theorem touches_refl (hs : ∀ k, StreamInv s k) (c : String) :
    Touches s s c none (s.view c) :=
  ⟨rfl, fun _ _ => rfl, fun w c' => by split <;> rfl, hs⟩

/-- Writes to the command tables alone, seen through the views. -/
theorem touches_of_view (hs : ∀ k, StreamInv s k) (hself : s₁.view c = v)
    (hother : ∀ c', c' ≠ c → s₁.view c' = s.view c') (hcursors : s₁.cursors = s.cursors)
    (hevents : s₁.operationEvents = s.operationEvents) :
    Touches s s₁ c none v :=
  ⟨hself, hother, fun w c' => by rw [Store.kinds_congr hevents]; split <;> rfl,
    fun k => (hs k).congr hcursors hevents⟩

theorem Touches.frame {s₂ : Store} {event : Option (String × OperationEventKind)}
    (h : Touches s s₁ c event v) (hcommands : s₂.commands = s₁.commands)
    (hattempts : s₂.attempts = s₁.attempts) (hcursors : s₂.cursors = s₁.cursors)
    (hevents : s₂.operationEvents = s₁.operationEvents) : Touches s s₂ c event v := by
  have hview : ∀ c', s₂.view c' = s₁.view c' := fun c' => by
    rw [Store.view, Store.view, hcommands, hattempts]
  exact ⟨(hview c).trans h.self, fun c' hc => (hview c').trans (h.other c' hc),
    fun w c' => (Store.kinds_congr hevents _).trans (h.kinds w c'),
    fun k => (h.streams k).congr hcursors hevents⟩

theorem Touches.stage {s₂ : Store} {w : String} {kind : OperationEventKind}
    (h : Touches s s₁ c none v) (hstage : Staged s₁ s₂ (w, c) kind) :
    Touches s s₂ c (some (w, kind)) v := by
  have hview : ∀ c', s₂.view c' = s₁.view c' := fun c' => by
    rw [Store.view, Store.view, hstage.commands, hstage.attempts]
  refine ⟨(hview c).trans h.self, fun c' hc => (hview c').trans (h.other c' hc),
    fun w' c' => ?_, hstage.streams⟩
  have hk := h.kinds w' c'
  rw [hstage.kinds]
  by_cases hc : c' = c
  · rw [if_pos hc] at hk ⊢
    rw [hk]
    by_cases hw : w' = w
    · rw [if_pos (by rw [hw, hc])]
      exact (if_pos hw).symm
    · rw [if_neg (by simp [hw])]
      exact (if_neg hw).symm
  · rw [if_neg hc] at hk ⊢
    rw [if_neg (by simp [hc]), hk]

theorem Touches.modifyRow {event : Option (String × OperationEventKind)}
    {as : List AgentCommandAttempt} (h : Touches s s₁ c event ⟨some r, as⟩)
    (f : AgentCommand → AgentCommand) (hf : ∀ r, (f r).commandId = r.commandId) :
    Touches s { s₁ with commands := s₁.commands.modify c f hf } c event ⟨some (f r), as⟩ := by
  refine ⟨?_, fun c' hc => ?_, h.kinds, fun k => (h.streams k).congr rfl rfl⟩
  · have hself := h.self
    rw [Store.view, CommandView.mk.injEq] at hself
    rw [Store.view, CommandView.mk.injEq, Table.find?_modify_self, hself.1]
    exact ⟨rfl, hself.2⟩
  · rw [← h.other c' hc, Store.view, Store.view, CommandView.mk.injEq,
      Table.find?_modify_ne _ _ _ hc]
    exact ⟨rfl, rfl⟩

/-! ## Facts of a consistent store -/

theorem StoreInv.row (hs : StoreInv s) (hr : s.commands.find? c = some r) :
    RowInv s.nextId r (s.view c).attempts := by
  have h := hs.commands c
  rw [CommandInv, Store.view] at h
  simp only [hr] at h
  exact h

theorem StoreInv.attempt_fresh (hs : StoreInv s) (ha : a ∈ s.attempts.rows) :
    a.attemptId < s.nextId := by
  have hmem : a ∈ (s.view a.commandId).attempts :=
    List.mem_filter.mpr ⟨ha, decide_eq_true rfl⟩
  rcases hr : s.commands.find? a.commandId with _ | r
  · have h := hs.commands a.commandId
    rw [CommandInv, Store.view] at h
    simp only [hr] at h
    have hnil : (s.view a.commandId).attempts = [] := h
    rw [hnil] at hmem
    exact absurd hmem List.not_mem_nil
  · exact (hs.row hr).fresh a hmem

theorem StoreInv.active_owner (hs : StoreInv s) (hr : s.commands.find? c = some r) {aid : Uuid}
    (haid : r.activeAttemptId = some aid) (ha : s.attempts.find? aid = some a) :
    a.commandId = c := by
  obtain ⟨b, hb, rfl, -⟩ := (hs.row hr).active haid
  obtain ⟨hmem, hc⟩ := List.mem_filter.mp hb
  rw [Table.find?_of_mem hmem] at ha
  rw [← Option.some.inj ha]
  exact of_decide_eq_true hc

theorem touches_update {t : Store} (hs : StoreInv s) (hr : s.commands.find? c = some r)
    {f : AgentCommand → AgentCommand} {g : AgentCommandAttempt → AgentCommandAttempt}
    (hf : ∀ r, (f r).commandId = r.commandId) (hg : ∀ a : AgentCommandAttempt, a.Continues (g a))
    (hcommands : t.commands = s.commands.modify c f hf) (hattempts : t.attempts =
      updateActiveAttempt s.attempts r.activeAttemptId g fun a => (hg a).attemptId)
    (hcursors : t.cursors = s.cursors) (hevents : t.operationEvents = s.operationEvents) :
    Touches s t c none ⟨some (f r), onActive (s.view c).attempts r.activeAttemptId g⟩ := by
  have hfilter : ∀ c', t.attempts.rows.filter (fun a => a.commandId = c') =
      if c' = c then onActive (s.view c').attempts r.activeAttemptId g
      else (s.view c').attempts := by
    intro c'
    have hp : ∀ a, decide ((g a).commandId = c') = decide (a.commandId = c') := fun a => by
      rw [(hg a).commandId]
    rw [hattempts]
    rcases hactive : r.activeAttemptId with _ | aid
    · rw [updateActiveAttempt, onActive]
      split <;> rfl
    · rw [updateActiveAttempt, onActive]
      by_cases hc : c' = c
      · rw [if_pos hc]
        exact Table.filter_modify _ _ _ _ _ hp
      · rw [if_neg hc]
        refine Table.filter_modify_of_not _ _ _ _ _ hp fun a ha => ?_
        rw [hs.active_owner hr hactive ha]
        exact decide_eq_false (Ne.symm hc)
  refine touches_of_view hs.streams ?_ (fun c' hc => ?_) hcursors hevents
  · rw [Store.view, hcommands, Table.find?_modify_self, hr, hfilter, if_pos rfl]
    rfl
  · rw [Store.view, hcommands, Table.find?_modify_ne _ _ _ hc, hfilter, if_neg hc]
    rfl

theorem agentCommandAttemptInsert_rows {attempts attempts' : Table AgentCommandAttempt.attemptId}
    (h : agentCommandAttemptInsert attempts a = .ok attempts')
    (hnone : attempts.find? a.attemptId = none) : attempts'.rows = attempts.rows ++ [a] := by
  obtain ⟨inserted, hinserted⟩ := Table.insert?_of_none hnone
  rw [agentCommandAttemptInsert, hinserted] at h
  simp only at h
  split at h
  · cases h
  · rw [← Except.ok.inj h]
    exact (Table.insert?_eq_some hinserted).2

theorem find?_agentCommandAttemptInsert {attempts attempts' : Table AgentCommandAttempt.attemptId}
    (h : agentCommandAttemptInsert attempts a = .ok attempts')
    (hnone : attempts.find? a.attemptId = none) : attempts'.find? a.attemptId = some a := by
  refine Table.find?_of_mem ?_
  rw [agentCommandAttemptInsert_rows h hnone]
  exact List.mem_append_right _ List.mem_cons_self

theorem touches_append {t : Store} (hs : StoreInv s) (haid : a.attemptId = s.nextId)
    {v : Option AgentCommand} (hself : t.commands.find? a.commandId = v)
    (hother : ∀ c', c' ≠ a.commandId → t.commands.find? c' = s.commands.find? c')
    (hinsert : agentCommandAttemptInsert s.attempts a = .ok t.attempts)
    (hcursors : t.cursors = s.cursors) (hevents : t.operationEvents = s.operationEvents) :
    Touches s t a.commandId none ⟨v, (s.view a.commandId).attempts ++ [a]⟩ := by
  have hrows : t.attempts.rows = s.attempts.rows ++ [a] := by
    have hnone : s.attempts.find? a.attemptId = none :=
      Table.find?_eq_none.mpr fun b hb hid =>
        Nat.ne_of_lt (hs.attempt_fresh hb) (hid.trans haid)
    exact agentCommandAttemptInsert_rows hinsert hnone
  refine touches_of_view hs.streams ?_ (fun c' hc => ?_) hcursors hevents
  · have ha : [a].filter (fun b => b.commandId = a.commandId) = [a] := by simp
    rw [Store.view, hself, hrows, List.filter_append, ha]
    rfl
  · have ha : [a].filter (fun b => b.commandId = c') = [] := by simp [Ne.symm hc]
    rw [Store.view, hother c' hc, hrows, List.filter_append, ha, List.append_nil]
    rfl

theorem agentCommandAttemptInsert_ok {attempts : Table AgentCommandAttempt.attemptId}
    (hid : attempts.find? a.attemptId = none)
    (hnumber : ∀ b ∈ attempts.rows, b.commandId = a.commandId → b.attemptNo ≠ a.attemptNo) :
    ∃ attempts', agentCommandAttemptInsert attempts a = .ok attempts' := by
  obtain ⟨attempts', hinsert⟩ := Table.insert?_of_none hid
  have hnone : (attempts.rows.any fun b => b.commandId = a.commandId &&
      b.attemptNo = a.attemptNo) = false := by
    refine List.any_eq_false.mpr fun b hb hmatch => ?_
    simp only [Bool.and_eq_true, decide_eq_true_eq] at hmatch
    exact hnumber b hb hmatch.1 hmatch.2
  refine ⟨attempts', ?_⟩
  rw [agentCommandAttemptInsert, hinsert]
  simp only [hnone]
  rfl

/-! ## Receipts and projection -/

theorem stageLogicalCommandAcceptance_cases {confirmationEventId : EventId} {limit : Option ℤ}
    {inserted : Bool}
    (h : stageLogicalCommandAcceptance s now correlationId plan confirmationEventId limit =
      .ok (inserted, s₁)) :
    s₁ = s ∨ ∃ commands, s.commands.insert?
        (agentCommandValues now correlationId plan .queued (some confirmationEventId)) =
          some commands ∧ s₁ = { s with commands } := by
  have haccept : insertLogicalCommand s now correlationId plan confirmationEventId =
      .ok (inserted, s₁) := by
    unfold stageLogicalCommandAcceptance at h
    rcases limit with _ | limit
    · exact h
    · simp only at h
      split at h
      · cases h
      · split at h
        · cases h
        · exact h
  unfold insertLogicalCommand at haccept
  rcases hinsert : s.commands.insert?
      (agentCommandValues now correlationId plan .queued (some confirmationEventId)) with _ | t
  · rw [hinsert] at haccept
    cases haccept
    exact Or.inl rfl
  · rw [hinsert] at haccept
    cases haccept
    exact Or.inr ⟨t, rfl, rfl⟩

theorem accept_refines (hs : StoreInv s) {receiptClusterId : String} {confirmationEventId : EventId}
    {limit : Option ℤ} (h : acceptCommandWithReceiptStage s now correlationId plan receiptClusterId
      confirmationEventId limit = .ok (event, s')) :
    Refines catalog
      (.accept now correlationId plan receiptClusterId confirmationEventId limit) s s' := by
  unfold acceptCommandWithReceiptStage at h
  rcases haccept : stageLogicalCommandAcceptance s now correlationId plan confirmationEventId limit
    with e | ⟨inserted, s₁⟩
  · rw [haccept] at h
    cases h
  · rw [haccept] at h
    simp only at h
    rcases stageLogicalCommandAcceptance_cases haccept with rfl | ⟨commands, hinsert, rfl⟩
    · -- the command is known already: the receipt is a progress event
      have hstage := stage_spec hs.streams h
      exact ((touches_refl hs.streams plan.commandId).stage hstage).refines
        (Nat.le_of_eq hstage.nextId.symm) .noted
    · have hnone := (Table.insert?_eq_some hinsert).1
      have htouch : Touches s { s with commands } plan.commandId none
          ⟨some (agentCommandValues now correlationId plan .queued (some confirmationEventId)),
            (s.view plan.commandId).attempts⟩ := by
        refine touches_of_view hs.streams ?_ (fun c' hc => ?_) rfl rfl
        · rw [Store.view, Table.find?_of_insert? hinsert]
          exact congrArg (CommandView.mk · _) (if_pos rfl)
        · rw [Store.view, Table.find?_of_insert? hinsert]
          exact congrArg (CommandView.mk · _) (if_neg hc)
      have hstage := stage_spec (fun k => htouch.streams k) h
      have hview : s.view plan.commandId = _ := Store.view_of_find? hnone
      refine (htouch.stage hstage).refines (Nat.le_of_eq hstage.nextId.symm) ?_
      rw [hview]
      exact .accepted rfl

theorem agentCommandQueueUpsert_cases {attemptId : Uuid} {commands : Table AgentCommand.commandId}
    (h : agentCommandQueueUpsert s now correlationId plan attemptId = some commands) :
    (s.commands.find? plan.commandId = none ∧ s.commands.insert?
        { agentCommandValues now correlationId plan .queued none with
          attemptCount := 1, activeAttemptId := some attemptId } = some commands) ∨
      ∃ r, s.commands.find? plan.commandId = some r ∧ r.unprojected = true ∧
        commands = s.commands.modify plan.commandId (·.project attemptId now)
          fun r => r.commandId_project attemptId now := by
  unfold agentCommandQueueUpsert at h
  rcases hf : s.commands.find? plan.commandId with _ | r
  · rw [hf] at h
    exact Or.inl ⟨rfl, h⟩
  · rw [hf] at h
    simp only at h
    split at h
    · rename_i hr
      exact Or.inr ⟨r, rfl, hr, (Option.some.inj h).symm⟩
    · cases h

theorem queue_cases {projected : Bool}
    (h : queueAgentCommand s now correlationId plan = .ok (projected, s')) :
    (projected = false ∧ s' = s ∧
        agentCommandQueueUpsert s now correlationId plan s.nextId = none) ∨
      (projected = true ∧ ∃ commands attempts,
        agentCommandQueueUpsert s now correlationId plan s.nextId = some commands ∧
        agentCommandAttemptInsert s.attempts (agentCommandAttemptValues now s.nextId plan.commandId
          plan.workspace plan.clusterId 1 now) = .ok attempts ∧
        s' = { s with commands, attempts, nextId := s.nextId + 1 }) := by
  unfold queueAgentCommand at h
  split at h
  · cases h
  · rcases hu : agentCommandQueueUpsert s now correlationId plan s.nextId with _ | commands
    · rw [hu] at h
      cases h
      exact Or.inl ⟨rfl, rfl, rfl⟩
    · rw [hu] at h
      simp only at h
      rcases hi : agentCommandAttemptInsert s.attempts (agentCommandAttemptValues now s.nextId
          plan.commandId plan.workspace plan.clusterId 1 now) with e | attempts
      · rw [hi] at h
        cases h
      · rw [hi] at h
        cases h
        exact Or.inr ⟨rfl, commands, attempts, rfl, rfl, rfl⟩

theorem queue_refines (hs : StoreInv s) {projected : Bool}
    (h : queueAgentCommand s now correlationId plan = .ok (projected, s')) :
    Refines catalog (.queue now correlationId plan) s s' := by
  rcases queue_cases h with ⟨-, rfl, -⟩ | ⟨-, commands, attempts, hupsert, hinsert, rfl⟩
  · exact refines_refl catalog _ hs
  · rcases agentCommandQueueUpsert_cases hupsert with ⟨hnone, hrow⟩ | ⟨r, hr, hunprojected, rfl⟩
    · -- no receipt: the plan creates the row
      have hview : s.view plan.commandId = _ := Store.view_of_find? hnone
      have htouch := touches_append hs
        (t := { s with commands, attempts, nextId := s.nextId + 1 })
        (a := agentCommandAttemptValues now s.nextId plan.commandId plan.workspace plan.clusterId 1
          now)
        (v := some { agentCommandValues now correlationId plan .queued none with
          attemptCount := 1, activeAttemptId := some s.nextId })
        rfl (by rw [Table.find?_of_insert? hrow]; exact if_pos rfl)
        (fun c' hc => by rw [Table.find?_of_insert? hrow]; exact if_neg hc) hinsert rfl rfl
      refine htouch.refines (Nat.le_succ _) ?_
      change CommandStep _ _ _ plan.commandId _ (s.view plan.commandId) _ _
      rw [hview]
      exact .queued rfl (Nat.lt_succ_self _)
    · have hview := Store.view_of_find? hr
      have hself : (s.commands.modify plan.commandId (·.project s.nextId now)
          fun r => r.commandId_project s.nextId now).find? plan.commandId = some (r.project s.nextId now) := by
        rw [Table.find?_modify_self, hr]
        rfl
      have htouch := touches_append hs
        (t := { s with
          commands := s.commands.modify plan.commandId (·.project s.nextId now)
            fun r => r.commandId_project s.nextId now
          attempts, nextId := s.nextId + 1 })
        (a := agentCommandAttemptValues now s.nextId plan.commandId plan.workspace plan.clusterId 1
          now)
        (v := some (r.project s.nextId now)) rfl
        hself
        (fun c' hc => Table.find?_modify_ne s.commands _
          (fun r => r.commandId_project s.nextId now) hc) hinsert rfl rfl
      refine htouch.refines (Nat.le_succ _) ?_
      change CommandStep _ _ _ plan.commandId _ (s.view plan.commandId) _ _
      rw [hview]
      exact .projected rfl (Nat.lt_succ_self _) hunprojected

/-! ## Leasing -/

/-- `LIMIT 1` picks one of the candidates. -/
theorem leaseFirst_mem {pairs : List (AgentCommand × AgentCommandAttempt)}
    {x : AgentCommand × AgentCommandAttempt} (h : leaseFirst pairs = some x) : x ∈ pairs := by
  have hfold : ∀ (l : List (AgentCommand × AgentCommandAttempt)) (best : Option _),
      l.foldl leaseEarlier best = some x → best = some x ∨ x ∈ l := by
    intro l
    induction l with
    | nil => exact fun best h => Or.inl h
    | cons y l ih =>
      intro best hl
      rw [List.foldl_cons] at hl
      rcases ih _ hl with hbest | hmem
      · rcases best with _ | z
        · rw [← Option.some.inj hbest]
          exact Or.inr List.mem_cons_self
        · simp only [leaseEarlier] at hbest
          split at hbest
          · exact Or.inl hbest
          · rw [← Option.some.inj hbest]
            exact Or.inr List.mem_cons_self
      · exact Or.inr (List.mem_cons_of_mem y hmem)
  rcases hfold pairs none h with h | h
  · cases h
  · exact h

/-- The join and the `where` of the candidate query. -/
structure Leasable (s : Store) (req : LeaseRequest) (r : AgentCommand)
    (a : AgentCommandAttempt) : Prop where
  row : s.commands.find? r.commandId = some r
  active : r.activeAttemptId = some a.attemptId
  attempt : s.attempts.find? a.attemptId = some a
  workspaceId : r.workspaceId = req.workspaceId
  clusterId : r.clusterId = req.clusterId
  attemptWorkspaceId : a.workspaceId = req.workspaceId
  due : a.availableAt ≤ req.now
  available : leaseAvailable req.now r a = true

theorem leaseCandidate_cases {req : LeaseRequest} {r' : AgentCommand} (hr : r ∈ s.commands.rows)
    (h : leaseCandidate s req r = some (r', a)) : Leasable s req r' a := by
  unfold leaseCandidate at h
  rcases hj : r.activeAttemptId.bind s.attempts.find? with _ | b
  · rw [hj] at h
    cases h
  · rw [hj] at h
    simp only at h
    split at h
    · rename_i hw
      cases h
      obtain ⟨aid, haid, hfind⟩ := Option.bind_eq_some_iff.mp hj
      have hkey := Table.key_of_find? hfind
      subst hkey
      exact ⟨Table.find?_of_mem hr, haid, hfind, hw.1, hw.2.1, hw.2.2.1, hw.2.2.2.2.1,
        hw.2.2.2.2.2.1⟩
    · cases h

theorem lease_cases {req : LeaseRequest} {reply : Option LeasedAgentCommand}
    (h : leaseAgentCommand s req = .ok (reply, s')) :
    (reply = none ∧ s' = s) ∨
      ∃ r a event, Leasable s req r a ∧
        reply = some ⟨r.commandId, a.attemptId, s.nextId, event⟩ ∧
        stageCommandOperationEvent
          { s with
            commands := s.commands.modify r.commandId
              (·.lease s.nextId req.agentId (req.appNow + req.leaseSeconds) req.now)
              fun x => x.commandId_lease s.nextId req.agentId (req.appNow + req.leaseSeconds) req.now
            attempts := s.attempts.modify a.attemptId
              (·.lease s.nextId req.agentId (req.appNow + req.leaseSeconds) req.now)
              fun x => x.attemptId_lease s.nextId req.agentId (req.appNow + req.leaseSeconds) req.now
            nextId := s.nextId + 1 }
          req.now req.workspaceId r.commandId .progress
          { clusterId := req.clusterId, status := some .leased,
            correlationId := some r.correlationId, attemptId := some a.attemptId } =
          .ok (event, s') := by
  unfold leaseAgentCommand at h
  rcases hfirst : leaseFirst (s.commands.rows.filterMap (leaseCandidate s req)) with _ | ⟨r, a⟩
  · rw [hfirst] at h
    cases h
    exact Or.inl ⟨rfl, rfl⟩
  · rw [hfirst] at h
    simp only at h
    obtain ⟨r₀, hr₀, hcand⟩ := List.mem_filterMap.mp (leaseFirst_mem hfirst)
    split at h
    · cases h
    · rename_i event s₂ hstage
      cases h
      exact Or.inr ⟨r, a, event, leaseCandidate_cases hr₀ hcand, rfl, hstage⟩

theorem lease_refines (hs : StoreInv s) {req : LeaseRequest} {reply : Option LeasedAgentCommand}
    (h : leaseAgentCommand s req = .ok (reply, s')) : Refines catalog (.lease req) s s' := by
  rcases lease_cases h with ⟨-, rfl⟩ | ⟨r, a, event, hl, -, hstage⟩
  · exact refines_refl catalog _ hs
  · have hmem : a ∈ (s.view r.commandId).attempts :=
      List.mem_filter.mpr ⟨Table.mem_of_find? hl.attempt,
        decide_eq_true (hs.active_owner hl.row hl.active hl.attempt)⟩
    have hview := Store.view_of_find? hl.row
    have htouch := touches_update hs hl.row
      (t := { s with
        commands := s.commands.modify r.commandId
          (·.lease s.nextId req.agentId (req.appNow + req.leaseSeconds) req.now)
          fun x => x.commandId_lease s.nextId req.agentId (req.appNow + req.leaseSeconds) req.now
        attempts := s.attempts.modify a.attemptId
          (·.lease s.nextId req.agentId (req.appNow + req.leaseSeconds) req.now)
          fun x => x.attemptId_lease s.nextId req.agentId (req.appNow + req.leaseSeconds) req.now
        nextId := s.nextId + 1 })
      (f := (·.lease s.nextId req.agentId (req.appNow + req.leaseSeconds) req.now))
      (fun r => r.commandId_lease s.nextId req.agentId (req.appNow + req.leaseSeconds) req.now)
      (fun a => a.continues_lease s.nextId req.agentId
        (req.appNow + req.leaseSeconds) req.now) rfl (by rw [hl.active]; rfl) rfl rfl
    have hstaged := stage_spec (fun k => htouch.streams k) hstage
    obtain ⟨hw, hc, hcl⟩ := (stage_cases hstage).1
    have hid : r.Identified := ⟨by rw [hl.workspaceId]; exact hw, hc, by rw [hl.clusterId]; exact hcl⟩
    have hnext : s'.nextId = s.nextId + 1 := hstaged.nextId
    refine (htouch.stage hstaged).refines (by rw [hnext]; exact Nat.le_succ _) ?_
    rw [hview, ← hl.workspaceId]
    exact .leased (by rw [hnext]; exact Nat.lt_succ_self _) hl.workspaceId hl.clusterId hmem
      hl.active hl.attemptWorkspaceId hl.due hl.available hid

/-! ## Starting, heartbeats and completion -/

theorem start_cases {reply : Option StartedAgentCommand}
    (h : startAgentCommand s req = .ok (reply, s')) :
    (reply = none ∧ s' = s) ∨
      ∃ r event, s.commands.find? req.commandId = some r ∧ r.heldBy req [.leased] = true ∧
        reply = some ⟨r.correlationId, event⟩ ∧
        stageCommandOperationEvent
          { s with
            commands := s.commands.modify req.commandId
              (·.start (req.appNow + req.leaseSeconds) req.now)
              fun r => r.commandId_start (req.appNow + req.leaseSeconds) req.now
            attempts := updateActiveAttempt s.attempts r.activeAttemptId
              (·.start req (req.appNow + req.leaseSeconds))
              fun a => a.attemptId_start req (req.appNow + req.leaseSeconds) }
          req.now req.workspaceId req.commandId .progress
          { clusterId := req.clusterId, status := some .running,
            correlationId := some r.correlationId, attemptId := r.activeAttemptId } =
          .ok (event, s') := by
  unfold startAgentCommand at h
  rcases hf : (s.commands.find? req.commandId).filter (·.heldBy req [.leased]) with _ | r
  · rw [hf] at h
    cases h
    exact Or.inl ⟨rfl, rfl⟩
  · rw [hf] at h
    obtain ⟨hr, hheld⟩ := Option.filter_eq_some_iff.mp hf
    simp only at h
    split at h
    · cases h
    · rename_i event s₂ hstage
      cases h
      exact Or.inr ⟨r, event, hr, hheld, rfl, hstage⟩

theorem start_refines (hs : StoreInv s) {reply : Option StartedAgentCommand}
    (h : startAgentCommand s req = .ok (reply, s')) : Refines catalog (.start req) s s' := by
  rcases start_cases h with ⟨-, rfl⟩ | ⟨r, event, hr, hheld, -, hstage⟩
  · exact refines_refl catalog _ hs
  · have hview := Store.view_of_find? hr
    have htouch := touches_update hs hr
      (t := { s with
        commands := s.commands.modify req.commandId
          (·.start (req.appNow + req.leaseSeconds) req.now)
          fun r => r.commandId_start (req.appNow + req.leaseSeconds) req.now
        attempts := updateActiveAttempt s.attempts r.activeAttemptId
          (·.start req (req.appNow + req.leaseSeconds))
          fun a => a.attemptId_start req (req.appNow + req.leaseSeconds) })
      (f := (·.start (req.appNow + req.leaseSeconds) req.now))
      (fun r => r.commandId_start (req.appNow + req.leaseSeconds) req.now)
      (fun a => a.continues_start req (req.appNow + req.leaseSeconds)) rfl rfl rfl rfl
    have hstaged := stage_spec (fun k => htouch.streams k) hstage
    refine (htouch.stage hstaged).refines (Nat.le_of_eq hstaged.nextId.symm) ?_
    rw [hview, ← (AgentCommand.heldBy_iff.mp hheld).workspaceId]
    exact .started rfl hheld

theorem heartbeat_cases {observed : Option ℤ} {reply : Option HeartbeatAgentCommand}
    (h : heartbeatAgentCommand s req observed = .ok (reply, s')) :
    (reply = none ∧ s' = s) ∨
      ∃ r s₁, s.commands.find? req.commandId = some r ∧
        r.heldBy req [.leased, .running, .cancelRequested, .cancelling] = true ∧
        s₁ = (if r.activeAttemptId.isSome then s.heartbeatUpdate req observed r else s) ∧
        ((r.acknowledged observed = false ∧ s' = s₁) ∨
          (r.acknowledged observed = true ∧ ∃ event,
            stageCommandOperationEvent s₁ req.now req.workspaceId req.commandId .progress
              { clusterId := req.clusterId, status := some .cancelling,
                correlationId := some r.correlationId } = .ok (event, s'))) := by
  unfold heartbeatAgentCommand at h
  rcases hf : (s.commands.find? req.commandId).filter
      (·.heldBy req [.leased, .running, .cancelRequested, .cancelling]) with _ | r
  · rw [hf] at h
    cases h
    exact Or.inl ⟨rfl, rfl⟩
  · rw [hf] at h
    obtain ⟨hr, hheld⟩ := Option.filter_eq_some_iff.mp hf
    simp only at h
    refine Or.inr ⟨r, _, hr, hheld, rfl, ?_⟩
    split at h
    · rename_i hack
      split at h
      · cases h
      · rename_i event s₂ hstage
        cases h
        exact Or.inr ⟨hack, event, hstage⟩
    · rename_i hack
      cases h
      exact Or.inl ⟨by simpa using hack, rfl⟩

theorem heartbeat_refines (hs : StoreInv s) {observed : Option ℤ}
    {reply : Option HeartbeatAgentCommand}
    (h : heartbeatAgentCommand s req observed = .ok (reply, s')) :
    Refines catalog (.heartbeat req observed) s s' := by
  rcases heartbeat_cases h with ⟨-, rfl⟩ | ⟨r, s₁, hr, hheld, rfl, hdone⟩
  · exact refines_refl catalog _ hs
  · have hview := Store.view_of_find? hr
    have hfacts := AgentCommand.heldBy_iff.mp hheld
    obtain ⟨hq, ht⟩ := CommandStatus.held_cases hfacts.status
    obtain ⟨a, -, hactive, -⟩ := (hs.row hr).active_of_held hq ht
    have htouch := touches_update hs hr (t := s.heartbeatUpdate req observed r)
      (f := (·.heartbeat (r.acknowledged observed) (req.appNow + req.leaseSeconds) req.now))
      (fun x => x.commandId_heartbeat (r.acknowledged observed) (req.appNow + req.leaseSeconds)
        req.now)
      (fun a => a.continues_heartbeat req (req.appNow + req.leaseSeconds)) rfl rfl rfl rfl
    have hsome : r.activeAttemptId.isSome = true := by rw [hactive]; rfl
    rw [if_pos hsome] at hdone
    rcases hdone with ⟨hack, rfl⟩ | ⟨hack, event, hstage⟩
    · refine htouch.refines (Nat.le_refl _) ?_
      have hstep : CommandStep catalog s.nextId s.nextId req.commandId (.heartbeat req observed)
          ⟨some r, (s.view req.commandId).attempts⟩ _ _ := .heartbeat rfl hheld
      rw [if_neg (by rw [hack]; simp)] at hstep
      rw [hview]
      exact hstep
    · have hstaged := stage_spec (fun k => htouch.streams k) hstage
      refine (htouch.stage hstaged).refines (Nat.le_of_eq hstaged.nextId.symm) ?_
      have hstep : CommandStep catalog s.nextId s'.nextId req.commandId (.heartbeat req observed)
          ⟨some r, (s.view req.commandId).attempts⟩ _ _ := .heartbeat rfl hheld
      rw [if_pos hack] at hstep
      rw [hview, ← hfacts.workspaceId]
      exact hstep

theorem progress_refines (hs : StoreInv s) {payload : OperationPayload}
    (h : appendCommandOperationEvent s now workspaceId commandId .progress payload =
      .ok (event, s')) :
    Refines catalog (.progress now workspaceId commandId payload) s s' := by
  have hstaged := stage_spec hs.streams h
  exact ((touches_refl hs.streams _).stage hstaged).refines (Nat.le_of_eq hstaged.nextId.symm)
    .noted

theorem complete_cases {result : CommandResult} {reply : Option CompletedAgentCommand}
    (h : completeAgentCommandAndStageEvent catalog s req result source = .ok (reply, s')) :
    (reply = none ∧ s' = s) ∨
      ∃ r status kind attemptStatus event s₂ completed,
        result.status = some status ∧ s.commands.find? req.commandId = some r ∧
        r.heldBy req [.running, .cancelRequested, .cancelling] = true ∧
        completionKind catalog r status result = some kind ∧
        status.attemptStatus = some attemptStatus ∧
        stageCommandOperationEvent (s.completeUpdate req status attemptStatus result r) req.now
          req.workspaceId req.commandId kind
          { clusterId := req.clusterId, status := some status,
            correlationId := some r.correlationId, attemptId := r.activeAttemptId,
            result := some result } = .ok (event, s₂) ∧
        reply = some ⟨completed, event⟩ ∧
        s' = { s₂ with
          commands := if kind = .progress then s₂.commands else
            s₂.commands.modify req.commandId (·.recordTerminalEvent completed.eventId)
              fun r => r.commandId_recordTerminalEvent completed.eventId
          outbox := s₂.outbox.insertIfAbsent completed
          nextId := s₂.nextId + 1 } := by
  unfold completeAgentCommandAndStageEvent at h
  rcases hstatus : result.status with _ | status
  · rw [hstatus] at h
    cases h
  · rw [hstatus] at h
    simp only at h
    rcases hf : (s.commands.find? req.commandId).filter
        (·.heldBy req [.running, .cancelRequested, .cancelling]) with _ | r
    · rw [hf] at h
      cases h
      exact Or.inl ⟨rfl, rfl⟩
    · rw [hf] at h
      obtain ⟨hr, hheld⟩ := Option.filter_eq_some_iff.mp hf
      simp only at h
      rcases hkind : completionKind catalog r status result with _ | kind
      · rw [hkind] at h
        cases h
      · rcases hattempt : status.attemptStatus with _ | attemptStatus
        · rw [hkind, hattempt] at h
          cases h
        · rw [hkind, hattempt] at h
          simp only at h
          split at h
          · cases h
          · rename_i event s₂ hstage
            cases h
            exact Or.inr ⟨r, status, kind, attemptStatus, event, s₂, _, rfl, hr, hheld, hkind,
              hattempt, hstage, rfl, rfl⟩

theorem complete_refines (hs : StoreInv s) {result : CommandResult}
    {reply : Option CompletedAgentCommand}
    (h : completeAgentCommandAndStageEvent catalog s req result source = .ok (reply, s')) :
    Refines catalog (.complete req result source) s s' := by
  rcases complete_cases h with ⟨-, rfl⟩ | ⟨r, status, kind, attemptStatus, event, s₂, completed,
    hstatus, hr, hheld, hkind, hattempt, hstage, -, rfl⟩
  · exact refines_refl catalog _ hs
  · have hview := Store.view_of_find? hr
    have htouch := touches_update hs hr
      (t := s.completeUpdate req status attemptStatus result r)
      (f := (·.complete status result req.now))
      (fun r => r.commandId_complete status result req.now)
      (fun a => a.continues_complete req attemptStatus result) rfl rfl rfl rfl
    have hstaged := stage_spec (fun k => htouch.streams k) hstage
    have hdone := htouch.stage hstaged
    have hnext : s₂.nextId = s.nextId := hstaged.nextId
    have hw : r.workspaceId = req.workspaceId := (AgentCommand.heldBy_iff.mp hheld).workspaceId
    rw [← hw] at hdone
    by_cases hprogress : kind = .progress
    · -- a failure that may be retried records no terminal event
      refine Touches.refines (hdone.frame ?_ rfl rfl rfl) ?_ ?_
      · exact if_pos hprogress
      · exact Nat.le_trans (Nat.le_of_eq hnext.symm) (Nat.le_succ s₂.nextId)
      · rw [hview]
        exact .completed rfl hstatus hheld hkind hattempt
    · have hrecorded := hdone.modifyRow (·.recordTerminalEvent completed.eventId)
        fun r => r.commandId_recordTerminalEvent completed.eventId
      refine Touches.refines (hrecorded.frame ?_ rfl rfl rfl) ?_ ?_
      · exact if_neg hprogress
      · exact Nat.le_trans (Nat.le_of_eq hnext.symm) (Nat.le_succ s₂.nextId)
      · rw [hview]
        exact .completed rfl hstatus hheld hkind hattempt

/-! ## Controls -/

theorem updateActiveAttempt_id (attempts : Table AgentCommandAttempt.attemptId)
    (active : Option Uuid) :
    updateActiveAttempt attempts active id (fun _ => rfl) = attempts := by
  rcases active with _ | aid
  · rfl
  · simp [updateActiveAttempt, Table.modify]

/-- The tables after a cancel before execution. -/
def Store.cancelUpdate (s : Store) (req : ControlRequest) (r : AgentCommand) : Store :=
  { s with
    commands := s.commands.modify req.commandId (·.cancel req (cancelResult req.reason))
      fun r => r.commandId_cancel req (cancelResult req.reason)
    attempts := updateActiveAttempt s.attempts r.activeAttemptId
      (·.cancel req (cancelResult req.reason))
      fun a => a.attemptId_cancel req (cancelResult req.reason) }

theorem cancel_refines (hs : StoreInv s) {req : ControlRequest}
    (hr : s.commands.find? req.commandId = some r) (hw : r.workspaceId = req.workspaceId)
    (haction : req.action = .cancel) (h : stageCancelControl catalog s req r = .ok (effect, s')) :
    Refines catalog (.control req) s s' := by
  have hview := Store.view_of_find? hr
  have hcid : r.commandId = req.commandId := Table.key_of_find? hr
  unfold stageCancelControl at h
  simp only at h
  split at h
  · rcases hstatus : r.status with _ | _ | _ | _ | _ | _ | _ | _ <;> rw [hstatus] at h <;>
      simp only at h
    case queued | leased =>
      split at h
      · cases h
      · rename_i event s₂ hstage
        cases h
        have htouch := touches_update hs hr (t := s.cancelUpdate req r)
          (f := (·.cancel req (cancelResult req.reason)))
          (fun r => r.commandId_cancel req (cancelResult req.reason))
          (fun a => a.continues_cancel req (cancelResult req.reason)) rfl rfl rfl rfl
        have hstaged := stage_spec (fun k => htouch.streams k) hstage
        obtain ⟨hiw, hic, hicl⟩ := (stage_cases hstage).1
        have hid : r.Identified := ⟨by rw [hw]; exact hiw, by rw [hcid]; exact hic, hicl⟩
        have hdone := htouch.stage hstaged
        rw [← hw] at hdone
        refine hdone.refines (Nat.le_of_eq hstaged.nextId.symm) ?_
        rw [hview]
        exact .cancelled rfl hw haction (by simp [hstatus]) hid
    case running =>
      split at h
      · cases h
      · rename_i event s₂ hstage
        cases h
        have htouch := touches_update hs hr
          (t := { s with
            commands := s.commands.modify req.commandId (·.requestCancel req)
              fun r => r.commandId_requestCancel req })
          (f := (·.requestCancel req)) (g := id) (fun r => r.commandId_requestCancel req)
          (fun a => a.continues_refl) rfl (updateActiveAttempt_id s.attempts r.activeAttemptId).symm
          rfl rfl
        rw [onActive_id] at htouch
        have hstaged := stage_spec (fun k => htouch.streams k) hstage
        have hdone := htouch.stage hstaged
        rw [← hw] at hdone
        refine hdone.refines (Nat.le_of_eq hstaged.nextId.symm) ?_
        rw [hview]
        exact .cancelRequested rfl hw haction hstatus
    case cancelRequested | cancelling =>
      cases h
      exact refines_refl catalog _ hs
    all_goals cases h
  · cases h

theorem retry_cases {req : ControlRequest}
    (h : stageRetryControl catalog s req r = .ok (effect, s')) :
    r.Retryable catalog ∧ effect.details.statusAfter = .queued ∧
      effect.attemptId = some s.nextId ∧ ∃ attempts event,
      agentCommandAttemptInsert s.attempts
        (agentCommandAttemptValues req.now s.nextId req.commandId req.workspaceId r.clusterId
          (r.attemptCount + 1) (req.now + (commandRetryPolicy r.payload).2)) = .ok attempts ∧
      stageCommandOperationEvent
        { s with
          attempts
          commands := s.commands.modify req.commandId (·.retry s.nextId req.now)
            fun r => r.commandId_retry s.nextId req.now
          nextId := s.nextId + 1 }
        req.now req.workspaceId req.commandId .progress
        { clusterId := r.clusterId, status := some .queued, correlationId := some r.correlationId,
          attemptId := some s.nextId } = .ok (event, s') := by
  unfold stageRetryControl at h
  rcases hp : commandRetryPolicy r.payload with ⟨maxAttempts, delay⟩
  rw [hp] at h
  simp only at h
  split at h
  · cases h
  · rename_i hfailed
    split at h
    · cases h
    · rename_i hspec
      split at h
      · cases h
      · rename_i hbudget
        split at h
        · cases h
        · rename_i hres
          simp only [Bool.or_eq_true, Bool.not_eq_true', decide_eq_true_eq, not_or,
            Bool.not_eq_false, Int.not_lt] at hspec
          have hretry : r.Retryable catalog :=
            ⟨not_not.mp hfailed, hspec.1, by rw [hp]; exact hspec.2,
              by rw [hp]; exact Int.not_le.mp hbudget, not_not.mp hres⟩
          split at h
          · cases h
          · rename_i attempts hinsert
            split at h
            · cases h
            · rename_i event s₂ hstage
              cases h
              exact ⟨hretry, rfl, rfl, attempts, event, hinsert, hstage⟩

theorem retry_refines (hs : StoreInv s) {req : ControlRequest}
    (hr : s.commands.find? req.commandId = some r) (hw : r.workspaceId = req.workspaceId)
    (haction : req.action = .retry) (h : stageRetryControl catalog s req r = .ok (effect, s')) :
    Refines catalog (.control req) s s' := by
  obtain ⟨hretry, -, -, attempts, event, hinsert, hstage⟩ := retry_cases h
  have hview := Store.view_of_find? hr
  have hself : (s.commands.modify req.commandId (·.retry s.nextId req.now)
      fun r => r.commandId_retry s.nextId req.now).find? req.commandId =
        some (r.retry s.nextId req.now) := by
    rw [Table.find?_modify_self, hr]
    rfl
  have htouch := touches_append hs
    (t := { s with
      attempts
      commands := s.commands.modify req.commandId (·.retry s.nextId req.now)
        fun r => r.commandId_retry s.nextId req.now
      nextId := s.nextId + 1 })
    (a := agentCommandAttemptValues req.now s.nextId req.commandId req.workspaceId r.clusterId
      (r.attemptCount + 1) (req.now + (commandRetryPolicy r.payload).2))
    (v := some (r.retry s.nextId req.now)) rfl hself
    (fun c' hc => Table.find?_modify_ne s.commands _
      (fun r => r.commandId_retry s.nextId req.now) hc) hinsert rfl rfl
  have hstaged := stage_spec (fun k => htouch.streams k) hstage
  have hdone := htouch.stage hstaged
  rw [← hw] at hdone
  have hnext : s'.nextId = s.nextId + 1 := hstaged.nextId
  refine hdone.refines (by rw [hnext]; exact Nat.le_succ _) ?_
  change CommandStep _ _ _ req.commandId _ (s.view req.commandId) _ _
  rw [hview, hw]
  have hstep : CommandStep catalog s.nextId s'.nextId req.commandId (.control req)
      ⟨some r, (s.view req.commandId).attempts⟩ _ _ :=
    .retried rfl (by rw [hnext]; exact Nat.lt_succ_self _) hw haction hretry
  rw [hw] at hstep
  exact hstep

theorem control_cases {req : ControlRequest} {reply : StagedCommandControl}
    (h : stageCommandControl catalog s req = .ok (reply, s')) :
    ∃ r effect s₁ controls, s.commands.find? req.commandId = some r ∧
      r.workspaceId = req.workspaceId ∧
      (match req.action with
        | .cancel => stageCancelControl catalog s req r
        | .retry => stageRetryControl catalog s req r) = .ok (effect, s₁) ∧
      reply.status = effect.details.statusAfter ∧ reply.attemptId = effect.attemptId ∧
      s' = { s₁ with controls, nextId := s₁.nextId + 1 } := by
  unfold stageCommandControl at h
  rcases hf : (s.commands.find? req.commandId).filter (·.workspaceId = req.workspaceId) with _ | r
  · rw [hf] at h
    cases h
  · rw [hf] at h
    obtain ⟨hr, hw⟩ := Option.filter_eq_some_iff.mp hf
    simp only at h
    split at h
    · cases h
    · rename_i hfresh
      split at h
      · cases h
      · rename_i effect s₁ hbranch
        cases h
        exact ⟨r, effect, s₁, _, hr, of_decide_eq_true hw, hbranch, rfl, rfl, rfl⟩

theorem Refines.frame {op : Op} (h : Refines catalog op s s₁) {t : Store}
    (hn : s₁.nextId ≤ t.nextId) (hcommands : t.commands = s₁.commands)
    (hattempts : t.attempts = s₁.attempts) (hcursors : t.cursors = s₁.cursors)
    (hevents : t.operationEvents = s₁.operationEvents) :
    Refines catalog op s t := by
  refine ⟨Nat.le_trans h.nextId hn, fun k => (h.streams k).congr hcursors hevents, fun c => ?_⟩
  obtain ⟨event, hstep, hkinds⟩ := h.command c
  have hview : t.view c = s₁.view c := by rw [Store.view, Store.view, hcommands, hattempts]
  refine ⟨event, ?_, fun w => (Store.kinds_congr hevents _).trans (hkinds w)⟩
  rw [hview]
  exact hstep.mono hn

theorem control_refines (hs : StoreInv s) {req : ControlRequest} {reply : StagedCommandControl}
    (h : stageCommandControl catalog s req = .ok (reply, s')) :
    Refines catalog (.control req) s s' := by
  obtain ⟨r, effect, s₁, controls, hr, hw, hbranch, -, -, rfl⟩ := control_cases h
  have hbase : Refines catalog (.control req) s s₁ := by
    rcases haction : req.action with _ | _ <;> rw [haction] at hbranch
    · exact cancel_refines hs hr hw haction hbranch
    · exact retry_refines hs hr hw haction hbranch
  exact hbase.frame (Nat.le_succ _) rfl rfl rfl rfl

/-! ## Rejection and expiry -/

theorem failLogical_cases {clusterId reason : String}
    (h : failLogicalCommandAndStageEvent s now workspaceId commandId clusterId reason =
      .ok (event, s')) :
    (s' = s ∧ (s.commands.find? commandId).filter (·.rejectable workspaceId clusterId) = none) ∨
      ∃ r, s.commands.find? commandId = some r ∧ r.rejectable workspaceId clusterId = true ∧
        stageCommandOperationEvent
          { s with
            commands := s.commands.modify commandId (·.reject reason now)
              fun r => r.commandId_reject reason now }
          now workspaceId commandId .failed
          { clusterId, status := some .failed, correlationId := some r.correlationId,
            result := some (rejectionResult reason) } = .ok (event, s') := by
  unfold failLogicalCommandAndStageEvent at h
  rcases hf : (s.commands.find? commandId).filter (·.rejectable workspaceId clusterId) with _ | r
  · rw [hf] at h
    cases h
    exact Or.inl ⟨rfl, hf⟩
  · rw [hf] at h
    obtain ⟨hr, hreject⟩ := Option.filter_eq_some_iff.mp hf
    exact Or.inr ⟨r, hr, hreject, h⟩

theorem failLogical_refines (hs : StoreInv s) {clusterId reason : String}
    (h : failLogicalCommandAndStageEvent s now workspaceId commandId clusterId reason =
      .ok (event, s')) :
    Refines catalog (.failLogical now workspaceId commandId clusterId reason) s s' := by
  rcases failLogical_cases h with ⟨rfl, -⟩ | ⟨r, hr, hreject, hstage⟩
  · exact refines_refl catalog _ hs
  · obtain ⟨hw, hcl, -⟩ := AgentCommand.rejectable_iff.mp hreject
    have hview := Store.view_of_find? hr
    have htouch := touches_update hs hr
      (t := { s with
        commands := s.commands.modify commandId (·.reject reason now)
          fun r => r.commandId_reject reason now })
      (f := (·.reject reason now)) (g := id) (fun r => r.commandId_reject reason now)
      (fun a => a.continues_refl) rfl (updateActiveAttempt_id s.attempts r.activeAttemptId).symm
      rfl rfl
    rw [onActive_id] at htouch
    have hstaged := stage_spec (fun k => htouch.streams k) hstage
    obtain ⟨hiw, hic, hicl⟩ := (stage_cases hstage).1
    have hid : r.Identified :=
      ⟨by rw [hw]; exact hiw, by rw [Table.key_of_find? hr]; exact hic, by rw [hcl]; exact hicl⟩
    have hdone := htouch.stage hstaged
    rw [← hw] at hdone
    refine hdone.refines (Nat.le_of_eq hstaged.nextId.symm) ?_
    rw [hview]
    exact .rejected hreject hid

theorem failExpiredAgentCommand_touches (hs : StoreInv s)
    (hr : s.commands.find? r.commandId = some r)
    (h : failExpiredAgentCommand now source s r = .ok s') :
    r.Identified ∧ s'.nextId = s.nextId ∧ ∃ eventId,
      Touches s s' r.commandId
        (some (r.workspaceId, if r.expiredStatus = .cancelled then .cancelled else .failed))
        ⟨some ((r.expire now).recordTerminalEvent eventId),
          onActive (s.view r.commandId).attempts r.activeAttemptId
            (·.expire r.workspaceId r.expiredResult now)⟩ := by
  unfold failExpiredAgentCommand at h
  simp only at h
  split at h
  · cases h
  · rename_i event s₂ hstage
    have htouch := touches_update hs hr (t := s.expireUpdate now r) (f := (·.expire now))
      (fun r => r.commandId_expire now)
      (fun a => a.continues_expire r.workspaceId r.expiredResult now) rfl rfl rfl rfl
    have hstaged := stage_spec (fun k => htouch.streams k) hstage
    have hrecorded := (htouch.stage hstaged).modifyRow
      (·.recordTerminalEvent (.commandExpired r.commandId r.attemptCount))
      fun x => x.commandId_recordTerminalEvent (.commandExpired r.commandId r.attemptCount)
    rw [← Except.ok.inj h]
    exact ⟨(stage_cases hstage).1, hstaged.nextId, .commandExpired r.commandId r.attemptCount,
      hrecorded.frame rfl rfl rfl rfl⟩

theorem failExpiredAgentCommand_refines (catalog : CommandCatalog) (hs : StoreInv s)
    (hr : s.commands.find? r.commandId = some r)
    (hexpired : r.expired now graceSeconds queueTtlSeconds = true)
    (h : failExpiredAgentCommand now source s r = .ok s') :
    Refines catalog (.failExpired now graceSeconds queueTtlSeconds source) s s' := by
  obtain ⟨hid, hnext, eventId, htouch⟩ := failExpiredAgentCommand_touches hs hr h
  have hview := Store.view_of_find? hr
  refine htouch.refines (Nat.le_of_eq hnext.symm) ?_
  rw [hview]
  exact .expired hexpired hid

theorem failExpiredAgentCommand_rest (hs : StoreInv s) (hr : s.commands.find? r.commandId = some r)
    (hnotin : r.commandId ∉ rows.map (·.commandId))
    (h : failExpiredAgentCommand now source s r = .ok s') {x : AgentCommand} (hx : x ∈ rows)
    (hfind : s.commands.find? x.commandId = some x) : s'.commands.find? x.commandId = some x := by
  obtain ⟨-, -, eventId, htouch⟩ := failExpiredAgentCommand_touches hs hr h
  have hne : x.commandId ≠ r.commandId := fun he =>
    hnotin (he ▸ List.mem_map_of_mem (f := (·.commandId)) hx)
  exact (congrArg CommandView.row (htouch.other x.commandId hne)).trans hfind

theorem sweep_refines (catalog : CommandCatalog) :
    ∀ {s s' : Store}, StoreInv s → (rows.map (·.commandId)).Nodup →
      (∀ r ∈ rows, s.commands.find? r.commandId = some r ∧
        r.expired now graceSeconds queueTtlSeconds = true) →
      rows.foldlM (failExpiredAgentCommand now source) s = .ok s' →
      Refines catalog (.failExpired now graceSeconds queueTtlSeconds source) s s' ∧
        s'.nextId = s.nextId ∧
        (∀ c, c ∉ rows.map (·.commandId) →
          s'.view c = s.view c ∧ ∀ w, s'.kinds (w, c) = s.kinds (w, c)) ∧
        ∀ r ∈ rows, r.Identified ∧ ∃ eventId,
          s'.commands.find? r.commandId = some ((r.expire now).recordTerminalEvent eventId) := by
  induction rows with
  | nil =>
    intro s s' hs _ _ h
    cases h
    exact ⟨refines_refl catalog _ hs, rfl, fun _ _ => ⟨rfl, fun _ => rfl⟩,
      fun r hr => absurd hr List.not_mem_nil⟩
  | cons r rows ih =>
    intro s s' hs hnodup hrows h
    obtain ⟨hnotin, hnodup⟩ := List.nodup_cons.mp (by simpa only [List.map_cons] using hnodup)
    obtain ⟨hr, hexpired⟩ := hrows r List.mem_cons_self
    rw [List.foldlM_cons] at h
    rcases hone : failExpiredAgentCommand now source s r with e | s₁
    · rw [hone] at h
      cases h
    · rw [hone] at h
      obtain ⟨hid, hnext₁, eventId, htouch⟩ := failExpiredAgentCommand_touches hs hr hone
      have hhead := failExpiredAgentCommand_refines catalog hs hr hexpired hone
      have hrest : ∀ x ∈ rows, s₁.commands.find? x.commandId = some x ∧
          x.expired now graceSeconds queueTtlSeconds = true := by
        intro x hx
        obtain ⟨hfind, hexp⟩ := hrows x (List.mem_cons_of_mem r hx)
        exact ⟨failExpiredAgentCommand_rest hs hr hnotin hone hx hfind, hexp⟩
      obtain ⟨htail, hnext, hframe, hwritten⟩ := ih (hhead.inv hs) hnodup hrest h
      refine ⟨⟨?_, htail.streams, fun c => ?_⟩, hnext.trans hnext₁, fun c hc => ?_, fun x hx => ?_⟩
      · exact Nat.le_of_eq (hnext.trans hnext₁).symm
      · by_cases hc : c = r.commandId
        · subst hc
          -- the rest of the sweep leaves this command alone
          obtain ⟨hv, hk⟩ := hframe r.commandId hnotin
          obtain ⟨ev, hstep, hkinds⟩ := hhead.command r.commandId
          refine ⟨ev, ?_, fun w => (hk w).trans (hkinds w)⟩
          rw [hv]
          exact hstep.mono (Nat.le_of_eq hnext.symm)
        · obtain ⟨ev, hstep, hkinds⟩ := htail.command c
          rw [htouch.other c hc, hnext₁] at hstep
          refine ⟨ev, hstep, fun w => ?_⟩
          rw [hkinds w, htouch.kinds, if_neg hc]
      · have hne : c ≠ r.commandId := fun he => hc (by rw [he]; exact List.mem_cons_self)
        obtain ⟨hv, hk⟩ := hframe c fun hin => hc (List.mem_cons_of_mem _ hin)
        refine ⟨hv.trans (htouch.other c hne), fun w => ?_⟩
        rw [hk w, htouch.kinds, if_neg hne]
      · rcases List.mem_cons.mp hx with rfl | hx
        · have hv := congrArg CommandView.row ((hframe x.commandId hnotin).1.trans htouch.self)
          exact ⟨hid, eventId, hv⟩
        · exact hwritten x hx

theorem failExpired_cases
    (h : failExpiredAgentCommands s now graceSeconds queueTtlSeconds source = .ok (rows, s')) :
    1 ≤ graceSeconds ∧ 1 ≤ queueTtlSeconds ∧ ∃ chosen,
      chosen = s.commands.rows.filter (·.expired now graceSeconds queueTtlSeconds) ∧
      rows = chosen.map (·.expire now) ∧
      chosen.foldlM (failExpiredAgentCommand now source) s = .ok s' := by
  unfold failExpiredAgentCommands at h
  split at h
  · cases h
  · rename_i hpos
    simp only at h
    split at h
    · cases h
    · rename_i s₂ hfold
      cases h
      exact ⟨by omega, by omega, _, rfl, rfl, hfold⟩

theorem failExpired_sweep (catalog : CommandCatalog) (hs : StoreInv s)
    (h : failExpiredAgentCommands s now graceSeconds queueTtlSeconds source = .ok (rows, s')) :
    Refines catalog (.failExpired now graceSeconds queueTtlSeconds source) s s' ∧
      ∀ x ∈ rows, ∃ r, x = r.expire now ∧ s.commands.find? r.commandId = some r ∧
        r.expired now graceSeconds queueTtlSeconds = true ∧ r.Identified ∧ ∃ eventId,
          s'.commands.find? r.commandId = some ((r.expire now).recordTerminalEvent eventId) := by
  obtain ⟨-, -, chosen, rfl, rfl, hfold⟩ := failExpired_cases h
  have hchosen : ∀ r ∈ s.commands.rows.filter (·.expired now graceSeconds queueTtlSeconds),
      s.commands.find? r.commandId = some r ∧
        r.expired now graceSeconds queueTtlSeconds = true := by
    intro r hr
    obtain ⟨hmem, hexpired⟩ := List.mem_filter.mp hr
    exact ⟨Table.find?_of_mem hmem, hexpired⟩
  obtain ⟨hrefines, -, -, hwritten⟩ := sweep_refines catalog hs
    (s.commands.nodup.sublist (List.filter_sublist.map _)) hchosen hfold
  refine ⟨hrefines, fun x hx => ?_⟩
  obtain ⟨r, hr, rfl⟩ := List.mem_map.mp hx
  exact ⟨r, rfl, (hchosen r hr).1, (hchosen r hr).2, hwritten r hr⟩

/-! ## The refinement theorem -/

/-- **Refinement.** A transaction is one step of every command, and pushes
exactly the event of that step to the stream of the command. -/
theorem step_refines (catalog : CommandCatalog) (hs : StoreInv s) (op : Op) :
    Refines catalog op s (step catalog s op) := by
  have hcommit : ∀ {α : Type} (tx : Tx α),
      (∀ x s', tx = .ok (x, s') → Refines catalog op s s') →
      Refines catalog op s (tx.commit s) := by
    intro α tx htx
    rcases tx with e | ⟨x, s'⟩
    · exact refines_refl catalog op hs
    · exact htx x s' rfl
  cases op with
  | accept => exact hcommit _ fun _ _ h => accept_refines hs h
  | queue => exact hcommit _ fun _ _ h => queue_refines hs h
  | lease => exact hcommit _ fun _ _ h => lease_refines hs h
  | start => exact hcommit _ fun _ _ h => start_refines hs h
  | heartbeat => exact hcommit _ fun _ _ h => heartbeat_refines hs h
  | progress => exact hcommit _ fun _ _ h => progress_refines hs h
  | complete => exact hcommit _ fun _ _ h => complete_refines hs h
  | control => exact hcommit _ fun _ _ h => control_refines hs h
  | failLogical => exact hcommit _ fun _ _ h => failLogical_refines hs h
  | failExpired => exact hcommit _ fun _ _ h => (failExpired_sweep catalog hs h).1

theorem step_inv (catalog : CommandCatalog) (s : Store) (op : Op) (hs : StoreInv s) :
    StoreInv (step catalog s op) := (step_refines catalog hs op).inv hs

/-- **Every reachable store is consistent.** -/
theorem reachable_inv (catalog : CommandCatalog) (ops : List Op) :
    StoreInv (run (step catalog) Store.empty ops) :=
  run_invariant (step_inv catalog) storeInv_empty ops

/-- **Every run is a run of the life of every command.** -/
theorem run_refines (catalog : CommandCatalog) (ops : List Op) (op : Op) :
    let s := run (step catalog) Store.empty ops
    Refines catalog op s (step catalog s op) :=
  step_refines catalog (reachable_inv catalog ops) op

end Opsia
