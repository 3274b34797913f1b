import Opsia.Inventory.IngestLaw

/-!
# The life of a resource in the timeline

Every accepted complete snapshot adds to the ledger exactly the change that a key makes
between the live rows before and after it, and nothing else adds an inventory fact. So the
facts of a key follow its life, but for what partial snapshots do to the rows: they write
rows and delete the missing ones of their scopes without a fact, so that a key may appear
and vanish silently (`partial_snapshot_hides_add`).
-/

namespace Opsia.Inventory

variable {κ χ : Type} {encoding : FactEncoding κ χ}

/-! ## Lives -/

/-- Facts that form `add, update*, delete` repeated; the last life may go on. -/
inductive LifeForm : List InventoryTimelineChange → Prop where
  | nil : LifeForm []
  | goesOn (updates : ℕ) : LifeForm (.add :: List.replicate updates .update)
  | life (updates : ℕ) {rest : List InventoryTimelineChange} (hrest : LifeForm rest) :
      LifeForm (.add :: List.replicate updates .update ++ .delete :: rest)

/-- What happens to a key in one call: a fact of the ledger, or what a partial snapshot
does without one. -/
inductive LifeMark : Type where
  | fact (change : InventoryTimelineChange)
  | appears
  | vanishes
  deriving DecidableEq, Repr

/-- The fact of a mark. -/
def LifeMark.fact? : LifeMark → Option InventoryTimelineChange
  | .fact change => some change
  | .appears | .vanishes => none

/-- Whether a key is live after its marks; `none` when they do not follow one another. -/
def follows : Bool → List LifeMark → Option Bool
  | live, [] => some live
  | false, .fact .add :: marks | false, .appears :: marks => follows true marks
  | true, .fact .update :: marks => follows true marks
  | true, .fact .delete :: marks | true, .vanishes :: marks => follows false marks
  | false, .fact .update :: _ | false, .fact .delete :: _ | false, .vanishes :: _ => none
  | true, .fact .add :: _ | true, .appears :: _ => none

theorem follows_append (live : Bool) (marks later : List LifeMark) :
    follows live (marks ++ later) = (follows live marks).bind fun live => follows live later := by
  induction marks generalizing live with
  | nil => cases live <;> rfl
  | cons mark marks ih =>
    cases live <;> rcases mark with (_ | _ | _) | _ | _ <;> simp [follows, ih]

theorem lifeForm_of_follows {facts : List InventoryTimelineChange} :
    (∀ live, follows false (facts.map .fact) = some live → LifeForm facts) ∧
    ∀ live, follows true (facts.map .fact) = some live →
      (∃ updates, facts = List.replicate updates .update) ∨
      ∃ updates rest, LifeForm rest ∧ facts = List.replicate updates .update ++ .delete :: rest := by
  induction facts with
  | nil => exact ⟨fun _ _ => .nil, fun _ _ => Or.inl ⟨0, rfl⟩⟩
  | cons change facts ih =>
    refine ⟨fun live h => ?_, fun live h => ?_⟩
    · cases change with
      | add =>
        rcases ih.2 live h with ⟨updates, rfl⟩ | ⟨updates, rest, hrest, rfl⟩
        · exact .goesOn updates
        · exact .life updates hrest
      | update => cases h
      | delete => cases h
    · cases change with
      | add => cases h
      | update =>
        rcases ih.2 live h with ⟨updates, rfl⟩ | ⟨updates, rest, hrest, rfl⟩
        · exact Or.inl ⟨updates + 1, rfl⟩
        · exact Or.inr ⟨updates + 1, rest, hrest, rfl⟩
      | delete => exact Or.inr ⟨0, facts, ih.1 live h, rfl⟩

/-! ## The facts of a key -/

variable [DecidableEq κ]

/-- The facts of a key in the ledger, in order. -/
def lifeOf (ledger : Timeline.TimelineLedger (TimelineFact κ)) (key : κ) :
    List InventoryTimelineChange :=
  ledger.rows.filterMap fun row => lifeAt key row.event

theorem lifeOf_eq (ledger : Timeline.TimelineLedger (TimelineFact κ)) (key : κ) :
    lifeOf ledger key =
      (ledger.rows.map Timeline.TimelineLedgerEvent.event).filterMap (lifeAt key) := by
  rw [lifeOf, List.filterMap_map]
  rfl

variable [DecidableEq χ] {s : IngestState κ χ} {call : IngestCall}

/-- **The ledger takes every inventory event of a snapshot.** -/
theorem lifeOf_append (hlaw : IngestLaw encoding s) {events : List (FactEvent κ)}
    (h : snapshotEvents encoding s call = some events) (key : κ) :
    lifeOf (s.ledger.appendTimelineEvents call.workspaceId events) key =
      lifeOf s.ledger key ++ events.filterMap (lifeAt key) := by
  rw [lifeOf_eq, Timeline.TimelineLedger.events_append, List.filterMap_append, ← lifeOf_eq,
    Timeline.TimelineLedger.freshEvents_eq, List.filterMap_filter]
  have hfirsts : (FirstWins.firsts Timeline.TimelineEvent.sourceKey events).filterMap
      (lifeAt key) = events.filterMap (lifeAt key) :=
    FirstWins.filterMap_firsts (pairwise_snapshotEvents hlaw.inventory h key)
  rw [← hfirsts]
  refine congrArg _ (List.filterMap_congr fun event hevent => ?_)
  have hkeyed := (snapshotEvents_keyed h (FirstWins.mem_of_mem_firstsAfter hevent).1).2
  split
  · rfl
  · rename_i hthere
    by_contra hlife
    -- a fact of the ledger with the same key would be of an earlier revision
    obtain ⟨fact, hfact, -⟩ := inventory_of_lifeAt (Ne.symm hlife)
    simp only [Bool.not_eq_true', Bool.not_eq_false, List.any_eq_true, Bool.and_eq_true,
      decide_eq_true_eq] at hthere
    obtain ⟨row, hrow, -, hkey⟩ := hthere
    rcases (hlaw.keyed row hrow).source hkeyed hkey with ⟨_, _, -, hfact', -⟩ | ⟨_, _, n, -, -, hle, heq⟩
    · rw [hfact] at hfact'
      cases hfact'
    · omega

/-! ## What one call tells -/

variable (encoding) in
/-- What a call tells the timeline about a key. -/
structure Tells (key : κ) (e : Runs.Entry (IngestState κ χ) IngestCall) : Prop where
  /-- an accepted complete snapshot leaves one fact of the change it makes, or none -/
  complete : accepts encoding e.pre e.action = true → e.action.resourcesComplete = true →
    lifeOf e.post.ledger key = lifeOf e.pre.ledger key ++
      (changeOf? (liveResource e.pre.tables e.action.workspaceId e.action.clusterId key)
        (liveResource e.post.tables e.action.workspaceId e.action.clusterId key)).toList
  /-- any other call leaves no fact -/
  silent : (accepts encoding e.pre e.action = true → e.action.resourcesComplete = false) →
    lifeOf e.post.ledger key = lifeOf e.pre.ledger key
  /-- a call that is not stale is rolled back only when an event breaks its contract -/
  refused : accepts encoding e.pre e.action = false →
    isStale e.pre.tables e.action.toSaveCall = false → derivedEvents encoding e.pre e.action = none

theorem tells_ingest (hlaw : IngestLaw encoding s) (call : IngestCall) (key : κ) :
    Tells encoding key ⟨s, call, ingest encoding s call⟩ := by
  rcases ingest_cases encoding s call with
    ⟨haccepts, heq⟩ | ⟨haccepts, hstale, heq⟩ | ⟨haccepts, hstale, events, hevents, heq⟩
  · refine ⟨fun h => ?_, fun _ => ?_, fun _ hstale => ?_⟩
    · exact absurd (haccepts.symm.trans h) Bool.false_ne_true
    · rw [heq]
    · by_contra hderived
      obtain ⟨derived, hderived⟩ := Option.ne_none_iff_exists'.mp hderived
      obtain ⟨events, hevents⟩ :=
        Option.isSome_iff_exists.mp (correlates hlaw.inventory hlaw.positive hderived)
      rw [accepts, writeInventorySnapshot] at haccepts
      simp [hstale, hevents, saveInventorySnapshotMutation] at haccepts
  · refine ⟨fun h => ?_, fun _ => ?_, fun _ h => ?_⟩
    · exact absurd (haccepts.symm.trans h) Bool.false_ne_true
    · rw [heq]
    · exact absurd (h.symm.trans hstale) Bool.false_ne_true
  · obtain ⟨derived, hderived, hcorrelated⟩ := snapshotEvents_spec hevents
    have hnext := (accepted_step encoding hstale).resources
    have hlife := lifeAt_derivedEvents hlaw.inventory.rows hnext hderived key
    rw [← lifeAt_snapshotEvents hcorrelated key] at hlife
    refine ⟨fun _ hcomplete => ?_, fun h => ?_, fun h => ?_⟩
    · change call.resourcesComplete = true at hcomplete
      rw [heq]
      dsimp only
      rw [lifeOf_append hlaw hevents, hlife, if_pos hcomplete]
    · rw [heq]
      dsimp only
      rw [lifeOf_append hlaw hevents, hlife, h haccepts, if_neg Bool.false_ne_true,
        List.append_nil]
    · exact absurd (h.symm.trans haccepts) Bool.false_ne_true

/-! ## The story of a key -/

/-- The key has a live row that enters the timeline. -/
def live (tables : InventoryTables κ χ) (key : κ) : Bool :=
  (tables.resources.find? key).any fun row =>
    row.deletedAt = none && isTimelineInventoryResource row

variable (encoding) in
/-- What happens to a key in one call. -/
def marks (key : κ) (e : Runs.Entry (IngestState κ χ) IngestCall) : List LifeMark :=
  let before := liveResource e.pre.tables e.action.workspaceId e.action.clusterId key
  let after := liveResource e.post.tables e.action.workspaceId e.action.clusterId key
  if !accepts encoding e.pre e.action then []
  else if e.action.resourcesComplete then (changeOf? before after).toList.map .fact
  else
    match before, after with
    | none, some _ => [.appears]
    | some _, none => [.vanishes]
    | none, none | some _, some _ => []

variable (encoding) in
/-- What happens to a key in a run. -/
def story (calls : List IngestCall) (key : κ) : List LifeMark :=
  (Runs.trace (ingest encoding) IngestState.empty calls).flatMap (marks encoding key)

/-- The rows of a key are in the cluster. -/
def RowIn (tables : InventoryTables κ χ) (workspaceId clusterId : String) (key : κ) : Prop :=
  ∀ row, tables.resources.find? key = some row →
    row.workspaceId = workspaceId ∧ row.clusterId = clusterId

omit [DecidableEq χ] in
theorem live_of_rowIn {tables : InventoryTables κ χ} {workspaceId clusterId : String} {key : κ}
    (h : RowIn tables workspaceId clusterId key) :
    live tables key = (liveResource tables workspaceId clusterId key).isSome := by
  rw [live, liveResource]
  rcases hf : tables.resources.find? key with _ | row
  · rfl
  · obtain ⟨hworkspace, hcluster⟩ := h row hf
    rw [Option.any_some, Option.filter_some, ResourceRecord.liveIn, hworkspace, hcluster]
    simp only [decide_true, Bool.true_and]
    split <;> simp_all

omit [DecidableEq χ] in
/-- A snapshot is about keys of its cluster, and leaves the row of any other key alone. -/
theorem rowIn_or_same (hlaw : RowsLaw encoding.toEncoding s.tables) {next : InventoryTables κ χ}
    (hnext : next.resources = writtenResources encoding.toEncoding s.tables call.toSaveCall)
    (key : κ) :
    (RowIn s.tables call.workspaceId call.clusterId key ∧
      RowIn next call.workspaceId call.clusterId key) ∨
    next.resources.find? key = s.tables.resources.find? key ∧
      liveResource s.tables call.workspaceId call.clusterId key = none := by
  have hfind : (writtenResources encoding.toEncoding s.tables call.toSaveCall).find? key = _ :=
    find?_writtenResources key
  rw [← hnext, find?_upsertedResources hlaw] at hfind
  rcases hp : (preservedRows encoding.toEncoding s.tables call.toSaveCall).find? key with _ | kept
  · rw [hp, Option.none_or] at hfind
    rcases ht : s.tables.resources.find? key with _ | old
    · rw [ht] at hfind
      exact Or.inr ⟨hfind, by rw [liveResource, ht]; rfl⟩
    · rw [ht, Option.map_some] at hfind
      have hmissing : ¬ Contains encoding.toEncoding s.tables call.toSaveCall
          old.inventoryKey := by
        rintro ⟨kept, hkept, hsame⟩
        exact Table.find?_eq_none.mp hp kept hkept (hsame.trans (Table.key_of_find? ht))
      rw [holds_deletePredicate hlaw (Table.mem_of_find? ht) hmissing] at hfind
      by_cases hin : old.workspaceId = call.workspaceId ∧ old.clusterId = call.clusterId
      · refine Or.inl ⟨fun row hrow => ?_, fun row hrow => ?_⟩
        · rw [ht] at hrow
          exact Option.some.inj hrow ▸ hin
        · rw [hfind] at hrow
          rw [← Option.some.inj hrow]
          split
          · exact hin
          · exact hin
      · have hnot : old.liveIn call.workspaceId call.clusterId = false := by
          rw [Bool.eq_false_iff]
          intro hlive
          obtain ⟨hworkspace, hcluster, -⟩ := ResourceRecord.liveIn_iff.mp hlive
          exact hin ⟨hworkspace, hcluster⟩
        refine Or.inr ⟨?_, ?_⟩
        · rw [hfind, deletable, hnot]
          rfl
        · rw [liveResource, ht, Option.filter_some, hnot]
          rfl
  · -- the row of the snapshot, and any row of its identity
    have hobs := preserved_observed hlaw (Table.mem_of_find? hp)
    have hkey := Table.key_of_find? hp
    rw [hp, Option.some_or, Option.map_some,
      not_holds_deletePredicate ⟨kept, Table.mem_of_find? hp, rfl⟩,
      if_neg Bool.false_ne_true] at hfind
    refine Or.inl ⟨fun row hrow => ?_, fun row hrow => ?_⟩
    · have hidentity := identity_eq_of_key (hlaw.wellKeyed row (Table.mem_of_find? hrow))
        hobs.wellKeyed ((Table.key_of_find? hrow).trans hkey.symm)
      exact ⟨(congrArg ResourceIdentity.workspaceId hidentity).trans hobs.workspaceId,
        (congrArg ResourceIdentity.clusterId hidentity).trans hobs.clusterId⟩
    · rw [hfind] at hrow
      rw [← Option.some.inj hrow]
      exact ⟨hobs.workspaceId, hobs.clusterId⟩

omit [DecidableEq κ] [DecidableEq χ] in
theorem follows_changeOf? (before after : Option (ResourceRecord κ)) :
    follows before.isSome ((changeOf? before after).toList.map .fact) = some after.isSome := by
  rcases before with _ | before <;> rcases after with _ | after
  · rfl
  · rfl
  · rfl
  · rw [changeOf?]
    split <;> rfl

/-- **The marks of a call lead from the liveness of a key before it to that after it.** -/
theorem follows_marks (hlaw : IngestLaw encoding s) (call : IngestCall) (key : κ) :
    follows (live s.tables key) (marks encoding key ⟨s, call, ingest encoding s call⟩) =
      some (live (ingest encoding s call).tables key) := by
  rcases ingest_cases encoding s call with
    ⟨haccepts, heq⟩ | ⟨haccepts, hstale, heq⟩ | ⟨haccepts, hstale, events, -, heq⟩
  · rw [marks, haccepts, heq]
    cases live s.tables key <;> rfl
  · have hsame : live (ingest encoding s call).tables key = live s.tables key := by
      rw [heq, live, live, (ignored_step encoding hstale).resources]
    rw [marks, haccepts, hsame]
    cases live s.tables key <;> rfl
  · have hnext : (ingest encoding s call).tables.resources =
        writtenResources encoding.toEncoding s.tables call.toSaveCall := by
      rw [heq]
      exact (accepted_step encoding hstale).resources
    rw [marks, haccepts, Bool.not_true, if_neg Bool.false_ne_true]
    dsimp only
    rcases rowIn_or_same hlaw.inventory.rows hnext key with ⟨hbefore, hafter⟩ | ⟨hsame, hnone⟩
    · rw [live_of_rowIn hbefore, live_of_rowIn hafter]
      split
      · exact follows_changeOf? _ _
      · rcases liveResource s.tables call.workspaceId call.clusterId key with _ | before <;>
          rcases liveResource (ingest encoding s call).tables call.workspaceId call.clusterId key
            with _ | after <;> rfl
    · have hnone' : liveResource (ingest encoding s call).tables call.workspaceId call.clusterId
          key = none := by
        rw [liveResource, hsame]
        exact hnone
      rw [hnone, hnone', live, live, hsame]
      split <;> cases (s.tables.resources.find? key).any _ <;> rfl

theorem facts_marks (hlaw : IngestLaw encoding s) (call : IngestCall) (key : κ) :
    lifeOf (ingest encoding s call).ledger key = lifeOf s.ledger key ++
      (marks encoding key ⟨s, call, ingest encoding s call⟩).filterMap LifeMark.fact? := by
  have htells := tells_ingest hlaw call key
  rw [marks]
  dsimp only
  rcases haccepts : accepts encoding s call with _ | _
  · refine (htells.silent fun h => ?_).trans (List.append_nil _).symm
    exact absurd (haccepts.symm.trans h) Bool.false_ne_true
  rw [Bool.not_true, if_neg Bool.false_ne_true]
  rcases hcomplete : call.resourcesComplete with _ | _
  · have hsilent := htells.silent fun _ => hcomplete
    rw [if_neg Bool.false_ne_true]
    refine hsilent.trans ?_
    split <;> simp [LifeMark.fact?]
  · rw [if_pos rfl, List.filterMap_map]
    refine (htells.complete haccepts hcomplete).trans (congrArg _ ?_)
    exact (List.filterMap_some).symm

theorem map_fact_filterMap {marks : List LifeMark} (h : ∀ mark ∈ marks, mark.fact?.isSome = true) :
    (marks.filterMap LifeMark.fact?).map .fact = marks := by
  induction marks with
  | nil => rfl
  | cons mark marks ih =>
    have hmark := h mark List.mem_cons_self
    have hrest := ih fun mark hmem => h mark (List.mem_cons_of_mem _ hmem)
    cases mark with
    | fact change => rw [List.filterMap_cons_some (f := LifeMark.fact?) rfl, List.map_cons, hrest]
    | appears => cases hmark
    | vanishes => cases hmark

/-! ## Runs -/

theorem run_story (encoding : FactEncoding κ χ) (calls : List IngestCall) (key : κ) :
    follows false (story encoding calls key) =
      some (live (Runs.run (ingest encoding) IngestState.empty calls).tables key) ∧
    (story encoding calls key).filterMap LifeMark.fact? =
      lifeOf (Runs.run (ingest encoding) IngestState.empty calls).ledger key := by
  refine (@Runs.run_history_invariant _ _ (ingest encoding)
    (fun l s => IngestLaw encoding s ∧
      follows false (l.flatMap (marks encoding key)) = some (live s.tables key) ∧
      (l.flatMap (marks encoding key)).filterMap LifeMark.fact? = lifeOf s.ledger key)
    ?_ IngestState.empty ⟨IngestLaw.empty, rfl, rfl⟩ calls).2
  rintro l s call ⟨hlaw, hfollows, hfacts⟩
  refine ⟨hlaw.ingest call, ?_, ?_⟩
  · rw [List.flatMap_append, follows_append, hfollows, Option.bind_some, List.flatMap_singleton]
    exact follows_marks hlaw call key
  · rw [List.flatMap_append, List.filterMap_append, hfacts, List.flatMap_singleton]
    exact (facts_marks hlaw call key).symm

/-- **The timeline tells the life of a resource, but for what partial snapshots do
silently.** In every run, for every key: an accepted complete snapshot leaves exactly one
fact of the change that it makes of a key that enters the timeline, and none of any other
key, and no other call leaves a fact; the facts, with the silent appearances and deletions
of partial snapshots in their places, follow one another up to the liveness of the key; and
where there are none of these, the facts form `add, update*, delete` repeated. -/
theorem run_life_story (encoding : FactEncoding κ χ) (calls : List IngestCall) (key : κ) :
    let s := Runs.run (ingest encoding) IngestState.empty calls
    (∀ e ∈ Runs.trace (ingest encoding) IngestState.empty calls, Tells encoding key e) ∧
    (follows false (story encoding calls key) = some (live s.tables key) ∧
      (story encoding calls key).filterMap LifeMark.fact? = lifeOf s.ledger key) ∧
    ((∀ mark ∈ story encoding calls key, mark.fact?.isSome = true) →
      LifeForm (lifeOf s.ledger key)) ∧
    ∀ workspaceId, (s.ledger.rows.filter fun row => row.event.workspaceId = workspaceId).Pairwise
      fun row later => row.sequence < later.sequence := by
  intro s
  have hingest : ∀ s call, IngestLaw encoding s → IngestLaw encoding (ingest encoding s call) :=
    fun _ call hlaw => hlaw.ingest call
  have hstory := run_story encoding calls key
  refine ⟨fun e he => ?_, hstory, fun hfacts => ?_, ?_⟩
  · obtain ⟨hlaw, hpost⟩ := Runs.trace_invariant hingest IngestLaw.empty e he
    have htells := tells_ingest hlaw e.action key
    rw [← hpost] at htells
    exact htells
  · -- a story without silent marks is its facts
    have hmarks := map_fact_filterMap hfacts
    rw [hstory.2] at hmarks
    rw [← hmarks] at hstory
    exact lifeForm_of_follows.1 _ hstory.1
  · exact (Runs.run_invariant hingest IngestLaw.empty calls).sequenced.grows

/-! ## What a partial snapshot hides -/

/-- A pod of a payload. -/
def podResource (status : String) : SnapshotResource where
  resourceType := "pod"
  apiVersion := "v1"
  kind := "Pod"
  namespaceName := some "shop"
  name := "api"
  uid := some "u1"
  resourceVersion := none
  status := status
  health := "healthy"
  labels := []
  summary := .null
  annotations := []
  raw := .null

/-- The key of the pod. -/
def podKey : ResourceIdentity := ⟨"w", "c", "pod", "v1", "shop", "Pod", "api"⟩

/-- A snapshot with the pod, complete or not. -/
def podSnapshot (now : ℤ) (complete : Bool) (status : String) : IngestCall where
  workspaceId := "w"
  clusterId := "c"
  payload :=
    { collectedAt := some now
      replace := true
      resources := [podResource status]
      summary :=
        { liveInventory := true
          resourcesComplete := complete
          labelsComplete := true
          truncated := false
          collectionCoverage := [] }
      health := .null
      usage := .null }
  now := now
  lateLock := true
  bindings := ⟨[], []⟩
  status := "accepted"
  eventSummary := .obj []

/-- A partial snapshot writes the pod without a fact, so that its first fact is an
update. -/
theorem partial_snapshot_hides_add :
    let calls := [podSnapshot 0 false "Pending", podSnapshot 1 true "Running"]
    let s := Runs.run (ingest FactEncoding.plain) IngestState.empty calls
    lifeOf s.ledger podKey = [.update] ∧ ¬ LifeForm (lifeOf s.ledger podKey) := by
  intro calls s
  have hlife : lifeOf s.ledger podKey = [.update] := by decide +kernel
  refine ⟨hlife, fun hform => ?_⟩
  rw [hlife] at hform
  cases hform

end Opsia.Inventory
