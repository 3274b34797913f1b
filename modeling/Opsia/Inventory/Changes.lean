import Opsia.Inventory.MirrorLaw
import Opsia.Inventory.TimelineFacts

/-!
# What a snapshot tells the timeline about a key

The events of a snapshot, read at one inventory key: what the cut before it and the cut of
the snapshot say about the key (`changes_of_key`), that the events keep it
(`lifeAt_derivedEvents`), and that every change of a complete snapshot has a version, so
that correlating never raises (`correlates`). Two events of a snapshot never share a
version, and so never a source key (`versionId_inj`).
-/

namespace Opsia.Inventory

variable {κ χ : Type} {encoding : FactEncoding κ χ}

/-! ## Lists of optional results -/

theorem filterMap_of_mapM {α β γ : Type} {f : α → Option β} {g : β → Option γ} {h : α → Option γ}
    {l : List α} {results : List β} (hresults : l.mapM f = some results)
    (hread : ∀ x ∈ l, ∀ y, f x = some y → g y = h x) : results.filterMap g = l.filterMap h := by
  induction l generalizing results with
  | nil =>
    cases hresults
    rfl
  | cons x l ih =>
    simp only [List.mapM_cons, Option.bind_eq_bind, Option.pure_def, Option.bind_eq_some_iff,
      Option.some.injEq] at hresults
    obtain ⟨y, hy, rest, hrest, rfl⟩ := hresults
    have htail := ih hrest fun x hx => hread x (List.mem_cons_of_mem _ hx)
    rw [List.filterMap_cons, List.filterMap_cons, hread x List.mem_cons_self y hy, htail]

theorem mem_of_mapM {α β : Type} {f : α → Option β} {l : List α} {results : List β}
    (hresults : l.mapM f = some results) {y : β} (hy : y ∈ results) : ∃ x ∈ l, f x = some y := by
  induction l generalizing results with
  | nil =>
    cases hresults
    cases hy
  | cons x l ih =>
    simp only [List.mapM_cons, Option.bind_eq_bind, Option.pure_def, Option.bind_eq_some_iff,
      Option.some.injEq] at hresults
    obtain ⟨first, hfirst, rest, hrest, rfl⟩ := hresults
    rcases List.mem_cons.mp hy with rfl | hy
    · exact ⟨x, List.mem_cons_self, hfirst⟩
    · obtain ⟨x', hx', hf⟩ := ih hrest hy
      exact ⟨x', List.mem_cons_of_mem _ hx', hf⟩

theorem exists_of_mapM {α β : Type} {f : α → Option β} {l : List α} {results : List β}
    (hresults : l.mapM f = some results) {x : α} (hx : x ∈ l) : ∃ y ∈ results, f x = some y := by
  induction l generalizing results with
  | nil => cases hx
  | cons first l ih =>
    simp only [List.mapM_cons, Option.bind_eq_bind, Option.pure_def, Option.bind_eq_some_iff,
      Option.some.injEq] at hresults
    obtain ⟨y, hy, rest, hrest, rfl⟩ := hresults
    rcases List.mem_cons.mp hx with rfl | hx
    · exact ⟨y, List.mem_cons_self, hy⟩
    · obtain ⟨y', hy', hf⟩ := ih hrest hx
      exact ⟨y', List.mem_cons_of_mem _ hy', hf⟩

/-- There are results when every argument has one. -/
theorem isSome_mapM {α β : Type} {f : α → Option β} {l : List α}
    (h : ∀ x ∈ l, (f x).isSome = true) : (l.mapM f).isSome = true := by
  induction l with
  | nil => rfl
  | cons x l ih =>
    obtain ⟨y, hy⟩ := Option.isSome_iff_exists.mp (h x List.mem_cons_self)
    obtain ⟨rest, hrest⟩ :=
      Option.isSome_iff_exists.mp (ih fun x hx => h x (List.mem_cons_of_mem _ hx))
    simp [List.mapM_cons, hy, hrest]

theorem pairwise_of_mapM {α β : Type} {f : α → Option β} {R : α → α → Prop} {S : β → β → Prop}
    {l : List α} {results : List β} (hresults : l.mapM f = some results) (hl : l.Pairwise R)
    (hRS : ∀ x x' y y', R x x' → f x = some y → f x' = some y' → S y y') :
    results.Pairwise S := by
  induction l generalizing results with
  | nil =>
    cases hresults
    exact List.Pairwise.nil
  | cons x l ih =>
    simp only [List.mapM_cons, Option.bind_eq_bind, Option.pure_def, Option.bind_eq_some_iff,
      Option.some.injEq] at hresults
    obtain ⟨first, hfirst, rest, hrest, rfl⟩ := hresults
    obtain ⟨hx, hl⟩ := List.pairwise_cons.mp hl
    refine List.pairwise_cons.mpr ⟨fun y hy => ?_, ih hrest hl⟩
    obtain ⟨x', hx', hf⟩ := mem_of_mapM hrest hy
    exact hRS x x' first y (hx x' hx') hfirst hf

/-! ## Changes at one key -/

variable (encoding) in
theorem perm_sortedByKey (rows : List (ResourceRecord κ)) :
    (sortedByKey encoding rows).Perm rows := List.perm_insertionSort _ rows

variable [DecidableEq κ]

/-- The changes of a key, in order. -/
def changesAt (key : κ) (changes : List (InventoryTimelineChange × ResourceRecord κ)) :
    List InventoryTimelineChange :=
  changes.filterMap fun entry => if entry.2.inventoryKey = key then some entry.1 else none

/-- **A key has the one change that its rows in the two cuts make**, or none. -/
theorem changes_of_key (previousRows currentRows : List (ResourceRecord κ)) (key : κ) :
    changesAt key (inventoryChanges encoding previousRows currentRows) =
      (changeOf? ((timelineRows previousRows).find? key)
        ((timelineRows currentRows).find? key)).toList := by
  have hcurrent := Table.filterMap_of_perm
    (perm_sortedByKey encoding (timelineRows currentRows).rows)
    (fun current => changeOf? ((timelineRows previousRows).find? key) (some current)) key
  have hprevious := Table.filterMap_of_perm
    (perm_sortedByKey encoding (timelineRows previousRows).rows)
    (fun _ => if ((timelineRows currentRows).find? key).isSome then none
      else some InventoryTimelineChange.delete) key
  rw [changesAt, inventoryChanges, List.filterMap_append, List.filterMap_filterMap,
    List.filterMap_filterMap]
  refine Eq.trans (congrArg₂ (· ++ ·) (Eq.trans ?_ hcurrent) (Eq.trans ?_ hprevious)) ?_
  · refine List.filterMap_congr fun current _ => ?_
    by_cases hkey : current.inventoryKey = key
    · rw [if_pos hkey, hkey]
      cases changeOf? ((timelineRows previousRows).find? key) (some current) <;> simp [hkey]
    · rw [if_neg hkey]
      cases changeOf? ((timelineRows previousRows).find? current.inventoryKey) (some current) <;>
        simp [hkey]
  · refine List.filterMap_congr fun previous _ => ?_
    by_cases hkey : previous.inventoryKey = key
    · rw [if_pos hkey, hkey]
      cases ((timelineRows currentRows).find? key).isSome <;> simp [hkey]
    · rw [if_neg hkey]
      cases ((timelineRows currentRows).find? previous.inventoryKey).isSome <;> simp [hkey]
  · rcases (timelineRows currentRows).find? key with _ | current
    · rcases (timelineRows previousRows).find? key with _ | previous <;> rfl
    · rcases (timelineRows previousRows).find? key with _ | previous
      · rfl
      · simp

/-! ## The row of a key -/

/-- The live row of a key in a cluster, when it enters the timeline. -/
def liveResource (tables : InventoryTables κ χ) (workspaceId clusterId : String) (key : κ) :
    Option (ResourceRecord κ) :=
  (tables.resources.find? key).filter fun row =>
    row.liveIn workspaceId clusterId && isTimelineInventoryResource row

theorem find?_timelineRows (table : InventoryRows κ) (p : ResourceRecord κ → Bool) (key : κ) :
    (timelineRows (table.rows.filter p)).find? key =
      (table.find? key).filter fun row => p row && isTimelineInventoryResource row := by
  have hnodup : (((table.rows.filter p).filter isTimelineInventoryResource).map
      fun row => row.inventoryKey).Nodup :=
    table.nodup.sublist ((List.filter_sublist.trans List.filter_sublist).map _)
  have hfind := Table.find?_foldl_put hnodup Table.empty key
  rw [timelineRows, dedupeInventoryRows]
  refine hfind.trans ?_
  rw [List.filter_filter]
  refine (Option.or_eq_left_of_none ?_).trans ?_
  · rfl
  · rw [Table.find?_filter]
    refine congrArg (fun q => Option.filter q (table.find? key)) (funext fun row => ?_)
    rw [Bool.and_comm]

variable {tables : InventoryTables κ χ} {call : SaveCall}

theorem find?_previousCut (key : κ) :
    (timelineRows (previousRows tables call)).find? key =
      liveResource tables call.workspaceId call.clusterId key :=
  find?_timelineRows tables.resources _ key

/-- **After a complete snapshot the live row of a key is the row of the snapshot.** -/
theorem find?_currentCut (hlaw : RowsLaw encoding.toEncoding tables)
    (hcomplete : call.resourcesComplete = true) {next : InventoryTables κ χ}
    (hnext : next.resources = writtenResources encoding.toEncoding tables call) (key : κ) :
    (timelineRows (preservedRows encoding.toEncoding tables call).rows).find? key =
      liveResource next call.workspaceId call.clusterId key := by
  have hcut := find?_timelineRows (preservedRows encoding.toEncoding tables call)
    (fun _ => true) key
  rw [List.filter_true] at hcut
  rw [hcut, liveResource, hnext, find?_writtenResources, find?_upsertedResources hlaw]
  rcases hp : (preservedRows encoding.toEncoding tables call).find? key with _ | row
  · rw [Option.none_or]
    rcases ht : tables.resources.find? key with _ | old
    · rfl
    · have hkey := Table.key_of_find? ht
      have hmissing : ¬ Contains encoding.toEncoding tables call old.inventoryKey := by
        rintro ⟨kept, hkept, hsame⟩
        exact Table.find?_eq_none.mp hp kept hkept (hsame.trans hkey)
      rw [Option.map_some, holds_deletePredicate hlaw (Table.mem_of_find? ht) hmissing,
        deletable, mayDelete, hcomplete, Bool.true_or, Bool.and_true]
      rcases hlive : old.liveIn call.workspaceId call.clusterId with _ | _
      · simp [Option.filter_some, hlive]
      · -- the snapshot deletes the row
        simp [Option.filter_some, markDeleted, ResourceRecord.liveIn]
  · have hmem := Table.mem_of_find? hp
    have hobs := preserved_observed hlaw hmem
    have hlive : row.liveIn call.workspaceId call.clusterId = true :=
      ResourceRecord.liveIn_iff.mpr ⟨hobs.workspaceId, hobs.clusterId, hobs.live⟩
    rw [Option.some_or, Option.map_some, not_holds_deletePredicate ⟨row, hmem, rfl⟩,
      if_neg Bool.false_ne_true, Option.filter_some, Option.filter_some, hlive]

/-! ## Events at one key -/

/-- What an event says about a key. -/
def lifeAt (key : κ) (event : FactEvent κ) : Option InventoryTimelineChange :=
  match event.fact with
  | .inventory fact => if fact.nativeId = key then some fact.eventType else none
  | .kubernetesEvent _ => none

variable {event : FactEvent κ} {row : ResourceRecord κ}

theorem lifeAt_of_inventory {fact : InventoryFact κ} (hfact : event.fact = .inventory fact)
    (key : κ) :
    lifeAt key event = if fact.nativeId = key then some fact.eventType else none := by
  rw [lifeAt, hfact]

theorem lifeAt_of_kubernetesEvent {fact : KubernetesEventFact}
    (hfact : event.fact = .kubernetesEvent fact) (key : κ) : lifeAt key event = none := by
  rw [lifeAt, hfact]

omit [DecidableEq κ] in
theorem inventoryChangeTimelineEvent_spec {workspaceId clusterId : String} {observedAt : ℤ}
    {change : InventoryTimelineChange}
    (h : inventoryChangeTimelineEvent encoding workspaceId clusterId observedAt change row =
      some event) :
    event.workspaceId = workspaceId ∧
      event.sourceKey = inventoryTimelineSourceKey encoding change row ∧
      ∃ fact, event.fact = .inventory fact ∧ fact.nativeId = row.inventoryKey ∧
        fact.eventType = change := by
  simp only [inventoryChangeTimelineEvent, Option.ite_none_right_eq_some] at h
  obtain ⟨-, h⟩ := h
  obtain rfl := Option.some.inj h
  exact ⟨rfl, rfl, _, rfl, rfl, rfl⟩

theorem lifeAt_changeEvent {workspaceId clusterId : String} {observedAt : ℤ}
    {change : InventoryTimelineChange}
    (h : inventoryChangeTimelineEvent encoding workspaceId clusterId observedAt change row =
      some event) (key : κ) :
    lifeAt key event = if row.inventoryKey = key then some change else none := by
  obtain ⟨-, -, fact, hfact, hnative, hchange⟩ := inventoryChangeTimelineEvent_spec h
  rw [lifeAt_of_inventory hfact, hnative, hchange]

omit [DecidableEq κ] in
theorem correlateTimelineEvent_spec {snapshotId : String} {revisionId : ℕ}
    {versionIds : κ → Option ℕ} {correlated : FactEvent κ}
    (h : correlateTimelineEvent snapshotId revisionId versionIds event = some correlated) :
    (∃ fact, event.fact = .kubernetesEvent fact ∧ correlated = event) ∨
      ∃ fact versionId after, event.fact = .inventory fact ∧
        versionIds fact.nativeId = some versionId ∧
        correlated.workspaceId = event.workspaceId ∧
        correlated.sourceKey =
          correlatedSourceKey event.sourceKey snapshotId revisionId versionId ∧
        correlated.fact = .inventory after ∧ after.nativeId = fact.nativeId ∧
        after.eventType = fact.eventType := by
  rw [correlateTimelineEvent] at h
  rcases hfact : event.fact with fact | fact
  · rw [hfact] at h
    dsimp only at h
    split at h
    · cases h
    · rename_i versionId hversion
      split at h
      · cases h
      · obtain rfl := Option.some.inj h
        exact Or.inr ⟨fact, versionId, _, rfl, hversion, rfl, rfl, rfl, rfl, rfl⟩
  · rw [hfact] at h
    exact Or.inl ⟨fact, rfl, (Option.some.inj h).symm⟩

theorem lifeAt_correlated {snapshotId : String} {revisionId : ℕ} {versionIds : κ → Option ℕ}
    {correlated : FactEvent κ}
    (h : correlateTimelineEvent snapshotId revisionId versionIds event = some correlated)
    (key : κ) : lifeAt key correlated = lifeAt key event := by
  rcases correlateTimelineEvent_spec h with
    ⟨-, -, rfl⟩ | ⟨fact, versionId, after, hfact, -, -, -, hafter, hnative, htype⟩
  · rfl
  · rw [lifeAt_of_inventory hfact, lifeAt_of_inventory hafter, hnative, htype]

theorem inventory_of_lifeAt {key : κ} (h : lifeAt key event ≠ none) :
    ∃ fact, event.fact = .inventory fact ∧ fact.nativeId = key := by
  rcases hfact : event.fact with fact | fact
  · rw [lifeAt_of_inventory hfact] at h
    refine ⟨fact, rfl, ?_⟩
    by_contra hne
    exact h (if_neg hne)
  · exact absurd (lifeAt_of_kubernetesEvent hfact key) h

/-- Two events are about different keys. -/
def Apart (a b : FactEvent κ) : Prop := ∀ key, lifeAt key a ≠ none → lifeAt key b = none

theorem pairwise_inventoryChanges (previousRows currentRows : List (ResourceRecord κ)) :
    (inventoryChanges encoding previousRows currentRows).Pairwise fun a b =>
      a.2.inventoryKey ≠ b.2.inventoryKey := by
  have hcount : ∀ (l : List (InventoryTimelineChange × ResourceRecord κ)) (key : κ),
      (l.map fun entry => entry.2.inventoryKey).count key = (changesAt key l).length := by
    intro l key
    induction l with
    | nil => rfl
    | cons entry l ih =>
      rw [List.map_cons, changesAt, List.filterMap_cons]
      by_cases hkey : entry.2.inventoryKey = key
      · rw [if_pos hkey, hkey, List.count_cons_self, ih]
        rfl
      · rw [if_neg hkey, List.count_cons_of_ne hkey, ih]
        rfl
  have hnodup : ((inventoryChanges encoding previousRows currentRows).map fun entry =>
      entry.2.inventoryKey).Nodup := by
    refine List.nodup_iff_count_le_one.mpr fun key => ?_
    rw [hcount, changes_of_key]
    cases changeOf? ((timelineRows previousRows).find? key) ((timelineRows currentRows).find? key)
    · exact Nat.zero_le _
    · exact le_refl _
  exact List.pairwise_map.mp hnodup

/-! ## The events of a snapshot -/

variable {s : IngestState κ χ} {events : List (FactEvent κ)}

variable (encoding) in
/-- The inventory events of a snapshot. -/
def inventoryPart (s : IngestState κ χ) (call : IngestCall) : Option (List (FactEvent κ)) :=
  inventoryEventsOf encoding call.workspaceId call.clusterId call.observedAt
    (previousRows s.tables call.toSaveCall)
    (preservedRows encoding.toEncoding s.tables call.toSaveCall).rows call.resourcesComplete

variable {call : IngestCall}

theorem derivedEvents_spec (h : derivedEvents encoding s call = some events) :
    ∃ inventoryEvents eventFacts, inventoryPart encoding s call = some inventoryEvents ∧
      kubernetesEventFactTimelineEvents encoding.literals call.clusterId call.observedAt
        (previousEventBatch encoding s call) (call.eventBatch encoding) = some eventFacts ∧
      events = inventoryEvents ++
        eventFacts.map fun fact => ⟨call.workspaceId, fact.eventId, .kubernetesEvent fact⟩ := by
  simp only [derivedEvents, inventoryTimelineEvents, Option.bind_eq_bind, Option.pure_def,
    Option.bind_eq_some_iff, Option.some.injEq] at h
  obtain ⟨inventoryEvents, hinventory, eventFacts, hfacts, rfl⟩ := h
  exact ⟨inventoryEvents, eventFacts, hinventory, hfacts, rfl⟩

theorem mem_inventoryPart {inventoryEvents : List (FactEvent κ)}
    (h : inventoryPart encoding s call = some inventoryEvents) (hevent : event ∈ inventoryEvents) :
    call.resourcesComplete = true ∧
      ∃ entry ∈ inventoryChanges encoding (previousRows s.tables call.toSaveCall)
        (preservedRows encoding.toEncoding s.tables call.toSaveCall).rows,
        inventoryChangeTimelineEvent encoding call.workspaceId call.clusterId call.observedAt
          entry.1 entry.2 = some event := by
  rw [inventoryPart, inventoryEventsOf] at h
  rcases hcomplete : call.resourcesComplete with _ | _
  · rw [hcomplete, if_neg Bool.false_ne_true] at h
    cases h
    cases hevent
  · rw [hcomplete, if_pos rfl] at h
    exact ⟨rfl, mem_of_mapM h hevent⟩

theorem pairwise_inventoryPart {inventoryEvents : List (FactEvent κ)}
    (h : inventoryPart encoding s call = some inventoryEvents) :
    inventoryEvents.Pairwise Apart := by
  rw [inventoryPart, inventoryEventsOf] at h
  split at h
  · refine pairwise_of_mapM h (pairwise_inventoryChanges _ _) ?_
    intro a b event later hne hevent hlater key hkey
    rw [lifeAt_changeEvent hevent] at hkey
    rw [lifeAt_changeEvent hlater, if_neg]
    intro hb
    refine hkey (if_neg fun ha => hne ?_)
    exact ha.trans hb.symm
  · cases h
    exact List.Pairwise.nil

/-- **The events of a complete snapshot say of a key what its rows before and after say**,
and those of a partial one say nothing. -/
theorem lifeAt_derivedEvents (hlaw : RowsLaw encoding.toEncoding s.tables)
    {next : InventoryTables κ χ}
    (hnext : next.resources = writtenResources encoding.toEncoding s.tables call.toSaveCall)
    (h : derivedEvents encoding s call = some events) (key : κ) :
    events.filterMap (lifeAt key) =
      if call.resourcesComplete then
        (changeOf? (liveResource s.tables call.workspaceId call.clusterId key)
          (liveResource next call.workspaceId call.clusterId key)).toList
      else [] := by
  obtain ⟨inventoryEvents, eventFacts, hinventory, -, rfl⟩ := derivedEvents_spec h
  have hfacts : (eventFacts.map fun fact =>
      (⟨call.workspaceId, fact.eventId, .kubernetesEvent fact⟩ : FactEvent κ)).filterMap
        (lifeAt key) = [] := by
    rw [List.filterMap_map]
    exact List.filterMap_eq_nil_iff.mpr fun _ _ => rfl
  rw [List.filterMap_append, hfacts, List.append_nil]
  rw [inventoryPart, inventoryEventsOf] at hinventory
  rcases hcomplete : call.resourcesComplete with _ | _
  · rw [hcomplete, if_neg Bool.false_ne_true] at hinventory
    cases hinventory
    rfl
  · rw [hcomplete, if_pos rfl] at hinventory
    have hread := filterMap_of_mapM hinventory (g := lifeAt key)
      (h := fun entry => if entry.2.inventoryKey = key then some entry.1 else none)
      fun entry _ event hevent => lifeAt_changeEvent hevent key
    rw [hread, if_pos rfl, ← find?_previousCut, ← find?_currentCut hlaw hcomplete hnext]
    exact changes_of_key _ _ key

/-! ## Versions of the keys -/

variable [DecidableEq χ] {versionCall : SaveCall}

theorem versionIds_spec (hlaw : InventoryLaw encoding.toEncoding tables) {key : κ} {versionId : ℕ}
    (h : versionIdsByInventoryKey encoding tables versionCall key = some versionId) :
    (∃ version ∈ newVersions (tables.revisionSeq + 1) tables.versionSeq
        (diffOf encoding.toEncoding tables versionCall),
      version.inventoryKey = key ∧ version.versionId = versionId) ∨
    ∃ version ∈ tables.versions, version.inventoryKey = key ∧ version.versionId = versionId := by
  simp only [versionIdsByInventoryKey, Option.map_eq_some_iff, Option.or_eq_some_iff] at h
  obtain ⟨version, hfound | ⟨-, hfound⟩, rfl⟩ := h
  · have hkey : version.inventoryKey = key := by simpa using List.find?_some hfound
    exact Or.inl ⟨version, List.mem_of_find?_eq_some hfound, hkey, rfl⟩
  · have hmem := Table.mem_of_find? hfound
    rw [rows_activeRows (hlaw.versions.ready _ _)] at hmem
    have hkey := Table.key_of_find? hfound
    exact Or.inr ⟨version, (List.mem_filter.mp hmem).1, hkey, rfl⟩

/-- **A version identifier belongs to one key.** -/
theorem versionId_inj (hlaw : InventoryLaw encoding.toEncoding tables) {key other : κ}
    {versionId : ℕ} (h : versionIdsByInventoryKey encoding tables versionCall key = some versionId)
    (h' : versionIdsByInventoryKey encoding tables versionCall other = some versionId) :
    key = other := by
  have hnew : ∀ version ∈ newVersions (tables.revisionSeq + 1) tables.versionSeq
      (diffOf encoding.toEncoding tables versionCall), tables.versionSeq < version.versionId := by
    intro version hversion
    obtain ⟨-, -, -, hlt, -⟩ := mem_stamp hversion
    exact hlt
  rcases versionIds_spec hlaw h with ⟨v, hv, rfl, hid⟩ | ⟨v, hv, rfl, hid⟩ <;>
    rcases versionIds_spec hlaw h' with ⟨w, hw, rfl, hid'⟩ | ⟨w, hw, rfl, hid'⟩
  · rw [List.inj_on_of_nodup_map (nodup_versionId_stamp _ _ _) hv hw (hid.trans hid'.symm)]
  · have hlt := hnew v hv
    have hle := hlaw.versions.id_le w hw
    omega
  · have hlt := hnew w hw
    have hle := hlaw.versions.id_le v hv
    omega
  · rw [List.inj_on_of_nodup_map hlaw.versions.ids hv hw (hid.trans hid'.symm)]

theorem isSome_versionIds_of_current (hlaw : InventoryLaw encoding.toEncoding tables)
    (hrow : row ∈ (preservedRows encoding.toEncoding tables versionCall).rows) :
    (versionIdsByInventoryKey encoding tables versionCall row.inventoryKey).isSome = true := by
  have hready := hlaw.versions.ready versionCall.workspaceId versionCall.clusterId
  rw [versionIdsByInventoryKey, Option.isSome_map, Option.isSome_or, Bool.or_eq_true]
  by_cases hshown : NotShown encoding.toEncoding tables.versions
      (projectionInput encoding.toEncoding tables versionCall) row
  · -- the diff inserts a version of the row
    have hdesired := (mem_desiredRows hready).mpr
      ⟨row, (mem_currentRows hlaw.rows).mpr hrow, hshown, rfl⟩
    obtain ⟨version, hversion, heq⟩ :=
      exists_stamp (tables.revisionSeq + 1) tables.versionSeq hdesired
    refine Or.inl (List.find?_isSome.mpr ⟨version, hversion, ?_⟩)
    rw [heq]
    exact decide_eq_true rfl
  · simp only [NotShown, not_forall] at hshown
    obtain ⟨version, hversion, hactive, hkey, -⟩ := hshown
    rw [← hkey, find?_activeRows hready hversion hactive]
    exact Or.inr rfl

omit [DecidableEq χ] in
theorem exists_active_of_live (hlaw : InventoryLaw encoding.toEncoding tables)
    (hrow : row ∈ previousRows tables versionCall) :
    ((activeRows tables.versions versionCall.workspaceId versionCall.clusterId).find?
      row.inventoryKey).isSome = true := by
  obtain ⟨hmem, hlive⟩ := List.mem_filter.mp hrow
  obtain ⟨hworkspace, hcluster, hdeleted⟩ := ResourceRecord.liveIn_iff.mp hlive
  obtain ⟨version, hversion, hopen, hshows⟩ := hlaw.mirror.shown row hmem hdeleted
  have hactive : version.activeIn versionCall.workspaceId versionCall.clusterId = true :=
    InventoryResourceVersion.activeIn_iff.mpr
      ⟨hshows.workspaceId.trans hworkspace, hshows.clusterId.trans hcluster, hopen⟩
  rw [← hshows.inventoryKey, find?_activeRows (hlaw.versions.ready _ _) hversion hactive]
  rfl

theorem isSome_versionIds_of_previous (hlaw : InventoryLaw encoding.toEncoding tables)
    (hrow : row ∈ previousRows tables versionCall) :
    (versionIdsByInventoryKey encoding tables versionCall row.inventoryKey).isSome = true := by
  rw [versionIdsByInventoryKey, Option.isSome_map, Option.isSome_or, Bool.or_eq_true]
  exact Or.inr (exists_active_of_live hlaw hrow)

omit [DecidableEq χ] in
theorem mem_inventoryChanges {previousRows currentRows : List (ResourceRecord κ)}
    {entry : InventoryTimelineChange × ResourceRecord κ}
    (h : entry ∈ inventoryChanges encoding previousRows currentRows) :
    entry.2 ∈ previousRows ∨ entry.2 ∈ currentRows := by
  have hmem : ∀ {rows : List (ResourceRecord κ)} {row : ResourceRecord κ},
      row ∈ sortedByKey encoding (timelineRows rows).rows → row ∈ rows := by
    intro rows row hrow
    have hrow := (perm_sortedByKey _ _).mem_iff.mp hrow
    exact (List.mem_filter.mp (mem_of_mem_dedupe hrow)).1
  rcases List.mem_append.mp h with h | h
  · obtain ⟨current, hcurrent, hentry⟩ := List.mem_filterMap.mp h
    obtain ⟨change, -, rfl⟩ := Option.map_eq_some_iff.mp hentry
    exact Or.inr (hmem hcurrent)
  · obtain ⟨previous, hprevious, hentry⟩ := List.mem_filterMap.mp h
    split at hentry
    · cases hentry
    · cases hentry
      exact Or.inl (hmem hprevious)

/-- The version identifiers are positive. -/
def PositiveIds (tables : InventoryTables κ χ) : Prop :=
  ∀ version ∈ tables.versions, 1 ≤ version.versionId

/-- **Correlating never raises**: every event of an accepted snapshot has its version. -/
theorem correlates (hlaw : InventoryLaw encoding.toEncoding s.tables)
    (hpositive : PositiveIds s.tables) (h : derivedEvents encoding s call = some events) :
    (snapshotEvents encoding s call).isSome = true := by
  have hcorrelated : ∀ event ∈ events, (correlateTimelineEvent
      (PyText.strip (snapshotIdOf encoding.toEncoding s.tables)) (s.tables.revisionSeq + 1)
      (versionIdsByInventoryKey encoding s.tables call.toSaveCall) event).isSome = true := by
    intro event hevent
    obtain ⟨inventoryEvents, eventFacts, hinventory, -, rfl⟩ := derivedEvents_spec h
    rcases List.mem_append.mp hevent with hevent | hevent
    · obtain ⟨-, entry, hentry, hmade⟩ := mem_inventoryPart hinventory hevent
      obtain ⟨-, -, fact, hfact, hnative, -⟩ := inventoryChangeTimelineEvent_spec hmade
      have hsome : (versionIdsByInventoryKey encoding s.tables call.toSaveCall
          fact.nativeId).isSome = true := by
        rw [hnative]
        rcases mem_inventoryChanges hentry with hrow | hrow
        · exact isSome_versionIds_of_previous hlaw hrow
        · exact isSome_versionIds_of_current hlaw hrow
      obtain ⟨versionId, hversion⟩ := Option.isSome_iff_exists.mp hsome
      have hpos : ¬ versionId < 1 := by
        rcases versionIds_spec hlaw hversion with ⟨v, hv, -, rfl⟩ | ⟨v, hv, -, rfl⟩
        · obtain ⟨-, -, -, hlt, -⟩ := mem_stamp hv
          omega
        · have hle := hpositive v hv
          omega
      rw [correlateTimelineEvent, hfact]
      simp only [hversion, if_neg hpos, Option.isSome_some]
    · obtain ⟨fact, -, rfl⟩ := List.mem_map.mp hevent
      rfl
  rw [snapshotEvents, h]
  simp only [Option.bind_eq_bind, Option.bind_some, correlateInventoryTimelineEvents]
  rw [if_neg]
  · exact isSome_mapM hcorrelated
  · simp [snapshotIdOf, encoding.uuid_text]

end Opsia.Inventory
