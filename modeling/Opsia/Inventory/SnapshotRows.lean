import Opsia.Inventory.Projection

/-!
# What a snapshot does to the rows

One accepted snapshot writes its own rows and leaves every other row alone, but for those
it deletes: the live rows of its cluster that it did not contain, all of them when it is
complete and those in its deletion scopes otherwise (`mem_writtenResources`). Inventory
keys are digests of identities, so that the upsert finds rows of the same identity only.
-/

namespace Opsia.Inventory

variable {κ χ : Type} (encoding : Encoding κ χ)

/-! ## Well-keyed rows -/

/-- The key of a row is the digest of its identity. -/
def WellKeyed (row : ResourceRecord κ) : Prop :=
  row.inventoryKey = encoding.inventoryKey row.identity

variable {encoding}

variable {row : ResourceRecord κ}

theorem identity_eq_of_key {other : ResourceRecord κ} (hrow : WellKeyed encoding row)
    (hother : WellKeyed encoding other) (hkey : row.inventoryKey = other.inventoryKey) :
    row.identity = other.identity := by
  have hdigest : encoding.inventoryKey row.identity = encoding.inventoryKey other.identity :=
    hrow.symm.trans (hkey.trans hother)
  exact encoding.inventoryKey_injective hdigest

variable (encoding) in
/-- A normalised row of a snapshot. -/
structure Observed (workspaceId clusterId snapshotId : String) (row : ResourceRecord κ) :
    Prop where
  wellKeyed : WellKeyed encoding row
  workspaceId : row.workspaceId = workspaceId
  clusterId : row.clusterId = clusterId
  snapshotId : row.snapshotId = snapshotId
  live : row.deletedAt = none
  stripped : PyText.strip row.resourceType = row.resourceType

theorem observed_normalize (workspaceId clusterId snapshotId : String)
    (resource : SnapshotResource) :
    Observed encoding workspaceId clusterId snapshotId
      (normalizeInventoryResource encoding workspaceId clusterId snapshotId resource) :=
  ⟨rfl, rfl, rfl, rfl, rfl, strip_resourceTypeOf encoding resource⟩

theorem observed_of_mem {workspaceId clusterId snapshotId : String} {payload : InventorySnapshot}
    (h : row ∈ observedRows encoding workspaceId clusterId snapshotId payload) :
    Observed encoding workspaceId clusterId snapshotId row := by
  obtain ⟨resource, -, rfl⟩ := List.mem_map.mp h
  exact observed_normalize workspaceId clusterId snapshotId resource

/-! ## The rows of a snapshot -/

theorem existingKey?_eq {previous : List (ResourceRecord κ)}
    (hprevious : ∀ row ∈ previous, WellKeyed encoding row) {identity : ResourceIdentity} {key : κ}
    (h : existingKey? previous identity = some key) : key = encoding.inventoryKey identity := by
  simp only [existingKey?, Option.map_eq_some_iff] at h
  obtain ⟨row, hrow, rfl⟩ := h
  have hmem : row ∈ previous := List.mem_reverse.mp (List.mem_of_find?_eq_some hrow)
  have hidentity : row.identity = identity := by simpa using List.find?_some hrow
  rw [hprevious row hmem, hidentity]

variable [DecidableEq κ]

/-- **Preserving keys changes none**, as keys are digests of identities. -/
theorem preserve_eq {current previous : List (ResourceRecord κ)}
    (hcurrent : ∀ row ∈ current, WellKeyed encoding row)
    (hprevious : ∀ row ∈ previous, WellKeyed encoding row) :
    preserveExistingInventoryKeys current previous = dedupeInventoryRows current := by
  have hsame : (current.map fun row =>
      { row with
        inventoryKey := (existingKey? previous row.identity).getD row.inventoryKey }) =
      current := by
    refine (List.map_congr_left fun row hrow => ?_).trans (List.map_id current)
    rcases hkey : existingKey? previous row.identity with _ | key
    · rfl
    · rw [existingKey?_eq hprevious hkey, Option.getD_some, ← hcurrent row hrow]
      rfl
  rw [preserveExistingInventoryKeys, hsame]

theorem mem_of_mem_dedupe {rows : List (ResourceRecord κ)}
    (h : row ∈ (dedupeInventoryRows rows).rows) : row ∈ rows := by
  rcases Table.mem_foldl_put h with h | h
  · exact h
  · cases h

theorem exists_dedupe {rows : List (ResourceRecord κ)} (h : row ∈ rows) :
    ∃ kept ∈ (dedupeInventoryRows rows).rows, kept.inventoryKey = row.inventoryKey :=
  Table.exists_foldl_put h

/-! ## The upsert -/

omit [DecidableEq κ] in
theorem onConflict_eq {excluded existing : ResourceRecord κ}
    (hkey : existing.inventoryKey = excluded.inventoryKey)
    (hidentity : existing.identity = excluded.identity) (hlive : excluded.deletedAt = none) :
    onConflict excluded existing = excluded := by
  have hworkspace : existing.workspaceId = excluded.workspaceId :=
    congrArg ResourceIdentity.workspaceId hidentity
  have hcluster : existing.clusterId = excluded.clusterId :=
    congrArg ResourceIdentity.clusterId hidentity
  have htype : existing.resourceType = excluded.resourceType :=
    congrArg ResourceIdentity.resourceType hidentity
  cases excluded
  cases existing
  simp only [onConflict, ResourceRecord.mk.injEq] at *
  simp_all

theorem find?_upsert_wellKeyed {table : InventoryRows κ}
    (htable : ∀ row ∈ table.rows, WellKeyed encoding row) {resource : ResourceRecord κ}
    (hkeyed : WellKeyed encoding resource) (hlive : resource.deletedAt = none) (key : κ) :
    (upsert table resource).find? key =
      if key = resource.inventoryKey then some resource else table.find? key := by
  have hself : { resource with deletedAt := none } = resource := by
    cases resource
    cases hlive
    rfl
  rw [find?_upsert, hself]
  by_cases hk : key = resource.inventoryKey
  · rw [if_pos hk, if_pos hk]
    rcases hf : table.find? key with _ | existing
    · rfl
    · have hkey := (Table.key_of_find? hf).trans hk
      have hidentity :=
        identity_eq_of_key (htable existing (Table.mem_of_find? hf)) hkeyed hkey
      rw [Option.map_some, Option.getD_some, onConflict_eq hkey hidentity hlive]
  · rw [if_neg hk, if_neg hk]

theorem find?_upsertAll {resources : List (ResourceRecord κ)} {table : InventoryRows κ}
    (htable : ∀ row ∈ table.rows, WellKeyed encoding row)
    (hresources : ∀ row ∈ resources, WellKeyed encoding row ∧ row.deletedAt = none)
    (hnodup : (resources.map fun row => row.inventoryKey).Nodup) (key : κ) :
    (upsertAll table resources).find? key =
      (resources.find? fun row => row.inventoryKey = key).or (table.find? key) := by
  induction resources generalizing table with
  | nil => rfl
  | cons resource resources ih =>
    obtain ⟨hkeyed, hlive⟩ := hresources resource List.mem_cons_self
    have hfind := find?_upsert_wellKeyed htable hkeyed hlive
    have hupsert : ∀ row ∈ (upsert table resource).rows, WellKeyed encoding row := by
      intro row hrow
      have hrowfind := Table.find?_of_mem hrow
      rw [hfind] at hrowfind
      split at hrowfind
      · cases hrowfind
        exact hkeyed
      · exact htable row (Table.mem_of_find? hrowfind)
    rw [List.map_cons, List.nodup_cons] at hnodup
    have hrest := ih hupsert (fun row hrow => hresources row (List.mem_cons_of_mem _ hrow))
      hnodup.2
    rw [upsertAll, List.foldl_cons]
    refine hrest.trans ?_
    rw [hfind]
    by_cases hk : key = resource.inventoryKey
    · -- no later row has the key
      have hnone : (resources.find? fun row => row.inventoryKey = key) = none := by
        refine List.find?_eq_none.mpr fun row hrow => ?_
        have hne : row.inventoryKey ≠ key := fun h =>
          hnodup.1 (List.mem_map.mpr ⟨row, hrow, h.trans hk⟩)
        simpa using hne
      rw [hnone, Option.none_or, if_pos hk, List.find?_cons_of_pos (by simpa using hk.symm)]
      rfl
    · rw [if_neg hk, List.find?_cons_of_neg (by simpa using Ne.symm hk)]

/-! ## The rows after a snapshot -/

variable (encoding) in
/-- What every reachable table of rows satisfies: its keys are digests, its types are
stripped, and its snapshots have been drawn. -/
structure RowsLaw (tables : InventoryTables κ χ) : Prop where
  wellKeyed : ∀ row ∈ tables.resources.rows, WellKeyed encoding row
  stripped : ∀ row ∈ tables.resources.rows, PyText.strip row.resourceType = row.resourceType
  drawn : ∀ row ∈ tables.resources.rows, ∃ n < tables.snapshots.length,
    row.snapshotId = encoding.uuid n

variable {tables : InventoryTables κ χ} {call : SaveCall}

omit [DecidableEq κ] in
theorem RowsLaw.snapshotId_ne (hlaw : RowsLaw encoding tables)
    (hrow : row ∈ tables.resources.rows) : row.snapshotId ≠ snapshotIdOf encoding tables := by
  obtain ⟨n, hn, hid⟩ := hlaw.drawn row hrow
  intro h
  exact absurd (encoding.uuid_injective (hid.symm.trans h)) (Nat.ne_of_lt hn)

theorem preservedRows_eq (hlaw : RowsLaw encoding tables) : preservedRows encoding tables call =
    dedupeInventoryRows (normalizedRows encoding tables call).rows :=
  preserve_eq (fun _ hrow => (observed_of_mem (mem_of_mem_dedupe hrow)).wellKeyed)
    fun row hrow => hlaw.wellKeyed row (List.mem_filter.mp hrow).1

theorem observed_of_mem_preserved (hlaw : RowsLaw encoding tables)
    (h : row ∈ (preservedRows encoding tables call).rows) :
    row ∈ observedRows encoding call.workspaceId call.clusterId (snapshotIdOf encoding tables)
      call.payload := by
  rw [preservedRows_eq hlaw] at h
  exact mem_of_mem_dedupe (mem_of_mem_dedupe h)

/-- **Every resource of a snapshot has a row under its key** among those it writes. -/
theorem exists_preserved (hlaw : RowsLaw encoding tables)
    (h : row ∈ observedRows encoding call.workspaceId call.clusterId
      (snapshotIdOf encoding tables) call.payload) :
    ∃ kept ∈ (preservedRows encoding tables call).rows, kept.inventoryKey = row.inventoryKey := by
  rw [preservedRows_eq hlaw]
  obtain ⟨once, honce, hkey⟩ := exists_dedupe h
  obtain ⟨twice, htwice, hkey'⟩ := exists_dedupe honce
  exact ⟨twice, htwice, hkey'.trans hkey⟩

theorem preserved_observed (hlaw : RowsLaw encoding tables)
    (h : row ∈ (preservedRows encoding tables call).rows) :
    Observed encoding call.workspaceId call.clusterId (snapshotIdOf encoding tables) row :=
  observed_of_mem (observed_of_mem_preserved hlaw h)

theorem find?_upsertedResources (hlaw : RowsLaw encoding tables) (key : κ) :
    (upsertedResources encoding tables call).find? key =
      ((preservedRows encoding tables call).find? key).or (tables.resources.find? key) :=
  find?_upsertAll hlaw.wellKeyed
    (fun _ hrow =>
      ⟨(preserved_observed hlaw hrow).wellKeyed, (preserved_observed hlaw hrow).live⟩)
    (preservedRows encoding tables call).nodup key

variable (encoding) in
/-- The snapshot contains the key. -/
def Contains (tables : InventoryTables κ χ) (call : SaveCall) (key : κ) : Prop :=
  ∃ row ∈ (preservedRows encoding tables call).rows, row.inventoryKey = key

/-- The snapshot may delete what it does not contain, of this type and namespace. -/
def mayDelete (call : SaveCall) (resource : InventoryResource) : Bool :=
  call.resourcesComplete ||
    inDeletionScopes resource.resourceType resource.namespaceName call.deletionScopes

/-- The row is one that the snapshot deletes when it does not contain it. -/
def deletable (call : SaveCall) (row : ResourceRecord κ) : Bool :=
  row.liveIn call.workspaceId call.clusterId && mayDelete call row.toInventoryResource

theorem mem_missingInventoryKeys {key : κ} :
    key ∈ missingInventoryKeys encoding tables call ↔
      ¬ Contains encoding tables call key ∧
        ∃ row ∈ tables.resources.rows, deletable call row = true ∧ row.inventoryKey = key := by
  simp only [missingInventoryKeys, List.mem_filter, List.mem_map, previousRows, deletable,
    mayDelete, Contains, decide_eq_true_eq]
  rcases call.resourcesComplete with _ | _
  · simp only [List.mem_filter, Bool.false_eq_true, if_false, Bool.false_or, Bool.and_eq_true]
    constructor
    · rintro ⟨⟨row, ⟨⟨hrow, hlive⟩, hscope⟩, hkey⟩, hmissing⟩
      exact ⟨hmissing, row, hrow, ⟨hlive, hscope⟩, hkey⟩
    · rintro ⟨hmissing, row, hrow, ⟨hlive, hscope⟩, hkey⟩
      exact ⟨⟨row, ⟨⟨hrow, hlive⟩, hscope⟩, hkey⟩, hmissing⟩
  · simp only [List.mem_filter, if_true, Bool.true_or, Bool.and_true]
    constructor
    · rintro ⟨⟨row, ⟨hrow, hlive⟩, hkey⟩, hmissing⟩
      exact ⟨hmissing, row, hrow, hlive, hkey⟩
    · rintro ⟨hmissing, row, hrow, hlive, hkey⟩
      exact ⟨⟨row, ⟨hrow, hlive⟩, hkey⟩, hmissing⟩

theorem holds_deletePredicate (hlaw : RowsLaw encoding tables) (hrow : row ∈ tables.resources.rows)
    (hmissing : ¬ Contains encoding tables call row.inventoryKey) :
    (deletePredicate encoding tables call).holds row = deletable call row := by
  have hscope : deleteScopePredicate row.resourceType row.namespaceName call.deletionScopes =
      inDeletionScopes row.resourceType row.namespaceName call.deletionScopes :=
    deleteScopePredicate_eq (hlaw.stripped row hrow) _ _
  rw [Bool.eq_iff_iff, DeletePredicate.holds_iff]
  constructor
  · rintro ⟨hlive, -, -, hany⟩
    refine Bool.and_eq_true_iff.mpr ⟨hlive, Bool.or_eq_true_iff.mpr (hany.imp_right fun h => ?_)⟩
    exact hscope.symm.trans h
  · intro hdelete
    obtain ⟨hlive, hany⟩ := Bool.and_eq_true_iff.mp hdelete
    refine ⟨hlive, hlaw.snapshotId_ne hrow,
      mem_missingInventoryKeys.mpr ⟨hmissing, row, hrow, hdelete, rfl⟩, ?_⟩
    exact (Bool.or_eq_true_iff.mp hany).imp_right fun h => hscope.trans h

/-- The delete statement selects no row that the snapshot wrote. -/
theorem not_holds_deletePredicate (hcontains : Contains encoding tables call row.inventoryKey) :
    (deletePredicate encoding tables call).holds row = false := by
  rcases hh : (deletePredicate encoding tables call).holds row with _ | _
  · rfl
  · obtain ⟨-, -, hkey, -⟩ := DeletePredicate.holds_iff.mp hh
    exact absurd hcontains (mem_missingInventoryKeys.mp hkey).1

/-- Skipping the delete statement skips nothing it would select. -/
theorem find?_writtenResources (key : κ) :
    (writtenResources encoding tables call).find? key =
      ((upsertedResources encoding tables call).find? key).map fun row =>
        if (deletePredicate encoding tables call).holds row then markDeleted call.now row
        else row := by
  rw [writtenResources]
  split
  · exact Table.find?_modifyWhere _ _ _ _ _
  · rename_i hskip
    have hnone : ∀ row : ResourceRecord κ,
        (deletePredicate encoding tables call).holds row = false := by
      intro row
      rcases hh : (deletePredicate encoding tables call).holds row with _ | _
      · rfl
      · obtain ⟨-, -, hkey, hscope⟩ := DeletePredicate.holds_iff.mp hh
        refine absurd ?_ hskip
        have hmissing : (missingInventoryKeys encoding tables call).isEmpty = false :=
          List.isEmpty_eq_false_iff.mpr (List.ne_nil_of_mem hkey)
        rw [hmissing, Bool.not_false, Bool.and_true, Bool.or_eq_true, Bool.not_eq_true',
          List.isEmpty_eq_false_iff]
        refine hscope.imp_right fun hany => ?_
        obtain ⟨scope, hscope, -⟩ := List.any_eq_true.mp hany
        exact List.ne_nil_of_mem hscope
    simp [hnone]

/-- **The rows after a snapshot**: those it contains as it contains them, and every other
row as it was, deleted when it is deletable. -/
theorem mem_writtenResources (hlaw : RowsLaw encoding tables) :
    row ∈ (writtenResources encoding tables call).rows ↔
      row ∈ (preservedRows encoding tables call).rows ∨
        ∃ old ∈ tables.resources.rows, ¬ Contains encoding tables call old.inventoryKey ∧
          row = if deletable call old then markDeleted call.now old else old := by
  constructor
  · intro hrow
    have hfind := Table.find?_of_mem hrow
    rw [find?_writtenResources, find?_upsertedResources hlaw] at hfind
    rcases hp : (preservedRows encoding tables call).find? row.inventoryKey with _ | kept
    · rw [hp, Option.none_or, Option.map_eq_some_iff] at hfind
      obtain ⟨old, hold, rfl⟩ := hfind
      have hmem := Table.mem_of_find? hold
      have hkey := Table.key_of_find? hold
      have hmissing : ¬ Contains encoding tables call old.inventoryKey := by
        rintro ⟨kept, hkept, hkk⟩
        exact Table.find?_eq_none.mp hp kept hkept (hkk.trans hkey)
      rw [holds_deletePredicate hlaw hmem hmissing]
      exact Or.inr ⟨old, hmem, hmissing, rfl⟩
    · have hkept := Table.mem_of_find? hp
      rw [hp, Option.some_or, Option.map_some,
        not_holds_deletePredicate ⟨kept, hkept, rfl⟩] at hfind
      cases hfind
      exact Or.inl hkept
  · rintro (hrow | ⟨old, hold, hmissing, rfl⟩)
    · refine Table.mem_of_find? (k := row.inventoryKey) ?_
      rw [find?_writtenResources, find?_upsertedResources hlaw, Table.find?_of_mem hrow,
        Option.some_or, Option.map_some, not_holds_deletePredicate ⟨row, hrow, rfl⟩]
      rfl
    · refine Table.mem_of_find? (k := old.inventoryKey) ?_
      have hnone : (preservedRows encoding tables call).find? old.inventoryKey = none :=
        Table.find?_eq_none.mpr fun kept hkept hkk => hmissing ⟨kept, hkept, hkk⟩
      rw [find?_writtenResources, find?_upsertedResources hlaw, hnone, Option.none_or,
        Table.find?_of_mem hold, Option.map_some, holds_deletePredicate hlaw hold hmissing]

theorem RowsLaw.written (hlaw : RowsLaw encoding tables) {next : InventoryTables κ χ}
    (hresources : next.resources = writtenResources encoding tables call)
    (hsnapshots : next.snapshots.length = tables.snapshots.length + 1) :
    RowsLaw encoding next := by
  have hcases : ∀ row ∈ next.resources.rows,
      Observed encoding call.workspaceId call.clusterId (snapshotIdOf encoding tables) row ∨
        ∃ old ∈ tables.resources.rows, row = old ∨ row = markDeleted call.now old := by
    intro row hrow
    rw [hresources] at hrow
    rcases (mem_writtenResources hlaw).mp hrow with hrow | ⟨old, hold, -, rfl⟩
    · exact Or.inl (preserved_observed hlaw hrow)
    · refine Or.inr ⟨old, hold, ?_⟩
      rcases deletable call old with _ | _
      · exact Or.inl rfl
      · exact Or.inr rfl
  refine ⟨fun row hrow => ?_, fun row hrow => ?_, fun row hrow => ?_⟩
  · rcases hcases row hrow with hobs | ⟨old, hold, rfl | rfl⟩
    · exact hobs.wellKeyed
    · exact hlaw.wellKeyed row hold
    · exact hlaw.wellKeyed old hold
  · rcases hcases row hrow with hobs | ⟨old, hold, rfl | rfl⟩
    · exact hobs.stripped
    · exact hlaw.stripped row hold
    · exact hlaw.stripped old hold
  · rw [hsnapshots]
    rcases hcases row hrow with hobs | ⟨old, hold, rfl | rfl⟩
    · exact ⟨tables.snapshots.length, Nat.lt_succ_self _, hobs.snapshotId⟩
    · obtain ⟨n, hn, hid⟩ := hlaw.drawn row hold
      exact ⟨n, Nat.lt_succ_of_lt hn, hid⟩
    · obtain ⟨n, hn, hid⟩ := hlaw.drawn old hold
      exact ⟨n, Nat.lt_succ_of_lt hn, hid⟩

end Opsia.Inventory
