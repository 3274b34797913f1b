import Opsia.Inventory.Transactions

/-!
# Pinned reads

A reader that has obtained a revision reads the tables as of that revision (`asOf`): the
versions that had started, with the ends that lie after it taken away. No statement of any
transaction changes that view, because a commit in the reader's workspace comes under a
later revision (`asOf_after`), and `list_filtered_resources` looks at nothing else
(`listFilteredResources_asOf`). Following the positions of its pages then reads every
matching resource once.
-/

namespace Opsia.Inventory

variable {κ χ : Type} {encoding : Encoding κ χ}

/-! ## The tables as of a revision -/

/-- A version as a reader of this revision sees it: what closed it later is not there. -/
def freeze (revision : ℕ) (version : InventoryResourceVersion κ χ) :
    InventoryResourceVersion κ χ :=
  { version with
    validToRevision := version.validToRevision.filter fun e => decide (e ≤ revision) }

/-- The revisions and versions of a workspace up to a revision. -/
def asOf (tables : FilterTables κ χ) (workspaceId : String) (revision : ℕ) : FilterTables κ χ where
  revisions := tables.revisions.filter fun row =>
    decide (row.workspaceId = workspaceId) && decide (row.revisionId ≤ revision)
  versions := ((workspaceVersions tables.versions workspaceId).filter fun version =>
    decide (version.validFromRevision ≤ revision)).map (freeze revision)

theorem freeze_close {revision closed : ℕ} (hlt : revision < closed)
    {version : InventoryResourceVersion κ χ} (hopen : version.validToRevision = none) :
    freeze revision ((versioning κ χ).close closed version) = freeze revision version := by
  have hfilter : (some closed).filter (fun e => decide (e ≤ revision)) = none := by
    rw [Option.filter_some, decide_eq_false (Nat.not_le_of_lt hlt)]
    rfl
  simp only [freeze, versioning, hfilter, hopen, Option.filter_none]

section Stability

variable [DecidableEq κ] [DecidableEq χ] {lockKey : String → String → ℤ}
  {db : Database encoding} {workspaceId : String} {revision : ℕ}

/-- A reader of the workspace may have obtained this revision: it is not later than the
latest committed one. -/
def Pinned (db : Database encoding) (workspaceId : String) (revision : ℕ) : Prop :=
  revision = 0 ∨ ∃ row ∈ db.revisions, row.workspaceId = workspaceId ∧ revision ≤ row.revisionId

/-- **A commit in the workspace comes under a later revision** than any a reader has. -/
theorem Pinned.lt_commit (hpin : Pinned db workspaceId revision) {tx : SnapshotTransaction encoding}
    (htx : TransactionLaw db tx) (hworkspace : tx.input.workspaceId = workspaceId)
    {revisionId : ℕ} (hrevision : tx.revisionId = some revisionId) : revision < revisionId := by
  rcases hpin with rfl | ⟨row, hrow, hw, hle⟩
  · exact htx.revision_pos revisionId hrevision
  · exact hle.trans_lt (htx.latest revisionId hrevision row hrow (hw.trans hworkspace.symm))

theorem asOf_commit (hlaw : CommittedLaw db) {tx : SnapshotTransaction encoding} {revisionId : ℕ}
    (hlt : tx.input.workspaceId = workspaceId → revision < revisionId) :
    asOf (db.commit tx (tx.plan db) revisionId).toFilterTables workspaceId revision =
      asOf db.toFilterTables workspaceId revision := by
  have hrevisions : (db.revisions ++ [revisionRow tx.input revisionId
        (tx.plan db).applicationBindingComplete (revisionReasons tx.input (tx.plan db))]).filter
        (fun row =>
          decide (row.workspaceId = workspaceId) && decide (row.revisionId ≤ revision)) =
      db.revisions.filter fun row =>
        decide (row.workspaceId = workspaceId) && decide (row.revisionId ≤ revision) := by
    rw [List.filter_append, List.filter_cons_of_neg, List.filter_nil, List.append_nil]
    intro h
    obtain ⟨hworkspace, hle⟩ := Bool.and_eq_true_iff.mp h
    exact absurd (of_decide_eq_true hle)
      (Nat.not_le_of_lt (hlt (of_decide_eq_true hworkspace)))
  have hversions : ((workspaceVersions (db.commit tx (tx.plan db) revisionId).versions
        workspaceId).filter fun version =>
          decide (version.validFromRevision ≤ revision)).map (freeze revision) =
      ((workspaceVersions db.versions workspaceId).filter fun version =>
        decide (version.validFromRevision ≤ revision)).map (freeze revision) := by
    by_cases hworkspace : workspaceId = tx.input.workspaceId
    · subst hworkspace
      have hlt := hlt rfl
      have hnew : (newVersions revisionId db.versionSeq (tx.plan db)).filter (fun version =>
          decide (version.validFromRevision ≤ revision)) = [] := by
        refine List.filter_eq_nil_iff.mpr fun version hversion hle => ?_
        have hle := of_decide_eq_true hle
        rw [(writtenBy_of_mem hlaw hversion).validFrom] at hle
        exact absurd hlt (Nat.not_lt_of_le hle)
      rw [workspaceVersions_commit_self hlaw, Versioning.commit, List.filter_append, hnew,
        List.append_nil, List.filter_map, List.map_map]
      have hstart : ((fun version : InventoryResourceVersion κ χ =>
            decide (version.validFromRevision ≤ revision)) ∘
          (versioning κ χ).closeIf (tx.plan db).closes revisionId) =
          fun version => decide (version.validFromRevision ≤ revision) := by
        funext version
        exact congrArg (fun start => decide (start ≤ revision))
          (Versioning.start_closeIf (V := versioning κ χ) version)
      rw [hstart]
      refine List.map_congr_left fun version hversion => ?_
      have hmem := (List.mem_filter.mp (List.mem_filter.mp hversion).1).1
      rw [Function.comp_apply]
      rcases hc : (tx.plan db).closes version with _ | _
      · rw [Versioning.closeIf_of_not hc]
      · rw [Versioning.closeIf_of_closing hc]
        exact freeze_close hlt
          (InventoryResourceVersion.activeIn_iff.mp (activeIn_of_closes hlaw hmem hc)).2.2
    · rw [workspaceVersions_commit_of_ne hlaw hworkspace]
  exact congrArg₂ FilterTables.mk hrevisions hversions

/-- **A step changes nothing in the view of a revision that a reader has.** -/
theorem asOf_step (hlaw : DatabaseLaw lockKey db) (hpin : Pinned db workspaceId revision)
    {next : Database encoding} (hstep : Stepped lockKey db next) :
    asOf next.toFilterTables workspaceId revision = asOf db.toFilterTables workspaceId revision ∧
      Pinned next workspaceId revision := by
  cases hstep with
  | same => exact ⟨rfl, hpin⟩
  | started tx _ _ _ => exact ⟨rfl, hpin⟩
  | diffed tx _ => exact ⟨rfl, hpin⟩
  | locked tx _ _ => exact ⟨rfl, hpin⟩
  | allocated tx _ _ _ => exact ⟨rfl, hpin⟩
  | ended session => exact ⟨rfl, hpin⟩
  | committed tx diff revisionId htx hdiff hrevision =>
    have hold := hlaw.transactions tx (Table.mem_of_find? htx)
    obtain rfl := hold.planned diff hdiff
    refine ⟨asOf_commit hlaw.committed fun hworkspace =>
      hpin.lt_commit hold hworkspace hrevision, hpin.imp_right ?_⟩
    rintro ⟨row, hrow, hworkspace⟩
    exact ⟨row, List.mem_append_left _ hrow, hworkspace⟩

/-- **No run changes the view of a revision that a reader has.** -/
theorem asOf_after (hlaw : DatabaseLaw lockKey db) (hpin : Pinned db workspaceId revision)
    (later : List (DatabaseAction encoding)) :
    asOf (db.after lockKey later).toFilterTables workspaceId revision =
      asOf db.toFilterTables workspaceId revision := by
  induction later generalizing db with
  | nil => rfl
  | cons action later ih =>
    obtain ⟨hview, hpin⟩ := asOf_step hlaw hpin (step_cases db action)
    exact (ih (hlaw.stepped (step_cases db action)) hpin).trans hview

end Stability

/-! ## What a reader obtains -/

/-- The greatest of some numbers is one of them, or the number to start from. -/
theorem foldl_max_mem (l : List ℕ) (start : ℕ) :
    l.foldl max start = start ∨ l.foldl max start ∈ l := by
  induction l generalizing start with
  | nil => exact Or.inl rfl
  | cons n l ih =>
    rw [List.foldl_cons]
    rcases ih (max start n) with h | h
    · rw [h]
      rcases Nat.le_total start n with h | h
      · rw [Nat.max_eq_right h]
        exact Or.inr List.mem_cons_self
      · exact Or.inl (Nat.max_eq_left h)
    · exact Or.inr (List.mem_cons_of_mem _ h)

theorem mem_of_latestFilterRevision? {revisions : List InventoryFilterRevision}
    {workspaceId clusterId : String} {atRevision : Option ℕ} {row : InventoryFilterRevision}
    (h : latestFilterRevision? revisions workspaceId atRevision clusterId = some row) :
    row ∈ revisions ∧ row.workspaceId = workspaceId := by
  have hmem := (List.mem_insertionSort _).mp (List.mem_of_mem_head? h)
  obtain ⟨hrow, hp⟩ := List.mem_filter.mp hmem
  have hworkspace := (Bool.and_eq_true_iff.mp (Bool.and_eq_true_iff.mp hp).1).1
  exact ⟨hrow, of_decide_eq_true hworkspace⟩

/-- **The revision of a snapshot context is one that a reader may have.** -/
theorem pinned_of_context (db : Database encoding) (workspaceId : String)
    (clusterIds : List String) (atRevision : Option ℕ) :
    Pinned db workspaceId
      (filterSnapshotContext db.toFilterTables workspaceId clusterIds atRevision).snapshotRevision :=
    by
  simp only [filterSnapshotContext]
  split
  · exact Or.inl rfl
  · simp only [aggregateSnapshotContexts]
    split
    · exact Or.inl rfl
    · dsimp only
      rcases foldl_max_mem ((List.map (fun clusterId => snapshotContextByCluster
        (latestFilterRevision? db.revisions workspaceId atRevision clusterId))
        (ids clusterIds)).map fun context => context.snapshotRevision) 0 with h | h
      · exact Or.inl h
      · obtain ⟨context, hcontext, hrevision⟩ := List.mem_map.mp h
        obtain ⟨clusterId, -, rfl⟩ := List.mem_map.mp hcontext
        rw [← hrevision]
        rcases hl : latestFilterRevision? db.revisions workspaceId atRevision clusterId
          with _ | row
        · exact Or.inl rfl
        · obtain ⟨hrow, hworkspace⟩ := mem_of_latestFilterRevision? hl
          exact Or.inr ⟨row, hrow, hworkspace, le_rfl⟩

/-! ## A page looks at the view only -/

section View

variable {τ : Type} [LinearOrder τ] {collation : Collation κ τ} {tables : FilterTables κ χ}
  {request : ResourceRequest κ}

theorem latestFilterRevision?_asOf (tables : FilterTables κ χ) (workspaceId clusterId : String)
    (revision : ℕ) :
    latestFilterRevision? (asOf tables workspaceId revision).revisions workspaceId
        (some revision) clusterId =
      latestFilterRevision? tables.revisions workspaceId (some revision) clusterId := by
  have hfilter : (asOf tables workspaceId revision).revisions.filter (fun row =>
        row.workspaceId = workspaceId && row.clusterId = clusterId &&
          (some revision).all fun bound => decide (row.revisionId ≤ bound)) =
      tables.revisions.filter fun row =>
        row.workspaceId = workspaceId && row.clusterId = clusterId &&
          (some revision).all fun bound => decide (row.revisionId ≤ bound) := by
    rw [asOf, List.filter_filter]
    refine List.filter_congr fun row _ => ?_
    rw [Bool.eq_iff_iff]
    simp only [Option.all_some, Bool.and_eq_true, decide_eq_true_eq]
    constructor
    · rintro ⟨h, -⟩
      exact h
    · intro h
      exact ⟨h, h.1.1, h.2⟩
  rw [latestFilterRevision?, hfilter, latestFilterRevision?]

theorem all_freeze (revision : ℕ) (version : InventoryResourceVersion κ χ) :
    ((freeze revision version).validToRevision.all fun e => decide (revision < e)) =
      version.validToRevision.all fun e => decide (revision < e) := by
  rcases hv : version.validToRevision with _ | e
  · simp [freeze, hv]
  · by_cases hle : e ≤ revision
    · simp [freeze, hv, Option.filter_some, hle]
    · simp [freeze, hv, Option.filter_some, hle, Nat.lt_of_not_le hle]

theorem candidateVersions_asOf (tables : FilterTables κ χ) (workspaceId : String)
    (clusterIds : List String) (revision : ℕ) (includeDeleted : Bool) :
    candidateVersions (asOf tables workspaceId revision) workspaceId clusterIds revision
        includeDeleted =
      (candidateVersions tables workspaceId clusterIds revision includeDeleted).map
        (freeze revision) := by
  simp only [candidateVersions, latestFilterRevision?_asOf]
  rw [asOf, List.filter_map, workspaceVersions, List.filter_filter, List.filter_filter]
  refine congrArg (List.map (freeze revision)) (List.filter_congr fun version _ => ?_)
  simp only [Function.comp_apply, all_freeze]
  rw [Bool.eq_iff_iff]
  rw [Bool.and_eq_true, Bool.and_eq_true]
  refine ⟨fun h => h.1.1, fun h => ⟨⟨h, ?_⟩, ?_⟩⟩
  · simp only [Bool.and_eq_true] at h
    exact h.1.1.2
  · simp only [Bool.and_eq_true] at h
    exact h.1.1.1.1

variable [DecidableEq κ]

theorem rowNumber_freeze (revision : ℕ) (candidates : List (InventoryResourceVersion κ χ))
    (version : InventoryResourceVersion κ χ) :
    rowNumber (candidates.map (freeze revision)) (freeze revision version) =
      rowNumber candidates version := by
  have hsort : ((candidates.map (freeze revision)).filter fun other =>
        other.inventoryKey = (freeze revision version).inventoryKey).insertionSort
        (fun a b => b.validFromRevision ≤ a.validFromRevision) =
      ((candidates.filter fun other => other.inventoryKey = version.inventoryKey).insertionSort
        fun a b => b.validFromRevision ≤ a.validFromRevision).map (freeze revision) := by
    rw [List.filter_map]
    exact (List.map_insertionSort _ _ (freeze revision) _ fun _ _ _ _ => Iff.rfl).symm
  rw [rowNumber, hsort, List.findIdx_map]
  rfl

theorem inventoryVersionsAtRevision_asOf (tables : FilterTables κ χ) (workspaceId : String)
    (clusterIds : List String) (revision : ℕ) (includeDeleted : Bool) :
    inventoryVersionsAtRevision (asOf tables workspaceId revision) workspaceId clusterIds
        revision includeDeleted =
      (inventoryVersionsAtRevision tables workspaceId clusterIds revision includeDeleted).map
        (freeze revision) := by
  simp only [inventoryVersionsAtRevision, candidateVersions_asOf]
  rw [List.filter_map]
  refine congrArg (List.map (freeze revision)) (List.filter_congr fun version _ => ?_)
  rw [Function.comp_apply, rowNumber_freeze]

theorem unfilteredVersions_asOf :
    unfilteredVersions (asOf tables request.workspaceId request.snapshotRevision) request =
      (unfilteredVersions tables request).map (freeze request.snapshotRevision) :=
  inventoryVersionsAtRevision_asOf _ _ _ _ _

theorem filteredVersions_asOf :
    filteredVersions encoding (asOf tables request.workspaceId request.snapshotRevision)
        request =
      (filteredVersions encoding tables request).map (freeze request.snapshotRevision) := by
  rw [filteredVersions, unfilteredVersions_asOf, List.filter_map]
  rfl

theorem pageRows_asOf :
    pageRows collation encoding (asOf tables request.workspaceId request.snapshotRevision)
        request =
      (pageRows collation encoding tables request).map (freeze request.snapshotRevision) := by
  have hfreeze : ∀ version : InventoryResourceVersion κ χ,
      sortTuple collation (freeze request.snapshotRevision version) =
        sortTuple collation version := fun _ => rfl
  simp only [pageRows, filteredVersions_asOf]
  split
  · refine Keyset.fetched_map (fun version => ?_) _ _ _
    rw [hfreeze]
    rfl
  · exact Keyset.fetched_map hfreeze _ _ _

theorem filteredCount_asOf :
    filteredCount encoding (asOf tables request.workspaceId request.snapshotRevision) request =
      filteredCount encoding tables request := by
  rw [filteredCount, filteredCount, filteredVersions_asOf, unfilteredVersions_asOf,
    List.length_map, List.length_map]

omit [DecidableEq κ] in
theorem serializeVersionRow_freeze (revision : ℕ) (allowedApplicationIds : List String)
    (version : InventoryResourceVersion κ χ) :
    serializeVersionRow revision allowedApplicationIds (freeze revision version) =
      serializeVersionRow revision allowedApplicationIds version := by
  have hend : (version.validToRevision.filter fun e => decide (e ≤ revision)).filter
      (fun e => decide (e ≤ revision)) =
      version.validToRevision.filter fun e => decide (e ≤ revision) := by
    rw [Option.filter_filter]
    simp only [Bool.and_self]
  simp only [serializeVersionRow, freeze, hend]

/-- **A page looks at nothing but the tables as of its revision.** -/
theorem listFilteredResources_asOf (atPage atCount : FilterTables κ χ) :
    listFilteredResources collation encoding
        (asOf atPage request.workspaceId request.snapshotRevision)
        (asOf atCount request.workspaceId request.snapshotRevision) request =
      listFilteredResources collation encoding atPage atCount request := by
  have hcounted : ∀ b : Bool,
      (if b then asOf atCount request.workspaceId request.snapshotRevision
        else asOf atPage request.workspaceId request.snapshotRevision) =
      asOf (if b then atCount else atPage) request.workspaceId request.snapshotRevision := by
    intro b
    cases b <;> rfl
  simp only [listFilteredResources, pageRows_asOf, List.length_map, ← List.map_take,
    List.isEmpty_map, hcounted, filteredCount_asOf, unfilteredVersions_asOf, List.map_map,
    List.getLast?_map, Option.map_map]
  have hitems : serializeVersionRow (κ := κ) (χ := χ) request.snapshotRevision
        (ids request.allowedApplicationIds) ∘ freeze request.snapshotRevision =
      serializeVersionRow request.snapshotRevision (ids request.allowedApplicationIds) := by
    funext version
    exact serializeVersionRow_freeze _ _ version
  have hposition : positionOf ∘ freeze request.snapshotRevision =
      positionOf (κ := κ) (χ := χ) := rfl
  rw [hitems, hposition]

end View

end Opsia.Inventory
