import Opsia.Inventory.Diff
import Opsia.Inventory.SnapshotRows
import Opsia.Lib.Runs

/-!
# The projection mirrors the inventory

A snapshot changes the resource table by an upsert and a scoped delete, and the version
table by a diff of content hashes. The two writers look at different rows, and still leave
an open version for every live row, with the row's content, and no other.

The invariant is `Mirror`, together with the law of the rows and the law of the versions.
What a diff decides about one version is said once, in `closes_diffOf_iff` and
`mem_desiredRows`.
-/

namespace Opsia.Inventory

variable {κ χ : Type} {encoding : Encoding κ χ}

/-! ## The invariants -/

variable (encoding) in
/-- What every reachable version table satisfies. -/
structure VersionsLaw (tables : InventoryTables κ χ) : Prop where
  lawful : (versioning κ χ).Lawful tables.revisionSeq tables.versions
  ids : (tables.versions.map fun version => version.versionId).Nodup
  id_le : ∀ version ∈ tables.versions, version.versionId ≤ tables.versionSeq
  hashed : ∀ version ∈ tables.versions,
    version.contentHash = encoding.contentHash version.toMeaningful

/-- A version shows a row. -/
structure Shows (version : InventoryResourceVersion κ χ) (row : ResourceRecord κ) : Prop where
  workspaceId : version.workspaceId = row.workspaceId
  clusterId : version.clusterId = row.clusterId
  inventoryKey : version.inventoryKey = row.inventoryKey
  /-- identity, status, health, normalised labels and summary -/
  content : version.toInventoryResource =
    { row.toInventoryResource with labels := normalizedLabels row.labels }

/-- Every live row is shown by an open version, and every open version shows a live row. -/
structure Mirror (tables : InventoryTables κ χ) : Prop where
  shown : ∀ row ∈ tables.resources.rows, row.deletedAt = none →
    ∃ version ∈ tables.versions, version.validToRevision = none ∧ Shows version row
  shows : ∀ version ∈ tables.versions, version.validToRevision = none →
    ∃ row ∈ tables.resources.rows, row.deletedAt = none ∧ Shows version row

variable (encoding) in
/-- The invariant of the tables. -/
structure InventoryLaw (tables : InventoryTables κ χ) : Prop where
  rows : RowsLaw encoding tables
  versions : VersionsLaw encoding tables
  mirror : Mirror tables

/-! ## What the diff decides -/

variable [DecidableEq κ] {tables : InventoryTables κ χ} {call : SaveCall}

omit [DecidableEq κ] in
theorem VersionsLaw.ready (hlaw : VersionsLaw encoding tables) (workspaceId clusterId : String) :
    DiffReady tables.versions workspaceId clusterId :=
  ⟨hlaw.ids, fun _ hv _ hw hav haw hkey => hlaw.lawful.eq_of_open hv hw
    (InventoryResourceVersion.activeIn_iff.mp hav).2.2
    (InventoryResourceVersion.activeIn_iff.mp haw).2.2 hkey⟩

variable {next : InventoryTables κ χ} {row : ResourceRecord κ}
  {version : InventoryResourceVersion κ χ}

theorem mem_currentRows (hlaw : RowsLaw encoding tables) :
    row ∈ currentRows (writtenResources encoding tables call)
        (projectionInput encoding tables call) ↔
      row ∈ (preservedRows encoding tables call).rows := by
  simp only [currentRows, List.mem_filter, mem_writtenResources hlaw, Bool.and_eq_true,
    decide_eq_true_eq]
  constructor
  · rintro ⟨hrow | ⟨old, hold, -, rfl⟩, -, hid⟩
    · exact hrow
    · -- a row that was there carries an earlier snapshot
      refine absurd ?_ (hlaw.snapshotId_ne hold)
      rcases hd : deletable call old with _ | _
      · rw [hd] at hid
        exact hid
      · rw [hd] at hid
        exact hid
  · intro hrow
    have hobs := preserved_observed hlaw hrow
    exact ⟨Or.inl hrow,
      ResourceRecord.liveIn_iff.mpr ⟨hobs.workspaceId, hobs.clusterId, hobs.live⟩,
      hobs.snapshotId⟩

theorem isCurrent_iff (hlaw : RowsLaw encoding tables) {key : κ} :
    IsCurrent (writtenResources encoding tables call) (projectionInput encoding tables call)
        key ↔ Contains encoding tables call key :=
  exists_congr fun _ => and_congr_left fun _ => mem_currentRows hlaw

variable [DecidableEq χ]

variable (encoding) in
/-- The diff of a snapshot. -/
def diffOf (tables : InventoryTables κ χ) (call : SaveCall) : ProjectionDiff κ χ :=
  computeProjectionDiff encoding tables.versions (writtenResources encoding tables call)
    (projectionInput encoding tables call)

theorem closes_diffOf_iff (hlaw : InventoryLaw encoding tables)
    (hversion : version ∈ tables.versions) :
    (diffOf encoding tables call).closes version = true ↔
      version.activeIn call.workspaceId call.clusterId = true ∧
        ((∃ row ∈ (preservedRows encoding tables call).rows,
            row.inventoryKey = version.inventoryKey ∧
            version.contentHash ≠ newHash encoding (projectionInput encoding tables call) row) ∨
          (¬ Contains encoding tables call version.inventoryKey ∧
            mayDelete call version.toInventoryResource = true)) := by
  have hcurrent : (∃ row ∈ currentRows (writtenResources encoding tables call)
        (projectionInput encoding tables call), row.inventoryKey = version.inventoryKey ∧
        version.contentHash ≠ newHash encoding (projectionInput encoding tables call) row) ↔
      ∃ row ∈ (preservedRows encoding tables call).rows,
        row.inventoryKey = version.inventoryKey ∧
        version.contentHash ≠ newHash encoding (projectionInput encoding tables call) row :=
    exists_congr fun _ => and_congr_left fun _ => mem_currentRows hlaw.rows
  rw [diffOf, closes_iff (hlaw.versions.ready _ _) hversion, hcurrent, isCurrent_iff hlaw.rows]
  rfl

/-! ## What a call does -/

variable (encoding) in
/-- The tables after a call. -/
def step (tables : InventoryTables κ χ) (call : SaveCall) : InventoryTables κ χ :=
  (saveInventorySnapshotMutation encoding tables call).1

/-- What an accepted snapshot leaves, in either order of the locks. -/
structure Accepted (encoding : Encoding κ χ) (tables : InventoryTables κ χ) (call : SaveCall)
    (next : InventoryTables κ χ) : Prop where
  resources : next.resources = writtenResources encoding tables call
  snapshots : next.snapshots.length = tables.snapshots.length + 1
  revisionSeq : next.revisionSeq = tables.revisionSeq + 1
  versions : next.versions =
    (versioning κ χ).commit tables.versions (diffOf encoding tables call).closes
      (tables.revisionSeq + 1)
      (newVersions (tables.revisionSeq + 1) tables.versionSeq (diffOf encoding tables call))
  versionSeq : next.versionSeq =
    tables.versionSeq + (diffOf encoding tables call).desiredRows.length

/-- What a stale snapshot leaves. -/
structure Ignored (tables next : InventoryTables κ χ) : Prop where
  resources : next.resources = tables.resources
  snapshots : next.snapshots.length = tables.snapshots.length + 1
  revisionSeq : next.revisionSeq = tables.revisionSeq
  versions : next.versions = tables.versions
  versionSeq : next.versionSeq = tables.versionSeq

theorem accepted_of_not_stale (hstale : isStale tables call = false) :
    Accepted encoding tables call (step encoding tables call) := by
  simp only [step, saveInventorySnapshotMutation, hstale, Bool.false_eq_true, if_false,
    syncInventoryFilterProjection]
  split
  · exact ⟨rfl, List.length_append, rfl, rfl, rfl⟩
  · exact ⟨rfl, List.length_append, rfl, rfl, rfl⟩

theorem ignored_of_stale (hstale : isStale tables call = true) :
    Ignored tables (step encoding tables call) := by
  simp only [step, saveInventorySnapshotMutation, hstale, if_true]
  exact ⟨rfl, List.length_append, rfl, rfl, rfl⟩

/-! ## The versions after an accepted snapshot -/

omit [DecidableEq χ] in
theorem activeIn_of_key (hlaw : InventoryLaw encoding tables)
    (hrow : row ∈ (preservedRows encoding tables call).rows) (hversion : version ∈ tables.versions)
    (hopen : version.validToRevision = none) (hkey : version.inventoryKey = row.inventoryKey) :
    version.activeIn call.workspaceId call.clusterId = true := by
  obtain ⟨old, hold, -, hshows⟩ := hlaw.mirror.shows version hversion hopen
  have hobs := preserved_observed hlaw.rows hrow
  have hidentity := identity_eq_of_key (hlaw.rows.wellKeyed old hold) hobs.wellKeyed
    (hshows.inventoryKey.symm.trans hkey)
  refine InventoryResourceVersion.activeIn_iff.mpr ⟨?_, ?_, hopen⟩
  · exact hshows.workspaceId.trans
      ((congrArg ResourceIdentity.workspaceId hidentity).trans hobs.workspaceId)
  · exact hshows.clusterId.trans
      ((congrArg ResourceIdentity.clusterId hidentity).trans hobs.clusterId)

theorem row_of_mem_new (hlaw : InventoryLaw encoding tables)
    (h : version ∈ newVersions (tables.revisionSeq + 1) tables.versionSeq
      (diffOf encoding tables call)) :
    ∃ row ∈ (preservedRows encoding tables call).rows,
      version =
        { versionRow encoding call.bindings (snapshotIdOf encoding tables) row with
          versionId := version.versionId
          validFromRevision := tables.revisionSeq + 1 } := by
  obtain ⟨row, hrow, -, heq⟩ := row_of_mem_newVersions (hlaw.versions.ready _ _) h
  exact ⟨row, (mem_currentRows hlaw.rows).mp hrow, heq⟩

theorem allowed_diffOf (hlaw : InventoryLaw encoding tables) :
    (versioning κ χ).Allowed tables.versions (diffOf encoding tables call).closes
      (tables.revisionSeq + 1)
      (newVersions (tables.revisionSeq + 1) tables.versionSeq (diffOf encoding tables call)) :=
  allowed_diff (hlaw.versions.ready _ _) (fun _ hrow _ hversion hopen hkey =>
    activeIn_of_key hlaw ((mem_currentRows hlaw.rows).mp hrow) hversion hopen hkey) _ _

theorem VersionsLaw.written (hlaw : InventoryLaw encoding tables)
    (hnext : Accepted encoding tables call next) : VersionsLaw encoding next := by
  obtain ⟨hids, hle⟩ := versionIds_commit (diffOf encoding tables call).closes (tables.revisionSeq + 1)
    (diffOf encoding tables call) hlaw.versions.ids hlaw.versions.id_le
  rw [← hnext.versions] at hids hle
  refine ⟨?_, hids, ?_, fun version hversion => ?_⟩
  · rw [hnext.versions, hnext.revisionSeq]
    exact hlaw.versions.lawful.commit (allowed_diffOf hlaw) (Nat.lt_succ_self _)
  · rw [hnext.versionSeq]
    exact hle
  · rw [hnext.versions] at hversion
    obtain ⟨old, hold, stop, rfl⟩ | hnew := mem_commitVersions hversion
    · exact hlaw.versions.hashed old hold
    · obtain ⟨row, -, heq⟩ := row_of_mem_new hlaw hnew
      rw [heq]
      rfl

/-! ## The mirror after an accepted snapshot -/

omit [DecidableEq χ] in
theorem shows_of_hash (hlaw : InventoryLaw encoding tables)
    (hrow : row ∈ (preservedRows encoding tables call).rows) (hversion : version ∈ tables.versions)
    (hin : version.activeIn call.workspaceId call.clusterId = true)
    (hhash : version.contentHash = newHash encoding (projectionInput encoding tables call) row) :
    Shows version row := by
  have hobs := preserved_observed hlaw.rows hrow
  obtain ⟨hworkspace, hcluster, -⟩ := InventoryResourceVersion.activeIn_iff.mp hin
  have hmeaningful : version.toMeaningful = meaningfulOf encoding call.bindings row :=
    encoding.contentHash_injective ((hlaw.versions.hashed version hversion).symm.trans hhash)
  exact ⟨hworkspace.trans hobs.workspaceId.symm, hcluster.trans hobs.clusterId.symm,
    congrArg Meaningful.inventoryKey hmeaningful,
    congrArg Meaningful.toInventoryResource hmeaningful⟩

theorem mem_of_not_closes (hnext : Accepted encoding tables call next)
    (hversion : version ∈ tables.versions)
    (hcloses : (diffOf encoding tables call).closes version = false) :
    version ∈ next.versions := by
  rw [hnext.versions]
  exact Versioning.mem_commit.mpr (Or.inl ⟨version, hversion, Versioning.closeIf_of_not hcloses⟩)

/-- A row that the snapshot leaves alone is still there. -/
theorem mem_of_not_deletable (hlaw : InventoryLaw encoding tables)
    (hnext : Accepted encoding tables call next) (hrow : row ∈ tables.resources.rows)
    (hmissing : ¬ Contains encoding tables call row.inventoryKey)
    (hdelete : deletable call row = false) : row ∈ next.resources.rows := by
  rw [hnext.resources]
  refine (mem_writtenResources hlaw.rows).mpr (Or.inr ⟨row, hrow, hmissing, ?_⟩)
  rw [hdelete]
  rfl

/-- **Every live row is shown after an accepted snapshot.** -/
theorem shown_written (hlaw : InventoryLaw encoding tables)
    (hnext : Accepted encoding tables call next) (hrow : row ∈ next.resources.rows)
    (hlive : row.deletedAt = none) :
    ∃ version ∈ next.versions, version.validToRevision = none ∧ Shows version row := by
  rw [hnext.resources] at hrow
  rcases (mem_writtenResources hlaw.rows).mp hrow with hrow | ⟨old, hold, hmissing, rfl⟩
  · by_cases hnot : NotShown encoding tables.versions (projectionInput encoding tables call) row
    · -- the row gets a new version
      obtain ⟨version, hversion, heq⟩ := exists_stamp (tables.revisionSeq + 1) tables.versionSeq
        ((mem_desiredRows (hlaw.versions.ready _ _)).mpr
          ⟨row, (mem_currentRows hlaw.rows).mpr hrow, hnot, rfl⟩)
      refine ⟨version, ?_, ?_, ?_⟩
      · rw [hnext.versions]
        exact Versioning.mem_commit.mpr (Or.inr hversion)
      · rw [heq]
        rfl
      · rw [heq]
        exact ⟨rfl, rfl, rfl, rfl⟩
    · -- its version has the row's content already, and is kept
      simp only [NotShown, not_forall, not_not] at hnot
      obtain ⟨version, hversion, hin, hkey, hhash⟩ := hnot
      have hkept : (diffOf encoding tables call).closes version = false := by
        rcases hc : (diffOf encoding tables call).closes version with _ | _
        · rfl
        · rcases ((closes_diffOf_iff hlaw hversion).mp hc).2 with
            ⟨other, hother, hkey', hne⟩ | ⟨hno, -⟩
          · have hsame : other = row := List.inj_on_of_nodup_map
              (preservedRows encoding tables call).nodup hother hrow (hkey'.trans hkey)
            exact absurd (hsame ▸ hhash) hne
          · exact absurd ⟨row, hrow, hkey.symm⟩ hno
      exact ⟨version, mem_of_not_closes hnext hversion hkept,
        (InventoryResourceVersion.activeIn_iff.mp hin).2.2,
        shows_of_hash hlaw hrow hversion hin hhash⟩
  · -- a row that was there and that the snapshot neither contains nor deletes
    rcases hd : deletable call old with _ | _
    · rw [hd] at hlive
      obtain ⟨version, hversion, hopen, hshows⟩ := hlaw.mirror.shown old hold hlive
      refine ⟨version, mem_of_not_closes hnext hversion ?_, hopen, hshows⟩
      rcases hc : (diffOf encoding tables call).closes version with _ | _
      · rfl
      · obtain ⟨hin, ⟨other, hother, hkey, -⟩ | ⟨-, hsafe⟩⟩ :=
          (closes_diffOf_iff hlaw hversion).mp hc
        · exact absurd ⟨other, hother, hkey.trans hshows.inventoryKey⟩ hmissing
        · obtain ⟨hworkspace, hcluster, -⟩ := InventoryResourceVersion.activeIn_iff.mp hin
          rw [hshows.content] at hsafe
          rw [deletable, ResourceRecord.liveIn_iff.mpr
            ⟨hshows.workspaceId.symm.trans hworkspace, hshows.clusterId.symm.trans hcluster,
              hlive⟩, Bool.true_and] at hd
          exact absurd hsafe (by rw [Bool.not_eq_true]; exact hd)
    · rw [hd] at hlive
      cases hlive

/-- **Every open version shows a live row after an accepted snapshot.** -/
theorem shows_written (hlaw : InventoryLaw encoding tables)
    (hnext : Accepted encoding tables call next) (hversion : version ∈ next.versions)
    (hopen : version.validToRevision = none) :
    ∃ row ∈ next.resources.rows, row.deletedAt = none ∧ Shows version row := by
  rw [hnext.versions] at hversion
  have hwritten : ∀ row ∈ (preservedRows encoding tables call).rows,
      row ∈ next.resources.rows := fun row hrow => by
    rw [hnext.resources]
    exact (mem_writtenResources hlaw.rows).mpr (Or.inl hrow)
  rcases Versioning.mem_commit.mp hversion with ⟨old, hold, rfl⟩ | hnew
  · have hstop : (versioning κ χ).stop ((versioning κ χ).closeIf
        (diffOf encoding tables call).closes (tables.revisionSeq + 1) old) = none := hopen
    obtain ⟨hopen', hkept⟩ := Versioning.stop_closeIf_eq_none.mp hstop
    rw [Versioning.closeIf_of_not hkept]
    obtain ⟨row, hrow, hlive, hshows⟩ := hlaw.mirror.shows old hold hopen'
    have hkeeps := fun hin hwhy => Bool.eq_false_iff.mp hkept
      ((closes_diffOf_iff hlaw hold).mpr ⟨hin, hwhy⟩)
    by_cases hcontains : Contains encoding tables call old.inventoryKey
    · -- the snapshot contains the row, with the content the version shows
      obtain ⟨new, hnew, hkey⟩ := hcontains
      have hin := activeIn_of_key hlaw hnew hold hopen' hkey.symm
      refine ⟨new, hwritten new hnew, (preserved_observed hlaw.rows hnew).live,
        shows_of_hash hlaw hnew hold hin ?_⟩
      by_contra hne
      exact hkeeps hin (Or.inl ⟨new, hnew, hkey, hne⟩)
    · -- the snapshot does not contain it, and leaves both alone
      refine ⟨row, mem_of_not_deletable hlaw hnext hrow ?_ ?_, hlive, hshows⟩
      · rw [← hshows.inventoryKey]
        exact hcontains
      · rcases hd : deletable call row with _ | _
        · rfl
        · obtain ⟨hin, hsafe⟩ := Bool.and_eq_true_iff.mp hd
          obtain ⟨hworkspace, hcluster, -⟩ := ResourceRecord.liveIn_iff.mp hin
          refine (hkeeps (InventoryResourceVersion.activeIn_iff.mpr
            ⟨hshows.workspaceId.trans hworkspace, hshows.clusterId.trans hcluster, hopen'⟩)
            (Or.inr ⟨hcontains, ?_⟩)).elim
          rw [hshows.content]
          exact hsafe
  · obtain ⟨row, hrow, heq⟩ := row_of_mem_new hlaw hnew
    refine ⟨row, hwritten row hrow, (preserved_observed hlaw.rows hrow).live, ?_⟩
    rw [heq]
    exact ⟨rfl, rfl, rfl, rfl⟩

/-! ## Runs -/

omit [DecidableEq κ] [DecidableEq χ] in
theorem InventoryLaw.empty : InventoryLaw encoding (InventoryTables.empty (κ := κ) (χ := χ)) :=
  ⟨⟨nofun, nofun, nofun⟩, ⟨Versioning.Lawful.nil 0, List.nodup_nil, nofun, nofun⟩,
    ⟨nofun, nofun⟩⟩

omit [DecidableEq κ] [DecidableEq χ] in
/-- A stale snapshot keeps the invariant. -/
theorem InventoryLaw.ignored (hlaw : InventoryLaw encoding tables) (hnext : Ignored tables next) :
    InventoryLaw encoding next := by
  obtain ⟨hrows, hversions, hmirror⟩ := hlaw
  refine ⟨⟨?_, ?_, ?_⟩, ⟨?_, ?_, ?_, ?_⟩, ⟨?_, ?_⟩⟩
  · rw [hnext.resources]
    exact hrows.wellKeyed
  · rw [hnext.resources]
    exact hrows.stripped
  · rw [hnext.resources, hnext.snapshots]
    intro row hrow
    obtain ⟨n, hn, hid⟩ := hrows.drawn row hrow
    exact ⟨n, Nat.lt_succ_of_lt hn, hid⟩
  · rw [hnext.versions, hnext.revisionSeq]
    exact hversions.lawful
  · rw [hnext.versions]
    exact hversions.ids
  · rw [hnext.versions, hnext.versionSeq]
    exact hversions.id_le
  · rw [hnext.versions]
    exact hversions.hashed
  · rw [hnext.resources, hnext.versions]
    exact hmirror.shown
  · rw [hnext.resources, hnext.versions]
    exact hmirror.shows

theorem InventoryLaw.accepted (hlaw : InventoryLaw encoding tables)
    (hnext : Accepted encoding tables call next) : InventoryLaw encoding next :=
  ⟨hlaw.rows.written hnext.resources hnext.snapshots, VersionsLaw.written hlaw hnext,
    ⟨fun _ hrow hlive => shown_written hlaw hnext hrow hlive,
      fun _ hversion hopen => shows_written hlaw hnext hversion hopen⟩⟩

/-- **Every call keeps the invariant.** -/
theorem InventoryLaw.step (hlaw : InventoryLaw encoding tables) (call : SaveCall) :
    InventoryLaw encoding (step encoding tables call) := by
  rcases hstale : isStale tables call with _ | _
  · exact hlaw.accepted (accepted_of_not_stale hstale)
  · exact hlaw.ignored (ignored_of_stale hstale)

/-! ## The law -/

/-- The live rows of a cluster. -/
def liveRows (tables : InventoryTables κ χ) (workspaceId clusterId : String) :
    List (ResourceRecord κ) :=
  tables.resources.rows.filter fun row => row.liveIn workspaceId clusterId

/-- The active versions of a cluster. -/
def activeVersions (tables : InventoryTables κ χ) (workspaceId clusterId : String) :
    List (InventoryResourceVersion κ χ) :=
  tables.versions.filter fun version => version.activeIn workspaceId clusterId

/-- In one cluster the active versions have the keys of the live rows, and under one key
the row's identity, status, health, normalised labels and summary. -/
structure MirrorsInventory (tables : InventoryTables κ χ) (workspaceId clusterId : String) :
    Prop where
  keys : ∀ key, key ∈ (activeVersions tables workspaceId clusterId).map
      (fun version => version.inventoryKey) ↔
    key ∈ (liveRows tables workspaceId clusterId).map fun row => row.inventoryKey
  content : ∀ version ∈ activeVersions tables workspaceId clusterId,
    ∀ row ∈ liveRows tables workspaceId clusterId, version.inventoryKey = row.inventoryKey →
      version.toInventoryResource =
        { row.toInventoryResource with labels := normalizedLabels row.labels }

/-- The intervals of every key are disjoint and not empty, and two that meet show
different contents. -/
structure IntervalLaw (tables : InventoryTables κ χ) : Prop where
  disjoint : tables.versions.Pairwise fun v w => v.inventoryKey = w.inventoryKey →
    ∀ r ∈ (versioning κ χ).interval v, r ∉ (versioning κ χ).interval w
  nonempty : ∀ v ∈ tables.versions, ((versioning κ χ).interval v).Nonempty
  adjacent : ∀ v ∈ tables.versions, ∀ w ∈ tables.versions, v.inventoryKey = w.inventoryKey →
    v.validToRevision = some w.validFromRevision → v.toMeaningful ≠ w.toMeaningful

omit [DecidableEq κ] [DecidableEq χ] in
theorem mirrorsInventory_of_law (hlaw : InventoryLaw encoding tables)
    (workspaceId clusterId : String) : MirrorsInventory tables workspaceId clusterId := by
  refine ⟨fun key => ?_, fun version hversion row hrow hkey => ?_⟩
  · rw [List.mem_map, List.mem_map]
    constructor
    · rintro ⟨version, hversion, rfl⟩
      obtain ⟨hmem, hin⟩ := List.mem_filter.mp hversion
      obtain ⟨hworkspace, hcluster, hopen⟩ := InventoryResourceVersion.activeIn_iff.mp hin
      obtain ⟨row, hrow, hlive, hshows⟩ := hlaw.mirror.shows version hmem hopen
      exact ⟨row, List.mem_filter.mpr ⟨hrow, ResourceRecord.liveIn_iff.mpr
        ⟨hshows.workspaceId.symm.trans hworkspace, hshows.clusterId.symm.trans hcluster, hlive⟩⟩,
        hshows.inventoryKey.symm⟩
    · rintro ⟨row, hrow, rfl⟩
      obtain ⟨hmem, hin⟩ := List.mem_filter.mp hrow
      obtain ⟨hworkspace, hcluster, hlive⟩ := ResourceRecord.liveIn_iff.mp hin
      obtain ⟨version, hversion, hopen, hshows⟩ := hlaw.mirror.shown row hmem hlive
      exact ⟨version, List.mem_filter.mpr ⟨hversion, InventoryResourceVersion.activeIn_iff.mpr
        ⟨hshows.workspaceId.trans hworkspace, hshows.clusterId.trans hcluster, hopen⟩⟩,
        hshows.inventoryKey⟩
  · obtain ⟨hmem, hin⟩ := List.mem_filter.mp hversion
    obtain ⟨hrow, hlive⟩ := List.mem_filter.mp hrow
    have hopen := (InventoryResourceVersion.activeIn_iff.mp hin).2.2
    obtain ⟨shown, hshown, -, hshows⟩ := hlaw.mirror.shows version hmem hopen
    have hsame : shown = row := List.inj_on_of_nodup_map tables.resources.nodup hshown hrow
      (hshows.inventoryKey.symm.trans hkey)
    exact hsame ▸ hshows.content

omit [DecidableEq κ] [DecidableEq χ] in
theorem intervalLaw_of_law (hlaw : InventoryLaw encoding tables) : IntervalLaw tables := by
  refine ⟨hlaw.versions.lawful.pairwise_disjoint,
    fun v hv => hlaw.versions.lawful.interval_nonempty hv, fun v hv w hw hkey hmeet hsame => ?_⟩
  refine hlaw.versions.lawful.content_ne hv hw hkey hmeet ?_
  change v.contentHash = w.contentHash
  rw [hlaw.versions.hashed v hv, hlaw.versions.hashed w hw, hsame]

theorem not_stale_of_accepted
    (haccepted : (saveInventorySnapshotMutation encoding tables call).2.accepted = true) :
    isStale tables call = false := by
  rcases hstale : isStale tables call with _ | _
  · rfl
  · simp [saveInventorySnapshotMutation, hstale] at haccepted

theorem accepted_key_live (hlaw : InventoryLaw encoding tables)
    (haccepted : (saveInventorySnapshotMutation encoding tables call).2.accepted = true)
    (hrow : row ∈ observedRows encoding call.workspaceId call.clusterId
      (snapshotIdOf encoding tables) call.payload) :
    row.inventoryKey ∈ (liveRows (step encoding tables call) call.workspaceId
      call.clusterId).map fun row => row.inventoryKey := by
  obtain ⟨kept, hkept, hkey⟩ := exists_preserved hlaw.rows hrow
  have hobs := preserved_observed hlaw.rows hkept
  have hnext : Accepted encoding tables call (step encoding tables call) :=
    accepted_of_not_stale (not_stale_of_accepted haccepted)
  refine List.mem_map.mpr ⟨kept, List.mem_filter.mpr ⟨?_, ?_⟩, hkey⟩
  · rw [hnext.resources]
    exact (mem_writtenResources hlaw.rows).mpr (Or.inl hkept)
  · exact ResourceRecord.liveIn_iff.mpr ⟨hobs.workspaceId, hobs.clusterId, hobs.live⟩

/-- **The projection mirrors the inventory.** After every sequence of calls, in every
cluster, the active versions are those of the live rows, and the intervals of every key
are disjoint, not empty, and meet only where the content changed. On the way, a stale
snapshot changes neither rows nor versions, and every resource of an accepted snapshot
has a live row and an active version afterwards. -/
theorem run_projection_mirrors (encoding : Encoding κ χ) (calls : List SaveCall) :
    (∀ workspaceId clusterId, MirrorsInventory
      (Runs.run (step encoding) InventoryTables.empty calls) workspaceId clusterId) ∧
    IntervalLaw (Runs.run (step encoding) InventoryTables.empty calls) ∧
    ∀ e ∈ Runs.trace (step encoding) InventoryTables.empty calls,
      (isStale e.pre e.action = true →
        e.post.resources = e.pre.resources ∧ e.post.versions = e.pre.versions) ∧
      ((saveInventorySnapshotMutation encoding e.pre e.action).2.accepted = true →
        ∀ row ∈ observedRows encoding e.action.workspaceId e.action.clusterId
            (snapshotIdOf encoding e.pre) e.action.payload,
          row.inventoryKey ∈ (liveRows e.post e.action.workspaceId e.action.clusterId).map
            (fun row => row.inventoryKey) ∧
          row.inventoryKey ∈ (activeVersions e.post e.action.workspaceId
            e.action.clusterId).map fun version => version.inventoryKey) := by
  have hstep : ∀ tables call, InventoryLaw encoding tables →
      InventoryLaw encoding (step encoding tables call) :=
    fun _ call hlaw => hlaw.step call
  have hrun := Runs.run_invariant hstep (InventoryLaw.empty (χ := χ)) calls
  refine ⟨mirrorsInventory_of_law hrun, intervalLaw_of_law hrun, fun e he => ?_⟩
  obtain ⟨hlaw, hpost⟩ := Runs.trace_invariant hstep (InventoryLaw.empty (χ := χ)) e he
  rw [hpost]
  refine ⟨fun hstale => ?_, fun haccepted row hrow => ?_⟩
  · have hignored : Ignored e.pre (step encoding e.pre e.action) := ignored_of_stale hstale
    exact ⟨hignored.resources, hignored.versions⟩
  · have hlive := accepted_key_live hlaw haccepted hrow
    exact ⟨hlive, ((mirrorsInventory_of_law (hlaw.step e.action) _ _).keys _).mpr hlive⟩

end Opsia.Inventory
