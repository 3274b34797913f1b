import Opsia.Inventory.Diff
import Opsia.Inventory.Query
import Opsia.Inventory.SnapshotRows
import Opsia.Lib.Runs

/-!
# Concurrent snapshot transactions

Snapshot transactions of any clusters, interleaved statement by statement. Each holds the
advisory lock of its cluster from its start, takes the lock of its workspace before it
allocates a revision, and keeps both until it commits or rolls back. With the late lock it
computes its diff before it takes the workspace lock, in the legacy order after it has its
revision.

What a transaction sees of the resource table is its own business, since nobody else
writes the rows of its cluster; here it is any table of well-keyed rows (`Cut`). Writing
the diff and committing are one step. Advisory lock keys are digests, about which nothing
is assumed.
-/

namespace Opsia.Inventory

/-! ## Transactions -/

/-- The rows of the resource table that a transaction sees. -/
structure Cut {κ χ : Type} (encoding : Encoding κ χ) : Type where
  rows : InventoryRows κ
  wellKeyed : ∀ row ∈ rows.rows, WellKeyed encoding row

/-- A snapshot transaction that has not ended. -/
structure SnapshotTransaction {κ χ : Type} (encoding : Encoding κ χ) : Type where
  session : ℕ
  input : ProjectionInput
  cut : Cut encoding
  /-- `late_projection_lock_enabled()` -/
  lateLock : Bool
  diff : Option (ProjectionDiff κ χ)
  /-- it holds the lock of its workspace -/
  locked : Bool
  revisionId : Option ℕ

/-- The committed tables, the sequences, which no rollback rewinds, and the open
transactions. -/
structure Database {κ χ : Type} (encoding : Encoding κ χ) : Type extends FilterTables κ χ where
  revisionSeq : ℕ
  versionSeq : ℕ
  transactions : Table (ρ := SnapshotTransaction encoding) fun tx => tx.session

/-- One statement of one transaction. -/
inductive DatabaseAction {κ χ : Type} (encoding : Encoding κ χ) : Type where
  | start (session : ℕ) (input : ProjectionInput) (cut : Cut encoding) (lateLock : Bool)
  | computeDiff (session : ℕ)
  | lockWorkspace (session : ℕ)
  | allocate (session : ℕ)
  | commit (session : ℕ)
  | rollback (session : ℕ)

variable {κ χ : Type} {encoding : Encoding κ χ}

/-- Before any transaction. -/
def Database.empty : Database encoding where
  revisions := []
  versions := []
  revisionSeq := 0
  versionSeq := 0
  transactions := Table.empty

section Step

variable (lockKey : String → String → ℤ)

/-- The advisory locks a transaction holds: `inventory_snapshot_lock_key` of its cluster
and, once taken, `inventory_filter_projection_lock_key` of its workspace. -/
def SnapshotTransaction.held (tx : SnapshotTransaction encoding) : List ℤ :=
  lockKey tx.input.workspaceId tx.input.clusterId ::
    if tx.locked then [lockKey "inventory-filter-projection" tx.input.workspaceId] else []

/-- No other transaction holds the lock. -/
def Database.free (db : Database encoding) (session : ℕ) (key : ℤ) : Bool :=
  db.transactions.rows.all fun tx => tx.session = session || decide (key ∉ tx.held lockKey)

/-- `_compute_projection_diff` has run. -/
def SnapshotTransaction.withDiff (diff : ProjectionDiff κ χ) (tx : SnapshotTransaction encoding) :
    SnapshotTransaction encoding :=
  { tx with diff := some diff }

/-- `pg_advisory_xact_lock` of the workspace has been granted. -/
def SnapshotTransaction.withLock (tx : SnapshotTransaction encoding) :
    SnapshotTransaction encoding :=
  { tx with locked := true }

/-- The revision row has been inserted. -/
def SnapshotTransaction.withRevision (revisionId : ℕ) (tx : SnapshotTransaction encoding) :
    SnapshotTransaction encoding :=
  { tx with revisionId := some revisionId }

theorem SnapshotTransaction.session_withDiff (diff : ProjectionDiff κ χ)
    (tx : SnapshotTransaction encoding) : (tx.withDiff diff).session = tx.session := rfl

theorem SnapshotTransaction.session_withLock (tx : SnapshotTransaction encoding) :
    tx.withLock.session = tx.session := rfl

theorem SnapshotTransaction.session_withRevision (revisionId : ℕ)
    (tx : SnapshotTransaction encoding) : (tx.withRevision revisionId).session = tx.session := rfl

variable [DecidableEq κ] [DecidableEq χ]

/-- Change one open transaction. -/
def Database.update (db : Database encoding) (session : ℕ)
    (f : SnapshotTransaction encoding → SnapshotTransaction encoding)
    (hf : ∀ tx, (f tx).session = tx.session) : Database encoding :=
  { db with transactions := db.transactions.modify session f hf }

/-- `_write_projection_versions` and the commit, which releases the locks. -/
def Database.commit (db : Database encoding) (tx : SnapshotTransaction encoding)
    (diff : ProjectionDiff κ χ) (revisionId : ℕ) : Database encoding :=
  { db with
    revisions := db.revisions ++
      [revisionRow tx.input revisionId diff.applicationBindingComplete
        (revisionReasons tx.input diff)]
    versions := writeProjectionVersions db.versions db.versionSeq revisionId diff
    versionSeq := db.versionSeq + diff.desiredRows.length
    transactions := db.transactions.erase tx.session }

/-- One step; a statement that is not due, or that waits for a lock, changes nothing. -/
def Database.step (db : Database encoding) : DatabaseAction encoding → Database encoding
  | .start session input cut lateLock =>
    if (db.transactions.find? session).isNone &&
        db.free lockKey session (lockKey input.workspaceId input.clusterId) then
      { db with
        transactions := db.transactions.put
          { session := session
            input := input
            cut := cut
            lateLock := lateLock
            diff := none
            locked := false
            revisionId := none } }
    else db
  | .computeDiff session =>
    match db.transactions.find? session with
    | none => db
    | some tx =>
      if tx.diff.isNone && (tx.lateLock || tx.revisionId.isSome) then
        let diff := computeProjectionDiff encoding db.versions tx.cut.rows tx.input
        db.update session (SnapshotTransaction.withDiff diff)
          (SnapshotTransaction.session_withDiff diff)
      else db
  | .lockWorkspace session =>
    match db.transactions.find? session with
    | none => db
    | some tx =>
      if (!tx.lateLock || tx.diff.isSome) && db.free lockKey session
          (lockKey "inventory-filter-projection" tx.input.workspaceId) then
        db.update session SnapshotTransaction.withLock SnapshotTransaction.session_withLock
      else db
  | .allocate session =>
    match db.transactions.find? session with
    | none => db
    | some tx =>
      if tx.locked && tx.revisionId.isNone then
        let revisionId := db.revisionSeq + 1
        { db.update session (SnapshotTransaction.withRevision revisionId)
            (SnapshotTransaction.session_withRevision revisionId) with
          revisionSeq := revisionId }
      else db
  | .commit session =>
    match db.transactions.find? session with
    | none => db
    | some tx =>
      match tx.diff, tx.revisionId with
      | some diff, some revisionId => db.commit tx diff revisionId
      | _, _ => db
  | .rollback session => { db with transactions := db.transactions.erase session }

end Step

/-! ## What a step does -/

section Cases

variable [DecidableEq κ] [DecidableEq χ] {lockKey : String → String → ℤ}
  {db : Database encoding}

omit [DecidableEq κ] [DecidableEq χ] in
theorem not_held_of_free {session : ℕ} {key : ℤ} (hfree : db.free lockKey session key = true) :
    ∀ tx ∈ db.transactions.rows, tx.session ≠ session → key ∉ tx.held lockKey := by
  intro tx htx hne
  rcases Bool.or_eq_true_iff.mp (List.all_eq_true.mp hfree tx htx) with h | h
  · exact absurd (of_decide_eq_true h) hne
  · exact of_decide_eq_true h

/-- A transaction that has only just started. -/
structure IsNew (tx : SnapshotTransaction encoding) : Prop where
  diff : tx.diff = none
  locked : tx.locked = false
  revisionId : tx.revisionId = none

variable (lockKey) in
/-- **What a step can do**: nothing, start a transaction, compute its diff, grant it a lock,
allocate its revision, commit it, or end it. -/
inductive Stepped (db : Database encoding) : Database encoding → Prop
  | same : Stepped db db
  | started (tx : SnapshotTransaction encoding) (hnew : IsNew tx)
      (hfresh : db.transactions.find? tx.session = none)
      (hfree : ∀ other ∈ db.transactions.rows, other.session ≠ tx.session →
        lockKey tx.input.workspaceId tx.input.clusterId ∉ other.held lockKey) :
      Stepped db { db with transactions := db.transactions.put tx }
  | diffed (tx : SnapshotTransaction encoding)
      (htx : db.transactions.find? tx.session = some tx) :
      Stepped db (db.update tx.session
        (SnapshotTransaction.withDiff
          (computeProjectionDiff encoding db.versions tx.cut.rows tx.input))
        (SnapshotTransaction.session_withDiff _))
  | locked (tx : SnapshotTransaction encoding)
      (htx : db.transactions.find? tx.session = some tx)
      (hfree : ∀ other ∈ db.transactions.rows, other.session ≠ tx.session →
        lockKey "inventory-filter-projection" tx.input.workspaceId ∉ other.held lockKey) :
      Stepped db (db.update tx.session SnapshotTransaction.withLock
        SnapshotTransaction.session_withLock)
  | allocated (tx : SnapshotTransaction encoding)
      (htx : db.transactions.find? tx.session = some tx) (hlocked : tx.locked = true)
      (hnone : tx.revisionId = none) :
      Stepped db
        { db.update tx.session (SnapshotTransaction.withRevision (db.revisionSeq + 1))
            (SnapshotTransaction.session_withRevision _) with
          revisionSeq := db.revisionSeq + 1 }
  | committed (tx : SnapshotTransaction encoding) (diff : ProjectionDiff κ χ) (revisionId : ℕ)
      (htx : db.transactions.find? tx.session = some tx) (hdiff : tx.diff = some diff)
      (hrevision : tx.revisionId = some revisionId) :
      Stepped db (db.commit tx diff revisionId)
  | ended (session : ℕ) :
      Stepped db { db with transactions := db.transactions.erase session }

variable (db) in
theorem step_cases (action : DatabaseAction encoding) :
    Stepped lockKey db (db.step lockKey action) := by
  cases action with
  | start session input cut lateLock =>
    simp only [Database.step]
    split
    · rename_i hdue
      obtain ⟨hfresh, hfree⟩ := Bool.and_eq_true_iff.mp hdue
      exact .started _ ⟨rfl, rfl, rfl⟩ (Option.isNone_iff_eq_none.mp hfresh)
        (not_held_of_free hfree)
    · exact .same
  | computeDiff session =>
    simp only [Database.step]
    rcases htx : db.transactions.find? session with _ | tx
    · exact .same
    · dsimp only
      split
      · obtain rfl := Table.key_of_find? htx
        exact .diffed tx htx
      · exact .same
  | lockWorkspace session =>
    simp only [Database.step]
    rcases htx : db.transactions.find? session with _ | tx
    · exact .same
    · dsimp only
      split
      · rename_i hdue
        obtain rfl := Table.key_of_find? htx
        exact .locked tx htx (not_held_of_free (Bool.and_eq_true_iff.mp hdue).2)
      · exact .same
  | allocate session =>
    simp only [Database.step]
    rcases htx : db.transactions.find? session with _ | tx
    · exact .same
    · dsimp only
      split
      · rename_i hdue
        obtain ⟨hlocked, hnone⟩ := Bool.and_eq_true_iff.mp hdue
        obtain rfl := Table.key_of_find? htx
        exact .allocated tx htx hlocked (Option.isNone_iff_eq_none.mp hnone)
      · exact .same
  | commit session =>
    simp only [Database.step]
    rcases htx : db.transactions.find? session with _ | tx
    · exact .same
    · dsimp only
      rcases hdiff : tx.diff with _ | diff
      · exact .same
      · rcases hrevision : tx.revisionId with _ | revisionId
        · exact .same
        · obtain rfl := Table.key_of_find? htx
          exact .committed tx diff revisionId htx hdiff hrevision
  | rollback session => exact .ended session

omit [DecidableEq κ] [DecidableEq χ] in
theorem mem_update {session : ℕ} {f : SnapshotTransaction encoding → SnapshotTransaction encoding}
    {hf : ∀ tx, (f tx).session = tx.session} {tx : SnapshotTransaction encoding}
    (h : tx ∈ (db.update session f hf).transactions.rows) :
    tx ∈ db.transactions.rows ∧ tx.session ≠ session ∨
      ∃ old ∈ db.transactions.rows, old.session = session ∧ tx = f old := by
  rw [Database.update, Table.rows_modify] at h
  obtain ⟨old, hold, rfl⟩ := List.mem_map.mp h
  by_cases hs : old.session = session
  · rw [if_pos hs]
    exact Or.inr ⟨old, hold, hs, rfl⟩
  · rw [if_neg hs]
    exact Or.inl ⟨hold, hs⟩

end Cases

/-! ## The locks -/

section Locks

variable {lockKey : String → String → ℤ} {db : Database encoding}

variable (lockKey) in
/-- No two open transactions hold the same lock. -/
def Exclusive (db : Database encoding) : Prop :=
  ∀ a ∈ db.transactions.rows, ∀ b ∈ db.transactions.rows, a.session ≠ b.session →
    ∀ key ∈ a.held lockKey, key ∉ b.held lockKey

theorem mem_held_withLock {tx : SnapshotTransaction encoding} {key : ℤ}
    (h : key ∈ tx.withLock.held lockKey) :
    key ∈ tx.held lockKey ∨ key = lockKey "inventory-filter-projection" tx.input.workspaceId := by
  rcases List.mem_cons.mp h with rfl | h
  · exact Or.inl List.mem_cons_self
  · exact Or.inr (List.mem_singleton.mp h)

theorem Exclusive.update (hex : Exclusive lockKey db) {session : ℕ}
    {f : SnapshotTransaction encoding → SnapshotTransaction encoding}
    {hf : ∀ tx, (f tx).session = tx.session}
    (hkeys : ∀ old ∈ db.transactions.rows, old.session = session →
      ∀ key ∈ (f old).held lockKey, key ∈ old.held lockKey ∨
        ∀ other ∈ db.transactions.rows, other.session ≠ session → key ∉ other.held lockKey) :
    Exclusive lockKey (db.update session f hf) := by
  intro a ha b hb hne key hka hkb
  rcases mem_update ha with ⟨ha, hsa⟩ | ⟨olda, holda, hsa, rfl⟩
  · rcases mem_update hb with ⟨hb, -⟩ | ⟨oldb, holdb, hsb, rfl⟩
    · exact hex a ha b hb hne key hka hkb
    · rcases hkeys oldb holdb hsb key hkb with hkb | hfree
      · exact hex a ha oldb holdb (fun h => hsa (h.trans hsb)) key hka hkb
      · exact hfree a ha hsa hka
  · rcases mem_update hb with ⟨hb, hsb⟩ | ⟨oldb, holdb, hsb, rfl⟩
    · rcases hkeys olda holda hsa key hka with hka | hfree
      · exact hex olda holda b hb (fun h => hsb (h.symm.trans hsa)) key hka hkb
      · exact hfree b hb hsb hkb
    · rw [hf, hf] at hne
      exact hne (hsa.trans hsb.symm)

theorem Exclusive.erase (hex : Exclusive lockKey db) {next : Database encoding} {session : ℕ}
    (hnext : next.transactions = db.transactions.erase session) : Exclusive lockKey next := by
  intro a ha b hb
  rw [hnext] at ha hb
  exact hex a (Table.mem_of_mem_erase ha) b (Table.mem_of_mem_erase hb)

/-- **Every step keeps the locks exclusive.** -/
theorem Exclusive.stepped [DecidableEq κ] [DecidableEq χ] (hex : Exclusive lockKey db)
    {next : Database encoding} (hstep : Stepped lockKey db next) : Exclusive lockKey next := by
  cases hstep with
  | same => exact hex
  | started tx hnew hfresh hfree =>
    have hheld : ∀ key, key ∈ tx.held lockKey ↔
        key = lockKey tx.input.workspaceId tx.input.clusterId := fun key => by
      simp [SnapshotTransaction.held, hnew.locked]
    intro a ha b hb hne key hka hkb
    rcases Table.mem_put ha with rfl | ⟨hmem, hsa⟩
    · rcases Table.mem_put hb with rfl | ⟨hb, hsb⟩
      · exact hne rfl
      · rw [(hheld key).mp hka] at hkb
        exact hfree b hb hsb hkb
    · rcases Table.mem_put hb with rfl | ⟨hb, -⟩
      · rw [(hheld key).mp hkb] at hka
        exact hfree a hmem hsa hka
      · exact hex a hmem b hb hne key hka hkb
  | diffed tx htx => exact hex.update fun _ _ _ _ hkey => Or.inl hkey
  | locked tx htx hfree =>
    refine hex.update fun old hold hs key hkey => ?_
    obtain rfl : old = tx := List.inj_on_of_nodup_map db.transactions.nodup hold
      (Table.mem_of_find? htx) hs
    rcases mem_held_withLock hkey with hkey | rfl
    · exact Or.inl hkey
    · exact Or.inr hfree
  | allocated tx htx hlocked hnone =>
    have hupdate : Exclusive lockKey (db.update tx.session
        (SnapshotTransaction.withRevision (db.revisionSeq + 1))
        (SnapshotTransaction.session_withRevision _)) :=
      hex.update fun _ _ _ _ hkey => Or.inl hkey
    exact hupdate
  | committed tx diff revisionId htx hdiff hrevision => exact hex.erase rfl
  | ended session => exact hex.erase rfl

theorem Exclusive.cluster_ne (hex : Exclusive lockKey db) {a b : SnapshotTransaction encoding}
    (ha : a ∈ db.transactions.rows) (hb : b ∈ db.transactions.rows) (hne : a.session ≠ b.session) :
    ¬ (a.input.workspaceId = b.input.workspaceId ∧ a.input.clusterId = b.input.clusterId) := by
  rintro ⟨hworkspace, hcluster⟩
  refine hex a ha b hb hne _ List.mem_cons_self ?_
  rw [hworkspace, hcluster]
  exact List.mem_cons_self

theorem Exclusive.workspace_ne (hex : Exclusive lockKey db) {a b : SnapshotTransaction encoding}
    (ha : a ∈ db.transactions.rows) (hb : b ∈ db.transactions.rows) (hne : a.session ≠ b.session)
    (hla : a.locked = true) (hlb : b.locked = true) :
    a.input.workspaceId ≠ b.input.workspaceId := by
  have hheld : ∀ tx : SnapshotTransaction encoding, tx.locked = true →
      lockKey "inventory-filter-projection" tx.input.workspaceId ∈ tx.held lockKey := by
    intro tx hl
    rw [SnapshotTransaction.held, hl]
    exact List.mem_cons_of_mem _ (List.mem_singleton_self _)
  intro hworkspace
  refine hex a ha b hb hne _ (hheld a hla) ?_
  rw [hworkspace]
  exact hheld b hlb

end Locks

/-! ## The law of the database -/

section Law

variable [DecidableEq κ] [DecidableEq χ] {lockKey : String → String → ℤ}
  {db : Database encoding}

/-- What the key of a version encodes. -/
def InventoryResourceVersion.identity (version : InventoryResourceVersion κ χ) :
    ResourceIdentity where
  workspaceId := version.workspaceId
  clusterId := version.clusterId
  resourceType := version.resourceType
  apiVersion := version.apiVersion
  namespaceName := version.namespaceName.getD ""
  kind := version.kind
  name := version.name

/-- The versions of a workspace. -/
def workspaceVersions (versions : List (InventoryResourceVersion κ χ)) (workspaceId : String) :
    List (InventoryResourceVersion κ χ) :=
  versions.filter fun version => decide (version.workspaceId = workspaceId)

/-- The committed revisions of a workspace are not later than this one. -/
def RevisionsLe (revisions : List InventoryFilterRevision) (workspaceId : String) (now : ℕ) :
    Prop :=
  ∀ row ∈ revisions, row.workspaceId = workspaceId → row.revisionId ≤ now

/-- What the committed tables satisfy. In one workspace the versions are a lawful history
at the time of its latest revision. -/
structure CommittedLaw (db : Database encoding) : Prop where
  revision_pos : ∀ row ∈ db.revisions, 0 < row.revisionId
  revision_le : ∀ row ∈ db.revisions, row.revisionId ≤ db.revisionSeq
  history : ∀ workspaceId now, RevisionsLe db.revisions workspaceId now →
    (versioning κ χ).Lawful now (workspaceVersions db.versions workspaceId)
  ids : (db.versions.map fun version => version.versionId).Nodup
  id_le : ∀ version ∈ db.versions, version.versionId ≤ db.versionSeq
  keyed : ∀ version ∈ db.versions,
    version.inventoryKey = encoding.inventoryKey version.identity
  recorded : ∀ version ∈ db.versions, ∃ row ∈ db.revisions,
    row.workspaceId = version.workspaceId ∧ row.clusterId = version.clusterId ∧
      row.revisionId = version.validFromRevision

/-- What an open transaction satisfies. Its revision is later than every committed one of
its workspace, and its diff is still the one it would compute now. -/
structure TransactionLaw (db : Database encoding) (tx : SnapshotTransaction encoding) : Prop where
  locked : ∀ revisionId, tx.revisionId = some revisionId → tx.locked = true
  revision_pos : ∀ revisionId, tx.revisionId = some revisionId → 0 < revisionId
  revision_le : ∀ revisionId, tx.revisionId = some revisionId → revisionId ≤ db.revisionSeq
  latest : ∀ revisionId, tx.revisionId = some revisionId →
    ∀ row ∈ db.revisions, row.workspaceId = tx.input.workspaceId → row.revisionId < revisionId
  planned : ∀ diff, tx.diff = some diff →
    diff = computeProjectionDiff encoding db.versions tx.cut.rows tx.input

variable (lockKey) in
/-- The invariant of the database. -/
structure DatabaseLaw (db : Database encoding) : Prop where
  exclusive : Exclusive lockKey db
  committed : CommittedLaw db
  transactions : ∀ tx ∈ db.transactions.rows, TransactionLaw db tx

omit [DecidableEq κ] [DecidableEq χ] in
theorem CommittedLaw.ready (hlaw : CommittedLaw db) (workspaceId clusterId : String) :
    DiffReady db.versions workspaceId clusterId := by
  have hlawful := hlaw.history workspaceId db.revisionSeq fun row hrow _ =>
    hlaw.revision_le row hrow
  refine ⟨hlaw.ids, fun v hv w hw hav haw hkey => ?_⟩
  obtain ⟨hwv, -, hov⟩ := InventoryResourceVersion.activeIn_iff.mp hav
  obtain ⟨hww, -, how⟩ := InventoryResourceVersion.activeIn_iff.mp haw
  exact hlawful.eq_of_open (List.mem_filter.mpr ⟨hv, decide_eq_true hwv⟩)
    (List.mem_filter.mpr ⟨hw, decide_eq_true hww⟩) hov how hkey

/-! ## A commit -/

variable {tx : SnapshotTransaction encoding} {revisionId : ℕ}

/-- The diff that a transaction would compute now. -/
def SnapshotTransaction.plan (db : Database encoding) (tx : SnapshotTransaction encoding) :
    ProjectionDiff κ χ :=
  computeProjectionDiff encoding db.versions tx.cut.rows tx.input

/-- What a commit writes belongs to the transaction's cluster, under its revision, keyed by
its identity. -/
structure WrittenBy (tx : SnapshotTransaction encoding) (revisionId : ℕ)
    (version : InventoryResourceVersion κ χ) : Prop where
  workspaceId : version.workspaceId = tx.input.workspaceId
  clusterId : version.clusterId = tx.input.clusterId
  validFrom : version.validFromRevision = revisionId
  keyed : version.inventoryKey = encoding.inventoryKey version.identity

theorem writtenBy_of_mem (hlaw : CommittedLaw db) {versionSeq : ℕ}
    {version : InventoryResourceVersion κ χ}
    (h : version ∈ newVersions revisionId versionSeq (tx.plan db)) :
    WrittenBy tx revisionId version := by
  obtain ⟨row, hrow, -, heq⟩ := row_of_mem_newVersions (hlaw.ready _ _) h
  obtain ⟨hmem, hlive⟩ := List.mem_filter.mp hrow
  obtain ⟨hworkspace, hcluster, -⟩ :=
    ResourceRecord.liveIn_iff.mp (Bool.and_eq_true_iff.mp hlive).1
  rw [heq]
  exact ⟨hworkspace, hcluster, rfl, tx.cut.wellKeyed row hmem⟩

theorem activeIn_of_closes (hlaw : CommittedLaw db) {version : InventoryResourceVersion κ χ}
    (hversion : version ∈ db.versions) (hcloses : (tx.plan db).closes version = true) :
    version.activeIn tx.input.workspaceId tx.input.clusterId = true :=
  ((closes_iff (hlaw.ready _ _) hversion).mp hcloses).1

/-- **What a transaction commits is an allowed commit.** -/
theorem allowed_plan (hlaw : CommittedLaw db) (versionSeq : ℕ) :
    (versioning κ χ).Allowed db.versions (tx.plan db).closes revisionId
      (newVersions revisionId versionSeq (tx.plan db)) := by
  refine allowed_diff (hlaw.ready _ _) (fun row hrow version hversion hopen hkey => ?_) _ _
  obtain ⟨hmem, hlive⟩ := List.mem_filter.mp hrow
  obtain ⟨hworkspace, hcluster, -⟩ :=
    ResourceRecord.liveIn_iff.mp (Bool.and_eq_true_iff.mp hlive).1
  have hidentity : version.identity = row.identity := encoding.inventoryKey_injective
    ((hlaw.keyed version hversion).symm.trans (hkey.trans (tx.cut.wellKeyed row hmem)))
  exact InventoryResourceVersion.activeIn_iff.mpr
    ⟨(congrArg ResourceIdentity.workspaceId hidentity).trans hworkspace,
      (congrArg ResourceIdentity.clusterId hidentity).trans hcluster, hopen⟩

omit [DecidableEq κ] [DecidableEq χ] in
theorem versions_commit (diff : ProjectionDiff κ χ) :
    (db.commit tx diff revisionId).versions =
      (versioning κ χ).commit db.versions diff.closes revisionId
        (newVersions revisionId db.versionSeq diff) := rfl

theorem workspaceVersions_commit_of_ne (hlaw : CommittedLaw db) {workspaceId : String}
    (hne : workspaceId ≠ tx.input.workspaceId) :
    workspaceVersions (db.commit tx (tx.plan db) revisionId).versions workspaceId =
      workspaceVersions db.versions workspaceId := by
  rw [workspaceVersions, versions_commit]
  refine Versioning.filter_commit_of_not (fun v hv hc => ?_) fun v hv => ?_
  · have hin := (InventoryResourceVersion.activeIn_iff.mp (activeIn_of_closes hlaw hv hc)).1
    have hother : v.workspaceId ≠ workspaceId := fun h => hne (h.symm.trans hin)
    exact ⟨decide_eq_false hother, decide_eq_false hother⟩
  · exact decide_eq_false fun h => hne (h.symm.trans (writtenBy_of_mem hlaw hv).workspaceId)

theorem workspaceVersions_commit_self (hlaw : CommittedLaw db) :
    workspaceVersions (db.commit tx (tx.plan db) revisionId).versions tx.input.workspaceId =
      (versioning κ χ).commit (workspaceVersions db.versions tx.input.workspaceId)
        (tx.plan db).closes revisionId (newVersions revisionId db.versionSeq (tx.plan db)) := by
  rw [workspaceVersions, versions_commit]
  refine Versioning.filter_commit_of_forall (fun _ => ?_) fun v hv => ?_
  · rfl
  · exact decide_eq_true (writtenBy_of_mem hlaw hv).workspaceId

theorem active_commit_of_ne (hlaw : CommittedLaw db) (revisionId : ℕ)
    {workspaceId clusterId : String}
    (hne : ¬ (workspaceId = tx.input.workspaceId ∧ clusterId = tx.input.clusterId)) :
    ((db.commit tx (tx.plan db) revisionId).versions.filter fun version =>
        version.activeIn workspaceId clusterId) =
      db.versions.filter fun version => version.activeIn workspaceId clusterId := by
  rw [versions_commit]
  refine Versioning.filter_commit_of_not (fun v hv hc => ⟨?_, ?_⟩) fun v hv => ?_
  · obtain ⟨hworkspace, hcluster, -⟩ :=
      InventoryResourceVersion.activeIn_iff.mp (activeIn_of_closes hlaw hv hc)
    refine Bool.eq_false_iff.mpr fun hin => ?_
    obtain ⟨hworkspace', hcluster', -⟩ := InventoryResourceVersion.activeIn_iff.mp hin
    exact hne ⟨hworkspace'.symm.trans hworkspace, hcluster'.symm.trans hcluster⟩
  · refine Bool.eq_false_iff.mpr fun hin => ?_
    cases (InventoryResourceVersion.activeIn_iff.mp hin).2.2
  · refine Bool.eq_false_iff.mpr fun hin => ?_
    obtain ⟨hworkspace, hcluster, -⟩ := InventoryResourceVersion.activeIn_iff.mp hin
    have hwritten := writtenBy_of_mem hlaw hv
    exact hne ⟨hworkspace.symm.trans hwritten.workspaceId,
      hcluster.symm.trans hwritten.clusterId⟩

/-- **A commit keeps the law of the committed tables.** -/
theorem CommittedLaw.commit (hlaw : CommittedLaw db) (htx : TransactionLaw db tx)
    (hrevision : tx.revisionId = some revisionId) :
    CommittedLaw (db.commit tx (tx.plan db) revisionId) := by
  obtain ⟨hids, hle⟩ := versionIds_commit (tx.plan db).closes revisionId (tx.plan db) hlaw.ids
    hlaw.id_le
  refine ⟨fun row hrow => ?_, fun row hrow => ?_, fun workspaceId now hnow => ?_, hids, hle,
    fun version hversion => ?_, fun version hversion => ?_⟩
  · rcases List.mem_append.mp hrow with hrow | hrow
    · exact hlaw.revision_pos row hrow
    · rw [List.mem_singleton.mp hrow]
      exact htx.revision_pos revisionId hrevision
  · rcases List.mem_append.mp hrow with hrow | hrow
    · exact hlaw.revision_le row hrow
    · rw [List.mem_singleton.mp hrow]
      exact htx.revision_le revisionId hrevision
  · by_cases hw : workspaceId = tx.input.workspaceId
    · -- the transaction's workspace moves on to its revision
      subst hw
      have hpos := htx.revision_pos revisionId hrevision
      have hbefore := hlaw.history tx.input.workspaceId (revisionId - 1) fun row hrow hworkspace =>
        Nat.le_sub_one_of_lt (htx.latest revisionId hrevision row hrow hworkspace)
      have hallowed : (versioning κ χ).Allowed
          (workspaceVersions db.versions tx.input.workspaceId) (tx.plan db).closes revisionId
          (newVersions revisionId db.versionSeq (tx.plan db)) :=
        (allowed_plan hlaw db.versionSeq).of_subset (List.filter_subset_self _)
      have hafter := hbefore.commit hallowed (Nat.sub_one_lt_of_lt hpos)
      rw [workspaceVersions_commit_self hlaw]
      exact hafter.mono (hnow _ (List.mem_append_right _ (List.mem_singleton_self _)) rfl)
    · rw [workspaceVersions_commit_of_ne hlaw hw]
      exact hlaw.history workspaceId now fun row hrow => hnow row (List.mem_append_left _ hrow)
  · rw [versions_commit] at hversion
    obtain ⟨old, hold, stop, rfl⟩ | hnew := mem_commitVersions hversion
    · exact hlaw.keyed old hold
    · exact (writtenBy_of_mem hlaw hnew).keyed
  · rw [versions_commit] at hversion
    obtain ⟨old, hold, stop, rfl⟩ | hnew := mem_commitVersions hversion
    · obtain ⟨row, hrow, hrecorded⟩ := hlaw.recorded old hold
      exact ⟨row, List.mem_append_left _ hrow, hrecorded⟩
    · have hwritten := writtenBy_of_mem hlaw hnew
      exact ⟨_, List.mem_append_right _ (List.mem_singleton_self _), hwritten.workspaceId.symm,
        hwritten.clusterId.symm, hwritten.validFrom.symm⟩

/-- **A commit keeps the law of every other open transaction**: it is not in its cluster,
and in its workspace only if the other has no revision yet. -/
theorem TransactionLaw.commit (hlaw : DatabaseLaw lockKey db)
    (htx : tx ∈ db.transactions.rows) (hrevision : tx.revisionId = some revisionId)
    {other : SnapshotTransaction encoding} (hother : other ∈ db.transactions.rows)
    (hne : other.session ≠ tx.session) :
    TransactionLaw (db.commit tx (tx.plan db) revisionId) other := by
  have hold := hlaw.transactions other hother
  refine ⟨hold.locked, hold.revision_pos, hold.revision_le, fun r hr row hrow hworkspace => ?_,
    fun diff hdiff => ?_⟩
  · rcases List.mem_append.mp hrow with hrow | hrow
    · exact hold.latest r hr row hrow hworkspace
    · rw [List.mem_singleton.mp hrow] at hworkspace
      exact absurd hworkspace.symm (hlaw.exclusive.workspace_ne hother htx hne
        (hold.locked r hr) ((hlaw.transactions tx htx).locked revisionId hrevision))
  · rw [hold.planned diff hdiff]
    have hactive := active_commit_of_ne hlaw.committed revisionId
      (hlaw.exclusive.cluster_ne hother htx hne)
    simp only [computeProjectionDiff, changedRows, goneRows, activeRows, hactive]

/-! ## Runs -/

/-- What a step leaves of the committed tables when it does not commit. -/
structure SameTables (db next : Database encoding) : Prop where
  tables : next.toFilterTables = db.toFilterTables
  versionSeq : next.versionSeq = db.versionSeq
  revisionSeq : db.revisionSeq ≤ next.revisionSeq

omit [DecidableEq κ] [DecidableEq χ] in
theorem CommittedLaw.same (hlaw : CommittedLaw db) {next : Database encoding}
    (hsame : SameTables db next) : CommittedLaw next := by
  have hrevisions : next.revisions = db.revisions :=
    congrArg FilterTables.revisions hsame.tables
  have hversions : next.versions = db.versions := congrArg FilterTables.versions hsame.tables
  refine ⟨?_, ?_, ?_, ?_, ?_, ?_, ?_⟩
  · rw [hrevisions]
    exact hlaw.revision_pos
  · rw [hrevisions]
    exact fun row hrow => (hlaw.revision_le row hrow).trans hsame.revisionSeq
  · rw [hrevisions, hversions]
    exact hlaw.history
  · rw [hversions]
    exact hlaw.ids
  · rw [hversions, hsame.versionSeq]
    exact hlaw.id_le
  · rw [hversions]
    exact hlaw.keyed
  · rw [hrevisions, hversions]
    exact hlaw.recorded

theorem TransactionLaw.same (hlaw : TransactionLaw db tx) {next : Database encoding}
    (hsame : SameTables db next) : TransactionLaw next tx := by
  have hrevisions : next.revisions = db.revisions :=
    congrArg FilterTables.revisions hsame.tables
  have hversions : next.versions = db.versions := congrArg FilterTables.versions hsame.tables
  refine ⟨hlaw.locked, hlaw.revision_pos,
    fun r hr => (hlaw.revision_le r hr).trans hsame.revisionSeq, ?_, ?_⟩
  · rw [hrevisions]
    exact hlaw.latest
  · rw [hversions]
    exact hlaw.planned

theorem TransactionLaw.of_new (hnew : IsNew tx) : TransactionLaw db tx := by
  have hnone : ∀ r, tx.revisionId ≠ some r := fun r hr => by
    rw [hnew.revisionId] at hr
    cases hr
  refine ⟨fun r hr => absurd hr (hnone r), fun r hr => absurd hr (hnone r),
    fun r hr => absurd hr (hnone r), fun r hr => absurd hr (hnone r), fun d hd => ?_⟩
  rw [hnew.diff] at hd
  cases hd

/-- **Every step keeps the law of the database.** -/
theorem DatabaseLaw.stepped (hlaw : DatabaseLaw lockKey db) {next : Database encoding}
    (hstep : Stepped lockKey db next) : DatabaseLaw lockKey next := by
  refine ⟨hlaw.exclusive.stepped hstep, ?_, ?_⟩
  · cases hstep with
    | same => exact hlaw.committed
    | started tx _ _ _ => exact hlaw.committed.same ⟨rfl, rfl, le_rfl⟩
    | diffed tx _ => exact hlaw.committed.same ⟨rfl, rfl, le_rfl⟩
    | locked tx _ _ => exact hlaw.committed.same ⟨rfl, rfl, le_rfl⟩
    | allocated tx _ _ _ => exact hlaw.committed.same ⟨rfl, rfl, Nat.le_succ _⟩
    | ended session => exact hlaw.committed.same ⟨rfl, rfl, le_rfl⟩
    | committed tx diff revisionId htx hdiff hrevision =>
      have hold := hlaw.transactions tx (Table.mem_of_find? htx)
      obtain rfl := hold.planned diff hdiff
      exact hlaw.committed.commit hold hrevision
  · cases hstep with
    | same => exact hlaw.transactions
    | started tx hnew _ _ =>
      intro other hother
      have hold : TransactionLaw db other := by
        rcases Table.mem_put hother with rfl | ⟨hother, -⟩
        · exact .of_new hnew
        · exact hlaw.transactions other hother
      exact hold.same ⟨rfl, rfl, le_rfl⟩
    | diffed tx htx =>
      intro other hother
      have hold : TransactionLaw db other := by
        rcases mem_update hother with ⟨hother, -⟩ | ⟨old, hold, hs, rfl⟩
        · exact hlaw.transactions other hother
        · obtain rfl := List.inj_on_of_nodup_map db.transactions.nodup hold
            (Table.mem_of_find? htx) hs
          have hlaw' := hlaw.transactions old hold
          exact ⟨hlaw'.locked, hlaw'.revision_pos, hlaw'.revision_le, hlaw'.latest,
            fun diff hdiff => (Option.some.inj hdiff).symm⟩
      exact hold.same ⟨rfl, rfl, le_rfl⟩
    | locked tx htx _ =>
      intro other hother
      have hold : TransactionLaw db other := by
        rcases mem_update hother with ⟨hother, -⟩ | ⟨old, hold, hs, rfl⟩
        · exact hlaw.transactions other hother
        · have hlaw' := hlaw.transactions old hold
          exact ⟨fun _ _ => rfl, hlaw'.revision_pos, hlaw'.revision_le, hlaw'.latest,
            hlaw'.planned⟩
      exact hold.same ⟨rfl, rfl, le_rfl⟩
    | allocated tx htx hlocked hnone =>
      intro other hother
      have hupdate : other ∈ (db.update tx.session
          (SnapshotTransaction.withRevision (db.revisionSeq + 1))
          (SnapshotTransaction.session_withRevision _)).transactions.rows := hother
      rcases mem_update hupdate with ⟨hother, -⟩ | ⟨old, hold, hs, rfl⟩
      · exact (hlaw.transactions other hother).same ⟨rfl, rfl, Nat.le_succ _⟩
      · -- the new revision is later than every revision there is
        obtain rfl := List.inj_on_of_nodup_map db.transactions.nodup hold
          (Table.mem_of_find? htx) hs
        have hlaw' := hlaw.transactions old hold
        have heq : ∀ r, (old.withRevision (db.revisionSeq + 1)).revisionId = some r →
            r = db.revisionSeq + 1 := fun r hr => (Option.some.inj hr).symm
        refine ⟨fun _ _ => hlocked, fun r hr => ?_, fun r hr => (heq r hr).le,
          fun r hr row hrow _ => ?_, hlaw'.planned⟩
        · rw [heq r hr]
          exact Nat.succ_pos _
        · rw [heq r hr]
          exact Nat.lt_succ_of_le (hlaw.committed.revision_le row hrow)
    | ended session =>
      intro other hother
      exact (hlaw.transactions other (Table.mem_of_mem_erase hother)).same ⟨rfl, rfl, le_rfl⟩
    | committed tx diff revisionId htx hdiff hrevision =>
      have hmem := Table.mem_of_find? htx
      obtain rfl := (hlaw.transactions tx hmem).planned diff hdiff
      intro other hother
      have hne : other.session ≠ tx.session := by
        have herased := (List.mem_filter.mp hother).2
        exact of_decide_eq_true herased
      exact TransactionLaw.commit hlaw hmem hrevision (Table.mem_of_mem_erase hother) hne

theorem DatabaseLaw.empty : DatabaseLaw lockKey (Database.empty : Database encoding) := by
  refine ⟨nofun, ⟨nofun, nofun, fun _ now _ => ?_, List.nodup_nil, nofun, nofun, nofun⟩, nofun⟩
  exact Versioning.Lawful.nil now

variable (lockKey) in
/-- The database after a run of statements. -/
def Database.after (db : Database encoding) (actions : List (DatabaseAction encoding)) :
    Database encoding :=
  Runs.run (Database.step lockKey) db actions

theorem DatabaseLaw.after (hlaw : DatabaseLaw lockKey db)
    (actions : List (DatabaseAction encoding)) :
    DatabaseLaw lockKey (db.after lockKey actions) :=
  Runs.run_invariant (fun _ action hlaw => hlaw.stepped (step_cases _ action)) hlaw actions

/-- **Transactions that interleave keep every history lawful**, with version ids of its own and
versions that begin at a committed revision of their cluster. -/
theorem history_after (actions : List (DatabaseAction encoding)) (workspaceId : String) :
    let db : Database encoding := Database.empty.after lockKey actions
    (versioning κ χ).Lawful db.revisionSeq (workspaceVersions db.versions workspaceId) ∧
      (db.versions.map fun version => version.versionId).Nodup ∧
      ∀ version ∈ db.versions, ∃ row ∈ db.revisions, row.workspaceId = version.workspaceId ∧
        row.clusterId = version.clusterId ∧ row.revisionId = version.validFromRevision := by
  have hlaw := (DatabaseLaw.empty : DatabaseLaw lockKey (Database.empty : Database encoding)).after
    actions
  exact ⟨hlaw.committed.history workspaceId _ fun row hrow _ => hlaw.committed.revision_le row hrow,
    hlaw.committed.ids, hlaw.committed.recorded⟩

/-- **The late lock loses nothing**: what an open transaction has planned is what it would plan now,
and its revision is the latest of its workspace. -/
theorem planned_after (actions : List (DatabaseAction encoding)) :
    let db : Database encoding := Database.empty.after lockKey actions
    Exclusive lockKey db ∧ ∀ tx ∈ db.transactions.rows, TransactionLaw db tx := by
  have hlaw := (DatabaseLaw.empty : DatabaseLaw lockKey (Database.empty : Database encoding)).after
    actions
  exact ⟨hlaw.exclusive, hlaw.transactions⟩

end Law

end Opsia.Inventory
