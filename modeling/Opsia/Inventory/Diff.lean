import Opsia.Inventory.Projection

/-!
# What the diff decides

The lemmas about `_compute_projection_diff` and `_write_projection_versions` for any
version table, any rows and any input: which versions a diff closes (`closes_iff`), which
it inserts (`mem_desiredRows`), and that writing it is an allowed commit of the versioned
table (`allowed_diff`). They need that identifiers are not reused and that a key has one
open version in the cluster.
-/

namespace Opsia.Inventory

variable {κ χ : Type} {encoding : Encoding κ χ}

/-! ## Stamped versions -/

variable {version : InventoryResourceVersion κ χ}

theorem mem_stamp {revisionId versionSeq : ℕ} {rows : List (InventoryResourceVersion κ χ)}
    (h : version ∈ stamp revisionId versionSeq rows) :
    ∃ row ∈ rows, version =
        { row with versionId := version.versionId, validFromRevision := revisionId } ∧
      versionSeq < version.versionId ∧ version.versionId ≤ versionSeq + rows.length := by
  induction rows generalizing versionSeq with
  | nil => cases h
  | cons row rows ih =>
    rcases List.mem_cons.mp h with rfl | h
    · exact ⟨row, List.mem_cons_self, rfl, Nat.lt_succ_self _, by simp⟩
    · obtain ⟨row', hrow', heq, hlt, hle⟩ := ih h
      refine ⟨row', List.mem_cons_of_mem _ hrow', heq, by omega, ?_⟩
      rw [List.length_cons]
      omega

theorem exists_stamp (revisionId versionSeq : ℕ) {rows : List (InventoryResourceVersion κ χ)}
    {row : InventoryResourceVersion κ χ} (h : row ∈ rows) :
    ∃ version ∈ stamp revisionId versionSeq rows, version =
      { row with versionId := version.versionId, validFromRevision := revisionId } := by
  induction rows generalizing versionSeq with
  | nil => cases h
  | cons first rows ih =>
    rcases List.mem_cons.mp h with rfl | h
    · exact ⟨_, List.mem_cons_self, rfl⟩
    · obtain ⟨version, hversion, heq⟩ := ih (versionSeq + 1) h
      exact ⟨version, List.mem_cons_of_mem _ hversion, heq⟩

theorem map_inventoryKey_stamp (revisionId versionSeq : ℕ)
    (rows : List (InventoryResourceVersion κ χ)) :
    (stamp revisionId versionSeq rows).map (fun version => version.inventoryKey) =
      rows.map fun row => row.inventoryKey := by
  induction rows generalizing versionSeq with
  | nil => rfl
  | cons row rows ih => rw [stamp, List.map_cons, List.map_cons, ih]

theorem nodup_versionId_stamp (revisionId versionSeq : ℕ)
    (rows : List (InventoryResourceVersion κ χ)) :
    ((stamp revisionId versionSeq rows).map fun version => version.versionId).Nodup := by
  induction rows generalizing versionSeq with
  | nil => exact List.nodup_nil
  | cons row rows ih =>
    refine List.nodup_cons.mpr ⟨fun h => ?_, ih (versionSeq + 1)⟩
    obtain ⟨version, hversion, hid⟩ := List.mem_map.mp h
    obtain ⟨-, -, -, hlt, -⟩ := mem_stamp hversion
    change version.versionId = versionSeq + 1 at hid
    omega

/-! ## Active versions -/

/-- What the diff needs of the version table: an identifier names one version, and a key
has one open version in the cluster. -/
structure DiffReady (versions : List (InventoryResourceVersion κ χ))
    (workspaceId clusterId : String) : Prop where
  ids : (versions.map fun version => version.versionId).Nodup
  open_unique : ∀ v ∈ versions, ∀ w ∈ versions, v.activeIn workspaceId clusterId = true →
    w.activeIn workspaceId clusterId = true → v.inventoryKey = w.inventoryKey → v = w

variable [DecidableEq κ] {versions : List (InventoryResourceVersion κ χ)}
  {resources : InventoryRows κ} {input : ProjectionInput}

variable {clusterId workspaceId : String}

theorem rows_activeRows (hready : DiffReady versions workspaceId clusterId) :
    (activeRows versions workspaceId clusterId).rows =
      versions.filter fun version => version.activeIn workspaceId clusterId := by
  refine (Table.rows_foldl_put ?_).trans (List.nil_append _)
  rw [Table.rows_empty, List.nil_append]
  refine List.Nodup.map_on (fun v hv w hw hkey => ?_) ((List.Nodup.of_map _ hready.ids).filter _)
  obtain ⟨hv, hav⟩ := List.mem_filter.mp hv
  obtain ⟨hw, haw⟩ := List.mem_filter.mp hw
  exact hready.open_unique v hv w hw hav haw hkey

theorem find?_activeRows (hready : DiffReady versions workspaceId clusterId)
    (hversion : version ∈ versions) (hactive : version.activeIn workspaceId clusterId = true) :
    (activeRows versions workspaceId clusterId).find? version.inventoryKey = some version := by
  have hmem : version ∈ (activeRows versions workspaceId clusterId).rows := by
    rw [rows_activeRows hready]
    exact List.mem_filter.mpr ⟨hversion, hactive⟩
  exact Table.find?_of_mem hmem

theorem all_find?_activeRows (hready : DiffReady versions workspaceId clusterId) (key : κ)
    (p : InventoryResourceVersion κ χ → Bool) :
    ((activeRows versions workspaceId clusterId).find? key).all p = true ↔
      ∀ version ∈ versions, version.activeIn workspaceId clusterId = true →
        version.inventoryKey = key → p version = true := by
  constructor
  · intro h version hversion hactive hkey
    rw [← hkey, find?_activeRows hready hversion hactive] at h
    exact h
  · intro h
    rcases hf : (activeRows versions workspaceId clusterId).find? key with _ | version
    · rfl
    · have hmem := Table.mem_of_find? hf
      have hkey := Table.key_of_find? hf
      rw [rows_activeRows hready] at hmem
      obtain ⟨hversion, hactive⟩ := List.mem_filter.mp hmem
      exact h version hversion hactive hkey

/-! ## The decisions -/

variable (encoding) in
/-- The hash under which a row would be shown. -/
def newHash (input : ProjectionInput) (row : ResourceRecord κ) : χ :=
  encoding.contentHash (meaningfulOf encoding input.bindings row)

variable (encoding) in
/-- A row is not shown yet: no open version of its key has its hash. -/
def NotShown (versions : List (InventoryResourceVersion κ χ)) (input : ProjectionInput)
    (row : ResourceRecord κ) : Prop :=
  ∀ version ∈ versions, version.activeIn input.workspaceId input.clusterId = true →
    version.inventoryKey = row.inventoryKey → version.contentHash ≠ newHash encoding input row

/-- The key is among those of the current rows. -/
def IsCurrent (resources : InventoryRows κ) (input : ProjectionInput) (key : κ) : Prop :=
  ∃ row ∈ currentRows resources input, row.inventoryKey = key

theorem mem_goneRows (hready : DiffReady versions input.workspaceId input.clusterId) :
    version ∈ goneRows versions resources input ↔
      version ∈ versions ∧ version.activeIn input.workspaceId input.clusterId = true ∧
        ¬ IsCurrent resources input version.inventoryKey ∧
        missingProjectionResourceDeleteSafe input version = true := by
  rw [goneRows, List.mem_filter, rows_activeRows hready, List.mem_filter, and_assoc,
    Bool.and_eq_true]
  refine and_congr_right fun _ => and_congr_right fun _ => and_congr_left fun _ => ?_
  exact decide_eq_true_iff.trans (not_congr List.mem_map)

variable [DecidableEq χ]

theorem mem_changedRows (hready : DiffReady versions input.workspaceId input.clusterId)
    {row : ResourceRecord κ} :
    row ∈ changedRows encoding versions resources input ↔
      row ∈ currentRows resources input ∧ NotShown encoding versions input row := by
  rw [changedRows, List.mem_filter]
  refine and_congr_right fun _ => ?_
  refine (all_find?_activeRows hready row.inventoryKey _).trans ?_
  constructor
  · intro h version hversion hactive hkey
    exact of_decide_eq_true (h version hversion hactive hkey)
  · intro h version hversion hactive hkey
    exact decide_eq_true (h version hversion hactive hkey)

/-- **What the diff inserts**: a version of each current row that is not shown. -/
theorem mem_desiredRows (hready : DiffReady versions input.workspaceId input.clusterId) :
    version ∈ (computeProjectionDiff encoding versions resources input).desiredRows ↔
      ∃ row ∈ currentRows resources input, NotShown encoding versions input row ∧
        versionRow encoding input.bindings input.snapshotId row = version := by
  refine List.mem_map.trans (exists_congr fun row => ?_)
  rw [mem_changedRows hready, and_assoc]

/-- **What the diff closes**: the open versions of the cluster whose row has another
content now, and those whose row is missing where absence means deletion. -/
theorem closes_iff (hready : DiffReady versions input.workspaceId input.clusterId)
    (hversion : version ∈ versions) :
    (computeProjectionDiff encoding versions resources input).closes version = true ↔
      version.activeIn input.workspaceId input.clusterId = true ∧
        ((∃ row ∈ currentRows resources input, row.inventoryKey = version.inventoryKey ∧
            version.contentHash ≠ newHash encoding input row) ∨
          (¬ IsCurrent resources input version.inventoryKey ∧
            missingProjectionResourceDeleteSafe input version = true)) := by
  have hids : ∀ other ∈ versions, other.versionId = version.versionId → other = version :=
    fun other hother hid => List.inj_on_of_nodup_map hready.ids hother hversion hid
  rw [ProjectionDiff.closes, Bool.and_eq_true, decide_eq_true_iff, computeProjectionDiff,
    List.mem_append, List.mem_filterMap, List.mem_map]
  constructor
  · rintro ⟨⟨row, hrow, hfound⟩ | ⟨gone, hgone, hid⟩, -⟩
    · obtain ⟨active, hactive, hid⟩ := Option.map_eq_some_iff.mp hfound
      have hkey := Table.key_of_find? hactive
      have hmem := Table.mem_of_find? hactive
      rw [rows_activeRows hready] at hmem
      obtain ⟨hmem, hin⟩ := List.mem_filter.mp hmem
      obtain ⟨hrow, hnot⟩ := (mem_changedRows hready).mp hrow
      obtain rfl := hids active hmem hid
      exact ⟨hin, Or.inl ⟨row, hrow, hkey.symm, hnot active hmem hin hkey⟩⟩
    · obtain ⟨hmem, hin, hmissing, hsafe⟩ := (mem_goneRows hready).mp hgone
      obtain rfl := hids gone hmem hid
      exact ⟨hin, Or.inr ⟨hmissing, hsafe⟩⟩
  · rintro ⟨hin, hwhy⟩
    have hopen := (InventoryResourceVersion.activeIn_iff.mp hin).2.2
    refine ⟨?_, by rw [hopen]; rfl⟩
    rcases hwhy with ⟨row, hrow, hkey, hne⟩ | ⟨hmissing, hsafe⟩
    · refine Or.inl ⟨row, (mem_changedRows hready).mpr ⟨hrow, ?_⟩, ?_⟩
      · -- the open version of the key is this one
        intro other hother hactive hkey'
        obtain rfl := hready.open_unique other hother version hversion hactive hin
          (hkey'.trans hkey)
        exact hne
      · rw [hkey]
        exact congrArg _ (find?_activeRows hready hversion hin)
    · exact Or.inr ⟨version, (mem_goneRows hready).mpr ⟨hversion, hin, hmissing, hsafe⟩, rfl⟩

/-! ## Writing the diff -/

/-- The new versions of a diff, under one revision. -/
def newVersions (revisionId versionSeq : ℕ) (diff : ProjectionDiff κ χ) :
    List (InventoryResourceVersion κ χ) :=
  stamp revisionId versionSeq diff.desiredRows

section
variable {closing : InventoryResourceVersion κ χ → Bool} {revisionId versionSeq : ℕ}
  {diff : ProjectionDiff κ χ}
omit [DecidableEq κ] [DecidableEq χ]

/-- What is in the table after a commit was there, and may be closed, or is new. -/
theorem mem_commitVersions (h : version ∈ (versioning κ χ).commit versions closing revisionId
      (newVersions revisionId versionSeq diff)) :
    (∃ old ∈ versions, ∃ stop, version = { old with validToRevision := stop }) ∨
      version ∈ newVersions revisionId versionSeq diff := by
  refine (Versioning.mem_commit.mp h).imp_left ?_
  rintro ⟨old, hold, rfl⟩
  rw [Versioning.closeIf]
  split
  · exact ⟨old, hold, some revisionId, rfl⟩
  · exact ⟨old, hold, old.validToRevision, rfl⟩

variable (closing revisionId diff) in
/-- **A commit draws ids of its own.** -/
theorem versionIds_commit (hids : (versions.map fun version => version.versionId).Nodup)
    (hle : ∀ version ∈ versions, version.versionId ≤ versionSeq) :
    (((versioning κ χ).commit versions closing revisionId
        (newVersions revisionId versionSeq diff)).map fun version => version.versionId).Nodup ∧
      ∀ version ∈ (versioning κ χ).commit versions closing revisionId
        (newVersions revisionId versionSeq diff),
        version.versionId ≤ versionSeq + diff.desiredRows.length := by
  constructor
  · have hold : (versions.map ((versioning κ χ).closeIf closing revisionId)).map
        (fun version => version.versionId) = versions.map fun version => version.versionId := by
      rw [List.map_map]
      refine List.map_congr_left fun version _ => ?_
      rw [Function.comp_apply, Versioning.closeIf]
      split <;> rfl
    rw [Versioning.commit, List.map_append, hold, List.nodup_append]
    refine ⟨hids, nodup_versionId_stamp _ _ _, fun id hid id' hid' heq => ?_⟩
    obtain ⟨version, hversion, rfl⟩ := List.mem_map.mp hid
    obtain ⟨new, hnew, rfl⟩ := List.mem_map.mp hid'
    obtain ⟨-, -, -, hlt, -⟩ := mem_stamp hnew
    have := hle version hversion
    omega
  · intro version hversion
    obtain ⟨old, hold, stop, rfl⟩ | hnew := mem_commitVersions hversion
    · exact (hle old hold).trans (Nat.le_add_right _ _)
    · obtain ⟨-, -, -, -, hlast⟩ := mem_stamp hnew
      exact hlast

end

theorem row_of_mem_newVersions (hready : DiffReady versions input.workspaceId input.clusterId)
    {revisionId versionSeq : ℕ} (h : version ∈ newVersions revisionId versionSeq
      (computeProjectionDiff encoding versions resources input)) :
    ∃ row ∈ currentRows resources input, NotShown encoding versions input row ∧
      version =
        { versionRow encoding input.bindings input.snapshotId row with
          versionId := version.versionId
          validFromRevision := revisionId } := by
  obtain ⟨desired, hdesired, heq, -⟩ := mem_stamp h
  obtain ⟨row, hrow, hnot, rfl⟩ := (mem_desiredRows hready).mp hdesired
  exact ⟨row, hrow, hnot, heq⟩

/-- **Writing the diff is an allowed commit**, when every open version of a current key is
in the cluster. -/
theorem allowed_diff (hready : DiffReady versions input.workspaceId input.clusterId)
    (hcluster : ∀ row ∈ currentRows resources input, ∀ version ∈ versions,
      version.validToRevision = none → version.inventoryKey = row.inventoryKey →
      version.activeIn input.workspaceId input.clusterId = true) (revisionId versionSeq : ℕ) :
    (versioning κ χ).Allowed versions
      (computeProjectionDiff encoding versions resources input).closes revisionId
      (newVersions revisionId versionSeq
        (computeProjectionDiff encoding versions resources input)) where
  closing_open version hversion hcloses :=
    (InventoryResourceVersion.activeIn_iff.mp ((closes_iff hready hversion).mp hcloses).1).2.2
  new_start version hversion := by
    obtain ⟨row, -, -, heq⟩ := row_of_mem_newVersions hready hversion
    rw [heq]
    rfl
  new_open version hversion := by
    obtain ⟨row, -, -, heq⟩ := row_of_mem_newVersions hready hversion
    rw [heq]
    rfl
  new_keys := by
    -- the desired rows are rows of a keyed table
    change ((stamp _ _ _).map fun version => version.inventoryKey).Nodup
    rw [map_inventoryKey_stamp]
    change (((changedRows _ _ _ _).map _).map _).Nodup
    rw [List.map_map]
    exact resources.nodup.sublist ((List.filter_sublist.trans List.filter_sublist).map _)
  replaces version hversion new hnew hkey hopen := by
    obtain ⟨row, hrow, hnot, heq⟩ := row_of_mem_newVersions hready hnew
    have hkey' : version.inventoryKey = row.inventoryKey := by
      refine hkey.trans ?_
      rw [heq]
      rfl
    have hin := hcluster row hrow version hversion hopen hkey'
    have hne := hnot version hversion hin hkey'
    refine ⟨(closes_iff hready hversion).mpr ⟨hin, Or.inl ⟨row, hrow, hkey'.symm, hne⟩⟩, ?_⟩
    rw [heq]
    exact hne

end Opsia.Inventory
