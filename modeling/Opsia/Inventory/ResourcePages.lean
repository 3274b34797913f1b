import Mathlib.Data.String.Basic
import Opsia.Inventory.PinnedReads

/-!
# Pages of resources

What `list_filtered_resources` lists at a revision, said without ranks and windows
(`Matches`), and what a reader gets who follows `next_position`: every matching resource
once, in order, whatever is committed in between (`run_pinned_reads`).
-/

namespace Opsia.Inventory

variable {κ χ : Type} {encoding : Encoding κ χ}

/-! ## What matches a request -/

/-- A version is the one of its key that a reader of this revision asks for: the one valid
then or, with deleted resources included, the latest that had started. -/
def CurrentAt (versions : List (InventoryResourceVersion κ χ)) (revision : ℕ)
    (includeDeleted : Bool) (version : InventoryResourceVersion κ χ) : Prop :=
  if includeDeleted then
    ∀ other ∈ versions, other.inventoryKey = version.inventoryKey →
      other.validFromRevision ≤ revision → other.validFromRevision ≤ version.validFromRevision
  else ∀ e, version.validToRevision = some e → revision < e

/-- What a request asks for. -/
structure Matches (encoding : Encoding κ χ) (versions : List (InventoryResourceVersion κ χ))
    (request : ResourceRequest κ) (version : InventoryResourceVersion κ χ) : Prop where
  mem : version ∈ versions
  workspace : version.workspaceId = request.workspaceId
  cluster : version.clusterId ∈ ids request.allowedClusterIds
  started : version.validFromRevision ≤ request.snapshotRevision
  current : CurrentAt versions request.snapshotRevision request.filters.includeDeleted version
  filters : applyResourceFilters encoding request.filters (ids request.allowedApplicationIds)
    version = true

section Rank

variable [DecidableEq κ] {candidates : List (InventoryResourceVersion κ χ)}
  {version : InventoryResourceVersion κ χ}

/-- **Rank 1 is the version that started last**, among versions of one key that have
different ids and starts. -/
theorem rowNumber_eq_one_iff (hmem : version ∈ candidates)
    (hids : ∀ other ∈ candidates, other.versionId = version.versionId → other = version)
    (hstarts : ∀ other ∈ candidates, other.inventoryKey = version.inventoryKey →
      other.validFromRevision = version.validFromRevision → other = version) :
    rowNumber candidates version = 1 ↔
      ∀ other ∈ candidates, other.inventoryKey = version.inventoryKey →
        other.validFromRevision ≤ version.validFromRevision := by
  have hsorted : ∀ other, other ∈ (candidates.filter fun other =>
        other.inventoryKey = version.inventoryKey).insertionSort
        (fun a b => b.validFromRevision ≤ a.validFromRevision) ↔
      other ∈ candidates ∧ other.inventoryKey = version.inventoryKey := by
    intro other
    rw [List.mem_insertionSort, List.mem_filter, decide_eq_true_eq]
  have hpairs : ((candidates.filter fun other =>
        other.inventoryKey = version.inventoryKey).insertionSort
        (fun a b => b.validFromRevision ≤ a.validFromRevision)).Pairwise
      fun a b => b.validFromRevision ≤ a.validFromRevision := by
    have : Std.Total fun a b : InventoryResourceVersion κ χ =>
        b.validFromRevision ≤ a.validFromRevision := ⟨fun a b => le_total _ _⟩
    have : IsTrans (InventoryResourceVersion κ χ) fun a b =>
        b.validFromRevision ≤ a.validFromRevision := ⟨fun _ _ _ h h' => le_trans h' h⟩
    exact List.pairwise_insertionSort _ _
  have hself := (hsorted version).mpr ⟨hmem, rfl⟩
  rw [rowNumber]
  generalize (candidates.filter fun other =>
    other.inventoryKey = version.inventoryKey).insertionSort
      (fun a b => b.validFromRevision ≤ a.validFromRevision) = found at hsorted hpairs hself ⊢
  rcases found with _ | ⟨first, rest⟩
  · cases hself
  · obtain ⟨hfirst, hkey⟩ := (hsorted first).mp List.mem_cons_self
    rw [List.findIdx_cons]
    by_cases hid : first.versionId = version.versionId
    · -- the first row is the version itself
      obtain rfl := hids first hfirst hid
      rw [decide_eq_true rfl, cond_true]
      refine iff_of_true rfl fun other hother hsame => ?_
      rcases List.mem_cons.mp ((hsorted other).mpr ⟨hother, hsame⟩) with rfl | hrest
      · exact le_rfl
      · exact (List.pairwise_cons.mp hpairs).1 other hrest
    · rw [decide_eq_false hid, cond_false]
      refine iff_of_false (Nat.succ_ne_zero _ ∘ Nat.succ.inj) fun hmax => ?_
      have hle := hmax first hfirst hkey
      rcases List.mem_cons.mp hself with rfl | hrest
      · exact hid rfl
      · have hge := (List.pairwise_cons.mp hpairs).1 version hrest
        exact hid (congrArg _ (hstarts first hfirst hkey (le_antisymm hle hge)))

end Rank

section Committed

variable {db : Database encoding} {request : ResourceRequest κ}
  {version other : InventoryResourceVersion κ χ}

theorem CommittedLaw.eq_of_versionId (hlaw : CommittedLaw db) (hversion : version ∈ db.versions)
    (hother : other ∈ db.versions) (hid : other.versionId = version.versionId) :
    other = version :=
  List.inj_on_of_nodup_map hlaw.ids hother hversion hid

theorem CommittedLaw.cluster_eq (hlaw : CommittedLaw db) (hversion : version ∈ db.versions)
    (hother : other ∈ db.versions) (hkey : other.inventoryKey = version.inventoryKey) :
    other.workspaceId = version.workspaceId ∧ other.clusterId = version.clusterId := by
  rw [hlaw.keyed version hversion, hlaw.keyed other hother] at hkey
  have hidentity := encoding.inventoryKey_injective hkey
  exact ⟨congrArg ResourceIdentity.workspaceId hidentity,
    congrArg ResourceIdentity.clusterId hidentity⟩

theorem CommittedLaw.lawful (hlaw : CommittedLaw db) (workspaceId : String) :
    (versioning κ χ).Lawful db.revisionSeq (workspaceVersions db.versions workspaceId) :=
  hlaw.history workspaceId db.revisionSeq fun row hrow _ => hlaw.revision_le row hrow

theorem CommittedLaw.eq_of_seen (hlaw : CommittedLaw db) (hversion : version ∈ db.versions)
    (hother : other ∈ db.versions) (hkey : other.inventoryKey = version.inventoryKey)
    {revision : ℕ} (hseen : (versioning κ χ).seenAt revision version = true)
    (hseenOther : (versioning κ χ).seenAt revision other = true) : other = version := by
  have hworkspace := (hlaw.cluster_eq hversion hother hkey).1
  exact (hlaw.lawful version.workspaceId).eq_of_seen
    (List.mem_filter.mpr ⟨hother, decide_eq_true hworkspace⟩)
    (List.mem_filter.mpr ⟨hversion, decide_eq_true rfl⟩) hseenOther hseen hkey

theorem CommittedLaw.eq_of_start (hlaw : CommittedLaw db) (hversion : version ∈ db.versions)
    (hother : other ∈ db.versions) (hkey : other.inventoryKey = version.inventoryKey)
    (hstart : other.validFromRevision = version.validFromRevision) : other = version := by
  have hworkspace := (hlaw.cluster_eq hversion hother hkey).1
  exact (hlaw.lawful version.workspaceId).eq_of_start
    (List.mem_filter.mpr ⟨hother, decide_eq_true hworkspace⟩)
    (List.mem_filter.mpr ⟨hversion, decide_eq_true rfl⟩) hstart hkey

theorem CommittedLaw.latest_isSome (hlaw : CommittedLaw db) (hversion : version ∈ db.versions)
    {revision : ℕ} (hstarted : version.validFromRevision ≤ revision) :
    (latestFilterRevision? db.revisions version.workspaceId (some revision)
      version.clusterId).isSome = true := by
  obtain ⟨row, hrow, hworkspace, hcluster, hrevision⟩ := hlaw.recorded version hversion
  have hmem : row ∈ (db.revisions.filter fun row =>
      row.workspaceId = version.workspaceId && row.clusterId = version.clusterId &&
        (some revision).all fun bound => decide (row.revisionId ≤ bound)).insertionSort
      fun a b => b.revisionId ≤ a.revisionId := by
    refine (List.mem_insertionSort _).mpr (List.mem_filter.mpr ⟨hrow, ?_⟩)
    simp only [hworkspace, hcluster, Option.all_some, hrevision, decide_eq_true hstarted,
      decide_true, Bool.and_self]
  rw [latestFilterRevision?, List.isSome_head?]
  exact List.ne_nil_of_mem hmem

theorem mem_candidateVersions (hlaw : CommittedLaw db) {workspaceId : String}
    {clusterIds : List String} {revision : ℕ} {includeDeleted : Bool} :
    version ∈ candidateVersions db.toFilterTables workspaceId clusterIds revision
        includeDeleted ↔
      version ∈ db.versions ∧ version.workspaceId = workspaceId ∧
        version.clusterId ∈ clusterIds ∧ version.validFromRevision ≤ revision ∧
        (includeDeleted = false → ∀ e, version.validToRevision = some e → revision < e) := by
  have hall : (version.validToRevision.all fun e => decide (revision < e)) = true ↔
      ∀ e, version.validToRevision = some e → revision < e := by
    rcases version.validToRevision with _ | e
    · simp
    · simp
  rw [candidateVersions, List.mem_filter]
  refine and_congr_right fun hversion => ?_
  simp only [Bool.and_eq_true, Bool.or_eq_true, decide_eq_true_eq, hall]
  constructor
  · rintro ⟨⟨⟨⟨hworkspace, hcluster⟩, hstarted⟩, hcurrent⟩, -⟩
    refine ⟨hworkspace, hcluster, hstarted, fun hdeleted => ?_⟩
    exact hcurrent.resolve_left (by rw [hdeleted]; exact Bool.false_ne_true)
  · rintro ⟨hworkspace, hcluster, hstarted, hcurrent⟩
    refine ⟨⟨⟨⟨hworkspace, hcluster⟩, hstarted⟩, ?_⟩, ?_⟩
    · cases includeDeleted with
      | true => exact Or.inl rfl
      | false => exact Or.inr (hcurrent rfl)
    · rw [← hworkspace]
      exact hlaw.latest_isSome hversion hstarted

end Committed

section Matching

variable [DecidableEq κ] {db : Database encoding} {request : ResourceRequest κ}
  {version : InventoryResourceVersion κ χ}

/-- Among candidates that include deleted resources, rank 1 is the latest that had
started. -/
theorem rowNumber_candidateVersions (hlaw : CommittedLaw db) {workspaceId : String}
    {clusterIds : List String} {revision : ℕ}
    (hmem : version ∈ candidateVersions db.toFilterTables workspaceId clusterIds revision true) :
    rowNumber (candidateVersions db.toFilterTables workspaceId clusterIds revision true) version =
        1 ↔ CurrentAt db.versions revision true version := by
  have hcandidate := (mem_candidateVersions hlaw).mp hmem
  obtain ⟨hversion, hworkspace, hcluster, -⟩ := hcandidate
  rw [CurrentAt, if_pos rfl, rowNumber_eq_one_iff hmem]
  · constructor
    · intro hmax other hother hkey hstarted
      obtain ⟨hworkspaceEq, hclusterEq⟩ := hlaw.cluster_eq hversion hother hkey
      refine hmax other ((mem_candidateVersions hlaw).mpr ⟨hother, ?_, ?_, hstarted, nofun⟩) hkey
      · rw [hworkspaceEq, hworkspace]
      · rw [hclusterEq]
        exact hcluster
    · intro hmax other hother hkey
      obtain ⟨hother, -, -, hstarted, -⟩ := (mem_candidateVersions hlaw).mp hother
      exact hmax other hother hkey hstarted
  · intro other hother hid
    exact hlaw.eq_of_versionId hversion ((mem_candidateVersions hlaw).mp hother).1 hid
  · intro other hother hkey hstart
    exact hlaw.eq_of_start hversion ((mem_candidateVersions hlaw).mp hother).1 hkey hstart

/-- **What a page is taken from is what the request asks for.** -/
theorem mem_filteredVersions (hlaw : CommittedLaw db) :
    version ∈ filteredVersions encoding db.toFilterTables request ↔
      Matches encoding db.versions request version := by
  rw [filteredVersions, List.mem_filter, unfilteredVersions, inventoryVersionsAtRevision,
    List.mem_filter]
  cases hdeleted : request.filters.includeDeleted with
  | false =>
    have hcurrentAt : CurrentAt db.versions request.snapshotRevision
        request.filters.includeDeleted version ↔
        ∀ e, version.validToRevision = some e → request.snapshotRevision < e := by
      rw [CurrentAt, if_neg (by rw [hdeleted]; exact Bool.false_ne_true)]
    rw [mem_candidateVersions hlaw]
    constructor
    · rintro ⟨⟨⟨hmem, hworkspace, hcluster, hstarted, hcurrent⟩, -⟩, hfilters⟩
      exact ⟨hmem, hworkspace, hcluster, hstarted, hcurrentAt.mpr (hcurrent rfl), hfilters⟩
    · intro h
      exact ⟨⟨⟨h.mem, h.workspace, h.cluster, h.started, fun _ => hcurrentAt.mp h.current⟩, rfl⟩,
        h.filters⟩
  | true =>
    constructor
    · rintro ⟨⟨hcandidate, hrank⟩, hfilters⟩
      have hcurrent := (rowNumber_candidateVersions hlaw hcandidate).mp (of_decide_eq_true hrank)
      obtain ⟨hmem, hworkspace, hcluster, hstarted, -⟩ :=
        (mem_candidateVersions hlaw).mp hcandidate
      exact ⟨hmem, hworkspace, hcluster, hstarted, hdeleted ▸ hcurrent, hfilters⟩
    · intro h
      have hcandidate := (mem_candidateVersions hlaw).mpr
        ⟨h.mem, h.workspace, h.cluster, h.started, fun h => absurd h.symm Bool.false_ne_true⟩
      have hrank := (rowNumber_candidateVersions hlaw hcandidate).mpr (hdeleted ▸ h.current)
      exact ⟨⟨hcandidate, decide_eq_true hrank⟩, h.filters⟩

omit [DecidableEq κ] in
/-- **At most one version of a key matches.** -/
theorem Matches.eq_of_key (hlaw : CommittedLaw db) {other : InventoryResourceVersion κ χ}
    (hversion : Matches encoding db.versions request version)
    (hother : Matches encoding db.versions request other)
    (hkey : other.inventoryKey = version.inventoryKey) : other = version := by
  have hcurrent := hversion.current
  have hcurrentOther := hother.current
  rw [CurrentAt] at hcurrent hcurrentOther
  cases hdeleted : request.filters.includeDeleted with
  | true =>
    rw [if_pos hdeleted] at hcurrent hcurrentOther
    refine hlaw.eq_of_start hversion.mem hother.mem hkey (le_antisymm ?_ ?_)
    · exact hcurrent other hother.mem hkey hother.started
    · exact hcurrentOther version hversion.mem hkey.symm hversion.started
  | false =>
    rw [if_neg (by rw [hdeleted]; exact Bool.false_ne_true)] at hcurrent hcurrentOther
    exact hlaw.eq_of_seen hversion.mem hother.mem hkey
      ((versioning κ χ).seenAt_of_stop hversion.started hcurrent)
      ((versioning κ χ).seenAt_of_stop hother.started hcurrentOther)

theorem nodup_filteredVersions (hlaw : CommittedLaw db) (request : ResourceRequest κ) :
    (filteredVersions encoding db.toFilterTables request).Nodup := by
  refine List.Nodup.filter _ (List.Nodup.filter _ (List.Nodup.filter _ ?_))
  exact List.Nodup.of_map _ hlaw.ids

theorem nodup_inventoryKey (hlaw : CommittedLaw db) (request : ResourceRequest κ) :
    ((filteredVersions encoding db.toFilterTables request).map
      fun version => version.inventoryKey).Nodup := by
  refine List.Nodup.map_on (fun v hv w hw hkey => ?_) (nodup_filteredVersions hlaw request)
  exact ((mem_filteredVersions hlaw).mp hw).eq_of_key hlaw ((mem_filteredVersions hlaw).mp hv) hkey

theorem nodup_sortTuple {τ : Type} (collation : Collation κ τ) (hlaw : CommittedLaw db)
    (request : ResourceRequest κ) :
    ((filteredVersions encoding db.toFilterTables request).map (sortTuple collation)).Nodup := by
  refine List.Nodup.map_on (fun v hv w hw htuple => ?_) (nodup_filteredVersions hlaw request)
  exact ((mem_filteredVersions hlaw).mp hw).eq_of_key hlaw ((mem_filteredVersions hlaw).mp hv)
    (inventoryKey_eq_of_sortTuple collation htuple)

omit [DecidableEq κ] in
theorem applyResourceFilters_of_noSelection {filters : ResourceFilters}
    (hselection : filters.hasSelection = false) (allowed : List String) :
    applyResourceFilters encoding filters allowed version = true := by
  simp only [ResourceFilters.hasSelection, Bool.or_eq_false_iff, Bool.not_eq_false',
    decide_eq_false_iff_not, not_not, List.isEmpty_iff] at hselection
  obtain ⟨⟨⟨⟨⟨⟨hclusters, hnamespaces⟩, happlications⟩, htypes⟩, hhealth⟩, hlabels⟩, hquery⟩ :=
    hselection
  simp [applyResourceFilters, hclusters, hnamespaces, happlications, htypes, hhealth, hlabels,
    hquery]

/-- **The count column is the number of matching versions.** -/
theorem filteredCount_eq (tables : FilterTables κ χ) :
    filteredCount encoding tables request = (filteredVersions encoding tables request).length := by
  rw [filteredCount]
  split
  · rfl
  · rename_i hselection
    rw [filteredVersions, List.filter_eq_self.mpr fun version _ =>
      applyResourceFilters_of_noSelection (Bool.not_eq_true _ ▸ hselection) _]

end Matching

/-! ## Following next_position -/

/-- The pages of a reader who passes `next_position` on until `has_more` is false; the
`i`-th page is read by `read i`, and `fuel` bounds their number. -/
def followPages (read : ℕ → Option (Position κ) → Except QueryError (ResourcePage κ)) :
    (fuel i : ℕ) → Option (Position κ) → Except QueryError (List (ResourcePage κ))
  | 0, _, _ => .ok []
  | fuel + 1, i, position =>
    match read i position with
    | .error e => .error e
    | .ok page =>
      if page.hasMore then
        (followPages read fuel (i + 1) page.nextPosition).map fun rest => page :: rest
      else .ok [page]

/-- The request for the page after a position, without graph priority, which allows no
position. -/
def ResourceRequest.next (request : ResourceRequest κ) (limit : Int)
    (position : Option (Position κ)) : ResourceRequest κ :=
  { request with position := position, limit := limit, graphPriority := false }

section Paging

variable {τ : Type} (collation : Collation κ τ)

/-- The item of a version in the pages of a request. -/
def ResourceRequest.item (request : ResourceRequest κ)
    (version : InventoryResourceVersion κ χ) : ResourceItem κ :=
  serializeVersionRow request.snapshotRevision (ids request.allowedApplicationIds) version

/-- A page shows what a page of versions holds. -/
structure ShowsPage (request : ResourceRequest κ) (count : ℕ) (page : ResourcePage κ)
    (found : Keyset.Page (InventoryResourceVersion κ χ) (SortKey τ)) : Prop where
  items : page.items = found.items.map request.item
  filteredCount : page.filteredCount = count
  hasMore : page.hasMore = found.hasMore
  nextPosition : page.nextPosition.map (positionTuple collation) = found.next

variable {collation} {request : ResourceRequest κ}

/-- **Following the positions of the pages of resources follows those of the pages of
versions.** -/
theorem followPages_shows {count : ℕ}
    (read : ℕ → Option (Position κ) → Except QueryError (ResourcePage κ))
    (find : ℕ → Option (SortKey τ) → Keyset.Page (InventoryResourceVersion κ χ) (SortKey τ))
    (hread : ∀ i position, ∃ page, read i position = .ok page ∧
      ShowsPage collation request count page (find i (position.map (positionTuple collation))))
    (fuel i : ℕ) (position : Option (Position κ)) :
    ∃ pages, followPages read fuel i position = .ok pages ∧
      List.Forall₂ (ShowsPage collation request count) pages
        (Keyset.collect find fuel i (position.map (positionTuple collation))) := by
  induction fuel generalizing i position with
  | zero => exact ⟨[], rfl, List.Forall₂.nil⟩
  | succ fuel ih =>
    obtain ⟨page, hpage, hshows⟩ := hread i position
    rw [followPages, Keyset.collect, hpage]
    rcases hmore : page.hasMore with _ | _
    · refine ⟨[page], if_neg (by rw [hmore]; exact Bool.false_ne_true),
        List.Forall₂.cons hshows ?_⟩
      rw [← hshows.hasMore, hmore, if_neg Bool.false_ne_true]
      exact List.Forall₂.nil
    · obtain ⟨pages, hpages, hrest⟩ := ih (i + 1) page.nextPosition
      refine ⟨page :: pages, (if_pos hmore).trans ?_, List.Forall₂.cons hshows ?_⟩
      · rw [hpages]
        rfl
      rw [← hshows.hasMore, hmore, if_pos rfl, ← hshows.nextPosition]
      exact hrest

theorem readsAll_of_shows {count : ℕ} {pages : List (ResourcePage κ)}
    {found : List (Keyset.Page (InventoryResourceVersion κ χ) (SortKey τ))}
    (h : List.Forall₂ (ShowsPage collation request count) pages found) :
    pages.flatMap (fun page => page.items) =
        (found.flatMap fun page => page.items).map request.item ∧
      (∀ page ∈ pages, page.filteredCount = count) ∧
      pages.getLast?.map (fun page => page.hasMore) =
        found.getLast?.map fun page => page.hasMore := by
  induction h with
  | nil => exact ⟨rfl, nofun, rfl⟩
  | @cons page first pages found hfirst hrest ih =>
    obtain ⟨hitems, hcount, hlast⟩ := ih
    refine ⟨?_, ?_, ?_⟩
    · rw [List.flatMap_cons, List.flatMap_cons, hitems, hfirst.items, List.map_append]
    · intro p hp
      rcases List.mem_cons.mp hp with rfl | hp
      · exact hfirst.filteredCount
      · exact hcount p hp
    · cases hrest with
      | nil => exact congrArg some hfirst.hasMore
      | cons _ _ => exact hlast

variable [LinearOrder τ] [DecidableEq κ] {tables : FilterTables κ χ}

/-- **A page of resources is a page of the matching versions**, by their sort tuples. -/
theorem listFilteredResources_shows (hworkspace : request.workspaceId ≠ "")
    (hclusters : ids request.allowedClusterIds ≠ []) (hrevision : request.snapshotRevision ≠ 0)
    (limit : Int) (position : Option (Position κ)) :
    ∃ page, listFilteredResources collation encoding tables tables
        (request.next limit position) = .ok page ∧
      ShowsPage collation request (filteredVersions encoding tables request).length page
        (Keyset.page (sortTuple collation) (filteredVersions encoding tables request)
          (max 1 (min limit 200)).toNat (position.map (positionTuple collation))) := by
  have hrows : pageRows collation encoding tables (request.next limit position) =
      Keyset.fetched (sortTuple collation) (filteredVersions encoding tables request)
        (position.map (positionTuple collation)) (max 1 (min limit 200)).toNat := by
    simp only [pageRows, ResourceRequest.next, Bool.false_eq_true, if_false]
    rfl
  have hopen : ¬ ((request.next limit position).workspaceId = "" ∨
      ids (request.next limit position).allowedClusterIds = [] ∨
      (request.next limit position).snapshotRevision = 0) := by
    rintro (h | h | h)
    · exact hworkspace h
    · exact hclusters h
    · exact hrevision h
  have hnograph : ¬ ((request.next limit position).graphPriority &&
      (request.next limit position).position.isSome) = true := by
    simp only [ResourceRequest.next, Bool.false_and, Bool.false_eq_true, not_false_eq_true]
  have hnext : ∀ (more : Bool) (rows : List (InventoryResourceVersion κ χ)),
      (if more then rows.getLast?.map positionOf else none).map (positionTuple collation) =
        if more then rows.getLast?.map (sortTuple collation) else none := by
    intro more rows
    cases more with
    | true => exact Option.map_map _ _ _
    | false => rfl
  rw [listFilteredResources, if_neg hopen, if_neg hnograph, hrows]
  refine ⟨_, rfl, rfl, ?_, rfl, hnext _ _⟩
  dsimp only
  rw [ite_self, filteredCount_eq]
  rfl

/-- What the pages of one reading of a request are, when these are the versions that
match: every version once, in order, and their number on every page. -/
structure ReadsAll (collation : Collation κ τ) (request : ResourceRequest κ)
    (rows : List (InventoryResourceVersion κ χ)) (pages : List (ResourcePage κ)) : Prop where
  items : pages.flatMap (fun page => page.items) = rows.map request.item
  sorted : rows.Pairwise fun v w => sortTuple collation v < sortTuple collation w
  keys : (rows.map fun version => version.inventoryKey).Nodup
  filteredCount : ∀ page ∈ pages, page.filteredCount = rows.length
  finished : pages.getLast?.map (fun page => page.hasMore) = some false

end Paging

/-! ## Pinned reads -/

section Pinned

variable {τ : Type} [LinearOrder τ] [DecidableEq κ] [DecidableEq χ]

/-- The request at the revision that a reader obtained. -/
def ResourceRequest.pinnedAt (request : ResourceRequest κ) (context : SnapshotContext) :
    ResourceRequest κ :=
  { request with snapshotRevision := context.snapshotRevision }

/-- What a reader of a pinned revision can rely on, whatever commits meanwhile. -/
structure PinnedReads (collation : Collation κ τ) (lockKey : String → String → ℤ)
    (db : Database encoding) (request : ResourceRequest κ) : Prop where
  /-- later commits change nothing that had started but ends later than the revision -/
  view : ∀ later, asOf (db.after lockKey later).toFilterTables request.workspaceId
      request.snapshotRevision =
    asOf db.toFilterTables request.workspaceId request.snapshotRevision
  /-- whenever its two statements run, a page is the same -/
  repeatable : ∀ later later', listFilteredResources collation encoding
      (db.after lockKey later).toFilterTables (db.after lockKey later').toFilterTables request =
    listFilteredResources collation encoding db.toFilterTables db.toFilterTables request
  /-- whenever its pages are read and whatever their limits, a reading is complete -/
  complete : ∀ (later later' : ℕ → List (DatabaseAction encoding)) (limit : ℕ → Int),
    ∃ rows, (∀ version, version ∈ rows ↔
        request.workspaceId ≠ "" ∧ Matches encoding db.versions request version) ∧
      ∀ fuel, rows.length < fuel → ∃ pages,
        followPages (fun i position => listFilteredResources collation encoding
          (db.after lockKey (later i)).toFilterTables (db.after lockKey (later' i)).toFilterTables
          (request.next (limit i) position)) fuel 0 none = .ok pages ∧
        ReadsAll collation request rows pages

variable {collation : Collation κ τ} {lockKey : String → String → ℤ} {db : Database encoding}
  {request : ResourceRequest κ}

/-- A page is the same whenever its two statements run. -/
theorem listFilteredResources_after (hlaw : DatabaseLaw lockKey db)
    (hpin : Pinned db request.workspaceId request.snapshotRevision)
    (later later' : List (DatabaseAction encoding)) :
    listFilteredResources collation encoding (db.after lockKey later).toFilterTables
        (db.after lockKey later').toFilterTables request =
      listFilteredResources collation encoding db.toFilterTables db.toFilterTables request := by
  rw [← listFilteredResources_asOf, asOf_after hlaw hpin, asOf_after hlaw hpin,
    listFilteredResources_asOf]

omit [DecidableEq κ] [DecidableEq χ] in
theorem not_matches_of_empty (hlaw : CommittedLaw db)
    (hempty : request.workspaceId = "" ∨ ids request.allowedClusterIds = [] ∨
      request.snapshotRevision = 0) (version : InventoryResourceVersion κ χ) :
    ¬ (request.workspaceId ≠ "" ∧ Matches encoding db.versions request version) := by
  rintro ⟨hworkspace, hmatches⟩
  rcases hempty with h | h | h
  · exact hworkspace h
  · have hcluster := hmatches.cluster
    rw [h] at hcluster
    cases hcluster
  · obtain ⟨row, hrow, -, -, hrevision⟩ := hlaw.recorded version hmatches.mem
    have hpos := hlaw.revision_pos row hrow
    have hstarted := hmatches.started
    omega

omit [DecidableEq χ] in
/-- **A reading of a request that is not refused is complete.** -/
theorem followPages_complete (hlaw : CommittedLaw db)
    (hopen : ¬ (request.workspaceId = "" ∨ ids request.allowedClusterIds = [] ∨
      request.snapshotRevision = 0)) (limit : ℕ → Int) {fuel : ℕ}
    (hfuel : (Keyset.sorted (sortTuple collation)
      (filteredVersions encoding db.toFilterTables request)).length < fuel) :
    ∃ pages, followPages (fun i position => listFilteredResources collation encoding
        db.toFilterTables db.toFilterTables (request.next (limit i) position)) fuel 0 none =
          .ok pages ∧
      ReadsAll collation request (Keyset.sorted (sortTuple collation)
        (filteredVersions encoding db.toFilterTables request)) pages := by
  simp only [not_or] at hopen
  obtain ⟨hworkspace, hclusters, hrevision⟩ := hopen
  have hkeys := nodup_sortTuple collation hlaw request
  have hperm : (Keyset.sorted (sortTuple collation)
      (filteredVersions encoding db.toFilterTables request)).Perm
        (filteredVersions encoding db.toFilterTables request) := Keyset.perm_sorted
  have hlimit : ∀ i, 0 < (max 1 (min (limit i) 200)).toNat := fun i => by omega
  have hread : ∀ i position, ∃ page, listFilteredResources collation encoding db.toFilterTables
        db.toFilterTables (request.next (limit i) position) = .ok page ∧
      ShowsPage collation request (filteredVersions encoding db.toFilterTables request).length page
        (Keyset.page (sortTuple collation) (filteredVersions encoding db.toFilterTables request)
          (max 1 (min (limit i) 200)).toNat (position.map (positionTuple collation))) :=
    fun i => listFilteredResources_shows hworkspace hclusters hrevision (limit i)
  obtain ⟨pages, hpages, hshows⟩ := followPages_shows _
    (fun i => Keyset.page (sortTuple collation)
      (filteredVersions encoding db.toFilterTables request) (max 1 (min (limit i) 200)).toNat)
    hread fuel 0 none
  obtain ⟨hitems, hcount, hlast⟩ := readsAll_of_shows hshows
  rw [hperm.length_eq] at hfuel
  obtain ⟨hrows, hfinished⟩ := Keyset.collect_items hkeys hlimit hfuel
  refine ⟨pages, hpages, ?_, Keyset.pairwise_lt_sorted hkeys, ?_, ?_, ?_⟩
  · exact hitems.trans (congrArg (List.map request.item) hrows)
  · exact (hperm.map _).nodup_iff.mpr (nodup_inventoryKey hlaw request)
  · intro page hpage
    rw [hcount page hpage, hperm.length_eq]
  · exact hlast.trans hfinished

omit [DecidableEq κ] in
theorem followPages_empty {read : ℕ → Option (Position κ) → Except QueryError (ResourcePage κ)}
    (hread : ∀ i position, read i position = .ok emptyPage) {fuel : ℕ} (hfuel : 0 < fuel) :
    followPages read fuel 0 none = .ok [emptyPage] := by
  obtain ⟨fuel, rfl⟩ := Nat.exists_eq_add_of_lt hfuel
  rw [Nat.zero_add, followPages, hread]
  rfl

theorem pinnedReads_of_pinned (hlaw : DatabaseLaw lockKey db)
    (hpin : Pinned db request.workspaceId request.snapshotRevision) :
    PinnedReads collation lockKey db request := by
  refine ⟨asOf_after hlaw hpin, listFilteredResources_after hlaw hpin, ?_⟩
  intro later later' limit
  have hstable : ∀ i position, listFilteredResources collation encoding
      (db.after lockKey (later i)).toFilterTables (db.after lockKey (later' i)).toFilterTables
        (request.next (limit i) position) =
      listFilteredResources collation encoding db.toFilterTables db.toFilterTables
        (request.next (limit i) position) := by
    intro i position
    have hnext : Pinned db (request.next (limit i) position).workspaceId
        (request.next (limit i) position).snapshotRevision := hpin
    exact listFilteredResources_after hlaw hnext (later i) (later' i)
  simp only [hstable]
  by_cases hempty : request.workspaceId = "" ∨ ids request.allowedClusterIds = [] ∨
      request.snapshotRevision = 0
  · refine ⟨[], fun version => iff_of_false List.not_mem_nil
      (not_matches_of_empty hlaw.committed hempty version), fun fuel hfuel => ?_⟩
    refine ⟨[emptyPage], followPages_empty (fun i position => if_pos hempty) hfuel, rfl,
      List.Pairwise.nil, List.nodup_nil, ?_, rfl⟩
    intro page hpage
    rw [List.mem_singleton.mp hpage]
    rfl
  · refine ⟨Keyset.sorted (sortTuple collation)
      (filteredVersions encoding db.toFilterTables request), fun version => ?_, fun fuel hfuel =>
        followPages_complete hlaw.committed hempty limit hfuel⟩
    rw [Keyset.mem_sorted, mem_filteredVersions hlaw.committed]
    exact (and_iff_right fun h => hempty (Or.inl h)).symm

/-- **Pinned reads are repeatable and complete.** After any interleaving of snapshot
transactions, a reader that takes its revision from `filter_snapshot_context` reads the
same whatever is committed later, and following `next_position` gives it every matching
resource once, in order. -/
theorem run_pinned_reads (collation : Collation κ τ) (lockKey : String → String → ℤ)
    (before : List (DatabaseAction encoding)) (request : ResourceRequest κ)
    (contextClusterIds : List String) (atRevision : Option ℕ) :
    PinnedReads collation lockKey (Database.empty.after lockKey before)
      (request.pinnedAt (filterSnapshotContext
        (Database.empty.after lockKey before).toFilterTables request.workspaceId
        contextClusterIds atRevision)) :=
  pinnedReads_of_pinned (DatabaseLaw.empty.after before)
    (pinned_of_context _ request.workspaceId contextClusterIds atRevision)

end Pinned

/-! ## What later commits do change

A cluster with two pods, whose next snapshot has none. -/

section Example

/-- A pod that a snapshot wrote. -/
def podRow (name : String) : ResourceRecord ResourceIdentity where
  resourceType := "pod"
  apiVersion := "v1"
  kind := "Pod"
  namespaceName := some "default"
  name := name
  uid := none
  resourceVersion := none
  status := "Running"
  health := "healthy"
  labels := []
  summary := .null
  annotations := []
  raw := .null
  inventoryKey := ⟨"w", "c", "pod", "v1", "default", "Pod", name⟩
  snapshotId := "first"
  workspaceId := "w"
  clusterId := "c"
  deletedAt := none

/-- The rows of the first snapshot. -/
def podCut : Cut Encoding.plain where
  rows := (Table.empty.put (podRow "web")).put (podRow "api")
  wellKeyed row hrow := by
    have hrows : row ∈ [podRow "web", podRow "api"] := hrow
    rcases List.mem_pair.mp hrows with rfl | rfl
    · rfl
    · rfl

/-- The statements of the transaction of a complete snapshot. -/
def snapshotStatements (snapshotId : String) (cut : Cut Encoding.plain) :
    List (DatabaseAction Encoding.plain) :=
  [.start 1
    { workspaceId := "w"
      clusterId := "c"
      snapshotId := snapshotId
      observedAt := 0
      labelsComplete := true
      resourcesComplete := true
      partialReasonCodes := []
      deletionScopes := []
      bindings := ⟨[], []⟩ } cut true,
    .computeDiff 1, .lockWorkspace 1, .allocate 1, .commit 1]

/-- The database after the first snapshot. -/
def podDatabase : Database Encoding.plain :=
  Database.empty.after (fun _ _ => 0) (snapshotStatements "first" podCut)

/-- Texts compared character by character; a key is compared as its texts are. -/
def plainCollation : Collation ResourceIdentity (SortKey String ×ₗ String) where
  text s := toLex (toLex (s, toLex ("", toLex ("", toLex ("", toLex ("", ""))))), "")
  key k := toLex (toLex (k.workspaceId, toLex (k.clusterId, toLex (k.resourceType,
    toLex (k.apiVersion, toLex (k.namespaceName, k.kind))))), k.name)
  key_injective a b h := by
    simp only [toLex_inj, Prod.mk.injEq] at h
    obtain ⟨⟨hworkspace, hcluster, htype, hversion, hnamespace, hkind⟩, hname⟩ := h
    cases a
    cases b
    subst hworkspace hcluster htype hversion hnamespace hkind hname
    rfl

/-- All resources of the cluster, one on a page, with the priority order of graphs. -/
def graphRequest (position : Option (Position ResourceIdentity)) :
    ResourceRequest ResourceIdentity where
  workspaceId := "w"
  allowedClusterIds := ["c"]
  allowedApplicationIds := []
  filters := ⟨[], [], [], [], [], [], none, false⟩
  snapshotRevision := 1
  position := position
  limit := 1
  graphPriority := true

/-- The last position of the first page. -/
def firstPosition : Position ResourceIdentity where
  clusterId := "c"
  namespaceName := "default"
  resourceType := "pod"
  kind := "Pod"
  name := "api"
  inventoryKey := ⟨"w", "c", "pod", "v1", "default", "Pod", "api"⟩

/-- **A later commit closes versions that a reader sees**, and a page in the priority order
of graphs gives a `next_position` that the next request is refused with. -/
theorem later_commit_closes_visible :
    (¬ ∀ version ∈ podDatabase.versions,
      (versioning ResourceIdentity (Meaningful ResourceIdentity)).seenAt
        (filterSnapshotContext podDatabase.toFilterTables "w" ["c"] none).snapshotRevision
          version = true →
      version ∈ (podDatabase.after (fun _ _ => 0)
        (snapshotStatements "second" ⟨Table.empty, nofun⟩)).versions) ∧
    (listFilteredResources plainCollation Encoding.plain podDatabase.toFilterTables
      podDatabase.toFilterTables (graphRequest none)).toOption.map
        (fun page => (page.hasMore, page.nextPosition)) = some (true, some firstPosition) ∧
    listFilteredResources plainCollation Encoding.plain podDatabase.toFilterTables
      podDatabase.toFilterTables (graphRequest (some firstPosition)) =
        .error .graphPriorityCursor := by
  refine ⟨?_, by decide +kernel, rfl⟩
  decide +kernel

end Example

end Opsia.Inventory
