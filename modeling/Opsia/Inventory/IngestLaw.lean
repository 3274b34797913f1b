import Opsia.Inventory.Changes

/-!
# What ingestion keeps

Source keys tell facts apart: that of an inventory fact ends in its revision and its
version, and that of an Event fact in its count and its time. The ledger holds facts of the
revisions so far, under such keys and in the order of their sequences (`IngestLaw`), and
what one call can do is said once, in `ingest_cases`.
-/

namespace Opsia.Inventory

variable {κ χ : Type} {encoding : FactEncoding κ χ}

/-! ## Source keys -/

theorem correlatedSourceKey_inj {sourceKey sourceKey' snapshotId snapshotId' : String}
    {revisionId revisionId' versionId versionId' : ℕ}
    (h : correlatedSourceKey sourceKey snapshotId revisionId versionId =
      correlatedSourceKey sourceKey' snapshotId' revisionId' versionId') :
    revisionId = revisionId' ∧ versionId = versionId' := by
  have hshape : ∀ (a b : String) (r v : ℕ), (correlatedSourceKey a b r v).toList =
      (((a ++ ":snapshot:" ++ b ++ ":revision").toList ++ ':' :: (toString r).toList) ++
        ":version".toList) ++ ':' :: (toString v).toList := by
    intro a b r v
    simp [correlatedSourceKey]
  have htexts := congrArg String.toList h
  rw [hshape, hshape] at htexts
  have hdigits := PyText.not_mem_natText (c := ':') rfl
  obtain ⟨hrest, hversion⟩ := PyText.append_cons_inj_right (hdigits _) (hdigits _) htexts
  have hrest := List.append_cancel_right hrest
  obtain ⟨-, hrevision⟩ := PyText.append_cons_inj_right (hdigits _) (hdigits _) hrest
  exact ⟨PyText.natText_inj (String.toList_inj.mp hrevision),
    PyText.natText_inj (String.toList_inj.mp hversion)⟩

theorem correlatedSourceKey_ne (change : InventoryTimelineChange) (row : ResourceRecord κ)
    (snapshotId : String) (revisionId versionId : ℕ) (observation : KubernetesEventObservation) :
    correlatedSourceKey (inventoryTimelineSourceKey encoding change row) snapshotId revisionId
      versionId ≠ kubernetesEventSourceKey observation := by
  intro h
  have htexts := congrArg String.toList h
  have hinventory : ∃ rest, (correlatedSourceKey (inventoryTimelineSourceKey encoding change row)
      snapshotId revisionId versionId).toList = "inventory".toList ++ ':' :: rest := by
    simp [correlatedSourceKey, inventoryTimelineSourceKey, PyText.join]
  have hevent : ∃ rest, (kubernetesEventSourceKey observation).toList =
      "kubernetes_event".toList ++ ':' :: rest := by
    simp [kubernetesEventSourceKey, PyText.join]
  obtain ⟨rest, hrest⟩ := hinventory
  obtain ⟨rest', hrest'⟩ := hevent
  rw [hrest, hrest'] at htexts
  obtain ⟨hfirst, -⟩ := PyText.append_cons_inj (by decide) (by decide) htexts
  exact absurd hfirst (by decide)

theorem kubernetesEventSourceKey_inj {o p : KubernetesEventObservation}
    (h : kubernetesEventSourceKey o = kubernetesEventSourceKey p) :
    o.uid = p.uid ∧ o.count = p.count ∧ o.lastOccurrenceAt = p.lastOccurrenceAt := by
  have hshape : ∀ q : KubernetesEventObservation, (kubernetesEventSourceKey q).toList =
      (("kubernetes_event:".toList ++ q.uid.toList) ++ ':' :: (toString q.count).toList) ++
        ':' :: q.lastOccurrenceAt.isoformatZ.toList := by
    intro q
    simp [kubernetesEventSourceKey, PyText.join]
  have htexts := congrArg String.toList h
  rw [hshape, hshape] at htexts
  have hdigits := PyText.not_mem_natText (c := ':') rfl
  obtain ⟨hrest, htime⟩ := UtcTime.append_isoformatZ_inj htexts
  obtain ⟨hrest, hcount⟩ := PyText.append_cons_inj_right (hdigits _) (hdigits _) hrest
  exact ⟨String.toList_inj.mp (List.append_cancel_left hrest),
    PyText.natText_inj (String.toList_inj.mp hcount), htime⟩

/-- A fact records an observation. -/
structure KubernetesEventFact.Records (fact : KubernetesEventFact)
    (observation : KubernetesEventObservation) : Prop where
  uid : fact.nativeId = observation.uid
  count : fact.count = observation.count
  occurredAt : fact.occurredAt = observation.lastOccurrenceAt

variable (encoding) in
/-- An event has the source key of its fact; the revision of an inventory fact is one of
those given. -/
inductive Keyed (revisions : ℕ → Prop) (event : FactEvent κ) : Prop where
  | kubernetesEvent (fact : KubernetesEventFact) (observation : KubernetesEventObservation)
      (hfact : event.fact = .kubernetesEvent fact) (hrecords : fact.Records observation)
      (hkey : event.sourceKey = kubernetesEventSourceKey observation)
  | inventory (fact : InventoryFact κ) (change : InventoryTimelineChange) (row : ResourceRecord κ)
      (snapshotId : String) (revisionId versionId : ℕ) (hfact : event.fact = .inventory fact)
      (hrevision : revisions revisionId)
      (hkey : event.sourceKey = correlatedSourceKey
        (inventoryTimelineSourceKey encoding change row) snapshotId revisionId versionId)

variable {event : FactEvent κ} {tables : InventoryTables κ χ}

theorem Keyed.mono {p q : ℕ → Prop} (hpq : ∀ n, p n → q n) (h : Keyed encoding p event) :
    Keyed encoding q event := by
  cases h with
  | kubernetesEvent fact observation hfact hrecords hkey =>
    exact .kubernetesEvent fact observation hfact hrecords hkey
  | inventory fact change row snapshotId revisionId versionId hfact hrevision hkey =>
    exact .inventory fact change row snapshotId revisionId versionId hfact (hpq _ hrevision) hkey

theorem Keyed.source {p q : ℕ → Prop} {a b : FactEvent κ} (ha : Keyed encoding p a)
    (hb : Keyed encoding q b) (hkey : a.sourceKey = b.sourceKey) :
    (∃ fact fact', a.fact = .kubernetesEvent fact ∧ b.fact = .kubernetesEvent fact' ∧
      fact.nativeId = fact'.nativeId ∧ fact.count = fact'.count ∧
      fact.occurredAt = fact'.occurredAt) ∨
    ∃ fact fact' n, a.fact = .inventory fact ∧ b.fact = .inventory fact' ∧ p n ∧ q n := by
  cases ha with
  | kubernetesEvent fact observation hfact hrecords hkeya =>
    cases hb with
    | kubernetesEvent fact' observation' hfact' hrecords' hkeyb =>
      obtain ⟨huid, hcount, htime⟩ :=
        kubernetesEventSourceKey_inj (hkeya.symm.trans (hkey.trans hkeyb))
      exact Or.inl ⟨fact, fact', hfact, hfact', hrecords.uid.trans (huid.trans hrecords'.uid.symm),
        hrecords.count.trans (hcount.trans hrecords'.count.symm),
        hrecords.occurredAt.trans (htime.trans hrecords'.occurredAt.symm)⟩
    | inventory _ change row snapshotId revisionId versionId _ _ hkeyb =>
      exact absurd (hkeyb.symm.trans (hkey.symm.trans hkeya))
        (correlatedSourceKey_ne change row snapshotId revisionId versionId observation)
  | inventory fact change row snapshotId revisionId versionId hfact hrevision hkeya =>
    cases hb with
    | kubernetesEvent _ observation _ _ hkeyb =>
      exact absurd (hkeya.symm.trans (hkey.trans hkeyb))
        (correlatedSourceKey_ne change row snapshotId revisionId versionId observation)
    | inventory fact' _ _ _ _ _ hfact' hrevision' hkeyb =>
      obtain ⟨hsame, -⟩ := correlatedSourceKey_inj (hkeya.symm.trans (hkey.trans hkeyb))
      exact Or.inr ⟨fact, fact', revisionId, hfact, hfact', hrevision, hsame ▸ hrevision'⟩

/-! ## The events of an accepted snapshot -/

theorem kubernetesEventTimelineEvent_spec {literals : Literals} {clusterId : String}
    {observation : KubernetesEventObservation} {capture : KubernetesEventCapture}
    {fact : KubernetesEventFact}
    (h : kubernetesEventTimelineEvent literals clusterId observation capture = some fact) :
    fact.Records observation ∧ fact.eventId = kubernetesEventSourceKey observation := by
  simp only [kubernetesEventTimelineEvent, Option.ite_none_right_eq_some] at h
  obtain ⟨-, h⟩ := h
  obtain rfl := Option.some.inj h
  exact ⟨⟨rfl, rfl, rfl⟩, rfl⟩

variable [DecidableEq κ] [DecidableEq χ] {s : IngestState κ χ} {call : IngestCall}
  {events : List (FactEvent κ)}

theorem snapshotEvents_spec (h : snapshotEvents encoding s call = some events) :
    ∃ derived, derivedEvents encoding s call = some derived ∧
      derived.mapM (correlateTimelineEvent
        (PyText.strip (snapshotIdOf encoding.toEncoding s.tables)) (s.tables.revisionSeq + 1)
        (versionIdsByInventoryKey encoding s.tables call.toSaveCall)) = some events := by
  simp only [snapshotEvents, Option.bind_eq_bind, Option.bind_eq_some_iff,
    correlateInventoryTimelineEvents] at h
  obtain ⟨derived, hderived, h⟩ := h
  split at h
  · cases h
  · exact ⟨derived, hderived, h⟩

theorem lifeAt_snapshotEvents {derived : List (FactEvent κ)} {snapshotId : String}
    {revisionId : ℕ} {versionIds : κ → Option ℕ}
    (h : derived.mapM (correlateTimelineEvent snapshotId revisionId versionIds) = some events)
    (key : κ) : events.filterMap (lifeAt key) = derived.filterMap (lifeAt key) :=
  filterMap_of_mapM h fun _ _ _ hevent => lifeAt_correlated hevent key

omit [DecidableEq χ] in
theorem derived_keyed {derived : List (FactEvent κ)}
    (h : derivedEvents encoding s call = some derived) (hevent : event ∈ derived) :
    event.workspaceId = call.workspaceId ∧
      ((∃ fact observation, event.fact = .kubernetesEvent fact ∧ fact.Records observation ∧
          event.sourceKey = kubernetesEventSourceKey observation) ∨
        ∃ fact change row, event.fact = .inventory fact ∧
          event.sourceKey = inventoryTimelineSourceKey encoding change row) := by
  obtain ⟨inventoryEvents, eventFacts, hinventory, hfacts, rfl⟩ := derivedEvents_spec h
  rcases List.mem_append.mp hevent with hevent | hevent
  · obtain ⟨-, entry, -, hmade⟩ := mem_inventoryPart hinventory hevent
    obtain ⟨hworkspace, hkey, fact, hfact, -, -⟩ := inventoryChangeTimelineEvent_spec hmade
    exact ⟨hworkspace, Or.inr ⟨fact, entry.1, entry.2, hfact, hkey⟩⟩
  · obtain ⟨fact, hfact, rfl⟩ := List.mem_map.mp hevent
    rw [kubernetesEventFactTimelineEvents] at hfacts
    split at hfacts
    · cases hfacts
      cases hfact
    · obtain ⟨observation, -, hmade⟩ := mem_of_mapM hfacts hfact
      obtain ⟨hrecords, heventId⟩ := kubernetesEventTimelineEvent_spec hmade
      exact ⟨rfl, Or.inl ⟨fact, observation, rfl, hrecords, heventId⟩⟩

/-- **An event of a snapshot is of its workspace and keyed by its revision.** -/
theorem snapshotEvents_keyed (h : snapshotEvents encoding s call = some events)
    (hevent : event ∈ events) :
    event.workspaceId = call.workspaceId ∧
      Keyed encoding (· = s.tables.revisionSeq + 1) event := by
  obtain ⟨derived, hderived, hevents⟩ := snapshotEvents_spec h
  obtain ⟨before, hbefore, hmade⟩ := mem_of_mapM hevents hevent
  obtain ⟨hworkspace, hsource⟩ := derived_keyed hderived hbefore
  rcases correlateTimelineEvent_spec hmade with
    ⟨fact, hfact, rfl⟩ | ⟨fact, versionId, after, hfact, -, hsame, hkey, hafter, -, -⟩
  · refine ⟨hworkspace, ?_⟩
    rcases hsource with ⟨fact, observation, hfact, hrecords, hkey⟩ | ⟨_, _, _, hfact', -⟩
    · exact .kubernetesEvent fact observation hfact hrecords hkey
    · rw [hfact] at hfact'
      cases hfact'
  · refine ⟨hsame.trans hworkspace, ?_⟩
    rcases hsource with ⟨_, _, hfact', -, -⟩ | ⟨_, change, row, -, hbase⟩
    · rw [hfact] at hfact'
      cases hfact'
    · rw [hbase] at hkey
      exact .inventory after change row _ _ versionId hafter rfl hkey

theorem snapshotEvents_version (h : snapshotEvents encoding s call = some events)
    (hevent : event ∈ events) {fact : InventoryFact κ} (hfact : event.fact = .inventory fact) :
    ∃ sourceKey snapshotId revisionId versionId,
      event.sourceKey = correlatedSourceKey sourceKey snapshotId revisionId versionId ∧
      versionIdsByInventoryKey encoding s.tables call.toSaveCall fact.nativeId =
        some versionId := by
  obtain ⟨derived, -, hevents⟩ := snapshotEvents_spec h
  obtain ⟨before, -, hmade⟩ := mem_of_mapM hevents hevent
  rcases correlateTimelineEvent_spec hmade with
    ⟨_, hfact', rfl⟩ | ⟨fact', versionId, after, -, hversion, -, hkey, hafter, hnative, -⟩
  · rw [hfact] at hfact'
    cases hfact'
  · obtain rfl : fact = after := TimelineFact.inventory.inj (hfact.symm.trans hafter)
    exact ⟨_, _, _, versionId, hkey, hnative ▸ hversion⟩

theorem apart_snapshotEvents (h : snapshotEvents encoding s call = some events) :
    events.Pairwise Apart := by
  obtain ⟨derived, hderived, hevents⟩ := snapshotEvents_spec h
  obtain ⟨inventoryEvents, eventFacts, hinventory, -, rfl⟩ := derivedEvents_spec hderived
  have hapart : (inventoryEvents ++ eventFacts.map fun fact =>
      (⟨call.workspaceId, fact.eventId, .kubernetesEvent fact⟩ : FactEvent κ)).Pairwise Apart := by
    refine List.pairwise_append.mpr ⟨pairwise_inventoryPart hinventory, ?_, ?_⟩
    · exact List.pairwise_map.mpr (List.pairwise_of_forall fun _ _ _ _ => rfl)
    · intro a _ b hb
      obtain ⟨fact, -, rfl⟩ := List.mem_map.mp hb
      exact fun _ _ => rfl
  refine pairwise_of_mapM hevents hapart fun a b a' b' hab ha hb key => ?_
  rw [lifeAt_correlated ha, lifeAt_correlated hb]
  exact hab key

/-- **Among the events of one snapshot, one that repeats a source key says nothing about
any key.** -/
theorem pairwise_snapshotEvents (hlaw : InventoryLaw encoding.toEncoding s.tables)
    (h : snapshotEvents encoding s call = some events) (key : κ) :
    events.Pairwise fun a b => a.sourceKey = b.sourceKey → lifeAt key b = none := by
  refine (apart_snapshotEvents h).imp_of_mem fun {a b} ha hb hab hkey => ?_
  by_contra hlife
  obtain ⟨fact, hfact, rfl⟩ := inventory_of_lifeAt hlife
  rcases (snapshotEvents_keyed h ha).2.source (snapshotEvents_keyed h hb).2 hkey with
    ⟨_, fact', -, hfact', -⟩ | ⟨fact', _, _, hfact', -⟩
  · rw [hfact] at hfact'
    cases hfact'
  · -- the version at the end of the key is that of one inventory key
    obtain ⟨_, _, _, _, hkeya, hversiona⟩ := snapshotEvents_version h ha hfact'
    obtain ⟨_, _, _, _, hkeyb, hversionb⟩ := snapshotEvents_version h hb hfact
    obtain ⟨-, hsame⟩ := correlatedSourceKey_inj (hkeya.symm.trans (hkey.trans hkeyb))
    have hnative := versionId_inj hlaw hversiona (hsame ▸ hversionb)
    refine hlife (hab _ ?_)
    rw [lifeAt_of_inventory hfact', if_pos hnative]
    exact Option.some_ne_none _

/-! ## One call -/

/-- The result of a call that is not rolled back says whether the snapshot is accepted. -/
def accepts (encoding : FactEncoding κ χ) (s : IngestState κ χ) (call : IngestCall) : Bool :=
  (writeInventorySnapshot encoding s call).any fun written => written.2.accepted

/-- **What one call can do**: it is rolled back, or ignored as stale, or accepted with its
events. -/
theorem ingest_cases (encoding : FactEncoding κ χ) (s : IngestState κ χ) (call : IngestCall) :
    (accepts encoding s call = false ∧ ingest encoding s call = s) ∨
    (accepts encoding s call = false ∧ isStale s.tables call.toSaveCall = true ∧
      ingest encoding s call =
        { s with
          tables := step encoding.toEncoding s.tables call.toSaveCall
          captures := s.captures ++ [captureRow encoding s call "ignored_stale"] }) ∨
    (accepts encoding s call = true ∧ isStale s.tables call.toSaveCall = false ∧
      ∃ events, snapshotEvents encoding s call = some events ∧
        ingest encoding s call =
          { tables := step encoding.toEncoding s.tables call.toSaveCall
            captures := s.captures ++ [captureRow encoding s call call.status]
            ledger := s.ledger.appendTimelineEvents call.workspaceId events }) := by
  have hresult : (saveInventorySnapshotMutation encoding.toEncoding s.tables
      call.toSaveCall).2.accepted = !isStale s.tables call.toSaveCall := by
    rw [saveInventorySnapshotMutation]
    rcases isStale s.tables call.toSaveCall with _ | _ <;> rfl
  rw [accepts, ingest, writeInventorySnapshot]
  rcases hstale : isStale s.tables call.toSaveCall with _ | _
  · rcases hevents : snapshotEvents encoding s call with _ | events
    · exact Or.inl ⟨rfl, rfl⟩
    · rw [hstale] at hresult
      exact Or.inr (Or.inr ⟨by simpa using hresult, rfl, events, rfl, rfl⟩)
  · rw [hstale] at hresult
    exact Or.inr (Or.inl ⟨by simpa using hresult, rfl, rfl⟩)

/-! ## The law -/

variable (encoding) in
/-- What every reachable state satisfies. -/
structure IngestLaw (s : IngestState κ χ) : Prop where
  inventory : InventoryLaw encoding.toEncoding s.tables
  positive : PositiveIds s.tables
  keyed : ∀ row ∈ s.ledger.rows, Keyed encoding (· ≤ s.tables.revisionSeq) row.event
  sequenced : s.ledger.Sequenced
  unique : s.ledger.KeysUnique

omit [DecidableEq κ] [DecidableEq χ] in
theorem IngestLaw.empty : IngestLaw encoding (IngestState.empty : IngestState κ χ) where
  inventory := InventoryLaw.empty
  positive _ hversion := absurd hversion List.not_mem_nil
  keyed _ hrow := absurd hrow List.not_mem_nil
  sequenced := Timeline.TimelineLedger.Sequenced.empty
  unique := List.Pairwise.nil

variable (encoding) in
theorem accepted_step {call : SaveCall} (hstale : isStale tables call = false) :
    Accepted encoding.toEncoding tables call (step encoding.toEncoding tables call) :=
  accepted_of_not_stale hstale

variable (encoding) in
theorem ignored_step {call : SaveCall} (hstale : isStale tables call = true) :
    Ignored tables (step encoding.toEncoding tables call) :=
  ignored_of_stale hstale

variable (encoding) in
theorem positive_step (hpositive : PositiveIds tables) (call : SaveCall) :
    PositiveIds (step encoding.toEncoding tables call) ∧
      tables.revisionSeq ≤ (step encoding.toEncoding tables call).revisionSeq := by
  rcases hstale : isStale tables call with _ | _
  · have hnext := accepted_step encoding hstale
    refine ⟨fun version hversion => ?_, hnext.revisionSeq ▸ Nat.le_succ _⟩
    rw [hnext.versions] at hversion
    obtain ⟨old, hold, stop, rfl⟩ | hnew := mem_commitVersions hversion
    · exact hpositive old hold
    · obtain ⟨-, -, -, hlt, -⟩ := mem_stamp hnew
      omega
  · have hnext := ignored_step encoding hstale
    refine ⟨fun version hversion => ?_, le_of_eq hnext.revisionSeq.symm⟩
    rw [hnext.versions] at hversion
    exact hpositive version hversion

/-- **Every call keeps the law.** -/
theorem IngestLaw.ingest (hlaw : IngestLaw encoding s) (call : IngestCall) :
    IngestLaw encoding (ingest encoding s call) := by
  obtain ⟨hpositive, hrevision⟩ := positive_step encoding hlaw.positive call.toSaveCall
  have hinventory := hlaw.inventory.step call.toSaveCall
  have hold : ∀ row ∈ s.ledger.rows, Keyed encoding
      (· ≤ (step encoding.toEncoding s.tables call.toSaveCall).revisionSeq) row.event :=
    fun row hrow => (hlaw.keyed row hrow).mono fun _ hle => hle.trans hrevision
  rcases ingest_cases encoding s call with
    ⟨-, heq⟩ | ⟨-, -, heq⟩ | ⟨-, hstale, events, hevents, heq⟩
  · rw [heq]
    exact hlaw
  · rw [heq]
    exact ⟨hinventory, hpositive, hold, hlaw.sequenced, hlaw.unique⟩
  · rw [heq]
    have hworkspace : ∀ event ∈ events, event.workspaceId = call.workspaceId :=
      fun _ hevent => (snapshotEvents_keyed hevents hevent).1
    refine ⟨hinventory, hpositive, fun row hrow => ?_, hlaw.sequenced.append hworkspace,
      hlaw.unique.append hworkspace⟩
    rcases Timeline.TimelineLedger.event_of_mem_append hrow with ⟨old, holdrow, hsame⟩ | hnew
    · exact hsame ▸ hold old holdrow
    · have hnext := accepted_step encoding hstale
      refine (snapshotEvents_keyed hevents hnew).2.mono fun n hn => ?_
      change n ≤ (step encoding.toEncoding s.tables call.toSaveCall).revisionSeq
      rw [hn, hnext.revisionSeq]

end Opsia.Inventory
