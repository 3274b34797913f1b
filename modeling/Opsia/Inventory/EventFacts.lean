import Opsia.Inventory.IngestLaw

/-!
# Event observations in the timeline

An Event capture adds what advances over the latest authoritative capture that is stored,
whether or not that one was fresh when it was saved and so added anything. The ledger never
records an observation twice. It records every observation that advances as long as every
stored authoritative capture is covered by the ledger (`CapturesCovered`): then what does
not advance over the stored capture does not advance over the ledger either
(`run_observations_recorded`). A capture that was not fresh breaks this, and the next fresh
one is compared with it (`unfresh_capture_hides_event`).

A snapshot that is ignored as stale adds no facts, and its capture is never compared with.
-/

namespace Opsia.Inventory

/-! ## Covering -/

/-- A fact says at least what an observation of its Event says. -/
def KubernetesEventFact.covers (fact : KubernetesEventFact)
    (observation : KubernetesEventObservation) : Bool :=
  fact.nativeId = observation.uid && observation.count ≤ fact.count &&
    observation.lastOccurrenceAt ≤ fact.occurredAt

namespace KubernetesEventFact

variable {fact : KubernetesEventFact} {o p : KubernetesEventObservation}

theorem covers_iff : fact.covers o = true ↔
    fact.nativeId = o.uid ∧ o.count ≤ fact.count ∧ o.lastOccurrenceAt ≤ fact.occurredAt := by
  simp [covers, and_assoc]

theorem covers_of_coveredBy (h : fact.covers p = true) (hop : o.coveredBy p) :
    fact.covers o = true := by
  obtain ⟨huid, hcount, htime⟩ := covers_iff.mp h
  obtain ⟨hsame, hcount', htime'⟩ := hop
  exact covers_iff.mpr ⟨huid.trans hsame.symm, hcount'.trans hcount, htime'.trans htime⟩

theorem covers_of_records (h : fact.Records o) : fact.covers o = true :=
  covers_iff.mpr ⟨h.uid, h.count.ge, h.occurredAt.ge⟩

/-- A fact that an observation of its Event advances over. -/
def Behind (fact : KubernetesEventFact) (o : KubernetesEventObservation) : Prop :=
  fact.count < o.count ∨ fact.occurredAt < o.lastOccurrenceAt

theorem covers_of_not_behind (huid : fact.nativeId = o.uid) (h : ¬ fact.Behind o) :
    fact.covers o = true := by
  simp only [Behind, not_or, not_lt] at h
  exact covers_iff.mpr ⟨huid, h.1, h.2⟩

theorem not_behind_of_covers (h : fact.covers o = true) : ¬ fact.Behind o := by
  obtain ⟨-, hcount, htime⟩ := covers_iff.mp h
  rintro (hlt | hlt)
  · exact absurd hlt (not_lt.mpr hcount)
  · exact absurd hlt (not_lt.mpr htime)

end KubernetesEventFact

/-- The newest observations of a capture, one an Event. -/
def newest (batch : KubernetesEventFactBatch) : List KubernetesEventObservation :=
  (eventObservationsByUid batch.observations).rows

variable {κ χ : Type} {encoding : FactEncoding κ χ}

/-- The fact of an Event of a workspace. -/
def eventFact? (workspaceId : String) (row : Timeline.TimelineLedgerEvent (TimelineFact κ)) :
    Option KubernetesEventFact :=
  match row.event.fact with
  | .kubernetesEvent fact => if row.event.workspaceId = workspaceId then some fact else none
  | .inventory _ => none

/-- The facts of Events that a workspace has in the ledger. -/
def eventFacts (ledger : Timeline.TimelineLedger (TimelineFact κ)) (workspaceId : String) :
    List KubernetesEventFact :=
  ledger.rows.filterMap (eventFact? workspaceId)

variable {workspaceId : String} {o : KubernetesEventObservation}
  {ledger : Timeline.TimelineLedger (TimelineFact κ)}
  {observations : List KubernetesEventObservation}

theorem mem_eventFacts {fact : KubernetesEventFact} : fact ∈ eventFacts ledger workspaceId ↔
      ∃ row ∈ ledger.rows, row.event.workspaceId = workspaceId ∧
        row.event.fact = .kubernetesEvent fact := by
  rw [eventFacts, List.mem_filterMap]
  refine exists_congr fun row => and_congr_right fun _ => ?_
  rw [eventFact?]
  rcases row.event.fact with other | other
  · simp
  · simp

/-- The ledger says at least what the observations say. -/
def Covered (ledger : Timeline.TimelineLedger (TimelineFact κ)) (workspaceId : String)
    (observations : List KubernetesEventObservation) : Bool :=
  observations.all fun observation =>
    (eventFacts ledger workspaceId).any fun fact => fact.covers observation

theorem covered_iff :
    Covered ledger workspaceId observations = true ↔ ∀ o ∈ observations,
      ∃ fact ∈ eventFacts ledger workspaceId, fact.covers o = true := by
  simp only [Covered, List.all_eq_true, List.any_eq_true]

theorem not_behind_of_covered (h : Covered ledger workspaceId observations = true)
    (ho : o ∈ observations) :
    ∃ fact ∈ eventFacts ledger workspaceId, fact.nativeId = o.uid ∧ ¬ fact.Behind o := by
  obtain ⟨fact, hfact, hcovers⟩ := covered_iff.mp h o ho
  exact ⟨fact, hfact, (KubernetesEventFact.covers_iff.mp hcovers).1,
    KubernetesEventFact.not_behind_of_covers hcovers⟩

theorem covered_or_behind (ledger : Timeline.TimelineLedger (TimelineFact κ))
    (workspaceId : String) (o : KubernetesEventObservation) :
    (∃ fact ∈ eventFacts ledger workspaceId, fact.covers o = true) ∨
      ∀ fact ∈ eventFacts ledger workspaceId, fact.nativeId = o.uid → fact.Behind o := by
  by_cases hnew : ∀ fact ∈ eventFacts ledger workspaceId, fact.nativeId = o.uid → fact.Behind o
  · exact Or.inr hnew
  · simp only [not_forall] at hnew
    obtain ⟨fact, hfact, huid, hnot⟩ := hnew
    exact Or.inl ⟨fact, hfact, KubernetesEventFact.covers_of_not_behind huid hnot⟩

/-! ## The capture that is compared with -/

/-- A stored capture that a later one may be compared with. -/
def CaptureRow.candidate (row : CaptureRow) : Bool :=
  (row.candidateAt? row.workspaceId row.clusterId).isSome

theorem mem_captureCandidates {captures : List CaptureRow} {clusterId : String} {row : CaptureRow}
    (h : row ∈ captureCandidates captures workspaceId clusterId) :
    row ∈ captures ∧ row.workspaceId = workspaceId ∧ row.candidate = true := by
  simp only [captureCandidates, List.mem_map] at h
  obtain ⟨entry, hentry, rfl⟩ := h
  have hentry := (List.mem_insertionSort _).mp (List.mem_of_mem_take hentry)
  obtain ⟨row, hrow, hat⟩ := List.mem_filterMap.mp hentry
  obtain ⟨observedAt, hcandidate, rfl⟩ := Option.map_eq_some_iff.mp hat
  refine ⟨hrow, ?_⟩
  have hwhere := hcandidate
  rw [CaptureRow.candidateAt?] at hwhere
  split at hwhere
  · rename_i hin
    simp only [Bool.and_eq_true, decide_eq_true_eq] at hin
    obtain ⟨⟨hworkspace, hcluster⟩, -⟩ := hin
    refine ⟨hworkspace, ?_⟩
    rw [CaptureRow.candidate, hworkspace, hcluster, hcandidate]
    rfl
  · cases hwhere

theorem latest_spec {literals : Literals} {captures : List CaptureRow}
    (hids : (captures.map CaptureRow.snapshotId).Nodup) {clusterId : String}
    {batch : KubernetesEventFactBatch}
    (h : latestCompleteKubernetesEventBatch literals captures workspaceId clusterId = some batch) :
    ∃ row ∈ captures, row.workspaceId = workspaceId ∧ row.candidate = true ∧
      batch = KubernetesEventFactBatch.fromSnapshotSummary literals row.summary ∧
      batch.capture.authoritative = true := by
  simp only [latestCompleteKubernetesEventBatch, Option.bind_eq_bind,
    Option.bind_eq_some_iff, Option.ite_none_right_eq_some] at h
  obtain ⟨candidate, hcandidate, snapshot, hsnapshot, hauthoritative, hbatch⟩ := h
  obtain ⟨hmem, hworkspace, his⟩ :=
    mem_captureCandidates (List.mem_of_find?_eq_some hcandidate)
  have hwhere := List.find?_some hsnapshot
  simp only [Bool.and_eq_true, decide_eq_true_eq] at hwhere
  obtain rfl : snapshot = candidate := List.inj_on_of_nodup_map hids
    (List.mem_of_find?_eq_some hsnapshot) hmem hwhere.1.1
  obtain rfl := Option.some.inj hbatch
  exact ⟨snapshot, hmem, hworkspace, his, rfl, hauthoritative⟩

/-! ## What a fresh capture adds -/

variable [DecidableEq κ] [DecidableEq χ] {s : IngestState κ χ} {call : IngestCall}

/-- Identifiers of stored captures are drawn and differ. -/
structure CapturesDrawn (encoding : FactEncoding κ χ) (s : IngestState κ χ) : Prop where
  nodup : (s.captures.map CaptureRow.snapshotId).Nodup
  drawn : ∀ row ∈ s.captures, ∃ n < s.tables.snapshots.length, row.snapshotId = encoding.uuid n

/-- The stored captures that a later one may be compared with are covered. -/
def CapturesCovered (encoding : FactEncoding κ χ) (s : IngestState κ χ) : Prop :=
  ∀ row ∈ s.captures, row.candidate = true →
    (KubernetesEventFactBatch.fromSnapshotSummary encoding.literals
      row.summary).capture.authoritative = true →
    Covered s.ledger row.workspaceId (newest
      (KubernetesEventFactBatch.fromSnapshotSummary encoding.literals row.summary)) = true

/-- The call brings a fresh capture. -/
def IngestCall.fresh (encoding : FactEncoding κ χ) (call : IngestCall) : Bool :=
  (call.eventBatch encoding).capture.isFreshAt call.observedAt

omit [DecidableEq κ] [DecidableEq χ] in
/-- **Over a covered capture, what advances over the ledger advances.** -/
theorem advanced_of_behind (hdrawn : CapturesDrawn encoding s)
    (hcovered : CapturesCovered encoding s)
    (hnew : ∀ fact ∈ eventFacts s.ledger call.workspaceId, fact.nativeId = o.uid → fact.Behind o)
    (ho : o ∈ newest (call.eventBatch encoding)) :
    o ∈ advancedObservations (previousEventBatch encoding s call) (call.eventBatch encoding) := by
  refine List.mem_filter.mpr ⟨(List.mem_insertionSort _).mpr ho, ?_⟩
  -- an observation of the capture before is covered by a fact, over which this one advances
  have hover : ∀ batch, previousEventBatch encoding s call = some batch →
      batch.capture.authoritative = true → ∀ p ∈ newest batch, p.uid = o.uid →
      eventObservationAdvanced (some p) o = true := by
    intro batch hprevious hauthoritative p hp huid
    rw [advanced_iff huid.symm]
    intro hby
    rw [previousEventBatch, Option.ite_none_right_eq_some] at hprevious
    obtain ⟨row, hrow, hworkspace, hcandidate, rfl, -⟩ := latest_spec hdrawn.nodup hprevious.2
    obtain ⟨fact, hfact, hcovers⟩ :=
      covered_iff.mp (hcovered row hrow hcandidate hauthoritative) p hp
    rw [hworkspace] at hfact
    have hcovers := KubernetesEventFact.covers_of_coveredBy hcovers hby
    have hsame := (KubernetesEventFact.covers_iff.mp hcovers).1
    exact KubernetesEventFact.not_behind_of_covers hcovers (hnew fact hfact hsame)
  rcases hprevious : previousEventBatch encoding s call with _ | batch
  · rfl
  · dsimp only
    rcases hauthoritative : batch.capture.authoritative with _ | _
    · rfl
    · rw [if_pos rfl]
      rcases hp : (eventObservationsByUid batch.observations).find? o.uid with _ | p
      · rfl
      · exact hover batch hprevious hauthoritative p (Table.mem_of_find? hp)
          (Table.key_of_find? hp)

omit [DecidableEq χ] in
theorem exists_derived {derived : List (FactEvent κ)}
    (h : derivedEvents encoding s call = some derived) (hfresh : call.fresh encoding = true)
    (ho : o ∈ advancedObservations (previousEventBatch encoding s call)
      (call.eventBatch encoding)) :
    ∃ event ∈ derived, ∃ fact, event.fact = .kubernetesEvent fact ∧
      event.sourceKey = kubernetesEventSourceKey o := by
  obtain ⟨inventoryEvents, eventFacts, -, hfacts, rfl⟩ := derivedEvents_spec h
  rw [IngestCall.fresh] at hfresh
  rw [kubernetesEventFactTimelineEvents, hfresh, Bool.not_true,
    if_neg Bool.false_ne_true] at hfacts
  obtain ⟨fact, hfact, hmade⟩ := exists_of_mapM hfacts ho
  obtain ⟨-, heventId⟩ := kubernetesEventTimelineEvent_spec hmade
  exact ⟨_, List.mem_append_right _ (List.mem_map_of_mem hfact), fact, rfl, heventId⟩

/-- **The ledger takes what a fresh capture advances.** -/
theorem exists_recorded (hlaw : IngestLaw encoding s) {events : List (FactEvent κ)}
    (h : snapshotEvents encoding s call = some events) (hfresh : call.fresh encoding = true)
    (ho : o ∈ advancedObservations (previousEventBatch encoding s call)
      (call.eventBatch encoding)) :
    ∃ fact ∈ eventFacts (s.ledger.appendTimelineEvents call.workspaceId events) call.workspaceId,
      fact.Records o := by
  obtain ⟨derived, hderived, hevents⟩ := snapshotEvents_spec h
  obtain ⟨event, hevent, fact, hfact, hkey⟩ := exists_derived hderived hfresh ho
  -- correlating leaves the event as it is
  obtain ⟨correlated, hcorrelated, hmade⟩ := exists_of_mapM hevents hevent
  rw [correlateTimelineEvent, hfact] at hmade
  obtain rfl := Option.some.inj hmade
  have hbatch : ∀ event ∈ events, event.workspaceId = call.workspaceId :=
    fun _ hevent => (snapshotEvents_keyed h hevent).1
  obtain ⟨row, hrow, hworkspace, hsame⟩ :=
    Timeline.TimelineLedger.exists_row_append s.ledger hbatch hcorrelated
  have hkeyed : Keyed encoding (fun _ => True) row.event := by
    rcases Timeline.TimelineLedger.event_of_mem_append hrow with ⟨old, hold, heq⟩ | hnew
    · exact heq ▸ (hlaw.keyed old hold).mono fun _ _ => trivial
    · exact (snapshotEvents_keyed h hnew).2.mono fun _ _ => trivial
  cases hkeyed with
  | kubernetesEvent recorded observation hrecorded hrecords hkey' =>
    obtain ⟨huid, hcount, htime⟩ :=
      kubernetesEventSourceKey_inj (hkey'.symm.trans (hsame.trans hkey))
    exact ⟨recorded, mem_eventFacts.mpr ⟨row, hrow, hworkspace, hrecorded⟩,
      hrecords.uid.trans huid, hrecords.count.trans hcount, hrecords.occurredAt.trans htime⟩
  | inventory _ change row' snapshotId revisionId versionId _ _ hkey' =>
    exact absurd (hkey'.symm.trans (hsame.trans hkey))
      (correlatedSourceKey_ne change row' snapshotId revisionId versionId o)

/-! ## The law -/

/-- Facts that record one observation. -/
def SameObservation (fact later : KubernetesEventFact) : Prop :=
  fact.nativeId = later.nativeId ∧ fact.count = later.count ∧ fact.occurredAt = later.occurredAt

variable (encoding) in
/-- The call is not rolled back. -/
def saves (s : IngestState κ χ) (call : IngestCall) : Bool :=
  (writeInventorySnapshot encoding s call).isSome

theorem accepts_of_saves (hsaves : saves encoding s call = true)
    (hstale : isStale s.tables call.toSaveCall = false) : accepts encoding s call = true := by
  have hresult : (saveInventorySnapshotMutation encoding.toEncoding s.tables
      call.toSaveCall).2.accepted = true := by
    rw [saveInventorySnapshotMutation, hstale]
    rfl
  rw [saves, writeInventorySnapshot, hstale] at hsaves
  rw [accepts, writeInventorySnapshot, hstale]
  rcases hevents : snapshotEvents encoding s call with _ | events
  · simp [hevents] at hsaves
  · simpa using hresult

variable (encoding) in
/-- What one call does with the observations of Events. -/
structure ObservationsRecorded (e : Runs.Entry (IngestState κ χ) IngestCall) : Prop where
  /-- a fresh capture adds the newest observation of an Event that advances over all its
  facts -/
  appended : saves encoding e.pre e.action = true → e.action.fresh encoding = true →
    ∀ o ∈ newest (e.action.eventBatch encoding),
      (∀ fact ∈ eventFacts e.pre.ledger e.action.workspaceId,
        fact.nativeId = o.uid → fact.Behind o) →
      ∃ fact ∈ eventFacts e.post.ledger e.action.workspaceId,
        fact ∉ eventFacts e.pre.ledger e.action.workspaceId ∧ fact.Records o
  /-- what a fresh capture shows is in the ledger, whatever captures showed it before -/
  kept : saves encoding e.pre e.action = true → e.action.fresh encoding = true →
    Covered e.post.ledger e.action.workspaceId (newest (e.action.eventBatch encoding)) = true
  /-- no observation is recorded twice -/
  once : ∀ workspaceId, (eventFacts e.post.ledger workspaceId).Pairwise fun fact later =>
    ¬ SameObservation fact later

variable (encoding) in
/-- An authoritative capture that shows what the ledger does not cover is fresh when it is
saved, and its snapshot is not ignored. -/
def freshOrCovered (s : IngestState κ χ) (call : IngestCall) : Bool :=
  !(call.eventBatch encoding).capture.authoritative ||
    Covered s.ledger call.workspaceId (newest (call.eventBatch encoding)) ||
    if isStale s.tables call.toSaveCall then !call.fresh encoding
    else call.fresh encoding || call.status = "ignored_stale"

omit [DecidableEq κ] [DecidableEq χ] in
theorem pairwise_eventFacts (hlaw : IngestLaw encoding s) (workspaceId : String) :
    (eventFacts s.ledger workspaceId).Pairwise fun fact later => ¬ SameObservation fact later := by
  have hunique : s.ledger.rows.Pairwise fun row later =>
      row.event.workspaceId = later.event.workspaceId →
        row.event.sourceKey ≠ later.event.sourceKey := List.pairwise_map.mp hlaw.unique
  have hread : ∀ row ∈ s.ledger.rows, ∀ fact, eventFact? workspaceId row = some fact →
      row.event.workspaceId = workspaceId ∧ ∃ o, fact.Records o ∧
        row.event.sourceKey = kubernetesEventSourceKey o := by
    intro row hrow fact hfact
    rw [eventFact?] at hfact
    cases hlaw.keyed row hrow with
    | kubernetesEvent recorded observation hrecorded hrecords hkey =>
      rw [hrecorded, Option.ite_none_right_eq_some] at hfact
      obtain ⟨hworkspace, hsame⟩ := hfact
      exact ⟨hworkspace, observation, Option.some.inj hsame ▸ hrecords, hkey⟩
    | inventory _ _ _ _ _ _ hinventory _ _ =>
      rw [hinventory] at hfact
      cases hfact
  refine List.pairwise_filterMap.mpr (hunique.imp_of_mem ?_)
  intro row later hrow hlater hne fact hfact fact' hfact' hsame
  obtain ⟨hworkspace, o, hrecords, hkey⟩ := hread row hrow fact hfact
  obtain ⟨hworkspace', o', hrecords', hkey'⟩ := hread later hlater fact' hfact'
  refine hne (hworkspace.trans hworkspace'.symm) ?_
  rw [hkey, hkey', kubernetesEventSourceKey, kubernetesEventSourceKey, ← hrecords.uid,
    ← hrecords'.uid, ← hrecords.count, ← hrecords'.count, ← hrecords.occurredAt,
    ← hrecords'.occurredAt, hsame.1, hsame.2.1, hsame.2.2]

variable (encoding) in
/-- The law of the runs of this module. -/
structure ObservationLaw (s : IngestState κ χ) : Prop where
  law : IngestLaw encoding s
  drawn : CapturesDrawn encoding s
  covered : CapturesCovered encoding s

omit [DecidableEq κ] [DecidableEq χ] in
theorem ObservationLaw.empty :
    ObservationLaw encoding (IngestState.empty : IngestState κ χ) where
  law := IngestLaw.empty
  drawn := ⟨List.nodup_nil, fun _ hrow => absurd hrow List.not_mem_nil⟩
  covered _ hrow := absurd hrow List.not_mem_nil

theorem mem_eventFacts_ingest {fact : KubernetesEventFact}
    (h : fact ∈ eventFacts s.ledger workspaceId) :
    fact ∈ eventFacts (ingest encoding s call).ledger workspaceId := by
  obtain ⟨row, hrow, hfact⟩ := mem_eventFacts.mp h
  refine mem_eventFacts.mpr ⟨row, ?_, hfact⟩
  rcases ingest_cases encoding s call with
    ⟨-, heq⟩ | ⟨-, -, heq⟩ | ⟨-, -, events, -, heq⟩
  · rw [heq]
    exact hrow
  · rw [heq]
    exact hrow
  · rw [heq]
    exact Timeline.TimelineLedger.mem_append hrow _ _

theorem Covered.ingest (h : Covered s.ledger workspaceId observations = true) :
    Covered (ingest encoding s call).ledger workspaceId observations = true := by
  rw [covered_iff] at h ⊢
  intro o ho
  obtain ⟨fact, hfact, hcovers⟩ := h o ho
  exact ⟨fact, mem_eventFacts_ingest hfact, hcovers⟩

theorem recorded_of_accepts (hlaw : ObservationLaw encoding s)
    (haccepts : accepts encoding s call = true) (hfresh : call.fresh encoding = true)
    (ho : o ∈ newest (call.eventBatch encoding))
    (hnew : ∀ fact ∈ eventFacts s.ledger call.workspaceId, fact.nativeId = o.uid → fact.Behind o) :
    ∃ fact ∈ eventFacts (ingest encoding s call).ledger call.workspaceId,
      fact ∉ eventFacts s.ledger call.workspaceId ∧ fact.Records o := by
  rcases ingest_cases encoding s call with
    ⟨hnot, -⟩ | ⟨hnot, -, -⟩ | ⟨-, -, events, hevents, heq⟩
  · exact absurd (hnot.symm.trans haccepts) Bool.false_ne_true
  · exact absurd (hnot.symm.trans haccepts) Bool.false_ne_true
  · obtain ⟨fact, hfact, hrecords⟩ := exists_recorded hlaw.law hevents hfresh
      (advanced_of_behind hlaw.drawn hlaw.covered hnew ho)
    rw [heq]
    refine ⟨fact, hfact, fun hold => ?_, hrecords⟩
    exact KubernetesEventFact.not_behind_of_covers
      (KubernetesEventFact.covers_of_records hrecords) (hnew fact hold hrecords.uid)

theorem covered_of_accepts (hlaw : ObservationLaw encoding s)
    (haccepts : accepts encoding s call = true) (hfresh : call.fresh encoding = true) :
    Covered (ingest encoding s call).ledger call.workspaceId
      (newest (call.eventBatch encoding)) = true := by
  refine covered_iff.mpr fun o ho => ?_
  rcases covered_or_behind s.ledger call.workspaceId o with ⟨fact, hfact, hcovers⟩ | hnew
  · exact ⟨fact, mem_eventFacts_ingest hfact, hcovers⟩
  · obtain ⟨fact, hfact, -, hrecords⟩ := recorded_of_accepts hlaw haccepts hfresh ho hnew
    exact ⟨fact, hfact, KubernetesEventFact.covers_of_records hrecords⟩

theorem covered_or_accepts (hok : freshOrCovered encoding s call = true)
    (hsaves : saves encoding s call = true) (hfresh : call.fresh encoding = true) :
    Covered s.ledger call.workspaceId (newest (call.eventBatch encoding)) = true ∨
      accepts encoding s call = true := by
  have hauthoritative := KubernetesEventCapture.authoritative_of_fresh hfresh
  rw [freshOrCovered, hauthoritative, hfresh] at hok
  rcases hstale : isStale s.tables call.toSaveCall with _ | _
  · exact Or.inr (accepts_of_saves hsaves hstale)
  · left
    simpa [hstale] using hok

/-- **A call from a state whose stored captures are covered records the observations.** -/
theorem observationsRecorded_ingest (hlaw : ObservationLaw encoding s) {call : IngestCall}
    (hok : freshOrCovered encoding s call = true) :
    ObservationsRecorded encoding ⟨s, call, ingest encoding s call⟩ := by
  refine ⟨fun hsaves hfresh o ho hnew => ?_, fun hsaves hfresh => ?_,
    pairwise_eventFacts (hlaw.law.ingest call)⟩
  · rcases covered_or_accepts hok hsaves hfresh with hcovered | haccepts
    · obtain ⟨fact, hfact, huid, hnot⟩ := not_behind_of_covered hcovered ho
      exact absurd (hnew fact hfact huid) hnot
    · exact recorded_of_accepts hlaw haccepts hfresh ho hnew
  · rcases covered_or_accepts hok hsaves hfresh with hcovered | haccepts
    · exact Covered.ingest hcovered
    · exact covered_of_accepts hlaw haccepts hfresh

/-! ## What a call keeps -/

omit [DecidableEq κ] [DecidableEq χ] in
theorem status_of_candidate {status : String}
    (h : (captureRow encoding s call status).candidate = true) : status ≠ "ignored_stale" := by
  rintro rfl
  simp [CaptureRow.candidate, CaptureRow.candidateAt?, captureRow] at h

variable (encoding) in
theorem length_snapshots_step (tables : InventoryTables κ χ) (call : SaveCall) :
    (step encoding.toEncoding tables call).snapshots.length = tables.snapshots.length + 1 := by
  rcases hstale : isStale tables call with _ | _
  · exact (accepted_step encoding hstale).snapshots
  · exact (ignored_step encoding hstale).snapshots

theorem CapturesDrawn.insert (hdrawn : CapturesDrawn encoding s) (call : IngestCall)
    (status : String) (ledger : Timeline.TimelineLedger (TimelineFact κ)) :
    CapturesDrawn encoding
      ⟨step encoding.toEncoding s.tables call.toSaveCall,
        s.captures ++ [captureRow encoding s call status], ledger⟩ := by
  have hlength := length_snapshots_step encoding s.tables call.toSaveCall
  refine ⟨?_, fun row hrow => ?_⟩
  · simp only [List.map_append, List.map_cons, List.map_nil]
    refine List.nodup_append.mpr ⟨hdrawn.nodup, List.nodup_singleton _, ?_⟩
    intro id hid id' hid'
    obtain ⟨row, hrow, rfl⟩ := List.mem_map.mp hid
    obtain rfl := List.mem_singleton.mp hid'
    obtain ⟨n, hn, hdraw⟩ := hdrawn.drawn row hrow
    rw [hdraw]
    exact fun hsame => absurd (encoding.uuid_injective hsame) (Nat.ne_of_lt hn)
  · simp only at hrow ⊢
    rcases List.mem_append.mp hrow with hold | hnew
    · obtain ⟨n, hn, hdraw⟩ := hdrawn.drawn row hold
      exact ⟨n, by omega, hdraw⟩
    · obtain rfl := List.mem_singleton.mp hnew
      exact ⟨s.tables.snapshots.length, by omega, rfl⟩

theorem CapturesCovered.insert (hcovered : CapturesCovered encoding s) {status : String}
    (hnew : status ≠ "ignored_stale" → (call.eventBatch encoding).capture.authoritative = true →
      Covered (ingest encoding s call).ledger call.workspaceId
        (newest (call.eventBatch encoding)) = true)
    (hcaptures : (ingest encoding s call).captures =
      s.captures ++ [captureRow encoding s call status]) :
    CapturesCovered encoding (ingest encoding s call) := by
  intro row hrow hcandidate hauthoritative
  rw [hcaptures] at hrow
  rcases List.mem_append.mp hrow with hold | hrow
  · exact Covered.ingest (hcovered row hold hcandidate hauthoritative)
  · obtain rfl := List.mem_singleton.mp hrow
    exact hnew (status_of_candidate hcandidate) hauthoritative

/-- **A call that meets the condition keeps the law.** -/
theorem ObservationLaw.ingest (hlaw : ObservationLaw encoding s)
    (hok : freshOrCovered encoding s call = true) :
    ObservationLaw encoding (ingest encoding s call) := by
  have hingest := hlaw.law.ingest call
  rcases ingest_cases encoding s call with
    ⟨-, heq⟩ | ⟨-, hstale, heq⟩ | ⟨haccepts, hstale, events, hevents, heq⟩
  · rw [heq]
    exact hlaw
  · refine ⟨hingest, heq ▸ hlaw.drawn.insert call _ _, ?_⟩
    exact hlaw.covered.insert (fun hstatus => absurd rfl hstatus) (by rw [heq])
  · refine ⟨hingest, heq ▸ hlaw.drawn.insert call _ _, ?_⟩
    refine hlaw.covered.insert (fun hstatus hauthoritative => ?_) (by rw [heq])
    rw [freshOrCovered, hauthoritative, hstale] at hok
    simp only [Bool.not_true, Bool.false_or, Bool.false_eq_true, if_false, Bool.or_eq_true,
      decide_eq_true_eq] at hok
    obtain hcovered | hfresh | hignored := hok
    · exact Covered.ingest hcovered
    · exact covered_of_accepts hlaw haccepts hfresh
    · exact absurd hignored hstatus

variable (encoding) in
/-- **In every run whose authoritative captures are fresh when they are saved, or show what
the ledger covers, observations of Events are neither lost nor recorded twice.** -/
theorem run_observations_recorded {calls : List IngestCall}
    (hok : Runs.Meets (ingest encoding) (fun s call => freshOrCovered encoding s call = true)
      IngestState.empty calls) :
    ∀ e ∈ Runs.trace (ingest encoding) (IngestState.empty : IngestState κ χ) calls,
      ObservationsRecorded encoding e := by
  have hkeeps : ∀ (s : IngestState κ χ) call, ObservationLaw encoding s →
      freshOrCovered encoding s call = true → ObservationLaw encoding (ingest encoding s call) :=
    fun s call hlaw hmeets => hlaw.ingest hmeets
  rintro ⟨s, call, next⟩ he
  obtain ⟨hlaw, hmeets, hpost⟩ :=
    Runs.trace_invariant_of_meets hkeeps ObservationLaw.empty hok _ he
  obtain rfl : next = ingest encoding s call := hpost
  exact observationsRecorded_ingest hlaw hmeets

/-! ## A capture that is not fresh -/

/-- The summary of a payload whose capture shows one Event. -/
def oneEventSummary (capturedAt count lastOccurrenceAt : String) : Json :=
  .obj
    [("kubernetes_event_capture", .obj
      [("complete", .bool true),
       ("truncated", .bool false),
       ("reason", .str "complete"),
       ("freshness", .obj
         [("observed_at", .str capturedAt), ("max_age_seconds", .num "60")]),
       ("coverage", .obj
         [("scope", .str "all_namespaces"),
          ("pagination", .str "continue"),
          ("event_count", .num "1")])]),
     ("kubernetes_event_facts", .arr
       [.obj
         [("uid", .str "e1"),
          ("name", .str "api.1"),
          ("count", .num count),
          ("last_occurrence_at", .str lastOccurrenceAt)]])]

/-- A snapshot without resources that comes with a capture. -/
def eventSnapshot (now : ℤ) (eventSummary : Json) : IngestCall where
  workspaceId := "w"
  clusterId := "c"
  payload :=
    { collectedAt := some now
      replace := true
      resources := []
      summary :=
        { liveInventory := true
          resourcesComplete := true
          labelsComplete := true
          truncated := false
          collectionCoverage := [] }
      health := .null
      usage := .null }
  now := now
  lateLock := true
  bindings := ⟨[], []⟩
  status := "accepted"
  eventSummary := eventSummary

/-- The start of the year 2024 in microseconds. -/
def newYear : ℤ := 63839750400000000

/-- A capture that came after an hour hides what it shows from the fresh one after it. -/
theorem unfresh_capture_hides_event :
    let calls :=
      [eventSnapshot (newYear + 3600000000)
        (oneEventSummary "2024-01-01T00:00:00Z" "1" "2023-12-31T23:59:00Z"),
       eventSnapshot (newYear + 3630000000)
        (oneEventSummary "2024-01-01T01:00:20Z" "1" "2023-12-31T23:59:00Z")]
    ¬ ∀ e ∈ Runs.trace (ingest FactEncoding.plain) IngestState.empty calls,
      ObservationsRecorded FactEncoding.plain e := by
  intro calls hall
  have hkept := (hall _ (List.mem_cons_of_mem _ List.mem_cons_self)).kept
    (by decide +kernel) (by decide +kernel)
  exact absurd hkept (by decide +kernel)

/-- Two fresh captures, of which the second one advances. -/
theorem observations_recorded_fresh :
    let calls :=
      [eventSnapshot (newYear + 3630000000)
        (oneEventSummary "2024-01-01T01:00:20Z" "1" "2023-12-31T23:59:00Z"),
       eventSnapshot (newYear + 3650000000)
        (oneEventSummary "2024-01-01T01:00:40Z" "2" "2024-01-01T01:00:30Z")]
    ∀ e ∈ Runs.trace (ingest FactEncoding.plain) IngestState.empty calls,
      ObservationsRecorded FactEncoding.plain e := by
  intro calls
  exact run_observations_recorded FactEncoding.plain (by unfold Runs.Meets; decide +kernel)

end Opsia.Inventory
