import Opsia.Evidence.Jobs
import Opsia.Lib.Fields
import Opsia.Lib.PyText

/-!
# The payload of a window

How the provider results of a window become one payload: `aggregate_evidence_payload` of
`domains/target/evidence_jobs.py`, `complete_evidence_payload` of `domains/target/router.py` and the
body of `cluster.evidence.received`. `str()` of a value is a parameter.
-/

namespace Opsia.Evidence

/-- A dictionary of the payload. -/
abbrev JsonFields : Type := List (String × Json)

/-- The entries of a dictionary; `none` for other values. -/
def dict? : Json → Option JsonFields
  | .obj fields => some fields
  | _ => none

/-- A text that is not empty. -/
def text? : Json → Option String
  | .str s => if s = "" then none else some s
  | _ => none

/-! ## The status of a provider -/

def emptyProviderPayload (providerKey : String) : Json :=
  if providerKey = "logs" then .arr [] else .obj []

/-- `results` is a dictionary with entries. -/
def hasResults (payload : JsonFields) : Bool :=
  ((payload.lookup "results").bind dict?).any fun results => !results.isEmpty

/-- A value that is none of `None`, `""`, `[]` and `{}`. -/
def isFilled : Json → Bool
  | .null => false
  | .str s => s ≠ ""
  | .arr items => !items.isEmpty
  | .obj fields => !fields.isEmpty
  | _ => true

/-- Some value besides the lineage is filled. -/
def anyFilled (payload : JsonFields) : Bool :=
  payload.any fun entry => entry.1 ≠ "_lineage" && isFilled entry.2

def providerPayloadHasResults (providerKey : String) : Option Json → Bool
  | some (.arr items) => providerKey = "logs" && !items.isEmpty
  | some (.obj payload) =>
    let fromSource (source : String) : Bool :=
      payload.lookup "source" = some (.str source) || (payload.lookup "results").isSome
    if providerKey = "logs" then false
    else if providerKey = "metrics" then
      if ((payload.lookup "alertmanager").bind dict?).any fun alerts => !alerts.isEmpty then true
      else if fromSource "prometheus" then hasResults payload
      else anyFilled payload
    else if providerKey = "traces" && fromSource "tempo" then hasResults payload
    else anyFilled payload
  | _ => false

def mergeReasonCodes (current : Option Json) (reason : String) : List Json :=
  let values := match current with
    | some (.arr codes) => codes.filterMap text?
    | _ => []
  ((if reason ∈ values then values else values ++ [reason]).take 8).map .str

def resolvedProviderCollectionStatus (providerKey : String) (providerPayload : Option Json)
    (reportedStatus : JsonFields) : JsonFields :=
  let state := reportedStatus.lookup "status"
  if state = some (.str "unavailable") ∨ state = some (.str "not_queried") then reportedStatus
  else if !providerPayloadHasResults providerKey providerPayload then
    let status := Fields.put reportedStatus "status" (.str "unavailable")
    Fields.put status "reason_codes"
      (.arr (mergeReasonCodes (status.lookup "reason_codes") "no_provider_results"))
  else if state = some (.str "completed") ∨ state = some (.str "partial") then reportedStatus
  else [("status", .str "completed"), ("reason_codes", .arr [])]

/-- The providers whose status is one of the states, sorted. -/
def providersIn (statuses : List (String × JsonFields)) (states : List String) : Json :=
  .arr (((statuses.filter fun entry =>
    states.any fun state => entry.2.lookup "status" = some (.str state)).map Prod.fst).mergeSort
      (fun a b => a ≤ b) |>.map .str)

def aggregateCollectionStatus (statuses : List (String × JsonFields)) : Json :=
  .obj
    [("complete", .bool (statuses.all fun entry =>
        entry.2.lookup "status" = some (.str "completed"))),
      ("completed_providers", providersIn statuses ["completed"]),
      ("partial_providers", providersIn statuses ["partial"]),
      ("failed_providers", providersIn statuses ["unavailable", "not_queried"]),
      ("pending_providers", .arr []),
      ("providers", .obj (statuses.map fun entry => (entry.1, .obj entry.2)))]

/-! ## The release context -/

def commonReleaseContext (rows : List EvidenceJob) : JsonFields :=
  let contexts := rows.filterMap fun row =>
    ((row.providerPolicy.get? "release_context").bind dict?).filter fun context => !context.isEmpty
  match contexts with
  | [] => []
  | first :: rest =>
    if rest.all fun context => (Json.obj context).same (.obj first) then first else []

/-- The pod names of a release context. -/
def podNames (pyStr : Json → String) (context : JsonFields) : JsonFields :=
  match context.lookup "pod_names" with
  | some (.arr names) =>
    let normalized := (names.map fun name => PyText.strip (pyStr name)).filter (· ≠ "")
    if normalized.isEmpty then []
    else [("pod_names", .arr ((normalized.eraseDups.take 32).map .str))]
  | _ => []

/-- What the release context adds to the payload. -/
def releaseFields (pyStr : Json → String) (context : JsonFields) : JsonFields :=
  if context.isEmpty then []
  else
    [("release_context", .obj context)] ++
    (match (context.lookup "correlation_id").bind text? with
      | some correlationId => [("correlation_id", .str correlationId)]
      | none => []) ++
    (match (context.lookup "rca_test_run_id").bind text?,
        (context.lookup "scenario_id").bind text? with
      | some runId, some scenarioId =>
        [("metadata", .obj [("rca_test", .obj ([("run_id", .str runId),
          ("scenario_id", .str scenarioId)] ++ podNames pyStr context))])]
      | _, _ => [])

def promoteReleaseTarget (payload context : JsonFields) : JsonFields :=
  if context.lookup "evidence_scope" ≠ some (.str "rca_test_run") then payload
  else
    match payload.lookup "kubernetes", (context.lookup "resource_kind").bind text?,
        (context.lookup "resource_name").bind text? with
    | some (.obj kubernetes), some kind, some name =>
      let namespaceName := ((context.lookup "namespace").bind text?).elim Json.null .str
      Fields.put payload "kubernetes" (.obj (Fields.put kubernetes "resource"
        (.obj [("kind", .str kind), ("name", .str name), ("namespace", namespaceName)])))
    | _, _, _ => payload

/-! ## The payload -/

/-- The metadata of a payload after a provider's. -/
def mergedMetadata (current : Option JsonFields) (providerMetadata : JsonFields) : JsonFields :=
  let merged := Fields.update (current.getD []) providerMetadata
  match current.bind (·.lookup "rca_test") with
  | some test => Fields.put merged "rca_test" test
  | none => merged

def mergeEvidenceProviderPayload (payload providerPayload : JsonFields) : JsonFields :=
  let providerPayload := providerPayload.filter fun entry => entry.1 ≠ "collection_status"
  match providerPayload.lookup "metadata" with
  | some (.obj providerMetadata) =>
    let merged := mergedMetadata ((payload.lookup "metadata").bind dict?) providerMetadata
    Fields.update (Fields.put payload "metadata" (.obj merged))
      (providerPayload.filter fun entry => entry.1 ≠ "metadata")
  | _ => Fields.update payload providerPayload

/-- The status that a completed row contributes. -/
def completedStatus (providerKey : String) (normalized : Json) : JsonFields :=
  resolvedProviderCollectionStatus providerKey (normalized.get? providerKey)
    (normalizedProviderCollectionStatus providerKey normalized)

/-- What a row adds to the payload and to the statuses. -/
def aggregateRow (state : JsonFields × List (String × JsonFields)) (row : EvidenceJob) :
    JsonFields × List (String × JsonFields) :=
  match row.status, row.result with
  | .completed, some (.obj result) =>
    let normalized := normalizeEvidenceProviderResult row.providerKey (.obj result)
    (mergeEvidenceProviderPayload state.1 ((dict? normalized).getD []),
      Fields.put state.2 row.providerKey (completedStatus row.providerKey normalized))
  | .failed, _ =>
    (Fields.setDefault state.1 row.providerKey (emptyProviderPayload row.providerKey),
      Fields.put state.2 row.providerKey
        [("status", .str "unavailable"), ("reason_codes", .arr [.str "provider_job_failed"])])
  | _, _ => state

/-- The fields of the payload that come from its first row. -/
def identityFields (first : EvidenceJob) : JsonFields :=
  [("workspace_id", .str first.workspaceId), ("cluster_id", .str first.clusterId),
    ("source_id", .str first.sourceId), ("window_start", .str first.windowStart),
    ("evidence_key", .str first.evidenceKey),
    ("agent_id", first.lease.elim .null fun lease => .str lease.2), ("kubernetes", .obj [])]

/-- The rows are ready to be published. -/
def ready (rows : List EvidenceJob) : Bool :=
  (rows.all fun row => row.status.isTerminal) &&
    rows.all fun row => !(row.failurePolicy = "strict" && row.status = .failed)

def aggregateEvidencePayload (pyStr : Json → String) (rows : List EvidenceJob) :
    Option JsonFields :=
  match rows with
  | [] => none
  | first :: _ =>
    if ready rows then
      let context := commonReleaseContext rows
      let aggregated :=
        rows.foldl aggregateRow (identityFields first ++ releaseFields pyStr context, [])
      some (promoteReleaseTarget
        (Fields.put aggregated.1 "collection_status" (aggregateCollectionStatus aggregated.2))
        context)
    else none

def Store.evidencePayloadIfReady (pyStr : Json → String) (s : Store) (evidenceKey : String) :
    Option JsonFields :=
  aggregateEvidencePayload pyStr
    ((s.jobs.rows.filter fun row => row.evidenceKey = evidenceKey).mergeSort
      fun a b => a.providerKey ≤ b.providerKey)

/-! ## The body -/

/-- The value of a field when it is a dictionary, else an empty one. -/
def dictField (payload : JsonFields) (field : String) : Json :=
  .obj (((payload.lookup field).bind dict?).getD [])

/-- The value of a field when it is a list, else an empty one. -/
def listField (payload : JsonFields) (field : String) : Json :=
  match payload.lookup field with
  | some (.arr items) => .arr items
  | _ => .arr []

/-- `ClusterEvidenceReceivedBody(**complete_evidence_payload(payload)).to_body()`. -/
def evidenceBody (payload : JsonFields) : JsonFields :=
  let field (name : String) (default : Json) : String × Json :=
    (name, (payload.lookup name).getD default)
  [field "cluster_id" .null, ("kubernetes", dictField payload "kubernetes"),
    ("metrics", dictField payload "metrics"), ("logs", listField payload "logs"),
    ("traces", dictField payload "traces"), field "workspace_id" (.str "default"),
    field "agent_id" .null, field "source_id" .null, field "window_start" .null,
    field "evidence_key" .null, field "workflow_run_id" .null, field "release_context" (.obj []),
    field "collection_status" (.obj []), field "metadata" (.obj []),
    field "correlation_id" .null, field "kind" .null, field "payload_size" .null,
    field "summary" (.obj [])]

/-! ## What the payload holds -/

/-- The bucket of a provider in a stored result. -/
def bucket (providerKey : String) (result : Json) : Json :=
  (result.get? providerKey).getD result

variable {providerKey field : String} {row : EvidenceJob} {payload result : JsonFields}
  {rows : List EvidenceJob}

theorem filter_normalize (h : providerKey ≠ "collection_status") (result : Json) :
    ((dict? (normalizeEvidenceProviderResult providerKey result)).getD []).filter
      (fun entry => entry.1 ≠ "collection_status") = [(providerKey, bucket providerKey result)] := by
  simp only [normalizeEvidenceProviderResult]
  split
  · simp [dict?, bucket, h]
  · simp [dict?, bucket, h]

theorem filter_normalize_self (result : Json) :
    ((dict? (normalizeEvidenceProviderResult "collection_status" result)).getD []).filter
      (fun entry => entry.1 ≠ "collection_status") = [] := by
  simp only [normalizeEvidenceProviderResult]
  split
  · simp [dict?]
  · simp [dict?]

theorem lookup_merge_self (hstatus : providerKey ≠ "collection_status")
    (hmetadata : providerKey ≠ "metadata") (payload : JsonFields) (result : Json) :
    (mergeEvidenceProviderPayload payload
        ((dict? (normalizeEvidenceProviderResult providerKey result)).getD [])).lookup providerKey =
      some (bucket providerKey result) := by
  have hnone : [(providerKey, bucket providerKey result)].lookup "metadata" = none := by
    rw [List.lookup_cons, beq_false_of_ne (Ne.symm hmetadata), List.lookup_nil]
  rw [mergeEvidenceProviderPayload, filter_normalize hstatus]
  simp only [hnone]
  exact Fields.lookup_put_self _ _ _

theorem lookup_merge_of_ne (hne : field ≠ providerKey) (hmetadata : field ≠ "metadata")
    (payload : JsonFields) (result : Json) :
    (mergeEvidenceProviderPayload payload
        ((dict? (normalizeEvidenceProviderResult providerKey result)).getD [])).lookup field =
      payload.lookup field := by
  have hkeys : field ∉ (((dict? (normalizeEvidenceProviderResult providerKey result)).getD []).filter
      fun entry => entry.1 ≠ "collection_status").map Prod.fst := by
    by_cases hstatus : providerKey = "collection_status"
    · rw [hstatus, filter_normalize_self]
      exact List.not_mem_nil
    · rw [filter_normalize hstatus]
      exact fun hmem => hne (List.mem_singleton.mp hmem)
  rw [mergeEvidenceProviderPayload]
  split
  · refine (Fields.lookup_update_of_notMem (fun hmem => hkeys ?_) _).trans
      (Fields.lookup_put_of_ne hmetadata _ _)
    exact List.map_subset _ (fun _ => List.mem_of_mem_filter) hmem
  · exact Fields.lookup_update_of_notMem hkeys _

theorem lookup_statuses_of_ne (h : providerKey ≠ row.providerKey)
    (state : JsonFields × List (String × JsonFields)) :
    (aggregateRow state row).2.lookup providerKey = state.2.lookup providerKey := by
  unfold aggregateRow
  split
  · exact Fields.lookup_put_of_ne h _ _
  · exact Fields.lookup_put_of_ne h _ _
  · rfl

theorem lookup_payload_of_ne (h : field ≠ row.providerKey) (hmetadata : field ≠ "metadata")
    (state : JsonFields × List (String × JsonFields)) :
    (aggregateRow state row).1.lookup field = state.1.lookup field := by
  unfold aggregateRow
  split
  · exact lookup_merge_of_ne h hmetadata _ _
  · exact Fields.lookup_setDefault_of_ne h _ _
  · rfl

/-- The body carries the result of a provider: its status as reported and, where it has the shape
of its field, its bucket. A release test replaces the resource of the `kubernetes` bucket. -/
structure Contained (body : JsonFields) (providerKey : String) (result : Json) : Prop where
  listed : ((body.lookup "collection_status").bind (·.get? "providers")).bind
      (·.get? providerKey) =
    some (.obj (completedStatus providerKey (normalizeEvidenceProviderResult providerKey result)))
  dict : ∀ fields, providerKey = "metrics" ∨ providerKey = "traces" →
    bucket providerKey result = .obj fields → body.lookup providerKey = some (.obj fields)
  list : ∀ items, providerKey = "logs" → bucket providerKey result = .arr items →
    body.lookup providerKey = some (.arr items)
  kubernetes : ∀ fields, providerKey = "kubernetes" → bucket providerKey result = .obj fields →
    ∃ stored, body.lookup providerKey = some (.obj stored) ∧
      ∀ field, field ≠ "resource" → stored.lookup field = fields.lookup field

theorem lookup_promote_of_ne (h : field ≠ "kubernetes") (payload context : JsonFields) :
    (promoteReleaseTarget payload context).lookup field = payload.lookup field := by
  unfold promoteReleaseTarget
  split
  · rfl
  · split
    · exact Fields.lookup_put_of_ne h _ _
    · rfl

theorem lookup_promote_kubernetes {fields : JsonFields}
    (h : payload.lookup "kubernetes" = some (.obj fields)) (context : JsonFields) :
    ∃ stored, (promoteReleaseTarget payload context).lookup "kubernetes" = some (.obj stored) ∧
      ∀ field, field ≠ "resource" → stored.lookup field = fields.lookup field := by
  unfold promoteReleaseTarget
  split
  · exact ⟨fields, h, fun _ _ => rfl⟩
  · split
    · rename_i hkubernetes _ _
      obtain rfl := Json.obj.inj (Option.some.inj (hkubernetes.symm.trans h))
      exact ⟨_, Fields.lookup_put_self _ _ _, fun field hne => Fields.lookup_put_of_ne hne _ _⟩
    · exact ⟨fields, h, fun _ _ => rfl⟩

/-- **The status of a completed row is listed under its provider.** -/
theorem lookup_aggregated_status {row : EvidenceJob}
    (hunique : ∀ r ∈ rows, r.providerKey = row.providerKey → r = row)
    (hrow : row ∈ rows) (hstatus : row.status = .completed)
    (hresult : row.result = some (.obj result)) (state : JsonFields × List (String × JsonFields)) :
    (rows.foldl aggregateRow state).2.lookup row.providerKey = some (completedStatus row.providerKey
      (normalizeEvidenceProviderResult row.providerKey (.obj result))) := by
  obtain hlast | ⟨-, hnone⟩ := Fields.foldl_written (f := aggregateRow)
    (g := fun state => state.2.lookup row.providerKey)
    (p := fun r => r.providerKey = row.providerKey)
    (fun s r _ hne => lookup_statuses_of_ne (Ne.symm hne) s)
    (fun s r hr hkey => by
      obtain rfl := hunique r hr hkey
      simp only [aggregateRow, hstatus, hresult]
      exact Fields.lookup_put_self _ _ _) state
  · exact hlast
  · exact absurd rfl (hnone row hrow)

/-- **The bucket of a completed row is the field of its provider.** -/
theorem lookup_aggregated_bucket {row : EvidenceJob}
    (hunique : ∀ r ∈ rows, r.providerKey = row.providerKey → r = row)
    (hrow : row ∈ rows) (hstatus : row.status = .completed)
    (hresult : row.result = some (.obj result))
    (hmetadata : row.providerKey ≠ "metadata") (hcollection : row.providerKey ≠ "collection_status")
    (state : JsonFields × List (String × JsonFields)) :
    (rows.foldl aggregateRow state).1.lookup row.providerKey =
      some (bucket row.providerKey (.obj result)) := by
  obtain hlast | ⟨-, hnone⟩ := Fields.foldl_written (f := aggregateRow)
    (g := fun state => state.1.lookup row.providerKey)
    (p := fun r => r.providerKey = row.providerKey)
    (fun s r _ hne => lookup_payload_of_ne (Ne.symm hne) hmetadata s)
    (fun s r hr hkey => by
      obtain rfl := hunique r hr hkey
      simp only [aggregateRow, hstatus, hresult]
      exact lookup_merge_self hcollection hmetadata _ _) state
  · exact hlast
  · exact absurd rfl (hnone row hrow)

theorem lookup_body_status (payload : JsonFields) :
    (evidenceBody payload).lookup "collection_status" =
      some ((payload.lookup "collection_status").getD (.obj [])) := rfl

theorem lookup_body_dict {fields : JsonFields}
    (hfield : field = "kubernetes" ∨ field = "metrics" ∨ field = "traces")
    (h : payload.lookup field = some (.obj fields)) :
    (evidenceBody payload).lookup field = some (.obj fields) := by
  have hdict : dictField payload field = .obj fields := by
    rw [dictField, h]
    rfl
  obtain rfl | rfl | rfl := hfield
  · exact congrArg some hdict
  · exact congrArg some hdict
  · exact congrArg some hdict

theorem lookup_body_list {items : List Json} (h : payload.lookup "logs" = some (.arr items)) :
    (evidenceBody payload).lookup "logs" = some (.arr items) := by
  have hlist : listField payload "logs" = .arr items := by
    rw [listField, h]
  exact congrArg some hlist

theorem listed_status {statuses : List (String × JsonFields)} {status : JsonFields}
    (h : statuses.lookup providerKey = some status) :
    ((aggregateCollectionStatus statuses).get? "providers").bind (·.get? providerKey) =
      some (.obj status) := by
  have hproviders : (aggregateCollectionStatus statuses).get? "providers" =
      some (.obj (statuses.map fun entry => (entry.1, .obj entry.2))) := rfl
  rw [hproviders, Option.bind_some]
  refine (Fields.lookup_map_value Json.obj statuses providerKey).trans ?_
  rw [h, Option.map_some]

/-- **What a payload carries of a completed row.** -/
theorem contained_of_aggregate {pyStr : Json → String}
    (h : aggregateEvidencePayload pyStr rows = some payload)
    (hunique : ∀ r ∈ rows, r.providerKey = row.providerKey → r = row) (hrow : row ∈ rows)
    (hstatus : row.status = .completed) (hresult : row.result = some (.obj result)) :
    Contained (evidenceBody payload) row.providerKey (.obj result) := by
  unfold aggregateEvidencePayload at h
  split at h
  · cases h
  · split at h
    · obtain rfl := Option.some.inj h
      have hlisted := lookup_aggregated_status hunique hrow hstatus hresult
      have hbucket := lookup_aggregated_bucket hunique hrow hstatus hresult
      refine ⟨?_, ?_, ?_, ?_⟩
      · rw [lookup_body_status, lookup_promote_of_ne (by decide), Fields.lookup_put_self,
          Option.getD_some, Option.bind_some]
        exact listed_status (hlisted _)
      · intro fields hkey hfields
        refine lookup_body_dict (.inr hkey) ?_
        have hnames : row.providerKey ≠ "kubernetes" ∧ row.providerKey ≠ "metadata" ∧
            row.providerKey ≠ "collection_status" := by
          obtain hkey | hkey := hkey
          · rw [hkey]
            decide
          · rw [hkey]
            decide
        rw [lookup_promote_of_ne hnames.1, Fields.lookup_put_of_ne hnames.2.2,
          hbucket hnames.2.1 hnames.2.2, hfields]
      · intro items hkey hitems
        rw [hkey] at hbucket hitems ⊢
        refine lookup_body_list ?_
        rw [lookup_promote_of_ne (by decide), Fields.lookup_put_of_ne (by decide),
          hbucket (by decide) (by decide), hitems]
      · intro fields hkey hfields
        rw [hkey] at hbucket hfields ⊢
        have hstored := hbucket (by decide) (by decide)
        rw [hfields] at hstored
        obtain ⟨stored, hlookup, hsame⟩ := lookup_promote_kubernetes
          ((Fields.lookup_put_of_ne (show "kubernetes" ≠ "collection_status" by decide) _ _).trans
            (hstored _)) _
        exact ⟨stored, lookup_body_dict (.inl rfl) hlookup, hsame⟩
    · cases h

end Opsia.Evidence
