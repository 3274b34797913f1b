import Opsia.Command.Lifecycle
import Opsia.Lib.Json
import Opsia.Lib.PyText
import Opsia.Values

/-!
# Resource actions under an Idempotency-Key

The routes of `domains/command/router.py` whose command id is derived from the
`Idempotency-Key` of the request: the exact resource actions (drain, debug and
debug clean-up), the CronJob controls and the workload rollback. Each of them
validates the request against the current inventory (`prepare`), computes its
fingerprint, looks for a command under the derived id
(`replayResourceActionReceipt`), and otherwise accepts a new one.

The hash, the serialiser, the case folding and the namespace policy of the
deployment are a `Gateway`; what the inventory, the capability service and the
access control answer at one moment is a `ResourceView`.
-/

namespace Opsia.ResourceAction

/-! ## Surroundings -/

/-- The fixed functions the routes call. -/
structure Gateway : Type where
  /-- `hashlib.sha256(text.encode()).hexdigest()` -/
  sha256 : String → String
  /-- `json.dumps(value, ensure_ascii=True, separators=(",", ":"), sort_keys=True)` -/
  dumps : Json → String
  /-- `str.casefold` -/
  casefold : String → String
  /-- `control_namespace_allowed` -/
  controlNamespaceAllowed : String → Bool

structure ResourceRef : Type where
  apiGroup : String
  version : String
  kind : String
  namespaceName : Option String
  name : String
  uid : String
  deriving DecidableEq, Repr

/-- A text or `None`, as JSON. -/
def optionJson : Option String → Json
  | none => .null
  | some s => .str s

/-- `resource.model_dump()`. -/
def ResourceRef.modelDump (r : ResourceRef) : Json :=
  .obj [("api_group", .str r.apiGroup), ("version", .str r.version), ("kind", .str r.kind),
    ("namespace", optionJson r.namespaceName), ("name", .str r.name), ("uid", .str r.uid)]

/-- What the routes read of an inventory row; a missing text is empty. -/
structure InventoryRow : Type where
  snapshotId : String
  clusterId : String
  apiVersion : String
  kind : String
  namespaceName : Option String
  name : String
  uid : String
  resourceVersion : String
  deriving DecidableEq, Repr

/-- `ResourceCapabilitiesResponse`: its revision and the enabled capabilities. -/
structure CapabilityDecision : Type where
  revision : String
  capabilities : List String
  deriving DecidableEq, Repr

/-- What a rollback compares of the selected `WorkloadRollbackRevision`. -/
structure RollbackRevision : Type where
  resource : ResourceRef
  previewRevision : String
  deriving DecidableEq, Repr

/-- What one request may read while the rest of the system goes on. -/
structure ResourceView : Type where
  /-- `get_inventory_resource_by_key` -/
  resource : String → Option InventoryRow
  /-- `resource_capabilities_response` -/
  capabilities : InventoryRow → CapabilityDecision
  /-- `workload_revision_selection` -/
  revisionSelection : InventoryRow → String → String → Option RollbackRevision
  /-- `require_cluster_access(…, DEPLOY_RUN)` -/
  deployAllowed : String → Bool

/-- The `detail` of an `HTTPException`. -/
inductive ErrorDetail : Type where
  | text (message : String)
  | coded (code detail : String)
  deriving DecidableEq, Repr

/-- `HTTPException`. -/
structure HttpError : Type where
  statusCode : ℕ
  detail : ErrorDetail
  deriving DecidableEq, Repr

/-- `HTTPException(status_code=409, detail=…)`. -/
def conflict (message : String) : HttpError := ⟨409, .text message⟩

def unprocessableCode : ℕ := 422

def cronjobResourceStale : HttpError := conflict "selected CronJob capability is stale"

def workloadRollbackStale : HttpError := conflict "workload_rollback_stale"

def cronjobIdempotencyReused : String := "cronjob_idempotency_key_reused"

def workloadRollbackIdempotencyReused : String := "workload_rollback_idempotency_key_reused"

def validateControlNamespace (g : Gateway) (name : String) : Except HttpError Unit :=
  if g.controlNamespaceAllowed name then .ok ()
  else .error ⟨unprocessableCode, .text "namespace is not allowed by control policy"⟩

/-- The confirmation check of the exact actions and the CronJob controls. -/
def requireConfirmation (confirmation : Bool) : Except HttpError Unit :=
  if confirmation then .ok ()
  else .error ⟨unprocessableCode, .text "direct command requires explicit confirmation"⟩

/-- `payload.reason or default`. -/
def reasonOr (reason : Option String) (default : String) : String :=
  if reason.getD "" = "" then default else reason.getD ""

/-! ## The identity of an inventory row -/

/-- `s.strip("/")`. -/
def stripSlash (s : String) : String :=
  String.ofList (((s.toList.dropWhile (· = '/')).reverse.dropWhile (· = '/')).reverse)

/-- The group and the version of an `api_version`. -/
def apiGroupVersion (apiVersion : String) : Option (String × String) :=
  let apiVersion := stripSlash (PyText.strip apiVersion)
  if apiVersion = "" then none
  else
    match PyText.split apiVersion '/' with
    | [version] => some ("", version)
    | [group, version] => some (group, version)
    | _ => none

/-- `inventory_resource_ref`; `ResourceRef` refuses an empty kind, name or uid. -/
def inventoryResourceRef (row : InventoryRow) : Except HttpError ResourceRef :=
  match apiGroupVersion row.apiVersion with
  | none => .error cronjobResourceStale
  | some (apiGroup, version) =>
    if row.kind = "" ∨ row.name = "" ∨ row.uid = "" then .error cronjobResourceStale
    else
      .ok { apiGroup, version, kind := row.kind, namespaceName := row.namespaceName,
            name := row.name, uid := row.uid }

/-! ## Requests -/

/-- What the payload of a capability-bound action carries
(`ExactResourceActionRequest`, `CronJobControlRequest`). -/
structure ExactPayload : Type where
  reason : Option String
  confirmation : Bool
  resourceId : String
  snapshotId : String
  capabilityRevision : String
  resource : ResourceRef
  deriving DecidableEq, Repr

/-- `WorkloadRollbackRequest`; its confirmation is always `True`. -/
structure RollbackPayload : Type where
  resourceId : String
  snapshotId : String
  capabilityRevision : String
  workload : ResourceRef
  workloadResourceVersion : String
  targetRevision : ResourceRef
  targetResourceVersion : String
  previewRevision : String
  reason : String
  deriving DecidableEq, Repr

/-- `payload.model_dump(mode="json")` of a rollback. -/
def RollbackPayload.fields (p : RollbackPayload) : List (String × Json) :=
  [("resource_id", .str p.resourceId), ("snapshot_id", .str p.snapshotId),
    ("capability_revision", .str p.capabilityRevision), ("workload", p.workload.modelDump),
    ("workload_resource_version", .str p.workloadResourceVersion),
    ("target_revision", p.targetRevision.modelDump),
    ("target_resource_version", .str p.targetResourceVersion),
    ("preview_revision", .str p.previewRevision), ("confirmation", .bool true),
    ("reason", .str p.reason)]

/-- The three CronJob controls. -/
inductive CronJobControl : Type where
  | trigger
  | suspend
  | resume
  deriving DecidableEq, Repr

/-- The command action of a control. -/
def CronJobControl.action : CronJobControl → String
  | .trigger => "k8s.batch.v1.cronjobs.trigger"
  | .suspend => "k8s.batch.v1.cronjobs.suspend"
  | .resume => "k8s.batch.v1.cronjobs.resume"

/-- `resource_action_capability_id` of its action. -/
def CronJobControl.capabilityId : CronJobControl → String
  | .trigger => "cronjob.trigger"
  | .suspend => "cronjob.suspend"
  | .resume => "cronjob.resume"

/-- The verb in the default reason of a control. -/
def CronJobControl.verb : CronJobControl → String
  | .trigger => "trigger"
  | .suspend => "suspend"
  | .resume => "resume"

/-- A request to one of the routes. -/
inductive Request : Type where
  | drainNode (clusterId node : String) (payload : ExactPayload)
      (timeoutSeconds maxParallel maxPods : ℕ) (force deleteEmptyDirData : Bool)
  | debugPod (clusterId namespaceName pod : String) (payload : ExactPayload)
      (targetContainer image : String)
  | debugNode (clusterId node : String) (payload : ExactPayload) (namespaceName image : String)
  | cleanupNodeDebug (clusterId node : String) (payload : ExactPayload)
      (namespaceName sessionId : String)
  | cronJobControl (control : CronJobControl) (clusterId namespaceName cronjob : String)
      (payload : ExactPayload)
  | rollbackWorkload (resourceId : String) (payload : RollbackPayload)
  deriving DecidableEq, Repr

/-- Who sends a request, under which key. -/
structure IdempotencyKey : Type where
  workspaceId : String
  userId : String
  key : String
  deriving DecidableEq, Repr

def resourceActionCommandId (g : Gateway) (k : IdempotencyKey) : String :=
  let authority := PyText.join '\x00' [k.workspaceId, k.userId, k.key]
  "cmd-resource-" ++ String.ofList ((g.sha256 authority).toList.take 24)

/-- `hashlib.sha256(idempotency_key.encode()).hexdigest()[:16]`. -/
def debugSuffix (g : Gateway) (k : IdempotencyKey) : String :=
  String.ofList ((g.sha256 k.key).toList.take 16)

/-- The arguments an exact route passes to `accept_exact_resource_action`. -/
structure ExactAction : Type where
  clusterId : String
  namespaceName : Option String
  resourceKind : String
  resourceName : String
  capabilityId : String
  action : String
  reason : String
  commandPayload : Json

def drainNode (clusterId node : String) (payload : ExactPayload)
    (timeoutSeconds maxParallel maxPods : ℕ) (force deleteEmptyDirData : Bool) : ExactAction where
  clusterId := clusterId
  namespaceName := none
  resourceKind := "node"
  resourceName := node
  capabilityId := "node.drain"
  action := "k8s.core.v1.nodes.drain"
  reason := reasonOr payload.reason s!"drain node/{node}"
  commandPayload := .obj [("timeout_seconds", .num (toString timeoutSeconds)),
    ("max_parallel", .num (toString maxParallel)), ("max_pods", .num (toString maxPods)),
    ("force", .bool force), ("delete_empty_dir_data", .bool deleteEmptyDirData)]

def debugPod (g : Gateway) (k : IdempotencyKey) (clusterId namespaceName pod : String)
    (payload : ExactPayload) (targetContainer image : String) : ExactAction where
  clusterId := clusterId
  namespaceName := some namespaceName
  resourceKind := "pod"
  resourceName := pod
  capabilityId := "pod.debug"
  action := "k8s.core.v1.pods.debug"
  reason := reasonOr payload.reason s!"debug pod/{namespaceName}/{pod}"
  commandPayload := .obj [("target_container", .str targetContainer),
    ("container_name", .str s!"opsia-debug-{debugSuffix g k}"), ("image", .str image)]

def debugNode (g : Gateway) (k : IdempotencyKey) (clusterId node : String)
    (payload : ExactPayload) (namespaceName image : String) : ExactAction where
  clusterId := clusterId
  namespaceName := none
  resourceKind := "node"
  resourceName := node
  capabilityId := "node.debug"
  action := "k8s.core.v1.nodes.debug"
  reason := reasonOr payload.reason s!"debug node/{node}"
  commandPayload := .obj [("namespace", .str namespaceName),
    ("session_id", .str s!"debug-session-{debugSuffix g k}"),
    ("debug_pod_name", .str s!"opsia-node-debug-{debugSuffix g k}"), ("image", .str image)]

/-- `payload.session_id.removeprefix("debug-session-")`. -/
def sessionSuffix (sessionId : String) : String :=
  if "debug-session-".toList.isPrefixOf sessionId.toList then
    String.ofList (sessionId.toList.drop "debug-session-".length)
  else sessionId

def cleanupNodeDebug (clusterId node : String) (payload : ExactPayload)
    (namespaceName sessionId : String) : ExactAction where
  clusterId := clusterId
  namespaceName := none
  resourceKind := "node"
  resourceName := node
  capabilityId := "node.debug.cleanup"
  action := "k8s.core.v1.nodes.debug.cleanup"
  reason := reasonOr payload.reason s!"cleanup debug node/{node}"
  commandPayload := .obj [("namespace", .str namespaceName), ("session_id", .str sessionId),
    ("debug_pod_name", .str s!"opsia-node-debug-{sessionSuffix sessionId}")]

/-! ## Fingerprints -/

/-- What the fingerprints of an exact action and of a CronJob control share. -/
def actionFields (k : IdempotencyKey) (action reason : String) (payload : ExactPayload) :
    List (String × Json) :=
  [("workspace_id", .str k.workspaceId), ("user_id", .str k.userId), ("action", .str action),
    ("reason", .str reason), ("resource_id", .str payload.resourceId),
    ("snapshot_id", .str payload.snapshotId),
    ("capability_revision", .str payload.capabilityRevision),
    ("resource", payload.resource.modelDump)]

def exactActionRequestFingerprint (g : Gateway) (k : IdempotencyKey) (a : ExactAction)
    (payload : ExactPayload) : String :=
  g.sha256 (g.dumps
    (.obj (actionFields k a.action a.reason payload ++ [("options", a.commandPayload)])))

def cronjobRequestFingerprint (g : Gateway) (k : IdempotencyKey) (action reason : String)
    (payload : ExactPayload) : String :=
  g.sha256 (g.dumps (.obj (actionFields k action reason payload)))

def workloadRollbackRequestFingerprint (g : Gateway) (k : IdempotencyKey)
    (payload : RollbackPayload) : String :=
  g.sha256 (g.dumps (.obj
    ([("workspace_id", .str k.workspaceId), ("user_id", .str k.userId)] ++ payload.fields)))

/-- `payload.reason or reason` of a CronJob control. -/
def cronjobReason (control : CronJobControl) (cronjob : String) (payload : ExactPayload) :
    String := reasonOr payload.reason s!"{control.verb} cronjob/{cronjob}"

/-- The fingerprint the route of a request computes: a function of the request. -/
def Request.fingerprint (g : Gateway) (k : IdempotencyKey) : Request → String
  | .drainNode clusterId node payload timeoutSeconds maxParallel maxPods force empty =>
    exactActionRequestFingerprint g k
      (ResourceAction.drainNode clusterId node payload timeoutSeconds maxParallel maxPods force
        empty) payload
  | .debugPod clusterId ns pod payload targetContainer image =>
    exactActionRequestFingerprint g k
      (ResourceAction.debugPod g k clusterId ns pod payload targetContainer image) payload
  | .debugNode clusterId node payload ns image =>
    exactActionRequestFingerprint g k
      (ResourceAction.debugNode g k clusterId node payload ns image) payload
  | .cleanupNodeDebug clusterId node payload ns sessionId =>
    exactActionRequestFingerprint g k
      (ResourceAction.cleanupNodeDebug clusterId node payload ns sessionId) payload
  | .cronJobControl control _ _ cronjob payload =>
    cronjobRequestFingerprint g k control.action (cronjobReason control cronjob payload) payload
  | .rollbackWorkload _ payload => workloadRollbackRequestFingerprint g k payload

/-! ## Validating a request -/

/-- A validated request: what its handler keeps for the replay check and the
acceptance. -/
structure Prepared : Type where
  clusterId : String
  namespaceName : Option String
  action : String
  requestFingerprint : String
  idempotencyReusedCode : String
  deriving DecidableEq, Repr

/-- The checks of a route that read nothing: the namespace and the session of a
node debug, and the confirmation. -/
def Request.preflight (g : Gateway) : Request → Except HttpError Unit
  | .drainNode _ _ payload _ _ _ _ _ => requireConfirmation payload.confirmation
  | .debugPod _ _ _ payload _ _ => requireConfirmation payload.confirmation
  | .debugNode _ _ payload ns _ =>
    match validateControlNamespace g ns with
    | .error e => .error e
    | .ok () => requireConfirmation payload.confirmation
  | .cleanupNodeDebug _ _ payload ns sessionId =>
    match validateControlNamespace g ns with
    | .error e => .error e
    | .ok () =>
      if (sessionSuffix sessionId).length ≠ 16 then
        .error ⟨unprocessableCode, .text "debug session identity is invalid"⟩
      else requireConfirmation payload.confirmation
  | .cronJobControl _ _ _ _ payload => requireConfirmation payload.confirmation
  | .rollbackWorkload _ _ => .ok ()

/-- `exact_action_capability_resource`, and the identity check after it. -/
def exactActionCapabilityResource (g : Gateway) (view : ResourceView) (a : ExactAction)
    (payload : ExactPayload) : Except HttpError InventoryRow :=
  match view.resource payload.resourceId with
  | none => .error (conflict "resource action identity is stale")
  | some row =>
    match inventoryResourceRef row with
    | .error e => .error e
    | .ok current =>
      if row.snapshotId ≠ payload.snapshotId ∨ current ≠ payload.resource ∨
          g.casefold current.kind ≠ g.casefold a.resourceKind ∨
          current.namespaceName ≠ a.namespaceName ∨ current.name ≠ a.resourceName ∨
          row.clusterId ≠ a.clusterId then
        .error (conflict "resource action identity is stale")
      else if (view.capabilities row).revision ≠ payload.capabilityRevision ∨
          a.capabilityId ∉ (view.capabilities row).capabilities then
        .error (conflict "resource action capability is stale")
      else if row.resourceVersion = "" then .error (conflict "resource action identity is stale")
      else .ok row

/-- `accept_exact_resource_action` up to the replay check. -/
def prepareExact (g : Gateway) (k : IdempotencyKey) (view : ResourceView) (a : ExactAction)
    (payload : ExactPayload) : Except HttpError Prepared :=
  match exactActionCapabilityResource g view a payload with
  | .error e => .error e
  | .ok _ =>
    .ok { clusterId := a.clusterId, namespaceName := a.namespaceName, action := a.action,
          requestFingerprint := exactActionRequestFingerprint g k a payload,
          idempotencyReusedCode := cronjobIdempotencyReused }

def exactCronjobCapabilityResource (g : Gateway) (view : ResourceView)
    (control : CronJobControl) (clusterId namespaceName cronjob : String)
    (payload : ExactPayload) : Except HttpError InventoryRow :=
  match view.resource payload.resourceId with
  | none => .error cronjobResourceStale
  | some row =>
    match inventoryResourceRef row with
    | .error e => .error e
    | .ok current =>
      if row.snapshotId ≠ payload.snapshotId ∨ current ≠ payload.resource ∨
          current.apiGroup ≠ "batch" ∨ current.version ≠ "v1" ∨
          g.casefold current.kind ≠ "cronjob" ∨ current.namespaceName ≠ some namespaceName ∨
          current.name ≠ cronjob ∨ row.clusterId ≠ clusterId then
        .error cronjobResourceStale
      else if (view.capabilities row).revision ≠ payload.capabilityRevision ∨
          control.capabilityId ∉ (view.capabilities row).capabilities then
        .error cronjobResourceStale
      else .ok row

/-- `accept_cronjob_control` up to the replay check. -/
def prepareCronjob (g : Gateway) (k : IdempotencyKey) (view : ResourceView)
    (control : CronJobControl) (clusterId namespaceName cronjob : String)
    (payload : ExactPayload) : Except HttpError Prepared :=
  match exactCronjobCapabilityResource g view control clusterId namespaceName cronjob payload with
  | .error e => .error e
  | .ok _ =>
    .ok { clusterId, namespaceName := some namespaceName, action := control.action,
          requestFingerprint := cronjobRequestFingerprint g k control.action
            (cronjobReason control cronjob payload) payload,
          idempotencyReusedCode := cronjobIdempotencyReused }

def workloadRollbackActions : List (String × String) :=
  [("deployment", "k8s.apps.v1.deployments.rollback"),
    ("statefulset", "k8s.apps.v1.statefulsets.rollback"),
    ("daemonset", "k8s.apps.v1.daemonsets.rollback")]

/-- `rollback_workload` up to the replay check. -/
def prepareRollback (g : Gateway) (k : IdempotencyKey) (view : ResourceView)
    (resourceId : String) (payload : RollbackPayload) : Except HttpError Prepared :=
  if resourceId ≠ payload.resourceId then .error workloadRollbackStale
  else
    match view.resource resourceId with
    | none => .error workloadRollbackStale
    | some row =>
      match inventoryResourceRef row with
      | .error _ => .error workloadRollbackStale
      | .ok current =>
        match workloadRollbackActions.lookup (g.casefold current.kind), current.namespaceName with
        | some action, some ns =>
          if row.snapshotId ≠ payload.snapshotId ∨
              row.resourceVersion ≠ payload.workloadResourceVersion ∨
              current ≠ payload.workload then
            .error workloadRollbackStale
          else if (view.capabilities row).revision ≠ payload.capabilityRevision ∨
              "workload.rollback" ∉ (view.capabilities row).capabilities then
            .error workloadRollbackStale
          else
            match view.revisionSelection row payload.targetRevision.uid
              payload.targetResourceVersion with
            | none => .error workloadRollbackStale
            | some revision =>
              if revision.resource ≠ payload.targetRevision ∨
                  revision.previewRevision ≠ payload.previewRevision then
                .error workloadRollbackStale
              else
                .ok { clusterId := row.clusterId, namespaceName := some ns, action,
                      requestFingerprint := workloadRollbackRequestFingerprint g k payload,
                      idempotencyReusedCode := workloadRollbackIdempotencyReused }
        | _, _ => .error workloadRollbackStale

/-- The checks of a route that read the inventory, and the fingerprint. -/
def Request.observe (g : Gateway) (k : IdempotencyKey) (view : ResourceView) :
    Request → Except HttpError Prepared
  | .drainNode clusterId node payload timeoutSeconds maxParallel maxPods force empty =>
    prepareExact g k view
      (ResourceAction.drainNode clusterId node payload timeoutSeconds maxParallel maxPods force
        empty) payload
  | .debugPod clusterId ns pod payload targetContainer image =>
    prepareExact g k view
      (ResourceAction.debugPod g k clusterId ns pod payload targetContainer image) payload
  | .debugNode clusterId node payload ns image =>
    prepareExact g k view (ResourceAction.debugNode g k clusterId node payload ns image) payload
  | .cleanupNodeDebug clusterId node payload ns sessionId =>
    prepareExact g k view (ResourceAction.cleanupNodeDebug clusterId node payload ns sessionId)
      payload
  | .cronJobControl control clusterId ns cronjob payload =>
    prepareCronjob g k view control clusterId ns cronjob payload
  | .rollbackWorkload resourceId payload => prepareRollback g k view resourceId payload

/-- The validation of a request. -/
def Request.prepare (g : Gateway) (k : IdempotencyKey) (view : ResourceView)
    (request : Request) : Except HttpError Prepared :=
  match request.preflight g with
  | .error e => .error e
  | .ok () => request.observe g k view

/-! ## What a validation establishes -/

variable {e : HttpError} {p : Prepared}

theorem inventoryResourceRef_error {row : InventoryRow} (h : inventoryResourceRef row = .error e) :
    e.statusCode = 409 := by
  unfold inventoryResourceRef at h
  split at h
  · cases h
    rfl
  · split at h <;> cases h
    rfl

variable {g : Gateway} {k : IdempotencyKey} {view : ResourceView} {payload : ExactPayload}

theorem prepareExact_error {a : ExactAction} (h : prepareExact g k view a payload = .error e) :
    e.statusCode = 409 := by
  unfold prepareExact exactActionCapabilityResource at h
  cases hrow : view.resource payload.resourceId with
  | none =>
    simp only [hrow] at h
    cases h
    rfl
  | some row =>
    simp only [hrow] at h
    rcases href : inventoryResourceRef row with error | current
    · simp only [href] at h
      cases h
      exact inventoryResourceRef_error href
    · simp only [href] at h
      split_ifs at h <;> cases h <;> rfl

theorem prepareCronjob_error {control : CronJobControl} {clusterId namespaceName cronjob : String}
    (h : prepareCronjob g k view control clusterId namespaceName cronjob payload = .error e) :
    e.statusCode = 409 := by
  unfold prepareCronjob exactCronjobCapabilityResource at h
  cases hrow : view.resource payload.resourceId with
  | none =>
    simp only [hrow] at h
    cases h
    rfl
  | some row =>
    simp only [hrow] at h
    rcases href : inventoryResourceRef row with error | current
    · simp only [href] at h
      cases h
      exact inventoryResourceRef_error href
    · simp only [href] at h
      split_ifs at h <;> cases h <;> rfl

theorem prepareRollback_error {resourceId : String} {payload : RollbackPayload}
    (h : prepareRollback g k view resourceId payload = .error e) : e.statusCode = 409 := by
  have hstale : ∀ {x : HttpError}, (Except.error workloadRollbackStale : Except HttpError Prepared)
      = .error x → x.statusCode = 409 := by
    rintro _ ⟨⟩
    rfl
  unfold prepareRollback at h
  repeat' split at h
  all_goals first | exact hstale h | cases h

theorem prepareExact_fingerprint {a : ExactAction} (h : prepareExact g k view a payload = .ok p) :
    p.requestFingerprint = exactActionRequestFingerprint g k a payload := by
  unfold prepareExact at h
  split at h <;> cases h
  rfl

theorem prepareCronjob_fingerprint {control : CronJobControl}
    {clusterId namespaceName cronjob : String}
    (h : prepareCronjob g k view control clusterId namespaceName cronjob payload = .ok p) :
    p.requestFingerprint = cronjobRequestFingerprint g k control.action
      (cronjobReason control cronjob payload) payload := by
  unfold prepareCronjob at h
  split at h <;> cases h
  rfl

theorem prepareRollback_fingerprint {resourceId : String} {payload : RollbackPayload}
    (h : prepareRollback g k view resourceId payload = .ok p) :
    p.requestFingerprint = workloadRollbackRequestFingerprint g k payload := by
  unfold prepareRollback at h
  repeat' split at h
  all_goals first | cases h; done | (cases h; rfl)

/-- **A request that the inventory refuses is a conflict.** -/
theorem Request.observe_error {request : Request} (h : request.observe g k view = .error e) :
    e.statusCode = 409 := by
  cases request <;> simp only [Request.observe] at h
  case cronJobControl => exact prepareCronjob_error h
  case rollbackWorkload => exact prepareRollback_error h
  all_goals exact prepareExact_error h

/-- **A validated request carries its own fingerprint.** -/
theorem Request.observe_fingerprint {request : Request} (h : request.observe g k view = .ok p) :
    p.requestFingerprint = request.fingerprint g k := by
  cases request <;> simp only [Request.observe] at h <;> rw [Request.fingerprint]
  case cronJobControl => exact prepareCronjob_fingerprint h
  case rollbackWorkload => exact prepareRollback_fingerprint h
  all_goals exact prepareExact_fingerprint h

/-- A validation fails before it reads, or as a conflict. -/
theorem Request.prepare_cases (g : Gateway) (k : IdempotencyKey) (view : ResourceView)
    (request : Request) :
    (∃ e, request.preflight g = .error e ∧ request.prepare g k view = .error e) ∨
      (∃ e, request.prepare g k view = .error e ∧ e.statusCode = 409) ∨
      ∃ p, request.prepare g k view = .ok p ∧ p.requestFingerprint = request.fingerprint g k := by
  unfold Request.prepare
  rcases hpre : request.preflight g with e | u
  · exact Or.inl ⟨e, rfl, rfl⟩
  · cases u
    rcases hobs : request.observe g k view with e | p
    · exact Or.inr (Or.inl ⟨e, rfl, Request.observe_error hobs⟩)
    · exact Or.inr (Or.inr ⟨p, rfl, Request.observe_fingerprint hobs⟩)

end Opsia.ResourceAction
