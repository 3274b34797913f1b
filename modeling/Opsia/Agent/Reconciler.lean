import Opsia.Lib.PyText
import Opsia.Lib.PyValue
import Opsia.Lib.Runs
import Opsia.Lib.Table

/-!
# The desired-state reconciler

`DesiredStateReconciler` of `control/reconciler.py` and the resource rows of `control/store.py`. One
call of `reconcile_resource` is a step, with what its call of the cluster does: it returns, raises,
or the process stops. A process may be replaced by one in another mode, on the same store.

The row of a resource id is the report of the last call and the memory of what was applied.
`NeverSkips` says that this memory is right; it is, in every state of a run, exactly when no
observation in Argo CD mode is recorded of what was not applied last, and no apply is cut short
while the row says that another one succeeded (`neverSkips_iff`).
-/

namespace Opsia.Agent.Control

/-! ## Resources -/

inductive ResourceScope : Type where
  | targetAgent | system | userWorkload
  deriving DecidableEq, Repr

inductive ResourceKind : Type where
  | configMap | deployment
  deriving DecidableEq, Repr

inductive ResourceAction : Type where
  | observe | apply
  deriving DecidableEq, Repr

structure DesiredResource : Type where
  resourceId : String
  scope : ResourceScope
  kind : ResourceKind
  namespaceName : String
  name : String
  action : ResourceAction
  state : List (String × PyValue)
  deriving Repr

/-- `RECONCILER_MODES`. -/
inductive ReconcilerMode : Type where
  | builtin | argocd
  deriving DecidableEq, Repr

/-- What the reconciler relies on: its role, `str` of a value, the JSON text that
`desired_resource_hash` digests, which has the action of the resource, and SHA-256. -/
structure ReconcilerEnv : Type where
  clusterRole : String
  pyStr : PyValue → String
  document : DesiredResource → String
  sha256 : String → String
  action_of_document : ∀ {r r'}, document r = document r' → r.action = r'.action
  sha256_injective : Function.Injective sha256

def desiredResourceHash (env : ReconcilerEnv) (resource : DesiredResource) : String :=
  env.sha256 (env.document resource)

/-! ## What is allowed -/

/-- `TARGET_IMAGE_DIGEST_PATTERN.fullmatch`, from the end: the digest, its mark, and the image. -/
def isTargetImageDigest (candidate : String) : Bool :=
  let text := candidate.toList.reverse
  let image := text.drop 72
  (text.take 64).length = 64 &&
    (text.take 64).all (fun c => c.isDigit || ('a' ≤ c && c ≤ 'f')) &&
    (text.drop 64).take 8 = "@sha256:".toList.reverse && !image.isEmpty &&
    image.all fun c => c.isAlphanum || c ∈ ['.', '_', ':', '/', '-']

def requireTargetImageDigest (image : String) : Except String String :=
  let candidate := PyText.strip image
  if isTargetImageDigest candidate then .ok candidate
  else .error "target image must use an immutable sha256 digest"

/-- The keys of a dictionary are these. -/
def keysAre (fields : List (String × PyValue)) (names : List String) : Bool :=
  names.all (fun name => name ∈ fields.map Prod.fst) && fields.all fun field => field.1 ∈ names

def targetRuntimeConfigName : String := "target-runtime-config"

def ensureRuntimeImagePatch (env : ReconcilerEnv) (resource : DesiredResource) :
    Except String Unit :=
  let expected : List (String × PyValue) := [("apiVersion", .str "v1"), ("kind", .str "ConfigMap"),
    ("metadata", .dict [("name", .str targetRuntimeConfigName), ("namespace", .str "target")])]
  let differs (field : String × PyValue) : Bool :=
    !((resource.state.lookup field.1).getD .none).eq field.2
  let image (data : List (String × PyValue)) (key : String) : Except String String :=
    requireTargetImageDigest (match data.lookup key with
      | some (.str text) => text
      | some value => env.pyStr value
      | none => "")
  if expected.any differs then .error "target runtime config patch identity is invalid"
  else if !keysAre resource.state ["apiVersion", "kind", "metadata", "data"] then
    .error "target runtime config patch fields are not allowed"
  else
    match resource.state.lookup "data" with
    | some (.dict data) =>
      if !keysAre data ["TARGET_AGENT_IMAGE", "NODE_COLLECTOR_IMAGE"] then
        .error "target runtime config patch is image-leaf scoped"
      else
        image data "TARGET_AGENT_IMAGE" >>= fun targetImage =>
          image data "NODE_COLLECTOR_IMAGE" >>= fun collectorImage =>
            if targetImage ≠ collectorImage then
              .error "target runtime images must use one exact digest"
            else .ok ()
    | _ => .error "target runtime config patch is image-leaf scoped"

def ensureAllowed (env : ReconcilerEnv) (resource : DesiredResource) : Except String Unit :=
  let expectedNamespace := if env.clusterRole = "management" then "management" else "target"
  let deployments : Except String Unit :=
    if resource.scope = .targetAgent ∧ resource.kind = .deployment ∧
        resource.name ≠ "cluster-agent" then
      .error "target-agent deployment control is name-scoped"
    else if resource.scope = .system ∧ resource.kind = .deployment then
      .error "system deployment reconciliation is not enabled"
    else .ok ()
  if resource.scope = .userWorkload then .error "user workload reconciliation is not enabled"
  else if resource.namespaceName ≠ expectedNamespace then
    .error (env.clusterRole ++ " agent cannot reconcile namespace " ++ resource.namespaceName)
  else if resource.kind = .configMap then
    if resource.name ∉ ["target-agent-policy", targetRuntimeConfigName] then
      .error "target-agent configmap control is name-scoped"
    else if resource.name = targetRuntimeConfigName then
      ensureRuntimeImagePatch env resource >>= fun _ => deployments
    else deployments
  else deployments

/-! ## Calls -/

inductive ReconcileStatus : Type where
  | applied | failed | unchanged
  deriving DecidableEq, Repr

/-- `SUCCESSFUL_RECONCILE_STATUSES`. -/
def ReconcileStatus.isSuccessful : ReconcileStatus → Bool
  | .applied | .unchanged => true
  | .failed => false

/-- `ReconcileResult`, which is a row of `reconcile_resources` too. -/
structure ReconcileResult : Type where
  resourceId : String
  scope : ResourceScope
  kind : ResourceKind
  namespaceName : String
  name : String
  desiredHash : String
  status : ReconcileStatus
  message : String
  deriving DecidableEq, Repr

/-- An apply that was issued, and whether it is known to have succeeded. -/
structure Write : Type where
  resource : DesiredResource
  succeeded : Bool

/-- The agent: its store, its mode, and the applies that it issued, the last one first. -/
structure State : Type where
  rows : Table ReconcileResult.resourceId
  mode : ReconcilerMode
  writes : List Write

/-- The store of a new agent. -/
def State.initial (mode : ReconcilerMode) : State := ⟨Table.empty, mode, []⟩

/-- What becomes of a call of the cluster. -/
inductive Fate : Type where
  | returns
  | raises (message : String)
  /-- the process stops before the result is saved; an apply may have succeeded -/
  | stops (succeeded : Bool)
  deriving DecidableEq, Repr

/-- Whether the call is known to have succeeded. -/
def Fate.succeeded : Fate → Bool
  | .returns => true
  | .raises _ => false
  | .stops succeeded => succeeded

variable (env : ReconcilerEnv)

/-- `result`. -/
def ReconcileResult.of (resource : DesiredResource) (status : ReconcileStatus) (message : String) :
    ReconcileResult where
  resourceId := resource.resourceId
  scope := resource.scope
  kind := resource.kind
  namespaceName := resource.namespaceName
  name := resource.name
  desiredHash := desiredResourceHash env resource
  status := status
  message := message

namespace State

def lastSuccessfulResourceHash (s : State) (resourceId : String) : Option String :=
  ((s.rows.find? resourceId).filter (·.status.isSuccessful)).map (·.desiredHash)

def saveReconcileResult (s : State) (result : ReconcileResult) : State :=
  { s with rows := s.rows.put result }

/-- The call of the cluster has ended, and its result is saved unless the process stopped. -/
def settle (s : State) (resource : DesiredResource) (fate : Fate) (status : ReconcileStatus)
    (message : String) : State × Option ReconcileResult :=
  match fate with
  | .returns =>
    let result := ReconcileResult.of env resource status message
    (s.saveReconcileResult result, some result)
  | .raises error =>
    let result := ReconcileResult.of env resource .failed error
    (s.saveReconcileResult result, some result)
  | .stops _ => (s, none)

/-- `reconcile_resource`; there is no result where the process stopped. -/
def reconcileResource (s : State) (resource : DesiredResource) (fate : Fate) :
    State × Option ReconcileResult :=
  match ensureAllowed env resource with
  | .error message => s.settle env resource (.raises message) .failed ""
  | .ok () =>
    match resource.action, s.mode with
    | .apply, .argocd =>
      s.settle env resource fate .unchanged "observed (argocd single-writer mode)"
    | .apply, .builtin =>
      if s.lastSuccessfulResourceHash resource.resourceId =
          some (desiredResourceHash env resource) then
        s.settle env resource .returns .unchanged "already applied"
      else
        settle env { s with writes := ⟨resource, fate.succeeded⟩ :: s.writes } resource fate
          .applied "applied"
    | .observe, _ => s.settle env resource fate .unchanged "observed"

/-- `reconcile_once` over the resources of a policy: it ends with the first one that fails. -/
def reconcileOnce (s : State) : List (DesiredResource × Fate) → State × List ReconcileResult
  | [] => (s, [])
  | (resource, fate) :: rest =>
    match s.reconcileResource env resource fate with
    | (s', none) => (s', [])
    | (s', some result) =>
      if result.status = .failed then (s', [result])
      else
        let (last, results) := s'.reconcileOnce rest
        (last, result :: results)

end State

/-- What happens to an agent. -/
inductive Action : Type where
  /-- a process starts on the store -/
  | restart (mode : ReconcilerMode)
  | reconcile (resource : DesiredResource) (fate : Fate)

def step (s : State) : Action → State
  | .restart mode => { s with mode }
  | .reconcile resource fate => (s.reconcileResource env resource fate).1

/-- **A pass over the resources of a policy is a run of calls.** -/
theorem reconcileOnce_eq_run (s : State) (items : List (DesiredResource × Fate)) :
    ∃ done, done <+: items ∧ (s.reconcileOnce env items).1 =
      Runs.run (step env) s (done.map fun item => .reconcile item.1 item.2) := by
  induction items generalizing s with
  | nil => exact ⟨[], List.nil_prefix, rfl⟩
  | cons item rest ih =>
    obtain ⟨resource, fate⟩ := item
    have hone : [(resource, fate)] <+: (resource, fate) :: rest := ⟨rest, rfl⟩
    rw [State.reconcileOnce]
    split
    · next s' hcall => exact ⟨_, hone, (congrArg Prod.fst hcall).symm⟩
    · next s' result hcall =>
      split_ifs
      · exact ⟨_, hone, (congrArg Prod.fst hcall).symm⟩
      · obtain ⟨done, hdone, hrun⟩ := ih s'
        refine ⟨(resource, fate) :: done, (List.prefix_cons_inj _).mpr hdone, ?_⟩
        rw [List.map_cons, Runs.run_cons, step, hcall]
        exact hrun

/-! ## The memory of what was applied -/

namespace State

/-- The last apply of the resource id was one of this desired state, and succeeded. -/
def Wrote (s : State) (resource : DesiredResource) : Prop :=
  ∃ write, s.writes.find? (fun w => w.resource.resourceId = resource.resourceId) = some write ∧
    write.succeeded = true ∧ env.document write.resource = env.document resource

/-- The store says that this desired state was applied. -/
def Remembers (s : State) (resource : DesiredResource) : Prop :=
  ensureAllowed env resource = .ok () ∧ resource.action = .apply ∧
    s.lastSuccessfulResourceHash resource.resourceId = some (desiredResourceHash env resource)

/-- What the store says of a resource id is right. -/
def HonestAt (s : State) (resourceId : String) : Prop :=
  ∀ resource, resource.resourceId = resourceId → s.Remembers env resource → s.Wrote env resource

def Honest (s : State) : Prop := ∀ resourceId, s.HonestAt env resourceId

/-- A process in either mode that reports an apply resource as already applied is right. -/
def Truthful (s : State) : Prop :=
  ∀ mode resource fate result, resource.action = .apply →
    (reconcileResource env { s with mode } resource fate).2 = some result →
      result.status = .unchanged → result.message = "already applied" → s.Wrote env resource

end State

/-- The call records no observation in Argo CD mode of what was not applied last, and is no apply
that is cut short while the store says that another one succeeded. -/
def Keeps (s : State) : Action → Prop
  | .restart _ => True
  | .reconcile resource fate => ensureAllowed env resource = .ok () → resource.action = .apply →
    (s.mode = .argocd → fate = .returns → s.Wrote env resource) ∧
      (s.mode = .builtin → ¬ s.Remembers env resource → ∀ succeeded, fate = .stops succeeded →
        ∀ other, other.resourceId = resource.resourceId → ¬ s.Remembers env other)

/-- An apply is issued for a resource that is allowed, and not in Argo CD mode. -/
def Permitted (s : State) : Action → Prop
  | .restart _ => True
  | .reconcile resource fate =>
    ((s.reconcileResource env resource fate).1.writes = s.writes ∨
      ensureAllowed env resource = .ok () ∧ resource.action = .apply ∧ s.mode = .builtin)

/-- The reconciler skips nothing that it has not done, and applies nothing that it must not. -/
structure NeverSkips (s : State) (as : List Action) : Prop where
  truthful : ∀ e ∈ Runs.trace (step env) s as, e.post.Truthful env
  permitted : ∀ e ∈ Runs.trace (step env) s as, Permitted env e.pre e.action

variable {env} {s : State} {resource other : DesiredResource} {fate : Fate}
  {status : ReconcileStatus} {message resourceId : String}

namespace State

theorem writes_settle : (s.settle env resource fate status message).1.writes = s.writes := by
  cases fate <;> rfl

theorem find?_settle_of_ne (h : resourceId ≠ resource.resourceId) :
    (s.settle env resource fate status message).1.rows.find? resourceId =
      s.rows.find? resourceId := by
  have hput (result : ReconcileResult) (hresult : result.resourceId = resource.resourceId) :
      (s.rows.put result).find? resourceId = s.rows.find? resourceId := by
    rw [Table.find?_put, if_neg (hresult ▸ h)]
  cases fate with
  | returns => exact hput _ rfl
  | raises error => exact hput _ rfl
  | stops succeeded => rfl

theorem lastSuccessful_save (result : ReconcileResult) :
    (s.saveReconcileResult result).lastSuccessfulResourceHash result.resourceId =
      if result.status.isSuccessful then some result.desiredHash else none := by
  rw [lastSuccessfulResourceHash, saveReconcileResult, Table.find?_put, if_pos rfl, Option.filter]
  split_ifs <;> rfl

theorem find?_issued {writes : List Write} {succeeded : Bool}
    (h : resource.resourceId = resourceId) :
    (⟨resource, succeeded⟩ :: writes : List Write).find?
      (fun w => w.resource.resourceId = resourceId) = some ⟨resource, succeeded⟩ := by
  rw [List.find?_cons, decide_eq_true h]

/-- A failure is remembered as no success. -/
theorem honestAt_raises {error : String} :
    (s.settle env resource (.raises error) status message).1.HonestAt env resource.resourceId := by
  rintro other hid ⟨-, -, hlast⟩
  rw [hid] at hlast
  exact absurd ((lastSuccessful_save _).symm.trans hlast) nofun

theorem honestAt_returns (hallowed : ensureAllowed env resource = .ok ())
    (hstatus : status.isSuccessful = true) :
    (s.settle env resource .returns status message).1.HonestAt env resource.resourceId ↔
      (resource.action = .apply → s.Wrote env resource) := by
  have hlast : (s.settle env resource .returns status message).1.lastSuccessfulResourceHash
      resource.resourceId = some (desiredResourceHash env resource) :=
    (lastSuccessful_save _).trans (if_pos hstatus)
  constructor
  · exact fun h haction => h resource rfl ⟨hallowed, haction, hlast⟩
  · rintro h other hid ⟨-, haction, hother⟩
    rw [hid] at hother
    have hdocument : env.document resource = env.document other :=
      env.sha256_injective (Option.some.inj (hlast.symm.trans hother))
    obtain ⟨write, hwrite, hsucceeded, hsame⟩ :=
      h ((env.action_of_document hdocument).trans haction)
    exact ⟨write, hid ▸ hwrite, hsucceeded, hsame.trans hdocument⟩

end State

theorem honestAt_step_of_ne (h : resourceId ≠ resource.resourceId) :
    (step env s (.reconcile resource fate)).HonestAt env resourceId ↔ s.HonestAt env resourceId := by
  have hsame {t : State} (hrows : t.rows.find? resourceId = s.rows.find? resourceId)
      (hwrites : t.writes.find? (fun w => w.resource.resourceId = resourceId) =
        s.writes.find? fun w => w.resource.resourceId = resourceId) :
      t.HonestAt env resourceId ↔ s.HonestAt env resourceId := by
    refine forall_congr' fun other => forall_congr' fun hid => ?_
    subst hid
    rw [State.Remembers, State.Remembers, State.Wrote, State.Wrote, hwrites,
      State.lastSuccessfulResourceHash, State.lastSuccessfulResourceHash, hrows]
  have hsettle {fate : Fate} {status : ReconcileStatus} {message : String} :
      (s.settle env resource fate status message).1.HonestAt env resourceId ↔
        s.HonestAt env resourceId :=
    hsame (State.find?_settle_of_ne h) (by rw [State.writes_settle])
  rw [step, State.reconcileResource]
  split
  · exact hsettle
  · split
    · exact hsettle
    · split_ifs
      · exact hsettle
      · refine hsame (State.find?_settle_of_ne h) ?_
        rw [State.writes_settle, List.find?_cons_of_neg (by simpa using h.symm)]
    · exact hsettle

/-- **Where the memory is right, a call keeps it right exactly when the condition holds.** -/
theorem honest_step_iff (hs : s.Honest env) (a : Action) :
    (step env s a).Honest env ↔ Keeps env s a := by
  cases a with
  | restart mode => exact iff_of_true hs trivial
  | reconcile resource fate =>
    -- only what is said of this resource id can change
    have hhere : (step env s (.reconcile resource fate)).Honest env ↔
        (step env s (.reconcile resource fate)).HonestAt env resource.resourceId := by
      refine ⟨fun h => h _, fun h resourceId => ?_⟩
      by_cases hid : resourceId = resource.resourceId
      · exact hid ▸ h
      · exact (honestAt_step_of_ne hid).mpr (hs resourceId)
    rw [hhere, step, State.reconcileResource, Keeps]
    cases hallowed : ensureAllowed env resource with
    | error message => exact iff_of_true State.honestAt_raises nofun
    | ok _ =>
      cases haction : resource.action with
      | observe =>
        refine iff_of_true ?_ fun _ => nofun
        cases fate with
        | returns => exact (State.honestAt_returns hallowed rfl).mpr (by simp [haction])
        | raises error => exact State.honestAt_raises
        | stops succeeded => exact hs _
      | apply =>
        cases hmode : s.mode with
        | argocd =>
          cases fate with
          | returns =>
            refine (State.honestAt_returns hallowed rfl).trans ⟨fun h _ _ => ⟨fun _ _ => h haction,
              nofun⟩, fun h _ => (h rfl rfl).1 rfl rfl⟩
          | raises error => exact iff_of_true State.honestAt_raises fun _ _ => ⟨fun _ => nofun, nofun⟩
          | stops succeeded => exact iff_of_true (hs _) fun _ _ => ⟨fun _ => nofun, nofun⟩
        | builtin =>
          dsimp only
          split_ifs with hlast
          · have hremembers : s.Remembers env resource := ⟨hallowed, haction, hlast⟩
            refine iff_of_true ((State.honestAt_returns hallowed rfl).mpr fun _ => ?_) ?_
            · exact hs _ resource rfl hremembers
            · exact fun _ _ => ⟨nofun, fun _ hnot => absurd hremembers hnot⟩
          · cases fate with
            | returns =>
              refine iff_of_true ((State.honestAt_returns hallowed rfl).mpr fun _ => ?_) ?_
              · exact ⟨_, State.find?_issued rfl, rfl, rfl⟩
              · exact fun _ _ => ⟨nofun, fun _ _ _ => nofun⟩
            | raises error =>
              exact iff_of_true State.honestAt_raises fun _ _ => ⟨nofun, fun _ _ _ => nofun⟩
            | stops succeeded =>
              -- the row is the old one, but the last write is this one
              refine ⟨fun h _ _ => ⟨nofun, fun _ _ _ _ => ?_⟩, fun h => ?_⟩
              · intro other hid hremembers
                obtain ⟨write, hwrite, -, hdocument⟩ := h other hid hremembers
                obtain rfl := Option.some.inj ((State.find?_issued hid.symm).symm.trans hwrite)
                refine hlast ?_
                rw [desiredResourceHash, hdocument, ← hid]
                exact hremembers.2.2
              · intro other hid hremembers
                have hnot := (h rfl rfl).2 rfl (fun hsame => hlast hsame.2.2) succeeded rfl
                exact absurd hremembers (hnot other hid)

/-- A process reports rightly what it does not apply when the memory is right. -/
theorem truthful_iff : s.Truthful env ↔ s.Honest env := by
  constructor
  · -- a builtin process would report whatever the store remembers
    rintro h resourceId resource rfl ⟨hallowed, haction, hlast⟩
    have hreport : (State.reconcileResource env { s with mode := .builtin } resource .returns).2 =
        some (.of env resource .unchanged "already applied") := by
      rw [State.reconcileResource, hallowed, haction]
      exact congrArg Prod.snd (if_pos hlast)
    exact h _ resource _ _ haction hreport rfl rfl
  · intro h mode resource fate result haction hresult hstatus hmessage
    have hsettled {t : State} {fate : Fate} {status : ReconcileStatus} {message : String}
        (hsettle : (t.settle env resource fate status message).2 = some result) :
        message = "already applied" := by
      cases fate with
      | returns =>
        obtain rfl := Option.some.inj hsettle
        exact hmessage
      | raises error =>
        obtain rfl := Option.some.inj hsettle
        exact absurd hstatus nofun
      | stops succeeded => exact absurd hsettle nofun
    rw [State.reconcileResource] at hresult
    cases hallowed : ensureAllowed env resource with
    | error message =>
      rw [hallowed] at hresult
      exact absurd (hsettled hresult) (by decide)
    | ok _ =>
      rw [hallowed, haction] at hresult
      cases mode with
      | argocd => exact absurd (hsettled hresult) (by decide)
      | builtin =>
        dsimp only at hresult
        split_ifs at hresult with hlast
        · exact h _ resource rfl ⟨hallowed, haction, hlast⟩
        · exact absurd (hsettled hresult) (by decide)

theorem permitted_step (s : State) (a : Action) : Permitted env s a := by
  cases a with
  | restart mode => trivial
  | reconcile resource fate =>
    rw [Permitted, State.reconcileResource]
    cases hallowed : ensureAllowed env resource with
    | error message => exact Or.inl State.writes_settle
    | ok _ =>
      cases haction : resource.action with
      | observe => exact Or.inl State.writes_settle
      | apply =>
        cases hmode : s.mode with
        | argocd => exact Or.inl State.writes_settle
        | builtin => exact Or.inr ⟨rfl, rfl, rfl⟩

/-- **The reconciler skips nothing that it has not done exactly in the runs whose calls all meet the
condition.** -/
theorem neverSkips_iff (env : ReconcilerEnv) (mode : ReconcilerMode) (as : List Action) :
    NeverSkips env (State.initial mode) as ↔
      Runs.Meets (step env) (Keeps env) (State.initial mode) as := by
  have hinitial : (State.initial mode).Honest env := fun _ _ _ hremembers =>
    absurd hremembers.2.2 nofun
  have hkept := Runs.forall_trace_iff_meets (P := State.Honest env)
    (Q := fun e : Runs.Entry State Action => e.post.Truthful env)
    (fun s a hs hok => (honest_step_iff hs a).mpr hok)
    (fun s a hs => truthful_iff.trans (honest_step_iff hs a)) hinitial as
  refine ⟨fun h => hkept.mp h.truthful, fun h => ⟨hkept.mpr h, fun e _ => permitted_step _ _⟩⟩

/-- Documents that tell the action and the id. -/
def shortDocuments : ReconcilerEnv where
  clusterRole := "target"
  pyStr _ := ""
  document resource :=
    String.ofList ((if resource.action = .apply then '+' else '-') :: resource.resourceId.toList)
  sha256 := id
  action_of_document {r r'} h := by
    have hhead := (List.cons.inj (String.ofList_injective h)).1
    cases hr : r.action <;> cases hr' : r'.action <;> simp [hr, hr'] at hhead ⊢
  sha256_injective := Function.injective_id

def agentPolicy : DesiredResource :=
  ⟨"policy", .targetAgent, .configMap, "target", "target-agent-policy", .apply, []⟩

/-- What was observed in Argo CD mode is reported as already applied by the next process, which
issued no apply. -/
theorem observation_is_taken_for_an_apply :
    let s := Runs.run (step shortDocuments) (State.initial .argocd)
      [.reconcile agentPolicy .returns, .restart .builtin]
    (s.reconcileResource shortDocuments agentPolicy .returns).2.map (·.message) =
        some "already applied" ∧ s.writes.length = 0 ∧
      ¬ NeverSkips shortDocuments (State.initial .argocd)
        [.reconcile agentPolicy .returns, .restart .builtin] := by
  refine ⟨by decide, rfl, fun h => ?_⟩
  have hright := h.truthful _ (List.mem_cons_of_mem _ List.mem_cons_self) .builtin agentPolicy
    .returns _ rfl rfl rfl rfl
  obtain ⟨write, hwrite, -⟩ := hright
  exact absurd hwrite nofun

/-! ## Applied once -/

namespace State

/-- The applies that were issued for a resource id. -/
def appliesOf (s : State) (resourceId : String) : List Write :=
  s.writes.filter (·.resource.resourceId = resourceId)

variable (env) in
/-- A builtin process whose store remembers the resource, after these applies of its id. -/
structure HasApplied (s : State) (resource : DesiredResource) (applies : List Write) : Prop where
  mode : s.mode = .builtin
  remembers : s.Remembers env resource
  applies : s.appliesOf resource.resourceId = applies

theorem HasApplied.step {applies : List Write} (h : s.HasApplied env resource applies)
    (hsame : other.resourceId = resource.resourceId → other = resource) :
    (step env s (.reconcile other fate)).HasApplied env resource applies := by
  obtain ⟨hmode, ⟨hallowed, haction, hlast⟩, happlies⟩ := h
  rw [Control.step, reconcileResource]
  by_cases hid : resource.resourceId = other.resourceId
  · obtain rfl := hsame hid.symm
    rw [hallowed, haction, hmode]
    dsimp only
    rw [if_pos hlast]
    exact ⟨hmode, ⟨hallowed, haction, (lastSuccessful_save _).trans (if_pos rfl)⟩, happlies⟩
  · -- the row of another resource is not read
    have hsettle {t : State} {fate : Fate} {status : ReconcileStatus} {message : String}
        (ht : t.mode = .builtin) (hrows : t.rows = s.rows)
        (hissued : t.appliesOf resource.resourceId = applies) :
        (t.settle env other fate status message).1.HasApplied env resource applies := by
      refine ⟨by cases fate <;> exact ht, ⟨hallowed, haction, ?_⟩, ?_⟩
      · rwa [lastSuccessfulResourceHash, find?_settle_of_ne hid, hrows]
      · rwa [appliesOf, writes_settle]
    split
    · exact hsettle hmode rfl happlies
    · split
      · exact hsettle hmode rfl happlies
      · split_ifs
        · exact hsettle hmode rfl happlies
        · refine hsettle hmode rfl ?_
          rwa [appliesOf, List.filter_cons_of_neg (by simpa using Ne.symm hid)]
      · exact hsettle hmode rfl happlies

end State

/-- **What is remembered as applied is not applied again**, whatever becomes of the calls for other
resources, until its desired state changes. -/
theorem applied_once (calls : List (DesiredResource × Fate)) (hmode : s.mode = .builtin)
    (hremembers : s.Remembers env resource)
    (hsame : ∀ call ∈ calls, call.1.resourceId = resource.resourceId → call.1 = resource) :
    (Runs.run (step env) s (calls.map fun call => .reconcile call.1 call.2)).appliesOf
      resource.resourceId = s.appliesOf resource.resourceId := by
  have h : s.HasApplied env resource (s.appliesOf resource.resourceId) := ⟨hmode, hremembers, rfl⟩
  generalize s.appliesOf resource.resourceId = applies at h ⊢
  induction calls generalizing s with
  | nil => exact h.applies
  | cons call rest ih =>
    obtain ⟨hcall, hrest⟩ := List.forall_mem_cons.mp hsame
    rw [List.map_cons, Runs.run_cons]
    have hnext : (step env s (.reconcile call.1 call.2)).HasApplied env resource applies :=
      h.step hcall
    exact ih hnext.mode hnext.remembers hrest hnext

theorem agentPolicy_applied_once :
    let s := step shortDocuments (.initial .builtin) (.reconcile agentPolicy .returns)
    (Runs.run (step shortDocuments) s [.reconcile agentPolicy .returns]).appliesOf "policy" =
      s.appliesOf "policy" := by
  intro s
  have hremembers : s.Remembers shortDocuments agentPolicy := ⟨by decide, rfl, by decide⟩
  exact applied_once [(agentPolicy, .returns)] rfl hremembers (by simp)

end Opsia.Agent.Control
