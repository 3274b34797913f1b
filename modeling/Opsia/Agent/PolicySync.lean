import Opsia.Agent.Reconciler

/-!
# Policy sync

`AgentPolicySync` of `control/policy.py`, the policy rows of `control/store.py` and
`packages/contracts/gateway/policy_merge.py`. A policy that is fetched is merged onto the policy in
force, applied and saved; each step may fail. A policy that fails may be staged for the reconciler.

What a sync leaves in force has all that a full payload says; the evidence profile stays that of the
built-in default, and a provider that the payload does not name keeps its policy (`SyncLaw`).
-/

namespace Opsia.Agent.Control

/-! ## Policies -/

structure EvidenceProviderPolicy : Type where
  enabled : Bool
  intervalSeconds : ℤ
  minWorkers : ℤ
  maxWorkers : ℤ
  queueAgeTargetSeconds : ℤ
  queries : List PyValue
  configurationRevision : Option String
  configurationOperationId : Option String

/-- `EvidenceProviderPolicy()`. -/
def EvidenceProviderPolicy.default : EvidenceProviderPolicy := ⟨true, 8, 1, 3, 15, [], none, none⟩

/-- A dictionary. -/
abbrev Dict (ν : Type) : Type := Table (Prod.fst : String × ν → String)

structure EvidenceRuntimePolicy : Type where
  profile : String
  failurePolicy : String
  maxAttempts : ℤ
  providers : Dict EvidenceProviderPolicy

structure BootstrapPolicy : Type where
  mode : String
  resources : List DesiredResource

/-- `AgentPolicy`; the scheduling policy is of any type. -/
structure AgentPolicy (σ : Type) : Type where
  clusterId : String
  generation : ℤ
  clusterRole : String
  evidence : EvidenceRuntimePolicy
  bootstrap : BootstrapPolicy
  desiredState : List DesiredResource
  scheduling : σ

/-! ## Payloads -/

/-- The provider policy of a payload, with the fields that are set. -/
structure IncomingProvider : Type where
  enabled : Option Bool
  intervalSeconds : Option ℤ
  minWorkers : Option ℤ
  maxWorkers : Option ℤ
  queueAgeTargetSeconds : Option ℤ
  queries : Option (List PyValue)
  configurationRevision : Option (Option String)
  configurationOperationId : Option (Option String)

/-- The evidence policy of a payload, with the fields that are set and read. -/
structure IncomingEvidence : Type where
  failurePolicy : Option String
  maxAttempts : Option ℤ
  providers : Option (Dict IncomingProvider)

/-- The policy of a payload, with the fields that are set. -/
structure IncomingPolicy (σ : Type) : Type where
  clusterId : Option String
  generation : ℤ
  clusterRole : Option String
  evidence : Option IncomingEvidence
  bootstrap : Option BootstrapPolicy
  desiredState : Option (List DesiredResource)
  scheduling : Option σ

/-- `merge_provider_policy`, with the validation of the result. -/
def mergeProviderPolicy (base : EvidenceProviderPolicy) (incoming : IncomingProvider) :
    Except String EvidenceProviderPolicy :=
  let merged : EvidenceProviderPolicy :=
    { enabled := incoming.enabled.getD base.enabled
      intervalSeconds := incoming.intervalSeconds.getD base.intervalSeconds
      minWorkers := incoming.minWorkers.getD base.minWorkers
      maxWorkers := incoming.maxWorkers.getD base.maxWorkers
      queueAgeTargetSeconds := incoming.queueAgeTargetSeconds.getD base.queueAgeTargetSeconds
      queries := incoming.queries.getD base.queries
      configurationRevision := incoming.configurationRevision.getD base.configurationRevision
      configurationOperationId :=
        incoming.configurationOperationId.getD base.configurationOperationId }
  if merged.configurationRevision.isNone ≠ merged.configurationOperationId.isNone then
    .error "provider configuration revision and operation identity must be paired"
  else .ok merged

/-- The provider policies that the loop of `merge_evidence_policy` assigns. -/
def mergeProviders (base : Dict EvidenceProviderPolicy) :
    List (String × IncomingProvider) → Except String (List (String × EvidenceProviderPolicy))
  | [] => .ok []
  | (key, incoming) :: rest =>
    mergeProviderPolicy ((base.find? key).elim .default Prod.snd) incoming >>= fun merged =>
      mergeProviders base rest >>= fun others => .ok ((key, merged) :: others)

def mergeEvidencePolicy (base : EvidenceRuntimePolicy) (incoming : IncomingEvidence) :
    Except String EvidenceRuntimePolicy :=
  mergeProviders base.providers (incoming.providers.elim [] (·.rows)) >>= fun merged => .ok
    { base with
      failurePolicy := incoming.failurePolicy.getD base.failurePolicy
      maxAttempts := incoming.maxAttempts.getD base.maxAttempts
      providers := merged.foldl Table.put base.providers }

variable {σ : Type}

def mergeAgentPolicy (base : AgentPolicy σ) (incoming : IncomingPolicy σ) :
    Except String (AgentPolicy σ) :=
  incoming.evidence.elim (.ok base.evidence) (mergeEvidencePolicy base.evidence) >>=
    fun evidence => .ok
      { clusterId := incoming.clusterId.getD base.clusterId
        generation := incoming.generation
        clusterRole := incoming.clusterRole.getD base.clusterRole
        evidence := evidence
        bootstrap := incoming.bootstrap.getD base.bootstrap
        desiredState := incoming.desiredState.getD base.desiredState
        scheduling := incoming.scheduling.getD base.scheduling }

/-- A stored provider policy: all its fields are set. -/
def EvidenceProviderPolicy.incoming (provider : EvidenceProviderPolicy) : IncomingProvider :=
  ⟨some provider.enabled, some provider.intervalSeconds, some provider.minWorkers,
    some provider.maxWorkers, some provider.queueAgeTargetSeconds, some provider.queries,
    some provider.configurationRevision, some provider.configurationOperationId⟩

/-- A full policy: all its fields are set. A stored one is read so. -/
def AgentPolicy.incoming (policy : AgentPolicy σ) : IncomingPolicy σ where
  clusterId := some policy.clusterId
  generation := policy.generation
  clusterRole := some policy.clusterRole
  evidence := some
    { failurePolicy := some policy.evidence.failurePolicy
      maxAttempts := some policy.evidence.maxAttempts
      providers := some
        { rows := policy.evidence.providers.rows.map fun entry => (entry.1, entry.2.incoming)
          nodup := by
            rw [List.map_map]
            exact policy.evidence.providers.nodup } }
  bootstrap := some policy.bootstrap
  desiredState := some policy.desiredState
  scheduling := some policy.scheduling

/-! ## The store -/

/-- The rows of `agent_policy`. -/
structure PolicyStore (σ : Type) : Type where
  active : Option (AgentPolicy σ)
  pendingReconcile : Option (AgentPolicy σ)

namespace PolicyStore

def activeGeneration (s : PolicyStore σ) : ℤ := s.active.elim 0 (·.generation)

def savePolicy (s : PolicyStore σ) (policy : AgentPolicy σ) : PolicyStore σ where
  active := some policy
  pendingReconcile := s.pendingReconcile.filter (policy.generation < ·.generation)

def savePendingReconcilePolicy (s : PolicyStore σ) (policy : AgentPolicy σ) : PolicyStore σ :=
  if s.pendingReconcile.all (·.generation ≤ policy.generation) then
    { s with pendingReconcile := some policy }
  else s

def loadReconcilePolicy (s : PolicyStore σ) : Option (AgentPolicy σ) :=
  match s.pendingReconcile with
  | some pending =>
    if s.active.all (·.generation < pending.generation) then some pending else s.active
  | none => s.active

end PolicyStore

/-! ## The sync -/

def targetAgentDeployment (policy : AgentPolicy σ) : Option DesiredResource :=
  (policy.bootstrap.resources ++ policy.desiredState).find? fun resource =>
    resource.scope = .targetAgent ∧ resource.kind = .deployment ∧ resource.name = "cluster-agent" ∧
      resource.action = .apply

def selfUpgradeHandoffPolicy (activePolicy candidatePolicy : AgentPolicy σ)
    (candidateDeployment : DesiredResource) : AgentPolicy σ :=
  { activePolicy with
    generation := candidatePolicy.generation
    bootstrap :=
      { mode := candidatePolicy.bootstrap.mode
        resources := candidatePolicy.bootstrap.resources.filter fun resource =>
          resource.scope = .targetAgent ∧ resource.kind = .configMap ∧
            resource.name = targetRuntimeConfigName ∧ resource.action = .apply }
    desiredState := [candidateDeployment] }

structure AgentPolicySync (σ : Type) : Type where
  clusterId : String
  defaultPolicy : AgentPolicy σ
  env : ReconcilerEnv

/-- A payload of the server, which may fail its validation. -/
inductive Payload (σ : Type) : Type where
  | invalid (message : String)
  | policy (incoming : IncomingPolicy σ)

/-- What happens in a call of `sync_once`: what is fetched, and the errors of its steps. -/
structure SyncCall (σ : Type) : Type where
  fetched : Except String (Option (Payload σ))
  runtime : Except String Unit
  apply : Except String Unit
  save : Except String Unit
  stage : Except String Unit
  /-- the report of what was done -/
  report : Except String Unit
  /-- the report of a failure -/
  failureReport : Except String Unit

/-- What `sync_once` returns. -/
inductive SyncOutcome : Type where
  | unchanged | applied | failed
  | raises (message : String)
  deriving DecidableEq, Repr

namespace AgentPolicySync

variable (sync : AgentPolicySync σ)

/-- The policy in force. -/
def effective (s : PolicyStore σ) : AgentPolicy σ := s.active.getD sync.defaultPolicy

/-- `stage_desired_state_handoff`, of the store; `save` is its step that may fail. -/
def stageDesiredStateHandoff (s : PolicyStore σ) (activePolicy : AgentPolicy σ)
    (candidatePolicy : Option (AgentPolicy σ)) (save : Except String Unit) :
    Except String (PolicyStore σ) :=
  match candidatePolicy with
  | none => .ok s
  | some candidate =>
    if candidate.generation ≤ s.activeGeneration ∨ candidate.clusterId ≠ sync.clusterId ∨
        candidate.clusterRole ≠ activePolicy.clusterRole then .ok s
    else
      match targetAgentDeployment candidate with
      | none => .ok s
      | some deployment =>
        if (targetAgentDeployment activePolicy).any fun active =>
            desiredResourceHash sync.env active = desiredResourceHash sync.env deployment then .ok s
        else
          save.map fun () => s.savePendingReconcilePolicy
            (selfUpgradeHandoffPolicy activePolicy candidate deployment)

/-- `apply_stored_or_default`; `apply` and `save` are its two steps that may fail. -/
def applyStoredOrDefault (s : PolicyStore σ) (apply save : Except String Unit) :
    PolicyStore σ × Except String Unit :=
  match s.active.elim (.ok sync.defaultPolicy) (mergeAgentPolicy sync.defaultPolicy ·.incoming) with
  | .error message => (s, .error message)
  | .ok policy =>
    match apply, save with
    | .error message, _ => (s, .error message)
    | .ok (), .error message => (s, .error message)
    | .ok (), .ok () => (s.savePolicy policy, .ok ())

/-- The failure of a sync is reported. -/
def reportFailure (s : PolicyStore σ) (call : SyncCall σ) : PolicyStore σ × SyncOutcome :=
  match call.failureReport with
  | .ok () => (s, .failed)
  | .error message => (s, .raises message)

/-- What is done about a payload that fails. -/
def refuse (s : PolicyStore σ) (activePolicy : AgentPolicy σ)
    (candidatePolicy : Option (AgentPolicy σ)) (call : SyncCall σ) : PolicyStore σ × SyncOutcome :=
  match sync.stageDesiredStateHandoff s activePolicy candidatePolicy call.stage with
  | .ok staged => reportFailure staged call
  | .error message => (s, .raises message)

def syncOnce (s : PolicyStore σ) (call : SyncCall σ) : PolicyStore σ × SyncOutcome :=
  let active := sync.effective s
  match call.fetched with
  | .error message => (s, .raises message)
  | .ok none =>
    match call.runtime, call.report with
    | .ok (), .ok () => (s, .unchanged)
    | .error _, _ | .ok (), .error _ => reportFailure s call
  | .ok (some (.invalid _)) => sync.refuse s active none call
  | .ok (some (.policy incoming)) =>
    match mergeAgentPolicy active incoming with
    | .error _ => sync.refuse s active none call
    | .ok policy =>
      match call.runtime, call.apply, call.save with
      | .ok (), .ok (), .ok () =>
        match call.report with
        | .ok () => (s.savePolicy policy, .applied)
        | .error _ => sync.refuse (s.savePolicy policy) active policy call
      | _, _, _ => sync.refuse s active policy call

/-- What happens to the policies of an agent. -/
inductive Action (σ : Type) : Type where
  | start (apply save : Except String Unit)
  | sync (call : SyncCall σ)

def step (s : PolicyStore σ) : Action σ → PolicyStore σ
  | .start apply save => (sync.applyStoredOrDefault s apply save).1
  | .sync call => (sync.syncOnce s call).1

end AgentPolicySync

/-! ## What is merged -/

/-- The policy of a provider, if it is named. -/
def AgentPolicy.provider (policy : AgentPolicy σ) (key : String) : Option EvidenceProviderPolicy :=
  (policy.evidence.providers.find? key).map Prod.snd

theorem bind_ok {α β : Type} {x : Except String α} {f : α → Except String β} {b : β}
    (h : (x >>= f) = .ok b) : ∃ a, x = .ok a ∧ f a = .ok b := by
  cases x with
  | error message => cases h
  | ok a => exact ⟨a, rfl, h⟩

theorem mergeProviderPolicy_incoming {base provider merged : EvidenceProviderPolicy}
    (h : mergeProviderPolicy base provider.incoming = .ok merged) : merged = provider := by
  rw [mergeProviderPolicy] at h
  split at h
  · cases h
  · exact (Except.ok.inj h).symm

theorem mergeProviders_keys {base : Dict EvidenceProviderPolicy}
    {entries : List (String × IncomingProvider)} {rows : List (String × EvidenceProviderPolicy)}
    (h : mergeProviders base entries = .ok rows) : rows.map Prod.fst = entries.map Prod.fst := by
  induction entries generalizing rows with
  | nil =>
    cases h
    rfl
  | cons entry rest ih =>
    obtain ⟨merged, -, h⟩ := bind_ok h
    obtain ⟨others, hothers, h⟩ := bind_ok h
    cases h
    rw [List.map_cons, List.map_cons, ih hothers]

theorem mergeProviders_incoming {base : Dict EvidenceProviderPolicy}
    {entries rows : List (String × EvidenceProviderPolicy)}
    (h : mergeProviders base (entries.map fun entry => (entry.1, entry.2.incoming)) = .ok rows) :
    rows = entries := by
  induction entries generalizing rows with
  | nil =>
    cases h
    rfl
  | cons entry rest ih =>
    obtain ⟨merged, hmerged, h⟩ := bind_ok h
    obtain ⟨others, hothers, h⟩ := bind_ok h
    cases h
    rw [ih hothers, mergeProviderPolicy_incoming hmerged]

/-- What a merge keeps of the built-in default. -/
structure AgentPolicy.Extends (policy default : AgentPolicy σ) : Prop where
  profile : policy.evidence.profile = default.evidence.profile
  provider : ∀ {key}, policy.provider key = none → default.provider key = none

theorem mergeAgentPolicy_extends {base policy default : AgentPolicy σ} {incoming : IncomingPolicy σ}
    (h : mergeAgentPolicy base incoming = .ok policy) (hbase : base.Extends default) :
    policy.Extends default := by
  obtain ⟨evidence, hevidence, h⟩ := bind_ok h
  cases h
  rcases he : incoming.evidence with _ | given
  · rw [he] at hevidence
    cases hevidence
    exact ⟨hbase.profile, hbase.provider⟩
  · rw [he] at hevidence
    obtain ⟨rows, hrows, hevidence⟩ := bind_ok hevidence
    cases hevidence
    have hnodup : (rows.map Prod.fst).Nodup := by
      rw [mergeProviders_keys hrows]
      cases given.providers with
      | none => exact List.nodup_nil
      | some providers => exact providers.nodup
    refine ⟨hbase.profile, fun {key} hnone => hbase.provider ?_⟩
    -- the loop only assigns keys, so one that is absent now was absent before
    rw [AgentPolicy.provider, Option.map_eq_none_iff, Table.find?_foldl_put hnodup,
      Option.or_eq_none_iff] at hnone
    rw [AgentPolicy.provider, hnone.2, Option.map_none]

/-- A policy that is in force: a source has all of it but the evidence profile and the policies of
the providers. -/
structure AgentPolicy.InForce (policy source : AgentPolicy σ) (profile : String)
    (provider : String → Option EvidenceProviderPolicy) : Prop where
  rest : policy = { source with
    evidence := { source.evidence with profile := profile, providers := policy.evidence.providers } }
  providers : ∀ key, policy.provider key = provider key

theorem mergeAgentPolicy_incoming {base payload policy : AgentPolicy σ}
    (h : mergeAgentPolicy base payload.incoming = .ok policy) :
    policy.InForce payload base.evidence.profile
      fun key => (payload.provider key).or (base.provider key) := by
  obtain ⟨evidence, hevidence, h⟩ := bind_ok h
  cases h
  obtain ⟨rows, hrows, hevidence⟩ := bind_ok hevidence
  cases hevidence
  cases mergeProviders_incoming hrows
  refine ⟨rfl, fun key => ?_⟩
  rw [AgentPolicy.provider, Table.find?_foldl_put payload.evidence.providers.nodup]
  exact Option.map_or

/-! ## What a step does -/

/-- What the rows keep over a run. -/
structure PolicyStore.Kept (default : AgentPolicy σ) (s : PolicyStore σ) : Prop where
  active : ∀ {policy}, s.active = some policy → policy.Extends default
  ahead : ∀ {pending}, s.pendingReconcile = some pending →
    s.activeGeneration < pending.generation

/-- A policy that carries over nothing but the Deployment of the agent and the images that it runs. -/
structure AgentPolicy.IsHandoff (policy : AgentPolicy σ) : Prop where
  deployment : ∃ resource, policy.desiredState = [resource] ∧ resource.scope = .targetAgent ∧
    resource.kind = .deployment ∧ resource.name = "cluster-agent" ∧ resource.action = .apply
  images : ∀ resource ∈ policy.bootstrap.resources, resource.scope = .targetAgent ∧
    resource.kind = .configMap ∧ resource.name = targetRuntimeConfigName ∧ resource.action = .apply

/-- What may be staged. -/
def PolicyStore.Stages (s : PolicyStore σ) (handoff : AgentPolicy σ) : Prop :=
  s.activeGeneration < handoff.generation ∧ handoff.IsHandoff

theorem stages_selfUpgrade {active candidate : AgentPolicy σ} {deployment : DesiredResource}
    {s : PolicyStore σ} (hahead : s.activeGeneration < candidate.generation)
    (h : targetAgentDeployment candidate = some deployment) :
    s.Stages (selfUpgradeHandoffPolicy active candidate deployment) := by
  have hdeployment := List.find?_some h
  exact ⟨hahead, ⟨deployment, rfl, of_decide_eq_true hdeployment⟩,
    fun _ hmem => of_decide_eq_true (List.mem_filter.mp hmem).2⟩

/-- A policy was saved, and then its report failed. -/
structure SyncCall.ReportLost (call : SyncCall σ) : Prop where
  fetched : ∃ incoming, call.fetched = .ok (some (.policy incoming))
  runtime : call.runtime = .ok ()
  apply : call.apply = .ok ()
  save : call.save = .ok ()
  report : call.report ≠ .ok ()

namespace PolicyStore

variable {default policy pending : AgentPolicy σ} {s : PolicyStore σ}

theorem kept_savePolicy (s : PolicyStore σ) (hpolicy : policy.Extends default) :
    (s.savePolicy policy).Kept default where
  active h := by
    cases h
    exact hpolicy
  ahead h := of_decide_eq_true (Option.filter_eq_some_iff.mp h).2

theorem Kept.savePendingReconcilePolicy (hs : s.Kept default)
    (hpending : s.activeGeneration < pending.generation) :
    (s.savePendingReconcilePolicy pending).Kept default := by
  rw [PolicyStore.savePendingReconcilePolicy]
  split
  · exact ⟨hs.active, fun h => by cases h; exact hpending⟩
  · exact hs

theorem active_savePendingReconcilePolicy (s : PolicyStore σ) (pending : AgentPolicy σ) :
    (s.savePendingReconcilePolicy pending).active = s.active := by
  rw [PolicyStore.savePendingReconcilePolicy]
  split <;> rfl

theorem Kept.loadReconcilePolicy (hs : s.Kept default)
    (h : s.loadReconcilePolicy = some policy) :
    s.active = some policy ∨
      s.pendingReconcile = some policy ∧ s.activeGeneration < policy.generation := by
  rw [PolicyStore.loadReconcilePolicy] at h
  split at h
  · rename_i pending hpending
    split at h
    · cases h
      exact Or.inr ⟨hpending, hs.ahead hpending⟩
    · exact Or.inl h
  · exact Or.inl h

end PolicyStore

namespace AgentPolicySync

variable (sync : AgentPolicySync σ) (s : PolicyStore σ)

theorem stageDesiredStateHandoff_cases {activePolicy : AgentPolicy σ}
    {candidatePolicy : Option (AgentPolicy σ)} {save : Except String Unit} {staged : PolicyStore σ}
    (h : sync.stageDesiredStateHandoff s activePolicy candidatePolicy save = .ok staged) :
    staged = s ∨ ∃ handoff, s.Stages handoff ∧ staged = s.savePendingReconcilePolicy handoff := by
  cases candidatePolicy with
  | none =>
    cases h
    exact Or.inl rfl
  | some candidate =>
    rw [stageDesiredStateHandoff] at h
    split at h
    · cases h
      exact Or.inl rfl
    · rename_i hguard
      split at h
      · cases h
        exact Or.inl rfl
      · split at h
        · cases h
          exact Or.inl rfl
        · rename_i deployment hdeployment _
          have hahead : s.activeGeneration < candidate.generation :=
            not_le.mp fun h => hguard (Or.inl h)
          cases save with
          | error message => cases h
          | ok _ =>
            cases h
            exact Or.inr ⟨_, stages_selfUpgrade hahead hdeployment, rfl⟩

theorem reportFailure_fst (call : SyncCall σ) : (reportFailure s call).1 = s := by
  rw [reportFailure]
  split <;> rfl

theorem reportFailure_ne (call : SyncCall σ) : (reportFailure s call).2 ≠ .applied := by
  rw [reportFailure]
  split <;> exact nofun

theorem refuse_ne (activePolicy : AgentPolicy σ) (candidatePolicy : Option (AgentPolicy σ))
    (call : SyncCall σ) : (sync.refuse s activePolicy candidatePolicy call).2 ≠ .applied := by
  rw [refuse]
  split
  · exact reportFailure_ne _ call
  · exact nofun

theorem refuse_cases (activePolicy : AgentPolicy σ) (candidatePolicy : Option (AgentPolicy σ))
    (call : SyncCall σ) :
    (sync.refuse s activePolicy candidatePolicy call).1 = s ∨
      ∃ handoff, s.Stages handoff ∧ (sync.refuse s activePolicy candidatePolicy call).1 =
        s.savePendingReconcilePolicy handoff := by
  rw [refuse]
  split
  · rename_i staged hstaged
    rw [reportFailure_fst]
    exact stageDesiredStateHandoff_cases sync s hstaged
  · exact Or.inl rfl

theorem refuse_saved (activePolicy policy : AgentPolicy σ) (call : SyncCall σ) :
    (sync.refuse (s.savePolicy policy) activePolicy (some policy) call).1 = s.savePolicy policy := by
  have hbehind : sync.stageDesiredStateHandoff (s.savePolicy policy) activePolicy (some policy)
      call.stage = .ok (s.savePolicy policy) := if_pos (Or.inl le_rfl)
  rw [refuse, hbehind]
  exact reportFailure_fst _ call

theorem syncOnce_cases (call : SyncCall σ) :
    (∃ incoming policy, call.fetched = .ok (some (.policy incoming)) ∧
      mergeAgentPolicy (sync.effective s) incoming = .ok policy ∧
      (sync.syncOnce s call).1 = s.savePolicy policy ∧
      ((sync.syncOnce s call).2 = .applied ∨ call.ReportLost)) ∨
    (sync.syncOnce s call).2 ≠ .applied ∧ ((sync.syncOnce s call).1 = s ∨
      ∃ handoff, s.Stages handoff ∧
        (sync.syncOnce s call).1 = s.savePendingReconcilePolicy handoff) := by
  have hrefused := fun candidate => And.intro (refuse_ne sync s (sync.effective s) candidate call)
    (refuse_cases sync s (sync.effective s) candidate call)
  rw [syncOnce]
  split
  · exact Or.inr ⟨nofun, Or.inl rfl⟩
  · split
    · exact Or.inr ⟨nofun, Or.inl rfl⟩
    · exact Or.inr ⟨reportFailure_ne s call, Or.inl (reportFailure_fst s call)⟩
    · exact Or.inr ⟨reportFailure_ne s call, Or.inl (reportFailure_fst s call)⟩
  · exact Or.inr (hrefused none)
  · rename_i incoming hfetched
    split
    · exact Or.inr (hrefused none)
    · rename_i policy hmerge
      split
      · rename_i hruntime happly hsave
        split
        · exact Or.inl ⟨incoming, policy, hfetched, hmerge, rfl, Or.inl rfl⟩
        · rename_i message hreport
          have hlost : call.ReportLost :=
            ⟨⟨incoming, hfetched⟩, hruntime, happly, hsave, by rw [hreport]; exact nofun⟩
          -- nothing is staged, since the policy that failed is the active one by now
          rw [refuse_saved]
          exact Or.inl ⟨incoming, policy, hfetched, hmerge, rfl, Or.inr hlost⟩
      · exact Or.inr (hrefused policy)

variable {sync : AgentPolicySync σ} {s : PolicyStore σ}

theorem kept_effective (hs : s.Kept sync.defaultPolicy) :
    (sync.effective s).Extends sync.defaultPolicy := by
  rw [effective]
  cases hactive : s.active with
  | none => exact ⟨rfl, fun h => h⟩
  | some policy => exact hs.active hactive

theorem kept_syncOnce (hs : s.Kept sync.defaultPolicy) (call : SyncCall σ) :
    (sync.syncOnce s call).1.Kept sync.defaultPolicy := by
  obtain ⟨incoming, policy, -, hmerge, hstore, -⟩ | ⟨-, hsame | ⟨handoff, hahead, hstaged⟩⟩ :=
    syncOnce_cases sync s call
  · rw [hstore]
    exact s.kept_savePolicy (mergeAgentPolicy_extends hmerge (kept_effective hs))
  · rw [hsame]
    exact hs
  · rw [hstaged]
    exact hs.savePendingReconcilePolicy hahead.1

theorem applyStoredOrDefault_cases (hs : s.Kept sync.defaultPolicy)
    (apply save : Except String Unit) :
    (sync.applyStoredOrDefault s apply save).1 = s ∨
      ∃ policy, (sync.applyStoredOrDefault s apply save).1 = s.savePolicy policy ∧
        policy.Extends sync.defaultPolicy ∧ policy.InForce (sync.effective s)
          (sync.effective s).evidence.profile (sync.effective s).provider := by
  rw [applyStoredOrDefault]
  split
  · exact Or.inl rfl
  · rename_i policy hpolicy
    split
    · exact Or.inl rfl
    · exact Or.inl rfl
    · refine Or.inr ⟨policy, rfl, ?_⟩
      rw [effective]
      cases hactive : s.active with
      | none =>
        rw [hactive] at hpolicy
        cases hpolicy
        exact ⟨⟨rfl, fun h => h⟩, rfl, fun _ => rfl⟩
      | some stored =>
        rw [hactive] at hpolicy
        have hstored : stored.Extends sync.defaultPolicy := hs.active hactive
        obtain ⟨hrest, hproviders⟩ := mergeAgentPolicy_incoming hpolicy
        refine ⟨mergeAgentPolicy_extends hpolicy ⟨rfl, fun h => h⟩, ?_, fun key => ?_⟩
        · rw [Option.getD_some, hstored.profile]
          exact hrest
        -- the built-in default names no provider that the stored policy lacks
        · rw [hproviders, Option.getD_some]
          cases hkey : stored.provider key with
          | none => rw [hstored.provider hkey, Option.none_or]
          | some provider => rfl

theorem kept_step (hs : s.Kept sync.defaultPolicy) (a : Action σ) :
    (sync.step s a).Kept sync.defaultPolicy := by
  cases a with
  | sync call => exact kept_syncOnce hs call
  | start apply save =>
    obtain hsame | ⟨policy, hstore, hpolicy, -⟩ := applyStoredOrDefault_cases hs apply save
    · rw [step, hsame]
      exact hs
    · rw [step, hstore]
      exact s.kept_savePolicy hpolicy

/-! ## What holds of every run -/

/-- What the steps of an agent do to its policies. -/
structure SyncLaw (sync : AgentPolicySync σ) (e : Runs.Entry (PolicyStore σ) (Action σ)) :
    Prop where
  /-- what is not applied leaves the policy in force -/
  refused : ∀ call, e.action = .sync call → (sync.syncOnce e.pre call).2 ≠ .applied →
    ¬ call.ReportLost → e.post.active = e.pre.active
  /-- a full policy that is applied is in force, with the profile of the built-in default and the
  providers that it does not name -/
  applied : ∀ call payload, e.action = .sync call →
    call.fetched = .ok (some (.policy payload.incoming)) →
    (sync.syncOnce e.pre call).2 = .applied →
    ∃ policy, e.post.active = some policy ∧
      policy.InForce payload sync.defaultPolicy.evidence.profile fun key =>
        (payload.provider key).or ((sync.effective e.pre).provider key)
  /-- a restart leaves what is in force -/
  restarted : ∀ apply save, e.action = .start apply save →
    (sync.effective e.post).InForce (sync.effective e.pre)
      (sync.effective e.pre).evidence.profile (sync.effective e.pre).provider
  /-- a staged policy is loaded while it is ahead -/
  staged : ∀ policy, e.post.loadReconcilePolicy = some policy →
    e.post.active = some policy ∨
      e.post.pendingReconcile = some policy ∧ e.post.activeGeneration < policy.generation

theorem syncLaw_step (hs : s.Kept sync.defaultPolicy) (a : Action σ) :
    SyncLaw sync ⟨s, a, sync.step s a⟩ where
  refused call ha hresult hreported := by
    cases ha
    obtain ⟨-, -, -, -, -, happlied⟩ | ⟨-, hsame | ⟨handoff, -, hstaged⟩⟩ :=
      syncOnce_cases sync s call
    · exact absurd happlied (not_or.mpr ⟨hresult, hreported⟩)
    · rw [step, hsame]
    · rw [step, hstaged, PolicyStore.active_savePendingReconcilePolicy]
  applied call payload ha hpayload hresult := by
    cases ha
    obtain ⟨incoming, policy, hfetched, hmerge, hstore, -⟩ | ⟨hrefused, -⟩ :=
      syncOnce_cases sync s call
    · rw [hpayload] at hfetched
      cases hfetched
      have hforce := mergeAgentPolicy_incoming hmerge
      rw [(kept_effective hs).profile] at hforce
      exact ⟨policy, congrArg PolicyStore.active hstore, hforce⟩
    · exact absurd hresult hrefused
  restarted apply save ha := by
    cases ha
    obtain hsame | ⟨policy, hstore, -, hforce⟩ := applyStoredOrDefault_cases hs apply save
    · rw [step, hsame]
      exact ⟨rfl, fun _ => rfl⟩
    · rw [step, hstore]
      exact hforce
  staged policy hload := (kept_step hs a).loadReconcilePolicy hload

/-- **What a sync leaves in force is what it applied, over what was in force**, in every run. -/
theorem syncLaw_of_run (sync : AgentPolicySync σ) (actions : List (Action σ)) :
    ∀ e ∈ Runs.trace sync.step ⟨none, none⟩ actions, SyncLaw sync e := by
  have hempty : PolicyStore.Kept sync.defaultPolicy ⟨none, none⟩ := ⟨nofun, nofun⟩
  intro e he
  obtain ⟨hpre, hpost⟩ := Runs.trace_invariant (P := PolicyStore.Kept sync.defaultPolicy)
    (fun _ a hs => kept_step hs a) hempty e he
  have hlaw := syncLaw_step hpre e.action
  rw [← hpost] at hlaw
  exact hlaw

/-- The rows keep what they must, and nothing is staged but a handoff. -/
structure Governed (sync : AgentPolicySync σ) (s : PolicyStore σ) : Prop where
  kept : s.Kept sync.defaultPolicy
  handoff : ∀ {pending}, s.pendingReconcile = some pending → pending.IsHandoff

theorem governed_step (hs : sync.Governed s) (a : Action σ) : sync.Governed (sync.step s a) := by
  refine ⟨kept_step hs.kept a, fun {pending} h => ?_⟩
  have hsaved {policy : AgentPolicy σ} (hstore : sync.step s a = s.savePolicy policy) :
      pending.IsHandoff := by
    rw [hstore] at h
    exact hs.handoff (Option.filter_eq_some_iff.mp h).1
  have hsame (hstore : sync.step s a = s) : pending.IsHandoff := hs.handoff (hstore ▸ h)
  cases a with
  | start apply save =>
    obtain hstore | ⟨policy, hstore, -⟩ := applyStoredOrDefault_cases hs.kept apply save
    · exact hsame hstore
    · exact hsaved hstore
  | sync call =>
    obtain ⟨incoming, policy, -, -, hstore, -⟩ | ⟨-, hstore | ⟨handoff, hstages, hstore⟩⟩ :=
      syncOnce_cases sync s call
    · exact hsaved hstore
    · exact hsame hstore
    · rw [step, hstore, PolicyStore.savePendingReconcilePolicy] at h
      split at h
      · exact Option.some.inj h ▸ hstages.2
      · exact hs.handoff h

/-- **No run gives up what the built-in default asks for, or stages more than a handoff.** -/
theorem governed_of_run (sync : AgentPolicySync σ) (actions : List (Action σ)) :
    sync.Governed (Runs.run sync.step ⟨none, none⟩ actions) := by
  have hempty : sync.Governed ⟨none, none⟩ := ⟨⟨nofun, nofun⟩, nofun⟩
  exact Runs.run_invariant (P := sync.Governed) (fun _ a hs => governed_step hs a) hempty actions

/-- A built-in default without providers. -/
def bare : AgentPolicySync Unit where
  clusterId := "a"
  defaultPolicy := ⟨"a", 1, "target", ⟨"standard", "strict", 1, .empty⟩, ⟨"target", []⟩, [], ()⟩
  env := shortDocuments

/-- A call in which nothing fails. -/
def succeeding (payload : AgentPolicy Unit) : SyncCall Unit :=
  ⟨.ok (some (.policy payload.incoming)), .ok (), .ok (), .ok (), .ok (), .ok (), .ok ()⟩

/-- A full policy with a provider, and one without. -/
def named : AgentPolicy Unit :=
  { bare.defaultPolicy with
    generation := 2
    evidence := ⟨"standard", "strict", 1, Table.empty.put ("metrics", .default)⟩ }

def removed : AgentPolicy Unit := { bare.defaultPolicy with generation := 3 }

/-- The step that applies a policy without the provider that an earlier one had. -/
theorem syncLaw_of_removal :
    let s := bare.step ⟨none, none⟩ (.sync (succeeding named))
    SyncLaw bare ⟨s, .sync (succeeding removed), bare.step s (.sync (succeeding removed))⟩ :=
  syncLaw_of_run bare [.sync (succeeding named), .sync (succeeding removed)] _
    (List.mem_cons_of_mem _ List.mem_cons_self)

/-- What is in force after a full policy is applied depends on the policies before: a provider that
the server has removed stays. -/
theorem removed_provider_stays :
    ¬ ∀ (sync : AgentPolicySync Unit) (earlier earlier' : List (Action Unit))
        (payload : AgentPolicy Unit) (key : String),
      let after := fun actions =>
        sync.syncOnce (Runs.run sync.step ⟨none, none⟩ actions) (succeeding payload)
      (after earlier).2 = .applied → (after earlier').2 = .applied →
        (sync.effective (after earlier).1).provider key =
          (sync.effective (after earlier').1).provider key := by
  intro h
  have hsame := h bare [.sync (succeeding named)] [] removed "metrics" (by decide) (by decide)
  exact absurd (congrArg Option.isSome hsame) (by decide)

end AgentPolicySync

end Opsia.Agent.Control
