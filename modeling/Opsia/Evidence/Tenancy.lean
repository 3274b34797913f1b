import Mathlib.Data.List.Sort
import Mathlib.Data.Set.Basic
import Opsia.Evidence.Lifecycle
import Opsia.Lib.PyText
import Opsia.Lib.Purge

/-!
# Evidence keys and tenants

The keys of evidence windows come from `scoped_evidence_key`, `agent_evidence_key` and
`alertmanager_evidence_key` of `domains/rca/router.py` and from `evidence_key` of the evidence jobs.
All of them start with the workspace and the cluster, each followed by a colon; what comes then is
the agent's or the alert source's. Tenants are kept apart exactly when the start of one is not the
start of another's start (`Apart`), which colons inside the ids can break and ids without colons
cannot (`apart_of_plain`).
-/

namespace Opsia.Evidence

/-! ## Keys -/

/-- The identity that the token of an agent stands for. -/
structure ClusterAgentIdentity where
  workspaceId : String
  clusterId : String
  deriving DecidableEq

/-- An agent's evidence; `content` are the other fields of the request. -/
structure AgentEvidenceRequest where
  clusterId : String
  workspaceId : String
  correlationId : Option String
  agentId : Option String
  sourceId : Option String
  windowStart : Option String
  evidenceKey : Option String
  content : List (String × Json)

structure AlertmanagerAlert where
  status : String
  startsAt : String
  fingerprint : String

structure AlertmanagerWebhookRequest where
  groupKey : String
  alerts : List AlertmanagerAlert

/-- The first 32 digits of a SHA-256 digest, and `json.dumps` with sorted keys. -/
structure KeyEnv where
  digest : String → String
  dumps : Json → String

/-- `value or …` of a text. -/
def given (value : Option String) : Option String := value.filter (· ≠ "")

def scopedEvidenceKey (identity : ClusterAgentIdentity) (evidenceKey : Option String) :
    Option String :=
  (given evidenceKey).map fun key =>
    identity.workspaceId ++ ":" ++ identity.clusterId ++ ":" ++ key

/-- `payload.model_dump(exclude=\x7b"correlation_id"\x7d)` with the identity in place of the body's. -/
def evidenceData (identity : ClusterAgentIdentity) (payload : AgentEvidenceRequest) : Json :=
  let text (value : Option String) : Json := value.elim .null .str
  .obj ([("cluster_id", .str identity.clusterId), ("workspace_id", .str identity.workspaceId),
    ("agent_id", text payload.agentId), ("source_id", text payload.sourceId),
    ("window_start", text payload.windowStart), ("evidence_key", .null)] ++ payload.content)

def agentEvidenceKey (env : KeyEnv) (identity : ClusterAgentIdentity)
    (payload : AgentEvidenceRequest) : String :=
  (scopedEvidenceKey identity payload.evidenceKey).getD (
    let digest := env.digest (env.dumps (evidenceData identity payload))
    let sourceId := (given payload.sourceId).getD "cluster-snapshot"
    let windowStart := (given payload.windowStart <|> given payload.correlationId).getD "adhoc"
    identity.workspaceId ++ ":" ++ identity.clusterId ++ ":" ++ sourceId ++ ":" ++ windowStart ++
      ":" ++ digest)

def alertmanagerEvidenceKey (env : KeyEnv) (identity : ClusterAgentIdentity)
    (payload : AlertmanagerWebhookRequest) : String :=
  let firing := ((payload.alerts.filter (·.status = "firing")).map fun alert =>
    alert.fingerprint ++ "@" ++ alert.startsAt).insertionSort (· ≤ ·)
  let digest := env.digest (PyText.join '|' (payload.groupKey :: firing))
  identity.workspaceId ++ ":" ++ identity.clusterId ++ ":alertmanager:" ++ digest

/-- What a key is built from, next to the tenant. -/
inductive KeySource where
  | scopedKey (evidenceKey : Option String)
  | agentKey (payload : AgentEvidenceRequest)
  | alertmanagerKey (payload : AlertmanagerWebhookRequest)
  | jobKey (sourceId windowStart : String)

/-- The key of a tenant; `scoped_evidence_key` may give none. -/
def KeySource.key (env : KeyEnv) (identity : ClusterAgentIdentity) : KeySource → Option String
  | .scopedKey evidenceKey => scopedEvidenceKey identity evidenceKey
  | .agentKey payload => some (agentEvidenceKey env identity payload)
  | .alertmanagerKey payload => some (alertmanagerEvidenceKey env identity payload)
  | .jobKey sourceId windowStart =>
    some (evidenceKey identity.workspaceId identity.clusterId sourceId windowStart)

/-! ## Recording -/

/-- A call of `record_evidence_event_once` with a key of the tenant. -/
structure RecordCall where
  tenant : ClusterAgentIdentity
  source : KeySource
  sourceId : String
  windowStart : String
  agentId : Option String
  eventId : String
  correlationId : String
  payload : Json

/-- The window that the call records. -/
def RecordCall.window (call : RecordCall) (key : String) : EvidenceWindow where
  evidenceKey := key
  workspaceId := call.tenant.workspaceId
  clusterId := call.tenant.clusterId
  sourceId := call.sourceId
  windowStart := call.windowStart
  agentId := call.agentId
  eventId := call.eventId
  correlationId := call.correlationId
  payload := call.payload

@[simp] theorem RecordCall.evidenceKey_window (call : RecordCall) (key : String) :
    (call.window key).evidenceKey = key := rfl

/-- The answer to a call, and the store; without a key nothing is recorded. -/
def Store.answer (env : KeyEnv) (s : Store) (call : RecordCall) : Option RecordReply × Store :=
  match call.source.key env call.tenant with
  | none => (none, s)
  | some key => s.recordEvidenceEventOnce (call.window key)

/-- The answers that a tenant gets in a run of calls. -/
def answers (env : KeyEnv) (tenant : ClusterAgentIdentity) (s : Store) (calls : List RecordCall) :
    List (Option RecordReply) :=
  Purge.observed (fun s call => (s.answer env call).2) (fun s call => (s.answer env call).1)
    (fun call => call.tenant = tenant) s calls

/-- The keys of two registered tenants differ, and what a tenant is answered does not depend on
the calls of the others. -/
structure TenantsIsolated (env : KeyEnv) (registered : Set ClusterAgentIdentity) : Prop where
  keys : ∀ a ∈ registered, ∀ b ∈ registered, ∀ (x y : KeySource) (key : String),
    x.key env a = some key → y.key env b = some key → a = b
  replies : ∀ a ∈ registered, ∀ (s : Store) (calls : List RecordCall),
    (∀ call ∈ calls, call.tenant ∈ registered) →
      answers env a s calls = answers env a s (calls.filter (·.tenant = a))

/-! ## Scopes -/

/-- What all keys of a tenant start with. -/
def ClusterAgentIdentity.scope (identity : ClusterAgentIdentity) : List Char :=
  identity.workspaceId.toList ++ ':' :: (identity.clusterId.toList ++ [':'])

/-- The start of neither tenant is the start of the other's. -/
def Apart (a b : ClusterAgentIdentity) : Prop := ¬ a.scope <+: b.scope ∧ ¬ b.scope <+: a.scope

instance (a b : ClusterAgentIdentity) : Decidable (Apart a b) :=
  inferInstanceAs (Decidable (_ ∧ _))

theorem toList_scoped (identity : ClusterAgentIdentity) (rest : String) :
    (identity.workspaceId ++ ":" ++ identity.clusterId ++ ":" ++ rest).toList =
      identity.scope ++ rest.toList := by
  simp [ClusterAgentIdentity.scope]

theorem isPrefix_scope (identity : ClusterAgentIdentity) (rest : String) :
    identity.scope <+:
      (identity.workspaceId ++ ":" ++ identity.clusterId ++ ":" ++ rest).toList := by
  rw [toList_scoped]
  exact List.prefix_append _ _

/-- **Every key of a tenant starts with its scope.** -/
theorem isPrefix_scope_key {env : KeyEnv} {identity : ClusterAgentIdentity} {source : KeySource}
    {key : String} (h : source.key env identity = some key) : identity.scope <+: key.toList := by
  have hscoped := isPrefix_scope identity
  cases source with
  | scopedKey evidenceKey =>
    obtain ⟨rest, -, rfl⟩ := Option.map_eq_some_iff.mp h
    exact hscoped rest
  | agentKey payload =>
    obtain rfl := Option.some.inj h
    rw [agentEvidenceKey, scopedEvidenceKey]
    cases given payload.evidenceKey with
    | some rest => exact hscoped rest
    | none =>
      simp only [Option.map_none, Option.getD_none]
      simpa only [String.append_assoc] using hscoped (_ ++ ":" ++ _ ++ ":" ++ _)
  | alertmanagerKey payload =>
    obtain rfl := Option.some.inj h
    have hsplit : ":alertmanager:" = ":" ++ "alertmanager:" := rfl
    rw [alertmanagerEvidenceKey, hsplit]
    simpa only [String.append_assoc] using hscoped ("alertmanager:" ++ _)
  | jobKey sourceId windowStart =>
    obtain rfl := Option.some.inj h
    refine ⟨sourceId.toList ++ ':' :: windowStart.toList, ?_⟩
    simp [evidenceKey, ClusterAgentIdentity.scope]

variable {a b : ClusterAgentIdentity}

theorem Apart.key_ne (hab : Apart a b) {key : String} (ha : a.scope <+: key.toList) :
    ¬ b.scope <+: key.toList := by
  intro hb
  obtain hle | hle := List.prefix_or_prefix_of_prefix ha hb
  · exact hab.1 hle
  · exact hab.2 hle

theorem eq_of_isPrefix_scope (ha : ':' ∉ a.workspaceId.toList ∧ ':' ∉ a.clusterId.toList)
    (hb : ':' ∉ b.workspaceId.toList ∧ ':' ∉ b.clusterId.toList) (h : a.scope <+: b.scope) :
    a = b := by
  obtain ⟨rest, hrest⟩ := h
  simp only [ClusterAgentIdentity.scope, List.append_assoc, List.cons_append, List.nil_append]
    at hrest
  obtain ⟨hworkspace, hrest⟩ := PyText.append_cons_inj ha.1 hb.1 hrest
  obtain ⟨hcluster, -⟩ := PyText.append_cons_inj ha.2 hb.2 hrest
  cases a
  cases b
  rw [String.toList_inj] at hworkspace hcluster
  subst hworkspace hcluster
  rfl

/-- **Ids without colons keep tenants apart.** -/
theorem apart_of_plain (hab : a ≠ b) (ha : ':' ∉ a.workspaceId.toList ∧ ':' ∉ a.clusterId.toList)
    (hb : ':' ∉ b.workspaceId.toList ∧ ':' ∉ b.clusterId.toList) : Apart a b :=
  ⟨fun h => hab (eq_of_isPrefix_scope ha hb h), fun h => hab (eq_of_isPrefix_scope hb ha h).symm⟩

/-! ## Runs -/

/-- The stores have the same windows under the keys that a tenant may use. -/
def SameWindows (tenant : ClusterAgentIdentity) (s t : Store) : Prop :=
  ∀ key : String, tenant.scope <+: key.toList → s.windows.find? key = t.windows.find? key

theorem reply_recordEvidenceEventOnce (s : Store) (window : EvidenceWindow) :
    (s.recordEvidenceEventOnce window).1 =
      match s.windows.find? window.evidenceKey with
      | some row => some ⟨true, row.eventId, row.correlationId⟩
      | none => some ⟨false, window.eventId, window.correlationId⟩ := by
  rw [Store.recordEvidenceEventOnce]
  cases hinsert : s.windows.insert? window with
  | some windows =>
    obtain ⟨hnone, -⟩ := Table.insert?_eq_some hinsert
    rw [hnone]
  | none =>
    cases hfind : s.windows.find? window.evidenceKey with
    | some row => rfl
    | none =>
      obtain ⟨windows, hsome⟩ := Table.insert?_of_none hfind
      rw [hinsert] at hsome
      cases hsome

/-- **Calls of tenants apart do not show.** -/
theorem unwinding_sameWindows {env : KeyEnv} {tenant : ClusterAgentIdentity}
    {registered : Set ClusterAgentIdentity}
    (hapart : ∀ other ∈ registered, tenant ≠ other → Apart tenant other) :
    Purge.Unwinding (fun s call => (Store.answer env s call).2)
      (fun s call => (Store.answer env s call).1) (fun call => call.tenant = tenant)
      (fun call => call.tenant ∈ registered) (SameWindows tenant) where
  output := by
    intro s t call hst _ hmine
    obtain rfl := of_decide_eq_true hmine
    simp only [Store.answer]
    cases hkey : call.source.key env call.tenant with
    | none => rfl
    | some key =>
      simp only [reply_recordEvidenceEventOnce, RecordCall.evidenceKey_window]
      rw [hst key (isPrefix_scope_key hkey)]
  consistent := by
    intro s t call hst _ _ key hscope
    simp only [Store.answer]
    cases hkey : call.source.key env call.tenant with
    | none => exact hst key hscope
    | some key' =>
      simp only [find?_recordEvidenceEventOnce]
      rw [hst key hscope]
  respects := by
    intro s t call hst hok hmine key hscope
    have hne : tenant ≠ call.tenant := fun h => of_decide_eq_false hmine h.symm
    simp only [Store.answer]
    cases hkey : call.source.key env call.tenant with
    | none => exact hst key hscope
    | some key' =>
      have hother : key ≠ key' := by
        rintro rfl
        exact (hapart _ hok hne).key_ne hscope (isPrefix_scope_key hkey)
      have hkept := find?_recordEvidenceEventOnce s (call.window key') key
      rw [if_neg (by rwa [RecordCall.evidenceKey_window])] at hkept
      exact hkept.trans (hst key hscope)

/-- The key that `scoped_evidence_key` gives. -/
theorem key_scopedKey (env : KeyEnv) (identity : ClusterAgentIdentity) {key : String}
    (hkey : key ≠ "") :
    (KeySource.scopedKey (some key)).key env identity =
      some (String.ofList (identity.scope ++ key.toList)) := by
  have hgiven : given (some key) = some key := by simp [given, hkey]
  rw [KeySource.key, scopedEvidenceKey, hgiven, Option.map_some, ← toList_scoped,
    String.ofList_toList]

/-- The keys of two tenants meet when the start of one is a start of the other's. -/
theorem shared_key (env : KeyEnv) (h : a.scope <+: b.scope) :
    ∃ (x y : KeySource) (key : String), x.key env a = some key ∧ y.key env b = some key := by
  obtain ⟨rest, hrest⟩ := h
  have hne : String.ofList (rest ++ ['x']) ≠ "" := by
    intro hempty
    have hchars := congrArg String.toList hempty
    simp at hchars
  refine ⟨.scopedKey (some (String.ofList (rest ++ ['x']))), .scopedKey (some "x"), _,
    key_scopedKey env a hne, ?_⟩
  rw [String.toList_ofList, ← List.append_assoc, hrest]
  exact key_scopedKey env b (show "x" ≠ "" by decide)

/-- **Tenants are isolated exactly when they are apart.** -/
theorem tenants_isolated_iff (env : KeyEnv) (registered : Set ClusterAgentIdentity) :
    TenantsIsolated env registered ↔
      ∀ a ∈ registered, ∀ b ∈ registered, a ≠ b → Apart a b := by
  constructor
  · intro hisolated a ha b hb hab
    refine ⟨fun h => ?_, fun h => ?_⟩
    · obtain ⟨x, y, key, hx, hy⟩ := shared_key env h
      exact hab (hisolated.keys a ha b hb x y key hx hy)
    · obtain ⟨x, y, key, hx, hy⟩ := shared_key env h
      exact hab (hisolated.keys b hb a ha x y key hx hy).symm
  · intro hapart
    refine ⟨?_, ?_⟩
    · intro a ha b hb x y key hx hy
      by_contra hab
      exact (hapart a ha b hb hab).key_ne (isPrefix_scope_key hx) (isPrefix_scope_key hy)
    · intro a ha s calls hcalls
      exact (unwinding_sameWindows (hapart a ha)).observed_purge (fun _ _ => rfl) hcalls

/-- An agent's evidence under a key of its own. -/
def keyedCall (tenant : ClusterAgentIdentity) (key eventId : String) : RecordCall :=
  ⟨tenant, .agentKey ⟨tenant.clusterId, tenant.workspaceId, none, none, none, none, some key, []⟩,
    "cluster-snapshot", key, none, eventId, eventId, .obj []⟩

/-- With a colon in a workspace id, one agent is answered with the event of another's cluster. -/
theorem tenants_not_isolated :
    let env : KeyEnv := ⟨id, fun _ => ""⟩
    let theirs := keyedCall ⟨"a:b", "c"⟩ "x" "event-of-another"
    let mine := keyedCall ⟨"a", "b"⟩ "c:x" "event-of-mine"
    answers env ⟨"a", "b"⟩ .empty [mine] = [some ⟨false, "event-of-mine", "event-of-mine"⟩] ∧
      answers env ⟨"a", "b"⟩ .empty [theirs, mine] =
        [some ⟨true, "event-of-another", "event-of-another"⟩] ∧
      ¬ TenantsIsolated env {⟨"a", "b"⟩, ⟨"a:b", "c"⟩} := by
  intro env theirs mine
  have halone : answers env ⟨"a", "b"⟩ .empty [mine] =
      [some ⟨false, "event-of-mine", "event-of-mine"⟩] := by decide +kernel
  have hafter : answers env ⟨"a", "b"⟩ .empty [theirs, mine] =
      [some ⟨true, "event-of-another", "event-of-another"⟩] := by decide +kernel
  refine ⟨halone, hafter, fun hisolated => ?_⟩
  have hsame := hisolated.replies ⟨"a", "b"⟩ (by simp) .empty [theirs, mine] (by
    intro call hcall
    simp only [List.mem_cons, List.not_mem_nil, or_false] at hcall
    obtain rfl | rfl := hcall
    · exact Or.inr rfl
    · exact Or.inl rfl)
  have hmine : [theirs, mine].filter (·.tenant = ⟨"a", "b"⟩) = [mine] := rfl
  rw [hmine, halone, hafter] at hsame
  exact absurd hsame (by decide)

end Opsia.Evidence
