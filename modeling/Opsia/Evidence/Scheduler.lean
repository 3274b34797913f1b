import Mathlib.Data.Rat.Defs
import Mathlib.Algebra.Order.Ring.Rat
import Opsia.Lib.PyText
import Opsia.Lib.PyTime
import Opsia.Lib.Table

/-!
# The schedule of the agent

`EvidenceJobScheduler` of the cluster agent: which providers are due, the window that a call
addresses, and what a changed configuration does to the schedule. The dictionaries of the scheduler
have the keys of `provider_keys` and are one table here; worker pools are left out.
-/

namespace Opsia.Evidence

/-- The entry of one provider in the dictionaries of the scheduler. -/
structure ProviderSchedule where
  providerKey : String
  intervalSeconds : ℤ
  nextProviderRun : ℚ
  enabled : Bool
  deriving DecidableEq

/-- The state of an `EvidenceJobScheduler`. -/
structure EvidenceJobScheduler where
  clusterId : String
  workspaceId : String
  sourceId : String
  intervalSeconds : ℤ
  providers : Table ProviderSchedule.providerKey
  scheduleRevision : ℕ

namespace EvidenceJobScheduler

/-- The entry of a provider in a new scheduler. -/
def initial (intervalSeconds : ℤ) (providerKey : String) : ProviderSchedule :=
  ⟨providerKey, max 1 intervalSeconds, 0, true⟩

/-- `EvidenceJobScheduler(…)`. -/
def new (clusterId workspaceId sourceId : String) (providerKeys : List String)
    (intervalSeconds : ℤ) : EvidenceJobScheduler :=
  ⟨clusterId, workspaceId, sourceId, intervalSeconds,
    (providerKeys.map (initial intervalSeconds)).foldl Table.put .empty, 0⟩

def dueProviderKeys (scheduler : EvidenceJobScheduler) (now : ℚ) : List String :=
  (scheduler.providers.rows.filter fun provider =>
    provider.enabled && provider.nextProviderRun ≤ now).map ProviderSchedule.providerKey

/-- `new_window_start`; `none` when the time has no calendar date. -/
def newWindowStart (scheduler : EvidenceJobScheduler) (now : ℚ) : Option String :=
  let interval := max 1 scheduler.intervalSeconds
  let current := now.num.tdiv now.den
  (UtcTime.fromTimestamp (current - current % interval)).map UtcTime.isoformat

def alignEnabledProviderRuns (scheduler : EvidenceJobScheduler) : EvidenceJobScheduler :=
  { scheduler with
    scheduleRevision := scheduler.scheduleRevision + 1
    providers := scheduler.providers.modifyWhere ProviderSchedule.enabled
      (fun provider => { provider with nextProviderRun := 0 }) fun _ => rfl }

/-- The entry of a provider after `configure_schedule`. -/
def configured (providerIntervals : List (String × ℤ)) (enabledProviderKeys : List String)
    (provider : ProviderSchedule) : ProviderSchedule :=
  { provider with
    intervalSeconds :=
      ((providerIntervals.lookup provider.providerKey).map (max 1)).getD provider.intervalSeconds
    enabled := provider.providerKey ∈ enabledProviderKeys }

/-- The configuration changes a provider that is or was enabled. -/
def scheduleChanged (before after : ProviderSchedule) : Bool :=
  after.enabled ≠ before.enabled ||
    (after.enabled && after.intervalSeconds ≠ before.intervalSeconds)

/-- `configure_schedule`; `none` when a provider is unknown. -/
def configureSchedule (scheduler : EvidenceJobScheduler) (providerIntervals : List (String × ℤ))
    (enabledProviderKeys : List String) : Option EvidenceJobScheduler :=
  if providerIntervals.all fun entry => (scheduler.providers.find? entry.1).isSome then
    let configure := configured providerIntervals enabledProviderKeys
    let next := { scheduler with
      providers := scheduler.providers.modifyWhere (fun _ => true) configure fun _ => rfl }
    if scheduler.providers.rows.any fun provider => scheduleChanged provider (configure provider) then
      some next.alignEnabledProviderRuns
    else some next
  else none

/-- `register_provider`; `none` when the key is blank. -/
def registerProvider (scheduler : EvidenceJobScheduler) (providerKey : String)
    (intervalSeconds : ℤ) (enabled : Bool) : Option EvidenceJobScheduler :=
  if PyText.strip providerKey = "" then none
  else
    let previous := scheduler.providers.find? providerKey
    let next := { scheduler with
      providers := scheduler.providers.put ⟨providerKey, max 1 intervalSeconds,
        (previous.map ProviderSchedule.nextProviderRun).getD 0, enabled⟩ }
    if (previous.any ProviderSchedule.enabled) ≠ enabled ∨ (enabled = true ∧
        previous.map ProviderSchedule.intervalSeconds ≠ some (max 1 intervalSeconds)) then
      some next.alignEnabledProviderRuns
    else some next

def unregisterProvider (scheduler : EvidenceJobScheduler) (providerKey : String) :
    EvidenceJobScheduler :=
  if (scheduler.providers.find? providerKey).isSome then
    alignEnabledProviderRuns { scheduler with providers := scheduler.providers.erase providerKey }
  else scheduler

/-- A call of `schedule_once` that waits for the management plane. -/
structure ScheduleCall where
  scheduleRevision : ℕ
  now : ℚ
  dueProviderKeys : List String
  windowStart : String
  deriving DecidableEq

/-- `schedule_once` up to its request; `none` when no provider is due. -/
def scheduleOnce (scheduler : EvidenceJobScheduler) (now : ℚ) : Option ScheduleCall :=
  let due := scheduler.dueProviderKeys now
  if due.isEmpty then none
  else (scheduler.newWindowStart now).map fun windowStart =>
    ⟨scheduler.scheduleRevision, now, due, windowStart⟩

/-- `schedule_once` after the response. -/
def scheduled (scheduler : EvidenceJobScheduler) (call : ScheduleCall) : EvidenceJobScheduler :=
  if call.scheduleRevision = scheduler.scheduleRevision then
    { scheduler with
      providers := scheduler.providers.modifyWhere
        (fun provider => provider.providerKey ∈ call.dueProviderKeys)
        (fun provider =>
          { provider with nextProviderRun := call.now + provider.intervalSeconds }) fun _ => rfl }
  else scheduler

end EvidenceJobScheduler

end Opsia.Evidence
