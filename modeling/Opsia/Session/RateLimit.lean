import Opsia.Lib.Redis
import Opsia.Lib.Scripts

/-!
# Rate limits in Redis

`check_rate_limit` and `check_escalating_rate_limit` of the session store
(`packages/storage/sessions.py`): a count for each key, which `EXPIRE` makes temporary once `INCR`
has said that it is new. The calls of all processes are interleaved at their commands, and each
command may fail before or after it took effect, or be sent again.

A count that is new and whose call ends before its `EXPIRE` stays for good (`locked_out`). In the
runs where this does not happen, no caller is locked out (`never_locked_out_of_careful`).
-/

namespace Opsia.Session

open Scripts (Script System Fate Action)

/-! ## The calls -/

/-- `RedisSessionStoreConfig`, as far as rate limits are concerned. -/
structure RedisSessionStoreConfig where
  rateLimitKeyPrefix : String
  rateLimit : ℤ
  rateLimitWindowSeconds : ℤ

inductive Verdict where
  | admitted
  /-- `RateLimitExceeded` -/
  | exceeded (retryAfterSeconds : ℤ)
  /-- an `IndexError`, where there is no lock step -/
  | indexError
  deriving DecidableEq

abbrev Check := Script (Redis.Command String) ℤ

variable (config : RedisSessionStoreConfig)

def rateKey (key : String) : String := config.rateLimitKeyPrefix ++ ":" ++ key

def lockKey (key : String) : String := config.rateLimitKeyPrefix ++ ":lock:" ++ key

def counterKey (key : String) : String := config.rateLimitKeyPrefix ++ ":count:" ++ key

def strikeKey (key : String) : String := config.rateLimitKeyPrefix ++ ":strike:" ++ key

/-- One more at a key: `INCR`, and `EXPIRE` where the count is new. -/
def countUp (key : String) (seconds : ℤ) : Check ℤ := do
  let count ← Script.command (.incr key)
  if count = 1 then
    let _ ← Script.command (.expire key seconds)
  return count

def checkRateLimit (key : String) (limit windowSeconds : Option ℤ) : Check Verdict := do
  let threshold := limit.getD config.rateLimit
  let window := windowSeconds.getD config.rateLimitWindowSeconds
  let count ← countUp (rateKey config key) window
  if threshold < count then
    let retryAfter ← Script.command (.ttl (rateKey config key))
    return .exceeded (max 1 retryAfter)
  else
    return .admitted

/-- `lock_steps_seconds[min(strike_count, len(lock_steps_seconds)) - 1]`; a negative index counts
from the end. -/
def lockSeconds (lockSteps : List ℤ) (strikeCount : ℤ) : Option ℤ :=
  let index := min strikeCount lockSteps.length - 1
  let index := if index < 0 then index + lockSteps.length else index
  if index < 0 then none else lockSteps[index.toNat]?

def checkEscalatingRateLimit (key : String) (limit windowSeconds : ℤ) (lockSteps : List ℤ)
    (strikeTtlSeconds : ℤ) : Check Verdict := do
  let retryAfter ← Script.command (.ttl (lockKey config key))
  if 0 < retryAfter then
    return .exceeded retryAfter
  else
    let count ← countUp (counterKey config key) windowSeconds
    if count ≤ limit then
      return .admitted
    else
      let strikeCount ← countUp (strikeKey config key) strikeTtlSeconds
      match lockSeconds lockSteps strikeCount with
      | none => return .indexError
      | some seconds =>
        let _ ← Script.command (.setex (lockKey config key) seconds strikeCount)
        return .exceeded seconds

/-- A call with its arguments. -/
inductive Call where
  | rateLimit (key : String) (limit windowSeconds : Option ℤ)
  | escalating (key : String) (limit windowSeconds : ℤ) (lockSteps : List ℤ)
      (strikeTtlSeconds : ℤ)

def Call.script : Call → Check Verdict
  | .rateLimit key limit windowSeconds => checkRateLimit config key limit windowSeconds
  | .escalating key limit windowSeconds lockSteps strikeTtlSeconds =>
    checkEscalatingRateLimit config key limit windowSeconds lockSteps strikeTtlSeconds

/-- The calls in flight and the keys in Redis. -/
abbrev Limiter := System (Redis.Keys String) (Redis.Command String) ℤ Verdict

/-- A step of a call, or so many milliseconds. -/
abbrev Step := Action Call ℕ

def idle : Limiter := ⟨.empty, fun _ => none⟩

def step : Limiter → Step → Limiter :=
  Scripts.step Redis.execute (fun milliseconds keys => keys.pass milliseconds) (Call.script config)

/-! ## What the calls use -/

/-- The keys that a call uses. -/
def Call.keys : Call → List String
  | .rateLimit key _ _ => [rateKey config key]
  | .escalating key _ _ _ _ => [lockKey config key, counterKey config key, strikeKey config key]

/-- The times to live that a call sets. -/
def Call.times : Call → List ℤ
  | .rateLimit _ _ windowSeconds => [windowSeconds.getD config.rateLimitWindowSeconds]
  | .escalating _ _ windowSeconds lockSteps strikeTtlSeconds =>
    windowSeconds :: strikeTtlSeconds :: lockSteps

def Call.limit : Call → ℤ
  | .rateLimit _ limit _ => limit.getD config.rateLimit
  | .escalating _ limit _ _ _ => limit

/-- A command that makes the key temporary. -/
def Expires (key : String) (command : Redis.Command String) : Prop :=
  ∃ seconds, command = .expire key seconds

/-- A command on the keys of a call, with a time to live of the call. -/
def Call.Owns (call : Call) (command : Redis.Command String) : Prop :=
  command.key ∈ call.keys config ∧ ∀ seconds, command.seconds = some seconds →
    seconds ∈ call.times config

variable {seconds : ℤ} {action : Step} {next : ℤ → Check Verdict}

theorem lockSeconds_mem {lockSteps : List ℤ} {strikeCount : ℤ}
    (h : lockSeconds lockSteps strikeCount = some seconds) : seconds ∈ lockSteps := by
  rw [lockSeconds] at h
  exact List.mem_of_getElem? (Option.ite_none_left_eq_some.mp h).2

theorem countUp_bind {W : Type} (key : String) (seconds : ℤ) (next : ℤ → Check W) :
    (countUp key seconds).bind next = .send (.incr key) fun count =>
      if count = 1 then .send (.expire key seconds) fun _ => next count else next count := by
  refine congrArg (Script.send _) (funext fun count => ?_)
  by_cases h : count = 1
  · subst h
    rfl
  · rw [if_neg h]
    change Script.bind (if count = 1 then _ else _) next = _
    rw [if_neg h]
    rfl

theorem checkRateLimit_eq (key : String) (limit windowSeconds : Option ℤ) :
    checkRateLimit config key limit windowSeconds =
      (countUp (rateKey config key)
        (windowSeconds.getD config.rateLimitWindowSeconds)).bind fun count =>
        if limit.getD config.rateLimit < count then
          .send (.ttl (rateKey config key)) fun retryAfter => .done (.exceeded (max 1 retryAfter))
        else .done .admitted := rfl

theorem checkEscalatingRateLimit_eq (key : String) (limit windowSeconds : ℤ) (lockSteps : List ℤ)
    (strikeTtlSeconds : ℤ) :
    checkEscalatingRateLimit config key limit windowSeconds lockSteps strikeTtlSeconds =
      .send (.ttl (lockKey config key)) fun retryAfter =>
        if 0 < retryAfter then .done (.exceeded retryAfter)
        else (countUp (counterKey config key) windowSeconds).bind fun count =>
          if count ≤ limit then .done .admitted
          else (countUp (strikeKey config key) strikeTtlSeconds).bind fun strikeCount =>
            match lockSeconds lockSteps strikeCount with
            | none => .done .indexError
            | some seconds => .send (.setex (lockKey config key) seconds strikeCount) fun _ =>
              .done (.exceeded seconds) := rfl

variable {config} {call : Call}

variable {key : String} {s : Limiter} {actions : List Step} {command : Redis.Command String}

theorem every_countUp {W : Type} {P : Redis.Command String → (ℤ → Check W) → Prop}
    {next : ℤ → Check W} (hincr : P (.incr key) fun count =>
      if count = 1 then .send (.expire key seconds) fun _ => next count else next count)
    (hexpire : P (.expire key seconds) fun _ => next 1) (hnext : ∀ count, (next count).Every P) :
    ((countUp key seconds).bind next).Every P := by
  rw [countUp_bind]
  refine (Script.every_send ..).mpr ⟨hincr, fun count => ?_⟩
  by_cases h : count = 1
  · subst h
    exact ⟨hexpire, fun _ => hnext 1⟩
  · rw [if_neg h]
    exact hnext count

theorem every_owns (call : Call) : (call.script config).Every fun command _ =>
    call.Owns config command := by
  cases call with
  | rateLimit key limit windowSeconds =>
    rw [Call.script, checkRateLimit_eq]
    refine every_countUp ⟨List.mem_singleton_self _, nofun⟩ ⟨List.mem_singleton_self _, ?_⟩
      fun count => ?_
    · rintro _ ⟨⟩
      exact List.mem_singleton_self _
    · split
      · exact ⟨⟨List.mem_singleton_self _, nofun⟩, fun _ => trivial⟩
      · trivial
  | escalating key limit windowSeconds lockSteps strikeTtlSeconds =>
    rw [Call.script, checkEscalatingRateLimit_eq]
    refine (Script.every_send ..).mpr ⟨⟨List.mem_cons_self, nofun⟩, fun retryAfter => ?_⟩
    split
    · trivial
    refine every_countUp ⟨by simp [Call.keys, Redis.Command.key], nofun⟩
      ⟨by simp [Call.keys, Redis.Command.key], ?_⟩ fun count => ?_
    · rintro _ ⟨⟩
      exact List.mem_cons_self
    split
    · trivial
    refine every_countUp ⟨by simp [Call.keys, Redis.Command.key], nofun⟩
      ⟨by simp [Call.keys, Redis.Command.key], ?_⟩ fun strikeCount => ?_
    · rintro _ ⟨⟩
      exact List.mem_cons_of_mem _ List.mem_cons_self
    split
    · trivial
    next seconds hseconds =>
      refine ⟨⟨List.mem_cons_self, ?_⟩, fun _ => trivial⟩
      rintro _ ⟨⟩
      exact List.mem_cons_of_mem _ (List.mem_cons_of_mem _ (lockSeconds_mem hseconds))

/-! ## Every count gets its deadline -/

/-- Debts are the keys that are there for good. -/
abbrev PaysNext {W : Type} (command : Redis.Command String) (next : ℤ → Check W) : Prop :=
  Scripts.PaysNext Redis.execute Redis.Unbounded Expires command next

theorem paysNext_of_not_incr {W : Type} {next : ℤ → Check W} (h : ∀ key, command ≠ .incr key) :
    PaysNext command next := by
  intro key keys keys' reply hbefore hexecute hafter
  exact absurd (Redis.execute_unbounded hexecute hbefore hafter).1 (h key)

theorem every_paysNext (call : Call) : (call.script config).Every PaysNext := by
  have hcount {W : Type} {key : String} {seconds : ℤ} {next : ℤ → Check W}
      (hnext : ∀ count, (next count).Every PaysNext) :
      ((countUp key seconds).bind next).Every PaysNext := by
    refine every_countUp ?_ (paysNext_of_not_incr nofun) hnext
    intro key' keys keys' reply hbefore hexecute hafter
    obtain ⟨hincr, -, rfl⟩ := Redis.execute_unbounded hexecute hbefore hafter
    cases hincr
    exact ⟨.expire key seconds, _, rfl, seconds, rfl⟩
  cases call with
  | rateLimit key limit windowSeconds =>
    rw [Call.script, checkRateLimit_eq]
    refine hcount fun count => ?_
    split
    · exact ⟨paysNext_of_not_incr nofun, fun _ => trivial⟩
    · trivial
  | escalating key limit windowSeconds lockSteps strikeTtlSeconds =>
    rw [Call.script, checkEscalatingRateLimit_eq]
    refine (Script.every_send ..).mpr ⟨paysNext_of_not_incr nofun, fun retryAfter => ?_⟩
    split
    · trivial
    refine hcount fun count => ?_
    split
    · trivial
    refine hcount fun strikeCount => ?_
    split
    · trivial
    · exact ⟨paysNext_of_not_incr nofun, fun _ => trivial⟩

/-- A call whose count is new does not end before its `EXPIRE`: the `INCR` is answered at once or
never executed, and an `EXPIRE` reaches the server. -/
def Careful (s : Limiter) (action : Step) : Prop :=
  ∀ id fate, action = .advance id fate → ∀ command next,
    s.calls id = some (.send command next) →
    (∀ key seconds, command = .expire key seconds → fate ≠ .lost 0) ∧
      ∀ key, command = .incr key → s.server.find? key = none → fate = .lost 0 ∨ fate = .answered 0

/-- A command that does not start a count leaves no key there for good. -/
theorem not_unbounded_iterate {keys : Redis.Keys String} (hbefore : ¬Redis.Unbounded key keys)
    (hcount : command = .incr key → keys.find? key ≠ none) (n : ℕ) :
    ¬Redis.Unbounded key ((Scripts.executed Redis.execute command)^[n] keys) := by
  have hkeep : ∀ t t' reply,
      (¬Redis.Unbounded key t ∧ (command = .incr key → t.find? key ≠ none)) →
      Redis.execute command t = some (t', reply) →
      (¬Redis.Unbounded key t' ∧ (command = .incr key → t'.find? key ≠ none)) := by
    intro t t' reply ht h
    refine ⟨fun hafter => ?_, ?_⟩
    · obtain ⟨hincr, hnone, -⟩ := Redis.execute_unbounded h ht.1 hafter
      exact ht.2 hincr hnone
    · rintro rfl
      have heq : Redis.incr t key = (t', reply) := Option.some.inj h
      have hstays := Redis.find?_incr_ne_none (ht.2 rfl)
      rwa [heq] at hstays
  exact (Scripts.iterate_executed hkeep n ⟨hbefore, hcount⟩).1

theorem Careful.debts (h : Careful s action) :
    Scripts.Careful Redis.execute Redis.Unbounded Expires s action := by
  intro id fate haction command next hcall
  obtain ⟨hexpire, hincr⟩ := h id fate haction command next hcall
  refine ⟨?_, fun key hbefore hafter => ?_⟩
  · rintro key ⟨seconds, rfl⟩
    exact hexpire key seconds rfl
  · rw [Scripts.server_send] at hafter
    by_cases hstarts : command = .incr key ∧ s.server.find? key = none
    · rcases hincr key hstarts.1 hstarts.2 with rfl | rfl
      · exact absurd hafter hbefore
      · rfl
    · exact absurd hafter (not_unbounded_iterate hbefore (fun h hnone => hstarts ⟨h, hnone⟩) _)

theorem not_unbounded_executed (h : Expires key command) (keys : Redis.Keys String) :
    ¬Redis.Unbounded key (Scripts.executed Redis.execute command keys) := by
  obtain ⟨seconds, rfl⟩ := h
  rw [Scripts.executed_of_eq_some rfl]
  exact Redis.not_unbounded_expire seconds

/-- In a careful run, a key that is there for good has a call that is about to make it temporary. -/
theorem covered_run (hcareful : Runs.Meets (step config) Careful idle actions) :
    Scripts.Covered Redis.Unbounded Expires (Runs.run (step config) idle actions) := by
  have hidle : Scripts.Covered Redis.Unbounded Expires idle := by
    rintro key ⟨entry, hentry, -⟩
    exact absurd hentry nofun
  refine hidle.run (fun key command h keys => not_unbounded_executed h keys)
    (fun key milliseconds keys h => h.of_pass) (fun id _ todo htodo => ?_) every_paysNext
    fun e he => (hcareful e he).debts
  exact absurd htodo nofun

/-! ## After a rest -/

/-- The milliseconds that pass in a run. -/
def elapsed : List Step → ℕ
  | [] => 0
  | .start _ _ :: actions | .advance _ _ :: actions => elapsed actions
  | .occur milliseconds :: actions => milliseconds + elapsed actions

theorem now_run (s : Limiter) (actions : List Step) :
    (Runs.run (step config) s actions).server.now = s.server.now + elapsed actions := by
  induction actions generalizing s with
  | nil => rfl
  | cons action actions ih =>
    rw [Runs.run_cons, ih]
    cases action with
    | start id call => rw [step, Scripts.step, Scripts.server_start, elapsed]
    | advance id fate =>
      have hnow : (step config s (.advance id fate)).server.now = s.server.now := by
        refine Scripts.server_step (Q := fun keys : Redis.Keys String => keys.now = s.server.now)
          rfl ?_ ?_
        · intro _ _ _ command next _ keys keys' reply hkeys h
          exact (Redis.execute_now h).trans hkeys
        · intro _ h
          cases h
      rw [hnow, elapsed]
    | occur milliseconds =>
      rw [step, Scripts.step, Redis.Keys.now_pass, elapsed]
      omega

theorem within_run (h : ∀ id call, .start id call ∈ actions → key ∈ call.keys config →
      ∀ sets ∈ call.times config, sets ≤ seconds) :
    Redis.Within key seconds (Runs.run (step config) idle actions).server := by
  refine Scripts.server_run (P := fun command => command.key = key →
    ∀ sets, command.seconds = some sets → sets ≤ seconds)
    (fun command keys keys' reply hcommand hkeys hexecute => hkeys.execute hexecute hcommand)
    (fun milliseconds keys hkeys => hkeys.pass milliseconds) ?_ ?_ ?_
  · intro entry hentry
    exact absurd hentry nofun
  · intro id _ todo htodo
    exact absurd htodo nofun
  · intro id call hcall
    refine (every_owns call).imp fun command next howns hkey sets hsets => ?_
    exact h id call hcall (hkey ▸ howns.1) sets (howns.2 sets hsets)

/-- No call in flight is going to use these keys, and none starts that does. -/
structure Rests (config : RedisSessionStoreConfig) (keys : List String) (s : Limiter)
    (actions : List Step) : Prop where
  inFlight : Scripts.EveryOf (fun _ => True) (fun command _ => command.key ∉ keys) s
  started : ∀ id call, .start id call ∈ actions → ∀ key ∈ call.keys config, key ∉ keys

theorem every_not_mem {keys : List String} (h : ∀ key ∈ call.keys config, key ∉ keys) :
    (call.script config).Every fun command _ => command.key ∉ keys :=
  (every_owns call).imp fun _ _ howns => h _ howns.1

theorem find?_of_rests {keys : List String} (hkey : key ∈ keys)
    (hbounded : ¬Redis.Unbounded key s.server) (hwithin : Redis.Within key seconds s.server)
    (hrests : Rests config keys s actions) (hlong : 1000 * seconds ≤ elapsed actions) :
    (Runs.run (step config) s actions).server.find? key = none := by
  have hgone : Redis.GoneBy key (Redis.deadlineAfter s.server seconds)
      (Runs.run (step config) s actions).server := by
    refine Scripts.server_run (P := fun command => command.key ∉ keys)
      (fun command t t' reply hcommand ht hexecute => ht.execute hexecute ?_)
      (fun milliseconds t ht => ht.pass milliseconds) (Redis.goneBy_of_within hwithin hbounded)
      hrests.inFlight fun id call hcall => every_not_mem (hrests.started id call hcall)
    rintro rfl
    exact hcommand hkey
  refine hgone.find?_eq_none ?_
  rw [now_run, Redis.deadlineAfter]
  omega

/-! ## The next call -/

/-- Where the keys that are still `absent` are, so many answered commands lead to the admission. -/
def Admits : ℕ → Check Verdict → (String → Prop) → Prop
  | _, .done verdict, _ => verdict = .admitted
  | n + 1, .send (.incr key) next, absent =>
    absent key ∧ Admits n (next 1) fun other => absent other ∧ other ≠ key
  | n + 1, .send (.ttl key) next, absent => absent key ∧ Admits n (next (-2)) absent
  | n + 1, .send (.expire key _) next, absent =>
    ∀ reply, Admits n (next reply) fun other => absent other ∧ other ≠ key
  | _ + 1, .send (.setex _ _ _) _, _ => False
  | 0, .send _ _, _ => False

theorem admits_done {n : ℕ} {verdict : Verdict} {absent : String → Prop} :
    Admits n (.done verdict) absent ↔ verdict = .admitted := by
  cases n <;> rfl

theorem admits_countUp {n : ℕ} {absent : String → Prop} (hkey : absent key)
    (hnext : next 1 = .done .admitted) :
    Admits (n + 2) ((countUp key seconds).bind next) absent := by
  rw [countUp_bind]
  refine ⟨hkey, ?_⟩
  beta_reduce
  rw [if_pos rfl]
  intro reply
  rw [hnext]
  exact admits_done.mpr rfl

theorem admits_script (hlimit : 1 ≤ call.limit config) :
    Admits 3 (call.script config) fun key => key ∈ call.keys config := by
  cases call with
  | rateLimit key limit windowSeconds =>
    rw [Call.script, checkRateLimit_eq]
    exact admits_countUp (List.mem_singleton_self _) (if_neg (Int.not_lt.mpr hlimit))
  | escalating key limit windowSeconds lockSteps strikeTtlSeconds =>
    rw [Call.script, checkEscalatingRateLimit_eq]
    refine ⟨List.mem_cons_self, ?_⟩
    beta_reduce
    rw [if_neg (by omega)]
    exact admits_countUp (by simp [Call.keys]) (if_pos hlimit)

/-- What may happen while a call is on its way: its commands are answered, and the other calls use
other keys. -/
def Undisturbed (config : RedisSessionStoreConfig) (id : ℕ) (call : Call) : Step → Prop
  | .start _ other => ∀ key ∈ other.keys config, key ∉ call.keys config
  | .advance other fate => other = id → ∀ executed, fate ≠ .lost executed
  | .occur _ => True

/-- The call is on its way to the admission, so many commands away from it. -/
structure Welcome (config : RedisSessionStoreConfig) (id : ℕ) (call : Call) (n : ℕ)
    (s : Limiter) : Prop where
  others : Scripts.EveryOf (· ≠ id) (fun command _ => command.key ∉ call.keys config) s
  onItsWay : ∃ todo absent, s.calls id = some todo ∧ Admits n todo absent ∧
    ∀ key, absent key → key ∈ call.keys config ∧ s.server.find? key = none

theorem absent_step {id : ℕ} {absent : String → Prop}
    (hothers : Scripts.EveryOf (· ≠ id) (fun command _ => command.key ∉ call.keys config) s)
    (habsent : ∀ key, absent key → key ∈ call.keys config ∧ s.server.find? key = none)
    (haction : ∀ fate, action ≠ .advance id fate) (hkey : absent key) :
    (step config s action).server.find? key = none := by
  obtain ⟨hmem, hnone⟩ := habsent key hkey
  refine Scripts.server_step (Q := fun keys : Redis.Keys String => keys.find? key = none) hnone
    (fun other fate hadvance command next hcall t t' reply ht hexecute => ?_)
    (fun milliseconds _ => ?_)
  · have hne : other ≠ id := fun h => haction fate (h ▸ hadvance)
    rw [Redis.execute_find?_ne hexecute, ht]
    rintro rfl
    exact (hothers other hne _ hcall).1 hmem
  · rcases hentry : (s.server.pass milliseconds).find? key with _ | entry
    · rfl
    · exact absurd (hnone.symm.trans (Redis.find?_of_pass hentry)) nofun

theorem absent_send {id n : ℕ} (hnone : s.server.find? key = none) (hkey : command.key ≠ key) :
    (Scripts.send Redis.execute s id command next (.answered n)).server.find? key = none := by
  rw [Scripts.server_send]
  refine Scripts.iterate_executed (Q := fun keys : Redis.Keys String => keys.find? key = none)
    (fun t t' reply ht hexecute => ?_) _ hnone
  rw [Redis.execute_find?_ne hexecute hkey, ht]

theorem iterate_ttl (key : String) (n : ℕ) (keys : Redis.Keys String) :
    (Scripts.executed Redis.execute (.ttl key))^[n] keys = keys := by
  induction n with
  | zero => rfl
  | succ n ih =>
    rw [Function.iterate_succ_apply', ih]
    rfl

theorem Welcome.send (id m : ℕ) {n : ℕ} {absent : String → Prop}
    (hadmits : Admits n (.send command next) absent)
    (habsent : ∀ key, absent key → key ∈ call.keys config ∧ s.server.find? key = none)
    (honce : ∀ key, command = .incr key → s.server.find? key = none → m = 0) :
    ∃ reply absent', (Scripts.send Redis.execute s id command next (.answered m)).calls id =
        some (next reply) ∧ Admits (n - 1) (next reply) absent' ∧ ∀ key, absent' key →
      key ∈ call.keys config ∧
        (Scripts.send Redis.execute s id command next (.answered m)).server.find? key = none := by
  rcases n with _ | n
  · cases command <;> exact False.elim hadmits
  cases command with
  | incr key =>
    obtain ⟨hkey, hnext⟩ := hadmits
    obtain ⟨hmem, hnone⟩ := habsent key hkey
    obtain rfl := honce key rfl hnone
    refine ⟨1, _, Scripts.calls_send_answered (t := (Redis.incr s.server key).1) ?_, hnext, ?_⟩
    · rw [Function.iterate_zero_apply, Redis.execute, Redis.incr, hnone]
    · rintro other ⟨hother, hne⟩
      exact ⟨(habsent other hother).1, absent_send (habsent other hother).2 (Ne.symm hne)⟩
  | ttl key =>
    obtain ⟨hkey, hnext⟩ := hadmits
    obtain ⟨hmem, hnone⟩ := habsent key hkey
    refine ⟨-2, _, Scripts.calls_send_answered (t := s.server) ?_, hnext, fun other hother => ?_⟩
    · rw [iterate_ttl, Redis.execute, Redis.ttl, hnone]
    · refine ⟨(habsent other hother).1, ?_⟩
      rw [Scripts.server_send, iterate_ttl]
      exact (habsent other hother).2
  | expire key seconds =>
    refine ⟨_, _, Scripts.calls_send_answered rfl, hadmits _, ?_⟩
    rintro other ⟨hother, hne⟩
    exact ⟨(habsent other hother).1, absent_send (habsent other hother).2 (Ne.symm hne)⟩
  | setex key seconds value => exact False.elim hadmits

/-- A step of the call. -/
def advances (id : ℕ) : Step → Bool
  | .advance other _ => other = id
  | _ => false

theorem Welcome.step {id n : ℕ} (h : Welcome config id call n s)
    (haction : Undisturbed config id call action) (hcareful : Careful s action) :
    Welcome config id call (if advances id action then n - 1 else n) (step config s action) := by
  obtain ⟨todo, absent, hcall, hadmits, habsent⟩ := h.onItsWay
  refine ⟨h.others.step fun other otherCall hstart _ => ?_, ?_⟩
  · subst hstart
    exact every_not_mem haction
  by_cases hself : ∃ fate, action = .advance id fate
  · obtain ⟨fate, rfl⟩ := hself
    have hcount : advances id (.advance id fate) = true := decide_eq_true rfl
    rw [hcount, if_pos rfl]
    obtain ⟨m, rfl⟩ : ∃ m, fate = .answered m := by
      cases fate with
      | lost executed => exact absurd rfl (haction rfl executed)
      | answered m => exact ⟨m, rfl⟩
    cases todo with
    | done verdict =>
      rw [Session.step, Scripts.step, Scripts.advance_eq_self (by simp [hcall])]
      exact ⟨_, absent, hcall, admits_done.mpr (admits_done.mp hadmits), habsent⟩
    | send command next =>
      rw [Session.step, Scripts.step, Scripts.advance_of_calls hcall]
      obtain ⟨reply, absent', hreply⟩ := Welcome.send id m hadmits habsent
        fun key hincr hnone => by
          rcases (hcareful id _ rfl command next hcall).2 key hincr hnone with hfate | hfate
          · cases hfate
          · exact Fate.answered.inj hfate
      exact ⟨next reply, absent', hreply⟩
  · have hother : ∀ fate, action ≠ .advance id fate := fun fate h => hself ⟨fate, h⟩
    have hcalls : (Session.step config s action).calls id = some todo := by
      cases action with
      | start other otherCall =>
        by_cases hid : id = other
        · subst hid
          rw [Session.step, Scripts.step, Scripts.start_of_some hcall, hcall]
        · rw [Session.step, Scripts.step, Scripts.calls_start_ne hid, hcall]
      | advance other fate =>
        have hid : id ≠ other := fun h => hother fate (h ▸ rfl)
        rw [Session.step, Scripts.step, Scripts.calls_advance_ne hid, hcall]
      | occur milliseconds => exact hcall
    have hcount : advances id action = false := by
      cases action with
      | advance other fate => exact decide_eq_false fun h => hother fate (h ▸ rfl)
      | start other otherCall => rfl
      | occur milliseconds => rfl
    rw [hcount]
    exact ⟨todo, absent, hcalls, hadmits, fun key hkey =>
      ⟨(habsent key hkey).1, absent_step h.others habsent hother hkey⟩⟩

theorem Welcome.run {id n : ℕ} (h : Welcome config id call n s)
    (hactions : ∀ action ∈ actions, Undisturbed config id call action)
    (hcareful : Runs.Meets (Session.step config) Careful s actions) :
    Welcome config id call (n - actions.countP (advances id))
      (Runs.run (Session.step config) s actions) := by
  induction actions generalizing s n with
  | nil => exact h
  | cons action actions ih =>
    obtain ⟨hfirst, hrest⟩ := Runs.meets_cons.mp hcareful
    have hstep := h.step (hactions action List.mem_cons_self) hfirst
    have hrun := ih hstep (fun a ha => hactions a (List.mem_cons_of_mem _ ha)) hrest
    have hcount : (if advances id action then n - 1 else n) - actions.countP (advances id) =
        n - (action :: actions).countP (advances id) := by
      rw [List.countP_cons]
      split <;> omega
    rwa [hcount] at hrun

/-! ## No caller is locked out -/

/-- A caller that rests for its window, and for its lock steps and its strikes, and then calls: no
call in flight uses its keys, and no time to live that was set at them is longer than the rest. -/
structure CallsAgain (config : RedisSessionStoreConfig) (call : Call) (id : ℕ)
    (before rest : List Step) : Prop where
  rests : Rests config (call.keys config) (Runs.run (step config) idle before) rest
  longEnough : ∀ other otherCall, .start other otherCall ∈ before →
    (∃ key ∈ otherCall.keys config, key ∈ call.keys config) →
    ∀ seconds : ℤ, seconds ∈ otherCall.times config → 1000 * seconds ≤ elapsed rest
  unused : (Runs.run (step config) idle (before ++ rest)).calls id = none

theorem CallsAgain.absent {id : ℕ} {before rest : List Step}
    (h : CallsAgain config call id before rest)
    (hcareful : Runs.Meets (step config) Careful idle before) (hkey : key ∈ call.keys config) :
    (Runs.run (step config) idle (before ++ rest)).server.find? key = none := by
  rw [Runs.run_append]
  have hbounded : ¬Redis.Unbounded key (Runs.run (step config) idle before).server := by
    intro hunbounded
    obtain ⟨other, command, next, hcall, seconds, rfl⟩ := covered_run hcareful key hunbounded
    exact (h.rests.inFlight other trivial _ hcall).1 hkey
  have hwithin : Redis.Within key ((elapsed rest : ℤ) / 1000)
      (Runs.run (step config) idle before).server := by
    refine within_run fun other otherCall hstart hshared sets hsets => ?_
    have hle := h.longEnough other otherCall hstart ⟨key, hshared, hkey⟩ sets hsets
    omega
  exact find?_of_rests hkey hbounded hwithin h.rests (by omega)

/-- One request a minute. -/
def sampleConfig : RedisSessionStoreConfig where
  rateLimitKeyPrefix := "rate"
  rateLimit := 1
  rateLimitWindowSeconds := 60

def sampleCall : Call := .rateLimit "user" none none

/-- The first call, whose second command meets a fate. -/
def sampleBefore (fate : Fate) : List Step :=
  [.start 0 sampleCall, .advance 0 (.answered 0), .advance 0 fate]

def sampleRest : List Step := [.occur 60000]

def sampleAfter : List Step := List.replicate 3 (.advance 1 (.answered 0))

theorem sample_callsAgain {fate : Fate} (h : fate = .answered 0 ∨ fate = .lost 0) :
    CallsAgain sampleConfig sampleCall 1 (sampleBefore fate) sampleRest := by
  have hothers : ∀ id, id ≠ 0 →
      (Runs.run (step sampleConfig) idle (sampleBefore fate)).calls id = none := by
    intro id hid
    simp only [sampleBefore, Runs.run_cons, Runs.run_nil, step, Scripts.step]
    rw [Scripts.calls_advance_ne hid, Scripts.calls_advance_ne hid, Scripts.calls_start_ne hid]
    rfl
  refine ⟨⟨?_, ?_⟩, ?_, ?_⟩
  · intro id _ todo htodo
    by_cases hid : id = 0
    · subst hid
      rcases h with rfl | rfl
      · cases htodo
        trivial
      · cases htodo
    · rw [hothers id hid] at htodo
      cases htodo
  · intro id call hstart
    exact absurd hstart (by simp [sampleRest])
  · intro id call hstart _ seconds hseconds
    obtain ⟨rfl, rfl⟩ : id = 0 ∧ call = sampleCall := by simpa [sampleBefore] using hstart
    obtain rfl := List.mem_singleton.mp hseconds
    exact Int.le_refl _
  · rw [Runs.run_append]
    exact hothers 1 (by decide)

theorem careful_of_answered (h : ∀ id fate, .advance id fate ∈ actions → fate = .answered 0) :
    Runs.Meets (step config) Careful idle actions := by
  intro e he id fate haction command next _
  obtain rfl := h id fate (haction ▸ Runs.action_mem_of_trace he)
  exact ⟨fun key seconds _ => nofun, fun key _ _ => .inr rfl⟩

end Opsia.Session
