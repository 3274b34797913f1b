import Mathlib.Data.Int.Notation
import Mathlib.Logic.Function.Basic
import Mathlib.Tactic.Common

/-!
# Integer keys with deadlines

The keys of a Redis server that hold integers, its clock in milliseconds, and `INCR`, `EXPIRE`,
`TTL` and `SETEX`. A key is gone when its deadline is reached. What is at a key after a command is
`find?_of_execute`: only `INCR` on a key that is not there makes one without a deadline
(`execute_unbounded`), and no deadline is further away than the times to live that are set
(`Within.execute`).
-/

namespace Redis

variable {κ : Type}

structure Entry where
  value : ℤ
  deadline : Option ℕ
  deriving DecidableEq

structure Keys (κ : Type) where
  now : ℕ
  entries : κ → Option Entry

/-- A server without keys. -/
def Keys.empty : Keys κ where
  now := 0
  entries _ := none

def Entry.live (now : ℕ) (entry : Entry) : Bool := entry.deadline.all fun deadline => now < deadline

variable (keys : Keys κ)

/-- The key, unless it has expired. -/
def Keys.find? (key : κ) : Option Entry := (keys.entries key).filter (Entry.live keys.now)

/-- Time passes. -/
def Keys.pass (milliseconds : ℕ) : Keys κ := { keys with now := keys.now + milliseconds }

/-- The deadline of a key that is to live so long from now. -/
def deadlineAfter (seconds : ℤ) : ℕ := keys.now + 1000 * seconds.toNat

@[simp] theorem Keys.now_pass (milliseconds : ℕ) :
    (keys.pass milliseconds).now = keys.now + milliseconds := rfl

inductive Command (κ : Type) where
  | incr (key : κ)
  | expire (key : κ) (seconds : ℤ)
  | ttl (key : κ)
  | setex (key : κ) (seconds : ℤ) (value : ℤ)
  deriving DecidableEq

/-- The key that a command names. -/
def Command.key : Command κ → κ
  | incr key | expire key _ | ttl key | setex key _ _ => key

/-- The time to live that a command sets. -/
def Command.seconds : Command κ → Option ℤ
  | expire _ seconds | setex _ seconds _ => some seconds
  | incr _ | ttl _ => none

variable {keys} {key : κ}

/-! ## How long a key lives -/

/-- The key is there for good. -/
def Unbounded (key : κ) (keys : Keys κ) : Prop :=
  ∃ entry, keys.find? key = some entry ∧ entry.deadline = none

/-- Any deadline of the key comes within so many seconds. -/
def Within (key : κ) (seconds : ℤ) (keys : Keys κ) : Prop :=
  ∀ entry, keys.find? key = some entry →
    ∀ deadline, entry.deadline = some deadline → deadline ≤ deadlineAfter keys seconds

/-- The key will be gone at that time. -/
def GoneBy (key : κ) (time : ℕ) (keys : Keys κ) : Prop :=
  ∀ entry, keys.find? key = some entry →
    ∃ deadline, entry.deadline = some deadline ∧ deadline ≤ time

theorem deadlineAfter_mono {seconds seconds' : ℤ} (h : seconds ≤ seconds') :
    deadlineAfter keys seconds ≤ deadlineAfter keys seconds' := by
  rw [deadlineAfter, deadlineAfter]
  omega

theorem find?_of_pass {entry : Entry} {milliseconds : ℕ}
    (h : (keys.pass milliseconds).find? key = some entry) : keys.find? key = some entry := by
  obtain ⟨hentry, hlive⟩ := Option.filter_eq_some_iff.mp h
  refine Option.filter_eq_some_iff.mpr ⟨hentry, ?_⟩
  rw [Entry.live, Option.all_eq_true] at hlive ⊢
  intro deadline hdeadline
  have hlt := of_decide_eq_true (hlive deadline hdeadline)
  rw [Keys.now_pass] at hlt
  exact decide_eq_true (by omega)

theorem now_lt_deadline {entry : Entry} (h : keys.find? key = some entry) {deadline : ℕ}
    (hdeadline : entry.deadline = some deadline) : keys.now < deadline := by
  have hlive := (Option.filter_eq_some_iff.mp h).2
  rw [Entry.live, hdeadline] at hlive
  exact of_decide_eq_true hlive

theorem Unbounded.of_pass {milliseconds : ℕ} (h : Unbounded key (keys.pass milliseconds)) :
    Unbounded key keys := by
  obtain ⟨entry, hentry, hdeadline⟩ := h
  exact ⟨entry, find?_of_pass hentry, hdeadline⟩

theorem Within.pass {seconds : ℤ} (hwithin : Within key seconds keys) (milliseconds : ℕ) :
    Within key seconds (keys.pass milliseconds) := by
  intro entry hentry deadline hdeadline
  have hle := hwithin entry (find?_of_pass hentry) deadline hdeadline
  rw [deadlineAfter] at hle ⊢
  rw [Keys.now_pass]
  omega

theorem GoneBy.pass {time : ℕ} (hgone : GoneBy key time keys) (milliseconds : ℕ) :
    GoneBy key time (keys.pass milliseconds) :=
  fun entry hentry => hgone entry (find?_of_pass hentry)

theorem goneBy_of_within {seconds : ℤ} (hwithin : Within key seconds keys)
    (hbounded : ¬Unbounded key keys) : GoneBy key (deadlineAfter keys seconds) keys := by
  intro entry hentry
  rcases hdeadline : entry.deadline with _ | deadline
  · exact absurd ⟨entry, hentry, hdeadline⟩ hbounded
  · exact ⟨deadline, rfl, hwithin entry hentry deadline hdeadline⟩

theorem GoneBy.find?_eq_none {time : ℕ} (hgone : GoneBy key time keys) (htime : time ≤ keys.now) :
    keys.find? key = none := by
  rcases hentry : keys.find? key with _ | entry
  · rfl
  · obtain ⟨deadline, hdeadline, hle⟩ := hgone entry hentry
    exact absurd (now_lt_deadline hentry hdeadline) (by omega)

/-! ## Commands -/

variable [DecidableEq κ] (keys)

def Keys.set (key : κ) (entry : Option Entry) : Keys κ :=
  { keys with entries := Function.update keys.entries key entry }

def incr (key : κ) : Keys κ × ℤ :=
  match keys.find? key with
  | none => (keys.set key (some ⟨1, none⟩), 1)
  | some entry =>
    (keys.set key (some { entry with value := entry.value + 1 }), entry.value + 1)

/-- A time that is not positive deletes the key. -/
def expire (key : κ) (seconds : ℤ) : Keys κ × ℤ :=
  match keys.find? key with
  | none => (keys, 0)
  | some entry =>
    (keys.set key (if 0 < seconds then
      some { entry with deadline := some (deadlineAfter keys seconds) } else none), 1)

/-- The rest of a key's life, to the nearest second. -/
def ttl (key : κ) : ℤ :=
  match keys.find? key with
  | none => -2
  | some entry => match entry.deadline with
    | none => -1
    | some deadline => (deadline - keys.now + 500) / 1000

/-- A time that is not positive is refused. -/
def setex (key : κ) (seconds value : ℤ) : Option (Keys κ × ℤ) :=
  if 0 < seconds then some (keys.set key (some ⟨value, some (deadlineAfter keys seconds)⟩), 1)
  else none

/-- The server after a command, with its reply; none where it is refused. -/
def execute (command : Command κ) (keys : Keys κ) : Option (Keys κ × ℤ) :=
  match command with
  | .incr key => some (incr keys key)
  | .expire key seconds => some (expire keys key seconds)
  | .ttl key => some (keys, ttl keys key)
  | .setex key seconds value => setex keys key seconds value

variable {keys}

theorem find?_set_ne {key' : κ} (h : key' ≠ key) (entry : Option Entry) :
    (keys.set key entry).find? key' = keys.find? key' := by
  rw [Keys.find?, Keys.set]
  simp only [Function.update_of_ne h]
  rfl

theorem find?_set_self (key : κ) (entry : Option Entry) :
    (keys.set key entry).find? key = entry.filter (Entry.live keys.now) := by
  rw [Keys.find?, Keys.set]
  simp only [Function.update_self]

theorem find?_of_set {key' : κ} {entry : Option Entry} {found : Entry}
    (h : (keys.set key entry).find? key' = some found) :
    keys.find? key' = some found ∨ key' = key ∧ entry = some found := by
  by_cases hkey : key' = key
  · subst hkey
    rw [find?_set_self] at h
    exact .inr ⟨rfl, (Option.filter_eq_some_iff.mp h).1⟩
  · rw [find?_set_ne hkey] at h
    exact .inl h

/-! ## What a command does -/

variable {command : Command κ} {keys' : Keys κ} {reply : ℤ}

theorem execute_now (h : execute command keys = some (keys', reply)) : keys'.now = keys.now := by
  cases command with
  | incr key =>
    rw [execute, incr] at h
    split at h <;> (cases h; rfl)
  | expire key seconds =>
    rw [execute, expire] at h
    split at h <;> (cases h; rfl)
  | ttl key =>
    cases h
    rfl
  | setex key seconds value =>
    rw [execute, setex] at h
    split at h
    · cases h
      rfl
    · exact absurd h nofun

theorem execute_find?_ne (h : execute command keys = some (keys', reply))
    (hkey : command.key ≠ key) : keys'.find? key = keys.find? key := by
  cases command with
  | incr key' =>
    rw [execute, incr] at h
    split at h <;> (cases h; exact find?_set_ne (Ne.symm hkey) _)
  | expire key' seconds =>
    rw [execute, expire] at h
    split at h
    · cases h
      rfl
    · cases h
      exact find?_set_ne (Ne.symm hkey) _
  | ttl key' =>
    cases h
    rfl
  | setex key' seconds value =>
    rw [execute, setex] at h
    split at h
    · cases h
      exact find?_set_ne (Ne.symm hkey) _
    · exact absurd h nofun

theorem find?_of_execute (h : execute command keys = some (keys', reply)) {entry : Entry}
    (hentry : keys'.find? key = some entry) :
    keys.find? key = some entry ∨
    (command = .incr key ∧ keys.find? key = none ∧ reply = 1 ∧ entry.deadline = none) ∨
    (∃ old, keys.find? key = some old ∧ entry.deadline = old.deadline) ∨
    (command.key = key ∧ ∃ seconds, command.seconds = some seconds ∧
      entry.deadline = some (deadlineAfter keys seconds)) := by
  cases command with
  | incr key' =>
    rw [execute, incr] at h
    split at h
    next hnone =>
      cases h
      rcases find?_of_set hentry with hsame | ⟨rfl, hset⟩
      · exact .inl hsame
      · cases hset
        exact .inr (.inl ⟨rfl, hnone, rfl, rfl⟩)
    next old hold =>
      cases h
      rcases find?_of_set hentry with hsame | ⟨rfl, hset⟩
      · exact .inl hsame
      · cases hset
        exact .inr (.inr (.inl ⟨old, hold, rfl⟩))
  | expire key' seconds =>
    rw [execute, expire] at h
    split at h
    · cases h
      exact .inl hentry
    · cases h
      rcases find?_of_set hentry with hsame | ⟨rfl, hset⟩
      · exact .inl hsame
      · split at hset
        · cases hset
          exact .inr (.inr (.inr ⟨rfl, seconds, rfl, rfl⟩))
        · exact absurd hset nofun
  | ttl key' =>
    cases h
    exact .inl hentry
  | setex key' seconds value =>
    rw [execute, setex] at h
    split at h
    · cases h
      rcases find?_of_set hentry with hsame | ⟨rfl, hset⟩
      · exact .inl hsame
      · cases hset
        exact .inr (.inr (.inr ⟨rfl, seconds, rfl, rfl⟩))
    · exact absurd h nofun

/-- Only a count that starts is there for good. -/
theorem execute_unbounded (h : execute command keys = some (keys', reply))
    (hbefore : ¬Unbounded key keys) (hafter : Unbounded key keys') :
    command = .incr key ∧ keys.find? key = none ∧ reply = 1 := by
  obtain ⟨entry, hentry, hdeadline⟩ := hafter
  rcases find?_of_execute h hentry with
    hsame | ⟨hincr, hnone, hreply, -⟩ | ⟨old, hold, heq⟩ | ⟨-, seconds, -, heq⟩
  · exact absurd ⟨entry, hsame, hdeadline⟩ hbefore
  · exact ⟨hincr, hnone, hreply⟩
  · exact absurd ⟨old, hold, heq.symm.trans hdeadline⟩ hbefore
  · exact absurd (heq.symm.trans hdeadline) nofun

/-- A key whose deadline is set is not there for good. -/
theorem not_unbounded_expire (seconds : ℤ) : ¬Unbounded key (expire keys key seconds).1 := by
  rintro ⟨entry, hentry, hdeadline⟩
  rw [expire] at hentry
  split at hentry
  next hnone => exact absurd (hnone.symm.trans hentry) nofun
  next =>
    rw [find?_set_self, Option.filter_eq_some_iff] at hentry
    obtain ⟨hset, -⟩ := hentry
    split at hset
    · cases hset
      exact absurd hdeadline nofun
    · exact absurd hset nofun

/-- A count that is there goes on. -/
theorem find?_incr_ne_none (h : keys.find? key ≠ none) :
    (incr keys key).1.find? key ≠ none := by
  rcases hentry : keys.find? key with _ | entry
  · exact absurd hentry h
  · have hlive : Entry.live keys.now { entry with value := entry.value + 1 } = true :=
      (Option.filter_eq_some_iff.mp hentry).2
    rw [incr, hentry]
    simp only [find?_set_self, Option.filter_some, hlive, if_true]
    exact nofun

theorem Within.execute {seconds : ℤ} (hwithin : Within key seconds keys)
    (h : Redis.execute command keys = some (keys', reply))
    (hseconds : command.key = key → ∀ sets, command.seconds = some sets → sets ≤ seconds) :
    Within key seconds keys' := by
  intro entry hentry deadline hdeadline
  have hnow : deadlineAfter keys' seconds = deadlineAfter keys seconds := by
    rw [deadlineAfter, deadlineAfter, execute_now h]
  rw [hnow]
  rcases find?_of_execute h hentry with
    hsame | ⟨-, -, -, hnone⟩ | ⟨old, hold, heq⟩ | ⟨hkey, sets, hsets, heq⟩
  · exact hwithin entry hsame deadline hdeadline
  · exact absurd (hnone.symm.trans hdeadline) nofun
  · exact hwithin old hold deadline (heq.symm.trans hdeadline)
  · obtain rfl := Option.some.inj (heq.symm.trans hdeadline)
    exact deadlineAfter_mono (hseconds hkey sets hsets)

theorem GoneBy.execute {time : ℕ} (hgone : GoneBy key time keys)
    (h : Redis.execute command keys = some (keys', reply)) (hkey : command.key ≠ key) :
    GoneBy key time keys' := by
  intro entry hentry
  rw [execute_find?_ne h hkey] at hentry
  exact hgone entry hentry

end Redis
