import Mathlib.Logic.Function.Iterate
import Opsia.Lib.Runs

/-!
# Scripts of clients over a shared server

A client call is a *script*: it sends a command, the reply decides what it does next, and in the
end it has a verdict. Any number of calls are in flight, and between two commands of one the
commands of the others are executed. A command may get lost before or after the server executed it,
it may be executed again before its reply arrives, and its client may stop: the call is then over.

* `every_run` — what all scripts say of their commands, and of what follows each, holds of every
  call in flight.
* `server_step`, `server_run` — what the commands keep, the system keeps.
* `Covered.run` — *debts* of the server: where the call that incurs a debt pays it with its next
  command, every debt has a call in flight that is about to pay it. This needs runs in which that
  call lives long enough (`Careful`), and nothing else of the interleaving.
-/

namespace Scripts

variable {σ C R V K ε κ : Type}

/-- The free monad over sending a command. -/
inductive Script (C R V : Type) where
  /-- return a verdict -/
  | done : V → Script C R V
  /-- send a command and go on with its reply -/
  | send : C → (R → Script C R V) → Script C R V

namespace Script

variable {W : Type}

/-- Graft a continuation onto every `done` leaf. -/
protected def bind : Script C R V → (V → Script C R W) → Script C R W
  | done v, g => g v
  | send c next, g => send c fun r => (next r).bind g

instance : Monad (Script C R) where
  pure := done
  bind := Script.bind

/-- Send a command, for its reply. -/
def command (c : C) : Script C R R := send c done

/-- A property of every command that the script may send, with what follows it. -/
def Every (P : C → (R → Script C R V) → Prop) : Script C R V → Prop
  | done _ => True
  | send c next => P c next ∧ ∀ r, (next r).Every P

theorem Every.imp {P Q : C → (R → Script C R V) → Prop} (h : ∀ c next, P c next → Q c next) :
    ∀ {todo : Script C R V}, todo.Every P → todo.Every Q
  | done _, _ => trivial
  | send c next, ⟨hc, hnext⟩ => ⟨h c next hc, fun r => (hnext r).imp h⟩

@[simp] theorem every_send (P : C → (R → Script C R V) → Prop) (c : C)
    (next : R → Script C R V) :
    (send c next).Every P ↔ P c next ∧ ∀ r, (next r).Every P := Iff.rfl

end Script

/-- The server, and the calls that are in flight or have returned. -/
structure System (σ C R V : Type) where
  server : σ
  calls : ℕ → Option (Script C R V)

/-- What becomes of a command that is sent. -/
inductive Fate where
  /-- it was executed so often, and its client never learns of it -/
  | lost (executed : ℕ)
  /-- it was executed so often in vain, and then once more for the reply -/
  | answered (before : ℕ)
  deriving DecidableEq

/-- A call starts, a call sends its next command, or the server changes by itself. -/
inductive Action (K ε : Type) where
  | start (id : ℕ) (call : K)
  | advance (id : ℕ) (fate : Fate)
  | occur (event : ε)

section Step

variable (execute : C → σ → Option (σ × R)) (environment : ε → σ → σ) (script : K → Script C R V)

/-- The server after a command; one that it refuses changes nothing. -/
def executed (c : C) (t : σ) : σ := ((execute c t).map Prod.fst).getD t

/-- The next command of a call, and what becomes of it. -/
def send (s : System σ C R V) (id : ℕ) (c : C) (next : R → Script C R V) :
    Fate → System σ C R V
  | .lost n => ⟨(executed execute c)^[n] s.server, Function.update s.calls id none⟩
  | .answered n =>
    let t := (executed execute c)^[n] s.server
    match execute c t with
    | none => ⟨t, Function.update s.calls id none⟩
    | some (t', r) => ⟨t', Function.update s.calls id (some (next r))⟩

def advance (s : System σ C R V) (id : ℕ) (fate : Fate) : System σ C R V :=
  match s.calls id with
  | some (.send c next) => send execute s id c next fate
  | _ => s

def start (s : System σ C R V) (id : ℕ) (call : K) : System σ C R V :=
  match s.calls id with
  | none => { s with calls := Function.update s.calls id (some (script call)) }
  | some _ => s

def step (s : System σ C R V) : Action K ε → System σ C R V
  | .start id call => start script s id call
  | .advance id fate => advance execute s id fate
  | .occur event => { s with server := environment event s.server }

end Step

variable {execute : C → σ → Option (σ × R)} {environment : ε → σ → σ}
  {script : K → Script C R V} {s : System σ C R V}

variable {id : ℕ} {c : C} {Q : σ → Prop}

theorem executed_of_eq_some {t t' : σ} {r : R} (h : execute c t = some (t', r)) :
    executed execute c t = t' := by
  rw [executed, h]
  rfl

theorem executed_of_eq_none {t : σ} (h : execute c t = none) :
    executed execute c t = t := by
  rw [executed, h]
  rfl

theorem advance_of_calls {next : R → Script C R V} (h : s.calls id = some (.send c next))
    (fate : Fate) :
    advance execute s id fate = send execute s id c next fate := by
  rw [advance, h]

theorem advance_eq_self (h : ∀ c next, s.calls id ≠ some (.send c next)) (fate : Fate) :
    advance execute s id fate = s := by
  rcases hcall : s.calls id with _ | v | ⟨c, next⟩
  · rw [advance, hcall]
  · rw [advance, hcall]
  · exact absurd hcall (h c next)

theorem server_send (id : ℕ) (c : C) (next : R → Script C R V) (fate : Fate) :
    (send execute s id c next fate).server = (executed execute c)^[match fate with
      | .lost n => n
      | .answered n => n + 1] s.server := by
  cases fate with
  | lost n => rfl
  | answered n =>
    simp only [send, Function.iterate_succ_apply']
    rcases h : execute c ((executed execute c)^[n] s.server) with _ | ⟨t', r⟩
    · exact (executed_of_eq_none h).symm
    · exact (executed_of_eq_some h).symm

theorem calls_send_self (id : ℕ) (c : C) (next : R → Script C R V) (fate : Fate) :
    (send execute s id c next fate).calls id = none ∨
      ∃ r, (send execute s id c next fate).calls id = some (next r) := by
  cases fate with
  | lost n => exact .inl (Function.update_self ..)
  | answered n =>
    simp only [send]
    rcases execute c ((executed execute c)^[n] s.server) with _ | ⟨t', r⟩
    · exact .inl (Function.update_self ..)
    · exact .inr ⟨r, Function.update_self ..⟩

theorem calls_send_answered {n : ℕ} {next : R → Script C R V} {t : σ} {r : R}
    (h : execute c ((executed execute c)^[n] s.server) = some (t, r)) :
    (send execute s id c next (.answered n)).calls id = some (next r) := by
  simp only [send, h]
  exact Function.update_self ..

theorem calls_send_ne {id' : ℕ} (h : id' ≠ id) (c : C) (next : R → Script C R V) (fate : Fate) :
    (send execute s id c next fate).calls id' = s.calls id' := by
  cases fate with
  | lost n => exact Function.update_of_ne h ..
  | answered n =>
    simp only [send]
    rcases execute c ((executed execute c)^[n] s.server) with _ | ⟨t', r⟩
    · exact Function.update_of_ne h ..
    · exact Function.update_of_ne h ..

theorem calls_advance_ne {id' : ℕ} (h : id' ≠ id) (fate : Fate) :
    (advance execute s id fate).calls id' = s.calls id' := by
  rcases hcall : s.calls id with _ | v | ⟨c, next⟩
  · rw [advance, hcall]
  · rw [advance, hcall]
  · rw [advance_of_calls hcall, calls_send_ne h]

theorem server_start (id : ℕ) (call : K) : (start script s id call).server = s.server := by
  rw [start]
  cases s.calls id <;> rfl

theorem calls_start_ne {id' : ℕ} (h : id' ≠ id) (call : K) :
    (start script s id call).calls id' = s.calls id' := by
  rw [start]
  cases s.calls id with
  | none => exact Function.update_of_ne h ..
  | some other => rfl

theorem calls_start_of_none (h : s.calls id = none) (call : K) :
    (start script s id call).calls id = some (script call) := by
  rw [start, h]
  exact Function.update_self ..

theorem start_of_some {other : Script C R V} (h : s.calls id = some other) (call : K) :
    start script s id call = s := by
  rw [start, h]

/-! ## What all scripts say -/

/-- Of the calls with these ids: a property of every command that is still to come. -/
def EveryOf (ids : ℕ → Prop) (P : C → (R → Script C R V) → Prop) (s : System σ C R V) : Prop :=
  ∀ id, ids id → ∀ todo, s.calls id = some todo → todo.Every P

theorem EveryOf.step {ids : ℕ → Prop} {P : C → (R → Script C R V) → Prop} (hs : EveryOf ids P s)
    {action : Action K ε}
    (hstart : ∀ id call, action = .start id call → ids id → (script call).Every P) :
    EveryOf ids P (step execute environment script s action) := by
  intro id hid todo htodo
  cases action with
  | start id' call =>
    by_cases h : id = id'
    · subst h
      rcases hcall : s.calls id with _ | other
      · rw [Scripts.step, calls_start_of_none hcall] at htodo
        obtain rfl := Option.some.inj htodo
        exact hstart id call rfl hid
      · rw [Scripts.step, start_of_some hcall] at htodo
        exact hs id hid todo htodo
    · rw [Scripts.step, calls_start_ne h] at htodo
      exact hs id hid todo htodo
  | advance id' fate =>
    rw [Scripts.step] at htodo
    by_cases h : id = id'
    · subst h
      rcases hcall : s.calls id with _ | v | ⟨c, next⟩
      · rw [advance_eq_self (by simp [hcall])] at htodo
        exact hs id hid todo htodo
      · rw [advance_eq_self (by simp [hcall])] at htodo
        exact hs id hid todo htodo
      · rw [advance_of_calls hcall] at htodo
        have hself : (send execute s id c next fate).calls id = none ∨ _ :=
          calls_send_self id c next fate
        rcases hself with hnone | ⟨r, hr⟩
        · rw [hnone] at htodo
          exact absurd htodo nofun
        · rw [hr] at htodo
          obtain rfl := Option.some.inj htodo
          exact (hs id hid _ hcall).2 r
    · rw [calls_advance_ne h] at htodo
      exact hs id hid todo htodo
  | occur event => exact hs id hid todo htodo

theorem every_run {ids : ℕ → Prop} {P : C → (R → Script C R V) → Prop} (hs : EveryOf ids P s)
    {actions : List (Action K ε)}
    (hstart : ∀ id call, .start id call ∈ actions → ids id → (script call).Every P) :
    EveryOf ids P (Runs.run (step execute environment script) s actions) := by
  induction actions generalizing s with
  | nil => exact hs
  | cons action actions ih =>
    refine ih (hs.step fun id call h => ?_) fun id call h => hstart id call (List.mem_cons_of_mem _ h)
    exact hstart id call (h ▸ List.mem_cons_self)

/-! ## What the commands keep -/

theorem iterate_executed (h : ∀ t t' r, Q t → execute c t = some (t', r) → Q t') (n : ℕ) {t : σ}
    (ht : Q t) :
    Q ((executed execute c)^[n] t) := by
  induction n with
  | zero => exact ht
  | succ n ih =>
    rw [Function.iterate_succ_apply']
    rcases hreply : execute c ((executed execute c)^[n] t) with _ | ⟨t', r⟩
    · rw [executed_of_eq_none hreply]
      exact ih
    · rw [executed_of_eq_some hreply]
      exact h _ t' r ih hreply

theorem server_step (hQ : Q s.server) {action : Action K ε}
    (hadvance : ∀ id fate, action = .advance id fate → ∀ c next,
      s.calls id = some (.send c next) → ∀ t t' r, Q t → execute c t = some (t', r) → Q t')
    (hoccur : ∀ event, action = .occur event → Q (environment event s.server)) :
    Q (step execute environment script s action).server := by
  cases action with
  | start id call =>
    rw [step, server_start]
    exact hQ
  | advance id fate =>
    rw [step]
    rcases hcall : s.calls id with _ | v | ⟨c, next⟩
    · rwa [advance_eq_self (by simp [hcall])]
    · rwa [advance_eq_self (by simp [hcall])]
    · rw [advance_of_calls hcall, server_send]
      exact iterate_executed (hadvance id fate rfl c next hcall) _ hQ
  | occur event => exact hoccur event rfl

/-- What the commands of a kind and the environment keep is kept where only such commands are
sent. -/
theorem server_run {P : C → Prop}
    (hexecute : ∀ c t t' r, P c → Q t → execute c t = some (t', r) → Q t')
    (henvironment : ∀ event t, Q t → Q (environment event t)) (hQ : Q s.server)
    (hcalls : EveryOf (fun _ => True) (fun c _ => P c) s) {actions : List (Action K ε)}
    (hstart : ∀ id call, .start id call ∈ actions → (script call).Every fun c _ => P c) :
    Q (Runs.run (step execute environment script) s actions).server := by
  induction actions generalizing s with
  | nil => exact hQ
  | cons action actions ih =>
    refine ih (server_step hQ (fun id fate _ c next hcall t t' r => ?_) fun event _ =>
      henvironment event _ hQ) (hcalls.step fun id call h _ => ?_) fun id call h => ?_
    · exact hexecute c t t' r (hcalls id trivial _ hcall).1
    · exact hstart id call (h ▸ List.mem_cons_self)
    · exact hstart id call (List.mem_cons_of_mem _ h)

/-! ## Debts -/

section Debts

variable (execute environment script) (owed : κ → σ → Prop) (pays : κ → C → Prop)

/-- Every debt of the server has a call in flight that pays it with its next command. -/
def Covered (s : System σ C R V) : Prop :=
  ∀ k, owed k s.server → ∃ id c next, s.calls id = some (.send c next) ∧ pays k c

/-- A command that incurs a debt is followed by one that pays it. -/
def PaysNext (c : C) (next : R → Script C R V) : Prop :=
  ∀ k t t' r, ¬owed k t → execute c t = some (t', r) → owed k t' →
    ∃ c' next', next r = .send c' next' ∧ pays k c'

/-- A command that pays reaches the server; one that incurs a debt is answered at once. -/
def Careful (s : System σ C R V) (action : Action K ε) : Prop :=
  ∀ id fate, action = .advance id fate → ∀ c next, s.calls id = some (.send c next) →
    (∀ k, pays k c → fate ≠ .lost 0) ∧
      ∀ k, ¬owed k s.server → owed k (send execute s id c next fate).server → fate = .answered 0

variable {execute environment script owed pays}

theorem not_owed_send (hpays : ∀ k c, pays k c → ∀ t, ¬owed k (executed execute c t)) {k : κ}
    {id : ℕ} {c : C} {next : R → Script C R V} {fate : Fate} (hc : pays k c)
    (hfate : fate ≠ .lost 0) : ¬owed k (send execute s id c next fate).server := by
  rw [server_send]
  match fate, hfate with
  | .lost (n + 1), _ =>
    simp only [Function.iterate_succ_apply']
    exact hpays k c hc _
  | .answered n, _ =>
    simp only [Function.iterate_succ_apply']
    exact hpays k c hc _

theorem covered_send {k : κ} {id : ℕ} {c : C} {next : R → Script C R V}
    (hnext : PaysNext execute owed pays c next) (hbefore : ¬owed k s.server)
    (hafter : owed k (send execute s id c next (.answered 0)).server) :
    ∃ id' c' next', (send execute s id c next (.answered 0)).calls id' = some (.send c' next') ∧
      pays k c' := by
  simp only [send, Function.iterate_zero_apply] at hafter ⊢
  rcases hreply : execute c s.server with _ | ⟨t', r⟩
  · rw [hreply] at hafter
    exact absurd hafter hbefore
  · rw [hreply] at hafter
    obtain ⟨c', next', hr, hc'⟩ := hnext k _ t' r hbefore hreply hafter
    exact ⟨id, c', next', (Function.update_self ..).trans (congrArg some hr), hc'⟩

theorem Covered.step (hcovered : Covered owed pays s)
    (hpays : ∀ k c, pays k c → ∀ t, ¬owed k (executed execute c t))
    (hevent : ∀ k event t, owed k (environment event t) → owed k t)
    (hnext : EveryOf (fun _ => True) (PaysNext execute owed pays) s) {action : Action K ε}
    (hcareful : Careful execute owed pays s action) :
    Covered owed pays (step execute environment script s action) := by
  intro k howed
  cases action with
  | start id call =>
    rw [Scripts.step, server_start] at howed
    obtain ⟨id', c, next, hcall, hc⟩ := hcovered k howed
    refine ⟨id', c, next, ?_, hc⟩
    by_cases h : id' = id
    · subst h
      rw [Scripts.step, start_of_some hcall]
      exact hcall
    · rw [Scripts.step, calls_start_ne h]
      exact hcall
  | occur event => exact hcovered k (hevent k event _ howed)
  | advance id fate =>
    rw [Scripts.step] at howed ⊢
    by_cases hsends : ∃ c next, s.calls id = some (.send c next)
    · obtain ⟨c, next, hcall⟩ := hsends
      rw [advance_of_calls hcall] at howed ⊢
      obtain ⟨hpaid, hanswered⟩ := hcareful id fate rfl c next hcall
      by_cases hbefore : owed k s.server
      · obtain ⟨id', c', next', hcall', hc'⟩ := hcovered k hbefore
        -- the call that is about to pay has not paid now, so it is another one
        have hne : id' ≠ id := by
          rintro rfl
          rw [hcall'] at hcall
          obtain ⟨rfl, rfl⟩ := Script.send.inj (Option.some.inj hcall)
          exact not_owed_send hpays hc' (hpaid k hc') howed
        exact ⟨id', c', next', (calls_send_ne hne ..).trans hcall', hc'⟩
      · obtain rfl := hanswered k hbefore howed
        exact covered_send (hnext id trivial _ hcall).1 hbefore howed
    · rw [advance_eq_self fun c next h => hsends ⟨c, next, h⟩] at howed ⊢
      exact hcovered k howed

theorem Covered.run (hcovered : Covered owed pays s)
    (hpays : ∀ k c, pays k c → ∀ t, ¬owed k (executed execute c t))
    (hevent : ∀ k event t, owed k (environment event t) → owed k t)
    (hnext : EveryOf (fun _ => True) (PaysNext execute owed pays) s)
    (hscript : ∀ call, (script call).Every (PaysNext execute owed pays))
    {actions : List (Action K ε)}
    (hcareful : Runs.Meets (Scripts.step execute environment script)
      (Careful execute owed pays) s actions) :
    Covered owed pays (Runs.run (Scripts.step execute environment script) s actions) := by
  refine (Runs.run_invariant_of_meets (P := fun s => Covered owed pays s ∧
    EveryOf (fun _ => True) (PaysNext execute owed pays) s) (fun s action hs hok => ?_)
    ⟨hcovered, hnext⟩ hcareful).1
  exact ⟨hs.1.step hpays hevent hs.2 hok, hs.2.step fun _ call _ _ => hscript call⟩

end Debts

end Scripts
