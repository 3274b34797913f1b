import Opsia.Lib.Runs

/-!
# What one party sees of a run

A system takes inputs of several parties and answers each. A party does not depend on the others
when its answers are the ones it gets from a run of its own inputs alone. The rule for that is an
unwinding relation between states: related states answer the party alike, its inputs keep them
related, and the input of another party changes nothing that the relation is about (`observed_purge`).
-/

universe u v w

namespace Purge

variable {σ : Type u} {α : Type v} {ο : Type w} (step : σ → α → σ) (out : σ → α → ο)
  (mine : α → Bool)

/-- The answers to a party's own inputs in a run. -/
def observed (s : σ) (as : List α) : List ο :=
  ((Runs.trace step s as).filter fun e => mine e.action).map fun e => out e.pre e.action

/-- A relation of states that the party cannot tell apart, under inputs of a kind. -/
structure Unwinding (ok : α → Prop) (R : σ → σ → Prop) : Prop where
  /-- related states answer alike -/
  output : ∀ {s t a}, R s t → ok a → mine a = true → out s a = out t a
  /-- the party's inputs keep states related -/
  consistent : ∀ {s t a}, R s t → ok a → mine a = true → R (step s a) (step t a)
  /-- the inputs of others do not show -/
  respects : ∀ {s t a}, R s t → ok a → mine a = false → R (step s a) t

variable {step out mine}

/-- **From related states, a party gets the same answers with and without the inputs of others.** -/
theorem Unwinding.observed_purge {ok : α → Prop} {R : σ → σ → Prop}
    (h : Unwinding step out mine ok R) {s t : σ} (hst : R s t) {as : List α}
    (has : ∀ a ∈ as, ok a) :
    observed step out mine s as = observed step out mine t (as.filter mine) := by
  induction as generalizing s t with
  | nil => rfl
  | cons a as ih =>
    obtain ⟨ha, hrest⟩ := List.forall_mem_cons.mp has
    cases hmine : mine a with
    | true =>
      have hanswers := ih (h.consistent hst ha hmine) hrest
      rw [List.filter_cons_of_pos hmine]
      simp only [observed, Runs.trace, List.filter_cons_of_pos, hmine, List.map_cons]
      rw [h.output hst ha hmine]
      exact congrArg _ hanswers
    | false =>
      rw [List.filter_cons_of_neg (by simp [hmine]), ← ih (h.respects hst ha hmine) hrest]
      simp [observed, Runs.trace, hmine]

end Purge
