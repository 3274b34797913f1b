import Mathlib.Data.Int.Notation
import Mathlib.Data.List.Basic

/-!
# Runs of a step function

A system whose every nondeterministic choice (which process moves, what the
clock reads, whether a call fails) is an input is a function
`step : σ → α → σ`. This file is the induction kit for such systems:

* `run` — the state after a list of inputs, and `trace` — the same run with
  every intermediate state;
* `run_invariant` / `run_invariant_of_meets` — what one step preserves holds
  after every run (in the second form: after every run whose steps all meet a
  side condition);
* `run_history_invariant` — the same for what also depends on the steps taken so
  far;
* `countP_trace_le` — how often a step of a kind can be taken, by a potential;
* `trace_pairwise` — how an earlier entry of a run constrains the later ones:
  the earlier step establishes a *stable* fact, and the fact decides the later
  step. `AtMostOnce` is the special case "no two entries are both marked".
-/

namespace Runs

universe u v

variable {σ : Type u} {α : Type v} (step : σ → α → σ)

/-- The state after taking the inputs in order. -/
def run (s : σ) (as : List α) : σ := as.foldl step s

@[simp] theorem run_nil (s : σ) : run step s [] = s := rfl

@[simp] theorem run_cons (s : σ) (a : α) (as : List α) :
    run step s (a :: as) = run step (step s a) as := rfl

theorem run_append (s : σ) (as bs : List α) :
    run step s (as ++ bs) = run step (run step s as) bs := List.foldl_append

/-- One entry of a trace: the input and the states around it. -/
structure Entry (σ : Type u) (α : Type v) where
  /-- the state before the step -/
  pre : σ
  /-- the input -/
  action : α
  /-- the state after the step -/
  post : σ

/-- A run with every intermediate state. -/
def trace : σ → List α → List (Entry σ α)
  | _, [] => []
  | s, a :: as => ⟨s, a, step s a⟩ :: trace (step s a) as

theorem trace_append (s : σ) (as bs : List α) :
    trace step s (as ++ bs) = trace step s as ++ trace step (run step s as) bs := by
  induction as generalizing s with
  | nil => rfl
  | cons a as ih => rw [List.cons_append, trace, ih, trace, run_cons, List.cons_append]

variable {step}

variable {as : List α} {P : σ → Prop} {ok : σ → α → Prop}

theorem action_mem_of_trace {s : σ} {e : Entry σ α} (he : e ∈ trace step s as) :
    e.action ∈ as := by
  induction as generalizing s with
  | nil => exact absurd he List.not_mem_nil
  | cons a as ih =>
    rcases List.mem_cons.mp he with rfl | he
    · exact List.mem_cons_self
    · exact List.mem_cons_of_mem a (ih he)

theorem mem_trace_iff {s : σ} {e : Entry σ α} :
    e ∈ trace step s as ↔ ∃ before after, as = before ++ e.action :: after ∧
      e.pre = run step s before ∧ e.post = step e.pre e.action := by
  constructor
  · intro he
    induction as generalizing s with
    | nil => exact absurd he List.not_mem_nil
    | cons a as ih =>
      rcases List.mem_cons.mp he with rfl | he
      · exact ⟨[], as, rfl, rfl, rfl⟩
      · obtain ⟨before, after, rfl, hpre, hpost⟩ := ih he
        exact ⟨a :: before, after, rfl, hpre, hpost⟩
  · rintro ⟨before, after, rfl, hpre, hpost⟩
    rw [trace_append, trace, ← hpre, ← hpost]
    exact List.mem_append_right _ List.mem_cons_self

theorem step_mem_trace (s : σ) (before : List α) (a : α) (after : List α) :
    ⟨run step s before, a, step (run step s before) a⟩ ∈ trace step s (before ++ a :: after) :=
  mem_trace_iff.mpr ⟨before, after, rfl, rfl, rfl⟩

/-! ## Invariants -/

theorem run_invariant (hP : ∀ s a, P s → P (step s a)) {s : σ} (hs : P s) (as : List α) :
    P (run step s as) := by
  induction as generalizing s with
  | nil => exact hs
  | cons a as ih => exact ih (hP s a hs)

variable (step) in
/-- Every step of the run meets the side condition `ok` on its state and input. -/
def Meets (ok : σ → α → Prop) (s : σ) (as : List α) : Prop :=
  ∀ e ∈ trace step s as, ok e.pre e.action

theorem meets_cons {s : σ} {a : α} :
    Meets step ok s (a :: as) ↔ ok s a ∧ Meets step ok (step s a) as := by
  simp only [Meets, trace, List.forall_mem_cons]

theorem Meets.left {s : σ} {bs : List α} (h : Meets step ok s (as ++ bs)) :
    Meets step ok s as := by
  intro e he
  refine h e ?_
  rw [trace_append]
  exact List.mem_append_left _ he

/-- So does the rest of the run. -/
theorem Meets.right {s : σ} {bs : List α} (h : Meets step ok s (as ++ bs)) :
    Meets step ok (run step s as) bs := by
  intro e he
  refine h e ?_
  rw [trace_append]
  exact List.mem_append_right _ he

theorem meets_trivial (s : σ) (as : List α) : Meets step (fun _ _ => True) s as :=
  fun _ _ => trivial

theorem run_invariant_of_meets (hP : ∀ s a, P s → ok s a → P (step s a)) {s : σ} (hs : P s)
    (has : Meets step ok s as) : P (run step s as) := by
  induction as generalizing s with
  | nil => exact hs
  | cons a as ih =>
    obtain ⟨ha, has⟩ := meets_cons.mp has
    exact ih (hP s a hs ha) has

theorem trace_invariant_of_meets (hP : ∀ s a, P s → ok s a → P (step s a)) {s : σ} (hs : P s)
    (has : Meets step ok s as) :
    ∀ e ∈ trace step s as, P e.pre ∧ ok e.pre e.action ∧ e.post = step e.pre e.action := by
  induction as generalizing s with
  | nil => intro e he; exact absurd he List.not_mem_nil
  | cons a as ih =>
    obtain ⟨ha, has⟩ := meets_cons.mp has
    intro e he
    rw [trace] at he
    rcases List.mem_cons.mp he with rfl | he
    · exact ⟨hs, ha, rfl⟩
    · exact ih (hP s a hs ha) has e he

theorem forall_trace_iff_meets {Q : Entry σ α → Prop} (hP : ∀ s a, P s → ok s a → P (step s a))
    (hQ : ∀ s a, P s → (Q ⟨s, a, step s a⟩ ↔ ok s a)) {s : σ} (hs : P s) (as : List α) :
    (∀ e ∈ trace step s as, Q e) ↔ Meets step ok s as := by
  induction as generalizing s with
  | nil => exact ⟨fun _ _ he => absurd he List.not_mem_nil, fun _ _ he => absurd he List.not_mem_nil⟩
  | cons a as ih =>
    rw [trace, List.forall_mem_cons, meets_cons, hQ s a hs]
    exact and_congr_right fun hok => ih (hP s a hs hok)

theorem trace_invariant (hP : ∀ s a, P s → P (step s a)) {s : σ} (hs : P s) :
    ∀ e ∈ trace step s as, P e.pre ∧ e.post = step e.pre e.action := by
  intro e he
  obtain ⟨hpre, -, hpost⟩ := trace_invariant_of_meets (fun t a ht _ => hP t a ht) hs
    (meets_trivial s as) e he
  exact ⟨hpre, hpost⟩

theorem run_history_invariant_of_meets {P : List (Entry σ α) → σ → Prop}
    (hP : ∀ l s a, P l s → ok s a → P (l ++ [⟨s, a, step s a⟩]) (step s a)) {s : σ} (hs : P [] s)
    (has : Meets step ok s as) : P (trace step s as) (run step s as) := by
  suffices h : ∀ l s, P l s → Meets step ok s as → P (l ++ trace step s as) (run step s as) from
    h [] s hs has
  clear hs has
  induction as with
  | nil =>
    intro l s hl _
    rw [trace, List.append_nil]
    exact hl
  | cons a as ih =>
    intro l s hl has
    obtain ⟨ha, has⟩ := meets_cons.mp has
    rw [trace, List.append_cons]
    exact ih _ _ (hP l s a hl ha) has

theorem run_history_invariant {P : List (Entry σ α) → σ → Prop}
    (hP : ∀ l s a, P l s → P (l ++ [⟨s, a, step s a⟩]) (step s a)) {s : σ} (hs : P [] s)
    (as : List α) : P (trace step s as) (run step s as) :=
  run_history_invariant_of_meets (fun l t a hl _ => hP l t a hl) hs (meets_trivial s as)

theorem exists_establishing {D : σ → Prop} {s : σ} (hs : ¬ D s) (h : D (run step s as)) :
    ∃ e ∈ trace step s as, ¬ D e.pre ∧ D e.post := by
  induction as generalizing s with
  | nil => exact absurd h hs
  | cons a as ih =>
    by_cases hD : D (step s a)
    · exact ⟨⟨s, a, step s a⟩, List.mem_cons_self, hs, hD⟩
    · obtain ⟨e, he, hnew⟩ := ih hD h
      exact ⟨e, List.mem_cons_of_mem _ he, hnew⟩

/-! ## Counting steps -/

theorem countP_trace_le (hP : ∀ s a, P s → ok s a → P (step s a)) (marked : Entry σ α → Bool)
    (potential : σ → ℤ) (hstep : ∀ s a, P s → ok s a →
      potential s + (if marked ⟨s, a, step s a⟩ then 1 else 0) ≤ potential (step s a)) {s : σ}
    (hs : P s) (has : Meets step ok s as) :
    potential s + ((trace step s as).countP marked : ℤ) ≤ potential (run step s as) := by
  induction as generalizing s with
  | nil => simp [trace]
  | cons a as ih =>
    obtain ⟨ha, has⟩ := meets_cons.mp has
    have hfirst := hstep s a hs ha
    have hrest := ih (hP s a hs ha) has
    have hcount : ((trace step s (a :: as)).countP marked : ℤ) =
        (trace step (step s a) as).countP marked +
          (if marked ⟨s, a, step s a⟩ then 1 else 0) := by
      rw [trace, List.countP_cons]
      split <;> simp
    rw [hcount, run_cons]
    omega

/-! ## Earlier and later steps -/

/-- A fact of a state that every step keeps, under the invariant `P`. -/
def Stable (step : σ → α → σ) (P D : σ → Prop) : Prop := ∀ s a, P s → D s → D (step s a)

theorem trace_pairwise_of_meets {R : Entry σ α → Entry σ α → Prop}
    (hP : ∀ s a, P s → ok s a → P (step s a))
    (hR : ∀ s a, P s → ok s a → ∃ D : σ → Prop, D (step s a) ∧
      (∀ t b, P t → ok t b → D t → D (step t b)) ∧
      ∀ t b, P t → ok t b → D t → R ⟨s, a, step s a⟩ ⟨t, b, step t b⟩) {s : σ} (hs : P s)
    (has : Meets step ok s as) :
    (trace step s as).Pairwise R := by
  induction as generalizing s with
  | nil => exact List.Pairwise.nil
  | cons a as ih =>
    obtain ⟨ha, has⟩ := meets_cons.mp has
    rw [trace]
    refine List.pairwise_cons.mpr ⟨?_, ih (hP s a hs ha) has⟩
    obtain ⟨D, hD, hstable, hrel⟩ := hR s a hs ha
    have hboth : ∀ t b, P t ∧ D t → ok t b → P (step t b) ∧ D (step t b) :=
      fun t b ht hb => ⟨hP t b ht.1 hb, hstable t b ht.1 hb ht.2⟩
    intro e he
    obtain ⟨⟨hPe, hDe⟩, hok, hpost⟩ :=
      trace_invariant_of_meets hboth ⟨hP s a hs ha, hD⟩ has e he
    have := hrel e.pre e.action hPe hok hDe
    rw [← hpost] at this
    exact this

theorem trace_pairwise {R : Entry σ α → Entry σ α → Prop} (hP : ∀ s a, P s → P (step s a))
    (hR : ∀ s a, P s → ∃ D : σ → Prop, D (step s a) ∧ Stable step P D ∧
      ∀ t b, P t → D t → R ⟨s, a, step s a⟩ ⟨t, b, step t b⟩) {s : σ} (hs : P s) (as : List α) :
    (trace step s as).Pairwise R := by
  refine trace_pairwise_of_meets (fun t a ht _ => hP t a ht) (fun t a ht _ => ?_) hs
    (meets_trivial s as)
  obtain ⟨D, hD, hstable, hrel⟩ := hR t a ht
  exact ⟨D, hD, fun u b hu _ hDu => hstable u b hu hDu, fun u b hu _ hDu => hrel u b hu hDu⟩

/-- No two entries of the trace are both marked by `E`. -/
def AtMostOnce (E : Entry σ α → Prop) (l : List (Entry σ α)) : Prop :=
  l.Pairwise fun e e' => ¬ (E e ∧ E e')

theorem atMostOnce_of_meets {D : σ → Prop} {E : Entry σ α → Prop}
    (hP : ∀ s a, P s → ok s a → P (step s a)) (hstable : ∀ s a, P s → ok s a → D s → D (step s a))
    (hE : ∀ s a, P s → ok s a → E ⟨s, a, step s a⟩ → ¬ D s ∧ D (step s a)) {s : σ} (hs : P s)
    (has : Meets step ok s as) :
    AtMostOnce E (trace step s as) := by
  refine trace_pairwise_of_meets hP (fun t a ht hta => ?_) hs has
  by_cases hEt : E ⟨t, a, step t a⟩
  · refine ⟨D, (hE t a ht hta hEt).2, hstable, ?_⟩
    rintro t' b ht' hb hD' ⟨-, hE'⟩
    exact (hE t' b ht' hb hE').1 hD'
  · exact ⟨fun _ => True, trivial, fun _ _ _ _ _ => trivial, fun _ _ _ _ _ h => hEt h.1⟩

theorem atMostOnce_of_stable {D : σ → Prop} {E : Entry σ α → Prop} (hP : ∀ s a, P s → P (step s a))
    (hstable : Stable step P D) (hE : ∀ s a, P s → E ⟨s, a, step s a⟩ → ¬ D s ∧ D (step s a))
    {s : σ} (hs : P s) (as : List α) : AtMostOnce E (trace step s as) :=
  atMostOnce_of_meets (fun t a ht _ => hP t a ht) (fun t a ht _ hD => hstable t a ht hD)
    (fun t a ht _ h => hE t a ht h) hs (meets_trivial s as)

end Runs
