import Mathlib.Data.Nat.Notation
import Mathlib.Logic.Function.Basic

/-!
# Fencing tokens

A resource that is claimed over and over: every claim draws the next *epoch*, and
the claimant keeps the epoch as its token. While a claimant works, another may
take the resource over, which makes the earlier token *stale*. The rule of the
pattern is that a claimant writes the outcome only under the newest token
(`Step.write`).

* `Board` — the newest epoch, the status of the resource, and the tokens held;
* `Step` — what a fenced system may do;
* `Board.Inv` — tokens are distinct and not ahead of the epoch, and the holder of
  the newest one finds the resource still `working`;
* `Step.status_of_closed` — a closed status is final.

A system refines the pattern by showing that each of its steps is a `Step` on the
board it displays.
-/

namespace Fencing

universe u v

/-- The claims on one resource. -/
structure Board (ι : Type u) (σ : Type v) where
  /-- the epoch of the newest claim -/
  epoch : ℕ
  /-- the status of the resource -/
  status : σ
  /-- the token of each claimant -/
  token : ι → Option ℕ

variable {ι : Type u} {σ : Type v} [DecidableEq ι]

/-- The claimant `i` draws the next epoch. -/
def Board.claim (b : Board ι σ) (i : ι) (working : σ) : Board ι σ where
  epoch := b.epoch + 1
  status := working
  token := Function.update b.token i (some (b.epoch + 1))

/-- The claimant `i` gives its token up. -/
def Board.release (b : Board ι σ) (i : ι) : Board ι σ :=
  { b with token := Function.update b.token i none }

/-- The claimant `i` writes the outcome `st` and gives its token up. -/
def Board.write (b : Board ι σ) (i : ι) (st : σ) : Board ι σ :=
  { b.release i with status := st }

/-- The steps of a fenced system: nobody claims a closed resource, and outcomes
are written under the newest token. -/
inductive Step (working : σ) (closed : σ → Prop) : Board ι σ → Board ι σ → Prop
  | idle (b : Board ι σ) : Step working closed b b
  | claim (b : Board ι σ) (i : ι) (hopen : ¬ closed b.status) :
      Step working closed b (b.claim i working)
  | release (b : Board ι σ) (i : ι) : Step working closed b (b.release i)
  | write (b : Board ι σ) (i : ι) (st : σ) (hi : b.token i = some b.epoch) :
      Step working closed b (b.write i st)

/-- The invariant of the pattern. -/
structure Board.Inv (working : σ) (b : Board ι σ) : Prop where
  /-- epochs are counted from one -/
  pos : ∀ i n, b.token i = some n → 0 < n
  /-- no token is ahead of the epoch -/
  le_epoch : ∀ i n, b.token i = some n → n ≤ b.epoch
  /-- a token has one holder -/
  inj : ∀ i j n, b.token i = some n → b.token j = some n → i = j
  /-- under the newest token the resource is still being worked on -/
  working : ∀ i, b.token i = some b.epoch → b.status = working

theorem Board.token_release {b : Board ι σ} {i j : ι} {n : ℕ}
    (h : (b.release i).token j = some n) : j ≠ i ∧ b.token j = some n := by
  by_cases hj : j = i
  · subst hj
    simp [Board.release] at h
  · exact ⟨hj, by simpa [Board.release, hj] using h⟩

theorem Board.token_claim {b : Board ι σ} {i j : ι} {n : ℕ} {working : σ}
    (h : (b.claim i working).token j = some n) :
    (j = i ∧ n = b.epoch + 1) ∨ (j ≠ i ∧ b.token j = some n) := by
  by_cases hj : j = i
  · subst hj
    simp only [Board.claim, Function.update_self, Option.some.injEq] at h
    exact Or.inl ⟨rfl, h.symm⟩
  · exact Or.inr ⟨hj, by simpa [Board.claim, hj] using h⟩

omit [DecidableEq ι] in
/-- Before any claim. -/
theorem Board.inv_of_no_token {b : Board ι σ} {working : σ} (h : ∀ i, b.token i = none) :
    b.Inv working where
  pos := fun i n hi => by rw [h i] at hi; cases hi
  le_epoch := fun i n hi => by rw [h i] at hi; cases hi
  inj := fun i j n hi => by rw [h i] at hi; cases hi
  working := fun i hi => by rw [h i] at hi; cases hi

variable {working : σ} {closed : σ → Prop} {b b' : Board ι σ}

theorem Step.inv (h : Step working closed b b') (hb : b.Inv working) : b'.Inv working := by
  cases h with
  | idle => exact hb
  | claim i hopen =>
    refine ⟨fun j n hj => ?_, fun j n hj => ?_, fun j k n hj hk => ?_, fun j hj => rfl⟩
    · rcases Board.token_claim hj with ⟨-, rfl⟩ | ⟨-, hj⟩
      · exact Nat.succ_pos _
      · exact hb.pos j n hj
    · rcases Board.token_claim hj with ⟨-, rfl⟩ | ⟨-, hj⟩
      · exact Nat.le_refl _
      · exact Nat.le_succ_of_le (hb.le_epoch j n hj)
    · -- the new token is ahead of the old ones
      rcases Board.token_claim hj with ⟨hji, hn⟩ | ⟨-, hj'⟩
      · rcases Board.token_claim hk with ⟨hki, -⟩ | ⟨-, hk'⟩
        · exact hji.trans hki.symm
        · have hle := hb.le_epoch k n hk'
          omega
      · rcases Board.token_claim hk with ⟨-, hn⟩ | ⟨-, hk'⟩
        · have hle := hb.le_epoch j n hj'
          omega
        · exact hb.inj j k n hj' hk'
  | release i =>
    refine ⟨fun j n hj => ?_, fun j n hj => ?_, fun j k n hj hk => ?_, fun j hj => ?_⟩
    · exact hb.pos j n (Board.token_release hj).2
    · exact hb.le_epoch j n (Board.token_release hj).2
    · exact hb.inj j k n (Board.token_release hj).2 (Board.token_release hk).2
    · exact hb.working j (Board.token_release hj).2
  | write i st hi =>
    refine ⟨fun j n hj => ?_, fun j n hj => ?_, fun j k n hj hk => ?_, fun j hj => ?_⟩
    · exact hb.pos j n (Board.token_release hj).2
    · exact hb.le_epoch j n (Board.token_release hj).2
    · exact hb.inj j k n (Board.token_release hj).2 (Board.token_release hk).2
    · -- the newest token was the writer's
      obtain ⟨hne, hj⟩ := Board.token_release hj
      exact absurd (hb.inj j i b.epoch hj hi) hne

theorem Step.status_of_closed (hworking : ¬ closed working) (h : Step working closed b b')
    (hb : b.Inv working) (hclosed : closed b.status) : b'.status = b.status := by
  cases h with
  | idle => rfl
  | claim i hopen => exact absurd hclosed hopen
  | release i => rfl
  | write i st hi =>
    rw [hb.working i hi] at hclosed
    exact absurd hclosed hworking

end Fencing
