import Mathlib.Logic.Function.Basic
import Mathlib.Data.Nat.Notation

/-!
# Change feeds

A keyed state that is published as a feed of changes: a *view* assigns a value, or
nothing, to every key; a *change* assigns one key; a message of a feed is a change
or a *snapshot*, which replaces the whole view. A receiver replays the messages in
the order received. What the copies of a publisher rest on:

* `replay_at` — a replayed view is decided key by key, by the last message that
  mentions the key;
* `apply_replay_apply` — a change that comes again at the end of a feed absorbs its
  own earlier effect, so that a snapshot may be taken while older changes are
  still queued;
* `applyAll_of_mem` — changes that all assign a key one value leave it there.
-/

namespace ChangeFeed

universe u v

variable {κ : Type u} {ν : κ → Type v} [DecidableEq κ]

/-- A value, or nothing, for every key. -/
abbrev View (ν : κ → Type v) : Type (max u v) := (k : κ) → Option (ν k)

/-- An assignment of one key; `none` removes it. -/
structure Change (ν : κ → Type v) where
  key : κ
  value : Option (ν key)

/-- The view after a change. -/
def Change.apply (c : Change ν) (w : View ν) : View ν := Function.update w c.key c.value

@[simp] theorem Change.apply_key (c : Change ν) (w : View ν) : c.apply w c.key = c.value :=
  Function.update_self ..

variable {k : κ} {w w' : View ν}

theorem Change.apply_of_ne (c : Change ν) (w : View ν) (h : k ≠ c.key) :
    c.apply w k = w k := Function.update_of_ne h ..

theorem Change.apply_congr {c : Change ν} (h : ∀ k, k ≠ c.key → w k = w' k) :
    c.apply w = c.apply w' := by
  funext k
  by_cases hk : k = c.key
  · subst hk
    rw [apply_key, apply_key]
  · rw [apply_of_ne c w hk, apply_of_ne c w' hk, h k hk]

/-- A message of a feed. -/
inductive Message (ν : κ → Type v) where
  /-- replaces the view -/
  | snapshot (w : View ν)
  /-- assigns one key -/
  | change (c : Change ν)

/-- The view after a message. -/
def Message.apply : Message ν → View ν → View ν
  | .snapshot w, _ => w
  | .change c, w => c.apply w

/-- The view after the messages of a feed, in order. -/
def replay (messages : List (Message ν)) (w : View ν) : View ν :=
  messages.foldl (fun w m => m.apply w) w

theorem replay_append (messages messages' : List (Message ν)) (w : View ν) :
    replay (messages ++ messages') w = replay messages' (replay messages w) :=
  List.foldl_append ..

theorem Message.apply_at (m : Message ν) (h : w k = w' k) :
    m.apply w k = m.apply w' k := by
  rcases m with s | c
  · rfl
  · change c.apply w k = c.apply w' k
    by_cases hk : k = c.key
    · subst hk
      rw [Change.apply_key, Change.apply_key]
    · rw [c.apply_of_ne w hk, c.apply_of_ne w' hk, h]

theorem replay_at (messages : List (Message ν)) (h : w k = w' k) :
    replay messages w k = replay messages w' k := by
  induction messages generalizing w w' with
  | nil => exact h
  | cons m messages ih => exact ih (m.apply_at h)

/-- **Absorption.** A change at the end of a feed absorbs the effect that the same
key had before it: it does not matter whether the receiver started with it. -/
theorem apply_replay_apply (c : Change ν) (messages : List (Message ν)) (w : View ν) :
    c.apply (replay messages (c.apply w)) = c.apply (replay messages w) :=
  c.apply_congr fun _ hk => replay_at messages (c.apply_of_ne w hk)

/-! ## Feeds of changes -/

/-- The view after a list of changes. -/
def applyAll (changes : List (Change ν)) (w : View ν) : View ν :=
  replay (changes.map Message.change) w

@[simp] theorem applyAll_cons (c : Change ν) (changes : List (Change ν)) (w : View ν) :
    applyAll (c :: changes) w = applyAll changes (c.apply w) := rfl

theorem applyAll_append (changes changes' : List (Change ν)) (w : View ν) :
    applyAll (changes ++ changes') w = applyAll changes' (applyAll changes w) := by
  rw [applyAll, List.map_append, replay_append, applyAll, applyAll]

theorem applyAll_at (changes : List (Change ν)) (h : w k = w' k) :
    applyAll changes w k = applyAll changes w' k := replay_at _ h

theorem applyAll_of_not_mem {changes : List (Change ν)} (w : View ν)
    (h : ∀ c ∈ changes, c.key ≠ k) : applyAll changes w k = w k := by
  induction changes generalizing w with
  | nil => rfl
  | cons c changes ih =>
    obtain ⟨hc, hrest⟩ := List.forall_mem_cons.mp h
    rw [applyAll_cons, ih _ hrest, c.apply_of_ne w hc.symm]

theorem applyAll_of_mem {changes : List (Change ν)} (w : View ν) {x : Option (ν k)}
    (hmem : ∃ c ∈ changes, c.key = k) (hval : ∀ c ∈ changes, ∀ h : c.key = k, h ▸ c.value = x) :
    applyAll changes w k = x := by
  induction changes generalizing w with
  | nil =>
    obtain ⟨c, hc, -⟩ := hmem
    exact absurd hc List.not_mem_nil
  | cons c changes ih =>
    obtain ⟨hc, hrest⟩ := List.forall_mem_cons.mp hval
    rw [applyAll_cons]
    by_cases hlater : ∃ c ∈ changes, c.key = k
    · exact ih _ hlater hrest
    · -- the first change is the only one of the key
      have hnone : ∀ d ∈ changes, d.key ≠ k := fun d hd hk => hlater ⟨d, hd, hk⟩
      rw [applyAll_of_not_mem _ hnone]
      obtain ⟨c', hc', hk⟩ := hmem
      rcases List.mem_cons.mp hc' with rfl | hc'
      · subst hk
        rw [Change.apply_key]
        exact hc rfl
      · exact absurd hk (hnone c' hc')

end ChangeFeed
