import Mathlib.Data.List.Chain

/-!
# Streaks

A monitor that reads one entry after the other and remembers only where the current streak has
begun, where it ends and how long it is. Entries that do not count leave the streak as it is;
an entry that counts is good and close to the last one, or else the streak begins anew.

`Streak` is what a list of entries has to be for the monitor to remember `first`, `last` and
`length`; `Streak.skip`, `Streak.snoc` and `Streak.alone` are the moves of the monitor.
-/

namespace Streaks

universe u v

variable {ε : Type u} {τ : Type v}

/-- The entries of a stretch that count are good, they happen at these times, and each is close
to the one before it. -/
structure Stretch (counts : ε → Bool) (good : ε → Prop) (time : ε → Option τ)
    (close : τ → τ → Prop) (stretch : List ε) (times : List τ) : Prop where
  observed : (stretch.filter counts).map time = times.map some
  good : ∀ e ∈ stretch, counts e = true → good e
  steady : times.IsChain close

/-- The entries end with a stretch from `first` to `last`, with so many entries that count. -/
def Streak (counts : ε → Bool) (good : ε → Prop) (time : ε → Option τ) (close : τ → τ → Prop)
    (entries : List ε) (first last : τ) (length : ℕ) : Prop :=
  ∃ skipped stretch times, entries = skipped ++ stretch ∧
    Stretch counts good time close stretch times ∧
    times.head? = some first ∧ times.getLast? = some last ∧ times.length = length

variable {counts : ε → Bool} {good : ε → Prop} {time : ε → Option τ} {close : τ → τ → Prop}

namespace Stretch

variable {stretch : List ε} {times : List τ} {e : ε}

theorem nil : Stretch counts good time close [] [] :=
  ⟨rfl, fun _ hmem => absurd hmem List.not_mem_nil, List.isChain_nil⟩

theorem skip (h : Stretch counts good time close stretch times) (he : counts e = false) :
    Stretch counts good time close (stretch ++ [e]) times where
  observed := by
    rw [List.filter_append, List.filter_singleton, he]
    simpa using h.observed
  good := by
    intro e' hmem hcounts
    rcases List.mem_append.mp hmem with hmem | hmem
    · exact h.good e' hmem hcounts
    · obtain rfl := List.mem_singleton.mp hmem
      rw [he] at hcounts
      exact absurd hcounts Bool.false_ne_true
  steady := h.steady

theorem snoc (h : Stretch counts good time close stretch times) (he : counts e = true)
    (hgood : good e) {t : τ} (ht : time e = some t)
    (hclose : ∀ last ∈ times.getLast?, close last t) :
    Stretch counts good time close (stretch ++ [e]) (times ++ [t]) where
  observed := by
    rw [List.filter_append, List.filter_singleton, he, List.map_append, List.map_append,
      h.observed]
    simp [ht]
  good := by
    intro e' hmem hcounts
    rcases List.mem_append.mp hmem with hmem | hmem
    · exact h.good e' hmem hcounts
    · obtain rfl := List.mem_singleton.mp hmem
      exact hgood
  steady := by
    refine List.isChain_append.mpr ⟨h.steady, List.isChain_singleton _, ?_⟩
    intro last hlast t' ht'
    obtain rfl : t = t' := by simpa using ht'
    exact hclose last hlast

end Stretch

namespace Streak

variable {entries : List ε} {first last : τ} {length : ℕ} {e : ε}

theorem alone (he : counts e = true) (hgood : good e) {t : τ} (ht : time e = some t) :
    Streak counts good time close (entries ++ [e]) t t 1 :=
  ⟨entries, [e], [t], rfl, Stretch.nil.snoc he hgood ht (by simp), rfl, rfl, rfl⟩

theorem skip (h : Streak counts good time close entries first last length)
    (he : counts e = false) : Streak counts good time close (entries ++ [e]) first last length := by
  obtain ⟨skipped, stretch, times, rfl, hstretch, hfirst, hlast, hlength⟩ := h
  exact ⟨skipped, stretch ++ [e], times, List.append_assoc .., hstretch.skip he, hfirst, hlast,
    hlength⟩

theorem snoc (h : Streak counts good time close entries first last length)
    (he : counts e = true) (hgood : good e) {t : τ} (ht : time e = some t) (hclose : close last t) :
    Streak counts good time close (entries ++ [e]) first t (length + 1) := by
  obtain ⟨skipped, stretch, times, rfl, hstretch, hfirst, hlast, rfl⟩ := h
  have hne : times ≠ [] := by
    rintro rfl
    cases hfirst
  refine ⟨skipped, stretch ++ [e], times ++ [t], List.append_assoc .., ?_, ?_,
    List.getLast?_concat, List.length_append⟩
  · refine hstretch.snoc he hgood ht fun last' hlast' => ?_
    obtain rfl := Option.some.inj (hlast.symm.trans hlast')
    exact hclose
  · rw [List.head?_append_of_ne_nil _ hne, hfirst]

end Streak

end Streaks
