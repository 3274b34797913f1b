import Mathlib.Data.List.Basic

/-!
# Sealed logs

An append-only log over a type of entries some of which are *terminal*: a
terminal entry closes the log, and a push to a closed log is dropped. Every log
built by `push` is `Sealed` — a terminal entry, if there is one, is the last —
and a closed log is a fixed point of `push`.
-/

namespace SealedLog

variable {κ : Type} (terminal : κ → Bool)

/-- The log holds a terminal entry. -/
def Closed (l : List κ) : Prop := ∃ k ∈ l, terminal k = true

instance (l : List κ) : Decidable (Closed terminal l) :=
  inferInstanceAs (Decidable (∃ k ∈ l, terminal k = true))

/-- Append an entry unless the log is closed. -/
def push (l : List κ) (k : κ) : List κ := if Closed terminal l then l else l ++ [k]

/-- Only the last entry may be terminal. -/
def Sealed (l : List κ) : Prop := ∀ k ∈ l.dropLast, terminal k = false

variable {terminal}

theorem not_closed_nil : ¬ Closed terminal [] := by
  rintro ⟨k, hk, -⟩
  exact absurd hk List.not_mem_nil

theorem push_of_closed {l : List κ} (h : Closed terminal l) (k : κ) : push terminal l k = l :=
  if_pos h

theorem push_of_open {l : List κ} (h : ¬ Closed terminal l) (k : κ) :
    push terminal l k = l ++ [k] := if_neg h

theorem closed_push {l : List κ} {k : κ} :
    Closed terminal (push terminal l k) ↔ Closed terminal l ∨ terminal k = true := by
  by_cases h : Closed terminal l
  · rw [push_of_closed h]
    exact ⟨Or.inl, fun _ => h⟩
  · rw [push_of_open h]
    constructor
    · rintro ⟨x, hx, ht⟩
      rcases List.mem_append.mp hx with hx | hx
      · exact Or.inl ⟨x, hx, ht⟩
      · rw [List.mem_singleton.mp hx] at ht
        exact Or.inr ht
    · rintro (hl | ht)
      · exact absurd hl h
      · exact ⟨k, by simp, ht⟩

theorem sealed_nil : Sealed terminal [] := fun _ hk => absurd hk List.not_mem_nil

theorem sealed_push {l : List κ} (h : Sealed terminal l) (k : κ) :
    Sealed terminal (push terminal l k) := by
  by_cases hc : Closed terminal l
  · rw [push_of_closed hc]
    exact h
  · rw [push_of_open hc, Sealed, List.dropLast_concat]
    intro x hx
    rcases ht : terminal x with _ | _
    · rfl
    · exact absurd ⟨x, hx, ht⟩ hc

end SealedLog
