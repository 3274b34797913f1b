import Mathlib.Algebra.Group.Nat.Defs
import Mathlib.Tactic.Common

/-!
# Texts cut into lines

A text over any alphabet with a terminator is a sequence of complete lines and an unterminated
remainder. `eachLine` applies a function to the lines and to the remainder; what it gives for a text
that arrives in two parts depends on the first part through its remainder only.
-/

namespace Lines

variable {α : Type} [DecidableEq α] {terminator : α}

/-- What follows the last terminator. -/
def remainder (terminator : α) (text : List α) : List α :=
  (text.splitOn terminator).getLast (List.splitOn_ne_nil terminator text)

/-- The complete lines with a function applied to each. -/
def completed (terminator : α) (f : List α → List α) (text : List α) : List α :=
  (text.splitOn terminator).dropLast.flatMap fun line => f line ++ [terminator]

/-- An unterminated rest with the function applied, and nothing where there is no rest. -/
def rest (f : List α → List α) (text : List α) : List α := if text = [] then [] else f text

/-- The function applied to each complete line and to the unterminated remainder. -/
def eachLine (terminator : α) (f : List α → List α) (text : List α) : List α :=
  completed terminator f text ++ rest f (remainder terminator text)

/-! ## A text is lines and a remainder -/

variable (terminator) in
/-- **Induction along the lines of a text.** -/
theorem induct {P : List α → Prop} (unterminated : ∀ text, terminator ∉ text → P text)
    (line : ∀ line text, terminator ∉ line → P text → P (line ++ terminator :: text)) :
    ∀ text, P text := by
  intro text
  induction hlength : text.length using Nat.strongRecOn generalizing text with
  | ind n ih =>
    by_cases hmem : terminator ∈ text
    · obtain ⟨before, after, rfl, hbefore⟩ := List.eq_append_cons_of_mem hmem
      refine line before after hbefore (ih after.length ?_ after rfl)
      simp only [← hlength, List.length_append, List.length_cons]
      omega
    · exact unterminated text hmem

theorem remainder_of_not_mem {text : List α} (h : terminator ∉ text) :
    remainder terminator text = text := by
  simp only [remainder, List.splitOn_eq_singleton h, List.getLast_singleton]

theorem completed_of_not_mem {text : List α} (h : terminator ∉ text) (f : List α → List α) :
    completed terminator f text = [] := by
  simp only [completed, List.splitOn_eq_singleton h, List.dropLast_singleton, List.flatMap_nil]

theorem remainder_line {line : List α} (h : terminator ∉ line) (text : List α) :
    remainder terminator (line ++ terminator :: text) = remainder terminator text := by
  simp only [remainder, List.splitOn_append_cons_self_of_not_mem h]
  exact List.getLast_cons (List.splitOn_ne_nil terminator text)

theorem completed_line {line : List α} (h : terminator ∉ line) (f : List α → List α)
    (text : List α) : completed terminator f (line ++ terminator :: text) =
      f line ++ terminator :: completed terminator f text := by
  simp only [completed, List.splitOn_append_cons_self_of_not_mem h,
    List.dropLast_cons_of_ne_nil (List.splitOn_ne_nil terminator text), List.flatMap_cons,
    List.append_assoc, List.singleton_append]

theorem eachLine_of_not_mem {text : List α} (h : terminator ∉ text) (f : List α → List α) :
    eachLine terminator f text = rest f text := by
  rw [eachLine, completed_of_not_mem h, remainder_of_not_mem h, List.nil_append]

theorem eachLine_line {line : List α} (h : terminator ∉ line) (f : List α → List α)
    (text : List α) : eachLine terminator f (line ++ terminator :: text) =
      f line ++ terminator :: eachLine terminator f text := by
  rw [eachLine, completed_line h, remainder_line h, eachLine, List.append_assoc, List.cons_append]

variable (terminator) in
theorem not_mem_remainder (text : List α) : terminator ∉ remainder terminator text := by
  induction text using induct terminator with
  | unterminated text htext => rwa [remainder_of_not_mem htext]
  | line line text hline ih => rwa [remainder_line hline]

/-! ## A text that arrives in parts -/

/-- **Of the first part only its remainder waits for the second.** -/
theorem remainder_append (first second : List α) :
    remainder terminator (first ++ second) =
      remainder terminator (remainder terminator first ++ second) := by
  induction first using induct terminator with
  | unterminated text htext => rw [remainder_of_not_mem htext]
  | line line text hline ih =>
    rw [List.append_assoc, List.cons_append, remainder_line hline, remainder_line hline, ih]

theorem eachLine_append (f : List α → List α) (first second : List α) :
    eachLine terminator f (first ++ second) = completed terminator f first ++
      eachLine terminator f (remainder terminator first ++ second) := by
  induction first using induct terminator with
  | unterminated text htext =>
    rw [completed_of_not_mem htext, remainder_of_not_mem htext, List.nil_append]
  | line line text hline ih =>
    rw [List.append_assoc, List.cons_append, eachLine_line hline, completed_line hline,
      remainder_line hline, ih, List.append_assoc, List.cons_append]

theorem length_eachLine_append {f : List α → List α} {n : ℕ} (hf : ∀ line, (f line).length = n)
    {first second : List α} (hfirst : terminator ∉ first) (hsecond : second ≠ []) :
    (eachLine terminator f (first ++ second)).length = (eachLine terminator f second).length := by
  by_cases hmem : terminator ∈ second
  · obtain ⟨line, text, rfl, hline⟩ := List.eq_append_cons_of_mem hmem
    have hjoined : terminator ∉ first ++ line := by simp [hfirst, hline]
    rw [← List.append_assoc, eachLine_line hjoined, eachLine_line hline]
    simp only [List.length_append, hf]
  · have hjoined : terminator ∉ first ++ second := by simp [hfirst, hmem]
    rw [eachLine_of_not_mem hjoined, eachLine_of_not_mem hmem, rest, rest, if_neg hsecond,
      if_neg (by simp [hsecond]), hf, hf]

end Lines
