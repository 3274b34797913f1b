import Mathlib.Data.List.Sort
import Mathlib.Order.Basic
import Mathlib.Tactic.Common

/-!
# Spans of a log

A log whose entries have growing positions is read in spans `(after, through]`. Reading one
span after the other reads each entry once (`span_append_span`); entries that are added behind a
span leave it as it is (`span_append_of_later`); and the first entry that a filtered span holds
cuts it in two (`span_cons`), which is how a cursor moves along it.
-/

namespace Spans

variable {ρ : Type} (position : ρ → ℕ)

/-- The positions grow. -/
def Grows (log : List ρ) : Prop := log.Pairwise fun a b => position a < position b

/-- The entries after one position, up to another. -/
def span (log : List ρ) (after through : ℕ) : List ρ :=
  log.filter fun r => after < position r && position r ≤ through

variable {position} {log later : List ρ} {a b c : ℕ}

theorem mem_span {r : ρ} : r ∈ span position log a b ↔ r ∈ log ∧ a < position r ∧ position r ≤ b := by
  simp [span]

theorem span_of_le (h : b ≤ a) : span position log a b = [] := by
  refine List.filter_eq_nil_iff.mpr fun r _ hr => ?_
  simp only [Bool.and_eq_true, decide_eq_true_eq] at hr
  omega

theorem Grows.span (h : Grows position log) : Grows position (span position log a b) :=
  List.Pairwise.filter _ h

theorem Grows.of_map_eq {first n : ℕ} (h : log.map position = List.range' first n) :
    Grows position log := by
  have hrange : (log.map position).Pairwise (· < ·) := by
    rw [h]
    exact List.pairwise_lt_range'
  exact List.pairwise_map.mp hrange

theorem Grows.eq_or_lt (h : Grows position log) {x y : ρ} (hx : x ∈ log) (hy : y ∈ log) :
    x = y ∨ position x < position y ∨ position y < position x := by
  induction log with
  | nil => exact absurd hx List.not_mem_nil
  | cons r log ih =>
    obtain ⟨hr, hlog⟩ := List.pairwise_cons.mp h
    rcases List.mem_cons.mp hx with hxr | hxlog
    · rcases List.mem_cons.mp hy with hyr | hylog
      · exact Or.inl (hxr.trans hyr.symm)
      · exact Or.inr (Or.inl (hxr ▸ hr y hylog))
    · rcases List.mem_cons.mp hy with hyr | hylog
      · exact Or.inr (Or.inr (hyr ▸ hr x hxlog))
      · exact ih hlog hxlog hylog

/-- **Reading on**: a span, and then the span after it. -/
theorem span_append_span (h : Grows position log) (hab : a ≤ b) (hbc : b ≤ c) :
    span position log a b ++ span position log b c = span position log a c := by
  induction log with
  | nil => rfl
  | cons r log ih =>
    obtain ⟨hr, hlog⟩ := List.pairwise_cons.mp h
    have hrest := ih hlog
    by_cases hfirst : position r ≤ b
    · have hnot : ¬ b < position r := by omega
      have hle : position r ≤ c := by omega
      by_cases hafter : a < position r
      · simp [span, hfirst, hnot, hle, hafter] at hrest ⊢
        exact hrest
      · simp [span, hnot, hafter] at hrest ⊢
        exact hrest
    · -- all entries of the log are behind the first span
      have hnone : span position log a b = [] := by
        refine List.filter_eq_nil_iff.mpr fun x hx hin => ?_
        have hlt := hr x hx
        simp only [Bool.and_eq_true, decide_eq_true_eq] at hin
        omega
      have hafter : a < position r := by omega
      have hbefore : b < position r := by omega
      rw [hnone, List.nil_append] at hrest
      rw [span, List.filter_cons_of_neg (by simp [hfirst]), ← span, hnone, List.nil_append]
      by_cases hle : position r ≤ c
      · simp [span, hbefore, hle, hafter] at hrest ⊢
        exact hrest
      · simp [span, hle] at hrest ⊢
        exact hrest

theorem span_append_of_later (h : ∀ r ∈ later, a < position r → b < position r) :
    span position (log ++ later) a b = span position log a b := by
  have hnone : span position later a b = [] := by
    refine List.filter_eq_nil_iff.mpr fun r hr hin => ?_
    simp only [Bool.and_eq_true, decide_eq_true_eq] at hin
    have hlt := h r hr hin.1
    omega
  rw [span, List.filter_append]
  exact (congrArg _ hnone).trans (List.append_nil _)

/-- **The first entry of a filtered span** cuts it in two. -/
theorem span_cons {q : ρ → Bool} (h : Grows position log) {r : ρ} {rest : List ρ}
    (hspan : (span position log a c).filter q = r :: rest) :
    a < position r ∧ position r ≤ c ∧ (span position log a (position r)).filter q = [r] ∧
      (span position log (position r) c).filter q = rest := by
  have hmem : r ∈ (span position log a c).filter q := by
    rw [hspan]
    exact List.mem_cons_self
  obtain ⟨hin, hq⟩ := List.mem_filter.mp hmem
  obtain ⟨hlog, hafter, hle⟩ := mem_span.mp hin
  have hgrows : Grows position (r :: rest) := hspan ▸ List.Pairwise.filter _ h.span
  obtain ⟨hrest, -⟩ := List.pairwise_cons.mp hgrows
  have hcut := congrArg (List.filter q) (span_append_span h hafter.le hle)
  rw [List.filter_append, hspan] at hcut
  -- the part up to the first entry holds it, and nothing of the rest
  have hself : r ∈ (span position log a (position r)).filter q :=
    List.mem_filter.mpr ⟨mem_span.mpr ⟨hlog, hafter, le_refl _⟩, hq⟩
  rcases hpart : (span position log a (position r)).filter q with _ | ⟨x, part⟩
  · rw [hpart] at hself
    exact absurd hself List.not_mem_nil
  · rw [hpart, List.cons_append] at hcut
    obtain ⟨rfl, htail⟩ := List.cons.inj hcut
    have hpartNil : part = [] := by
      refine List.eq_nil_iff_forall_not_mem.mpr fun y hy => ?_
      have hmemY : y ∈ (span position log a (position x)).filter q := by
        rw [hpart]
        exact List.mem_cons_of_mem _ hy
      have hleY := (mem_span.mp (List.mem_filter.mp hmemY).1).2.2
      have hltY := hrest y (htail ▸ List.mem_append_left _ hy)
      omega
    rw [hpartNil] at htail ⊢
    exact ⟨hafter, hle, rfl, htail⟩

/-! ## Level positions -/

/-- No entry of interest lies between the two positions. -/
def Level (position : ρ → ℕ) (q : ρ → Bool) (log : List ρ) (a b : ℕ) : Prop :=
  ∀ r ∈ log, q r = true → (a < position r ↔ b < position r)

variable {q : ρ → Bool}

theorem Level.refl (a : ℕ) : Level position q log a a := fun _ _ _ => Iff.rfl

theorem Level.symm (h : Level position q log a b) : Level position q log b a :=
  fun r hr hq => (h r hr hq).symm

theorem Level.trans (h : Level position q log a b) (h' : Level position q log b c) :
    Level position q log a c := fun r hr hq => (h r hr hq).trans (h' r hr hq)

theorem Level.imp {q' : ρ → Bool} (h : Level position q log a b)
    (hq : ∀ r ∈ log, q' r = true → q r = true) : Level position q' log a b :=
  fun r hr hq' => h r hr (hq r hr hq')

theorem level_of_filter_span (hab : a ≤ b) (h : (span position log a b).filter q = []) :
    Level position q log a b := by
  intro r hr hq
  have hnot := List.filter_eq_nil_iff.mp h r
  rw [mem_span] at hnot
  constructor
  · intro hafter
    by_contra hle
    exact hnot ⟨hr, hafter, by omega⟩ hq
  · intro hafter
    omega

theorem Level.append_of_later (h : Level position q log a b)
    (hlater : a = b ∨ ∀ r ∈ later, a < position r ∧ b < position r) :
    Level position q (log ++ later) a b := by
  intro r hr hq
  rcases List.mem_append.mp hr with hr | hr
  · exact h r hr hq
  · rcases hlater with rfl | hlater
    · rfl
    · exact iff_of_true (hlater r hr).1 (hlater r hr).2

/-- **The span up to level positions** is the same. -/
theorem filter_span_congr {b' : ℕ} (h : Level position q log b b') :
    (span position log a b).filter q = (span position log a b').filter q := by
  rw [span, span, List.filter_filter, List.filter_filter]
  refine List.filter_congr fun r hr => ?_
  by_cases hq : q r = true
  · have hiff := h r hr hq
    have hle : position r ≤ b ↔ position r ≤ b' := by omega
    simp [hle]
  · simp [hq]

/-- **The next entry of interest** is added to the span. -/
theorem filter_span_next (hgrows : Grows position log) {r : ρ} (hr : r ∈ log) (hq : q r = true)
    (hac : a ≤ c) (hcr : c < position r) (hlevel : Level position q log c (position r - 1)) :
    (span position log a (position r)).filter q = (span position log a c).filter q ++ [r] := by
  rw [← span_append_span hgrows hac hcr.le, List.filter_append]
  refine congrArg _ ?_
  -- what the new part holds is this entry, as often as the log holds it
  have hpart : ∀ x ∈ (span position log c (position r)).filter q, x = r := by
    intro x hx
    obtain ⟨hx, hqx⟩ := List.mem_filter.mp hx
    obtain ⟨hlog, hafter, hle⟩ := mem_span.mp hx
    have hiff := hlevel x hlog hqx
    have hsame : position x = position r := by omega
    rcases hgrows.eq_or_lt hlog hr with rfl | hlt | hlt
    · rfl
    · omega
    · omega
  have hself : r ∈ (span position log c (position r)).filter q :=
    List.mem_filter.mpr ⟨mem_span.mpr ⟨hr, hcr, le_refl _⟩, hq⟩
  have hpairwise : Grows position ((span position log c (position r)).filter q) :=
    List.Pairwise.filter _ hgrows.span
  rcases hlist : (span position log c (position r)).filter q with _ | ⟨x, rest⟩
  · rw [hlist] at hself
    exact absurd hself List.not_mem_nil
  · rw [hlist] at hpart hpairwise
    obtain rfl := hpart x List.mem_cons_self
    rcases rest with _ | ⟨y, rest⟩
    · rfl
    · have hlt := (List.pairwise_cons.mp hpairwise).1 y List.mem_cons_self
      rw [hpart y (List.mem_cons_of_mem _ List.mem_cons_self)] at hlt
      omega

theorem level_of_span_cons (h : Grows position log) {r : ρ} {rest : List ρ}
    (hspan : (span position log a c).filter q = r :: rest) :
    Level position q log a (position r - 1) := by
  obtain ⟨hafter, -, hfirst, -⟩ := span_cons h hspan
  refine level_of_filter_span (by omega) (List.filter_eq_nil_iff.mpr fun x hx hq => ?_)
  obtain ⟨hx, hax, hle⟩ := mem_span.mp hx
  have hmem : x ∈ (span position log a (position r)).filter q :=
    List.mem_filter.mpr ⟨mem_span.mpr ⟨hx, hax, by omega⟩, hq⟩
  rw [hfirst, List.mem_singleton] at hmem
  rw [hmem] at hle
  omega

end Spans
