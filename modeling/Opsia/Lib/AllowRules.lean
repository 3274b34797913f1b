import Mathlib.Logic.Basic
import Mathlib.Tactic.TypeStar

/-!
# Unions of allow rules

Policies that only allow: a policy selects a flow or not, and admits it or not. A flow is permitted
when no policy selects it, or when one that selects it admits it. One reading of the policies is
narrower than another when it selects and admits less; since less selection permits more and less
admission permits less, the two may still agree, and `permits_iff_permits_iff` says when.
-/

universe u

namespace AllowRules

/-- A reading of policies. -/
structure Reading (π : Type u) where
  Selects : π → Prop
  Admits : π → Prop

namespace Reading

variable {π : Type u} (narrow wide : Reading π) (policies : List π)

/-- No policy selects the flow, or one that does admits it. -/
def Permits : Prop :=
  (∀ p ∈ policies, ¬ wide.Selects p) ∨ ∃ p ∈ policies, wide.Selects p ∧ wide.Admits p

instance [DecidablePred wide.Selects] [DecidablePred wide.Admits] :
    Decidable (wide.Permits policies) :=
  inferInstanceAs (Decidable
    ((∀ p ∈ policies, ¬ wide.Selects p) ∨ ∃ p ∈ policies, wide.Selects p ∧ wide.Admits p))

/-- One reading selects and admits at most what another does. -/
structure Narrows : Prop where
  selects : ∀ p, narrow.Selects p → wide.Selects p
  admits : ∀ p, narrow.Admits p → wide.Admits p

/-- The narrow reading overlooks that a policy selects the flow. -/
def Overlooks (p : π) : Prop := wide.Selects p ∧ ¬ narrow.Selects p

/-- The narrow reading misses that a policy selects the flow and admits it. -/
def Misses (p : π) : Prop :=
  wide.Selects p ∧ wide.Admits p ∧ ¬ (narrow.Selects p ∧ narrow.Admits p)

/-- What the narrow reading overlooks and misses among policies makes no difference: where it finds
a policy that selects the flow, it finds one that admits it or misses none; where it finds none, it
overlooks none or misses one. -/
structure Suffices : Prop where
  selected : (∃ p ∈ policies, narrow.Selects p) →
    (∃ p ∈ policies, narrow.Selects p ∧ narrow.Admits p) ∨ ∀ p ∈ policies, ¬ narrow.Misses wide p
  unselected : (∀ p ∈ policies, ¬ narrow.Selects p) →
    (∀ p ∈ policies, ¬ narrow.Overlooks wide p) ∨ ∃ p ∈ policies, narrow.Misses wide p

variable {narrow wide policies}

theorem misses_of_selects {p : π} (hselects : wide.Selects p) (hadmits : wide.Admits p)
    (hnone : ¬ ∃ p ∈ policies, narrow.Selects p ∧ narrow.Admits p) (hp : p ∈ policies) :
    narrow.Misses wide p :=
  ⟨hselects, hadmits, fun h => hnone ⟨p, hp, h⟩⟩

/-- **Two readings agree exactly when the narrow one suffices.** -/
theorem permits_iff_permits_iff (h : narrow.Narrows wide) :
    (narrow.Permits policies ↔ wide.Permits policies) ↔ narrow.Suffices wide policies := by
  by_cases hadmitted : ∃ p ∈ policies, narrow.Selects p ∧ narrow.Admits p
  · -- both readings permit the flow, and the narrow one has found why
    obtain ⟨p, hp, hselects, hadmits⟩ := hadmitted
    have hnarrow : narrow.Permits policies := .inr ⟨p, hp, hselects, hadmits⟩
    have hwide : wide.Permits policies := .inr ⟨p, hp, h.selects p hselects, h.admits p hadmits⟩
    constructor
    · intro _
      exact ⟨fun _ => .inl ⟨p, hp, hselects, hadmits⟩, fun hnone => absurd hselects (hnone p hp)⟩
    · intro _
      exact iff_of_true hnarrow hwide
  by_cases hselected : ∃ p ∈ policies, narrow.Selects p
  · have hdenied : ¬ narrow.Permits policies := by
      rintro (hnone | hadmits)
      · obtain ⟨p, hp, hselects⟩ := hselected
        exact hnone p hp hselects
      · exact hadmitted hadmits
    constructor
    · intro hagree
      refine ⟨fun _ => .inr fun p hp hmisses => ?_, fun hnone => ?_⟩
      · exact hdenied (hagree.mpr (.inr ⟨p, hp, hmisses.1, hmisses.2.1⟩))
      · obtain ⟨p, hp, hselects⟩ := hselected
        exact absurd hselects (hnone p hp)
    · intro hsuffices
      obtain ⟨p, hp, hselects⟩ := hselected
      refine iff_of_false hdenied ?_
      rintro (hnone | ⟨q, hq, hq'⟩)
      · exact hnone p hp (h.selects p hselects)
      · obtain hfound | hmissed := hsuffices.selected ⟨p, hp, hselects⟩
        · exact hadmitted hfound
        · exact hmissed q hq (misses_of_selects hq'.1 hq'.2 hadmitted hq)
  · have hnone : ∀ p ∈ policies, ¬ narrow.Selects p := fun p hp hselects =>
      hselected ⟨p, hp, hselects⟩
    have hpermitted : narrow.Permits policies := .inl hnone
    constructor
    · intro hagree
      refine ⟨fun hsome => absurd hsome hselected, fun _ => ?_⟩
      obtain hunselected | ⟨p, hp, hp'⟩ := hagree.mp hpermitted
      · exact .inl fun p hp hoverlooks => hunselected p hp hoverlooks.1
      · exact .inr ⟨p, hp, misses_of_selects hp'.1 hp'.2 hadmitted hp⟩
    · intro hsuffices
      refine iff_of_true hpermitted ?_
      obtain hunselected | ⟨p, hp, hmisses⟩ := hsuffices.unselected hnone
      · exact .inl fun p hp hselects => hunselected p hp ⟨hselects, hnone p hp⟩
      · exact .inr ⟨p, hp, hmisses.1, hmisses.2.1⟩

end Reading

end AllowRules
