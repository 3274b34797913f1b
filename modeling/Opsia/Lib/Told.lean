import Mathlib.Data.List.Basic

/-!
# Answers that may be missing

An answer is an `Option`: `none` where it could not be told. More information tells more and changes
nothing that was told (`Le`). Lists of answers follow: a `true` among them stays, and where none was
missing they are the same.
-/

universe u v

namespace Told

variable {α : Type u} {β : Type v}

/-- What `x` tells, `y` tells too. -/
def Le (x y : Option β) : Prop := ∀ b, x = some b → y = some b

theorem Le.refl (x : Option β) : Le x x := fun _ h => h

theorem le_of_none (y : Option β) : Le none y := fun _ h => nomatch h

/-- An answer that is not missing is the same with more information. -/
theorem Le.eq {x y : Option β} (h : Le x y) (hx : x ≠ none) : y = x := by
  obtain ⟨b, hb⟩ := Option.ne_none_iff_exists'.mp hx
  rw [hb, h b hb]

/-- An answer computed from one that tells more tells more. -/
theorem Le.bind {γ : Type v} {x y : Option β} (h : Le x y) (f : β → Option γ) :
    Le (x.bind f) (y.bind f) := by
  intro c hc
  obtain ⟨b, hb, hf⟩ := Option.bind_eq_some_iff.mp hc
  rw [h b hb, Option.bind_some, hf]

variable {f g : α → Option Bool} {l : List α}

/-- A `true` among the answers stays. -/
theorem any_true_mono (h : ∀ a ∈ l, Le (f a) (g a))
    (htrue : (l.map f).any (· == some true) = true) :
    (l.map g).any (· == some true) = true := by
  obtain ⟨answer, hanswer, hequal⟩ := List.any_eq_true.mp htrue
  obtain ⟨a, ha, rfl⟩ := List.mem_map.mp hanswer
  have hg := h a ha true (beq_iff_eq.mp hequal)
  exact List.any_eq_true.mpr ⟨g a, List.mem_map_of_mem ha, beq_iff_eq.mpr hg⟩

/-- Where no answer is missing, the answers are the same. -/
theorem map_eq_of_told (h : ∀ a ∈ l, Le (f a) (g a)) (htold : (l.map f).any (· == none) = false) :
    l.map g = l.map f := by
  refine List.map_congr_left fun a ha => (h a ha).eq fun hnone => ?_
  have hmissing : (l.map f).any (· == none) = true :=
    List.any_eq_true.mpr ⟨f a, List.mem_map_of_mem ha, beq_iff_eq.mpr hnone⟩
  rw [htold] at hmissing
  cases hmissing

/-- A missing answer was missing before. -/
theorem any_none_anti (h : ∀ a ∈ l, Le (f a) (g a)) (hmissing : (l.map g).any (· == none) = true) :
    (l.map f).any (· == none) = true := by
  by_contra htold
  rw [map_eq_of_told h (Bool.eq_false_iff.mpr htold)] at hmissing
  exact htold hmissing

end Told
