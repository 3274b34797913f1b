import Mathlib.Data.List.Nodup
import Mathlib.Tactic.Common

/-!
# First occurrences

A log in which the first entry of a key wins: `firsts key l` keeps, in order, the entries
of `l` whose key occurs for the first time. Appending a batch adds the first occurrences of
the batch whose key is new (`firsts_append`), so such a log can be kept batch by batch.
-/

namespace FirstWins

variable {ε κ : Type} [DecidableEq κ] (key : ε → κ)

/-- The first occurrences among entries, after keys that were seen before. -/
def firstsAfter (seen : List κ) : List ε → List ε
  | [] => []
  | e :: l => if key e ∈ seen then firstsAfter seen l else e :: firstsAfter (key e :: seen) l

/-- The first occurrences. -/
def firsts (l : List ε) : List ε := firstsAfter key [] l

variable {key} {seen seen' : List κ} {l m : List ε}

@[simp] theorem firsts_nil : firsts key [] = [] := rfl

theorem firstsAfter_congr (h : ∀ k, k ∈ seen ↔ k ∈ seen') :
    firstsAfter key seen l = firstsAfter key seen' l := by
  induction l generalizing seen seen' with
  | nil => rfl
  | cons e l ih =>
    simp only [firstsAfter, h]
    have hcons : ∀ k, k ∈ key e :: seen ↔ k ∈ key e :: seen' := by
      intro k
      rw [List.mem_cons, List.mem_cons, h]
    rw [ih h, ih hcons]

theorem firstsAfter_append_seen (before : List κ) :
    firstsAfter key (seen ++ before) l =
      (firstsAfter key seen l).filter fun e => decide (key e ∉ before) := by
  induction l generalizing seen with
  | nil => rfl
  | cons e l ih =>
    simp only [firstsAfter, List.mem_append]
    by_cases hseen : key e ∈ seen
    · rw [if_pos (Or.inl hseen), if_pos hseen, ih]
    · by_cases hbefore : key e ∈ before
      · have hsame : firstsAfter key (seen ++ before) l =
            firstsAfter key ((key e :: seen) ++ before) l := by
          refine firstsAfter_congr fun k => ?_
          rw [List.cons_append, List.mem_cons]
          refine ⟨Or.inr, fun h => h.elim (fun hk => ?_) id⟩
          rw [hk]
          exact List.mem_append_right _ hbefore
        simp only [hbefore, or_true, if_true, if_neg hseen, List.filter_cons, not_true,
          decide_false, Bool.false_eq_true, if_false]
        rw [hsame, ih]
      · simp only [hseen, hbefore, or_false, if_false, List.filter_cons, not_false_eq_true,
          decide_true, if_true, ← ih, List.cons_append]

/-- The first occurrences in two parts. -/
theorem firstsAfter_append :
    firstsAfter key seen (l ++ m) =
      firstsAfter key seen l ++ firstsAfter key (l.map key ++ seen) m := by
  induction l generalizing seen with
  | nil => rfl
  | cons e l ih =>
    rw [List.cons_append, firstsAfter, firstsAfter]
    by_cases hseen : key e ∈ seen
    · rw [if_pos hseen, if_pos hseen, ih]
      refine congrArg _ (firstsAfter_congr fun k => ?_)
      rw [List.map_cons, List.cons_append, List.mem_cons]
      refine ⟨Or.inr, fun h => h.elim (fun hk => ?_) id⟩
      rw [hk]
      exact List.mem_append_right _ hseen
    · rw [if_neg hseen, if_neg hseen, ih, List.cons_append]
      refine congrArg _ (congrArg _ (firstsAfter_congr fun k => ?_))
      simp only [List.map_cons, List.cons_append, List.mem_append, List.mem_cons]
      tauto

/-- **A batch adds the first occurrences whose key is new.** -/
theorem firsts_append :
    firsts key (l ++ m) =
      firsts key l ++ (firsts key m).filter fun e => decide (key e ∉ l.map key) := by
  rw [firsts, firsts, firsts, firstsAfter_append]
  refine congrArg _ ?_
  rw [← firstsAfter_append_seen]
  exact firstsAfter_congr fun k => by rw [List.append_nil, List.nil_append]

/-- First occurrences are entries. -/
theorem mem_of_mem_firstsAfter {e : ε} (h : e ∈ firstsAfter key seen l) :
    e ∈ l ∧ key e ∉ seen := by
  induction l generalizing seen with
  | nil => cases h
  | cons a l ih =>
    rw [firstsAfter] at h
    split at h
    · exact ⟨List.mem_cons_of_mem _ (ih h).1, (ih h).2⟩
    · rename_i ha
      rcases List.mem_cons.mp h with rfl | h
      · exact ⟨List.mem_cons_self, ha⟩
      · exact ⟨List.mem_cons_of_mem _ (ih h).1, fun hs => (ih h).2 (List.mem_cons_of_mem _ hs)⟩

theorem firstsAfter_sublist : (firstsAfter key seen l).Sublist l := by
  induction l generalizing seen with
  | nil => exact .slnil
  | cons e l ih =>
    rw [firstsAfter]
    split
    · exact ih.cons e
    · exact ih.cons_cons e

/-- No key occurs twice among first occurrences. -/
theorem nodup_firstsAfter : ((firstsAfter key seen l).map key).Nodup := by
  induction l generalizing seen with
  | nil => exact List.nodup_nil
  | cons e l ih =>
    rw [firstsAfter]
    split
    · exact ih
    · rw [List.map_cons, List.nodup_cons]
      refine ⟨fun hmem => ?_, ih⟩
      obtain ⟨a, ha, hkey⟩ := List.mem_map.mp hmem
      exact (mem_of_mem_firstsAfter ha).2 (hkey ▸ List.mem_cons_self)

theorem nodup_firsts : ((firsts key l).map key).Nodup := nodup_firstsAfter

/-- Entries of different keys are first occurrences, all of them. -/
theorem firstsAfter_of_nodup (h : (l.map key).Nodup) (hseen : ∀ e ∈ l, key e ∉ seen) :
    firstsAfter key seen l = l := by
  induction l generalizing seen with
  | nil => rfl
  | cons e l ih =>
    rw [List.map_cons, List.nodup_cons] at h
    rw [firstsAfter, if_neg (hseen e List.mem_cons_self), ih h.2]
    intro a ha hmem
    rcases List.mem_cons.mp hmem with he | hmem
    · exact h.1 (he ▸ List.mem_map_of_mem ha)
    · exact hseen a (List.mem_cons_of_mem e ha) hmem

theorem firsts_of_nodup (h : (l.map key).Nodup) : firsts key l = l :=
  firstsAfter_of_nodup h fun _ _ => List.not_mem_nil

/-- The entry of a key among first occurrences is the first of its key. -/
theorem find?_firstsAfter (k : κ) (hk : k ∉ seen) :
    (firstsAfter key seen l).find? (fun e => key e = k) = l.find? fun e => key e = k := by
  induction l generalizing seen with
  | nil => rfl
  | cons e l ih =>
    rw [firstsAfter]
    by_cases hkey : key e = k
    · simp [hkey, hk]
    · by_cases hseen : key e ∈ seen
      · simp only [if_pos hseen, List.find?_cons, hkey, decide_false, ih hk]
      · have hrest : k ∉ key e :: seen := by
          simp [Ne.symm hkey, hk]
        simp only [if_neg hseen, List.find?_cons, hkey, decide_false, ih hrest]

theorem find?_firsts (k : κ) :
    (firsts key l).find? (fun e => key e = k) = l.find? fun e => key e = k :=
  find?_firstsAfter k List.not_mem_nil

theorem find?_of_mem_firsts {e : ε} (h : e ∈ firsts key l) :
    (l.find? fun a => key a = key e) = some e := by
  rw [← find?_firsts]
  rcases hfind : (firsts key l).find? fun a => key a = key e with _ | a
  · have hne : key e ≠ key e := by simpa using List.find?_eq_none.mp hfind e h
    exact absurd rfl hne
  · have hkey : key a = key e := by simpa using List.find?_some hfind
    rw [List.inj_on_of_nodup_map nodup_firsts (List.mem_of_find?_eq_some hfind) h hkey]

/-- What is read off the entries is read off the first occurrences, when an entry that
repeats a key says nothing. -/
theorem filterMap_firstsAfter {β : Type} {g : ε → Option β}
    (hseen : ∀ e ∈ l, key e ∈ seen → g e = none)
    (hrepeat : l.Pairwise fun a b => key a = key b → g b = none) :
    (firstsAfter key seen l).filterMap g = l.filterMap g := by
  induction l generalizing seen with
  | nil => rfl
  | cons e l ih =>
    obtain ⟨hlater, hrepeat⟩ := List.pairwise_cons.mp hrepeat
    rw [firstsAfter]
    by_cases hkey : key e ∈ seen
    · rw [if_pos hkey, List.filterMap_cons_none (hseen e List.mem_cons_self hkey)]
      exact ih (fun a ha => hseen a (List.mem_cons_of_mem _ ha)) hrepeat
    · rw [if_neg hkey, List.filterMap_cons, List.filterMap_cons, ih ?_ hrepeat]
      intro a ha hmem
      rcases List.mem_cons.mp hmem with hsame | hmem
      · exact hlater a ha hsame.symm
      · exact hseen a (List.mem_cons_of_mem _ ha) hmem

theorem filterMap_firsts {β : Type} {g : ε → Option β}
    (hrepeat : l.Pairwise fun a b => key a = key b → g b = none) :
    (firsts key l).filterMap g = l.filterMap g :=
  filterMap_firstsAfter (fun _ _ hmem => absurd hmem List.not_mem_nil) hrepeat

/-- The first occurrences of the keys are the keys of the first occurrences. -/
theorem firstsAfter_map : firstsAfter id seen (l.map key) = (firstsAfter key seen l).map key := by
  induction l generalizing seen with
  | nil => rfl
  | cons e l ih =>
    rw [List.map_cons, firstsAfter, firstsAfter, id]
    split
    · exact ih
    · rw [ih, List.map_cons]

theorem firsts_map : firsts id (l.map key) = (firsts key l).map key := firstsAfter_map

/-- The keys that occur are those of the first occurrences. -/
theorem mem_map_firsts {k : κ} : k ∈ (firsts key l).map key ↔ k ∈ l.map key := by
  have hfind : ∀ l : List ε, k ∈ l.map key ↔ (l.find? fun e => key e = k).isSome = true := by
    intro l
    rw [List.find?_isSome, List.mem_map]
    simp only [decide_eq_true_eq]
  rw [hfind, hfind, find?_firsts]

end FirstWins
