import Mathlib.Data.List.Nodup
import Mathlib.Data.List.Permutation

/-!
# Insertion-ordered dictionaries

A dictionary as the list of its entries in insertion order, as Python's `dict` keeps them: assigning
a key, merging another dictionary, and adding a missing key, each with what a later lookup finds.
-/

universe u v

namespace Fields

variable {κ : Type u} {ν : Type v} [DecidableEq κ]

/-- `d[k] = v`. -/
def put : List (κ × ν) → κ → ν → List (κ × ν)
  | [], k, v => [(k, v)]
  | (k', w) :: rest, k, v => if k' = k then (k', v) :: rest else (k', w) :: put rest k v

/-- `d.update(other)`. -/
def update (fields other : List (κ × ν)) : List (κ × ν) :=
  other.foldl (fun fields entry => put fields entry.1 entry.2) fields

/-- `d.setdefault(k, v)`. -/
def setDefault (fields : List (κ × ν)) (k : κ) (v : ν) : List (κ × ν) :=
  if (fields.lookup k).isSome then fields else fields ++ [(k, v)]

/-- **The key that is assigned gets the value, the others keep theirs.** -/
theorem lookup_put (fields : List (κ × ν)) (k : κ) (v : ν) (k' : κ) :
    (put fields k v).lookup k' = if k' = k then some v else fields.lookup k' := by
  induction fields with
  | nil =>
    rw [put, List.lookup_cons, List.lookup_nil]
    by_cases hk : k' = k
    · rw [beq_iff_eq.mpr hk, if_pos hk]
    · rw [beq_false_of_ne hk, if_neg hk]
  | cons entry rest ih =>
    obtain ⟨k₁, w⟩ := entry
    rw [put]
    by_cases h₁ : k₁ = k
    · subst h₁
      rw [if_pos rfl, List.lookup_cons, List.lookup_cons]
      by_cases hk : k' = k₁
      · rw [beq_iff_eq.mpr hk, if_pos hk]
      · rw [beq_false_of_ne hk, if_neg hk]
    · rw [if_neg h₁, List.lookup_cons, ih, List.lookup_cons]
      by_cases hk : k' = k
      · subst hk
        rw [beq_false_of_ne (Ne.symm h₁), if_pos rfl]
      · rw [if_neg hk, if_neg hk]

theorem lookup_put_self (fields : List (κ × ν)) (k : κ) (v : ν) :
    (put fields k v).lookup k = some v := by
  rw [lookup_put, if_pos rfl]

theorem lookup_put_of_ne {k k' : κ} (h : k' ≠ k) (fields : List (κ × ν)) (v : ν) :
    (put fields k v).lookup k' = fields.lookup k' := by
  rw [lookup_put, if_neg h]

/-- A merge leaves the keys that the other dictionary lacks. -/
theorem lookup_update_of_notMem {other : List (κ × ν)} {k : κ} (h : k ∉ other.map Prod.fst)
    (fields : List (κ × ν)) : (update fields other).lookup k = fields.lookup k := by
  induction other generalizing fields with
  | nil => rfl
  | cons entry other ih =>
    obtain ⟨hhead, htail⟩ := not_or.mp (fun hmem => h (List.mem_cons.mpr hmem))
    exact (ih htail _).trans (lookup_put_of_ne hhead fields entry.2)

theorem lookup_setDefault_of_ne {k k' : κ} (h : k' ≠ k) (fields : List (κ × ν)) (v : ν) :
    (setDefault fields k v).lookup k' = fields.lookup k' := by
  rw [setDefault]
  split
  · rfl
  · rw [List.lookup_append, List.lookup_cons, beq_false_of_ne h, List.lookup_nil, Option.or_none]

omit [DecidableEq κ] in
theorem lookup_map_value [BEq κ] {ν' : Type v} (f : ν → ν') (fields : List (κ × ν)) (k : κ) :
    (fields.map fun entry => (entry.1, f entry.2)).lookup k = (fields.lookup k).map f := by
  induction fields with
  | nil => rfl
  | cons entry fields ih =>
    rw [List.map_cons, List.lookup_cons, List.lookup_cons, ih]
    split
    · rfl
    · rfl

/-- **What a fold leaves where all writers of a place write the same.** -/
theorem foldl_written {σ : Type u} {ρ : Type v} {β : Type u} {f : σ → ρ → σ} {g : σ → β}
    {p : ρ → Prop} {b : β} {rows : List ρ}
    (hkeep : ∀ s, ∀ r ∈ rows, ¬ p r → g (f s r) = g s)
    (hwrite : ∀ s, ∀ r ∈ rows, p r → g (f s r) = b) (s : σ) :
    g (rows.foldl f s) = b ∨ g (rows.foldl f s) = g s ∧ ∀ r ∈ rows, ¬ p r := by
  induction rows generalizing s with
  | nil => exact Or.inr ⟨rfl, fun r hr => absurd hr List.not_mem_nil⟩
  | cons r rows ih =>
    obtain hlast | ⟨hkept, hrest⟩ :=
      ih (fun s r hr => hkeep s r (List.mem_cons_of_mem _ hr))
        (fun s r hr => hwrite s r (List.mem_cons_of_mem _ hr)) (f s r)
    · exact Or.inl hlast
    · by_cases hr : p r
      · exact Or.inl (hkept.trans (hwrite s r List.mem_cons_self hr))
      · refine Or.inr ⟨hkept.trans (hkeep s r List.mem_cons_self hr), ?_⟩
        exact List.forall_mem_cons.mpr ⟨hr, hrest⟩

/-! ## Dictionaries of some keys -/

theorem lookup_map_key (ks : List κ) (v : κ → ν) (k : κ) :
    (ks.map fun k => (k, v k)).lookup k = if k ∈ ks then some (v k) else none := by
  induction ks with
  | nil => rfl
  | cons k' ks ih =>
    rw [List.map_cons, List.lookup_cons, ih]
    by_cases hk : k = k'
    · subst hk
      rw [beq_iff_eq.mpr rfl, if_pos List.mem_cons_self]
    · simp [beq_false_of_ne hk, hk]

/-- Assigning a key that is there changes its entry. -/
theorem put_map_of_mem {ks : List κ} (hks : ks.Nodup) {k : κ} (hk : k ∈ ks) (v : κ → ν) (w : ν) :
    put (ks.map fun k => (k, v k)) k w = ks.map fun l => (l, if l = k then w else v l) := by
  induction ks with
  | nil => cases hk
  | cons k' ks ih =>
    rw [List.nodup_cons] at hks
    rw [List.map_cons, List.map_cons, put]
    by_cases hne : k' = k
    · subst hne
      rw [if_pos rfl, if_pos rfl]
      refine congrArg _ (List.map_congr_left fun l hl => ?_)
      rw [if_neg fun (he : l = k') => hks.1 (he ▸ hl)]
    · rw [if_neg hne, if_neg hne, ih hks.2 ((List.mem_cons.mp hk).resolve_left (Ne.symm hne))]

/-- Assigning a new key adds an entry at the end. -/
theorem put_map_of_not_mem {ks : List κ} {k : κ} (hk : k ∉ ks) (v : κ → ν) (w : ν) :
    put (ks.map fun k => (k, v k)) k w = (ks.map fun k => (k, v k)) ++ [(k, w)] := by
  induction ks with
  | nil => rfl
  | cons k' ks ih =>
    rw [List.mem_cons, not_or] at hk
    rw [List.map_cons, put, if_neg (Ne.symm hk.1), ih hk.2, List.cons_append]

variable {fields : List (κ × ν)}

/-- Assigning a new key adds an entry at the end. -/
theorem put_of_notMem {k : κ} (h : k ∉ fields.map Prod.fst) (v : ν) :
    put fields k v = fields ++ [(k, v)] := by
  induction fields with
  | nil => rfl
  | cons entry fields ih =>
    obtain ⟨hhead, htail⟩ := not_or.mp (fun hmem => h (List.mem_cons.mpr hmem))
    rw [put, if_neg (Ne.symm hhead), ih htail, List.cons_append]

theorem keys_put_of_mem {k : κ} (h : k ∈ fields.map Prod.fst) (v : ν) :
    (put fields k v).map Prod.fst = fields.map Prod.fst := by
  induction fields with
  | nil => exact absurd h List.not_mem_nil
  | cons entry fields ih =>
    obtain ⟨k', w⟩ := entry
    rw [put]
    by_cases hk : k' = k
    · rw [if_pos hk]
      rfl
    · rw [if_neg hk, List.map_cons, ih ((List.mem_cons.mp h).resolve_left (Ne.symm hk))]
      rfl

/-- In a dictionary a key has the value of its entry. -/
theorem lookup_of_mem (hnodup : (fields.map Prod.fst).Nodup) {k : κ} {v : ν} (h : (k, v) ∈ fields) :
    fields.lookup k = some v := by
  induction fields with
  | nil => exact absurd h List.not_mem_nil
  | cons entry fields ih =>
    obtain ⟨k', w⟩ := entry
    obtain ⟨hk', hrest⟩ := List.nodup_cons.mp hnodup
    rcases List.mem_cons.mp h with heq | hmem
    · obtain ⟨rfl, rfl⟩ := Prod.mk.inj heq
      rw [List.lookup_cons, beq_self_eq_true]
    · have hne : k ≠ k' := by
        rintro rfl
        exact hk' (List.mem_map.mpr ⟨(k, v), hmem, rfl⟩)
      rw [List.lookup_cons, beq_false_of_ne hne]
      exact ih hrest hmem

theorem nodup_put (h : (fields.map Prod.fst).Nodup) (k : κ) (v : ν) :
    ((put fields k v).map Prod.fst).Nodup := by
  by_cases hk : k ∈ fields.map Prod.fst
  · rwa [keys_put_of_mem hk]
  · rw [put_of_notMem hk, List.map_append, List.nodup_append]
    refine ⟨h, List.nodup_singleton k, ?_⟩
    rintro a ha b hb rfl
    obtain rfl : a = k := List.mem_singleton.mp hb
    exact hk ha

/-! ## Dictionaries of groups -/

section Groups

variable {β : Type v}

/-- `d.setdefault(k, []).append(x)`. -/
def addTo (groups : List (κ × List β)) (k : κ) (x : β) : List (κ × List β) :=
  put groups k ((groups.lookup k).getD [] ++ [x])

/-- The items of the groups, with their keys. -/
def members (groups : List (κ × List β)) : List (κ × β) :=
  groups.flatMap fun group => group.2.map fun x => (group.1, x)

/-- **Adding to a group adds one member.** -/
theorem members_addTo (groups : List (κ × List β)) (k : κ) (x : β) :
    (members (addTo groups k x)).Perm (members groups ++ [(k, x)]) := by
  rw [addTo]
  induction groups with
  | nil => exact List.Perm.refl _
  | cons group groups ih =>
    obtain ⟨k', items⟩ := group
    rw [put, List.lookup_cons]
    by_cases hk : k' = k
    · subst hk
      rw [if_pos rfl, beq_self_eq_true]
      simp only [Option.getD_some, members, List.flatMap_cons, List.map_append, List.map_cons,
        List.map_nil, List.append_assoc]
      exact List.Perm.append_left _ List.perm_append_comm
    · rw [if_neg hk, beq_false_of_ne (Ne.symm hk)]
      simp only [members, List.flatMap_cons, List.append_assoc] at ih ⊢
      exact List.Perm.append_left _ ih

/-- The rows with a key, each added to the group of its key. -/
def collect (key : β → Option κ) (rows : List β) : List (κ × List β) → List (κ × List β) :=
  rows.foldl fun groups row =>
    match key row with
    | none => groups
    | some k => addTo groups k row

theorem members_collect (key : β → Option κ) (rows : List β) (groups : List (κ × List β)) :
    (members (collect key rows groups)).Perm
      (members groups ++ rows.filterMap fun row => (key row).map fun k => (k, row)) := by
  induction rows generalizing groups with
  | nil =>
    rw [List.filterMap_nil, List.append_nil]
    exact List.Perm.refl _
  | cons row rows ih =>
    rw [collect, List.foldl_cons, List.filterMap_cons]
    refine (ih _).trans ?_
    rcases key row with _ | k
    · exact List.Perm.refl _
    · refine ((members_addTo groups k row).append_right _).trans ?_
      rw [List.append_assoc]
      exact List.Perm.refl _

theorem nodup_collect (key : β → Option κ) (rows : List β) {groups : List (κ × List β)}
    (h : (groups.map Prod.fst).Nodup) : ((collect key rows groups).map Prod.fst).Nodup := by
  induction rows generalizing groups with
  | nil => exact h
  | cons row rows ih =>
    rw [collect, List.foldl_cons]
    refine ih ?_
    rcases key row with _ | k
    · exact h
    · exact nodup_put h k _

end Groups

end Fields
