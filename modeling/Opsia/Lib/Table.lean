import Mathlib.Data.List.Nodup
import Mathlib.Data.List.Perm.Subperm

/-!
# Keyed tables

A relational table with a primary key: a list of rows in insertion order
together with the proof that no two rows share a key, so that a table with a
duplicate key cannot be built. The operations are the ones SQL statements over
a primary key need (look a row up, update the row of one key, insert a row unless
its key is taken), and those of a dictionary: assign a key, remove one. Each
operation comes with what it does to `find?` (the table as a partial function) and
to `rows` (the table as a sequence).
-/

/-- A table of rows of type `ρ` with the primary key `key`. -/
structure Table {ρ : Type} {κ : Type} (key : ρ → κ) where
  /-- the rows in insertion order -/
  rows : List ρ
  /-- the primary key constraint -/
  nodup : (rows.map key).Nodup

namespace Table

variable {ρ : Type} {κ : Type} {key : ρ → κ}

/-- The table without rows. -/
def empty : Table key := ⟨[], List.nodup_nil⟩

@[simp] theorem rows_empty : (empty : Table key).rows = [] := rfl

/-! ## Updating several rows -/

/-- `UPDATE … WHERE p`: rewrite the rows with the property `p`, keeping their
keys. -/
def modifyWhere (t : Table key) (p : ρ → Bool) (f : ρ → ρ) (hf : ∀ r, key (f r) = key r) :
    Table key where
  rows := t.rows.map fun r => if p r then f r else r
  nodup := by
    have hkeys : (t.rows.map fun r => if p r then f r else r).map key = t.rows.map key := by
      rw [List.map_map]
      refine List.map_congr_left fun r _ => ?_
      rcases hp : p r with _ | _
      · simp [hp]
      · simp [hp, hf]
    rw [hkeys]
    exact t.nodup

variable {t : Table key} {r : ρ}

/-- A row of the updated table is an updated row or an unchanged one. -/
theorem mem_modifyWhere {p : ρ → Bool} {f : ρ → ρ} (hf : ∀ r, key (f r) = key r)
    (h : r ∈ (t.modifyWhere p f hf).rows) :
    (∃ x ∈ t.rows, p x = true ∧ r = f x) ∨ (r ∈ t.rows ∧ p r = false) := by
  obtain ⟨x, hx, rfl⟩ := List.mem_map.mp h
  rcases hp : p x with _ | _
  · exact Or.inr (by simpa [hp] using hx)
  · exact Or.inl ⟨x, hx, hp, by simp⟩

/-- Every row of the table is still there, updated or not. -/
theorem exists_mem_modifyWhere (p : ρ → Bool) {f : ρ → ρ} (hf : ∀ r, key (f r) = key r)
    (h : r ∈ t.rows) :
    ∃ x ∈ (t.modifyWhere p f hf).rows, x = if p r then f r else r :=
  ⟨_, List.mem_map.mpr ⟨r, h, rfl⟩, rfl⟩

/-- Rows selected by a property that no updated row has are left alone. -/
theorem filter_modifyWhere_of_not (t : Table key) (q : ρ → Bool) (f : ρ → ρ)
    (hf : ∀ r, key (f r) = key r) (p : ρ → Bool) (hp : ∀ r, p (f r) = p r)
    (hq : ∀ r ∈ t.rows, q r = true → p r = false) :
    (t.modifyWhere q f hf).rows.filter p = t.rows.filter p := by
  change (t.rows.map fun r => if q r then f r else r).filter p = _
  have hcomp : (p ∘ fun r => if q r then f r else r) = p := by
    funext r
    rcases hqr : q r with _ | _
    · simp [hqr]
    · simp [hqr, hp]
  rw [List.filter_map, hcomp]
  conv_rhs => rw [← List.map_id (t.rows.filter p)]
  refine List.map_congr_left fun r hr => ?_
  obtain ⟨hmem, hpr⟩ := List.mem_filter.mp hr
  rcases hqr : q r with _ | _
  · rfl
  · rw [hq r hmem hqr] at hpr
    cases hpr

/-! ## Looking a row up -/

variable [DecidableEq κ]

/-- The row with the given key. -/
def find? (t : Table key) (k : κ) : Option ρ := t.rows.find? fun r => key r = k

variable {k : κ} {rows : List ρ} {t' : Table key}

theorem key_of_find? (h : t.find? k = some r) : key r = k := by
  simpa using List.find?_some h

theorem mem_of_find? (h : t.find? k = some r) : r ∈ t.rows :=
  List.mem_of_find?_eq_some h

theorem find?_of_mem (h : r ∈ t.rows) : t.find? (key r) = some r := by
  rcases hf : t.find? (key r) with _ | r'
  · have hne : key r ≠ key r := by simpa using List.find?_eq_none.mp hf r h
    exact absurd rfl hne
  · have hk : key r' = key r := key_of_find? hf
    rw [List.inj_on_of_nodup_map t.nodup (mem_of_find? hf) h hk]

theorem find?_eq_none : t.find? k = none ↔ ∀ r ∈ t.rows, key r ≠ k := by
  simp [find?]

theorem find?_filter (t : Table key) (p : ρ → Bool) (k : κ) :
    ((t.rows.filter p).find? fun r => key r = k) = (t.find? k).filter p := by
  rcases hf : t.find? k with _ | r
  · rw [Option.filter_none, List.find?_eq_none]
    intro x hx
    simpa using find?_eq_none.mp hf x (List.mem_filter.mp hx).1
  · have hr := mem_of_find? hf
    have hk := key_of_find? hf
    rcases hp : p r with _ | _
    · rw [Option.filter_some, hp, if_neg (by simp), List.find?_eq_none]
      intro x hx
      obtain ⟨hx, hpx⟩ := List.mem_filter.mp hx
      by_cases hkx : key x = k
      · have hxr := List.inj_on_of_nodup_map t.nodup hx hr (hkx.trans hk.symm)
        rw [hxr, hp] at hpx
        cases hpx
      · simpa using hkx
    · rw [Option.filter_some, hp, if_pos rfl]
      have hmem : r ∈ t.rows.filter p := List.mem_filter.mpr ⟨hr, hp⟩
      rcases hfind : (t.rows.filter p).find? (fun r => key r = k) with _ | x
      · have hne : key r ≠ k := by simpa using List.find?_eq_none.mp hfind r hmem
        exact absurd hk hne
      · have hkx : key x = k := by simpa using List.find?_some hfind
        have hx := (List.mem_filter.mp (List.mem_of_find?_eq_some hfind)).1
        rw [List.inj_on_of_nodup_map t.nodup hx hr (hkx.trans hk.symm)]

theorem find?_modifyWhere (t : Table key) (p : ρ → Bool) (f : ρ → ρ)
    (hf : ∀ r, key (f r) = key r) (k : κ) :
    (t.modifyWhere p f hf).find? k = (t.find? k).map fun r => if p r then f r else r := by
  change (t.rows.map _).find? _ = _
  rw [List.find?_map]
  have hkey : ((fun r => decide (key r = k)) ∘ fun r => if p r then f r else r) =
      fun r => decide (key r = k) := by
    funext r
    rcases hp : p r with _ | _
    · simp [hp]
    · simp [hp, hf]
  rw [hkey]
  rfl

/-! ## Updating one row -/

/-- `UPDATE … WHERE key = k`: rewrite the row of the key `k`, keeping its key. -/
def modify (t : Table key) (k : κ) (f : ρ → ρ) (hf : ∀ r, key (f r) = key r) : Table key where
  rows := t.rows.map fun r => if key r = k then f r else r
  nodup := by
    have hkeys : (t.rows.map fun r => if key r = k then f r else r).map key = t.rows.map key := by
      rw [List.map_map]
      refine List.map_congr_left fun r _ => ?_
      by_cases hk : key r = k
      · simp [hk, hf]
      · simp [hk]
    rw [hkeys]
    exact t.nodup

theorem rows_modify (t : Table key) (k : κ) (f : ρ → ρ) (hf : ∀ r, key (f r) = key r) :
    (t.modify k f hf).rows = t.rows.map fun r => if key r = k then f r else r := rfl

theorem find?_modify (t : Table key) (k k' : κ) (f : ρ → ρ) (hf : ∀ r, key (f r) = key r) :
    (t.modify k f hf).find? k' = if k' = k then (t.find? k').map f else t.find? k' := by
  rw [find?, rows_modify, List.find?_map]
  have hkey : ((fun r => decide (key r = k')) ∘ fun r => if key r = k then f r else r) =
      fun r => decide (key r = k') := by
    funext r
    by_cases hk : key r = k
    · simp [hk, hf]
    · simp [hk]
  rw [hkey]
  rcases hfind : t.rows.find? fun r => decide (key r = k') with _ | r
  · simp [find?, hfind]
  · have hk : key r = k' := key_of_find? (t := t) hfind
    by_cases hkk : k' = k
    · rw [if_pos hkk, find?, hfind, Option.map_some, Option.map_some, if_pos (hk.trans hkk)]
    · rw [if_neg hkk, find?, hfind, Option.map_some, if_neg (hk ▸ hkk)]

theorem find?_modify_self (t : Table key) (k : κ) (f : ρ → ρ) (hf : ∀ r, key (f r) = key r) :
    (t.modify k f hf).find? k = (t.find? k).map f := by
  rw [find?_modify, if_pos rfl]

theorem find?_modify_ne (t : Table key) {k' : κ} (f : ρ → ρ) (hf : ∀ r, key (f r) = key r)
    (hne : k' ≠ k) : (t.modify k f hf).find? k' = t.find? k' := by
  rw [find?_modify, if_neg hne]

/-- Rows selected by a property that `f` does not change are updated in place. -/
theorem filter_modify (t : Table key) (k : κ) (f : ρ → ρ) (hf : ∀ r, key (f r) = key r)
    (p : ρ → Bool) (hp : ∀ r, p (f r) = p r) :
    (t.modify k f hf).rows.filter p =
      (t.rows.filter p).map fun r => if key r = k then f r else r := by
  rw [rows_modify, List.filter_map]
  have hcomp : (p ∘ fun r => if key r = k then f r else r) = p := by
    funext r
    by_cases hk : key r = k
    · simp [hk, hp]
    · simp [hk]
  rw [hcomp]

/-- Rows selected by a property that the row of `k` lacks are left alone. -/
theorem filter_modify_of_not (t : Table key) (k : κ) (f : ρ → ρ)
    (hf : ∀ r, key (f r) = key r) (p : ρ → Bool) (hp : ∀ r, p (f r) = p r)
    (hk : ∀ r, t.find? k = some r → p r = false) :
    (t.modify k f hf).rows.filter p = t.rows.filter p := by
  rw [filter_modify t k f hf p hp]
  conv_rhs => rw [← List.map_id (t.rows.filter p)]
  refine List.map_congr_left fun r hr => ?_
  obtain ⟨hmem, hpr⟩ := List.mem_filter.mp hr
  by_cases hkr : key r = k
  · have := hk r (hkr ▸ find?_of_mem hmem)
    rw [hpr] at this
    cases this
  · rw [if_neg hkr]
    rfl

/-! ## Inserting a row -/

/-- `INSERT`: append the row, or `none` when its key is taken. -/
def insert? (t : Table key) (r : ρ) : Option (Table key) :=
  if h : t.find? (key r) = none then
    some
      { rows := t.rows ++ [r]
        nodup := by
          rw [List.map_append, List.nodup_append]
          refine ⟨t.nodup, by simp, ?_⟩
          intro k hk k' hk'
          obtain ⟨r', hr', rfl⟩ := List.mem_map.mp hk
          rw [List.map_cons, List.map_nil, List.mem_singleton] at hk'
          rw [hk']
          exact find?_eq_none.mp h r' hr' }
  else none

theorem insert?_eq_some (h : t.insert? r = some t') :
    t.find? (key r) = none ∧ t'.rows = t.rows ++ [r] := by
  unfold insert? at h
  by_cases hf : t.find? (key r) = none
  · rw [dif_pos hf] at h
    have ht' := Option.some.inj h
    subst ht'
    exact ⟨hf, rfl⟩
  · rw [dif_neg hf] at h
    cases h

theorem insert?_of_none (h : t.find? (key r) = none) :
    ∃ t', t.insert? r = some t' := by
  unfold insert?
  rw [dif_pos h]
  exact ⟨_, rfl⟩

theorem find?_of_insert? (h : t.insert? r = some t') (k : κ) :
    t'.find? k = if k = key r then some r else t.find? k := by
  obtain ⟨hnone, hrows⟩ := insert?_eq_some h
  rw [find?, hrows, List.find?_append]
  by_cases hk : k = key r
  · have : t.rows.find? (fun x => decide (key x = k)) = none := by rw [hk]; exact hnone
    rw [this, if_pos hk]
    simp [hk]
  · rw [if_neg hk]
    have : decide (key r = k) = false := by simp [Ne.symm hk]
    simp [find?, this]

/-- `INSERT … ON CONFLICT DO NOTHING`. -/
def insertIfAbsent (t : Table key) (r : ρ) : Table key := (t.insert? r).getD t

theorem mem_insertIfAbsent {x : ρ} (h : x ∈ (t.insertIfAbsent r).rows) :
    x ∈ t.rows ∨ x = r := by
  unfold insertIfAbsent at h
  rcases hi : t.insert? r with _ | t'
  · rw [hi] at h
    exact Or.inl h
  · rw [hi, Option.getD_some, (insert?_eq_some hi).2] at h
    rcases List.mem_append.mp h with h | h
    · exact Or.inl h
    · exact Or.inr (List.mem_singleton.mp h)

theorem mem_insertIfAbsent_of_mem {x : ρ} (h : x ∈ t.rows) (r : ρ) :
    x ∈ (t.insertIfAbsent r).rows := by
  rw [insertIfAbsent]
  rcases hi : t.insert? r with _ | t'
  · exact h
  · rw [Option.getD_some, (insert?_eq_some hi).2]
    exact List.mem_append_left _ h

theorem find?_insertIfAbsent (t : Table key) (r : ρ) (k : κ) :
    (t.insertIfAbsent r).find? k =
      if k = key r then some ((t.find? k).getD r) else t.find? k := by
  rw [insertIfAbsent]
  rcases hi : t.insert? r with _ | t'
  · rcases hf : t.find? (key r) with _ | r'
    · obtain ⟨t', ht'⟩ := insert?_of_none hf
      rw [hi] at ht'
      cases ht'
    · by_cases hk : k = key r
      · rw [if_pos hk, hk, Option.getD_none, hf, Option.getD_some]
      · rw [if_neg hk, Option.getD_none]
  · have hnone := (insert?_eq_some hi).1
    rw [Option.getD_some, find?_of_insert? hi]
    by_cases hk : k = key r
    · rw [if_pos hk, if_pos hk, hk, hnone, Option.getD_none]
    · rw [if_neg hk, if_neg hk]

/-! ## Assigning and removing a row -/

/-- `t[key r] = r`: replace the row of the key in place, or append `r`. -/
def put (t : Table key) (r : ρ) : Table key :=
  (t.insert? r).getD (t.modify (key r) (fun x => if key x = key r then r else x) fun x => by
    by_cases hx : key x = key r
    · rw [if_pos hx, hx]
    · rw [if_neg hx])

theorem find?_put (t : Table key) (r : ρ) (k : κ) :
    (t.put r).find? k = if k = key r then some r else t.find? k := by
  rw [put]
  rcases hi : t.insert? r with _ | t'
  · rw [Option.getD_none, find?_modify]
    by_cases hk : k = key r
    · rw [if_pos hk, if_pos hk]
      rcases hf : t.find? (key r) with _ | x
      · obtain ⟨t', ht'⟩ := insert?_of_none hf
        rw [hi] at ht'
        cases ht'
      · rw [hk, hf, Option.map_some, if_pos (key_of_find? hf)]
    · rw [if_neg hk, if_neg hk]
  · rw [Option.getD_some, find?_of_insert? hi]

theorem mem_put {x : ρ} (h : x ∈ (t.put r).rows) :
    x = r ∨ (x ∈ t.rows ∧ key x ≠ key r) := by
  have hfind := find?_of_mem h
  rw [find?_put] at hfind
  by_cases hk : key x = key r
  · rw [if_pos hk] at hfind
    exact Or.inl (Option.some.inj hfind).symm
  · rw [if_neg hk] at hfind
    exact Or.inr ⟨mem_of_find? hfind, hk⟩

/-- A new key comes last. -/
theorem rows_put_of_none (h : t.find? (key r) = none) :
    (t.put r).rows = t.rows ++ [r] := by
  obtain ⟨t', ht'⟩ := insert?_of_none h
  rw [put, ht', Option.getD_some, (insert?_eq_some ht').2]

theorem mem_foldl_put {x : ρ} (h : x ∈ (rows.foldl put t).rows) :
    x ∈ rows ∨ x ∈ t.rows := by
  induction rows generalizing t with
  | nil => exact Or.inr h
  | cons r rows ih =>
    rcases ih h with h | h
    · exact Or.inl (List.mem_cons_of_mem _ h)
    · rcases mem_put h with rfl | ⟨h, -⟩
      · exact Or.inl List.mem_cons_self
      · exact Or.inr h

/-- A key that is there stays. -/
theorem exists_foldl_put_of_mem (rows : List ρ) {x : ρ} (h : x ∈ t.rows) :
    ∃ y ∈ (rows.foldl put t).rows, key y = key x := by
  induction rows generalizing t x with
  | nil => exact ⟨x, h, rfl⟩
  | cons r rows ih =>
    have hfind := find?_put t r (key x)
    by_cases hk : key x = key r
    · rw [if_pos hk] at hfind
      obtain ⟨y, hy, hyr⟩ := ih (mem_of_find? hfind)
      exact ⟨y, hy, hyr.trans hk.symm⟩
    · rw [if_neg hk, find?_of_mem h] at hfind
      exact ih (mem_of_find? hfind)

/-- Every assigned key is there. -/
theorem exists_foldl_put (h : r ∈ rows) :
    ∃ y ∈ (rows.foldl put t).rows, key y = key r := by
  induction rows generalizing t with
  | nil => cases h
  | cons x rows ih =>
    rcases List.mem_cons.mp h with rfl | h
    · have hfind := find?_put t r (key r)
      rw [if_pos rfl] at hfind
      exact exists_foldl_put_of_mem rows (mem_of_find? hfind)
    · exact ih h

theorem find?_foldl_put (hrows : (rows.map key).Nodup) (t : Table key) (k : κ) :
    (rows.foldl put t).find? k = (rows.find? fun r => key r = k).or (t.find? k) := by
  induction rows generalizing t with
  | nil => rfl
  | cons r rows ih =>
    rw [List.map_cons, List.nodup_cons] at hrows
    rw [List.foldl_cons, ih hrows.2, find?_put]
    by_cases hk : k = key r
    · subst hk
      have hrest : rows.find? (fun x => decide (key x = key r)) = none := by
        refine List.find?_eq_none.mpr fun x hx hxk => hrows.1 ?_
        rw [← of_decide_eq_true hxk]
        exact List.mem_map_of_mem hx
      simp [hrest]
    · have hne : key r ≠ k := Ne.symm hk
      simp [hk, hne]

/-- Assigning rows with new keys that all differ appends them. -/
theorem rows_foldl_put (h : ((t.rows ++ rows).map key).Nodup) :
    (rows.foldl put t).rows = t.rows ++ rows := by
  induction rows generalizing t with
  | nil => rw [List.append_nil]; rfl
  | cons r rows ih =>
    have hnone : t.find? (key r) = none := by
      refine find?_eq_none.mpr fun x hx hkx => ?_
      rw [List.map_append, List.nodup_append] at h
      exact h.2.2 (key x) (List.mem_map_of_mem hx) (key r)
        (List.mem_map_of_mem List.mem_cons_self) hkx
    have hput := rows_put_of_none hnone
    have hassoc : (t.put r).rows ++ rows = t.rows ++ r :: rows := by
      rw [hput, List.append_assoc, List.singleton_append]
    rw [List.foldl_cons, ih (by rw [hassoc]; exact h), hassoc]

/-- `t.pop(k, None)`: remove the row of the key `k`. -/
def erase (t : Table key) (k : κ) : Table key where
  rows := t.rows.filter fun r => key r ≠ k
  nodup := t.nodup.sublist (List.filter_sublist.map key)

theorem mem_of_mem_erase (h : r ∈ (t.erase k).rows) :
    r ∈ t.rows := (List.mem_filter.mp h).1

theorem find?_erase (t : Table key) (k k' : κ) :
    (t.erase k).find? k' = if k' = k then none else t.find? k' := by
  rcases hf : (t.erase k).find? k' with _ | r
  · by_cases hk : k' = k
    · rw [if_pos hk]
    · rw [if_neg hk]
      refine (find?_eq_none.mpr fun r hr hkr => ?_).symm
      have hmem : r ∈ (t.erase k).rows := List.mem_filter.mpr ⟨hr, by simpa [hkr] using hk⟩
      exact find?_eq_none.mp hf r hmem hkr
  · have hmem := List.mem_filter.mp (mem_of_find? hf)
    have hkey := key_of_find? hf
    have hne : k' ≠ k := by simpa [hkey] using hmem.2
    rw [if_neg hne, ← hkey, find?_of_mem hmem.1]

theorem perm_erase (h : t.find? k = some r) :
    t.rows.Perm (r :: (t.erase k).rows) := by
  obtain ⟨rows, nodup⟩ := t
  change rows.find? (fun x => key x = k) = some r at h
  change rows.Perm (r :: rows.filter fun x => key x ≠ k)
  induction rows with
  | nil => cases h
  | cons x rows ih =>
    rw [List.map_cons, List.nodup_cons] at nodup
    by_cases hx : key x = k
    · -- no other row has the key
      rw [List.find?_cons_of_pos (by simpa using hx)] at h
      cases h
      have hrest : rows.filter (fun y => key y ≠ k) = rows := by
        refine List.filter_eq_self.mpr fun y hy => ?_
        have hne : key y ≠ k := fun hk => nodup.1 (List.mem_map.mpr ⟨y, hy, hk.trans hx.symm⟩)
        simpa using hne
      rw [List.filter_cons_of_neg (by simpa using hx), hrest]
    · rw [List.find?_cons_of_neg (by simpa using hx)] at h
      rw [List.filter_cons_of_pos (by simpa using hx)]
      exact ((ih nodup.2 h).cons x).trans (List.Perm.swap r x _)

/-! ## Reading one key off the rows -/

theorem filterMap_of_perm {β : Type} {l : List ρ} (hl : l.Perm t.rows) (f : ρ → Option β) (k : κ) :
    l.filterMap (fun r => if key r = k then f r else none) = ((t.find? k).bind f).toList := by
  have hnodup : (l.map key).Nodup := (hl.map key).nodup_iff.mpr t.nodup
  have habsent : ∀ m : List ρ, (∀ r ∈ m, key r ≠ k) →
      m.filterMap (fun r => if key r = k then f r else none) = [] := by
    intro m hm
    refine List.filterMap_eq_nil_iff.mpr fun r hr => ?_
    rw [if_neg (hm r hr)]
  rcases hf : t.find? k with _ | r
  · exact habsent l fun r hr => find?_eq_none.mp hf r (hl.mem_iff.mp hr)
  · obtain ⟨before, after, rfl⟩ := List.append_of_mem (hl.mem_iff.mpr (mem_of_find? hf))
    have hkey : key r = k := key_of_find? hf
    rw [List.map_append, List.map_cons, List.nodup_append, List.nodup_cons] at hnodup
    obtain ⟨-, ⟨hafter, -⟩, hbefore⟩ := hnodup
    rw [List.filterMap_append, List.filterMap_cons, if_pos hkey, Option.bind_some]
    -- no other row has the key
    rw [habsent before fun x hx hxk =>
        hbefore _ (List.mem_map_of_mem hx) _ List.mem_cons_self (hxk.trans hkey.symm),
      habsent after fun x hx hxk => hafter (hkey ▸ hxk ▸ List.mem_map_of_mem hx)]
    cases f r <;> rfl

/-! ## Counting rows -/

/-- A table has no more rows of a kind than another, up to a few new keys, when
every other row of the kind has a row of the kind under its key there. -/
theorem countP_le_of_find? {p : ρ → Bool} (new : List κ)
    (h : ∀ k r', t'.find? k = some r' → p r' = true →
      k ∈ new ∨ ∃ r, t.find? k = some r ∧ p r = true) :
    t'.rows.countP p ≤ t.rows.countP p + new.length := by
  have hnodup : ((t'.rows.filter p).map key).Nodup := t'.nodup.sublist (List.filter_sublist.map _)
  have hsub : (t'.rows.filter p).map key ⊆ (t.rows.filter p).map key ++ new := by
    intro k hk
    obtain ⟨r', hr', rfl⟩ := List.mem_map.mp hk
    obtain ⟨hmem, hp⟩ := List.mem_filter.mp hr'
    obtain hnew | ⟨r, hr, hpr⟩ := h _ r' (find?_of_mem hmem) hp
    · exact List.mem_append_right _ hnew
    · rw [← key_of_find? hr]
      exact List.mem_append_left _
        (List.mem_map_of_mem (List.mem_filter.mpr ⟨mem_of_find? hr, hpr⟩))
  have hlength := (hnodup.subperm hsub).length_le
  simpa [List.countP_eq_length_filter] using hlength

theorem countP_erase (h : t.find? k = some r) (p : ρ → Bool) :
    (t.erase k).rows.countP p + (if p r then 1 else 0) = t.rows.countP p := by
  rw [(perm_erase h).countP_eq p, List.countP_cons]

theorem countP_erase_le (t : Table key) (k : κ) (p : ρ → Bool) :
    (t.erase k).rows.countP p ≤ t.rows.countP p := List.filter_sublist.countP_le

theorem countP_put_le (t : Table key) (r : ρ) (p : ρ → Bool) :
    (t.put r).rows.countP p ≤ t.rows.countP p + if p r then 1 else 0 := by
  have h : (t.put r).rows.countP p ≤
      t.rows.countP p + (if p r then [key r] else []).length := by
    refine countP_le_of_find? _ fun k x hx hpx => ?_
    rw [find?_put] at hx
    split_ifs at hx with hk
    · obtain rfl := Option.some.inj hx
      rw [if_pos hpx]
      exact .inl (hk ▸ List.mem_singleton_self _)
    · exact .inr ⟨x, hx, hpx⟩
  split_ifs at h ⊢ <;> simpa using h

end Table
