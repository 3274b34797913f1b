import Opsia.Lib.Table

/-!
# Tables with a second unique key

A relational table with a primary key and one further unique constraint. Both constraints are
part of the table, which can be read by either key: `byKey` and `byAlt` are its rows as keyed
tables. The operations are the ones that an upsert over the second key needs: update the row of
a key without changing what the constraint is about, and insert a row unless one of its keys is
taken.
-/

/-- A table of rows with the primary key `key` and the unique constraint `alt`. -/
structure UniqueTable {ρ : Type} {κ : Type} {ι : Type} (key : ρ → κ) (alt : ρ → ι) where
  /-- the rows in insertion order -/
  rows : List ρ
  /-- the primary key constraint -/
  nodup : (rows.map key).Nodup
  /-- the unique constraint -/
  unique : (rows.map alt).Nodup

namespace UniqueTable

variable {ρ : Type} {κ : Type} {ι : Type} {key : ρ → κ} {alt : ρ → ι}

/-- The table without rows. -/
def empty : UniqueTable key alt := ⟨[], List.nodup_nil, List.nodup_nil⟩

/-- The table, read by its primary key. -/
def byKey (t : UniqueTable key alt) : Table key := ⟨t.rows, t.nodup⟩

/-- The table, read by its unique constraint. -/
def byAlt (t : UniqueTable key alt) : Table alt := ⟨t.rows, t.unique⟩

variable [DecidableEq κ]

/-! ## Updating one row -/

/-- `UPDATE … WHERE key = k`, of columns that are in no key. -/
def modify (t : UniqueTable key alt) (k : κ) (f : ρ → ρ) (hf : ∀ r, key (f r) = key r)
    (halt : ∀ r, alt (f r) = alt r) : UniqueTable key alt where
  rows := (t.byKey.modify k f hf).rows
  nodup := (t.byKey.modify k f hf).nodup
  unique := by
    have hkeys : ((t.byKey.modify k f hf).rows).map alt = t.rows.map alt := by
      rw [Table.rows_modify, List.map_map]
      refine List.map_congr_left fun r _ => ?_
      rw [Function.comp_apply]
      split
      · exact halt r
      · rfl
    rw [hkeys]
    exact t.unique

variable (t : UniqueTable key alt) (k : κ) {f : ρ → ρ} (hf : ∀ r, key (f r) = key r)
  (halt : ∀ r, alt (f r) = alt r)

theorem byKey_modify (k' : κ) :
    (t.modify k f hf halt).byKey.find? k' =
      if k' = k then (t.byKey.find? k').map f else t.byKey.find? k' :=
  t.byKey.find?_modify k k' f hf

variable [DecidableEq ι]

theorem byAlt_modify (i : ι) :
    (t.modify k f hf halt).byAlt.find? i =
      (t.byAlt.find? i).map fun r => if key r = k then f r else r := by
  change ((t.rows.map fun r => if key r = k then f r else r).find? _) = _
  rw [List.find?_map]
  have hcomp : ((fun r => decide (alt r = i)) ∘ fun r => if key r = k then f r else r) =
      fun r => decide (alt r = i) := by
    funext r
    rw [Function.comp_apply]
    split
    · rw [halt]
    · rfl
  rw [hcomp]
  rfl

/-! ## Reading by either key -/

variable {r : ρ} {t' : UniqueTable key alt}

theorem find?_of_byAlt {t : UniqueTable key alt} {i : ι} (h : t.byAlt.find? i = some r) :
    t.byKey.find? (key r) = some r := by
  have hmem : r ∈ t.rows := Table.mem_of_find? h
  exact Table.find?_of_mem (t := t.byKey) hmem

/-! ## Inserting a row -/

/-- `INSERT … ON CONFLICT DO NOTHING RETURNING`: `none` when a key of the row is taken. -/
def insertDoNothing (r : ρ) : Option (UniqueTable key alt) :=
  if h : t.byKey.find? (key r) = none ∧ t.byAlt.find? (alt r) = none then
    some
      { rows := t.rows ++ [r]
        nodup := by
          rw [List.map_append, List.nodup_append]
          refine ⟨t.nodup, List.nodup_singleton _, ?_⟩
          intro k hk k' hk'
          obtain ⟨r', hr', rfl⟩ := List.mem_map.mp hk
          rw [List.mem_singleton.mp hk']
          exact Table.find?_eq_none.mp h.1 r' hr'
        unique := by
          rw [List.map_append, List.nodup_append]
          refine ⟨t.unique, List.nodup_singleton _, ?_⟩
          intro k hk k' hk'
          obtain ⟨r', hr', rfl⟩ := List.mem_map.mp hk
          rw [List.mem_singleton.mp hk']
          exact Table.find?_eq_none.mp h.2 r' hr' }
  else none

variable {t} {k}

theorem insertDoNothing_eq_some (h : t.insertDoNothing r = some t') :
    t.byKey.find? (key r) = none ∧ t.byAlt.find? (alt r) = none ∧ t'.rows = t.rows ++ [r] := by
  rw [insertDoNothing] at h
  by_cases hfree : t.byKey.find? (key r) = none ∧ t.byAlt.find? (alt r) = none
  · rw [dif_pos hfree] at h
    obtain rfl := Option.some.inj h
    exact ⟨hfree.1, hfree.2, rfl⟩
  · rw [dif_neg hfree] at h
    cases h

theorem byKey_of_insertDoNothing (h : t.insertDoNothing r = some t') (k : κ) :
    t'.byKey.find? k = if k = key r then some r else t.byKey.find? k := by
  obtain ⟨hfree, -, hrows⟩ := insertDoNothing_eq_some h
  obtain ⟨t'', ht''⟩ := Table.insert?_of_none hfree
  have hsame : t'.byKey.find? k = t''.find? k :=
    congrArg (List.find? fun r => decide (key r = k))
      (hrows.trans (Table.insert?_eq_some ht'').2.symm)
  rw [hsame, Table.find?_of_insert? ht'']

theorem byAlt_of_insertDoNothing (h : t.insertDoNothing r = some t') (i : ι) :
    t'.byAlt.find? i = if i = alt r then some r else t.byAlt.find? i := by
  obtain ⟨-, hfree, hrows⟩ := insertDoNothing_eq_some h
  obtain ⟨t'', ht''⟩ := Table.insert?_of_none hfree
  have hsame : t'.byAlt.find? i = t''.find? i :=
    congrArg (List.find? fun r => decide (alt r = i))
      (hrows.trans (Table.insert?_eq_some ht'').2.symm)
  rw [hsame, Table.find?_of_insert? ht'']

theorem insertDoNothing_of_taken {r' : ρ} (h : t.byKey.find? (key r) = some r') :
    t.insertDoNothing r = none := by
  refine dif_neg fun hfree => ?_
  rw [h] at hfree
  exact absurd hfree.1 (by simp)

end UniqueTable
