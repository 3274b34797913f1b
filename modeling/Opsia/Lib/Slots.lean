import Mathlib.Data.List.Nodup
import Mathlib.Data.Nat.Find
import Mathlib.Tactic.Common

/-!
# First write, last read

A list of slots that are written under one key and read under another, usually the same. A write
changes the first slot of its key; a read sees the last slot of its key that holds a value. Two
slots of one key, or a slot that is read under another key than it is written, make a read miss
what was written.

A batch of writes, each of which changes what its key reads, is read back and leaves every other
key alone exactly when each of its keys is `Addressed` (`readsBack_iff`).
-/

namespace Slots

variable {κ ν : Type}

/-- A slot, with its two keys. -/
structure Slot (κ ν : Type) : Type where
  reads : κ
  writes : κ
  value : Option ν

variable {slots : List (Slot κ ν)} {k : κ} {v : Option ν}

/-- The first slot that is written under a key. -/
def First (slots : List (Slot κ ν)) (k : κ) (i : ℕ) : Prop :=
  (slots.map Slot.writes)[i]? = some k ∧ ∀ j < i, (slots.map Slot.writes)[j]? ≠ some k

variable {i : ℕ} {s : Slot κ ν} {slots' : List (Slot κ ν)}

theorem First.unique {j : ℕ} (hi : First slots k i) (hj : First slots k j) : i = j := by
  rcases Nat.lt_trichotomy i j with h | h | h
  · exact absurd hi.1 (hj.2 i h)
  · exact h
  · exact absurd hj.1 (hi.2 j h)

theorem First.key {k' : κ} (h : First slots k i) (h' : First slots k' i) : k = k' :=
  Option.some.inj (h.1.symm.trans h'.1)

theorem exists_first (h : k ∈ slots.map Slot.writes) : ∃ i, First slots k i := by
  classical
  have hex : ∃ i, (slots.map Slot.writes)[i]? = some k := List.mem_iff_getElem?.mp h
  exact ⟨Nat.find hex, Nat.find_spec hex, fun j hj => Nat.find_min hex hj⟩

theorem first_congr (h : slots'.map Slot.writes = slots.map Slot.writes) :
    First slots' k i ↔ First slots k i := by
  rw [First, First, h]

variable [DecidableEq κ]

/-- The last value of a key. -/
def read : List (Slot κ ν) → κ → Option ν
  | [], _ => none
  | slot :: slots, k => (read slots k).or (if slot.reads = k then slot.value else none)

/-- The first slot of a key gets a value, or loses it. -/
def write : List (Slot κ ν) → κ → Option ν → List (Slot κ ν)
  | [], _, _ => []
  | slot :: slots, k, v =>
    if slot.writes = k then { slot with value := v } :: slots else slot :: write slots k v

/-- Some writes, one after the other. -/
def writeAll (slots : List (Slot κ ν)) (batch : List (κ × Option ν)) : List (Slot κ ν) :=
  batch.foldl (fun slots entry => write slots entry.1 entry.2) slots

/-- No slot is read under a key that another slot is only written under. -/
def Straight (slots : List (Slot κ ν)) : Prop :=
  ∀ s ∈ slots, ∀ t ∈ slots, s.reads ≠ s.writes → t.reads ≠ t.writes → s.reads ≠ t.writes

/-- A write to the key is what a read of it sees: the first slot of the key is read under it, the
later ones are empty, and all others are when the write leaves nothing. -/
def Addressed (slots : List (Slot κ ν)) (k : κ) (v : Option ν) : Prop :=
  ∃ (i : ℕ) (s : Slot κ ν), slots[i]? = some s ∧ First slots k i ∧ s.reads = k ∧
    ∀ j t, slots[j]? = some t → t.reads = k → i < j ∨ (v = none ∧ j ≠ i) → t.value = none

/-- The batch is read back, and nothing else changes. -/
structure ReadsBack (slots : List (Slot κ ν)) (batch : List (κ × Option ν)) : Prop where
  written : ∀ entry ∈ batch, read (writeAll slots batch) entry.1 = entry.2
  kept : ∀ k ∉ batch.map Prod.fst, read (writeAll slots batch) k = read slots k

/-! ## Reading -/

theorem read_eq_none_iff :
    read slots k = none ↔ ∀ (i : ℕ) (s : Slot κ ν), slots[i]? = some s → s.reads = k →
      s.value = none := by
  induction slots with
  | nil => simp [read]
  | cons slot slots ih =>
    rw [read, Option.or_eq_none_iff, ih]
    constructor
    · rintro ⟨hrest, hhead⟩ i s hs hreads
      cases i with
      | zero =>
        cases hs
        rwa [if_pos hreads] at hhead
      | succ i => exact hrest i s hs hreads
    · intro h
      refine ⟨fun i s hs => h (i + 1) s hs, ?_⟩
      split
      · exact h 0 slot rfl ‹_›
      · rfl

theorem exists_of_read {a : ν} (h : read slots k = some a) :
    ∃ s ∈ slots, s.reads = k ∧ s.value = some a := by
  induction slots with
  | nil => cases h
  | cons slot slots ih =>
    rw [read] at h
    cases hrest : read slots k with
    | some b =>
      rw [hrest, Option.some_or] at h
      obtain ⟨s, hs, hreads, hvalue⟩ := ih (hrest.trans h)
      exact ⟨s, List.mem_cons_of_mem slot hs, hreads, hvalue⟩
    | none =>
      rw [hrest, Option.none_or] at h
      split at h
      · exact ⟨slot, List.mem_cons_self, ‹_›, h⟩
      · cases h

theorem read_of_last (hs : slots[i]? = some s) (hreads : s.reads = k)
    (hlater : ∀ j t, i < j → slots[j]? = some t → t.reads = k → t.value = none)
    (hvalue : s.value ≠ none) : read slots k = s.value := by
  induction slots generalizing i with
  | nil => cases hs
  | cons slot slots ih =>
    rw [read]
    cases i with
    | zero =>
      cases hs
      have hrest : read slots k = none := read_eq_none_iff.mpr fun j t ht htk =>
        hlater (j + 1) t (Nat.succ_pos j) ht htk
      rw [hrest, if_pos hreads, Option.none_or]
    | succ i =>
      have hfound := ih (i := i) hs fun j t hj ht htk => hlater (j + 1) t (by omega) ht htk
      rw [hfound]
      obtain ⟨a, ha⟩ := Option.ne_none_iff_exists'.mp hvalue
      rw [ha, Option.some_or]

theorem read_congr (hlength : slots'.length = slots.length)
    (h : ∀ (i : ℕ) (s s' : Slot κ ν), slots[i]? = some s → slots'[i]? = some s' →
      s'.reads = s.reads ∧ (s.reads = k → s'.value = s.value)) :
    read slots' k = read slots k := by
  induction slots generalizing slots' with
  | nil =>
    rw [List.length_eq_zero_iff.mp hlength]
  | cons slot slots ih =>
    cases slots' with
    | nil => cases hlength
    | cons slot' slots' =>
      have hrest : read slots' k = read slots k := ih (by simpa using hlength)
        fun i s s' hs hs' => h (i + 1) s s' hs hs'
      obtain ⟨hreads, hvalue⟩ := h 0 slot slot' rfl rfl
      rw [read, read, hrest, hreads]
      by_cases hk : slot.reads = k
      · rw [if_pos hk, if_pos hk, hvalue hk]
      · rw [if_neg hk, if_neg hk]

theorem read_congr_of_later {j : ℕ} {t : Slot κ ν} (hlength : slots'.length = slots.length)
    (h : ∀ (n : ℕ) (s s' : Slot κ ν), slots[n]? = some s → slots'[n]? = some s' →
      s'.reads = s.reads ∧ (s.reads = k → n ≠ i → s'.value = s.value)) (hij : i < j)
    (ht : slots[j]? = some t) (hreads : t.reads = k) (hvalue : t.value ≠ none) :
    read slots' k = read slots k := by
  induction slots generalizing slots' i j with
  | nil => cases ht
  | cons slot slots ih =>
    cases slots' with
    | nil => cases hlength
    | cons slot' slots' =>
      have hlength' : slots'.length = slots.length := by simpa using hlength
      cases j with
      | zero => exact absurd hij (Nat.not_lt_zero i)
      | succ j =>
        cases i with
        | zero =>
          have hrest : read slots' k = read slots k := read_congr hlength' fun n s s' hs hs' =>
            (h (n + 1) s s' hs hs').imp_right fun hsame hk => hsame hk (Nat.succ_ne_zero n)
          obtain ⟨a, ha⟩ := Option.ne_none_iff_exists'.mp
            (fun hnone => hvalue (read_eq_none_iff.mp hnone j t ht hreads))
          rw [read, read, hrest, ha, Option.some_or, Option.some_or]
        | succ i =>
          have hrest := ih hlength' (fun n s s' hs hs' =>
            (h (n + 1) s s' hs hs').imp_right fun hsame hk hn => hsame hk (by omega))
            (Nat.lt_of_succ_lt_succ hij) ht
          obtain ⟨hkey, hsame⟩ := h 0 slot slot' rfl rfl
          rw [read, read, hrest, hkey]
          by_cases hk : slot.reads = k
          · rw [if_pos hk, if_pos hk, hsame hk (by omega)]
          · rw [if_neg hk, if_neg hk]

/-! ## Writing -/

@[simp]
theorem map_writes_write : (write slots k v).map Slot.writes = slots.map Slot.writes := by
  induction slots with
  | nil => rfl
  | cons slot slots ih =>
    rw [write]
    split
    · rfl
    · simp [ih]

@[simp]
theorem map_reads_write : (write slots k v).map Slot.reads = slots.map Slot.reads := by
  induction slots with
  | nil => rfl
  | cons slot slots ih =>
    rw [write]
    split
    · rfl
    · simp [ih]

theorem getElem?_write_of_first (h : First slots k i) (hs : slots[i]? = some s) :
    (write slots k v)[i]? = some { s with value := v } := by
  induction slots generalizing i with
  | nil => cases hs
  | cons slot slots ih =>
    cases i with
    | zero =>
      cases hs
      have hwrites : s.writes = k := by simpa using h.1
      rw [write, if_pos hwrites]
      rfl
    | succ i =>
      have hne : slot.writes ≠ k := by simpa using h.2 0 (Nat.succ_pos i)
      rw [write, if_neg hne]
      exact ih ⟨h.1, fun j hj => h.2 (j + 1) (by omega)⟩ hs

theorem getElem?_write_of_not_first (h : ¬First slots k i) :
    (write slots k v)[i]? = slots[i]? := by
  induction slots generalizing i with
  | nil => rfl
  | cons slot slots ih =>
    rw [write]
    split
    · rename_i hwrites
      cases i with
      | zero => exact absurd ⟨by simpa using hwrites, fun j hj => absurd hj (Nat.not_lt_zero j)⟩ h
      | succ i => rfl
    · rename_i hne
      cases i with
      | zero => rfl
      | succ i =>
        refine ih fun hfirst => h ⟨hfirst.1, fun j hj => ?_⟩
        cases j with
        | zero => simpa using hne
        | succ j => exact hfirst.2 j (by omega)

theorem write_of_not_mem (h : k ∉ slots.map Slot.writes) : write slots k v = slots := by
  induction slots with
  | nil => rfl
  | cons slot slots ih =>
    rw [List.map_cons, List.mem_cons, not_or] at h
    rw [write, if_neg (Ne.symm h.1), ih h.2]

theorem write_append_of_mem {rest : List (Slot κ ν)} (h : k ∈ slots.map Slot.writes) :
    write (slots ++ rest) k v = write slots k v ++ rest := by
  induction slots with
  | nil => cases h
  | cons slot slots ih =>
    rw [List.cons_append, write, write]
    by_cases hk : slot.writes = k
    · rw [if_pos hk, if_pos hk, List.cons_append]
    · have hrest : k ∈ slots.map Slot.writes := by
        rcases List.mem_cons.mp h with rfl | hrest
        · exact absurd rfl hk
        · exact hrest
      rw [if_neg hk, if_neg hk, List.cons_append, ih hrest]

theorem write_append_of_not_mem {rest : List (Slot κ ν)} (h : k ∉ slots.map Slot.writes) :
    write (slots ++ rest) k v = slots ++ write rest k v := by
  induction slots with
  | nil => rfl
  | cons slot slots ih =>
    rw [List.map_cons, List.mem_cons, not_or] at h
    rw [List.cons_append, write, if_neg (Ne.symm h.1), ih h.2, List.cons_append]

variable {batch : List (κ × Option ν)}

@[simp]
theorem map_writes_writeAll : (writeAll slots batch).map Slot.writes = slots.map Slot.writes := by
  induction batch generalizing slots with
  | nil => rfl
  | cons entry batch ih => exact ih.trans map_writes_write

@[simp]
theorem map_reads_writeAll : (writeAll slots batch).map Slot.reads = slots.map Slot.reads := by
  induction batch generalizing slots with
  | nil => rfl
  | cons entry batch ih => exact ih.trans map_reads_write

theorem reads_writeAll {s' : Slot κ ν} (hs : slots[i]? = some s)
    (hs' : (writeAll slots batch)[i]? = some s') : s'.reads = s.reads := by
  have h : ((writeAll slots batch).map Slot.reads)[i]? = (slots.map Slot.reads)[i]? := by
    rw [map_reads_writeAll]
  simp only [List.getElem?_map, hs, hs', Option.map_some] at h
  exact Option.some.inj h

theorem length_writeAll : (writeAll slots batch).length = slots.length := by
  rw [← List.length_map Slot.writes, map_writes_writeAll, List.length_map]

theorem getElem?_writeAll_of_not_first (h : ∀ entry ∈ batch, ¬First slots entry.1 i) :
    (writeAll slots batch)[i]? = slots[i]? := by
  induction batch generalizing slots with
  | nil => rfl
  | cons entry batch ih =>
    have hrest : (writeAll (write slots entry.1 entry.2) batch)[i]? =
        (write slots entry.1 entry.2)[i]? := ih fun e he hfirst =>
      h e (List.mem_cons_of_mem entry he) ((first_congr map_writes_write).mp hfirst)
    exact hrest.trans (getElem?_write_of_not_first (h entry List.mem_cons_self))

theorem getElem?_writeAll_of_first (hkeys : (batch.map Prod.fst).Nodup) (hmem : (k, v) ∈ batch)
    (h : First slots k i) (hs : slots[i]? = some s) :
    (writeAll slots batch)[i]? = some { s with value := v } := by
  induction batch generalizing slots s with
  | nil => cases hmem
  | cons entry batch ih =>
    rw [List.map_cons, List.nodup_cons] at hkeys
    rcases List.mem_cons.mp hmem with rfl | hmem
    · -- the later writes have other keys
      have hwritten := getElem?_write_of_first (v := v) h hs
      rw [writeAll, List.foldl_cons]
      refine (getElem?_writeAll_of_not_first fun e he hfirst => ?_).trans hwritten
      have hkey := h.key ((first_congr map_writes_write).mp hfirst)
      exact hkeys.1 (List.mem_map.mpr ⟨e, he, hkey.symm⟩)
    · have hother : ¬First slots entry.1 i := by
        intro hfirst
        exact hkeys.1 (List.mem_map.mpr ⟨(k, v), hmem, h.key hfirst⟩)
      exact ih hkeys.2 hmem ((first_congr map_writes_write).mpr h)
        ((getElem?_write_of_not_first hother).trans hs)

/-! ## Reading back -/

/-- The slots that the batch changes are read under the keys that they are written under. -/
def Matched (slots : List (Slot κ ν)) (batch : List (κ × Option ν)) : Prop :=
  ∀ entry ∈ batch, ∀ (i : ℕ) (s : Slot κ ν), First slots entry.1 i → slots[i]? = some s →
    s.reads = entry.1

omit [DecidableEq κ] in
theorem exists_getElem?_of_first (h : First slots k i) :
    ∃ s, slots[i]? = some s ∧ s.writes = k := by
  have hwrites := h.1
  rw [List.getElem?_map, Option.map_eq_some_iff] at hwrites
  exact hwrites

theorem Matched.getElem?_writeAll (hmatched : Matched slots batch) (hs : slots[i]? = some s)
    (hreads : s.reads = k) (hfirst : ¬First slots k i) :
    (writeAll slots batch)[i]? = some s := by
  refine (getElem?_writeAll_of_not_first fun entry hentry h => hfirst ?_).trans hs
  have hkey : entry.1 = k := (hmatched entry hentry i s h hs).symm.trans hreads
  rwa [hkey] at h

theorem read_writeAll_of_left (h : ∀ entry ∈ batch, ∀ (i : ℕ) (s : Slot κ ν),
    First slots entry.1 i → slots[i]? = some s → s.reads ≠ k) :
    read (writeAll slots batch) k = read slots k := by
  refine read_congr length_writeAll fun i s s' hs hs' => ⟨reads_writeAll hs hs', fun hreads => ?_⟩
  have hsame := getElem?_writeAll_of_not_first fun entry hentry hfirst =>
    h entry hentry i s hfirst hs hreads
  rw [hs, hs'] at hsame
  cases hsame
  rfl

omit [DecidableEq κ] in
theorem Addressed.matched (h : ∀ entry ∈ batch, Addressed slots entry.1 entry.2) :
    Matched slots batch := by
  intro entry hentry i s hfirst hs
  obtain ⟨j, t, ht, hfirst', hreads, -⟩ := h entry hentry
  obtain rfl := hfirst.unique hfirst'
  rw [hs] at ht
  cases ht
  exact hreads

theorem Addressed.read_writeAll (h : Addressed slots k v) (hkeys : (batch.map Prod.fst).Nodup)
    (hmatched : Matched slots batch) (hmem : (k, v) ∈ batch) :
    read (writeAll slots batch) k = v := by
  obtain ⟨i, s, hs, hfirst, hreads, hempty⟩ := h
  have hwritten := getElem?_writeAll_of_first hkeys hmem hfirst hs
  -- the other slots of the key keep their values
  have hother : ∀ (j : ℕ) (t : Slot κ ν), j ≠ i → (writeAll slots batch)[j]? = some t →
      t.reads = k → i < j ∨ v = none → t.value = none := by
    intro j t hj ht htk hcase
    have hlt : j < slots.length := by
      have := (List.getElem?_eq_some_iff.mp ht).1
      rwa [length_writeAll] at this
    have htj : slots[j]? = some slots[j] := List.getElem?_eq_getElem hlt
    have hreads' : slots[j].reads = k := (reads_writeAll htj ht).symm.trans htk
    have hsame := hmatched.getElem?_writeAll htj hreads' fun hj' => hj (hj'.unique hfirst)
    rw [ht] at hsame
    obtain rfl := Option.some.inj hsame
    exact hempty j _ htj hreads' (hcase.imp_right fun hv => ⟨hv, hj⟩)
  cases hv : v with
  | none =>
    refine read_eq_none_iff.mpr fun j t ht htk => ?_
    by_cases hj : j = i
    · subst hj
      rw [hwritten] at ht
      cases ht
      exact hv
    · exact hother j t hj ht htk (.inr hv)
  | some a =>
    have hlast := read_of_last hwritten hreads
      (fun j t hj ht htk => hother j t (by omega) ht htk (.inl hj)) (by simp [hv])
    rw [hlast]
    exact hv

/-- **A batch is read back exactly when its keys are addressed**, if each of its writes changes what
its key reads. -/
theorem readsBack_iff (hstraight : Straight slots) (hkeys : (batch.map Prod.fst).Nodup)
    (hchange : ∀ entry ∈ batch, read slots entry.1 ≠ entry.2) :
    ReadsBack slots batch ↔ ∀ entry ∈ batch, Addressed slots entry.1 entry.2 := by
  constructor
  · intro h
    have hmatched : Matched slots batch := by
      intro entry hentry i s hfirst hs
      by_contra hne
      -- otherwise no slot of the key is written, and the key reads what it read before
      refine hchange entry hentry ((read_writeAll_of_left ?_).symm.trans (h.written entry hentry))
      intro other hother j t hfirst' ht hreads
      obtain ⟨_, hs', hwrites⟩ := exists_getElem?_of_first hfirst
      obtain ⟨_, ht', hwrites'⟩ := exists_getElem?_of_first hfirst'
      rw [hs] at hs'
      rw [ht] at ht'
      cases hs'
      cases ht'
      by_cases hkey : other.1 = entry.1
      · rw [hkey] at hfirst'
        obtain rfl := hfirst.unique hfirst'
        rw [hs] at ht
        cases ht
        exact hne hreads
      · refine hstraight t (List.mem_of_getElem? ht) s (List.mem_of_getElem? hs) ?_ ?_ ?_
        · rw [hreads, hwrites']
          exact fun he => hkey he.symm
        · rwa [hwrites]
        · rw [hreads, hwrites]
    intro entry hentry
    by_cases hmem : entry.1 ∈ slots.map Slot.writes
    · obtain ⟨i, hfirst⟩ := exists_first hmem
      obtain ⟨s, hs, hwrites⟩ := exists_getElem?_of_first hfirst
      refine ⟨i, s, hs, hfirst, hmatched entry hentry i s hfirst hs, fun j t ht htk hcase => ?_⟩
      have hji : j ≠ i := by
        rcases hcase with hlt | ⟨-, hne⟩
        · omega
        · exact hne
      have hsame := hmatched.getElem?_writeAll ht htk fun hj => hji (hj.unique hfirst)
      have hread := h.written entry hentry
      by_contra hvalue
      rcases hcase with hlt | ⟨hnone, -⟩
      · -- a later slot would hide what was written
        refine hchange entry hentry
          ((read_congr_of_later length_writeAll ?_ hlt ht htk hvalue).symm.trans hread)
        intro n s₀ s₁ hs₀ hs₁
        refine ⟨reads_writeAll hs₀ hs₁, fun hk hn => ?_⟩
        have hkept := hmatched.getElem?_writeAll hs₀ hk fun hn' => hn (hn'.unique hfirst)
        rw [hs₁] at hkept
        rw [Option.some.inj hkept]
      · rw [hnone] at hread
        exact hvalue (read_eq_none_iff.mp hread j t hsame htk)
    · -- a key that no slot is written under reads what it read before
      refine absurd ((read_writeAll_of_left ?_).symm.trans (h.written entry hentry))
        (hchange entry hentry)
      intro other hother j t hfirst ht hreads
      have hkey := (hmatched other hother j t hfirst ht).symm.trans hreads
      exact hmem (hkey ▸ List.mem_of_getElem? hfirst.1)
  · intro h
    have hmatched := Addressed.matched h
    refine ⟨fun entry hentry => (h entry hentry).read_writeAll hkeys hmatched hentry,
      fun k hk => read_writeAll_of_left fun entry hentry i s hfirst hs hreads => hk ?_⟩
    rw [← hreads, hmatched entry hentry i s hfirst hs]
    exact List.mem_map_of_mem hentry

end Slots
