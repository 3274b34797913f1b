import Mathlib.Data.List.Perm.Subperm
import Mathlib.Data.Rat.Defs
import Mathlib.Tactic.Common

/-!
# Decoded values

The Python values that a JSON or YAML document decodes to, with `==` as the language has
it: numbers and booleans by their exact value whatever their types, dictionaries without
their order. Floats are finite.

On top of it the relation in which an observed value satisfies a declared one: it may have
more keys in its mappings, but not more items in its lists (`covers`).
-/

/-- A decoded value. -/
inductive PyValue : Type where
  | none
  | bool (b : Bool)
  | int (n : ℤ)
  | float (q : ℚ)
  | str (s : String)
  | list (items : List PyValue)
  | dict (fields : List (String × PyValue))
  deriving Repr

namespace PyValue

/-! ## Reading a value -/

/-- The number a value compares as. -/
def number? : PyValue → Option ℚ
  | .bool b => some (if b then 1 else 0)
  | .int n => some n
  | .float q => some q
  | .none | .str _ | .list _ | .dict _ => Option.none

def str? : PyValue → Option String
  | .str s => some s
  | .none | .bool _ | .int _ | .float _ | .list _ | .dict _ => Option.none

def list? : PyValue → Option (List PyValue)
  | .list items => some items
  | .none | .bool _ | .int _ | .float _ | .str _ | .dict _ => Option.none

def dict? : PyValue → Option (List (String × PyValue))
  | .dict fields => some fields
  | .none | .bool _ | .int _ | .float _ | .str _ | .list _ => Option.none

/-- `value is None`. -/
def isNone : PyValue → Bool
  | .none => true
  | .bool _ | .int _ | .float _ | .str _ | .list _ | .dict _ => false

/-! ## Equality -/

mutual

/-- `==`. -/
def eq : PyValue → PyValue → Bool
  | .none, y => y.isNone
  | .bool b, y => y.number? = some (if b then 1 else 0)
  | .int n, y => y.number? = some (n : ℚ)
  | .float q, y => y.number? = some q
  | .str s, y => y.str? = some s
  | .list xs, y =>
    match y.list? with
    | some ys => xs.length = ys.length && eqItems xs ys
    | Option.none => false
  | .dict xs, y =>
    match y.dict? with
    | some ys => xs.length = ys.length && eqFields xs ys
    | Option.none => false

/-- The items of two lists are equal as far as both go. -/
def eqItems : List PyValue → List PyValue → Bool
  | x :: xs, y :: ys => eq x y && eqItems xs ys
  | _, _ => true

/-- Every field of the first is an equal field of the second. -/
def eqFields : List (String × PyValue) → List (String × PyValue) → Bool
  | [], _ => true
  | (k, x) :: xs, ys =>
    (match ys.lookup k with
      | some y => eq x y
      | Option.none => false) && eqFields xs ys

end

attribute [grind =] eq eqItems eqFields

/-- `1 == True == 1.0`, and dictionaries have no order. -/
example : eq (.dict [("a", .int 1), ("b", .none)]) (.dict [("b", .none), ("a", .bool true)]) =
    true := by decide

/-! ## Declared and observed values -/

mutual

/-- The observed value satisfies the declared one. -/
def covers : PyValue → PyValue → Bool
  | .dict fields, observed =>
    match observed.dict? with
    | some found => coversFields fields found
    | Option.none => false
  | .list items, observed =>
    match observed.list? with
    | some found => items.length = found.length && coversItems items found
    | Option.none => false
  | .none, observed => eq .none observed
  | .bool b, observed => eq (.bool b) observed
  | .int n, observed => eq (.int n) observed
  | .float q, observed => eq (.float q) observed
  | .str s, observed => eq (.str s) observed

/-- Every declared field is among the observed ones, and satisfied. -/
def coversFields : List (String × PyValue) → List (String × PyValue) → Bool
  | [], _ => true
  | (k, v) :: fields, found =>
    (match found.lookup k with
      | some w => covers v w
      | Option.none => false) && coversFields fields found

/-- The declared items are satisfied one by one. -/
def coversItems : List PyValue → List PyValue → Bool
  | v :: items, w :: found => covers v w && coversItems items found
  | _, _ => true

end

attribute [grind =] covers coversFields coversItems

/-- More keys are fine, more items are not. -/
example : covers (.dict [("a", .int 1)]) (.dict [("b", .none), ("a", .int 1)]) = true ∧
    covers (.list []) (.list [.none]) = false := by decide

/-! ## Dropped keys -/

mutual

/-- Somewhere below, the observed value carries a key that the old declaration had and the
new one has not. -/
def carriesDropped : PyValue → PyValue → PyValue → Bool
  | .dict fields, new, observed =>
    match new.dict?, observed.dict? with
    | some newFields, some found => carriesDroppedField fields newFields found
    | _, _ => false
  | .list items, new, observed =>
    match new.list?, observed.list? with
    | some newItems, some found => carriesDroppedItem items newItems found
    | _, _ => false
  | .none, _, _ | .bool _, _, _ | .int _, _, _ | .float _, _, _ | .str _, _, _ => false
termination_by structural old => old

/-- One of the fields is carried, and dropped itself or below. -/
def carriesDroppedField : List (String × PyValue) → List (String × PyValue) →
    List (String × PyValue) → Bool
  | [], _, _ => false
  | (k, v) :: fields, newFields, found =>
    (match found.lookup k with
      | Option.none => false
      | some w =>
        match newFields.lookup k with
        | Option.none => true
        | some n => carriesDropped v n w) || carriesDroppedField fields newFields found
termination_by structural old => old

/-- An item carries a dropped key below. -/
def carriesDroppedItem : List PyValue → List PyValue → List PyValue → Bool
  | v :: items, n :: newItems, w :: found =>
    carriesDropped v n w || carriesDroppedItem items newItems found
  | _, _, _ => false
termination_by structural old => old

end

/-- The new value keeps `a` and drops `b`, which is still there. -/
example : carriesDropped (.dict [("a", .none), ("b", .none)]) (.dict [("a", .none)])
    (.dict [("a", .none), ("b", .none)]) = true := by decide

/-! ## Texts -/

variable {y : PyValue} {fields xs ys : List (String × PyValue)}

variable {k s : String}

/-- A text equals itself only. -/
theorem eq_str_iff : eq (.str s) y = true ↔ y = .str s := by
  rw [eq, decide_eq_true_iff]
  cases y with
  | str t => simp [str?]
  | _ => simp [str?]

theorem eq_str_right_iff {x : PyValue} : eq x (.str s) = true ↔ x = .str s := by
  cases x with
  | none => simp [eq, isNone]
  | bool b => simp [eq, number?]
  | int n => simp [eq, number?]
  | float q => simp [eq, number?]
  | str t => simp [eq, str?, eq_comm]
  | list items => simp [eq, list?]
  | dict fields => simp [eq, dict?]

/-- A declared text is satisfied by itself only. -/
theorem covers_str_iff : covers (.str s) y = true ↔ y = .str s := by
  rw [covers, eq_str_iff]

/-- A text satisfies itself only. -/
theorem covers_str_right_iff {x : PyValue} :
    covers x (.str s) = true ↔ x = .str s := by
  cases x with
  | list items => simp [covers, list?]
  | dict fields => simp [covers, dict?]
  | none => rw [covers, eq_str_right_iff]
  | bool b => rw [covers, eq_str_right_iff]
  | int n => rw [covers, eq_str_right_iff]
  | float q => rw [covers, eq_str_right_iff]
  | str t => rw [covers, eq_str_right_iff]

/-! ## Equality is transitive -/

theorem eqFields_iff : eqFields xs ys = true ↔
    ∀ field ∈ xs, ∃ y, ys.lookup field.1 = some y ∧ eq field.2 y = true := by
  induction xs with
  | nil => simp [eqFields]
  | cons field xs ih =>
    obtain ⟨k, x⟩ := field
    rw [eqFields, Bool.and_eq_true, ih, List.forall_mem_cons]
    refine and_congr_left fun _ => ?_
    rcases ys.lookup k with _ | y
    · simp
    · simp

theorem mem_of_lookup {v : PyValue} (h : fields.lookup k = some v) :
    (k, v) ∈ fields := by
  obtain ⟨l₁, l₂, rfl, -⟩ := List.lookup_eq_some_iff.mp h
  exact List.mem_append_right _ List.mem_cons_self

theorem number?_of_eq {x : PyValue} {q : ℚ} (hx : x.number? = some q) :
    eq x y = true ↔ y.number? = some q := by
  cases x with
  | bool b => rw [eq, decide_eq_true_iff]; rw [← hx]; rfl
  | int n => rw [eq, decide_eq_true_iff]; rw [← hx]; rfl
  | float r => rw [eq, decide_eq_true_iff]; rw [← hx]; rfl
  | _ => cases hx

theorem eq_none_iff : eq .none y = true ↔ y = .none := by
  rw [eq]
  cases y with
  | none => simp [isNone]
  | _ => simp [isNone]

theorem eq_list_iff {xs : List PyValue} : eq (.list xs) y = true ↔
    ∃ ys, y = .list ys ∧ xs.length = ys.length ∧ eqItems xs ys = true := by
  cases y with
  | list ys => simp [eq, list?]
  | _ => simp [eq, list?]

theorem eq_dict_iff : eq (.dict xs) y = true ↔
    ∃ ys, y = .dict ys ∧ xs.length = ys.length ∧ eqFields xs ys = true := by
  cases y with
  | dict ys => simp [eq, dict?]
  | _ => simp [eq, dict?]

mutual

theorem eq_trans {x y z : PyValue} (hxy : eq x y = true) (hyz : eq y z = true) :
    eq x z = true := by
  cases x with
  | none =>
    obtain rfl := eq_none_iff.mp hxy
    exact hyz
  | bool b => exact (number?_of_eq rfl).mpr ((number?_of_eq ((number?_of_eq rfl).mp hxy)).mp hyz)
  | int n => exact (number?_of_eq rfl).mpr ((number?_of_eq ((number?_of_eq rfl).mp hxy)).mp hyz)
  | float q => exact (number?_of_eq rfl).mpr ((number?_of_eq ((number?_of_eq rfl).mp hxy)).mp hyz)
  | str s =>
    obtain rfl := eq_str_iff.mp hxy
    exact hyz
  | list xs =>
    obtain ⟨ys, rfl, hlen, hitems⟩ := eq_list_iff.mp hxy
    obtain ⟨zs, rfl, hlen', hitems'⟩ := eq_list_iff.mp hyz
    exact eq_list_iff.mpr ⟨zs, rfl, hlen.trans hlen', eqItems_trans hlen hitems hitems'⟩
  | dict xs =>
    obtain ⟨ys, rfl, hlen, hfields⟩ := eq_dict_iff.mp hxy
    obtain ⟨zs, rfl, hlen', hfields'⟩ := eq_dict_iff.mp hyz
    exact eq_dict_iff.mpr ⟨zs, rfl, hlen.trans hlen', eqFields_trans hfields hfields'⟩
termination_by structural x

theorem eqItems_trans {xs ys zs : List PyValue} (hlen : xs.length = ys.length)
    (hxy : eqItems xs ys = true) (hyz : eqItems ys zs = true) : eqItems xs zs = true := by
  cases xs with
  | nil => rfl
  | cons x xs =>
    cases ys with
    | nil => cases hlen
    | cons y ys =>
      cases zs with
      | nil => rfl
      | cons z zs =>
        rw [eqItems, Bool.and_eq_true] at hxy hyz ⊢
        exact ⟨eq_trans hxy.1 hyz.1, eqItems_trans (Nat.succ.inj hlen) hxy.2 hyz.2⟩
termination_by structural xs

theorem eqFields_trans {xs ys zs : List (String × PyValue)}
    (hxy : eqFields xs ys = true) (hyz : eqFields ys zs = true) : eqFields xs zs = true := by
  cases xs with
  | nil => rfl
  | cons field xs =>
    obtain ⟨k, x⟩ := field
    obtain ⟨⟨y, hy, hxy'⟩, -⟩ := List.forall_mem_cons.mp (eqFields_iff.mp hxy)
    obtain ⟨z, hz, hyz'⟩ := eqFields_iff.mp hyz (k, y) (mem_of_lookup hy)
    have hrest : eqFields xs ys = true := eqFields_iff.mpr fun field hfield =>
      eqFields_iff.mp hxy field (List.mem_cons_of_mem _ hfield)
    rw [eqFields, Bool.and_eq_true, hz]
    exact ⟨eq_trans hxy' hyz', eqFields_trans hrest hyz⟩
termination_by structural xs

end

/-! ## Types and scalars -/

/-- `type(value)`. -/
inductive PyType : Type where
  | noneType | bool | int | float | str | list | dict
  deriving DecidableEq, Repr

/-- The type of a value. -/
def typeOf : PyValue → PyType
  | .none => .noneType
  | .bool _ => .bool
  | .int _ => .int
  | .float _ => .float
  | .str _ => .str
  | .list _ => .list
  | .dict _ => .dict

/-- Neither a list nor a dictionary. -/
def isScalar : PyValue → Bool
  | .none | .bool _ | .int _ | .float _ | .str _ => true
  | .list _ | .dict _ => false

/-- `bool(value)`. -/
def truthy : PyValue → Bool
  | .none => false
  | .bool b => b
  | .int n => n ≠ 0
  | .float q => q ≠ 0
  | .str s => s ≠ ""
  | .list items => !items.isEmpty
  | .dict fields => !fields.isEmpty

theorem eq_self_of_isScalar {x : PyValue} (hx : x.isScalar = true) : eq x x = true := by
  cases x with
  | none => rfl
  | bool b => exact (number?_of_eq rfl).mpr rfl
  | int n => exact (number?_of_eq rfl).mpr rfl
  | float q => exact (number?_of_eq rfl).mpr rfl
  | str s => exact eq_str_iff.mpr rfl
  | _ => cases hx

theorem number?_of_eq_right {x : PyValue} {q : ℚ} (hy : y.number? = some q) (h : eq x y = true) :
    x.number? = some q := by
  cases x with
  | none => rw [eq_none_iff.mp h] at hy; cases hy
  | bool b => rw [(number?_of_eq rfl).mp h] at hy; exact hy
  | int n => rw [(number?_of_eq rfl).mp h] at hy; exact hy
  | float r => rw [(number?_of_eq rfl).mp h] at hy; exact hy
  | str s => rw [eq_str_iff.mp h] at hy; cases hy
  | list xs => obtain ⟨ys, rfl, -⟩ := eq_list_iff.mp h; cases hy
  | dict xs => obtain ⟨ys, rfl, -⟩ := eq_dict_iff.mp h; cases hy

theorem eq_symm_of_isScalar {x : PyValue} (hy : y.isScalar = true) (h : eq x y = true) :
    eq y x = true := by
  have hnumber : ∀ q, y.number? = some q → eq y x = true :=
    fun q hq => (number?_of_eq hq).mpr (number?_of_eq_right hq h)
  cases y with
  | none =>
    cases x with
    | none => rfl
    | bool b => cases (number?_of_eq rfl).mp h
    | int n => cases (number?_of_eq rfl).mp h
    | float q => cases (number?_of_eq rfl).mp h
    | str s => cases eq_str_iff.mp h
    | list xs => obtain ⟨ys, hys, -⟩ := eq_list_iff.mp h; cases hys
    | dict xs => obtain ⟨ys, hys, -⟩ := eq_dict_iff.mp h; cases hys
  | bool b => exact hnumber _ rfl
  | int n => exact hnumber _ rfl
  | float q => exact hnumber _ rfl
  | str s => exact eq_str_iff.mpr (eq_str_right_iff.mp h)
  | list ys => cases hy
  | dict ys => cases hy

/-! ## Dictionaries -/

mutual

/-- No dictionary of the value has a key twice. -/
def WellKeyed : PyValue → Prop
  | .dict fields => (fields.map Prod.fst).Nodup ∧ WellKeyedFields fields
  | .list items => WellKeyedItems items
  | .none | .bool _ | .int _ | .float _ | .str _ => True
termination_by structural x => x

/-- The same for the values of fields. -/
def WellKeyedFields : List (String × PyValue) → Prop
  | [] => True
  | (_, v) :: fields => WellKeyed v ∧ WellKeyedFields fields
termination_by structural x => x

/-- The same for items. -/
def WellKeyedItems : List PyValue → Prop
  | [] => True
  | v :: items => WellKeyed v ∧ WellKeyedItems items
termination_by structural x => x

end

theorem wellKeyedFields_iff :
    WellKeyedFields fields ↔ ∀ field ∈ fields, WellKeyed field.2 := by
  induction fields with
  | nil => simp [WellKeyedFields]
  | cons field fields ih =>
    obtain ⟨k, v⟩ := field
    rw [WellKeyedFields, ih, List.forall_mem_cons]

theorem wellKeyed_of_isScalar {x : PyValue} (hx : x.isScalar = true) : WellKeyed x := by
  cases x with
  | list items => cases hx
  | dict fields => cases hx
  | _ => trivial

theorem isSome_lookup_iff :
    (fields.lookup k).isSome = true ↔ k ∈ fields.map Prod.fst := by
  rw [List.lookup_isSome_iff]
  simp [List.mem_map]

theorem mem_keys_iff_of_eq (hxs : (xs.map Prod.fst).Nodup) (hlen : xs.length = ys.length)
    (hfields : eqFields xs ys = true) (k : String) :
    k ∈ xs.map Prod.fst ↔ k ∈ ys.map Prod.fst := by
  have hsub : xs.map Prod.fst ⊆ ys.map Prod.fst := by
    intro k hk
    obtain ⟨field, hfield, rfl⟩ := List.mem_map.mp hk
    obtain ⟨y, hy, -⟩ := eqFields_iff.mp hfields field hfield
    exact isSome_lookup_iff.mp (hy ▸ rfl)
  have hperm := (hxs.subperm hsub).perm_of_length_le (by simp [hlen])
  exact hperm.mem_iff

theorem exists_lookup_of_eq (hxs : WellKeyed (.dict xs)) (hlen : xs.length = ys.length)
    (hfields : eqFields xs ys = true) (hy : ys.lookup k = some y) :
    ∃ x, xs.lookup k = some x ∧ eq x y = true ∧ WellKeyed x := by
  have hmem : k ∈ xs.map Prod.fst :=
    (mem_keys_iff_of_eq hxs.1 hlen hfields k).mpr (isSome_lookup_iff.mp (hy ▸ rfl))
  obtain ⟨x, hx⟩ := Option.isSome_iff_exists.mp (isSome_lookup_iff.mpr hmem)
  obtain ⟨y', hy', heq⟩ := eqFields_iff.mp hfields (k, x) (mem_of_lookup hx)
  obtain rfl : y = y' := Option.some.inj (hy.symm.trans hy')
  exact ⟨x, hx, heq, wellKeyedFields_iff.mp hxs.2 (k, x) (mem_of_lookup hx)⟩

theorem lookup_of_mem (h : (fields.map Prod.fst).Nodup) {field : String × PyValue}
    (hmem : field ∈ fields) :
    fields.lookup field.1 = some field.2 := by
  induction fields with
  | nil => cases hmem
  | cons first fields ih =>
    rw [List.map_cons, List.nodup_cons] at h
    rcases List.mem_cons.mp hmem with rfl | hmem
    · exact List.lookup_cons_self
    · have hne : field.1 ≠ first.1 := fun he => h.1 (he ▸ List.mem_map_of_mem hmem)
      rw [List.lookup_cons, beq_false_of_ne hne]
      exact ih h.2 hmem

mutual

theorem covers_self : (x : PyValue) → WellKeyed x → covers x x = true
  | .none, _ => rfl
  | .bool b, _ => by rw [covers]; exact eq_self_of_isScalar rfl
  | .int n, _ => by rw [covers]; exact eq_self_of_isScalar rfl
  | .float q, _ => by rw [covers]; exact eq_self_of_isScalar rfl
  | .str s, _ => by rw [covers]; exact eq_self_of_isScalar rfl
  | .list items, h => by
    have hitems := coversItems_self items h
    simp only [covers, list?, hitems, decide_true, Bool.and_true]
  | .dict fields, h => by
    have hfields := coversFields_self fields fields
      (fun field hfield => lookup_of_mem h.1 hfield) h.2
    simp only [covers, dict?, hfields]

theorem coversFields_self : (fields found : List (String × PyValue)) →
    (∀ field ∈ fields, found.lookup field.1 = some field.2) → WellKeyedFields fields →
      coversFields fields found = true
  | [], _, _, _ => rfl
  | (k, v) :: fields, found, hfound, h => by
    have hhead : found.lookup k = some v := hfound (k, v) List.mem_cons_self
    have hself := covers_self v h.1
    have hrest := coversFields_self fields found
      (fun field hfield => hfound field (List.mem_cons_of_mem _ hfield)) h.2
    simp only [coversFields, hhead, hself, hrest, Bool.and_self]

theorem coversItems_self : (items : List PyValue) → WellKeyedItems items →
    coversItems items items = true
  | [], _ => rfl
  | v :: items, h => by
    simp only [coversItems, covers_self v h.1, coversItems_self items h.2, Bool.and_self]

end

/-- `fields[k] = v`. -/
def setField (fields : List (String × PyValue)) (k : String) (v : PyValue) :
    List (String × PyValue) :=
  if (fields.lookup k).isSome then fields.map fun field => if field.1 = k then (k, v) else field
  else fields ++ [(k, v)]

theorem mem_setField {v : PyValue} {field : String × PyValue} (h : field ∈ setField fields k v) :
    field = (k, v) ∨ field.1 ≠ k ∧ field ∈ fields := by
  rw [setField] at h
  split at h
  · obtain ⟨old, hold, rfl⟩ := List.mem_map.mp h
    by_cases hk : old.1 = k
    · rw [if_pos hk]
      exact Or.inl rfl
    · rw [if_neg hk]
      exact Or.inr ⟨hk, hold⟩
  · rename_i hnone
    rcases List.mem_append.mp h with h | h
    · refine Or.inr ⟨fun hk => hnone (isSome_lookup_iff.mpr ?_), h⟩
      exact hk ▸ List.mem_map_of_mem h
    · exact Or.inl (List.mem_singleton.mp h)

theorem lookup_map_replace (fields : List (String × PyValue)) (k : String) (v : PyValue)
    (k' : String) : (fields.map fun field => if field.1 = k then (k, v) else field).lookup k' =
      if k' = k then (fields.lookup k).map fun _ => v else fields.lookup k' := by
  induction fields with
  | nil => simp
  | cons field fields ih =>
    obtain ⟨k₁, w⟩ := field
    rw [List.map_cons]
    by_cases hfield : k₁ = k
    · subst hfield
      rw [if_pos rfl, List.lookup_cons, ih]
      by_cases hk : k' = k₁
      · simp [hk]
      · have hne : (k' == k₁) = false := beq_false_of_ne hk
        simp only [List.lookup_cons, hne, if_neg hk]
    · rw [if_neg hfield, List.lookup_cons, ih]
      by_cases hk : k' = k
      · have hne : (k == k₁) = false := beq_false_of_ne (Ne.symm hfield)
        simp only [List.lookup_cons, hk, hne, if_true]
      · simp only [List.lookup_cons, if_neg hk]

theorem lookup_setField (fields : List (String × PyValue)) (k : String) (v : PyValue)
    (k' : String) :
    (setField fields k v).lookup k' = if k' = k then some v else fields.lookup k' := by
  rw [setField]
  split
  · rename_i hsome
    obtain ⟨w, hw⟩ := Option.isSome_iff_exists.mp hsome
    rw [lookup_map_replace, hw, Option.map_some]
  · rename_i hnone
    rw [Option.not_isSome_iff_eq_none] at hnone
    rw [List.lookup_append]
    by_cases hk : k' = k
    · rw [hk, hnone, Option.none_or, List.lookup_cons_self, if_pos rfl]
    · rw [if_neg hk, List.lookup_cons, beq_false_of_ne hk]
      exact Option.or_none

/-- `fields.pop(k, None)`. -/
def popField (fields : List (String × PyValue)) (k : String) : List (String × PyValue) :=
  fields.filter fun field => field.1 ≠ k

theorem lookup_popField (fields : List (String × PyValue)) (k k' : String) :
    (popField fields k).lookup k' = if k' = k then Option.none else fields.lookup k' := by
  induction fields with
  | nil => simp [popField]
  | cons field fields ih =>
    obtain ⟨k₁, w⟩ := field
    have hcons : popField ((k₁, w) :: fields) k =
        if k₁ = k then popField fields k else (k₁, w) :: popField fields k := by
      by_cases hk : k₁ = k
      · simp [popField, hk]
      · simp [popField, hk]
    rw [hcons]
    by_cases hk₁ : k₁ = k
    · rw [if_pos hk₁, ih]
      by_cases hk : k' = k
      · rw [if_pos hk, if_pos hk]
      · have hne : (k' == k₁) = false := beq_false_of_ne (hk₁ ▸ hk)
        rw [if_neg hk, if_neg hk, List.lookup_cons, hne]
    · rw [if_neg hk₁, List.lookup_cons, List.lookup_cons, ih]
      by_cases hk : k' = k
      · have hne : (k' == k₁) = false := beq_false_of_ne (hk ▸ Ne.symm hk₁)
        simp only [hne, if_pos hk]
      · rw [if_neg hk, if_neg hk]

/-- A field gets a value, or goes. -/
def putField (fields : List (String × PyValue)) (k : String) : Option PyValue →
    List (String × PyValue)
  | some v => setField fields k v
  | Option.none => popField fields k

theorem lookup_putField (fields : List (String × PyValue)) (k : String) (v : Option PyValue)
    (k' : String) : (putField fields k v).lookup k' = if k' = k then v else fields.lookup k' := by
  cases v with
  | none => exact lookup_popField fields k k'
  | some v => exact lookup_setField fields k v k'

theorem nodup_keys_setField (h : (fields.map Prod.fst).Nodup) (k : String) (v : PyValue) :
    ((setField fields k v).map Prod.fst).Nodup := by
  rw [setField]
  split
  · have hkeys : (fields.map fun field => if field.1 = k then (k, v) else field).map Prod.fst =
        fields.map Prod.fst := by
      rw [List.map_map]
      refine List.map_congr_left fun field _ => ?_
      by_cases hk : field.1 = k
      · rw [Function.comp_apply, if_pos hk, hk]
      · rw [Function.comp_apply, if_neg hk]
    rw [hkeys]
    exact h
  · rename_i hnone
    rw [List.map_append, List.map_singleton, List.nodup_append]
    refine ⟨h, by simp, fun k' hk' k'' hk'' heq => hnone ?_⟩
    obtain rfl : k'' = k := List.mem_singleton.mp hk''
    exact isSome_lookup_iff.mpr (heq ▸ hk')

theorem wellKeyed_setField (h : WellKeyed (.dict fields)) (k : String) {v : PyValue}
    (hv : WellKeyed v) : WellKeyed (.dict (setField fields k v)) := by
  refine ⟨nodup_keys_setField h.1 k v, wellKeyedFields_iff.mpr fun field hfield => ?_⟩
  rcases mem_setField hfield with rfl | ⟨-, hfield⟩
  · exact hv
  · exact wellKeyedFields_iff.mp h.2 field hfield

theorem eq_setField (hxs : WellKeyed (.dict xs)) (h : eq (.dict xs) (.dict ys) = true) (k : String)
    {v w : PyValue} (hvw : eq v w = true) :
    eq (.dict (setField xs k v)) (.dict (setField ys k w)) = true := by
  obtain ⟨ys', hys, hlen, hfields⟩ := eq_dict_iff.mp h
  obtain rfl := PyValue.dict.inj hys
  refine eq_dict_iff.mpr ⟨_, rfl, ?_, eqFields_iff.mpr fun field hfield => ?_⟩
  · have hsame : (xs.lookup k).isSome = (ys.lookup k).isSome := by
      rw [Bool.eq_iff_iff, isSome_lookup_iff, isSome_lookup_iff]
      exact mem_keys_iff_of_eq hxs.1 hlen hfields k
    rw [setField, setField, hsame]
    split
    · rw [List.length_map, List.length_map, hlen]
    · rw [List.length_append, List.length_append, hlen]
      rfl
  · rw [lookup_setField]
    rcases mem_setField hfield with rfl | ⟨hne, hfield⟩
    · exact ⟨w, if_pos rfl, hvw⟩
    · rw [if_neg hne]
      exact eqFields_iff.mp hfields field hfield

/-! ## Nothing is dropped from an equal value -/

mutual

theorem carriesDropped_of_eq {old new : PyValue} (h : eq old new = true) (observed : PyValue) :
    carriesDropped old new observed = false := by
  cases old with
  | list items =>
    obtain ⟨newItems, rfl, hlen, hitems⟩ := eq_list_iff.mp h
    cases observed with
    | list found => exact carriesDroppedItem_of_eq hlen hitems found
    | _ => rfl
  | dict fields =>
    obtain ⟨newFields, rfl, -, hfields⟩ := eq_dict_iff.mp h
    cases observed with
    | dict found => exact carriesDroppedField_of_eq hfields found
    | _ => rfl
  | _ => rfl
termination_by structural old

theorem carriesDroppedItem_of_eq {items newItems : List PyValue}
    (hlen : items.length = newItems.length) (h : eqItems items newItems = true)
    (found : List PyValue) : carriesDroppedItem items newItems found = false := by
  cases items with
  | nil => rfl
  | cons v items =>
    cases newItems with
    | nil => cases hlen
    | cons n newItems =>
      cases found with
      | nil => rfl
      | cons w found =>
        rw [eqItems, Bool.and_eq_true] at h
        rw [carriesDroppedItem, carriesDropped_of_eq h.1 w,
          carriesDroppedItem_of_eq (Nat.succ.inj hlen) h.2 found]
        rfl
termination_by structural items

theorem carriesDroppedField_of_eq {fields newFields : List (String × PyValue)}
    (h : eqFields fields newFields = true) (found : List (String × PyValue)) :
    carriesDroppedField fields newFields found = false := by
  cases fields with
  | nil => rfl
  | cons field fields =>
    obtain ⟨k, v⟩ := field
    obtain ⟨⟨n, hn, hvn⟩, hrest⟩ := List.forall_mem_cons.mp (eqFields_iff.mp h)
    rw [carriesDroppedField, carriesDroppedField_of_eq (eqFields_iff.mpr hrest) found, hn]
    rcases found.lookup k with _ | w
    · rfl
    · rw [Bool.or_false]
      exact carriesDropped_of_eq hvn w
termination_by structural fields

end

end PyValue
