import Mathlib.Data.List.MinMax
import Opsia.Agent.CollectionLimits
import Opsia.Lib.PyValue

/-!
# Payload limits

The rest of `providers/collection_limits.py`: a list of a payload that is too long is cut, then the
largest lists are halved until the payload fits its budget, and what was cut is recorded beside the
payload. The halving ends, and it is honest about every list that it cut (`limits_are_honest`); what
it leaves of a list is one cut of it (`cuts_are_fair_and_compose`).
-/

namespace Opsia.Agent

/-- A payload, or the record of its limits. -/
abbrev JsonObject := List (String × PyValue)

def minLimitedListItems : ℕ := 0

/-! ## Sizes -/

/-- The bytes of a character in a string of `json.dumps`, which escapes what is not ASCII. -/
def jsonCharBytes (c : Char) : ℕ :=
  if c = '"' ∨ c = '\\' ∨ c = '\n' ∨ c = '\r' ∨ c = '\t' ∨ c.val = 0x8 ∨ c.val = 0xc then 2
  else if 0x20 ≤ c.val ∧ c.val ≤ 0x7e then 1
  -- beyond the first plane, a surrogate pair
  else if c.val < 0x10000 then 6 else 12

/-- The bytes of a string, quotes included. -/
def jsonTextBytes (s : String) : ℕ := 2 + (s.toList.map jsonCharBytes).sum

section

-- `float.__repr__`
variable (floatText : ℚ → String)

mutual

def payloadSizeBytes : PyValue → ℕ
  | .none => 4
  | .bool b => if b then 4 else 5
  | .int n => (toString n).utf8ByteSize
  | .float q => (floatText q).utf8ByteSize
  | .str s => jsonTextBytes s
  | .list items => 2 + itemsSizeBytes items + 2 * (items.length - 1)
  | .dict fields => 2 + fieldsSizeBytes fields + 2 * (fields.length - 1)

/-- The items of a list without the separators. -/
def itemsSizeBytes : List PyValue → ℕ
  | [] => 0
  | item :: items => payloadSizeBytes item + itemsSizeBytes items

/-- The fields of an object without the separators between them. -/
def fieldsSizeBytes : JsonObject → ℕ
  | [] => 0
  | (key, value) :: fields =>
    jsonTextBytes key + 2 + payloadSizeBytes value + fieldsSizeBytes fields

end

/-! ## Records -/

def collectionLimit (originalCount : PyValue) (returnedCount : ℕ) : PyValue :=
  .dict [("truncated", .bool true), ("original_count", originalCount),
    ("returned_count", .int returnedCount)]

/-- `original_count_for`; `isinstance(True, int)`. -/
def originalCountFor (limits : JsonObject) (key : String) (fallback : PyValue) : PyValue :=
  match limits.lookup key with
  | some (.dict existing) =>
    match existing.lookup "original_count" with
    | some (.int n) => .int n
    | some (.bool b) => .bool b
    | _ => fallback
  | _ => fallback

def recordCollectionLimit (limits : JsonObject) (key : String) (originalCount : PyValue)
    (returnedCount : ℕ) : JsonObject :=
  Fields.put limits key (collectionLimit (originalCountFor limits key originalCount) returnedCount)

/-! ## Cutting -/

/-- The arguments of a call of `limit_payload_list` beside the payload and the limits. -/
structure ListLimit where
  key : String
  maxItems : ℕ
  groupKey : Option (PyValue → String) := none

def limitPayloadList (state : JsonObject × JsonObject) (call : ListLimit) :
    JsonObject × JsonObject :=
  match state.1.lookup call.key with
  | some (.list value) =>
    if value.length ≤ call.maxItems then state
    else
      let limited := limitList value call.maxItems call.groupKey
      (Fields.put state.1 call.key (.list limited),
        recordCollectionLimit state.2 call.key (.int value.length) limited.length)
  | _ => state

/-- The `candidates` of `largest_shrinkable_list`. -/
def shrinkableLists (payload : JsonObject) (keys : List String) :
    List (ℕ × String × List PyValue) :=
  keys.filterMap fun key =>
    match payload.lookup key with
    | some (.list value) =>
      if minLimitedListItems < value.length then
        some (payloadSizeBytes floatText (.list value), key, value)
      else none
    | _ => none

/-- `largest_shrinkable_list`: of the lists of one size the first. -/
def largestShrinkableList (payload : JsonObject) (keys : List String) :
    Option (String × List PyValue) :=
  ((shrinkableLists floatText payload keys).argmax Prod.fst).map Prod.snd

/-- The items of the lists of a payload. -/
def listItems (payload : JsonObject) : ℕ :=
  (payload.map fun field => (field.2.list?.getD []).length).sum

variable {key : String} {payload : JsonObject} {value : List PyValue}

theorem listItems_put {kept : List PyValue} (hvalue : payload.lookup key = some (.list value))
    (hkept : kept.length < value.length) :
    listItems (Fields.put payload key (.list kept)) < listItems payload := by
  induction payload with
  | nil => cases hvalue
  | cons field payload ih =>
    obtain ⟨name, old⟩ := field
    rw [Fields.put]
    by_cases hname : name = key
    · subst hname
      simp only [List.lookup_cons_self, Option.some.injEq] at hvalue
      subst hvalue
      simpa [listItems, PyValue.list?] using hkept
    · rw [List.lookup_cons, beq_eq_false_iff_ne.mpr (Ne.symm hname)] at hvalue
      have hrest := ih hvalue
      rw [if_neg hname]
      simp only [listItems, List.map_cons, List.sum_cons] at hrest ⊢
      omega

theorem mem_of_largestShrinkableList {keys : List String}
    (h : largestShrinkableList floatText payload keys = some (key, value)) :
    key ∈ keys ∧ payload.lookup key = some (.list value) ∧ value.length / 2 < value.length := by
  obtain ⟨candidate, hmax, hcandidate⟩ := Option.map_eq_some_iff.mp h
  obtain ⟨size, name, items⟩ := candidate
  cases hcandidate
  obtain ⟨name, hname, hsome⟩ := List.mem_filterMap.mp (List.argmax_mem hmax)
  split at hsome
  · rename_i items hlookup
    split at hsome
    · rename_i hpos
      cases hsome
      exact ⟨hname, hlookup, Nat.div_lt_self hpos (by decide)⟩
    · cases hsome
  · cases hsome

theorem eq_nil_of_largestShrinkableList {keys : List String}
    (h : largestShrinkableList floatText payload keys = none) (hkey : key ∈ keys)
    (hvalue : payload.lookup key = some (.list value)) : value = [] := by
  have hnil : shrinkableLists floatText payload keys = [] :=
    List.argmax_eq_none.mp (Option.map_eq_none_iff.mp h)
  have hnone := List.filterMap_eq_nil_iff.mp hnil key hkey
  simp only [hvalue] at hnone
  split at hnone
  · cases hnone
  · rename_i hpos
    exact List.length_eq_zero_iff.mp (Nat.eq_zero_of_not_pos hpos)

def limitPayloadSize (keys : List String) (maxBytes : ℤ)
    (groupKeys : List (String × (PyValue → String))) (payload limits : JsonObject) :
    JsonObject × JsonObject :=
  if (payloadSizeBytes floatText (.dict payload) : ℤ) ≤ maxBytes then (payload, limits)
  else
    match h : largestShrinkableList floatText payload keys with
    | none => (payload, limits)
    | some (key, value) =>
      let targetCount := max minLimitedListItems (value.length / 2)
      let limited := limitList value targetCount (groupKeys.lookup key)
      limitPayloadSize keys maxBytes groupKeys (Fields.put payload key (.list limited))
        (recordCollectionLimit limits key (originalCountFor limits key (.int value.length))
          limited.length)
termination_by listItems payload
decreasing_by
  obtain ⟨-, hvalue, hlt⟩ := mem_of_largestShrinkableList floatText h
  refine listItems_put hvalue ?_
  rw [length_limitList]
  exact (min_le_right _ _).trans_lt (by rwa [minLimitedListItems, Nat.max_eq_right (Nat.zero_le _)])

/-! ## What a record says -/

/-- What `isinstance(count, int)` accepts. -/
def IsCount (count : PyValue) : Prop := (∃ n, count = .int n) ∨ ∃ b, count = .bool b

theorem isCount_originalCountFor (limits : JsonObject) (key : String) {fallback : PyValue}
    (h : IsCount fallback) : IsCount (originalCountFor limits key fallback) := by
  rw [originalCountFor]
  split
  · split
    · exact .inl ⟨_, rfl⟩
    · exact .inr ⟨_, rfl⟩
    · exact h
  · exact h

theorem originalCountFor_of_lookup {limits : JsonObject} {count : PyValue} {returned : ℕ}
    (hcount : IsCount count) (h : limits.lookup key = some (collectionLimit count returned))
    (fallback : PyValue) :
    originalCountFor limits key fallback = count := by
  simp only [originalCountFor, h, collectionLimit]
  have hfound : [("truncated", PyValue.bool true), ("original_count", count),
      ("returned_count", .int returned)].lookup "original_count" = some count := rfl
  rw [hfound]
  rcases hcount with ⟨n, rfl⟩ | ⟨b, rfl⟩
  · rfl
  · rfl

theorem originalCountFor_idem (limits : JsonObject) (key : String) (fallback : PyValue) :
    originalCountFor limits key (originalCountFor limits key fallback) =
      originalCountFor limits key fallback := by
  rcases hlookup : limits.lookup key with _ | existing
  · simp only [originalCountFor, hlookup]
  cases existing with
  | dict existing =>
    simp only [originalCountFor, hlookup]
    rcases existing.lookup "original_count" with _ | count
    · rfl
    · cases count <;> rfl
  | _ => simp only [originalCountFor, hlookup]

/-- **An honest record** of one field, before and after: it is not touched, or it is a list that
was shortened, and the record has its first count and its last. -/
inductive Recorded (before after : JsonObject × JsonObject) (key : String) : Prop
  | untouched (payload : after.1.lookup key = before.1.lookup key)
      (limits : after.2.lookup key = before.2.lookup key)
  | shortened (items kept : List PyValue) (payload : before.1.lookup key = some (.list items))
      (payload' : after.1.lookup key = some (.list kept)) (shorter : kept.length < items.length)
      (subperm : kept.Subperm items)
      (limits : after.2.lookup key = some
        (collectionLimit (originalCountFor before.2 key (.int items.length)) kept.length))

/-- Shortened again, a list keeps its first count. -/
theorem Recorded.trans {first second third : JsonObject × JsonObject}
    (h : Recorded first second key) (h' : Recorded second third key) :
    Recorded first third key := by
  cases h with
  | untouched hpayload hlimits =>
    cases h' with
    | untouched hpayload' hlimits' =>
      exact .untouched (hpayload'.trans hpayload) (hlimits'.trans hlimits)
    | shortened items kept hitems hkept hshorter hsub hlimits' =>
      refine .shortened items kept (hpayload ▸ hitems) hkept hshorter hsub ?_
      have hcount : originalCountFor first.2 key (.int items.length) =
          originalCountFor second.2 key (.int items.length) := by
        simp only [originalCountFor, hlimits]
      rw [hcount, hlimits']
  | shortened items kept hitems hkept hshorter hsub hlimits =>
    cases h' with
    | untouched hpayload' hlimits' =>
      exact .shortened items kept hitems (hpayload'.trans hkept) hshorter hsub
        (hlimits'.trans hlimits)
    | shortened items' kept' hitems' hkept' hshorter' hsub' hlimits' =>
      rw [hkept] at hitems'
      cases hitems'
      refine .shortened items kept' hitems hkept' (hshorter'.trans hshorter) (hsub'.trans hsub) ?_
      rw [hlimits', originalCountFor_of_lookup
        (isCount_originalCountFor _ _ (.inl ⟨_, rfl⟩)) hlimits]

theorem recorded_put {state : JsonObject × JsonObject} {kept : List PyValue}
    (hvalue : state.1.lookup key = some (.list value)) (hshorter : kept.length < value.length)
    (hsub : kept.Subperm value) (key' : String) :
    Recorded state (Fields.put state.1 key (.list kept),
      recordCollectionLimit state.2 key (.int value.length) kept.length) key' := by
  by_cases hkey : key' = key
  · subst hkey
    exact .shortened value kept hvalue (Fields.lookup_put_self _ _ _) hshorter hsub
      (Fields.lookup_put_self _ _ _)
  · exact .untouched (Fields.lookup_put_of_ne hkey _ _) (Fields.lookup_put_of_ne hkey _ _)

theorem recorded_limitPayloadList (state : JsonObject × JsonObject) (call : ListLimit)
    (key : String) : Recorded state (limitPayloadList state call) key := by
  rw [limitPayloadList]
  split
  · rename_i value hvalue
    split
    · exact .untouched rfl rfl
    · rename_i hlong
      refine recorded_put hvalue ?_ (cutOf_limitList _ _ _).subperm key
      rw [length_limitList]
      exact (min_le_right _ _).trans_lt (not_le.mp hlong)
  · exact .untouched rfl rfl

theorem recorded_limitPayloadLists (calls : List ListLimit) (state : JsonObject × JsonObject)
    (key : String) : Recorded state (calls.foldl limitPayloadList state) key := by
  induction calls generalizing state with
  | nil => exact .untouched rfl rfl
  | cons call calls ih => exact (recorded_limitPayloadList state call key).trans (ih _)

/-! ## What the halving does -/

variable {floatText} {keys : List String} {maxBytes : ℤ}
  {groupKeys : List (String × (PyValue → String))}

/-- One halving. -/
def halved (groupKeys : List (String × (PyValue → String))) (state : JsonObject × JsonObject)
    (key : String) (value : List PyValue) : JsonObject × JsonObject :=
  let limited := limitList value (value.length / 2) (groupKeys.lookup key)
  (Fields.put state.1 key (.list limited),
    recordCollectionLimit state.2 key (.int value.length) limited.length)

theorem halved_eq (state : JsonObject × JsonObject) (key : String) (value : List PyValue) :
    (Fields.put state.1 key
        (.list (limitList value (max minLimitedListItems (value.length / 2)) (groupKeys.lookup key))),
      recordCollectionLimit state.2 key (originalCountFor state.2 key (.int value.length))
        (limitList value (max minLimitedListItems (value.length / 2)) (groupKeys.lookup key)).length) =
      halved groupKeys state key value := by
  rw [minLimitedListItems, Nat.max_eq_right (Nat.zero_le _), halved, recordCollectionLimit,
    recordCollectionLimit, originalCountFor_idem]

/-- **What every halving keeps, the whole run keeps.** -/
theorem limitPayloadSize_run {R : JsonObject × JsonObject → JsonObject × JsonObject → Prop}
    (refl : ∀ state, R state state)
    (halve : ∀ {state last} {key : String} {value : List PyValue}, key ∈ keys →
      state.1.lookup key = some (.list value) → value.length / 2 < value.length →
        R (halved groupKeys state key value) last → R state last)
    (payload limits : JsonObject) :
    R (payload, limits) (limitPayloadSize floatText keys maxBytes groupKeys payload limits) := by
  fun_induction limitPayloadSize floatText keys maxBytes groupKeys payload limits with
  | case1 => exact refl _
  | case2 => exact refl _
  | case3 payload limits hsize key value hlargest targetCount limited ih =>
    obtain ⟨hkey, hvalue, hlt⟩ := mem_of_largestShrinkableList floatText hlargest
    refine halve hkey hvalue hlt ?_
    rwa [← halved_eq]

/-- **The payload fits, or nothing is left to cut.** -/
theorem limitPayloadSize_fits (payload limits : JsonObject) :
    let last := limitPayloadSize floatText keys maxBytes groupKeys payload limits
    (payloadSizeBytes floatText (.dict last.1) : ℤ) ≤ maxBytes ∨
      ∀ key ∈ keys, ∀ items, last.1.lookup key = some (.list items) → items = [] := by
  fun_induction limitPayloadSize floatText keys maxBytes groupKeys payload limits with
  | case1 payload limits hfits => exact .inl hfits
  | case2 payload limits hsize hnone =>
    exact .inr fun key hkey items => eq_nil_of_largestShrinkableList floatText hnone hkey
  | case3 payload limits hsize key value hlargest targetCount limited ih => exact ih

theorem recorded_limitPayloadSize (payload limits : JsonObject) (key : String) :
    Recorded (payload, limits)
      (limitPayloadSize floatText keys maxBytes groupKeys payload limits) key := by
  refine limitPayloadSize_run (R := fun first last => Recorded first last key)
    (fun _ => .untouched rfl rfl) ?_ payload limits
  intro state last key' value hkey hvalue hlt hrest
  refine (recorded_put hvalue ?_ (cutOf_limitList _ _ _).subperm key).trans hrest
  rw [length_limitList]
  exact (min_le_right _ _).trans_lt hlt

theorem lookup_limitPayloadSize {items : List PyValue}
    (hitems : payload.lookup key = some (.list items)) (limits : JsonObject) :
    ∃ n, (limitPayloadSize floatText keys maxBytes groupKeys payload limits).1.lookup key =
      some (.list (limitList items n (groupKeys.lookup key))) := by
  refine limitPayloadSize_run (R := fun first last => ∀ items,
    first.1.lookup key = some (.list items) →
      ∃ n, last.1.lookup key = some (.list (limitList items n (groupKeys.lookup key))))
    ?_ ?_ payload limits items hitems
  · intro state items hitems
    exact ⟨items.length, by rw [hitems, limitList_of_le le_rfl]⟩
  · intro state last key' value hkey hvalue hlt hrest items hitems
    by_cases hsame : key = key'
    · subst hsame
      rw [hvalue] at hitems
      cases hitems
      obtain ⟨n, hn⟩ := hrest _ (Fields.lookup_put_self _ _ _)
      exact ⟨min (value.length / 2) n, by rw [hn, limitList_min]⟩
    · exact hrest items ((Fields.lookup_put_of_ne hsame _ _).trans hitems)

theorem lookup_limitPayloadSize_of_ne
    (h : key ∈ keys → ∀ items, payload.lookup key ≠ some (.list items)) (limits : JsonObject) :
    (limitPayloadSize floatText keys maxBytes groupKeys payload limits).1.lookup key =
      payload.lookup key := by
  refine limitPayloadSize_run (R := fun first last =>
    (key ∈ keys → ∀ items, first.1.lookup key ≠ some (.list items)) →
      last.1.lookup key = first.1.lookup key) (fun _ _ => rfl) ?_ payload limits h
  intro state last key' value hkey hvalue hlt hrest h
  have hne : key ≠ key' := by
    rintro rfl
    exact h hkey value hvalue
  have hstays : (halved groupKeys state key' value).1.lookup key = state.1.lookup key :=
    Fields.lookup_put_of_ne hne _ _
  rw [hrest (by rwa [hstays]), hstays]

end

/-- **Limiting a payload ends, and is honest**: it fits or has nothing left to cut; a listed list
keeps a beginning of each of its groups and all else stays; and exactly the lists that were
shortened, by whatever calls, are recorded, with their length before the first and after the last. -/
theorem limits_are_honest (floatText : ℚ → String) (calls : List ListLimit) (keys : List String)
    (maxBytes : ℤ) (groupKeys : List (String × (PyValue → String)))
    (payload limits : JsonObject) :
    let first := calls.foldl limitPayloadList (payload, limits)
    let last := limitPayloadSize floatText keys maxBytes groupKeys first.1 first.2
    ((payloadSizeBytes floatText (.dict last.1) : ℤ) ≤ maxBytes ∨
      ∀ key ∈ keys, ∀ items, last.1.lookup key = some (.list items) → items = []) ∧
    (∀ key ∈ keys, ∀ items, first.1.lookup key = some (.list items) →
      ∃ kept, last.1.lookup key = some (.list kept) ∧
        CutOf (groupKeys.lookup key) items kept) ∧
    (∀ key, (key ∈ keys → ∀ items, first.1.lookup key ≠ some (.list items)) →
      last.1.lookup key = first.1.lookup key) ∧
    ∀ key, Recorded (payload, limits) last key := by
  intro first last
  refine ⟨limitPayloadSize_fits first.1 first.2, fun key _ items hitems => ?_,
    fun key hkey => lookup_limitPayloadSize_of_ne hkey first.2, fun key => ?_⟩
  · obtain ⟨n, hn⟩ : ∃ n, last.1.lookup key =
        some (.list (limitList items n (groupKeys.lookup key))) :=
      lookup_limitPayloadSize hitems first.2
    exact ⟨_, hn, cutOf_limitList _ _ _⟩
  · exact (recorded_limitPayloadLists calls (payload, limits) key).trans
      (recorded_limitPayloadSize first.1 first.2 key)

/-- **Cuts are fair among the groups, and compose**: a cut has as many items as it may and a
beginning of every group, no group more than one item ahead of one that has items left; and however
often a list of a payload was halved, it is cut once to the size it ended with. -/
theorem cuts_are_fair_and_compose {α : Type} (groupKey : α → String) (items : List α)
    (maxItems : ℕ) :
    let selected := roundRobinGroups groupKey items maxItems
    (selected.length = min items.length maxItems ∧
      (∀ group, RoundRobin.ofColor groupKey group selected <+:
        RoundRobin.ofColor groupKey group items) ∧
      ∀ ahead behind, (RoundRobin.ofColor groupKey behind selected).length <
          (RoundRobin.ofColor groupKey behind items).length →
        (RoundRobin.ofColor groupKey ahead selected).length ≤
          (RoundRobin.ofColor groupKey behind selected).length + 1) ∧
    (∀ (gk : Option (α → String)) (k m : ℕ), k ≤ m →
      limitList (limitList items m gk) k gk = limitList items k gk) ∧
    ∀ (floatText : ℚ → String) (keys : List String) (maxBytes : ℤ)
      (groupKeys : List (String × (PyValue → String))) (payload limits : JsonObject) (key : String)
      (items : List PyValue), payload.lookup key = some (.list items) →
        ∃ kept, (limitPayloadSize floatText keys maxBytes groupKeys payload limits).1.lookup key =
          some (.list kept) ∧ kept = limitList items kept.length (groupKeys.lookup key) := by
  intro selected
  refine ⟨⟨?_, ?_, fun ahead behind => roundRobinGroups_balanced items maxItems⟩,
    fun gk k m hkm => limitList_limitList hkm items gk, ?_⟩
  · rw [show selected = _ from roundRobinGroups_eq items maxItems, List.length_take, (RoundRobin.perm_spread groupKey items).length_eq,
      min_comm]
  · intro group
    rw [show selected = _ from roundRobinGroups_eq items maxItems,
      ← RoundRobin.ofColor_spread groupKey group items]
    exact (List.take_prefix maxItems _).filter _
  · intro floatText keys maxBytes groupKeys payload limits key items hitems
    obtain ⟨n, hn⟩ : ∃ n, (limitPayloadSize floatText keys maxBytes groupKeys payload
        limits).1.lookup key = some (.list (limitList items n (groupKeys.lookup key))) :=
      lookup_limitPayloadSize hitems limits
    exact ⟨_, hn, (limitList_length items n _).symm⟩

end Opsia.Agent
