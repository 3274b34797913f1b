import Mathlib.Algebra.GroupWithZero.Nat
import Mathlib.Algebra.Order.BigOperators.Group.List
import Mathlib.Data.List.Induction
import Opsia.Lib.Fields
import Opsia.Lib.RoundRobin

/-!
# Collection limits

`limit_list` and `round_robin_groups` of the cluster agent's `providers/collection_limits.py`: a
list that is too long is cut, fairly among its groups where it has groups.

The groups of a list are dealt in turn (`roundRobinGroups_eq`), so every group is kept alike
(`roundRobinGroups_balanced`) and cutting twice is cutting once (`limitList_limitList`).
-/

namespace Opsia.Agent

/-! ## Groups -/

section

variable {α : Type}

/-- `buckets.setdefault(key, []).append(item)`. -/
def addToBucket (buckets : List (String × List α)) (key : String) (item : α) :
    List (String × List α) :=
  Fields.put buckets key ((buckets.lookup key).getD [] ++ [item])

/-- The `for` loop over the buckets, with the number of items that may still be selected: the
items that it selects, and the buckets that it leaves. -/
def selectRound : ℕ → List (String × List α) → List α × List (String × List α)
  | _, [] => ([], [])
  | room, (_, []) :: buckets => selectRound room buckets
  | room, (key, item :: bucket) :: buckets =>
    -- the loop breaks before an empty bucket is popped
    if room ≤ 1 then ([item], (key, bucket) :: buckets)
    else
      let next := selectRound (room - 1) buckets
      (item :: next.1, if bucket = [] then next.2 else (key, bucket) :: next.2)

/-- The items in the buckets, and the buckets. -/
def bucketWeight (buckets : List (String × List α)) : ℕ :=
  (buckets.map fun bucket => bucket.2.length + 1).sum

theorem bucketWeight_selectRound_le (room : ℕ) (buckets : List (String × List α)) :
    bucketWeight (selectRound room buckets).2 ≤ bucketWeight buckets := by
  fun_induction selectRound room buckets with
  | case1 => exact le_refl _
  | case2 room key buckets ih =>
    simp only [bucketWeight, List.map_cons, List.sum_cons] at ih ⊢
    omega
  | case3 room key item bucket buckets hroom =>
    simp [bucketWeight]
  | case4 room key item bucket buckets hroom next ih =>
    simp only [bucketWeight, next, List.map_cons, List.sum_cons, List.length_cons] at ih ⊢
    split
    · omega
    · simp only [List.map_cons, List.sum_cons]
      omega

theorem bucketWeight_selectRound (room : ℕ) {buckets : List (String × List α)}
    (h : buckets ≠ []) : bucketWeight (selectRound room buckets).2 < bucketWeight buckets := by
  cases buckets with
  | nil => exact absurd rfl h
  | cons first buckets =>
    obtain ⟨key, bucket⟩ := first
    cases bucket with
    | nil =>
      have hrest := bucketWeight_selectRound_le room buckets
      simp only [selectRound, bucketWeight, List.map_cons, List.sum_cons] at hrest ⊢
      omega
    | cons item bucket =>
      have hrest := bucketWeight_selectRound_le (room - 1) buckets
      rw [selectRound]
      split
      · simp [bucketWeight]
      · simp only [bucketWeight, List.map_cons, List.sum_cons, List.length_cons] at hrest ⊢
        split
        · omega
        · simp only [List.map_cons, List.sum_cons]
          omega

/-- The `while` loop of `round_robin_groups`. -/
def selectRounds (room : ℕ) (buckets : List (String × List α)) : List α :=
  if buckets = [] ∨ room = 0 then []
  else
    let round := selectRound room buckets
    round.1 ++ selectRounds (room - round.1.length) round.2
termination_by bucketWeight buckets
decreasing_by
  rename_i h
  exact bucketWeight_selectRound room fun hnil => h (.inl hnil)

variable (groupKey : α → String)

/-- The buckets of `round_robin_groups`. -/
def bucketsOf (items : List α) : List (String × List α) :=
  items.foldl (fun buckets item => addToBucket buckets (groupKey item) item) []

def roundRobinGroups (items : List α) (maxItems : ℕ) : List α :=
  selectRounds maxItems (bucketsOf groupKey items)

def limitList (items : List α) (maxItems : ℕ) (groupKey : Option (α → String)) : List α :=
  if items.length ≤ maxItems then items
  else
    match groupKey with
    | none => items.take maxItems
    | some groupKey => roundRobinGroups groupKey items maxItems

/-! ## What is selected -/

open RoundRobin

theorem selectRound_fst {room : ℕ} (hroom : 0 < room) (buckets : List (String × List α)) :
    (selectRound room buckets).1 = (heads (buckets.map Prod.snd)).take room := by
  fun_induction selectRound room buckets with
  | case1 => simp [heads]
  | case2 room key buckets ih => exact ih hroom
  | case3 room key item bucket buckets hone =>
    obtain rfl : room = 1 := by omega
    rfl
  | case4 room key item bucket buckets hmore next ih =>
    obtain ⟨left, rfl⟩ : ∃ left, room = left + 1 := ⟨room - 1, by omega⟩
    exact congrArg (item :: ·) (ih (by omega))

theorem selectRound_snd {room : ℕ} {buckets : List (String × List α)}
    (h : (heads (buckets.map Prod.snd)).length < room) :
    ((selectRound room buckets).2.map Prod.snd).filter (· ≠ []) =
      (tails (buckets.map Prod.snd)).filter (· ≠ []) := by
  fun_induction selectRound room buckets with
  | case1 => rfl
  | case2 room key buckets ih => exact ih h
  | case3 room key item bucket buckets hone =>
    simp only [heads, List.map_cons, List.filterMap_cons, List.head?_cons, List.length_cons] at h
    omega
  | case4 room key item bucket buckets hmore next ih =>
    have hrest : (heads (buckets.map Prod.snd)).length < room - 1 := by
      simp only [heads, List.map_cons, List.filterMap_cons, List.head?_cons, List.length_cons] at h
      rw [heads]
      omega
    have htails := ih hrest
    rw [tails] at htails ⊢
    rw [List.map_cons, List.map_cons, List.tail_cons]
    by_cases hbucket : bucket = []
    · rw [if_pos hbucket, htails, List.filter_cons_of_neg (by simpa using hbucket)]
    · rw [if_neg hbucket, List.map_cons, List.filter_cons_of_pos (by simpa using hbucket),
        List.filter_cons_of_pos (by simpa using hbucket), htails]

theorem selectRounds_eq (room : ℕ) (buckets : List (String × List α)) :
    selectRounds room buckets = (deal (buckets.map Prod.snd)).take room := by
  fun_induction selectRounds room buckets with
  | case1 room buckets h =>
    rcases h with rfl | rfl
    · rw [List.map_nil, deal_of_flatten rfl, List.take_nil]
    · rw [List.take_zero]
  | case2 room buckets h round ih =>
    have hroom : 0 < room := Nat.pos_of_ne_zero fun hzero => h (.inr hzero)
    have hfst : round.1 = (heads (buckets.map Prod.snd)).take room := selectRound_fst hroom buckets
    rw [ih, hfst, deal_eq (buckets.map Prod.snd), List.take_append, List.length_take]
    refine congrArg _ ?_
    by_cases hlength : (heads (buckets.map Prod.snd)).length < room
    · rw [Nat.min_eq_right hlength.le, deal_congr (selectRound_snd hlength)]
    · rw [Nat.min_eq_left (not_lt.mp hlength), Nat.sub_self, Nat.sub_eq_zero_of_le (not_lt.mp hlength),
        List.take_zero, List.take_zero]

variable {groupKey}

theorem bucketsOf_eq (items : List α) : bucketsOf groupKey items =
    (order groupKey items).map fun key => (key, ofColor groupKey key items) := by
  induction items using List.reverseRecOn with
  | nil => rfl
  | append_singleton items item ih =>
    have hfold : bucketsOf groupKey (items ++ [item]) =
        addToBucket (bucketsOf groupKey items) (groupKey item) item := List.foldl_concat ..
    have hgroup : ∀ key, ofColor groupKey key (items ++ [item]) =
        if key = groupKey item then ofColor groupKey key items ++ [item]
        else ofColor groupKey key items := by
      intro key
      rw [ofColor_append]
      by_cases hkey : key = groupKey item
      · simp [ofColor, hkey]
      · simp [ofColor, hkey, Ne.symm hkey]
    have hnodup : (order groupKey items).Nodup := FirstWins.nodup_firsts
    rw [hfold, ih, addToBucket, Fields.lookup_map_key, order_append_singleton]
    by_cases hmem : groupKey item ∈ order groupKey items
    · rw [if_pos hmem, if_pos hmem, Option.getD_some, Fields.put_map_of_mem hnodup hmem]
      refine List.map_congr_left fun key _ => ?_
      rw [hgroup]
      by_cases hkey : key = groupKey item
      · rw [if_pos hkey, if_pos hkey, hkey]
      · rw [if_neg hkey, if_neg hkey]
    · have hnone : ofColor groupKey (groupKey item) items = [] := by
        refine List.filter_eq_nil_iff.mpr fun a ha => ?_
        rw [decide_eq_true_eq]
        exact fun he => hmem (mem_order.mpr (he ▸ List.mem_map_of_mem ha))
      rw [if_neg hmem, if_neg hmem, Option.getD_none, Fields.put_map_of_not_mem hmem,
        List.map_append, List.map_singleton, hgroup, if_pos rfl, hnone]
      refine congrArg (· ++ _) (List.map_congr_left fun key hkey => ?_)
      rw [hgroup, if_neg fun (he : key = groupKey item) => hmem (he ▸ hkey)]

/-- **The groups of a list are dealt in turn.** -/
theorem roundRobinGroups_eq (items : List α) (maxItems : ℕ) :
    roundRobinGroups groupKey items maxItems = (spread groupKey items).take maxItems := by
  rw [roundRobinGroups, selectRounds_eq, bucketsOf_eq, List.map_map]
  rfl

/-! ## Cutting a list -/

variable {gk : Option (α → String)} {items : List α}

/-- A list in the order in which it is cut: as it is, or with its groups dealt in turn. -/
def cutOrder : Option (α → String) → List α → List α
  | none, items => items
  | some groupKey, items => spread groupKey items

theorem perm_cutOrder (gk : Option (α → String)) (items : List α) :
    (cutOrder gk items).Perm items := by
  cases gk with
  | none => exact .refl _
  | some groupKey => exact perm_spread groupKey items

theorem cutOrder_of_prefix {kept : List α} (h : kept <+: cutOrder gk items) :
    cutOrder gk kept = kept := by
  cases gk with
  | none => rfl
  | some groupKey => exact spread_of_prefix h

theorem limitList_of_le {n : ℕ} (h : items.length ≤ n) : limitList items n gk = items := if_pos h

theorem limitList_of_lt {n : ℕ} (h : n < items.length) :
    limitList items n gk = (cutOrder gk items).take n := by
  rw [limitList.eq_def, if_neg (not_le.mpr h)]
  cases gk with
  | none => rfl
  | some groupKey => exact roundRobinGroups_eq items n

theorem length_limitList (items : List α) (n : ℕ) (gk : Option (α → String)) :
    (limitList items n gk).length = min items.length n := by
  rcases le_or_gt items.length n with h | h
  · rw [limitList_of_le h, min_eq_left h]
  · rw [limitList_of_lt h, List.length_take, (perm_cutOrder gk items).length_eq, min_comm]

/-- **Cutting twice is cutting once.** -/
theorem limitList_limitList {k m : ℕ} (hkm : k ≤ m) (items : List α)
    (gk : Option (α → String)) : limitList (limitList items m gk) k gk = limitList items k gk := by
  rcases le_or_gt items.length m with hm | hm
  · rw [limitList_of_le hm]
  have hlength : (limitList items m gk).length = m := by
    rw [length_limitList, min_eq_right hm.le]
  rcases hkm.eq_or_lt with rfl | hkm
  · exact limitList_of_le hlength.le
  -- the first cut is the beginning of the list in cutting order, which the second one keeps
  have hcut : cutOrder gk ((cutOrder gk items).take m) = (cutOrder gk items).take m :=
    cutOrder_of_prefix (List.take_prefix m _)
  rw [limitList_of_lt (hkm.trans_eq hlength.symm), limitList_of_lt hm,
    limitList_of_lt (hkm.trans hm), hcut, List.take_take, min_eq_left hkm.le]

theorem limitList_min (items : List α) (n m : ℕ) (gk : Option (α → String)) :
    limitList (limitList items n gk) m gk = limitList items (min n m) gk := by
  rcases le_total m n with h | h
  · rw [limitList_limitList h, min_eq_right h]
  · rw [min_eq_left h, limitList_of_le]
    rw [length_limitList]
    exact (min_le_right _ _).trans h

theorem limitList_length (items : List α) (n : ℕ) (gk : Option (α → String)) :
    limitList items (limitList items n gk).length gk = limitList items n gk := by
  rw [length_limitList]
  rcases le_total items.length n with h | h
  · rw [min_eq_left h, limitList_of_le le_rfl, limitList_of_le h]
  · rw [min_eq_right h]

/-- **What a cut may do to a list**: it drops items, and keeps a beginning of every group; a list
without groups is one group. -/
structure CutOf (gk : Option (α → String)) (items kept : List α) : Prop where
  subperm : kept.Subperm items
  ordered : ∀ groupKey, gk = some groupKey → ∀ group,
    ofColor groupKey group kept <+: ofColor groupKey group items
  plain : gk = none → kept <+: items

theorem CutOf.refl (gk : Option (α → String)) (items : List α) : CutOf gk items items :=
  ⟨.refl _, fun _ _ _ => List.prefix_rfl, fun _ => List.prefix_rfl⟩

theorem cutOf_limitList (items : List α) (n : ℕ) (gk : Option (α → String)) :
    CutOf gk items (limitList items n gk) := by
  rcases le_or_gt items.length n with h | h
  · rw [limitList_of_le h]
    exact .refl gk items
  rw [limitList_of_lt h]
  refine ⟨(List.take_sublist n _).subperm.trans (perm_cutOrder gk items).subperm, ?_, ?_⟩
  · rintro groupKey rfl group
    rw [← ofColor_spread groupKey group items]
    exact (List.take_prefix n _).filter _
  · rintro rfl
    exact List.take_prefix n _

theorem roundRobinGroups_balanced (items : List α) (maxItems : ℕ) {ahead behind : String}
    (hleft : (ofColor groupKey behind (roundRobinGroups groupKey items maxItems)).length <
      (ofColor groupKey behind items).length) :
    (ofColor groupKey ahead (roundRobinGroups groupKey items maxItems)).length ≤
      (ofColor groupKey behind (roundRobinGroups groupKey items maxItems)).length + 1 := by
  rw [roundRobinGroups_eq] at hleft ⊢
  have hmem : ∀ {group kept}, kept.Subperm items → ofColor groupKey group kept ≠ [] →
      group ∈ order groupKey items := by
    intro group kept hkept hne
    obtain ⟨item, hitem⟩ := List.exists_mem_of_ne_nil _ hne
    obtain ⟨hitem, hgroup⟩ := List.mem_filter.mp hitem
    exact mem_order.mpr (of_decide_eq_true hgroup ▸ List.mem_map_of_mem (hkept.subset hitem))
  by_cases hahead : ofColor groupKey ahead ((spread groupKey items).take maxItems) = []
  · rw [hahead]
    exact Nat.zero_le _
  have hbehind : ofColor groupKey behind items ≠ [] := by
    intro hnil
    rw [hnil] at hleft
    exact absurd hleft (Nat.not_lt_zero _)
  have hsub : ((spread groupKey items).take maxItems).Subperm items :=
    (List.take_sublist maxItems _).subperm.trans (perm_spread groupKey items).subperm
  exact fair_deal (colored_order groupKey items) (hmem hsub hahead) (hmem (.refl _) hbehind)
    maxItems hleft

end

end Opsia.Agent
