import Mathlib.Data.List.Induction
import Mathlib.Data.List.Perm.Subperm
import Mathlib.Data.List.ReduceOption
import Opsia.Lib.FirstWins

/-!
# Overlapping lists, read up to a limit

Lists whose items may repeat are read one after another until there are enough different items:
of each list, no more items than are missing (`window`). An item may fail to be read (`none`), and
then nothing is returned. Items that repeat use up what is read of a list, so the reading finds all
there is, or enough, exactly when no list hides new items behind repeated ones
(`exhaustive_iff_unhidden`).
-/

namespace Overlap

variable {ε κ : Type}

/-! ## Items that may fail -/

/-- The items, where none of them fails. -/
def built : List (Option ε) → Option (List ε)
  | [] => some []
  | none :: _ => none
  | some item :: items => (built items).map (item :: ·)

theorem built_eq_some {items : List (Option ε)} {all : List ε} :
    built items = some all ↔ items = all.map some := by
  induction items generalizing all with
  | nil => cases all <;> simp [built]
  | cons item items ih =>
    cases item with
    | none => cases all <;> simp [built]
    | some item =>
      rw [built, Option.map_eq_some_iff]
      constructor
      · rintro ⟨rest, hrest, rfl⟩
        rw [ih.mp hrest, List.map_cons]
      · intro h
        cases all with
        | nil => cases h
        | cons first all =>
          rw [List.map_cons, List.cons.injEq, Option.some.injEq] at h
          obtain ⟨rfl, h⟩ := h
          exact ⟨all, ih.mpr h, rfl⟩

theorem exists_built {items : List (Option ε)} (h : ∀ item ∈ items, item ≠ none) :
    ∃ all, built items = some all := by
  induction items with
  | nil => exact ⟨[], rfl⟩
  | cons item items ih =>
    obtain ⟨hitem, hitems⟩ := List.forall_mem_cons.mp h
    obtain ⟨all, hall⟩ := ih hitems
    cases item with
    | none => exact absurd rfl hitem
    | some item => exact ⟨item :: all, by rw [built, hall, Option.map_some]⟩

theorem built_append (items rest : List (Option ε)) : built (items ++ rest) =
    (built items).bind fun first => (built rest).map fun second => first ++ second := by
  induction items with
  | nil => cases hrest : built rest <;> simp [built, hrest]
  | cons item items ih =>
    cases item with
    | none => rfl
    | some item =>
      rw [List.cons_append, built, built, ih]
      cases built items with
      | none => rfl
      | some first => cases built rest <;> rfl

theorem length_of_built {items : List (Option ε)} {all : List ε} (h : built items = some all) :
    all.length = items.length := by
  rw [built_eq_some.mp h, List.length_map]

/-! ## Reading -/

variable [DecidableEq κ] (key : ε → κ)

/-- The different items of some lists. -/
def distinct (lists : List (List (Option ε))) : List ε :=
  FirstWins.firsts key lists.flatten.reduceOption

/-- The items with other keys than those of some lists. -/
def newIn (lists : List (List (Option ε))) (items : List (Option ε)) : List ε :=
  FirstWins.firstsAfter key (lists.flatten.reduceOption.map key) items.reduceOption

/-- The items that are found, after some that were found before. -/
def window (limit : ℕ) : List (List (Option ε)) → List ε → Option (List ε)
  | [], found => some found
  | items :: lists, found =>
    if limit ≤ found.length then some found
    else (built (items.take (limit - found.length))).bind fun more =>
      window limit lists (found ++ FirstWins.firstsAfter key (found.map key) more)

/-- **The reading finds all items, or enough.** -/
def Exhaustive (limit : ℕ) (lists : List (List (Option ε))) : Prop :=
  ∃ found, window key limit lists [] = some found ∧
    found.length = min limit (distinct key lists).length

/-- A list does not hide new items: there are enough before it, or what is read of it can be read
and has all of its new items, or enough. -/
def Shows (limit : ℕ) (before : List (List (Option ε))) (items : List (Option ε)) : Prop :=
  limit ≤ (distinct key before).length ∨
    let missing := limit - (distinct key before).length
    (∀ item ∈ items.take missing, item ≠ none) ∧
      (newIn key before (items.take missing)).length = min missing (newIn key before items).length

/-- **No list hides new items.** -/
def Unhidden (limit : ℕ) (lists : List (List (Option ε))) : Prop :=
  ∀ before items after, lists = before ++ items :: after → Shows key limit before items

variable {key} {limit : ℕ} {lists : List (List (Option ε))} {items : List (Option ε)}

theorem length_distinct_append (lists : List (List (Option ε))) (items : List (Option ε)) :
    (distinct key (lists ++ [items])).length =
      (distinct key lists).length + (newIn key lists items).length := by
  rw [distinct, distinct, newIn, List.flatten_append, List.reduceOption_append, FirstWins.firsts,
    FirstWins.firsts, FirstWins.firstsAfter_append, List.length_append, List.append_nil,
    List.flatten_singleton]

theorem window_append (lists rest : List (List (Option ε))) (found : List ε) :
    window key limit (lists ++ rest) found =
      (window key limit lists found).bind (window key limit rest) := by
  induction lists generalizing found with
  | nil => rfl
  | cons items lists ih =>
    rw [List.cons_append, window, window]
    split
    · rename_i hfull
      rw [Option.bind_some]
      cases rest with
      | nil => rfl
      | cons => rw [window, if_pos hfull]
    · rw [Option.bind_assoc]
      exact Option.bind_congr fun more _ => ih _

/-- **What the reading finds**: different items of the lists, no more than the limit. -/
theorem window_sound {found : List ε} (h : window key limit lists [] = some found) :
    (found.map key).Nodup ∧ (∀ k ∈ found.map key, k ∈ lists.flatten.reduceOption.map key) ∧
      found.length ≤ limit := by
  induction lists using List.reverseRecOn generalizing found with
  | nil =>
    obtain rfl := Option.some.inj h
    exact ⟨List.nodup_nil, fun _ hk => absurd hk List.not_mem_nil, Nat.zero_le _⟩
  | append_singleton lists items ih =>
    rw [window_append] at h
    obtain ⟨first, hfirst, hlast⟩ := Option.bind_eq_some_iff.mp h
    obtain ⟨hnodup, hmem, hle⟩ := ih hfirst
    have hold : ∀ k ∈ first.map key, k ∈ (lists ++ [items]).flatten.reduceOption.map key := by
      intro k hk
      rw [List.flatten_append, List.reduceOption_append, List.map_append]
      exact List.mem_append_left _ (hmem k hk)
    rw [window] at hlast
    split at hlast
    · obtain rfl := Option.some.inj hlast
      exact ⟨hnodup, hold, hle⟩
    · rename_i hroom
      obtain ⟨more, hmore, hfound⟩ := Option.bind_eq_some_iff.mp hlast
      obtain rfl := Option.some.inj hfound
      have hitems : ∀ e ∈ more, e ∈ items.reduceOption := by
        intro e he
        rw [List.reduceOption_mem_iff]
        refine List.mem_of_mem_take (i := limit - first.length) ?_
        rw [built_eq_some.mp hmore]
        exact List.mem_map_of_mem he
      refine ⟨?_, ?_, ?_⟩
      · rw [List.map_append]
        refine List.nodup_append'.mpr ⟨hnodup, FirstWins.nodup_firstsAfter, fun k hk hk' => ?_⟩
        obtain ⟨e, he, rfl⟩ := List.mem_map.mp hk'
        exact (FirstWins.mem_of_mem_firstsAfter he).2 hk
      · intro k hk
        rw [List.map_append, List.mem_append] at hk
        rcases hk with hk | hk
        · exact hold k hk
        · obtain ⟨e, he, rfl⟩ := List.mem_map.mp hk
          rw [List.flatten_append, List.reduceOption_append, List.map_append]
          refine List.mem_append_right _ (List.mem_map_of_mem ?_)
          rw [List.flatten_singleton]
          exact hitems e (FirstWins.mem_of_mem_firstsAfter he).1
      · have hnew : (FirstWins.firstsAfter key (first.map key) more).length ≤ more.length :=
          FirstWins.firstsAfter_sublist.length_le
        have htake := length_of_built hmore
        rw [List.length_take] at htake
        rw [List.length_append]
        omega

theorem length_le_of_window {found : List ε} (h : window key limit lists [] = some found) :
    found.length ≤ (distinct key lists).length := by
  obtain ⟨hnodup, hsub, -⟩ := window_sound h
  have hsubperm : (found.map key).Subperm ((distinct key lists).map key) :=
    List.subperm_of_subset hnodup fun k hk => FirstWins.mem_map_firsts.mpr (hsub k hk)
  have hlength := hsubperm.length_le
  rwa [List.length_map, List.length_map] at hlength

theorem prefix_of_window {found found' : List ε} (h : window key limit lists found = some found') :
    found <+: found' := by
  induction lists generalizing found with
  | nil =>
    obtain rfl := Option.some.inj h
    exact List.prefix_rfl
  | cons items lists ih =>
    rw [window] at h
    split at h
    · obtain rfl := Option.some.inj h
      exact List.prefix_rfl
    · obtain ⟨more, -, hmore⟩ := Option.bind_eq_some_iff.mp h
      exact (List.prefix_append _ _).trans (ih hmore)

/-- Nothing is found where there is nothing. -/
theorem distinct_eq_nil_of_window (hlimit : 0 < limit)
    (h : window key limit lists [] = some []) : distinct key lists = [] := by
  induction lists with
  | nil => rfl
  | cons items lists ih =>
    rw [window, List.length_nil, if_neg (Nat.not_le.mpr hlimit)] at h
    obtain ⟨more, hbuilt, hmore⟩ := Option.bind_eq_some_iff.mp h
    have hnew : FirstWins.firstsAfter key [] more = [] := List.prefix_nil.mp (prefix_of_window hmore)
    have hnil : more = [] := by
      cases more with
      | nil => rfl
      | cons first more => simp [FirstWins.firstsAfter] at hnew
    have hitems : items = [] := by
      have hlength := length_of_built hbuilt
      rw [hnil, Nat.sub_zero, List.length_nil, List.length_take] at hlength
      exact List.length_eq_zero_iff.mp (by omega)
    rw [List.map_nil, hnew] at hmore
    have hrest := ih hmore
    rw [hitems]
    exact hrest

theorem length_distinct_take_le (lists : List (List (Option ε))) (n : ℕ) :
    (distinct key (lists.take n)).length ≤ (distinct key lists).length := by
  have hsplit : distinct key lists = distinct key (lists.take n ++ lists.drop n) := by
    rw [List.take_append_drop]
  rw [hsplit, distinct, distinct, List.flatten_append, List.reduceOption_append, FirstWins.firsts,
    FirstWins.firsts, FirstWins.firstsAfter_append, List.length_append]
  exact Nat.le_add_right _ _

theorem newIn_of_built {all : List ε} (h : built items = some all) :
    newIn key lists items =
      FirstWins.firstsAfter key (lists.flatten.reduceOption.map key) all := by
  have hitems : items.reduceOption = all := by
    rw [built_eq_some.mp h, List.reduceOption, List.filterMap_map]
    exact List.filterMap_some
  rw [newIn, hitems]

theorem exhaustive_append_iff (h : Exhaustive key limit lists) :
    Exhaustive key limit (lists ++ [items]) ↔ Shows key limit lists items := by
  obtain ⟨found, hfound, hlength⟩ := h
  obtain ⟨hnodup, hsub, -⟩ := window_sound hfound
  have hwindow : window key limit (lists ++ [items]) [] = window key limit [items] found := by
    rw [window_append, hfound, Option.bind_some]
  rw [Exhaustive, hwindow, length_distinct_append, window, Shows]
  by_cases hfull : limit ≤ (distinct key lists).length
  · rw [if_pos (by omega)]
    refine iff_of_true ⟨found, rfl, by omega⟩ (.inl hfull)
  have hall : found.length = (distinct key lists).length := by omega
  -- what was found are all keys of the lists
  have hperm : (found.map key).Perm ((distinct key lists).map key) := by
    refine (List.subperm_of_subset hnodup fun k hk => ?_).perm_of_length_le ?_
    · exact FirstWins.mem_map_firsts.mpr (hsub k hk)
    · rw [List.length_map, List.length_map]
      exact Nat.le_of_eq hall.symm
  have hkeys : ∀ k, k ∈ found.map key ↔ k ∈ lists.flatten.reduceOption.map key :=
    fun k => hperm.mem_iff.trans FirstWins.mem_map_firsts
  rw [if_neg (by omega), hall, or_iff_right hfull]
  cases hbuilt : built (items.take (limit - (distinct key lists).length)) with
  | none =>
    refine iff_of_false (by simp) ?_
    rintro ⟨hnone, -⟩
    obtain ⟨all, hall⟩ := exists_built hnone
    rw [hbuilt] at hall
    cases hall
  | some more =>
    have hsome : ∀ item ∈ items.take (limit - (distinct key lists).length), item ≠ none := by
      intro item hitem
      rw [built_eq_some.mp hbuilt] at hitem
      obtain ⟨e, -, rfl⟩ := List.mem_map.mp hitem
      exact Option.some_ne_none e
    have hnew : newIn key lists (items.take (limit - (distinct key lists).length)) =
        FirstWins.firstsAfter key (found.map key) more := by
      rw [newIn_of_built hbuilt, FirstWins.firstsAfter_congr hkeys]
    constructor
    · rintro ⟨found', hfound', hlength'⟩
      obtain rfl := Option.some.inj hfound'
      rw [List.length_append, ← hnew, hall] at hlength'
      refine ⟨hsome, ?_⟩
      omega
    · rintro ⟨-, hshown⟩
      refine ⟨_, rfl, ?_⟩
      rw [List.length_append, ← hnew, hall]
      omega

theorem unhidden_append_iff :
    Unhidden key limit (lists ++ [items]) ↔ Unhidden key limit lists ∧ Shows key limit lists items := by
  constructor
  · intro h
    refine ⟨fun before middle after he => h before middle (after ++ [items]) (by simp [he]),
      h lists items [] rfl⟩
  · rintro ⟨hlists, hitems⟩ before middle after he
    rcases List.eq_nil_or_concat after with rfl | ⟨after, last, rfl⟩
    · obtain ⟨rfl, hlast⟩ := List.append_inj' he rfl
      cases hlast
      exact hitems
    · rw [List.concat_eq_append, ← List.cons_append, ← List.append_assoc] at he
      obtain ⟨rfl, -⟩ := List.append_inj' he rfl
      exact hlists before middle after rfl

/-- **The reading finds all items, or enough, however many of the lists it is given, exactly when no
list hides new items.** -/
theorem exhaustive_iff_unhidden : (∀ n, Exhaustive key limit (lists.take n)) ↔
    Unhidden key limit lists := by
  induction lists using List.reverseRecOn with
  | nil =>
    refine iff_of_true (fun n => ?_) fun before items after he => ?_
    · rw [List.take_nil]
      exact ⟨[], rfl, by simp [distinct]⟩
    · cases before <;> cases he
  | append_singleton lists items ih =>
    rw [unhidden_append_iff, ← ih]
    constructor
    · intro h
      have hlists : ∀ n, Exhaustive key limit (lists.take n) := by
        intro n
        have hn := h (min n lists.length)
        rwa [List.take_append_of_le_length (Nat.min_le_right _ _), ← List.take_eq_take_min] at hn
      have hall := hlists lists.length
      have hmore := h (lists ++ [items]).length
      rw [List.take_length] at hall hmore
      exact ⟨hlists, (exhaustive_append_iff hall).mp hmore⟩
    · rintro ⟨hlists, hitems⟩ n
      have hall := hlists lists.length
      rw [List.take_length] at hall
      rcases Nat.lt_or_ge n (lists ++ [items]).length with hn | hn
      · rw [List.length_append, List.length_singleton] at hn
        rw [List.take_append_of_le_length (by omega)]
        exact hlists n
      · rw [List.take_of_length_le hn]
        exact (exhaustive_append_iff hall).mpr hitems

end Overlap
