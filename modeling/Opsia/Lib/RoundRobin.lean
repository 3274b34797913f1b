import Mathlib.Data.List.Perm.Subperm
import Opsia.Lib.FirstWins

/-!
# Dealing piles in turn

One item of every pile, then the next one of every pile that is left, until the piles are used up
(`deal`). Piles have colours: `ks.map f` are the piles of the colours `ks`, and what is dealt up to
any point takes a prefix of every pile (`ofColor_deal`), equally far into each (`fair_deal`). A list
is spread by dealing the piles of its own colours (`spread`); the beginning of a spread list is
spread already (`spread_of_prefix`), so that cutting twice is cutting once.
-/

namespace RoundRobin

variable {α κ : Type}

/-- The first item of every pile. -/
def heads (piles : List (List α)) : List α := piles.filterMap List.head?

/-- What a round leaves of the piles. -/
def tails (piles : List (List α)) : List (List α) := piles.map List.tail

theorem length_flatten_tails (piles : List (List α)) :
    (tails piles).flatten.length + (heads piles).length = piles.flatten.length := by
  induction piles with
  | nil => rfl
  | cons pile piles ih =>
    cases pile with
    | nil => exact ih
    | cons a pile =>
      simp only [tails, heads, List.map_cons, List.tail_cons, List.flatten_cons, List.length_append,
        List.filterMap_cons, List.head?_cons, List.length_cons] at ih ⊢
      omega

theorem heads_ne_nil {piles : List (List α)} (h : piles.flatten ≠ []) : heads piles ≠ [] := by
  induction piles with
  | nil => exact absurd rfl h
  | cons pile piles ih =>
    cases pile with
    | nil => exact ih h
    | cons a pile => simp [heads]

/-- The piles, dealt in turn. -/
def deal (piles : List (List α)) : List α :=
  if piles.flatten = [] then [] else heads piles ++ deal (tails piles)
termination_by piles.flatten.length
decreasing_by
  rename_i h
  have hlength := length_flatten_tails piles
  have hpos := List.length_pos_iff.mpr (heads_ne_nil h)
  omega

theorem heads_of_flatten {piles : List (List α)} (h : piles.flatten = []) : heads piles = [] := by
  have hlength := length_flatten_tails piles
  rw [h, List.length_nil] at hlength
  exact List.length_eq_zero_iff.mp (by omega)

theorem deal_of_flatten {piles : List (List α)} (h : piles.flatten = []) : deal piles = [] := by
  rw [deal, if_pos h]

theorem flatten_tails {piles : List (List α)} (h : piles.flatten = []) :
    (tails piles).flatten = [] := by
  have hlength := length_flatten_tails piles
  rw [h, List.length_nil] at hlength
  exact List.length_eq_zero_iff.mp (by omega)

/-- **A round, and then the others.** -/
theorem deal_eq (piles : List (List α)) : deal piles = heads piles ++ deal (tails piles) := by
  by_cases h : piles.flatten = []
  · rw [deal_of_flatten h, heads_of_flatten h, deal_of_flatten (flatten_tails h), List.append_nil]
  · conv_lhs => rw [deal, if_neg h]

theorem induct {motive : List (List α) → Prop} (used : ∀ piles, piles.flatten = [] → motive piles)
    (round : ∀ piles, motive (tails piles) → motive piles) (piles : List (List α)) :
    motive piles := by
  induction h : piles.flatten.length using Nat.strongRecOn generalizing piles with
  | ind n ih =>
    by_cases hused : piles.flatten = []
    · exact used piles hused
    · have hlength := length_flatten_tails piles
      have hpos := List.length_pos_iff.mpr (heads_ne_nil hused)
      exact round piles (ih _ (by omega) _ rfl)

theorem perm_heads (piles : List (List α)) :
    (heads piles ++ (tails piles).flatten).Perm piles.flatten := by
  induction piles with
  | nil => exact .refl _
  | cons pile piles ih =>
    cases pile with
    | nil => exact ih
    | cons a pile =>
      refine .cons a ?_
      calc heads piles ++ (pile ++ (tails piles).flatten)
        _ = (heads piles ++ pile) ++ (tails piles).flatten := (List.append_assoc _ _ _).symm
        _ |>.Perm ((pile ++ heads piles) ++ (tails piles).flatten) :=
          .append_right _ List.perm_append_comm
        _ = pile ++ (heads piles ++ (tails piles).flatten) := List.append_assoc _ _ _
        _ |>.Perm (pile ++ piles.flatten) := .append_left _ ih

theorem perm_deal (piles : List (List α)) : (deal piles).Perm piles.flatten := by
  induction piles using induct with
  | used piles h => rw [deal_of_flatten h, h]
  | round piles ih =>
    rw [deal_eq]
    exact (List.Perm.append_left _ ih).trans (perm_heads piles)

/-! ## Piles that are used up -/

variable {piles piles' : List (List α)}

theorem heads_filter (piles : List (List α)) : heads (piles.filter (· ≠ [])) = heads piles := by
  induction piles with
  | nil => rfl
  | cons pile piles ih =>
    cases pile with
    | nil => exact ih
    | cons a pile => exact congrArg (a :: ·) ih

theorem filter_tails_filter (piles : List (List α)) :
    (tails (piles.filter (· ≠ []))).filter (· ≠ []) = (tails piles).filter (· ≠ []) := by
  induction piles with
  | nil => rfl
  | cons pile piles ih =>
    cases pile with
    | nil => exact ih
    | cons a pile =>
      have hkept : ((a :: pile) :: piles).filter (· ≠ []) =
          (a :: pile) :: piles.filter (· ≠ []) := List.filter_cons_of_pos (by simp)
      simp only [tails] at ih
      rw [hkept, tails, tails, List.map_cons, List.map_cons, List.filter_cons, List.filter_cons, ih]

/-- **Piles that are used up deal nothing**, and could be left out. -/
theorem deal_congr (h : piles.filter (· ≠ []) = piles'.filter (· ≠ [])) :
    deal piles = deal piles' := by
  induction piles using induct generalizing piles' with
  | used piles hused =>
    have hused' : piles'.flatten = [] := by
      rw [← List.flatten_filter_ne_nil, ← h, List.flatten_filter_ne_nil, hused]
    rw [deal_of_flatten hused, deal_of_flatten hused']
  | round piles ih =>
    have hheads : heads piles = heads piles' := by
      rw [← heads_filter piles, h, heads_filter]
    have htails : (tails piles).filter (· ≠ []) = (tails piles').filter (· ≠ []) := by
      rw [← filter_tails_filter piles, h, filter_tails_filter]
    rw [deal_eq, deal_eq piles', hheads, ih htails]

/-! ## Colours -/

variable {color : α → κ} {ks : List κ} {f : κ → List α} {k l : κ}

/-- The pile of a colour has items of that colour only. -/
structure Colored (color : α → κ) (ks : List κ) (f : κ → List α) : Prop where
  nodup : ks.Nodup
  color : ∀ k ∈ ks, ∀ a ∈ f k, color a = k

theorem Colored.tail (h : Colored color ks f) : Colored color ks fun k => (f k).tail :=
  ⟨h.nodup, fun k hk a ha => h.color k hk a (List.mem_of_mem_tail ha)⟩

theorem induct_map {motive : (κ → List α) → Prop} (ks : List κ)
    (used : ∀ f, (∀ k ∈ ks, f k = []) → motive f)
    (round : ∀ f, motive (fun k => (f k).tail) → motive f) (f : κ → List α) : motive f := by
  induction hpiles : ks.map f using induct generalizing f with
  | used piles hused =>
    refine used f fun k hk => ?_
    rw [List.flatten_eq_nil_iff] at hused
    exact hused (f k) (hpiles ▸ List.mem_map_of_mem hk)
  | round piles ih =>
    refine round f (ih _ ?_)
    rw [← hpiles, tails, List.map_map]
    rfl

theorem deal_map (ks : List κ) (f : κ → List α) : deal (ks.map f) =
    ks.filterMap (fun k => (f k).head?) ++ deal (ks.map fun k => (f k).tail) := by
  rw [deal_eq, heads, tails, List.filterMap_map, List.map_map]
  rfl

theorem color_of_mem_deal (h : Colored color ks f) {a : α} (ha : a ∈ deal (ks.map f)) :
    color a ∈ ks ∧ a ∈ f (color a) := by
  obtain ⟨pile, hpile, hmem⟩ := List.mem_flatten.mp ((perm_deal _).mem_iff.mp ha)
  obtain ⟨k, hk, rfl⟩ := List.mem_map.mp hpile
  rw [h.color k hk a hmem]
  exact ⟨hk, hmem⟩

/-- The items that a round takes have different colours. -/
theorem nodup_heads (h : Colored color ks f) :
    ((ks.filterMap fun k => (f k).head?).map color).Nodup ∧
      (ks.filterMap fun k => (f k).head?).map color = ks.filter fun k => f k ≠ [] := by
  have hcolors : (ks.filterMap fun k => (f k).head?).map color = ks.filter fun k => f k ≠ [] := by
    obtain ⟨-, hcolor⟩ := h
    induction ks with
    | nil => rfl
    | cons k ks ih =>
      have hrest := ih fun l hl => hcolor l (List.mem_cons_of_mem k hl)
      cases hpile : f k with
      | nil =>
        rw [List.filterMap_cons_none (by rw [hpile]; rfl), hrest,
          List.filter_cons_of_neg (by simp [hpile])]
      | cons a pile =>
        have ha : color a = k :=
          hcolor k List.mem_cons_self a (by rw [hpile]; exact List.mem_cons_self)
        rw [List.filterMap_cons_some (by rw [hpile]; rfl), List.map_cons, hrest, ha,
          List.filter_cons_of_pos (by simp [hpile])]
  exact ⟨hcolors ▸ h.nodup.filter _, hcolors⟩

variable [DecidableEq κ]

/-- The items of a colour. -/
def ofColor (color : α → κ) (k : κ) (items : List α) : List α :=
  items.filter fun a => color a = k

theorem ofColor_append (k : κ) (items rest : List α) :
    ofColor color k (items ++ rest) = ofColor color k items ++ ofColor color k rest :=
  List.filter_append _ _

/-- A round takes one item of every colour that is left. -/
theorem ofColor_heads (h : Colored color ks f) (hk : k ∈ ks) :
    ofColor color k (ks.filterMap fun k => (f k).head?) = (f k).head?.toList := by
  obtain ⟨hnodup, hcolor⟩ := h
  induction ks with
  | nil => cases hk
  | cons k' ks ih =>
    rw [List.nodup_cons] at hnodup
    have hrest := fun l hl => hcolor l (List.mem_cons_of_mem k' hl)
    by_cases hne : k = k'
    · subst hne
      have hnone : ofColor color k (ks.filterMap fun k => (f k).head?) = [] := by
        refine List.filter_eq_nil_iff.mpr fun a ha => ?_
        obtain ⟨l, hl, hhead⟩ := List.mem_filterMap.mp ha
        have hcolored := hrest l hl a (List.mem_of_head? hhead)
        rw [decide_eq_true_eq, hcolored]
        rintro rfl
        exact hnodup.1 hl
      cases hpile : f k with
      | nil =>
        rw [List.filterMap_cons_none (by rw [hpile]; rfl), hnone]
        rfl
      | cons a pile =>
        have ha : color a = k := hcolor k hk a (by rw [hpile]; exact List.mem_cons_self)
        rw [List.filterMap_cons_some (by rw [hpile]; rfl), ofColor, List.filter_cons_of_pos (by simpa)]
        exact congrArg (a :: ·) hnone
    · have hmem : k ∈ ks := (List.mem_cons.mp hk).resolve_left hne
      rw [← ih hmem hnodup.2 hrest]
      cases hpile : f k' with
      | nil => rw [List.filterMap_cons_none (by rw [hpile]; rfl)]
      | cons a pile =>
        have ha : color a = k' :=
          hcolor k' List.mem_cons_self a (by rw [hpile]; exact List.mem_cons_self)
        rw [List.filterMap_cons_some (by rw [hpile]; rfl), ofColor, List.filter_cons_of_neg]
        · rfl
        · rw [decide_eq_true_eq, ha]
          exact Ne.symm hne

/-- **The items of a colour are dealt in the order of their pile.** -/
theorem ofColor_deal (h : Colored color ks f) (hk : k ∈ ks) :
    ofColor color k (deal (ks.map f)) = f k := by
  induction f using induct_map ks with
  | used f hused =>
    have hflat : (ks.map f).flatten = [] := by
      rw [List.flatten_eq_nil_iff]
      rintro pile hpile
      obtain ⟨l, hl, rfl⟩ := List.mem_map.mp hpile
      exact hused l hl
    rw [deal_of_flatten hflat, hused k hk]
    rfl
  | round f ih =>
    rw [deal_map, ofColor_append, ofColor_heads h hk, ih h.tail]
    cases hpile : f k with
    | nil => simp [hpile]
    | cons a pile => simp [hpile]

/-- **Dealing is fair**: at any point, a colour that is not used up is at most one item behind. -/
theorem fair_deal (h : Colored color ks f) (hk : k ∈ ks) (hl : l ∈ ks) (n : ℕ)
    (hleft : (ofColor color l ((deal (ks.map f)).take n)).length < (f l).length) :
    (ofColor color k ((deal (ks.map f)).take n)).length ≤
      (ofColor color l ((deal (ks.map f)).take n)).length + 1 := by
  induction f using induct_map ks generalizing n with
  | used f hused =>
    rw [hused l hl] at hleft
    cases hleft
  | round f ih =>
    have hone : ∀ k ∈ ks,
        (ofColor color k (ks.filterMap fun k => (f k).head?)).length ≤ 1 := by
      intro k hk
      rw [ofColor_heads h hk]
      cases (f k).head? <;> simp
    rw [deal_map] at hleft ⊢
    generalize hheads : (ks.filterMap fun k => (f k).head?) = round at hleft hone ⊢
    by_cases hn : n ≤ round.length
    · -- the cut is in the first round
      rw [List.take_append_of_le_length hn] at hleft ⊢
      have hsub : (ofColor color k (round.take n)).length ≤ (ofColor color k round).length :=
        ((List.take_sublist n round).filter _).length_le
      have := hone k hk
      omega
    · rw [List.take_append, List.take_of_length_le (by omega)] at hleft ⊢
      have hsplit : ∀ k, (ofColor color k (round ++
          (deal (ks.map fun k => (f k).tail)).take (n - round.length))).length =
            (ofColor color k round).length + (ofColor color k
              ((deal (ks.map fun k => (f k).tail)).take (n - round.length))).length := fun k => by
        rw [ofColor_append, List.length_append]
      rw [hsplit] at hleft ⊢
      rw [hsplit]
      have hround : (ofColor color l round).length = 1 := by
        rw [← hheads, ofColor_heads h hl]
        cases hpile : f l with
        | nil =>
          rw [hpile] at hleft
          cases hleft
        | cons a pile => rfl
      have hrest := ih h.tail (n - round.length) (by rw [List.length_tail]; omega)
      have := hone k hk
      omega

/-! ## Dealing what was dealt -/

variable {items dealt : List α}

theorem ofColor_of_nodup (h : (items.map color).Nodup) {a : α} (ha : a ∈ items) :
    ofColor color (color a) items = [a] := by
  induction items with
  | nil => cases ha
  | cons b items ih =>
    rw [List.map_cons, List.nodup_cons] at h
    rcases List.mem_cons.mp ha with rfl | ha
    · have hnone : ofColor color (color a) items = [] := by
        refine List.filter_eq_nil_iff.mpr fun b hb => ?_
        rw [decide_eq_true_eq]
        exact fun he => h.1 (he ▸ List.mem_map_of_mem hb)
      rw [ofColor, List.filter_cons_of_pos (by simp)]
      exact congrArg (a :: ·) hnone
    · have hne : color b ≠ color a := fun he => h.1 (he ▸ List.mem_map_of_mem ha)
      rw [ofColor, List.filter_cons_of_neg (by simpa using hne)]
      exact ih h.2 ha

theorem colored_ofColor (hks : ks.Nodup) (items : List α) :
    Colored color ks fun k => ofColor color k items :=
  ⟨hks, fun _ _ _ ha => of_decide_eq_true (List.mem_filter.mp ha).2⟩

/-- Some of the items that a round takes, taken by a round of their own. -/
theorem heads_of_sublist (h : Colored color ks f)
    (hsub : dealt.Sublist (ks.filterMap fun k => (f k).head?)) :
    (ks.filterMap fun k => (ofColor color k dealt).head?) = dealt := by
  obtain ⟨hnodup, hcolor⟩ := h
  induction ks generalizing dealt with
  | nil => exact (List.sublist_nil.mp hsub).symm
  | cons k ks ih =>
    rw [List.nodup_cons] at hnodup
    have hrest := fun l hl => hcolor l (List.mem_cons_of_mem k hl)
    have hnone : ∀ dealt : List α, dealt.Sublist (ks.filterMap fun k => (f k).head?) →
        ofColor color k dealt = [] := by
      refine fun dealt hdealt => List.filter_eq_nil_iff.mpr fun a ha => ?_
      obtain ⟨l, hl, hhead⟩ := List.mem_filterMap.mp (hdealt.subset ha)
      rw [decide_eq_true_eq, hrest l hl a (List.mem_of_head? hhead)]
      rintro rfl
      exact hnodup.1 hl
    cases hpile : f k with
    | nil =>
      rw [List.filterMap_cons_none (by rw [hpile]; rfl)] at hsub
      rw [List.filterMap_cons_none (by rw [hnone dealt hsub]; rfl)]
      exact ih hsub hnodup.2 hrest
    | cons a pile =>
      have ha : color a = k :=
        hcolor k List.mem_cons_self a (by rw [hpile]; exact List.mem_cons_self)
      rw [List.filterMap_cons_some (by rw [hpile]; rfl)] at hsub
      cases hsub with
      | cons _ hsub =>
        rw [List.filterMap_cons_none (by rw [hnone dealt hsub]; rfl)]
        exact ih hsub hnodup.2 hrest
      | cons_cons _ hsub =>
        rename_i dealt
        have hhead : ofColor color k (a :: dealt) = [a] := by
          rw [ofColor, List.filter_cons_of_pos (by simpa using ha)]
          exact congrArg (a :: ·) (hnone dealt hsub)
        rw [List.filterMap_cons_some (by rw [hhead]; rfl)]
        refine congrArg (a :: ·) (Eq.trans (List.filterMap_congr fun l hl => ?_)
          (ih hsub hnodup.2 hrest))
        have hne : color a ≠ l := fun he => hnodup.1 (by rwa [← ha, he])
        rw [ofColor, List.filter_cons_of_neg (by simpa using hne)]
        rfl

/-- **The beginning of what is dealt, dealt again**, with the colours that it has. -/
theorem deal_of_prefix (h : Colored color ks f) (hstart : dealt <+: deal (ks.map f)) :
    deal (ks.map fun k => ofColor color k dealt) = dealt ∧
      (FirstWins.firsts color dealt).map color = ks.filter fun k => ofColor color k dealt ≠ [] := by
  have hnil : ∀ f : κ → List α, (∀ k ∈ ks, f k = []) → deal (ks.map f) = [] := by
    refine fun f hused => deal_of_flatten (List.flatten_eq_nil_iff.mpr fun pile hpile => ?_)
    obtain ⟨l, hl, rfl⟩ := List.mem_map.mp hpile
    exact hused l hl
  induction f using induct_map ks generalizing dealt with
  | used f hused =>
    rw [hnil f hused, List.prefix_nil] at hstart
    subst hstart
    refine ⟨hnil _ fun _ _ => rfl, (List.filter_eq_nil_iff.mpr fun k _ => ?_).symm⟩
    simp [ofColor]
  | round f ih =>
    rw [deal_map] at hstart
    obtain ⟨hnodup, hcolors⟩ := nodup_heads h
    by_cases hlength : dealt.length ≤ (ks.filterMap fun k => (f k).head?).length
    · -- it ends in the first round
      have hround := List.prefix_of_prefix_length_le hstart (List.prefix_append _ _) hlength
      have hheads := heads_of_sublist h hround.sublist
      have hdealt : (dealt.map color).Nodup := hnodup.sublist (hround.sublist.map color)
      have hcolored : Colored color ks fun k => ofColor color k dealt :=
        colored_ofColor h.nodup dealt
      constructor
      · rw [deal_map, hheads, hnil _ fun k hk => ?_, List.append_nil]
        cases hpile : ofColor color k dealt with
        | nil => rfl
        | cons a pile =>
          have ha : a ∈ ofColor color k dealt := by rw [hpile]; exact List.mem_cons_self
          obtain ⟨hmem, hcolor⟩ := List.mem_filter.mp ha
          obtain rfl := of_decide_eq_true hcolor
          rw [ofColor_of_nodup hdealt hmem] at hpile
          rw [← hpile]
          rfl
      · rw [FirstWins.firsts_of_nodup hdealt, ← (nodup_heads hcolored).2, hheads]
    · -- it has the first round, and the beginning of the others
      have hround := List.prefix_of_prefix_length_le (List.prefix_append _ _) hstart (by omega)
      obtain ⟨later, rfl⟩ := hround
      have hlater := (List.prefix_append_right_inj _).mp hstart
      obtain ⟨hdeal, -⟩ := ih h.tail hlater
      have hleft : ∀ k ∈ ks, f k = [] → ofColor color k later = [] := by
        intro k hk hused
        have hsub : (ofColor color k later).Sublist (f k).tail := by
          rw [← ofColor_deal h.tail hk]
          exact hlater.sublist.filter _
        rw [hused] at hsub
        exact List.sublist_nil.mp hsub
      have hpile : ∀ k ∈ ks, ofColor color k ((ks.filterMap fun k => (f k).head?) ++ later) =
          (f k).head?.toList ++ ofColor color k later := fun k hk => by
        rw [ofColor_append, ofColor_heads h hk]
      constructor
      · rw [deal_map]
        have hheads : (ks.filterMap fun k => (ofColor color k
            ((ks.filterMap fun k => (f k).head?) ++ later)).head?) =
              ks.filterMap fun k => (f k).head? := by
          refine List.filterMap_congr fun k hk => ?_
          rw [hpile k hk]
          cases hused : f k with
          | nil => rw [hleft k hk hused]; rfl
          | cons a pile => rfl
        have htails : (ks.map fun k => (ofColor color k
            ((ks.filterMap fun k => (f k).head?) ++ later)).tail) =
              ks.map fun k => ofColor color k later := by
          refine List.map_congr_left fun k hk => ?_
          rw [hpile k hk]
          cases hused : f k with
          | nil => rw [hleft k hk hused]; rfl
          | cons a pile => rfl
        rw [hheads, htails, hdeal]
      · have hold : ((FirstWins.firsts color later).filter fun a =>
            decide (color a ∉ (ks.filterMap fun k => (f k).head?).map color)) = [] := by
          refine List.filter_eq_nil_iff.mpr fun a ha => ?_
          have hmem := hlater.subset (FirstWins.mem_of_mem_firstsAfter ha).1
          obtain ⟨hk, hin⟩ := color_of_mem_deal h.tail hmem
          rw [decide_eq_true_eq, not_not, hcolors]
          refine List.mem_filter.mpr ⟨hk, decide_eq_true fun hused => ?_⟩
          rw [hused] at hin
          cases hin
        rw [FirstWins.firsts_append, FirstWins.firsts_of_nodup hnodup, hold, List.append_nil,
          hcolors]
        refine List.filter_congr fun k hk => ?_
        rw [hpile k hk]
        cases hused : f k with
        | nil => rw [hleft k hk hused]; rfl
        | cons a pile => simp

/-! ## Spreading a list -/

/-- The colours of a list, in the order in which they appear. -/
def order (color : α → κ) (items : List α) : List κ := (FirstWins.firsts color items).map color

/-- The piles of the colours of a list, dealt. -/
def spread (color : α → κ) (items : List α) : List α :=
  deal ((order color items).map fun k => ofColor color k items)

theorem colored_order (color : α → κ) (items : List α) :
    Colored color (order color items) fun k => ofColor color k items :=
  colored_ofColor FirstWins.nodup_firsts items

theorem mem_order : k ∈ order color items ↔ k ∈ items.map color :=
  FirstWins.mem_map_firsts

theorem order_append_singleton (items : List α) (a : α) : order color (items ++ [a]) =
    if color a ∈ order color items then order color items
    else order color items ++ [color a] := by
  have hmem : color a ∈ order color items ↔ color a ∈ items.map color := mem_order
  have hone : FirstWins.firsts color [a] = [a] := rfl
  rw [order, FirstWins.firsts_append, hone, List.map_append]
  by_cases h : color a ∈ items.map color
  · rw [if_pos (hmem.mpr h), List.filter_cons_of_neg (by rw [decide_eq_true_eq, not_not]; exact h),
      List.filter_nil, List.map_nil, List.append_nil]
    rfl
  · rw [if_neg fun hin => h (hmem.mp hin),
      List.filter_cons_of_pos (by rw [decide_eq_true_eq]; exact h)]
    rfl

/-- **A spread list keeps the order within each colour.** -/
theorem ofColor_spread (color : α → κ) (k : κ) (items : List α) :
    ofColor color k (spread color items) = ofColor color k items := by
  by_cases hk : k ∈ order color items
  · exact ofColor_deal (colored_order color items) hk
  · have hnone : ∀ {rest : List α}, (∀ a ∈ rest, color a ∈ order color items) →
        ofColor color k rest = [] := by
      refine fun hrest => List.filter_eq_nil_iff.mpr fun a ha => ?_
      rw [decide_eq_true_eq]
      rintro rfl
      exact hk (hrest a ha)
    have hspread : ofColor color k (spread color items) = [] :=
      hnone fun a ha => (color_of_mem_deal (colored_order color items) ha).1
    rw [hspread, hnone fun a ha => mem_order.mpr (List.mem_map_of_mem ha)]

theorem perm_flatten_ofColor {ks : List κ} (hks : ks.Nodup) (hcolors : ∀ a ∈ items, color a ∈ ks) :
    (ks.map fun k => ofColor color k items).flatten.Perm items := by
  induction ks generalizing items with
  | nil =>
    have hnil : items = [] := List.eq_nil_iff_forall_not_mem.mpr fun a ha => by
      cases hcolors a ha
    rw [hnil]
    exact .refl _
  | cons k ks ih =>
    rw [List.nodup_cons] at hks
    -- the other piles are those of the items of other colours
    have hothers : (ks.map fun l => ofColor color l items) =
        ks.map fun l => ofColor color l (items.filter fun a => ¬color a = k) := by
      refine List.map_congr_left fun l hl => ?_
      rw [ofColor, ofColor, List.filter_filter]
      refine List.filter_congr fun a _ => ?_
      by_cases ha : color a = l
      · have hne : color a ≠ k := by
          rintro rfl
          exact hks.1 (ha ▸ hl)
        simp [ha, ha ▸ hne]
      · simp [ha]
    have hrest : ∀ a ∈ items.filter (fun a => ¬color a = k), color a ∈ ks := by
      intro a ha
      obtain ⟨hmem, hne⟩ := List.mem_filter.mp ha
      exact (List.mem_cons.mp (hcolors a hmem)).resolve_left (of_decide_eq_true hne)
    rw [List.map_cons, List.flatten_cons, hothers]
    refine (List.Perm.append_left _ (ih hks.2 hrest)).trans ?_
    simpa [ofColor] using List.filter_append_perm (fun a => decide (color a = k)) items

/-- **Spreading loses nothing and adds nothing.** -/
theorem perm_spread (color : α → κ) (items : List α) : (spread color items).Perm items :=
  (perm_deal _).trans (perm_flatten_ofColor FirstWins.nodup_firsts fun _ ha =>
    mem_order.mpr (List.mem_map_of_mem ha))

/-- **Spreading the beginning of a spread list changes nothing.** -/
theorem spread_of_prefix (h : dealt <+: spread color items) :
    spread color dealt = dealt := by
  obtain ⟨hdeal, horder⟩ := deal_of_prefix (colored_order color items) h
  conv_rhs => rw [← hdeal]
  refine deal_congr ?_
  rw [order, horder, List.filter_map, List.filter_map, List.filter_filter]
  simp [Function.comp_def]

end RoundRobin
