import Mathlib.Data.List.Sort
import Mathlib.Order.Basic
import Mathlib.Tactic.Common

/-!
# Keyset pagination

Reading a result in pages by the sort key of the last row seen: a page is the first rows,
in order, of those whose key is greater than the position, and one row more is fetched to
know whether there is a next page. When no two rows share a key, following the positions
from the first page reads every row once, in order (`collect_items`).
-/

namespace Keyset

variable {ρ σ : Type} [LinearOrder σ] (key : ρ → σ)

/-- `ORDER BY key`. -/
def sorted (rows : List ρ) : List ρ := rows.insertionSort fun a b => key a ≤ key b

/-- `WHERE key > position`. -/
def isAfter (position : Option σ) (row : ρ) : Bool := position.all fun p => decide (p < key row)

/-- The rows that the statement of a page fetches, one more than the page shows. -/
def fetched (rows : List ρ) (position : Option σ) (limit : ℕ) : List ρ :=
  (sorted key (rows.filter (isAfter key position))).take (limit + 1)

/-- A page: the rows it shows and, when there are more, the key of the last of them. -/
structure Page (ρ σ : Type) : Type where
  items : List ρ
  hasMore : Bool
  next : Option σ

/-- The page that a statement's rows make. -/
def Page.ofFetched (rows : List ρ) (limit : ℕ) : Page ρ σ :=
  let hasMore := decide (limit < rows.length)
  let items := rows.take limit
  { items := items
    hasMore := hasMore
    next := if hasMore then items.getLast?.map key else none }

/-- The page after a position. -/
def page (rows : List ρ) (limit : ℕ) (position : Option σ) : Page ρ σ :=
  Page.ofFetched key (fetched key rows position limit) limit

/-! ## Sorting rows with different keys -/

variable {key} {rows : List ρ}

theorem mem_sorted {row : ρ} : row ∈ sorted key rows ↔ row ∈ rows := List.mem_insertionSort _

theorem perm_sorted : (sorted key rows).Perm rows := List.perm_insertionSort _ rows

theorem pairwise_le_sorted : (sorted key rows).Pairwise fun a b => key a ≤ key b := by
  have : Std.Total fun a b : ρ => key a ≤ key b := ⟨fun a b => le_total (key a) (key b)⟩
  have : IsTrans ρ fun a b => key a ≤ key b := ⟨fun _ _ _ => le_trans⟩
  exact List.pairwise_insertionSort _ rows

theorem pairwise_lt_sorted (hkeys : (rows.map key).Nodup) :
    (sorted key rows).Pairwise fun a b => key a < key b := by
  have hne : (sorted key rows).Pairwise fun a b => key a ≠ key b :=
    List.pairwise_map.mp ((perm_sorted.map key).nodup_iff.mpr hkeys)
  exact (pairwise_le_sorted.and hne).imp fun h => lt_of_le_of_ne h.1 h.2

theorem sorted_filter (hkeys : (rows.map key).Nodup) (p : ρ → Bool) :
    sorted key (rows.filter p) = (sorted key rows).filter p := by
  have hlt := pairwise_lt_sorted hkeys
  refine List.Perm.eq_of_pairwise (fun a b ha hb hab hba => ?_) pairwise_le_sorted
    ((hlt.imp fun h => h.le).filter p) ?_
  · exact List.inj_on_of_nodup_map hkeys (List.mem_filter.mp (mem_sorted.mp ha)).1
      (mem_sorted.mp (List.mem_filter.mp hb).1) (le_antisymm hab hba)
  · exact perm_sorted.trans (perm_sorted.symm.filter p)

theorem sorted_eq_of_perm (hkeys : (rows.map key).Nodup) {rows' : List ρ} (h : rows'.Perm rows) :
    sorted key rows' = sorted key rows := by
  refine List.Perm.eq_of_pairwise (fun a b ha hb hab hba => ?_) pairwise_le_sorted
    pairwise_le_sorted (perm_sorted.trans (h.trans perm_sorted.symm))
  exact List.inj_on_of_nodup_map hkeys (h.mem_iff.mp (mem_sorted.mp ha)) (mem_sorted.mp hb)
    (le_antisymm hab hba)

theorem filter_isAfter_append {before rest : List ρ} {last : ρ}
    (hlt : (before ++ last :: rest).Pairwise fun a b => key a < key b) :
    (before ++ last :: rest).filter (isAfter key (some (key last))) = rest := by
  obtain ⟨-, hrest, hcross⟩ := List.pairwise_append.mp hlt
  have hbefore : before.filter (isAfter key (some (key last))) = [] := by
    refine List.filter_eq_nil_iff.mpr fun a ha hafter => ?_
    have hlast : key last < key a := by simpa [isAfter] using hafter
    exact absurd (hlast.trans (hcross a ha last List.mem_cons_self)) (lt_irrefl _)
  have hself : ¬ isAfter key (some (key last)) last = true := by simp [isAfter]
  have hall : rest.filter (isAfter key (some (key last))) = rest := by
    refine List.filter_eq_self.mpr fun a ha => ?_
    simpa [isAfter] using (List.pairwise_cons.mp hrest).1 a ha
  rw [List.filter_append, hbefore, List.nil_append, List.filter_cons_of_neg hself, hall]

/-- Rows may be rewritten before or after the statement, as long as they keep their keys. -/
theorem fetched_map {f : ρ → ρ} (hf : ∀ row, key (f row) = key row) (rows : List ρ)
    (position : Option σ) (limit : ℕ) :
    fetched key (rows.map f) position limit = (fetched key rows position limit).map f := by
  have hfilter : (rows.map f).filter (isAfter key position) =
      (rows.filter (isAfter key position)).map f := by
    rw [List.filter_map]
    exact congrArg (List.map f) (List.filter_congr fun row _ => by simp [isAfter, hf])
  rw [fetched, fetched, hfilter, List.map_take]
  refine congrArg (List.take (limit + 1)) (List.map_insertionSort _ _ f _ ?_).symm
  intro a _ b _
  rw [hf, hf]

/-! ## Following the positions -/

/-- A position reached: what is left to read after it. -/
def Reaches (key : ρ → σ) (rows : List ρ) (position : Option σ) (rest : List ρ) : Prop :=
  (sorted key rows).filter (isAfter key position) = rest ∧
    ∃ before, sorted key rows = before ++ rest

/-- Before the first page everything is left. -/
theorem reaches_none : Reaches key rows none (sorted key rows) :=
  ⟨List.filter_eq_self.mpr fun _ _ => rfl, [], rfl⟩

/-- **A page shows the first rows of what is left**, says whether there are more, and
reaches the rest. -/
theorem page_of_reaches (hkeys : (rows.map key).Nodup) {limit : ℕ} (hlimit : 0 < limit)
    {position : Option σ} {rest : List ρ} (h : Reaches key rows position rest) :
    (page key rows limit position).items = rest.take limit ∧
    (page key rows limit position).hasMore = decide (limit < rest.length) ∧
    (limit < rest.length →
      Reaches key rows (page key rows limit position).next (rest.drop limit)) := by
  obtain ⟨hfilter, before, hsplit⟩ := h
  have hfetched : fetched key rows position limit = rest.take (limit + 1) := by
    rw [fetched, sorted_filter hkeys, hfilter]
  have hitems : (rest.take (limit + 1)).take limit = rest.take limit := by
    rw [List.take_take, Nat.min_eq_left (Nat.le_succ limit)]
  have hmore : decide (limit < (rest.take (limit + 1)).length) = decide (limit < rest.length) := by
    rw [List.length_take]
    refine decide_eq_decide.mpr ?_
    omega
  simp only [page, Page.ofFetched, hfetched, hitems, hmore, decide_eq_true_eq, true_and]
  intro hlt
  rw [if_pos hlt]
  have hne : rest.take limit ≠ [] := by
    intro hnil
    have hlen := congrArg List.length hnil
    rw [List.length_take, List.length_nil] at hlen
    omega
  obtain ⟨init, last, hlast⟩ := List.eq_nil_or_concat (rest.take limit) |>.resolve_left hne
  have hwhole : sorted key rows = (before ++ init) ++ last :: rest.drop limit := by
    rw [hsplit]
    conv_lhs => rw [← List.take_append_drop limit rest, hlast]
    simp
  have hnext : (rest.take limit).getLast?.map key = some (key last) := by
    rw [hlast]
    simp
  rw [hnext]
  have hsorted := pairwise_lt_sorted hkeys
  rw [hwhole] at hsorted
  refine ⟨?_, before ++ init ++ [last], ?_⟩
  · rw [hwhole]
    exact filter_isAfter_append hsorted
  · rw [hwhole, List.append_assoc _ [last], List.singleton_append]

/-- The pages that a reader gets who follows the positions until there are no more; the
`i`-th page is read by `read i`, and `fuel` bounds their number. -/
def collect (read : ℕ → Option σ → Page ρ σ) : (fuel i : ℕ) → Option σ → List (Page ρ σ)
  | 0, _, _ => []
  | fuel + 1, i, position =>
    let found := read i position
    found :: if found.hasMore then collect read fuel (i + 1) found.next else []

theorem collect_of_reaches (hkeys : (rows.map key).Nodup) {limit : ℕ → ℕ}
    (hlimit : ∀ i, 0 < limit i) {fuel i : ℕ} {position : Option σ} {rest : List ρ}
    (hfuel : rest.length < fuel) (h : Reaches key rows position rest) :
    (collect (fun i => page key rows (limit i)) fuel i position).flatMap (fun p => p.items) =
        rest ∧
      (collect (fun i => page key rows (limit i)) fuel i position).getLast?.map
        (fun p => p.hasMore) = some false := by
  induction fuel generalizing i position rest with
  | zero => omega
  | succ fuel ih =>
    obtain ⟨hitems, hmore, hnext⟩ := page_of_reaches hkeys (hlimit i) h
    rw [collect]
    by_cases hlt : limit i < rest.length
    · have hdrop : (rest.drop (limit i)).length < fuel := by
        rw [List.length_drop]
        have := hlimit i
        omega
      obtain ⟨hrest, hlast⟩ := @ih (i + 1) _ _ hdrop (hnext hlt)
      rw [hmore, decide_eq_true hlt, if_pos rfl, List.flatMap_cons, hrest, hitems,
        List.take_append_drop]
      refine ⟨rfl, ?_⟩
      rcases hc : collect (fun i => page key rows (limit i)) fuel (i + 1)
        (page key rows (limit i) position).next with _ | ⟨p, ps⟩
      · rw [hc] at hlast
        cases hlast
      · rw [List.getLast?_cons_cons, ← hc]
        exact hlast
    · rw [hmore, decide_eq_false hlt, if_neg Bool.false_ne_true, List.flatMap_cons, hitems,
        List.flatMap_nil, List.append_nil, List.take_of_length_le (by omega)]
      refine ⟨rfl, ?_⟩
      rw [List.getLast?_singleton, Option.map_some, hmore, decide_eq_false hlt]

/-- **Following the positions reads every row once, in order**, and ends with a page that
has no next one. -/
theorem collect_items (hkeys : (rows.map key).Nodup) {limit : ℕ → ℕ}
    (hlimit : ∀ i, 0 < limit i) {fuel : ℕ} (hfuel : rows.length < fuel) :
    (collect (fun i => page key rows (limit i)) fuel 0 none).flatMap (fun p => p.items) =
        sorted key rows ∧
      (collect (fun i => page key rows (limit i)) fuel 0 none).getLast?.map
        (fun p => p.hasMore) = some false :=
  collect_of_reaches hkeys hlimit (by rw [perm_sorted.length_eq]; exact hfuel) reaches_none

end Keyset
