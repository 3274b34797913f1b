import Mathlib.Data.List.Nodup
import Mathlib.Data.List.Permutation
import Mathlib.Logic.Relation
import Mathlib.Tactic.Common
import Opsia.Lib.Fields

/-!
# Dependency graphs

A finite graph as the list of its nodes with the nodes that each depends on.

* `hasCycle` — the depth-first walk that remembers the nodes it is on and those it has left; it
  finds a cycle exactly where there is one (`hasCycle_iff`).
* `layers` — the nodes in waves: a node is taken as soon as all that it depends on has been. Without
  a cycle every node gets a wave, the one after the last wave of its dependencies
  (`layers_isLayering`).
-/

namespace Dependencies

variable {α : Type} [DecidableEq α]

/-- The nodes in order, with what they depend on. -/
abbrev Graph (α : Type) := List (α × List α)

def nodes (g : Graph α) : List α := g.map Prod.fst

def deps (g : Graph α) (a : α) : List α := (g.lookup a).getD []

omit [DecidableEq α] in
theorem mem_nodes {g : Graph α} {a : α} : a ∈ nodes g ↔ ∃ ds, (a, ds) ∈ g := by
  simp only [nodes, List.mem_map, Prod.exists, exists_and_right, exists_eq_right]

/-- Where the nodes are distinct, an entry is what a lookup finds. -/
theorem deps_of_mem {g : Graph α} (hnodup : (nodes g).Nodup) {a : α} {ds : List α}
    (h : (a, ds) ∈ g) : ds = deps g a := by
  rw [deps, Fields.lookup_of_mem hnodup h]
  rfl

theorem mem_deps_iff {g : Graph α} (hnodup : (nodes g).Nodup) {a d : α} :
    d ∈ deps g a ↔ ∃ ds, (a, ds) ∈ g ∧ d ∈ ds := by
  constructor
  · intro hd
    rw [deps] at hd
    rcases hlookup : g.lookup a with _ | ds
    · rw [hlookup] at hd
      exact absurd hd List.not_mem_nil
    · rw [hlookup] at hd
      obtain ⟨l₁, l₂, rfl, -⟩ := List.lookup_eq_some_iff.mp hlookup
      exact ⟨ds, List.mem_append_right _ List.mem_cons_self, hd⟩
  · rintro ⟨ds, hmem, hd⟩
    exact deps_of_mem hnodup hmem ▸ hd

/-- The node `d` of the graph comes before `a`, which depends on it. -/
def Before (g : Graph α) (d a : α) : Prop := d ∈ nodes g ∧ d ∈ deps g a

/-! ## The walk -/

/-- The nodes that are not on the way. -/
def away (g : Graph α) (visiting : List α) : ℕ := (nodes g).countP fun a => a ∉ visiting

theorem away_cons {g : Graph α} {visiting : List α} {a : α} (ha : a ∈ nodes g)
    (hnew : a ∉ visiting) : away g (a :: visiting) < away g visiting := by
  rw [away, away, List.countP_eq_length_filter, List.countP_eq_length_filter]
  have hsub : (nodes g).filter (fun b => b ∉ a :: visiting) =
      ((nodes g).filter fun b => b ∉ visiting).filter fun b => b ≠ a := by
    rw [List.filter_filter]
    refine List.filter_congr fun b _ => ?_
    simp only [List.mem_cons, not_or, Bool.decide_and]
  rw [hsub]
  refine List.length_filter_lt_length_iff_exists.mpr ⟨a, ?_, by simp⟩
  exact List.mem_filter.mpr ⟨ha, decide_eq_true hnew⟩

mutual

/-- Walk down from a node: nothing where a cycle was found, else the nodes that are done with. -/
def walk (g : Graph α) (visiting visited : List α) (a : α) (ha : a ∈ nodes g) : Option (List α) :=
  if hnew : a ∈ visiting then none
  else if a ∈ visited then some visited
  else
    have := away_cons ha hnew
    (walkAll g (a :: visiting) visited (deps g a)).map (a :: ·)
termination_by (away g visiting, 0)

/-- Walk down from each node of a list. -/
def walkAll (g : Graph α) (visiting visited : List α) : List α → Option (List α)
  | [] => some visited
  | d :: ds =>
    if hd : d ∈ nodes g then
      (walk g visiting visited d hd).bind fun visited => walkAll g visiting visited ds
    else walkAll g visiting visited ds
termination_by ds => (away g visiting, ds.length + 1)

end

/-- The walk from every node finds a cycle. -/
def hasCycle (g : Graph α) : Bool := (walkAll g [] [] (nodes g)).isNone

/-- What is done with: it is well founded, and nothing is forgotten. -/
structure Done (g : Graph α) (visited visited' : List α) : Prop where
  acc : ∀ x ∈ visited', Acc (Before g) x
  subset : visited ⊆ visited'

theorem walk_sound (g : Graph α) :
    (∀ visiting visited a (ha : a ∈ nodes g), (∀ x ∈ visited, Acc (Before g) x) →
      ∀ visited', walk g visiting visited a ha = some visited' →
        Done g visited visited' ∧ a ∈ visited') ∧
    ∀ visiting visited ds, (∀ x ∈ visited, Acc (Before g) x) →
      ∀ visited', walkAll g visiting visited ds = some visited' →
        Done g visited visited' ∧ ∀ d ∈ ds, d ∈ nodes g → d ∈ visited' := by
  refine walk.mutual_induct g _ _ ?_ ?_ ?_ ?_ ?_ ?_
  · intro visiting visited a ha hcycle _ visited' h
    rw [walk, dif_pos hcycle] at h
    exact absurd h nofun
  · intro visiting visited a ha hnew hdone hacc visited' h
    rw [walk, dif_neg hnew, if_pos hdone] at h
    obtain rfl := Option.some.inj h
    exact ⟨⟨hacc, List.Subset.refl _⟩, hdone⟩
  · intro visiting visited a ha hnew hopen _ ih hacc visited' h
    rw [walk, dif_neg hnew, if_neg hopen] at h
    obtain ⟨below, hbelow, rfl⟩ := Option.map_eq_some_iff.mp h
    obtain ⟨hdone, hdeps⟩ := ih hacc below hbelow
    have ha' : Acc (Before g) a := Acc.intro a fun d hd => hdone.acc d (hdeps d hd.2 hd.1)
    refine ⟨⟨fun x hx => ?_, fun x hx => List.mem_cons_of_mem a (hdone.subset hx)⟩,
      List.mem_cons_self⟩
    rcases List.mem_cons.mp hx with rfl | hx
    · exact ha'
    · exact hdone.acc x hx
  · intro visiting visited hacc visited' h
    rw [walkAll] at h
    obtain rfl := Option.some.inj h
    exact ⟨⟨hacc, List.Subset.refl _⟩, fun d hd => absurd hd List.not_mem_nil⟩
  · intro visiting visited d ds hd ihd ihds hacc visited' h
    rw [walkAll, dif_pos hd] at h
    obtain ⟨between, hbetween, h⟩ := Option.bind_eq_some_iff.mp h
    obtain ⟨hfirst, hmem⟩ := ihd hacc between hbetween
    obtain ⟨hrest, hall⟩ := ihds between hfirst.acc visited' h
    refine ⟨⟨hrest.acc, fun x hx => hrest.subset (hfirst.subset hx)⟩, fun e he hnode => ?_⟩
    rcases List.mem_cons.mp he with rfl | he
    · exact hrest.subset hmem
    · exact hall e he hnode
  · intro visiting visited d ds hd ih hacc visited' h
    rw [walkAll, dif_neg hd] at h
    obtain ⟨hdone, hall⟩ := ih hacc visited' h
    refine ⟨hdone, fun e he hnode => ?_⟩
    rcases List.mem_cons.mp he with rfl | he
    · exact absurd hnode hd
    · exact hall e he hnode

theorem walk_complete (g : Graph α) :
    (∀ visiting visited a (ha : a ∈ nodes g),
      (∀ x ∈ visiting, Relation.TransGen (Before g) a x) →
      walk g visiting visited a ha = none → ∃ x, Relation.TransGen (Before g) x x) ∧
    ∀ visiting visited ds,
      (∀ d ∈ ds, d ∈ nodes g → ∀ x ∈ visiting, Relation.TransGen (Before g) d x) →
      walkAll g visiting visited ds = none → ∃ x, Relation.TransGen (Before g) x x := by
  refine walk.mutual_induct g _ _ ?_ ?_ ?_ ?_ ?_ ?_
  · intro visiting visited a ha hcycle hway _
    exact ⟨a, hway a hcycle⟩
  · intro visiting visited a ha hnew hdone _ h
    rw [walk, dif_neg hnew, if_pos hdone] at h
    exact absurd h nofun
  · intro visiting visited a ha hnew hopen _ ih hway h
    rw [walk, dif_neg hnew, if_neg hopen, Option.map_eq_none_iff] at h
    refine ih (fun d hd hnode x hx => ?_) h
    have hbefore : Before g d a := ⟨hnode, hd⟩
    rcases List.mem_cons.mp hx with rfl | hx
    · exact .single hbefore
    · exact .head hbefore (hway x hx)
  · intro visiting visited _ h
    rw [walkAll] at h
    exact absurd h nofun
  · intro visiting visited d ds hd ihd ihds hway h
    rw [walkAll, dif_pos hd] at h
    rcases hwalk : walk g visiting visited d hd with _ | between
    · exact ihd (hway d List.mem_cons_self hd) hwalk
    · rw [hwalk, Option.bind_some] at h
      exact ihds between (fun e he => hway e (List.mem_cons_of_mem d he)) h
  · intro visiting visited d ds hd ih hway h
    rw [walkAll, dif_neg hd] at h
    exact ih (fun e he => hway e (List.mem_cons_of_mem d he)) h

omit [DecidableEq α] in
theorem not_transGen_of_acc {r : α → α → Prop} {a : α} (h : Acc r a) : ¬Relation.TransGen r a a := by
  intro hcycle
  have htrans : Acc (Relation.TransGen r) a := h.transGen
  induction htrans with
  | intro a _ ih => exact ih a hcycle (h.inv_of_transGen hcycle) hcycle

/-- **The walk finds a cycle exactly where there is one.** -/
theorem hasCycle_iff (g : Graph α) :
    hasCycle g = true ↔ ∃ x, Relation.TransGen (Before g) x x := by
  rw [hasCycle, Option.isNone_iff_eq_none]
  constructor
  · exact (walk_complete g).2 [] [] (nodes g) fun _ _ _ x hx => absurd hx List.not_mem_nil
  · rintro ⟨x, hcycle⟩
    by_contra hfound
    obtain ⟨visited, hvisited⟩ := Option.ne_none_iff_exists'.mp hfound
    obtain ⟨hdone, hall⟩ := (walk_sound g).2 [] [] (nodes g)
      (fun x hx => absurd hx List.not_mem_nil) visited hvisited
    have hx : x ∈ nodes g := by
      obtain ⟨y, hy, -⟩ := Relation.TransGen.head'_iff.mp hcycle
      exact hy.1
    exact not_transGen_of_acc (hdone.acc x (hall x hx hx)) hcycle

theorem acc_of_not_hasCycle {g : Graph α} (h : hasCycle g = false) {a : α} (ha : a ∈ nodes g) :
    Acc (Before g) a := by
  rw [hasCycle, Option.isNone_eq_false_iff, Option.isSome_iff_exists] at h
  obtain ⟨visited, hvisited⟩ := h
  obtain ⟨hdone, hall⟩ := (walk_sound g).2 [] [] (nodes g)
    (fun x hx => absurd hx List.not_mem_nil) visited hvisited
  exact hdone.acc a (hall a ha ha)

/-! ## Waves -/

/-- What remains after some nodes were taken. -/
def without (remaining : Graph α) (taken : List α) : Graph α :=
  remaining.filter fun entry => entry.1 ∉ taken

theorem mem_without {remaining : Graph α} {taken : List α} {entry : α × List α} :
    entry ∈ without remaining taken ↔ entry ∈ remaining ∧ entry.1 ∉ taken := by
  rw [without, List.mem_filter, decide_eq_true_eq]

section Layers

variable [LE α] [DecidableLE α]

/-- The nodes all of whose dependencies are completed, sorted. -/
def ready (remaining : Graph α) (completed : List α) : List α :=
  (nodes (remaining.filter fun entry => entry.2.all (· ∈ completed))).mergeSort fun a b => a ≤ b

variable {completed : List α} {remaining : Graph α}

theorem mem_ready {a : α} :
    a ∈ ready remaining completed ↔
      ∃ ds, (a, ds) ∈ remaining ∧ ∀ d ∈ ds, d ∈ completed := by
  simp only [ready, List.mem_mergeSort, nodes, List.mem_map, List.mem_filter, List.all_eq_true,
    decide_eq_true_eq, Prod.exists, exists_and_right, exists_eq_right]

theorem length_without_ready (h : ready remaining completed ≠ []) :
    (without remaining (ready remaining completed)).length < remaining.length := by
  obtain ⟨a, ha⟩ := List.exists_mem_of_ne_nil _ h
  obtain ⟨ds, hmem, -⟩ := mem_ready.mp ha
  exact List.length_filter_lt_length_iff_exists.mpr ⟨(a, ds), hmem, by simp [ha]⟩

/-- Wave after wave, from the nodes that remain; nothing where none of them is ready. -/
def layersFrom (remaining : Graph α) (completed : List α) (wave : ℕ) (waves : List (α × ℕ)) :
    List (α × ℕ) :=
  if remaining = [] then waves
  else
    if hready : ready remaining completed = [] then []
    else
      have := length_without_ready hready
      layersFrom (without remaining (ready remaining completed))
        (completed ++ ready remaining completed) (wave + 1)
        (waves ++ (ready remaining completed).map fun a => (a, wave))
termination_by remaining.length

/-- The waves of a graph, from the first. -/
def layers (g : Graph α) : List (α × ℕ) := layersFrom g [] 1 []

/-- Each wave is one more than the last wave of the dependencies. -/
structure IsLayering (g : Graph α) (waves : List (α × ℕ)) : Prop where
  nodup : (waves.map Prod.fst).Nodup
  mem_iff : ∀ a, a ∈ waves.map Prod.fst ↔ a ∈ nodes g
  pos : ∀ a w, (a, w) ∈ waves → 1 ≤ w
  below : ∀ a w, (a, w) ∈ waves → ∀ d ∈ deps g a, ∃ w', (d, w') ∈ waves ∧ w' < w
  next : ∀ a w, (a, w) ∈ waves → w = 1 ∨ ∃ d ∈ deps g a, (d, w - 1) ∈ waves

/-- What the waves have come to before one of them. -/
structure Layered (g remaining : Graph α) (completed : List α) (wave : ℕ)
    (waves : List (α × ℕ)) : Prop where
  sub : ∀ a ds, (a, ds) ∈ remaining → ds = deps g a
  nodup_remaining : (nodes remaining).Nodup
  fst_waves : waves.map Prod.fst = completed
  nodup : completed.Nodup
  disjoint : ∀ a ∈ completed, a ∉ nodes remaining
  cover : ∀ a, a ∈ nodes g ↔ a ∈ completed ∨ a ∈ nodes remaining
  bound : ∀ a w, (a, w) ∈ waves → 1 ≤ w ∧ w < wave
  below : ∀ a w, (a, w) ∈ waves → ∀ d ∈ deps g a, ∃ w', (d, w') ∈ waves ∧ w' < w
  next : ∀ a w, (a, w) ∈ waves → w = 1 ∨ ∃ d ∈ deps g a, (d, w - 1) ∈ waves
  /-- what remains was not ready before -/
  late : ∀ a ∈ nodes remaining, wave = 1 ∨ ∃ d ∈ deps g a, ∀ w, (d, w) ∈ waves → wave - 1 ≤ w

variable {g : Graph α} {waves : List (α × ℕ)}

theorem Layered.ready_ne_nil {wave : ℕ} (h : Layered g remaining completed wave waves)
    (hclosed : ∀ a ∈ nodes g, ∀ d ∈ deps g a, d ∈ nodes g) (hacc : ∀ a ∈ nodes g, Acc (Before g) a)
    (hne : remaining ≠ []) :
    ready remaining completed ≠ [] := by
  have hready : ∀ a, Acc (Before g) a → a ∈ nodes remaining → ∃ b, b ∈ ready remaining completed := by
    intro a hacc
    induction hacc with
    | intro a _ ih =>
      intro ha
      obtain ⟨ds, hds⟩ := mem_nodes.mp ha
      by_cases hall : ∀ d ∈ ds, d ∈ completed
      · exact ⟨a, mem_ready.mpr ⟨ds, hds, hall⟩⟩
      · push Not at hall
        obtain ⟨d, hd, hnot⟩ := hall
        rw [h.sub a ds hds] at hd
        have hnode := hclosed a ((h.cover a).mpr (.inr ha)) d hd
        exact ih d ⟨hnode, hd⟩ (((h.cover d).mp hnode).resolve_left hnot)
  obtain ⟨entry, hentry⟩ := List.exists_mem_of_ne_nil _ hne
  have hnode : entry.1 ∈ nodes remaining := List.mem_map_of_mem hentry
  obtain ⟨b, hb⟩ := hready entry.1 (hacc entry.1 ((h.cover entry.1).mpr (.inr hnode))) hnode
  exact List.ne_nil_of_mem hb

theorem Layered.step {wave : ℕ} (h : Layered g remaining completed wave waves) (hwave : 1 ≤ wave) :
    Layered g (without remaining (ready remaining completed))
      (completed ++ ready remaining completed) (wave + 1)
      (waves ++ (ready remaining completed).map fun a => (a, wave)) := by
  have hremains : ∀ a ∈ ready remaining completed, a ∈ nodes remaining := by
    intro a ha
    obtain ⟨ds, hds, -⟩ := mem_ready.mp ha
    exact mem_nodes.mpr ⟨ds, hds⟩
  have hdeps : ∀ a ∈ ready remaining completed, ∀ d ∈ deps g a, ∃ w, (d, w) ∈ waves := by
    intro a ha d hd
    obtain ⟨ds, hds, hall⟩ := mem_ready.mp ha
    rw [← h.sub a ds hds] at hd
    have hmem := hall d hd
    rw [← h.fst_waves] at hmem
    obtain ⟨entry, hentry, rfl⟩ := List.mem_map.mp hmem
    exact ⟨entry.2, hentry⟩
  have hnodes : ∀ a, a ∈ nodes (without remaining (ready remaining completed)) ↔
      a ∈ nodes remaining ∧ a ∉ ready remaining completed := by
    intro a
    simp only [mem_nodes, mem_without, exists_and_right]
  have hcases : ∀ a w, (a, w) ∈ waves ++ (ready remaining completed).map (fun a => (a, wave)) →
      (a, w) ∈ waves ∨ a ∈ ready remaining completed ∧ w = wave := by
    intro a w hmem
    rcases List.mem_append.mp hmem with hold | hnew
    · exact .inl hold
    · obtain ⟨b, hb, heq⟩ := List.mem_map.mp hnew
      obtain ⟨rfl, rfl⟩ := Prod.mk.inj heq
      exact .inr ⟨hb, rfl⟩
  refine ⟨?_, ?_, ?_, ?_, ?_, ?_, ?_, ?_, ?_, ?_⟩
  · intro a ds hmem
    exact h.sub a ds (mem_without.mp hmem).1
  · exact h.nodup_remaining.sublist (List.Sublist.map _ List.filter_sublist)
  · rw [List.map_append, h.fst_waves, List.map_map]
    exact congrArg _ (List.map_id _)
  · refine List.nodup_append.mpr ⟨h.nodup, ?_, ?_⟩
    · refine (List.mergeSort_perm _ _).nodup_iff.mpr ?_
      exact h.nodup_remaining.sublist (List.Sublist.map _ List.filter_sublist)
    · rintro a ha b hb rfl
      exact h.disjoint a ha (hremains a hb)
  · intro a ha hmem
    rcases List.mem_append.mp ha with hold | hnew
    · exact h.disjoint a hold ((hnodes a).mp hmem).1
    · exact ((hnodes a).mp hmem).2 hnew
  · intro a
    rw [h.cover a, List.mem_append, hnodes a]
    by_cases ha : a ∈ ready remaining completed
    · simp [ha, hremains a ha]
    · simp [ha]
  · intro a w hmem
    rcases hcases a w hmem with hold | ⟨-, rfl⟩
    · have := h.bound a w hold
      omega
    · omega
  · intro a w hmem d hd
    rcases hcases a w hmem with hold | ⟨hnew, rfl⟩
    · obtain ⟨w', hw', hlt⟩ := h.below a w hold d hd
      exact ⟨w', List.mem_append_left _ hw', hlt⟩
    · obtain ⟨w', hw'⟩ := hdeps a hnew d hd
      exact ⟨w', List.mem_append_left _ hw', (h.bound d w' hw').2⟩
  · intro a w hmem
    rcases hcases a w hmem with hold | ⟨hnew, rfl⟩
    · rcases h.next a w hold with hfirst | ⟨d, hd, hw'⟩
      · exact .inl hfirst
      · exact .inr ⟨d, hd, List.mem_append_left _ hw'⟩
    · rcases h.late a (hremains a hnew) with hfirst | ⟨d, hd, hlate⟩
      · exact .inl hfirst
      · -- it was not ready before, so one of its dependencies is of the last wave
        obtain ⟨w', hw'⟩ := hdeps a hnew d hd
        have hle := hlate w' hw'
        have hlt := (h.bound d w' hw').2
        obtain rfl : w' = w - 1 := by omega
        exact .inr ⟨d, hd, List.mem_append_left _ hw'⟩
  · intro a ha
    obtain ⟨hmem, hnot⟩ := (hnodes a).mp ha
    obtain ⟨ds, hds⟩ := mem_nodes.mp hmem
    have hopen : ¬∀ d ∈ ds, d ∈ completed := fun hall => hnot (mem_ready.mpr ⟨ds, hds, hall⟩)
    push Not at hopen
    obtain ⟨d, hd, hcompleted⟩ := hopen
    rw [h.sub a ds hds] at hd
    refine .inr ⟨d, hd, fun w hw => ?_⟩
    rcases hcases d w hw with hold | ⟨-, rfl⟩
    · rw [← h.fst_waves] at hcompleted
      exact absurd (List.mem_map_of_mem hold) hcompleted
    · omega

theorem Layered.isLayering {wave : ℕ} (h : Layered g remaining completed wave waves)
    (hwave : 1 ≤ wave) (hclosed : ∀ a ∈ nodes g, ∀ d ∈ deps g a, d ∈ nodes g)
    (hacc : ∀ a ∈ nodes g, Acc (Before g) a) :
    IsLayering g (layersFrom remaining completed wave waves) := by
  induction remaining, completed, wave, waves using layersFrom.induct with
  | case1 completed wave waves =>
    rw [layersFrom, if_pos rfl]
    refine ⟨h.fst_waves ▸ h.nodup, fun a => ?_, fun a w hmem => (h.bound a w hmem).1, h.below,
      h.next⟩
    rw [h.fst_waves, h.cover a]
    simp [nodes]
  | case2 remaining completed wave waves hne hstuck =>
    exact absurd hstuck (h.ready_ne_nil hclosed hacc hne)
  | case3 remaining completed wave waves hne hready _ ih =>
    rw [layersFrom, if_neg hne, dif_neg hready]
    exact ih (h.step hwave) (Nat.le_succ_of_le hwave)

/-- **In a graph without a cycle whose dependencies are its own nodes, the waves are a layering.** -/
theorem layers_isLayering (hnodup : (nodes g).Nodup)
    (hclosed : ∀ a ∈ nodes g, ∀ d ∈ deps g a, d ∈ nodes g) (hcycle : hasCycle g = false) :
    IsLayering g (layers g) := by
  have hstart : Layered g g [] 1 [] := by
    refine ⟨fun a ds h => deps_of_mem hnodup h, hnodup, rfl, List.nodup_nil, ?_, ?_, ?_, ?_, ?_,
      fun a _ => .inl rfl⟩
    · exact fun a ha => absurd ha List.not_mem_nil
    · exact fun a => by simp
    · exact fun a w h => absurd h List.not_mem_nil
    · exact fun a w h => absurd h List.not_mem_nil
    · exact fun a w h => absurd h List.not_mem_nil
  exact hstart.isLayering (Nat.le_refl 1) hclosed fun a ha => acc_of_not_hasCycle hcycle ha

end Layers

end Dependencies
