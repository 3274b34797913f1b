import Mathlib.Data.List.Nodup
import Mathlib.Order.Interval.Set.Basic
import Mathlib.Tactic.Common

/-!
# Interval-versioned tables

A table whose rows are versions of keyed things: a version is valid from the time it
was written to the time it was closed, and an open version has no end yet. Time is any
linear order. A commit closes some open versions and appends new ones, all at one time.

Two facts carry what such tables are used for. A commit after every time used so far
keeps the versions of one key disjoint and in order (`Lawful.commit`), and so a reader of any
time sees one version of a key at most (`Lawful.eq_of_seen`).
-/

/-- How rows of type `ν` carry a key, a content and the interval in which they are
valid. -/
structure Versioning (ν κ χ τ : Type) where
  key : ν → κ
  content : ν → χ
  /-- the time of the commit that wrote the version -/
  start : ν → τ
  /-- the time of the commit that closed it, if one did -/
  stop : ν → Option τ
  close : τ → ν → ν
  key_close : ∀ t v, key (close t v) = key v
  content_close : ∀ t v, content (close t v) = content v
  start_close : ∀ t v, start (close t v) = start v
  stop_close : ∀ t v, stop (close t v) = some t

namespace Versioning

variable {ν κ χ τ : Type} [LinearOrder τ] (V : Versioning ν κ χ τ)

/-! ## Intervals -/

/-- The times at which a version is valid. -/
def interval (v : ν) : Set τ :=
  match V.stop v with
  | some e => Set.Ico (V.start v) e
  | none => Set.Ici (V.start v)

/-- A reader of the time `t` sees the version. -/
def seenAt (t : τ) (v : ν) : Bool :=
  decide (V.start v ≤ t) && (V.stop v).all fun e => decide (t < e)

variable {v : ν}

/-- A reader sees exactly the versions in whose interval it reads. -/
theorem seenAt_iff {t : τ} : V.seenAt t v = true ↔ t ∈ V.interval v := by
  rw [seenAt, interval]
  rcases V.stop v with _ | e
  · simp
  · simp

theorem seenAt_of_open {t : τ} (hopen : V.stop v = none) (hstart : V.start v ≤ t) :
    V.seenAt t v = true := by
  simp [seenAt, hopen, hstart]

/-- A reader sees a version that had started and had not ended. -/
theorem seenAt_of_stop {t : τ} (hstart : V.start v ≤ t) (hstop : ∀ e, V.stop v = some e → t < e) :
    V.seenAt t v = true := by
  rcases hs : V.stop v with _ | e
  · exact V.seenAt_of_open hs hstart
  · simp [seenAt, hs, hstart, hstop e hs]

/-! ## Commits -/

/-- Close a version when it is among those to close. -/
def closeIf (closing : ν → Bool) (t : τ) (v : ν) : ν := if closing v then V.close t v else v

/-- One commit at the time `t`: close the open versions chosen by `closing` and append
the new ones. -/
def commit (h : List ν) (closing : ν → Bool) (t : τ) (new : List ν) : List ν :=
  h.map (V.closeIf closing t) ++ new

variable {V} {h new : List ν} {closing : ν → Bool} {now t : τ}

section Commits

omit [LinearOrder τ]

theorem closeIf_of_not (hv : closing v = false) : V.closeIf closing t v = v := by
  simp [closeIf, hv]

theorem closeIf_of_closing (hv : closing v = true) :
    V.closeIf closing t v = V.close t v := by
  simp [closeIf, hv]

@[simp] theorem key_closeIf (v : ν) : V.key (V.closeIf closing t v) = V.key v := by
  rcases hv : closing v with _ | _
  · rw [closeIf_of_not hv]
  · rw [closeIf_of_closing hv, V.key_close]

@[simp] theorem content_closeIf (v : ν) :
    V.content (V.closeIf closing t v) = V.content v := by
  rcases hv : closing v with _ | _
  · rw [closeIf_of_not hv]
  · rw [closeIf_of_closing hv, V.content_close]

@[simp] theorem start_closeIf (v : ν) : V.start (V.closeIf closing t v) = V.start v := by
  rcases hv : closing v with _ | _
  · rw [closeIf_of_not hv]
  · rw [closeIf_of_closing hv, V.start_close]

/-- A version that a commit leaves open was open and not to be closed. -/
theorem stop_closeIf_eq_none :
    V.stop (V.closeIf closing t v) = none ↔ V.stop v = none ∧ closing v = false := by
  rcases hv : closing v with _ | _
  · rw [closeIf_of_not hv]
    simp
  · rw [closeIf_of_closing hv, V.stop_close]
    simp

theorem stop_closeIf_eq_some {e : τ} (he : V.stop (V.closeIf closing t v) = some e) :
    (closing v = true ∧ e = t) ∨ (closing v = false ∧ V.stop v = some e) := by
  rcases hv : closing v with _ | _
  · rw [closeIf_of_not hv] at he
    exact Or.inr ⟨rfl, he⟩
  · rw [closeIf_of_closing hv, V.stop_close] at he
    exact Or.inl ⟨rfl, (Option.some.inj he).symm⟩

theorem mem_commit :
    v ∈ V.commit h closing t new ↔ (∃ w ∈ h, V.closeIf closing t w = v) ∨ v ∈ new := by
  rw [commit, List.mem_append, List.mem_map]

theorem filter_commit_of_not {p : ν → Bool}
    (hclosing : ∀ v ∈ h, closing v = true → p v = false ∧ p (V.close t v) = false)
    (hnew : ∀ v ∈ new, p v = false) : (V.commit h closing t new).filter p = h.filter p := by
  have hnone : new.filter p = [] :=
    List.filter_eq_nil_iff.mpr fun v hv => by rw [hnew v hv]; exact Bool.false_ne_true
  rw [commit, List.filter_append, hnone, List.append_nil]
  clear hnone hnew
  induction h with
  | nil => rfl
  | cons v h ih =>
    have hrest := ih fun w hw => hclosing w (List.mem_cons_of_mem _ hw)
    rw [List.map_cons]
    rcases hc : closing v with _ | _
    · rw [closeIf_of_not hc, List.filter_cons, List.filter_cons, hrest]
    · obtain ⟨hv, hclosed⟩ := hclosing v List.mem_cons_self hc
      rw [closeIf_of_closing hc, List.filter_cons_of_neg (by simp [hclosed]),
        List.filter_cons_of_neg (by simp [hv]), hrest]

theorem filter_commit_of_forall {p : ν → Bool} (hclose : ∀ v, p (V.close t v) = p v)
    (hnew : ∀ v ∈ new, p v = true) :
    (V.commit h closing t new).filter p = V.commit (h.filter p) closing t new := by
  have hkind : ∀ v, p (V.closeIf closing t v) = p v := fun v => by
    rcases hc : closing v with _ | _
    · rw [closeIf_of_not hc]
    · rw [closeIf_of_closing hc, hclose]
  rw [commit, commit, List.filter_append, List.filter_map, List.filter_eq_self.mpr hnew]
  exact congrArg (fun l => l.map (V.closeIf closing t) ++ new)
    (List.filter_congr fun v _ => hkind v)

end Commits

/-! ## Lawful histories -/

variable (V) in
/-- A history at the time `now`: no version is from the future, no interval is empty, and
of two versions of one key the earlier row ended when or before the later one began, and
has another content when the two are adjacent. -/
structure Lawful (now : τ) (h : List ν) : Prop where
  start_le : ∀ v ∈ h, V.start v ≤ now
  start_lt_stop : ∀ v ∈ h, ∀ e, V.stop v = some e → V.start v < e
  stop_le : ∀ v ∈ h, ∀ e, V.stop v = some e → e ≤ now
  before : h.Pairwise fun v w => V.key v = V.key w →
    ∃ e, V.stop v = some e ∧ e ≤ V.start w ∧ (e = V.start w → V.content v ≠ V.content w)

/-- What a commit may do to a lawful history: it closes open versions only, and every new
version is open, starts now, is the only new one of its key, and replaces the open version
of its key, which has another content. -/
structure Allowed (h : List ν) (closing : ν → Bool) (t : τ) (new : List ν) : Prop where
  closing_open : ∀ v ∈ h, closing v = true → V.stop v = none
  new_start : ∀ v ∈ new, V.start v = t
  new_open : ∀ v ∈ new, V.stop v = none
  new_keys : (new.map V.key).Nodup
  replaces : ∀ v ∈ h, ∀ w ∈ new, V.key v = V.key w → V.stop v = none →
    closing v = true ∧ V.content v ≠ V.content w

omit [LinearOrder τ] in
theorem Allowed.of_subset {part : List ν} (ha : V.Allowed h closing t new) (hsub : part ⊆ h) :
    V.Allowed part closing t new where
  closing_open v hv := ha.closing_open v (hsub hv)
  new_start := ha.new_start
  new_open := ha.new_open
  new_keys := ha.new_keys
  replaces v hv := ha.replaces v (hsub hv)

theorem Lawful.nil (now : τ) : V.Lawful now [] :=
  ⟨nofun, nofun, nofun, List.Pairwise.nil⟩

theorem Lawful.mono (hl : V.Lawful now h) {later : τ} (hle : now ≤ later) :
    V.Lawful later h where
  start_le v hv := (hl.start_le v hv).trans hle
  start_lt_stop := hl.start_lt_stop
  stop_le v hv e he := (hl.stop_le v hv e he).trans hle
  before := hl.before

/-- **An allowed commit after every time so far keeps a history lawful.** -/
theorem Lawful.commit (hl : V.Lawful now h) (ha : V.Allowed h closing t new) (ht : now < t) :
    V.Lawful t (V.commit h closing t new) where
  start_le v hv := by
    rcases mem_commit.mp hv with ⟨w, hw, rfl⟩ | hv
    · rw [start_closeIf]
      exact (hl.start_le w hw).trans ht.le
    · exact (ha.new_start v hv).le
  start_lt_stop v hv e he := by
    rcases mem_commit.mp hv with ⟨w, hw, rfl⟩ | hv
    · rw [start_closeIf]
      rcases stop_closeIf_eq_some he with ⟨-, rfl⟩ | ⟨-, he⟩
      · exact (hl.start_le w hw).trans_lt ht
      · exact hl.start_lt_stop w hw e he
    · rw [ha.new_open v hv] at he
      cases he
  stop_le v hv e he := by
    rcases mem_commit.mp hv with ⟨w, hw, rfl⟩ | hv
    · rcases stop_closeIf_eq_some he with ⟨-, rfl⟩ | ⟨-, he⟩
      · exact le_rfl
      · exact (hl.stop_le w hw e he).trans ht.le
    · rw [ha.new_open v hv] at he
      cases he
  before := by
    refine List.pairwise_append.mpr ⟨?_, ?_, ?_⟩
    · -- two old versions: the earlier one was closed before, so the commit left it alone
      refine List.pairwise_map.mpr (hl.before.imp_of_mem fun {v w} hv hw hvw hkey => ?_)
      rw [key_closeIf, key_closeIf] at hkey
      obtain ⟨e, he, hle, hne⟩ := hvw hkey
      have hkept : closing v = false := by
        rcases hc : closing v with _ | _
        · rfl
        · rw [ha.closing_open v hv hc] at he
          cases he
      rw [closeIf_of_not hkept, start_closeIf, content_closeIf]
      exact ⟨e, he, hle, hne⟩
    · -- two new versions have different keys
      exact (List.pairwise_map.mp ha.new_keys).imp fun hne hkey => absurd hkey hne
    · -- an old version and a new one
      intro x hx w hw hkey
      obtain ⟨v, hv, rfl⟩ := List.mem_map.mp hx
      rw [key_closeIf] at hkey
      rw [ha.new_start w hw, content_closeIf]
      rcases hs : V.stop v with _ | e
      · obtain ⟨hc, hne⟩ := ha.replaces v hv w hw hkey hs
        rw [closeIf_of_closing hc]
        exact ⟨t, V.stop_close t v, le_rfl, fun _ => hne⟩
      · have hkept : closing v = false := by
          rcases hc : closing v with _ | _
          · rfl
          · rw [ha.closing_open v hv hc] at hs
            cases hs
        have hlt : e < t := (hl.stop_le v hv e hs).trans_lt ht
        rw [closeIf_of_not hkept]
        exact ⟨e, hs, hlt.le, fun he => absurd he hlt.ne⟩

theorem Lawful.interval_nonempty (hl : V.Lawful now h) (hv : v ∈ h) :
    (V.interval v).Nonempty := by
  rw [interval]
  rcases hs : V.stop v with _ | e
  · exact Set.nonempty_Ici
  · exact Set.nonempty_Ico.mpr (hl.start_lt_stop v hv e hs)

/-- **The versions of one key have disjoint intervals.** -/
theorem Lawful.pairwise_disjoint (hl : V.Lawful now h) :
    h.Pairwise fun v w => V.key v = V.key w → ∀ t ∈ V.interval v, t ∉ V.interval w := by
  refine hl.before.imp fun {v w} hvw hkey t htv htw => ?_
  obtain ⟨e, he, hle, -⟩ := hvw hkey
  unfold interval at htv htw
  rw [he] at htv
  have hw : V.start w ≤ t := by
    rcases hs : V.stop w with _ | f
    · rw [hs] at htw
      exact htw
    · rw [hs] at htw
      exact htw.1
  exact absurd (lt_of_lt_of_le htv.2 hle) (not_lt.mpr hw)

/-- At any time a reader sees at most one version of a key. -/
theorem Lawful.pairwise_seen (hl : V.Lawful now h) (t : τ) :
    (h.filter (V.seenAt t)).Pairwise fun v w => V.key v ≠ V.key w := by
  rw [List.pairwise_filter]
  refine hl.pairwise_disjoint.imp fun {v w} hd hv hw hkey => ?_
  exact hd hkey t (V.seenAt_iff.mp hv) (V.seenAt_iff.mp hw)

/-- A reader of the time when a version was written sees it. -/
theorem Lawful.seenAt_start (hl : V.Lawful now h) (hv : v ∈ h) :
    V.seenAt (V.start v) v = true := by
  rcases hs : V.stop v with _ | e
  · exact V.seenAt_of_open hs le_rfl
  · rw [V.seenAt_iff]
    rw [interval]
    rw [hs]
    exact ⟨le_rfl, hl.start_lt_stop v hv e hs⟩

/-- Two versions of one key that a reader sees are the same. -/
theorem Lawful.eq_of_seen (hl : V.Lawful now h) {t : τ} {w : ν} (hv : v ∈ h) (hw : w ∈ h)
    (hsv : V.seenAt t v = true) (hsw : V.seenAt t w = true) (hkey : V.key v = V.key w) :
    v = w := by
  have hnodup : ((h.filter (V.seenAt t)).map V.key).Nodup :=
    List.pairwise_map.mpr (hl.pairwise_seen t)
  exact List.inj_on_of_nodup_map hnodup (List.mem_filter.mpr ⟨hv, hsv⟩)
    (List.mem_filter.mpr ⟨hw, hsw⟩) hkey

/-- Two versions of one key that were written at one time are the same. -/
theorem Lawful.eq_of_start (hl : V.Lawful now h) {w : ν} (hv : v ∈ h) (hw : w ∈ h)
    (hstart : V.start v = V.start w) (hkey : V.key v = V.key w) : v = w :=
  hl.eq_of_seen hv hw (hstart ▸ hl.seenAt_start hv) (hl.seenAt_start hw) hkey

theorem Lawful.eq_of_open (hl : V.Lawful now h) {w : ν} (hv : v ∈ h) (hw : w ∈ h)
    (hov : V.stop v = none) (how : V.stop w = none) (hkey : V.key v = V.key w) : v = w :=
  hl.eq_of_seen hv hw (V.seenAt_of_open hov (hl.start_le v hv))
    (V.seenAt_of_open how (hl.start_le w hw)) hkey

/-- **Two versions of one key that meet have different contents.** -/
theorem Lawful.content_ne (hl : V.Lawful now h) {w : ν} (hv : v ∈ h) (hw : w ∈ h)
    (hkey : V.key v = V.key w) (hmeet : V.stop v = some (V.start w)) :
    V.content v ≠ V.content w := by
  obtain ⟨i, hi, rfl⟩ := List.getElem_of_mem hv
  obtain ⟨j, hj, rfl⟩ := List.getElem_of_mem hw
  have hlt := hl.start_lt_stop _ hv _ hmeet
  rcases Nat.lt_trichotomy i j with hij | hij | hij
  · obtain ⟨e, he, -, hne⟩ := List.pairwise_iff_getElem.mp hl.before i j hi hj hij hkey
    exact hne (Option.some.inj (he.symm.trans hmeet))
  · subst hij
    exact absurd hlt (lt_irrefl _)
  · -- the other order would put the end of the later row before the start of the earlier one
    obtain ⟨e, he, hle, -⟩ := List.pairwise_iff_getElem.mp hl.before j i hj hi hij hkey.symm
    exact absurd ((hl.start_lt_stop _ hw e he).trans_le hle) (not_lt.mpr hlt.le)

end Versioning
