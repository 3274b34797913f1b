import Mathlib.Data.List.Dedup
import Mathlib.Data.List.Sort
import Opsia.Lib.PyValue

/-!
# The three-way diff of managed fields

`domains/gitops/diffing.py`: what Git declared before, what the cluster shows and what Git
declares now, compared path by path. A field map is a dictionary from paths to decoded
values; `"<missing>"` stands for a value that is not there.

The classification asks whether the live value satisfies the declared ones. It never asks
whether the live value still has something that Git has dropped below a path
(`reports_truly_iff`).
-/

namespace Opsia.Gitops

/-- A dictionary from managed paths to values. -/
abbrev FieldMap : Type := List (String × PyValue)

/-- `MISSING`. -/
def missingText : String := "<missing>"

/-- `_value_or_missing`; no map is an empty one. -/
def valueOrMissing (values : Option FieldMap) (fieldPath : String) : PyValue :=
  ((values.getD []).lookup fieldPath).getD (.str missingText)

/-! ## Classification -/

/-- The classification of a change. -/
inductive Classification : Type where
  | noChange
  | alreadyConverged
  | intendedChange
  | drift
  | conflictOrManualChange
  | adoptionRequired
  deriving DecidableEq, Repr

def classifyFieldChange (oldDesired live newDesired : PyValue) : Classification :=
  if oldDesired.eq (.str missingText) then
    -- Git declared nothing here before
    if newDesired.covers live then .alreadyConverged else .adoptionRequired
  else
    let oldMatchesLive := oldDesired.covers live
    let newMatchesLive := newDesired.covers live
    let desiredUnchanged := oldDesired.eq newDesired
    -- keys that only the live value has are taken for defaults of the server
    if oldMatchesLive && newMatchesLive && desiredUnchanged then .noChange
    else if newMatchesLive then .alreadyConverged
    else if oldMatchesLive then .intendedChange
    else if desiredUnchanged then .drift
    else .conflictOrManualChange

/-- An entry of the list of changes; `before` and `after` repeat the live and the new
value. -/
structure FieldChange : Type where
  fieldPath : String
  classification : Classification
  oldDesired : PyValue
  live : PyValue
  newDesired : PyValue
  deriving Repr

namespace FieldChange

/-- `change["before"]`. -/
def before (change : FieldChange) : PyValue := change.live

/-- `change["after"]`. -/
def after (change : FieldChange) : PyValue := change.newDesired

end FieldChange

/-! ## Comparison -/

def applyFieldPolicy (fields : FieldMap) (managedFields : Option (List String))
    (ignoredFields : List String) : FieldMap :=
  fields.filter fun field =>
    (managedFields.all fun managed => decide (field.1 ∈ managed)) &&
      decide (field.1 ∉ ignoredFields)

/-- The paths of some maps, sorted and without repetition. -/
def sortedPaths (paths : List String) : List String :=
  paths.dedup.insertionSort fun a b => a ≤ b

/-- The change at one path. -/
def fieldChange (oldDesired : Option FieldMap) (live newDesired : FieldMap) (fieldPath : String) :
    FieldChange :=
  let oldValue := valueOrMissing oldDesired fieldPath
  let liveValue := valueOrMissing (some live) fieldPath
  let newValue := valueOrMissing (some newDesired) fieldPath
  ⟨fieldPath, classifyFieldChange oldValue liveValue newValue, oldValue, liveValue, newValue⟩

/-- The loop of `compare_managed_fields`, on maps that the policy has been applied to. -/
def comparedFields (oldDesired : Option FieldMap) (live newDesired : FieldMap) :
    List FieldChange :=
  ((sortedPaths ((oldDesired.getD []).map Prod.fst ++ live.map Prod.fst ++
    newDesired.map Prod.fst)).map (fieldChange oldDesired live newDesired)).filter
      fun change => change.classification ≠ .noChange

def compareManagedFields (oldDesired : Option FieldMap) (live newDesired : FieldMap)
    (managedFields : Option (List String)) (ignoredFields : List String) : List FieldChange :=
  comparedFields (oldDesired.map fun fields => applyFieldPolicy fields managedFields ignoredFields)
    (applyFieldPolicy live managedFields ignoredFields)
    (applyFieldPolicy newDesired managedFields ignoredFields)

/-- The status of a diff. -/
inductive DiffStatus : Type where
  | reviewRequired
  | adoptionRequired
  | intendedChange
  | drift
  | alreadyConverged
  | noChange
  deriving DecidableEq, Repr

def summarizeStatus (changes : List FieldChange) : DiffStatus :=
  let classes := changes.map fun change => change.classification
  if Classification.conflictOrManualChange ∈ classes then .reviewRequired
  else if Classification.adoptionRequired ∈ classes then .adoptionRequired
  else if Classification.intendedChange ∈ classes then .intendedChange
  else if Classification.drift ∈ classes then .drift
  else if Classification.alreadyConverged ∈ classes then .alreadyConverged
  else .noChange

def hasActionableChanges (changes : List FieldChange) : Bool :=
  changes.any fun change => change.classification ≠ .alreadyConverged

/-! ## What a report should say -/

/-- The live value at a path, if any, is what is declared there, if anything is. -/
def Satisfied : (declared live : Option PyValue) → Prop
  | none, live => live = none
  | some declared, some live => declared.covers live = true
  | some _, none => False

/-- The live value still has a nested key that the old declaration had and the new one has
dropped. -/
def CarriesDropped (old : PyValue) : (new live : Option PyValue) → Prop
  | some new, some live => old.carriesDropped new live = true
  | _, _ => False

/-- Applying the declared change would change nothing. -/
def Applied (old : PyValue) (new live : Option PyValue) : Prop :=
  Satisfied new live ∧ ¬ CarriesDropped old new live

/-- What a list of changes reports at a path. -/
def reported (changes : List FieldChange) (fieldPath : String) : Classification :=
  ((changes.find? fun change => change.fieldPath = fieldPath).map
    fun change => change.classification).getD .noChange

/-- The report calls something done. -/
def Classification.isDone : Classification → Bool
  | .noChange | .alreadyConverged => true
  | .intendedChange | .drift | .conflictOrManualChange | .adoptionRequired => false

/-- The status calls everything done. -/
def DiffStatus.isDone : DiffStatus → Bool
  | .noChange | .alreadyConverged => true
  | .reviewRequired | .adoptionRequired | .intendedChange | .drift => false

/-- **What the diff should report** of the paths that Git declared before: done only what
is applied, intended exactly what is not while the cluster is as declared before; and the
summaries call nothing done that is not. -/
structure ReportsTruly (old live new : FieldMap) (changes : List FieldChange) : Prop where
  done : ∀ path o, old.lookup path = some o → (reported changes path).isDone = true →
    Applied o (new.lookup path) (live.lookup path)
  intended : ∀ path o, old.lookup path = some o →
    (reported changes path = .intendedChange ↔
      ¬ Applied o (new.lookup path) (live.lookup path) ∧
        Satisfied (some o) (live.lookup path))
  status : (summarizeStatus changes).isDone = true → ∀ path o, old.lookup path = some o →
    Applied o (new.lookup path) (live.lookup path)
  actionable : hasActionableChanges changes = false → ∀ path o, old.lookup path = some o →
    Applied o (new.lookup path) (live.lookup path)

/-- When the report of a path is true: the live value does not satisfy the new one while it
still carries what was dropped, and the text that stands for a missing value is not mistaken
for one. -/
structure Readable (old : PyValue) (new live : Option PyValue) : Prop where
  removed : ¬ (Satisfied new live ∧ CarriesDropped old new live)
  newMissing : ¬ (new = some (.str missingText) ∧ live = none)
  liveMissing : ¬ (new = none ∧ live = some (.str missingText))
  oldMissing : old = .str missingText → live = some (.str missingText) →
    new = some (.str missingText)

/-! ## The classification of one path -/

theorem classifyFieldChange_isDone (old live new : PyValue) :
    (classifyFieldChange old live new).isDone = new.covers live := by
  simp only [classifyFieldChange]
  by_cases hmissing : old.eq (.str missingText) = true
  · rw [if_pos hmissing]
    rcases new.covers live with _ | _
    · rfl
    · rfl
  · rw [if_neg hmissing]
    rcases new.covers live with _ | _
    · rcases old.covers live with _ | _
      · rcases old.eq new with _ | _
        · rfl
        · rfl
      · rfl
    · rcases old.covers live with _ | _
      · rfl
      · rcases old.eq new with _ | _
        · rfl
        · rfl

theorem classifyFieldChange_intended_iff (old live new : PyValue) :
    classifyFieldChange old live new = .intendedChange ↔
      old ≠ .str missingText ∧ new.covers live = false ∧ old.covers live = true := by
  have hnot : old ≠ .str missingText ↔ ¬ old.eq (.str missingText) = true :=
    PyValue.eq_str_right_iff.not.symm
  rw [hnot, classifyFieldChange]
  by_cases hmissing : old.eq (.str missingText) = true
  · rw [if_pos hmissing]
    rcases new.covers live with _ | _
    · simp [hmissing]
    · simp
  · rw [if_neg hmissing]
    rcases new.covers live with _ | _
    · rcases old.covers live with _ | _
      · rcases old.eq new with _ | _
        · simp
        · simp
      · simp [hmissing]
    · rcases old.covers live with _ | _
      · simp
      · rcases old.eq new with _ | _
        · simp
        · simp

theorem covers_getD_iff {new live : Option PyValue}
    (hnew : ¬ (new = some (.str missingText) ∧ live = none))
    (hlive : ¬ (new = none ∧ live = some (.str missingText))) :
    (new.getD (.str missingText)).covers (live.getD (.str missingText)) = true ↔
      Satisfied new live := by
  rcases new with _ | n
  · rcases live with _ | l
    · exact iff_of_true (PyValue.covers_str_iff.mpr rfl) rfl
    · refine iff_of_false (fun h => hlive ⟨rfl, ?_⟩) nofun
      exact congrArg some (PyValue.covers_str_iff.mp h)
  · rcases live with _ | l
    · refine iff_of_false (fun h => hnew ⟨?_, rfl⟩) not_false
      exact congrArg some (PyValue.covers_str_right_iff.mp h)
    · exact Iff.rfl

/-- A path is reported truly: done only when applied, intended exactly when not applied
while the live value is the old one. -/
def PathTrue (old : PyValue) (new live : Option PyValue) : Prop :=
  ((classifyFieldChange old (live.getD (.str missingText)) (new.getD (.str missingText))).isDone =
      true → Applied old new live) ∧
    (classifyFieldChange old (live.getD (.str missingText)) (new.getD (.str missingText)) =
        .intendedChange ↔ ¬ Applied old new live ∧ Satisfied (some old) live)

/-- **A path is reported truly exactly when it is readable.** -/
theorem pathTrue_iff (old : PyValue) (new live : Option PyValue) :
    PathTrue old new live ↔ Readable old new live := by
  rw [PathTrue, classifyFieldChange_isDone, classifyFieldChange_intended_iff]
  constructor
  · rintro ⟨hdone, hintended⟩
    have hnew : ¬ (new = some (.str missingText) ∧ live = none) := by
      rintro ⟨rfl, rfl⟩
      exact (hdone (PyValue.covers_str_iff.mpr rfl)).1
    have hlive : ¬ (new = none ∧ live = some (.str missingText)) := by
      rintro ⟨rfl, rfl⟩
      cases (hdone (PyValue.covers_str_iff.mpr rfl)).1
    have hcovers := covers_getD_iff hnew hlive
    refine ⟨fun h => (hdone (hcovers.mpr h.1)).2 h.2, hnew, hlive, ?_⟩
    rintro rfl rfl
    -- the missing text as old and live value makes the new value look adopted, not intended
    by_contra hne
    have hunsatisfied : ¬ Satisfied new (some (.str missingText)) := by
      intro hsatisfied
      rcases new with _ | n
      · cases hsatisfied
      · exact hne (congrArg some (PyValue.covers_str_right_iff.mp hsatisfied))
    have hwork := hintended.mpr ⟨fun happlied => hunsatisfied happlied.1,
      PyValue.covers_str_iff.mpr rfl⟩
    exact hwork.1 rfl
  · rintro ⟨hremoved, hnew, hlive, hold⟩
    have hcovers := covers_getD_iff hnew hlive
    have happlied : Applied old new live ↔ Satisfied new live :=
      ⟨fun h => h.1, fun h => ⟨h, fun hcarries => hremoved ⟨h, hcarries⟩⟩⟩
    refine ⟨fun h => happlied.mpr (hcovers.mp h), ?_⟩
    rw [happlied, ← hcovers, Bool.not_eq_true]
    by_cases hmissing : old = .str missingText
    · subst hmissing
      refine iff_of_false (fun h => h.1 rfl) ?_
      rintro ⟨hunsatisfied, hsatisfied⟩
      rcases live with _ | l
      · exact hsatisfied
      · obtain rfl := PyValue.covers_str_iff.mp hsatisfied
        rw [hold rfl rfl] at hunsatisfied
        exact Bool.false_ne_true (hunsatisfied.symm.trans (PyValue.covers_str_iff.mpr rfl))
    · have hold : ¬ (some old = some (.str missingText) ∧ live = none) :=
        fun h => hmissing (Option.some.inj h.1)
      have hsame : old.covers (live.getD (.str missingText)) = true ↔
          Satisfied (some old) live := covers_getD_iff hold (fun h => Option.some_ne_none _ h.1)
      rw [← hsame]
      exact ⟨fun h => h.2, fun h => ⟨hmissing, h⟩⟩

/-! ## The list of changes -/

theorem find?_changes {change : String → FieldChange} (hpath : ∀ p, (change p).fieldPath = p)
    (keep : FieldChange → Bool) (paths : List String) (path : String) :
    ((paths.map change).filter keep).find? (fun c => c.fieldPath = path) =
      if path ∈ paths ∧ keep (change path) = true then some (change path) else none := by
  induction paths with
  | nil => rw [if_neg fun h => List.not_mem_nil h.1]; rfl
  | cons p paths ih =>
    rw [List.map_cons, List.filter_cons]
    by_cases hp : p = path
    · subst hp
      by_cases hkeep : keep (change p) = true
      · rw [if_pos hkeep, List.find?_cons_of_pos (by rw [hpath]; exact decide_eq_true rfl),
          if_pos ⟨List.mem_cons_self, hkeep⟩]
      · rw [if_neg hkeep, ih, if_neg fun h => hkeep h.2, if_neg fun h => hkeep h.2]
    · have hrest : (path ∈ p :: paths ∧ keep (change path) = true) ↔
          (path ∈ paths ∧ keep (change path) = true) :=
        and_congr_left fun _ => List.mem_cons.trans (or_iff_right (Ne.symm hp))
      simp only [hrest]
      rw [← ih]
      by_cases hkeep : keep (change p) = true
      · rw [if_pos hkeep, List.find?_cons_of_neg]
        rw [hpath]
        exact fun h => hp (of_decide_eq_true h)
      · rw [if_neg hkeep]

variable {changes : List FieldChange} {path : String}

theorem mem_sortedPaths {paths : List String} :
    path ∈ sortedPaths paths ↔ path ∈ paths := by
  rw [sortedPaths, List.mem_insertionSort, List.mem_dedup]

theorem mem_keys_of_lookup {fields : FieldMap} {value : PyValue}
    (h : fields.lookup path = some value) : path ∈ fields.map Prod.fst := by
  obtain ⟨l₁, l₂, rfl, -⟩ := List.lookup_eq_some_iff.mp h
  exact List.mem_map.mpr ⟨_, List.mem_append_right _ List.mem_cons_self, rfl⟩

theorem reported_comparedFields {oldDesired : Option FieldMap} {live newDesired : FieldMap}
    {o : PyValue} (hold : (oldDesired.getD []).lookup path = some o) :
    reported (comparedFields oldDesired live newDesired) path =
      classifyFieldChange o ((live.lookup path).getD (.str missingText))
        ((newDesired.lookup path).getD (.str missingText)) := by
  have hmem : path ∈ sortedPaths ((oldDesired.getD []).map Prod.fst ++ live.map Prod.fst ++
      newDesired.map Prod.fst) :=
    mem_sortedPaths.mpr
      (List.mem_append_left _ (List.mem_append_left _ (mem_keys_of_lookup hold)))
  have hclass : (fieldChange oldDesired live newDesired path).classification =
      classifyFieldChange o ((live.lookup path).getD (.str missingText))
        ((newDesired.lookup path).getD (.str missingText)) := by
    simp only [fieldChange, valueOrMissing, hold, Option.getD_some]
  rw [← hclass, reported, comparedFields, find?_changes (fun _ => rfl)]
  by_cases hchanged : (fieldChange oldDesired live newDesired path).classification = .noChange
  · have hdropped : ¬ (path ∈ sortedPaths ((oldDesired.getD []).map Prod.fst ++
        live.map Prod.fst ++ newDesired.map Prod.fst) ∧
        decide ((fieldChange oldDesired live newDesired path).classification ≠ .noChange) =
          true) := fun h => of_decide_eq_true h.2 hchanged
    rw [if_neg hdropped, hchanged]
    rfl
  · rw [if_pos ⟨hmem, decide_eq_true hchanged⟩]
    rfl

theorem reported_isDone_of_forall (h : ∀ change ∈ changes, change.classification.isDone = true)
    (path : String) :
    (reported changes path).isDone = true := by
  rcases hfound : changes.find? fun change => decide (change.fieldPath = path) with _ | change
  · rw [reported, hfound]
    rfl
  · rw [reported, hfound]
    exact h change (List.mem_of_find?_eq_some hfound)

theorem isDone_of_summarizeStatus (h : (summarizeStatus changes).isDone = true) :
    ∀ change ∈ changes, change.classification.isDone = true := by
  intro change hchange
  have hclass := List.mem_map_of_mem (f := fun change : FieldChange => change.classification)
    hchange
  simp only [summarizeStatus] at h
  split at h
  · cases h
  rename_i hconflict
  split at h
  · cases h
  rename_i hadoption
  split at h
  · cases h
  rename_i hintended
  split at h
  · cases h
  rename_i hdrift
  -- of the six classes the status excludes the four that are not done
  rcases hc : change.classification with _ | _ | _ | _ | _ | _
  · rfl
  · rfl
  · rw [hc] at hclass
    exact absurd hclass hintended
  · rw [hc] at hclass
    exact absurd hclass hdrift
  · rw [hc] at hclass
    exact absurd hclass hconflict
  · rw [hc] at hclass
    exact absurd hclass hadoption

theorem isDone_of_not_actionable (h : hasActionableChanges changes = false) :
    ∀ change ∈ changes, change.classification.isDone = true := by
  intro change hchange
  have hconverged := List.any_eq_false.mp h change hchange
  rw [of_not_not fun hne => hconverged (decide_eq_true hne)]
  rfl

/-- **When the diff reports truly**: exactly when every path that Git declared before is
readable. -/
theorem reports_truly_iff (oldDesired : Option FieldMap) (live newDesired : FieldMap)
    (managedFields : Option (List String)) (ignoredFields : List String) :
    ReportsTruly (applyFieldPolicy (oldDesired.getD []) managedFields ignoredFields)
        (applyFieldPolicy live managedFields ignoredFields)
        (applyFieldPolicy newDesired managedFields ignoredFields)
        (compareManagedFields oldDesired live newDesired managedFields ignoredFields) ↔
      ∀ path o,
        (applyFieldPolicy (oldDesired.getD []) managedFields ignoredFields).lookup path = some o →
          Readable o ((applyFieldPolicy newDesired managedFields ignoredFields).lookup path)
            ((applyFieldPolicy live managedFields ignoredFields).lookup path) := by
  have hgetD : (oldDesired.map fun fields =>
      applyFieldPolicy fields managedFields ignoredFields).getD [] =
        applyFieldPolicy (oldDesired.getD []) managedFields ignoredFields := by
    cases oldDesired with
    | none => rfl
    | some fields => rfl
  rw [compareManagedFields, ← hgetD]
  generalize oldDesired.map (fun fields => applyFieldPolicy fields managedFields ignoredFields) =
    old
  generalize applyFieldPolicy live managedFields ignoredFields = live
  generalize applyFieldPolicy newDesired managedFields ignoredFields = new
  constructor
  · intro h path o hold
    have hdone := h.done path o hold
    have hintended := h.intended path o hold
    rw [reported_comparedFields hold] at hdone hintended
    exact (pathTrue_iff o _ _).mp ⟨hdone, hintended⟩
  · intro h
    have hdone : ∀ path o, (old.getD []).lookup path = some o →
        (reported (comparedFields old live new) path).isDone = true →
          Applied o (new.lookup path) (live.lookup path) := by
      intro path o hold hreported
      rw [reported_comparedFields hold] at hreported
      exact ((pathTrue_iff o _ _).mpr (h path o hold)).1 hreported
    refine ⟨hdone, fun path o hold => ?_, fun hstatus path o hold => ?_,
      fun hactionable path o hold => ?_⟩
    · rw [reported_comparedFields hold]
      exact ((pathTrue_iff o _ _).mpr (h path o hold)).2
    · exact hdone path o hold
        (reported_isDone_of_forall (isDone_of_summarizeStatus hstatus) path)
    · exact hdone path o hold
        (reported_isDone_of_forall (isDone_of_not_actionable hactionable) path)

/-- **A removed nested key is reported as converged** while the cluster still has it. -/
theorem dropped_key_reported_converged :
    ¬ ReportsTruly [("data", .dict [("a", .str "1"), ("b", .str "2")])]
        [("data", .dict [("a", .str "1"), ("b", .str "2")])]
        [("data", .dict [("a", .str "1")])]
        (compareManagedFields (some [("data", .dict [("a", .str "1"), ("b", .str "2")])])
          [("data", .dict [("a", .str "1"), ("b", .str "2")])]
          [("data", .dict [("a", .str "1")])] none []) := by
  intro h
  exact (h.actionable (by decide) "data" _ rfl).2 rfl

end Opsia.Gitops
