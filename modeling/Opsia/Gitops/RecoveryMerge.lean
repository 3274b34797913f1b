import Opsia.Gitops.DesiredDiff
import Opsia.Gitops.SourcePath

/-!
# The scope of a merged recovery

`domains/gitops/recovery_merge.py` lets a diff through without another approval when it is
the change that was reviewed in the recovery pull request. What is let through besides the
approved scalars is let through on the classification of the diff, which does not see what
Git has dropped below a path (`authorises_iff`).
-/

namespace Opsia.Gitops

/-! ## The approved changes -/

/-- An entry of the approved changes. -/
structure ApprovedChange : Type where
  fieldPath : String
  current : PyValue
  desired : PyValue
  deriving Repr

variable (texts : PyTexts)

/-- `text`. -/
def textOf (value : PyValue) : String :=
  PyText.strip (if value.truthy then pyStr texts value else "")

/-- An item of `changes`, on top of those before it; `none` when it cannot be approved. -/
def approvedChange (approved : List ApprovedChange) (item : PyValue) : Option ApprovedChange :=
  item.dict?.bind fun fields =>
    let fieldPath := textOf texts ((fields.lookup "field_path").getD .none)
    let current := (fields.lookup "current_value").getD .none
    let desired := (fields.lookup "desired_value").getD .none
    if fieldPath = "" || approved.any (fun change => change.fieldPath = fieldPath) ||
        (fieldPathSegments fieldPath).isEmpty || !scalarValue current || !scalarValue desired ||
        sameScalar current desired then none
    else some ⟨fieldPath, current, desired⟩

/-- The loop of `approved_change_contract`. -/
def approvedChanges (approved : List ApprovedChange) : List PyValue → Option (List ApprovedChange)
  | [] => some approved
  | item :: items =>
    (approvedChange texts approved item).bind fun change =>
      approvedChanges (approved ++ [change]) items

/-- `payload["lifecycle"]["authorization"]`. -/
def authorizationOf (payload : PyFields) : PyFields :=
  mappingAt (mappingAt payload "lifecycle") "authorization"

def approvedChangeContract (payload : PyFields) : Option (List ApprovedChange) :=
  (((authorizationOf payload).lookup "changes").bind PyValue.list?).bind fun items =>
    if 1 ≤ items.length && items.length ≤ 4 then approvedChanges texts [] items else none

/-! ## One change of the diff -/

/-- The order in which a set of paths is gone through. -/
structure SetOrder : Type where
  order : List ApprovedChange → List ApprovedChange
  perm : ∀ changes, (order changes).Perm changes

/-- The body of the loop of `projected_parent_value`. -/
def projectChange (parentPath : String) (projected : PyValue) (change : ApprovedChange) :
    Option PyValue :=
  match relativePath parentPath change.fieldPath with
  | none => some projected
  | some relative =>
    let segments := segmentsOf relative
    if segments.isEmpty then none
    else
      (objectValueAt projected segments).bind fun found =>
        if sameScalar found change.current then setObjectValue projected segments change.desired
        else none

/-- `projected_parent_value`; `none` when it raises. -/
def projectedParentValue (source : PyValue) (parentPath : String)
    (approved : List ApprovedChange) : Option PyValue :=
  if source.dict?.isSome then approved.foldlM (projectChange parentPath) source else none

/-- The approved changes of a path and below it. -/
def approvedAt (approved : List ApprovedChange) (fieldPath : String) : List ApprovedChange :=
  approved.filter fun change =>
    change.fieldPath = fieldPath || (relativePath fieldPath change.fieldPath).isSome

variable (order : SetOrder)

/-- The values of a change are the approved ones. -/
def changeIsValid (change : FieldChange) (fieldPath : String) (matched : List ApprovedChange) :
    Bool :=
  match matched with
  | [only] =>
    if only.fieldPath = fieldPath then
      sameScalar change.oldDesired only.current &&
        sameScalar change.before
          (if change.classification = .intendedChange then only.current else only.desired) &&
        sameScalar change.after only.desired
    else parentIsValid change fieldPath [only]
  | matched => parentIsValid change fieldPath matched
where
  /-- The same for a parent of the approved paths. -/
  parentIsValid (change : FieldChange) (fieldPath : String) (matched : List ApprovedChange) :
      Bool :=
    if change.classification = .intendedChange then
      change.oldDesired.eq change.before &&
        (projectedParentValue change.before fieldPath (order.order matched)).any
          fun projected => projected.eq change.after
    else
      (projectedParentValue change.oldDesired fieldPath (order.order matched)).any
          (fun projected => projected.eq change.before) &&
        change.before.eq change.after

/-- `approved_change_matches_diff`: the approved changes that a change of the diff makes. -/
def approvedChangeMatchesDiff (change : FieldChange) (approved : List ApprovedChange) :
    Option (List ApprovedChange) :=
  let fieldPath := PyText.strip change.fieldPath
  let matched := approvedAt approved fieldPath
  if matched.isEmpty then
    if change.classification = .alreadyConverged then some [] else none
  else if change.classification ≠ .intendedChange && change.classification ≠ .alreadyConverged then
    none
  else if changeIsValid order change fieldPath matched then some matched
  else none

/-! ## The whole diff -/

/-- `text.partition("/")`, if there is a separator. -/
def partitionSlash (value : String) : Option (String × String) :=
  if '/' ∈ value.toList then
    some (String.ofList (value.toList.takeWhile (· ≠ '/')),
      String.ofList ((value.toList.dropWhile (· ≠ '/')).drop 1))
  else none

/-- The diff is about the approved resource. -/
def sameTarget (target : PyFields) (diff : DesiredDiff) : Bool :=
  let namespaceName := textOf texts ((target.lookup "namespace").getD .none)
  let resourceKind := textOf texts ((target.lookup "resource_kind").getD .none)
  let resourceName := textOf texts ((target.lookup "resource_name").getD .none)
  let metadata := mappingAt diff.desiredManifest "metadata"
  let manifestNamespace := textOf texts ((metadata.lookup "namespace").getD .none)
  namespaceName ≠ "" && resourceKind ≠ "" && resourceName ≠ "" &&
    diff.namespaceName = namespaceName &&
    (partitionSlash (PyText.strip diff.resource)).any (fun ref =>
      texts.casefold ref.1 = texts.casefold resourceKind && ref.2 = resourceName) &&
    texts.casefold (textOf texts ((diff.desiredManifest.lookup "kind").getD .none)) =
      texts.casefold resourceKind &&
    textOf texts ((metadata.lookup "name").getD .none) = resourceName &&
    (manifestNamespace = "" || manifestNamespace = namespaceName)

/-- The desired manifest has the approved values. -/
def manifestCarries (manifest : PyFields) (approved : List ApprovedChange) : Bool :=
  approved.all fun change =>
    (objectValueAt (.dict manifest) (fieldPathSegments change.fieldPath)).any
      fun found => sameScalar found change.desired

/-- The loop over the changes of a diff with changes. -/
def changesMatch (changes : List FieldChange) (approved : List ApprovedChange) : Bool :=
  (changes.all fun change => (approvedChangeMatchesDiff order change approved).isSome) &&
    (changes.any fun change => change.classification = .intendedChange &&
      !((approvedChangeMatchesDiff order change approved).getD []).isEmpty) &&
    approved.all fun wanted => changes.any fun change =>
      ((approvedChangeMatchesDiff order change approved).getD []).any
        fun matched => matched.fieldPath = wanted.fieldPath

def recoveryDiffMatchesApprovedScope (payload : PyFields) (diff : DesiredDiff) : Bool :=
  let target := mappingAt (authorizationOf payload) "target"
  match approvedChangeContract texts payload with
  | none => false
  | some approved =>
    if !sameTarget texts target diff || !manifestCarries diff.desiredManifest approved then false
    else if !diff.hasChanges then
      (diff.status = .alreadyConverged || diff.status = .noChange) &&
        diff.changes.all fun change => change.classification = .alreadyConverged
    else changesMatch order diff.changes approved

/-! ## What a merge should authorise -/

/-- Replace an approved scalar in the value of a path, of which it is all or a part. -/
def replaceScalar (path : String) (value : PyValue) (change : ApprovedChange) : Option PyValue :=
  if change.fieldPath = path then
    if value.eq change.current then some change.desired else none
  else
    (relativePath path change.fieldPath).bind fun relative =>
      (objectValueAt value (segmentsOf relative)).bind fun found =>
        if found.eq change.current then
          setObjectValue value (segmentsOf relative) change.desired
        else none

/-- The new value of a path is the old one with the approved scalars replaced, each from its
approved current value. -/
def ReplacedFrom (approved : List ApprovedChange) (path : String) (old new : PyValue) : Prop :=
  ∃ changes : List ApprovedChange, changes.Perm (approvedAt approved path) ∧
    ∃ value, changes.foldlM (replaceScalar path) old = some value ∧ value.eq new = true

/-- There is something to do at a path: the live value is not what is declared, or still
carries what was dropped. -/
def Unapplied (old new live : Option PyValue) : Prop :=
  ¬ Satisfied new live ∨ ∃ o, old = some o ∧ CarriesDropped o new live

/-- What is to do at a path was approved. -/
def AuthorisedAt (approved : List ApprovedChange) (path : String)
    (old new live : Option PyValue) : Prop :=
  Unapplied old new live →
    ∃ o n, old = some o ∧ new = some n ∧ ReplacedFrom approved (PyText.strip path) o n

/-- **What an accepted diff with changes should be**: all there is to do at managed paths was
approved, every approved path is one of a change, and the manifest has every approved
value. -/
structure Authorised (approved : List ApprovedChange) (old live new : FieldMap)
    (diff : DesiredDiff) :
    Prop where
  fields : ∀ path, old.lookup path ≠ none ∨ new.lookup path ≠ none →
    AuthorisedAt approved path (old.lookup path) (new.lookup path) (live.lookup path)
  covered : ∀ change ∈ approved, ∃ entry ∈ diff.changes,
    change ∈ approvedAt approved (PyText.strip entry.fieldPath)
  carried : ∀ change ∈ approved, ∃ value,
    objectValueAt (.dict diff.desiredManifest) (fieldPathSegments change.fieldPath) = some value ∧
      value.eq change.desired = true

/-- When the classification of a path lets nothing through: a value that the cluster still
has is still declared; and outside the approved paths the live value does not satisfy the
new one while it still carries what was dropped, and a new value that is not there yet is
not the text for a missing one. -/
structure Seen (approved : List ApprovedChange) (path : String)
    (old new live : Option PyValue) : Prop where
  kept : old ≠ none → live ≠ none → new ≠ none
  dropped : approvedAt approved (PyText.strip path) = [] → ∀ o, old = some o →
    ¬ (Satisfied new live ∧ CarriesDropped o new live)
  missing : approvedAt approved (PyText.strip path) = [] → new = some (.str missingText) →
    live = none → old = some (.str missingText)

/-! ## The contract -/

/-- An approved change. -/
structure ApprovedChange.Valid (change : ApprovedChange) : Prop where
  segments : fieldPathSegments change.fieldPath ≠ []
  current : change.current.isScalar = true
  desired : change.desired.isScalar = true
  changed : sameScalar change.current change.desired = false

variable {texts order}

variable {approved : List ApprovedChange}

theorem valid_of_approvedChange {item : PyValue} {change : ApprovedChange}
    (h : approvedChange texts approved item = some change) :
    change.Valid ∧ ∀ other ∈ approved, other.fieldPath ≠ change.fieldPath := by
  obtain ⟨fields, -, h⟩ := Option.bind_eq_some_iff.mp h
  dsimp only at h
  split at h
  · cases h
  · rename_i hvalid
    obtain rfl := Option.some.inj h
    simp only [Bool.or_eq_true, not_or, Bool.not_eq_true, Bool.not_eq_false',
      List.any_eq_false, decide_eq_true_eq, scalarValue] at hvalid
    obtain ⟨⟨⟨⟨⟨-, hfresh⟩, hsegments⟩, hcurrent⟩, hdesired⟩, hchanged⟩ := hvalid
    refine ⟨⟨fun hnil => ?_, hcurrent, hdesired, hchanged⟩, hfresh⟩
    dsimp only at hnil
    rw [hnil] at hsegments
    cases hsegments

theorem valid_of_approvedChanges {approved' : List ApprovedChange} {items : List PyValue}
    (h : approvedChanges texts approved items = some approved')
    (hvalid : ∀ change ∈ approved, change.Valid)
    (hnodup : (approved.map ApprovedChange.fieldPath).Nodup) :
    (∀ change ∈ approved', change.Valid) ∧ (approved'.map ApprovedChange.fieldPath).Nodup := by
  induction items generalizing approved with
  | nil =>
    obtain rfl := Option.some.inj h
    exact ⟨hvalid, hnodup⟩
  | cons item items ih =>
    obtain ⟨change, hchange, h⟩ := Option.bind_eq_some_iff.mp h
    obtain ⟨hnew, hfresh⟩ := valid_of_approvedChange hchange
    refine ih h (fun other hother => ?_) ?_
    · rcases List.mem_append.mp hother with hother | hother
      · exact hvalid other hother
      · rw [List.mem_singleton.mp hother]
        exact hnew
    · rw [List.map_append, List.nodup_append]
      refine ⟨hnodup, by simp, fun path hpath path' hpath' heq => ?_⟩
      obtain ⟨other, hother, rfl⟩ := List.mem_map.mp hpath
      refine hfresh other hother (heq.trans ?_)
      simpa using hpath'

/-- **The approved changes** are valid, and of different paths. -/
theorem valid_of_contract {payload : PyFields}
    (h : approvedChangeContract texts payload = some approved) :
    (∀ change ∈ approved, change.Valid) ∧ (approved.map ApprovedChange.fieldPath).Nodup := by
  obtain ⟨items, -, h⟩ := Option.bind_eq_some_iff.mp h
  split at h
  · exact valid_of_approvedChanges h (fun _ hchange => absurd hchange List.not_mem_nil)
      List.nodup_nil
  · cases h

/-! ## Replacing scalars -/

section Replace

variable {path : String} {change : ApprovedChange} {x y z : PyValue}

theorem replaceScalar_of_projectChange (hne : change.fieldPath ≠ path)
    (hunder : (relativePath path change.fieldPath).isSome = true)
    (h : projectChange path x change = some z) : replaceScalar path x change = some z := by
  obtain ⟨relative, hrelative⟩ := Option.isSome_iff_exists.mp hunder
  rw [projectChange, hrelative] at h
  rw [replaceScalar, if_neg hne, hrelative, Option.bind_some]
  dsimp only at h
  split at h
  · cases h
  · obtain ⟨found, hfound, h⟩ := Option.bind_eq_some_iff.mp h
    rw [hfound, Option.bind_some]
    split at h
    · rename_i hsame
      rw [if_pos (sameScalar_iff.mp hsame).2]
      exact h
    · cases h

theorem replaceScalar_of_wellEq (hchange : change.Valid) (hxy : WellEq x y)
    (h : replaceScalar path y change = some z) :
    ∃ w, replaceScalar path x change = some w ∧ WellEq w z := by
  have hdesired : WellEq change.desired change.desired :=
    ⟨PyValue.wellKeyed_of_isScalar hchange.desired, PyValue.eq_self_of_isScalar hchange.desired⟩
  rw [replaceScalar] at h ⊢
  by_cases hpath : change.fieldPath = path
  · rw [if_pos hpath] at h ⊢
    split at h
    · rename_i hcurrent
      obtain rfl := Option.some.inj h
      exact ⟨_, if_pos (PyValue.eq_trans hxy.eq hcurrent), hdesired⟩
    · cases h
  · rw [if_neg hpath] at h ⊢
    obtain ⟨relative, hrelative, h⟩ := Option.bind_eq_some_iff.mp h
    obtain ⟨found, hfound, h⟩ := Option.bind_eq_some_iff.mp h
    split at h
    · rename_i hcurrent
      obtain ⟨mine, hmine, heq⟩ := objectValueAt_of_wellEq hxy hfound
      obtain ⟨w, hw, hwz⟩ := setObjectValue_of_wellEq hxy hchange.desired h
      refine ⟨w, ?_, hwz⟩
      rw [hrelative, Option.bind_some, hmine, Option.bind_some,
        if_pos (PyValue.eq_trans heq.eq hcurrent)]
      exact hw
    · cases h

variable {changes : List ApprovedChange}

theorem foldlM_replaceScalar_of_project
    (hunder : ∀ change ∈ changes, change.fieldPath ≠ path ∧
      (relativePath path change.fieldPath).isSome = true)
    (h : changes.foldlM (projectChange path) x = some z) :
    changes.foldlM (replaceScalar path) x = some z := by
  induction changes generalizing x with
  | nil => exact h
  | cons change changes ih =>
    obtain ⟨hchange, hrest⟩ := List.forall_mem_cons.mp hunder
    rw [List.foldlM_cons] at h ⊢
    obtain ⟨y, hy, h⟩ := Option.bind_eq_some_iff.mp h
    exact Option.bind_eq_some_iff.mpr
      ⟨y, replaceScalar_of_projectChange hchange.1 hchange.2 hy, ih hrest h⟩

theorem foldlM_replaceScalar_of_wellEq (hvalid : ∀ change ∈ changes, change.Valid)
    (hxy : WellEq x y) (h : changes.foldlM (replaceScalar path) y = some z) :
    ∃ w, changes.foldlM (replaceScalar path) x = some w ∧ WellEq w z := by
  induction changes generalizing x y with
  | nil =>
    obtain rfl := Option.some.inj h
    exact ⟨x, rfl, hxy⟩
  | cons change changes ih =>
    obtain ⟨hchange, hrest⟩ := List.forall_mem_cons.mp hvalid
    rw [List.foldlM_cons] at h
    obtain ⟨y', hy', h⟩ := Option.bind_eq_some_iff.mp h
    obtain ⟨x', hx', hxy'⟩ := replaceScalar_of_wellEq hchange hxy hy'
    obtain ⟨w, hw, hwz⟩ := ih hrest hxy' h
    refine ⟨w, ?_, hwz⟩
    rw [List.foldlM_cons]
    exact Option.bind_eq_some_iff.mpr ⟨x', hx', hw⟩

end Replace

/-! ## One path -/

section Path

variable {approved : List ApprovedChange} {path : String} {old new live : Option PyValue}

theorem eq_of_replacedFrom {o n : PyValue} (hnone : approvedAt approved path = [])
    (h : ReplacedFrom approved path o n) : o.eq n = true := by
  obtain ⟨changes, hperm, value, hvalue, heq⟩ := h
  rw [hnone, List.perm_nil] at hperm
  subst hperm
  obtain rfl := Option.some.inj hvalue
  exact heq

theorem replacedFrom_of_eq {o n : PyValue} (hnone : approvedAt approved path = [])
    (h : o.eq n = true) : ReplacedFrom approved path o n :=
  ⟨[], by rw [hnone], o, rfl, h⟩

theorem seen_of_authorisedAt (h : AuthorisedAt approved path old new live) :
    Seen approved path old new live where
  kept := by
    rintro - hlive rfl
    obtain ⟨l, rfl⟩ := Option.ne_none_iff_exists'.mp hlive
    obtain ⟨-, n, -, hn, -⟩ := h (Or.inl fun hsatisfied => by cases hsatisfied)
    cases hn
  dropped := by
    rintro hnone o rfl ⟨-, hdropped⟩
    obtain ⟨o', n, ho, rfl, hreplaced⟩ := h (Or.inr ⟨o, rfl, hdropped⟩)
    obtain rfl := Option.some.inj ho
    rcases live with _ | l
    · exact hdropped
    · exact Bool.false_ne_true ((PyValue.carriesDropped_of_eq
        (eq_of_replacedFrom hnone hreplaced) l).symm.trans hdropped)
  missing := by
    rintro hnone rfl rfl
    obtain ⟨o, n, rfl, hn, hreplaced⟩ := h (Or.inl fun hsatisfied => hsatisfied)
    obtain rfl := Option.some.inj hn
    exact congrArg some (PyValue.eq_str_right_iff.mp (eq_of_replacedFrom hnone hreplaced))

theorem not_unapplied_of_noChange
    (h : classifyFieldChange (old.getD (.str missingText)) (live.getD (.str missingText))
      (new.getD (.str missingText)) = .noChange) : ¬ Unapplied old new live := by
  have hcovers := classifyFieldChange_isDone (old.getD (.str missingText))
    (live.getD (.str missingText)) (new.getD (.str missingText))
  rw [h] at hcovers
  have hold : ¬ (old.getD (.str missingText)).eq (.str missingText) = true := by
    intro hmissing
    rw [classifyFieldChange, if_pos hmissing] at h
    split at h
    · cases h
    · cases h
  have hsame : (old.getD (.str missingText)).eq (new.getD (.str missingText)) = true := by
    rw [classifyFieldChange, if_neg hold] at h
    dsimp only at h
    split at h
    · rename_i hall
      exact (Bool.and_eq_true_iff.mp hall).2
    · split at h
      · cases h
      · split at h
        · cases h
        · split at h
          · cases h
          · cases h
  rcases old with _ | o
  · exact absurd (PyValue.eq_str_iff.mpr rfl) hold
  rcases new with _ | n
  · exact absurd hsame hold
  have hnew : n ≠ .str missingText := by
    rintro rfl
    exact hold hsame
  rcases live with _ | l
  · exact absurd (PyValue.covers_str_right_iff.mp hcovers.symm) hnew
  · rintro (hunsatisfied | ⟨o', ho, hdropped⟩)
    · exact hunsatisfied hcovers.symm
    · obtain rfl := Option.some.inj ho
      exact Bool.false_ne_true ((PyValue.carriesDropped_of_eq hsame l).symm.trans hdropped)

theorem authorisedAt_of_converged (hseen : Seen approved path old new live)
    (hdeclared : old ≠ none ∨ new ≠ none)
    (hnone : approvedAt approved (PyText.strip path) = [])
    (hcovers : (new.getD (.str missingText)).covers (live.getD (.str missingText)) = true) :
    AuthorisedAt approved path old new live := by
  intro hunapplied
  rcases new with _ | n
  · have hold := hdeclared.resolve_right fun h => h rfl
    rcases live with _ | l
    · rcases hunapplied with hunsatisfied | ⟨o, -, hdropped⟩
      · exact absurd rfl hunsatisfied
      · exact hdropped.elim
    · exact absurd rfl (hseen.kept hold (Option.some_ne_none l))
  · rcases live with _ | l
    · obtain rfl := PyValue.covers_str_right_iff.mp hcovers
      have hold := hseen.missing hnone rfl rfl
      exact ⟨_, _, hold, rfl, replacedFrom_of_eq hnone (PyValue.eq_str_iff.mpr rfl)⟩
    · rcases hunapplied with hunsatisfied | ⟨o, rfl, hdropped⟩
      · exact absurd hcovers hunsatisfied
      · exact absurd ⟨hcovers, hdropped⟩ (hseen.dropped hnone o rfl)

/-- A value that is no longer declared, and that the cluster does not have, is applied. -/
theorem not_unapplied_of_none (hseen : Seen approved path old none live) (hold : old ≠ none) :
    ¬ Unapplied old none live := by
  have hlive : live = none := by
    by_contra hlive
    exact hseen.kept hold hlive rfl
  subst hlive
  rintro (hunsatisfied | ⟨o, -, hdropped⟩)
  · exact hunsatisfied rfl
  · exact hdropped

theorem authorisedAt_of_exact (hseen : Seen approved path old new live)
    (hdeclared : old ≠ none ∨ new ≠ none) {only : ApprovedChange} (hvalid : only.Valid)
    (hmatched : approvedAt approved (PyText.strip path) = [only])
    (hpath : only.fieldPath = PyText.strip path)
    (hold : sameScalar (old.getD (.str missingText)) only.current = true)
    (hnew : sameScalar (new.getD (.str missingText)) only.desired = true)
    (hmissing : old = none → sameScalar (live.getD (.str missingText)) only.desired = true ∧
      (new.getD (.str missingText)).covers (live.getD (.str missingText)) = true) :
    AuthorisedAt approved path old new live := by
  intro hunapplied
  rcases old with _ | o
  · obtain ⟨n, rfl⟩ := Option.ne_none_iff_exists'.mp (hdeclared.resolve_left fun h => h rfl)
    obtain ⟨hlive, hcovers⟩ := hmissing rfl
    rcases live with _ | l
    · have hcurrent := PyValue.eq_str_iff.mp (sameScalar_iff.mp hold).2
      have hdesired := PyValue.eq_str_iff.mp (sameScalar_iff.mp hlive).2
      have hchanged := hvalid.changed
      rw [hcurrent, hdesired] at hchanged
      exact absurd (sameScalar_iff.mpr ⟨rfl, PyValue.eq_str_iff.mpr rfl⟩)
        (Bool.not_eq_true _ ▸ hchanged)
    · rcases hunapplied with hunsatisfied | ⟨o, ho, -⟩
      · exact absurd hcovers hunsatisfied
      · cases ho
  · rcases new with _ | n
    · exact absurd hunapplied (not_unapplied_of_none hseen (Option.some_ne_none o))
    · refine ⟨o, n, rfl, rfl, [only], by rw [hmatched], only.desired, ?_, ?_⟩
      · have hreplace : replaceScalar (PyText.strip path) o only = some only.desired := by
          rw [replaceScalar, if_pos hpath]
          exact if_pos (sameScalar_iff.mp hold).2
        exact Option.bind_eq_some_iff.mpr ⟨only.desired, hreplace, rfl⟩
      · exact PyValue.eq_symm_of_isScalar hvalid.desired (sameScalar_iff.mp hnew).2

theorem authorisedAt_of_parent (hseen : Seen approved path old new live)
    (hwell : ∀ o, old = some o → o.WellKeyed) (hvalid : ∀ change ∈ approved, change.Valid)
    (hunder : ∀ change ∈ approvedAt approved (PyText.strip path),
      change.fieldPath ≠ PyText.strip path) (order : SetOrder) {source value : PyValue}
    (hproject : projectedParentValue source (PyText.strip path)
      (order.order (approvedAt approved (PyText.strip path))) = some value)
    (heq : value.eq (new.getD (.str missingText)) = true)
    (hsource : source = old.getD (.str missingText) ∨
      old ≠ none ∧ (old.getD (.str missingText)).eq source = true) :
    AuthorisedAt approved path old new live := by
  intro hunapplied
  have hperm := order.perm (approvedAt approved (PyText.strip path))
  rw [projectedParentValue] at hproject
  split at hproject
  · rename_i hdict
    have hreplace := foldlM_replaceScalar_of_project (fun change hchange => by
      have hmem := hperm.mem_iff.mp hchange
      refine ⟨hunder change hmem, ?_⟩
      rcases Bool.or_eq_true_iff.mp (List.mem_filter.mp hmem).2 with h | h
      · exact absurd (of_decide_eq_true h) (hunder change hmem)
      · exact h) hproject
    obtain ⟨o, rfl⟩ : ∃ o, old = some o := by
      rcases hsource with rfl | ⟨hold, -⟩
      · rcases old with _ | o
        · cases hdict
        · exact ⟨o, rfl⟩
      · exact Option.ne_none_iff_exists'.mp hold
    rcases new with _ | n
    · exact absurd hunapplied (not_unapplied_of_none hseen (Option.some_ne_none o))
    · refine ⟨o, n, rfl, rfl, _, hperm, ?_⟩
      rcases hsource with rfl | ⟨-, hsame⟩
      · exact ⟨value, hreplace, heq⟩
      · obtain ⟨w, hw, hwv⟩ := foldlM_replaceScalar_of_wellEq
          (fun change hchange => hvalid change (List.mem_filter.mp (hperm.mem_iff.mp hchange)).1)
          ⟨hwell o rfl, hsame⟩ hreplace
        exact ⟨w, hw, PyValue.eq_trans hwv.eq heq⟩
  · cases hproject

theorem changeIsValid_cases {change : FieldChange} {fieldPath : String}
    {matched : List ApprovedChange} (h : changeIsValid order change fieldPath matched = true) :
    (∃ only, matched = [only] ∧ only.fieldPath = fieldPath ∧
      sameScalar change.oldDesired only.current = true ∧
      sameScalar change.live (if change.classification = .intendedChange then only.current
        else only.desired) = true ∧ sameScalar change.newDesired only.desired = true) ∨
    (∀ only, matched = [only] → only.fieldPath ≠ fieldPath) ∧
      changeIsValid.parentIsValid order change fieldPath matched = true := by
  rcases matched with _ | ⟨only, _ | ⟨second, rest⟩⟩
  · exact Or.inr ⟨fun only honly => (by cases honly), h⟩
  · rw [changeIsValid] at h
    split at h
    · rename_i hpath
      obtain ⟨hfirst, hnew⟩ := Bool.and_eq_true_iff.mp h
      obtain ⟨hold, hlive⟩ := Bool.and_eq_true_iff.mp hfirst
      exact Or.inl ⟨only, rfl, hpath, hold, hlive, hnew⟩
    · rename_i hpath
      refine Or.inr ⟨fun other hother => ?_, h⟩
      obtain rfl := List.singleton_inj.mp hother
      exact hpath
  · exact Or.inr ⟨fun only honly => (by cases honly), h⟩

theorem approvedAt_eq_singleton {fieldPath : String}
    (hnodup : (approved.map ApprovedChange.fieldPath).Nodup) {only : ApprovedChange}
    (honly : only ∈ approvedAt approved fieldPath) (hpath : only.fieldPath = fieldPath)
    (hbelow : ∀ below ∈ approved, relativePath fieldPath below.fieldPath = none) :
    approvedAt approved fieldPath = [only] := by
  have hsame : ∀ other ∈ approvedAt approved fieldPath, other = only := by
    intro other hother
    obtain ⟨hmem, hat⟩ := List.mem_filter.mp hother
    rcases Bool.or_eq_true_iff.mp hat with h | h
    · exact List.inj_on_of_nodup_map hnodup hmem (List.mem_filter.mp honly).1
        ((of_decide_eq_true h).trans hpath.symm)
    · rw [hbelow other hmem] at h
      cases h
  have hnodupAt : (approvedAt approved fieldPath).Nodup := (List.Nodup.of_map _ hnodup).filter _
  generalize approvedAt approved fieldPath = matched at honly hsame hnodupAt
  rcases matched with _ | ⟨first, _ | ⟨second, rest⟩⟩
  · cases honly
  · rw [hsame first List.mem_cons_self]
  · have hfirst := hsame first List.mem_cons_self
    have hsecond := hsame second (List.mem_cons_of_mem _ List.mem_cons_self)
    rw [hfirst, hsecond, List.nodup_cons] at hnodupAt
    exact absurd List.mem_cons_self hnodupAt.1

/-- **A path whose change is let through.** -/
theorem authorisedAt_of_accepted (hseen : Seen approved path old new live)
    (hdeclared : old ≠ none ∨ new ≠ none) (hwell : ∀ o, old = some o → o.WellKeyed)
    (hvalid : ∀ change ∈ approved, change.Valid)
    (hnodup : (approved.map ApprovedChange.fieldPath).Nodup)
    (hapart : ∀ change ∈ approved, ∀ below ∈ approved, change.fieldPath = PyText.strip path →
      relativePath (PyText.strip path) below.fieldPath = none) {change : FieldChange}
    (hchange : change = ⟨path, classifyFieldChange (old.getD (.str missingText))
      (live.getD (.str missingText)) (new.getD (.str missingText)), old.getD (.str missingText),
      live.getD (.str missingText), new.getD (.str missingText)⟩)
    (haccept : (approvedChangeMatchesDiff order change approved).isSome = true) :
    AuthorisedAt approved path old new live := by
  have hcovers := classifyFieldChange_isDone (old.getD (.str missingText))
    (live.getD (.str missingText)) (new.getD (.str missingText))
  have hintended := (classifyFieldChange_intended_iff (old.getD (.str missingText))
    (live.getD (.str missingText)) (new.getD (.str missingText))).mp
  generalize hclass : classifyFieldChange (old.getD (.str missingText))
    (live.getD (.str missingText)) (new.getD (.str missingText)) = classification at *
  subst hchange
  rw [approvedChangeMatchesDiff] at haccept
  dsimp only at haccept
  split at haccept
  · rename_i hnone
    rw [List.isEmpty_iff] at hnone
    split at haccept
    · rename_i hconverged
      rw [hconverged] at hcovers
      exact authorisedAt_of_converged hseen hdeclared hnone hcovers.symm
    · cases haccept
  · rename_i hsome
    split at haccept
    · cases haccept
    · rename_i hkind
      split at haccept
      · rename_i hok
        rcases changeIsValid_cases hok with ⟨only, hmatched, hpath, hold, hlive, hnew⟩ | ⟨hnot, hok⟩
        · have hmem : only ∈ approvedAt approved (PyText.strip path) := by
            rw [hmatched]
            exact List.mem_cons_self
          refine authorisedAt_of_exact hseen hdeclared
            (hvalid only (List.mem_filter.mp hmem).1) hmatched hpath hold hnew ?_
          rintro rfl
          by_cases hint : classification = .intendedChange
          · exact absurd rfl (hintended hint).1
          · rw [if_neg hint] at hlive
            have hconverged : classification = .alreadyConverged := by
              by_contra hne
              exact hkind (by rw [Bool.and_eq_true]; exact ⟨decide_eq_true hint,
                decide_eq_true hne⟩)
            rw [hconverged] at hcovers
            exact ⟨hlive, hcovers.symm⟩
        · -- the path is not approved itself, since the manifest cannot have both
          have hunder : ∀ change ∈ approvedAt approved (PyText.strip path),
              change.fieldPath ≠ PyText.strip path := by
            intro only honly hpath
            exact hnot only (approvedAt_eq_singleton hnodup honly hpath fun below hbelow =>
              hapart only (List.mem_filter.mp honly).1 below hbelow hpath) hpath
          rw [changeIsValid.parentIsValid] at hok
          split at hok
          · rename_i hint
            obtain ⟨hsame, hproject⟩ := Bool.and_eq_true_iff.mp hok
            obtain ⟨value, hvalue, heq⟩ := (Option.any_eq_true _ _).mp hproject
            refine authorisedAt_of_parent hseen hwell hvalid hunder order hvalue heq
              (Or.inr ⟨?_, hsame⟩)
            rintro rfl
            exact (hintended hint).1 rfl
          · obtain ⟨hproject, hsame⟩ := Bool.and_eq_true_iff.mp hok
            obtain ⟨value, hvalue, heq⟩ := (Option.any_eq_true _ _).mp hproject
            exact authorisedAt_of_parent hseen hwell hvalid hunder order hvalue
              (PyValue.eq_trans heq hsame) (Or.inl rfl)
      · cases haccept

end Path

/-! ## The whole diff -/

theorem relativePath_of_carries {manifest : PyFields} (hvalid : ∀ change ∈ approved, change.Valid)
    (hcarries : manifestCarries manifest approved = true) {change below : ApprovedChange}
    (hchange : change ∈ approved) (hbelow : below ∈ approved) :
    relativePath change.fieldPath below.fieldPath = none := by
  rcases hrelative : relativePath change.fieldPath below.fieldPath with _ | relative
  · rfl
  · have hfound : ∀ c ∈ approved, ∃ value,
        objectValueAt (.dict manifest) (fieldPathSegments c.fieldPath) = some value ∧
          sameScalar value c.desired = true :=
      fun c hc => (Option.any_eq_true _ _).mp (List.all_eq_true.mp hcarries c hc)
    obtain ⟨value, hvalue, hsame⟩ := hfound change hchange
    obtain ⟨value', hvalue', -⟩ := hfound below hbelow
    have hsegments := (hvalid below hbelow).segments
    rw [fieldPathSegments, toList_of_relativePath hrelative] at hvalue' hsegments
    have hafter := segmentsOf_after_ne_nil (hvalid change hchange).segments hsegments
    rw [segmentsOf_append (hvalid change hchange).segments hafter, objectValueAt_append] at hvalue'
    rw [fieldPathSegments] at hvalue
    have hscalar := isScalar_of_sameScalar (hvalid change hchange).desired hsame
    rw [hvalue, Option.bind_some, objectValueAt_of_isScalar hscalar hafter] at hvalue'
    cases hvalue'

/-- The part of some fields that is managed. -/
def FieldPolicy.managedPart (policy : FieldPolicy) (fields : FieldMap) : FieldMap :=
  applyFieldPolicy fields (some policy.managedFields) policy.ignoredFields

theorem mem_of_lookup_managedPart {policy : FieldPolicy} {fields : FieldMap} {path : String}
    {value : PyValue} (h : (policy.managedPart fields).lookup path = some value) :
    (path, value) ∈ fields :=
  (List.mem_filter.mp (PyValue.mem_of_lookup h)).1

theorem mem_comparedFields {old live new : FieldMap} {path : String}
    (hdeclared : old.lookup path ≠ none ∨ new.lookup path ≠ none)
    (hclass : (fieldChange (some old) live new path).classification ≠ .noChange) :
    fieldChange (some old) live new path ∈ comparedFields (some old) live new := by
  refine List.mem_filter.mpr ⟨List.mem_map_of_mem (mem_sortedPaths.mpr ?_),
    decide_eq_true hclass⟩
  rcases hdeclared with h | h
  · obtain ⟨value, hvalue⟩ := Option.ne_none_iff_exists'.mp h
    exact List.mem_append_left _ (List.mem_append_left _ (mem_keys_of_lookup hvalue))
  · obtain ⟨value, hvalue⟩ := Option.ne_none_iff_exists'.mp h
    exact List.mem_append_right _ (mem_keys_of_lookup hvalue)

theorem not_intended_of_live_nil {old : Option FieldMap} {new : FieldMap} {change : FieldChange}
    (h : change ∈ comparedFields old [] new) : change.classification ≠ .intendedChange := by
  obtain ⟨path, -, rfl⟩ := List.mem_map.mp (List.mem_filter.mp h).1
  intro hintended
  obtain ⟨hold, -, hcovers⟩ := (classifyFieldChange_intended_iff _ _ _).mp hintended
  exact hold (PyValue.covers_str_right_iff.mp hcovers)

theorem checks_of_accepted {payload : PyFields} {diff : DesiredDiff}
    (hcontract : approvedChangeContract texts payload = some approved)
    (haccept : recoveryDiffMatchesApprovedScope texts order payload diff = true)
    (hchanges : diff.hasChanges = true) :
    manifestCarries diff.desiredManifest approved = true ∧
      changesMatch order diff.changes approved = true := by
  rw [recoveryDiffMatchesApprovedScope, hcontract] at haccept
  dsimp only at haccept
  split at haccept
  · cases haccept
  · rename_i hchecked
    rw [hchanges] at haccept
    simp only [Bool.or_eq_true, Bool.not_eq_true', not_or, Bool.not_eq_false] at hchecked
    exact ⟨hchecked.2, haccept⟩

theorem comparedFields_subset {oldDesired live newDesired : ManagedFieldSnapshot}
    {policy : FieldPolicy} (hlive : live.source = .inventoryResourceMissing → live.fields = [])
    (hintended : ∃ change ∈ desiredChanges oldDesired live newDesired policy,
      change.classification = .intendedChange) :
    comparedFields (some (policy.managedPart oldDesired.fields))
      (policy.managedPart live.fields) (policy.managedPart newDesired.fields) ⊆
        desiredChanges oldDesired live newDesired policy := by
  have hcompare : compareManagedFields (some oldDesired.fields) live.fields newDesired.fields
      (some policy.managedFields) policy.ignoredFields =
      comparedFields (some (policy.managedPart oldDesired.fields))
        (policy.managedPart live.fields) (policy.managedPart newDesired.fields) := rfl
  obtain ⟨change, hchange, hclass⟩ := hintended
  rw [desiredChanges, hcompare] at hchange ⊢
  split
  · rename_i hmissing
    rw [if_pos hmissing] at hchange
    have hsource := of_decide_eq_true (Bool.and_eq_true_iff.mp hmissing).1
    rcases List.mem_append.mp hchange with h | h
    · rw [hlive hsource] at h
      exact absurd hclass (not_intended_of_live_nil (List.mem_filter.mp h).1)
    · obtain ⟨path, -, rfl⟩ := List.mem_map.mp (List.mem_filter.mp h).1
      cases hclass
  · exact fun _ h => List.mem_append_left _ h

theorem mem_approvedAt_of_matches {change : FieldChange} {matched : ApprovedChange}
    (h : matched ∈ (approvedChangeMatchesDiff order change approved).getD []) :
    matched ∈ approvedAt approved (PyText.strip change.fieldPath) := by
  rw [approvedChangeMatchesDiff] at h
  split at h
  · split at h
    · cases h
    · cases h
  · split at h
    · cases h
    · split at h
      · exact h
      · cases h

theorem live_fields_of_missing {rendered : RenderedManifest} {observation : Observation}
    {live : ManagedFieldSnapshot} (h : loadLiveSnapshot texts rendered observation = some live)
    (hsource : live.source = .inventoryResourceMissing) : live.fields = [] := by
  cases observation with
  | manifest obj =>
    obtain rfl := Option.some.inj h
    cases hsource
  | missing =>
    obtain rfl := Option.some.inj h
    rfl
  | image actualImage =>
    rw [loadLiveSnapshot] at h
    split at h
    · obtain ⟨obj, -, rfl⟩ := Option.map_eq_some_iff.mp h
      cases hsource
    · obtain rfl := Option.some.inj h
      cases hsource

/-- **When an accepted recovery diff authorises what was reviewed and nothing else**: exactly
when every managed path that Git declares, before or now, is seen by its classification. -/
theorem authorises_iff {approvedSnapshotRequired : Bool} {rendered : RenderedManifest}
    {observation : Observation} {live : ManagedFieldSnapshot} {diff : DesiredDiff}
    {payload : PyFields}
    {approved : List ApprovedChange}
    (hsnapshot : rendered.lastApprovedSnapshot.fields ≠ [])
    (hlive : loadLiveSnapshot texts rendered observation = some live)
    (hdiff : buildDesiredDiff texts approvedSnapshotRequired rendered observation = some diff)
    (hcontract : approvedChangeContract texts payload = some approved)
    (haccept : recoveryDiffMatchesApprovedScope texts order payload diff = true)
    (hchanges : diff.hasChanges = true) :
    let policy := loadFieldPolicy texts approvedSnapshotRequired rendered
    let old := policy.managedPart rendered.lastApprovedSnapshot.fields
    let new := policy.managedPart (extractManagedFields texts (renderedManifestToObject rendered))
    let live := policy.managedPart live.fields
    Authorised approved old live new diff ↔
      ∀ path, old.lookup path ≠ none ∨ new.lookup path ≠ none →
        Seen approved path (old.lookup path) (new.lookup path) (live.lookup path) := by
  intro policy old new liveFields
  obtain ⟨hcarries, hmatch⟩ := checks_of_accepted hcontract haccept hchanges
  obtain ⟨hvalid, hnodup⟩ := valid_of_contract hcontract
  simp only [changesMatch, Bool.and_eq_true, List.all_eq_true, List.any_eq_true,
    decide_eq_true_eq] at hmatch
  obtain ⟨⟨haccepted, change, hchange, hintended, -⟩, hcovered⟩ := hmatch
  constructor
  · exact fun h path hdeclared => seen_of_authorisedAt (h.fields path hdeclared)
  · intro hseen
    refine ⟨fun path hdeclared => ?_, fun wanted hwanted => ?_, fun wanted hwanted => ?_⟩
    · by_cases hclass : classifyFieldChange ((old.lookup path).getD (.str missingText))
          ((liveFields.lookup path).getD (.str missingText))
          ((new.lookup path).getD (.str missingText)) = .noChange
      · exact fun hunapplied => absurd hunapplied (not_unapplied_of_noChange hclass)
      · have hentry : fieldChange (some old) liveFields new path ∈ diff.changes := by
          obtain ⟨live', hlive', rfl⟩ := Option.map_eq_some_iff.mp hdiff
          obtain rfl : live = live' := Option.some.inj (hlive.symm.trans hlive')
          have hold : (loadPreviousDesiredSnapshot approvedSnapshotRequired live policy).fields =
              rendered.lastApprovedSnapshot.fields := by
            rw [loadPreviousDesiredSnapshot, if_pos]
            · rfl
            · rw [Bool.not_eq_true', List.isEmpty_eq_false_iff]
              exact hsnapshot
          have hsub := comparedFields_subset (live_fields_of_missing hlive)
            ⟨change, hchange, hintended⟩
          rw [hold] at hsub
          exact hsub (mem_comparedFields hdeclared hclass)
        exact authorisedAt_of_accepted (hseen path hdeclared) hdeclared
          (fun o ho => rendered.lastApprovedSnapshot.wellKeyed _ (mem_of_lookup_managedPart ho))
          hvalid hnodup
          (fun c hc below hbelow hpath => hpath ▸ relativePath_of_carries hvalid hcarries hc hbelow)
          rfl (haccepted _ hentry)
    · obtain ⟨entry, hentry, matched, hmatched, hpath⟩ := hcovered wanted hwanted
      have hat := mem_approvedAt_of_matches hmatched
      have hsame := List.inj_on_of_nodup_map hnodup (List.mem_filter.mp hat).1 hwanted hpath
      exact ⟨entry, hentry, hsame ▸ hat⟩
    · obtain ⟨value, hvalue, hsame⟩ := (Option.any_eq_true _ _).mp
        (List.all_eq_true.mp hcarries wanted hwanted)
      exact ⟨value, hvalue, (sameScalar_iff.mp hsame).2⟩

/-! ## A dropped selector -/

section Sample

/-- Lower-case kinds; no other text is asked for. -/
def sampleTexts : PyTexts where
  strOf := fun _ => ""
  lower := fun s => if s = "Service" then "service" else s
  casefold := fun s => if s = "Service" then "service" else s

/-- The order of the payload. -/
def sampleOrder : SetOrder := ⟨id, fun _ => List.Perm.refl _⟩

/-- A service of a type, with a selector. -/
def sampleService (serviceType : String) (selector : PyFields) : PyFields :=
  [("kind", .str "Service"),
    ("metadata", .dict [("name", .str "web"), ("namespace", .str "sandbox")]),
    ("spec", .dict [("type", .str serviceType), ("selector", .dict selector)])]

def sampleApp : String × PyValue := ("app", .str "web")

def sampleTier : String × PyValue := ("tier", .str "front")

/-- Git changes the type of the service, and drops a key of its selector. -/
def sampleRendered : RenderedManifest where
  apiVersion := "v1"
  kind := "Service"
  name := "web"
  namespaceName := "sandbox"
  replicas := 0
  image := ""
  manifest := sampleService "NodePort" [sampleApp]
  declaredFields := []
  managedFields := []
  ignoredFields := []
  lastApprovedSnapshot :=
    { fields := [("spec.type", .str "ClusterIP"), ("spec.selector", .dict [sampleApp, sampleTier])]
      wellKeyed := by
        simp [PyValue.WellKeyed, PyValue.WellKeyedFields, sampleApp, sampleTier] }

/-- The cluster is as it was. -/
def sampleObservation : Observation :=
  .manifest (sampleService "ClusterIP" [sampleApp, sampleTier])

/-- The type alone was approved. -/
def samplePayload : PyFields :=
  [("lifecycle", .dict [("authorization", .dict
    [("target", .dict [("namespace", .str "sandbox"), ("resource_kind", .str "Service"),
        ("resource_name", .str "web")]),
      ("changes", .list [.dict [("field_path", .str "spec.type"),
        ("current_value", .str "ClusterIP"), ("desired_value", .str "NodePort")]])])])]

def sampleLive : ManagedFieldSnapshot :=
  (loadLiveSnapshot sampleTexts sampleRendered sampleObservation).get (by decide +kernel)

def sampleDiff : DesiredDiff :=
  (buildDesiredDiff sampleTexts true sampleRendered sampleObservation).get (by decide +kernel)

def sampleApproved : List ApprovedChange :=
  (approvedChangeContract sampleTexts samplePayload).get (by decide +kernel)

def samplePolicy : FieldPolicy := loadFieldPolicy sampleTexts true sampleRendered

def sampleNew : FieldMap :=
  extractManagedFields sampleTexts (renderedManifestToObject sampleRendered)

theorem authorises_iff_sample :
    Authorised sampleApproved
        (samplePolicy.managedPart sampleRendered.lastApprovedSnapshot.fields)
        (samplePolicy.managedPart sampleLive.fields) (samplePolicy.managedPart sampleNew)
        sampleDiff ↔
      ∀ path,
        (samplePolicy.managedPart sampleRendered.lastApprovedSnapshot.fields).lookup path ≠ none ∨
            (samplePolicy.managedPart sampleNew).lookup path ≠ none →
          Seen sampleApproved path
            ((samplePolicy.managedPart sampleRendered.lastApprovedSnapshot.fields).lookup path)
            ((samplePolicy.managedPart sampleNew).lookup path)
            ((samplePolicy.managedPart sampleLive.fields).lookup path) :=
  authorises_iff (List.cons_ne_nil _ _) (Option.some_get _).symm (Option.some_get _).symm
    (show approvedChangeContract sampleTexts samplePayload = some sampleApproved from
      (Option.some_get _).symm)
    (show recoveryDiffMatchesApprovedScope sampleTexts sampleOrder samplePayload sampleDiff = true
      by decide +kernel)
    (by decide +kernel)

/-- **A dropped selector is let through** with the approved change of the type, and the
cluster still has it. -/
theorem dropped_selector_is_let_through :
    recoveryDiffMatchesApprovedScope sampleTexts sampleOrder samplePayload sampleDiff = true ∧
      sampleDiff.hasChanges = true ∧
      ¬ Authorised sampleApproved
        (samplePolicy.managedPart sampleRendered.lastApprovedSnapshot.fields)
        (samplePolicy.managedPart sampleLive.fields) (samplePolicy.managedPart sampleNew)
        sampleDiff := by
  refine ⟨by decide +kernel, by decide +kernel, fun h => ?_⟩
  have hdropped : (((samplePolicy.managedPart
      sampleRendered.lastApprovedSnapshot.fields).lookup "spec.selector").any fun o =>
        ((samplePolicy.managedPart sampleNew).lookup "spec.selector").any fun n =>
          ((samplePolicy.managedPart sampleLive.fields).lookup "spec.selector").any fun l =>
            n.covers l && o.carriesDropped n l) = true := by decide +kernel
  obtain ⟨o, ho, hdropped⟩ := (Option.any_eq_true _ _).mp hdropped
  obtain ⟨n, hn, hdropped⟩ := (Option.any_eq_true _ _).mp hdropped
  obtain ⟨l, hl, hdropped⟩ := (Option.any_eq_true _ _).mp hdropped
  have hseen := seen_of_authorisedAt
    (h.fields "spec.selector" (Or.inl (ho ▸ Option.some_ne_none o)))
  have hnone : approvedAt sampleApproved (PyText.strip "spec.selector") = [] :=
    List.isEmpty_iff.mp (by decide +kernel)
  refine hseen.dropped hnone o ho ?_
  rw [hn, hl]
  exact Bool.and_eq_true_iff.mp hdropped

end Sample

end Opsia.Gitops
