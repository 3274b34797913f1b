import Mathlib.Data.List.Forall2
import Opsia.Lib.PyText
import Opsia.Lib.PyValue

/-!
# Field paths into a manifest

`field_path_segments`, `object_value_at` and `set_object_value` of
`domains/gitops/source_patch.py`: a path is cut at the dots outside brackets, and a segment
is a key, or a key with the name of the one list item to go on from. Every way to fail is
`none`; the source raises `ManifestSourcePatchError`, `KeyError` or `TypeError`.
-/

namespace Opsia.Gitops

/-! ## Segments -/

structure FieldPathSegment : Type where
  key : String
  selectedName : Option String
  deriving DecidableEq, Repr

/-- `[A-Za-z0-9_-]`. -/
def isKeyChar (c : Char) : Bool :=
  ('A' ≤ c && c ≤ 'Z') || ('a' ≤ c && c ≤ 'z') || ('0' ≤ c && c ≤ '9') || c = '_' || c = '-'

/-- The loop of `_field_path_parts`, with the bracket depth and the part so far, reversed;
`none` for unbalanced brackets. -/
def fieldPathPartsFrom : ℕ → List Char → List Char → Option (List (List Char))
  | depth, part, [] => if depth = 0 then some [part.reverse] else none
  | depth, part, c :: cs =>
    if c = '[' then fieldPathPartsFrom (depth + 1) (c :: part) cs
    else if c = ']' then
      if depth = 0 then none else fieldPathPartsFrom (depth - 1) (c :: part) cs
    else if c = '.' && depth = 0 then
      (fieldPathPartsFrom 0 [] cs).map fun parts => part.reverse :: parts
    else fieldPathPartsFrom depth (c :: part) cs

/-- What follows the key of a segment: the name in `[name=…]`. -/
def selectedNameOf (rest : List Char) : Option (List Char) :=
  if ['[', 'n', 'a', 'm', 'e', '='].isPrefixOf rest && rest.getLast? = some ']' then
    let name := (rest.drop 6).dropLast
    if name.isEmpty || ']' ∈ name then none else some name
  else none

/-- `FIELD_PATH_SEGMENT_PATTERN.fullmatch`, and the check that the name is not blank. -/
def segmentOf (raw : List Char) : Option FieldPathSegment :=
  let key := raw.takeWhile isKeyChar
  let rest := raw.dropWhile isKeyChar
  if key.isEmpty then none
  else if rest.isEmpty then some ⟨String.ofList key, none⟩
  else
    match selectedNameOf rest with
    | none => none
    | some name =>
      if PyText.strip (String.ofList name) = "" then none
      else some ⟨String.ofList key, some (String.ofList name)⟩

/-- `field_path_segments`, on characters; empty when the path is none. -/
def segmentsOf (path : List Char) : List FieldPathSegment :=
  ((fieldPathPartsFrom 0 [] path).bind fun parts => parts.mapM segmentOf).getD []

def fieldPathSegments (value : String) : List FieldPathSegment := segmentsOf value.toList

/-- A name may have dots, a key may not have blanks. -/
example : fieldPathSegments "spec.containers[name=a.b].image" =
      [⟨"spec", none⟩, ⟨"containers", some "a.b"⟩, ⟨"image", none⟩] ∧
    fieldPathSegments "spec. image" = [] ∧ fieldPathSegments "a]b[" = [] := by decide

/-- What a path has after a parent and a dot. -/
def relativePath (parent path : String) : Option (List Char) :=
  if (parent.toList ++ ['.']).isPrefixOf path.toList then
    some (path.toList.drop (parent.toList.length + 1))
  else none

/-! ## Reading and writing -/

def scalarValue (value : PyValue) : Bool := value.isScalar

/-- `same_scalar`: the same type and equal. -/
def sameScalar (left right : PyValue) : Bool :=
  left.typeOf = right.typeOf && left.eq right

/-- A list item that a selected name is for. -/
def isNamed (name : String) : PyValue → Bool
  | .dict fields => ((fields.lookup "name").getD .none).eq (.str name)
  | .none | .bool _ | .int _ | .float _ | .str _ | .list _ => false

/-- The only item that a selected name is for. -/
def onlyNamed (name : String) (items : List PyValue) : Option PyValue :=
  match items.filter (isNamed name) with
  | [item] => some item
  | _ => none

/-- One step down. -/
def childAt (current : PyValue) (segment : FieldPathSegment) : Option PyValue :=
  (current.dict?.bind fun fields => fields.lookup segment.key).bind fun child =>
    match segment.selectedName with
    | none => some child
    | some name => child.list?.bind (onlyNamed name)

/-- The value with another one a step down. -/
def replaceChild (current : PyValue) (segment : FieldPathSegment) (child : PyValue) :
    Option PyValue :=
  current.dict?.bind fun fields =>
    match segment.selectedName with
    | none => some (.dict (PyValue.setField fields segment.key child))
    | some name => ((fields.lookup segment.key).bind PyValue.list?).map fun items =>
        .dict (PyValue.setField fields segment.key
          (.list (items.map fun item => if isNamed name item then child else item)))

def objectValueAt (root : PyValue) : List FieldPathSegment → Option PyValue
  | [] => some root
  | segment :: segments => (childAt root segment).bind fun child => objectValueAt child segments

/-- `set_object_value`, which writes in place; here the new root. -/
def setObjectValue (root : PyValue) : List FieldPathSegment → PyValue → Option PyValue
  | [], _ => none
  | [segment], value =>
    if segment.selectedName.isSome then none
    else root.dict?.map fun fields => .dict (PyValue.setField fields segment.key value)
  | segment :: next :: segments, value =>
    (childAt root segment).bind fun child =>
      (setObjectValue child (next :: segments) value).bind fun child =>
        replaceChild root segment child

/-! ## Paths below a path -/

theorem toList_of_relativePath {parent path : String} {relative : List Char}
    (h : relativePath parent path = some relative) :
    path.toList = parent.toList ++ '.' :: relative := by
  rw [relativePath] at h
  split at h
  · rename_i hprefix
    obtain ⟨rest, hrest⟩ := List.isPrefixOf_iff_prefix.mp hprefix
    obtain rfl := Option.some.inj h
    have hdrop : path.toList.drop (parent.toList.length + 1) = rest := by
      rw [← hrest, List.drop_append_of_le_length (by simp)]
      simp
    rw [hdrop, ← hrest, List.append_assoc]
    rfl
  · cases h

theorem fieldPathPartsFrom_append {depth : ℕ} {part before after : List Char}
    {parts : List (List Char)} (h : fieldPathPartsFrom depth part before = some parts) :
    fieldPathPartsFrom depth part (before ++ '.' :: after) =
      (fieldPathPartsFrom 0 [] after).map fun more => parts ++ more := by
  induction before generalizing depth part parts with
  | nil =>
    rw [fieldPathPartsFrom] at h
    split at h
    · rename_i hdepth
      obtain rfl := Option.some.inj h
      subst hdepth
      rw [List.nil_append, fieldPathPartsFrom]
      rfl
    · cases h
  | cons c before ih =>
    rw [List.cons_append, fieldPathPartsFrom]
    rw [fieldPathPartsFrom] at h
    by_cases hopen : c = '['
    · rw [if_pos hopen] at h ⊢
      exact ih h
    · rw [if_neg hopen] at h ⊢
      by_cases hclose : c = ']'
      · rw [if_pos hclose] at h ⊢
        split at h
        · cases h
        · rename_i hdepth
          rw [if_neg hdepth]
          exact ih h
      · rw [if_neg hclose] at h ⊢
        split at h
        · rename_i hdot
          rw [if_pos hdot]
          obtain ⟨rest, hrest, rfl⟩ := Option.map_eq_some_iff.mp h
          rw [ih hrest, Option.map_map]
          rfl
        · rename_i hdot
          rw [if_neg hdot]
          exact ih h

theorem fieldPathPartsFrom_ne_nil {depth : ℕ} {part path : List Char} :
    fieldPathPartsFrom depth part path ≠ some [] := by
  induction path generalizing depth part with
  | nil =>
    rw [fieldPathPartsFrom]
    split
    · exact fun h => List.cons_ne_nil _ _ (Option.some.inj h)
    · exact fun h => by cases h
  | cons c path ih =>
    rw [fieldPathPartsFrom]
    split
    · exact ih
    · split
      · split
        · exact fun h => by cases h
        · exact ih
      · split
        · intro h
          obtain ⟨parts, -, hparts⟩ := Option.map_eq_some_iff.mp h
          cases hparts
        · exact ih

theorem exists_parts_of_segmentsOf {path : List Char} (h : segmentsOf path ≠ []) :
    ∃ parts, fieldPathPartsFrom 0 [] path = some parts ∧
      parts.mapM segmentOf = some (segmentsOf path) := by
  rcases hparts : fieldPathPartsFrom 0 [] path with _ | parts
  · rw [segmentsOf, hparts] at h
    exact absurd rfl h
  · rcases hsegments : parts.mapM segmentOf with _ | segments
    · rw [segmentsOf, hparts, Option.bind_some, hsegments] at h
      exact absurd rfl h
    · refine ⟨parts, rfl, ?_⟩
      rw [segmentsOf, hparts, Option.bind_some, hsegments, Option.getD_some]

/-- What follows a path and a dot in a path is one. -/
theorem segmentsOf_after_ne_nil {before after : List Char} (hbefore : segmentsOf before ≠ [])
    (hwhole : segmentsOf (before ++ '.' :: after) ≠ []) : segmentsOf after ≠ [] := by
  obtain ⟨parts, hparts, -⟩ := exists_parts_of_segmentsOf hbefore
  obtain ⟨all, hall, hsegments⟩ := exists_parts_of_segmentsOf hwhole
  rw [fieldPathPartsFrom_append hparts] at hall
  obtain ⟨more, hmore, rfl⟩ := Option.map_eq_some_iff.mp hall
  rw [List.mapM_append] at hsegments
  obtain ⟨first, -, hsegments⟩ := Option.bind_eq_some_iff.mp hsegments
  obtain ⟨second, hsecond, -⟩ := Option.bind_eq_some_iff.mp hsegments
  rw [segmentsOf, hmore, Option.bind_some, hsecond, Option.getD_some]
  rintro rfl
  rcases more with _ | ⟨part, more⟩
  · exact fieldPathPartsFrom_ne_nil hmore
  · rw [List.mapM_cons] at hsecond
    obtain ⟨segment, -, hsecond⟩ := Option.bind_eq_some_iff.mp hsecond
    obtain ⟨segments, -, hsecond⟩ := Option.bind_eq_some_iff.mp hsecond
    cases hsecond

theorem segmentsOf_append {before after : List Char} (hbefore : segmentsOf before ≠ [])
    (hafter : segmentsOf after ≠ []) :
    segmentsOf (before ++ '.' :: after) = segmentsOf before ++ segmentsOf after := by
  obtain ⟨parts, hparts, hsegments⟩ := exists_parts_of_segmentsOf hbefore
  obtain ⟨parts', hparts', hsegments'⟩ := exists_parts_of_segmentsOf hafter
  have hall : segmentsOf (before ++ '.' :: after) =
      (((parts ++ parts').mapM segmentOf : Option (List FieldPathSegment))).getD [] := by
    rw [segmentsOf, fieldPathPartsFrom_append hparts, hparts', Option.map_some, Option.bind_some]
  rw [hall, List.mapM_append, hsegments, hsegments']
  rfl

theorem objectValueAt_append (root : PyValue) (before after : List FieldPathSegment) :
    objectValueAt root (before ++ after) =
      (objectValueAt root before).bind fun value => objectValueAt value after := by
  induction before generalizing root with
  | nil => rfl
  | cons segment before ih =>
    rw [List.cons_append, objectValueAt, objectValueAt, Option.bind_assoc]
    exact congrArg _ (funext ih)

variable {x y : PyValue} {segments : List FieldPathSegment} {xs ys : List (String × PyValue)}

theorem objectValueAt_of_isScalar {root : PyValue} (hroot : root.isScalar = true)
    (hsegments : segments ≠ []) :
    objectValueAt root segments = none := by
  cases segments with
  | nil => exact absurd rfl hsegments
  | cons segment segments =>
    cases root with
    | list items => rfl
    | dict fields => cases hroot
    | _ => rfl

/-! ## Equal values -/

/-- A well-keyed value that equals another. -/
structure WellEq (x y : PyValue) : Prop where
  wellKeyed : x.WellKeyed
  eq : x.eq y = true

theorem sameScalar_iff :
    sameScalar x y = true ↔ x.typeOf = y.typeOf ∧ x.eq y = true := by
  rw [sameScalar, Bool.and_eq_true, decide_eq_true_iff]

theorem isScalar_of_sameScalar (hy : y.isScalar = true) (h : sameScalar x y = true) :
    x.isScalar = true := by
  have htype := (sameScalar_iff.mp h).1
  cases x with
  | list items =>
    cases y with
    | list items => cases hy
    | _ => cases htype
  | dict fields =>
    cases y with
    | dict fields => cases hy
    | _ => cases htype
  | _ => rfl

theorem WellEq.dict (h : WellEq (.dict xs) y) :
    ∃ ys, y = .dict ys ∧ xs.length = ys.length ∧ PyValue.eqFields xs ys = true :=
  PyValue.eq_dict_iff.mp h.eq

theorem WellEq.lookup (h : WellEq (.dict xs) (.dict ys)) {k : String} {w : PyValue}
    (hw : ys.lookup k = some w) :
    ∃ v, xs.lookup k = some v ∧ WellEq v w := by
  obtain ⟨ys', hys, hlen, hfields⟩ := h.dict
  obtain rfl := PyValue.dict.inj hys
  obtain ⟨v, hv, heq, hwell⟩ := PyValue.exists_lookup_of_eq h.wellKeyed hlen hfields hw
  exact ⟨v, hv, hwell, heq⟩

theorem WellEq.exists_dict (h : WellEq x (.dict ys)) : ∃ xs, x = .dict xs := by
  cases x with
  | dict xs => exact ⟨xs, rfl⟩
  | list xs => obtain ⟨zs, hzs, -⟩ := PyValue.eq_list_iff.mp h.eq; cases hzs
  | none => cases PyValue.eq_none_iff.mp h.eq
  | str s => cases PyValue.eq_str_iff.mp h.eq
  | bool b => cases (PyValue.number?_of_eq rfl).mp h.eq
  | int n => cases (PyValue.number?_of_eq rfl).mp h.eq
  | float q => cases (PyValue.number?_of_eq rfl).mp h.eq

theorem WellEq.exists_list {ys : List PyValue} (h : WellEq x (.list ys)) :
    ∃ xs, x = .list xs ∧ List.Forall₂ WellEq xs ys := by
  cases x with
  | list xs =>
    obtain ⟨zs, hzs, hlen, hitems⟩ := PyValue.eq_list_iff.mp h.eq
    obtain rfl := PyValue.list.inj hzs
    have hwell := h.wellKeyed
    refine ⟨xs, rfl, ?_⟩
    clear h hzs
    induction xs generalizing ys with
    | nil =>
      cases ys with
      | nil => exact .nil
      | cons y ys => cases hlen
    | cons x xs ih =>
      cases ys with
      | nil => cases hlen
      | cons y ys =>
        rw [PyValue.eqItems, Bool.and_eq_true] at hitems
        exact .cons ⟨hwell.1, hitems.1⟩ (ih (Nat.succ.inj hlen) hitems.2 hwell.2)
  | dict xs => obtain ⟨zs, hzs, -⟩ := PyValue.eq_dict_iff.mp h.eq; cases hzs
  | none => cases PyValue.eq_none_iff.mp h.eq
  | str s => cases PyValue.eq_str_iff.mp h.eq
  | bool b => cases (PyValue.number?_of_eq rfl).mp h.eq
  | int n => cases (PyValue.number?_of_eq rfl).mp h.eq
  | float q => cases (PyValue.number?_of_eq rfl).mp h.eq

theorem wellEq_list {xs ys : List PyValue} (h : List.Forall₂ WellEq xs ys) :
    WellEq (.list xs) (.list ys) := by
  induction h with
  | nil => exact ⟨trivial, rfl⟩
  | cons hxy hrest ih =>
    obtain ⟨zs, hzs, hlen, hitems⟩ := PyValue.eq_list_iff.mp ih.eq
    obtain rfl := PyValue.list.inj hzs
    refine ⟨⟨hxy.wellKeyed, ih.wellKeyed⟩, PyValue.eq_list_iff.mpr ⟨_, rfl, ?_, ?_⟩⟩
    · rw [List.length_cons, List.length_cons, hlen]
    · rw [PyValue.eqItems, hxy.eq, hitems]
      rfl

theorem wellEq_setField (h : WellEq (.dict xs) (.dict ys)) (k : String) {v w : PyValue}
    (hvw : WellEq v w) :
    WellEq (.dict (PyValue.setField xs k v)) (.dict (PyValue.setField ys k w)) :=
  ⟨PyValue.wellKeyed_setField h.wellKeyed k hvw.wellKeyed,
    PyValue.eq_setField h.wellKeyed h.eq k hvw.eq⟩

theorem isNamed_of_wellEq (h : WellEq x y) (name : String) :
    isNamed name x = true ↔ isNamed name y = true := by
  cases y with
  | dict ys =>
    obtain ⟨xs, rfl⟩ := h.exists_dict
    rw [isNamed, isNamed]
    rcases hw : ys.lookup "name" with _ | w
    · have hnone : xs.lookup "name" = none := by
        rcases hv : xs.lookup "name" with _ | v
        · rfl
        · obtain ⟨ys', hys, -, hfields⟩ := h.dict
          obtain rfl := PyValue.dict.inj hys
          obtain ⟨w, hw', -⟩ := PyValue.eqFields_iff.mp hfields _ (PyValue.mem_of_lookup hv)
          rw [hw] at hw'
          cases hw'
      rw [hnone]
    · obtain ⟨v, hv, hvw⟩ := h.lookup hw
      rw [hv, Option.getD_some, Option.getD_some, PyValue.eq_str_right_iff,
        PyValue.eq_str_right_iff]
      constructor
      · rintro rfl
        exact PyValue.eq_str_iff.mp hvw.eq
      · rintro rfl
        exact PyValue.eq_str_right_iff.mp hvw.eq
  | list ys =>
    obtain ⟨xs, rfl, -⟩ := h.exists_list
    exact Iff.rfl
  | _ =>
    refine iff_of_false (fun hx => ?_) (by simp [isNamed])
    cases x with
    | dict xs =>
      obtain ⟨ys, hys, -⟩ := h.dict
      cases hys
    | _ => cases hx

theorem onlyNamed_of_wellEq {xs ys : List PyValue} (h : List.Forall₂ WellEq xs ys) {name : String}
    (hy : onlyNamed name ys = some y) :
    ∃ x, onlyNamed name xs = some x ∧ WellEq x y := by
  have hfilter : List.Forall₂ WellEq (xs.filter (isNamed name)) (ys.filter (isNamed name)) :=
    List.rel_filter (R := WellEq) (p := isNamed name) (q := isNamed name)
      (fun _ _ hxy => isNamed_of_wellEq hxy name) h
  rw [onlyNamed] at hy
  split at hy
  · rename_i item hitem
    obtain rfl := Option.some.inj hy
    rw [hitem] at hfilter
    rw [onlyNamed]
    generalize xs.filter (isNamed name) = zs at hfilter ⊢
    cases hfilter with
    | cons hxy hrest =>
      cases hrest
      exact ⟨_, rfl, hxy⟩
  · cases hy

theorem childAt_of_wellEq (h : WellEq x y) {segment : FieldPathSegment} {b : PyValue}
    (hb : childAt y segment = some b) :
    ∃ a, childAt x segment = some a ∧ WellEq a b := by
  obtain ⟨child, hchild, hselect⟩ := Option.bind_eq_some_iff.mp hb
  obtain ⟨ys, hys, hlookup⟩ := Option.bind_eq_some_iff.mp hchild
  cases y with
  | dict fields =>
    obtain rfl := Option.some.inj hys
    obtain ⟨xs, rfl⟩ := h.exists_dict
    obtain ⟨v, hv, hvw⟩ := h.lookup hlookup
    have hfirst : (PyValue.dict? (.dict xs)).bind (fun fields => fields.lookup segment.key) =
        some v := hv
    rw [childAt, hfirst, Option.bind_some]
    rcases hname : segment.selectedName with _ | name
    · rw [hname] at hselect
      obtain rfl := Option.some.inj hselect
      exact ⟨v, rfl, hvw⟩
    · rw [hname] at hselect
      obtain ⟨items, hitems, honly⟩ := Option.bind_eq_some_iff.mp hselect
      cases child with
      | list ws =>
        obtain rfl := Option.some.inj hitems
        obtain ⟨vs, rfl, hitemwise⟩ := hvw.exists_list
        exact onlyNamed_of_wellEq hitemwise honly
      | _ => cases hitems
  | _ => cases hys

theorem replaceChild_of_wellEq (h : WellEq x y) {segment : FieldPathSegment} {a b z : PyValue}
    (hab : WellEq a b) (hz : replaceChild y segment b = some z) :
    ∃ x', replaceChild x segment a = some x' ∧ WellEq x' z := by
  obtain ⟨ys, hys, hrest⟩ := Option.bind_eq_some_iff.mp hz
  cases y with
  | dict fields =>
    obtain rfl := Option.some.inj hys
    obtain ⟨xs, rfl⟩ := h.exists_dict
    rcases hname : segment.selectedName with _ | name
    · rw [hname] at hrest
      obtain rfl := Option.some.inj hrest
      refine ⟨_, by simp only [replaceChild, PyValue.dict?, hname, Option.bind_some]; rfl, ?_⟩
      exact wellEq_setField h _ hab
    · rw [hname] at hrest
      obtain ⟨items, hitems, rfl⟩ := Option.map_eq_some_iff.mp hrest
      obtain ⟨w, hw, hwlist⟩ := Option.bind_eq_some_iff.mp hitems
      obtain ⟨v, hv, hvw⟩ := h.lookup hw
      cases w with
      | list ws =>
        obtain rfl := Option.some.inj hwlist
        obtain ⟨vs, rfl, hitemwise⟩ := hvw.exists_list
        refine ⟨_, by simp only [replaceChild, PyValue.dict?, PyValue.list?, hname, hv,
          Option.bind_some, Option.map_some]; rfl, ?_⟩
        refine wellEq_setField h _ (wellEq_list ?_)
        refine List.rel_map (fun c d hcd => ?_) hitemwise
        by_cases hnamed : isNamed name c = true
        · rw [if_pos hnamed, if_pos ((isNamed_of_wellEq hcd name).mp hnamed)]
          exact hab
        · rw [if_neg hnamed, if_neg fun hd => hnamed ((isNamed_of_wellEq hcd name).mpr hd)]
          exact hcd
      | _ => cases hwlist
  | _ => cases hys

theorem objectValueAt_of_wellEq (h : WellEq x y) {b : PyValue}
    (hb : objectValueAt y segments = some b) :
    ∃ a, objectValueAt x segments = some a ∧ WellEq a b := by
  induction segments generalizing x y with
  | nil =>
    obtain rfl := Option.some.inj hb
    exact ⟨x, rfl, h⟩
  | cons segment segments ih =>
    obtain ⟨d, hd, hb⟩ := Option.bind_eq_some_iff.mp hb
    obtain ⟨c, hc, hcd⟩ := childAt_of_wellEq h hd
    obtain ⟨a, ha, hab⟩ := ih hcd hb
    exact ⟨a, by rw [objectValueAt, hc, Option.bind_some, ha], hab⟩

/-- **Writing the same scalar into equal values leaves equal values.** -/
theorem setObjectValue_of_wellEq (h : WellEq x y) {value z : PyValue}
    (hvalue : value.isScalar = true) (hz : setObjectValue y segments value = some z) :
    ∃ x', setObjectValue x segments value = some x' ∧ WellEq x' z := by
  induction segments generalizing x y z with
  | nil => cases hz
  | cons segment segments ih =>
    cases segments with
    | nil =>
      rw [setObjectValue] at hz
      split at hz
      · cases hz
      · rename_i hname
        obtain ⟨ys, hys, rfl⟩ := Option.map_eq_some_iff.mp hz
        cases y with
        | dict fields =>
          obtain rfl := Option.some.inj hys
          obtain ⟨xs, rfl⟩ := h.exists_dict
          refine ⟨_, by simp only [setObjectValue, if_neg hname, PyValue.dict?, Option.map_some]
                        rfl, ?_⟩
          exact wellEq_setField h _ ⟨PyValue.wellKeyed_of_isScalar hvalue,
            PyValue.eq_self_of_isScalar hvalue⟩
        | _ => cases hys
    | cons next segments =>
      rw [setObjectValue] at hz
      obtain ⟨d, hd, hz⟩ := Option.bind_eq_some_iff.mp hz
      obtain ⟨d', hd', hz⟩ := Option.bind_eq_some_iff.mp hz
      obtain ⟨c, hc, hcd⟩ := childAt_of_wellEq h hd
      obtain ⟨c', hc', hcd'⟩ := ih hcd hd'
      obtain ⟨x', hx', hxz⟩ := replaceChild_of_wellEq h hcd' hz
      exact ⟨x', by rw [setObjectValue, hc, Option.bind_some, hc', Option.bind_some, hx'], hxz⟩

end Opsia.Gitops
