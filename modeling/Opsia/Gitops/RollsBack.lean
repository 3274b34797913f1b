import Opsia.Gitops.RollbackSlots

/-!
# When a rollback manifest rolls back

A change that is still to be made is one that has not converged. The rollback manifest should show,
at each of them, what the cluster showed, and leave the other fields as the desired manifest has
them. It does so exactly when the desired manifest itself has the place that each path leads to,
and nothing in it hides that place (`rollsBack_iff`): a container that only the cluster has is not
put back, and the manifest is returned all the same when any other path was found.
-/

namespace Opsia.Gitops

open Slots

section

variable (texts : PyTexts)

/-- The names of the containers and volumes of an object. -/
def itemNames (obj : PyFields) : List String :=
  if kindOf texts obj = "Deployment" then
    (listItems ((podSpecOf obj).lookup "containers") ++
      listItems ((podSpecOf obj).lookup "volumes")).map fun item =>
        itemName texts (mappingOf item)
  else []

/-- The changes that have not converged. -/
def pendingChanges (changes : List FieldChange) : List FieldChange :=
  changes.filter fun change => change.classification ≠ .alreadyConverged

/-- The managed field of a manifest at a path. -/
def managedField (obj : PyFields) (path : String) : Option PyValue :=
  (extractManagedFields texts obj).lookup path

/-- **What a rollback manifest should be.** -/
structure RollsBack (desired live : PyFields) (changes : List FieldChange) : Prop where
  splits : ∀ name ∈ itemNames texts desired ++ itemNames texts live, ∀ list keys key,
    ItemList list keys → key ∈ keys →
      splitFieldPath (itemBase list name ++ key) =
          ["spec", "template", "spec", itemPart list name, key] ∧
        parseListSelector (itemPart list name) = some (list, "name", name)
  restored : buildRollbackManifest texts desired changes ≠ [] →
    ∀ change ∈ changes, change.classification ≠ .alreadyConverged →
      managedField texts (buildRollbackManifest texts desired changes) change.fieldPath =
        rolledBack change.before
  kept : buildRollbackManifest texts desired changes ≠ [] →
    ∀ path, (∀ change ∈ changes, change.classification ≠ .alreadyConverged →
      change.fieldPath ≠ path) →
        managedField texts (buildRollbackManifest texts desired changes) path =
          managedField texts desired path

/-- A value can be set at the path. -/
def leads (obj : PyFields) (path : String) : Bool :=
  (applyRollbackValue texts (.dict obj) path .none).isSome

/-- **When it is**: names leave the paths whole, and the desired manifest has a place for every
pending change that its path reaches and that a later or, to remove a field, any other item of
the name does not hide; or it has no place that any of them leads to. -/
structure Restorable (desired live : PyFields) (changes : List FieldChange) : Prop where
  enclosed : ∀ name ∈ itemNames texts desired ++ itemNames texts live, Enclosed name
  reached : desired = [] ∨
    (∀ change ∈ pendingChanges changes, leads texts desired change.fieldPath = false) ∨
      ∀ change ∈ pendingChanges changes,
        Addressed (slotsOf texts desired) change.fieldPath (rolledBack change.before)

end

/-! ## The pending changes -/

theorem lookup_applyFieldPolicy (fields : FieldMap) (managedFields : Option (List String))
    (ignoredFields : List String) (path : String) :
    (applyFieldPolicy fields managedFields ignoredFields).lookup path =
      if (managedFields.all fun managed => decide (path ∈ managed)) && decide (path ∉ ignoredFields)
      then fields.lookup path else none := by
  induction fields with
  | nil => simp [applyFieldPolicy]
  | cons field fields ih =>
    obtain ⟨k, v⟩ := field
    rw [applyFieldPolicy, List.filter_cons] at *
    by_cases hk : path = k
    · subst hk
      split
      · rename_i hallowed
        rw [List.lookup_cons_self, List.lookup_cons_self]
      · rename_i hallowed
        rw [ih, if_neg hallowed]
    · have hrest : List.lookup path ((k, v) :: fields) = List.lookup path fields := by
        rw [List.lookup_cons, beq_false_of_ne hk]
      rw [hrest, ← ih]
      split
      · rw [List.lookup_cons, beq_false_of_ne hk]
      · rfl

variable {path : String} {changes : List FieldChange} {obj desired : PyFields}
  {change : FieldChange} {ignoredFields : List String} {managedFields : Option (List String)}
  {oldDesired : Option FieldMap}

theorem mem_compareManagedFields {live newDesired : FieldMap}
    (h : change ∈ compareManagedFields oldDesired live newDesired managedFields ignoredFields) :
    change.classification ≠ .noChange ∧
      change.classification = classifyFieldChange change.oldDesired change.live change.newDesired ∧
        change.live = (live.lookup change.fieldPath).getD (.str missingText) ∧
          change.newDesired = (newDesired.lookup change.fieldPath).getD (.str missingText) := by
  rw [compareManagedFields, comparedFields, List.mem_filter] at h
  obtain ⟨hmem, hchanged⟩ := h
  obtain ⟨path, hpath, rfl⟩ := List.mem_map.mp hmem
  -- a path that the comparison sees is one that the policy lets through
  have hallowed : ((managedFields.all fun managed => decide (path ∈ managed)) &&
      decide (path ∉ ignoredFields)) = true := by
    have hkeys : ∀ fields : FieldMap,
        path ∈ (applyFieldPolicy fields managedFields ignoredFields).map Prod.fst →
          ((managedFields.all fun managed => decide (path ∈ managed)) &&
            decide (path ∉ ignoredFields)) = true := by
      intro fields hmem
      obtain ⟨field, hfield, rfl⟩ := List.mem_map.mp hmem
      exact (List.mem_filter.mp hfield).2
    rw [mem_sortedPaths, List.mem_append, List.mem_append] at hpath
    rcases hpath with (hpath | hpath) | hpath
    · cases oldDesired with
      | none => cases hpath
      | some fields => exact hkeys fields hpath
    · exact hkeys live hpath
    · exact hkeys newDesired hpath
  refine ⟨of_decide_eq_true hchanged, rfl, ?_, ?_⟩
  · simp only [fieldChange, valueOrMissing, Option.getD_some]
    rw [lookup_applyFieldPolicy, if_pos hallowed]
  · simp only [fieldChange, valueOrMissing, Option.getD_some]
    rw [lookup_applyFieldPolicy, if_pos hallowed]

theorem nodup_fieldPaths (oldDesired : Option FieldMap) (live newDesired : FieldMap)
    (managedFields : Option (List String)) (ignoredFields : List String) :
    ((compareManagedFields oldDesired live newDesired managedFields ignoredFields).map
      FieldChange.fieldPath).Nodup := by
  rw [compareManagedFields, comparedFields]
  refine List.Nodup.sublist (List.filter_sublist.map _) ?_
  rw [List.map_map]
  have hid : FieldChange.fieldPath ∘ fieldChange
      (oldDesired.map fun fields => applyFieldPolicy fields managedFields ignoredFields)
      (applyFieldPolicy live managedFields ignoredFields)
      (applyFieldPolicy newDesired managedFields ignoredFields) = id := rfl
  rw [hid, List.map_id, sortedPaths, (List.perm_insertionSort _ _).nodup_iff]
  exact List.nodup_dedup _

/-! ## What the slots read -/

variable {texts : PyTexts}

theorem managedField_eq (obj : PyFields) (path : String) :
    managedField texts obj path = Slots.read (slotsOf texts obj) path :=
  lookup_extractManagedFields obj path

variable {live fields : PyFields} {value : PyValue} {kind : String}

theorem wellKeyed_lookup (h : (PyValue.dict fields).WellKeyed) {key : String}
    (hlookup : fields.lookup key = some value) : value.WellKeyed :=
  PyValue.wellKeyedFields_iff.mp h.2 (key, value) (PyValue.mem_of_lookup hlookup)

theorem wellKeyed_mapping (h : (PyValue.dict fields).WellKeyed) (key : String) :
    (PyValue.dict (mappingAt fields key)).WellKeyed := by
  rw [mappingAt_eq]
  cases hchild : dictField fields key with
  | none => exact ⟨List.nodup_nil, trivial⟩
  | some child => exact wellKeyed_lookup h (lookup_of_dictField hchild)

theorem wellKeyed_listItems (h : (PyValue.dict fields).WellKeyed) {key : String} {item : PyValue}
    (hitem : item ∈ listItems (fields.lookup key)) : item.WellKeyed := by
  rw [listItems] at hitem
  cases hlookup : fields.lookup key with
  | none =>
    rw [hlookup] at hitem
    cases hitem
  | some value =>
    rw [hlookup] at hitem
    cases value with
    | list items =>
      have hitems : PyValue.WellKeyedItems items := wellKeyed_lookup h hlookup
      clear hlookup
      simp only [Option.bind_some, PyValue.list?, Option.getD_some] at hitem
      induction items with
      | nil => cases hitem
      | cons first items ih =>
        rcases List.mem_cons.mp hitem with rfl | hitem
        · exact hitems.1
        · exact ih hitem hitems.2
    | _ => cases hitem

/-- A slot holds a field of the object or of one of its parts. -/
theorem wellKeyed_slot (h : (PyValue.dict obj).WellKeyed) {slot : Slot String PyValue}
    (hslot : slot ∈ slotsOf texts obj) (hvalue : slot.value = some value) :
    value.WellKeyed := by
  have hspec : (PyValue.dict (mappingAt obj "spec")).WellKeyed := wellKeyed_mapping h "spec"
  have hpod : (PyValue.dict (podSpecOf obj)).WellKeyed :=
    wellKeyed_mapping (wellKeyed_mapping hspec "template") "spec"
  have hspecSlots : ∀ keys, slot ∈ specSlots keys obj → value.WellKeyed := by
    intro keys hslot
    obtain ⟨key, -, -, -, hfield⟩ := mem_specSlots hslot
    exact wellKeyed_lookup hspec (hfield.symm.trans hvalue)
  have hlistSlots : ∀ list keys, slot ∈ listSlots texts list keys obj → value.WellKeyed := by
    intro list keys hslot
    obtain ⟨fields, key, -, hitem, -, -, hfield⟩ := mem_listSlots hslot
    exact wellKeyed_lookup (wellKeyed_listItems hpod hitem) (hfield.symm.trans hvalue)
  simp only [slotsOf] at hslot
  split at hslot
  · rcases List.mem_append.mp hslot with hslot | hslot
    · rcases List.mem_append.mp hslot with hslot | hslot
      · exact hspecSlots _ hslot
      · exact hlistSlots _ _ hslot
    · exact hlistSlots _ _ hslot
  · split at hslot
    · exact hspecSlots _ hslot
    · split at hslot
      · obtain ⟨key, -, rfl⟩ := List.mem_map.mp hslot
        exact wellKeyed_lookup h hvalue
      · cases hslot

theorem wellKeyed_managedField (h : (PyValue.dict obj).WellKeyed)
    (hfield : managedField texts obj path = some value) : value.WellKeyed := by
  rw [managedField_eq] at hfield
  obtain ⟨slot, hslot, -, hvalue⟩ := exists_of_read hfield
  exact wellKeyed_slot h hslot hvalue

theorem managedPath_of_managedField (h : managedField texts obj path ≠ none) :
    ManagedPath (kindOf texts obj) path ∧
      ∀ list keys name key, ItemList list keys → key ∈ keys → path = itemBase list name ++ key →
        name ∈ itemNames texts obj := by
  obtain ⟨value, hvalue⟩ := Option.ne_none_iff_exists'.mp h
  rw [managedField_eq] at hvalue
  obtain ⟨slot, hslot, rfl, -⟩ := exists_of_read hvalue
  refine ⟨managedPath_reads hslot, fun list keys name key hlist hkey hpath => ?_⟩
  obtain ⟨list', keys', key', fields, hlist', hkey', hkind, hitem, hreads, -⟩ |
    ⟨hsame, -, hother⟩ := mem_slotsOf hslot
  · rw [hreads] at hpath
    have hinj := itemPath_inj hlist'.plain.1 hlist.plain.1 (hlist'.plain.2 key' hkey')
      (hlist.plain.2 key hkey) hpath
    rw [itemNames, if_pos hkind, ← hinj.2.1]
    refine List.mem_map.mpr ⟨.dict fields, ?_, rfl⟩
    rcases hlist' with ⟨rfl, -⟩ | ⟨rfl, -⟩
    · exact List.mem_append_left _ hitem
    · exact List.mem_append_right _ hitem
  · exact absurd (hpath.symm.trans hsame) (hother list name key)

theorem ManagedPath.ne_empty (h : ManagedPath kind path) : path ≠ "" := by
  have hconfigMap : ∀ key ∈ configMapKeys, "" ++ key ≠ "" := by decide +kernel
  have hservice : ∀ key ∈ serviceKeys, "spec." ++ key ≠ "" := by decide +kernel
  cases h with
  | replicas => decide
  | item _ _ =>
    intro h
    have hchars := congrArg String.toList h
    rw [toList_itemPath] at hchars
    simp at hchars
  | service hkey => exact hservice _ hkey
  | configMap hkey => exact hconfigMap _ hkey

theorem ManagedPath.kind_ne (h : ManagedPath kind path) : kind ≠ "" := by
  cases h with
  | replicas => decide
  | item => decide
  | service => decide
  | configMap => decide

theorem splits_iff {names : List String} :
    (∀ name ∈ names, ∀ list keys key, ItemList list keys → key ∈ keys →
      splitFieldPath (itemBase list name ++ key) =
          ["spec", "template", "spec", itemPart list name, key] ∧
        parseListSelector (itemPart list name) = some (list, "name", name)) ↔
      ∀ name ∈ names, Enclosed name := by
  refine forall₂_congr fun name _ => ⟨fun h => ?_, fun h list keys key hlist hkey => ?_⟩
  · have hkey : "image" ∈ containerKeys := List.mem_cons_self
    exact (splitFieldPath_item_iff itemList_containers.plain.1
      (itemList_containers.plain.2 _ hkey)).mp (h _ _ _ itemList_containers hkey).1
  · exact ⟨(splitFieldPath_item_iff hlist.plain.1 (hlist.plain.2 key hkey)).mpr h,
      parseListSelector_itemPart hlist.plain.1 name⟩

theorem pending_change (hlive : (PyValue.dict live).WellKeyed)
    (h : change ∈ pendingChanges (compareManagedFields oldDesired (extractManagedFields texts live)
      (extractManagedFields texts desired) managedFields ignoredFields)) :
    managedField texts desired change.fieldPath ≠ rolledBack change.before ∧
      (managedField texts desired change.fieldPath ≠ none ∨
        managedField texts live change.fieldPath ≠ none) := by
  obtain ⟨hmem, hpending⟩ := List.mem_filter.mp h
  obtain ⟨hchanged, hclass, hbefore, hnew⟩ := mem_compareManagedFields hmem
  have huncovered : change.newDesired.covers change.live = false := by
    rw [← classifyFieldChange_isDone change.oldDesired, ← hclass]
    cases hc : change.classification with
    | noChange => exact absurd hc hchanged
    | alreadyConverged => exact absurd hc (of_decide_eq_true hpending)
    | _ => rfl
  have hmissing : (PyValue.str missingText).covers (.str missingText) = true :=
    PyValue.covers_str_iff.mpr rfl
  change change.newDesired = (managedField texts desired change.fieldPath).getD _ at hnew
  change change.live = (managedField texts live change.fieldPath).getD _ at hbefore
  constructor
  · intro hsame
    rw [rolledBack] at hsame
    split at hsame
    · rename_i heq
      have hlive' : change.live = .str missingText := PyValue.eq_str_right_iff.mp heq
      rw [hsame, Option.getD_none] at hnew
      rw [hnew, hlive', hmissing] at huncovered
      cases huncovered
    · rename_i hne
      rw [hsame, Option.getD_some] at hnew
      change change.newDesired = change.live at hnew
      rw [hnew] at huncovered
      have hwell : change.live.WellKeyed := by
        cases hfield : managedField texts live change.fieldPath with
        | none =>
          rw [hbefore, hfield]
          trivial
        | some value =>
          rw [hbefore, hfield]
          exact wellKeyed_managedField hlive hfield
      rw [PyValue.covers_self _ hwell] at huncovered
      cases huncovered
  · by_contra hnone
    rw [not_or, not_not, not_not] at hnone
    rw [hnew, hbefore, hnone.1, hnone.2, Option.getD_none, hmissing] at huncovered
    cases huncovered

/-! ## The loop -/

theorem isSome_applyParts (value other parent : PyValue) (parts : List String) :
    (applyParts texts value parent parts).isSome = (applyParts texts other parent parts).isSome := by
  induction parts generalizing parent with
  | nil => rfl
  | cons part parts ih =>
    cases parts with
    | nil =>
      rw [applyParts, applyParts]
      unfold setManifestValue
      split
      · split <;> rfl
      · split <;> rfl
    | cons part' parts =>
      rw [applyParts, applyParts]
      cases descendManifestPath texts parent part with
      | none => rfl
      | some child =>
        have hchild := ih child
        cases hvalue : applyParts texts value child (part' :: parts) with
        | none =>
          rw [hvalue, Option.isSome_none, eq_comm, Option.isSome_eq_false_iff,
            Option.isNone_iff_eq_none] at hchild
          simp [hvalue, hchild]
        | some changed =>
          rw [hvalue, Option.isSome_some, eq_comm, Option.isSome_iff_exists] at hchild
          obtain ⟨changed', hother⟩ := hchild
          simp [hvalue, hother]

theorem leads_eq_false_iff (value : PyValue) :
    leads texts obj path = false ↔ applyRollbackValue texts (.dict obj) path value = none := by
  rw [leads, applyRollbackValue, isSome_applyParts .none value, Option.isSome_eq_false_iff,
    Option.isNone_iff_eq_none]
  rfl

/-- A change that the loop looks at. -/
def Asks (change : FieldChange) : Prop :=
  change.classification ≠ .alreadyConverged ∧ change.fieldPath ≠ ""

theorem rollbackStep_eq (h : Asks change) (manifest : PyValue) (applied : Bool) :
    rollbackStep texts (manifest, applied) change =
      ((applyRollbackValue texts manifest change.fieldPath change.before).getD manifest,
        applied || (applyRollbackValue texts manifest change.fieldPath change.before).isSome) := by
  rw [rollbackStep, if_neg (not_or.mpr h)]
  cases applyRollbackValue texts manifest change.fieldPath change.before with
  | none => simp
  | some changed => simp

theorem foldl_pendingChanges (changes : List FieldChange) (state : PyValue × Bool) :
    changes.foldl (rollbackStep texts) state =
      (pendingChanges changes).foldl (rollbackStep texts) state := by
  induction changes generalizing state with
  | nil => rfl
  | cons change changes ih =>
    rw [pendingChanges, List.filter_cons, List.foldl_cons]
    split
    · exact ih _
    · rename_i hconverged
      have hskip : rollbackStep texts state change = state := by
        rw [rollbackStep, if_pos (.inl (by simpa using hconverged))]
      rw [hskip]
      exact ih _

theorem run_of_unreached {applied : Bool}
    (h : ∀ change ∈ changes, Asks change ∧ leads texts obj change.fieldPath = false) :
    changes.foldl (rollbackStep texts) (.dict obj, applied) = (.dict obj, applied) := by
  induction changes with
  | nil => rfl
  | cons change changes ih =>
    obtain ⟨hasks, hnone⟩ := h change List.mem_cons_self
    rw [List.foldl_cons, rollbackStep_eq hasks, (leads_eq_false_iff _).mp hnone]
    simpa using ih fun c hc => h c (List.mem_cons_of_mem change hc)

variable (texts) in
theorem run_managed (obj : PyFields) (applied : Bool)
    (h : ∀ change ∈ changes, Asks change ∧ ManagedPath (kindOf texts obj) change.fieldPath ∧
      EnclosedPath change.fieldPath) :
    ∃ obj' reached, changes.foldl (rollbackStep texts) (.dict obj, applied) =
        (.dict obj', reached) ∧
      slotsOf texts obj' = writeAll (slotsOf texts obj)
        (changes.map fun change => (change.fieldPath, rolledBack change.before)) := by
  induction changes generalizing obj applied with
  | nil => exact ⟨obj, applied, rfl, rfl⟩
  | cons change changes ih =>
    obtain ⟨hasks, hmanaged, henclosed⟩ := h change List.mem_cons_self
    rw [List.foldl_cons, rollbackStep_eq hasks, List.map_cons, writeAll, List.foldl_cons]
    obtain ⟨hmem, happly⟩ | ⟨-, obj', happly, hkind, hslots⟩ :=
      applyRollbackValue_managed hmanaged henclosed change.before
    · rw [happly, write_of_not_mem hmem, Option.getD_none]
      exact ih _ _ fun c hc => h c (List.mem_cons_of_mem change hc)
    · rw [happly, ← hslots, Option.getD_some]
      refine ih _ _ fun c hc => ?_
      rw [kindOf_congr hkind]
      exact h c (List.mem_cons_of_mem change hc)

theorem setField_ne_nil (fields : PyFields) (key : String) (value : PyValue) :
    PyValue.setField fields key value ≠ [] := by
  intro h
  have hlookup := PyValue.lookup_setField fields key value key
  rw [h, if_pos rfl] at hlookup
  cases hlookup

theorem applyRollbackValue_any (hpath : ManagedPath kind path) (henclosed : EnclosedPath path)
    (hkept : rolledBack value = none → obj.lookup "kind" ≠ none) {manifest : PyValue}
    (happly : applyRollbackValue texts (.dict obj) path value = some manifest) :
    ∃ obj', manifest = .dict obj' ∧ obj' ≠ [] ∧ obj'.lookup "kind" = obj.lookup "kind" := by
  have hspec : ∀ {key : String}, Plain key →
      applyRollbackValue texts (.dict obj) ("spec." ++ key) value = some manifest →
        ∃ obj', manifest = .dict obj' ∧ obj' ≠ [] ∧ obj'.lookup "kind" = obj.lookup "kind" := by
    intro key hkey happly
    rw [applyRollbackValue_spec hkey] at happly
    obtain ⟨spec, -, rfl⟩ := Option.map_eq_some_iff.mp happly
    refine ⟨_, rfl, setField_ne_nil _ _ _, ?_⟩
    rw [PyValue.lookup_setField, if_neg (by decide)]
  cases hpath with
  | replicas => exact hspec plain_replicas happly
  | service hkey => exact hspec (plain_serviceKeys _ hkey) happly
  | item hlist hkey =>
    rw [applyRollbackValue_item hlist.plain.1 (hlist.plain.2 _ hkey)
      (henclosed _ _ _ _ hlist hkey rfl)] at happly
    obtain ⟨chain, -, happly⟩ := Option.bind_eq_some_iff.mp happly
    obtain ⟨items, -, happly⟩ := Option.bind_eq_some_iff.mp happly
    obtain ⟨item, -, rfl⟩ := Option.map_eq_some_iff.mp happly
    exact ⟨_, rfl, setField_ne_nil _ _ _, lookup_kind_withPodSpec ..⟩
  | @configMap key hkey =>
    have hplain := plain_configMapKeys key hkey
    have hempty : "" ++ key = key := String.toList_inj.mp (by simp)
    rw [applyRollbackValue, hempty, hplain.splitFieldPath, applyParts_last hplain] at happly
    cases happly
    have hkind : (PyValue.putField obj key (rolledBack value)).lookup "kind" =
        obj.lookup "kind" := by
      rw [PyValue.lookup_putField, if_neg fun (h : "kind" = key) => by
        rw [← h] at hkey; revert hkey; decide]
    refine ⟨_, rfl, ?_, hkind⟩
    cases hrolled : rolledBack value with
    | none =>
      intro hnil
      rw [hrolled, hnil] at hkind
      exact hkept hrolled hkind.symm
    | some v => exact setField_ne_nil _ _ _

theorem run_any (obj : PyFields) (applied : Bool)
    (h : ∀ change ∈ changes, Asks change ∧ (∃ kind, ManagedPath kind change.fieldPath) ∧
      EnclosedPath change.fieldPath ∧
        (rolledBack change.before = none → obj.lookup "kind" ≠ none)) (hobj : obj ≠ [])
    (hreached : applied = true ∨ ∃ change ∈ changes, leads texts obj change.fieldPath = true) :
    ∃ obj', changes.foldl (rollbackStep texts) (.dict obj, applied) = (.dict obj', true) ∧
      obj' ≠ [] ∧ obj'.lookup "kind" = obj.lookup "kind" := by
  induction changes generalizing obj applied with
  | nil =>
    obtain happlied | ⟨change, hchange, -⟩ := hreached
    · exact ⟨obj, by rw [happlied]; rfl, hobj, rfl⟩
    · cases hchange
  | cons change changes ih =>
    obtain ⟨hasks, ⟨kind, hmanaged⟩, henclosed, hkept⟩ := h change List.mem_cons_self
    rw [List.foldl_cons, rollbackStep_eq hasks]
    cases happly : applyRollbackValue texts (.dict obj) change.fieldPath change.before with
    | none =>
      refine ih _ _ (fun c hc => h c (List.mem_cons_of_mem change hc)) hobj ?_
      rw [Option.isSome_none, Bool.or_false]
      refine hreached.imp_right ?_
      rintro ⟨c, hc, hleads⟩
      rcases List.mem_cons.mp hc with rfl | hc
      · rw [(leads_eq_false_iff _).mpr happly] at hleads
        cases hleads
      · exact ⟨c, hc, hleads⟩
    | some manifest =>
      obtain ⟨obj', rfl, hne, hkind⟩ := applyRollbackValue_any hmanaged henclosed hkept happly
      rw [Option.getD_some, Option.isSome_some, Bool.or_true]
      obtain ⟨obj'', hrun, hne', hkind'⟩ := ih obj' true (fun c hc => by
        rw [hkind]
        exact h c (List.mem_cons_of_mem change hc)) hne (.inl rfl)
      exact ⟨obj'', hrun, hne', hkind'.trans hkind⟩

/-! ## The rollback manifest -/

theorem buildRollbackManifest_of_run {obj' : PyFields} (hdesired : desired ≠ [])
    (hchanges : changes ≠ []) {applied : Bool}
    (hrun : (pendingChanges changes).foldl (rollbackStep texts)
      (.dict desired, false) = (.dict obj', applied)) :
    buildRollbackManifest texts desired changes = if applied = true then obj' else [] := by
  rw [buildRollbackManifest, if_neg (not_or.mpr ⟨hdesired, hchanges⟩), foldl_pendingChanges, hrun]
  rfl

theorem pending_managed (hlive : (PyValue.dict live).WellKeyed)
    (hnames : ∀ name ∈ itemNames texts desired ++ itemNames texts live, Enclosed name)
    (h : change ∈ pendingChanges (compareManagedFields oldDesired (extractManagedFields texts live)
      (extractManagedFields texts desired) managedFields ignoredFields)) :
    Asks change ∧ (∃ kind, ManagedPath kind change.fieldPath) ∧ EnclosedPath change.fieldPath ∧
      (rolledBack change.before = none → desired.lookup "kind" ≠ none) := by
  obtain ⟨hne, hfield⟩ := pending_change hlive h
  have hpath : ∃ obj, (obj = desired ∨ obj = live) ∧
      managedField texts obj change.fieldPath ≠ none := by
    rcases hfield with hfield | hfield
    · exact ⟨desired, .inl rfl, hfield⟩
    · exact ⟨live, .inr rfl, hfield⟩
  obtain ⟨obj, hobj, hfield⟩ := hpath
  obtain ⟨hmanaged, hitem⟩ := managedPath_of_managedField hfield
  refine ⟨⟨of_decide_eq_true (List.mem_filter.mp h).2, hmanaged.ne_empty⟩, ⟨_, hmanaged⟩,
    fun list keys name key hlist hkey he => hnames name ?_, fun hnone hkind => ?_⟩
  · rcases hobj with rfl | rfl
    · exact List.mem_append_left _ (hitem _ _ _ _ hlist hkey he)
    · exact List.mem_append_right _ (hitem _ _ _ _ hlist hkey he)
  · -- to remove a field is to remove one that the manifest has, so it has a kind
    rw [hnone] at hne
    obtain ⟨hmanaged', -⟩ := managedPath_of_managedField hne
    rw [kindOf, textAt, hkind] at hmanaged'
    exact hmanaged'.kind_ne rfl

theorem RollsBack.of_restorable (hpaths : (changes.map FieldChange.fieldPath).Nodup)
    (hne : ∀ change ∈ pendingChanges changes,
      managedField texts desired change.fieldPath ≠ rolledBack change.before)
    (hmanaged : ∀ change ∈ pendingChanges changes, Asks change ∧ EnclosedPath change.fieldPath)
    (h : Restorable texts desired live changes) : RollsBack texts desired live changes := by
  have hback : buildRollbackManifest texts desired changes ≠ [] →
      ReadsBack (slotsOf texts desired) ((pendingChanges changes).map fun change =>
          (change.fieldPath, rolledBack change.before)) ∧
        slotsOf texts (buildRollbackManifest texts desired changes) =
          writeAll (slotsOf texts desired) ((pendingChanges changes).map fun change =>
            (change.fieldPath, rolledBack change.before)) := by
    intro hresult
    have hdesired : desired ≠ [] := fun hnil =>
      hresult (by rw [buildRollbackManifest, if_pos (.inl hnil)])
    have hchanges : changes ≠ [] := fun hnil =>
      hresult (by rw [buildRollbackManifest, if_pos (.inr hnil)])
    have haddressed : ∀ change ∈ pendingChanges changes,
        Addressed (slotsOf texts desired) change.fieldPath (rolledBack change.before) := by
      rcases h.reached with hnil | hnone | haddressed
      · exact absurd hnil hdesired
      · have hrun : (pendingChanges changes).foldl (rollbackStep texts) (.dict desired, false) =
            (.dict desired, false) := run_of_unreached fun change hchange =>
          ⟨(hmanaged change hchange).1, hnone change hchange⟩
        exact absurd (buildRollbackManifest_of_run hdesired hchanges hrun) hresult
      · exact haddressed
    -- an addressed path is one of the kind of the manifest
    obtain ⟨obj', applied, hrun, hslots⟩ := run_managed texts desired false
      fun change hchange => by
        obtain ⟨i, slot, hslot, -, hreads, -⟩ := haddressed change hchange
        refine ⟨(hmanaged change hchange).1, ?_, (hmanaged change hchange).2⟩
        rw [← hreads]
        exact managedPath_reads (List.mem_of_getElem? hslot)
    have hbuild := buildRollbackManifest_of_run hdesired hchanges hrun
    cases applied with
    | false => exact absurd hbuild hresult
    | true =>
      rw [hbuild, if_pos rfl]
      refine ⟨(readsBack_iff (straight_slotsOf desired) ?_ ?_).mpr ?_, hslots⟩
      · rw [List.map_map]
        exact hpaths.sublist (List.filter_sublist.map _)
      · rintro entry hentry
        obtain ⟨change, hchange, rfl⟩ := List.mem_map.mp hentry
        rw [← managedField_eq]
        exact hne change hchange
      · rintro entry hentry
        obtain ⟨change, hchange, rfl⟩ := List.mem_map.mp hentry
        exact haddressed change hchange
  refine ⟨splits_iff.mpr h.enclosed, fun hresult change hchange hpending => ?_,
    fun hresult path hpath => ?_⟩
  · obtain ⟨hread, hslots⟩ := hback hresult
    rw [managedField_eq, hslots]
    exact hread.written (change.fieldPath, rolledBack change.before) (List.mem_map.mpr
      ⟨change, List.mem_filter.mpr ⟨hchange, decide_eq_true hpending⟩, rfl⟩)
  · obtain ⟨hread, hslots⟩ := hback hresult
    rw [managedField_eq, managedField_eq, hslots]
    refine hread.kept path fun hmem => ?_
    rw [List.map_map] at hmem
    obtain ⟨change, hchange, he⟩ := List.mem_map.mp hmem
    obtain ⟨hmem', hpending⟩ := List.mem_filter.mp hchange
    exact hpath change hmem' (of_decide_eq_true hpending) he

theorem Restorable.of_rollsBack (hpaths : (changes.map FieldChange.fieldPath).Nodup)
    (hne : ∀ change ∈ pendingChanges changes,
      managedField texts desired change.fieldPath ≠ rolledBack change.before)
    (hmanaged : ∀ change ∈ pendingChanges changes, Asks change ∧
      (∃ kind, ManagedPath kind change.fieldPath) ∧ EnclosedPath change.fieldPath ∧
        (rolledBack change.before = none → desired.lookup "kind" ≠ none))
    (h : RollsBack texts desired live changes) : Restorable texts desired live changes := by
  refine ⟨splits_iff.mp h.splits, ?_⟩
  by_cases hdesired : desired = []
  · exact .inl hdesired
  by_cases hnone : ∀ change ∈ pendingChanges changes, leads texts desired change.fieldPath = false
  · exact .inr (.inl hnone)
  refine .inr (.inr ?_)
  have hreached : ∃ change ∈ pendingChanges changes,
      leads texts desired change.fieldPath = true := by
    by_contra hno
    refine hnone fun change hchange => ?_
    rw [← Bool.not_eq_true]
    exact fun hleads => hno ⟨change, hchange, hleads⟩
  have hchanges : changes ≠ [] := by
    rintro rfl
    obtain ⟨change, hchange, -⟩ := hreached
    cases hchange
  -- something is applied, so the manifest is returned
  obtain ⟨obj', hrun, hobj', hkind⟩ := run_any desired false hmanaged hdesired (.inr hreached)
  have hbuild : buildRollbackManifest texts desired changes = obj' :=
    buildRollbackManifest_of_run hdesired hchanges hrun
  have hresult : buildRollbackManifest texts desired changes ≠ [] := by
    rw [hbuild]
    exact hobj'
  have hrestored : ∀ change ∈ pendingChanges changes,
      managedField texts obj' change.fieldPath = rolledBack change.before := by
    intro change hchange
    obtain ⟨hmem, hpending⟩ := List.mem_filter.mp hchange
    rw [← hbuild]
    exact h.restored hresult change hmem (of_decide_eq_true hpending)
  -- so every path is of the kind of the manifest
  have hown : ∀ change ∈ pendingChanges changes,
      ManagedPath (kindOf texts desired) change.fieldPath := by
    intro change hchange
    by_cases hfield : managedField texts desired change.fieldPath = none
    · have hsome : managedField texts obj' change.fieldPath ≠ none := by
        rw [hrestored change hchange]
        intro hnone
        exact hne change hchange (hfield.trans hnone.symm)
      obtain ⟨hpath, -⟩ := managedPath_of_managedField hsome
      rwa [kindOf_congr hkind] at hpath
    · exact (managedPath_of_managedField hfield).1
  obtain ⟨obj'', applied, hrun', hslots⟩ := run_managed texts desired false
    fun change hchange =>
      ⟨(hmanaged change hchange).1, hown change hchange, (hmanaged change hchange).2.2.1⟩
  rw [hrun] at hrun'
  cases hrun'
  have hback : ReadsBack (slotsOf texts desired) ((pendingChanges changes).map fun change =>
      (change.fieldPath, rolledBack change.before)) := by
    refine ⟨fun entry hentry => ?_, fun path hpath => ?_⟩
    · obtain ⟨change, hchange, rfl⟩ := List.mem_map.mp hentry
      rw [← hslots, ← managedField_eq]
      exact hrestored change hchange
    · rw [← hslots, ← managedField_eq, ← managedField_eq, ← hbuild]
      refine h.kept hresult path fun change hchange hpending he => hpath ?_
      rw [List.map_map]
      exact List.mem_map.mpr
        ⟨change, List.mem_filter.mpr ⟨hchange, decide_eq_true hpending⟩, he⟩
  intro change hchange
  refine (readsBack_iff (straight_slotsOf desired) ?_ ?_).mp hback
    (change.fieldPath, rolledBack change.before) (List.mem_map_of_mem hchange)
  · rw [List.map_map]
    exact hpaths.sublist (List.filter_sublist.map _)
  · rintro entry hentry
    obtain ⟨change, hchange, rfl⟩ := List.mem_map.mp hentry
    rw [← managedField_eq]
    exact hne change hchange

/-- **The rollback manifest rolls back exactly when the desired manifest has every place** that a
pending change leads to, or none of them. -/
theorem rollsBack_iff (texts : PyTexts) (oldDesired : Option FieldMap)
    (desired live : PyFields) (managedFields : Option (List String)) (ignoredFields : List String)
    (hlive : (PyValue.dict live).WellKeyed) :
    RollsBack texts desired live (compareManagedFields oldDesired (extractManagedFields texts live)
        (extractManagedFields texts desired) managedFields ignoredFields) ↔
      Restorable texts desired live (compareManagedFields oldDesired
        (extractManagedFields texts live) (extractManagedFields texts desired) managedFields
        ignoredFields) := by
  have hpaths := nodup_fieldPaths oldDesired (extractManagedFields texts live)
    (extractManagedFields texts desired) managedFields ignoredFields
  constructor
  · intro h
    exact .of_rollsBack hpaths (fun change hchange => (pending_change hlive hchange).1)
      (fun change hchange => pending_managed hlive (splits_iff.mp h.splits) hchange) h
  · intro h
    refine .of_restorable hpaths (fun change hchange => (pending_change hlive hchange).1)
      (fun change hchange => ?_) h
    obtain ⟨hasks, -, henclosed, -⟩ := pending_managed hlive h.enclosed hchange
    exact ⟨hasks, henclosed⟩

/-! ## A deployment -/

/-- The texts of strings only, which are all that is asked for below. -/
def sampleText : PyTexts := ⟨fun _ => "", id, id⟩

/-- A deployment of some containers, by their names and images. -/
def deploymentOf (containers : List (String × String)) : PyFields :=
  [("kind", .str "Deployment"), ("spec", .dict [("replicas", .int 1), ("template", .dict [("spec",
    .dict [("containers", .list (containers.map fun container =>
      .dict [("name", .str container.1), ("image", .str container.2)]))])])])]

/-- The changes from a deployment to another, as the cluster and Git have them. -/
def deploymentChanges (live desired : List (String × String)) : List FieldChange :=
  compareManagedFields (some (extractManagedFields sampleText (deploymentOf desired)))
    (extractManagedFields sampleText (deploymentOf live))
    (extractManagedFields sampleText (deploymentOf desired)) none []

/-- A changed image is put back. -/
theorem rollsBack_image :
    RollsBack sampleText (deploymentOf [("app", "web:1")]) (deploymentOf [("app", "web:2")])
        (deploymentChanges [("app", "web:2")] [("app", "web:1")]) ↔
      Restorable sampleText (deploymentOf [("app", "web:1")]) (deploymentOf [("app", "web:2")])
        (deploymentChanges [("app", "web:2")] [("app", "web:1")]) :=
  rollsBack_iff sampleText _ _ _ none [] (by
    simp [deploymentOf, PyValue.WellKeyed, PyValue.WellKeyedFields, PyValue.WellKeyedItems])

/-- **A container that only the cluster has is not put back**, and the manifest is returned. -/
theorem live_container_lost :
    ¬RollsBack sampleText (deploymentOf [("app", "web:1")])
      (deploymentOf [("app", "web:2"), ("proxy", "envoy:1")])
      (deploymentChanges [("app", "web:2"), ("proxy", "envoy:1")] [("app", "web:1")]) := by
  intro h
  have hlost : ((deploymentChanges [("app", "web:2"), ("proxy", "envoy:1")]
      [("app", "web:1")]).any fun change => change.classification ≠ .alreadyConverged &&
        (rolledBack change.before).isSome &&
        !(managedField sampleText (buildRollbackManifest sampleText
          (deploymentOf [("app", "web:1")])
          (deploymentChanges [("app", "web:2"), ("proxy", "envoy:1")] [("app", "web:1")]))
            change.fieldPath).isSome) = true := by
    decide +kernel
  have hresult : (buildRollbackManifest sampleText (deploymentOf [("app", "web:1")])
      (deploymentChanges [("app", "web:2"), ("proxy", "envoy:1")]
        [("app", "web:1")])).isEmpty = false := by
    decide +kernel
  obtain ⟨change, hchange, hcase⟩ := List.any_eq_true.mp hlost
  simp only [Bool.and_eq_true, decide_eq_true_eq, Bool.not_eq_true'] at hcase
  obtain ⟨⟨hpending, hsome⟩, hnone⟩ := hcase
  have hrestored := h.restored (by rwa [← List.isEmpty_eq_false_iff]) change hchange hpending
  rw [hrestored, hsome] at hnone
  cases hnone

end Opsia.Gitops
