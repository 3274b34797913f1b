import Opsia.Gitops.RollbackPaths
import Opsia.Lib.Slots

/-!
# The managed fields of an object as slots

What `extract_managed_fields` reads and what `apply_rollback_value` writes. A field of a container
is read under the name of the container, and written where its path leads, which is the first
container of that name; a container without a name is read as `unnamed` and found as the empty
texts. Of two containers of one name the extraction keeps the last.
-/

namespace Opsia.Gitops

open Slots

/-- The keys of a service that are managed. -/
def serviceKeys : List String := ["type", "selector", "ports"]

/-- The keys of a config map that are managed. -/
def configMapKeys : List String := ["data", "binaryData"]

/-- The items of a field, if it is a list. -/
def listItems (value : Option PyValue) : List PyValue := (value.bind PyValue.list?).getD []

/-- `pod_spec`. -/
def podSpecOf (obj : PyFields) : PyFields := mappingAt (mappingAt (mappingAt obj "spec") "template") "spec"

/-! ## Slots -/

/-- The slots of some keys, with the paths that they are read and written under. -/
def keySlots (reads writes : String) (keys : List String) (fields : PyFields) :
    List (Slot String PyValue) :=
  keys.map fun key => ⟨reads ++ key, writes ++ key, fields.lookup key⟩

section

variable (texts : PyTexts)

/-- The kind of an object. -/
def kindOf (obj : PyFields) : String := textAt texts obj "kind" ""

/-- The name of an item in a path. -/
def itemName (fields : PyFields) : String := textAt texts fields "name" "unnamed"

/-- The name that `descend_manifest_path` compares. -/
def soughtName (fields : PyFields) : String := textAt texts fields "name" ""

/-- The slots of a container or a volume. -/
def itemSlots (list : String) (keys : List String) : PyValue → List (Slot String PyValue)
  | .dict fields => keySlots (itemBase list (itemName texts fields))
      (itemBase list (soughtName texts fields)) keys fields
  | _ => []

/-- The slots of `spec`. -/
def specSlots (keys : List String) (obj : PyFields) : List (Slot String PyValue) :=
  ((dictField obj "spec").map (keySlots "spec." "spec." keys)).getD []

/-- The slots of the containers or the volumes. -/
def listSlots (list : String) (keys : List String) (obj : PyFields) : List (Slot String PyValue) :=
  (listItems ((podSpecOf obj).lookup list)).flatMap (itemSlots texts list keys)

/-- The slots of an object. -/
def slotsOf (obj : PyFields) : List (Slot String PyValue) :=
  let kind := kindOf texts obj
  if kind = "Deployment" then
    specSlots ["replicas"] obj ++ listSlots texts "containers" containerKeys obj ++
      listSlots texts "volumes" volumeKeys obj
  else if kind = "Service" then specSlots serviceKeys obj
  else if kind = "ConfigMap" then keySlots "" "" configMapKeys obj
  else []

end

/-! ## What is extracted -/

/-- The assignments that the slots with a value make, one after the other. -/
def assigned (fields : FieldMap) (slots : List (Slot String PyValue)) : FieldMap :=
  slots.foldl (fun fields slot =>
    match slot.value with
    | some value => PyValue.setField fields slot.reads value
    | none => fields) fields

theorem assigned_append (fields : FieldMap) (slots rest : List (Slot String PyValue)) :
    assigned fields (slots ++ rest) = assigned (assigned fields slots) rest := List.foldl_append

theorem copyKeys_eq (reads writes : String) (keys : List String) (source : PyFields)
    (fields : FieldMap) :
    copyKeys reads keys source fields = assigned fields (keySlots reads writes keys source) := by
  induction keys generalizing fields with
  | nil => rfl
  | cons key keys ih => exact ih _

/-- Nothing is copied from what is no mapping. -/
theorem copyKeys_nil (parent : String) (keys : List String) (fields : FieldMap) :
    copyKeys parent keys [] fields = fields := by
  rw [copyKeys]
  induction keys with
  | nil => rfl
  | cons key keys ih => exact ih

theorem copyKeys_spec (keys : List String) (obj : PyFields) (fields : FieldMap) :
    copyKeys "spec." keys (mappingAt obj "spec") fields = assigned fields (specSlots keys obj) := by
  rw [mappingAt_eq, specSlots]
  cases dictField obj "spec" with
  | none => exact copyKeys_nil _ _ _
  | some spec => exact copyKeys_eq _ _ _ _ _

variable {texts : PyTexts}

theorem copyItems_eq {parent list : String} (hparent : parent = "spec.template.spec." ++ list)
    (keys : List String) (obj : PyFields) (fields : FieldMap) :
    copyItems texts parent keys ((podSpecOf obj).lookup list) fields =
      assigned fields (listSlots texts list keys obj) := by
  rw [copyItems, listSlots, listItems]
  generalize (((podSpecOf obj).lookup list).bind PyValue.list?).getD [] = items
  induction items generalizing fields with
  | nil => rfl
  | cons item items ih =>
    rw [List.foldl_cons, ih, List.flatMap_cons, assigned_append, hparent]
    refine congrArg (assigned · _) ?_
    cases item with
    | dict item => exact copyKeys_eq _ _ _ _ _
    | _ => exact copyKeys_nil _ _ _

theorem lookup_assigned (fields : FieldMap) (slots : List (Slot String PyValue)) (k : String) :
    (assigned fields slots).lookup k = (Slots.read slots k).or (fields.lookup k) := by
  induction slots generalizing fields with
  | nil => rfl
  | cons slot slots ih =>
    rw [Slots.read, Option.or_assoc]
    refine (ih _).trans (congrArg _ ?_)
    cases hvalue : slot.value with
    | none => simp only [hvalue, ite_self, Option.none_or]
    | some value =>
      simp only [hvalue, PyValue.lookup_setField]
      by_cases hk : slot.reads = k
      · rw [if_pos hk.symm, if_pos hk, Option.some_or]
      · rw [if_neg (Ne.symm hk), if_neg hk, Option.none_or]

/-- **The extraction reads the slots.** -/
theorem lookup_extractManagedFields (obj : PyFields) (path : String) :
    (extractManagedFields texts obj).lookup path = Slots.read (slotsOf texts obj) path := by
  have hassigned : ∀ slots : List (Slot String PyValue),
      (assigned [] slots).lookup path = Slots.read slots path := by
    intro slots
    rw [lookup_assigned, List.lookup_nil, Option.or_none]
  have hdeployment : deploymentFields texts obj =
      assigned [] (specSlots ["replicas"] obj ++ listSlots texts "containers" containerKeys obj ++
        listSlots texts "volumes" volumeKeys obj) := by
    rw [assigned_append, assigned_append, ← copyKeys_spec,
      ← copyItems_eq (by decide +kernel : "spec.template.spec.volumes" = _),
      ← copyItems_eq (by decide +kernel : "spec.template.spec.containers" = _)]
    rfl
  have hkind : textAt texts obj "kind" "" = kindOf texts obj := rfl
  simp only [extractManagedFields, slotsOf, hkind]
  split
  · rw [hdeployment, hassigned]
  · split
    · rw [← hassigned, ← copyKeys_spec]
      rfl
    · split
      · rw [← hassigned, ← copyKeys_eq]
        rfl
      · rfl

/-! ## What is written -/

theorem mem_writes_keySlots {reads writes path : String} {keys : List String} {fields : PyFields} :
    path ∈ (keySlots reads writes keys fields).map Slot.writes ↔
      ∃ key ∈ keys, writes ++ key = path := by
  simp [keySlots]

theorem write_keySlots {reads writes key : String} {keys : List String} (hkeys : keys.Nodup)
    (hkey : key ∈ keys) (fields : PyFields) (v : Option PyValue) :
    write (keySlots reads writes keys fields) (writes ++ key) v =
      keySlots reads writes keys (PyValue.putField fields key v) := by
  induction keys with
  | nil => cases hkey
  | cons k keys ih =>
    rw [List.nodup_cons] at hkeys
    rw [keySlots, keySlots, List.map_cons, List.map_cons, write, PyValue.lookup_putField]
    by_cases hk : k = key
    · subst hk
      have hrest : ∀ k' ∈ keys,
          (⟨reads ++ k', writes ++ k', fields.lookup k'⟩ : Slot String PyValue) =
            ⟨reads ++ k', writes ++ k', (PyValue.putField fields k v).lookup k'⟩ := by
        intro k' hk'
        rw [PyValue.lookup_putField, if_neg fun (he : k' = k) => hkeys.1 (he ▸ hk')]
      rw [if_pos rfl, if_pos rfl, List.map_congr_left hrest]
    · have hmem : key ∈ keys := by
        rcases List.mem_cons.mp hkey with rfl | hmem
        · exact absurd rfl hk
        · exact hmem
      have hne : writes ++ k ≠ writes ++ key := fun he => hk ((String.append_right_inj _).mp he)
      rw [if_neg hne, if_neg hk]
      exact congrArg _ (ih hkeys.2 hmem)

theorem ItemList.keys {list : String} {keys : List String} (h : ItemList list keys) :
    keys.Nodup ∧ "name" ∉ keys := by
  rcases h with ⟨-, rfl⟩ | ⟨-, rfl⟩
  · decide +kernel
  · decide +kernel

theorem mem_writes_itemSlots {list keys} (h : ItemList list keys) {name key : String}
    (hkey : key ∈ keys) {item : PyValue} :
    itemBase list name ++ key ∈ (itemSlots texts list keys item).map Slot.writes ↔
      isSelected texts "name" name item = true := by
  obtain ⟨hlist, hkeys⟩ := h.plain
  cases item with
  | dict fields =>
    rw [itemSlots, mem_writes_keySlots, isSelected, decide_eq_true_eq]
    constructor
    · rintro ⟨k, hk, he⟩
      exact (itemPath_inj hlist hlist (hkeys k hk) (hkeys key hkey) he).2.1
    · intro hname
      refine ⟨key, hkey, ?_⟩
      rw [← hname]
      rfl
  | _ => simp [itemSlots, isSelected]

theorem mem_writes_items {list keys} (h : ItemList list keys) {name key : String}
    (hkey : key ∈ keys) {items : List PyValue} :
    itemBase list name ++ key ∈ (items.flatMap (itemSlots texts list keys)).map Slot.writes ↔
      (items.find? (isSelected texts "name" name)).isSome = true := by
  rw [List.map_flatMap, List.mem_flatMap, List.find?_isSome]
  exact exists_congr fun item => and_congr_right fun _ => mem_writes_itemSlots h hkey

theorem write_items {list keys} (h : ItemList list keys) {name key : String} (hkey : key ∈ keys)
    {items : List PyValue} {item : PyFields} (v : Option PyValue)
    (hfind : items.find? (isSelected texts "name" name) = some (.dict item)) :
    write (items.flatMap (itemSlots texts list keys)) (itemBase list name ++ key) v =
      (changeItem (isSelected texts "name" name) (.dict (PyValue.putField item key v)) items).flatMap
        (itemSlots texts list keys) := by
  induction items with
  | nil => cases hfind
  | cons first items ih =>
    rw [List.flatMap_cons, changeItem]
    rw [List.find?_cons] at hfind
    by_cases hselected : isSelected texts "name" name first = true
    · rw [hselected] at hfind
      cases hfind
      have hmem := (mem_writes_itemSlots h hkey).mpr hselected
      have hname : soughtName texts item = name := by simpa [isSelected, soughtName] using hselected
      have hkept : ∀ default, textAt texts (PyValue.putField item key v) "name" default =
          textAt texts item "name" default := by
        intro default
        rw [textAt, textAt, PyValue.lookup_putField,
          if_neg fun (he : "name" = key) => h.keys.2 (he ▸ hkey)]
      rw [if_pos hselected, write_append_of_mem hmem, List.flatMap_cons, itemSlots, itemSlots,
        itemName, itemName, soughtName, soughtName, hkept, hkept]
      rw [soughtName] at hname
      rw [hname, write_keySlots h.keys.1 hkey]
    · rw [Bool.not_eq_true] at hselected
      rw [hselected] at hfind
      have hmem : itemBase list name ++ key ∉ (itemSlots texts list keys first).map Slot.writes := by
        rw [mem_writes_itemSlots h hkey, hselected]
        simp
      rw [if_neg (by simp [hselected]), write_append_of_not_mem hmem, List.flatMap_cons, ih hfind]

/-! ## The object after a write -/

theorem dictField_setField (fields child : PyFields) (key key' : String) :
    dictField (PyValue.setField fields key (.dict child)) key' =
      if key' = key then some child else dictField fields key' := by
  rw [dictField, PyValue.lookup_setField]
  split
  · rfl
  · rfl

theorem kindOf_congr {obj obj' : PyFields} (h : obj'.lookup "kind" = obj.lookup "kind") :
    kindOf texts obj' = kindOf texts obj := by
  rw [kindOf, kindOf, textAt, textAt, h]

/-- The mappings on the way to the specification of a pod. -/
def podChain (obj : PyFields) : Option (PyFields × PyFields × PyFields) :=
  (dictField obj "spec").bind fun spec => (dictField spec "template").bind fun template =>
    (dictField template "spec").map fun pod => (spec, template, pod)

/-- The object with another specification of the pod. -/
def withPodSpec (obj spec template pod : PyFields) : PyFields :=
  PyValue.setField obj "spec" (.dict (PyValue.setField spec "template"
    (.dict (PyValue.setField template "spec" (.dict pod)))))

theorem podSpecOf_eq (obj : PyFields) : podSpecOf obj = (podChain obj).elim [] fun c => c.2.2 := by
  rw [podSpecOf, mappingAt_eq, mappingAt_eq, mappingAt_eq, podChain]
  cases dictField obj "spec" with
  | none => rfl
  | some spec =>
    rw [Option.getD_some, Option.bind_some]
    cases dictField spec "template" with
    | none => rfl
    | some template =>
      rw [Option.getD_some, Option.bind_some]
      cases dictField template "spec" with
      | none => rfl
      | some pod => rfl

theorem podChain_withPodSpec (obj spec template pod : PyFields) :
    podChain (withPodSpec obj spec template pod) =
      some (PyValue.setField spec "template" (.dict (PyValue.setField template "spec" (.dict pod))),
        PyValue.setField template "spec" (.dict pod), pod) := by
  simp [podChain, withPodSpec, dictField_setField]

theorem podSpecOf_withPodSpec (obj spec template pod : PyFields) :
    podSpecOf (withPodSpec obj spec template pod) = pod := by
  rw [podSpecOf_eq, podChain_withPodSpec]
  rfl

theorem lookup_kind_withPodSpec (obj spec template pod : PyFields) :
    (withPodSpec obj spec template pod).lookup "kind" = obj.lookup "kind" := by
  rw [withPodSpec, PyValue.lookup_setField, if_neg (by decide)]

theorem specSlots_withPodSpec {obj spec template : PyFields}
    (hspec : dictField obj "spec" = some spec) (pod : PyFields) {keys : List String} (hkeys : "template" ∉ keys) :
    specSlots keys (withPodSpec obj spec template pod) = specSlots keys obj := by
  rw [specSlots, specSlots, withPodSpec, dictField_setField, if_pos rfl, hspec, Option.map_some,
    Option.map_some, Option.getD_some, Option.getD_some, keySlots, keySlots]
  refine List.map_congr_left fun key hkey => ?_
  rw [PyValue.lookup_setField, if_neg fun (he : key = "template") => hkeys (he ▸ hkey)]

theorem plain_spec : Plain "spec" := by decide +kernel

theorem plain_template : Plain "template" := by decide +kernel

theorem applyRollbackValue_spec {key : String} (hkey : Plain key) (obj : PyFields)
    (value : PyValue) : applyRollbackValue texts (.dict obj) ("spec." ++ key) value =
      (dictField obj "spec").map fun spec =>
        .dict (PyValue.setField obj "spec"
          (.dict (PyValue.putField spec key (rolledBack value)))) := by
  rw [applyRollbackValue, splitFieldPath_spec hkey, applyParts_plain plain_spec]
  cases dictField obj "spec" with
  | none => rfl
  | some spec => rw [Option.bind_some, applyParts_last hkey]; rfl

theorem applyRollbackValue_item {list name key : String} (hlist : Plain list) (hkey : Plain key)
    (hname : Enclosed name) (obj : PyFields) (value : PyValue) :
    applyRollbackValue texts (.dict obj) (itemBase list name ++ key) value =
      (podChain obj).bind fun c => ((c.2.2.lookup list).bind PyValue.list?).bind fun items =>
        ((items.find? (isSelected texts "name" name)).bind PyValue.dict?).map fun item =>
          .dict (withPodSpec obj c.1 c.2.1 (PyValue.setField c.2.2 list
            (.list (changeItem (isSelected texts "name" name)
              (.dict (PyValue.putField item key (rolledBack value))) items)))) := by
  rw [applyRollbackValue, (splitFieldPath_item_iff hlist hkey).mpr hname,
    applyParts_plain plain_spec, podChain]
  cases dictField obj "spec" with
  | none => rfl
  | some spec =>
    rw [Option.bind_some, Option.bind_some, applyParts_plain plain_template]
    cases dictField spec "template" with
    | none => rfl
    | some template =>
      rw [Option.bind_some, Option.bind_some, applyParts_plain plain_spec]
      cases dictField template "spec" with
      | none => rfl
      | some pod =>
        rw [Option.bind_some, Option.map_some, Option.bind_some, applyParts_item hlist hkey]
        cases (pod.lookup list).bind PyValue.list? with
        | none => rfl
        | some items =>
          rw [Option.bind_some, Option.bind_some]
          cases (items.find? (isSelected texts "name" name)).bind PyValue.dict? with
          | none => rfl
          | some item => rfl

/-! ## Managed paths -/

/-- The paths of the managed fields of a kind, with the names of items in them enclosed. -/
inductive ManagedPath : String → String → Prop
  | replicas : ManagedPath "Deployment" ("spec." ++ "replicas")
  | item {list keys name key} : ItemList list keys → key ∈ keys →
      ManagedPath "Deployment" (itemBase list name ++ key)
  | service {key} : key ∈ serviceKeys → ManagedPath "Service" ("spec." ++ key)
  | configMap {key} : key ∈ configMapKeys → ManagedPath "ConfigMap" ("" ++ key)

/-- The name in a path, if any, is enclosed. -/
def EnclosedPath (path : String) : Prop :=
  ∀ list keys name key, ItemList list keys → key ∈ keys → path = itemBase list name ++ key →
    Enclosed name

variable {key list name : String} {obj : PyFields} {slot : Slot String PyValue}

theorem plain_serviceKeys : ∀ key ∈ serviceKeys, Plain key := by decide +kernel

theorem plain_configMapKeys : ∀ key ∈ configMapKeys, Plain key := by decide +kernel

theorem mem_listSlots {keys : List String} (h : slot ∈ listSlots texts list keys obj) :
    ∃ fields key, key ∈ keys ∧ .dict fields ∈ listItems ((podSpecOf obj).lookup list) ∧
      slot.reads = itemBase list (itemName texts fields) ++ key ∧
        slot.writes = itemBase list (soughtName texts fields) ++ key ∧
          slot.value = fields.lookup key := by
  obtain ⟨item, hitem, hslot⟩ := List.mem_flatMap.mp h
  cases item with
  | dict fields =>
    obtain ⟨key, hkey, rfl⟩ := List.mem_map.mp hslot
    exact ⟨fields, key, hkey, hitem, rfl, rfl, rfl⟩
  | _ => cases hslot

theorem mem_specSlots {keys : List String} (h : slot ∈ specSlots keys obj) :
    ∃ key ∈ keys, slot.reads = "spec." ++ key ∧ slot.writes = "spec." ++ key ∧
      slot.value = (mappingAt obj "spec").lookup key := by
  rw [specSlots] at h
  rw [mappingAt_eq]
  cases hspec : dictField obj "spec" with
  | none =>
    rw [hspec] at h
    cases h
  | some spec =>
    rw [hspec] at h
    obtain ⟨key, hkey, rfl⟩ := List.mem_map.mp h
    exact ⟨key, hkey, rfl, rfl, rfl⟩

theorem itemList_containers : ItemList "containers" containerKeys := .inl ⟨rfl, rfl⟩

theorem itemList_volumes : ItemList "volumes" volumeKeys := .inr ⟨rfl, rfl⟩

theorem item_ne_spec {key' : String} (hkey' : Plain key') :
    itemBase list name ++ key ≠ "spec." ++ key' := by
  intro h
  have hchars := congrArg String.toList h
  have hbase : "spec.".toList = "spec".toList ++ ['.'] := by decide +kernel
  rw [toList_itemPath, String.toList_append, hbase, List.append_assoc,
    List.singleton_append] at hchars
  have hrest := (List.cons.inj (List.append_cancel_left hchars)).2
  refine (hkey'.2 '.' ?_).1 rfl
  rw [← hrest]
  simp

/-- Nor is it a field of the object itself. -/
theorem item_ne_key {key' : String} (hkey' : Plain key') :
    itemBase list name ++ key ≠ "" ++ key' := by
  intro h
  have hchars := congrArg String.toList h
  rw [toList_itemPath, String.toList_append] at hchars
  have hempty : "".toList = [] := by decide
  rw [hempty, List.nil_append] at hchars
  refine (hkey'.2 '.' ?_).1 rfl
  rw [← hchars]
  simp

theorem plain_replicas : Plain "replicas" := by decide +kernel

theorem mem_slotsOf (h : slot ∈ slotsOf texts obj) :
    (∃ list keys key fields, ItemList list keys ∧ key ∈ keys ∧ kindOf texts obj = "Deployment" ∧
        .dict fields ∈ listItems ((podSpecOf obj).lookup list) ∧
        slot.reads = itemBase list (itemName texts fields) ++ key ∧
          slot.writes = itemBase list (soughtName texts fields) ++ key) ∨
      slot.reads = slot.writes ∧ ManagedPath (kindOf texts obj) slot.writes ∧
        ∀ list name key, itemBase list name ++ key ≠ slot.writes := by
  rw [slotsOf] at h
  by_cases hdeployment : kindOf texts obj = "Deployment"
  · rw [if_pos hdeployment, List.mem_append, List.mem_append] at h
    rcases h with (h | h) | h
    · obtain ⟨key, hkey, hreads, hwrites, -⟩ := mem_specSlots h
      rw [List.mem_singleton] at hkey
      rw [hreads, hwrites, hkey, hdeployment]
      exact .inr ⟨rfl, .replicas, fun _ _ _ => item_ne_spec plain_replicas⟩
    · obtain ⟨fields, key, hkey, hitem, hreads, hwrites, -⟩ := mem_listSlots h
      exact .inl ⟨_, _, key, fields, itemList_containers, hkey, hdeployment, hitem, hreads, hwrites⟩
    · obtain ⟨fields, key, hkey, hitem, hreads, hwrites, -⟩ := mem_listSlots h
      exact .inl ⟨_, _, key, fields, itemList_volumes, hkey, hdeployment, hitem, hreads, hwrites⟩
  · rw [if_neg hdeployment] at h
    by_cases hservice : kindOf texts obj = "Service"
    · rw [if_pos hservice] at h
      obtain ⟨key, hkey, hreads, hwrites, -⟩ := mem_specSlots h
      rw [hreads, hwrites, hservice]
      exact .inr ⟨rfl, .service hkey, fun _ _ _ => item_ne_spec (plain_serviceKeys key hkey)⟩
    · rw [if_neg hservice] at h
      by_cases hconfigMap : kindOf texts obj = "ConfigMap"
      · rw [if_pos hconfigMap] at h
        obtain ⟨key, hkey, rfl⟩ := List.mem_map.mp h
        rw [hconfigMap]
        exact .inr ⟨rfl, .configMap hkey, fun _ _ _ => item_ne_key (plain_configMapKeys key hkey)⟩
      · rw [if_neg hconfigMap] at h
        cases h

theorem managedPath_reads (h : slot ∈ slotsOf texts obj) :
    ManagedPath (kindOf texts obj) slot.reads := by
  obtain ⟨list, keys, key, fields, hlist, hkey, hkind, -, hreads, -⟩ | ⟨heq, hpath, -⟩ :=
    mem_slotsOf h
  · rw [hkind, hreads]
    exact .item hlist hkey
  · rw [heq]
    exact hpath

/-- An item that is read under another name than it is found by is a nameless one. -/
theorem straight_slotsOf (obj : PyFields) : Straight (slotsOf texts obj) := by
  have hnames : ∀ fields : PyFields, itemName texts fields ≠ soughtName texts fields →
      itemName texts fields = "unnamed" ∧ soughtName texts fields = "" := by
    intro fields hne
    cases hlookup : fields.lookup "name" with
    | none => simp [itemName, soughtName, textAt, pyStr, hlookup]
    | some name => simp [itemName, soughtName, textAt, pyStr, hlookup] at hne
  intro s hs t ht hs' ht' heq
  obtain ⟨list, keys, key, fields, hlist, hkey, -, -, hreads, hwrites⟩ | ⟨hsame, -⟩ :=
    mem_slotsOf hs
  · obtain ⟨list', keys', key', fields', hlist', hkey', -, -, hreads', hwrites'⟩ | ⟨hsame, -⟩ :=
      mem_slotsOf ht
    · have hname : itemName texts fields ≠ soughtName texts fields := fun he =>
        hs' (by rw [hreads, hwrites, he])
      have hname' : itemName texts fields' ≠ soughtName texts fields' := fun he =>
        ht' (by rw [hreads', hwrites', he])
      rw [hreads, hwrites'] at heq
      have hinj := itemPath_inj hlist.plain.1 hlist'.plain.1 (hlist.plain.2 key hkey)
        (hlist'.plain.2 key' hkey') heq
      rw [(hnames fields hname).1, (hnames fields' hname').2] at hinj
      exact absurd hinj.2.1 (by decide)
    · exact ht' hsame
  · exact hs' hsame

/-! ## A write to a managed path -/

theorem item_not_mem_specSlots :
    itemBase list name ++ key ∉ (specSlots ["replicas"] obj).map Slot.writes := by
  intro h
  obtain ⟨slot, hslot, hwrites⟩ := List.mem_map.mp h
  obtain ⟨key', hkey', -, hwrites', -⟩ := mem_specSlots hslot
  rw [List.mem_singleton] at hkey'
  rw [hwrites', hkey'] at hwrites
  exact item_ne_spec plain_replicas hwrites.symm

theorem eq_of_mem_listSlots {list' : String} {keys keys' : List String} (h : ItemList list keys)
    (h' : ItemList list' keys') (hkey : key ∈ keys)
    (hmem : itemBase list name ++ key ∈ (listSlots texts list' keys' obj).map Slot.writes) :
    list = list' := by
  obtain ⟨slot, hslot, hwrites⟩ := List.mem_map.mp hmem
  obtain ⟨fields, key', hkey', -, -, hwrites', -⟩ := mem_listSlots hslot
  rw [hwrites'] at hwrites
  exact (itemPath_inj h'.plain.1 h.plain.1 (h'.plain.2 key' hkey') (h.plain.2 key hkey)
    hwrites).1.symm

variable (texts) in
theorem write_listSlots {keys : List String} (h : ItemList list keys) (hkey : key ∈ keys)
    (hname : Enclosed name) (obj : PyFields) (value : PyValue) :
    (itemBase list name ++ key ∉ (listSlots texts list keys obj).map Slot.writes ∧
        applyRollbackValue texts (.dict obj) (itemBase list name ++ key) value = none) ∨
      (itemBase list name ++ key ∈ (listSlots texts list keys obj).map Slot.writes ∧
        ∃ obj', applyRollbackValue texts (.dict obj) (itemBase list name ++ key) value =
            some (.dict obj') ∧
          obj'.lookup "kind" = obj.lookup "kind" ∧
          specSlots ["replicas"] obj' = specSlots ["replicas"] obj ∧
          listSlots texts list keys obj' =
            write (listSlots texts list keys obj) (itemBase list name ++ key) (rolledBack value) ∧
          ∀ list' keys', list' ≠ list →
            listSlots texts list' keys' obj' = listSlots texts list' keys' obj) := by
  obtain ⟨hlist, hkeys⟩ := h.plain
  rw [applyRollbackValue_item hlist (hkeys key hkey) hname, listSlots, podSpecOf_eq,
    mem_writes_items h hkey]
  cases hchain : podChain obj with
  | none => exact .inl ⟨by simp [listItems], rfl⟩
  | some chain =>
    obtain ⟨spec, template, pod⟩ := chain
    rw [Option.bind_some, Option.elim_some, listItems]
    cases hitems : (pod.lookup list).bind PyValue.list? with
    | none => exact .inl ⟨by simp, rfl⟩
    | some items =>
      rw [Option.bind_some, Option.getD_some]
      cases hfind : items.find? (isSelected texts "name" name) with
      | none => exact .inl ⟨by simp, rfl⟩
      | some item =>
        cases item with
        | dict item =>
          refine .inr ⟨rfl, _, rfl, lookup_kind_withPodSpec .., ?_, ?_, fun list' keys' hne => ?_⟩
          · have hspec : dictField obj "spec" = some spec := by
              rw [podChain, Option.bind_eq_some_iff] at hchain
              obtain ⟨spec', hspec, hrest⟩ := hchain
              rw [Option.bind_eq_some_iff] at hrest
              obtain ⟨template', -, hpod⟩ := hrest
              obtain ⟨pod', -, hpod⟩ := Option.map_eq_some_iff.mp hpod
              cases hpod
              exact hspec
            exact specSlots_withPodSpec hspec _ (by decide)
          · rw [listSlots, podSpecOf_withPodSpec, PyValue.lookup_setField, if_pos rfl,
              write_items h hkey _ hfind]
            rfl
          · rw [listSlots, listSlots, podSpecOf_withPodSpec, PyValue.lookup_setField, if_neg hne,
              podSpecOf_eq, hchain]
            rfl
        | _ => exact absurd (List.find?_some hfind) (by simp [isSelected])

variable (texts) in
theorem write_specSlots {keys : List String} (hkeys : keys.Nodup) (hkey : key ∈ keys)
    (hplain : Plain key) (hne : key ≠ "template") (obj : PyFields) (value : PyValue) :
    ("spec." ++ key ∉ (specSlots keys obj).map Slot.writes ∧
        applyRollbackValue texts (.dict obj) ("spec." ++ key) value = none) ∨
      ("spec." ++ key ∈ (specSlots keys obj).map Slot.writes ∧
        ∃ obj', applyRollbackValue texts (.dict obj) ("spec." ++ key) value = some (.dict obj') ∧
          obj'.lookup "kind" = obj.lookup "kind" ∧
          specSlots keys obj' = write (specSlots keys obj) ("spec." ++ key) (rolledBack value) ∧
          ∀ list keys', listSlots texts list keys' obj' = listSlots texts list keys' obj) := by
  rw [applyRollbackValue_spec hplain, specSlots]
  cases hspec : dictField obj "spec" with
  | none => exact .inl ⟨by simp, rfl⟩
  | some spec =>
    rw [Option.map_some, Option.map_some, Option.getD_some]
    refine .inr ⟨mem_writes_keySlots.mpr ⟨key, hkey, rfl⟩, _, rfl, ?_, ?_, fun list keys' => ?_⟩
    · rw [PyValue.lookup_setField, if_neg (by decide)]
    · rw [specSlots, dictField_setField, if_pos rfl, write_keySlots hkeys hkey]
      rfl
    · have hpod : podSpecOf (PyValue.setField obj "spec"
          (.dict (PyValue.putField spec key (rolledBack value)))) = podSpecOf obj := by
        have hafter : mappingAt (PyValue.setField obj "spec"
            (.dict (PyValue.putField spec key (rolledBack value)))) "spec" =
              PyValue.putField spec key (rolledBack value) := by
          rw [mappingAt_eq, dictField_setField, if_pos rfl, Option.getD_some]
        have hbefore : mappingAt obj "spec" = spec := by
          rw [mappingAt_eq, hspec, Option.getD_some]
        rw [podSpecOf, podSpecOf, hafter, hbefore, mappingAt_eq (PyValue.putField _ _ _), dictField,
          PyValue.lookup_putField, if_neg (Ne.symm hne), mappingAt_eq spec, dictField]
      rw [listSlots, listSlots, hpod]

theorem slotsOf_deployment (h : kindOf texts obj = "Deployment") :
    slotsOf texts obj = specSlots ["replicas"] obj ++
      (listSlots texts "containers" containerKeys obj ++
        listSlots texts "volumes" volumeKeys obj) := by
  rw [slotsOf, if_pos h, List.append_assoc]

/-- **A write to a path of the kind of an object is a write to its slots**, where there is one. -/
theorem applyRollbackValue_managed {path : String} (hpath : ManagedPath (kindOf texts obj) path)
    (henclosed : EnclosedPath path) (value : PyValue) :
    (path ∉ (slotsOf texts obj).map Slot.writes ∧
        applyRollbackValue texts (.dict obj) path value = none) ∨
      (path ∈ (slotsOf texts obj).map Slot.writes ∧
        ∃ obj', applyRollbackValue texts (.dict obj) path value = some (.dict obj') ∧
          obj'.lookup "kind" = obj.lookup "kind" ∧
          slotsOf texts obj' = write (slotsOf texts obj) path (rolledBack value)) := by
  have hkindOf : ∀ obj' : PyFields, obj'.lookup "kind" = obj.lookup "kind" →
      kindOf texts obj' = kindOf texts obj := fun obj' h => kindOf_congr h
  generalize hkind : kindOf texts obj = kind at hpath
  cases hpath with
  | replicas =>
    have hother : "spec." ++ "replicas" ∉ (listSlots texts "containers" containerKeys obj ++
        listSlots texts "volumes" volumeKeys obj).map Slot.writes := by
      rw [List.map_append, List.mem_append]
      rintro (h | h)
      · obtain ⟨slot, hslot, hwrites⟩ := List.mem_map.mp h
        obtain ⟨fields, key', hkey', -, -, hwrites', -⟩ := mem_listSlots hslot
        exact item_ne_spec plain_replicas (hwrites'.symm.trans hwrites)
      · obtain ⟨slot, hslot, hwrites⟩ := List.mem_map.mp h
        obtain ⟨fields, key', hkey', -, -, hwrites', -⟩ := mem_listSlots hslot
        exact item_ne_spec plain_replicas (hwrites'.symm.trans hwrites)
    rw [slotsOf_deployment hkind, List.map_append, List.mem_append]
    obtain ⟨hmem, happly⟩ | ⟨hmem, obj', happly, hkind', hspec, hlists⟩ :=
      write_specSlots texts (by decide : ["replicas"].Nodup) List.mem_cons_self plain_replicas
        (by decide) obj value
    · exact .inl ⟨fun h => h.elim hmem hother, happly⟩
    · refine .inr ⟨.inl hmem, obj', happly, hkind', ?_⟩
      rw [slotsOf_deployment ((hkindOf obj' hkind').trans hkind), hspec, hlists, hlists,
        write_append_of_mem hmem]
  | @item list keys name key hlist hkey =>
    rw [slotsOf_deployment hkind, List.map_append, List.mem_append, List.map_append, List.mem_append,
      write_append_of_not_mem item_not_mem_specSlots]
    obtain ⟨hmem, happly⟩ | ⟨hmem, obj', happly, hkind', hspec, hwritten, hlists⟩ :=
      write_listSlots texts hlist hkey (henclosed list keys name key hlist hkey rfl) obj
        value
    · refine .inl ⟨?_, happly⟩
      rcases hlist with ⟨rfl, rfl⟩ | ⟨rfl, rfl⟩
      · rintro (h | h | h)
        · exact item_not_mem_specSlots h
        · exact hmem h
        · exact absurd (eq_of_mem_listSlots itemList_containers itemList_volumes hkey h) (by decide)
      · rintro (h | h | h)
        · exact item_not_mem_specSlots h
        · exact absurd (eq_of_mem_listSlots itemList_volumes itemList_containers hkey h) (by decide)
        · exact hmem h
    · refine .inr ⟨?_, obj', happly, hkind', ?_⟩
      · rcases hlist with ⟨rfl, rfl⟩ | ⟨rfl, rfl⟩
        · exact .inr (.inl hmem)
        · exact .inr (.inr hmem)
      · rw [slotsOf_deployment ((hkindOf obj' hkind').trans hkind), hspec]
        rcases hlist with ⟨rfl, rfl⟩ | ⟨rfl, rfl⟩
        · rw [write_append_of_mem hmem, hwritten, hlists _ _ (by decide)]
        · have hother : itemBase "volumes" name ++ key ∉
              (listSlots texts "containers" containerKeys obj).map Slot.writes := fun h =>
            absurd (eq_of_mem_listSlots itemList_volumes itemList_containers hkey h) (by decide)
          rw [write_append_of_not_mem hother, hwritten, hlists _ _ (by decide)]
  | @service key hkey =>
    have hslots : ∀ obj' : PyFields, kindOf texts obj' = "Service" →
        slotsOf texts obj' = specSlots serviceKeys obj' := fun obj' h => by
      rw [slotsOf, h, if_neg (by decide), if_pos rfl]
    rw [hslots obj hkind]
    obtain hnone | ⟨hmem, obj', happly, hkind', hspec, -⟩ :=
      write_specSlots texts (by decide : serviceKeys.Nodup) hkey
        (plain_serviceKeys key hkey) (fun h => by rw [h] at hkey; revert hkey; decide) obj value
    · exact .inl hnone
    · exact .inr ⟨hmem, obj', happly, hkind',
        (hslots obj' ((hkindOf obj' hkind').trans hkind)).trans hspec⟩
  | @configMap key hkey =>
    have hslots : ∀ obj' : PyFields, kindOf texts obj' = "ConfigMap" →
        slotsOf texts obj' = keySlots "" "" configMapKeys obj' := fun obj' h => by
      rw [slotsOf, h, if_neg (by decide), if_neg (by decide), if_pos rfl]
    have hkind' : (PyValue.putField obj key (rolledBack value)).lookup "kind" =
        obj.lookup "kind" := by
      rw [PyValue.lookup_putField, if_neg fun (h : "kind" = key) => by
        rw [← h] at hkey; revert hkey; decide]
    have hplain := plain_configMapKeys key hkey
    have hempty : "" ++ key = key := String.toList_inj.mp (by simp)
    have happly : applyRollbackValue texts (.dict obj) ("" ++ key) value =
        some (.dict (PyValue.putField obj key (rolledBack value))) := by
      rw [applyRollbackValue, hempty, hplain.splitFieldPath, applyParts_last hplain]
    rw [hslots obj hkind]
    exact .inr ⟨mem_writes_keySlots.mpr ⟨key, hkey, rfl⟩, _, happly, hkind',
      (hslots _ ((hkindOf _ hkind').trans hkind)).trans
        (write_keySlots (by decide) hkey obj _).symm⟩

end Opsia.Gitops
