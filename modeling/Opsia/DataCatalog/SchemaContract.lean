import Mathlib.Data.List.Dedup
import Mathlib.Data.String.Basic
import Opsia.Lib.Fields
import Opsia.Lib.Keyset
import Opsia.Lib.PyValue

/-!
# Field contracts

`domains/datacatalog/schema_contract.py`. A payload is flattened to the fields it has, each with its
path and its type; the contract keeps one type for every path. The keys of a path are joined with
dots and brackets, so two fields may share a path, and then the first one decides.

The contract tells the shape of a payload exactly when no two fields that share a path differ in
type and every leaf has a field (`shapeOnly_iff`): a scalar that is the whole payload or the first
element of an array has none, nor has an empty object.
-/

namespace Opsia.DataCatalog

/-! ## Contracts -/

/-- A path with its type, where that could be told. -/
abbrev Field : Type := String × Option String

def jsonTypeName : PyValue → Option String
  | .none => none
  | .bool _ => some "boolean"
  | .int _ => some "integer"
  | .float _ => some "number"
  | .str _ => some "string"
  | .list _ => some "array"
  | .dict _ => some "object"

/-- The path of a key; `parent` is the `prefix` of the source. -/
def childPath (parent key : String) : String := if parent = "" then key else parent ++ "." ++ key

mutual

def flattenFields (parent : String) : PyValue → List Field
  | .dict fields => flattenItems parent fields
  | .list items => flattenFirst parent items
  | .none | .bool _ | .int _ | .float _ | .str _ => []
termination_by structural x => x

/-- The loop over the items of a dictionary. -/
def flattenItems (parent : String) : List (String × PyValue) → List Field
  | [] => []
  | (key, value) :: fields =>
    flattenValue (childPath parent key) value ++ flattenItems parent fields
termination_by structural x => x

/-- What the loop yields for one value. -/
def flattenValue (path : String) : PyValue → List Field
  | .dict fields => flattenItems path fields
  | .list items => (path, some "array") :: flattenFirst (path ++ "[]") items
  | .none => [(path, none)]
  | .bool b => [(path, jsonTypeName (.bool b))]
  | .int n => [(path, jsonTypeName (.int n))]
  | .float q => [(path, jsonTypeName (.float q))]
  | .str s => [(path, jsonTypeName (.str s))]
termination_by structural x => x

/-- Only the first element of an array is looked at. -/
def flattenFirst (parent : String) : List PyValue → List Field
  | [] => []
  | first :: _ => flattenFields parent first
termination_by structural x => x

end

/-- A field is noted: the first type stays, unless it could not be told. -/
def note (seen : List Field) (field : Field) : List Field :=
  match seen.lookup field.1 with
  | some (some _) => seen
  | some none | none => Fields.put seen field.1 field.2

def contractFromPayload (payload : PyValue) : List Field :=
  Keyset.sorted Prod.fst ((flattenFields "" payload).foldl note [])

/-- `schema_hash`; `digest` is the hash of the JSON text of a contract. -/
def schemaHash {δ : Type} (digest : List Field → δ) (contract : List Field) : δ := digest contract

def contractDiff (declared observed : List Field) :
    List (String × String × Option String × Option String) :=
  (Keyset.sorted id (declared.map Prod.fst ++ observed.map Prod.fst).dedup).filterMap fun path =>
    match declared.lookup path, observed.lookup path with
    | some declaredType, none => some (path, "MISSING_FIELD", declaredType, none)
    | none, some observedType => some (path, "UNDECLARED_FIELD", none, observedType)
    | some declaredType, some observedType =>
      if declaredType ≠ observedType then some (path, "TYPE_CHANGED", declaredType, observedType)
      else none
    | none, none => none

/-! ## The shape of a payload -/

/-- A value that is reached without passing a second element of an array. -/
structure Node : Type where
  path : String
  /-- it is the value of a key -/
  ofKey : Bool
  value : PyValue

mutual

/-- The value at a path, and what is reached below it. -/
def nodes (path : String) (ofKey : Bool) : PyValue → List Node
  | .dict fields => ⟨path, ofKey, .dict fields⟩ :: nodesOfItems path fields
  | .list items =>
    ⟨path, ofKey, .list items⟩ :: nodesOfFirst (if ofKey then path ++ "[]" else path) items
  | .none => [⟨path, ofKey, .none⟩]
  | .bool b => [⟨path, ofKey, .bool b⟩]
  | .int n => [⟨path, ofKey, .int n⟩]
  | .float q => [⟨path, ofKey, .float q⟩]
  | .str s => [⟨path, ofKey, .str s⟩]
termination_by structural x => x

def nodesOfItems (path : String) : List (String × PyValue) → List Node
  | [] => []
  | (key, value) :: fields => nodes (childPath path key) true value ++ nodesOfItems path fields
termination_by structural x => x

def nodesOfFirst (path : String) : List PyValue → List Node
  | [] => []
  | first :: _ => nodes path false first
termination_by structural x => x

end

/-- The node is a field: the value of a key, and no object. -/
def Node.IsField (n : Node) : Prop := n.ofKey = true ∧ n.value.dict? = none

/-- The node has nothing below it, and is no array. -/
def Node.IsLeaf (n : Node) : Prop := n.value.isScalar = true ∨ n.value = .dict []

/-- Fields that share a path have one type, and every leaf shares path and type with a field. -/
structure OneTypePerPath (payload : PyValue) : Prop where
  agree : ∀ n ∈ nodes "" false payload, ∀ m ∈ nodes "" false payload, n.IsField → m.IsField →
    n.path = m.path → jsonTypeName n.value = jsonTypeName m.value
  leaf : ∀ n ∈ nodes "" false payload, n.IsLeaf → ∃ m ∈ nodes "" false payload, m.IsField ∧
    m.path = n.path ∧ jsonTypeName m.value = jsonTypeName n.value

/-- One payload becomes another by reordering the keys of objects and replacing scalars by others of
their type, at any depth. -/
inductive Varied : PyValue → PyValue → Prop
  | refl (v : PyValue) : Varied v v
  | trans {u v w : PyValue} (huv : Varied u v) (hvw : Varied v w) : Varied u w
  | order {fields fields' : List (String × PyValue)} (h : fields.Perm fields') :
    Varied (.dict fields) (.dict fields')
  | scalar {v w : PyValue} (hv : v.isScalar = true) (hw : w.isScalar = true)
      (htype : jsonTypeName v = jsonTypeName w) : Varied v w
  | field {v w : PyValue} (before : List (String × PyValue)) (key : String)
      (after : List (String × PyValue)) (h : Varied v w) :
    Varied (.dict (before ++ (key, v) :: after)) (.dict (before ++ (key, w) :: after))
  | item {v w : PyValue} (before after : List PyValue) (h : Varied v w) :
    Varied (.list (before ++ v :: after)) (.list (before ++ w :: after))

/-- The contract of a payload tells its shape and nothing else. -/
structure ShapeOnly {δ : Type} (digest : List Field → δ) (payload : PyValue) : Prop where
  varied : ∀ other, Varied payload other →
    schemaHash digest (contractFromPayload other) = schemaHash digest (contractFromPayload payload)
  leaf : ∀ n ∈ nodes "" false payload, n.IsLeaf →
    (n.path, jsonTypeName n.value) ∈ contractFromPayload payload
  compared : ∀ other, contractDiff (contractFromPayload payload) (contractFromPayload other) = [] ↔
    schemaHash digest (contractFromPayload payload) = schemaHash digest (contractFromPayload other)

/-! ## Fields are nodes -/

variable {parent path : String} {v w payload : PyValue} {t : Option String}

mutual

theorem mem_flattenFields {v : PyValue} {parent : String} : (path, t) ∈ flattenFields parent v ↔
    ∃ n ∈ nodes parent false v, n.IsField ∧ n.path = path ∧ jsonTypeName n.value = t := by
  cases v with
  | dict fields => simp [flattenFields, nodes, Node.IsField, mem_flattenItems]
  | list items => simp [flattenFields, nodes, Node.IsField, mem_flattenFirst]
  | _ => simp [flattenFields, nodes, Node.IsField]
termination_by structural v

theorem mem_flattenItems {fields : List (String × PyValue)} {parent : String} :
    (path, t) ∈ flattenItems parent fields ↔ ∃ n ∈ nodesOfItems parent fields,
      n.IsField ∧ n.path = path ∧ jsonTypeName n.value = t := by
  cases fields with
  | nil => simp [flattenItems, nodesOfItems]
  | cons field fields =>
    obtain ⟨key, value⟩ := field
    simp only [flattenItems, nodesOfItems, List.mem_append, mem_flattenValue, mem_flattenItems,
      or_and_right, exists_or]
termination_by structural fields

theorem mem_flattenValue {v : PyValue} {parent : String} : (path, t) ∈ flattenValue parent v ↔
    ∃ n ∈ nodes parent true v, n.IsField ∧ n.path = path ∧ jsonTypeName n.value = t := by
  cases v with
  | dict fields => simp [flattenValue, nodes, Node.IsField, PyValue.dict?, mem_flattenItems]
  | list items =>
    simp [flattenValue, nodes, Node.IsField, PyValue.dict?, mem_flattenFirst, jsonTypeName,
      eq_comm (a := path), eq_comm (a := t)]
  | _ => simp [flattenValue, nodes, Node.IsField, PyValue.dict?, jsonTypeName,
      eq_comm (a := path), eq_comm (a := t)]
termination_by structural v

theorem mem_flattenFirst {items : List PyValue} {parent : String} :
    (path, t) ∈ flattenFirst parent items ↔ ∃ n ∈ nodesOfFirst parent items,
      n.IsField ∧ n.path = path ∧ jsonTypeName n.value = t := by
  cases items with
  | nil => simp [flattenFirst, nodesOfFirst]
  | cons first items => rw [flattenFirst, nodesOfFirst, mem_flattenFields]
termination_by structural items

end

/-! ## What varies a payload -/

theorem flattenItems_eq (parent : String) (fields : List (String × PyValue)) :
    flattenItems parent fields =
      fields.flatMap fun field => flattenValue (childPath parent field.1) field.2 := by
  induction fields with
  | nil => rfl
  | cons field fields ih =>
    obtain ⟨key, value⟩ := field
    rw [flattenItems, ih, List.flatMap_cons]

theorem Varied.flatten_perm (h : Varied v w) :
    (∀ parent, (flattenFields parent v).Perm (flattenFields parent w)) ∧
      ∀ path, (flattenValue path v).Perm (flattenValue path w) := by
  induction h with
  | refl v => exact ⟨fun _ => .refl _, fun _ => .refl _⟩
  | trans _ _ ih ih' =>
    exact ⟨fun parent => (ih.1 parent).trans (ih'.1 parent),
      fun path => (ih.2 path).trans (ih'.2 path)⟩
  | @order fields fields' h =>
    have hitems (parent : String) :
        (flattenItems parent fields).Perm (flattenItems parent fields') := by
      rw [flattenItems_eq, flattenItems_eq]
      exact h.flatMap_right _
    exact ⟨hitems, hitems⟩
  | @scalar v w hv hw htype =>
    have hfields {u : PyValue} (hu : u.isScalar = true) (parent : String) :
        flattenFields parent u = [] := by
      cases u <;> first | rfl | cases hu
    have hvalue {u : PyValue} (hu : u.isScalar = true) (path : String) :
        flattenValue path u = [(path, jsonTypeName u)] := by
      cases u <;> first | rfl | cases hu
    refine ⟨fun parent => ?_, fun path => ?_⟩
    · rw [hfields hv, hfields hw]
    · rw [hvalue hv, hvalue hw, htype]
  | @field v w before key after _ ih =>
    have hitems (parent : String) : (flattenItems parent (before ++ (key, v) :: after)).Perm
        (flattenItems parent (before ++ (key, w) :: after)) := by
      simp only [flattenItems_eq, List.flatMap_append, List.flatMap_cons]
      exact ((ih.2 _).append_right _).append_left _
    exact ⟨hitems, hitems⟩
  | @item v w before after _ ih =>
    have hfirst (parent : String) : (flattenFirst parent (before ++ v :: after)).Perm
        (flattenFirst parent (before ++ w :: after)) := by
      cases before with
      | nil => exact ih.1 parent
      | cons _ _ => exact .refl _
    exact ⟨hfirst, fun path => (hfirst _).cons _⟩

/-! ## What is noted -/

variable {seen l l' : List Field}

/-- One more type is found at a path. -/
def found (type : Option (Option String)) (more : Option String) : Option (Option String) :=
  some ((type.getD none).or more)

/-- The types at a path, in order. -/
def typesAt (path : String) (l : List Field) : List (Option String) :=
  (l.filter fun field => field.1 = path).map Prod.snd

theorem mem_typesAt : t ∈ typesAt path l ↔ (path, t) ∈ l := by
  simp [typesAt]

theorem lookup_note (seen : List Field) (field : Field) (path : String) :
    (note seen field).lookup path =
      if path = field.1 then found (seen.lookup path) field.2 else seen.lookup path := by
  have hput : (Fields.put seen field.1 field.2).lookup path =
      if path = field.1 then some field.2 else seen.lookup path := Fields.lookup_put _ _ _ _
  rw [note]
  split
  all_goals
    rename_i hseen
    first | rw [hput] | skip
    split_ifs with hpath
    · rw [hpath, hseen]
      rfl
    · rfl

theorem lookup_foldl_note (l seen : List Field) (path : String) :
    (l.foldl note seen).lookup path = (typesAt path l).foldl found (seen.lookup path) := by
  induction l generalizing seen with
  | nil => rfl
  | cons field l ih =>
    rw [List.foldl_cons, ih, lookup_note]
    by_cases hpath : field.1 = path
    · simp only [typesAt, List.filter_cons, hpath, decide_true, if_true, List.map_cons,
        List.foldl_cons]
    · have htypes : typesAt path (field :: l) = typesAt path l := by
        rw [typesAt, List.filter_cons_of_neg (by simpa using hpath), typesAt]
      rw [if_neg (Ne.symm hpath), htypes]

theorem nodup_foldl_note (l : List Field) :
    ∀ seen : List Field, (seen.map Prod.fst).Nodup → ((l.foldl note seen).map Prod.fst).Nodup := by
  induction l with
  | nil => exact fun _ h => h
  | cons field l ih =>
    intro seen h
    refine ih _ ?_
    rw [note]
    split
    · exact h
    · exact Fields.nodup_put h _ _
    · exact Fields.nodup_put h _ _

variable {types : List (Option String)} {type : Option (Option String)}

theorem foldl_found_some (types : List (Option String)) (a : String) :
    types.foldl found (some (some a)) = some (some a) := by
  induction types with
  | nil => rfl
  | cons more types ih => exact ih

theorem mem_of_foldl_found (h : types.foldl found type = some t) : type = some t ∨ t ∈ types := by
  induction types generalizing type with
  | nil => exact Or.inl h
  | cons more types ih =>
    rcases ih h with hfound | hmem
    · rcases type with _ | _ | a
      · exact Or.inr (Option.some.inj hfound ▸ List.mem_cons_self)
      · exact Or.inr (Option.some.inj hfound ▸ List.mem_cons_self)
      · exact Or.inl hfound
    · exact Or.inr (List.mem_cons_of_mem _ hmem)

theorem isSome_foldl_found (h : types ≠ [] ∨ type.isSome = true) :
    (types.foldl found type).isSome = true := by
  induction types generalizing type with
  | nil => exact h.resolve_left fun hne => hne rfl
  | cons more types ih => exact ih (Or.inr rfl)

/-! ## The contract of a payload -/

theorem nodup_seen (payload : PyValue) :
    (((flattenFields "" payload).foldl note []).map Prod.fst).Nodup :=
  nodup_foldl_note _ [] List.nodup_nil

theorem nodup_contract (payload : PyValue) : ((contractFromPayload payload).map Prod.fst).Nodup :=
  (Keyset.perm_sorted.map Prod.fst).nodup_iff.mpr (nodup_seen payload)

/-- **What the contract says of a path is what is found there.** -/
theorem mem_contract : (path, t) ∈ contractFromPayload payload ↔
    (typesAt path (flattenFields "" payload)).foldl found none = some t := by
  have hlookup := lookup_foldl_note (flattenFields "" payload) [] path
  rw [List.lookup_nil] at hlookup
  rw [contractFromPayload, Keyset.mem_sorted, ← hlookup]
  refine ⟨Fields.lookup_of_mem (nodup_seen payload), fun h => ?_⟩
  obtain ⟨before, after, heq, -⟩ := List.lookup_eq_some_iff.mp h
  rw [heq]
  exact List.mem_append_right _ List.mem_cons_self

theorem mem_flatten_of_mem_contract (h : (path, t) ∈ contractFromPayload payload) :
    (path, t) ∈ flattenFields "" payload :=
  mem_typesAt.mp ((mem_of_foldl_found (mem_contract.mp h)).resolve_left nofun)

theorem contract_ext (h : ∀ path t, (path, t) ∈ contractFromPayload v ↔
    (path, t) ∈ contractFromPayload w) : contractFromPayload v = contractFromPayload w := by
  refine Keyset.sorted_eq_of_perm (nodup_seen w) ?_
  refine (List.perm_ext_iff_of_nodup (nodup_seen v).of_map (nodup_seen w).of_map).mpr ?_
  rintro ⟨path, t⟩
  have hmem := h path t
  rwa [contractFromPayload, contractFromPayload, Keyset.mem_sorted, Keyset.mem_sorted] at hmem

theorem contract_lookup : (contractFromPayload payload).lookup path = some t ↔
    (path, t) ∈ contractFromPayload payload := by
  refine ⟨fun h => ?_, Fields.lookup_of_mem (nodup_contract payload)⟩
  obtain ⟨before, after, heq, -⟩ := List.lookup_eq_some_iff.mp h
  rw [heq]
  exact List.mem_append_right _ List.mem_cons_self

/-- **Two contracts without a difference are equal.** -/
theorem contractDiff_eq_nil_iff (v w : PyValue) :
    contractDiff (contractFromPayload v) (contractFromPayload w) = [] ↔
      contractFromPayload v = contractFromPayload w := by
  rw [contractDiff, List.filterMap_eq_nil_iff]
  have hnone {path : String} {l : List Field} (h : path ∉ l.map Prod.fst) :
      l.lookup path = none := by
    refine List.lookup_eq_none_iff.mpr fun field hfield => bne_iff_ne.mpr ?_
    rintro rfl
    exact h (List.mem_map_of_mem hfield)
  constructor
  · intro h
    have hsame (path : String) :
        (contractFromPayload v).lookup path = (contractFromPayload w).lookup path := by
      by_cases hmem : path ∈ (contractFromPayload v).map Prod.fst ++
          (contractFromPayload w).map Prod.fst
      · have hpath := h path (Keyset.mem_sorted.mpr (List.mem_dedup.mpr hmem))
        cases hv : (contractFromPayload v).lookup path with
        | none => cases hw : (contractFromPayload w).lookup path <;> simp_all
        | some t => cases hw : (contractFromPayload w).lookup path <;> simp_all
      · rw [List.mem_append, not_or] at hmem
        rw [hnone hmem.1, hnone hmem.2]
    refine contract_ext fun path t => ?_
    rw [← contract_lookup, ← contract_lookup, hsame]
  · intro h path _
    rw [h]
    cases (contractFromPayload w).lookup path <;> simp

/-- What a path has after a difference, if anything. -/
def patched (declared : List Field) (diff : List (String × String × Option String × Option String))
    (path : String) : Option (Option String) :=
  match diff.lookup path with
  | none => declared.lookup path
  | some (kind, _, observedType) => if kind = "MISSING_FIELD" then none else some observedType

theorem lookup_filterMap {β : Type} {f : String → Option (String × β)}
    (hf : ∀ x y, f x = some y → y.1 = x) (l : List String) :
    (l.filterMap f).lookup path = if path ∈ l then (f path).map Prod.snd else none := by
  induction l with
  | nil => rfl
  | cons x l ih => grind

/-- **A difference tells the observed contract from the declared one.** -/
theorem patched_contractDiff (declared observed : List Field) (path : String) :
    patched declared (contractDiff declared observed) path = observed.lookup path := by
  have hnone {l : List Field} (h : path ∉ l.map Prod.fst) : l.lookup path = none :=
    Option.not_isSome_iff_eq_none.mp fun hsome => h (by simpa using hsome)
  rw [patched, contractDiff, lookup_filterMap fun x y h => ?_]
  · by_cases hmem : path ∈ declared.map Prod.fst ++ observed.map Prod.fst
    · rw [if_pos (Keyset.mem_sorted.mpr (List.mem_dedup.mpr hmem))]
      grind
    · rw [if_neg (fun h => hmem (List.mem_dedup.mp (Keyset.mem_sorted.mp h)))]
      rw [List.mem_append, not_or] at hmem
      exact (hnone hmem.1).trans (hnone hmem.2).symm
  · split at h <;> grind

/-! ## Any field can come first -/

theorem length_le_childPath (parent key : String) :
    parent.length ≤ (childPath parent key).length := by
  rw [childPath]
  split_ifs with h
  · rw [h]
    exact Nat.zero_le _
  · rw [String.length_append, String.length_append, Nat.add_assoc]
    exact Nat.le_add_right _ _

/-- A field comes after fields with shorter paths only. -/
def Leads (l : List Field) (path : String) (t : Option String) (parent : String) : Prop :=
  parent.length ≤ path.length ∧
    ∃ marks rest, l = marks ++ (path, t) :: rest ∧ ∀ mark ∈ marks, mark.1.length < path.length

theorem Leads.append {l : List Field} (h : Leads l path t parent) (more : List Field) :
    Leads (l ++ more) path t parent := by
  obtain ⟨hparent, marks, rest, rfl, hmarks⟩ := h
  exact ⟨hparent, marks, rest ++ more, by rw [List.append_assoc, List.cons_append], hmarks⟩

theorem Leads.dict {before after : List (String × PyValue)} {key : String} (hvw : Varied v w)
    (h : Leads (flattenValue (childPath parent key) w) path t (childPath parent key)) :
    ∃ fields, Varied (.dict (before ++ (key, v) :: after)) (.dict fields) ∧
      Leads (flattenItems parent fields) path t parent := by
  refine ⟨(key, w) :: (before ++ after), ?_, ?_⟩
  · exact (Varied.field before key after hvw).trans (Varied.order List.perm_middle)
  · obtain ⟨hparent, hmarks⟩ := h.append (flattenItems parent (before ++ after))
    exact ⟨(length_le_childPath parent key).trans hparent, hmarks⟩

mutual

/-- **Every field comes first in a payload that is varied from the one it is in.** -/
theorem exists_leads {v : PyValue} {parent : String} (h : (path, t) ∈ flattenFields parent v) :
    ∃ w, Varied v w ∧ Leads (flattenFields parent w) path t parent := by
  cases v with
  | dict fields =>
    obtain ⟨before, key, v, after, w, rfl, hvw, hleads⟩ := exists_leads_items h
    obtain ⟨fields', hfields'⟩ := hleads.dict hvw
    exact ⟨_, hfields'⟩
  | list items =>
    obtain ⟨items', hitems', hleads⟩ := exists_leads_first h
    exact ⟨_, hitems', hleads⟩
  | _ => exact absurd h List.not_mem_nil
termination_by structural v

theorem exists_leads_items {fields : List (String × PyValue)} {parent : String}
    (h : (path, t) ∈ flattenItems parent fields) :
    ∃ before key v after w, fields = before ++ (key, v) :: after ∧ Varied v w ∧
      Leads (flattenValue (childPath parent key) w) path t (childPath parent key) := by
  cases fields with
  | nil => exact absurd h List.not_mem_nil
  | cons field fields =>
    rcases List.mem_append.mp h with h | h
    · obtain ⟨w, hvw, hleads⟩ := exists_leads_value h
      exact ⟨[], field.1, field.2, fields, w, rfl, hvw, hleads⟩
    · obtain ⟨before, key, v, after, w, rfl, hvw, hleads⟩ := exists_leads_items h
      exact ⟨field :: before, key, v, after, w, rfl, hvw, hleads⟩
termination_by structural fields

theorem exists_leads_value {v : PyValue} {parent : String}
    (h : (path, t) ∈ flattenValue parent v) :
    ∃ w, Varied v w ∧ Leads (flattenValue parent w) path t parent := by
  have hself {type : Option String} (h : (path, t) ∈ [(parent, type)]) :
      Leads [(parent, type)] path t parent := by
    obtain ⟨rfl, rfl⟩ := Prod.mk.inj (List.mem_singleton.mp h)
    exact ⟨le_rfl, [], [], rfl, nofun⟩
  cases v with
  | dict fields =>
    obtain ⟨before, key, v, after, w, rfl, hvw, hleads⟩ := exists_leads_items h
    obtain ⟨fields', hfields'⟩ := hleads.dict hvw
    exact ⟨_, hfields'⟩
  | list items =>
    rcases List.mem_cons.mp h with h | h
    · obtain ⟨rfl, rfl⟩ := Prod.mk.inj h
      exact ⟨_, .refl _, le_rfl, [], _, rfl, nofun⟩
    · obtain ⟨items', hitems', hparent, marks, rest, heq, hmarks⟩ := exists_leads_first h
      have hlt : parent.length < path.length := by
        refine lt_of_lt_of_le ?_ hparent
        rw [String.length_append]
        exact Nat.lt_add_of_pos_right (by decide)
      refine ⟨_, hitems', hlt.le, (parent, some "array") :: marks, rest, ?_, ?_⟩
      · rw [flattenValue, heq, List.cons_append]
      · exact List.forall_mem_cons.mpr ⟨hlt, hmarks⟩
  | _ => exact ⟨_, .refl _, hself h⟩
termination_by structural v

theorem exists_leads_first {items : List PyValue} {parent : String}
    (h : (path, t) ∈ flattenFirst parent items) :
    ∃ items', Varied (.list items) (.list items') ∧
      Leads (flattenFirst parent items') path t parent := by
  cases items with
  | nil => exact absurd h List.not_mem_nil
  | cons first items =>
    obtain ⟨w, hw, hleads⟩ := exists_leads h
    exact ⟨w :: items, Varied.item [] items hw, hleads⟩
termination_by structural items

end

/-! ## When the contract tells the shape -/

variable {δ : Type} {digest : List Field → δ}

theorem exists_varied_contract {a : String} (h : (path, some a) ∈ flattenFields "" payload) :
    ∃ other, Varied payload other ∧ (path, some a) ∈ contractFromPayload other := by
  obtain ⟨other, hother, -, marks, rest, hflatten, hmarks⟩ := exists_leads h
  refine ⟨other, hother, mem_contract.mpr ?_⟩
  have hnone : typesAt path marks = [] := by
    refine List.eq_nil_iff_forall_not_mem.mpr fun t ht => ?_
    exact absurd (hmarks _ (mem_typesAt.mp ht)) (lt_irrefl _)
  have htypes : typesAt path (marks ++ (path, some a) :: rest) = some a :: typesAt path rest := by
    rw [typesAt, List.filter_append, List.map_append, ← typesAt, hnone, List.nil_append,
      List.filter_cons, if_pos (decide_eq_true rfl)]
    rfl
  rw [hflatten, htypes]
  exact foldl_found_some _ a

theorem contract_unique {t' : Option String} (h : (path, t) ∈ contractFromPayload payload)
    (h' : (path, t') ∈ contractFromPayload payload) : t = t' :=
  Option.some.inj ((contract_lookup.mpr h).symm.trans (contract_lookup.mpr h'))

theorem OneTypePerPath.mem_contract_iff (h : OneTypePerPath payload) :
    (path, t) ∈ contractFromPayload payload ↔ (path, t) ∈ flattenFields "" payload := by
  refine ⟨mem_flatten_of_mem_contract, fun hmem => ?_⟩
  have hsome : ((typesAt path (flattenFields "" payload)).foldl found none).isSome = true :=
    isSome_foldl_found (Or.inl (List.ne_nil_of_mem (mem_typesAt.mpr hmem)))
  obtain ⟨t', ht'⟩ := Option.isSome_iff_exists.mp hsome
  have hcontract := mem_contract.mpr ht'
  obtain ⟨n, hn, hfield, hpath, htype⟩ := mem_flattenFields.mp hmem
  obtain ⟨m, hm, hfield', hpath', htype'⟩ :=
    mem_flattenFields.mp (mem_flatten_of_mem_contract hcontract)
  obtain rfl : t' = t := by
    rw [← htype, ← htype']
    exact h.agree m hm n hn hfield' hfield (hpath'.trans hpath.symm)
  exact hcontract

theorem OneTypePerPath.varied_contract (h : OneTypePerPath payload) {other : PyValue}
    (hother : Varied payload other) :
    contractFromPayload other = contractFromPayload payload := by
  have hmem (path : String) (t : Option String) :
      (path, t) ∈ flattenFields "" other ↔ (path, t) ∈ contractFromPayload payload :=
    ((hother.flatten_perm.1 "").mem_iff).symm.trans h.mem_contract_iff.symm
  refine contract_ext fun path t => ⟨fun hfield => ?_, fun hfield => ?_⟩
  · exact (hmem path t).mp (mem_flatten_of_mem_contract hfield)
  · have hsome : ((typesAt path (flattenFields "" other)).foldl found none).isSome = true :=
      isSome_foldl_found (Or.inl (List.ne_nil_of_mem (mem_typesAt.mpr ((hmem path t).mpr hfield))))
    obtain ⟨t', ht'⟩ := Option.isSome_iff_exists.mp hsome
    have hcontract := mem_contract.mpr ht'
    have hold := (hmem path t').mp (mem_flatten_of_mem_contract hcontract)
    rw [contract_unique hfield hold]
    exact hcontract

theorem isScalar_of_jsonTypeName (h : jsonTypeName v = none) : v.isScalar = true := by
  cases v <;> first | rfl | cases h

/-- **A contract tells the shape of a payload, and nothing else, exactly when the fields that share
a path have one type and every leaf has a field.** -/
theorem shapeOnly_iff (hdigest : Function.Injective digest) (payload : PyValue) :
    ShapeOnly digest payload ↔ OneTypePerPath payload := by
  constructor
  · intro h
    have hsettled {path a : String} (hmem : (path, some a) ∈ flattenFields "" payload) :
        (path, some a) ∈ contractFromPayload payload := by
      obtain ⟨other, hother, hcontract⟩ := exists_varied_contract hmem
      rwa [hdigest (h.varied other hother)] at hcontract
    have hfield {path : String} {t : Option String} (hmem : (path, t) ∈ flattenFields "" payload) :
        (path, t) ∈ contractFromPayload payload := by
      cases t with
      | some a => exact hsettled hmem
      | none =>
        obtain ⟨n, hn, -, rfl, htype⟩ := mem_flattenFields.mp hmem
        have hleaf := h.leaf n hn (Or.inl (isScalar_of_jsonTypeName htype))
        rwa [htype] at hleaf
    refine ⟨fun n hn m hm hnfield hmfield hpath => ?_, fun n hn hleaf => ?_⟩
    · have hn' := hfield (mem_flattenFields.mpr ⟨n, hn, hnfield, rfl, rfl⟩)
      have hm' := hfield (mem_flattenFields.mpr ⟨m, hm, hmfield, rfl, rfl⟩)
      rw [hpath] at hn'
      exact contract_unique hn' hm'
    · exact mem_flattenFields.mp (mem_flatten_of_mem_contract (h.leaf n hn hleaf))
  · intro h
    refine ⟨fun other hother => ?_, fun n hn hleaf => ?_, fun other => ?_⟩
    · rw [h.varied_contract hother]
    · exact h.mem_contract_iff.mpr (mem_flattenFields.mpr (h.leaf n hn hleaf))
    · rw [contractDiff_eq_nil_iff, schemaHash, schemaHash, hdigest.eq_iff]

/-- Nested keys and an array of objects have a path of their own. -/
theorem nested_payload_shapeOnly : ShapeOnly id (.dict [("m", .dict [("n", .int 1)]),
    ("arr", .list [.dict [("k", .str "v")]])]) := by
  refine (shapeOnly_iff Function.injective_id _).mpr ⟨?_, ?_⟩
  · simp [nodes, nodesOfItems, nodesOfFirst, childPath, Node.IsField, PyValue.dict?]
  · simp [nodes, nodesOfItems, nodesOfFirst, childPath, Node.IsField, Node.IsLeaf, PyValue.dict?,
      PyValue.isScalar]

/-- A key with a dot shares the path of a nested key, and the order of the keys decides. -/
theorem dotted_key_shares_a_path : ¬ ShapeOnly id (.dict [("a", .dict [("b", .int 1)]),
    ("a.b", .str "x")]) := by
  intro h
  have hswapped := h.varied _ (Varied.order (List.Perm.swap _ _ _))
  exact absurd hswapped (by decide)

end Opsia.DataCatalog
