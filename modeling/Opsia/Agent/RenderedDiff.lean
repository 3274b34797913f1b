import Opsia.Gitops.DesiredDiff
import Opsia.Inventory.Changes
import Opsia.Lib.Keyset

/-!
# The diff of rendered resources

`_rendered_resources` and `_rendered_resource_changes` of `commands/helm.py`. The documents of two
revisions are compared place by place; the keys on the way to a place are joined with dots and
brackets, and what is found there is compared with the `==` of the language, which takes `1`, `1.0`
and `True` for equal.

The diff of two documents is exact when equal places hold one value and no other place has the path
of a changed one (`exact_iff`).
-/

namespace Opsia.Agent.Helm

open Gitops (PyFields mappingAt)

/-! ## Resources -/

/-- The text functions of the language that are left open. -/
structure Texts : Type where
  /-- `str` of a value that is not a string -/
  strOf : PyValue → String
  /-- `repr` of a float, `json.dumps` of a list or a dictionary -/
  written : PyValue → String

variable (texts : Texts)

/-- `_clean_text`, of what is read with `get`. -/
def cleanText : Option PyValue → String
  | some (.str s) => PyText.strip s
  | some value => PyText.strip (if value.truthy then texts.strOf value else "")
  | none => ""

/-- `HelmRenderedResourceRef`. -/
structure RenderedResourceRef : Type where
  apiVersion : String
  kind : String
  name : String
  namespaceName : String
  deriving DecidableEq

/-- `_resource_key`. -/
def RenderedResourceRef.key (ref : RenderedResourceRef) : List String :=
  [ref.apiVersion, ref.kind, ref.namespaceName, ref.name]

structure RenderedResource : Type where
  ref : RenderedResourceRef
  document : PyFields

abbrev RenderedResource.key (resource : RenderedResource) : List String := resource.ref.key

/-- `_normalized_rendered_resource`: the chart label goes, and so do labels that are then empty. -/
def normalizedRenderedResource (source : PyFields) : PyFields :=
  match (source.lookup "metadata").bind PyValue.dict? with
  | none => source
  | some metadata =>
    match (metadata.lookup "labels").bind PyValue.dict? with
    | none => source
    | some labels =>
      let kept := PyValue.popField labels "helm.sh/chart"
      PyValue.setField source "metadata" (.dict
        (if kept.isEmpty then PyValue.popField metadata "labels"
        else PyValue.setField metadata "labels" (.dict kept)))

/-- One turn of `_rendered_resources`: `none` if the reference fails its validation. -/
def renderedResource (source : PyFields) : Option (Option RenderedResource) :=
  let document := normalizedRenderedResource source
  let metadata := mappingAt document "metadata"
  let ref : RenderedResourceRef :=
    { apiVersion := cleanText texts (document.lookup "apiVersion")
      kind := cleanText texts (document.lookup "kind")
      name := cleanText texts (metadata.lookup "name")
      namespaceName := cleanText texts (metadata.lookup "namespace") }
  if ref.name = "" ∨ ref.kind = "" then some none
  else if ref.key.all (·.length ≤ 253) then some (some ⟨ref, document⟩)
  else none

def renderedResources (documents : List PyFields) : Option (List RenderedResource) :=
  (documents.mapM (renderedResource texts)).map fun resources =>
    Keyset.sorted RenderedResource.key (resources.filterMap id)

/-! ## Places -/

/-- What the recursion of `_resource_field_changes` comes to compare; `none` is missing. -/
structure Place : Type where
  path : String
  old : Option PyValue
  new : Option PyValue

/-- `path or "$"`. -/
def place (path : String) (old new : Option PyValue) : Place :=
  ⟨if path = "" then "$" else path, old, new⟩

def childPath (path key : String) : String := if path = "" then key else path ++ "." ++ key

def itemPath (path : String) (i : ℕ) : String := path ++ "[" ++ toString i ++ "]"

mutual

/-- The places below two values, in the order of their keys. -/
def compared (path : String) : PyValue → PyValue → List Place
  | .dict fields, current =>
    match current.dict? with
    | some others =>
      (Keyset.sorted Prod.fst (comparedFields path fields others ++
        (others.filter fun other => other.1 ∉ fields.map Prod.fst).map fun other =>
          (other.1, [place (childPath path other.1) none (some other.2)]))).flatMap Prod.snd
    | none => [place path (some (.dict fields)) (some current)]
  | .list items, current =>
    match current.list? with
    | some others => comparedItems path items 0 others
    | none => [place path (some (.list items)) (some current)]
  | .none, current => [place path (some .none) (some current)]
  | .bool b, current => [place path (some (.bool b)) (some current)]
  | .int n, current => [place path (some (.int n)) (some current)]
  | .float q, current => [place path (some (.float q)) (some current)]
  | .str s, current => [place path (some (.str s)) (some current)]
termination_by structural x => x

/-- The places below each key of the first dictionary. -/
def comparedFields (path : String) : PyFields → PyFields → List (String × List Place)
  | [], _ => []
  | (key, value) :: fields, others =>
    (key, match others.lookup key with
      | some other => compared (childPath path key) value other
      | none => [place (childPath path key) (some value) none]) ::
      comparedFields path fields others
termination_by structural x => x

/-- The places below two lists, from an index on. -/
def comparedItems (path : String) : List PyValue → ℕ → List PyValue → List Place
  | [], i, others => (others.zipIdx i).map fun other => place (itemPath path other.2) none other.1
  | item :: items, i, [] =>
    place (itemPath path i) (some item) none :: comparedItems path items (i + 1) []
  | item :: items, i, other :: others =>
    compared (itemPath path i) item other ++ comparedItems path items (i + 1) others
termination_by structural x => x

end

/-- `previous == current`. -/
def Place.unchanged (p : Place) : Bool :=
  match p.old, p.new with
  | some previous, some current => previous.eq current
  | none, none => true
  | none, some _ | some _, none => false

/-! ## Changes -/

/-- A `HelmResourceFieldValue`. -/
inductive FieldValue : Type where
  | none
  | int (n : ℤ)
  | bool (b : Bool)
  | text (s : String)
  deriving DecidableEq

/-- The first characters that fit. -/
def fitting : ℕ → List Char → List Char
  | _, [] => []
  | limit, c :: cs => if c.utf8Size ≤ limit then c :: fitting (limit - c.utf8Size) cs else []

/-- `_bounded_text`, with `_MAX_DIFF_VALUE_LENGTH`. -/
def boundedText (value : String) : String := String.ofList (fitting 1024 value.toList)

def resourceFieldValue : Option PyValue → FieldValue
  | none | some .none => .none
  | some (.bool b) => .bool b
  | some (.int n) => .int n
  | some (.str s) => .text (boundedText s)
  | some (.float q) => .text (boundedText (texts.written (.float q)))
  | some (.list items) => .text (boundedText (texts.written (.list items)))
  | some (.dict fields) => .text (boundedText (texts.written (.dict fields)))

/-- `HelmResourceFieldChange`. -/
structure FieldChange : Type where
  path : String
  oldValue : FieldValue
  newValue : FieldValue
  deriving DecidableEq

/-- What is noted of a changed place. -/
def Place.change (p : Place) : FieldChange :=
  ⟨p.path, resourceFieldValue texts p.old, resourceFieldValue texts p.new⟩

/-- `_resource_field_changes` of two documents: `none` if a path fails its validation. -/
def resourceFieldChanges (previous current : PyFields) : Option (List FieldChange) :=
  ((compared "" (.dict previous) (.dict current)).filter (!·.unchanged)).mapM fun p =>
    if p.path.length ≤ 2048 then some (p.change texts) else none

/-- What is found for one key; a modified resource has its changes. -/
inductive Comparison : Type where
  | added (ref : RenderedResourceRef)
  | removed (ref : RenderedResourceRef)
  | modified (ref : RenderedResourceRef) (fields : List FieldChange)
  | unchanged (ref : RenderedResourceRef)
  deriving DecidableEq

/-- One turn of the loop; some side has the key. -/
def compareResources (previous current : Option RenderedResource) : Option Comparison :=
  match previous, current with
  | none, some current => some (.added current.ref)
  | some previous, none => some (.removed previous.ref)
  | none, none => none
  | some previous, some current =>
    (resourceFieldChanges texts previous.document current.document).map fun fields =>
      if fields.isEmpty then .unchanged current.ref else .modified current.ref fields

/-- The last resource of a key. -/
def resourceOf (resources : List RenderedResource) (key : List String) : Option RenderedResource :=
  resources.reverse.find? (·.key = key)

/-- The keys of either side, in order. -/
def allKeys (left right : List RenderedResource) : List (List String) :=
  Keyset.sorted id (left.map (·.key) ++ right.map (·.key)).dedup

/-- `_rendered_resource_changes`: the entries of its four results in the order of their keys. -/
def renderedResourceChanges (left right : List RenderedResource) : Option (List Comparison) :=
  (allKeys left right).mapM fun key =>
    compareResources texts (resourceOf left key) (resourceOf right key)

/-- `_diff_rendered_resources` of the resources of two lists of documents, and these. -/
def diffRenderedResources (before after : List PyFields) :
    Option (List RenderedResource × List RenderedResource × List Comparison) := do
  let left ← renderedResources texts before
  let right ← renderedResources texts after
  return (left, right, ← renderedResourceChanges texts left right)

/-! ## The same value -/

mutual

/-- Two values are the same JSON value: with their types, and without an order of keys. -/
def SameJson : PyValue → PyValue → Prop
  | .dict fields, y =>
    match y.dict? with
    | some others => SameFields fields others ∧ ∀ other ∈ others, other.1 ∈ fields.map Prod.fst
    | none => False
  | .list items, y =>
    match y.list? with
    | some others => SameItems items others
    | none => False
  | .none, y => y = .none
  | .bool b, y => y = .bool b
  | .int n, y => y = .int n
  | .float q, y => y = .float q
  | .str s, y => y = .str s
termination_by structural x => x

def SameFields : PyFields → PyFields → Prop
  | [], _ => True
  | (key, value) :: fields, others =>
    (match others.lookup key with
      | some other => SameJson value other
      | none => False) ∧ SameFields fields others
termination_by structural x => x

def SameItems : List PyValue → List PyValue → Prop
  | [], others => others = []
  | _ :: _, [] => False
  | item :: items, other :: others => SameJson item other ∧ SameItems items others
termination_by structural x => x

end

/-- A place holds one scalar on both sides. -/
def Place.Same (p : Place) : Prop :=
  ∃ value, value.isScalar = true ∧ p.old = some value ∧ p.new = some value

theorem Place.Same.unchanged {p : Place} (h : p.Same) : p.unchanged = true := by
  obtain ⟨value, hscalar, hold, hnew⟩ := h
  rw [Place.unchanged, hold, hnew]
  exact PyValue.eq_self_of_isScalar hscalar

variable {path : String} {x y : PyValue}

theorem same_place_iff :
    (place path (some x) (some y)).Same ↔ x.isScalar = true ∧ y = x := by
  constructor
  · rintro ⟨value, hscalar, hold, hnew⟩
    cases hold
    cases hnew
    exact ⟨hscalar, rfl⟩
  · rintro ⟨hscalar, rfl⟩
    exact ⟨_, hscalar, rfl, rfl⟩

theorem not_same_missing {old new : Option PyValue} (h : old = none ∨ new = none) :
    ¬ (place path old new).Same := by
  rintro ⟨value, -, hold, hnew⟩
  rcases h with rfl | rfl
  · cases hold
  · cases hnew

mutual

theorem forall_compared_iff (path : String) :
    (x y : PyValue) → ((∀ p ∈ compared path x y, p.Same) ↔ SameJson x y)
  | .dict fields, y => by
    rw [compared, SameJson]
    cases hy : y.dict? with
    | none =>
      simp only [List.forall_mem_singleton, same_place_iff, PyValue.isScalar, Bool.false_eq_true,
        false_and]
    | some others =>
      have hfields := forall_comparedFields_iff path fields others
      simp only [List.mem_flatMap, Keyset.mem_sorted, List.mem_append, List.mem_map,
        List.mem_filter, decide_eq_true_eq]
      constructor
      · intro h
        -- a key that only the second side has would be a place that is not the same
        refine ⟨hfields.mp fun entry hentry p hp => h p ⟨entry, Or.inl hentry, hp⟩, ?_⟩
        intro other hother
        by_contra hmissing
        exact not_same_missing (Or.inl rfl)
          (h _ ⟨_, Or.inr ⟨other, ⟨hother, by simpa using hmissing⟩, rfl⟩, List.mem_singleton_self _⟩)
      · rintro ⟨hsame, hkeys⟩ p ⟨entry, hentry | ⟨other, ⟨hother, hmissing⟩, -⟩, hp⟩
        · exact hfields.mpr hsame entry hentry p hp
        · exact absurd (hkeys other hother) (by simpa using hmissing)
  | .list items, y => by
    rw [compared, SameJson]
    cases hy : y.list? with
    | none =>
      simp only [List.forall_mem_singleton, same_place_iff, PyValue.isScalar, Bool.false_eq_true,
        false_and]
    | some others => exact forall_comparedItems_iff path items 0 others
  | .none, y => by
    rw [compared, SameJson, List.forall_mem_singleton, same_place_iff]
    exact and_iff_right rfl
  | .bool b, y => by
    rw [compared, SameJson, List.forall_mem_singleton, same_place_iff]
    exact and_iff_right rfl
  | .int n, y => by
    rw [compared, SameJson, List.forall_mem_singleton, same_place_iff]
    exact and_iff_right rfl
  | .float q, y => by
    rw [compared, SameJson, List.forall_mem_singleton, same_place_iff]
    exact and_iff_right rfl
  | .str s, y => by
    rw [compared, SameJson, List.forall_mem_singleton, same_place_iff]
    exact and_iff_right rfl

theorem forall_comparedFields_iff (path : String) :
    (fields others : PyFields) →
      ((∀ entry ∈ comparedFields path fields others, ∀ p ∈ entry.2, p.Same) ↔
        SameFields fields others)
  | [], _ => by simp [comparedFields, SameFields]
  | (key, value) :: fields, others => by
    rw [comparedFields, SameFields, List.forall_mem_cons,
      forall_comparedFields_iff path fields others]
    cases others.lookup key with
    | none =>
      simp only [List.forall_mem_singleton, not_same_missing (Or.inr rfl)]
    | some other => simp only [forall_compared_iff (childPath path key) value other]

theorem forall_comparedItems_iff (path : String) :
    (items : List PyValue) → (i : ℕ) → (others : List PyValue) →
      ((∀ p ∈ comparedItems path items i others, p.Same) ↔ SameItems items others)
  | [], i, [] => by simp [comparedItems, SameItems]
  | [], i, other :: others => by
    simp [comparedItems, SameItems, not_same_missing]
  | item :: items, i, [] => by
    simp [comparedItems, SameItems, not_same_missing]
  | item :: items, i, other :: others => by
    rw [comparedItems, SameItems, List.forall_mem_append,
      forall_compared_iff (itemPath path i) item other,
      forall_comparedItems_iff path items (i + 1) others]

end

/-! ## Exact diffs -/

/-- The places of two documents. -/
def placesOf (previous current : PyFields) : List Place :=
  compared "" (.dict previous) (.dict current)

variable {texts} {previous current : PyFields} {fields : List FieldChange}

variable (texts) in
/-- The changes of two documents are exact. -/
structure Exact (previous current : PyFields) (fields : List FieldChange) : Prop where
  unchanged_iff : fields = [] ↔ SameJson (.dict previous) (.dict current)
  nodup : (fields.map (·.path)).Nodup
  /-- a change names one place, which goes from the one value to the other -/
  named : ∀ field ∈ fields, ∃ p : Place, p.change texts = field ∧
    (placesOf previous current).filter (·.path = field.path) = [p]
  /-- what no change names stays -/
  complete : ∀ p ∈ placesOf previous current, p.path ∉ fields.map (·.path) → p.Same

/-- Equal places hold one value, and no other place has the path of a changed one. -/
structure Apart (previous current : PyFields) : Prop where
  typed : ∀ p ∈ placesOf previous current, p.unchanged = true → p.Same
  named : ∀ p ∈ placesOf previous current, p.unchanged = false →
    (placesOf previous current).filter (·.path = p.path) = [p]

theorem resourceFieldChanges_eq (h : resourceFieldChanges texts previous current = some fields) :
    fields = ((placesOf previous current).filter (!·.unchanged)).map (Place.change texts) := by
  have hread := Inventory.filterMap_of_mapM (g := some) (h := fun p => some (p.change texts)) h
    fun p _ field hfield => by
      split at hfield
      · exact hfield.symm
      · cases hfield
  rw [List.filterMap_some, List.filterMap_eq_map'] at hread
  exact hread

theorem nodup_paths_of_named {places : List Place}
    (h : ∀ p ∈ places, p.unchanged = false → places.filter (·.path = p.path) = [p]) :
    ((places.filter (!·.unchanged)).map (·.path)).Nodup := by
  rw [List.nodup_iff_count_le_one]
  intro path
  by_cases hpath : path ∈ (places.filter (!·.unchanged)).map (·.path)
  · -- the changed places of this path are among all of its places, and there is one
    obtain ⟨p, hp, rfl⟩ := List.mem_map.mp hpath
    obtain ⟨hp, hchanged⟩ := List.mem_filter.mp hp
    have hone := h p hp (by simpa using hchanged)
    have hsub : ((places.filter (!·.unchanged)).map (·.path)).Sublist (places.map (·.path)) :=
      List.filter_sublist.map _
    refine (hsub.count_le p.path).trans ?_
    rw [List.count, List.countP_map, List.countP_eq_length_filter]
    exact le_of_eq (congrArg List.length hone)
  · rw [List.count_eq_zero_of_not_mem hpath]
    exact Nat.zero_le 1

theorem exact_iff (h : resourceFieldChanges texts previous current = some fields) :
    Exact texts previous current fields ↔ Apart previous current := by
  have hfields := resourceFieldChanges_eq h
  subst hfields
  have hmem : ∀ p ∈ placesOf previous current, p.unchanged = false →
      p.change texts ∈
        ((placesOf previous current).filter (!·.unchanged)).map (Place.change texts) :=
    fun p hp hchanged => List.mem_map_of_mem (List.mem_filter.mpr ⟨hp, by simp [hchanged]⟩)
  constructor
  · intro hexact
    refine ⟨fun p hp hunchanged => hexact.complete p hp ?_, fun p hp hchanged => ?_⟩
    -- the one place of a path that is named is the changed one
    · intro hpath
      obtain ⟨field, hfield, hsame⟩ := List.mem_map.mp hpath
      obtain ⟨changed, hchanged, rfl⟩ := List.mem_map.mp hfield
      obtain ⟨hin, hdiffers⟩ := List.mem_filter.mp hchanged
      obtain ⟨q, -, hone⟩ := hexact.named _ hfield
      have hchangedq : changed ∈ [q] := hone ▸ List.mem_filter.mpr ⟨hin, by simp [Place.change]⟩
      have hpq : p ∈ [q] := hone ▸ List.mem_filter.mpr ⟨hp, by simp [hsame]⟩
      rw [List.mem_singleton.mp hpq, ← List.mem_singleton.mp hchangedq] at hunchanged
      simp [hunchanged] at hdiffers
    · obtain ⟨q, -, hone⟩ := hexact.named _ (hmem p hp hchanged)
      have hpq : p ∈ [q] := hone ▸ List.mem_filter.mpr ⟨hp, by simp [Place.change]⟩
      rw [List.mem_singleton.mp hpq] at hone ⊢
      exact hone
  · intro hapart
    refine ⟨?_, ?_, fun field hfield => ?_, fun p hp hpath => hapart.typed p hp ?_⟩
    · rw [← forall_compared_iff "", List.map_eq_nil_iff, List.filter_eq_nil_iff]
      refine forall₂_congr fun p hp => ?_
      rw [Bool.not_eq_true', Bool.not_eq_false]
      exact ⟨hapart.typed p hp, Place.Same.unchanged⟩
    · rw [List.map_map]
      exact nodup_paths_of_named hapart.named
    · obtain ⟨p, hp, rfl⟩ := List.mem_map.mp hfield
      obtain ⟨hp, hchanged⟩ := List.mem_filter.mp hp
      exact ⟨p, rfl, hapart.named p hp (by simpa using hchanged)⟩
    · by_contra hchanged
      exact hpath (List.mem_map.mpr ⟨_, hmem p hp (by simpa using hchanged), rfl⟩)

/-! ## The diff -/

/-- The resource that an entry is about. -/
def Comparison.ref : Comparison → RenderedResourceRef
  | .added ref | .removed ref | .modified ref _ | .unchanged ref => ref

variable {left right : List RenderedResource} {found : List Comparison}
variable {resource : RenderedResource} {key : List String}

theorem key_of_resourceOf (h : resourceOf left key = some resource) : resource.key = key := by
  simpa using List.find?_some h

theorem resourceOf_eq_none : resourceOf left key = none ↔ key ∉ left.map (·.key) := by
  simp [resourceOf]

theorem resourceOf_of_mem (hkeys : (left.map (·.key)).Nodup) (h : resource ∈ left) :
    resourceOf left resource.key = some resource := by
  cases hfind : resourceOf left resource.key with
  | none => exact absurd (List.mem_map_of_mem h) (resourceOf_eq_none.mp hfind)
  | some other =>
    have hother : other ∈ left := List.mem_reverse.mp (List.mem_of_find?_eq_some hfind)
    rw [List.inj_on_of_nodup_map hkeys hother h (key_of_resourceOf hfind)]

theorem mem_allKeys : key ∈ allKeys left right ↔
    key ∈ left.map (·.key) ∨ key ∈ right.map (·.key) := by
  rw [allKeys, Keyset.mem_sorted, List.mem_dedup, List.mem_append]

theorem key_of_compareResources {comparison : Comparison}
    (h : compareResources texts (resourceOf left key) (resourceOf right key) = some comparison) :
    comparison.ref.key = key := by
  cases hprevious : resourceOf left key with
  | none =>
    cases hcurrent : resourceOf right key with
    | none =>
      rw [hprevious, hcurrent] at h
      cases h
    | some current =>
      rw [hprevious, hcurrent] at h
      cases h
      exact key_of_resourceOf hcurrent
  | some previous =>
    cases hcurrent : resourceOf right key with
    | none =>
      rw [hprevious, hcurrent] at h
      cases h
      exact key_of_resourceOf hprevious
    | some current =>
      rw [hprevious, hcurrent] at h
      obtain ⟨fields, -, rfl⟩ := Option.map_eq_some_iff.mp h
      split <;> exact key_of_resourceOf hcurrent

variable (texts) in
/-- Every key of either side has one entry, which tells how its documents compare. -/
structure Diff (left right : List RenderedResource) (found : List Comparison) : Prop where
  keys : found.map (·.ref.key) = allKeys left right
  added : ∀ current ∈ right, current.key ∉ left.map (·.key) → .added current.ref ∈ found
  removed : ∀ previous ∈ left, previous.key ∉ right.map (·.key) → .removed previous.ref ∈ found
  both : ∀ previous ∈ left, ∀ current ∈ right, previous.key = current.key → ∃ fields,
    (if fields.isEmpty then .unchanged current.ref else .modified current.ref fields) ∈ found ∧
      (Exact texts previous.document current.document fields ↔
        Apart previous.document current.document)

/-- Texts that are all alike. -/
def plainTexts : Texts := ⟨fun _ => "", fun _ => ""⟩

/-- A resource with some data and some further metadata. -/
def configMap (name : String) (data : PyValue) (more : PyFields) : PyFields :=
  [("kind", .str "ConfigMap"), ("metadata", .dict (("name", .str name) :: more)), ("data", data)]

end Opsia.Agent.Helm
