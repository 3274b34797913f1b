import Opsia.Gitops.Rollback

/-!
# The paths of managed fields

`extract_managed_fields` puts paths together and `apply_rollback_value` takes them apart. A path is
split where it was put together unless the name in it has a bracket too many or a dot outside its
brackets (`splitFieldPath_item_iff`); what it then leads to is said one part at a time.
-/

namespace Opsia.Gitops

/-- `prefix` of a container or a volume. -/
def itemBase (list name : String) : String :=
  "spec.template.spec." ++ list ++ "[name=" ++ name ++ "]."

/-- The keys of a container that are managed. -/
def containerKeys : List String :=
  ["image", "env", "envFrom", "resources", "readinessProbe", "livenessProbe", "startupProbe"]

/-- The keys of a volume that are managed. -/
def volumeKeys : List String := ["configMap", "secret"]

/-! ## Splitting -/

/-- The depth after a texts. -/
def depthAfter (depth : ℕ) (chars : List Char) : ℕ := chars.foldl bracketDepth depth

/-- No dot of a texts splits the path. -/
def unsplit : ℕ → List Char → Bool
  | _, [] => true
  | depth, c :: chars =>
    !(c = '.' && bracketDepth depth c = 0) && unsplit (bracketDepth depth c) chars

/-- **A name that a path survives**: inside the brackets of its selector it closes no bracket that
it did not open before a dot, and leaves none open. -/
def Enclosed (name : String) : Prop :=
  unsplit 1 name.toList = true ∧ depthAfter 1 name.toList ≤ 1

theorem depthAfter_append (depth : ℕ) (a b : List Char) :
    depthAfter depth (a ++ b) = depthAfter (depthAfter depth a) b := List.foldl_append

theorem unsplit_append (depth : ℕ) (a b : List Char) :
    unsplit depth (a ++ b) = (unsplit depth a && unsplit (depthAfter depth a) b) := by
  induction a generalizing depth with
  | nil => rfl
  | cons c a ih =>
    rw [List.cons_append, unsplit, unsplit, ih, Bool.and_assoc]
    rfl

theorem splitChars_append {depth : ℕ} {current chars rest : List Char}
    (h : unsplit depth chars = true) : splitChars depth current (chars ++ rest) =
      splitChars (depthAfter depth chars) (current ++ chars) rest := by
  induction chars generalizing depth current with
  | nil => rw [List.append_nil]; rfl
  | cons c chars ih =>
    rw [unsplit, Bool.and_eq_true] at h
    have hdot : ¬(c = '.' ∧ bracketDepth depth c = 0) := by
      have := h.1
      simp only [Bool.not_eq_true', Bool.and_eq_false_iff, decide_eq_false_iff_not] at this
      tauto
    rw [List.cons_append, splitChars, if_neg hdot, ih h.2, List.append_assoc]
    rfl

theorem splitChars_part {part rest : List Char} (h : unsplit 0 part = true)
    (hdepth : depthAfter 0 part = 0) :
    splitChars 0 [] (part ++ '.' :: rest) = String.ofList part :: splitChars 0 [] rest := by
  rw [splitChars_append h, hdepth, List.nil_append, splitChars, if_pos ⟨rfl, rfl⟩]
  rfl

theorem splitChars_last {depth : ℕ} {current part : List Char} (h : unsplit depth part = true)
    (hne : current ++ part ≠ []) :
    splitChars depth current part = [String.ofList (current ++ part)] := by
  have happend : splitChars depth current (part ++ []) =
      splitChars (depthAfter depth part) (current ++ part) [] := splitChars_append h
  rw [List.append_nil] at happend
  rw [happend, splitChars, if_neg hne]

/-- A dot outside the brackets ends a part too early. -/
theorem exists_splitChars_of_split {depth : ℕ} (current : List Char) {chars : List Char}
    (rest : List Char) (h : unsplit depth chars = false) : ∃ part parts, part.length < chars.length ∧
      splitChars depth current (chars ++ rest) = String.ofList (current ++ part) :: parts := by
  induction chars generalizing depth current with
  | nil => cases h
  | cons c chars ih =>
    by_cases hdot : c = '.' ∧ bracketDepth depth c = 0
    · refine ⟨[], splitChars (bracketDepth depth c) [] (chars ++ rest), by simp, ?_⟩
      rw [List.cons_append, splitChars, if_pos hdot, List.append_nil]
    · have hrest : unsplit (bracketDepth depth c) chars = false := by
        rw [unsplit, Bool.and_eq_false_iff] at h
        rcases h with h | h
        · simp only [Bool.not_eq_false', Bool.and_eq_true, decide_eq_true_eq] at h
          exact absurd h hdot
        · exact h
      obtain ⟨part, parts, hlength, hsplit⟩ := ih (current ++ [c]) hrest
      refine ⟨c :: part, parts, by simpa using hlength, ?_⟩
      rw [List.cons_append, splitChars, if_neg hdot, hsplit, List.append_assoc]
      rfl

/-- Inside a bracket nothing splits before a bracket closes. -/
theorem unsplit_of_pos {depth : ℕ} {chars : List Char} (hdepth : 0 < depth)
    (h : ']' ∉ chars) : unsplit depth chars = true := by
  induction chars generalizing depth with
  | nil => rfl
  | cons c chars ih =>
    rw [List.mem_cons, not_or] at h
    have hpos : 0 < bracketDepth depth c := by
      rw [bracketDepth]
      split
      · omega
      · rwa [if_neg (Ne.symm h.1)]
    rw [unsplit, ih hpos h.2]
    simp [Nat.pos_iff_ne_zero.mp hpos]

/-- A key or the name of a list. -/
def Plain (s : String) : Prop := s ≠ "" ∧ ∀ c ∈ s.toList, c ≠ '.' ∧ c ≠ '[' ∧ c ≠ ']'

instance (s : String) : Decidable (Plain s) :=
  decidable_of_iff (s ≠ "" ∧ (s.toList.all fun c => c ≠ '.' ∧ c ≠ '[' ∧ c ≠ ']') = true)
    (by simp [Plain])

theorem Plain.depthAfter {s : String} (h : Plain s) (depth : ℕ) :
    depthAfter depth s.toList = depth := by
  obtain ⟨-, h⟩ := h
  generalize s.toList = chars at h ⊢
  induction chars with
  | nil => rfl
  | cons c chars ih =>
    obtain ⟨-, hopen, hclose⟩ := h c List.mem_cons_self
    have hrest := ih fun d hd => h d (List.mem_cons_of_mem c hd)
    rwa [Gitops.depthAfter, List.foldl_cons, bracketDepth, if_neg hopen, if_neg hclose]

theorem Plain.unsplit {s : String} (h : Plain s) (depth : ℕ) : unsplit depth s.toList = true := by
  obtain ⟨-, h⟩ := h
  generalize s.toList = chars at h ⊢
  induction chars with
  | nil => rfl
  | cons c chars ih =>
    obtain ⟨hdot, hopen, hclose⟩ := h c List.mem_cons_self
    have hrest := ih fun d hd => h d (List.mem_cons_of_mem c hd)
    rw [Gitops.unsplit, bracketDepth, if_neg hopen, if_neg hclose, hrest]
    simp [hdot]

theorem Plain.splitFieldPath {s : String} (h : Plain s) : splitFieldPath s = [s] := by
  have hne : ([] : List Char) ++ s.toList ≠ [] := by
    intro hnil
    exact h.1 (String.toList_inj.mp hnil)
  rw [Gitops.splitFieldPath, splitChars_last (h.unsplit 0) hne, List.nil_append,
    String.ofList_toList]

theorem Plain.parseListSelector {s : String} (h : Plain s) : parseListSelector s = none := by
  have hbracket : '[' ∉ s.toList := fun hmem => (h.2 '[' hmem).2.1 rfl
  rw [Gitops.parseListSelector]
  exact if_pos (.inl hbracket)

/-- A part that selects an item by its name. -/
def itemPart (list name : String) : String := list ++ "[name=" ++ name ++ "]"

/-- The characters of a path, from those of its fixed texts. -/
theorem toList_append_of {base spec template opening closing bracket : String}
    (hbase : base.toList = spec.toList ++ '.' :: (template.toList ++ '.' :: (spec.toList ++ ['.'])))
    (hclosing : closing.toList = bracket.toList ++ ['.']) (list name key : String) :
    (base ++ list ++ opening ++ name ++ closing ++ key).toList =
      spec.toList ++ '.' :: (template.toList ++ '.' :: (spec.toList ++ '.' ::
        ((list ++ opening ++ name ++ bracket).toList ++ '.' :: key.toList))) := by
  simp only [String.toList_append, hbase, hclosing, List.append_assoc, List.cons_append,
    List.nil_append]

theorem toList_itemPath (list name key : String) : (itemBase list name ++ key).toList =
    "spec".toList ++ '.' :: ("template".toList ++ '.' :: ("spec".toList ++ '.' ::
      ((itemPart list name).toList ++ '.' :: key.toList))) :=
  toList_append_of (by decide +kernel) (by decide +kernel) list name key

theorem toList_itemPart (list name : String) :
    (itemPart list name).toList = (list.toList ++ "[name=".toList) ++ (name.toList ++ [']']) := by
  have hend : "]".toList = [']'] := by decide
  simp only [itemPart, String.toList_append, hend, List.append_assoc]

theorem parseListSelector_itemPart {list : String} (hlist : Plain list) (name : String) :
    parseListSelector (itemPart list name) = some (list, "name", name) := by
  have hopen : ∀ c ∈ list.toList, decide (c ≠ '[') = true := fun c hc => by
    simpa using (hlist.2 c hc).2.1
  have hchars : (itemPart list name).toList =
      list.toList ++ '[' :: ("name".toList ++ '=' :: (name.toList ++ [']'])) := by
    rw [toList_itemPart]
    have hselector : "[name=".toList = '[' :: ("name".toList ++ ['=']) := by decide
    simp only [hselector, List.append_assoc, List.cons_append, List.nil_append]
  have htake : (itemPart list name).toList.takeWhile (· ≠ '[') = list.toList := by
    rw [hchars, List.takeWhile_append_of_pos hopen]
    simp
  have hdrop : (itemPart list name).toList.dropWhile (· ≠ '[') =
      '[' :: ("name".toList ++ '=' :: (name.toList ++ [']'])) := by
    rw [hchars, List.dropWhile_append_of_pos hopen]
    simp
  have hraw : (("name".toList ++ '=' :: (name.toList ++ [']'])).dropLast) =
      "name".toList ++ '=' :: name.toList := by
    rw [← List.cons_append, ← List.append_assoc, List.dropLast_concat]
  have hmem : '[' ∈ (itemPart list name).toList := by
    rw [hchars]
    simp
  have hlast : (itemPart list name).toList.getLast? = some ']' := by
    rw [toList_itemPart, ← List.append_assoc, List.getLast?_concat]
  have hkey : ("name".toList ++ '=' :: name.toList).takeWhile (· ≠ '=') = "name".toList := by
    have : "name".toList = ['n', 'a', 'm', 'e'] := by decide
    simp [this]
  have hvalue : ("name".toList ++ '=' :: name.toList).dropWhile (· ≠ '=') = '=' :: name.toList := by
    have : "name".toList = ['n', 'a', 'm', 'e'] := by decide
    simp [this]
  have hne : list.toList ≠ [] := fun hnil => hlist.1 (String.toList_inj.mp hnil)
  simp only [parseListSelector, htake, hdrop, List.drop_succ_cons, List.drop_zero, hraw, hkey,
    hvalue, String.ofList_toList]
  rw [if_neg (by simp [hmem, hlast]), if_neg (by simp [hne])]

/-- The lists that have items with managed fields. -/
def ItemList (list : String) (keys : List String) : Prop :=
  (list = "containers" ∧ keys = containerKeys) ∨ (list = "volumes" ∧ keys = volumeKeys)

theorem ItemList.plain {list : String} {keys : List String} (h : ItemList list keys) :
    Plain list ∧ ∀ key ∈ keys, Plain key := by
  rcases h with ⟨rfl, rfl⟩ | ⟨rfl, rfl⟩
  · decide +kernel
  · decide +kernel

theorem unsplit_itemPart {list : String} (hlist : Plain list) (depth : ℕ) :
    unsplit depth (list.toList ++ "[name=".toList) = true ∧
      depthAfter depth (list.toList ++ "[name=".toList) = depth + 1 := by
  have hselector : "[name=".toList = ['[', 'n', 'a', 'm', 'e', '='] := by decide
  rw [unsplit_append, depthAfter_append, hlist.unsplit, hlist.depthAfter, hselector]
  exact ⟨by simp [unsplit, bracketDepth], rfl⟩

/-- **A path is split into its parts** exactly when the name in it is enclosed. -/
theorem splitFieldPath_item_iff {list name key : String} (hlist : Plain list) (hkey : Plain key) :
    splitFieldPath (itemBase list name ++ key) =
        ["spec", "template", "spec", itemPart list name, key] ↔ Enclosed name := by
  have hspec : Plain "spec" := by decide +kernel
  have htemplate : Plain "template" := by decide +kernel
  have hkeyne : key.toList ≠ [] := fun hnil => hkey.1 (String.toList_inj.mp hnil)
  obtain ⟨hopen, hdepth⟩ := unsplit_itemPart hlist 0
  have hstart : splitFieldPath (itemBase list name ++ key) = "spec" :: "template" :: "spec" ::
      splitChars 1 (list.toList ++ "[name=".toList) (name.toList ++ ']' :: '.' :: key.toList) := by
    rw [splitFieldPath, toList_itemPath, splitChars_part (hspec.unsplit 0) (hspec.depthAfter 0),
      splitChars_part (htemplate.unsplit 0) (htemplate.depthAfter 0),
      splitChars_part (hspec.unsplit 0) (hspec.depthAfter 0), toList_itemPart, List.append_assoc,
      splitChars_append hopen, hdepth, List.nil_append, List.append_assoc, List.singleton_append]
    simp only [String.ofList_toList]
  rw [hstart]
  cases hname : unsplit 1 name.toList with
  | false =>
    -- the part ends inside the name
    obtain ⟨part, parts, hlength, hsplit⟩ := exists_splitChars_of_split
      (list.toList ++ "[name=".toList) (']' :: '.' :: key.toList) hname
    rw [hsplit]
    constructor
    · intro h
      simp only [List.cons.injEq, true_and] at h
      have hchars := congrArg String.toList h.1
      rw [String.toList_ofList, toList_itemPart] at hchars
      have hlengths := congrArg List.length (List.append_cancel_left hchars)
      simp only [List.length_append, List.length_singleton] at hlengths
      omega
    · rintro ⟨hunsplit, -⟩
      rw [hname] at hunsplit
      cases hunsplit
  | true =>
    rw [splitChars_append hname]
    by_cases hclosed : depthAfter 1 name.toList ≤ 1
    · have hbracket : bracketDepth (depthAfter 1 name.toList) ']' = 0 := by
        rw [bracketDepth, if_neg (by decide), if_pos rfl]
        omega
      have hpart : list.toList ++ "[name=".toList ++ name.toList ++ [']'] =
          (itemPart list name).toList := by
        rw [toList_itemPart, List.append_assoc]
      rw [splitChars, hbracket, if_neg (by decide), splitChars, if_pos ⟨rfl, rfl⟩, hpart,
        show bracketDepth 0 '.' = 0 from rfl,
        splitChars_last (hkey.unsplit 0) (by simpa using hkeyne),
        List.nil_append, String.ofList_toList, String.ofList_toList]
      exact ⟨fun _ => ⟨hname, hclosed⟩, fun _ => rfl⟩
    · -- the bracket stays open, and no dot splits any more
      have hbracket : 0 < bracketDepth (depthAfter 1 name.toList) ']' := by
        rw [bracketDepth, if_neg (by decide), if_pos rfl]
        omega
      have hdot : ∀ {depth : ℕ}, bracketDepth depth '.' = depth := fun {depth} => by
        rw [bracketDepth, if_neg (by decide), if_neg (by decide)]
      have hopened : unsplit (bracketDepth (depthAfter 1 name.toList) ']') key.toList = true :=
        unsplit_of_pos hbracket fun hmem => (hkey.2 ']' hmem).2.2 rfl
      rw [splitChars, if_neg (fun h => absurd h.1 (by decide)), splitChars, hdot,
        if_neg (fun h => absurd h.2 (Nat.pos_iff_ne_zero.mp hbracket)),
        splitChars_last hopened (by simp)]
      constructor
      · intro h
        simp at h
      · exact fun h => absurd h.2 hclosed

theorem itemPath_inj {list name key list' name' key' : String} (hlist : Plain list)
    (hlist' : Plain list') (hkey : Plain key) (hkey' : Plain key')
    (h : itemBase list name ++ key = itemBase list' name' ++ key') :
    list = list' ∧ name = name' ∧ key = key' := by
  have hchars := congrArg String.toList h
  rw [toList_itemPath, toList_itemPath] at hchars
  have htail := (List.cons.inj (List.append_cancel_left (List.cons.inj (List.append_cancel_left
    (List.cons.inj (List.append_cancel_left hchars)).2)).2)).2
  obtain ⟨hpart, hkeys⟩ := PyText.append_cons_inj_right (fun hc => (hkey.2 '.' hc).1 rfl)
    (fun hc => (hkey'.2 '.' hc).1 rfl) htail
  have hselect := parseListSelector_itemPart hlist name
  rw [String.toList_inj.mp hpart, parseListSelector_itemPart hlist' name'] at hselect
  simp only [Option.some.injEq, Prod.mk.injEq, true_and] at hselect
  exact ⟨hselect.1.symm, hselect.2.symm, String.toList_inj.mp hkeys⟩

theorem splitFieldPath_spec {key : String} (hkey : Plain key) :
    splitFieldPath ("spec." ++ key) = ["spec", key] := by
  have hspec : Plain "spec" := by decide +kernel
  have hkeyne : key.toList ≠ [] := fun hnil => hkey.1 (String.toList_inj.mp hnil)
  have hbase : "spec.".toList = "spec".toList ++ ['.'] := by decide +kernel
  rw [splitFieldPath, String.toList_append, hbase, List.append_assoc, List.singleton_append,
    splitChars_part (hspec.unsplit 0) (hspec.depthAfter 0),
    splitChars_last (hkey.unsplit 0) (by simpa using hkeyne), List.nil_append,
    String.ofList_toList, String.ofList_toList]

/-! ## Following a path -/

section

variable {texts : PyTexts}

/-- A field that is a mapping. -/
def dictField (fields : PyFields) (key : String) : Option PyFields :=
  (fields.lookup key).bind PyValue.dict?

theorem lookup_of_dictField {fields child : PyFields} {key : String}
    (h : dictField fields key = some child) : fields.lookup key = some (.dict child) := by
  rw [dictField, Option.bind_eq_some_iff] at h
  obtain ⟨value, hlookup, hvalue⟩ := h
  cases value with
  | dict fields =>
    cases hvalue
    exact hlookup
  | _ => cases hvalue

theorem mappingAt_eq (fields : PyFields) (key : String) :
    mappingAt fields key = (dictField fields key).getD [] := by
  rw [mappingAt, mappingOf, dictField]
  cases fields.lookup key with
  | none => rfl
  | some value => rfl

/-- Nothing is set below what is no mapping. -/
theorem applyParts_of_not_dict {value parent : PyValue} (h : parent.dict? = none)
    (parts : List String) : applyParts texts value parent parts = none := by
  have hdescend : ∀ part, descendManifestPath texts parent part = none := by
    intro part
    cases parent with
    | dict fields => cases h
    | _ => rfl
  cases parts with
  | nil => rfl
  | cons part parts =>
    cases parts with
    | nil =>
      rw [applyParts]
      unfold setManifestValue
      cases parseListSelector part with
      | none =>
        cases parent with
        | dict fields => cases h
        | _ => rfl
      | some selector => simp only [hdescend]
    | cons part' parts => rw [applyParts, hdescend]; rfl

theorem applyParts_plain {part : String} (hpart : Plain part) (value : PyValue) (fields : PyFields)
    (part' : String) (parts : List String) :
    applyParts texts value (.dict fields) (part :: part' :: parts) =
      (dictField fields part).bind fun child =>
        (applyParts texts value (.dict child) (part' :: parts)).map fun changed =>
          .dict (PyValue.setField fields part changed) := by
  have hnone := hpart.parseListSelector
  have hlist : ∀ items, applyParts texts value (.list items) (part' :: parts) = none :=
    fun items => applyParts_of_not_dict rfl _
  rw [applyParts, dictField]
  cases hlookup : fields.lookup part with
  | none => simp [descendManifestPath, hnone, hlookup]
  | some child =>
    cases child with
    | dict child =>
      simp only [descendManifestPath, hnone, hlookup, changeManifestPath, Option.bind_some,
        PyValue.dict?, Option.bind_eq_bind, Option.pure_def, Option.map_eq_bind,
        Function.comp_def]
    | list items => simp [descendManifestPath, hnone, hlookup, hlist, PyValue.dict?]
    | none => simp [descendManifestPath, hnone, hlookup, PyValue.dict?]
    | bool b => simp [descendManifestPath, hnone, hlookup, PyValue.dict?]
    | int n => simp [descendManifestPath, hnone, hlookup, PyValue.dict?]
    | float q => simp [descendManifestPath, hnone, hlookup, PyValue.dict?]
    | str s => simp [descendManifestPath, hnone, hlookup, PyValue.dict?]

theorem applyParts_last {key : String} (hkey : Plain key) (value : PyValue) (fields : PyFields) :
    applyParts texts value (.dict fields) [key] =
      some (.dict (PyValue.putField fields key (rolledBack value))) := by
  rw [applyParts, setManifestValue, hkey.parseListSelector]

theorem applyParts_item {list name key : String} (hlist : Plain list) (hkey : Plain key)
    (value : PyValue) (fields : PyFields) :
    applyParts texts value (.dict fields) [itemPart list name, key] =
      ((fields.lookup list).bind PyValue.list?).bind fun items =>
        ((items.find? (isSelected texts "name" name)).bind PyValue.dict?).map fun item =>
          .dict (PyValue.setField fields list (.list (changeItem (isSelected texts "name" name)
            (.dict (PyValue.putField item key (rolledBack value))) items))) := by
  have hselector := parseListSelector_itemPart hlist name
  rw [applyParts]
  cases hlookup : fields.lookup list with
  | none => simp [descendManifestPath, hselector, hlookup]
  | some child =>
    cases child with
    | list items =>
      simp only [descendManifestPath, hselector, hlookup, changeManifestPath, Option.bind_some,
        PyValue.list?]
      cases hfind : items.find? (isSelected texts "name" name) with
      | none => rfl
      | some item =>
        cases item with
        | dict item => simp [applyParts_last hkey, PyValue.dict?]
        | _ => exact absurd (List.find?_some hfind) (by simp [isSelected])
    | dict child => simp [descendManifestPath, hselector, hlookup, PyValue.list?]
    | none => simp [descendManifestPath, hselector, hlookup, PyValue.list?]
    | bool b => simp [descendManifestPath, hselector, hlookup, PyValue.list?]
    | int n => simp [descendManifestPath, hselector, hlookup, PyValue.list?]
    | float q => simp [descendManifestPath, hselector, hlookup, PyValue.list?]
    | str s => simp [descendManifestPath, hselector, hlookup, PyValue.list?]

end

end Opsia.Gitops
