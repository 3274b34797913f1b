import Mathlib.Data.Bool.AllAny
import Opsia.Lib.PyText

/-!
# Image references

`RegistryReference.parse` of the cluster agent: an image reference is cut into the registry, the
repository and the reference to ask that registry for. A digest is cut off first, and then no tag
is looked for: a reference with a tag and a digest keeps its tag in the repository, and no other
well-formed reference is cut at a wrong place (`parse_exact_iff`).
-/

namespace Opsia.Agent

structure RegistryReference where
  registry : String
  repository : String
  reference : String
  deriving DecidableEq

/-- The text of the error. -/
def invalidReference : String := "container image reference is invalid"

def dockerHub : String := "registry-1.docker.io"

/-- The name of an image, and what it refers to: a digest, else a tag, else `latest`. -/
def splitReference (value : String) : String × String :=
  let digestSeparator := PyText.rfind value '@'
  if 0 ≤ digestSeparator then PyText.cutAt value digestSeparator
  else
    let tagSeparator := PyText.rfind value ':'
    if PyText.rfind value '/' < tagSeparator then PyText.cutAt value tagSeparator
    else (value, "latest")

/-- The first segment of a name is a registry, as `explicit_registry` reads it. -/
def namesRegistry (segment : String) : Bool :=
  '.' ∈ segment.toList || ':' ∈ segment.toList || segment = "localhost"

def hubRepository (name : String) : String :=
  if '/' ∈ name.toList then name else "library/" ++ name

/-- The registry and the repository of a name. -/
def splitName (name : String) : String × String :=
  match PyText.split name '/' with
  | first :: second :: rest =>
    if namesRegistry first then (first, PyText.join '/' (second :: rest))
    else (dockerHub, hubRepository name)
  | _ => (dockerHub, hubRepository name)

def RegistryReference.parse (image : String) : Except String RegistryReference :=
  let value := PyText.strip image
  if value = "" || value.toList.any PyText.isSpace then .error invalidReference
  else
    let (name, reference) := splitReference value
    let (registry, repository) := splitName name
    if registry = "" || repository = "" || reference = "" then .error invalidReference
    else .ok ⟨registry, repository, reference⟩

/-! ## Well-formed references -/

/-- A text of which nothing is a separator. -/
structure Plain (text : String) : Prop where
  ne_empty : text ≠ ""
  not_mem : ∀ c ∈ text.toList, c ≠ '/' ∧ c ≠ ':' ∧ c ≠ '@' ∧ PyText.isSpace c = false

/-- A registry, with its port if it has one. -/
structure IsRegistry (text : String) : Prop where
  names : namesRegistry text = true
  not_mem : ∀ c ∈ text.toList, c ≠ '/' ∧ c ≠ '@' ∧ PyText.isSpace c = false

/-- A digest, with its algorithm. -/
structure IsDigest (text : String) : Prop where
  ne_empty : text ≠ ""
  not_mem : ∀ c ∈ text.toList, c ≠ '@' ∧ PyText.isSpace c = false

/-- `[registry/]repository[:tag][@digest]`. -/
structure ImageReference where
  registry : Option String
  first : String
  segments : List String
  tag : Option String
  digest : Option String
  registry_ok : ∀ text ∈ registry, IsRegistry text
  first_plain : Plain first
  segments_plain : ∀ text ∈ segments, Plain text
  /-- the first of several segments would be read as a registry -/
  first_ok : registry = none → segments ≠ [] → namesRegistry first = false
  tag_plain : ∀ text ∈ tag, Plain text
  digest_ok : ∀ text ∈ digest, IsDigest text

namespace ImageReference

variable (image : ImageReference)

/-- The repository as it is written. -/
def repository : String := PyText.join '/' (image.first :: image.segments)

/-- The registry and the repository as they are written. -/
def name : String :=
  match image.registry with
  | none => image.repository
  | some registry => registry ++ "/" ++ image.repository

def tagText : String :=
  match image.tag with
  | none => ""
  | some tag => ":" ++ tag

def digestText : String :=
  match image.digest with
  | none => ""
  | some digest => "@" ++ digest

def text : String := image.name ++ image.tagText ++ image.digestText

/-- The parts of a well-formed reference. -/
def parts : RegistryReference where
  registry := image.registry.getD dockerHub
  repository :=
    if image.registry = none ∧ image.segments = [] then "library/" ++ image.first
    else image.repository
  reference := image.digest.getD (image.tag.getD "latest")

end ImageReference

/-! ## Parts put together -/

/-- The parts as one reference. -/
def RegistryReference.text (parts : RegistryReference) (sep : Char) : String :=
  parts.registry ++ "/" ++ parts.repository ++ String.singleton sep ++ parts.reference

/-- A text writes these parts, and leaves out nothing but what is meant without it: the registry of
Docker Hub, its library, and `latest`. -/
def Writes (value : String) (parts : RegistryReference) : Prop :=
  ∃ name,
    (name = parts.registry ++ "/" ++ parts.repository ∨
      parts.registry = dockerHub ∧
        (name = parts.repository ∨ parts.repository = "library/" ++ name)) ∧
    (value = name ++ "@" ++ parts.reference ∨ value = name ++ ":" ++ parts.reference ∨
      value = name ∧ parts.reference = "latest")

/-- An image is cut into its parts: a well-formed one into those it is made of, any other into parts
that, put together, are the same image. -/
structure CutExactly (image : String) : Prop where
  wellFormed : ∀ reference : ImageReference, reference.text = image →
    RegistryReference.parse image = .ok reference.parts
  accepted : ∀ parts, RegistryReference.parse image = .ok parts →
    (parts.registry ≠ "" ∧ parts.repository ≠ "" ∧ parts.reference ≠ "") ∧
    Writes (PyText.strip image) parts ∧
    RegistryReference.parse (parts.text (if '@' ∈ (PyText.strip image).toList then '@' else ':')) =
      .ok parts

/-- A reference by tag and by digest. -/
def TagAndDigest (image : String) : Prop :=
  ∃ reference : ImageReference, reference.text = image ∧
    reference.tag.isSome ∧ reference.digest.isSome

/-! ## Where a text is cut -/

section Cuts

variable {value name : String} {a b : String}

theorem splitReference_digest (hvalue : value.toList = a.toList ++ '@' :: b.toList)
    (hb : '@' ∉ b.toList) : splitReference value = (a, b) := by
  have hplace : 0 ≤ PyText.rfind value '@' := by
    rw [PyText.rfind_eq hvalue hb]
    omega
  rw [splitReference, if_pos hplace, PyText.cutAt_rfind hvalue hb, String.ofList_toList,
    String.ofList_toList]

theorem splitReference_tag (hdigest : '@' ∉ value.toList)
    (hvalue : value.toList = a.toList ++ ':' :: b.toList) (hb : ':' ∉ b.toList)
    (hslash : '/' ∉ b.toList) : splitReference value = (a, b) := by
  have hno : ¬(0 ≤ PyText.rfind value '@') := by
    rw [PyText.rfind_of_notMem hdigest]
    omega
  have hbehind : PyText.rfind value '/' < PyText.rfind value ':' := by
    rw [PyText.rfind_eq hvalue hb]
    exact (PyText.rfind_lt_iff hvalue (by decide)).mpr hslash
  rw [splitReference, if_neg hno]
  simp only [if_pos hbehind]
  rw [PyText.cutAt_rfind hvalue hb, String.ofList_toList, String.ofList_toList]

/-- Without a digest, and without a colon that no slash follows, all of the text is the name. -/
theorem splitReference_name (hdigest : '@' ∉ value.toList)
    (htag : ∀ a b, value.toList = a ++ ':' :: b → ':' ∉ b → '/' ∈ b) :
    splitReference value = (value, "latest") := by
  have hno : ¬(0 ≤ PyText.rfind value '@') := by
    rw [PyText.rfind_of_notMem hdigest]
    omega
  have hbefore : ¬(PyText.rfind value '/' < PyText.rfind value ':') := by
    by_cases hcolon : ':' ∈ value.toList
    · obtain ⟨a, b, hvalue, hb⟩ := PyText.exists_last hcolon
      rw [PyText.rfind_eq hvalue hb, PyText.rfind_lt_iff hvalue (by decide), not_not]
      exact htag a b hvalue hb
    · rw [PyText.rfind_of_notMem hcolon]
      have := PyText.neg_one_le_rfind value '/'
      omega
  rw [splitReference, if_neg hno]
  simp only [if_neg hbefore]

/-- How a text is cut: at its last `@`, else at a colon behind its last slash, else not at all. -/
theorem splitReference_cases (value : String) : ∃ a b, splitReference value = (a, b) ∧
    ((value = a ++ "@" ++ b ∧ '@' ∉ b.toList) ∨
      '@' ∉ value.toList ∧ ((value = a ++ ":" ++ b ∧ ':' ∉ b.toList ∧ '/' ∉ b.toList) ∨
        (value = a ∧ b = "latest"))) := by
  have hback {x y : List Char} {c : Char} (hvalue : value.toList = x ++ c :: y) :
      value = String.ofList x ++ String.singleton c ++ String.ofList y := by
    apply String.toList_inj.mp
    rw [hvalue]
    simp
  by_cases hdigest : '@' ∈ value.toList
  · obtain ⟨x, y, hvalue, hy⟩ := PyText.exists_last hdigest
    refine ⟨String.ofList x, String.ofList y, splitReference_digest ?_ ?_, .inl ⟨hback hvalue, ?_⟩⟩
    · rwa [String.toList_ofList, String.toList_ofList]
    · rwa [String.toList_ofList]
    · rwa [String.toList_ofList]
  · by_cases htag : ∀ x y, value.toList = x ++ ':' :: y → ':' ∉ y → '/' ∈ y
    · exact ⟨value, "latest", splitReference_name hdigest htag, .inr ⟨hdigest, .inr ⟨rfl, rfl⟩⟩⟩
    · push Not at htag
      obtain ⟨x, y, hvalue, hy, hslash⟩ := htag
      refine ⟨String.ofList x, String.ofList y, splitReference_tag hdigest ?_ ?_ ?_,
        .inr ⟨hdigest, .inl ⟨hback hvalue, ?_, ?_⟩⟩⟩
      · rwa [String.toList_ofList, String.toList_ofList]
      · rwa [String.toList_ofList]
      · rwa [String.toList_ofList]
      · rwa [String.toList_ofList]
      · rwa [String.toList_ofList]

theorem splitName_single (h : '/' ∉ name.toList) : splitName name = (dockerHub, "library/" ++ name) := by
  rw [splitName, PyText.split_of_notMem h]
  simp only [hubRepository, if_neg h]

theorem splitName_cons (hname : name.toList = a.toList ++ '/' :: b.toList) (ha : '/' ∉ a.toList) :
    splitName name = if namesRegistry a then (a, b) else (dockerHub, name) := by
  have hmem : '/' ∈ name.toList := by
    rw [hname]
    exact List.mem_append_right _ List.mem_cons_self
  have hrest := PyText.join_split b '/'
  rw [splitName, PyText.split_of_cons hname ha]
  rcases hb : PyText.split b '/' with _ | ⟨second, rest⟩
  · exact absurd (List.map_eq_nil_iff.mp hb) (List.splitOn_ne_nil '/' b.toList)
  · rw [hb] at hrest
    simp only [hubRepository, if_pos hmem, hrest]

theorem splitName_cases (name : String) : ∃ registry repository,
    splitName name = (registry, repository) ∧
    ((name = registry ++ "/" ++ repository ∧ '/' ∉ registry.toList ∧ namesRegistry registry = true) ∨
      registry = dockerHub ∧ (name = repository ∨ repository = "library/" ++ name)) := by
  by_cases hslash : '/' ∈ name.toList
  · obtain ⟨x, y, hname, hx⟩ := List.eq_append_cons_of_mem hslash
    have hparts : name.toList = (String.ofList x).toList ++ '/' :: (String.ofList y).toList := by
      rwa [String.toList_ofList, String.toList_ofList]
    have hfirst : '/' ∉ (String.ofList x).toList := by rwa [String.toList_ofList]
    by_cases hregistry : namesRegistry (String.ofList x) = true
    · refine ⟨_, _, (splitName_cons hparts hfirst).trans (if_pos hregistry),
        .inl ⟨?_, hfirst, hregistry⟩⟩
      apply String.toList_inj.mp
      rw [hparts]
      simp
    · exact ⟨_, _, (splitName_cons hparts hfirst).trans (if_neg hregistry), .inr ⟨rfl, .inl rfl⟩⟩
  · exact ⟨_, _, splitName_single hslash, .inr ⟨rfl, .inr rfl⟩⟩

end Cuts

/-- A text without a character of this kind. -/
def Without (kind : Char → Bool) (value : String) : Prop := ∀ c ∈ value.toList, kind c = false

instance (kind : Char → Bool) (value : String) : Decidable (Without kind value) :=
  List.decidableBAll (fun c => kind c = false) value.toList

variable {kind : Char → Bool} {value : String}

theorem without_append {a b : String} :
    Without kind (a ++ b) ↔ Without kind a ∧ Without kind b := by
  simp only [Without, String.toList_append, List.forall_mem_append]

theorem without_eq_iff {c : Char} :
    Without (· == c) value ↔ c ∉ value.toList := by
  simp only [Without, beq_eq_false_iff_ne]
  exact ⟨fun h hc => h c hc rfl, fun h d hd heq => h (heq ▸ hd)⟩

/-- A text that has no space, and is not empty. -/
def Solid (value : String) : Prop := value ≠ "" ∧ Without PyText.isSpace value

theorem solid_iff :
    Solid value ↔ ¬((value = "" || value.toList.any PyText.isSpace) = true) := by
  rw [Solid, Without, Bool.or_eq_true, decide_eq_true_eq, List.any_eq_true, not_or, not_exists]
  simp only [not_and, Bool.not_eq_true, Ne]

/-- What `parse` accepts, and as what. -/
theorem parse_eq_ok_iff {image : String} {parts : RegistryReference} :
    RegistryReference.parse image = .ok parts ↔
      Solid (PyText.strip image) ∧
      splitName (splitReference (PyText.strip image)).1 = (parts.registry, parts.repository) ∧
      (splitReference (PyText.strip image)).2 = parts.reference ∧
      parts.registry ≠ "" ∧ parts.repository ≠ "" ∧ parts.reference ≠ "" := by
  obtain ⟨registry, repository, reference⟩ := parts
  rw [RegistryReference.parse]
  by_cases hvalue : Solid (PyText.strip image)
  · simp only [if_neg (solid_iff.mp hvalue)]
    rcases splitReference (PyText.strip image) with ⟨name, reference'⟩
    simp only
    rcases splitName name with ⟨registry', repository'⟩
    simp only [Bool.or_eq_true, decide_eq_true_eq]
    constructor
    · intro h
      split at h
      next => exact absurd h nofun
      next hne =>
        obtain ⟨rfl, rfl, rfl⟩ := RegistryReference.mk.inj (Except.ok.inj h)
        rw [not_or, not_or] at hne
        exact ⟨hvalue, rfl, rfl, hne.1.1, hne.1.2, hne.2⟩
    · rintro ⟨-, hname, rfl, hregistry, hrepository, hreference⟩
      obtain ⟨rfl, rfl⟩ := Prod.mk.inj hname
      rw [if_neg (not_or.mpr ⟨not_or.mpr ⟨hregistry, hrepository⟩, hreference⟩)]
  · simp only [if_pos (not_not.mp fun h => hvalue (solid_iff.mpr h))]
    exact ⟨fun h => absurd h nofun, fun h => absurd h.1 hvalue⟩

/-! ## Parts put together are cut again -/

theorem parse_text {parts : RegistryReference} {sep : Char}
    (hspace : Without PyText.isSpace (parts.text sep))
    (hregistry : namesRegistry parts.registry = true) (hslash : '/' ∉ parts.registry.toList)
    (hrepository : parts.repository ≠ "") (hreference : parts.reference ≠ "")
    (hsep : sep = '@' ∧ '@' ∉ parts.reference.toList ∨ sep = ':' ∧ '@' ∉ (parts.text sep).toList ∧
      ':' ∉ parts.reference.toList ∧ '/' ∉ parts.reference.toList) :
    RegistryReference.parse (parts.text sep) = .ok parts := by
  have hcut : splitReference (parts.text sep) =
      (parts.registry ++ "/" ++ parts.repository, parts.reference) := by
    have htext : (parts.text sep).toList =
        (parts.registry ++ "/" ++ parts.repository).toList ++ sep :: parts.reference.toList := by
      simp [RegistryReference.text]
    rcases hsep with ⟨rfl, hat⟩ | ⟨rfl, hat, hcolon, hslash⟩
    · exact splitReference_digest htext hat
    · exact splitReference_tag hat htext hcolon hslash
  have hname : splitName (parts.registry ++ "/" ++ parts.repository) =
      (parts.registry, parts.repository) := by
    rw [splitName_cons _ hslash, if_pos hregistry]
    simp
  have hne : parts.text sep ≠ "" := by
    intro hempty
    have hlen := congrArg String.length hempty
    simp [RegistryReference.text] at hlen
  rw [parse_eq_ok_iff, PyText.strip_of_forall hspace, hcut]
  refine ⟨⟨hne, hspace⟩, hname, rfl, ?_, hrepository, hreference⟩
  intro hempty
  rw [hempty] at hregistry
  exact absurd hregistry (by decide)

theorem notMem_append {a b : String} {c : Char} :
    c ∉ (a ++ b).toList ↔ c ∉ a.toList ∧ c ∉ b.toList := by
  rw [String.toList_append, List.mem_append, not_or]

/-- What a text is made of has no character that is not there, or in what is meant without it. -/
theorem Writes.without {parts : RegistryReference} (h : Writes value parts)
    (hvalue : Without kind value) (hmeant : Without kind (dockerHub ++ "library/" ++ "latest")) :
    Without kind parts.registry ∧ Without kind parts.repository ∧ Without kind parts.reference := by
  obtain ⟨name, hname, hreference⟩ := h
  simp only [without_append] at hmeant
  obtain ⟨⟨hhub, hlibrary⟩, hlatest⟩ := hmeant
  have hboth : Without kind name ∧ Without kind parts.reference := by
    rcases hreference with rfl | rfl | ⟨rfl, heq⟩
    · simp only [without_append] at hvalue
      exact ⟨hvalue.1.1, hvalue.2⟩
    · simp only [without_append] at hvalue
      exact ⟨hvalue.1.1, hvalue.2⟩
    · exact ⟨hvalue, heq ▸ hlatest⟩
  rcases hname with rfl | ⟨hregistry, rfl | hrepository⟩
  · simp only [without_append] at hboth
    exact ⟨hboth.1.1.1, hboth.1.2, hboth.2⟩
  · exact ⟨hregistry ▸ hhub, hboth.1, hboth.2⟩
  · refine ⟨hregistry ▸ hhub, ?_, hboth.2⟩
    rw [hrepository]
    exact without_append.mpr ⟨hlibrary, hboth.1⟩

theorem Writes.without_text {parts : RegistryReference} (h : Writes value parts)
    (hvalue : Without kind value) {sep : Char}
    (hmeant : Without kind (dockerHub ++ "library/" ++ "latest")) (hslash : Without kind "/")
    (hsep : kind sep = false) : Without kind (parts.text sep) := by
  obtain ⟨hregistry, hrepository, hreference⟩ := h.without hvalue hmeant
  rw [RegistryReference.text]
  simp only [without_append]
  refine ⟨⟨⟨⟨hregistry, hslash⟩, hrepository⟩, ?_⟩, hreference⟩
  intro c hc
  rw [String.toList_singleton, List.mem_singleton] at hc
  rwa [hc]

/-- **What is accepted is written by its parts, and those are cut again.** -/
theorem accepted_parts {image : String} {parts : RegistryReference}
    (h : RegistryReference.parse image = .ok parts) :
    (parts.registry ≠ "" ∧ parts.repository ≠ "" ∧ parts.reference ≠ "") ∧
    Writes (PyText.strip image) parts ∧
    RegistryReference.parse (parts.text (if '@' ∈ (PyText.strip image).toList then '@' else ':')) =
      .ok parts := by
  obtain ⟨hsolid, hname, hreference, hne⟩ := parse_eq_ok_iff.mp h
  obtain ⟨name, reference, hcut, hreference'⟩ := splitReference_cases (PyText.strip image)
  obtain ⟨registry, repository, hsplit, hregistry⟩ := splitName_cases name
  rw [hcut] at hname hreference
  obtain ⟨rfl, rfl⟩ := Prod.mk.inj (hsplit.symm.trans hname)
  obtain rfl : reference = parts.reference := hreference
  have hwrites : Writes (PyText.strip image) parts := by
    refine ⟨name, hregistry.imp_left And.left, ?_⟩
    rcases hreference' with ⟨hvalue, -⟩ | ⟨-, ⟨hvalue, -⟩ | hvalue⟩
    · exact .inl hvalue
    · exact .inr (.inl hvalue)
    · exact .inr (.inr hvalue)
  have hnames : namesRegistry parts.registry = true ∧ '/' ∉ parts.registry.toList := by
    rcases hregistry with ⟨-, hslash, hnames⟩ | ⟨hhub, -⟩
    · exact ⟨hnames, hslash⟩
    · rw [hhub]
      decide
  have hspace {sep : Char} (hsep : PyText.isSpace sep = false) :
      Without PyText.isSpace (parts.text sep) :=
    hwrites.without_text hsolid.2 (by decide) (by decide) hsep
  refine ⟨hne, hwrites, ?_⟩
  rcases hreference' with ⟨hvalue, hat⟩ | ⟨hat, hvalue⟩
  · have hmem : '@' ∈ (PyText.strip image).toList := by
      rw [hvalue]
      simp
    rw [if_pos hmem]
    exact parse_text (hspace (by decide)) hnames.1 hnames.2 hne.2.1 hne.2.2 (.inl ⟨rfl, hat⟩)
  · have htext : '@' ∉ (parts.text ':').toList :=
      without_eq_iff.mp (hwrites.without_text (without_eq_iff.mpr hat) (by decide) (by decide)
        (by decide))
    have hreference : ':' ∉ parts.reference.toList ∧ '/' ∉ parts.reference.toList := by
      rcases hvalue with ⟨-, hbehind⟩ | ⟨-, hlatest⟩
      · exact hbehind
      · rw [hlatest]
        decide
    rw [if_neg hat]
    exact parse_text (hspace (by decide)) hnames.1 hnames.2 hne.2.1 hne.2.2
      (.inr ⟨rfl, htext, hreference⟩)

/-! ## Well-formed references are cut -/

theorem Plain.without {text : String} (h : Plain text)
    (hkind : ∀ c, kind c = true → c = '/' ∨ c = ':' ∨ c = '@' ∨ PyText.isSpace c = true) :
    Without kind text := by
  intro c hc
  rw [Bool.eq_false_iff]
  intro htrue
  obtain ⟨hslash, hcolon, hat, hspace⟩ := h.not_mem c hc
  rcases hkind c htrue with rfl | rfl | rfl | hc
  · exact hslash rfl
  · exact hcolon rfl
  · exact hat rfl
  · exact absurd (hc.symm.trans hspace) nofun

namespace ImageReference

variable {image : ImageReference}

theorem without_repository {kind : Char → Bool}
    (hkind : ∀ c, kind c = true → c = ':' ∨ c = '@' ∨ PyText.isSpace c = true) :
    Without kind image.repository := by
  have hplain : ∀ text ∈ image.first :: image.segments, Without kind text := by
    intro text htext
    rcases List.mem_cons.mp htext with rfl | htext
    · exact image.first_plain.without fun c hc => .inr (hkind c hc)
    · exact (image.segments_plain text htext).without fun c hc => .inr (hkind c hc)
  intro c hc
  obtain rfl | ⟨text, htext, hmem⟩ := PyText.mem_join hc
  · rw [Bool.eq_false_iff]
    intro htrue
    obtain hcolon | hat | hspace := hkind '/' htrue
    · exact absurd hcolon (by decide)
    · exact absurd hat (by decide)
    · exact absurd hspace (by decide)
  · exact hplain text htext c hmem

theorem without_name {kind : Char → Bool}
    (hkind : ∀ c, kind c = true → c = '@' ∨ PyText.isSpace c = true) : Without kind image.name := by
  have hrepository : Without kind image.repository :=
    without_repository fun c hc => .inr (hkind c hc)
  rw [name]
  split
  next => exact hrepository
  next registry hregistry =>
    have hslash : kind '/' = false := by
      rw [Bool.eq_false_iff]
      intro htrue
      obtain hat | hspace := hkind '/' htrue
      · exact absurd hat (by decide)
      · exact absurd hspace (by decide)
    rw [without_append, without_append]
    refine ⟨⟨fun c hc => ?_, fun c hc => ?_⟩, hrepository⟩
    · rw [Bool.eq_false_iff]
      intro htrue
      obtain ⟨-, hat, hspace⟩ := (image.registry_ok registry hregistry).not_mem c hc
      obtain rfl | hspace' := hkind c htrue
      · exact hat rfl
      · exact absurd (hspace'.symm.trans hspace) nofun
    · obtain rfl : c = '/' := List.mem_singleton.mp hc
      exact hslash

theorem colon_before_slash {a b : List Char} (hname : image.name.toList = a ++ ':' :: b) :
    '/' ∈ b := by
  have hcolon : ':' ∉ image.repository.toList :=
    without_eq_iff.mp (without_repository fun c hc => .inl (beq_iff_eq.mp hc))
  rw [name] at hname
  split at hname
  next =>
    rw [hname] at hcolon
    exact absurd (List.mem_append_right a List.mem_cons_self) hcolon
  next registry hregistry =>
    rw [String.toList_append, String.toList_append, List.append_assoc] at hname
    rcases List.append_eq_append_iff.mp hname with ⟨as, ha, hrest⟩ | ⟨as, hregistry, hrest⟩
    · -- The colon is behind the slash.
      have hmem : ':' ∈ "/".toList ++ image.repository.toList := by
        rw [hrest]
        exact List.mem_append_right as List.mem_cons_self
      rcases List.mem_append.mp hmem with hslash | hmem
      · exact absurd hslash (by decide)
      · exact absurd hmem hcolon
    · cases as with
      | nil => exact absurd (List.cons.inj hrest).1 (by decide)
      | cons c as =>
        obtain ⟨-, rfl⟩ := List.cons.inj hrest
        exact List.mem_append_right as List.mem_cons_self

theorem splitName_name {t : String} (ht : '/' ∉ t.toList) :
    splitName (image.name ++ t) = (image.parts.registry, image.parts.repository ++ t) := by
  have hfirst : '/' ∉ image.first.toList := without_eq_iff.mp
    (image.first_plain.without fun c hc => .inl (beq_iff_eq.mp hc))
  rw [name, parts]
  rcases hregistry : image.registry with _ | registry
  · rcases hsegments : image.segments with _ | ⟨second, segments⟩
    · have hsingle : image.repository = image.first := by
        rw [repository, hsegments, PyText.join, String.intercalate_singleton]
      rw [hsingle, splitName_single (notMem_append.mpr ⟨hfirst, ht⟩), ← String.append_assoc]
      rfl
    · have hname : (image.repository ++ t).toList =
          image.first.toList ++ '/' :: (PyText.join '/' (second :: segments) ++ t).toList := by
        rw [repository, hsegments, PyText.join, String.intercalate_cons_cons, PyText.join]
        simp
      have hnames := image.first_ok hregistry (hsegments ▸ List.cons_ne_nil _ _)
      simp only
      rw [splitName_cons hname hfirst, hnames]
      rfl
  · obtain hok := image.registry_ok registry hregistry
    have hname : (registry ++ "/" ++ image.repository ++ t).toList =
        registry.toList ++ '/' :: (image.repository ++ t).toList := by simp
    have hslash : '/' ∉ registry.toList := fun hmem => (hok.not_mem '/' hmem).1 rfl
    simp only
    rw [splitName_cons hname hslash, if_pos hok.names]
    rfl

/-- What is left of the tag in the name. -/
def keptTag (image : ImageReference) : String := if image.digest.isSome then image.tagText else ""

theorem without_tagText {kind : Char → Bool}
    (hkind : ∀ c, kind c = true → c = '/' ∨ c = '@' ∨ PyText.isSpace c = true) :
    Without kind image.tagText := by
  rw [tagText]
  split
  next => exact fun c hc => absurd hc List.not_mem_nil
  next tag htag =>
    rw [without_append]
    refine ⟨fun c hc => ?_, (image.tag_plain tag htag).without fun c hc => ?_⟩
    · obtain rfl : c = ':' := List.mem_singleton.mp hc
      rw [Bool.eq_false_iff]
      intro htrue
      obtain hslash | hat | hspace := hkind ':' htrue
      · exact absurd hslash (by decide)
      · exact absurd hat (by decide)
      · exact absurd hspace (by decide)
    · exact (hkind c hc).imp_right .inr

theorem splitReference_text :
    splitReference image.text = (image.name ++ image.keptTag, image.parts.reference) := by
  have hat : '@' ∉ (image.name ++ image.tagText).toList := by
    rw [notMem_append]
    exact ⟨without_eq_iff.mp (without_name fun c hc => .inl (beq_iff_eq.mp hc)),
      without_eq_iff.mp (without_tagText fun c hc => .inr (.inl (beq_iff_eq.mp hc)))⟩
  rw [text, keptTag, parts]
  rcases hdigest : image.digest with _ | digest
  · have hnone : image.digestText = "" := by rw [digestText, hdigest]
    rw [hnone, String.append_empty]
    rcases htag : image.tag with _ | tag
    · have hname : image.name ++ image.tagText = image.name := by
        rw [tagText, htag, String.append_empty]
      rw [hname] at hat ⊢
      refine (splitReference_name hat fun a b hvalue _ => colon_before_slash hvalue).trans ?_
      simp
    · have hplain := image.tag_plain tag htag
      have hcolon : ':' ∉ tag.toList := fun hmem => (hplain.not_mem ':' hmem).2.1 rfl
      have hslash : '/' ∉ tag.toList := fun hmem => (hplain.not_mem '/' hmem).1 rfl
      refine (splitReference_tag (a := image.name) hat ?_ hcolon hslash).trans ?_
      · rw [tagText, htag]
        simp
      · simp
  · have hat' : '@' ∉ digest.toList := fun hmem =>
      ((image.digest_ok digest hdigest).not_mem '@' hmem).1 rfl
    refine (splitReference_digest (a := image.name ++ image.tagText) (b := digest) ?_ hat').trans ?_
    · rw [digestText, hdigest]
      simp
    · simp

theorem repository_ne_empty : image.repository ≠ "" := by
  intro hempty
  refine image.first_plain.ne_empty ?_
  rw [repository, PyText.join] at hempty
  rcases hsegments : image.segments with _ | ⟨second, segments⟩
  · rwa [hsegments, String.intercalate_singleton] at hempty
  · rw [hsegments, String.intercalate_cons_cons, String.append_eq_empty_iff,
      String.append_eq_empty_iff] at hempty
    exact hempty.1.1

theorem name_ne_empty : image.name ≠ "" := by
  rw [name]
  split
  next => exact repository_ne_empty
  next => exact fun hempty => repository_ne_empty (String.append_eq_empty_iff.mp hempty).2

theorem solid_text : Solid image.text := by
  have hdigest : Without PyText.isSpace image.digestText := by
    rw [digestText]
    split
    next => exact fun c hc => absurd hc List.not_mem_nil
    next digest hdigest =>
      rw [without_append]
      exact ⟨by decide, fun c hc => ((image.digest_ok digest hdigest).not_mem c hc).2⟩
  constructor
  · intro hempty
    rw [text, String.append_eq_empty_iff, String.append_eq_empty_iff] at hempty
    exact name_ne_empty hempty.1.1
  · rw [text, without_append, without_append]
    exact ⟨⟨without_name fun c hc => .inr hc, without_tagText fun c hc => .inr (.inr hc)⟩, hdigest⟩

theorem parts_ne_empty :
    image.parts.registry ≠ "" ∧ image.parts.repository ≠ "" ∧ image.parts.reference ≠ "" := by
  refine ⟨?_, ?_, ?_⟩
  · rw [parts]
    rcases hregistry : image.registry with _ | registry
    · exact (by decide : dockerHub ≠ "")
    · rintro rfl
      exact absurd (image.registry_ok "" hregistry).names (by decide)
  · rw [parts]
    split
    next => exact fun hempty => image.first_plain.ne_empty (String.append_eq_empty_iff.mp hempty).2
    next => exact repository_ne_empty
  · rw [parts]
    rcases hdigest : image.digest with _ | digest
    · rcases htag : image.tag with _ | tag
      · exact (by decide : "latest" ≠ "")
      · exact (image.tag_plain tag htag).ne_empty
    · exact (image.digest_ok digest hdigest).ne_empty

/-- **A well-formed reference is cut into its parts, but for a tag that stands before a digest.** -/
theorem parse_text : RegistryReference.parse image.text =
    .ok { image.parts with repository := image.parts.repository ++ image.keptTag } := by
  have hslash : '/' ∉ image.keptTag.toList := by
    rw [keptTag]
    split
    next => exact without_eq_iff.mp (without_tagText fun c hc => .inl (beq_iff_eq.mp hc))
    next => exact List.not_mem_nil
  obtain ⟨hregistry, hrepository, hreference⟩ := image.parts_ne_empty
  rw [parse_eq_ok_iff, PyText.strip_of_forall solid_text.2, splitReference_text]
  refine ⟨solid_text, splitName_name hslash, rfl, hregistry, fun hempty => ?_, hreference⟩
  exact hrepository (String.append_eq_empty_iff.mp hempty).1

end ImageReference

/-- **An image is cut exactly unless it is a reference by tag and by digest.** -/
theorem parse_exact_iff (image : String) : CutExactly image ↔ ¬TagAndDigest image := by
  constructor
  · rintro ⟨hwellFormed, -⟩ ⟨reference, rfl, htag, hdigest⟩
    have hparts := Except.ok.inj (reference.parse_text.symm.trans (hwellFormed reference rfl))
    have hkept := congrArg RegistryReference.repository hparts
    simp only at hkept
    rw [ImageReference.keptTag, if_pos hdigest] at hkept
    obtain ⟨tag, htag⟩ := Option.isSome_iff_exists.mp htag
    rw [ImageReference.tagText, htag] at hkept
    have hlength := congrArg String.length hkept
    simp at hlength
  · intro hno
    refine ⟨?_, fun parts hparts => accepted_parts hparts⟩
    rintro reference rfl
    rw [reference.parse_text]
    have hkept : reference.keptTag = "" := by
      rw [ImageReference.keptTag, ImageReference.tagText]
      split
      next hdigest =>
        split
        next => rfl
        next tag htag =>
          exact absurd ⟨reference, rfl, htag ▸ rfl, hdigest⟩ hno
      next => rfl
    rw [hkept, String.append_empty]

/-! ## A reference by tag and by digest -/

def nginxPinned : ImageReference where
  registry := none
  first := "nginx"
  segments := []
  tag := some "1.25"
  digest := some "sha256:9f1a"
  registry_ok := nofun
  first_plain := ⟨by decide, List.all_iff_forall_prop.mp (by decide)⟩
  segments_plain := nofun
  first_ok := fun _ h => absurd rfl h
  tag_plain := by
    rintro text ⟨⟩
    exact ⟨by decide, List.all_iff_forall_prop.mp (by decide)⟩
  digest_ok := by
    rintro text ⟨⟩
    exact ⟨by decide, List.all_iff_forall_prop.mp (by decide)⟩

/-- The repository of a pinned image is asked for with its tag. -/
theorem pinned_tag_kept :
    RegistryReference.parse "nginx:1.25@sha256:9f1a" =
      .ok ⟨"registry-1.docker.io", "library/nginx:1.25", "sha256:9f1a"⟩ ∧
    ¬CutExactly "nginx:1.25@sha256:9f1a" := by
  have hparse : RegistryReference.parse "nginx:1.25@sha256:9f1a" =
      .ok ⟨"registry-1.docker.io", "library/nginx:1.25", "sha256:9f1a"⟩ := by decide
  refine ⟨hparse, fun h => ?_⟩
  have hparts := hparse.symm.trans (h.wellFormed nginxPinned (by decide))
  exact absurd (congrArg RegistryReference.repository (Except.ok.inj hparts)) (by decide)

end Opsia.Agent
