import Mathlib.Algebra.Group.Nat.Defs
import Mathlib.Data.List.DropRight
import Mathlib.Tactic.Common
import Mathlib.Tactic.IntervalCases

/-!
# Python text primitives

The string operations of the Python standard library that the modelled code
relies on, with the documented Unicode behaviour.
-/

namespace PyText

/-- `str.isspace` of one character: the characters `str.strip` removes. -/
def isSpace (c : Char) : Bool :=
  let n := c.val.toNat
  (0x9 ≤ n && n ≤ 0xd) || (0x1c ≤ n && n ≤ 0x20) || n == 0x85 || n == 0xa0 || n == 0x1680 ||
    (0x2000 ≤ n && n ≤ 0x200a) || n == 0x2028 || n == 0x2029 || n == 0x202f || n == 0x205f ||
    n == 0x3000

/-- `str.strip`. -/
def strip (s : String) : String :=
  String.ofList ((s.toList.dropWhile isSpace).reverse.dropWhile isSpace).reverse

theorem strip_strip (s : String) : strip (strip s) = strip s := by
  have hstrip : ∀ s : String,
      strip s = String.ofList ((s.toList.dropWhile isSpace).rdropWhile isSpace) := fun _ => rfl
  have hfront : ((s.toList.dropWhile isSpace).rdropWhile isSpace).dropWhile isSpace =
      (s.toList.dropWhile isSpace).rdropWhile isSpace := by
    refine List.dropWhile_eq_self_iff.mpr fun hpos => ?_
    rw [(List.rdropWhile_prefix isSpace _).getElem]
    exact List.dropWhile_get_zero_not _ _ _
  simp only [hstrip, String.toList_ofList, hfront, List.rdropWhile_idempotent]

variable {sep : Char} {s : String} {a : List Char} {parts : List String}

theorem strip_of_forall (h : ∀ c ∈ s.toList, isSpace c = false) : strip s = s := by
  have hkeep (l : List Char) (hl : ∀ c ∈ l, isSpace c = false) : l.dropWhile isSpace = l := by
    cases l with
    | nil => rfl
    | cons c l => rw [List.dropWhile_cons_of_neg (by simp [hl c List.mem_cons_self])]
  rw [strip, hkeep _ h, hkeep _ fun c hc => h c (List.mem_reverse.mp hc), List.reverse_reverse,
    String.ofList_toList]

theorem strip_ne_empty {c : Char} (hc : c ∈ s.toList) (hspace : isSpace c = false) :
    strip s ≠ "" := by
  intro h
  rw [strip, String.ofList_eq_empty_iff, List.reverse_eq_nil_iff, List.dropWhile_eq_nil_iff] at h
  rw [← List.takeWhile_append_dropWhile (p := isSpace) (l := s.toList), List.mem_append] at hc
  have hall : isSpace c = true := by
    rcases hc with hc | hc
    · exact List.mem_takeWhile_imp hc
    · exact h c (List.mem_reverse.mpr hc)
  exact absurd (hall.symm.trans hspace) nofun

/-- One text occurs in another, as `in` and an escaped `LIKE` ask. -/
def isIn (needle : List Char) : List Char → Bool
  | [] => needle.isEmpty
  | c :: rest => needle.isPrefixOf (c :: rest) || isIn needle rest

theorem isPrefixOf_map_congr {f g : Char → Char} {s t : List Char}
    (h : ∀ c ∈ s, ∀ d ∈ t, (f c = f d ↔ g c = g d)) :
    (s.map f).isPrefixOf (t.map f) = (s.map g).isPrefixOf (t.map g) := by
  induction s generalizing t with
  | nil => rfl
  | cons c s ih =>
    cases t with
    | nil => rfl
    | cons d t =>
      have hrest := ih fun c' hc d' hd => h c' (List.mem_cons_of_mem c hc) d'
        (List.mem_cons_of_mem d hd)
      have hhead : (f c == f d) = (g c == g d) := by
        rw [Bool.eq_iff_iff, beq_iff_eq, beq_iff_eq]
        exact h c List.mem_cons_self d List.mem_cons_self
      simp only [List.map_cons, List.isPrefixOf, hhead, hrest]

/-- Two ways to fold characters find a text alike when they identify the same ones. -/
theorem isIn_map_congr {f g : Char → Char} {s t : List Char}
    (h : ∀ c ∈ s, ∀ d ∈ t, (f c = f d ↔ g c = g d)) :
    isIn (s.map f) (t.map f) = isIn (s.map g) (t.map g) := by
  induction t with
  | nil => cases s <;> rfl
  | cons d t ih =>
    have hrest := ih fun c hc d' hd => h c hc d' (List.mem_cons_of_mem d hd)
    have hhead := isPrefixOf_map_congr (f := f) (g := g) h
    rw [List.map_cons, List.map_cons] at hhead
    simp only [List.map_cons, isIn, hhead, hrest]

/-- `str.split` at a separator of one character. -/
def split (s : String) (sep : Char) : List String := (s.toList.splitOn sep).map String.ofList

/-- What stands before the first separator, and after it. -/
theorem append_cons_inj {b x y : List Char} (ha : sep ∉ a) (hb : sep ∉ b)
    (h : a ++ sep :: x = b ++ sep :: y) : a = b ∧ x = y := by
  induction a generalizing b with
  | nil =>
    cases b with
    | nil => exact ⟨rfl, (List.cons.inj h).2⟩
    | cons d b => exact absurd ((List.cons.inj h).1 ▸ List.mem_cons_self) hb
  | cons c a ih =>
    cases b with
    | nil => exact absurd ((List.cons.inj h).1 ▸ List.mem_cons_self) ha
    | cons d b =>
      obtain ⟨rfl, hrest⟩ := List.cons.inj h
      obtain ⟨rfl, rfl⟩ := ih (fun hc => ha (List.mem_cons_of_mem _ hc))
        (fun hd => hb (List.mem_cons_of_mem _ hd)) hrest
      exact ⟨rfl, rfl⟩

/-- `str.join` with a separator of one character. -/
def join (sep : Char) (parts : List String) : String := (String.singleton sep).intercalate parts

theorem mem_join {c : Char} (h : c ∈ (join sep parts).toList) :
    c = sep ∨ ∃ part ∈ parts, c ∈ part.toList := by
  induction parts with
  | nil => exact absurd h (by simp [join])
  | cons part parts ih =>
    cases parts with
    | nil =>
      rw [join, String.intercalate_singleton] at h
      exact .inr ⟨part, List.mem_cons_self, h⟩
    | cons next parts =>
      rw [join, String.intercalate_cons_cons, String.toList_append, String.toList_append,
        String.toList_singleton, List.mem_append, List.mem_append, List.mem_singleton] at h
      rcases h with (hpart | hsep) | hrest
      · exact .inr ⟨part, List.mem_cons_self, hpart⟩
      · exact .inl hsep
      · obtain hsep | ⟨other, hother, hc⟩ := ih hrest
        · exact .inl hsep
        · exact .inr ⟨other, List.mem_cons_of_mem part hother, hc⟩

/-- The first parts of equal texts are equal when they have no separator, and so is the rest. -/
theorem join_cons_inj {a b : String} (ha : sep ∉ a.toList) (hb : sep ∉ b.toList) {x y : String}
    {xs ys : List String} (h : join sep (a :: x :: xs) = join sep (b :: y :: ys)) :
    a = b ∧ join sep (x :: xs) = join sep (y :: ys) := by
  simp only [join, String.intercalate_cons_cons] at h
  have hchars := congrArg String.toList h
  simp only [String.toList_append, String.toList_singleton, List.append_assoc,
    List.singleton_append] at hchars
  obtain ⟨hhead, htail⟩ := append_cons_inj ha hb hchars
  exact ⟨String.toList_inj.mp hhead, String.toList_inj.mp htail⟩

/-- A text without the separator is its only part. -/
theorem split_of_notMem (h : sep ∉ s.toList) : split s sep = [s] := by
  rw [split, List.splitOn_eq_singleton h, List.map_singleton, String.ofList_toList]

/-- The first part is what stands before the first separator. -/
theorem split_of_cons {a b : String} (hs : s.toList = a.toList ++ sep :: b.toList)
    (ha : sep ∉ a.toList) : split s sep = a :: split b sep := by
  rw [split, hs, List.splitOn_append_cons_self_of_not_mem ha, List.map_cons, String.ofList_toList,
    split]

theorem join_split (s : String) (sep : Char) : join sep (split s sep) = s := by
  apply String.toList_inj.mp
  rw [join, split, String.toList_intercalate, List.map_map, String.toList_singleton]
  have hid : String.toList ∘ String.ofList = id := funext fun l => String.toList_ofList
  rw [hid, List.map_id, List.intercalate_splitOn]

/-- `str.rsplit` at a separator of one character, once: the last part. -/
def rsplitLast (s : String) (sep : Char) : String :=
  String.ofList (s.toList.rtakeWhile (· ≠ sep))

/-- The last part is what stands after the last separator. -/
theorem rsplitLast_append {rest last : String} (h : sep ∉ last.toList) :
    rsplitLast (rest ++ String.singleton sep ++ last) sep = last := by
  have htake : (rest ++ String.singleton sep ++ last).toList.rtakeWhile (· ≠ sep) =
      last.toList := by
    rw [String.toList_append, String.toList_append, String.toList_singleton, List.rtakeWhile,
      List.reverse_append, List.takeWhile_append_of_pos]
    · simp
    · intro c hc
      have hne : c ≠ sep := by
        rintro rfl
        exact h (List.mem_reverse.mp hc)
      simpa using hne
  rw [rsplitLast, htake, String.ofList_toList]

/-- `str.rfind` of one character: where it stands last, and -1 where it does not. -/
def rfind (s : String) (sep : Char) : ℤ := (s.toList.rdropWhile (· ≠ sep)).length - 1

/-- The text before a place and the text behind the character there: `s[:i]` and `s[i + 1:]`. -/
def cutAt (s : String) (i : ℤ) : String × String :=
  (String.ofList (s.toList.take i.toNat), String.ofList (s.toList.drop (i + 1).toNat))

theorem neg_one_le_rfind (s : String) (sep : Char) : -1 ≤ rfind s sep := by
  rw [rfind]
  omega

theorem rfind_of_notMem (h : sep ∉ s.toList) : rfind s sep = -1 := by
  have hnil : s.toList.rdropWhile (· ≠ sep) = [] := by
    rw [List.rdropWhile_eq_nil_iff]
    exact fun c hc => decide_eq_true fun (heq : c = sep) => h (heq ▸ hc)
  rw [rfind, hnil]
  rfl

theorem rfind_eq {b : List Char} (hs : s.toList = a ++ sep :: b) (hb : sep ∉ b) :
    rfind s sep = a.length := by
  have hdrop : s.toList.rdropWhile (· ≠ sep) = a ++ [sep] := by
    have hpos : ∀ c ∈ b.reverse, decide (c ≠ sep) = true := fun c hc =>
      decide_eq_true fun (heq : c = sep) => hb (heq ▸ List.mem_reverse.mp hc)
    rw [hs, List.rdropWhile, List.reverse_append, List.reverse_cons, List.append_assoc,
      List.dropWhile_append_of_pos hpos]
    simp
  rw [rfind, hdrop, List.length_append, List.length_singleton]
  omega

theorem exists_last {s : List Char} (h : sep ∈ s) :
    ∃ a b, s = a ++ sep :: b ∧ sep ∉ b := by
  obtain ⟨b, a, hrev, hb⟩ := List.eq_append_cons_of_mem (List.mem_reverse.mpr h)
  refine ⟨a.reverse, b.reverse, ?_, fun hmem => hb (List.mem_reverse.mp hmem)⟩
  have hback := congrArg List.reverse hrev
  simpa using hback

theorem cutAt_rfind {b : List Char} (hs : s.toList = a ++ sep :: b) (hb : sep ∉ b) :
    cutAt s (rfind s sep) = (String.ofList a, String.ofList b) := by
  have hplace : ((a.length : ℤ) + 1).toNat = a.length + 1 := rfl
  rw [cutAt, rfind_eq hs hb, Int.toNat_natCast, hplace, hs, List.take_left, List.append_cons]
  have hlen : (a ++ [sep]).length = a.length + 1 := List.length_append
  rw [← hlen, List.drop_left]

theorem rfind_lt_iff {b : List Char} {c : Char} (hs : s.toList = a ++ c :: b) (hne : c ≠ sep) :
    rfind s sep < a.length ↔ sep ∉ b := by
  constructor
  · intro hlt hmem
    obtain ⟨x, y, rfl, hy⟩ := exists_last hmem
    have hs' : s.toList = (a ++ c :: x) ++ sep :: y := by
      rw [hs, List.append_assoc, List.cons_append]
    rw [rfind_eq hs' hy, List.length_append] at hlt
    omega
  · intro hb
    by_cases ha : sep ∈ a
    · obtain ⟨x, y, rfl, hy⟩ := exists_last ha
      have hs' : s.toList = x ++ sep :: (y ++ c :: b) := by
        rw [hs, List.append_assoc, List.cons_append]
      have hrest : sep ∉ y ++ c :: b := by
        rw [List.mem_append, List.mem_cons, not_or, not_or]
        exact ⟨hy, Ne.symm hne, hb⟩
      rw [rfind_eq hs' hrest, List.length_append, List.length_cons]
      omega
    · have hno : sep ∉ s.toList := by
        rw [hs, List.mem_append, List.mem_cons, not_or, not_or]
        exact ⟨ha, Ne.symm hne, hb⟩
      rw [rfind_of_notMem hno]
      omega

/-- What stands after the last separator, and before it. -/
theorem append_cons_inj_right {b x y : List Char} (hx : sep ∉ x) (hy : sep ∉ y)
    (h : a ++ sep :: x = b ++ sep :: y) : a = b ∧ x = y := by
  have hreverse := congrArg List.reverse h
  simp only [List.reverse_append, List.reverse_cons, List.append_assoc, List.cons_append,
    List.nil_append] at hreverse
  obtain ⟨hlast, hrest⟩ := append_cons_inj (fun hm => hx (List.mem_reverse.mp hm))
    (fun hm => hy (List.mem_reverse.mp hm)) hreverse
  exact ⟨List.reverse_injective hrest, List.reverse_injective hlast⟩

/-! ## Decimal texts -/

/-- `str` of a natural number determines it. -/
theorem natText_inj {m n : ℕ} (h : toString m = toString n) : m = n := by
  have hdigits : Nat.toDigits 10 m = Nat.toDigits 10 n := by
    rw [← Nat.toList_repr, ← Nat.toList_repr]
    exact congrArg String.toList h
  have hvalue := congrArg (fun digits => Nat.ofDigitChars 10 digits 0) hdigits
  simpa using hvalue

theorem not_mem_natText {c : Char} (hc : c.isDigit = false) (n : ℕ) :
    c ∉ (toString n).toList := by
  intro hmem
  have hdigit : c.isDigit = true :=
    Nat.isDigit_of_mem_toDigits (b := 10) (by decide) (le_refl 10) (Nat.toList_repr ▸ hmem)
  rw [hc] at hdigit
  cases hdigit

/-- The last digits of a number, as `%0wd` prints them. -/
def fixedDigits : (width : ℕ) → ℕ → List Char
  | 0, _ => []
  | width + 1, n => fixedDigits width (n / 10) ++ [Nat.digitChar (n % 10)]

theorem length_fixedDigits (width n : ℕ) : (fixedDigits width n).length = width := by
  induction width generalizing n with
  | zero => rfl
  | succ width ih => rw [fixedDigits, List.length_append, ih, List.length_singleton]

theorem digitChar_inj {m n : ℕ} (hm : m < 10) (hn : n < 10)
    (h : Nat.digitChar m = Nat.digitChar n) : m = n := by
  have hall : ∀ i < 10, ∀ j < 10, Nat.digitChar i = Nat.digitChar j → i = j := by decide
  exact hall m hm n hn h

theorem fixedDigits_inj {width m n : ℕ} (hm : m < 10 ^ width) (hn : n < 10 ^ width)
    (h : fixedDigits width m = fixedDigits width n) : m = n := by
  induction width generalizing m n with
  | zero => omega
  | succ width ih =>
    obtain ⟨hrest, hlast⟩ := List.append_inj' h rfl
    have hdigit := digitChar_inj (Nat.mod_lt m (by decide)) (Nat.mod_lt n (by decide))
      (List.singleton_inj.mp hlast)
    rw [pow_succ] at hm hn
    have hquotient := ih (by omega) (by omega) hrest
    omega

theorem not_mem_fixedDigits {c : Char} (hc : c.isDigit = false) (width n : ℕ) :
    c ∉ fixedDigits width n := by
  induction width generalizing n with
  | zero => exact List.not_mem_nil
  | succ width ih =>
    intro hmem
    rcases List.mem_append.mp hmem with hmem | hmem
    · exact ih _ hmem
    · have hdigit : (Nat.digitChar (n % 10)).isDigit = true := by
        rw [Nat.isDigit_digitChar]
        exact decide_eq_true (Nat.mod_lt n (by decide))
      rw [← List.mem_singleton.mp hmem, hc] at hdigit
      cases hdigit

/-! ## Lines and words -/

/-! ## Decoding -/

/-- A started UTF-8 sequence: the bits so far, how many bytes are missing, and the
range of the next one. -/
structure Sequence : Type where
  bits : ℕ
  missing : ℕ
  low : ℕ
  high : ℕ

/-- What a byte that follows no open sequence starts: a character, or a sequence;
`none` for a byte that starts nothing. -/
def start (b : ℕ) : Option (Char ⊕ Sequence) :=
  if b < 0x80 then some (.inl (Char.ofNat b))
  else if 0xc2 ≤ b ∧ b ≤ 0xdf then some (.inr ⟨b - 0xc0, 1, 0x80, 0xbf⟩)
  else if b = 0xe0 then some (.inr ⟨0, 2, 0xa0, 0xbf⟩)
  else if b = 0xed then some (.inr ⟨0xd, 2, 0x80, 0x9f⟩)
  else if 0xe1 ≤ b ∧ b ≤ 0xef then some (.inr ⟨b - 0xe0, 2, 0x80, 0xbf⟩)
  else if b = 0xf0 then some (.inr ⟨0, 3, 0x90, 0xbf⟩)
  else if b = 0xf4 then some (.inr ⟨4, 3, 0x80, 0x8f⟩)
  else if 0xf1 ≤ b ∧ b ≤ 0xf3 then some (.inr ⟨b - 0xf0, 3, 0x80, 0xbf⟩)
  else none

/-- U+FFFD, which replaces what does not decode. -/
def replacement : Char := Char.ofNat 0xfffd

/-- The characters a list of bytes decodes to after the open sequence. A byte that
does not continue the sequence ends it, and is looked at again. -/
def decodeChars : Option Sequence → List UInt8 → List Char
  | none, [] => []
  | some _, [] => [replacement]
  | none, b :: bytes =>
    match start b.toNat with
    | some (.inl c) => c :: decodeChars none bytes
    | some (.inr s) => decodeChars (some s) bytes
    | none => replacement :: decodeChars none bytes
  | some s, b :: bytes =>
    let bits := s.bits * 64 + (b.toNat - 0x80)
    if s.low ≤ b.toNat ∧ b.toNat ≤ s.high then
      if s.missing = 1 then Char.ofNat bits :: decodeChars none bytes
      else decodeChars (some ⟨bits, s.missing - 1, 0x80, 0xbf⟩) bytes
    else
      replacement ::
        match start b.toNat with
        | some (.inl c) => c :: decodeChars none bytes
        | some (.inr s') => decodeChars (some s') bytes
        | none => replacement :: decodeChars none bytes

/-- `bytes.decode(errors="replace")`. -/
def decodeReplace (bytes : List UInt8) : String := String.ofList (decodeChars none bytes)

/-- A cut sequence is replaced as a whole, and the byte after it is kept. -/
example : decodeChars none [0x68, 0xe2, 0x82, 0xac, 0xf0, 0x90, 0x41, 0xff] =
    ['h', '€', replacement, 'A', replacement] := by decide

/-! ## Encoding -/

section Sequences

variable {b : UInt8} {bytes : List UInt8} {bits missing low high n : ℕ}

end Sequences

/-! ## Numbers -/

end PyText
