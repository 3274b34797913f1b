import Mathlib.Data.Nat.Notation
import Mathlib.Tactic.Common

/-!
# JSON values

The values that `json.loads` returns, with what the modelled code does to them:
equality, a field of an object, Python truth, and the size of its serialisation. A
number is kept as its literal, which is what `json.dumps` prints again.
-/

/-- A JSON value. -/
inductive Json : Type where
  | null
  | bool (b : Bool)
  | num (literal : String)
  | str (s : String)
  | arr (items : List Json)
  | obj (fields : List (String × Json))
  deriving Repr

namespace Json

/-! ## Equality -/

mutual

/-- Equality of two values. -/
def decEq : (x y : Json) → Decidable (x = y)
  | .null, .null => isTrue rfl
  | .bool a, .bool b => decidable_of_iff (a = b) ⟨fun h => h ▸ rfl, fun h => by cases h; rfl⟩
  | .num a, .num b => decidable_of_iff (a = b) ⟨fun h => h ▸ rfl, fun h => by cases h; rfl⟩
  | .str a, .str b => decidable_of_iff (a = b) ⟨fun h => h ▸ rfl, fun h => by cases h; rfl⟩
  | .arr xs, .arr ys =>
    match decEqItems xs ys with
    | isTrue h => isTrue (h ▸ rfl)
    | isFalse h => isFalse fun he => h (by cases he; rfl)
  | .obj xs, .obj ys =>
    match decEqFields xs ys with
    | isTrue h => isTrue (h ▸ rfl)
    | isFalse h => isFalse fun he => h (by cases he; rfl)
  | .null, .bool _ | .null, .num _ | .null, .str _ | .null, .arr _ | .null, .obj _
  | .bool _, .null | .bool _, .num _ | .bool _, .str _ | .bool _, .arr _ | .bool _, .obj _
  | .num _, .null | .num _, .bool _ | .num _, .str _ | .num _, .arr _ | .num _, .obj _
  | .str _, .null | .str _, .bool _ | .str _, .num _ | .str _, .arr _ | .str _, .obj _
  | .arr _, .null | .arr _, .bool _ | .arr _, .num _ | .arr _, .str _ | .arr _, .obj _
  | .obj _, .null | .obj _, .bool _ | .obj _, .num _ | .obj _, .str _ | .obj _, .arr _ =>
    isFalse nofun

/-- Equality of two lists. -/
def decEqItems : (xs ys : List Json) → Decidable (xs = ys)
  | [], [] => isTrue rfl
  | [], _ :: _ | _ :: _, [] => isFalse nofun
  | x :: xs, y :: ys =>
    match decEq x y, decEqItems xs ys with
    | isTrue h, isTrue h' => isTrue (h ▸ h' ▸ rfl)
    | isFalse h, _ => isFalse fun he => h (List.cons.inj he).1
    | _, isFalse h => isFalse fun he => h (List.cons.inj he).2

/-- Equality of the fields of two objects. -/
def decEqFields : (xs ys : List (String × Json)) → Decidable (xs = ys)
  | [], [] => isTrue rfl
  | [], _ :: _ | _ :: _, [] => isFalse nofun
  | (k, x) :: xs, (l, y) :: ys =>
    match instDecidableEqString k l, decEq x y, decEqFields xs ys with
    | isTrue hk, isTrue h, isTrue h' => isTrue (hk ▸ h ▸ h' ▸ rfl)
    | isFalse h, _, _ => isFalse fun he => h (Prod.mk.inj (List.cons.inj he).1).1
    | _, isFalse h, _ => isFalse fun he => h (Prod.mk.inj (List.cons.inj he).1).2
    | _, _, isFalse h => isFalse fun he => h (List.cons.inj he).2

end

instance : DecidableEq Json := decEq

mutual

/-- `==` of two values; the fields of an object have no order. -/
def same : Json → Json → Bool
  | .null, .null => true
  | .bool a, .bool b => a = b
  | .num a, .num b => a = b
  | .str a, .str b => a = b
  | .arr xs, .arr ys => sameItems xs ys
  | .obj xs, .obj ys => xs.length = ys.length && sameFields xs ys
  | _, _ => false

/-- `==` of the items of two lists. -/
def sameItems : List Json → List Json → Bool
  | [], [] => true
  | x :: xs, y :: ys => same x y && sameItems xs ys
  | _, _ => false

/-- Every field is one of the other object, with an equal value. -/
def sameFields : List (String × Json) → List (String × Json) → Bool
  | [], _ => true
  | (k, x) :: xs, ys =>
    (match ys.lookup k with
      | some y => same x y
      | none => false) && sameFields xs ys

end

/-! ## Reading a value -/

/-- `value.get(field)` of a dictionary; `none` when the value is no dictionary. -/
def get? : Json → String → Option Json
  | .obj fields, field => fields.lookup field
  | _, _ => none

/-- `value.pop(field, None)` of a copy of a dictionary. -/
def pop (field : String) : Json → Json
  | .obj fields => .obj (fields.filter fun entry => entry.1 ≠ field)
  | value => value

/-- Python truth. -/
def truthy : Json → Bool
  | .null => false
  | .bool b => b
  | .num literal => literal ≠ "0" && literal ≠ "0.0" && literal ≠ "-0.0"
  | .str s => s ≠ ""
  | .arr items => !items.isEmpty
  | .obj fields => !fields.isEmpty

/-! ## Serialised size -/

/-- Bytes of a character inside a string of `json.dumps(…, ensure_ascii=False)`. -/
def charBytes (c : Char) : ℕ :=
  if c = '"' ∨ c = '\\' then 2
  else if c.val < 0x20 then
    if c.val = 0x8 ∨ c.val = 0x9 ∨ c.val = 0xa ∨ c.val = 0xc ∨ c.val = 0xd then 2 else 6
  else c.utf8Size

/-- Bytes of a serialised string, quotes included. -/
def stringBytes (s : String) : ℕ :=
  2 + s.toList.foldl (fun total c => total + charBytes c) 0

mutual

/-- `len(json.dumps(value, ensure_ascii=False, separators=(",", ":")).encode("utf-8"))`. -/
def bytes : Json → ℕ
  | .null => 4
  | .bool true => 4
  | .bool false => 5
  | .num literal => literal.utf8ByteSize
  | .str s => stringBytes s
  | .arr items => 2 + bytesItems items + (items.length - 1)
  | .obj fields => 2 + bytesFields fields + (fields.length - 1)

/-- The items of a list without the commas. -/
def bytesItems : List Json → ℕ
  | [] => 0
  | x :: xs => bytes x + bytesItems xs

/-- The fields of an object without the commas. -/
def bytesFields : List (String × Json) → ℕ
  | [] => 0
  | (k, x) :: xs => stringBytes k + 1 + bytes x + bytesFields xs

end

/-- `{"a":[1,null]}` takes fourteen bytes. -/
example : bytes (.obj [("a", .arr [.num "1", .null])]) = 14 := by decide

end Json
