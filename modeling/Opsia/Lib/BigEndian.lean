import Mathlib.Algebra.Group.Nat.Defs
import Mathlib.Data.List.Induction
import Mathlib.Tactic.Common

/-!
# Big-endian numbers and slices

Numbers of a fixed width in network byte order, and the slices of a text of bytes in which they
stand.
-/

namespace BigEndian

/-- A number in a number of bytes, the most significant first. -/
def bytes : (width : ℕ) → ℕ → List UInt8
  | 0, _ => []
  | width + 1, n => bytes width (n / 256) ++ [UInt8.ofNat n]

/-- The number that bytes stand for. -/
def value (raw : List UInt8) : ℕ := raw.foldl (fun n byte => n * 256 + byte.toNat) 0

@[simp] theorem length_bytes (width n : ℕ) : (bytes width n).length = width := by
  induction width generalizing n with
  | zero => rfl
  | succ width ih => simp [bytes, ih]

@[simp] theorem value_snoc (raw : List UInt8) (byte : UInt8) :
    value (raw ++ [byte]) = value raw * 256 + byte.toNat := by
  simp [value]

theorem value_bytes {width n : ℕ} (h : n < 256 ^ width) : value (bytes width n) = n := by
  induction width generalizing n with
  | zero =>
    rw [Nat.pow_zero] at h
    obtain rfl : n = 0 := by omega
    rfl
  | succ width ih =>
    have hquotient : n / 256 < 256 ^ width := by
      rw [Nat.pow_succ] at h
      omega
    rw [bytes, value_snoc, ih hquotient, UInt8.toNat_ofNat']
    omega

theorem bytes_value (raw : List UInt8) : bytes raw.length (value raw) = raw := by
  induction raw using List.reverseRecOn with
  | nil => rfl
  | append_singleton raw byte ih =>
    have hbyte := byte.toNat_lt
    have hquotient : (value raw * 256 + byte.toNat) / 256 = value raw := by omega
    rw [List.length_append, List.length_singleton, bytes, value_snoc, hquotient, ih]
    congr 2
    apply UInt8.toNat_inj.mp
    rw [UInt8.toNat_ofNat']
    omega

theorem value_lt (raw : List UInt8) : value raw < 256 ^ raw.length := by
  induction raw using List.reverseRecOn with
  | nil => decide
  | append_singleton raw byte ih =>
    have hbyte := byte.toNat_lt
    rw [List.length_append, List.length_singleton, Nat.pow_succ, value_snoc]
    omega

/-! ## Slices -/

/-- The bytes at an offset. -/
def slice (raw : List UInt8) (offset length : ℕ) : List UInt8 := (raw.drop offset).take length

theorem length_slice {raw : List UInt8} {offset length : ℕ} (h : offset + length ≤ raw.length) :
    (slice raw offset length).length = length := by
  rw [slice, List.length_take, List.length_drop]
  omega

/-- What stands first in a concatenation. -/
theorem slice_append_left {first : List UInt8} {length : ℕ} (h : first.length = length)
    (rest : List UInt8) : slice (first ++ rest) 0 length = first := by
  rw [slice, List.drop_zero, ← h, List.take_left]

/-- What stands behind the first part of a concatenation. -/
theorem slice_append_right {first : List UInt8} {offset : ℕ} (h : first.length ≤ offset)
    (rest : List UInt8) (length : ℕ) :
    slice (first ++ rest) offset length = slice rest (offset - first.length) length := by
  rw [slice, slice, List.drop_append, List.drop_eq_nil_of_le h, List.nil_append]

theorem slice_append_drop (raw : List UInt8) (offset length : ℕ) :
    slice raw offset length ++ raw.drop (offset + length) = raw.drop offset := by
  rw [slice, ← List.drop_drop, List.take_append_drop]

end BigEndian
