import Mathlib.Data.Int.Notation
import Mathlib.Data.Nat.Notation

/-!
# Clocks and minted identifiers

The scalar values that every table of the platform shares.
-/

namespace Opsia

/-- A point in time, in seconds. -/
abbrev Timestamp : Type := ℤ

/-- An identifier minted by `uuid4`. -/
abbrev Uuid : Type := ℕ

end Opsia
