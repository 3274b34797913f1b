import Mathlib.Tactic.Common

/-!
# Truth in SQL

A condition of a `WHERE` is true, false or unknown, and `none` stands for unknown: that is what a
comparison with `NULL` is. A row is selected when the condition is true; over conditions without a
`NOT` that is as in two-valued logic.
-/

/-- The value of a condition. -/
abbrev SqlTruth : Type := Option Bool

namespace SqlTruth

/-- The condition selects the row. -/
def Holds (t : SqlTruth) : Prop := t = some true

instance (t : SqlTruth) : Decidable t.Holds := inferInstanceAs (Decidable (t = some true))

/-- A condition on columns that are never `NULL`. -/
def known (b : Bool) : SqlTruth := some b

/-- `AND`. -/
def both : SqlTruth → SqlTruth → SqlTruth
  | some false, _ | _, some false => some false
  | some true, some true => some true
  | _, _ => none

/-- `OR`. -/
def either : SqlTruth → SqlTruth → SqlTruth
  | some true, _ | _, some true => some true
  | some false, some false => some false
  | _, _ => none

/-- `AND` of a list. -/
def all (ts : List SqlTruth) : SqlTruth := ts.foldr both (some true)

/-- `OR` of a list; `false` of none. -/
def any (ts : List SqlTruth) : SqlTruth := ts.foldr either (some false)

variable {α : Type}

/-- A predicate of a nullable column. -/
def ofColumn (p : α → Bool) (column : Option α) : SqlTruth := column.map p

/-- `column = value`. -/
def eq [DecidableEq α] (column : Option α) (value : α) : SqlTruth :=
  column.map fun a => decide (a = value)

/-- `column IN (…)`. -/
def isIn [DecidableEq α] (column : Option α) (values : List α) : SqlTruth :=
  column.map fun a => decide (a ∈ values)

def coalesce (columns : List (Option α)) : Option α := columns.findSome? id

variable {t u : SqlTruth} {ts : List SqlTruth} {column : Option α}

@[simp]
theorem holds_known {b : Bool} : Holds (known b) ↔ b = true := by
  simp [Holds, known]

@[simp]
theorem holds_both : Holds (both t u) ↔ Holds t ∧ Holds u := by
  rcases t with _ | _ | _ <;> rcases u with _ | _ | _ <;> simp [Holds, both]

@[simp]
theorem holds_either : Holds (either t u) ↔ Holds t ∨ Holds u := by
  rcases t with _ | _ | _ <;> rcases u with _ | _ | _ <;> simp [Holds, either]

@[simp]
theorem holds_all : Holds (all ts) ↔ ∀ t ∈ ts, Holds t := by
  induction ts with
  | nil => simp [all, Holds]
  | cons t ts ih =>
    have hcons : all (t :: ts) = both t (all ts) := rfl
    simp [hcons, ih]

@[simp]
theorem holds_any : Holds (any ts) ↔ ∃ t ∈ ts, Holds t := by
  induction ts with
  | nil => simp [any, Holds]
  | cons t ts ih =>
    have hcons : any (t :: ts) = either t (any ts) := rfl
    simp [hcons, ih]

@[simp]
theorem holds_ofColumn {p : α → Bool} :
    Holds (ofColumn p column) ↔ ∃ a ∈ column, p a = true := by
  cases column <;> simp [Holds, ofColumn]

@[simp]
theorem holds_eq [DecidableEq α] {value : α} : Holds (eq column value) ↔ column = some value := by
  cases column <;> simp [Holds, eq]

@[simp]
theorem holds_isIn [DecidableEq α] {values : List α} :
    Holds (isIn column values) ↔ ∃ a ∈ values, column = some a := by
  cases column <;> simp [Holds, isIn]

/-- With a `NULL` the condition may be unknown, and unknown does not select the row. -/
example : ¬Holds (both (eq (none : Option ℕ) 1) (known true)) := by decide

end SqlTruth
