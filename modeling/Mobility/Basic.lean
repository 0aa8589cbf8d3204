import Mathlib.Algebra.Ring.Int.Defs
import Mathlib.Algebra.Ring.Nat
import Mathlib.Data.List.Sort

/-!
# Basic — values shared by the payout and the trip models

UUIDs are natural numbers (their order stands for the order of UUIDs).  Money is
an `Int`, the whole number of hundredths of a `Numeric(14, 2)`, and an instant is
an `Int`, a whole number of microseconds.
-/

namespace Mobility

abbrev Id := Nat

/-- `AppError(code, message, status_code=…)`: every refusal of a service call. -/
structure AppError where
  code : String
  message : String
  statusCode : Nat := 409
  deriving DecidableEq, Repr

/-- Rows in the order of a unique key, as `ORDER BY` returns them. -/
def orderBy {α : Type} (key : α → Nat) (rows : List α) : List α :=
  rows.insertionSort (fun a b => key a ≤ key b)

theorem orderBy_perm {α : Type} (key : α → Nat) (rows : List α) : (orderBy key rows).Perm rows :=
  List.perm_insertionSort _ rows

@[simp]
theorem mem_orderBy {α : Type} {key : α → Nat} {rows : List α} {x : α} :
    x ∈ orderBy key rows ↔ x ∈ rows :=
  (orderBy_perm key rows).mem_iff

end Mobility
