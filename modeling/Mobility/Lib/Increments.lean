import Mobility.Lib.Totals

/-!
# Increments — a running total charged step by step

A function `worth` of a running total is charged in increments: a row that adds its size
to a total of `before` is charged `worth (before + size) - worth before`.  Whatever was
rounded on the way, the charges add up to the worth of the whole total.

* `Charged worth size charge before rows`: the rows are charged one after the other.
* `Exact p worth size charge rows`: the charges of the rows that pass are the worth of
  their sizes.

Books stay exact in two ways: a row is appended as one more increment, or all rows are
charged again from zero.
-/

namespace Mobility
namespace Lib

universe u v

variable {α : Type u} {β : Type v} {p : α → Bool} {worth : Int → Int} {size charge : α → Int}
  {rows : List α} {row : α}

/-- The rows in order, each charged as an increment on what came before it. -/
inductive Charged (worth : Int → Int) (size charge : α → Int) : Int → List α → Prop
  | nil {before : Int} : Charged worth size charge before []
  | cons {before : Int} {row : α} {rows : List α} :
      charge row = worth (before + size row) - worth before →
      Charged worth size charge (before + size row) rows →
      Charged worth size charge before (row :: rows)

/-- The charges telescope. -/
theorem Charged.sum {before : Int} (h : Charged worth size charge before rows) :
    (rows.map charge).sum = worth (before + (rows.map size).sum) - worth before := by
  induction h with
  | nil => simp
  | cons hrow _ ih =>
      rw [List.map_cons, List.sum_cons, List.map_cons, List.sum_cons, hrow, ih, ← Int.add_assoc]
      omega

/-- One more row at the end. -/
theorem Charged.concat {before : Int} (h : Charged worth size charge before rows)
    (hrow : charge row = worth (before + (rows.map size).sum + size row)
      - worth (before + (rows.map size).sum)) :
    Charged worth size charge before (rows ++ [row]) := by
  induction h with
  | nil => exact .cons (by simpa using hrow) .nil
  | cons hfirst _ ih =>
      refine .cons hfirst (ih ?_)
      simpa [Int.add_assoc] using hrow

/-- The charges of the rows that pass are the worth of their sizes. -/
def Exact (p : α → Bool) (worth : Int → Int) (size charge : α → Int) (rows : List α) : Prop :=
  total p charge rows = worth (total p size rows)

theorem Exact.append (h : Exact p worth size charge rows)
    (hrow : p row = true →
      charge row = worth (total p size rows + size row) - worth (total p size rows)) :
    Exact p worth size charge (rows ++ [row]) := by
  unfold Exact at h ⊢
  simp only [total_append, total_cons, total_nil, Int.add_zero]
  split_ifs with hp
  · rw [h, hrow hp]
    omega
  · rw [Int.add_zero, Int.add_zero]
    exact h

/-- Only the columns of the rows that pass matter. -/
theorem Exact.congr {size' charge' : α → Int} (h : Exact p worth size charge rows)
    (hrows : ∀ x ∈ rows, p x = true → size x = size' x ∧ charge x = charge' x) :
    Exact p worth size' charge' rows := by
  unfold Exact at h ⊢
  rw [← total_congr_amount (fun x hx hp => (hrows x hx hp).1),
    ← total_congr_amount (fun x hx hp => (hrows x hx hp).2)]
  exact h

/-- Rows whose columns are those of a charged list, and zero outside of it, are exact. -/
theorem exact_of_charged {charged : List α} {lines : List β}
    {lineSize lineCharge : β → Int} (hzero : worth 0 = 0) (hrows : rows.Nodup)
    (hcharged : Charged worth lineSize lineCharge 0 lines)
    (hlines : List.Forall₂ (fun x line => p x = true ∧ size x = lineSize line
      ∧ charge x = lineCharge line) charged lines)
    (hnodup : charged.Nodup) (hsubset : ∀ x ∈ charged, x ∈ rows)
    (hother : ∀ x ∈ rows, x ∉ charged → p x = true → size x = 0 ∧ charge x = 0) :
    Exact p worth size charge rows := by
  have hcolumn : ∀ (column : α → Int) (lineColumn : β → Int),
      (∀ x line, p x = true ∧ size x = lineSize line ∧ charge x = lineCharge line →
        column x = lineColumn line) →
      (∀ x ∈ rows, x ∉ charged → p x = true → column x = 0) →
      total p column rows = (lines.map lineColumn).sum := by
    intro column lineColumn hline hout
    calc
      total p column rows = total p column charged := by
        refine (total_of_subset hnodup hrows hsubset ?_).symm
        intro x hx hmem
        cases hp : p x with
        | false => exact .inl rfl
        | true => exact .inr (hout x hx hmem hp)
      _ = total (fun _ => true) lineColumn lines := by
        refine total_forall₂ hlines ?_
        intro x line hxl
        exact ⟨hxl.1, hline x line hxl⟩
      _ = (lines.map lineColumn).sum := by
        simp [total]
  unfold Exact
  rw [hcolumn charge lineCharge (fun _ _ h => h.2.2) (fun x hx hmem hp => (hother x hx hmem hp).2),
    hcolumn size lineSize (fun _ _ h => h.2.1) (fun x hx hmem hp => (hother x hx hmem hp).1),
    hcharged.sum, hzero, Int.zero_add, Int.sub_zero]

end Lib
end Mobility
