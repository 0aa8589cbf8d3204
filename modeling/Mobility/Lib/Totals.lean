import Mathlib.Algebra.BigOperators.Group.Finset.Basic
import Mathlib.Algebra.BigOperators.Group.List.Basic
import Mathlib.Algebra.Order.BigOperators.Group.List
import Mathlib.Tactic.Ring
import Mobility.Lib.Table

/-!
# Totals — sums over the rows that pass a test

`total p amount rows` adds up one column of the rows that pass `p`.  The rules say how a
total follows its table when rows are added or one row is rewritten, and how totals of
non-negative columns compare.
-/

namespace Mobility
namespace Lib

universe u v

variable {α : Type u} {p q : α → Bool} {amount : α → Int} {rows rows' : List α}

/-- The sum of a column over the rows that pass. -/
def total (p : α → Bool) (amount : α → Int) (rows : List α) : Int :=
  ((rows.filter p).map amount).sum

@[simp]
theorem total_nil : total p amount [] = 0 := rfl

@[simp]
theorem total_append : total p amount (rows ++ rows') = total p amount rows + total p amount rows' := by
  simp [total]

@[simp]
theorem total_cons {x : α} :
    total p amount (x :: rows) = (if p x then amount x else 0) + total p amount rows := by
  by_cases hx : p x = true
  · simp [total, hx]
  · simp [total, hx]

/-- Only the rows that pass matter. -/
theorem total_congr (h : ∀ x ∈ rows, p x = q x) : total p amount rows = total q amount rows := by
  unfold total
  rw [List.filter_congr h]

/-- Rows with a zero in the column do not matter either. -/
theorem total_congr_of_zero (h : ∀ x ∈ rows, p x = q x ∨ amount x = 0) :
    total p amount rows = total q amount rows := by
  induction rows with
  | nil => rfl
  | cons x xs ih =>
      have hrest := ih (fun y hy => h y (List.mem_cons_of_mem _ hy))
      rw [total_cons, total_cons, hrest]
      rcases h x (by simp) with hsame | hzero
      · rw [hsame]
      · simp [hzero]

/-- Only the column of the passing rows matters. -/
theorem total_congr_amount {amount' : α → Int}
    (h : ∀ x ∈ rows, p x = true → amount x = amount' x) :
    total p amount rows = total p amount' rows := by
  unfold total
  refine congrArg List.sum (List.map_congr_left ?_)
  intro x hx
  rcases List.mem_filter.mp hx with ⟨hmem, hpass⟩
  exact h x hmem hpass

/-- The total of a sum of columns is the sum of their totals. -/
theorem total_sum {κ : Type v} (keys : Finset κ) (column : κ → α → Int) :
    total p (fun x => ∑ k ∈ keys, column k x) rows = ∑ k ∈ keys, total p (column k) rows := by
  induction rows with
  | nil => simp
  | cons x xs ih =>
      simp only [total_cons, Finset.sum_add_distrib, ih]
      split_ifs <;> simp

theorem total_add {amount' : α → Int} :
    total p (fun x => amount x + amount' x) rows = total p amount rows + total p amount' rows := by
  induction rows with
  | nil => simp
  | cons x xs ih =>
      simp only [total_cons, ih]
      split_ifs <;> omega

theorem total_eq_zero (h : ∀ x ∈ rows, p x = false) : total p amount rows = 0 := by
  unfold total
  rw [List.filter_eq_nil_iff.mpr (fun x hx => by simp [h x hx])]
  rfl

theorem total_nonneg (h : ∀ x ∈ rows, 0 ≤ amount x) : 0 ≤ total p amount rows := by
  refine List.sum_nonneg ?_
  intro y hy
  rcases List.mem_map.mp hy with ⟨x, hx, rfl⟩
  exact h x (List.mem_of_mem_filter hx)

theorem le_total (h : ∀ x ∈ rows, 0 ≤ amount x) {x : α} (hx : x ∈ rows) (hp : p x = true) :
    amount x ≤ total p amount rows := by
  refine List.single_le_sum ?_ _ (List.mem_map_of_mem (List.mem_filter.mpr ⟨hx, hp⟩))
  intro value hvalue
  rcases List.mem_map.mp hvalue with ⟨y, hy, rfl⟩
  exact h y (List.mem_of_mem_filter hy)

/-- A weaker test passes more of a non-negative column. -/
theorem total_le_total (h : ∀ x ∈ rows, 0 ≤ amount x)
    (hpq : ∀ x ∈ rows, p x = true → q x = true) : total p amount rows ≤ total q amount rows := by
  induction rows with
  | nil => exact le_refl _
  | cons x xs ih =>
      have hrest := ih (fun y hy => h y (List.mem_cons_of_mem _ hy))
        (fun y hy => hpq y (List.mem_cons_of_mem _ hy))
      have hx : (if p x then amount x else 0) ≤ if q x then amount x else 0 := by
        split_ifs with hp hq hq
        · exact le_refl _
        · exact absurd (hpq x (by simp) hp) hq
        · exact h x (by simp)
        · exact le_refl _
      calc
        total p amount (x :: xs) = (if p x then amount x else 0) + total p amount xs := total_cons
        _ ≤ (if q x then amount x else 0) + total q amount xs := Int.add_le_add hx hrest
        _ = total q amount (x :: xs) := total_cons.symm

/-- A total does not see a reordering. -/
theorem total_perm (h : rows.Perm rows') : total p amount rows = total p amount rows' :=
  ((h.filter p).map amount).sum_eq

/-- Two lists whose rows agree one by one have the same total. -/
theorem total_forall₂ {β : Type v} {p' : β → Bool} {amount' : β → Int} {R : α → β → Prop}
    {rows' : List β} (h : List.Forall₂ R rows rows')
    (hR : ∀ x y, R x y → p x = p' y ∧ amount x = amount' y) :
    total p amount rows = total p' amount' rows' := by
  induction h with
  | nil => rfl
  | cons hxy _ ih => rw [total_cons, total_cons, ih, (hR _ _ hxy).1, (hR _ _ hxy).2]

/-- Rows that do not pass or have a zero in the column may be left out. -/
theorem total_of_subset (hnodup : rows.Nodup) (hnodup' : rows'.Nodup)
    (hsubset : ∀ x ∈ rows, x ∈ rows')
    (hzero : ∀ x ∈ rows', x ∉ rows → p x = false ∨ amount x = 0) :
    total p amount rows = total p amount rows' := by
  classical
  have hperm : rows.Perm (rows'.filter (· ∈ rows)) := by
    refine (List.perm_ext_iff_of_nodup hnodup (hnodup'.filter _)).mpr ?_
    intro x
    simp only [List.mem_filter, decide_eq_true_eq]
    exact ⟨fun hx => ⟨hsubset x hx, hx⟩, And.right⟩
  calc total p amount rows
      = total p amount (rows'.filter (· ∈ rows)) := total_perm hperm
    _ = total (fun x => p x && decide (x ∈ rows)) amount rows' := by
        rw [total, total, List.filter_filter]
    _ = total p amount rows' := by
        refine total_congr_of_zero ?_
        intro x hx
        by_cases hmem : x ∈ rows
        · exact .inl (by simp [hmem])
        · exact (hzero x hx hmem).imp_left (fun hfalse => by simp [hfalse])

/-- Rewriting rows that the total does not tell apart. -/
theorem total_map {f : α → α} (hp : ∀ x ∈ rows, p (f x) = p x)
    (hamount : ∀ x ∈ rows, p x = true → amount (f x) = amount x) :
    total p amount (rows.map f) = total p amount rows := by
  induction rows with
  | nil => rfl
  | cons x xs ih =>
      have hrest := ih (fun y hy => hp y (List.mem_cons_of_mem _ hy))
        (fun y hy => hamount y (List.mem_cons_of_mem _ hy))
      rw [List.map_cons, total_cons, total_cons, hrest, hp x (by simp)]
      split_ifs with hx
      · rw [hamount x (by simp) hx]
      · rfl

/-- Rewriting the one row with key `key x` moves the total by that row alone. -/
theorem total_rewrite {κ : Type v} [DecidableEq κ] {key : α → κ} (hnodup : (rows.map key).Nodup)
    {x : α} (hx : x ∈ rows) (f : α → α) :
    total p amount (rows.map (fun r => if key r = key x then f r else r))
      = total p amount rows - (if p x then amount x else 0)
        + if p (f x) then amount (f x) else 0 := by
  rcases exists_split_of_mem hnodup hx f with ⟨before, after, hrows, hmap⟩
  rw [hmap, hrows, total_append, total_append, total_cons, total_cons]
  ring

end Lib
end Mobility
