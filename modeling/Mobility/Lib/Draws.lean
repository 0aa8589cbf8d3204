import Mathlib.Algebra.BigOperators.Group.Finset.Piecewise
import Mobility.Lib.Totals

/-!
# Draws — requests served in order from limited accounts

Each request names an account and draws what is left there, at most what it asks.  The
order decides who is served, never how much an account gives in all.

* `draws left rows`: what each request gets.
* `Served left rows`: nobody goes away empty.
* `total_draws`: an account gives the smaller of what is asked and what it holds.
-/

namespace Mobility
namespace Lib

universe u v

variable {κ : Type u} [DecidableEq κ] {left : κ → Int} {rows rows' : List (κ × Int)}

/-- What is asked of one account. -/
def asked (k : κ) (rows : List (κ × Int)) : Int :=
  total (fun row => decide (row.1 = k)) (·.2) rows

/-- What is left after one request. -/
def leftAfter (left : κ → Int) (row : κ × Int) : κ → Int :=
  Function.update left row.1 (left row.1 - min row.2 (left row.1))

/-- Each request draws what is left of its account, in order. -/
def draws (left : κ → Int) : List (κ × Int) → List (κ × Int)
  | [] => []
  | row :: rows => (row.1, min row.2 (left row.1)) :: draws (leftAfter left row) rows

/-- Every request gets something. -/
def Served (left : κ → Int) (rows : List (κ × Int)) : Prop :=
  ∀ row ∈ draws left rows, 0 < row.2

instance (left : κ → Int) (rows : List (κ × Int)) : Decidable (Served left rows) :=
  inferInstanceAs (Decidable (∀ row ∈ draws left rows, 0 < row.2))

@[simp]
theorem asked_nil (k : κ) : asked k ([] : List (κ × Int)) = 0 := rfl

@[simp]
theorem asked_cons (k : κ) (row : κ × Int) (rows : List (κ × Int)) :
    asked k (row :: rows) = (if row.1 = k then row.2 else 0) + asked k rows := by
  simp [asked]

@[simp]
theorem asked_append (k : κ) (rows rows' : List (κ × Int)) :
    asked k (rows ++ rows') = asked k rows + asked k rows' := by
  simp [asked]

theorem asked_perm (h : rows.Perm rows') (k : κ) : asked k rows = asked k rows' :=
  total_perm h

theorem asked_nonneg (h : ∀ row ∈ rows, 0 ≤ row.2) (k : κ) : 0 ≤ asked k rows :=
  total_nonneg h

theorem le_asked (h : ∀ row ∈ rows, 0 ≤ row.2) {row : κ × Int} (hrow : row ∈ rows) :
    row.2 ≤ asked row.1 rows :=
  le_total h hrow (by simp)

theorem asked_eq_zero {k : κ} (h : ∀ row ∈ rows, row.1 ≠ k) : asked k rows = 0 :=
  total_eq_zero (fun row hrow => by simpa using h row hrow)

/-- What is asked of a set of accounts, account by account. -/
theorem sum_asked (keys : Finset κ) (rows : List (κ × Int)) :
    ∑ k ∈ keys, asked k rows = total (fun row => decide (row.1 ∈ keys)) (·.2) rows := by
  induction rows with
  | nil => simp
  | cons row rows ih =>
      have hrow : ∑ k ∈ keys, (if row.1 = k then row.2 else 0)
          = if row.1 ∈ keys then row.2 else 0 :=
        Finset.sum_ite_eq keys row.1 (fun _ => row.2)
      calc ∑ k ∈ keys, asked k (row :: rows)
          = ∑ k ∈ keys, (if row.1 = k then row.2 else 0) + ∑ k ∈ keys, asked k rows := by
            simp only [asked_cons, Finset.sum_add_distrib]
        _ = total (fun row => decide (row.1 ∈ keys)) (·.2) (row :: rows) := by
            rw [hrow, ih, total_cons]
            simp only [decide_eq_true_eq]

/-- Totals over classes of accounts follow from the totals of the accounts. -/
theorem total_of_asked (h : ∀ k, asked k rows = asked k rows') (p : κ → Bool) :
    total (fun row => p row.1) (·.2) rows = total (fun row => p row.1) (·.2) rows' := by
  let keys := ((rows ++ rows').map (·.1)).toFinset.filter (fun k => p k = true)
  -- the class, among the accounts that are named at all
  have hclass : ∀ rows₀ : List (κ × Int), (∀ row ∈ rows₀, row ∈ rows ++ rows') →
      total (fun row => p row.1) (·.2) rows₀ = ∑ k ∈ keys, asked k rows₀ := by
    intro rows₀ hmem
    rw [sum_asked]
    refine total_congr ?_
    intro row hrow
    have hnamed : row.1 ∈ ((rows ++ rows').map (·.1)).toFinset :=
      List.mem_toFinset.mpr (List.mem_map_of_mem (hmem row hrow))
    cases hp : p row.1 with
    | false => simp [keys, hp]
    | true => exact (decide_eq_true (Finset.mem_filter.mpr ⟨hnamed, hp⟩)).symm
  calc total (fun row => p row.1) (·.2) rows
      = ∑ k ∈ keys, asked k rows := hclass rows (fun _ => List.mem_append_left _)
    _ = ∑ k ∈ keys, asked k rows' := Finset.sum_congr rfl (fun k _ => h k)
    _ = total (fun row => p row.1) (·.2) rows' :=
        (hclass rows' (fun _ => List.mem_append_right _)).symm

/-! ## How much an account gives -/

theorem leftAfter_apply (left : κ → Int) (row : κ × Int) (k : κ) :
    leftAfter left row k = left k - if row.1 = k then min row.2 (left k) else 0 := by
  by_cases hk : k = row.1
  · subst hk
    simp [leftAfter]
  · have hk' : row.1 ≠ k := fun h => hk h.symm
    simp [leftAfter, Function.update_of_ne hk, hk']

theorem leftAfter_nonneg (hleft : ∀ k, 0 ≤ left k) (row : κ × Int) :
    ∀ k, 0 ≤ leftAfter left row k := by
  intro k
  have hk := hleft k
  rw [leftAfter_apply]
  split_ifs
  · have hmin := min_le_right row.2 (left k)
    omega
  · omega

/-- An account gives what is asked, or all that it holds. -/
theorem total_draws (hleft : ∀ k, 0 ≤ left k) (hrows : ∀ row ∈ rows, 0 ≤ row.2) (k : κ) :
    asked k (draws left rows) = min (asked k rows) (left k) := by
  induction rows generalizing left with
  | nil => simp [draws, hleft k]
  | cons row rows ih =>
      have hrest := ih (leftAfter_nonneg hleft row)
        (fun other hother => hrows other (List.mem_cons_of_mem _ hother))
      have hnonneg := asked_nonneg (fun other hother => hrows other (List.mem_cons_of_mem _ hother)) k
      have hrow := hrows row List.mem_cons_self
      have hk := hleft k
      rw [draws, asked_cons, asked_cons, hrest, leftAfter_apply]
      by_cases hsame : row.1 = k
      · subst hsame
        simp only [if_true]
        omega
      · simp only [if_neg hsame]
        omega

theorem draws_keys (left : κ → Int) (rows : List (κ × Int)) :
    (draws left rows).map (·.1) = rows.map (·.1) := by
  induction rows generalizing left with
  | nil => rfl
  | cons row rows ih => rw [draws, List.map_cons, List.map_cons, ih]

theorem draws_nonneg (hleft : ∀ k, 0 ≤ left k) (hrows : ∀ row ∈ rows, 0 ≤ row.2) :
    ∀ row ∈ draws left rows, 0 ≤ row.2 := by
  induction rows generalizing left with
  | nil => simp [draws]
  | cons row rows ih =>
      intro other hother
      rcases List.mem_cons.mp hother with rfl | hother
      · exact le_min (hrows row List.mem_cons_self) (hleft row.1)
      · exact ih (leftAfter_nonneg hleft row)
          (fun other hother => hrows other (List.mem_cons_of_mem _ hother)) other hother

/-- All that is given depends only on what each account is asked for. -/
theorem sum_draws_congr (hleft : ∀ k, 0 ≤ left k) (hrows : ∀ row ∈ rows, 0 ≤ row.2)
    (hrows' : ∀ row ∈ rows', 0 ≤ row.2) (h : ∀ k, asked k rows = asked k rows') :
    ((draws left rows).map (·.2)).sum = ((draws left rows').map (·.2)).sum := by
  have hasked : ∀ k, asked k (draws left rows) = asked k (draws left rows') := by
    intro k
    rw [total_draws hleft hrows, total_draws hleft hrows', h k]
  simpa [total] using total_of_asked hasked (fun _ => true)

/-! ## Who is served -/

/-- A request is served when what was asked before it leaves something. -/
theorem served_iff (hrows : ∀ row ∈ rows, 0 < row.2) :
    Served left rows ↔ ∀ before row after, rows = before ++ row :: after →
      asked row.1 before < left row.1 := by
  induction rows generalizing left with
  | nil => simp [Served, draws]
  | cons row rows ih =>
      have hrow := hrows row List.mem_cons_self
      have hrest : ∀ other ∈ rows, 0 < other.2 :=
        fun other hother => hrows other (List.mem_cons_of_mem _ hother)
      have hsplit : Served left (row :: rows)
          ↔ 0 < left row.1 ∧ Served (leftAfter left row) rows := by
        simp [Served, draws, hrow]
      rw [hsplit, ih hrest]
      constructor
      · rintro ⟨hfirst, hlater⟩ before other after heq
        cases before with
        | nil =>
            rcases List.cons.inj heq with ⟨rfl, rfl⟩
            exact hfirst
        | cons first before =>
            rcases List.cons.inj heq with ⟨rfl, rfl⟩
            have hother := hlater before other after rfl
            have hnonneg : 0 ≤ asked other.1 before :=
              asked_nonneg (fun x hx => (hrest x (List.mem_append_left _ hx)).le) other.1
            rw [leftAfter_apply] at hother
            rw [asked_cons]
            split_ifs at hother ⊢ <;> omega
      · intro hall
        refine ⟨hall [] row rows rfl, ?_⟩
        intro before other after heq
        have hother := hall (row :: before) other after (by rw [heq]; rfl)
        rw [asked_cons] at hother
        rw [leftAfter_apply]
        split_ifs at hother ⊢ <;> omega

/-- Any order serves all, when every request can come last. -/
theorem served_of_last (hrows : ∀ row ∈ rows, 0 < row.2)
    (h : ∀ row ∈ rows, asked row.1 rows - row.2 < left row.1) : Served left rows := by
  rw [served_iff hrows]
  rintro before row after rfl
  have hlast := h row (by simp)
  have hnonneg : 0 ≤ asked row.1 after :=
    asked_nonneg (fun x hx => (hrows x (by simp [hx])).le) row.1
  rw [asked_append, asked_cons, if_pos rfl] at hlast
  omega

theorem exists_last {α : Type v} {p : α → Prop} : ∀ {xs : List α}, (∃ x ∈ xs, p x) →
    ∃ before x after, xs = before ++ x :: after ∧ p x ∧ ∀ y ∈ after, ¬ p y := by
  intro xs
  induction xs with
  | nil => simp
  | cons x xs ih =>
      rintro ⟨y, hy, hpy⟩
      by_cases hlater : ∃ z ∈ xs, p z
      · rcases ih hlater with ⟨before, z, after, rfl, hz, hnone⟩
        exact ⟨x :: before, z, after, rfl, hz, hnone⟩
      · have hx : y = x := by
          rcases List.mem_cons.mp hy with heq | hmem
          · exact heq
          · exact absurd ⟨y, hmem, hpy⟩ hlater
        exact ⟨[], x, xs, rfl, hx ▸ hpy, fun z hz hpz => hlater ⟨z, hz, hpz⟩⟩

/-- No order serves all, when no request of some account can come last. -/
theorem not_served_of_last (hrows : ∀ row ∈ rows, 0 < row.2) {k : κ} (hk : ∃ row ∈ rows, row.1 = k)
    (h : ∀ row ∈ rows, row.1 = k → left k ≤ asked k rows - row.2) : ¬ Served left rows := by
  rw [served_iff hrows]
  intro hall
  rcases exists_last hk with ⟨before, row, after, rfl, rfl, hnone⟩
  have hbefore := hall before row after rfl
  have hlast := h row (by simp) rfl
  rw [asked_append, asked_cons, if_pos rfl, asked_eq_zero hnone] at hlast
  omega

/-! ## When the order does not matter -/

/-- In every account any request can come last, or in some account none can. -/
def OrderFree (left : κ → Int) (rows : List (κ × Int)) : Prop :=
  (∀ row ∈ rows, asked row.1 rows - row.2 < left row.1)
    ∨ ∃ first ∈ rows, ∀ row ∈ rows, row.1 = first.1 → left row.1 ≤ asked row.1 rows - row.2

instance (left : κ → Int) (rows : List (κ × Int)) : Decidable (OrderFree left rows) :=
  inferInstanceAs (Decidable (_ ∨ _))

theorem OrderFree.perm (h : OrderFree left rows) (hperm : rows.Perm rows') :
    OrderFree left rows' := by
  have hasked := asked_perm hperm
  rcases h with hall | ⟨first, hfirst, hnone⟩
  · refine .inl (fun row hrow => ?_)
    rw [← hasked]
    exact hall row (hperm.mem_iff.mpr hrow)
  · refine .inr ⟨first, hperm.mem_iff.mp hfirst, fun row hrow hsame => ?_⟩
    rw [← hasked]
    exact hnone row (hperm.mem_iff.mpr hrow) hsame

/-- Then any two orders serve all or neither does. -/
theorem OrderFree.served_perm (h : OrderFree left rows) (hrows : ∀ row ∈ rows, 0 < row.2)
    (hperm : rows.Perm rows') : Served left rows ↔ Served left rows' := by
  have hrows' : ∀ row ∈ rows', 0 < row.2 := fun row hrow => hrows row (hperm.mem_iff.mpr hrow)
  have hdecided : ∀ {rows₀ : List (κ × Int)}, OrderFree left rows₀ → (∀ row ∈ rows₀, 0 < row.2) →
      (Served left rows₀ ↔ ∀ row ∈ rows₀, asked row.1 rows₀ - row.2 < left row.1) := by
    intro rows₀ hfree hpositive
    rcases hfree with hall | ⟨first, hfirst, hnone⟩
    · exact ⟨fun _ => hall, fun _ => served_of_last hpositive hall⟩
    · have hno : ¬ Served left rows₀ := by
        refine not_served_of_last hpositive ⟨first, hfirst, rfl⟩ ?_
        intro row hrow hsame
        rw [← hsame]
        exact hnone row hrow hsame
      refine ⟨fun hserved => absurd hserved hno, fun hall => ?_⟩
      have hlast := hall first hfirst
      have hnot := hnone first hfirst rfl
      omega
  rw [hdecided h hrows, hdecided (h.perm hperm) hrows']
  have hasked := asked_perm hperm
  constructor
  · intro hall row hrow
    rw [← hasked]
    exact hall row (hperm.mem_iff.mpr hrow)
  · intro hall row hrow
    rw [hasked]
    exact hall row (hperm.mem_iff.mp hrow)

end Lib
end Mobility
