import Mobility.Lib.Totals
import Mathlib.Order.Max

/-!
# Accruals — when a running total first reaches a goal

Every row carries an instant and an amount.  `accrued` adds up the rows to an instant, and
`ReachesFirst` says at which instant that total first reaches a goal.  Going through the
rows in the order of their instants finds it, and a row that comes last moves it only where
the rows before it fall short.
-/

namespace Mobility
namespace Lib

universe u v

section

variable {α : Type u} {τ : Type v} [LinearOrder τ]

/-- The total of the rows up to an instant. -/
def accrued (instant : α → τ) (amount : α → Int) (rows : List α) (t : τ) : Int :=
  total (fun x => decide (instant x ≤ t)) amount rows

/-- At this instant, and at none before, the total has reached the goal. -/
structure ReachesFirst (instant : α → τ) (amount : α → Int) (rows : List α) (goal : Int) (t : τ) :
    Prop where
  reached : goal ≤ accrued instant amount rows t
  before : ∀ t' < t, accrued instant amount rows t' < goal

/-- The instant of the row with which a running total reaches the goal. -/
def firstReaching (instant : α → τ) (amount : α → Int) (goal : Int) : Int → List α → Option τ
  | _, [] => none
  | acc, x :: rest =>
      if goal ≤ acc + amount x then some (instant x)
      else firstReaching instant amount goal (acc + amount x) rest

variable {instant : α → τ} {amount : α → Int} {rows rows' : List α} {goal : Int} {x : α} {t : τ}

theorem accrued_cons :
    accrued instant amount (x :: rows) t
      = (if instant x ≤ t then amount x else 0) + accrued instant amount rows t := by
  simp [accrued]

theorem accrued_append :
    accrued instant amount (rows ++ rows') t
      = accrued instant amount rows t + accrued instant amount rows' t :=
  total_append

theorem accrued_singleton :
    accrued instant amount [x] t = if instant x ≤ t then amount x else 0 := by
  simp [accrued]

theorem accrued_perm (h : rows.Perm rows') :
    accrued instant amount rows t = accrued instant amount rows' t :=
  total_perm h

/-- Before the first row nothing has accrued. -/
theorem accrued_eq_zero (h : ∀ y ∈ rows, t < instant y) : accrued instant amount rows t = 0 :=
  total_eq_zero (fun y hy => by simpa using h y hy)

/-- After the last row everything has. -/
theorem accrued_eq_sum (h : ∀ y ∈ rows, instant y ≤ t) :
    accrued instant amount rows t = (rows.map amount).sum := by
  unfold accrued total
  rw [List.filter_eq_self.mpr (fun y hy => by simpa using h y hy)]

theorem accrued_nonneg (h : ∀ y ∈ rows, 0 ≤ amount y) : 0 ≤ accrued instant amount rows t :=
  total_nonneg h

theorem accrued_le_sum (h : ∀ y ∈ rows, 0 ≤ amount y) :
    accrued instant amount rows t ≤ (rows.map amount).sum := by
  have hall : total (fun _ => true) amount rows = (rows.map amount).sum := by
    simp [total]
  rw [← hall]
  exact total_le_total h (fun _ _ _ => rfl)

/-- There is a time before any finite number of rows. -/
theorem exists_accrued_eq_zero [Nonempty τ] [NoMinOrder τ] (instant : α → τ) (amount : α → Int)
    (rows : List α) : ∃ t, accrued instant amount rows t = 0 := by
  have hearly : ∃ t, ∀ y ∈ rows, t < instant y := by
    induction rows with
    | nil => exact ⟨Classical.arbitrary τ, nofun⟩
    | cons y rest ih =>
        rcases ih with ⟨t, ht⟩
        rcases exists_lt (min t (instant y)) with ⟨t', ht'⟩
        refine ⟨t', ?_⟩
        intro z hz
        rcases List.mem_cons.mp hz with rfl | hz
        · exact ht'.trans_le (min_le_right _ _)
        · exact (ht'.trans_le (min_le_left _ _)).trans (ht z hz)
  rcases hearly with ⟨t, ht⟩
  exact ⟨t, accrued_eq_zero ht⟩

/-! ## The instant is found in order -/

/-- The running total of sorted rows first reaches the goal with the row that is answered. -/
theorem firstReaching_eq_some {acc : Int} (hsorted : rows.Pairwise (fun y z => instant y ≤ instant z))
    (hamount : ∀ y ∈ rows, 0 ≤ amount y) (hacc : acc < goal)
    (h : firstReaching instant amount goal acc rows = some t) :
    (∃ y ∈ rows, instant y = t) ∧ goal ≤ acc + accrued instant amount rows t
      ∧ ∀ t' < t, acc + accrued instant amount rows t' < goal := by
  induction rows generalizing acc with
  | nil => simp [firstReaching] at h
  | cons y rest ih =>
      rcases List.pairwise_cons.mp hsorted with ⟨hfirst, hrest⟩
      have hamount' : ∀ z ∈ rest, 0 ≤ amount z := fun z hz => hamount z (List.mem_cons_of_mem _ hz)
      rw [firstReaching] at h
      split_ifs at h with hreach
      · -- this row completes the total, and nothing came before it
        have hsame : instant y = t := Option.some.inj h
        have hmine : 0 ≤ accrued instant amount rest t := accrued_nonneg hamount'
        refine ⟨⟨y, List.mem_cons_self, hsame⟩, ?_, ?_⟩
        · rw [accrued_cons, if_pos hsame.le]
          omega
        · intro t' ht'
          have hnone : accrued instant amount (y :: rest) t' = 0 := by
            refine accrued_eq_zero ?_
            intro z hz
            rcases List.mem_cons.mp hz with rfl | hz
            · exact hsame ▸ ht'
            · exact (hsame ▸ ht').trans_le (hfirst z hz)
          rw [hnone, add_zero]
          exact hacc
      · rcases ih hrest hamount' (not_le.mp hreach) h with ⟨⟨z, hz, hzt⟩, hreached, hbefore⟩
        have hy : instant y ≤ t := hzt ▸ hfirst z hz
        refine ⟨⟨z, List.mem_cons_of_mem _ hz, hzt⟩, ?_, ?_⟩
        · rw [accrued_cons, if_pos hy]
          omega
        · intro t' ht'
          have hle : (if instant y ≤ t' then amount y else 0) ≤ amount y := by
            split_ifs
            · exact le_refl _
            · exact hamount y List.mem_cons_self
          have hlt := hbefore t' ht'
          rw [accrued_cons]
          omega

theorem ReachesFirst.of_firstReaching (hsorted : rows.Pairwise (fun y z => instant y ≤ instant z))
    (hamount : ∀ y ∈ rows, 0 ≤ amount y) (hgoal : 0 < goal)
    (h : firstReaching instant amount goal 0 rows = some t) :
    ReachesFirst instant amount rows goal t := by
  rcases firstReaching_eq_some hsorted hamount hgoal h with ⟨_, hreached, hbefore⟩
  simp only [zero_add] at hreached hbefore
  exact ⟨hreached, hbefore⟩

omit [LinearOrder τ] in
/-- The search finds an instant whenever the rows add up to the goal. -/
theorem exists_firstReaching (instant : α → τ) {acc : Int} (hacc : acc < goal)
    (hgoal : goal ≤ acc + (rows.map amount).sum) :
    ∃ t, firstReaching instant amount goal acc rows = some t := by
  induction rows generalizing acc with
  | nil =>
      rw [List.map_nil, List.sum_nil] at hgoal
      omega
  | cons y rest ih =>
      rw [firstReaching]
      split_ifs with hreach
      · exact ⟨_, rfl⟩
      · refine ih (not_le.mp hreach) ?_
        rw [List.map_cons, List.sum_cons] at hgoal
        omega

/-! ## A row that comes last -/

section

variable (hlate : ∀ y ∈ rows, instant y ≤ instant x)
include hlate

theorem accrued_append_singleton :
    accrued instant amount (rows ++ [x]) (instant x) = (rows.map amount).sum + amount x := by
  rw [accrued_append, accrued_singleton, if_pos (le_refl _), accrued_eq_sum hlate]

/-- Where the rows before it had reached the goal, a last row does not move the instant. -/
theorem ReachesFirst.of_append (hamount : 0 ≤ amount x) (hgoal : goal ≤ (rows.map amount).sum)
    (h : ReachesFirst instant amount (rows ++ [x]) goal t) :
    ReachesFirst instant amount rows goal t := by
  have hle : t ≤ instant x := by
    by_contra hlt
    have hbefore := h.before (instant x) (not_le.mp hlt)
    rw [accrued_append_singleton hlate] at hbefore
    omega
  refine ⟨?_, ?_⟩
  · rcases hle.lt_or_eq with hlt | rfl
    · have hreached := h.reached
      rw [accrued_append, accrued_singleton, if_neg (not_le.mpr hlt), add_zero] at hreached
      exact hreached
    · rw [accrued_eq_sum hlate]
      exact hgoal
  · intro t' ht'
    have hbefore := h.before t' ht'
    rw [accrued_append, accrued_singleton] at hbefore
    split_ifs at hbefore <;> omega

/-- Where they fell short, only the last row's own instant can be the first. -/
theorem ReachesFirst.eq_of_append (hnonneg : ∀ y ∈ rows, 0 ≤ amount y)
    (hgoal : (rows.map amount).sum < goal)
    (h : ReachesFirst instant amount (rows ++ [x]) goal t) :
    t = instant x ∧ goal ≤ (rows.map amount).sum + amount x := by
  have hreached := h.reached
  have hshort : accrued instant amount rows t ≤ (rows.map amount).sum := accrued_le_sum hnonneg
  rw [accrued_append, accrued_singleton] at hreached
  have hle : instant x ≤ t := by
    by_contra hlt
    rw [if_neg hlt] at hreached
    omega
  rw [if_pos hle] at hreached
  have hsum : goal ≤ (rows.map amount).sum + amount x := by omega
  refine ⟨le_antisymm ?_ hle, hsum⟩
  by_contra hlt
  have hbefore := h.before (instant x) (not_le.mp hlt)
  rw [accrued_append_singleton hlate] at hbefore
  omega

end

/-! ## A goal that moves -/

/-- A goal may move wherever no accrued total lies between the old and the new one. -/
theorem ReachesFirst.of_moved {goal' : Int}
    (hmoved : ∀ t, goal ≤ accrued instant amount rows t ↔ goal' ≤ accrued instant amount rows t)
    (h : ReachesFirst instant amount rows goal' t) : ReachesFirst instant amount rows goal t := by
  refine ⟨(hmoved t).mpr h.reached, ?_⟩
  intro t' ht'
  have hbefore := not_le.mpr (h.before t' ht')
  exact not_le.mp (fun hle => hbefore ((hmoved t').mp hle))

end

end Lib
end Mobility
