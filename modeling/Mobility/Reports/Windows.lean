import Mathlib.Algebra.Order.Group.Int
import Mathlib.Data.Int.Order.Basic
import Mathlib.Tactic.Linarith
import Mathlib.Tactic.Ring

/-!
# Windows — weekly and final report windows (`services/report_scheduling.py`)

`nextDueWindow` steps through the weeks from the start, `latestDueWindow` divides.  Both
answer about the same windows: the weekly ends strictly before the end of the campaign,
and the end itself.  Times are microseconds.
-/

namespace Mobility
namespace Reports

/-- `WEEK`. -/
def week : Int := 7 * 24 * 60 * 60 * 1000000

theorem week_pos : 0 < week := by
  decide

inductive ReportKind
  | weekly
  | final
  | custom
  deriving DecidableEq, Repr

structure Window where
  dueAt : Int
  kind : ReportKind
  deriving DecidableEq, Repr

/-! ## The two functions -/

/-- The loop of `next_due_window`: the first due week end that is not known. -/
def nextWeekly (endAt now : Int) (existing : List Int) (due : Int) : Option Window :=
  if due < endAt ∧ due ≤ now then
    if due ∉ existing then some { dueAt := due, kind := .weekly }
    else nextWeekly endAt now existing (due + week)
  else none
termination_by (endAt - due).toNat
decreasing_by
  have := week_pos
  omega

def nextDueWindow (start endAt now : Int) (existing : List Int) : Option Window :=
  if start ≥ endAt then none
  else
    match nextWeekly endAt now existing (start + week) with
    | some window => some window
    | none =>
        if endAt ≤ now ∧ endAt ∉ existing then some { dueAt := endAt, kind := .final } else none

def latestDueWindow (start endAt now : Int) : Option Window :=
  if start ≥ endAt ∨ now < min (start + week) endAt then none
  else if endAt ≤ now then some { dueAt := endAt, kind := .final }
  else some { dueAt := start + (now - start) / week * week, kind := .weekly }

/-! ## The windows of a campaign -/

/-- A weekly end before the end of the campaign, or its end. -/
inductive IsWindow (start endAt : Int) : Window → Prop
  | weekly (k : Nat) (hk : 1 ≤ k) (hend : start + k * week < endAt) :
      IsWindow start endAt { dueAt := start + k * week, kind := .weekly }
  | final : IsWindow start endAt { dueAt := endAt, kind := .final }

structure Due (start endAt now : Int) (window : Window) : Prop where
  isWindow : IsWindow start endAt window
  reached : window.dueAt ≤ now

section

variable {start endAt now : Int} {existing : List Int} {window window' : Window}

theorem IsWindow.le_end (h : IsWindow start endAt window) : window.dueAt ≤ endAt := by
  cases h with
  | weekly k _ hend => exact hend.le
  | final => exact le_refl _

/-- Windows have different ends: the final one is the only one at the end. -/
theorem IsWindow.eq_of_dueAt (h : IsWindow start endAt window) (h' : IsWindow start endAt window')
    (hdue : window.dueAt = window'.dueAt) : window = window' := by
  cases h with
  | weekly k _ hend =>
      cases h' with
      | weekly k' _ _ => rw [Window.mk.injEq]; exact ⟨hdue, rfl⟩
      | final => exact absurd hdue hend.ne
  | final =>
      cases h' with
      | weekly k' _ hend' => exact absurd hdue.symm hend'.ne
      | final => rfl

theorem Due.mono {now' : Int} (h : Due start endAt now window) (hnow : now ≤ now') :
    Due start endAt now' window :=
  ⟨h.isWindow, h.reached.trans hnow⟩

/-! ## Stepping through the weeks -/

theorem nextWeekly_some {due : Int} (h : nextWeekly endAt now existing due = some window) :
    window.kind = .weekly ∧ window.dueAt ∉ existing
      ∧ ∃ k : Nat, window.dueAt = due + k * week ∧ window.dueAt < endAt ∧ window.dueAt ≤ now := by
  induction due using nextWeekly.induct endAt now existing with
  | case1 due hdue hnew =>
      rw [nextWeekly, if_pos hdue, if_pos hnew] at h
      rw [← Option.some.inj h]
      exact ⟨rfl, hnew, 0, by simp, hdue.1, hdue.2⟩
  | case2 due hdue hknown ih =>
      rw [nextWeekly, if_pos hdue, if_neg hknown] at h
      rcases ih h with ⟨hkind, hnew, k, hk, hbounds⟩
      refine ⟨hkind, hnew, k + 1, ?_, hbounds⟩
      rw [hk]
      push_cast
      ring
  | case3 due hover =>
      rw [nextWeekly, if_neg hover] at h
      exact absurd h (by simp)

/-- The loop ends without a window only when every due week end is known. -/
theorem nextWeekly_none {due : Int} (h : nextWeekly endAt now existing due = none) :
    ∀ k : Nat, due + k * week < endAt → due + k * week ≤ now → due + k * week ∈ existing := by
  induction due using nextWeekly.induct endAt now existing with
  | case1 due hdue hnew =>
      rw [nextWeekly, if_pos hdue, if_pos hnew] at h
      exact absurd h (by simp)
  | case2 due hdue hknown ih =>
      rw [nextWeekly, if_pos hdue, if_neg hknown] at h
      intro k hend hnow
      cases k with
      | zero => simpa using not_not.mp hknown
      | succ k =>
          have hshift : due + ((k + 1 : Nat) : Int) * week = due + week + k * week := by
            push_cast
            ring
          rw [hshift] at hend hnow ⊢
          exact ih h k hend hnow
  | case3 due hover =>
      intro k hend hnow
      have hstep : (0 : Int) ≤ k * week := mul_nonneg (by positivity) week_pos.le
      exact absurd ⟨by omega, by omega⟩ hover

theorem nextDueWindow_some (h : nextDueWindow start endAt now existing = some window) :
    Due start endAt now window ∧ window.dueAt ∉ existing := by
  by_cases hempty : start ≥ endAt
  · simp [nextDueWindow, hempty] at h
  rw [nextDueWindow, if_neg hempty] at h
  cases hweekly : nextWeekly endAt now existing (start + week) with
  | some found =>
      have hfound : found = window := by simpa [hweekly] using h
      subst hfound
      rcases nextWeekly_some hweekly with ⟨hkind, hnew, k, hk, hend, hnow⟩
      have hweeks : found.dueAt = start + ((k + 1 : Nat) : Int) * week := by
        rw [hk]
        push_cast
        ring
      have hfound : found = { dueAt := start + ((k + 1 : Nat) : Int) * week, kind := .weekly } := by
        rw [← hweeks, ← hkind]
      refine ⟨⟨?_, hnow⟩, hnew⟩
      rw [hfound]
      exact .weekly (k + 1) (by omega) (hweeks ▸ hend)
  | none =>
      simp only [hweekly] at h
      split_ifs at h with hfinal
      rw [← Option.some.inj h]
      exact ⟨⟨.final, hfinal.1⟩, hfinal.2⟩

theorem nextDueWindow_none (hlt : start < endAt)
    (h : nextDueWindow start endAt now existing = none) :
    ∀ window, Due start endAt now window → window.dueAt ∈ existing := by
  unfold nextDueWindow at h
  rw [if_neg (not_le.mpr hlt)] at h
  cases hweekly : nextWeekly endAt now existing (start + week) with
  | some found => simp [hweekly] at h
  | none =>
      simp only [hweekly] at h
      split_ifs at h with hfinal
      rintro window ⟨hwindow, hreached⟩
      cases hwindow with
      | weekly k hk hend =>
          rcases Nat.exists_eq_add_of_le' hk with ⟨j, rfl⟩
          have hshift : start + ((j + 1 : Nat) : Int) * week = start + week + j * week := by
            push_cast
            ring
          dsimp only at hreached ⊢
          rw [hshift] at hend hreached ⊢
          exact nextWeekly_none hweekly j hend hreached
      | final =>
          by_contra hnew
          exact hfinal ⟨hreached, hnew⟩

/-! ## Dividing -/

/-- The window that the division finds is due, and nothing due is later. -/
theorem latestDueWindow_some (h : latestDueWindow start endAt now = some window) :
    Due start endAt now window
      ∧ ∀ window', Due start endAt now window' → window'.dueAt ≤ window.dueAt := by
  unfold latestDueWindow at h
  split_ifs at h with hnone hend
  · rw [← Option.some.inj h]
    exact ⟨⟨.final, hend⟩, fun window' hdue => hdue.isWindow.le_end⟩
  · rw [← Option.some.inj h]
    have hfirst : start + week ≤ now := by omega
    have hpos := week_pos
    have hquot : 1 ≤ (now - start) / week := by
      rw [Int.le_ediv_iff_mul_le hpos]
      omega
    have hfloor : (now - start) / week * week ≤ now - start := Int.ediv_mul_le _ hpos.ne'
    rcases Int.eq_ofNat_of_zero_le (by omega : 0 ≤ (now - start) / week) with ⟨k, hk⟩
    constructor
    · refine ⟨?_, ?_⟩
      · rw [hk] at hfloor hquot ⊢
        exact .weekly k (by omega) (by omega)
      · dsimp only
        omega
    · rintro window' ⟨hwindow, hreached⟩
      cases hwindow with
      | weekly j hj _ =>
          dsimp only at hreached ⊢
          have hle : (j : Int) ≤ (now - start) / week := by
            rw [Int.le_ediv_iff_mul_le hpos]
            omega
          have hmul := mul_le_mul_of_nonneg_right hle hpos.le
          omega
      | final => exact absurd hreached hend

theorem latestDueWindow_none (hlt : start < endAt) :
    latestDueWindow start endAt now = none ↔ ∀ window, ¬ Due start endAt now window := by
  constructor
  · intro h window hdue
    unfold latestDueWindow at h
    split_ifs at h with hnone
    have hearly : now < start + week ∧ now < endAt :=
      lt_min_iff.mp (hnone.resolve_left (not_le.mpr hlt))
    rcases hdue with ⟨hwindow, hreached⟩
    cases hwindow with
    | weekly k hk hend =>
        have hmul : 1 * week ≤ k * week :=
          mul_le_mul_of_nonneg_right (by exact_mod_cast hk) week_pos.le
        have hdue : start + k * week ≤ now := hreached
        omega
    | final => exact absurd hreached (not_le.mpr hearly.2)
  · intro h
    cases hlatest : latestDueWindow start endAt now with
    | none => rfl
    | some window => exact absurd (latestDueWindow_some hlatest).1 (h window)

end

end Reports
end Mobility
