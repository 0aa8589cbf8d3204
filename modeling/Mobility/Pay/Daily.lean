import Mathlib.Algebra.Order.Floor.Ring
import Mathlib.Data.Rat.Floor
import Mathlib.Tactic.Positivity
import Mathlib.Tactic.Linarith
import Mobility.Trips.Types

/-!
# Daily — what a day is worth (`services/payouts/daily.py`)

`dayPayNaira` is D(d): the pay of a Lagos day of `d` whole metres, in hundredths
of a naira.  It starts at zero, never decreases and never exceeds the rounded
day rate; these are the facts that increments of D rely on.
-/

namespace Mobility
namespace Pay

open Trips (DailyRateTerms)

def metresPerMile : ℚ := 1609344 / 1000

/-- Exact hundredths, half up, of a non-negative fraction of a naira. -/
def halfUpNaira (value : ℚ) : Int :=
  ⌊value * 100 + 1 / 2⌋

def dayPayNaira (distanceM : Int) (terms : DailyRateTerms) : Int :=
  if distanceM ≤ 0 then 0
  else
    let miles := (distanceM : ℚ) / metresPerMile
    if miles ≥ terms.dailyTargetMiles then halfUpNaira terms.dailyRateNaira
    else halfUpNaira (terms.dailyRateNaira * miles / terms.dailyTargetMiles)

/-- Terms that pay: a positive target and a rate that is not negative. -/
structure Payable (terms : DailyRateTerms) : Prop where
  target : 0 < terms.dailyTargetMiles
  rate : 0 ≤ terms.dailyRateNaira

theorem metresPerMile_pos : 0 < metresPerMile := by
  norm_num [metresPerMile]

theorem halfUpNaira_mono {x y : ℚ} (h : x ≤ y) : halfUpNaira x ≤ halfUpNaira y := by
  refine Int.floor_le_floor ?_
  linarith

theorem halfUpNaira_nonneg {x : ℚ} (h : 0 ≤ x) : 0 ≤ halfUpNaira x := by
  refine Int.floor_nonneg.mpr ?_
  linarith

variable {terms : DailyRateTerms}

@[simp]
theorem dayPayNaira_zero : dayPayNaira 0 terms = 0 := by
  simp [dayPayNaira]

theorem dayPayNaira_of_nonpos {d : Int} (h : d ≤ 0) : dayPayNaira d terms = 0 := by
  simp [dayPayNaira, h]

/-- The share of the rate that `d` metres earn, before rounding. -/
theorem dayPayNaira_of_pos {d : Int} (h : 0 < d) :
    dayPayNaira d terms
      = if (d : ℚ) / metresPerMile ≥ terms.dailyTargetMiles then halfUpNaira terms.dailyRateNaira
        else halfUpNaira
          (terms.dailyRateNaira * ((d : ℚ) / metresPerMile) / terms.dailyTargetMiles) := by
  simp [dayPayNaira, not_le.mpr h]

/-- Below the target the share is at most the rate. -/
theorem share_le_rate (hterms : Payable terms) {miles : ℚ} (h : miles ≤ terms.dailyTargetMiles) :
    terms.dailyRateNaira * miles / terms.dailyTargetMiles ≤ terms.dailyRateNaira := by
  rw [div_le_iff₀ hterms.target]
  exact mul_le_mul_of_nonneg_left h hterms.rate

/-- A day never earns more than the rounded day rate. -/
theorem dayPayNaira_le_rate (hterms : Payable terms) (d : Int) :
    dayPayNaira d terms ≤ halfUpNaira terms.dailyRateNaira := by
  by_cases hd : d ≤ 0
  · rw [dayPayNaira_of_nonpos hd]
    exact halfUpNaira_nonneg hterms.rate
  · rw [dayPayNaira_of_pos (not_le.mp hd)]
    split_ifs with htarget
    · exact le_refl _
    · exact halfUpNaira_mono (share_le_rate hterms (not_le.mp htarget).le)

theorem dayPayNaira_nonneg (hterms : Payable terms) (d : Int) : 0 ≤ dayPayNaira d terms := by
  by_cases hd : d ≤ 0
  · rw [dayPayNaira_of_nonpos hd]
  · have hpos : (0 : ℚ) < d := by exact_mod_cast not_le.mp hd
    have hmiles : 0 ≤ (d : ℚ) / metresPerMile := (div_pos hpos metresPerMile_pos).le
    rw [dayPayNaira_of_pos (not_le.mp hd)]
    split_ifs
    · exact halfUpNaira_nonneg hterms.rate
    · exact halfUpNaira_nonneg (div_nonneg (mul_nonneg hterms.rate hmiles) hterms.target.le)

/-- More metres never earn less, so increments of a day are never negative. -/
theorem dayPayNaira_mono (hterms : Payable terms) {d d' : Int} (h : d ≤ d') :
    dayPayNaira d terms ≤ dayPayNaira d' terms := by
  by_cases hd : d ≤ 0
  · rw [dayPayNaira_of_nonpos hd]
    exact dayPayNaira_nonneg hterms d'
  · have hpos := not_le.mp hd
    have hmiles : (d : ℚ) / metresPerMile ≤ (d' : ℚ) / metresPerMile := by
      have hcast : (d : ℚ) ≤ d' := by exact_mod_cast h
      exact div_le_div_of_nonneg_right hcast metresPerMile_pos.le
    rw [dayPayNaira_of_pos (hpos.trans_le h)]
    split_ifs with htarget
    · exact dayPayNaira_le_rate hterms d
    · -- below the target at the end means below it at the start
      have hbelow : ¬ (d : ℚ) / metresPerMile ≥ terms.dailyTargetMiles :=
        fun hreached => htarget (hreached.trans hmiles)
      rw [dayPayNaira_of_pos hpos, if_neg hbelow]
      refine halfUpNaira_mono (div_le_div_of_nonneg_right ?_ hterms.target.le)
      exact mul_le_mul_of_nonneg_left hmiles hterms.rate

/-- 100.00 a day for ten miles: half the target earns half the rate. -/
example : dayPayNaira 8047 { dailyRateNaira := 100, dailyTargetMiles := 10 } = 5000 := by
  decide +kernel

end Pay
end Mobility
