import Mathlib.Data.Int.Log
import Mathlib.Data.Rat.Floor
import Mathlib.Tactic.Linarith
import Mathlib.Tactic.FieldSimp
import Mathlib.Tactic.Ring

/-!
# Rounding — rationals rounded to doubles

Correct rounding to 53 significant bits, ties to even.  Rounding keeps the order of the
values, since it crosses no multiple of their unit in the last place.  Below `2 ^ 43` it
moves a value by less than a thousandth, and never across an integer below it; so the whole
part of a rounded value is that of the value, unless the next integer is very near.
-/

namespace Mobility
namespace Lib

/-- The nearest integer, ties to even. -/
def roundHalfEven (q : ℚ) : ℤ :=
  if q - ⌊q⌋ < 1 / 2 then ⌊q⌋
  else if 1 / 2 < q - ⌊q⌋ then ⌊q⌋ + 1
  else if ⌊q⌋ % 2 = 0 then ⌊q⌋
  else ⌊q⌋ + 1

/-- The distance of the doubles around `q`, in the normal range. -/
def ulp (q : ℚ) : ℚ := 2 ^ (Int.log 2 |q| - 52)

/-- The double nearest to `q`, in the normal range. -/
def nearestDouble (q : ℚ) : ℚ :=
  if q = 0 then 0 else roundHalfEven (q / ulp q) * ulp q

/-- `int(q)`: towards zero. -/
def truncate (q : ℚ) : ℤ := if 0 ≤ q then ⌊q⌋ else ⌈q⌉

theorem floor_le_roundHalfEven (q : ℚ) : ⌊q⌋ ≤ roundHalfEven q := by
  unfold roundHalfEven
  split_ifs <;> omega

theorem roundHalfEven_le (q : ℚ) : (roundHalfEven q : ℚ) ≤ q + 1 / 2 := by
  have hfloor := Int.floor_le q
  unfold roundHalfEven
  split_ifs with hlow hhigh heven
  · linarith
  · push_cast
    linarith
  · linarith
  · have htie : q - ⌊q⌋ = 1 / 2 := le_antisymm (not_lt.mp hhigh) (not_lt.mp hlow)
    push_cast
    linarith

/-! ## Order -/

theorem roundHalfEven_le_floor_add_one (q : ℚ) : roundHalfEven q ≤ ⌊q⌋ + 1 := by
  unfold roundHalfEven
  split_ifs <;> omega

@[simp] theorem roundHalfEven_intCast (n : ℤ) : roundHalfEven n = n := by
  simp [roundHalfEven]

theorem roundHalfEven_mono {q q' : ℚ} (hle : q ≤ q') : roundHalfEven q ≤ roundHalfEven q' := by
  rcases (Int.floor_le_floor hle).lt_or_eq with hfloor | hfloor
  · calc roundHalfEven q ≤ ⌊q⌋ + 1 := roundHalfEven_le_floor_add_one q
      _ ≤ ⌊q'⌋ := hfloor
      _ ≤ roundHalfEven q' := floor_le_roundHalfEven q'
  · -- between the same two integers only the fractions differ
    unfold roundHalfEven
    rw [hfloor]
    split_ifs <;> first | omega | (exfalso; linarith)

/-- Ties go to even on both sides of zero. -/
theorem roundHalfEven_neg (q : ℚ) : roundHalfEven (-q) = -roundHalfEven q := by
  rcases (Int.floor_le q).eq_or_lt with hinteger | hfraction
  · rw [← hinteger, ← Int.cast_neg, roundHalfEven_intCast, roundHalfEven_intCast]
  · have hnext := Int.lt_floor_add_one q
    have hfloor : ⌊-q⌋ = -⌊q⌋ - 1 := by
      rw [Int.floor_eq_iff]
      push_cast
      constructor <;> linarith
    unfold roundHalfEven
    rw [hfloor]
    push_cast
    split_ifs <;> first | omega | (exfalso; linarith)

theorem ulp_pos (q : ℚ) : 0 < ulp q := zpow_pos (by norm_num) _

@[simp] theorem ulp_neg (q : ℚ) : ulp (-q) = ulp q := by
  rw [ulp, ulp, abs_neg]

@[simp] theorem nearestDouble_neg (q : ℚ) : nearestDouble (-q) = -nearestDouble q := by
  by_cases hzero : q = 0
  · simp [nearestDouble, hzero]
  · rw [nearestDouble, nearestDouble, if_neg (neg_ne_zero.mpr hzero), if_neg hzero, ulp_neg,
      neg_div, roundHalfEven_neg]
    push_cast
    ring

section

variable {q q' : ℚ} {n : ℤ}

theorem nearestDouble_eq (h : q ≠ 0) : nearestDouble q = roundHalfEven (q / ulp q) * ulp q := by
  rw [nearestDouble, if_neg h]

/-- Rounding down stops at every multiple of the last place. -/
theorem mul_ulp_le_nearestDouble (h : q ≠ 0) (hle : n * ulp q ≤ q) :
    n * ulp q ≤ nearestDouble q := by
  have hunits : (n : ℚ) ≤ q / ulp q := (le_div_iff₀ (ulp_pos q)).mpr hle
  have hround : n ≤ roundHalfEven (q / ulp q) := by
    simpa using roundHalfEven_mono hunits
  rw [nearestDouble_eq h]
  exact mul_le_mul_of_nonneg_right (by exact_mod_cast hround) (ulp_pos q).le

/-- Rounding up stops at every multiple of the last place. -/
theorem nearestDouble_le_mul_ulp (h : q ≠ 0) (hle : q ≤ n * ulp q) :
    nearestDouble q ≤ n * ulp q := by
  have hunits : q / ulp q ≤ (n : ℚ) := (div_le_iff₀ (ulp_pos q)).mpr hle
  have hround : roundHalfEven (q / ulp q) ≤ n := by
    simpa using roundHalfEven_mono hunits
  rw [nearestDouble_eq h]
  exact mul_le_mul_of_nonneg_right (by exact_mod_cast hround) (ulp_pos q).le

/-- A power of two in units of the last place. -/
theorem two_zpow_eq_mul_ulp (q : ℚ) (k : ℕ) (hk : n = 2 ^ k) :
    (2 : ℚ) ^ (Int.log 2 |q| - 52 + k) = n * ulp q := by
  rw [zpow_add₀ (by norm_num), zpow_natCast, hk, ulp]
  push_cast
  ring

/-- A value has at most 53 binary digits before its last place. -/
theorem le_mul_ulp (hpos : 0 < q) : q ≤ (2 ^ 53 : ℤ) * ulp q := by
  rw [← two_zpow_eq_mul_ulp q 53 rfl, abs_of_pos hpos]
  refine (Int.lt_zpow_succ_log_self (by norm_num : 1 < 2) q).le.trans (le_of_eq ?_)
  congr 1
  push_cast
  ring

theorem mul_ulp_le (hpos : 0 < q) : (2 ^ 52 : ℤ) * ulp q ≤ q := by
  rw [← two_zpow_eq_mul_ulp q 52 rfl, abs_of_pos hpos]
  refine le_trans (le_of_eq ?_) (Int.zpow_log_le_self (by norm_num : 1 < 2) hpos)
  congr 1
  push_cast
  ring

theorem nearestDouble_nonneg (h : 0 ≤ q) : 0 ≤ nearestDouble q := by
  rcases h.eq_or_lt with rfl | hpos
  · simp [nearestDouble]
  · simpa using mul_ulp_le_nearestDouble (n := 0) hpos.ne' (by simpa using h)

theorem nearestDouble_pos (h : 0 < q) : 0 < nearestDouble q := by
  have hulp := ulp_pos q
  calc (0 : ℚ) < (2 ^ 52 : ℤ) * ulp q := by positivity
    _ ≤ nearestDouble q := mul_ulp_le_nearestDouble h.ne' (mul_ulp_le h)

@[simp] theorem nearestDouble_nonneg_iff : 0 ≤ nearestDouble q ↔ 0 ≤ q := by
  refine ⟨fun h => ?_, nearestDouble_nonneg⟩
  by_contra hneg
  have hmirror := nearestDouble_pos (neg_pos.mpr (not_le.mp hneg))
  rw [nearestDouble_neg] at hmirror
  linarith

/-- On one binade the doubles are evenly spaced. -/
theorem nearestDouble_mono_of_log (hne : q ≠ 0) (hne' : q' ≠ 0) (hle : q ≤ q')
    (hlog : Int.log 2 |q| = Int.log 2 |q'|) : nearestDouble q ≤ nearestDouble q' := by
  have hulp : ulp q = ulp q' := by rw [ulp, ulp, hlog]
  rw [nearestDouble_eq hne, nearestDouble_eq hne', hulp]
  apply mul_le_mul_of_nonneg_right _ (ulp_pos q').le
  exact_mod_cast roundHalfEven_mono (div_le_div_of_nonneg_right hle (ulp_pos q').le)

theorem nearestDouble_mono_pos (hpos : 0 < q) (hle : q ≤ q') :
    nearestDouble q ≤ nearestDouble q' := by
  have hpos' : 0 < q' := hpos.trans_le hle
  rcases (Int.log_mono_right (b := 2) hpos hle).eq_or_lt with hlog | hlog
  · apply nearestDouble_mono_of_log hpos.ne' hpos'.ne' hle
    rw [abs_of_pos hpos, abs_of_pos hpos', hlog]
  · -- a power of two lies between the values
    calc nearestDouble q ≤ (2 ^ 53 : ℤ) * ulp q := nearestDouble_le_mul_ulp hpos.ne' (le_mul_ulp hpos)
      _ ≤ (2 ^ 52 : ℤ) * ulp q' := by
        rw [← two_zpow_eq_mul_ulp q 53 rfl, ← two_zpow_eq_mul_ulp q' 52 rfl, abs_of_pos hpos,
          abs_of_pos hpos']
        exact zpow_le_zpow_right₀ (by norm_num) (by push_cast; omega)
      _ ≤ nearestDouble q' := mul_ulp_le_nearestDouble hpos'.ne' (mul_ulp_le hpos')

theorem nearestDouble_mono : Monotone nearestDouble := by
  intro q q' hle
  rcases lt_or_ge 0 q with hpos | hneg
  · exact nearestDouble_mono_pos hpos hle
  · have hleft : nearestDouble q ≤ 0 := by
      simpa using nearestDouble_nonneg (neg_nonneg.mpr hneg)
    rcases le_or_gt 0 q' with hpos' | hneg'
    · exact hleft.trans (nearestDouble_nonneg hpos')
    · -- the mirror image of two positive values
      have hmirror := nearestDouble_mono_pos (neg_pos.mpr hneg') (neg_le_neg hle)
      simpa using hmirror

end

/-! ## Whole parts -/

section

variable {q : ℚ}

/-- An integer below `q` stays below the double nearest to `q`. -/
theorem le_nearestDouble {n : ℤ} (hpos : 0 < q) (hq : q < 2 ^ 53) (hn : n ≤ q) :
    n ≤ nearestDouble q := by
  have hlog : Int.log 2 |q| < 53 := by
    rw [abs_of_pos hpos]
    exact (Int.lt_zpow_iff_log_lt (by norm_num) hpos).mp (by exact_mod_cast hq)
  -- in units of the last place the integer is an integer again
  obtain ⟨k, hk⟩ : ∃ k : ℕ, (52 : ℤ) - Int.log 2 |q| = k := ⟨_, (Int.toNat_of_nonneg (by omega)).symm⟩
  have hunits : (n : ℚ) = (n * 2 ^ k : ℤ) * ulp q := by
    have hulp : ulp q = ((2 : ℚ) ^ k)⁻¹ := by
      rw [ulp, show Int.log 2 |q| - 52 = -(k : ℤ) by omega, zpow_neg, zpow_natCast]
    rw [hulp]
    push_cast
    field_simp
  calc (n : ℚ) = (n * 2 ^ k : ℤ) * ulp q := hunits
    _ ≤ nearestDouble q := mul_ulp_le_nearestDouble hpos.ne' (hunits ▸ hn)

theorem nearestDouble_le_add_half_ulp (h : q ≠ 0) : nearestDouble q ≤ q + ulp q / 2 := by
  have hcancel : q / ulp q * ulp q = q := div_mul_cancel₀ q (ulp_pos q).ne'
  calc nearestDouble q = roundHalfEven (q / ulp q) * ulp q := nearestDouble_eq h
    _ ≤ (q / ulp q + 1 / 2) * ulp q :=
      mul_le_mul_of_nonneg_right (roundHalfEven_le _) (ulp_pos q).le
    _ = q + ulp q / 2 := by rw [add_mul, hcancel, one_div_mul_eq_div]

/-- Below `2 ^ e` rounding up moves a value by at most half a unit of that binade. -/
theorem nearestDouble_le {e : ℤ} (hpos : 0 < q) (hq : q < 2 ^ e) :
    nearestDouble q ≤ q + 2 ^ (e - 53) / 2 := by
  have hlog : Int.log 2 |q| < e := by
    rw [abs_of_pos hpos]
    exact (Int.lt_zpow_iff_log_lt (by norm_num) hpos).mp (by exact_mod_cast hq)
  have hulp : ulp q ≤ 2 ^ (e - 53) := zpow_le_zpow_right₀ (by norm_num) (by omega)
  calc nearestDouble q ≤ q + ulp q / 2 := nearestDouble_le_add_half_ulp hpos.ne'
    _ ≤ q + 2 ^ (e - 53) / 2 := by linarith

/-- The whole part survives rounding, the next integer being out of reach. -/
theorem floor_nearestDouble {e : ℤ} {n : ℕ} {fraction : ℚ} (he : e ≤ 53)
    (hbound : (n : ℚ) + fraction < 2 ^ e) (hnonneg : 0 ≤ fraction)
    (hfraction : fraction + 2 ^ (e - 53) / 2 < 1) : ⌊nearestDouble (n + fraction)⌋ = n := by
  rcases (add_nonneg (Nat.cast_nonneg n) hnonneg : (0 : ℚ) ≤ n + fraction).eq_or_lt with
    hzero | hpos
  · have hn0 : (n : ℚ) = 0 := by linarith [Nat.cast_nonneg (α := ℚ) n]
    have hcast : n = 0 := by exact_mod_cast hn0
    rw [← hzero, hcast]
    simp [nearestDouble]
  · have hbinade : (2 : ℚ) ^ e ≤ 2 ^ (53 : ℕ) := by
      rw [← zpow_natCast]
      exact zpow_le_zpow_right₀ (by norm_num) he
    have hlow : ((n : ℤ) : ℚ) ≤ nearestDouble (n + fraction) :=
      le_nearestDouble hpos (hbound.trans_le hbinade) (by push_cast; linarith)
    have hhigh := nearestDouble_le hpos hbound
    rw [Int.floor_eq_iff]
    refine ⟨hlow, ?_⟩
    push_cast
    linarith

/-- Truncation does the same on values from zero on. -/
theorem truncate_nearestDouble {n : ℕ} {fraction : ℚ} (hn : n < 2 ^ 43 - 1)
    (hnonneg : 0 ≤ fraction) (hfraction : fraction + 1 / 1024 < 1) :
    truncate (nearestDouble (n + fraction)) = n := by
  have hbound : (n : ℚ) + fraction < 2 ^ (43 : ℤ) := by
    have hcast : (n : ℚ) + 1 ≤ 2 ^ 43 := by exact_mod_cast (by omega : n + 1 ≤ 2 ^ 43)
    have hpower : (2 : ℚ) ^ (43 : ℤ) = 2 ^ 43 := by norm_num
    linarith
  have hhalf : fraction + 2 ^ ((43 : ℤ) - 53) / 2 < 1 := by
    have hunit : (2 : ℚ) ^ ((43 : ℤ) - 53) / 2 ≤ 1 / 1024 := by norm_num
    linarith
  rw [truncate, if_pos (nearestDouble_nonneg (by positivity))]
  exact floor_nearestDouble (by norm_num) hbound hnonneg hhalf

end

end Lib
end Mobility
