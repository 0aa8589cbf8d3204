import Mathlib.Algebra.BigOperators.Ring.Finset
import Mathlib.Algebra.BigOperators.Ring.List
import Mobility.Lib.Table
import Mobility.Pay.Classification

/-!
# CreditedDistance — whole metres of each day (`credited_distance_m_by_day`)

A ping interval is credited through its eligible slices, or, when both its pings floor to
one offset, through the list of instants.  The slices of an interval are disjoint stretches
of its whole-second span, so all of them together credit at most the part of its distance
that was driven after the start.
-/

namespace Mobility
namespace Pay

open Lib
open Trips

def zeroDivisionError : AppError :=
  { code := "ZeroDivisionError", message := "Fraction denominator is zero", statusCode := 500 }

def indexError : AppError :=
  { code := "IndexError", message := "list index out of range", statusCode := 500 }

/-- `Fraction(numerator, denominator)`. -/
def fraction (numerator denominator : ℚ) : Except AppError ℚ := do
  require (denominator ≠ 0) zeroDivisionError
  return numerator / denominator

theorem fraction_eq {numerator denominator : ℚ} (h : denominator ≠ 0) :
    fraction numerator denominator = .ok (numerator / denominator) := by
  simp [fraction, h]

namespace EligibilitySession

section

variable [Geodesy]

/-- `interval_metres`: the distance between two consecutive pings. -/
def metresAt (ordered : List EligibilityPing) (index : Nat) : Except AppError ℚ := do
  let first ← demand ordered[index]? indexError
  let second ← demand ordered[index + 1]? indexError
  return metresBetween first second

/-- Only distance inside the target zones counts. -/
def weight (premium : Bool) : ℚ := if premium then 1 else 0

/-- A slice's share of its interval, times the part of the interval driven after Start. -/
def sliceCredit (ordered : List EligibilityPing) (slice : EligibleSlice) : Except AppError ℚ := do
  let start := slice.intervalStartSeconds
  let duration := slice.intervalSeconds
  let inTrip ← fraction (start + duration - max start 0) duration
  let metres ← metresAt ordered slice.intervalIndex
  let share ← fraction slice.length slice.intervalLength
  return metres * share * inTrip * weight slice.premium

def instantCredit (ordered : List EligibilityPing) (instant : Nat × Day × Bool) :
    Except AppError ℚ := do
  let metres ← metresAt ordered instant.1
  return metres * weight instant.2.2

/-- `credited_distance_m_by_day`: `pings` are those that were classified. -/
def creditedDistanceMByDay (pings : List EligibilityPing) (breakdown : EligibilityBreakdown) :
    Except AppError (List (Day × Int)) := do
  let ordered := pings.insertionSort (fun ping ping' => ping.recordedAt ≤ ping'.recordedAt)
  let totals ← checkedFold (fun totals slice => do
      let credit ← sliceCredit ordered slice
      return addTo slice.day credit totals) [] breakdown.eligibleSlices
  let totals ← checkedFold (fun totals instant => do
      let credit ← instantCredit ordered instant
      return addTo instant.2.1 credit totals) totals breakdown.eligibleInstantIntervals
  return (totals.insertionSort (fun a b => a.1 ≤ b.1)).map (fun (day, total) => (day, ⌊total⌋))

/-! ## Credit by interval -/

/-- The metres of a computation that succeeded. -/
def metresOf (credit : Except AppError ℚ) : ℚ := credit.toOption.getD 0

variable (c : EligibilitySession)

/-- The credit of the slices and instants that pass a test. -/
def creditWhere (slices : EligibleSlice → Bool) (instants : Nat × Day × Bool → Bool) : ℚ :=
  ((c.classifySession.eligibleSlices.filter slices).map
      (fun slice => metresOf (sliceCredit c.ordered slice))).sum
    + ((c.classifySession.eligibleInstantIntervals.filter instants).map
      (fun instant => metresOf (instantCredit c.ordered instant))).sum

/-- What the breakdown credits to a ping interval, through slices and instants together. -/
def intervalCredit (index : Nat) : ℚ :=
  c.creditWhere (fun slice => index = slice.intervalIndex) (fun instant => index = instant.1)

def dayCredit (day : Day) : ℚ :=
  c.creditWhere (fun slice => day = slice.day) (fun instant => day = instant.2.1)

/-- The part of an interval that was driven after the start of the session. -/
def drivenShare (interval : EligibilityPing × EligibilityPing) : ℚ :=
  if c.elapsed interval.1 < 0 then
    max (c.elapsed interval.2) 0 / (c.elapsed interval.2 - c.elapsed interval.1)
  else 1

end

/-! ## Eligible slices of an interval -/

section

variable [Geodesy] {c : EligibilitySession} {index : Nat}
variable {interval : EligibilityPing × EligibilityPing} {x : EligibleSlice}

/-- What an eligible slice records about its ping interval. -/
theorem slice_interval (h : x ∈ c.classifySession.eligibleSlices)
    (hinterval : c.intervals[x.intervalIndex]? = some interval) :
    x.premium = (interval.1.inPremium && interval.2.inPremium)
      ∧ x.intervalLength = c.pingOffset interval.2 - c.pingOffset interval.1
      ∧ x.intervalStartSeconds = c.elapsed interval.1
      ∧ x.intervalSeconds = c.elapsed interval.2 - c.elapsed interval.1
      ∧ c.pingOffset interval.1 ≤ x.startOffset ∧ x.startOffset < x.endOffset
      ∧ x.endOffset ≤ c.pingOffset interval.2 := by
  rcases mem_eligibleSlices.mp h with ⟨slice, hslice, hverdict⟩
  have hlt : slice.1 < slice.2 := slices_lt boundaries_sorted hslice
  rcases eligible_within hslice hverdict with ⟨hsame, hspans, hend⟩
  rcases verdict_eq_inr.mp hverdict with ⟨index', interval', _, hinterval', _, rfl⟩
  have hsameInterval : interval' = interval := Option.some.inj (hinterval'.symm.trans hinterval)
  subst hsameInterval
  rcases offsets_of_interval hinterval' with ⟨_, hfirst, hsecond⟩
  exact ⟨rfl, rfl, rfl, rfl, hfirst ▸ hspans.2.1, hlt, hsecond ▸ hend⟩

theorem exists_slice_interval (h : x ∈ c.classifySession.eligibleSlices) :
    ∃ interval, c.intervals[x.intervalIndex]? = some interval := by
  rcases mem_eligibleSlices.mp h with ⟨slice, hslice, hverdict⟩
  exact exists_interval (eligible_within hslice hverdict).2.1.1

omit [Geodesy] in
/-- Pings at different offsets were recorded at different instants, the later one after
the start. -/
theorem elapsed_of_offsets (h : c.pingOffset interval.1 < c.pingOffset interval.2) :
    c.elapsed interval.1 < c.elapsed interval.2 ∧ 0 < c.elapsed interval.2 := by
  have horder : interval.1.recordedAt < interval.2.recordedAt := by
    by_contra hnot
    exact absurd h (not_lt.mpr (off_mono (not_lt.mp hnot)))
  have hafter : c.sessionStartedAt < interval.2.recordedAt := by
    have hpos : 0 < c.pingOffset interval.2 := by omega
    have hquotient : 0 < (interval.2.recordedAt - c.sessionStartedAt) / microsPerSecond := by
      have hmin := lt_min_iff.mp hpos
      omega
    unfold microsPerSecond at hquotient
    omega
  have hcast : (interval.1.recordedAt : ℚ) < interval.2.recordedAt := by exact_mod_cast horder
  have hcast' : (c.sessionStartedAt : ℚ) < interval.2.recordedAt := by exact_mod_cast hafter
  unfold elapsed
  push_cast
  constructor <;> linarith

omit [Geodesy] in
theorem elapsed_le (hinterval : c.intervals[index]? = some interval) :
    c.elapsed interval.1 ≤ c.elapsed interval.2 := by
  rcases intervals_eq_some.mp hinterval with ⟨hfirst, hsecond⟩
  rcases List.getElem?_eq_some_iff.mp hfirst with ⟨hindex, hat⟩
  rcases List.getElem?_eq_some_iff.mp hsecond with ⟨hindex', hat'⟩
  have hle : interval.1.recordedAt ≤ interval.2.recordedAt := by
    rw [← hat, ← hat']
    exact List.pairwise_iff_getElem.mp ordered_pairwise _ _ hindex hindex' (Nat.lt_succ_self _)
  have hcast : (interval.1.recordedAt : ℚ) ≤ interval.2.recordedAt := by exact_mod_cast hle
  unfold elapsed
  push_cast
  linarith

omit [Geodesy] in
theorem drivenShare_nonneg (h : c.elapsed interval.1 ≤ c.elapsed interval.2) :
    0 ≤ c.drivenShare interval := by
  unfold drivenShare
  split_ifs
  · exact div_nonneg (le_max_right _ _) (sub_nonneg.mpr h)
  · exact zero_le_one

omit [Geodesy] in
theorem drivenShare_le_one (h : c.elapsed interval.1 ≤ c.elapsed interval.2) :
    c.drivenShare interval ≤ 1 := by
  unfold drivenShare
  split_ifs with hbefore
  · refine div_le_one_of_le₀ (max_le ?_ ?_) (sub_nonneg.mpr h)
    · linarith
    · linarith
  · exact le_refl _

/-- A slice credits its share of the part of the interval driven after the start. -/
theorem sliceCredit_eq (h : x ∈ c.classifySession.eligibleSlices)
    (hinterval : c.intervals[x.intervalIndex]? = some interval) :
    sliceCredit c.ordered x = .ok (intervalMetres interval * c.drivenShare interval
      / (c.pingOffset interval.2 - c.pingOffset interval.1 : Nat) * x.length) := by
  rcases slice_interval h hinterval with ⟨hpremium, hlength, hstart, hseconds, hfrom, hlt, hto⟩
  rcases intervals_eq_some.mp hinterval with ⟨hfirst, hsecond⟩
  have hoffsets : c.pingOffset interval.1 < c.pingOffset interval.2 := by omega
  rcases elapsed_of_offsets hoffsets with ⟨hraw, hpositive⟩
  have hdenominator : c.elapsed interval.2 - c.elapsed interval.1 ≠ 0 := by linarith
  have hspan : ((c.pingOffset interval.2 - c.pingOffset interval.1 : Nat) : ℚ) ≠ 0 := by
    have hne : c.pingOffset interval.2 - c.pingOffset interval.1 ≠ 0 := by omega
    exact_mod_cast hne
  have hmetres : metresAt c.ordered x.intervalIndex = .ok (metresBetween interval.1 interval.2) := by
    simp [metresAt, bind_eq_ok, hfirst, hsecond]
  -- an interval that began before the session counts from the start
  have hshare : (c.elapsed interval.1 + (c.elapsed interval.2 - c.elapsed interval.1)
      - max (c.elapsed interval.1) 0) / (c.elapsed interval.2 - c.elapsed interval.1)
      = c.drivenShare interval := by
    unfold drivenShare
    split_ifs with hbefore
    · rw [max_eq_right hbefore.le, max_eq_left hpositive.le]
      congr 1
      ring
    · rw [max_eq_left (not_lt.mp hbefore)]
      rw [div_eq_one_iff_eq hdenominator]
      ring
  -- outside the zones the weight is zero
  have hweight : intervalMetres interval
      = metresBetween interval.1 interval.2 * weight x.premium := by
    rw [hpremium, intervalMetres, weight]
    by_cases hboth : interval.1.inPremium = true ∧ interval.2.inPremium = true
    · simp [hboth.1, hboth.2]
    · rw [if_neg hboth, if_neg (by simpa using hboth), mul_zero]
  simp only [sliceCredit, bind_eq_ok, pure_eq_ok, hstart, hseconds, hlength,
    fraction_eq hdenominator, fraction_eq hspan, hmetres, Except.ok.injEq, exists_eq_left',
    hshare]
  rw [hweight]
  ring

/-! ## Instants -/

theorem mem_eligibleInstants {instant : Nat × Day × Bool} (h : instant ∈ c.eligibleInstants) :
    ∃ interval, c.intervals[instant.1]? = some interval ∧ c.EligibleInstant interval
      ∧ instant.2.2 = (interval.1.inPremium && interval.2.inPremium) := by
  rcases List.mem_filterMap.mp h with ⟨⟨interval, index⟩, hmem, hfound⟩
  dsimp only at hfound
  split_ifs at hfound with heligible
  obtain rfl := Option.some.inj hfound
  exact ⟨interval, List.mk_mem_zipIdx_iff_getElem?.mp hmem, heligible, rfl⟩

/-- An interval is listed at most once. -/
theorem eligibleInstants_nodup : (c.eligibleInstants.map (·.1)).Nodup := by
  have hindices : (c.intervals.zipIdx.map (·.2)).Nodup := by
    rw [List.zipIdx_map_snd]
    exact List.nodup_range'
  have hsame : ∀ x y : (EligibilityPing × EligibilityPing) × Nat, x.2 ≠ y.2 →
      ∀ i, (if c.EligibleInstant x.1 then
          some (x.2, lagosDayAt c.sessionStartedAt (c.pingOffset x.1.1),
            x.1.1.inPremium && x.1.2.inPremium) else none) = some i →
      ∀ j, (if c.EligibleInstant y.1 then
          some (y.2, lagosDayAt c.sessionStartedAt (c.pingOffset y.1.1),
            y.1.1.inPremium && y.1.2.inPremium) else none) = some j → i.1 ≠ j.1 := by
    intro x y hne i hi j hj
    split_ifs at hi hj
    obtain rfl := Option.some.inj hi
    obtain rfl := Option.some.inj hj
    exact hne
  refine List.pairwise_map.mpr (List.pairwise_filterMap.mpr ?_)
  exact (List.pairwise_map.mp hindices).imp (fun hne => hsame _ _ hne)

theorem eligibleInstantIntervals_cases (c : EligibilitySession) :
    c.classifySession.eligibleInstantIntervals = []
      ∨ c.classifySession.eligibleInstantIntervals = c.eligibleInstants := by
  unfold classifySession
  split_ifs
  · exact .inl rfl
  · exact .inl rfl
  · exact .inr rfl

theorem mem_eligibleInstantIntervals {instant : Nat × Day × Bool}
    (h : instant ∈ c.classifySession.eligibleInstantIntervals) :
    ∃ interval, c.intervals[instant.1]? = some interval ∧ c.EligibleInstant interval
      ∧ instant.2.2 = (interval.1.inPremium && interval.2.inPremium) := by
  rcases c.eligibleInstantIntervals_cases with hnil | hall
  · rw [hnil] at h
    exact absurd h List.not_mem_nil
  · exact mem_eligibleInstants (hall ▸ h)

theorem eligibleInstantIntervals_nodup :
    (c.classifySession.eligibleInstantIntervals.map (·.1)).Nodup := by
  rcases c.eligibleInstantIntervals_cases with hnil | hall
  · rw [hnil]
    exact List.nodup_nil
  · rw [hall]
    exact eligibleInstants_nodup

/-- An instant credits the whole distance of its interval. -/
theorem instantCredit_eq {instant : Nat × Day × Bool}
    (hpremium : instant.2.2 = (interval.1.inPremium && interval.2.inPremium))
    (hinterval : c.intervals[instant.1]? = some interval) :
    instantCredit c.ordered instant = .ok (intervalMetres interval) := by
  rcases intervals_eq_some.mp hinterval with ⟨hfirst, hsecond⟩
  simp only [instantCredit, metresAt, bind_eq_ok, pure_eq_ok, demand_eq_ok, hfirst, hsecond,
    Option.some.injEq, exists_eq_left']
  rw [hpremium, intervalMetres, weight]
  by_cases hboth : interval.1.inPremium = true ∧ interval.2.inPremium = true
  · simp [hboth.1, hboth.2]
  · rw [if_neg hboth, if_neg (by simpa using hboth), mul_zero]

/-! ## The credit of one interval -/

theorem intervalMetres_nonneg (hnonneg : ∀ lat lon lat' lon', 0 ≤ Geodesy.haversineM lat lon lat' lon')
    (interval : EligibilityPing × EligibilityPing) : 0 ≤ intervalMetres interval := by
  unfold intervalMetres
  split_ifs
  · exact hnonneg _ _ _ _
  · exact le_refl _

/-- The slices of an interval are disjoint stretches of its span. -/
theorem sum_lengths_le (hinterval : c.intervals[index]? = some interval) :
    ((c.classifySession.eligibleSlices.filter (fun slice => index = slice.intervalIndex)).map
      (·.length)).sum ≤ c.pingOffset interval.2 - c.pingOffset interval.1 := by
  have hpairwise : ((c.classifySession.eligibleSlices.filter
      (fun slice => index = slice.intervalIndex)).map
        (fun slice => (slice.startOffset, slice.endOffset))).Pairwise (fun s t => s.2 ≤ t.1) :=
    List.pairwise_map.mpr (eligibleSlices_pairwise.sublist List.filter_sublist)
  have hcard := card_covered hpairwise
  rw [List.map_map] at hcard
  have hsubset : covered ((c.classifySession.eligibleSlices.filter
      (fun slice => index = slice.intervalIndex)).map
        (fun slice => (slice.startOffset, slice.endOffset)))
      ⊆ Finset.Ico (c.pingOffset interval.1) (c.pingOffset interval.2) := by
    intro second hsecond
    rcases mem_covered.mp hsecond with ⟨stretch, hstretch, hfrom, hto⟩
    rcases List.mem_map.mp hstretch with ⟨x, hx, rfl⟩
    rcases List.mem_filter.mp hx with ⟨hx, hindex⟩
    have hsame : index = x.intervalIndex := by simpa using hindex
    rcases slice_interval hx (hsame ▸ hinterval) with ⟨_, _, _, _, hstart, _, hend⟩
    exact Finset.mem_Ico.mpr ⟨hstart.trans hfrom, hto.trans_le hend⟩
  calc ((c.classifySession.eligibleSlices.filter
          (fun slice => index = slice.intervalIndex)).map (·.length)).sum
      = _ := hcard.symm
    _ ≤ (Finset.Ico (c.pingOffset interval.1) (c.pingOffset interval.2)).card :=
        Finset.card_le_card hsubset
    _ = c.pingOffset interval.2 - c.pingOffset interval.1 := Nat.card_Ico _ _

/-- Where the pings differ in their offsets, the slices share out what was driven after the
start; where they do not, the instant is listed at most once. -/
theorem intervalCredit_cases (hinterval : c.intervals[index]? = some interval) :
    (∃ part : ℚ, 0 ≤ part ∧ part ≤ 1 ∧
        c.intervalCredit index = intervalMetres interval * c.drivenShare interval * part)
      ∨ c.intervalCredit index = 0 := by
  by_cases hoffsets : c.pingOffset interval.1 < c.pingOffset interval.2
  · left
    -- an instant is only listed for an interval without offsets between its pings
    have hinstants : c.classifySession.eligibleInstantIntervals.filter
        (fun instant => index = instant.1) = [] := by
      refine List.filter_eq_nil_iff.mpr ?_
      intro instant hmem hindex
      rcases mem_eligibleInstantIntervals hmem with ⟨interval', hinterval', heligible, _⟩
      have hsame : index = instant.1 := by simpa using hindex
      have hsameInterval : interval' = interval :=
        Option.some.inj (hinterval'.symm.trans (hsame ▸ hinterval))
      have heq := heligible.1
      rw [hsameInterval] at heq
      omega
    have hspan : (0 : ℚ) < (c.pingOffset interval.2 - c.pingOffset interval.1 : Nat) := by
      have hpos : 0 < c.pingOffset interval.2 - c.pingOffset interval.1 := by omega
      exact_mod_cast hpos
    have hcredit : (c.classifySession.eligibleSlices.filter
        (fun slice => index = slice.intervalIndex)).map
          (fun slice => metresOf (sliceCredit c.ordered slice))
        = (c.classifySession.eligibleSlices.filter
          (fun slice => index = slice.intervalIndex)).map (fun slice =>
            intervalMetres interval * c.drivenShare interval
              / (c.pingOffset interval.2 - c.pingOffset interval.1 : Nat) * slice.length) := by
      refine List.map_congr_left ?_
      intro slice hslice
      rcases List.mem_filter.mp hslice with ⟨hslice, hindex⟩
      have hsame : index = slice.intervalIndex := by simpa using hindex
      rw [sliceCredit_eq hslice (hsame ▸ hinterval)]
      rfl
    -- the slices of the interval do not overlap
    have hlengths : ((((c.classifySession.eligibleSlices.filter
        (fun slice => index = slice.intervalIndex)).map (·.length)).sum : Nat) : ℚ)
        ≤ (c.pingOffset interval.2 - c.pingOffset interval.1 : Nat) := by
      exact_mod_cast sum_lengths_le hinterval
    refine ⟨(((c.classifySession.eligibleSlices.filter
        (fun slice => index = slice.intervalIndex)).map (·.length)).sum : Nat)
          / (c.pingOffset interval.2 - c.pingOffset interval.1 : Nat), ?_, ?_, ?_⟩
    · exact div_nonneg (Nat.cast_nonneg _) hspan.le
    · exact div_le_one_of_le₀ hlengths hspan.le
    · rw [intervalCredit, creditWhere, hinstants, hcredit, List.sum_map_mul_left,
        Nat.cast_list_sum, List.map_map, List.map_nil, List.sum_nil, add_zero]
      simp only [Function.comp_def]
      ring
  · have hslices : c.classifySession.eligibleSlices.filter
        (fun slice => index = slice.intervalIndex) = [] := by
      refine List.filter_eq_nil_iff.mpr ?_
      intro slice hslice hindex
      have hsame : index = slice.intervalIndex := by simpa using hindex
      rcases slice_interval hslice (hsame ▸ hinterval) with ⟨_, _, _, _, hfrom, hlt, hto⟩
      omega
    by_cases hlisted : ∃ instant ∈ c.classifySession.eligibleInstantIntervals, index = instant.1
    · rcases hlisted with ⟨instant, hmem, rfl⟩
      left
      rcases mem_eligibleInstantIntervals hmem with ⟨interval', hinterval', heligible, hpremium⟩
      have hsameInterval : interval' = interval := Option.some.inj (hinterval'.symm.trans hinterval)
      subst hsameInterval
      -- each instant is listed once, so it is credited once
      have hone : c.classifySession.eligibleInstantIntervals.filter
          (fun other => instant.1 = other.1) = [instant] := by
        simpa only [eq_comm] using filter_key_eq eligibleInstantIntervals_nodup hmem rfl
      have hshare : c.drivenShare interval' = 1 :=
        if_neg (not_lt.mpr (rawSeconds_nonneg.mp heligible.2.1))
      refine ⟨1, zero_le_one, le_refl _, ?_⟩
      rw [intervalCredit, creditWhere, hslices, hone, List.map_cons, List.map_nil,
        instantCredit_eq hpremium hinterval, hshare]
      simp [metresOf, Except.toOption]
    · right
      have hinstants : c.classifySession.eligibleInstantIntervals.filter
          (fun instant => index = instant.1) = [] := by
        refine List.filter_eq_nil_iff.mpr ?_
        intro instant hmem hindex
        exact hlisted ⟨instant, hmem, by simpa using hindex⟩
      simp [intervalCredit, creditWhere, hslices, hinstants]

/-- An interval is credited at most its weighted distance. -/
theorem intervalCredit_le (hnonneg : ∀ lat lon lat' lon', 0 ≤ Geodesy.haversineM lat lon lat' lon')
    (hinterval : c.intervals[index]? = some interval) :
    0 ≤ c.intervalCredit index
      ∧ c.intervalCredit index ≤ intervalMetres interval * c.drivenShare interval
      ∧ c.intervalCredit index ≤ intervalMetres interval := by
  have hmetres := intervalMetres_nonneg hnonneg interval
  have hshare := drivenShare_nonneg (elapsed_le hinterval)
  have hone := drivenShare_le_one (elapsed_le hinterval)
  have hproduct : intervalMetres interval * c.drivenShare interval ≤ intervalMetres interval :=
    mul_le_of_le_one_right hmetres hone
  have hpositive : 0 ≤ intervalMetres interval * c.drivenShare interval := mul_nonneg hmetres hshare
  rcases intervalCredit_cases hinterval with ⟨part, hpart, hle, hcredit⟩ | hzero
  · have hbound : c.intervalCredit index ≤ intervalMetres interval * c.drivenShare interval := by
      rw [hcredit]
      exact mul_le_of_le_one_right hpositive hle
    exact ⟨hcredit ▸ mul_nonneg hpositive hpart, hbound, hbound.trans hproduct⟩
  · rw [hzero]
    exact ⟨le_refl _, hpositive, hmetres⟩

/-! ## The whole function -/

omit [Geodesy] in
/-- A checked loop whose rounds all succeed adds what each round computes. -/
theorem checkedFold_addTo {α : Type} {credit : α → Except AppError ℚ} {day : α → Day} {xs : List α}
    (h : ∀ x ∈ xs, ∃ metres, credit x = .ok metres) (totals : List (Day × ℚ)) :
    checkedFold (fun totals x => do
        let metres ← credit x
        return addTo (day x) metres totals) totals xs
      = .ok (addAll day (fun x => metresOf (credit x)) xs totals) := by
  induction xs generalizing totals with
  | nil => rfl
  | cons x xs ih =>
      rcases h x List.mem_cons_self with ⟨metres, hmetres⟩
      have hrest := ih (fun y hy => h y (List.mem_cons_of_mem _ hy)) (addTo (day x) metres totals)
      have hvalue : metresOf (credit x) = metres := by
        rw [hmetres]
        rfl
      rw [checkedFold_cons, hmetres]
      simpa [addAll, hvalue] using hrest

/-- The totals by day, before they are rounded down. -/
def dayTotals (c : EligibilitySession) : List (Day × ℚ) :=
  addAll (fun instant : Nat × Day × Bool => instant.2.1)
    (fun instant => metresOf (instantCredit c.ordered instant))
    c.classifySession.eligibleInstantIntervals
    (addAll (·.day) (fun slice => metresOf (sliceCredit c.ordered slice))
      c.classifySession.eligibleSlices [])

theorem creditedDistanceMByDay_eq (c : EligibilitySession) :
    creditedDistanceMByDay c.pings c.classifySession
      = .ok ((c.dayTotals.insertionSort (fun a b => a.1 ≤ b.1)).map
          (fun (day, total) => (day, ⌊total⌋))) := by
  have hslices : ∀ x ∈ c.classifySession.eligibleSlices,
      ∃ metres, sliceCredit c.ordered x = .ok metres := by
    intro x hx
    rcases exists_slice_interval hx with ⟨interval, hinterval⟩
    exact ⟨_, sliceCredit_eq hx hinterval⟩
  have hinstants : ∀ instant ∈ c.classifySession.eligibleInstantIntervals,
      ∃ metres, instantCredit c.ordered instant = .ok metres := by
    intro instant hmem
    rcases mem_eligibleInstantIntervals hmem with ⟨interval, hinterval, _, hpremium⟩
    exact ⟨_, instantCredit_eq hpremium hinterval⟩
  unfold creditedDistanceMByDay
  dsimp only
  change ((checkedFold (fun totals slice => do
      let credit ← sliceCredit c.ordered slice
      return addTo slice.day credit totals) [] c.classifySession.eligibleSlices) >>= _) = _
  rw [checkedFold_addTo hslices]
  change ((checkedFold (fun totals instant => do
      let credit ← instantCredit c.ordered instant
      return addTo instant.2.1 credit totals) _ c.classifySession.eligibleInstantIntervals) >>= _) = _
  rw [checkedFold_addTo hinstants]
  rfl

theorem valueAt_dayTotals (day : Day) : valueAt c.dayTotals day = c.dayCredit day := by
  rw [dayTotals, valueAt_addAll, valueAt_addAll, valueAt_nil, zero_add]
  rfl

theorem nodup_dayTotals : (c.dayTotals.map (·.1)).Nodup :=
  nodup_keys_addAll (nodup_keys_addAll List.nodup_nil)

/-- Adding up by day or by interval gives the same metres. -/
theorem tallied_dayTotals :
    tallied c.dayTotals = (c.intervals.zipIdx.map (fun entry => c.intervalCredit entry.2)).sum := by
  have hnodup : (c.intervals.zipIdx.map (·.2)).Nodup := by
    rw [List.zipIdx_map_snd]
    exact List.nodup_range'
  have hindex : ∀ {i interval}, c.intervals[i]? = some interval →
      i ∈ c.intervals.zipIdx.map (·.2) := by
    intro i interval hinterval
    exact List.mem_map.mpr ⟨(interval, i), List.mk_mem_zipIdx_iff_getElem?.mpr hinterval, rfl⟩
  have hslices : ∀ x ∈ c.classifySession.eligibleSlices,
      x.intervalIndex ∈ c.intervals.zipIdx.map (·.2) := by
    intro x hx
    rcases exists_slice_interval hx with ⟨interval, hinterval⟩
    exact hindex hinterval
  have hinstants : ∀ instant ∈ c.classifySession.eligibleInstantIntervals,
      instant.1 ∈ c.intervals.zipIdx.map (·.2) := by
    intro instant hmem
    rcases mem_eligibleInstantIntervals hmem with ⟨interval, hinterval, _⟩
    exact hindex hinterval
  have hsum := congrArg₂ (· + ·)
    (sum_by_key (fun slice => metresOf (sliceCredit c.ordered slice)) hnodup hslices)
    (sum_by_key (fun instant => metresOf (instantCredit c.ordered instant)) hnodup hinstants)
  rw [dayTotals, tallied_addAll, tallied_addAll, tallied_nil, zero_add]
  rw [← hsum, List.map_map, List.map_map, ← List.sum_map_add]
  rfl

omit [Geodesy] in
/-- Rounding each day down never adds metres. -/
theorem tallied_floor_le (totals : List (Day × ℚ)) :
    ((tallied (totals.map (fun (day, total) => (day, ⌊total⌋))) : Int) : ℚ) ≤ tallied totals := by
  induction totals with
  | nil => simp
  | cons entry rest ih =>
      rw [List.map_cons, tallied_cons, tallied_cons]
      push_cast
      exact add_le_add (Int.floor_le _) ih

omit [Geodesy] in
theorem valueAt_map_floor (totals : List (Day × ℚ)) (day : Day) :
    valueAt (totals.map (fun (day, total) => (day, ⌊total⌋))) day = ⌊valueAt totals day⌋ := by
  induction totals with
  | nil => simp [valueAt_nil]
  | cons entry rest ih =>
      rw [List.map_cons, valueAt_cons, valueAt_cons, ih]
      split_ifs <;> simp

theorem sum_intervalMetres (intervals : List (EligibilityPing × EligibilityPing)) :
    (intervals.map intervalMetres).sum
      = ((intervals.filter (fun interval => interval.1.inPremium ∧ interval.2.inPremium)).map
          (fun interval => metresBetween interval.1 interval.2)).sum := by
  induction intervals with
  | nil => rfl
  | cons interval rest ih =>
      by_cases hinside : interval.1.inPremium ∧ interval.2.inPremium
      · simp [intervalMetres, hinside, ih]
      · simp only [List.map_cons, List.sum_cons, ih, intervalMetres, if_neg hinside, zero_add,
          List.filter_cons, decide_eq_false hinside, Bool.false_eq_true, if_false]

/-- Distance is credited at most once and only where it was driven: the function returns,
every day, listed or not, gets the whole metres of its credits, an interval is credited between nothing and
the part of its distance driven after the start, nothing outside the target zones, and all
days together at most the distance of the intervals inside them. -/
theorem distance_credited_once (c : EligibilitySession)
    (hnonneg : ∀ lat lon lat' lon', 0 ≤ Geodesy.haversineM lat lon lat' lon') :
    ∃ days, creditedDistanceMByDay c.pings c.classifySession = .ok days
      ∧ (days.map (·.1)).Nodup
      ∧ (∀ day, valueAt days day = ⌊c.dayCredit day⌋)
      ∧ (∀ index interval, c.intervals[index]? = some interval →
          0 ≤ c.intervalCredit index
          ∧ c.intervalCredit index ≤ metresBetween interval.1 interval.2
          ∧ c.intervalCredit index ≤ metresBetween interval.1 interval.2 * c.drivenShare interval
          ∧ (¬ (interval.1.inPremium ∧ interval.2.inPremium) → c.intervalCredit index = 0))
      ∧ ((tallied days : Int) : ℚ)
        ≤ ((c.intervals.filter (fun interval => interval.1.inPremium ∧ interval.2.inPremium)).map
            (fun interval => metresBetween interval.1 interval.2)).sum := by
  have hsorted : ((c.dayTotals.insertionSort (fun a b => a.1 ≤ b.1)).map (·.1)).Perm
      (c.dayTotals.map (·.1)) := (List.perm_insertionSort _ _).map _
  have hnodup : ((c.dayTotals.insertionSort (fun a b => a.1 ≤ b.1)).map (·.1)).Nodup :=
    hsorted.nodup_iff.mpr nodup_dayTotals
  refine ⟨_, creditedDistanceMByDay_eq c, ?_, ?_, ?_, ?_⟩
  · rw [List.map_map]
    exact hnodup
  · intro day
    rw [valueAt_map_floor, valueAt_perm hnodup (List.perm_insertionSort _ _), valueAt_dayTotals]
  · intro index interval hinterval
    rcases intervalCredit_le hnonneg hinterval with ⟨hpositive, hshare, hmetres⟩
    by_cases hinside : interval.1.inPremium ∧ interval.2.inPremium
    · rw [intervalMetres, if_pos hinside] at hshare hmetres
      exact ⟨hpositive, hmetres, hshare, fun hout => absurd hinside hout⟩
    · rw [intervalMetres, if_neg hinside] at hshare hmetres
      -- outside the zones nothing is weighted, so nothing is credited
      have hzero : c.intervalCredit index = 0 := le_antisymm hmetres hpositive
      have hdistance : 0 ≤ metresBetween interval.1 interval.2 := hnonneg _ _ _ _
      have hdriven := drivenShare_nonneg (elapsed_le hinterval)
      exact ⟨hpositive, hzero ▸ hdistance, hzero ▸ mul_nonneg hdistance hdriven, fun _ => hzero⟩
  · have hcredits : (c.intervals.zipIdx.map (fun entry => c.intervalCredit entry.2)).sum
        ≤ (c.intervals.zipIdx.map (fun entry => intervalMetres entry.1)).sum := by
      refine List.sum_le_sum ?_
      rintro ⟨interval, index⟩ hentry
      exact (intervalCredit_le hnonneg (List.mk_mem_zipIdx_iff_getElem?.mp hentry)).2.2
    have hintervals : c.intervals.zipIdx.map (fun entry => intervalMetres entry.1)
        = c.intervals.map intervalMetres := by
      conv_rhs => rw [← List.zipIdx_map_fst 0 c.intervals, List.map_map]
      rfl
    calc ((tallied _ : Int) : ℚ)
        ≤ tallied (c.dayTotals.insertionSort (fun a b => a.1 ≤ b.1)) := tallied_floor_le _
      _ = tallied c.dayTotals := tallied_perm (List.perm_insertionSort _ _)
      _ = _ := tallied_dayTotals
      _ ≤ _ := hcredits
      _ = _ := by rw [hintervals, sum_intervalMetres]

end

/-- Metres along a meridian. -/
@[reducible]
def meridianGeodesy : Geodesy where
  haversineM latitude _ latitude' _ := 111195 * |latitude' - latitude|

/-- A thousandth of a degree north in ten seconds, inside the target zones. -/
def shortDrive : EligibilitySession :=
  { sessionStartedAt := 0
    sessionEndedAt := 20 * microsPerSecond
    pings := [
      { recordedAt := 0, latitude := 6, longitude := 3, accuracyM := some 5, inArea := true,
        inPremium := true },
      { recordedAt := 10 * microsPerSecond, latitude := 6 + 1 / 1000, longitude := 3,
        accuracyM := some 5, inArea := true, inPremium := true }]
    windowStartAt := none
    windowEndAt := none }

theorem distance_credited_once_short_drive :
    ∃ days, @creditedDistanceMByDay meridianGeodesy shortDrive.pings
        (@classifySession meridianGeodesy shortDrive) = .ok days
      ∧ ((tallied days : Int) : ℚ) ≤ 111195 / 1000 := by
  have hnonneg : ∀ lat lon lat' lon', 0 ≤ meridianGeodesy.haversineM lat lon lat' lon' :=
    fun _ _ _ _ => mul_nonneg (by norm_num) (abs_nonneg _)
  rcases @distance_credited_once meridianGeodesy shortDrive hnonneg with
    ⟨days, hdays, _, _, _, hsum⟩
  refine ⟨days, hdays, hsum.trans ?_⟩
  decide +kernel

end EligibilitySession

end Pay
end Mobility
