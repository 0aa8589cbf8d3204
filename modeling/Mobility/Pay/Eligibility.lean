import Mobility.Lib.Rounding
import Mobility.Pay.Engine

/-!
# Eligibility — payable time of a session (`payout_eligibility.py`)

A session is cut at every ping, window edge, stop and Lagos midnight; each slice gets one
reason against it, or none.  Gaps, stops and speeds are compared in doubles, as
`total_seconds` gives them; whole-second offsets and the prorating are exact.  Distances come
from `Geodesy`, and area membership is part of a ping.
-/

namespace Mobility
namespace Pay

open Lib
open Trips

/-- Great-circle distance; a trigonometric function of four coordinates. -/
class Geodesy where
  haversineM : ℚ → ℚ → ℚ → ℚ → ℚ

/-- `EXCLUSION_REASONS`. -/
inductive ExclusionReason
  | gpsGap
  | lowAccuracy
  | teleport
  | outOfWindow
  | outOfArea
  | stationary
  deriving DecidableEq, Repr

structure EligibilityParams where
  stationaryRadiusM : ℚ := 200
  stationaryWindowSeconds : ℚ := 300
  maxAccuracyM : ℚ := 75
  teleportKmh : ℚ := 180
  maxPingGapSeconds : ℚ := 120
  deriving DecidableEq, Repr

structure EligibilityPing where
  recordedAt : Int
  latitude : ℚ
  longitude : ℚ
  accuracyM : Option ℚ
  inArea : Bool
  /-- inside the frozen target zones: only such distance counts -/
  inPremium : Bool := false
  deriving DecidableEq, Repr

/-- What `classify_session` is called with. -/
structure EligibilitySession where
  sessionStartedAt : Int
  sessionEndedAt : Int
  pings : List EligibilityPing
  windowStartAt : Option Int
  windowEndAt : Option Int
  params : EligibilityParams := {}
  deriving DecidableEq, Repr

/-- Within 136 years a double keeps the whole seconds of a number of microseconds. -/
theorem floor_toNat_nearestDouble {micros : Int} (h : micros < 2 ^ 32 * microsPerSecond) :
    ⌊nearestDouble ((micros : ℚ) / 1000000)⌋.toNat = (micros / microsPerSecond).toNat := by
  unfold microsPerSecond at h ⊢
  rcases lt_or_ge micros 0 with hbefore | hafter
  · -- below zero both are clamped to zero
    have hnegative : (micros : ℚ) / 1000000 < 0 :=
      div_neg_of_neg_of_pos (by exact_mod_cast hbefore) (by norm_num)
    have hdouble : nearestDouble ((micros : ℚ) / 1000000) < 0 := by
      rw [← not_le, nearestDouble_nonneg_iff, not_le]
      exact hnegative
    have hfloor : ⌊nearestDouble ((micros : ℚ) / 1000000)⌋ < 0 :=
      Int.floor_lt.mpr (by exact_mod_cast hdouble)
    omega
  · have hwhole : ((micros / 1000000).toNat : Int) = micros / 1000000 :=
      Int.toNat_of_nonneg (by omega)
    have hsum : 1000000 * ((micros / 1000000).toNat : Int) + micros % 1000000 = micros := by
      rw [hwhole]
      exact Int.mul_ediv_add_emod micros 1000000
    have hcast : 1000000 * ((micros / 1000000).toNat : ℚ) + ((micros % 1000000 : Int) : ℚ)
        = micros := by
      exact_mod_cast hsum
    have hsplit : (micros : ℚ) / 1000000
        = ((micros / 1000000).toNat : ℚ) + ((micros % 1000000 : Int) : ℚ) / 1000000 := by
      linarith
    -- the fraction stays a microsecond away from the next second
    have hfraction : ((micros % 1000000 : Int) : ℚ) ≤ 999999 := by
      exact_mod_cast (by omega : micros % 1000000 ≤ 999999)
    have hnonneg : (0 : ℚ) ≤ ((micros % 1000000 : Int) : ℚ) := by
      exact_mod_cast (by omega : 0 ≤ micros % 1000000)
    have hnext : ((micros % 1000000 : Int) : ℚ) / 1000000 + 2 ^ ((32 : ℤ) - 53) / 2 < 1 := by
      have hunit : (2 : ℚ) ^ ((32 : ℤ) - 53) / 2 < 1 / 1000000 := by norm_num
      linarith
    have hbound : ((micros / 1000000).toNat : ℚ) + ((micros % 1000000 : Int) : ℚ) / 1000000
        < 2 ^ (32 : ℤ) := by
      have hmicros : (micros : ℚ) < 2 ^ 32 * 1000000 := by exact_mod_cast h
      have hpower : (2 : ℚ) ^ (32 : ℤ) = 2 ^ 32 := by norm_num
      linarith
    rw [hsplit, floor_nearestDouble (by norm_num) hbound (by positivity) hnext]
    rfl

namespace EligibilitySession

/-! ## Offsets -/

section

variable (c : EligibilitySession)

/-- Whole seconds of the session. -/
def duration : Nat := ((c.sessionEndedAt - c.sessionStartedAt) / microsPerSecond).toNat

/-- `off`: whole seconds from the start, within the session. -/
def off (moment : Int) : Nat :=
  min ((moment - c.sessionStartedAt) / microsPerSecond).toNat c.duration

def ordered : List EligibilityPing :=
  c.pings.insertionSort (fun ping ping' => ping.recordedAt ≤ ping'.recordedAt)

/-- Seconds from the start to a ping, before rounding: distance is prorated by these. -/
def elapsed (ping : EligibilityPing) : ℚ :=
  ((ping.recordedAt - c.sessionStartedAt : Int) : ℚ) / 1000000

/-- `_ping_seconds`: a double. -/
def rawSeconds (ping : EligibilityPing) : ℚ := nearestDouble (c.elapsed ping)

/-- The difference of two entries of `raw_seconds`, rounded again. -/
def rawGap (first second : EligibilityPing) : ℚ :=
  nearestDouble (c.rawSeconds second - c.rawSeconds first)

def pingOffset (ping : EligibilityPing) : Nat := c.off ping.recordedAt

def offsets : List Nat := c.ordered.map c.pingOffset

/-- The ping intervals, in order. -/
def intervals : List (EligibilityPing × EligibilityPing) := c.ordered.zip c.ordered.tail

def windowFrom : Nat := (c.windowStartAt.map c.off).getD 0

def windowTo : Nat := (c.windowEndAt.map c.off).getD c.duration

/-- The binary search of `interval_index_for` over the ascending offsets. -/
def searchInterval (offsets : List Nat) (point : Nat) : Nat → Int → Int → Option Nat
  | 0, _, _ => none
  | fuel + 1, low, high =>
      if low ≤ high then
        let mid := ((low + high) / 2).toNat
        if offsets.getD mid 0 ≤ point ∧ point < offsets.getD (mid + 1) 0 then some mid
        else if point < offsets.getD mid 0 then searchInterval offsets point fuel low (mid - 1)
        else searchInterval offsets point fuel (mid + 1) high
      else none

/-- `interval_index_for`: the ping interval that a slice start lies in. -/
def intervalIndexFor (point : Nat) : Option Nat :=
  if c.offsets.head?.all (point < ·) ∨ c.offsets.getLast?.all (· ≤ point) then none
  else searchInterval c.offsets point c.offsets.length 0 (c.offsets.length - 2)

end

section

variable [Geodesy] (c : EligibilitySession)

def metresBetween (first second : EligibilityPing) : ℚ :=
  Geodesy.haversineM first.latitude first.longitude second.latitude second.longitude

/-! ## Stops -/

/-- How many of the following pings stay with the anchor, without a gap. -/
def stayLength (anchor : EligibilityPing) : EligibilityPing → List EligibilityPing → Nat
  | _, [] => 0
  | previous, ping :: rest =>
      if c.params.maxPingGapSeconds < c.rawGap previous ping
          ∨ c.params.stationaryRadiusM ≤ metresBetween anchor ping then 0
      else stayLength anchor ping rest + 1

/-- The loop of `_stay_point_regions`: pings of a confirmed stop are skipped. -/
def stayRegionsFrom : Nat → List EligibilityPing → List (Nat × Nat)
  | _, [] => []
  | skip + 1, _ :: rest => stayRegionsFrom skip rest
  | 0, anchor :: rest =>
      let inside := c.stayLength anchor anchor rest
      match (rest.take inside).getLast? with
      | none => stayRegionsFrom 0 rest
      | some last =>
          if c.params.stationaryWindowSeconds < c.rawGap anchor last then
            (if c.pingOffset anchor < c.pingOffset last then
                [(c.pingOffset anchor, c.pingOffset last)] else [])
              ++ stayRegionsFrom inside rest
          else stayRegionsFrom 0 rest

def stayPointRegions : List (Nat × Nat) := c.stayRegionsFrom 0 c.ordered

def Stationary (point : Nat) : Prop :=
  ∃ region ∈ c.stayPointRegions, region.1 ≤ point ∧ point < region.2

instance (point : Nat) : Decidable (c.Stationary point) :=
  inferInstanceAs (Decidable (∃ region ∈ c.stayPointRegions, _))

/-! ## Reasons -/

def accuracyFails (ping : EligibilityPing) : Bool :=
  ping.accuracyM.all (c.params.maxAccuracyM < ·)

/-- `(distance / delta) * 3.6`, rounded at each step. -/
def speedKmh (distance delta : ℚ) : ℚ :=
  nearestDouble (nearestDouble (distance / delta) * nearestDouble (36 / 10))

/-- `_signal_reason`; two places at one instant are infinitely fast. -/
def signalReason (first second : EligibilityPing) : Option ExclusionReason :=
  let delta := c.rawGap first second
  let distance := metresBetween first second
  if c.params.maxPingGapSeconds < delta then some .gpsGap
  else if c.accuracyFails first ∨ c.accuracyFails second then some .lowAccuracy
  else if 1 < distance ∧ (delta ≤ 0 ∨ c.params.teleportKmh < speedKmh distance delta) then
    some .teleport
  else none

/-- The reason against a whole ping interval. -/
def intervalReason (interval : EligibilityPing × EligibilityPing) : Option ExclusionReason :=
  (c.signalReason interval.1 interval.2).or
    (if interval.1.inArea ∧ interval.2.inArea then none else some .outOfArea)

def InWindow (point : Nat) : Prop := c.windowFrom ≤ point ∧ point < c.windowTo

instance (point : Nat) : Decidable (c.InWindow point) :=
  inferInstanceAs (Decidable (_ ∧ _))

/-- The reason against the slice that starts at a point of an interval. -/
def sliceReason (interval : EligibilityPing × EligibilityPing) (point : Nat) :
    Option ExclusionReason :=
  match c.intervalReason interval with
  | some .gpsGap => some .gpsGap
  | some .lowAccuracy => some .lowAccuracy
  | some .teleport => some .teleport
  | base =>
      if ¬ c.InWindow point then some .outOfWindow
      else if base = some .outOfArea then some .outOfArea
      else if c.Stationary point then some .stationary
      else none

/-! ## Credit -/

/-- `elementary slice boundaries`, without the session edges and midnights. -/
def cuts : List Nat :=
  [c.windowFrom, c.windowTo] ++ c.offsets
    ++ c.stayPointRegions.flatMap (fun region => [region.1, region.2])

/-- The weighted metres of an interval. -/
def intervalMetres (interval : EligibilityPing × EligibilityPing) : ℚ :=
  if interval.1.inPremium ∧ interval.2.inPremium then metresBetween interval.1 interval.2 else 0

/-- A slice's share of its interval: by whole seconds, times the part after the start. -/
def sliceShare (interval : EligibilityPing × EligibilityPing) (slice : Nat × Nat) : ℚ :=
  let start := c.elapsed interval.1
  let length := c.elapsed interval.2 - c.elapsed interval.1
  intervalMetres interval
    * ((slice.2 - slice.1 : ℚ) / (c.pingOffset interval.2 - c.pingOffset interval.1))
    * ((start + length - max start 0) / length)

/-- What the slice between two boundaries is credited with, if it is eligible. -/
def credited (start stop : Nat) : Option ℚ :=
  ((c.intervalIndexFor start).bind (c.intervals[·]?)).bind (fun interval =>
    if c.sliceReason interval start = none then some (c.sliceShare interval (start, stop)) else none)

/-- A ping interval shorter than a second, eligible at its instant. -/
def EligibleInstant (interval : EligibilityPing × EligibilityPing) : Prop :=
  c.pingOffset interval.2 = c.pingOffset interval.1
    ∧ 0 ≤ c.rawSeconds interval.1 ∧ c.intervalReason interval = none
    ∧ c.InWindow (c.pingOffset interval.1) ∧ c.pingOffset interval.1 < c.duration
    ∧ ¬ c.Stationary (c.pingOffset interval.1)

instance (interval : EligibilityPing × EligibilityPing) : Decidable (c.EligibleInstant interval) :=
  inferInstanceAs (Decidable (_ ∧ _ ∧ _ ∧ _ ∧ _ ∧ _))

def instants : List (Nat × ℚ) :=
  (c.intervals.filter (c.EligibleInstant ·)).map (fun interval =>
    (c.pingOffset interval.1, intervalMetres interval))

/-- What the session measures: its cuts, its credited slices and its instants. -/
def measurement : Measurement :=
  { cuts := c.cuts
    credited := c.credited
    instants := c.instants }

/-! ## Doubles and whole seconds -/

variable {c}

omit [Geodesy] in
theorem rawSeconds_nonneg {ping : EligibilityPing} : 0 ≤ c.rawSeconds ping ↔ 0 ≤ c.elapsed ping :=
  nearestDouble_nonneg_iff

omit [Geodesy] in
/-- `math.floor` of the double is the whole second of the ping, within 136 years of the start. -/
theorem floor_rawSeconds {ping : EligibilityPing}
    (h : ping.recordedAt - c.sessionStartedAt < 2 ^ 32 * microsPerSecond) :
    ⌊c.rawSeconds ping⌋.toNat
      = ((ping.recordedAt - c.sessionStartedAt) / microsPerSecond).toNat :=
  floor_toNat_nearestDouble h

/-! ## The window -/

theorem sliceReason_inWindow {interval : EligibilityPing × EligibilityPing} {point : Nat}
    (h : c.sliceReason interval point = none) : c.InWindow point := by
  by_contra hout
  unfold sliceReason at h
  split at h
  · exact absurd h (by simp)
  · exact absurd h (by simp)
  · exact absurd h (by simp)
  · rw [if_pos hout] at h
    exact absurd h (by simp)

theorem credited_inWindow {start stop : Nat} {metres : ℚ}
    (h : c.measurement.credited start stop = some metres) : c.InWindow start := by
  rcases Option.bind_eq_some_iff.mp h with ⟨interval, _, hinterval⟩
  split_ifs at hinterval with hreason
  exact sliceReason_inWindow hreason

theorem instants_inWindow {instant : Nat × ℚ} (h : instant ∈ c.measurement.instants) :
    c.InWindow instant.1 := by
  rcases List.mem_map.mp h with ⟨interval, hinterval, rfl⟩
  have heligible : c.EligibleInstant interval := by simpa using List.of_mem_filter hinterval
  exact heligible.2.2.2.1

end

end EligibilitySession

/-! ## The session of a trip -/

/-- `payout_time_bounds`: the window ends at its frozen end or at an earlier cutoff. -/
def effectiveWindowEnd (s : Store) (campaignId : Id) (windowEndAt : Option Int) : Option Int :=
  match s.financialCutoff campaignId with
  | none => windowEndAt
  | some cutoff => if windowEndAt.all (cutoff < ·) then some cutoff else windowEndAt

/-- The session that `classify_daily_rate_trip` classifies. -/
def classifiedSession (s : Store) (trip : TripSession) (windowStartAt windowEndAt : Option Int)
    (pings : List EligibilityPing) (params : EligibilityParams) : EligibilitySession :=
  { sessionStartedAt := trip.startedAt
    sessionEndedAt := economicEnd s trip
    pings := pings
    windowStartAt := windowStartAt
    windowEndAt := effectiveWindowEnd s trip.campaignId windowEndAt
    params := params }

theorem effectiveWindowEnd_le (s : Store) (campaignId : Id) (windowEnd : Int) :
    ∃ effective, effectiveWindowEnd s campaignId (some windowEnd) = some effective
      ∧ effective ≤ windowEnd := by
  unfold effectiveWindowEnd
  split
  · exact ⟨windowEnd, rfl, le_refl _⟩
  · rename_i cutoff _
    split_ifs with hearlier
    · exact ⟨cutoff, rfl, le_of_lt (by simpa using hearlier)⟩
    · exact ⟨windowEnd, rfl, le_refl _⟩

end Pay
end Mobility
