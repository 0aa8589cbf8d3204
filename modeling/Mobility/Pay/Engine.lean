import Mobility.Pay.Positions
import Mobility.Trips.Analytics

/-!
# Engine — pricing one trip (`payout_eligibility.py`, `payouts/engine.py`)

`calculate_trip_payout` admits sealed trips with a verified manifest, checks their
sources and prices each Lagos day as an increment on the metres already credited
to that day.
-/

namespace Mobility
namespace Pay

open Lib
open Trips
open Payout (Currency EarningsLedgerEntryStatus EarningsLedgerEntryType)

/-! ## Classified time -/

/-- What geometry says about a session: the offsets where its classification may
change, the metres credited to the slice between two of them (none when the slice
is excluded), and the sub-second intervals that are eligible at their instant. -/
structure Measurement where
  cuts : List Nat := []
  credited : Nat → Nat → Option ℚ := fun _ _ => none
  instants : List (Nat × ℚ) := []

/-- One credited stretch of a session. -/
structure EligibleSlice where
  startOffset : Nat
  endOffset : Nat
  day : Day
  metres : ℚ
  deriving DecidableEq, Repr

/-- Whole seconds from the start to the economic end. -/
def sessionDuration (s : Store) (trip : TripSession) : Nat :=
  ((economicEnd s trip - trip.startedAt) / microsPerSecond).toNat

def lagosDayAt (start : Int) (offset : Nat) : Day :=
  lagosDayFor (start + offset * microsPerSecond)

/-- Offsets of every Lagos midnight strictly inside the session. -/
def lagosMidnightOffsets (start : Int) (duration : Nat) : List Nat :=
  ((daysThrough (lagosDayFor start + 1) (lagosDayAt start duration)).map (fun day =>
    (((lagosDayUtcRange day).1 - start) / microsPerSecond).toNat)).filter
      (fun offset => 0 < offset ∧ offset < duration)

/-- The slice boundaries: session edges, cuts and midnights, in order. -/
def boundaries (start : Int) (duration : Nat) (cuts : List Nat) : List Nat :=
  (0 :: duration :: cuts.map (min · duration) ++ lagosMidnightOffsets start duration).insertionSort
    (· ≤ ·)

/-- `classify_session`: the credited slices, each owned by the day of its start, and
the instants, as slices of no length. -/
def classifySession (start : Int) (duration : Nat) (measurement : Measurement) :
    List EligibleSlice :=
  let points := boundaries start duration measurement.cuts
  (points.zip points.tail).filterMap (fun slice =>
      if slice.1 < slice.2 then
        (measurement.credited slice.1 slice.2).map (fun metres =>
          { startOffset := slice.1
            endOffset := slice.2
            day := lagosDayAt start slice.1
            metres := metres })
      else
        none)
    ++ (measurement.instants.filter (·.1 < duration)).map (fun instant =>
      { startOffset := instant.1
        endOffset := instant.1
        day := lagosDayAt start instant.1
        metres := instant.2 })

/-- `credited_distance_m_by_day`: whole metres per day, rounded down. -/
def creditedDistanceMByDay (slices : List EligibleSlice) : ByDay :=
  (slices.map (·.day)).dedup.map (fun day =>
    (day, ⌊((slices.filter (·.day = day)).map (·.metres)).sum⌋))

/-- The days a calculation prices; a session without eligible time has its start day. -/
def lagosDaysOf (trip : TripSession) (slices : List EligibleSlice) : List Day :=
  if slices = [] then [lagosDayFor trip.startedAt] else (slices.map (·.day)).dedup

/-! ## The gates -/

/-- `require_paycap_predecessors_processed`: an earlier trip of the same driver and
campaign, no longer active, that overlaps a listed day and has no calculation. -/
def IsPredecessor (s : Store) (trip : TripSession) (lagosDays : List Day)
    (other : TripSession) : Prop :=
  other.driverProfileId = trip.driverProfileId ∧ other.campaignId = trip.campaignId
    ∧ (other.status = .ended ∨ other.status = .sealed) ∧ other.endedAt.isSome
    ∧ (other.startedAt < trip.startedAt
      ∨ (other.startedAt = trip.startedAt ∧ other.id < trip.id))
    ∧ (∃ day ∈ lagosDays, other.startedAt < (lagosDayUtcRange day).2
      ∧ other.endedAt.getD other.startedAt > (lagosDayUtcRange day).1)
    ∧ ¬ ∃ calculation ∈ s.calculations, calculation.tripSessionId = other.id

instance (s : Store) (trip : TripSession) (lagosDays : List Day) (other : TripSession) :
    Decidable (IsPredecessor s trip lagosDays other) :=
  inferInstanceAs (Decidable (_ ∧ _ ∧ _ ∧ _ ∧ _ ∧ _ ∧ _))

/-- The first unprocessed predecessor, by start and id. -/
def unprocessedPredecessor? (s : Store) (trip : TripSession) (lagosDays : List Day) :
    Option TripSession :=
  ((s.trips.filter (IsPredecessor s trip lagosDays)).insertionSort
    (fun t t' => instantThenId t.startedAt t.id t'.startedAt t'.id)).head?

/-- Refusals of the pay chain; the predecessor refusal names the trip it waits for. -/
inductive PayError
  | app (error : AppError)
  | predecessorUnprocessed (predecessorTripId : Id)
  deriving DecidableEq, Repr

def PayError.asAppError : PayError → AppError
  | .app error => error
  | .predecessorUnprocessed _ =>
      { code := "PAYOUT_DAY_PREDECESSOR_UNPROCESSED"
        message := "An earlier trip overlapping this payout day must be processed first" }

/-- An ordinary refusal inside the pay chain. -/
def asPay {α : Type} (x : Except AppError α) : Except PayError α :=
  x.mapError .app

def requirePaycapPredecessorsProcessed (s : Store) (trip : TripSession) (lagosDays : List Day) :
    Except PayError Unit :=
  match unprocessedPredecessor? s trip lagosDays with
  | none => .ok ⟨⟩
  | some predecessor => .error (.predecessorUnprocessed predecessor.id)

def payoutStatus (analytics : TripAnalytics) (estimate : ImpressionEstimateStatus) :
    PayoutCalculationStatus :=
  if analytics.status = .insufficientData ∨ estimate = .insufficientData then .insufficientData
  else if analytics.status = .blocked ∨ estimate = .excluded then .blocked
  else .calculated

/-! ## Pricing -/

/-- The metres a calculation credits: the positive ones, of a calculated trip only. -/
def pricedDistance (status : PayoutCalculationStatus) (slices : List EligibleSlice) : ByDay :=
  if status = .calculated then (creditedDistanceMByDay slices).filter (0 < ·.2) else []

/-- Each day's money, as an increment on the metres credited before. -/
def pricedAmounts (prior : Day → Int) (terms : DailyRateTerms) (distance : ByDay) : ByDay :=
  distance.map (fun added =>
    (added.1, dayPayNaira (prior added.1 + added.2) terms - dayPayNaira (prior added.1) terms))

/-- Outside answers to one pricing: geometry, the current impression estimate of the
trip, whether the inputs of an existing calculation drifted, and the new row ids. -/
structure PayoutInputs where
  measurement : Measurement := {}
  estimate : Except AppError ImpressionEstimateStatus := .ok .estimated
  stale : Bool := false
  calculationId : Id
  entryId : Id

/-- The calculation row of a trip: its metres by day, each day's money as an increment
on the metres that other trips were credited before. -/
def pricedCalculation (trip : TripSession) (analytics : TripAnalytics)
    (estimate : ImpressionEstimateStatus) (binding : AssignmentRuleBinding)
    (inputs : PayoutInputs) (slices : List EligibleSlice) (now : Int) (s : Store) :
    PayoutCalculation :=
  let status := payoutStatus analytics estimate
  let distance := pricedDistance status slices
  let amounts := pricedAmounts
    (fun day => dayCreditedDistanceM s trip.driverProfileId trip.campaignId day trip.id)
    binding.terms distance
  { id := inputs.calculationId
    tripSessionId := trip.id
    campaignId := trip.campaignId
    driverProfileId := trip.driverProfileId
    status := status
    currency := binding.currency
    finalPayout := (amounts.map (·.2)).sum
    position := { distanceMByDay := distance, amountByDay := amounts }
    calculatedAt := now
    sourceAnalytics := analytics
    pricedPings := loadOrderedPings trip (economicEnd s trip) }

/-- The slices of a session: its recorded time up to the economic end. -/
def tripSlices (s : Store) (trip : TripSession) (measurement : Measurement) :
    List EligibleSlice :=
  classifySession trip.startedAt (sessionDuration s trip) measurement

def calculateTripPayoutV4 (trip : TripSession) (analytics : TripAnalytics)
    (estimate : ImpressionEstimateStatus) (binding : AssignmentRuleBinding)
    (inputs : PayoutInputs) (now : Int) (s : Store) : Except PayError Store := do
  let slices := tripSlices s trip inputs.measurement
  requirePaycapPredecessorsProcessed s trip (lagosDaysOf trip slices)
  let calculation := pricedCalculation trip analytics estimate binding inputs slices now s
  asPay (require (∀ row ∈ s.calculations, row.id ≠ calculation.id)
    (uniqueViolation "payout_calculations_pkey"))
  asPay (ensureLedgerEntry inputs.entryId calculation
    { s with calculations := s.calculations ++ [calculation] })

section

variable [Evidence]

/-- `get_trip_for_payout`: money is for sealed trips with an authenticated manifest. -/
def getTripForPayout (settings : Settings) (tripId : Id) (s : Store) :
    Except AppError TripSession := do
  let trip ← demand (s.trip? tripId) tripNotFound
  require (trip.status = .sealed ∧ trip.endedAt.isSome)
    { code := "TRIP_NOT_SEALED"
      message := "Payout can only be calculated for sealed trips"
      statusCode := 400 }
  let authenticated ← verifyManifestReceipt settings trip
  require authenticated
    { code := "TRIP_EVIDENCE_NOT_VERIFIED"
      message := "Payout requires an authenticated v2 trip evidence manifest" }
  return trip

def calculateTripPayout (settings : Settings) (strictStaleness : Bool) (inputs : PayoutInputs)
    (tripId : Id) (now : Int) (s : Store) : Except PayError Store := do
  let trip ← asPay (getTripForPayout settings tripId s)
  let analytics ← asPay (demand (s.analytics? trip.id)
    { code := "ANALYTICS_NOT_FOUND"
      message := "Trip analytics were not found"
      statusCode := 404 })
  asPay (require (analytics.formulaVersion = routeAnalyticsFormulaVersion)
    { code := "ANALYTICS_FORMULA_VERSION_MISMATCH"
      message :=
        "Trip analytics must be recomputed with the current formula before downstream processing" })
  let estimate ← asPay inputs.estimate
  let binding ← asPay (demand (s.binding? trip.assignmentId)
    { code := "PAYOUT_BINDING_NOT_FOUND"
      message := "This trip has no frozen daily-rate terms" })
  match calculationFor? s trip.id with
  | some existing => do
      asPay (require (¬ (strictStaleness ∧ inputs.stale))
        { code := "PAYOUT_CALCULATION_STALE"
          message := "The payout calculation predates the current analytics or impression source" })
      asPay (ensureLedgerEntry inputs.entryId existing s)
  | none => calculateTripPayoutV4 trip analytics estimate binding inputs now s

end

end Pay
end Mobility
