import Mobility.Lib.Newest
import Mobility.Pay.Daily
import Mobility.Trips.Ingest

/-!
# Positions — what was credited to a day so far (`services/payouts/ledger.py`)

Three writers record a trip's metres and money by day: the calculation row, the
recompute-day ledger entries and the executed correction orders.  The newest of
them is the trip's position.
-/

namespace Mobility
namespace Pay

open Lib
open Trips
open Payout (Currency EarningsLedgerEntryStatus EarningsLedgerEntryType)

/-! ## Latest positions -/

/-- The non-voided recompute-day breakdowns of a calculation, with their dates. -/
def entryPositions (s : Store) (calculation : PayoutCalculation) :
    List (Int × DailyRatePosition) :=
  s.entries.filterMap (fun entry =>
    if entry.tripSessionId = calculation.tripSessionId ∧ entry.status ≠ .voided
        ∧ (entry.entryType = .adjustment ∨ entry.entryType = .reversal) then
      (entry.recomputeDay.filter (·.payoutCalculationId = calculation.id)).map
        (fun breakdown => (entry.occurredAt, breakdown.position))
    else
      none)

/-- The lines of an execution result about a calculation. -/
def resultLines (calculation : PayoutCalculation) (order : PayoutCorrectionOrder) :
    List ExecutionResultTrip :=
  order.executionResult.filter (fun trip =>
    trip.tripSessionId = calculation.tripSessionId
      ∧ trip.payoutCalculationId = calculation.id)

/-- The positions that executed orders of the campaign recorded, with their dates. -/
def orderPositions (s : Store) (calculation : PayoutCalculation) :
    List (Int × DailyRatePosition) :=
  s.orders.filterMap (fun order =>
    if order.campaignId = calculation.campaignId ∧ order.status = .executed then
      order.executedAt.bind (fun executedAt =>
        (resultLines calculation order).getLast?.map (fun trip => (executedAt, trip.position)))
    else
      none)

def latestDailyRatePosition (s : Store) (calculation : PayoutCalculation) : DailyRatePosition :=
  newest calculation.position (entryPositions s calculation ++ orderPositions s calculation)

/-! ## Calculations -/

/-- `ORDER BY calculated_at, id`, last row per trip. -/
def supersedes (calculation other : PayoutCalculation) : Bool :=
  calculation.tripSessionId = other.tripSessionId
    && !instantThenId calculation.calculatedAt calculation.id other.calculatedAt other.id

def latestByTrip (calculations : List PayoutCalculation) : List PayoutCalculation :=
  calculations.filter (fun calculation => !calculations.any (supersedes · calculation))

def calculationFor? (s : Store) (tripId : Id) : Option PayoutCalculation :=
  (latestByTrip s.calculations).find? (·.tripSessionId = tripId)

/-- The trip's own pay entry; a table constraint allows one per trip. -/
def tripPayoutEntryFor? (s : Store) (tripId : Id) : Option EarningsLedgerEntry :=
  s.entries.find? (fun entry => entry.tripSessionId = tripId && entry.entryType = .tripPayout)

def voidedTripPayout (s : Store) (tripId : Id) : Bool :=
  (tripPayoutEntryFor? s tripId).any (·.status = .voided)

/-- `_day_trip_overlap`: `started_at < day_end ∧ coalesce(ended_at, started_at) >= day_start`. -/
def DayTripOverlap (trip : TripSession) (day : Day) : Prop :=
  trip.startedAt < (lagosDayUtcRange day).2
    ∧ trip.endedAt.getD trip.startedAt ≥ (lagosDayUtcRange day).1

instance (trip : TripSession) (day : Day) : Decidable (DayTripOverlap trip day) :=
  inferInstanceAs (Decidable (_ ∧ _))

/-- The calculations that `day_credited_distance_m` sums. -/
def creditingCalculations (s : Store) (driverProfileId campaignId : Id) (lagosDay : Day)
    (excludeTripId : Id) : List PayoutCalculation :=
  latestByTrip (s.calculations.filter (fun calculation =>
    calculation.driverProfileId = driverProfileId ∧ calculation.campaignId = campaignId
      ∧ calculation.tripSessionId ≠ excludeTripId
      ∧ (∃ trip ∈ s.trips, trip.id = calculation.tripSessionId ∧ DayTripOverlap trip lagosDay)
      ∧ ¬ voidedTripPayout s calculation.tripSessionId))

/-- Whole metres already credited to a driver, campaign and Lagos day. -/
def dayCreditedDistanceM (s : Store) (driverProfileId campaignId : Id) (lagosDay : Day)
    (excludeTripId : Id) : Int :=
  ((creditingCalculations s driverProfileId campaignId lagosDay excludeTripId).map
    (fun calculation => (latestDailyRatePosition s calculation).distanceMByDay.get lagosDay)).sum

/-! ## Ledger entries of calculations -/

/-- `ensure_ledger_entry`: a positive calculation posts one pending trip payout. -/
def ensureLedgerEntry (entryId : Id) (calculation : PayoutCalculation) (s : Store) :
    Except AppError Store :=
  if s.entries.any (·.payoutCalculationId = some calculation.id) then .ok s
  else if calculation.status ≠ .calculated ∨ calculation.finalPayout ≤ 0 then .ok s
  else if (tripPayoutEntryFor? s calculation.tripSessionId).isSome then .ok s
  else do
    require (∀ entry ∈ s.entries, entry.id ≠ entryId)
      (uniqueViolation "earnings_ledger_entries_pkey")
    return { s with
      entries := s.entries ++
        [{ id := entryId
           payoutCalculationId := some calculation.id
           tripSessionId := calculation.tripSessionId
           campaignId := calculation.campaignId
           driverProfileId := calculation.driverProfileId
           entryType := .tripPayout
           status := .pending
           amount := calculation.finalPayout
           currency := calculation.currency
           occurredAt := calculation.calculatedAt }] }

/-- `repair_missing_ledger_entries`: money already computed is owed. -/
def repairMissingLedgerEntries (entryId tripId : Id) (s : Store) : Except AppError Store :=
  checkedFold (fun s calculation => ensureLedgerEntry entryId calculation s) s
    (s.calculations.filter (fun calculation => calculation.tripSessionId = tripId
      ∧ ¬ s.entries.any (·.payoutCalculationId = some calculation.id)))

end Pay
end Mobility
