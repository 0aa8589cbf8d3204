import Mobility.Trips.Ingest

/-!
# Analytics — accepted pings and trip analytics (`services/trip_analytics.py`)

Analytics and pay both read the accepted pings of a trip that were recorded by
its economic end: the recorded end, clipped to the cutoff of a cancelled campaign
and never before the start.
-/

namespace Mobility
namespace Trips

open Lib

def routeAnalyticsFormulaVersion : String := "route_analytics_v1"

def routeAnalyticsMinValidPings : Nat := 2

/-- `payout_time_bounds` and `recompute_trip_analytics` compute the same end. -/
def economicEnd (s : Store) (trip : TripSession) : Int :=
  let recordedEnd := trip.endedAt.getD trip.startedAt
  max trip.startedAt
    (match s.financialCutoff trip.campaignId with
      | none => recordedEnd
      | some cutoff => min recordedEnd cutoff)

/-- `ORDER BY recorded_at, sequence_number ASC NULLS LAST`, then in stored order. -/
def recordedBefore (ping ping' : LocationPing) : Bool :=
  ping.recordedAt < ping'.recordedAt
    || (ping.recordedAt = ping'.recordedAt
      && match ping.sequenceNumber, ping'.sequenceNumber with
        | _, none => true
        | none, some _ => false
        | some n, some n' => n ≤ n')

/-- The accepted samples of a trip, batch by batch. -/
def TripSession.pings (trip : TripSession) : List LocationPing :=
  trip.batches.flatMap (·.pings)

/-- `load_ordered_pings` and `load_eligibility_pings`. -/
def loadOrderedPings (trip : TripSession) (recordedThrough : Int) : List LocationPing :=
  (trip.pings.filter (·.recordedAt ≤ recordedThrough)).insertionSort
    (fun ping ping' => recordedBefore ping ping')

def isValidPing (ping : LocationPing) : Bool :=
  -90 ≤ ping.lat && ping.lat ≤ 90 && -180 ≤ ping.lon && ping.lon ≤ 180

/-- The analytics row of a trip over the pings it holds now. -/
def analyticsOf (s : Store) (trip : TripSession) (now : Int) : TripAnalytics :=
  let pings := loadOrderedPings trip (economicEnd s trip)
  { tripSessionId := trip.id
    formulaVersion := routeAnalyticsFormulaVersion
    status :=
      if (pings.filter isValidPing).length ≥ routeAnalyticsMinValidPings then .computed
      else .insufficientData
    computedAt := now
    endedAt := economicEnd s trip
    sourcePings := pings }

/-- `upsert_analytics`: one row per trip. -/
def upsertAnalytics (row : TripAnalytics) (s : Store) : Store :=
  { s with
    analytics := s.analytics.filter (·.tripSessionId ≠ row.tripSessionId) ++ [row] }

/-- Ended and sealed trips have analytics; they are diagnostics, not money. -/
def recomputeTripAnalytics (tripId : Id) (now : Int) (s : Store) : Except AppError Store := do
  let trip ← demand (s.trip? tripId) tripNotFound
  require ((trip.status = .ended ∨ trip.status = .sealed) ∧ trip.endedAt.isSome)
    { code := "TRIP_NOT_ENDED"
      message := "Trip analytics can only be computed for ended trips"
      statusCode := 400 }
  return upsertAnalytics (analyticsOf s trip now) s

/-- A cancelled campaign has one immutable cutoff. -/
def requestCampaignCancellation (campaignId : Id) (cutoffAt : Int) (s : Store) :
    Except AppError Store := do
  require (s.financialCutoff campaignId).isNone
    { code := "CAMPAIGN_CANCELLATION_CONFLICT"
      message := "This campaign already has a different immutable cancellation" }
  return { s with cutoffs := s.cutoffs ++ [(campaignId, cutoffAt)] }

end Trips
end Mobility
