import Mobility.Pay.Engine

/-!
# Processing — the worker's money chain (`services/trip_processing.py`)

`process_ended_trip` is one transaction: analytics, then pay.  Analytics computed
before the seal are computed again; later ones are reused.  A trip that waits for an
unprocessed predecessor processes it first, in the same transaction, and stops with
its analytics committed when that does not price the predecessor.
-/

namespace Mobility
namespace Trips

open Lib
open Pay (PayError PayoutInputs calculateTripPayout repairMissingLedgerEntries)

section

variable [Evidence]

/-- The worker leaves alone a trip that is not sealed or not authenticated. -/
def readyForMoney (settings : Settings) (trip : TripSession) : Except AppError Bool :=
  if trip.status ≠ .sealed ∨ trip.endedAt.isNone then .ok false
  else verifyManifestReceipt settings trip

/-- Analytics computed before the seal may not cover the late batches. -/
def analyticsPredateSeal (trip : TripSession) (analytics : TripAnalytics) : Bool :=
  trip.sealedAt.any (analytics.computedAt < ·)

/-- The analytics stage: computed when missing or older than the seal, else reused. -/
def analyticsStage (trip : TripSession) (now : Int) (s : Store) : Store :=
  match s.analytics? trip.id with
  | none => upsertAnalytics (analyticsOf s trip now) s
  | some analytics =>
      if analyticsPredateSeal trip analytics then upsertAnalytics (analyticsOf s trip now) s else s

/-- The refusals that end the payout stage without losing the earlier stages. -/
def noFrozenPayoutTerms (error : AppError) : Bool :=
  error.code = "PAYOUT_RULE_NOT_FOUND" || error.code = "PAYOUT_BINDING_NOT_FOUND"

/-- The worker's answers from outside, by trip, and its fuel: one unit per attempt. -/
def processEndedTrip (settings : Settings) (inputs : Id → PayoutInputs) (now : Int) :
    Nat → Id → Store → Except AppError Store
  | 0, _, _ => .error (valueError "the worker ran out of attempts")
  | fuel + 1, tripId, s => do
      let trip ← demand (s.trip? tripId) tripNotFound
      let ready ← readyForMoney settings trip
      if ready then
        let s ← repairMissingLedgerEntries (inputs tripId).entryId trip.id s
        payoutStage fuel trip (analyticsStage trip now s)
      else
        return s
where
  /-- The `while True` loop around `calculate_trip_payout`. -/
  payoutStage : Nat → TripSession → Store → Except AppError Store
    | 0, _, _ => .error (valueError "the worker ran out of attempts")
    | fuel + 1, trip, s =>
        match calculateTripPayout settings false (inputs trip.id) trip.id now s with
        | .ok s => .ok s
        | .error (.predecessorUnprocessed predecessorId) => do
            let s ← processEndedTrip settings inputs now fuel predecessorId s
            if s.calculations.any (·.tripSessionId = predecessorId) then
              payoutStage fuel trip s
            else
              return s
        | .error (.app error) => if noFrozenPayoutTerms error then .ok s else .error error

end

end Trips
end Mobility
