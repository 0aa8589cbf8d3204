import Mobility.Lib.Machine
import Mobility.Pay.Corrections
import Mobility.Trips.Processing

/-!
# System — trips, their evidence and their pay as one transition system

Every action is one transaction under the campaign and trip locks.  Clocks, outside
answers and new ids are carried by the action.
-/

namespace Mobility
namespace Trips

open Lib
open Payout (Digest EarningsLedgerEntryStatus)
open Pay (Measurement PayoutInputs)

inductive TripAction
  | bind (binding : AssignmentRuleBinding)
  | start (authorized : Except AppError Unit) (start : TripStart) (now : Int)
  | ingest (authority : CaptureAuthority) (driverProfileId tripId : Id)
      (payload : LocationPingBatchCreate) (clock : Int)
  | endTrip (driverProfileId tripId : Id) (endReason : Option String)
      (manifest : Option TripEvidenceManifestCreate) (clock : Int)
  | autoEnd (tripId : Id) (clock : Int)
  | reconcile (driverProfileId tripId : Id) (clock : Int)
  | sealDue (locked : Id → Bool) (now : Int)
  | rotateKey (version : Nat)
  | cancelCampaign (campaignId : Id) (cutoffAt : Int)
  | recomputeAnalytics (tripId : Id) (now : Int)
  | process (tripId : Id) (fuel : Nat) (inputs : Id → PayoutInputs) (now : Int)
  | calculate (tripId : Id) (strictStaleness : Bool) (inputs : PayoutInputs) (now : Int)
  | createOrder (authorized : Except AppError Unit) (orderId campaignId : Id) (day : Day)
      (fingerprint : Digest) (measure : Id → Measurement)
  | approveOrder (authorized : Except AppError Unit) (orderId : Id) (fingerprint : Digest)
      (releaseAt : Option Int) (measure : Id → Measurement) (entryId : Id → Id)
      (executedAt : Int)
  | deduct (entryId sourceEntryId : Id) (amount now : Int)
  | markEntry (entryId : Id) (status : EarningsLedgerEntryStatus)

def tripStep [Evidence] (settings : Settings) (s : Store) : TripAction → Except AppError Store
  | .bind binding => bindAssignment binding s
  | .start authorized start now => startDriverTrip authorized start now s
  | .ingest authority driverProfileId tripId payload clock =>
      ingestLocationPingBatch settings authority driverProfileId tripId payload clock s
  | .endTrip driverProfileId tripId endReason manifest clock =>
      endDriverTrip settings driverProfileId tripId endReason manifest clock s
  | .autoEnd tripId clock => autoEndInactiveTrip settings tripId clock s
  | .reconcile driverProfileId tripId clock =>
      reconcileTripEvidence settings driverProfileId tripId clock s
  | .sealDue locked now => sealDueTrips settings locked now s
  | .rotateKey version => .ok { s with signingKeyVersion := version }
  | .cancelCampaign campaignId cutoffAt => requestCampaignCancellation campaignId cutoffAt s
  | .recomputeAnalytics tripId now => recomputeTripAnalytics tripId now s
  | .process tripId fuel inputs now => processEndedTrip settings inputs now fuel tripId s
  | .calculate tripId strictStaleness inputs now =>
      (Pay.calculateTripPayout settings strictStaleness inputs tripId now s).mapError
        Pay.PayError.asAppError
  | .createOrder authorized orderId campaignId day fingerprint measure =>
      Pay.createCorrectionOrder authorized orderId campaignId day fingerprint measure s
  | .approveOrder authorized orderId fingerprint releaseAt measure entryId executedAt =>
      Pay.approveCorrectionOrder authorized orderId fingerprint releaseAt measure entryId
        executedAt s
  | .deduct entryId sourceEntryId amount now =>
      Pay.recordNegativeAdjustment entryId sourceEntryId amount now s
  | .markEntry entryId status => Pay.markLedgerEntry entryId status s

/-- All runs of the trip and pay services, from an empty database. -/
def fleet [Evidence] (settings : Settings) : Machine Store TripAction AppError :=
  { init := {}, step := tripStep settings }

/-! ## A small deployment

Concrete hashes and outside answers, for runs that exhibit a behaviour. -/

/-- Tells apart the documents of the sample runs. -/
@[reducible]
def sampleEvidence : Evidence where
  sha256
    | .batch _ metadata => "batch " ++ metadata
    | .manifestEntry entry => "entry " ++ entry.idempotencyKey ++ entry.payloadHash
    | .manifest _ _ _ _ entryDigests => entryDigests.foldl (· ++ ·) "manifest "
    | _ => "rejections"
  hmac _
    | .batchReceipt _ _ _ idempotencyKey _ payloadHash _ _ _ _ _ _ =>
        "batch " ++ idempotencyKey ++ payloadHash
    | .manifestReceipt _ _ header _ => "verified " ++ (header.map (·.rootSha256)).getD ""
    | .adjudicationReceipt _ _ header _ _ =>
        "adjudicated " ++ (header.map (·.rootSha256)).getD ""
    | _ => ""

def sampleSettings : Settings where
  tripEvidenceSigningKeys := fun version => if version = 1 then some 11 else none

/-- Noon of 2 January 1970, Lagos time, and the seconds after it. -/
def sampleNoon : Int := (24 + 11) * 3600 * microsPerSecond

def secondsAfterNoon (seconds : Int) : Int := sampleNoon + seconds * microsPerSecond

def samplePing (recordedAt : Int) : LocationPing :=
  { recordedAt := recordedAt, lat := 6, lon := 3 }

/-- A batch of pings recorded at the given seconds after noon. -/
def samplePayload (key : String) (sequence : Nat) (seconds : List Int) :
    LocationPingBatchCreate :=
  { idempotencyKey := key
    batchSequence := some sequence
    pings := seconds.map (fun s => samplePing (secondsAfterNoon s))
    metadata := key }

/-- The manifest entry that declares a payload. -/
def declare [Evidence] (payload : LocationPingBatchCreate) : TripEvidenceManifestEntry :=
  { batchSequence := payload.batchSequence.getD 0
    idempotencyKey := payload.idempotencyKey
    payloadHash := Evidence.sha256 (.batch payload.pings payload.metadata)
    submittedCount := payload.pings.length }

/-- The manifest of some payloads, complete or not on the client's side. -/
def manifestOf [Evidence] (tripId : Id) (complete : Bool)
    (payloads : List LocationPingBatchCreate) : TripEvidenceManifestCreate :=
  let entries := payloads.map declare
  let pingCount := (entries.map (·.submittedCount)).sum
  { rootSha256 := manifestRoot tripId entries pingCount
    pingCount := pingCount
    complete := complete
    entries := entries }

/-- Driver 7 starts a trip of campaign 5 under assignment 3. -/
def startTrip (tripId : Id) (now : Int) : TripAction :=
  .start (.ok ⟨⟩)
    { tripId := tripId, assignmentId := 3, campaignId := 5, driverProfileId := 7, vehicleId := 9 }
    now

def deliverBatch (tripId : Id) (payload : LocationPingBatchCreate) (clock : Int) : TripAction :=
  .ingest {} 7 tripId payload clock

/-- 100.00 a day for ten miles. -/
def sampleTerms : DailyRateTerms :=
  { dailyRateNaira := 100, dailyTargetMiles := 10 }

def bindSample : TripAction :=
  .bind { assignmentId := 3, terms := sampleTerms, currency := "NGN" }

/-- Geometry that credits `metres` to a session of `seconds` seconds. -/
def sampleMeasurement (metres : ℚ) : Measurement :=
  { credited := fun start _ => if start = 0 then some metres else none }

/-- Row ids for the pay of a trip. -/
def sampleInputs (metres : Id → ℚ) (tripId : Id) : PayoutInputs :=
  { measurement := sampleMeasurement (metres tripId)
    calculationId := 1000 + tripId
    entryId := 2000 + tripId }

/-- The batch of one trip: two pings, one minute apart. -/
def sampleBatch (tripId : Id) (second : Int) : LocationPingBatchCreate :=
  samplePayload (String.ofList (List.replicate tripId 'k')) 0 [second, second + 60]

/-- A trip of one minute, uploaded and ended with a complete manifest: sealed. -/
def sealedTrip [Evidence] (tripId : Id) (second : Int) : List TripAction :=
  [ startTrip tripId (secondsAfterNoon second),
    deliverBatch tripId (sampleBatch tripId second) (secondsAfterNoon (second + 70)),
    .endTrip 7 tripId none (some (manifestOf tripId true [sampleBatch tripId second]))
      (secondsAfterNoon (second + 80)) ]

end Trips
end Mobility
