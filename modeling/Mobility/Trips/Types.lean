import Mathlib.Data.Rat.Defs
import Mobility.Lib.Checked
import Mobility.Payout.Types

/-!
# Types — trip, evidence and pay-calculation rows (`app/models`)

Rows owned by a trip (its manifest entries and its ping batches, which own their
pings) are stored inside it.  Columns that a table constraint fills together are
one optional record, so a half-filled cluster cannot be written.

* Instants are whole microseconds; the Lagos calendar is UTC+1 all year.
* Measured floats (coordinates, accuracy, speed) are rationals.
* SHA-256 and the receipt HMAC are functions of the document that is hashed or
  signed; nothing is assumed about them.
-/

namespace Mobility
namespace Trips

open Payout (Currency Digest EarningsLedgerEntryStatus EarningsLedgerEntryType)

abbrev Day := Int

abbrev Key := Nat

abbrev Signature := String

/-! ## The Lagos calendar (`payouts/common.py`) -/

def microsPerSecond : Int := 1000000

def microsPerDay : Int := 86400 * microsPerSecond

/-- Africa/Lagos is one hour ahead of UTC. -/
def lagosOffset : Int := 3600 * microsPerSecond

def lagosDayFor (moment : Int) : Day :=
  (moment + lagosOffset) / microsPerDay

/-- `lagos_day_utc_range`: the first instant of the day, and of the next day. -/
def lagosDayUtcRange (day : Day) : Int × Int :=
  (day * microsPerDay - lagosOffset, (day + 1) * microsPerDay - lagosOffset)

/-- `utc_now` of the trip services keeps whole milliseconds. -/
def utcNow (clock : Int) : Int :=
  clock - clock % 1000

/-- `ORDER BY instant, id`. -/
def instantThenId (instant : Int) (id : Id) (instant' : Int) (id' : Id) : Bool :=
  instant < instant' || (instant = instant' && id ≤ id')

/-! ## Enumerations -/

inductive TripSessionStatus
  | active
  | ended
  | sealed
  deriving DecidableEq, Repr

inductive TripSealReason
  | clientComplete
  | lateDataComplete
  | autoEnded
  deriving DecidableEq, Repr

inductive EvidenceScope
  | manifest
  | late
  | lateDropped
  deriving DecidableEq, Repr

inductive TripAnalyticsStatus
  | computed
  | insufficientData
  | blocked
  deriving DecidableEq, Repr

inductive ImpressionEstimateStatus
  | estimated
  | insufficientData
  | excluded
  deriving DecidableEq, Repr

inductive PayoutCalculationStatus
  | calculated
  | insufficientData
  | blocked
  deriving DecidableEq, Repr

inductive PayoutCorrectionOrderStatus
  | draft
  | executed
  | stale
  deriving DecidableEq, Repr

/-! ## Pings and batches -/

structure LocationPing where
  recordedAt : Int
  lat : ℚ
  lon : ℚ
  accuracyM : Option ℚ := none
  speedMps : Option ℚ := none
  headingDegrees : Option ℚ := none
  altitudeM : Option ℚ := none
  sequenceNumber : Option Nat := none
  metadata : String := ""
  deriving DecidableEq, Repr

structure LocationPingBatchCreate where
  idempotencyKey : String
  batchSequence : Option Nat
  pings : List LocationPing
  metadata : String := ""
  deriving DecidableEq, Repr

/-- One line of a committed evidence manifest. -/
structure TripEvidenceManifestEntry where
  batchSequence : Nat
  idempotencyKey : String
  payloadHashVersion : Nat := 2
  payloadHash : Digest
  submittedCount : Nat
  deriving DecidableEq, Repr

/-- The receipt columns of a batch, of a verified manifest and of an adjudication. -/
structure Receipt where
  formatVersion : Nat
  keyVersion : Nat
  signature : Signature
  deriving DecidableEq, Repr

inductive BatchOutcome
  | accepted
  | dropped
  deriving DecidableEq, Repr

structure LocationPingBatch where
  idempotencyKey : String
  batchSequence : Nat
  payloadHashVersion : Nat
  payloadHash : Digest
  pingsSubmitted : Nat
  pingsAccepted : Nat
  pingsRejected : Nat
  evidenceScope : EvidenceScope
  receivedAt : Int
  rejectionManifest : List (Option Nat × Option String)
  rejectionDigest : Digest
  receipt : Option Receipt := none
  receiptOutcome : Option BatchOutcome := none
  /-- the accepted samples, `location_pings` rows of this batch -/
  pings : List LocationPing
  deriving DecidableEq, Repr

/-! ## Trips -/

/-- The manifest header columns, all present or all absent. -/
structure ManifestHeader where
  version : Nat
  rootSha256 : Digest
  batchCount : Nat
  pingCount : Nat
  deriving DecidableEq, Repr

structure ManifestVerification where
  verifiedAt : Int
  receipt : Receipt
  deriving DecidableEq, Repr

/-- The one outcome is `incomplete_grace_expired`. -/
structure EvidenceAdjudication where
  adjudicatedAt : Int
  outcome : String
  receipt : Receipt
  deriving DecidableEq, Repr

structure TripSession where
  id : Id
  assignmentId : Id
  campaignId : Id
  driverProfileId : Id
  vehicleId : Id
  status : TripSessionStatus := .active
  startedAt : Int
  endedAt : Option Int := none
  endReason : Option String := none
  manifest : Option ManifestHeader := none
  manifestComplete : Bool := false
  verification : Option ManifestVerification := none
  adjudication : Option EvidenceAdjudication := none
  graceExpiredAt : Option Int := none
  sealedAt : Option Int := none
  sealReason : Option TripSealReason := none
  manifestEntries : List TripEvidenceManifestEntry := []
  batches : List LocationPingBatch := []
  deriving DecidableEq, Repr

/-! ## What is hashed and signed -/

inductive Document
  | batch (pings : List LocationPing) (metadata : String)
  | manifestEntry (entry : TripEvidenceManifestEntry)
  | manifest (version : Nat) (tripId : Id) (batchCount pingCount : Nat)
      (entryDigests : List Digest)
  | rejections (version : Nat) (results : List (Option Nat × Option String))
  | batchReceipt (formatVersion : Nat) (tripId : Id) (batchSequence : Nat)
      (idempotencyKey : String) (payloadHashVersion : Nat) (payloadHash : Digest)
      (submittedCount acceptedCount rejectedCount : Nat) (outcome : Option BatchOutcome)
      (evidenceScope : EvidenceScope) (rejectionDigest : Digest)
  | manifestReceipt (formatVersion : Nat) (tripId : Id) (header : Option ManifestHeader)
      (verifiedAtMs : Int)
  | adjudicationReceipt (formatVersion : Nat) (tripId : Id) (header : Option ManifestHeader)
      (outcome : String) (adjudicatedAtMs : Int)
  deriving DecidableEq, Repr

class Evidence where
  sha256 : Document → Digest
  hmac : Key → Document → Signature

/-! ## Pay rows -/

/-- A JSON object from Lagos days to whole numbers (metres, or hundredths of a naira). -/
abbrev ByDay := List (Day × Int)

def ByDay.get (values : ByDay) (day : Day) : Int :=
  (values.lookup day).getD 0

/-- `{… if key != day}` with the new value of `day`, if it has one. -/
def ByDay.replace (values : ByDay) (day : Day) (value : Option Int) : ByDay :=
  values.filter (·.1 ≠ day) ++ (value.map (day, ·)).toList

structure DailyRateTerms where
  dailyRateNaira : ℚ
  dailyTargetMiles : ℚ
  deriving DecidableEq, Repr

structure AssignmentRuleBinding where
  assignmentId : Id
  terms : DailyRateTerms
  currency : Currency
  deriving DecidableEq, Repr

structure TripAnalytics where
  tripSessionId : Id
  formulaVersion : String
  status : TripAnalyticsStatus
  computedAt : Int
  endedAt : Int
  /-- the ping rows the columns were computed from -/
  sourcePings : List LocationPing
  deriving DecidableEq, Repr

/-- A trip's whole metres and its money by Lagos day. -/
structure DailyRatePosition where
  distanceMByDay : ByDay := []
  amountByDay : ByDay := []
  deriving DecidableEq, Repr

structure PayoutCalculation where
  id : Id
  tripSessionId : Id
  campaignId : Id
  driverProfileId : Id
  status : PayoutCalculationStatus
  currency : Currency
  finalPayout : Int
  position : DailyRatePosition
  calculatedAt : Int
  /-- the analytics row whose fingerprint the metadata records -/
  sourceAnalytics : TripAnalytics
  /-- the ping rows whose fingerprint the metadata records -/
  pricedPings : List LocationPing
  deriving DecidableEq, Repr

/-- The keys of `ledger_metadata` that pay code reads back. -/
structure RecomputeBreakdown where
  payoutCalculationId : Id
  position : DailyRatePosition
  deriving DecidableEq, Repr

structure EarningsLedgerEntry where
  id : Id
  payoutCalculationId : Option Id := none
  tripSessionId : Id
  campaignId : Id
  driverProfileId : Id
  entryType : EarningsLedgerEntryType
  status : EarningsLedgerEntryStatus
  amount : Int
  currency : Currency
  occurredAt : Int
  sourceEntryId : Option Id := none
  /-- present exactly on recompute-day differentials -/
  recomputeDay : Option RecomputeBreakdown := none
  deriving DecidableEq, Repr

/-- A trip's line of `execution_result`. -/
structure ExecutionResultTrip where
  tripSessionId : Id
  payoutCalculationId : Id
  position : DailyRatePosition
  deriving DecidableEq, Repr

structure PayoutCorrectionOrder where
  id : Id
  campaignId : Id
  lagosDay : Day
  status : PayoutCorrectionOrderStatus
  projectionFingerprint : Digest
  executedAt : Option Int := none
  executionResult : List ExecutionResultTrip := []
  deriving DecidableEq, Repr

/-! ## The store -/

structure Store where
  trips : List TripSession := []
  /-- `campaign_cancellations`: the cutoff of each cancelled campaign -/
  cutoffs : List (Id × Int) := []
  bindings : List AssignmentRuleBinding := []
  analytics : List TripAnalytics := []
  calculations : List PayoutCalculation := []
  entries : List EarningsLedgerEntry := []
  orders : List PayoutCorrectionOrder := []
  signingKeyVersion : Nat := 1
  deriving DecidableEq, Repr

namespace Store

def trip? (s : Store) (id : Id) : Option TripSession :=
  s.trips.find? (·.id = id)

def updateTrip (s : Store) (id : Id) (f : TripSession → TripSession) : Store :=
  { s with trips := s.trips.map (fun t => if t.id = id then f t else t) }

def binding? (s : Store) (assignmentId : Id) : Option AssignmentRuleBinding :=
  s.bindings.find? (·.assignmentId = assignmentId)

def analytics? (s : Store) (tripId : Id) : Option TripAnalytics :=
  s.analytics.find? (·.tripSessionId = tripId)

/-- `campaign_financial_cutoff`. -/
def financialCutoff (s : Store) (campaignId : Id) : Option Int :=
  s.cutoffs.lookup campaignId

end Store

end Trips
end Mobility
