import Mobility.Trips.Lifecycle

/-!
# Ingest — ping batches and late data (`ingest_location_ping_batch`)

Batches of an active trip, and declared batches of an ended one, join the
manifest.  Batches of a closed trip are late.  Any batch of a trip that is no
longer active is dropped when pay was already calculated on a day it touches.
-/

namespace Mobility
namespace Trips

open Lib
open Payout (Digest)

def maxLocationPingsPerBatch : Nat := 500

def locationPingFutureSkew : Int := 300 * microsPerSecond

def locationPingStartSkew : Int := 900 * microsPerSecond

def locationPingEndSkew : Int := 300 * microsPerSecond

def maxLocationAccuracyM : ℚ := 10000

def maxLocationSpeedMps : ℚ := 120

/-! ## One sample -/

/-- What the assignment tables say about capture: whether the assignment is active
now, when it was cancelled, and when it lapsed (and resumed). -/
structure CaptureAuthority where
  assignmentActive : Except AppError Unit := .ok ⟨⟩
  cancelledAt : Option Int := none
  authorityLapses : List (Int × Option Int) := []

def invalidRecordedAt (message : String) : AppError :=
  { code := "INVALID_RECORDED_AT", message := message, statusCode := 400 }

def invalidAuthority (message : String) : AppError :=
  { code := "INVALID_ASSIGNMENT_AUTHORITY", message := message, statusCode := 400 }

/-- `classify_ping`: the rejection of one sample, or none when it is ingestible. -/
def classifyPing (trip : TripSession) (authority : CaptureAuthority) (now : Int)
    (ping : LocationPing) : Option AppError :=
  if ping.recordedAt > now + locationPingFutureSkew then
    some (invalidRecordedAt "Location ping recorded_at is too far in the future")
  else if ping.recordedAt < trip.startedAt - locationPingStartSkew then
    some (invalidRecordedAt "Location ping recorded_at is before the allowed trip start skew")
  else if trip.endedAt.any (fun endedAt => ping.recordedAt > endedAt + locationPingEndSkew) then
    some (invalidRecordedAt "Location ping recorded_at is after the trip ended")
  else if authority.cancelledAt.any (ping.recordedAt ≥ ·) then
    some (invalidAuthority
      "Location ping was recorded after the campaign assignment was cancelled")
  else if authority.authorityLapses.any (fun lapse =>
      ping.recordedAt ≥ lapse.1 && lapse.2.all (ping.recordedAt < ·)) then
    some (invalidAuthority
      "Location ping was recorded while the campaign assignment held no authority")
  else if ping.accuracyM.any (· > maxLocationAccuracyM) then
    some
      { code := "INVALID_ACCURACY"
        message := "Location ping accuracy exceeds the configured maximum"
        statusCode := 400 }
  else if ping.speedMps.any (· > maxLocationSpeedMps) then
    some
      { code := "INVALID_SPEED"
        message := "Location ping speed exceeds the configured maximum"
        statusCode := 400 }
  else
    none

/-! ## Late pay -/

/-- Every Lagos day from the first to the last. -/
def daysThrough (first last : Day) : List Day :=
  (List.range (last - first + 1).toNat).map (fun index => first + index)

/-- The days a batch touches: those of its trip and those of its samples. -/
def affectedDays (trip : TripSession) (payload : LocationPingBatchCreate) : List Day :=
  daysThrough (lagosDayFor trip.startedAt) (lagosDayFor (trip.endedAt.getD trip.startedAt))
    ++ payload.pings.map (fun ping => lagosDayFor ping.recordedAt)

/-- `started_at < day_end ∧ ended_at >= day_start`. -/
def EndedOverlaps (trip : TripSession) (day : Day) : Prop :=
  trip.startedAt < (lagosDayUtcRange day).2
    ∧ trip.endedAt.any (· ≥ (lagosDayUtcRange day).1)

instance (trip : TripSession) (day : Day) : Decidable (EndedOverlaps trip day) :=
  inferInstanceAs (Decidable (_ ∧ _))

/-- `_late_pay_calculated`: some trip of the same driver and campaign that overlaps an
affected day has a calculation. -/
def LatePayCalculated (s : Store) (trip : TripSession) (payload : LocationPingBatchCreate) :
    Prop :=
  ∃ calculation ∈ s.calculations, calculation.driverProfileId = trip.driverProfileId
    ∧ calculation.campaignId = trip.campaignId
    ∧ ∃ other ∈ s.trips, other.id = calculation.tripSessionId
      ∧ ∃ day ∈ affectedDays trip payload, EndedOverlaps other day

instance (s : Store) (trip : TripSession) (payload : LocationPingBatchCreate) :
    Decidable (LatePayCalculated s trip payload) :=
  inferInstanceAs (Decidable (∃ calculation ∈ s.calculations, _))

/-! ## The transaction -/

/-- The declared entry of the batch matches it exactly. -/
def Declared (trip : TripSession) (payload : LocationPingBatchCreate) (sequence : Nat)
    (digest : Digest) : Prop :=
  ∃ entry ∈ trip.manifestEntries, entry.idempotencyKey = payload.idempotencyKey
    ∧ entry.batchSequence = sequence ∧ entry.payloadHashVersion = batchHashVersion
    ∧ entry.payloadHash = digest ∧ entry.submittedCount = payload.pings.length

instance (trip : TripSession) (payload : LocationPingBatchCreate) (sequence : Nat)
    (digest : Digest) : Decidable (Declared trip payload sequence digest) :=
  inferInstanceAs (Decidable (∃ entry ∈ trip.manifestEntries, _))

def payAlreadyCalculated : AppError :=
  { code := "PAY_ALREADY_CALCULATED"
    message := "Late data cannot change calculated pay"
    statusCode := 400 }

/-- Sealed and adjudicated trips are closed. -/
def TripSession.closed (trip : TripSession) : Bool :=
  trip.status = .sealed || trip.adjudication.isSome

def scopeOf (trip : TripSession) (dropped : Bool) : EvidenceScope :=
  if dropped then .lateDropped else if trip.closed then .late else .manifest

section

variable [Evidence]

/-- The stored batch before its receipt is signed. -/
def newBatch (trip : TripSession) (authority : CaptureAuthority)
    (payload : LocationPingBatchCreate) (sequence : Nat) (digest : Digest) (dropped : Bool)
    (receivedAt : Int) : LocationPingBatch :=
  let rejections := payload.pings.map (fun ping =>
    if dropped then some payAlreadyCalculated else classifyPing trip authority receivedAt ping)
  let accepted := (payload.pings.zip rejections).filterMap (fun sample =>
    if sample.2.isNone then some sample.1 else none)
  let dispositions := (payload.pings.zip rejections).map (fun sample =>
    (sample.1.sequenceNumber, sample.2.map (·.code)))
  { idempotencyKey := payload.idempotencyKey
    batchSequence := sequence
    payloadHashVersion := batchHashVersion
    payloadHash := digest
    pingsSubmitted := payload.pings.length
    pingsAccepted := accepted.length
    pingsRejected := payload.pings.length - accepted.length
    evidenceScope := scopeOf trip dropped
    receivedAt := receivedAt
    rejectionManifest := dispositions
    rejectionDigest := Evidence.sha256 (.rejections rejectionManifestVersion dispositions)
    pings := accepted }

/-- A re-delivered key returns its stored batch, or conflicts. -/
def duplicateBatch (settings : Settings) (trip : TripSession) (existing : LocationPingBatch)
    (sequence : Nat) (digest : Digest) : Except AppError Unit := do
  let valid ←
    if existing.payloadHash = digest ∧ existing.batchSequence = sequence then
      verifyBatchReceipt settings trip.id existing
    else
      .ok false
  require valid
    { code := "IDEMPOTENCY_KEY_CONFLICT"
      message := "Idempotency key was already used with a different payload" }

/-- The first rejection of a batch of which no sample is accepted. -/
def wholeBatchRejection (trip : TripSession) (authority : CaptureAuthority)
    (payload : LocationPingBatchCreate) (receivedAt : Int) : Option AppError :=
  if (payload.pings.map (classifyPing trip authority receivedAt)).all (·.isSome) then
    (payload.pings.map (classifyPing trip authority receivedAt)).head?.join
  else
    none

/-- A new batch of this trip: admitted, or refused. -/
def admitBatch (settings : Settings) (authority : CaptureAuthority) (trip : TripSession)
    (payload : LocationPingBatchCreate) (sequence : Nat) (digest : Digest) (clock : Int)
    (s : Store) : Except AppError Store := do
  require (trip.sealReason ≠ some .autoEnded) (tripAlreadyEnded 409)
  require (payload.pings.length ≤ maxLocationPingsPerBatch)
    { code := "LOCATION_PING_BATCH_TOO_LARGE"
      message := "Location ping batch exceeds the configured maximum"
      statusCode := 400 }
  require (trip.status = .ended ∧ trip.adjudication.isNone →
      Declared trip payload sequence digest)
    { code := "TRIP_EVIDENCE_BATCH_UNDECLARED"
      message := "Ended-trip evidence must match a committed manifest descriptor" }
  let dropped : Bool := trip.status ≠ .active ∧ LatePayCalculated s trip payload
  require (scopeOf trip dropped = .manifest →
      ∀ batch ∈ trip.manifestBatches, batch.batchSequence ≠ sequence)
    { code := "TRIP_EVIDENCE_BATCH_SEQUENCE_TAKEN"
      message := "This batch number is already used for this trip" }
  match if dropped then none else wholeBatchRejection trip authority payload (utcNow clock) with
  | some rejection => .error rejection
  | none => do
      let batch ← signBatchReceipt settings s.signingKeyVersion trip.id
        (newBatch trip authority payload sequence digest dropped (utcNow clock))
        (if dropped then .dropped else .accepted)
      return s.updateTrip trip.id (fun t => { t with batches := t.batches ++ [batch] })

def ingestLocationPingBatch (settings : Settings) (authority : CaptureAuthority)
    (driverProfileId tripId : Id) (payload : LocationPingBatchCreate) (clock : Int) (s : Store) :
    Except AppError Store := do
  let trip ← demand (s.driverTrip? driverProfileId tripId) tripNotFound
  if trip.status = .active ∧ (s.financialCutoff trip.campaignId).isNone then
    authority.assignmentActive
  let _ ← signingKey settings s.signingKeyVersion
  let sequence ← demand payload.batchSequence
    { code := "TRIP_EVIDENCE_BATCH_SEQUENCE_REQUIRED"
      message := "A v2 evidence batch sequence is required" }
  let digest ← batchPayloadHash payload
  match trip.batches.find? (·.idempotencyKey = payload.idempotencyKey) with
  | some existing => do
      duplicateBatch settings trip existing sequence digest
      return s
  | none => admitBatch settings authority trip payload sequence digest clock s

end

end Trips
end Mobility
