import Mobility.Trips.Receipts

/-!
# Lifecycle — start, end, seal and adjudicate (`services/trips.py`, `trip_processing.py`)

A trip is active, then ended with a committed manifest, and sealed once its
evidence is complete.  An ended trip whose evidence is still incomplete when the
grace period has passed is adjudicated instead, and stays ended.
-/

namespace Mobility
namespace Trips

open Lib
open Payout (Currency Digest)

def tripNotFound : AppError :=
  { code := "TRIP_NOT_FOUND", message := "Trip was not found", statusCode := 404 }

def uniqueViolation (constraint : String) : AppError :=
  { code := "IntegrityError", message := constraint, statusCode := 500 }

namespace Store

/-- `get_driver_trip`: a trip of this driver. -/
def driverTrip? (s : Store) (driverProfileId tripId : Id) : Option TripSession :=
  s.trips.find? (fun t => t.id = tripId && t.driverProfileId = driverProfileId)

end Store

/-! ## Start -/

/-- A binding freezes the pay terms when the assignment is accepted; it is unique
per assignment. -/
def bindAssignment (binding : AssignmentRuleBinding) (s : Store) : Except AppError Store := do
  require (∀ b ∈ s.bindings, b.assignmentId ≠ binding.assignmentId)
    (uniqueViolation "uq_assignment_rule_bindings_assignment_id")
  return { s with bindings := s.bindings ++ [binding] }

structure TripStart where
  tripId : Id
  assignmentId : Id
  campaignId : Id
  driverProfileId : Id
  vehicleId : Id
  deriving DecidableEq, Repr

def newTrip (start : TripStart) (now : Int) : TripSession :=
  { id := start.tripId
    assignmentId := start.assignmentId
    campaignId := start.campaignId
    driverProfileId := start.driverProfileId
    vehicleId := start.vehicleId
    startedAt := now }

/-- `authorized` is the answer of the assignment, campaign, driver and vehicle checks. -/
def startDriverTrip (authorized : Except AppError Unit) (start : TripStart) (now : Int)
    (s : Store) : Except AppError Store := do
  authorized
  require (∀ t ∈ s.trips, t.driverProfileId = start.driverProfileId → t.status ≠ .active)
    { code := "ACTIVE_TRIP_EXISTS_FOR_DRIVER"
      message := "An active trip already exists for this driver" }
  require (∀ t ∈ s.trips, t.vehicleId = start.vehicleId → t.status ≠ .active)
    { code := "ACTIVE_TRIP_EXISTS_FOR_VEHICLE"
      message := "An active trip already exists for this vehicle" }
  require (∀ t ∈ s.trips, t.id ≠ start.tripId) (uniqueViolation "trip_sessions_pkey")
  return { s with trips := s.trips ++ [newTrip start now] }

/-! ## Seal -/

/-- `try_seal_trip`: the guarded one-way `ended → sealed` update. -/
def trySealTrip (reason : TripSealReason) (now : Int) (trip : TripSession) : TripSession :=
  if trip.status = .ended then
    { trip with status := .sealed, sealedAt := some now, sealReason := some reason }
  else trip

section

variable [Evidence]

/-- Complete evidence is verified, signed and sealed in one transaction. -/
def verifyAndSeal (settings : Settings) (keyVersion : Nat) (reason : TripSealReason) (now : Int)
    (trip : TripSession) : Except AppError TripSession := do
  let verified ← signManifestReceipt settings keyVersion now trip
  return trySealTrip reason now verified

/-! ## End -/

def tripAlreadyEnded (statusCode : Nat) : AppError :=
  { code := "TRIP_ALREADY_ENDED", message := "Trip is already ended", statusCode := statusCode }

/-- The manifest of an end request; without one the trip must hold no evidence. -/
def committedManifest (trip : TripSession) (manifest : Option TripEvidenceManifestCreate) :
    Except AppError TripEvidenceManifestCreate :=
  match manifest with
  | some manifest => .ok manifest
  | none => do
      require (trip.manifestBatches = [])
        { code := "TRIP_EVIDENCE_MANIFEST_REQUIRED"
          message := "A v2 evidence manifest is required when evidence exists" }
      return {
        rootSha256 := manifestRoot trip.id [] 0
        pingCount := 0
        complete := false
        entries := [] }

/-- Every uploaded batch is declared by an entry with its key, column by column. -/
def Declares (entries : List TripEvidenceManifestEntry) (batch : LocationPingBatch) : Prop :=
  ∃ entry ∈ entries, entry.idempotencyKey = batch.idempotencyKey ∧ MatchesEntry entry batch

instance (entries : List TripEvidenceManifestEntry) (batch : LocationPingBatch) :
    Decidable (Declares entries batch) :=
  inferInstanceAs (Decidable (∃ entry ∈ entries, _ ∧ _))

/-- The trip row and its manifest entries after an end at `endedAt`. -/
def endWith (manifest : TripEvidenceManifestCreate) (endedAt : Int) (endReason : Option String)
    (trip : TripSession) : TripSession :=
  { trip with
    status := .ended
    endedAt := some endedAt
    endReason := endReason
    manifest := some
      { version := manifest.version
        rootSha256 := manifest.rootSha256
        batchCount := manifest.entries.length
        pingCount := manifest.pingCount }
    manifestEntries := trip.manifestEntries ++ manifest.entries }

def endTripRow (settings : Settings) (keyVersion : Nat) (endReason : Option String)
    (manifest : Option TripEvidenceManifestCreate) (now : Int) (trip : TripSession) :
    Except AppError TripSession := do
  require (trip.status = .active) (tripAlreadyEnded 400)
  let _ ← signingKey settings keyVersion
  let manifest ← committedManifest trip manifest
  validateManifest trip.id manifest
  require (∀ batch ∈ trip.manifestBatches, Declares manifest.entries batch)
    (manifestInvalid "Uploaded evidence does not match the committed manifest")
  let ended := endWith manifest now endReason trip
  let completeness ← manifestCompleteness settings ended
  if manifest.complete ∧ completeness.complete then
    verifyAndSeal settings keyVersion .clientComplete now ended
  else
    return ended

def endDriverTrip (settings : Settings) (driverProfileId tripId : Id) (endReason : Option String)
    (manifest : Option TripEvidenceManifestCreate) (clock : Int) (s : Store) :
    Except AppError Store := do
  let trip ← demand (s.driverTrip? driverProfileId tripId) tripNotFound
  let trip ← endTripRow settings s.signingKeyVersion endReason manifest (utcNow clock) trip
  return s.updateTrip tripId (fun _ => trip)

/-! ## Automatic end -/

def tripAutoEndNoLocation : Int := 2 * 60 * 60 * microsPerSecond

/-- `_last_location_at`: the last server receipt of any batch, else the start. -/
def lastLocationAt (trip : TripSession) : Int :=
  ((trip.batches.map (·.receivedAt)).max?).getD trip.startedAt

/-- The manifest the server builds from the batches it holds, in sequence order. -/
def heldManifest (trip : TripSession) : TripEvidenceManifestCreate :=
  let entries := (orderBy (·.batchSequence) trip.manifestBatches).map (fun batch =>
    { batchSequence := batch.batchSequence
      idempotencyKey := batch.idempotencyKey
      payloadHashVersion := batch.payloadHashVersion
      payloadHash := batch.payloadHash
      submittedCount := batch.pingsSubmitted : TripEvidenceManifestEntry })
  let pingCount := (entries.map (·.submittedCount)).sum
  { rootSha256 := manifestRoot trip.id entries pingCount
    pingCount := pingCount
    complete := true
    entries := entries }

def autoEndTripRow (settings : Settings) (keyVersion : Nat) (now : Int) (trip : TripSession) :
    Except AppError TripSession := do
  if trip.status ≠ .active ∨ lastLocationAt trip > now - tripAutoEndNoLocation then
    return trip
  else
    let _ ← signingKey settings keyVersion
    let ended := endWith (heldManifest trip) (lastLocationAt trip)
      (some "auto_ended_no_location") trip
    let completeness ← manifestCompleteness settings ended
    if completeness.complete then
      verifyAndSeal settings keyVersion .autoEnded now ended
    else
      return ended

def autoEndInactiveTrip (settings : Settings) (tripId : Id) (clock : Int) (s : Store) :
    Except AppError Store :=
  match s.trip? tripId with
  | none => .ok s
  | some trip => do
      let trip ← autoEndTripRow settings s.signingKeyVersion (utcNow clock) trip
      return s.updateTrip tripId (fun _ => trip)

/-! ## Reconcile -/

def receiptInvalid (message : String) : AppError :=
  { code := "TRIP_EVIDENCE_RECEIPT_INVALID", message := message }

def reconcileTripRow (settings : Settings) (keyVersion : Nat) (now : Int) (trip : TripSession) :
    Except AppError TripSession := do
  require trip.manifest.isSome
    { code := "TRIP_EVIDENCE_MANIFEST_REQUIRED"
      message := "A committed v2 evidence manifest is required" }
  require (trip.status ≠ .active)
    { code := "TRIP_EVIDENCE_RECONCILE_NOT_READY"
      message := "End the trip before reconciling evidence" }
  let _ ← signingKey settings keyVersion
  if trip.verification.isSome then
    let valid ← verifyManifestReceipt settings trip
    require valid (receiptInvalid "Trip evidence verification receipt is invalid")
    return trip
  else if trip.adjudication.isSome then
    let valid ← verifyAdjudicationReceipt settings trip
    require valid (receiptInvalid "Trip evidence adjudication receipt is invalid")
    return trip
  else
    let completeness ← manifestCompleteness settings trip
    if completeness.complete then
      verifyAndSeal settings keyVersion .lateDataComplete now trip
    else
      -- while the recovery window is open the client must keep trying
      require trip.graceExpiredAt.isSome
        { code := "TRIP_EVIDENCE_INCOMPLETE", message := "Trip evidence is incomplete" }
      signAdjudicationReceipt settings keyVersion now trip

def reconcileTripEvidence (settings : Settings) (driverProfileId tripId : Id) (clock : Int)
    (s : Store) : Except AppError Store := do
  let trip ← demand (s.driverTrip? driverProfileId tripId) tripNotFound
  let trip ← reconcileTripRow settings s.signingKeyVersion (utcNow clock) trip
  return s.updateTrip tripId (fun _ => trip)

/-! ## The grace sweep -/

def tripSealGrace : Int := 600 * microsPerSecond

def workerSweepBatchSize : Nat := 25

/-- The trip's recovery window has passed and was not marked yet. -/
def graceDue (now : Int) (trip : TripSession) : Bool :=
  trip.status = .ended && trip.endedAt.any (· ≤ now - tripSealGrace) && trip.graceExpiredAt.isNone

/-- The sweep marks one trip, and adjudicates it when its manifest is incomplete. -/
def expireGrace (settings : Settings) (keyVersion : Nat) (now : Int) (trip : TripSession) :
    Except AppError TripSession := do
  let marked := { trip with graceExpiredAt := some now }
  if trip.manifest.isSome then
    let completeness ← manifestCompleteness settings marked
    if completeness.complete then return marked
    else signAdjudicationReceipt settings keyVersion now marked
  else
    return marked

/-- The trips of one sweep, oldest end first; rows locked elsewhere are skipped. -/
def dueTrips (locked : Id → Bool) (limit : Nat) (now : Int) (s : Store) : List TripSession :=
  ((s.trips.filter (fun t => graceDue now t && !locked t.id)).insertionSort
    (fun t t' => instantThenId (t.endedAt.getD 0) t.id (t'.endedAt.getD 0) t'.id)).take limit

/-- `seal_due_trips`: `now` is the database clock, with its microseconds. -/
def sealDueTrips (settings : Settings) (locked : Id → Bool) (now : Int) (s : Store) :
    Except AppError Store :=
  checkedFold (fun s trip => do
      let trip ← expireGrace settings s.signingKeyVersion now trip
      return s.updateTrip trip.id (fun _ => trip))
    s (dueTrips locked workerSweepBatchSize now s)

end

end Trips
end Mobility
