import Mobility.Trips.Types

/-!
# Receipts — hashes, receipts and manifests (`services/trip_evidence.py`)

A manifest is complete when every declared batch is stored exactly as declared
with a receipt that verifies, and nothing undeclared is stored beside it.
-/

namespace Mobility
namespace Trips

open Lib
open Payout (Digest)

/-- The signing keys of the deployment, by version. -/
structure Settings where
  tripEvidenceSigningKeys : Nat → Option Key

def batchHashVersion : Nat := 2

def receiptFormatVersion : Nat := 2

def manifestVersion : Nat := 2

def rejectionManifestVersion : Nat := 1

def signingUnavailable : AppError :=
  { code := "TRIP_EVIDENCE_SIGNING_UNAVAILABLE"
    message := "Trip evidence signing is unavailable"
    statusCode := 503 }

def valueError (message : String) : AppError :=
  { code := "ValueError", message := message, statusCode := 500 }

def signingKey (settings : Settings) (version : Nat) : Except AppError Key :=
  demand (settings.tripEvidenceSigningKeys version) signingUnavailable

/-- Only instants with exact millisecond precision have a canonical form. -/
def epochMilliseconds (value : Int) : Except AppError Int := do
  require (value % 1000 = 0)
    (valueError "canonical datetime must have exact millisecond precision")
  return value / 1000

section Hashes

variable [Evidence]

def batchPayloadHash (payload : LocationPingBatchCreate) : Except AppError Digest := do
  require (∀ ping ∈ payload.pings, ping.recordedAt % 1000 = 0)
    { code := "TRIP_EVIDENCE_TIMESTAMP_PRECISION_INVALID"
      message := "V2 evidence timestamps must have exact millisecond precision"
      statusCode := 400 }
  return Evidence.sha256 (.batch payload.pings payload.metadata)

def manifestRoot (tripId : Id) (entries : List TripEvidenceManifestEntry) (pingCount : Nat) :
    Digest :=
  Evidence.sha256 (.manifest manifestVersion tripId entries.length pingCount
    (entries.map (fun entry => Evidence.sha256 (.manifestEntry entry))))

/-! ## Manifests -/

structure TripEvidenceManifestCreate where
  version : Nat := 2
  rootSha256 : Digest
  pingCount : Nat
  complete : Bool
  entries : List TripEvidenceManifestEntry
  deriving DecidableEq, Repr

def manifestInvalid (message : String) : AppError :=
  { code := "TRIP_EVIDENCE_MANIFEST_INVALID", message := message }

def validateManifest (tripId : Id) (manifest : TripEvidenceManifestCreate) :
    Except AppError Unit := do
  require (manifest.entries.map (·.batchSequence) = List.range manifest.entries.length)
    (manifestInvalid "Evidence manifest batch sequences must be ordered and contiguous")
  require (manifest.entries.map (·.idempotencyKey)).Nodup
    (manifestInvalid "Evidence manifest contains a duplicate idempotency key")
  require ((manifest.entries.map (·.submittedCount)).sum = manifest.pingCount)
    (manifestInvalid "Evidence manifest ping count does not match its entries")
  require (manifestRoot tripId manifest.entries manifest.pingCount = manifest.rootSha256)
    (manifestInvalid "Evidence manifest root does not match its content")

/-! ## Receipts -/

def batchReceiptValue (tripId : Id) (batch : LocationPingBatch) : Document :=
  .batchReceipt receiptFormatVersion tripId batch.batchSequence batch.idempotencyKey
    batch.payloadHashVersion batch.payloadHash batch.pingsSubmitted batch.pingsAccepted
    batch.pingsRejected batch.receiptOutcome batch.evidenceScope batch.rejectionDigest

def signBatchReceipt (settings : Settings) (keyVersion : Nat) (tripId : Id)
    (batch : LocationPingBatch) (outcome : BatchOutcome) : Except AppError LocationPingBatch := do
  let key ← signingKey settings keyVersion
  let batch := { batch with receiptOutcome := some outcome }
  return { batch with
    receipt := some
      { formatVersion := receiptFormatVersion
        keyVersion := keyVersion
        signature := Evidence.hmac key (batchReceiptValue tripId batch) } }

/-- A receipt verifies when it repeats the signature of its document. -/
def verifyReceipt (settings : Settings) (receipt : Receipt) (value : Document) :
    Except AppError Bool :=
  if receipt.formatVersion ≠ receiptFormatVersion then .ok false
  else do
    let key ← signingKey settings receipt.keyVersion
    return Evidence.hmac key value = receipt.signature

def verifyBatchReceipt (settings : Settings) (tripId : Id) (batch : LocationPingBatch) :
    Except AppError Bool :=
  match batch.receipt with
  | none => .ok false
  | some receipt => verifyReceipt settings receipt (batchReceiptValue tripId batch)

/-- `manifest_receipt_value`, of a header verified at `verifiedAt`. -/
def manifestReceiptValue (trip : TripSession) (verifiedAt : Int) : Except AppError Document := do
  let verifiedAtMs ← epochMilliseconds verifiedAt
  return .manifestReceipt receiptFormatVersion trip.id trip.manifest verifiedAtMs

/-- The manifest becomes complete and verified at `now`, with its signed receipt. -/
def signManifestReceipt (settings : Settings) (keyVersion : Nat) (now : Int)
    (trip : TripSession) : Except AppError TripSession := do
  let key ← signingKey settings keyVersion
  let value ← manifestReceiptValue trip now
  return { trip with
    manifestComplete := true
    verification := some
      { verifiedAt := now
        receipt :=
          { formatVersion := receiptFormatVersion
            keyVersion := keyVersion
            signature := Evidence.hmac key value } } }

def verifyManifestReceipt (settings : Settings) (trip : TripSession) : Except AppError Bool :=
  match trip.verification with
  | none => .ok false
  | some verification => do
      let value ← manifestReceiptValue trip verification.verifiedAt
      verifyReceipt settings verification.receipt value

def incompleteGraceExpired : String := "incomplete_grace_expired"

def adjudicationReceiptValue (trip : TripSession) (outcome : String) (adjudicatedAt : Int) :
    Except AppError Document := do
  let adjudicatedAtMs ← epochMilliseconds adjudicatedAt
  return .adjudicationReceipt receiptFormatVersion trip.id trip.manifest outcome adjudicatedAtMs

/-- The signed terminal statement that the declared evidence can no longer arrive. -/
def signAdjudicationReceipt (settings : Settings) (keyVersion : Nat) (now : Int)
    (trip : TripSession) : Except AppError TripSession := do
  let key ← signingKey settings keyVersion
  let value ← adjudicationReceiptValue trip incompleteGraceExpired now
  return { trip with
    adjudication := some
      { adjudicatedAt := now
        outcome := incompleteGraceExpired
        receipt :=
          { formatVersion := receiptFormatVersion
            keyVersion := keyVersion
            signature := Evidence.hmac key value } } }

def verifyAdjudicationReceipt (settings : Settings) (trip : TripSession) :
    Except AppError Bool :=
  match trip.adjudication with
  | none => .ok false
  | some adjudication => do
      let value ← adjudicationReceiptValue trip adjudication.outcome adjudication.adjudicatedAt
      verifyReceipt settings adjudication.receipt value

/-! ## Completeness -/

structure ManifestCompleteness where
  complete : Bool
  missingCount : Nat
  mismatchCount : Nat
  undeclaredCount : Nat
  deriving DecidableEq, Repr

inductive EntryVerdict
  | missing
  | mismatch
  | held
  deriving DecidableEq, Repr

/-- The batch is the one the entry declares, column by column. -/
def MatchesEntry (entry : TripEvidenceManifestEntry) (batch : LocationPingBatch) : Prop :=
  batch.batchSequence = entry.batchSequence
    ∧ batch.payloadHashVersion = entry.payloadHashVersion
    ∧ batch.payloadHash = entry.payloadHash
    ∧ batch.pingsSubmitted = entry.submittedCount

instance (entry : TripEvidenceManifestEntry) (batch : LocationPingBatch) :
    Decidable (MatchesEntry entry batch) :=
  inferInstanceAs (Decidable (_ ∧ _ ∧ _ ∧ _))

/-- The batches that belong to the manifest. -/
def TripSession.manifestBatches (trip : TripSession) : List LocationPingBatch :=
  trip.batches.filter (·.evidenceScope = .manifest)

def entryVerdict (settings : Settings) (trip : TripSession) (entry : TripEvidenceManifestEntry) :
    Except AppError EntryVerdict :=
  match trip.manifestBatches.find? (·.idempotencyKey = entry.idempotencyKey) with
  | none => .ok .missing
  | some batch =>
      if ¬ MatchesEntry entry batch then .ok .mismatch
      else do
        let verified ← verifyBatchReceipt settings trip.id batch
        return if verified then .held else .mismatch

def manifestCompleteness (settings : Settings) (trip : TripSession) :
    Except AppError ManifestCompleteness := do
  let verdicts ← checkedMap (entryVerdict settings trip) trip.manifestEntries
  let declared := trip.manifestEntries.map (·.idempotencyKey)
  let missing := verdicts.count .missing
  let mismatch := verdicts.count .mismatch
  let undeclared := trip.manifestBatches.countP (fun batch => batch.idempotencyKey ∉ declared)
  return {
    complete := trip.manifestEntries.length = (trip.manifest.map (·.batchCount)).getD 0
      ∧ missing = 0 ∧ mismatch = 0 ∧ undeclared = 0
    missingCount := missing
    mismatchCount := mismatch
    undeclaredCount := undeclared }

end Hashes

end Trips
end Mobility
