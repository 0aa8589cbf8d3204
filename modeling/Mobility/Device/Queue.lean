import Mobility.Lib.Keyed
import Mobility.Lib.Relocate
import Mobility.Wire.Manifests

/-!
# Queue — the phone's ping queue (`lib/trips/ping-queue.ts`)

The queue keeps a driver's captured pings in one object store and its dead letters in
another.  Every operation ends in one transaction that is stored whole or not at all.  The
mutations run one after the other; `dropBatch`, `recordAttempt` and `forgetTrip` do not wait
for them.  Encryption is left out: a record is its decrypted value.

Pings are numbered as they are captured and batches as they are cut.  A batch leaves the
phone's list when the server's receipt for it is stored, or as a dead letter.
-/

namespace Mobility
namespace Device

open Lib
open Wire (FiniteFloat IsoTimestamp EvidenceManifest EvidenceManifestEntry EvidencePing clientError
  buildEvidenceManifest maxSafeInteger)

/-! ## Records -/

/-- A captured position: `Omit<QueuedPing, "sequence_number">`. -/
structure Fix where
  recordedAt : IsoTimestamp
  lat : FiniteFloat
  lon : FiniteFloat
  accuracyM : Option FiniteFloat := none
  speedMps : Option FiniteFloat := none
  headingDegrees : Option FiniteFloat := none

structure QueuedPing extends Fix where
  sequenceNumber : Nat

structure PendingRecord where
  tripId : String
  ping : QueuedPing

structure QueuedBatch where
  key : String
  tripId : String
  cutSeq : Nat
  cutAt : Int
  attempts : Nat := 0
  payloadHash : String
  pings : List QueuedPing

inductive SampleStatus
  | accepted | rejected
  deriving DecidableEq, Repr

structure EvidenceSampleResult where
  index : Nat
  sequenceNumber : Option Nat
  status : SampleStatus
  rejectionCode : Option String
  deriving DecidableEq, Repr

inductive EvidenceScope
  | manifest | late | lateDropped
  deriving DecidableEq, Repr

structure EvidenceReceipt where
  tripId : String
  batchId : String
  batchSequence : Nat
  idempotencyKey : String
  payloadHash : String
  submittedCount : Nat
  acceptedCount : Nat
  rejectedCount : Nat
  outcome : String
  evidenceScope : EvidenceScope
  receiptFormatVersion : Nat
  receiptKeyVersion : Nat
  receiptSignature : String
  sampleResults : List EvidenceSampleResult := []
  deriving DecidableEq, Repr

structure TripMeta where
  tripId : String
  nextSeq : Nat := 0
  batchesCut : Nat := 0
  pingsRecorded : Nat := 0
  endManifest : Option EvidenceManifest := none

structure DeadLetter extends QueuedBatch where
  terminalStatus : Option Nat := none
  terminalCode : Option String := none
  rejectedAt : Int

/-- The two object stores of one driver. -/
structure Store where
  pending : List PendingRecord := []
  batches : List QueuedBatch := []
  receipts : List EvidenceReceipt := []
  deadLetters : List DeadLetter := []
  metas : List TripMeta := []

/-! ## Reading -/

namespace Store

def metaOrDefault (s : Store) (tripId : String) : TripMeta :=
  (s.metas.find? (·.tripId = tripId)).getD { tripId := tripId }

/-- The pending pings of a trip, in capture order. -/
def pendingPings (s : Store) (tripId : String) : List QueuedPing :=
  ((s.pending.filter (·.tripId = tripId)).map (·.ping)).insertionSort
    (fun a b => a.sequenceNumber ≤ b.sequenceNumber)

def listBatches (s : Store) (tripId : String) : List QueuedBatch :=
  (s.batches.filter (·.tripId = tripId)).insertionSort
    (fun a b => a.cutSeq < b.cutSeq ∨ (a.cutSeq = b.cutSeq ∧ a.cutAt ≤ b.cutAt))

def listReceipts (s : Store) (tripId : String) : List EvidenceReceipt :=
  (s.receipts.filter (·.tripId = tripId)).insertionSort
    (fun a b => a.batchSequence ≤ b.batchSequence)

/-- Dead letters come back in the order of their keys. -/
def listDeadLetters (s : Store) (tripId : String) : List DeadLetter :=
  (s.deadLetters.filter (·.tripId = tripId)).insertionSort (fun a b => a.key ≤ b.key)

def pendingCount (s : Store) (tripId : String) : Nat :=
  (s.pending.filter (·.tripId = tripId)).length

def unsyncedCount (s : Store) (tripId : String) : Nat :=
  s.pendingCount tripId + ((s.listBatches tripId).map (·.pings.length)).sum

def putMeta (s : Store) (row : TripMeta) : Store :=
  { s with metas := putRow (·.tripId) row s.metas }

end Store

/-! ## Capture -/

def captureClosed : AppError :=
  clientError "Capture is closed by the durable End boundary"

/-- The ping as it is stored under its number. -/
def queuedPing (s : Store) (tripId : String) (fix : Fix) : QueuedPing :=
  { fix with sequenceNumber := (s.metaOrDefault tripId).nextSeq }

def addPing (tripId : String) (fix : Fix) (s : Store) : Except AppError Store := do
  let tripMeta := s.metaOrDefault tripId
  require (tripMeta.endManifest.isNone) captureClosed
  let queued := queuedPing s tripId fix
  return { s with
    pending := putRow (fun record => (record.tripId, record.ping.sequenceNumber))
      { tripId := tripId, ping := queued } s.pending }.putMeta
    { tripMeta with
      nextSeq := tripMeta.nextSeq + 1
      pingsRecorded := tripMeta.pingsRecorded + 1 }

/-! ## Batches -/

section

variable (sha256 : Wire.Bytes → String)

/-- The ping as it is hashed: its number has to be a safe integer. -/
def QueuedPing.evidence (ping : QueuedPing) : Except AppError EvidencePing :=
  if h : (ping.sequenceNumber : Int) ≤ maxSafeInteger then
    .ok {
      recordedAt := ping.recordedAt
      lat := ping.lat
      lon := ping.lon
      accuracyM := ping.accuracyM
      speedMps := ping.speedMps
      headingDegrees := ping.headingDegrees
      sequenceNumber := ⟨ping.sequenceNumber, h⟩ }
  else .error (clientError "canonical i64 is out of range")

def batchPayloadHash (pings : List QueuedPing) : Except AppError String := do
  let evidence ← checkedMap QueuedPing.evidence pings
  return sha256 (← Wire.clientBatchBytes evidence)

/-- The first `max` pending pings become a batch with the next number; without pending
pings nothing happens. -/
def cutBatch (tripId : String) (max : Nat) (key : String) (cutAt : Int) (s : Store) :
    Except AppError Store :=
  let pings := (s.pendingPings tripId).take max
  if pings = [] then .ok s
  else do
    let tripMeta := s.metaOrDefault tripId
    let payloadHash ← batchPayloadHash sha256 pings
    let batch : QueuedBatch :=
      { key := key
        tripId := tripId
        cutSeq := tripMeta.batchesCut
        cutAt := cutAt
        payloadHash := payloadHash
        pings := pings }
    return { s with
      batches := putRow (·.key) batch s.batches
      pending := s.pending.filter (fun record =>
        ¬ (record.tripId = tripId
          ∧ record.ping.sequenceNumber ∈ pings.map QueuedPing.sequenceNumber)) }.putMeta
      { tripMeta with batchesCut := tripMeta.batchesCut + 1 }

/-! ## Receipts -/

def receiptMismatch : AppError :=
  clientError "server evidence receipt does not match the queued batch"

def dispositionsMismatch : AppError :=
  clientError "server sample dispositions do not match the queued batch"

def dispositionsMissing : AppError :=
  clientError "partial receipt is missing its signed sample dispositions"

/-- The receipt is about this batch, and counts its samples. -/
def ReceiptOf (batch : QueuedBatch) (receipt : EvidenceReceipt) : Prop :=
  receipt.tripId = batch.tripId ∧ receipt.idempotencyKey = batch.key
    ∧ receipt.batchSequence = batch.cutSeq ∧ receipt.payloadHash = batch.payloadHash
    ∧ receipt.submittedCount = batch.pings.length
    ∧ receipt.acceptedCount + receipt.rejectedCount = receipt.submittedCount

instance (batch : QueuedBatch) (receipt : EvidenceReceipt) : Decidable (ReceiptOf batch receipt) :=
  inferInstanceAs (Decidable (_ ∧ _ ∧ _ ∧ _ ∧ _ ∧ _))

/-- One disposition for each sample, in order, as many accepted as the receipt says. -/
def DispositionsOf (batch : QueuedBatch) (receipt : EvidenceReceipt) : Prop :=
  receipt.sampleResults.map (·.index) = List.range batch.pings.length
    ∧ receipt.sampleResults.map (·.sequenceNumber) = batch.pings.map (some ·.sequenceNumber)
    ∧ (∀ result ∈ receipt.sampleResults,
        result.status = .accepted ↔ result.rejectionCode = none)
    ∧ (receipt.sampleResults.filter (·.status = .accepted)).length = receipt.acceptedCount

instance (batch : QueuedBatch) (receipt : EvidenceReceipt) :
    Decidable (DispositionsOf batch receipt) :=
  inferInstanceAs (Decidable (_ ∧ _ ∧ _ ∧ _))

def acknowledgeBatch (batch : QueuedBatch) (receipt : EvidenceReceipt) (s : Store) :
    Except AppError Store := do
  require (ReceiptOf batch receipt) receiptMismatch
  if receipt.sampleResults ≠ [] then
    require (DispositionsOf batch receipt) dispositionsMismatch
  else
    require (receipt.rejectedCount = 0) dispositionsMissing
  return { s with
    receipts := putRow (·.idempotencyKey) receipt s.receipts
    batches := removeKey (·.key) batch.key s.batches }

/-! ## Dead letters and attempts -/

def dropBatch (key : String) (status : Option Nat) (code : Option String) (now : Int)
    (s : Store) : Store :=
  match s.batches.find? (·.key = key) with
  | none => s
  | some batch =>
      { s with
        deadLetters := putRow (·.key)
          { batch with terminalStatus := status, terminalCode := code, rejectedAt := now }
          s.deadLetters
        batches := removeKey (·.key) key s.batches }

/-- `recordAttempt`: the batch that was read is put back with one more attempt.  Between the
two the row is decrypted, so other steps may come in. -/
def recordAttempt (source : QueuedBatch) (s : Store) : Store :=
  { s with batches := putRow (·.key) { source with attempts := source.attempts + 1 } s.batches }

def forgetTrip (tripId : String) (s : Store) : Store :=
  { pending := s.pending.filter (·.tripId ≠ tripId)
    batches := s.batches.filter (·.tripId ≠ tripId)
    receipts := s.receipts.filter (·.tripId ≠ tripId)
    deadLetters := s.deadLetters.filter (·.tripId ≠ tripId)
    metas := s.metas.filter (·.tripId ≠ tripId) }

/-! ## The End boundary -/

def EvidenceReceipt.entry (receipt : EvidenceReceipt) : EvidenceManifestEntry :=
  { batchSequence := receipt.batchSequence
    idempotencyKey := receipt.idempotencyKey
    payloadHash := receipt.payloadHash
    submittedCount := receipt.submittedCount }

def QueuedBatch.entry (batch : QueuedBatch) : EvidenceManifestEntry :=
  { batchSequence := batch.cutSeq
    idempotencyKey := batch.key
    payloadHash := batch.payloadHash
    submittedCount := batch.pings.length }

/-- `entries.set(entry.batch_sequence, entry)`. -/
def setEntry (entries : List EvidenceManifestEntry) (entry : EvidenceManifestEntry) :
    List EvidenceManifestEntry :=
  putRow (·.batchSequence) entry entries

def conflictingDescriptor : AppError :=
  clientError "conflicting evidence descriptor for batch sequence"

/-- A batch may repeat a descriptor that is set, not contradict it. -/
def declareBatch (entries : List EvidenceManifestEntry) (entry : EvidenceManifestEntry) :
    Except AppError (List EvidenceManifestEntry) := do
  require (∀ existing ∈ entries, existing.batchSequence = entry.batchSequence → existing = entry)
    conflictingDescriptor
  return setEntry entries entry

/-- What the manifest of a trip declares: its receipts, unsent batches and dead letters. -/
def declaredEntries (s : Store) (tripId : String) :
    Except AppError (List EvidenceManifestEntry) :=
  checkedFold declareBatch (((s.listReceipts tripId).map (·.entry)).foldl setEntry [])
    ((s.listBatches tripId).map (·.entry)
      ++ (s.listDeadLetters tripId).map (·.toQueuedBatch.entry))

def evidenceManifest (s : Store) (tripId : String) (complete : Bool) :
    Except AppError EvidenceManifest := do
  buildEvidenceManifest sha256 tripId (← declaredEntries s tripId) complete

/-- `while (await this.cutBatchMutation(tripId, 40)) {}`: each round cuts some pending ping,
so there are at most as many rounds as pending pings. -/
def cutPending (tripId : String) (uuid : Nat → String) (cutAt : Int) :
    Nat → Store → Except AppError Store
  | 0, s => .ok s
  | rounds + 1, s => do
      let s ← cutBatch sha256 tripId 40 (uuid (s.metaOrDefault tripId).batchesCut) cutAt s
      cutPending tripId uuid cutAt rounds s

/-- `uuid n` is the random key of the batch that gets number `n`. -/
def freezeEnd (tripId : String) (complete : Bool) (uuid : Nat → String) (cutAt : Int)
    (s : Store) : Except AppError Store :=
  if (s.metaOrDefault tripId).endManifest.isSome then .ok s
  else do
    let s ← cutPending sha256 tripId uuid cutAt (s.pendingCount tripId) s
    let manifest ← evidenceManifest sha256 s tripId complete
    return s.putMeta { s.metaOrDefault tripId with endManifest := some manifest }

end

def reopenEnd (tripId : String) (s : Store) : Store :=
  if (s.metaOrDefault tripId).endManifest.isNone then s
  else s.putMeta { s.metaOrDefault tripId with endManifest := none }

/-! ## Adopting the server's evidence -/

/-- The loop over the server's receipts. -/
structure Seen where
  knownKeys : List String
  heldSequences : List Nat
  adopted : List EvidenceReceipt := []
  acknowledged : List String := []
  adoptedPings : Nat := 0

/-- The local batch was sent before and its reply was lost. -/
def Acknowledges (receipt : EvidenceReceipt) (batch : QueuedBatch) : Prop :=
  batch.cutSeq = receipt.batchSequence ∧ batch.payloadHash = receipt.payloadHash
    ∧ batch.pings.length = receipt.submittedCount

instance (receipt : EvidenceReceipt) (batch : QueuedBatch) :
    Decidable (Acknowledges receipt batch) :=
  inferInstanceAs (Decidable (_ ∧ _ ∧ _))

def adoptReceipt (tripId : String) (batches : List QueuedBatch) (state : Seen)
    (receipt : EvidenceReceipt) : Seen :=
  if receipt.tripId ≠ tripId ∨ receipt.evidenceScope ≠ .manifest then state
  else if receipt.idempotencyKey ∈ state.knownKeys then state
  else
    let state := { state with
      knownKeys := receipt.idempotencyKey :: state.knownKeys
      heldSequences := receipt.batchSequence :: state.heldSequences
      adopted := state.adopted ++ [receipt] }
    match batches.find? (·.key = receipt.idempotencyKey) with
    | some batch =>
        if Acknowledges receipt batch then
          { state with acknowledged := batch.key :: state.acknowledged }
        else { state with adoptedPings := state.adoptedPings + receipt.submittedCount }
    | none => { state with adoptedPings := state.adoptedPings + receipt.submittedCount }

/-- `Math.max(least, ...sequences.map((sequence) => sequence + 1))`. -/
def pastAll (least : Nat) (sequences : List Nat) : Nat :=
  (sequences.map (· + 1)).foldl max least

def seenEvidence (s : Store) (tripId : String) (serverReceipts : List EvidenceReceipt) : Seen :=
  serverReceipts.foldl (adoptReceipt tripId (s.listBatches tripId))
    { knownKeys := (s.listReceipts tripId).map (·.idempotencyKey)
      heldSequences := (s.listReceipts tripId).map (·.batchSequence) }

/-- A moved batch was never acknowledged: it gets a new key with its new number. -/
def moveBatch (uuid : Nat → String) (batch : QueuedBatch) (next : Nat) : QueuedBatch :=
  { batch with key := uuid next, cutSeq := next }

/-- A dead letter is only declared, never resent, so it keeps its key. -/
def moveDeadLetter (deadLetter : DeadLetter) (next : Nat) : DeadLetter :=
  { deadLetter with cutSeq := next }

/-- The loop over the local batches that no adopted receipt acknowledges. -/
def placedBatches (s : Store) (tripId : String) (seen : Seen) (uuid : Nat → String) :
    Placement QueuedBatch :=
  ((s.listBatches tripId).filter (·.key ∉ seen.acknowledged)).foldl
    (relocate (·.cutSeq) (·.key ∉ seen.knownKeys) (moveBatch uuid))
    { held := seen.heldSequences
      next := pastAll (s.metaOrDefault tripId).batchesCut seen.heldSequences }

/-- The loop over the dead letters. -/
def placedDeadLetters (s : Store) (tripId : String) (placed : Placement QueuedBatch) :
    Placement DeadLetter :=
  (s.listDeadLetters tripId).foldl (relocate (·.cutSeq) (fun _ => true) moveDeadLetter)
    { held := placed.held, next := placed.next }

def adoptServerEvidence (tripId : String) (serverReceipts : List EvidenceReceipt)
    (uuid : Nat → String) (s : Store) : Store :=
  let tripMeta := s.metaOrDefault tripId
  if tripMeta.endManifest.isSome then s
  else
    let seen := seenEvidence s tripId serverReceipts
    let placed := placedBatches s tripId seen uuid
    let dead := placedDeadLetters s tripId placed
    { s with
      receipts := putRows (·.idempotencyKey) seen.adopted s.receipts
      batches := putRows (·.key) placed.moved
        (removeKeys (·.key) (seen.acknowledged ++ placed.left.map QueuedBatch.key) s.batches)
      deadLetters := putRows (·.key) dead.moved s.deadLetters }.putMeta
      { tripMeta with
        batchesCut := pastAll dead.next dead.held
        pingsRecorded := tripMeta.pingsRecorded + seen.adoptedPings }

end Device
end Mobility
