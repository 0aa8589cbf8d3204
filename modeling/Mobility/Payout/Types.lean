import Mobility.Basic

/-!
# Types — payout rows (`app/models/disbursement.py`, `app/models/payout.py`)

A row whose foreign key is unique or owned is stored inside its parent: a batch
holds its lines, a line holds its submission intent (unique per line), and an
intent holds its attempts and observations.  Rows reached from many places
(ledger entries, recovery offsets, reconciliation events) are tables of the
`Store`.

* Primary keys of intents and attempts are dropped: an intent is named by its
  line, an attempt by its generation and claim token, which the tables declare
  unique.
* SHA-256 over canonical JSON is the function `Hashing.sha256` of the document
  that is hashed; nothing is assumed about it.
-/

namespace Mobility
namespace Payout

abbrev Currency := String

abbrev Digest := String

abbrev Reference := String

/-! ## Enumerations -/

inductive PayoutBatchStatus
  | draft
  | reserved
  | submitted
  | reconciled
  | completed
  | failed
  | void
  deriving DecidableEq, Repr

inductive PayoutBatchLineStatus
  | reserved
  | submitted
  | succeeded
  | failed
  | void
  deriving DecidableEq, Repr

inductive PayoutSubmissionIntentState
  | pending
  | claimed
  | queryOnly
  | resolved
  | cancelled
  deriving DecidableEq, Repr

inductive PayoutSubmissionClaimAction
  | submit
  | query
  deriving DecidableEq, Repr

inductive PayoutSubmissionObservationOutcome
  | submitted
  | found
  | notFound
  | unknown
  deriving DecidableEq, Repr

inductive PayoutBatchApprovalMode
  | manual
  | automatic
  deriving DecidableEq, Repr

inductive EarningsLedgerEntryType
  | tripPayout
  | adjustment
  | reversal
  deriving DecidableEq, Repr

inductive EarningsLedgerEntryStatus
  | pending
  | available
  | voided
  | reversed
  | paid
  deriving DecidableEq, Repr

/-- The outcome text of verified provider evidence. -/
inductive EvidenceOutcome
  | succeeded
  | failed
  | unsupported (text : String)
  deriving DecidableEq, Repr

/-! ## Frozen instructions and their fingerprints -/

/-- The instruction a line freezes (`build_frozen_payout_line`). -/
structure Instruction where
  ledgerEntryId : Id
  payeeVersionId : Id
  bankAccountVersionId : Id
  amount : Int
  currency : Currency
  deriving DecidableEq, Repr

/-- The documents that payout code fingerprints through `_canonical`. -/
inductive Canonical
  | instruction (i : Instruction)
  | lineAuthority (batchId : Id) (instructionFingerprint : Digest)
      (predecessorLineId : Option Id)
  | instructionSet (currency : Currency) (totalAmount : Int)
      (lineFingerprints : List Digest)
  | observation (intentLineId : Id) (generation : Nat) (claimToken : Id)
      (idempotencyKey instructionFingerprint : Digest)
      (outcome : PayoutSubmissionObservationOutcome)
      (providerSubmissionReference providerTransferReference : Option Reference)
      (errorCode : Option String)
  | text (value : String)

class Hashing where
  sha256 : Canonical → Digest

/-! ## Submission intents -/

structure PayoutSubmissionAttempt where
  generation : Nat
  claimToken : Id
  action : PayoutSubmissionClaimAction
  idempotencyKey : Digest
  instructionFingerprint : Digest
  deriving DecidableEq, Repr

structure PayoutSubmissionObservation where
  /-- the attempt row, named by its unique claim token -/
  attempt : Id
  generation : Nat
  idempotencyKey : Digest
  instructionFingerprint : Digest
  outcome : PayoutSubmissionObservationOutcome
  providerSubmissionReference : Option Reference
  providerTransferReference : Option Reference
  evidenceFingerprint : Digest
  errorCode : Option String
  observedAt : Int
  deriving DecidableEq, Repr

structure PayoutSubmissionIntent where
  providerName : String
  idempotencyKey : Digest
  instruction : Instruction
  instructionFingerprint : Digest
  requestedByUserId : Id
  state : PayoutSubmissionIntentState := .pending
  generation : Nat := 0
  claimToken : Option Id := none
  claimAction : Option PayoutSubmissionClaimAction := none
  claimExpiresAt : Option Int := none
  providerSubmissionReference : Option Reference := none
  providerTransferReference : Option Reference := none
  resolvedAt : Option Int := none
  attempts : List PayoutSubmissionAttempt := []
  observations : List PayoutSubmissionObservation := []
  deriving DecidableEq, Repr

/-! ## Lines and batches -/

structure PayoutBatchLine where
  id : Id
  ledgerEntryId : Id
  predecessorLineId : Option Id := none
  payeeVersionId : Id
  bankAccountVersionId : Id
  amount : Int
  currency : Currency
  instruction : Instruction
  instructionFingerprint : Digest
  idempotencyKey : Digest
  status : PayoutBatchLineStatus := .reserved
  providerTransferReference : Option Reference := none
  reconciledByUserId : Option Id := none
  reconciledAt : Option Int := none
  lastProviderEvidenceAt : Option Int := none
  reservationActive : Bool := true
  intent : Option PayoutSubmissionIntent := none
  deriving DecidableEq, Repr

structure PayoutBatch where
  id : Id
  status : PayoutBatchStatus
  currency : Currency
  totalAmount : Int := 0
  instructionSetFingerprint : Option Digest := none
  providerSubmissionReference : Option Reference := none
  createdByUserId : Id
  approvedByUserId : Option Id := none
  approvedAt : Option Int := none
  submittedAt : Option Int := none
  approvalMode : PayoutBatchApprovalMode := .manual
  automaticRunId : Option Id := none
  lines : List PayoutBatchLine := []
  deriving DecidableEq, Repr

/-! ## Ledger entries, offsets and evidence -/

/-- The keys of `ledger_metadata` that pay code reads back. -/
structure LedgerMetadata where
  sourceEntryId : Option Id := none
  recomputeDay : Bool := false
  deriving DecidableEq, Repr

structure EarningsLedgerEntry where
  id : Id
  payoutCalculationId : Option Id := none
  driverProfileId : Id
  driverUserId : Id
  tripSessionId : Option Id
  entryType : EarningsLedgerEntryType
  status : EarningsLedgerEntryStatus
  amount : Int
  currency : Currency
  occurredAt : Int
  ledgerMetadata : LedgerMetadata := {}
  deriving DecidableEq, Repr

structure PayoutRecoveryOffset where
  sourceTripId : Id
  fundingEntryId : Id
  driverProfileId : Id
  amount : Int
  currency : Currency
  requestId : Id
  actorUserId : Option Id
  automaticRunId : Option Id
  deriving DecidableEq, Repr

structure PayoutLineReconciliationEvent where
  lineId : Id
  providerEventId : String
  outcome : EvidenceOutcome
  evidenceFingerprint : Digest
  providerOccurredAt : Int
  applied : Bool
  reconciledByUserId : Option Id
  deriving DecidableEq, Repr

/-- The trip columns that payouts read: whose trip it is. -/
structure TripSession where
  id : Id
  driverProfileId : Id
  driverUserId : Id
  deriving DecidableEq, Repr

structure PayoutAutomaticRun where
  id : Id
  periodKey : String
  deriving DecidableEq, Repr

/-! ## The store -/

structure Store where
  trips : List TripSession := []
  entries : List EarningsLedgerEntry := []
  batches : List PayoutBatch := []
  offsets : List PayoutRecoveryOffset := []
  events : List PayoutLineReconciliationEvent := []
  automaticRuns : List PayoutAutomaticRun := []
  deriving DecidableEq, Repr

namespace Store

/-- All payout lines, batch by batch. -/
def lines (s : Store) : List PayoutBatchLine :=
  s.batches.flatMap (·.lines)

def batch? (s : Store) (id : Id) : Option PayoutBatch :=
  s.batches.find? (·.id = id)

def entry? (s : Store) (id : Id) : Option EarningsLedgerEntry :=
  s.entries.find? (·.id = id)

def trip? (s : Store) (id : Id) : Option TripSession :=
  s.trips.find? (·.id = id)

/-- `UPDATE payout_batches … WHERE id = …`. -/
def updateBatch (s : Store) (id : Id) (f : PayoutBatch → PayoutBatch) : Store :=
  { s with batches := s.batches.map (fun b => if b.id = id then f b else b) }

def updateEntry (s : Store) (id : Id) (f : EarningsLedgerEntry → EarningsLedgerEntry) : Store :=
  { s with entries := s.entries.map (fun e => if e.id = id then f e else e) }

end Store

end Payout
end Mobility
