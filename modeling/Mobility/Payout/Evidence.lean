import Mobility.Payout.Submission

/-!
# Evidence — verified provider evidence about a line (`services/disbursements.py`)

`_apply_verified_line_evidence`: the one operation that marks cash as paid or
failed.  The effect of accepted evidence on the line itself, on the ledger entry
and on the rest of the chain is computed by `evidenceEffect`; the transaction
writes it and derives the status of every batch of the ledger chain again.
-/

namespace Mobility
namespace Payout

open Lib

structure VerifiedLineEvidence where
  providerTransferReference : Reference
  providerEventId : String
  outcome : EvidenceOutcome
  occurredAt : Int
  evidenceFingerprint : Digest
  providerReference : Option Reference := none
  /-- the amount, when it is present in the two-decimal form of a line amount -/
  amount : Option Int := none
  currency : Option Currency := none
  providerEventType : Option String := none
  deriving DecidableEq, Repr

inductive EvidenceSource
  | webhook
  | poll (actorUserId : Id) (reason : String)
  deriving DecidableEq, Repr

def EvidenceSource.actorUserId : EvidenceSource → Option Id
  | .webhook => none
  | .poll actorUserId _ => some actorUserId

def EvidenceOutcome.isSupported : EvidenceOutcome → Bool
  | .succeeded => true
  | .failed => true
  | .unsupported _ => false

def isReversal (evidence : VerifiedLineEvidence) : Bool :=
  evidence.providerEventType = some "transfer.reversed"

/-- `paystack_transfer_reference`. -/
def paystackTransferReference [Hashing] (idempotencyKey : Digest) : Reference :=
  String.ofList ("cvp_".toList ++ (fingerprint (.text idempotencyKey)).toList.take 46)

namespace Store

/-- The line that owns a provider transfer reference. -/
def referencedLine? (s : Store) (reference : Reference) : Option PayoutBatchLine :=
  s.lines.find? (·.providerTransferReference = some reference)

/-- Lines of the same ledger entry, `chain_lines`. -/
def chainLines (s : Store) (ledgerEntryId : Id) : List PayoutBatchLine :=
  s.lines.filter (·.ledgerEntryId = ledgerEntryId)

end Store

/-- The batch holds a line of this ledger entry, so it is in its chain. -/
def PayoutBatch.inChain (batch : PayoutBatch) (ledgerEntryId : Id) : Bool :=
  batch.lines.any (·.ledgerEntryId = ledgerEntryId)

/-! ## The effect of one piece of evidence -/

/-- The evidence is neither superseded by an earlier success nor older than the
newest evidence already seen. -/
def isEffective (line : PayoutBatchLine) (evidence : VerifiedLineEvidence) : Bool :=
  (line.status ≠ .succeeded || isReversal evidence)
    && (match line.lastProviderEvidenceAt with
        | none => true
        | some last => evidence.occurredAt ≥ last)

structure EvidenceEffect where
  line : PayoutBatchLine
  ledgerStatus : EarningsLedgerEntryStatus
  applied : Bool
  deriving DecidableEq, Repr

def ledgerFinalityConflict (message : String) : AppError :=
  { code := "PAYOUT_LEDGER_FINALITY_CONFLICT", message := message }

/-- The outcome branches for effective evidence. -/
def outcomeEffect (line : PayoutBatchLine) (ledgerStatus : EarningsLedgerEntryStatus)
    (otherSucceeded : Bool) (evidence : VerifiedLineEvidence) (actorUserId : Option Id)
    (now : Int) : Except AppError EvidenceEffect :=
  match evidence.outcome with
  | .succeeded => do
      require (ledgerStatus = .available ∨ ledgerStatus = .paid)
        (ledgerFinalityConflict "The payout ledger entry is not available for cash-paid finality")
      return {
        line := { line with
          status := .succeeded
          reservationActive := false
          reconciledByUserId := actorUserId
          reconciledAt := some now }
        ledgerStatus := .paid
        applied := true }
  | .failed => do
      require (¬ (ledgerStatus = .paid ∧ ¬ otherSucceeded ∧ ¬ isReversal evidence))
        { code := "PAYOUT_PAID_HISTORY_IMMUTABLE"
          message := "Verified cash-paid history cannot be changed by failure evidence" }
      let ledgerStatus :=
        if isReversal evidence ∧ ¬ otherSucceeded then .available else ledgerStatus
      if line.status ≠ .failed then
        return {
          line := { line with
            status := .failed
            reservationActive := false
            reconciledByUserId := actorUserId
            reconciledAt := some now }
          ledgerStatus := ledgerStatus
          applied := true }
      else
        return { line := line, ledgerStatus := ledgerStatus, applied := false }
  | .unsupported _ =>
      throw
        { code := "PAYOUT_PROVIDER_OUTCOME_INVALID"
          message := "Verified provider evidence has an unsupported outcome"
          statusCode := 422 }

/-- `last_provider_evidence_at` advances to the newest evidence, applied or not. -/
def stampEvidence (occurredAt : Int) (line : PayoutBatchLine) : PayoutBatchLine :=
  match line.lastProviderEvidenceAt with
  | none => { line with lastProviderEvidenceAt := some occurredAt }
  | some last =>
      if occurredAt > last then { line with lastProviderEvidenceAt := some occurredAt } else line

def evidenceEffect (line : PayoutBatchLine) (ledgerStatus : EarningsLedgerEntryStatus)
    (otherSucceeded : Bool) (evidence : VerifiedLineEvidence) (actorUserId : Option Id)
    (now : Int) : Except AppError EvidenceEffect := do
  let effect ←
    if isEffective line evidence then
      outcomeEffect line ledgerStatus otherSucceeded evidence actorUserId now
    else
      .ok { line := line, ledgerStatus := ledgerStatus, applied := false }
  return { effect with line := stampEvidence evidence.occurredAt effect.line }

/-! ## The triggers on the tables -/

/-- The line statuses that `guard_payout_batch_line_mutation` lets an update write. -/
def lineTransition (old new : PayoutBatchLineStatus) : Bool :=
  old = new
    || (old = .reserved && (new = .submitted || new = .void))
    || (old = .submitted && (new = .succeeded || new = .failed))
    || (old = .failed && new = .succeeded)

/-- `guard_payout_batch_line_mutation`, for an update that keeps the line's identity and its
transfer reference. -/
def guardPayoutBatchLineMutation (old new : PayoutBatchLine) : Except AppError Unit := do
  require (lineTransition old.status new.status = true)
    { code := "IntegrityError"
      message := "payout batch line state transition is invalid"
      statusCode := 500 }
  require (old.reservationActive = new.reservationActive
      ∨ (old.reservationActive = true ∧ new.reservationActive = false
        ∧ (new.status = .succeeded ∨ new.status = .failed ∨ new.status = .void)))
    { code := "IntegrityError"
      message := "payout reservation release is invalid"
      statusCode := 500 }

/-- The entry statuses that `guard_earnings_ledger_entry_mutation` lets an update write. -/
def entryTransition (old new : EarningsLedgerEntryStatus) : Bool :=
  old = new
    || (old = .pending && new = .available)
    || (old = .available && (new = .paid || new = .reversed))

/-- `guard_earnings_ledger_entry_mutation`, for an update of the status alone. -/
def guardEarningsLedgerEntryMutation (old new : EarningsLedgerEntryStatus) :
    Except AppError Unit :=
  require (entryTransition old new = true)
    { code := "IntegrityError"
      message := "unsupported earnings ledger status transition"
      statusCode := 500 }

/-! ## The transaction -/

section Apply

variable [Hashing]

/-- Paystack evidence must repeat the frozen instruction of the line. -/
def PaystackMatches (line : PayoutBatchLine) (evidence : VerifiedLineEvidence) : Prop :=
  evidence.providerReference = some (paystackTransferReference line.idempotencyKey)
    ∧ evidence.amount = some line.amount ∧ evidence.currency = some line.currency

instance (line : PayoutBatchLine) (evidence : VerifiedLineEvidence) :
    Decidable (PaystackMatches line evidence) :=
  inferInstanceAs (Decidable (_ ∧ _ ∧ _))

/-- `_converge_line_cash` on one line of the chain: a success cancels every other
uncalled reservation of the same ledger entry. -/
def convergeLine (lineId ledgerEntryId : Id) (now : Int) (line : PayoutBatchLine) :
    PayoutBatchLine :=
  if line.ledgerEntryId = ledgerEntryId ∧ line.id ≠ lineId ∧ line.reservationActive then
    cancelOrKeep now line
  else line

/-- How the transaction rewrites one line of a chain batch. -/
def evidenceLine (effect : EvidenceEffect) (outcome : EvidenceOutcome) (now : Int)
    (line : PayoutBatchLine) : PayoutBatchLine :=
  if line.id = effect.line.id then effect.line
  else if effect.applied ∧ outcome = .succeeded then
    convergeLine effect.line.id effect.line.ledgerEntryId now line
  else line

/-- A poll needs an active admin and a reason; a webhook is the system actor. -/
def authorizeSource (auth : Authority) : EvidenceSource → Except AppError Unit
  | .webhook => .ok ()
  | .poll actorUserId reason => do
      requireActiveAdmin auth actorUserId
      let _ ← reasonOf reason

/-- The checks made before an event id is looked up: the reference is bound to a
line, Paystack evidence repeats the frozen instruction, and the line was sent. -/
def evidenceLineFor (evidence : VerifiedLineEvidence) (s : Store) :
    Except AppError PayoutBatchLine := do
  let line ← demand (s.referencedLine? evidence.providerTransferReference)
    { code := "PAYOUT_PROVIDER_LINE_NOT_FOUND"
      message := "The verified provider reference is not bound to a payout line"
      statusCode := 404 }
  require (line.intent.any (·.providerName = "paystack") → PaystackMatches line evidence)
    { code := "PAYOUT_PROVIDER_EVIDENCE_MISMATCH"
      message := "Verified Paystack evidence does not match the frozen payout instruction" }
  require (line.status = .submitted ∨ line.status = .failed ∨ line.status = .succeeded)
    { code := "PAYOUT_LINE_NOT_SUBMITTED", message := "The payout line is not reconcilable" }
  return line

def otherSucceeded (s : Store) (line : PayoutBatchLine) : Bool :=
  (s.chainLines line.ledgerEntryId).any (fun l => l.id ≠ line.id && l.status = .succeeded)

/-- The store after a new event was accepted with its effect. -/
def recordEvidence (evidence : VerifiedLineEvidence) (source : EvidenceSource) (now : Int)
    (effect : EvidenceEffect) (s : Store) : Store :=
  let recorded : Store := { s with
    batches := s.batches.map (fun b =>
      if b.inChain effect.line.ledgerEntryId then
        recomputeStatus (evidenceLine effect evidence.outcome now) b
      else b)
    events := s.events ++
      [{ lineId := effect.line.id
         providerEventId := evidence.providerEventId
         outcome := evidence.outcome
         evidenceFingerprint := evidence.evidenceFingerprint
         providerOccurredAt := evidence.occurredAt
         applied := effect.applied
         reconciledByUserId := source.actorUserId }] }
  recorded.updateEntry effect.line.ledgerEntryId
    (fun e => { e with status := effect.ledgerStatus })

def applyVerifiedLineEvidence (auth : Authority) (evidence : VerifiedLineEvidence)
    (source : EvidenceSource) (now : Int) (s : Store) : Except AppError Store := do
  authorizeSource auth source
  let line ← evidenceLineFor evidence s
  match s.events.find? (·.providerEventId = evidence.providerEventId) with
  | some existing =>
      require (existing.lineId = line.id ∧ existing.outcome = evidence.outcome
          ∧ existing.evidenceFingerprint = evidence.evidenceFingerprint)
        { code := "PAYOUT_PROVIDER_EVENT_REPLAY_CONFLICT"
          message := "The provider event ID was replayed with conflicting evidence" }
      return s
  | none =>
      let entry ← demand (s.entry? line.ledgerEntryId)
        (ledgerFinalityConflict "The payout ledger entry no longer exists")
      let effect ← evidenceEffect line entry.status (otherSucceeded s line) evidence
        source.actorUserId now
      require evidence.outcome.isSupported
        { code := "IntegrityError", message := "ck_payout_line_events_outcome", statusCode := 500 }
      -- the other lines of the chain go from reserved to void, which the trigger lets pass
      guardPayoutBatchLineMutation line effect.line
      guardEarningsLedgerEntryMutation entry.status effect.ledgerStatus
      return recordEvidence evidence source now effect s

end Apply

end Payout
end Mobility
