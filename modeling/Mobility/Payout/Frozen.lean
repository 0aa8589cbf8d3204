import Mobility.Lib.Checked
import Mobility.Payout.Balances

/-!
# Frozen — frozen instructions, derived status and cancellation (`services/disbursements.py`)

The helpers every payout operation shares: fingerprints of a frozen line and of
a batch's instruction set, `_assert_frozen`, `_derive_batch_status` and
`_cancel_uncalled_line`.
-/

namespace Mobility
namespace Payout

open Lib

/-! ## Requests -/

/-- `str.isspace` code points, as `str.strip` removes them. -/
def isPythonSpace (c : Char) : Bool :=
  let n := c.toNat
  (9 ≤ n && n ≤ 13) || (28 ≤ n && n ≤ 32) || n = 0x85 || n = 0xA0 || n = 0x1680
    || (0x2000 ≤ n && n ≤ 0x200A) || n = 0x2028 || n = 0x2029 || n = 0x202F || n = 0x205F
    || n = 0x3000

def strip (value : List Char) : List Char :=
  ((value.dropWhile isPythonSpace).reverse.dropWhile isPythonSpace).reverse

/-- `_reason`: the stripped reason of an admin action, 3 to 500 characters. -/
def reasonOf (value : String) : Except AppError (List Char) := do
  let reason := strip value.toList
  require (3 ≤ reason.length ∧ reason.length ≤ 500)
    { code := "PAYOUT_REASON_INVALID"
      message := "Give a reason between 3 and 500 characters"
      statusCode := 422 }
  return reason

def normalizeCurrency (value : String) : String :=
  String.ofList ((strip value.toList).map Char.toUpper)

/-- What the services around payouts answer inside one transaction: admin
authorization, fraud holds and assessments, payee and bank-account versions. -/
structure Authority where
  activeAdmin : Id → Bool
  held : Id → Bool
  assessmentCurrent : Id → Bool
  /-- payee lookup by driver profile and user, then `_frozen_payee_authority` -/
  payeeAuthority : Id → Id → Except AppError (Id × Id)
  /-- two bank-account versions decrypt to one bank destination -/
  sameDestination : Id → Id → Bool

def requireActiveAdmin (auth : Authority) (userId : Id) : Except AppError Unit :=
  require (auth.activeAdmin userId)
    { code := "FORBIDDEN_ROLE", message := "Admin role is required", statusCode := 403 }

structure DisbursementProviderCapabilities where
  providerName : String
  lookupByIdempotencyKey : Bool
  semanticSameKeyIdempotency : Bool
  deriving DecidableEq, Repr

def submissionCapabilities (capabilities : DisbursementProviderCapabilities) :
    Except AppError Unit :=
  require (capabilities.providerName ≠ "" ∧ capabilities.lookupByIdempotencyKey
      ∧ capabilities.semanticSameKeyIdempotency)
    { code := "DISBURSEMENT_PROVIDER_UNAVAILABLE"
      message := "Automated disbursement requires same-key idempotency and durable-key lookup"
      statusCode := 503 }

/-! ## Freezing a line -/

section Freezing

variable [Hashing]

def fingerprint (document : Canonical) : Digest :=
  Hashing.sha256 document

def lineIdempotencyKey (batchId : Id) (instructionFingerprint : Digest)
    (predecessorLineId : Option Id) : Digest :=
  fingerprint (.lineAuthority batchId instructionFingerprint predecessorLineId)

/-- The reserved line that freezes `amount` of one credit. -/
def frozenLine (id batchId : Id) (entry : EarningsLedgerEntry) (versions : Id × Id)
    (amount : Int) (predecessorLineId : Option Id) : PayoutBatchLine :=
  let instruction : Instruction :=
    { ledgerEntryId := entry.id
      payeeVersionId := versions.1
      bankAccountVersionId := versions.2
      amount := amount
      currency := entry.currency }
  let instructionFingerprint := fingerprint (.instruction instruction)
  { id := id
    ledgerEntryId := entry.id
    predecessorLineId := predecessorLineId
    payeeVersionId := versions.1
    bankAccountVersionId := versions.2
    amount := amount
    currency := entry.currency
    instruction := instruction
    instructionFingerprint := instructionFingerprint
    idempotencyKey := lineIdempotencyKey batchId instructionFingerprint predecessorLineId
    status := .reserved
    reservationActive := true }

def buildFrozenPayoutLine (id batchId : Id) (entry : EarningsLedgerEntry) (versions : Id × Id)
    (amount : Int) : Except AppError PayoutBatchLine := do
  require (0 < amount ∧ amount ≤ entry.amount)
    { code := "PAYOUT_AMOUNT_INVALID", message := "The payout must fit its source credit" }
  return frozenLine id batchId entry versions amount none

def instructionSetFingerprintOf (currency : Currency) (lines : List PayoutBatchLine) : Digest :=
  fingerprint (.instructionSet currency (totalAmount lines)
    ((lines.map (·.instructionFingerprint)).insertionSort (· ≤ ·)))

def freezeBatchInstructionSet (batch : PayoutBatch) (lines : List PayoutBatchLine) : PayoutBatch :=
  { batch with
    totalAmount := totalAmount lines
    instructionSetFingerprint := some (instructionSetFingerprintOf batch.currency lines) }

/-- The checks `_assert_frozen` makes on one line. -/
def LineFrozen (batch : PayoutBatch) (line : PayoutBatchLine) : Prop :=
  line.instructionFingerprint = fingerprint (.instruction line.instruction)
    ∧ line.instruction =
        { ledgerEntryId := line.ledgerEntryId
          payeeVersionId := line.payeeVersionId
          bankAccountVersionId := line.bankAccountVersionId
          amount := line.amount
          currency := line.currency }
    ∧ line.idempotencyKey =
        lineIdempotencyKey batch.id line.instructionFingerprint line.predecessorLineId
    ∧ line.currency = batch.currency

instance (batch : PayoutBatch) (line : PayoutBatchLine) : Decidable (LineFrozen batch line) :=
  inferInstanceAs (Decidable (_ ∧ _ ∧ _ ∧ _))

def assertFrozen (batch : PayoutBatch) : Except AppError Unit := do
  require (batch.lines ≠ [])
    { code := "PAYOUT_BATCH_EMPTY", message := "A payout batch cannot be empty" }
  require (∀ line ∈ batch.lines, LineFrozen batch line)
    { code := "PAYOUT_INSTRUCTION_CHANGED"
      message := "A frozen payout instruction changed" }
  require (totalAmount batch.lines = batch.totalAmount
      ∧ some (instructionSetFingerprintOf batch.currency batch.lines)
          = batch.instructionSetFingerprint)
    { code := "PAYOUT_BATCH_CHANGED", message := "The frozen payout batch snapshot changed" }

end Freezing

/-! ## Derived batch status -/

/-- The set of line statuses is exactly `{status}`. -/
def OnlyStatus (lines : List PayoutBatchLine) (status : PayoutBatchLineStatus) : Prop :=
  lines ≠ [] ∧ ∀ line ∈ lines, line.status = status

instance (lines : List PayoutBatchLine) (status : PayoutBatchLineStatus) :
    Decidable (OnlyStatus lines status) :=
  inferInstanceAs (Decidable (_ ∧ _))

def deriveBatchStatus (lines : List PayoutBatchLine) : PayoutBatchStatus :=
  if OnlyStatus lines .succeeded then .completed
  else if OnlyStatus lines .failed then .failed
  else if ∃ line ∈ lines, line.status = .submitted then .submitted
  else if OnlyStatus lines .void then .void
  else .reconciled

/-- No mix of line statuses derives `reserved`. -/
theorem deriveBatchStatus_ne_reserved (lines : List PayoutBatchLine) :
    deriveBatchStatus lines ≠ .reserved := by
  unfold deriveBatchStatus
  split_ifs <;> simp

theorem deriveBatchStatus_ne_draft (lines : List PayoutBatchLine) :
    deriveBatchStatus lines ≠ .draft := by
  unfold deriveBatchStatus
  split_ifs <;> simp

/-! ## Cancelling an uncalled line -/

/-- `_cancel_uncalled_line`: the voided line when nothing of it can have reached
the provider, `none` when it is left as it is. -/
def cancelUncalledLine (line : PayoutBatchLine) (cancelledAt : Int) :
    Option PayoutBatchLine :=
  if line.status ≠ .reserved ∨ intentHasUnknownEffect line.intent then none
  else
    match line.intent with
    | none =>
        some { line with
          status := .void
          reservationActive := false
          reconciledAt := some cancelledAt }
    | some intent =>
        if intent.state ≠ .pending then none
        else
          some { line with
            intent := some { intent with state := .cancelled, resolvedAt := some cancelledAt }
            status := .void
            reservationActive := false
            reconciledAt := some cancelledAt }

/-- The line after `_cancel_uncalled_line`, whatever it returned. -/
def cancelOrKeep (cancelledAt : Int) (line : PayoutBatchLine) : PayoutBatchLine :=
  (cancelUncalledLine line cancelledAt).getD line

/-- A batch whose lines were rewritten and whose status was derived again. -/
def recomputeStatus (f : PayoutBatchLine → PayoutBatchLine) (batch : PayoutBatch) : PayoutBatch :=
  let lines := batch.lines.map f
  { batch with lines := lines, status := deriveBatchStatus lines }

end Payout
end Mobility
