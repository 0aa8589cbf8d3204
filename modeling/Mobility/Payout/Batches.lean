import Mobility.Payout.Frozen

/-!
# Batches — the life of a payout batch (`services/disbursements.py`)

`create_payout_batch_draft`, `reserve_payout_batch`, `approve_payout_batch`,
`submit_payout_batch`, `retry_failed_payout_lines` and `void_payout_batch`.
Each is one transaction: it returns the next store, or refuses and leaves the
store as it was.  Fresh UUIDs and clock readings are arguments; primary keys and
partial unique indexes are checked where the rows are flushed.
-/

namespace Mobility
namespace Payout

open Lib

/-- Two selections name the same set of rows. -/
def SameSet (xs ys : List Id) : Prop :=
  (∀ x ∈ xs, x ∈ ys) ∧ ∀ y ∈ ys, y ∈ xs

instance (xs ys : List Id) : Decidable (SameSet xs ys) :=
  inferInstanceAs (Decidable (_ ∧ _))

namespace Store

def deleteBatch (s : Store) (id : Id) : Store :=
  { s with batches := s.batches.filter (·.id ≠ id) }

/-- The primary key of `payout_batch_lines` and its two partial unique indexes:
one active reservation per ledger entry, one replacement per predecessor. -/
def LinesInsertable (s : Store) (lines : List PayoutBatchLine) : Prop :=
  ((s.lines ++ lines).map (·.id)).Nodup
    ∧ (((s.lines ++ lines).filter (·.reservationActive)).map (·.ledgerEntryId)).Nodup
    ∧ ((s.lines ++ lines).filterMap (·.predecessorLineId)).Nodup

instance (s : Store) (lines : List PayoutBatchLine) : Decidable (s.LinesInsertable lines) :=
  inferInstanceAs (Decidable (_ ∧ _ ∧ _))

end Store

def batchNotFound : AppError :=
  { code := "PAYOUT_BATCH_NOT_FOUND", message := "Payout batch was not found", statusCode := 404 }

/-! ## Draft -/

def draftRetryConflict (message : String) : AppError :=
  { code := "PAYOUT_DRAFT_RETRY_CONFLICT", message := message }

/-- `create_payout_batch_draft`; `batchId` is the request id when the caller gave
one, otherwise a fresh UUID. -/
def createPayoutBatchDraft (auth : Authority) (currency : String) (actorUserId : Id)
    (reason : String) (batchId : Id) (requested : Bool) (s : Store) : Except AppError Store := do
  requireActiveAdmin auth actorUserId
  let _ ← reasonOf reason
  let normalized := normalizeCurrency currency
  require (normalized.length = 3 ∧ normalized.toList.all Char.isAlpha)
    { code := "PAYOUT_BATCH_CURRENCY_INVALID"
      message := "Currency must be a three-letter code"
      statusCode := 422 }
  match s.batch? batchId with
  | some existing =>
      require (requested ∧ existing.createdByUserId = actorUserId ∧ existing.currency = normalized)
        (draftRetryConflict "This draft reference cannot be reused")
      return s
  | none =>
      let batch : PayoutBatch :=
        { id := batchId
          status := .draft
          currency := normalized
          createdByUserId := actorUserId }
      return { s with batches := s.batches ++ [batch] }

/-! ## Reservation -/

/-- What the reservation loop carries from entry to entry. -/
structure ReserveState where
  store : Store
  remainingByTrip : Id → Option Int := fun _ => none
  lines : List PayoutBatchLine := []

/-- `remaining_by_trip[trip]`, read from the trip's position the first time. -/
def remainingFor (s : Store) (remainingByTrip : Id → Option Int) (tripId : Id)
    (currency : Currency) : Int :=
  (remainingByTrip tripId).getD (s.tripMoneyPosition tripId currency).batchPayable

/-- `remaining_by_trip[trip] -= amount`. -/
def takeRemaining (remainingByTrip : Id → Option Int) (tripId : Id) (left : Int) :
    Id → Option Int :=
  fun t => if t = tripId then some left else remainingByTrip t

def entryIneligible (message : String) : AppError :=
  { code := "PAYOUT_ENTRY_INELIGIBLE", message := message }

section Operations

variable [Hashing]

/-- One round of the loop over the selected entries. -/
def reserveEntry (auth : Authority) (batch : PayoutBatch) (actorUserId : Id) (lineId : Id → Id)
    (st : ReserveState) (entry : EarningsLedgerEntry) : Except AppError ReserveState := do
  let tripId ← demand entry.tripSessionId
    (entryIneligible "Every selected entry must belong to a trip")
  require (¬ auth.held tripId)
    { code := "PAYOUT_ENTRY_HELD"
      message := "A selected ledger entry has an active fraud hold" }
  require (auth.assessmentCurrent tripId)
    { code := "PAYOUT_ASSESSMENT_NOT_CURRENT"
      message := "A selected entry lacks a current successful fraud assessment" }
  require (entry.status = .available ∧ entry.entryType ≠ .reversal ∧ 0 < entry.amount
      ∧ entry.currency = batch.currency)
    (entryIneligible
      "Every selected entry must be positive, available, payable, and in batch currency")
  let versions ← auth.payeeAuthority entry.driverProfileId entry.driverUserId
  let remaining := remainingFor st.store st.remainingByTrip tripId entry.currency
  let amount := min entry.amount remaining
  require (0 < amount) (entryIneligible "This trip has no unpaid cash authority")
  let recovery := allocatePayoutRecovery st.store entry amount
    { requestId := batch.id, actorUserId := some actorUserId }
  let remainingByTrip := takeRemaining st.remainingByTrip tripId (remaining - amount)
  if recovery.2 = 0 then
    return { store := recovery.1, remainingByTrip := remainingByTrip, lines := st.lines }
  else
    let line ← buildFrozenPayoutLine (lineId entry.id) batch.id entry versions recovery.2
    return { store := recovery.1, remainingByTrip := remainingByTrip, lines := st.lines ++ [line] }

/-- The batch as the reservation freezes it. -/
def reserveWith (lines : List PayoutBatchLine) (batch : PayoutBatch) : PayoutBatch :=
  { freezeBatchInstructionSet batch lines with
    status := .reserved
    lines := lines }

/-- The replay branches at the head of `reserve_payout_batch`: the offsets this
request has already written decide whether the call is finished. -/
def reserveReplay (batchId : Id) (ledgerEntryIds : List Id) (actorUserId : Id)
    (offsets : List PayoutRecoveryOffset) (s : Store) : Except AppError (Option Store) :=
  let differentSelection :=
    draftRetryConflict "This recovery reference has a different selection"
  if offsets = [] then .ok none
  else
    match s.batch? batchId with
    | none =>
        if SameSet ledgerEntryIds (offsets.map (·.fundingEntryId)) then .ok (some s)
        else .error differentSelection
    | some replay =>
        if replay.status = .draft then
          if SameSet ledgerEntryIds (offsets.map (·.fundingEntryId))
              ∧ replay.createdByUserId = actorUserId then
            .ok (some (s.deleteBatch batchId))
          else .error differentSelection
        else .ok none

/-- `reserve_payout_batch`; `lineId` gives the fresh UUID of each entry's line. -/
def reservePayoutBatch (auth : Authority) (batchId : Id) (ledgerEntryIds : List Id)
    (actorUserId : Id) (reason : String) (lineId : Id → Id) (s : Store) :
    Except AppError Store := do
  requireActiveAdmin auth actorUserId
  let _ ← reasonOf reason
  let offsets := s.offsets.filter (·.requestId = batchId)
  require (∀ offset ∈ offsets, offset.actorUserId = some actorUserId)
    (draftRetryConflict "This recovery reference belongs to another action")
  match ← reserveReplay batchId ledgerEntryIds actorUserId offsets s with
  | some finished => return finished
  | none =>
      let batch ← demand (s.batch? batchId) batchNotFound
      require (ledgerEntryIds ≠ [] ∧ ledgerEntryIds.Nodup)
        { code := "PAYOUT_BATCH_ENTRIES_INVALID"
          message := "Select one or more distinct ledger entries"
          statusCode := 422 }
      let entries := orderBy (·.id) (s.entries.filter (·.id ∈ ledgerEntryIds))
      require (entries.length = ledgerEntryIds.length ∧ ∀ e ∈ entries, e.tripSessionId.isSome)
        (entryIneligible "Every selected entry must belong to a trip")
      require (batch.createdByUserId = actorUserId)
        { code := "PAYOUT_BATCH_MAKER_REQUIRED"
          message := "Only the batch maker can reserve it"
          statusCode := 403 }
      if batch.status ≠ .draft then
        require (SameSet
            (batch.lines.map (·.ledgerEntryId) ++ offsets.map (·.fundingEntryId)) ledgerEntryIds)
          { code := "PAYOUT_BATCH_NOT_DRAFT", message := "Only a draft batch can be reserved" }
        assertFrozen batch
        return s
      else
        require (∀ l ∈ s.linesOf entries, ¬ l.reservationActive)
          { code := "PAYOUT_ENTRY_ALREADY_RESERVED"
            message := "A selected ledger entry already has an active payout reservation" }
        require (∀ l ∈ s.linesOf entries, l.status ≠ .failed)
          { code := "PAYOUT_REPLACEMENT_REQUIRED"
            message := "A terminally failed payout must use the governed replacement flow" }
        let r ← checkedFold (reserveEntry auth batch actorUserId lineId) { store := s } entries
        if r.lines = [] then
          return r.store.deleteBatch batchId
        else
          require (s.LinesInsertable r.lines)
            { code := "PAYOUT_ENTRY_ALREADY_RESERVED"
              message := "A selected ledger entry already has an active payout reservation" }
          return r.store.updateBatch batchId (reserveWith r.lines)

/-! ## Approval and submission -/

def refuseAutomaticBatch (batch : PayoutBatch) : Except AppError Unit :=
  require (batch.approvalMode ≠ .automatic)
    { code := "PAYOUT_BATCH_AUTOMATIC"
      message := "Cardvert approved and queued this batch automatically; no person approves or sends it" }

def approveWith (actorUserId : Id) (now : Int) (batch : PayoutBatch) : PayoutBatch :=
  { batch with approvedByUserId := some actorUserId, approvedAt := some now }

def approvePayoutBatch (auth : Authority) (batchId actorUserId : Id) (reason : String)
    (now : Int) (s : Store) : Except AppError Store := do
  requireActiveAdmin auth actorUserId
  let _ ← reasonOf reason
  let batch ← demand (s.batch? batchId) batchNotFound
  refuseAutomaticBatch batch
  require (batch.status = .reserved)
    { code := "PAYOUT_BATCH_NOT_RESERVED", message := "Only a reserved batch can be approved" }
  assertFrozen batch
  match batch.approvedByUserId with
  | some approver =>
      require (approver = actorUserId)
        { code := "PAYOUT_BATCH_APPROVAL_CONFLICT"
          message := "The batch was already approved by another admin" }
      return s
  | none => return s.updateBatch batchId (approveWith actorUserId now)

def intentConflict (message : String) : AppError :=
  { code := "PAYOUT_SUBMISSION_INTENT_CONFLICT", message := message }

/-- The intent still names the frozen instruction of its line. -/
def IntentMatches (line : PayoutBatchLine) (intent : PayoutSubmissionIntent) : Prop :=
  intent.idempotencyKey = line.idempotencyKey
    ∧ intent.instruction = line.instruction
    ∧ intent.instructionFingerprint = line.instructionFingerprint

instance (line : PayoutBatchLine) (intent : PayoutSubmissionIntent) :
    Decidable (IntentMatches line intent) :=
  inferInstanceAs (Decidable (_ ∧ _ ∧ _))

def newIntent (providerName : String) (requestedByUserId : Id) (line : PayoutBatchLine) :
    PayoutSubmissionIntent :=
  { providerName := providerName
    idempotencyKey := line.idempotencyKey
    instruction := line.instruction
    instructionFingerprint := line.instructionFingerprint
    requestedByUserId := requestedByUserId }

/-- One round of the loop of `submit_payout_batch`. -/
def queueLine (providerName : String) (actorUserId : Id) (line : PayoutBatchLine) :
    Except AppError PayoutBatchLine :=
  match line.intent with
  | some intent => do
      require (intent.providerName = providerName ∧ IntentMatches line intent)
        (intentConflict "The durable payout submission intent conflicts with the frozen line")
      return line
  | none => do
      require (line.status = .reserved)
        { code := "PAYOUT_SUBMISSION_INTENT_MISSING"
          message := "A provider-visible payout line has no durable submission intent" }
      return { line with intent := some (newIntent providerName actorUserId line) }

def submitPayoutBatch (auth : Authority) (batchId actorUserId : Id)
    (capabilities : DisbursementProviderCapabilities) (s : Store) : Except AppError Store := do
  requireActiveAdmin auth actorUserId
  let batch ← demand (s.batch? batchId) batchNotFound
  refuseAutomaticBatch batch
  require (batch.status = .reserved ∨ batch.status = .submitted)
    { code := "PAYOUT_BATCH_NOT_RESERVED", message := "The batch is not ready for submission" }
  require (batch.approvedByUserId.isSome ∧ batch.approvedAt.isSome)
    { code := "PAYOUT_BATCH_NOT_APPROVED", message := "An admin must approve the batch" }
  assertFrozen batch
  submissionCapabilities capabilities
  let lines ← checkedMap (queueLine capabilities.providerName actorUserId) batch.lines
  return s.updateBatch batchId (fun b => { b with lines := lines })

/-! ## Replacement of failed lines -/

structure RetryState where
  remainingByTrip : Id → Option Int := fun _ => none
  lines : List PayoutBatchLine := []

def replacementConflict (message : String) : AppError :=
  { code := "PAYOUT_REPLACEMENT_CONFLICT", message := message }

/-- One round of the loop over the failed lines. -/
def retryLine (auth : Authority) (s : Store) (replacementId : Id) (lineId : Id → Id)
    (st : RetryState) (predecessor : PayoutBatchLine) : Except AppError RetryState := do
  let authorityLost :=
    replacementConflict "A failed payout no longer has its original available ledger authority"
  let entry ← demand (s.entry? predecessor.ledgerEntryId) authorityLost
  require (entry.status = .available ∧ entry.entryType ≠ .reversal
      ∧ 0 < predecessor.amount ∧ predecessor.amount ≤ entry.amount
      ∧ entry.currency = predecessor.currency) authorityLost
  let tripId ← demand entry.tripSessionId
    (replacementConflict "Replacement ledger authority is missing")
  require (¬ auth.held tripId)
    { code := "PAYOUT_ENTRY_HELD", message := "A failed payout now has an active fraud hold" }
  let versions ← auth.payeeAuthority entry.driverProfileId entry.driverUserId
  require (versions.2 ≠ predecessor.bankAccountVersionId)
    { code := "PAYOUT_RESOLVED_LINES_NOT_RETRYABLE"
      message := "A replacement requires a newer verified bank-account version" }
  require (¬ auth.sameDestination predecessor.bankAccountVersionId versions.2)
    { code := "PAYOUT_RESOLVED_LINES_NOT_RETRYABLE"
      message := "A replacement requires a different verified bank destination" }
  let remaining := remainingFor s st.remainingByTrip tripId entry.currency
  let amount := min predecessor.amount remaining
  require (0 < amount) (entryIneligible "This trip has no unpaid cash authority")
  return {
    remainingByTrip := takeRemaining st.remainingByTrip tripId (remaining - amount)
    lines := st.lines ++
      [frozenLine (lineId predecessor.id) replacementId entry versions amount
        (some predecessor.id)] }

/-- `retry_failed_payout_lines`; the replacement batch and its lines get fresh UUIDs. -/
def retryFailedPayoutLines (auth : Authority) (batchId actorUserId : Id)
    (capabilities : DisbursementProviderCapabilities) (reason : String) (replacementId : Id)
    (lineId : Id → Id) (s : Store) : Except AppError Store := do
  requireActiveAdmin auth actorUserId
  let _ ← reasonOf reason
  let batch ← demand (s.batch? batchId) batchNotFound
  let failedLines := orderBy (·.id) (batch.lines.filter (·.status = .failed))
  require (failedLines ≠ [])
    { code := "PAYOUT_FAILED_LINES_MISSING", message := "The batch has no failed lines to retry" }
  require (∀ l ∈ batch.lines, l.status ≠ .reserved ∧ l.status ≠ .submitted)
    { code := "PAYOUT_UNRESOLVED_LINES_REMAIN"
      message := "Every provider-visible line must resolve before replacement authorization" }
  assertFrozen batch
  submissionCapabilities capabilities
  require (∀ l ∈ failedLines, ¬ l.reservationActive)
    { code := "PAYOUT_TERMINAL_FAILURE_NOT_RELEASED"
      message := "A terminally failed payout still has an active reservation" }
  let failedIds := failedLines.map (·.id)
  let children := s.lines.filter (fun l => failedIds.any (fun i => l.predecessorLineId = some i))
  if children ≠ [] then
    -- The replacement already exists: it is returned, or it is not one whole batch.
    require (children.length = failedLines.length
        ∧ (∃ b ∈ s.batches, ∀ l ∈ children, l ∈ b.lines)
        ∧ SameSet (children.filterMap (·.predecessorLineId)) failedIds)
      (replacementConflict "The failed payout lines do not share one immutable replacement")
    return s
  else
    let entries := s.entries.filter (·.id ∈ failedLines.map (·.ledgerEntryId))
    require (entries.length = failedLines.length ∧ ∀ e ∈ entries, e.tripSessionId.isSome)
      (replacementConflict "Replacement ledger authority is missing")
    require (∀ e ∈ entries, ∀ t ∈ e.tripSessionId, auth.assessmentCurrent t)
      { code := "PAYOUT_ASSESSMENT_NOT_CURRENT"
        message := "A replacement entry lacks a current successful fraud assessment" }
    let r ← checkedFold (retryLine auth s replacementId lineId) {} failedLines
    require (s.batch? replacementId = none ∧ s.LinesInsertable r.lines)
      (replacementConflict "Another replacement already owns this failed payout")
    let replacement : PayoutBatch :=
      { id := replacementId
        status := .reserved
        currency := batch.currency
        createdByUserId := actorUserId }
    return { s with
      batches := s.batches ++
        [{ freezeBatchInstructionSet replacement r.lines with lines := r.lines }] }

/-! ## Void -/

def voidLine (line : PayoutBatchLine) : PayoutBatchLine :=
  { line with status := .void, reservationActive := false }

def voidPayoutBatch (auth : Authority) (batchId actorUserId : Id) (s : Store) :
    Except AppError Store := do
  requireActiveAdmin auth actorUserId
  let batch ← demand (s.batch? batchId) batchNotFound
  require (batch.status = .reserved
      ∧ (∀ l ∈ batch.lines, l.status = .reserved ∧ l.providerTransferReference = none)
      ∧ ∀ l ∈ batch.lines, l.intent = none)
    { code := "PAYOUT_BATCH_VOID_UNSAFE"
      message := "Only a pre-provider reserved batch can be voided" }
  let entries := s.entries.filter (·.id ∈ batch.lines.map (·.ledgerEntryId))
  require (entries.length = batch.lines.length ∧ ∀ e ∈ entries, e.status = .available)
    { code := "PAYOUT_BATCH_VOID_UNSAFE"
      message := "The batch contains a provider-final or cash-final ledger entry" }
  return s.updateBatch batchId
    (fun b => { b with status := .void, lines := b.lines.map voidLine })

end Operations

end Payout
end Mobility
