import Mobility.Payout.Adjustments

/-!
# Automatic — the daily run and its release (`services/automatic_payouts.py`)

`runAutomaticPayouts` books one approved batch per driver with its submission
intents already queued; `releaseUnsentAutomaticPayments` cancels automatic
payments that no worker has tried.
-/

namespace Mobility
namespace Payout

open Lib

def automaticCurrency : Currency := "NGN"

/-- What the run learns outside the payout tables. -/
structure AutomaticReview where
  actorValid : Bool
  paused : Bool
  /-- `_clean_reason`, the day ceilings and the scan cursor together: the frozen
  payee versions of an entry that is admitted to this run -/
  admitted : EarningsLedgerEntry → Option (Id × Id)

/-- The database part of the candidate query. -/
def isAutomaticCandidate (s : Store) (entry : EarningsLedgerEntry) : Bool :=
  entry.entryType = .tripPayout && entry.status = .available && decide (0 < entry.amount)
    && entry.currency = automaticCurrency && entry.tripSessionId.isSome
    && entry.payoutCalculationId.isSome
    && !(s.batches.any (fun b => b.lines.any (fun l => l.ledgerEntryId = entry.id
        && (b.approvalMode = .automatic || l.reservationActive || l.status = .failed))))
    && !(s.entries.any (fun other => other.tripSessionId = entry.tripSessionId
        && other.id ≠ entry.id && other.status ≠ .voided))

/-- The admitted entries, each with its payee versions. -/
def includedEntries (s : Store) (review : AutomaticReview) :
    List (EarningsLedgerEntry × (Id × Id)) :=
  (s.entries.filter (isAutomaticCandidate s)).filterMap
    (fun e => (review.admitted e).map (fun versions => (e, versions)))

structure AutomaticState where
  store : Store
  lines : List PayoutBatchLine := []

section Run

variable [Hashing]

/-- One round of the loop over a driver's admitted entries. -/
def automaticEntry (runId batchId : Id) (lineId : Id → Id) (st : AutomaticState)
    (item : EarningsLedgerEntry × (Id × Id)) : Except AppError AutomaticState := do
  let entry := item.1
  match entry.tripSessionId with
  | none => return st
  | some tripId =>
      let position := st.store.tripMoneyPosition tripId entry.currency
      let payable := min entry.amount position.batchPayable
      if payable ≤ 0 then
        return st
      else
        let recovery := allocatePayoutRecovery st.store entry payable
          { requestId := runId, automaticRunId := some runId }
        if recovery.2 = 0 then
          return { st with store := recovery.1 }
        else
          let line ← buildFrozenPayoutLine (lineId entry.id) batchId entry item.2 recovery.2
          return { store := recovery.1, lines := st.lines ++ [line] }

/-- The automatic batch of one driver, with every line already queued. -/
def automaticBatch (runId batchId : Id) (providerName : String) (now : Int)
    (lines : List PayoutBatchLine) : PayoutBatch :=
  let batch : PayoutBatch :=
    { id := batchId
      status := .reserved
      currency := automaticCurrency
      createdByUserId := cardvertAutomaticPayoutActorId
      approvalMode := .automatic
      automaticRunId := some runId
      approvedAt := some now }
  { freezeBatchInstructionSet batch lines with
    lines := lines.map (fun l =>
      { l with intent := some (newIntent providerName cardvertAutomaticPayoutActorId l) }) }

/-- One driver's share of the run. -/
def automaticDriver (runId : Id) (batchId lineId : Id → Id) (providerName : String)
    (now : Int) (included : List (EarningsLedgerEntry × (Id × Id))) (s : Store)
    (driverProfileId : Id) : Except AppError Store := do
  let items := orderBy (·.1.id) (included.filter (·.1.driverProfileId = driverProfileId))
  let r ← checkedFold (automaticEntry runId (batchId driverProfileId) lineId) { store := s } items
  if r.lines = [] then
    return r.store
  else
    require (r.store.batch? (batchId driverProfileId) = none ∧ r.store.LinesInsertable r.lines)
      { code := "IntegrityError"
        message := "uq_payout_batch_lines_active_ledger_entry"
        statusCode := 500 }
    return { r.store with
      batches := r.store.batches ++
        [automaticBatch runId (batchId driverProfileId) providerName now r.lines] }

/-- `run_automatic_payouts`; `batchId` and `lineId` give the fresh UUIDs of each
driver's batch and each entry's line. -/
def runAutomaticPayouts (review : AutomaticReview)
    (capabilities : DisbursementProviderCapabilities) (runId : Id) (period : String)
    (batchId lineId : Id → Id) (now : Int) (s : Store) : Except AppError Store := do
  if ¬ review.actorValid ∨ review.paused
      ∨ s.automaticRuns.any (·.periodKey = period)
      ∨ ¬ (submissionCapabilities capabilities).isOk then
    return s
  else
    require (s.automaticRuns.all (·.id ≠ runId))
      { code := "IntegrityError", message := "payout_automatic_runs_pkey", statusCode := 500 }
    let included := includedEntries s review
    let drivers := orderBy id (orderedKeys (included.map (·.1.driverProfileId)))
    let s := { s with automaticRuns := s.automaticRuns ++ [{ id := runId, periodKey := period }] }
    checkedFold (automaticDriver runId batchId lineId capabilities.providerName now included)
      s drivers

end Run

/-! ## Release -/

/-- A line of an automatic batch whose queued intent no worker has tried. -/
def isUnsent (line : PayoutBatchLine) : Bool :=
  match line.intent with
  | none => false
  | some intent => intent.attempts = []

def releaseLine (releasedAt : Int) (line : PayoutBatchLine) : PayoutBatchLine :=
  if isUnsent line then cancelOrKeep releasedAt line else line

/-- The release loop cancels at least one line of the batch. -/
def hasReleasable (batch : PayoutBatch) (releasedAt : Int) : Bool :=
  batch.lines.any (fun l => isUnsent l && (cancelUncalledLine l releasedAt).isSome)

def releaseUnsentAutomaticPayments (auth : Authority) (paused : Bool) (actorUserId : Id)
    (reason : String) (releasedAt : Int) (s : Store) : Except AppError Store := do
  requireActiveAdmin auth actorUserId
  require (3 ≤ (strip reason.toList).length ∧ (strip reason.toList).length ≤ 500)
    { code := "PAYOUT_AUTOMATIC_REASON_INVALID"
      message := "Give a reason between 3 and 500 characters"
      statusCode := 422 }
  require paused
    { code := "PAYOUT_AUTOMATIC_RELEASE_REQUIRES_PAUSE"
      message := "Pause automatic payouts before moving unsent payments to manual review" }
  return { s with
    batches := s.batches.map (fun b =>
      if b.approvalMode = .automatic ∧ hasReleasable b releasedAt then
        recomputeStatus (releaseLine releasedAt) b
      else b) }

end Payout
end Mobility
