import Mobility.Payout.Evidence

/-!
# Adjustments — ledger credits, reversals and the payouts they cancel

* `ensureLedgerEntry` and `releaseLedgerEntry`: a trip credit is booked pending
  and becomes available (`payouts/ledger.py`, `services/earnings_release.py`).
* `cancelUncalledTripPayouts` with its chain authority (`services/disbursements.py`).
* `recordNegativeAdjustment` (`services/payout_adjustments.py`) and
  `writeDayDifferentials` (`payouts/corrections.py`), its two callers.
-/

namespace Mobility
namespace Payout

open Lib

/-! ## Chain authority -/

namespace Store

/-- Entries of a trip (`trip_session_id == trip_id`). -/
def tripEntryIds (s : Store) (tripId : Id) : List Id :=
  (s.entries.filter (·.tripSessionId = some tripId)).map (·.id)

/-- `lock_payout_chains`: the batches that hold a line on one of the trips. -/
def lockPayoutChains (s : Store) (tripIds : List Id) : List Id :=
  (s.batches.filter (fun b => b.lines.any (fun l =>
    tripIds.any (fun t => l.ledgerEntryId ∈ s.tripEntryIds t)))).map (·.id)

end Store

/-- How the cancellation rewrites one line of the chain. -/
def cancelTripLine (tripEntries : List Id) (resolvedAt : Int) (line : PayoutBatchLine) :
    PayoutBatchLine :=
  if line.ledgerEntryId ∈ tripEntries ∧ line.reservationActive then
    cancelOrKeep resolvedAt line
  else line

/-- `cancel_uncalled_trip_payouts`: cancels the trip's uncalled lines and derives
the status of every batch of the chain authority again. -/
def cancelUncalledTripPayouts (tripId : Id) (chainBatchIds : List Id) (resolvedAt : Int)
    (s : Store) : Store :=
  { s with
    batches := s.batches.map (fun b =>
      if b.id ∈ chainBatchIds then
        recomputeStatus (cancelTripLine (s.tripEntryIds tripId) resolvedAt) b
      else b) }

/-! ## Ledger credits -/

def openTrip (trip : TripSession) (s : Store) : Except AppError Store := do
  require (s.trip? trip.id = none)
    { code := "IntegrityError", message := "trip_sessions_pkey", statusCode := 500 }
  return { s with trips := s.trips ++ [trip] }

def entryKeyTaken : AppError :=
  { code := "IntegrityError", message := "earnings_ledger_entries_pkey", statusCode := 500 }

/-- `ensure_ledger_entry`: one pending `trip_payout` credit per trip and calculation. -/
def ensureLedgerEntry (entryId calculationId tripId : Id) (amount : Int) (currency : Currency)
    (occurredAt : Int) (s : Store) : Except AppError Store := do
  let trip ← demand (s.trip? tripId)
    { code := "TRIP_NOT_FOUND", message := "Trip was not found", statusCode := 404 }
  if amount ≤ 0 ∨ s.entries.any (fun e =>
      e.payoutCalculationId = some calculationId
        || (e.tripSessionId = some tripId && e.entryType = .tripPayout)) then
    return s
  else
    require (s.entry? entryId = none) entryKeyTaken
    return { s with
      entries := s.entries ++
        [{ id := entryId
           payoutCalculationId := some calculationId
           driverProfileId := trip.driverProfileId
           driverUserId := trip.driverUserId
           tripSessionId := some trip.id
           entryType := .tripPayout
           status := .pending
           amount := amount
           currency := currency
           occurredAt := occurredAt }] }

/-- The release sweep on one entry: pending money becomes available. -/
def releaseLedgerEntry (entryId : Id) (s : Store) : Except AppError Store := do
  let entry ← demand (s.entry? entryId)
    { code := "EARNINGS_LEDGER_ENTRY_NOT_FOUND"
      message := "Earnings ledger entry not found"
      statusCode := 404 }
  if entry.status = .pending then
    return s.updateEntry entryId (fun e => { e with status := .available })
  else
    return s

/-! ## Negative adjustments -/

def adjustmentSourceInvalid : AppError :=
  { code := "PAYOUT_ADJUSTMENT_SOURCE_INVALID", message := "Choose an existing trip credit" }

def recordNegativeAdjustment (auth : Authority) (sourceEntryId requestId : Id) (amount : Int)
    (currency : Currency) (reason : String) (actorUserId : Id) (now : Int) (s : Store) :
    Except AppError Store := do
  requireActiveAdmin auth actorUserId
  let _ ← reasonOf reason
  require (0 < amount ∧ amount ≤ 99999999999999)
    { code := "PAYOUT_ADJUSTMENT_AMOUNT_INVALID"
      message := "Enter a positive amount with at most two decimal places"
      statusCode := 422 }
  let source ← demand (s.entry? sourceEntryId)
    { code := "EARNINGS_LEDGER_ENTRY_NOT_FOUND"
      message := "Earnings ledger entry not found"
      statusCode := 404 }
  let tripId ← demand source.tripSessionId adjustmentSourceInvalid
  require (source.entryType ≠ .reversal ∧ source.status ≠ .voided) adjustmentSourceInvalid
  require (currency = source.currency)
    { code := "PAYOUT_ADJUSTMENT_CURRENCY_INVALID"
      message := "Use the source credit's currency"
      statusCode := 422 }
  let metadata : LedgerMetadata := { sourceEntryId := some source.id }
  match s.entry? requestId with
  | some existing =>
      require (existing.entryType = .reversal ∧ existing.amount = amount
          ∧ existing.currency = currency ∧ existing.ledgerMetadata = metadata)
        { code := "PAYOUT_ADJUSTMENT_RETRY_CONFLICT"
          message := "This adjustment reference has different details" }
      return s
  | none =>
      let entry : EarningsLedgerEntry :=
        { id := requestId
          driverProfileId := source.driverProfileId
          driverUserId := source.driverUserId
          tripSessionId := some tripId
          entryType := .reversal
          status := .available
          amount := amount
          currency := currency
          occurredAt := now
          ledgerMetadata := metadata }
      return cancelUncalledTripPayouts tripId (s.lockPayoutChains [tripId]) now
        { s with entries := s.entries ++ [entry] }

/-! ## Correction differentials -/

/-- One trip target of a correction: what the day recomputation asks to post. -/
structure DifferentialTarget where
  entryId : Id
  tripSessionId : Id
  deltaAmount : Int
  currency : Currency
  deriving DecidableEq, Repr

/-- The status of a new differential under a correction order. -/
def differentialStatus (s : Store) (driverProfileId : Id) (target : DifferentialTarget) :
    EarningsLedgerEntryStatus :=
  if target.deltaAmount > 0 then .pending
  else if s.entries.any (fun e => e.driverProfileId = driverProfileId
      && e.tripSessionId = some target.tripSessionId && e.currency = target.currency
      && e.status = .paid && e.entryType ≠ .reversal) then .available
  else
    match s.entries.find? (fun e =>
        e.tripSessionId = some target.tripSessionId && e.entryType = .tripPayout) with
    | some credit => if credit.status = .voided then .pending else credit.status
    | none => .pending

/-- One round of `write_day_differentials`. -/
def writeDifferential (chainBatchIds : List Id) (recomputeAt : Int) (s : Store)
    (target : DifferentialTarget) : Except AppError Store := do
  if target.deltaAmount = 0 then
    return s
  else
    let trip ← demand (s.trip? target.tripSessionId)
      { code := "TRIP_NOT_FOUND", message := "Trip was not found", statusCode := 404 }
    require (s.entry? target.entryId = none) entryKeyTaken
    let entry : EarningsLedgerEntry :=
      { id := target.entryId
        driverProfileId := trip.driverProfileId
        driverUserId := trip.driverUserId
        tripSessionId := some trip.id
        entryType := if target.deltaAmount > 0 then .adjustment else .reversal
        status := differentialStatus s trip.driverProfileId target
        amount := target.deltaAmount.natAbs
        currency := target.currency
        occurredAt := recomputeAt
        ledgerMetadata := { recomputeDay := true } }
    let posted := { s with entries := s.entries ++ [entry] }
    if target.deltaAmount > 0 then
      return posted
    else
      return cancelUncalledTripPayouts target.tripSessionId chainBatchIds recomputeAt posted

/-- `write_day_differentials` under a correction order, with the chains of every
target trip locked first. -/
def writeDayDifferentials (targets : List DifferentialTarget) (recomputeAt : Int) (s : Store) :
    Except AppError Store :=
  checkedFold (writeDifferential (s.lockPayoutChains (targets.map (·.tripSessionId))) recomputeAt)
    s targets

end Payout
end Mobility
