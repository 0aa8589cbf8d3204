import Mobility.Payout.Types

/-!
# Balances — trip worth, verified cash and recovery offsets (`services/payout_balances.py`)

`tripCashPosition` is the arithmetic of one trip in one currency;
`tripMoneyPositions` groups ledger entries by trip and feeds it the lines and
offsets of each group.
-/

namespace Mobility
namespace Payout

structure TripMoneyPosition where
  unpaidAuthority : Int := 0
  earnedNet : Int := 0
  releasedAvailable : Int := 0
  reserved : Int := 0
  inFlight : Int := 0
  terminalFailed : Int := 0
  cashPaid : Int := 0
  batchPayable : Int := 0
  offsetsFunded : Int := 0
  offsetsReceived : Int := 0
  deriving DecidableEq, Repr

namespace TripMoneyPosition

def settled (p : TripMoneyPosition) : Int :=
  p.cashPaid + p.offsetsFunded - p.offsetsReceived

def debt (p : TripMoneyPosition) : Int :=
  max (p.settled - p.earnedNet) 0

end TripMoneyPosition

/-! ## Trip worth -/

def isManualDeduction (entry : EarningsLedgerEntry) : Bool :=
  entry.entryType = .reversal && entry.ledgerMetadata.sourceEntryId.isSome
    && !entry.ledgerMetadata.recomputeDay

/-- The running totals of `_trip_awards`. -/
structure TripAwards where
  earned : Int := 0
  manualDeductions : Int := 0
  released : Int := 0
  negatives : Int := 0
  deriving DecidableEq, Repr

def TripAwards.add (a : TripAwards) (entry : EarningsLedgerEntry) : TripAwards :=
  if entry.status = .voided then a
  else if entry.entryType = .reversal then
    if isManualDeduction entry then
      { a with
        negatives := a.negatives + entry.amount
        manualDeductions := a.manualDeductions + entry.amount }
    else
      { a with
        negatives := a.negatives + entry.amount
        earned := a.earned - entry.amount }
  else if entry.status = .available ∨ entry.status = .paid then
    { a with
      earned := a.earned + entry.amount
      released := a.released + entry.amount }
  else
    { a with earned := a.earned + entry.amount }

def tripAwards (entries : List EarningsLedgerEntry) : TripAwards :=
  entries.foldl TripAwards.add {}

/-- Recomputed pay less explicit deductions, floored at zero. -/
def TripAwards.earnedNet (a : TripAwards) : Int :=
  max (a.earned - a.manualDeductions) 0

/-! ## Cash position of one trip -/

def totalAmount (lines : List PayoutBatchLine) : Int :=
  (lines.map (·.amount)).sum

def intentHasUnknownEffect (intent : Option PayoutSubmissionIntent) : Bool :=
  match intent with
  | none => false
  | some i => i.state = .claimed || i.state = .queryOnly

def isPaid (line : PayoutBatchLine) : Bool :=
  line.status = .succeeded

def isInFlight (line : PayoutBatchLine) : Bool :=
  !isPaid line && line.reservationActive
    && (line.status = .submitted || intentHasUnknownEffect line.intent)

def isReserved (line : PayoutBatchLine) : Bool :=
  !isPaid line && line.reservationActive
    && !(line.status = .submitted || intentHasUnknownEffect line.intent)

/-- A failed line that no replacement names as its predecessor. -/
def isTerminalFailed (lines : List PayoutBatchLine) (line : PayoutBatchLine) : Bool :=
  !isPaid line && !line.reservationActive && line.status = .failed
    && !(lines.any (fun l => l.predecessorLineId = some line.id))

def tripCashPosition (entries : List EarningsLedgerEntry) (lines : List PayoutBatchLine)
    (offsetsFunded offsetsReceived : Int) : TripMoneyPosition :=
  let awards := tripAwards entries
  let earned := awards.earnedNet
  let paid := totalAmount (lines.filter isPaid)
  let reserved := totalAmount (lines.filter isReserved)
  let inFlight := totalAmount (lines.filter isInFlight)
  let failed := totalAmount (lines.filter (isTerminalFailed lines))
  let settled := paid + offsetsFunded - offsetsReceived
  let releasedNet := max (min (awards.released - awards.negatives) earned) 0
  let remaining := max (releasedNet - settled) 0
  let payable := max (remaining - reserved - inFlight) 0
  { earnedNet := earned
    unpaidAuthority := remaining
    releasedAvailable := payable - min failed payable
    reserved := reserved
    inFlight := inFlight
    terminalFailed := min failed payable
    cashPaid := paid
    batchPayable := payable
    offsetsFunded := offsetsFunded
    offsetsReceived := offsetsReceived }

/-! ## Positions of a selection of entries -/

abbrev TripScope := Option Id × Currency

def EarningsLedgerEntry.scope (entry : EarningsLedgerEntry) : TripScope :=
  (entry.tripSessionId, entry.currency)

/-- Keys in the order in which they are first met, as a dictionary keeps them. -/
def orderedKeys {κ : Type} [DecidableEq κ] : List κ → List κ
  | [] => []
  | k :: ks => k :: (orderedKeys ks).filter (· ≠ k)

namespace Store

/-- Lines of the selected entries (`ledger_entry_id IN …`). -/
def linesOf (s : Store) (entries : List EarningsLedgerEntry) : List PayoutBatchLine :=
  s.lines.filter (fun l => entries.any (fun e => e.id = l.ledgerEntryId))

/-- The funding entry of an offset, unless it was voided. -/
def fundingEntry? (s : Store) (offset : PayoutRecoveryOffset) : Option EarningsLedgerEntry :=
  (s.entry? offset.fundingEntryId).filter (fun e => e.status ≠ .voided)

def fundedBy (s : Store) (scope : TripScope) (offset : PayoutRecoveryOffset) : Bool :=
  match s.fundingEntry? offset with
  | none => false
  | some e => e.tripSessionId = scope.1 && offset.currency = scope.2

def receivedBy (s : Store) (scope : TripScope) (offset : PayoutRecoveryOffset) : Bool :=
  (s.fundingEntry? offset).isSome && some offset.sourceTripId = scope.1
    && offset.currency = scope.2

def offsetsFunded (s : Store) (scope : TripScope) : Int :=
  ((s.offsets.filter (s.fundedBy scope)).map (·.amount)).sum

def offsetsReceived (s : Store) (scope : TripScope) : Int :=
  ((s.offsets.filter (s.receivedBy scope)).map (·.amount)).sum

def tripMoneyPositions (s : Store) (entries : List EarningsLedgerEntry) :
    List (TripScope × TripMoneyPosition) :=
  (orderedKeys (entries.map (·.scope))).map fun scope =>
    let tripEntries := entries.filter (·.scope = scope)
    (scope, tripCashPosition tripEntries (s.linesOf tripEntries)
      (s.offsetsFunded scope) (s.offsetsReceived scope))

/-- `trip_money_position`: the position of one trip in one currency. -/
def tripMoneyPosition (s : Store) (tripSessionId : Id) (currency : Currency) :
    TripMoneyPosition :=
  let entries := s.entries.filter (·.scope = (some tripSessionId, currency))
  ((s.tripMoneyPositions entries).lookup (some tripSessionId, currency)).getD {}

/-- Entries of one driver in one currency by `occurred_at, id`. -/
def driverEntries (s : Store) (driverProfileId : Id) (currency : Currency) :
    List EarningsLedgerEntry :=
  (s.entries.filter (fun e => e.driverProfileId = driverProfileId ∧ e.currency = currency)).insertionSort
    (fun a b => a.occurredAt < b.occurredAt ∨ (a.occurredAt = b.occurredAt ∧ a.id ≤ b.id))

def driverRecoveryPositions (s : Store) (driverProfileId : Id) (currency : Currency) :
    List (TripScope × TripMoneyPosition) :=
  s.tripMoneyPositions (s.driverEntries driverProfileId currency)

end Store

/-! ## Recovery offsets -/

/-- Who asks for a recovery: an admin, or one automatic run. -/
structure RecoveryRequest where
  requestId : Id
  actorUserId : Option Id := none
  automaticRunId : Option Id := none
  deriving DecidableEq, Repr

/-- The loop of `allocate_payout_recovery`: each other trip in debt takes what it
still owes, until nothing remains.  Returns the new offsets and the rest. -/
def recoveryOffsets (entry : EarningsLedgerEntry) (request : RecoveryRequest) :
    List (TripScope × TripMoneyPosition) → Int → List PayoutRecoveryOffset × Int
  | [], remaining => ([], remaining)
  | (scope, position) :: rest, remaining =>
      match scope.1 with
      | none => recoveryOffsets entry request rest remaining
      | some tripId =>
          if some tripId = entry.tripSessionId ∨ position.debt ≤ 0 then
            recoveryOffsets entry request rest remaining
          else
            let amount := min remaining position.debt
            if amount ≤ 0 then
              ([], remaining)
            else
              let offset : PayoutRecoveryOffset :=
                { sourceTripId := tripId
                  fundingEntryId := entry.id
                  driverProfileId := entry.driverProfileId
                  amount := amount
                  currency := scope.2
                  requestId := request.requestId
                  actorUserId := request.actorUserId
                  automaticRunId := request.automaticRunId }
              let (offsets, left) := recoveryOffsets entry request rest (remaining - amount)
              (offset :: offsets, left)

/-- `allocate_payout_recovery`: returns the store with the offsets written and
what is left to pay in cash; an entry with nothing left is settled. -/
def allocatePayoutRecovery (s : Store) (entry : EarningsLedgerEntry) (payable : Int)
    (request : RecoveryRequest) : Store × Int :=
  let positions := s.driverRecoveryPositions entry.driverProfileId entry.currency
  let (offsets, remaining) := recoveryOffsets entry request positions payable
  let s := { s with offsets := s.offsets ++ offsets }
  if remaining = 0 then
    (s.updateEntry entry.id (fun e => { e with status := .paid }), remaining)
  else
    (s, remaining)

end Payout
end Mobility
