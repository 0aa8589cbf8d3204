import Mathlib.Algebra.Group.Prod
import Mobility.Payout.DayAllocations

/-!
# AutomaticScan — which credits an automatic pass pays (`services/automatic_payouts.py`)

`cleanReason` looks for anything that a person has to decide; `scanEntry` then holds the
days of a clean credit against their ceilings; `scanCandidates` is the whole scan from the
stored cursor.  `automaticPass` books what the scan included through `runAutomaticPayouts`.
-/

namespace Mobility
namespace Payout
namespace DayCeiling

open Lib
open Trips (Day)

def maxCandidatesPerRun : Nat := 200

def maxEntriesScannedPerRun : Nat := 200

/-! ## Clean credits -/

inductive ExclusionReason
  | notDailyRate
  | adjustedTrip
  | fraudHold
  | fraudFlag
  | openDispute
  | assessmentNotCurrent
  | payeeUnverified
  | newBankDestination
  | cashPositionUnavailable
  | dailyLimit
  deriving DecidableEq, Repr

/-- What the fraud tables answer, beside `Authority`. -/
structure FraudRecords where
  /-- any flag on the trip -/
  flagged : Id → Bool
  /-- an open dispute of the driver -/
  openDispute : Id → Bool

/-- The outcome of `_clean_reason`. -/
inductive CleanReview
  | excluded (reason : ExclusionReason) (days : List (Day × Int))
  | clean (days : List (Day × Int)) (authority : Id × Id)
  deriving DecidableEq, Repr

def bankAccountPaidBefore (s : Store) (bankAccountVersionId : Id) : Bool :=
  s.lines.any (fun l => l.bankAccountVersionId = bankAccountVersionId && l.status = .succeeded)

section Scan

variable [TextReaders]

/-- The saved days of the credit are not the whole of its pay, or were corrected since. -/
def isAdjusted (s : Store) (books : PayBooks) (entry : EarningsLedgerEntry)
    (calculation : PayoutCalculation) (days : List (Day × Int)) : Except ReadError Bool := do
  let latest ← latestDailyRatePosition s books calculation
  if calculation.finalPayout ≠ entry.amount ∨ tallied days ≠ entry.amount then
    return true
  else
    let latestDays ← positiveDays (.object latest.amountByDay)
    -- dictionaries are equal whatever the order of their keys
    return ¬ latestDays.Perm days

/-- What the other rows of the trip, fraud review and the payee say of a credit: the reason that
excludes it, or the payee versions to pay. -/
def screenEntry (auth : Authority) (fraud : FraudRecords) (s : Store) (entry : EarningsLedgerEntry)
    (tripId : Id) : Except ExclusionReason (Id × Id) := do
  require (¬ s.entries.any (fun other => other.tripSessionId = some tripId
    && other.id ≠ entry.id && other.status ≠ .voided)) .adjustedTrip
  require (¬ auth.held tripId) .fraudHold
  require (¬ fraud.flagged tripId) .fraudFlag
  require (¬ fraud.openDispute entry.driverProfileId) .openDispute
  require (auth.assessmentCurrent tripId) .assessmentNotCurrent
  match auth.payeeAuthority entry.driverProfileId entry.driverUserId with
  | .error _ => throw .payeeUnverified
  | .ok authority =>
      require (bankAccountPaidBefore s authority.2) .newBankDestination
      return authority

/-- `_clean_reason`. -/
def cleanReason (auth : Authority) (fraud : FraudRecords) (s : Store) (books : PayBooks)
    (entry : EarningsLedgerEntry) : Except ReadError CleanReview :=
  match entry.tripSessionId, entry.payoutCalculationId.bind books.calculation? with
  | some tripId, some calculation =>
      if calculation.formulaVersion ≠ payoutV4 ∨ calculation.status ≠ .calculated
          ∨ calculation.tripSessionId ≠ tripId
          ∨ calculation.driverProfileId ≠ entry.driverProfileId then
        .ok (.excluded .notDailyRate [])
      else do
        let days ← positiveDays calculation.amountByDay.orEmpty
        let adjusted ← isAdjusted s books entry calculation days
        if adjusted then
          return .excluded .adjustedTrip days
        else
          match screenEntry auth fraud s entry tripId with
          | .error reason => return .excluded reason days
          | .ok authority => return .clean days authority
  | _, _ => .ok (.excluded .notDailyRate [])

/-! ## Candidates -/

/-- The candidate query, ordered by `occurred_at, id`. -/
def candidates (fraud : FraudRecords) (s : Store) (books : PayBooks) :
    List EarningsLedgerEntry :=
  (s.entries.filter (fun entry => isAutomaticCandidate s entry
    && (entry.payoutCalculationId.bind books.calculation?).any (·.formulaVersion = payoutV4)
    && !fraud.openDispute entry.driverProfileId
    && !entry.tripSessionId.any fraud.flagged)).insertionSort
      (fun a b => a.occurredAt < b.occurredAt ∨ (a.occurredAt = b.occurredAt ∧ a.id ≤ b.id))

/-- `tuple_(occurred_at, id) > cursor`. -/
def isAfter (cursor : Int × Id) (entry : EarningsLedgerEntry) : Bool :=
  cursor.1 < entry.occurredAt || (cursor.1 = entry.occurredAt && cursor.2 < entry.id)

/-- The rows of one scan: from the cursor to the end, then from the start to the cursor. -/
def scannedEntries (fraud : FraudRecords) (cursor : Option (Int × Id)) (s : Store)
    (books : PayBooks) : List EarningsLedgerEntry :=
  match cursor with
  | none => (candidates fraud s books).take maxEntriesScannedPerRun
  | some cursor =>
      -- the scan wraps around, so that no row starves
      let after := ((candidates fraud s books).filter (isAfter cursor)).take maxEntriesScannedPerRun
      let before := (candidates fraud s books).filter (fun e => !isAfter cursor e)
      after ++ before.take (maxEntriesScannedPerRun - after.length)

/-! ## The scan -/

/-- A credit that the pass pays, with its days and its payee versions. -/
structure Included where
  entry : EarningsLedgerEntry
  days : List (Day × Int)
  authority : Id × Id
  deriving DecidableEq, Repr

/-- The alerts of the scan; `raise_alert` keeps one for each dedupe key. -/
inductive DailyLimitAlert
  | cashPositionUnavailable (ledgerEntryId driverProfileId : Id) (amount : Int)
  | overLimit (ledgerEntryId driverProfileId : Id) (lagosDay : Day) (amount : Int)
      (position : DayPosition) (alreadyPaidOrSending : Int) (overCash : Bool)
  deriving DecidableEq, Repr

structure ScanState where
  included : List Included := []
  /-- the cash of each driver met so far, by day -/
  cash : List (Id × List (Day × Int)) := []
  /-- count and amount by reason -/
  exclusions : List (ExclusionReason × (Nat × Int)) := []
  alerts : List DailyLimitAlert := []
  nextCursor : Option (Int × Id) := none
  deriving DecidableEq, Repr

namespace ScanState

/-- `_Exclusions.add`. -/
def exclude (st : ScanState) (reason : ExclusionReason) (amount : Int) : ScanState :=
  { st with exclusions := addTo reason (1, amount) st.exclusions }

def alert (st : ScanState) (alert : DailyLimitAlert) : ScanState :=
  { st with alerts := st.alerts ++ [alert] }

end ScanState

/-- `ceiling is None or position.earned > ceiling or over_cash`. -/
def isOverLimit (position : DayPosition) (overCash : Bool) : Except ReadError Bool :=
  match position.ceiling with
  | none => .ok true
  | some ceiling => do
      let earned ← comparable position.earned
      return ceiling < earned || overCash

/-- The loop over the days of one credit: the alert about the first day that has no ceiling,
earned more than it, or would be paid beyond it. -/
def firstOverLimit (s : Store) (books : PayBooks) (entry : EarningsLedgerEntry)
    (driverCash days : List (Day × Int)) : List Day → Except ReadError (Option DailyLimitAlert)
  | [] => .ok none
  | day :: rest => do
      let position ← dayPosition s books entry.driverProfileId day
      let overCash := position.ceiling.any
        (fun ceiling => ceiling < valueAt driverCash day + valueAt days day)
      let limited ← isOverLimit position overCash
      if limited then
        return some (.overLimit entry.id entry.driverProfileId day entry.amount position
          (valueAt driverCash day) overCash)
      else
        firstOverLimit s books entry driverCash days rest

/-- A clean credit: excluded at its first day over the limit, else included. -/
def admitEntry (s : Store) (books : PayBooks) (st : ScanState) (item : Included) :
    Except ReadError ScanState :=
  let driver := item.entry.driverProfileId
  -- a driver met before keeps the cash of this pass
  match (st.cash.lookup driver).or (cashByDay s books driver) with
  | none =>
      .ok ((st.exclude .cashPositionUnavailable item.entry.amount).alert
        (.cashPositionUnavailable item.entry.id driver item.entry.amount))
  | some driverCash => do
      let st := { st with cash := setTo driver driverCash st.cash }
      let overLimit ← firstOverLimit s books item.entry driverCash item.days
        ((item.days.map (·.1)).insertionSort (· ≤ ·))
      match overLimit with
      | some alert => return (st.alert alert).exclude .dailyLimit item.entry.amount
      | none =>
          return { st with
            cash := setTo driver (addAll (·.1) (·.2) item.days driverCash) st.cash
            included := st.included ++ [item] }

/-- One round of the scan; a full pass leaves the other rows alone. -/
def scanEntry (auth : Authority) (fraud : FraudRecords) (s : Store) (books : PayBooks)
    (st : ScanState) (entry : EarningsLedgerEntry) : Except ReadError ScanState :=
  if maxCandidatesPerRun ≤ st.included.length then .ok st
  else
    -- the cursor moves past rows that are left out as well
    let st := { st with nextCursor := some (entry.occurredAt, entry.id) }
    if entry.status ≠ .available ∨ entry.entryType ≠ .tripPayout ∨ entry.amount ≤ 0 then .ok st
    else do
      let review ← cleanReason auth fraud s books entry
      match review with
      | .excluded reason _ => return st.exclude reason entry.amount
      | .clean days authority =>
          admitEntry s books st { entry := entry, days := days, authority := authority }

def scanCandidates (auth : Authority) (fraud : FraudRecords) (cursor : Option (Int × Id))
    (s : Store) (books : PayBooks) : Except ReadError ScanState :=
  checkedFold (scanEntry auth fraud s books) { nextCursor := cursor }
    (scannedEntries fraud cursor s books)

/-! ## The pass -/

structure AutomaticControl where
  actorValid : Bool
  paused : Bool
  candidateCursor : Option (Int × Id) := none
  deriving DecidableEq, Repr

/-- The checks before the scan. -/
def passOpens (control : AutomaticControl) (capabilities : DisbursementProviderCapabilities)
    (period : String) (s : Store) : Bool :=
  control.actorValid && !control.paused && !s.automaticRuns.any (·.periodKey = period)
    && (submissionCapabilities capabilities).isOk

/-- What the scan tells the booking of the batches. -/
def ScanState.review (scan : ScanState) (control : AutomaticControl) : AutomaticReview :=
  { actorValid := control.actorValid
    paused := control.paused
    admitted := fun entry => (scan.included.find? (·.entry = entry)).map (·.authority) }

/-- An exception that nothing catches. -/
def uncaught (error : ReadError) : AppError :=
  { code :=
      match error with
      | .valueError => "ValueError"
      | .typeError => "TypeError"
      | .invalidOperation => "InvalidOperation"
      | .attributeError => "AttributeError"
    message := "Internal Server Error"
    statusCode := 500 }

/-- `run_automatic_payouts` from its scan on: `none` beside the unchanged store when a check
before the scan stops the pass. -/
def automaticPass [Hashing] (auth : Authority) (fraud : FraudRecords) (control : AutomaticControl)
    (capabilities : DisbursementProviderCapabilities) (runId : Id) (period : String)
    (batchId lineId : Id → Id) (now : Int) (s : Store) (books : PayBooks) :
    Except AppError (Option ScanState × Store) :=
  if passOpens control capabilities period s then
    match scanCandidates auth fraud control.candidateCursor s books with
    | .error error => .error (uncaught error)
    | .ok scan => do
        let booked ← runAutomaticPayouts (scan.review control) capabilities runId period
          batchId lineId now s
        return (some scan, booked)
  else
    .ok (none, s)

end Scan

end DayCeiling
end Payout
end Mobility
