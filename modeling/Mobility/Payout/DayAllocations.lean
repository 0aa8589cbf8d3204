import Mobility.Lib.Rounding
import Mobility.Lib.Tallies
import Mobility.Payout.Automatic
import Mobility.Trips.Types

/-!
# DayAllocations — what pay was saved for which day (`services/automatic_payouts.py`)

A calculation keeps its money by Lagos day as stored JSON, from ISO dates to decimal
strings.  `dayPosition` adds up what a driver earned on a day and its day rates;
`cashByDay` charges the driver's payout lines to the days of their calculations.

* A JSON value is its `str`, which is all `_money` looks at.
* Sums are whole hundredths; below 10^26 naira `Decimal` adds exactly too.
-/

namespace Mobility
namespace Payout
namespace DayCeiling

open Lib
open Trips (Day PayoutCalculationStatus PayoutCorrectionOrderStatus lagosDayUtcRange)

def payoutV4 : String := "payout_v4"

/-! ## Stored text -/

/-- What reading a stored value can raise. -/
inductive ReadError
  | valueError
  | typeError
  | invalidOperation
  | attributeError
  deriving DecidableEq, Repr

inductive Decimal
  | finite (value : ℚ)
  | infinity
  | nan
  | signalingNaN
  deriving DecidableEq

/-- The readers of the standard library; nothing is assumed about them. -/
class TextReaders where
  /-- `date.fromisoformat`, `none` for a `ValueError` -/
  fromIsoFormat : String → Option Day
  isoFormat : Day → String
  /-- `Decimal(text)`, `none` for an `InvalidOperation` -/
  decimal : String → Option Decimal

/-- Whole hundredths, or `none` for a NaN. -/
abbrev Money := Option Int

/-- `.quantize(Decimal("0.01"))`: half even, at most 28 digits. -/
def quantize : Decimal → Except ReadError Money
  | .finite value =>
      if |roundHalfEven (value * 100)| < 10 ^ 28 then .ok (some (roundHalfEven (value * 100)))
      else .error .invalidOperation
  | .infinity => .error .invalidOperation
  | .nan => .ok none
  | .signalingNaN => .error .invalidOperation

/-- The order comparisons of `Decimal` raise on a NaN. -/
def comparable (amount : Money) : Except ReadError Int :=
  demand amount .invalidOperation

/-- `amount_by_day` as it was stored. -/
inductive StoredDays
  /-- `null`, or another value that counts as false -/
  | absent
  | object (items : List (String × String))
  /-- anything else, with what `dict` reads from it -/
  | other (pairs : Option (List (String × String)))
  deriving DecidableEq, Repr

namespace StoredDays

/-- `… or {}`. -/
def orEmpty : StoredDays → StoredDays
  | absent => object []
  | stored => stored

def isFalse : StoredDays → Bool
  | absent => true
  | object items => items.isEmpty
  | other _ => false

def items : StoredDays → Except ReadError (List (String × String))
  | absent => .error .attributeError
  | object items => .ok items
  | other _ => .error .attributeError

/-- `dict(…)`. -/
def dict : StoredDays → Except ReadError (List (String × String))
  | absent => .error .typeError
  | object items => .ok items
  -- a list of pairs is a dictionary too, anything else is a `TypeError`
  | other pairs => demand pairs .typeError

end StoredDays

/-! ## Rows -/

structure PayoutCalculation where
  id : Id
  tripSessionId : Id
  driverProfileId : Id
  assignmentId : Id
  campaignId : Id
  formulaVersion : String := payoutV4
  status : PayoutCalculationStatus
  finalPayout : Int
  distanceMByDay : StoredDays := .object []
  amountByDay : StoredDays
  calculatedAt : Int
  deriving DecidableEq, Repr

/-- The `breakdown` of a recompute-day ledger entry. -/
structure RecomputeBreakdown where
  ledgerEntryId : Id
  payoutCalculationId : Id
  formulaVersion : String := payoutV4
  /-- `none` unless it is an object -/
  distanceMByDay : Option (List (String × String))
  amountByDay : StoredDays
  deriving DecidableEq, Repr

/-- A trip's line of `execution_result`. -/
structure ExecutionResultTrip where
  tripSessionId : Id
  payoutCalculationId : Id
  distanceMByDay : Option (List (String × String))
  amountByDay : StoredDays
  deriving DecidableEq, Repr

structure PayoutCorrectionOrder where
  campaignId : Id
  status : PayoutCorrectionOrderStatus
  executedAt : Option Int := none
  trips : List ExecutionResultTrip := []
  deriving DecidableEq, Repr

structure AssignmentRuleBinding where
  assignmentId : Id
  formulaVersion : String := payoutV4
  dailyRateNaira : Option Int
  deriving DecidableEq, Repr

structure TripTimes where
  tripSessionId : Id
  startedAt : Int
  endedAt : Option Int := none
  deriving DecidableEq, Repr

/-- The pay rows beside the payout tables. -/
structure PayBooks where
  calculations : List PayoutCalculation := []
  trips : List TripTimes := []
  bindings : List AssignmentRuleBinding := []
  breakdowns : List RecomputeBreakdown := []
  orders : List PayoutCorrectionOrder := []
  deriving DecidableEq, Repr

namespace PayBooks

def calculation? (books : PayBooks) (id : Id) : Option PayoutCalculation :=
  books.calculations.find? (·.id = id)

/-- A trip with a payout_v4 calculation. -/
def isDailyRateTrip (books : PayBooks) (tripSessionId : Option Id) : Bool :=
  books.calculations.any
    (fun c => some c.tripSessionId = tripSessionId && c.formulaVersion = payoutV4)

/-- `_day_trip_overlap([day])` for the trip of a calculation. -/
def overlapsDay (books : PayBooks) (tripSessionId : Id) (day : Day) : Bool :=
  books.trips.any (fun trip => trip.tripSessionId = tripSessionId
    && trip.startedAt < (lagosDayUtcRange day).2
    && trip.endedAt.getD trip.startedAt ≥ (lagosDayUtcRange day).1)

end PayBooks

/-! ## The latest position of a calculation (`services/payouts/ledger.py`) -/

structure DailyRatePosition where
  distanceMByDay : List (String × String)
  amountByDay : List (String × String)
  deriving DecidableEq, Repr

/-- The best position so far, once a newer one is met. -/
def positionFrom (moment : Int) (distance : List (String × String)) (amount : StoredDays) :
    Except ReadError (Option Int × DailyRatePosition) := do
  let amount ← amount.orEmpty.dict
  return (some moment, { distanceMByDay := distance, amountByDay := amount })

/-- One adjustment or reversal of the trip. -/
def readEntry (books : PayBooks) (calculation : PayoutCalculation)
    (best : Option Int × DailyRatePosition) (entry : EarningsLedgerEntry) :
    Except ReadError (Option Int × DailyRatePosition) :=
  match books.breakdowns.find? (·.ledgerEntryId = entry.id) with
  | none => .ok best
  | some breakdown =>
      match breakdown.distanceMByDay with
      | none => .ok best
      | some distance =>
          if entry.ledgerMetadata.recomputeDay ∧ breakdown.payoutCalculationId = calculation.id
              ∧ breakdown.formulaVersion = payoutV4 ∧ best.1.all (· < entry.occurredAt) then
            positionFrom entry.occurredAt distance breakdown.amountByDay
          else
            .ok best

/-- One executed order: each line about the calculation replaces the one before. -/
def readOrder (calculation : PayoutCalculation) (best : Option Int × DailyRatePosition)
    (order : PayoutCorrectionOrder) : Except ReadError (Option Int × DailyRatePosition) :=
  match order.executedAt with
  | none => .ok best
  | some executedAt =>
      if best.1.all (· < executedAt) then
        checkedFold (fun best trip =>
          match trip.distanceMByDay with
          | none => .ok best
          | some distance =>
              if trip.tripSessionId = calculation.tripSessionId
                  ∧ trip.payoutCalculationId = calculation.id then
                positionFrom executedAt distance trip.amountByDay
              else
                .ok best) best order.trips
      else
        .ok best

def latestDailyRatePosition (s : Store) (books : PayBooks) (calculation : PayoutCalculation) :
    Except ReadError DailyRatePosition := do
  -- the saved days count until a correction replaces them
  let distance ← calculation.distanceMByDay.orEmpty.dict
  let amount ← calculation.amountByDay.orEmpty.dict
  let best ← checkedFold (readEntry books calculation)
    (none, { distanceMByDay := distance, amountByDay := amount })
    (s.entries.filter (fun e => e.tripSessionId = some calculation.tripSessionId
      ∧ e.status ≠ .voided ∧ (e.entryType = .adjustment ∨ e.entryType = .reversal)))
  let best ← checkedFold (readOrder calculation) best
    (books.orders.filter (fun order => order.campaignId = calculation.campaignId
      ∧ order.status = .executed))
  return best.2

section Reading

variable [TextReaders]

open TextReaders

/-- `_money`. -/
def money (text : String) : Except ReadError Money := do
  let value ← demand (decimal text) .invalidOperation
  quantize value

/-- `_positive_days`. -/
def positiveDays (amountByDay : StoredDays) : Except ReadError (List (Day × Int)) := do
  let items ← amountByDay.items
  checkedFold (fun days item => do
    let value ← money item.2
    let amount ← comparable value
    -- days without pay, and clawed back ones, are no days of the credit
    if 0 < amount then
      let day ← demand (fromIsoFormat item.1) .valueError
      return setTo day amount days
    else
      return days) [] items

/-! ## What a driver earned on a day -/

structure DayPosition where
  earned : Money := some 0
  /-- a set -/
  rates : List Int := []
  mixed : Bool := false
  missingBinding : Bool := false
  deriving DecidableEq, Repr

def DayPosition.ceiling (position : DayPosition) : Option Int :=
  if position.mixed || position.missingBinding || position.rates.length ≠ 1 then none
  else position.rates.head?

/-- The trip has a trip payout that counts toward its day. -/
def countedTripPayout (s : Store) (tripSessionId : Id) : Bool :=
  s.entries.any (fun e => e.tripSessionId = some tripSessionId && e.entryType = .tripPayout
    && (e.status = .pending || e.status = .available || e.status = .paid || e.status = .reversed))

/-- One calculation of the driver that overlaps the day. -/
def addCalculation (s : Store) (books : PayBooks) (day : Day) (position : DayPosition)
    (calculation : PayoutCalculation) : Except ReadError DayPosition :=
  if calculation.formulaVersion ≠ payoutV4 then
    -- a trip on another formula leaves the day without a ceiling
    .ok { position with mixed := true }
  else if calculation.status ≠ .calculated then
    .ok position
  else do
    let latest ← latestDailyRatePosition s books calculation
    let amount ← money ((latest.amountByDay.lookup (isoFormat day)).getD "0")
    let earned := Option.map₂ (· + ·) position.earned amount
    match (books.bindings.find? (fun b => b.assignmentId = calculation.assignmentId
        && b.formulaVersion = payoutV4)).bind (·.dailyRateNaira) with
    | none => return { position with earned := earned, missingBinding := true }
    | some rate =>
        -- the rate column has two decimals, so `_money` leaves it as it is
        if rate ∈ position.rates then
          return { position with earned := earned }
        else
          return { position with earned := earned, rates := position.rates ++ [rate] }

/-- `_day_position`. -/
def dayPosition (s : Store) (books : PayBooks) (driverProfileId : Id) (day : Day) :
    Except ReadError DayPosition :=
  checkedFold (addCalculation s books day) {}
    ((books.calculations.filter (fun c => c.driverProfileId = driverProfileId
      && books.overlapsDay c.tripSessionId day
      && countedTripPayout s c.tripSessionId)).insertionSort
        (fun c c' => c.calculatedAt < c'.calculatedAt
          ∨ (c.calculatedAt = c'.calculatedAt ∧ c.id ≤ c'.id)))

/-! ## What was paid for a day -/

/-- A line that holds or has moved cash. -/
def isLive (line : PayoutBatchLine) : Bool :=
  line.status ≠ .void && line.status ≠ .failed

/-- The rows of the query: the driver's live lines of daily-rate trips, with their entries. -/
def cashRows (s : Store) (books : PayBooks) (driverProfileId : Id) :
    List (PayoutBatchLine × EarningsLedgerEntry) :=
  s.lines.filterMap (fun line =>
    ((s.entry? line.ledgerEntryId).filter (fun entry =>
      isLive line && entry.currency = automaticCurrency
        && entry.driverProfileId = driverProfileId
        && books.isDailyRateTrip entry.tripSessionId)).map (fun entry => (line, entry)))

/-- The calculations whose days a line is charged to: the entry's own, or for a correction all
payout_v4 calculations of its driver's trip.  `none` when the entry's own is about another trip
or driver. -/
def rowCalculations (books : PayBooks) (entry : EarningsLedgerEntry) :
    Option (List PayoutCalculation) :=
  match entry.payoutCalculationId with
  | none =>
      some (books.calculations.filter (fun c => some c.tripSessionId = entry.tripSessionId
        && c.driverProfileId = entry.driverProfileId && c.formulaVersion = payoutV4))
  | some id =>
      match books.calculation? id with
      | none => none
      | some calculation =>
          if some calculation.tripSessionId ≠ entry.tripSessionId
              ∨ calculation.driverProfileId ≠ entry.driverProfileId then none
          else some [calculation]

/-- The dictionary that the `try` block reads from one allocation.  A NaN raises only where its
sign is tested, with the same outcome. -/
def parseAllocation (allocation : StoredDays) : Except ReadError (List (Day × Int)) := do
  let items ← allocation.items
  checkedFold (fun days item => do
    let day ← demand (fromIsoFormat item.1) .valueError
    let value ← money item.2
    let amount ← comparable value
    return setTo day amount days) [] items

/-- `none` for a missing, malformed or negative allocation. -/
def readAllocation (allocation : StoredDays) : Option (List (Day × Int)) :=
  if allocation.isFalse then none
  else
    match parseAllocation allocation with
    -- every exception of the `try` block makes the cash unknown
    | .error _ => none
    | .ok parsed => if parsed.any (·.2 < 0) then none else some parsed

/-- `days.update(parsed)` for each allocation. -/
def gatherDays : List StoredDays → List (Day × Int) → Option (List (Day × Int))
  | [], days => some days
  | allocation :: rest, days =>
      (readAllocation allocation).bind (fun parsed => gatherDays rest (setAll parsed days))

/-- What one line charges to which day. -/
def lineCharges (books : PayBooks) (line : PayoutBatchLine) (entry : EarningsLedgerEntry) :
    Option (List (Day × Int)) := do
  let conservative := entry.payoutCalculationId.isNone
  let calculations ← rowCalculations books entry
  if calculations = [] then none
  else
    let days ← gatherDays (calculations.map (·.amountByDay)) []
    if days = [] then none
    else
      -- a correction, or a line paid in part, is charged whole to each of its days
      let consistent := !conservative && tallied days = line.amount
      return days.map (fun day => (day.1, if consistent then day.2 else line.amount))

/-- The loop over the rows. -/
def chargeRows (books : PayBooks) :
    List (PayoutBatchLine × EarningsLedgerEntry) → List (Day × Int) → Option (List (Day × Int))
  | [], totals => some totals
  | row :: rows, totals =>
      (lineCharges books row.1 row.2).bind
        (fun charges => chargeRows books rows (addAll (·.1) (·.2) charges totals))

/-- `_cash_by_day`. -/
def cashByDay (s : Store) (books : PayBooks) (driverProfileId : Id) :
    Option (List (Day × Int)) :=
  chargeRows books (cashRows s books driverProfileId) []

end Reading

end DayCeiling
end Payout
end Mobility
