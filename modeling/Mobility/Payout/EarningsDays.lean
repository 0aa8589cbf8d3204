import Mathlib.Data.Finset.Option
import Mathlib.Data.Finset.Sort
import Mathlib.Data.Prod.Lex
import Mobility.Lib.Tallies
import Mobility.Payout.Positions

/-!
# EarningsDays — the driver's earnings by day of work (`driver_earnings_presentation.py`)

Awards are dated by the days they were worked on, cash and recoveries are settled per
whole trip.  `groupEarningsDays` first dates every row, then lets each trip correct its
own days: the zero floor of its pay, the cash shown for it and what is still to deduct.
-/

namespace Mobility
namespace Payout
namespace EarningsDays

open Lib

/-- A Lagos date. -/
abbrev Day := Int

/-- `EarningsWorkDayRead`. -/
structure WorkDay where
  day : Day
  amount : Int
  deriving DecidableEq, Repr

/-- A ledger row with what the presentation reads beside it: the day its metadata names,
the days of its calculation and how its payment stands. -/
structure LedgerRow where
  entry : EarningsLedgerEntry
  createdAt : Int
  lagosDay : Option Day := none
  amountByDay : Option (List WorkDay) := none
  paidAt : Option Int := none
  paymentOnHold : Bool := false
  payingTonight : Bool := false
  /-- a table constraint -/
  nonneg : 0 ≤ entry.amount
  deriving DecidableEq

/-- What a read can raise. -/
inductive EarningsFailure
  | app (error : AppError)
  | keyError
  | valueError
  | typeError
  deriving DecidableEq, Repr

def earningsUnavailable : EarningsFailure :=
  .app
    { code := "EARNINGS_DAYS_UNAVAILABLE"
      message := "Your complete earnings history could not be verified" }

/-! ## Days of work -/

def workDays (row : LedgerRow) : List WorkDay :=
  let amounts :=
    match row.entry.entryType with
    | .tripPayout => row.amountByDay.getD []
    | .adjustment | .reversal =>
        match row.lagosDay with
        | some day => [{ day := day, amount := row.entry.amount }]
        | none => []
  if amounts = [] ∨ (amounts.map (·.amount)).sum ≠ row.entry.amount then [] else amounts

def entrySign (entry : EarningsLedgerEntry) : Int :=
  if entry.status = .voided then 0 else if entry.entryType = .reversal then -1 else 1

/-- The signed allocations of a row. -/
def signedDays (row : LedgerRow) : List (Day × Int) :=
  (workDays row).map (fun allocation => (allocation.day, entrySign row.entry * allocation.amount))

/-! ## Groups -/

structure EarningsGroup where
  amount : Int := 0
  toDeduct : Int := 0
  cashPaid : Int := 0
  scopes : Finset TripScope := ∅
  deriving DecidableEq

abbrev GroupKey := Day × Currency

abbrev Groups := List (GroupKey × EarningsGroup)

namespace EarningsGroup

instance : Zero EarningsGroup := ⟨{}⟩

instance : Add EarningsGroup :=
  ⟨fun g g' =>
    { amount := g.amount + g'.amount
      toDeduct := g.toDeduct + g'.toDeduct
      cashPaid := g.cashPaid + g'.cashPaid
      scopes := g.scopes ∪ g'.scopes }⟩

@[simp]
theorem amount_add (g g' : EarningsGroup) : (g + g').amount = g.amount + g'.amount := rfl

@[simp]
theorem toDeduct_add (g g' : EarningsGroup) : (g + g').toDeduct = g.toDeduct + g'.toDeduct := rfl

@[simp]
theorem cashPaid_add (g g' : EarningsGroup) : (g + g').cashPaid = g.cashPaid + g'.cashPaid := rfl

@[simp]
theorem scopes_add (g g' : EarningsGroup) : (g + g').scopes = g.scopes ∪ g'.scopes := rfl

@[simp]
theorem amount_zero : (0 : EarningsGroup).amount = 0 := rfl

@[simp]
theorem toDeduct_zero : (0 : EarningsGroup).toDeduct = 0 := rfl

@[simp]
theorem cashPaid_zero : (0 : EarningsGroup).cashPaid = 0 := rfl

@[simp]
theorem scopes_zero : (0 : EarningsGroup).scopes = ∅ := rfl

@[ext]
theorem ext {g g' : EarningsGroup} (hamount : g.amount = g'.amount)
    (hdeduct : g.toDeduct = g'.toDeduct) (hcash : g.cashPaid = g'.cashPaid)
    (hscopes : g.scopes = g'.scopes) : g = g' := by
  cases g
  cases g'
  simp_all

/-- What is posted to a group adds up in any order. -/
instance : AddCommMonoid EarningsGroup where
  add_assoc a b c := by ext <;> simp [add_assoc]
  zero_add a := by ext <;> simp
  add_zero a := by ext <;> simp
  add_comm a b := by ext <;> simp [add_comm, or_comm]
  nsmul := nsmulRec

end EarningsGroup

/-- `groups[key][field] += …` of a group that was met before. -/
def postTo (groups : Groups) (posting : GroupKey × EarningsGroup) :
    Except EarningsFailure Groups := do
  require (posting.1 ∈ groups.map (·.1)) .keyError
  return addTo posting.1 posting.2 groups

/-- What a row posts to the days it was worked on. -/
def rowPostings (row : LedgerRow) : List (GroupKey × EarningsGroup) :=
  (workDays row).map (fun allocation =>
    ((allocation.day, row.entry.currency),
      { amount := entrySign row.entry * allocation.amount
        scopes := if allocation.amount = (0 : Int) then ∅ else {row.entry.scope} }))

/-! ## Money of one trip -/

/-- Newest deduction first. -/
def newerDeduction (row row' : LedgerRow) : Prop :=
  row'.entry.occurredAt < row.entry.occurredAt
    ∨ (row.entry.occurredAt = row'.entry.occurredAt
      ∧ (row'.createdAt < row.createdAt
        ∨ (row.createdAt = row'.createdAt ∧ row'.entry.id ≤ row.entry.id)))

instance : DecidableRel newerDeduction := fun _ _ => inferInstanceAs (Decidable (_ ∨ _))

/-- The loop of `overpaid_deductions`. -/
def takeDeductions : Int → List LedgerRow → List (LedgerRow × Int)
  | _, [] => []
  | remaining, row :: rest =>
      if remaining ≤ 0 then []
      else (row, min remaining row.entry.amount)
        :: takeDeductions (remaining - min remaining row.entry.amount) rest

def overpaidDeductions (members : List LedgerRow) (position : TripMoneyPosition) :
    List (LedgerRow × Int) :=
  takeDeductions position.debt
    ((members.filter (fun row => isManualDeduction row.entry
      && row.entry.status ≠ .voided)).insertionSort newerDeduction)

/-- A deduction is set against the one day it was recorded for. -/
def recoverDeduction (result : List (Day × Int)) (part : LedgerRow × Int) :
    Except EarningsFailure (List (Day × Int)) :=
  match workDays part.1 with
  | [allocation] => .ok (addTo allocation.day part.2 result)
  | _ => .error .valueError

/-- The days the members of a trip were worked on. -/
def memberDays (members : List LedgerRow) : List Day :=
  members.flatMap (fun row => (workDays row).map (·.day))

/-- Manual deductions keep their work day; other debt uses the first trip day. -/
def recoveryDays (members : List LedgerRow) (position : TripMoneyPosition) :
    Except EarningsFailure (List (Day × Int)) := do
  let result ← checkedFold recoverDeduction [] (overpaidDeductions members position)
  let firstDay ← demand (memberDays members).min? .valueError
  return addTo firstDay (position.debt - tallied result) result

/-- What a trip adds to the groups of its days. -/
structure TripDayMoney where
  firstDay : Day
  floor : Int
  cash : List (Day × Int)
  recoveries : List (Day × Int)
  deriving DecidableEq, Repr

/-- The cash shown for a trip: on its one day, or on all days once it covers the award. -/
def tripCash (position : TripMoneyPosition) (firstDay : Day) (amounts rawDebt : List (Day × Int)) :
    List (Day × Int) :=
  let paid := position.cashPaid + position.offsetsFunded
  if amounts.length = 1 then [(firstDay, paid)]
  else if paid ≥ position.earnedNet then
    amounts.map (fun entry => (entry.1, entry.2 + valueAt rawDebt entry.1))
  else []

def tripDayMoney (members : List LedgerRow) (position : TripMoneyPosition) :
    Except EarningsFailure TripDayMoney := do
  let amounts := addAll (·.1) (·.2) (members.flatMap signedDays) []
  let firstDay ← demand (amounts.map (·.1)).min? .valueError
  let floor := position.earnedNet - tallied amounts
  let amounts := addTo firstDay floor amounts
  let rawDebt ← recoveryDays members { position with offsetsReceived := 0 }
  let recoveries ← recoveryDays members position
  return {
    firstDay := firstDay
    floor := floor
    cash := tripCash position firstDay amounts rawDebt
    recoveries := recoveries }

def TripDayMoney.postings (money : TripDayMoney) (currency : Currency) :
    List (GroupKey × EarningsGroup) :=
  ((money.firstDay, currency), { amount := money.floor })
    :: money.cash.map (fun entry => ((entry.1, currency), { cashPaid := entry.2 }))
    ++ money.recoveries.map (fun entry => ((entry.1, currency), { toDeduct := entry.2 }))

def addTripDayMoney (groups : Groups) (members : List LedgerRow) (position : TripMoneyPosition)
    (currency : Currency) : Except EarningsFailure Groups := do
  let money ← tripDayMoney members position
  checkedFold postTo groups (money.postings currency)

/-! ## Payment of one trip -/

structure TripState where
  held : Bool
  paid : Bool
  tonight : Bool
  lastDate : Option Int
  released : Bool
  owing : Bool
  deriving DecidableEq, Repr

def outstanding (position : TripMoneyPosition) : Int :=
  max (position.earnedNet - position.settled) 0

/-- A row that keeps the money of its trip back. -/
def holdsTrip (heldTrips : List Id) (position : TripMoneyPosition) (row : LedgerRow) : Bool :=
  row.paymentOnHold || row.entry.status = .reversed
    || (row.entry.status = .paid && row.paidAt.isNone && position.offsetsFunded = 0)
    || row.entry.tripSessionId.any (· ∈ heldTrips)

def isHeld (heldTrips : List Id) (members : List LedgerRow) (position : TripMoneyPosition) :
    Bool :=
  0 < outstanding position && members.any (holdsTrip heldTrips position)

/-- `offsetAt` is when the last offset funded by the trip was written. -/
def tripState (heldTrips : List Id) (offsetAt : Option Int) (members : List LedgerRow)
    (position : TripMoneyPosition) : TripState :=
  let dates := members.filterMap (·.paidAt) ++ offsetAt.toList
  { held := isHeld heldTrips members position
    paid := 0 < position.cashPaid + position.offsetsFunded && outstanding position = 0
      && dates ≠ []
    tonight := members ≠ []
      && members.all (fun row => row.entry.status = .available && row.payingTonight)
    lastDate := dates.max?
    released := members ≠ []
      && members.all (fun row => row.entry.status = .available || row.entry.status = .paid)
    owing := 0 < outstanding position }

/-! ## The read -/

/-- The rows shown so far and the groups of their days. -/
structure Gathered where
  shown : List LedgerRow := []
  groups : Groups := []

/-- A voided row is left out unless cash was paid for its trip. -/
def gatherRow (positions : List (TripScope × TripMoneyPosition)) (state : Gathered)
    (row : LedgerRow) : Except EarningsFailure Gathered := do
  let position ← demand (positions.lookup row.entry.scope) .keyError
  if row.entry.status = .voided ∧ position.cashPaid = 0 then
    return state
  else
    require (workDays row ≠ []) earningsUnavailable
    return {
      shown := state.shown ++ [row]
      groups := addAll (·.1) (·.2) (rowPostings row) state.groups }

/-- The shown rows by trip, in the order in which the trips are met. -/
def tripMembers (shown : List LedgerRow) : List (TripScope × List LedgerRow) :=
  (orderedKeys (shown.map (·.entry.scope))).map (fun scope =>
    (scope, shown.filter (·.entry.scope = scope)))

structure Settled where
  groups : Groups
  states : List (TripScope × TripState) := []
  heldAmounts : List (Currency × Int) := []

def settleTrip (heldTrips : List Id) (offsetAt : TripScope → Option Int)
    (positions : List (TripScope × TripMoneyPosition)) (state : Settled)
    (trip : TripScope × List LedgerRow) : Except EarningsFailure Settled := do
  let position ← demand (positions.lookup trip.1) .keyError
  let groups ← addTripDayMoney state.groups trip.2 position trip.1.2
  let settled := tripState heldTrips (offsetAt trip.1) trip.2 position
  return {
    groups := groups
    states := state.states ++ [(trip.1, settled)]
    heldAmounts :=
      if settled.held then addTo trip.1.2 (outstanding position) state.heldAmounts
      else state.heldAmounts }

inductive DayStatus
  | onHold
  | paid
  | payingTonight
  | paymentPending
  | beingChecked
  deriving DecidableEq, Repr

structure EarningsDay where
  day : Day
  currency : Currency
  amount : Int
  status : DayStatus
  paidAt : Option Int
  tripIds : List Id
  cashPaid : Int
  toDeduct : Int
  deriving DecidableEq, Repr

def dayStatus (held paid tonight pending : Bool) : DayStatus :=
  if held then .onHold
  else if paid then .paid
  else if tonight then .payingTonight
  else if pending then .paymentPending
  else .beingChecked

def presentDay (states : List (TripScope × TripState)) (group : GroupKey × EarningsGroup) :
    Except EarningsFailure EarningsDay := do
  let scopes := group.2.scopes
  require (∀ scope ∈ scopes, (states.lookup scope).isSome) .keyError
  let ofScope (read : TripState → Bool) (scope : TripScope) : Bool :=
    (states.lookup scope).any read
  let held : Bool := decide (∃ scope ∈ scopes, ofScope (·.held) scope)
  let paid : Bool := decide (scopes.Nonempty ∧ ∀ scope ∈ scopes, ofScope (·.paid) scope)
  let tonight : Bool := decide (scopes.Nonempty ∧ ∀ scope ∈ scopes, ofScope (·.tonight) scope)
  let released : Bool := decide (scopes.Nonempty ∧ ∀ scope ∈ scopes, ofScope (·.released) scope)
  let owing : Bool := decide (∃ scope ∈ scopes, ofScope (·.owing) scope)
  let lastDate (scope : TripScope) : Option Int := (states.lookup scope).bind (·.lastDate)
  require (paid ∧ ¬ held → ∀ scope ∈ scopes, (lastDate scope).isSome) .typeError
  return {
    day := group.1.1
    currency := group.1.2
    amount := group.2.amount
    status := dayStatus held paid tonight (released && owing)
    paidAt :=
      if paid ∧ ¬ held then ((scopes.image lastDate).eraseNone.sort (· ≤ ·)).getLast? else none
    tripIds := (scopes.image (·.1)).eraseNone.sort (· ≤ ·)
    cashPaid := group.2.cashPaid
    toDeduct := group.2.toDeduct }

/-- `group_earnings_days`: the days, latest first, and the money on hold by currency. -/
def groupEarningsDays (rows : List LedgerRow) (heldTrips : List Id)
    (offsetAt : TripScope → Option Int) (positions : List (TripScope × TripMoneyPosition)) :
    Except EarningsFailure (List EarningsDay × List (Currency × Int)) := do
  let gathered ← checkedFold (gatherRow positions) {} rows
  let settled ← checkedFold (settleTrip heldTrips offsetAt positions) { groups := gathered.groups }
    (tripMembers gathered.shown)
  let days ← checkedMap (presentDay settled.states)
    (settled.groups.insertionSort (fun group group' => group.1.2 ≤ group'.1.2))
  return (days.insertionSort (fun day day' => day'.day ≤ day.day), settled.heldAmounts)

end EarningsDays
end Payout
end Mobility
