import Mobility.Lib.Totals
import Mobility.Payout.Batches

/-!
# Preview — what a selection of credits would pay (`services/payout_operations.py`)

`eligible_payment_entries` lists credits with the reasons why they cannot be paid;
`preview_payment_selection` adds up a selection and the debts it would settle.  Both are
advisory: they write nothing.  The names of drivers and campaigns are left out.
-/

namespace Mobility
namespace Payout

open Lib

/-! ## Eligible credits -/

structure PaymentItem where
  ledgerEntryId : Id
  driverProfileId : Id
  occurredAt : Int
  ledgerAmount : Int
  amount : Int
  currency : Currency
  bankAccountVersionId : Option Id
  ineligibilityReasons : List String
  deriving DecidableEq, Repr

def PaymentItem.eligible (item : PaymentItem) : Bool :=
  item.ineligibilityReasons.isEmpty

/-- `remaining_by_trip`, by trip and currency. -/
abbrev RemainingByTrip := Id × Currency → Option Int

/-- What the loop carries from row to row. -/
structure PageState where
  remainingByTrip : RemainingByTrip := fun _ => none
  items : List PaymentItem := []

/-- Why a trip gives nothing. -/
def nothingToPay (position : TripMoneyPosition) : String :=
  if 0 < position.reserved ∨ 0 < position.inFlight then "Already reserved or in flight"
  else if 0 < position.cashPaid then "Already paid"
  else "Nothing left to pay"

/-- What is left of a trip, read from its position the first time. -/
def pageRemaining (s : Store) (remainingByTrip : RemainingByTrip) (tripId : Id)
    (currency : Currency) : Int :=
  (remainingByTrip (tripId, currency)).getD (s.tripMoneyPosition tripId currency).batchPayable

/-- The amount of a row and what its trip says against it. -/
def tripShare (auth : Authority) (s : Store) (remainingByTrip : RemainingByTrip)
    (entry : EarningsLedgerEntry) : Int × List String :=
  match entry.tripSessionId with
  | none => (0, ["A trip source is required"])
  | some tripId =>
      let amount := min entry.amount (pageRemaining s remainingByTrip tripId entry.currency)
      let nothing :=
        if amount ≤ 0 then [nothingToPay (s.tripMoneyPosition tripId entry.currency)] else []
      let unassessed :=
        if auth.assessmentCurrent tripId then []
        else ["Current successful assessment required"]
      let held := if auth.held tripId then ["Active review hold"] else []
      (amount, nothing ++ unassessed ++ held)

/-- What the lines of a credit say against it. -/
def lineReasons (s : Store) (entry : EarningsLedgerEntry) (reasons : List String) : List String :=
  let lines := s.lines.filter (·.ledgerEntryId = entry.id)
  if lines.any (·.reservationActive) then
    if "Already reserved or in flight" ∈ reasons then [] else ["Already reserved or in flight"]
  else if lines.any (·.status = .failed) then ["Use the existing failed-line recovery"]
  else []

/-- What the payee's frozen versions say against a credit. -/
def payeeReasons : Except AppError (Id × Id) → List String
  | .ok _ => []
  | .error error => [error.message]

/-- The item that the loop of `eligible_payment_entries` makes of a row. -/
def pageItem (auth : Authority) (s : Store) (remainingByTrip : RemainingByTrip)
    (entry : EarningsLedgerEntry) : PaymentItem :=
  let share := tripShare auth s remainingByTrip entry
  let authority := auth.payeeAuthority entry.driverProfileId entry.driverUserId
  { ledgerEntryId := entry.id
    driverProfileId := entry.driverProfileId
    occurredAt := entry.occurredAt
    ledgerAmount := entry.amount
    amount := share.1
    currency := entry.currency
    bankAccountVersionId := authority.toOption.map (·.2)
    ineligibilityReasons := share.2 ++ lineReasons s entry share.2
      ++ payeeReasons authority }

/-- One round of the loop: the first row of a trip reads its position, and only an eligible
row takes from it. -/
def pageRow (auth : Authority) (s : Store) (st : PageState) (entry : EarningsLedgerEntry) :
    PageState :=
  let item := pageItem auth s st.remainingByTrip entry
  { remainingByTrip :=
      match entry.tripSessionId with
      | none => st.remainingByTrip
      | some tripId =>
          let remaining := pageRemaining s st.remainingByTrip tripId entry.currency
          let left := if item.eligible then remaining - item.amount else remaining
          fun scope =>
            if scope = (tripId, entry.currency) then some left else st.remainingByTrip scope
    items := st.items ++ [item] }

structure PaymentPage where
  items : List PaymentItem
  total : Nat
  limit : Nat
  offset : Nat
  pageEligibleTotals : List (Currency × Int)
  deriving DecidableEq, Repr

/-- Available credits that are positive, in the currency and selection asked for. -/
def payableQuery (currency : String) (entryIds : Option (List Id)) (s : Store) :
    List EarningsLedgerEntry :=
  s.entries.filter (fun e => decide (e.status = .available) && decide (e.entryType ≠ .reversal)
    && decide (0 < e.amount) && (currency = "" || e.currency = normalizeCurrency currency)
    && entryIds.all (e.id ∈ ·))

/-- `ORDER BY occurred_at, id`. -/
def byOccurrence (rows : List EarningsLedgerEntry) : List EarningsLedgerEntry :=
  rows.insertionSort
    (fun a b => a.occurredAt < b.occurredAt ∨ (a.occurredAt = b.occurredAt ∧ a.id ≤ b.id))

def pageItems (auth : Authority) (s : Store) (rows : List EarningsLedgerEntry) :
    List PaymentItem :=
  (rows.foldl (pageRow auth s) {}).items

def eligibleTotals (items : List PaymentItem) : List (Currency × Int) :=
  let eligible := items.filter (·.eligible)
  ((orderedKeys (eligible.map (·.currency))).insertionSort (· ≤ ·)).map (fun currency =>
    (currency, total (·.currency = currency) (·.amount) eligible))

/-- `eligible_payment_entries`, without the search by name. -/
def eligiblePaymentEntries (auth : Authority) (limit offset : Nat) (currency : String)
    (entryIds : Option (List Id)) (s : Store) : Except AppError PaymentPage := do
  require (1 ≤ limit ∧ limit ≤ 100)
    { code := "PAYOUT_PAGE_INVALID", message := "Choose a valid result page", statusCode := 422 }
  let query := payableQuery currency entryIds s
  let items := pageItems auth s (((byOccurrence query).drop offset).take limit)
  return {
    items := items
    total := query.length
    limit := limit
    offset := offset
    pageEligibleTotals := eligibleTotals items }

/-! ## The preview -/

structure PaymentPreview where
  currency : Currency
  totalAmount : Int
  earningsAmount : Int
  deductionAmount : Int
  ledgerEntryIds : List Id
  deriving DecidableEq, Repr

/-- All that a driver owes, over all trips. -/
def driverDebt (s : Store) (driverProfileId : Id) (currency : Currency) : Int :=
  ((s.driverRecoveryPositions driverProfileId currency).map (·.2.debt)).sum

/-- What the deduction loop carries: the debt left of each driver, and the deduction. -/
structure DeductionState where
  remaining : Id → Option Int := fun _ => none
  deduction : Int := 0

def deductItem (s : Store) (currency : Currency) (st : DeductionState) (item : PaymentItem) :
    DeductionState :=
  let remaining := (st.remaining item.driverProfileId).getD
    (driverDebt s item.driverProfileId currency)
  let part := min item.amount remaining
  { remaining := fun driver =>
      if driver = item.driverProfileId then some (remaining - part) else st.remaining driver
    deduction := st.deduction + part }

/-- `preview_payment_selection`. -/
def previewPaymentSelection (auth : Authority) (currency : String) (ledgerEntryIds : List Id)
    (s : Store) : Except AppError PaymentPreview := do
  require (1 ≤ ledgerEntryIds.length ∧ ledgerEntryIds.length ≤ 100 ∧ ledgerEntryIds.Nodup)
    { code := "PAYOUT_SELECTION_INVALID"
      message := "Select distinct available credits"
      statusCode := 422 }
  let projection ← eligiblePaymentEntries auth 100 0 currency (some ledgerEntryIds) s
  require (projection.total = ledgerEntryIds.length
      ∧ ∀ item ∈ projection.items, item.eligible = true)
    { code := "PAYOUT_ENTRY_INELIGIBLE"
      message := "A selected credit is no longer eligible" }
  let earnings := (projection.items.map (·.amount)).sum
  let deduction := (projection.items.foldl (deductItem s (normalizeCurrency currency)) {}).deduction
  return {
    currency := normalizeCurrency currency
    totalAmount := earnings - deduction
    earningsAmount := earnings
    deductionAmount := deduction
    ledgerEntryIds := orderBy (·) ledgerEntryIds }

end Payout
end Mobility
