import Mobility.Billing.Types
import Mobility.Lib.Totals

/-!
# Receipts — cash, from observation to allocation (`billing/queries.py`, `receipts.py`,
`gateway.py`)

A receipt is recorded, confirmed and possibly reversed; each is one lifecycle event.
Allocations to commercial terms are immutable and outlive the reversal of their receipt.
-/

namespace Mobility
namespace Billing

open Lib
open Payout (Currency Digest Reference)
open Trips (instantThenId uniqueViolation)

/-! ## Queries -/

/-- `RECEIPT_SEQUENCE`. -/
def receiptSequence : ReceiptLifecycleStatus → Nat
  | .recorded => 1
  | .confirmed => 2
  | .reversed => 3

/-- `_receipt_status`: the event with the highest sequence number. -/
def receiptStatus (s : Store) (receiptId : Id) : Option ReceiptLifecycleStatus :=
  ((s.receiptEvents.filter (·.receiptId = receiptId)).insertionSort
    (fun event event' => event'.sequenceNumber ≤ event.sequenceNumber)).head?.map (·.status)

def HasEvent (s : Store) (receiptId : Id) (status : ReceiptLifecycleStatus) : Prop :=
  ∃ event ∈ s.receiptEvents, event.receiptId = receiptId ∧ event.status = status

instance (s : Store) (receiptId : Id) (status : ReceiptLifecycleStatus) :
    Decidable (HasEvent s receiptId status) :=
  inferInstanceAs (Decidable (∃ event ∈ s.receiptEvents, _))

/-- `_active_receipt_predicate`: confirmed, and not reversed. -/
def ActiveReceipt (s : Store) (receiptId : Id) : Prop :=
  HasEvent s receiptId .confirmed ∧ ¬ HasEvent s receiptId .reversed

instance (s : Store) (receiptId : Id) : Decidable (ActiveReceipt s receiptId) :=
  inferInstanceAs (Decidable (_ ∧ _))

/-- An allocation of the terms whose receipt is active. -/
def ActiveAllocation (s : Store) (termsId : Id) (allocation : ReceiptAllocation) : Prop :=
  allocation.commercialTermsId = termsId
    ∧ (∃ receipt ∈ s.receipts, receipt.id = allocation.receiptId)
    ∧ ActiveReceipt s allocation.receiptId

instance (s : Store) (termsId : Id) (allocation : ReceiptAllocation) :
    Decidable (ActiveAllocation s termsId allocation) :=
  inferInstanceAs (Decidable (_ ∧ _ ∧ _))

def byAllocationTime (allocations : List ReceiptAllocation) : List ReceiptAllocation :=
  allocations.insertionSort
    (fun row row' => instantThenId row.allocatedAt row.id row'.allocatedAt row'.id)

/-- `_active_cash_allocations`. -/
def activeCashAllocations (s : Store) (termsId : Id) : List ReceiptAllocation :=
  byAllocationTime (s.allocations.filter (ActiveAllocation s termsId))

/-- The total of the terms' allocations with confirmed and not reversed receipts. -/
def activeCash (s : Store) (termsId : Id) : Int :=
  ((activeCashAllocations s termsId).map (·.amount)).sum

def termsNotFound : AppError :=
  { code := "COMMERCIAL_TERMS_NOT_FOUND"
    message := "Commercial terms were not found"
    statusCode := 404 }

def signedCorrection (correction : InvoiceCorrection) : Int :=
  match correction.correctionType with
  | .creditNote => - correction.grossAmount
  | .debitNote => correction.grossAmount

def effectiveInvoiceObligation (s : Store) (termsId : Id) : Except AppError Int := do
  let terms ← demand (s.terms? termsId) termsNotFound
  match s.invoiceOfTerms? termsId with
  | none => return terms.grossAmount
  | some invoice =>
      return invoice.grossAmount
        + total (·.invoiceId = invoice.id) signedCorrection s.corrections

/-! ## Recording, confirming and reversing -/

def appendReceiptEvent (receiptId : Id) (lifecycleStatus : ReceiptLifecycleStatus)
    (occurredAt : Int) (s : Store) : Except AppError Store := do
  require (¬ HasEvent s receiptId lifecycleStatus) (uniqueViolation "uq_receipt_lifecycle_status")
  return { s with
    receiptEvents := s.receiptEvents ++
      [{ receiptId := receiptId
         status := lifecycleStatus
         sequenceNumber := receiptSequence lifecycleStatus
         occurredAt := occurredAt }] }

/-- `_trusted_confirmed_gateway_event`. -/
def trustedConfirmedGatewayEvent (eventId : Id) (s : Store) :
    Except AppError (PaymentGatewayEvent × CommercialTerms) := do
  let event ← demand (s.gatewayEvents.find? (·.id = eventId))
    { code := "CONFIRMED_GATEWAY_EVENT_REQUIRED"
      message := "A persisted confirmed provider event is required"
      statusCode := 403 }
  require (event.eventType = "payment_confirmed")
    { code := "CONFIRMED_GATEWAY_EVENT_REQUIRED"
      message := "A persisted confirmed provider event is required"
      statusCode := 403 }
  let termsId ← demand event.commercialTermsReference
    { code := "PAYMENT_EVENT_TERMS_MISMATCH"
      message := "Provider event contains an invalid commercial terms reference" }
  let terms ← demand (s.terms? termsId)
    { code := "PAYMENT_EVENT_TERMS_MISMATCH"
      message := "Provider event does not resolve to accepted commercial terms" }
  return (event, terms)

/-- `_require_issued_invoice`. -/
def requireIssuedInvoice (invoice : Option Invoice) : Except AppError Unit :=
  require (invoice.any (·.status = .issued))
    { code := "INVOICE_NOT_ISSUED"
      message := "Money can be recorded only against an issued invoice" }

/-- What a caller says of a payment. -/
structure ReceiptFacts where
  organizationId : Id
  method : ReceiptMethod
  provider : String
  externalTransactionId : Reference
  amount : ℚ
  currency : Currency
  payerName : String
  evidenceReference : Reference
  observedAt : Int

/-- `f"{event.provider}:{event.external_transaction_id}"`. -/
def PaymentGatewayEvent.externalId (event : PaymentGatewayEvent) : Reference :=
  event.provider ++ ":" ++ event.externalTransactionId

/-- Who acts: an administrator (with the outcome of the check), or a provider event. -/
inductive Actor
  | admin (authorized : Except AppError Unit)
  | gateway (eventId : Id)

def gatewayLineage (facts : ReceiptFacts) (eventId : Id) (s : Store) : Except AppError Unit := do
  let trusted ← trustedConfirmedGatewayEvent eventId s
  require (facts.organizationId = trusted.2.organizationId
      ∧ facts.provider = trusted.1.provider
      ∧ facts.externalTransactionId = trusted.1.externalId
      ∧ facts.amount * 100 = trusted.1.amount
      ∧ facts.currency = trusted.1.currency
      ∧ facts.payerName = trusted.1.payerName
      ∧ facts.observedAt = trusted.1.occurredAt)
    { code := "GATEWAY_RECEIPT_LINEAGE_MISMATCH"
      message := "Receipt facts must exactly match persisted provider evidence" }

def recordActor (actor : Actor) (facts : ReceiptFacts) (s : Store) : Except AppError Unit :=
  match actor with
  | .admin authorized => authorized
  | .gateway eventId => do
      require (facts.method = .gateway)
        { code := "RECEIPT_ACTOR_REQUIRED"
          message := "A trusted gateway or active administrator is required"
          statusCode := 403 }
      gatewayLineage facts eventId s

def receiptIdentityConflict : AppError :=
  { code := "RECEIPT_IDENTITY_CONFLICT"
    message := "External transaction identity already belongs to different evidence" }

def recordPaymentReceipt (actor : Actor) (receiptId : Id) (facts : ReceiptFacts) (s : Store) :
    Except AppError (Store × PaymentReceipt) := do
  recordActor actor facts s
  require (∃ terms ∈ s.commercialTerms, terms.organizationId = facts.organizationId)
    { code := "ORGANIZATION_NOT_FOUND"
      message := "Organization was not found"
      statusCode := 404 }
  let amount ← money facts.amount "amount"
  require (amount ≠ 0 ∧ facts.currency.length = 3 ∧ facts.provider ≠ ""
      ∧ facts.externalTransactionId ≠ "" ∧ facts.payerName ≠ "" ∧ facts.evidenceReference ≠ "")
    { code := "INVALID_PAYMENT_RECEIPT"
      message := "Receipt identity, positive amount, currency, payer and evidence are required"
      statusCode := 400 }
  let receipt : PaymentReceipt :=
    { id := receiptId
      organizationId := facts.organizationId
      method := facts.method
      provider := facts.provider
      externalTransactionId := facts.externalTransactionId
      amount := amount
      currency := facts.currency
      payerName := facts.payerName
      evidenceReference := facts.evidenceReference
      observedAt := facts.observedAt }
  match s.receipts.find? (·.externalTransactionId = facts.externalTransactionId) with
  | some existing => do
      require ({ existing with id := receiptId } = receipt) receiptIdentityConflict
      return (s, existing)
  | none => do
      require (∀ row ∈ s.receipts, row.id ≠ receiptId) (uniqueViolation "payment_receipts_pkey")
      let s ← appendReceiptEvent receiptId .recorded facts.observedAt
        { s with receipts := s.receipts ++ [receipt] }
      return (s, receipt)

def receiptNotFound : AppError :=
  { code := "RECEIPT_NOT_FOUND", message := "Receipt was not found", statusCode := 404 }

/-- `confirm_payment_receipt`: the answer tells whether the expectation matched. -/
def confirmPaymentReceipt (authorized : Except AppError Unit) (receiptId : Id) (expectedAmount : ℚ)
    (expectedCurrency : Currency) (now : Int) (s : Store) : Except AppError (Store × Bool) := do
  authorized
  let receipt ← demand (s.receipt? receiptId) receiptNotFound
  require (receipt.method = .manualTransfer)
    { code := "VERIFIED_GATEWAY_EVENT_REQUIRED"
      message := "Gateway payments need verified provider confirmation"
      statusCode := 403 }
  let amount ← money expectedAmount "expected_amount"
  require (amount ≠ 0 ∧ expectedCurrency.length = 3)
    { code := "INVALID_CONFIRMATION_EXPECTATION"
      message := "Expected amount and currency are required"
      statusCode := 400 }
  let matched : Bool := receipt.amount = amount ∧ receipt.currency = expectedCurrency
  if receiptStatus s receiptId = some .confirmed then do
    require matched
      { code := "RECEIPT_CONFIRMATION_CONFLICT"
        message := "Confirmed payment details cannot change" }
    return (s, true)
  else do
    require (receiptStatus s receiptId = some .recorded)
      { code := "RECEIPT_NOT_RECORDED"
        message := "Only a recorded receipt can be confirmed" }
    if matched then do
      let s ← appendReceiptEvent receiptId .confirmed now s
      return (s, true)
    else
      return (s, false)

def receiptNotConfirmed (message : String) : AppError :=
  { code := "RECEIPT_NOT_CONFIRMED", message := message }

def reversePaymentReceipt (authorized : Except AppError Unit) (receiptId : Id) (reason : String)
    (now : Int) (s : Store) : Except AppError Store := do
  authorized
  let _ ← demand (s.receipt? receiptId) receiptNotFound
  if receiptStatus s receiptId = some .reversed then
    return s
  else do
    require (receiptStatus s receiptId = some .confirmed)
      (receiptNotConfirmed "Only a confirmed receipt can be reversed")
    require (reason ≠ "")
      { code := "REVERSAL_REASON_REQUIRED"
        message := "A reversal reason is required"
        statusCode := 400 }
    appendReceiptEvent receiptId .reversed now s

/-! ## Allocation -/

def billingAuthorityNotFound : AppError :=
  { code := "BILLING_AUTHORITY_NOT_FOUND"
    message := "Billing authority was not found"
    statusCode := 404 }

/-- The provider event behind an allocation pays exactly this receipt, to these terms. -/
def allocationLineage (eventId : Id) (receipt : PaymentReceipt) (terms : CommercialTerms)
    (s : Store) : Except AppError Unit := do
  let trusted ← trustedConfirmedGatewayEvent eventId s
  require (trusted.2.id = terms.id ∧ trusted.1.provider = receipt.provider
      ∧ trusted.1.externalId = receipt.externalTransactionId
      ∧ trusted.1.amount = receipt.amount ∧ trusted.1.currency = receipt.currency)
    { code := "GATEWAY_ALLOCATION_LINEAGE_MISMATCH"
      message := "Allocation facts must exactly match persisted provider evidence" }

def allocateActor (actor : Actor) (receipt : PaymentReceipt) (terms : CommercialTerms)
    (s : Store) : Except AppError Unit :=
  match actor with
  | .admin authorized => authorized
  | .gateway eventId => allocationLineage eventId receipt terms s

/-- The totals that a new allocation may not exceed. -/
def allocationFits (receipt : PaymentReceipt) (terms : CommercialTerms) (amount : Int)
    (s : Store) : Except AppError Unit := do
  require (total (·.receiptId = receipt.id) (·.amount) s.allocations + amount ≤ receipt.amount)
    { code := "RECEIPT_OVERALLOCATION"
      message := "Allocation would exceed the receipt amount" }
  let obligation ← effectiveInvoiceObligation s terms.id
  require (activeCash s terms.id + amount ≤ obligation)
    { code := "OBLIGATION_OVERFUNDING"
      message := "Allocation would exceed the accepted commercial obligation" }

def allocatePaymentReceipt (actor : Actor) (allocationId receiptId termsId : Id) (amount : ℚ)
    (now : Int) (s : Store) : Except AppError (Store × ReceiptAllocation) := do
  let terms ← demand (s.terms? termsId) billingAuthorityNotFound
  let receipt ← demand (s.receipt? receiptId) billingAuthorityNotFound
  require (receipt.organizationId = terms.organizationId) billingAuthorityNotFound
  requireIssuedInvoice (s.invoiceOfTerms? terms.id)
  allocateActor actor receipt terms s
  require (receiptStatus s receipt.id = some .confirmed)
    (receiptNotConfirmed "Only a confirmed receipt can grant funding authority")
  require (receipt.currency = terms.currency)
    { code := "ALLOCATION_CURRENCY_MISMATCH"
      message := "Receipt and commercial terms currencies must match" }
  let amount ← money amount "allocation_amount"
  require (amount ≠ 0)
    { code := "INVALID_ALLOCATION_AMOUNT"
      message := "Allocation amount must be positive"
      statusCode := 400 }
  match s.allocations.find? (fun row =>
      row.receiptId = receipt.id && row.commercialTermsId = terms.id) with
  | some existing => do
      require (existing.amount = amount)
        { code := "ALLOCATION_ALREADY_RECORDED"
          message := "Receipt allocation is immutable" }
      return (s, existing)
  | none => do
      allocationFits receipt terms amount s
      require (∀ row ∈ s.allocations, row.id ≠ allocationId)
        (uniqueViolation "receipt_allocations_pkey")
      let allocation : ReceiptAllocation :=
        { id := allocationId
          receiptId := receipt.id
          commercialTermsId := terms.id
          amount := amount
          currency := receipt.currency
          allocatedAt := now }
      return ({ s with allocations := s.allocations ++ [allocation] }, allocation)

/-! ## Whole payments -/

/-- One line of a manual bank statement. -/
structure BankTransfer where
  organizationId : Id
  externalTransactionId : Reference
  observedAmount : ℚ
  expectedAmount : ℚ
  currency : Currency
  payerName : String
  evidenceReference : Reference
  observedAt : Int
  allocationAmount : Option ℚ := none

def processManualBankTransfer (authorized : Except AppError Unit)
    (receiptId allocationId termsId : Id) (transfer : BankTransfer) (now : Int) (s : Store) :
    Except AppError Store := do
  requireIssuedInvoice (s.invoiceOfTerms? termsId)
  let recorded ← recordPaymentReceipt (.admin authorized) receiptId
    { organizationId := transfer.organizationId
      method := .manualTransfer
      provider := "manual-bank-transfer"
      externalTransactionId := transfer.externalTransactionId
      amount := transfer.observedAmount
      currency := transfer.currency
      payerName := transfer.payerName
      evidenceReference := transfer.evidenceReference
      observedAt := transfer.observedAt } s
  let confirmed ← confirmPaymentReceipt authorized recorded.2.id transfer.expectedAmount
    transfer.currency now recorded.1
  if confirmed.2 then do
    let allocated ← allocatePaymentReceipt (.admin authorized) allocationId recorded.2.id termsId
      (transfer.allocationAmount.getD transfer.observedAmount) now confirmed.1
    return allocated.1
  else
    return confirmed.1

/-- `ingest_verified_payment_event`, after the adapter verified the event. -/
def ingestVerifiedPaymentEvent (verified : Except AppError Unit) (event : PaymentGatewayEvent)
    (s : Store) : Except AppError Store := do
  verified
  require (∀ row ∈ s.gatewayEvents, row.id ≠ event.id) (uniqueViolation "payment_gateway_events_pkey")
  return { s with gatewayEvents := s.gatewayEvents ++ [event] }

/-- `_confirm_verified_gateway_receipt`. -/
def confirmVerifiedGatewayReceipt (receiptId eventId : Id) (now : Int) (s : Store) :
    Except AppError Store := do
  let trusted ← trustedConfirmedGatewayEvent eventId s
  let receipt ← demand (s.receipt? receiptId) receiptNotFound
  require (receipt.method = .gateway ∧ receipt.organizationId = trusted.2.organizationId
      ∧ receipt.provider = trusted.1.provider
      ∧ receipt.externalTransactionId = trusted.1.externalId
      ∧ receipt.amount = trusted.1.amount ∧ receipt.currency = trusted.1.currency)
    { code := "GATEWAY_CONFIRMATION_CONFLICT"
      message := "Receipt facts conflict with verified provider evidence" }
  if receiptStatus s receiptId = some .confirmed then
    return s
  else do
    require (receiptStatus s receiptId = some .recorded)
      { code := "GATEWAY_RECEIPT_NOT_CONFIRMABLE"
        message := "Verified gateway receipt is not in a confirmable state" }
    appendReceiptEvent receiptId .confirmed now s

def terminalOutcome (outcome : String) : Bool :=
  outcome = "confirmed" || outcome = "confirmed_unallocated" || outcome = "ignored_failed"

def recordAttempt (eventId : Id) (outcome : String) (allocationId : Option Id) (s : Store) :
    Store :=
  { s with
    attempts := s.attempts ++
      [{ gatewayEventId := eventId, outcome := outcome, allocationId := allocationId }] }

/-- `process_payment_gateway_event`: the payment is recorded and confirmed, and what the
terms still lack is allocated. -/
def processPaymentGatewayEvent (checkoutBinding : Except AppError Unit)
    (eventId receiptId allocationId : Id) (now : Int) (s : Store) : Except AppError Store := do
  let event ← demand (s.gatewayEvents.find? (·.id = eventId))
    { code := "PAYMENT_EVENT_NOT_FOUND"
      message := "Payment event was not found"
      statusCode := 404 }
  if ∃ attempt ∈ s.attempts, attempt.gatewayEventId = eventId ∧ terminalOutcome attempt.outcome then
    return s
  else if event.eventType = "payment_failed" then
    return recordAttempt eventId "ignored_failed" none s
  else do
    let termsId ← demand event.commercialTermsReference
      { code := "PAYMENT_EVENT_TERMS_MISMATCH"
        message := "Provider event contains an invalid commercial terms reference" }
    let terms ← demand ((s.terms? termsId).filter (·.currency = event.currency))
      { code := "PAYMENT_EVENT_TERMS_MISMATCH"
        message := "Verified payment event no longer matches accepted terms" }
    checkoutBinding
    let recorded ← recordPaymentReceipt (.gateway eventId) receiptId
      { organizationId := terms.organizationId
        method := .gateway
        provider := event.provider
        externalTransactionId := event.externalId
        amount := event.amount / 100
        currency := event.currency
        payerName := event.payerName
        evidenceReference := "gateway:" ++ event.externalId
        observedAt := event.occurredAt } s
    let s ← confirmVerifiedGatewayReceipt recorded.2.id eventId now recorded.1
    let obligation ← effectiveInvoiceObligation s terms.id
    let amount := min event.amount (max 0 (obligation - activeCash s terms.id))
    if 0 < amount then do
      let allocated ← allocatePaymentReceipt (.gateway eventId) allocationId recorded.2.id terms.id
        (amount / 100) now s
      return recordAttempt eventId "confirmed" (some allocated.2.id) allocated.1
    else
      return recordAttempt eventId "confirmed_unallocated" none s

end Billing
end Mobility
