import Mobility.Billing.Receipts

/-!
# Settlements — corrections, refund windows and refunds (`billing/settlements.py`,
`campaign_cancellations.py`)

A cancellation freezes what is refundable; refunds are then recorded one by one against
reversed receipts, within three totals.
-/

namespace Mobility
namespace Billing

open Lib
open Payout (Currency Digest Reference)
open Trips (uniqueViolation)

/-! ## Invoice corrections -/

/-- What a caller says of a correction; the fingerprint is of these facts. -/
structure CorrectionFacts where
  reference : Reference
  correctionType : InvoiceCorrectionType
  netAmount : ℚ
  taxAmount : ℚ
  reason : String

def correctionTotal (s : Store) (invoiceId : Id) (correctionType : InvoiceCorrectionType) : Int :=
  total (fun row => row.invoiceId = invoiceId && row.correctionType = correctionType)
    (·.grossAmount) s.corrections

def recordInvoiceCorrection (authorized : Except AppError Unit) (invoiceId : Id)
    (facts : CorrectionFacts) (fingerprint : Digest) (s : Store) : Except AppError Store := do
  authorized
  let invoice ← demand (s.invoices.find? (·.id = invoiceId))
    { code := "INVOICE_NOT_FOUND", message := "Invoice was not found", statusCode := 404 }
  require (facts.reference ≠ "" ∧ ¬ facts.reference.startsWith "legacy:")
    { code := "INVALID_CORRECTION_REFERENCE"
      message := "A caller-supplied correction reference is required"
      statusCode := 400 }
  let net ← money facts.netAmount "correction.net_amount"
  let tax ← money facts.taxAmount "correction.tax_amount"
  let gross := net + tax
  require (0 < gross ∧ facts.reason ≠ "")
    { code := "INVALID_INVOICE_CORRECTION"
      message := "A positive itemised correction and reason are required"
      statusCode := 400 }
  match s.corrections.find? (fun row =>
      row.invoiceId = invoiceId && row.correctionReference = facts.reference) with
  | some existing => do
      require (existing.requestFingerprint = fingerprint)
        { code := "INVOICE_CORRECTION_REFERENCE_CONFLICT"
          message := "Correction reference belongs to different immutable correction evidence" }
      return s
  | none => do
      require (invoice.status = .issued ∨ invoice.status = .void)
        { code := "ISSUED_INVOICE_REQUIRED"
          message := "Only an issued invoice can receive an immutable correction" }
      require (facts.correctionType = .creditNote →
          correctionTotal s invoiceId .creditNote + gross
            ≤ invoice.grossAmount + correctionTotal s invoiceId .debitNote)
        { code := "INVOICE_CREDIT_EXCEEDS_OBLIGATION"
          message := "Credit corrections cannot reduce the invoice obligation below zero" }
      return { s with
        corrections := s.corrections ++
          [{ invoiceId := invoiceId
             sequenceNumber := (s.corrections.filter (·.invoiceId = invoiceId)).length + 1
             correctionReference := facts.reference
             requestFingerprint := fingerprint
             correctionType := facts.correctionType
             grossAmount := gross }] }

/-! ## The refund window -/

/-- The allocation that brings the running total to the obligation. -/
def fundedAtOf (obligation : Int) : Int → List ReceiptAllocation → Option Int
  | _, [] => none
  | cumulative, allocation :: rest =>
      if obligation ≤ cumulative + allocation.amount then some allocation.allocatedAt
      else fundedAtOf obligation (cumulative + allocation.amount) rest

/-- `_historical_fully_funded_at`: reversed receipts count. -/
def historicalFullyFundedAt (terms : CommercialTerms) (s : Store) :
    Except AppError (Option Int) := do
  let obligation ← effectiveInvoiceObligation s terms.id
  if obligation = 0 then
    return some terms.acceptedAt
  else
    return fundedAtOf obligation 0
      (byAllocationTime (s.allocations.filter (·.commercialTermsId = terms.id)))

def microsPerHour : Int := 3600 * Trips.microsPerSecond

structure RefundWindow where
  fundedAt : Option Int
  eligibilityEndsAt : Option Int
  production : Option ProductionStart

/-- `_refund_window`. -/
def refundWindow (terms : CommercialTerms) (s : Store) : Except AppError RefundWindow := do
  if terms.paymentClass = .approvedCorporateCredit then
    return { fundedAt := none, eligibilityEndsAt := none, production := none }
  else do
    let production := s.productionStart? terms.campaignId
    let fundedAt ←
      match production.bind (·.fullyFundedAt) with
      | some fundedAt => pure (some fundedAt)
      | none => historicalFullyFundedAt terms s
    match fundedAt with
    | none => return { fundedAt := none, eligibilityEndsAt := none, production := none }
    | some fundedAt =>
        let standardEnd := fundedAt + terms.standardProductionWaitHours * microsPerHour
        return {
          fundedAt := some fundedAt
          eligibilityEndsAt := some
            (match production with
              | none => standardEnd
              | some production => min standardEnd production.startedAt)
          production := production }

/-! ## Cancellation -/

def refundedTotal (s : Store) (p : RefundSettlement → Bool) : Int :=
  total (fun row => row.disposition = .refundRecorded && p row) (·.amount) s.refunds

def allocatedToTerms (s : Store) (termsId : Id) : Int :=
  total (·.commercialTermsId = termsId) (·.amount) s.allocations

/-- `_cash_remaining_for_terms`: every allocation counts, whatever became of its receipt. -/
def cashRemainingForTerms (s : Store) (termsId : Id) : Int :=
  max 0 (allocatedToTerms s termsId - refundedTotal s (·.commercialTermsId = termsId))

/-- What a cancellation freezes about money. -/
structure FrozenSettlement where
  disposition : CampaignCancellationDisposition
  refundableAmount : Int := 0
  window : RefundWindow := { fundedAt := none, eligibilityEndsAt := none, production := none }

/-- The settlement part of `request_campaign_cancellation`. -/
def freezeSettlement (terms : Option CommercialTerms) (now : Int) (s : Store) :
    Except AppError FrozenSettlement := do
  match terms with
  | none => return { disposition := .noSettlement }
  | some terms =>
      if terms.paymentClass = .approvedCorporateCredit then
        return { disposition := .creditSettlementDue }
      else do
        let window ← refundWindow terms s
        let remainingCash := cashRemainingForTerms s terms.id
        if window.fundedAt.isSome ∧ window.eligibilityEndsAt.any (now < ·) ∧ 0 < remainingCash then
          return { disposition := .cashRefundDue
                   refundableAmount := remainingCash
                   window := window }
        else
          return { disposition := .cashRefundNotDue, window := window }

/-- The identity of a cancellation request. -/
structure CancellationRequest where
  cancellationId : Id
  requestedByUserId : Id
  clientRequestId : Id
  fingerprint : Digest

def campaignNotFound : AppError :=
  { code := "CAMPAIGN_NOT_FOUND", message := "Campaign was not found", statusCode := 404 }

def openForChange (status : CampaignStatus) : Bool :=
  status = .approved || status = .active || status = .paused

/-- `ensure_campaign_not_finished`. -/
def ensureCampaignNotFinished (campaign : Campaign) (now : Int) (action : String) :
    Except AppError Unit :=
  require (¬ (openForChange campaign.status ∧ campaign.endAt.any (· ≤ now)))
    { code := "CAMPAIGN_FINISHED"
      message := "This campaign has finished and cannot be " ++ action }

def releasable (status : LiabilityReservationStatus) : Bool :=
  status = .pendingFunding || status = .reserved

def openAssignment (status : CampaignAssignmentStatus) : Bool :=
  status = .offered || status = .accepted || status = .active

/-- Applied change liability of a campaign. -/
def appliedChangeLiability (s : Store) (campaignId : Id) : Int :=
  total (fun row => row.campaignId = campaignId && row.status = .applied)
    (fun row => row.reservedLiabilityAmount.getD 0) s.changeRequests

/-- The rows that a cancellation ends. -/
def endCampaignWork (campaignId : Id) (s : Store) : Store :=
  { s with
    reservations := s.reservations.map (fun row =>
      if row.campaignId = campaignId ∧ releasable row.status then { row with status := .released }
      else row)
    assignments := s.assignments.map (fun row =>
      if row.campaignId = campaignId ∧ openAssignment row.status then
        { row with status := .cancelled }
      else row)
    campaigns := s.campaigns.map (fun row =>
      if row.id = campaignId then { row with status := .cancelled } else row) }

def requestCampaignCancellation (authorized complaint : Except AppError Unit) (campaignId : Id)
    (request : CancellationRequest) (now : Int) (s : Store) : Except AppError Store := do
  authorized
  let campaign ← demand (s.campaign? campaignId) campaignNotFound
  match s.cancellation? campaignId with
  | some existing => do
      require (existing.requestedByUserId = request.requestedByUserId
          ∧ existing.clientRequestId = request.clientRequestId
          ∧ existing.requestFingerprint = request.fingerprint)
        { code := "CAMPAIGN_CANCELLATION_CONFLICT"
          message := "This campaign already has a different immutable cancellation" }
      return s
  | none => do
      complaint
      require (openForChange campaign.status)
        { code := "CAMPAIGN_CANCELLATION_NOT_AVAILABLE"
          message := "Only an approved, active or paused campaign can be cancelled" }
      ensureCampaignNotFinished campaign now "cancelled"
      let terms := s.commercialTermsForCampaign campaignId
      let settlement ← freezeSettlement terms now s
      let reservations := s.reservations.filter (fun row =>
        row.campaignId = campaignId && releasable row.status)
      let assignments := s.assignments.filter (fun row =>
        row.campaignId = campaignId && openAssignment row.status)
      require (∀ row ∈ s.cancellations, row.id ≠ request.cancellationId)
        (uniqueViolation "campaign_cancellations_pkey")
      let cancellation : CampaignCancellation :=
        { id := request.cancellationId
          campaignId := campaignId
          organizationId := campaign.organizationId
          requestedByUserId := request.requestedByUserId
          clientRequestId := request.clientRequestId
          requestFingerprint := request.fingerprint
          priorStatus := campaign.status
          cutoffAt := now
          commercialTermsId := terms.map (·.id)
          productionStartId := settlement.window.production.map (·.id)
          fundingAuthorizedAt := settlement.window.fundedAt
          refundEligibilityEndsAt := settlement.window.eligibilityEndsAt
          disposition := settlement.disposition
          refundableAmount := settlement.refundableAmount
          currency := campaign.currency
          releasedLiabilityAmount :=
            (reservations.map (fun row => row.reservedAmount.getD 0)).sum
              + appliedChangeLiability s campaignId
          cancelledAssignmentCount := assignments.length }
      return endCampaignWork campaignId
        { s with cancellations := s.cancellations ++ [cancellation] }

/-! ## Refunds -/

/-- What a caller says of a refund. -/
structure RefundFacts where
  amount : ℚ
  settlementProvider : String
  externalReference : Reference
  reason : String

/-- `_validate_refund_cancellation`. -/
def validateRefundCancellation (cancellation : Option CampaignCancellation)
    (terms : CommercialTerms) : Except AppError CampaignCancellation := do
  let cancellation ← demand cancellation
    { code := "REFUND_CANCELLATION_REQUIRED"
      message := "Cash refund recording requires an immutable campaign cancellation" }
  require (cancellation.commercialTermsId = some terms.id
      ∧ cancellation.campaignId = terms.campaignId
      ∧ cancellation.organizationId = terms.organizationId
      ∧ cancellation.currency = terms.currency)
    { code := "REFUND_CANCELLATION_MISMATCH"
      message := "Campaign cancellation does not match the frozen cash-refund authority" }
  require (cancellation.disposition = .cashRefundDue ∧ 0 < cancellation.refundableAmount)
    { code := "REFUND_CANCELLATION_NOT_DUE"
      message := "The immutable campaign cancellation records no cash refund due" }
  require (cancellation.fundingAuthorizedAt.isSome
      ∧ cancellation.refundEligibilityEndsAt.any (cancellation.cutoffAt < ·))
    { code := "REFUND_CANCELLATION_MISMATCH"
      message := "Campaign cancellation does not match the frozen cash-refund authority" }
  return cancellation

/-- The three totals that bound a refund. -/
def refundFits (cancellation : CampaignCancellation) (terms : CommercialTerms)
    (receipt : PaymentReceipt) (allocation : ReceiptAllocation) (amount : Int) (s : Store) :
    Except AppError Unit := do
  require (refundedTotal s (fun row =>
      row.receiptId = some receipt.id && row.commercialTermsId = terms.id) + amount
        ≤ allocation.amount)
    { code := "REFUND_EXCEEDS_CASH_AUTHORITY"
      message := "Refund cannot exceed the receipt's allocated cash authority" }
  require (refundedTotal s (fun row => row.receiptId = some receipt.id) + amount ≤ receipt.amount)
    { code := "REFUND_EXCEEDS_RECEIPT_TOTAL"
      message := "Refund cannot exceed the receipt total" }
  require (refundedTotal s (fun row => row.cancellationId = some cancellation.id) + amount
      ≤ cancellation.refundableAmount)
    { code := "REFUND_EXCEEDS_CANCELLATION_AUTHORITY"
      message := "Refund cannot exceed the cancellation's frozen refundable amount" }

def recordRefundSettlement (authorized : Except AppError Unit) (termsId receiptId : Id)
    (facts : RefundFacts) (s : Store) : Except AppError Store := do
  authorized
  let terms ← demand (s.terms? termsId) termsNotFound
  let receipt ← demand ((s.receipt? receiptId).filter (·.organizationId = terms.organizationId))
    { code := "REFUND_AUTHORITY_NOT_FOUND"
      message := "Refund authority was not found"
      statusCode := 404 }
  require (terms.paymentClass ≠ .approvedCorporateCredit)
    { code := "CASH_REFUND_NOT_APPLICABLE"
      message := "Corporate credit without cash uses contract settlement, not a refund" }
  let amount ← money facts.amount "refund.amount"
  require (amount ≠ 0 ∧ facts.settlementProvider ≠ "" ∧ facts.externalReference ≠ ""
      ∧ facts.reason ≠ "")
    { code := "INVALID_REFUND_SETTLEMENT"
      message := "Refund amount, provider, reference and reason are required"
      statusCode := 400 }
  let settlement : RefundSettlement :=
    { commercialTermsId := terms.id
      receiptId := some receipt.id
      cancellationId := (s.cancellation? terms.campaignId).map (·.id)
      disposition := .refundRecorded
      amount := amount
      settlementProvider := facts.settlementProvider
      externalReference := facts.externalReference
      reason := facts.reason }
  match s.refunds.find? (fun row => row.settlementProvider = facts.settlementProvider
      && row.externalReference = facts.externalReference) with
  | some existing => do
      require ({ existing with disposition := .refundRecorded } = settlement)
        { code := "REFUND_REFERENCE_CONFLICT"
          message := "External refund reference belongs to different settlement evidence" }
      return s
  | none => do
      let cancellation ← validateRefundCancellation (s.cancellation? terms.campaignId) terms
      require (receiptStatus s receipt.id = some .reversed)
        { code := "REVERSED_RECEIPT_REQUIRED"
          message := "Refund recording requires an append-only receipt reversal first" }
      let allocation ← demand (s.allocations.find? (fun row =>
          row.receiptId = receipt.id && row.commercialTermsId = terms.id))
        { code := "REFUND_ALLOCATION_REQUIRED"
          message := "Only allocated cash can be refunded" }
      refundFits cancellation terms receipt allocation amount s
      return { s with refunds := s.refunds ++ [settlement] }

def recordCreditContractSettlement (authorized : Except AppError Unit) (termsId : Id)
    (settlementProvider : String) (externalReference : Reference) (reason : String) (s : Store) :
    Except AppError Store := do
  authorized
  let terms ← demand ((s.terms? termsId).filter (·.paymentClass = .approvedCorporateCredit))
    { code := "APPROVED_CREDIT_TERMS_REQUIRED"
      message := "Contract settlement requires approved corporate-credit terms" }
  require (settlementProvider ≠ "" ∧ externalReference ≠ "" ∧ reason ≠ "")
    { code := "INVALID_CREDIT_SETTLEMENT"
      message := "Settlement provider, reference and reason are required"
      statusCode := 400 }
  match s.refunds.find? (fun row => row.settlementProvider = settlementProvider
      && row.externalReference = externalReference) with
  | some existing => do
      require (existing.commercialTermsId = terms.id
          ∧ existing.disposition = .creditSettlementRecorded)
        { code := "SETTLEMENT_REFERENCE_CONFLICT"
          message := "External settlement reference belongs to different evidence" }
      return s
  | none =>
      return { s with
        refunds := s.refunds ++
          [{ commercialTermsId := terms.id
             receiptId := none
             cancellationId := none
             disposition := .creditSettlementRecorded
             amount := 0
             settlementProvider := settlementProvider
             externalReference := externalReference
             reason := reason }] }

end Billing
end Mobility
