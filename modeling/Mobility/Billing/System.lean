import Mobility.Billing.Changes
import Mobility.Lib.Machine

/-!
# System — billing as one transition system

Every action is one transaction under the campaign lock (receipt rows are locked first).
Clocks, the outcome of access checks, fingerprints and new ids are carried by the action.
-/

namespace Mobility
namespace Billing

open Lib
open Payout (Currency Digest Reference)
open Trips (uniqueViolation)

/-! ## Writes of other services -/

/-- Drafting, review, pausing and resuming write campaign rows. -/
def writeCampaign (campaign : Campaign) (s : Store) : Store :=
  if s.campaigns.any (·.id = campaign.id) then
    { s with campaigns := s.campaigns.map (fun row => if row.id = campaign.id then campaign else row) }
  else
    { s with campaigns := s.campaigns ++ [campaign] }

/-- `accept_quotation_revision`: one immutable agreement per campaign. -/
def acceptTerms (authorized : Except AppError Unit) (terms : CommercialTerms) (s : Store) :
    Except AppError Store := do
  authorized
  let campaign ← demand (s.campaign? terms.campaignId) campaignNotFound
  require (campaign.currency = terms.currency)
    { code := "QUOTATION_CURRENCY_MISMATCH"
      message := "Quotation currency must match the campaign currency at acceptance" }
  require (∀ row ∈ s.commercialTerms, row.campaignId ≠ terms.campaignId)
    { code := "COMMERCIAL_TERMS_ALREADY_ACCEPTED"
      message := "This campaign already has immutable accepted commercial terms" }
  require (∀ row ∈ s.commercialTerms, row.id ≠ terms.id) (uniqueViolation "commercial_terms_pkey")
  require (0 ≤ terms.grossAmount) (uniqueViolation "ck_commercial_terms_amounts_non_negative")
  return { s with
    commercialTerms := s.commercialTerms ++ [terms]
    campaigns := s.campaigns.map (fun row =>
      if row.id = terms.campaignId ∧ row.budgetAmount.all (· < terms.grossAmount) then
        { row with budgetAmount := some terms.grossAmount }
      else row) }

def createInvoiceDraft (authorized : Except AppError Unit) (invoiceId termsId : Id) (s : Store) :
    Except AppError Store := do
  authorized
  let terms ← demand (s.terms? termsId) termsNotFound
  match s.invoiceOfTerms? terms.id with
  | some _ => return s
  | none => do
      require (∀ row ∈ s.invoices, row.id ≠ invoiceId) (uniqueViolation "invoices_pkey")
      return { s with
        invoices := s.invoices ++
          [{ id := invoiceId
             commercialTermsId := terms.id
             campaignId := terms.campaignId
             currency := terms.currency
             grossAmount := terms.grossAmount }] }

/-- `issue_invoice`; `issuer` is its check of the issuer facts. -/
def issueInvoice (authorized issuer : Except AppError Unit) (invoiceId : Id) (s : Store) :
    Except AppError Store := do
  authorized
  let invoice ← demand (s.invoices.find? (·.id = invoiceId))
    { code := "INVOICE_NOT_FOUND", message := "Invoice was not found", statusCode := 404 }
  if invoice.status = .issued then
    return s
  else do
    require (invoice.status = .draft)
      { code := "INVOICE_NOT_ISSUABLE"
        message := "Only a draft invoice can be issued" }
    issuer
    return { s with
      invoices := s.invoices.map (fun row =>
        if row.id = invoiceId then { row with status := .issued } else row) }

def offerAssignment (authorized : Except AppError Unit) (assignmentId campaignId : Id)
    (s : Store) : Except AppError Store := do
  authorized
  let _ ← demand (s.campaign? campaignId) campaignNotFound
  require (∀ row ∈ s.assignments, row.id ≠ assignmentId)
    (uniqueViolation "campaign_assignments_pkey")
  return { s with
    assignments := s.assignments ++
      [{ id := assignmentId, campaignId := campaignId, status := .offered }] }

/-- `PAYOUT_TERMS_SHAPE_SQL`, as far as liability reads it. -/
def PayoutTermsShape (binding : AssignmentRuleBinding) : Prop :=
  binding.formulaVersion = "payout_v4" ∧ binding.dailyRateNaira.any (0 < ·)

instance (binding : AssignmentRuleBinding) : Decidable (PayoutTermsShape binding) :=
  inferInstanceAs (Decidable (_ ∧ _))

/-- `accept_driver_assignment`: the offer's terms are frozen in a binding. -/
def acceptAssignment (authorized : Except AppError Unit) (binding : AssignmentRuleBinding)
    (s : Store) : Except AppError Store := do
  authorized
  let assignment ← demand (s.assignments.find? (·.id = binding.assignmentId)) assignmentNotFound
  require (assignment.status = .offered)
    { code := "INVALID_ASSIGNMENT_TRANSITION"
      message := "Only offered assignments can be accepted"
      statusCode := 400 }
  require (∀ row ∈ s.bindings, row.assignmentId ≠ binding.assignmentId)
    (uniqueViolation "uq_assignment_rule_bindings_assignment_id")
  require (PayoutTermsShape binding) (uniqueViolation "ck_assignment_rule_bindings_terms_shape")
  return { s with
    bindings := s.bindings ++ [binding]
    assignments := s.assignments.map (fun row =>
      if row.id = binding.assignmentId then { row with status := .accepted } else row) }

/-- Declining, expiry and cancellation of one assignment. -/
def closeAssignment (authorized : Except AppError Unit) (assignmentId : Id)
    (status : CampaignAssignmentStatus) (s : Store) : Except AppError Store := do
  authorized
  require (status = .declined ∨ status = .expired ∨ status = .cancelled)
    { code := "INVALID_ASSIGNMENT_TRANSITION"
      message := "Only closing statuses are written here"
      statusCode := 400 }
  return { s with
    assignments := s.assignments.map (fun row =>
      if row.id = assignmentId then { row with status := status } else row) }

/-! ## Actions -/

inductive BillingAction
  | writeCampaign (campaign : Campaign)
  | acceptTerms (authorized : Except AppError Unit) (terms : CommercialTerms)
  | createInvoiceDraft (authorized : Except AppError Unit) (invoiceId termsId : Id)
  | issueInvoice (authorized issuer : Except AppError Unit) (invoiceId : Id)
  | correctInvoice (authorized : Except AppError Unit) (invoiceId : Id) (facts : CorrectionFacts)
      (fingerprint : Digest)
  | recordReceipt (actor : Actor) (receiptId : Id) (facts : ReceiptFacts)
  | confirmReceipt (authorized : Except AppError Unit) (receiptId : Id) (expectedAmount : ℚ)
      (expectedCurrency : Currency) (now : Int)
  | allocateReceipt (actor : Actor) (allocationId receiptId termsId : Id) (amount : ℚ) (now : Int)
  | reverseReceipt (authorized : Except AppError Unit) (receiptId : Id) (reason : String)
      (now : Int)
  | bankTransfer (authorized : Except AppError Unit) (receiptId allocationId termsId : Id)
      (transfer : BankTransfer) (now : Int)
  | ingestEvent (verified : Except AppError Unit) (event : PaymentGatewayEvent)
  | processEvent (checkoutBinding : Except AppError Unit) (eventId receiptId allocationId : Id)
      (now : Int)
  | authorizePrepaid (authorized : Except AppError Unit) (campaignId authorizationId : Id)
      (maxDriverLiability : ℚ) (reason : String) (now : Int)
  | authorizeCredit (authorized : Except AppError Unit) (campaignId authorizationId : Id)
      (facts : CreditFacts) (now : Int)
  | waive (authorized : Except AppError Unit) (campaignId waiverId : Id) (now : Int)
  | startProduction (authorized : Except AppError Unit) (campaignId productionStartId : Id)
      (waiverId : Option Id) (now : Int)
  | offerAssignment (authorized : Except AppError Unit) (assignmentId campaignId : Id)
  | acceptAssignment (authorized : Except AppError Unit) (binding : AssignmentRuleBinding)
  | closeAssignment (authorized : Except AppError Unit) (assignmentId : Id)
      (status : CampaignAssignmentStatus)
  | activate (authorized eligible evidenced : Except AppError Unit)
      (assignmentId reservationId : Id) (now : Int)
  | requestChange (authorized : Except AppError Unit) (campaignId : Id)
      (payload : CampaignChangeCreate) (now : Int)
  | decideChange (authorized : Except AppError Unit) (requestId : Id) (approve : Bool)
      (review : Review) (now : Int)
  | cancelCampaign (authorized complaint : Except AppError Unit) (campaignId : Id)
      (request : CancellationRequest) (now : Int)
  | recordRefund (authorized : Except AppError Unit) (termsId receiptId : Id) (facts : RefundFacts)
  | settleCredit (authorized : Except AppError Unit) (termsId : Id) (settlementProvider : String)
      (externalReference : Reference) (reason : String)

def billingStep [Hashing] (s : Store) : BillingAction → Except AppError Store
  | .writeCampaign campaign => .ok (writeCampaign campaign s)
  | .acceptTerms authorized terms => acceptTerms authorized terms s
  | .createInvoiceDraft authorized invoiceId termsId =>
      createInvoiceDraft authorized invoiceId termsId s
  | .issueInvoice authorized issuer invoiceId => issueInvoice authorized issuer invoiceId s
  | .correctInvoice authorized invoiceId facts fingerprint =>
      recordInvoiceCorrection authorized invoiceId facts fingerprint s
  | .recordReceipt actor receiptId facts =>
      (recordPaymentReceipt actor receiptId facts s).map (·.1)
  | .confirmReceipt authorized receiptId expectedAmount expectedCurrency now =>
      (confirmPaymentReceipt authorized receiptId expectedAmount expectedCurrency now s).map (·.1)
  | .allocateReceipt actor allocationId receiptId termsId amount now =>
      (allocatePaymentReceipt actor allocationId receiptId termsId amount now s).map (·.1)
  | .reverseReceipt authorized receiptId reason now =>
      reversePaymentReceipt authorized receiptId reason now s
  | .bankTransfer authorized receiptId allocationId termsId transfer now =>
      processManualBankTransfer authorized receiptId allocationId termsId transfer now s
  | .ingestEvent verified event => ingestVerifiedPaymentEvent verified event s
  | .processEvent checkoutBinding eventId receiptId allocationId now =>
      processPaymentGatewayEvent checkoutBinding eventId receiptId allocationId now s
  | .authorizePrepaid authorized campaignId authorizationId maxDriverLiability reason now =>
      recordPrepaidCashAuthorization authorized campaignId authorizationId maxDriverLiability reason
        now s
  | .authorizeCredit authorized campaignId authorizationId facts now =>
      recordApprovedCreditAuthorization authorized campaignId authorizationId facts now s
  | .waive authorized campaignId waiverId now =>
      recordExpeditedProductionWaiver authorized campaignId waiverId now s
  | .startProduction authorized campaignId productionStartId waiverId now =>
      recordProductionStart authorized campaignId productionStartId waiverId now s
  | .offerAssignment authorized assignmentId campaignId =>
      offerAssignment authorized assignmentId campaignId s
  | .acceptAssignment authorized binding => acceptAssignment authorized binding s
  | .closeAssignment authorized assignmentId status =>
      closeAssignment authorized assignmentId status s
  | .activate authorized eligible evidenced assignmentId reservationId now =>
      activateAssignment authorized eligible evidenced assignmentId reservationId now s
  | .requestChange authorized campaignId payload now =>
      requestCampaignChange authorized campaignId payload now s
  | .decideChange authorized requestId approve review now =>
      decideCampaignChange authorized requestId approve review now s
  | .cancelCampaign authorized complaint campaignId request now =>
      requestCampaignCancellation authorized complaint campaignId request now s
  | .recordRefund authorized termsId receiptId facts =>
      recordRefundSettlement authorized termsId receiptId facts s
  | .settleCredit authorized termsId settlementProvider externalReference reason =>
      recordCreditContractSettlement authorized termsId settlementProvider externalReference reason s

/-- All runs of the billing services, from an empty database. -/
def billing [Hashing] : Machine Store BillingAction AppError :=
  { init := {}, step := billingStep }

end Billing
end Mobility
