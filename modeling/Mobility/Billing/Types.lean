import Mobility.Pay.Daily
import Mobility.Trips.Lifecycle

/-!
# Types — billing rows (`app/models/billing.py`, `campaign_cancellation.py`,
`campaign_change.py`)

Amounts of money are whole hundredths (`Numeric(14, 2)`); frozen daily rates stay
rational.  Texts arrive stripped and cased as the services normalise them.  Columns that
no modelled function reads (audit notes, snapshots kept for display) are left out.
-/

namespace Mobility
namespace Billing

open Payout (Currency Digest Reference)

/-! ## Enumerations -/

inductive PaymentClass
  | standardPrepaid
  | approvedCorporateCredit
  deriving DecidableEq, Repr

inductive ReceiptMethod
  | manualTransfer
  | gateway
  deriving DecidableEq, Repr

inductive ReceiptLifecycleStatus
  | recorded
  | confirmed
  | reversed
  deriving DecidableEq, Repr

inductive InvoiceStatus
  | draft
  | issued
  | void
  deriving DecidableEq, Repr

inductive FinancialAuthorityType
  | prepaidCash
  | approvedCredit
  deriving DecidableEq, Repr

inductive LiabilityReservationStatus
  | pendingFunding
  | reserved
  | released
  deriving DecidableEq, Repr

inductive ProductionAuthorityBasis
  | standardWindowElapsed
  | advertiserExpeditedWaiver
  | approvedCredit
  deriving DecidableEq, Repr

inductive InvoiceCorrectionType
  | creditNote
  | debitNote
  deriving DecidableEq, Repr

inductive SettlementDisposition
  | refundRecorded
  | creditSettlementRecorded
  deriving DecidableEq, Repr

inductive CampaignStatus
  | draft
  | pendingReview
  | approved
  | rejected
  | active
  | paused
  | cancelled
  deriving DecidableEq, Repr

inductive CampaignAssignmentStatus
  | offered
  | accepted
  | declined
  | expired
  | active
  | cancelled
  deriving DecidableEq, Repr

inductive CampaignCancellationDisposition
  | cashRefundDue
  | cashRefundNotDue
  | creditSettlementDue
  | noSettlement
  deriving DecidableEq, Repr

inductive CampaignChangeStatus
  | pendingAdmin
  | pendingFunding
  | applied
  | rejected
  deriving DecidableEq, Repr

/-! ## Campaigns and commercial terms -/

structure Campaign where
  id : Id
  organizationId : Id
  name : String := ""
  status : CampaignStatus := .approved
  currency : Currency
  budgetAmount : Option Int := none
  dailyBudgetAmount : Option Int := none
  startAt : Option Int := none
  endAt : Option Int := none
  deriving DecidableEq, Repr

structure CommercialTerms where
  id : Id
  campaignId : Id
  organizationId : Id
  currency : Currency
  paymentClass : PaymentClass
  standardProductionWaitHours : Int := 24
  grossAmount : Int
  acceptedAt : Int
  deriving DecidableEq, Repr

structure Invoice where
  id : Id
  commercialTermsId : Id
  campaignId : Id
  status : InvoiceStatus := .draft
  currency : Currency
  grossAmount : Int
  deriving DecidableEq, Repr

structure InvoiceCorrection where
  invoiceId : Id
  sequenceNumber : Nat
  correctionReference : Reference
  requestFingerprint : Digest
  correctionType : InvoiceCorrectionType
  grossAmount : Int
  deriving DecidableEq, Repr

/-! ## Cash -/

structure PaymentGatewayEvent where
  id : Id
  provider : String
  externalTransactionId : Reference
  eventType : String
  /-- `UUID(commercial_terms_reference)`, none when it is not one -/
  commercialTermsReference : Option Id
  amount : Int
  currency : Currency
  payerName : String
  occurredAt : Int
  deriving DecidableEq, Repr

structure PaymentGatewayProcessingAttempt where
  gatewayEventId : Id
  outcome : String
  allocationId : Option Id
  deriving DecidableEq, Repr

structure PaymentReceipt where
  id : Id
  organizationId : Id
  method : ReceiptMethod
  provider : String
  externalTransactionId : Reference
  amount : Int
  currency : Currency
  payerName : String
  evidenceReference : Reference
  observedAt : Int
  deriving DecidableEq, Repr

structure ReceiptLifecycleEvent where
  receiptId : Id
  status : ReceiptLifecycleStatus
  sequenceNumber : Nat
  occurredAt : Int
  deriving DecidableEq, Repr

structure ReceiptAllocation where
  id : Id
  receiptId : Id
  commercialTermsId : Id
  amount : Int
  currency : Currency
  allocatedAt : Int
  deriving DecidableEq, Repr

/-! ## Authority and liability -/

structure CampaignFinancialAuthorization where
  id : Id
  campaignId : Id
  revisionNumber : Nat
  authorityType : FinancialAuthorityType
  authorizedAmount : Int
  maxDriverLiability : Int
  creditDueAt : Option Int
  creditApprovedByUserId : Option Id
  creditTerms : Option Digest
  effectiveFrom : Int
  deriving DecidableEq, Repr

structure FinancialAuthorizationAllocation where
  authorizationId : Id
  receiptAllocationId : Id
  amount : Int
  deriving DecidableEq, Repr

structure ExpeditedProductionWaiver where
  id : Id
  campaignId : Id
  acceptedAt : Int
  deriving DecidableEq, Repr

structure ProductionStart where
  id : Id
  campaignId : Id
  authorizationId : Id
  authorityBasis : ProductionAuthorityBasis
  waiverId : Option Id
  fullyFundedAt : Option Int
  startedAt : Int
  deriving DecidableEq, Repr

structure CampaignAssignment where
  id : Id
  campaignId : Id
  status : CampaignAssignmentStatus
  deriving DecidableEq, Repr

/-- The frozen terms that liability is computed from. -/
structure AssignmentRuleBinding where
  id : Id
  assignmentId : Id
  formulaVersion : String
  dailyRateNaira : Option ℚ
  campaignWindowStartAt : Option Int
  campaignWindowEndAt : Option Int
  deriving DecidableEq, Repr

structure CampaignLiabilityReservation where
  id : Id
  campaignId : Id
  assignmentId : Id
  authorizationId : Option Id
  status : LiabilityReservationStatus
  coveredVehicleDays : Int
  requestedAmount : Int
  reservedAmount : Option Int
  deriving DecidableEq, Repr

/-! ## Changes and cancellations -/

/-- `campaign_change_snapshot`. -/
structure CampaignSnapshot where
  campaignId : Id
  campaignName : String
  currency : Currency
  budgetAmount : Option Int
  dailyBudgetAmount : Option Int
  startAt : Option Int
  endAt : Option Int
  deriving DecidableEq, Repr

/-- The fields a change request sets, each to a value of two decimals or an instant. -/
structure ProposedChanges where
  budgetAmount : Option Int := none
  dailyBudgetAmount : Option Int := none
  startAt : Option Int := none
  endAt : Option Int := none
  deriving DecidableEq, Repr

structure CampaignChangeRequest where
  id : Id
  campaignId : Id
  requestedByUserId : Id
  clientRequestId : Id
  requestFingerprint : Digest
  proposedChanges : ProposedChanges
  beforeSha256 : Digest
  status : CampaignChangeStatus
  requestedLiabilityAmount : Int
  reservedLiabilityAmount : Option Int := none
  authorizationId : Option Id := none
  reviewedByUserId : Option Id := none
  reviewReason : Option String := none
  deriving DecidableEq, Repr

structure CampaignCancellation where
  id : Id
  campaignId : Id
  organizationId : Id
  requestedByUserId : Id
  clientRequestId : Id
  requestFingerprint : Digest
  priorStatus : CampaignStatus
  cutoffAt : Int
  commercialTermsId : Option Id
  productionStartId : Option Id
  fundingAuthorizedAt : Option Int
  refundEligibilityEndsAt : Option Int
  disposition : CampaignCancellationDisposition
  refundableAmount : Int
  currency : Currency
  releasedLiabilityAmount : Int
  cancelledAssignmentCount : Nat
  deriving DecidableEq, Repr

structure RefundSettlement where
  commercialTermsId : Id
  receiptId : Option Id
  cancellationId : Option Id
  disposition : SettlementDisposition
  amount : Int
  settlementProvider : String
  externalReference : Reference
  reason : String
  deriving DecidableEq, Repr

/-! ## The database -/

structure Store where
  campaigns : List Campaign := []
  commercialTerms : List CommercialTerms := []
  invoices : List Invoice := []
  corrections : List InvoiceCorrection := []
  gatewayEvents : List PaymentGatewayEvent := []
  attempts : List PaymentGatewayProcessingAttempt := []
  receipts : List PaymentReceipt := []
  receiptEvents : List ReceiptLifecycleEvent := []
  allocations : List ReceiptAllocation := []
  authorizations : List CampaignFinancialAuthorization := []
  authorizationAllocations : List FinancialAuthorizationAllocation := []
  waivers : List ExpeditedProductionWaiver := []
  productionStarts : List ProductionStart := []
  assignments : List CampaignAssignment := []
  bindings : List AssignmentRuleBinding := []
  reservations : List CampaignLiabilityReservation := []
  changeRequests : List CampaignChangeRequest := []
  cancellations : List CampaignCancellation := []
  refunds : List RefundSettlement := []

/-- The documents billing fingerprints as canonical JSON; nothing is assumed of the hash. -/
class Hashing where
  snapshotSha256 : CampaignSnapshot → Digest
  previewSha256 : CampaignSnapshot → CampaignSnapshot → List String → String → String → Digest

namespace Store

variable (s : Store)

def campaign? (campaignId : Id) : Option Campaign :=
  s.campaigns.find? (·.id = campaignId)

def terms? (termsId : Id) : Option CommercialTerms :=
  s.commercialTerms.find? (·.id = termsId)

/-- `_commercial_terms_for_campaign`. -/
def commercialTermsForCampaign (campaignId : Id) : Option CommercialTerms :=
  s.commercialTerms.find? (·.campaignId = campaignId)

def invoiceOfTerms? (termsId : Id) : Option Invoice :=
  s.invoices.find? (·.commercialTermsId = termsId)

def receipt? (receiptId : Id) : Option PaymentReceipt :=
  s.receipts.find? (·.id = receiptId)

def cancellation? (campaignId : Id) : Option CampaignCancellation :=
  s.cancellations.find? (·.campaignId = campaignId)

def productionStart? (campaignId : Id) : Option ProductionStart :=
  s.productionStarts.find? (·.campaignId = campaignId)

def reservation? (assignmentId : Id) : Option CampaignLiabilityReservation :=
  s.reservations.find? (·.assignmentId = assignmentId)

end Store

/-- `_money`: a non-negative amount with two decimals, as whole hundredths. -/
def money (value : ℚ) (field : String) : Except AppError Int :=
  if 0 ≤ value ∧ (value * 100).den = 1 then .ok (value * 100).num
  else
    .error
      { code := "INVALID_COMMERCIAL_AMOUNT"
        message := field ++ " must be a non-negative two-decimal amount"
        statusCode := 400 }

theorem money_nonneg {value : ℚ} {field : String} {amount : Int}
    (h : money value field = .ok amount) : 0 ≤ amount := by
  unfold money at h
  split_ifs at h with hvalue
  rw [← Except.ok.inj h, Rat.num_nonneg]
  exact mul_nonneg hvalue.1 (by norm_num)

end Billing
end Mobility
