import Mobility.Billing.Settlements

/-!
# Authority — funding, production and driver liability (`billing/authority.py`)

An authorization bounds what may be promised to drivers.  Assignments reserve the pay of
their whole frozen window against it; the readiness answer predicts that reservation
without making it.  The clock readings of one transaction are one instant.
-/

namespace Mobility
namespace Billing

open Lib
open Payout (Currency Digest Reference)
open Trips (uniqueViolation lagosDayFor)
open Pay (halfUpNaira)

/-! ## Authorizations -/

/-- `effective_financial_authorization`: the newest one in force. -/
def effectiveFinancialAuthorization (s : Store) (campaignId : Id) (at_ : Int) :
    Option CampaignFinancialAuthorization :=
  ((s.authorizations.filter (fun row =>
    row.campaignId = campaignId && row.effectiveFrom ≤ at_)).insertionSort (fun row row' =>
      row'.effectiveFrom < row.effectiveFrom
        ∨ (row'.effectiveFrom = row.effectiveFrom ∧ row'.revisionNumber ≤ row.revisionNumber))).head?

/-- `_latest_financial_authorization`. -/
def latestFinancialAuthorization (s : Store) (campaignId : Id) :
    Option CampaignFinancialAuthorization :=
  ((s.authorizations.filter (·.campaignId = campaignId)).insertionSort
    (fun row row' => row'.revisionNumber ≤ row.revisionNumber)).head?

/-- An allocation behind an authorization counts while its receipt is active. -/
def ActiveSource (s : Store) (authorizationId : Id) (source : FinancialAuthorizationAllocation) :
    Prop :=
  source.authorizationId = authorizationId
    ∧ ∃ allocation ∈ s.allocations, allocation.id = source.receiptAllocationId
      ∧ (∃ receipt ∈ s.receipts, receipt.id = allocation.receiptId)
      ∧ ActiveReceipt s allocation.receiptId

instance (s : Store) (authorizationId : Id) (source : FinancialAuthorizationAllocation) :
    Decidable (ActiveSource s authorizationId source) :=
  inferInstanceAs (Decidable (_ ∧ ∃ allocation ∈ s.allocations, _))

/-- `_authorization_usable_liability`. -/
def authorizationUsableLiability (s : Store) (authorization : CampaignFinancialAuthorization)
    (at_ : Int) : Int :=
  match authorization.authorityType with
  | .approvedCredit =>
      if authorization.creditDueAt.all (· ≤ at_) then 0 else authorization.maxDriverLiability
  | .prepaidCash =>
      min authorization.maxDriverLiability
        (total (ActiveSource s authorization.id) (·.amount) s.authorizationAllocations)

/-- `reserved_campaign_liability_total`. -/
def reservedCampaignLiabilityTotal (s : Store) (campaignId : Id) : Int :=
  if (s.cancellation? campaignId).isSome then 0
  else
    total (fun row => row.campaignId = campaignId && row.status = .reserved)
        (fun row => row.reservedAmount.getD 0) s.reservations
      + appliedChangeLiability s campaignId

/-- What an authorization is recorded with. -/
structure AuthorizationFacts where
  authorizationId : Id
  authorityType : FinancialAuthorityType
  authorizedAmount : Int
  maxDriverLiability : Int
  creditDueAt : Option Int := none
  creditApprovedByUserId : Option Id := none
  creditTerms : Option Digest := none
  reason : String

/-- `_append_financial_authorization`. -/
def appendFinancialAuthorization (campaignId : Id) (facts : AuthorizationFacts) (now : Int)
    (s : Store) : Except AppError Store := do
  let campaign ← demand (s.campaign? campaignId) campaignNotFound
  let terms ← demand (s.commercialTermsForCampaign campaignId)
    { code := "COMMERCIAL_TERMS_REQUIRED"
      message := "Accepted commercial terms are required before financial authorization" }
  require (terms.currency = campaign.currency)
    { code := "FINANCIAL_AUTHORITY_CURRENCY_MISMATCH"
      message := "Campaign and accepted commercial terms currency must match" }
  let allocations :=
    if facts.authorityType = .prepaidCash then activeCashAllocations s terms.id else []
  let authorizedAmount :=
    if facts.authorityType = .prepaidCash then activeCash s terms.id else facts.authorizedAmount
  require (facts.reason ≠ "")
    { code := "FINANCIAL_AUTHORITY_REASON_REQUIRED"
      message := "A financial authorization reason is required"
      statusCode := 400 }
  require (0 < authorizedAmount ∧ 0 < facts.maxDriverLiability)
    { code := "INVALID_FINANCIAL_AUTHORITY_AMOUNT"
      message := "Authorized amount and maximum driver liability must be positive"
      statusCode := 400 }
  require (facts.maxDriverLiability ≤ authorizedAmount)
    { code := "DRIVER_LIABILITY_EXCEEDS_AUTHORITY"
      message := "Maximum driver liability cannot exceed financial authority" }
  let latest := latestFinancialAuthorization s campaignId
  require (latest.all (fun row =>
      row.authorizedAmount ≤ authorizedAmount && row.maxDriverLiability ≤ facts.maxDriverLiability))
    { code := "FINANCIAL_AUTHORITY_REDUCTION_REQUIRES_GOVERNANCE"
      message := "Package 3 permits funded expansions only; reductions require governed revision" }
  if latest.any (fun row => row.authorityType = facts.authorityType
      && row.authorizedAmount = authorizedAmount
      && row.maxDriverLiability = facts.maxDriverLiability
      && row.creditDueAt = facts.creditDueAt
      && row.creditApprovedByUserId = facts.creditApprovedByUserId
      && row.creditTerms = facts.creditTerms) then
    return s
  else do
    require (∀ row ∈ s.authorizations, row.id ≠ facts.authorizationId)
      (uniqueViolation "campaign_financial_authorizations_pkey")
    let authorization : CampaignFinancialAuthorization :=
      { id := facts.authorizationId
        campaignId := campaignId
        revisionNumber := (latest.map (·.revisionNumber)).getD 0 + 1
        authorityType := facts.authorityType
        authorizedAmount := authorizedAmount
        maxDriverLiability := facts.maxDriverLiability
        creditDueAt := facts.creditDueAt
        creditApprovedByUserId := facts.creditApprovedByUserId
        creditTerms := facts.creditTerms
        effectiveFrom := now }
    return { s with
      authorizations := s.authorizations ++ [authorization]
      authorizationAllocations := s.authorizationAllocations
        ++ allocations.map (fun allocation =>
          { authorizationId := facts.authorizationId
            receiptAllocationId := allocation.id
            amount := allocation.amount }) }

def recordPrepaidCashAuthorization (authorized : Except AppError Unit)
    (campaignId authorizationId : Id) (maxDriverLiability : ℚ) (reason : String) (now : Int)
    (s : Store) : Except AppError Store := do
  let _ ← demand (s.campaign? campaignId) campaignNotFound
  let terms ← demand (s.commercialTermsForCampaign campaignId)
    { code := "COMMERCIAL_TERMS_REQUIRED"
      message := "Accepted commercial terms are required" }
  require (terms.paymentClass = .standardPrepaid)
    { code := "PREPAID_AUTHORITY_NOT_PERMITTED"
      message := "The accepted terms do not permit prepaid-cash authority" }
  require (0 < activeCash s terms.id)
    { code := "CONFIRMED_FUNDING_REQUIRED"
      message := "Confirmed active allocations are required for prepaid authority" }
  let liability ← money maxDriverLiability "max_driver_liability"
  authorized
  appendFinancialAuthorization campaignId
    { authorizationId := authorizationId
      authorityType := .prepaidCash
      authorizedAmount := activeCash s terms.id
      maxDriverLiability := liability
      reason := reason } now s

/-- The credit an administrator approves. -/
structure CreditFacts where
  creditLimit : ℚ
  maxDriverLiability : ℚ
  dueAt : Int
  approvedByUserId : Id
  /-- the non-empty terms snapshot, none when it is empty or not an object -/
  creditTerms : Option Digest
  reason : String

def recordApprovedCreditAuthorization (authorized : Except AppError Unit)
    (campaignId authorizationId : Id) (facts : CreditFacts) (now : Int) (s : Store) :
    Except AppError Store := do
  authorized
  require ((s.commercialTermsForCampaign campaignId).any
      (·.paymentClass = .approvedCorporateCredit))
    { code := "APPROVED_CREDIT_TERMS_REQUIRED"
      message := "Accepted approved-corporate-credit terms are required" }
  require (now < facts.dueAt ∧ facts.creditTerms.isSome)
    { code := "INVALID_CREDIT_APPROVAL"
      message := "Credit approval requires a future due date and a non-empty terms snapshot"
      statusCode := 400 }
  let creditLimit ← money facts.creditLimit "credit_limit"
  let liability ← money facts.maxDriverLiability "max_driver_liability"
  appendFinancialAuthorization campaignId
    { authorizationId := authorizationId
      authorityType := .approvedCredit
      authorizedAmount := creditLimit
      maxDriverLiability := liability
      creditDueAt := some facts.dueAt
      creditApprovedByUserId := some facts.approvedByUserId
      creditTerms := facts.creditTerms
      reason := facts.reason } now s

/-! ## Production -/

def recordExpeditedProductionWaiver (authorized : Except AppError Unit) (campaignId waiverId : Id)
    (now : Int) (s : Store) : Except AppError Store := do
  authorized
  let _ ← demand (s.campaign? campaignId) campaignNotFound
  let _ ← demand (s.commercialTermsForCampaign campaignId)
    { code := "EXPEDITED_WAIVER_EVIDENCE_REQUIRED"
      message := "Accepted terms, wording version, wording and wording hash are required"
      statusCode := 400 }
  if ∃ waiver ∈ s.waivers, waiver.campaignId = campaignId then
    return s
  else
    return { s with
      waivers := s.waivers ++ [{ id := waiverId, campaignId := campaignId, acceptedAt := now }] }

/-- `_fully_funded_at`: active allocations only. -/
def fullyFundedAt (terms : CommercialTerms) (now : Int) (s : Store) :
    Except AppError (Option Int) := do
  let obligation ← effectiveInvoiceObligation s terms.id
  if obligation = 0 then
    return some now
  else
    return fundedAtOf obligation 0 (activeCashAllocations s terms.id)

def campaignFinancialCutoff (message : String) : AppError :=
  { code := "CAMPAIGN_FINANCIAL_CUTOFF", message := message }

def creditAuthorityExpired (message : String) : AppError :=
  { code := "CREDIT_AUTHORITY_EXPIRED", message := message }

/-- What production may start on: the funding instant and the waiver used. -/
def productionBasis (terms : CommercialTerms) (authorization : CampaignFinancialAuthorization)
    (waiverId : Option Id) (now : Int) (s : Store) :
    Except AppError (ProductionAuthorityBasis × Option Int) :=
  match authorization.authorityType with
  | .approvedCredit => do
      require (authorization.creditDueAt.any (now < ·))
        (creditAuthorityExpired "Approved credit is no longer valid for production start")
      require waiverId.isNone
        { code := "WAIVER_NOT_APPLICABLE"
          message := "Expedited waiver is not applicable to approved-credit production" }
      return (.approvedCredit, none)
  | .prepaidCash => do
      let fundedAt ← fullyFundedAt terms now s
      let fundedAt ← demand fundedAt
        { code := "FULL_FUNDING_REQUIRED"
          message := "Standard production requires confirmed allocations covering the full amount" }
      match waiverId with
      | none => do
          require (fundedAt + terms.standardProductionWaitHours * microsPerHour ≤ now)
            { code := "PRODUCTION_WAIT_ACTIVE"
              message := "The exact 24-hour standard production wait has not elapsed" }
          return (.standardWindowElapsed, some fundedAt)
      | some waiverId => do
          require (∃ waiver ∈ s.waivers, waiver.id = waiverId
              ∧ waiver.campaignId = terms.campaignId ∧ waiver.acceptedAt ≤ now)
            { code := "VALID_EXPEDITED_WAIVER_REQUIRED"
              message := "A valid immutable advertiser waiver is required" }
          return (.advertiserExpeditedWaiver, some fundedAt)

def recordProductionStart (authorized : Except AppError Unit) (campaignId productionStartId : Id)
    (waiverId : Option Id) (now : Int) (s : Store) : Except AppError Store := do
  authorized
  let _ ← demand (s.campaign? campaignId) campaignNotFound
  require (s.cancellation? campaignId).isNone
    (campaignFinancialCutoff "Cancelled campaign production cannot start")
  match s.productionStart? campaignId with
  | some _ => return s
  | none => do
      let required : AppError :=
        { code := "PRODUCTION_FINANCIAL_AUTHORITY_REQUIRED"
          message := "Production requires accepted terms and effective financial authority" }
      let terms ← demand (s.commercialTermsForCampaign campaignId) required
      let authorization ← demand (effectiveFinancialAuthorization s campaignId now) required
      let basis ← productionBasis terms authorization waiverId now s
      return { s with
        productionStarts := s.productionStarts ++
          [{ id := productionStartId
             campaignId := campaignId
             authorizationId := authorization.id
             authorityBasis := basis.1
             waiverId := waiverId
             fullyFundedAt := basis.2
             startedAt := now }] }

def notFinanciallyAuthorized (message : String) : AppError :=
  { code := "NEW_WORK_NOT_FINANCIALLY_AUTHORIZED", message := message }

def assertCampaignProductionAuthorized (campaignId : Id) (now : Int) (s : Store) :
    Except AppError CampaignFinancialAuthorization := do
  let required : AppError :=
    { code := "PRODUCTION_FINANCIAL_AUTHORITY_REQUIRED"
      message := "Campaign activation requires accepted terms and current production authority" }
  let terms ← demand (s.commercialTermsForCampaign campaignId) required
  let _ ← demand (s.productionStart? campaignId) required
  let authorization ← demand (effectiveFinancialAuthorization s campaignId now) required
  let usable := authorizationUsableLiability s authorization now
  match authorization.authorityType with
  | .approvedCredit => do
      require (0 < usable) (creditAuthorityExpired "Approved credit is no longer valid for new work")
      return authorization
  | .prepaidCash => do
      let fundedAt ← fullyFundedAt terms now s
      require (fundedAt.isSome ∧ 0 < usable)
        (notFinanciallyAuthorized "Confirmed cash authority no longer covers new work")
      return authorization

/-- `_assert_authorization_covers_liability`. -/
def assertAuthorizationCoversLiability (authorization : CampaignFinancialAuthorization)
    (campaignId : Id) (additional now : Int) (s : Store) : Except AppError Unit :=
  require (reservedCampaignLiabilityTotal s campaignId + additional
      ≤ authorizationUsableLiability s authorization now)
    (notFinanciallyAuthorized
      "Current financial authority no longer covers reserved driver liability")

def assertNewWorkAuthorized (campaignId assignmentId : Id) (now : Int) (s : Store) :
    Except AppError Unit := do
  require (s.cancellation? campaignId).isNone
    (campaignFinancialCutoff "The campaign cancellation cutoff blocks new work")
  let authorization ← (assertCampaignProductionAuthorized campaignId now s).mapError
    (fun error => if error.code = "CREDIT_AUTHORITY_EXPIRED" then error
      else notFinanciallyAuthorized "Current campaign funding does not authorize new work")
  require (∃ reservation ∈ s.reservations, reservation.campaignId = campaignId
      ∧ reservation.assignmentId = assignmentId ∧ reservation.status = .reserved)
    (notFinanciallyAuthorized
      "Production start and a funded assignment liability reserve are required")
  assertAuthorizationCoversLiability authorization campaignId 0 now s

/-! ## Assignment liability -/

structure AssignmentLiabilityCalculation where
  authorization : Option CampaignFinancialAuthorization
  coveredDays : Int
  requested : Int
  canReserve : Bool

/-- The calendar days, in Lagos, that a frozen window covers. -/
def coveredDays (windowStart windowEnd : Int) : Int :=
  max 1 (lagosDayFor windowEnd - lagosDayFor windowStart + 1)

/-- The pay of every covered day, to the hundredth. -/
def requestedLiability (rate : ℚ) (days : Int) : Int :=
  halfUpNaira (rate * 1 * days)

def frozenBindingRequired : AppError :=
  { code := "FROZEN_PAYOUT_BINDING_REQUIRED"
    message := "A frozen rate and daily cap are required before reserving liability" }

/-- `_assignment_liability_calculation`. -/
def assignmentLiabilityCalculation (assignment : CampaignAssignment) (now : Int) (s : Store) :
    Except AppError AssignmentLiabilityCalculation := do
  require (s.cancellation? assignment.campaignId).isNone
    (campaignFinancialCutoff "Cancelled campaign liability cannot be reserved")
  let binding ← demand (s.bindings.find? (·.assignmentId = assignment.id)) frozenBindingRequired
  require (binding.formulaVersion = "payout_v4") frozenBindingRequired
  let rate ← demand binding.dailyRateNaira frozenBindingRequired
  let windowStart ← demand binding.campaignWindowStartAt frozenBindingRequired
  let windowEnd ← demand binding.campaignWindowEndAt frozenBindingRequired
  let days := coveredDays windowStart windowEnd
  let requested := requestedLiability rate days
  require (0 < requested)
    { code := "ZERO_LIABILITY_RESERVE"
      message := "The frozen payout contract does not create positive liability" }
  let authorization := effectiveFinancialAuthorization s assignment.campaignId now
  let reservedTotal := reservedCampaignLiabilityTotal s assignment.campaignId
  return {
    authorization := authorization
    coveredDays := days
    requested := requested
    canReserve := authorization.any (fun row =>
      requested ≤ authorizationUsableLiability s row now - reservedTotal) }

structure AssignmentLiabilityReadiness where
  eligible : Bool
  existingReservationId : Option Id
  reason : Option String

def assignmentNotFound : AppError :=
  { code := "ASSIGNMENT_NOT_FOUND", message := "Assignment was not found", statusCode := 404 }

/-- The checks behind the readiness answer: none, or the reason against it. -/
def readinessReason (assignment : CampaignAssignment)
    (existing : Option CampaignLiabilityReservation) (now : Int) (s : Store) :
    Except AppError (Option String) := do
  let calculation ← assignmentLiabilityCalculation assignment now s
  if existing.any (·.requestedAmount ≠ calculation.requested) then
    return some "Frozen liability changed"
  else if existing.any (·.status = .released) then
    return some "Liability was released"
  else do
    let alreadyReserved := existing.any (·.status = .reserved)
    if ¬ alreadyReserved ∧ ¬ calculation.canReserve then
      return some "Current funding cannot cover the assignment"
    else do
      let authorization ← assertCampaignProductionAuthorized assignment.campaignId now s
      assertAuthorizationCoversLiability authorization assignment.campaignId
        (if alreadyReserved then 0 else calculation.requested) now s
      return none

def assignmentLiabilityReadiness (assignmentId : Id) (now : Int) (s : Store) :
    Except AppError AssignmentLiabilityReadiness := do
  let assignment ← demand (s.assignments.find? (·.id = assignmentId)) assignmentNotFound
  let existing := s.reservation? assignmentId
  match readinessReason assignment existing now s with
  | .ok reason =>
      return { eligible := reason.isNone
               existingReservationId := existing.map (·.id)
               reason := reason }
  | .error error =>
      return { eligible := false
               existingReservationId := existing.map (·.id)
               reason := some error.message }

/-- `reserve_assignment_liability`: a request that funding cannot cover waits. -/
def reserveAssignmentLiability (authorized : Except AppError Unit) (assignmentId reservationId : Id)
    (now : Int) (s : Store) : Except AppError (Store × CampaignLiabilityReservation) := do
  authorized
  let assignment ← demand (s.assignments.find? (·.id = assignmentId)) assignmentNotFound
  let _ ← demand (s.campaign? assignment.campaignId) campaignNotFound
  let calculation ← assignmentLiabilityCalculation assignment now s
  match s.reservation? assignmentId with
  | some existing => do
      require (existing.requestedAmount = calculation.requested)
        { code := "LIABILITY_RESERVATION_IMMUTABLE"
          message := "The assignment liability request is already frozen" }
      if existing.status = .pendingFunding ∧ calculation.canReserve then
        let funded : CampaignLiabilityReservation :=
          { existing with
            authorizationId := calculation.authorization.map (·.id)
            status := .reserved
            reservedAmount := some calculation.requested }
        return ({ s with
          reservations := s.reservations.map (fun row =>
            if row.assignmentId = assignmentId then funded else row) }, funded)
      else
        return (s, existing)
  | none => do
      let reservation : CampaignLiabilityReservation :=
        { id := reservationId
          campaignId := assignment.campaignId
          assignmentId := assignmentId
          authorizationId :=
            if calculation.canReserve then calculation.authorization.map (·.id) else none
          status := if calculation.canReserve then .reserved else .pendingFunding
          coveredVehicleDays := calculation.coveredDays
          requestedAmount := calculation.requested
          reservedAmount := if calculation.canReserve then some calculation.requested else none }
      return ({ s with reservations := s.reservations ++ [reservation] }, reservation)

/-! ## Activation (`campaign_assignments.py`) -/

def assignmentFundingRequired : AppError :=
  { code := "ASSIGNMENT_FUNDING_REQUIRED"
    message := "Campaign funding must reserve this assignment before activation" }

/-- The reservation that an activation works with: an active assignment keeps its own. -/
def activationReservation (authorized : Except AppError Unit) (assignment : CampaignAssignment)
    (reservationId : Id) (now : Int) (s : Store) :
    Except AppError (Store × CampaignLiabilityReservation) :=
  match if assignment.status = .active then s.reservation? assignment.id else none with
  | some reservation => .ok (s, reservation)
  | none => reserveAssignmentLiability authorized assignment.id reservationId now s

/-- The reservation must stand, and new work be authorized under it. -/
def assertReserved (assignment : CampaignAssignment) (now : Int)
    (reserved : Store × CampaignLiabilityReservation) : Except AppError Store := do
  require (reserved.2.status = .reserved) assignmentFundingRequired
  let _ ← assertCampaignProductionAuthorized assignment.campaignId now reserved.1
  assertNewWorkAuthorized assignment.campaignId assignment.id now reserved.1
  return reserved.1

/-- `activate_assignment`; `eligible` and `evidenced` are its checks of people, vehicles,
reviews and evidence. -/
def activateAssignment (authorized eligible evidenced : Except AppError Unit)
    (assignmentId reservationId : Id) (now : Int) (s : Store) : Except AppError Store := do
  authorized
  let assignment ← demand (s.assignments.find? (·.id = assignmentId)) assignmentNotFound
  let campaign ← demand (s.campaign? assignment.campaignId) campaignNotFound
  require (assignment.status = .accepted ∨ assignment.status = .active)
    { code := "INVALID_ASSIGNMENT_TRANSITION"
      message := "Only accepted or active assignments can be activated"
      statusCode := 400 }
  require (campaign.status = .approved ∨ campaign.status = .active)
    { code := "CAMPAIGN_NOT_ACTIVE"
      message := "Campaign must be active before activation"
      statusCode := 400 }
  eligible
  let reserved ← activationReservation authorized assignment reservationId now s
  let s ← assertReserved assignment now reserved
  evidenced
  if assignment.status = .active then
    return s
  else
    return { s with
      assignments := s.assignments.map (fun row =>
        if row.id = assignmentId then { row with status := .active } else row)
      campaigns := s.campaigns.map (fun row =>
        if row.id = assignment.campaignId ∧ row.status = .approved then
          { row with status := .active }
        else row) }

end Billing
end Mobility
