import Mobility.Billing.Authority

/-!
# Changes — revising a running campaign (`campaign_changes.py`)

A longer window asks for the daily pay of every bound driver on every added day.  The
request freezes that amount; applying it, at once or after a decision, reserves it.
-/

namespace Mobility
namespace Billing

open Lib
open Payout (Currency Digest)
open Trips (lagosDayFor uniqueViolation)
open Pay (halfUpNaira)

/-! ## The preview -/

/-- `campaign_change_snapshot`. -/
def campaignChangeSnapshot (campaign : Campaign) : CampaignSnapshot :=
  { campaignId := campaign.id
    campaignName := campaign.name
    currency := campaign.currency
    budgetAmount := campaign.budgetAmount
    dailyBudgetAmount := campaign.dailyBudgetAmount
    startAt := campaign.startAt
    endAt := campaign.endAt }

/-- `before | proposed`. -/
def CampaignSnapshot.withChanges (before : CampaignSnapshot) (changes : ProposedChanges) :
    CampaignSnapshot :=
  { before with
    budgetAmount := changes.budgetAmount.or before.budgetAmount
    dailyBudgetAmount := changes.dailyBudgetAmount.or before.dailyBudgetAmount
    startAt := changes.startAt.or before.startAt
    endAt := changes.endAt.or before.endAt }

/-- The requested changes that differ from the current values. -/
def realChanges (before : CampaignSnapshot) (changes : ProposedChanges) : ProposedChanges :=
  { budgetAmount := changes.budgetAmount.filter (some · ≠ before.budgetAmount)
    dailyBudgetAmount := changes.dailyBudgetAmount.filter (some · ≠ before.dailyBudgetAmount)
    startAt := changes.startAt.filter (some · ≠ before.startAt)
    endAt := changes.endAt.filter (some · ≠ before.endAt) }

/-- A date moved outwards is an expansion, any other move a reduction. -/
def classifyDate (outwards : Int → Int → Bool) (current proposed : Option Int) : List String :=
  match proposed with
  | none => []
  | some proposed =>
      ["date_change", if current.any (outwards proposed) then "expansion" else "reduction"]

def classifyAmount (current proposed : Option Int) : List String :=
  match proposed with
  | none => []
  | some proposed =>
      if current.all (· < proposed) then ["expansion"]
      else if current.any (proposed < ·) then ["reduction"]
      else []

/-- `_classify`, sorted and without repetitions. -/
def classify (before : CampaignSnapshot) (changes : ProposedChanges) : List String :=
  ["date_change", "expansion", "reduction"].filter (fun label =>
    (classifyDate (fun proposed current => proposed < current) before.startAt changes.startAt
      ++ classifyDate (fun proposed current => current < proposed) before.endAt changes.endAt
      ++ classifyAmount before.budgetAmount changes.budgetAmount
      ++ classifyAmount before.dailyBudgetAmount changes.dailyBudgetAmount).contains label)

/-- The Lagos days a proposed window adds at either end. -/
def extraDays (currentStart currentEnd proposedStart proposedEnd : Int) : Int :=
  max 0 (lagosDayFor currentStart - lagosDayFor proposedStart)
    + max 0 (lagosDayFor proposedEnd - lagosDayFor currentEnd)

/-- The bindings of accepted and active assignments of the campaign. -/
def workingBindings (s : Store) (campaignId : Id) : List AssignmentRuleBinding :=
  s.bindings.filter (fun binding => s.assignments.any (fun assignment =>
    assignment.id = binding.assignmentId && assignment.campaignId = campaignId
      && (assignment.status = .accepted || assignment.status = .active)))

/-- `_additional_window_liability`. -/
def additionalWindowLiability (campaign : Campaign) (changes : ProposedChanges) (s : Store) :
    Except AppError Int :=
  match campaign.startAt, campaign.endAt with
  | some currentStart, some currentEnd => do
      let days := extraDays currentStart currentEnd (changes.startAt.getD currentStart)
        (changes.endAt.getD currentEnd)
      if days ≤ 0 then
        return 0
      else do
        let bindings := workingBindings s campaign.id
        require (∀ binding ∈ bindings, binding.dailyRateNaira.isSome)
          { code := "FROZEN_PAYOUT_BINDING_REQUIRED"
            message := "A frozen daily rate is required" }
        let requested : ℚ :=
          (bindings.map (fun binding => binding.dailyRateNaira.getD 0 * (days : ℚ))).sum
        return halfUpNaira requested
  | _, _ => .ok 0

structure CampaignChangePreview where
  before : CampaignSnapshot
  after : CampaignSnapshot
  sourceSha256 : Digest
  classifications : List String
  outcome : String
  requestedLiabilityAmount : Int
  availableLiabilityAmount : Int
  previewSha256 : Digest

/-- What the effective authorization still leaves for new liability. -/
def availableLiability (campaignId : Id) (now : Int) (s : Store) : Int :=
  match effectiveFinancialAuthorization s campaignId now with
  | none => 0
  | some authorization =>
      max 0 (authorizationUsableLiability s authorization now
        - reservedCampaignLiabilityTotal s campaignId)

def invalidCampaignWindow : AppError :=
  { code := "INVALID_CAMPAIGN_WINDOW"
    message := "Campaign start must remain before its end"
    statusCode := 400 }

def invalidCampaignBudget : AppError :=
  { code := "INVALID_CAMPAIGN_BUDGET"
    message := "Daily budget cannot exceed the total budget"
    statusCode := 400 }

/-- A window with a start before its end. -/
def validWindow (startAt endAt : Option Int) : Bool :=
  match startAt, endAt with
  | some start, some stop => start < stop
  | _, _ => false

/-- A daily budget within the total budget, where both are set. -/
def validBudget (budget dailyBudget : Option Int) : Bool :=
  match budget, dailyBudget with
  | some budget, some dailyBudget => dailyBudget ≤ budget
  | _, _ => true

def retroactiveDate (message : String) : AppError :=
  { code := "CAMPAIGN_CHANGE_RETROACTIVE_DATE", message := message, statusCode := 400 }

section

variable [Hashing]

/-- `_build_change_preview`. -/
def buildChangePreview (campaign : Campaign) (changes : ProposedChanges) (reason : String)
    (now : Int) (s : Store) : Except AppError CampaignChangePreview := do
  let before := campaignChangeSnapshot campaign
  let proposed := realChanges before changes
  require (proposed ≠ {})
    { code := "CAMPAIGN_CHANGE_NOOP"
      message := "The request does not change campaign facts"
      statusCode := 400 }
  require (changes.startAt.all (now ≤ ·))
    (retroactiveDate "A campaign change cannot move its start into the past")
  require (changes.endAt.all (now < ·))
    (retroactiveDate "A campaign change cannot move its end into the past")
  let after := before.withChanges proposed
  require (validWindow after.startAt after.endAt) invalidCampaignWindow
  require (validBudget after.budgetAmount after.dailyBudgetAmount) invalidCampaignBudget
  let classifications := classify before proposed
  let requested ← additionalWindowLiability campaign changes s
  let available := if 0 < requested then availableLiability campaign.id now s else 0
  let outcome :=
    if classifications.contains "reduction" || classifications.contains "date_change" then
      "await_review"
    else if available < requested then "await_funding"
    else "apply_now"
  let sourceSha256 := Hashing.snapshotSha256 before
  return {
    before := before
    after := after
    sourceSha256 := sourceSha256
    classifications := classifications
    outcome := outcome
    requestedLiabilityAmount := requested
    availableLiabilityAmount := available
    previewSha256 := Hashing.previewSha256 before after classifications outcome reason }

/-! ## Applying a change -/

/-- The review that a decision adds. -/
structure Review where
  userId : Id
  reason : String

def Campaign.withChanges (campaign : Campaign) (changes : ProposedChanges) : Campaign :=
  { campaign with
    budgetAmount := changes.budgetAmount.or campaign.budgetAmount
    dailyBudgetAmount := changes.dailyBudgetAmount.or campaign.dailyBudgetAmount
    startAt := changes.startAt.or campaign.startAt
    endAt := changes.endAt.or campaign.endAt }

def Store.updateChange (s : Store) (requestId : Id)
    (f : CampaignChangeRequest → CampaignChangeRequest) : Store :=
  { s with changeRequests := s.changeRequests.map (fun row => if row.id = requestId then f row else row) }

/-- A first review is recorded, a later one is not. -/
def CampaignChangeRequest.withReview (request : CampaignChangeRequest) (review : Option Review) :
    CampaignChangeRequest :=
  match review with
  | none => request
  | some review =>
      if request.reviewReason.isNone then
        { request with
          reviewedByUserId := some review.userId
          reviewReason := some review.reason }
      else request

/-- The effective authorization covers what the request asks for. -/
def Funded (s : Store) (campaignId : Id) (requested now : Int) : Prop :=
  match effectiveFinancialAuthorization s campaignId now with
  | none => False
  | some authorization =>
      requested ≤ authorizationUsableLiability s authorization now
        - reservedCampaignLiabilityTotal s campaignId

instance (s : Store) (campaignId : Id) (requested now : Int) :
    Decidable (Funded s campaignId requested now) := by
  unfold Funded
  split <;> infer_instance

/-- `_apply_if_funded`. -/
def applyIfFunded (request : CampaignChangeRequest) (campaign : Campaign)
    (review : Option Review) (now : Int) (s : Store) : Except AppError Store := do
  ensureCampaignNotFinished campaign now "changed"
  require (∀ new ∈ review, ∀ reason ∈ request.reviewReason,
      reason = new.reason ∧ request.reviewedByUserId = some new.userId)
    { code := "CAMPAIGN_CHANGE_DECISION_CONFLICT"
      message := "This campaign change already has a different admin decision" }
  let requested := request.requestedLiabilityAmount
  if 0 < requested ∧ ¬ Funded s campaign.id requested now then
    return s.updateChange request.id (fun row =>
      CampaignChangeRequest.withReview { row with status := .pendingFunding } review)
  else do
    require (request.beforeSha256 = Hashing.snapshotSha256 (campaignChangeSnapshot campaign))
      { code := "CAMPAIGN_CHANGE_STALE"
        message := "Campaign facts changed after this request was previewed" }
    let changed := campaign.withChanges request.proposedChanges
    require (validWindow changed.startAt changed.endAt) invalidCampaignWindow
    require (validBudget changed.budgetAmount changed.dailyBudgetAmount) invalidCampaignBudget
    let authorization : Option CampaignFinancialAuthorization :=
      if 0 < requested then effectiveFinancialAuthorization s campaign.id now else none
    let s := s.updateChange request.id (fun row =>
      CampaignChangeRequest.withReview
        { row with
          status := .applied
          authorizationId := authorization.map (·.id)
          reservedLiabilityAmount := some requested } review)
    return { s with
      campaigns := s.campaigns.map (fun row => if row.id = campaign.id then changed else row) }

def campaignChangeNotAvailable : AppError :=
  { code := "CAMPAIGN_CHANGE_NOT_AVAILABLE"
    message := "Campaign changes require an approved, active or paused campaign" }

/-- `_locked_campaign`. -/
def lockedCampaign (campaignId : Id) (s : Store) : Except AppError Campaign := do
  let campaign ← demand (s.campaign? campaignId) campaignNotFound
  require (openForChange campaign.status) campaignChangeNotAvailable
  return campaign

/-- What an advertiser asks for. -/
structure CampaignChangeCreate where
  requestId : Id
  userId : Id
  clientRequestId : Id
  changes : ProposedChanges
  reason : String
  sourceSha256 : Digest
  previewSha256 : Digest
  fingerprint : Digest

def requestCampaignChange (authorized : Except AppError Unit) (campaignId : Id)
    (payload : CampaignChangeCreate) (now : Int) (s : Store) : Except AppError Store := do
  authorized
  let campaign ← lockedCampaign campaignId s
  match s.changeRequests.find? (fun row => row.campaignId = campaignId
      && row.requestedByUserId = payload.userId
      && row.clientRequestId = payload.clientRequestId) with
  | some existing => do
      require (existing.requestFingerprint = payload.fingerprint)
        { code := "CAMPAIGN_CHANGE_RETRY_CONFLICT"
          message := "The client request ID was already used for different changes" }
      return s
  | none => do
      ensureCampaignNotFinished campaign now "changed"
      let preview ← buildChangePreview campaign payload.changes payload.reason now s
      require (preview.sourceSha256 = payload.sourceSha256)
        { code := "CAMPAIGN_CHANGE_STALE"
          message := "Campaign facts changed after this change was previewed" }
      require (preview.previewSha256 = payload.previewSha256)
        { code := "CAMPAIGN_CHANGE_PREVIEW_STALE"
          message := "Funding or classification facts changed after this change was previewed" }
      require (∀ row ∈ s.changeRequests, row.id ≠ payload.requestId)
        (uniqueViolation "campaign_change_requests_pkey")
      let request : CampaignChangeRequest :=
        { id := payload.requestId
          campaignId := campaignId
          requestedByUserId := payload.userId
          clientRequestId := payload.clientRequestId
          requestFingerprint := payload.fingerprint
          proposedChanges := realChanges preview.before payload.changes
          beforeSha256 := preview.sourceSha256
          status := .pendingAdmin
          requestedLiabilityAmount := preview.requestedLiabilityAmount }
      let s := { s with changeRequests := s.changeRequests ++ [request] }
      if preview.outcome = "await_review" then
        return s
      else
        applyIfFunded request campaign none now s

def decisionConflict (message : String) : AppError :=
  { code := "CAMPAIGN_CHANGE_DECISION_CONFLICT", message := message }

/-- `decide_campaign_change`; deciding again is the retry of a change that waits for
funding. -/
def decideCampaignChange (authorized : Except AppError Unit) (requestId : Id) (approve : Bool)
    (review : Review) (now : Int) (s : Store) : Except AppError Store := do
  authorized
  let request ← demand (s.changeRequests.find? (·.id = requestId))
    { code := "CAMPAIGN_CHANGE_NOT_FOUND"
      message := "Campaign change was not found"
      statusCode := 404 }
  let campaign ← lockedCampaign request.campaignId s
  match request.status with
  | .applied => return s
  | .rejected => do
      require (¬ approve ∧ request.reviewReason = some review.reason)
        (decisionConflict "This change is already rejected")
      return s
  | _ =>
      if approve then
        applyIfFunded request campaign (some review) now s
      else do
        require request.reviewReason.isNone
          (decisionConflict "An approved change waiting for funding cannot be rejected as a retry")
        return s.updateChange requestId (fun row =>
          { row with
            status := .rejected
            reviewedByUserId := some review.userId
            reviewReason := some review.reason })

end

end Billing
end Mobility
