import Mobility.Assignments.Lifecycle
import Mobility.Billing.Changes

/-!
# Campaigns — drafting, review, changes and cancellation (`campaigns.py`,
`campaign_changes.py`, `campaign_cancellations.py`)

The operations that move a campaign's window or its status, and with them what its
assignments may do.  Amounts of liability are billing's answers and arrive with the action.
-/

namespace Mobility
namespace Assignments

open Lib
open Payout (Currency Digest)
open Billing (CampaignStatus CampaignAssignmentStatus CampaignChangeStatus ProposedChanges
  validWindow validBudget openForChange)

/-! ## Refusals -/

/-- `review_state_conflict`. -/
def reviewStateConflict : AppError :=
  { code := "CAMPAIGN_REVIEW_STATE_CONFLICT"
    message := "Campaign review state does not allow this operation" }

/-- `ensure_campaign_not_finished`. -/
def ensureCampaignNotFinished (campaign : Campaign) (now : Int) (action : String) :
    Except AppError Unit :=
  require (¬ (openForChange campaign.status ∧ campaign.endAt.any (· ≤ now)))
    { code := "CAMPAIGN_FINISHED"
      message := "This campaign has finished and cannot be " ++ action }

/-! ## Drafting -/

/-- A window in order, as far as its ends are set. -/
def orderedWindow (startAt endAt : Option Int) : Bool :=
  startAt.all (fun start => endAt.all (start < ·))

/-- `ensure_campaign_rules`. -/
def ensureCampaignRules (startAt endAt budgetAmount dailyBudgetAmount : Option Int) :
    Except AppError Unit := do
  require (validBudget budgetAmount dailyBudgetAmount)
    { code := "INVALID_CAMPAIGN_BUDGET"
      message := "Daily budget must not exceed total budget"
      statusCode := 400 }
  require (orderedWindow startAt endAt)
    { code := "INVALID_CAMPAIGN_DATES"
      message := "The start date must be before the end date"
      statusCode := 400 }

/-- `CampaignCreate`, as its validators leave it. -/
structure CampaignCreate where
  id : Id
  organizationId : Id
  name : String
  description : Option String := none
  startAt : Option Int := none
  endAt : Option Int := none
  budgetAmount : Option Int := none
  dailyBudgetAmount : Option Int := none
  currency : Currency
  metadata : List (String × String) := []
  rules : validBudget budgetAmount dailyBudgetAmount ∧ orderedWindow startAt endAt

/-- `create_campaign`: campaigns start as drafts; a repeated client request answers with the
campaign it made. -/
def createCampaign (authorized : Except AppError Unit) (userId : Id) (payload : CampaignCreate)
    (clock : Clock) (s : Store) : Except AppError Store := do
  authorized
  let created : Campaign :=
    { id := payload.id
      organizationId := payload.organizationId
      createdByUserId := userId
      name := payload.name
      description := payload.description
      status := .draft
      startAt := payload.startAt
      endAt := payload.endAt
      budgetAmount := payload.budgetAmount
      dailyBudgetAmount := payload.dailyBudgetAmount
      currency := payload.currency
      metadata := payload.metadata
      updatedAt := clock.startedAt }
  match s.campaign? payload.id with
  | some existing => do
      require (existing = { created with updatedAt := existing.updatedAt })
        { code := "CAMPAIGN_CREATE_IDEMPOTENCY_CONFLICT"
          message := "The campaign creation request no longer matches its original inputs" }
      return s
  | none => return { s with campaigns := s.campaigns ++ [created] }

/-- `CampaignUpdate`: the fields that are set, dates and amounts possibly to null. -/
structure CampaignUpdate where
  name : Option String := none
  description : Option (Option String) := none
  startAt : Option (Option Int) := none
  endAt : Option (Option Int) := none
  budgetAmount : Option (Option Int) := none
  dailyBudgetAmount : Option (Option Int) := none
  currency : Option Currency := none
  metadata : Option (List (String × String)) := none

def Campaign.withUpdate (campaign : Campaign) (payload : CampaignUpdate) (startedAt : Int) :
    Campaign :=
  { campaign with
    name := payload.name.getD campaign.name
    description := payload.description.getD campaign.description
    startAt := payload.startAt.getD campaign.startAt
    endAt := payload.endAt.getD campaign.endAt
    budgetAmount := payload.budgetAmount.getD campaign.budgetAmount
    dailyBudgetAmount := payload.dailyBudgetAmount.getD campaign.dailyBudgetAmount
    currency := payload.currency.getD campaign.currency
    metadata := payload.metadata.getD campaign.metadata
    updatedAt := startedAt }

/-- Drafts and rejected campaigns are the advertiser's to write. -/
def editable (status : CampaignStatus) : Bool :=
  status = .draft || status = .rejected

/-- `update_advertiser_campaign`; `currency` is its check against accepted terms. -/
def updateAdvertiserCampaign (authorized currency : Except AppError Unit) (campaignId : Id)
    (payload : CampaignUpdate) (clock : Clock) (s : Store) : Except AppError Store := do
  authorized
  let campaign ← demand (s.campaign? campaignId) campaignNotFound
  require (editable campaign.status) reviewStateConflict
  currency
  let changed := campaign.withUpdate payload clock.startedAt
  ensureCampaignRules changed.startAt changed.endAt changed.budgetAmount changed.dailyBudgetAmount
  return s.putCampaign changed

/-- `accept_quotation_revision` raises a budget below the agreed total. -/
def raiseBudget (campaignId : Id) (grossAmount : Int) (clock : Clock) (s : Store) :
    Except AppError Store := do
  let campaign ← demand (s.campaign? campaignId) campaignNotFound
  if campaign.budgetAmount.all (· < grossAmount) then
    return s.putCampaign
      { campaign with budgetAmount := some grossAmount, updatedAt := clock.startedAt }
  else
    return s

/-! ## Review -/

/-- `campaign_review_snapshot`. -/
def campaignReviewSnapshot (campaign : Campaign) : CampaignReviewSnapshot :=
  { campaignId := campaign.id
    organizationId := campaign.organizationId
    name := campaign.name
    description := campaign.description
    startAt := campaign.startAt
    endAt := campaign.endAt
    budgetAmount := campaign.budgetAmount
    dailyBudgetAmount := campaign.dailyBudgetAmount
    currency := campaign.currency
    metadata := campaign.metadata }

/-- Dates, a total budget and a target area, in this order, where missing. -/
def missingForReview (campaign : Campaign) (s : Store) : List String :=
  (if campaign.startAt.isNone ∨ campaign.endAt.isNone then ["dates"] else [])
    ++ (if campaign.budgetAmount.all (· ≤ 0) then ["total_budget"] else [])
    ++ (if s.zones.any (fun zone => zone.campaignId = campaign.id && zone.zoneType = .target) then []
        else ["target_area"])

def freshReview (eventId : Id) (s : Store) : Except AppError Unit :=
  require (∀ event ∈ s.reviewEvents, event.id ≠ eventId)
    (Trips.uniqueViolation "campaign_review_events_pkey")

/-- `submit_campaign_for_review`; `reviewedAt` is `datetime.now(UTC)`. -/
def submitCampaignForReview (authorized : Except AppError Unit) (userId campaignId eventId : Id)
    (reviewedAt : Int) (clock : Clock) (s : Store) : Except AppError Store := do
  authorized
  let campaign ← demand (s.campaign? campaignId) campaignNotFound
  require (editable campaign.status) reviewStateConflict
  require (missingForReview campaign s = [])
    { code := "CAMPAIGN_INCOMPLETE_FOR_REVIEW"
      message :=
        "Add start and end dates, a total budget and at least one target area before submitting for review" }
  freshReview eventId s
  let s := s.putCampaign
    { campaign with status := .pendingReview, updatedAt := clock.startedAt }
  return { s with
    reviewEvents := s.reviewEvents ++
      [{ id := eventId
         campaignId := campaign.id
         actorUserId := userId
         priorStatus := campaign.status
         newStatus := .pendingReview
         reviewedSnapshot := some (campaignReviewSnapshot campaign)
         createdAt := reviewedAt }] }

/-- `_current_submission_event`: the latest submission. -/
def Store.currentSubmission? (s : Store) (campaignId : Id) : Option CampaignReviewEvent :=
  ((s.reviewEvents.filter (fun event =>
      event.campaignId = campaignId && event.newStatus = .pendingReview)).insertionSort
    (fun a b => b.createdAt < a.createdAt ∨ (a.createdAt = b.createdAt ∧ b.id ≤ a.id))).head?

/-- `decide_campaign_review`. -/
def decideCampaignReview (authorized : Except AppError Unit) (adminUserId campaignId eventId : Id)
    (targetStatus : CampaignStatus) (rejectionReason : Option String) (reviewedAt : Int)
    (clock : Clock) (s : Store) : Except AppError Store := do
  authorized
  let campaign ← demand (s.campaign? campaignId) campaignNotFound
  require (targetStatus = .approved ∨ targetStatus = .rejected) reviewStateConflict
  require (campaign.status = .pendingReview) reviewStateConflict
  let reason := rejectionReason.map (fun reason => String.ofList (Payout.strip reason.toList))
  require (targetStatus = .rejected → reason.any (· ≠ ""))
    { code := "CAMPAIGN_REJECTION_REASON_REQUIRED"
      message := "A nonblank rejection reason is required"
      statusCode := 400 }
  require (targetStatus = .approved → reason = none)
    { code := "INVALID_CAMPAIGN_REVIEW_DECISION"
      message := "Approval does not accept a rejection reason"
      statusCode := 400 }
  let submission ← demand
    ((s.currentSubmission? campaign.id).filter (·.reviewedSnapshot.isSome)) reviewStateConflict
  freshReview eventId s
  let s := s.putCampaign { campaign with status := targetStatus, updatedAt := clock.startedAt }
  return { s with
    reviewEvents := s.reviewEvents ++
      [{ id := eventId
         campaignId := campaign.id
         actorUserId := adminUserId
         priorStatus := campaign.status
         newStatus := targetStatus
         rejectionReason := reason
         submissionEventId := some submission.id
         createdAt := reviewedAt }] }

/-! ## Pausing -/

/-- `enforce_campaign_budget`, where the spend reached the threshold. -/
def pauseCampaign (campaignId : Id) (clock : Clock) (s : Store) : Except AppError Store := do
  let campaign ← demand (s.campaign? campaignId) campaignNotFound
  if campaign.status = .approved ∨ campaign.status = .active then
    return s.putCampaign { campaign with status := .paused, updatedAt := clock.startedAt }
  else
    return s

/-- `resume_budget_campaign` and `resume_campaign`, to the status their records name;
`authorized` is the answer of their other checks. -/
def resumeCampaign (authorized : Except AppError Unit) (campaignId : Id)
    (resumedStatus : CampaignStatus) (clock : Clock) (s : Store) : Except AppError Store := do
  authorized
  let campaign ← demand (s.campaign? campaignId) campaignNotFound
  require (campaign.status = .paused)
    { code := "CAMPAIGN_NOT_PAUSED"
      message := "This campaign is no longer paused. Refresh the page." }
  require (resumedStatus = .approved ∨ resumedStatus = .active) reviewStateConflict
  ensureCampaignNotFinished campaign clock.now "restarted"
  return s.putCampaign { campaign with status := resumedStatus, updatedAt := clock.startedAt }

/-! ## Changes -/

/-- `campaign_change_snapshot`. -/
def campaignChangeSnapshot (campaign : Campaign) : Billing.CampaignSnapshot :=
  { campaignId := campaign.id
    campaignName := campaign.name
    currency := campaign.currency
    budgetAmount := campaign.budgetAmount
    dailyBudgetAmount := campaign.dailyBudgetAmount
    startAt := campaign.startAt
    endAt := campaign.endAt }

def Campaign.withChanges (campaign : Campaign) (changes : ProposedChanges) (startedAt : Int) :
    Campaign :=
  { campaign with
    budgetAmount := changes.budgetAmount.or campaign.budgetAmount
    dailyBudgetAmount := changes.dailyBudgetAmount.or campaign.dailyBudgetAmount
    startAt := changes.startAt.or campaign.startAt
    endAt := changes.endAt.or campaign.endAt
    updatedAt := startedAt }

def Store.updateChange (s : Store) (requestId : Id)
    (f : CampaignChangeRequest → CampaignChangeRequest) : Store :=
  { s with changeRequests := s.changeRequests.map (fun row => if row.id = requestId then f row else row) }

/-- A first review is recorded, a later one is not. -/
def CampaignChangeRequest.withReview (request : CampaignChangeRequest)
    (review : Option Billing.Review) : CampaignChangeRequest :=
  match review with
  | none => request
  | some review =>
      if request.reviewReason.isNone then
        { request with
          reviewedByUserId := some review.userId
          reviewReason := some review.reason }
      else request

section

variable [Freezing]

/-- `_apply_if_funded`; `funded` is billing's answer for the requested liability. -/
def applyIfFunded (funded : Bool) (request : CampaignChangeRequest) (campaign : Campaign)
    (review : Option Billing.Review) (clock : Clock) (s : Store) : Except AppError Store := do
  ensureCampaignNotFinished campaign clock.now "changed"
  require (∀ new ∈ review, ∀ reason ∈ request.reviewReason,
      reason = new.reason ∧ request.reviewedByUserId = some new.userId)
    { code := "CAMPAIGN_CHANGE_DECISION_CONFLICT"
      message := "This campaign change already has a different admin decision" }
  if 0 < request.requestedLiabilityAmount ∧ ¬ funded then
    return s.updateChange request.id (fun row =>
      CampaignChangeRequest.withReview { row with status := .pendingFunding } review)
  else do
    require (request.beforeSha256 = Freezing.changeSha256 (campaignChangeSnapshot campaign))
      { code := "CAMPAIGN_CHANGE_STALE"
        message := "Campaign facts changed after this request was previewed" }
    let changed := campaign.withChanges request.proposedChanges clock.startedAt
    require (validWindow changed.startAt changed.endAt) Billing.invalidCampaignWindow
    require (validBudget changed.budgetAmount changed.dailyBudgetAmount) Billing.invalidCampaignBudget
    return (s.putCampaign changed).updateChange request.id (fun row =>
      CampaignChangeRequest.withReview { row with status := .applied } review)

/-- `_locked_campaign`. -/
def lockedCampaign (campaignId : Id) (s : Store) : Except AppError Campaign := do
  let campaign ← demand (s.campaign? campaignId) campaignNotFound
  require (openForChange campaign.status) Billing.campaignChangeNotAvailable
  return campaign

/-- What an advertiser asks for, with billing's answers on its liability and on the digest of
the preview, which covers it. -/
structure CampaignChangeCreate where
  requestId : Id
  userId : Id
  clientRequestId : Id
  changes : ProposedChanges
  sourceSha256 : Digest
  fingerprint : Digest
  previewCurrent : Bool
  requestedLiabilityAmount : Int
  funded : Bool

/-- The checks of `_build_change_preview`: the changes that are real, and whether an
administrator decides them. -/
def buildChangePreview (campaign : Campaign) (changes : ProposedChanges) (now : Int) :
    Except AppError (ProposedChanges × Bool) := do
  let before := campaignChangeSnapshot campaign
  let proposed := Billing.realChanges before changes
  require (proposed ≠ {})
    { code := "CAMPAIGN_CHANGE_NOOP"
      message := "The request does not change campaign facts"
      statusCode := 400 }
  require (changes.startAt.all (now ≤ ·))
    (Billing.retroactiveDate "A campaign change cannot move its start into the past")
  require (changes.endAt.all (now < ·))
    (Billing.retroactiveDate "A campaign change cannot move its end into the past")
  let after := before.withChanges proposed
  require (validWindow after.startAt after.endAt) Billing.invalidCampaignWindow
  require (validBudget after.budgetAmount after.dailyBudgetAmount) Billing.invalidCampaignBudget
  let classifications := Billing.classify before proposed
  return (proposed,
    classifications.contains "reduction" || classifications.contains "date_change")

/-- `request_campaign_change`. -/
def requestCampaignChange (authorized : Except AppError Unit) (campaignId : Id)
    (payload : CampaignChangeCreate) (clock : Clock) (s : Store) : Except AppError Store := do
  authorized
  let campaign ← lockedCampaign campaignId s
  match s.changeRequests.find? (fun row => row.campaignId = campaignId
      && row.requestedByUserId = payload.userId
      && row.clientRequestId = payload.clientRequestId) with
  | some existing => do
      require (existing.requestFingerprint = payload.fingerprint)
        { code := "CAMPAIGN_CHANGE_RETRY_CONFLICT"
          message := "The client request ID was already used for different changes" }
      return s
  | none => do
      ensureCampaignNotFinished campaign clock.now "changed"
      let (proposed, needsAdmin) ← buildChangePreview campaign payload.changes clock.now
      let before := Freezing.changeSha256 (campaignChangeSnapshot campaign)
      require (before = payload.sourceSha256)
        { code := "CAMPAIGN_CHANGE_STALE"
          message := "Campaign facts changed after this change was previewed" }
      require payload.previewCurrent
        { code := "CAMPAIGN_CHANGE_PREVIEW_STALE"
          message := "Funding or classification facts changed after this change was previewed" }
      require (∀ row ∈ s.changeRequests, row.id ≠ payload.requestId)
        (Trips.uniqueViolation "campaign_change_requests_pkey")
      let request : CampaignChangeRequest :=
        { id := payload.requestId
          campaignId := campaignId
          requestedByUserId := payload.userId
          clientRequestId := payload.clientRequestId
          requestFingerprint := payload.fingerprint
          proposedChanges := proposed
          beforeSha256 := before
          status := .pendingAdmin
          requestedLiabilityAmount := payload.requestedLiabilityAmount }
      let s := { s with changeRequests := s.changeRequests ++ [request] }
      if needsAdmin then
        return s
      else
        applyIfFunded payload.funded request campaign none clock s

/-- `decide_campaign_change`. -/
def decideCampaignChange (authorized : Except AppError Unit) (requestId : Id)
    (approve funded : Bool) (review : Billing.Review) (clock : Clock) (s : Store) :
    Except AppError Store := do
  authorized
  let request ← demand (s.changeRequests.find? (·.id = requestId))
    { code := "CAMPAIGN_CHANGE_NOT_FOUND"
      message := "Campaign change was not found"
      statusCode := 404 }
  let campaign ← lockedCampaign request.campaignId s
  match request.status with
  | .applied => return s
  | .rejected => do
      require (¬ approve ∧ request.reviewReason = some review.reason)
        (Billing.decisionConflict "This change is already rejected")
      return s
  | _ =>
      if approve then
        applyIfFunded funded request campaign (some review) clock s
      else do
        require request.reviewReason.isNone
          (Billing.decisionConflict
            "An approved change waiting for funding cannot be rejected as a retry")
        return s.updateChange requestId (fun row =>
          { row with
            status := .rejected
            reviewedByUserId := some review.userId
            reviewReason := some review.reason })

end

/-! ## Cancellation -/

structure CampaignCancellationCreate where
  cancellationId : Id
  userId : Id
  clientRequestId : Id
  fingerprint : Digest
  reason : String

/-- An open assignment of a cancelled campaign, and its event. -/
def cancelledWithCampaign (payload : CampaignCancellationCreate) (eventIds : Id → Id) (now : Int)
    (assignment : CampaignAssignment) : CampaignAssignment × CampaignActivationEvent :=
  let cancelled := { assignment with status := .cancelled, cancelledAt := some now }
  (cancelled,
    activationEvent (eventIds assignment.id) cancelled (some payload.userId) .cancelled
      (some assignment.status)
      [("reason", .leaf (.text payload.reason)),
       ("campaign_cancellation_id", .leaf (.id payload.cancellationId)),
       ("financial_cutoff_at", .leaf (.instant now))] now)

/-- The campaign's assignments that a cancellation closes. -/
def closedByCancellation (campaignId : Id) (assignment : CampaignAssignment) : Bool :=
  assignment.campaignId = campaignId && nonTerminal assignment.status

/-- `request_campaign_cancellation`; `settlement` is the answer of its checks of terms,
reservations and complaint, `eventIds` the key of each assignment's event. -/
def requestCampaignCancellation (authorized settlement : Except AppError Unit) (campaignId : Id)
    (payload : CampaignCancellationCreate) (eventIds : Id → Id) (clock : Clock) (s : Store) :
    Except AppError Store := do
  authorized
  let campaign ← demand (s.campaign? campaignId) campaignNotFound
  match s.cancellations.find? (·.campaignId = campaignId) with
  | some existing => do
      require (existing.requestedByUserId = payload.userId
          ∧ existing.clientRequestId = payload.clientRequestId
          ∧ existing.requestFingerprint = payload.fingerprint)
        { code := "CAMPAIGN_CANCELLATION_CONFLICT"
          message := "This campaign already has a different immutable cancellation" }
      return s
  | none => do
      settlement
      require (openForChange campaign.status)
        { code := "CAMPAIGN_CANCELLATION_NOT_AVAILABLE"
          message := "Only an approved, active or paused campaign can be cancelled" }
      ensureCampaignNotFinished campaign clock.now "cancelled"
      let closed := orderBy (·.id) (s.assignments.filter (closedByCancellation campaignId ·))
      let events := closed.map (fun row => (cancelledWithCampaign payload eventIds clock.now row).2)
      require ((events.map (·.id)).Nodup ∧ ∀ event ∈ events, ∀ other ∈ s.events, other.id ≠ event.id)
        (Trips.uniqueViolation "campaign_activation_events_pkey")
      let s := s.putCampaign { campaign with status := .cancelled, updatedAt := clock.startedAt }
      return { s with
        cancellations := s.cancellations ++
          [{ id := payload.cancellationId
             campaignId := campaignId
             requestedByUserId := payload.userId
             clientRequestId := payload.clientRequestId
             requestFingerprint := payload.fingerprint
             priorStatus := campaign.status
             cutoffAt := clock.now
             cancelledAssignmentCount := closed.length }]
        assignments := s.assignments.map (fun row =>
          if closedByCancellation campaignId row then
            (cancelledWithCampaign payload eventIds clock.now row).1
          else row)
        events := s.events ++ events }

end Assignments
end Mobility
