import Mobility.Assignments.Terms

/-!
# Lifecycle — offering, deciding, activating and ending an assignment
(`campaign_assignments.py`, `campaign_lifecycle.py`)

One definition for each service call.  A due offer that a decision finds is expired in the
caller's transaction, which the endpoint commits before it answers: such a call returns the
new state with its refusal.  No operation relies on the tables' check constraints or on
their partial unique indexes.
-/

namespace Mobility
namespace Assignments

open Lib
open Payout (Currency Digest)
open Billing (CampaignStatus CampaignAssignmentStatus)

/-! ## Windows -/

/-- `func.now()`, the start of the transaction, and `clock_timestamp()`, read under its locks. -/
structure Clock where
  startedAt : Int
  now : Int
  deriving DecidableEq, Repr

/-- `assignment_window_open`: the campaign is not over at `now`, and not cancelled. -/
def Store.windowOpen (s : Store) (now : Int) (assignment : CampaignAssignment) : Bool :=
  s.campaigns.any (fun campaign =>
    campaign.id = assignment.campaignId && campaign.endAt.all (now < ·)
      && campaign.status ≠ .cancelled)

/-- `NON_TERMINAL_ASSIGNMENT_STATUSES`. -/
def nonTerminal (status : CampaignAssignmentStatus) : Bool :=
  status = .offered || status = .accepted || status = .active

/-- `ensure_not_expired`. -/
def ensureNotExpired (campaign : Campaign) (now : Int) (code : String) : Except AppError Unit :=
  require (campaign.endAt.all (now < ·))
    { code := code, message := "This campaign has already ended", statusCode := 400 }

/-! ## Refusals and checks -/

def driverProfileNotFound (message : String) : AppError :=
  { code := "DRIVER_PROFILE_NOT_FOUND", message := message, statusCode := 404 }

def vehicleNotFound : AppError :=
  { code := "VEHICLE_NOT_FOUND", message := "Vehicle was not found", statusCode := 404 }

def assignmentNotFound : AppError :=
  { code := "CAMPAIGN_ASSIGNMENT_NOT_FOUND"
    message := "Campaign assignment was not found"
    statusCode := 404 }

def invalidAssignmentTransition (message : String) : AppError :=
  { code := "INVALID_ASSIGNMENT_TRANSITION", message := message, statusCode := 400 }

def decisionConflict : AppError :=
  { code := "ASSIGNMENT_DECISION_CONFLICT"
    message := "This assignment already has a different terminal decision" }

/-- `OfferExpiredError`. -/
def offerExpired (message : String) : AppError :=
  { code := "OFFER_EXPIRED", message := message }

/-- `ensure_campaign_assignable`. -/
def ensureCampaignAssignable (campaign : Campaign) (now : Int) : Except AppError Unit := do
  require (campaign.status = .approved ∨ campaign.status = .active ∨ campaign.status = .paused)
    { code := "CAMPAIGN_NOT_ASSIGNABLE", message := "Campaign is not assignable", statusCode := 400 }
  ensureNotExpired campaign now "CAMPAIGN_EXPIRED"

/-- `ensure_campaign_acceptable`. -/
def ensureCampaignAcceptable (campaign : Campaign) (now : Int) : Except AppError Unit := do
  require (campaign.status ≠ .cancelled)
    { code := "CAMPAIGN_NOT_ACCEPTABLE"
      message := "Campaign can no longer be accepted"
      statusCode := 400 }
  ensureNotExpired campaign now "CAMPAIGN_EXPIRED"

/-- `ensure_campaign_activatable`. -/
def ensureCampaignActivatable (campaign : Campaign) (now : Int) : Except AppError Unit := do
  require (campaign.status = .approved ∨ campaign.status = .active)
    { code := "CAMPAIGN_NOT_ACTIVE"
      message := "Campaign must be active before activation"
      statusCode := 400 }
  require (campaign.startAt.all (· ≤ now))
    { code := "CAMPAIGN_NOT_STARTED"
      message := "This campaign has not started yet"
      statusCode := 400 }
  ensureNotExpired campaign now "CAMPAIGN_EXPIRED"

/-- `ensure_active_driver_profile`, `ensure_active_vehicle` and
`ensure_vehicle_belongs_to_driver`; `eligibility` is the answer of
`ensure_current_driver_vehicle_eligibility`. -/
def ensureWorkEligible (driverProfile : DriverProfile) (vehicle : Vehicle)
    (eligibility : Except AppError Unit) : Except AppError Unit := do
  require (driverProfile.onboardingStatus = .active)
    { code := "DRIVER_PROFILE_NOT_ACTIVE"
      message := "Driver profile is not active"
      statusCode := 400 }
  require (vehicle.status = .active)
    { code := "VEHICLE_NOT_ACTIVE", message := "Vehicle is not active", statusCode := 400 }
  require (vehicle.driverProfileId = driverProfile.id)
    { code := "VEHICLE_DRIVER_PROFILE_MISMATCH"
      message := "Vehicle does not belong to the assigned driver profile"
      statusCode := 400 }
  eligibility

/-- `ensure_no_duplicate_non_terminal_assignment`. -/
def ensureNoDuplicateNonTerminalAssignment (campaignId vehicleId : Id) (s : Store) :
    Except AppError Unit :=
  require (∀ row ∈ s.assignments,
      ¬ (row.campaignId = campaignId ∧ row.vehicleId = vehicleId ∧ nonTerminal row.status))
    { code := "DUPLICATE_CAMPAIGN_VEHICLE_ASSIGNMENT"
      message := "A non-terminal assignment already exists for this campaign and vehicle" }

/-- Another active assignment in an open window with the same `owner`. -/
def ensureNoOtherActiveAssignment (owner : CampaignAssignment → Id) (error : AppError)
    (startedAt : Int) (assignment : CampaignAssignment) (s : Store) : Except AppError Unit :=
  require (∀ row ∈ s.assignments,
      ¬ (owner row = owner assignment ∧ row.status = .active ∧ s.windowOpen startedAt row
        ∧ row.id ≠ assignment.id))
    error

/-- `ensure_no_other_active_assignment_for_vehicle`. -/
def ensureNoOtherActiveAssignmentForVehicle : Int → CampaignAssignment → Store → Except AppError Unit :=
  ensureNoOtherActiveAssignment (·.vehicleId)
    { code := "ACTIVE_ASSIGNMENT_EXISTS_FOR_VEHICLE"
      message := "Another assignment is already active for this vehicle" }

/-- `ensure_no_other_active_assignment_for_driver`. -/
def ensureNoOtherActiveAssignmentForDriver : Int → CampaignAssignment → Store → Except AppError Unit :=
  ensureNoOtherActiveAssignment (·.driverProfileId)
    { code := "ACTIVE_ASSIGNMENT_EXISTS_FOR_DRIVER"
      message := "Another assignment is already active for this driver" }

/-! ## Events -/

/-- Events of these types carry the digest of the offer. -/
def carriesOfferDigest : CampaignActivationEventType → Bool
  | .assigned | .accepted | .declined | .expired | .activated => true
  | _ => false

/-- `create_activation_event`: the row it adds, for the assignment as it now is. -/
def activationEvent (eventId : Id) (assignment : CampaignAssignment) (actorUserId : Option Id)
    (eventType : CampaignActivationEventType) (previousStatus : Option CampaignAssignmentStatus)
    (metadata : Metadata) (occurredAt : Int) : CampaignActivationEvent :=
  let evidence := if carriesOfferDigest eventType then assignment.offerTermsSha256 else none
  { id := eventId
    assignmentId := assignment.id
    actorUserId := actorUserId
    eventType := eventType
    previousStatus := previousStatus
    newStatus := assignment.status
    occurredAt := occurredAt
    metadata :=
      match evidence with
      | some sha256 => metadata.setDefault "offer_terms_sha256" (.leaf (.text sha256))
      | none => metadata
    offerTermsSha256 := evidence }

/-- The row replaced under its id, and the event of the change added. -/
def Store.record (s : Store) (assignment : CampaignAssignment) (event : CampaignActivationEvent) :
    Store :=
  { s.putAssignment assignment with events := s.events ++ [event] }

/-- `uuid4` keys of events are new. -/
def freshEvent (eventId : Id) (s : Store) : Except AppError Unit :=
  require (∀ event ∈ s.events, event.id ≠ eventId)
    (Trips.uniqueViolation "campaign_activation_events_pkey")

/-! ## Offering -/

/-- `CampaignAssignmentCreate`, with the ids the new rows get. -/
structure CampaignAssignmentCreate where
  assignmentId : Id
  eventId : Id
  campaignId : Id
  driverProfileId : Id
  vehicleId : Id
  creativeId : Id
  expiresAt : Int
  notes : Option String := none
  metadata : Metadata := []

section

variable [Freezing]

/-- `create_campaign_assignment`; `recommendation` is the answer of
`ensure_recommendation_context_current`. -/
def createCampaignAssignment (authorized recommendation eligibility : Except AppError Unit)
    (adminUserId : Id) (payload : CampaignAssignmentCreate) (now : Int) (s : Store) :
    Except AppError Store := do
  authorized
  let campaign ← demand (s.campaign? payload.campaignId) campaignNotFound
  recommendation
  let driverProfile ← demand (s.driverProfile? payload.driverProfileId)
    (driverProfileNotFound "Driver profile was not found")
  let vehicle ← demand (s.vehicle? payload.vehicleId) vehicleNotFound
  ensureCampaignAssignable campaign now
  let _ ← demand campaign.startAt
    (completeCampaignWindowRequired
      "A campaign start and end are required before offering an assignment")
  let stop ← demand campaign.endAt
    (completeCampaignWindowRequired
      "A campaign start and end are required before offering an assignment")
  require (now < payload.expiresAt ∧ payload.expiresAt ≤ stop)
    { code := "INVALID_OFFER_EXPIRY"
      message :=
        "Offer expiry must be after the current database time and within the campaign window"
      statusCode := 400 }
  ensureWorkEligible driverProfile vehicle eligibility
  ensureNoDuplicateNonTerminalAssignment campaign.id vehicle.id s
  let (terms, sha256) ← buildOfferTerms campaign driverProfile now payload.creativeId s
  require (∀ row ∈ s.assignments, row.id ≠ payload.assignmentId)
    (Trips.uniqueViolation "campaign_assignments_pkey")
  freshEvent payload.eventId s
  let assignment : CampaignAssignment :=
    { id := payload.assignmentId
      campaignId := campaign.id
      driverProfileId := driverProfile.id
      vehicleId := vehicle.id
      assignedByUserId := adminUserId
      status := .offered
      offeredAt := now
      expiresAt := some payload.expiresAt
      notes := payload.notes
      metadata := payload.metadata
      offerTerms := some terms
      offerTermsSha256 := some sha256 }
  return { s with
    assignments := s.assignments ++ [assignment]
    events := s.events ++
      [activationEvent payload.eventId assignment (some adminUserId) .assigned none
        payload.metadata now] }

/-! ## Expiry -/

/-- The offer is due at `now`. -/
def Due (now : Int) (assignment : CampaignAssignment) : Prop :=
  assignment.status = .offered ∧ assignment.expiresAt.any (· ≤ now)

instance (now : Int) (assignment : CampaignAssignment) : Decidable (Due now assignment) :=
  inferInstanceAs (Decidable (_ ∧ _))

/-- What `expire_assignment_if_due` writes for a due offer. -/
def expireAssignment (eventId : Id) (assignment : CampaignAssignment) (now : Int) (s : Store) :
    Store :=
  let expired := { assignment with status := .expired, expiredAt := some now }
  s.record expired
    (activationEvent eventId expired none .expired (some assignment.status)
      [("reason", .leaf (.text "offer_expired"))] now)

/-- `expire_assignment_offer`: whether it expired the offer. -/
def expireAssignmentOffer (eventId assignmentId : Id) (now : Int) (s : Store) :
    Except AppError (Store × Bool) := do
  match s.assignment? assignmentId with
  | none => return (s, false)
  | some assignment =>
      if (s.campaign? assignment.campaignId).isNone then
        return (s, false)
      else if Due now assignment then do
        freshEvent eventId s
        return (expireAssignment eventId assignment now s, true)
      else
        return (s, false)

/-- The due offers in campaign and assignment order. -/
def Store.dueOffers (s : Store) (now : Int) : List CampaignAssignment :=
  (s.assignments.filter (Due now ·)).insertionSort
    (fun a b => a.campaignId < b.campaignId ∨ (a.campaignId = b.campaignId ∧ a.id ≤ b.id))

/-- `expire_due_assignment_offers`: each id with the key its event would get and the reading of
the clock under its locks. -/
def expireDueAssignmentOffers (limit : Nat) (eventIds : Id → Id) (clocks : Id → Int) (now : Int)
    (s : Store) : Except AppError (Store × Nat) :=
  checkedFold
    (fun (state : Store × Nat) (assignmentId : Id) => do
      let (s, expired) ←
        expireAssignmentOffer (eventIds assignmentId) assignmentId (clocks assignmentId) state.1
      return (s, if expired then state.2 + 1 else state.2))
    (s, 0) (((s.dueOffers now).take limit).map (·.id))

/-! ## The driver's decision -/

/-- A committed state, and the refusal it is answered with, if any. -/
abbrev Answered := Store × Option AppError

/-- The driver's own assignment, with the rows a decision locks. -/
def driverAssignment (userId assignmentId : Id) (s : Store) :
    Except AppError (Campaign × CampaignAssignment) := do
  let driverProfile ← demand (s.driverProfileOfUser? userId)
    (driverProfileNotFound "Driver profile was not found for the current user")
  let assignment ← demand
    ((s.assignment? assignmentId).filter (·.driverProfileId = driverProfile.id)) assignmentNotFound
  let campaign ← demand (s.campaign? assignment.campaignId) assignmentNotFound
  return (campaign, assignment)

/-- `accept_driver_assignment`. -/
def acceptDriverAssignment (eligibility : Except AppError Unit) (userId assignmentId : Id)
    (eventId bindingId : Id) (metadata : Metadata) (now : Int) (s : Store) :
    Except AppError Answered := do
  let (campaign, assignment) ← driverAssignment userId assignmentId s
  let driverProfile ← demand (s.driverProfile? assignment.driverProfileId) assignmentNotFound
  let vehicle ← demand (s.vehicle? assignment.vehicleId) assignmentNotFound
  match assignment.status with
  | .accepted => return (s, none)
  | .declined | .expired => .error decisionConflict
  | .active | .cancelled =>
      .error (invalidAssignmentTransition "Only offered assignments can be accepted")
  | .offered =>
      freshEvent eventId s
      if Due now assignment then
        return (expireAssignment eventId assignment now s,
          some (offerExpired "The assignment offer expired before it could be accepted"))
      else do
        ensureCampaignAcceptable campaign now
        ensureWorkEligible driverProfile vehicle eligibility
        let accepted := { assignment with status := .accepted, acceptedAt := some now }
        let binding ← createRuleBindingForAccept bindingId accepted now s
        require (∀ row ∈ s.bindings, row.id ≠ bindingId)
          (Trips.uniqueViolation "assignment_rule_bindings_pkey")
        let s := { s with bindings := s.bindings ++ [binding] }
        return (s.record accepted
          (activationEvent eventId accepted (some userId) .accepted (some .offered) metadata now), none)

/-- `decline_driver_assignment`. -/
def declineDriverAssignment (userId assignmentId eventId : Id) (metadata : Metadata) (now : Int)
    (s : Store) : Except AppError Answered := do
  let (campaign, assignment) ← driverAssignment userId assignmentId s
  match assignment.status with
  | .declined => return (s, none)
  | .accepted | .expired => .error decisionConflict
  | .active | .cancelled =>
      .error (invalidAssignmentTransition "Only offered assignments can be declined")
  | .offered =>
      freshEvent eventId s
      if Due now assignment then
        return (expireAssignment eventId assignment now s,
          some (offerExpired "The assignment offer expired before it could be declined"))
      else do
        ensureCampaignAcceptable campaign now
        let declined := { assignment with status := .declined, declinedAt := some now }
        return (s.record declined
          (activationEvent eventId declined (some userId) .declined (some .offered) metadata now), none)

/-! ## Activation -/

def activationSnapshotVersion : String := "assignment-activation-v1"

/-- What activation asks of billing, of the evidence of the installation and of the creative's
reviews, as they answer it. -/
structure ActivationAuthority where
  eligibility : Except AppError Unit
  creativeReviewEventId : Option Id
  /-- the reservation found or made, with its status -/
  reservation : Except AppError (Option (Id × Billing.LiabilityReservationStatus))
  authorizationId : Except AppError Id
  newWork : Except AppError Unit
  /-- the submission and its revision -/
  evidence : Except AppError (Id × Nat)
  productionStart : Option Billing.ProductionStart

def assignmentFundingRequired : AppError :=
  { code := "ASSIGNMENT_FUNDING_REQUIRED"
    message := "Campaign funding must reserve this assignment before activation" }

def frozenPayoutBindingRequired (message : String) : AppError :=
  { code := "FROZEN_PAYOUT_BINDING_REQUIRED", message := message }

/-- `ensure_campaign_review_approved`: the latest approval. -/
def Store.approvedReview? (s : Store) (campaignId : Id) : Option CampaignReviewEvent :=
  ((s.reviewEvents.filter (fun event =>
      event.campaignId = campaignId && event.newStatus = .approved)).insertionSort
    (fun a b => b.createdAt < a.createdAt ∨ (a.createdAt = b.createdAt ∧ b.id ≤ a.id))).head?

def basisText : Billing.ProductionAuthorityBasis → String
  | .standardWindowElapsed => "standard_window_elapsed"
  | .advertiserExpeditedWaiver => "advertiser_expedited_waiver"
  | .approvedCredit => "approved_credit"

def optionalId : Option Id → Leaf
  | some value => .id value
  | none => .null

def optionalDigest : Option Digest → Leaf
  | some value => .text value
  | none => .null

def optionalInstant : Option Int → Leaf
  | some value => .instant value
  | none => .null

/-- What `ensure_current_activation_snapshot` expects of the snapshot of an assignment. -/
def expectedSnapshot (assignment : CampaignAssignment) : Document :=
  [("version", .text activationSnapshotVersion),
   ("assignment_id", .id assignment.id),
   ("campaign_id", .id assignment.campaignId),
   ("driver_profile_id", .id assignment.driverProfileId),
   ("vehicle_id", .id assignment.vehicleId),
   ("offer_terms_sha256", optionalDigest assignment.offerTermsSha256),
   ("activated_at", optionalInstant assignment.activatedAt)]

/-- The snapshot that activation stores; the order of its keys is irrelevant. -/
def activationSnapshot (campaign : Campaign) (driverProfile : DriverProfile) (vehicle : Vehicle)
    (assignment : CampaignAssignment) (review : CampaignReviewEvent) (creative : CampaignCreative)
    (creativeReviewEventId : Option Id) (binding : AssignmentRuleBinding)
    (reservationId authorizationId : Id) (production : Billing.ProductionStart)
    (evidence : Id × Nat) (now : Int) : Document :=
  [("version", .text activationSnapshotVersion),
   ("assignment_id", .id assignment.id),
   ("campaign_id", .id campaign.id),
   ("driver_profile_id", .id driverProfile.id),
   ("vehicle_id", .id vehicle.id),
   ("offer_terms_sha256", optionalDigest assignment.offerTermsSha256),
   ("campaign_review_event_id", .id review.id),
   ("creative_id", .id creative.id),
   ("creative_review_event_id", optionalId creativeReviewEventId),
   ("assignment_rule_binding_id", .id binding.id),
   ("liability_reservation_id", .id reservationId),
   ("financial_authorization_id", .id authorizationId),
   ("production_start_id", .id production.id),
   ("production_authority_basis", .text (basisText production.authorityBasis)),
   ("production_waiver_id", optionalId production.waiverId),
   ("installation_evidence_submission_id", .id evidence.1),
   ("installation_evidence_revision", .number evidence.2),
   ("activated_at", .instant now)]

def activationSnapshotError : AppError :=
  { code := "VALID_ACTIVATION_SNAPSHOT_REQUIRED"
    message := "A valid immutable admin activation snapshot is required before earning can start" }

/-- The latest activation event of the assignment. -/
def Store.activationEvent? (s : Store) (assignmentId : Id) : Option CampaignActivationEvent :=
  ((s.events.filter (fun event =>
      event.assignmentId = assignmentId && event.eventType = .activated)).insertionSort
    (fun a b => b.occurredAt < a.occurredAt ∨ (a.occurredAt = b.occurredAt ∧ b.id ≤ a.id))).head?

/-- `ensure_current_activation_snapshot`. -/
def ensureCurrentActivationSnapshot (assignment : CampaignAssignment) (s : Store) :
    Except AppError Document := do
  let event ← demand (s.activationEvent? assignment.id) activationSnapshotError
  require (assignment.status = .active) activationSnapshotError
  match event.metadata.get "activation_snapshot",
      event.metadata.get "activation_snapshot_sha256" with
  | some (.object snapshot), some (.leaf (.text digest)) => do
      require (Freezing.snapshotSha256 snapshot = digest) activationSnapshotError
      require (∀ entry ∈ expectedSnapshot assignment, snapshot.get entry.1 = entry.2)
        activationSnapshotError
      require (event.offerTermsSha256 = assignment.offerTermsSha256) activationSnapshotError
      return snapshot
  | _, _ => .error activationSnapshotError

/-- The frozen creative is still the approved one. -/
def ensureOfferedCreative (terms : OfferTerms) (campaign : Campaign) (s : Store) :
    Except AppError CampaignCreative := do
  let creative ← demand ((s.creative? terms.creative.id campaign.id).filter (·.status = .approved))
    (approvedCreativeRequired "The selected campaign creative is no longer approved")
  let current ← demand (creativeSnapshot creative).toOption
    (approvedCreativeRequired "The selected campaign creative has incomplete content identity")
  require (current = terms.creative)
    { code := "OFFER_CREATIVE_CHANGED"
      message := "The selected campaign creative changed after the offer was accepted" }
  return creative

/-- The binding that acceptance made for this offer. -/
def ensureAcceptedBinding (assignment : CampaignAssignment) (s : Store) :
    Except AppError AssignmentRuleBinding := do
  let binding ← demand (s.binding? assignment.id)
    (frozenPayoutBindingRequired "Accepted frozen payout terms are required before activation")
  require (binding.offerTermsSha256 = assignment.offerTermsSha256 ∧ binding.campaignWindowFrozen
      ∧ binding.campaignWindowStartAt.isSome ∧ binding.campaignWindowEndAt.isSome)
    (frozenPayoutBindingRequired "The payout binding is not linked to the accepted offer evidence")
  return binding

/-- `activate_admin_assignment`. -/
def activateAdminAssignment (authorized : Except AppError Unit) (adminUserId assignmentId : Id)
    (authority : ActivationAuthority) (eventId : Id) (metadata : Metadata) (clock : Clock)
    (s : Store) : Except AppError Store := do
  authorized
  let assignment ← demand (s.assignment? assignmentId) assignmentNotFound
  let campaign ← demand (s.campaign? assignment.campaignId) assignmentNotFound
  require (assignment.status = .accepted ∨ assignment.status = .active)
    (invalidAssignmentTransition "Only accepted or active assignments can be activated")
  let driverProfile ← demand (s.driverProfile? assignment.driverProfileId)
    (driverProfileNotFound "Driver profile was not found")
  let vehicle ← demand (s.vehicle? assignment.vehicleId) vehicleNotFound
  ensureCampaignActivatable campaign clock.now
  ensureWorkEligible driverProfile vehicle authority.eligibility
  let review ← demand (s.approvedReview? campaign.id)
    { code := "CAMPAIGN_REVIEW_APPROVAL_REQUIRED"
      message := "An approved campaign review is required before assignment activation" }
  require (offerTermsComplete assignment.offerTerms assignment.offerTermsSha256)
    (frozenOfferTermsRequired "A complete frozen offer is required before activation")
  let terms ← demand assignment.offerTerms
    (frozenOfferTermsRequired "A complete frozen offer is required before activation")
  let creative ← ensureOfferedCreative terms campaign s
  let binding ← ensureAcceptedBinding assignment s
  let reserved ← authority.reservation
  let reservation ← demand (reserved.filter (·.2 = .reserved)) assignmentFundingRequired
  let authorizationId ← authority.authorizationId
  authority.newWork
  let evidence ← authority.evidence
  if assignment.status = .active then do
    let _ ← ensureCurrentActivationSnapshot assignment s
    return s
  else do
    ensureNoOtherActiveAssignmentForVehicle clock.startedAt assignment s
    ensureNoOtherActiveAssignmentForDriver clock.startedAt assignment s
    let production ← demand authority.productionStart
      { code := "PRODUCTION_FINANCIAL_AUTHORITY_REQUIRED"
        message := "Campaign activation requires a recorded production start" }
    freshEvent eventId s
    let activated := { assignment with status := .active, activatedAt := some clock.now }
    let snapshot := activationSnapshot campaign driverProfile vehicle assignment review creative
      authority.creativeReviewEventId binding reservation.1 authorizationId production evidence
      clock.now
    let metadata := (metadata.set "activation_snapshot" (.object snapshot)).set
      "activation_snapshot_sha256" (.leaf (.text (Freezing.snapshotSha256 snapshot)))
    let s :=
      if campaign.status = .approved then
        s.putCampaign { campaign with status := .active, updatedAt := clock.startedAt }
      else s
    return s.record activated
      (activationEvent eventId activated (some adminUserId) .activated (some .accepted) metadata
        clock.now)

/-! ## Ending an assignment -/

/-- `deactivate_driver_assignment`. -/
def deactivateDriverAssignment (userId assignmentId eventId : Id) (metadata : Metadata) (now : Int)
    (s : Store) : Except AppError Store := do
  let (campaign, assignment) ← driverAssignment userId assignmentId s
  let _ ← demand (s.driverProfile? assignment.driverProfileId) assignmentNotFound
  let _ ← demand (s.vehicle? assignment.vehicleId) assignmentNotFound
  require (assignment.status = .active)
    (invalidAssignmentTransition "Only active assignments can be deactivated")
  ensureNotExpired campaign now "ASSIGNMENT_FINISHED"
  freshEvent eventId s
  let ended :=
    { assignment with
      status := .cancelled
      deactivatedAt := some now
      cancelledAt := some now }
  return s.record ended
    (activationEvent eventId ended (some userId) .deactivated (some .active) metadata now)

/-- `cancel_admin_assignment`. -/
def cancelAdminAssignment (authorized : Except AppError Unit) (adminUserId assignmentId eventId : Id)
    (reason : String) (metadata : Metadata) (now : Int) (s : Store) : Except AppError Answered := do
  authorized
  let assignment ← demand (s.assignment? assignmentId) assignmentNotFound
  let campaign ← demand (s.campaign? assignment.campaignId) assignmentNotFound
  let _ ← demand (s.driverProfile? assignment.driverProfileId) assignmentNotFound
  let _ ← demand (s.vehicle? assignment.vehicleId) assignmentNotFound
  ensureNotExpired campaign now "ASSIGNMENT_FINISHED"
  freshEvent eventId s
  if Due now assignment then
    return (expireAssignment eventId assignment now s,
      some (offerExpired "The assignment offer expired before it could be cancelled"))
  else do
    require (¬ (assignment.status = .offered
        ∧ offerTermsComplete assignment.offerTerms assignment.offerTermsSha256))
      { code := "OFFER_DECISION_REQUIRED"
        message := "A complete offer may only be accepted, declined, or expired" }
    require (nonTerminal assignment.status)
      (invalidAssignmentTransition "Terminal decision assignments cannot be cancelled")
    let cancelled := { assignment with status := .cancelled, cancelledAt := some now }
    return (s.record cancelled
      (activationEvent eventId cancelled (some adminUserId) .cancelled (some assignment.status)
        (metadata.set "reason" (.leaf (.text reason))) now), none)

end

/-! ## Reading -/

/-- `get_current_active_driver_assignment`. -/
def getCurrentActiveDriverAssignment (userId : Id) (now : Int) (s : Store) :
    Except AppError (Option CampaignAssignment) := do
  let driverProfile ← demand (s.driverProfileOfUser? userId)
    (driverProfileNotFound "Driver profile was not found for the current user")
  let live := s.assignments.filter (fun row =>
    row.driverProfileId = driverProfile.id && row.status = .active && s.windowOpen now row)
  require (live.length ≤ 1)
    { code := "MULTIPLE_ACTIVE_ASSIGNMENTS"
      message := "Two jobs are live on your account. Please contact support so we can fix it." }
  return live.head?

/-- `assignment_status_expression`; `none` is the read projection `"finished"`. -/
def assignmentStatus (s : Store) (now : Int) (assignment : CampaignAssignment) :
    Option CampaignAssignmentStatus :=
  if nonTerminal assignment.status ∧ s.campaigns.any (fun campaign =>
      campaign.id = assignment.campaignId && campaign.endAt.any (· ≤ now)) then none
  else some assignment.status

end Assignments
end Mobility
