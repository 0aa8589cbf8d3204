import Mobility.Billing.Settlements
import Mobility.Payout.Frozen
import Mobility.Lib.Keyed

/-!
# Types — campaigns, offers and assignments (`app/models/campaign.py`,
`campaign_assignment.py`, `payout.py`)

Whole rows this time: what an offer froze, who decided it, when it started and ended.
Ids, instants and decimals stand for their texts in the frozen documents.  Billing's own
rows are modelled apart; what assignments ask of it is carried by the action.
-/

namespace Mobility
namespace Assignments

open Lib
open Payout (Currency Digest)
open Billing (CampaignStatus CampaignAssignmentStatus CampaignChangeStatus)

/-! ## Enumerations -/

inductive DriverOnboardingStatus
  | pending
  | active
  | suspended
  | rejected
  deriving DecidableEq, Repr

inductive VehicleStatus
  | pending
  | active
  | inactive
  | suspended
  deriving DecidableEq, Repr

inductive CreativeStatus
  | draft
  | pendingReview
  | approved
  | rejected
  | archived
  deriving DecidableEq, Repr

inductive CampaignZoneType
  | target
  | exclusion
  deriving DecidableEq, Repr

inductive CampaignActivationEventType
  | assigned
  | accepted
  | declined
  | expired
  | activated
  | deactivated
  | cancelled
  | completed
  deriving DecidableEq, Repr

/-! ## Documents -/

/-- A leaf of a JSON document, by the value its text spells. -/
inductive Leaf
  | null
  | text (value : String)
  | id (value : Id)
  | instant (value : Int)
  | number (value : ℚ)
  deriving DecidableEq, Repr

/-- A flat JSON object. -/
abbrev Document := List (String × Leaf)

/-- `document.get(key)`. -/
def Document.get (document : Document) (key : String) : Leaf :=
  ((document.find? (·.1 = key)).map (·.2)).getD .null

/-- What an event's metadata holds under a key. -/
inductive MetadataValue
  | leaf (value : Leaf)
  | object (document : Document)
  deriving DecidableEq, Repr

abbrev Metadata := List (String × MetadataValue)

/-- `metadata.get(key)`. -/
def Metadata.get (metadata : Metadata) (key : String) : Option MetadataValue :=
  (metadata.find? (·.1 = key)).map (·.2)

/-- `metadata[key] = value`. -/
def Metadata.set (metadata : Metadata) (key : String) (value : MetadataValue) : Metadata :=
  putRow (·.1) (key, value) metadata

/-- `metadata.setdefault(key, value)`. -/
def Metadata.setDefault (metadata : Metadata) (key : String) (value : MetadataValue) : Metadata :=
  if metadata.any (·.1 = key) then metadata else metadata ++ [(key, value)]

@[simp]
theorem Metadata.get_set (metadata : Metadata) (key other : String) (value : MetadataValue) :
    (metadata.set key value).get other = if key = other then some value else metadata.get other := by
  unfold Metadata.set Metadata.get
  rw [lookup_putRow]
  split_ifs <;> rfl

/-- A default shows only where the key is absent. -/
theorem Metadata.get_setDefault {metadata : Metadata} {key other : String} {value : MetadataValue}
    (h : key ≠ other) : (metadata.setDefault key value).get other = metadata.get other := by
  unfold Metadata.setDefault Metadata.get
  split_ifs
  · rfl
  · simp [List.find?_append, h]

/-! ## Campaigns and their reviews -/

structure Campaign where
  id : Id
  organizationId : Id
  createdByUserId : Id
  name : String
  description : Option String := none
  status : CampaignStatus
  startAt : Option Int := none
  endAt : Option Int := none
  budgetAmount : Option Int := none
  dailyBudgetAmount : Option Int := none
  currency : Currency
  metadata : List (String × String) := []
  updatedAt : Int
  deriving DecidableEq, Repr

/-- `campaign_review_snapshot`, as kept by a submission. -/
structure CampaignReviewSnapshot where
  campaignId : Id
  organizationId : Id
  name : String
  description : Option String
  startAt : Option Int
  endAt : Option Int
  budgetAmount : Option Int
  dailyBudgetAmount : Option Int
  currency : Currency
  metadata : List (String × String)
  deriving DecidableEq, Repr

structure CampaignReviewEvent where
  id : Id
  campaignId : Id
  actorUserId : Id
  priorStatus : CampaignStatus
  newStatus : CampaignStatus
  rejectionReason : Option String := none
  reviewedSnapshot : Option CampaignReviewSnapshot := none
  submissionEventId : Option Id := none
  createdAt : Int
  deriving DecidableEq, Repr

/-- A text that is not blank. -/
def nonblank (value : String) : Bool := Payout.strip value.toList ≠ []

structure CampaignZone where
  id : Id
  campaignId : Id
  zoneType : CampaignZoneType
  name : String
  /-- `ST_AsText(geom)`, never blank -/
  wkt : Option { text : String // nonblank text }
  deriving DecidableEq, Repr

/-! ## Creatives -/

structure StoredFile where
  id : Id
  organizationId : Id
  purpose : String
  scanStatus : String
  checksumSha256 : Option Digest
  contentType : String
  actualContentType : Option String
  deriving DecidableEq, Repr

structure CampaignCreative where
  id : Id
  campaignId : Id
  name : String
  creativeType : String
  placement : String
  status : CreativeStatus
  checksum : Option Digest
  storedFile : Option StoredFile
  mimeType : String
  widthPx : Option Int := none
  heightPx : Option Int := none
  durationSeconds : Option Int := none
  metadata : Document := []
  updatedAt : Option Int
  deriving DecidableEq, Repr

structure CreativeContent where
  checksum : Digest
  storedFileId : Option Id
  mimeType : String
  widthPx : Option Int
  heightPx : Option Int
  durationSeconds : Option Int
  deriving DecidableEq, Repr

/-- `_creative_snapshot`. -/
structure CreativeSnapshot where
  id : Id
  name : String
  creativeType : String
  placement : String
  checksum : Digest
  version : Option Int
  content : CreativeContent
  contentSha256 : Digest
  metadata : Document
  deriving DecidableEq, Repr

/-! ## Drivers and vehicles -/

structure DriverProfile where
  id : Id
  userId : Id
  onboardingStatus : DriverOnboardingStatus
  serviceCity : Option String
  countryCode : Option String
  deriving DecidableEq, Repr

structure Vehicle where
  id : Id
  driverProfileId : Id
  status : VehicleStatus
  deriving DecidableEq, Repr

/-! ## Pay terms -/

/-- `V4_TERM_FIELDS`. -/
structure PayTerms where
  dailyRateNaira : ℚ
  dailyTargetMiles : ℚ
  shortfallStrategy : String
  deductionPerMileNaira : Option ℚ
  minimumMiles : ℚ
  outsideAreaWeight : ℚ
  deriving DecidableEq, Repr

structure CampaignPayoutRule where
  id : Id
  campaignId : Id
  status : String := "active"
  formulaVersion : String
  currency : Currency
  deriving DecidableEq, Repr

structure CampaignPayoutRuleRevision where
  id : Id
  campaignId : Id
  payoutRuleId : Id
  revisionNumber : Nat
  effectiveFrom : Int
  terms : PayTerms
  currency : Currency
  eligibilityParams : List (String × ℚ)
  formulaVersion : String
  deriving DecidableEq, Repr

/-! ## The frozen offer -/

structure ServiceArea where
  city : String
  countryCode : Option String
  deriving DecidableEq, Repr

structure Branding where
  campaignId : Id
  organizationId : Id
  campaignName : String
  brandName : Option String
  version : Option Int
  deriving DecidableEq, Repr

structure PayoutTerms where
  currency : Currency
  revisionId : Id
  payoutRuleId : Id
  revisionNumber : Nat
  effectiveFrom : Int
  formulaVersion : String
  terms : PayTerms
  eligibilityParams : List (String × ℚ)
  deriving DecidableEq, Repr

structure ZoneRow where
  id : Id
  name : String
  wkt : String
  deriving DecidableEq, Repr

structure ZoneTerms where
  semantics : String
  target : List ZoneRow
  premium : List ZoneRow
  exclusion : List ZoneRow
  deriving DecidableEq, Repr

structure ResolvedEligibility where
  stationaryRadiusM : ℚ
  stationaryWindowSeconds : Int
  stationaryGraceSeconds : Int
  maxAccuracyM : ℚ
  teleportKmh : ℚ
  maxPingGapSeconds : Int
  deriving DecidableEq, Repr

structure OfferTerms where
  offerTermsVersion : String
  currency : Currency
  campaignWindowStartAt : Int
  campaignWindowEndAt : Int
  serviceArea : ServiceArea
  branding : Branding
  creative : CreativeSnapshot
  payout : PayoutTerms
  zones : ZoneTerms
  eligibility : ResolvedEligibility
  stationaryPolicyMarker : String
  deriving DecidableEq, Repr

/-! ## Assignments -/

structure CampaignAssignment where
  id : Id
  campaignId : Id
  driverProfileId : Id
  vehicleId : Id
  assignedByUserId : Id
  status : CampaignAssignmentStatus
  offeredAt : Int
  expiresAt : Option Int
  acceptedAt : Option Int := none
  declinedAt : Option Int := none
  expiredAt : Option Int := none
  activatedAt : Option Int := none
  deactivatedAt : Option Int := none
  cancelledAt : Option Int := none
  notes : Option String := none
  metadata : Metadata := []
  offerTerms : Option OfferTerms
  offerTermsSha256 : Option Digest
  deriving DecidableEq, Repr

structure CampaignActivationEvent where
  id : Id
  assignmentId : Id
  actorUserId : Option Id
  eventType : CampaignActivationEventType
  previousStatus : Option CampaignAssignmentStatus
  newStatus : CampaignAssignmentStatus
  occurredAt : Int
  metadata : Metadata
  offerTermsSha256 : Option Digest
  deriving DecidableEq, Repr

structure AssignmentRuleBinding where
  id : Id
  assignmentId : Id
  revisionId : Id
  currency : Currency
  terms : PayTerms
  eligibilityParams : List (String × ℚ)
  resolvedEligibilityParams : ResolvedEligibility
  formulaVersion : String
  premiumZones : List (Id × String)
  premiumZoneGeometryHash : Digest
  exclusionZones : List (Id × String)
  exclusionZoneGeometryHash : Digest
  stationaryPolicyMarker : String
  campaignWindowStartAt : Option Int
  campaignWindowEndAt : Option Int
  campaignWindowFrozen : Bool
  offerTermsSha256 : Option Digest
  boundAt : Int
  deriving DecidableEq, Repr

/-! ## Changes and cancellations of campaigns -/

structure CampaignChangeRequest where
  id : Id
  campaignId : Id
  requestedByUserId : Id
  clientRequestId : Id
  requestFingerprint : Digest
  proposedChanges : Billing.ProposedChanges
  beforeSha256 : Digest
  status : CampaignChangeStatus
  requestedLiabilityAmount : Int
  reviewedByUserId : Option Id := none
  reviewReason : Option String := none
  deriving DecidableEq, Repr

structure CampaignCancellation where
  id : Id
  campaignId : Id
  requestedByUserId : Id
  clientRequestId : Id
  requestFingerprint : Digest
  priorStatus : CampaignStatus
  cutoffAt : Int
  cancelledAssignmentCount : Nat
  deriving DecidableEq, Repr

/-! ## The database -/

structure Store where
  campaigns : List Campaign := []
  reviewEvents : List CampaignReviewEvent := []
  zones : List CampaignZone := []
  creatives : List CampaignCreative := []
  driverProfiles : List DriverProfile := []
  vehicles : List Vehicle := []
  payoutRules : List CampaignPayoutRule := []
  revisions : List CampaignPayoutRuleRevision := []
  assignments : List CampaignAssignment := []
  events : List CampaignActivationEvent := []
  bindings : List AssignmentRuleBinding := []
  changeRequests : List CampaignChangeRequest := []
  cancellations : List CampaignCancellation := []

namespace Store

variable (s : Store)

def campaign? (campaignId : Id) : Option Campaign :=
  s.campaigns.find? (·.id = campaignId)

def driverProfile? (driverProfileId : Id) : Option DriverProfile :=
  s.driverProfiles.find? (·.id = driverProfileId)

/-- `get_driver_profile_by_user_id`. -/
def driverProfileOfUser? (userId : Id) : Option DriverProfile :=
  s.driverProfiles.find? (·.userId = userId)

def vehicle? (vehicleId : Id) : Option Vehicle :=
  s.vehicles.find? (·.id = vehicleId)

def creative? (creativeId campaignId : Id) : Option CampaignCreative :=
  s.creatives.find? (fun row => row.id = creativeId && row.campaignId = campaignId)

def assignment? (assignmentId : Id) : Option CampaignAssignment :=
  s.assignments.find? (·.id = assignmentId)

def binding? (assignmentId : Id) : Option AssignmentRuleBinding :=
  s.bindings.find? (·.assignmentId = assignmentId)

/-- The row under its own id, replaced. -/
def putAssignment (row : CampaignAssignment) : Store :=
  { s with assignments := s.assignments.map (fun other => if other.id = row.id then row else other) }

def putCampaign (row : Campaign) : Store :=
  { s with campaigns := s.campaigns.map (fun other => if other.id = row.id then row else other) }

end Store

/-- The digests of the frozen documents, which are nonempty texts, and `str.casefold`. -/
class Freezing where
  offerTermsSha256 : OfferTerms → Digest
  contentSha256 : CreativeContent → Digest
  geometrySha256 : List (Id × String) → Digest
  snapshotSha256 : Document → Digest
  changeSha256 : Billing.CampaignSnapshot → Digest
  casefold : String → String
  contentSha256_ne : ∀ content, contentSha256 content ≠ ""
  /-- folding case keeps a text from becoming blank -/
  casefold_ne : ∀ text, Payout.strip text.toList ≠ [] → Payout.strip (casefold text).toList ≠ []

end Assignments
end Mobility
