import Mobility.Assignments.Types
import Mobility.Trips.Lifecycle
import Mobility.Lib.Newest

/-!
# Terms — what an offer freezes and what acceptance binds (`campaign_assignments.py`)

`buildOfferTerms` writes the terms shown to the driver.  Whether a stored offer may still be
accepted is decided from that document alone: `offerTermsComplete` reads it back, and
`createRuleBindingForAccept` copies the pay from it, never from the rules of the day.
-/

namespace Mobility
namespace Assignments

open Lib
open Payout (Currency Digest)
open Billing (CampaignStatus)

/-! ## Constants -/

def offerTermsVersion : String := "campaign-assignment-offer-v1"

def payoutV4 : String := "payout_v4"

/-- `ZONE_SEMANTICS[PAYOUT_V4]`. -/
def zoneSemantics : String :=
  "target_zone_miles_count_in_full; other_miles_weighted; exclusions_are_unpaid"

/-- `STATIONARY_POLICY_D39`, the stop policy of `PAYOUT_V4`. -/
def stationaryPolicyD39 : String := "d39-stop-5min-v1"

/-- `D39_STOP_OVERLAY`. -/
def d39StopOverlay : List (String × ℚ) := [("stationary_window_min", 5), ("stationary_grace_min", 0)]

/-- `ELIGIBILITY_DEFAULTS`. -/
def eligibilityDefault : String → ℚ
  | "stationary_radius_m" => 200
  | "stationary_window_min" => 5
  | "stationary_grace_min" => 4
  | "max_accuracy_m" => 75
  | "teleport_kmh" => 180
  | "max_ping_gap_seconds" => 120
  | _ => 0

/-! ## Checks of texts -/

def isAsciiLetter (c : Char) : Bool := c.isUpper || c.isLower

/-- `_valid_frozen_currency`. -/
def validFrozenCurrency (value : Currency) : Bool :=
  value.toList.length = 3 && value.toList.all isAsciiLetter
    && String.ofList (value.toList.map Char.toUpper) = value

/-- `normalize_optional_text`. -/
def normalizeOptionalText (value : Option String) : Option String :=
  (value.map (fun text => String.ofList (Payout.strip text.toList))).filter (· ≠ "")

/-- `normalized_service_city`, none where it raises. -/
def normalizedServiceCity [Freezing] (value : String) : Option String :=
  (normalizeOptionalText (some value)).map Freezing.casefold

/-! ## Refusals -/

def campaignNotFound : AppError :=
  { code := "CAMPAIGN_NOT_FOUND", message := "Campaign was not found", statusCode := 404 }

def frozenOfferTermsRequired (message : String) : AppError :=
  { code := "FROZEN_OFFER_TERMS_REQUIRED", message := message }

def approvedCreativeRequired (message : String) : AppError :=
  { code := "APPROVED_CAMPAIGN_CREATIVE_REQUIRED", message := message }

/-! ## The creative -/

def CampaignCreative.content (creative : CampaignCreative) (checksum : Digest) : CreativeContent :=
  { checksum := checksum
    storedFileId := creative.storedFile.map (·.id)
    mimeType := creative.mimeType
    widthPx := creative.widthPx
    heightPx := creative.heightPx
    durationSeconds := creative.durationSeconds }

/-- `_creative_content_identity` and `_creative_snapshot`. -/
def creativeSnapshot [Freezing] (creative : CampaignCreative) : Except AppError CreativeSnapshot := do
  let checksum ← demand (normalizeOptionalText creative.checksum)
    { code := "CREATIVE_CONTENT_IDENTITY_REQUIRED"
      message := "A ready creative must include a content checksum before offering" }
  require creative.updatedAt.isSome
    { code := "CREATIVE_VERSION_REQUIRED"
      message := "A ready creative must include a persisted version before offering" }
  let content := creative.content checksum
  return {
    id := creative.id
    name := creative.name
    creativeType := creative.creativeType
    placement := creative.placement
    checksum := checksum
    version := creative.updatedAt
    content := content
    contentSha256 := Freezing.contentSha256 content
    metadata := creative.metadata }

/-- The creative is still bound to its clean managed file. -/
def ManagedClean (campaign : Campaign) (creative : CampaignCreative) (file : StoredFile) : Prop :=
  file.organizationId = campaign.organizationId ∧ file.purpose = "creative"
    ∧ file.scanStatus = "clean" ∧ file.checksumSha256 = creative.checksum
    ∧ file.contentType = creative.mimeType ∧ file.actualContentType = some creative.mimeType

instance (campaign : Campaign) (creative : CampaignCreative) (file : StoredFile) :
    Decidable (ManagedClean campaign creative file) :=
  inferInstanceAs (Decidable (_ ∧ _))

/-! ## Building the terms -/

/-- The revision in force: the greatest `effective_from` not after `now`. -/
def Store.revisionInForce? (s : Store) (campaignId : Id) (now : Int) :
    Option CampaignPayoutRuleRevision :=
  ((s.revisions.filter (fun row => row.campaignId = campaignId && row.effectiveFrom ≤ now)).insertionSort
    (fun a b => b.effectiveFrom ≤ a.effectiveFrom)).head?

/-- The zones of one type by id, with the text of each geometry; a missing one is `"None"`. -/
def Store.zoneRows (s : Store) (campaignId : Id) (zoneType : CampaignZoneType) : List ZoneRow :=
  (orderBy (·.id)
      (s.zones.filter (fun row => row.campaignId = campaignId && row.zoneType = zoneType))).map
    (fun row => { id := row.id, name := row.name, wkt := (row.wkt.map (·.val)).getD "None" })

/-- `overlay.get(key, ELIGIBILITY_DEFAULTS[key])`. -/
def overlayValue (overlay : List (String × ℚ)) (key : String) : ℚ :=
  ((overlay.find? (·.1 = key)).map (·.2)).getD (eligibilityDefault key)

/-- `resolved_eligibility_snapshot`; `int` cuts towards zero. -/
def resolvedEligibilitySnapshot (overlay : List (String × ℚ)) : ResolvedEligibility :=
  let whole (value : ℚ) : Int := Int.tdiv value.num value.den
  { stationaryRadiusM := overlayValue overlay "stationary_radius_m"
    stationaryWindowSeconds := whole (overlayValue overlay "stationary_window_min" * 60)
    stationaryGraceSeconds := whole (overlayValue overlay "stationary_grace_min" * 60)
    maxAccuracyM := overlayValue overlay "max_accuracy_m"
    teleportKmh := overlayValue overlay "teleport_kmh"
    maxPingGapSeconds := whole (overlayValue overlay "max_ping_gap_seconds") }

/-- `metadata.get("brand_name") or metadata.get("brand")`. -/
def brandName (metadata : List (String × String)) : Option String :=
  let get (key : String) : Option String := (metadata.find? (·.1 = key)).map (·.2)
  ((get "brand_name").filter (· ≠ "")).or (get "brand")

def PayoutTerms.ofRevision (revision : CampaignPayoutRuleRevision) : PayoutTerms :=
  { currency := revision.currency
    revisionId := revision.id
    payoutRuleId := revision.payoutRuleId
    revisionNumber := revision.revisionNumber
    effectiveFrom := revision.effectiveFrom
    formulaVersion := revision.formulaVersion
    terms := revision.terms
    eligibilityParams := revision.eligibilityParams }

def completeCampaignWindowRequired (message : String) : AppError :=
  { code := "COMPLETE_CAMPAIGN_WINDOW_REQUIRED", message := message }

section

variable [Freezing]

/-- `build_offer_terms`. -/
def buildOfferTerms (campaign : Campaign) (driverProfile : DriverProfile) (now : Int)
    (creativeId : Id) (s : Store) : Except AppError (OfferTerms × Digest) := do
  let creative ← demand ((s.creative? creativeId campaign.id).filter (·.status = .approved))
    (approvedCreativeRequired
      "A currently approved campaign creative must be selected for an offer")
  require (∃ file ∈ creative.storedFile, ManagedClean campaign creative file)
    { code := "MANAGED_CLEAN_CREATIVE_REQUIRED"
      message :=
        "An approved creative must remain bound to its clean managed file before offering" }
  let start ← demand campaign.startAt
    (completeCampaignWindowRequired "A complete campaign window is required before offering")
  let stop ← demand campaign.endAt
    (completeCampaignWindowRequired "A complete campaign window is required before offering")
  let city ← demand (normalizedServiceCity (driverProfile.serviceCity.getD ""))
    { code := "DRIVER_SERVICE_AREA_REQUIRED"
      message := "Add the driver's city before sending a job offer" }
  let snapshot ← creativeSnapshot creative
  let revision ← demand
    ((s.revisionInForce? campaign.id now).filter (fun revision =>
      revision.formulaVersion = payoutV4 && validFrozenCurrency revision.currency
        && revision.currency = campaign.currency))
    { code := "FROZEN_PAYOUT_TERMS_REQUIRED"
      message := "Complete daily-rate terms are required before offering" }
  let targets := s.zoneRows campaign.id .target
  let exclusions := s.zoneRows campaign.id .exclusion
  require (targets ≠ [])
    { code := "TARGET_AREA_REQUIRED"
      message := "A target service area is required before offering" }
  require (∀ row ∈ targets ++ exclusions, row.wkt ≠ "" ∧ row.wkt ≠ "None")
    { code := "CAMPAIGN_ZONE_GEOMETRY_REQUIRED"
      message := "All offered service-area zones must have geometry" }
  let terms : OfferTerms :=
    { offerTermsVersion := offerTermsVersion
      currency := revision.currency
      campaignWindowStartAt := start
      campaignWindowEndAt := stop
      serviceArea :=
        { city := city
          countryCode := driverProfile.countryCode.map (fun code =>
            String.ofList (code.toList.map Char.toUpper)) }
      branding :=
        { campaignId := campaign.id
          organizationId := campaign.organizationId
          campaignName := campaign.name
          brandName := brandName campaign.metadata
          version := some campaign.updatedAt }
      creative := snapshot
      payout := .ofRevision revision
      zones :=
        { semantics := zoneSemantics
          target := targets
          premium := targets
          exclusion := exclusions }
      eligibility := resolvedEligibilitySnapshot revision.eligibilityParams
      stationaryPolicyMarker := stationaryPolicyD39 }
  return (terms, Freezing.offerTermsSha256 terms)

/-! ## Reading the terms back -/

/-- `_daily_rate_offer_terms` and `PAYOUT_TERMS_SHAPE_SQL`: the frozen pay is a daily rate. -/
def PayTerms.dailyRate (terms : PayTerms) : Bool :=
  0 < terms.dailyRateNaira && 0 < terms.dailyTargetMiles && terms.minimumMiles = 0
    && terms.outsideAreaWeight = 0 && terms.shortfallStrategy = "proportional"
    && terms.deductionPerMileNaira.isNone

/-- `valid_zone_rows`. -/
def validZoneRows (rows : List ZoneRow) : Bool :=
  rows.all (fun row => nonblank row.wkt && row.wkt ≠ "None")

/-- `_offer_terms_complete`. -/
def offerTermsComplete (terms : Option OfferTerms) (termsSha256 : Option Digest) : Bool :=
  match terms, termsSha256 with
  | some terms, some sha256 =>
      Freezing.offerTermsSha256 terms = sha256
        && terms.offerTermsVersion = offerTermsVersion
        && validFrozenCurrency terms.currency
        && nonblank terms.serviceArea.city && terms.branding.version.isSome
        && terms.campaignWindowStartAt < terms.campaignWindowEndAt
        && terms.payout.formulaVersion = payoutV4
        && validFrozenCurrency terms.payout.currency && terms.payout.currency = terms.currency
        && terms.payout.terms.dailyRate
        && terms.zones.semantics = zoneSemantics
        && terms.zones.target ≠ [] && validZoneRows terms.zones.target
        && terms.zones.premium ≠ [] && validZoneRows terms.zones.premium
        && validZoneRows terms.zones.exclusion
        && terms.creative.checksum ≠ "" && terms.creative.version.isSome
        && terms.creative.content.checksum = terms.creative.checksum
        && terms.creative.contentSha256 ≠ ""
        && terms.stationaryPolicyMarker = stationaryPolicyD39
  | _, _ => false

def ZoneRow.geometry (row : ZoneRow) : Id × String := (row.id, row.wkt)

/-- `create_rule_binding_for_accept`. -/
def createRuleBindingForAccept (bindingId : Id) (assignment : CampaignAssignment) (now : Int)
    (s : Store) : Except AppError AssignmentRuleBinding := do
  require (offerTermsComplete assignment.offerTerms assignment.offerTermsSha256)
    (frozenOfferTermsRequired "A complete frozen offer is required before acceptance")
  let terms ← demand assignment.offerTerms
    (frozenOfferTermsRequired "A complete frozen offer is required before acceptance")
  require terms.payout.terms.dailyRate
    (frozenOfferTermsRequired "The accepted offer snapshot is malformed")
  require (terms.campaignWindowStartAt < terms.campaignWindowEndAt)
    (frozenOfferTermsRequired "The accepted offer has an invalid campaign window")
  require (terms.zones.premium ≠ [])
    (frozenOfferTermsRequired "The accepted offer has no premium service area")
  let revision ← demand
    (s.revisions.find? (fun row =>
      row.id = terms.payout.revisionId && row.campaignId = assignment.campaignId))
    (frozenOfferTermsRequired
      "The accepted offer currency disagrees with its frozen payout revision")
  require (revision.currency = terms.payout.currency
      ∧ revision.payoutRuleId = terms.payout.payoutRuleId)
    (frozenOfferTermsRequired
      "The accepted offer currency disagrees with its frozen payout revision")
  let premium := terms.zones.premium.map ZoneRow.geometry
  let exclusion := terms.zones.exclusion.map ZoneRow.geometry
  return {
    id := bindingId
    assignmentId := assignment.id
    revisionId := terms.payout.revisionId
    currency := terms.payout.currency
    terms := terms.payout.terms
    eligibilityParams := terms.payout.eligibilityParams
    resolvedEligibilityParams := terms.eligibility
    formulaVersion := terms.payout.formulaVersion
    premiumZones := premium
    premiumZoneGeometryHash := Freezing.geometrySha256 premium
    exclusionZones := exclusion
    exclusionZoneGeometryHash := Freezing.geometrySha256 exclusion
    stationaryPolicyMarker := stationaryPolicyD39
    campaignWindowStartAt := some terms.campaignWindowStartAt
    campaignWindowEndAt := some terms.campaignWindowEndAt
    campaignWindowFrozen := true
    offerTermsSha256 := assignment.offerTermsSha256
    boundAt := now }

end

/-! ## Publishing pay terms -/

def invalidRuleRevision (message : String) : AppError :=
  { code := "INVALID_PAYOUT_RULE_REVISION", message := message, statusCode := 400 }

/-- `validate_currency_code`. -/
def validateCurrencyCode (value : String) : Except AppError Currency := do
  let normalized := Payout.normalizeCurrency value
  require (normalized.toList.length = 3 ∧ normalized.toList.all isAsciiLetter)
    { code := "INVALID_CURRENCY", message := "Currency must be a 3-letter code", statusCode := 400 }
  return normalized

/-- `CampaignPayoutV4RevisionCreate`, with the ids the new rows get. -/
structure CampaignPayoutV4RevisionCreate where
  revisionId : Id
  ruleId : Id
  effectiveFrom : Int
  dailyRateNaira : ℚ
  dailyTargetMiles : ℚ
  positive : 0 < dailyRateNaira ∧ 0 < dailyTargetMiles

def Store.latestRevision? (s : Store) (campaignId : Id) : Option CampaignPayoutRuleRevision :=
  ((s.revisions.filter (·.campaignId = campaignId)).insertionSort
    (fun a b => b.revisionNumber ≤ a.revisionNumber)).head?

def Store.activeRule? (s : Store) (campaignId : Id) : Option CampaignPayoutRule :=
  s.payoutRules.find? (fun rule => rule.campaignId = campaignId && rule.status = "active")

/-- The active rule of the campaign; a campaign without one gets a rate-less rule. -/
def payoutRuleFor (campaign : Campaign) (ruleId : Id) (s : Store) :
    Except AppError (CampaignPayoutRule × Store) := do
  match s.activeRule? campaign.id with
  | some rule => return (rule, s)
  | none => do
      let currency ← validateCurrencyCode campaign.currency
      require (∀ rule ∈ s.payoutRules, rule.id ≠ ruleId)
        (Trips.uniqueViolation "campaign_payout_rules_pkey")
      let rule : CampaignPayoutRule :=
        { id := ruleId
          campaignId := campaign.id
          formulaVersion := payoutV4
          currency := currency }
      return (rule, { s with payoutRules := s.payoutRules ++ [rule] })

/-- `publish_payout_v4_revision`. -/
def publishPayoutV4Revision (authorized : Except AppError Unit) (campaignId : Id)
    (payload : CampaignPayoutV4RevisionCreate) (now : Int) (s : Store) : Except AppError Store := do
  authorized
  let campaign ← demand (s.campaign? campaignId) campaignNotFound
  require (∀ rule ∈ s.activeRule? campaignId, rule.formulaVersion = payoutV4)
    (invalidRuleRevision
      ("this campaign is governed by a "
        ++ ((s.activeRule? campaignId).map (·.formulaVersion)).getD ""
        ++ " rule; a daily-rate revision cannot extend it"))
  let latest := s.latestRevision? campaignId
  require (∀ revision ∈ latest, revision.effectiveFrom < payload.effectiveFrom)
    (invalidRuleRevision
      ("effective_from must be strictly after the latest revision's effective_from; "
        ++ "retroactive changes require a correction order"))
  require (now ≤ payload.effectiveFrom)
    (invalidRuleRevision "effective_from must not be before the database clock")
  let (rule, s) ← payoutRuleFor campaign payload.ruleId s
  require (∀ revision ∈ s.revisions, revision.id ≠ payload.revisionId)
    (Trips.uniqueViolation "campaign_payout_rule_revisions_pkey")
  return { s with
    revisions := s.revisions ++
      [{ id := payload.revisionId
         campaignId := campaignId
         payoutRuleId := rule.id
         revisionNumber := (latest.map (·.revisionNumber + 1)).getD 1
         effectiveFrom := payload.effectiveFrom
         terms :=
           { dailyRateNaira := payload.dailyRateNaira
             dailyTargetMiles := payload.dailyTargetMiles
             shortfallStrategy := "proportional"
             deductionPerMileNaira := none
             minimumMiles := 0
             outsideAreaWeight := 0 }
         currency := rule.currency
         eligibilityParams := d39StopOverlay
         formulaVersion := payoutV4 }] }

end Assignments
end Mobility
