import Mobility.Assignments.Campaigns
import Mobility.Lib.Machine

/-!
# System — campaigns and assignments as one transition system

Every action is one transaction under the campaign lock, taken at a reading of the database
clock.  Access checks, the answers of billing and new ids are carried by the action.
-/

namespace Mobility
namespace Assignments

open Lib
open Payout (Digest)
open Billing (CampaignStatus)

/-! ## Writes of other services -/

def writeRow {α : Type} (key : α → Id) (row : α) (rows : List α) : List α :=
  if rows.any (fun other => key other = key row) then
    rows.map (fun other => if key other = key row then row else other)
  else rows ++ [row]

/-! ## Actions -/

inductive Command
  | writeDriverProfile (row : DriverProfile)
  | writeVehicle (row : Vehicle)
  | writeCreative (row : CampaignCreative)
  | writeZones (campaignId : Id) (rows : List CampaignZone)
  | publishRevision (authorized : Except AppError Unit) (campaignId : Id)
      (payload : CampaignPayoutV4RevisionCreate)
  | createCampaign (authorized : Except AppError Unit) (userId : Id) (payload : CampaignCreate)
  | updateCampaign (authorized currency : Except AppError Unit) (campaignId : Id)
      (payload : CampaignUpdate)
  | raiseBudget (campaignId : Id) (grossAmount : Int)
  | submitForReview (authorized : Except AppError Unit) (userId campaignId eventId : Id)
      (reviewedAt : Int)
  | decideReview (authorized : Except AppError Unit) (adminUserId campaignId eventId : Id)
      (targetStatus : CampaignStatus) (rejectionReason : Option String) (reviewedAt : Int)
  | pause (campaignId : Id)
  | resume (authorized : Except AppError Unit) (campaignId : Id) (resumedStatus : CampaignStatus)
  | requestChange (authorized : Except AppError Unit) (campaignId : Id)
      (payload : CampaignChangeCreate)
  | decideChange (authorized : Except AppError Unit) (requestId : Id) (approve funded : Bool)
      (review : Billing.Review)
  | cancelCampaign (authorized settlement : Except AppError Unit) (campaignId : Id)
      (payload : CampaignCancellationCreate) (eventIds : Id → Id)
  | offer (authorized recommendation eligibility : Except AppError Unit) (adminUserId : Id)
      (payload : CampaignAssignmentCreate)
  | expireOffer (eventId assignmentId : Id)
  | accept (eligibility : Except AppError Unit) (userId assignmentId eventId bindingId : Id)
      (metadata : Metadata)
  | decline (userId assignmentId eventId : Id) (metadata : Metadata)
  | activate (authorized : Except AppError Unit) (adminUserId assignmentId : Id)
      (authority : ActivationAuthority) (eventId : Id) (metadata : Metadata)
  | deactivate (userId assignmentId eventId : Id) (metadata : Metadata)
  | cancel (authorized : Except AppError Unit) (adminUserId assignmentId eventId : Id)
      (reason : String) (metadata : Metadata)

/-- A transaction, and when it started and read the clock. -/
structure Transaction where
  clock : Clock
  command : Command

/-- The rows, and the latest reading of the database clock. -/
structure Database where
  store : Store := {}
  clock : Int := 0

section

variable [Freezing]

def execute (command : Command) (clock : Clock) (s : Store) : Except AppError Store :=
  match command with
  | .writeDriverProfile row => .ok { s with driverProfiles := writeRow (·.id) row s.driverProfiles }
  | .writeVehicle row => .ok { s with vehicles := writeRow (·.id) row s.vehicles }
  | .writeCreative row => .ok { s with creatives := writeRow (·.id) row s.creatives }
  | .writeZones campaignId rows =>
      .ok { s with
        zones := s.zones.filter (·.campaignId ≠ campaignId)
          ++ rows.filter (·.campaignId = campaignId) }
  | .publishRevision authorized campaignId payload =>
      publishPayoutV4Revision authorized campaignId payload clock.now s
  | .createCampaign authorized userId payload => createCampaign authorized userId payload clock s
  | .updateCampaign authorized currency campaignId payload =>
      updateAdvertiserCampaign authorized currency campaignId payload clock s
  | .raiseBudget campaignId grossAmount => raiseBudget campaignId grossAmount clock s
  | .submitForReview authorized userId campaignId eventId reviewedAt =>
      submitCampaignForReview authorized userId campaignId eventId reviewedAt clock s
  | .decideReview authorized adminUserId campaignId eventId targetStatus reason reviewedAt =>
      decideCampaignReview authorized adminUserId campaignId eventId targetStatus reason reviewedAt
        clock s
  | .pause campaignId => pauseCampaign campaignId clock s
  | .resume authorized campaignId status => resumeCampaign authorized campaignId status clock s
  | .requestChange authorized campaignId payload =>
      requestCampaignChange authorized campaignId payload clock s
  | .decideChange authorized requestId approve funded review =>
      decideCampaignChange authorized requestId approve funded review clock s
  | .cancelCampaign authorized settlement campaignId payload eventIds =>
      requestCampaignCancellation authorized settlement campaignId payload eventIds clock s
  | .offer authorized recommendation eligibility adminUserId payload =>
      createCampaignAssignment authorized recommendation eligibility adminUserId payload clock.now s
  | .expireOffer eventId assignmentId => do
      return (← expireAssignmentOffer eventId assignmentId clock.now s).1
  | .accept eligibility userId assignmentId eventId bindingId metadata => do
      return (← acceptDriverAssignment eligibility userId assignmentId eventId bindingId metadata
        clock.now s).1
  | .decline userId assignmentId eventId metadata => do
      return (← declineDriverAssignment userId assignmentId eventId metadata clock.now s).1
  | .activate authorized adminUserId assignmentId authority eventId metadata =>
      activateAdminAssignment authorized adminUserId assignmentId authority eventId metadata clock s
  | .deactivate userId assignmentId eventId metadata =>
      deactivateDriverAssignment userId assignmentId eventId metadata clock.now s
  | .cancel authorized adminUserId assignmentId eventId reason metadata => do
      return (← cancelAdminAssignment authorized adminUserId assignmentId eventId reason metadata
        clock.now s).1

def platform : Machine Database Transaction AppError where
  init := {}
  step db transaction := do
    let store ← execute transaction.command transaction.clock db.store
    return { store := store, clock := transaction.clock.now }

/-- The clock does not run backwards, and a transaction starts before it reads it. -/
def Ticks (db : Database) (transaction : Transaction) : Prop :=
  db.clock ≤ transaction.clock.now ∧ transaction.clock.startedAt ≤ transaction.clock.now

end

end Assignments
end Mobility
