import Mobility.Assignments.System
import Mobility.Lib.Table

/-!
# Dossiers — an assignment with its events and bindings

* `Dossier`: an assignment row, the events of its history in order, its bindings.
* `DossierMove`: what one transaction may do to a dossier, with the guards it passed.
* `CampaignMove`: what one transaction may do to a campaign.

Invariants are proved against these moves; `Effects` shows that every transaction makes
them.
-/

namespace Mobility
namespace Assignments

open Lib
open Payout (Currency Digest)
open Billing (CampaignStatus CampaignAssignmentStatus openForChange)

structure Dossier where
  assignment : CampaignAssignment
  log : List CampaignActivationEvent
  bindings : List AssignmentRuleBinding

def Dossier.id (d : Dossier) : Id := d.assignment.id

def Store.dossier (s : Store) (assignment : CampaignAssignment) : Dossier :=
  { assignment := assignment
    log := s.events.filter (·.assignmentId = assignment.id)
    bindings := s.bindings.filter (·.assignmentId = assignment.id) }

def Store.dossiers (s : Store) : List Dossier :=
  s.assignments.map s.dossier

/-- The row replaced, the event logged, new bindings added. -/
def Dossier.record (d : Dossier) (assignment : CampaignAssignment)
    (event : CampaignActivationEvent) (added : List AssignmentRuleBinding := []) : Dossier :=
  { assignment := assignment, log := d.log ++ [event], bindings := d.bindings ++ added }

/-- The dossiers with one replaced under its id. -/
def replaceDossier (d : Dossier) (ds : List Dossier) : List Dossier :=
  ds.map (fun other => if other.id = d.id then d else other)

/-! ## Moves of campaigns -/

/-- A campaign that was once approved; it never becomes a draft again. -/
def launched (status : CampaignStatus) : Bool :=
  openForChange status || status = .cancelled

/-- The campaign's end has passed. -/
def ended (now : Int) (campaign : Campaign) : Bool :=
  campaign.endAt.any (· ≤ now)

structure CampaignMove (clock : Clock) (c c' : Campaign) : Prop where
  sameId : c'.id = c.id
  ordered : orderedWindow c.startAt c.endAt → orderedWindow c'.startAt c'.endAt
  staysLaunched : launched c.status → launched c'.status
  staysCancelled : c.status = .cancelled → c'.status = .cancelled
  /-- a launched campaign that is over stays over -/
  staysEnded : launched c.status → ended clock.now c → ended clock.now c'

/-- The campaigns moved in place, or a draft was added. -/
inductive CampaignsEffect (clock : Clock) (rows : List Campaign) : List Campaign → Prop
  | moved {rows'} (h : List.Forall₂ (CampaignMove clock) rows rows') : CampaignsEffect clock rows rows'
  | drafted {row : Campaign} (hdraft : row.status = .draft)
      (hwindow : orderedWindow row.startAt row.endAt) (hfresh : ∀ other ∈ rows, other.id ≠ row.id) :
      CampaignsEffect clock rows (rows ++ [row])

/-! ## Moves of dossiers -/

section

variable [Freezing]

/-- A new offer: what `createCampaignAssignment` checked and wrote. -/
structure Offered (s : Store) (now : Int) (d : Dossier) : Prop where
  build : ∃ campaign ∈ s.campaigns, ∃ driverProfile creativeId terms sha256,
    campaign.id = d.assignment.campaignId ∧ driverProfile.id = d.assignment.driverProfileId
      ∧ openForChange campaign.status
      ∧ (∃ stop expiresAt, campaign.endAt = some stop ∧ d.assignment.expiresAt = some expiresAt
        ∧ now < expiresAt ∧ expiresAt ≤ stop)
      ∧ buildOfferTerms campaign driverProfile now creativeId s = .ok (terms, sha256)
      ∧ d.assignment.offerTerms = some terms ∧ d.assignment.offerTermsSha256 = some sha256
  blank : d.assignment =
    { id := d.assignment.id
      campaignId := d.assignment.campaignId
      driverProfileId := d.assignment.driverProfileId
      vehicleId := d.assignment.vehicleId
      assignedByUserId := d.assignment.assignedByUserId
      status := .offered
      offeredAt := now
      expiresAt := d.assignment.expiresAt
      notes := d.assignment.notes
      metadata := d.assignment.metadata
      offerTerms := d.assignment.offerTerms
      offerTermsSha256 := d.assignment.offerTermsSha256 }
  alone : ∀ row ∈ s.assignments, ¬ (row.campaignId = d.assignment.campaignId
    ∧ row.vehicleId = d.assignment.vehicleId ∧ nonTerminal row.status)
  log : ∃ eventId metadata, d.log =
    [activationEvent eventId d.assignment (some d.assignment.assignedByUserId) .assigned none
      metadata now]
  unbound : d.bindings = []

def CampaignAssignment.accepted (assignment : CampaignAssignment) (now : Int) : CampaignAssignment :=
  { assignment with status := .accepted, acceptedAt := some now }

def CampaignAssignment.activated (assignment : CampaignAssignment) (now : Int) :
    CampaignAssignment :=
  { assignment with status := .active, activatedAt := some now }

/-- Another assignment of the same owner is active in an open window. -/
def Contested (owner : CampaignAssignment → Id) (s : Store) (startedAt : Int)
    (assignment : CampaignAssignment) : Prop :=
  ∃ row ∈ s.assignments, owner row = owner assignment ∧ row.status = .active
    ∧ s.windowOpen startedAt row ∧ row.id ≠ assignment.id

/-- What an activation event carries. -/
structure ActivationEvidence (s : Store) (now : Int) (assignment : CampaignAssignment)
    (bindings : List AssignmentRuleBinding) (metadata : Metadata) : Prop where
  snapshot : ∃ snapshot, metadata.get "activation_snapshot" = some (.object snapshot)
    ∧ metadata.get "activation_snapshot_sha256"
      = some (.leaf (.text (Freezing.snapshotSha256 snapshot)))
    ∧ (∀ entry ∈ expectedSnapshot (assignment.activated now), snapshot.get entry.1 = entry.2)
    ∧ (∃ binding ∈ bindings, snapshot.get "assignment_rule_binding_id" = .id binding.id
      ∧ binding.offerTermsSha256 = assignment.offerTermsSha256)
    ∧ ∃ review ∈ s.reviewEvents, snapshot.get "campaign_review_event_id" = .id review.id
      ∧ review.campaignId = assignment.campaignId ∧ review.newStatus = .approved

inductive DossierMove (s : Store) (clock : Clock) (d : Dossier) : Dossier → Prop
  | expired (eventId : Id) (hdue : Due clock.now d.assignment) :
      DossierMove s clock d
        (d.record { d.assignment with status := .expired, expiredAt := some clock.now }
          (activationEvent eventId
            { d.assignment with status := .expired, expiredAt := some clock.now } none .expired
            (some d.assignment.status) [("reason", .leaf (.text "offer_expired"))] clock.now))
  | accepted (eventId bindingId userId : Id) (metadata : Metadata) (binding : AssignmentRuleBinding)
      (hoffered : d.assignment.status = .offered) (hdue : ¬ Due clock.now d.assignment)
      (hopen : s.windowOpen clock.now d.assignment)
      (hbinding : createRuleBindingForAccept bindingId (d.assignment.accepted clock.now) clock.now s
        = .ok binding) :
      DossierMove s clock d
        (d.record (d.assignment.accepted clock.now)
          (activationEvent eventId (d.assignment.accepted clock.now) (some userId) .accepted
            (some .offered) metadata clock.now) [binding])
  | declined (eventId userId : Id) (metadata : Metadata)
      (hoffered : d.assignment.status = .offered) (hdue : ¬ Due clock.now d.assignment)
      (hopen : s.windowOpen clock.now d.assignment) :
      DossierMove s clock d
        (d.record { d.assignment with status := .declined, declinedAt := some clock.now }
          (activationEvent eventId
            { d.assignment with status := .declined, declinedAt := some clock.now } (some userId)
            .declined (some .offered) metadata clock.now))
  | activated (eventId userId : Id) (metadata : Metadata)
      (haccepted : d.assignment.status = .accepted)
      (hopen : s.windowOpen clock.now d.assignment)
      (hvehicle : ¬ Contested (·.vehicleId) s clock.startedAt d.assignment)
      (hdriver : ¬ Contested (·.driverProfileId) s clock.startedAt d.assignment)
      (hevidence : ActivationEvidence s clock.now d.assignment d.bindings metadata) :
      DossierMove s clock d
        (d.record (d.assignment.activated clock.now)
          (activationEvent eventId (d.assignment.activated clock.now) (some userId) .activated
            (some .accepted) metadata clock.now))
  | deactivated (eventId userId : Id) (metadata : Metadata)
      (hactive : d.assignment.status = .active) :
      DossierMove s clock d
        (d.record
          { d.assignment with
            status := .cancelled
            deactivatedAt := some clock.now
            cancelledAt := some clock.now }
          (activationEvent eventId
            { d.assignment with
              status := .cancelled
              deactivatedAt := some clock.now
              cancelledAt := some clock.now } (some userId) .deactivated (some .active) metadata
            clock.now))
  | cancelled (eventId userId : Id) (metadata : Metadata) (withCampaign : Bool)
      (hopen : nonTerminal d.assignment.status)
      (hundecided : withCampaign ∨ ¬ (d.assignment.status = .offered
        ∧ offerTermsComplete d.assignment.offerTerms d.assignment.offerTermsSha256)) :
      DossierMove s clock d
        (d.record { d.assignment with status := .cancelled, cancelledAt := some clock.now }
          (activationEvent eventId
            { d.assignment with status := .cancelled, cancelledAt := some clock.now } (some userId)
            .cancelled (some d.assignment.status) metadata clock.now))

/-- What one transaction may do to the dossiers: nothing, one new offer, one move, or the
end of all open ones of a cancelled campaign. -/
inductive DossiersEffect (s s' : Store) (clock : Clock) : Prop
  | kept (h : s'.dossiers = s.dossiers)
  | offered (d : Dossier) (hoffered : Offered s clock.now d) (hfresh : ∀ x ∈ s.dossiers, x.id ≠ d.id)
      (h : s'.dossiers = s.dossiers ++ [d])
  | moved (d d' : Dossier) (hd : d ∈ s.dossiers) (hmove : DossierMove s clock d d')
      (h : s'.dossiers = replaceDossier d' s.dossiers)
  | cancelled (campaignId : Id) (f : Dossier → Dossier)
      (hcampaign : ∀ campaign ∈ s'.campaigns, campaign.id = campaignId → campaign.status = .cancelled)
      (hopen : ∀ d, closedByCancellation campaignId d.assignment = true →
        DossierMove s clock d (f d) ∧ (f d).assignment.status = .cancelled)
      (hkept : ∀ d, closedByCancellation campaignId d.assignment = false → f d = d)
      (h : s'.dossiers = s.dossiers.map f)

end

/-! ## Keys -/

/-- Ids are unique, and events and bindings belong to stored assignments. -/
structure Keys (s : Store) : Prop where
  campaigns : (s.campaigns.map (·.id)).Nodup
  assignments : (s.assignments.map (·.id)).Nodup
  revisions : (s.revisions.map (·.id)).Nodup
  eventsRefer : ∀ event ∈ s.events, ∃ row ∈ s.assignments, row.id = event.assignmentId
  bindingsRefer : ∀ binding ∈ s.bindings, ∃ row ∈ s.assignments, row.id = binding.assignmentId

section

variable {s : Store} {d : Dossier} {assignment row : CampaignAssignment}
  {event : CampaignActivationEvent}

theorem mem_dossiers : d ∈ s.dossiers ↔ ∃ row ∈ s.assignments, s.dossier row = d :=
  List.mem_map

theorem dossier_mem (h : assignment ∈ s.assignments) : s.dossier assignment ∈ s.dossiers :=
  List.mem_map_of_mem h

theorem assignments_eq : s.assignments = s.dossiers.map (·.assignment) := by
  rw [Store.dossiers, List.map_map]
  exact (List.map_id _).symm

theorem dossiers_nodup (hkeys : Keys s) : (s.dossiers.map Dossier.id).Nodup := by
  rw [Store.dossiers, List.map_map]
  exact hkeys.assignments

/-- Recording a change of one assignment replaces its dossier. -/
theorem dossiers_record {s' : Store} {added : List AssignmentRuleBinding}
    (hid : assignment.id = row.id) (hevent : event.assignmentId = row.id)
    (hadded : ∀ binding ∈ added, binding.assignmentId = row.id)
    (hassignments : s'.assignments = (s.putAssignment assignment).assignments)
    (hevents : s'.events = s.events ++ [event]) (hbindings : s'.bindings = s.bindings ++ added) :
    s'.dossiers = replaceDossier ((s.dossier row).record assignment event added) s.dossiers := by
  unfold Store.dossiers replaceDossier
  rw [hassignments]
  simp only [Store.putAssignment, List.map_map]
  refine List.map_congr_left ?_
  intro other _
  simp only [Function.comp_apply]
  by_cases hother : other.id = row.id
  · have hall : added.filter (·.assignmentId = row.id) = added :=
      List.filter_eq_self.mpr (fun binding hbinding => by simp [hadded binding hbinding])
    simp [Store.dossier, Dossier.record, Dossier.id, List.filter_append, hother, hid, hevent, hevents,
      hbindings, hall]
  · have hnone : added.filter (·.assignmentId = other.id) = [] := by
      refine List.filter_eq_nil_iff.mpr ?_
      intro binding hbinding
      simpa [hadded binding hbinding] using Ne.symm hother
    simp [Store.dossier, Dossier.record, Dossier.id, List.filter_append, hother, hid, hevent, hevents,
      hbindings, hnone, Ne.symm hother]

end

end Assignments
end Mobility
