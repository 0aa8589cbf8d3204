import Mobility.Assignments.FrozenOffers

/-!
# Activations — every active job carries its proof

Earning asks for the snapshot that activation stored: intact, about this assignment and this
offer.  Every active assignment has it, for as long as it is active.
-/

namespace Mobility
namespace Assignments

open Lib
open Payout (Digest)
open Billing (CampaignStatus CampaignAssignmentStatus)

section

variable [Freezing] {s s' : Store} {db db' : Database} {clock : Clock} {d d' : Dossier}
  {row : CampaignAssignment} {event : CampaignActivationEvent}

/-- The event that started the assignment, with what it must carry. -/
structure StartedBy (s : Store) (d : Dossier) (event : CampaignActivationEvent) : Prop where
  logged : event ∈ d.log
  eventType : event.eventType = .activated
  snapshot : ∃ snapshot, event.metadata.get "activation_snapshot" = some (.object snapshot)
    ∧ event.metadata.get "activation_snapshot_sha256"
      = some (.leaf (.text (Freezing.snapshotSha256 snapshot)))
    ∧ (∀ entry ∈ expectedSnapshot d.assignment, snapshot.get entry.1 = entry.2)
    ∧ (∃ binding ∈ d.bindings, snapshot.get "assignment_rule_binding_id" = .id binding.id
      ∧ binding.offerTermsSha256 = d.assignment.offerTermsSha256)
    ∧ ∃ review ∈ s.reviewEvents, snapshot.get "campaign_review_event_id" = .id review.id
      ∧ review.campaignId = d.assignment.campaignId ∧ review.newStatus = .approved

/-- Reviews are never lost, so the event keeps its meaning. -/
theorem StartedBy.step (h : StartedBy s d event) (heffect : Effect s s' clock) : StartedBy s' d event := by
  rcases h.snapshot with ⟨snapshot, hget, hsha256, hexpected, hbinding, review, hreview, hfacts⟩
  exact ⟨h.logged, h.eventType, snapshot, hget, hsha256, hexpected, hbinding, review,
    heffect.reviews review hreview, hfacts⟩

omit [Freezing] in
/-- The digest of the offer is a default: it hides no other key. -/
theorem activationEvent_get {eventId : Id} {actorUserId : Option Id}
    {eventType : CampaignActivationEventType} {previousStatus : Option CampaignAssignmentStatus}
    {metadata : Metadata} {occurredAt : Int} {key : String} (hkey : key ≠ "offer_terms_sha256") :
    (activationEvent eventId row actorUserId eventType previousStatus metadata occurredAt).metadata.get
      key = metadata.get key := by
  unfold activationEvent
  dsimp only
  split
  · exact Metadata.get_setDefault (Ne.symm hkey)
  · rfl

/-- An active assignment was started by an event of its log. -/
def Started (s : Store) (d : Dossier) : Prop :=
  d.assignment.status = .active → ∃ event, StartedBy s d event

theorem Started.of_activated {eventId userId : Id} {metadata : Metadata}
    (h : ActivationEvidence s clock.now d.assignment d.bindings metadata) :
    Started s (d.record (d.assignment.activated clock.now)
      (activationEvent eventId (d.assignment.activated clock.now) (some userId) .activated
        (some .accepted) metadata clock.now)) := by
  intro _
  rcases h.snapshot with ⟨snapshot, hget, hsha256, hexpected, hbinding, hreview⟩
  refine ⟨_, List.mem_append_right _ (List.mem_singleton_self _), rfl, snapshot, ?_, ?_, hexpected, ?_,
    hreview⟩
  · rw [activationEvent_get (by decide)]
    exact hget
  · rw [activationEvent_get (by decide)]
    exact hsha256
  · rw [Dossier.record, List.append_nil]
    exact hbinding

theorem Started.move (hmove : DossierMove s clock d d') : Started s d' := by
  cases hmove with
  | activated _ _ _ _ _ _ _ hevidence => exact .of_activated hevidence
  | expired | accepted | declined | deactivated | cancelled =>
      intro hactive
      cases hactive

theorem started_of_reachable (h : Reachable platform db) :
    ∀ d ∈ db.store.dossiers, Started db.store d := by
  refine dossier_invariant (P := fun db d => Started db.store d) ?_ ?_ ?_ h
  · intro db db' clock d _ hoffered hactive
    rw [hoffered.blank] at hactive
    cases hactive
  · intro db db' clock d d' hcommitted _ _ hmove hactive
    rcases Started.move hmove hactive with ⟨event, hstarted⟩
    exact ⟨event, hstarted.step hcommitted.effect⟩
  · intro db db' clock d hcommitted _ hP hactive
    rcases hP hactive with ⟨event, hstarted⟩
    exact ⟨event, hstarted.step hcommitted.effect⟩

omit [Freezing] in
/-- The one activation of a log is the one that is read. -/
theorem activationEvent_found (honce : DecidedOnce (s.dossier row).log)
    (hlogged : event ∈ (s.dossier row).log) (htype : event.eventType = .activated) :
    s.activationEvent? row.id = some event := by
  have hsame : s.events.filter (fun event =>
      event.assignmentId = row.id && event.eventType = .activated)
      = (s.dossier row).log.filter (·.eventType = .activated) := by
    unfold Store.dossier
    rw [List.filter_filter]
    exact List.filter_congr (fun _ _ => Bool.and_comm _ _)
  unfold Store.activationEvent?
  rw [hsame]
  refine (head?_eq_some_iff_mem ?_).mpr ?_
  · rw [List.length_insertionSort]
    exact honce.start
  · rw [List.mem_insertionSort]
    exact List.mem_filter.mpr ⟨hlogged, decide_eq_true htype⟩

/-- In every reachable state every active assignment passes the check that earning makes: its
snapshot is intact, is about this assignment, offer and start, and names the binding of its
acceptance and an approval of its campaign. -/
theorem active_snapshot (h : Reachable platform db) (hrow : row ∈ db.store.assignments)
    (hactive : row.status = .active) :
    ∃ snapshot, ensureCurrentActivationSnapshot row db.store = .ok snapshot
      ∧ (∃ binding ∈ db.store.bindings, binding.assignmentId = row.id
        ∧ snapshot.get "assignment_rule_binding_id" = .id binding.id)
      ∧ ∃ review ∈ db.store.reviewEvents, review.campaignId = row.campaignId
        ∧ review.newStatus = .approved
        ∧ snapshot.get "campaign_review_event_id" = .id review.id := by
  rcases started_of_reachable h (db.store.dossier row) (dossier_mem hrow) hactive with
    ⟨event, hlogged, htype, snapshot, hget, hsha256, hexpected, ⟨binding, hbinding, hbindingId, _⟩,
      review, hreview, hreviewId, hcampaign, happroved⟩
  have hrecorded := recorded_of_reachable h hrow
  have hfound := activationEvent_found hrecorded.decidedOnce hlogged htype
  have hoffer : event.offerTermsSha256 = row.offerTermsSha256 := by
    have hcarries := hrecorded.evidence event hlogged
    unfold CarriesOffer at hcarries
    rw [htype] at hcarries
    exact hcarries
  have hmem := List.mem_filter.mp hbinding
  refine ⟨snapshot, ?_, ⟨binding, hmem.1, of_decide_eq_true hmem.2, hbindingId⟩,
    review, hreview, hcampaign, happroved, hreviewId⟩
  refine bind_eq_ok.mpr ⟨event, demand_eq_ok.mpr hfound, bind_eq_ok.mpr ⟨⟨⟩, require_of hactive, ?_⟩⟩
  simp only [hget, hsha256]
  exact bind_eq_ok.mpr ⟨⟨⟩, require_of trivial, bind_eq_ok.mpr ⟨⟨⟩, require_of hexpected,
    bind_eq_ok.mpr ⟨⟨⟩, require_of hoffer, rfl⟩⟩⟩

omit [Freezing] in
/-- The started job can earn. -/
theorem active_snapshot_started :
    ∃ db, Reachable (@platform sampleFreezing) db ∧ ∃ row ∈ db.store.assignments,
      row.status = .active
        ∧ ∃ snapshot, @ensureCurrentActivationSnapshot sampleFreezing row db.store = .ok snapshot := by
  let _ := sampleFreezing
  rcases platform.exists_reachable startedJob
    (fun db => db.store.assignments.any (·.status = .active)) (by decide +kernel) with
    ⟨db, hreach, htest⟩
  rcases List.any_eq_true.mp htest with ⟨row, hrow, hactive⟩
  have hstatus := of_decide_eq_true hactive
  rcases active_snapshot hreach hrow hstatus with ⟨snapshot, hcheck, _⟩
  exact ⟨db, hreach, row, hrow, hstatus, snapshot, hcheck⟩

end

end Assignments
end Mobility
