import Mobility.Assignments.Dossiers

/-!
# Effects — every transaction makes moves

One lemma for each service call: what it does to the campaigns and to the dossiers.
`execute_effect` puts them together.
-/

namespace Mobility
namespace Assignments

open Lib
open Payout (Currency Digest)
open Billing (CampaignStatus CampaignAssignmentStatus openForChange validWindow)

/-- What one transaction does to the rows that invariants speak of. -/
structure Effect [Freezing] (s s' : Store) (clock : Clock) : Prop where
  campaigns : CampaignsEffect clock s.campaigns s'.campaigns
  dossiers : DossiersEffect s s' clock
  revisions : s'.revisions = s.revisions ∨ ∃ row, s'.revisions = s.revisions ++ [row]
    ∧ row.terms.dailyRate ∧ clock.now ≤ row.effectiveFrom ∧ ∀ other ∈ s.revisions, other.id ≠ row.id
  reviews : ∀ event ∈ s.reviewEvents, event ∈ s'.reviewEvents
  /-- a campaign becomes cancelled only with its assignments -/
  cancels : ∀ c' ∈ s'.campaigns, c'.status = .cancelled →
    (∃ c ∈ s.campaigns, c.id = c'.id ∧ c.status = .cancelled)
      ∨ ∀ row ∈ s'.assignments, row.campaignId = c'.id → nonTerminal row.status = false
  events : ∀ event ∈ s'.events, event ∈ s.events ∨ ∃ row ∈ s'.assignments, row.id = event.assignmentId
  bindings : ∀ binding ∈ s'.bindings,
    binding ∈ s.bindings ∨ ∃ row ∈ s'.assignments, row.id = binding.assignmentId

section

variable {s s' : Store} {clock : Clock} {c c' : Campaign}

/-! ## Campaigns -/

theorem CampaignMove.refl (clock : Clock) (c : Campaign) : CampaignMove clock c c where
  sameId := rfl
  ordered := fun h => h
  staysLaunched := fun h => h
  staysCancelled := fun h => h
  staysEnded := fun _ h => h

/-- The window stays, and a launched campaign stays launched. -/
theorem CampaignMove.of_status (clock : Clock) {c c' : Campaign} (hid : c'.id = c.id)
    (hstart : c'.startAt = c.startAt) (hend : c'.endAt = c.endAt)
    (hlaunched : launched c.status → launched c'.status)
    (hcancelled : c.status = .cancelled → c'.status = .cancelled) : CampaignMove clock c c' where
  sameId := hid
  ordered := fun h => by rwa [hstart, hend]
  staysLaunched := hlaunched
  staysCancelled := hcancelled
  staysEnded := fun _ h => by
    unfold ended at h ⊢
    rwa [hend]

theorem campaigns_kept (clock : Clock) (rows : List Campaign) : CampaignsEffect clock rows rows := by
  refine .moved ?_
  have hsame : List.Forall₂ (CampaignMove clock) rows (rows.map id) :=
    forall₂_map_self (fun c _ => CampaignMove.refl clock c)
  rwa [List.map_id] at hsame

theorem campaign_found {campaignId : Id} (h : s.campaign? campaignId = some c) :
    c ∈ s.campaigns ∧ c.id = campaignId :=
  mem_of_lookup h

theorem putCampaign_moved (hkeys : Keys s) (hc : c ∈ s.campaigns) (hmove : CampaignMove clock c c') :
    CampaignsEffect clock s.campaigns (s.putCampaign c').campaigns := by
  refine .moved (forall₂_map_self ?_)
  intro other hother
  by_cases hid : other.id = c'.id
  · have hsame : other = c := eq_of_key_eq hkeys.campaigns hother hc (hid.trans hmove.sameId)
    rw [if_pos hid, hsame]
    exact hmove
  · rw [if_neg hid]
    exact CampaignMove.refl clock other

theorem cancels_kept (rows : List Campaign) : ∀ c' ∈ rows, c'.status = .cancelled →
    ∃ c ∈ rows, c.id = c'.id ∧ c.status = .cancelled :=
  fun c' hc' hcancelled => ⟨c', hc', rfl, hcancelled⟩

/-- A transaction that writes no assignment, event, binding or revision. -/
structure CampaignsOnly (s s' : Store) (clock : Clock) : Prop where
  campaigns : CampaignsEffect clock s.campaigns s'.campaigns
  assignments : s'.assignments = s.assignments
  events : s'.events = s.events
  bindings : s'.bindings = s.bindings
  revisions : s'.revisions = s.revisions
  reviews : ∀ event ∈ s.reviewEvents, event ∈ s'.reviewEvents
  cancels : ∀ c' ∈ s'.campaigns, c'.status = .cancelled →
    ∃ c ∈ s.campaigns, c.id = c'.id ∧ c.status = .cancelled

theorem CampaignsOnly.refl (s : Store) (clock : Clock) : CampaignsOnly s s clock :=
  ⟨campaigns_kept clock _, rfl, rfl, rfl, rfl, fun _ h => h, cancels_kept _⟩

theorem CampaignsOnly.effect [Freezing] (h : CampaignsOnly s s' clock) : Effect s s' clock where
  campaigns := h.campaigns
  dossiers := by
    refine .kept ?_
    unfold Store.dossiers
    rw [h.assignments]
    refine List.map_congr_left ?_
    intro row _
    simp only [Store.dossier, h.events, h.bindings]
  revisions := .inl h.revisions
  reviews := h.reviews
  cancels := fun c' hc' hcancelled => .inl (h.cancels c' hc' hcancelled)
  events := fun _ hevent => .inl (h.events ▸ hevent)
  bindings := fun _ hbinding => .inl (h.bindings ▸ hbinding)

theorem putCampaign_cancels (hc : c ∈ s.campaigns) (hid : c'.id = c.id)
    (hcancels : c'.status = .cancelled → c.status = .cancelled) :
    ∀ stored ∈ (s.putCampaign c').campaigns, stored.status = .cancelled →
      ∃ before ∈ s.campaigns, before.id = stored.id ∧ before.status = .cancelled := by
  intro stored hstored hcancelled
  rcases List.mem_map.mp hstored with ⟨before, hbefore, rfl⟩
  split_ifs at hcancelled ⊢ with hput
  · exact ⟨c, hc, hid.symm, hcancels hcancelled⟩
  · exact ⟨before, hbefore, rfl, hcancelled⟩

/-- A campaign rewritten in place. -/
theorem CampaignsOnly.putCampaign (hkeys : Keys s) (hc : c ∈ s.campaigns)
    (hmove : CampaignMove clock c c') (hcancels : c'.status = .cancelled → c.status = .cancelled) :
    CampaignsOnly s (s.putCampaign c') clock :=
  ⟨putCampaign_moved hkeys hc hmove, rfl, rfl, rfl, rfl, fun _ h => h,
    putCampaign_cancels hc hmove.sameId hcancels⟩

theorem launched_of_open {status : CampaignStatus} (h : openForChange status = true) :
    launched status = true := by
  simp [launched, h]

theorem not_launched_of_editable {status : CampaignStatus} (h : editable status = true) :
    launched status = false := by
  cases status <;> simp_all [editable, launched, openForChange]

theorem createCampaign_effect {authorized : Except AppError Unit} {userId : Id}
    {payload : CampaignCreate} (h : createCampaign authorized userId payload clock s = .ok s') :
    CampaignsOnly s s' clock := by
  rcases bind_eq_ok.mp h with ⟨_, _, h⟩
  cases hfound : s.campaign? payload.id with
  | some existing =>
      simp only [hfound, bind_eq_ok, pure_eq_ok] at h
      rcases h with ⟨_, _, rfl⟩
      exact CampaignsOnly.refl s clock
  | none =>
      simp only [hfound, pure_eq_ok] at h
      rw [← h]
      refine ⟨.drafted rfl payload.rules.2 (lookup_eq_none.mp hfound), rfl, rfl, rfl, rfl,
        fun _ hevent => hevent, ?_⟩
      intro stored hstored hcancelled
      rcases List.mem_append.mp hstored with hold | hnew
      · exact ⟨stored, hold, rfl, hcancelled⟩
      · -- the new one is a draft
        rw [List.mem_singleton.mp hnew] at hcancelled
        exact absurd hcancelled (by decide : CampaignStatus.draft ≠ .cancelled)

theorem updateAdvertiserCampaign_effect (hkeys : Keys s) {authorized currency : Except AppError Unit}
    {campaignId : Id} {payload : CampaignUpdate}
    (h : updateAdvertiserCampaign authorized currency campaignId payload clock s = .ok s') :
    CampaignsOnly s s' clock := by
  simp only [updateAdvertiserCampaign, ensureCampaignRules, bind_eq_ok, demand_eq_ok, require_eq_ok,
    pure_eq_ok] at h
  rcases h with ⟨_, _, campaign, hcampaign, _, heditable, _, _, _, ⟨_, _, hwindow⟩, rfl⟩
  have hdraft := not_launched_of_editable heditable
  refine CampaignsOnly.putCampaign hkeys (campaign_found hcampaign).1 ?_ (fun h => h)
  exact {
    sameId := rfl
    ordered := fun _ => hwindow
    staysLaunched := fun hl => absurd hl (by simp [hdraft])
    staysCancelled := fun hc => by simp [editable, hc] at heditable
    staysEnded := fun hl => absurd hl (by simp [hdraft]) }

theorem raiseBudget_effect (hkeys : Keys s) {campaignId : Id} {grossAmount : Int}
    (h : raiseBudget campaignId grossAmount clock s = .ok s') : CampaignsOnly s s' clock := by
  simp only [raiseBudget, bind_eq_ok, demand_eq_ok, ite_eq_ok, pure_eq_ok] at h
  rcases h with ⟨campaign, hcampaign, ⟨_, rfl⟩ | ⟨_, rfl⟩⟩
  · exact CampaignsOnly.putCampaign hkeys (campaign_found hcampaign).1
      (.of_status clock rfl rfl rfl (fun h => h) (fun h => h)) (fun h => h)
  · exact CampaignsOnly.refl s clock

theorem submitCampaignForReview_effect (hkeys : Keys s) {authorized : Except AppError Unit}
    {userId campaignId eventId : Id} {reviewedAt : Int}
    (h : submitCampaignForReview authorized userId campaignId eventId reviewedAt clock s = .ok s') :
    CampaignsOnly s s' clock := by
  simp only [submitCampaignForReview, freshReview, bind_eq_ok, demand_eq_ok, require_eq_ok,
    pure_eq_ok] at h
  rcases h with ⟨_, _, campaign, hcampaign, _, heditable, _, _, _, _, rfl⟩
  have hdraft := not_launched_of_editable heditable
  have hmove : CampaignMove clock campaign
      { campaign with status := .pendingReview, updatedAt := clock.startedAt } := by
    refine .of_status clock rfl rfl rfl (fun hl => absurd hl (by simp [hdraft])) ?_
    intro hc
    rw [hc] at heditable
    exact absurd heditable (by decide)
  exact ⟨putCampaign_moved hkeys (campaign_found hcampaign).1 hmove, rfl, rfl, rfl, rfl,
    fun _ hevent => List.mem_append_left _ hevent,
    putCampaign_cancels (campaign_found hcampaign).1 rfl
      (fun h => absurd h (by decide : CampaignStatus.pendingReview ≠ .cancelled))⟩

theorem decideCampaignReview_effect (hkeys : Keys s) {authorized : Except AppError Unit}
    {adminUserId campaignId eventId : Id} {targetStatus : CampaignStatus} {reason : Option String}
    {reviewedAt : Int}
    (h : decideCampaignReview authorized adminUserId campaignId eventId targetStatus reason reviewedAt
      clock s = .ok s') : CampaignsOnly s s' clock := by
  simp only [decideCampaignReview, freshReview, bind_eq_ok, demand_eq_ok, require_eq_ok,
    pure_eq_ok] at h
  rcases h with ⟨_, _, campaign, hcampaign, _, htarget, _, hpending, _, _, _, _, _, _, _, _, rfl⟩
  have hmove : CampaignMove clock campaign
      { campaign with status := targetStatus, updatedAt := clock.startedAt } := by
    refine .of_status clock rfl rfl rfl (fun hl => ?_) (fun hc => ?_)
    · rw [hpending] at hl
      exact absurd hl (by decide)
    · rw [hpending] at hc
      exact absurd hc (by decide)
  have hdecided : targetStatus ≠ .cancelled := by
    rcases htarget with h | h
    · exact h ▸ by decide
    · exact h ▸ by decide
  exact ⟨putCampaign_moved hkeys (campaign_found hcampaign).1 hmove, rfl, rfl, rfl, rfl,
    fun _ hevent => List.mem_append_left _ hevent,
    putCampaign_cancels (campaign_found hcampaign).1 rfl (fun h => absurd h hdecided)⟩

theorem pauseCampaign_effect (hkeys : Keys s) {campaignId : Id}
    (h : pauseCampaign campaignId clock s = .ok s') : CampaignsOnly s s' clock := by
  simp only [pauseCampaign, bind_eq_ok, demand_eq_ok, ite_eq_ok, pure_eq_ok] at h
  rcases h with ⟨campaign, hcampaign, ⟨hstatus, rfl⟩ | ⟨_, rfl⟩⟩
  · refine CampaignsOnly.putCampaign hkeys (campaign_found hcampaign).1
      (.of_status clock rfl rfl rfl (fun _ => rfl) ?_)
      (fun h => absurd h (by decide : CampaignStatus.paused ≠ .cancelled))
    intro hc
    rw [hc] at hstatus
    exact absurd hstatus (by decide)
  · exact CampaignsOnly.refl s clock

theorem resumeCampaign_effect (hkeys : Keys s) {authorized : Except AppError Unit} {campaignId : Id}
    {resumedStatus : CampaignStatus}
    (h : resumeCampaign authorized campaignId resumedStatus clock s = .ok s') :
    CampaignsOnly s s' clock := by
  simp only [resumeCampaign, bind_eq_ok, demand_eq_ok, require_eq_ok, pure_eq_ok] at h
  rcases h with ⟨_, _, campaign, hcampaign, _, hpaused, _, hstatus, _, _, rfl⟩
  refine CampaignsOnly.putCampaign hkeys (campaign_found hcampaign).1
    (.of_status clock rfl rfl rfl (fun _ => ?_) (fun hc => ?_)) (fun hc => ?_)
  · rcases hstatus with hstatus | hstatus
    · exact hstatus ▸ rfl
    · exact hstatus ▸ rfl
  · rw [hpaused] at hc
    exact absurd hc (by decide)
  · rcases hstatus with hstatus | hstatus
    · exact absurd (hstatus.symm.trans hc) (by decide)
    · exact absurd (hstatus.symm.trans hc) (by decide)

theorem lockedCampaign_eq_ok {campaignId : Id} (h : lockedCampaign campaignId s = .ok c) :
    c ∈ s.campaigns ∧ openForChange c.status = true := by
  simp only [lockedCampaign, bind_eq_ok, demand_eq_ok, require_eq_ok, pure_eq_ok] at h
  rcases h with ⟨campaign, hcampaign, _, hopen, rfl⟩
  exact ⟨(campaign_found hcampaign).1, hopen⟩

theorem orderedWindow_of_valid {startAt endAt : Option Int} (h : validWindow startAt endAt = true) :
    orderedWindow startAt endAt = true := by
  cases startAt <;> cases endAt <;> simp_all [validWindow, orderedWindow]

variable [Freezing]

/-- A change moves the window of a campaign that is open for changes and not over. -/
theorem applyIfFunded_effect (hkeys : Keys s) {funded : Bool} {request : CampaignChangeRequest}
    {review : Option Billing.Review} (hc : c ∈ s.campaigns) (hopen : openForChange c.status = true)
    (h : applyIfFunded funded request c review clock s = .ok s') : CampaignsOnly s s' clock := by
  simp only [applyIfFunded, ensureCampaignNotFinished, bind_eq_ok, require_eq_ok, ite_eq_ok,
    pure_eq_ok] at h
  rcases h with ⟨_, hfinished, _, _, ⟨_, rfl⟩ | ⟨_, _, _, _, hwindow, _, _, rfl⟩⟩
  · exact ⟨campaigns_kept clock _, rfl, rfl, rfl, rfl, fun _ hevent => hevent, cancels_kept _⟩
  · have hmove : CampaignMove clock c (c.withChanges request.proposedChanges clock.startedAt) := {
      sameId := rfl
      ordered := fun _ => orderedWindow_of_valid hwindow
      staysLaunched := fun hl => hl
      staysCancelled := fun hcancelled => hcancelled
      staysEnded := fun _ hended => absurd ⟨hopen, hended⟩ hfinished }
    exact ⟨putCampaign_moved hkeys hc hmove, rfl, rfl, rfl, rfl, fun _ hevent => hevent,
      putCampaign_cancels hc rfl (fun h => h)⟩

theorem requestCampaignChange_effect (hkeys : Keys s) {authorized : Except AppError Unit}
    {campaignId : Id} {payload : CampaignChangeCreate}
    (h : requestCampaignChange authorized campaignId payload clock s = .ok s') :
    CampaignsOnly s s' clock := by
  simp only [requestCampaignChange, bind_eq_ok] at h
  rcases h with ⟨_, _, campaign, hcampaign, h⟩
  rcases lockedCampaign_eq_ok hcampaign with ⟨hc, hopen⟩
  split at h
  · simp only [bind_eq_ok, pure_eq_ok] at h
    rcases h with ⟨_, _, rfl⟩
    exact CampaignsOnly.refl s clock
  · simp only [bind_eq_ok, ite_eq_ok, pure_eq_ok] at h
    rcases h with ⟨_, _, _, _, _, _, _, _, _, _, ⟨_, rfl⟩ | ⟨_, happly⟩⟩
    · exact ⟨campaigns_kept clock _, rfl, rfl, rfl, rfl, fun _ hevent => hevent, cancels_kept _⟩
    · -- the new request changes none of the rows that the effect speaks of
      have hkeys' : ∀ requests, Keys { s with changeRequests := requests } := fun _ =>
        ⟨hkeys.campaigns, hkeys.assignments, hkeys.revisions, hkeys.eventsRefer, hkeys.bindingsRefer⟩
      have heffect := applyIfFunded_effect (hkeys' _) (by exact hc) hopen happly
      exact ⟨heffect.campaigns, heffect.assignments, heffect.events, heffect.bindings,
        heffect.revisions, heffect.reviews, heffect.cancels⟩

theorem decideCampaignChange_effect (hkeys : Keys s) {authorized : Except AppError Unit}
    {requestId : Id} {approve funded : Bool} {review : Billing.Review}
    (h : decideCampaignChange authorized requestId approve funded review clock s = .ok s') :
    CampaignsOnly s s' clock := by
  simp only [decideCampaignChange, bind_eq_ok] at h
  rcases h with ⟨_, _, request, _, campaign, hcampaign, h⟩
  rcases lockedCampaign_eq_ok hcampaign with ⟨hc, hopen⟩
  split at h
  · rw [← pure_eq_ok.mp h]
    exact CampaignsOnly.refl s clock
  · simp only [bind_eq_ok, pure_eq_ok] at h
    rcases h with ⟨_, _, rfl⟩
    exact CampaignsOnly.refl s clock
  · simp only [ite_eq_ok, bind_eq_ok, pure_eq_ok] at h
    rcases h with ⟨_, happly⟩ | ⟨_, _, _, rfl⟩
    · exact applyIfFunded_effect hkeys hc hopen happly
    · exact ⟨campaigns_kept clock _, rfl, rfl, rfl, rfl, fun _ hevent => hevent, cancels_kept _⟩

/-! ## One assignment -/

omit [Freezing] in
theorem assignment_found {assignmentId : Id} {row : CampaignAssignment}
    (h : s.assignment? assignmentId = some row) : row ∈ s.assignments ∧ row.id = assignmentId :=
  mem_of_lookup h

omit [Freezing] in
theorem windowOpen_of {now : Int} {assignment : CampaignAssignment} (hc : c ∈ s.campaigns)
    (hid : c.id = assignment.campaignId) (hend : c.endAt.all (now < ·) = true)
    (hstatus : c.status ≠ .cancelled) : s.windowOpen now assignment = true := by
  refine List.any_eq_true.mpr ⟨c, hc, ?_⟩
  simp [hid, hend, hstatus]

/-- One event of a stored assignment is a move of its dossier. -/
theorem record_effect {row assignment : CampaignAssignment} {event : CampaignActivationEvent}
    {added : List AssignmentRuleBinding} (hrow : row ∈ s.assignments)
    (hmove : DossierMove s clock (s.dossier row) ((s.dossier row).record assignment event added))
    (hid : assignment.id = row.id) (hevent : event.assignmentId = row.id)
    (hadded : ∀ binding ∈ added, binding.assignmentId = row.id)
    (hcampaigns : CampaignsEffect clock s.campaigns s'.campaigns)
    (hcancels : ∀ c' ∈ s'.campaigns, c'.status = .cancelled →
      ∃ c ∈ s.campaigns, c.id = c'.id ∧ c.status = .cancelled)
    (hassignments : s'.assignments = (s.putAssignment assignment).assignments)
    (hevents : s'.events = s.events ++ [event]) (hbindings : s'.bindings = s.bindings ++ added)
    (hrevisions : s'.revisions = s.revisions) (hreviews : s'.reviewEvents = s.reviewEvents) :
    Effect s s' clock := by
  have hstored : ∃ x ∈ s'.assignments, x.id = row.id := by
    rw [hassignments]
    exact ⟨assignment, List.mem_map.mpr ⟨row, hrow, if_pos hid.symm⟩, hid⟩
  exact {
    campaigns := hcampaigns
    dossiers := .moved _ _ (dossier_mem hrow) hmove
      (dossiers_record hid hevent hadded hassignments hevents hbindings)
    revisions := .inl hrevisions
    reviews := fun _ h => hreviews ▸ h
    cancels := fun c' hc' hcancelled => .inl (hcancels c' hc' hcancelled)
    events := by
      intro other hother
      rw [hevents] at hother
      rcases List.mem_append.mp hother with hold | hnew
      · exact .inl hold
      · rw [List.mem_singleton.mp hnew, hevent]
        exact .inr hstored
    bindings := by
      intro binding hbinding
      rw [hbindings] at hbinding
      rcases List.mem_append.mp hbinding with hold | hnew
      · exact .inl hold
      · rw [hadded binding hnew]
        exact .inr hstored }

theorem expireAssignment_effect {row : CampaignAssignment} (eventId : Id) (hrow : row ∈ s.assignments)
    (hdue : Due clock.now row) : Effect s (expireAssignment eventId row clock.now s) clock :=
  record_effect hrow (.expired eventId hdue) rfl rfl (fun _ h => absurd h List.not_mem_nil)
    (campaigns_kept clock _) (cancels_kept _) rfl rfl (List.append_nil _).symm rfl rfl

theorem expireAssignmentOffer_effect {eventId assignmentId : Id} {expired : Bool}
    (h : expireAssignmentOffer eventId assignmentId clock.now s = .ok (s', expired)) :
    Effect s s' clock := by
  unfold expireAssignmentOffer at h
  split at h
  · cases pure_eq_ok.mp h
    exact (CampaignsOnly.refl s clock).effect
  · rename_i row hfound
    split_ifs at h with hcampaign hdue
    · cases pure_eq_ok.mp h
      exact (CampaignsOnly.refl s clock).effect
    · simp only [bind_eq_ok, pure_eq_ok] at h
      rcases h with ⟨_, _, h⟩
      cases h
      exact expireAssignment_effect eventId (assignment_found hfound).1 hdue
    · cases pure_eq_ok.mp h
      exact (CampaignsOnly.refl s clock).effect

omit [Freezing] in
theorem driverAssignment_eq_ok {userId assignmentId : Id} {row : CampaignAssignment}
    (h : driverAssignment userId assignmentId s = .ok (c, row)) :
    c ∈ s.campaigns ∧ c.id = row.campaignId ∧ row ∈ s.assignments ∧ row.id = assignmentId := by
  simp only [driverAssignment, bind_eq_ok, demand_eq_ok, pure_eq_ok] at h
  rcases h with ⟨_, _, assignment, hassignment, campaign, hcampaign, h⟩
  cases h
  have hfound := (Option.filter_eq_some_iff.mp hassignment).1
  exact ⟨(campaign_found hcampaign).1, (campaign_found hcampaign).2, assignment_found hfound⟩

omit [Freezing] in
theorem ensureCampaignAcceptable_eq_ok {now : Int} {x : Unit}
    (h : ensureCampaignAcceptable c now = .ok x) :
    c.status ≠ .cancelled ∧ c.endAt.all (now < ·) = true := by
  simpa [ensureCampaignAcceptable, ensureNotExpired] using h

/-- A binding made for an assignment names it. -/
theorem createRuleBindingForAccept_id {bindingId : Id} {row : CampaignAssignment} {now : Int}
    {binding : AssignmentRuleBinding}
    (h : createRuleBindingForAccept bindingId row now s = .ok binding) :
    binding.assignmentId = row.id := by
  simp only [createRuleBindingForAccept, bind_eq_ok, pure_eq_ok] at h
  rcases h with ⟨_, _, _, _, _, _, _, _, _, _, _, _, _, _, rfl⟩
  rfl

theorem acceptDriverAssignment_effect {eligibility : Except AppError Unit}
    {userId assignmentId eventId bindingId : Id} {metadata : Metadata} {answer : Option AppError}
    (h : acceptDriverAssignment eligibility userId assignmentId eventId bindingId metadata clock.now s
      = .ok (s', answer)) : Effect s s' clock := by
  simp only [acceptDriverAssignment, bind_eq_ok] at h
  rcases h with ⟨⟨campaign, row⟩, hfound, driverProfile, _, vehicle, _, h⟩
  rcases driverAssignment_eq_ok hfound with ⟨hc, hcid, hrow, _⟩
  cases hstatus : row.status with
  | accepted =>
      simp only [hstatus] at h
      cases pure_eq_ok.mp h
      exact (CampaignsOnly.refl s clock).effect
  | declined | expired | active | cancelled => simp [hstatus] at h
  | offered =>
      simp only [hstatus] at h
      rcases bind_eq_ok.mp h with ⟨_, _, h⟩
      split_ifs at h with hdue
      · cases pure_eq_ok.mp h
        exact expireAssignment_effect eventId hrow hdue
      · simp only [bind_eq_ok, pure_eq_ok] at h
        rcases h with ⟨_, hacceptable, _, _, binding, hbinding, _, _, h⟩
        cases h
        rcases ensureCampaignAcceptable_eq_ok hacceptable with ⟨hcancelled, hend⟩
        refine record_effect hrow (.accepted eventId bindingId userId metadata binding hstatus hdue
            (windowOpen_of hc hcid hend hcancelled) hbinding) rfl rfl ?_ (campaigns_kept clock _)
          (cancels_kept _) rfl rfl rfl rfl rfl
        intro other hother
        rw [List.mem_singleton.mp hother]
        exact createRuleBindingForAccept_id hbinding

theorem declineDriverAssignment_effect {userId assignmentId eventId : Id} {metadata : Metadata}
    {answer : Option AppError}
    (h : declineDriverAssignment userId assignmentId eventId metadata clock.now s
      = .ok (s', answer)) : Effect s s' clock := by
  simp only [declineDriverAssignment, bind_eq_ok] at h
  rcases h with ⟨⟨campaign, row⟩, hfound, h⟩
  rcases driverAssignment_eq_ok hfound with ⟨hc, hcid, hrow, _⟩
  cases hstatus : row.status with
  | declined =>
      simp only [hstatus] at h
      cases pure_eq_ok.mp h
      exact (CampaignsOnly.refl s clock).effect
  | accepted | expired | active | cancelled => simp [hstatus] at h
  | offered =>
      simp only [hstatus] at h
      rcases bind_eq_ok.mp h with ⟨_, _, h⟩
      split_ifs at h with hdue
      · cases pure_eq_ok.mp h
        exact expireAssignment_effect eventId hrow hdue
      · simp only [bind_eq_ok, pure_eq_ok] at h
        rcases h with ⟨_, hacceptable, h⟩
        cases h
        rcases ensureCampaignAcceptable_eq_ok hacceptable with ⟨hcancelled, hend⟩
        exact record_effect hrow (.declined eventId userId metadata hstatus hdue
            (windowOpen_of hc hcid hend hcancelled)) rfl rfl
          (fun _ h => absurd h List.not_mem_nil) (campaigns_kept clock _) (cancels_kept _) rfl rfl
          (List.append_nil _).symm rfl rfl

theorem deactivateDriverAssignment_effect {userId assignmentId eventId : Id} {metadata : Metadata}
    (h : deactivateDriverAssignment userId assignmentId eventId metadata clock.now s = .ok s') :
    Effect s s' clock := by
  simp only [deactivateDriverAssignment, bind_eq_ok, require_eq_ok, pure_eq_ok] at h
  rcases h with ⟨⟨campaign, row⟩, hfound, _, _, _, _, _, hactive, _, _, _, _, rfl⟩
  rcases driverAssignment_eq_ok hfound with ⟨_, _, hrow, _⟩
  exact record_effect hrow (.deactivated eventId userId metadata hactive) rfl rfl
    (fun _ h => absurd h List.not_mem_nil) (campaigns_kept clock _) (cancels_kept _) rfl rfl
    (List.append_nil _).symm rfl rfl

theorem cancelAdminAssignment_effect {authorized : Except AppError Unit}
    {adminUserId assignmentId eventId : Id} {reason : String} {metadata : Metadata}
    {answer : Option AppError}
    (h : cancelAdminAssignment authorized adminUserId assignmentId eventId reason metadata clock.now s
      = .ok (s', answer)) : Effect s s' clock := by
  simp only [cancelAdminAssignment, bind_eq_ok, demand_eq_ok] at h
  rcases h with ⟨_, _, row, hfound, campaign, _, _, _, _, _, _, _, _, _, h⟩
  have hrow := (assignment_found hfound).1
  split_ifs at h with hdue
  · cases pure_eq_ok.mp h
    exact expireAssignment_effect eventId hrow hdue
  · simp only [bind_eq_ok, require_eq_ok, pure_eq_ok] at h
    rcases h with ⟨_, hundecided, _, hopen, h⟩
    cases h
    exact record_effect hrow (.cancelled eventId adminUserId _ false hopen (.inr hundecided)) rfl rfl
      (fun _ h => absurd h List.not_mem_nil) (campaigns_kept clock _) (cancels_kept _) rfl rfl
      (List.append_nil _).symm rfl rfl

/-! ## Activation -/

omit [Freezing] in
theorem not_contested {owner : CampaignAssignment → Id} {error : AppError} {startedAt : Int}
    {row : CampaignAssignment} {x : Unit}
    (h : ensureNoOtherActiveAssignment owner error startedAt row s = .ok x) :
    ¬ Contested owner s startedAt row := by
  have hnone := require_eq_ok.mp h
  intro hcontested
  rcases hcontested with ⟨other, hother, hfacts⟩
  exact hnone other hother hfacts

omit [Freezing] in
/-- The stored snapshot holds what earning will expect of it. -/
theorem activationSnapshot_expected {driverProfile : DriverProfile} {vehicle : Vehicle}
    {row : CampaignAssignment} {review : CampaignReviewEvent} {creative : CampaignCreative}
    {creativeReviewEventId : Option Id} {binding : AssignmentRuleBinding}
    {reservationId authorizationId : Id} {production : Billing.ProductionStart}
    {evidence : Id × Nat} {now : Int} (hcampaign : c.id = row.campaignId)
    (hdriver : driverProfile.id = row.driverProfileId) (hvehicle : vehicle.id = row.vehicleId) :
    ∀ entry ∈ expectedSnapshot (row.activated now),
      (activationSnapshot c driverProfile vehicle row review creative creativeReviewEventId binding
        reservationId authorizationId production evidence now).get entry.1 = entry.2 := by
  intro entry hentry
  simp only [expectedSnapshot, List.mem_cons, List.not_mem_nil, or_false] at hentry
  rcases hentry with rfl | rfl | rfl | rfl | rfl | rfl | rfl
  · rfl
  · rfl
  · exact congrArg Leaf.id hcampaign
  · exact congrArg Leaf.id hdriver
  · exact congrArg Leaf.id hvehicle
  · rfl
  · rfl

omit [Freezing] in
theorem approvedReview_found {campaignId : Id} {review : CampaignReviewEvent}
    (h : s.approvedReview? campaignId = some review) :
    review ∈ s.reviewEvents ∧ review.campaignId = campaignId ∧ review.newStatus = .approved := by
  have hmem := List.mem_of_mem_head? h
  rw [List.mem_insertionSort, List.mem_filter] at hmem
  exact ⟨hmem.1, by simpa using hmem.2⟩

/-- The keys that activation sets hold a snapshot and its digest. -/
theorem ActivationEvidence.of_snapshot {row : CampaignAssignment} {now : Int}
    {bindings : List AssignmentRuleBinding} {binding : AssignmentRuleBinding}
    {review : CampaignReviewEvent} {snapshot : Document} (metadata : Metadata)
    (hexpected : ∀ entry ∈ expectedSnapshot (row.activated now), snapshot.get entry.1 = entry.2)
    (hbinding : binding ∈ bindings ∧ binding.offerTermsSha256 = row.offerTermsSha256)
    (hbindingId : snapshot.get "assignment_rule_binding_id" = .id binding.id)
    (hreview : review ∈ s.reviewEvents ∧ review.campaignId = row.campaignId
      ∧ review.newStatus = .approved)
    (hreviewId : snapshot.get "campaign_review_event_id" = .id review.id) :
    ActivationEvidence s now row bindings
      ((metadata.set "activation_snapshot" (.object snapshot)).set
        "activation_snapshot_sha256" (.leaf (.text (Freezing.snapshotSha256 snapshot)))) where
  snapshot := by
    refine ⟨snapshot, ?_, ?_, hexpected, ⟨binding, hbinding.1, hbindingId, hbinding.2⟩,
      ⟨review, hreview.1, hreviewId, hreview.2⟩⟩
    · rw [Metadata.get_set, Metadata.get_set, if_neg (by decide), if_pos rfl]
    · rw [Metadata.get_set, if_pos rfl]

omit [Freezing] in
theorem ensureCampaignActivatable_eq_ok {now : Int} {x : Unit}
    (h : ensureCampaignActivatable c now = .ok x) :
    c.status ≠ .cancelled ∧ c.endAt.all (now < ·) = true := by
  simp only [ensureCampaignActivatable, ensureNotExpired, bind_eq_ok, require_eq_ok] at h
  rcases h with ⟨_, hlive, _, _, hend⟩
  refine ⟨?_, hend⟩
  intro hcancelled
  rw [hcancelled] at hlive
  exact absurd hlive (by decide)

omit [Freezing] in
theorem ensureAcceptedBinding_eq_ok {row : CampaignAssignment} {binding : AssignmentRuleBinding}
    (h : ensureAcceptedBinding row s = .ok binding) :
    binding ∈ (s.dossier row).bindings ∧ binding.offerTermsSha256 = row.offerTermsSha256 := by
  simp only [ensureAcceptedBinding, bind_eq_ok, demand_eq_ok, require_eq_ok, pure_eq_ok] at h
  rcases h with ⟨found, hfound, _, ⟨hsha256, _⟩, rfl⟩
  rcases mem_of_lookup hfound with ⟨hmem, hid⟩
  exact ⟨List.mem_filter.mpr ⟨hmem, by simp [hid]⟩, hsha256⟩

theorem activateAdminAssignment_effect (hkeys : Keys s) {authorized : Except AppError Unit}
    {adminUserId assignmentId eventId : Id} {authority : ActivationAuthority} {metadata : Metadata}
    (h : activateAdminAssignment authorized adminUserId assignmentId authority eventId metadata clock s
      = .ok s') : Effect s s' clock := by
  simp only [activateAdminAssignment, bind_eq_ok, demand_eq_ok, require_eq_ok] at h
  rcases h with ⟨_, _, row, hfound, campaign, hcampaign, _, hstatus, driverProfile, hdriverProfile,
    vehicle, hvehicle, _, hactivatable, _, _, review, hreview, _, _, terms, _, creative, _, binding,
    hbinding, _, _, reservation, _, authorizationId, _, _, _, evidence, _, h⟩
  have hrow := (assignment_found hfound).1
  have hc := campaign_found hcampaign
  by_cases hactive : row.status = .active
  · simp only [if_pos hactive, bind_eq_ok, pure_eq_ok] at h
    rcases h with ⟨_, _, rfl⟩
    exact (CampaignsOnly.refl s clock).effect
  · have haccepted : row.status = .accepted := hstatus.resolve_right hactive
    rw [if_neg hactive] at h
    simp only [bind_eq_ok, demand_eq_ok, pure_eq_ok] at h
    rcases h with ⟨_, hv, _, hd, production, _, _, _, rfl⟩
    rcases ensureCampaignActivatable_eq_ok hactivatable with ⟨hcancelled, hend⟩
    have hreviewed := approvedReview_found hreview
    have hexpected : ∀ entry ∈ expectedSnapshot (row.activated clock.now),
        (activationSnapshot campaign driverProfile vehicle row review creative
          authority.creativeReviewEventId binding reservation.1 authorizationId production evidence
          clock.now).get entry.1 = entry.2 :=
      activationSnapshot_expected hc.2 (mem_of_lookup hdriverProfile).2 (mem_of_lookup hvehicle).2
    have hevidence := ActivationEvidence.of_snapshot (s := s) metadata hexpected
      (ensureAcceptedBinding_eq_ok hbinding) rfl
      ⟨hreviewed.1, hreviewed.2.1.trans hc.2, hreviewed.2.2⟩ rfl
    have hmove := DossierMove.activated (d := s.dossier row) eventId adminUserId _ haccepted
      (windowOpen_of hc.1 hc.2 hend hcancelled) (not_contested hv) (not_contested hd) hevidence
    by_cases happroved : campaign.status = .approved
    · have hcampaignMove : CampaignMove clock campaign
          { campaign with status := .active, updatedAt := clock.startedAt } :=
        .of_status clock rfl rfl rfl (fun _ => rfl) (fun h => absurd h hcancelled)
      simp only [if_pos happroved]
      exact record_effect hrow hmove rfl rfl (fun _ h => absurd h List.not_mem_nil)
        (putCampaign_moved hkeys hc.1 hcampaignMove)
        (putCampaign_cancels hc.1 rfl
          (fun h => absurd h (by decide : CampaignStatus.active ≠ .cancelled))) rfl rfl (List.append_nil _).symm rfl rfl
    · simp only [if_neg happroved]
      exact record_effect hrow hmove rfl rfl (fun _ h => absurd h List.not_mem_nil)
        (campaigns_kept clock _) (cancels_kept _) rfl rfl (List.append_nil _).symm rfl rfl

/-! ## Offers -/

omit [Freezing] in
theorem ensureCampaignAssignable_eq_ok {now : Int} {x : Unit}
    (h : ensureCampaignAssignable c now = .ok x) : openForChange c.status = true := by
  simp only [ensureCampaignAssignable, bind_eq_ok, require_eq_ok] at h
  rcases h with ⟨_, hstatus, _⟩
  rcases hstatus with hstatus | hstatus | hstatus <;> simp [openForChange, hstatus]

/-- The dossier of a new assignment. -/
def newDossier (assignment : CampaignAssignment) (eventId : Id) (metadata : Metadata) (now : Int) :
    Dossier :=
  { assignment := assignment
    log := [activationEvent eventId assignment (some assignment.assignedByUserId) .assigned none
      metadata now]
    bindings := [] }

omit [Freezing] in
/-- A new assignment and its first event open a dossier; nothing is stored under its id. -/
theorem dossiers_offer (hkeys : Keys s) {assignment : CampaignAssignment}
    (hfresh : ∀ row ∈ s.assignments, row.id ≠ assignment.id) (eventId : Id) (metadata : Metadata)
    (now : Int) :
    Store.dossiers { s with
        assignments := s.assignments ++ [assignment]
        events := s.events ++ (newDossier assignment eventId metadata now).log }
      = s.dossiers ++ [newDossier assignment eventId metadata now] := by
  have hnoEvents : s.events.filter (·.assignmentId = assignment.id) = [] := by
    refine List.filter_eq_nil_iff.mpr ?_
    intro event hevent
    rcases hkeys.eventsRefer event hevent with ⟨row, hrow, hid⟩
    simpa [← hid] using hfresh row hrow
  have hnoBindings : s.bindings.filter (·.assignmentId = assignment.id) = [] := by
    refine List.filter_eq_nil_iff.mpr ?_
    intro binding hbinding
    rcases hkeys.bindingsRefer binding hbinding with ⟨row, hrow, hid⟩
    simpa [← hid] using hfresh row hrow
  unfold Store.dossiers
  rw [List.map_append]
  refine congrArg₂ (· ++ ·) ?_ ?_
  · refine List.map_congr_left ?_
    intro row hrow
    have hne : assignment.id ≠ row.id := Ne.symm (hfresh row hrow)
    simp [Store.dossier, newDossier, List.filter_append, activationEvent, hne]
  · simp [Store.dossier, newDossier, List.filter_append, activationEvent, hnoEvents, hnoBindings]

theorem createCampaignAssignment_effect (hkeys : Keys s)
    {authorized recommendation eligibility : Except AppError Unit} {adminUserId : Id}
    {payload : CampaignAssignmentCreate}
    (h : createCampaignAssignment authorized recommendation eligibility adminUserId payload clock.now s
      = .ok s') : Effect s s' clock := by
  simp only [createCampaignAssignment, bind_eq_ok, demand_eq_ok, require_eq_ok, pure_eq_ok] at h
  rcases h with ⟨_, _, campaign, hcampaign, _, _, driverProfile, _, vehicle, _, _, hassignable, start,
    _, stop, hstop, _, hexpires, _, _, _, hduplicate, ⟨terms, sha256⟩, hterms, _, hfresh, _, _, rfl⟩
  have hc := campaign_found hcampaign
  refine {
    campaigns := campaigns_kept clock _
    dossiers := .offered (newDossier _ payload.eventId payload.metadata clock.now) ?_ ?_
      (dossiers_offer hkeys hfresh _ _ _)
    revisions := .inl rfl
    reviews := fun _ hevent => hevent
    cancels := fun c' hc' hcancelled => .inl (cancels_kept _ c' hc' hcancelled)
    events := ?_
    bindings := fun _ hbinding => .inl hbinding }
  · exact {
      build := ⟨campaign, hc.1, driverProfile, payload.creativeId, terms, sha256, rfl, rfl,
        ensureCampaignAssignable_eq_ok hassignable,
        ⟨stop, payload.expiresAt, hstop, rfl, hexpires⟩, hterms, rfl, rfl⟩
      blank := rfl
      alone := require_eq_ok.mp hduplicate
      log := ⟨payload.eventId, payload.metadata, rfl⟩
      unbound := rfl }
  · intro x hx
    rcases mem_dossiers.mp hx with ⟨row, hrow, rfl⟩
    exact hfresh row hrow
  · intro event hevent
    rcases List.mem_append.mp hevent with hold | hnew
    · exact .inl hold
    · rw [List.mem_singleton.mp hnew]
      exact .inr ⟨_, List.mem_append_right _ (List.mem_singleton_self _), rfl⟩

/-! ## Cancelling a campaign -/

/-- The dossier of an assignment after its campaign was cancelled. -/
def closedDossier (campaignId : Id) (payload : CampaignCancellationCreate) (eventIds : Id → Id)
    (now : Int) (d : Dossier) : Dossier :=
  if closedByCancellation campaignId d.assignment then
    d.record (cancelledWithCampaign payload eventIds now d.assignment).1
      (cancelledWithCampaign payload eventIds now d.assignment).2
  else d

omit [Freezing] in
/-- Of the events of a cancellation, a closed assignment gets its own, the others none. -/
theorem cancellation_log (hkeys : Keys s) (campaignId : Id) (payload : CampaignCancellationCreate)
    (eventIds : Id → Id) (now : Int) {row : CampaignAssignment} (hrow : row ∈ s.assignments) :
    ((orderBy (·.id) (s.assignments.filter (closedByCancellation campaignId ·))).map
        (fun row => (cancelledWithCampaign payload eventIds now row).2)).filter
        (·.assignmentId = row.id)
      = if closedByCancellation campaignId row then
          [(cancelledWithCampaign payload eventIds now row).2] else [] := by
  have hperm := orderBy_perm (·.id) (s.assignments.filter (closedByCancellation campaignId ·))
  rw [List.filter_map]
  split_ifs with hclosed
  · -- the row is closed, and no other closed row has its id
    have hnodup : ((orderBy (·.id)
        (s.assignments.filter (closedByCancellation campaignId ·))).map (·.id)).Nodup :=
      (hperm.map _).nodup_iff.mpr (hkeys.assignments.sublist (List.filter_sublist.map _))
    have hmem : row ∈ orderBy (·.id) (s.assignments.filter (closedByCancellation campaignId ·)) :=
      mem_orderBy.mpr (List.mem_filter.mpr ⟨hrow, hclosed⟩)
    have hone := filter_key_eq hnodup hmem rfl
    exact congrArg (List.map _) hone
  · refine List.map_eq_nil_iff.mpr (List.filter_eq_nil_iff.mpr ?_)
    intro other hother hid
    rcases List.mem_filter.mp (mem_orderBy.mp hother) with ⟨hstored, hotherClosed⟩
    have hid' : other.id = row.id := by simpa [cancelledWithCampaign, activationEvent] using hid
    have hsame : other = row := eq_of_key_eq hkeys.assignments hstored hrow hid'
    exact hclosed (hsame ▸ hotherClosed)

omit [Freezing] in
theorem dossiers_closed (hkeys : Keys s) (campaignId : Id) (payload : CampaignCancellationCreate)
    (eventIds : Id → Id) (now : Int)
    (hassignments : s'.assignments = s.assignments.map (fun row =>
      if closedByCancellation campaignId row then
        (cancelledWithCampaign payload eventIds now row).1
      else row))
    (hevents : s'.events = s.events
      ++ (orderBy (·.id) (s.assignments.filter (closedByCancellation campaignId ·))).map
        (fun row => (cancelledWithCampaign payload eventIds now row).2))
    (hbindings : s'.bindings = s.bindings) :
    s'.dossiers = s.dossiers.map (closedDossier campaignId payload eventIds now) := by
  unfold Store.dossiers
  rw [hassignments, List.map_map, List.map_map]
  refine List.map_congr_left ?_
  intro row hrow
  have hlog := cancellation_log hkeys campaignId payload eventIds now hrow
  simp only [Function.comp_apply, closedDossier]
  have hassignment : (s.dossier row).assignment = row := rfl
  rw [hassignment]
  by_cases hclosed : closedByCancellation campaignId row = true
  · rw [if_pos hclosed] at hlog ⊢
    have hid : (cancelledWithCampaign payload eventIds now row).1.id = row.id := rfl
    simp only [if_pos hclosed, Store.dossier, Dossier.record, hid, hevents, hbindings,
      List.filter_append, hlog, List.append_nil]
  · rw [if_neg hclosed] at hlog ⊢
    simp only [if_neg hclosed, Store.dossier, hevents, hbindings, List.filter_append, hlog,
      List.append_nil]

theorem requestCampaignCancellation_effect (hkeys : Keys s)
    {authorized settlement : Except AppError Unit} {campaignId : Id}
    {payload : CampaignCancellationCreate} {eventIds : Id → Id}
    (h : requestCampaignCancellation authorized settlement campaignId payload eventIds clock s
      = .ok s') : Effect s s' clock := by
  simp only [requestCampaignCancellation, bind_eq_ok, demand_eq_ok] at h
  rcases h with ⟨_, _, campaign, hcampaign, h⟩
  have hc := campaign_found hcampaign
  split at h
  · simp only [bind_eq_ok, pure_eq_ok] at h
    rcases h with ⟨_, _, rfl⟩
    exact (CampaignsOnly.refl s clock).effect
  · simp only [bind_eq_ok, require_eq_ok, pure_eq_ok] at h
    rcases h with ⟨_, _, _, hopen, _, _, _, _, rfl⟩
    have hmove : CampaignMove clock campaign
        { campaign with status := .cancelled, updatedAt := clock.startedAt } :=
      .of_status clock rfl rfl rfl (fun _ => rfl) (fun _ => rfl)
    exact {
      campaigns := putCampaign_moved hkeys hc.1 hmove
      dossiers := by
        refine .cancelled campaignId (closedDossier campaignId payload eventIds clock.now) ?_ ?_ ?_
          (dossiers_closed hkeys campaignId payload eventIds clock.now rfl rfl rfl)
        · intro stored hstored hid
          rcases List.mem_map.mp hstored with ⟨before, _, rfl⟩
          split_ifs at hid ⊢ with hput
          · rfl
          · exact absurd (hid.trans hc.2.symm) hput
        · intro d hclosed
          have hopen : nonTerminal d.assignment.status = true := by
            simp only [closedByCancellation, Bool.and_eq_true] at hclosed
            exact hclosed.2
          rw [closedDossier, if_pos hclosed]
          exact ⟨.cancelled (eventIds d.assignment.id) payload.userId _ true hopen (.inl rfl), rfl⟩
        · intro d hclosed
          rw [closedDossier, if_neg (by simp [hclosed])]
      revisions := .inl rfl
      reviews := fun _ hevent => hevent
      cancels := by
        intro stored hstored hcancelled
        rcases List.mem_map.mp hstored with ⟨before, hbefore, rfl⟩
        split_ifs at hcancelled ⊢ with hput
        · -- the cancelled campaign: its open assignments were closed
          refine .inr ?_
          intro row hrow hid
          rcases List.mem_map.mp hrow with ⟨old, _, rfl⟩
          split_ifs at hid ⊢ with hclosed
          · rfl
          · simpa [closedByCancellation, hid, hc.2] using hclosed
        · exact .inl ⟨before, hbefore, rfl, hcancelled⟩
      events := by
        intro event hevent
        rcases List.mem_append.mp hevent with hold | hnew
        · exact .inl hold
        · rcases List.mem_map.mp hnew with ⟨row, hrow, rfl⟩
          have hstored := List.mem_filter.mp (mem_orderBy.mp hrow)
          refine .inr ⟨_, List.mem_map_of_mem hstored.1, ?_⟩
          rw [if_pos hstored.2]
          rfl
      bindings := fun _ hbinding => .inl hbinding }

/-! ## Pay terms, and other services -/

omit [Freezing] in
theorem payoutRuleFor_eq_ok {ruleId : Id} {rule : CampaignPayoutRule}
    (h : payoutRuleFor c ruleId s = .ok (rule, s')) : ∃ rules, s' = { s with payoutRules := rules } := by
  unfold payoutRuleFor at h
  split at h
  · cases pure_eq_ok.mp h
    exact ⟨s.payoutRules, rfl⟩
  · simp only [bind_eq_ok, pure_eq_ok] at h
    rcases h with ⟨_, _, _, _, h⟩
    cases h
    exact ⟨_, rfl⟩

/-- A published revision sets a daily rate. -/
theorem publishPayoutV4Revision_effect {authorized : Except AppError Unit} {campaignId : Id}
    {payload : CampaignPayoutV4RevisionCreate}
    (h : publishPayoutV4Revision authorized campaignId payload clock.now s = .ok s') :
    Effect s s' clock := by
  simp only [publishPayoutV4Revision, bind_eq_ok, demand_eq_ok, require_eq_ok, pure_eq_ok] at h
  rcases h with ⟨_, _, campaign, _, _, _, _, _, _, hlater, ⟨rule, store⟩, hrule, _, hfresh, rfl⟩
  rcases payoutRuleFor_eq_ok hrule with ⟨rules, rfl⟩
  exact {
    campaigns := campaigns_kept clock _
    dossiers := .kept rfl
    revisions := by
      refine .inr ⟨_, rfl, ?_, hlater, hfresh⟩
      simp [PayTerms.dailyRate, payload.positive]
    reviews := fun _ hevent => hevent
    cancels := fun c' hc' hcancelled => .inl (cancels_kept _ c' hc' hcancelled)
    events := fun _ hevent => .inl hevent
    bindings := fun _ hbinding => .inl hbinding }

/-! ## All transactions -/

theorem execute_effect (hkeys : Keys s) {command : Command} (h : execute command clock s = .ok s') :
    Effect s s' clock := by
  cases command with
  | writeDriverProfile row | writeVehicle row | writeCreative row | writeZones campaignId rows =>
      cases h
      exact CampaignsOnly.effect ⟨campaigns_kept clock _, rfl, rfl, rfl, rfl, fun _ h => h,
        cancels_kept _⟩
  | publishRevision => exact publishPayoutV4Revision_effect h
  | createCampaign => exact (createCampaign_effect h).effect
  | updateCampaign => exact (updateAdvertiserCampaign_effect hkeys h).effect
  | raiseBudget => exact (raiseBudget_effect hkeys h).effect
  | submitForReview => exact (submitCampaignForReview_effect hkeys h).effect
  | decideReview => exact (decideCampaignReview_effect hkeys h).effect
  | pause => exact (pauseCampaign_effect hkeys h).effect
  | resume => exact (resumeCampaign_effect hkeys h).effect
  | requestChange => exact (requestCampaignChange_effect hkeys h).effect
  | decideChange => exact (decideCampaignChange_effect hkeys h).effect
  | cancelCampaign => exact requestCampaignCancellation_effect hkeys h
  | offer => exact createCampaignAssignment_effect hkeys h
  | expireOffer =>
      rcases bind_eq_ok.mp h with ⟨⟨store, expired⟩, hcall, heq⟩
      cases pure_eq_ok.mp heq
      exact expireAssignmentOffer_effect hcall
  | accept =>
      rcases bind_eq_ok.mp h with ⟨⟨store, answer⟩, hcall, heq⟩
      cases pure_eq_ok.mp heq
      exact acceptDriverAssignment_effect hcall
  | decline =>
      rcases bind_eq_ok.mp h with ⟨⟨store, answer⟩, hcall, heq⟩
      cases pure_eq_ok.mp heq
      exact declineDriverAssignment_effect hcall
  | activate => exact activateAdminAssignment_effect hkeys h
  | deactivate => exact deactivateDriverAssignment_effect h
  | cancel =>
      rcases bind_eq_ok.mp h with ⟨⟨store, answer⟩, hcall, heq⟩
      cases pure_eq_ok.mp heq
      exact cancelAdminAssignment_effect hcall

/-- The move of a dossier keeps its key. -/
theorem DossierMove.id_eq {d d' : Dossier} (h : DossierMove s clock d d') : d'.id = d.id := by
  cases h <;> rfl

/-- The keys of the dossiers after a transaction. -/
theorem DossiersEffect.nodup (h : DossiersEffect s s' clock) (hnodup : (s.dossiers.map Dossier.id).Nodup) :
    (s'.dossiers.map Dossier.id).Nodup := by
  cases h with
  | kept h => rwa [h]
  | offered d _ hfresh h =>
      rw [h, List.map_append]
      refine List.nodup_append.mpr ⟨hnodup, List.nodup_singleton _, ?_⟩
      intro k hk k' hk' heq
      rcases List.mem_map.mp hk with ⟨x, hx, rfl⟩
      exact hfresh x hx (heq.trans (List.mem_singleton.mp hk'))
  | moved d d' _ hmove h =>
      have hsame : (replaceDossier d' s.dossiers).map Dossier.id = s.dossiers.map Dossier.id := by
        unfold replaceDossier
        rw [List.map_map]
        refine List.map_congr_left ?_
        intro x _
        simp only [Function.comp_apply]
        split_ifs with hx
        · exact hx.symm
        · rfl
      rwa [h, hsame]
  | cancelled campaignId f _ hopen hkept h =>
      have hsame : (s.dossiers.map f).map Dossier.id = s.dossiers.map Dossier.id := by
        rw [List.map_map]
        refine List.map_congr_left ?_
        intro x _
        simp only [Function.comp_apply]
        cases hclosed : closedByCancellation campaignId x.assignment with
        | true => exact (hopen x hclosed).1.id_eq
        | false => rw [hkept x hclosed]
      rwa [h, hsame]

end

end Assignments
end Mobility
