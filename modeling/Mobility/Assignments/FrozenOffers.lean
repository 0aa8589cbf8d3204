import Mobility.Assignments.Decisions
import Mathlib.Data.List.TakeWhile

/-!
# FrozenOffers — the terms a driver accepts are the terms that were offered

What `buildOfferTerms` writes passes `offerTermsComplete`, and what passes it can be bound:
an offer is never refused later for its own terms.  The pay in it is that of the revision in
force when it was made, and acceptance copies it.
-/

namespace Mobility
namespace Assignments

open Lib
open Payout (Currency Digest)
open Billing (CampaignAssignmentStatus)

/-! ## Texts -/

theorem strip_eq_nil {text : List Char} :
    Payout.strip text = [] ↔ ∀ c ∈ text, Payout.isPythonSpace c = true := by
  unfold Payout.strip
  rw [List.reverse_eq_nil_iff, List.dropWhile_eq_nil_iff]
  constructor
  · intro h
    refine List.dropWhile_eq_nil_iff.mp ?_
    cases hrest : text.dropWhile Payout.isPythonSpace with
    | nil => rfl
    | cons first rest =>
        -- the first character that is kept is no space
        have hspace := h first (by simp [hrest])
        have hkept := List.head?_dropWhile_not Payout.isPythonSpace text
        rw [hrest] at hkept
        simp [hspace] at hkept
  · intro h c hc
    exact h c ((List.dropWhile_sublist _).subset (List.mem_reverse.mp hc))

/-- A stripped text that is not empty is not blank. -/
theorem strip_strip_ne {text : List Char} (h : Payout.strip text ≠ []) :
    Payout.strip (Payout.strip text) ≠ [] := by
  intro hblank
  have hspaces := strip_eq_nil.mp hblank
  unfold Payout.strip at h hspaces
  cases hrest : (text.dropWhile Payout.isPythonSpace).reverse.dropWhile Payout.isPythonSpace with
  | nil =>
      rw [hrest] at h
      exact h rfl
  | cons last rest =>
      have hspace := hspaces last (by simp [hrest])
      have hkept := List.head?_dropWhile_not Payout.isPythonSpace
        (text.dropWhile Payout.isPythonSpace).reverse
      rw [hrest] at hkept
      simp [hspace] at hkept

theorem normalizeOptionalText_eq_some {value : Option String} {text : String}
    (h : normalizeOptionalText value = some text) : text ≠ "" ∧ Payout.strip text.toList ≠ [] := by
  unfold normalizeOptionalText at h
  rcases Option.filter_eq_some_iff.mp h with ⟨hmap, hne⟩
  have hne' : text ≠ "" := of_decide_eq_true hne
  rcases Option.map_eq_some_iff.mp hmap with ⟨original, _, rfl⟩
  refine ⟨hne', ?_⟩
  rw [String.toList_ofList]
  refine strip_strip_ne ?_
  intro hnil
  rw [hnil] at hne'
  exact hne' rfl

section

variable [Freezing] {s s' : Store} {db db' : Database} {clock : Clock} {d d' : Dossier}
  {row : CampaignAssignment}

theorem normalizedServiceCity_nonblank {value city : String} (h : normalizedServiceCity value = some city) :
    nonblank city = true := by
  unfold normalizedServiceCity at h
  rcases Option.map_eq_some_iff.mp h with ⟨text, htext, rfl⟩
  exact decide_eq_true (Freezing.casefold_ne text (normalizeOptionalText_eq_some htext).2)

/-! ## The parts of an offer -/

theorem creativeSnapshot_eq_ok {creative : CampaignCreative} {snapshot : CreativeSnapshot}
    (h : creativeSnapshot creative = .ok snapshot) :
    snapshot.checksum ≠ "" ∧ snapshot.version.isSome = true
      ∧ snapshot.content.checksum = snapshot.checksum ∧ snapshot.contentSha256 ≠ "" := by
  simp only [creativeSnapshot, bind_eq_ok, demand_eq_ok, require_eq_ok, pure_eq_ok] at h
  rcases h with ⟨checksum, hchecksum, _, hversion, rfl⟩
  exact ⟨(normalizeOptionalText_eq_some hchecksum).1, hversion, rfl, Freezing.contentSha256_ne _⟩

omit [Freezing] in
theorem revisionInForce_found {campaignId : Id} {now : Int} {revision : CampaignPayoutRuleRevision}
    (h : s.revisionInForce? campaignId now = some revision) :
    revision ∈ s.revisions ∧ revision.campaignId = campaignId ∧ revision.effectiveFrom ≤ now
      ∧ ∀ other ∈ s.revisions, other.campaignId = campaignId → other.effectiveFrom ≤ now →
        other.effectiveFrom ≤ revision.effectiveFrom := by
  let newer : CampaignPayoutRuleRevision → CampaignPayoutRuleRevision → Prop :=
    fun a b => b.effectiveFrom ≤ a.effectiveFrom
  have : Std.Total newer := ⟨fun a b => Int.le_total b.effectiveFrom a.effectiveFrom⟩
  have : IsTrans CampaignPayoutRuleRevision newer := ⟨fun _ _ _ h h' => Int.le_trans h' h⟩
  rcases head?_insertionSort (r := newer) h with ⟨hmem, hnewest⟩
  rcases List.mem_filter.mp hmem with ⟨hstored, hfacts⟩
  simp only [Bool.and_eq_true, decide_eq_true_eq] at hfacts
  refine ⟨hstored, hfacts.1, hfacts.2, ?_⟩
  intro other hother hcampaign heffective
  exact hnewest other (List.mem_filter.mpr ⟨hother, by simp [hcampaign, heffective]⟩)

omit [Freezing] in
/-- A zone with its geometry's text is a valid row. -/
theorem validZoneRows_zoneRows {campaignId : Id} {zoneType : CampaignZoneType}
    (h : ∀ zone ∈ s.zoneRows campaignId zoneType, zone.wkt ≠ "" ∧ zone.wkt ≠ "None") :
    validZoneRows (s.zoneRows campaignId zoneType) = true := by
  refine List.all_eq_true.mpr ?_
  intro zone hzone
  have hnone := (h zone hzone).2
  rcases List.mem_map.mp hzone with ⟨stored, _, rfl⟩
  cases hwkt : stored.wkt with
  | none =>
      rw [hwkt] at hnone
      exact absurd rfl hnone
  | some text =>
      rw [hwkt] at hnone
      simp only [Option.map_some, Option.getD_some] at hnone ⊢
      simp [text.2, hnone]

/-- The offer is complete when the campaign's window is in order and its revisions pay by the
day. -/
theorem buildOfferTerms_complete {campaign : Campaign} {driverProfile : DriverProfile} {now : Int}
    {creativeId : Id} {terms : OfferTerms} {sha256 : Digest}
    (h : buildOfferTerms campaign driverProfile now creativeId s = .ok (terms, sha256))
    (hwindow : orderedWindow campaign.startAt campaign.endAt = true)
    (hrates : ∀ revision ∈ s.revisions, revision.terms.dailyRate = true) :
    offerTermsComplete (some terms) (some sha256) = true := by
  simp only [buildOfferTerms, bind_eq_ok, demand_eq_ok, require_eq_ok, pure_eq_ok] at h
  rcases h with ⟨creative, _, _, _, start, hstart, stop, hstop, city, hcity, snapshot, hsnapshot,
    revision, hrevision, _, htargets, _, hgeometry, heq⟩
  cases heq
  rcases Option.filter_eq_some_iff.mp hrevision with ⟨hforce, hpaid⟩
  simp only [Bool.and_eq_true, decide_eq_true_eq] at hpaid
  rcases hpaid with ⟨⟨hformula, hcurrency⟩, _⟩
  have hstored := (revisionInForce_found hforce).1
  have horder : start < stop := by simpa [orderedWindow, hstart, hstop] using hwindow
  have htargetRows := validZoneRows_zoneRows
    (fun zone hzone => hgeometry zone (List.mem_append_left _ hzone))
  have hexclusionRows := validZoneRows_zoneRows
    (fun zone hzone => hgeometry zone (List.mem_append_right _ hzone))
  rcases creativeSnapshot_eq_ok hsnapshot with ⟨hchecksum, hversion, hcontent, hcontentSha256⟩
  simp [offerTermsComplete, PayoutTerms.ofRevision, hformula, hcurrency, normalizedServiceCity_nonblank hcity,
    horder, hrates revision hstored, htargets, htargetRows, hexclusionRows, hchecksum, hversion,
    hcontent, hcontentSha256]

/-! ## Windows and rates -/

/-- All windows are in order, and all revisions pay by the day. -/
structure SoundTerms (s : Store) : Prop where
  windows : ∀ campaign ∈ s.campaigns, orderedWindow campaign.startAt campaign.endAt = true
  rates : ∀ revision ∈ s.revisions, revision.terms.dailyRate = true

omit [Freezing] in
theorem CampaignsEffect.ordered {rows rows' : List Campaign} (h : CampaignsEffect clock rows rows')
    (hordered : ∀ campaign ∈ rows, orderedWindow campaign.startAt campaign.endAt = true) :
    ∀ campaign ∈ rows', orderedWindow campaign.startAt campaign.endAt = true := by
  cases h with
  | moved hmoves =>
      intro campaign' hcampaign'
      rcases exists_of_mem_forall₂ hmoves hcampaign' with ⟨campaign, hcampaign, hmove⟩
      exact hmove.ordered (hordered campaign hcampaign)
  | drafted _ hwindow _ => exact forall_mem_snoc hordered hwindow

theorem SoundTerms.step (h : SoundTerms s) (heffect : Effect s s' clock) : SoundTerms s' where
  windows := heffect.campaigns.ordered h.windows
  rates := by
    rcases heffect.revisions with hsame | ⟨added, hadded, hrate, _⟩
    · rw [hsame]
      exact h.rates
    · rw [hadded]
      exact forall_mem_snoc h.rates hrate

theorem soundTerms_of_reachable (h : ReachableBy platform Ticks db) : SoundTerms db.store := by
  refine run_invariant (P := fun db => SoundTerms db.store) ?_ ?_ h
  · exact ⟨fun _ hc => absurd hc List.not_mem_nil, fun _ hr => absurd hr List.not_mem_nil⟩
  · intro db db' clock hcommitted hsound
    exact hsound.step hcommitted.effect

/-! ## Every offer -/

/-- The revision that a campaign paid by at an instant. -/
structure InForce (s : Store) (campaignId : Id) (instant : Int)
    (revision : CampaignPayoutRuleRevision) : Prop where
  stored : revision ∈ s.revisions
  campaign : revision.campaignId = campaignId
  effective : revision.effectiveFrom ≤ instant
  latest : ∀ other ∈ s.revisions, other.campaignId = campaignId → other.effectiveFrom < instant →
    other.effectiveFrom ≤ revision.effectiveFrom

/-- Later revisions do not reach back. -/
theorem InForce.step {campaignId : Id} {instant : Int} {revision : CampaignPayoutRuleRevision}
    (h : InForce s campaignId instant revision) (heffect : Effect s s' clock)
    (hinstant : instant ≤ clock.now) : InForce s' campaignId instant revision := by
  rcases heffect.revisions with hsame | ⟨added, hadded, _, hlater, _⟩
  · exact ⟨hsame ▸ h.stored, h.campaign, h.effective, hsame ▸ h.latest⟩
  · refine ⟨hadded ▸ List.mem_append_left _ h.stored, h.campaign, h.effective, ?_⟩
    rw [hadded]
    refine forall_mem_snoc h.latest ?_
    intro _ hbefore
    exact absurd hbefore (Int.not_lt.mpr (Int.le_trans hinstant hlater))

structure FrozenOffer (s : Store) (row : CampaignAssignment) : Prop where
  complete : offerTermsComplete row.offerTerms row.offerTermsSha256 = true
  pay : ∃ terms ∈ row.offerTerms, ∃ revision, InForce s row.campaignId row.offeredAt revision
    ∧ terms.payout = .ofRevision revision

theorem FrozenOffer.step (h : FrozenOffer s row) (heffect : Effect s s' clock)
    (hoffered : row.offeredAt ≤ clock.now) : FrozenOffer s' row := by
  rcases h.pay with ⟨terms, hterms, revision, hforce, hpayout⟩
  exact ⟨h.complete, terms, hterms, revision, hforce.step heffect hoffered, hpayout⟩

theorem FrozenOffer.sameOffer {row' : CampaignAssignment} (h : FrozenOffer s row)
    (hsame : SameOffer row row') : FrozenOffer s row' := by
  refine ⟨?_, ?_⟩
  · rw [hsame.offerTerms, hsame.offerTermsSha256]
    exact h.complete
  · rw [hsame.offerTerms, hsame.campaignId, hsame.offeredAt]
    exact h.pay

theorem FrozenOffer.of_offered {now : Int} (h : Offered s now d) (hsound : SoundTerms s) :
    FrozenOffer s d.assignment := by
  rcases h.build with ⟨campaign, hcampaign, driverProfile, creativeId, terms, sha256, hid, _, _, _,
    hbuild, hterms, hsha256⟩
  have hofferedAt : d.assignment.offeredAt = now := by rw [h.blank]
  refine ⟨?_, terms, hterms, ?_⟩
  · rw [hterms, hsha256]
    exact buildOfferTerms_complete hbuild (hsound.windows campaign hcampaign) hsound.rates
  · simp only [buildOfferTerms, bind_eq_ok, demand_eq_ok, require_eq_ok, pure_eq_ok] at hbuild
    rcases hbuild with ⟨_, _, _, _, _, _, _, _, _, _, _, _, revision, hrevision, _, _, _, _, heq⟩
    cases heq
    rcases revisionInForce_found (Option.filter_eq_some_iff.mp hrevision).1 with
      ⟨hstored, hrevisionCampaign, heffective, hlatest⟩
    refine ⟨revision, ?_, rfl⟩
    rw [← hid, hofferedAt]
    exact ⟨hstored, hrevisionCampaign, heffective,
      fun other hother hsame hbefore => hlatest other hother hsame (Int.le_of_lt hbefore)⟩

theorem offerTermsComplete_facts {terms : OfferTerms} {termsSha256 : Option Digest}
    (h : offerTermsComplete (some terms) termsSha256 = true) :
    terms.payout.terms.dailyRate = true
      ∧ terms.campaignWindowStartAt < terms.campaignWindowEndAt ∧ terms.zones.premium ≠ [] := by
  cases termsSha256 with
  | none => exact absurd h Bool.false_ne_true
  | some sha256 =>
      simp only [offerTermsComplete, Bool.and_eq_true, decide_eq_true_eq] at h
      exact ⟨by simp [h], by simp [h], by simp [h]⟩

/-- A frozen offer can be bound. -/
theorem FrozenOffer.bindable (h : FrozenOffer s row) (hkeys : Keys s) (bindingId : Id) (now : Int) :
    ∃ binding, createRuleBindingForAccept bindingId row now s = .ok binding := by
  rcases h.pay with ⟨terms, hterms, revision, hforce, hpayout⟩
  have hcomplete := h.complete
  rw [Option.mem_def.mp hterms] at hcomplete
  rcases offerTermsComplete_facts hcomplete with ⟨hrate, hwindow, hpremium⟩
  have hrevisionId : terms.payout.revisionId = revision.id := by
    rw [hpayout]
    rfl
  have hfind : s.revisions.find? (fun other =>
      other.id = terms.payout.revisionId && other.campaignId = row.campaignId) = some revision := by
    rw [hrevisionId]
    cases hfound : s.revisions.find? (fun other =>
        other.id = revision.id && other.campaignId = row.campaignId) with
    | none =>
        have hnot := List.find?_eq_none.mp hfound revision hforce.stored
        simp [hforce.campaign] at hnot
    | some other =>
        have hfacts := List.find?_some hfound
        simp only [Bool.and_eq_true, decide_eq_true_eq] at hfacts
        rw [eq_of_key_eq hkeys.revisions (List.mem_of_find?_eq_some hfound) hforce.stored hfacts.1]
  simp only [createRuleBindingForAccept, bind_eq_ok, demand_eq_ok, require_eq_ok, pure_eq_ok]
  refine ⟨_, ⟨⟩, h.complete, terms, hterms, ⟨⟩, hrate, ⟨⟩, hwindow, ⟨⟩, hpremium, revision, hfind, ⟨⟩,
    ?_, rfl⟩
  rw [hpayout]
  exact ⟨rfl, rfl⟩

theorem frozenOffer_of_reachable (h : ReachableBy platform Ticks db) :
    ∀ d ∈ db.store.dossiers, FrozenOffer db.store d.assignment ∧ d.assignment.offeredAt ≤ db.clock := by
  refine dossier_invariant
    (P := fun db d => FrozenOffer db.store d.assignment ∧ d.assignment.offeredAt ≤ db.clock) ?_ ?_ ?_ h
  · intro db db' clock d hcommitted hoffered
    have hofferedAt : d.assignment.offeredAt ≤ clock.now := by
      rw [hoffered.blank]
    have hfrozen := FrozenOffer.of_offered hoffered (soundTerms_of_reachable hcommitted.reachable)
    exact ⟨hfrozen.step hcommitted.effect hofferedAt, hcommitted.read ▸ hofferedAt⟩
  · intro db db' clock d d' hcommitted _ hP hmove
    have hofferedAt := Int.le_trans hP.2 hcommitted.later
    refine ⟨(hP.1.step hcommitted.effect hofferedAt).sameOffer hmove.sameOffer, ?_⟩
    rw [hmove.sameOffer.offeredAt, hcommitted.read]
    exact hofferedAt
  · intro db db' clock d hcommitted _ hP
    have hofferedAt := Int.le_trans hP.2 hcommitted.later
    exact ⟨hP.1.step hcommitted.effect hofferedAt, hcommitted.read ▸ hofferedAt⟩

/-- An administrator who cancels a complete offer finds it expired or is refused. -/
theorem cancelAdminAssignment_offered {authorized : Except AppError Unit} {adminUserId eventId : Id}
    {reason : String} {metadata : Metadata} {now : Int} {answer : Option AppError} (hkeys : Keys s)
    (hrow : row ∈ s.assignments) (hoffered : row.status = .offered)
    (hcomplete : offerTermsComplete row.offerTerms row.offerTermsSha256 = true)
    (h : cancelAdminAssignment authorized adminUserId row.id eventId reason metadata now s
      = .ok (s', answer)) : Due now row ∧ s' = expireAssignment eventId row now s := by
  simp only [cancelAdminAssignment, bind_eq_ok, demand_eq_ok] at h
  rcases h with ⟨_, _, found, hfound, _, _, _, _, _, _, _, _, _, _, h⟩
  have hsame : found = row := by
    rcases assignment_found hfound with ⟨hstored, hid⟩
    exact eq_of_key_eq hkeys.assignments hstored hrow hid
  rw [hsame] at h
  split_ifs at h with hdue
  · cases pure_eq_ok.mp h
    exact ⟨hdue, rfl⟩
  · simp only [bind_eq_ok, require_eq_ok] at h
    rcases h with ⟨_, hundecided, _⟩
    exact absurd ⟨hoffered, hcomplete⟩ hundecided

/-- In every reachable state every offer is complete and pays what its campaign paid when it was
made; it can be bound whenever it is accepted; and an administrator cannot cancel it while it
is undecided, only find it expired. -/
theorem frozen_offers (h : ReachableBy platform Ticks db) (hrow : row ∈ db.store.assignments) :
    FrozenOffer db.store row
      ∧ (∀ bindingId now, ∃ binding,
        createRuleBindingForAccept bindingId (row.accepted now) now db.store = .ok binding)
      ∧ ∀ authorized adminUserId eventId reason metadata now s' answer, row.status = .offered →
        cancelAdminAssignment authorized adminUserId row.id eventId reason metadata now db.store
          = .ok (s', answer) →
        Due now row ∧ s' = expireAssignment eventId row now db.store := by
  have hkeys := keys_of_reachable h
  have hfrozen : FrozenOffer db.store row :=
    (frozenOffer_of_reachable h (db.store.dossier row) (dossier_mem hrow)).1
  refine ⟨hfrozen, ?_, ?_⟩
  · intro bindingId now
    have hsame : SameOffer row (row.accepted now) := ⟨rfl, rfl, rfl, rfl, rfl, rfl, rfl, rfl⟩
    exact (hfrozen.sameOffer hsame).bindable hkeys bindingId now
  · intro authorized adminUserId eventId reason metadata now s' answer hoffered hcancel
    exact cancelAdminAssignment_offered hkeys hrow hoffered hfrozen.complete hcancel

omit [Freezing] in
/-- The offer of the started job can still be bound, and no cancellation gets at it. -/
theorem frozen_offers_started :
    ∃ db, ReachableBy (@platform sampleFreezing) Ticks db ∧ ∃ row ∈ db.store.assignments,
      @FrozenOffer sampleFreezing db.store row := by
  let _ := sampleFreezing
  rcases platform.exists_reachableBy Ticks startedJob (fun _ _ _ h => ticks_iff h)
    (fun db => db.store.assignments.any (fun _ => true)) (by decide +kernel) with ⟨db, hreach, htest⟩
  rcases List.any_eq_true.mp htest with ⟨row, hrow, _⟩
  exact ⟨db, hreach, row, hrow, (frozen_offers hreach hrow).1⟩

/-! ## Every binding -/

/-- The binding pays by the terms of the offer. -/
structure CopiesOffer (row : CampaignAssignment) (offer : OfferTerms) (binding : AssignmentRuleBinding) :
    Prop where
  revisionId : binding.revisionId = offer.payout.revisionId
  currency : binding.currency = offer.payout.currency
  terms : binding.terms = offer.payout.terms
  eligibilityParams : binding.eligibilityParams = offer.payout.eligibilityParams
  resolvedEligibilityParams : binding.resolvedEligibilityParams = offer.eligibility
  formulaVersion : binding.formulaVersion = offer.payout.formulaVersion
  premiumZones : binding.premiumZones = offer.zones.premium.map ZoneRow.geometry
  exclusionZones : binding.exclusionZones = offer.zones.exclusion.map ZoneRow.geometry
  window : binding.campaignWindowStartAt = some offer.campaignWindowStartAt
    ∧ binding.campaignWindowEndAt = some offer.campaignWindowEndAt
    ∧ binding.campaignWindowFrozen = true
  offerTermsSha256 : binding.offerTermsSha256 = row.offerTermsSha256

theorem createRuleBindingForAccept_copies {bindingId : Id} {now : Int} {binding : AssignmentRuleBinding}
    (h : createRuleBindingForAccept bindingId row now s = .ok binding) :
    binding.boundAt = now ∧ ∃ terms, row.offerTerms = some terms ∧ CopiesOffer row terms binding := by
  simp only [createRuleBindingForAccept, bind_eq_ok, demand_eq_ok, pure_eq_ok] at h
  rcases h with ⟨_, _, terms, hterms, _, _, _, _, _, _, _, _, _, _, rfl⟩
  exact ⟨rfl, terms, hterms, ⟨rfl, rfl, rfl, rfl, rfl, rfl, rfl, rfl, ⟨rfl, rfl, rfl⟩, rfl⟩⟩

/-- An offer has no binding until it is accepted, and then the one that copies it. -/
structure BoundOnce (d : Dossier) : Prop where
  undecided : d.assignment.status = .offered → d.assignment.acceptedAt = none
  unbound : d.assignment.acceptedAt = none → d.bindings = []
  bound : ∀ acceptedAt, d.assignment.acceptedAt = some acceptedAt →
    ∃ binding terms, d.bindings = [binding] ∧ binding.boundAt = acceptedAt
      ∧ d.assignment.offerTerms = some terms ∧ CopiesOffer d.assignment terms binding

omit [Freezing] in
/-- A move that is no acceptance leaves the bindings as they were. -/
theorem BoundOnce.of_same (h : BoundOnce d) (hsame : SameOffer d.assignment d'.assignment)
    (hstatus : d'.assignment.status ≠ .offered)
    (haccepted : d'.assignment.acceptedAt = d.assignment.acceptedAt)
    (hbindings : d'.bindings = d.bindings) : BoundOnce d' where
  undecided := fun hoffered => absurd hoffered hstatus
  unbound := by
    rw [haccepted, hbindings]
    exact h.unbound
  bound := by
    rw [haccepted, hbindings, hsame.offerTerms]
    intro acceptedAt hacceptedAt
    rcases h.bound acceptedAt hacceptedAt with ⟨binding, terms, hone, hboundAt, hterms, hcopies⟩
    refine ⟨binding, terms, hone, hboundAt, hterms, { hcopies with offerTermsSha256 := ?_ }⟩
    rw [hsame.offerTermsSha256]
    exact hcopies.offerTermsSha256

theorem BoundOnce.move (h : BoundOnce d) (hmove : DossierMove s clock d d') : BoundOnce d' := by
  have hsame := hmove.sameOffer
  cases hmove with
  | accepted eventId bindingId userId metadata binding hoffered _ _ hbinding =>
      rcases createRuleBindingForAccept_copies hbinding with ⟨hboundAt, terms, hterms, hcopies⟩
      have hnone := h.unbound (h.undecided hoffered)
      refine ⟨?_, ?_, ?_⟩
      · intro hstatus
        cases hstatus
      · intro haccepted
        cases haccepted
      · intro acceptedAt hacceptedAt
        cases hacceptedAt
        refine ⟨binding, terms, ?_, hboundAt, hterms, hcopies⟩
        simp [Dossier.record, hnone]
  | expired | declined | activated | deactivated | cancelled =>
      refine h.of_same hsame ?_ rfl (List.append_nil _)
      intro hstatus
      cases hstatus

/-- In every reachable state an assignment has a binding exactly if it was accepted, it has only
that one, and the binding pays by the revision that was in force when the job was offered. -/
theorem accepted_binding (h : ReachableBy platform Ticks db) (hrow : row ∈ db.store.assignments) :
    (row.acceptedAt = none → ∀ binding ∈ db.store.bindings, binding.assignmentId ≠ row.id)
      ∧ ∀ acceptedAt, row.acceptedAt = some acceptedAt → ∃ binding revision,
        db.store.bindings.filter (·.assignmentId = row.id) = [binding]
          ∧ binding.boundAt = acceptedAt
          ∧ InForce db.store row.campaignId row.offeredAt revision
          ∧ binding.revisionId = revision.id ∧ binding.terms = revision.terms
          ∧ binding.currency = revision.currency := by
  have hbound : BoundOnce (db.store.dossier row) := by
    refine dossier_invariant (P := fun _ d => BoundOnce d) ?_ ?_ ?_ h _ (dossier_mem hrow)
    · intro db db' clock d _ hoffered
      have hnone : d.assignment.acceptedAt = none := by rw [hoffered.blank]
      refine ⟨fun _ => hnone, fun _ => hoffered.unbound, ?_⟩
      intro acceptedAt hacceptedAt
      rw [hnone] at hacceptedAt
      cases hacceptedAt
    · intro db db' clock d d' _ _ hbound hmove
      exact hbound.move hmove
    · intro db db' clock d _ _ hbound
      exact hbound
  refine ⟨?_, ?_⟩
  · intro hnone binding hbinding hid
    have hmem : binding ∈ (db.store.dossier row).bindings :=
      List.mem_filter.mpr ⟨hbinding, decide_eq_true hid⟩
    rw [hbound.unbound hnone] at hmem
    exact absurd hmem List.not_mem_nil
  · intro acceptedAt hacceptedAt
    rcases hbound.bound acceptedAt hacceptedAt with ⟨binding, terms, hone, hboundAt, hterms, hcopies⟩
    rcases (frozenOffer_of_reachable h _ (dossier_mem hrow)).1.pay with
      ⟨frozen, hfrozen, revision, hforce, hpayout⟩
    have hsame : frozen = terms := Option.some.inj (hfrozen.symm.trans hterms)
    rw [hsame] at hpayout
    refine ⟨binding, revision, hone, hboundAt, hforce, ?_, ?_, ?_⟩
    · rw [hcopies.revisionId, hpayout]
      rfl
    · rw [hcopies.terms, hpayout]
      rfl
    · rw [hcopies.currency, hpayout]
      rfl

omit [Freezing] in
/-- The started job pays by its one revision. -/
theorem accepted_binding_started :
    ∃ db, ReachableBy (@platform sampleFreezing) Ticks db ∧ ∃ row ∈ db.store.assignments,
      ∃ binding revision, db.store.bindings.filter (·.assignmentId = row.id) = [binding]
        ∧ InForce db.store row.campaignId row.offeredAt revision
        ∧ binding.terms = revision.terms := by
  let _ := sampleFreezing
  rcases platform.exists_reachableBy Ticks startedJob (fun _ _ _ h => ticks_iff h)
    (fun db => db.store.assignments.any (·.acceptedAt = some 9)) (by decide +kernel) with
    ⟨db, hreach, htest⟩
  rcases List.any_eq_true.mp htest with ⟨row, hrow, haccepted⟩
  rcases (accepted_binding hreach hrow).2 9 (of_decide_eq_true haccepted) with
    ⟨binding, revision, hone, _, hforce, _, hterms, _⟩
  exact ⟨db, hreach, row, hrow, binding, revision, hone, hforce, hterms⟩

end

end Assignments
end Mobility
