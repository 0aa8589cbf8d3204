import Mobility.Assignments.Runs
import Mobility.Lib.Exclusive

/-!
# LiveJobs — one live job for each driver and each vehicle

An assignment is live while it is active and its campaign is neither over nor cancelled.
Activation looks for another live job of the driver and of the vehicle; that a window once
closed stays closed keeps the others from coming back.
-/

namespace Mobility
namespace Assignments

open Lib
open Billing (CampaignStatus CampaignAssignmentStatus openForChange)

section

variable [Freezing] {s s' : Store} {db db' : Database} {clock : Clock} {d d' : Dossier}
  {row : CampaignAssignment} {allowed : Database → Transaction → Prop}

/-! ## What no move changes -/

/-- The terms of the offer and its parties. -/
structure SameOffer (row row' : CampaignAssignment) : Prop where
  id : row'.id = row.id
  campaignId : row'.campaignId = row.campaignId
  driverProfileId : row'.driverProfileId = row.driverProfileId
  vehicleId : row'.vehicleId = row.vehicleId
  offeredAt : row'.offeredAt = row.offeredAt
  expiresAt : row'.expiresAt = row.expiresAt
  offerTerms : row'.offerTerms = row.offerTerms
  offerTermsSha256 : row'.offerTermsSha256 = row.offerTermsSha256

theorem DossierMove.sameOffer (h : DossierMove s clock d d') : SameOffer d.assignment d'.assignment := by
  cases h <;> exact ⟨rfl, rfl, rfl, rfl, rfl, rfl, rfl, rfl⟩

/-- A decided assignment is not opened again. -/
theorem DossierMove.nonTerminal_before (h : DossierMove s clock d d')
    (hopen : nonTerminal d'.assignment.status = true) : nonTerminal d.assignment.status = true := by
  cases h with
  | accepted _ _ _ _ _ hoffered => rw [hoffered]; rfl
  | activated _ _ _ haccepted => rw [haccepted]; rfl
  | expired | declined | deactivated | cancelled =>
      exact absurd (hopen : false = true) Bool.false_ne_true

/-! ## Windows stay closed -/

omit [Freezing] in
theorem windowOpen_earlier {now later : Int} (hle : now ≤ later) (h : s.windowOpen later row = true) :
    s.windowOpen now row = true := by
  rcases List.any_eq_true.mp h with ⟨campaign, hcampaign, hopen⟩
  refine List.any_eq_true.mpr ⟨campaign, hcampaign, ?_⟩
  cases hend : campaign.endAt with
  | none => simpa [hend] using hopen
  | some stop =>
      simp only [hend, Option.all_some, Bool.and_eq_true, decide_eq_true_eq] at hopen ⊢
      exact ⟨⟨hopen.1.1, Int.lt_of_le_of_lt hle hopen.1.2⟩, hopen.2⟩

/-- The assignment's campaign was once approved. -/
def CampaignLaunched (s : Store) (row : CampaignAssignment) : Prop :=
  ∃ campaign ∈ s.campaigns, campaign.id = row.campaignId ∧ launched campaign.status = true

omit [Freezing] in
theorem CampaignLaunched.step (h : CampaignLaunched s row)
    (heffect : CampaignsEffect clock s.campaigns s'.campaigns) : CampaignLaunched s' row := by
  rcases h with ⟨campaign, hcampaign, hid, hlaunched⟩
  rcases heffect.persists hcampaign with ⟨campaign', hcampaign', hmove⟩
  exact ⟨campaign', hcampaign', hmove.sameId.trans hid, hmove.staysLaunched hlaunched⟩

theorem campaignLaunched_of_reachable (h : ReachableBy platform allowed db) :
    ∀ d ∈ db.store.dossiers, CampaignLaunched db.store d.assignment := by
  refine dossier_invariant (P := fun db d => CampaignLaunched db.store d.assignment) ?_ ?_ ?_ h
  · intro db db' clock d hcommitted hoffered
    rcases hoffered.build with ⟨campaign, hcampaign, _, _, _, _, hid, _, hopen, _⟩
    have hlaunched : CampaignLaunched db.store d.assignment :=
      ⟨campaign, hcampaign, hid, launched_of_open hopen⟩
    exact hlaunched.step hcommitted.effect.campaigns
  · intro db db' clock d d' hcommitted _ hlaunched hmove
    rcases hlaunched.step hcommitted.effect.campaigns with ⟨campaign, hcampaign, hid, hstatus⟩
    exact ⟨campaign, hcampaign, hid.trans hmove.sameOffer.campaignId.symm, hstatus⟩
  · intro db db' clock d hcommitted _ hlaunched
    exact hlaunched.step hcommitted.effect.campaigns

omit [Freezing] in
/-- A window that is open after a transaction was open before it. -/
theorem windowOpen_before (hkeys : Keys s) (heffect : CampaignsEffect clock s.campaigns s'.campaigns)
    (hlaunched : CampaignLaunched s row) (h : s'.windowOpen clock.now row = true) :
    s.windowOpen clock.now row = true := by
  rcases hlaunched with ⟨campaign, hcampaign, hid, hstatus⟩
  rcases List.any_eq_true.mp h with ⟨campaign', hcampaign', hopen⟩
  simp only [Bool.and_eq_true, decide_eq_true_eq] at hopen
  rcases heffect.origin hcampaign' with ⟨before, hbefore, hmove⟩ | hfresh
  · have hsame : before = campaign :=
      eq_of_key_eq hkeys.campaigns hbefore hcampaign
        (hmove.sameId.symm.trans (hopen.1.1.trans hid.symm))
    rw [hsame] at hmove
    have hnotEnded : ended clock.now campaign = false := by
      cases hended : ended clock.now campaign with
      | false => rfl
      | true =>
          -- a campaign that was over would still be over
          have hstill := hmove.staysEnded hstatus hended
          unfold ended at hstill
          cases hend : campaign'.endAt with
          | none => simp [hend] at hstill
          | some stop =>
              simp only [hend, Option.any_some, Option.all_some, decide_eq_true_eq] at hstill hopen
              exact absurd hopen.1.2 (Int.not_lt.mpr hstill)
    refine windowOpen_of hcampaign hid ?_ (fun hcancelled => hopen.2 (hmove.staysCancelled hcancelled))
    unfold ended at hnotEnded
    cases hend : campaign.endAt with
    | none => rfl
    | some stop => simpa [hend] using hnotEnded
  · exact absurd (hid.trans hopen.1.1.symm) (hfresh campaign hcampaign)

/-! ## Live jobs -/

/-- The assignment is active in an open window. -/
def Live (s : Store) (now : Int) (row : CampaignAssignment) : Prop :=
  row.status = .active ∧ s.windowOpen now row = true

instance (s : Store) (now : Int) : DecidablePred (Live s now) :=
  fun _ => inferInstanceAs (Decidable (_ ∧ _))

/-- An active assignment was there before, or this transaction activated it and no other. -/
theorem DossiersEffect.active_origin (h : DossiersEffect s s' clock) (hrow : row ∈ s'.assignments)
    (hactive : row.status = .active) :
    row ∈ s.assignments ∨ ∃ before ∈ s.assignments, row = before.activated clock.now
      ∧ ¬ Contested (·.vehicleId) s clock.startedAt before
      ∧ ¬ Contested (·.driverProfileId) s clock.startedAt before
      ∧ ∀ other ∈ s'.assignments, other.id ≠ row.id → other ∈ s.assignments := by
  rcases dossier_of_assignment hrow with ⟨x, hx, rfl⟩
  cases h with
  | kept h => exact .inl (assignment_of_dossier (h ▸ hx))
  | offered d hoffered _ h =>
      rw [h] at hx
      rcases List.mem_append.mp hx with hold | hnew
      · exact .inl (assignment_of_dossier hold)
      · rw [List.mem_singleton.mp hnew, hoffered.blank] at hactive
        cases hactive
  | moved d d' hd hmove h =>
      have hothers : ∀ other ∈ s'.assignments, other.id ≠ d'.id → other ∈ s.assignments := by
        intro other hother hne
        rcases dossier_of_assignment hother with ⟨y, hy, rfl⟩
        rw [h] at hy
        rcases mem_replaceDossier hy with rfl | ⟨hold, _⟩
        · exact absurd rfl hne
        · exact assignment_of_dossier hold
      rw [h] at hx
      rcases mem_replaceDossier hx with rfl | ⟨hold, _⟩
      · cases hmove with
        | activated _ _ _ _ _ hvehicle hdriver =>
            exact .inr ⟨d.assignment, assignment_of_dossier hd, rfl, hvehicle, hdriver, hothers⟩
        | expired | accepted | declined | deactivated | cancelled => cases hactive
      · exact .inl (assignment_of_dossier hold)
  | cancelled campaignId f _ hopen hkept h =>
      rw [h] at hx
      rcases List.mem_map.mp hx with ⟨d, hd, rfl⟩
      cases hclosed : closedByCancellation campaignId d.assignment with
      | true =>
          rw [(hopen d hclosed).2] at hactive
          exact absurd hactive (by decide)
      | false =>
          rw [hkept d hclosed]
          exact .inl (assignment_of_dossier hd)

theorem launched_of_reachable (h : ReachableBy platform allowed db) :
    ∀ row ∈ db.store.assignments, CampaignLaunched db.store row := by
  intro row hrow
  rcases dossier_of_assignment hrow with ⟨d, hd, rfl⟩
  exact campaignLaunched_of_reachable h d hd

/-- One step: an owner whose activation is checked keeps one live job. -/
theorem live_step {owner : CampaignAssignment → Id}
    (howner : owner = (·.vehicleId) ∨ owner = (·.driverProfileId))
    (hcommitted : Committed Ticks db db' clock)
    (h : Exclusive (·.id) owner (Live db.store db.clock) db.store.assignments) :
    Exclusive (·.id) owner (Live db'.store db'.clock) db'.store.assignments := by
  have hbefore : ∀ other ∈ db.store.assignments, Live db'.store db'.clock other →
      Live db.store clock.now other := by
    intro other hother hlive
    refine ⟨hlive.1, windowOpen_before hcommitted.keys hcommitted.effect.campaigns
      (launched_of_reachable hcommitted.reachable other hother) ?_⟩
    rw [← hcommitted.read]
    exact hlive.2
  refine h.step ?_
  intro y hy hlive
  rcases hcommitted.effect.dossiers.active_origin hy hlive.1 with
    hold | ⟨before, _, hactivated, hvehicle, hdriver, hothers⟩
  · have hthen := hbefore y hold hlive
    exact .inl ⟨y, hold, rfl, rfl, hthen.1, windowOpen_earlier hcommitted.later hthen.2⟩
  · refine .inr ?_
    intro z hz hzowner hzlive
    by_contra hne
    have hzold := hothers z hz hne
    have hzthen := hbefore z hzold hzlive
    have hid : before.id = y.id := hactivated ▸ rfl
    have hopen := windowOpen_earlier hcommitted.started hzthen.2
    -- the check of the activation looked at all rows of the owner
    have hcontested : Contested owner db.store clock.startedAt before := by
      refine ⟨z, hzold, hzowner.trans ?_, hzthen.1, hopen, hid ▸ hne⟩
      rcases howner with rfl | rfl
      · exact hactivated ▸ rfl
      · exact hactivated ▸ rfl
    rcases howner with rfl | rfl
    · exact hvehicle hcontested
    · exact hdriver hcontested

theorem live_of_reachable {owner : CampaignAssignment → Id}
    (howner : owner = (·.vehicleId) ∨ owner = (·.driverProfileId)) (h : ReachableBy platform Ticks db) :
    Exclusive (·.id) owner (Live db.store db.clock) db.store.assignments := by
  refine run_invariant
    (P := fun db => Exclusive (·.id) owner (Live db.store db.clock) db.store.assignments) ?_ ?_ h
  · exact exclusive_nil
  · intro db db' clock hcommitted hlive
    exact live_step howner hcommitted hlive

omit [Freezing] in
/-- The current job is read off the live ones of the driver. -/
theorem currentJob_answer (hkeys : Keys s) {now : Int}
    (h : Exclusive (·.id) (·.driverProfileId) (Live s now) s.assignments) {userId : Id}
    {driverProfile : DriverProfile} (hdriver : s.driverProfileOfUser? userId = some driverProfile) :
    ∃ answer, getCurrentActiveDriverAssignment userId now s = .ok answer
      ∧ ∀ row, answer = some row ↔ row ∈ s.assignments
        ∧ row.driverProfileId = driverProfile.id ∧ Live s now row := by
  have hsame : s.assignments.filter (fun row =>
        row.driverProfileId = driverProfile.id && row.status = .active && s.windowOpen now row)
      = s.assignments.filter (fun row =>
        row.driverProfileId = driverProfile.id ∧ Live s now row) := by
    refine List.filter_congr ?_
    intro row _
    rw [Bool.eq_iff_iff, decide_eq_true_eq]
    simp [Live, and_assoc]
  have hmem : ∀ row, row ∈ s.assignments.filter (fun row =>
        row.driverProfileId = driverProfile.id ∧ Live s now row)
      ↔ row ∈ s.assignments ∧ row.driverProfileId = driverProfile.id ∧ Live s now row := by
    intro row
    simp [List.mem_filter]
  have hlength := h.length_le hkeys.assignments driverProfile.id
  refine ⟨(s.assignments.filter (fun row =>
    row.driverProfileId = driverProfile.id ∧ Live s now row)).head?, ?_, ?_⟩
  · refine bind_eq_ok.mpr ⟨driverProfile, demand_eq_ok.mpr hdriver, bind_eq_ok.mpr ⟨⟨⟩, ?_, ?_⟩⟩
    · rw [hsame]
      exact require_of hlength
    · rw [hsame]
      rfl
  · intro row
    rw [← hmem row]
    exact head?_eq_some_iff_mem hlength

/-- In every state that transactions reach, and at every later instant, a vehicle and a driver
each have at most one live job; so a driver who asks for the current job is answered with
it, and is never told that there are two. -/
theorem one_live_job (h : ReachableBy platform Ticks db) {now : Int} (hnow : db.clock ≤ now) :
    Exclusive (·.id) (·.vehicleId) (Live db.store now) db.store.assignments
      ∧ Exclusive (·.id) (·.driverProfileId) (Live db.store now) db.store.assignments
      ∧ ∀ userId driverProfile, db.store.driverProfileOfUser? userId = some driverProfile →
        ∃ answer, getCurrentActiveDriverAssignment userId now db.store = .ok answer
          ∧ ∀ row, answer = some row ↔ row ∈ db.store.assignments
            ∧ row.driverProfileId = driverProfile.id ∧ Live db.store now row := by
  have hlive : ∀ owner : CampaignAssignment → Id, (owner = (·.vehicleId) ∨ owner = (·.driverProfileId)) →
      Exclusive (·.id) owner (Live db.store now) db.store.assignments := by
    intro owner howner
    refine (live_of_reachable howner h).mono ?_
    intro row _ hrow
    exact ⟨hrow.1, windowOpen_earlier hnow hrow.2⟩
  refine ⟨hlive _ (.inl rfl), hlive _ (.inr rfl), ?_⟩
  intro userId driverProfile hdriver
  exact currentJob_answer (keys_of_reachable h) (hlive _ (.inr rfl)) hdriver

omit [Freezing] in
/-- The started job is live until its campaign ends, and it is the driver's current one. -/
theorem one_live_job_started :
    ∃ db, ReachableBy (@platform sampleFreezing) Ticks db ∧ db.clock ≤ 99
      ∧ Exclusive (·.id) (·.driverProfileId) (Live db.store 99) db.store.assignments
      ∧ ∃ row ∈ db.store.assignments, Live db.store 99 row
        ∧ getCurrentActiveDriverAssignment 11 99 db.store = .ok (some row) := by
  let _ := sampleFreezing
  rcases platform.exists_reachableBy Ticks startedJob (fun _ _ _ h => ticks_iff h)
    (fun db => db.clock ≤ 99 && db.store.driverProfileOfUser? 11 = some sampleDriver
      && db.store.assignments.any (fun row =>
        row.driverProfileId = sampleDriver.id && decide (Live db.store 99 row)))
    (by decide +kernel) with ⟨db, hreach, htest⟩
  simp only [Bool.and_eq_true, decide_eq_true_eq, List.any_eq_true] at htest
  rcases htest with ⟨⟨hclock, hdriver⟩, row, hrow, hprofile, hlive⟩
  rcases one_live_job hreach hclock with ⟨_, hexclusive, hcurrent⟩
  rcases hcurrent 11 sampleDriver hdriver with ⟨answer, hanswer, hread⟩
  have hsome : answer = some row := (hread row).mpr ⟨hrow, hprofile, hlive⟩
  exact ⟨db, hreach, hclock, hexclusive, row, hrow, hlive, hsome ▸ hanswer⟩

/-- The driver of the started job takes a second one, of another campaign.  The first campaign is
over when the second job starts at 101, but an extension of it that read the clock at 99
commits after that. -/
def lateExtension : List Transaction :=
  let at_ (now : Int) (command : Command) : Transaction :=
    { clock := { startedAt := now, now := now }, command := command }
  startedJob ++
    [ at_ 13 (.createCampaign (.ok ⟨⟩) 21
        { id := 13, organizationId := 31, name := "second", startAt := some 50, endAt := some 300
          budgetAmount := some 1000, dailyBudgetAmount := some 100, currency := "NGN"
          rules := by decide }),
      at_ 13 (.writeZones 13 [{ sampleZone with id := 14, campaignId := 13 }]),
      at_ 13 (.writeCreative { sampleCreative with id := 15, campaignId := 13 }),
      at_ 14 (.publishRevision (.ok ⟨⟩) 13
        { revisionId := 17, ruleId := 18, effectiveFrom := 15, dailyRateNaira := 9000
          dailyTargetMiles := 40, positive := by decide }),
      at_ 15 (.submitForReview (.ok ⟨⟩) 21 13 161 15),
      at_ 16 (.decideReview (.ok ⟨⟩) 22 13 162 .approved none 16),
      at_ 17 (.offer (.ok ⟨⟩) (.ok ⟨⟩) (.ok ⟨⟩) 22
        { assignmentId := 19, eventId := 163, campaignId := 13, driverProfileId := 1, vehicleId := 2
          creativeId := 15, expiresAt := 50 }),
      at_ 19 (.accept (.ok ⟨⟩) 11 19 164 165 []),
      at_ 20 (.requestChange (.ok ⟨⟩) 3
        { requestId := 90, userId := 21, clientRequestId := 91, changes := { endAt := some 200 }
          sourceSha256 := sampleFreezing.changeSha256
            { campaignId := 3, campaignName := "launch", currency := "NGN"
              budgetAmount := some 1000, dailyBudgetAmount := some 100, startAt := some 10
              endAt := some 100 }
          fingerprint := "extend", previewCurrent := true, requestedLiabilityAmount := 0
          funded := true }),
      at_ 101 (.activate (.ok ⟨⟩) 22 19 sampleAuthority 166 []),
      at_ 99 (.decideChange (.ok ⟨⟩) 90 true true { userId := 22, reason := "one more month" }) ]

omit [Freezing] in
/-- The order of the clock is needed: each campaign's transactions are in order here, but not
those of the two, and two jobs are live. -/
theorem two_live_jobs_out_of_order :
    ∃ db error, Reachable (@platform sampleFreezing) db
      ∧ getCurrentActiveDriverAssignment 11 101 db.store = .error error
      ∧ error.code = "MULTIPLE_ACTIVE_ASSIGNMENTS" := by
  let _ := sampleFreezing
  rcases platform.exists_reachable lateExtension
    (fun db => match getCurrentActiveDriverAssignment 11 101 db.store with
      | .error error => error.code = "MULTIPLE_ACTIVE_ASSIGNMENTS"
      | .ok _ => false)
    (by decide +kernel) with ⟨db, hreach, htest⟩
  cases hanswer : getCurrentActiveDriverAssignment 11 101 db.store with
  | ok answer => simp [hanswer] at htest
  | error error => exact ⟨db, error, hreach, hanswer, by simpa [hanswer] using htest⟩

/-! ## Open assignments -/

/-- An open assignment was open before, or it was offered just now and is the only new one. -/
theorem DossiersEffect.open_origin (h : DossiersEffect s s' clock) (hrow : row ∈ s'.assignments)
    (hopen : nonTerminal row.status = true) :
    (∃ before ∈ s.assignments, SameOffer before row ∧ nonTerminal before.status = true)
      ∨ ∃ d, Offered s clock.now d ∧ d.assignment = row
        ∧ ∀ other ∈ s'.assignments, other.id ≠ row.id → other ∈ s.assignments := by
  have hstored : ∀ x ∈ s.dossiers, nonTerminal x.assignment.status = true →
      ∃ before ∈ s.assignments, SameOffer before x.assignment ∧ nonTerminal before.status = true :=
    fun x hx hxopen => ⟨x.assignment, assignment_of_dossier hx,
      ⟨rfl, rfl, rfl, rfl, rfl, rfl, rfl, rfl⟩, hxopen⟩
  rcases dossier_of_assignment hrow with ⟨x, hx, rfl⟩
  cases h with
  | kept h => exact .inl (hstored x (h ▸ hx) hopen)
  | offered d hoffered _ h =>
      rw [h] at hx
      rcases List.mem_append.mp hx with hold | hnew
      · exact .inl (hstored x hold hopen)
      · refine .inr ⟨d, hoffered, congrArg _ (List.mem_singleton.mp hnew).symm, ?_⟩
        intro other hother hne
        rcases dossier_of_assignment hother with ⟨y, hy, rfl⟩
        rw [h] at hy
        rcases List.mem_append.mp hy with hyold | hynew
        · exact assignment_of_dossier hyold
        · rw [List.mem_singleton.mp hynew, List.mem_singleton.mp hnew] at hne
          exact absurd rfl hne
  | moved d d' hd hmove h =>
      rw [h] at hx
      rcases mem_replaceDossier hx with rfl | ⟨hold, _⟩
      · exact .inl ⟨d.assignment, assignment_of_dossier hd, hmove.sameOffer,
          hmove.nonTerminal_before hopen⟩
      · exact .inl (hstored x hold hopen)
  | cancelled campaignId f _ hclosing hkept h =>
      rw [h] at hx
      rcases List.mem_map.mp hx with ⟨d, hd, rfl⟩
      cases hclosed : closedByCancellation campaignId d.assignment with
      | true =>
          rw [(hclosing d hclosed).2] at hopen
          exact absurd hopen (by decide)
      | false =>
          rw [hkept d hclosed] at hopen ⊢
          exact .inl (hstored d hd hopen)

/-- What is open, and what a cancelled campaign leaves. -/
structure OpenAssignments (s : Store) : Prop where
  alone : Exclusive (·.id) (fun row => (row.campaignId, row.vehicleId))
    (fun row => nonTerminal row.status = true) s.assignments
  closed : ∀ campaign ∈ s.campaigns, campaign.status = .cancelled →
    ∀ row ∈ s.assignments, row.campaignId = campaign.id → nonTerminal row.status = false

theorem OpenAssignments.step (hcommitted : Committed allowed db db' clock)
    (h : OpenAssignments db.store) : OpenAssignments db'.store where
  alone := by
    refine h.alone.step ?_
    intro y hy hopen
    rcases hcommitted.effect.dossiers.open_origin hy hopen with
      ⟨before, hbefore, hsame, hbeforeOpen⟩ | ⟨d, hoffered, rfl, hothers⟩
    · exact .inl ⟨before, hbefore, hsame.id.symm,
        Prod.ext hsame.campaignId.symm hsame.vehicleId.symm, hbeforeOpen⟩
    · refine .inr ?_
      intro z hz howner hzopen
      by_contra hne
      have hparties := Prod.ext_iff.mp howner
      exact hoffered.alone z (hothers z hz hne) ⟨hparties.1, hparties.2, hzopen⟩
  closed := by
    intro campaign hcampaign hcancelled
    rcases hcommitted.effect.cancels campaign hcampaign hcancelled with
      ⟨before, hbefore, hid, hbeforeCancelled⟩ | hnone
    · intro row hrow hrowCampaign
      have hclosed := h.closed before hbefore hbeforeCancelled
      cases hopen : nonTerminal row.status with
      | false => rfl
      | true =>
          rcases hcommitted.effect.dossiers.open_origin hrow hopen with
            ⟨old, hold, hsame, holdOpen⟩ | ⟨d, hoffered, rfl, _⟩
          · have hnot := hclosed old hold
              (hsame.campaignId.symm.trans (hrowCampaign.trans hid.symm))
            exact absurd (hnot.symm.trans holdOpen) Bool.false_ne_true
          · -- offers are made for open campaigns only
            rcases hoffered.build with ⟨other, hother, _, _, _, _, hotherId, _, hotherOpen, _⟩
            have hsame : other = before :=
              eq_of_key_eq hcommitted.keys.campaigns hother hbefore
                (hotherId.trans (hrowCampaign.trans hid.symm))
            rw [hsame, hbeforeCancelled] at hotherOpen
            exact absurd hotherOpen (by decide)
    · exact hnone

/-- In every reachable state, a campaign has at most one open assignment for a vehicle, and a
cancelled campaign has none. -/
theorem open_assignments (h : Reachable platform db) : OpenAssignments db.store := by
  refine run_invariant (P := fun db => OpenAssignments db.store) ?_ ?_ h
  · exact ⟨exclusive_nil, fun _ hcampaign => absurd hcampaign List.not_mem_nil⟩
  · intro db db' clock hcommitted hopen
    exact hopen.step hcommitted

/-- A job is live exactly while it is shown as active. -/
theorem live_iff_shown_active (h : Reachable platform db) (hrow : row ∈ db.store.assignments)
    (now : Int) : Live db.store now row ↔ assignmentStatus db.store now row = some .active := by
  have hkeys := keys_of_reachable h
  rcases launched_of_reachable h row hrow with ⟨campaign, hcampaign, hid, _⟩
  have honly : ∀ other ∈ db.store.campaigns, other.id = row.campaignId → other = campaign :=
    fun other hother hotherId => eq_of_key_eq hkeys.campaigns hother hcampaign (hotherId.trans hid.symm)
  unfold assignmentStatus
  constructor
  · rintro ⟨hactive, hopen⟩
    rw [if_neg, hactive]
    rintro ⟨_, hended⟩
    rcases List.any_eq_true.mp hended with ⟨other, hother, hotherEnded⟩
    rcases List.any_eq_true.mp hopen with ⟨running, hrunning, hrunningOpen⟩
    simp only [Bool.and_eq_true, decide_eq_true_eq] at hotherEnded hrunningOpen
    rw [honly other hother hotherEnded.1] at hotherEnded
    rw [honly running hrunning hrunningOpen.1.1] at hrunningOpen
    cases hend : campaign.endAt with
    | none => simp [hend] at hotherEnded
    | some stop =>
        simp only [hend, Option.any_some, Option.all_some, decide_eq_true_eq] at hotherEnded hrunningOpen
        exact absurd hrunningOpen.1.2 (Int.not_lt.mpr hotherEnded.2)
  · intro hshown
    split_ifs at hshown with hended
    have hactive : row.status = .active := Option.some.inj hshown
    have hopen : nonTerminal row.status = true := by
      rw [hactive]
      rfl
    refine ⟨hactive, windowOpen_of hcampaign hid ?_ ?_⟩
    · cases hend : campaign.endAt with
      | none => rfl
      | some stop =>
          by_contra hnot
          refine hended ⟨hopen, List.any_eq_true.mpr ⟨campaign, hcampaign, ?_⟩⟩
          simpa [hend, hid] using hnot
    · -- a cancelled campaign has no open assignment
      intro hcancelled
      have hclosed := (open_assignments h).closed campaign hcampaign hcancelled row hrow hid.symm
      exact absurd (hclosed.symm.trans hopen) Bool.false_ne_true

/-- The started job with its campaign cancelled at 20. -/
def cancelledJob : List Transaction :=
  startedJob ++
    [{ clock := { startedAt := 20, now := 20 }
       command := .cancelCampaign (.ok ⟨⟩) (.ok ⟨⟩) 3
         { cancellationId := 80, userId := 21, clientRequestId := 81, fingerprint := "cancel"
           reason := "sold out" } (100 + ·) }]

omit [Freezing] in
/-- Its assignment is closed with it. -/
theorem open_assignments_cancelled :
    ∃ db, Reachable (@platform sampleFreezing) db
      ∧ ∃ campaign ∈ db.store.campaigns, campaign.status = .cancelled
        ∧ ∃ row ∈ db.store.assignments, row.campaignId = campaign.id
          ∧ nonTerminal row.status = false := by
  let _ := sampleFreezing
  rcases platform.exists_reachable cancelledJob
    (fun db => db.store.campaigns.any (fun campaign => campaign.status = .cancelled
      && db.store.assignments.any (·.campaignId = campaign.id)))
    (by decide +kernel) with ⟨db, hreach, htest⟩
  simp only [Bool.and_eq_true, decide_eq_true_eq, List.any_eq_true] at htest
  rcases htest with ⟨campaign, hcampaign, hcancelled, row, hrow, hid⟩
  exact ⟨db, hreach, campaign, hcampaign, hcancelled, row, hrow, hid,
    (open_assignments hreach).closed campaign hcampaign hcancelled row hrow hid⟩

end

end Assignments
end Mobility
