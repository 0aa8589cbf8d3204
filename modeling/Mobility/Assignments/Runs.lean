import Mobility.Assignments.Effects

/-!
# Runs — what every run of transactions keeps

`Committed` is what is known of one accepted transaction.  `dossier_invariant` is the run
rule for facts about single dossiers; `run_invariant` the one for facts about the whole
database.
-/

namespace Mobility
namespace Assignments

open Lib
open Payout (Digest)
open Billing (CampaignStatus CampaignAssignmentStatus openForChange)

section

variable [Freezing] {s s' : Store} {db db' : Database} {clock : Clock} {d d' : Dossier}
  {allowed : Database → Transaction → Prop}

/-! ## Dossiers, before and after -/

omit [Freezing] in
theorem mem_replaceDossier {ds : List Dossier} {x : Dossier} (h : x ∈ replaceDossier d ds) :
    x = d ∨ (x ∈ ds ∧ x.id ≠ d.id) := by
  rcases List.mem_map.mp h with ⟨other, hother, rfl⟩
  split_ifs with hid
  · exact .inl rfl
  · exact .inr ⟨hother, hid⟩

/-- Where a dossier comes from. -/
theorem DossiersEffect.origin (h : DossiersEffect s s' clock) (hd' : d' ∈ s'.dossiers) :
    d' ∈ s.dossiers ∨ Offered s clock.now d' ∨ ∃ d ∈ s.dossiers, DossierMove s clock d d' := by
  cases h with
  | kept h => exact .inl (h ▸ hd')
  | offered d hoffered _ h =>
      rw [h] at hd'
      rcases List.mem_append.mp hd' with hold | hnew
      · exact .inl hold
      · exact .inr (.inl (List.mem_singleton.mp hnew ▸ hoffered))
  | moved d moved hd hmove h =>
      rw [h] at hd'
      rcases mem_replaceDossier hd' with rfl | ⟨hold, _⟩
      · exact .inr (.inr ⟨d, hd, hmove⟩)
      · exact .inl hold
  | cancelled campaignId f _ hopen hkept h =>
      rw [h] at hd'
      rcases List.mem_map.mp hd' with ⟨d, hd, rfl⟩
      cases hclosed : closedByCancellation campaignId d.assignment with
      | true => exact .inr (.inr ⟨d, hd, (hopen d hclosed).1⟩)
      | false =>
          rw [hkept d hclosed]
          exact .inl hd

/-- No dossier is ever removed. -/
theorem DossiersEffect.persists (h : DossiersEffect s s' clock) (hd : d ∈ s.dossiers) :
    ∃ d' ∈ s'.dossiers, d'.id = d.id := by
  cases h with
  | kept h => exact ⟨d, h ▸ hd, rfl⟩
  | offered new _ _ h => exact ⟨d, h ▸ List.mem_append_left _ hd, rfl⟩
  | moved old new _ _ h =>
      rw [h]
      refine ⟨_, List.mem_map_of_mem hd, ?_⟩
      split_ifs with hid
      · exact hid.symm
      · rfl
  | cancelled campaignId f _ hopen hkept h =>
      rw [h]
      refine ⟨f d, List.mem_map_of_mem hd, ?_⟩
      cases hclosed : closedByCancellation campaignId d.assignment with
      | true => exact (hopen d hclosed).1.id_eq
      | false => rw [hkept d hclosed]

omit [Freezing] in
theorem dossier_of_assignment {row : CampaignAssignment} (h : row ∈ s.assignments) :
    ∃ d ∈ s.dossiers, d.assignment = row :=
  ⟨s.dossier row, dossier_mem h, rfl⟩

omit [Freezing] in
theorem assignment_of_dossier (h : d ∈ s.dossiers) : d.assignment ∈ s.assignments := by
  rw [assignments_eq]
  exact List.mem_map_of_mem h

/-! ## Campaigns, before and after -/

omit [Freezing] in
/-- Where a campaign comes from. -/
theorem CampaignsEffect.origin {rows rows' : List Campaign} (h : CampaignsEffect clock rows rows')
    {c' : Campaign} (hc' : c' ∈ rows') :
    (∃ c ∈ rows, CampaignMove clock c c') ∨ ∀ other ∈ rows, other.id ≠ c'.id := by
  cases h with
  | moved h => exact .inl (exists_of_mem_forall₂ h hc')
  | drafted _ _ hfresh =>
      rcases List.mem_append.mp hc' with hold | hnew
      · exact .inl ⟨c', hold, CampaignMove.refl clock c'⟩
      · exact .inr (List.mem_singleton.mp hnew ▸ hfresh)

omit [Freezing] in
/-- Where a campaign goes. -/
theorem CampaignsEffect.persists {rows rows' : List Campaign} (h : CampaignsEffect clock rows rows')
    {c : Campaign} (hc : c ∈ rows) : ∃ c' ∈ rows', CampaignMove clock c c' := by
  cases h with
  | moved h => exact exists_of_mem_forall₂_left h hc
  | drafted _ _ _ => exact ⟨c, List.mem_append_left _ hc, CampaignMove.refl clock c⟩

omit [Freezing] in
theorem CampaignsEffect.nodup {rows rows' : List Campaign} (h : CampaignsEffect clock rows rows')
    (hnodup : (rows.map (·.id)).Nodup) : (rows'.map (·.id)).Nodup := by
  cases h with
  | moved h =>
      have hsame : rows'.map (·.id) = rows.map (·.id) :=
        map_eq_of_forall₂ (fun _ _ hmove => hmove.sameId) h
      rwa [hsame]
  | drafted _ _ hfresh =>
      rw [List.map_append]
      refine List.nodup_append.mpr ⟨hnodup, List.nodup_singleton _, ?_⟩
      intro k hk k' hk' heq
      rcases List.mem_map.mp hk with ⟨x, hx, rfl⟩
      exact hfresh x hx (heq.trans (List.mem_singleton.mp hk'))

/-! ## One transaction -/

theorem Effect.assignment_persists (h : Effect s s' clock) {assignmentId : Id}
    (hid : ∃ row ∈ s.assignments, row.id = assignmentId) :
    ∃ row ∈ s'.assignments, row.id = assignmentId := by
  rcases hid with ⟨row, hrow, rfl⟩
  rcases h.dossiers.persists (dossier_mem hrow) with ⟨d', hd', hid'⟩
  exact ⟨d'.assignment, assignment_of_dossier hd', hid'⟩

theorem Effect.keys (h : Effect s s' clock) (hkeys : Keys s) : Keys s' where
  campaigns := h.campaigns.nodup hkeys.campaigns
  assignments := by
    have hnodup := h.dossiers.nodup (dossiers_nodup hkeys)
    rw [assignments_eq, List.map_map]
    exact hnodup
  revisions := by
    rcases h.revisions with hsame | ⟨row, hadded, _, _, hfresh⟩
    · rw [hsame]
      exact hkeys.revisions
    · rw [hadded, List.map_append]
      refine List.nodup_append.mpr ⟨hkeys.revisions, List.nodup_singleton _, ?_⟩
      intro k hk k' hk' heq
      rcases List.mem_map.mp hk with ⟨x, hx, rfl⟩
      exact hfresh x hx (heq.trans (List.mem_singleton.mp hk'))
  eventsRefer := by
    intro event hevent
    rcases h.events event hevent with hold | hnew
    · exact h.assignment_persists (hkeys.eventsRefer event hold)
    · exact hnew
  bindingsRefer := by
    intro binding hbinding
    rcases h.bindings binding hbinding with hold | hnew
    · exact h.assignment_persists (hkeys.bindingsRefer binding hold)
    · exact hnew

/-! ## Runs -/

theorem keys_of_reachable (h : ReachableBy platform allowed db) : Keys db.store := by
  refine ReachableBy.invariant (fun db => Keys db.store) ?_ ?_ h
  · exact ⟨List.nodup_nil, List.nodup_nil, List.nodup_nil, fun _ h => absurd h List.not_mem_nil,
      fun _ h => absurd h List.not_mem_nil⟩
  · intro db transaction db' hkeys _ hstep
    rcases bind_eq_ok.mp hstep with ⟨store, hexecute, heq⟩
    cases pure_eq_ok.mp heq
    exact (execute_effect hkeys hexecute).keys hkeys

/-- What is known of an accepted transaction of a run. -/
structure Committed (allowed : Database → Transaction → Prop) (db db' : Database) (clock : Clock) :
    Prop where
  reachable : ReachableBy platform allowed db
  keys : Keys db.store
  effect : Effect db.store db'.store clock
  read : db'.clock = clock.now
  admitted : ∃ command, allowed db { clock := clock, command := command }

theorem committed_of_step {transaction : Transaction} (hreach : ReachableBy platform allowed db)
    (hallowed : allowed db transaction) (h : platform.step db transaction = .ok db') :
    Committed allowed db db' transaction.clock := by
  rcases bind_eq_ok.mp h with ⟨store, hexecute, heq⟩
  cases pure_eq_ok.mp heq
  have hkeys := keys_of_reachable hreach
  exact ⟨hreach, hkeys, execute_effect hkeys hexecute, rfl, transaction.command, hallowed⟩

theorem Committed.later (h : Committed Ticks db db' clock) : db.clock ≤ clock.now := by
  rcases h.admitted with ⟨_, hticks⟩
  exact hticks.1

theorem Committed.started (h : Committed Ticks db db' clock) : clock.startedAt ≤ clock.now := by
  rcases h.admitted with ⟨_, hticks⟩
  exact hticks.2

/-- The run rule for facts about the database; a step may use what is known of every
reachable state. -/
theorem run_invariant {P : Database → Prop} (hinit : P {})
    (hstep : ∀ db db' clock, Committed allowed db db' clock → P db → P db')
    (h : ReachableBy platform allowed db) : P db := by
  induction h with
  | init => exact hinit
  | step hreach hallowed hrun ih => exact hstep _ _ _ (committed_of_step hreach hallowed hrun) ih

/-- The run rule for facts about every dossier: a new offer has it, a move and every other
transaction keep it. -/
theorem dossier_invariant {P : Database → Dossier → Prop}
    (hoffered : ∀ db db' clock d, Committed allowed db db' clock → Offered db.store clock.now d →
      P db' d)
    (hmoved : ∀ db db' clock d d', Committed allowed db db' clock → d ∈ db.store.dossiers → P db d →
      DossierMove db.store clock d d' → P db' d')
    (hkept : ∀ db db' clock d, Committed allowed db db' clock → d ∈ db.store.dossiers → P db d →
      P db' d)
    (h : ReachableBy platform allowed db) : ∀ d ∈ db.store.dossiers, P db d := by
  refine run_invariant (P := fun db => ∀ d ∈ db.store.dossiers, P db d) ?_ ?_ h
  · intro d hd
    exact absurd hd List.not_mem_nil
  · intro db db' clock hcommitted hP d' hd'
    rcases hcommitted.effect.dossiers.origin hd' with hold | hnew | ⟨d, hd, hmove⟩
    · exact hkept db db' clock d' hcommitted hold (hP d' hold)
    · exact hoffered db db' clock d' hcommitted hnew
    · exact hmoved db db' clock d d' hcommitted hd (hP d hd) hmove

/-! ## The sweep of due offers -/

/-- The sweep is the run of its expiries, one transaction each. -/
theorem expireDueAssignmentOffers_reachable (h : Reachable platform db) {limit count : Nat}
    {eventIds : Id → Id} {clocks : Id → Int} {now : Int}
    (hsweep : expireDueAssignmentOffers limit eventIds clocks now db.store = .ok (s', count)) :
    ∃ db', Reachable platform db' ∧ db'.store = s' := by
  refine checkedFold_invariant (fun state => ∃ db', Reachable platform db' ∧ db'.store = state.1) ?_ _
    hsweep ⟨db, h, rfl⟩
  intro state assignmentId state' hstate hexpire
  rcases hstate with ⟨before, hbefore, heq⟩
  rcases bind_eq_ok.mp hexpire with ⟨⟨store, expired⟩, hone, hcounted⟩
  cases pure_eq_ok.mp hcounted
  let transaction : Transaction :=
    { clock := { startedAt := now, now := clocks assignmentId }
      command := .expireOffer (eventIds assignmentId) assignmentId }
  have hstep : platform.step before transaction
      = .ok { store := store, clock := clocks assignmentId } := by
    refine bind_eq_ok.mpr ⟨store, bind_eq_ok.mpr ⟨(store, expired), ?_, rfl⟩, rfl⟩
    rw [heq]
    exact hone
  exact ⟨_, .step hbefore trivial hstep, rfl⟩

end

/-! ## A job, from its draft to its start -/

def Leaf.codes : Leaf → List Nat
  | .null => [0]
  | .text value => 1 :: value.toList.map Char.toNat
  | .id value => [2, value]
  | .instant value => [3, value.natAbs, if value < 0 then 1 else 0]
  | .number value => [4, value.num.natAbs, value.den, if value < 0 then 1 else 0]

/-- A checksum of 32 bits, in hexadecimal. -/
def sampleSha256 (leaves : List Leaf) : Digest :=
  let sum := (leaves.flatMap Leaf.codes).foldl (fun sum code => (sum * 257 + code + 1) % 0x100000000) 1
  String.ofList ((List.range 8).map (fun i => Nat.digitChar (sum / 16 ^ i % 16)))

theorem sampleSha256_ne (leaves : List Leaf) : sampleSha256 leaves ≠ "" := by
  intro hempty
  have hlength := congrArg (fun text => text.toList.length) hempty
  simp [sampleSha256] at hlength

/-- Checksums of what sets two documents apart; the texts are folded already. -/
@[reducible]
def sampleFreezing : Freezing where
  offerTermsSha256 := fun terms => sampleSha256
    [.instant terms.campaignWindowStartAt, .instant terms.campaignWindowEndAt,
     .text terms.serviceArea.city, .id terms.branding.campaignId, .id terms.creative.id,
     .text terms.creative.contentSha256, .id terms.payout.revisionId,
     .number terms.payout.terms.dailyRateNaira, .number terms.payout.terms.dailyTargetMiles]
  contentSha256 := fun content => sampleSha256
    [.text content.checksum, optionalId content.storedFileId, .text content.mimeType,
     optionalInstant content.widthPx, optionalInstant content.heightPx,
     optionalInstant content.durationSeconds]
  geometrySha256 := fun rows => sampleSha256 (rows.flatMap (fun row => [.id row.1, .text row.2]))
  snapshotSha256 := fun document =>
    sampleSha256 (document.flatMap (fun entry => [.text entry.1, entry.2]))
  changeSha256 := fun snapshot => sampleSha256
    [.id snapshot.campaignId, .text snapshot.campaignName, .text snapshot.currency,
     optionalInstant snapshot.budgetAmount, optionalInstant snapshot.dailyBudgetAmount,
     optionalInstant snapshot.startAt, optionalInstant snapshot.endAt]
  casefold := id
  contentSha256_ne := fun _ => sampleSha256_ne _
  casefold_ne := fun _ h => h

def sampleDriver : DriverProfile :=
  { id := 1, userId := 11, onboardingStatus := .active, serviceCity := some " lagos "
    countryCode := some "ng" }

def sampleVehicle : Vehicle := { id := 2, driverProfileId := 1, status := .active }

def sampleCreative : CampaignCreative :=
  { id := 5
    campaignId := 3
    name := "door wrap"
    creativeType := "image"
    placement := "door"
    status := .approved
    checksum := some "c0ffee"
    storedFile := some
      { id := 6, organizationId := 31, purpose := "creative", scanStatus := "clean"
        checksumSha256 := some "c0ffee", contentType := "image/png"
        actualContentType := some "image/png" }
    mimeType := "image/png"
    updatedAt := some 1 }

def sampleZone : CampaignZone :=
  { id := 4, campaignId := 3, zoneType := .target, name := "island"
    wkt := some ⟨"POLYGON((0 0,1 0,1 1,0 0))", by decide⟩ }

def sampleAuthority : ActivationAuthority :=
  { eligibility := .ok ⟨⟩
    creativeReviewEventId := some 70
    reservation := .ok (some (71, .reserved))
    authorizationId := .ok 72
    newWork := .ok ⟨⟩
    evidence := .ok (73, 1)
    productionStart := some
      { id := 74, campaignId := 3, authorizationId := 72
        authorityBasis := .standardWindowElapsed, waiverId := none, fullyFundedAt := some 8
        startedAt := 9 } }

/-- A campaign is drafted, paid terms are published, it is approved, a driver is offered the
job, takes it and starts. -/
def startedJob : List Transaction :=
  let at_ (now : Int) (command : Command) : Transaction :=
    { clock := { startedAt := now, now := now }, command := command }
  [ at_ 1 (.writeDriverProfile sampleDriver),
    at_ 1 (.writeVehicle sampleVehicle),
    at_ 2 (.createCampaign (.ok ⟨⟩) 21
      { id := 3, organizationId := 31, name := "launch", startAt := some 10, endAt := some 100
        budgetAmount := some 1000, dailyBudgetAmount := some 100, currency := "NGN"
        rules := by decide }),
    at_ 3 (.writeZones 3 [sampleZone]),
    at_ 3 (.writeCreative sampleCreative),
    at_ 4 (.publishRevision (.ok ⟨⟩) 3
      { revisionId := 7, ruleId := 8, effectiveFrom := 5, dailyRateNaira := 8000
        dailyTargetMiles := 40, positive := by decide }),
    at_ 5 (.submitForReview (.ok ⟨⟩) 21 3 61 5),
    at_ 6 (.decideReview (.ok ⟨⟩) 22 3 62 .approved none 6),
    at_ 7 (.offer (.ok ⟨⟩) (.ok ⟨⟩) (.ok ⟨⟩) 22
      { assignmentId := 9, eventId := 63, campaignId := 3, driverProfileId := 1, vehicleId := 2
        creativeId := 5, expiresAt := 50 }),
    at_ 9 (.accept (.ok ⟨⟩) 11 9 64 65 []),
    at_ 12 (.activate (.ok ⟨⟩) 22 9 sampleAuthority 66 []) ]

/-- The clock as a check of a run. -/
def ticks (db : Database) (transaction : Transaction) : Bool :=
  db.clock ≤ transaction.clock.now && transaction.clock.startedAt ≤ transaction.clock.now

theorem ticks_iff {db : Database} {transaction : Transaction} (h : ticks db transaction = true) :
    Ticks db transaction := by
  simpa [ticks, Ticks] using h

end Assignments
end Mobility
