import Mobility.Billing.LiabilityRuns
import Mobility.Billing.Refunds

/-!
# Readiness — the advisory answer and the binding check

`assignment_liability_readiness` predicts the reservation without making it: it adds the
request to the total where the binding path reserves first and asserts afterwards.
-/

namespace Mobility
namespace Billing

open Lib
open LiabilityBook

/-- The binding path: reserve, then assert the reservation and its cover. -/
def reserveAndAssert (assignmentId reservationId : Id) (now : Int) (s : Store) :
    Except AppError Store := do
  let assignment ← demand (s.assignments.find? (·.id = assignmentId)) assignmentNotFound
  let reserved ← reserveAssignmentLiability (.ok ⟨⟩) assignmentId reservationId now s
  assertReserved assignment now reserved

section

variable {s : Store}

/-- Reservations are not read by the production check. -/
theorem assertProduction_of_reservations (rows : List CampaignLiabilityReservation)
    (campaignId : Id) (now : Int) :
    assertCampaignProductionAuthorized campaignId now { s with reservations := rows }
      = assertCampaignProductionAuthorized campaignId now s := rfl

/-- The binding path after a reservation wrote `rows`. -/
theorem assertReserved_iff {assignment : CampaignAssignment} {now : Int}
    {rows : List CampaignLiabilityReservation} {row : CampaignLiabilityReservation}
    (hcancelled : (s.cancellation? assignment.campaignId).isNone) (hrow : row ∈ rows)
    (howner : row.assignmentId = assignment.id ∧ row.campaignId = assignment.campaignId) :
    (∃ s', assertReserved assignment now ({ s with reservations := rows }, row) = .ok s')
      ↔ row.status = .reserved ∧ ∃ authorization,
        assertCampaignProductionAuthorized assignment.campaignId now s = .ok authorization
        ∧ reservedCampaignLiabilityTotal { s with reservations := rows } assignment.campaignId
          ≤ authorizationUsableLiability s authorization now := by
  have husable : ∀ authorization,
      authorizationUsableLiability { s with reservations := rows } authorization now
        = authorizationUsableLiability s authorization now := fun _ => rfl
  constructor
  · rintro ⟨s', h⟩
    simp only [assertReserved, bind_eq_ok, require_eq_ok, assertProduction_of_reservations] at h
    rcases h with ⟨_, hstatus, authorization, hproduction, _, hnew, _⟩
    rcases assertNewWorkAuthorized_covered hnew with ⟨effective, heffective, hcovers⟩
    have hsame := (assertCampaignProductionAuthorized_effective hproduction).symm.trans heffective
    refine ⟨hstatus, authorization, hproduction, ?_⟩
    rw [Option.some.inj hsame]
    exact hcovers
  · rintro ⟨hstatus, authorization, hproduction, hcovers⟩
    have hmatches : ∃ reservation ∈ rows, reservation.campaignId = assignment.campaignId
        ∧ reservation.assignmentId = assignment.id ∧ reservation.status = .reserved :=
      ⟨row, hrow, howner.2, howner.1, hstatus⟩
    have hnew : assertNewWorkAuthorized assignment.campaignId assignment.id now
        { s with reservations := rows } = .ok ⟨⟩ := by
      simp only [assertNewWorkAuthorized, bind_eq_ok, require_eq_ok]
      refine ⟨⟨⟩, hcancelled, authorization, ?_, ⟨⟩, hmatches, ?_⟩
      · rw [assertProduction_of_reservations, hproduction]
        rfl
      · rw [assertAuthorizationCoversLiability, require_eq_ok, Int.add_zero, husable]
        exact hcovers
    refine ⟨{ s with reservations := rows }, ?_⟩
    simp only [assertReserved, bind_eq_ok, require_eq_ok, pure_eq_ok]
    exact ⟨⟨⟩, hstatus, authorization, hproduction, ⟨⟩, hnew, trivial⟩

/-- The total of a running campaign is the reserved part and the applied changes. -/
theorem total_of_rows (rows : List CampaignLiabilityReservation) {campaignId : Id}
    (h : (s.cancellation? campaignId).isNone) :
    reservedCampaignLiabilityTotal { s with reservations := rows } campaignId
      = total (fun row => row.campaignId = campaignId && row.status = .reserved)
          (fun row => row.reservedAmount.getD 0) rows
        + appliedChangeLiability s campaignId := by
  have hrunning : ¬ (Store.cancellation? { s with reservations := rows } campaignId).isSome := by
    have hsame : Store.cancellation? { s with reservations := rows } campaignId
        = s.cancellation? campaignId := rfl
    simpa [hsame] using h
  unfold reservedCampaignLiabilityTotal
  rw [if_neg hrunning]
  rfl

/-- A new reserved row adds its amount. -/
theorem total_of_reservation {row : CampaignLiabilityReservation}
    (h : (s.cancellation? row.campaignId).isNone) (hstatus : row.status = .reserved) :
    reservedCampaignLiabilityTotal { s with reservations := s.reservations ++ [row] } row.campaignId
      = reservedCampaignLiabilityTotal s row.campaignId + row.reservedAmount.getD 0 := by
  have hbefore := total_of_rows s.reservations h
  rw [total_of_rows _ h, total_append, total_cons, total_nil]
  simp only [hstatus, decide_true, Bool.and_self, if_true, Int.add_zero]
  rw [Int.add_right_comm, ← hbefore]

/-- Funding a waiting row adds its amount. -/
theorem total_of_funding (hb : LiabilityInv s.liability)
    {existing row : CampaignLiabilityReservation} (hexisting : existing ∈ s.reservations)
    (hwaits : existing.status ≠ .reserved) (hstatus : row.status = .reserved)
    (h : (s.cancellation? row.campaignId).isNone) :
    reservedCampaignLiabilityTotal { s with
        reservations := s.reservations.map (fun other =>
          if other.assignmentId = existing.assignmentId then row else other) } row.campaignId
      = reservedCampaignLiabilityTotal s row.campaignId + row.reservedAmount.getD 0 := by
  have hbefore := total_of_rows s.reservations h
  have hkeys : (s.reservations.map (·.assignmentId)).Nodup := hb.reservationKeys
  rw [total_of_rows _ h, total_rewrite hkeys hexisting (fun _ => row)]
  simp only [hstatus, hwaits, decide_true, decide_false, Bool.and_self, Bool.and_false, if_true,
    Bool.false_eq_true, if_false, Int.sub_zero]
  rw [Int.add_right_comm, ← hbefore]

/-! ## The answer -/

/-- Production is authorized, and the authorization covers `additional` on top. -/
def CoversMore (s : Store) (campaignId : Id) (additional now : Int) : Prop :=
  ∃ authorization, assertCampaignProductionAuthorized campaignId now s = .ok authorization
    ∧ reservedCampaignLiabilityTotal s campaignId + additional
      ≤ authorizationUsableLiability s authorization now

theorem readinessReason_none {assignment : CampaignAssignment} {now : Int}
    {calculation : AssignmentLiabilityCalculation}
    (h : assignmentLiabilityCalculation assignment now s = .ok calculation) :
    readinessReason assignment none now s = .ok none
      ↔ calculation.canReserve = true
        ∧ CoversMore s assignment.campaignId calculation.requested now := by
  unfold readinessReason
  simp [h, CoversMore, assertAuthorizationCoversLiability]

theorem readinessReason_some {assignment : CampaignAssignment} {now : Int}
    {calculation : AssignmentLiabilityCalculation} {row : CampaignLiabilityReservation}
    (h : assignmentLiabilityCalculation assignment now s = .ok calculation) :
    readinessReason assignment (some row) now s = .ok none
      ↔ row.requestedAmount = calculation.requested
        ∧ ((row.status = .reserved ∧ CoversMore s assignment.campaignId 0 now)
          ∨ (row.status = .pendingFunding ∧ calculation.canReserve = true
            ∧ CoversMore s assignment.campaignId calculation.requested now)) := by
  unfold readinessReason
  cases hstatus : row.status with
  | reserved => simp [h, hstatus, CoversMore, assertAuthorizationCoversLiability]
  | pendingFunding => simp [h, hstatus, CoversMore, assertAuthorizationCoversLiability]
  | released => simp [h, hstatus]

/-- Reserving for the first time. -/
theorem reserveAssignmentLiability_new {assignmentId : Id} {now : Int}
    {assignment : CampaignAssignment} {campaign : Campaign}
    {calculation : AssignmentLiabilityCalculation}
    (hassignment : s.assignments.find? (·.id = assignmentId) = some assignment)
    (hcampaign : s.campaign? assignment.campaignId = some campaign)
    (hcalculation : assignmentLiabilityCalculation assignment now s = .ok calculation)
    (hexisting : s.reservation? assignmentId = none) (reservationId : Id) :
    ∃ row : CampaignLiabilityReservation, row.assignmentId = assignmentId
      ∧ row.campaignId = assignment.campaignId
      ∧ (row.status = .reserved ↔ calculation.canReserve = true)
      ∧ (calculation.canReserve = true → row.reservedAmount = some calculation.requested)
      ∧ reserveAssignmentLiability (.ok ⟨⟩) assignmentId reservationId now s
        = .ok ({ s with reservations := s.reservations ++ [row] }, row) := by
  have hout : ∃ row, reserveAssignmentLiability (.ok ⟨⟩) assignmentId reservationId now s = .ok row := by
    simp [reserveAssignmentLiability, hassignment, hcampaign, hcalculation, hexisting]
  rcases hout with ⟨out, hout⟩
  have h := hout
  simp only [reserveAssignmentLiability, hassignment, hcampaign, hcalculation, hexisting, demand,
    bind_eq_ok, Except.ok.injEq, exists_eq_left', exists_const, pure_eq_ok] at h
  rw [hout, ← h.2]
  refine ⟨_, rfl, rfl, ?_, ?_, rfl⟩
  · by_cases hcan : calculation.canReserve = true
    · simp [hcan]
    · simp [hcan]
  · intro hcan
    simp [hcan]

/-- A waiting reservation once its funding came. -/
def CampaignLiabilityReservation.funded (existing : CampaignLiabilityReservation)
    (calculation : AssignmentLiabilityCalculation) : CampaignLiabilityReservation :=
  { existing with
    authorizationId := calculation.authorization.map (·.id)
    status := .reserved
    reservedAmount := some calculation.requested }

/-- Reserving again: a waiting row is funded when it can be, any other stays. -/
theorem reserveAssignmentLiability_again {assignmentId : Id} {now : Int}
    {assignment : CampaignAssignment} {campaign : Campaign}
    {calculation : AssignmentLiabilityCalculation} {existing : CampaignLiabilityReservation}
    (hassignment : s.assignments.find? (·.id = assignmentId) = some assignment)
    (hcampaign : s.campaign? assignment.campaignId = some campaign)
    (hcalculation : assignmentLiabilityCalculation assignment now s = .ok calculation)
    (hexisting : s.reservation? assignmentId = some existing) (reservationId : Id)
    (out : Store × CampaignLiabilityReservation) :
    reserveAssignmentLiability (.ok ⟨⟩) assignmentId reservationId now s = .ok out
      ↔ existing.requestedAmount = calculation.requested
        ∧ (if existing.status = .pendingFunding ∧ calculation.canReserve = true then
            ({ s with
              reservations := s.reservations.map (fun row =>
                if row.assignmentId = existing.assignmentId then existing.funded calculation
                else row) }, existing.funded calculation)
          else (s, existing)) = out := by
  have hkey : existing.assignmentId = assignmentId := (mem_of_lookup hexisting).2
  rw [hkey]
  simp only [reserveAssignmentLiability, hassignment, hcampaign, hcalculation, hexisting, demand,
    bind_eq_ok, Except.ok.injEq, exists_eq_left', exists_const, require_eq_ok, true_and]
  split_ifs with hfund
  · rw [pure_eq_ok]
    rfl
  · rw [pure_eq_ok]

/-- The binding path asserts what reserving returned. -/
theorem reserveAndAssert_of {assignmentId reservationId : Id} {now : Int}
    {assignment : CampaignAssignment} {out : Store × CampaignLiabilityReservation}
    (hassignment : s.assignments.find? (·.id = assignmentId) = some assignment)
    (hout : reserveAssignmentLiability (.ok ⟨⟩) assignmentId reservationId now s = .ok out) :
    (∃ s', reserveAndAssert assignmentId reservationId now s = .ok s')
      ↔ ∃ s', assertReserved assignment now out = .ok s' := by
  refine exists_congr (fun s' => ?_)
  simp [reserveAndAssert, hassignment, hout]

/-- The binding path over a reservation that is already there. -/
theorem reserveAndAssert_again (hb : LiabilityInv s.liability) {assignmentId reservationId : Id}
    {now : Int} {assignment : CampaignAssignment} {campaign : Campaign}
    {calculation : AssignmentLiabilityCalculation} {existing : CampaignLiabilityReservation}
    (hassignment : s.assignments.find? (·.id = assignmentId) = some assignment)
    (hcampaign : s.campaign? assignment.campaignId = some campaign)
    (hcalculation : assignmentLiabilityCalculation assignment now s = .ok calculation)
    (hexisting : s.reservation? assignmentId = some existing)
    (hrequested : existing.requestedAmount = calculation.requested) :
    (∃ s', reserveAndAssert assignmentId reservationId now s = .ok s')
      ↔ (existing.status = .reserved ∧ CoversMore s assignment.campaignId 0 now)
        ∨ (existing.status = .pendingFunding ∧ calculation.canReserve = true
          ∧ CoversMore s assignment.campaignId calculation.requested now) := by
  rcases mem_of_lookup hassignment with ⟨hmem, hid⟩
  rcases mem_of_lookup hexisting with ⟨hrow, hkey⟩
  have hrunning := (assignmentLiabilityCalculation_eq hcalculation).1
  have howner : existing.campaignId = assignment.campaignId := by
    refine campaign_of_roster hb hmem ?_
    rw [hid, ← hkey]
    exact hb.reservationOwners existing hrow
  have hagain := fun out => reserveAssignmentLiability_again hassignment hcampaign hcalculation
    hexisting reservationId out
  by_cases hfund : existing.status = .pendingFunding ∧ calculation.canReserve = true
  · -- the funded row counts with the whole request
    have hout := (hagain _).mpr ⟨hrequested, if_pos hfund⟩
    have hfunded : existing.funded calculation ∈ s.reservations.map (fun row =>
        if row.assignmentId = existing.assignmentId then existing.funded calculation else row) :=
      List.mem_map.mpr ⟨existing, hrow, if_pos rfl⟩
    have hwaits : existing.status ≠ .reserved := by simp [hfund.1]
    have hstatus : (existing.funded calculation).status = .reserved := rfl
    have htotal := total_of_funding hb hrow hwaits hstatus (howner ▸ hrunning)
    have hcampaignId : (existing.funded calculation).campaignId = assignment.campaignId := howner
    rw [hcampaignId] at htotal
    rw [reserveAndAssert_of hassignment hout,
      assertReserved_iff hrunning hfunded ⟨hkey.trans hid.symm, howner⟩, htotal]
    constructor
    · rintro ⟨_, hcovers⟩
      exact .inr ⟨hfund.1, hfund.2, hcovers⟩
    · rintro (⟨hreserved, _⟩ | ⟨_, _, hcovers⟩)
      · exact absurd hreserved hwaits
      · exact ⟨rfl, hcovers⟩
  · -- the row stays as it is, so only a reserved one passes
    have hout := (hagain _).mpr ⟨hrequested, if_neg hfund⟩
    rw [reserveAndAssert_of hassignment hout]
    refine (assertReserved_iff hrunning hrow ⟨hkey.trans hid.symm, howner⟩).trans ?_
    constructor
    · rintro ⟨hreserved, hcovers⟩
      refine .inl ⟨hreserved, ?_⟩
      unfold CoversMore
      simp only [Int.add_zero]
      exact hcovers
    · rintro (⟨hreserved, hcovers⟩ | ⟨hpending, hcan, _⟩)
      · unfold CoversMore at hcovers
        simp only [Int.add_zero] at hcovers
        exact ⟨hreserved, hcovers⟩
      · exact absurd ⟨hpending, hcan⟩ hfund

/-- The binding path succeeds on exactly the states where the checks find no reason. -/
theorem reserveAndAssert_iff (hb : LiabilityInv s.liability) {assignmentId reservationId : Id}
    {now : Int} {assignment : CampaignAssignment}
    (hassignment : s.assignments.find? (·.id = assignmentId) = some assignment) :
    (∃ s', reserveAndAssert assignmentId reservationId now s = .ok s')
      ↔ readinessReason assignment (s.reservation? assignmentId) now s = .ok none := by
  rcases mem_of_lookup hassignment with ⟨hmem, hid⟩
  have hcampaign : ∃ campaign, s.campaign? assignment.campaignId = some campaign := by
    rcases List.mem_map.mp (hb.assignmentCampaigns _ (roster_of_mem hmem)) with ⟨campaign, hrow, hkey⟩
    cases hfind : s.campaign? assignment.campaignId with
    | none => exact absurd hkey (lookup_eq_none.mp hfind campaign hrow)
    | some found => exact ⟨found, rfl⟩
  rcases hcampaign with ⟨campaign, hcampaign⟩
  cases hcalculation : assignmentLiabilityCalculation assignment now s with
  | error error =>
      constructor
      · rintro ⟨s', h⟩
        simp [reserveAndAssert, reserveAssignmentLiability, hassignment, hcampaign, hcalculation] at h
      · intro h
        simp [readinessReason, hcalculation] at h
  | ok calculation =>
      have hrunning := (assignmentLiabilityCalculation_eq hcalculation).1
      cases hexisting : s.reservation? assignmentId with
      | none =>
          rcases reserveAssignmentLiability_new hassignment hcampaign hcalculation hexisting
            reservationId with ⟨row, hkey, howner, hstatus, hamount, hout⟩
          rw [readinessReason_none hcalculation, reserveAndAssert_of hassignment hout,
            assertReserved_iff hrunning (List.mem_append_right _ (List.mem_singleton.mpr rfl))
              ⟨hkey.trans hid.symm, howner⟩, hstatus]
          refine and_congr_right (fun hcan => ?_)
          have htotal := total_of_reservation (howner ▸ hrunning) (hstatus.mpr hcan)
          rw [howner, hamount hcan] at htotal
          rw [htotal]
          rfl
      | some existing =>
          rw [readinessReason_some hcalculation]
          by_cases hrequested : existing.requestedAmount = calculation.requested
          · rw [reserveAndAssert_again hb hassignment hcampaign hcalculation hexisting hrequested]
            exact ⟨fun h => ⟨hrequested, h⟩, fun h => h.2⟩
          · constructor
            · rintro ⟨s', h⟩
              simp only [reserveAndAssert, bind_eq_ok] at h
              rcases h with ⟨_, _, out, hout, _⟩
              exact absurd ((reserveAssignmentLiability_again hassignment hcampaign hcalculation
                hexisting reservationId out).mp hout).1 hrequested
            · exact fun h => absurd h.1 hrequested

/-- An assignment is reported eligible exactly when reserving and asserting would succeed. -/
theorem readiness_iff (hb : LiabilityInv s.liability) (assignmentId reservationId : Id) (now : Int) :
    (∃ readiness, assignmentLiabilityReadiness assignmentId now s = .ok readiness
        ∧ readiness.eligible = true)
      ↔ ∃ s', reserveAndAssert assignmentId reservationId now s = .ok s' := by
  cases hassignment : s.assignments.find? (·.id = assignmentId) with
  | none => simp [assignmentLiabilityReadiness, reserveAndAssert, hassignment]
  | some assignment =>
      rw [reserveAndAssert_iff hb hassignment]
      unfold assignmentLiabilityReadiness
      cases hreason : readinessReason assignment (s.reservation? assignmentId) now s with
      | error error => simp [hassignment, hreason]
      | ok reason => simp [hassignment, hreason]

end

/-! ## Transitions that raise the total -/

/-- Activation, and the request, decision or retry of a campaign change. -/
def BillingAction.raisesLiability : BillingAction → Bool
  | .activate .. | .requestChange .. | .decideChange .. => true
  | _ => false

section

variable [Hashing]

theorem cash_of_raisesLiability {s s' : Store} {a : BillingAction} (ha : a.raisesLiability = true)
    (h : billingStep s a = .ok s') : s'.cash = s.cash := by
  cases a with
  | activate => exact congrArg Prod.fst (activateAssignment_books h)
  | requestChange => exact congrArg Prod.fst (requestCampaignChange_books h)
  | decideChange => exact congrArg Prod.fst (decideCampaignChange_books h)
  | _ => exact absurd ha (by simp [BillingAction.raisesLiability])

/-- Whatever raises the reserved total of a campaign is covered by the authorization then in
force, and otherwise reserves nothing; the advisory answer agrees with the binding path. -/
theorem liability_within_funding :
    (∀ s, Reachable billing s → ∀ a s', billingStep s a = .ok s' → ∀ c,
      reservedCampaignLiabilityTotal s c < reservedCampaignLiabilityTotal s' c →
        ∃ now, a.instant = some now ∧ ∃ authorization,
          effectiveFinancialAuthorization s' c now = some authorization
          ∧ reservedCampaignLiabilityTotal s' c ≤ authorizationUsableLiability s' authorization now)
    ∧ (∀ s, Reachable billing s → ∀ a, a.raisesLiability = true →
      ((billing.stepOrStay s a).reservations = s.reservations
        ∧ ∀ c, appliedChangeLiability (billing.stepOrStay s a) c = appliedChangeLiability s c)
      ∨ ∃ c now, a.instant = some now
        ∧ (∃ authorization,
          effectiveFinancialAuthorization (billing.stepOrStay s a) c now = some authorization
          ∧ reservedCampaignLiabilityTotal (billing.stepOrStay s a) c
            ≤ authorizationUsableLiability (billing.stepOrStay s a) authorization now)
        ∧ ∀ c', c' ≠ c → reservedCampaignLiabilityTotal (billing.stepOrStay s a) c'
          ≤ reservedCampaignLiabilityTotal s c')
    ∧ ∀ s, Reachable billing s → ∀ assignmentId reservationId now,
      (∃ readiness, assignmentLiabilityReadiness assignmentId now s = .ok readiness
          ∧ readiness.eligible = true)
        ↔ ∃ s', reserveAndAssert assignmentId reservationId now s = .ok s' := by
  refine ⟨?_, ?_, fun s hs assignmentId reservationId now =>
    readiness_iff (liabilityInv_of_reachable hs) assignmentId reservationId now⟩
  · intro s hs a s' hstep c hmore
    have hb := liabilityInv_of_reachable hs
    rcases billingStep_liability (cashInv_of_reachable hs) hb hstep with ⟨raised, hwrites, hcovered⟩
    by_cases hc : raised = some c
    · exact hcovered c hc
    · -- the total of any other campaign did not grow
      have hle := LiabilityWrites.total_le hwrites hb hc
      rw [← reservedTotal_eq, ← reservedTotal_eq] at hle
      exact absurd hmore (not_lt.mpr hle)
  · intro s hs a ha
    have hb := liabilityInv_of_reachable hs
    cases hstep : billing.step s a with
    | error error =>
        have hstays : billing.stepOrStay s a = s := by simp [Machine.stepOrStay, hstep]
        rw [hstays]
        exact .inl ⟨rfl, fun _ => rfl⟩
    | ok s' =>
        have hmoves : billing.stepOrStay s a = s' := by simp [Machine.stepOrStay, hstep]
        rw [hmoves]
        rcases billingStep_liability (cashInv_of_reachable hs) hb hstep with
          ⟨raised, hwrites, hcovered⟩
        cases raised with
        | none =>
            have hcancelled : s'.cancellations = s.cancellations :=
              congrArg CashBook.cancellations (cash_of_raisesLiability ha hstep)
            have hlength : s'.liability.cancelled.length = s.liability.cancelled.length := by
              simp [Store.liability, hcancelled]
            exact .inl ((LiabilityWrites.unchanged hwrites hb).2 hlength)
        | some c =>
            rcases hcovered c rfl with ⟨now, hnow, hcover⟩
            refine .inr ⟨c, now, hnow, hcover, ?_⟩
            intro c' hc'
            rw [reservedTotal_eq, reservedTotal_eq]
            exact LiabilityWrites.total_le hwrites hb (fun h => hc' (Option.some.inj h).symm)

end

/-! ## A run -/

def hoursIn (hours : Int) : Int := hours * microsPerHour

/-- The frozen terms of assignment 1: 20.00 a day over two Lagos days. -/
def sampleBinding : AssignmentRuleBinding :=
  { id := 1
    assignmentId := 1
    formulaVersion := "payout_v4"
    dailyRateNaira := some 20
    campaignWindowStartAt := some (hoursIn 48)
    campaignWindowEndAt := some (hoursIn 72) }

/-- A funded campaign in production, with an accepted assignment. -/
def readyToActivate : List BillingAction :=
  invoicedCampaign ++ fundWith 1 "A" (hoursIn 1) ++
    [ .authorizePrepaid (.ok ⟨⟩) 5 1 80 "funded" (hoursIn 2),
      .startProduction (.ok ⟨⟩) 5 1 none (hoursIn 26),
      .offerAssignment (.ok ⟨⟩) 1 5,
      .acceptAssignment (.ok ⟨⟩) sampleBinding ]

def sampleActivation : BillingAction :=
  .activate (.ok ⟨⟩) (.ok ⟨⟩) (.ok ⟨⟩) 1 1 (hoursIn 27)

theorem liability_within_funding_activated :
    ∃ s s', Reachable billing s ∧ billingStep s sampleActivation = .ok s'
      ∧ reservedCampaignLiabilityTotal s 5 = 0 ∧ reservedCampaignLiabilityTotal s' 5 = 4000
      ∧ (∃ now, sampleActivation.instant = some now ∧ ∃ authorization,
          effectiveFinancialAuthorization s' 5 now = some authorization
          ∧ reservedCampaignLiabilityTotal s' 5 ≤ authorizationUsableLiability s' authorization now)
      ∧ (((billing.stepOrStay s sampleActivation).reservations = s.reservations
          ∧ ∀ c, appliedChangeLiability (billing.stepOrStay s sampleActivation) c
            = appliedChangeLiability s c)
        ∨ ∃ c now, sampleActivation.instant = some now
          ∧ (∃ authorization,
            effectiveFinancialAuthorization (billing.stepOrStay s sampleActivation) c now
              = some authorization
            ∧ reservedCampaignLiabilityTotal (billing.stepOrStay s sampleActivation) c
              ≤ authorizationUsableLiability (billing.stepOrStay s sampleActivation) authorization now)
          ∧ ∀ c', c' ≠ c → reservedCampaignLiabilityTotal (billing.stepOrStay s sampleActivation) c'
            ≤ reservedCampaignLiabilityTotal s c')
      ∧ ∃ s'', reserveAndAssert 1 1 (hoursIn 27) s = .ok s'' := by
  rcases billing.exists_step readyToActivate sampleActivation (fun s s' =>
      reservedCampaignLiabilityTotal s 5 = 0 && reservedCampaignLiabilityTotal s' 5 = 4000
        && (assignmentLiabilityReadiness 1 (hoursIn 27) s).toOption.any (·.eligible))
    (by decide +kernel) with ⟨s, s', hs, hstep, htest⟩
  simp only [Bool.and_eq_true, decide_eq_true_eq] at htest
  rcases htest with ⟨⟨hbefore, hafter⟩, hready⟩
  rcases liability_within_funding with ⟨hraise, hkept, hanswer⟩
  refine ⟨s, s', hs, hstep, hbefore, hafter, ?_, hkept s hs sampleActivation rfl, ?_⟩
  · refine hraise s hs sampleActivation s' hstep 5 ?_
    rw [hbefore, hafter]
    decide
  · refine (hanswer s hs 1 1 (hoursIn 27)).mp ?_
    cases hreadiness : assignmentLiabilityReadiness 1 (hoursIn 27) s with
    | error error => simp [hreadiness, Except.toOption] at hready
    | ok readiness => exact ⟨readiness, rfl, by simpa [hreadiness, Except.toOption] using hready⟩

end Billing
end Mobility
