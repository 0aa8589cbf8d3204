import Mobility.Billing.Liability

/-!
# LiabilityRuns — every billing transaction on the liability book

Activation reserves and then asserts its cover; a change reserves what it was found to have
cover for.  No other transaction raises the reserved total of a campaign.
-/

namespace Mobility
namespace Billing

open Lib
open LiabilityBook
open Trips (lagosDayFor)
open Pay (halfUpNaira halfUpNaira_nonneg)

/-- The clock reading of a transaction that takes one. -/
def BillingAction.instant : BillingAction → Option Int
  | .confirmReceipt _ _ _ _ now => some now
  | .allocateReceipt _ _ _ _ _ now => some now
  | .reverseReceipt _ _ _ now => some now
  | .bankTransfer _ _ _ _ _ now => some now
  | .processEvent _ _ _ _ now => some now
  | .authorizePrepaid _ _ _ _ _ now => some now
  | .authorizeCredit _ _ _ _ now => some now
  | .waive _ _ _ now => some now
  | .startProduction _ _ _ _ now => some now
  | .activate _ _ _ _ _ now => some now
  | .requestChange _ _ _ now => some now
  | .decideChange _ _ _ _ now => some now
  | .cancelCampaign _ _ _ _ now => some now
  | _ => none

section

variable {s s' : Store}

/-! ## Cash leaves the book alone -/

theorem processManualBankTransfer_liability (hcash : CashInv s.cash)
    {authorized : Except AppError Unit} {receiptId allocationId termsId : Id}
    {transfer : BankTransfer} {now : Int}
    (h : processManualBankTransfer authorized receiptId allocationId termsId transfer now s = .ok s') :
    s'.liability = s.liability := by
  simp only [processManualBankTransfer, bind_eq_ok] at h
  rcases h with ⟨_, _, recorded, hrecorded, confirmed, hconfirmed, h⟩
  rcases recorded_allocations hrecorded with ⟨hwrites, hframe⟩
  have hconfirmed' : confirmed.1.liability = s.liability ∧ CashInv confirmed.1.cash := by
    have hrecordedInv := CashWrites.inv hwrites hcash
    have hrecorded' : recorded.1.liability = s.liability := by
      rw [hframe]
      rfl
    rcases (confirmPaymentReceipt_eq hconfirmed).2 with hsame | ⟨hwrite, hframe'⟩
    · rw [hsame]
      exact ⟨hrecorded', hrecordedInv⟩
    · refine ⟨?_, hwrite.inv hrecordedInv⟩
      rw [hframe']
      exact hrecorded'
  rcases ite_eq_ok.mp h with ⟨_, h⟩ | ⟨_, h⟩
  · simp only [bind_eq_ok, pure_eq_ok] at h
    rcases h with ⟨allocated, hallocated, rfl⟩
    rcases allocatePaymentReceipt_eq hconfirmed'.2 hallocated with hsame | ⟨_, _, row, _, hout⟩
    · rw [hsame]
      exact hconfirmed'.1
    · rw [hout]
      exact hconfirmed'.1
  · rw [← pure_eq_ok.mp h]
    exact hconfirmed'.1

theorem processPaymentGatewayEvent_liability (hcash : CashInv s.cash)
    {checkoutBinding : Except AppError Unit} {eventId receiptId allocationId : Id} {now : Int}
    (h : processPaymentGatewayEvent checkoutBinding eventId receiptId allocationId now s = .ok s') :
    s'.liability = s.liability := by
  simp only [processPaymentGatewayEvent, bind_eq_ok] at h
  rcases h with ⟨event, _, h⟩
  rcases ite_eq_ok.mp h with ⟨_, h⟩ | ⟨_, h⟩
  · rw [← pure_eq_ok.mp h]
  · rcases ite_eq_ok.mp h with ⟨_, h⟩ | ⟨_, h⟩
    · rw [← pure_eq_ok.mp h]
      rfl
    · simp only [bind_eq_ok] at h
      rcases h with ⟨termsId, _, terms, _, _, _, recorded, hrecorded, s₁, hconfirmed, _, _, h⟩
      rcases recorded_allocations hrecorded with ⟨hwrites, hframe⟩
      rcases confirmVerifiedGatewayReceipt_eq hconfirmed with ⟨hconfirms, hframe'⟩
      have hliability : s₁.liability = s.liability := by
        rw [hframe', hframe]
        rfl
      rcases ite_eq_ok.mp h with ⟨_, h⟩ | ⟨_, h⟩
      · simp only [bind_eq_ok, pure_eq_ok] at h
        rcases h with ⟨allocated, hallocated, rfl⟩
        have hinv := CashWrites.inv (hwrites.trans hconfirms) hcash
        have hattempt : (recordAttempt eventId "confirmed" (some allocated.2.id)
            allocated.1).liability = allocated.1.liability := rfl
        rw [hattempt]
        rcases allocatePaymentReceipt_eq hinv hallocated with hsame | ⟨_, _, row, _, hout⟩
        · rw [hsame]
          exact hliability
        · rw [hout]
          exact hliability
      · rw [← pure_eq_ok.mp h]
        exact hliability

/-! ## Reservation -/

/-- What the calculation promises of its answer. -/
theorem assignmentLiabilityCalculation_eq {assignment : CampaignAssignment} {now : Int}
    {calculation : AssignmentLiabilityCalculation}
    (h : assignmentLiabilityCalculation assignment now s = .ok calculation) :
    (s.cancellation? assignment.campaignId).isNone ∧ 0 < calculation.requested
      ∧ calculation.authorization = effectiveFinancialAuthorization s assignment.campaignId now
      ∧ calculation.canReserve = calculation.authorization.any (fun row =>
        calculation.requested ≤ authorizationUsableLiability s row now
          - reservedCampaignLiabilityTotal s assignment.campaignId) := by
  simp only [assignmentLiabilityCalculation, bind_eq_ok, require_eq_ok, pure_eq_ok] at h
  rcases h with ⟨_, hcancelled, _, _, _, _, _, _, _, _, _, _, _, hpositive, rfl⟩
  exact ⟨hcancelled, hpositive, rfl, rfl⟩

theorem roster_of_mem {assignment : CampaignAssignment} (h : assignment ∈ s.assignments) :
    (assignment.id, assignment.campaignId) ∈ s.liability.roster :=
  List.mem_map.mpr ⟨assignment, h, rfl⟩

/-- An assignment has one campaign. -/
theorem campaign_of_roster (hb : LiabilityInv s.liability) {assignment : CampaignAssignment}
    (h : assignment ∈ s.assignments) {c : Id} (hc : (assignment.id, c) ∈ s.liability.roster) :
    c = assignment.campaignId := by
  have hsame := eq_of_key_eq hb.assignmentKeys hc (roster_of_mem h) rfl
  exact congrArg Prod.snd hsame

theorem reserveAssignmentLiability_writes (hb : LiabilityInv s.liability)
    {authorized : Except AppError Unit} {assignmentId reservationId : Id} {now : Int}
    {out : Store × CampaignLiabilityReservation} {assignment : CampaignAssignment}
    (hassignment : s.assignments.find? (·.id = assignmentId) = some assignment)
    (h : reserveAssignmentLiability authorized assignmentId reservationId now s = .ok out) :
    LiabilityWrites (some assignment.campaignId) s.liability out.1.liability
      ∧ out.1 = { s with reservations := out.1.reservations } := by
  simp only [reserveAssignmentLiability, bind_eq_ok, demand_eq_ok] at h
  rcases h with ⟨_, _, found, hfound, _, _, calculation, hcalculation, h⟩
  have hsame : found = assignment := Option.some.inj (hfound.symm.trans hassignment)
  rw [hsame] at hcalculation h
  rcases mem_of_lookup hassignment with ⟨hmem, hid⟩
  have hpositive := (assignmentLiabilityCalculation_eq hcalculation).2.1
  split at h
  · rename_i existing hexisting
    rcases mem_of_lookup hexisting with ⟨hrow, hkey⟩
    simp only [bind_eq_ok, require_eq_ok] at h
    rcases h with ⟨_, _, h⟩
    rcases ite_eq_ok.mp h with ⟨_, h⟩ | ⟨_, h⟩
    · rw [← pure_eq_ok.mp h]
      refine ⟨.single ⟨_, .inr rfl, ?_⟩, rfl⟩
      -- a pending reservation is funded in its row
      have howner : (assignment.id, existing.campaignId) ∈ s.liability.roster := by
        rw [hid, ← hkey]
        exact hb.reservationOwners existing hrow
      rw [← campaign_of_roster hb hmem howner, ← hkey]
      exact .funding existing _ hrow ⟨rfl, rfl⟩ hpositive.le
    · rw [← pure_eq_ok.mp h]
      exact ⟨.refl, rfl⟩
  · rename_i hnone
    have hfresh : ∀ row ∈ s.reservations, row.assignmentId ≠ assignmentId :=
      lookup_eq_none.mp hnone
    -- a first reservation, funded or not, under the key of its assignment
    have hwrite : ∀ row : CampaignLiabilityReservation, row.assignmentId = assignmentId →
        row.campaignId = assignment.campaignId → 0 ≤ row.reservedAmount.getD 0 →
        LiabilityWrite s.liability (some assignment.campaignId)
          (Store.liability { s with reservations := s.reservations ++ [row] }) := by
      intro row hkey hcampaign hamount
      rw [← hcampaign]
      refine .reservation row ?_ (hkey ▸ hfresh) hamount
      rw [hkey, hcampaign, ← hid]
      exact roster_of_mem hmem
    rw [← pure_eq_ok.mp h]
    refine ⟨.single ⟨_, .inr rfl, hwrite _ rfl rfl ?_⟩, rfl⟩
    dsimp only
    split_ifs
    · exact hpositive.le
    · exact le_refl _

theorem assertCampaignProductionAuthorized_effective {campaignId : Id} {now : Int}
    {authorization : CampaignFinancialAuthorization}
    (h : assertCampaignProductionAuthorized campaignId now s = .ok authorization) :
    effectiveFinancialAuthorization s campaignId now = some authorization := by
  simp only [assertCampaignProductionAuthorized, bind_eq_ok, demand_eq_ok] at h
  rcases h with ⟨_, _, _, _, found, hfound, h⟩
  split at h
  · simp only [bind_eq_ok, pure_eq_ok] at h
    rcases h with ⟨_, _, rfl⟩
    exact hfound
  · simp only [bind_eq_ok, pure_eq_ok] at h
    rcases h with ⟨_, _, _, _, rfl⟩
    exact hfound

theorem assertNewWorkAuthorized_covered {campaignId assignmentId : Id} {now : Int}
    (h : assertNewWorkAuthorized campaignId assignmentId now s = .ok ⟨⟩) :
    Covered s campaignId now := by
  simp only [assertNewWorkAuthorized, bind_eq_ok, assertAuthorizationCoversLiability,
    require_eq_ok, Int.add_zero] at h
  rcases h with ⟨_, _, authorization, hauthorized, _, _, hcovers⟩
  refine ⟨authorization, ?_, hcovers⟩
  cases hassert : assertCampaignProductionAuthorized campaignId now s with
  | error error =>
      rw [hassert] at hauthorized
      exact absurd hauthorized (by simp [Except.mapError])
  | ok found =>
      rw [hassert] at hauthorized
      have hfound : found = authorization := Except.ok.inj hauthorized
      exact hfound ▸ assertCampaignProductionAuthorized_effective hassert

theorem activateAssignment_writes (hb : LiabilityInv s.liability)
    {authorized eligible evidenced : Except AppError Unit} {assignmentId reservationId : Id}
    {now : Int}
    (h : activateAssignment authorized eligible evidenced assignmentId reservationId now s = .ok s') :
    ∃ c, LiabilityWrites (some c) s.liability s'.liability ∧ Covered s' c now := by
  simp only [activateAssignment, assertReserved, bind_eq_ok, demand_eq_ok] at h
  rcases h with ⟨_, _, assignment, hassignment, _, _, _, _, _, _, _, _, reserved, hreserved, s₁,
    ⟨_, _, _, _, _, hcovers, hs₁⟩, _, _, h⟩
  have hreserved' : LiabilityWrites (some assignment.campaignId) s.liability reserved.1.liability := by
    unfold activationReservation at hreserved
    split at hreserved
    · rw [← Except.ok.inj hreserved]
    · rw [(mem_of_lookup hassignment).2] at hreserved
      exact (reserveAssignmentLiability_writes hb hassignment hreserved).1
  have hcovered : Covered s₁ assignment.campaignId now := by
    rw [← pure_eq_ok.mp hs₁]
    exact assertNewWorkAuthorized_covered hcovers
  rw [pure_eq_ok.mp hs₁] at hreserved'
  refine ⟨assignment.campaignId, ?_⟩
  rcases ite_eq_ok.mp h with ⟨_, h⟩ | ⟨_, h⟩
  · rw [← pure_eq_ok.mp h]
    exact ⟨hreserved', hcovered⟩
  · -- only statuses are rewritten
    rw [← pure_eq_ok.mp h]
    refine ⟨?_, hcovered⟩
    have hsame : Store.liability { s₁ with
        assignments := s₁.assignments.map (fun row =>
          if row.id = assignmentId then { row with status := .active } else row)
        campaigns := s₁.campaigns.map (fun row =>
          if row.id = assignment.campaignId ∧ row.status = .approved then
            { row with status := .active }
          else row) } = s₁.liability := by
      have hcampaigns := keys_of_map (fun row : Campaign => row.id) s₁.campaigns
        (fun row => if row.id = assignment.campaignId ∧ row.status = .approved then
          { row with status := .active } else row) (fun row => by split_ifs <;> rfl)
      have hroster := keys_of_map (fun row : CampaignAssignment => (row.id, row.campaignId))
        s₁.assignments (fun row => if row.id = assignmentId then
          { row with status := .active } else row) (fun row => by split_ifs <;> rfl)
      unfold Store.liability
      rw [hcampaigns, hroster]
    rw [hsame]
    exact hreserved'

/-- A cancellation releases its campaign's reservations; only statuses change besides. -/
theorem endCampaignWork_write {campaignId : Id} {row : CampaignCancellation}
    (hrow : row.campaignId = campaignId) :
    LiabilityWrite s.liability none
      (endCampaignWork campaignId { s with cancellations := s.cancellations ++ [row] }).liability := by
  have hcampaigns := keys_of_map (fun row : Campaign => row.id) s.campaigns
    (fun row => if row.id = campaignId then { row with status := .cancelled } else row)
    (fun row => by split_ifs <;> rfl)
  have hroster := keys_of_map (fun row : CampaignAssignment => (row.id, row.campaignId))
    s.assignments (fun row => if row.campaignId = campaignId ∧ openAssignment row.status then
      { row with status := .cancelled } else row) (fun row => by split_ifs <;> rfl)
  unfold endCampaignWork Store.liability
  rw [hcampaigns, hroster, List.map_append, List.map_singleton, hrow]
  exact .cancellation campaignId

/-- A status written to one assignment leaves the roster as it was. -/
theorem roster_of_status (assignmentId : Id) (status : CampaignAssignmentStatus) :
    Store.liability { s with
        assignments := s.assignments.map (fun row =>
          if row.id = assignmentId then { row with status := status } else row) }
      = s.liability := by
  have hroster := keys_of_map (fun row : CampaignAssignment => (row.id, row.campaignId))
    s.assignments (fun row => if row.id = assignmentId then { row with status := status } else row)
    (fun row => by split_ifs <;> rfl)
  unfold Store.liability
  rw [hroster]

theorem writeCampaign_writes (campaign : Campaign) :
    LiabilityWrites none s.liability (writeCampaign campaign s).liability := by
  unfold writeCampaign
  split_ifs with hexists
  · have hcampaigns := keys_of_map (fun row : Campaign => row.id) s.campaigns
      (fun row => if row.id = campaign.id then campaign else row)
      (fun row => by
        split_ifs with hid
        · exact hid.symm
        · rfl)
    unfold Store.liability
    rw [hcampaigns]
  · refine .single ⟨none, .inl rfl, ?_⟩
    unfold Store.liability
    rw [List.map_append, List.map_singleton]
    exact .campaign campaign.id

theorem acceptTerms_liability {authorized : Except AppError Unit} {terms : CommercialTerms}
    (h : acceptTerms authorized terms s = .ok s') : s'.liability = s.liability := by
  simp only [acceptTerms, bind_eq_ok, pure_eq_ok] at h
  rcases h with ⟨_, _, _, _, _, _, _, _, _, _, _, _, rfl⟩
  have hcampaigns := keys_of_map (fun row : Campaign => row.id) s.campaigns
    (fun row => if row.id = terms.campaignId ∧ row.budgetAmount.all (· < terms.grossAmount) then
      { row with budgetAmount := some terms.grossAmount } else row)
    (fun row => by split_ifs <;> rfl)
  unfold Store.liability
  rw [hcampaigns]

theorem offerAssignment_writes {authorized : Except AppError Unit} {assignmentId campaignId : Id}
    (h : offerAssignment authorized assignmentId campaignId s = .ok s') :
    LiabilityWrites none s.liability s'.liability := by
  simp only [offerAssignment, bind_eq_ok, demand_eq_ok, require_eq_ok, pure_eq_ok] at h
  rcases h with ⟨_, _, campaign, hcampaign, _, hfresh, rfl⟩
  refine .single ⟨none, .inl rfl, ?_⟩
  unfold Store.liability
  rw [List.map_append, List.map_singleton]
  refine .offer (assignmentId, campaignId) ?_ ?_
  · intro other hother
    rcases List.mem_map.mp hother with ⟨row, hrow, rfl⟩
    exact hfresh row hrow
  · exact List.mem_map.mpr ⟨campaign, mem_of_lookup hcampaign⟩

theorem acceptAssignment_writes {authorized : Except AppError Unit}
    {binding : AssignmentRuleBinding} (h : acceptAssignment authorized binding s = .ok s') :
    LiabilityWrites none s.liability s'.liability := by
  simp only [acceptAssignment, bind_eq_ok, require_eq_ok, pure_eq_ok] at h
  rcases h with ⟨_, _, _, _, _, _, _, _, _, hshape, rfl⟩
  have hrate : 0 ≤ binding.dailyRateNaira.getD 0 := by
    rcases (Option.any_eq_true _ _).mp hshape.2 with ⟨rate, hrate, hpositive⟩
    rw [hrate]
    exact (of_decide_eq_true hpositive).le
  have hstatus := roster_of_status (s := { s with bindings := s.bindings ++ [binding] })
    binding.assignmentId .accepted
  refine .single ⟨none, .inl rfl, ?_⟩
  rw [hstatus]
  unfold Store.liability
  rw [List.map_append, List.map_singleton]
  exact .rate binding.dailyRateNaira hrate

end

/-! ## Changes -/

section

variable [Hashing] {s s' : Store}

omit [Hashing] in
theorem additionalWindowLiability_nonneg (hb : LiabilityInv s.liability) {campaign : Campaign}
    {changes : ProposedChanges} {requested : Int}
    (h : additionalWindowLiability campaign changes s = .ok requested) : 0 ≤ requested := by
  unfold additionalWindowLiability at h
  split at h
  · dsimp only at h
    rcases ite_eq_ok.mp h with ⟨_, h⟩ | ⟨hdays, h⟩
    · exact (pure_eq_ok.mp h).le
    · rcases bind_eq_ok.mp h with ⟨_, _, h⟩
      rw [← pure_eq_ok.mp h]
      refine halfUpNaira_nonneg (List.sum_nonneg ?_)
      intro pay hpay
      rcases List.mem_map.mp hpay with ⟨binding, hbinding, rfl⟩
      have hrate : 0 ≤ binding.dailyRateNaira.getD 0 :=
        hb.rates _ (List.mem_map_of_mem (List.mem_of_mem_filter hbinding))
      exact mul_nonneg hrate (by exact_mod_cast (not_le.mp hdays).le)
  · exact (Except.ok.inj h).le

/-- The request as it waits for funding. -/
def waitingStore (s : Store) (request : CampaignChangeRequest) (review : Option Review) : Store :=
  s.updateChange request.id (fun row =>
    CampaignChangeRequest.withReview { row with status := .pendingFunding } review)

/-- The request and its campaign once it is applied. -/
def appliedStore (s : Store) (request : CampaignChangeRequest) (campaign : Campaign)
    (review : Option Review) (now : Int) : Store :=
  { s.updateChange request.id (fun row =>
      CampaignChangeRequest.withReview
        { row with
          status := .applied
          authorizationId :=
            (if 0 < request.requestedLiabilityAmount then
              effectiveFinancialAuthorization s campaign.id now else none).map (·.id)
          reservedLiabilityAmount := some request.requestedLiabilityAmount } review) with
    campaigns := s.campaigns.map (fun row =>
      if row.id = campaign.id then campaign.withChanges request.proposedChanges else row) }

theorem applyIfFunded_eq {request : CampaignChangeRequest} {campaign : Campaign}
    {review : Option Review} {now : Int}
    (h : applyIfFunded request campaign review now s = .ok s') :
    s' = waitingStore s request review
      ∨ ((0 < request.requestedLiabilityAmount →
          Funded s campaign.id request.requestedLiabilityAmount now)
        ∧ s' = appliedStore s request campaign review now) := by
  simp only [applyIfFunded, bind_eq_ok] at h
  rcases h with ⟨_, _, _, _, h⟩
  rcases ite_eq_ok.mp h with ⟨_, h⟩ | ⟨hfunded, h⟩
  · exact .inl (pure_eq_ok.mp h).symm
  · simp only [bind_eq_ok, pure_eq_ok] at h
    rcases h with ⟨_, _, _, _, _, _, rfl⟩
    refine .inr ⟨fun hpositive => ?_, rfl⟩
    by_contra hnot
    exact hfunded ⟨hpositive, hnot⟩

omit [Hashing] in
/-- A review touches no liability. -/
theorem withReview_keeps (row : CampaignChangeRequest) (review : Option Review) :
    (row.withReview review).id = row.id ∧ (row.withReview review).campaignId = row.campaignId
      ∧ (row.withReview review).status = row.status
      ∧ (row.withReview review).requestedLiabilityAmount = row.requestedLiabilityAmount
      ∧ (row.withReview review).reservedLiabilityAmount = row.reservedLiabilityAmount := by
  unfold CampaignChangeRequest.withReview
  split
  · exact ⟨rfl, rfl, rfl, rfl, rfl⟩
  · split_ifs
    · exact ⟨rfl, rfl, rfl, rfl, rfl⟩
    · exact ⟨rfl, rfl, rfl, rfl, rfl⟩

omit [Hashing] in
theorem waitingStore_writes (hb : LiabilityInv s.liability) {request : CampaignChangeRequest}
    {review : Option Review} (hrequest : request ∈ s.changeRequests)
    (hopen : request.status ≠ .applied) :
    LiabilityWrites none s.liability (waitingStore s request review).liability := by
  rcases withReview_keeps { request with status := .pendingFunding } review with
    ⟨hid, hcampaign, hstatus, hrequested, hreserved⟩
  refine .single ⟨none, .inl rfl, .change request _ none hrequest hopen ⟨hid, hcampaign⟩ ?_ ?_⟩
  · rw [hrequested, hreserved]
    exact hb.changeAmounts request hrequest
  · refine .inr (.inl ?_)
    rw [hstatus]
    simp

omit [Hashing] in
theorem appliedStore_write (hb : LiabilityInv s.liability) {request : CampaignChangeRequest}
    {campaign : Campaign} {review : Option Review} {now : Int} {raised : Option Id}
    (hrequest : request ∈ s.changeRequests) (hopen : request.status ≠ .applied)
    (hraised : raised = some request.campaignId ∨ request.requestedLiabilityAmount = 0) :
    LiabilityWrite s.liability raised (appliedStore s request campaign review now).liability := by
  have hcampaigns := keys_of_map (fun row : Campaign => row.id) s.campaigns
    (fun row => if row.id = campaign.id then campaign.withChanges request.proposedChanges else row)
    (fun row => by
      split_ifs with hid
      · exact hid.symm
      · rfl)
  unfold appliedStore Store.liability
  rw [hcampaigns]
  rcases withReview_keeps { request with
      status := .applied
      authorizationId :=
        (if 0 < request.requestedLiabilityAmount then
          effectiveFinancialAuthorization s campaign.id now else none).map (·.id)
      reservedLiabilityAmount := some request.requestedLiabilityAmount } review with
    ⟨hid, hcampaign, hstatus, hrequested, hreserved⟩
  refine .change request _ raised hrequest hopen ⟨hid, hcampaign⟩ ?_ ?_
  · rw [hrequested, hreserved]
    exact ⟨(hb.changeAmounts request hrequest).1, (hb.changeAmounts request hrequest).1⟩
  · rw [hreserved]
    exact hraised.imp_right (fun hzero => .inr (congrArg some hzero))

omit [Hashing] in
/-- Applying adds what was requested to the campaign's total. -/
theorem appliedStore_covered (hb : LiabilityInv s.liability) {request : CampaignChangeRequest}
    {campaign : Campaign} {review : Option Review} {now : Int}
    (hrequest : request ∈ s.changeRequests) (hopen : request.status ≠ .applied)
    (hcampaign : request.campaignId = campaign.id) (hpositive : 0 < request.requestedLiabilityAmount)
    (hfunded : Funded s campaign.id request.requestedLiabilityAmount now) :
    Covered (appliedStore s request campaign review now) campaign.id now := by
  unfold Funded at hfunded
  split at hfunded
  · exact absurd hfunded id
  · rename_i authorization hauthorization
    refine ⟨authorization, hauthorization, ?_⟩
    have husable : authorizationUsableLiability (appliedStore s request campaign review now)
        authorization now = authorizationUsableLiability s authorization now := rfl
    -- the request was not applied before, so all of it is added
    have happlied : (appliedStore s request campaign review now).liability.applied campaign.id
        = s.liability.applied campaign.id + request.requestedLiabilityAmount := by
      rcases withReview_keeps { request with
          status := .applied
          authorizationId :=
            (if 0 < request.requestedLiabilityAmount then
              effectiveFinancialAuthorization s campaign.id now else none).map (·.id)
          reservedLiabilityAmount := some request.requestedLiabilityAmount } review with
        ⟨hid, hcampaignId, hstatus, hrequested, hreserved⟩
      refine (total_rewrite hb.changeKeys hrequest _).trans ?_
      rw [hcampaignId, hstatus, hreserved]
      simp [hopen, hcampaign, LiabilityBook.applied]
    have hreserved : (appliedStore s request campaign review now).liability.reserved campaign.id
        = s.liability.reserved campaign.id := rfl
    have hcancelled : (appliedStore s request campaign review now).liability.cancelled
        = s.liability.cancelled := rfl
    rw [reservedTotal_eq] at hfunded ⊢
    rw [husable]
    unfold LiabilityBook.reservedTotal at hfunded ⊢
    rw [hcancelled, happlied, hreserved]
    split_ifs at hfunded ⊢
    · calc
        (0 : Int) ≤ request.requestedLiabilityAmount := hpositive.le
        _ ≤ authorizationUsableLiability s authorization now - 0 := hfunded
        _ = authorizationUsableLiability s authorization now := Int.sub_zero _
    · rw [← Int.add_assoc, Int.add_comm]
      exact Int.add_le_of_le_sub_right hfunded

/-- A request is applied only under cover, and otherwise waits. -/
theorem applyIfFunded_writes {request : CampaignChangeRequest} {campaign : Campaign}
    {review : Option Review} {now : Int} (hb : LiabilityInv s.liability)
    (hrequest : request ∈ s.changeRequests) (hopen : request.status ≠ .applied)
    (hcampaign : request.campaignId = campaign.id)
    (h : applyIfFunded request campaign review now s = .ok s') :
    ∃ raised, LiabilityWrites raised s.liability s'.liability
      ∧ ∀ c, raised = some c → Covered s' c now := by
  rcases applyIfFunded_eq h with rfl | ⟨hfunded, rfl⟩
  · exact ⟨none, waitingStore_writes hb hrequest hopen, by simp⟩
  · rcases (hb.changeAmounts request hrequest).1.eq_or_lt with hzero | hpositive
    · exact ⟨none, .single ⟨none, .inl rfl, appliedStore_write hb hrequest hopen (.inr hzero.symm)⟩,
        by simp⟩
    · refine ⟨some request.campaignId,
        .single ⟨_, .inr rfl, appliedStore_write hb hrequest hopen (.inl rfl)⟩, ?_⟩
      intro c hc
      rw [← Option.some.inj hc, hcampaign]
      exact appliedStore_covered hb hrequest hopen hcampaign hpositive (hfunded hpositive)

theorem requestCampaignChange_writes (hb : LiabilityInv s.liability)
    {authorized : Except AppError Unit} {campaignId : Id} {payload : CampaignChangeCreate}
    {now : Int} (h : requestCampaignChange authorized campaignId payload now s = .ok s') :
    ∃ raised, LiabilityWrites raised s.liability s'.liability
      ∧ ∀ c, raised = some c → Covered s' c now := by
  simp only [requestCampaignChange, bind_eq_ok] at h
  rcases h with ⟨_, _, campaign, hcampaign, h⟩
  split at h
  · simp only [bind_eq_ok, pure_eq_ok] at h
    rcases h with ⟨_, _, rfl⟩
    exact ⟨none, .refl, by simp⟩
  · simp only [bind_eq_ok, require_eq_ok] at h
    rcases h with ⟨_, _, preview, hpreview, _, _, _, _, _, hfresh, h⟩
    have hrequested : 0 ≤ preview.requestedLiabilityAmount := by
      simp only [buildChangePreview, bind_eq_ok, pure_eq_ok] at hpreview
      rcases hpreview with ⟨_, _, _, _, _, _, _, _, _, _, requested, hrequested, rfl⟩
      exact additionalWindowLiability_nonneg hb hrequested
    have hid : campaign.id = campaignId := by
      simp only [lockedCampaign, bind_eq_ok, demand_eq_ok, require_eq_ok, pure_eq_ok] at hcampaign
      rcases hcampaign with ⟨found, hfound, _, _, rfl⟩
      exact (mem_of_lookup hfound).2
    have hwrite : ∀ row : CampaignChangeRequest, row.id = payload.requestId →
        row.status = .pendingAdmin → row.requestedLiabilityAmount = preview.requestedLiabilityAmount →
        row.reservedLiabilityAmount = none → LiabilityWrite s.liability none
          (Store.liability { s with changeRequests := s.changeRequests ++ [row] }) := by
      intro row hrow hstatus hamount hreserved
      refine .request row (hrow ▸ hfresh) (by simp [hstatus]) ⟨hamount ▸ hrequested, ?_⟩
      rw [hreserved]
      exact le_refl _
    rcases ite_eq_ok.mp h with ⟨_, h⟩ | ⟨_, h⟩
    · rw [← pure_eq_ok.mp h]
      exact ⟨none, .single ⟨none, .inl rfl, hwrite _ rfl rfl rfl rfl⟩, by simp⟩
    · -- the request is written first and applied in the same transaction
      have happlied := fun hinv => applyIfFunded_writes hinv
        (List.mem_append_right _ (List.mem_singleton.mpr rfl)) (by simp) hid.symm h
      rcases happlied (by exact (hwrite _ rfl rfl rfl rfl).inv hb) with ⟨raised, hwrites, hcovered⟩
      refine ⟨raised, .head ⟨none, .inl rfl, ?_⟩ hwrites, hcovered⟩
      exact hwrite _ rfl rfl rfl rfl

theorem decideCampaignChange_writes (hb : LiabilityInv s.liability)
    {authorized : Except AppError Unit} {requestId : Id} {approve : Bool} {review : Review}
    {now : Int} (h : decideCampaignChange authorized requestId approve review now s = .ok s') :
    ∃ raised, LiabilityWrites raised s.liability s'.liability
      ∧ ∀ c, raised = some c → Covered s' c now := by
  simp only [decideCampaignChange, bind_eq_ok, demand_eq_ok] at h
  rcases h with ⟨_, _, request, hrequest, campaign, hcampaign, h⟩
  rcases mem_of_lookup hrequest with ⟨hmem, hkey⟩
  have hid : campaign.id = request.campaignId := by
    simp only [lockedCampaign, bind_eq_ok, demand_eq_ok, require_eq_ok, pure_eq_ok] at hcampaign
    rcases hcampaign with ⟨found, hfound, _, _, rfl⟩
    exact (mem_of_lookup hfound).2
  split at h
  · rw [← pure_eq_ok.mp h]
    exact ⟨none, .refl, by simp⟩
  · simp only [bind_eq_ok, pure_eq_ok] at h
    rcases h with ⟨_, _, rfl⟩
    exact ⟨none, .refl, by simp⟩
  · rename_i hnotApplied hnotRejected
    rcases ite_eq_ok.mp h with ⟨_, h⟩ | ⟨_, h⟩
    · exact applyIfFunded_writes hb hmem hnotApplied hid.symm h
    · simp only [bind_eq_ok, pure_eq_ok] at h
      rcases h with ⟨_, _, rfl⟩
      rw [← hkey]
      refine ⟨none, .single ⟨none, .inl rfl, .change request _ none hmem hnotApplied ⟨rfl, rfl⟩ ?_ ?_⟩,
        by simp⟩
      · exact hb.changeAmounts request hmem
      · exact .inr (.inl (by simp))

/-! ## Every step -/

/-- What a transaction may do to the liability book. -/
def LiabilityStep (s s' : Store) (a : BillingAction) : Prop :=
  ∃ raised, LiabilityWrites raised s.liability s'.liability
    ∧ ∀ c, raised = some c → ∃ now, a.instant = some now ∧ Covered s' c now

omit [Hashing] in
theorem LiabilityStep.of_writes {a : BillingAction}
    (h : LiabilityWrites none s.liability s'.liability) : LiabilityStep s s' a :=
  ⟨none, h, by simp⟩

omit [Hashing] in
theorem LiabilityStep.of_eq {a : BillingAction} (h : s'.liability = s.liability) :
    LiabilityStep s s' a :=
  .of_writes (h ▸ .refl)

omit [Hashing] in
theorem LiabilityStep.of_covered {a : BillingAction} {now : Int} (hnow : a.instant = some now)
    (h : ∃ raised, LiabilityWrites raised s.liability s'.liability
      ∧ ∀ c, raised = some c → Covered s' c now) : LiabilityStep s s' a := by
  rcases h with ⟨raised, hwrites, hcovered⟩
  exact ⟨raised, hwrites, fun c hc => ⟨now, hnow, hcovered c hc⟩⟩

theorem billingStep_liability (hcash : CashInv s.cash) (hb : LiabilityInv s.liability)
    {a : BillingAction} (h : billingStep s a = .ok s') : LiabilityStep s s' a := by
  cases a with
  | writeCampaign campaign =>
      rw [← Except.ok.inj h]
      exact .of_writes (writeCampaign_writes campaign)
  | acceptTerms => exact .of_eq (acceptTerms_liability h)
  | createInvoiceDraft | issueInvoice | correctInvoice =>
      exact .of_eq ((congrArg Store.liability (billingStep_invoices rfl h)).trans rfl)
  | recordReceipt actor receiptId facts =>
      rcases map_eq_ok.mp h with ⟨out, hout, rfl⟩
      exact .of_eq (by rw [(recorded_allocations hout).2]; rfl)
  | confirmReceipt authorized receiptId expectedAmount expectedCurrency now =>
      rcases map_eq_ok.mp h with ⟨out, hout, rfl⟩
      rcases (confirmPaymentReceipt_eq hout).2 with hsame | ⟨_, hframe⟩
      · exact .of_eq (by rw [hsame])
      · exact .of_eq (by rw [hframe]; rfl)
  | allocateReceipt actor allocationId receiptId termsId amount now =>
      rcases map_eq_ok.mp h with ⟨out, hout, rfl⟩
      rcases allocatePaymentReceipt_eq hcash hout with hsame | ⟨_, _, row, _, hout⟩
      · exact .of_eq (by rw [hsame])
      · exact .of_eq (by rw [hout]; rfl)
  | reverseReceipt authorized receiptId reason now =>
      rcases reversePaymentReceipt_eq h with hsame | ⟨_, hframe⟩
      · exact .of_eq (by rw [hsame])
      · exact .of_eq (by rw [hframe]; rfl)
  | bankTransfer => exact .of_eq (processManualBankTransfer_liability hcash h)
  | processEvent => exact .of_eq (processPaymentGatewayEvent_liability hcash h)
  | ingestEvent | authorizePrepaid | authorizeCredit | waive | startProduction =>
      exact .of_eq ((congrArg Store.liability (billingStep_authorizes rfl h)).trans rfl)
  | offerAssignment => exact .of_writes (offerAssignment_writes h)
  | acceptAssignment => exact .of_writes (acceptAssignment_writes h)
  | closeAssignment authorized assignmentId status =>
      simp only [billingStep, closeAssignment, bind_eq_ok, pure_eq_ok] at h
      rcases h with ⟨_, _, _, _, rfl⟩
      exact .of_eq (roster_of_status assignmentId status)
  | activate authorized eligible evidenced assignmentId reservationId now =>
      rcases activateAssignment_writes hb h with ⟨c, hwrites, hcovered⟩
      -- only here does a reservation start, with the cover checked in the same step
      exact ⟨some c, hwrites, fun _ hc => ⟨now, rfl, Option.some.inj hc ▸ hcovered⟩⟩
  | requestChange => exact .of_covered rfl (requestCampaignChange_writes hb h)
  | decideChange => exact .of_covered rfl (decideCampaignChange_writes hb h)
  | cancelCampaign authorized complaint campaignId request now =>
      rcases requestCampaignCancellation_eq h with hsame | ⟨_, _, row, hrow, hframe⟩
      · exact .of_eq (by rw [hsame])
      · rw [hframe]
        exact .of_writes (.single ⟨none, .inl rfl, endCampaignWork_write hrow⟩)
  | recordRefund authorized termsId receiptId facts =>
      rcases recordRefundSettlement_eq h with hsame | ⟨_, hframe⟩
      · exact .of_eq (by rw [hsame])
      · exact .of_eq (by rw [hframe]; rfl)
  | settleCredit authorized termsId settlementProvider externalReference reason =>
      rcases recordCreditContractSettlement_eq h with hsame | ⟨_, hframe⟩
      · exact .of_eq (by rw [hsame])
      · exact .of_eq (by rw [hframe]; rfl)

theorem liabilityInv_init : LiabilityInv (billing.init : Store).liability where
  assignmentKeys := List.nodup_nil
  assignmentCampaigns := by simp [billing, Store.liability]
  rates := by simp [billing, Store.liability]
  reservationKeys := List.nodup_nil
  reservationOwners := by simp [billing, Store.liability]
  reservedAmounts := by simp [billing, Store.liability]
  changeKeys := List.nodup_nil
  changeAmounts := by simp [billing, Store.liability]

/-- The liability book is in order in every reachable state. -/
theorem liabilityInv_of_reachable (h : Reachable billing s) : LiabilityInv s.liability := by
  refine h.invariant_of (fun s => CashInv s.cash) (fun _ => cashInv_of_reachable)
    (fun s => LiabilityInv s.liability) liabilityInv_init ?_
  intro x a x' hcash hb _ hstep
  rcases billingStep_liability hcash hb hstep with ⟨raised, hwrites, _⟩
  exact LiabilityWrites.inv hwrites hb

end

end Billing
end Mobility
