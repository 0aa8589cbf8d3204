import Mobility.Billing.CashRuns

/-!
# Liability — what is promised to drivers

The liability book is what bounds new promises: the campaigns, who works for which one,
reservations, change requests and cancellations.  Most transactions leave the book alone;
the few that write it keep its invariants, and those that raise the reserved total were
covered by the authorization in force.
-/

namespace Mobility
namespace Billing

open Lib
open Trips (uniqueViolation lagosDayFor)
open Pay (halfUpNaira halfUpNaira_nonneg)

structure LiabilityBook where
  campaigns : List Id
  /-- assignments with their campaigns -/
  roster : List (Id × Id)
  rates : List (Option ℚ)
  reservations : List CampaignLiabilityReservation
  changeRequests : List CampaignChangeRequest
  cancelled : List Id

def Store.liability (s : Store) : LiabilityBook :=
  { campaigns := s.campaigns.map (·.id)
    roster := s.assignments.map (fun row => (row.id, row.campaignId))
    rates := s.bindings.map (·.dailyRateNaira)
    reservations := s.reservations
    changeRequests := s.changeRequests
    cancelled := s.cancellations.map (·.campaignId) }

namespace LiabilityBook

def reserved (b : LiabilityBook) (campaignId : Id) : Int :=
  total (fun row => row.campaignId = campaignId && row.status = .reserved)
    (fun row => row.reservedAmount.getD 0) b.reservations

def applied (b : LiabilityBook) (campaignId : Id) : Int :=
  total (fun row => row.campaignId = campaignId && row.status = .applied)
    (fun row => row.reservedLiabilityAmount.getD 0) b.changeRequests

/-- The liability that counts against funding. -/
def reservedTotal (b : LiabilityBook) (campaignId : Id) : Int :=
  if campaignId ∈ b.cancelled then 0 else b.reserved campaignId + b.applied campaignId

end LiabilityBook

open LiabilityBook

structure LiabilityInv (b : LiabilityBook) : Prop where
  assignmentKeys : (b.roster.map (·.1)).Nodup
  assignmentCampaigns : ∀ row ∈ b.roster, row.2 ∈ b.campaigns
  rates : ∀ rate ∈ b.rates, 0 ≤ rate.getD 0
  reservationKeys : (b.reservations.map (·.assignmentId)).Nodup
  reservationOwners : ∀ row ∈ b.reservations, (row.assignmentId, row.campaignId) ∈ b.roster
  reservedAmounts : ∀ row ∈ b.reservations, 0 ≤ row.reservedAmount.getD 0
  changeKeys : (b.changeRequests.map (·.id)).Nodup
  changeAmounts : ∀ row ∈ b.changeRequests,
    0 ≤ row.requestedLiabilityAmount ∧ 0 ≤ row.reservedLiabilityAmount.getD 0

/-- The effective authorization covers all that is reserved for the campaign. -/
def Covered (s : Store) (campaignId : Id) (now : Int) : Prop :=
  ∃ authorization, effectiveFinancialAuthorization s campaignId now = some authorization
    ∧ reservedCampaignLiabilityTotal s campaignId
      ≤ authorizationUsableLiability s authorization now

section

variable {s s' : Store} {b b' : LiabilityBook}

theorem reservedTotal_eq (campaignId : Id) :
    reservedCampaignLiabilityTotal s campaignId = s.liability.reservedTotal campaignId := by
  have hiff : (s.cancellation? campaignId).isSome = true ↔ campaignId ∈ s.liability.cancelled := by
    constructor
    · intro hsome
      rcases Option.isSome_iff_exists.mp hsome with ⟨row, hrow⟩
      rcases mem_of_lookup hrow with ⟨hmem, hid⟩
      exact List.mem_map.mpr ⟨row, hmem, hid⟩
    · intro hmem
      rcases List.mem_map.mp hmem with ⟨row, hrow, hid⟩
      by_contra hnone
      rw [Option.not_isSome_iff_eq_none, Store.cancellation?, lookup_eq_none] at hnone
      exact hnone row hrow hid
  unfold reservedCampaignLiabilityTotal LiabilityBook.reservedTotal
  by_cases hcancelled : (s.cancellation? campaignId).isSome = true
  · rw [if_pos hcancelled, if_pos (hiff.mp hcancelled)]
  · rw [if_neg hcancelled, if_neg (fun h => hcancelled (hiff.mpr h))]
    rfl

end

/-! ## Writes -/

/-- One write of the liability book, and the campaign whose total it may raise. -/
inductive LiabilityWrite (b : LiabilityBook) : Option Id → LiabilityBook → Prop
  | campaign (id : Id) : LiabilityWrite b none { b with campaigns := b.campaigns ++ [id] }
  | offer (row : Id × Id) (hfresh : ∀ other ∈ b.roster, other.1 ≠ row.1)
      (hcampaign : row.2 ∈ b.campaigns) :
      LiabilityWrite b none { b with roster := b.roster ++ [row] }
  | rate (rate : Option ℚ) (hrate : 0 ≤ rate.getD 0) :
      LiabilityWrite b none { b with rates := b.rates ++ [rate] }
  | cancellation (campaignId : Id) :
      LiabilityWrite b none { b with
        reservations := b.reservations.map (fun row =>
          if row.campaignId = campaignId ∧ releasable row.status then
            { row with status := .released }
          else row)
        cancelled := b.cancelled ++ [campaignId] }
  | reservation (row : CampaignLiabilityReservation)
      (howner : (row.assignmentId, row.campaignId) ∈ b.roster)
      (hfresh : ∀ other ∈ b.reservations, other.assignmentId ≠ row.assignmentId)
      (hamount : 0 ≤ row.reservedAmount.getD 0) :
      LiabilityWrite b (some row.campaignId) { b with reservations := b.reservations ++ [row] }
  | funding (existing row : CampaignLiabilityReservation) (hexisting : existing ∈ b.reservations)
      (hkey : row.assignmentId = existing.assignmentId ∧ row.campaignId = existing.campaignId)
      (hamount : 0 ≤ row.reservedAmount.getD 0) :
      LiabilityWrite b (some existing.campaignId) { b with
        reservations := b.reservations.map (fun other =>
          if other.assignmentId = existing.assignmentId then row else other) }
  | request (row : CampaignChangeRequest) (hfresh : ∀ other ∈ b.changeRequests, other.id ≠ row.id)
      (hopen : row.status ≠ .applied)
      (hamount : 0 ≤ row.requestedLiabilityAmount ∧ 0 ≤ row.reservedLiabilityAmount.getD 0) :
      LiabilityWrite b none { b with changeRequests := b.changeRequests ++ [row] }
  | change (existing : CampaignChangeRequest) (f : CampaignChangeRequest → CampaignChangeRequest)
      (raised : Option Id) (hexisting : existing ∈ b.changeRequests)
      (hopen : existing.status ≠ .applied)
      (hkey : (f existing).id = existing.id ∧ (f existing).campaignId = existing.campaignId)
      (hamount : 0 ≤ (f existing).requestedLiabilityAmount
        ∧ 0 ≤ (f existing).reservedLiabilityAmount.getD 0)
      (hraised : raised = some existing.campaignId ∨ (f existing).status ≠ .applied
        ∨ (f existing).reservedLiabilityAmount = some 0) :
      LiabilityWrite b raised { b with
        changeRequests := b.changeRequests.map (fun row =>
          if row.id = existing.id then f row else row) }

/-- A chain of writes that raise at most one campaign. -/
abbrev LiabilityWrites (raised : Option Id) : LiabilityBook → LiabilityBook → Prop :=
  Relation.ReflTransGen (fun b b' => ∃ r, (r = none ∨ r = raised) ∧ LiabilityWrite b r b')

section

variable {b b' : LiabilityBook} {raised : Option Id}

theorem LiabilityWrite.inv (h : LiabilityWrite b raised b') (hb : LiabilityInv b) :
    LiabilityInv b' := by
  cases h with
  | campaign id =>
      exact { hb with
        assignmentCampaigns := fun row hrow =>
          List.mem_append_left _ (hb.assignmentCampaigns row hrow) }
  | offer row hfresh hcampaign =>
      refine { hb with
        assignmentKeys := nodup_map_append hb.assignmentKeys hfresh
        assignmentCampaigns := ?_
        reservationOwners := fun other hother =>
          List.mem_append_left _ (hb.reservationOwners other hother) }
      intro other hother
      rcases List.mem_append.mp hother with hother | hother
      · exact hb.assignmentCampaigns other hother
      · exact List.mem_singleton.mp hother ▸ hcampaign
  | rate rate hrate =>
      refine { hb with rates := ?_ }
      intro other hother
      rcases List.mem_append.mp hother with hother | hother
      · exact hb.rates other hother
      · exact List.mem_singleton.mp hother ▸ hrate
  | cancellation campaignId =>
      -- a release changes the status of a reservation and nothing else
      have hkeys : ∀ row : CampaignLiabilityReservation, ∀ row',
          row' = (if row.campaignId = campaignId ∧ releasable row.status then
            { row with status := .released } else row) →
          row'.assignmentId = row.assignmentId ∧ row'.campaignId = row.campaignId
            ∧ row'.reservedAmount = row.reservedAmount := by
        rintro row row' rfl
        split_ifs
        · exact ⟨rfl, rfl, rfl⟩
        · exact ⟨rfl, rfl, rfl⟩
      refine { hb with reservationKeys := ?_, reservationOwners := ?_, reservedAmounts := ?_ }
      · rw [List.map_map]
        refine (List.map_congr_left ?_ : b.reservations.map (·.assignmentId) = _) ▸ hb.reservationKeys
        intro row _
        exact (hkeys row _ rfl).1.symm
      · intro row' hrow'
        rcases List.mem_map.mp hrow' with ⟨row, hrow, hsame⟩
        rcases hkeys row row' hsame.symm with ⟨hassignment, hcampaign, _⟩
        rw [hassignment, hcampaign]
        exact hb.reservationOwners row hrow
      · intro row' hrow'
        rcases List.mem_map.mp hrow' with ⟨row, hrow, hsame⟩
        rw [(hkeys row row' hsame.symm).2.2]
        exact hb.reservedAmounts row hrow
  | reservation row howner hfresh hamount =>
      refine { hb with
        reservationKeys := nodup_map_append hb.reservationKeys hfresh
        reservationOwners := ?_
        reservedAmounts := ?_ }
      · intro other hother
        rcases List.mem_append.mp hother with hother | hother
        · exact hb.reservationOwners other hother
        · exact List.mem_singleton.mp hother ▸ howner
      · intro other hother
        rcases List.mem_append.mp hother with hother | hother
        · exact hb.reservedAmounts other hother
        · exact List.mem_singleton.mp hother ▸ hamount
  | funding existing row hexisting hkey hamount =>
      refine { hb with reservationKeys := ?_, reservationOwners := ?_, reservedAmounts := ?_ }
      · -- funding rewrites one row under its key
        rw [keys_rewrite hb.reservationKeys hexisting (fun _ => row) hkey.1]
        exact hb.reservationKeys
      · intro other hother
        rcases mem_rewrite hb.reservationKeys hexisting (fun _ => row) hother with rfl | hother
        · rw [hkey.1, hkey.2]
          exact hb.reservationOwners existing hexisting
        · exact hb.reservationOwners other hother
      · intro other hother
        rcases mem_rewrite hb.reservationKeys hexisting (fun _ => row) hother with rfl | hother
        · exact hamount
        · exact hb.reservedAmounts other hother
  | request row hfresh hopen hamount =>
      refine { hb with
        changeKeys := nodup_map_append hb.changeKeys hfresh
        changeAmounts := ?_ }
      intro other hother
      rcases List.mem_append.mp hother with hother | hother
      · exact hb.changeAmounts other hother
      · exact List.mem_singleton.mp hother ▸ hamount
  | change existing f _ hexisting hopen hkey hamount hraised =>
      refine { hb with changeKeys := ?_, changeAmounts := ?_ }
      · rw [keys_rewrite hb.changeKeys hexisting f hkey.1]
        exact hb.changeKeys
      · intro other hother
        rcases mem_rewrite hb.changeKeys hexisting f hother with rfl | hother
        · exact hamount
        · exact hb.changeAmounts other hother

theorem LiabilityWrite.reserved_le (h : LiabilityWrite b raised b') (hb : LiabilityInv b)
    {c : Id} (hc : raised ≠ some c) : b'.reserved c ≤ b.reserved c := by
  cases h with
  | cancellation campaignId =>
      by_cases hsame : campaignId = c
      · -- what is released no longer counts
        refine (total_eq_zero ?_).trans_le (total_nonneg hb.reservedAmounts)
        intro row' hrow'
        rcases List.mem_map.mp hrow' with ⟨row, _, rfl⟩
        split_ifs with hrelease
        · simp
        · have hnot : ¬ (row.campaignId = c ∧ row.status = .reserved) := by
            rintro ⟨hcampaign, hreserved⟩
            exact hrelease ⟨hcampaign.trans hsame.symm, by simp [releasable, hreserved]⟩
          simpa using hnot
      · refine (total_map ?_ ?_).le
        · intro row _
          split_ifs with hrelease
          · have hother : row.campaignId ≠ c := fun h => hsame (hrelease.1.symm.trans h)
            simp [hother]
          · rfl
        · intro row _ _
          split_ifs <;> rfl
  | reservation row howner hfresh hamount =>
      have hother : row.campaignId ≠ c := fun h => hc (congrArg some h)
      unfold LiabilityBook.reserved
      rw [total_append, total_cons, total_nil]
      simp [hother]
  | funding existing row hexisting hkey hamount =>
      have hother : existing.campaignId ≠ c := fun h => hc (congrArg some h)
      unfold LiabilityBook.reserved
      rw [total_rewrite hb.reservationKeys hexisting (fun _ => row)]
      simp [hother, hkey.2]
  | campaign | offer | rate | request | change => exact le_refl _

theorem LiabilityWrite.applied_eq (h : LiabilityWrite b raised b') (hb : LiabilityInv b)
    {c : Id} (hc : raised ≠ some c) : b'.applied c = b.applied c := by
  cases h with
  | request row hfresh hopen hamount =>
      unfold LiabilityBook.applied
      rw [total_append, total_cons, total_nil]
      simp [hopen]
  | change existing f _ hexisting hopen hkey hamount hraised =>
      unfold LiabilityBook.applied
      rw [total_rewrite hb.changeKeys hexisting f]
      rcases hraised with hraised | hraised | hraised
      · have hother : existing.campaignId ≠ c := fun h => hc (h ▸ hraised)
        simp [hother, hkey.2]
      · simp [hopen, hraised]
      · simp [hopen, hraised]
  | campaign | offer | rate | cancellation | reservation | funding => rfl

/-- A write raises the total of its own campaign at most. -/
theorem LiabilityWrite.total_le (h : LiabilityWrite b raised b') (hb : LiabilityInv b)
    {c : Id} (hc : raised ≠ some c) : b'.reservedTotal c ≤ b.reservedTotal c := by
  have hcancelled : c ∈ b.cancelled → c ∈ b'.cancelled := by
    intro hmem
    cases h with
    | cancellation campaignId => exact List.mem_append_left _ hmem
    | campaign | offer | rate | reservation | funding | request | change => exact hmem
  unfold LiabilityBook.reservedTotal
  split_ifs with hafter hbefore hbefore
  · exact le_refl _
  · exact Int.add_nonneg (total_nonneg hb.reservedAmounts)
      (total_nonneg (fun row hrow => (hb.changeAmounts row hrow).2))
  · exact absurd (hcancelled hbefore) hafter
  · exact Int.add_le_add (h.reserved_le hb hc) (h.applied_eq hb hc).le

/-- A write that raises nothing cancels a campaign, or leaves what is reserved as it was. -/
theorem LiabilityWrite.unchanged (h : LiabilityWrite b none b') (hb : LiabilityInv b) :
    b.cancelled.length ≤ b'.cancelled.length
      ∧ (b'.cancelled.length = b.cancelled.length →
        b'.reservations = b.reservations ∧ ∀ c, b'.applied c = b.applied c) := by
  have happlied : ∀ c, b'.applied c = b.applied c := fun c => h.applied_eq hb (by simp)
  cases h with
  | cancellation campaignId =>
      refine ⟨by simp, fun hlength => ?_⟩
      simp at hlength
  | campaign | offer | rate | request | change => exact ⟨le_refl _, fun _ => ⟨rfl, happlied⟩⟩

theorem LiabilityWrites.inv (h : LiabilityWrites raised b b') (hb : LiabilityInv b) :
    LiabilityInv b' := by
  induction h with
  | refl => exact hb
  | tail _ hwrite ih =>
      rcases hwrite with ⟨r, _, hwrite⟩
      exact hwrite.inv ih

theorem LiabilityWrites.total_le (h : LiabilityWrites raised b b') (hb : LiabilityInv b)
    {c : Id} (hc : raised ≠ some c) : b'.reservedTotal c ≤ b.reservedTotal c := by
  induction h with
  | refl => exact le_refl _
  | tail hchain hwrite ih =>
      rcases hwrite with ⟨r, hr, hwrite⟩
      have hrc : r ≠ some c := by
        rcases hr with rfl | rfl
        · simp
        · exact hc
      exact (hwrite.total_le (LiabilityWrites.inv hchain hb) hrc).trans ih

theorem LiabilityWrites.unchanged (h : LiabilityWrites none b b') (hb : LiabilityInv b) :
    b.cancelled.length ≤ b'.cancelled.length
      ∧ (b'.cancelled.length = b.cancelled.length →
        b'.reservations = b.reservations ∧ ∀ c, b'.applied c = b.applied c) := by
  induction h with
  | refl => exact ⟨le_refl _, fun _ => ⟨rfl, fun _ => rfl⟩⟩
  | tail hchain hwrite ih =>
      rcases hwrite with ⟨r, hr, hwrite⟩
      have hnone : r = none := hr.elim id id
      rw [hnone] at hwrite
      rcases hwrite.unchanged (LiabilityWrites.inv hchain hb) with ⟨hmono, hsame⟩
      refine ⟨ih.1.trans hmono, fun hlength => ?_⟩
      rcases hsame (le_antisymm (hlength.trans_le ih.1) hmono) with ⟨hrows, happlied⟩
      rcases ih.2 (le_antisymm (hmono.trans hlength.le) ih.1) with ⟨hrows', happlied'⟩
      exact ⟨hrows.trans hrows', fun c => (happlied c).trans (happlied' c)⟩

end

end Billing
end Mobility
