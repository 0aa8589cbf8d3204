import Mobility.Billing.Budget
import Mobility.Lib.Table

/-!
# Pauses — who owns a pause, and what a budget resumption restores

The staff's way back compares both logs; the budget's way back reads its own log only.  So
the two agree exactly while no staff pause was recorded after an open budget pause.
-/

namespace Mobility
namespace Billing

open Lib

variable {casefold : String → String} {d d' : BudgetDesk} {campaign : Campaign}

/-! ## The latest row of a log -/

theorem latestBy_eq_some {α : Type} {key : α → Int ×ₗ Id} {rows : List α} {row : α}
    (h : latestBy key rows = some row) : row ∈ rows ∧ ∀ other ∈ rows, key other ≤ key row := by
  have htotal : Std.Total (fun a b : α => key b ≤ key a) :=
    ⟨fun a b => le_total (key b) (key a)⟩
  have htrans : IsTrans α (fun a b => key b ≤ key a) := ⟨fun _ _ _ hab hbc => hbc.trans hab⟩
  exact head?_insertionSort h

theorem latestBy_eq_none {α : Type} {key : α → Int ×ₗ Id} {rows : List α}
    (h : latestBy key rows = none) : rows = [] := by
  have hempty := List.head?_eq_none_iff.mp h
  have hperm := List.perm_insertionSort (fun a b => key b ≤ key a) rows
  rw [hempty] at hperm
  exact hperm.symm.eq_nil

theorem le_of_key_le {a b : Int × Id} (h : toLex a ≤ toLex b) : a.1 ≤ b.1 := by
  rcases Prod.Lex.toLex_le_toLex.mp h with hlt | ⟨heq, _⟩
  · exact hlt.le
  · exact heq.le

theorem latestTransition_le {latest : BudgetCampaignTransition}
    (h : d.latestTransition = some latest) :
    latest ∈ d.transitions ∧ ∀ row ∈ d.transitions, row.createdAt ≤ latest.createdAt := by
  rcases latestBy_eq_some h with ⟨hmem, hle⟩
  exact ⟨hmem, fun row hrow => le_of_key_le (hle row hrow)⟩

/-! ## Pause ownership -/

/-- A recorded pause by an administrator. -/
def StaffEvent.IsStaffPause (event : StaffEvent) : Prop :=
  event.actorIsAdmin = true ∧ event.action = .paused

theorem ownedBudgetPause_eq_ok {pause : BudgetCampaignTransition} :
    ownedBudgetPause d = .ok pause ↔ d.latestTransition = some pause ∧ pause.action = .pause := by
  constructor
  · intro h
    rcases bind_eq_ok.mp h with ⟨latest, hlatest, h⟩
    rcases bind_eq_ok.mp h with ⟨_, haction, h⟩
    rcases pure_eq_ok.mp h with rfl
    exact ⟨demand_eq_ok.mp hlatest, require_eq_ok.mp haction⟩
  · rintro ⟨hlatest, haction⟩
    exact bind_eq_ok.mpr ⟨pause, demand_eq_ok.mpr hlatest,
      bind_eq_ok.mpr ⟨⟨⟩, require_of haction, rfl⟩⟩

/-- A staff event that is read as an operational pause is one. -/
theorem staffPauseInfo_operational {updatedAt : Int} {event : StaffEvent}
    (h : (staffPauseInfo casefold updatedAt event).kind = .operational) :
    event.action = .paused
      ∧ (staffPauseInfo casefold updatedAt event).pauseId = some event.id := by
  unfold staffPauseInfo at h ⊢
  by_cases haction : event.action ≠ .paused
  · rw [if_pos haction] at h
    cases h
  by_cases hversion : event.pauseVersion ≠ some updatedAt ∨ event.statusAfter ≠ some .paused
  · rw [if_neg haction, if_pos hversion] at h
    cases h
  by_cases hbudget : event.pauseReasonKind = some "budget"
  · rw [if_neg haction, if_neg hversion, if_pos hbudget] at h
    cases h
  rw [if_neg haction, if_neg hversion, if_neg hbudget] at h ⊢
  refine ⟨not_not.mp haction, ?_⟩
  cases hreason : event.nonblankReason with
  | none => simp [hreason] at h
  | some reason =>
      simp only [hreason] at h ⊢
      by_cases hkind : event.pauseReasonKind ≠ some "operational"
      · rw [if_pos hkind] at h
        cases h
      by_cases hmentions : mentionsBudget casefold reason = true
      · rw [if_neg hkind, if_pos hmentions] at h
        cases h
      rw [if_neg hkind, if_neg hmentions]

/-- The staff's way back is open only to the latest staff event, a pause that is later than
the whole budget log. -/
theorem requireOperationalPause_eq_ok {pauseId : Id}
    (h : requireOperationalPause casefold d campaign pauseId = .ok ⟨⟩) :
    ∃ event ∈ d.staffEvents, event.id = pauseId ∧ event.IsStaffPause
      ∧ (∀ other ∈ d.staffEvents, other.IsStaffPause → other.createdAt ≤ event.createdAt)
      ∧ ∀ row ∈ d.transitions, row.createdAt < event.createdAt := by
  rcases bind_eq_ok.mp h with ⟨_, _, h⟩
  rcases bind_eq_ok.mp h with ⟨_, hkind, hid⟩
  have hkind := require_eq_ok.mp hkind
  have hid := require_eq_ok.mp hid
  unfold pauseInfo at hkind hid
  by_cases hstatus : campaign.status ≠ .paused
  · rw [if_pos hstatus] at hkind
    cases hkind
  rw [if_neg hstatus] at hkind hid
  cases howner : d.latestTransition.filter (budgetIsLatest · d.latestStaffEvent) with
  | some budget =>
      simp only [howner] at hkind
      split_ifs at hkind
  | none =>
      rw [howner] at hkind hid
      cases hevent : d.latestStaffEvent with
      | none => simp [hevent] at hkind
      | some event =>
          simp only [hevent] at hkind hid
          rcases staffPauseInfo_operational hkind with ⟨haction, hpauseId⟩
          rcases latestBy_eq_some hevent with ⟨hmem, hle⟩
          rcases List.mem_filter.mp hmem with ⟨hmem, hadmin⟩
          refine ⟨event, hmem, Option.some.inj (hpauseId.symm.trans hid), ⟨hadmin, haction⟩, ?_, ?_⟩
          · intro other hother hpause
            exact le_of_key_le (hle other (List.mem_filter.mpr ⟨hother, hpause.1⟩))
          · intro row hrow
            cases hlatest : d.latestTransition with
            | none =>
                rw [latestBy_eq_none hlatest] at hrow
                exact absurd hrow List.not_mem_nil
            | some latest =>
                -- the budget does not own the pause, so the event is later than the whole log
                have hlater : latest.createdAt < event.createdAt := by
                  simpa [hlatest, hevent, budgetIsLatest, Option.filter] using howner
                exact ((latestTransition_le hlatest).2 row hrow).trans_lt hlater

/-- At most one way back is open, the one that owns the latest recorded pause; at equal
times that is the budget's. -/
structure OneWayBack (casefold : String → String) (d : BudgetDesk) (campaign : Campaign) :
    Prop where
  exclusive : ∀ pause, ownedBudgetPause d = .ok pause →
    ∀ pauseId, requireOperationalPause casefold d campaign pauseId ≠ .ok ⟨⟩
  budget : ∀ pause, ownedBudgetPause d = .ok pause →
    (∀ row ∈ d.transitions, row.action = .pause → row.createdAt ≤ pause.createdAt)
      ∧ ∀ event ∈ d.staffEvents, event.IsStaffPause → event.createdAt ≤ pause.createdAt
  staff : ∀ pauseId, requireOperationalPause casefold d campaign pauseId = .ok ⟨⟩ →
    ∃ event ∈ d.staffEvents, event.id = pauseId ∧ event.IsStaffPause
      ∧ (∀ other ∈ d.staffEvents, other.IsStaffPause → other.createdAt ≤ event.createdAt)
      ∧ ∀ row ∈ d.transitions, row.action = .pause → row.createdAt < event.createdAt

/-- A staff pause was recorded after a budget pause that ends the budget log. -/
def StaffPausedSince (d : BudgetDesk) : Prop :=
  ∃ pause, d.latestTransition = some pause ∧ pause.action = .pause
    ∧ ∃ event ∈ d.staffEvents, event.IsStaffPause ∧ pause.createdAt < event.createdAt

theorem oneWayBack_iff : OneWayBack casefold d campaign ↔ ¬ StaffPausedSince d := by
  constructor
  · rintro h ⟨pause, hlatest, haction, event, hevent, hpause, hlater⟩
    have howned := ownedBudgetPause_eq_ok.mpr ⟨hlatest, haction⟩
    exact absurd hlater (not_lt.mpr ((h.budget pause howned).2 event hevent hpause))
  · intro h
    have hbudget : ∀ pause, ownedBudgetPause d = .ok pause →
        ∀ event ∈ d.staffEvents, event.IsStaffPause → event.createdAt ≤ pause.createdAt := by
      intro pause howned event hevent hpause
      rcases ownedBudgetPause_eq_ok.mp howned with ⟨hlatest, haction⟩
      by_contra hlater
      exact h ⟨pause, hlatest, haction, event, hevent, hpause, not_le.mp hlater⟩
    refine ⟨?_, ?_, ?_⟩
    · intro pause howned pauseId hstaff
      rcases requireOperationalPause_eq_ok hstaff with ⟨event, hevent, _, hpause, _, hlater⟩
      rcases ownedBudgetPause_eq_ok.mp howned with ⟨hlatest, _⟩
      exact absurd (hlater pause (latestTransition_le hlatest).1)
        (not_lt.mpr (hbudget pause howned event hevent hpause))
    · intro pause howned
      rcases ownedBudgetPause_eq_ok.mp howned with ⟨hlatest, _⟩
      exact ⟨fun row hrow _ => (latestTransition_le hlatest).2 row hrow, hbudget pause howned⟩
    · intro pauseId hstaff
      rcases requireOperationalPause_eq_ok hstaff with ⟨event, hevent, hid, hpause, hle, hlater⟩
      exact ⟨event, hevent, hid, hpause, hle, fun row hrow _ => hlater row hrow⟩

end Billing
end Mobility
