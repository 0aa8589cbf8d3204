import Mobility.Lib.Increments
import Mobility.Pay.Overlaps

/-!
# Recorded — the positions that approvals recorded

A recorded position names a stored calculation and carries the time of an executed order.
So a new calculation has no recorded position yet, and an approval whose clock runs ahead
of every executed order sets the latest position of each trip it measured.
-/

namespace Mobility
namespace Pay

open Lib
open Trips
open Payout (Digest)

/-- The clock of an approval runs ahead of every executed order. -/
def ClockAdvances (s : Store) : TripAction → Prop
  | .approveOrder _ _ _ _ _ _ executedAt =>
      ∀ order ∈ s.orders, ∀ earlier, order.executedAt = some earlier → earlier < executedAt
  | _ => True

/-- Recorded positions name stored calculations and executed orders. -/
structure RecordedInv (s : Store) : Prop where
  entries : ∀ entry ∈ s.entries, ∀ breakdown, entry.recomputeDay = some breakdown →
    (∃ c ∈ s.calculations, c.id = breakdown.payoutCalculationId)
      ∧ ∃ order ∈ s.orders, order.status = .executed ∧ order.executedAt = some entry.occurredAt
  results : ∀ order ∈ s.orders, ∀ line ∈ order.executionResult,
    ∃ c ∈ s.calculations, c.id = line.payoutCalculationId
  orderIds : (s.orders.map (·.id)).Nodup

section

variable {s s' : Store} {c : PayoutCalculation}

/-! ## Candidates -/

theorem mem_entryPositions {candidate : Int × DailyRatePosition} :
    candidate ∈ entryPositions s c ↔ ∃ entry ∈ s.entries, ∃ breakdown,
      entry.recomputeDay = some breakdown ∧ breakdown.payoutCalculationId = c.id
        ∧ entry.tripSessionId = c.tripSessionId ∧ entry.status ≠ .voided
        ∧ (entry.entryType = .adjustment ∨ entry.entryType = .reversal)
        ∧ candidate = (entry.occurredAt, breakdown.position) := by
  unfold entryPositions
  rw [List.mem_filterMap]
  constructor
  · rintro ⟨entry, hentry, hfound⟩
    split_ifs at hfound with hcond
    rcases Option.map_eq_some_iff.mp hfound with ⟨breakdown, hbreakdown, rfl⟩
    rcases Option.filter_eq_some_iff.mp hbreakdown with ⟨hsome, hid⟩
    exact ⟨entry, hentry, breakdown, hsome, of_decide_eq_true hid, hcond.1, hcond.2.1, hcond.2.2,
      rfl⟩
  · rintro ⟨entry, hentry, breakdown, hsome, hid, htrip, hlive, htype, rfl⟩
    refine ⟨entry, hentry, ?_⟩
    rw [if_pos ⟨htrip, hlive, htype⟩, hsome]
    simp [Option.filter, hid]

theorem mem_orderPositions {candidate : Int × DailyRatePosition} :
    candidate ∈ orderPositions s c ↔ ∃ order ∈ s.orders, order.campaignId = c.campaignId
      ∧ order.status = .executed ∧ order.executedAt = some candidate.1
      ∧ ∃ line, (resultLines c order).getLast? = some line ∧ candidate.2 = line.position := by
  unfold orderPositions
  rw [List.mem_filterMap]
  constructor
  · rintro ⟨order, horder, hfound⟩
    split_ifs at hfound with hcond
    rcases Option.bind_eq_some_iff.mp hfound with ⟨executedAt, hexecuted, hline⟩
    rcases Option.map_eq_some_iff.mp hline with ⟨line, hlast, rfl⟩
    exact ⟨order, horder, hcond.1, hcond.2, hexecuted, line, hlast, rfl⟩
  · rintro ⟨order, horder, hcampaign, hstatus, hexecuted, line, hlast, hposition⟩
    refine ⟨order, horder, ?_⟩
    rw [if_pos ⟨hcampaign, hstatus⟩, hexecuted, Option.bind_some, hlast, Option.map_some,
      ← hposition]

/-- The dates of recorded positions are those of executed orders. -/
theorem RecordedInv.dated (h : RecordedInv s) {candidate : Int × DailyRatePosition}
    (hcandidate : candidate ∈ entryPositions s c ++ orderPositions s c) :
    ∃ order ∈ s.orders, order.status = .executed ∧ order.executedAt = some candidate.1 := by
  rcases List.mem_append.mp hcandidate with hmem | hmem
  · rcases mem_entryPositions.mp hmem with ⟨entry, hentry, breakdown, hsome, _, _, _, _, rfl⟩
    exact (h.entries entry hentry breakdown hsome).2
  · rcases mem_orderPositions.mp hmem with ⟨order, horder, _, hstatus, hexecuted, _⟩
    exact ⟨order, horder, hstatus, hexecuted⟩

/-- Nothing was recorded of a calculation that is not stored yet. -/
theorem RecordedInv.latest_of_fresh (h : RecordedInv s)
    (hfresh : ∀ row ∈ s.calculations, row.id ≠ c.id) :
    latestDailyRatePosition s c = c.position := by
  have hentries : entryPositions s c = [] := by
    refine List.eq_nil_iff_forall_not_mem.mpr ?_
    intro candidate hcandidate
    rcases mem_entryPositions.mp hcandidate with ⟨entry, hentry, breakdown, hsome, hid, _⟩
    rcases (h.entries entry hentry breakdown hsome).1 with ⟨row, hrow, hrowId⟩
    exact hfresh row hrow (hrowId.trans hid)
  have horders : orderPositions s c = [] := by
    refine List.eq_nil_iff_forall_not_mem.mpr ?_
    intro candidate hcandidate
    rcases mem_orderPositions.mp hcandidate with ⟨order, horder, _, _, _, line, hlast, _⟩
    rcases List.mem_filter.mp (List.mem_of_getLast? hlast) with ⟨hline, hof⟩
    simp only [decide_eq_true_eq] at hof
    rcases h.results order horder line hline with ⟨row, hrow, hrowId⟩
    exact hfresh row hrow (hrowId.trans hof.2)
  rw [latestDailyRatePosition, hentries, horders, List.nil_append, newest_nil]

/-! ## Rows that record nothing -/

/-- The recorded positions are read off the entries and the orders alone. -/
theorem latest_congr (hentries : s'.entries = s.entries) (horders : s'.orders = s.orders) :
    latestDailyRatePosition s' c = latestDailyRatePosition s c := by
  unfold latestDailyRatePosition entryPositions orderPositions
  rw [hentries, horders]

theorem latest_append_plain {entry : EarningsLedgerEntry} (hplain : entry.recomputeDay = none) :
    latestDailyRatePosition { s with entries := s.entries ++ [entry] } c
      = latestDailyRatePosition s c := by
  have hsame : entryPositions { s with entries := s.entries ++ [entry] } c
      = entryPositions s c := by
    simp [entryPositions, hplain]
  unfold latestDailyRatePosition
  rw [hsame]
  rfl

theorem latest_append_order {order : PayoutCorrectionOrder} (hdraft : order.status = .draft) :
    latestDailyRatePosition { s with orders := s.orders ++ [order] } c
      = latestDailyRatePosition s c := by
  have hsame : orderPositions { s with orders := s.orders ++ [order] } c = orderPositions s c := by
    simp [orderPositions, hdraft]
  unfold latestDailyRatePosition
  rw [hsame]
  rfl

/-- Releases and payments of a row that is not voided record nothing. -/
theorem latest_mark (hvoids : NoneVoided s) {entryId : Id}
    {status : Payout.EarningsLedgerEntryStatus} (hstatus : status = .available ∨ status = .paid) :
    latestDailyRatePosition { s with
        entries := s.entries.map (fun entry =>
          if entry.id = entryId then { entry with status := status } else entry) } c
      = latestDailyRatePosition s c := by
  have hlive : status ≠ .voided := by
    rcases hstatus with rfl | rfl <;> simp
  have hsame : entryPositions { s with
      entries := s.entries.map (fun entry =>
        if entry.id = entryId then { entry with status := status } else entry) } c
      = entryPositions s c := by
    unfold entryPositions
    rw [List.filterMap_map]
    refine List.filterMap_congr ?_
    intro entry hentry
    by_cases hid : entry.id = entryId
    · simp [hid, hlive, hvoids entry hentry]
    · simp [hid]
  unfold latestDailyRatePosition
  rw [hsame]
  rfl

/-- An order that is not executed before and after records nothing. -/
theorem latest_updateOrder {orderId : Id} {f : PayoutCorrectionOrder → PayoutCorrectionOrder}
    (h : ∀ order ∈ s.orders, order.id = orderId →
      order.status ≠ .executed ∧ (f order).status ≠ .executed) :
    latestDailyRatePosition (updateOrder s orderId f) c = latestDailyRatePosition s c := by
  have hsame : orderPositions (updateOrder s orderId f) c = orderPositions s c := by
    unfold orderPositions updateOrder
    rw [List.filterMap_map]
    refine List.filterMap_congr ?_
    intro order horder
    by_cases hid : order.id = orderId
    · simp [hid, h order horder hid]
    · simp [hid]
  unfold latestDailyRatePosition
  rw [hsame]
  rfl

end

end Pay
end Mobility
