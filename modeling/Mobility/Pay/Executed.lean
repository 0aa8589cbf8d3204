import Mobility.Pay.DayTargets

/-!
# Executed — the positions that an executed order leaves behind

A projection has one target for each priced trip of the day.  Executed with a clock that
runs ahead of earlier orders, the order is the latest position of every trip it measured,
and the other trips keep theirs.
-/

namespace Mobility
namespace Pay

open Lib
open Trips
open Payout (Digest)

section

variable {s s' : Store} {campaignId driverProfileId : Id} {day : Day} {c : PayoutCalculation}
  {target : DayTripTarget} {computations : List DayComputation} {measure : Id → Measurement}

/-! ## Targets of a projection -/

theorem Repriced.ids (hcalcs : CalculationsInv s) (hkeys : (s.trips.map (·.id)).Nodup)
    (h : Repriced s campaignId driverProfileId day c target) :
    c ∈ s.calculations ∧ target.tripSessionId = c.tripSessionId ∧ target.payoutCalculationId = c.id
      ∧ c.campaignId = campaignId ∧ c.driverProfileId = driverProfileId := by
  rcases h with ⟨trip, htrip, before, measurement, hfor, htarget⟩
  rcases dailyRateDayTarget_position htarget with ⟨htripId, hcalcId, _⟩
  rcases calculation_of_dayTrip hcalcs hkeys htrip hfor with ⟨hc, hid, hpays⟩
  have hcolumns : c.driverProfileId = driverProfileId ∧ c.campaignId = campaignId := by
    simpa [paysFor] using hpays
  exact ⟨hc, htripId.trans hid.symm, hcalcId, hcolumns.2, hcolumns.1⟩

/-- The targets of a driver are of different trips. -/
theorem targets_keys (hcalcs : CalculationsInv s) (hkeys : (s.trips.map (·.id)).Nodup)
    {targets : List DayTripTarget}
    (h : computePayoutDayTargets s campaignId day measure driverProfileId = .ok targets) :
    (targets.map (·.tripSessionId)).Nodup := by
  have hmap : ∀ {calculations : List PayoutCalculation} {targets : List DayTripTarget},
      List.Forall₂ (Repriced s campaignId driverProfileId day) calculations targets →
      targets.map (·.tripSessionId) = calculations.map (·.tripSessionId) := by
    intro calculations targets hall
    induction hall with
    | nil => rfl
    | cons hrow _ ih => rw [List.map_cons, List.map_cons, ih, (hrow.ids hcalcs hkeys).2.1]
  rw [hmap (computePayoutDayTargets_spec hcalcs hkeys h).1]
  exact dayCalculations_keys hcalcs.once hkeys

theorem mem_computations (h : projectCampaignDay s campaignId day measure = .ok computations)
    {computation : DayComputation} (hcomputation : computation ∈ computations) :
    computePayoutDayTargets s campaignId day measure computation.driverProfileId
      = .ok computation.trips := by
  unfold projectCampaignDay at h
  rcases exists_of_mem_forall₂ (checkedMap_forall₂ h) hcomputation with ⟨driver, _, hdriver⟩
  simp only [bind_eq_ok, pure_eq_ok] at hdriver
  rcases hdriver with ⟨targets, htargets, rfl⟩
  exact htargets

/-- A driver whose trips overlap the day is computed. -/
theorem exists_computation (h : projectCampaignDay s campaignId day measure = .ok computations)
    {trip : TripSession} (htrip : trip ∈ dayTrips s campaignId driverProfileId day) :
    ∃ computation ∈ computations, computation.driverProfileId = driverProfileId := by
  rcases mem_dayTrips htrip with ⟨hmem, hcampaign, hdriver, hstatus, hoverlaps⟩
  have haffected : driverProfileId ∈ affectedDriverIds s campaignId day := by
    unfold affectedDriverIds
    rw [List.mem_insertionSort, List.mem_dedup, List.mem_map]
    exact ⟨trip, List.mem_filter.mpr ⟨hmem, by simp [hcampaign, hstatus, hoverlaps]⟩, hdriver⟩
  unfold projectCampaignDay at h
  rcases exists_of_mem_forall₂_left (checkedMap_forall₂ h) haffected with
    ⟨computation, hcomputation, hcomputed⟩
  simp only [bind_eq_ok, pure_eq_ok] at hcomputed
  rcases hcomputed with ⟨targets, _, rfl⟩
  exact ⟨_, hcomputation, rfl⟩

/-- A projection has one target for a trip: trips have one driver, and a driver's targets
are of different trips. -/
theorem target_unique (hcalcs : CalculationsInv s) (hkeys : (s.trips.map (·.id)).Nodup)
    (h : projectCampaignDay s campaignId day measure = .ok computations)
    {computation computation' : DayComputation} (hcomputation : computation ∈ computations)
    (hcomputation' : computation' ∈ computations) {target target' : DayTripTarget}
    (htarget : target ∈ computation.trips) (htarget' : target' ∈ computation'.trips)
    (hsame : target.tripSessionId = target'.tripSessionId) : target = target' := by
  rcases mem_projectCampaignDay h hcomputation htarget with ⟨trip, htrip, c, _, _, hday⟩
  rcases mem_projectCampaignDay h hcomputation' htarget' with ⟨trip', htrip', c', _, _, hday'⟩
  have hid := (dailyRateDayTarget_position hday).1
  have hid' := (dailyRateDayTarget_position hday').1
  rcases mem_dayTrips htrip with ⟨hmem, _, hdriver, _, _⟩
  rcases mem_dayTrips htrip' with ⟨hmem', _, hdriver', _, _⟩
  have htrips : trip = trip' :=
    eq_of_key_eq hkeys hmem hmem' (hid.symm.trans (hsame.trans hid'))
  have hdrivers : computation.driverProfileId = computation'.driverProfileId :=
    hdriver.symm.trans ((congrArg (·.driverProfileId) htrips).trans hdriver')
  have hcomputed := mem_computations h hcomputation
  have hcomputed' := mem_computations h hcomputation'
  rw [hdrivers, hcomputed'] at hcomputed
  have hlists : computation'.trips = computation.trips := Except.ok.inj hcomputed
  exact eq_of_key_eq (targets_keys hcalcs hkeys (mem_computations h hcomputation)) htarget
    (hlists ▸ htarget') hsame

/-! ## An executed order -/

/-- Posting a projection appends entries that record its targets at its time. -/
theorem posted_entries {executedAt : Int} {releaseAt : Option Int} {entryId : Id → Id}
    {posted : Store}
    (h : checkedFold (writeDayDifferentials campaignId executedAt releaseAt entryId) s computations
      = .ok posted) :
    ∃ added, posted = { s with entries := s.entries ++ added }
      ∧ ∀ entry ∈ added, entry.occurredAt = executedAt
        ∧ ∃ computation ∈ computations, ∃ target ∈ computation.trips,
            entry.tripSessionId = target.tripSessionId
              ∧ entry.recomputeDay = some
                { payoutCalculationId := target.payoutCalculationId
                  position := target.position } := by
  refine writeDayDifferentials_invariant
    (fun s₁ => ∃ added, s₁ = { s with entries := s.entries ++ added }
      ∧ ∀ entry ∈ added, entry.occurredAt = executedAt
        ∧ ∃ computation ∈ computations, ∃ target ∈ computation.trips,
            entry.tripSessionId = target.tripSessionId
              ∧ entry.recomputeDay = some
                { payoutCalculationId := target.payoutCalculationId
                  position := target.position })
    ?_ ⟨[], by simp, fun _ h => absurd h List.not_mem_nil⟩ h
  rintro s₁ computation target s₂ hcomputation htarget ⟨added, rfl, hadded⟩ hpost
  rcases writeDayDifferential_eq hpost with ⟨_, rfl⟩ | ⟨_, rfl⟩
  · exact ⟨added, rfl, hadded⟩
  · refine ⟨added ++ [_], by rw [List.append_assoc], ?_⟩
    intro entry hentry
    rcases List.mem_append.mp hentry with hentry | hentry
    · exact hadded entry hentry
    · rw [List.mem_singleton.mp hentry]
      exact ⟨rfl, computation, hcomputation, target, htarget, rfl, rfl⟩

/-- The order as its execution leaves it. -/
def executed (executedAt : Int) (computations : List DayComputation)
    (order : PayoutCorrectionOrder) : PayoutCorrectionOrder :=
  { order with
    status := .executed
    executedAt := some executedAt
    executionResult := executionResultOf computations }

theorem mem_executionResultOf {line : ExecutionResultTrip} :
    line ∈ executionResultOf computations ↔ ∃ computation ∈ computations,
      ∃ target ∈ computation.trips,
        line = { tripSessionId := target.tripSessionId
                 payoutCalculationId := target.payoutCalculationId
                 position := target.position } := by
  simp [executionResultOf, eq_comm]

/-- What an executed order adds to the candidates of a calculation. -/
theorem candidate_of_executed {orderId : Id} {executedAt : Int} {releaseAt : Option Int} {entryId : Id → Id} {posted : Store}
    (hposted : checkedFold (writeDayDifferentials campaignId executedAt releaseAt entryId) s
      computations = .ok posted)
    {candidate : Int × DailyRatePosition}
    (h : candidate ∈ entryPositions (updateOrder posted orderId (executed executedAt computations)) c
      ++ orderPositions (updateOrder posted orderId (executed executedAt computations)) c) :
    candidate ∈ entryPositions s c ++ orderPositions s c
      ∨ candidate.1 = executedAt ∧ ∃ computation ∈ computations, ∃ target ∈ computation.trips,
          target.tripSessionId = c.tripSessionId ∧ candidate.2 = target.position := by
  rcases posted_entries hposted with ⟨added, rfl, hadded⟩
  rcases List.mem_append.mp h with hmem | hmem
  · rcases mem_entryPositions.mp hmem with
      ⟨entry, hentry, breakdown, hsome, hcalc, htrip, hlive, htype, rfl⟩
    rcases List.mem_append.mp hentry with hentry | hentry
    · exact .inl (List.mem_append_left _ (mem_entryPositions.mpr
        ⟨entry, hentry, breakdown, hsome, hcalc, htrip, hlive, htype, rfl⟩))
    · rcases hadded entry hentry with ⟨hat, computation, hcomputation, target, htarget, hof, hrec⟩
      rw [hrec] at hsome
      refine .inr ⟨hat, computation, hcomputation, target, htarget, hof.symm.trans htrip, ?_⟩
      rw [← Option.some.inj hsome]
  · rcases mem_orderPositions.mp hmem with
      ⟨row, hrow, hcampaign, hstatus, hat, line, hlast, hposition⟩
    rcases List.mem_map.mp hrow with ⟨old, hold, rfl⟩
    by_cases hsame : old.id = orderId
    · rw [if_pos hsame] at hat hlast
      rcases List.mem_filter.mp (List.mem_of_getLast? hlast) with ⟨hline, hof⟩
      rcases mem_executionResultOf.mp hline with ⟨computation, hcomputation, target, htarget, rfl⟩
      simp only [decide_eq_true_eq] at hof
      exact .inr ⟨(Option.some.inj hat).symm, computation, hcomputation, target, htarget, hof.1,
        hposition⟩
    · rw [if_neg hsame] at hcampaign hstatus hat hlast
      exact .inl (List.mem_append_right _ (mem_orderPositions.mpr
        ⟨old, hold, hcampaign, hstatus, hat, line, hlast, hposition⟩))

/-- An executed order with an advancing clock is the latest position of every trip it
measured, and leaves the latest positions of the other trips alone. -/
theorem latest_of_executed (hcalcs : CalculationsInv s) (hkeys : (s.trips.map (·.id)).Nodup)
    (hrecorded : RecordedInv s) {order : PayoutCorrectionOrder} (horder : order ∈ s.orders)
    (hdraft : order.status = .draft)
    (hproject : projectCampaignDay s order.campaignId order.lagosDay measure = .ok computations)
    {executedAt : Int} {releaseAt : Option Int} {entryId : Id → Id} {posted : Store}
    (hposted : checkedFold (writeDayDifferentials order.campaignId executedAt releaseAt entryId) s
      computations = .ok posted)
    (hclock : ∀ order ∈ s.orders, ∀ earlier, order.executedAt = some earlier →
      earlier < executedAt)
    (c : PayoutCalculation) :
    (∀ computation ∈ computations, ∀ target ∈ computation.trips,
        Repriced s order.campaignId computation.driverProfileId order.lagosDay c target →
        latestDailyRatePosition
            (updateOrder posted order.id (executed executedAt computations)) c = target.position)
      ∧ ((∀ computation ∈ computations, ∀ target ∈ computation.trips,
            target.tripSessionId ≠ c.tripSessionId) →
          latestDailyRatePosition
              (updateOrder posted order.id (executed executedAt computations)) c
            = latestDailyRatePosition s c) := by
  constructor
  · intro computation hcomputation target htarget hrepriced
    rcases hrepriced.ids hcalcs hkeys with ⟨_, htrip, hcalc, hcampaign, _⟩
    have hunique : ∀ computation' ∈ computations, ∀ target' ∈ computation'.trips,
        target'.tripSessionId = c.tripSessionId → target'.position = target.position := by
      intro computation' hcomputation' target' htarget' htrip'
      rw [target_unique hcalcs hkeys hproject hcomputation' hcomputation htarget' htarget
        (htrip'.trans htrip.symm)]
    refine newest_eq (t := executedAt) _ ?_ ?_ ?_
    · -- the order itself records the target
      refine List.mem_append_right _ (mem_orderPositions.mpr
        ⟨executed executedAt computations order, ?_, hcampaign.symm, rfl, rfl, ?_⟩)
      · rcases posted_entries hposted with ⟨added, rfl, _⟩
        exact List.mem_map.mpr ⟨order, horder, by simp⟩
      · have hline : { tripSessionId := target.tripSessionId
                       payoutCalculationId := target.payoutCalculationId
                       position := target.position }
            ∈ resultLines c (executed executedAt computations order) := by
          refine List.mem_filter.mpr ⟨?_, by simp [htrip, hcalc]⟩
          exact mem_executionResultOf.mpr ⟨computation, hcomputation, target, htarget, rfl⟩
        cases hlast : (resultLines c (executed executedAt computations order)).getLast? with
        | none =>
            rw [List.getLast?_eq_none_iff.mp hlast] at hline
            exact absurd hline List.not_mem_nil
        | some line =>
            refine ⟨line, rfl, ?_⟩
            rcases List.mem_filter.mp (List.mem_of_getLast? hlast) with ⟨hmem, hof⟩
            rcases mem_executionResultOf.mp hmem with
              ⟨computation', hcomputation', target', htarget', rfl⟩
            simp only [decide_eq_true_eq] at hof
            exact (hunique computation' hcomputation' target' htarget' hof.1).symm
    · intro candidate hcandidate
      rcases candidate_of_executed hposted hcandidate with hold | ⟨hat, _⟩
      · rcases hrecorded.dated hold with ⟨earlier, hearlier, _, hexecuted⟩
        exact (hclock earlier hearlier _ hexecuted).le
      · exact hat.le
    · intro candidate hcandidate hat
      rcases candidate_of_executed hposted hcandidate with
        hold | ⟨_, computation', hcomputation', target', htarget', htrip', hposition⟩
      · rcases hrecorded.dated hold with ⟨earlier, hearlier, _, hexecuted⟩
        exact absurd hat (hclock earlier hearlier _ hexecuted).ne
      · rw [hposition]
        exact hunique computation' hcomputation' target' htarget' htrip'
  · intro hnone
    rcases posted_entries hposted with ⟨added, rfl, hadded⟩
    have hentries : entryPositions (updateOrder { s with entries := s.entries ++ added } order.id
        (executed executedAt computations)) c = entryPositions s c := by
      have hnew : added.filterMap (fun entry =>
          if entry.tripSessionId = c.tripSessionId ∧ entry.status ≠ .voided
              ∧ (entry.entryType = .adjustment ∨ entry.entryType = .reversal) then
            (entry.recomputeDay.filter (·.payoutCalculationId = c.id)).map
              (fun breakdown => (entry.occurredAt, breakdown.position))
          else none) = [] := by
        refine List.filterMap_eq_nil_iff.mpr ?_
        intro entry hentry
        rcases hadded entry hentry with ⟨_, computation, hcomputation, target, htarget, hof, _⟩
        refine if_neg ?_
        rintro ⟨htrip, _⟩
        exact hnone computation hcomputation target htarget (hof.symm.trans htrip)
      calc
        entryPositions (updateOrder { s with entries := s.entries ++ added } order.id
            (executed executedAt computations)) c
          = entryPositions s c ++ added.filterMap (fun entry =>
              if entry.tripSessionId = c.tripSessionId ∧ entry.status ≠ .voided
                  ∧ (entry.entryType = .adjustment ∨ entry.entryType = .reversal) then
                (entry.recomputeDay.filter (·.payoutCalculationId = c.id)).map
                  (fun breakdown => (entry.occurredAt, breakdown.position))
              else none) := List.filterMap_append
        _ = entryPositions s c := by
          rw [hnew, List.append_nil]
    have horders : orderPositions (updateOrder { s with entries := s.entries ++ added } order.id
        (executed executedAt computations)) c = orderPositions s c := by
      unfold orderPositions updateOrder
      rw [List.filterMap_map]
      refine List.filterMap_congr ?_
      intro row hrow
      by_cases hid : row.id = order.id
      · -- a draft recorded nothing, and the result has no line about this trip
        have hrowDraft : row.status = .draft := by
          rw [eq_of_key_eq hrecorded.orderIds hrow horder hid]
          exact hdraft
        have hlines : resultLines c (executed executedAt computations row) = [] := by
          refine List.filter_eq_nil_iff.mpr ?_
          intro line hline
          rcases mem_executionResultOf.mp hline with
            ⟨computation, hcomputation, target, htarget, rfl⟩
          simp [hnone computation hcomputation target htarget]
        simp [hid, hrowDraft, hlines]
      · simp [hid]
    unfold latestDailyRatePosition
    rw [hentries, horders]

/-- After an execution the latest position of a stored calculation is its target, if the
projection had one, and otherwise what it was. -/
theorem latest_after_execution (hcalcs : CalculationsInv s) (hkeys : (s.trips.map (·.id)).Nodup)
    (hrecorded : RecordedInv s) {order : PayoutCorrectionOrder} (horder : order ∈ s.orders)
    (hdraft : order.status = .draft)
    (hproject : projectCampaignDay s order.campaignId order.lagosDay measure = .ok computations)
    {executedAt : Int} {releaseAt : Option Int} {entryId : Id → Id} {posted : Store}
    (hposted : checkedFold (writeDayDifferentials order.campaignId executedAt releaseAt entryId) s
      computations = .ok posted)
    (hclock : ∀ order ∈ s.orders, ∀ earlier, order.executedAt = some earlier →
      earlier < executedAt)
    (hc : c ∈ s.calculations) :
    (∃ computation ∈ computations, ∃ target ∈ computation.trips,
        Repriced s order.campaignId computation.driverProfileId order.lagosDay c target
          ∧ latestDailyRatePosition
              (updateOrder posted order.id (executed executedAt computations)) c = target.position)
      ∨ ((∀ computation ∈ computations, ∀ target ∈ computation.trips,
            target.tripSessionId ≠ c.tripSessionId)
          ∧ latestDailyRatePosition
              (updateOrder posted order.id (executed executedAt computations)) c
            = latestDailyRatePosition s c) := by
  rcases latest_of_executed hcalcs hkeys hrecorded horder hdraft hproject hposted hclock c with
    ⟨htarget, hnone⟩
  by_cases hmeasured : ∃ computation ∈ computations, ∃ target ∈ computation.trips,
      target.tripSessionId = c.tripSessionId
  · rcases hmeasured with ⟨computation, hcomputation, target, hmem, htrip⟩
    rcases mem_projectCampaignDay hproject hcomputation hmem with
      ⟨trip, hday, c', before, hfor, hpriced⟩
    have hrepriced : Repriced s order.campaignId computation.driverProfileId order.lagosDay c'
        target := ⟨trip, hday, before, _, hfor, hpriced⟩
    rcases hrepriced.ids hcalcs hkeys with ⟨hc', htrip', _⟩
    have hsame : c' = c := eq_of_key_eq hcalcs.once hc' hc (htrip'.symm.trans htrip)
    subst hsame
    exact .inl ⟨computation, hcomputation, target, hmem, hrepriced,
      htarget computation hcomputation target hmem hrepriced⟩
  · have hothers : ∀ computation ∈ computations, ∀ target ∈ computation.trips,
        target.tripSessionId ≠ c.tripSessionId :=
      fun computation hcomputation target hmem heq =>
        hmeasured ⟨computation, hcomputation, target, hmem, heq⟩
    exact .inr ⟨hothers, hnone hothers⟩

end

end Pay
end Mobility
