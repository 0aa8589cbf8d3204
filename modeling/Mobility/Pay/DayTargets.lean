import Mobility.Pay.Recorded

/-!
# DayTargets — what a projection says about the trips of its day

A projection prices the calculations of the day one after the other, each as an increment
on the metres before it, and leaves their other days alone.
-/

namespace Mobility
namespace Pay

open Lib
open Trips

/-- Whole metres of a target on a day, and the money they were priced at. -/
def targetMetres (day : Day) (target : DayTripTarget) : Int :=
  target.position.distanceMByDay.get day

def targetAmountOn (day : Day) (target : DayTripTarget) : Int :=
  target.position.amountByDay.get day

/-- The priced trips of the driver's day were all bound to one set of frozen terms. -/
def DayTerms (s : Store) (driverProfileId campaignId : Id) (day : Day) (terms : DailyRateTerms) :
    Prop :=
  ∀ c ∈ s.calculations, paysFor driverProfileId campaignId c = true →
    ∀ trip ∈ s.trips, trip.id = c.tripSessionId → DayTripOverlap trip day →
      ∀ binding, s.binding? trip.assignmentId = some binding → binding.terms = terms

/-- The target of a priced trip of the driver's day. -/
def Repriced (s : Store) (campaignId driverProfileId : Id) (day : Day) (c : PayoutCalculation)
    (target : DayTripTarget) : Prop :=
  ∃ trip ∈ dayTrips s campaignId driverProfileId day, ∃ before measurement,
    calculationFor? s trip.id = some c
      ∧ dailyRateDayTarget s trip c day before measurement = .ok target

/-- The calculations of the driver's day, in start order of their trips. -/
def dayCalculations (s : Store) (campaignId driverProfileId : Id) (day : Day) :
    List PayoutCalculation :=
  (dayTrips s campaignId driverProfileId day).filterMap (fun trip => calculationFor? s trip.id)

section

variable {s : Store} {campaignId driverProfileId : Id} {day : Day} {c : PayoutCalculation}
  {target : DayTripTarget} {targets : List DayTripTarget} {measure : Id → Measurement}

/-! ## One target -/

/-- On its own day a target is an increment at the terms of a trip that overlaps the day. -/
theorem dailyRateDayTarget_increment {trip : TripSession} {before : Int}
    {measurement : Measurement} {terms : DailyRateTerms}
    (hterms : DayTripOverlap trip day → ∀ binding, s.binding? trip.assignmentId = some binding →
      binding.terms = terms)
    (h : dailyRateDayTarget s trip c day before measurement = .ok target) :
    targetAmountOn day target
      = dayPayNaira (before + targetMetres day target) terms - dayPayNaira before terms := by
  rcases dailyRateDayTarget_position h with ⟨_, _, binding, hbinding, hposition⟩
  unfold targetAmountOn targetMetres
  rw [hposition]
  split_ifs with hnothing
  · simp
  · unfold recomputedPosition
    split_ifs with hmeasured
    · -- measured metres lie in a slice of the day, so the trip overlaps it
      rcases get_creditedDistance_ne_zero hmeasured.ne' with ⟨slice, hslice, hday⟩
      have hoverlap := dayTripOverlap_of_slice hslice
      have hsame : binding.terms = terms := hterms (hday ▸ hoverlap) binding hbinding
      simp [get_replace, hsame]
    · simp [get_replace]

/-- A target credits no money without metres, if the latest position does not. -/
theorem dailyRateDayTarget_backed {trip : TripSession} {before : Int} {measurement : Measurement}
    (h : dailyRateDayTarget s trip c day before measurement = .ok target)
    (hbacked : ∀ day', latestMetres s day' c = 0 →
      (latestDailyRatePosition s c).amountByDay.get day' = 0) {day' : Day}
    (hzero : targetMetres day' target = 0) : targetAmountOn day' target = 0 := by
  rcases dailyRateDayTarget_position h with ⟨_, _, binding, _, hposition⟩
  unfold targetMetres at hzero
  unfold targetAmountOn
  rw [hposition] at hzero ⊢
  split_ifs at hzero ⊢ with hnothing
  · rfl
  · unfold recomputedPosition at hzero ⊢
    split_ifs at hzero ⊢ with hmeasured
    · simp only [get_replace] at hzero ⊢
      split_ifs at hzero ⊢ with hday
      · exact absurd hzero hmeasured.ne'
      · exact hbacked day' hzero
    · simp only [get_replace] at hzero ⊢
      split_ifs at hzero ⊢ with hday
      · rfl
      · exact hbacked day' hzero

/-- The other days of a trip that is not blocked stay as they were. -/
theorem dailyRateDayTarget_other {trip : TripSession} {before : Int} {measurement : Measurement}
    (hvoids : NoneVoided s) (hblocked : c.status ≠ .blocked)
    (h : dailyRateDayTarget s trip c day before measurement = .ok target) {day' : Day}
    (hday : day' ≠ day) :
    targetMetres day' target = latestMetres s day' c
      ∧ targetAmountOn day' target = (latestDailyRatePosition s c).amountByDay.get day' := by
  rcases dailyRateDayTarget_position h with ⟨_, _, binding, _, hposition⟩
  have hlive : ¬ (voidedTripPayout s trip.id = true ∨ c.status = .blocked) := by
    simp [voidedTripPayout_eq_false hvoids, hblocked]
  unfold targetMetres targetAmountOn latestMetres
  rw [hposition, if_neg hlive]
  unfold recomputedPosition
  split_ifs <;> simp [get_replace, hday]

/-- A blocked trip is credited nothing. -/
theorem dailyRateDayTarget_blocked {trip : TripSession} {before : Int} {measurement : Measurement}
    (hblocked : c.status = .blocked)
    (h : dailyRateDayTarget s trip c day before measurement = .ok target) (day' : Day) :
    targetMetres day' target = 0 := by
  rcases dailyRateDayTarget_position h with ⟨_, _, binding, _, hposition⟩
  unfold targetMetres
  rw [hposition, if_pos (.inr hblocked)]
  rfl

/-! ## The targets of a driver -/

/-- The calculation of a trip of the day belongs to the driver and campaign of the day. -/
theorem calculation_of_dayTrip (hcalcs : CalculationsInv s) (hkeys : (s.trips.map (·.id)).Nodup)
    {trip : TripSession} (htrip : trip ∈ dayTrips s campaignId driverProfileId day)
    (hfor : calculationFor? s trip.id = some c) :
    c ∈ s.calculations ∧ c.tripSessionId = trip.id
      ∧ paysFor driverProfileId campaignId c = true := by
  rcases mem_dayTrips htrip with ⟨hmem, hcampaign, hdriver, _, _⟩
  rw [calculationFor?_eq hcalcs.once] at hfor
  rcases mem_of_lookup hfor with ⟨hc, hid⟩
  rcases hcalcs.trips c hc with ⟨owner, howner, hownerId, _, hownerDriver, hownerCampaign⟩
  have hsame : owner = trip := eq_of_key_eq hkeys howner hmem (hownerId.trans hid)
  subst hsame
  refine ⟨hc, hid, ?_⟩
  simp [paysFor, ← hownerDriver, ← hownerCampaign, hcampaign, hdriver]

/-- One target for each calculation of the day, in order, each priced as an increment on
the metres of the targets before it. -/
theorem computePayoutDayTargets_spec (hcalcs : CalculationsInv s)
    (hkeys : (s.trips.map (·.id)).Nodup)
    (h : computePayoutDayTargets s campaignId day measure driverProfileId = .ok targets) :
    List.Forall₂ (Repriced s campaignId driverProfileId day)
        (dayCalculations s campaignId driverProfileId day) targets
      ∧ ∀ terms, DayTerms s driverProfileId campaignId day terms →
          Charged (fun metres => dayPayNaira metres terms) (targetMetres day) (targetAmountOn day) 0
            targets := by
  simp only [computePayoutDayTargets, bind_eq_ok, require_eq_ok, pure_eq_ok] at h
  rcases h with ⟨_, _, state, hfold, rfl⟩
  -- along the fold: one target per priced trip so far, and their metres are the credit
  have hrun := checkedFold_prefix (fun done state =>
    List.Forall₂ (Repriced s campaignId driverProfileId day)
        (done.filterMap (fun trip => calculationFor? s trip.id)) state.targets
      ∧ state.creditedM = (state.targets.map (targetMetres day)).sum
      ∧ ∀ terms, DayTerms s driverProfileId campaignId day terms →
          Charged (fun metres => dayPayNaira metres terms) (targetMetres day) (targetAmountOn day) 0
            state.targets)
    ?_ hfold ⟨.nil, rfl, fun _ _ => .nil⟩
  · exact ⟨hrun.1, hrun.2.2⟩
  rintro done trip rest state state' hsplit ⟨hpriced, hcredit, hcharged⟩ hround
  have htrip : trip ∈ dayTrips s campaignId driverProfileId day := by simp [hsplit]
  unfold dayTargetRound at hround
  cases hfor : calculationFor? s trip.id with
  | none =>
      rw [hfor] at hround
      rw [← Except.ok.inj hround, List.filterMap_append]
      simp only [List.filterMap_cons, hfor, List.filterMap_nil, List.append_nil]
      exact ⟨hpriced, hcredit, hcharged⟩
  | some c =>
      simp only [hfor, bind_eq_ok, pure_eq_ok] at hround
      rcases hround with ⟨target, htarget, rfl⟩
      refine ⟨?_, ?_, ?_⟩
      · rw [List.filterMap_append]
        simp only [List.filterMap_cons, hfor, List.filterMap_nil]
        exact List.rel_append hpriced
          (.cons ⟨trip, htrip, state.creditedM, measure trip.id, hfor, htarget⟩ .nil)
      · simp [hcredit, targetMetres]
      · intro terms hterms
        rcases calculation_of_dayTrip hcalcs hkeys htrip hfor with ⟨hc, hid, hpays⟩
        refine (hcharged terms hterms).concat ?_
        rw [Int.zero_add, ← hcredit]
        exact dailyRateDayTarget_increment
          (hterms c hc hpays trip (mem_dayTrips htrip).1 hid.symm) htarget

theorem mem_dayCalculations (honce : PricedOnce s) :
    c ∈ dayCalculations s campaignId driverProfileId day ↔ c ∈ s.calculations
      ∧ ∃ trip ∈ dayTrips s campaignId driverProfileId day, trip.id = c.tripSessionId := by
  unfold dayCalculations
  rw [List.mem_filterMap]
  constructor
  · rintro ⟨trip, htrip, hfor⟩
    rw [calculationFor?_eq honce] at hfor
    rcases mem_of_lookup hfor with ⟨hc, hid⟩
    exact ⟨hc, trip, htrip, hid.symm⟩
  · rintro ⟨hc, trip, htrip, hid⟩
    exact ⟨trip, htrip, hid ▸ calculationFor?_eq_some honce hc⟩

theorem dayTrips_keys (hkeys : (s.trips.map (·.id)).Nodup) :
    ((dayTrips s campaignId driverProfileId day).map (·.id)).Nodup := by
  have hperm := (List.perm_insertionSort
    (fun t t' : TripSession => instantThenId t.startedAt t.id t'.startedAt t'.id)
    (s.trips.filter (fun trip => trip.campaignId = campaignId
      ∧ trip.driverProfileId = driverProfileId
      ∧ (trip.status = .ended ∨ trip.status = .sealed) ∧ EndedOverlaps trip day))).map (·.id)
  exact hperm.nodup_iff.mpr (hkeys.sublist (List.filter_sublist.map _))

/-- The calculations of a day are of different trips. -/
theorem dayCalculations_keys (honce : PricedOnce s) (hkeys : (s.trips.map (·.id)).Nodup) :
    ((dayCalculations s campaignId driverProfileId day).map (·.tripSessionId)).Nodup := by
  have htrips : ((dayTrips s campaignId driverProfileId day).map (·.id)).Nodup :=
    dayTrips_keys hkeys
  have hmap : (dayCalculations s campaignId driverProfileId day).map (·.tripSessionId)
      = ((dayTrips s campaignId driverProfileId day).filter
          (fun trip => (calculationFor? s trip.id).isSome)).map (·.id) := by
    unfold dayCalculations
    generalize dayTrips s campaignId driverProfileId day = trips
    induction trips with
    | nil => rfl
    | cons trip rest ih =>
        cases hfor : calculationFor? s trip.id with
        | none => simpa [hfor] using ih
        | some c =>
            rw [calculationFor?_eq honce] at hfor
            have hid := (mem_of_lookup hfor).2
            rw [← calculationFor?_eq honce] at hfor
            simpa [hfor, hid] using ih
  rw [hmap]
  exact htrips.sublist (List.filter_sublist.map _)

end

end Pay
end Mobility
