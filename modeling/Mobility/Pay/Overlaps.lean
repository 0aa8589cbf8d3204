import Mobility.Pay.Credits

/-!
# Overlaps — trips overlap the days they are credited on

Three writers credit metres to a trip's days: pricing, differentials and executed orders.
Each of them read the metres off slices of the trip, and a sealed trip keeps its times, so
every stored position stays inside its trip.
-/

namespace Mobility
namespace Pay

open Lib
open Trips

/-- A sealed trip overlaps every day on which a position credits it. -/
def Located (s : Store) (tripId : Id) (position : DailyRatePosition) : Prop :=
  ∀ day, position.distanceMByDay.get day ≠ 0 →
    ∃ trip ∈ s.trips, trip.id = tripId ∧ trip.status = .sealed ∧ DayTripOverlap trip day

/-- The stored positions are located. -/
structure LocatedInv (s : Store) : Prop where
  calculations : ∀ c ∈ s.calculations, Located s c.tripSessionId c.position
  entries : ∀ entry ∈ s.entries, ∀ breakdown, entry.recomputeDay = some breakdown →
    Located s entry.tripSessionId breakdown.position
  orders : ∀ order ∈ s.orders, ∀ line ∈ order.executionResult,
    Located s line.tripSessionId line.position

section

variable {s s' : Store} {tripId : Id} {position : DailyRatePosition}

theorem Located.congr (h : Located s tripId position) (htrips : s'.trips = s.trips) :
    Located s' tripId position := by
  intro day hday
  rw [htrips]
  exact h day hday

theorem LocatedInv.congr (h : LocatedInv s) (htrips : s'.trips = s.trips)
    (hcalculations : s'.calculations = s.calculations) (hentries : s'.entries = s.entries)
    (horders : s'.orders = s.orders) : LocatedInv s' where
  calculations := by
    rw [hcalculations]
    exact fun c hc => (h.calculations c hc).congr htrips
  entries := by
    rw [hentries]
    exact fun entry hentry breakdown hb => (h.entries entry hentry breakdown hb).congr htrips
  orders := by
    rw [horders]
    exact fun order horder line hline => (h.orders order horder line hline).congr htrips

/-- An entry without a breakdown records no position. -/
theorem LocatedInv.appendEntry (h : LocatedInv s) {entry : EarningsLedgerEntry}
    (hplain : entry.recomputeDay = none) : LocatedInv { s with entries := s.entries ++ [entry] } where
  calculations := fun c hc => (h.calculations c hc).congr rfl
  entries := by
    intro row hrow breakdown hb
    rcases List.mem_append.mp hrow with hrow | hrow
    · exact (h.entries row hrow breakdown hb).congr rfl
    · rw [List.mem_singleton.mp hrow, hplain] at hb
      exact absurd hb (by simp)
  orders := fun order horder line hline => (h.orders order horder line hline).congr rfl

theorem LocatedInv.appendCalculation (h : LocatedInv s) {c : PayoutCalculation}
    (hc : Located s c.tripSessionId c.position) :
    LocatedInv { s with calculations := s.calculations ++ [c] } where
  calculations := by
    intro row hrow
    rcases List.mem_append.mp hrow with hrow | hrow
    · exact (h.calculations row hrow).congr rfl
    · rw [List.mem_singleton.mp hrow]
      exact hc.congr rfl
  entries := fun entry hentry breakdown hb => (h.entries entry hentry breakdown hb).congr rfl
  orders := fun order horder line hline => (h.orders order horder line hline).congr rfl

/-! ## Positions -/

/-- A candidate of the latest position is one that an entry or an order recorded. -/
theorem latest_cases (s : Store) (c : PayoutCalculation) :
    latestDailyRatePosition s c = c.position
      ∨ (∃ entry ∈ s.entries, ∃ breakdown, entry.recomputeDay = some breakdown
          ∧ entry.tripSessionId = c.tripSessionId
          ∧ latestDailyRatePosition s c = breakdown.position)
      ∨ ∃ order ∈ s.orders, order.status = .executed ∧ ∃ line ∈ order.executionResult,
          line.tripSessionId = c.tripSessionId ∧ latestDailyRatePosition s c = line.position := by
  rcases newest_mem c.position (entryPositions s c ++ orderPositions s c) with
    hfirst | ⟨candidate, hcandidate, hnewest⟩
  · exact .inl hfirst
  rcases List.mem_append.mp hcandidate with hmem | hmem
  · rcases List.mem_filterMap.mp hmem with ⟨entry, hentry, hfound⟩
    split_ifs at hfound with hcond
    rcases Option.map_eq_some_iff.mp hfound with ⟨breakdown, hbreakdown, rfl⟩
    rcases Option.filter_eq_some_iff.mp hbreakdown with ⟨hsome, _⟩
    exact .inr (.inl ⟨entry, hentry, breakdown, hsome, hcond.1, hnewest⟩)
  · rcases List.mem_filterMap.mp hmem with ⟨order, horder, hfound⟩
    split_ifs at hfound with hcond
    rcases Option.bind_eq_some_iff.mp hfound with ⟨executedAt, _, hfound⟩
    rcases Option.map_eq_some_iff.mp hfound with ⟨line, hline, rfl⟩
    rcases List.mem_filter.mp (List.mem_of_getLast? hline) with ⟨hline, htrip⟩
    simp only [decide_eq_true_eq] at htrip
    exact .inr (.inr ⟨order, horder, hcond.2, line, hline, htrip.1, hnewest⟩)

theorem LocatedInv.latest (h : LocatedInv s) {c : PayoutCalculation} (hc : c ∈ s.calculations) :
    Located s c.tripSessionId (latestDailyRatePosition s c) := by
  rcases latest_cases s c with hfirst | ⟨entry, hentry, breakdown, hb, htrip, hlatest⟩
    | ⟨order, horder, _, line, hline, htrip, hlatest⟩
  · rw [hfirst]
    exact h.calculations c hc
  · rw [hlatest, ← htrip]
    exact h.entries entry hentry breakdown hb
  · rw [hlatest, ← htrip]
    exact h.orders order horder line hline

theorem LocatedInv.creditsOverlap (h : LocatedInv s) : CreditsOverlap s := by
  intro c hc day hday
  rcases h.latest hc day hday with ⟨trip, htrip, hid, _, hoverlap⟩
  exact ⟨trip, htrip, hid, hoverlap⟩

theorem get_creditedDistance_ne_zero {slices : List EligibleSlice} {day : Day}
    (h : (creditedDistanceMByDay slices).get day ≠ 0) : ∃ slice ∈ slices, slice.day = day := by
  rcases List.mem_map.mp (mem_of_get_ne_zero h) with ⟨day', hday', heq⟩
  rcases List.mem_map.mp (List.mem_dedup.mp hday') with ⟨slice, hslice, hslice'⟩
  exact ⟨slice, hslice, hslice'.trans (congrArg Prod.fst heq)⟩

/-- A trip measured again overlaps the days it is credited on. -/
theorem located_recomputed {trip : TripSession} (htrip : trip ∈ s.trips)
    (hsealed : trip.status = .sealed) {stored : DailyRatePosition}
    (hstored : Located s trip.id stored) {day : Day} {terms : DailyRateTerms} {before : Int}
    {measurement : Measurement} :
    Located s trip.id (recomputedPosition stored day terms before
      ((creditedDistanceMByDay (tripSlices s trip measurement)).get day)) := by
  intro day' hday'
  unfold recomputedPosition at hday'
  split_ifs at hday' with hpositive
  · dsimp only at hday'
    rw [get_replace] at hday'
    split_ifs at hday' with hsame
    · rcases get_creditedDistance_ne_zero hday' with ⟨slice, hslice, hslice'⟩
      exact ⟨trip, htrip, rfl, hsealed, hsame ▸ hslice' ▸ dayTripOverlap_of_slice hslice⟩
    · exact hstored day' hday'
  · dsimp only at hday'
    rw [get_replace] at hday'
    split_ifs at hday' with hsame
    · exact absurd rfl hday'
    · exact hstored day' hday'

/-! ## Targets -/

theorem mem_dayTrips {campaignId driverProfileId : Id} {day : Day} {trip : TripSession}
    (h : trip ∈ dayTrips s campaignId driverProfileId day) :
    trip ∈ s.trips ∧ trip.campaignId = campaignId ∧ trip.driverProfileId = driverProfileId
      ∧ (trip.status = .ended ∨ trip.status = .sealed) ∧ EndedOverlaps trip day := by
  have hmem := (List.perm_insertionSort _ _).mem_iff.mp h
  simpa using List.mem_filter.mp hmem

/-- The position of a target: nothing, or the day measured again. -/
theorem dailyRateDayTarget_position {trip : TripSession} {c : PayoutCalculation} {day : Day}
    {before : Int} {measurement : Measurement} {target : DayTripTarget}
    (h : dailyRateDayTarget s trip c day before measurement = .ok target) :
    target.tripSessionId = trip.id ∧ target.payoutCalculationId = c.id
      ∧ ∃ binding, s.binding? trip.assignmentId = some binding
        ∧ target.position = if voidedTripPayout s trip.id = true ∨ c.status = .blocked then {}
          else recomputedPosition (latestDailyRatePosition s c) day binding.terms before
            ((creditedDistanceMByDay (tripSlices s trip measurement)).get day) := by
  simp only [dailyRateDayTarget, bind_eq_ok, demand_eq_ok, require_eq_ok, pure_eq_ok] at h
  rcases h with ⟨binding, hbinding, _, _, posted, _, rfl⟩
  exact ⟨rfl, rfl, binding, hbinding, rfl⟩

theorem mem_computePayoutDayTargets {campaignId driverProfileId : Id} {day : Day}
    {measure : Id → Measurement} {targets : List DayTripTarget}
    (h : computePayoutDayTargets s campaignId day measure driverProfileId = .ok targets)
    {target : DayTripTarget} (htarget : target ∈ targets) :
    ∃ trip ∈ dayTrips s campaignId driverProfileId day, ∃ c before,
      calculationFor? s trip.id = some c
        ∧ dailyRateDayTarget s trip c day before (measure trip.id) = .ok target := by
  simp only [computePayoutDayTargets, bind_eq_ok, require_eq_ok, pure_eq_ok] at h
  rcases h with ⟨_, _, state, hfold, rfl⟩
  refine checkedFold_prefix (fun _ state => ∀ target ∈ state.targets,
    ∃ trip ∈ dayTrips s campaignId driverProfileId day, ∃ c before,
      calculationFor? s trip.id = some c
        ∧ dailyRateDayTarget s trip c day before (measure trip.id) = .ok target)
    ?_ hfold (fun _ h => absurd h List.not_mem_nil) target htarget
  intro done trip rest state state' hsplit hstate hround target htarget
  unfold dayTargetRound at hround
  cases hfor : calculationFor? s trip.id with
  | none =>
      rw [hfor] at hround
      exact hstate target (Except.ok.inj hround ▸ htarget)
  | some c =>
      simp only [hfor, bind_eq_ok, pure_eq_ok] at hround
      rcases hround with ⟨new, hnew, rfl⟩
      rcases List.mem_append.mp htarget with hold | hadded
      · exact hstate target hold
      · refine ⟨trip, by simp [hsplit], c, state.creditedM, hfor, ?_⟩
        exact List.mem_singleton.mp hadded ▸ hnew

/-- Every target of a projection is the one of a priced trip of the day. -/
theorem mem_projectCampaignDay {campaignId : Id} {day : Day} {measure : Id → Measurement}
    {computations : List DayComputation}
    (h : projectCampaignDay s campaignId day measure = .ok computations)
    {computation : DayComputation} (hcomputation : computation ∈ computations)
    {target : DayTripTarget} (htarget : target ∈ computation.trips) :
    ∃ trip ∈ dayTrips s campaignId computation.driverProfileId day, ∃ c before,
      calculationFor? s trip.id = some c
        ∧ dailyRateDayTarget s trip c day before (measure trip.id) = .ok target := by
  unfold projectCampaignDay at h
  rcases exists_of_mem_forall₂ (checkedMap_forall₂ h) hcomputation with ⟨driver, _, hdriver⟩
  simp only [bind_eq_ok, pure_eq_ok] at hdriver
  rcases hdriver with ⟨targets, htargets, rfl⟩
  exact mem_computePayoutDayTargets htargets htarget

theorem located_target (hcalcs : CalculationsInv s) (hkeys : (s.trips.map (·.id)).Nodup)
    (hs : LocatedInv s) {trip : TripSession} (htrip : trip ∈ s.trips) {c : PayoutCalculation}
    (hfor : calculationFor? s trip.id = some c) {day : Day} {before : Int}
    {measurement : Measurement} {target : DayTripTarget}
    (h : dailyRateDayTarget s trip c day before measurement = .ok target) :
    Located s target.tripSessionId target.position := by
  rcases dailyRateDayTarget_position h with ⟨hid, _, binding, _, hposition⟩
  rw [hid, hposition]
  split_ifs
  · exact fun _ hzero => absurd rfl hzero
  · rw [calculationFor?_eq hcalcs.once] at hfor
    rcases mem_of_lookup hfor with ⟨hc, hcTrip⟩
    rcases hcalcs.trips c hc with ⟨owner, howner, hownerId, hsealed, _, _⟩
    have hsame : owner = trip := eq_of_key_eq hkeys howner htrip (hownerId.trans hcTrip)
    exact located_recomputed htrip (hsame ▸ hsealed) (hcTrip ▸ hs.latest hc)

end

/-! ## Runs -/

section

variable [Evidence] {settings : Settings} {s s' : Store} {a : TripAction}

theorem Located.step (hinv : TripsInv settings s) (hverified : SealedVerified s)
    (h : tripStep settings s a = .ok s') {tripId : Id} {position : DailyRatePosition}
    (hlocated : Located s tripId position) : Located s' tripId position := by
  intro day hday
  rcases hlocated day hday with ⟨trip, htrip, hid, hsealed, hoverlap⟩
  rcases sealedRow_step hinv hverified h htrip hsealed with ⟨trip', htrip', hsame, hstays, hend, _⟩
  refine ⟨trip', htrip', hsame.1.trans hid, hstays, ?_⟩
  unfold DayTripOverlap
  rw [hsame.2.2.2.2.2, hend]
  exact hoverlap

theorem calculateTripPayout_locatedInv (hs : LocatedInv s) {strictStaleness : Bool}
    {inputs : PayoutInputs} {tripId : Id} {now : Int}
    (h : calculateTripPayout settings strictStaleness inputs tripId now s = .ok s') :
    LocatedInv s' := by
  rcases calculateTripPayout_eq h with
    ⟨trip, analytics, binding, htrip, _, _,
      ⟨existing, _, hensure⟩ | ⟨estimate, c, _, _, hc, _, hensure⟩⟩
  · rcases ensureLedgerEntry_eq hensure with rfl | rfl
    · exact hs
    · exact hs.appendEntry rfl
  · have hlocated : Located s c.tripSessionId c.position := by
      rw [hc]
      intro day hday
      rcases mem_pricedDistance (mem_of_get_ne_zero hday) with ⟨_, slice, hslice, hslice'⟩
      have hoverlap := dayTripOverlap_of_slice hslice
      rw [hslice'] at hoverlap
      exact ⟨trip, List.mem_of_find?_eq_some htrip.found, rfl, htrip.sealed, hoverlap⟩
    rcases ensureLedgerEntry_eq hensure with rfl | rfl
    · exact hs.appendCalculation hlocated
    · exact (hs.appendCalculation hlocated).appendEntry rfl

omit [Evidence] in
/-- An executed order records its targets, in entries and in its result. -/
theorem approveCorrectionOrder_locatedInv (hcalcs : CalculationsInv s)
    (hkeys : (s.trips.map (·.id)).Nodup) (hs : LocatedInv s) {authorized : Except AppError Unit}
    {orderId : Id} {fingerprint : Payout.Digest} {releaseAt : Option Int}
    {measure : Id → Measurement} {entryId : Id → Id} {executedAt : Int}
    (h : approveCorrectionOrder authorized orderId fingerprint releaseAt measure entryId executedAt
      s = .ok s') : LocatedInv s' := by
  have htrips : s'.trips = s.trips := by rw [approveCorrectionOrder_frame h]
  have hcalculations : s'.calculations = s.calculations := by rw [approveCorrectionOrder_frame h]
  rcases approveCorrectionOrder_eq h with
    ⟨order, _, ⟨_, rfl⟩ | ⟨_, computations, hproject, ⟨_, rfl⟩ | ⟨_, posted, hposted, rfl⟩⟩⟩
  · exact hs
  · refine ⟨fun c hc => (hs.calculations c hc).congr rfl,
      fun entry hentry b hb => (hs.entries entry hentry b hb).congr rfl, ?_⟩
    intro row hrow line hline
    rcases List.mem_map.mp hrow with ⟨old, hold, rfl⟩
    have hsame : (if old.id = orderId then { old with status := .stale } else old).executionResult
        = old.executionResult := by split_ifs <;> rfl
    exact (hs.orders old hold line (hsame ▸ hline)).congr rfl
  · -- targets of a projected day lie on trips that overlap it
    have htarget : ∀ computation ∈ computations, ∀ target ∈ computation.trips,
        Located s target.tripSessionId target.position := by
      intro computation hcomputation target htarget
      rcases mem_projectCampaignDay hproject hcomputation htarget with
        ⟨trip, htrip, c, before, hfor, hday⟩
      exact located_target hcalcs hkeys hs (mem_dayTrips htrip).1 hfor hday
    -- posting adds entries one by one, each with the position of its target
    have hentries : (∀ entry ∈ posted.entries, ∀ b, entry.recomputeDay = some b →
        Located s entry.tripSessionId b.position) ∧ posted.orders = s.orders := by
      refine writeDayDifferentials_invariant (fun s₁ => (∀ entry ∈ s₁.entries, ∀ b,
        entry.recomputeDay = some b → Located s entry.tripSessionId b.position)
          ∧ s₁.orders = s.orders) ?_ ⟨hs.entries, rfl⟩ hposted
      rintro s₁ computation target s₂ hcomputation htarget' ⟨hs₁, horders⟩ hpost
      rcases writeDayDifferential_eq hpost with ⟨_, rfl⟩ | ⟨_, rfl⟩
      · exact ⟨hs₁, horders⟩
      · refine ⟨?_, horders⟩
        intro entry hentry b hb
        rcases List.mem_append.mp hentry with hentry | hentry
        · exact hs₁ entry hentry b hb
        · rw [List.mem_singleton.mp hentry] at hb ⊢
          rw [← Option.some.inj hb]
          exact htarget computation hcomputation target htarget'
    refine ⟨?_, fun entry hentry b hb => (hentries.1 entry hentry b hb).congr htrips, ?_⟩
    · rw [hcalculations]
      exact fun c hc => (hs.calculations c hc).congr htrips
    · intro row hrow line hline
      rcases List.mem_map.mp hrow with ⟨old, hold, rfl⟩
      split_ifs at hline
      · rcases List.mem_flatMap.mp hline with ⟨computation, hcomputation, hline⟩
        rcases List.mem_map.mp hline with ⟨target, htarget', rfl⟩
        exact (htarget computation hcomputation target htarget').congr htrips
      · exact (hs.orders old (hentries.2 ▸ hold) line hline).congr htrips

theorem tripStep_locatedInv (hinv : TripsInv settings s) (hverified : SealedVerified s)
    (hcalcs : CalculationsInv s) (hs : LocatedInv s) (h : tripStep settings s a = .ok s') :
    LocatedInv s' := by
  -- what is recorded stays located, as sealed trips keep their span
  have hcalculations : ∀ c ∈ s.calculations, Located s' c.tripSessionId c.position :=
    fun c hc => (hs.calculations c hc).step hinv hverified h
  have hentries : ∀ entry ∈ s.entries, ∀ b, entry.recomputeDay = some b →
      Located s' entry.tripSessionId b.position :=
    fun entry hentry b hb => (hs.entries entry hentry b hb).step hinv hverified h
  have horders : ∀ order ∈ s.orders, ∀ line ∈ order.executionResult,
      Located s' line.tripSessionId line.position :=
    fun order horder line hline => (hs.orders order horder line hline).step hinv hverified h
  cases tripStep_write hinv.keys h with
  | process hwrite =>
      refine processEndedTrip_invariant LocatedInv ?_ ?_ ?_ _ _ s s' hs hwrite
      · intro entryId c s₁ s₂ hs₁ hensure
        rcases ensureLedgerEntry_eq hensure with rfl | rfl
        · exact hs₁
        · exact hs₁.appendEntry rfl
      · intro trip s₁ hs₁ _ _
        rw [analyticsStage_frame]
        exact hs₁.congr rfl rfl rfl rfl
      · exact fun id s₁ s₂ hs₁ hcalc => calculateTripPayout_locatedInv hs₁ hcalc
  | calculate hwrite => exact calculateTripPayout_locatedInv hs hwrite
  | createOrder order _ hempty =>
      refine ⟨hcalculations, hentries, ?_⟩
      intro row hrow line hline
      rcases List.mem_append.mp hrow with hrow | hrow
      · exact horders row hrow line hline
      · rw [List.mem_singleton.mp hrow, hempty] at hline
        exact absurd hline List.not_mem_nil
  | approveOrder hwrite => exact approveCorrectionOrder_locatedInv hcalcs hinv.keys hs hwrite
  | deduct row _ _ hplain => exact hs.appendEntry hplain
  | markEntry entryId status hstatus =>
      refine ⟨hcalculations, ?_, horders⟩
      intro row hrow b hb
      rcases List.mem_map.mp hrow with ⟨old, hold, rfl⟩
      split_ifs at hb ⊢
      · exact hentries old hold b hb
      · exact hentries old hold b hb
  | _ => exact ⟨hcalculations, hentries, horders⟩

theorem locatedInv_of_reachable (hs : Reachable (fleet settings) s) : LocatedInv s := by
  refine hs.invariant_of
    (fun s => TripsInv settings s ∧ SealedVerified s ∧ CalculationsInv s)
    (fun _ h => ⟨tripsInv_of_reachable h, sealedVerified_of_reachable h,
      calculationsInv_of_reachable h⟩) LocatedInv ?_ ?_
  · exact ⟨fun _ h => absurd h List.not_mem_nil, fun _ h => absurd h List.not_mem_nil,
      fun _ h => absurd h List.not_mem_nil⟩
  · rintro s a s' ⟨hinv, hverified, hcalcs⟩ hlocated _ hstep
    exact tripStep_locatedInv hinv hverified hcalcs hlocated hstep

end

end Pay
end Mobility
