import Mobility.Trips.Predecessors

/-!
# Calculations — what every reachable state knows of them

A trip has at most one calculation, written once, while the trip was sealed.  The
rule `ledger_invariant` turns a fact about single pay writes into one about runs.
-/

namespace Mobility
namespace Pay

open Lib
open Trips

/-! ## The latest calculation of a trip -/

theorem supersedes_self (c : PayoutCalculation) : supersedes c c = false := by
  simp [supersedes, instantThenId]

/-- With one calculation per trip, every calculation is its trip's latest. -/
theorem latestByTrip_eq {calculations : List PayoutCalculation}
    (h : (calculations.map (·.tripSessionId)).Nodup) : latestByTrip calculations = calculations := by
  refine List.filter_eq_self.mpr ?_
  intro c hc
  have hnone : calculations.any (supersedes · c) = false := by
    refine List.any_eq_false.mpr ?_
    intro other hother hsupersedes
    have htrip : other.tripSessionId = c.tripSessionId := by
      simp only [supersedes, Bool.and_eq_true, decide_eq_true_eq] at hsupersedes
      exact hsupersedes.1
    have hsame : other = c := eq_of_key_eq h hother hc htrip
    rw [hsame, supersedes_self] at hsupersedes
    exact absurd hsupersedes (by simp)
  simp [hnone]

theorem latestByTrip_filter {calculations : List PayoutCalculation}
    (h : (calculations.map (·.tripSessionId)).Nodup) (p : PayoutCalculation → Bool) :
    latestByTrip (calculations.filter p) = calculations.filter p :=
  latestByTrip_eq (h.sublist (List.filter_sublist.map _))

/-- The one calculation per trip. -/
def PricedOnce (s : Store) : Prop :=
  (s.calculations.map (·.tripSessionId)).Nodup

theorem calculationFor?_eq {s : Store} (h : PricedOnce s) (tripId : Id) :
    calculationFor? s tripId = s.calculations.find? (·.tripSessionId = tripId) := by
  rw [calculationFor?, latestByTrip_eq h]

theorem calculationFor?_eq_none {s : Store} (h : PricedOnce s) {tripId : Id} :
    calculationFor? s tripId = none ↔ ∀ c ∈ s.calculations, c.tripSessionId ≠ tripId := by
  rw [calculationFor?_eq h, lookup_eq_none]

theorem calculationFor?_eq_some {s : Store} (h : PricedOnce s) {c : PayoutCalculation}
    (hc : c ∈ s.calculations) : calculationFor? s c.tripSessionId = some c := by
  rw [calculationFor?_eq h]
  exact lookup_eq_some h hc rfl

/-! ## A new calculation -/

section

variable [Evidence] {settings : Settings} {s s' : Store}

/-- The first calculation of a payable trip, as the engine prices it in this state. -/
structure NewCalculation (settings : Settings) (inputs : PayoutInputs) (now : Int) (s : Store)
    (trip : TripSession) (c : PayoutCalculation) : Prop where
  payable : PayableTrip settings s trip.id trip
  first : calculationFor? s trip.id = none
  gate : unprocessedPredecessor? s trip
    (lagosDaysOf trip (tripSlices s trip inputs.measurement)) = none
  fresh : ∀ row ∈ s.calculations, row.id ≠ c.id
  priced : ∃ analytics estimate binding, s.analytics? trip.id = some analytics
    ∧ s.binding? trip.assignmentId = some binding
    ∧ c = pricedCalculation trip analytics estimate binding inputs
        (tripSlices s trip inputs.measurement) now s

theorem NewCalculation.columns {inputs : PayoutInputs} {now : Int} {trip : TripSession}
    {c : PayoutCalculation} (h : NewCalculation settings inputs now s trip c) :
    c.tripSessionId = trip.id ∧ c.campaignId = trip.campaignId
      ∧ c.driverProfileId = trip.driverProfileId
      ∧ c.pricedPings = loadOrderedPings trip (economicEnd s trip) := by
  rcases h.priced with ⟨_, _, _, _, _, rfl⟩
  exact ⟨rfl, rfl, rfl, rfl⟩

/-- A payout request writes at most one calculation, of its own trip. -/
theorem calculateTripPayout_calculations {strictStaleness : Bool} {inputs : PayoutInputs}
    {tripId : Id} {now : Int}
    (h : calculateTripPayout settings strictStaleness inputs tripId now s = .ok s') :
    s'.calculations = s.calculations
      ∨ ∃ trip c, trip.id = tripId ∧ NewCalculation settings inputs now s trip c
          ∧ s'.calculations = s.calculations ++ [c] := by
  rcases calculateTripPayout_eq h with
    ⟨trip, analytics, binding, htrip, hanalytics, hbinding,
      ⟨existing, _, hensure⟩ | ⟨estimate, c, hfirst, hgate, hc, hfresh, hensure⟩⟩
  · rcases ensureLedgerEntry_eq hensure with rfl | rfl
    all_goals exact .inl rfl
  · have hid : trip.id = tripId := (mem_of_lookup htrip.found).2
    subst hid
    refine .inr ⟨trip, c, rfl, ⟨htrip, hfirst, hgate, hfresh, analytics, estimate, binding,
      hanalytics, hbinding, hc⟩, ?_⟩
    rcases ensureLedgerEntry_eq hensure with rfl | rfl
    all_goals rfl

/-- The actions that price no trip. -/
def PricesNothing : TripAction → Prop
  | .process .. | .calculate .. => False
  | _ => True

/-- The calculations are left alone by everything but pricing. -/
theorem tripStep_calculations (hkeys : (s.trips.map (·.id)).Nodup) {a : TripAction}
    (ha : PricesNothing a)
    (h : tripStep settings s a = .ok s') : s'.calculations = s.calculations := by
  cases tripStep_write hkeys h with
  | process => exact ha.elim
  | calculate => exact ha.elim
  | approveOrder hwrite => rw [approveCorrectionOrder_frame hwrite]
  | _ => rfl

/-! ## Runs -/

/-- Calculations are of sealed trips, one for each. -/
structure CalculationsInv (s : Store) : Prop where
  once : PricedOnce s
  trips : ∀ c ∈ s.calculations, ∃ t ∈ s.trips, t.id = c.tripSessionId ∧ t.status = .sealed
    ∧ t.driverProfileId = c.driverProfileId ∧ t.campaignId = c.campaignId

theorem PricedOnce.append (h : PricedOnce s) {inputs : PayoutInputs} {now : Int}
    {trip : TripSession} {c : PayoutCalculation}
    (hnew : NewCalculation settings inputs now s trip c)
    (hs' : s'.calculations = s.calculations ++ [c]) : PricedOnce s' := by
  unfold PricedOnce
  rw [hs', List.map_append]
  refine List.nodup_append.mpr ⟨h, List.nodup_singleton _, ?_⟩
  intro id hid id' hid' heq
  rcases List.mem_map.mp hid with ⟨other, hother, rfl⟩
  refine (calculationFor?_eq_none h).mp hnew.first other hother ?_
  exact heq.trans ((List.mem_singleton.mp hid').trans hnew.columns.1)

theorem calculateTripPayout_inv (hs : CalculationsInv s) {strictStaleness : Bool}
    {inputs : PayoutInputs} {tripId : Id} {now : Int}
    (h : calculateTripPayout settings strictStaleness inputs tripId now s = .ok s') :
    CalculationsInv s' := by
  have htrips : s'.trips = s.trips := by rw [calculateTripPayout_frame h]
  rcases calculateTripPayout_calculations h with hsame | ⟨trip, c, _, hnew, hadded⟩
  · refine ⟨?_, ?_⟩
    · exact (congrArg (fun cs => (cs.map (·.tripSessionId)).Nodup) hsame).mpr hs.once
    · rw [hsame, htrips]
      exact hs.trips
  · refine ⟨hs.once.append hnew hadded, ?_⟩
    rw [hadded, htrips]
    intro x hx
    rcases List.mem_append.mp hx with hx | hx
    · exact hs.trips x hx
    · rw [List.mem_singleton.mp hx]
      rcases hnew.columns with ⟨hid, hcampaign, hdriver, _⟩
      exact ⟨trip, List.mem_of_find?_eq_some hnew.payable.found, hid.symm, hnew.payable.sealed,
        hdriver.symm, hcampaign.symm⟩

omit [Evidence] in
theorem CalculationsInv.congr (hs : CalculationsInv s) (hcalculations : s'.calculations = s.calculations)
    (htrips : s'.trips = s.trips) : CalculationsInv s' := by
  refine ⟨?_, ?_⟩
  · exact (congrArg (fun cs => (cs.map (·.tripSessionId)).Nodup) hcalculations).mpr hs.once
  · rw [hcalculations, htrips]
    exact hs.trips

omit [Evidence] in
theorem analyticsStage_frame (trip : TripSession) (now : Int) (s : Store) :
    analyticsStage trip now s = { s with analytics := (analyticsStage trip now s).analytics } := by
  unfold analyticsStage
  split
  · rfl
  · split_ifs <;> rfl

theorem tripStep_calculationsInv (hinv : TripsInv settings s) (hs : CalculationsInv s)
    {a : TripAction} (h : tripStep settings s a = .ok s') : CalculationsInv s' := by
  by_cases hpricing : PricesNothing a
  · have hcalculations := tripStep_calculations hinv.keys hpricing h
    refine ⟨?_, ?_⟩
    · exact (congrArg (fun cs => (cs.map (·.tripSessionId)).Nodup) hcalculations).mpr hs.once
    · rw [hcalculations]
      intro c hc
      rcases hs.trips c hc with ⟨t, ht, hid, hsealed, hdriver, hcampaign⟩
      rcases exists_row hinv.keys h ht with ⟨t', ht', hchange⟩
      have hsame := hchange.sameTrip (hinv.wellFormed t ht)
      have hstays := (hchange.effects (hinv.wellFormed t ht)).staysSealed hsealed
      exact ⟨t', ht', hsame.1.trans hid, hstays.sealed, hsame.2.2.2.1.trans hdriver,
        hsame.2.2.1.trans hcampaign⟩
  · cases a with
    | process tripId fuel inputs now =>
        refine processEndedTrip_invariant CalculationsInv ?_ ?_ ?_ fuel tripId s s' hs h
        · intro entryId calculation s₁ s₂ hs₁ hensure
          rcases ensureLedgerEntry_eq hensure with rfl | rfl
          · exact hs₁
          · exact hs₁.congr rfl rfl
        · intro trip s₁ hs₁ _ _
          rw [analyticsStage_frame]
          exact hs₁.congr rfl rfl
        · intro id s₁ s₂ hs₁ hcalc
          exact calculateTripPayout_inv hs₁ hcalc
    | calculate tripId strictStaleness inputs now =>
        exact calculateTripPayout_inv hs (mapError_eq_ok.mp h)
    | _ => exact absurd trivial hpricing

theorem calculationsInv_of_reachable (hs : Reachable (fleet settings) s) : CalculationsInv s :=
  hs.invariant_of (TripsInv settings) (fun _ h => tripsInv_of_reachable h) CalculationsInv
    ⟨List.nodup_nil, fun _ h => absurd h List.not_mem_nil⟩
    (fun _ _ _ hinv hP _ hstep => tripStep_calculationsInv hinv hP hstep)

end

end Pay
end Mobility
