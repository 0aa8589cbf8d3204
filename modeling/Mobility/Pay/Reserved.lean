import Mobility.Billing.Authority
import Mobility.Pay.Eligibility
import Mobility.Pay.Overlaps

/-!
# Reserved — the pay of an assignment and the liability reserved for it

Billing reserves the day rate for every Lagos day that the frozen window covers.  Pay
credits trips to the Lagos days of their slices, and each day's increments add up to at
most one day rate; what remains is that every credited day is a covered one.
-/

namespace Mobility
namespace Pay

open Lib
open Trips
open Payout (Currency)

/-! ## The frozen assignment -/

/-- What the assignment and its frozen binding fix for all its trips. -/
structure FrozenAssignment where
  assignmentId : Id
  campaignId : Id
  driverProfileId : Id
  terms : DailyRateTerms
  windowStart : Int
  windowEnd : Int
  deriving DecidableEq, Repr

/-- The frozen window columns of an assignment rule binding. -/
structure FrozenWindow where
  campaignWindowFrozen : Bool
  campaignWindowStartAt : Option Int
  campaignWindowEndAt : Option Int
  deriving DecidableEq, Repr

/-- `ensure_assignment_payout_window_open`: the check of a trip start. -/
def ensureAssignmentPayoutWindowOpen (binding : Option FrozenWindow) (now : Int) :
    Except AppError Unit := do
  let window ← demand binding
    { code := "FROZEN_PAYOUT_BINDING_REQUIRED"
      message := "Accepted frozen payout terms are required before trip tracking" }
  require window.campaignWindowFrozen
    { code := "FROZEN_PAYOUT_WINDOW_REQUIRED"
      message := "A frozen assignment payout window is required before trip tracking" }
  let frozenEnd ← demand window.campaignWindowEndAt
    { code := "FROZEN_PAYOUT_WINDOW_INVALID"
      message := "The frozen assignment payout window is invalid" }
  require (window.campaignWindowStartAt.all (· < frozenEnd))
    { code := "FROZEN_PAYOUT_WINDOW_INVALID"
      message := "The frozen assignment payout window is invalid" }
  require (window.campaignWindowStartAt.all (· ≤ now))
    { code := "ASSIGNMENT_PAYOUT_WINDOW_NOT_STARTED"
      message := "The accepted assignment payout window has not started" }
  require (now < frozenEnd)
    { code := "ASSIGNMENT_PAYOUT_WINDOW_EXPIRED"
      message := "The accepted assignment payout window has ended" }

/-- The Lagos days of the frozen window. -/
def FrozenAssignment.days (f : FrozenAssignment) : Finset Day :=
  -- the order is named, because the one that is found by default does not compute
  @Finset.Icc Day Int.instLinearOrder.toPartialOrder.toPreorder Int.instLocallyFiniteOrder
    (lagosDayFor f.windowStart) (lagosDayFor f.windowEnd)

/-- The calculation is of a trip of the assignment. -/
def ofAssignment (trips : List TripSession) (assignmentId : Id) (c : PayoutCalculation) : Bool :=
  trips.any (fun t => t.id = c.tripSessionId && t.assignmentId = assignmentId)

/-- The total credited to the assignment's trips. -/
def assignmentPay (s : Store) (assignmentId : Id) : Int :=
  total (ofAssignment s.trips assignmentId) (·.finalPayout) s.calculations

section

variable [Geodesy]

/-- The trip is measured in the frozen window, on any pings. -/
def FrozenAssignment.Measures (f : FrozenAssignment) (s : Store) (t : TripSession)
    (measurement : Measurement) : Prop :=
  ∃ pings params, measurement
    = (classifiedSession s t (some f.windowStart) (some f.windowEnd) pings params).measurement

/-- Trips of the assignment are its driver's, on its frozen terms, and are priced by
measuring them in its window; pay is calculated, not corrected. -/
def FrozenAssignment.Prices (f : FrozenAssignment) (s : Store) : TripAction → Prop
  | .bind binding => binding.assignmentId = f.assignmentId → binding.terms = f.terms
  | .start _ start _ => start.assignmentId = f.assignmentId →
      start.campaignId = f.campaignId ∧ start.driverProfileId = f.driverProfileId
  | .process _ _ inputs _ => ∀ t ∈ s.trips, t.assignmentId = f.assignmentId →
      f.Measures s t (inputs t.id).measurement
  | .calculate tripId _ inputs _ => ∀ t ∈ s.trips, t.id = tripId →
      t.assignmentId = f.assignmentId → f.Measures s t inputs.measurement
  | .approveOrder .. => False
  | _ => True

/-- Trips of the assignment start while its window is open. -/
def FrozenAssignment.Opens (f : FrozenAssignment) : TripAction → Prop
  | .start _ start now => start.assignmentId = f.assignmentId →
      ensureAssignmentPayoutWindowOpen
        (some ⟨true, some f.windowStart, some f.windowEnd⟩) now = .ok ⟨⟩
  | _ => True

end

/-! ## Days -/

section

variable {s s' : Store} {f : FrozenAssignment}

theorem windowStart_le_of_open {now : Int} (h : ensureAssignmentPayoutWindowOpen
    (some ⟨true, some f.windowStart, some f.windowEnd⟩) now = .ok ⟨⟩) : f.windowStart ≤ now := by
  simp only [ensureAssignmentPayoutWindowOpen, bind_eq_ok, demand_eq_ok, require_eq_ok,
    Option.some.injEq] at h
  rcases h with ⟨_, rfl, _, _, _, _, _, _, _, hstarted, _⟩
  simpa using hstarted

/-- A trip that starts in the window is credited on days of the window only. -/
theorem day_mem_days [Geodesy] {t : TripSession} {measurement : Measurement}
    (hmeasured : f.Measures s t measurement) (hstart : f.windowStart ≤ t.startedAt)
    {slice : EligibleSlice} (h : slice ∈ tripSlices s t measurement) : slice.day ∈ f.days := by
  rcases hmeasured with ⟨pings, params, rfl⟩
  rcases mem_classifySession h with ⟨offset, _, hday, hcredited⟩
  have hwindow : (classifiedSession s t (some f.windowStart) (some f.windowEnd) pings
      params).InWindow offset := by
    rcases hcredited with ⟨stop, metres, hmetres⟩ | ⟨instant, hinstant, rfl⟩
    · exact EligibilitySession.credited_inWindow hmetres
    · exact EligibilitySession.instants_inWindow hinstant
  rcases effectiveWindowEnd_le s t.campaignId f.windowEnd with ⟨effective, heffective, hle⟩
  have hbefore : t.startedAt + offset * microsPerSecond < effective := by
    refine offset_lt ?_
    have hto := hwindow.2
    simp only [EligibilitySession.windowTo, classifiedSession, heffective, Option.map_some,
      Option.getD_some, EligibilitySession.off] at hto
    exact hto.trans_le (min_le_left _ _)
  have hafter : f.windowStart ≤ t.startedAt + offset * microsPerSecond := by
    unfold microsPerSecond
    omega
  rw [hday]
  exact Finset.mem_Icc.mpr
    ⟨lagosDayFor_mono hafter, lagosDayFor_mono (hbefore.le.trans hle)⟩

end

/-! ## Increments -/

def metresOn (day : Day) (c : PayoutCalculation) : Int := c.position.distanceMByDay.get day

def amountOn (day : Day) (c : PayoutCalculation) : Int := c.position.amountByDay.get day

/-- No entry and no order holds a position, so calculations keep theirs. -/
structure Uncorrected (s : Store) : Prop where
  entries : ∀ entry ∈ s.entries, entry.recomputeDay = none ∧ entry.status ≠ .voided
  orders : ∀ order ∈ s.orders, order.status ≠ .executed

/-- The trips of the assignment are its driver's and start in its window, each is paid for
days of the window, and no day pays more than its metres do. -/
structure ReservedInv (f : FrozenAssignment) (s : Store) : Prop where
  uncorrected : Uncorrected s
  bindings : ∀ b ∈ s.bindings, b.assignmentId = f.assignmentId → b.terms = f.terms
  trips : ∀ t ∈ s.trips, t.assignmentId = f.assignmentId →
    (t.campaignId = f.campaignId ∧ t.driverProfileId = f.driverProfileId)
      ∧ f.windowStart ≤ t.startedAt
  amounts : ∀ c ∈ s.calculations, ofAssignment s.trips f.assignmentId c = true →
    c.finalPayout = ∑ day ∈ f.days, amountOn day c
  pay : ∀ day, total (ofAssignment s.trips f.assignmentId) (amountOn day) s.calculations
    ≤ dayPayNaira (total (paysFor f.driverProfileId f.campaignId) (metresOn day) s.calculations)
        f.terms

section

variable {s s' : Store} {f : FrozenAssignment}

theorem Uncorrected.latest (h : Uncorrected s) (c : PayoutCalculation) :
    latestDailyRatePosition s c = c.position := by
  rcases latest_cases s c with hfirst | ⟨entry, hentry, _, hb, _, _⟩
    | ⟨order, horder, hexecuted, _⟩
  · exact hfirst
  · rw [(h.entries entry hentry).1] at hb
    exact absurd hb (by simp)
  · exact absurd hexecuted (h.orders order horder)

theorem Uncorrected.noneVoided (h : Uncorrected s) : NoneVoided s :=
  fun entry hentry => (h.entries entry hentry).2

theorem Uncorrected.appendEntry (h : Uncorrected s) {row : EarningsLedgerEntry}
    (hrow : row.recomputeDay = none ∧ row.status ≠ .voided) :
    Uncorrected { s with entries := s.entries ++ [row] } where
  entries := by
    intro entry hentry
    rcases List.mem_append.mp hentry with hentry | hentry
    · exact h.entries entry hentry
    · exact List.mem_singleton.mp hentry ▸ hrow
  orders := h.orders

/-- Without corrections, a first calculation reads the metres of all calculations. -/
theorem Uncorrected.prior (h : Uncorrected s) (honce : PricedOnce s) (hlocated : LocatedInv s)
    {trip : TripSession} (hfirst : calculationFor? s trip.id = none) (day : Day) :
    dayCreditedDistanceM s trip.driverProfileId trip.campaignId day trip.id
      = total (paysFor trip.driverProfileId trip.campaignId) (metresOn day) s.calculations := by
  rw [dayCreditedDistanceM_first honce h.noneVoided hlocated.creditsOverlap day hfirst]
  refine total_congr_amount ?_
  intro c _ _
  rw [latestMetres, h.latest, metresOn]

theorem ofAssignment_eq (hkeys : (s.trips.map (·.id)).Nodup) {t : TripSession} (ht : t ∈ s.trips)
    {c : PayoutCalculation} (hid : t.id = c.tripSessionId) (assignmentId : Id) :
    ofAssignment s.trips assignmentId c = decide (t.assignmentId = assignmentId) := by
  by_cases hassignment : t.assignmentId = assignmentId
  · rw [decide_eq_true hassignment]
    exact List.any_eq_true.mpr ⟨t, ht, by simp [hid, hassignment]⟩
  · rw [decide_eq_false hassignment]
    refine List.any_eq_false.mpr ?_
    intro other hother hof
    simp only [Bool.and_eq_true, decide_eq_true_eq] at hof
    have hsame : other = t := eq_of_key_eq hkeys hother ht (hof.1.trans hid.symm)
    exact hassignment (hsame ▸ hof.2)

end

section

variable [Evidence] [Geodesy] {settings : Settings} {s s' : Store} {f : FrozenAssignment}

omit [Geodesy] in
/-- The metres and money of a first calculation: an increment of the day's pay. -/
theorem NewCalculation.increment {inputs : PayoutInputs} {now : Int} {trip : TripSession}
    {c : PayoutCalculation} (hcalcs : CalculationsInv s) (hlocated : LocatedInv s)
    (huncorrected : Uncorrected s) (h : NewCalculation settings inputs now s trip c) :
    ∃ binding, s.binding? trip.assignmentId = some binding ∧ ∀ day, 0 ≤ metresOn day c
      ∧ amountOn day c
        = dayPayNaira (total (paysFor trip.driverProfileId trip.campaignId) (metresOn day)
              s.calculations + metresOn day c) binding.terms
          - dayPayNaira (total (paysFor trip.driverProfileId trip.campaignId) (metresOn day)
              s.calculations) binding.terms := by
  rcases h.priced with ⟨analytics, estimate, binding, _, hbinding, rfl⟩
  refine ⟨binding, hbinding, ?_⟩
  intro day
  refine ⟨get_pricedDistance_nonneg, ?_⟩
  rw [← huncorrected.prior hcalcs.once hlocated h.first day]
  simp only [amountOn, metresOn, pricedCalculation]
  exact get_pricedAmounts

/-- The money of a first calculation of the assignment lies on days of the window. -/
theorem NewCalculation.window {inputs : PayoutInputs} {now : Int} {trip : TripSession}
    {c : PayoutCalculation} (h : NewCalculation settings inputs now s trip c)
    (hmeasured : f.Measures s trip inputs.measurement) (hstart : f.windowStart ≤ trip.startedAt) :
    c.finalPayout = ∑ day ∈ f.days, amountOn day c := by
  rcases h.priced with ⟨analytics, estimate, binding, _, _, rfl⟩
  simp only [pricedCalculation, amountOn]
  refine sum_values ?_ ?_
  · rw [pricedAmounts_keys]
    exact pricedDistance_keys
  · intro entry hentry
    have hkey := List.mem_map_of_mem (f := (·.1)) hentry
    rw [pricedAmounts_keys] at hkey
    rcases List.mem_map.mp hkey with ⟨distance, hdistance, hday⟩
    rcases mem_pricedDistance hdistance with ⟨_, slice, hslice, hslice'⟩
    rw [← hday, ← hslice']
    exact day_mem_days hmeasured hstart hslice

/-- A new calculation keeps each day within the pay of its metres: the increments of the
assignment telescope, and other metres only raise the bound. -/
theorem ReservedInv.append (hterms : Payable f.terms) (hkeys : (s.trips.map (·.id)).Nodup)
    (hcalcs : CalculationsInv s) (hlocated : LocatedInv s) (hs : ReservedInv f s)
    {inputs : PayoutInputs} {now : Int} {trip : TripSession} {c : PayoutCalculation}
    (h : NewCalculation settings inputs now s trip c)
    (hmeasured : trip.assignmentId = f.assignmentId → f.Measures s trip inputs.measurement) :
    ReservedInv f { s with calculations := s.calculations ++ [c] } := by
  have htrip : trip ∈ s.trips := List.mem_of_find?_eq_some h.payable.found
  rcases h.columns with ⟨hid, hcampaign, hdriver, _⟩
  have hof : ofAssignment s.trips f.assignmentId c = decide (trip.assignmentId = f.assignmentId) :=
    ofAssignment_eq hkeys htrip hid.symm _
  rcases h.increment hcalcs hlocated hs.uncorrected with ⟨binding, hbinding, hincrement⟩
  refine ⟨⟨hs.uncorrected.entries, hs.uncorrected.orders⟩, hs.bindings, hs.trips, ?_, ?_⟩
  · intro row hrow hown
    rcases List.mem_append.mp hrow with hrow | hrow
    · exact hs.amounts row hrow hown
    · rw [List.mem_singleton.mp hrow] at hown ⊢
      have hassignment : trip.assignmentId = f.assignmentId := by simpa [hof] using hown
      exact h.window (hmeasured hassignment) (hs.trips trip htrip hassignment).2
  · intro day
    have hpay := hs.pay day
    rcases hincrement day with ⟨hmetres, hamount⟩
    have hmono : ∀ x : Int, x = 0 ∨ x = metresOn day c →
        dayPayNaira (total (paysFor f.driverProfileId f.campaignId) (metresOn day) s.calculations)
            f.terms
          ≤ dayPayNaira (total (paysFor f.driverProfileId f.campaignId) (metresOn day)
              s.calculations + x) f.terms := by
      rintro x (rfl | rfl)
      · rw [Int.add_zero]
      · exact dayPayNaira_mono hterms (by omega)
    simp only [total_append, total_cons, total_nil, Int.add_zero, hof]
    by_cases hassignment : trip.assignmentId = f.assignmentId
    · -- the assignment's own trip: the increment closes the gap
      rcases (hs.trips trip htrip hassignment).1 with ⟨hc, hd⟩
      have hpays : paysFor f.driverProfileId f.campaignId c = true := by
        simp [paysFor, hcampaign, hdriver, hc, hd]
      have hfixed : binding.terms = f.terms := by
        rcases mem_of_lookup hbinding with ⟨hmem, hkey⟩
        exact hs.bindings binding hmem (hkey.trans hassignment)
      rw [hc, hd, hfixed] at hamount
      simp only [hassignment, decide_true, if_true, hpays]
      omega
    · -- another trip adds no money of the assignment
      simp only [hassignment, decide_false, Bool.false_eq_true, if_false, Int.add_zero]
      refine hpay.trans (hmono _ ?_)
      split_ifs
      · exact .inr rfl
      · exact .inl rfl

/-! ## Runs -/

omit [Evidence] [Geodesy] in
theorem ReservedInv.appendEntry (h : ReservedInv f s) {row : EarningsLedgerEntry}
    (hrow : row.recomputeDay = none ∧ row.status ≠ .voided) :
    ReservedInv f { s with entries := s.entries ++ [row] } :=
  ⟨h.uncorrected.appendEntry hrow, h.bindings, h.trips, h.amounts, h.pay⟩

omit [Evidence] [Geodesy] in
theorem tripPayoutEntry_plain (entryId : Id) (c : PayoutCalculation) :
    (tripPayoutEntry entryId c).recomputeDay = none
      ∧ (tripPayoutEntry entryId c).status ≠ .voided := by
  simp [tripPayoutEntry]

theorem calculateTripPayout_reservedInv (hterms : Payable f.terms)
    (hkeys : (s.trips.map (·.id)).Nodup) (hcalcs : CalculationsInv s) (hlocated : LocatedInv s)
    (hs : ReservedInv f s) {strictStaleness : Bool} {inputs : PayoutInputs} {tripId : Id}
    {now : Int} (hmeasured : ∀ t ∈ s.trips, t.id = tripId → t.assignmentId = f.assignmentId →
      f.Measures s t inputs.measurement)
    (h : calculateTripPayout settings strictStaleness inputs tripId now s = .ok s') :
    ReservedInv f s' := by
  rcases calculateTripPayout_eq h with
    ⟨trip, analytics, binding, htrip, hanalytics, hbinding,
      ⟨existing, _, hensure⟩ | ⟨estimate, c, hfirst, hgate, hc, hfresh, hensure⟩⟩
  · rcases ensureLedgerEntry_eq hensure with rfl | rfl
    · exact hs
    · exact hs.appendEntry (tripPayoutEntry_plain _ _)
  · rcases mem_of_lookup htrip.found with ⟨hmem, hid⟩
    subst hid
    have hnew : NewCalculation settings inputs now s trip c :=
      ⟨htrip, hfirst, hgate, hfresh, analytics, estimate, binding, hanalytics, hbinding, hc⟩
    have hadded := hs.append hterms hkeys hcalcs hlocated hnew (hmeasured trip hmem rfl)
    rcases ensureLedgerEntry_eq hensure with rfl | rfl
    · exact hadded
    · exact hadded.appendEntry (tripPayoutEntry_plain _ _)

omit [Evidence] in
/-- What a trip is measured by does not change while the worker writes. -/
theorem FrozenAssignment.Measures.congr {t : TripSession} {measurement : Measurement}
    (h : f.Measures s t measurement) (hcutoffs : s'.cutoffs = s.cutoffs) :
    f.Measures s' t measurement := by
  rcases h with ⟨pings, params, hmeasured⟩
  refine ⟨pings, params, hmeasured.trans ?_⟩
  unfold classifiedSession effectiveWindowEnd Store.financialCutoff
  rw [economicEnd_congr hcutoffs rfl rfl rfl, hcutoffs]

theorem processEndedTrip_reservedInv (hterms : Payable f.terms)
    (hkeys : (s.trips.map (·.id)).Nodup) (hcalcs : CalculationsInv s) (hlocated : LocatedInv s)
    (hs : ReservedInv f s) {inputs : Id → PayoutInputs} {now : Int} {fuel : Nat} {tripId : Id}
    (hmeasured : ∀ t ∈ s.trips, t.assignmentId = f.assignmentId →
      f.Measures s t (inputs t.id).measurement)
    (h : processEndedTrip settings inputs now fuel tripId s = .ok s') : ReservedInv f s' := by
  refine (processEndedTrip_invariant (fun s₁ => s₁.trips = s.trips ∧ s₁.cutoffs = s.cutoffs
    ∧ CalculationsInv s₁ ∧ LocatedInv s₁ ∧ ReservedInv f s₁) ?_ ?_ ?_ fuel tripId s s'
    ⟨rfl, rfl, hcalcs, hlocated, hs⟩ h).2.2.2.2
  · rintro entryId c s₁ s₂ ⟨htrips, hcutoffs, hcalcs₁, hlocated₁, hs₁⟩ hensure
    rcases ensureLedgerEntry_eq hensure with rfl | rfl
    · exact ⟨htrips, hcutoffs, hcalcs₁, hlocated₁, hs₁⟩
    · exact ⟨htrips, hcutoffs, hcalcs₁.congr rfl rfl, hlocated₁.appendEntry rfl,
        hs₁.appendEntry (tripPayoutEntry_plain _ _)⟩
  · rintro trip s₁ ⟨htrips, hcutoffs, hcalcs₁, hlocated₁, hs₁⟩ _ _
    rw [analyticsStage_frame]
    exact ⟨htrips, hcutoffs, hcalcs₁.congr rfl rfl, hlocated₁.congr rfl rfl rfl rfl,
      ⟨⟨hs₁.uncorrected.entries, hs₁.uncorrected.orders⟩, hs₁.bindings, hs₁.trips, hs₁.amounts,
        hs₁.pay⟩⟩
  · rintro id s₁ s₂ ⟨htrips, hcutoffs, hcalcs₁, hlocated₁, hs₁⟩ hcalc
    have hframe := calculateTripPayout_frame hcalc
    refine ⟨by rw [hframe]; exact htrips, by rw [hframe]; exact hcutoffs,
      calculateTripPayout_inv hcalcs₁ hcalc, calculateTripPayout_locatedInv hlocated₁ hcalc, ?_⟩
    refine calculateTripPayout_reservedInv hterms (htrips ▸ hkeys) hcalcs₁ hlocated₁ hs₁ ?_ hcalc
    intro t ht hid hassignment
    exact (hid ▸ hmeasured t (htrips ▸ ht) hassignment).congr hcutoffs

theorem tripStep_reservedInv (hterms : Payable f.terms) (hinv : TripsInv settings s)
    (hcalcs : CalculationsInv s) (hlocated : LocatedInv s) (hs : ReservedInv f s) {a : TripAction}
    (hprices : f.Prices s a) (hopens : f.Opens a) (h : tripStep settings s a = .ok s') :
    ReservedInv f s' := by
  -- trips of the assignment keep its campaign and driver, and start in its window
  have htrips : ∀ t ∈ s'.trips, t.assignmentId = f.assignmentId →
      (t.campaignId = f.campaignId ∧ t.driverProfileId = f.driverProfileId)
        ∧ f.windowStart ≤ t.startedAt := by
    intro t' ht' hassignment
    rcases mem_trips_of_step hinv.keys h ht' with
      ⟨t, ht, hchange⟩ | ⟨authorized, start, now, rfl, _, rfl⟩
    · have hsame := hchange.sameTrip (hinv.wellFormed t ht)
      rw [hsame.2.2.1, hsame.2.2.2.1, hsame.2.2.2.2.2]
      exact hs.trips t ht (hsame.2.1.symm.trans hassignment)
    · exact ⟨hprices hassignment, windowStart_le_of_open (hopens hassignment)⟩
  -- a calculation stays with its assignment, as its trip does
  have hof : ∀ c ∈ s.calculations, ofAssignment s'.trips f.assignmentId c
      = ofAssignment s.trips f.assignmentId c := by
    intro c hc
    rcases hcalcs.trips c hc with ⟨t, ht, hid, _, _, _⟩
    rcases exists_row hinv.keys h ht with ⟨t', ht', hchange⟩
    have hsame := hchange.sameTrip (hinv.wellFormed t ht)
    rw [ofAssignment_eq hinv.keys ht hid,
      ofAssignment_eq (tripStep_tripsInv hinv h).keys ht' (hsame.1.trans hid), hsame.2.1]
  have hkept : ∀ {s' : Store}, (∀ c ∈ s.calculations, ofAssignment s'.trips f.assignmentId c
      = ofAssignment s.trips f.assignmentId c) → s'.calculations = s.calculations →
      (∀ c ∈ s'.calculations, ofAssignment s'.trips f.assignmentId c = true →
        c.finalPayout = ∑ day ∈ f.days, amountOn day c)
      ∧ ∀ day, total (ofAssignment s'.trips f.assignmentId) (amountOn day) s'.calculations
        ≤ dayPayNaira (total (paysFor f.driverProfileId f.campaignId) (metresOn day)
            s'.calculations) f.terms := by
    intro s' hof hsame
    rw [hsame]
    refine ⟨fun c hc hown => hs.amounts c hc ((hof c hc).symm.trans hown), ?_⟩
    intro day
    rw [total_congr hof]
    exact hs.pay day
  -- only a pricing adds a calculation; the rest of the cases move other tables
  cases tripStep_write hinv.keys h with
  | process hwrite =>
      exact processEndedTrip_reservedInv hterms hinv.keys hcalcs hlocated hs hprices hwrite
  | calculate hwrite =>
      exact calculateTripPayout_reservedInv hterms hinv.keys hcalcs hlocated hs hprices hwrite
  | approveOrder => exact hprices.elim
  | bind binding =>
      refine ⟨⟨hs.uncorrected.entries, hs.uncorrected.orders⟩, ?_, htrips, hs.amounts, hs.pay⟩
      intro b hb hassignment
      rcases List.mem_append.mp hb with hb | hb
      · exact hs.bindings b hb hassignment
      · rw [List.mem_singleton.mp hb] at hassignment ⊢
        exact hprices hassignment
  | createOrder order hdraft =>
      refine ⟨⟨hs.uncorrected.entries, ?_⟩, hs.bindings, htrips, hs.amounts, hs.pay⟩
      intro row hrow
      rcases List.mem_append.mp hrow with hrow | hrow
      · exact hs.uncorrected.orders row hrow
      · rw [List.mem_singleton.mp hrow, hdraft]
        simp
  | deduct row _ hlive hplain => exact hs.appendEntry ⟨hplain, by simp [hlive]⟩
  | markEntry entryId status hstatus =>
      refine ⟨⟨?_, hs.uncorrected.orders⟩, hs.bindings, htrips, hs.amounts, hs.pay⟩
      intro row hrow
      rcases List.mem_map.mp hrow with ⟨old, hold, rfl⟩
      split_ifs
      · refine ⟨(hs.uncorrected.entries old hold).1, ?_⟩
        rcases hstatus with rfl | rfl
        · simp
        · simp
      · exact hs.uncorrected.entries old hold
  | _ =>
      rcases hkept hof rfl with ⟨hamounts, hpay⟩
      exact ⟨⟨hs.uncorrected.entries, hs.uncorrected.orders⟩, hs.bindings, htrips, hamounts, hpay⟩

theorem reservedInv_of_run (hterms : Payable f.terms)
    (hs : ReachableBy (fleet settings) (fun s a => f.Prices s a ∧ f.Opens a) s) :
    ReservedInv f s := by
  refine hs.invariant_of (fun s => TripsInv settings s ∧ CalculationsInv s ∧ LocatedInv s)
    (fun _ h => ⟨tripsInv_of_reachable h, calculationsInv_of_reachable h,
      locatedInv_of_reachable h⟩) (ReservedInv f) ?_ ?_
  · exact {
      uncorrected := ⟨fun _ h => absurd h List.not_mem_nil, fun _ h => absurd h List.not_mem_nil⟩
      bindings := fun _ h => absurd h List.not_mem_nil
      trips := fun _ h => absurd h List.not_mem_nil
      amounts := fun _ h => absurd h List.not_mem_nil
      pay := fun _ => dayPayNaira_nonneg hterms _ }
  · rintro s a s' ⟨hinv, hcalcs, hlocated⟩ hreserved ⟨hprices, hopens⟩ hstep
    exact tripStep_reservedInv hterms hinv hcalcs hlocated hreserved hprices hopens hstep

/-! ## The bound -/

omit [Evidence] [Geodesy] in
theorem halfUpNaira_hundredths (n : Int) : halfUpNaira ((n : ℚ) / 100) = n := by
  have hvalue : (n : ℚ) / 100 * 100 + 1 / 2 = n + 1 / 2 := by ring
  rw [halfUpNaira, hvalue, Int.floor_intCast_add]
  norm_num

/-- The assignment and its frozen payout_v4 binding, as billing stores them: a rate with
two decimals, and a positive target. -/
structure FrozenAssignment.FrozenIn (f : FrozenAssignment) (b : Billing.Store)
    (assignment : Billing.CampaignAssignment) : Prop where
  owner : assignment.id = f.assignmentId ∧ assignment.campaignId = f.campaignId
  binding : ∃ binding, b.bindings.find? (·.assignmentId = assignment.id) = some binding
    ∧ binding.dailyRateNaira = some f.terms.dailyRateNaira
    ∧ binding.campaignWindowStartAt = some f.windowStart
    ∧ binding.campaignWindowEndAt = some f.windowEnd
  hundredths : ∃ n : Int, f.terms.dailyRateNaira = n / 100
  target : 0 < f.terms.dailyTargetMiles

omit [Evidence] [Geodesy] in
/-- Billing requests the day rate for every covered day. -/
theorem requested_eq {b : Billing.Store} {assignment : Billing.CampaignAssignment} {now : Int}
    {calculation : Billing.AssignmentLiabilityCalculation} (hfrozen : f.FrozenIn b assignment)
    (h : Billing.assignmentLiabilityCalculation assignment now b = .ok calculation) :
    calculation.requested = halfUpNaira f.terms.dailyRateNaira
        * Billing.coveredDays f.windowStart f.windowEnd
      ∧ 0 < calculation.requested := by
  rcases hfrozen.binding with ⟨binding, hbinding, hrate, hstart, hend⟩
  rcases hfrozen.hundredths with ⟨n, hn⟩
  simp only [Billing.assignmentLiabilityCalculation, demand_eq_ok, bind_eq_ok, require_eq_ok,
    pure_eq_ok] at h
  rcases h with ⟨_, _, row, hrow, _, _, rate, hrate', windowStart, hstart', windowEnd, hend', _,
    hpositive, rfl⟩
  rw [hbinding] at hrow
  rcases Option.some.inj hrow with rfl
  rw [hrate] at hrate'
  rw [hstart] at hstart'
  rw [hend] at hend'
  rcases Option.some.inj hrate' with rfl
  rcases Option.some.inj hstart' with rfl
  rcases Option.some.inj hend' with rfl
  refine ⟨?_, hpositive⟩
  have hproduct : (n : ℚ) / 100 * 1 * (Billing.coveredDays f.windowStart f.windowEnd : ℚ)
      = ((n * Billing.coveredDays f.windowStart f.windowEnd : Int) : ℚ) / 100 := by
    push_cast
    ring
  show Billing.requestedLiability f.terms.dailyRateNaira _ = _
  rw [Billing.requestedLiability, hn, hproduct, halfUpNaira_hundredths, halfUpNaira_hundredths]

omit [Evidence] [Geodesy] in
theorem card_days_le : (f.days.card : Int) ≤ Billing.coveredDays f.windowStart f.windowEnd := by
  unfold FrozenAssignment.days Billing.coveredDays
  rw [Int.card_Icc]
  omega

/-- The pay of an assignment's trips that started in its window never exceeds the liability
requested for it: the day rate for every Lagos day of the window. -/
theorem pay_within_reserved (settings : Settings) (f : FrozenAssignment) (b : Billing.Store)
    (assignment : Billing.CampaignAssignment) (hfrozen : f.FrozenIn b assignment) (now : Int)
    (calculation : Billing.AssignmentLiabilityCalculation)
    (hcalculation : Billing.assignmentLiabilityCalculation assignment now b = .ok calculation)
    (s : Store) (hs : ReachableBy (fleet settings) (fun s a => f.Prices s a ∧ f.Opens a) s) :
    assignmentPay s f.assignmentId ≤ calculation.requested := by
  rcases requested_eq hfrozen hcalculation with ⟨hrequested, hpositive⟩
  have hcovered : 0 < Billing.coveredDays f.windowStart f.windowEnd :=
    Int.lt_of_lt_of_le Int.one_pos (le_max_left 1 _)
  -- the request is positive and so are its days, so the rate cannot be negative
  have hrate : 0 ≤ halfUpNaira f.terms.dailyRateNaira := by
    by_contra hnegative
    rw [hrequested] at hpositive
    exact absurd hpositive (not_lt.mpr (mul_nonpos_of_nonpos_of_nonneg (not_le.mp hnegative).le
      hcovered.le))
  have hterms : Payable f.terms := by
    rcases hfrozen.hundredths with ⟨n, hn⟩
    rw [hn, halfUpNaira_hundredths] at hrate
    refine ⟨hfrozen.target, ?_⟩
    rw [hn]
    exact div_nonneg (by exact_mod_cast hrate) (by norm_num)
  have hinv := reservedInv_of_run hterms hs
  have hday : ∀ day ∈ f.days,
      total (ofAssignment s.trips f.assignmentId) (amountOn day) s.calculations
        ≤ halfUpNaira f.terms.dailyRateNaira :=
    fun day _ => (hinv.pay day).trans (dayPayNaira_le_rate hterms _)
  -- the pay of a calculation is the sum of its days
  have hsplit : assignmentPay s f.assignmentId
      = ∑ day ∈ f.days, total (ofAssignment s.trips f.assignmentId) (amountOn day)
          s.calculations := by
    rw [← total_sum]
    exact total_congr_amount (fun c hc hown => hinv.amounts c hc hown)
  calc
    assignmentPay s f.assignmentId
        = ∑ day ∈ f.days, total (ofAssignment s.trips f.assignmentId) (amountOn day)
            s.calculations := hsplit
    _ ≤ f.days.card • halfUpNaira f.terms.dailyRateNaira := Finset.sum_le_card_nsmul _ _ _ hday
    _ = f.days.card * halfUpNaira f.terms.dailyRateNaira := nsmul_eq_mul _ _
    _ ≤ Billing.coveredDays f.windowStart f.windowEnd * halfUpNaira f.terms.dailyRateNaira :=
        mul_le_mul_of_nonneg_right card_days_le hrate
    _ = calculation.requested := by rw [hrequested, Int.mul_comm]

end

/-! ## Trips at the edge of the window -/

/-- Degrees of latitude as metres, for runs along a meridian. -/
@[reducible]
def meridian : Geodesy where
  haversineM latitude _ latitude' _ := |latitude - latitude'| * 111195

section

local instance strideEvidence : Evidence := sampleEvidence

local instance strideGeodesy : Geodesy := meridian

/-- 100.00 a day for one mile, from a Lagos midnight for one hour. -/
def strideAssignment : FrozenAssignment :=
  { assignmentId := 3
    campaignId := 5
    driverProfileId := 7
    terms := { dailyRateNaira := 100, dailyTargetMiles := 1 }
    windowStart := secondsAfterMidnight 0
    windowEnd := secondsAfterMidnight 3600 }

/-- A mile and more in one minute, inside the target zones. -/
def stridePings (second : Int) : List EligibilityPing :=
  [ { recordedAt := secondsAfterMidnight second, latitude := 6, longitude := 3,
      accuracyM := some 10, inArea := true, inPremium := true },
    { recordedAt := secondsAfterMidnight (second + 60), latitude := 6 + 17 / 1112, longitude := 3,
      accuracyM := some 10, inArea := true, inPremium := true } ]

def strideSession (start : Int) (second : Int) : EligibilitySession :=
  { sessionStartedAt := start
    sessionEndedAt := secondsAfterMidnight (second + 80)
    pings := stridePings second
    windowStartAt := some strideAssignment.windowStart
    windowEndAt := some strideAssignment.windowEnd }

/-- Trip 1 starts at `start`, trip 2 in the same window. -/
def strideSessions (start : Int) (tripId : Id) : EligibilitySession :=
  if tripId = 1 then strideSession start 0 else strideSession (secondsAfterMidnight 100) 100

def strideInputs (start : Int) (tripId : Id) : PayoutInputs :=
  { measurement := (strideSessions start tripId).measurement
    calculationId := 1000 + tripId
    entryId := 2000 + tripId }

def strideBatch (tripId : Id) (second : Int) : LocationPingBatchCreate :=
  midnightPayload (String.ofList (List.replicate tripId 'k')) 0 [second, second + 60]

def bindStride : TripAction :=
  .bind { assignmentId := 3, terms := strideAssignment.terms, currency := "NGN" }

/-- A trip that is uploaded, ended and priced. -/
def strideTrip (tripId : Id) (first start second : Int) : List TripAction :=
  [ startTrip tripId start,
    deliverBatch tripId (strideBatch tripId second) (secondsAfterMidnight (second + 70)),
    .endTrip 7 tripId none (some (manifestOf tripId true [strideBatch tripId second]))
      (secondsAfterMidnight (second + 80)),
    .process tripId 2 (strideInputs first) (secondsAfterMidnight (second + 90)) ]

/-- The trips of a state are measured as the inputs measure them. -/
def measuresStrides (first : Int) (s : Store) : TripAction → Bool
  | .process .. => s.trips.all (fun t =>
      classifiedSession s t (some strideAssignment.windowStart) (some strideAssignment.windowEnd)
        (strideSessions first t.id).pings {} = strideSessions first t.id)
  | _ => true

theorem strideTrip_prices {tripId : Id} {first start second : Int} {a : TripAction}
    (ha : a ∈ strideTrip tripId first start second) (s : Store)
    (h : measuresStrides first s a = true) : strideAssignment.Prices s a := by
  simp only [strideTrip, List.mem_cons, List.not_mem_nil, or_false] at ha
  rcases ha with rfl | rfl | rfl | rfl
  · exact fun _ => ⟨rfl, rfl⟩
  · trivial
  · trivial
  · intro t ht _
    have hsession := of_decide_eq_true (List.all_eq_true.mp h t ht)
    exact ⟨_, _, congrArg EligibilitySession.measurement hsession.symm⟩

/-- The binding row that billing reads. -/
def strideBilling : Billing.Store :=
  { bindings :=
      [{ id := 1
         assignmentId := 3
         formulaVersion := "payout_v4"
         dailyRateNaira := some 100
         campaignWindowStartAt := some strideAssignment.windowStart
         campaignWindowEndAt := some strideAssignment.windowEnd }] }

def strideRow : Billing.CampaignAssignment :=
  { id := 3, campaignId := 5, status := .active }

theorem strideAssignment_frozen : strideAssignment.FrozenIn strideBilling strideRow where
  owner := ⟨rfl, rfl⟩
  binding := ⟨_, rfl, rfl, rfl, rfl⟩
  hundredths := ⟨10000, by norm_num [strideAssignment]⟩
  target := by norm_num [strideAssignment]

/-- One hour of one Lagos day: 100.00. -/
theorem strideCalculation : ∃ calculation,
    Billing.assignmentLiabilityCalculation strideRow 0 strideBilling = .ok calculation
      ∧ calculation.requested = 10000 := by
  have htest : (Billing.assignmentLiabilityCalculation strideRow 0 strideBilling).toOption.any
      (fun calculation => calculation.requested = 10000) = true := by decide +kernel
  cases hresult : Billing.assignmentLiabilityCalculation strideRow 0 strideBilling with
  | error error => simp [hresult, Except.toOption] at htest
  | ok calculation => exact ⟨calculation, rfl, by simpa [hresult, Except.toOption] using htest⟩

/-- A trip from midnight earns what is reserved. -/
theorem pay_within_reserved_midnight : ∃ s calculation,
    Billing.assignmentLiabilityCalculation strideRow 0 strideBilling = .ok calculation
      ∧ assignmentPay s 3 = 10000 ∧ assignmentPay s 3 ≤ calculation.requested := by
  rcases strideCalculation with ⟨calculation, hcalculation, _⟩
  have hcheck : ∀ a ∈ bindStride :: strideTrip 1 (secondsAfterMidnight 0) (secondsAfterMidnight 0) 0,
      ∀ s, measuresStrides (secondsAfterMidnight 0) s a = true →
        strideAssignment.Prices s a ∧ strideAssignment.Opens a := by
    intro a ha s h
    rcases List.mem_cons.mp ha with rfl | ha
    · exact ⟨fun _ => rfl, trivial⟩
    · refine ⟨strideTrip_prices ha s h, ?_⟩
      simp only [strideTrip, List.mem_cons, List.not_mem_nil, or_false] at ha
      rcases ha with rfl | rfl | rfl | rfl
      · exact fun _ => rfl
      · trivial
      · trivial
      · trivial
  rcases (fleet sampleSettings).exists_reachableBy _ _ hcheck (fun s => assignmentPay s 3 = 10000)
    (by decide +kernel) with ⟨s, hs, htest⟩
  exact ⟨s, calculation, hcalculation, of_decide_eq_true htest,
    pay_within_reserved sampleSettings strideAssignment strideBilling strideRow
      strideAssignment_frozen 0 calculation hcalculation s hs⟩

/-- A trip that starts half a second before the window is credited to the day before it:
its midnight offset and its window offset are rounded down to its start. -/
theorem not_pay_always_within_reserved :
    ¬ ∀ (settings : Settings) (f : FrozenAssignment) (b : Billing.Store)
      (assignment : Billing.CampaignAssignment), f.FrozenIn b assignment →
      ∀ (now : Int) (calculation : Billing.AssignmentLiabilityCalculation),
      Billing.assignmentLiabilityCalculation assignment now b = .ok calculation →
      ∀ s, ReachableBy (fleet settings) f.Prices s →
        assignmentPay s f.assignmentId ≤ calculation.requested := by
  intro hclaim
  rcases strideCalculation with ⟨calculation, hcalculation, hrequested⟩
  have hcheck : ∀ a ∈ bindStride
      :: (strideTrip 1 (secondsAfterMidnight 0 - 500000) (secondsAfterMidnight 0 - 500000) 0
        ++ strideTrip 2 (secondsAfterMidnight 0 - 500000) (secondsAfterMidnight 100) 100),
      ∀ s, measuresStrides (secondsAfterMidnight 0 - 500000) s a = true →
        strideAssignment.Prices s a := by
    intro a ha s h
    rcases List.mem_cons.mp ha with rfl | ha
    · exact fun _ => rfl
    · rcases List.mem_append.mp ha with ha | ha
      · exact strideTrip_prices ha s h
      · exact strideTrip_prices ha s h
  rcases (fleet sampleSettings).exists_reachableBy _ _ hcheck (fun s => assignmentPay s 3 = 20000)
    (by decide +kernel) with ⟨s, hs, htest⟩
  have hpay : assignmentPay s strideAssignment.assignmentId = 20000 := of_decide_eq_true htest
  have hbound := hclaim sampleSettings strideAssignment strideBilling strideRow
    strideAssignment_frozen 0 calculation hcalculation s hs
  rw [hpay, hrequested] at hbound
  exact absurd hbound (by norm_num)

end

end Pay
end Mobility
