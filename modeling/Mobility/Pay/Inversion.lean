import Mobility.Pay.Corrections
import Mobility.Trips.Processing

/-!
# Inversion — what the pay operations can do

One lemma per operation of the pay chain: the guards it passed and the rows it
wrote.  None of them writes a trip.
-/

namespace Mobility
namespace Pay

open Lib
open Trips
open Payout (EarningsLedgerEntryStatus)

theorem mapError_eq_ok {α : Type} {ε ε' : Type} {f : ε → ε'} {x : Except ε α} {a : α} :
    x.mapError f = .ok a ↔ x = .ok a := by
  cases x <;> simp [Except.mapError]

@[simp]
theorem asPay_eq_ok {α : Type} {x : Except AppError α} {a : α} :
    asPay x = .ok a ↔ x = .ok a :=
  mapError_eq_ok

theorem requirePaycapPredecessorsProcessed_eq_ok {s : Store} {trip : TripSession}
    {lagosDays : List Day} {x : Unit} :
    requirePaycapPredecessorsProcessed s trip lagosDays = .ok x
      ↔ unprocessedPredecessor? s trip lagosDays = none := by
  unfold requirePaycapPredecessorsProcessed
  cases unprocessedPredecessor? s trip lagosDays <;> simp

/-! ## Ledger entries of calculations -/

/-- The pending entry that a positive calculation posts. -/
def tripPayoutEntry (entryId : Id) (calculation : PayoutCalculation) : EarningsLedgerEntry :=
  { id := entryId
    payoutCalculationId := some calculation.id
    tripSessionId := calculation.tripSessionId
    campaignId := calculation.campaignId
    driverProfileId := calculation.driverProfileId
    entryType := .tripPayout
    status := .pending
    amount := calculation.finalPayout
    currency := calculation.currency
    occurredAt := calculation.calculatedAt }

theorem ensureLedgerEntry_eq {entryId : Id} {calculation : PayoutCalculation} {s s' : Store}
    (h : ensureLedgerEntry entryId calculation s = .ok s') :
    s' = s ∨ s' = { s with entries := s.entries ++ [tripPayoutEntry entryId calculation] } := by
  unfold ensureLedgerEntry at h
  split_ifs at h
  · exact .inl (by simpa using h.symm)
  · exact .inl (by simpa using h.symm)
  · exact .inl (by simpa using h.symm)
  · simp only [bind_eq_ok, require_eq_ok, pure_eq_ok] at h
    rcases h with ⟨_, _, rfl⟩
    exact .inr rfl

/-- What one posted entry keeps, a repair keeps. -/
theorem repairMissingLedgerEntries_invariant {entryId tripId : Id} {s s' : Store}
    (P : Store → Prop)
    (hstep : ∀ s calculation s', P s → ensureLedgerEntry entryId calculation s = .ok s' → P s')
    (hs : P s) (h : repairMissingLedgerEntries entryId tripId s = .ok s') : P s' :=
  checkedFold_invariant P (fun s calculation s' hs h => hstep s calculation s' hs h) _ h hs

/-! ## Calculations -/

section

variable [Evidence] {settings : Settings} {s s' : Store}

/-- The sealed trip with its authenticated manifest that a payout reads. -/
structure PayableTrip (settings : Settings) (s : Store) (tripId : Id) (trip : TripSession) :
    Prop where
  found : s.trip? tripId = some trip
  sealed : trip.status = .sealed
  ended : trip.endedAt.isSome
  authenticated : verifyManifestReceipt settings trip = .ok true

theorem getTripForPayout_eq_ok {tripId : Id} {trip : TripSession} :
    getTripForPayout settings tripId s = .ok trip ↔ PayableTrip settings s tripId trip := by
  simp only [getTripForPayout, bind_eq_ok, demand_eq_ok, require_eq_ok, pure_eq_ok]
  constructor
  · rintro ⟨_, hfound, _, ⟨hsealed, hended⟩, authenticated, hverify, _, htrue, rfl⟩
    subst htrue
    exact ⟨hfound, hsealed, hended, hverify⟩
  · intro h
    exact ⟨trip, h.found, ⟨⟩, ⟨h.sealed, h.ended⟩, true, h.authenticated, ⟨⟩, rfl, rfl⟩

/-- A trip is priced once: its first calculation is written after every predecessor
was processed, and later requests only repair its ledger entry. -/
theorem calculateTripPayout_eq {strictStaleness : Bool} {inputs : PayoutInputs} {tripId : Id}
    {now : Int} (h : calculateTripPayout settings strictStaleness inputs tripId now s = .ok s') :
    ∃ trip analytics binding, PayableTrip settings s tripId trip
      ∧ s.analytics? trip.id = some analytics
      ∧ s.binding? trip.assignmentId = some binding
      ∧ ((∃ existing, calculationFor? s trip.id = some existing
            ∧ ensureLedgerEntry inputs.entryId existing s = .ok s')
        ∨ ∃ estimate calculation, calculationFor? s trip.id = none
            ∧ unprocessedPredecessor? s trip
                (lagosDaysOf trip (tripSlices s trip inputs.measurement)) = none
            ∧ calculation = pricedCalculation trip analytics estimate binding inputs
                (tripSlices s trip inputs.measurement) now s
            ∧ (∀ row ∈ s.calculations, row.id ≠ calculation.id)
            ∧ ensureLedgerEntry inputs.entryId calculation
                { s with calculations := s.calculations ++ [calculation] } = .ok s') := by
  simp only [calculateTripPayout, bind_eq_ok, asPay_eq_ok, getTripForPayout_eq_ok, demand_eq_ok]
    at h
  rcases h with ⟨trip, htrip, analytics, hanalytics, _, _, estimate, _, binding, hbinding, h⟩
  refine ⟨trip, analytics, binding, htrip, hanalytics, hbinding, ?_⟩
  cases hfor : calculationFor? s trip.id with
  | some existing =>
      simp only [hfor, bind_eq_ok, asPay_eq_ok] at h
      rcases h with ⟨_, _, h⟩
      exact .inl ⟨existing, rfl, h⟩
  | none =>
      simp only [hfor, calculateTripPayoutV4, bind_eq_ok, asPay_eq_ok, require_eq_ok,
        requirePaycapPredecessorsProcessed_eq_ok] at h
      rcases h with ⟨_, hpredecessors, _, hids, h⟩
      exact .inr ⟨estimate, _, rfl, hpredecessors, rfl, hids, h⟩

/-- The tables a calculation leaves alone. -/
theorem calculateTripPayout_frame {strictStaleness : Bool} {inputs : PayoutInputs} {tripId : Id}
    {now : Int} (h : calculateTripPayout settings strictStaleness inputs tripId now s = .ok s') :
    s' = { s with calculations := s'.calculations, entries := s'.entries } := by
  rcases calculateTripPayout_eq h with
    ⟨_, _, _, _, _, _, ⟨_, _, h⟩ | ⟨_, _, _, _, _, _, h⟩⟩
  all_goals rcases ensureLedgerEntry_eq h with rfl | rfl <;> rfl

/-! ## The worker -/

/-- The worker rule: what a repair, an analytics stage and a calculation keep, the worker
keeps, also when it processes predecessors on the way.  The analytics stage establishes
`Q` of its trip, and the calculation of that trip may rely on it. -/
theorem processEndedTrip_rule {inputs : Id → PayoutInputs} {now : Int} (P : Store → Prop)
    (Q : TripSession → Store → Prop)
    (hrepair : ∀ entryId calculation s s', P s → ensureLedgerEntry entryId calculation s = .ok s' →
      P s' ∧ ∀ t, Q t s → Q t s')
    (hanalytics : ∀ trip s, P s → trip ∈ s.trips → trip.status = .sealed →
      P (analyticsStage trip now s) ∧ Q trip (analyticsStage trip now s)
        ∧ ∀ t, Q t s → Q t (analyticsStage trip now s))
    (hcalculate : ∀ trip s s', P s → Q trip s →
      calculateTripPayout settings false (inputs trip.id) trip.id now s = .ok s' →
      P s' ∧ ∀ t, Q t s → Q t s') :
    ∀ (fuel : Nat) (tripId : Id) (s s' : Store), P s →
      processEndedTrip settings inputs now fuel tripId s = .ok s' → P s' ∧ ∀ t, Q t s → Q t s' := by
  -- both loops at once: the payout stage runs on less fuel than its caller
  have hboth : ∀ fuel : Nat,
      (∀ (tripId : Id) (s s' : Store), P s →
        processEndedTrip settings inputs now fuel tripId s = .ok s' → P s' ∧ ∀ t, Q t s → Q t s')
      ∧ ∀ (trip : TripSession) (s s' : Store), P s → Q trip s →
        processEndedTrip.payoutStage settings inputs now fuel trip s = .ok s' →
        P s' ∧ ∀ t, Q t s → Q t s' := by
    intro fuel
    induction fuel with
    | zero =>
        constructor
        · intro tripId s s' _ h
          simp [processEndedTrip] at h
        · intro trip s s' _ _ h
          simp [processEndedTrip.payoutStage] at h
    | succ fuel ih =>
        rcases ih with ⟨ihprocess, ihpayout⟩
        constructor
        · intro tripId s s' hs h
          simp only [processEndedTrip, bind_eq_ok, demand_eq_ok] at h
          rcases h with ⟨trip, htrip, ready, hready, h⟩
          cases ready with
          | false =>
              have hsame : s = s' := by simpa using h
              exact hsame ▸ ⟨hs, fun _ hQ => hQ⟩
          | true =>
              simp only [if_true, bind_eq_ok] at h
              rcases h with ⟨s₁, hrepaired, h⟩
              have hbefore : (P s₁ ∧ ∀ t, Q t s → Q t s₁) ∧ s₁.trips = s.trips := by
                refine repairMissingLedgerEntries_invariant
                  (fun s₁ => (P s₁ ∧ ∀ t, Q t s → Q t s₁) ∧ s₁.trips = s.trips)
                  ?_ ⟨⟨hs, fun _ hQ => hQ⟩, rfl⟩ hrepaired
                rintro s₁ calculation s₂ ⟨⟨hP, hQ⟩, htrips⟩ hensure
                have hkept := hrepair _ _ _ _ hP hensure
                refine ⟨⟨hkept.1, fun t ht => hkept.2 t (hQ t ht)⟩, ?_⟩
                rcases ensureLedgerEntry_eq hensure with rfl | rfl
                all_goals exact htrips
              have hsealed : trip.status = .sealed := by
                unfold readyForMoney at hready
                split_ifs at hready with hcond
                · simp at hready
                · exact not_not.mp (fun hne => hcond (.inl hne))
              have hmem : trip ∈ s₁.trips := hbefore.2 ▸ List.mem_of_find?_eq_some htrip
              rcases hanalytics trip s₁ hbefore.1.1 hmem hsealed with ⟨hP, hQ, hkept⟩
              rcases ihpayout trip _ s' hP hQ h with ⟨hP', hkept'⟩
              exact ⟨hP', fun t ht => hkept' t (hkept t (hbefore.1.2 t ht))⟩
        · intro trip s s' hs hQ h
          simp only [processEndedTrip.payoutStage] at h
          split at h
          · rename_i s₁ hcalc
            have hsame : s₁ = s' := by simpa using h
            exact hsame ▸ hcalculate trip s s₁ hs hQ hcalc
          · rename_i predecessorId _
            rcases bind_eq_ok.mp h with ⟨s₁, hprocess, h⟩
            rcases ihprocess predecessorId s s₁ hs hprocess with ⟨hs₁, hkept⟩
            split_ifs at h
            · rcases ihpayout trip s₁ s' hs₁ (hkept trip hQ) h with ⟨hs', hkept'⟩
              exact ⟨hs', fun t ht => hkept' t (hkept t ht)⟩
            · have hsame : s₁ = s' := by simpa using h
              exact hsame ▸ ⟨hs₁, hkept⟩
          · split_ifs at h
            have hsame : s = s' := by simpa using h
            exact hsame ▸ ⟨hs, fun _ hQ => hQ⟩
  intro fuel tripId s s' hs h
  exact (hboth fuel).1 tripId s s' hs h

/-- The worker rule without a fact about the analytics. -/
theorem processEndedTrip_invariant {inputs : Id → PayoutInputs} {now : Int} (P : Store → Prop)
    (hrepair : ∀ entryId calculation s s', P s → ensureLedgerEntry entryId calculation s = .ok s' →
      P s')
    (hanalytics : ∀ trip s, P s → trip ∈ s.trips → trip.status = .sealed →
      P (analyticsStage trip now s))
    (hcalculate : ∀ tripId s s', P s →
      calculateTripPayout settings false (inputs tripId) tripId now s = .ok s' → P s')
    (fuel : Nat) (tripId : Id) (s s' : Store) (hs : P s)
    (h : processEndedTrip settings inputs now fuel tripId s = .ok s') : P s' := by
  refine (processEndedTrip_rule P (fun _ _ => True) ?_ ?_ ?_ fuel tripId s s' hs h).1
  · exact fun _ _ _ _ hP hensure => ⟨hrepair _ _ _ _ hP hensure, fun _ _ => trivial⟩
  · exact fun _ _ hP hmem hsealed => ⟨hanalytics _ _ hP hmem hsealed, trivial, fun _ _ => trivial⟩
  · exact fun _ _ _ hP _ hcalc => ⟨hcalculate _ _ _ hP hcalc, fun _ _ => trivial⟩

/-- The tables the worker leaves alone. -/
theorem processEndedTrip_frame {inputs : Id → PayoutInputs} {now : Int} {fuel : Nat} {tripId : Id}
    (h : processEndedTrip settings inputs now fuel tripId s = .ok s') :
    s' = { s with
      analytics := s'.analytics, calculations := s'.calculations, entries := s'.entries } := by
  refine processEndedTrip_invariant
    (fun s' => s' = { s with
      analytics := s'.analytics, calculations := s'.calculations, entries := s'.entries })
    ?_ ?_ ?_ fuel tripId s s' rfl h
  · intro entryId calculation s₁ s₂ hs₁ hensure
    rcases ensureLedgerEntry_eq hensure with rfl | rfl
    · exact hs₁
    · rw [hs₁]
  · intro trip s₁ hs₁ _ _
    unfold analyticsStage
    split
    · rw [hs₁]
      rfl
    · split_ifs
      · rw [hs₁]
        rfl
      · exact hs₁
  · intro tripId s₁ s₂ hs₁ hcalc
    rw [calculateTripPayout_frame hcalc, hs₁]

end

/-! ## Corrections -/

/-- Differentials only append ledger entries. -/
theorem writeDayDifferential_eq {campaignId driverProfileId : Id} {executedAt : Int}
    {releaseAt : Option Int} {entryId : Id → Id} {s s' : Store} {target : DayTripTarget}
    (h : writeDayDifferential campaignId driverProfileId executedAt releaseAt entryId s target
      = .ok s') :
    (target.deltaAmount = 0 ∧ s' = s)
      ∨ (target.deltaAmount ≠ 0 ∧ s' = { s with
          entries := s.entries ++
            [differentialEntry s campaignId driverProfileId executedAt
              (entryId target.tripSessionId) target] }) := by
  unfold writeDayDifferential at h
  split_ifs at h with hzero
  · exact .inl ⟨hzero, by simpa using h.symm⟩
  · simp only [bind_eq_ok, require_eq_ok, pure_eq_ok] at h
    rcases h with ⟨_, _, _, _, rfl⟩
    exact .inr ⟨hzero, rfl⟩

/-- What an approval can do: nothing, mark a drifted order stale, or post the day's
differentials and record every position in the executed order. -/
theorem approveCorrectionOrder_eq {authorized : Except AppError Unit} {orderId : Id}
    {fingerprint : Payout.Digest} {releaseAt : Option Int} {measure : Id → Measurement}
    {entryId : Id → Id} {executedAt : Int} {s s' : Store}
    (h : approveCorrectionOrder authorized orderId fingerprint releaseAt measure entryId executedAt
      s = .ok s') :
    ∃ order, s.orders.find? (·.id = orderId) = some order
      ∧ ((order.status = .executed ∧ s' = s)
        ∨ (order.status = .draft ∧ ∃ computations,
            projectCampaignDay s order.campaignId order.lagosDay measure = .ok computations
            ∧ ((fingerprint ≠ order.projectionFingerprint
                  ∧ s' = updateOrder s orderId (fun order => { order with status := .stale }))
              ∨ (fingerprint = order.projectionFingerprint ∧ ∃ posted,
                  checkedFold (writeDayDifferentials order.campaignId executedAt releaseAt entryId)
                    s computations = .ok posted
                  ∧ s' = updateOrder posted orderId (fun order => { order with
                      status := .executed
                      executedAt := some executedAt
                      executionResult := executionResultOf computations }))))) := by
  simp only [approveCorrectionOrder, bind_eq_ok, demand_eq_ok] at h
  rcases h with ⟨_, _, order, hfound, h⟩
  refine ⟨order, hfound, ?_⟩
  split_ifs at h with hexecuted hdrifted
  · exact .inl ⟨hexecuted, (pure_eq_ok.mp h).symm⟩
  · simp only [bind_eq_ok, require_eq_ok, pure_eq_ok] at h
    rcases h with ⟨_, hdraft, computations, hproject, rfl⟩
    exact .inr ⟨hdraft, computations, hproject, .inl ⟨hdrifted, rfl⟩⟩
  · simp only [bind_eq_ok, require_eq_ok, pure_eq_ok] at h
    rcases h with ⟨_, hdraft, computations, hproject, _, _, posted, hposted, rfl⟩
    exact .inr ⟨hdraft, computations, hproject, .inr ⟨not_not.mp hdrifted, posted, hposted, rfl⟩⟩

/-- What one differential keeps, a whole posting keeps. -/
theorem writeDayDifferentials_invariant {campaignId : Id} {executedAt : Int}
    {releaseAt : Option Int} {entryId : Id → Id} {s s' : Store}
    {computations : List DayComputation} (P : Store → Prop)
    (hstep : ∀ s computation target s', computation ∈ computations → target ∈ computation.trips →
      P s → writeDayDifferential campaignId computation.driverProfileId executedAt releaseAt entryId
        s target = .ok s' → P s')
    (hs : P s)
    (h : checkedFold (writeDayDifferentials campaignId executedAt releaseAt entryId) s computations
      = .ok s') : P s' := by
  refine checkedFold_prefix (fun _ s => P s) ?_ h hs
  intro done computation rest s₁ s₂ hsplit hs₁ hwrite
  refine checkedFold_prefix (fun _ s => P s) ?_ hwrite hs₁
  intro done' target rest' s₃ s₄ hsplit' hs₃ hpost
  exact hstep s₃ computation target s₄ (by simp [hsplit]) (by simp [hsplit']) hs₃ hpost

/-- The tables an approval leaves alone. -/
theorem approveCorrectionOrder_frame {authorized : Except AppError Unit} {orderId : Id}
    {fingerprint : Payout.Digest} {releaseAt : Option Int} {measure : Id → Measurement}
    {entryId : Id → Id} {executedAt : Int} {s s' : Store}
    (h : approveCorrectionOrder authorized orderId fingerprint releaseAt measure entryId executedAt
      s = .ok s') : s' = { s with entries := s'.entries, orders := s'.orders } := by
  rcases approveCorrectionOrder_eq h with
    ⟨order, _, ⟨_, rfl⟩ | ⟨_, computations, _, ⟨_, rfl⟩ | ⟨_, posted, hposted, rfl⟩⟩⟩
  · rfl
  · rfl
  · have hframe : posted = { s with entries := posted.entries } := by
      refine writeDayDifferentials_invariant (fun s₁ => s₁ = { s with entries := s₁.entries })
        ?_ rfl hposted
      intro s₁ computation target s₂ _ _ hs₁ hwrite
      rcases writeDayDifferential_eq hwrite with ⟨_, rfl⟩ | ⟨_, rfl⟩
      · exact hs₁
      · rw [hs₁]
    rw [updateOrder, hframe]

end Pay
end Mobility
