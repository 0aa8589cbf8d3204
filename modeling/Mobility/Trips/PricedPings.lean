import Mobility.Pay.Calculations

/-!
# Priced pings — the pings of the analytics and the pings that are priced

A calculation is gated on the stored analytics row of its trip, which the worker
reuses when it is not older than the seal.  The row stands for the pings that it was
computed from; the calculation prices the pings stored now.
-/

namespace Mobility
namespace Trips

open Lib
open Pay (PricedOnce CalculationsInv NewCalculation calculateTripPayout PayoutInputs)

/-- The trip has no calculation yet. -/
def Unpriced (s : Store) (t : TripSession) : Prop :=
  ∀ c ∈ s.calculations, c.tripSessionId ≠ t.id

/-- The row was computed from the pings that the trip would be priced on now. -/
def CurrentAnalytics (s : Store) (t : TripSession) (row : TripAnalytics) : Prop :=
  row.sourcePings = loadOrderedPings t (economicEnd s t)

/-- A sealed trip waits for its calculation with analytics that the worker will reuse. -/
structure Waiting (s : Store) (t : TripSession) (row : TripAnalytics) : Prop where
  sealed : t.status = .sealed
  unpriced : Unpriced s t
  stored : s.analytics? t.id = some row
  reused : analyticsPredateSeal t row = false

/-- The action leaves the analytics of waiting trips current: it stores no accepted
sample recorded by the economic end, moves no economic end across a sample, seals no trip
in the very millisecond of its analytics, and prices no trip on a row older than its seal. -/
def KeepsAnalytics [Evidence] (settings : Settings) (s : Store) : TripAction → Prop
  | .ingest authority _ tripId payload clock =>
      -- a batch under a key that is known, or one that comes too late, stores no sample
      ∀ t ∈ s.trips, t.id = tripId → ∀ row, Waiting s t row →
        (∀ b ∈ t.batches, b.idempotencyKey ≠ payload.idempotencyKey) →
        ¬ LatePayCalculated s t payload →
          ∀ ping ∈ payload.pings, classifyPing t authority (utcNow clock) ping = none →
            economicEnd s t < ping.recordedAt
  | .cancelCampaign campaignId cutoffAt =>
      ∀ t ∈ s.trips, t.campaignId = campaignId → ∀ row, Waiting s t row → ∀ ping ∈ t.pings,
        ping.recordedAt ≤ economicEnd s t → ping.recordedAt ≤ max t.startedAt cutoffAt
  | .reconcile driverProfileId tripId clock =>
      ∀ t ∈ s.trips, SealedBy settings s (.reconcile driverProfileId tripId clock) t →
        ∀ row, s.analytics? t.id = some row →
          row.computedAt < utcNow clock ∨ CurrentAnalytics s t row
  | .calculate tripId _ _ _ =>
      ∀ t ∈ s.trips, t.id = tripId → t.status = .sealed → Unpriced s t →
        ∀ row, s.analytics? t.id = some row →
          analyticsPredateSeal t row = false ∨ CurrentAnalytics s t row
  | _ => True

/-! ## Pings and rows -/

section

variable {s s' : Store} {t t' : TripSession}

theorem loadOrderedPings_congr {through through' : Int}
    (h : t'.pings.filter (·.recordedAt ≤ through') = t.pings.filter (·.recordedAt ≤ through)) :
    loadOrderedPings t' through' = loadOrderedPings t through := by
  rw [loadOrderedPings, loadOrderedPings, h]

theorem pings_append (t : TripSession) (b : LocationPingBatch) :
    ({ t with batches := t.batches ++ [b] } : TripSession).pings = t.pings ++ b.pings := by
  simp [TripSession.pings]

/-- The economic end is read from the trip's own columns and the campaign's cutoff. -/
theorem economicEnd_congr (hcutoffs : s'.cutoffs = s.cutoffs) (hstart : t'.startedAt = t.startedAt)
    (hend : t'.endedAt = t.endedAt) (hcampaign : t'.campaignId = t.campaignId) :
    economicEnd s' t' = economicEnd s t := by
  simp only [economicEnd, Store.financialCutoff, hcutoffs, hstart, hend, hcampaign]

theorem CurrentAnalytics.congr {row : TripAnalytics} (h : CurrentAnalytics s t row)
    (hcutoffs : s'.cutoffs = s.cutoffs) : CurrentAnalytics s' t row := by
  unfold CurrentAnalytics
  rw [economicEnd_congr hcutoffs rfl rfl rfl]
  exact h

theorem analytics?_upsert (row : TripAnalytics) (s : Store) (tripId : Id) :
    (upsertAnalytics row s).analytics? tripId
      = if tripId = row.tripSessionId then some row else s.analytics? tripId := by
  by_cases hid : tripId = row.tripSessionId
  · have hnone : (s.analytics.filter (·.tripSessionId ≠ row.tripSessionId)).find?
        (·.tripSessionId = tripId) = none := by
      refine List.find?_eq_none.mpr ?_
      intro r hr
      have hother := List.of_mem_filter hr
      simpa [hid] using hother
    rw [if_pos hid, Store.analytics?, upsertAnalytics, List.find?_append, hnone]
    simp [hid]
  · have hsame : (s.analytics.filter (·.tripSessionId ≠ row.tripSessionId)).find?
        (·.tripSessionId = tripId) = s.analytics.find? (·.tripSessionId = tripId) := by
      rw [List.find?_filter]
      refine congrArg (fun p => s.analytics.find? p) ?_
      funext r
      by_cases hr : r.tripSessionId = tripId
      · simp [hr, hid]
      · simp [hr]
    have hother : ¬ row.tripSessionId = tripId := fun h => hid h.symm
    rw [if_neg hid, Store.analytics?, upsertAnalytics, List.find?_append, hsame]
    simp [Store.analytics?, hother]

/-! ## The invariant -/

structure AnalyticsInv (s : Store) : Prop where
  rows : ∀ row ∈ s.analytics, ∃ t ∈ s.trips, t.id = row.tripSessionId ∧ t.status ≠ .active
  waiting : ∀ t ∈ s.trips, ∀ row, Waiting s t row → CurrentAnalytics s t row
  priced : ∀ c ∈ s.calculations, c.sourceAnalytics.sourcePings = c.pricedPings

/-- Tables that the invariant does not read. -/
theorem AnalyticsInv.congr (hs : AnalyticsInv s) (htrips : s'.trips = s.trips)
    (hcutoffs : s'.cutoffs = s.cutoffs) (hanalytics : s'.analytics = s.analytics)
    (hcalculations : s'.calculations = s.calculations) : AnalyticsInv s' := by
  refine ⟨?_, ?_, ?_⟩
  · rw [hanalytics, htrips]
    exact hs.rows
  · rw [htrips]
    intro t ht row hwaiting
    have hbefore : Waiting s t row := by
      refine ⟨hwaiting.sealed, ?_, ?_, hwaiting.reused⟩
      · exact fun c hc => hwaiting.unpriced c (hcalculations.symm ▸ hc)
      · have hrow := hwaiting.stored
        rw [Store.analytics?, hanalytics] at hrow
        exact hrow
    exact (hs.waiting t ht row hbefore).congr hcutoffs
  · rw [hcalculations]
    exact hs.priced

/-- Storing analytics computed now. -/
theorem AnalyticsInv.upsert (hs : AnalyticsInv s) (hkeys : (s.trips.map (·.id)).Nodup)
    (ht : t ∈ s.trips) (hstatus : t.status ≠ .active) (now : Int) :
    AnalyticsInv (upsertAnalytics (analyticsOf s t now) s) := by
  refine ⟨?_, ?_, hs.priced⟩
  · intro row hrow
    rcases List.mem_append.mp hrow with hrow | hrow
    · exact hs.rows row (List.mem_of_mem_filter hrow)
    · rw [List.mem_singleton.mp hrow]
      exact ⟨t, ht, rfl, hstatus⟩
  · intro x hx row hwaiting
    have hrow := hwaiting.stored
    rw [analytics?_upsert] at hrow
    split_ifs at hrow with hid
    · have hsame : x = t := eq_of_key_eq hkeys hx ht hid
      rw [← Option.some.inj hrow, hsame]
      rfl
    · exact hs.waiting x hx row ⟨hwaiting.sealed, hwaiting.unpriced, hrow, hwaiting.reused⟩

end

/-! ## Trips -/

section

variable [Evidence] {settings : Settings} {s s' : Store} {t t' : TripSession} {a : TripAction}

/-- The samples of a stored batch are accepted samples of its payload. -/
theorem Admits.accepted {authority : CaptureAuthority} {payload : LocationPingBatchCreate}
    {clock : Int} {b : LocationPingBatch} (h : Admits settings s t authority payload clock b) :
    ∀ ping ∈ b.pings, ¬ Dropped s t payload ∧ ping ∈ payload.pings
      ∧ classifyPing t authority (utcNow clock) ping = none := by
  rcases h.shape with ⟨sequence, digest, outcome, receipt, _, _, rfl⟩
  intro ping hping
  rcases List.mem_filterMap.mp hping with ⟨sample, hsample, hkept⟩
  split_ifs at hkept with hnone
  have hping : sample.1 = ping := Option.some.inj hkept
  subst hping
  have hpair : sample.1 ∈ payload.pings ∧ sample.2 = (if Dropped s t payload then
      some payAlreadyCalculated else classifyPing t authority (utcNow clock) sample.1) := by
    rw [← List.map_prod_left_eq_zip] at hsample
    rcases List.mem_map.mp hsample with ⟨x, hx, rfl⟩
    exact ⟨hx, by simp⟩
  rw [hpair.2] at hnone
  split_ifs at hnone with hdropped
  · exact absurd hnone (by simp)
  · exact ⟨hdropped, hpair.1, by simpa using hnone⟩

/-- A sealed trip changes only by storing late batches. -/
theorem RowChange.of_sealed (hverified : t.status = .sealed → t.verification.isSome)
    (hsealed : t.status = .sealed) (h : RowChange settings s a t t') :
    t' = t ∨ ∃ authority payload clock b,
      a = .ingest authority t.driverProfileId t.id payload clock
        ∧ Admits settings s t authority payload clock b
        ∧ t' = { t with batches := t.batches ++ [b] } := by
  cases h with
  | same => exact .inl rfl
  | ingested hadmits => exact .inr ⟨_, _, _, _, rfl, hadmits, rfl⟩
  | ended h =>
      simp only [endTripRow, bind_eq_ok, require_eq_ok] at h
      rcases h with ⟨_, hactive, _⟩
      exact absurd (hactive.symm.trans hsealed) (by simp)
  | autoEnded h =>
      rw [autoEndTripRow, if_pos (.inl (by simp [hsealed]))] at h
      exact .inl (pure_eq_ok.mp h).symm
  | reconciled h =>
      simp only [reconcileTripRow, bind_eq_ok, require_eq_ok] at h
      rcases h with ⟨_, _, _, _, _, _, h⟩
      rw [if_pos (hverified hsealed)] at h
      simp only [bind_eq_ok, require_eq_ok, pure_eq_ok] at h
      rcases h with ⟨_, _, _, _, hsame⟩
      exact .inl hsame.symm
  | expired hdue _ =>
      have hended := (mem_dueTrips hdue).2
      simp only [graceDue, Bool.and_eq_true, decide_eq_true_eq] at hended
      exact absurd (hended.1.1.symm.trans hsealed) (by simp)

/-- An ended trip is sealed by its reconciliation alone. -/
theorem RowChange.sealed_of_ended (hended : t.status = .ended) (hsealed : t'.status = .sealed)
    (h : RowChange settings s a t t') :
    ∃ clock, a = .reconcile t.driverProfileId t.id clock ∧ t'.sealedAt = some (utcNow clock)
      ∧ t'.batches = t.batches ∧ t'.endedAt = t.endedAt := by
  cases h with
  | same => exact absurd (hended.symm.trans hsealed) (by simp)
  | ingested => exact absurd (hended.symm.trans hsealed) (by simp)
  | ended h =>
      simp only [endTripRow, bind_eq_ok, require_eq_ok] at h
      rcases h with ⟨_, hactive, _⟩
      -- only an active trip can be ended
      exact absurd (hactive.symm.trans hended) (by simp)
  | autoEnded h =>
      rw [autoEndTripRow, if_pos (.inl (by simp [hended]))] at h
      rw [← pure_eq_ok.mp h] at hsealed
      exact absurd (hended.symm.trans hsealed) (by simp)
  | reconciled h =>
      rename_i clock
      refine ⟨clock, rfl, ?_⟩
      simp only [reconcileTripRow, bind_eq_ok, require_eq_ok] at h
      rcases h with ⟨_, _, _, hstatus, _, _, h⟩
      split_ifs at h
      · simp only [bind_eq_ok, require_eq_ok, pure_eq_ok] at h
        rcases h with ⟨_, _, _, _, rfl⟩
        exact absurd (hended.symm.trans hsealed) (by simp)
      · simp only [bind_eq_ok, require_eq_ok, pure_eq_ok] at h
        rcases h with ⟨_, _, _, _, rfl⟩
        exact absurd (hended.symm.trans hsealed) (by simp)
      · simp only [bind_eq_ok] at h
        rcases h with ⟨completeness, _, h⟩
        split_ifs at h
        · rcases verifyAndSeal_eq hstatus h with ⟨_, _, _, _, _, _, hat, rfl⟩
          exact ⟨(hat hended).1, rfl, rfl⟩
        · simp only [bind_eq_ok, require_eq_ok] at h
          rcases h with ⟨_, _, h⟩
          rcases signAdjudicationReceipt_eq h with ⟨_, rfl⟩
          exact absurd (hended.symm.trans hsealed) (by simp)
  | expired _ h =>
      rcases expireGrace_eq h with ⟨_, rfl⟩
      exact absurd (hended.symm.trans hsealed) (by simp)

theorem TripEffects.inactive {keyVersion : Nat} (h : TripEffects settings keyVersion t t')
    (hstatus : t.status ≠ .active) : t'.status ≠ .active :=
  (TripEffects.endedAt hstatus h).1

theorem tripStep_trips_analyticsInv (hinv : TripsInv settings s) (hverified : SealedVerified s)
    (hs : AnalyticsInv s) (hallowed : KeepsAnalytics settings s a) (hframe : s' = { s with trips := s'.trips })
    (h : tripStep settings s a = .ok s') : AnalyticsInv s' := by
  have hanalytics : s'.analytics = s.analytics := by rw [hframe]
  have hcutoffs : s'.cutoffs = s.cutoffs := by rw [hframe]
  have hcalculations : s'.calculations = s.calculations := by rw [hframe]
  refine ⟨?_, ?_, ?_⟩
  · rw [hanalytics]
    intro row hrow
    rcases hs.rows row hrow with ⟨t, ht, hid, hstatus⟩
    rcases exists_row hinv.keys h ht with ⟨t', ht', hchange⟩
    have heffects := hchange.effects (hinv.wellFormed t ht)
    exact ⟨t', ht', (TripEffects.sameTrip heffects).1.trans hid, heffects.inactive hstatus⟩
  · intro t' ht' row hwaiting
    have hrow : s.analytics? t'.id = some row := by
      have hstored := hwaiting.stored
      rw [Store.analytics?, hanalytics] at hstored
      exact hstored
    rcases hs.rows row (List.mem_of_find?_eq_some hrow) with ⟨owner, howner, hownerId, hinactive⟩
    have hownerKey : owner.id = t'.id := hownerId.trans (mem_of_lookup hrow).2
    rcases mem_trips_of_step hinv.keys h ht' with ⟨t, ht, hchange⟩ | ⟨_, start, now, _, hfresh, rfl⟩
    swap
    · exact absurd hownerKey (hfresh owner howner)
    have hsame := hchange.sameTrip (hinv.wellFormed t ht)
    have howned : owner = t := eq_of_key_eq hinv.keys howner ht (hownerKey.trans hsame.1)
    subst howned
    rw [hsame.1] at hrow
    have hunpriced : Unpriced s owner := by
      intro c hc
      rw [← hsame.1]
      exact hwaiting.unpriced c (hcalculations ▸ hc)
    by_cases hsealed : owner.status = .sealed
    · rcases hchange.of_sealed (hverified owner ht) hsealed with
        rfl | ⟨authority, payload, clock, b, rfl, hadmits, rfl⟩
      · exact (hs.waiting _ ht row ⟨hsealed, hunpriced, hrow, hwaiting.reused⟩).congr hcutoffs
      · have hbefore : Waiting s owner row := ⟨hsealed, hunpriced, hrow, hwaiting.reused⟩
        have hcurrent := hs.waiting owner ht row hbefore
        -- no sample of the late batch was recorded by the economic end
        have hafter : b.pings.filter (·.recordedAt ≤ economicEnd s owner) = [] := by
          refine List.filter_eq_nil_iff.mpr ?_
          intro ping hping
          rcases hadmits.accepted ping hping with ⟨hkept, hmem, haccepted⟩
          have hlate : ¬ LatePayCalculated s owner payload := by
            intro hlate
            exact hkept ⟨hinactive, hlate⟩
          have hbeyond := hallowed owner ht rfl row hbefore hadmits.fresh hlate ping hmem haccepted
          simpa using hbeyond
        have hend : economicEnd s' { owner with batches := owner.batches ++ [b] }
            = economicEnd s owner := economicEnd_congr hcutoffs rfl rfl rfl
        unfold CurrentAnalytics
        rw [hend, hcurrent]
        refine (loadOrderedPings_congr ?_).symm
        rw [pings_append, List.filter_append, hafter, List.append_nil]
    · have hended : owner.status = .ended := by
        cases hcase : owner.status with
        | active => exact absurd hcase hinactive
        | ended => rfl
        | sealed => exact absurd hcase hsealed
      have hsealedBy := sealedBy_of_change hinv.keys ht hchange hsealed hwaiting.sealed
      rcases hchange.sealed_of_ended hended hwaiting.sealed with
        ⟨clock, rfl, hsealedAt, hbatches, hendedAt⟩
      rcases hallowed owner ht hsealedBy row hrow with holder | hcurrent
      · -- a row older than the seal is not reused
        have hreused := hwaiting.reused
        simp [analyticsPredateSeal, hsealedAt, holder] at hreused
      · unfold CurrentAnalytics
        rw [economicEnd_congr hcutoffs hsame.2.2.2.2.2 hendedAt hsame.2.2.1, hcurrent]
        refine (loadOrderedPings_congr ?_).symm
        rw [TripSession.pings, TripSession.pings, hbatches]
  · rw [hcalculations]
    exact hs.priced

/-! ## Cancellations and pricing -/

omit [Evidence] in
theorem financialCutoff_append {cutoffs : List (Id × Int)} {campaignId other : Id} {cutoffAt : Int}
    (h : cutoffs.lookup campaignId = none) :
    (cutoffs ++ [(campaignId, cutoffAt)]).lookup other
      = if other = campaignId then some cutoffAt else cutoffs.lookup other := by
  rw [List.lookup_append]
  by_cases hother : other = campaignId
  · simp [hother, h]
  · have hne : (other == campaignId) = false := by simp [hother]
    simp [hother, List.lookup_cons, hne]

theorem requestCampaignCancellation_analyticsInv (hs : AnalyticsInv s) {campaignId : Id}
    {cutoffAt : Int} (hallowed : KeepsAnalytics settings s (.cancelCampaign campaignId cutoffAt))
    (h : requestCampaignCancellation campaignId cutoffAt s = .ok s') : AnalyticsInv s' := by
  simp only [requestCampaignCancellation, bind_eq_ok, require_eq_ok, pure_eq_ok] at h
  rcases h with ⟨_, hfirst, rfl⟩
  have hnone : s.cutoffs.lookup campaignId = none := by
    simpa [Store.financialCutoff] using hfirst
  refine ⟨hs.rows, ?_, hs.priced⟩
  intro t ht row hwaiting
  have hbefore : Waiting s t row :=
    ⟨hwaiting.sealed, hwaiting.unpriced, hwaiting.stored, hwaiting.reused⟩
  have hcurrent := hs.waiting t ht row hbefore
  unfold CurrentAnalytics
  rw [hcurrent]
  refine (loadOrderedPings_congr (List.filter_congr ?_)).symm
  intro ping hping
  have hcutoff : (s.cutoffs ++ [(campaignId, cutoffAt)]).lookup t.campaignId
      = if t.campaignId = campaignId then some cutoffAt else s.cutoffs.lookup t.campaignId :=
    financialCutoff_append hnone
  -- the cutoff can only shorten the trips of its own campaign
  by_cases hcampaign : t.campaignId = campaignId
  · have hmoved := hallowed t ht hcampaign row hbefore ping hping
    have holdEnd : economicEnd s t = max t.startedAt (t.endedAt.getD t.startedAt) := by
      simp [economicEnd, Store.financialCutoff, hcampaign, hnone]
    have hnewEnd : economicEnd { s with cutoffs := s.cutoffs ++ [(campaignId, cutoffAt)] } t
        = max t.startedAt (min (t.endedAt.getD t.startedAt) cutoffAt) := by
      simp only [economicEnd, Store.financialCutoff, hcutoff, if_pos hcampaign]
    rw [holdEnd] at hmoved ⊢
    rw [hnewEnd]
    by_cases hby : ping.recordedAt ≤ max t.startedAt (t.endedAt.getD t.startedAt)
    · -- no ping lies between the cutoff and the old end
      have hthere := hmoved hby
      simp only [decide_eq_decide]
      omega
    · simp only [decide_eq_decide]
      omega
  · have hsame : economicEnd { s with cutoffs := s.cutoffs ++ [(campaignId, cutoffAt)] } t
        = economicEnd s t := by
      simp only [economicEnd, Store.financialCutoff, hcutoff, if_neg hcampaign]
    rw [hsame]

/-- A calculation gated on a current row agrees with it. -/
theorem calculateTripPayout_analyticsInv (hinv : PricedOnce s) (hs : AnalyticsInv s)
    {strictStaleness : Bool} {inputs : PayoutInputs} {tripId : Id} {now : Int}
    (hcurrent : ∀ t ∈ s.trips, t.id = tripId → Unpriced s t → ∀ row,
      s.analytics? t.id = some row → CurrentAnalytics s t row)
    (h : calculateTripPayout settings strictStaleness inputs tripId now s = .ok s') :
    AnalyticsInv s' := by
  have hframe := Pay.calculateTripPayout_frame h
  have htrips : s'.trips = s.trips := by rw [hframe]
  have hcutoffs : s'.cutoffs = s.cutoffs := by rw [hframe]
  have hanalytics : s'.analytics = s.analytics := by rw [hframe]
  rcases Pay.calculateTripPayout_calculations h with hsame | ⟨trip, c, hid, hnew, hadded⟩
  · exact hs.congr htrips hcutoffs hanalytics hsame
  · refine ⟨?_, ?_, ?_⟩
    · rw [hanalytics, htrips]
      exact hs.rows
    · rw [htrips]
      intro t ht row hwaiting
      have hbefore : Waiting s t row := by
        refine ⟨hwaiting.sealed, ?_, ?_, hwaiting.reused⟩
        · exact fun c hc => hwaiting.unpriced c (hadded ▸ List.mem_append_left _ hc)
        · have hrow := hwaiting.stored
          rw [Store.analytics?, hanalytics] at hrow
          exact hrow
      exact (hs.waiting t ht row hbefore).congr hcutoffs
    · rw [hadded]
      intro x hx
      rcases List.mem_append.mp hx with hx | hx
      · exact hs.priced x hx
      · rw [List.mem_singleton.mp hx]
        -- the new calculation names the row that was current
        rcases hnew.priced with ⟨analytics, estimate, binding, hrow, _, rfl⟩
        exact hcurrent trip (List.mem_of_find?_eq_some hnew.payable.found) hid
          ((Pay.calculationFor?_eq_none hinv).mp hnew.first) analytics hrow

/-- The worker prices a trip on analytics it just computed, or found current. -/
theorem processEndedTrip_analyticsInv (hkeys : (s.trips.map (·.id)).Nodup)
    (hcalcs : CalculationsInv s) (hs : AnalyticsInv s) {inputs : Id → PayoutInputs} {now : Int}
    {fuel : Nat} {tripId : Id}
    (h : processEndedTrip settings inputs now fuel tripId s = .ok s') : AnalyticsInv s' := by
  -- carried along: the trip at hand is priced on a current row
  refine (Pay.processEndedTrip_rule
    (fun s => (s.trips.map (·.id)).Nodup ∧ CalculationsInv s ∧ AnalyticsInv s)
    (fun t s => t ∈ s.trips ∧ (Unpriced s t → ∀ row, s.analytics? t.id = some row →
      CurrentAnalytics s t row)) ?_ ?_ ?_ fuel tripId s s' ⟨hkeys, hcalcs, hs⟩ h).1.2.2
  · rintro entryId calculation s₁ s₂ ⟨hkeys₁, hcalcs₁, hs₁⟩ hensure
    rcases Pay.ensureLedgerEntry_eq hensure with rfl | rfl
    · exact ⟨⟨hkeys₁, hcalcs₁, hs₁⟩, fun _ hQ => hQ⟩
    · exact ⟨⟨hkeys₁, hcalcs₁.congr rfl rfl, hs₁.congr rfl rfl rfl rfl⟩, fun _ hQ => hQ⟩
  · rintro trip s₁ ⟨hkeys₁, hcalcs₁, hs₁⟩ htrip hsealed
    have hinactive : trip.status ≠ .active := by simp [hsealed]
    have hfresh : AnalyticsInv (upsertAnalytics (analyticsOf s₁ trip now) s₁)
        ∧ (∀ row, (upsertAnalytics (analyticsOf s₁ trip now) s₁).analytics? trip.id = some row →
            CurrentAnalytics s₁ trip row)
        ∧ ∀ t, (t ∈ s₁.trips ∧ (Unpriced s₁ t → ∀ row, s₁.analytics? t.id = some row →
            CurrentAnalytics s₁ t row)) → Unpriced s₁ t → ∀ row,
            (upsertAnalytics (analyticsOf s₁ trip now) s₁).analytics? t.id = some row →
            CurrentAnalytics s₁ t row := by
      refine ⟨hs₁.upsert hkeys₁ htrip hinactive now, ?_, ?_⟩
      · intro row hrow
        have hself := (analytics?_upsert (analyticsOf s₁ trip now) s₁ trip.id).trans (if_pos rfl)
        rw [← Option.some.inj (hself.symm.trans hrow)]
        rfl
      · rintro t ⟨ht, hQ⟩ hunpriced row hrow
        rw [analytics?_upsert] at hrow
        split_ifs at hrow with hid
        · have hsame : t = trip := eq_of_key_eq hkeys₁ ht htrip hid
          rw [← Option.some.inj hrow, hsame]
          rfl
        · exact hQ hunpriced row hrow
    -- the stage recomputes the row, or reuses one that does not predate the seal
    have hstage : analyticsStage trip now s₁ = upsertAnalytics (analyticsOf s₁ trip now) s₁
        ∨ (analyticsStage trip now s₁ = s₁ ∧ ∃ row, s₁.analytics? trip.id = some row
            ∧ analyticsPredateSeal trip row = false) := by
      unfold analyticsStage
      split
      · exact .inl rfl
      · rename_i row hrow
        split_ifs with hpredates
        · exact .inl rfl
        · exact .inr ⟨rfl, row, hrow, by simpa using hpredates⟩
    rcases hstage with hstage | ⟨hstage, row, hrow, hreused⟩
    · rw [hstage]
      exact ⟨⟨hkeys₁, hcalcs₁.congr rfl rfl, hfresh.1⟩, ⟨htrip, fun _ => hfresh.2.1⟩,
        fun t hQ => ⟨hQ.1, hfresh.2.2 t hQ⟩⟩
    · rw [hstage]
      refine ⟨⟨hkeys₁, hcalcs₁, hs₁⟩, ⟨htrip, ?_⟩, fun _ hQ => hQ⟩
      intro hunpriced other hother
      exact hs₁.waiting trip htrip other ⟨hsealed, hunpriced, hother, by
        rw [← Option.some.inj (hrow.symm.trans hother)]
        exact hreused⟩
  · rintro trip s₁ s₂ ⟨hkeys₁, hcalcs₁, hs₁⟩ ⟨htrip, hcurrent⟩ hcalc
    have hframe := Pay.calculateTripPayout_frame hcalc
    have htrips : s₂.trips = s₁.trips := by rw [hframe]
    have hcutoffs : s₂.cutoffs = s₁.cutoffs := by rw [hframe]
    have hanalytics : s₂.analytics = s₁.analytics := by rw [hframe]
    refine ⟨⟨htrips ▸ hkeys₁, Pay.calculateTripPayout_inv hcalcs₁ hcalc, ?_⟩, ?_⟩
    · refine calculateTripPayout_analyticsInv hcalcs₁.once hs₁ ?_ hcalc
      intro t ht hid
      have hsame : t = trip := eq_of_key_eq hkeys₁ ht htrip hid
      exact hsame ▸ hcurrent
    · rintro t ⟨ht, hQ⟩
      refine ⟨htrips ▸ ht, fun hunpriced row hrow => ?_⟩
      -- what is unpriced after was unpriced before, as calculations are never dropped
      have hbefore : Unpriced s₁ t := by
        intro c hc
        rcases Pay.calculateTripPayout_calculations hcalc with hsame | ⟨_, _, _, _, hadded⟩
        · exact hunpriced c (hsame ▸ hc)
        · exact hunpriced c (hadded ▸ List.mem_append_left _ hc)
      rw [Store.analytics?, hanalytics] at hrow
      exact (hQ hbefore row hrow).congr hcutoffs

/-! ## Runs -/

theorem tripStep_analyticsInv (hinv : TripsInv settings s) (hverified : SealedVerified s)
    (hcalcs : CalculationsInv s) (hs : AnalyticsInv s) (hallowed : KeepsAnalytics settings s a)
    (h : tripStep settings s a = .ok s') : AnalyticsInv s' := by
  by_cases hwrites : a.writesTrips = true
  · exact tripStep_trips_analyticsInv hinv hverified hs hallowed
      (tripStep_frame hinv.keys hwrites h) h
  · cases a with
    | bind binding =>
        simp only [tripStep, bindAssignment, bind_eq_ok, require_eq_ok, pure_eq_ok] at h
        rcases h with ⟨_, _, rfl⟩
        exact hs.congr rfl rfl rfl rfl
    | rotateKey version =>
        rw [← Except.ok.inj h]
        exact hs.congr rfl rfl rfl rfl
    | cancelCampaign campaignId cutoffAt =>
        exact requestCampaignCancellation_analyticsInv hs hallowed h
    | recomputeAnalytics tripId now =>
        simp only [tripStep, recomputeTripAnalytics, bind_eq_ok, demand_eq_ok, require_eq_ok,
          pure_eq_ok] at h
        rcases h with ⟨t, ht, _, hstatus, rfl⟩
        refine hs.upsert hinv.keys (List.mem_of_find?_eq_some ht) ?_ now
        rcases hstatus.1 with hended | hsealed
        · simp [hended]
        · simp [hsealed]
    | process tripId fuel inputs now => exact processEndedTrip_analyticsInv hinv.keys hcalcs hs h
    | calculate tripId strictStaleness inputs now =>
        refine calculateTripPayout_analyticsInv hcalcs.once hs ?_ (Pay.mapError_eq_ok.mp h)
        intro t ht hid hunpriced row hrow
        -- the engine prices sealed trips only
        have hsealed : t.status = .sealed := by
          rcases Pay.calculateTripPayout_eq (Pay.mapError_eq_ok.mp h) with
            ⟨trip, _, _, hpayable, _⟩
          rw [← hid] at hpayable
          have hsame : trip = t :=
            Option.some.inj (hpayable.found.symm.trans (trip?_eq hinv.keys ht))
          exact hsame ▸ hpayable.sealed
        rcases hallowed t ht hid hsealed hunpriced row hrow with hreused | hcurrent
        · exact hs.waiting t ht row ⟨hsealed, hunpriced, hrow, hreused⟩
        · exact hcurrent
    | createOrder authorized orderId campaignId day fingerprint measure =>
        simp only [tripStep, Pay.createCorrectionOrder, bind_eq_ok, require_eq_ok, pure_eq_ok] at h
        rcases h with ⟨_, _, _, _, _, _, rfl⟩
        exact hs.congr rfl rfl rfl rfl
    | approveOrder authorized orderId fingerprint releaseAt measure entryId executedAt =>
        have hframe := Pay.approveCorrectionOrder_frame h
        exact hs.congr (by rw [hframe]) (by rw [hframe]) (by rw [hframe]) (by rw [hframe])
    | deduct entryId sourceEntryId amount now =>
        simp only [tripStep, Pay.recordNegativeAdjustment, bind_eq_ok, demand_eq_ok, require_eq_ok,
          pure_eq_ok] at h
        rcases h with ⟨_, _, _, _, rfl⟩
        exact hs.congr rfl rfl rfl rfl
    | markEntry entryId status =>
        simp only [tripStep, Pay.markLedgerEntry, bind_eq_ok, require_eq_ok, pure_eq_ok] at h
        rcases h with ⟨_, _, rfl⟩
        exact hs.congr rfl rfl rfl rfl
    | _ => exact absurd rfl hwrites

/-- In a run that keeps the analytics of waiting trips current, every calculation prices
exactly the pings that its analytics were computed from. -/
theorem priced_on_analytics_pings (settings : Settings) (s : Store)
    (hs : ReachableBy (fleet settings) (fun s a => KeepsAnalytics settings s a) s) :
    ∀ c ∈ s.calculations, c.sourceAnalytics.sourcePings = c.pricedPings := by
  have hinv : AnalyticsInv s := by
    refine hs.invariant_of
      (fun s => TripsInv settings s ∧ SealedVerified s ∧ CalculationsInv s)
      (fun _ h => ⟨tripsInv_of_reachable h, sealedVerified_of_reachable h,
        Pay.calculationsInv_of_reachable h⟩) AnalyticsInv ?_ ?_
    · exact ⟨fun _ h => absurd h List.not_mem_nil, fun _ h => absurd h List.not_mem_nil,
        fun _ h => absurd h List.not_mem_nil⟩
    · rintro s a s' ⟨htrips, hverified, hcalcs⟩ hP hallowed hstep
      exact tripStep_analyticsInv htrips hverified hcalcs hP hallowed hstep
  exact hinv.priced

end

/-! ## Two sample runs -/

/-- Before any analytics, nothing waits on them. -/
def beforeAnalytics (s : Store) : TripAction → Bool
  | .cancelCampaign .. | .calculate .. => false
  | .ingest .. | .reconcile .. => s.analytics = []
  | _ => true

theorem keepsAnalytics_of_before [Evidence] {settings : Settings} {s : Store} {a : TripAction}
    (h : beforeAnalytics s a = true) : KeepsAnalytics settings s a := by
  have hnone : s.analytics = [] → ∀ tripId row, s.analytics? tripId ≠ some row := by
    intro hempty tripId row
    simp [Store.analytics?, hempty]
  cases a with
  | ingest =>
      have hempty : s.analytics = [] := by simpa [beforeAnalytics] using h
      intro t _ _ row hwaiting
      exact absurd hwaiting.stored (hnone hempty _ row)
  | reconcile =>
      have hempty : s.analytics = [] := by simpa [beforeAnalytics] using h
      intro t _ _ row hrow
      exact absurd hrow (hnone hempty _ row)
  | cancelCampaign => exact absurd h (by simp [beforeAnalytics])
  | calculate => exact absurd h (by simp [beforeAnalytics])
  | _ => trivial

section

local instance pingSampleEvidence : Evidence := sampleEvidence

/-- A sealed trip is priced on the two pings of its analytics. -/
theorem priced_on_analytics_pings_sealed :
    ∃ s, Reachable (fleet sampleSettings) s ∧ ∃ c ∈ s.calculations, c.pricedPings.length = 2
      ∧ c.sourceAnalytics.sourcePings = c.pricedPings := by
  rcases (fleet sampleSettings).exists_reachableBy
    (fun s a => KeepsAnalytics sampleSettings s a)
    ([bindSample] ++ sealedTrip 1 0
      ++ [.process 1 2 (sampleInputs (fun _ => 1000)) (secondsAfterNoon 100)])
    (fun _ _ _ => keepsAnalytics_of_before)
    (fun s => s.calculations.any (·.pricedPings.length = 2)) (by decide +kernel) with
    ⟨s, hs, htest⟩
  rcases List.any_eq_true.mp htest with ⟨c, hc, hlength⟩
  exact ⟨s, hs.reachable, c, hc, by simpa using hlength,
    priced_on_analytics_pings sampleSettings s hs c hc⟩

/-- Trip 2 waits for trip 1 with its analytics computed, and a late batch arrives. -/
def lateWhileWaiting : List TripAction :=
  [ bindSample,
    startTrip 1 (secondsAfterNoon 0),
    .endTrip 7 1 none (some (manifestOf 1 false [sampleBatch 1 0])) (secondsAfterNoon 80) ]
    ++ sealedTrip 2 100
    ++ [ .process 2 4 (sampleInputs (fun _ => 1000)) (secondsAfterNoon 190),
      deliverBatch 2 (samplePayload "late" 1 [130]) (secondsAfterNoon 200),
      deliverBatch 1 (sampleBatch 1 0) (secondsAfterNoon 210),
      .reconcile 7 1 (secondsAfterNoon 220),
      .process 2 10 (sampleInputs (fun _ => 1000)) (secondsAfterNoon 300) ]

/-- Trip 2 is priced on three pings and gated on the analytics of two. -/
theorem not_always_priced_on_analytics_pings :
    ¬ ∀ s, Reachable (fleet sampleSettings) s →
      ∀ c ∈ s.calculations, c.sourceAnalytics.sourcePings = c.pricedPings := by
  intro hclaim
  rcases (fleet sampleSettings).exists_reachable lateWhileWaiting
    (fun s => s.calculations.any (fun c => c.sourceAnalytics.sourcePings.length = 2
      && c.pricedPings.length = 3)) (by decide +kernel) with ⟨s, hs, htest⟩
  rcases List.any_eq_true.mp htest with ⟨c, hc, htest⟩
  simp only [Bool.and_eq_true, decide_eq_true_eq] at htest
  have hsame := hclaim s hs c hc
  rw [hsame, htest.2] at htest
  exact absurd htest.1 (by simp)

end

end Trips
end Mobility
