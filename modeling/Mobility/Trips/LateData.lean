import Mobility.Trips.PricedPings

/-!
# Late data — batches that arrive after pay was calculated

A late batch of a closed trip is dropped as soon as any trip of the driver and campaign
that overlaps one of its days has a calculation.  So the pings that price a sealed trip
stop growing with the first calculation of one of its days, and what was priced can be
measured again.
-/

namespace Mobility
namespace Trips

open Lib
open Pay (PayoutInputs Measurement tripSlices creditedDistanceMByDay CalculationsInv
  NewCalculation calculateTripPayout)

/-- Some trip of the driver and campaign that overlaps the day has a calculation. -/
def PaidDay (s : Store) (driverProfileId campaignId : Id) (day : Day) : Prop :=
  ∃ c ∈ s.calculations, c.driverProfileId = driverProfileId ∧ c.campaignId = campaignId
    ∧ ∃ t ∈ s.trips, t.id = c.tripSessionId ∧ EndedOverlaps t day

/-- A sealed trip that overlaps a paid day. -/
structure Settled (s : Store) (t : TripSession) (day : Day) : Prop where
  stored : t ∈ s.trips
  sealed : t.status = .sealed
  overlaps : EndedOverlaps t day
  paid : PaidDay s t.driverProfileId t.campaignId day

/-- The trip ended on the Lagos day of its start, or on a later one. -/
def EndsForward (t : TripSession) : Prop :=
  lagosDayFor t.startedAt ≤ lagosDayFor (t.endedAt.getD t.startedAt)

/-- `classify_session` and `credited_distance_m_by_day`, over the pings stored now. -/
def creditedAgain (geometry : Id → List LocationPing → Measurement) (s : Store)
    (t : TripSession) : ByDay :=
  creditedDistanceMByDay
    (tripSlices s t (geometry t.id (loadOrderedPings t (economicEnd s t))))

/-- `ping_set_fingerprint` differs from the one of the calculation: the part of
`v4_calculation_is_stale` that pings decide. -/
def PingSetDrifted (s : Store) (t : TripSession) (c : PayoutCalculation) : Prop :=
  loadOrderedPings t (economicEnd s t) ≠ c.pricedPings

/-- Pricing measures the stored pings by `geometry`, and no campaign is cancelled after
one of its trips was priced. -/
def Measured (geometry : Id → List LocationPing → Measurement) (s : Store) :
    TripAction → Prop
  | .process _ _ inputs _ =>
      ∀ t ∈ s.trips, (inputs t.id).measurement
        = geometry t.id (loadOrderedPings t (economicEnd s t))
  | .calculate tripId _ inputs _ =>
      ∀ t ∈ s.trips, t.id = tripId → inputs.measurement
        = geometry t.id (loadOrderedPings t (economicEnd s t))
  | .cancelCampaign campaignId _ => ∀ c ∈ s.calculations, c.campaignId ≠ campaignId
  | _ => True

/-! ## Days -/

section

variable {s s' : Store} {t t' : TripSession} {day : Day}

theorem mem_daysThrough {day first last : Int} : day ∈ daysThrough first last ↔
    first ≤ day ∧ day ≤ last := by
  have hrange : day ∈ daysThrough first last
      ↔ ∃ index : Nat, index < (last - first + 1).toNat ∧ first + (index : Int) = day := by
    simp [daysThrough]
  rw [hrange]
  constructor
  · rintro ⟨index, hindex, rfl⟩
    omega
  · rintro ⟨hfirst, hlast⟩
    exact ⟨(day - first).toNat, by omega, by omega⟩

/-- An instant before the end of a day belongs to it or to an earlier day. -/
theorem lagosDayFor_le {moment : Int} (h : moment < (lagosDayUtcRange day).2) :
    lagosDayFor moment ≤ day := by
  unfold lagosDayUtcRange at h
  unfold lagosDayFor
  have hpos : (0 : Int) < microsPerDay := by norm_num [microsPerDay, microsPerSecond]
  have hlt : (moment + lagosOffset) / microsPerDay < day + 1 :=
    Int.ediv_lt_of_lt_mul hpos (by omega)
  exact Int.lt_add_one_iff.mp hlt

theorem le_lagosDayFor {moment : Int} (h : (lagosDayUtcRange day).1 ≤ moment) :
    day ≤ lagosDayFor moment := by
  unfold lagosDayUtcRange at h
  unfold lagosDayFor
  have hpos : (0 : Int) < microsPerDay := by norm_num [microsPerDay, microsPerSecond]
  refine Int.le_ediv_of_mul_le hpos ?_
  omega

/-- A day that a trip overlaps is one of the days its late batches touch. -/
theorem mem_affectedDays (h : EndedOverlaps t day) (payload : LocationPingBatchCreate) :
    day ∈ affectedDays t payload := by
  rcases h with ⟨hstart, hend⟩
  cases hended : t.endedAt with
  | none => simp [hended] at hend
  | some endedAt =>
      simp only [hended, Option.any_some, ge_iff_le, decide_eq_true_eq] at hend
      refine List.mem_append_left _ (mem_daysThrough.mpr ⟨lagosDayFor_le hstart, ?_⟩)
      simpa [hended] using le_lagosDayFor hend

/-- A trip that ends forward overlaps the day of its start. -/
theorem endedOverlaps_startDay (h : EndsForward t) (hended : t.endedAt.isSome) :
    EndedOverlaps t (lagosDayFor t.startedAt) := by
  rcases Option.isSome_iff_exists.mp hended with ⟨endedAt, hendedAt⟩
  have hpos : (0 : Int) < microsPerDay := by norm_num [microsPerDay, microsPerSecond]
  refine ⟨?_, ?_⟩
  · have hlt := Int.lt_ediv_add_one_mul_self (t.startedAt + lagosOffset) hpos
    simp only [lagosDayUtcRange, lagosDayFor]
    omega
  · have hstart := lagosDayStart_mono h
    have hle := Int.ediv_mul_le (endedAt + lagosOffset) hpos.ne'
    simp only [hendedAt, Option.getD_some, lagosDayUtcRange, lagosDayFor] at hstart
    simp only [hendedAt, Option.any_some, ge_iff_le, decide_eq_true_eq, lagosDayUtcRange,
      lagosDayFor]
    omega

/-- A session without whole seconds has no slices. -/
theorem tripSlices_of_backward (h : t.endedAt.getD t.startedAt ≤ t.startedAt)
    (measurement : Measurement) : tripSlices s t measurement = [] := by
  have hend : economicEnd s t = t.startedAt := by
    unfold economicEnd
    split
    · exact max_eq_left h
    · exact max_eq_left ((min_le_left _ _).trans h)
  have hduration : Pay.sessionDuration s t = 0 := by
    simp [Pay.sessionDuration, hend]
  have hpoints : ∀ point ∈ Pay.boundaries t.startedAt 0 measurement.cuts, point = 0 := by
    intro point hpoint
    have hmem : point ∈ 0 :: 0 :: measurement.cuts.map (min · 0)
        ++ Pay.lagosMidnightOffsets t.startedAt 0 :=
      (List.perm_insertionSort _ _).mem_iff.mp hpoint
    rcases List.mem_append.mp hmem with hcut | hmidnight
    · simp only [List.mem_cons, List.mem_map, Nat.min_zero] at hcut
      rcases hcut with rfl | rfl | ⟨_, _, rfl⟩
      all_goals rfl
    · have hinside := List.of_mem_filter hmidnight
      simp at hinside
  unfold tripSlices Pay.classifySession
  rw [hduration, List.append_eq_nil_iff]
  refine ⟨List.filterMap_eq_nil_iff.mpr ?_, by simp⟩
  rintro ⟨start, stop⟩ hslice
  have hstop : stop = 0 := hpoints stop (List.mem_of_mem_tail (List.of_mem_zip hslice).2)
  simp [hstop]

end

/-! ## What a step keeps -/

section

variable [Evidence] {settings : Settings} {s s' : Store} {t t' : TripSession} {a : TripAction}
  {day : Day}

/-- Cutoffs are written by cancellations alone. -/
theorem tripStep_cutoffs (hkeys : (s.trips.map (·.id)).Nodup)
    (ha : ∀ campaignId cutoffAt, a ≠ .cancelCampaign campaignId cutoffAt)
    (h : tripStep settings s a = .ok s') : s'.cutoffs = s.cutoffs := by
  cases tripStep_write hkeys h with
  | process hwrite => rw [Pay.processEndedTrip_frame hwrite]
  | calculate hwrite => rw [Pay.calculateTripPayout_frame hwrite]
  | approveOrder hwrite => rw [Pay.approveCorrectionOrder_frame hwrite]
  | cancelCampaign campaignId cutoffAt => exact absurd rfl (ha campaignId cutoffAt)
  | _ => rfl

/-- The economic end of a trip whose columns stay never moves on. -/
theorem economicEnd_le (hkeys : (s.trips.map (·.id)).Nodup) (h : tripStep settings s a = .ok s')
    (hstart : t'.startedAt = t.startedAt) (hend : t'.endedAt = t.endedAt)
    (hcampaign : t'.campaignId = t.campaignId) : economicEnd s' t' ≤ economicEnd s t := by
  by_cases ha : ∀ campaignId cutoffAt, a ≠ .cancelCampaign campaignId cutoffAt
  · exact (economicEnd_congr (tripStep_cutoffs hkeys ha h) hstart hend hcampaign).le
  · push Not at ha
    rcases ha with ⟨campaignId, cutoffAt, rfl⟩
    simp only [tripStep, requestCampaignCancellation, bind_eq_ok, require_eq_ok, pure_eq_ok] at h
    rcases h with ⟨_, hfirst, rfl⟩
    have hnone : s.cutoffs.lookup campaignId = none := by
      simpa [Store.financialCutoff] using hfirst
    unfold economicEnd Store.financialCutoff
    rw [hstart, hend, hcampaign, financialCutoff_append hnone]
    split_ifs with hsame
    · rw [hsame, hnone]
      exact max_le_max_left _ (min_le_left _ _)
    · exact le_refl _

/-- Calculations are never removed. -/
theorem calculations_mono (hkeys : (s.trips.map (·.id)).Nodup)
    (h : tripStep settings s a = .ok s') {c : PayoutCalculation} (hc : c ∈ s.calculations) :
    c ∈ s'.calculations := by
  have hpriced : ∀ {strictStaleness : Bool} {inputs : PayoutInputs} {tripId : Id} {now : Int}
      {s₁ s₂ : Store}, c ∈ s₁.calculations →
      calculateTripPayout settings strictStaleness inputs tripId now s₁ = .ok s₂ →
      c ∈ s₂.calculations := by
    intro strictStaleness inputs tripId now s₁ s₂ hc₁ hcalc
    rcases Pay.calculateTripPayout_calculations hcalc with hsame | ⟨_, _, _, _, hadded⟩
    · exact hsame ▸ hc₁
    · exact hadded ▸ List.mem_append_left _ hc₁
  cases a with
  | process tripId fuel inputs now =>
      refine Pay.processEndedTrip_invariant (fun s₁ => c ∈ s₁.calculations) ?_ ?_ ?_
        fuel tripId s s' hc h
      · intro entryId calculation s₁ s₂ hs₁ hensure
        rcases Pay.ensureLedgerEntry_eq hensure with rfl | rfl
        all_goals exact hs₁
      · intro trip s₁ hs₁ _ _
        rw [Pay.analyticsStage_frame]
        exact hs₁
      · intro id s₁ s₂ hs₁ hcalc
        exact hpriced hs₁ hcalc
  | calculate tripId strictStaleness inputs now =>
      exact hpriced hc (Pay.mapError_eq_ok.mp h)
  | _ => exact Pay.tripStep_calculations hkeys (by trivial) h ▸ hc

/-- A sealed trip keeps its columns; at most a late batch is stored. -/
theorem sealedRow_step (hinv : TripsInv settings s) (hverified : SealedVerified s)
    (h : tripStep settings s a = .ok s') (ht : t ∈ s.trips) (hsealed : t.status = .sealed) :
    ∃ t' ∈ s'.trips, SameTrip t t' ∧ t'.status = .sealed ∧ t'.endedAt = t.endedAt
      ∧ (t' = t ∨ ∃ authority payload clock b,
          a = .ingest authority t.driverProfileId t.id payload clock
            ∧ Admits settings s t authority payload clock b
            ∧ t' = { t with batches := t.batches ++ [b] }) := by
  rcases exists_row hinv.keys h ht with ⟨t', ht', hchange⟩
  have hsame := hchange.sameTrip (hinv.wellFormed t ht)
  rcases hchange.of_sealed (hverified t ht) hsealed with hrow | hstored
  · subst hrow
    exact ⟨t', ht', hsame, hsealed, rfl, .inl rfl⟩
  · rcases hstored with ⟨authority, payload, clock, b, ha, hadmits, hrow⟩
    subst hrow
    exact ⟨_, ht', hsame, hsealed, rfl, .inr ⟨authority, payload, clock, b, ha, hadmits, rfl⟩⟩

omit [Evidence] in
theorem EndedOverlaps.congr (h : EndedOverlaps t day) (hstart : t'.startedAt = t.startedAt)
    (hend : t'.endedAt = t.endedAt) : EndedOverlaps t' day := by
  unfold EndedOverlaps
  rw [hstart, hend]
  exact h

/-- A paid day stays paid. -/
theorem PaidDay.step (hinv : TripsInv settings s) (hverified : SealedVerified s)
    (hcalcs : CalculationsInv s) (h : tripStep settings s a = .ok s')
    {driverProfileId campaignId : Id} (hpaid : PaidDay s driverProfileId campaignId day) :
    PaidDay s' driverProfileId campaignId day := by
  rcases hpaid with ⟨c, hc, hdriver, hcampaign, t, ht, hid, hoverlaps⟩
  have hsealed : t.status = .sealed := by
    rcases hcalcs.trips c hc with ⟨owner, howner, hownerId, hownerSealed, _⟩
    rw [eq_of_key_eq hinv.keys ht howner (hid.trans hownerId.symm)]
    exact hownerSealed
  rcases sealedRow_step hinv hverified h ht hsealed with ⟨t', ht', hsame, _, hend, _⟩
  exact ⟨c, calculations_mono hinv.keys h hc, hdriver, hcampaign, t', ht', hsame.1.trans hid,
    hoverlaps.congr hsame.2.2.2.2.2 hend⟩

/-- A late batch of a trip that overlaps a paid day is dropped: it stores no samples. -/
theorem Settled.dropped {authority : CaptureAuthority} {payload : LocationPingBatchCreate}
    {clock : Int} {b : LocationPingBatch} (hsettled : Settled s t day)
    (h : Admits settings s t authority payload clock b) : b.pings = [] := by
  rcases hsettled.paid with ⟨c, hc, hdriver, hcampaign, other, hother, hid, hoverlaps⟩
  have hdropped : Dropped s t payload := by
    refine ⟨by simp [hsettled.sealed], c, hc, hdriver, hcampaign, other, hother, hid, day, ?_,
      hoverlaps⟩
    exact mem_affectedDays hsettled.overlaps payload
  refine List.eq_nil_iff_forall_not_mem.mpr ?_
  intro ping hping
  exact (h.accepted ping hping).1 hdropped

/-- Step: the pings that price a settled trip do not grow. -/
theorem Settled.step (hinv : TripsInv settings s) (hverified : SealedVerified s)
    (hcalcs : CalculationsInv s) (h : tripStep settings s a = .ok s') (hsettled : Settled s t day) :
    ∃ t', Settled s' t' day ∧ t'.id = t.id ∧ t'.pings = t.pings
      ∧ economicEnd s' t' ≤ economicEnd s t := by
  rcases sealedRow_step hinv hverified h hsettled.stored hsettled.sealed with
    ⟨t', ht', hsame, hsealed, hend, hrow⟩
  refine ⟨t', ⟨ht', hsealed, hsettled.overlaps.congr hsame.2.2.2.2.2 hend, ?_⟩, hsame.1, ?_,
    economicEnd_le hinv.keys h hsame.2.2.2.2.2 hend hsame.2.2.1⟩
  · rw [hsame.2.2.2.1, hsame.2.2.1]
    exact hsettled.paid.step hinv hverified hcalcs h
  · rcases hrow with rfl | ⟨_, _, _, b, _, hadmits, rfl⟩
    · rfl
    · rw [pings_append, hsettled.dropped hadmits, List.append_nil]

/-- Run: the same, over any later actions. -/
theorem Settled.run {as : List TripAction} (hs : Reachable (fleet settings) s)
    (hrun : (fleet settings).run s as = .ok s') (hsettled : Settled s t day) :
    ∃ t', Settled s' t' day ∧ t'.id = t.id ∧ t'.pings = t.pings
      ∧ economicEnd s' t' ≤ economicEnd s t := by
  induction as generalizing s t with
  | nil =>
      have hsame : s = s' := by simpa [Machine.run] using hrun
      exact ⟨t, hsame ▸ hsettled, rfl, rfl, hsame ▸ le_refl _⟩
  | cons a as ih =>
      rcases bind_eq_ok.mp hrun with ⟨s₁, hstep, hrest⟩
      rcases hsettled.step (tripsInv_of_reachable hs) (sealedVerified_of_reachable hs)
        (Pay.calculationsInv_of_reachable hs) hstep with ⟨t₁, hsettled₁, hid₁, hpings₁, hend₁⟩
      rcases ih (.step hs trivial hstep) hrest hsettled₁ with ⟨t', hsettled', hid, hpings, hend⟩
      exact ⟨t', hsettled', hid.trans hid₁, hpings.trans hpings₁, hend.trans hend₁⟩

omit [Evidence] in
/-- The same samples up to an earlier end are no more. -/
theorem loadOrderedPings_subperm (hpings : t'.pings = t.pings) {through through' : Int}
    (hle : through' ≤ through) :
    (loadOrderedPings t' through').Subperm (loadOrderedPings t through) := by
  unfold loadOrderedPings
  rw [hpings]
  have hfilter : (t.pings.filter (·.recordedAt ≤ through')).Sublist
      (t.pings.filter (·.recordedAt ≤ through)) := by
    refine List.monotone_filter_right _ ?_
    intro ping hping
    simp only [decide_eq_true_eq] at hping ⊢
    exact hping.trans hle
  exact (List.perm_insertionSort _ _).subperm.trans
    (hfilter.subperm.trans (List.perm_insertionSort _ _).symm.subperm)

/-! ## What was priced can be measured again -/

omit [Evidence] in
/-- A trip that does not end forward ended before it started. -/
theorem endedAt_le_of_not_endsForward (h : ¬ EndsForward t) :
    t.endedAt.getD t.startedAt ≤ t.startedAt := by
  by_contra hafter
  refine h (Int.ediv_le_ediv (by norm_num [microsPerDay, microsPerSecond]) ?_)
  exact Int.add_le_add_right (not_le.mp hafter).le _

omit [Evidence] in
theorem creditedAgain_of_backward {geometry : Id → List LocationPing → Measurement}
    (h : ¬ EndsForward t) : creditedAgain geometry s t = [] := by
  unfold creditedAgain
  rw [tripSlices_of_backward (endedAt_le_of_not_endsForward h)]
  rfl

omit [Evidence] in
theorem creditedAgain_congr {geometry : Id → List LocationPing → Measurement} (hid : t'.id = t.id)
    (hstart : t'.startedAt = t.startedAt) (hend : economicEnd s' t' = economicEnd s t)
    (hpings : t'.pings = t.pings) : creditedAgain geometry s' t' = creditedAgain geometry s t := by
  have hload : ∀ through, loadOrderedPings t' through = loadOrderedPings t through := by
    intro through
    rw [loadOrderedPings, loadOrderedPings, hpings]
  unfold creditedAgain tripSlices Pay.sessionDuration
  rw [hid, hstart, hend, hload]

/-- Measured again, a calculated trip has the metres it was paid for; and its priced
pings are the stored ones. -/
structure PricedInv (geometry : Id → List LocationPing → Measurement) (s : Store) : Prop where
  metres : ∀ c ∈ s.calculations, ∀ t ∈ s.trips, t.id = c.tripSessionId → c.status = .calculated →
    c.position.distanceMByDay = (creditedAgain geometry s t).filter (0 < ·.2)
  pings : ∀ c ∈ s.calculations, ∀ t ∈ s.trips, t.id = c.tripSessionId → EndsForward t →
    ¬ PingSetDrifted s t c

omit [Evidence] in
theorem PricedInv.congr {geometry : Id → List LocationPing → Measurement}
    (hs : PricedInv geometry s) (hcalculations : s'.calculations = s.calculations)
    (htrips : s'.trips = s.trips) (hcutoffs : s'.cutoffs = s.cutoffs) : PricedInv geometry s' := by
  have hend : ∀ t, economicEnd s' t = economicEnd s t :=
    fun t => economicEnd_congr hcutoffs rfl rfl rfl
  refine ⟨?_, ?_⟩
  · rw [hcalculations, htrips]
    intro c hc t ht hid hstatus
    rw [creditedAgain_congr rfl rfl (hend t) rfl]
    exact hs.metres c hc t ht hid hstatus
  · rw [hcalculations, htrips]
    intro c hc t ht hid hforward
    unfold PingSetDrifted
    rw [hend]
    exact hs.pings c hc t ht hid hforward

/-- Pricing measures the pings that are stored. -/
theorem calculateTripPayout_pricedInv {geometry : Id → List LocationPing → Measurement}
    (hkeys : (s.trips.map (·.id)).Nodup) (hs : PricedInv geometry s) {strictStaleness : Bool}
    {inputs : PayoutInputs} {tripId : Id} {now : Int}
    (hmeasured : ∀ t ∈ s.trips, t.id = tripId → inputs.measurement
      = geometry t.id (loadOrderedPings t (economicEnd s t)))
    (h : calculateTripPayout settings strictStaleness inputs tripId now s = .ok s') :
    PricedInv geometry s' := by
  have hframe := Pay.calculateTripPayout_frame h
  have htrips : s'.trips = s.trips := by rw [hframe]
  have hcutoffs : s'.cutoffs = s.cutoffs := by rw [hframe]
  rcases Pay.calculateTripPayout_calculations h with hsame | ⟨trip, c, hid, hnew, hadded⟩
  · exact hs.congr hsame htrips hcutoffs
  · have hkept : PricedInv geometry { s' with calculations := s.calculations } :=
      hs.congr rfl htrips hcutoffs
    have htrip : trip ∈ s.trips := List.mem_of_find?_eq_some hnew.payable.found
    have hend : economicEnd s' trip = economicEnd s trip := economicEnd_congr hcutoffs rfl rfl rfl
    -- only the priced trip has the new calculation
    have hown : ∀ t ∈ s'.trips, t.id = c.tripSessionId → t = trip := by
      intro t ht htid
      exact eq_of_key_eq hkeys (htrips ▸ ht) htrip (htid.trans hnew.columns.1)
    refine ⟨?_, ?_⟩
    · rw [hadded]
      intro x hx t ht hxid hstatus
      rcases List.mem_append.mp hx with hx | hx
      · exact hkept.metres x hx t ht hxid hstatus
      · rw [List.mem_singleton.mp hx] at hxid hstatus ⊢
        rw [hown t ht hxid, creditedAgain_congr rfl rfl hend rfl]
        rcases hnew.priced with ⟨analytics, estimate, binding, _, _, rfl⟩
        have hcalculated : Pay.payoutStatus analytics estimate = .calculated := hstatus
        simp only [Pay.pricedCalculation, Pay.pricedDistance, hcalculated, if_true, creditedAgain,
          hmeasured trip htrip hid]
    · rw [hadded]
      intro x hx t ht hxid hforward
      rcases List.mem_append.mp hx with hx | hx
      · exact hkept.pings x hx t ht hxid hforward
      · rw [List.mem_singleton.mp hx] at hxid ⊢
        rw [hown t ht hxid]
        intro hdrifted
        exact hdrifted (by rw [hend, hnew.columns.2.2.2])

/-- The worker prices trips one by one, each on its stored pings. -/
theorem processEndedTrip_pricedInv {geometry : Id → List LocationPing → Measurement}
    (hkeys : (s.trips.map (·.id)).Nodup) (hs : PricedInv geometry s)
    {inputs : Id → PayoutInputs} {now : Int} {fuel : Nat} {tripId : Id}
    (hmeasured : ∀ t ∈ s.trips, (inputs t.id).measurement
      = geometry t.id (loadOrderedPings t (economicEnd s t)))
    (h : processEndedTrip settings inputs now fuel tripId s = .ok s') : PricedInv geometry s' := by
  refine (Pay.processEndedTrip_invariant
    (fun s₁ => s₁.trips = s.trips ∧ s₁.cutoffs = s.cutoffs ∧ PricedInv geometry s₁) ?_ ?_ ?_
    fuel tripId s s' ⟨rfl, rfl, hs⟩ h).2.2
  · rintro entryId calculation s₁ s₂ ⟨htrips, hcutoffs, hs₁⟩ hensure
    rcases Pay.ensureLedgerEntry_eq hensure with rfl | rfl
    · exact ⟨htrips, hcutoffs, hs₁⟩
    · exact ⟨htrips, hcutoffs, hs₁.congr rfl rfl rfl⟩
  · rintro trip s₁ ⟨htrips, hcutoffs, hs₁⟩ _ _
    rw [Pay.analyticsStage_frame]
    exact ⟨htrips, hcutoffs, hs₁.congr rfl rfl rfl⟩
  · rintro id s₁ s₂ ⟨htrips, hcutoffs, hs₁⟩ hcalc
    have hframe := Pay.calculateTripPayout_frame hcalc
    refine ⟨by rw [hframe]; exact htrips, by rw [hframe]; exact hcutoffs, ?_⟩
    refine calculateTripPayout_pricedInv (htrips ▸ hkeys) hs₁ ?_ hcalc
    intro t ht hid
    rw [economicEnd_congr hcutoffs rfl rfl rfl, ← hid]
    exact hmeasured t (htrips ▸ ht)

/-- Everything else leaves a priced trip as it was measured: its own calculation drops
its late batches. -/
theorem tripStep_pricedInv {geometry : Id → List LocationPing → Measurement}
    (hinv : TripsInv settings s) (hverified : SealedVerified s) (hcalcs : CalculationsInv s)
    (hs : PricedInv geometry s) (hallowed : Measured geometry s a)
    (h : tripStep settings s a = .ok s') : PricedInv geometry s' := by
  have hkeys' := (tripStep_tripsInv hinv h).keys
  by_cases hpricing : Pay.PricesNothing a
  · have hcalculations := Pay.tripStep_calculations hinv.keys hpricing h
    -- a priced trip keeps its end, its cutoff and, unless it ends before its start, its pings
    have hrow : ∀ c ∈ s.calculations, ∀ t' ∈ s'.trips, t'.id = c.tripSessionId →
        ∃ t ∈ s.trips, SameTrip t t' ∧ economicEnd s' t' = economicEnd s t
          ∧ (EndsForward t' ↔ EndsForward t) ∧ (EndsForward t → t'.pings = t.pings) := by
      intro c hc t' ht' hid'
      rcases hcalcs.trips c hc with ⟨t, ht, hid, hsealed, hdriver, hcampaign⟩
      rcases sealedRow_step hinv hverified h ht hsealed with ⟨row, hrow, hsame, _, hend, hchange⟩
      have hself : row = t' := eq_of_key_eq hkeys' hrow ht' (by rw [hsame.1, hid, hid'])
      subst hself
      refine ⟨t, ht, hsame, ?_, ?_, ?_⟩
      · by_cases ha : ∀ campaignId cutoffAt, a ≠ .cancelCampaign campaignId cutoffAt
        · exact economicEnd_congr (tripStep_cutoffs hinv.keys ha h) hsame.2.2.2.2.2 hend
            hsame.2.2.1
        · push Not at ha
          rcases ha with ⟨campaignId, cutoffAt, rfl⟩
          -- no campaign with a priced trip is cancelled
          have hother : t.campaignId ≠ campaignId := hcampaign ▸ hallowed c hc
          simp only [tripStep, requestCampaignCancellation, bind_eq_ok, require_eq_ok,
            pure_eq_ok] at h
          rcases h with ⟨_, hfirst, rfl⟩
          have hnone : s.cutoffs.lookup campaignId = none := by
            simpa [Store.financialCutoff] using hfirst
          unfold economicEnd Store.financialCutoff
          rw [hsame.2.2.2.2.2, hend, hsame.2.2.1, financialCutoff_append hnone, if_neg hother]
      · unfold EndsForward
        rw [hsame.2.2.2.2.2, hend]
      · intro hforward
        rcases hchange with rfl | ⟨_, _, _, b, _, hadmits, rfl⟩
        · rfl
        · have hended := ((hinv.wellFormed t ht).inactive (by simp [hsealed])).1
          have hoverlaps := endedOverlaps_startDay hforward hended
          -- the start day was paid, so a late batch is dropped whole
          have hsettled : Settled s t (lagosDayFor t.startedAt) :=
            ⟨ht, hsealed, hoverlaps, c, hc, hdriver.symm, hcampaign.symm, t, ht, hid, hoverlaps⟩
          rw [pings_append, hsettled.dropped hadmits, List.append_nil]
    refine ⟨?_, ?_⟩
    · rw [hcalculations]
      intro c hc t' ht' hid' hstatus
      rcases hrow c hc t' ht' hid' with ⟨t, ht, hsame, hend, hforward, hpings⟩
      rw [hs.metres c hc t ht (hsame.1.symm.trans hid') hstatus]
      by_cases hday : EndsForward t
      · rw [creditedAgain_congr hsame.1 hsame.2.2.2.2.2 hend (hpings hday)]
      · rw [creditedAgain_of_backward hday, creditedAgain_of_backward (hforward.not.mpr hday)]
    · rw [hcalculations]
      intro c hc t' ht' hid' hday
      rcases hrow c hc t' ht' hid' with ⟨t, ht, hsame, hend, hforward, hpings⟩
      have hkept := hs.pings c hc t ht (hsame.1.symm.trans hid') (hforward.mp hday)
      unfold PingSetDrifted loadOrderedPings at hkept ⊢
      rw [hpings (hforward.mp hday), hend]
      exact hkept
  · cases a with
    | process tripId fuel inputs now => exact processEndedTrip_pricedInv hinv.keys hs hallowed h
    | calculate tripId strictStaleness inputs now =>
        exact calculateTripPayout_pricedInv hinv.keys hs hallowed (Pay.mapError_eq_ok.mp h)
    | _ => exact absurd trivial hpricing

theorem pricedInv_of_reachable {geometry : Id → List LocationPing → Measurement}
    (hs : ReachableBy (fleet settings) (Measured geometry) s) : PricedInv geometry s := by
  refine hs.invariant_of
    (fun s => TripsInv settings s ∧ SealedVerified s ∧ CalculationsInv s)
    (fun _ h => ⟨tripsInv_of_reachable h, sealedVerified_of_reachable h,
      Pay.calculationsInv_of_reachable h⟩) (PricedInv geometry) ?_ ?_
  · exact ⟨fun _ h => absurd h List.not_mem_nil, fun _ h => absurd h List.not_mem_nil⟩
  · rintro s a s' ⟨hinv, hverified, hcalcs⟩ hpriced hallowed hstep
    exact tripStep_pricedInv hinv hverified hcalcs hpriced hallowed hstep

/-- Once a trip of a driver, campaign and day is calculated, no later run adds pings to a
sealed trip of that day; and a calculated trip always measures to the metres it was paid
for, on the pings it was paid for unless its recorded end precedes the day of its start. -/
theorem late_data_keeps_pay (settings : Settings)
    (geometry : Id → List LocationPing → Measurement) :
    (∀ s, Reachable (fleet settings) s → ∀ as s', (fleet settings).run s as = .ok s' →
      ∀ c ∈ s.calculations, ∀ owner ∈ s.trips, owner.id = c.tripSessionId →
      ∀ t ∈ s.trips, t.status = .sealed → t.driverProfileId = c.driverProfileId →
        t.campaignId = c.campaignId → ∀ day, EndedOverlaps owner day → EndedOverlaps t day →
      ∀ t' ∈ s'.trips, t'.id = t.id → t'.pings = t.pings
        ∧ (loadOrderedPings t' (economicEnd s' t')).Subperm
            (loadOrderedPings t (economicEnd s t)))
    ∧ ∀ s, ReachableBy (fleet settings) (Measured geometry) s →
      ∀ c ∈ s.calculations, ∀ t ∈ s.trips, t.id = c.tripSessionId →
        (c.status = .calculated →
          c.position.distanceMByDay = (creditedAgain geometry s t).filter (0 < ·.2))
        ∧ (EndsForward t → ¬ PingSetDrifted s t c) := by
  refine ⟨?_, ?_⟩
  · intro s hs as s' hrun c hc owner howner hid t ht hsealed hdriver hcampaign day hday htday
      t' ht' hid'
    have hsettled : Settled s t day :=
      ⟨ht, hsealed, htday, c, hc, hdriver.symm, hcampaign.symm, owner, howner, hid, hday⟩
    rcases hsettled.run hs hrun with ⟨row, hrow, hrowId, hpings, hend⟩
    have hs' : Reachable (fleet settings) s' := (fleet settings).run_reachable hs hrun
    have hself : row = t' :=
      eq_of_key_eq (tripsInv_of_reachable hs').keys hrow.stored ht' (hrowId.trans hid'.symm)
    subst hself
    exact ⟨hpings, loadOrderedPings_subperm hpings hend⟩
  · intro s hs c hc t ht hid
    have hinv := pricedInv_of_reachable hs
    exact ⟨hinv.metres c hc t ht hid, hinv.pings c hc t ht hid⟩

end

/-! ## Two sample runs -/

/-- Geometry that credits every trip one kilometre. -/
def kilometreEach (_ : Id) (_ : List LocationPing) : Measurement :=
  sampleMeasurement 1000

theorem measured_of_kilometre {a : TripAction}
    (h : match a with
      | .process _ _ inputs _ => ∀ tripId, (inputs tripId).measurement = sampleMeasurement 1000
      | .calculate _ _ inputs _ => inputs.measurement = sampleMeasurement 1000
      | .cancelCampaign .. => False
      | _ => True) (s : Store) : Measured kilometreEach s a := by
  cases a with
  | process tripId fuel inputs now => exact fun t _ => h t.id
  | calculate tripId strictStaleness inputs now => exact fun _ _ _ => h
  | cancelCampaign => exact h.elim
  | _ => trivial

section

local instance lateSampleEvidence : Evidence := sampleEvidence

def pricedAlone : List TripAction :=
  [bindSample] ++ sealedTrip 1 0
    ++ [.process 1 2 (sampleInputs (fun _ => 1000)) (secondsAfterNoon 100)]

/-- A late batch of a calculated trip is received and adds no pings. -/
theorem late_data_keeps_pay_dropped :
    ∃ s s', Reachable (fleet sampleSettings) s
      ∧ (fleet sampleSettings).run s
          [deliverBatch 1 (samplePayload "late" 1 [30]) (secondsAfterNoon 200)] = .ok s'
      ∧ ∃ c ∈ s.calculations, c.status = .calculated ∧ ∃ t ∈ s.trips, ∃ t' ∈ s'.trips,
          t'.batches.length = 2 ∧ t'.pings = t.pings
          ∧ c.position.distanceMByDay = (creditedAgain kilometreEach s t).filter (0 < ·.2)
          ∧ ¬ PingSetDrifted s t c := by
  rcases (fleet sampleSettings).exists_run {} pricedAlone (fun s =>
      s.calculations.any (fun c => c.status = .calculated && s.trips.any (fun t =>
        t.id = c.tripSessionId && t.status = .sealed && t.driverProfileId = c.driverProfileId
        && t.campaignId = c.campaignId && EndedOverlaps t 1
        && lagosDayFor t.startedAt ≤ lagosDayFor (t.endedAt.getD t.startedAt)
        && ((fleet sampleSettings).run s
          [deliverBatch 1 (samplePayload "late" 1 [30]) (secondsAfterNoon 200)]).toOption.any
            (fun s' => s'.trips.any (fun t' => t'.id = t.id && t'.batches.length = 2)))))
      (by decide +kernel) with ⟨s, hrun, htest⟩
  rcases List.any_eq_true.mp htest with ⟨c, hc, htest⟩
  simp only [Bool.and_eq_true, decide_eq_true_eq, List.any_eq_true] at htest
  rcases htest with ⟨hstatus, t, ht, ⟨⟨⟨⟨⟨hid, hsealed⟩, hdriver⟩, hcampaign⟩, hday⟩, hforward⟩,
    hlate⟩
  rcases (fleet sampleSettings).exists_run s _ _ hlate with ⟨s', hrun', htest'⟩
  simp only [Bool.and_eq_true, decide_eq_true_eq, List.any_eq_true] at htest'
  rcases htest' with ⟨t', ht', hid', hbatches⟩
  have hmeasured : ReachableBy (fleet sampleSettings) (Measured kilometreEach) s := by
    refine (fleet sampleSettings).run_reachableBy .init ?_ hrun
    intro a ha s
    refine measured_of_kilometre ?_ s
    simp only [pricedAlone, sealedTrip, List.mem_append, List.mem_cons, List.not_mem_nil,
      or_false] at ha
    rcases ha with (rfl | rfl | rfl | rfl) | rfl
    · trivial
    · trivial
    · trivial
    · trivial
    · exact fun _ => rfl
  rcases late_data_keeps_pay sampleSettings kilometreEach with ⟨hkept, hagain⟩
  rcases hagain s hmeasured c hc t ht hid with ⟨hmetres, hpings⟩
  exact ⟨s, s', hmeasured.reachable, hrun', c, hc, hstatus, t, ht, t', ht', hbatches,
    (hkept s hmeasured.reachable _ s' hrun' c hc t ht hid t ht hsealed hdriver hcampaign 1 hday
      hday t' ht' hid').1, hmetres hstatus, hpings hforward⟩

def secondsAfterMidnight (seconds : Int) : Int := secondsAfterNoon (12 * 3600 + seconds)

/-- The samples of a trip, in seconds after midnight. -/
def midnightPayload (key : String) (sequence : Nat) (seconds : List Int) :
    LocationPingBatchCreate :=
  samplePayload key sequence (seconds.map (12 * 3600 + ·))

/-- A trip that starts after midnight and ends, by a clock set back, before it. -/
def endsBeforeMidnight : List TripAction :=
  [ bindSample,
    startTrip 1 (secondsAfterMidnight 10),
    deliverBatch 1 (midnightPayload "k" 0 [-20, -10]) (secondsAfterMidnight 12),
    .endTrip 7 1 none (some (manifestOf 1 true [midnightPayload "k" 0 [-20, -10]]))
      (secondsAfterMidnight (-5)),
    .process 1 2 (sampleInputs (fun _ => 1000)) (secondsAfterMidnight 20),
    deliverBatch 1 (midnightPayload "late" 1 [-15]) (secondsAfterMidnight 30) ]

/-- The trip overlaps no day, so its own late batch enters its priced pings. -/
theorem not_always_undrifted :
    ¬ ∀ s, ReachableBy (fleet sampleSettings) (Measured kilometreEach) s →
      ∀ c ∈ s.calculations, ∀ t ∈ s.trips, t.id = c.tripSessionId → ¬ PingSetDrifted s t c := by
  intro hclaim
  rcases (fleet sampleSettings).exists_run {} endsBeforeMidnight (fun s =>
      s.calculations.any (fun c => s.trips.any (fun t => t.id = c.tripSessionId
        && c.pricedPings.length = 2 && (loadOrderedPings t (economicEnd s t)).length = 3)))
      (by decide +kernel) with ⟨s, hrun, htest⟩
  rcases List.any_eq_true.mp htest with ⟨c, hc, htest⟩
  simp only [Bool.and_eq_true, decide_eq_true_eq, List.any_eq_true] at htest
  rcases htest with ⟨t, ht, ⟨hid, hpriced⟩, hstored⟩
  have hmeasured : ReachableBy (fleet sampleSettings) (Measured kilometreEach) s := by
    refine (fleet sampleSettings).run_reachableBy .init ?_ hrun
    intro a ha s
    refine measured_of_kilometre ?_ s
    simp only [endsBeforeMidnight, List.mem_cons, List.not_mem_nil, or_false] at ha
    rcases ha with rfl | rfl | rfl | rfl | rfl | rfl
    · trivial
    · trivial
    · trivial
    · trivial
    · exact fun _ => rfl
    · trivial
  refine hclaim s hmeasured c hc t ht hid ?_
  intro hsame
  rw [hsame, hpriced] at hstored
  exact absurd hstored (by simp)

end

end Trips
end Mobility
