import Mathlib.Algebra.BigOperators.Group.Finset.Piecewise
import Mathlib.Algebra.Order.BigOperators.Group.Finset
import Mathlib.Data.Int.Interval
import Mobility.Lib.Totals
import Mobility.Trips.LateData

/-!
# Credits — metres and money by Lagos day

A credited slice lies in its trip, so a trip overlaps every day it is credited on.  With
that, what the day reader sums is a total over all calculations of the driver and campaign.
-/

namespace Mobility
namespace Pay

open Lib
open Trips
open Payout (Digest EarningsLedgerEntryStatus)

/-! ## Days of slices -/

section

variable {s : Store} {trip : TripSession} {start : Int} {duration : Nat}
  {measurement : Measurement} {slice : EligibleSlice}

theorem boundaries_le {cuts : List Nat} {point : Nat} (h : point ∈ boundaries start duration cuts) :
    point ≤ duration := by
  have hmem : point ∈ 0 :: duration :: cuts.map (min · duration)
      ++ lagosMidnightOffsets start duration := (List.perm_insertionSort _ _).mem_iff.mp h
  rcases List.mem_append.mp hmem with hcut | hmidnight
  · simp only [List.mem_cons, List.mem_map] at hcut
    rcases hcut with rfl | rfl | ⟨cut, _, rfl⟩
    · exact Nat.zero_le _
    · exact le_refl _
    · exact min_le_right _ _
  · have hinside : 0 < point ∧ point < duration := by simpa using List.of_mem_filter hmidnight
    exact hinside.2.le

/-- A credited slice starts inside the session, at a credited offset or at an instant. -/
theorem mem_classifySession (h : slice ∈ classifySession start duration measurement) :
    ∃ offset : Nat, offset < duration ∧ slice.day = lagosDayAt start offset
      ∧ ((∃ stop metres, measurement.credited offset stop = some metres)
        ∨ ∃ instant ∈ measurement.instants, instant.1 = offset) := by
  rcases List.mem_append.mp h with hslice | hinstant
  · rcases List.mem_filterMap.mp hslice with ⟨points, hpoints, hcredited⟩
    split_ifs at hcredited with hlt
    rcases Option.map_eq_some_iff.mp hcredited with ⟨metres, hmetres, rfl⟩
    have hstop := boundaries_le (List.mem_of_mem_tail (List.of_mem_zip hpoints).2)
    exact ⟨points.1, hlt.trans_le hstop, rfl, .inl ⟨points.2, metres, hmetres⟩⟩
  · rcases List.mem_map.mp hinstant with ⟨instant, hmem, rfl⟩
    rcases List.mem_filter.mp hmem with ⟨hmem, hinside⟩
    exact ⟨instant.1, by simpa using hinside, rfl, .inr ⟨instant, hmem, rfl⟩⟩

theorem lagosDayUtcRange_self (moment : Int) :
    (lagosDayUtcRange (lagosDayFor moment)).1 ≤ moment
      ∧ moment < (lagosDayUtcRange (lagosDayFor moment)).2 := by
  have hpos : (0 : Int) < microsPerDay := by norm_num [microsPerDay, microsPerSecond]
  have hle := Int.ediv_mul_le (moment + lagosOffset) hpos.ne'
  have hlt := Int.lt_ediv_add_one_mul_self (moment + lagosOffset) hpos
  simp only [lagosDayUtcRange, lagosDayFor]
  constructor <;> omega

/-- An offset below a floored number of seconds lies strictly before the end. -/
theorem offset_lt {moment : Int} {offset : Nat}
    (h : offset < ((moment - start) / microsPerSecond).toNat) :
    start + offset * microsPerSecond < moment := by
  unfold microsPerSecond at h ⊢
  omega

/-- An offset inside the session lies between the start and the recorded end. -/
theorem offset_before_end {offset : Nat} (h : offset < sessionDuration s trip) :
    trip.startedAt + offset * microsPerSecond < trip.endedAt.getD trip.startedAt := by
  have hlt := offset_lt h
  have hfrom : trip.startedAt ≤ trip.startedAt + offset * microsPerSecond := by
    unfold microsPerSecond
    omega
  have hend : economicEnd s trip ≤ max trip.startedAt (trip.endedAt.getD trip.startedAt) := by
    unfold economicEnd
    refine max_le_max_left _ ?_
    split
    · exact le_refl _
    · exact min_le_left _ _
  rcases le_max_iff.mp hend with hend | hend
  · omega
  · exact hlt.trans_le hend

/-- A trip overlaps the days of its slices. -/
theorem dayTripOverlap_of_slice (h : slice ∈ tripSlices s trip measurement) :
    DayTripOverlap trip slice.day := by
  rcases mem_classifySession h with ⟨offset, hinside, hday, _⟩
  rcases lagosDayUtcRange_self (trip.startedAt + offset * microsPerSecond) with ⟨hfrom, hto⟩
  have hend := offset_before_end hinside
  have hstart : trip.startedAt ≤ trip.startedAt + offset * microsPerSecond := by
    unfold microsPerSecond
    omega
  rw [hday, lagosDayAt]
  exact ⟨hstart.trans_lt hto, (hfrom.trans_lt hend).le⟩

end

/-! ## Values by day -/

section

variable {values : ByDay} {day : Day}

@[simp]
theorem get_nil : ByDay.get [] day = 0 := rfl

@[simp]
theorem get_cons {entry : Day × Int} :
    ByDay.get (entry :: values) day = if day = entry.1 then entry.2 else values.get day := by
  unfold ByDay.get
  rw [List.lookup_cons]
  by_cases hday : day = entry.1
  · simp [hday]
  · have hne : (day == entry.1) = false := by simpa using hday
    simp [hday, hne]

theorem get_eq_zero (h : ∀ entry ∈ values, entry.1 ≠ day) : values.get day = 0 := by
  induction values with
  | nil => rfl
  | cons entry rest ih =>
      have hne : day ≠ entry.1 := fun heq => h entry (by simp) heq.symm
      rw [get_cons, if_neg hne]
      exact ih (fun other hother => h other (List.mem_cons_of_mem _ hother))

/-- A value that is not zero is stored. -/
theorem mem_of_get_ne_zero (h : values.get day ≠ 0) : (day, values.get day) ∈ values := by
  induction values with
  | nil => exact absurd rfl h
  | cons entry rest ih =>
      rw [get_cons] at h ⊢
      split_ifs at h ⊢ with hday
      · exact List.mem_cons.mpr (.inl (by rw [hday]))
      · exact List.mem_cons_of_mem _ (ih h)

/-- A day's new value replaces the old one, and no other. -/
theorem get_replace {day' : Day} {value : Option Int} :
    (values.replace day value).get day' = if day' = day then value.getD 0 else values.get day' := by
  induction values with
  | nil =>
      cases value with
      | none => simp [ByDay.replace]
      | some value => simp [ByDay.replace]
  | cons entry rest ih =>
      by_cases hentry : entry.1 = day
      · have hdrop : ByDay.replace (entry :: rest) day value = ByDay.replace rest day value := by
          simp [ByDay.replace, hentry]
        rw [hdrop, ih, get_cons, hentry]
        split_ifs <;> rfl
      · have hkeep : ByDay.replace (entry :: rest) day value
            = entry :: ByDay.replace rest day value := by
          simp [ByDay.replace, hentry]
        rw [hkeep, get_cons, get_cons, ih]
        by_cases hday : day' = entry.1
        · have hother : day' ≠ day := fun heq => hentry (hday ▸ heq)
          rw [if_pos hday, if_neg hother, if_pos hday]
        · rw [if_neg hday, if_neg hday]

/-- Days apart from each other: the values add up over any days that hold them all. -/
theorem sum_values (hkeys : (values.map (·.1)).Nodup) {days : Finset Day}
    (hdays : ∀ entry ∈ values, entry.1 ∈ days) :
    (values.map (·.2)).sum = ∑ day ∈ days, values.get day := by
  induction values with
  | nil => simp
  | cons entry rest ih =>
      rw [List.map_cons, List.nodup_cons] at hkeys
      have hrest := ih hkeys.2 (fun other hother => hdays other (List.mem_cons_of_mem _ hother))
      have hapart : ByDay.get rest entry.1 = 0 := by
        refine get_eq_zero ?_
        intro other hother heq
        exact hkeys.1 (heq ▸ List.mem_map_of_mem hother)
      have hsplit : ∀ day, ByDay.get (entry :: rest) day
          = (if day = entry.1 then entry.2 else 0) + ByDay.get rest day := by
        intro day
        rw [get_cons]
        split_ifs with hday
        · rw [hday, hapart, Int.add_zero]
        · rw [Int.zero_add]
      calc
        ((entry :: rest).map (·.2)).sum = entry.2 + ∑ day ∈ days, ByDay.get rest day := by
          rw [List.map_cons, List.sum_cons, hrest]
        _ = (∑ day ∈ days, if day = entry.1 then entry.2 else 0) + ∑ day ∈ days, ByDay.get rest day := by
          rw [Finset.sum_ite_eq', if_pos (hdays entry (by simp))]
        _ = ∑ day ∈ days, ByDay.get (entry :: rest) day := by
          rw [← Finset.sum_add_distrib]
          exact Finset.sum_congr rfl (fun day _ => (hsplit day).symm)

end

/-! ## Priced days -/

section

variable {slices : List EligibleSlice} {status : PayoutCalculationStatus} {terms : DailyRateTerms}
  {prior : Day → Int} {distance : ByDay} {day : Day}

/-- Each day's money is the increment of the day's pay. -/
theorem get_pricedAmounts : (pricedAmounts prior terms distance).get day
    = dayPayNaira (prior day + distance.get day) terms - dayPayNaira (prior day) terms := by
  induction distance with
  | nil => simp [pricedAmounts]
  | cons entry rest ih =>
      have hsplit : pricedAmounts prior terms (entry :: rest)
          = (entry.1, dayPayNaira (prior entry.1 + entry.2) terms
              - dayPayNaira (prior entry.1) terms) :: pricedAmounts prior terms rest := rfl
      rw [hsplit, get_cons, get_cons, ih]
      split_ifs with hday
      · rw [hday]
      · rfl

theorem pricedAmounts_keys : (pricedAmounts prior terms distance).map (·.1) = distance.map (·.1) := by
  simp [pricedAmounts]

/-- Priced metres are positive and belong to slices. -/
theorem mem_pricedDistance {entry : Day × Int} (h : entry ∈ pricedDistance status slices) :
    0 < entry.2 ∧ ∃ slice ∈ slices, slice.day = entry.1 := by
  unfold pricedDistance at h
  split_ifs at h
  · rcases List.mem_filter.mp h with ⟨hmem, hpositive⟩
    rcases List.mem_map.mp hmem with ⟨day, hday, rfl⟩
    rcases List.mem_map.mp (List.mem_dedup.mp hday) with ⟨slice, hslice, rfl⟩
    exact ⟨by simpa using hpositive, slice, hslice, rfl⟩
  · exact absurd h List.not_mem_nil

theorem get_pricedDistance_nonneg : 0 ≤ (pricedDistance status slices).get day := by
  by_contra hneg
  have hmem := mem_of_get_ne_zero (fun hzero => hneg (hzero ▸ le_refl _))
  exact hneg (mem_pricedDistance hmem).1.le

theorem pricedDistance_keys : ((pricedDistance status slices).map (·.1)).Nodup := by
  have hall : ((creditedDistanceMByDay slices).map (·.1)).Nodup := by
    have hmap : (creditedDistanceMByDay slices).map (·.1) = (slices.map (·.day)).dedup := by
      simp [creditedDistanceMByDay, Function.comp_def]
    rw [hmap]
    exact List.nodup_dedup _
  unfold pricedDistance
  split_ifs
  · exact hall.sublist (List.filter_sublist.map _)
  · exact List.nodup_nil

end

/-! ## The day reader -/

section

variable {s s' : Store} {driverProfileId campaignId : Id}

/-- A calculation for the driver and campaign. -/
def paysFor (driverProfileId campaignId : Id) (c : PayoutCalculation) : Bool :=
  c.driverProfileId = driverProfileId && c.campaignId = campaignId

/-- Whole metres of a calculation on a day, as its latest position has them. -/
def latestMetres (s : Store) (day : Day) (c : PayoutCalculation) : Int :=
  (latestDailyRatePosition s c).distanceMByDay.get day

def NoneVoided (s : Store) : Prop :=
  ∀ entry ∈ s.entries, entry.status ≠ .voided

/-- Trips overlap the days they are credited on. -/
def CreditsOverlap (s : Store) : Prop :=
  ∀ c ∈ s.calculations, ∀ day, latestMetres s day c ≠ 0 →
    ∃ trip ∈ s.trips, trip.id = c.tripSessionId ∧ DayTripOverlap trip day

theorem voidedTripPayout_eq_false (h : NoneVoided s) (tripId : Id) :
    voidedTripPayout s tripId = false := by
  unfold voidedTripPayout
  cases hentry : tripPayoutEntryFor? s tripId with
  | none => rfl
  | some entry => simpa using h entry (List.mem_of_find?_eq_some hentry)

/-- The day reader sums the latest metres of the other trips of the driver and campaign. -/
theorem dayCreditedDistanceM_eq (honce : PricedOnce s) (hvoids : NoneVoided s)
    (hoverlaps : CreditsOverlap s) (day : Day) (excludeTripId : Id) :
    dayCreditedDistanceM s driverProfileId campaignId day excludeTripId
      = total (fun c => paysFor driverProfileId campaignId c && c.tripSessionId ≠ excludeTripId)
          (latestMetres s day) s.calculations := by
  unfold dayCreditedDistanceM creditingCalculations
  rw [latestByTrip_filter honce]
  refine total_congr_of_zero ?_
  intro c hc
  by_cases hzero : latestMetres s day c = 0
  · exact .inr hzero
  · have hoverlap := hoverlaps c hc day hzero
    refine .inl ?_
    simp [paysFor, hoverlap, voidedTripPayout_eq_false hvoids, Bool.and_assoc]

/-- For a trip without a calculation, it sums them all. -/
theorem dayCreditedDistanceM_first (honce : PricedOnce s) (hvoids : NoneVoided s)
    (hoverlaps : CreditsOverlap s) (day : Day) {tripId : Id}
    (hfirst : calculationFor? s tripId = none) :
    dayCreditedDistanceM s driverProfileId campaignId day tripId
      = total (paysFor driverProfileId campaignId) (latestMetres s day) s.calculations := by
  rw [dayCreditedDistanceM_eq honce hvoids hoverlaps]
  refine total_congr ?_
  intro c hc
  simp [(calculationFor?_eq_none honce).mp hfirst c hc]

end

/-! ## Entries -/

section

variable [Evidence] {settings : Settings} {s s' : Store} {a : TripAction}

/-- What the writers of entries give every entry, all entries have. -/
theorem tripStep_entries (P : EarningsLedgerEntry → Prop)
    (hpayout : ∀ entryId c, P (tripPayoutEntry entryId c))
    (hdeduct : ∀ entry : EarningsLedgerEntry, entry.entryType = .reversal →
      entry.status = .available → entry.recomputeDay = none → P entry)
    (hmark : ∀ (entry : EarningsLedgerEntry) (status : EarningsLedgerEntryStatus),
      status = .available ∨ status = .paid → P entry → P { entry with status := status })
    (hcorrect : ∀ authorized orderId fingerprint releaseAt measure entryId executedAt,
      a = .approveOrder authorized orderId fingerprint releaseAt measure entryId executedAt →
      ∀ s₁ campaignId driverProfileId at' id target,
        P (differentialEntry s₁ campaignId driverProfileId at' id target))
    (hkeys : (s.trips.map (·.id)).Nodup) (hs : ∀ entry ∈ s.entries, P entry)
    (h : tripStep settings s a = .ok s') : ∀ entry ∈ s'.entries, P entry := by
  -- entries are appended by four writers; the cases below name them
  have hadd : ∀ {s₁ : Store} {row : EarningsLedgerEntry}, (∀ entry ∈ s₁.entries, P entry) → P row →
      ∀ entry ∈ s₁.entries ++ [row], P entry := by
    intro s₁ row hs₁ hrow entry hentry
    rcases List.mem_append.mp hentry with hentry | hentry
    · exact hs₁ entry hentry
    · exact List.mem_singleton.mp hentry ▸ hrow
  have hensured : ∀ {entryId : Id} {c : PayoutCalculation} {s₁ s₂ : Store},
      ensureLedgerEntry entryId c s₁ = .ok s₂ → (∀ entry ∈ s₁.entries, P entry) →
      ∀ entry ∈ s₂.entries, P entry := by
    intro entryId c s₁ s₂ hensure hs₁
    rcases ensureLedgerEntry_eq hensure with rfl | rfl
    · exact hs₁
    · exact hadd hs₁ (hpayout entryId c)
  have hpriced : ∀ {strictStaleness : Bool} {inputs : PayoutInputs} {tripId : Id} {now : Int}
      {s₁ s₂ : Store}, (∀ entry ∈ s₁.entries, P entry) →
      calculateTripPayout settings strictStaleness inputs tripId now s₁ = .ok s₂ →
      ∀ entry ∈ s₂.entries, P entry := by
    intro strictStaleness inputs tripId now s₁ s₂ hs₁ hcalc
    rcases calculateTripPayout_eq hcalc with
      ⟨_, _, _, _, _, _, ⟨_, _, hensure⟩ | ⟨_, _, _, _, _, _, hensure⟩⟩
    · exact hensured hensure hs₁
    · exact hensured hensure hs₁
  cases tripStep_write hkeys h with
  | process hwrite =>
      refine processEndedTrip_invariant (fun s₁ => ∀ entry ∈ s₁.entries, P entry) ?_ ?_ ?_
        _ _ s s' hs hwrite
      · exact fun entryId c s₁ s₂ hs₁ hensure => hensured hensure hs₁
      · intro trip s₁ hs₁ _ _
        rw [analyticsStage_frame]
        exact hs₁
      · exact fun id s₁ s₂ hs₁ hcalc => hpriced hs₁ hcalc
  | calculate hwrite => exact hpriced hs hwrite
  | approveOrder hwrite =>
      rcases approveCorrectionOrder_eq hwrite with
        ⟨_, _, ⟨_, rfl⟩ | ⟨_, computations, _, ⟨_, rfl⟩ | ⟨_, posted, hposted, rfl⟩⟩⟩
      · exact hs
      · exact hs
      · have hkept : ∀ entry ∈ posted.entries, P entry := by
          refine writeDayDifferentials_invariant (fun s₁ => ∀ entry ∈ s₁.entries, P entry)
            ?_ hs hposted
          intro s₁ computation target s₂ _ _ hs₁ hpost
          -- a day without a difference posts nothing
          rcases writeDayDifferential_eq hpost with ⟨_, rfl⟩ | ⟨_, rfl⟩
          · exact hs₁
          · exact hadd hs₁ (hcorrect _ _ _ _ _ _ _ rfl _ _ _ _ _ _)
        exact hkept
  | deduct row htype hstatus hplain => exact hadd hs (hdeduct row htype hstatus hplain)
  | markEntry entryId status hstatus =>
      intro entry hentry
      rcases List.mem_map.mp hentry with ⟨row, hrow, rfl⟩
      split_ifs
      · exact hmark row status hstatus (hs row hrow)
      · exact hs row hrow
  | _ => exact hs

omit [Evidence] in
theorem differentialEntry_live (campaignId driverProfileId : Id) (executedAt : Int) (id : Id)
    (target : DayTripTarget) :
    (differentialEntry s campaignId driverProfileId executedAt id target).status ≠ .voided := by
  have hlive : differentialStatus s target ≠ .voided := by
    unfold differentialStatus
    split_ifs
    · simp
    · simp
    · split
      · split_ifs with hvoided
        · exact hvoided
        · simp
      · simp
  exact hlive

/-- No service voids an entry. -/
theorem noneVoided_of_reachable (hs : Reachable (fleet settings) s) : NoneVoided s := by
  refine hs.invariant_of (TripsInv settings) (fun _ h => tripsInv_of_reachable h) NoneVoided
    (fun _ h => absurd h List.not_mem_nil) ?_
  intro s a s' hinv hP _ hstep
  refine tripStep_entries (·.status ≠ .voided) ?_ ?_ ?_ ?_ hinv.keys hP hstep
  · exact fun _ _ => by simp [tripPayoutEntry]
  · exact fun entry _ hstatus _ => by simp [hstatus]
  · rintro entry status (rfl | rfl) _
    · simp
    · simp
  · exact fun _ _ _ _ _ _ _ _ _ _ _ _ _ _ => differentialEntry_live _ _ _ _ _

end

end Pay
end Mobility
