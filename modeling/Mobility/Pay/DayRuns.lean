import Mobility.Pay.DayTotals

/-!
# DayRuns — the day-total law over every run

The law leans on what is known of the rows it reads: one calculation per trip, no voided
entry, positions inside their trips, and recorded positions with the times of executed
orders.  `DayInv` puts them together; every service keeps it.
-/

namespace Mobility
namespace Pay

open Lib
open Trips
open Payout (Digest)

section

variable {s s' : Store} {c : PayoutCalculation}

/-! ## Recorded positions -/

theorem RecordedInv.congr (h : RecordedInv s) (hcalculations : s'.calculations = s.calculations)
    (hentries : s'.entries = s.entries) (horders : s'.orders = s.orders) : RecordedInv s' where
  entries := by
    rw [hcalculations, hentries, horders]
    exact h.entries
  results := by
    rw [hcalculations, horders]
    exact h.results
  orderIds := by
    rw [horders]
    exact h.orderIds

theorem RecordedInv.appendEntry (h : RecordedInv s) {entry : EarningsLedgerEntry}
    (hplain : entry.recomputeDay = none) :
    RecordedInv { s with entries := s.entries ++ [entry] } where
  entries := by
    intro row hrow breakdown hsome
    rcases List.mem_append.mp hrow with hrow | hrow
    · exact h.entries row hrow breakdown hsome
    · rw [List.mem_singleton.mp hrow, hplain] at hsome
      exact absurd hsome (by simp)
  results := h.results
  orderIds := h.orderIds

theorem RecordedInv.appendCalculation (h : RecordedInv s) (c : PayoutCalculation) :
    RecordedInv { s with calculations := s.calculations ++ [c] } where
  entries := by
    intro entry hentry breakdown hsome
    rcases h.entries entry hentry breakdown hsome with ⟨⟨row, hrow, hid⟩, hdated⟩
    exact ⟨⟨row, List.mem_append_left _ hrow, hid⟩, hdated⟩
  results := by
    intro order horder line hline
    rcases h.results order horder line hline with ⟨row, hrow, hid⟩
    exact ⟨row, List.mem_append_left _ hrow, hid⟩
  orderIds := h.orderIds

theorem RecordedInv.appendOrder (h : RecordedInv s) {order : PayoutCorrectionOrder}
    (hempty : order.executionResult = []) (hfresh : ∀ row ∈ s.orders, row.id ≠ order.id) :
    RecordedInv { s with orders := s.orders ++ [order] } where
  entries := by
    intro entry hentry breakdown hsome
    rcases h.entries entry hentry breakdown hsome with ⟨hnamed, row, hrow, hdated⟩
    exact ⟨hnamed, row, List.mem_append_left _ hrow, hdated⟩
  results := by
    intro row hrow line hline
    rcases List.mem_append.mp hrow with hrow | hrow
    · exact h.results row hrow line hline
    · rw [List.mem_singleton.mp hrow, hempty] at hline
      exact absurd hline List.not_mem_nil
  orderIds := nodup_map_append h.orderIds hfresh

theorem RecordedInv.mark (h : RecordedInv s) (entryId : Id)
    (status : Payout.EarningsLedgerEntryStatus) :
    RecordedInv { s with
      entries := s.entries.map (fun entry =>
        if entry.id = entryId then { entry with status := status } else entry) } where
  entries := by
    intro row hrow breakdown hsome
    rcases List.mem_map.mp hrow with ⟨old, hold, rfl⟩
    split_ifs at hsome ⊢
    · exact h.entries old hold breakdown hsome
    · exact h.entries old hold breakdown hsome
  results := h.results
  orderIds := h.orderIds

/-- A draft that an approval rewrites is no order that a position names. -/
theorem RecordedInv.updateOrder (h : RecordedInv s) {order : PayoutCorrectionOrder}
    (horder : order ∈ s.orders) (hdraft : order.status = .draft)
    {f : PayoutCorrectionOrder → PayoutCorrectionOrder} (hid : ∀ row, (f row).id = row.id)
    (hresults : ∀ line ∈ (f order).executionResult,
      ∃ c ∈ s.calculations, c.id = line.payoutCalculationId) :
    RecordedInv (updateOrder s order.id f) where
  entries := by
    intro entry hentry breakdown hsome
    rcases h.entries entry hentry breakdown hsome with ⟨hnamed, row, hrow, hexecuted, hat⟩
    refine ⟨hnamed, row, List.mem_map.mpr ⟨row, hrow, ?_⟩, hexecuted, hat⟩
    refine if_neg ?_
    intro hsame
    rw [eq_of_key_eq h.orderIds hrow horder hsame, hdraft] at hexecuted
    exact absurd hexecuted (by simp)
  results := by
    intro row hrow line hline
    rcases List.mem_map.mp hrow with ⟨old, hold, rfl⟩
    split_ifs at hline with hsame
    · rw [eq_of_key_eq h.orderIds hold horder hsame] at hline
      exact hresults line hline
    · exact h.results old hold line hline
  orderIds := by
    have hkeys : (s.orders.map (fun row => if row.id = order.id then f row else row)).map (·.id)
        = s.orders.map (·.id) := by
      rw [List.map_map]
      refine List.map_congr_left ?_
      intro row _
      by_cases hsame : row.id = order.id
      · simp [hsame, hid]
      · simp [hsame]
    exact hkeys ▸ h.orderIds

/-- An execution records its targets under its own time. -/
theorem RecordedInv.execute (h : RecordedInv s) (hcalcs : CalculationsInv s)
    (hkeys : (s.trips.map (·.id)).Nodup) {order : PayoutCorrectionOrder} (horder : order ∈ s.orders)
    (hdraft : order.status = .draft) {measure : Id → Measurement}
    {computations : List DayComputation}
    (hproject : projectCampaignDay s order.campaignId order.lagosDay measure = .ok computations)
    {executedAt : Int} {releaseAt : Option Int} {entryId : Id → Id} {posted : Store}
    (hposted : checkedFold (writeDayDifferentials order.campaignId executedAt releaseAt entryId) s
      computations = .ok posted) :
    RecordedInv (Pay.updateOrder posted order.id (executed executedAt computations)) := by
  have hnamed : ∀ computation ∈ computations, ∀ target ∈ computation.trips,
      ∃ c ∈ s.calculations, c.id = target.payoutCalculationId := by
    intro computation hcomputation target htarget
    rcases mem_projectCampaignDay hproject hcomputation htarget with
      ⟨trip, htrip, c, before, hfor, hday⟩
    have hrepriced : Repriced s order.campaignId computation.driverProfileId order.lagosDay c
        target := ⟨trip, htrip, before, _, hfor, hday⟩
    rcases hrepriced.ids hcalcs hkeys with ⟨hc, _, hid, _⟩
    exact ⟨c, hc, hid.symm⟩
  have hbefore := h.updateOrder horder hdraft (f := executed executedAt computations)
    (fun _ => rfl) (by
      intro line hline
      rcases mem_executionResultOf.mp hline with ⟨computation, hcomputation, target, htarget, rfl⟩
      exact hnamed computation hcomputation target htarget)
  rcases posted_entries hposted with ⟨added, rfl, hadded⟩
  refine ⟨?_, hbefore.results, hbefore.orderIds⟩
  intro entry hentry breakdown hsome
  rcases List.mem_append.mp hentry with hentry | hentry
  · exact hbefore.entries entry hentry breakdown hsome
  · rcases hadded entry hentry with ⟨hat, computation, hcomputation, target, htarget, _, hrec⟩
    rw [hrec] at hsome
    refine ⟨Option.some.inj hsome ▸ hnamed computation hcomputation target htarget,
      executed executedAt computations order, ?_, rfl, congrArg some hat.symm⟩
    exact List.mem_map.mpr ⟨order, horder, by simp⟩

/-! ## The rows a day is read from -/

/-- What is known of the pay rows of a state. -/
structure DayInv (s : Store) : Prop where
  calcs : CalculationsInv s
  noneVoided : NoneVoided s
  located : LocatedInv s
  recorded : RecordedInv s
  law : DayLaw s

theorem DayInv.congr (h : DayInv s) (htrips : s'.trips = s.trips)
    (hbindings : s'.bindings = s.bindings) (hcalculations : s'.calculations = s.calculations)
    (hentries : s'.entries = s.entries) (horders : s'.orders = s.orders) : DayInv s' where
  calcs := h.calcs.congr hcalculations htrips
  noneVoided := by
    unfold NoneVoided
    rw [hentries]
    exact h.noneVoided
  located := h.located.congr htrips hcalculations hentries horders
  recorded := h.recorded.congr hcalculations hentries horders
  law := h.law.congr hcalculations (fun _ _ => latest_congr hentries horders)
    (termsKept_of_frame (fun _ hc => hcalculations ▸ hc) htrips hbindings)

/-- An entry that records no position changes no day. -/
theorem DayInv.appendEntry (h : DayInv s) {entry : EarningsLedgerEntry}
    (hlive : entry.status ≠ .voided) (hplain : entry.recomputeDay = none) :
    DayInv { s with entries := s.entries ++ [entry] } where
  calcs := h.calcs.congr rfl rfl
  noneVoided := by
    intro row hrow
    rcases List.mem_append.mp hrow with hrow | hrow
    · exact h.noneVoided row hrow
    · exact List.mem_singleton.mp hrow ▸ hlive
  located := h.located.appendEntry hplain
  recorded := h.recorded.appendEntry hplain
  law := h.law.congr rfl (fun _ _ => latest_append_plain hplain)
    (termsKept_of_frame (fun _ hc => hc) rfl rfl)

theorem DayInv.ensure (h : DayInv s) {entryId : Id}
    (hensure : ensureLedgerEntry entryId c s = .ok s') : DayInv s' := by
  rcases ensureLedgerEntry_eq hensure with rfl | rfl
  · exact h
  · exact h.appendEntry (by simp [tripPayoutEntry]) rfl

section

variable [Evidence] {settings : Settings}

theorem calculateTripPayout_dayInv (h : DayInv s) {strictStaleness : Bool} {inputs : PayoutInputs}
    {tripId : Id} {now : Int}
    (hcalc : calculateTripPayout settings strictStaleness inputs tripId now s = .ok s') :
    DayInv s' := by
  rcases calculateTripPayout_eq hcalc with
    ⟨trip, analytics, binding, htrip, hanalytics, hbinding,
      ⟨existing, _, hensure⟩ | ⟨estimate, c, hfirst, hgate, hc, hfresh, hensure⟩⟩
  · exact h.ensure hensure
  · have hid : trip.id = tripId := (mem_of_lookup htrip.found).2
    have hnew : NewCalculation settings inputs now s trip c :=
      ⟨hid ▸ htrip, hfirst, hgate, hfresh, analytics, estimate, binding, hanalytics, hbinding, hc⟩
    have hlaw := h.law.append h.calcs.once h.noneVoided h.located.creditsOverlap h.recorded hnew
    have hadded : DayInv { s with calculations := s.calculations ++ [c] } := by
      refine ⟨?_, h.noneVoided, ?_, h.recorded.appendCalculation c, hlaw⟩
      · refine ⟨h.calcs.once.append hnew rfl, ?_⟩
        intro row hrow
        rcases List.mem_append.mp hrow with hrow | hrow
        · exact h.calcs.trips row hrow
        · rw [List.mem_singleton.mp hrow]
          rcases hnew.columns with ⟨htripId, hcampaign, hdriver, _⟩
          exact ⟨trip, List.mem_of_find?_eq_some htrip.found, htripId.symm, htrip.sealed,
            hdriver.symm, hcampaign.symm⟩
      · refine h.located.appendCalculation ?_
        intro day hday
        rw [hc] at hday ⊢
        rcases mem_pricedDistance (mem_of_get_ne_zero hday) with ⟨_, slice, hslice, hsliceDay⟩
        have hoverlap := dayTripOverlap_of_slice hslice
        rw [hsliceDay] at hoverlap
        exact ⟨trip, List.mem_of_find?_eq_some htrip.found, rfl, htrip.sealed, hoverlap⟩
    exact hadded.ensure hensure

/-! ## Steps -/

/-- Bindings are written once. -/
theorem binding?_step (hkeys : (s.trips.map (·.id)).Nodup) {a : TripAction}
    (h : tripStep settings s a = .ok s') {assignmentId : Id} {binding : AssignmentRuleBinding}
    (hbinding : s.binding? assignmentId = some binding) :
    s'.binding? assignmentId = some binding := by
  cases tripStep_write hkeys h with
  | bind row =>
      unfold Store.binding? at hbinding ⊢
      rw [List.find?_append, hbinding]
      rfl
  | process hwrite => rw [processEndedTrip_frame hwrite]; exact hbinding
  | calculate hwrite => rw [calculateTripPayout_frame hwrite]; exact hbinding
  | approveOrder hwrite => rw [approveCorrectionOrder_frame hwrite]; exact hbinding
  | _ => exact hbinding

/-- No step binds a priced trip anew or moves its span. -/
theorem termsKept_step (hinv : TripsInv settings s) (hverified : SealedVerified s)
    (hcalcs : CalculationsInv s) {a : TripAction} (h : tripStep settings s a = .ok s') :
    TermsKept s s' := by
  intro driverProfileId campaignId day terms hterms c hc hpays trip htrip hid hoverlap binding
    hbinding
  rcases hcalcs.trips c hc with ⟨owner, howner, hownerId, hsealed, _, _⟩
  have hsame : owner = trip := eq_of_key_eq hinv.keys howner htrip (hownerId.trans hid.symm)
  subst hsame
  rcases sealedRow_step hinv hverified h htrip hsealed with ⟨trip', htrip', hkept, _, hend, _⟩
  refine hterms c (calculations_mono hinv.keys h hc) hpays trip' htrip' (hkept.1.trans hid) ?_
    binding ?_
  · unfold DayTripOverlap
    rw [hkept.2.2.2.2.2, hend]
    exact hoverlap
  · rw [hkept.2.1]
    exact binding?_step hinv.keys h hbinding

/-- What an approval leaves of the day law: a draft goes stale, or it is executed. -/
theorem approveCorrectionOrder_law (hinv : TripsInv settings s) (h : DayInv s)
    {authorized : Except AppError Unit} {orderId : Id} {fingerprint : Digest}
    {releaseAt : Option Int} {measure : Id → Measurement} {entryId : Id → Id} {executedAt : Int}
    (hclock : ∀ order ∈ s.orders, ∀ earlier, order.executedAt = some earlier →
      earlier < executedAt)
    (happrove : approveCorrectionOrder authorized orderId fingerprint releaseAt measure entryId
      executedAt s = .ok s') : RecordedInv s' ∧ DayLaw s' := by
  rcases approveCorrectionOrder_eq happrove with
    ⟨order, hfound, ⟨_, rfl⟩ | ⟨hdraft, computations, hproject, ⟨_, rfl⟩ | ⟨_, posted, hposted, rfl⟩⟩⟩
  · exact ⟨h.recorded, h.law⟩
  · rcases mem_of_lookup hfound with ⟨horder, rfl⟩
    refine ⟨h.recorded.updateOrder horder hdraft (fun _ => rfl)
      (h.recorded.results order horder), ?_⟩
    refine h.law.congr rfl (fun _ _ => latest_updateOrder ?_)
      (termsKept_of_frame (fun _ hc => hc) rfl rfl)
    intro row hrow hid
    rw [eq_of_key_eq h.recorded.orderIds hrow horder hid, hdraft]
    simp
  · rcases mem_of_lookup hfound with ⟨horder, rfl⟩
    have hended : ∀ trip ∈ s.trips, trip.status = .sealed → trip.endedAt.isSome := by
      intro trip htrip hsealed
      exact ((hinv.wellFormed trip htrip).inactive (by simp [hsealed])).1
    exact ⟨h.recorded.execute h.calcs hinv.keys horder hdraft hproject hposted,
      h.law.execute h.calcs hinv.keys hended h.noneVoided h.located h.recorded horder hdraft
        hproject hposted hclock⟩

theorem tripStep_law (hinv : TripsInv settings s) (hverified : SealedVerified s) (h : DayInv s)
    {a : TripAction} (hclock : ClockAdvances s a) (hstep : tripStep settings s a = .ok s') :
    RecordedInv s' ∧ DayLaw s' := by
  have hterms := termsKept_step hinv hverified h.calcs hstep
  -- orders are created with a fresh id, which the write alone does not say
  by_cases hcreate : ∃ authorized orderId campaignId day fingerprint measure,
      a = .createOrder authorized orderId campaignId day fingerprint measure
  · rcases hcreate with ⟨authorized, orderId, campaignId, day, fingerprint, measure, rfl⟩
    simp only [tripStep, createCorrectionOrder, bind_eq_ok, require_eq_ok, pure_eq_ok] at hstep
    rcases hstep with ⟨_, _, _, _, _, hfresh, rfl⟩
    exact ⟨h.recorded.appendOrder rfl hfresh,
      h.law.congr rfl (fun _ _ => latest_append_order rfl) hterms⟩
  cases tripStep_write hinv.keys hstep with
  | process hwrite =>
      have hdone := processEndedTrip_invariant DayInv ?_ ?_ ?_ _ _ s s' h hwrite
      · exact ⟨hdone.recorded, hdone.law⟩
      · exact fun _ _ _ _ hs hensure => hs.ensure hensure
      · intro trip s₁ hs _ _
        rw [analyticsStage_frame]
        exact hs.congr rfl rfl rfl rfl rfl
      · exact fun _ _ _ hs hcalc => calculateTripPayout_dayInv hs hcalc
  | calculate hwrite =>
      have hdone := calculateTripPayout_dayInv h hwrite
      exact ⟨hdone.recorded, hdone.law⟩
  | createOrder => exact absurd ⟨_, _, _, _, _, _, rfl⟩ hcreate
  | approveOrder hwrite => exact approveCorrectionOrder_law hinv h hclock hwrite
  | deduct row _ _ hplain =>
      exact ⟨h.recorded.appendEntry hplain,
        h.law.congr rfl (fun _ _ => latest_append_plain hplain) hterms⟩
  | markEntry entryId status hstatus =>
      exact ⟨h.recorded.mark entryId status,
        h.law.congr rfl (fun _ _ => latest_mark h.noneVoided hstatus) hterms⟩
  | _ =>
      exact ⟨h.recorded.congr rfl rfl rfl,
        h.law.congr rfl (fun _ _ => latest_congr rfl rfl) hterms⟩

/-! ## Runs -/

omit [Evidence] in
theorem dayLaw_init : RecordedInv {} ∧ DayLaw {} := by
  refine ⟨⟨fun _ h => absurd h List.not_mem_nil, fun _ h => absurd h List.not_mem_nil,
    List.nodup_nil⟩, ⟨fun _ h => absurd h List.not_mem_nil, fun _ h => absurd h List.not_mem_nil,
    ?_⟩⟩
  intro driverProfileId campaignId day terms _
  exact dayPayNaira_zero.symm

theorem dayLaw_of_run (hs : ReachableBy (fleet settings) ClockAdvances s) :
    RecordedInv s ∧ DayLaw s := by
  refine hs.invariant_of
    (fun s => TripsInv settings s ∧ SealedVerified s ∧ CalculationsInv s ∧ NoneVoided s
      ∧ LocatedInv s)
    (fun _ h => ⟨tripsInv_of_reachable h, sealedVerified_of_reachable h,
      calculationsInv_of_reachable h, noneVoided_of_reachable h, locatedInv_of_reachable h⟩)
    (fun s => RecordedInv s ∧ DayLaw s) dayLaw_init ?_
  rintro s a s' ⟨hinv, hverified, hcalcs, hvoids, hlocated⟩ ⟨hrecorded, hlaw⟩ hclock hstep
  exact tripStep_law hinv hverified ⟨hcalcs, hvoids, hlocated, hrecorded, hlaw⟩ hclock hstep

/-- In every state of a run whose approvals have an advancing clock, the latest amounts of
a driver's day add up to the pay of its latest metres, and so never exceed the day rate. -/
theorem day_total_exact (settings : Settings) (s : Store)
    (hs : ReachableBy (fleet settings) ClockAdvances s) (driverProfileId campaignId : Id)
    (day : Day) (terms : DailyRateTerms)
    (hterms : DayTerms s driverProfileId campaignId day terms) :
    total (paysFor driverProfileId campaignId) (latestAmount s day) s.calculations
        = dayPayNaira (total (paysFor driverProfileId campaignId) (latestMetres s day)
            s.calculations) terms
      ∧ (Payable terms →
          0 ≤ total (paysFor driverProfileId campaignId) (latestAmount s day) s.calculations
            ∧ total (paysFor driverProfileId campaignId) (latestAmount s day) s.calculations
              ≤ halfUpNaira terms.dailyRateNaira) := by
  have hexact : total (paysFor driverProfileId campaignId) (latestAmount s day) s.calculations
      = dayPayNaira (total (paysFor driverProfileId campaignId) (latestMetres s day)
          s.calculations) terms :=
    (dayLaw_of_run hs).2.exact driverProfileId campaignId day terms hterms
  refine ⟨hexact, ?_⟩
  intro hpayable
  rw [hexact]
  exact ⟨dayPayNaira_nonneg hpayable _, dayPayNaira_le_rate hpayable _⟩

omit [Evidence] in
theorem dayTerms_of_bindings {driverProfileId campaignId : Id} {day : Day} {terms : DailyRateTerms}
    (h : ∀ binding ∈ s.bindings, binding.terms = terms) :
    DayTerms s driverProfileId campaignId day terms :=
  fun _ _ _ _ _ _ _ binding hbinding => h binding (List.mem_of_find?_eq_some hbinding)

/-- An approval is later than every execution time that the state holds. -/
def clockAdvances (s : Store) : TripAction → Bool
  | .approveOrder _ _ _ _ _ _ executedAt => s.orders.all (·.executedAt.all (· < executedAt))
  | _ => true

omit [Evidence] in
theorem clockAdvances_iff {a : TripAction} (h : clockAdvances s a = true) : ClockAdvances s a := by
  cases a with
  | approveOrder authorized orderId fingerprint releaseAt measure entryId executedAt =>
      intro order horder earlier hearlier
      have hall := List.all_eq_true.mp h order horder
      rw [hearlier] at hall
      exact of_decide_eq_true hall
  | _ => trivial

/-- Two trips of one day; the first is measured again, 1999 metres shorter. -/
def repricedDay : List TripAction :=
  let _ := sampleEvidence
  let metres (first : ℚ) (tripId : Id) : ℚ := if tripId = 1 then first else 4023
  let again (tripId : Id) : Measurement := sampleMeasurement (metres 3001 tripId)
  bindSample :: sealedTrip 1 0
    ++ [.process 1 5 (sampleInputs (metres 5000)) (secondsAfterNoon 90)]
    ++ sealedTrip 2 100
    ++ [ .process 2 5 (sampleInputs (metres 5000)) (secondsAfterNoon 190),
         .createOrder (.ok ⟨⟩) 50 5 1 "day" again,
         .approveOrder (.ok ⟨⟩) 50 "day" none again (3000 + ·) (secondsAfterNoon 300) ]

omit [Evidence] in
/-- The second trip keeps its 25.00, priced after 3001 metres now: 43.65 for 7024 metres. -/
theorem day_total_exact_repriced :
    ∃ s, total (paysFor 7 5) (latestMetres s 1) s.calculations = 7024
      ∧ total (paysFor 7 5) (latestAmount s 1) s.calculations = dayPayNaira 7024 sampleTerms
      ∧ total (paysFor 7 5) (latestAmount s 1) s.calculations ≤ 10000 := by
  let _ := sampleEvidence
  have hcheck : ∀ a ∈ repricedDay, ∀ s, clockAdvances s a = true → ClockAdvances s a :=
    fun _ _ _ h => clockAdvances_iff h
  rcases (fleet sampleSettings).exists_reachableBy ClockAdvances repricedDay hcheck
    (fun s => s.bindings.all (·.terms = sampleTerms)
      && total (paysFor 7 5) (latestMetres s 1) s.calculations = 7024)
    (by decide +kernel) with ⟨s, hs, htest⟩
  simp only [Bool.and_eq_true, decide_eq_true_eq] at htest
  have hterms : DayTerms s 7 5 1 sampleTerms := by
    refine dayTerms_of_bindings ?_
    intro binding hbinding
    exact of_decide_eq_true (List.all_eq_true.mp htest.1 binding hbinding)
  have hrate : halfUpNaira sampleTerms.dailyRateNaira = 10000 := by decide +kernel
  rcases day_total_exact sampleSettings s hs 7 5 1 sampleTerms hterms with ⟨hexact, hbounds⟩
  have hpayable : Payable sampleTerms := ⟨by decide +kernel, by decide +kernel⟩
  exact ⟨s, htest.2, htest.2 ▸ hexact, hrate ▸ (hbounds hpayable).2⟩

end

end

end Pay
end Mobility
