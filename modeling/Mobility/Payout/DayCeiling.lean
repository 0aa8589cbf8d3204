import Mobility.Payout.AutomaticScan
import Mobility.Payout.DayCharges
import Mobility.Payout.System

/-!
# DayCeiling — no day is paid beyond its rate by an automatic pass

What a scan includes for one driver is `Admitted` under the day ceilings, over the cash that
the driver's lines charge to the days before the pass.
-/

namespace Mobility
namespace Payout
namespace DayCeiling

open Lib
open Trips (Day lagosDayUtcRange)

section Pass

variable [TextReaders] {auth : Authority} {fraud : FraudRecords} {s : Store} {books : PayBooks}
  {st st' : ScanState} {entry : EarningsLedgerEntry} {item : Included}

/-! ## One credit -/

/-- The one rate of a driver's day. -/
def ceilingOn (s : Store) (books : PayBooks) (driverProfileId : Id) (day : Day) : Option Int :=
  match dayPosition s books driverProfileId day with
  | .ok position => position.ceiling
  | .error _ => none

omit [TextReaders] in
theorem isOverLimit_false {position : DayPosition} {overCash : Bool}
    (h : isOverLimit position overCash = .ok false) :
    overCash = false ∧ ∃ limit, position.ceiling = some limit := by
  unfold isOverLimit at h
  cases hceiling : position.ceiling with
  | none => simp [hceiling] at h
  | some limit =>
      simp only [hceiling, bind_eq_ok, pure_eq_ok, Bool.or_eq_false_iff] at h
      rcases h with ⟨_, _, _, hcash⟩
      exact ⟨hcash, limit, rfl⟩

/-- A credit that passes the loop over its days stays within every ceiling. -/
theorem firstOverLimit_none {driverCash days : List (Day × Int)} :
    ∀ {sorted : List Day}, firstOverLimit s books entry driverCash days sorted = .ok none →
      ∀ day ∈ sorted, ∃ limit, ceilingOn s books entry.driverProfileId day = some limit
        ∧ valueAt driverCash day + valueAt days day ≤ limit := by
  intro sorted
  induction sorted with
  | nil => exact fun _ day hday => absurd hday List.not_mem_nil
  | cons first rest ih =>
      intro h
      simp only [firstOverLimit, bind_eq_ok] at h
      rcases h with ⟨position, hposition, limited, hlimited, h⟩
      cases limited with
      | true => simp at h
      | false =>
          rcases isOverLimit_false hlimited with ⟨hcash, limit, hlimit⟩
          intro day hday
          rcases List.mem_cons.mp hday with rfl | hday
          · refine ⟨limit, ?_, ?_⟩
            · rw [ceilingOn, hposition]
              exact hlimit
            · simpa [hlimit] using hcash
          · -- a later day is checked against the same cash
            exact ih (by simpa using h) day hday

/-- A clean credit has the positive days of its calculation, each once. -/
theorem cleanReason_clean {days : List (Day × Int)} {authority : Id × Id}
    (h : cleanReason auth fraud s books entry = .ok (.clean days authority)) :
    (days.map (·.1)).Nodup := by
  unfold cleanReason at h
  split at h
  · -- only the last branch answers `clean`, with the days it read first
    next tripId calculation _ _ =>
    rcases ite_eq_ok.mp h with ⟨_, h⟩ | ⟨_, h⟩
    · exact absurd h (by simp)
    · simp only [bind_eq_ok] at h
      rcases h with ⟨days', hdays, adjusted, _, h⟩
      cases adjusted with
      | true => exact absurd h (by simp)
      | false =>
          cases hscreen : screenEntry auth fraud s entry tripId with
          | error reason => simp [hscreen] at h
          | ok authority' =>
              simp only [hscreen, Bool.false_eq_true, if_false, pure_eq_ok,
                CleanReview.clean.injEq] at h
              exact h.1 ▸ nodup_positiveDays hdays
  · exact absurd h (by simp)

/-! ## The cash of a driver -/

/-- A driver's cash in the middle of a scan: the cash before the pass and the days included since,
each admitted under the day ceilings. -/
def Booked (s : Store) (books : PayBooks) (driverProfileId : Id)
    (requests : List (List (Day × Int))) (tally : List (Day × Int)) : Prop :=
  ∃ start, cashByDay s books driverProfileId = some start
    ∧ (∀ day, valueAt tally day = usedAfter (valueAt start) requests.flatten day)
    ∧ Admitted (ceilingOn s books driverProfileId) (valueAt start) requests

variable {driver : Id} {requests : List (List (Day × Int))} {tally days : List (Day × Int)}

theorem Booked.start (h : cashByDay s books driver = some tally) :
    Booked s books driver [] tally :=
  ⟨tally, h, fun day => by rw [List.flatten_nil, usedAfter_nil], trivial⟩

/-- One more credit that passed the loop over its days. -/
theorem Booked.admit (h : Booked s books driver requests tally) (hnodup : (days.map (·.1)).Nodup)
    (hlimit : ∀ day ∈ days.map (·.1), ∃ limit, ceilingOn s books driver day = some limit
      ∧ valueAt tally day + valueAt days day ≤ limit) :
    Booked s books driver (requests ++ [days]) (addAll (·.1) (·.2) days tally) := by
  rcases h with ⟨start, hstart, htally, hadmitted⟩
  refine ⟨start, hstart, ?_, admitted_concat.mpr ⟨hadmitted, ?_⟩⟩
  · intro day
    -- the cash of the driver grows by exactly the days of the credit
    calc
      valueAt (addAll (·.1) (·.2) days tally) day
          = valueAt tally day + valueAt days day := valueAt_addAll_tally hnodup tally day
      _ = usedAfter (valueAt start) requests.flatten day + asked day days := by
          rw [htally, asked_eq_valueAt hnodup]
      _ = usedAfter (valueAt start) (requests ++ [days]).flatten day := by
          rw [List.flatten_append, usedAfter_append, List.flatten_singleton]
          rfl
  · -- the loop compared with the cash of that moment
    intro part hpart
    rcases hlimit part.1 (List.mem_map_of_mem hpart) with ⟨limit, hceiling, hle⟩
    rw [valueAt_of_mem hnodup hpart, htally] at hle
    exact ⟨limit, hceiling, hle⟩

/-! ## The scan -/

/-- The days of what a scan includes for one driver. -/
def requestsOf (included : List Included) (driverProfileId : Id) : List (List (Day × Int)) :=
  (included.filter (·.entry.driverProfileId = driverProfileId)).map (·.days)

omit [TextReaders] in
theorem requestsOf_concat (included : List Included) (item : Included) (driver : Id) :
    requestsOf (included ++ [item]) driver
      = requestsOf included driver
        ++ if item.entry.driverProfileId = driver then [item.days] else [] := by
  by_cases hdriver : item.entry.driverProfileId = driver <;> simp [requestsOf, hdriver]

/-- What holds after every round of a scan. -/
structure ScanInv (auth : Authority) (fraud : FraudRecords) (s : Store) (books : PayBooks)
    (scanned : List EarningsLedgerEntry) (st : ScanState) : Prop where
  clean : ∀ item ∈ st.included, item.entry ∈ scanned
    ∧ cleanReason auth fraud s books item.entry = .ok (.clean item.days item.authority)
  unmet : ∀ driver, st.cash.lookup driver = none → requestsOf st.included driver = []
  booked : ∀ driver tally, st.cash.lookup driver = some tally →
    Booked s books driver (requestsOf st.included driver) tally

/-- A clean credit is left out, or its days are booked. -/
theorem admitEntry_ok (h : admitEntry s books st item = .ok st') :
    (st'.included = st.included ∧ st'.cash = st.cash)
      ∨ ∃ driverCash, (st.cash.lookup item.entry.driverProfileId).or
            (cashByDay s books item.entry.driverProfileId) = some driverCash
          ∧ ((st'.included = st.included
              ∧ st'.cash = setTo item.entry.driverProfileId driverCash st.cash)
            ∨ (firstOverLimit s books item.entry driverCash item.days
                  ((item.days.map (·.1)).insertionSort (· ≤ ·)) = .ok none
              ∧ st'.included = st.included ++ [item]
              ∧ st'.cash = setTo item.entry.driverProfileId
                  (addAll (·.1) (·.2) item.days driverCash)
                  (setTo item.entry.driverProfileId driverCash st.cash))) := by
  unfold admitEntry at h
  simp only at h
  split at h
  · simp only [Except.ok.injEq] at h
    subst h
    exact .inl ⟨rfl, rfl⟩
  · next driverCash hcash =>
      simp only [bind_eq_ok] at h
      rcases h with ⟨overLimit, hlimit, h⟩
      refine .inr ⟨driverCash, hcash, ?_⟩
      cases overLimit with
      | some alert =>
          simp only [pure_eq_ok] at h
          subst h
          exact .inl ⟨rfl, rfl⟩
      | none =>
          simp only [pure_eq_ok] at h
          subst h
          exact .inr ⟨hlimit, rfl, rfl⟩

variable {scanned : List EarningsLedgerEntry}

/-- Reading a driver's cash for the first time books nothing. -/
theorem ScanInv.cash_booked (h : ScanInv auth fraud s books scanned st) {driver : Id}
    (hcash : (st.cash.lookup driver).or (cashByDay s books driver) = some tally) :
    Booked s books driver (requestsOf st.included driver) tally := by
  cases hmet : st.cash.lookup driver with
  -- the first credit of this driver: nothing was included for them yet
  | none =>
      rw [hmet, Option.none_or] at hcash
      rw [h.unmet driver hmet]
      exact Booked.start hcash
  | some known =>
      rw [hmet, Option.some_or, Option.some.injEq] at hcash
      exact h.booked driver tally (hcash ▸ hmet)

theorem ScanInv.admit (h : ScanInv auth fraud s books scanned st) (hscanned : item.entry ∈ scanned)
    (hclean : cleanReason auth fraud s books item.entry = .ok (.clean item.days item.authority))
    (hstep : admitEntry s books st item = .ok st') : ScanInv auth fraud s books scanned st' := by
  rcases admitEntry_ok hstep with ⟨hincluded, hcash⟩ | ⟨driverCash, hdriver, hrest⟩
  · exact ⟨hincluded ▸ h.clean, hincluded ▸ hcash ▸ h.unmet, hincluded ▸ hcash ▸ h.booked⟩
  · have hbooked := h.cash_booked hdriver
    rcases hrest with ⟨hincluded, hcash⟩ | ⟨hfits, hincluded, hcash⟩
    · -- over the limit: the cash is remembered and nothing is booked
      refine ⟨hincluded ▸ h.clean, ?_, ?_⟩
      · intro driver hunmet
        rw [hcash, lookup_setTo] at hunmet
        split_ifs at hunmet
        exact hincluded ▸ h.unmet driver hunmet
      · intro driver tally hmet
        rw [hcash, lookup_setTo] at hmet
        rw [hincluded]
        split_ifs at hmet with hsame
        · rw [Option.some.injEq] at hmet
          exact hsame ▸ hmet ▸ hbooked
        · exact h.booked driver tally hmet
    · -- included: one more request of this driver, none of the others
      have hnodup := cleanReason_clean hclean
      have hadmitted := hbooked.admit hnodup (fun day hday =>
        firstOverLimit_none hfits day ((List.mem_insertionSort _).mpr hday))
      refine ⟨?_, ?_, ?_⟩
      · intro other hother
        rw [hincluded] at hother
        rcases List.mem_append.mp hother with hother | hother
        · exact h.clean other hother
        · rw [List.mem_singleton.mp hother]
          exact ⟨hscanned, hclean⟩
      · intro driver hunmet
        rw [hcash, lookup_setTo, lookup_setTo] at hunmet
        split_ifs at hunmet with hsame
        rw [hincluded, requestsOf_concat, h.unmet driver hunmet, if_neg (Ne.symm hsame)]
        rfl
      · intro driver tally hmet
        rw [hcash, lookup_setTo, lookup_setTo] at hmet
        rw [hincluded, requestsOf_concat]
        split_ifs at hmet with hsame
        · rw [Option.some.injEq] at hmet
          rw [if_pos hsame.symm, ← hmet, hsame]
          exact hadmitted
        · rw [if_neg (Ne.symm hsame), List.append_nil]
          exact h.booked driver tally hmet

/-- One round of the scan. -/
theorem ScanInv.scan (h : ScanInv auth fraud s books scanned st) (hscanned : entry ∈ scanned)
    (hstep : scanEntry auth fraud s books st entry = .ok st') :
    ScanInv auth fraud s books scanned st' := by
  unfold scanEntry at hstep
  simp only at hstep
  split_ifs at hstep
  · rw [Except.ok.injEq] at hstep
    exact hstep ▸ h
  · rw [Except.ok.injEq] at hstep
    subst hstep
    exact ⟨h.clean, h.unmet, h.booked⟩
  · rcases bind_eq_ok.mp hstep with ⟨review, hreview, hrest⟩
    cases review with
    | excluded reason days =>
        simp only [pure_eq_ok] at hrest
        subst hrest
        exact ⟨h.clean, h.unmet, h.booked⟩
    | clean days authority =>
        have hcursor : ScanInv auth fraud s books scanned
            { st with nextCursor := some (entry.occurredAt, entry.id) } :=
          ⟨h.clean, h.unmet, h.booked⟩
        exact hcursor.admit hscanned hreview hrest

/-- The whole scan. -/
theorem scanCandidates_inv {cursor : Option (Int × Id)}
    (h : scanCandidates auth fraud cursor s books = .ok st) :
    ScanInv auth fraud s books (scannedEntries fraud cursor s books) st := by
  refine checkedFold_prefix
    (fun _ st => ScanInv auth fraud s books (scannedEntries fraud cursor s books) st) ?_ h ?_
  · intro done entry rest st st' hscanned hinv hstep
    exact hinv.scan (by rw [hscanned]; simp) hstep
  · exact ⟨by simp, fun _ _ => rfl, by simp⟩

/-! ## The rate of a day -/

/-- The daily rate that an assignment is bound to. -/
def PayBooks.dailyRate? (books : PayBooks) (assignmentId : Id) : Option Int :=
  (books.bindings.find? (fun b => b.assignmentId = assignmentId
    && b.formulaVersion = payoutV4)).bind (·.dailyRateNaira)

/-- A calculation that `dayPosition` adds up. -/
structure CountedOn (s : Store) (books : PayBooks) (driverProfileId : Id) (day : Day)
    (calculation : PayoutCalculation) : Prop where
  stored : calculation ∈ books.calculations
  driver : calculation.driverProfileId = driverProfileId
  overlaps : books.overlapsDay calculation.tripSessionId day = true
  counted : countedTripPayout s calculation.tripSessionId = true

/-- The rate of the driver's day: every trip of the day is paid by the day, and every
calculated one of them is bound to this rate. -/
structure DayRate (s : Store) (books : PayBooks) (driverProfileId : Id) (day : Day)
    (rate : Int) : Prop where
  formula : ∀ c, CountedOn s books driverProfileId day c → c.formulaVersion = payoutV4
  bound : ∀ c, CountedOn s books driverProfileId day c → c.status = .calculated →
    books.dailyRate? c.assignmentId = some rate
  calculated : ∃ c, CountedOn s books driverProfileId day c ∧ c.status = .calculated

/-- A calculation that leaves the day with a ceiling adds its rate. -/
theorem addCalculation_rates {day : Day} {position position' : DayPosition}
    {calculation : PayoutCalculation}
    (h : addCalculation s books day position calculation = .ok position')
    (hmixed : position'.mixed = false) (hmissing : position'.missingBinding = false) :
    position.mixed = false ∧ position.missingBinding = false
      ∧ calculation.formulaVersion = payoutV4
      ∧ ((calculation.status ≠ .calculated ∧ position' = position)
        ∨ (calculation.status = .calculated
          ∧ ∃ rate, books.dailyRate? calculation.assignmentId = some rate
            ∧ ∀ rate', rate' ∈ position'.rates ↔ rate' ∈ position.rates ∨ rate' = rate)) := by
  unfold addCalculation at h
  split_ifs at h with hformula hstatus
  · rw [← Except.ok.inj h] at hmixed
    exact absurd hmixed (by simp)
  · rw [not_not] at hformula
    rw [← Except.ok.inj h] at hmixed hmissing ⊢
    exact ⟨hmixed, hmissing, hformula, .inl ⟨hstatus, rfl⟩⟩
  · rw [not_not] at hformula hstatus
    simp only [bind_eq_ok] at h
    rcases h with ⟨_, _, _, _, h⟩
    split at h
    · rw [pure_eq_ok] at h
      rw [← h] at hmissing
      exact absurd hmissing (by simp)
    · next rate hrate =>
      rw [ite_eq_ok, pure_eq_ok, pure_eq_ok] at h
      rcases h with ⟨hknown, rfl⟩ | ⟨_, rfl⟩
      · refine ⟨hmixed, hmissing, hformula, .inr ⟨hstatus, rate, hrate, ?_⟩⟩
        intro rate'
        constructor
        · exact .inl
        · rintro (hrates | rfl)
          · exact hrates
          · exact hknown
      · exact ⟨hmixed, hmissing, hformula, .inr ⟨hstatus, rate, hrate, by simp⟩⟩

/-- The rates of a day with a ceiling are those its calculated trips are bound to. -/
theorem checkedFold_rates {day : Day} : ∀ {calculations : List PayoutCalculation}
    {position position' : DayPosition},
    checkedFold (addCalculation s books day) position calculations = .ok position' →
      position'.mixed = false → position'.missingBinding = false →
      position.mixed = false ∧ position.missingBinding = false
        ∧ (∀ c ∈ calculations, c.formulaVersion = payoutV4
          ∧ (c.status = .calculated → ∃ rate, books.dailyRate? c.assignmentId = some rate))
        ∧ ∀ rate, rate ∈ position'.rates ↔ rate ∈ position.rates
          ∨ ∃ c ∈ calculations, c.status = .calculated
            ∧ books.dailyRate? c.assignmentId = some rate := by
  intro calculations
  induction calculations with
  | nil =>
      intro position position' h hmixed hmissing
      have hsame : position = position' := by simpa using h
      subst hsame
      exact ⟨hmixed, hmissing, by simp, by simp⟩
  | cons calculation rest ih =>
      intro position position' h hmixed hmissing
      rw [checkedFold_cons, bind_eq_ok] at h
      rcases h with ⟨middle, hfirst, hrest⟩
      rcases ih hrest hmixed hmissing with ⟨hmixed', hmissing', hall, hrates⟩
      rcases addCalculation_rates hfirst hmixed' hmissing' with
        ⟨hmixed₀, hmissing₀, hformula, ⟨hstatus, rfl⟩ | ⟨hstatus, rate, hrate, hadded⟩⟩
      · refine ⟨hmixed₀, hmissing₀, ?_, ?_⟩
        · intro c hc
          rcases List.mem_cons.mp hc with rfl | hc
          · exact ⟨hformula, fun hcalculated => absurd hcalculated hstatus⟩
          · exact hall c hc
        · intro rate
          simp [hrates, hstatus]
      · refine ⟨hmixed₀, hmissing₀, ?_, ?_⟩
        · intro c hc
          rcases List.mem_cons.mp hc with rfl | hc
          · exact ⟨hformula, fun _ => ⟨rate, hrate⟩⟩
          · exact hall c hc
        · intro rate'
          simp [hrates, hadded, hstatus, hrate, or_assoc, eq_comm]

omit [TextReaders] in
theorem ceiling_eq_some {position : DayPosition} {rate : Int}
    (h : position.ceiling = some rate) :
    position.mixed = false ∧ position.missingBinding = false ∧ position.rates = [rate] := by
  unfold DayPosition.ceiling at h
  split_ifs at h with hnone
  simp only [Bool.or_eq_true, decide_eq_true_eq, not_or, Bool.not_eq_true, not_not] at hnone
  rcases hnone with ⟨⟨hmixed, hmissing⟩, hlength⟩
  rcases List.length_eq_one_iff.mp hlength with ⟨only, honly⟩
  rw [honly, List.head?_cons, Option.some.injEq] at h
  exact ⟨hmixed, hmissing, h ▸ honly⟩

theorem dayRate_of_ceiling {driverProfileId : Id} {day : Day} {position : DayPosition}
    (h : dayPosition s books driverProfileId day = .ok position) {rate : Int}
    (hrate : position.ceiling = some rate) : DayRate s books driverProfileId day rate := by
  rcases ceiling_eq_some hrate with ⟨hmixed, hmissing, hrates⟩
  rcases checkedFold_rates h hmixed hmissing with ⟨_, _, hall, hbound⟩
  simp only [hrates, List.mem_singleton, List.not_mem_nil, false_or, List.mem_insertionSort,
    List.mem_filter, Bool.and_eq_true, decide_eq_true_eq] at hall hbound
  refine ⟨?_, ?_, ?_⟩
  · intro c hc
    exact (hall c ⟨hc.stored, ⟨hc.driver, hc.overlaps⟩, hc.counted⟩).1
  · intro c hc hcalculated
    have hlisted := And.intro hc.stored (And.intro (And.intro hc.driver hc.overlaps) hc.counted)
    rcases (hall c hlisted).2 hcalculated with ⟨rate', hrate'⟩
    rw [hrate', (hbound rate').mpr ⟨c, hlisted, hcalculated, hrate'⟩]
  · rcases (hbound rate).mp rfl with ⟨c, ⟨hstored, ⟨hdriver, hoverlaps⟩, hcounted⟩, hcalculated, _⟩
    exact ⟨c, ⟨hstored, hdriver, hoverlaps, hcounted⟩, hcalculated⟩

/-! ## The pass -/

/-- What a pass pays a driver for one day. -/
def ScanState.includedOn (scan : ScanState) (driverProfileId : Id) (day : Day) : Int :=
  ((scan.included.filter (·.entry.driverProfileId = driverProfileId)).map
    (fun item => valueAt item.days day)).sum

/-- The line of a credit of the driver is live. -/
structure LiveLine (s : Store) (driverProfileId : Id) (line : PayoutBatchLine)
    (entry : EarningsLedgerEntry) : Prop where
  stored : line ∈ s.lines
  live : line.status ≠ .void ∧ line.status ≠ .failed
  credit : s.entry? line.ledgerEntryId = some entry
  currency : entry.currency = automaticCurrency
  driver : entry.driverProfileId = driverProfileId

/-- The calculation behind a credit: its own, or for a correction a payout_v4 calculation of its
driver's trip. -/
structure CalculationOf (books : PayBooks) (entry : EarningsLedgerEntry)
    (calculation : PayoutCalculation) : Prop where
  stored : books.calculation? calculation.id = some calculation
  trip : entry.tripSessionId = some calculation.tripSessionId
  formula : calculation.formulaVersion = payoutV4
  source : entry.payoutCalculationId = some calculation.id
    ∨ (entry.payoutCalculationId = none
      ∧ calculation.driverProfileId = entry.driverProfileId)

omit [TextReaders] in
theorem LiveLine.mem_cashRows {driver : Id} {line : PayoutBatchLine}
    (h : LiveLine s driver line entry) {calculation : PayoutCalculation}
    (hcalculation : CalculationOf books entry calculation) :
    (line, entry) ∈ cashRows s books driver := by
  have hdaily : books.isDailyRateTrip entry.tripSessionId = true := by
    -- the calculation itself shows that the trip is paid by the day
    apply List.any_eq_true.mpr
    exact ⟨calculation, List.mem_of_find?_eq_some hcalculation.stored,
      by simp [hcalculation.trip, hcalculation.formula]⟩
  apply List.mem_filterMap.mpr
  refine ⟨line, h.stored, ?_⟩
  simp [h.credit, Option.filter, isLive, h.live.1, h.live.2, h.currency, h.driver, hdaily]

omit [TextReaders] in
theorem CalculationOf.mem_rowCalculations {calculation : PayoutCalculation}
    (h : CalculationOf books entry calculation) {calculations : List PayoutCalculation}
    (hrow : rowCalculations books entry = some calculations) : calculation ∈ calculations := by
  unfold rowCalculations at hrow
  rcases h.source with hown | ⟨hcorrection, hdriver⟩
  · simp only [hown, h.stored] at hrow
    split_ifs at hrow
    rw [← Option.some.inj hrow]
    exact List.mem_singleton.mpr rfl
  · simp only [hcorrection, Option.some.injEq] at hrow
    rw [← hrow]
    apply List.mem_filter.mpr
    exact ⟨List.mem_of_find?_eq_some h.stored, by simp [h.trip, h.formula, hdriver]⟩

/-- The cash of a day is what the live lines charge to it, and none is charged too little. -/
theorem cashByDay_covers {driver : Id} {cash : List (Day × Int)}
    (hcash : cashByDay s books driver = some cash) {line : PayoutBatchLine}
    (hline : LiveLine s driver line entry) {calculation : PayoutCalculation}
    (hcalculation : CalculationOf books entry calculation) (day : Day) :
    PartOf calculation day (partOn calculation day)
      ∧ min (partOn calculation day) line.amount ≤ chargeOn books (line, entry) day := by
  rcases (chargeRows_spec hcash).1 _ (hline.mem_cashRows hcalculation) with ⟨charges, hcharges⟩
  rcases lineCharges_spec hcharges with ⟨calculations, _, hrow, _⟩
  have hmem := hcalculation.mem_rowCalculations hrow
  rcases readAllocation_of_charged hcharges hrow hmem with ⟨parsed, hparsed⟩
  exact ⟨partOf_partOn hparsed day, min_partOn_le_chargeOn hcharges hrow hmem day⟩

omit [TextReaders] in
theorem includedOn_eq (scan : ScanState) (driver : Id) (day : Day)
    (hnodup : ∀ days ∈ requestsOf scan.included driver, (days.map (·.1)).Nodup) :
    scan.includedOn driver day = asked day (requestsOf scan.included driver).flatten := by
  have hflat : ∀ {requests : List (List (Day × Int))},
      (∀ days ∈ requests, (days.map (·.1)).Nodup) →
        (requests.map (fun days => valueAt days day)).sum = asked day requests.flatten := by
    intro requests
    induction requests with
    | nil => exact fun _ => rfl
    | cons days rest ih =>
        intro h
        have hdays := asked_eq_valueAt (h days List.mem_cons_self) day
        rw [List.map_cons, List.sum_cons, List.flatten_cons, asked_append, hdays,
          ih (fun days hmem => h days (List.mem_cons_of_mem _ hmem))]
  rw [← hflat hnodup, ScanState.includedOn, requestsOf, List.map_map]
  rfl

variable {control : AutomaticControl} {scan : ScanState}
  {capabilities : DisbursementProviderCapabilities} {runId : Id} {period : String}
  {batchId lineId : Id → Id} {now : Int} {s' : Store}

theorem automaticPass_ok [Hashing]
    (h : automaticPass auth fraud control capabilities runId period batchId lineId now s books
      = .ok (some scan, s')) :
    scanCandidates auth fraud control.candidateCursor s books = .ok scan
      ∧ runAutomaticPayouts (scan.review control) capabilities runId period batchId lineId now s
        = .ok s' := by
  unfold automaticPass at h
  split_ifs at h
  · split at h
    · exact absurd h (by simp)
    · next found hscan =>
        simp only [bind_eq_ok, pure_eq_ok, Prod.mk.injEq, Option.some.injEq] at h
        rcases h with ⟨booked, hbooked, rfl, rfl⟩
        exact ⟨hscan, hbooked⟩
  · exact absurd h (by simp)

omit [TextReaders] in
theorem candidate_of_scanned {cursor : Option (Int × Id)}
    (h : entry ∈ scannedEntries fraud cursor s books) :
    entry ∈ s.entries ∧ isAutomaticCandidate s entry := by
  -- both halves of the scan are cut from the candidates
  have hcandidate : entry ∈ candidates fraud s books := by
    cases cursor with
    | none => exact List.mem_of_mem_take h
    | some cursor =>
        rcases List.mem_append.mp h with h | h
        · exact List.mem_of_mem_filter (List.mem_of_mem_take h)
        · exact List.mem_of_mem_filter (List.mem_of_mem_take h)
  rw [candidates, List.mem_insertionSort, List.mem_filter] at hcandidate
  simp only [Bool.and_eq_true] at hcandidate
  exact ⟨hcandidate.1, hcandidate.2.1.1.1⟩

/-- The batches book exactly what the scan included. -/
theorem mem_includedEntries_review {cursor : Option (Int × Id)}
    (h : scanCandidates auth fraud cursor s books = .ok scan)
    {row : EarningsLedgerEntry × (Id × Id)} :
    row ∈ includedEntries s (scan.review control)
      ↔ ∃ item ∈ scan.included, row = (item.entry, item.authority) := by
  have hinv := scanCandidates_inv h
  simp only [includedEntries, List.mem_filterMap, List.mem_filter, ScanState.review,
    Option.map_map, Option.map_eq_some_iff]
  constructor
  · rintro ⟨entry, _, item, hfound, rfl⟩
    have hentry : item.entry = entry := by simpa using List.find?_some hfound
    exact ⟨item, List.mem_of_find?_eq_some hfound, by simp [hentry]⟩
  · rintro ⟨item, hitem, rfl⟩
    rcases hinv.clean item hitem with ⟨hscanned, hclean⟩
    rcases hfound : scan.included.find? (fun other => other.entry = item.entry) with _ | other
    · exact absurd hfound (by simpa using ⟨item, hitem, rfl⟩)
    · have hentry : other.entry = item.entry := by simpa using List.find?_some hfound
      -- one credit has one review, so it was included with one authority
      have hsame := (hinv.clean other (List.mem_of_find?_eq_some hfound)).2
      rw [hentry, hclean, Except.ok.injEq, CleanReview.clean.injEq] at hsame
      exact ⟨item.entry, candidate_of_scanned hscanned, other, hfound, by simp [hsame.2]⟩

/-- No driver's day is paid beyond its one rate, and no live line is charged to a day at less than
its part of it. -/
theorem automatic_day_ceiling [Hashing]
    (h : automaticPass auth fraud control capabilities runId period batchId lineId now s books
      = .ok (some scan, s')) :
    (∀ item ∈ scan.included, ∀ day ∈ item.days.map (·.1), ∃ cash position rate,
      cashByDay s books item.entry.driverProfileId = some cash
        ∧ dayPosition s books item.entry.driverProfileId day = .ok position
        ∧ position.ceiling = some rate
        ∧ DayRate s books item.entry.driverProfileId day rate
        ∧ valueAt cash day + scan.includedOn item.entry.driverProfileId day ≤ rate)
      ∧ ∀ driver cash, cashByDay s books driver = some cash →
        (∀ day, valueAt cash day
          = ((cashRows s books driver).map (fun row => chargeOn books row day)).sum)
        ∧ ∀ line entry, LiveLine s driver line entry →
          ∀ calculation, CalculationOf books entry calculation →
            ∀ day, PartOf calculation day (partOn calculation day)
              ∧ min (partOn calculation day) line.amount
                ≤ chargeOn books (line, entry) day := by
  have hinv := scanCandidates_inv (automaticPass_ok h).1
  constructor
  · intro item hitem day hday
    have hrequest : item.days ∈ requestsOf scan.included item.entry.driverProfileId :=
      List.mem_map_of_mem (List.mem_filter.mpr ⟨hitem, by simp⟩)
    have hnodup : ∀ days ∈ requestsOf scan.included item.entry.driverProfileId,
        (days.map (·.1)).Nodup := by
      intro days hdays
      rcases List.mem_map.mp hdays with ⟨other, hother, rfl⟩
      exact cleanReason_clean (hinv.clean other (List.mem_of_mem_filter hother)).2
    cases hmet : scan.cash.lookup item.entry.driverProfileId with
    | none =>
        -- a driver with an included credit was met
        rw [hinv.unmet _ hmet] at hrequest
        exact absurd hrequest List.not_mem_nil
    | some tally =>
        rcases hinv.booked _ tally hmet with ⟨start, hstart, _, hadmitted⟩
        rcases hadmitted.within hnodup ⟨item.days, hrequest, hday⟩ with ⟨rate, hrate, hle⟩
        rw [← includedOn_eq scan _ _ hnodup] at hle
        -- a ceiling is only known where the position of the day was read
        unfold ceilingOn at hrate
        split at hrate
        · next position hposition =>
            exact ⟨start, position, rate, hstart, hposition, hrate,
              dayRate_of_ceiling hposition hrate, hle⟩
        · exact absurd hrate (by simp)
  · intro driver cash hcash
    exact ⟨cashByDay_eq hcash, fun line entry hline calculation hcalculation =>
      cashByDay_covers hcash hline hcalculation⟩

end Pass

/-! ## A day that was partly paid -/

/-- The readers on one day and three amounts. -/
@[reducible]
def sampleReaders : TextReaders where
  fromIsoFormat text := if text = "2026-03-02" then some 20514 else none
  isoFormat day := if day = 20514 then "2026-03-02" else ""
  decimal text :=
    if text = "40.00" then some (.finite 40)
    else if text = "60.00" then some (.finite 60)
    else if text = "0" then some (.finite 0)
    else none

def noFraud : FraudRecords where
  flagged := fun _ => false
  openDispute := fun _ => false

/-- The credit of the trip that was paid, its line and its calculation. -/
def paidCredit : EarningsLedgerEntry :=
  { id := 11, payoutCalculationId := some 21, driverProfileId := 5, driverUserId := 6
    tripSessionId := some 1, entryType := .tripPayout, status := .paid, amount := 4000
    currency := "NGN", occurredAt := 0 }

def paidLine : PayoutBatchLine :=
  { id := 41, ledgerEntryId := 11, payeeVersionId := 5, bankAccountVersionId := 5
    amount := 4000, currency := "NGN"
    instruction := { ledgerEntryId := 11, payeeVersionId := 5, bankAccountVersionId := 5
                     amount := 4000, currency := "NGN" }
    instructionFingerprint := "f", idempotencyKey := "k"
    status := .succeeded, reservationActive := false }

def paidCalculation : PayoutCalculation :=
  { id := 21, tripSessionId := 1, driverProfileId := 5, assignmentId := 3, campaignId := 4
    status := .calculated, finalPayout := 4000
    amountByDay := .object [("2026-03-02", "40.00")], calculatedAt := 0 }

/-- Two trips of one day at a day rate of 100.00: trip 1 was paid 40.00, trip 2 earned 60.00. -/
def partlyPaidStore : Store :=
  { trips := [{ id := 1, driverProfileId := 5, driverUserId := 6 },
      { id := 2, driverProfileId := 5, driverUserId := 6 }]
    entries := [paidCredit,
      { id := 12, payoutCalculationId := some 22, driverProfileId := 5, driverUserId := 6
        tripSessionId := some 2, entryType := .tripPayout, status := .available, amount := 6000
        currency := "NGN", occurredAt := 1 }]
    batches := [
      { id := 31, status := .completed, currency := "NGN", totalAmount := 4000
        createdByUserId := 9
        lines := [paidLine] }] }

def partlyPaidBooks : PayBooks :=
  { calculations := [paidCalculation,
      { id := 22, tripSessionId := 2, driverProfileId := 5, assignmentId := 3, campaignId := 4
        status := .calculated, finalPayout := 6000
        amountByDay := .object [("2026-03-02", "60.00")], calculatedAt := 1 }]
    trips := [
      { tripSessionId := 1, startedAt := (lagosDayUtcRange 20514).1 },
      { tripSessionId := 2, startedAt := (lagosDayUtcRange 20514).1 + 1 }]
    bindings := [{ assignmentId := 3, dailyRateNaira := some 10000 }] }

/-- The pass over them. -/
def partlyPaidPass : Except AppError (Option ScanState × Store) :=
  @automaticPass sampleReaders sampleHashing sampleAuthority noFraud
    { actorValid := true, paused := false } sampleProvider 51 "2026-03-03"
    (fun _ => 52) (fun _ => 53) 2 partlyPaidStore partlyPaidBooks

/-- The second trip is paid up to the day rate and not beyond it, and the line of the first
trip is charged to the day at its part. -/
theorem automatic_day_ceiling_partly_paid :
    ∃ scan s', partlyPaidPass = .ok (some scan, s')
      ∧ scan.included.map (·.entry.id) = [12]
      ∧ (∀ item ∈ scan.included, ∀ day ∈ item.days.map (·.1), ∃ cash position rate,
        @cashByDay sampleReaders partlyPaidStore partlyPaidBooks item.entry.driverProfileId
            = some cash
          ∧ @dayPosition sampleReaders partlyPaidStore partlyPaidBooks
            item.entry.driverProfileId day = .ok position
          ∧ position.ceiling = some rate
          ∧ DayRate partlyPaidStore partlyPaidBooks item.entry.driverProfileId day rate
          ∧ valueAt cash day + scan.includedOn item.entry.driverProfileId day ≤ rate)
      ∧ @PartOf sampleReaders paidCalculation 20514 4000
      ∧ 4000 ≤ @chargeOn sampleReaders partlyPaidBooks (paidLine, paidCredit) 20514 := by
  have hrun : (partlyPaidPass.toOption.bind (·.1)).map
      (fun scan => scan.included.map (·.entry.id)) = some [12] := by
    decide +kernel
  have hknown : (@cashByDay sampleReaders partlyPaidStore partlyPaidBooks 5).isSome = true := by
    decide +kernel
  have hpart : @partOn sampleReaders paidCalculation 20514 = 4000 := by decide +kernel
  have hline : LiveLine partlyPaidStore 5 paidLine paidCredit :=
    ⟨by decide, by decide, by decide, rfl, rfl⟩
  have hcalculation : CalculationOf partlyPaidBooks paidCredit paidCalculation :=
    ⟨by decide, rfl, rfl, .inl rfl⟩
  rcases Option.isSome_iff_exists.mp hknown with ⟨cash, hcash⟩
  rcases hpass : partlyPaidPass with error | ⟨_ | scan, s'⟩
  · simp [hpass, Except.toOption] at hrun
  · simp [hpass, Except.toOption] at hrun
  · have hceiling := @automatic_day_ceiling sampleReaders _ _ _ _ _ _ _ _ _ _ _ _ _
      sampleHashing hpass
    have hcovered := (hceiling.2 5 cash hcash).2 _ _ hline _ hcalculation 20514
    rw [hpart] at hcovered
    refine ⟨scan, s', rfl, ?_, hceiling.1, hcovered.1, ?_⟩
    · simpa [hpass, Except.toOption] using hrun
    · calc (4000 : Int)
          = min 4000 paidLine.amount := rfl
        _ ≤ _ := hcovered.2

end DayCeiling
end Payout
end Mobility
