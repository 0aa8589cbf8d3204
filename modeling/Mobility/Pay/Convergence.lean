import Mobility.Pay.Inversion
import Mobility.Payout.Balances

/-!
# Convergence — corrections and deductions agree on what a trip is worth

`corrections.py` computes a difference from the rows of a trip; `payout_balances.py`
computes the trip's worth from the same rows with other sums.  `postedNet` is the figure
both reduce to: a correction moves it to the target less the deductions, floored at
zero, and the balance reads that figure back.
-/

namespace Mobility
namespace Pay

open Lib
open Trips
open Payout (Currency EarningsLedgerEntryStatus tripCashPosition)

/-! ## One ledger, read twice -/

/-- A row of the trips' ledger as the payouts read it. -/
def payoutEntry (driverUserId : Id) (entry : EarningsLedgerEntry) : Payout.EarningsLedgerEntry :=
  { id := entry.id
    payoutCalculationId := entry.payoutCalculationId
    driverProfileId := entry.driverProfileId
    driverUserId := driverUserId
    tripSessionId := some entry.tripSessionId
    entryType := entry.entryType
    status := entry.status
    amount := entry.amount
    currency := entry.currency
    occurredAt := entry.occurredAt
    ledgerMetadata :=
      { sourceEntryId := entry.sourceEntryId
        recomputeDay := entry.recomputeDay.isSome } }

/-- The rows that `trip_money_positions` groups under one trip and currency. -/
def balanceEntries (driverUserId : Id) (s : Store) (tripId : Id) (currency : Currency) :
    List Payout.EarningsLedgerEntry :=
  (s.entries.filter (fun entry => entry.tripSessionId = tripId ∧ entry.currency = currency)).map
    (payoutEntry driverUserId)

def manualDeductions (s : Store) (tripId : Id) : Int :=
  (((liveEntries s tripId).filter isManualDeduction).map (·.amount)).sum

/-- Everything that was posted to the trip and still counts. -/
def postedNet (s : Store) (tripId : Id) : Int :=
  ((liveEntries s tripId).map signedAmount).sum

@[simp]
theorem isManualDeduction_payoutEntry (driverUserId : Id) (entry : EarningsLedgerEntry) :
    Payout.isManualDeduction (payoutEntry driverUserId entry) = isManualDeduction entry := by
  cases hday : entry.recomputeDay <;>
    simp [Payout.isManualDeduction, isManualDeduction, payoutEntry, hday]

/-- One row moves the trip's worth by its signed amount, unless it was voided. -/
theorem awards_add_payoutEntry (driverUserId : Id) (awards : Payout.TripAwards)
    (entry : EarningsLedgerEntry) :
    (awards.add (payoutEntry driverUserId entry)).earned
        - (awards.add (payoutEntry driverUserId entry)).manualDeductions
      = awards.earned - awards.manualDeductions
        + if entry.status = .voided then 0 else signedAmount entry := by
  have hstatus : (payoutEntry driverUserId entry).status = entry.status := rfl
  have htype : (payoutEntry driverUserId entry).entryType = entry.entryType := rfl
  have hamount : (payoutEntry driverUserId entry).amount = entry.amount := rfl
  unfold Payout.TripAwards.add signedAmount
  simp only [hstatus, htype, hamount, isManualDeduction_payoutEntry]
  split_ifs <;> simp <;> omega

theorem awards_payoutEntries (driverUserId : Id) (entries : List EarningsLedgerEntry)
    (awards : Payout.TripAwards) :
    ((entries.map (payoutEntry driverUserId)).foldl Payout.TripAwards.add awards).earned
        - ((entries.map (payoutEntry driverUserId)).foldl Payout.TripAwards.add
            awards).manualDeductions
      = awards.earned - awards.manualDeductions
        + ((entries.filter (fun entry => entry.status ≠ .voided)).map signedAmount).sum := by
  induction entries generalizing awards with
  | nil => simp
  | cons entry entries ih =>
      simp only [List.map_cons, List.foldl_cons]
      rw [ih, awards_add_payoutEntry]
      by_cases hvoided : entry.status = .voided
      · simp [hvoided]
      · rw [if_neg hvoided, List.filter_cons, if_pos (by simpa using hvoided), List.map_cons,
          List.sum_cons]
        omega

/-- The balance of a trip whose live rows are in one currency is what was posted. -/
theorem earnedNet_eq (driverUserId : Id) {s : Store} {tripId : Id} {currency : Currency}
    (hcurrency : ∀ entry ∈ liveEntries s tripId, entry.currency = currency)
    (lines : List Payout.PayoutBatchLine) (offsetsFunded offsetsReceived : Int) :
    (tripCashPosition (balanceEntries driverUserId s tripId currency) lines offsetsFunded
        offsetsReceived).earnedNet = max (postedNet s tripId) 0 := by
  have hlive : (s.entries.filter
      (fun entry => entry.tripSessionId = tripId ∧ entry.currency = currency)).filter
        (fun entry => entry.status ≠ .voided) = liveEntries s tripId := by
    rw [List.filter_filter]
    refine List.filter_congr ?_
    intro entry hentry
    by_cases hcounts : entry.tripSessionId = tripId ∧ entry.status ≠ .voided
    · have hmem : entry ∈ liveEntries s tripId :=
        List.mem_filter.mpr ⟨hentry, by simpa using hcounts⟩
      simp [hcounts.1, hcounts.2, hcurrency entry hmem]
    · by_cases htrip : entry.tripSessionId = tripId
      · have hvoided : entry.status = .voided := by
          by_contra hne
          exact hcounts ⟨htrip, hne⟩
        simp [hvoided]
      · simp [htrip]
  have hsum := awards_payoutEntries driverUserId
    (s.entries.filter (fun entry => entry.tripSessionId = tripId ∧ entry.currency = currency)) {}
  rw [hlive] at hsum
  have hawards : (Payout.tripAwards (balanceEntries driverUserId s tripId currency)).earned
      - (Payout.tripAwards (balanceEntries driverUserId s tripId currency)).manualDeductions
        = postedNet s tripId := by
    simpa [Payout.tripAwards, balanceEntries, postedNet] using hsum
  simp only [tripCashPosition, Payout.TripAwards.earnedNet, hawards]

/-! ## Targets -/

/-- The trip's rows name the trip's driver, as every writer of the ledger copies it. -/
def OwnLedger (s : Store) (trip : TripSession) : Prop :=
  ∀ entry ∈ s.entries, entry.tripSessionId = trip.id →
    entry.driverProfileId = trip.driverProfileId

section

variable {s s' : Store} {trip : TripSession} {calculation : PayoutCalculation} {day : Day}
  {creditedBefore : Int} {measurement : Measurement} {target : DayTripTarget}

theorem live_of_own (hown : OwnLedger s trip) :
    (liveEntries s trip.id).filter (·.driverProfileId = trip.driverProfileId)
      = liveEntries s trip.id := by
  refine List.filter_eq_self.mpr ?_
  intro entry hentry
  rcases List.mem_filter.mp hentry with ⟨hmem, hlive⟩
  have htrip : entry.tripSessionId = trip.id ∧ entry.status ≠ .voided := by simpa using hlive
  exact decide_eq_true (hown entry hmem htrip.1)

theorem deductions_of_currency {tripId : Id} {currency : Currency}
    (hcurrency : ∀ entry ∈ liveEntries s tripId, entry.currency = currency) :
    (((liveEntries s tripId).filter (fun entry =>
        entry.currency = currency ∧ isManualDeduction entry)).map (·.amount)).sum
      = manualDeductions s tripId := by
  have hsame : (liveEntries s tripId).filter (fun entry =>
      entry.currency = currency ∧ isManualDeduction entry)
        = (liveEntries s tripId).filter isManualDeduction := by
    refine List.filter_congr ?_
    intro entry hentry
    simp [hcurrency entry hentry]
  rw [hsame]
  rfl

/-- What a target says about the rows it was computed from. -/
structure TargetOf (s : Store) (trip : TripSession) (calculation : PayoutCalculation)
    (target : DayTripTarget) : Prop where
  tripSessionId : target.tripSessionId = trip.id
  currency : target.currency = calculation.currency
  live : ∀ entry ∈ liveEntries s trip.id, entry.currency = calculation.currency
  delta : target.deltaAmount =
    if max (target.targetAmount - manualDeductions s trip.id) 0 = 0 ∧ postedNet s trip.id ≤ 0
    then 0
    else max (target.targetAmount - manualDeductions s trip.id) 0 - postedNet s trip.id

theorem dailyRateDayTarget_spec (hown : OwnLedger s trip)
    (h : dailyRateDayTarget s trip calculation day creditedBefore measurement = .ok target) :
    TargetOf s trip calculation target := by
  simp only [dailyRateDayTarget, postedAmountForTrip, bind_eq_ok, demand_eq_ok, require_eq_ok,
    pure_eq_ok] at h
  rcases h with ⟨binding, _, _, _, posted, ⟨_, hlive, rfl⟩, rfl⟩
  refine ⟨rfl, rfl, hlive, ?_⟩
  simp only [deductions_of_currency hlive, live_of_own hown, postedNet]
  rfl

/-- A trip in the calculation's currency always has a target. -/
theorem dailyRateDayTarget_total {binding : AssignmentRuleBinding}
    (hbinding : s.binding? trip.assignmentId = some binding)
    (hcurrency : calculation.currency = binding.currency)
    (hlive : ∀ entry ∈ liveEntries s trip.id, entry.currency = calculation.currency) :
    ∃ target, dailyRateDayTarget s trip calculation day creditedBefore measurement
      = .ok target := by
  simp only [dailyRateDayTarget, postedAmountForTrip, bind_eq_ok, demand_eq_ok, require_eq_ok,
    pure_eq_ok]
  exact ⟨_, binding, hbinding, ⟨⟩, hcurrency, _, ⟨⟨⟩, hlive, rfl⟩, rfl⟩

/-! ## Posting a difference -/

theorem liveEntries_append (s : Store) (entry : EarningsLedgerEntry) (tripId : Id)
    (htrip : entry.tripSessionId = tripId) (hstatus : entry.status ≠ .voided) :
    liveEntries { s with entries := s.entries ++ [entry] } tripId
      = liveEntries s tripId ++ [entry] := by
  simp [liveEntries, htrip, hstatus]

theorem differentialStatus_live (s : Store) (target : DayTripTarget) :
    differentialStatus s target ≠ .voided := by
  unfold differentialStatus
  split_ifs
  · simp
  · simp
  · cases tripPayoutEntryFor? s target.tripSessionId with
    | none => simp
    | some entry =>
        dsimp only
        split_ifs with hstatus
        · exact hstatus
        · simp

theorem signedAmount_differentialEntry (s : Store) (campaignId driverProfileId : Id)
    (executedAt : Int) (entryId : Id) (target : DayTripTarget) :
    signedAmount (differentialEntry s campaignId driverProfileId executedAt entryId target)
      = target.deltaAmount := by
  by_cases hpos : 0 < target.deltaAmount
  · simp [signedAmount, differentialEntry, hpos, abs_of_pos hpos]
  · simp [signedAmount, differentialEntry, hpos, abs_of_nonpos (not_lt.mp hpos)]

/-- A differential is no manual deduction, so it leaves the deductions of a trip alone
and moves what was posted by the difference. -/
theorem writeDayDifferential_posts {campaignId : Id} {executedAt : Int} {releaseAt : Option Int}
    {entryId : Id → Id} (htarget : target.tripSessionId = trip.id)
    (h : writeDayDifferential campaignId trip.driverProfileId executedAt releaseAt entryId s target
      = .ok s') :
    manualDeductions s' trip.id = manualDeductions s trip.id
      ∧ postedNet s' trip.id = postedNet s trip.id + target.deltaAmount := by
  rcases writeDayDifferential_eq h with ⟨hzero, rfl⟩ | ⟨_, rfl⟩
  · exact ⟨rfl, by omega⟩
  · have hlive := liveEntries_append s (differentialEntry s campaignId trip.driverProfileId
      executedAt (entryId target.tripSessionId) target) trip.id htarget
      (differentialStatus_live s target)
    have hmanual : isManualDeduction (differentialEntry s campaignId trip.driverProfileId
        executedAt (entryId target.tripSessionId) target) = false := by
      simp [isManualDeduction, differentialEntry]
    constructor
    · simp [manualDeductions, hlive, hmanual]
    · simp [postedNet, hlive, signedAmount_differentialEntry]

theorem liveEntries_of_post {campaignId : Id} {executedAt : Int} {releaseAt : Option Int}
    {entryId : Id → Id} {currency : Currency}
    (hcurrency : target.currency = currency)
    (hlive : ∀ entry ∈ liveEntries s trip.id, entry.currency = currency)
    (h : writeDayDifferential campaignId trip.driverProfileId executedAt releaseAt entryId s target
      = .ok s') : ∀ entry ∈ liveEntries s' trip.id, entry.currency = currency := by
  rcases writeDayDifferential_eq h with ⟨_, rfl⟩ | ⟨_, rfl⟩
  · exact hlive
  · intro entry hentry
    rcases List.mem_filter.mp hentry with ⟨hmem, hcounts⟩
    rcases List.mem_append.mp hmem with hold | hnew
    · exact hlive entry (List.mem_filter.mpr ⟨hold, hcounts⟩)
    · rw [List.mem_singleton.mp hnew]
      exact hcurrency

theorem OwnLedger.append {entry : EarningsLedgerEntry} (hown : OwnLedger s trip)
    (hentry : entry.tripSessionId = trip.id → entry.driverProfileId = trip.driverProfileId) :
    OwnLedger { s with entries := s.entries ++ [entry] } trip := by
  intro row hrow
  rcases List.mem_append.mp hrow with hrow | hrow
  · exact hown row hrow
  · rw [List.mem_singleton.mp hrow]
    exact hentry

/-! ## Histories of a trip's ledger -/

/-- What happens to the rows of a trip: corrections of any day, staff deductions, and
releases or payments of a row. -/
inductive LedgerMove
  | correct (calculation : PayoutCalculation) (day : Day) (creditedBefore : Int)
      (measurement : Measurement) (executedAt : Int) (releaseAt : Option Int) (entryId : Id → Id)
  | deduct (entryId sourceEntryId : Id) (amount : Int) (now : Int)
  | mark (entryId : Id) (status : EarningsLedgerEntryStatus)

def ledgerMove (trip : TripSession) (s : Store) (move : LedgerMove) : Except AppError Store :=
  match move with
  | .correct calculation day creditedBefore measurement executedAt releaseAt entryId => do
      let target ← dailyRateDayTarget s trip calculation day creditedBefore measurement
      writeDayDifferential trip.campaignId trip.driverProfileId executedAt releaseAt entryId s
        target
  | .deduct entryId sourceEntryId amount now =>
      recordNegativeAdjustment entryId sourceEntryId amount now s
  | .mark entryId status => markLedgerEntry entryId status s

theorem OwnLedger.move {move : LedgerMove} (hown : OwnLedger s trip)
    (h : ledgerMove trip s move = .ok s') : OwnLedger s' trip := by
  cases move with
  | correct calculation day creditedBefore measurement executedAt releaseAt entryId =>
      rcases bind_eq_ok.mp h with ⟨target, _, hwrite⟩
      rcases writeDayDifferential_eq hwrite with ⟨_, rfl⟩ | ⟨_, rfl⟩
      · exact hown
      · exact hown.append (fun _ => rfl)
  | deduct entryId sourceEntryId amount now =>
      simp only [ledgerMove, recordNegativeAdjustment, bind_eq_ok, demand_eq_ok, require_eq_ok,
        pure_eq_ok] at h
      rcases h with ⟨source, hfound, _, _, rfl⟩
      -- the deduction copies trip and driver of the row it is taken from
      exact hown.append (fun htrip => hown source (List.mem_of_find?_eq_some hfound) htrip)
  | mark entryId status =>
      simp only [ledgerMove, markLedgerEntry, bind_eq_ok, require_eq_ok, pure_eq_ok] at h
      rcases h with ⟨_, _, rfl⟩
      intro entry hentry
      rcases List.mem_map.mp hentry with ⟨row, hrow, rfl⟩
      split_ifs
      · exact hown row hrow
      · exact hown row hrow

theorem OwnLedger.history {moves : List LedgerMove} (hown : OwnLedger s trip)
    (h : checkedFold (ledgerMove trip) s moves = .ok s') : OwnLedger s' trip :=
  checkedFold_invariant (fun s => OwnLedger s trip) (fun _ _ _ hs hmove => hs.move hmove) moves h
    hown

/-- After the difference is posted, what was posted is the worth of the trip, or the
trip is worth nothing and was left at or below zero. -/
theorem posted_after {campaignId : Id} {executedAt : Int} {releaseAt : Option Int}
    {entryId : Id → Id} (htarget : TargetOf s trip calculation target)
    (h : writeDayDifferential campaignId trip.driverProfileId executedAt releaseAt entryId s target
      = .ok s') :
    max (postedNet s' trip.id) 0 = max (target.targetAmount - manualDeductions s trip.id) 0 := by
  rcases writeDayDifferential_posts htarget.tripSessionId h with ⟨_, hposted⟩
  rw [hposted, htarget.delta]
  split_ifs <;> omega

end

/-- Whatever was posted, deducted, released or paid before: posting the difference
leaves the trip worth the target less the deductions, as the balance reads it, and the
day can be computed again, where the same target has nothing left to post. -/
theorem correction_converges {s₀ s s' : Store} {trip : TripSession} {moves : List LedgerMove}
    {calculation : PayoutCalculation} {day : Day} {creditedBefore : Int}
    {measurement : Measurement} {target : DayTripTarget} {executedAt : Int}
    {releaseAt : Option Int} {entryId : Id → Id} (hown : OwnLedger s₀ trip)
    (hmoves : checkedFold (ledgerMove trip) s₀ moves = .ok s)
    (htarget : dailyRateDayTarget s trip calculation day creditedBefore measurement = .ok target)
    (hpost : writeDayDifferential trip.campaignId trip.driverProfileId executedAt releaseAt entryId
      s target = .ok s') :
    (∀ driverUserId lines offsetsFunded offsetsReceived,
        (tripCashPosition (balanceEntries driverUserId s' trip.id target.currency) lines
          offsetsFunded offsetsReceived).earnedNet
            = max (target.targetAmount - manualDeductions s trip.id) 0)
      ∧ (∃ again, dailyRateDayTarget s' trip calculation day creditedBefore measurement
          = .ok again)
      ∧ ∀ calculation' day' creditedBefore' measurement' again,
          dailyRateDayTarget s' trip calculation' day' creditedBefore' measurement' = .ok again →
          again.targetAmount = target.targetAmount → again.deltaAmount = 0 := by
  have hown' := hown.history hmoves
  have hspec := dailyRateDayTarget_spec hown' htarget
  rcases writeDayDifferential_posts hspec.tripSessionId hpost with ⟨hdeductions, _⟩
  have hposted := posted_after hspec hpost
  have hlive' := liveEntries_of_post hspec.currency hspec.live hpost
  refine ⟨?_, ?_, ?_⟩
  · intro driverUserId lines offsetsFunded offsetsReceived
    rw [earnedNet_eq driverUserId (hspec.currency ▸ hlive'), hposted]
  · simp only [dailyRateDayTarget, bind_eq_ok, demand_eq_ok, require_eq_ok] at htarget
    rcases htarget with ⟨binding, hbinding, _, hcurrency, _⟩
    -- posting writes no binding, so the day can be priced again
    have hbinding' : s'.binding? trip.assignmentId = some binding := by
      rcases writeDayDifferential_eq hpost with ⟨_, rfl⟩ | ⟨_, rfl⟩
      · exact hbinding
      · exact hbinding
    exact dailyRateDayTarget_total hbinding' hcurrency hlive'
  · intro calculation' day' creditedBefore' measurement' again hagain hsame
    -- the posting is itself a move of the ledger
    have hmove : ledgerMove trip s (.correct calculation day creditedBefore measurement executedAt
        releaseAt entryId) = .ok s' := bind_eq_ok.mpr ⟨target, htarget, hpost⟩
    have hownPosted : OwnLedger s' trip := hown'.move hmove
    have hagain' := dailyRateDayTarget_spec hownPosted hagain
    rw [hagain'.delta, hsame, hdeductions]
    split_ifs with hzero
    · rfl
    · omega

namespace Convergence

def trip : TripSession :=
  { id := 1, assignmentId := 1, campaignId := 1, driverProfileId := 1, vehicleId := 1, startedAt := 0 }

/-- 50.00 earned on day 0. -/
def calculation : PayoutCalculation :=
  { id := 1
    tripSessionId := 1
    campaignId := 1
    driverProfileId := 1
    status := .calculated
    currency := "NGN"
    finalPayout := 5000
    position := { amountByDay := [(0, 5000)] }
    calculatedAt := 10
    sourceAnalytics :=
      { tripSessionId := 1
        formulaVersion := "v1"
        status := .computed
        computedAt := 10
        endedAt := 5
        sourcePings := [] }
    pricedPings := [] }

/-- Only 30.00 of it was posted. -/
def underpaid : Store :=
  { bindings :=
      [{ assignmentId := 1
         terms := { dailyRateNaira := 100, dailyTargetMiles := 10 }
         currency := "NGN" }]
    entries :=
      [{ id := 1
         tripSessionId := 1
         campaignId := 1
         driverProfileId := 1
         entryType := .tripPayout
         status := .available
         amount := 3000
         currency := "NGN"
         occurredAt := 10 }] }

/-- A staff deduction of 10.00. -/
def deduction : LedgerMove := .deduct 2 1 1000 20

def deducted : Store :=
  ((checkedFold (ledgerMove trip) underpaid [deduction]).toOption).getD {}

def topUp : DayTripTarget :=
  { tripSessionId := 1
    payoutCalculationId := 1
    currency := "NGN"
    previousPostedAmount := 2000
    targetAmount := 5000
    deltaAmount := 2000
    voided := false
    position := { amountByDay := [(0, 5000)] } }

def toppedUp : Store :=
  ((writeDayDifferential 1 1 30 (some 40) (fun _ => 3) deducted topUp).toOption).getD {}

end Convergence

open Convergence in
/-- 50.00 of pay less 10.00 deducted: the correction posts the missing 20.00. -/
theorem correction_converges_top_up :
    (tripCashPosition (balanceEntries 1 toppedUp 1 "NGN") [] 0 0).earnedNet = 4000 := by
  have hown : OwnLedger underpaid trip := by
    intro entry hentry _
    rw [List.mem_singleton.mp hentry]
    rfl
  have hmoves : checkedFold (ledgerMove trip) underpaid [deduction] = .ok deducted := by decide
  have htarget : dailyRateDayTarget deducted trip calculation 1 0 {} = .ok topUp := by decide
  have hpost : writeDayDifferential trip.campaignId trip.driverProfileId 30 (some 40) (fun _ => 3)
      deducted topUp = .ok toppedUp := by decide
  exact (correction_converges hown hmoves htarget hpost).1 1 [] 0 0

end Pay
end Mobility
