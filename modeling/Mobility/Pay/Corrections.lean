import Mobility.Pay.Engine

/-!
# Corrections — repricing a Lagos day (`payouts/corrections.py`, `payout_corrections.py`)

An approved correction order measures every priced trip of the day again, in start
order, posts the differences and records each trip's whole position, also where the
difference is zero.  What a difference does to unsent payouts is modelled with the
payouts.
-/

namespace Mobility
namespace Pay

open Lib
open Trips
open Payout (Currency Digest EarningsLedgerEntryStatus EarningsLedgerEntryType)

structure DayTripTarget where
  tripSessionId : Id
  payoutCalculationId : Id
  currency : Currency
  previousPostedAmount : Int
  targetAmount : Int
  deltaAmount : Int
  voided : Bool
  position : DailyRatePosition
  deriving DecidableEq, Repr

def payoutDayCurrencyMismatch : AppError :=
  { code := "PAYOUT_DAY_CURRENCY_MISMATCH"
    message :=
      "The day's calculations and the governing rule use different currencies; resolve manually" }

/-- `is_manual_deduction`: a staff deduction, not a recomputed differential. -/
def isManualDeduction (entry : EarningsLedgerEntry) : Bool :=
  entry.entryType = .reversal && entry.sourceEntryId.isSome && entry.recomputeDay.isNone

/-- Reversals subtract from the original trip; all other entries add. -/
def signedAmount (entry : EarningsLedgerEntry) : Int :=
  if entry.entryType = .reversal then -entry.amount else entry.amount

/-- The trip's entries that still count. -/
def liveEntries (s : Store) (tripId : Id) : List EarningsLedgerEntry :=
  s.entries.filter (fun entry => entry.tripSessionId = tripId ∧ entry.status ≠ .voided)

def postedAmountForTrip (s : Store) (tripId driverProfileId : Id) (currency : Currency) :
    Except AppError Int := do
  require (∀ entry ∈ liveEntries s tripId, entry.currency = currency) payoutDayCurrencyMismatch
  return (((liveEntries s tripId).filter (·.driverProfileId = driverProfileId)).map
    signedAmount).sum

/-! ## Targets -/

/-- The trip's position once `day` is measured again after `creditedBefore` metres. -/
def recomputedPosition (stored : DailyRatePosition) (day : Day) (terms : DailyRateTerms)
    (creditedBefore measured : Int) : DailyRatePosition :=
  if 0 < measured then
    { distanceMByDay := stored.distanceMByDay.replace day (some measured)
      amountByDay := stored.amountByDay.replace day
        (some (dayPayNaira (creditedBefore + measured) terms - dayPayNaira creditedBefore terms)) }
  else
    { distanceMByDay := stored.distanceMByDay.replace day none
      amountByDay := stored.amountByDay.replace day none }

/-- `_daily_rate_day_target`. -/
def dailyRateDayTarget (s : Store) (trip : TripSession) (calculation : PayoutCalculation)
    (day : Day) (creditedBefore : Int) (measurement : Measurement) :
    Except AppError DayTripTarget := do
  let binding ← demand (s.binding? trip.assignmentId)
    { code := "PAYOUT_BINDING_NOT_FOUND"
      message := "A payout_v4 calculation exists but its assignment has no frozen daily-rate binding; resolve manually" }
  require (calculation.currency = binding.currency) payoutDayCurrencyMismatch
  let slices := tripSlices s trip measurement
  let voided := voidedTripPayout s trip.id
  let position : DailyRatePosition :=
    if voided ∨ calculation.status = .blocked then {}
    else
      recomputedPosition (latestDailyRatePosition s calculation) day binding.terms creditedBefore
        ((creditedDistanceMByDay slices).get day)
  let targetAmount := (position.amountByDay.map (·.2)).sum
  let posted ← postedAmountForTrip s trip.id trip.driverProfileId calculation.currency
  let deductions := ((liveEntries s trip.id).filter (fun entry =>
    entry.currency = calculation.currency ∧ isManualDeduction entry)).map (·.amount)
  let worth := max (targetAmount - deductions.sum) 0
  return {
    tripSessionId := trip.id
    payoutCalculationId := calculation.id
    currency := calculation.currency
    previousPostedAmount := posted
    targetAmount := targetAmount
    deltaAmount := if worth = 0 ∧ posted ≤ 0 then 0 else worth - posted
    voided := voided
    position := position }

/-- The trips a correction of the day looks at, in start order. -/
def dayTrips (s : Store) (campaignId driverProfileId : Id) (day : Day) : List TripSession :=
  (s.trips.filter (fun trip => trip.campaignId = campaignId
      ∧ trip.driverProfileId = driverProfileId
      ∧ (trip.status = .ended ∨ trip.status = .sealed) ∧ EndedOverlaps trip day)).insertionSort
    (fun t t' => instantThenId t.startedAt t.id t'.startedAt t'.id)

structure DayState where
  creditedM : Int := 0
  targets : List DayTripTarget := []

/-- One round over the day's trips; a trip that was never priced is skipped. -/
def dayTargetRound (s : Store) (day : Day) (measure : Id → Measurement) (state : DayState)
    (trip : TripSession) : Except AppError DayState :=
  match calculationFor? s trip.id with
  | none => .ok state
  | some calculation => do
      let target ← dailyRateDayTarget s trip calculation day state.creditedM (measure trip.id)
      return {
        creditedM := state.creditedM + target.position.distanceMByDay.get day
        targets := state.targets ++ [target] }

def computePayoutDayTargets (s : Store) (campaignId : Id) (day : Day)
    (measure : Id → Measurement) (driverProfileId : Id) :
    Except AppError (List DayTripTarget) := do
  let trips := dayTrips s campaignId driverProfileId day
  let currencies : List Currency :=
    (trips.filterMap (fun trip => calculationFor? s trip.id)).map (·.currency)
  require (∀ c ∈ currencies, ∀ c' ∈ currencies, c = c') payoutDayCurrencyMismatch
  let state ← checkedFold (dayTargetRound s day measure) {} trips
  return state.targets

/-! ## Differentials -/

/-- The status a differential is posted with. -/
def differentialStatus (s : Store) (target : DayTripTarget) : EarningsLedgerEntryStatus :=
  if 0 < target.deltaAmount then .pending
  else if s.entries.any (fun entry => entry.tripSessionId = target.tripSessionId
      && entry.currency = target.currency && entry.status = .paid
      && entry.entryType ≠ .reversal) then .available
  else
    match tripPayoutEntryFor? s target.tripSessionId with
    | some entry => if entry.status ≠ .voided then entry.status else .pending
    | none => .pending

/-- The differential entry of a target, with the trip's whole new position. -/
def differentialEntry (s : Store) (campaignId driverProfileId : Id) (executedAt : Int)
    (entryId : Id) (target : DayTripTarget) : EarningsLedgerEntry :=
  { id := entryId
    tripSessionId := target.tripSessionId
    campaignId := campaignId
    driverProfileId := driverProfileId
    entryType := if 0 < target.deltaAmount then .adjustment else .reversal
    status := differentialStatus s target
    amount := |target.deltaAmount|
    currency := target.currency
    occurredAt := executedAt
    recomputeDay := some
      { payoutCalculationId := target.payoutCalculationId
        position := target.position } }

def releaseAtRequired : AppError :=
  { code := "CORRECTION_RELEASE_AT_REQUIRED"
    message := "The projected correction contains positive deltas; execution requires an explicit release_at for the pending entries (Q22 — no default is invented)"
    statusCode := 400 }

def writeDayDifferential (campaignId driverProfileId : Id) (executedAt : Int)
    (releaseAt : Option Int) (entryId : Id → Id) (s : Store) (target : DayTripTarget) :
    Except AppError Store :=
  if target.deltaAmount = 0 then .ok s
  else do
    require (0 < target.deltaAmount → releaseAt.isSome) releaseAtRequired
    require (∀ entry ∈ s.entries, entry.id ≠ entryId target.tripSessionId)
      (uniqueViolation "earnings_ledger_entries_pkey")
    return { s with
      entries := s.entries ++
        [differentialEntry s campaignId driverProfileId executedAt
          (entryId target.tripSessionId) target] }

/-! ## Orders -/

def orderNotFound : AppError :=
  { code := "CORRECTION_ORDER_NOT_FOUND"
    message := "Payout correction order was not found"
    statusCode := 404 }

/-- Drivers whose ended or sealed trips overlap the campaign's day, in order. -/
def affectedDriverIds (s : Store) (campaignId : Id) (day : Day) : List Id :=
  ((s.trips.filter (fun trip => trip.campaignId = campaignId
      ∧ (trip.status = .ended ∨ trip.status = .sealed) ∧ EndedOverlaps trip day)).map
    (·.driverProfileId)).dedup.insertionSort (· ≤ ·)

/-- One driver's part of the projection. -/
structure DayComputation where
  driverProfileId : Id
  trips : List DayTripTarget
  deriving DecidableEq, Repr

def projectCampaignDay (s : Store) (campaignId : Id) (day : Day) (measure : Id → Measurement) :
    Except AppError (List DayComputation) :=
  checkedMap (fun driverProfileId => do
      let trips ← computePayoutDayTargets s campaignId day measure driverProfileId
      return { driverProfileId := driverProfileId, trips := trips })
    (affectedDriverIds s campaignId day)

/-- `fingerprint` is the projection fingerprint of the day's inputs. -/
def createCorrectionOrder (authorized : Except AppError Unit) (orderId campaignId : Id)
    (day : Day) (fingerprint : Digest) (measure : Id → Measurement) (s : Store) :
    Except AppError Store := do
  authorized
  let _ ← projectCampaignDay s campaignId day measure
  require (∀ order ∈ s.orders, order.id ≠ orderId)
    (uniqueViolation "payout_correction_orders_pkey")
  return { s with
    orders := s.orders ++
      [{ id := orderId
         campaignId := campaignId
         lagosDay := day
         status := .draft
         projectionFingerprint := fingerprint }] }

def updateOrder (s : Store) (id : Id) (f : PayoutCorrectionOrder → PayoutCorrectionOrder) :
    Store :=
  { s with orders := s.orders.map (fun order => if order.id = id then f order else order) }

/-- `_execution_result_payload`: every trip's position, also with a zero delta. -/
def executionResultOf (computations : List DayComputation) : List ExecutionResultTrip :=
  computations.flatMap (fun computation => computation.trips.map (fun target =>
    { tripSessionId := target.tripSessionId
      payoutCalculationId := target.payoutCalculationId
      position := target.position }))

def writeDayDifferentials (campaignId : Id) (executedAt : Int) (releaseAt : Option Int)
    (entryId : Id → Id) (s : Store) (computation : DayComputation) : Except AppError Store :=
  checkedFold
    (writeDayDifferential campaignId computation.driverProfileId executedAt releaseAt entryId)
    s computation.trips

/-- A drifted projection leaves the order stale; that transition is committed. -/
def approveCorrectionOrder (authorized : Except AppError Unit) (orderId : Id)
    (fingerprint : Digest) (releaseAt : Option Int) (measure : Id → Measurement)
    (entryId : Id → Id) (executedAt : Int) (s : Store) : Except AppError Store := do
  authorized
  let order ← demand (s.orders.find? (·.id = orderId)) orderNotFound
  if order.status = .executed then
    return s
  else
    require (order.status = .draft)
      { code := "CORRECTION_ORDER_INVALID_STATE"
        message := "Cannot approve a correction order in status 'stale'" }
    let computations ← projectCampaignDay s order.campaignId order.lagosDay measure
    if fingerprint ≠ order.projectionFingerprint then
      return updateOrder s orderId (fun order => { order with status := .stale })
    else
      require ((∃ computation ∈ computations, ∃ target ∈ computation.trips,
          0 < target.deltaAmount) → releaseAt.isSome) releaseAtRequired
      let s ← checkedFold (writeDayDifferentials order.campaignId executedAt releaseAt entryId) s
        computations
      return updateOrder s orderId (fun order => { order with
        status := .executed
        executedAt := some executedAt
        executionResult := executionResultOf computations })

/-! ## Other ledger writes of a trip -/

/-- A staff deduction from a trip's pay. -/
def recordNegativeAdjustment (entryId sourceEntryId : Id) (amount : Int) (now : Int)
    (s : Store) : Except AppError Store := do
  let source ← demand (s.entries.find? (·.id = sourceEntryId))
    { code := "LEDGER_ENTRY_NOT_FOUND"
      message := "Ledger entry was not found"
      statusCode := 404 }
  require (∀ entry ∈ s.entries, entry.id ≠ entryId)
    (uniqueViolation "earnings_ledger_entries_pkey")
  return { s with
    entries := s.entries ++
      [{ id := entryId
         tripSessionId := source.tripSessionId
         campaignId := source.campaignId
         driverProfileId := source.driverProfileId
         entryType := .reversal
         status := .available
         amount := amount
         currency := source.currency
         occurredAt := now
         sourceEntryId := some sourceEntryId }] }

/-- Release, payment and reversal of payment move an entry between live statuses;
nothing voids one. -/
def markLedgerEntry (entryId : Id) (status : EarningsLedgerEntryStatus) (s : Store) :
    Except AppError Store := do
  require (status = .available ∨ status = .paid)
    { code := "LEDGER_ENTRY_STATUS_INVALID", message := "Ledger entry status is not allowed" }
  return { s with
    entries := s.entries.map (fun entry =>
      if entry.id = entryId then { entry with status := status } else entry) }

end Pay
end Mobility
