import Mobility.Lib.Machine
import Mobility.Payout.Automatic

/-!
# System — the payout services as one transition system

The state is the database plus the claims that workers hold in memory.  A claim
is never taken back: a worker may crash after any step, answer late, or answer
twice, so every claim ever returned stays available for a resolution.
-/

namespace Mobility
namespace Payout

open Lib

structure PayoutSystem where
  store : Store := {}
  claims : List ClaimedDisbursementIntent := []
  deriving DecidableEq, Repr

inductive PayoutAction
  | openTrip (trip : TripSession)
  | ensureLedgerEntry (entryId calculationId tripId : Id) (amount : Int) (currency : Currency)
      (occurredAt : Int)
  | releaseLedgerEntry (entryId : Id)
  | recordNegativeAdjustment (auth : Authority) (sourceEntryId requestId : Id) (amount : Int)
      (currency : Currency) (reason : String) (actorUserId : Id) (now : Int)
  | writeDayDifferentials (targets : List DifferentialTarget) (recomputeAt : Int)
  | createDraft (auth : Authority) (currency : String) (actorUserId : Id) (reason : String)
      (batchId : Id) (requested : Bool)
  | reserve (auth : Authority) (batchId : Id) (ledgerEntryIds : List Id) (actorUserId : Id)
      (reason : String) (lineId : Id → Id)
  | approve (auth : Authority) (batchId actorUserId : Id) (reason : String) (now : Int)
  | submit (auth : Authority) (batchId actorUserId : Id)
      (capabilities : DisbursementProviderCapabilities)
  | claim (auth : Authority) (automaticClean : Except AppError Unit)
      (blocker : Option AutomaticBlocker) (capabilities : DisbursementProviderCapabilities)
      (lineId token : Id) (now : Int)
  | resolve (claim : ClaimedDisbursementIntent) (answers : ProviderAnswers) (now : Int)
  | applyEvidence (auth : Authority) (evidence : VerifiedLineEvidence) (source : EvidenceSource)
      (now : Int)
  | retry (auth : Authority) (batchId actorUserId : Id)
      (capabilities : DisbursementProviderCapabilities) (reason : String) (replacementId : Id)
      (lineId : Id → Id)
  | void (auth : Authority) (batchId actorUserId : Id)
  | runAutomatic (review : AutomaticReview) (capabilities : DisbursementProviderCapabilities)
      (runId : Id) (period : String) (batchId lineId : Id → Id) (now : Int)
  | releaseUnsent (auth : Authority) (paused : Bool) (actorUserId : Id) (reason : String)
      (releasedAt : Int)

def strayClaim : AppError :=
  { code := "RuntimeError", message := "No worker holds this claim", statusCode := 500 }

/-- The database transaction of an action, for actions that leave claims alone. -/
def transaction [Hashing] (claims : List ClaimedDisbursementIntent) (s : Store) :
    PayoutAction → Except AppError (Store × Option ClaimedDisbursementIntent)
  | .openTrip trip => (openTrip trip s).map (·, none)
  | .ensureLedgerEntry entryId calculationId tripId amount currency occurredAt =>
      (ensureLedgerEntry entryId calculationId tripId amount currency occurredAt s).map (·, none)
  | .releaseLedgerEntry entryId => (releaseLedgerEntry entryId s).map (·, none)
  | .recordNegativeAdjustment auth sourceEntryId requestId amount currency reason actor now =>
      (recordNegativeAdjustment auth sourceEntryId requestId amount currency reason actor now s).map
        (·, none)
  | .writeDayDifferentials targets recomputeAt =>
      (writeDayDifferentials targets recomputeAt s).map (·, none)
  | .createDraft auth currency actor reason batchId requested =>
      (createPayoutBatchDraft auth currency actor reason batchId requested s).map (·, none)
  | .reserve auth batchId ledgerEntryIds actor reason lineId =>
      (reservePayoutBatch auth batchId ledgerEntryIds actor reason lineId s).map (·, none)
  | .approve auth batchId actor reason now =>
      (approvePayoutBatch auth batchId actor reason now s).map (·, none)
  | .submit auth batchId actor capabilities =>
      (submitPayoutBatch auth batchId actor capabilities s).map (·, none)
  | .claim auth automaticClean blocker capabilities lineId token now =>
      claimPayoutSubmissionIntent auth automaticClean blocker capabilities lineId token now s
  | .resolve claim answers now => do
      require (claim ∈ claims) strayClaim
      (resolvePayoutSubmissionClaim claim (observe claim answers) now s).map (·, none)
  | .applyEvidence auth evidence source now =>
      (applyVerifiedLineEvidence auth evidence source now s).map (·, none)
  | .retry auth batchId actor capabilities reason replacementId lineId =>
      (retryFailedPayoutLines auth batchId actor capabilities reason replacementId lineId s).map
        (·, none)
  | .void auth batchId actor => (voidPayoutBatch auth batchId actor s).map (·, none)
  | .runAutomatic review capabilities runId period batchId lineId now =>
      (runAutomaticPayouts review capabilities runId period batchId lineId now s).map (·, none)
  | .releaseUnsent auth paused actor reason releasedAt =>
      (releaseUnsentAutomaticPayments auth paused actor reason releasedAt s).map (·, none)

def payoutStep [Hashing] (w : PayoutSystem) (action : PayoutAction) :
    Except AppError PayoutSystem := do
  let r ← transaction w.claims w.store action
  return { store := r.1, claims := w.claims ++ r.2.toList }

/-- All runs of the payout services, from an empty database. -/
def payouts [Hashing] : Machine PayoutSystem PayoutAction AppError :=
  { init := {}, step := payoutStep }

/-! ## A small deployment

Concrete outside answers, for runs that exhibit a behaviour. -/

/-- Tells apart the instructions of different ledger entries. -/
@[reducible]
def sampleHashing : Hashing where
  sha256
    | .instruction i => String.ofList (List.replicate (i.ledgerEntryId % 100) 'i')
    | .lineAuthority batchId f predecessor =>
        String.ofList (List.replicate (batchId % 100 + predecessor.getD 0 % 100) 'k') ++ f
    | _ => "h"

def sampleAuthority : Authority where
  activeAdmin := fun _ => true
  held := fun _ => false
  assessmentCurrent := fun _ => true
  payeeAuthority := fun driverProfileId _ => .ok (driverProfileId, driverProfileId)
  sameDestination := fun _ _ => false

def sampleProvider : DisbursementProviderCapabilities where
  providerName := "fake"
  lookupByIdempotencyKey := true
  semanticSameKeyIdempotency := true

/-- Two trips of two drivers, each with 50.00 of released pay, reserved in one
manual batch by admin 7. -/
def reservedTwoTrips : List PayoutAction :=
  [ .openTrip { id := 1, driverProfileId := 11, driverUserId := 21 },
    .openTrip { id := 2, driverProfileId := 12, driverUserId := 22 },
    .ensureLedgerEntry 101 1001 1 5000 "NGN" 0,
    .ensureLedgerEntry 102 1002 2 5000 "NGN" 0,
    .releaseLedgerEntry 101,
    .releaseLedgerEntry 102,
    .createDraft sampleAuthority "NGN" 7 "weekly payout" 201 true,
    .reserve sampleAuthority 201 [101, 102] 7 "weekly payout" (fun entryId => entryId + 200) ]

/-- The same batch after admin 8 approved it and queued it for the provider. -/
def queuedTwoTrips : List PayoutAction :=
  reservedTwoTrips ++
    [ .approve sampleAuthority 201 8 "checked" 10,
      .submit sampleAuthority 201 8 sampleProvider ]

/-- A staff deduction of 10.00 from the first trip. -/
def deductFromFirstTrip : PayoutAction :=
  .recordNegativeAdjustment sampleAuthority 101 501 1000 "NGN" "late return" 8 20

/-- A worker claims the first line of the queued batch. -/
def claimFirstLine (token : Id) (now : Int) : PayoutAction :=
  .claim sampleAuthority (.ok ⟨⟩) none sampleProvider 301 token now

/-- The claim that worker holds. -/
def firstLineClaim (generation : Nat) (token : Id) (action : PayoutSubmissionClaimAction) :
    ClaimedDisbursementIntent where
  batchId := 201
  lineId := 301
  generation := generation
  claimToken := token
  action := action
  idempotencyKey := "ki"
  instruction :=
    { ledgerEntryId := 101
      payeeVersionId := 11
      bankAccountVersionId := 11
      amount := 5000
      currency := "NGN" }
  instructionFingerprint := "i"

/-- A provider that takes submissions and knows nothing on lookup. -/
def sampleAnswers : ProviderAnswers where
  onSubmit := .receipt "P1" "T1"
  onLookup := .notFound

/-- The first line of the queued batch is sent. -/
def sentFirstLine : List PayoutAction :=
  queuedTwoTrips ++
    [ claimFirstLine 901 100,
      .resolve (firstLineClaim 1 901 .submit) sampleAnswers 110 ]

/-- The same after the first call was lost: lookup, then a second submission. -/
def resentFirstLine : List PayoutAction :=
  queuedTwoTrips ++
    [ claimFirstLine 901 100,
      .resolve (firstLineClaim 1 901 .submit) { sampleAnswers with onSubmit := .failure "timeout" }
        110,
      claimFirstLine 902 200,
      .resolve (firstLineClaim 2 902 .query) sampleAnswers 210,
      claimFirstLine 903 300,
      .resolve (firstLineClaim 3 903 .submit) sampleAnswers 310 ]

end Payout
end Mobility
