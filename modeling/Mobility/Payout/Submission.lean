import Mobility.Payout.Batches

/-!
# Submission — claiming, calling the provider and resolving (`services/disbursements.py`)

* `finalPayoutAuthority`: the last gate before money can leave.
* `claimPayoutSubmissionIntent`: one committed transaction that fences the intent.
* `resolvePayoutSubmissionClaim`: the second transaction, after the provider call.
* `SubmitAnswer` / `LookupAnswer`: what `process_payout_submission_intent` makes
  of the provider's behaviour in between.

An intent is named by its line.  `func.now()` is the argument `now`, and
`uuid4()` the argument `token`.
-/

namespace Mobility
namespace Payout

open Lib

/-- The seeded identity that prepares and approves automatic batches. -/
def cardvertAutomaticPayoutActorId : Id := 0x6c0de000000040008000000000000001

/-- `DISBURSEMENT_CLAIM_LEASE`, two minutes in microseconds. -/
def disbursementClaimLease : Int := 120000000

inductive AutomaticBlocker
  | actorInvalid
  | paused
  deriving DecidableEq, Repr

structure ClaimedDisbursementIntent where
  batchId : Id
  lineId : Id
  generation : Nat
  claimToken : Id
  action : PayoutSubmissionClaimAction
  idempotencyKey : Digest
  instruction : Instruction
  instructionFingerprint : Digest
  deriving DecidableEq, Repr

structure DisbursementClaimObservation where
  outcome : PayoutSubmissionObservationOutcome
  providerSubmissionReference : Option Reference := none
  providerTransferReference : Option Reference := none
  errorCode : Option String := none
  deriving DecidableEq, Repr

namespace Store

/-- The batch and line of a submission intent, named by its line. -/
def lineOf? (s : Store) (lineId : Id) : Option (PayoutBatch × PayoutBatchLine) :=
  (s.batches.find? (fun b => b.lines.any (·.id = lineId))).bind fun b =>
    (b.lines.find? (·.id = lineId)).map fun l => (b, l)

end Store

/-- Rewrite one line of a batch. -/
def PayoutBatch.updateLine (batch : PayoutBatch) (lineId : Id)
    (f : PayoutBatchLine → PayoutBatchLine) : PayoutBatch :=
  { batch with lines := batch.lines.map (fun l => if l.id = lineId then f l else l) }

/-! ## The final gate -/

/-- One round of the consistency loop of `_final_payout_authority`: `true` when
the line is a candidate for submission, `false` when it is already decided. -/
def gateLine (providerName : String) (line : PayoutBatchLine) : Except AppError Bool :=
  if line.status ≠ .reserved then
    match line.intent with
    | some intent => do
        require (intent.state = .resolved)
          (intentConflict "A provider-final payout line has unresolved submission authority")
        return false
    | none => .ok false
  else
    let missing : AppError :=
      { code := "PAYOUT_SUBMISSION_INTENT_MISSING"
        message := "Every unresolved payout line requires one active durable intent" }
    match line.intent with
    | none => .error missing
    | some intent => do
        require (intent.state ≠ .resolved ∧ line.reservationActive
          ∧ line.providerTransferReference = none) missing
        require (intent.providerName = providerName ∧ IntentMatches line intent)
          (intentConflict "A durable payout intent no longer matches its frozen line")
        return true

/-- The loop over all batch lines, collecting the candidates. -/
def gateCandidates (providerName : String) :
    List PayoutBatchLine → Except AppError (List PayoutBatchLine)
  | [] => .ok []
  | line :: lines => do
      let candidate ← gateLine providerName line
      let candidates ← gateCandidates providerName lines
      return if candidate then line :: candidates else candidates

/-- The loop and the candidate-set check for the claimed line's intent. -/
def lineIntentGate (providerName : String) (batch : PayoutBatch) (currentLineId : Id) :
    Except AppError (List PayoutBatchLine) := do
  let candidates ← gateCandidates providerName batch.lines
  require (∃ l ∈ candidates, l.id = currentLineId)
    (intentConflict "The claimed payout intent is not in the complete unresolved batch set")
  return candidates

section Gate

variable [Hashing]

/-- The batch-level checks at the head of `_final_payout_authority`. -/
def gateBatch (batch : PayoutBatch) : Except AppError Unit := do
  require (batch.status = .reserved ∨ batch.status = .submitted ∨ batch.status = .reconciled)
    { code := "PAYOUT_BATCH_NOT_SUBMITTABLE"
      message := "The payout batch no longer has unresolved provider work" }
  if batch.approvalMode = .automatic then
    require (batch.createdByUserId = cardvertAutomaticPayoutActorId
        ∧ batch.approvedByUserId = none ∧ batch.approvedAt.isSome ∧ batch.automaticRunId.isSome)
      { code := "PAYOUT_BATCH_AUTOMATIC_AUTHORITY_INVALID"
        message := "The batch no longer has valid automatic approval" }
  else
    require (batch.approvedByUserId.isSome ∧ batch.approvedAt.isSome)
      { code := "PAYOUT_BATCH_APPROVAL_REQUIRED"
        message := "The batch no longer has valid admin approval" }
  assertFrozen batch

/-- A candidate still stands on its frozen, available ledger credit. -/
def LedgerAvailable (s : Store) (line : PayoutBatchLine) : Prop :=
  match s.entry? line.ledgerEntryId with
  | none => False
  | some entry =>
      entry.status = .available ∧ entry.entryType ≠ .reversal ∧ 0 < entry.amount
        ∧ 0 < line.amount ∧ line.amount ≤ entry.amount ∧ entry.currency = line.currency
        ∧ entry.tripSessionId.isSome

instance (s : Store) (line : PayoutBatchLine) : Decidable (LedgerAvailable s line) := by
  unfold LedgerAvailable
  split <;> infer_instance

/-- Trips of the candidates, each once. -/
def candidateTrips (s : Store) (candidates : List PayoutBatchLine) : List Id :=
  orderedKeys (candidates.filterMap
    (fun l => (s.entry? l.ledgerEntryId).bind (·.tripSessionId)))

/-- One round of the loop over the candidates' trips. -/
def gateTrip (auth : Authority) (s : Store) (currency : Currency) (tripId : Id) :
    Except AppError Unit := do
  let position := s.tripMoneyPosition tripId currency
  require (position.reserved + position.inFlight ≤ position.unpaidAuthority)
    { code := "PAYOUT_TRIP_AMOUNT_CHANGED"
      message := "A trip adjustment changed the payable amount; rebuild the unsent payout" }
  require (¬ auth.held tripId)
    { code := "PAYOUT_ENTRY_HELD"
      message := "An unresolved payout entry has an active fraud hold" }
  require (auth.assessmentCurrent tripId)
    { code := "PAYOUT_ASSESSMENT_NOT_CURRENT"
      message := "An unresolved payout entry lacks a current successful fraud assessment" }

/-- `_final_payout_authority`; `automaticClean` stands for
`automatic_final_clean_authority`, read only for automatic batches. -/
def finalPayoutAuthority (auth : Authority) (automaticClean : Except AppError Unit) (s : Store)
    (batch : PayoutBatch) (currentLineId : Id) (providerName : String) :
    Except AppError Unit := do
  gateBatch batch
  let candidates ← lineIntentGate providerName batch currentLineId
  require (∀ l ∈ candidates, LedgerAvailable s l)
    { code := "PAYOUT_LEDGER_NOT_AVAILABLE"
      message := "An unresolved payout line no longer has its frozen available ledger credit" }
  let _ ← checkedMap (gateTrip auth s batch.currency) (candidateTrips s candidates)
  if batch.approvalMode = .automatic then
    automaticClean
  else
    return ⟨⟩

/-! ## The claim -/

/-- The action a claim of this intent may take at `now`; `none` when the intent
is not due. -/
def claimAction? (intent : PayoutSubmissionIntent) (now : Int) :
    Option PayoutSubmissionClaimAction :=
  match intent.state with
  | .claimed =>
      match intent.claimExpiresAt with
      | some expires => if expires > now then none else some .query
      | none => some .query
  | .queryOnly => some .query
  | .pending => some .submit
  | .resolved => none
  | .cancelled => none

/-- The fenced intent and its durable attempt. -/
def claimWith (action : PayoutSubmissionClaimAction) (token : Id) (authorizedAt : Int)
    (intent : PayoutSubmissionIntent) : PayoutSubmissionIntent :=
  { intent with
    state := .claimed
    generation := intent.generation + 1
    claimToken := some token
    claimAction := some action
    claimExpiresAt := some (authorizedAt + disbursementClaimLease)
    attempts := intent.attempts ++
      [{ generation := intent.generation + 1
         claimToken := token
         action := action
         idempotencyKey := intent.idempotencyKey
         instructionFingerprint := intent.instructionFingerprint }] }

def PayoutBatchLine.mapIntent (line : PayoutBatchLine)
    (f : PayoutSubmissionIntent → PayoutSubmissionIntent) : PayoutBatchLine :=
  { line with intent := line.intent.map f }

/-- The users whose authority a new submission of this batch needs. -/
def requesterIds (batch : PayoutBatch) : List Id :=
  batch.lines.filterMap (fun l => l.intent.map (·.requestedByUserId))

def inactiveAuthority (auth : Authority) (batch : PayoutBatch) : Bool :=
  batch.approvalMode ≠ .automatic &&
    (requesterIds batch ++ [batch.createdByUserId] ++ batch.approvedByUserId.toList).any
      (fun u => !auth.activeAdmin u)

/-- The gate of one claim by its action: `false` means the payment waits unsent. -/
def claimGate (auth : Authority) (automaticClean : Except AppError Unit)
    (blocker : Option AutomaticBlocker) (s : Store) (batch : PayoutBatch)
    (line : PayoutBatchLine) (intent : PayoutSubmissionIntent) (providerName : String)
    (action : PayoutSubmissionClaimAction) : Except AppError Bool :=
  match action with
  | .submit => do
      require (¬ inactiveAuthority auth batch)
        { code := "FORBIDDEN_ROLE", message := "Admin role is required", statusCode := 403 }
      match (if batch.approvalMode = .automatic then blocker else none) with
      | some .actorInvalid =>
          throw
            { code := "PAYOUT_AUTOMATIC_ACTOR_INVALID"
              message := "The Cardvert automatic payout identity was changed; nothing is sent"
              statusCode := 503 }
      | some .paused => return false
      | none =>
          finalPayoutAuthority auth automaticClean s batch line.id providerName
          return true
  | .query => do
      assertFrozen batch
      require (IntentMatches line intent)
        (intentConflict "Provider lookup must use the frozen payout instruction")
      return true

def claimPayoutSubmissionIntent (auth : Authority) (automaticClean : Except AppError Unit)
    (blocker : Option AutomaticBlocker) (capabilities : DisbursementProviderCapabilities)
    (lineId token : Id) (now : Int) (s : Store) :
    Except AppError (Store × Option ClaimedDisbursementIntent) := do
  submissionCapabilities capabilities
  match s.lineOf? lineId with
  | none => return (s, none)
  | some (batch, line) =>
      match line.intent with
      | none => return (s, none)
      | some intent =>
          require (batch.approvalMode = .automatic →
              (∀ u ∈ requesterIds batch, u = cardvertAutomaticPayoutActorId)
                ∧ batch.createdByUserId = cardvertAutomaticPayoutActorId)
            { code := "PAYOUT_BATCH_AUTHORITY_CHANGED"
              message := "The automatic payout authority is not the Cardvert system actor" }
          if intent.state = .resolved ∨ line.status ≠ .reserved then
            return (s, none)
          else
            require (intent.providerName = capabilities.providerName)
              { code := "DISBURSEMENT_PROVIDER_CHANGED"
                message := "The configured provider does not own this durable submission intent"
                statusCode := 503 }
            match claimAction? intent now with
            | none => return (s, none)
            | some action =>
                let open? ← claimGate auth automaticClean blocker s batch line intent
                  capabilities.providerName action
                if open? then
                  return (s.updateBatch batch.id
                      (·.updateLine lineId (·.mapIntent (claimWith action token now))),
                    some
                      { batchId := batch.id
                        lineId := lineId
                        generation := intent.generation + 1
                        claimToken := token
                        action := action
                        idempotencyKey := intent.idempotencyKey
                        instruction := intent.instruction
                        instructionFingerprint := intent.instructionFingerprint })
                else
                  return (s, none)

/-! ## The provider call -/

/-- What the worker makes of the provider's answer to a submission: a complete
receipt, or anything else. -/
inductive SubmitAnswer
  | receipt (providerReference transferReference : Reference)
  | failure (errorCode : String)
  deriving DecidableEq, Repr

/-- What the worker makes of the provider's answer to a lookup. -/
inductive LookupAnswer
  | found (providerSubmissionReference providerTransferReference : Option Reference)
  | notFound
  | unknown
  | failure (errorCode : String)
  deriving DecidableEq, Repr

/-- The two provider answers of one `process_payout_submission_intent` call; the
claimed action decides which of them is asked for. -/
structure ProviderAnswers where
  onSubmit : SubmitAnswer
  onLookup : LookupAnswer
  deriving DecidableEq, Repr

/-- The observation `process_payout_submission_intent` builds for a claim. -/
def observe (claim : ClaimedDisbursementIntent) (answers : ProviderAnswers) :
    DisbursementClaimObservation :=
  match claim.action with
  | .submit =>
      match answers.onSubmit with
      | .receipt providerReference transferReference =>
          if providerReference = "" ∨ transferReference = "" then
            { outcome := .unknown, errorCode := some "valueerror" }
          else
            { outcome := .submitted
              providerSubmissionReference := some providerReference
              providerTransferReference := some transferReference }
      | .failure errorCode => { outcome := .unknown, errorCode := some errorCode }
  | .query =>
      match answers.onLookup with
      | .found submissionReference transferReference =>
          { outcome := .found
            providerSubmissionReference := submissionReference
            providerTransferReference := transferReference }
      | .notFound => { outcome := .notFound }
      | .unknown => { outcome := .unknown }
      | .failure errorCode => { outcome := .unknown, errorCode := some errorCode }

/-! ## The resolution -/

/-- The claim is the current one and its lease has not run out. -/
def ClaimCurrent (intent : PayoutSubmissionIntent) (claim : ClaimedDisbursementIntent)
    (now : Int) : Prop :=
  intent.state = .claimed ∧ intent.generation = claim.generation
    ∧ intent.claimToken = some claim.claimToken ∧ intent.claimAction = some claim.action
    ∧ ∃ expires ∈ intent.claimExpiresAt, now < expires

instance (intent : PayoutSubmissionIntent) (claim : ClaimedDisbursementIntent) (now : Int) :
    Decidable (ClaimCurrent intent claim now) :=
  inferInstanceAs (Decidable (_ ∧ _ ∧ _ ∧ _ ∧ _))

/-- The observation as it is finally recorded, and whether it resolves the intent. -/
def finalObservation (s : Store) (line : PayoutBatchLine)
    (observation : DisbursementClaimObservation) : DisbursementClaimObservation × Bool :=
  if observation.outcome = .submitted ∨ observation.outcome = .found then
    if observation.providerTransferReference.getD "" = ""
        ∨ observation.providerSubmissionReference.getD "" = "" then
      ({ outcome := .unknown, errorCode := some "provider_response_invalid" }, false)
    else if s.lines.any (fun l =>
        l.providerTransferReference = observation.providerTransferReference && l.id ≠ line.id) then
      ({ observation with errorCode := some "provider_transfer_reference_duplicate" }, false)
    else (observation, true)
  else (observation, false)

def observationRow (intent : PayoutSubmissionIntent) (claim : ClaimedDisbursementIntent)
    (final : DisbursementClaimObservation) (now : Int) : PayoutSubmissionObservation :=
  { attempt := claim.claimToken
    generation := intent.generation
    idempotencyKey := intent.idempotencyKey
    instructionFingerprint := intent.instructionFingerprint
    outcome := final.outcome
    providerSubmissionReference := final.providerSubmissionReference
    providerTransferReference := final.providerTransferReference
    evidenceFingerprint := fingerprint (.observation claim.lineId claim.generation claim.claimToken
      claim.idempotencyKey claim.instructionFingerprint final.outcome
      final.providerSubmissionReference final.providerTransferReference final.errorCode)
    errorCode := final.errorCode
    observedAt := now }

/-- The intent after its claim is resolved with a final observation. -/
def resolveIntent (claim : ClaimedDisbursementIntent) (final : DisbursementClaimObservation)
    (resolved : Bool) (now : Int) (intent : PayoutSubmissionIntent) :
    PayoutSubmissionIntent :=
  let released : PayoutSubmissionIntent :=
    { intent with
      claimToken := none
      claimAction := none
      claimExpiresAt := none
      observations := intent.observations ++ [observationRow intent claim final now] }
  if resolved then
    { released with
      state := .resolved
      providerSubmissionReference := final.providerSubmissionReference
      providerTransferReference := final.providerTransferReference
      resolvedAt := some now }
  else if final.outcome = .notFound then
    { released with state := .pending }
  else
    { released with state := .queryOnly }

/-- The batch after a claim on one of its lines is resolved. -/
def resolveBatch (claim : ClaimedDisbursementIntent) (final : DisbursementClaimObservation)
    (resolved : Bool) (now : Int) (batch : PayoutBatch) : PayoutBatch :=
  if resolved then
    let updated := batch.updateLine claim.lineId (fun l =>
      { l.mapIntent (resolveIntent claim final resolved now) with
        providerTransferReference := final.providerTransferReference
        status := .submitted })
    { updated with
      providerSubmissionReference :=
        batch.providerSubmissionReference.or final.providerSubmissionReference
      submittedAt := batch.submittedAt.or (some now)
      status := deriveBatchStatus updated.lines }
  else
    batch.updateLine claim.lineId (·.mapIntent (resolveIntent claim final resolved now))

def claimWithoutAttempt : AppError :=
  { code := "RuntimeError"
    message := "A committed disbursement claim has no durable attempt"
    statusCode := 500 }

/-- `_resolve_payout_submission_claim`; a stale claim changes nothing. -/
def resolvePayoutSubmissionClaim (claim : ClaimedDisbursementIntent)
    (observation : DisbursementClaimObservation) (now : Int) (s : Store) :
    Except AppError Store := do
  match s.lineOf? claim.lineId with
  | none => return s
  | some (batch, line) =>
      match line.intent with
      | none => return s
      | some intent =>
          if ¬ ClaimCurrent intent claim now then
            return s
          else
            require (∃ a ∈ intent.attempts,
                a.generation = claim.generation ∧ a.claimToken = claim.claimToken)
              claimWithoutAttempt
            let final := finalObservation s line observation
            return s.updateBatch batch.id (resolveBatch claim final.1 final.2 now)

end Gate

end Payout
end Mobility
