import Mobility.Basic
import Mobility.Lib.Machine

/-!
# Delivery — one transactional email and its workers (`services/email_delivery.py`)

`process_email_notification` claims the notification in one transaction, calls the
provider outside any transaction, and records the outcome in another.  Every run draws a
token of its own, so runs are named by their tokens.  A crashed run takes no further step.
-/

namespace Mobility
namespace Email

open Lib

abbrev Token := Id

inductive NotificationChannel
  | inApp
  | transactionalEmail
  deriving DecidableEq, Repr

inductive NotificationStatus
  | pending
  | sent
  | failed
  deriving DecidableEq, Repr

structure Notification where
  id : Id
  channel : NotificationChannel
  status : NotificationStatus := .pending
  attemptCount : Nat := 0
  providerMessageId : Option String := none
  nextAttemptAt : Option Int := none
  deliveryClaimToken : Option Token := none
  deliveryClaimExpiresAt : Option Int := none
  lastErrorCode : Option String := none
  failedAt : Option Int := none
  sentAt : Option Int := none
  deriving DecidableEq, Repr

/-- Durations are whole microseconds. -/
structure Settings where
  emailDeliveryMaxAttempts : Nat := 5
  emailDeliveryRetryBase : Nat := 60 * 1000000
  emailDeliveryClaim : Nat := 120 * 1000000
  deriving DecidableEq, Repr

/-- The rendered copy, built from the event outside the claim. -/
structure RenderedEmail where
  subject : String
  textBody : String
  htmlBody : String
  deriving DecidableEq, Repr

structure EmailMessage where
  recipient : String
  subject : String
  textBody : String
  htmlBody : String
  idempotencyKey : Id
  deriving DecidableEq, Repr

structure EmailSendError where
  code : String
  retryable : Bool
  deriving DecidableEq, Repr

/-! ## The two transactions -/

/-- What `_preference_allows_delivery` answers: the recipient, or the refusal's code. -/
abbrev Preference := Except String String

/-- Not a pending email, or not due, or claimed and the lease runs. -/
def Notification.Unclaimable (notice : Notification) (now : Int) : Prop :=
  notice.channel ≠ .transactionalEmail ∨ notice.status ≠ .pending
    ∨ notice.nextAttemptAt.any (now < ·) = true
    ∨ notice.deliveryClaimExpiresAt.any (now < ·) = true

instance (notice : Notification) (now : Int) : Decidable (notice.Unclaimable now) :=
  inferInstanceAs (Decidable (_ ∨ _ ∨ _ ∨ _))

/-- `_claim`: the row after the transaction, and the recipient when it was claimed. -/
def claim (settings : Settings) (token : Token) (now : Int) (preference : Preference)
    (notice : Notification) : Notification × Option String :=
  if notice.Unclaimable now then (notice, none)
  else if settings.emailDeliveryMaxAttempts ≤ notice.attemptCount then
    ({ notice with
        status := .failed
        failedAt := some now
        lastErrorCode := some "email_attempts_exhausted"
        nextAttemptAt := none
        deliveryClaimToken := none
        deliveryClaimExpiresAt := none }, none)
  else
    match preference with
    | .error code =>
        ({ notice with
            status := .failed
            failedAt := some now
            lastErrorCode := some code
            deliveryClaimToken := none
            deliveryClaimExpiresAt := none }, none)
    | .ok recipient =>
        ({ notice with
            attemptCount := notice.attemptCount + 1
            deliveryClaimToken := some token
            deliveryClaimExpiresAt := some (now + settings.emailDeliveryClaim)
            lastErrorCode := none }, some recipient)

/-- `60 * 2 ** (attempt_count - 1)` seconds after the run's clock. -/
def retryAt (settings : Settings) (now : Int) (attemptCount : Nat) : Int :=
  now + settings.emailDeliveryRetryBase * 2 ^ (attemptCount - 1)

/-- What a run's send came to: the provider's message id, or the failure. -/
abbrev Submission := Except EmailSendError String

/-- The second transaction of a run whose token is still the row's. -/
def recordOutcome (settings : Settings) (now : Int) (submission : Submission)
    (notice : Notification) : Notification :=
  let released := { notice with deliveryClaimToken := none, deliveryClaimExpiresAt := none }
  match submission with
  | .ok providerMessageId =>
      { released with
        status := .sent
        providerMessageId := some providerMessageId
        sentAt := some now
        nextAttemptAt := none
        lastErrorCode := none }
  | .error failure =>
      if failure.retryable ∧ notice.attemptCount < settings.emailDeliveryMaxAttempts then
        { released with
          lastErrorCode := some failure.code
          nextAttemptAt := some (retryAt settings now notice.attemptCount) }
      else
        { released with
          lastErrorCode := some failure.code
          status := .failed
          failedAt := some now
          nextAttemptAt := none }

/-! ## Runs of the worker -/

inductive Phase
  | claimed (recipient : String)
  | sending (message : EmailMessage)
  | answered (submission : Submission)
  | over
  deriving DecidableEq, Repr

/-- A run that claimed the notification, at its clock. -/
structure Run where
  token : Token
  now : Int
  phase : Phase
  deriving DecidableEq, Repr

/-- When the run's claim expires. -/
def Run.leaseEnd (settings : Settings) (run : Run) : Int :=
  run.now + settings.emailDeliveryClaim

/-- The provider works on the run's call: it was started and has not answered. -/
def Run.Sending (run : Run) : Prop :=
  ∃ message, run.phase = .sending message

/-- The notification, the runs that claimed it, in the order of their claims, the provider
calls, and the outcomes that were written. -/
structure Delivery where
  notice : Notification
  runs : List Run := []
  calls : List (Token × EmailMessage) := []
  outcomes : List (Token × Submission) := []
  deriving DecidableEq, Repr

inductive Action
  | claim (token : Token) (now : Int) (preference : Preference)
  | render (token : Token) (rendered : Except String RenderedEmail)
  | answer (token : Token) (submission : Submission)
  | record (token : Token)
  deriving DecidableEq, Repr

def Delivery.run? (d : Delivery) (token : Token) : Option Run :=
  d.runs.find? (·.token = token)

def Delivery.setPhase (d : Delivery) (token : Token) (phase : Phase) : Delivery :=
  { d with runs := d.runs.map (fun run =>
      if run.token = token then { run with phase := phase } else run) }

def messageFor (notice : Notification) (recipient : String) (rendered : RenderedEmail) :
    EmailMessage :=
  { recipient := recipient
    subject := rendered.subject
    textBody := rendered.textBody
    htmlBody := rendered.htmlBody
    idempotencyKey := notice.id }

/-- The run whose turn it is, in the phase that the step needs. -/
def demandRun (d : Delivery) (token : Token) : Except Unit Run :=
  demand (d.run? token) ⟨⟩

def step (settings : Settings) (d : Delivery) : Action → Except Unit Delivery
  | .claim token now preference => do
      -- a run claims once, with a token of its own
      require (∀ run ∈ d.runs, run.token ≠ token) ⟨⟩
      match claim settings token now preference d.notice with
      | (notice, none) => return { d with notice := notice }
      | (notice, some recipient) =>
          return { d with
            notice := notice
            runs := d.runs ++ [{ token := token, now := now, phase := .claimed recipient }] }
  | .render token rendered => do
      let run ← demandRun d token
      match run.phase, rendered with
      | .claimed _, .error code =>
          -- a ValueError before the send is a failure that is not retried
          return d.setPhase token (.answered (.error { code := code, retryable := false }))
      | .claimed recipient, .ok rendered =>
          let message := messageFor d.notice recipient rendered
          return { d.setPhase token (.sending message) with calls := d.calls ++ [(token, message)] }
      | _, _ => .error ⟨⟩
  | .answer token submission => do
      let run ← demandRun d token
      match run.phase with
      | .sending _ => return d.setPhase token (.answered submission)
      | _ => .error ⟨⟩
  | .record token => do
      let run ← demandRun d token
      match run.phase with
      | .answered submission =>
          -- a claim that was overtaken is stale and writes nothing
          if d.notice.deliveryClaimToken = some token then
            return { d.setPhase token .over with
              notice := recordOutcome settings run.now submission d.notice
              outcomes := d.outcomes ++ [(token, submission)] }
          else return d.setPhase token .over
      | _ => .error ⟨⟩

/-- All interleavings of runs on one new notification. -/
def deliveries (settings : Settings) (id : Id) (channel : NotificationChannel) :
    Machine Delivery Action Unit :=
  { init := { notice := { id := id, channel := channel } }, step := step settings }

end Email
end Mobility
