import Mathlib.Data.Prod.Lex
import Mobility.Billing.System
import Mobility.Lib.Newest
import Mobility.Payout.Frozen

/-!
# Budget — the total-budget pause and the two ways back (`billing/budget.py`,
`services/campaign_resume.py`)

Budget enforcement keeps its own log of transitions; pauses and resumptions by staff are
audit events.  Each resume service reads the owner of the current pause off these logs.
The desk is the books of one campaign.  Notices are left out, and so is the unique index
on `pause_transition_id`.
-/

namespace Mobility
namespace Billing

open Lib
open Payout (Currency Digest)
open Trips (uniqueViolation)

/-! ## The logs -/

inductive BudgetCampaignTransitionAction
  | pause
  | resume
  deriving DecidableEq, Repr

/-- Transitions before the rename carry the status `scheduled`. -/
inductive TransitionStatus
  | approved
  | scheduled
  | active
  | paused
  deriving DecidableEq, Repr

/-- The live status; the old name of `approved` is translated. -/
def TransitionStatus.live : TransitionStatus → CampaignStatus
  | .approved | .scheduled => .approved
  | .active => .active
  | .paused => .paused

structure BudgetCampaignTransition where
  id : Id
  pauseTransitionId : Option Id := none
  budgetAmount : Int
  fundingFingerprint : Digest
  action : BudgetCampaignTransitionAction
  priorStatus : TransitionStatus
  newStatus : TransitionStatus
  actorUserId : Option Id := none
  reason : String
  createdAt : Int
  deriving DecidableEq, Repr

inductive StaffEventAction
  | paused
  | resumed
  deriving DecidableEq, Repr

/-- An `admin.campaign.paused` or `admin.campaign.resumed` event of the campaign with the
metadata that is read; `pauseVersion` is the parsed instant. -/
structure StaffEvent where
  id : Id
  actorUserId : Id
  actorIsAdmin : Bool := true
  action : StaffEventAction
  createdAt : Int
  pauseVersion : Option Int := none
  pauseReasonKind : Option String := none
  reason : Option String := none
  pauseId : Option Id := none
  statusAfter : Option CampaignStatus := none
  deriving DecidableEq, Repr

structure BudgetDesk where
  campaignId : Id
  store : Store := {}
  /-- `updated_at` of the campaign row. -/
  updatedAt : Int := 0
  transitions : List BudgetCampaignTransition := []
  staffEvents : List StaffEvent := []

/-- `ORDER BY created_at DESC, id DESC LIMIT 1`. -/
def latestBy {α : Type} (key : α → Int ×ₗ Id) (rows : List α) : Option α :=
  (rows.insertionSort (fun a b => key b ≤ key a)).head?

def BudgetCampaignTransition.key (row : BudgetCampaignTransition) : Int ×ₗ Id :=
  toLex (row.createdAt, row.id)

def StaffEvent.key (event : StaffEvent) : Int ×ₗ Id :=
  toLex (event.createdAt, event.id)

def BudgetDesk.latestTransition (d : BudgetDesk) : Option BudgetCampaignTransition :=
  latestBy (·.key) d.transitions

/-! ## The budget check -/

inductive SpendSource
  | confirmedFunding
  | productionObligation
  deriving DecidableEq, Repr

/-- `_campaign_billing_spend`. -/
def campaignBillingSpend (s : Store) (campaignId : Id) : Except AppError (Int × SpendSource) :=
  match s.commercialTermsForCampaign campaignId with
  | none => .ok (0, .confirmedFunding)
  | some terms =>
      match s.productionStart? campaignId with
      | some _ => do
          let obligation ← effectiveInvoiceObligation s terms.id
          return (obligation, .productionObligation)
      | none => .ok (activeCash s terms.id, .confirmedFunding)

/-- What `_funding_fingerprint` hashes. -/
structure FundingFacts where
  source : SpendSource
  totalSpend : Int
  termsId : Option Id
  allocations : List (Id × Id × Int)
  deriving DecidableEq, Repr

def fundingFacts (s : Store) (campaignId : Id) (totalSpend : Int) (source : SpendSource) :
    FundingFacts :=
  let terms := s.commercialTermsForCampaign campaignId
  { source := source
    totalSpend := totalSpend
    termsId := terms.map (·.id)
    allocations :=
      match terms, source with
      | some terms, .confirmedFunding =>
          (activeCashAllocations s terms.id).map (fun row => (row.id, row.receiptId, row.amount))
      | _, _ => [] }

/-- The hash of the facts; nothing is assumed of it. -/
class FundingHashing where
  sha256 : FundingFacts → Digest

inductive BudgetState
  | withinBudget
  | alertThreshold
  | urgentThreshold
  | pauseThreshold
  deriving DecidableEq, Repr

/-- `budget_state`, in hundredths of the thresholds' percentages. -/
def budgetState (booked budget : Int) (agreed : Option Int) : BudgetState :=
  if agreed.any (booked ≤ ·) then .withinBudget
  else if budget < booked then .pauseThreshold
  else if budget * 95 ≤ booked * 100 then .urgentThreshold
  else if budget * 80 ≤ booked * 100 then .alertThreshold
  else .withinBudget

structure BudgetCheck where
  state : BudgetState
  campaignBudgetAmount : Int
  billingSpendAmount : Int
  resumeAllowed : Bool
  facts : FundingFacts
  evaluatedAt : Int
  pauseApplied : Bool := false
  deriving DecidableEq, Repr

def BudgetCheck.fundingFingerprint [FundingHashing] (check : BudgetCheck) : Digest :=
  FundingHashing.sha256 check.facts

/-- `campaign_budget_check`. -/
def campaignBudgetCheck (s : Store) (campaign : Campaign) (now : Int) :
    Except AppError (Option BudgetCheck) :=
  match campaign.budgetAmount with
  | none => .ok none
  | some budget =>
      if budget ≤ 0 then .ok none
      else do
        let (booked, source) ← campaignBillingSpend s campaign.id
        return some {
          state := budgetState booked budget
            ((s.commercialTermsForCampaign campaign.id).map (·.grossAmount))
          campaignBudgetAmount := budget
          billingSpendAmount := booked
          resumeAllowed := booked ≤ budget
          facts := fundingFacts s campaign.id booked source
          evaluatedAt := now }

/-! ## Enforcement and the budget's way back -/

def BudgetDesk.setStatus (d : BudgetDesk) (status : CampaignStatus) (now : Int) : BudgetDesk :=
  { d with
    updatedAt := now
    store := { d.store with campaigns := d.store.campaigns.map (fun row =>
      if row.id = d.campaignId then { row with status := status } else row) } }

/-- The status that enforcement pauses from. -/
def pausable : CampaignStatus → Option TransitionStatus
  | .approved => some .approved
  | .active => some .active
  | _ => none

/-- The transition's id is new (`uuid4`). -/
def requireNewTransition (d : BudgetDesk) (transitionId : Id) : Except AppError Unit :=
  require (∀ row ∈ d.transitions, row.id ≠ transitionId)
    (uniqueViolation "budget_campaign_transitions_pkey")

/-- `enforce_campaign_budget`. -/
def enforceCampaignBudget [FundingHashing] (transitionId : Id) (now : Int) (d : BudgetDesk) :
    Except AppError (BudgetDesk × Option BudgetCheck) := do
  let campaign ← demand (d.store.campaign? d.campaignId) campaignNotFound
  let check ← campaignBudgetCheck d.store campaign now
  match check with
  | none => return (d, none)
  | some check =>
      match check.state, pausable campaign.status with
      | .pauseThreshold, some prior => do
          requireNewTransition d transitionId
          let transition : BudgetCampaignTransition := {
            id := transitionId
            action := .pause
            priorStatus := prior
            newStatus := .paused
            reason := "Booked charges exceed the total budget and accepted price"
            budgetAmount := check.campaignBudgetAmount
            fundingFingerprint := check.fundingFingerprint
            createdAt := check.evaluatedAt }
          return ({ d.setStatus .paused now with transitions := d.transitions ++ [transition] },
            some { check with pauseApplied := true })
      | _, _ => return (d, some check)

def budgetPauseAuthorityMissing : AppError :=
  { code := "BUDGET_PAUSE_AUTHORITY_MISSING"
    message := "Campaign pause is not owned by budget enforcement" }

def budgetResumeAlreadyRecorded : AppError :=
  { code := "BUDGET_RESUME_ALREADY_RECORDED"
    message := "This campaign already has resume authority" }

def campaignNotBudgetPaused : AppError :=
  { code := "CAMPAIGN_NOT_BUDGET_PAUSED", message := "Campaign is not paused" }

def budgetResumeNotAuthorized : AppError :=
  { code := "BUDGET_RESUME_NOT_AUTHORIZED"
    message := "Confirm the budget increase or payment before restarting this campaign" }

/-- The pause-ownership check of the budget's way back. -/
def ownedBudgetPause (d : BudgetDesk) : Except AppError BudgetCampaignTransition := do
  let latest ← demand d.latestTransition budgetPauseAuthorityMissing
  require (latest.action = .pause) budgetPauseAuthorityMissing
  return latest

/-- A repeated request for a resumption that is current. -/
def repeatedBudgetResume (d : BudgetDesk) (campaign : Campaign) (actorUserId : Id)
    (reason : String) : Except AppError BudgetCampaignTransition := do
  let latest ← demand d.latestTransition campaignNotBudgetPaused
  require (latest.action = .resume ∧ latest.newStatus.live = campaign.status)
    campaignNotBudgetPaused
  require (latest.actorUserId = some actorUserId ∧ latest.reason = reason)
    budgetResumeAlreadyRecorded
  return latest

/-- The check allows a resumption and differs from the facts of the pause. -/
def ResumeAuthorized [FundingHashing] (pause : BudgetCampaignTransition) (check : BudgetCheck) :
    Prop :=
  check.resumeAllowed = true
    ∧ ¬ (pause.budgetAmount = check.campaignBudgetAmount
      ∧ pause.fundingFingerprint = check.fundingFingerprint)

instance [FundingHashing] (pause : BudgetCampaignTransition) (check : BudgetCheck) :
    Decidable (ResumeAuthorized pause check) :=
  inferInstanceAs (Decidable (_ ∧ ¬ (_ ∧ _)))

/-- The status a pause is resumed to. -/
def resumedStatus (pause : BudgetCampaignTransition) : TransitionStatus :=
  if pause.priorStatus = .scheduled then .approved else pause.priorStatus

/-- `resume_campaign_after_budget_pause`. -/
def resumeCampaignAfterBudgetPause [FundingHashing] (authorized : Except AppError Unit)
    (transitionId actorUserId : Id) (reason : String) (now : Int) (d : BudgetDesk) :
    Except AppError (BudgetDesk × BudgetCampaignTransition) := do
  authorized
  let reason := String.ofList (Payout.strip reason.toList)
  require (reason ≠ "")
    { code := "BUDGET_RESUME_REASON_REQUIRED"
      message := "A budget-resume reason is required"
      statusCode := 400 }
  let campaign ← demand (d.store.campaign? d.campaignId) campaignNotFound
  if campaign.status ≠ .paused then do
    let latest ← repeatedBudgetResume d campaign actorUserId reason
    return (d, latest)
  else do
    let latest ← ownedBudgetPause d
    ensureCampaignNotFinished campaign now "restarted"
    let check ← campaignBudgetCheck d.store campaign now
    let check ← demand check budgetResumeNotAuthorized
    require (ResumeAuthorized latest check) budgetResumeNotAuthorized
    requireNewTransition d transitionId
    let transition : BudgetCampaignTransition := {
      id := transitionId
      pauseTransitionId := some latest.id
      action := .resume
      priorStatus := .paused
      newStatus := resumedStatus latest
      actorUserId := some actorUserId
      reason := reason
      budgetAmount := check.campaignBudgetAmount
      fundingFingerprint := check.fundingFingerprint
      -- a resumption is later than its pause, whatever the clock says
      createdAt := max check.evaluatedAt (latest.createdAt + 1) }
    return ({ d.setStatus transition.newStatus.live now with
      transitions := d.transitions ++ [transition] }, transition)

/-! ## The staff's way back -/

inductive PauseKind
  | unknown
  | budget
  | operational
  deriving DecidableEq, Repr

structure PauseInfo where
  kind : PauseKind := .unknown
  reason : String := "The reason for this pause was not recorded."
  pauseId : Option Id := none
  resumeAllowed : Bool := false
  resumeExplanation : String := "Staff cannot resume until the pause reason is recorded."
  deriving DecidableEq, Repr

def StaffEvent.nonblankReason (event : StaffEvent) : Option String :=
  event.reason.filter (fun reason => Payout.strip reason.toList ≠ [])

/-- The latest pause or resumption by an administrator. -/
def BudgetDesk.latestStaffEvent (d : BudgetDesk) : Option StaffEvent :=
  latestBy (·.key) (d.staffEvents.filter (·.actorIsAdmin))

/-- The budget log has the last word, at equal times too. -/
def budgetIsLatest (budget : BudgetCampaignTransition) (audit : Option StaffEvent) : Bool :=
  audit.all (·.createdAt ≤ budget.createdAt)

/-- The reason names the budget; `casefold` is `str.casefold`. -/
def mentionsBudget (casefold : String → String) (reason : String) : Bool :=
  ["budget", "funding", "insufficient funds"].any (fun word =>
    decide (word.toList <:+: (casefold reason).toList))

/-- The part of `pause_info` that reads a staff event. -/
def staffPauseInfo (casefold : String → String) (updatedAt : Int) (event : StaffEvent) :
    PauseInfo :=
  if event.action ≠ .paused then {}
  else if event.pauseVersion ≠ some updatedAt ∨ event.statusAfter ≠ some .paused then {}
  else if event.pauseReasonKind = some "budget" then
    { kind := .budget
      reason := event.nonblankReason.getD "Paused for budget."
      resumeExplanation := "Use the Finance budget check to resume this campaign." }
  else
    match event.nonblankReason with
    | none => {}
    | some reason =>
        if event.pauseReasonKind ≠ some "operational" then {}
        else if mentionsBudget casefold reason then
          { kind := .budget
            reason := reason
            resumeExplanation := "Budget-related pause. Use the Finance budget check." }
        else
          { kind := .operational
            reason := reason
            pauseId := some event.id
            resumeAllowed := true
            resumeExplanation := "Staff can resume after Cardvert checks the start requirements." }

/-- `pause_info`. -/
def pauseInfo (casefold : String → String) (d : BudgetDesk) (campaign : Campaign) : PauseInfo :=
  if campaign.status ≠ .paused then {}
  else
    match d.latestTransition.filter (budgetIsLatest · d.latestStaffEvent) with
    | some budget =>
        if budget.action = .pause then
          { kind := .budget
            reason := budget.reason
            pauseId := some budget.id
            resumeExplanation := "Finance can resume after the budget check permits it." }
        else {}
    | none =>
        match d.latestStaffEvent with
        | none => {}
        | some event => staffPauseInfo casefold d.updatedAt event

/-- `_require_operational_pause`: the pause-ownership check of the staff's way back. -/
def requireOperationalPause (casefold : String → String) (d : BudgetDesk) (campaign : Campaign)
    (pauseId : Id) : Except AppError Unit := do
  let pause := pauseInfo casefold d campaign
  require (pause.kind ≠ .budget)
    { code := "BUDGET_PAUSE_REQUIRES_FINANCE"
      message := "This pause is budget-related. Finance must use the budget check to resume it." }
  require (pause.kind = .operational)
    { code := "PAUSE_REASON_UNKNOWN"
      message := "The pause reason is not recorded, so staff cannot resume this campaign." }
  require (pause.pauseId = some pauseId)
    { code := "CAMPAIGN_PAUSE_CHANGED"
      message := "The pause has changed. Refresh the page before resuming." }

/-- `_exact_resume_retry`: the latest event, whoever wrote it. -/
def exactResumeRetry (d : BudgetDesk) (campaign : Campaign) (actorUserId pauseId : Id)
    (reason : String) : Except AppError Unit :=
  require ((latestBy (·.key) d.staffEvents).any (fun previous =>
    previous.action = .resumed ∧ previous.actorUserId = actorUserId
      ∧ previous.pauseId = some pauseId ∧ previous.reason = some reason
      ∧ previous.statusAfter = some campaign.status) = true)
    { code := "CAMPAIGN_NOT_PAUSED"
      message := "This campaign is no longer paused. Refresh the page." }

/-- `resume_campaign`; `requirements` is what the checks of the start requirements and of
the active jobs answer. -/
def resumeCampaign (casefold : String → String) (authorized requirements : Except AppError Unit)
    (eventId actorUserId pauseId : Id) (reason : String) (now : Int) (d : BudgetDesk) :
    Except AppError BudgetDesk := do
  authorized
  let reason := String.ofList (Payout.strip reason.toList)
  require (reason ≠ "" ∧ reason.length ≤ 1000)
    { code := "RESUME_REASON_REQUIRED"
      message := "Give a reason for resuming this campaign."
      statusCode := 400 }
  let campaign ← demand (d.store.campaign? d.campaignId)
    { code := "CAMPAIGN_NOT_FOUND", message := "Campaign not found.", statusCode := 404 }
  if campaign.status ≠ .paused then do
    exactResumeRetry d campaign actorUserId pauseId reason
    return d
  else do
    requireOperationalPause casefold d campaign pauseId
    requirements
    let resumed : CampaignStatus := if campaign.startAt.any (now < ·) then .approved else .active
    return { d.setStatus resumed now with
      staffEvents := d.staffEvents ++
        [{ id := eventId
           actorUserId := actorUserId
           action := .resumed
           createdAt := now
           pauseReasonKind := some "operational"
           reason := some reason
           pauseId := some pauseId
           statusAfter := some resumed }] }

end Billing
end Mobility
