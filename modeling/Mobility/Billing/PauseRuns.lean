import Mobility.Billing.Pauses
import Mobility.Billing.Refunds

/-!
# PauseRuns — the budget's pauses and resumptions over whole runs

A resumption is later than the pause it answers, so that pause is never the latest row
again.  What a pause was based on is kept beside the run, to be compared with what its
resumption is based on.
-/

namespace Mobility
namespace Billing

open Lib

/-! ## Enforcement, budget resumptions and bookings -/

/-- What was true when enforcement wrote a pause (a history variable). -/
structure PauseRecord where
  transitionId : Id
  status : CampaignStatus
  budgetAmount : Int
  facts : FundingFacts
  deriving DecidableEq, Repr

structure BudgetRun where
  desk : BudgetDesk
  pauses : List PauseRecord := []

/-- Bookings and budget edits are the transactions of billing. -/
inductive BudgetAction
  | enforce (transitionId : Id) (now : Int)
  | resume (authorized : Except AppError Unit) (transitionId actorUserId : Id) (reason : String)
      (now : Int)
  | book (action : BillingAction) (now : Int)

/-- The record of a pause that enforcement wrote on this desk. -/
def pauseRecord (d : BudgetDesk) (transitionId : Id) (check : BudgetCheck) : Option PauseRecord :=
  if check.pauseApplied then
    (d.store.campaign? d.campaignId).map (fun campaign =>
      { transitionId := transitionId
        status := campaign.status
        budgetAmount := check.campaignBudgetAmount
        facts := check.facts })
  else none

def budgetStep [Hashing] [FundingHashing] (r : BudgetRun) : BudgetAction → Except AppError BudgetRun
  | .enforce transitionId now => do
      let (desk, check) ← enforceCampaignBudget transitionId now r.desk
      return { desk := desk
               pauses := r.pauses ++ (check.bind (pauseRecord r.desk transitionId)).toList }
  | .resume authorized transitionId actorUserId reason now => do
      let (desk, _) ← resumeCampaignAfterBudgetPause authorized transitionId actorUserId reason now
        r.desk
      return { r with desk := desk }
  | .book action now => do
      let store ← billingStep r.desk.store action
      return { r with desk := { r.desk with store := store, updatedAt := now } }

/-- The budget desk of a campaign, from an empty database. -/
def budgetDesk [Hashing] [FundingHashing] (campaignId : Id) :
    Machine BudgetRun BudgetAction AppError :=
  { init := { desk := { campaignId := campaignId } }, step := budgetStep }

/-- What enforcement reads of the store. -/
def budgetFacts (d : BudgetDesk) :
    Option Campaign × Except AppError (Int × SpendSource) × Option Int :=
  (d.store.campaign? d.campaignId, campaignBillingSpend d.store d.campaignId,
    (d.store.commercialTermsForCampaign d.campaignId).map (·.grossAmount))

/-! ## What the two budget services write -/

theorem lookup_id {d : BudgetDesk} {campaign : Campaign}
    (h : d.store.campaign? d.campaignId = some campaign) : campaign.id = d.campaignId :=
  (mem_of_lookup h).2

theorem pausable_eq_some {status : CampaignStatus} {prior : TransitionStatus}
    (h : pausable status = some prior) : prior.live = status ∧ prior ≠ .scheduled := by
  cases status with
  | approved => cases h; exact ⟨rfl, nofun⟩
  | active => cases h; exact ⟨rfl, nofun⟩
  | _ => cases h

section Writes

variable [FundingHashing] {d d' : BudgetDesk} {campaign : Campaign}

omit [FundingHashing] in
theorem setStatus_campaign (d : BudgetDesk) (status : CampaignStatus) (now : Int)
    (h : d.store.campaign? d.campaignId = some campaign) :
    (d.setStatus status now).store.campaign? d.campaignId
      = some { campaign with status := status } := by
  have hid : campaign.id = d.campaignId := (mem_of_lookup h).2
  have hkey : (fun row : Campaign => decide ((if row.id = d.campaignId then
      { row with status := status } else row).id = d.campaignId))
        = fun row => decide (row.id = d.campaignId) := by
    funext row
    split_ifs <;> rfl
  simp only [BudgetDesk.setStatus, Store.campaign?, List.find?_map, Function.comp_def, hkey]
  rw [Store.campaign?] at h
  rw [h, Option.map_some, if_pos hid]

omit [FundingHashing] in
/-- What a check that was made says. -/
theorem campaignBudgetCheck_eq_some {s : Store} {now : Int} {check : BudgetCheck}
    (h : campaignBudgetCheck s campaign now = .ok (some check)) :
    ∃ budget booked source, campaign.budgetAmount = some budget
      ∧ campaignBillingSpend s campaign.id = .ok (booked, source)
      ∧ check = {
          state := budgetState booked budget
            ((s.commercialTermsForCampaign campaign.id).map (·.grossAmount))
          campaignBudgetAmount := budget
          billingSpendAmount := booked
          resumeAllowed := booked ≤ budget
          facts := fundingFacts s campaign.id booked source
          evaluatedAt := now } := by
  unfold campaignBudgetCheck at h
  cases hbudget : campaign.budgetAmount with
  | none => simp [hbudget] at h
  | some budget =>
      simp only [hbudget] at h
      rcases ite_eq_ok.mp h with ⟨_, h⟩ | ⟨_, h⟩
      · cases h
      · rcases bind_eq_ok.mp h with ⟨⟨booked, source⟩, hspend, h⟩
        have hcheck := Option.some.inj (pure_eq_ok.mp h)
        exact ⟨budget, booked, source, rfl, hspend, hcheck.symm⟩

/-- The row a budget pause writes. -/
def pauseRow (transitionId : Id) (prior : TransitionStatus) (check : BudgetCheck) :
    BudgetCampaignTransition :=
  { id := transitionId
    action := .pause
    priorStatus := prior
    newStatus := .paused
    reason := "Booked charges exceed the total budget and accepted price"
    budgetAmount := check.campaignBudgetAmount
    fundingFingerprint := check.fundingFingerprint
    createdAt := check.evaluatedAt }

/-- Enforcement writes nothing, or one pause. -/
theorem enforceCampaignBudget_cases {transitionId : Id} {now : Int} {result : Option BudgetCheck}
    (h : enforceCampaignBudget transitionId now d = .ok (d', result)) :
    (d' = d ∧ result.all (¬ ·.pauseApplied) = true)
      ∨ ∃ campaign check prior, d.store.campaign? d.campaignId = some campaign
          ∧ campaignBudgetCheck d.store campaign now = .ok (some check)
          ∧ check.state = .pauseThreshold ∧ pausable campaign.status = some prior
          ∧ (∀ row ∈ d.transitions, row.id ≠ transitionId)
          ∧ result = some { check with pauseApplied := true }
          ∧ d' = { d.setStatus .paused now with
              transitions := d.transitions ++ [pauseRow transitionId prior check] } := by
  rcases bind_eq_ok.mp h with ⟨campaign, hcampaign, h⟩
  rcases bind_eq_ok.mp h with ⟨result', hcheck, h⟩
  cases result' with
  | none =>
      cases h
      exact .inl ⟨rfl, rfl⟩
  | some check =>
      have hnotYet : check.pauseApplied = false := by
        rcases campaignBudgetCheck_eq_some hcheck with ⟨_, _, _, _, _, rfl⟩
        rfl
      dsimp only at h
      split at h
      · rename_i prior hstate hprior
        rcases bind_eq_ok.mp h with ⟨_, hnew, h⟩
        cases h
        exact .inr ⟨campaign, check, prior, demand_eq_ok.mp hcampaign, hcheck, hstate, hprior,
          require_eq_ok.mp hnew, rfl, rfl⟩
      · cases h
        exact .inl ⟨rfl, by simp [hnotYet]⟩

/-- A budget resumption writes nothing, or one row for the pause that ends the log. -/
theorem resumeAfterBudgetPause_cases {authorized : Except AppError Unit}
    {transitionId actorUserId : Id} {reason : String} {now : Int}
    {row : BudgetCampaignTransition}
    (h : resumeCampaignAfterBudgetPause authorized transitionId actorUserId reason now d
      = .ok (d', row)) :
    d' = d ∨ ∃ campaign pause check, d.store.campaign? d.campaignId = some campaign
      ∧ ownedBudgetPause d = .ok pause
      ∧ campaignBudgetCheck d.store campaign now = .ok (some check)
      ∧ ResumeAuthorized pause check ∧ (∀ row ∈ d.transitions, row.id ≠ transitionId)
      ∧ row.id = transitionId ∧ row.action = .resume ∧ row.pauseTransitionId = some pause.id
      ∧ row.newStatus = resumedStatus pause ∧ pause.createdAt < row.createdAt
      ∧ d' = { d.setStatus (resumedStatus pause).live now with
          transitions := d.transitions ++ [row] } := by
  rcases bind_eq_ok.mp h with ⟨_, _, h⟩
  rcases bind_eq_ok.mp h with ⟨_, _, h⟩
  rcases bind_eq_ok.mp h with ⟨campaign, hcampaign, h⟩
  rcases ite_eq_ok.mp h with ⟨_, h⟩ | ⟨_, h⟩
  · rcases bind_eq_ok.mp h with ⟨_, _, h⟩
    cases h
    exact .inl rfl
  · rcases bind_eq_ok.mp h with ⟨pause, howned, h⟩
    rcases bind_eq_ok.mp h with ⟨_, _, h⟩
    rcases bind_eq_ok.mp h with ⟨made, hmade, h⟩
    rcases bind_eq_ok.mp h with ⟨check, hcheck, h⟩
    rcases bind_eq_ok.mp h with ⟨_, hallowed, h⟩
    rcases bind_eq_ok.mp h with ⟨_, hnew, h⟩
    cases h
    rcases demand_eq_ok.mp hcheck with rfl
    refine .inr ⟨campaign, pause, check, demand_eq_ok.mp hcampaign, howned, hmade,
      require_eq_ok.mp hallowed, require_eq_ok.mp hnew, rfl, rfl, rfl, rfl, ?_, rfl⟩
    exact (Int.lt_succ pause.createdAt).trans_le (le_max_right _ _)

end Writes

/-! ## Steps of a run -/

section Steps

variable [FundingHashing] {r r' : BudgetRun} {action : BudgetAction}

/-- The record of a pause row. -/
structure PauseRecord.Of (record : PauseRecord) (row : BudgetCampaignTransition) : Prop where
  id : record.transitionId = row.id
  status : record.status = (resumedStatus row).live
  budgetAmount : record.budgetAmount = row.budgetAmount
  fingerprint : row.fundingFingerprint = FundingHashing.sha256 record.facts

/-- What a resumption of the latest pause was allowed on. -/
structure ResumesLatest (d d' : BudgetDesk) (row : BudgetCampaignTransition) : Prop where
  restores : ∃ pause campaign budget booked source,
    d.latestTransition = some pause ∧ pause.action = .pause
      ∧ row.pauseTransitionId = some pause.id ∧ pause.createdAt < row.createdAt
      ∧ d.store.campaign? d.campaignId = some campaign
      ∧ d'.store.campaign? d'.campaignId
        = some { campaign with status := (resumedStatus pause).live }
      ∧ campaign.budgetAmount = some budget
      ∧ campaignBillingSpend d.store d.campaignId = .ok (booked, source) ∧ booked ≤ budget
      ∧ ¬ (pause.budgetAmount = budget ∧ pause.fundingFingerprint
        = FundingHashing.sha256 (fundingFacts d.store d.campaignId booked source))

/-- The steps of a run, by what they write to the log. -/
inductive LogWrite (r r' : BudgetRun) : Prop
  | none (log : r'.desk.transitions = r.desk.transitions) (pauses : r'.pauses = r.pauses)
  | pause (row : BudgetCampaignTransition) (record : PauseRecord)
      (log : r'.desk.transitions = r.desk.transitions ++ [row])
      (pauses : r'.pauses = r.pauses ++ [record])
      (new : ∀ other ∈ r.desk.transitions, other.id ≠ row.id)
      (action : row.action = .pause) (unanswering : row.pauseTransitionId = .none)
      (of : record.Of row)
      (paused : (r'.desk.store.campaign? r'.desk.campaignId).all (·.status = .paused) = true)
  | resume (row : BudgetCampaignTransition)
      (log : r'.desk.transitions = r.desk.transitions ++ [row])
      (pauses : r'.pauses = r.pauses)
      (new : ∀ other ∈ r.desk.transitions, other.id ≠ row.id)
      (action : row.action = .resume) (resumes : ResumesLatest r.desk r'.desk row)
      (spend : campaignBillingSpend r'.desk.store r'.desk.campaignId
        = campaignBillingSpend r.desk.store r.desk.campaignId)

theorem budgetStep_log [Hashing] (h : budgetStep r action = .ok r') : LogWrite r r' := by
  cases action with
  | enforce transitionId now =>
      rcases bind_eq_ok.mp h with ⟨⟨desk, result⟩, henforce, h⟩
      cases h
      rcases enforceCampaignBudget_cases henforce with
        ⟨rfl, hquiet⟩ | ⟨campaign, check, prior, hcampaign, hcheck, _, hprior, hnew, rfl, rfl⟩
      · refine .none rfl ?_
        cases result with
        | none => exact List.append_nil _
        | some check =>
            -- a check that pauses nothing records nothing
            have hquiet : ¬ check.pauseApplied = true := by simpa using hquiet
            simp [pauseRecord, if_neg hquiet]
      · rcases pausable_eq_some hprior with ⟨hlive, hscheduled⟩
        refine .pause (pauseRow transitionId prior check)
          { transitionId := transitionId
            status := campaign.status
            budgetAmount := check.campaignBudgetAmount
            facts := check.facts } rfl ?_ hnew rfl rfl ⟨rfl, ?_, rfl, rfl⟩ ?_
        · simp [pauseRecord, hcampaign]
        · -- the recorded status is the one that a resumption goes back to
          simp [resumedStatus, pauseRow, hscheduled, hlive]
        · have hafter := setStatus_campaign r.desk .paused now hcampaign
          simp only [BudgetDesk.setStatus] at hafter ⊢
          simp [hafter]
  | resume authorized transitionId actorUserId reason now =>
      rcases bind_eq_ok.mp h with ⟨⟨desk, row⟩, hresume, h⟩
      cases h
      rcases resumeAfterBudgetPause_cases hresume with
        rfl | ⟨campaign, pause, check, hcampaign, howned, hcheck, hauthorized, hnew, hid, haction,
          hpause, _, hlater, rfl⟩
      · exact .none rfl rfl
      · rcases ownedBudgetPause_eq_ok.mp howned with ⟨hlatest, hpauses⟩
        rcases campaignBudgetCheck_eq_some hcheck with
          ⟨budget, booked, source, hbudget, hspend, rfl⟩
        rw [lookup_id hcampaign] at hspend hauthorized
        refine .resume row rfl rfl (hid ▸ hnew) haction ⟨?_⟩ rfl
        exact ⟨pause, campaign, budget, booked, source, hlatest, hpauses, hpause, hlater,
          hcampaign, setStatus_campaign r.desk _ now hcampaign, hbudget, hspend,
          by simpa using hauthorized.1, hauthorized.2⟩
  | book billing now =>
      rcases bind_eq_ok.mp h with ⟨store, _, h⟩
      cases h
      exact .none rfl rfl

/-! ## Every pause is answered at most once -/

structure PauseInv (r : BudgetRun) : Prop where
  idsNodup : (r.desk.transitions.map (·.id)).Nodup
  answered : ∀ row ∈ r.desk.transitions, ∀ pauseId, row.pauseTransitionId = some pauseId →
    ∃ pause ∈ r.desk.transitions, pause.id = pauseId ∧ pause.createdAt < row.createdAt
  resumedOnce : (r.desk.transitions.filterMap (·.pauseTransitionId)).Nodup
  recorded : ∀ row ∈ r.desk.transitions, row.action = .pause → ∃ record ∈ r.pauses, record.Of row
  recordIds : ∀ record ∈ r.pauses, ∃ row ∈ r.desk.transitions, row.id = record.transitionId
  recordedOnce : (r.pauses.map (·.transitionId)).Nodup

/-- No row of the log answers the pause that ends it. -/
theorem PauseInv.latest_unanswered (hr : PauseInv r) {pause : BudgetCampaignTransition}
    (hlatest : r.desk.latestTransition = some pause) :
    pause.id ∉ r.desk.transitions.filterMap (·.pauseTransitionId) := by
  intro hmem
  rcases List.mem_filterMap.mp hmem with ⟨row, hrow, hanswers⟩
  rcases hr.answered row hrow pause.id hanswers with ⟨pause', hpause', hid, hlater⟩
  rcases latestTransition_le hlatest with ⟨hpause, hle⟩
  have hsame : pause' = pause := eq_of_key_eq hr.idsNodup hpause' hpause hid
  exact absurd (hsame ▸ hlater) (not_lt.mpr (hle row hrow))

theorem PauseInv.step [Hashing] (hr : PauseInv r) (h : budgetStep r action = .ok r') : PauseInv r' := by
  cases budgetStep_log h with
  | none log pauses =>
      exact ⟨log ▸ hr.idsNodup, log ▸ hr.answered, log ▸ hr.resumedOnce,
        by rw [log, pauses]; exact hr.recorded, by rw [log, pauses]; exact hr.recordIds,
        pauses ▸ hr.recordedOnce⟩
  | pause row record log pauses new action unanswering of _ =>
      refine ⟨?_, ?_, ?_, ?_, ?_, ?_⟩
      · rw [log]
        exact nodup_map_append hr.idsNodup new
      · rw [log]
        intro row' hrow' pauseId hanswers
        rcases List.mem_append.mp hrow' with hold | hnew
        · rcases hr.answered row' hold pauseId hanswers with ⟨pause, hpause, hrest⟩
          exact ⟨pause, List.mem_append_left _ hpause, hrest⟩
        · rw [List.mem_singleton.mp hnew, unanswering] at hanswers
          cases hanswers
      · rw [log, List.filterMap_append]
        simpa [unanswering] using hr.resumedOnce
      · rw [log, pauses]
        intro row' hrow' haction
        rcases List.mem_append.mp hrow' with hold | hnew
        · rcases hr.recorded row' hold haction with ⟨old, hmem, hof⟩
          exact ⟨old, List.mem_append_left _ hmem, hof⟩
        · rw [List.mem_singleton.mp hnew]
          exact ⟨record, by simp, of⟩
      · rw [log, pauses]
        intro record' hrecord'
        rcases List.mem_append.mp hrecord' with hold | hnew
        · rcases hr.recordIds record' hold with ⟨old, hmem, hid⟩
          exact ⟨old, List.mem_append_left _ hmem, hid⟩
        · rw [List.mem_singleton.mp hnew]
          exact ⟨row, by simp, of.id.symm⟩
      · rw [pauses]
        refine nodup_map_append hr.recordedOnce ?_
        intro old hold hsame
        -- a record stands for a row, and the new row has a new id
        rcases hr.recordIds old hold with ⟨row', hrow', hid⟩
        exact new row' hrow' (hid.trans (hsame.trans of.id))
  | resume row log pauses new action resumes _ =>
      rcases resumes.restores with ⟨pause, _, _, _, _, hlatest, _, hanswers, hlater, _⟩
      refine ⟨?_, ?_, ?_, ?_, ?_, pauses ▸ hr.recordedOnce⟩
      · rw [log]
        exact nodup_map_append hr.idsNodup new
      · rw [log]
        intro row' hrow' pauseId hanswers'
        rcases List.mem_append.mp hrow' with hold | hnew
        · rcases hr.answered row' hold pauseId hanswers' with ⟨pause', hpause', hrest⟩
          exact ⟨pause', List.mem_append_left _ hpause', hrest⟩
        · rw [List.mem_singleton.mp hnew] at hanswers' ⊢
          refine ⟨pause, List.mem_append_left _ (latestTransition_le hlatest).1, ?_, hlater⟩
          exact Option.some.inj (hanswers.symm.trans hanswers')
      · rw [log, List.filterMap_append]
        refine List.Nodup.append hr.resumedOnce (by simp [hanswers]) ?_
        intro id hid hid'
        have hsame : id = pause.id := by simpa [hanswers] using hid'
        -- the answered pause is the latest row, which nothing answered before
        exact hr.latest_unanswered hlatest (hsame ▸ hid)
      · rw [log, pauses]
        intro row' hrow' haction
        rcases List.mem_append.mp hrow' with hold | hnew
        · exact hr.recorded row' hold haction
        · rw [List.mem_singleton.mp hnew, action] at haction
          cases haction
      · rw [log, pauses]
        intro record' hrecord'
        rcases hr.recordIds record' hrecord' with ⟨old, hmem, hid⟩
        exact ⟨old, List.mem_append_left _ hmem, hid⟩

theorem pauseInv_of_reachable [Hashing] {campaignId : Id} (h : Reachable (budgetDesk campaignId) r) :
    PauseInv r := by
  refine ReachableBy.invariant PauseInv ?_ (fun _ _ _ hs _ hstep => hs.step hstep) h
  exact ⟨List.nodup_nil, List.forall_mem_nil _, List.nodup_nil, List.forall_mem_nil _,
    List.forall_mem_nil _, List.nodup_nil⟩

/-! ## What a run of pauses and resumptions keeps -/

/-- A resumption row, beside the recorded pause that it answers. -/
def AnswersRecord (r r' : BudgetRun) (row : BudgetCampaignTransition) : Prop :=
  ∃ record ∈ r.pauses, ∃ campaign budget booked source,
    row.pauseTransitionId = some record.transitionId
      ∧ r'.desk.store.campaign? r'.desk.campaignId = some campaign
      ∧ campaign.status = record.status
      ∧ campaign.budgetAmount = some budget
      ∧ campaignBillingSpend r.desk.store r.desk.campaignId = .ok (booked, source)
      ∧ booked ≤ budget
      ∧ (record.budgetAmount ≠ budget
        ∨ record.facts ≠ fundingFacts r.desk.store r.desk.campaignId booked source)

/-- Enforcement on facts like these writes no pause. -/
def Quiet (d : BudgetDesk) : Prop :=
  ∀ d₂, d₂.campaignId = d.campaignId → budgetFacts d₂ = budgetFacts d →
    ∀ transitionId now d₃ result, enforceCampaignBudget transitionId now d₂ = .ok (d₃, result) →
      d₃ = d₂

structure PausesAnswered [Hashing] (r : BudgetRun) : Prop where
  /-- A pause is recorded once and answered at most once. -/
  recordedOnce : (r.pauses.map (·.transitionId)).Nodup
  resumedOnce : (r.desk.transitions.filterMap (·.pauseTransitionId)).Nodup
  resumptions : ∀ action r', budgetStep r action = .ok r' →
    ∃ rows, r'.desk.transitions = r.desk.transitions ++ rows
      ∧ (∀ row ∈ rows, row.action = .resume → AnswersRecord r r' row)
      ∧ (rows ≠ [] → Quiet r'.desk)

theorem ResumesLatest.answersRecord (hr : PauseInv r) {row : BudgetCampaignTransition}
    (h : ResumesLatest r.desk r'.desk row) : AnswersRecord r r' row := by
  rcases h.restores with ⟨pause, campaign, budget, booked, source, hlatest, hpauses, hanswers, _,
    _, hafter, hbudget, hspend, hcovered, hdiffer⟩
  rcases hr.recorded pause (latestTransition_le hlatest).1 hpauses with ⟨record, hrecord, hof⟩
  refine ⟨record, hrecord, _, budget, booked, source, ?_, hafter, hof.status.symm, hbudget, hspend,
    hcovered, ?_⟩
  · rw [hanswers, hof.id]
  · -- the facts differ because their hashes do
    by_contra hsame
    rw [not_or, not_not, not_not] at hsame
    exact hdiffer ⟨hof.budgetAmount ▸ hsame.1, hsame.2 ▸ hof.fingerprint⟩

omit [FundingHashing] in
theorem budgetFacts_eq {d d₂ : BudgetDesk} (hid : d₂.campaignId = d.campaignId)
    (h : budgetFacts d₂ = budgetFacts d) :
    d₂.store.campaign? d₂.campaignId = d.store.campaign? d.campaignId
      ∧ campaignBillingSpend d₂.store d.campaignId = campaignBillingSpend d.store d.campaignId := by
  simp only [budgetFacts, Prod.mk.injEq] at h
  exact ⟨h.1, hid ▸ h.2.1⟩

/-- A paused campaign is not paused again. -/
theorem quiet_of_paused {d : BudgetDesk}
    (h : (d.store.campaign? d.campaignId).all (·.status = .paused) = true) : Quiet d := by
  intro d₂ hid hfacts transitionId now d₃ result henforce
  rcases enforceCampaignBudget_cases henforce with
    ⟨hsame, _⟩ | ⟨campaign, check, prior, hcampaign, _, _, hprior, _⟩
  · exact hsame
  · rw [← (budgetFacts_eq hid hfacts).1, hcampaign] at h
    have hpaused : campaign.status = .paused := by simpa using h
    rw [hpaused] at hprior
    cases hprior

/-- Spending within the budget is not paused. -/
theorem quiet_of_covered {d : BudgetDesk} {campaign : Campaign} {budget booked : Int}
    {source : SpendSource} (hcampaign : d.store.campaign? d.campaignId = some campaign)
    (hbudget : campaign.budgetAmount = some budget)
    (hspend : campaignBillingSpend d.store d.campaignId = .ok (booked, source))
    (hcovered : booked ≤ budget) : Quiet d := by
  intro d₂ hid hfacts transitionId now d₃ result henforce
  rcases budgetFacts_eq hid hfacts with ⟨hcampaigns, hspends⟩
  rcases enforceCampaignBudget_cases henforce with
    ⟨hsame, _⟩ | ⟨campaign₂, check, prior, hcampaign₂, hcheck, hstate, _⟩
  · exact hsame
  · rcases campaignBudgetCheck_eq_some hcheck with ⟨budget₂, booked₂, source₂, hbudget₂, hspend₂, rfl⟩
    rw [lookup_id hcampaign₂, hid, hspends, hspend] at hspend₂
    rw [hcampaign₂, hcampaign] at hcampaigns
    cases hspend₂
    cases hcampaigns
    cases hbudget₂.symm.trans hbudget
    -- booked spending above the budget is what the threshold means
    simp only [budgetState, if_neg (not_lt.mpr hcovered)] at hstate
    split_ifs at hstate

theorem PauseInv.answered_at_most_once [Hashing] (hr : PauseInv r) : PausesAnswered r := by
  refine ⟨hr.recordedOnce, hr.resumedOnce, ?_⟩
  intro action r' h
  cases budgetStep_log h with
  | none log _ =>
      exact ⟨[], by rw [log, List.append_nil], List.forall_mem_nil _, fun hne => absurd rfl hne⟩
  | pause row record log _ _ action _ _ paused =>
      refine ⟨[row], log, ?_, fun _ => quiet_of_paused paused⟩
      intro row' hrow' hresume
      rw [List.mem_singleton.mp hrow', action] at hresume
      cases hresume
  | resume row log _ _ _ resumes spend =>
      refine ⟨[row], log, ?_, fun _ => ?_⟩
      · intro row' hrow' _
        rw [List.mem_singleton.mp hrow']
        exact resumes.answersRecord hr
      · rcases resumes.restores with ⟨pause, campaign, budget, booked, source, _, _, _, _, _, hafter,
          hbudget, hspend, hcovered, _⟩
        exact quiet_of_covered hafter hbudget (spend.trans hspend) hcovered

end Steps

/-- The two ways back exclude each other exactly while no staff pause is later than an open
budget pause; a run of the budget's own services answers each of its pauses at most once. -/
theorem paused_campaign_has_one_way_back [Hashing] [FundingHashing] (casefold : String → String) :
    (∀ d campaign, OneWayBack casefold d campaign ↔ ¬ StaffPausedSince d)
      ∧ ∀ campaignId r, Reachable (budgetDesk campaignId) r → PausesAnswered r :=
  ⟨fun _ _ => oneWayBack_iff, fun _ _ hr => (pauseInv_of_reachable hr).answered_at_most_once⟩

/-! ## A staff pause on top of a budget pause -/

def samplePausedCampaign : Campaign :=
  { id := 5, organizationId := 3, currency := "NGN", status := .paused }

/-- Paused for budget at 10 and by staff at 20. -/
def pausedTwice : BudgetDesk :=
  { campaignId := 5
    store := { campaigns := [samplePausedCampaign] }
    updatedAt := 20
    transitions :=
      [{ id := 1
         budgetAmount := 100
         fundingFingerprint := "f"
         action := .pause
         priorStatus := .active
         newStatus := .paused
         reason := "Booked charges exceed the total budget and accepted price"
         createdAt := 10 }]
    staffEvents :=
      [{ id := 2
         actorUserId := 9
         action := .paused
         createdAt := 20
         pauseVersion := some 20
         pauseReasonKind := some "operational"
         reason := some "road closed"
         statusAfter := some .paused }] }

theorem paused_twice_has_two_ways_back :
    samplePausedCampaign.status = .paused
      ∧ pausedTwice.store.campaign? pausedTwice.campaignId = some samplePausedCampaign
      ∧ (ownedBudgetPause pausedTwice).toOption.isSome = true
      ∧ requireOperationalPause (fun reason => reason) pausedTwice samplePausedCampaign 2 = .ok ⟨⟩
      ∧ ¬ OneWayBack (fun reason => reason) pausedTwice samplePausedCampaign := by
  have hstaff : requireOperationalPause (fun reason => reason) pausedTwice samplePausedCampaign 2
      = .ok ⟨⟩ := by decide +kernel
  refine ⟨rfl, by decide, by decide +kernel, hstaff, ?_⟩
  intro h
  cases howned : ownedBudgetPause pausedTwice with
  | error error =>
      have hsome : (ownedBudgetPause pausedTwice).toOption.isSome = true := by decide +kernel
      rw [howned] at hsome
      cases hsome
  | ok pause => exact h.exclusive pause howned 2 hstaff

/-! ## A run -/

/-- The hash of a sample run tells totals apart. -/
instance plainFundingHashing : FundingHashing where
  sha256 facts := toString facts.totalSpend

def sampleDebitNote : CorrectionFacts :=
  { reference := "D", correctionType := .debitNote, netAmount := 100, taxAmount := 0, reason := "x" }

/-- A campaign of budget 100.00 that has been paid 200.00. -/
def overspent : List BillingAction :=
  invoicedCampaign ++ fundWith 1 "A" 1 ++ [.correctInvoice (.ok ⟨⟩) 1 sampleDebitNote "d"]
    ++ fundWith 2 "B" 2

def raisedBudget : BillingAction :=
  .writeCampaign
    { samplePausedCampaign with budgetAmount := some 30000 }

def pausedAndRaised : List BudgetAction :=
  overspent.map (.book · 3)
    ++ [ .book (.writeCampaign { samplePausedCampaign with
          status := .active, budgetAmount := some 10000 }) 4,
        .enforce 1 5, .book raisedBudget 6 ]

def sampleResumption : BudgetAction :=
  .resume (.ok ⟨⟩) 2 9 "budget raised" 7

theorem paused_campaign_has_one_way_back_resumed :
    ∃ r r', Reachable (budgetDesk 5) r ∧ budgetStep r sampleResumption = .ok r'
      ∧ r.pauses.map (·.status) = [.active]
      ∧ (r'.desk.store.campaign? 5).map (·.status) = some .active
      ∧ PausesAnswered r ∧ PausesAnswered r'
      ∧ (OneWayBack (fun reason => reason) r.desk samplePausedCampaign
        ↔ ¬ StaffPausedSince r.desk) := by
  rcases (budgetDesk 5).exists_step pausedAndRaised sampleResumption (fun r r' =>
      decide (r.pauses.map (·.status) = [.active])
        && decide ((r'.desk.store.campaign? 5).map (·.status) = some .active))
    (by decide +kernel) with ⟨r, r', hr, hstep, htest⟩
  simp only [Bool.and_eq_true, decide_eq_true_eq] at htest
  rcases paused_campaign_has_one_way_back (fun reason => reason) with ⟨hways, hruns⟩
  exact ⟨r, r', hr, hstep, htest.1, htest.2, hruns 5 r hr, hruns 5 r' (.step hr trivial hstep),
    hways r.desk samplePausedCampaign⟩

end Billing
end Mobility
