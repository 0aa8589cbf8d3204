import Mobility.Basic
import Mobility.Lib.Checked
import Mobility.Reports.Windows

/-!
# Schedule — sweeps and staff reruns of a campaign's reports

A discovery records the next due window of a campaign, a sweep repeats discoveries, and a
rerun records the latest due window again.  The first report of a window is its original:
a report that reruns nothing.  In any history the originals are windows that were due,
each once, and a sweep leaves no due window without one.
-/

namespace Mobility
namespace Reports

open Lib

abbrev Id := Nat

abbrev Digest := String

inductive CampaignStatus
  | draft
  | pendingReview
  | approved
  | rejected
  | active
  | paused
  | cancelled
  deriving DecidableEq, Repr

/-- `cutoffAt` is the cutoff of the campaign's cancellation. -/
structure Campaign where
  id : Id
  status : CampaignStatus
  startAt : Option Int
  endAt : Option Int
  cutoffAt : Option Int := none
  deriving DecidableEq, Repr

structure CampaignReport where
  id : Id
  campaignId : Option Id
  requestedByUserId : Id
  clientRequestId : Id
  requestFingerprint : Digest
  kind : ReportKind
  version : Nat
  rerunOfId : Option Id
  periodStartAt : Int
  periodEndAt : Int
  deriving DecidableEq, Repr

def CampaignReport.window (report : CampaignReport) : Window :=
  { dueAt := report.periodEndAt, kind := report.kind }

/-! ## The operations -/

def eligible (campaign : Campaign) : Bool :=
  campaign.status = .active || campaign.status = .paused || campaign.status = .cancelled

/-- `report_cutoff`: a cancelled campaign ends at its cutoff. -/
def reportCutoff (campaign : Campaign) : Option Int :=
  match campaign.endAt with
  | none => none
  | some endAt =>
      if campaign.status = .cancelled then campaign.cutoffAt.map (min endAt)
      else some endAt

def isScheduled (campaignId : Id) (report : CampaignReport) : Bool :=
  report.campaignId = some campaignId && (report.kind = .weekly || report.kind = .final)

/-- The period ends of the campaign's weekly and final reports. -/
def knownPeriods (campaignId : Id) (reports : List CampaignReport) : List Int :=
  (reports.filter (isScheduled campaignId)).map (·.periodEndAt)

/-- Reports of one window, all versions. -/
def versionsOf (campaignId : Id) (window : Window) (reports : List CampaignReport) :
    List CampaignReport :=
  reports.filter (fun report => report.campaignId = some campaignId && report.window = window)

/-- `ORDER BY version DESC LIMIT 1`. -/
def latestVersion? (campaignId : Id) (window : Window) (reports : List CampaignReport) :
    Option CampaignReport :=
  ((versionsOf campaignId window reports).insertionSort
    (fun report report' => report'.version ≤ report.version)).head?

def requestConflict : AppError :=
  { code := "REPORT_REQUEST_CONFLICT"
    message := "This request was already used for another report" }

def requested? (actorUserId requestId : Id) (reports : List CampaignReport) :
    Option CampaignReport :=
  reports.find? (fun report =>
    report.requestedByUserId = actorUserId && report.clientRequestId = requestId)

/-- Who asks for a report, under which request. -/
structure ReportRequest where
  reportId : Id
  actorUserId : Id
  requestId : Id
  fingerprint : Digest
  deriving DecidableEq, Repr

/-- The row that is written: a rerun counts on from the versions of its window. -/
def newReport (request : ReportRequest) (campaignId : Id) (start : Int) (window : Window)
    (rerunOf : Option CampaignReport) (reports : List CampaignReport) : CampaignReport :=
  { id := request.reportId
    campaignId := some campaignId
    requestedByUserId := request.actorUserId
    clientRequestId := request.requestId
    requestFingerprint := request.fingerprint
    kind := window.kind
    version :=
      match rerunOf with
      | none => 1
      | some _ => 1 + ((versionsOf campaignId window reports).map (·.version)).foldr max 0
    rerunOfId := rerunOf.map (·.id)
    periodStartAt := start
    periodEndAt := window.dueAt }

/-- `create_report`: `preparation` stands for the limits, authorizations and evidence that
can refuse a report. -/
def createReport (request : ReportRequest) (campaignId : Id) (start : Int) (window : Window)
    (rerunOf : Option CampaignReport) (preparation : Except AppError Unit)
    (reports : List CampaignReport) : Except AppError (List CampaignReport) :=
  match requested? request.actorUserId request.requestId reports with
  | some replay => do
      require (replay.requestFingerprint = request.fingerprint) requestConflict
      return reports
  | none => do
      preparation
      return reports ++ [newReport request campaignId start window rerunOf reports]

/-- The actor of scheduled reports. -/
def reportActorId : Id := 0

/-- `uuid4()`: a request no report was made under. -/
def newRequestId (reports : List CampaignReport) : Id :=
  (reports.map (·.clientRequestId)).foldr max 0 + 1

/-- `_discover_campaign_report`: the reports and how many were created. -/
def discoverCampaignReport (campaign : Campaign) (now : Int) (reportId : Id)
    (preparation : Except AppError Unit) (reports : List CampaignReport) :
    List CampaignReport × Nat :=
  match campaign.startAt, reportCutoff campaign with
  | some start, some endAt =>
      if eligible campaign then
        match nextDueWindow start endAt now (knownPeriods campaign.id reports) with
        | none => (reports, 0)
        | some window =>
            match createReport
                { reportId := reportId
                  actorUserId := reportActorId
                  requestId := newRequestId reports
                  fingerprint := toString (newRequestId reports) }
                campaign.id start window none preparation reports with
            | .ok reports' => (reports', 1)
            | .error _ => (reports, 0)
      else (reports, 0)
  | _, _ => (reports, 0)

/-- Repeat the discovery; one that finds no window changes nothing. -/
def sweep (campaign : Campaign) (now : Int) : Nat → List CampaignReport → List CampaignReport
  | 0, reports => reports
  | n + 1, reports =>
      sweep campaign now n (discoverCampaignReport campaign now reports.length (.ok ()) reports).1

def reportNotDue : AppError :=
  { code := "REPORT_NOT_DUE"
    message := "The first weekly or final report is not due yet" }

/-- `rerun_campaign_report`. -/
def rerunCampaignReport (authorized : Except AppError Unit) (request : ReportRequest)
    (campaign : Campaign) (now : Int) (preparation : Except AppError Unit)
    (reports : List CampaignReport) : Except AppError (List CampaignReport) := do
  authorized
  match requested? request.actorUserId request.requestId reports with
  | some replay => do
      require (replay.requestFingerprint = request.fingerprint) requestConflict
      return reports
  | none => do
      let start ← demand campaign.startAt reportNotDue
      let endAt ← demand (reportCutoff campaign) reportNotDue
      require (eligible campaign) reportNotDue
      let window ← demand (latestDueWindow start endAt now) reportNotDue
      createReport request campaign.id start window (latestVersion? campaign.id window reports)
        preparation reports

/-! ## Histories -/

/-- What happens to the reports: discoveries that may fail, reruns, and reports that are
custom or of other campaigns. -/
inductive ReportEvent
  | discover (now : Int) (reportId : Id) (preparation : Except AppError Unit)
  | sweep (now : Int) (applications : Nat)
  | rerun (now : Int) (authorized : Except AppError Unit) (request : ReportRequest)
      (preparation : Except AppError Unit)
  | other (now : Int) (report : CampaignReport)

def ReportEvent.now : ReportEvent → Int
  | .discover now _ _ => now
  | .sweep now _ => now
  | .rerun now _ _ _ => now
  | .other now _ => now

/-- A refused request leaves the reports unchanged. -/
def applyEvent (campaign : Campaign) (reports : List CampaignReport) :
    ReportEvent → List CampaignReport
  | .discover now reportId preparation =>
      (discoverCampaignReport campaign now reportId preparation reports).1
  | .sweep now applications => sweep campaign now applications reports
  | .rerun now authorized request preparation =>
      match rerunCampaignReport authorized request campaign now preparation reports with
      | .ok reports' => reports'
      | .error _ => reports
  | .other _ report => if isScheduled campaign.id report then reports else reports ++ [report]

def history (campaign : Campaign) (reports : List CampaignReport) (events : List ReportEvent) :
    List CampaignReport :=
  events.foldl (applyEvent campaign) reports

/-- The windows of the campaign's reports that rerun nothing. -/
def originals (campaignId : Id) (reports : List CampaignReport) : List Window :=
  (reports.filter (fun report => isScheduled campaignId report && report.rerunOfId = none)).map
    (·.window)

/-! ## Reports of a campaign -/

/-- A campaign that reports over a period that is not empty. -/
structure Reporting (campaign : Campaign) (start endAt : Int) : Prop where
  starts : campaign.startAt = some start
  ends : reportCutoff campaign = some endAt
  eligible : eligible campaign = true
  nonempty : start < endAt

/-- The originals are windows that were due, each once, and every report of the campaign
is about one of them. -/
structure Recorded (campaign : Campaign) (start endAt now : Int)
    (reports : List CampaignReport) : Prop where
  nodup : (originals campaign.id reports).Nodup
  due : ∀ window ∈ originals campaign.id reports, Due start endAt now window
  covered : ∀ report ∈ reports, isScheduled campaign.id report = true →
    report.window ∈ originals campaign.id reports

section

variable {campaign : Campaign} {start endAt now latest : Int}
  {reports reports' : List CampaignReport}
  {report : CampaignReport} {window : Window}

theorem originals_append (campaignId : Id) (reports : List CampaignReport)
    (report : CampaignReport) :
    originals campaignId (reports ++ [report])
      = originals campaignId reports
        ++ if isScheduled campaignId report && report.rerunOfId = none then [report.window]
          else [] := by
  unfold originals
  rw [List.filter_append, List.map_append]
  congr 1
  split_ifs with h
  · rw [List.filter_cons, if_pos h]
    rfl
  · rw [List.filter_cons, if_neg h]
    rfl

theorem IsWindow.scheduled (h : IsWindow start endAt window) :
    window.kind = .weekly ∨ window.kind = .final := by
  cases h with
  | weekly => exact .inl rfl
  | final => exact .inr rfl

theorem mem_knownPeriods {due : Int} :
    due ∈ knownPeriods campaign.id reports
      ↔ ∃ report ∈ reports, isScheduled campaign.id report = true ∧ report.periodEndAt = due := by
  simp [knownPeriods, and_assoc]

/-- The known periods are the ends of the originals. -/
theorem Recorded.known (h : Recorded campaign start endAt now reports) {due : Int} :
    due ∈ knownPeriods campaign.id reports
      ↔ ∃ window ∈ originals campaign.id reports, window.dueAt = due := by
  rw [mem_knownPeriods]
  constructor
  · rintro ⟨report, hreport, hscheduled, rfl⟩
    exact ⟨report.window, h.covered report hreport hscheduled, rfl⟩
  · rintro ⟨window, hwindow, rfl⟩
    rcases List.mem_map.mp hwindow with ⟨report, hreport, rfl⟩
    rcases List.mem_filter.mp hreport with ⟨hmem, hpasses⟩
    exact ⟨report, hmem, (Bool.and_eq_true _ _ ▸ hpasses).1, rfl⟩

/-- A due window that is known is an original. -/
theorem Recorded.original_of_known (h : Recorded campaign start endAt now reports)
    (hwindow : IsWindow start endAt window)
    (hknown : window.dueAt ∈ knownPeriods campaign.id reports) :
    window ∈ originals campaign.id reports := by
  rcases h.known.mp hknown with ⟨window', hmem, hdue⟩
  rw [hwindow.eq_of_dueAt (h.due window' hmem).isWindow hdue.symm]
  exact hmem

/-- The first report of a due window. -/
theorem Recorded.append_original (h : Recorded campaign start endAt now reports)
    (hscheduled : isScheduled campaign.id report = true) (horiginal : report.rerunOfId = none)
    (hdue : Due start endAt now report.window)
    (hnew : report.window ∉ originals campaign.id reports) :
    Recorded campaign start endAt now (reports ++ [report])
      ∧ originals campaign.id (reports ++ [report])
        = originals campaign.id reports ++ [report.window] := by
  have happend : originals campaign.id (reports ++ [report])
      = originals campaign.id reports ++ [report.window] := by
    rw [originals_append, if_pos (by simp [hscheduled, horiginal])]
  refine ⟨⟨?_, ?_, ?_⟩, happend⟩
  · rw [happend]
    refine h.nodup.append (List.nodup_singleton _) ?_
    intro window hold hwindow
    rw [List.mem_singleton.mp hwindow] at hold
    exact hnew hold
  · intro window hwindow
    rw [happend] at hwindow
    rcases List.mem_append.mp hwindow with hwindow | hwindow
    · exact h.due window hwindow
    · rw [List.mem_singleton.mp hwindow]
      exact hdue
  · intro row hrow hrowScheduled
    rw [happend]
    rcases List.mem_append.mp hrow with hrow | hrow
    · exact List.mem_append_left _ (h.covered row hrow hrowScheduled)
    · rw [List.mem_singleton.mp hrow]
      exact List.mem_append_right _ (List.mem_singleton_self _)

/-- A report that reruns another one, or is not of this schedule. -/
theorem Recorded.append_other (h : Recorded campaign start endAt now reports)
    (hother : isScheduled campaign.id report = true →
      report.rerunOfId ≠ none ∧ report.window ∈ originals campaign.id reports) :
    Recorded campaign start endAt now (reports ++ [report])
      ∧ originals campaign.id (reports ++ [report]) = originals campaign.id reports := by
  have happend : originals campaign.id (reports ++ [report]) = originals campaign.id reports := by
    rw [originals_append, if_neg, List.append_nil]
    intro hpasses
    rw [Bool.and_eq_true, decide_eq_true_eq] at hpasses
    exact (hother hpasses.1).1 hpasses.2
  refine ⟨⟨?_, ?_, ?_⟩, happend⟩
  · rw [happend]
    exact h.nodup
  · rw [happend]
    exact h.due
  · intro row hrow hrowScheduled
    rw [happend]
    rcases List.mem_append.mp hrow with hrow | hrow
    · exact h.covered row hrow hrowScheduled
    · rw [List.mem_singleton.mp hrow] at hrowScheduled ⊢
      exact (hother hrowScheduled).2

/-! ## One operation -/

/-- A report is made once for a request. -/
theorem createReport_ok {request : ReportRequest} {campaignId : Id} {rerunOf : Option CampaignReport}
    {preparation : Except AppError Unit}
    (h : createReport request campaignId start window rerunOf preparation reports = .ok reports') :
    reports' = reports ∨ ∃ report, reports' = reports ++ [report]
      ∧ report.campaignId = some campaignId ∧ report.window = window
      ∧ report.rerunOfId = rerunOf.map (·.id) := by
  unfold createReport at h
  cases hreplay : requested? request.actorUserId request.requestId reports with
  | some replay =>
      simp only [hreplay, bind_eq_ok, pure_eq_ok] at h
      rcases h with ⟨_, _, rfl⟩
      exact .inl rfl
  | none =>
      simp only [hreplay, bind_eq_ok, pure_eq_ok] at h
      rcases h with ⟨_, _, rfl⟩
      exact .inr ⟨_, rfl, rfl, rfl, rfl⟩

theorem lt_newRequestId (h : report ∈ reports) : report.clientRequestId < newRequestId reports := by
  induction reports with
  | nil => exact absurd h List.not_mem_nil
  | cons first rest ih =>
      rw [newRequestId, List.map_cons, List.foldr_cons]
      rcases List.mem_cons.mp h with rfl | h
      · exact Nat.lt_succ_of_le (Nat.le_max_left _ _)
      · exact Nat.lt_succ_of_le ((Nat.le_of_lt_succ (ih h)).trans (Nat.le_max_right _ _))

theorem requested_newRequestId (actorUserId : Id) :
    requested? actorUserId (newRequestId reports) reports = none := by
  refine List.find?_eq_none.mpr ?_
  intro report hreport hsame
  have hlt := lt_newRequestId hreport
  have heq : report.clientRequestId = newRequestId reports := by
    simp only [Bool.and_eq_true, decide_eq_true_eq] at hsame
    exact hsame.2
  exact absurd heq hlt.ne

/-- What a discovery does: nothing, or the first report of the next due window. -/
theorem discover_cases (hcampaign : Reporting campaign start endAt) (reportId : Id)
    (preparation : Except AppError Unit) :
    (discoverCampaignReport campaign now reportId preparation reports).1 = reports
        ∧ (preparation = .ok () →
          nextDueWindow start endAt now (knownPeriods campaign.id reports) = none)
      ∨ ∃ window report,
        nextDueWindow start endAt now (knownPeriods campaign.id reports) = some window
        ∧ (discoverCampaignReport campaign now reportId preparation reports).1
          = reports ++ [report]
        ∧ report.campaignId = some campaign.id ∧ report.window = window
        ∧ report.rerunOfId = none := by
  unfold discoverCampaignReport
  rw [hcampaign.starts, hcampaign.ends]
  simp only [hcampaign.eligible, if_true]
  cases hnext : nextDueWindow start endAt now (knownPeriods campaign.id reports) with
  | none => exact .inl ⟨rfl, fun _ => rfl⟩
  | some window =>
      cases preparation with
      | error e =>
          left
          simp [createReport, requested_newRequestId, Bind.bind, Except.bind]
      | ok u =>
          right
          refine ⟨window, newReport
            { reportId := reportId
              actorUserId := reportActorId
              requestId := newRequestId reports
              fingerprint := toString (newRequestId reports) }
            campaign.id start window none reports, rfl, ?_, rfl, rfl, rfl⟩
          simp only [createReport, requested_newRequestId]
          rfl

theorem isScheduled_of_window (hcampaign : report.campaignId = some campaign.id)
    (hwindow : IsWindow start endAt report.window) : isScheduled campaign.id report = true := by
  have hkind : report.kind = .weekly ∨ report.kind = .final := hwindow.scheduled
  simp [isScheduled, hcampaign, hkind]

/-- A discovery keeps the record and adds the next due window to it. -/
theorem Recorded.discover (hcampaign : Reporting campaign start endAt) (hnow : now ≤ latest)
    (h : Recorded campaign start endAt latest reports) (reportId : Id)
    (preparation : Except AppError Unit) :
    Recorded campaign start endAt latest
        (discoverCampaignReport campaign now reportId preparation reports).1
      ∧ ∀ window, nextDueWindow start endAt now (knownPeriods campaign.id reports) = some window →
        preparation = .ok () → originals campaign.id
            (discoverCampaignReport campaign now reportId preparation reports).1
          = originals campaign.id reports ++ [window] := by
  have hcases : _ ∨ _ := @discover_cases campaign start endAt now reports hcampaign reportId preparation
  rcases hcases with
    ⟨hsame, hnone⟩ | ⟨window, report, hnext, hsame, hid, hwindow, horiginal⟩
  · rw [hsame]
    refine ⟨h, ?_⟩
    intro window hnext hprepared
    rw [hnone hprepared] at hnext
    exact absurd hnext (by simp)
  · rcases nextDueWindow_some hnext with ⟨hdue, hnew⟩
    have hunknown : report.window ∉ originals campaign.id reports := by
      intro hmem
      exact hnew (h.known.mpr ⟨report.window, hmem, by rw [hwindow]⟩)
    rw [← hwindow] at hdue
    rcases h.append_original (isScheduled_of_window hid hdue.isWindow) horiginal (hdue.mono hnow)
      hunknown with
      ⟨hrecorded, happend⟩
    rw [hsame]
    refine ⟨hrecorded, ?_⟩
    intro window' hnext' _
    rw [happend, hwindow, Option.some.inj (hnext.symm.trans hnext')]

theorem Recorded.sweep (hcampaign : Reporting campaign start endAt) (hnow : now ≤ latest) (n : Nat)
    (h : Recorded campaign start endAt latest reports) :
    Recorded campaign start endAt latest (sweep campaign now n reports) := by
  induction n generalizing reports with
  | zero => exact h
  | succ n ih => exact ih (h.discover hcampaign hnow reports.length (.ok ())).1

theorem latestVersion?_some {prior : CampaignReport}
    (h : latestVersion? campaign.id window reports = some prior) :
    prior ∈ reports ∧ prior.campaignId = some campaign.id ∧ prior.window = window := by
  have hmem := (List.perm_insertionSort _ _).mem_iff.mp (List.mem_of_head? h)
  rcases List.mem_filter.mp hmem with ⟨hreport, hpasses⟩
  rw [Bool.and_eq_true, decide_eq_true_eq, decide_eq_true_eq] at hpasses
  exact ⟨hreport, hpasses⟩

theorem latestVersion?_none (h : latestVersion? campaign.id window reports = none)
    (hreport : report ∈ reports) (hcampaign : report.campaignId = some campaign.id) :
    report.window ≠ window := by
  intro hwindow
  have hmem : report ∈ versionsOf campaign.id window reports :=
    List.mem_filter.mpr ⟨hreport, by simp [hcampaign, hwindow]⟩
  have hperm := List.perm_insertionSort
    (fun report report' : CampaignReport => report'.version ≤ report.version)
    (versionsOf campaign.id window reports)
  rw [latestVersion?, List.head?_eq_none_iff] at h
  rw [h] at hperm
  rw [← hperm.nil_eq] at hmem
  exact absurd hmem List.not_mem_nil

/-- A rerun keeps the record: it is the first report of the latest due window, or reruns
one of its versions. -/
theorem Recorded.rerun (hcampaign : Reporting campaign start endAt) (hnow : now ≤ latest)
    (h : Recorded campaign start endAt latest reports) {authorized : Except AppError Unit}
    {request : ReportRequest} {preparation : Except AppError Unit}
    (hrerun : rerunCampaignReport authorized request campaign now preparation reports
      = .ok reports') : Recorded campaign start endAt latest reports' := by
  rcases bind_eq_ok.mp hrerun with ⟨_, _, hrerun⟩
  cases hreplay : requested? request.actorUserId request.requestId reports with
  | some replay =>
      simp only [hreplay, bind_eq_ok, pure_eq_ok] at hrerun
      rcases hrerun with ⟨_, _, rfl⟩
      exact h
  | none =>
      simp only [hreplay, bind_eq_ok, demand_eq_ok, hcampaign.starts, hcampaign.ends,
        Option.some.injEq] at hrerun
      rcases hrerun with ⟨_, rfl, _, rfl, _, _, window, hlatest, hcreate⟩
      have hdue := (latestDueWindow_some hlatest).1.mono hnow
      rcases createReport_ok hcreate with rfl | ⟨report, rfl, hid, hwindow, hrerunOf⟩
      · exact h
      rw [← hwindow] at hdue
      have hscheduled := isScheduled_of_window hid hdue.isWindow
      cases hprior : latestVersion? campaign.id window reports with
      | none =>
          refine (h.append_original hscheduled (by rw [hrerunOf, hprior]; rfl) hdue ?_).1
          intro hmem
          rcases List.mem_map.mp hmem with ⟨first, hfirst, hsame⟩
          rcases List.mem_filter.mp hfirst with ⟨hreport, hpasses⟩
          have hfirstId : first.campaignId = some campaign.id := by
            simp only [isScheduled, Bool.and_eq_true, decide_eq_true_eq] at hpasses
            exact hpasses.1.1
          exact latestVersion?_none hprior hreport hfirstId (hsame.trans hwindow)
      | some prior =>
          rcases latestVersion?_some hprior with ⟨hreport, hpriorId, hpriorWindow⟩
          refine (h.append_other (fun _ => ⟨by rw [hrerunOf, hprior]; simp, ?_⟩)).1
          -- the version it reruns is about the same window
          have hsame : prior.window = report.window := hpriorWindow.trans hwindow.symm
          rw [← hsame] at hdue ⊢
          exact h.covered prior hreport (isScheduled_of_window hpriorId hdue.isWindow)

theorem Recorded.event (hcampaign : Reporting campaign start endAt)
    (h : Recorded campaign start endAt latest reports) (event : ReportEvent)
    (hnow : event.now ≤ latest) :
    Recorded campaign start endAt latest (applyEvent campaign reports event) := by
  cases event with
  | discover now reportId preparation => exact (h.discover hcampaign hnow reportId preparation).1
  | sweep now applications => exact h.sweep hcampaign hnow applications
  | rerun now authorized request preparation =>
      cases hrerun : rerunCampaignReport authorized request campaign now preparation reports with
      | ok reports' =>
          simp only [applyEvent, hrerun]
          exact h.rerun hcampaign hnow hrerun
      | error e =>
          simp only [applyEvent, hrerun]
          exact h
  | other now report =>
      simp only [applyEvent]
      split_ifs with hscheduled
      · exact h
      · exact (h.append_other (fun hs => absurd hs hscheduled)).1

theorem Recorded.history (hcampaign : Reporting campaign start endAt)
    (h : Recorded campaign start endAt latest reports) {events : List ReportEvent}
    (hnow : ∀ event ∈ events, event.now ≤ latest) :
    Recorded campaign start endAt latest (history campaign reports events) := by
  induction events generalizing reports with
  | nil => exact h
  | cons event events ih =>
      exact ih (h.event hcampaign event (hnow event List.mem_cons_self))
        (fun e he => hnow e (List.mem_cons_of_mem _ he))

/-! ## A sweep ends -/

/-- All windows that are due, in order. -/
def dueWindows (start endAt now : Int) : List Window :=
  ((List.range ((now - start) / week).toNat).map (fun k =>
      { dueAt := start + ((k + 1 : Nat) : Int) * week, kind := .weekly }))
    ++ [{ dueAt := endAt, kind := .final }]

theorem mem_dueWindows (h : Due start endAt now window) : window ∈ dueWindows start endAt now := by
  rcases h with ⟨hwindow, hreached⟩
  cases hwindow with
  | weekly k hk _ =>
      have hdue : start + k * week ≤ now := hreached
      have hle : (k : Int) ≤ (now - start) / week := by
        rw [Int.le_ediv_iff_mul_le week_pos]
        omega
      rcases Nat.exists_eq_add_of_le' hk with ⟨j, rfl⟩
      refine List.mem_append_left _ (List.mem_map.mpr ⟨j, List.mem_range.mpr ?_, rfl⟩)
      omega
  | final => exact List.mem_append_right _ (List.mem_singleton_self _)

/-- No more originals than due windows. -/
theorem Recorded.length_le (h : Recorded campaign start endAt now reports) :
    (originals campaign.id reports).length ≤ (dueWindows start endAt now).length :=
  (List.subperm_of_subset h.nodup
    (fun window hwindow => mem_dueWindows (h.due window hwindow))).length_le

/-- A sweep that found no window stays where it is. -/
theorem sweep_of_none (hcampaign : Reporting campaign start endAt)
    (hnone : nextDueWindow start endAt now (knownPeriods campaign.id reports) = none) (n : Nat) :
    sweep campaign now n reports = reports := by
  induction n with
  | zero => rfl
  | succ n ih =>
      have hstep : (discoverCampaignReport campaign now reports.length (.ok ()) reports).1
          = reports := by
        rcases discover_cases hcampaign reports.length (.ok ()) with
          ⟨hsame, _⟩ | ⟨window, _, hnext, _⟩
        · exact hsame
        · rw [hnone] at hnext
          exact absurd hnext (by simp)
      rw [sweep, hstep]
      exact ih

/-- Each discovery of a sweep adds a window until none is left. -/
theorem sweep_progress (hcampaign : Reporting campaign start endAt) (n : Nat)
    (h : Recorded campaign start endAt now reports) :
    nextDueWindow start endAt now (knownPeriods campaign.id (sweep campaign now n reports)) = none
      ∨ (originals campaign.id reports).length + n
        ≤ (originals campaign.id (sweep campaign now n reports)).length := by
  induction n generalizing reports with
  | zero => exact .inr (le_refl _)
  | succ n ih =>
      cases hnext : nextDueWindow start endAt now (knownPeriods campaign.id reports) with
      | none =>
          left
          rw [sweep_of_none hcampaign hnext]
          exact hnext
      | some window =>
          rcases h.discover hcampaign (le_refl now) reports.length (.ok ()) with ⟨hrecorded, hadds⟩
          rw [sweep]
          refine (ih hrecorded).imp_right ?_
          intro hlength
          rw [hadds window hnext rfl, List.length_append, List.length_singleton] at hlength
          omega

/-- With as many discoveries as windows are due, and one to see it, none is left. -/
theorem sweep_complete (hcampaign : Reporting campaign start endAt)
    (h : Recorded campaign start endAt now reports) {n : Nat}
    (hn : (dueWindows start endAt now).length < n) :
    nextDueWindow start endAt now (knownPeriods campaign.id (sweep campaign now n reports))
      = none := by
  refine (sweep_progress hcampaign n h).resolve_right ?_
  intro hlength
  have hle := (h.sweep hcampaign (le_refl now) n).length_le
  omega

theorem sweep_add (campaign : Campaign) (now : Int) (m n : Nat) (reports : List CampaignReport) :
    sweep campaign now (m + n) reports = sweep campaign now n (sweep campaign now m reports) := by
  induction m generalizing reports with
  | zero => rw [Nat.zero_add, sweep]
  | succ m ih =>
      rw [Nat.succ_add_eq_add_succ, Nat.add_succ, sweep, sweep]
      exact ih _

theorem recorded_of_fresh (hfresh : ∀ report ∈ reports, isScheduled campaign.id report = false) :
    Recorded campaign start endAt now reports := by
  have hnil : originals campaign.id reports = [] := by
    refine List.map_eq_nil_iff.mpr (List.filter_eq_nil_iff.mpr ?_)
    intro report hreport
    simp [hfresh report hreport]
  refine ⟨by rw [hnil]; exact List.nodup_nil, by simp [hnil], ?_⟩
  intro report hreport hscheduled
  rw [hfresh report hreport] at hscheduled
  exact absurd hscheduled (by simp)

end

/-- After any history of discoveries, sweeps and reruns, a sweep ends: from some number of
discoveries on it changes nothing.  Then the windows with a report are exactly the due
ones, each with one original; and the latest due window is the one that staff reruns. -/
theorem report_windows_complete {campaign : Campaign} {start endAt now : Int}
    {reports : List CampaignReport} {events : List ReportEvent}
    (hcampaign : Reporting campaign start endAt)
    (hfresh : ∀ report ∈ reports, isScheduled campaign.id report = false)
    (hnow : ∀ event ∈ events, event.now ≤ now) :
    (∃ n swept, (∀ m, n ≤ m → sweep campaign now m (history campaign reports events) = swept)
        ∧ (originals campaign.id swept).Nodup
        ∧ ∀ window, window ∈ originals campaign.id swept ↔ Due start endAt now window)
      ∧ (∀ window, latestDueWindow start endAt now = some window →
          Due start endAt now window
            ∧ ∀ window', Due start endAt now window' → window'.dueAt ≤ window.dueAt)
      ∧ (latestDueWindow start endAt now = none ↔ ∀ window, ¬ Due start endAt now window) := by
  refine ⟨?_, fun _ h => latestDueWindow_some h, latestDueWindow_none hcampaign.nonempty⟩
  have hrecorded : Recorded campaign start endAt now (history campaign reports events) :=
    (recorded_of_fresh hfresh).history hcampaign hnow
  refine ⟨(dueWindows start endAt now).length + 1, sweep campaign now
    ((dueWindows start endAt now).length + 1) (history campaign reports events), ?_, ?_, ?_⟩
  · intro m hm
    rcases Nat.exists_eq_add_of_le hm with ⟨k, rfl⟩
    rw [sweep_add]
    exact sweep_of_none hcampaign (sweep_complete hcampaign hrecorded (Nat.lt_succ_self _)) k
  · exact (hrecorded.sweep hcampaign (le_refl now) _).nodup
  · intro window
    constructor
    · exact (hrecorded.sweep hcampaign (le_refl now) _).due window
    · intro hdue
      have hknown := nextDueWindow_none hcampaign.nonempty
        (sweep_complete hcampaign hrecorded (Nat.lt_succ_self _)) window hdue
      exact (hrecorded.sweep hcampaign (le_refl now) _).original_of_known hdue.isWindow hknown

/-- Two weeks, so that the second week ends with the campaign. -/
def fortnight : Campaign :=
  { id := 1, status := .active, startAt := some 0, endAt := some (2 * week) }

/-- A sweep on time and a staff rerun of the first week. -/
def firstWeek : List ReportEvent :=
  [.sweep week 2,
    .rerun (week + 1) (.ok ()) { reportId := 7, actorUserId := 5, requestId := 9, fingerprint := "r" }
      (.ok ())]

theorem report_windows_complete_fortnight :
    ∃ n, ∀ m, n ≤ m → ∀ window,
      window ∈ originals fortnight.id
          (sweep fortnight (2 * week) m (history fortnight [] firstWeek))
        ↔ Due 0 (2 * week) (2 * week) window := by
  have hcampaign : Reporting fortnight 0 (2 * week) := ⟨rfl, rfl, rfl, by decide⟩
  have hnow : ∀ event ∈ firstWeek, event.now ≤ 2 * week := by
    intro event hevent
    rcases List.mem_cons.mp hevent with rfl | hevent
    · decide
    · rw [List.mem_singleton.mp hevent]
      decide
  have hfresh : ∀ report ∈ ([] : List CampaignReport),
      isScheduled fortnight.id report = false := by simp
  rcases (report_windows_complete hcampaign hfresh hnow).1 with ⟨n, swept, hswept, _, hwindows⟩
  refine ⟨n, ?_⟩
  intro m hm window
  rw [hswept m hm]
  exact hwindows window

end Reports
end Mobility
