import Mathlib.Data.List.Nodup
import Mathlib.Tactic.Positivity
import Mobility.Email.Delivery
import Mobility.Lib.Table

/-!
# Fencing — what the token, the lease and the counter guarantee

A run is open from its claim until its send came to something.  While a run is open and
the notification is pending, the next claim has to wait for the run's lease: either the
lease is still on the row, or what replaced it there ends later.
-/

namespace Mobility
namespace Email

open Lib

variable {settings : Settings} {id : Id} {channel : NotificationChannel} {d d' : Delivery}

/-! ## Phases -/

/-- The run may still call the provider, or is calling it. -/
def Phase.IsOpen : Phase → Prop
  | .claimed _ | .sending _ => True
  | .answered _ | .over => False

theorem run?_eq_some {token : Token} {run : Run} (h : d.run? token = some run) :
    run ∈ d.runs ∧ run.token = token :=
  mem_of_lookup h

@[simp]
theorem setPhase_tokens (token : Token) (phase : Phase) :
    (d.setPhase token phase).runs.map (·.token) = d.runs.map (·.token) := by
  refine keys_of_map _ _ _ ?_
  intro run
  split_ifs <;> rfl

/-- A run after a phase change, and the run it was. -/
theorem mem_setPhase {token : Token} {phase : Phase} {run' : Run}
    (h : run' ∈ (d.setPhase token phase).runs) :
    ∃ run ∈ d.runs, run'.token = run.token ∧ run'.now = run.now
      ∧ (run.token = token ∧ run'.phase = phase ∨ run.token ≠ token ∧ run' = run) := by
  rcases List.mem_map.mp h with ⟨run, hrun, rfl⟩
  refine ⟨run, hrun, ?_⟩
  split_ifs with htoken
  · exact ⟨rfl, rfl, .inl ⟨htoken, rfl⟩⟩
  · exact ⟨rfl, rfl, .inr ⟨htoken, rfl⟩⟩

theorem setPhase_mem {token : Token} {phase : Phase} {run : Run} (h : run ∈ d.runs)
    (htoken : run.token = token) : { run with phase := phase } ∈ (d.setPhase token phase).runs :=
  List.mem_map.mpr ⟨run, h, if_pos htoken⟩

theorem setPhase_other {token : Token} {phase : Phase} {run : Run} (h : run ∈ d.runs)
    (htoken : run.token ≠ token) : run ∈ (d.setPhase token phase).runs :=
  List.mem_map.mpr ⟨run, h, if_neg htoken⟩

/-! ## The invariant -/

/-- The next claim of a pending notification waits at least until `moment`. -/
def Notification.WaitsFor (notice : Notification) (moment : Int) : Prop :=
  notice.deliveryClaimExpiresAt.any (moment ≤ ·) = true ∨ notice.nextAttemptAt.any (moment ≤ ·) = true

structure Fenced (settings : Settings) (id : Id) (d : Delivery) : Prop where
  identity : d.notice.id = id
  tokens : (d.runs.map (·.token)).Nodup
  attempts : d.runs.length = d.notice.attemptCount
  bounded : d.notice.attemptCount ≤ settings.emailDeliveryMaxAttempts
  keys : ∀ call ∈ d.calls, call.2.idempotencyKey = id
  calls : (d.calls.map (·.1)).Nodup
  called : ∀ call ∈ d.calls, ∃ run ∈ d.runs, run.token = call.1
    ∧ ∀ recipient, run.phase ≠ .claimed recipient
  outcomes : (d.outcomes.map (·.1)).Nodup
  recorded : ∀ outcome ∈ d.outcomes, ∃ run ∈ d.runs, run.token = outcome.1 ∧ run.phase = .over
  final : d.notice.status ≠ .pending → d.notice.deliveryClaimToken = none
  current : ∀ token, d.notice.deliveryClaimToken = some token → ∃ before run,
    d.runs = before ++ [run] ∧ run.token = token
      ∧ d.notice.deliveryClaimExpiresAt = some (run.leaseEnd settings)
  leases : d.runs.Pairwise (fun run later => run.phase.IsOpen → run.leaseEnd settings ≤ later.now)
  waits : d.notice.status = .pending → ∀ run ∈ d.runs, run.phase.IsOpen →
    d.notice.WaitsFor (run.leaseEnd settings)

/-- A claim is let through only after what the row waits for. -/
theorem waited_of_claimable {now moment : Int} {notice : Notification}
    (h : ¬ notice.Unclaimable now) (hwaits : notice.WaitsFor moment) : moment ≤ now := by
  simp only [Notification.Unclaimable, not_or, not_not] at h
  rcases h with ⟨_, _, hnext, hexpires⟩
  rcases hwaits with hwaits | hwaits
  · rcases (Option.any_eq_true _ _).mp hwaits with ⟨expires, hsome, hle⟩
    simp only [hsome, Option.any_some, decide_eq_true_eq, not_lt] at hexpires hle
    exact hle.trans hexpires
  · rcases (Option.any_eq_true _ _).mp hwaits with ⟨next, hsome, hle⟩
    simp only [hsome, Option.any_some, decide_eq_true_eq, not_lt] at hnext hle
    exact hle.trans hnext

theorem Fenced.init : Fenced settings id (deliveries settings id channel).init where
  identity := rfl
  tokens := List.nodup_nil
  attempts := rfl
  bounded := Nat.zero_le _
  keys := fun _ h => absurd h List.not_mem_nil
  calls := List.nodup_nil
  called := fun _ h => absurd h List.not_mem_nil
  outcomes := List.nodup_nil
  recorded := fun _ h => absurd h List.not_mem_nil
  final := fun _ => rfl
  current := fun _ h => absurd h (by simp [deliveries])
  leases := .nil
  waits := fun _ _ h => absurd h List.not_mem_nil

/-! ## Phase changes -/

/-- Moving a run on, without a call and without a write, keeps the fence. -/
theorem Fenced.setPhase (h : Fenced settings id d) {token : Token} {run : Run}
    (hrun : d.run? token = some run) {phase : Phase} (hopen : phase.IsOpen → run.phase.IsOpen)
    (hclaimed : ∀ recipient, phase ≠ .claimed recipient)
    (hover : run.phase = .over → phase = .over) :
    Fenced settings id (d.setPhase token phase) := by
  rcases run?_eq_some hrun with ⟨hmem, htoken⟩
  have hself : ∀ other ∈ d.runs, other.token = token → other = run := fun other hother hsame =>
    eq_of_key_eq h.tokens hother hmem (hsame.trans htoken.symm)
  -- a run that is open after the move was open before it
  have hstays : ∀ run' ∈ (d.setPhase token phase).runs, run'.phase.IsOpen →
      ∃ before ∈ d.runs, before.now = run'.now ∧ before.phase.IsOpen := by
    intro run' hrun' hisOpen
    rcases mem_setPhase hrun' with ⟨before, hbefore, _, hnow, ⟨hsame, hphase⟩ | ⟨_, rfl⟩⟩
    · rw [hphase] at hisOpen
      exact ⟨before, hbefore, hnow.symm, hself before hbefore hsame ▸ hopen hisOpen⟩
    · exact ⟨run', hbefore, rfl, hisOpen⟩
  refine {
    identity := h.identity
    tokens := (setPhase_tokens token phase).symm ▸ h.tokens
    attempts := (List.length_map _).trans h.attempts
    bounded := h.bounded
    keys := h.keys
    calls := h.calls
    called := ?_
    outcomes := h.outcomes
    recorded := ?_
    final := h.final
    current := ?_
    leases := ?_
    waits := ?_ }
  · -- who called has left the claimed phase
    intro call hcall
    rcases h.called call hcall with ⟨caller, hcaller, hid, hphase⟩
    by_cases hsame : caller.token = token
    · exact ⟨_, setPhase_mem hcaller hsame, hid, hclaimed⟩
    · exact ⟨caller, setPhase_other hcaller hsame, hid, hphase⟩
  · -- who wrote an outcome is over
    intro outcome houtcome
    rcases h.recorded outcome houtcome with ⟨writer, hwriter, hid, hphase⟩
    by_cases hsame : writer.token = token
    · refine ⟨_, setPhase_mem hwriter hsame, hid, hover ?_⟩
      rw [← hself writer hwriter hsame]
      exact hphase
    · exact ⟨writer, setPhase_other hwriter hsame, hid, hphase⟩
  · -- the claim still belongs to the last run
    intro other hother
    rcases h.current other hother with ⟨before, last, hruns, hid, hexpires⟩
    have hmap : (d.setPhase token phase).runs = before.map (fun run =>
        if run.token = token then { run with phase := phase } else run)
          ++ [if last.token = token then { last with phase := phase } else last] := by
      simp [Delivery.setPhase, hruns]
    refine ⟨_, _, hmap, ?_, ?_⟩
    · split_ifs
      · exact hid
      · exact hid
    · split_ifs
      · exact hexpires
      · exact hexpires
  · refine List.pairwise_map.mpr (h.leases.imp_of_mem ?_)
    intro earlier later hearlier _ hlease hisOpen
    have hnow : ∀ run : Run, (if run.token = token then { run with phase := phase } else run).now
        = run.now := by
      intro run
      split_ifs <;> rfl
    rw [hnow later, Run.leaseEnd, hnow earlier]
    refine hlease ?_
    split_ifs at hisOpen with hsame
    · exact hself earlier hearlier hsame ▸ hopen hisOpen
    · exact hisOpen
  · intro hpending run' hrun' hisOpen
    rcases hstays run' hrun' hisOpen with ⟨before, hbefore, hnow, hbeforeOpen⟩
    have hwaits := h.waits hpending before hbefore hbeforeOpen
    rw [Run.leaseEnd, hnow] at hwaits
    exact hwaits

/-! ## Steps -/

theorem not_waiting {notice : Notification} {now : Int} (h : ¬ notice.Unclaimable now) :
    notice.channel = .transactionalEmail ∧ notice.status = .pending := by
  simp only [Notification.Unclaimable, not_or, not_not] at h
  exact ⟨h.1, h.2.1⟩

/-- What a claim does: nothing, close the notification, or take it. -/
theorem claim_cases (settings : Settings) (token : Token) (now : Int) (preference : Preference)
    (notice : Notification) :
    claim settings token now preference notice = (notice, none)
      ∨ (¬ notice.Unclaimable now ∧ ∃ closed,
          claim settings token now preference notice = (closed, none) ∧ closed.id = notice.id
            ∧ closed.status = .failed ∧ closed.attemptCount = notice.attemptCount
            ∧ closed.deliveryClaimToken = none)
      ∨ (¬ notice.Unclaimable now ∧ notice.attemptCount < settings.emailDeliveryMaxAttempts
          ∧ ∃ recipient, claim settings token now preference notice
            = ({ notice with
                attemptCount := notice.attemptCount + 1
                deliveryClaimToken := some token
                deliveryClaimExpiresAt := some (now + settings.emailDeliveryClaim)
                lastErrorCode := none }, some recipient)) := by
  unfold claim
  split_ifs with hwaiting hexhausted
  · exact .inl rfl
  · exact .inr (.inl ⟨hwaiting, _, rfl, rfl, rfl, rfl, rfl⟩)
  · cases preference with
    | error code => exact .inr (.inl ⟨hwaiting, _, rfl, rfl, rfl, rfl, rfl⟩)
    | ok recipient => exact .inr (.inr ⟨hwaiting, not_le.mp hexhausted, recipient, rfl⟩)

/-- What an outcome writes: the claim is given back, and a notification that stays pending
waits for its retry. -/
theorem recordOutcome_row (settings : Settings) (now : Int) (submission : Submission)
    (notice : Notification) :
    (recordOutcome settings now submission notice).id = notice.id
      ∧ (recordOutcome settings now submission notice).attemptCount = notice.attemptCount
      ∧ (recordOutcome settings now submission notice).deliveryClaimToken = none
      ∧ ((recordOutcome settings now submission notice).status = .pending →
          (recordOutcome settings now submission notice).nextAttemptAt
            = some (retryAt settings now notice.attemptCount)) := by
  unfold recordOutcome
  cases submission with
  | ok providerMessageId => exact ⟨rfl, rfl, rfl, fun h => absurd h (by simp)⟩
  | error failure =>
      dsimp only
      split_ifs
      · exact ⟨rfl, rfl, rfl, fun _ => rfl⟩
      · exact ⟨rfl, rfl, rfl, fun h => absurd h (by simp)⟩

theorem le_retryAt (settings : Settings) (now : Int) (attemptCount : Nat) :
    now ≤ retryAt settings now attemptCount := by
  have hdelay : (0 : Int) ≤ settings.emailDeliveryRetryBase * 2 ^ (attemptCount - 1) := by positivity
  unfold retryAt
  omega

/-- Closing the notification leaves nobody to wait. -/
theorem Fenced.close (h : Fenced settings id d) {closed : Notification}
    (hid : closed.id = d.notice.id) (hstatus : closed.status = .failed)
    (hattempts : closed.attemptCount = d.notice.attemptCount)
    (htoken : closed.deliveryClaimToken = none) :
    Fenced settings id { d with notice := closed } where
  identity := hid.trans h.identity
  tokens := h.tokens
  attempts := h.attempts.trans hattempts.symm
  bounded := hattempts ▸ h.bounded
  keys := h.keys
  calls := h.calls
  called := h.called
  outcomes := h.outcomes
  recorded := h.recorded
  final := fun _ => htoken
  current := fun _ hsome => absurd (htoken.symm.trans hsome) (by simp)
  leases := h.leases
  waits := fun hpending => absurd (hstatus.symm.trans hpending) (by simp)

/-- A new claim comes after every lease that still runs. -/
theorem Fenced.claim (h : Fenced settings id d) {token : Token} {now : Int} {recipient : String}
    (hfresh : ∀ run ∈ d.runs, run.token ≠ token) (hdue : ¬ d.notice.Unclaimable now)
    (hleft : d.notice.attemptCount < settings.emailDeliveryMaxAttempts) :
    Fenced settings id { d with
      notice := { d.notice with
        attemptCount := d.notice.attemptCount + 1
        deliveryClaimToken := some token
        deliveryClaimExpiresAt := some (now + settings.emailDeliveryClaim)
        lastErrorCode := none }
      runs := d.runs ++ [{ token := token, now := now, phase := .claimed recipient }] } := by
  have hpending := (not_waiting hdue).2
  have hlease : ∀ run ∈ d.runs, run.phase.IsOpen → run.leaseEnd settings ≤ now :=
    fun run hrun hisOpen => waited_of_claimable hdue (h.waits hpending run hrun hisOpen)
  refine {
    identity := h.identity
    tokens := nodup_map_append h.tokens hfresh
    attempts := by simp [h.attempts]
    bounded := hleft
    keys := h.keys
    calls := h.calls
    called := ?_
    outcomes := h.outcomes
    recorded := ?_
    final := fun hnot => absurd hpending hnot
    current := ?_
    leases := ?_
    waits := ?_ }
  · intro call hcall
    rcases h.called call hcall with ⟨run, hrun, hphase⟩
    exact ⟨run, List.mem_append_left _ hrun, hphase⟩
  · intro outcome houtcome
    rcases h.recorded outcome houtcome with ⟨run, hrun, hphase⟩
    exact ⟨run, List.mem_append_left _ hrun, hphase⟩
  · intro other hother
    exact ⟨d.runs, _, rfl, Option.some.inj hother, rfl⟩
  · refine List.pairwise_append.mpr ⟨h.leases, List.pairwise_singleton _ _, ?_⟩
    intro run hrun new hnew hisOpen
    rw [List.mem_singleton.mp hnew]
    exact hlease run hrun hisOpen
  · intro _ run hrun hisOpen
    -- the new lease outlasts the old ones, and its own run waits for itself
    have hle : run.leaseEnd settings ≤ now + settings.emailDeliveryClaim := by
      rcases List.mem_append.mp hrun with hrun | hrun
      · exact (hlease run hrun hisOpen).trans (by omega)
      · rw [List.mem_singleton.mp hrun]
        exact le_refl _
    exact .inl (by simpa using hle)

/-- A recorded outcome releases the claim of the latest run, whose clock is past every
lease that still runs. -/
theorem Fenced.record (h : Fenced settings id d) {token : Token} {run : Run}
    (hrun : d.run? token = some run) {submission : Submission}
    (hphase : run.phase = .answered submission)
    (hcurrent : d.notice.deliveryClaimToken = some token) :
    Fenced settings id { d.setPhase token .over with
      notice := recordOutcome settings run.now submission d.notice
      outcomes := d.outcomes ++ [(token, submission)] } := by
  have hmoved : Fenced settings id (d.setPhase token .over) :=
    h.setPhase hrun (fun hisOpen => hisOpen.elim) (fun _ => by simp) (by simp [hphase])
  rcases run?_eq_some hrun with ⟨hmem, htoken⟩
  rcases recordOutcome_row settings run.now submission d.notice with
    ⟨hid, hattempts, hreleased, hretry⟩
  rcases h.current token hcurrent with ⟨before, last, hruns, hlast, _⟩
  have hself : last = run :=
    eq_of_key_eq h.tokens (hruns ▸ List.mem_append_right _ (List.mem_singleton.mpr rfl)) hmem
      (hlast.trans htoken.symm)
  refine {
    identity := hid.trans h.identity
    tokens := hmoved.tokens
    attempts := hmoved.attempts.trans hattempts.symm
    bounded := by rw [hattempts]; exact h.bounded
    keys := h.keys
    calls := h.calls
    called := hmoved.called
    outcomes := ?_
    recorded := ?_
    final := fun _ => hreleased
    current := fun _ hsome => absurd (hreleased.symm.trans hsome) (by simp)
    leases := hmoved.leases
    waits := ?_ }
  · -- a run that wrote is over, and this one still had its answer
    refine nodup_map_append h.outcomes ?_
    intro outcome houtcome hsame
    rcases h.recorded outcome houtcome with ⟨writer, hwriter, hid', hover⟩
    have hwriterRun : writer = run :=
      eq_of_key_eq h.tokens hwriter hmem (hid'.trans (hsame.trans htoken.symm))
    rw [hwriterRun, hphase] at hover
    exact absurd hover (by simp)
  · intro outcome houtcome
    rcases List.mem_append.mp houtcome with houtcome | houtcome
    · exact hmoved.recorded outcome houtcome
    · rw [List.mem_singleton.mp houtcome]
      exact ⟨_, setPhase_mem hmem htoken, htoken, rfl⟩
  · intro hpending other hother hisOpen
    rcases mem_setPhase hother with ⟨was, hwas, _, hnow, ⟨_, hover⟩ | ⟨hne, rfl⟩⟩
    · rw [hover] at hisOpen
      exact hisOpen.elim
    · -- an open run is an earlier one, whose lease ended before this run started
      have hearlier : other ∈ before := by
        rw [hruns] at hwas
        rcases List.mem_append.mp hwas with hbefore | hlast'
        · exact hbefore
        · exact absurd ((List.mem_singleton.mp hlast') ▸ hlast) hne
      have hpair := h.leases
      rw [hruns] at hpair
      have hlease : other.leaseEnd settings ≤ run.now :=
        hself ▸ (List.pairwise_append.mp hpair).2.2 other hearlier last (by simp) hisOpen
      refine .inr ?_
      rw [hretry hpending]
      simpa using hlease.trans (le_retryAt settings run.now d.notice.attemptCount)

/-- The one provider call of a run, started in the claimed phase. -/
theorem Fenced.send (h : Fenced settings id d) {token : Token} {run : Run}
    (hrun : d.run? token = some run) {recipient : String}
    (hphase : run.phase = .claimed recipient) (rendered : RenderedEmail) :
    Fenced settings id { d.setPhase token (.sending (messageFor d.notice recipient rendered)) with
      calls := d.calls ++ [(token, messageFor d.notice recipient rendered)] } := by
  have hmoved : Fenced settings id
      (d.setPhase token (.sending (messageFor d.notice recipient rendered))) :=
    h.setPhase hrun (fun _ => hphase ▸ trivial) (fun _ => by simp) (by simp [hphase])
  rcases run?_eq_some hrun with ⟨hmem, htoken⟩
  refine {
    identity := hmoved.identity
    tokens := hmoved.tokens
    attempts := hmoved.attempts
    bounded := hmoved.bounded
    keys := ?_
    calls := ?_
    called := ?_
    outcomes := hmoved.outcomes
    recorded := hmoved.recorded
    final := hmoved.final
    current := hmoved.current
    leases := hmoved.leases
    waits := hmoved.waits }
  · intro call hcall
    rcases List.mem_append.mp hcall with hcall | hcall
    · exact h.keys call hcall
    · rw [List.mem_singleton.mp hcall]
      exact h.identity
  · -- a run that called is past the claimed phase, so this one never did
    refine nodup_map_append h.calls ?_
    intro call hcall hsame
    rcases h.called call hcall with ⟨caller, hcaller, hid, hnot⟩
    have hcallerRun : caller = run :=
      eq_of_key_eq h.tokens hcaller hmem (hid.trans (hsame.trans htoken.symm))
    exact hnot recipient (hcallerRun ▸ hphase)
  · intro call hcall
    rcases List.mem_append.mp hcall with hcall | hcall
    · exact hmoved.called call hcall
    · rw [List.mem_singleton.mp hcall]
      exact ⟨_, setPhase_mem hmem htoken, htoken, fun _ => by simp⟩

/-- What one step does to a delivery. -/
inductive Moves (settings : Settings) (d : Delivery) : Action → Delivery → Prop
  | skip (token : Token) (now : Int) (preference : Preference) :
      Moves settings d (.claim token now preference) { d with notice := d.notice }
  | close (token : Token) (now : Int) (preference : Preference) (closed : Notification)
      (hdue : ¬ d.notice.Unclaimable now) (hid : closed.id = d.notice.id)
      (hstatus : closed.status = .failed)
      (hattempts : closed.attemptCount = d.notice.attemptCount)
      (htoken : closed.deliveryClaimToken = none) :
      Moves settings d (.claim token now preference) { d with notice := closed }
  | claim (token : Token) (now : Int) (preference : Preference) (recipient : String)
      (hfresh : ∀ run ∈ d.runs, run.token ≠ token) (hdue : ¬ d.notice.Unclaimable now)
      (hleft : d.notice.attemptCount < settings.emailDeliveryMaxAttempts) :
      Moves settings d (.claim token now preference) { d with
        notice := { d.notice with
          attemptCount := d.notice.attemptCount + 1
          deliveryClaimToken := some token
          deliveryClaimExpiresAt := some (now + settings.emailDeliveryClaim)
          lastErrorCode := none }
        runs := d.runs ++ [{ token := token, now := now, phase := .claimed recipient }] }
  | refuse (token : Token) (code : String) (run : Run) (recipient : String)
      (hrun : d.run? token = some run) (hphase : run.phase = .claimed recipient) :
      Moves settings d (.render token (.error code))
        (d.setPhase token (.answered (.error { code := code, retryable := false })))
  | send (token : Token) (rendered : RenderedEmail) (run : Run) (recipient : String)
      (hrun : d.run? token = some run) (hphase : run.phase = .claimed recipient) :
      Moves settings d (.render token (.ok rendered))
        { d.setPhase token (.sending (messageFor d.notice recipient rendered)) with
          calls := d.calls ++ [(token, messageFor d.notice recipient rendered)] }
  | answer (token : Token) (submission : Submission) (run : Run) (message : EmailMessage)
      (hrun : d.run? token = some run) (hphase : run.phase = .sending message) :
      Moves settings d (.answer token submission) (d.setPhase token (.answered submission))
  | record (token : Token) (run : Run) (submission : Submission)
      (hrun : d.run? token = some run) (hphase : run.phase = .answered submission)
      (hcurrent : d.notice.deliveryClaimToken = some token) :
      Moves settings d (.record token) { d.setPhase token .over with
        notice := recordOutcome settings run.now submission d.notice
        outcomes := d.outcomes ++ [(token, submission)] }
  | stale (token : Token) (run : Run) (submission : Submission)
      (hrun : d.run? token = some run) (hphase : run.phase = .answered submission) :
      Moves settings d (.record token) (d.setPhase token .over)

theorem step_moves {action : Action} (h : step settings d action = .ok d') :
    Moves settings d action d' := by
  cases action with
  | claim token now preference =>
      rcases bind_eq_ok.mp h with ⟨_, hfresh, h⟩
      have hfresh := require_eq_ok.mp hfresh
      rcases claim_cases settings token now preference d.notice with
        hskip | ⟨hdue, closed, hclose, hid, hstatus, hattempts, htoken⟩
          | ⟨hdue, hleft, recipient, htaken⟩
      · simp only [hskip] at h
        rcases pure_eq_ok.mp h with rfl
        exact .skip token now preference
      · simp only [hclose] at h
        rcases pure_eq_ok.mp h with rfl
        exact .close token now preference closed hdue hid hstatus hattempts htoken
      · simp only [htaken] at h
        rcases pure_eq_ok.mp h with rfl
        exact .claim token now preference recipient hfresh hdue hleft
  | render token rendered =>
      rcases bind_eq_ok.mp h with ⟨run, hrun, h⟩
      have hrun := demand_eq_ok.mp hrun
      rcases run with ⟨runToken, now, phase⟩
      cases phase with
      | claimed recipient =>
          cases rendered with
          | error code =>
              rcases pure_eq_ok.mp h with rfl
              exact .refuse token code _ recipient hrun rfl
          | ok rendered =>
              rcases pure_eq_ok.mp h with rfl
              exact .send token rendered _ recipient hrun rfl
      -- a run in any other phase has no message to render
      | _ => cases rendered <;> cases h
  | answer token submission =>
      rcases bind_eq_ok.mp h with ⟨run, hrun, h⟩
      have hrun := demand_eq_ok.mp hrun
      rcases run with ⟨runToken, now, phase⟩
      cases phase with
      | sending message =>
          rcases pure_eq_ok.mp h with rfl
          exact .answer token submission _ message hrun rfl
      | _ => cases h
  | record token =>
      rcases bind_eq_ok.mp h with ⟨run, hrun, h⟩
      have hrun := demand_eq_ok.mp hrun
      rcases run with ⟨runToken, now, phase⟩
      cases phase with
      | answered submission =>
          dsimp only at h
          split_ifs at h with hcurrent
          · rcases pure_eq_ok.mp h with rfl
            exact .record token _ submission hrun rfl hcurrent
          · rcases pure_eq_ok.mp h with rfl
            exact .stale token _ submission hrun rfl
      | _ => cases h

theorem fenced_step {action : Action} (h : Fenced settings id d)
    (hstep : step settings d action = .ok d') : Fenced settings id d' := by
  cases step_moves hstep with
  | skip token now preference => exact h
  | close token now preference closed hdue hid hstatus hattempts htoken =>
      exact h.close hid hstatus hattempts htoken
  | claim token now preference recipient hfresh hdue hleft => exact h.claim hfresh hdue hleft
  | refuse token code run recipient hrun hphase =>
      exact h.setPhase hrun (fun hisOpen => hisOpen.elim) (fun _ => by simp) (by simp [hphase])
  | send token rendered run recipient hrun hphase => exact h.send hrun hphase rendered
  | answer token submission run message hrun hphase =>
      exact h.setPhase hrun (fun hisOpen => hisOpen.elim) (fun _ => by simp) (by simp [hphase])
  | record token run submission hrun hphase hcurrent => exact h.record hrun hphase hcurrent
  | stale token run submission hrun hphase =>
      exact h.setPhase hrun (fun hisOpen => hisOpen.elim) (fun _ => by simp) (by simp [hphase])

theorem fenced_of_reachable (h : Reachable (deliveries settings id channel) d) :
    Fenced settings id d :=
  ReachableBy.invariant (Fenced settings id) .init
    (fun _ _ _ hfenced _ hstep => fenced_step hfenced hstep) h

/-! ## What the fence gives -/

/-- Every call is a run's, and there are as many runs as attempts. -/
theorem Fenced.calls_le (h : Fenced settings id d) :
    d.calls.length ≤ settings.emailDeliveryMaxAttempts := by
  have hsub : d.calls.map (·.1) ⊆ d.runs.map (·.token) := by
    intro token htoken
    rcases List.mem_map.mp htoken with ⟨call, hcall, rfl⟩
    rcases h.called call hcall with ⟨run, hrun, hid, _⟩
    exact List.mem_map.mpr ⟨run, hrun, hid⟩
  calc d.calls.length = (d.calls.map (·.1)).length := (List.length_map _).symm
    _ ≤ (d.runs.map (·.token)).length := (h.calls.subperm hsub).length_le
    _ = d.notice.attemptCount := (List.length_map _).trans h.attempts
    _ ≤ settings.emailDeliveryMaxAttempts := h.bounded

/-- Calls in progress together: the lease of the earlier claim was over at the later one. -/
theorem Fenced.overlap (h : Fenced settings id d) :
    d.runs.Pairwise (fun earlier later => earlier.Sending → later.Sending →
      earlier.leaseEnd settings ≤ later.now) := by
  refine h.leases.imp ?_
  intro earlier later hlease hsending _
  rcases hsending with ⟨message, hphase⟩
  exact hlease (hphase ▸ trivial)

/-- A notification that is no longer pending is not written. -/
theorem step_final {action : Action} (h : Fenced settings id d)
    (hfinal : d.notice.status ≠ .pending) (hstep : step settings d action = .ok d') :
    d'.notice = d.notice := by
  cases step_moves hstep with
  | close _ _ _ _ hdue => exact absurd (not_waiting hdue).2 hfinal
  | claim _ _ _ _ _ hdue => exact absurd (not_waiting hdue).2 hfinal
  | record token _ _ _ _ hcurrent =>
      have hreleased := h.final hfinal
      rw [hreleased] at hcurrent
      cases hcurrent
  | _ => rfl

/-- Outcomes are written only under the row's current token. -/
theorem step_outcomes {action : Action} (hstep : step settings d action = .ok d') :
    d'.outcomes = d.outcomes
      ∨ ∃ token submission, d'.outcomes = d.outcomes ++ [(token, submission)]
          ∧ d.notice.deliveryClaimToken = some token := by
  cases step_moves hstep with
  | record token _ submission _ _ hcurrent => exact .inr ⟨token, submission, rfl, hcurrent⟩
  | _ => exact .inl rfl

/-- The fencing of one notification's email, over every interleaving of its workers. -/
theorem email_delivery_fenced (settings : Settings) (id : Id) (channel : NotificationChannel)
    (d : Delivery) (h : Reachable (deliveries settings id channel) d) :
    (d.calls.length ≤ settings.emailDeliveryMaxAttempts
      ∧ ∀ call ∈ d.calls, call.2.idempotencyKey = id)
    ∧ (d.outcomes.map (·.1)).Nodup
    ∧ d.runs.Pairwise (fun earlier later => earlier.Sending → later.Sending →
        earlier.leaseEnd settings ≤ later.now)
    ∧ ∀ action d', (deliveries settings id channel).step d action = .ok d' →
        (d.notice.status ≠ .pending → d'.notice = d.notice)
        ∧ (d'.outcomes = d.outcomes
            ∨ ∃ token submission, d'.outcomes = d.outcomes ++ [(token, submission)]
                ∧ d.notice.deliveryClaimToken = some token) := by
  have hfenced := fenced_of_reachable h
  refine ⟨⟨hfenced.calls_le, hfenced.keys⟩, hfenced.outcomes, hfenced.overlap, ?_⟩
  intro action d' hstep
  exact ⟨fun hfinal => step_final hfenced hfinal hstep, step_outcomes hstep⟩

def sampleEmail : RenderedEmail :=
  { subject := "Campaign offer", textBody := "Log in", htmlBody := "<p>Log in</p>" }

/-- The first worker stalls in its call, its lease runs out, a second one sends, and the
first one's result comes late. -/
def stalledWorker : List Action :=
  [.claim 1 0 (.ok "driver@example.com"), .render 1 (.ok sampleEmail),
    .claim 2 120000000 (.ok "driver@example.com"), .render 2 (.ok sampleEmail),
    .answer 2 (.ok "message-2"), .record 2, .answer 1 (.ok "message-1"), .record 1]

theorem email_delivery_fenced_stalled :
    ∃ d, Reachable (deliveries {} 7 .transactionalEmail) d
      ∧ d.notice.providerMessageId = some "message-2" ∧ d.calls.length = 2
      ∧ d.calls.length ≤ 5 ∧ (∀ call ∈ d.calls, call.2.idempotencyKey = 7)
      ∧ (d.outcomes.map (·.1)).Nodup := by
  rcases (deliveries {} 7 .transactionalEmail).exists_reachable stalledWorker
    (fun d => d.notice.providerMessageId = some "message-2" ∧ d.calls.length = 2) (by decide)
    with ⟨d, hd, htest⟩
  have htest := of_decide_eq_true htest
  have hfenced := email_delivery_fenced {} 7 .transactionalEmail d hd
  exact ⟨d, hd, htest.1, htest.2, hfenced.1.1, hfenced.1.2, hfenced.2.1⟩

end Email
end Mobility
