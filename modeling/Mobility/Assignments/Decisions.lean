import Mobility.Assignments.LiveJobs
import Mobility.Lib.Histories

/-!
# Decisions — the log of an assignment

The events of an assignment lead from nothing to its status through legal changes only, and
the row is the replay of its log.  Every change raises the standing of the assignment, so an
offer is decided at most once and nothing follows its end.
-/

namespace Mobility
namespace Assignments

open Lib
open Payout (Digest)
open Billing (CampaignAssignmentStatus)

/-! ## Changes of status -/

/-- What each type of event may change. -/
def legal : CampaignActivationEventType → Option CampaignAssignmentStatus →
    CampaignAssignmentStatus → Bool
  | .assigned, none, .offered => true
  | .accepted, some .offered, .accepted => true
  | .declined, some .offered, .declined => true
  | .expired, some .offered, .expired => true
  | .activated, some .accepted, .active => true
  | .deactivated, some .active, .cancelled => true
  | .cancelled, some previous, .cancelled => nonTerminal previous
  | _, _, _ => false

/-- How far an assignment has come. -/
def standing : Option CampaignAssignmentStatus → Nat
  | none => 0
  | some .offered => 1
  | some .accepted => 2
  | some .active => 3
  | some _ => 4

theorem standing_lt {eventType : CampaignActivationEventType}
    {previous : Option CampaignAssignmentStatus} {status : CampaignAssignmentStatus}
    (h : legal eventType previous status = true) : standing previous < standing (some status) := by
  revert h
  cases eventType <;> cases status <;> rcases previous with _ | previous <;>
    first | decide | (cases previous <;> decide)

theorem legal_activated {previous : Option CampaignAssignmentStatus} {status : CampaignAssignmentStatus}
    (h : legal .activated previous status = true) : previous = some .accepted ∧ status = .active := by
  rcases previous with _ | previous
  · cases status <;> exact absurd h (by decide)
  · cases previous <;> cases status <;> first | exact ⟨rfl, rfl⟩ | exact absurd h (by decide)

theorem standing_le (status : Option CampaignAssignmentStatus) : standing status ≤ 4 := by
  rcases status with _ | status
  · decide
  · cases status <;> decide

theorem standing_of_terminal {status : CampaignAssignmentStatus} (h : nonTerminal status = false) :
    standing (some status) = 4 := by
  cases status <;> first | rfl | exact absurd h (by decide)

/-! ## Replaying the log -/

/-- The row after an event. -/
def replayed (row : CampaignAssignment) (event : CampaignActivationEvent) : CampaignAssignment :=
  let at_ (eventType : CampaignActivationEventType) (before : Option Int) : Option Int :=
    if event.eventType = eventType then some event.occurredAt else before
  { row with
    status := event.newStatus
    acceptedAt := at_ .accepted row.acceptedAt
    declinedAt := at_ .declined row.declinedAt
    expiredAt := at_ .expired row.expiredAt
    activatedAt := at_ .activated row.activatedAt
    deactivatedAt := at_ .deactivated row.deactivatedAt
    cancelledAt := if event.newStatus = .cancelled then some event.occurredAt else row.cancelledAt }

/-- The row as it was offered. -/
def asOffered (row : CampaignAssignment) : CampaignAssignment :=
  { row with
    status := .offered
    acceptedAt := none
    declinedAt := none
    expiredAt := none
    activatedAt := none
    deactivatedAt := none
    cancelledAt := none }

@[simp]
theorem asOffered_replayed (row : CampaignAssignment) (event : CampaignActivationEvent) :
    asOffered (replayed row event) = asOffered row := rfl

/-- A decision of the driver stands before the expiry of the offer, an expiry not before it. -/
def KeptDeadline (expiresAt : Option Int) (event : CampaignActivationEvent) : Prop :=
  match event.eventType with
  | .accepted | .declined => expiresAt.all (event.occurredAt < ·) = true
  | .expired => expiresAt.any (· ≤ event.occurredAt) = true
  | _ => True

/-- The event carries the digest of the offer, where its type does. -/
def CarriesOffer (row : CampaignAssignment) (event : CampaignActivationEvent) : Prop :=
  event.offerTermsSha256 = if carriesOfferDigest event.eventType then row.offerTermsSha256 else none

/-! ## One move -/

/-- The entry that a move adds to the log. -/
structure Entered (now : Int) (d d' : Dossier) (event : CampaignActivationEvent) : Prop where
  assignment : d'.assignment = replayed d.assignment event
  log : d'.log = d.log ++ [event]
  previous : event.previousStatus = some d.assignment.status
  legal : legal event.eventType event.previousStatus event.newStatus = true
  occurredAt : event.occurredAt = now
  deadline : KeptDeadline d.assignment.expiresAt event
  evidence : CarriesOffer d.assignment event

section

variable [Freezing] {s : Store} {db : Database} {clock : Clock} {d d' : Dossier}
  {row : CampaignAssignment}

omit [Freezing] in
theorem not_due_of_offered {now : Int} (hoffered : row.status = .offered) (hdue : ¬ Due now row) :
    row.expiresAt.all (now < ·) = true := by
  cases hexpires : row.expiresAt with
  | none => rfl
  | some expiresAt =>
      rw [Option.all_some, decide_eq_true_eq]
      by_contra hlt
      refine hdue ⟨hoffered, ?_⟩
      rw [hexpires, Option.any_some, decide_eq_true_eq]
      exact Int.not_lt.mp hlt

/-- Every move adds one legal entry. -/
theorem DossierMove.entered (h : DossierMove s clock d d') : ∃ event, Entered clock.now d d' event := by
  cases h with
  | expired eventId hdue =>
      refine ⟨_, ⟨rfl, rfl, rfl, ?_, rfl, hdue.2, rfl⟩⟩
      simp only [activationEvent, hdue.1]
      rfl
  | accepted eventId bindingId userId metadata binding hoffered hdue =>
      exact ⟨_, ⟨rfl, rfl, congrArg some hoffered.symm, rfl, rfl, not_due_of_offered hoffered hdue, rfl⟩⟩
  | declined eventId userId metadata hoffered hdue =>
      exact ⟨_, ⟨rfl, rfl, congrArg some hoffered.symm, rfl, rfl, not_due_of_offered hoffered hdue, rfl⟩⟩
  | activated eventId userId metadata haccepted =>
      exact ⟨_, ⟨rfl, rfl, congrArg some haccepted.symm, rfl, rfl, trivial, rfl⟩⟩
  | deactivated eventId userId metadata hactive =>
      exact ⟨_, ⟨rfl, rfl, congrArg some hactive.symm, rfl, rfl, trivial, rfl⟩⟩
  | cancelled eventId userId metadata withCampaign hopen =>
      exact ⟨_, ⟨rfl, rfl, rfl, hopen, rfl, trivial, rfl⟩⟩

/-! ## The history of an assignment -/

/-- What the log tells in any order of the clock. -/
structure Recorded (d : Dossier) : Prop where
  /-- the log opens with the offer, and the row is the replay of what came after -/
  replay : ∃ first rest, d.log = first :: rest ∧ first.eventType = .assigned
    ∧ first.occurredAt = d.assignment.offeredAt
    ∧ d.assignment = rest.foldl replayed (asOffered d.assignment)
  follows : Follows (·.previousStatus) (fun event => some event.newStatus) none d.log
    (some d.assignment.status)
  legal : ∀ event ∈ d.log, legal event.eventType event.previousStatus event.newStatus = true
  deadlines : ∀ event ∈ d.log, KeptDeadline d.assignment.expiresAt event
  evidence : ∀ event ∈ d.log, CarriesOffer d.assignment event
  expires : ∃ expiresAt, d.assignment.expiresAt = some expiresAt ∧ d.assignment.offeredAt < expiresAt

/-- A record in time order, up to `now`. -/
structure History (now : Int) (d : Dossier) : Prop extends Recorded d where
  ordered : d.log.Pairwise (fun event later => event.occurredAt ≤ later.occurredAt)
  past : ∀ event ∈ d.log, event.occurredAt ≤ now

theorem Recorded.of_offered {now : Int} (h : Offered s now d) : Recorded d := by
  rcases h.log with ⟨eventId, metadata, hlog⟩
  rcases h.build with ⟨_, _, _, _, _, _, _, _, _, ⟨_, expiresAt, _, hexpires, hlater, _⟩, _⟩
  have hstatus : d.assignment.status = .offered := by rw [h.blank]
  have hofferedAt : d.assignment.offeredAt = now := by rw [h.blank]
  have hblank : d.assignment = asOffered d.assignment := by
    rw [h.blank]
    rfl
  refine ⟨⟨_, [], hlog, rfl, hofferedAt.symm, hblank⟩, ?_, ?_, ?_, ?_,
    ⟨expiresAt, hexpires, hofferedAt ▸ hlater⟩⟩
  all_goals rw [hlog]
  · exact ⟨rfl, rfl⟩
  · intro event hevent
    rw [List.mem_singleton.mp hevent]
    simp only [activationEvent, hstatus]
    rfl
  · intro event hevent
    rw [List.mem_singleton.mp hevent]
    trivial
  · intro event hevent
    rw [List.mem_singleton.mp hevent]
    rfl

theorem History.of_offered {now : Int} (h : Offered s now d) : History now d := by
  rcases h.log with ⟨eventId, metadata, hlog⟩
  refine ⟨.of_offered h, ?_, ?_⟩
  all_goals rw [hlog]
  · exact List.pairwise_singleton _ _
  · intro event hevent
    rw [List.mem_singleton.mp hevent]
    exact Int.le_refl now

omit [Freezing] in
theorem forall_mem_snoc {α : Type} {P : α → Prop} {l : List α} {x : α} (hl : ∀ y ∈ l, P y) (hx : P x) :
    ∀ y ∈ l ++ [x], P y := by
  intro y hy
  rcases List.mem_append.mp hy with hold | hnew
  · exact hl y hold
  · exact List.mem_singleton.mp hnew ▸ hx

omit [Freezing] in
theorem Recorded.entered {now : Int} {event : CampaignActivationEvent} (h : Recorded d)
    (hentered : Entered now d d' event) : Recorded d' := by
  have hoffer : asOffered d'.assignment = asOffered d.assignment := by
    rw [hentered.assignment, asOffered_replayed]
  have hexpires : d'.assignment.expiresAt = d.assignment.expiresAt := by
    rw [hentered.assignment]
    rfl
  have hcarries : ∀ other, CarriesOffer d.assignment other → CarriesOffer d'.assignment other := by
    intro other hother
    rw [hentered.assignment]
    exact hother
  have hstatus : d'.assignment.status = event.newStatus := by
    rw [hentered.assignment]
    rfl
  have hofferedAt : d'.assignment.offeredAt = d.assignment.offeredAt := by
    rw [hentered.assignment]
    rfl
  refine ⟨?_, ?_, ?_, ?_, ?_, ?_⟩
  · rcases h.replay with ⟨first, rest, hlog, hassigned, hoccurred, hreplay⟩
    refine ⟨first, rest ++ [event], ?_, hassigned, hoccurred.trans hofferedAt.symm, ?_⟩
    · rw [hentered.log, hlog, List.cons_append]
    · calc
        d'.assignment = replayed d.assignment event := hentered.assignment
        _ = replayed (rest.foldl replayed (asOffered d.assignment)) event := by rw [← hreplay]
        _ = (rest ++ [event]).foldl replayed (asOffered d'.assignment) := by
          rw [List.foldl_append, hoffer]
          rfl
  · rw [hentered.log, hstatus]
    exact h.follows.snoc hentered.previous
  · rw [hentered.log]
    exact forall_mem_snoc h.legal hentered.legal
  · rw [hentered.log, hexpires]
    exact forall_mem_snoc h.deadlines hentered.deadline
  · rw [hentered.log]
    exact forall_mem_snoc (fun old hold => hcarries old (h.evidence old hold))
      (hcarries event hentered.evidence)
  · rw [hexpires, hofferedAt]
    exact h.expires

omit [Freezing] in
theorem History.entered {before now : Int} {event : CampaignActivationEvent} (h : History before d)
    (hlater : before ≤ now) (hentered : Entered now d d' event) : History now d' := by
  refine ⟨h.toRecorded.entered hentered, ?_, ?_⟩
  · rw [hentered.log]
    refine List.pairwise_append.mpr ⟨h.ordered, List.pairwise_singleton _ _, ?_⟩
    intro old hold new hnew
    rw [List.mem_singleton.mp hnew, hentered.occurredAt]
    exact Int.le_trans (h.past old hold) hlater
  · rw [hentered.log]
    exact forall_mem_snoc (fun old hold => Int.le_trans (h.past old hold) hlater)
      (Int.le_of_eq hentered.occurredAt)

omit [Freezing] in
theorem History.later {before now : Int} (h : History before d) (hlater : before ≤ now) : History now d :=
  { h with past := fun event hevent => Int.le_trans (h.past event hevent) hlater }

/-! ## Decided once -/

/-- Accepted, declined or expired. -/
def decides (event : CampaignActivationEvent) : Bool :=
  event.previousStatus = some .offered

/-- Nothing may follow. -/
def ends (event : CampaignActivationEvent) : Bool :=
  ¬ nonTerminal event.newStatus

structure DecidedOnce (log : List CampaignActivationEvent) : Prop where
  decision : (log.filter decides).length ≤ 1
  start : (log.filter (·.eventType = .activated)).length ≤ 1
  ending : (log.filter ends).length ≤ 1

omit [Freezing] in
theorem Recorded.decidedOnce (h : Recorded d) : DecidedOnce d.log := by
  have hrises : ∀ event ∈ d.log,
      standing event.previousStatus < standing (some event.newStatus) :=
    fun event hevent => standing_lt (h.legal event hevent)
  refine ⟨?_, ?_, ?_⟩
  · refine h.follows.count_le standing hrises decides ?_
    intro event hevent later _ hdecides hlaterDecides
    have hoffered : event.previousStatus = some .offered := of_decide_eq_true hdecides
    have hlaterOffered : later.previousStatus = some .offered := of_decide_eq_true hlaterDecides
    have hrise := hrises event hevent
    rw [hoffered] at hrise
    rw [hlaterOffered]
    exact hrise
  · refine h.follows.count_le standing hrises (·.eventType = .activated) ?_
    intro event hevent later hlater hactivated hlaterActivated
    have hlegal := h.legal event hevent
    have hlaterLegal := h.legal later hlater
    rw [of_decide_eq_true hactivated] at hlegal
    rw [of_decide_eq_true hlaterActivated] at hlaterLegal
    rw [(legal_activated hlaterLegal).1, (legal_activated hlegal).2]
    decide
  · refine h.follows.count_le standing hrises ends ?_
    intro event hevent later hlater hends _
    have hterminal : nonTerminal event.newStatus = false := by simpa [ends] using hends
    calc
      standing later.previousStatus < standing (some later.newStatus) := hrises later hlater
      _ ≤ 4 := standing_le _
      _ = standing (some event.newStatus) := (standing_of_terminal hterminal).symm

/-- Whatever the clock does, the log of every assignment records it. -/
theorem recorded_of_reachable (h : Reachable platform db) (hrow : row ∈ db.store.assignments) :
    Recorded (db.store.dossier row) := by
  refine dossier_invariant (P := fun _ d => Recorded d) ?_ ?_ ?_ h _ (dossier_mem hrow)
  · intro db db' clock d _ hoffered
    exact .of_offered hoffered
  · intro db db' clock d d' _ _ hrecorded hmove
    rcases hmove.entered with ⟨event, hentered⟩
    exact hrecorded.entered hentered
  · intro db db' clock d _ _ hrecorded
    exact hrecorded

/-- In every reachable state the history of every assignment is whole: its row is the replay of
its log, every change was legal and in time, and it was decided, started and ended at most
once. -/
theorem decision_history (h : ReachableBy platform Ticks db) (hrow : row ∈ db.store.assignments) :
    History db.clock (db.store.dossier row) ∧ DecidedOnce (db.store.dossier row).log := by
  have hall : ∀ d ∈ db.store.dossiers, History db.clock d := by
    refine dossier_invariant (P := fun db d => History db.clock d) ?_ ?_ ?_ h
    · intro db db' clock d hcommitted hoffered
      rw [hcommitted.read]
      exact .of_offered hoffered
    · intro db db' clock d d' hcommitted _ hhistory hmove
      rw [hcommitted.read]
      rcases hmove.entered with ⟨event, hentered⟩
      exact hhistory.entered hcommitted.later hentered
    · intro db db' clock d hcommitted _ hhistory
      rw [hcommitted.read]
      exact hhistory.later hcommitted.later
  have hhistory := hall (db.store.dossier row) (dossier_mem hrow)
  exact ⟨hhistory, hhistory.decidedOnce⟩

omit [Freezing] in
/-- The started job was accepted once, before its expiry, and started once. -/
theorem decision_history_started :
    ∃ db, ReachableBy (@platform sampleFreezing) Ticks db ∧ ∃ row ∈ db.store.assignments,
      (db.store.dossier row).log.map (·.eventType) = [.assigned, .accepted, .activated]
        ∧ DecidedOnce (db.store.dossier row).log := by
  let _ := sampleFreezing
  rcases platform.exists_reachableBy Ticks startedJob (fun _ _ _ h => ticks_iff h)
    (fun db => db.store.assignments.any (fun row =>
      (db.store.dossier row).log.map (·.eventType) = [.assigned, .accepted, .activated]))
    (by decide +kernel) with ⟨db, hreach, htest⟩
  simp only [decide_eq_true_eq, List.any_eq_true] at htest
  rcases htest with ⟨row, hrow, hlog⟩
  exact ⟨db, hreach, row, hrow, hlog, (decision_history hreach hrow).2⟩

end

end Assignments
end Mobility
