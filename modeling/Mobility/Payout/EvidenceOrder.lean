import Mathlib.Data.Finset.Max
import Mobility.Payout.LedgerRuns

/-!
# EvidenceOrder — when the order of provider events does not matter

Provider events about a submitted line may arrive in any order and more than
once.  `Tracked` is what every delivery keeps; on top of it, a success settles the
line for good, because the trigger on the lines refuses to take it back, and so does
the newest counted event (`Settled`).  What is left to decide is how the line stands
just before that event arrives (`Awaiting`).  A failure that is newer than a success
is the one event whose effect depends on that.
-/

namespace Mobility
namespace Payout

open Lib

/-- One arrival of an event at `_apply_verified_line_evidence`. -/
structure EvidenceDelivery where
  auth : Authority
  evidence : VerifiedLineEvidence
  source : EvidenceSource := .webhook
  now : Int := 0

section Delivery

variable [Hashing]

/-- A refused event leaves the store unchanged. -/
def deliver (s : Store) (d : EvidenceDelivery) : Store :=
  match applyVerifiedLineEvidence d.auth d.evidence d.source d.now s with
  | .ok s' => s'
  | .error _ => s

def deliverAll (s : Store) (ds : List EvidenceDelivery) : Store :=
  ds.foldl deliver s

/-- What is compared: the line's status and reservation, and its entry's status. -/
def lineOutcome (s : Store) (lineId : Id) :
    Option (PayoutBatchLineStatus × Bool × Option EarningsLedgerEntryStatus) :=
  (s.lines.find? (·.id = lineId)).map
    (fun l => (l.status, l.reservationActive, (s.entry? l.ledgerEntryId).map (·.status)))

/-- `ds` delivers the events of `E` and no others, each at least once through a
source that is allowed to report it. -/
structure Delivers (ds : List EvidenceDelivery) (E : Finset VerifiedLineEvidence) : Prop where
  only : ∀ d ∈ ds, d.evidence ∈ E
  all : ∀ e ∈ E, ∃ d ∈ ds, d.evidence = e ∧ authorizeSource d.auth d.source = .ok ⟨⟩

/-- Events about one line, told apart by their ids and by their times. -/
structure EventsAbout (s : Store) (line : PayoutBatchLine) (E : Finset VerifiedLineEvidence) :
    Prop where
  about : ∀ e ∈ E, s.referencedLine? e.providerTransferReference = some line
  outcome : ∀ e ∈ E, e.outcome = .succeeded ∨ e.outcome = .failed
  ids : ∀ e ∈ E, ∀ e' ∈ E, e.providerEventId = e'.providerEventId → e = e'
  times : ∀ e ∈ E, ∀ e' ∈ E, e.occurredAt = e'.occurredAt → e = e'

/-- Any two orders of delivery, with any re-deliveries, end alike. -/
def OrderIndependent (s : Store) (line : PayoutBatchLine) (E : Finset VerifiedLineEvidence) :
    Prop :=
  ∀ ds ds' : List EvidenceDelivery, Delivers ds E → Delivers ds' E →
    lineOutcome (deliverAll s ds) line.id = lineOutcome (deliverAll s ds') line.id

/-- Paystack evidence about a Paystack line must repeat its frozen instruction. -/
def MatchesProvider (line : PayoutBatchLine) (e : VerifiedLineEvidence) : Prop :=
  line.intent.any (·.providerName = "paystack") → PaystackMatches line e

/-- The event is not refused as a mismatch, and its id is not recorded already. -/
def Counted (s : Store) (line : PayoutBatchLine) (e : VerifiedLineEvidence) : Prop :=
  MatchesProvider line e ∧ ∀ r ∈ s.events, r.providerEventId ≠ e.providerEventId

/-- The newest counted event is a failure, and some counted event is a success. -/
def FailureAfterSuccess (s : Store) (line : PayoutBatchLine) (E : Finset VerifiedLineEvidence) :
    Prop :=
  ∃ f ∈ E, Counted s line f ∧ f.outcome = .failed
    ∧ (∀ e ∈ E, Counted s line e → e.occurredAt ≤ f.occurredAt)
    ∧ ∃ g ∈ E, Counted s line g ∧ g.outcome = .succeeded

end Delivery

/-! ## One event -/

/-- The status an accepted event leaves the line in. -/
def statusAfter (line : PayoutBatchLine) (e : VerifiedLineEvidence) : PayoutBatchLineStatus :=
  if isEffective line e then
    if e.outcome = .succeeded then .succeeded else .failed
  else line.status

theorem stampEvidence_status (t : Int) (l : PayoutBatchLine) :
    (stampEvidence t l).status = l.status := by
  rcases stampEvidence_eq t l with ⟨last, hlast⟩
  rw [hlast]

theorem stampEvidence_last (t : Int) (l : PayoutBatchLine) :
    (stampEvidence t l).lastProviderEvidenceAt
      = some (l.lastProviderEvidenceAt.elim t (fun last => max last t)) := by
  unfold stampEvidence
  cases hlast : l.lastProviderEvidenceAt with
  | none => simp
  | some last =>
      by_cases hnewer : t > last
      · simp [hnewer, max_eq_right hnewer.le]
      · simp [hnewer, hlast, max_eq_left (not_lt.mp hnewer)]

section Effect

variable {line : PayoutBatchLine} {ledgerStatus : EarningsLedgerEntryStatus} {other : Bool}
  {e : VerifiedLineEvidence} {actor : Option Id} {now : Int} {effect : EvidenceEffect}

theorem evidenceEffect_status
    (h : evidenceEffect line ledgerStatus other e actor now = .ok effect) :
    effect.line.status = statusAfter line e := by
  rcases evidenceEffect_ok h with ⟨hstale, hline, _, _⟩ | ⟨heff, hsucceeded, _, hline, _, _⟩
    | ⟨heff, hfailed, _, _, ⟨_, _, hline⟩ | ⟨hold, _, hline⟩⟩
  · simp [statusAfter, hstale, hline, stampEvidence_status]
  · simp [statusAfter, heff, hsucceeded, hline, stampEvidence_status]
  · simp [statusAfter, heff, hfailed, hline, stampEvidence_status]
  · simp [statusAfter, heff, hfailed, hline, stampEvidence_status, hold]

/-- The newest time seen advances with every accepted event, applied or not. -/
theorem evidenceEffect_last
    (h : evidenceEffect line ledgerStatus other e actor now = .ok effect) :
    effect.line.lastProviderEvidenceAt
      = some (line.lastProviderEvidenceAt.elim e.occurredAt (fun last => max last e.occurredAt)) := by
  rcases evidenceEffect_ok h with ⟨_, hline, _, _⟩ | ⟨_, _, _, hline, _, _⟩
    | ⟨_, _, _, _, ⟨_, _, hline⟩ | ⟨_, _, hline⟩⟩
  all_goals rw [hline, stampEvidence_last]

/-- Evidence leaves the intent of its line alone. -/
theorem evidenceEffect_intent
    (h : evidenceEffect line ledgerStatus other e actor now = .ok effect) :
    effect.line.intent = line.intent := by
  rcases evidenceEffect_line h with ⟨last, hline | ⟨status, _, hline⟩⟩ <;> rw [hline]

theorem evidenceEffect_reference
    (h : evidenceEffect line ledgerStatus other e actor now = .ok effect) :
    effect.line.providerTransferReference = line.providerTransferReference := by
  rcases evidenceEffect_line h with ⟨last, hline | ⟨status, _, hline⟩⟩ <;> rw [hline]

/-- Evidence is accepted whenever the entry is paid exactly while some line of it
has succeeded. -/
theorem evidenceEffect_accepts (hreleased : ledgerStatus = .available ∨ ledgerStatus = .paid)
    (hpaid : ledgerStatus = .paid → line.status = .succeeded ∨ other = true)
    (houtcome : e.outcome = .succeeded ∨ e.outcome = .failed) :
    ∃ effect, evidenceEffect line ledgerStatus other e actor now = .ok effect := by
  cases heff : isEffective line e with
  | false =>
      refine ⟨{ line := stampEvidence e.occurredAt line
                ledgerStatus := ledgerStatus
                applied := false }, ?_⟩
      simp [evidenceEffect, heff]
  | true =>
      have hallowed : ¬ (ledgerStatus = .paid ∧ ¬ other ∧ ¬ isReversal e) := by
        rintro ⟨hcash, hother, hplain⟩
        rcases hpaid hcash with hsucceeded | hother'
        · simp [isEffective, hsucceeded, hplain] at heff
        · exact hother hother'
      have hinner : ∃ inner, outcomeEffect line ledgerStatus other e actor now = .ok inner := by
        rcases houtcome with hs | hf
        · simp only [outcomeEffect, hs, require_of hreleased]
          exact ⟨_, rfl⟩
        · simp only [outcomeEffect, hf, require_of hallowed]
          by_cases hstatus : line.status = .failed
          · simp only [hstatus, ne_eq, not_true_eq_false, if_false]
            exact ⟨_, rfl⟩
          · simp only [hstatus, ne_eq, not_false_eq_true, if_true]
            exact ⟨_, rfl⟩
      rcases hinner with ⟨inner, hinner⟩
      refine ⟨{ inner with line := stampEvidence e.occurredAt inner.line }, ?_⟩
      simp [evidenceEffect, heff, hinner]

/-- The effect would make a line fail that has succeeded. -/
def TakesBack (line : PayoutBatchLine) (effect : EvidenceEffect) : Prop :=
  line.status = .succeeded ∧ effect.line.status = .failed

/-- What is not taken back stays. -/
theorem evidenceEffect_succeeded
    (h : evidenceEffect line ledgerStatus other e actor now = .ok effect)
    (hkept : ¬ TakesBack line effect) (hsucceeded : line.status = .succeeded) :
    effect.line.status = .succeeded := by
  have hstatus := evidenceEffect_status h
  unfold statusAfter at hstatus
  split_ifs at hstatus with heff houtcome
  · exact hstatus
  · exact absurd ⟨hsucceeded, hstatus⟩ hkept
  · exact hstatus.trans hsucceeded

theorem lineTransition_evidence (hsent : WasSent line)
    (h : evidenceEffect line ledgerStatus other e actor now = .ok effect) :
    lineTransition line.status effect.line.status = true ↔ ¬ TakesBack line effect := by
  rw [TakesBack, evidenceEffect_status h, statusAfter]
  rcases hsent with hstatus | hstatus | hstatus
  all_goals
    rw [hstatus]
    split_ifs <;> simp [lineTransition]

/-- The trigger on the lines refuses exactly what takes a success back. -/
theorem guardPayoutBatchLineMutation_evidence (hsent : WasSent line)
    (h : evidenceEffect line ledgerStatus other e actor now = .ok effect) :
    guardPayoutBatchLineMutation line effect.line = .ok ⟨⟩ ↔ ¬ TakesBack line effect := by
  have hrelease : line.reservationActive = effect.line.reservationActive
      ∨ (line.reservationActive = true ∧ effect.line.reservationActive = false
        ∧ (effect.line.status = .succeeded ∨ effect.line.status = .failed
          ∨ effect.line.status = .void)) := by
    rcases evidenceEffect_line h with ⟨last, hline | ⟨status, hstatus, hline⟩⟩
    · exact .inl (by rw [hline])
    · cases hactive : line.reservationActive with
      | false => exact .inl (by rw [hline])
      | true =>
          refine .inr ⟨rfl, by rw [hline], ?_⟩
          rw [hline]
          rcases hstatus with rfl | rfl
          · exact .inl rfl
          · exact .inr (.inl rfl)
  simp only [guardPayoutBatchLineMutation, bind_eq_ok, require_eq_ok, lineTransition_evidence hsent h]
  exact ⟨fun hok => hok.choose_spec.1, fun hnot => ⟨⟨⟩, hnot, hrelease⟩⟩

/-- Where the line's trigger lets the effect pass, the entry's trigger does. -/
theorem guardEarningsLedgerEntryMutation_evidence
    (hreleased : ledgerStatus = .available ∨ ledgerStatus = .paid)
    (hpaid : ledgerStatus = .paid → line.status = .succeeded ∨ other = true)
    (h : evidenceEffect line ledgerStatus other e actor now = .ok effect)
    (hkept : ¬ TakesBack line effect) :
    guardEarningsLedgerEntryMutation ledgerStatus effect.ledgerStatus = .ok ⟨⟩ := by
  have hstatus := evidenceEffect_status h
  refine require_of ?_
  rcases evidenceEffect_ok h with ⟨_, _, hledger, _⟩ | ⟨_, _, _, _, hledger, _⟩
    | ⟨heff, hfailed, _, hledger, _⟩
  · rw [hledger]
    simp [entryTransition]
  · rw [hledger]
    rcases hreleased with hnow | hnow <;> rw [hnow] <;> rfl
  · -- a failure that gives the entry back found it available, or it took a success back
    rw [hledger]
    split_ifs with hgives
    · rcases hreleased with hnow | hnow
      · rw [hnow]
        rfl
      · have hsucceeded : line.status = .succeeded := (hpaid hnow).resolve_right hgives.2
        refine absurd ⟨hsucceeded, ?_⟩ hkept
        rw [hstatus, statusAfter, if_pos heff, if_neg (by simp [hfailed])]
    · simp [entryTransition]

end Effect

/-! ## What every delivery keeps -/

section Tracking

variable [Hashing] {s t : Store} {line l : PayoutBatchLine} {e : VerifiedLineEvidence}

/-- The store `t` was reached from `s` by deliveries of events about `line`, which
stands there as `l`. -/
structure Tracked (s : Store) (line : PayoutBatchLine) (t : Store) (l : PayoutBatchLine) :
    Prop where
  reachable : ∃ w, Reachable payouts w ∧ w.store = t
  lookup : ∀ reference, s.referencedLine? reference = some line →
    t.referencedLine? reference = some l
  member : l ∈ t.lines
  frozen : SameFrozen line l
  intent : l.intent = line.intent
  sent : WasSent l
  other : otherSucceeded t l = otherSucceeded s line
  events : ∀ r ∈ s.events, r ∈ t.events

omit [Hashing] in
theorem SameFrozen.trans {l l' l'' : PayoutBatchLine} (h : SameFrozen l l')
    (h' : SameFrozen l' l'') : SameFrozen l l'' := by
  simp only [SameFrozen] at h h' ⊢
  simp [h, h']

theorem Tracked.start {w : PayoutSystem} (hw : Reachable payouts w)
    (hline : line ∈ w.store.lines) (hsent : WasSent line) :
    Tracked w.store line w.store line where
  reachable := ⟨w, hw, rfl⟩
  lookup := fun _ h => h
  member := hline
  frozen := by simp [SameFrozen]
  intent := rfl
  sent := hsent
  other := rfl
  events := fun _ h => h

/-- An event matches the line of today as it matched the line of the start. -/
theorem Tracked.matches_iff (h : Tracked s line t l) :
    MatchesProvider l e ↔ MatchesProvider line e := by
  rcases h.frozen with ⟨_, _, _, hamount, hcurrency, _, _, hkey⟩
  simp [MatchesProvider, PaystackMatches, h.intent, hamount, hcurrency, hkey]

theorem deliver_reachable {w : PayoutSystem} (hw : Reachable payouts w) (d : EvidenceDelivery) :
    ∃ w', Reachable payouts w' ∧ w'.store = deliver w.store d := by
  unfold deliver
  cases hstep : applyVerifiedLineEvidence d.auth d.evidence d.source d.now w.store with
  | error _ => exact ⟨w, hw, rfl⟩
  | ok t =>
      refine ⟨{ store := t, claims := w.claims }, ?_, rfl⟩
      refine .step hw trivial (a := .applyEvidence d.auth d.evidence d.source d.now) ?_
      simp [payouts, payoutStep, transaction, hstep, Except.map]

/-- The rewrite of the evidence transaction keeps ids, entries and references. -/
theorem evidenceLine_names (hk : Keyed t.batches) (hl : l ∈ t.lines) (hsent : WasSent l)
    {ledgerStatus : EarningsLedgerEntryStatus} {other : Bool} {actor : Option Id} {now : Int}
    {effect : EvidenceEffect}
    (heffect : evidenceEffect l ledgerStatus other e actor now = .ok effect)
    {l' : PayoutBatchLine} (hl' : l' ∈ t.lines) :
    (evidenceLine effect e.outcome now l').id = l'.id
      ∧ (evidenceLine effect e.outcome now l').ledgerEntryId = l'.ledgerEntryId
      ∧ (evidenceLine effect e.outcome now l').providerTransferReference
        = l'.providerTransferReference := by
  have hfrozen := (evidenceLine_quiet hk hl hsent heffect hl' now).1.frozen
  refine ⟨hfrozen.1, hfrozen.2.1, ?_⟩
  have hid : effect.line.id = l.id :=
    (LineEffect.evidence (r := .evidence) rfl hsent heffect).frozen.1
  unfold evidenceLine
  split_ifs with hsame
  · rw [hk.line_eq hl' hl (hsame.trans hid)]
    exact evidenceEffect_reference heffect
  · unfold convergeLine
    split_ifs
    · unfold cancelOrKeep
      cases hcancel : cancelUncalledLine l' now with
      | none => rfl
      | some l'' =>
          rcases cancelUncalledLine_eq_some hcancel with ⟨_, ⟨_, rfl⟩ | ⟨i, _, _, rfl⟩⟩ <;> rfl
    · rfl
  · rfl

/-- A recorded event keeps the line tracked. -/
theorem Tracked.record (h : Tracked s line t l) {ledgerStatus : EarningsLedgerEntryStatus}
    {other : Bool} {source : EvidenceSource} {now : Int} {effect : EvidenceEffect}
    (heffect : evidenceEffect l ledgerStatus other e source.actorUserId now = .ok effect)
    (hreachable : ∃ w, Reachable payouts w ∧ w.store = recordEvidence e source now effect t) :
    Tracked s line (recordEvidence e source now effect t) effect.line := by
  rcases h.reachable with ⟨w, hw, rfl⟩
  have hk := keyed_of_reachable hw
  have hquiet := LineEffect.evidence (r := .evidence) rfl h.sent heffect
  have hlines : (recordEvidence e source now effect w.store).lines
      = w.store.lines.map (evidenceLine effect e.outcome now) :=
    recordEvidence_lines hk h.member hquiet.frozen.1 hquiet.frozen.2.1
  have hthis : evidenceLine effect e.outcome now l = effect.line := by
    rw [evidenceLine, if_pos hquiet.frozen.1.symm]
  have hnames := fun (l' : PayoutBatchLine) (hl' : l' ∈ w.store.lines) =>
    evidenceLine_names hk h.member h.sent heffect hl'
  refine ⟨hreachable, ?_, ?_, h.frozen.trans hquiet.frozen,
    (evidenceEffect_intent heffect).trans h.intent, ?_, ?_, ?_⟩
  · intro reference href
    rw [Store.referencedLine?, hlines, find?_map_of_forall]
    · have hfound := h.lookup reference href
      rw [Store.referencedLine?] at hfound
      rw [hfound, Option.map_some, hthis]
    · intro l' hl'
      rw [(hnames l' hl').2.2]
  · rw [hlines]
    exact hthis ▸ List.mem_map_of_mem h.member
  · have hunseen := (lineInv_lines_of_reachable hw l h.member).unseen
    have hdecided := evidence_decides hunseen h.sent heffect
    rcases evidenceEffect_line heffect with ⟨last, hline | ⟨status, hstatus, hline⟩⟩
    · rw [hline]
      exact h.sent
    · rw [hline]
      rcases hstatus with rfl | rfl
      · exact .inr (.inr rfl)
      · exact .inr (.inl rfl)
  · rw [← h.other, Bool.eq_iff_iff, otherSucceeded_iff, otherSucceeded_iff, hlines,
      hquiet.frozen.1, hquiet.frozen.2.1]
    -- the other lines of the entry keep their ids and are settled by no one
    constructor
    · rintro ⟨_, hmem, hon, hne, hsucceeded⟩
      rcases List.mem_map.mp hmem with ⟨l', hl', rfl⟩
      rw [(hnames l' hl').1] at hne
      rw [(hnames l' hl').2.1] at hon
      have hsteady := evidenceLine_steady hk h.member hquiet.frozen.1 e.outcome now hl'
        (fun heq => hne (heq ▸ rfl))
      exact ⟨l', hl', hon, hne, hsteady.succeeded.mp hsucceeded⟩
    · rintro ⟨l', hl', hon, hne, hsucceeded⟩
      have hsteady := evidenceLine_steady hk h.member hquiet.frozen.1 e.outcome now hl'
        (fun heq => hne (heq ▸ rfl))
      refine ⟨_, List.mem_map_of_mem hl', (hnames l' hl').2.1.trans hon, ?_,
        hsteady.succeeded.mpr hsucceeded⟩
      rwa [(hnames l' hl').1]
  · intro r hr
    exact List.mem_append_left _ (h.events r hr)

/-- An authorized delivery of a counted event that takes no success back is recorded. -/
theorem deliver_records {d : EvidenceDelivery} {entry : EarningsLedgerEntry} {effect : EvidenceEffect}
    (hfound : t.referencedLine? d.evidence.providerTransferReference = some l) (hsent : WasSent l)
    (hentry : t.entry? l.ledgerEntryId = some entry) (hreleased : Released entry)
    (hpaid : entry.status = .paid → l.status = .succeeded ∨ otherSucceeded t l = true)
    (houtcome : d.evidence.outcome = .succeeded ∨ d.evidence.outcome = .failed)
    (heffect : evidenceEffect l entry.status (otherSucceeded t l) d.evidence d.source.actorUserId
      d.now = .ok effect)
    (hauth : authorizeSource d.auth d.source = .ok ⟨⟩) (hcounted : Counted t l d.evidence)
    (hkept : ¬ TakesBack l effect) :
    deliver t d = recordEvidence d.evidence d.source d.now effect t := by
  -- the event is new, so it reaches the line
  have hfresh : t.events.find? (·.providerEventId = d.evidence.providerEventId) = none := by
    rw [List.find?_eq_none]
    intro r hr
    simpa using hcounted.2 r hr
  have hline : evidenceLineFor d.evidence t = .ok l := by
    simp only [evidenceLineFor, bind_eq_ok, demand_eq_ok, require_eq_ok, pure_eq_ok]
    exact ⟨l, hfound, ⟨⟩, hcounted.1, ⟨⟩, hsent, rfl⟩
  have hsupported : d.evidence.outcome.isSupported = true := by
    rcases houtcome with ho | ho <;> rw [ho] <;> rfl
  have hstep : applyVerifiedLineEvidence d.auth d.evidence d.source d.now t
      = .ok (recordEvidence d.evidence d.source d.now effect t) := by
    simp only [applyVerifiedLineEvidence, bind_eq_ok]
    refine ⟨⟨⟩, hauth, l, hline, ?_⟩
    simp only [hfresh, bind_eq_ok, demand_eq_ok, require_eq_ok, pure_eq_ok]
    exact ⟨entry, hentry, effect, heffect, ⟨⟩, hsupported, ⟨⟩,
      (guardPayoutBatchLineMutation_evidence hsent heffect).mpr hkept, ⟨⟩,
      guardEarningsLedgerEntryMutation_evidence hreleased hpaid heffect hkept, rfl⟩
  simp [Payout.deliver, hstep]

/-- A delivery that changes the store is authorized, counts and takes no success back. -/
theorem deliver_changes {d : EvidenceDelivery} {entry : EarningsLedgerEntry} {effect : EvidenceEffect}
    (hfound : t.referencedLine? d.evidence.providerTransferReference = some l) (hsent : WasSent l)
    (hentry : t.entry? l.ledgerEntryId = some entry)
    (heffect : evidenceEffect l entry.status (otherSucceeded t l) d.evidence d.source.actorUserId
      d.now = .ok effect)
    (hchanges : deliver t d ≠ t) :
    authorizeSource d.auth d.source = .ok ⟨⟩ ∧ Counted t l d.evidence ∧ ¬ TakesBack l effect := by
  unfold Payout.deliver at hchanges
  cases hstep : applyVerifiedLineEvidence d.auth d.evidence d.source d.now t with
  | error _ =>
      rw [hstep] at hchanges
      exact absurd rfl hchanges
  | ok t' =>
      rw [hstep] at hchanges
      rcases applyVerifiedLineEvidence_ok hstep with
        ⟨hsame, _⟩ | ⟨l', entry', effect', hline, hfresh, hentry', heffect', _⟩
      · exact absurd hsame hchanges
      · rcases evidenceLineFor_ok hline with ⟨hfound', hmatch, _⟩
        rw [hfound, Option.some.injEq] at hfound'
        subst hfound'
        have hpassed := applyVerifiedLineEvidence_guarded hstep hline hfresh hentry' heffect'
        have hthis : effect' = effect := by
          rw [hentry, Option.some.injEq] at hentry'
          subst hentry'
          rw [heffect, Except.ok.injEq] at heffect'
          exact heffect'.symm
        subst hthis
        refine ⟨?_, ⟨hmatch, ?_⟩, ?_⟩
        · simp only [applyVerifiedLineEvidence, bind_eq_ok] at hstep
          rcases hstep with ⟨_, hauth, _⟩
          exact hauth
        · intro r hr
          simpa using List.find?_eq_none.mp hfresh r hr
        · exact (guardPayoutBatchLineMutation_evidence hsent heffect).mp hpassed

/-- One delivery of an event about the line: it changes nothing, or it is recorded.  A counted
event changes nothing only if it would take a success back. -/
theorem Tracked.deliver (h : Tracked s line t l) (d : EvidenceDelivery)
    (habout : s.referencedLine? d.evidence.providerTransferReference = some line)
    (houtcome : d.evidence.outcome = .succeeded ∨ d.evidence.outcome = .failed) :
    (deliver t d = t ∧ (authorizeSource d.auth d.source = .ok ⟨⟩ → Counted t l d.evidence →
      l.status = .succeeded ∧ d.evidence.outcome = .failed))
    ∨ ∃ ledgerStatus effect, Counted t l d.evidence
      ∧ evidenceEffect l ledgerStatus (otherSucceeded t l) d.evidence d.source.actorUserId d.now
        = .ok effect
      ∧ ¬ TakesBack l effect
      ∧ deliver t d = recordEvidence d.evidence d.source d.now effect t
      ∧ Tracked s line (recordEvidence d.evidence d.source d.now effect t) effect.line := by
  rcases h.reachable with ⟨w, hw, rfl⟩
  have hfound := h.lookup _ habout
  rcases (ledgerInv_of_reachable hw).entry_of_sent (keyed_of_reachable hw) h.member h.sent with
    ⟨entry, _, _, hentry, hreleased, hpaid⟩
  have haccepts : ∃ effect, evidenceEffect l entry.status _ d.evidence d.source.actorUserId d.now
      = .ok effect := evidenceEffect_accepts hreleased hpaid.mp houtcome
  rcases haccepts with ⟨effect, heffect⟩
  have hreach := deliver_reachable hw d
  by_cases haccept : authorizeSource d.auth d.source = .ok ⟨⟩ ∧ Counted w.store l d.evidence
      ∧ ¬ TakesBack l effect
  · rcases haccept with ⟨hauth, hcounted, hkept⟩
    have hdeliver : Payout.deliver w.store d
        = recordEvidence d.evidence d.source d.now effect w.store :=
      deliver_records hfound h.sent hentry hreleased hpaid.mp houtcome heffect hauth hcounted hkept
    exact .inr ⟨entry.status, effect, hcounted, heffect, hkept, hdeliver,
      h.record heffect (hdeliver ▸ hreach)⟩
  · -- refused, or seen before: the store stays
    have hsame : Payout.deliver w.store d = w.store :=
      not_not.mp (fun hchanges => haccept (deliver_changes hfound h.sent hentry heffect hchanges))
    refine .inl ⟨hsame, ?_⟩
    intro hauth hcounted
    have htakes : TakesBack l effect :=
      not_not.mp (fun hkept => haccept ⟨hauth, hcounted, hkept⟩)
    refine ⟨htakes.1, houtcome.resolve_left ?_⟩
    intro hsucceeded
    have hfailed := htakes.2
    rw [evidenceEffect_status heffect, statusAfter, if_pos hsucceeded, htakes.1] at hfailed
    split_ifs at hfailed

theorem Tracked.counted (h : Tracked s line t l) (hcounted : Counted t l e) :
    Counted s line e :=
  ⟨h.matches_iff.mp hcounted.1, fun r hr => hcounted.2 r (h.events r hr)⟩

/-- The outcome of a decided line: the entry is paid while any line of it succeeded. -/
theorem Tracked.outcome (h : Tracked s line t l)
    (hdecided : l.status = .succeeded ∨ l.status = .failed) :
    lineOutcome t line.id = some (l.status, false,
      some (if l.status = .succeeded ∨ otherSucceeded s line = true then .paid else .available)) := by
  rcases h.reachable with ⟨w, hw, rfl⟩
  have hfind : w.store.lines.find? (·.id = line.id) = some l :=
    lookup_eq_some (keyed_of_reachable hw).lineIds h.member h.frozen.1
  have hclosed : l.reservationActive = false := by
    rw [← Bool.not_eq_true, (lineInv_lines_of_reachable hw l h.member).active]
    rcases hdecided with hs | hs <;> simp [hs]
  rcases (ledgerInv_of_reachable hw).entry_of_sent (keyed_of_reachable hw) h.member h.sent with
    ⟨entry, _, _, hentry, hreleased, hpaid⟩
  rw [h.other] at hpaid
  rw [lineOutcome, hfind, Option.map_some, hclosed, hentry, Option.map_some]
  by_cases hcash : l.status = .succeeded ∨ otherSucceeded s line = true
  · rw [if_pos hcash, hpaid.mpr hcash]
  · rw [if_neg hcash, hreleased.resolve_right (fun hp => hcash (hpaid.mp hp))]

/-! ## The newest counted event -/

variable {E : Finset VerifiedLineEvidence} {m : VerifiedLineEvidence}

structure Newest (s : Store) (line : PayoutBatchLine) (E : Finset VerifiedLineEvidence)
    (m : VerifiedLineEvidence) : Prop where
  mem : m ∈ E
  counted : Counted s line m
  newest : ∀ e ∈ E, Counted s line e → e.occurredAt ≤ m.occurredAt

theorem exists_newest (hcounted : ∃ e ∈ E, Counted s line e) : ∃ m, Newest s line E m := by
  classical
  have hnonempty : (E.filter (Counted s line)).Nonempty := by
    rcases hcounted with ⟨e, he, hce⟩
    exact ⟨e, Finset.mem_filter.mpr ⟨he, hce⟩⟩
  rcases Finset.exists_max_image _ (·.occurredAt) hnonempty with ⟨m, hm, hmax⟩
  rcases Finset.mem_filter.mp hm with ⟨hmem, hcm⟩
  exact ⟨m, hmem, hcm, fun e he hce => hmax e (Finset.mem_filter.mpr ⟨he, hce⟩)⟩

/-- The line stands at `v` for good: it has succeeded, or the newest event was recorded. -/
structure Settled (s : Store) (line : PayoutBatchLine) (m : VerifiedLineEvidence)
    (v : PayoutBatchLineStatus) (t : Store) : Prop where
  line : ∃ l, Tracked s line t l ∧ l.status = v
    ∧ (v ≠ .succeeded → l.lastProviderEvidenceAt = some m.occurredAt
      ∧ ∃ r ∈ t.events, r.providerEventId = m.providerEventId)

/-- A success is not taken back, and after the newest event every other event is stale. -/
theorem Settled.deliver (hE : EventsAbout s line E) (hm : Newest s line E m)
    {v : PayoutBatchLineStatus} (h : Settled s line m v t) {d : EvidenceDelivery}
    (hd : d.evidence ∈ E) : Settled s line m v (deliver t d) := by
  rcases h.line with ⟨l, htracked, hstatus, hnewest⟩
  rcases htracked.deliver d (hE.about _ hd) (hE.outcome _ hd) with
    ⟨hsame, _⟩ | ⟨ledgerStatus, effect, hcounted, heffect, hkept, hstep, htracked'⟩
  · rw [hsame]
    exact h
  · rw [hstep]
    by_cases hv : v = .succeeded
    · refine ⟨effect.line, htracked', ?_, fun hne => absurd hv hne⟩
      rw [hv]
      exact evidenceEffect_succeeded heffect hkept (hstatus.trans hv)
    · rcases hnewest hv with ⟨hlast, r, hr, hid⟩
      have hne : d.evidence ≠ m := by
        rintro rfl
        exact hcounted.2 r hr hid
      have hle := hm.newest _ hd (htracked.counted hcounted)
      have hlt : d.evidence.occurredAt < m.occurredAt :=
        lt_of_le_of_ne hle (fun heq => hne (hE.times _ hd _ hm.mem heq))
      have hstale : isEffective l d.evidence = false := by
        simp [isEffective, hlast, not_le.mpr hlt]
      refine ⟨effect.line, htracked', ?_, fun _ => ⟨?_, r, List.mem_append_left _ hr, hid⟩⟩
      · rw [evidenceEffect_status heffect, statusAfter, hstale]
        exact hstatus
      · rw [evidenceEffect_last heffect, hlast]
        simp [max_eq_left hle]

theorem Settled.deliverAll (hE : EventsAbout s line E) (hm : Newest s line E m)
    {v : PayoutBatchLineStatus} :
    ∀ {ds : List EvidenceDelivery} {t : Store}, (∀ d ∈ ds, d.evidence ∈ E) →
      Settled s line m v t → Settled s line m v (deliverAll t ds) := by
  intro ds
  induction ds with
  | nil =>
      intro t _ h
      exact h
  | cons d ds ih =>
      intro t hds h
      refine ih (fun d' hd' => hds d' (List.mem_cons_of_mem _ hd')) ?_
      exact h.deliver hE hm (hds d (by simp))

/-- The newest event is still to come, and the line can take it. -/
structure Awaiting (s : Store) (line : PayoutBatchLine) (m : VerifiedLineEvidence) (t : Store) :
    Prop where
  line : ∃ l, Tracked s line t l ∧ (∀ last, l.lastProviderEvidenceAt = some last →
    last ≤ m.occurredAt) ∧ (m.outcome = .failed → l.status ≠ .succeeded)
  fresh : ∀ r ∈ t.events, r.providerEventId ≠ m.providerEventId

/-- The status the newest event decides. -/
def verdict (m : VerifiedLineEvidence) : PayoutBatchLineStatus :=
  if m.outcome = .succeeded then .succeeded else .failed

theorem Awaiting.deliver_older (hE : EventsAbout s line E) (hm : Newest s line E m)
    (hfailed : m.outcome = .failed → ∀ g ∈ E, Counted s line g → g.outcome ≠ .succeeded)
    (h : Awaiting s line m t) {d : EvidenceDelivery} (hd : d.evidence ∈ E)
    (hne : d.evidence ≠ m) : Awaiting s line m (deliver t d) := by
  rcases h.line with ⟨l, htracked, hbound, hunpaid⟩
  rcases htracked.deliver d (hE.about _ hd) (hE.outcome _ hd) with
    ⟨hsame, _⟩ | ⟨ledgerStatus, effect, hcounted, heffect, _, hstep, htracked'⟩
  · rw [hsame]
    exact h
  · have hcounted' := htracked.counted hcounted
    rw [hstep]
    refine ⟨⟨effect.line, htracked', ?_, ?_⟩, ?_⟩
    · intro last hlast
      rw [evidenceEffect_last heffect, Option.some.injEq] at hlast
      subst hlast
      cases hold : l.lastProviderEvidenceAt with
      | none => exact hm.newest _ hd hcounted'
      | some last => exact max_le (hbound last hold) (hm.newest _ hd hcounted')
    · intro hm'
      have hno : d.evidence.outcome ≠ .succeeded := hfailed hm' _ hd hcounted'
      rw [evidenceEffect_status heffect, statusAfter, if_neg hno]
      split_ifs
      · simp
      · exact hunpaid hm'
    · intro r hr
      rcases List.mem_append.mp hr with hr | hr
      · exact h.fresh r hr
      · rw [List.mem_singleton.mp hr]
        exact fun hid => hne (hE.ids _ hd _ hm.mem hid)

theorem Awaiting.deliver_newest (hE : EventsAbout s line E) (hm : Newest s line E m)
    (h : Awaiting s line m t) {d : EvidenceDelivery} (hd : d.evidence = m) :
    (authorizeSource d.auth d.source = .ok ⟨⟩ → Settled s line m (verdict m) (deliver t d))
      ∧ (Awaiting s line m (deliver t d) ∨ Settled s line m (verdict m) (deliver t d)) := by
  subst hd
  rcases h.line with ⟨l, htracked, hbound, hunpaid⟩
  rcases htracked.deliver d (hE.about _ hm.mem) (hE.outcome _ hm.mem) with
    ⟨hsame, hrefused⟩ | ⟨ledgerStatus, effect, hcounted, heffect, _, hstep, htracked'⟩
  · have hcounted : Counted t l d.evidence := ⟨htracked.matches_iff.mpr hm.counted.1, h.fresh⟩
    rw [hsame]
    refine ⟨?_, .inl h⟩
    intro hauth
    rcases hrefused hauth hcounted with ⟨hsucceeded, hfailed⟩
    exact absurd hsucceeded (hunpaid hfailed)
  · have hsettled : Settled s line d.evidence (verdict d.evidence) (Payout.deliver t d) := by
      rw [hstep]
      refine ⟨effect.line, htracked', ?_, fun _ => ⟨?_, _, List.mem_append_right _
        (List.mem_singleton_self _), rfl⟩⟩
      · rw [evidenceEffect_status heffect, statusAfter]
        cases heff : isEffective l d.evidence with
        | true => rfl
        | false =>
          -- the newest event is passed over only when the line has succeeded already
          have hsucceeded : l.status = .succeeded ∧ isReversal d.evidence = false := by
            cases hlast : l.lastProviderEvidenceAt with
            | none => simpa [isEffective, hlast] using heff
            | some last => simpa [isEffective, hlast, hbound last hlast] using heff
          have houtcome : d.evidence.outcome = .succeeded :=
            (hE.outcome _ hm.mem).resolve_right
              (fun hf => hunpaid hf hsucceeded.1)
          rw [verdict, if_pos houtcome]
          exact hsucceeded.1
      · rw [evidenceEffect_last heffect]
        cases hlast : l.lastProviderEvidenceAt with
        | none => rfl
        | some last => simp [max_eq_right (hbound last hlast)]
    exact ⟨fun _ => hsettled, .inr hsettled⟩

/-- A run of deliveries that holds the newest event settles the line by it. -/
theorem Awaiting.deliverAll (hE : EventsAbout s line E) (hm : Newest s line E m)
    (hfailed : m.outcome = .failed → ∀ g ∈ E, Counted s line g → g.outcome ≠ .succeeded) :
    ∀ {ds : List EvidenceDelivery} {t : Store}, (∀ d ∈ ds, d.evidence ∈ E) →
      (∃ d ∈ ds, d.evidence = m ∧ authorizeSource d.auth d.source = .ok ⟨⟩) →
        Awaiting s line m t → Settled s line m (verdict m) (deliverAll t ds) := by
  intro ds
  induction ds with
  | nil =>
      rintro t _ ⟨d, hd, _⟩ _
      exact absurd hd List.not_mem_nil
  | cons d ds ih =>
      intro t hds hdelivered h
      have hrest : ∀ d' ∈ ds, d'.evidence ∈ E := fun d' hd' => hds d' (List.mem_cons_of_mem _ hd')
      have hlater : authorizeSource d.auth d.source ≠ .ok ⟨⟩ ∨ d.evidence ≠ m →
          ∃ d' ∈ ds, d'.evidence = m ∧ authorizeSource d'.auth d'.source = .ok ⟨⟩ := by
        intro hnot
        rcases hdelivered with ⟨d', hd', hthis, hauth⟩
        rcases List.mem_cons.mp hd' with rfl | hd'
        · rcases hnot with hnot | hnot
          · exact absurd hauth hnot
          · exact absurd hthis hnot
        · exact ⟨d', hd', hthis, hauth⟩
      have hkept : Settled s line m (verdict m) (deliver t d) →
          Settled s line m (verdict m) (Payout.deliverAll (deliver t d) ds) := fun hsettled =>
        Settled.deliverAll hE hm hrest hsettled
      by_cases hthis : d.evidence = m
      · rcases h.deliver_newest hE hm hthis with ⟨hsettles, hawaits | hsettled⟩
        · by_cases hauth : authorizeSource d.auth d.source = .ok ⟨⟩
          · exact hkept (hsettles hauth)
          · exact ih hrest (hlater (.inl hauth)) hawaits
        · exact hkept hsettled
      · exact ih hrest (hlater (.inr hthis))
          (h.deliver_older hE hm hfailed (hds d (by simp)) hthis)

theorem Settled.outcome {v : PayoutBatchLineStatus} (h : Settled s line m v t)
    (hv : v = .succeeded ∨ v = .failed) :
    lineOutcome t line.id = some (v, false,
      some (if v = .succeeded ∨ otherSucceeded s line = true then .paid else .available)) := by
  rcases h.line with ⟨l, htracked, hstatus, _⟩
  have houtcome := htracked.outcome (hstatus ▸ hv)
  rw [hstatus] at houtcome
  exact houtcome

/-! ## Order independence -/

/-- Without a counted event nothing happens at all. -/
theorem deliverAll_uncounted (hE : EventsAbout s line E) (hnone : ∀ e ∈ E, ¬ Counted s line e)
    (h : Tracked s line s line) :
    ∀ {ds : List EvidenceDelivery}, (∀ d ∈ ds, d.evidence ∈ E) → deliverAll s ds = s := by
  intro ds
  induction ds with
  | nil =>
      intro _
      rfl
  | cons d ds ih =>
      intro hds
      have hd := hds d (by simp)
      rcases h.deliver d (hE.about _ hd) (hE.outcome _ hd) with ⟨hsame, _⟩ | ⟨_, _, hcounted, _⟩
      · have hrest := ih (fun d' hd' => hds d' (List.mem_cons_of_mem _ hd'))
        rw [deliverAll, List.foldl_cons, hsame]
        exact hrest
      · exact absurd hcounted (hnone _ hd)

/-- The start of every run: the line is submitted and no event of it was seen. -/
theorem awaiting_start {w : PayoutSystem} (hw : Reachable payouts w)
    (hline : line ∈ w.store.lines) (hsubmitted : line.status = .submitted)
    (hm : Newest w.store line E m) : Awaiting w.store line m w.store := by
  have hunseen := (lineInv_lines_of_reachable hw line hline).unseen (.inr hsubmitted)
  refine ⟨⟨line, Tracked.start hw hline (.inl hsubmitted), ?_, ?_⟩, hm.counted.2⟩
  · intro last hlast
    simp [hunseen] at hlast
  · intro _
    simp [hsubmitted]

/-- The webhook reports an event. -/
def webhookDelivery (e : VerifiedLineEvidence) : EvidenceDelivery :=
  { auth := sampleAuthority, evidence := e }

omit [Hashing] in
theorem delivers_webhooks {es : List VerifiedLineEvidence} (hes : ∀ e ∈ es, e ∈ E) :
    Delivers ((es ++ E.toList).map webhookDelivery) E where
  only := by
    intro d hd
    rcases List.mem_map.mp hd with ⟨e, he, rfl⟩
    rcases List.mem_append.mp he with he | he
    · exact hes e he
    · exact Finset.mem_toList.mp he
  all := by
    intro e he
    refine ⟨webhookDelivery e, List.mem_map_of_mem ?_, rfl, rfl⟩
    exact List.mem_append_right _ (Finset.mem_toList.mpr he)

/-- A success delivered first settles the line, whatever is newer. -/
theorem settled_success_first (hE : EventsAbout s line E) (hsubmitted : line.status = .submitted)
    (hunseen : line.lastProviderEvidenceAt = none) (h : Tracked s line s line)
    {g : VerifiedLineEvidence} (hg : g ∈ E) (hcounted : Counted s line g)
    (hsucceeded : g.outcome = .succeeded) :
    Settled s line m .succeeded (deliver s (webhookDelivery g)) := by
  rcases h.deliver (webhookDelivery g) (hE.about _ hg) (hE.outcome _ hg) with
    ⟨_, hrefused⟩ | ⟨_, effect, _, heffect, _, hstep, htracked⟩
  · have hfailed := (hrefused rfl hcounted).2
    simp [webhookDelivery, hsucceeded] at hfailed
  · have heff : isEffective line g = true := by
      simp [isEffective, hsubmitted, hunseen]
    rw [hstep]
    refine ⟨effect.line, htracked, ?_, fun hne => absurd rfl hne⟩
    rw [evidenceEffect_status heffect, statusAfter]
    simp [webhookDelivery, heff, hsucceeded]

/-- Delivered first, the newest event settles the line by its own outcome. -/
theorem settled_newest_first (hE : EventsAbout s line E) (hm : Newest s line E m)
    (h : Awaiting s line m s) :
    Settled s line m (verdict m) (deliver s (webhookDelivery m)) :=
  (h.deliver_newest hE hm rfl).1 rfl

/-- The order of delivery does not matter exactly when the newest counted event is
not a failure that follows a success. -/
theorem evidence_order_independent_iff {w : PayoutSystem} (hw : Reachable payouts w)
    (hline : line ∈ w.store.lines) (hsubmitted : line.status = .submitted)
    (hE : EventsAbout w.store line E) :
    OrderIndependent w.store line E ↔ ¬ FailureAfterSuccess w.store line E := by
  have htracked := Tracked.start hw hline (.inl hsubmitted)
  have hunseen := (lineInv_lines_of_reachable hw line hline).unseen (.inr hsubmitted)
  constructor
  · rintro hind ⟨f, hf, hcf, hfailed, hnewest, g, hg, hcg, hsucceeded⟩
    have hm : Newest w.store line E f := ⟨hf, hcf, hnewest⟩
    have hmem : ∀ e ∈ E.toList.map webhookDelivery, e.evidence ∈ E := by
      intro d hd
      rcases List.mem_map.mp hd with ⟨e, he, rfl⟩
      exact Finset.mem_toList.mp he
    -- the success before anything else, and the failure before anything else
    have hfirst := Settled.deliverAll hE hm hmem
      (settled_success_first hE hsubmitted hunseen htracked hg hcg hsucceeded)
    have hsecond := Settled.deliverAll hE hm hmem
      (settled_newest_first hE hm (awaiting_start hw hline hsubmitted hm))
    have hsame := hind _ _ (delivers_webhooks (by simp [hg] : ∀ e ∈ [g], e ∈ E))
      (delivers_webhooks (by simp [hf] : ∀ e ∈ [f], e ∈ E))
    simp only [List.map_append, List.map_cons, List.map_nil, deliverAll, List.foldl_append,
      List.foldl_cons, List.foldl_nil] at hsame hfirst hsecond
    rw [hfirst.outcome (.inl rfl), hsecond.outcome] at hsame
    · simp [verdict, hfailed] at hsame
    · simp [verdict, hfailed]
  · intro hnot ds ds' hds hds'
    by_cases hcounted : ∃ e ∈ E, Counted w.store line e
    · rcases exists_newest hcounted with ⟨m, hm⟩
      have hfailed : m.outcome = .failed → ∀ g ∈ E, Counted w.store line g →
          g.outcome ≠ .succeeded := by
        intro hfailed g hg hcg hsucceeded
        exact hnot ⟨m, hm.mem, hm.counted, hfailed, hm.newest, g, hg, hcg, hsucceeded⟩
      have hstart := awaiting_start hw hline hsubmitted hm
      have hverdict : verdict m = .succeeded ∨ verdict m = .failed := by
        unfold verdict
        split_ifs <;> simp
      have hends := hstart.deliverAll hE hm hfailed hds.only (hds.all m hm.mem)
      have hends' := hstart.deliverAll hE hm hfailed hds'.only (hds'.all m hm.mem)
      rw [hends.outcome hverdict, hends'.outcome hverdict]
    · -- no event about the line counts, so neither order writes it
      push Not at hcounted
      rw [deliverAll_uncounted hE hcounted htracked hds.only,
        deliverAll_uncounted hE hcounted htracked hds'.only]

end Tracking

/-! ## The sent line of the small deployment -/

def sampleEvent (id : String) (outcome : EvidenceOutcome) (occurredAt : Int)
    (type : String) : VerifiedLineEvidence where
  providerTransferReference := "T1"
  providerEventId := id
  outcome := outcome
  occurredAt := occurredAt
  evidenceFingerprint := id
  providerEventType := some type

def sampleSuccess : VerifiedLineEvidence := sampleEvent "E1" .succeeded 120 "transfer.success"

def sampleFailure : VerifiedLineEvidence := sampleEvent "E2" .failed 130 "transfer.failed"

def sampleReversal : VerifiedLineEvidence := sampleEvent "E3" .failed 110 "transfer.reversed"

theorem sampleEvents_about {s : Store} {line : PayoutBatchLine}
    (href : s.referencedLine? "T1" = some line) {late : VerifiedLineEvidence}
    (hlate : late = sampleFailure ∨ late = sampleReversal) :
    EventsAbout s line {sampleSuccess, late} := by
  rcases hlate with rfl | rfl
  all_goals
    refine ⟨?_, by decide, by decide, by decide⟩
    intro e he
    simp only [Finset.mem_insert, Finset.mem_singleton] at he
    rcases he with rfl | rfl <;> exact href

/-- A reversal and a later success of the sent line, in any order. -/
theorem evidence_order_independent_iff_reversed :
    ∃ w, Reachable (@payouts sampleHashing) w ∧ ∃ line ∈ w.store.lines, line.status = .submitted
      ∧ @OrderIndependent sampleHashing w.store line {sampleSuccess, sampleReversal} := by
  rcases Machine.exists_reachable (@payouts sampleHashing) sentFirstLine
      (fun w => (w.store.referencedLine? "T1").any (·.status = .submitted)) (by decide) with
    ⟨w, hw, htest⟩
  rcases (Option.any_eq_true _ _).mp htest with ⟨line, href, hsubmitted⟩
  have hsubmitted : line.status = .submitted := by simpa using hsubmitted
  have hline := (referencedLine?_eq_some href).1
  refine ⟨w, hw, line, hline, hsubmitted, ?_⟩
  refine (@evidence_order_independent_iff sampleHashing line {sampleSuccess, sampleReversal} w hw
    hline hsubmitted (sampleEvents_about href (.inr rfl))).mpr ?_
  rintro ⟨f, hf, _, hfailed, hnewest, g, hg, hcounted, hsucceeded⟩
  simp only [Finset.mem_insert, Finset.mem_singleton] at hf hg
  -- the failure is the older of the two
  have hlate : sampleSuccess.occurredAt ≤ sampleReversal.occurredAt := by
    rcases hf with rfl | rfl
    · exact absurd hfailed (by decide)
    · rcases hg with rfl | rfl
      · exact hnewest _ (by simp) hcounted
      · exact absurd hsucceeded (by decide)
  exact absurd hlate (by decide)

/-- A success and a later plain failure of the sent line: delivered in this order the
pay stays paid, delivered the other way it becomes available again. -/
theorem not_evidence_order_independent :
    ¬ ∀ w, Reachable (@payouts sampleHashing) w → ∀ line ∈ w.store.lines,
      line.status = .submitted → (∀ l ∈ w.store.lines, l.predecessorLineId ≠ some line.id) →
        ∀ E, EventsAbout w.store line E → @OrderIndependent sampleHashing w.store line E := by
  intro h
  rcases Machine.exists_reachable (@payouts sampleHashing) sentFirstLine
      (fun w => (w.store.referencedLine? "T1").any (fun line => line.status = .submitted
        && w.store.lines.all (·.predecessorLineId ≠ some line.id)
        && lineOutcome (@deliverAll sampleHashing w.store
            [webhookDelivery sampleSuccess, webhookDelivery sampleFailure]) line.id
          ≠ lineOutcome (@deliverAll sampleHashing w.store
            [webhookDelivery sampleFailure, webhookDelivery sampleSuccess]) line.id))
      (by decide) with ⟨w, hw, htest⟩
  rcases (Option.any_eq_true _ _).mp htest with ⟨line, href, hline⟩
  simp only [Bool.and_eq_true, decide_eq_true_eq, List.all_eq_true] at hline
  have hdelivers : ∀ ds, ds = [webhookDelivery sampleSuccess, webhookDelivery sampleFailure]
      ∨ ds = [webhookDelivery sampleFailure, webhookDelivery sampleSuccess] →
        Delivers ds {sampleSuccess, sampleFailure} := by
    rintro ds (rfl | rfl)
    all_goals
      refine ⟨by simp [webhookDelivery], ?_⟩
      intro e he
      simp only [Finset.mem_insert, Finset.mem_singleton] at he
      rcases he with rfl | rfl <;> simp [webhookDelivery, authorizeSource]
  exact hline.2 (h w hw line (referencedLine?_eq_some href).1 hline.1.1 hline.1.2 _
    (sampleEvents_about href (.inl rfl)) _ _ (hdelivers _ (.inl rfl)) (hdelivers _ (.inr rfl)))

end Payout
end Mobility
