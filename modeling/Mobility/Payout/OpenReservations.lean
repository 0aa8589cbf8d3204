import Mobility.Payout.FinalGate

/-!
# OpenReservations — an unqueued reservation keeps its batch open

A line that is reserved and active but has no submission intent can only be
approved, submitted or voided through its batch, and all three ask for a batch
in status `reserved`.  `_derive_batch_status` never answers `reserved`, so every
operation that derives the status of a batch again must leave no such line in it.

`LeavesNoneStranded` says, on the state before a step, when it does not: the
run theorem covers all runs whose steps meet it.
-/

namespace Mobility
namespace Payout

open Lib

/-- Reserved, holding its reservation, and with nothing queued for the provider. -/
def Unqueued (l : PayoutBatchLine) : Prop :=
  l.status = .reserved ∧ l.reservationActive = true ∧ l.intent = none

instance (l : PayoutBatchLine) : Decidable (Unqueued l) :=
  inferInstanceAs (Decidable (_ ∧ _ ∧ _))

/-- Every unqueued line of the batch can still be approved, submitted or voided. -/
def KeepsOpen (b : PayoutBatch) : Prop :=
  ∀ l ∈ b.lines, Unqueued l → b.status = .reserved

def ReservationsOpen (s : Store) : Prop :=
  ∀ b ∈ s.batches, KeepsOpen b

/-- The step derives no batch status over a line that stays unqueued. -/
def LeavesNoneStranded (s : Store) : PayoutAction → Prop
  | .recordNegativeAdjustment _ sourceEntryId requestId _ _ _ _ _ =>
      -- the cancelled trip owns every unqueued line of its payout chain
      s.entry? requestId = none → ∀ source, s.entry? sourceEntryId = some source →
        ∀ t, source.tripSessionId = some t → ∀ b ∈ s.batches, b.id ∈ s.lockPayoutChains [t] →
          ∀ l ∈ b.lines, Unqueued l → l.ledgerEntryId ∈ s.tripEntryIds t
  | .writeDayDifferentials targets _ =>
      -- the trips that are corrected downwards own every unqueued line of the chains
      (∃ target ∈ targets, target.deltaAmount < 0) →
        ∀ b ∈ s.batches, b.id ∈ s.lockPayoutChains (targets.map (·.tripSessionId)) →
          ∀ l ∈ b.lines, Unqueued l → ∃ target ∈ targets,
            target.deltaAmount < 0 ∧ l.ledgerEntryId ∈ s.tripEntryIds target.tripSessionId
  | .applyEvidence _ evidence _ _ =>
      -- a re-delivery, or a fresh success that cancels every unqueued line of the chain
      (∃ e ∈ s.events, e.providerEventId = evidence.providerEventId) ∨
        ∀ line, s.referencedLine? evidence.providerTransferReference = some line →
          ∀ b ∈ s.batches, b.inChain line.ledgerEntryId → ∀ l ∈ b.lines, Unqueued l →
            l.ledgerEntryId = line.ledgerEntryId ∧ evidence.outcome = .succeeded
              ∧ isEffective line evidence
  | _ => True

instance (s : Store) : ∀ action, Decidable (LeavesNoneStranded s action)
  | .recordNegativeAdjustment _ sourceEntryId requestId _ _ _ _ _ =>
      inferInstanceAs (Decidable (s.entry? requestId = none →
        ∀ source ∈ s.entry? sourceEntryId, ∀ t ∈ source.tripSessionId, ∀ b ∈ s.batches,
          b.id ∈ s.lockPayoutChains [t] → ∀ l ∈ b.lines, Unqueued l →
            l.ledgerEntryId ∈ s.tripEntryIds t))
  | .writeDayDifferentials targets _ =>
      inferInstanceAs (Decidable ((∃ target ∈ targets, target.deltaAmount < 0) → _))
  | .applyEvidence _ evidence _ _ =>
      inferInstanceAs (Decidable ((∃ e ∈ s.events, e.providerEventId = evidence.providerEventId)
        ∨ ∀ line ∈ s.referencedLine? evidence.providerTransferReference, _))
  | .openTrip _ | .ensureLedgerEntry .. | .releaseLedgerEntry _ | .createDraft .. | .reserve ..
  | .approve .. | .submit .. | .claim .. | .resolve .. | .retry .. | .void .. | .runAutomatic ..
  | .releaseUnsent .. => isTrue trivial

section

variable [Hashing] {r : Cause} {s s' : Store} {auth : Authority}

/-! ## One batch -/

/-- No effect turns a line into an unqueued one. -/
theorem unqueued_of_effect {l l' : PayoutBatchLine} (h : LineEffect r l l')
    (hl' : Unqueued l') : Unqueued l := by
  rcases hl' with ⟨hreserved, hactive, hnone⟩
  cases h with
  | same => exact ⟨hreserved, hactive, hnone⟩
  | queue => simp at hnone
  | claim _ _ hi => simp [PayoutBatchLine.mapIntent, hi] at hnone
  | observe _ _ _ hi => simp [PayoutBatchLine.mapIntent, hi] at hnone
  | resolve => simp at hreserved
  | cancel hcancel =>
      rcases cancelUncalledLine_eq_some hcancel with ⟨_, ⟨_, rfl⟩ | ⟨i, _, _, rfl⟩⟩
      all_goals simp at hreserved
  | evidence _ hsent heffect =>
      rcases evidenceEffect_line heffect with ⟨last, hline | ⟨status, hstatus, hline⟩⟩
      · simp only [hline] at hreserved
        simp [hreserved] at hsent
      · simp only [hline] at hreserved
        simp [hreserved] at hstatus
  | void => simp [voidLine] at hreserved

theorem keepsOpen_of_status {b b' : PayoutBatch} (h : KeepsOpen b) (he : BatchEffect r b b')
    (hstatus : b'.status = b.status) : KeepsOpen b' := by
  intro l' hl' hunqueued
  rcases exists_of_mem_forall₂ he.lines hl' with ⟨l, hl, hll'⟩
  rw [hstatus]
  exact h l hl (unqueued_of_effect hll' hunqueued)

/-- A queued batch has no unqueued line, whatever happens to its status. -/
theorem keepsOpen_of_queued {b b' : PayoutBatch} (hshared : SharedProvider b)
    (he : BatchEffect r b b') {l : PayoutBatchLine} (hl : l ∈ b.lines)
    (hqueued : l.intent.isSome) : KeepsOpen b' := by
  intro l' hl' hunqueued
  rcases exists_of_mem_forall₂ he.lines hl' with ⟨l₀, hl₀, hll'⟩
  have hnone := (unqueued_of_effect hll' hunqueued).2.2
  rcases hshared with ⟨p, hp⟩
  have hsame : providerOf l = providerOf l₀ := (hp l hl).trans (hp l₀ hl₀).symm
  simp only [providerOf, hnone, Option.map_none, Option.map_eq_none_iff] at hsame
  simp [hsame] at hqueued

omit [Hashing] in
/-- An uncalled cancellation voids an unqueued line. -/
theorem cancelOrKeep_unqueued {at' : Int} {l : PayoutBatchLine} (h : Unqueued l) :
    ¬ Unqueued (cancelOrKeep at' l) := by
  simp [cancelOrKeep, cancelUncalledLine, Unqueued, h.1, h.2.2, intentHasUnknownEffect]

omit [Hashing] in
/-- A derived status is never `reserved`, so the rewrite must leave nothing unqueued. -/
theorem keepsOpen_recompute {b : PayoutBatch} {f : PayoutBatchLine → PayoutBatchLine}
    (h : ∀ l ∈ b.lines, ¬ Unqueued (f l)) : KeepsOpen (recomputeStatus f b) := by
  intro l' hl' hunqueued
  rcases List.mem_map.mp hl' with ⟨l, hl, rfl⟩
  exact absurd hunqueued (h l hl)

/-! ## Cancellation -/

omit [Hashing] in
theorem mem_updateBatch {id : Id} {f : PayoutBatch → PayoutBatch} {b' : PayoutBatch}
    (h : b' ∈ (s.updateBatch id f).batches) :
    (b' ∈ s.batches ∧ b'.id ≠ id) ∨ ∃ b ∈ s.batches, b.id = id ∧ b' = f b := by
  rcases List.mem_map.mp h with ⟨b, hb, rfl⟩
  by_cases hid : b.id = id
  · exact .inr ⟨b, hb, hid, by simp [hid]⟩
  · exact .inl (by simpa [hid] using hb)

theorem cancelTripLine_unqueued {entries : List Id} {at' : Int} {l : PayoutBatchLine}
    (h : Unqueued (cancelTripLine entries at' l)) : Unqueued l ∧ l.ledgerEntryId ∉ entries := by
  have hl : Unqueued l := unqueued_of_effect (cancelTripLine_quiet (r := .operation) entries at' l).1 h
  refine ⟨hl, ?_⟩
  intro hmem
  rw [cancelTripLine, if_pos ⟨hmem, hl.2.1⟩] at h
  exact cancelOrKeep_unqueued hl h

/-- One cancellation keeps the reservations open when the trip owns every unqueued
line of the chain. -/
theorem cancelUncalledTripPayouts_open (h : ReservationsOpen s) {tripId : Id} {chain : List Id}
    {at' : Int}
    (howned : ∀ b ∈ s.batches, b.id ∈ chain → ∀ l ∈ b.lines, Unqueued l →
      l.ledgerEntryId ∈ s.tripEntryIds tripId) :
    ReservationsOpen (cancelUncalledTripPayouts tripId chain at' s) := by
  intro b' hb'
  rcases List.mem_map.mp hb' with ⟨b, hb, rfl⟩
  split_ifs with hchain
  · refine keepsOpen_recompute ?_
    intro l hl hunqueued
    rcases cancelTripLine_unqueued hunqueued with ⟨hl', hout⟩
    exact hout (howned b hb hchain l hl hl')
  · exact h b hb

/-- Every unqueued line of the batch lies on a trip that `rest` still corrects
downwards. -/
def OwnedBy (s : Store) (rest : List DifferentialTarget) (b : PayoutBatch) : Prop :=
  ∀ l ∈ b.lines, Unqueued l → ∃ target ∈ rest,
    target.deltaAmount < 0 ∧ l.ledgerEntryId ∈ s.tripEntryIds target.tripSessionId

omit [Hashing] in
theorem OwnedBy.tail {target : DifferentialTarget} {rest : List DifferentialTarget}
    {b : PayoutBatch} (h : OwnedBy s (target :: rest) b) (hpos : ¬ target.deltaAmount < 0) :
    OwnedBy s rest b := by
  intro l hl hunqueued
  rcases h l hl hunqueued with ⟨t, ht, hneg, hentry⟩
  rcases List.mem_cons.mp ht with rfl | ht
  · exact absurd hneg hpos
  · exact ⟨t, ht, hneg, hentry⟩

omit [Hashing] in
theorem tripEntryIds_append (e : EarningsLedgerEntry) (tripId : Id) {i : Id}
    (h : i ∈ s.tripEntryIds tripId) :
    i ∈ ({ s with entries := s.entries ++ [e] } : Store).tripEntryIds tripId := by
  simp only [Store.tripEntryIds, List.filter_append, List.map_append, List.mem_append]
  exact .inl h

/-- The loop over the targets: batches of the chain may be derived again as long
as the targets that are still to come own what is left unqueued in them. -/
theorem writeDifferential_fold_open {chain : List Id} {now : Int} :
    ∀ (rest : List DifferentialTarget) {t t' : Store},
      checkedFold (writeDifferential chain now) t rest = .ok t' →
      (∀ tripId, ∀ i ∈ s.tripEntryIds tripId, i ∈ t.tripEntryIds tripId) →
      (∀ b ∈ t.batches, KeepsOpen b ∨ b.id ∈ chain ∧ OwnedBy s rest b) →
      ((∃ target ∈ rest, target.deltaAmount < 0) →
        ∀ b ∈ t.batches, b.id ∈ chain → OwnedBy s rest b) →
      ReservationsOpen t' := by
  intro rest
  induction rest with
  | nil =>
      intro t t' h _ hbatches _ b hb l hl hunqueued
      have ht : t = t' := by simpa using h
      rcases hbatches b (ht ▸ hb) with hopen | ⟨_, howned⟩
      · exact hopen l hl hunqueued
      · rcases howned l hl hunqueued with ⟨target, htarget, _⟩
        simp at htarget
  | cons target rest ih =>
      intro t t' h hentries hbatches hchain
      rcases bind_eq_ok.mp h with ⟨t₁, hstep, hrest⟩
      have hgrow : ∀ e : EarningsLedgerEntry, ∀ tripId, ∀ i ∈ s.tripEntryIds tripId,
          i ∈ ({ t with entries := t.entries ++ [e] } : Store).tripEntryIds tripId :=
        fun e tripId i hi => tripEntryIds_append e tripId (hentries tripId i hi)
      -- a target that cancels nothing leaves the batches to the targets after it
      have hkeep : ¬ target.deltaAmount < 0 → t₁.batches = t.batches →
          (∀ tripId, ∀ i ∈ s.tripEntryIds tripId, i ∈ t₁.tripEntryIds tripId) →
          ReservationsOpen t' := by
        intro hpos hsame hentries₁
        refine ih hrest hentries₁ ?_ ?_
        · intro b hb
          rcases hbatches b (hsame ▸ hb) with hopen | ⟨hin, howned⟩
          · exact .inl hopen
          · exact .inr ⟨hin, howned.tail hpos⟩
        · rintro ⟨t₂, ht₂, hneg⟩ b hb hin
          exact (hchain ⟨t₂, by simp [ht₂], hneg⟩ b (hsame ▸ hb) hin).tail hpos
      rcases writeDifferential_ok hstep with
        ⟨hzero, rfl⟩ | ⟨_, e, _, _, _, _, _, _, ⟨hpos, _, _, rfl⟩ | ⟨hneg, _, _, rfl⟩⟩
      · exact hkeep (by omega) rfl hentries
      · exact hkeep (by omega) rfl (hgrow e)
      · have hafter : ∀ b ∈ t.batches, b.id ∈ chain →
            OwnedBy s rest (recomputeStatus (cancelTripLine
              (({ t with entries := t.entries ++ [e] } : Store).tripEntryIds
                target.tripSessionId) now) b) := by
          intro b hb hin l' hl' hunqueued
          rcases List.mem_map.mp hl' with ⟨l, hl, rfl⟩
          rcases cancelTripLine_unqueued hunqueued with ⟨hl₀, hout⟩
          have hentry : (cancelTripLine (({ t with entries := t.entries ++ [e] } : Store).tripEntryIds
              target.tripSessionId) now l).ledgerEntryId = l.ledgerEntryId :=
            (cancelTripLine_quiet (r := .operation) _ now l).1.frozen.2.1
          rcases hchain ⟨target, by simp, hneg⟩ b hb hin l hl hl₀ with ⟨t₂, ht₂, hneg₂, hmem⟩
          rcases List.mem_cons.mp ht₂ with rfl | ht₂
          · exact absurd (hgrow e _ _ hmem) hout
          · exact ⟨t₂, ht₂, hneg₂, hentry.symm ▸ hmem⟩
        refine ih hrest (hgrow e) ?_ ?_
        · intro b' hb'
          rcases List.mem_map.mp hb' with ⟨b, hb, rfl⟩
          split_ifs with hin
          · exact .inr ⟨hin, hafter b hb hin⟩
          · rcases hbatches b hb with hopen | ⟨hin', _⟩
            · exact .inl hopen
            · exact absurd hin' hin
        · rintro _ b' hb' hin'
          rcases List.mem_map.mp hb' with ⟨b, hb, rfl⟩
          split_ifs at hin' ⊢ with hin
          · exact hafter b hb hin
          · exact absurd hin' hin

/-! ## Evidence -/

/-- What evidence leaves unqueued was unqueued before, and is of another ledger
entry whenever the evidence is a fresh success. -/
theorem evidenceLine_unqueued (hk : Keyed s.batches) {l : PayoutBatchLine} (hl : l ∈ s.lines)
    {ledgerStatus : EarningsLedgerEntryStatus} {other : Bool} {evidence : VerifiedLineEvidence}
    {actor : Option Id} {now : Int} {effect : EvidenceEffect} (hsent : WasSent l)
    (heffect : evidenceEffect l ledgerStatus other evidence actor now = .ok effect)
    {l' : PayoutBatchLine} (hl' : l' ∈ s.lines)
    (hunqueued : Unqueued (evidenceLine effect evidence.outcome now l')) :
    Unqueued l' ∧ ¬ (evidence.outcome = .succeeded ∧ isEffective l evidence
      ∧ l'.ledgerEntryId = l.ledgerEntryId) := by
  have hquiet := evidenceLine_quiet hk hl hsent heffect hl' now
  have hbefore : Unqueued l' := unqueued_of_effect hquiet.1 hunqueued
  refine ⟨hbefore, ?_⟩
  rintro ⟨hsucceeded, heffective, hentry⟩
  have hfrozen := (LineEffect.evidence rfl hsent heffect).frozen
  have hother : l'.id ≠ effect.line.id := by
    intro heq
    have hsame : l' = l := hk.line_eq hl' hl (heq.trans hfrozen.1)
    rw [hsame] at hbefore
    simp [WasSent, hbefore.1] at hsent
  have happlied : effect.applied = true := by
    rcases evidenceEffect_ok heffect with ⟨hineffective, _⟩ | ⟨_, _, _, _, _, happlied⟩ | ⟨_, hfailed, _⟩
    · simp [heffective] at hineffective
    · exact happlied
    · simp [hsucceeded] at hfailed
  rw [evidenceLine, if_neg hother, if_pos ⟨happlied, hsucceeded⟩, convergeLine,
    if_pos ⟨hentry.trans hfrozen.2.1.symm, hother, hbefore.2.1⟩] at hunqueued
  exact cancelOrKeep_unqueued hbefore hunqueued

theorem applyVerifiedLineEvidence_open (hk : Keyed s.batches) (hopen : ReservationsOpen s)
    {evidence : VerifiedLineEvidence} {source : EvidenceSource}
    {now : Int} (hsafe : LeavesNoneStranded s (.applyEvidence auth evidence source now))
    (h : applyVerifiedLineEvidence auth evidence source now s = .ok s') : ReservationsOpen s' := by
  rcases applyVerifiedLineEvidence_ok h with
    ⟨rfl, _⟩ | ⟨l, entry, effect, hline, hnew, _, heffect, rfl⟩
  · exact hopen
  · rcases evidenceLineFor_ok hline with ⟨href, _, hsent⟩
    have hl := (referencedLine?_eq_some href).1
    have hsafe' : ∀ b ∈ s.batches, b.inChain l.ledgerEntryId → ∀ l' ∈ b.lines, Unqueued l' →
        l'.ledgerEntryId = l.ledgerEntryId ∧ evidence.outcome = .succeeded
          ∧ isEffective l evidence := by
      rcases hsafe with ⟨e, he, hid⟩ | hsafe
      · exact absurd hid (lookup_eq_none.mp hnew e he)
      · exact hsafe l href
    intro b' hb'
    rcases List.mem_map.mp hb' with ⟨b, hb, rfl⟩
    split_ifs with hchain
    · refine keepsOpen_recompute ?_
      intro l' hl' hunqueued
      have hmem := mem_linesOfBatches.mpr ⟨b, hb, hl'⟩
      rcases evidenceLine_unqueued hk hl hsent heffect hmem hunqueued with ⟨hbefore, hnot⟩
      have hentry : effect.line.ledgerEntryId = l.ledgerEntryId :=
        (LineEffect.evidence rfl hsent heffect).frozen.2.1
      rcases hsafe' b hb (hentry ▸ hchain) l' hl' hbefore with ⟨hsame, hsucceeded, heffective⟩
      exact hnot ⟨hsucceeded, heffective, hsame⟩
    · exact hopen b hb

/-! ## The other operations -/

theorem automaticDriver_open (hopen : ReservationsOpen s) {runId : Id} {batchId lineId : Id → Id}
    {providerName : String} {now : Int} {included : List (EarningsLedgerEntry × (Id × Id))}
    {driver : Id}
    (h : automaticDriver runId batchId lineId providerName now included s driver = .ok s') :
    ReservationsOpen s' := by
  rcases automaticDriver_ok h with ⟨st, hfold, hrest⟩
  have hbatches := (automaticEntry_fold hfold).1
  rcases hrest with ⟨_, rfl⟩ | ⟨_, _, rfl⟩
  · intro b hb
    exact hopen b (hbatches ▸ hb)
  · intro b hb
    rcases List.mem_append.mp hb with hb | hb
    · exact hopen b (hbatches ▸ hb)
    · rw [List.mem_singleton.mp hb]
      intro l hl hunqueued
      rcases List.mem_map.mp hl with ⟨l₀, _, rfl⟩
      simp [Unqueued] at hunqueued

omit [Hashing] in
/-- A batch that is appended in status `reserved`, or without lines, keeps open. -/
theorem reservationsOpen_append (hopen : ReservationsOpen s) {b : PayoutBatch}
    (hb : b.status = .reserved ∨ b.lines = []) :
    ReservationsOpen { s with batches := s.batches ++ [b] } := by
  intro b' hb'
  rcases List.mem_append.mp hb' with hb' | hb'
  · exact hopen b' hb'
  · rw [List.mem_singleton.mp hb']
    intro l hl _
    rcases hb with hb | hb
    · exact hb
    · simp [hb] at hl

omit [Hashing] in
theorem reservationsOpen_update (hk : Keyed s.batches) (hopen : ReservationsOpen s)
    {b : PayoutBatch} (hb : b ∈ s.batches) {f : PayoutBatch → PayoutBatch}
    (hf : KeepsOpen (f b)) : ReservationsOpen (s.updateBatch b.id f) := by
  intro b' hb'
  rcases mem_updateBatch hb' with ⟨hb', _⟩ | ⟨b₀, hb₀, hid, rfl⟩
  · exact hopen b' hb'
  · exact hk.batch_eq hb₀ hb hid ▸ hf

/-- One transaction keeps the reservations open when it leaves none stranded. -/
theorem transaction_open (hk : Keyed s.batches) (hshared : ∀ b ∈ s.batches, SharedProvider b)
    (hopen : ReservationsOpen s) {claims : List ClaimedDisbursementIntent} {action : PayoutAction}
    (hsafe : LeavesNoneStranded s action) {out : Store × Option ClaimedDisbursementIntent}
    (h : transaction claims s action = .ok out) : ReservationsOpen out.1 := by
  -- most transactions write the ledger alone
  have hsame : ∀ {t : Store}, t.batches = s.batches → ReservationsOpen t := by
    intro t ht b hb
    exact hopen b (ht ▸ hb)
  cases action with
  | openTrip trip =>
      rw [(openTrip_ok (map_pair_ok h).1).2]
      exact hsame rfl
  | ensureLedgerEntry entryId calculationId tripId amount currency occurredAt =>
      rcases ensureLedgerEntry_ok (map_pair_ok h).1 with
        heq | ⟨_, _, _, _, _, _, _, _, _, _, heq⟩
      all_goals
        rw [heq]
        exact hsame rfl
  | releaseLedgerEntry entryId =>
      rcases releaseLedgerEntry_ok (map_pair_ok h).1 with heq | ⟨_, _, _, heq⟩
      all_goals
        rw [heq]
        exact hsame rfl
  | recordNegativeAdjustment auth sourceEntryId requestId amount currency reason actor now =>
      rcases recordNegativeAdjustment_ok (map_pair_ok h).1 with
        heq | ⟨source, tripId, e, hsource, htrip, hnew, _, _, _, _, _, _, heq⟩
      · rw [heq]
        exact hopen
      · rw [heq]
        -- the deduction cancels the uncalled lines of its trip
        refine cancelUncalledTripPayouts_open (s := { s with entries := s.entries ++ [e] })
          (hsame rfl) ?_
        intro b hb hchain l hl hunqueued
        exact tripEntryIds_append e tripId
          (hsafe hnew source hsource tripId htrip b hb hchain l hl hunqueued)
  | writeDayDifferentials targets recomputeAt =>
      exact writeDifferential_fold_open targets (map_pair_ok h).1 (fun _ _ hi => hi)
        (fun b hb => .inl (hopen b hb)) hsafe
  | createDraft auth currency actor reason batchId requested =>
      rcases createPayoutBatchDraft_ok (map_pair_ok h).1 with heq | ⟨b, _, _, _, hlines, heq⟩
      · rw [heq]
        exact hopen
      · rw [heq]
        exact reservationsOpen_append hopen (.inr hlines)
  | reserve auth batchId ids actor reason lineId =>
      -- a draft that reserves nothing is deleted
      have hdelete : ∀ {t : Store}, t.batches = s.batches → ReservationsOpen (t.deleteBatch batchId) := by
        intro t ht b hb
        exact hopen b (ht ▸ List.mem_of_mem_filter hb)
      rcases reservePayoutBatch_ok (map_pair_ok h).1 with
        heq | ⟨b, _, _, heq⟩ | ⟨b, st, _, _, _, _, hfold, ⟨_, heq⟩ | ⟨_, _, heq⟩⟩
      · rw [heq]
        exact hopen
      · rw [heq]
        exact hdelete rfl
      · rw [heq]
        exact hdelete (reserveEntry_fold hfold).1
      · rw [heq]
        intro b' hb'
        rcases mem_updateBatch hb' with ⟨hb', _⟩ | ⟨_, _, _, rfl⟩
        · exact hsame (reserveEntry_fold hfold).1 b' hb'
        · exact fun _ _ _ => rfl
  | approve auth batchId actor reason now =>
      rcases approvePayoutBatch_ok (map_pair_ok h).1 with heq | ⟨b, hb, _, heq⟩
      · rw [heq]
        exact hopen
      · rcases mem_of_batch? hb with ⟨hmem, rfl⟩
        rw [heq]
        exact reservationsOpen_update hk hopen hmem (hopen b hmem)
  | submit auth batchId actor capabilities =>
      rcases submitPayoutBatch_ok (map_pair_ok h).1 with ⟨b, lines, hb, _, hlines, heq⟩
      rcases mem_of_batch? hb with ⟨hmem, rfl⟩
      rw [heq]
      refine reservationsOpen_update hk hopen hmem ?_
      -- every line was queued, so none is left unqueued
      intro l' hl' hunqueued
      rcases exists_of_mem_forall₂ hlines hl' with ⟨l, _, hq⟩
      have hprovider := (queueLine_effect (r := .operation) hq).2
      simp [providerOf, hunqueued.2.2] at hprovider
  | claim auth automaticClean blocker capabilities lineId token now =>
      rcases claimPayoutSubmissionIntent_ok h with
        rfl | ⟨b, l, i, action, _, hline, hi, hreserved, haction, _, _, _, _, _, _, rfl⟩
      · exact hopen
      · rcases lineOf?_eq_some hline with ⟨hmem, hl, _⟩
        refine reservationsOpen_update hk hopen hmem ?_
        exact keepsOpen_of_status (hopen b hmem)
          (claimBatch_effect (r := .operation) token (lineOf?_unique hk hline) hi hreserved haction) rfl
  | resolve claim answers now =>
      simp only [transaction, bind_eq_ok] at h
      rcases h with ⟨_, _, h⟩
      rcases resolvePayoutSubmissionClaim_ok (map_pair_ok h).1 with
        heq | ⟨b, l, i, hline, hi, hcurrent, heq⟩
      · rw [heq]
        exact hopen
      · rcases lineOf?_eq_some hline with ⟨hmem, hl, _⟩
        rw [heq]
        refine reservationsOpen_update hk hopen hmem ?_
        exact keepsOpen_of_queued (hshared b hmem)
          (resolveBatch_effect (lineOf?_unique hk hline) hi hcurrent
            (fun hn => observe_notFound (finalObservation_outcome.1 hn)) finalObservation_outcome.2)
          hl (by simp [hi])
  | applyEvidence auth evidence source now =>
      exact applyVerifiedLineEvidence_open hk hopen hsafe (map_pair_ok h).1
  | retry auth batchId actor capabilities reason replacementId lineId =>
      rcases retryFailedPayoutLines_ok (map_pair_ok h).1 with
        heq | ⟨_, _, replacement, _, _, _, _, _, _, hstatus, _, _, heq⟩
      · rw [heq]
        exact hopen
      · rw [heq]
        exact reservationsOpen_append hopen (.inl hstatus)
  | void auth batchId actor =>
      rcases voidPayoutBatch_ok (map_pair_ok h).1 with ⟨b, hb, _, _, _, heq⟩
      rcases mem_of_batch? hb with ⟨hmem, rfl⟩
      rw [heq]
      refine reservationsOpen_update hk hopen hmem ?_
      intro l' hl' hunqueued
      rcases List.mem_map.mp hl' with ⟨l, _, rfl⟩
      -- a void line holds no reservation
      simp [Unqueued, voidLine] at hunqueued
  | runAutomatic review capabilities runId period batchId lineId now =>
      rcases runAutomaticPayouts_ok (map_pair_ok h).1 with heq | hfold
      · rw [heq]
        exact hopen
      · exact checkedFold_invariant ReservationsOpen
          (fun _ _ _ ht hstep => automaticDriver_open ht hstep) _ hfold (hsame rfl)
  | releaseUnsent auth paused actor reason releasedAt =>
      rw [releaseUnsentAutomaticPayments_ok (map_pair_ok h).1]
      intro b' hb'
      rcases List.mem_map.mp hb' with ⟨b, hb, rfl⟩
      split_ifs with hrelease
      · rcases List.any_eq_true.mp hrelease.2 with ⟨l, hl, hunsent⟩
        have hqueued : l.intent.isSome := by
          cases hi : l.intent with
          | none => simp [isUnsent, hi] at hunsent
          | some i => rfl
        -- one queued line means that the whole batch was submitted
        exact keepsOpen_of_queued (hshared b hb) (releaseBatch_effect (r := .operation) b releasedAt) hl
          hqueued
      · exact hopen b hb

/-- In every run whose steps leave no unqueued reservation under a derived batch
status, every unqueued reservation keeps its batch in status `reserved`. -/
theorem reservations_stay_open {w : PayoutSystem}
    (hw : ReachableBy payouts (fun w action => LeavesNoneStranded w.store action) w) :
    ReservationsOpen w.store := by
  refine ReachableBy.invariant_of
    (fun w => Keyed w.store.batches ∧ ∀ b ∈ w.store.batches, SharedProvider b) ?_
    (fun w => ReservationsOpen w.store) (fun b hb => absurd hb List.not_mem_nil) ?_ hw
  · intro w hw
    exact ⟨keyed_of_reachable hw, sharedProvider_of_reachable hw⟩
  · intro w action w' hknown hopen hsafe hstep
    rcases payoutStep_ok hstep with ⟨out, hout, hstore, _⟩
    rw [hstore]
    exact transaction_open hknown.1 hknown.2 hopen hsafe hout

end

/-- The second line is sent too and succeeds, the first one fails and is replaced, and the
second trip has a deduction while the replacement is still unqueued. -/
def replacedFirstLine : List PayoutAction :=
  sentFirstLine ++
    [ .claim sampleAuthority (.ok ⟨⟩) none sampleProvider 302 904 120,
      .resolve
        { firstLineClaim 1 904 .submit with
          lineId := 302
          idempotencyKey := "kii"
          instruction :=
            { ledgerEntryId := 102
              payeeVersionId := 12
              bankAccountVersionId := 12
              amount := 5000
              currency := "NGN" }
          instructionFingerprint := "ii" }
        { sampleAnswers with onSubmit := .receipt "P2" "T2" } 130,
      .applyEvidence sampleAuthority
        { providerTransferReference := "T2", providerEventId := "E1", outcome := .succeeded
          occurredAt := 140, evidenceFingerprint := "E1" } .webhook 140,
      .applyEvidence sampleAuthority
        { providerTransferReference := "T1", providerEventId := "E2", outcome := .failed
          occurredAt := 150, evidenceFingerprint := "E2" } .webhook 150,
      .retry
        { sampleAuthority with payeeAuthority := fun driver _ => .ok (driver, driver + 100) }
        201 8 sampleProvider "new bank account" 202 (fun lineId => lineId + 100),
      .recordNegativeAdjustment sampleAuthority 102 502 1000 "NGN" "late return" 8 160 ]

/-- The replacement is reserved with nothing queued, and its batch is still reserved. -/
theorem reservations_stay_open_two_trips :
    ∃ w, Reachable (@payouts sampleHashing) w
      ∧ (∃ b ∈ w.store.batches, b.id = 202 ∧ ∃ l ∈ b.lines, Unqueued l)
      ∧ ReservationsOpen w.store := by
  rcases Machine.exists_reachableBy (@payouts sampleHashing)
      (fun w action => LeavesNoneStranded w.store action)
      replacedFirstLine
      (fun action _ w (h : decide (LeavesNoneStranded w.store action) = true) =>
        of_decide_eq_true h)
      (fun w => w.store.batches.any (fun b => b.id = 202 && b.lines.any (fun l => Unqueued l)))
      (by decide +kernel) with ⟨w, hw, htest⟩
  refine ⟨w, hw.reachable, ?_, @reservations_stay_open sampleHashing w hw⟩
  simpa using htest

/-- A deduction from one trip of a reserved two-trip batch derives `reconciled` and
leaves the other trip's line reserved with nothing queued. -/
theorem not_reservations_always_open :
    ¬ ∀ w, Reachable (@payouts sampleHashing) w → ReservationsOpen w.store := by
  intro h
  rcases Machine.exists_reachable (@payouts sampleHashing)
      (reservedTwoTrips ++ [deductFromFirstTrip])
      (fun w => w.store.batches.any (fun b =>
        b.status = .reconciled && b.lines.any (fun l => Unqueued l))) (by decide) with ⟨w, hw, htest⟩
  rcases List.any_eq_true.mp htest with ⟨b, hb, hbtest⟩
  simp only [Bool.and_eq_true, decide_eq_true_eq, List.any_eq_true] at hbtest
  rcases hbtest with ⟨hstatus, l, hl, hunqueued⟩
  have hopen := h w hw b hb l hl hunqueued
  simp [hstatus] at hopen

end Payout
end Mobility
