import Mobility.Payout.Keys

/-!
# Transitions — every transaction is a sequence of elementary effects

`transaction_effects` is the one place where the operations are matched with
`BatchesEffect`; invariants of batches and lines are proved against the effects.
-/

namespace Mobility
namespace Payout

open Lib

section

variable [Hashing] {r : Cause} {s s' : Store} {auth : Authority}

/-- A line effect that neither adds an intent nor changes its provider. -/
def QuietEffect (r : Cause) (l l' : PayoutBatchLine) : Prop :=
  LineEffect r l l' ∧ providerOf l' = providerOf l

theorem QuietEffect.refl (l : PayoutBatchLine) : QuietEffect r l l :=
  ⟨.same l, rfl⟩

theorem cancelOrKeep_quiet (at' : Int) (l : PayoutBatchLine) :
    QuietEffect r l (cancelOrKeep at' l) := by
  unfold cancelOrKeep
  cases hcancel : cancelUncalledLine l at' with
  | none => exact QuietEffect.refl l
  | some l' =>
      refine ⟨.cancel hcancel, ?_⟩
      rcases cancelUncalledLine_eq_some hcancel with ⟨_, ⟨_, rfl⟩ | ⟨i, hi, _, rfl⟩⟩
      · rfl
      · simp [providerOf, hi]

theorem evidence_quiet {l : PayoutBatchLine} {ledgerStatus : EarningsLedgerEntryStatus}
    {other : Bool} {evidence : VerifiedLineEvidence} {actor : Option Id} {now : Int}
    {effect : EvidenceEffect}
    (hstatus : l.status = .submitted ∨ l.status = .failed ∨ l.status = .succeeded)
    (h : evidenceEffect l ledgerStatus other evidence actor now = .ok effect) :
    QuietEffect .evidence l effect.line := by
  refine ⟨.evidence rfl hstatus h, ?_⟩
  rcases evidenceEffect_line h with ⟨last, hline | ⟨status, _, hline⟩⟩
  all_goals simp [providerOf, hline]

/-! ## Rewriting one batch -/

theorem BatchEffect.refl (b : PayoutBatch) : BatchEffect r b b where
  id := rfl
  lines := List.forall₂_same.mpr (fun l _ => .same l)
  draft := fun h => h
  queued := .inl (List.forall₂_same.mpr (fun _ _ => rfl))

theorem BatchEffect.of_quiet {b b' : PayoutBatch} (f : PayoutBatchLine → PayoutBatchLine)
    (hid : b'.id = b.id) (hlines : b'.lines = b.lines.map f)
    (hdraft : b'.status = .draft → b.status = .draft)
    (hf : ∀ l ∈ b.lines, QuietEffect r l (f l)) : BatchEffect r b b' where
  id := hid
  lines := hlines ▸ forall₂_map_self (fun l hl => (hf l hl).1)
  draft := hdraft
  queued := .inl (hlines ▸ forall₂_map_self (fun l hl => (hf l hl).2))

theorem recomputeStatus_effect {b : PayoutBatch} {f : PayoutBatchLine → PayoutBatchLine}
    (hf : ∀ l ∈ b.lines, QuietEffect r l (f l)) : BatchEffect r b (recomputeStatus f b) :=
  .of_quiet f rfl rfl (fun h => absurd h (deriveBatchStatus_ne_draft _)) hf

/-- Rewriting the lines with one id, all of which admit the rewrite. -/
theorem updateLine_quiet {b : PayoutBatch} {lineId : Id} {f : PayoutBatchLine → PayoutBatchLine}
    (hf : ∀ l ∈ b.lines, l.id = lineId → QuietEffect r l (f l)) :
    ∀ l ∈ b.lines, QuietEffect r l (if l.id = lineId then f l else l) := by
  intro l hl
  by_cases hid : l.id = lineId
  · simpa [hid] using hf l hl hid
  · simpa [hid] using QuietEffect.refl l

theorem updateBatch_effect (hk : Keyed s.batches) {b : PayoutBatch} (hb : b ∈ s.batches)
    {f : PayoutBatch → PayoutBatch} (hf : BatchEffect r b (f b)) :
    BatchesEffect r s.batches (s.updateBatch b.id f).batches := by
  refine .update _ ?_
  intro b' hb'
  by_cases hid : b'.id = b.id
  · rw [hk.batch_eq hb' hb hid]
    simpa using hf
  · simpa [hid] using BatchEffect.refl b'

omit [Hashing] in
theorem mem_of_batch? {id : Id} {b : PayoutBatch} (h : s.batch? id = some b) :
    b ∈ s.batches ∧ b.id = id :=
  mem_of_lookup h

omit [Hashing] in
theorem batch_unique (hk : Keyed s.batches) {id : Id} {b : PayoutBatch}
    (h : s.batch? id = some b) : ∀ b' ∈ s.batches, b'.id = id → b' = b := by
  intro b' hb' hid
  rcases mem_of_batch? h with ⟨hb, rfl⟩
  exact hk.batch_eq hb' hb hid

omit [Hashing] in
theorem fresh_of_batch? {id : Id} (h : s.batch? id = none) : ∀ b ∈ s.batches, b.id ≠ id :=
  lookup_eq_none.mp h

/-! ## Stores that differ outside the batches -/

omit [Hashing] in
@[simp]
theorem updateEntry_batches (id : Id) (f : EarningsLedgerEntry → EarningsLedgerEntry) :
    (s.updateEntry id f).batches = s.batches := rfl

omit [Hashing] in
@[simp]
theorem allocatePayoutRecovery_batches (entry : EarningsLedgerEntry) (payable : Int)
    (request : RecoveryRequest) :
    (allocatePayoutRecovery s entry payable request).1.batches = s.batches := by
  unfold allocatePayoutRecovery
  simp only
  split_ifs <;> rfl

omit [Hashing] in
theorem insertable_of_store {lines : List PayoutBatchLine} (h : s.LinesInsertable lines) :
    Insertable s.batches lines :=
  h

/-! ## Cancellation of a trip's payouts -/

theorem cancelTripLine_quiet (entries : List Id) (at' : Int) (l : PayoutBatchLine) :
    QuietEffect r l (cancelTripLine entries at' l) := by
  unfold cancelTripLine
  split_ifs
  · exact cancelOrKeep_quiet at' l
  · exact QuietEffect.refl l

theorem cancelUncalledTripPayouts_effect (tripId : Id) (chain : List Id) (at' : Int) :
    BatchesEffect r s.batches (cancelUncalledTripPayouts tripId chain at' s).batches := by
  refine .update _ ?_
  intro b _
  split_ifs
  · exact recomputeStatus_effect (fun l _ => cancelTripLine_quiet _ at' l)
  · exact BatchEffect.refl b

theorem writeDayDifferentials_effects {targets : List DifferentialTarget} {now : Int}
    (h : writeDayDifferentials targets now s = .ok s') :
    BatchesEffects r s.batches s'.batches := by
  refine checkedFold_invariant (fun t => BatchesEffects r s.batches t.batches) ?_ targets h .refl
  intro t target t' ht hstep
  rcases writeDifferential_ok hstep with
    ⟨_, rfl⟩ | ⟨_, e, _, _, _, _, _, _, ⟨_, _, _, rfl⟩ | ⟨_, _, _, rfl⟩⟩
  · exact ht
  · exact ht
  · exact ht.tail (cancelUncalledTripPayouts_effect (s := { t with entries := t.entries ++ [e] })
      _ _ _)

/-! ## Reservation -/

/-- What the reservation loop keeps: the batch tables, and only newborn lines. -/
theorem reserveEntry_fold {batch : PayoutBatch} {actor : Id} {lineId : Id → Id}
    {entries : List EarningsLedgerEntry} {st : ReserveState}
    (h : checkedFold (reserveEntry auth batch actor lineId) { store := s } entries = .ok st) :
    st.store.batches = s.batches
      ∧ ∀ l ∈ st.lines, Born l ∧ l.intent = none ∧ l.currency = batch.currency := by
  refine checkedFold_invariant
    (fun st => st.store.batches = s.batches
      ∧ ∀ l ∈ st.lines, Born l ∧ l.intent = none ∧ l.currency = batch.currency)
    ?_ entries h ⟨rfl, by simp⟩
  intro st entry st' ⟨hbatches, hborn⟩ hstep
  rcases reserveEntry_ok hstep with
    ⟨_, _, _, _, _, hcurrency, _, _, hstore, _, ⟨_, hlines⟩ | ⟨versions, left, _, hleft, _, hlines⟩⟩
  · refine ⟨by rw [hstore, allocatePayoutRecovery_batches, hbatches], ?_⟩
    rw [hlines]
    exact hborn
  · refine ⟨by rw [hstore, allocatePayoutRecovery_batches, hbatches], ?_⟩
    intro l hl
    rw [hlines] at hl
    rcases List.mem_append.mp hl with hl | hl
    · exact hborn l hl
    · rw [List.mem_singleton.mp hl]
      exact ⟨⟨_, _, _, _, _, _, hleft, .inl rfl⟩, rfl, hcurrency⟩

theorem deleteBatch_effect {t : Store} {id : Id} (hk : Keyed s.batches) {b : PayoutBatch}
    (hb : s.batch? id = some b) (hdraft : b.status = .draft) (ht : t.batches = s.batches) :
    BatchesEffect r s.batches (t.deleteBatch id).batches := by
  simp only [Store.deleteBatch, ht]
  refine .remove id ?_
  intro b' hb' hid
  rw [batch_unique hk hb b' hb' hid]
  exact hdraft

theorem reservePayoutBatch_effects (hk : Keyed s.batches) {batchId actor : Id} {ids : List Id}
    {reason : String} {lineId : Id → Id}
    (h : reservePayoutBatch auth batchId ids actor reason lineId s = .ok s') :
    BatchesEffects .creation s.batches s'.batches := by
  rcases reservePayoutBatch_ok h with rfl | ⟨b, hb, hdraft, rfl⟩
    | ⟨b, st, hb, hdraft, _, _, hfold, hrest⟩
  · exact .refl
  · exact .single (deleteBatch_effect hk hb hdraft rfl)
  · rcases reserveEntry_fold hfold with ⟨hbatches, hborn⟩
    rcases hrest with ⟨_, rfl⟩ | ⟨_, hins, rfl⟩
    · exact .single (deleteBatch_effect hk hb hdraft hbatches)
    · refine .single ?_
      simp only [Store.updateBatch, hbatches]
      refine .reserve batchId st.lines rfl ?_ ?_ (insertable_of_store hins) ?_ ?_
      · intro b' hb' hid
        rw [batch_unique hk hb b' hb' hid]
        exact hdraft
      · exact ⟨b, mem_of_batch? hb⟩
      · exact fun l hl => ⟨(hborn l hl).1, (hborn l hl).2.1⟩
      · exact ⟨b.currency, fun l hl => (hborn l hl).2.2⟩

/-! ## Submission -/

theorem queueLine_effect {providerName : String} {actor : Id} {l l' : PayoutBatchLine}
    (h : queueLine providerName actor l = .ok l') :
    LineEffect r l l' ∧ providerOf l' = some providerName := by
  rcases queueLine_ok h with ⟨i, hi, hprovider, rfl⟩ | ⟨hnone, hreserved, rfl⟩
  · exact ⟨.same l', by simp [providerOf, hi, hprovider]⟩
  · exact ⟨.queue providerName actor hnone hreserved, by simp [providerOf, newIntent]⟩

theorem submitPayoutBatch_effects (hk : Keyed s.batches) {batchId actor : Id}
    {capabilities : DisbursementProviderCapabilities}
    (h : submitPayoutBatch auth batchId actor capabilities s = .ok s') :
    BatchesEffects r s.batches s'.batches := by
  rcases submitPayoutBatch_ok h with ⟨b, lines, hb, _, hlines, rfl⟩
  rcases mem_of_batch? hb with ⟨hmem, rfl⟩
  refine .single (updateBatch_effect hk hmem
    ⟨rfl, ?_, fun hd => hd, .inr ⟨capabilities.providerName, ?_⟩⟩)
  · exact hlines.imp (fun _ _ hq => (queueLine_effect hq).1)
  · intro l' hl'
    rcases exists_of_mem_forall₂ hlines hl' with ⟨l, _, hq⟩
    exact (queueLine_effect (r := r) hq).2

/-! ## Claims and resolutions -/

omit [Hashing] in
theorem lineOf?_unique (hk : Keyed s.batches) {lineId : Id} {b : PayoutBatch}
    {l : PayoutBatchLine} (h : s.lineOf? lineId = some (b, l)) :
    ∀ l' ∈ b.lines, l'.id = lineId → l' = l := by
  intro l' hl' hid
  rcases lineOf?_eq_some h with ⟨hb, hl, hlid⟩
  exact hk.line_eq (mem_linesOfBatches.mpr ⟨b, hb, hl'⟩) (mem_linesOfBatches.mpr ⟨b, hb, hl⟩)
    (hid.trans hlid.symm)

theorem claimBatch_effect {b : PayoutBatch} {l : PayoutBatchLine} {i : PayoutSubmissionIntent}
    {action : PayoutSubmissionClaimAction} {lineId : Id} (token : Id) {now : Int}
    (hunique : ∀ l' ∈ b.lines, l'.id = lineId → l' = l) (hi : l.intent = some i)
    (hreserved : l.status = .reserved) (haction : claimAction? i now = some action) :
    BatchEffect r b (b.updateLine lineId (·.mapIntent (claimWith action token now))) := by
  refine .of_quiet _ rfl rfl (fun hd => hd) (updateLine_quiet ?_)
  intro l' hl' hid
  rw [hunique l' hl' hid]
  exact ⟨.claim token now hi hreserved haction,
    by simp [providerOf, PayoutBatchLine.mapIntent, hi, claimWith]⟩

theorem claimPayoutSubmissionIntent_effects (hk : Keyed s.batches)
    {automaticClean : Except AppError Unit} {blocker : Option AutomaticBlocker}
    {capabilities : DisbursementProviderCapabilities} {lineId token : Id} {now : Int}
    {out : Store × Option ClaimedDisbursementIntent}
    (h : claimPayoutSubmissionIntent auth automaticClean blocker capabilities lineId token now s
      = .ok out) :
    BatchesEffects r s.batches out.1.batches := by
  rcases claimPayoutSubmissionIntent_ok h with
    rfl | ⟨b, l, i, action, _, hline, hi, hreserved, haction, _, _, _, _, _, _, rfl⟩
  · exact .refl
  · exact .single (updateBatch_effect hk (lineOf?_eq_some hline).1
      (claimBatch_effect token (lineOf?_unique hk hline) hi hreserved haction))

omit [Hashing] in
/-- What the worker observes: only a lookup can report that nothing was found. -/
theorem observe_notFound {claim : ClaimedDisbursementIntent} {answers : ProviderAnswers}
    (h : (observe claim answers).outcome = .notFound) : claim.action = .query := by
  cases haction : claim.action with
  | query => rfl
  | submit =>
      simp only [observe, haction] at h
      split at h
      · split_ifs at h
      · simp at h

omit [Hashing] in
theorem finalObservation_outcome {l : PayoutBatchLine}
    {observation : DisbursementClaimObservation} :
    ((finalObservation s l observation).1.outcome = .notFound →
        observation.outcome = .notFound)
      ∧ ((finalObservation s l observation).2 = true →
        (finalObservation s l observation).1.outcome ≠ .notFound
          ∧ (finalObservation s l observation).1.providerTransferReference.isSome) := by
  unfold finalObservation
  split_ifs with houtcome hmissing hduplicate
  · simp
  · simp
  · have href : observation.providerTransferReference.isSome := by
      cases hnone : observation.providerTransferReference with
      | none => exact absurd (.inl (by simp [hnone])) hmissing
      | some reference => rfl
    refine ⟨fun hn => hn, fun _ => ⟨?_, href⟩⟩
    rcases houtcome with h | h <;> simp [h]
  · simp

theorem resolveBatch_effect {b : PayoutBatch} {l : PayoutBatchLine}
    {i : PayoutSubmissionIntent} {claim : ClaimedDisbursementIntent} {now : Int}
    {final : DisbursementClaimObservation} {resolved : Bool}
    (hunique : ∀ l' ∈ b.lines, l'.id = claim.lineId → l' = l)
    (hi : l.intent = some i) (hcurrent : ClaimCurrent i claim now)
    (hnotFound : final.outcome = .notFound → claim.action = .query)
    (hresolved : resolved = true →
      final.outcome ≠ .notFound ∧ final.providerTransferReference.isSome) :
    BatchEffect (.resolution claim now) b (resolveBatch claim final resolved now b) := by
  cases resolved with
  | false =>
      refine .of_quiet _ rfl rfl (fun hd => hd) (updateLine_quiet ?_)
      intro l' hl' hid
      rw [hunique l' hl' hid]
      refine ⟨.observe final rfl (hunique l' hl' hid ▸ hid) hi hcurrent hnotFound, ?_⟩
      simp only [providerOf, PayoutBatchLine.mapIntent, hi, Option.map_some, resolveIntent]
      split_ifs <;> rfl
  | true =>
      rcases hresolved rfl with ⟨houtcome, href⟩
      refine .of_quiet _ rfl rfl ?_ (updateLine_quiet ?_)
      · intro hd
        exact absurd hd (deriveBatchStatus_ne_draft _)
      · intro l' hl' hid
        rw [hunique l' hl' hid]
        exact ⟨.resolve final rfl (hunique l' hl' hid ▸ hid) hi hcurrent houtcome href,
          by simp [providerOf, PayoutBatchLine.mapIntent, hi, resolveIntent]⟩

/-- A resolution is at most one write. -/
theorem resolvePayoutSubmissionClaim_effect (hk : Keyed s.batches)
    {claim : ClaimedDisbursementIntent} {answers : ProviderAnswers} {now : Int}
    (h : resolvePayoutSubmissionClaim claim (observe claim answers) now s = .ok s') :
    s' = s ∨ BatchesEffect (.resolution claim now) s.batches s'.batches := by
  rcases resolvePayoutSubmissionClaim_ok h with rfl | ⟨b, l, i, hline, hi, hcurrent, rfl⟩
  · exact .inl rfl
  · refine .inr (updateBatch_effect hk (lineOf?_eq_some hline).1 ?_)
    exact resolveBatch_effect (lineOf?_unique hk hline) hi hcurrent
      (fun hn => observe_notFound (finalObservation_outcome.1 hn)) finalObservation_outcome.2

/-! ## Evidence -/

omit [Hashing] in
theorem referencedLine?_eq_some {reference : Reference} {l : PayoutBatchLine}
    (h : s.referencedLine? reference = some l) :
    l ∈ s.lines ∧ l.providerTransferReference = some reference :=
  ⟨List.mem_of_find?_eq_some h, by simpa using List.find?_some h⟩

theorem convergeLine_quiet (lineId entryId : Id) (at' : Int) (l : PayoutBatchLine) :
    QuietEffect r l (convergeLine lineId entryId at' l) := by
  unfold convergeLine
  split_ifs
  · exact cancelOrKeep_quiet at' l
  · exact QuietEffect.refl l

/-- The rewrite of the evidence transaction on each line of the store. -/
theorem evidenceLine_quiet (hk : Keyed s.batches) {l : PayoutBatchLine} (hl : l ∈ s.lines)
    {ledgerStatus : EarningsLedgerEntryStatus} {other : Bool} {evidence : VerifiedLineEvidence}
    {actor : Option Id} {now : Int} {effect : EvidenceEffect}
    (hstatus : l.status = .submitted ∨ l.status = .failed ∨ l.status = .succeeded)
    (heffect : evidenceEffect l ledgerStatus other evidence actor now = .ok effect)
    {l' : PayoutBatchLine} (hl' : l' ∈ s.lines) (resolvedAt : Int) :
    QuietEffect .evidence l' (evidenceLine effect evidence.outcome resolvedAt l') := by
  have hid : effect.line.id = l.id :=
    (LineEffect.evidence (r := .evidence) rfl hstatus heffect).frozen.1
  unfold evidenceLine
  split_ifs with hsame
  · have heq : l' = l := hk.line_eq hl' hl (hsame.trans hid)
    exact heq ▸ evidence_quiet hstatus heffect
  · exact convergeLine_quiet _ _ _ _
  · exact QuietEffect.refl l'

theorem applyVerifiedLineEvidence_effects (hk : Keyed s.batches)
    {evidence : VerifiedLineEvidence} {source : EvidenceSource} {now : Int}
    (h : applyVerifiedLineEvidence auth evidence source now s = .ok s') :
    BatchesEffects .evidence s.batches s'.batches := by
  rcases applyVerifiedLineEvidence_ok h with
    ⟨rfl, _⟩ | ⟨l, entry, effect, hline, _, _, heffect, rfl⟩
  · exact .refl
  · rcases evidenceLineFor_ok hline with ⟨href, _, hstatus⟩
    have hl := (referencedLine?_eq_some href).1
    refine .single (.update _ ?_)
    intro b hb
    split_ifs
    · refine recomputeStatus_effect ?_
      intro l' hl'
      exact evidenceLine_quiet hk hl hstatus heffect (mem_linesOfBatches.mpr ⟨b, hb, hl'⟩) now
    · exact BatchEffect.refl b

/-! ## Replacement, void and the automatic run -/

theorem retryLine_fold {t : Store} {replacementId : Id} {lineId : Id → Id}
    {failed : List PayoutBatchLine} {c : Currency} (hc : ∀ l ∈ failed, l.currency = c)
    {st : RetryState}
    (h : checkedFold (retryLine auth t replacementId lineId) {} failed = .ok st) :
    ∀ l ∈ st.lines, Born l ∧ l.intent = none ∧ l.currency = c := by
  refine checkedFold_prefix
    (fun _ st => ∀ l ∈ st.lines, Born l ∧ l.intent = none ∧ l.currency = c) ?_ h (by simp)
  intro done predecessor rest st st' hfailed hborn hstep
  rcases retryLine_ok hstep with
    ⟨entry, _, versions, amount, _, _, _, _, _, hcurrency, _, hpos, _, hlines⟩
  have hpredecessor : predecessor.currency = c := hc predecessor (by simp [hfailed])
  intro l hl
  rw [hlines] at hl
  rcases List.mem_append.mp hl with hl | hl
  · exact hborn l hl
  · rw [List.mem_singleton.mp hl]
    exact ⟨⟨_, _, _, _, _, _, hpos, .inl rfl⟩, rfl, hcurrency.trans hpredecessor⟩

theorem retryFailedPayoutLines_effects (hk : Keyed s.batches) {batchId actor replacementId : Id}
    {capabilities : DisbursementProviderCapabilities} {reason : String} {lineId : Id → Id}
    (h : retryFailedPayoutLines auth batchId actor capabilities reason replacementId lineId s
      = .ok s') :
    BatchesEffects .creation s.batches s'.batches := by
  rcases retryFailedPayoutLines_ok h with
    rfl | ⟨b, st, replacement, hb, _, hfold, hfresh, hins, rfl, hstatus, _, hlines, rfl⟩
  · exact .refl
  · rcases hk.currencies b (mem_of_batch? hb).1 with ⟨c, hc⟩
    have hborn := retryLine_fold (fun l hl => hc l (List.mem_of_mem_filter (mem_orderBy.mp hl))) hfold
    refine .single (.append replacement rfl (fresh_of_batch? hfresh) (by simp [hstatus]) ?_ ?_
      ⟨none, ?_⟩ ⟨c, ?_⟩)
    · exact hlines ▸ insertable_of_store hins
    · intro l hl
      exact (hborn l (hlines ▸ hl)).1
    · intro l hl
      simp [providerOf, (hborn l (hlines ▸ hl)).2.1]
    · intro l hl
      exact (hborn l (hlines ▸ hl)).2.2

theorem voidPayoutBatch_effects (hk : Keyed s.batches) {batchId actor : Id}
    (h : voidPayoutBatch auth batchId actor s = .ok s') :
    BatchesEffects r s.batches s'.batches := by
  rcases voidPayoutBatch_ok h with ⟨b, hb, _, hlines, hintents, rfl⟩
  rcases mem_of_batch? hb with ⟨hmem, rfl⟩
  refine .single (updateBatch_effect hk hmem (.of_quiet voidLine rfl rfl (by simp) ?_))
  intro l hl
  exact ⟨.void (hlines l hl).1 (hlines l hl).2 (hintents l hl), rfl⟩

theorem automaticEntry_fold {runId batchId : Id} {lineId : Id → Id}
    {items : List (EarningsLedgerEntry × (Id × Id))} {st : AutomaticState}
    (h : checkedFold (automaticEntry runId batchId lineId) { store := s } items = .ok st) :
    st.store.batches = s.batches ∧ ∀ l ∈ st.lines, ∃ item ∈ items, ∃ id amount,
      0 < amount ∧ l = frozenLine id batchId item.1 item.2 amount none := by
  refine checkedFold_prefix
    (fun _ st => st.store.batches = s.batches ∧ ∀ l ∈ st.lines, ∃ item ∈ items, ∃ id amount,
      0 < amount ∧ l = frozenLine id batchId item.1 item.2 amount none)
    ?_ h ⟨rfl, by simp⟩
  intro done item rest st st' hitems ⟨hbatches, hborn⟩ hstep
  rcases automaticEntry_ok hstep with
    rfl | ⟨_, _, _, _, _, hstore, ⟨_, hlines⟩ | ⟨left, _, hleft, _, hlines⟩⟩
  · exact ⟨hbatches, hborn⟩
  · refine ⟨by rw [hstore, allocatePayoutRecovery_batches, hbatches], ?_⟩
    rw [hlines]
    exact hborn
  · refine ⟨by rw [hstore, allocatePayoutRecovery_batches, hbatches], ?_⟩
    intro l hl
    rw [hlines] at hl
    rcases List.mem_append.mp hl with hl | hl
    · exact hborn l hl
    · rw [List.mem_singleton.mp hl]
      exact ⟨item, by simp [hitems], _, _, hleft, rfl⟩

theorem automaticDriver_effects {runId : Id} {batchId lineId : Id → Id} {providerName : String}
    {now : Int} {included : List (EarningsLedgerEntry × (Id × Id))} {driver : Id}
    (hc : ∀ item ∈ included, item.1.currency = automaticCurrency)
    (h : automaticDriver runId batchId lineId providerName now included s driver = .ok s') :
    BatchesEffects .creation s.batches s'.batches := by
  rcases automaticDriver_ok h with ⟨st, hfold, ⟨_, rfl⟩ | ⟨hfresh, hins, rfl⟩⟩
  · rw [(automaticEntry_fold hfold).1]
  · rcases automaticEntry_fold hfold with ⟨hbatches, hborn⟩
    rw [hbatches]
    refine .single (.append _ rfl ?_ (by simp [automaticBatch, freezeBatchInstructionSet]) ?_ ?_
      ⟨some providerName, ?_⟩ ⟨automaticCurrency, ?_⟩)
    · exact hbatches ▸ fresh_of_batch? hfresh
    · -- queueing keeps the columns the indexes look at
      have hins' := insertable_of_store hins
      rw [hbatches] at hins'
      simpa [Insertable, automaticBatch, List.filter_map, List.filterMap_map, Function.comp_def] using hins'
    · intro l hl
      rcases List.mem_map.mp hl with ⟨l₀, hl₀, rfl⟩
      rcases hborn l₀ hl₀ with ⟨item, _, id, amount, hpos, rfl⟩
      exact ⟨id, _, item.1, item.2, amount, none, hpos, .inr ⟨_, _, rfl⟩⟩
    · intro l hl
      rcases List.mem_map.mp hl with ⟨l₀, _, rfl⟩
      simp [providerOf, newIntent]
    · intro l hl
      rcases List.mem_map.mp hl with ⟨l₀, hl₀, rfl⟩
      rcases hborn l₀ hl₀ with ⟨item, hitem, _, _, _, rfl⟩
      exact hc item (List.mem_of_mem_filter (mem_orderBy.mp hitem))

omit [Hashing] in
theorem mem_includedEntries {review : AutomaticReview} {item : EarningsLedgerEntry × (Id × Id)}
    (h : item ∈ includedEntries s review) :
    item.1 ∈ s.entries ∧ isAutomaticCandidate s item.1 := by
  simp only [includedEntries, List.mem_filterMap, List.mem_filter, Option.map_eq_some_iff] at h
  rcases h with ⟨e, he, _, _, rfl⟩
  exact he

omit [Hashing] in
theorem currency_of_candidate {e : EarningsLedgerEntry} (h : isAutomaticCandidate s e) :
    e.currency = automaticCurrency := by
  simp only [isAutomaticCandidate, Bool.and_eq_true, decide_eq_true_eq] at h
  exact h.1.1.1.1.2

theorem runAutomaticPayouts_effects {review : AutomaticReview}
    {capabilities : DisbursementProviderCapabilities} {runId : Id} {period : String}
    {batchId lineId : Id → Id} {now : Int}
    (h : runAutomaticPayouts review capabilities runId period batchId lineId now s = .ok s') :
    BatchesEffects .creation s.batches s'.batches := by
  rcases runAutomaticPayouts_ok h with rfl | hfold
  · exact .refl
  · refine checkedFold_invariant (fun t => BatchesEffects .creation s.batches t.batches) ?_ _ hfold
      .refl
    intro t driver t' ht hstep
    exact ht.trans (automaticDriver_effects
      (fun item hitem => currency_of_candidate (mem_includedEntries hitem).2) hstep)

theorem releaseBatch_effect (b : PayoutBatch) (releasedAt : Int) :
    BatchEffect r b (recomputeStatus (releaseLine releasedAt) b) := by
  refine recomputeStatus_effect ?_
  intro l _
  unfold releaseLine
  split_ifs
  · exact cancelOrKeep_quiet releasedAt l
  · exact QuietEffect.refl l

theorem releaseUnsentAutomaticPayments_effects {paused : Bool} {actor : Id} {reason : String}
    {releasedAt : Int}
    (h : releaseUnsentAutomaticPayments auth paused actor reason releasedAt s = .ok s') :
    BatchesEffects r s.batches s'.batches := by
  rw [releaseUnsentAutomaticPayments_ok h]
  refine .single (.update _ ?_)
  intro b _
  split_ifs
  · exact releaseBatch_effect b releasedAt
  · exact BatchEffect.refl b

/-! ## All transactions -/

/-- Why an action writes to payout lines. -/
def causeOf : PayoutAction → Cause
  | .resolve claim _ now => .resolution claim now
  | .applyEvidence _ _ _ _ => .evidence
  | .reserve _ _ _ _ _ _ => .creation
  | .retry _ _ _ _ _ _ _ => .creation
  | .runAutomatic _ _ _ _ _ _ _ => .creation
  | _ => .operation

omit [Hashing] in
theorem map_pair_ok {x : Except AppError Store} {out : Store × Option ClaimedDisbursementIntent}
    (h : x.map (·, none) = .ok out) : x = .ok out.1 ∧ out.2 = none := by
  cases x with
  | error e => simp [Except.map] at h
  | ok t =>
      simp only [Except.map, Except.ok.injEq] at h
      exact ⟨by rw [← h], by rw [← h]⟩

theorem transaction_effects (hk : Keyed s.batches) {claims : List ClaimedDisbursementIntent}
    {action : PayoutAction} {out : Store × Option ClaimedDisbursementIntent}
    (h : transaction claims s action = .ok out) :
    BatchesEffects (causeOf action) s.batches out.1.batches := by
  cases action with
  | openTrip trip =>
      rw [(openTrip_ok (map_pair_ok h).1).2]
  | ensureLedgerEntry entryId calculationId tripId amount currency occurredAt =>
      rcases ensureLedgerEntry_ok (map_pair_ok h).1 with
        heq | ⟨_, _, _, _, _, _, _, _, _, _, heq⟩
      all_goals rw [heq]
  | releaseLedgerEntry entryId =>
      rcases releaseLedgerEntry_ok (map_pair_ok h).1 with heq | ⟨_, _, _, heq⟩
      all_goals rw [heq]
      rfl
  | recordNegativeAdjustment auth sourceEntryId requestId amount currency reason actor now =>
      rcases recordNegativeAdjustment_ok (map_pair_ok h).1 with
        heq | ⟨_, tripId, e, _, _, _, _, _, _, _, _, _, heq⟩
      · rw [heq]
      · rw [heq]
        exact .single (cancelUncalledTripPayouts_effect (s := { s with entries := s.entries ++ [e] })
          _ _ _)
  | writeDayDifferentials targets recomputeAt =>
      exact writeDayDifferentials_effects (map_pair_ok h).1
  | createDraft auth currency actor reason batchId requested =>
      rcases createPayoutBatchDraft_ok (map_pair_ok h).1 with
        heq | ⟨b, hfresh, rfl, hdraft, hlines, heq⟩
      · rw [heq]
      · rw [heq]
        exact .single (.draft b (fresh_of_batch? hfresh) hdraft hlines)
  | reserve auth batchId ids actor reason lineId =>
      exact reservePayoutBatch_effects hk (map_pair_ok h).1
  | approve auth batchId actor reason now =>
      rcases approvePayoutBatch_ok (map_pair_ok h).1 with heq | ⟨b, hb, hreserved, heq⟩
      · rw [heq]
      · rw [heq]
        rcases mem_of_batch? hb with ⟨hmem, rfl⟩
        -- an approval stamps the batch and leaves its lines
        refine .single (updateBatch_effect hk hmem (.of_quiet id rfl ?_ (fun hd => hd) ?_))
        · simp [approveWith]
        · exact fun l _ => QuietEffect.refl l
  | submit auth batchId actor capabilities =>
      exact submitPayoutBatch_effects hk (map_pair_ok h).1
  | claim auth automaticClean blocker capabilities lineId token now =>
      exact claimPayoutSubmissionIntent_effects hk h
  | resolve claim answers now =>
      simp only [transaction, bind_eq_ok] at h
      rcases h with ⟨_, _, h⟩
      rcases resolvePayoutSubmissionClaim_effect hk (map_pair_ok h).1 with heq | heffect
      · rw [heq]
      · exact .single heffect
  | applyEvidence auth evidence source now =>
      exact applyVerifiedLineEvidence_effects hk (map_pair_ok h).1
  | retry auth batchId actor capabilities reason replacementId lineId =>
      exact retryFailedPayoutLines_effects hk (map_pair_ok h).1
  | void auth batchId actor =>
      exact voidPayoutBatch_effects hk (map_pair_ok h).1
  | runAutomatic review capabilities runId period batchId lineId now =>
      exact runAutomaticPayouts_effects (map_pair_ok h).1
  | releaseUnsent auth paused actor reason releasedAt =>
      exact releaseUnsentAutomaticPayments_effects (map_pair_ok h).1

theorem payoutStep_ok {w w' : PayoutSystem} {action : PayoutAction}
    (h : payoutStep w action = .ok w') :
    ∃ out, transaction w.claims w.store action = .ok out ∧ w'.store = out.1
      ∧ w'.claims = w.claims ++ out.2.toList := by
  simp only [payoutStep, bind_eq_ok, pure_eq_ok] at h
  rcases h with ⟨out, hout, rfl⟩
  exact ⟨out, hout, rfl, rfl⟩

/-- The keys hold in every reachable state. -/
theorem keyed_of_reachable {w : PayoutSystem} (hw : Reachable payouts w) : Keyed w.store.batches := by
  refine ReachableBy.invariant (fun w => Keyed w.store.batches) keyed_nil ?_ hw
  intro w action w' hk _ hstep
  rcases payoutStep_ok hstep with ⟨out, hout, hstore, _⟩
  rw [hstore]
  exact keyed_steps hk (transaction_effects hk hout)

end

end Payout
end Mobility
