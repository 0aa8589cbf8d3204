import Mobility.Payout.Transitions

/-!
# Consistency — lines, intents and batches agree in every reachable state

* `LineInv`: the state of a line fixes its reservation flag, its provider
  reference and the state of its intent.
* `SharedProvider`: the lines of a batch are queued together, for one provider.

Both are proved effect by effect and then hold of every reachable state.
-/

namespace Mobility
namespace Payout

open Lib

/-- The intent states that go with a line status. -/
def StateFits : PayoutBatchLineStatus → PayoutSubmissionIntentState → Prop
  | .reserved, .pending => True
  | .reserved, .claimed => True
  | .reserved, .queryOnly => True
  | .submitted, .resolved => True
  | .succeeded, .resolved => True
  | .failed, .resolved => True
  | .void, .cancelled => True
  | _, _ => False

/-- The provider has taken the line: it was submitted, and may be settled. -/
def WasSent (l : PayoutBatchLine) : Prop :=
  l.status = .submitted ∨ l.status = .failed ∨ l.status = .succeeded

structure LineInv (l : PayoutBatchLine) : Prop where
  active : l.reservationActive = true ↔ l.status = .reserved ∨ l.status = .submitted
  unreferenced : l.providerTransferReference = none ↔ l.status = .reserved ∨ l.status = .void
  state : ∀ i, l.intent = some i → StateFits l.status i.state
  sent : WasSent l → l.intent.isSome
  matching : ∀ i, l.intent = some i → IntentMatches l i
  unseen : l.status = .reserved ∨ l.status = .submitted → l.lastProviderEvidenceAt = none
  positive : 0 < l.amount

def SharedProvider (b : PayoutBatch) : Prop :=
  ∃ p, ∀ l ∈ b.lines, providerOf l = p

section

variable [Hashing] {r : Cause}

theorem lineInv_born {l : PayoutBatchLine} (h : Born l) : LineInv l := by
  rcases h with ⟨id, batchId, entry, versions, amount, predecessor, hpos, rfl | ⟨p, u, rfl⟩⟩
  all_goals
    constructor <;> simp [frozenLine, newIntent, IntentMatches, WasSent, StateFits, hpos]

omit [Hashing] in
/-- A claimed intent belongs to a reserved line. -/
theorem LineInv.reserved_of_current {l : PayoutBatchLine} (h : LineInv l)
    {i : PayoutSubmissionIntent} (hi : l.intent = some i) {claim : ClaimedDisbursementIntent}
    {now : Int} (hcurrent : ClaimCurrent i claim now) : l.status = .reserved := by
  have hfits := h.state i hi
  rw [hcurrent.1] at hfits
  cases hstatus : l.status <;> simp [hstatus, StateFits] at hfits ⊢

omit [Hashing] in
/-- Accepted evidence about a line leaves it succeeded or failed: the first evidence
about a submitted line is never stale. -/
theorem evidence_decides {l : PayoutBatchLine} {ledgerStatus : EarningsLedgerEntryStatus}
    {other : Bool} {evidence : VerifiedLineEvidence} {actor : Option Id} {now : Int}
    {effect : EvidenceEffect}
    (hunseen : l.status = .reserved ∨ l.status = .submitted → l.lastProviderEvidenceAt = none)
    (hsent : l.status = .submitted ∨ l.status = .failed ∨ l.status = .succeeded)
    (heffect : evidenceEffect l ledgerStatus other evidence actor now = .ok effect) :
    effect.line.status ≠ .reserved ∧ effect.line.status ≠ .submitted := by
  rcases evidenceEffect_ok heffect with ⟨hstale, hline, _, _⟩ | ⟨_, _, _, hline, _, _⟩
    | ⟨_, _, _, _, ⟨_, _, hline⟩ | ⟨hfailed, _, hline⟩⟩
  · rcases hsent with hs | hs | hs
    · simp [isEffective, hs, hunseen (.inr hs)] at hstale
    all_goals
      rcases stampEvidence_eq evidence.occurredAt l with ⟨last, hlast⟩
      simp [hline, hlast, hs]
  · rcases stampEvidence_eq evidence.occurredAt { l with
        status := .succeeded
        reservationActive := false
        reconciledByUserId := actor
        reconciledAt := some now } with ⟨last, hlast⟩
    simp [hline, hlast]
  · rcases stampEvidence_eq evidence.occurredAt { l with
        status := .failed
        reservationActive := false
        reconciledByUserId := actor
        reconciledAt := some now } with ⟨last, hlast⟩
    simp [hline, hlast]
  · rcases stampEvidence_eq evidence.occurredAt l with ⟨last, hlast⟩
    simp [hline, hlast, hfailed]

/-- One effect keeps a consistent line consistent. -/
theorem lineInv_step {l l' : PayoutBatchLine} (h : LineInv l) (heffect : LineEffect r l l') :
    LineInv l' := by
  cases heffect with
  | same => exact h
  | queue providerName actor hnone hreserved =>
      refine ⟨h.active, h.unreferenced, ?_, ?_, ?_, h.unseen, h.positive⟩
      · intro i hi
        simp only [Option.some.injEq] at hi
        simp [hreserved, ← hi, newIntent, StateFits]
      · intro _
        rfl
      · intro i hi
        simp only [Option.some.injEq] at hi
        simp [← hi, newIntent, IntentMatches]
  | @claim i action token now hi hreserved _ =>
      have hmatch := h.matching i hi
      refine ⟨h.active, h.unreferenced, ?_, ?_, ?_, h.unseen, h.positive⟩
      · intro i' hi'
        simp only [PayoutBatchLine.mapIntent, hi, Option.map_some, Option.some.injEq] at hi'
        simp [PayoutBatchLine.mapIntent, hreserved, ← hi', claimWith, StateFits]
      · intro _
        simp [PayoutBatchLine.mapIntent, hi]
      · intro i' hi'
        simp only [PayoutBatchLine.mapIntent, hi, Option.map_some, Option.some.injEq] at hi'
        simpa [PayoutBatchLine.mapIntent, ← hi', claimWith, IntentMatches] using hmatch
  | @observe i claim now final _ _ hi hcurrent _ =>
      have hmatch := h.matching i hi
      have hreserved := h.reserved_of_current hi hcurrent
      refine ⟨h.active, h.unreferenced, ?_, ?_, ?_, h.unseen, h.positive⟩
      · intro i' hi'
        simp only [PayoutBatchLine.mapIntent, hi, Option.map_some, Option.some.injEq] at hi'
        subst hi'
        simp only [PayoutBatchLine.mapIntent, hreserved, resolveIntent]
        -- not found: back to pending; unknown: from here on only looked up
        split_ifs <;> simp_all [StateFits]
      · intro _
        simp [PayoutBatchLine.mapIntent, hi]
      · intro i' hi'
        simp only [PayoutBatchLine.mapIntent, hi, Option.map_some, Option.some.injEq] at hi'
        subst hi'
        simp only [IntentMatches, PayoutBatchLine.mapIntent, resolveIntent] at hmatch ⊢
        split_ifs <;> exact hmatch
  | @resolve i claim now final _ _ hi hcurrent _ href =>
      have hmatch := h.matching i hi
      have hreserved := h.reserved_of_current hi hcurrent
      have hactive := h.active.mpr (.inl hreserved)
      refine ⟨?_, ?_, ?_, ?_, ?_, fun _ => h.unseen (.inl hreserved), h.positive⟩
      · simp [PayoutBatchLine.mapIntent, hactive]
      · have hsome := Option.isSome_iff_ne_none.mp href
        simp [hsome]
      · intro i' hi'
        simp only [PayoutBatchLine.mapIntent, hi, Option.map_some, Option.some.injEq] at hi'
        simp [← hi', resolveIntent, StateFits]
      · intro _
        simp [PayoutBatchLine.mapIntent, hi]
      · intro i' hi'
        simp only [PayoutBatchLine.mapIntent, hi, Option.map_some, Option.some.injEq] at hi'
        simpa [← hi', resolveIntent, IntentMatches, PayoutBatchLine.mapIntent] using hmatch
  | cancel hcancel =>
      rcases cancelUncalledLine_eq_some hcancel with
        ⟨hreserved, ⟨hnone, rfl⟩ | ⟨i, hi, hpending, rfl⟩⟩
      · have href := h.unreferenced.mpr (.inl hreserved)
        constructor <;> simp [hnone, href, WasSent, h.positive]
      · have href := h.unreferenced.mpr (.inl hreserved)
        have hmatch := h.matching i hi
        have hpos := h.positive
        constructor <;> simp_all [WasSent, StateFits, IntentMatches]
  | evidence _ hsent heffect =>
      have hsome := h.sent hsent
      -- evidence reaches only lines that were sent, and these have a reference
      have href : l.providerTransferReference ≠ none := by
        intro hnone
        rcases h.unreferenced.mp hnone with hs | hs <;> simp [hs] at hsent
      have hresolved : ∀ i, l.intent = some i → i.state = .resolved := by
        intro i hi
        have hfits := h.state i hi
        rcases hsent with hs | hs | hs <;> rw [hs] at hfits <;>
          cases hstate : i.state <;> simp [hstate, StateFits] at hfits ⊢
      have hdecided := evidence_decides h.unseen hsent heffect
      rcases evidenceEffect_line heffect with ⟨last, hline | ⟨status, hstatus, hline⟩⟩
      · -- the evidence was stamped and the status kept
        rw [hline] at hdecided ⊢
        refine ⟨h.active, h.unreferenced, h.state, h.sent, h.matching, ?_, h.positive⟩
        intro hopen
        exact absurd hopen (not_or.mpr hdecided)
      · rw [hline]
        rcases hstatus with rfl | rfl
        all_goals
          refine ⟨by simp, by simp [href], ?_, fun _ => hsome, h.matching, by simp, h.positive⟩
          intro i hi
          simp [hresolved i hi, StateFits]
  | void hreserved href hnone =>
      constructor <;> simp [voidLine, hnone, href, WasSent, h.positive]

theorem sharedProvider_step {b b' : PayoutBatch} (h : SharedProvider b) (he : BatchEffect r b b') :
    SharedProvider b' := by
  rcases h with ⟨p, hp⟩
  rcases he.queued with hsame | ⟨p', hp'⟩
  · refine ⟨p, ?_⟩
    intro l' hl'
    rcases exists_of_mem_forall₂ hsame hl' with ⟨l, hl, heq⟩
    exact heq.trans (hp l hl)
  · exact ⟨some p', hp'⟩

/-! ## From effects to runs -/

/-- A property of batches that holds of drafts and newborn batches, and that every
batch effect keeps, holds of every batch after a transaction. -/
theorem batches_invariant {P : PayoutBatch → Prop}
    (hempty : ∀ b, b.lines = [] → P b)
    (hborn : ∀ b, (∀ l ∈ b.lines, Born l) → SharedProvider b → P b)
    (heffect : ∀ b b', P b → BatchEffect r b b' → P b') {bs bs' : List PayoutBatch}
    (h : BatchesEffects r bs bs') (hP : ∀ b ∈ bs, P b) : ∀ b ∈ bs', P b := by
  induction h with
  | refl => exact hP
  | tail _ hstep ih =>
      intro b hb
      cases hstep with
      | draft b₀ _ _ hlines =>
          rcases List.mem_append.mp hb with hb | hb
          · exact ih b hb
          · exact hempty b (List.mem_singleton.mp hb ▸ hlines)
      | remove id _ => exact ih b (List.mem_of_mem_filter hb)
      | reserve id lines _ _ _ _ hlines _ =>
          rcases List.mem_map.mp hb with ⟨b₀, hb₀, rfl⟩
          split_ifs
          · refine hborn _ (fun l hl => (hlines l hl).1) ⟨none, fun l hl => ?_⟩
            simp [providerOf, (hlines l hl).2]
          · exact ih b₀ hb₀
      | append b₀ _ _ _ _ hlines hprovider _ =>
          rcases List.mem_append.mp hb with hb | hb
          · exact ih b hb
          · rw [List.mem_singleton.mp hb]
            exact hborn b₀ hlines hprovider
      | update f hf =>
          rcases List.mem_map.mp hb with ⟨b₀, hb₀, rfl⟩
          exact heffect b₀ _ (ih b₀ hb₀) (hf b₀ hb₀)

/-- The same for all runs. -/
theorem batches_invariant_reachable {P : PayoutBatch → Prop}
    (hempty : ∀ b, b.lines = [] → P b)
    (hborn : ∀ b, (∀ l ∈ b.lines, Born l) → SharedProvider b → P b)
    (heffect : ∀ (r : Cause) b b', P b → BatchEffect r b b' → P b') {w : PayoutSystem}
    (hw : Reachable payouts w) : ∀ b ∈ w.store.batches, P b := by
  refine ReachableBy.invariant_of (fun w => Keyed w.store.batches) (fun _ => keyed_of_reachable)
    (fun w => ∀ b ∈ w.store.batches, P b) (fun b hb => absurd hb List.not_mem_nil) ?_ hw
  intro w action w' hk hP _ hstep
  rcases payoutStep_ok hstep with ⟨out, hout, hstore, _⟩
  rw [hstore]
  exact batches_invariant hempty hborn (heffect _) (transaction_effects hk hout) hP

theorem lineInv_of_reachable {w : PayoutSystem} (hw : Reachable payouts w) :
    ∀ b ∈ w.store.batches, ∀ l ∈ b.lines, LineInv l := by
  refine batches_invariant_reachable ?_ ?_ ?_ hw
  · intro b hempty l hl
    simp [hempty] at hl
  · intro b hborn _ l hl
    exact lineInv_born (hborn l hl)
  · intro r b b' hinv he l' hl'
    rcases exists_of_mem_forall₂ he.lines hl' with ⟨l, hl, hll'⟩
    exact lineInv_step (hinv l hl) hll'

theorem sharedProvider_of_reachable {w : PayoutSystem} (hw : Reachable payouts w) :
    ∀ b ∈ w.store.batches, SharedProvider b := by
  refine batches_invariant_reachable ?_ ?_ ?_ hw
  · intro b hempty
    exact ⟨none, by simp [hempty]⟩
  · exact fun b _ hprovider => hprovider
  · exact fun r b b' => sharedProvider_step

end

end Payout
end Mobility
