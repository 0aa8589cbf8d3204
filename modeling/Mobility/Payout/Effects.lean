import Mathlib.Logic.Relation
import Mobility.Lib.Table
import Mobility.Payout.Inversion

/-!
# Effects — the elementary effects of a transaction on batches and lines

* `LineEffect r l l'`: what one write may do to a payout line.  The index `r` says
  why: only a resolution records an observation, only evidence settles a line and
  only a creating operation adds lines.
* `BatchEffect r b b'`: a batch keeps its identity and its lines change by
  `LineEffect`.
* `BatchesEffect r bs bs'`: batches are drafted, removed while draft, reserved,
  appended whole, or rewritten one by one.

`transaction_effects` shows that every transaction is a finite sequence of these.
-/

namespace Mobility
namespace Payout

open Lib

/-- Why a transaction writes to payout lines. -/
inductive Cause
  | operation
  | creation
  | resolution (claim : ClaimedDisbursementIntent) (now : Int)
  | evidence

section

variable [Hashing]

/-! ## Lines -/

inductive LineEffect (r : Cause) : PayoutBatchLine → PayoutBatchLine → Prop
  | same (l : PayoutBatchLine) : LineEffect r l l
  | queue {l : PayoutBatchLine} (providerName : String) (actor : Id) :
      l.intent = none → l.status = .reserved →
      LineEffect r l { l with intent := some (newIntent providerName actor l) }
  | claim {l : PayoutBatchLine} {i : PayoutSubmissionIntent}
      {action : PayoutSubmissionClaimAction} (token : Id) (now : Int) :
      l.intent = some i → l.status = .reserved → claimAction? i now = some action →
      LineEffect r l (l.mapIntent (claimWith action token now))
  | observe {l : PayoutBatchLine} {i : PayoutSubmissionIntent}
      {claim : ClaimedDisbursementIntent} {now : Int} (final : DisbursementClaimObservation) :
      r = .resolution claim now → l.id = claim.lineId → l.intent = some i →
      ClaimCurrent i claim now → (final.outcome = .notFound → claim.action = .query) →
      LineEffect r l (l.mapIntent (resolveIntent claim final false now))
  | resolve {l : PayoutBatchLine} {i : PayoutSubmissionIntent}
      {claim : ClaimedDisbursementIntent} {now : Int} (final : DisbursementClaimObservation) :
      r = .resolution claim now → l.id = claim.lineId → l.intent = some i →
      ClaimCurrent i claim now → final.outcome ≠ .notFound → final.providerTransferReference.isSome →
      LineEffect r l
        { l.mapIntent (resolveIntent claim final true now) with
          providerTransferReference := final.providerTransferReference
          status := .submitted }
  | cancel {l l' : PayoutBatchLine} {cancelledAt : Int} :
      cancelUncalledLine l cancelledAt = some l' → LineEffect r l l'
  | evidence {l : PayoutBatchLine} {ledgerStatus : EarningsLedgerEntryStatus} {other : Bool}
      {evidence : VerifiedLineEvidence} {actor : Option Id} {now : Int} {effect : EvidenceEffect} :
      r = .evidence → (l.status = .submitted ∨ l.status = .failed ∨ l.status = .succeeded) →
      evidenceEffect l ledgerStatus other evidence actor now = .ok effect →
      LineEffect r l effect.line
  | void {l : PayoutBatchLine} :
      l.status = .reserved → l.providerTransferReference = none → l.intent = none →
      LineEffect r l (voidLine l)

/-- The columns of a line that no effect writes. -/
def SameFrozen (l l' : PayoutBatchLine) : Prop :=
  l'.id = l.id ∧ l'.ledgerEntryId = l.ledgerEntryId
    ∧ l'.predecessorLineId = l.predecessorLineId ∧ l'.amount = l.amount
    ∧ l'.currency = l.currency ∧ l'.instruction = l.instruction
    ∧ l'.instructionFingerprint = l.instructionFingerprint ∧ l'.idempotencyKey = l.idempotencyKey

/-! ### Shapes of the writes -/

omit [Hashing] in
theorem cancelUncalledLine_eq_some {l l' : PayoutBatchLine} {at' : Int}
    (h : cancelUncalledLine l at' = some l') :
    l.status = .reserved
      ∧ ((l.intent = none ∧ l' = { l with
            status := .void, reservationActive := false, reconciledAt := some at' })
        ∨ ∃ i, l.intent = some i ∧ i.state = .pending ∧ l' = { l with
            intent := some { i with state := .cancelled, resolvedAt := some at' }
            status := .void, reservationActive := false, reconciledAt := some at' }) := by
  unfold cancelUncalledLine at h
  split_ifs at h with hblocked
  have hreserved : l.status = .reserved := by
    by_contra hne
    exact hblocked (.inl hne)
  refine ⟨hreserved, ?_⟩
  cases hintent : l.intent with
  | none =>
      simp only [hintent, Option.some.injEq] at h
      exact .inl ⟨rfl, h.symm⟩
  | some i =>
      simp only [hintent] at h
      split_ifs at h with hstate
      simp only [Option.some.injEq] at h
      exact .inr ⟨i, rfl, not_not.mp hstate, h.symm⟩

omit [Hashing] in
theorem stampEvidence_eq (t : Int) (l : PayoutBatchLine) :
    ∃ last, stampEvidence t l = { l with lastProviderEvidenceAt := some last } := by
  unfold stampEvidence
  cases hlast : l.lastProviderEvidenceAt with
  | none => exact ⟨t, rfl⟩
  | some last =>
      by_cases hnewer : t > last
      · exact ⟨t, by simp [hnewer]⟩
      · refine ⟨last, ?_⟩
        simp only [hnewer, if_false]
        rw [← hlast]

omit [Hashing] in
/-- Evidence leaves the line as it was but for its stamp, or settles it. -/
theorem evidenceEffect_line {l : PayoutBatchLine} {ledgerStatus : EarningsLedgerEntryStatus}
    {other : Bool} {evidence : VerifiedLineEvidence} {actor : Option Id} {now : Int}
    {effect : EvidenceEffect}
    (h : evidenceEffect l ledgerStatus other evidence actor now = .ok effect) :
    ∃ last, effect.line = { l with lastProviderEvidenceAt := some last }
      ∨ ∃ status, (status = .succeeded ∨ status = .failed) ∧ effect.line = { l with
          status := status
          reservationActive := false
          reconciledByUserId := actor
          reconciledAt := some now
          lastProviderEvidenceAt := some last } := by
  rcases evidenceEffect_ok h with ⟨_, hline, _, _⟩ | ⟨_, _, _, hline, _, _⟩
    | ⟨_, _, _, _, ⟨_, _, hline⟩ | ⟨_, _, hline⟩⟩
  · rcases stampEvidence_eq evidence.occurredAt l with ⟨last, hlast⟩
    exact ⟨last, .inl (hline.trans hlast)⟩
  · rcases stampEvidence_eq evidence.occurredAt _ with ⟨last, hlast⟩
    exact ⟨last, .inr ⟨.succeeded, .inl rfl, hline.trans hlast⟩⟩
  · rcases stampEvidence_eq evidence.occurredAt _ with ⟨last, hlast⟩
    exact ⟨last, .inr ⟨.failed, .inr rfl, hline.trans hlast⟩⟩
  · rcases stampEvidence_eq evidence.occurredAt l with ⟨last, hlast⟩
    exact ⟨last, .inl (hline.trans hlast)⟩

theorem LineEffect.frozen {r : Cause} {l l' : PayoutBatchLine} (h : LineEffect r l l') :
    SameFrozen l l' := by
  cases h with
  | cancel hcancel =>
      rcases cancelUncalledLine_eq_some hcancel with ⟨_, ⟨_, rfl⟩ | ⟨i, _, _, rfl⟩⟩
      all_goals simp [SameFrozen]
  | evidence _ _ heffect =>
      rcases evidenceEffect_line heffect with ⟨last, hline | ⟨status, _, hline⟩⟩
      all_goals simp [SameFrozen, hline]
  | _ => simp [SameFrozen, PayoutBatchLine.mapIntent, voidLine]

/-- No effect reactivates a released reservation. -/
theorem LineEffect.active {r : Cause} {l l' : PayoutBatchLine} (h : LineEffect r l l') :
    l'.reservationActive → l.reservationActive := by
  cases h with
  | cancel hcancel =>
      rcases cancelUncalledLine_eq_some hcancel with ⟨_, ⟨_, rfl⟩ | ⟨i, _, _, rfl⟩⟩
      all_goals simp
  | evidence _ _ heffect =>
      rcases evidenceEffect_line heffect with ⟨last, hline | ⟨status, _, hline⟩⟩
      all_goals simp [hline]
  | void => simp [voidLine]
  | _ => simp [PayoutBatchLine.mapIntent]

/-- The provider an intent belongs to, if the line has an intent. -/
def providerOf (l : PayoutBatchLine) : Option String :=
  l.intent.map (·.providerName)

/-! ## Batches -/

structure BatchEffect (r : Cause) (b b' : PayoutBatch) : Prop where
  id : b'.id = b.id
  lines : List.Forall₂ (LineEffect r) b.lines b'.lines
  draft : b'.status = .draft → b.status = .draft
  /-- lines are queued all at once or not at all -/
  queued : List.Forall₂ (fun l l' => providerOf l' = providerOf l) b.lines b'.lines
    ∨ ∃ p, ∀ l' ∈ b'.lines, providerOf l' = some p

/-- A line as it is first written: frozen, reserved and, when it is part of an
automatic batch, already queued. -/
def Born (l : PayoutBatchLine) : Prop :=
  ∃ id batchId entry versions amount predecessor, 0 < amount
    ∧ (l = frozenLine id batchId entry versions amount predecessor
      ∨ ∃ p u, l = { frozenLine id batchId entry versions amount predecessor with
          intent := some (newIntent p u
            (frozenLine id batchId entry versions amount predecessor)) })

def linesOfBatches (bs : List PayoutBatch) : List PayoutBatchLine :=
  bs.flatMap (·.lines)

/-- Primary keys and partial unique indexes hold after the lines are added. -/
def Insertable (bs : List PayoutBatch) (lines : List PayoutBatchLine) : Prop :=
  ((linesOfBatches bs ++ lines).map (·.id)).Nodup
    ∧ (((linesOfBatches bs ++ lines).filter (·.reservationActive)).map (·.ledgerEntryId)).Nodup
    ∧ ((linesOfBatches bs ++ lines).filterMap (·.predecessorLineId)).Nodup

inductive BatchesEffect (r : Cause) : List PayoutBatch → List PayoutBatch → Prop
  | draft {bs : List PayoutBatch} (b : PayoutBatch) :
      (∀ b' ∈ bs, b'.id ≠ b.id) → b.status = .draft → b.lines = [] →
      BatchesEffect r bs (bs ++ [b])
  | remove {bs : List PayoutBatch} (id : Id) :
      (∀ b ∈ bs, b.id = id → b.status = .draft) →
      BatchesEffect r bs (bs.filter (·.id ≠ id))
  | reserve {bs : List PayoutBatch} (id : Id) (lines : List PayoutBatchLine) :
      r = .creation → (∀ b ∈ bs, b.id = id → b.status = .draft) → (∃ b ∈ bs, b.id = id) →
      Insertable bs lines → (∀ l ∈ lines, Born l ∧ l.intent = none) →
      (∃ c, ∀ l ∈ lines, l.currency = c) →
      BatchesEffect r bs (bs.map (fun b => if b.id = id then reserveWith lines b else b))
  | append {bs : List PayoutBatch} (b : PayoutBatch) :
      r = .creation → (∀ b' ∈ bs, b'.id ≠ b.id) → b.status ≠ .draft → Insertable bs b.lines →
      (∀ l ∈ b.lines, Born l) → (∃ p, ∀ l ∈ b.lines, providerOf l = p) →
      (∃ c, ∀ l ∈ b.lines, l.currency = c) → BatchesEffect r bs (bs ++ [b])
  | update {bs : List PayoutBatch} (f : PayoutBatch → PayoutBatch) :
      (∀ b ∈ bs, BatchEffect r b (f b)) → BatchesEffect r bs (bs.map f)

/-- A transaction is a finite sequence of elementary effects. -/
abbrev BatchesEffects (r : Cause) : List PayoutBatch → List PayoutBatch → Prop :=
  Relation.ReflTransGen (BatchesEffect r)

end

end Payout
end Mobility
