import Mobility.Payout.OpenReservations

/-!
# SubmissionSafety — one intent, many workers

Workers claim an intent, call the provider outside any transaction, and resolve
late, twice or never.  `FenceInv` is the invariant of one intent under all their
interleavings: generations number the attempts, an observation belongs to the
generation that was current when it was recorded, and before a second submission
or a cancellation some later lookup found nothing at the provider.
-/

namespace Mobility
namespace Payout

open Lib

/-- A lookup of a later generation recorded that the provider has no such transfer. -/
def LookedUpSince (i : PayoutSubmissionIntent) (generation : Nat)
    (q : PayoutSubmissionAttempt) : Prop :=
  q ∈ i.attempts ∧ q.action = .query ∧ generation < q.generation
    ∧ ∃ o ∈ i.observations,
        o.generation = q.generation ∧ o.attempt = q.claimToken ∧ o.outcome = .notFound

structure FenceInv (i : PayoutSubmissionIntent) : Prop where
  bounded : ∀ a ∈ i.attempts, a.generation ≤ i.generation
  ordered : i.attempts.Pairwise (fun a a' => a.generation < a'.generation)
  current : i.state = .claimed → ∃ a ∈ i.attempts, a.generation = i.generation
    ∧ i.claimToken = some a.claimToken ∧ i.claimAction = some a.action
  observed : ∀ o ∈ i.observations, o.generation ≤ i.generation
  unobserved : i.state = .claimed → ∀ o ∈ i.observations, o.generation < i.generation
  observedOnce : i.observations.Pairwise (fun o o' => o.generation < o'.generation)
  cleared : i.state = .pending ∨ i.state = .cancelled →
    ∀ a ∈ i.attempts, a.action = .submit → ∃ q, LookedUpSince i a.generation q
  separated : ∀ a ∈ i.attempts, ∀ a' ∈ i.attempts, a.action = .submit → a'.action = .submit →
    a.generation < a'.generation →
      ∃ q, LookedUpSince i a.generation q ∧ q.generation < a'.generation

/-! ## The invariant under single writes -/

theorem fenceInv_new {providerName : String} {actor : Id} {l : PayoutBatchLine} :
    FenceInv (newIntent providerName actor l) := by
  constructor <;> simp [newIntent]

/-- A generation names one attempt. -/
theorem FenceInv.attempt_eq {i : PayoutSubmissionIntent} (h : FenceInv i)
    {a a' : PayoutSubmissionAttempt} (ha : a ∈ i.attempts) (ha' : a' ∈ i.attempts)
    (hgen : a.generation = a'.generation) : a = a' := by
  have hnodup : (i.attempts.map (·.generation)).Nodup := by
    rw [List.Nodup, List.pairwise_map]
    exact h.ordered.imp (fun hlt => hlt.ne)
  exact eq_of_key_eq hnodup ha ha' hgen

theorem LookedUpSince.mono {i i' : PayoutSubmissionIntent} {generation : Nat}
    {q : PayoutSubmissionAttempt} (hattempts : ∀ a ∈ i.attempts, a ∈ i'.attempts)
    (hobservations : ∀ o ∈ i.observations, o ∈ i'.observations)
    (h : LookedUpSince i generation q) : LookedUpSince i' generation q := by
  rcases h with ⟨hq, hquery, hlater, o, ho, hrest⟩
  exact ⟨hattempts q hq, hquery, hlater, o, hobservations o ho, hrest⟩

/-- Claiming opens a new generation; a submission is claimed only from `pending`. -/
theorem fenceInv_claim {i : PayoutSubmissionIntent} (h : FenceInv i)
    {action : PayoutSubmissionClaimAction} {token : Id} {now : Int}
    (haction : claimAction? i now = some action) : FenceInv (claimWith action token now i) := by
  have hpending : action = .submit → i.state = .pending := by
    intro hsubmit
    subst hsubmit
    unfold claimAction? at haction
    cases hstate : i.state with
    | pending => rfl
    | claimed =>
        simp only [hstate] at haction
        split at haction
        · split_ifs at haction
          simp at haction
        · simp at haction
    | _ => simp [hstate] at haction
  have hkeep : ∀ {g : Nat} {q : PayoutSubmissionAttempt}, LookedUpSince i g q →
      LookedUpSince (claimWith action token now i) g q := by
    intro g q hq
    have hattempts : ∀ a ∈ i.attempts, a ∈ (claimWith action token now i).attempts := by
      intro a ha
      exact List.mem_append_left _ ha
    exact hq.mono hattempts (fun o ho => ho)
  refine ⟨?_, ?_, ?_, ?_, ?_, h.observedOnce, ?_, ?_⟩
  · intro a ha
    rcases List.mem_append.mp ha with ha | ha
    · exact Nat.le_succ_of_le (h.bounded a ha)
    · rw [List.mem_singleton.mp ha]
      exact le_refl _
  · refine List.pairwise_append.mpr ⟨h.ordered, List.pairwise_singleton _ _, ?_⟩
    intro a ha a' ha'
    rw [List.mem_singleton.mp ha']
    exact Nat.lt_succ_of_le (h.bounded a ha)
  · intro _
    exact ⟨_, List.mem_append_right _ (List.mem_singleton_self _), rfl, rfl, rfl⟩
  · intro o ho
    exact Nat.le_succ_of_le (h.observed o ho)
  · intro _ o ho
    exact Nat.lt_succ_of_le (h.observed o ho)
  · simp [claimWith]
  · intro a ha a' ha' hsubmit hsubmit' hlt
    rcases List.mem_append.mp ha with ha | ha
    · rcases List.mem_append.mp ha' with ha' | ha'
      · rcases h.separated a ha a' ha' hsubmit hsubmit' hlt with ⟨q, hq, hbefore⟩
        exact ⟨q, hkeep hq, hbefore⟩
      · rw [List.mem_singleton.mp ha'] at hsubmit' ⊢
        -- the earlier submission was looked up, or this one would not be pending
        rcases h.cleared (.inl (hpending hsubmit')) a ha hsubmit with ⟨q, hq⟩
        exact ⟨q, hkeep hq, Nat.lt_succ_of_le (h.bounded q hq.1)⟩
    · rw [List.mem_singleton.mp ha] at hlt
      rcases List.mem_append.mp ha' with ha' | ha'
      · have hle := h.bounded a' ha'
        simp only at hlt
        omega
      · rw [List.mem_singleton.mp ha'] at hlt
        exact absurd hlt (lt_irrefl _)

section

variable [Hashing]

/-- Resolving records one observation for the current generation. -/
theorem fenceInv_resolve {i : PayoutSubmissionIntent} (h : FenceInv i)
    {claim : ClaimedDisbursementIntent} {now : Int} (hcurrent : ClaimCurrent i claim now)
    (final : DisbursementClaimObservation) (resolved : Bool)
    (hnotFound : resolved = false → final.outcome = .notFound → claim.action = .query) :
    FenceInv (resolveIntent claim final resolved now i) := by
  have hattempts : (resolveIntent claim final resolved now i).attempts = i.attempts := by
    simp only [resolveIntent]
    split_ifs <;> rfl
  have hgeneration : (resolveIntent claim final resolved now i).generation = i.generation := by
    simp only [resolveIntent]
    split_ifs <;> rfl
  have hobservations : (resolveIntent claim final resolved now i).observations
      = i.observations ++ [observationRow i claim final now] := by
    simp only [resolveIntent]
    split_ifs <;> rfl
  have hstate : (resolveIntent claim final resolved now i).state ≠ .claimed := by
    simp only [resolveIntent]
    split_ifs <;> simp
  have hkeep : ∀ {g : Nat} {q : PayoutSubmissionAttempt}, LookedUpSince i g q →
      LookedUpSince (resolveIntent claim final resolved now i) g q := by
    intro g q hq
    refine hq.mono (fun a ha => hattempts ▸ ha) ?_
    intro o ho
    rw [hobservations]
    exact List.mem_append_left _ ho
  refine ⟨?_, ?_, fun hclaimed => absurd hclaimed hstate, ?_,
    fun hclaimed => absurd hclaimed hstate, ?_, ?_, ?_⟩
  · rw [hattempts, hgeneration]
    exact h.bounded
  · rw [hattempts]
    exact h.ordered
  · rw [hobservations, hgeneration]
    intro o ho
    rcases List.mem_append.mp ho with ho | ho
    · exact h.observed o ho
    · rw [List.mem_singleton.mp ho]
      exact le_refl _
  · rw [hobservations]
    refine List.pairwise_append.mpr ⟨h.observedOnce, List.pairwise_singleton _ _, ?_⟩
    intro o ho o' ho'
    rw [List.mem_singleton.mp ho']
    exact h.unobserved hcurrent.1 o ho
  · -- back in `pending` only after a lookup that found nothing
    intro hopen a ha hsubmit
    have hpending : resolved = false ∧ final.outcome = .notFound := by
      simp only [resolveIntent] at hopen
      split_ifs at hopen with hresolved houtcome
      · simp at hopen
      · exact ⟨by simpa using hresolved, houtcome⟩
      · simp at hopen
    have hquery := hnotFound hpending.1 hpending.2
    rcases h.current hcurrent.1 with ⟨q, hq, hqgen, hqtoken, hqaction⟩
    have hqquery : q.action = .query := by
      have haction := hcurrent.2.2.2.1
      rw [hqaction, Option.some.injEq] at haction
      exact haction.trans hquery
    have hqclaim : claim.claimToken = q.claimToken := by
      have htoken := hcurrent.2.2.1
      rw [hqtoken, Option.some.injEq] at htoken
      exact htoken.symm
    rw [hattempts] at ha
    have hlt : a.generation < q.generation := by
      have hle := h.bounded a ha
      have hne : a.generation ≠ q.generation := by
        intro heq
        have hsame := h.attempt_eq ha hq heq
        rw [hsame, hqquery] at hsubmit
        exact absurd hsubmit (by simp)
      omega
    refine ⟨q, hattempts ▸ hq, hqquery, hlt, observationRow i claim final now, ?_, ?_, ?_, ?_⟩
    · rw [hobservations]
      exact List.mem_append_right _ (List.mem_singleton_self _)
    · exact hqgen.symm
    · exact hqclaim
    · exact hpending.2
  · rw [hattempts]
    intro a ha a' ha' hsubmit hsubmit' hlt
    rcases h.separated a ha a' ha' hsubmit hsubmit' hlt with ⟨q, hq, hbefore⟩
    exact ⟨q, hkeep hq, hbefore⟩

/-- One effect keeps the fence of a line's intent. -/
theorem fenceInv_step {r : Cause} {l l' : PayoutBatchLine}
    (h : ∀ i, l.intent = some i → FenceInv i) (heffect : LineEffect r l l') :
    ∀ i, l'.intent = some i → FenceInv i := by
  intro i' hi'
  cases heffect with
  | same => exact h i' hi'
  | queue providerName actor _ _ =>
      simp only [Option.some.injEq] at hi'
      exact hi' ▸ fenceInv_new
  | claim token now hi _ haction =>
      simp only [PayoutBatchLine.mapIntent, hi, Option.map_some, Option.some.injEq] at hi'
      exact hi' ▸ fenceInv_claim (h _ hi) haction
  | observe final _ _ hi hcurrent hnotFound =>
      simp only [PayoutBatchLine.mapIntent, hi, Option.map_some, Option.some.injEq] at hi'
      exact hi' ▸ fenceInv_resolve (h _ hi) hcurrent final false (fun _ => hnotFound)
  | resolve final _ _ hi hcurrent _ _ =>
      simp only [PayoutBatchLine.mapIntent, hi, Option.map_some, Option.some.injEq] at hi'
      exact hi' ▸ fenceInv_resolve (h _ hi) hcurrent final true (by simp)
  | cancel hcancel =>
      rcases cancelUncalledLine_eq_some hcancel with ⟨_, ⟨hnone, rfl⟩ | ⟨i, hi, hpending, rfl⟩⟩
      · simp [hnone] at hi'
      · simp only [Option.some.injEq] at hi'
        subst hi'
        have hinv := h i hi
        exact ⟨hinv.bounded, hinv.ordered, by simp, hinv.observed, by simp, hinv.observedOnce,
          fun _ => hinv.cleared (.inl hpending), hinv.separated⟩
  | evidence _ _ hevidence =>
      rcases evidenceEffect_line hevidence with ⟨last, hline | ⟨status, _, hline⟩⟩
      all_goals
        rw [hline] at hi'
        exact h i' hi'
  | void _ _ hnone => simp [voidLine, hnone] at hi'

theorem fenceInv_of_reachable {w : PayoutSystem} (hw : Reachable payouts w) :
    ∀ b ∈ w.store.batches, ∀ l ∈ b.lines, ∀ i, l.intent = some i → FenceInv i := by
  refine batches_invariant_reachable ?_ ?_ ?_ hw
  · intro b hempty l hl
    simp [hempty] at hl
  · intro b hborn _ l hl i hi
    rcases hborn l hl with ⟨_, _, _, _, _, _, _, rfl | ⟨p, u, rfl⟩⟩
    · simp [frozenLine] at hi
    · simp only [Option.some.injEq] at hi
      exact hi ▸ fenceInv_new
  · intro r b b' hinv he l' hl'
    rcases exists_of_mem_forall₂ he.lines hl' with ⟨l, hl, hll'⟩
    exact fenceInv_step (hinv l hl) hll'

/-! ## What one action writes -/

/-- What becomes of an intent in one action: an observation is recorded only under
its current claim, and a decided intent keeps everything, as does its line's
reference. -/
def Recorded (r : Cause) (l l' : PayoutBatchLine) : Prop :=
  ∀ i, l.intent = some i → ∃ i', l'.intent = some i'
    ∧ (i'.observations = i.observations ∨ ∃ claim now o, r = .resolution claim now
      ∧ claim.lineId = l.id ∧ ClaimCurrent i claim now
      ∧ i'.observations = i.observations ++ [o] ∧ o.generation = claim.generation
      ∧ o.attempt = claim.claimToken)
    ∧ (i.state = .resolved ∨ i.state = .cancelled →
      i' = i ∧ l'.providerTransferReference = l.providerTransferReference)

omit [Hashing] in
theorem Recorded.refl {r : Cause} (l : PayoutBatchLine) : Recorded r l l :=
  fun i hi => ⟨i, hi, .inl rfl, fun _ => ⟨rfl, rfl⟩⟩

omit [Hashing] in
/-- Without a resolution nothing is recorded, however many writes there are. -/
theorem Recorded.trans {r : Cause} (hr : ∀ claim now, r ≠ .resolution claim now)
    {l l' l'' : PayoutBatchLine} (h : Recorded r l l') (h' : Recorded r l' l'') :
    Recorded r l l'' := by
  intro i hi
  rcases h i hi with ⟨i', hi', hobs, hkeep⟩
  rcases h' i' hi' with ⟨i'', hi'', hobs', hkeep'⟩
  refine ⟨i'', hi'', .inl ?_, ?_⟩
  · rcases hobs with hobs | ⟨claim, now, _, hresolution, _⟩
    · rcases hobs' with hobs' | ⟨claim, now, _, hresolution, _⟩
      · exact hobs'.trans hobs
      · exact absurd hresolution (hr claim now)
    · exact absurd hresolution (hr claim now)
  · intro hdecided
    rcases hkeep hdecided with ⟨rfl, href⟩
    rcases hkeep' hdecided with ⟨rfl, href'⟩
    exact ⟨rfl, href'.trans href⟩

theorem recorded_resolve {r : Cause} {l l' : PayoutBatchLine} {i : PayoutSubmissionIntent}
    {claim : ClaimedDisbursementIntent} {now : Int} (final : DisbursementClaimObservation)
    (resolved : Bool) (hr : r = .resolution claim now) (hid : l.id = claim.lineId)
    (hi : l.intent = some i) (hcurrent : ClaimCurrent i claim now)
    (hl' : l'.intent = some (resolveIntent claim final resolved now i)) : Recorded r l l' := by
  intro i' hi'
  rw [hi, Option.some.injEq] at hi'
  subst hi'
  refine ⟨_, hl', .inr ⟨claim, now, observationRow i claim final now, hr, hid.symm, hcurrent,
    ?_, hcurrent.2.1, rfl⟩, ?_⟩
  · simp only [resolveIntent]
    split_ifs <;> rfl
  · -- a decided intent has no current claim
    intro hdecided
    rcases hdecided with hdecided | hdecided <;> simp [hcurrent.1] at hdecided

theorem recorded_step {r : Cause} {l l' : PayoutBatchLine} (h : LineEffect r l l') :
    Recorded r l l' := by
  cases h with
  | same => exact Recorded.refl l
  | queue _ _ hnone _ => simp [Recorded, hnone]
  | @claim i action token now hi _ haction =>
      intro i' hi'
      rw [hi, Option.some.injEq] at hi'
      subst hi'
      refine ⟨claimWith action token now i, by simp [PayoutBatchLine.mapIntent, hi], .inl rfl, ?_⟩
      intro hdecided
      rcases hdecided with hdecided | hdecided <;> simp [claimAction?, hdecided] at haction
  | observe final hr hid hi hcurrent _ =>
      exact recorded_resolve final false hr hid hi hcurrent
        (by simp [PayoutBatchLine.mapIntent, hi])
  | resolve final hr hid hi hcurrent _ _ =>
      exact recorded_resolve final true hr hid hi hcurrent
        (by simp [PayoutBatchLine.mapIntent, hi])
  | cancel hcancel =>
      rcases cancelUncalledLine_eq_some hcancel with ⟨_, ⟨hnone, rfl⟩ | ⟨i, hi, hpending, rfl⟩⟩
      · simp [Recorded, hnone]
      · intro i' hi'
        rw [hi, Option.some.injEq] at hi'
        subst hi'
        exact ⟨_, rfl, .inl rfl, by simp [hpending]⟩
  | evidence _ _ hevidence =>
      rcases evidenceEffect_line hevidence with ⟨last, hline | ⟨status, _, hline⟩⟩
      all_goals
        rw [hline]
        exact fun i hi => ⟨i, hi, .inl rfl, fun _ => ⟨rfl, rfl⟩⟩
  | void _ _ hnone => simp [Recorded, hnone]

theorem recorded_effects {r : Cause} (hr : ∀ claim now, r ≠ .resolution claim now)
    {bs bs' : List PayoutBatch} (hk : Keyed bs) (h : BatchesEffects r bs bs')
    {l : PayoutBatchLine} (hl : l ∈ linesOfBatches bs) :
    ∃ l' ∈ linesOfBatches bs', l'.id = l.id ∧ Recorded r l l' := by
  induction h with
  | refl => exact ⟨l, hl, rfl, Recorded.refl l⟩
  | tail hsteps hstep ih =>
      rcases ih with ⟨l', hl', hid, hrecorded⟩
      rcases line_persists (keyed_steps hk hsteps) hstep hl' with ⟨l'', hl'', heffect⟩
      exact ⟨l'', hl'', heffect.frozen.1.trans hid, hrecorded.trans hr (recorded_step heffect)⟩

theorem recorded_payoutStep {w w' : PayoutSystem} {action : PayoutAction}
    (hw : Reachable payouts w) (h : payoutStep w action = .ok w') {l : PayoutBatchLine}
    (hl : l ∈ w.store.lines) :
    ∃ l' ∈ w'.store.lines, l'.id = l.id ∧ Recorded (causeOf action) l l' := by
  have hk := keyed_of_reachable hw
  rcases payoutStep_ok h with ⟨out, hout, hstore, _⟩
  rw [hstore]
  cases action with
  | resolve claim answers now =>
      simp only [transaction, bind_eq_ok] at hout
      rcases hout with ⟨_, _, hout⟩
      rcases resolvePayoutSubmissionClaim_effect hk (map_pair_ok hout).1 with heq | heffect
      · exact ⟨l, heq ▸ hl, rfl, Recorded.refl l⟩
      · rcases line_persists hk heffect hl with ⟨l', hl', hll'⟩
        exact ⟨l', hl', hll'.frozen.1, recorded_step hll'⟩
  | _ => exact recorded_effects (by simp [causeOf]) hk (transaction_effects hk hout) hl

/-! ## Safety of the protocol -/

/-- A decided intent and its line's reference are the same at the end of any run. -/
theorem decided_for_ever {w w' : PayoutSystem} {actions : List PayoutAction}
    (hw : Reachable payouts w) (hrun : payouts.run w actions = .ok w') {l : PayoutBatchLine}
    {i : PayoutSubmissionIntent} (hl : l ∈ w.store.lines) (hi : l.intent = some i)
    (hdecided : i.state = .resolved ∨ i.state = .cancelled) :
    ∃ l' ∈ w'.store.lines, l'.id = l.id ∧ l'.intent = some i
      ∧ l'.providerTransferReference = l.providerTransferReference := by
  have hkept := checkedFold_invariant
    (fun v => Reachable payouts v ∧ ∃ l' ∈ v.store.lines, l'.id = l.id ∧ l'.intent = some i
      ∧ l'.providerTransferReference = l.providerTransferReference)
    ?_ actions hrun ⟨hw, l, hl, rfl, hi, rfl⟩
  · exact hkept.2
  · intro v action v' ⟨hv, l', hl', hid, hi', href⟩ hstep
    refine ⟨.step hv trivial hstep, ?_⟩
    rcases recorded_payoutStep hv hstep hl' with ⟨l'', hl'', hid', hrecorded⟩
    rcases hrecorded i hi' with ⟨i', hi'', _, hkeep⟩
    rcases hkeep hdecided with ⟨rfl, href'⟩
    exact ⟨l'', hl'', hid'.trans hid, hi'', href'.trans href⟩

/-- Two submissions of an intent, and a submission and the cancellation of its line,
are separated by a lookup that found nothing; generations name attempts and
observations. -/
def SubmissionsFenced (l : PayoutBatchLine) (i : PayoutSubmissionIntent) : Prop :=
  (i.attempts.map (·.generation)).Nodup
    ∧ (i.observations.map (·.generation)).Nodup
    ∧ (∀ a ∈ i.attempts, ∀ a' ∈ i.attempts, a.action = .submit → a'.action = .submit →
      a.generation < a'.generation →
        ∃ q, LookedUpSince i a.generation q ∧ q.generation < a'.generation)
    ∧ (l.status = .void ∨ i.state = .cancelled → ∀ a ∈ i.attempts, a.action = .submit →
      ∃ q, LookedUpSince i a.generation q)

omit [Hashing] in
theorem FenceInv.fenced {l : PayoutBatchLine} {i : PayoutSubmissionIntent} (h : FenceInv i)
    (hline : LineInv l) (hi : l.intent = some i) : SubmissionsFenced l i := by
  refine ⟨?_, ?_, h.separated, ?_⟩
  · rw [List.Nodup, List.pairwise_map]
    exact h.ordered.imp (fun hlt => hlt.ne)
  · rw [List.Nodup, List.pairwise_map]
    exact h.observedOnce.imp (fun hlt => hlt.ne)
  · intro hcancelled
    have hstate : i.state = .cancelled := by
      rcases hcancelled with hvoid | hstate
      · have hfits := hline.state i hi
        rw [hvoid] at hfits
        cases hi' : i.state <;> simp [hi', StateFits] at hfits ⊢
      · exact hstate
    exact h.cleared (.inr hstate)

/-- Every interleaving of workers submits each intent safely. -/
theorem submission_protocol_safe {w : PayoutSystem} (hw : Reachable payouts w) :
    (∀ l ∈ w.store.lines, ∀ i, l.intent = some i → SubmissionsFenced l i)
      ∧ (∀ action w', payoutStep w action = .ok w' → ∀ l ∈ w.store.lines,
        ∃ l' ∈ w'.store.lines, l'.id = l.id ∧ Recorded (causeOf action) l l')
      ∧ (∀ actions w', payouts.run w actions = .ok w' → ∀ l ∈ w.store.lines,
        ∀ i, l.intent = some i → i.state = .resolved ∨ i.state = .cancelled →
          ∃ l' ∈ w'.store.lines, l'.id = l.id ∧ l'.intent = some i
            ∧ l'.providerTransferReference = l.providerTransferReference) := by
  refine ⟨?_, ?_, ?_⟩
  · intro l hl i hi
    rcases mem_linesOfBatches.mp hl with ⟨b, hb, hlb⟩
    have hfence := fenceInv_of_reachable hw b hb l hlb i hi
    exact hfence.fenced (lineInv_of_reachable hw b hb l hlb) hi
  · intro action w' hstep l hl
    exact recorded_payoutStep hw hstep hl
  · intro actions w' hrun l hl i hi hdecided
    exact decided_for_ever hw hrun hl hi hdecided

end

/-- A line sent twice: two submission attempts of one intent, fenced. -/
theorem submission_protocol_safe_resent :
    ∃ w, Reachable (@payouts sampleHashing) w ∧ ∃ l ∈ w.store.lines, ∃ i, l.intent = some i
      ∧ (i.attempts.filter (·.action = .submit)).length = 2 ∧ SubmissionsFenced l i := by
  rcases Machine.exists_reachable (@payouts sampleHashing) resentFirstLine
      (fun w => w.store.lines.any (fun l => l.intent.any (fun i =>
        (i.attempts.filter (·.action = .submit)).length = 2))) (by decide) with ⟨w, hw, htest⟩
  rcases List.any_eq_true.mp htest with ⟨l, hl, hltest⟩
  rcases (Option.any_eq_true _ _).mp hltest with ⟨i, hi, hlength⟩
  exact ⟨w, hw, l, hl, i, hi, by simpa using hlength,
    (@submission_protocol_safe sampleHashing w hw).1 l hl i hi⟩

end Payout
end Mobility
