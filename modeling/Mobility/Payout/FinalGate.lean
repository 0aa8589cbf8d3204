import Mobility.Payout.Consistency

/-!
# FinalGate — when the line/intent checks of the final gate pass

`_final_payout_authority` checks every line of the batch before one of them may
be submitted.  In a reachable batch whose lines were queued, the only line that
can fail the checks is one that was cancelled: it is `void`, and its intent is
`cancelled` where the gate asks for `resolved`.  Hence the gate of every pending
line opens exactly when no line of its batch was cancelled.
-/

namespace Mobility
namespace Payout

open Lib

/-! ## The loop -/

theorem gateCandidates_ok {providerName : String} :
    ∀ {lines candidates : List PayoutBatchLine},
      gateCandidates providerName lines = .ok candidates →
        (∀ l ∈ lines, ∃ c, gateLine providerName l = .ok c)
          ∧ ∀ l ∈ lines, gateLine providerName l = .ok true → l ∈ candidates := by
  intro lines
  induction lines with
  | nil =>
      intro candidates _
      simp
  | cons line lines ih =>
      intro candidates h
      simp only [gateCandidates, bind_eq_ok, pure_eq_ok] at h
      rcases h with ⟨c, hc, rest, hrest, rfl⟩
      rcases ih hrest with ⟨hall, hmem⟩
      refine ⟨?_, ?_⟩
      · intro l hl
        rcases List.mem_cons.mp hl with rfl | hl
        · exact ⟨c, hc⟩
        · exact hall l hl
      · intro l hl htrue
        rcases List.mem_cons.mp hl with rfl | hl
        · rw [hc, Except.ok.injEq] at htrue
          simp [htrue]
        · have hl' := hmem l hl htrue
          split_ifs
          · exact List.mem_cons_of_mem _ hl'
          · exact hl'

theorem gateCandidates_total {providerName : String} :
    ∀ {lines : List PayoutBatchLine}, (∀ l ∈ lines, ∃ c, gateLine providerName l = .ok c) →
      ∃ candidates, gateCandidates providerName lines = .ok candidates := by
  intro lines
  induction lines with
  | nil =>
      intro _
      exact ⟨[], rfl⟩
  | cons line lines ih =>
      intro h
      rcases h line (by simp) with ⟨c, hc⟩
      rcases ih (fun l hl => h l (List.mem_cons_of_mem _ hl)) with ⟨candidates, hcandidates⟩
      exact ⟨_, by simp only [gateCandidates, bind_eq_ok]; exact ⟨c, hc, candidates, hcandidates, rfl⟩⟩

/-- The gate opens for a line of the batch exactly when every line passes the
loop and the line itself is a candidate. -/
theorem lineIntentGate_of_lines {providerName : String} {b : PayoutBatch} {l : PayoutBatchLine}
    (hl : l ∈ b.lines) (hcandidate : gateLine providerName l = .ok true) :
    (∃ candidates, lineIntentGate providerName b l.id = .ok candidates)
      ↔ ∀ l' ∈ b.lines, ∃ c, gateLine providerName l' = .ok c := by
  constructor
  · rintro ⟨candidates, h⟩
    simp only [lineIntentGate, bind_eq_ok] at h
    rcases h with ⟨cs, hcs, _⟩
    exact (gateCandidates_ok hcs).1
  · intro h
    rcases gateCandidates_total h with ⟨candidates, hcandidates⟩
    have hmem := (gateCandidates_ok hcandidates).2 l hl hcandidate
    refine ⟨candidates, ?_⟩
    simp only [lineIntentGate, bind_eq_ok, require_eq_ok, pure_eq_ok]
    exact ⟨candidates, hcandidates, (), ⟨l, hmem, rfl⟩, rfl⟩

/-! ## One line -/

/-- A queued line passes the loop unless it was cancelled. -/
theorem gateLine_iff {providerName : String} {l : PayoutBatchLine} (h : LineInv l)
    (hprovider : providerOf l = some providerName) :
    (∃ c, gateLine providerName l = .ok c) ↔
      ∀ i, l.intent = some i → i.state ≠ .cancelled := by
  rcases Option.map_eq_some_iff.mp hprovider with ⟨i, hi, hname⟩
  have hfits := h.state i hi
  by_cases hreserved : l.status = .reserved
  · have hactive := h.active.mpr (.inl hreserved)
    have href := h.unreferenced.mpr (.inl hreserved)
    have hmatch := h.matching i hi
    rw [hreserved] at hfits
    have hresolved : i.state ≠ .resolved := by
      intro hstate
      simp [hstate, StateFits] at hfits
    have hcancelled : i.state ≠ .cancelled := by
      intro hstate
      simp [hstate, StateFits] at hfits
    constructor
    · intro _ i' hi'
      rw [hi, Option.some.injEq] at hi'
      exact hi' ▸ hcancelled
    · intro _
      refine ⟨true, ?_⟩
      simp [gateLine, hreserved, hi, hresolved, hactive, href, hname, hmatch]
  · have hgate : (∃ c, gateLine providerName l = .ok c) ↔ i.state = .resolved := by
      simp [gateLine, hreserved, hi]
    rw [hgate]
    constructor
    · intro hresolved i' hi'
      rw [hi, Option.some.injEq] at hi'
      simp [← hi', hresolved]
    · intro hopen
      have hcancelled := hopen i hi
      cases hstatus : l.status <;> cases hstate : i.state <;>
        simp_all [StateFits]

/-- A pending line is itself a candidate. -/
theorem gateLine_pending {l : PayoutBatchLine} (h : LineInv l) {i : PayoutSubmissionIntent}
    (hi : l.intent = some i) (hpending : i.state = .pending) :
    gateLine i.providerName l = .ok true := by
  have hfits := h.state i hi
  rw [hpending] at hfits
  have hreserved : l.status = .reserved := by
    cases hstatus : l.status <;> simp [hstatus, StateFits] at hfits ⊢
  have hactive := h.active.mpr (.inl hreserved)
  have href := h.unreferenced.mpr (.inl hreserved)
  have hmatch := h.matching i hi
  simp [gateLine, hreserved, hi, hpending, hactive, href, hmatch]

/-! ## Reachable batches -/

section

variable [Hashing]

/-- In every reachable state, the line/intent checks of the final gate pass for a
pending line exactly when no line of its batch has a cancelled intent. -/
theorem pending_line_gate_iff {w : PayoutSystem} (hw : Reachable payouts w) {b : PayoutBatch}
    (hb : b ∈ w.store.batches) {l : PayoutBatchLine} (hl : l ∈ b.lines)
    {i : PayoutSubmissionIntent} (hi : l.intent = some i) (hpending : i.state = .pending) :
    (∃ candidates, lineIntentGate i.providerName b l.id = .ok candidates)
      ↔ ∀ l' ∈ b.lines, ∀ i', l'.intent = some i' → i'.state ≠ .cancelled := by
  have hinv := lineInv_of_reachable hw b hb
  rcases sharedProvider_of_reachable hw b hb with ⟨p, hp⟩
  have hprovider : ∀ l' ∈ b.lines, providerOf l' = some i.providerName := by
    intro l' hl'
    rw [hp l' hl', ← hp l hl]
    simp [providerOf, hi]
  rw [lineIntentGate_of_lines hl (gateLine_pending (hinv l hl) hi hpending)]
  refine forall₂_congr ?_
  intro l' hl'
  exact gateLine_iff (hinv l' hl') (hprovider l' hl')

end

/-- The pending lines of the store, each with its batch and its intent. -/
def pendingLines (s : Store) : List (PayoutBatch × PayoutBatchLine × PayoutSubmissionIntent) :=
  s.batches.flatMap (fun b => b.lines.flatMap (fun l =>
    (l.intent.toList.filter (·.state = .pending)).map (fun i => (b, l, i))))

theorem mem_pendingLines {s : Store} {x : PayoutBatch × PayoutBatchLine × PayoutSubmissionIntent}
    (h : x ∈ pendingLines s) :
    x.1 ∈ s.batches ∧ x.2.1 ∈ x.1.lines ∧ x.2.1.intent = some x.2.2 ∧ x.2.2.state = .pending := by
  simp only [pendingLines, List.mem_flatMap, List.mem_map, List.mem_filter, Option.mem_toList,
    decide_eq_true_eq] at h
  rcases h with ⟨b, hb, l, hl, i, ⟨hi, hpending⟩, rfl⟩
  exact ⟨hb, hl, hi, hpending⟩

/-- Both lines of a queued batch pass the gate while neither is cancelled. -/
theorem pending_line_gate_iff_queued :
    ∃ w, Reachable (@payouts sampleHashing) w ∧ ∃ b ∈ w.store.batches, ∃ l ∈ b.lines, ∃ i,
      l.intent = some i ∧ i.state = .pending
        ∧ ((∃ candidates, lineIntentGate i.providerName b l.id = .ok candidates)
          ↔ ∀ l' ∈ b.lines, ∀ i', l'.intent = some i' → i'.state ≠ .cancelled) := by
  rcases Machine.exists_reachable (@payouts sampleHashing) queuedTwoTrips
      (fun w => (pendingLines w.store).length = 2) (by decide) with ⟨w, hw, htest⟩
  have hlength : (pendingLines w.store).length = 2 := by simpa using htest
  rcases List.exists_mem_of_length_pos (by omega : 0 < (pendingLines w.store).length) with ⟨x, hx⟩
  rcases mem_pendingLines hx with ⟨hb, hl, hi, hpending⟩
  exact ⟨w, hw, x.1, hb, x.2.1, hl, x.2.2, hi, hpending,
    @pending_line_gate_iff sampleHashing w hw x.1 hb x.2.1 hl x.2.2 hi hpending⟩

/-- After a deduction from one trip of a queued two-trip batch, the other trip's
pending line no longer passes the line/intent checks. -/
theorem not_pending_line_gate_always_passes :
    ¬ ∀ w, Reachable (@payouts sampleHashing) w → ∀ b ∈ w.store.batches, ∀ l ∈ b.lines, ∀ i,
      l.intent = some i → l.status = .reserved → l.reservationActive = true →
        i.state = .pending → ∃ candidates, lineIntentGate i.providerName b l.id = .ok candidates := by
  intro h
  rcases Machine.exists_reachable (@payouts sampleHashing) (queuedTwoTrips ++ [deductFromFirstTrip])
      (fun w => (pendingLines w.store).any (fun x =>
        x.2.1.status = .reserved && x.2.1.reservationActive
          && !(lineIntentGate x.2.2.providerName x.1 x.2.1.id).isOk)) (by decide) with ⟨w, hw, htest⟩
  rcases List.any_eq_true.mp htest with ⟨x, hx, hgate⟩
  simp only [Bool.and_eq_true, decide_eq_true_eq, Bool.not_eq_true'] at hgate
  rcases mem_pendingLines hx with ⟨hb, hl, hi, hpending⟩
  rcases h w hw x.1 hb x.2.1 hl x.2.2 hi hgate.1.1 hgate.1.2 hpending with ⟨candidates, hok⟩
  simp [hok, Except.isOk, Except.toBool] at hgate

end Payout
end Mobility
