import Mobility.Payout.LedgerRuns

/-!
# TripAuthority — what an operation may take from a trip

The new lines and offsets of an operation are read off the two stores, and compared
with the `batchPayable` of each trip before it.
-/

namespace Mobility
namespace Payout

open Lib

/-- The operations that create payout lines. -/
def CreatesLines : PayoutAction → Prop
  | .reserve _ _ _ _ _ _ => True
  | .retry _ _ _ _ _ _ _ => True
  | .runAutomatic _ _ _ _ _ _ _ => True
  | _ => False

/-- The lines of `s'` whose key is not in `s`. -/
def newLines (s s' : Store) : List PayoutBatchLine :=
  s'.lines.filter (fun l => s.lines.all (·.id ≠ l.id))

/-- The offsets appended to those of `s`. -/
def newOffsets (s s' : Store) : List PayoutRecoveryOffset :=
  s'.offsets.drop s.offsets.length

/-- The trip got a new line, or its entries funded a new offset. -/
def Charged (s s' : Store) (scope : TripScope) : Prop :=
  (∃ l ∈ newLines s s', s.onScope scope l) ∨ ∃ o ∈ newOffsets s s', s.fundedBy scope o

/-- A new offset repays the trip's debt. -/
def Repaid (s s' : Store) (scope : TripScope) : Prop :=
  ∃ o ∈ newOffsets s s', s.receivedBy scope o

instance (s s' : Store) (scope : TripScope) : Decidable (Charged s s' scope) :=
  inferInstanceAs (Decidable (_ ∨ _))

instance (s s' : Store) (scope : TripScope) : Decidable (Repaid s s' scope) :=
  inferInstanceAs (Decidable (∃ o ∈ newOffsets s s', _))

/-- `settled + reserved + in_flight` is covered by the trip's released earnings. -/
def Covered (s : Store) (trip : Id) (c : Currency) : Prop :=
  (s.tripMoneyPosition trip c).settled + (s.tripMoneyPosition trip c).reserved
    + (s.tripMoneyPosition trip c).inFlight ≤ s.releasedNet (some trip, c)

instance (s : Store) (trip : Id) (c : Currency) : Decidable (Covered s trip c) :=
  inferInstanceAs (Decidable (_ ≤ _))

section

variable {s s' : Store} {ls : List PayoutBatchLine} {os : List PayoutRecoveryOffset}
  {settled : List Id}

theorem Creation.newOffsets_eq (h : Creation s s' ls os settled) : newOffsets s s' = os := by
  simp [newOffsets, h.offsets]

theorem Creation.newLines_perm (h : Creation s s' ls os settled)
    (hids : (s'.lines.map (·.id)).Nodup) : (newLines s s').Perm ls := by
  have hfresh : ∀ l ∈ ls, ∀ l₀ ∈ s.lines, l₀.id ≠ l.id := by
    intro l hl l₀ hl₀ heq
    have hnodup := ((h.lines.map (·.id)).nodup_iff).mp hids
    rw [List.map_append, List.nodup_append] at hnodup
    exact hnodup.2.2 l₀.id (List.mem_map_of_mem hl₀) l.id (List.mem_map_of_mem hl) heq
  have hold : s.lines.filter (fun l => s.lines.all (·.id ≠ l.id)) = [] := by
    refine List.filter_eq_nil_iff.mpr ?_
    intro l hl hall
    have hne := List.all_eq_true.mp hall l hl
    simp at hne
  have hnew : ls.filter (fun l => s.lines.all (·.id ≠ l.id)) = ls := by
    refine List.filter_eq_self.mpr ?_
    intro l hl
    refine List.all_eq_true.mpr ?_
    intro l₀ hl₀
    simpa using hfresh l hl l₀ hl₀
  have hperm := h.lines.filter (fun l => s.lines.all (·.id ≠ l.id))
  rw [List.filter_append, hold, hnew, List.nil_append] at hperm
  exact hperm

theorem charge_perm {ls' : List PayoutBatchLine} (h : ls.Perm ls') (scope : TripScope) :
    charge s scope ls os = charge s scope ls' os := by
  simp only [charge, totalAmount_perm (h.filter _)]

/-- Whatever was created for a scope, something was charged to it. -/
theorem charge_pos (hpos : Positive s ls os) {scope : TripScope}
    (h : (∃ l ∈ ls, s.onScope scope l) ∨ ∃ o ∈ os, s.fundedBy scope o) :
    0 < charge s scope ls os := by
  have hlines : 0 ≤ totalAmount (ls.filter (s.onScope scope)) :=
    totalAmount_nonneg (fun l hl => hpos.lines l (List.mem_of_mem_filter hl))
  have hoffsets : 0 ≤ offsetTotal (os.filter (s.fundedBy scope)) :=
    offsetTotal_nonneg (fun o ho => hpos.offsets o (List.mem_of_mem_filter ho))
  simp only [charge]
  rcases h with ⟨l, hl, hscope⟩ | ⟨o, ho, hscope⟩
  · have hmem : l ∈ ls.filter (s.onScope scope) := List.mem_filter.mpr ⟨hl, hscope⟩
    have hle := le_totalAmount (fun l' hl' => hpos.lines l' (List.mem_of_mem_filter hl')) hmem
    have hone := hpos.lines l hl
    omega
  · have hmem : o ∈ os.filter (s.fundedBy scope) := List.mem_filter.mpr ⟨ho, hscope⟩
    have hle := le_offsetTotal (fun o' ho' => hpos.offsets o' (List.mem_of_mem_filter ho')) hmem
    have hone := hpos.offsets o ho
    omega

end

section

variable [Hashing]

theorem payoutStep_funded {w w' : PayoutSystem} {action : PayoutAction}
    (hw : Reachable payouts w) (hcreates : CreatesLines action)
    (h : payoutStep w action = .ok w') : Funded w.store w'.store := by
  have hk := keyed_of_reachable hw
  have hlines := lineInv_lines_of_reachable hw
  have hinv := ledgerInv_of_reachable hw
  rcases payoutStep_ok h with ⟨out, hout, hstore, _⟩
  rw [hstore]
  cases action with
  | reserve auth batchId ids actor reason lineId =>
      exact reservePayoutBatch_funded hk hlines hinv (map_pair_ok hout).1
  | retry auth batchId actor capabilities reason replacementId lineId =>
      exact retryFailedPayoutLines_funded hk hlines hinv (map_pair_ok hout).1
  | runAutomatic review capabilities runId period batchId lineId now =>
      exact runAutomaticPayouts_funded hlines hinv (map_pair_ok hout).1
  | _ => exact absurd hcreates (by simp [CreatesLines])

/-- An operation that creates lines takes from each trip at most what the trip could
pay before; a trip it took from stays covered, and a trip it repaid still has
nothing to pay with. -/
theorem creation_within_trip_authority {w w' : PayoutSystem} {action : PayoutAction}
    (hw : Reachable payouts w) (hcreates : CreatesLines action)
    (h : payoutStep w action = .ok w') (trip : Id) (c : Currency) :
    charge w.store (some trip, c) (newLines w.store w'.store) (newOffsets w.store w'.store)
        ≤ (w.store.tripMoneyPosition trip c).batchPayable
      ∧ (Charged w.store w'.store (some trip, c) → Covered w'.store trip c)
      ∧ (Repaid w.store w'.store (some trip, c) →
        (w'.store.tripMoneyPosition trip c).batchPayable = 0) := by
  rcases payoutStep_funded hw hcreates h with ⟨ls, os, settled, hcreation, hwithin, hpos⟩
  have hw' : Reachable payouts w' := .step hw trivial h
  have hperm := hcreation.newLines_perm (keyed_of_reachable hw').lineIds
  rw [hcreation.newOffsets_eq, charge_perm hperm]
  refine ⟨hwithin.charged trip c, ?_, ?_⟩
  · intro hcharged
    refine hwithin.covered hcreation hpos (charge_pos hpos ?_)
    rcases hcharged with ⟨l, hl, hscope⟩ | ⟨o, ho, hscope⟩
    · exact .inl ⟨l, hperm.mem_iff.mp hl, hscope⟩
    · exact .inr ⟨o, hcreation.newOffsets_eq ▸ ho, hscope⟩
  · rintro ⟨o, ho, hrepaid⟩
    rw [hcreation.newOffsets_eq] at ho
    have hreceived : received w.store (some trip, c) os ≠ 0 := by
      have hmem : o ∈ os.filter (w.store.receivedBy (some trip, c)) :=
        List.mem_filter.mpr ⟨ho, hrepaid⟩
      have hle := le_offsetTotal (fun o' ho' => hpos.offsets o' (List.mem_of_mem_filter ho')) hmem
      have hone := hpos.offsets o ho
      simp only [received]
      omega
    have howing := (hwithin.owing trip c).resolve_left hreceived
    rw [tripMoneyPosition_eq]
    split_ifs
    · rfl
    · -- what is settled already reaches the earnings, so nothing released remains
      have hearned := releasedNet_le_earnedNet w'.store (some trip, c)
      have hpositive : ∀ l ∈ w'.store.lines, 0 < l.amount :=
        fun l hl => (lineInv_lines_of_reachable hw' l hl).positive
      have hnonneg := scopePosition_nonneg hpositive (some trip, c)
      rw [scopePosition_batchPayable]
      omega

end

/-- Reserving two trips of 50.00 each takes exactly what each can pay. -/
theorem creation_within_trip_authority_reserve :
    ∃ w w', Reachable (@payouts sampleHashing) w
      ∧ @payoutStep sampleHashing w (.reserve sampleAuthority 201 [101, 102] 7 "weekly payout"
          (fun entryId => entryId + 200)) = .ok w'
      ∧ charge w.store (some 1, "NGN") (newLines w.store w'.store) (newOffsets w.store w'.store)
        = 5000
      ∧ charge w.store (some 1, "NGN") (newLines w.store w'.store) (newOffsets w.store w'.store)
        ≤ (w.store.tripMoneyPosition 1 "NGN").batchPayable := by
  rcases Machine.exists_step (@payouts sampleHashing) (reservedTwoTrips.take 7)
      (.reserve sampleAuthority 201 [101, 102] 7 "weekly payout" (fun entryId => entryId + 200))
      (fun w w' => charge w.store (some 1, "NGN") (newLines w.store w'.store)
        (newOffsets w.store w'.store) = 5000) (by decide) with ⟨w, w', hw, hstep, htest⟩
  exact ⟨w, w', hw, hstep, by simpa using htest,
    (@creation_within_trip_authority sampleHashing w w' (.reserve sampleAuthority 201 [101, 102] 7
      "weekly payout" (fun entryId => entryId + 200)) hw trivial hstep 1 "NGN").1⟩

/-- A trip of the same driver paid 50.00 and later corrected to 10.00, and a second
trip that earned 20.00. -/
def overpaidFirstTrip : List PayoutAction :=
  [ .openTrip { id := 1, driverProfileId := 11, driverUserId := 21 },
    .openTrip { id := 2, driverProfileId := 11, driverUserId := 21 },
    .ensureLedgerEntry 101 1001 1 5000 "NGN" 0,
    .releaseLedgerEntry 101,
    .createDraft sampleAuthority "NGN" 7 "weekly payout" 201 true,
    .reserve sampleAuthority 201 [101] 7 "weekly payout" (fun entryId => entryId + 200),
    .approve sampleAuthority 201 8 "checked" 10,
    .submit sampleAuthority 201 8 sampleProvider,
    claimFirstLine 901 100,
    .resolve (firstLineClaim 1 901 .submit) sampleAnswers 110,
    .applyEvidence sampleAuthority
      { providerTransferReference := "T1"
        providerEventId := "event-1"
        outcome := .succeeded
        occurredAt := 120
        evidenceFingerprint := "f" } .webhook 130,
    .recordNegativeAdjustment sampleAuthority 101 501 4000 "NGN" "late return" 8 140,
    .ensureLedgerEntry 102 1002 2 2000 "NGN" 150,
    .releaseLedgerEntry 102,
    .createDraft sampleAuthority "NGN" 7 "weekly payout" 202 true ]

/-- The debt of a trip can be repaid in part only: after the offset the trip is still
settled beyond its released earnings. -/
theorem not_every_repaid_trip_covered :
    ¬ ∀ w w' action, Reachable (@payouts sampleHashing) w → CreatesLines action →
      @payoutStep sampleHashing w action = .ok w' → ∀ trip c,
        Charged w.store w'.store (some trip, c) ∨ Repaid w.store w'.store (some trip, c) →
          Covered w'.store trip c := by
  intro h
  rcases Machine.exists_step (@payouts sampleHashing) overpaidFirstTrip
      (.reserve sampleAuthority 202 [102] 7 "weekly payout" (fun entryId => entryId + 200))
      (fun w w' => Repaid w.store w'.store (some 1, "NGN") && !decide (Covered w'.store 1 "NGN"))
      (by decide) with ⟨w, w', hw, hstep, htest⟩
  simp only [Bool.and_eq_true, decide_eq_true_eq, Bool.not_eq_true', decide_eq_false_iff_not]
    at htest
  exact htest.2 (h w w' (.reserve sampleAuthority 202 [102] 7 "weekly payout"
    (fun entryId => entryId + 200)) hw trivial hstep 1 "NGN" (.inr htest.1))

end Payout
end Mobility
