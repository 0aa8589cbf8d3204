import Mobility.Payout.LedgerRuns
import Mobility.Payout.EarningsTotals

/-!
# OffsetRuns — recovery offsets are funded by stored credits of their currency

Reservation, retry and the automatic run write offsets, each funded by a credit of its
trip (`Creation`).  Every other operation leaves the offsets alone and drops no credit
(`CreditsStay`).  So the rows of a driver hold every credit that funds an offset of
their trips, which is what the earnings presentation relies on (`OffsetsWithin`).
-/

namespace Mobility
namespace Payout

open Lib

/-- A stored offset: some money, out of a credit of its currency. -/
structure Backed (s : Store) (offset : PayoutRecoveryOffset) : Prop where
  positive : 0 < offset.amount
  funded : ∃ e ∈ s.entries, e.id = offset.fundingEntryId ∧ e.currency = offset.currency

def OffsetsBacked (s : Store) : Prop :=
  ∀ offset ∈ s.offsets, Backed s offset

/-- Credits are posted and change their status, and none is dropped or converted. -/
def CreditsStay (s s' : Store) : Prop :=
  ∀ e ∈ s.entries, ∃ e' ∈ s'.entries, e'.id = e.id ∧ e'.currency = e.currency

namespace CreditsStay

variable {s s' : Store}

theorem of_eq (h : s'.entries = s.entries) : CreditsStay s s' := by
  intro e he
  exact ⟨e, h.symm ▸ he, rfl, rfl⟩

theorem of_append {posted : List EarningsLedgerEntry} (h : s'.entries = s.entries ++ posted) :
    CreditsStay s s' := by
  intro e he
  exact ⟨e, h.symm ▸ List.mem_append_left posted he, rfl, rfl⟩

theorem of_map {f : EarningsLedgerEntry → EarningsLedgerEntry} (h : s'.entries = s.entries.map f)
    (hid : ∀ e, (f e).id = e.id) (hcurrency : ∀ e, (f e).currency = e.currency) :
    CreditsStay s s' := by
  intro e he
  exact ⟨f e, h.symm ▸ List.mem_map_of_mem he, hid e, hcurrency e⟩

theorem of_updateEntry {t : Store} {id : Id} {status : EarningsLedgerEntryStatus}
    (h : s'.entries = (t.updateEntry id (fun e => { e with status := status })).entries)
    (ht : t.entries = s.entries) : CreditsStay s s' := by
  refine of_map (f := fun e => if e.id = id then { e with status := status } else e)
    (h.trans (congrArg (List.map _) ht)) ?_ ?_
  · intro e
    split_ifs <;> rfl
  · intro e
    split_ifs <;> rfl

end CreditsStay

/-- The operation writes no offset and drops no credit. -/
structure KeepsOffsets (s s' : Store) : Prop where
  offsets : s'.offsets = s.offsets
  credits : CreditsStay s s'

namespace KeepsOffsets

variable {s s' : Store}

theorem refl (s : Store) : KeepsOffsets s s := ⟨rfl, .of_eq rfl⟩

theorem trans {s'' : Store} (h : KeepsOffsets s s') (h' : KeepsOffsets s' s'') :
    KeepsOffsets s s'' := by
  refine ⟨h'.offsets.trans h.offsets, ?_⟩
  intro e he
  rcases h.credits e he with ⟨e', he', hid, hcurrency⟩
  rcases h'.credits e' he' with ⟨e'', he'', hid', hcurrency'⟩
  exact ⟨e'', he'', hid'.trans hid, hcurrency'.trans hcurrency⟩

end KeepsOffsets

theorem Backed.stay {s s' : Store} {offset : PayoutRecoveryOffset} (h : Backed s offset)
    (hcredits : CreditsStay s s') : Backed s' offset := by
  rcases h.funded with ⟨e, he, hid, hcurrency⟩
  rcases hcredits e he with ⟨e', he', hid', hcurrency'⟩
  exact ⟨h.positive, e', he', hid'.trans hid, hcurrency'.trans hcurrency⟩

section

variable {s s' : Store}

theorem OffsetsBacked.keep (h : OffsetsBacked s) (hkeeps : KeepsOffsets s s') :
    OffsetsBacked s' := by
  intro offset hoffset
  exact (h offset (hkeeps.offsets ▸ hoffset)).stay hkeeps.credits

/-- Using a credit up changes its status alone. -/
theorem Creation.credits {ls : List PayoutBatchLine} {os : List PayoutRecoveryOffset}
    {settled : List Id} (h : Creation s s' ls os settled) : CreditsStay s s' := by
  refine .of_map h.entries (settleIn_id settled) ?_
  intro e
  exact congrArg Prod.snd (settleIn_scope settled e)

theorem OffsetsBacked.funded (h : OffsetsBacked s) (hfunded : Funded s s') :
    OffsetsBacked s' := by
  rcases hfunded with ⟨ls, os, settled, hcreation, _, hpositive⟩
  intro offset hoffset
  rw [hcreation.offsets] at hoffset
  rcases List.mem_append.mp hoffset with hold | hnew
  · exact (h offset hold).stay hcreation.credits
  · -- the credit of a new offset is in the store the operation started from
    rcases hcreation.funded offset hnew with ⟨e, he, hid, _, hcurrency⟩
    have hbacked : Backed s offset := ⟨hpositive.offsets offset hnew, e, he, hid, hcurrency⟩
    exact hbacked.stay hcreation.credits

end

section

variable [Hashing] {s s' : Store}

omit [Hashing] in
theorem cancelUncalledTripPayouts_keeps {posted : List EarningsLedgerEntry} (tripId : Id)
    (chain : List Id) (at' : Int) :
    KeepsOffsets s (cancelUncalledTripPayouts tripId chain at'
      { s with entries := s.entries ++ posted }) :=
  ⟨rfl, .of_append rfl⟩

omit [Hashing] in
theorem writeDayDifferentials_keeps {targets : List DifferentialTarget} {now : Int}
    (h : writeDayDifferentials targets now s = .ok s') : KeepsOffsets s s' := by
  refine checkedFold_invariant (KeepsOffsets s) ?_ targets h (.refl s)
  intro t target t' hkeeps hstep
  rcases writeDifferential_ok hstep with
    ⟨_, heq⟩ | ⟨_, e, _, _, _, _, _, _, ⟨_, _, _, heq⟩ | ⟨_, _, _, heq⟩⟩
  · exact heq ▸ hkeeps
  · exact heq ▸ hkeeps.trans ⟨rfl, .of_append rfl⟩
  · exact heq ▸ hkeeps.trans (cancelUncalledTripPayouts_keeps _ _ _)

theorem applyVerifiedLineEvidence_keeps {auth : Authority} {evidence : VerifiedLineEvidence}
    {source : EvidenceSource} {now : Int}
    (h : applyVerifiedLineEvidence auth evidence source now s = .ok s') : KeepsOffsets s s' := by
  rcases applyVerifiedLineEvidence_ok h with
    ⟨heq, _⟩ | ⟨line, entry, effect, _, _, _, _, heq⟩
  · exact heq ▸ .refl s
  · exact heq ▸ ⟨rfl, .of_updateEntry rfl rfl⟩

/-- Every transaction funds the offsets it writes, or writes none. -/
theorem transaction_offsets (hlines : ∀ l ∈ s.lines, LineInv l) (hk : Keyed s.batches)
    (hinv : LedgerInv s) {claims : List ClaimedDisbursementIntent} {action : PayoutAction}
    {out : Store × Option ClaimedDisbursementIntent}
    (h : transaction claims s action = .ok out) : Funded s out.1 ∨ KeepsOffsets s out.1 := by
  cases action with
  | openTrip trip =>
      rcases openTrip_ok (map_pair_ok h).1 with ⟨_, heq⟩
      exact .inr (heq ▸ ⟨rfl, .of_eq rfl⟩)
  | ensureLedgerEntry entryId calculationId tripId amount currency occurredAt =>
      rcases ensureLedgerEntry_ok (map_pair_ok h).1 with heq | ⟨_, e, _, _, _, _, _, _, _, _, heq⟩
      · exact .inr (heq ▸ .refl s)
      · exact .inr (heq ▸ ⟨rfl, .of_append rfl⟩)
  | releaseLedgerEntry entryId =>
      rcases releaseLedgerEntry_ok (map_pair_ok h).1 with heq | ⟨e, _, _, heq⟩
      · exact .inr (heq ▸ .refl s)
      · exact .inr (heq ▸ ⟨rfl, .of_updateEntry rfl rfl⟩)
  | recordNegativeAdjustment auth sourceEntryId requestId amount currency reason actor now =>
      rcases recordNegativeAdjustment_ok (map_pair_ok h).1 with
        heq | ⟨_, _, e, _, _, _, _, _, _, _, _, _, heq⟩
      · exact .inr (heq ▸ .refl s)
      · exact .inr (heq ▸ cancelUncalledTripPayouts_keeps _ _ _)
  | writeDayDifferentials targets recomputeAt =>
      exact .inr (writeDayDifferentials_keeps (map_pair_ok h).1)
  | createDraft auth currency actor reason batchId requested =>
      rcases createPayoutBatchDraft_ok (map_pair_ok h).1 with heq | ⟨_, _, _, _, _, heq⟩
      · exact .inr (heq ▸ .refl s)
      · exact .inr (heq ▸ ⟨rfl, .of_eq rfl⟩)
  | reserve auth batchId ids actor reason lineId =>
      exact .inl (reservePayoutBatch_funded hk hlines hinv (map_pair_ok h).1)
  | approve auth batchId actor reason now =>
      rcases approvePayoutBatch_ok (map_pair_ok h).1 with heq | ⟨_, _, _, heq⟩
      · exact .inr (heq ▸ .refl s)
      · exact .inr (heq ▸ ⟨rfl, .of_eq rfl⟩)
  | submit auth batchId actor capabilities =>
      rcases submitPayoutBatch_ok (map_pair_ok h).1 with ⟨_, _, _, _, _, heq⟩
      exact .inr (heq ▸ ⟨rfl, .of_eq rfl⟩)
  | claim auth automaticClean blocker capabilities lineId token now =>
      rcases claimPayoutSubmissionIntent_ok h with
        heq | ⟨_, _, _, _, _, _, _, _, _, _, _, _, _, _, _, heq⟩
      · exact .inr (heq ▸ .refl s)
      · exact .inr (heq ▸ ⟨rfl, .of_eq rfl⟩)
  | resolve claim answers now =>
      have h' := h
      simp only [transaction, bind_eq_ok] at h'
      rcases h' with ⟨_, _, h'⟩
      rcases resolvePayoutSubmissionClaim_ok (map_pair_ok h').1 with heq | ⟨_, _, _, _, _, _, heq⟩
      · exact .inr (heq ▸ .refl s)
      · exact .inr (heq ▸ ⟨rfl, .of_eq rfl⟩)
  | applyEvidence auth evidence source now =>
      exact .inr (applyVerifiedLineEvidence_keeps (map_pair_ok h).1)
  | retry auth batchId actor capabilities reason replacementId lineId =>
      exact .inl (retryFailedPayoutLines_funded hk hlines hinv (map_pair_ok h).1)
  | void auth batchId actor =>
      rcases voidPayoutBatch_ok (map_pair_ok h).1 with ⟨_, _, _, _, _, heq⟩
      exact .inr (heq ▸ ⟨rfl, .of_eq rfl⟩)
  | runAutomatic review capabilities runId period batchId lineId now =>
      exact .inl (runAutomaticPayouts_funded hlines hinv (map_pair_ok h).1)
  | releaseUnsent auth paused actor reason releasedAt =>
      have heq := releaseUnsentAutomaticPayments_ok (map_pair_ok h).1
      exact .inr (heq ▸ ⟨rfl, .of_eq rfl⟩)

theorem offsetsBacked_of_reachable {w : PayoutSystem} (hw : Reachable payouts w) :
    OffsetsBacked w.store := by
  refine ReachableBy.invariant_of
    (fun w => (Keyed w.store.batches ∧ ∀ l ∈ w.store.lines, LineInv l) ∧ LedgerInv w.store)
    (fun w hw => ⟨⟨keyed_of_reachable hw, lineInv_lines_of_reachable hw⟩,
      ledgerInv_of_reachable hw⟩)
    (fun w => OffsetsBacked w.store) ?_ ?_ hw
  · intro offset hoffset
    simp [payouts] at hoffset
  · intro w action w' hknown hbacked _ hstep
    rcases payoutStep_ok hstep with ⟨out, hout, hstore, _⟩
    rw [hstore]
    exact (transaction_offsets hknown.1.2 hknown.1.1 hknown.2 hout).elim hbacked.funded hbacked.keep

/-- All rows of a driver hold the credits that fund the offsets of their trips: a trip has
one driver, so its credits are rows of the same driver. -/
theorem offsetsWithin_of_reachable {w : PayoutSystem} (hw : Reachable payouts w)
    {driverProfileId : Id} {rows : List EarningsDays.LedgerRow}
    (hrows : ∀ e, e ∈ EarningsDays.entriesOf rows
      ↔ e ∈ w.store.entries ∧ e.driverProfileId = driverProfileId) :
    EarningsDays.OffsetsWithin w.store rows := by
  have hbacked := offsetsBacked_of_reachable hw
  have hown := (ledgerInv_of_reachable hw).ownership
  refine ⟨fun offset hoffset => (hbacked offset hoffset).positive, ?_⟩
  intro offset hoffset entry hentry hscope
  rcases (hbacked offset hoffset).funded with ⟨e, he, hid, hcurrency⟩
  -- the credit found under the offset's id is the one that backs it
  have hsame : e = entry := by
    have hlookup := (Option.filter_eq_some_iff.mp hentry).1
    rw [← hid, hown.entry?_eq he] at hlookup
    exact Option.some.inj hlookup
  subst hsame
  refine ⟨(hrows e).mpr ⟨he, ?_⟩, hcurrency⟩
  rcases List.mem_map.mp hscope with ⟨row, hrow, hkey⟩
  have htrip : e.tripSessionId = row.tripSessionId := (congrArg Prod.fst hkey).symm
  calc e.driverProfileId
      = row.driverProfileId := hown.driver_eq he ((hrows row).mp hrow).1 htrip
    _ = driverProfileId := ((hrows row).mp hrow).2

end

end Payout
end Mobility
