import Mobility.Device.Custody

/-!
# Boundary — the frozen End of a trip

Freezing cuts batches until no ping waits, and stores the manifest of what the phone holds.
With distinct numbers the manifest depends on the declared entries only, not on whether they
come from receipts, batches or dead letters, so it can be rebuilt until the trip is reopened
or forgotten.
-/

namespace Mobility
namespace Device

open Lib
open Wire (EvidenceManifest EvidenceManifestEntry buildEvidenceManifest orderedEntries)

section

variable {sha256 : Wire.Bytes → String} {numbering : Numbering} {s s' : Store} {tripId : String}

/-! ## Declared entries -/

theorem setEntries_eq {entries more : List EvidenceManifestEntry}
    (h : ((entries ++ more).map (·.batchSequence)).Nodup) :
    more.foldl setEntry entries = entries ++ more := by
  rw [List.map_append] at h
  rcases List.nodup_append.mp h with ⟨_, hmore, hapart⟩
  have hput : putRows (·.batchSequence) more entries = entries ++ more := by
    refine putRows_of_fresh hmore ?_
    intro entry hentry hmem
    exact hapart _ (List.mem_map_of_mem hentry) _ hmem rfl
  exact hput

theorem declareBatches_eq {entries more : List EvidenceManifestEntry}
    (h : ((entries ++ more).map (·.batchSequence)).Nodup) :
    checkedFold declareBatch entries more = .ok (entries ++ more) := by
  induction more generalizing entries with
  | nil => simp [checkedFold]
  | cons entry more ih =>
      have hsplit : entries ++ entry :: more = entries ++ [entry] ++ more := by simp
      have hfresh : ∀ existing ∈ entries, existing.batchSequence ≠ entry.batchSequence := by
        intro existing hexisting heq
        rw [List.map_append] at h
        rcases List.nodup_append.mp h with ⟨_, _, hapart⟩
        exact hapart _ (List.mem_map_of_mem hexisting) _ (by simp) heq
      have hdeclare : declareBatch entries entry = .ok (entries ++ [entry]) := by
        unfold declareBatch
        refine bind_eq_ok.mpr ⟨⟨⟩, require_eq_ok.mpr ?_, ?_⟩
        · exact fun existing hexisting heq => absurd heq (hfresh existing hexisting)
        · exact pure_eq_ok.mpr (putRow_of_fresh hfresh)
      rw [hsplit] at h ⊢
      exact bind_eq_ok.mpr ⟨_, hdeclare, ih h⟩

theorem TripInv.numbers_nodup (hs : TripInv sha256 numbering tripId (s.view tripId)) :
    ((s.entriesOf tripId).map (·.batchSequence)).Nodup :=
  (numbering.apart hs.numbers).distinct

/-- With distinct numbers nothing conflicts, and the phone declares all it holds. -/
theorem declaredEntries_eq (hs : TripInv sha256 numbering tripId (s.view tripId)) :
    ∃ entries, declaredEntries s tripId = .ok entries ∧ ↑entries = s.entriesOf tripId := by
  have hsame : (↑((s.listReceipts tripId).map (·.entry) ++ ((s.listBatches tripId).map (·.entry)
      ++ (s.listDeadLetters tripId).map (·.toQueuedBatch.entry))) : Multiset EvidenceManifestEntry)
      = s.entriesOf tripId := by
    unfold Store.entriesOf
    rw [gather_singleton, gather_singleton, gather_singleton, Multiset.coe_add, Multiset.coe_add,
      List.append_assoc, Multiset.coe_eq_coe]
    refine List.Perm.append ((List.perm_insertionSort _ _).map _) ?_
    exact List.Perm.append ((List.perm_insertionSort _ _).map _)
      ((List.perm_insertionSort _ _).map _)
  have hnumbers := hs.numbers_nodup
  rw [← hsame, Multiset.map_coe, Multiset.coe_nodup] at hnumbers
  have hreceipts : ((s.listReceipts tripId).map (·.entry)).foldl setEntry []
      = (s.listReceipts tripId).map (·.entry) := by
    refine setEntries_eq ?_
    rw [List.map_append] at hnumbers
    exact (List.nodup_append.mp hnumbers).1
  refine ⟨_, ?_, hsame⟩
  unfold declaredEntries
  rw [hreceipts]
  exact declareBatches_eq hnumbers

/-! ## The manifest -/

theorem orderedEntries_sorted (entries : List EvidenceManifestEntry) :
    (orderedEntries entries).Pairwise (fun a b => a.batchSequence - b.batchSequence ≤ 0) := by
  have htotal : Std.Total
      (fun a b : EvidenceManifestEntry => a.batchSequence - b.batchSequence ≤ 0) :=
    ⟨fun a b => by omega⟩
  have htrans : IsTrans EvidenceManifestEntry
      (fun a b => a.batchSequence - b.batchSequence ≤ 0) := ⟨fun a b c hab hbc => by omega⟩
  exact List.pairwise_insertionSort _ entries

/-- Entries with distinct numbers are put in one order. -/
theorem orderedEntries_perm {entries entries' : List EvidenceManifestEntry}
    (hnodup : (entries.map (·.batchSequence)).Nodup) (h : entries.Perm entries') :
    orderedEntries entries = orderedEntries entries' := by
  have hperm : (orderedEntries entries).Perm (orderedEntries entries') :=
    ((List.perm_insertionSort _ entries).trans h).trans (List.perm_insertionSort _ entries').symm
  refine hperm.eq_of_pairwise ?_ (orderedEntries_sorted entries) (orderedEntries_sorted entries')
  intro a b ha hb hab hba
  refine List.inj_on_of_nodup_map hnodup ((List.mem_insertionSort _).mp ha)
    (h.mem_iff.mpr ((List.mem_insertionSort _).mp hb)) ?_
  omega

theorem orderedEntries_idem {entries : List EvidenceManifestEntry}
    (hnodup : (entries.map (·.batchSequence)).Nodup) :
    orderedEntries (orderedEntries entries) = orderedEntries entries :=
  (orderedEntries_perm hnodup (List.perm_insertionSort _ entries).symm).symm

theorem buildEvidenceManifest_congr {entries entries' : List EvidenceManifestEntry}
    {complete : Bool} (h : orderedEntries entries = orderedEntries entries') :
    buildEvidenceManifest sha256 tripId entries complete
      = buildEvidenceManifest sha256 tripId entries' complete := by
  unfold buildEvidenceManifest
  rw [h]

theorem complete_of_built {entries : List EvidenceManifestEntry} {complete : Bool}
    {manifest : EvidenceManifest}
    (h : buildEvidenceManifest sha256 tripId entries complete = .ok manifest) :
    manifest.complete = complete := by
  simp only [buildEvidenceManifest, bind_eq_ok, pure_eq_ok] at h
  rcases h with ⟨_, _, _, _, _, _, rfl⟩
  rfl

/-- A manifest of the trip holds its declared entries, and building it from these gives it
again. -/
theorem evidenceManifest_eq_ok {complete : Bool} {manifest : EvidenceManifest}
    (hs : TripInv sha256 numbering tripId (s.view tripId))
    (h : evidenceManifest sha256 s tripId complete = .ok manifest) :
    ↑manifest.entries = s.entriesOf tripId ∧ buildEvidenceManifest sha256 tripId manifest.entries
      manifest.complete = .ok manifest := by
  rcases declaredEntries_eq hs with ⟨entries, hdeclared, hentries⟩
  have hnumbers : (entries.map (·.batchSequence)).Nodup := by
    have hnodup := hs.numbers_nodup
    rwa [← hentries, Multiset.map_coe, Multiset.coe_nodup] at hnodup
  have hbuilt : buildEvidenceManifest sha256 tripId entries complete = .ok manifest := by
    unfold evidenceManifest at h
    rw [hdeclared] at h
    exact h
  have hordered := (Wire.buildEvidenceManifest_eq_ok hbuilt).2.2.1
  refine ⟨?_, ?_⟩
  · rw [hordered, ← hentries, Multiset.coe_eq_coe]
    exact List.perm_insertionSort _ entries
  · rw [complete_of_built hbuilt, hordered,
      buildEvidenceManifest_congr (orderedEntries_idem hnumbers)]
    exact hbuilt

/-- The manifest of a frozen trip is rebuilt from what the phone holds now. -/
theorem evidenceManifest_frozen {manifest : EvidenceManifest}
    (hs : TripInv sha256 numbering tripId (s.view tripId))
    (h : (s.metaOrDefault tripId).endManifest = some manifest) :
    evidenceManifest sha256 s tripId manifest.complete = .ok manifest := by
  rcases hs.frozen manifest h with ⟨_, hentries, hbuilt⟩
  rcases declaredEntries_eq hs with ⟨entries, hdeclared, hsame⟩
  have hperm : manifest.entries.Perm entries :=
    Multiset.coe_eq_coe.mp (hentries.trans hsame.symm)
  have hnumbers : (manifest.entries.map (·.batchSequence)).Nodup := by
    have hnodup := hs.numbers_nodup
    have hview : (s.view tripId).entries = s.entriesOf tripId := rfl
    rwa [← hview, ← hentries, Multiset.map_coe, Multiset.coe_nodup] at hnodup
  unfold evidenceManifest
  rw [hdeclared]
  calc
    buildEvidenceManifest sha256 tripId entries manifest.complete
      = buildEvidenceManifest sha256 tripId manifest.entries manifest.complete :=
        buildEvidenceManifest_congr (orderedEntries_perm hnumbers hperm).symm
    _ = .ok manifest := hbuilt

/-! ## Freezing -/

/-- The random keys of the batches still to be cut are unused. -/
structure FreshKeys (uuid : Nat → String) (first : Nat) (s : Store) : Prop where
  different : Function.Injective uuid
  unused : ∀ n, first ≤ n → uuid n ∉ evidenceKeys s

/-- A round cuts a batch under the next key, and at least one ping waits no more. -/
theorem cutBatch_round {max : Nat} {uuid : Nat → String} {cutAt : Int} (hs : QueueInv sha256 numbering s)
    (hmax : 0 < max) (hfresh : FreshKeys uuid (s.metaOrDefault tripId).batchesCut s)
    (h : cutBatch sha256 tripId max (uuid (s.metaOrDefault tripId).batchesCut) cutAt s = .ok s') :
    FreshKeys uuid (s'.metaOrDefault tripId).batchesCut s'
      ∧ s'.pendingCount tripId ≤ s.pendingCount tripId - 1 := by
  have hcount : s.pendingCount tripId = (s.pendingPings tripId).length := by
    rw [← card_pendingOf, pendingOf_eq, Multiset.coe_card]
  have hpending := pending_cut (hs.trips tripId) max tripId
  rw [if_pos rfl] at hpending
  rcases cutBatch_eq h with ⟨hempty, rfl⟩ | ⟨batch, hkey, _, _, hpings, _, _, rfl⟩
  · refine ⟨hfresh, ?_⟩
    have hnone : s'.pendingPings tripId = [] := by
      rcases List.take_eq_nil_iff.mp hempty with hzero | hnone
      · exact absurd hzero (Nat.pos_iff_ne_zero.mp hmax)
      · exact hnone
    simp [hcount, hnone]
  · rw [← hpings] at hpending
    refine ⟨⟨hfresh.different, ?_⟩, ?_⟩
    · rw [metaOrDefault_putMeta, if_pos metaOrDefault_tripId]
      intro n hn hmem
      have hbefore : (s.metaOrDefault tripId).batchesCut ≤ n := Nat.le_of_succ_le hn
      refine hfresh.unused n hbefore ?_
      have hkeys := evidenceKeys_putBatch (hkey ▸ hfresh.unused _ (Nat.le_refl _))
      rcases List.mem_cons.mp (hkeys.mem_iff.mp hmem) with heq | hold
      · have hsame := hfresh.different (heq.trans hkey)
        exact absurd hn (by rw [hsame]; exact Nat.not_succ_le_self _)
      · exact hold
    · have hleft : (({ s with
          batches := putRow (·.key) batch s.batches
          pending := s.pending.filter (fun record => ¬ (record.tripId = tripId
            ∧ record.ping.sequenceNumber ∈ batch.pings.map QueuedPing.sequenceNumber)) }
          : Store).pendingOf tripId).card = ((s.pendingPings tripId).drop max).length := by
        rw [Store.pendingOf, hpending, Multiset.coe_card]
      rw [card_pendingOf, List.length_drop, ← hcount] at hleft
      calc
        _ = s.pendingCount tripId - max := hleft
        _ ≤ s.pendingCount tripId - 1 := Nat.sub_le_sub_left hmax _

theorem cutPending_advances {uuid : Nat → String} {cutAt : Int} {rounds : Nat}
    (hs : QueueInv sha256 numbering s) (hfresh : FreshKeys uuid (s.metaOrDefault tripId).batchesCut s)
    (h : cutPending sha256 tripId uuid cutAt rounds s = .ok s') :
    Advances sha256 numbering s s' ∧ s'.pendingCount tripId ≤ s.pendingCount tripId - rounds := by
  induction rounds generalizing s with
  | zero =>
      rw [← Except.ok.inj h]
      exact ⟨.refl hs, Nat.le_refl _⟩
  | succ rounds ih =>
      rcases bind_eq_ok.mp h with ⟨next, hcut, hrest⟩
      have hadvance := cutBatch_advances hs (hfresh.unused _ (Nat.le_refl _)) hcut
      rcases cutBatch_round hs (by decide) hfresh hcut with ⟨hfresh', hfewer⟩
      rcases ih hadvance.inv hfresh' hrest with ⟨hadvance', hleft⟩
      refine ⟨hadvance.trans hadvance', ?_⟩
      calc
        s'.pendingCount tripId ≤ next.pendingCount tripId - rounds := hleft
        _ ≤ s.pendingCount tripId - 1 - rounds := Nat.sub_le_sub_right hfewer _
        _ = s.pendingCount tripId - (rounds + 1) := by rw [Nat.sub_sub, Nat.add_comm]

theorem freezeEnd_advances {complete : Bool} {uuid : Nat → String} {cutAt : Int}
    (hs : QueueInv sha256 numbering s) (hfresh : FreshKeys uuid (s.metaOrDefault tripId).batchesCut s)
    (h : freezeEnd sha256 tripId complete uuid cutAt s = .ok s') :
    Advances sha256 numbering s s' ∧ ∃ manifest, (s'.metaOrDefault tripId).endManifest = some manifest := by
  unfold freezeEnd at h
  split_ifs at h with hfrozen
  · rw [← Except.ok.inj h]
    exact ⟨.refl hs, Option.isSome_iff_exists.mp hfrozen⟩
  · rcases bind_eq_ok.mp h with ⟨cut, hcut, h⟩
    rcases bind_eq_ok.mp h with ⟨manifest, hmanifest, h⟩
    rw [← pure_eq_ok.mp h]
    rcases cutPending_advances hs hfresh hcut with ⟨hadvance, hleft⟩
    have hnone : cut.pendingOf tripId = 0 := by
      refine Multiset.card_eq_zero.mp ?_
      rw [card_pendingOf]
      exact Nat.le_zero.mp (Nat.sub_self (s.pendingCount tripId) ▸ hleft)
    rcases evidenceManifest_eq_ok (hadvance.inv.trips tripId) hmanifest with ⟨hentries, hbuilt⟩
    have hrow : ({ cut.metaOrDefault tripId with endManifest := some manifest } : TripMeta).tripId
        = tripId := metaOrDefault_tripId
    have hmoves : Moves sha256 numbering tripId cut
        (cut.putMeta { cut.metaOrDefault tripId with endManifest := some manifest }) := by
      constructor
      · rw [view_putMeta hrow]
        exact .freeze (cut.view tripId) manifest hnone hentries hbuilt
      · intro other hother
        exact view_putMeta_other (by rw [hrow]; exact hother.symm)
    refine ⟨hadvance.trans (putMeta_advances hadvance.inv (by rw [hrow]; exact hmoves)), manifest, ?_⟩
    rw [metaOrDefault_putMeta, if_pos hrow]

end

end Device
end Mobility
