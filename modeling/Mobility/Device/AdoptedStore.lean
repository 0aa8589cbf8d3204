import Mathlib.Algebra.BigOperators.Ring.Finset
import Mobility.Device.Adoption

/-!
# AdoptedStore — the store after an adoption

The acknowledged batches are gone and covered by their receipts, the moved ones have new
keys and numbers, and everything else is where it was.
-/

namespace Mobility
namespace Device

open Lib
open Wire (EvidenceManifestEntry)

/-- Random keys that neither the phone nor the server has used. -/
structure UnusedKeys (uuid : Nat → String) (s : Store) (receipts : List EvidenceReceipt) : Prop where
  fresh : FreshKeys uuid 0 s
  server : ∀ n, ∀ receipt ∈ receipts, uuid n ≠ receipt.idempotencyKey

section

variable {sha256 : Wire.Bytes → String} {numbering : Numbering} {s s' : Store} {tripId : String}
  {receipts : List EvidenceReceipt} {uuid : Nat → String} {acked : List QueuedBatch} {seen : Seen}
  {placed : Placement QueuedBatch} {dead : Placement DeadLetter}

/-! ## The tables -/

theorem Placing.moved_of_left (h : Placing s tripId receipts uuid acked seen placed dead)
    {batch : QueuedBatch} (hbatch : batch ∈ placed.left) :
    ∃ n, moveBatch uuid batch n ∈ placed.moved := by
  rcases exists_of_mem_forall₂_left h.moved hbatch with ⟨_, hmem, n, rfl⟩
  exact ⟨n, hmem⟩

/-- The batches that went or moved were batches of the trip. -/
theorem Placing.gone_mem (h : Placing s tripId receipts uuid acked seen placed dead)
    {batch : QueuedBatch} (hbatch : batch ∈ acked ++ placed.left) :
    batch ∈ s.batches ∧ batch.tripId = tripId := by
  have hmem := h.batches.mem_iff.mpr (List.mem_append_left _ hbatch)
  exact ⟨List.mem_of_mem_filter hmem, by simpa using List.of_mem_filter hmem⟩

theorem Placing.moved_mem (h : Placing s tripId receipts uuid acked seen placed dead)
    {batch : QueuedBatch} (hbatch : batch ∈ placed.moved) :
    batch.tripId = tripId ∧ batch.key = uuid batch.cutSeq
      ∧ ∃ old ∈ s.batches, batch.pings = old.pings ∧ batch.payloadHash = old.payloadHash := by
  rcases exists_of_mem_forall₂ h.moved hbatch with ⟨old, hold, n, rfl⟩
  have hgone := h.gone_mem (List.mem_append_right acked hold)
  exact ⟨hgone.2, rfl, old, hgone.1, rfl, rfl⟩

theorem Placing.deadLeft_mem (h : Placing s tripId receipts uuid acked seen placed dead)
    {letter : DeadLetter} (hletter : letter ∈ dead.left) :
    letter ∈ s.deadLetters ∧ letter.tripId = tripId := by
  have hmem := h.deadLetters.mem_iff.mpr (List.mem_append_left _ hletter)
  exact ⟨List.mem_of_mem_filter hmem, by simpa using List.of_mem_filter hmem⟩

theorem Placing.deadMoved_mem (h : Placing s tripId receipts uuid acked seen placed dead)
    {letter : DeadLetter} (hletter : letter ∈ dead.moved) :
    letter.tripId = tripId
      ∧ ∃ old ∈ s.deadLetters, letter.pings = old.pings ∧ letter.payloadHash = old.payloadHash := by
  rcases exists_of_mem_forall₂ h.deadMoved hletter with ⟨old, hold, n, rfl⟩
  have hleft := h.deadLeft_mem hold
  exact ⟨hleft.2, old, hleft.1, rfl, rfl⟩

theorem Placing.movedKeys (h : Placing s tripId receipts uuid acked seen placed dead) :
    placed.moved.map (·.key) = (placed.moved.map (·.cutSeq)).map uuid := by
  rw [List.map_map]
  refine List.map_congr_left ?_
  intro batch hbatch
  exact (h.moved_mem hbatch).2.1

theorem Placing.movedKeys_nodup (h : Placing s tripId receipts uuid acked seen placed dead)
    (hkeys : UnusedKeys uuid s receipts) : (placed.moved.map (·.key)).Nodup := by
  rw [h.movedKeys]
  exact h.apart.map hkeys.fresh.different

theorem Placing.movedKeys_unused (h : Placing s tripId receipts uuid acked seen placed dead)
    (hkeys : UnusedKeys uuid s receipts) {key : String} (hkey : key ∈ placed.moved.map (·.key)) :
    key ∉ evidenceKeys s := by
  rcases List.mem_map.mp (h.movedKeys ▸ hkey) with ⟨n, _, rfl⟩
  exact hkeys.fresh.unused n (Nat.zero_le n)

theorem Placing.batchRows (h : Placing s tripId receipts uuid acked seen placed dead)
    (hkeys : UnusedKeys uuid s receipts) :
    putRows (·.key) placed.moved
        (removeKeys (·.key) (seen.acknowledged ++ placed.left.map QueuedBatch.key) s.batches)
      = s.batches.filter (·.key ∉ (acked ++ placed.left).map QueuedBatch.key) ++ placed.moved := by
  rw [removeKeys_eq, h.evidence.acknowledged, List.map_append]
  refine putRows_of_fresh (h.movedKeys_nodup hkeys) ?_
  intro batch hbatch hmem
  refine h.movedKeys_unused hkeys hmem ?_
  exact List.mem_append_left _ (List.mem_append_left _
    (List.mem_map_of_mem (List.mem_of_mem_filter hbatch)))

theorem Placing.deadKeys (h : Placing s tripId receipts uuid acked seen placed dead) :
    dead.moved.map (·.key) = dead.left.map (·.key) := by
  refine map_eq_of_forall₂ ?_ h.deadMoved
  rintro row _ ⟨n, rfl⟩
  rfl

theorem Placing.deadKeys_nodup (h : Placing s tripId receipts uuid acked seen placed dead)
    (hs : KeysApart s) : (dead.left.map (·.key)).Nodup := by
  have hnodup := hs.deadLetters.sublist
    ((List.filter_sublist (p := fun letter : DeadLetter => letter.tripId = tripId)).map (·.key))
  have hperm := (h.deadLetters.map (·.key)).nodup_iff.mp hnodup
  rw [List.map_append] at hperm
  exact (List.nodup_append.mp hperm).1

theorem Placing.deadRows (h : Placing s tripId receipts uuid acked seen placed dead)
    (hs : KeysApart s) :
    putRows (·.key) dead.moved s.deadLetters
      = s.deadLetters.filter (·.key ∉ dead.left.map (·.key)) ++ dead.moved := by
  rw [← h.deadKeys]
  exact putRows_eq (h.deadKeys ▸ h.deadKeys_nodup hs)

/-- No stored receipt has the key of an adopted one. -/
theorem Placing.adopted_fresh (h : Placing s tripId receipts uuid acked seen placed dead)
    (hserver : ServerEvidence s tripId receipts) :
    ∀ receipt ∈ s.receipts, receipt.idempotencyKey ∉ seen.adopted.map (·.idempotencyKey) := by
  intro receipt hreceipt hmem
  rcases List.mem_map.mp hmem with ⟨other, hother, hkey⟩
  rcases h.evidence.adopted other hother with ⟨hlisted, hadoptable⟩
  have htrip := hserver.own other hlisted hadoptable receipt hreceipt hkey.symm
  have hstored : receipt ∈ s.listReceipts tripId :=
    listReceipts_perm.mem_iff.mpr (List.mem_filter.mpr ⟨hreceipt, by simp [htrip]⟩)
  have happart := h.evidence.apart
  rw [List.map_append] at happart
  exact (List.nodup_append.mp happart).2.2 _ (List.mem_map_of_mem hstored) _ hmem rfl

theorem Placing.adopted_nodup (h : Placing s tripId receipts uuid acked seen placed dead) :
    (seen.adopted.map (·.idempotencyKey)).Nodup := by
  have hapart := h.evidence.apart
  rw [List.map_append] at hapart
  exact (List.nodup_append.mp hapart).2.1

/-- The store with the computed tables. -/
structure AdoptedRows (s s' : Store) (acked : List QueuedBatch) (seen : Seen)
    (placed : Placement QueuedBatch) (dead : Placement DeadLetter) : Prop where
  pending : s'.pending = s.pending
  batches : s'.batches
    = s.batches.filter (·.key ∉ (acked ++ placed.left).map QueuedBatch.key) ++ placed.moved
  deadLetters : s'.deadLetters
    = s.deadLetters.filter (·.key ∉ dead.left.map (·.key)) ++ dead.moved
  receipts : s'.receipts = s.receipts ++ seen.adopted

/-! ## The trips -/

section

variable (hs : KeysApart s) (h : Placing s tripId receipts uuid acked seen placed dead)
  (hrows : AdoptedRows s s' acked seen placed dead)

include hs h hrows

theorem tripBatches : (s'.batches.filter (·.tripId = tripId)).Perm (placed.kept ++ placed.moved) := by
  rw [hrows.batches]
  refine filter_replace hs.batches h.batches ?_
  exact fun batch hbatch => decide_eq_true (h.moved_mem hbatch).1

theorem tripDeadLetters :
    (s'.deadLetters.filter (·.tripId = tripId)).Perm (dead.kept ++ dead.moved) := by
  rw [hrows.deadLetters]
  refine filter_replace hs.deadLetters h.deadLetters ?_
  exact fun letter hletter => decide_eq_true (h.deadMoved_mem hletter).1

omit hs in
theorem tripReceipts : (s'.receipts.filter (·.tripId = tripId)).Perm
    (s.listReceipts tripId ++ seen.adopted) := by
  have hadopted : seen.adopted.filter (·.tripId = tripId) = seen.adopted := by
    refine List.filter_eq_self.mpr ?_
    exact fun receipt hreceipt => decide_eq_true (h.evidence.adopted receipt hreceipt).2.1
  rw [hrows.receipts, List.filter_append, hadopted]
  exact listReceipts_perm.symm.append_right _

/-- The view of every other trip stays. -/
theorem adopted_other {other : String} (hother : other ≠ tripId)
    (hmeta : s'.metaOrDefault other = s.metaOrDefault other) : s'.view other = s.view other := by
  have hfails : ∀ {trip : String}, trip = tripId → decide (trip = other) = false :=
    fun htrip => decide_eq_false (fun heq => hother (heq.symm.trans htrip))
  have hbatches : s'.batches.filter (·.tripId = other) = s.batches.filter (·.tripId = other) := by
    rw [hrows.batches]
    refine filter_replace_other hs.batches ?_ ?_
    · exact fun batch hbatch => ⟨(h.gone_mem hbatch).1, hfails (h.gone_mem hbatch).2⟩
    · exact fun batch hbatch => hfails (h.moved_mem hbatch).1
  have hdead : s'.deadLetters.filter (·.tripId = other)
      = s.deadLetters.filter (·.tripId = other) := by
    rw [hrows.deadLetters]
    refine filter_replace_other hs.deadLetters ?_ ?_
    · exact fun letter hletter => ⟨(h.deadLeft_mem hletter).1, hfails (h.deadLeft_mem hletter).2⟩
    · exact fun letter hletter => hfails (h.deadMoved_mem hletter).1
  have hreceipts : s'.receipts.filter (·.tripId = other) = s.receipts.filter (·.tripId = other) := by
    have hnone : seen.adopted.filter (·.tripId = other) = [] := by
      refine List.filter_eq_nil_iff.mpr ?_
      intro receipt hreceipt
      rw [hfails (h.evidence.adopted receipt hreceipt).2.1]
      exact Bool.false_ne_true
    rw [hrows.receipts, List.filter_append, hnone, List.append_nil]
  refine view_eq hmeta ?_ ?_ ?_
  · rw [Store.pendingOf, hrows.pending]
    rfl
  · unfold Store.batchedOf gather
    rw [hbatches, hdead]
  · unfold Store.entriesOf gather
    rw [hbatches, hdead, hreceipts]

theorem adopted_entries : (s'.entriesOf tripId).map (·.batchSequence)
    = ↑((((s.listReceipts tripId ++ seen.adopted).map (·.batchSequence)
        ++ (placed.kept ++ placed.moved).map (·.cutSeq)
        ++ (dead.kept ++ dead.moved).map (·.cutSeq))).map (fun n : Nat => (n : Int))) := by
  rw [entriesOf_eq (tripReceipts h hrows) (tripBatches hs h hrows) (tripDeadLetters hs h hrows)]
  exact map_entryNumbers

/-- The numbers of the trip stay apart. -/
theorem adopted_apart : NumbersApart (pastAll dead.next dead.held) (s'.entriesOf tripId) := by
  have hentries := adopted_entries hs h hrows
  have hnext := pastAll_of_below h.heldApart.below
  constructor
  · rw [hentries, Multiset.coe_nodup]
    exact (h.numbers.nodup_iff.mpr h.heldApart.apart).map (fun _ _ heq => Int.ofNat_inj.mp heq)
  · intro entry hentry
    have hnumber := Multiset.mem_map_of_mem (·.batchSequence) hentry
    rw [hentries, Multiset.mem_coe] at hnumber
    rcases List.mem_map.mp hnumber with ⟨n, hn, heq⟩
    rw [← heq, hnext]
    exact Int.ofNat_lt.mpr (h.heldApart.below n (h.numbers.mem_iff.mp hn))

/-- Placed without a gap, they leave none. -/
theorem adopted_numbers (hgapless : Gapless dead.held dead.next []) :
    NumberedBelow (pastAll dead.next dead.held) (s'.entriesOf tripId) := by
  rw [NumberedBelow, adopted_entries hs h hrows, pastAll_of_below h.heldApart.below]
  exact Multiset.coe_eq_coe.mpr
    ((h.numbers.trans (hgapless.held_perm h.heldApart)).map (fun n : Nat => (n : Int)))

/-- The pings of the acknowledged batches are batched no more. -/
theorem adopted_batched : s.batchedOf tripId
    = (acked.map (fun batch => (↑batch.pings : Multiset QueuedPing))).sum + s'.batchedOf tripId := by
  have hmoved : placed.moved.map (fun batch => (↑batch.pings : Multiset QueuedPing))
      = placed.left.map (fun batch => ↑batch.pings) := by
    refine map_eq_of_forall₂ ?_ h.moved
    rintro row _ ⟨n, rfl⟩
    rfl
  have hdeadMoved : dead.moved.map (fun letter => (↑letter.pings : Multiset QueuedPing))
      = dead.left.map (fun letter => ↑letter.pings) := by
    refine map_eq_of_forall₂ ?_ h.deadMoved
    rintro row _ ⟨n, rfl⟩
    rfl
  rw [batchedOf_eq h.batches h.deadLetters,
    batchedOf_eq (tripBatches hs h hrows) (tripDeadLetters hs h hrows)]
  simp only [List.map_append, List.sum_append, hmoved, hdeadMoved]
  abel

/-- Only the pings of other devices are declared beside those declared before. -/
theorem adopted_declared :
    declaredPings (s'.entriesOf tripId) = declaredPings (s.entriesOf tripId) + seen.adoptedPings := by
  have hmoved : placed.moved.map (fun batch => (batch.pings.length : Int))
      = placed.left.map (fun batch => (batch.pings.length : Int)) := by
    refine map_eq_of_forall₂ ?_ h.moved
    rintro row _ ⟨n, rfl⟩
    rfl
  have hdeadMoved : dead.moved.map (fun letter => (letter.pings.length : Int))
      = dead.left.map (fun letter => (letter.pings.length : Int)) := by
    refine map_eq_of_forall₂ ?_ h.deadMoved
    rintro row _ ⟨n, rfl⟩
    rfl
  have hcounted : (acked.map (fun batch => (batch.pings.length : Int))).sum + seen.adoptedPings
      = (seen.adopted.map (fun receipt => (receipt.submittedCount : Int))).sum := by
    have hcast := congrArg (fun n : Nat => (n : Int)) h.evidence.counted
    rw [Nat.cast_add, Nat.cast_list_sum, Nat.cast_list_sum, List.map_map, List.map_map] at hcast
    exact hcast
  rw [entriesOf_eq listReceipts_perm.symm h.batches h.deadLetters,
    entriesOf_eq (tripReceipts h hrows) (tripBatches hs h hrows) (tripDeadLetters hs h hrows)]
  simp only [declaredPings, Multiset.map_coe, Multiset.sum_coe, List.map_append, List.map_map,
    List.sum_append, Function.comp_def, EvidenceReceipt.entry, QueuedBatch.entry, hmoved,
    hdeadMoved]
  omega

end

/-! ## Keys and pings -/

theorem adopted_deadKeys (hs : KeysApart s)
    (h : Placing s tripId receipts uuid acked seen placed dead)
    (hrows : AdoptedRows s s' acked seen placed dead) :
    (s'.deadLetters.map (·.key)).Perm (s.deadLetters.map (·.key)) := by
  have hrest := rest_perm hs.deadLetters (h.deadKeys_nodup hs)
    (fun letter hletter => (h.deadLeft_mem hletter).1)
  refine List.Perm.trans ?_ (hrest.map (·.key)).symm
  rw [hrows.deadLetters, List.map_append, List.map_append, h.deadKeys]
  exact List.perm_append_comm

theorem adopted_keys (hs : KeysApart s) (hserver : ServerEvidence s tripId receipts)
    (hkeys : UnusedKeys uuid s receipts)
    (h : Placing s tripId receipts uuid acked seen placed dead)
    (hrows : AdoptedRows s s' acked seen placed dead) : KeysApart s' := by
  have hdead := adopted_deadKeys hs h hrows
  -- a batch of the new store stayed, or moved to an unused key
  have hbatch : ∀ batch ∈ s'.batches, (batch ∈ s.batches
      ∧ batch.key ∉ (acked ++ placed.left).map QueuedBatch.key) ∨ batch ∈ placed.moved := by
    intro batch hbatch
    rw [hrows.batches, List.mem_append, List.mem_filter, decide_eq_true_eq] at hbatch
    exact hbatch
  have hunused : ∀ batch ∈ placed.moved, batch.key ∉ evidenceKeys s :=
    fun batch hbatch => h.movedKeys_unused hkeys (List.mem_map_of_mem hbatch)
  have hnotAdopted : ∀ batch ∈ s'.batches, ∀ receipt ∈ seen.adopted,
      batch.key ≠ receipt.idempotencyKey := by
    intro batch hmem receipt hreceipt hkey
    rcases h.evidence.adopted receipt hreceipt with ⟨hlisted, hadoptable⟩
    rcases hbatch batch hmem with ⟨hold, hnone⟩ | hmoved
    · -- the server answered the batch, so it was acknowledged
      have htrip := (hserver.answers receipt hlisted hadoptable batch hold hkey).1
      have hlocal : batch ∈ s.listBatches tripId :=
        listBatches_perm.mem_iff.mpr (List.mem_filter.mpr ⟨hold, by simp [htrip]⟩)
      have hacked := h.evidence.unsent batch hlocal (hkey ▸ List.mem_map_of_mem hreceipt)
      exact hnone (List.mem_map_of_mem (List.mem_append_left _ hacked))
    · exact hkeys.server batch.cutSeq receipt hlisted ((h.moved_mem hmoved).2.1.symm.trans hkey)
  refine ⟨?_, hdead.nodup_iff.mpr hs.deadLetters, ?_, ?_, ?_⟩
  · rw [hrows.batches, List.map_append]
    refine List.nodup_append.mpr ⟨hs.batches.sublist (List.filter_sublist.map _),
      h.movedKeys_nodup hkeys, ?_⟩
    intro key hkey key' hkey' heq
    refine h.movedKeys_unused hkeys hkey' (List.mem_append_left _ (List.mem_append_left _ ?_))
    exact heq ▸ (List.filter_sublist.map _).subset hkey
  · rw [hrows.receipts, List.map_append]
    refine List.nodup_append.mpr ⟨hs.receipts, h.adopted_nodup, ?_⟩
    intro key hkey key' hkey' heq
    rcases List.mem_map.mp hkey with ⟨receipt, hreceipt, rfl⟩
    exact h.adopted_fresh hserver receipt hreceipt (heq ▸ hkey')
  · intro batch hmem letter hletter heq
    have hkept := hdead.mem_iff.mp (List.mem_map_of_mem hletter)
    rcases hbatch batch hmem with ⟨hold, _⟩ | hmoved
    · rcases List.mem_map.mp hkept with ⟨old, hmemOld, hkey⟩
      exact hs.batchDead batch hold old hmemOld (heq.trans hkey.symm)
    · refine hunused batch hmoved (List.mem_append_left _ (List.mem_append_right _ ?_))
      exact heq ▸ hkept
  · intro batch hmem receipt hreceipt heq
    rw [hrows.receipts] at hreceipt
    rcases List.mem_append.mp hreceipt with hreceipt | hreceipt
    · rcases hbatch batch hmem with ⟨hold, _⟩ | hmoved
      · exact hs.batchReceipt batch hold receipt hreceipt heq
      · refine hunused batch hmoved (List.mem_append_right _ ?_)
        exact heq ▸ List.mem_map_of_mem hreceipt
    · exact hnotAdopted batch hmem receipt hreceipt heq

theorem adopted_kept (hs : QueueInv sha256 numbering s)
    (h : Placing s tripId receipts uuid acked seen placed dead)
    (hrows : AdoptedRows s s' acked seen placed dead) {trip : String} {ping : QueuedPing}
    (hping : ping ∈ (s.view trip).captured) : Kept sha256 s' trip ping := by
  rcases mem_captured.mp hping with hpending | ⟨batch, hbatch, htrip, hmem⟩
    | ⟨letter, hletter, htrip, hmem⟩
  · refine .inl (mem_captured.mpr (.inl ?_))
    rw [hrows.pending]
    exact hpending
  · by_cases hgone : batch.key ∈ (acked ++ placed.left).map QueuedBatch.key
    · rcases List.mem_map.mp hgone with ⟨same, hsame, hkey⟩
      have hbatch' : same = batch :=
        List.inj_on_of_nodup_map hs.keys.batches (h.gone_mem hsame).1 hbatch hkey
      subst hbatch'
      rcases List.mem_append.mp hsame with hacked | hleft
      · -- the adopted receipt answers the batch
        rcases (h.evidence.answered same hacked).2 with ⟨receipt, hreceipt, hentry⟩
        have hstored : receipt ∈ s'.receipts := by
          rw [hrows.receipts]
          exact List.mem_append_right _ hreceipt
        have hreceiptTrip := (h.evidence.adopted receipt hreceipt).2.1
        rw [← htrip]
        exact .inr (covered_of_receipt (hs.hashed same hbatch) hstored
          (hreceiptTrip.trans (h.gone_mem hsame).2.symm) hentry hmem)
      · rcases h.moved_of_left hleft with ⟨n, hmoved⟩
        refine .inl (mem_captured.mpr (.inr (.inl ⟨moveBatch uuid same n, ?_, htrip, hmem⟩)))
        rw [hrows.batches]
        exact List.mem_append_right _ hmoved
    · refine .inl (mem_captured.mpr (.inr (.inl ⟨batch, ?_, htrip, hmem⟩)))
      rw [hrows.batches]
      exact List.mem_append_left _ (List.mem_filter.mpr ⟨hbatch, decide_eq_true hgone⟩)
  · by_cases hgone : letter.key ∈ dead.left.map (·.key)
    · rcases List.mem_map.mp hgone with ⟨same, hsame, hkey⟩
      have hletter' : same = letter :=
        List.inj_on_of_nodup_map hs.keys.deadLetters (h.deadLeft_mem hsame).1 hletter hkey
      subst hletter'
      rcases exists_of_mem_forall₂_left h.deadMoved hsame with ⟨_, hmoved, n, rfl⟩
      refine .inl (mem_captured.mpr (.inr (.inr ⟨moveDeadLetter same n, ?_, htrip, hmem⟩)))
      rw [hrows.deadLetters]
      exact List.mem_append_right _ hmoved
    · refine .inl (mem_captured.mpr (.inr (.inr ⟨letter, ?_, htrip, hmem⟩)))
      rw [hrows.deadLetters]
      exact List.mem_append_left _ (List.mem_filter.mpr ⟨hletter, decide_eq_true hgone⟩)

/-! ## The adoption -/

/-- A frozen trip adopts nothing. -/
theorem adoptServerEvidence_frozen {manifest : Wire.EvidenceManifest}
    (h : (s.metaOrDefault tripId).endManifest = some manifest) :
    adoptServerEvidence tripId receipts uuid s = s := by
  unfold adoptServerEvidence
  exact if_pos (by rw [h]; rfl)

theorem adoptServerEvidence_rows (hs : QueueInv sha256 numbering s)
    (hserver : ServerEvidence s tripId receipts) (hkeys : UnusedKeys uuid s receipts)
    (hopen : (s.metaOrDefault tripId).endManifest = none) :
    ∃ acked seen placed dead, Placing s tripId receipts uuid acked seen placed dead
      ∧ dead = placedDeadLetters s tripId
        (placedBatches s tripId (seenEvidence s tripId receipts) uuid)
      ∧ ∃ rows, AdoptedRows s rows acked seen placed dead ∧ rows.metas = s.metas
        ∧ adoptServerEvidence tripId receipts uuid s = rows.putMeta
          { s.metaOrDefault tripId with
            batchesCut := pastAll dead.next dead.held
            pingsRecorded := (s.metaOrDefault tripId).pingsRecorded + seen.adoptedPings } := by
  rcases placing hs hserver uuid with ⟨acked, h⟩
  refine ⟨acked, _, _, _, h, rfl, { s with
    receipts := putRows (·.idempotencyKey) (seenEvidence s tripId receipts).adopted s.receipts
    batches := putRows (·.key) (placedBatches s tripId (seenEvidence s tripId receipts) uuid).moved
      (removeKeys (·.key) ((seenEvidence s tripId receipts).acknowledged
        ++ (placedBatches s tripId (seenEvidence s tripId receipts) uuid).left.map QueuedBatch.key)
        s.batches)
    deadLetters := putRows (·.key) (placedDeadLetters s tripId
      (placedBatches s tripId (seenEvidence s tripId receipts) uuid)).moved s.deadLetters },
    ⟨rfl, h.batchRows hkeys, h.deadRows hs.keys, ?_⟩, rfl, ?_⟩
  · exact putRows_of_fresh h.adopted_nodup (h.adopted_fresh hserver)
  · unfold adoptServerEvidence
    exact if_neg (by rw [hopen]; exact Bool.false_ne_true)

/-- The numbering holds of the trip after the adoption. -/
def Adopts (numbering : Numbering) (tripId : String) (s' : Store) : Prop :=
  numbering.holds (s'.metaOrDefault tripId).batchesCut (s'.entriesOf tripId)

theorem adoptServerEvidence_moves (hs : QueueInv sha256 numbering s)
    (hserver : ServerEvidence s tripId receipts) (hkeys : UnusedKeys uuid s receipts)
    (hadopts : Adopts numbering tripId (adoptServerEvidence tripId receipts uuid s)) :
    Moves sha256 numbering tripId s (adoptServerEvidence tripId receipts uuid s) := by
  cases hopen : (s.metaOrDefault tripId).endManifest with
  | some manifest =>
      rw [adoptServerEvidence_frozen hopen]
      exact ⟨.stay _, fun _ _ => rfl⟩
  | none =>
      rcases adoptServerEvidence_rows hs hserver hkeys hopen with
        ⟨acked, seen, placed, dead, h, _, rows, hrows, hmetas, heq⟩
      have hmeta : ∀ trip, rows.metaOrDefault trip = s.metaOrDefault trip := by
        intro trip
        unfold Store.metaOrDefault
        rw [hmetas]
      rw [heq, Adopts, metaOrDefault_putMeta, if_pos metaOrDefault_tripId] at hadopts
      rw [heq]
      constructor
      · have hview : rows.view tripId = { s.view tripId with
            batched := rows.batchedOf tripId
            entries := rows.entriesOf tripId } := by
          refine view_eq (hmeta tripId) ?_ rfl rfl
          rw [Store.pendingOf, hrows.pending]
          rfl
        rw [view_putMeta (by exact metaOrDefault_tripId), hview]
        exact .adopt (s.view tripId) _ _ _ _ _ hopen (adopted_batched hs.keys h hrows)
          hadopts (adopted_declared hs.keys h hrows)
      · intro other hother
        rw [view_putMeta_other (by rw [metaOrDefault_tripId]; exact hother.symm)]
        exact adopted_other hs.keys h hrows hother (hmeta other)

/-- Whatever the server holds, the numbers stay apart. -/
theorem adoptServerEvidence_apart (hs : QueueInv sha256 distinctNumbers s)
    (hserver : ServerEvidence s tripId receipts) (hkeys : UnusedKeys uuid s receipts) :
    Adopts distinctNumbers tripId (adoptServerEvidence tripId receipts uuid s) := by
  cases hopen : (s.metaOrDefault tripId).endManifest with
  | some manifest =>
      rw [adoptServerEvidence_frozen hopen]
      exact (hs.trips tripId).numbers
  | none =>
      rcases adoptServerEvidence_rows hs hserver hkeys hopen with
        ⟨acked, seen, placed, dead, h, _, rows, hrows, _, heq⟩
      rw [heq, Adopts, metaOrDefault_putMeta, if_pos metaOrDefault_tripId]
      have happart : NumbersApart (pastAll dead.next dead.held) (rows.entriesOf tripId) :=
        adopted_apart hs.keys h hrows
      exact happart

/-- No two entries of a trip have one key, unless a dead letter was stored by the server. -/
theorem entryKeys_nodup (hs : KeysApart s) : ((s.entriesOf tripId).map (·.idempotencyKey)).Nodup
    ↔ ∀ receipt ∈ s.receipts, receipt.tripId = tripId → ∀ dead ∈ s.deadLetters,
      dead.tripId = tripId → receipt.idempotencyKey ≠ dead.key := by
  rw [entriesOf_eq (List.Perm.refl _) (List.Perm.refl _) (List.Perm.refl _), Multiset.map_coe,
    Multiset.coe_nodup, List.map_append, List.map_append, List.map_map, List.map_map, List.map_map]
  constructor
  · intro hnodup receipt hreceipt htrip dead hdead hdeadTrip heq
    refine (List.nodup_append.mp hnodup).2.2 _ (List.mem_append_left _ ?_) _ ?_ heq
    · exact List.mem_map.mpr ⟨receipt, List.mem_filter.mpr ⟨hreceipt, by simp [htrip]⟩, rfl⟩
    · exact List.mem_map.mpr ⟨dead, List.mem_filter.mpr ⟨hdead, by simp [hdeadTrip]⟩, rfl⟩
  · intro happart
    refine List.nodup_append.mpr ⟨List.nodup_append.mpr ⟨?_, ?_, ?_⟩, ?_, ?_⟩
    · exact hs.receipts.sublist (List.filter_sublist.map _)
    · exact hs.batches.sublist (List.filter_sublist.map _)
    · intro key hkey key' hkey' heq
      rcases List.mem_map.mp hkey with ⟨receipt, hreceipt, rfl⟩
      rcases List.mem_map.mp hkey' with ⟨batch, hbatch, rfl⟩
      exact hs.batchReceipt batch (List.mem_of_mem_filter hbatch) receipt
        (List.mem_of_mem_filter hreceipt) heq.symm
    · exact hs.deadLetters.sublist (List.filter_sublist.map _)
    · intro key hkey key' hkey' heq
      rcases List.mem_map.mp hkey' with ⟨dead, hdead, rfl⟩
      have hdeadTrip : dead.tripId = tripId := by simpa using List.of_mem_filter hdead
      rcases List.mem_append.mp hkey with hkey | hkey
      · rcases List.mem_map.mp hkey with ⟨receipt, hreceipt, rfl⟩
        have htrip : receipt.tripId = tripId := by simpa using List.of_mem_filter hreceipt
        exact happart receipt (List.mem_of_mem_filter hreceipt) htrip dead
          (List.mem_of_mem_filter hdead) hdeadTrip heq
      · rcases List.mem_map.mp hkey with ⟨batch, hbatch, rfl⟩
        exact hs.batchDead batch (List.mem_of_mem_filter hbatch) dead
          (List.mem_of_mem_filter hdead) heq

/-- Unbroken evidence leaves no gap, and no key twice. -/
theorem adoptServerEvidence_gapless (hs : QueueInv sha256 gaplessNumbers s)
    (hserver : ServerEvidence s tripId receipts) (hunbroken : UnbrokenEvidence s tripId receipts)
    (hkeys : UnusedKeys uuid s receipts) :
    Adopts gaplessNumbers tripId (adoptServerEvidence tripId receipts uuid s) := by
  have hbefore : NumberedBelow (s.metaOrDefault tripId).batchesCut (s.entriesOf tripId)
      ∧ ((s.entriesOf tripId).map (·.idempotencyKey)).Nodup := (hs.trips tripId).numbers
  cases hopen : (s.metaOrDefault tripId).endManifest with
  | some manifest =>
      rw [adoptServerEvidence_frozen hopen]
      exact (hs.trips tripId).numbers
  | none =>
      rcases adoptServerEvidence_rows hs hserver hkeys hopen with
        ⟨acked, seen, placed, dead, h, hdead, rows, hrows, _, heq⟩
      have hgapless : Gapless dead.held dead.next [] :=
        hdead ▸ placed_gapless hs hserver hunbroken hbefore.1 uuid
      have hnumbers : NumberedBelow (pastAll dead.next dead.held) (rows.entriesOf tripId) :=
        adopted_numbers hs.keys h hrows hgapless
      have hapart : ((rows.entriesOf tripId).map (·.idempotencyKey)).Nodup := by
        refine (entryKeys_nodup (adopted_keys hs.keys hserver hkeys h hrows)).mpr ?_
        intro receipt hreceipt htrip letter hletter hletterTrip
        -- a moved dead letter keeps its key
        have hold : ∃ old ∈ s.deadLetters, old.key = letter.key ∧ old.tripId = tripId := by
          rcases List.mem_append.mp (hrows.deadLetters ▸ hletter) with hkept | hmoved
          · exact ⟨letter, List.mem_of_mem_filter hkept, rfl, hletterTrip⟩
          · rcases exists_of_mem_forall₂ h.deadMoved hmoved with ⟨old, hleft, n, rfl⟩
            exact ⟨old, (h.deadLeft_mem hleft).1, rfl, (h.deadLeft_mem hleft).2⟩
        rcases hold with ⟨old, hold, hkey, holdTrip⟩
        rw [← hkey]
        rcases List.mem_append.mp (hrows.receipts ▸ hreceipt) with hstored | hadopted
        · exact (entryKeys_nodup hs.keys).mp hbefore.2 receipt hstored htrip old hold holdTrip
        · rcases h.evidence.adopted receipt hadopted with ⟨hlisted, hadoptable⟩
          exact (hunbroken.undelivered receipt hlisted hadoptable old hold).symm
      rw [heq, Adopts, metaOrDefault_putMeta, if_pos metaOrDefault_tripId]
      exact ⟨hnumbers, hapart⟩

theorem adoptServerEvidence_advances (hs : QueueInv sha256 numbering s)
    (hserver : ServerEvidence s tripId receipts) (hkeys : UnusedKeys uuid s receipts)
    (hadopts : Adopts numbering tripId (adoptServerEvidence tripId receipts uuid s)) :
    Advances sha256 numbering s (adoptServerEvidence tripId receipts uuid s) := by
  have hmoves := adoptServerEvidence_moves hs hserver hkeys hadopts
  cases hopen : (s.metaOrDefault tripId).endManifest with
  | some manifest =>
      rw [adoptServerEvidence_frozen hopen]
      exact .refl hs
  | none =>
      rcases adoptServerEvidence_rows hs hserver hkeys hopen with
        ⟨acked, seen, placed, dead, h, _, rows, hrows, hmetas, heq⟩
      rw [heq] at hmoves ⊢
      refine ⟨⟨?_, ?_, ?_, ?_, hmoves.trips hs.trips⟩, ?_, ?_⟩
      · exact (adopted_keys hs.keys hserver hkeys h hrows).of_tables rfl rfl rfl
      · intro batch hbatch
        rcases List.mem_append.mp (hrows.batches ▸ hbatch) with hold | hmoved
        · exact hs.hashed batch (List.mem_of_mem_filter hold)
        · rcases (h.moved_mem hmoved).2.2 with ⟨old, hold, hpings, hhash⟩
          rw [hpings, hhash]
          exact hs.hashed old hold
      · intro letter hletter
        rcases List.mem_append.mp (hrows.deadLetters ▸ hletter) with hold | hmoved
        · exact hs.deadHashed letter (List.mem_of_mem_filter hold)
        · rcases (h.deadMoved_mem hmoved).2 with ⟨old, hold, hpings, hhash⟩
          rw [hpings, hhash]
          exact hs.deadHashed old hold
      · intro receipt hreceipt
        rcases List.mem_append.mp (hrows.receipts ▸ hreceipt) with hold | hadopted
        · exact hs.settled receipt hold
        · exact hserver.settled receipt (h.evidence.adopted receipt hadopted).1
      · intro receipt hreceipt
        have hmem : receipt ∈ rows.receipts := by
          rw [hrows.receipts]
          exact List.mem_append_left _ hreceipt
        exact hmem
      · intro trip ping hping
        have hkept : Kept sha256 rows trip ping := adopted_kept hs h hrows hping
        rcases hkept with hheld | hcovered
        · exact .inl (mem_captured.mpr (mem_captured.mp hheld))
        · exact .inr hcovered

end

end Device
end Mobility
