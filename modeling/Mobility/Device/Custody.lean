import Mobility.Device.Steps

/-!
# Custody — a captured ping stays with the phone until a receipt covers it

A receipt covers a ping when it counts and hashes a batch with that ping.  Every operation
keeps the invariant of the store, keeps the stored receipts, and leaves each ping that the
phone held either held or covered.
-/

namespace Mobility
namespace Device

open Lib
open Wire (EvidenceManifestEntry)

section

variable (sha256 : Wire.Bytes → String) (numbering : Numbering)

/-- A stored receipt of the trip signs for a batch with this ping. -/
def Covered (s : Store) (tripId : String) (ping : QueuedPing) : Prop :=
  ∃ receipt ∈ s.receipts, receipt.tripId = tripId ∧ ∃ pings : List QueuedPing, ping ∈ pings
    ∧ receipt.submittedCount = pings.length ∧ batchPayloadHash sha256 pings = .ok receipt.payloadHash

/-- The ping is on the phone, or covered. -/
def Kept (s : Store) (tripId : String) (ping : QueuedPing) : Prop :=
  ping ∈ (s.view tripId).captured ∨ Covered sha256 s tripId ping

/-- What every operation but `forgetTrip` does. -/
structure Advances (s s' : Store) : Prop where
  inv : QueueInv sha256 numbering s'
  receipts : ∀ receipt ∈ s.receipts, receipt ∈ s'.receipts
  kept : ∀ tripId, ∀ ping ∈ (s.view tripId).captured, Kept sha256 s' tripId ping

end

section

variable {sha256 : Wire.Bytes → String} {numbering : Numbering} {s s' s'' : Store}
  {tripId : String} {ping : QueuedPing}

theorem Covered.mono (hreceipts : ∀ receipt ∈ s.receipts, receipt ∈ s'.receipts)
    (h : Covered sha256 s tripId ping) : Covered sha256 s' tripId ping := by
  rcases h with ⟨receipt, hreceipt, hrest⟩
  exact ⟨receipt, hreceipts receipt hreceipt, hrest⟩

theorem Advances.keeps (h : Advances sha256 numbering s s') (hkept : Kept sha256 s tripId ping) :
    Kept sha256 s' tripId ping := by
  rcases hkept with hheld | hcovered
  · exact h.kept tripId ping hheld
  · exact .inr (hcovered.mono h.receipts)

theorem Advances.refl (hs : QueueInv sha256 numbering s) : Advances sha256 numbering s s :=
  ⟨hs, fun _ h => h, fun _ _ h => .inl h⟩

theorem Advances.trans (h : Advances sha256 numbering s s') (h' : Advances sha256 numbering s' s'') :
    Advances sha256 numbering s s'' where
  inv := h'.inv
  receipts := fun receipt hreceipt => h'.receipts receipt (h.receipts receipt hreceipt)
  kept := fun tripId ping hping => h'.keeps (h.kept tripId ping hping)

/-! ## What the phone holds, by its records -/

theorem mem_gather {α β : Type} {p : α → Bool} {content : α → Multiset β} {rows : List α} {x : β} :
    x ∈ gather p content rows ↔ ∃ row ∈ rows, p row = true ∧ x ∈ content row := by
  induction rows with
  | nil => simp
  | cons row rows ih =>
      rw [gather_cons, Multiset.mem_add, ih]
      cases hrow : p row with
      | false => simp [hrow]
      | true => simp [hrow]

theorem mem_captured : ping ∈ (s.view tripId).captured
    ↔ (∃ record ∈ s.pending, record.tripId = tripId ∧ record.ping = ping)
      ∨ (∃ batch ∈ s.batches, batch.tripId = tripId ∧ ping ∈ batch.pings)
      ∨ ∃ dead ∈ s.deadLetters, dead.tripId = tripId ∧ ping ∈ dead.pings := by
  simp [TripView.captured, Store.view, Store.pendingOf, Store.batchedOf, mem_gather, eq_comm]

/-- A batch whose receipt is stored is covered. -/
theorem covered_of_receipt {batch : QueuedBatch} {receipt : EvidenceReceipt}
    (hhash : batchPayloadHash sha256 batch.pings = .ok batch.payloadHash)
    (hreceipt : receipt ∈ s.receipts) (htrip : receipt.tripId = batch.tripId)
    (hentry : receipt.entry = batch.entry) (hping : ping ∈ batch.pings) :
    Covered sha256 s batch.tripId ping := by
  have hpayload : receipt.payloadHash = batch.payloadHash :=
    congrArg EvidenceManifestEntry.payloadHash hentry
  have hcount : (receipt.submittedCount : Int) = batch.pings.length :=
    congrArg EvidenceManifestEntry.submittedCount hentry
  exact ⟨receipt, hreceipt, htrip, batch.pings, hping, Int.ofNat_inj.mp hcount, hpayload ▸ hhash⟩

/-! ## Operations on one record -/

theorem KeysApart.of_tables (h : KeysApart s) (hbatches : s'.batches = s.batches)
    (hdead : s'.deadLetters = s.deadLetters) (hreceipts : s'.receipts = s.receipts) :
    KeysApart s' := by
  rcases h with ⟨h₁, h₂, h₃, h₄, h₅⟩
  refine ⟨?_, ?_, ?_, ?_, ?_⟩ <;> simpa only [hbatches, hdead, hreceipts]

theorem putMeta_advances {row : TripMeta} (hs : QueueInv sha256 numbering s)
    (hmoves : Moves sha256 numbering row.tripId s (s.putMeta row)) :
    Advances sha256 numbering s (s.putMeta row) where
  inv := ⟨hs.keys.of_tables rfl rfl rfl, hs.hashed, hs.deadHashed, hs.settled, hmoves.trips hs.trips⟩
  receipts := fun _ h => h
  kept := fun _ _ h => .inl (mem_captured.mpr (mem_captured.mp h))

theorem addPing_eq {fix : Fix} (h : addPing tripId fix s = .ok s') :
    (s.metaOrDefault tripId).endManifest = none ∧ s' = { s with
      pending := putRow (fun record => (record.tripId, record.ping.sequenceNumber))
        { tripId := tripId, ping := queuedPing s tripId fix } s.pending }.putMeta
      { s.metaOrDefault tripId with
        nextSeq := (s.metaOrDefault tripId).nextSeq + 1
        pingsRecorded := (s.metaOrDefault tripId).pingsRecorded + 1 } := by
  simp only [addPing, bind_eq_ok, require_eq_ok, pure_eq_ok] at h
  rcases h with ⟨_, hopen, rfl⟩
  exact ⟨Option.isNone_iff_eq_none.mp hopen, rfl⟩

/-- A waiting ping of the trip has a smaller number than the next one. -/
theorem pending_lt_nextSeq (hs : TripInv sha256 numbering tripId (s.view tripId)) {record : PendingRecord}
    (hrecord : record ∈ s.pending) (htrip : record.tripId = tripId) :
    record.ping.sequenceNumber < (s.metaOrDefault tripId).nextSeq :=
  hs.below record.ping (mem_captured.mpr (.inl ⟨record, hrecord, htrip, rfl⟩))

theorem addPing_advances {fix : Fix} (hs : QueueInv sha256 numbering s)
    (h : addPing tripId fix s = .ok s') : Advances sha256 numbering s s' := by
  have hmoves := addPing_moves (hs.trips tripId) h
  rcases addPing_eq h with ⟨_, rfl⟩
  refine ⟨⟨hs.keys.of_tables rfl rfl rfl, hs.hashed, hs.deadHashed, hs.settled, hmoves.trips hs.trips⟩,
    fun _ h => h, ?_⟩
  intro trip ping hping
  refine .inl (mem_captured.mpr ?_)
  rcases mem_captured.mp hping with ⟨record, hrecord, htrip, rfl⟩ | hrest
  · refine .inl ⟨record, mem_putRow.mpr (.inr ⟨hrecord, ?_⟩), htrip, rfl⟩
    intro heq
    rcases Prod.mk.inj heq with ⟨hsame, hnumber⟩
    exact absurd (pending_lt_nextSeq (hs.trips tripId) hrecord hsame)
      (by rw [hnumber]; exact Nat.lt_irrefl _)
  · exact .inr hrest

/-- The stored ping is held. -/
theorem addPing_held {fix : Fix} (h : addPing tripId fix s = .ok s') :
    queuedPing s tripId fix ∈ (s'.view tripId).captured := by
  rcases addPing_eq h with ⟨_, rfl⟩
  exact mem_captured.mpr (.inl ⟨_, mem_putRow.mpr (.inl rfl), rfl, rfl⟩)

theorem evidenceKeys_putBatch {batch : QueuedBatch} (hkey : batch.key ∉ evidenceKeys s) :
    (evidenceKeys { s with batches := putRow (·.key) batch s.batches }).Perm
      (batch.key :: evidenceKeys s) := by
  unfold evidenceKeys
  rw [putRow_of_fresh (batch_fresh hkey), List.map_append, List.append_assoc, List.append_assoc,
    List.append_assoc]
  exact List.perm_middle

/-- A batch under a new key. -/
theorem KeysApart.putBatch {batch : QueuedBatch} (h : KeysApart s)
    (hkey : batch.key ∉ evidenceKeys s) :
    KeysApart { s with batches := putRow (·.key) batch s.batches } where
  batches := nodup_putRow h.batches
  deadLetters := h.deadLetters
  receipts := h.receipts
  batchDead := by
    intro other hother dead hdead heq
    rcases mem_putRow.mp hother with rfl | ⟨hother, _⟩
    · exact hkey (heq ▸ List.mem_append_left _ (List.mem_append_right _ (List.mem_map_of_mem hdead)))
    · exact h.batchDead other hother dead hdead heq
  batchReceipt := by
    intro other hother receipt hreceipt heq
    rcases mem_putRow.mp hother with rfl | ⟨hother, _⟩
    · exact hkey (heq ▸ List.mem_append_right _ (List.mem_map_of_mem hreceipt))
    · exact h.batchReceipt other hother receipt hreceipt heq

/-- The key of a batch moves to its receipt. -/
theorem KeysApart.acknowledge {stored : QueuedBatch} {receipt : EvidenceReceipt} (h : KeysApart s)
    (hkey : receipt.idempotencyKey = stored.key) :
    KeysApart { s with
      receipts := putRow (·.idempotencyKey) receipt s.receipts
      batches := removeKey (·.key) stored.key s.batches } where
  batches := nodup_removeKey h.batches
  deadLetters := h.deadLetters
  receipts := nodup_putRow h.receipts
  batchDead := fun other hother => h.batchDead other (mem_removeKey.mp hother).1
  batchReceipt := by
    intro other hother receipt' hreceipt' heq
    rcases mem_removeKey.mp hother with ⟨hother, hne⟩
    rcases mem_putRow.mp hreceipt' with rfl | ⟨hreceipt', _⟩
    · exact hne (heq.trans hkey)
    · exact h.batchReceipt other hother receipt' hreceipt' heq

/-- The key of a batch moves to its dead letter. -/
theorem KeysApart.drop {letter : DeadLetter} (h : KeysApart s)
    (hbatch : letter.toQueuedBatch ∈ s.batches) :
    KeysApart { s with
      deadLetters := putRow (·.key) letter s.deadLetters
      batches := removeKey (·.key) letter.key s.batches } where
  batches := nodup_removeKey h.batches
  deadLetters := nodup_putRow h.deadLetters
  receipts := h.receipts
  batchDead := by
    intro other hother dead hdead heq
    rcases mem_removeKey.mp hother with ⟨hother, hne⟩
    rcases mem_putRow.mp hdead with rfl | ⟨hdead, _⟩
    · exact hne heq
    · exact h.batchDead other hother dead hdead heq
  batchReceipt := fun other hother => h.batchReceipt other (mem_removeKey.mp hother).1

theorem cutBatch_advances {max : Nat} {key : String} {cutAt : Int} (hs : QueueInv sha256 numbering s)
    (hkey : key ∉ evidenceKeys s) (h : cutBatch sha256 tripId max key cutAt s = .ok s') :
    Advances sha256 numbering s s' := by
  have hmoves := cutBatch_moves (hs.trips tripId) hkey h
  rcases cutBatch_eq h with ⟨_, rfl⟩ | ⟨batch, rfl, htrip, _, hpings, _, hhash, rfl⟩
  · exact .refl hs
  have hfresh := batch_fresh hkey
  refine ⟨⟨?_, ?_, hs.deadHashed, hs.settled, hmoves.trips hs.trips⟩, fun _ h => h, ?_⟩
  · exact (hs.keys.putBatch hkey).of_tables rfl rfl rfl
  · intro other hother
    rcases mem_putRow.mp hother with rfl | ⟨hother, _⟩
    · exact hhash
    · exact hs.hashed other hother
  · intro trip ping hping
    refine .inl (mem_captured.mpr ?_)
    rcases mem_captured.mp hping with ⟨record, hrecord, hrecordTrip, rfl⟩ | hbatch | hdead
    · by_cases hcut : record.tripId = tripId
          ∧ record.ping.sequenceNumber ∈ batch.pings.map QueuedPing.sequenceNumber
      · -- a pending ping of the trip with that number is the ping of the batch
        rcases List.mem_map.mp hcut.2 with ⟨taken, htaken, hnumber⟩
        have hsame : record.ping = taken := by
          refine List.inj_on_of_nodup_map (pendingPings_distinct (hs.trips tripId)) ?_ ?_
            hnumber.symm
          · unfold Store.pendingPings
            rw [List.mem_insertionSort]
            exact List.mem_map.mpr ⟨record, List.mem_filter.mpr ⟨hrecord, by simp [hcut.1]⟩, rfl⟩
          · rw [hpings] at htaken
            exact List.mem_of_mem_take htaken
        exact .inr (.inl ⟨batch, mem_putRow.mpr (.inl rfl), htrip.trans (hcut.1.symm.trans hrecordTrip),
          hsame ▸ htaken⟩)
      · exact .inl ⟨record, List.mem_filter.mpr ⟨hrecord, decide_eq_true hcut⟩, hrecordTrip, rfl⟩
    · rcases hbatch with ⟨other, hother, hrest⟩
      exact .inr (.inl ⟨other, mem_putRow.mpr (.inr ⟨hother, hfresh other hother⟩), hrest⟩)
    · exact .inr (.inr hdead)

theorem acknowledgeBatch_advances {batch stored : QueuedBatch} {receipt : EvidenceReceipt}
    (hs : QueueInv sha256 numbering s) (hstored : stored ∈ s.batches) (hsame : SameBatch stored batch)
    (h : acknowledgeBatch batch receipt s = .ok s') : Advances sha256 numbering s s' := by
  have hmoves : Moves sha256 numbering batch.tripId s s' := acknowledgeBatch_moves hs.keys hstored hsame h
  rcases acknowledgeBatch_eq h with ⟨hof, rfl⟩
  have hbatchKeys := hs.keys.batches
  have hkey : receipt.idempotencyKey = stored.key := hof.2.1.trans hsame.key.symm
  have hfresh : ∀ other ∈ s.receipts, other.idempotencyKey ≠ receipt.idempotencyKey :=
    fun other hother heq => hs.keys.batchReceipt stored hstored other hother (hkey ▸ heq.symm)
  have hkeys := hs.keys.acknowledge hkey
  rw [hsame.key] at hkeys
  refine ⟨⟨hkeys, ?_, hs.deadHashed, ?_, hmoves.trips hs.trips⟩, ?_, ?_⟩
  · exact fun other hother => hs.hashed other (mem_removeKey.mp hother).1
  · intro other hother
    rcases mem_putRow.mp hother with rfl | ⟨hother, _⟩
    · exact hof.2.2.2.2.2
    · exact hs.settled other hother
  · exact fun other hother => mem_putRow.mpr (.inr ⟨hother, hfresh other hother⟩)
  · intro trip ping hping
    rcases mem_captured.mp hping with hpending | ⟨other, hother, htrip, hmem⟩ | hdead
    · exact .inl (mem_captured.mpr (.inl hpending))
    · by_cases hkey : other.key = batch.key
      · -- the acknowledged batch is covered by its receipt
        have hother' : other = stored :=
          List.inj_on_of_nodup_map hbatchKeys hother hstored (hkey.trans hsame.key.symm)
        subst hother'
        refine .inr ?_
        rw [← htrip]
        refine covered_of_receipt (hs.hashed other hother) (mem_putRow.mpr (.inl rfl))
          (hof.1.trans hsame.1.symm) ?_ hmem
        exact hof.entry.trans hsame.2.1.symm
      · exact .inl (mem_captured.mpr
          (.inr (.inl ⟨other, mem_removeKey.mpr ⟨hother, hkey⟩, htrip, hmem⟩)))
    · exact .inl (mem_captured.mpr (.inr (.inr hdead)))

theorem kept_of_view (hview : ∀ tripId, s'.view tripId = s.view tripId) :
    ∀ tripId, ∀ ping ∈ (s.view tripId).captured, Kept sha256 s' tripId ping := by
  intro tripId ping hping
  exact .inl (by rw [hview]; exact hping)

theorem dropBatch_advances (hs : QueueInv sha256 numbering s) (key : String) (status : Option Nat)
    (code : Option String) (now : Int) : Advances sha256 numbering s (dropBatch key status code now s) := by
  have hview := dropBatch_view hs.keys key status code now
  have htrips : ∀ trip, TripInv sha256 numbering trip ((dropBatch key status code now s).view trip) := by
    intro trip
    rw [hview]
    exact hs.trips trip
  cases hfound : s.batches.find? (·.key = key) with
  | none =>
      have hstay : dropBatch key status code now s = s := by
        unfold dropBatch
        rw [hfound]
      rw [hstay]
      exact .refl hs
  | some batch =>
      have hdropped : ∃ letter : DeadLetter, letter.toQueuedBatch = batch
          ∧ dropBatch key status code now s = { s with
            deadLetters := putRow (·.key) letter s.deadLetters
            batches := removeKey (·.key) key s.batches } := by
        unfold dropBatch
        rw [hfound]
        exact ⟨_, rfl, rfl⟩
      rcases hdropped with ⟨letter, rfl, hdropped⟩
      rcases mem_of_lookup hfound with ⟨hbatch, rfl⟩
      refine ⟨⟨?_, ?_, ?_, ?_, htrips⟩, ?_, kept_of_view hview⟩
      · rw [hdropped]
        exact hs.keys.drop hbatch
      · rw [hdropped]
        exact fun other hother => hs.hashed other (mem_removeKey.mp hother).1
      · rw [hdropped]
        intro dead hdead
        rcases mem_putRow.mp hdead with rfl | ⟨hdead, _⟩
        · exact hs.hashed dead.toQueuedBatch hbatch
        · exact hs.deadHashed dead hdead
      · rw [hdropped]
        exact hs.settled
      · rw [hdropped]
        exact fun _ h => h

theorem recordAttempt_advances (hs : QueueInv sha256 numbering s) {source : QueuedBatch}
    (hsource : source ∈ s.batches) : Advances sha256 numbering s (recordAttempt source s) := by
  have hview := recordAttempt_view hs.keys hsource
  refine ⟨⟨?_, ?_, hs.deadHashed, hs.settled, ?_⟩, fun _ h => h, kept_of_view hview⟩
  · -- the batch that is put back has the keys it had
    have hold : ∀ batch ∈ (recordAttempt source s).batches, ∃ old ∈ s.batches,
        old.key = batch.key := by
      intro batch hbatch
      rcases mem_putRow.mp hbatch with rfl | ⟨hbatch, _⟩
      · exact ⟨source, hsource, rfl⟩
      · exact ⟨batch, hbatch, rfl⟩
    refine ⟨nodup_putRow hs.keys.batches, hs.keys.deadLetters, hs.keys.receipts, ?_, ?_⟩
    · intro batch hbatch dead hdead heq
      rcases hold batch hbatch with ⟨old, hmem, hkey⟩
      exact hs.keys.batchDead old hmem dead hdead (hkey.trans heq)
    · intro batch hbatch receipt hreceipt heq
      rcases hold batch hbatch with ⟨old, hmem, hkey⟩
      exact hs.keys.batchReceipt old hmem receipt hreceipt (hkey.trans heq)
  · intro other hother
    rcases mem_putRow.mp hother with rfl | ⟨hother, _⟩
    · exact hs.hashed source hsource
    · exact hs.hashed other hother
  · intro trip
    rw [hview]
    exact hs.trips trip

theorem reopenEnd_advances (hs : QueueInv sha256 numbering s) : Advances sha256 numbering s (reopenEnd tripId s) := by
  have hmoves : Moves sha256 numbering tripId s (reopenEnd tripId s) := reopenEnd_moves
  unfold reopenEnd at hmoves ⊢
  split_ifs at hmoves ⊢
  · exact .refl hs
  · refine putMeta_advances hs ?_
    have hrow : ({ s.metaOrDefault tripId with endManifest := none } : TripMeta).tripId = tripId :=
      metaOrDefault_tripId
    rw [hrow]
    exact hmoves

/-- Forgetting a trip touches the records of that trip only. -/
theorem forgetTrip_inv (hs : QueueInv sha256 numbering s) : QueueInv sha256 numbering (forgetTrip tripId s) where
  keys := {
    batches := hs.keys.batches.sublist (List.filter_sublist.map _)
    deadLetters := hs.keys.deadLetters.sublist (List.filter_sublist.map _)
    receipts := hs.keys.receipts.sublist (List.filter_sublist.map _)
    batchDead := fun batch hbatch dead hdead =>
      hs.keys.batchDead batch (List.mem_of_mem_filter hbatch) dead (List.mem_of_mem_filter hdead)
    batchReceipt := fun batch hbatch receipt hreceipt =>
      hs.keys.batchReceipt batch (List.mem_of_mem_filter hbatch) receipt
        (List.mem_of_mem_filter hreceipt) }
  hashed := fun batch hbatch => hs.hashed batch (List.mem_of_mem_filter hbatch)
  deadHashed := fun dead hdead => hs.deadHashed dead (List.mem_of_mem_filter hdead)
  settled := fun receipt hreceipt => hs.settled receipt (List.mem_of_mem_filter hreceipt)
  trips := forgetTrip_moves.trips hs.trips

theorem forgetTrip_kept {other : String} (hother : other ≠ tripId)
    (h : Kept sha256 s other ping) : Kept sha256 (forgetTrip tripId s) other ping := by
  rcases h with hheld | ⟨receipt, hreceipt, htrip, hrest⟩
  · have hmoves : Moves sha256 distinctNumbers tripId s (forgetTrip tripId s) := forgetTrip_moves
    refine .inl ?_
    rw [hmoves.2 other hother]
    exact hheld
  · exact .inr ⟨receipt, List.mem_filter.mpr ⟨hreceipt, by simp [htrip, hother]⟩, htrip, hrest⟩

theorem queueInv_empty : QueueInv sha256 numbering {} where
  keys := ⟨.nil, .nil, .nil, by simp, by simp⟩
  hashed := by simp
  deadHashed := by simp
  settled := by simp
  trips := tripInv_default

end

end Device
end Mobility
