import Mobility.Device.View

/-!
# Steps — the operations of the queue as moves

One lemma for each operation: the view of its trip makes a move, and the views of the other
trips stay.  Attempts and dead letters change no view at all.
-/

namespace Mobility
namespace Device

open Lib
open Wire (EvidenceManifest EvidenceManifestEntry buildEvidenceManifest orderedEntries)

/-- The trip makes a move, the other trips keep what they hold. -/
def Moves (sha256 : Wire.Bytes → String) (numbering : Numbering) (tripId : String) (s s' : Store) :
    Prop :=
  TripMove sha256 numbering tripId (s.view tripId) (s'.view tripId)
    ∧ ∀ other, other ≠ tripId → s'.view other = s.view other

/-- The keys under which evidence is stored. -/
def evidenceKeys (s : Store) : List String :=
  s.batches.map (·.key) ++ s.deadLetters.map (·.key) ++ s.receipts.map (·.idempotencyKey)

/-- One record per key, and no key of a batch anywhere else.  A dead letter may have the key
of a receipt: the server stored the batch, and refused it when it was sent again. -/
structure KeysApart (s : Store) : Prop where
  batches : (s.batches.map (·.key)).Nodup
  deadLetters : (s.deadLetters.map (·.key)).Nodup
  receipts : (s.receipts.map (·.idempotencyKey)).Nodup
  batchDead : ∀ batch ∈ s.batches, ∀ dead ∈ s.deadLetters, batch.key ≠ dead.key
  batchReceipt : ∀ batch ∈ s.batches, ∀ receipt ∈ s.receipts, batch.key ≠ receipt.idempotencyKey

/-- What is known of all records: keys that tell them apart, hashes of the batches' own
pings, receipts that count their samples, and the invariant of every trip. -/
structure QueueInv (sha256 : Wire.Bytes → String) (numbering : Numbering) (s : Store) : Prop where
  keys : KeysApart s
  hashed : ∀ batch ∈ s.batches, batchPayloadHash sha256 batch.pings = .ok batch.payloadHash
  deadHashed : ∀ dead ∈ s.deadLetters, batchPayloadHash sha256 dead.pings = .ok dead.payloadHash
  settled : ∀ receipt ∈ s.receipts,
    receipt.acceptedCount + receipt.rejectedCount = receipt.submittedCount
  trips : ∀ tripId, TripInv sha256 numbering tripId (s.view tripId)

section

variable {sha256 : Wire.Bytes → String} {numbering : Numbering} {s s' : Store}
  {tripId other : String}

theorem Moves.trips (hs : ∀ tripId, TripInv sha256 numbering tripId (s.view tripId))
    (h : Moves sha256 numbering tripId s s') (other : String) : TripInv sha256 numbering other (s'.view other) := by
  by_cases hsame : other = tripId
  · subst hsame
    exact h.1.inv (hs other)
  · rw [h.2 other hsame]
    exact hs other

/-! ## Records of the store -/

@[simp]
theorem metaOrDefault_putMeta {row : TripMeta} :
    (s.putMeta row).metaOrDefault tripId
      = if row.tripId = tripId then row else s.metaOrDefault tripId := by
  unfold Store.metaOrDefault Store.putMeta
  rw [lookup_putRow]
  split_ifs <;> rfl

theorem metaOrDefault_tripId : (s.metaOrDefault tripId).tripId = tripId := by
  unfold Store.metaOrDefault
  cases hfound : s.metas.find? (·.tripId = tripId) with
  | none => rfl
  | some found => simpa using List.find?_some hfound

theorem gather_singleton {α β : Type} (p : α → Bool) (f : α → β) (rows : List α) :
    gather p (fun row => ({f row} : Multiset β)) rows = ↑((rows.filter p).map f) := by
  induction rows with
  | nil => rfl
  | cons row rows ih =>
      rw [gather_cons, ih]
      cases hrow : p row with
      | false => simp [hrow]
      | true => simp [hrow]

theorem pendingOf_eq : s.pendingOf tripId = ↑(s.pendingPings tripId) := by
  unfold Store.pendingOf Store.pendingPings
  rw [gather_singleton, Multiset.coe_eq_coe]
  exact (List.perm_insertionSort _ _).symm

theorem card_pendingOf : (s.pendingOf tripId).card = s.pendingCount tripId := by
  unfold Store.pendingOf Store.pendingCount
  rw [gather_singleton, Multiset.coe_card, List.length_map]

/-! ## Views -/

theorem view_eq {tripMeta : TripMeta} {pending batched : Multiset QueuedPing}
    {entries : Multiset EvidenceManifestEntry} (hmeta : s.metaOrDefault tripId = tripMeta)
    (hpending : s.pendingOf tripId = pending) (hbatched : s.batchedOf tripId = batched)
    (hentries : s.entriesOf tripId = entries) :
    s.view tripId
      = { tripMeta := tripMeta, pending := pending, batched := batched, entries := entries } := by
  rw [Store.view, hmeta, hpending, hbatched, hentries]

theorem view_putMeta {row : TripMeta} (hrow : row.tripId = tripId) :
    (s.putMeta row).view tripId = { s.view tripId with tripMeta := row } :=
  view_eq (by rw [metaOrDefault_putMeta, if_pos hrow]) rfl rfl rfl

theorem view_putMeta_other {row : TripMeta} (hrow : row.tripId ≠ tripId) :
    (s.putMeta row).view tripId = s.view tripId :=
  view_eq (by rw [metaOrDefault_putMeta, if_neg hrow]) rfl rfl rfl

/-! ## Capture -/

theorem addPing_moves {fix : Fix} (hs : TripInv sha256 numbering tripId (s.view tripId))
    (h : addPing tripId fix s = .ok s') : Moves sha256 numbering tripId s s' := by
  simp only [addPing, bind_eq_ok, require_eq_ok, pure_eq_ok] at h
  rcases h with ⟨_, hopen, rfl⟩
  have hfresh : ∀ record ∈ s.pending,
      (record.tripId, record.ping.sequenceNumber)
        ≠ (tripId, (s.metaOrDefault tripId).nextSeq) := by
    intro record hrecord heq
    rcases Prod.mk.inj heq with ⟨htrip, hnumber⟩
    -- a waiting ping of the trip has a smaller number
    have hwaits : record.ping ∈ (s.view tripId).captured := by
      refine Multiset.mem_add.mpr (.inl ?_)
      have hmem : record.ping ∈ s.pendingOf tripId := by
        unfold Store.pendingOf
        rw [gather_singleton, Multiset.mem_coe]
        exact List.mem_map.mpr ⟨record, List.mem_filter.mpr ⟨hrecord, by simp [htrip]⟩, rfl⟩
      exact hmem
    exact absurd (hs.below record.ping hwaits) (by rw [hnumber]; exact Nat.lt_irrefl _)
  have hadded : ∀ trip, gather (·.tripId = trip) (fun record : PendingRecord => {record.ping})
      (putRow (fun record : PendingRecord => (record.tripId, record.ping.sequenceNumber))
        { tripId := tripId, ping := queuedPing s tripId fix } s.pending)
      = s.pendingOf trip + if tripId = trip then {queuedPing s tripId fix} else 0 := by
    intro trip
    rw [gather_putRow hfresh]
    simp [Store.pendingOf]
  constructor
  · have hview : { s with
        pending := putRow (fun record : PendingRecord =>
            (record.tripId, record.ping.sequenceNumber))
          { tripId := tripId, ping := queuedPing s tripId fix } s.pending }.view tripId
        = { s.view tripId with pending := queuedPing s tripId fix ::ₘ s.pendingOf tripId } := by
      refine view_eq rfl ?_ rfl rfl
      rw [Store.pendingOf, hadded, if_pos rfl, add_comm, Multiset.singleton_add]
    rw [view_putMeta (by exact metaOrDefault_tripId), hview]
    exact .capture (s.view tripId) (queuedPing s tripId fix) (Option.isNone_iff_eq_none.mp hopen) rfl
  · intro other hother
    rw [view_putMeta_other (by rw [metaOrDefault_tripId]; exact hother.symm)]
    refine view_eq rfl ?_ rfl rfl
    rw [Store.pendingOf, hadded, if_neg hother.symm, add_zero]

/-! ## Batches -/

/-- Taking the first rows out by their numbers leaves the others. -/
theorem filter_take {α : Type} {number : α → Nat} {rows : List α} (h : (rows.map number).Nodup)
    (count : Nat) : rows.filter (number · ∉ (rows.take count).map number) = rows.drop count := by
  have hsplit : (rows.take count).map number ++ (rows.drop count).map number = rows.map number := by
    rw [← List.map_append, List.take_append_drop]
  rcases List.nodup_append.mp (hsplit ▸ h) with ⟨_, _, hapart⟩
  calc
    rows.filter (number · ∉ (rows.take count).map number)
      = (rows.take count ++ rows.drop count).filter (number · ∉ (rows.take count).map number) := by
        rw [List.take_append_drop]
    _ = [] ++ rows.drop count := by
        rw [List.filter_append]
        congr 1
        · refine List.filter_eq_nil_iff.mpr ?_
          intro row hrow
          rw [decide_eq_true_eq, not_not]
          exact List.mem_map_of_mem hrow
        · refine List.filter_eq_self.mpr ?_
          intro row hrow
          rw [decide_eq_true_eq]
          exact fun hmem => hapart _ hmem _ (List.mem_map_of_mem hrow) rfl
    _ = rows.drop count := List.nil_append _

/-- The batch that a cut stores. -/
theorem cutBatch_eq {max : Nat} {key : String} {cutAt : Int}
    (h : cutBatch sha256 tripId max key cutAt s = .ok s') :
    ((s.pendingPings tripId).take max = [] ∧ s' = s)
      ∨ ∃ batch : QueuedBatch, batch.key = key ∧ batch.tripId = tripId
        ∧ batch.cutSeq = (s.metaOrDefault tripId).batchesCut
        ∧ batch.pings = (s.pendingPings tripId).take max ∧ batch.pings ≠ []
        ∧ batchPayloadHash sha256 batch.pings = .ok batch.payloadHash
        ∧ s' = { s with
            batches := putRow (·.key) batch s.batches
            pending := s.pending.filter (fun record =>
              ¬ (record.tripId = tripId
                ∧ record.ping.sequenceNumber ∈ batch.pings.map QueuedPing.sequenceNumber)) }.putMeta
          { s.metaOrDefault tripId with
            batchesCut := (s.metaOrDefault tripId).batchesCut + 1 } := by
  dsimp only [cutBatch] at h
  split_ifs at h with hempty
  · exact .inl ⟨hempty, (Except.ok.inj h).symm⟩
  · simp only [bind_eq_ok, pure_eq_ok] at h
    rcases h with ⟨payloadHash, hhash, rfl⟩
    exact .inr ⟨{
      key := key
      tripId := tripId
      cutSeq := (s.metaOrDefault tripId).batchesCut
      cutAt := cutAt
      payloadHash := payloadHash
      pings := (s.pendingPings tripId).take max }, rfl, rfl, rfl, rfl, hempty, hhash, rfl⟩

theorem pendingPings_distinct (hs : TripInv sha256 numbering tripId (s.view tripId)) :
    ((s.pendingPings tripId).map QueuedPing.sequenceNumber).Nodup := by
  have hle : s.pendingOf tripId ≤ (s.view tripId).captured := Multiset.le_add_right _ _
  have hdistinct := Multiset.nodup_of_le (Multiset.map_le_map hle) hs.distinct
  rw [pendingOf_eq, Multiset.map_coe, Multiset.coe_nodup] at hdistinct
  exact hdistinct

/-- The pings of a batch leave the pending list of their trip, and of no other. -/
theorem pending_cut (hs : TripInv sha256 numbering tripId (s.view tripId)) (max : Nat) (trip : String) :
    gather (·.tripId = trip) (fun record : PendingRecord => {record.ping})
      (s.pending.filter (fun record => ¬ (record.tripId = tripId ∧ record.ping.sequenceNumber
        ∈ ((s.pendingPings tripId).take max).map QueuedPing.sequenceNumber)))
      = if trip = tripId then ↑((s.pendingPings tripId).drop max) else s.pendingOf trip := by
  rw [gather_filter]
  split_ifs with hsame
  · subst hsame
    rw [gather_singleton, ← filter_take (pendingPings_distinct hs) max, Multiset.coe_eq_coe]
    have hperm := (List.perm_insertionSort
      (fun a b : QueuedPing => a.sequenceNumber ≤ b.sequenceNumber)
      ((s.pending.filter (·.tripId = trip)).map (·.ping))).filter
        (·.sequenceNumber ∉ ((s.pendingPings trip).take max).map QueuedPing.sequenceNumber)
    refine List.Perm.trans (List.Perm.of_eq ?_) hperm.symm
    rw [List.filter_map, List.filter_filter]
    refine congrArg (List.map _) (List.filter_congr ?_)
    intro record _
    by_cases htripId : record.tripId = trip
    · simp [htripId]
    · simp [htripId]
  · refine gather_congr ?_
    intro record _
    by_cases hrecord : record.tripId = trip
    · simp [hrecord, hsame]
    · simp [hrecord]

/-- Declared evidence has the key of a record. -/
theorem mem_evidenceKeys_of_entry {entry : EvidenceManifestEntry}
    (h : entry ∈ s.entriesOf tripId) : entry.idempotencyKey ∈ evidenceKeys s := by
  simp only [Store.entriesOf, gather_singleton, Multiset.mem_add, Multiset.mem_coe] at h
  unfold evidenceKeys
  rcases h with (hreceipt | hbatch) | hdead
  · rcases List.mem_map.mp hreceipt with ⟨receipt, hmem, rfl⟩
    exact List.mem_append_right _ (List.mem_map_of_mem (List.mem_of_mem_filter hmem))
  · rcases List.mem_map.mp hbatch with ⟨batch, hmem, rfl⟩
    exact List.mem_append_left _ (List.mem_append_left _
      (List.mem_map_of_mem (List.mem_of_mem_filter hmem)))
  · rcases List.mem_map.mp hdead with ⟨dead, hmem, rfl⟩
    exact List.mem_append_left _ (List.mem_append_right _
      (List.mem_map_of_mem (List.mem_of_mem_filter hmem)))

theorem batch_fresh {batch : QueuedBatch} (hkey : batch.key ∉ evidenceKeys s) :
    ∀ other ∈ s.batches, other.key ≠ batch.key := by
  intro other hother heq
  exact hkey (List.mem_append_left _ (List.mem_append_left _
    (List.mem_map.mpr ⟨other, hother, heq⟩)))

theorem cutBatch_moves {max : Nat} {key : String} {cutAt : Int}
    (hs : TripInv sha256 numbering tripId (s.view tripId)) (hkey : key ∉ evidenceKeys s)
    (h : cutBatch sha256 tripId max key cutAt s = .ok s') : Moves sha256 numbering tripId s s' := by
  rcases cutBatch_eq h with ⟨_, rfl⟩ | ⟨batch, rfl, htrip, hcutSeq, hpings, hnonempty, _, rfl⟩
  · exact ⟨.stay _, fun _ _ => rfl⟩
  have hfresh := batch_fresh hkey
  have hsplit : s.pendingOf tripId
      = ↑batch.pings + ↑((s.pendingPings tripId).drop max) := by
    rw [pendingOf_eq, hpings, Multiset.coe_add, List.take_append_drop]
  have hpending := pending_cut hs max
  rw [← hpings] at hpending
  have hbatched : ∀ trip, gather (·.tripId = trip)
      (fun batch : QueuedBatch => (↑batch.pings : Multiset QueuedPing))
      (putRow (·.key) batch s.batches)
      = gather (·.tripId = trip) (fun batch => ↑batch.pings) s.batches
        + if tripId = trip then ↑batch.pings else 0 := by
    intro trip
    rw [gather_putRow hfresh]
    simp [htrip]
  have hentries : ∀ trip, gather (·.tripId = trip)
      (fun batch : QueuedBatch => ({batch.entry} : Multiset EvidenceManifestEntry))
      (putRow (·.key) batch s.batches)
      = gather (·.tripId = trip) (fun batch => {batch.entry}) s.batches
        + if tripId = trip then {batch.entry} else 0 := by
    intro trip
    rw [gather_putRow hfresh]
    simp [htrip]
  constructor
  · have hview : { s with
        batches := putRow (·.key) batch s.batches
        pending := s.pending.filter (fun record => ¬ (record.tripId = tripId
          ∧ record.ping.sequenceNumber ∈ batch.pings.map QueuedPing.sequenceNumber)) }.view tripId
        = { tripMeta := s.metaOrDefault tripId
            pending := ↑((s.pendingPings tripId).drop max)
            batched := ↑batch.pings + s.batchedOf tripId
            entries := batch.entry ::ₘ s.entriesOf tripId } := by
      refine view_eq rfl ?_ ?_ ?_
      · rw [Store.pendingOf, hpending, if_pos rfl]
      · rw [Store.batchedOf, hbatched, if_pos rfl, Store.batchedOf]
        abel
      · rw [Store.entriesOf, hentries, if_pos rfl, Store.entriesOf, ← Multiset.singleton_add]
        abel
    rw [view_putMeta (by exact metaOrDefault_tripId), hview]
    refine .cut (s.view tripId) batch.pings _ batch.entry hsplit hnonempty
      (congrArg Nat.cast hcutSeq) ?_ rfl
    intro hmem
    rcases Multiset.mem_map.mp hmem with ⟨entry, hentry, heq⟩
    have hsame : entry.idempotencyKey = batch.key := heq
    exact hkey (hsame ▸ mem_evidenceKeys_of_entry hentry)
  · intro other hother
    rw [view_putMeta_other (by rw [metaOrDefault_tripId]; exact hother.symm)]
    refine view_eq rfl ?_ ?_ ?_
    · rw [Store.pendingOf, hpending, if_neg hother]
    · rw [Store.batchedOf, hbatched, if_neg hother.symm, add_zero]
      rfl
    · rw [Store.entriesOf, hentries, if_neg hother.symm, add_zero]
      rfl

/-! ## Receipts -/

/-- The batch that was handed in, as it is stored: only its attempts may differ. -/
def SameBatch (stored batch : QueuedBatch) : Prop :=
  stored.tripId = batch.tripId ∧ stored.entry = batch.entry ∧ stored.pings = batch.pings

theorem SameBatch.key {stored batch : QueuedBatch} (h : SameBatch stored batch) :
    stored.key = batch.key :=
  congrArg EvidenceManifestEntry.idempotencyKey h.2.1

theorem acknowledgeBatch_eq {batch : QueuedBatch} {receipt : EvidenceReceipt}
    (h : acknowledgeBatch batch receipt s = .ok s') :
    ReceiptOf batch receipt ∧ s' = { s with
      receipts := putRow (·.idempotencyKey) receipt s.receipts
      batches := removeKey (·.key) batch.key s.batches } := by
  unfold acknowledgeBatch at h
  rcases bind_eq_ok.mp h with ⟨_, hof, h⟩
  refine ⟨require_eq_ok.mp hof, ?_⟩
  split_ifs at h
  · rcases bind_eq_ok.mp h with ⟨_, _, h⟩
    exact (pure_eq_ok.mp h).symm
  · rcases bind_eq_ok.mp h with ⟨_, _, h⟩
    exact (pure_eq_ok.mp h).symm

/-- The receipt declares what the batch declared. -/
theorem ReceiptOf.entry {batch : QueuedBatch} {receipt : EvidenceReceipt}
    (h : ReceiptOf batch receipt) : receipt.entry = batch.entry := by
  rcases h with ⟨_, hkey, hsequence, hhash, hcount, _⟩
  simp [EvidenceReceipt.entry, QueuedBatch.entry, hkey, hsequence, hhash, hcount]

theorem acknowledgeBatch_moves {batch stored : QueuedBatch} {receipt : EvidenceReceipt}
    (hkeys : KeysApart s) (hstored : stored ∈ s.batches) (hsame : SameBatch stored batch)
    (h : acknowledgeBatch batch receipt s = .ok s') : Moves sha256 numbering batch.tripId s s' := by
  rcases acknowledgeBatch_eq h with ⟨hof, rfl⟩
  have hbatchKeys := hkeys.batches
  have hfresh : ∀ other ∈ s.receipts, other.idempotencyKey ≠ receipt.idempotencyKey := by
    intro other hother heq
    exact hkeys.batchReceipt stored hstored other hother
      (hsame.key.trans (hof.2.1.symm.trans heq.symm))
  have hpings : ∀ trip, gather (·.tripId = trip)
      (fun batch : QueuedBatch => (↑batch.pings : Multiset QueuedPing)) s.batches
      = (if batch.tripId = trip then ↑batch.pings else 0)
        + gather (·.tripId = trip) (fun batch => ↑batch.pings)
          (removeKey (·.key) batch.key s.batches) := by
    intro trip
    rw [gather_removeKey hbatchKeys hstored, hsame.1, hsame.2.2, hsame.key]
    simp
  have hbatchEntries : ∀ trip, gather (·.tripId = trip)
      (fun batch : QueuedBatch => ({batch.entry} : Multiset EvidenceManifestEntry)) s.batches
      = (if batch.tripId = trip then {batch.entry} else 0)
        + gather (·.tripId = trip) (fun batch => {batch.entry})
          (removeKey (·.key) batch.key s.batches) := by
    intro trip
    rw [gather_removeKey hbatchKeys hstored, hsame.1, hsame.2.1, hsame.key]
    simp
  have hreceipts : ∀ trip, gather (·.tripId = trip)
      (fun receipt : EvidenceReceipt => ({receipt.entry} : Multiset EvidenceManifestEntry))
      (putRow (·.idempotencyKey) receipt s.receipts)
      = gather (·.tripId = trip) (fun receipt => {receipt.entry}) s.receipts
        + if batch.tripId = trip then {batch.entry} else 0 := by
    intro trip
    rw [gather_putRow hfresh, hof.1, hof.entry]
    simp
  -- the declared evidence of every trip stays as it was
  have hentries : ∀ trip, ({ s with
      receipts := putRow (·.idempotencyKey) receipt s.receipts
      batches := removeKey (·.key) batch.key s.batches } : Store).entriesOf trip
      = s.entriesOf trip := by
    intro trip
    rw [Store.entriesOf, hreceipts, Store.entriesOf, hbatchEntries]
    abel
  constructor
  · have hbatched : s.batchedOf batch.tripId = ↑batch.pings
        + ({ s with
            receipts := putRow (·.idempotencyKey) receipt s.receipts
            batches := removeKey (·.key) batch.key s.batches } : Store).batchedOf batch.tripId := by
      rw [Store.batchedOf, hpings, if_pos rfl, Store.batchedOf]
      abel
    rw [view_eq (s := { s with
      receipts := putRow (·.idempotencyKey) receipt s.receipts
      batches := removeKey (·.key) batch.key s.batches }) rfl rfl rfl (hentries batch.tripId)]
    exact .settle (s.view batch.tripId) _ _ hbatched
  · intro other hother
    refine view_eq rfl rfl ?_ (hentries other)
    have hnone := hpings other
    rw [if_neg hother.symm, zero_add] at hnone
    rw [Store.batchedOf, ← hnone]
    rfl

/-! ## Dead letters and attempts -/

/-- A batch becomes a dead letter: the phone holds and declares the same. -/
theorem dropBatch_view (hkeys : KeysApart s) (key : String) (status : Option Nat)
    (code : Option String) (now : Int) (tripId : String) :
    (dropBatch key status code now s).view tripId = s.view tripId := by
  unfold dropBatch
  cases hfound : s.batches.find? (·.key = key) with
  | none => rfl
  | some batch =>
      rcases mem_of_lookup hfound with ⟨hbatch, rfl⟩
      have hbatchKeys := hkeys.batches
      have hfresh : ∀ dead ∈ s.deadLetters, dead.key ≠ batch.key :=
        fun dead hdead heq => hkeys.batchDead batch hbatch dead hdead heq.symm
      refine view_eq rfl rfl ?_ ?_
      · rw [Store.batchedOf, gather_putRow hfresh, Store.batchedOf,
          gather_removeKey hbatchKeys hbatch]
        abel
      · rw [Store.entriesOf, gather_putRow hfresh, Store.entriesOf,
          gather_removeKey hbatchKeys hbatch]
        abel

/-- An attempt is counted on the batch that was read. -/
theorem recordAttempt_view (hkeys : KeysApart s) {source : QueuedBatch}
    (hsource : source ∈ s.batches) (tripId : String) :
    (recordAttempt source s).view tripId = s.view tripId := by
  have hbatchKeys := hkeys.batches
  have hpings : gather (·.tripId = tripId)
      (fun batch : QueuedBatch => (↑batch.pings : Multiset QueuedPing))
      (recordAttempt source s).batches
      = gather (·.tripId = tripId) (fun batch => ↑batch.pings) s.batches :=
    gather_putRow_over hbatchKeys hsource rfl rfl rfl
  have hentries : gather (·.tripId = tripId)
      (fun batch : QueuedBatch => ({batch.entry} : Multiset EvidenceManifestEntry))
      (recordAttempt source s).batches
      = gather (·.tripId = tripId) (fun batch => {batch.entry}) s.batches :=
    gather_putRow_over hbatchKeys hsource rfl rfl rfl
  refine view_eq rfl rfl ?_ ?_
  · rw [Store.batchedOf, hpings]
    rfl
  · rw [Store.entriesOf, hentries]
    rfl

/-! ## The End boundary -/

theorem reopenEnd_moves : Moves sha256 numbering tripId s (reopenEnd tripId s) := by
  unfold reopenEnd
  split_ifs
  · exact ⟨.stay _, fun _ _ => rfl⟩
  · constructor
    · rw [view_putMeta (by exact metaOrDefault_tripId)]
      exact .reopen (s.view tripId)
    · intro other hother
      exact view_putMeta_other (by rw [metaOrDefault_tripId]; exact hother.symm)

theorem gather_forget {α M : Type} [AddCommMonoid M] {tripOf : α → String} {content : α → M}
    {rows : List α} :
    gather (tripOf · = other) content (rows.filter (tripOf · ≠ tripId))
      = if other = tripId then 0 else gather (tripOf · = other) content rows := by
  rw [gather_filter]
  split_ifs with hsame
  · refine gather_eq_zero ?_
    intro row _
    simp [hsame]
  · refine gather_congr ?_
    intro row _
    by_cases hrow : tripOf row = other
    · simp [hrow, hsame]
    · simp [hrow]

theorem forgetTrip_moves : Moves sha256 numbering tripId s (forgetTrip tripId s) := by
  have hmeta : ∀ trip, (forgetTrip tripId s).metaOrDefault trip
      = if trip = tripId then { tripId := tripId } else s.metaOrDefault trip := by
    intro trip
    unfold Store.metaOrDefault forgetTrip
    split_ifs with hsame
    · subst hsame
      have hnone : (s.metas.filter (·.tripId ≠ trip)).find? (·.tripId = trip) = none := by
        refine List.find?_eq_none.mpr ?_
        intro row hrow
        simpa using List.of_mem_filter hrow
      rw [hnone]
      rfl
    · refine congrArg (fun found => Option.getD found _) ?_
      rw [List.find?_filter]
      refine congrArg (fun p => List.find? p s.metas) ?_
      funext row
      by_cases hrow : row.tripId = trip
      · simp [hrow, hsame]
      · simp [hrow]
  constructor
  · have hview : (forgetTrip tripId s).view tripId
        = { tripMeta := { tripId := tripId }, pending := 0, batched := 0, entries := 0 } := by
      refine view_eq (by rw [hmeta, if_pos rfl]) ?_ ?_ ?_
      · rw [Store.pendingOf, forgetTrip, gather_forget, if_pos rfl]
      · rw [Store.batchedOf, forgetTrip, gather_forget, gather_forget, if_pos rfl, if_pos rfl,
          add_zero]
      · rw [Store.entriesOf, forgetTrip, gather_forget, gather_forget, gather_forget, if_pos rfl,
          if_pos rfl, if_pos rfl, add_zero, add_zero]
    rw [hview]
    exact .forget (s.view tripId)
  · intro other hother
    refine view_eq (by rw [hmeta, if_neg hother]) ?_ ?_ ?_
    · rw [Store.pendingOf, forgetTrip, gather_forget, if_neg hother]
      rfl
    · rw [Store.batchedOf, forgetTrip, gather_forget, gather_forget, if_neg hother, if_neg hother]
      rfl
    · rw [Store.entriesOf, forgetTrip, gather_forget, gather_forget, gather_forget, if_neg hother,
        if_neg hother, if_neg hother]
      rfl

end

end Device
end Mobility
