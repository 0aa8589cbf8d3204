import Mobility.Device.SeenEvidence

/-!
# Adoption — the server's evidence enters the phone's numbering

Adopted receipts keep the server's numbers.  Local batches and dead letters give way to
them and move past every number in use, so all numbers stay apart.  They leave no gap as
long as the server's own receipts leave none beyond the phone's.
-/

namespace Mobility
namespace Device

open Lib
open Wire (EvidenceManifest EvidenceManifestEntry)

/-- What the server's receipts of a trip are, beside what this phone stored.

* settled: every sample was accepted or rejected;
* numbered: one number for one key;
* answers: the server stored a local batch as it was sent;
* own: no receipt of another trip has the key. -/
structure ServerEvidence (s : Store) (tripId : String) (receipts : List EvidenceReceipt) : Prop where
  settled : ∀ receipt ∈ receipts,
    receipt.acceptedCount + receipt.rejectedCount = receipt.submittedCount
  numbered : ∀ receipt ∈ receipts, Adoptable tripId receipt → ∀ other,
    (other ∈ receipts ∧ Adoptable tripId other) ∨ other ∈ s.listReceipts tripId →
    (receipt.idempotencyKey = other.idempotencyKey ↔ receipt.batchSequence = other.batchSequence)
  answers : ∀ receipt ∈ receipts, Adoptable tripId receipt → ∀ batch ∈ s.batches,
    batch.key = receipt.idempotencyKey → batch.tripId = tripId ∧ Acknowledges receipt batch
  own : ∀ receipt ∈ receipts, Adoptable tripId receipt → ∀ other ∈ s.receipts,
    other.idempotencyKey = receipt.idempotencyKey → other.tripId = tripId

/-- The server holds all that was ever numbered, and nothing that was given up.  It does not
see to this itself: a batch may be refused for good while a later one is stored, and a stored
one may be refused when it is sent again.

* undelivered: a dead letter was never stored;
* gapless: below a server's number every number is the phone's or the server's. -/
structure UnbrokenEvidence (s : Store) (tripId : String) (receipts : List EvidenceReceipt) :
    Prop where
  undelivered : ∀ receipt ∈ receipts, Adoptable tripId receipt → ∀ dead ∈ s.deadLetters,
    dead.key ≠ receipt.idempotencyKey
  gapless : ∀ receipt ∈ receipts, Adoptable tripId receipt → ∀ n < receipt.batchSequence,
    n < (s.metaOrDefault tripId).batchesCut
      ∨ ∃ other ∈ receipts, Adoptable tripId other ∧ other.batchSequence = n

theorem lt_pastAll {least n : Nat} {sequences : List Nat} :
    n < pastAll least sequences ↔ n < least ∨ ∃ sequence ∈ sequences, n ≤ sequence := by
  unfold pastAll
  induction sequences generalizing least with
  | nil => simp
  | cons sequence sequences ih =>
      rw [List.map_cons, List.foldl_cons, ih]
      simp only [lt_max_iff, Nat.lt_succ_iff, List.mem_cons, exists_eq_or_imp]
      tauto

section

variable {sha256 : Wire.Bytes → String} {numbering : Numbering} {s s' : Store} {tripId : String}
  {receipts : List EvidenceReceipt} {uuid : Nat → String}

/-! ## Views by lists of records -/

theorem listReceipts_perm : (s.listReceipts tripId).Perm (s.receipts.filter (·.tripId = tripId)) :=
  List.perm_insertionSort _ _

theorem listBatches_perm : (s.listBatches tripId).Perm (s.batches.filter (·.tripId = tripId)) :=
  List.perm_insertionSort _ _

theorem listDeadLetters_perm :
    (s.listDeadLetters tripId).Perm (s.deadLetters.filter (·.tripId = tripId)) :=
  List.perm_insertionSort _ _

/-- The entries and the batched pings of a trip, from its records in any order. -/
theorem entriesOf_eq {stored : List EvidenceReceipt} {batches : List QueuedBatch}
    {dead : List DeadLetter} (hstored : (s.receipts.filter (·.tripId = tripId)).Perm stored)
    (hbatches : (s.batches.filter (·.tripId = tripId)).Perm batches)
    (hdead : (s.deadLetters.filter (·.tripId = tripId)).Perm dead) :
    s.entriesOf tripId = ↑(stored.map (·.entry) ++ batches.map (·.entry)
      ++ dead.map (·.toQueuedBatch.entry)) := by
  unfold Store.entriesOf
  rw [gather_singleton, gather_singleton, gather_singleton, Multiset.coe_add, Multiset.coe_add,
    Multiset.coe_eq_coe]
  exact ((hstored.map _).append (hbatches.map _)).append (hdead.map _)

theorem batchedOf_eq {batches : List QueuedBatch} {dead : List DeadLetter}
    (hbatches : (s.batches.filter (·.tripId = tripId)).Perm batches)
    (hdead : (s.deadLetters.filter (·.tripId = tripId)).Perm dead) :
    s.batchedOf tripId
      = (batches.map (fun batch => (↑batch.pings : Multiset QueuedPing))).sum
        + (dead.map (fun letter => (↑letter.pings : Multiset QueuedPing))).sum := by
  unfold Store.batchedOf
  rw [gather_of_filter hbatches, gather_of_filter hdead]

/-- The numbers in use on the phone. -/
def Store.numbersInUse (s : Store) (tripId : String) : List Nat :=
  (s.listReceipts tripId).map (·.batchSequence) ++ ((s.listBatches tripId).map (·.cutSeq)
    ++ (s.listDeadLetters tripId).map (·.cutSeq))

theorem map_numbersInUse :
    (↑((s.numbersInUse tripId).map (fun n : Nat => (n : Int))) : Multiset Int)
      = (s.entriesOf tripId).map (·.batchSequence) := by
  rw [entriesOf_eq listReceipts_perm.symm listBatches_perm.symm listDeadLetters_perm.symm,
    Multiset.map_coe]
  simp [Store.numbersInUse, EvidenceReceipt.entry, QueuedBatch.entry, Function.comp_def]

theorem numbersInUse_apart (hs : TripInv sha256 numbering tripId (s.view tripId)) :
    (s.numbersInUse tripId).Nodup
      ∧ ∀ n ∈ s.numbersInUse tripId, n < (s.metaOrDefault tripId).batchesCut := by
  have happart : NumbersApart (s.metaOrDefault tripId).batchesCut (s.entriesOf tripId) :=
    numbering.apart hs.numbers
  constructor
  · have hnodup := happart.distinct
    rw [← map_numbersInUse, Multiset.coe_nodup] at hnodup
    exact hnodup.of_map _
  · intro n hn
    have hmem : (n : Int) ∈ (s.entriesOf tripId).map (·.batchSequence) := by
      rw [← map_numbersInUse, Multiset.mem_coe]
      exact List.mem_map_of_mem hn
    rcases Multiset.mem_map.mp hmem with ⟨entry, hentry, heq⟩
    exact Int.ofNat_lt.mp (heq ▸ happart.below entry hentry)

/-- Without a gap they are those below the next one. -/
theorem numbersInUse_perm
    (h : NumberedBelow (s.metaOrDefault tripId).batchesCut (s.entriesOf tripId)) :
    (s.numbersInUse tripId).Perm (List.range (s.metaOrDefault tripId).batchesCut) := by
  have hcast : ((s.numbersInUse tripId).map (fun n : Nat => (n : Int))).Perm
      ((List.range (s.metaOrDefault tripId).batchesCut).map (fun n : Nat => (n : Int))) := by
    refine Multiset.coe_eq_coe.mp (map_numbersInUse.trans ?_)
    exact h
  exact (List.map_perm_map_iff (fun _ _ h => Int.ofNat_inj.mp h)).mp hcast

/-- The numbers of some records are those of their entries. -/
theorem map_entryNumbers {stored : List EvidenceReceipt} {batches : List QueuedBatch}
    {dead : List DeadLetter} :
    (↑(stored.map (·.entry) ++ batches.map (·.entry) ++ dead.map (·.toQueuedBatch.entry))
        : Multiset EvidenceManifestEntry).map (·.batchSequence)
      = ↑((stored.map (·.batchSequence) ++ batches.map (·.cutSeq)
          ++ dead.map (·.cutSeq)).map (fun n : Nat => (n : Int))) := by
  rw [Multiset.map_coe]
  simp [EvidenceReceipt.entry, QueuedBatch.entry, Function.comp_def]

/-! ## The numbers before the placement -/

theorem seen_numbers {acked : List QueuedBatch} {seen : Seen}
    (hs : TripInv sha256 numbering tripId (s.view tripId)) (hserver : ServerEvidence s tripId receipts)
    (hseen : SeenInv tripId (s.listBatches tripId) (s.listReceipts tripId) receipts acked seen) :
    seen.heldSequences.Nodup := by
  rcases List.nodup_append.mp (numbersInUse_apart hs).1 with ⟨hstored, _, _⟩
  have hkey : ∀ receipt ∈ s.listReceipts tripId ++ seen.adopted,
      ∀ other ∈ s.listReceipts tripId ++ seen.adopted,
      receipt.batchSequence = other.batchSequence → receipt.idempotencyKey = other.idempotencyKey := by
    intro receipt hreceipt other hother heq
    rcases List.mem_append.mp hreceipt with hreceipt | hreceipt
    · rcases List.mem_append.mp hother with hother | hother
      · rw [List.inj_on_of_nodup_map hstored hreceipt hother heq]
      · rcases hseen.adopted other hother with ⟨hlisted, hadoptable⟩
        exact ((hserver.numbered other hlisted hadoptable receipt (.inr hreceipt)).mpr heq.symm).symm
    · rcases hseen.adopted receipt hreceipt with ⟨hlisted, hadoptable⟩
      refine (hserver.numbered receipt hlisted hadoptable other ?_).mpr heq
      rcases List.mem_append.mp hother with hother | hother
      · exact .inr hother
      · exact .inl (hseen.adopted other hother)
  refine hseen.held.nodup_iff.mpr (List.Nodup.map_on ?_ (List.Nodup.of_map _ hseen.apart))
  intro receipt hreceipt other hother heq
  exact List.inj_on_of_nodup_map hseen.apart hreceipt hother (hkey receipt hreceipt other hother heq)

/-- The batches that no adopted receipt acknowledges. -/
theorem unsent_perm {acked : List QueuedBatch} {seen : Seen} (hs : KeysApart s)
    (hseen : SeenInv tripId (s.listBatches tripId) (s.listReceipts tripId) receipts acked seen) :
    (s.listBatches tripId).Perm
      (acked ++ (s.listBatches tripId).filter (·.key ∉ seen.acknowledged)) := by
  have hkeys : ((s.listBatches tripId).map (·.key)).Nodup :=
    (listBatches_perm.map _).nodup_iff.mpr (hs.batches.sublist (List.filter_sublist.map _))
  rw [hseen.acknowledged]
  exact rest_perm hkeys hseen.ackedApart (fun batch hbatch => (hseen.answered batch hbatch).1)

/-- The numbers of the batches and dead letters that are still to be placed. -/
def Store.waitingNumbers (s : Store) (tripId : String) (seen : Seen) : List Nat :=
  ((s.listBatches tripId).filter (·.key ∉ seen.acknowledged)).map (·.cutSeq)
    ++ (s.listDeadLetters tripId).map (·.cutSeq)

theorem waitingNumbers_sublist {seen : Seen} : (s.waitingNumbers tripId seen).Sublist
    ((s.listBatches tripId).map (·.cutSeq) ++ (s.listDeadLetters tripId).map (·.cutSeq)) :=
  List.Sublist.append (List.filter_sublist.map _) (List.Sublist.refl _)

/-- Before anything moves the numbers are apart. -/
theorem seen_apart {acked : List QueuedBatch} {seen : Seen}
    (hs : TripInv sha256 numbering tripId (s.view tripId)) (hserver : ServerEvidence s tripId receipts)
    (hseen : SeenInv tripId (s.listBatches tripId) (s.listReceipts tripId) receipts acked seen) :
    Apart seen.heldSequences (pastAll (s.metaOrDefault tripId).batchesCut seen.heldSequences)
      (s.waitingNumbers tripId seen) := by
  rcases numbersInUse_apart hs with ⟨hnodup, hbelow⟩
  refine ⟨seen_numbers hs hserver hseen, ?_, ?_, ?_⟩
  · exact (List.nodup_append.mp hnodup).2.1.sublist waitingNumbers_sublist
  · exact fun n hn => lt_pastAll.mpr (.inr ⟨n, hn, Nat.le_refl _⟩)
  · intro n hn
    have hinUse := hbelow n (List.mem_append_right _ (waitingNumbers_sublist.subset hn))
    exact lt_pastAll.mpr (.inl hinUse)

/-- A number of the phone is held or waits. -/
theorem seen_covers {acked : List QueuedBatch} {seen : Seen} (hs : KeysApart s)
    (hseen : SeenInv tripId (s.listBatches tripId) (s.listReceipts tripId) receipts acked seen)
    {n : Nat} (hn : n ∈ s.numbersInUse tripId) :
    n ∈ seen.heldSequences ∨ n ∈ s.waitingNumbers tripId seen := by
  have hstored : ∀ receipt ∈ s.listReceipts tripId ++ seen.adopted,
      receipt.batchSequence ∈ seen.heldSequences :=
    fun receipt hreceipt => hseen.held.mem_iff.mpr (List.mem_map_of_mem hreceipt)
  rcases List.mem_append.mp hn with hn | hn
  · rcases List.mem_map.mp hn with ⟨receipt, hreceipt, rfl⟩
    exact .inl (hstored receipt (List.mem_append_left _ hreceipt))
  · rcases List.mem_append.mp hn with hn | hn
    · rcases List.mem_map.mp hn with ⟨batch, hbatch, rfl⟩
      rcases List.mem_append.mp ((unsent_perm hs hseen).mem_iff.mp hbatch) with hacked | hunsent
      · -- the number of an acknowledged batch is that of its receipt
        rcases (hseen.answered batch hacked).2 with ⟨receipt, hreceipt, hentry⟩
        have hsame : (receipt.batchSequence : Int) = batch.cutSeq :=
          congrArg EvidenceManifestEntry.batchSequence hentry
        rw [← Int.ofNat_inj.mp hsame]
        exact .inl (hstored receipt (List.mem_append_right _ hreceipt))
      · exact .inr (List.mem_append_left _ (List.mem_map_of_mem hunsent))
    · exact .inr (List.mem_append_right _ hn)

/-- Nor do they leave a gap when neither the phone's nor the server's do. -/
theorem seen_gapless {acked : List QueuedBatch} {seen : Seen} (hs : KeysApart s)
    (hserver : ServerEvidence s tripId receipts) (hunbroken : UnbrokenEvidence s tripId receipts)
    (hnumbers : NumberedBelow (s.metaOrDefault tripId).batchesCut (s.entriesOf tripId))
    (hseen : SeenInv tripId (s.listBatches tripId) (s.listReceipts tripId) receipts acked seen) :
    Gapless seen.heldSequences (pastAll (s.metaOrDefault tripId).batchesCut seen.heldSequences)
      (s.waitingNumbers tripId seen) := by
  have hperm := numbersInUse_perm hnumbers
  have hphone : ∀ n < (s.metaOrDefault tripId).batchesCut,
      n ∈ seen.heldSequences ∨ n ∈ s.waitingNumbers tripId seen :=
    fun n hn => seen_covers hs hseen (hperm.mem_iff.mpr (List.mem_range.mpr hn))
  intro n hn
  rcases lt_pastAll.mp hn with hbelow | ⟨sequence, hsequence, hle⟩
  · exact hphone n hbelow
  · rcases List.mem_map.mp (hseen.held.mem_iff.mp hsequence) with ⟨receipt, hreceipt, rfl⟩
    rcases Nat.lt_or_eq_of_le hle with hlt | rfl
    · rcases List.mem_append.mp hreceipt with hold | hadopted
      · -- a stored receipt is below the phone's next number
        have hbelow := List.mem_range.mp (hperm.mem_iff.mp
          (List.mem_append_left _ (List.mem_map_of_mem hold)))
        exact hphone n (Nat.lt_trans hlt hbelow)
      · rcases hseen.adopted receipt hadopted with ⟨hlisted, hadoptable⟩
        rcases hunbroken.gapless receipt hlisted hadoptable n hlt with hbelow | hother
        · exact hphone n hbelow
        · rcases hother with ⟨other, hother, hadoptable', rfl⟩
          -- its key is known, so its number is held
          rcases List.mem_map.mp ((hseen.known _).mp (hseen.all other hother hadoptable'))
            with ⟨same, hsame, hkey⟩
          have hnumber : other.batchSequence = same.batchSequence := by
            refine (hserver.numbered other hother hadoptable' same ?_).mp hkey.symm
            rcases List.mem_append.mp hsame with hsame | hsame
            · exact .inr hsame
            · exact .inl (hseen.adopted same hsame)
          rw [hnumber]
          exact .inl (hseen.held.mem_iff.mpr (List.mem_map_of_mem hsame))
    · exact .inl hsequence

/-! ## The placement -/

/-- What the adoption computed: the acknowledged batches, and where the others and the dead
letters ended. -/
structure Placing (s : Store) (tripId : String) (receipts : List EvidenceReceipt)
    (uuid : Nat → String) (acked : List QueuedBatch) (seen : Seen) (placed : Placement QueuedBatch)
    (dead : Placement DeadLetter) : Prop where
  evidence : SeenInv tripId (s.listBatches tripId) (s.listReceipts tripId) receipts acked seen
  batches : (s.batches.filter (·.tripId = tripId)).Perm (acked ++ placed.left ++ placed.kept)
  deadLetters : (s.deadLetters.filter (·.tripId = tripId)).Perm (dead.left ++ dead.kept)
  moved : List.Forall₂ (fun row row' => ∃ n, row' = moveBatch uuid row n) placed.left placed.moved
  deadMoved : List.Forall₂ (fun row row' => ∃ n, row' = moveDeadLetter row n) dead.left dead.moved
  apart : (placed.moved.map (·.cutSeq)).Nodup
  numbers : ((s.listReceipts tripId ++ seen.adopted).map (·.batchSequence)
    ++ (placed.kept ++ placed.moved).map (·.cutSeq)
    ++ (dead.kept ++ dead.moved).map (·.cutSeq)).Perm dead.held
  heldApart : Apart dead.held dead.next []

theorem pastAll_of_below {next : Nat} {held : List Nat} (h : ∀ n ∈ held, n < next) :
    pastAll next held = next := by
  refine Nat.le_antisymm (Nat.le_of_not_lt ?_) (Nat.le_of_not_lt ?_)
  · intro hlt
    rcases lt_pastAll.mp hlt with hlt | ⟨n, hn, hle⟩
    · exact Nat.lt_irrefl _ hlt
    · exact absurd (h n hn) (Nat.not_lt.mpr hle)
  · exact fun hlt => absurd (lt_pastAll.mpr (.inl hlt)) (Nat.lt_irrefl _)

theorem ServerEvidence.seen (hserver : ServerEvidence s tripId receipts) (hs : KeysApart s) :
    ∃ acked, SeenInv tripId (s.listBatches tripId) (s.listReceipts tripId) receipts acked
      (seenEvidence s tripId receipts) := by
  refine seenEvidence_inv hs ?_
  intro receipt hreceipt hadoptable batch hbatch hkey
  have hstored := List.mem_of_mem_filter (listBatches_perm.mem_iff.mp hbatch)
  exact (hserver.answers receipt hreceipt hadoptable batch hstored hkey).2

theorem placing (hs : QueueInv sha256 numbering s) (hserver : ServerEvidence s tripId receipts)
    (uuid : Nat → String) :
    ∃ acked, Placing s tripId receipts uuid acked (seenEvidence s tripId receipts)
      (placedBatches s tripId (seenEvidence s tripId receipts) uuid)
      (placedDeadLetters s tripId
        (placedBatches s tripId (seenEvidence s tripId receipts) uuid)) := by
  rcases hserver.seen hs.keys with ⟨acked, hseen⟩
  have hunsent := unsent_perm hs.keys hseen
  have hplacement := placement (fun (_ : QueuedBatch) (_ : Nat) => rfl)
    (seen_apart (hs.trips tripId) hserver hseen)
    (rfl : _ = placedBatches s tripId (seenEvidence s tripId receipts) uuid)
  rcases hplacement with ⟨hplaced, hapart⟩
  rw [← List.append_nil ((s.listDeadLetters tripId).map (·.cutSeq))] at hapart
  have hdeadPlacement := placement (fun (_ : DeadLetter) (_ : Nat) => rfl) hapart
    (rfl : _ = placedDeadLetters s tripId
      (placedBatches s tripId (seenEvidence s tripId receipts) uuid))
  rcases hdeadPlacement with ⟨hdead, hfull⟩
  refine ⟨acked, hseen, ?_, ?_, ?_, ?_, ?_, ?_, hfull⟩
  · refine listBatches_perm.symm.trans (hunsent.trans ?_)
    rw [List.append_assoc]
    exact List.Perm.append_left acked (hplaced.rows.symm.trans List.perm_append_comm)
  · exact listDeadLetters_perm.symm.trans (hdead.rows.symm.trans List.perm_append_comm)
  · exact hplaced.moved.imp (fun row row' hmoved => ⟨hmoved.choose, hmoved.choose_spec.2.2⟩)
  · exact hdead.moved.imp (fun row row' hmoved => ⟨hmoved.choose, hmoved.choose_spec.2.2⟩)
  · rw [hplaced.ascending]
    exact List.nodup_range'
  · refine List.Perm.trans ?_ hdead.held.symm
    refine List.Perm.append_right _ ?_
    exact (hseen.held.symm.append_right _).trans hplaced.held.symm

/-- Unbroken evidence is placed without a gap. -/
theorem placed_gapless (hs : QueueInv sha256 numbering s) (hserver : ServerEvidence s tripId receipts)
    (hunbroken : UnbrokenEvidence s tripId receipts)
    (hnumbers : NumberedBelow (s.metaOrDefault tripId).batchesCut (s.entriesOf tripId))
    (uuid : Nat → String) :
    Gapless
      (placedDeadLetters s tripId
        (placedBatches s tripId (seenEvidence s tripId receipts) uuid)).held
      (placedDeadLetters s tripId
        (placedBatches s tripId (seenEvidence s tripId receipts) uuid)).next [] := by
  rcases hserver.seen hs.keys with ⟨acked, hseen⟩
  -- an unsent batch has a key the server does not know
  have hstays : ∀ batch ∈ (s.listBatches tripId).filter
      (·.key ∉ (seenEvidence s tripId receipts).acknowledged),
      decide (batch.key ∉ (seenEvidence s tripId receipts).knownKeys) = true := by
    intro batch hbatch
    rw [List.mem_filter, decide_eq_true_eq, hseen.acknowledged] at hbatch
    rw [decide_eq_true_eq, hseen.known, List.map_append, List.mem_append]
    rintro (hstored | hadopted)
    · rcases List.mem_map.mp hstored with ⟨receipt, hreceipt, hkey⟩
      exact hs.keys.batchReceipt batch
        (List.mem_of_mem_filter (listBatches_perm.mem_iff.mp hbatch.1)) receipt
        (List.mem_of_mem_filter (listReceipts_perm.mem_iff.mp hreceipt)) hkey.symm
    · exact hbatch.2 (List.mem_map_of_mem (hseen.unsent batch hbatch.1 hadopted))
  have hgapless := seen_gapless hs.keys hserver hunbroken hnumbers hseen
  unfold Store.waitingNumbers at hgapless
  rw [← List.append_nil ((s.listDeadLetters tripId).map (·.cutSeq))] at hgapless
  have hplaced : Gapless (placedBatches s tripId (seenEvidence s tripId receipts) uuid).held
      (placedBatches s tripId (seenEvidence s tripId receipts) uuid).next
      ((s.listDeadLetters tripId).map (·.cutSeq) ++ []) := Gapless.foldl hgapless hstays
  exact Gapless.foldl hplaced (fun _ _ => rfl)

end

end Device
end Mobility
