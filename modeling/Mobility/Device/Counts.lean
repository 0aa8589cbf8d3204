import Mobility.Device.Runs

/-!
# Counts — the numbers the driver sees (`trip-tracker.tsx`)

The screen does not count accepted samples: it takes the pings recorded and subtracts what
waits, what was refused and what is in quarantine.  What is left are the samples that the
server accepted.
-/

namespace Mobility
namespace Device

open Lib

structure TripCounts where
  rejectedSampleCount : Nat
  quarantinedSampleCount : Nat
  rejectionCodes : List String
  syncedCount : Int
  bufferedCount : Nat
  deadLetterCount : Nat

/-- `refreshCounts`; the codes are a set. -/
def refreshCounts (s : Store) (tripId : String) : TripCounts :=
  let tripMeta := s.metaOrDefault tripId
  let unsynced := s.unsyncedCount tripId
  let deadLetters := s.listDeadLetters tripId
  let receipts := s.listReceipts tripId
  let rejectedPings : Nat := (deadLetters.map (·.pings.length)).sum
  let rejected : Nat := ((receipts.filter (·.outcome ≠ "quarantined")).map (·.rejectedCount)).sum
  let quarantined : Nat := ((receipts.filter (·.outcome = "quarantined")).map (·.submittedCount)).sum
  { rejectedSampleCount := rejected
    quarantinedSampleCount := quarantined
    rejectionCodes := (receipts.flatMap (·.sampleResults.filterMap (·.rejectionCode))).eraseDups
    syncedCount := max 0 ((tripMeta.pingsRecorded : Int) - unsynced - rejectedPings - rejected
      - quarantined)
    bufferedCount := unsynced
    deadLetterCount := deadLetters.length }

/-- The samples that the stored receipts accepted, quarantined batches apart. -/
def acceptedSamples (s : Store) (tripId : String) : Nat :=
  (((s.listReceipts tripId).filter (·.outcome ≠ "quarantined")).map (·.acceptedCount)).sum

section

variable {sha256 : Wire.Bytes → String} {numbering : Numbering} {s : Store} {tripId : String}

/-- Receipts split by their outcome, and the others by accepted and rejected. -/
theorem submitted_split {receipts : List EvidenceReceipt}
    (h : ∀ receipt ∈ receipts,
      receipt.acceptedCount + receipt.rejectedCount = receipt.submittedCount) :
    (receipts.map (·.submittedCount)).sum
      = ((receipts.filter (·.outcome ≠ "quarantined")).map (·.acceptedCount)).sum
        + ((receipts.filter (·.outcome ≠ "quarantined")).map (·.rejectedCount)).sum
        + ((receipts.filter (·.outcome = "quarantined")).map (·.submittedCount)).sum := by
  induction receipts with
  | nil => rfl
  | cons receipt receipts ih =>
      have hfirst := h receipt (by simp)
      have hrest := ih (fun other hother => h other (List.mem_cons_of_mem _ hother))
      by_cases houtcome : receipt.outcome = "quarantined"
      · have hothers : (receipt :: receipts).filter (·.outcome ≠ "quarantined")
            = receipts.filter (·.outcome ≠ "quarantined") :=
          List.filter_cons_of_neg (by simp [houtcome])
        have hthese : (receipt :: receipts).filter (·.outcome = "quarantined")
            = receipt :: receipts.filter (·.outcome = "quarantined") :=
          List.filter_cons_of_pos (by simp [houtcome])
        rw [hothers, hthese, List.map_cons, List.sum_cons, List.map_cons, List.sum_cons]
        omega
      · have hothers : (receipt :: receipts).filter (·.outcome ≠ "quarantined")
            = receipt :: receipts.filter (·.outcome ≠ "quarantined") :=
          List.filter_cons_of_pos (by simp [houtcome])
        have hthese : (receipt :: receipts).filter (·.outcome = "quarantined")
            = receipts.filter (·.outcome = "quarantined") :=
          List.filter_cons_of_neg (by simp [houtcome])
        rw [hothers, hthese, List.map_cons, List.sum_cons, List.map_cons, List.sum_cons,
          List.map_cons, List.sum_cons]
        omega

/-- The recorded pings, by where they are. -/
theorem recorded_split (hs : TripInv sha256 numbering tripId (s.view tripId)) :
    (s.metaOrDefault tripId).pingsRecorded = s.unsyncedCount tripId
      + ((s.listReceipts tripId).map (·.submittedCount)).sum
      + ((s.listDeadLetters tripId).map (·.pings.length)).sum := by
  have hcounted : ((s.metaOrDefault tripId).pingsRecorded : Int)
      = (s.pendingOf tripId).card + declaredPings (s.entriesOf tripId) := hs.counted
  rw [card_pendingOf, entriesOf_eq listReceipts_perm.symm listBatches_perm.symm
    listDeadLetters_perm.symm] at hcounted
  simp only [declaredPings, Multiset.map_coe, Multiset.sum_coe, List.map_append, List.map_map,
    List.sum_append, Function.comp_def, EvidenceReceipt.entry, QueuedBatch.entry] at hcounted
  unfold Store.unsyncedCount
  zify
  simp only [List.map_map, Function.comp_def]
  omega

/-- The synced count is never clipped: it is the number of samples that the server accepted. -/
theorem syncedCount_accepted (sha256 : Wire.Bytes → String) (p : Phone)
    (h : ReachableBy (phone sha256) Orderly p) (tripId : String) :
    (refreshCounts p.store tripId).syncedCount = acceptedSamples p.store tripId
    ∧ (p.store.metaOrDefault tripId).pingsRecorded
      = acceptedSamples p.store tripId + (refreshCounts p.store tripId).bufferedCount
        + (refreshCounts p.store tripId).rejectedSampleCount
        + (refreshCounts p.store tripId).quarantinedSampleCount
        + ((p.store.listDeadLetters tripId).map (·.pings.length)).sum := by
  have hp := phoneInv_of_run h
  have hrecorded := recorded_split (hp.store.trips tripId)
  have hsettled : ∀ receipt ∈ p.store.listReceipts tripId,
      receipt.acceptedCount + receipt.rejectedCount = receipt.submittedCount := by
    intro receipt hreceipt
    exact hp.store.settled receipt (List.mem_of_mem_filter (listReceipts_perm.mem_iff.mp hreceipt))
  have hsplit := submitted_split hsettled
  unfold refreshCounts acceptedSamples
  dsimp only
  constructor
  · omega
  · omega

/-- Four pings of another phone are accepted, and both of this one wait. -/
theorem syncedCount_accepted_gapped : ∃ p : Phone, acceptedSamples p.store "trip" = 4
    ∧ (refreshCounts p.store "trip").bufferedCount = 2
    ∧ (refreshCounts p.store "trip").syncedCount = acceptedSamples p.store "trip" := by
  rcases (phone sampleSha256).exists_reachableBy Orderly _ (learns_orderly (.inr rfl))
    (fun p => acceptedSamples p.store "trip" = 4
      && (refreshCounts p.store "trip").bufferedCount = 2)
    (by decide +kernel) with ⟨p, hp, htest⟩
  simp only [Bool.and_eq_true, decide_eq_true_eq] at htest
  exact ⟨p, htest.1, htest.2, (syncedCount_accepted sampleSha256 p hp "trip").1⟩

end

end Device
end Mobility
