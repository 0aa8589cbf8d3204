import Mathlib.Algebra.BigOperators.Group.Multiset.Basic
import Mathlib.Algebra.Order.Group.Multiset
import Mathlib.Tactic.Abel
import Mobility.Device.Queue

/-!
# View — what the phone holds of one trip

Of a trip only four things matter: its counters, the pings that wait, the pings that are in
batches or dead letters, and the evidence that a manifest would declare.  The operations of
the queue are moves of this view; `TripInv` is kept by every move.

* numbers: the declared batches have numbers of their own, or more, as the `Numbering` says;
* captured: every captured ping is held once, under its own number;
* counted: the recorded pings are those that wait and those that are declared;
* frozen: a frozen manifest declares exactly what the phone holds.
-/

namespace Mobility
namespace Device

open Lib
open Wire (EvidenceManifest EvidenceManifestEntry buildEvidenceManifest)

structure TripView where
  tripMeta : TripMeta
  pending : Multiset QueuedPing
  batched : Multiset QueuedPing
  entries : Multiset EvidenceManifestEntry

namespace Store

def pendingOf (s : Store) (tripId : String) : Multiset QueuedPing :=
  gather (·.tripId = tripId) (fun record => {record.ping}) s.pending

/-- The pings of the unsent batches and of the dead letters. -/
def batchedOf (s : Store) (tripId : String) : Multiset QueuedPing :=
  gather (·.tripId = tripId) (fun batch => ↑batch.pings) s.batches
    + gather (·.tripId = tripId) (fun dead => ↑dead.pings) s.deadLetters

def entriesOf (s : Store) (tripId : String) : Multiset EvidenceManifestEntry :=
  gather (·.tripId = tripId) (fun receipt => {receipt.entry}) s.receipts
    + gather (·.tripId = tripId) (fun batch => {batch.entry}) s.batches
    + gather (·.tripId = tripId) (fun dead => {dead.toQueuedBatch.entry}) s.deadLetters

def view (s : Store) (tripId : String) : TripView where
  tripMeta := s.metaOrDefault tripId
  pending := s.pendingOf tripId
  batched := s.batchedOf tripId
  entries := s.entriesOf tripId

end Store

/-! ## Moves -/

/-- The pings the phone holds itself. -/
def TripView.captured (v : TripView) : Multiset QueuedPing := v.pending + v.batched

/-- Pings declared by some evidence. -/
def declaredPings (entries : Multiset EvidenceManifestEntry) : Int :=
  (entries.map (·.submittedCount)).sum

/-- The numbers of some evidence are below `n`, each once. -/
structure NumbersApart (n : Nat) (entries : Multiset EvidenceManifestEntry) : Prop where
  distinct : (entries.map (·.batchSequence)).Nodup
  below : ∀ entry ∈ entries, entry.batchSequence < n

/-- The numbers of some evidence are those below `n`, each once. -/
def NumberedBelow (n : Nat) (entries : Multiset EvidenceManifestEntry) : Prop :=
  entries.map (·.batchSequence) = (Multiset.range n).map (fun index : Nat => (index : Int))

/-- What is kept about declared evidence below the next number: it holds of no evidence, a
new batch under the next number and a new key keeps it, and numbers are apart. -/
structure Numbering where
  holds : Nat → Multiset EvidenceManifestEntry → Prop
  empty : holds 0 0
  cons : ∀ {n : Nat} {entries : Multiset EvidenceManifestEntry} {entry : EvidenceManifestEntry},
    holds n entries → entry.batchSequence = n →
    entry.idempotencyKey ∉ entries.map (·.idempotencyKey) → holds (n + 1) (entry ::ₘ entries)
  apart : ∀ {n : Nat} {entries : Multiset EvidenceManifestEntry},
    holds n entries → NumbersApart n entries

theorem numbersApart_cons {n : Nat} {entries : Multiset EvidenceManifestEntry}
    {entry : EvidenceManifestEntry} (h : NumbersApart n entries) (hentry : entry.batchSequence = n) :
    NumbersApart (n + 1) (entry ::ₘ entries) where
  distinct := by
    rw [Multiset.map_cons, hentry, Multiset.nodup_cons]
    refine ⟨?_, h.distinct⟩
    intro hmem
    rcases Multiset.mem_map.mp hmem with ⟨other, hother, heq⟩
    exact absurd (h.below other hother) (by rw [heq]; exact lt_irrefl _)
  below := by
    intro other hother
    push_cast
    rcases Multiset.mem_cons.mp hother with rfl | hother
    · rw [hentry]
      exact Int.lt_succ _
    · exact (h.below other hother).trans (Int.lt_succ _)

theorem numberedBelow_cons {n : Nat} {entries : Multiset EvidenceManifestEntry}
    {entry : EvidenceManifestEntry} (h : NumberedBelow n entries) (hentry : entry.batchSequence = n) :
    NumberedBelow (n + 1) (entry ::ₘ entries) := by
  unfold NumberedBelow at h ⊢
  rw [Multiset.map_cons, h, hentry, Multiset.range_succ, Multiset.map_cons]

theorem NumberedBelow.apart {n : Nat} {entries : Multiset EvidenceManifestEntry}
    (h : NumberedBelow n entries) : NumbersApart n entries where
  distinct := by
    rw [h]
    exact (Multiset.nodup_range n).map (fun _ _ heq => Int.ofNat_inj.mp heq)
  below := by
    intro entry hentry
    have hnumber := Multiset.mem_map_of_mem (·.batchSequence) hentry
    rw [h] at hnumber
    rcases Multiset.mem_map.mp hnumber with ⟨index, hindex, heq⟩
    rw [← heq]
    exact Int.ofNat_lt.mpr (Multiset.mem_range.mp hindex)

/-- Numbers of their own, whatever the server holds. -/
def distinctNumbers : Numbering where
  holds := NumbersApart
  empty := ⟨by simp, by simp⟩
  cons := fun h hnumber _ => numbersApart_cons h hnumber
  apart := fun h => h

/-- Numbers without a gap, and keys of their own. -/
def gaplessNumbers : Numbering where
  holds n entries := NumberedBelow n entries ∧ (entries.map (·.idempotencyKey)).Nodup
  empty := ⟨by simp [NumberedBelow], by simp⟩
  cons := by
    intro n entries entry h hnumber hkey
    refine ⟨numberedBelow_cons h.1 hnumber, ?_⟩
    rw [Multiset.map_cons, Multiset.nodup_cons]
    exact ⟨hkey, h.2⟩
  apart := fun h => h.1.apart

section

variable (sha256 : Wire.Bytes → String) (numbering : Numbering)

/-- What an operation does to the trip it is about. -/
inductive TripMove (tripId : String) : TripView → TripView → Prop
  | stay (v : TripView) : TripMove tripId v v
  | capture (v : TripView) (ping : QueuedPing) :
      v.tripMeta.endManifest = none → ping.sequenceNumber = v.tripMeta.nextSeq →
      TripMove tripId v { v with
        tripMeta := { v.tripMeta with
          nextSeq := v.tripMeta.nextSeq + 1
          pingsRecorded := v.tripMeta.pingsRecorded + 1 }
        pending := ping ::ₘ v.pending }
  | cut (v : TripView) (pings : List QueuedPing) (rest : Multiset QueuedPing)
      (entry : EvidenceManifestEntry) :
      v.pending = ↑pings + rest → pings ≠ [] → entry.batchSequence = v.tripMeta.batchesCut →
      entry.idempotencyKey ∉ v.entries.map (·.idempotencyKey) →
      entry.submittedCount = pings.length →
      TripMove tripId v { v with
        tripMeta := { v.tripMeta with batchesCut := v.tripMeta.batchesCut + 1 }
        pending := rest
        batched := ↑pings + v.batched
        entries := entry ::ₘ v.entries }
  | settle (v : TripView) (pings rest : Multiset QueuedPing) :
      v.batched = pings + rest → TripMove tripId v { v with batched := rest }
  | adopt (v : TripView) (pings rest : Multiset QueuedPing)
      (entries : Multiset EvidenceManifestEntry) (batchesCut adoptedPings : Nat) :
      v.tripMeta.endManifest = none → v.batched = pings + rest →
      numbering.holds batchesCut entries →
      declaredPings entries = declaredPings v.entries + adoptedPings →
      TripMove tripId v { v with
        tripMeta := { v.tripMeta with
          batchesCut := batchesCut
          pingsRecorded := v.tripMeta.pingsRecorded + adoptedPings }
        batched := rest
        entries := entries }
  | freeze (v : TripView) (manifest : EvidenceManifest) :
      v.pending = 0 → ↑manifest.entries = v.entries →
      buildEvidenceManifest sha256 tripId manifest.entries manifest.complete = .ok manifest →
      TripMove tripId v { v with tripMeta := { v.tripMeta with endManifest := some manifest } }
  | reopen (v : TripView) :
      TripMove tripId v { v with tripMeta := { v.tripMeta with endManifest := none } }
  | forget (v : TripView) :
      TripMove tripId v { tripMeta := { tripId := tripId }, pending := 0, batched := 0, entries := 0 }

/-! ## The invariant of a trip -/

structure TripInv (tripId : String) (v : TripView) : Prop where
  numbers : numbering.holds v.tripMeta.batchesCut v.entries
  distinct : (v.captured.map (·.sequenceNumber)).Nodup
  below : ∀ ping ∈ v.captured, ping.sequenceNumber < v.tripMeta.nextSeq
  counted : (v.tripMeta.pingsRecorded : Int) = v.pending.card + declaredPings v.entries
  frozen : ∀ manifest, v.tripMeta.endManifest = some manifest →
    v.pending = 0 ∧ ↑manifest.entries = v.entries
      ∧ buildEvidenceManifest sha256 tripId manifest.entries manifest.complete = .ok manifest

variable {sha256} {numbering} {tripId : String} {v v' : TripView}

theorem tripInv_default (tripId : String) :
    TripInv sha256 numbering tripId
      { tripMeta := { tripId := tripId }, pending := 0, batched := 0, entries := 0 } where
  numbers := numbering.empty
  distinct := by simp [TripView.captured]
  below := by simp [TripView.captured]
  counted := by simp [declaredPings]
  frozen := fun _ h => absurd h (by simp)

theorem declaredPings_cons {entries : Multiset EvidenceManifestEntry}
    {entry : EvidenceManifestEntry} :
    declaredPings (entry ::ₘ entries) = entry.submittedCount + declaredPings entries := by
  simp [declaredPings]

/-- Holding fewer pings keeps them apart and below the next number. -/
theorem TripInv.of_captured_le (h : TripInv sha256 numbering tripId v)
    (hle : v'.captured ≤ v.captured) (hnext : v'.tripMeta.nextSeq = v.tripMeta.nextSeq) :
    (v'.captured.map (·.sequenceNumber)).Nodup
      ∧ ∀ ping ∈ v'.captured, ping.sequenceNumber < v'.tripMeta.nextSeq := by
  constructor
  · exact Multiset.nodup_of_le (Multiset.map_le_map hle) h.distinct
  · intro ping hping
    rw [hnext]
    exact h.below ping (Multiset.mem_of_le hle hping)

/-- Every move keeps the invariant of its trip. -/
theorem TripMove.inv (hmove : TripMove sha256 numbering tripId v v') (h : TripInv sha256 numbering tripId v) :
    TripInv sha256 numbering tripId v' := by
  cases hmove with
  | stay => exact h
  | capture ping hopen hnumber =>
      refine ⟨h.numbers, ?_, ?_, ?_, ?_⟩
      · simp only [TripView.captured, Multiset.cons_add, Multiset.map_cons]
        refine Multiset.nodup_cons.mpr ⟨?_, h.distinct⟩
        intro hmem
        rcases Multiset.mem_map.mp hmem with ⟨other, hother, heq⟩
        exact absurd (h.below other hother) (by rw [heq, hnumber]; exact Nat.lt_irrefl _)
      · simp only [TripView.captured, Multiset.cons_add, Multiset.mem_cons]
        rintro other (rfl | hother)
        · rw [hnumber]
          exact Nat.lt_succ_self _
        · exact Nat.lt_succ_of_lt (h.below other hother)
      · have hcounted := h.counted
        simp only [Multiset.card_cons]
        push_cast
        omega
      · intro manifest hmanifest
        exact absurd (hopen.symm.trans hmanifest) (by simp)
  | cut pings rest entry hpending hpings hnumber hkey hcount =>
      refine ⟨numbering.cons h.numbers hnumber hkey, ?_, ?_, ?_, ?_⟩
      · have hsame : v.captured = rest + (↑pings + v.batched) := by
          rw [TripView.captured, hpending]
          abel
        have hdistinct := h.distinct
        rw [hsame] at hdistinct
        exact hdistinct
      · intro ping hping
        refine h.below ping ?_
        rw [TripView.captured, hpending]
        simp only [TripView.captured, Multiset.mem_add] at hping ⊢
        tauto
      · have hcounted := h.counted
        rw [hpending, Multiset.card_add, Multiset.coe_card] at hcounted
        rw [declaredPings_cons, hcount]
        push_cast at hcounted ⊢
        omega
      · intro manifest hmanifest
        -- a frozen trip has no pending ping to cut
        have hempty := (h.frozen manifest hmanifest).1
        rw [hpending] at hempty
        have hcard := congrArg Multiset.card hempty
        rw [Multiset.card_add, Multiset.coe_card, Multiset.card_zero] at hcard
        exact absurd (List.length_eq_zero_iff.mp (Nat.eq_zero_of_add_eq_zero_right hcard)) hpings
  | settle pings rest hbatched =>
      have hle : ({ v with batched := rest } : TripView).captured ≤ v.captured := by
        rw [TripView.captured, TripView.captured, hbatched]
        exact add_le_add_right (Multiset.le_add_left rest pings) _
      rcases h.of_captured_le hle rfl with ⟨hdistinct, hbelow⟩
      exact ⟨h.numbers, hdistinct, hbelow, h.counted, h.frozen⟩
  | adopt pings rest entries batchesCut adoptedPings hopen hbatched hnumbers hdeclared =>
      have hle : ({ v with batched := rest } : TripView).captured ≤ v.captured := by
        rw [TripView.captured, TripView.captured, hbatched]
        exact add_le_add_right (Multiset.le_add_left rest pings) _
      rcases h.of_captured_le hle rfl with ⟨hdistinct, hbelow⟩
      refine ⟨hnumbers, hdistinct, hbelow, ?_, ?_⟩
      · have hcounted := h.counted
        rw [hdeclared]
        push_cast
        omega
      · intro manifest hmanifest
        exact absurd (hopen.symm.trans hmanifest) (by simp)
  | freeze manifest hpending hentries hbuilt =>
      refine ⟨h.numbers, h.distinct, h.below, h.counted, ?_⟩
      intro manifest' hmanifest'
      rw [← Option.some.inj hmanifest']
      exact ⟨hpending, hentries, hbuilt⟩
  | reopen => exact ⟨h.numbers, h.distinct, h.below, h.counted, fun _ hnone => absurd hnone (by simp)⟩
  | forget => exact tripInv_default tripId

end

end Device
end Mobility
