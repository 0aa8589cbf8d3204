import Mobility.Device.Boundary

/-!
# SeenEvidence — the loop over the server's receipts

A receipt is adopted once, under a key that is not stored.  If it carries the key of a local
batch the server answered that batch and its reply was lost; any other adopted receipt adds
its pings to the count.
-/

namespace Mobility
namespace Device

open Lib
open Wire (EvidenceManifestEntry)

/-- Evidence of the trip that a manifest may declare. -/
def Adoptable (tripId : String) (receipt : EvidenceReceipt) : Prop :=
  receipt.tripId = tripId ∧ receipt.evidenceScope = .manifest

/-- What is known after the receipts `done`, when `stored` were known at first and the local
batches `acked` are acknowledged. -/
structure SeenInv (tripId : String) (batches : List QueuedBatch)
    (stored done : List EvidenceReceipt) (acked : List QueuedBatch) (state : Seen) : Prop where
  known : ∀ key, key ∈ state.knownKeys ↔ key ∈ (stored ++ state.adopted).map (·.idempotencyKey)
  held : state.heldSequences.Perm ((stored ++ state.adopted).map (·.batchSequence))
  apart : ((stored ++ state.adopted).map (·.idempotencyKey)).Nodup
  adopted : ∀ receipt ∈ state.adopted, receipt ∈ done ∧ Adoptable tripId receipt
  all : ∀ receipt ∈ done, Adoptable tripId receipt → receipt.idempotencyKey ∈ state.knownKeys
  acknowledged : state.acknowledged = acked.map (·.key)
  ackedApart : (acked.map (·.key)).Nodup
  answered : ∀ batch ∈ acked, batch ∈ batches ∧ ∃ receipt ∈ state.adopted,
    receipt.entry = batch.entry
  unsent : ∀ batch ∈ batches, batch.key ∈ state.adopted.map (·.idempotencyKey) → batch ∈ acked
  counted : (acked.map (·.pings.length)).sum + state.adoptedPings
    = (state.adopted.map (·.submittedCount)).sum

section

variable {tripId : String} {batches acked : List QueuedBatch} {stored done : List EvidenceReceipt}
  {state : Seen} {receipt : EvidenceReceipt}

theorem Acknowledges.entry {batch : QueuedBatch} (h : Acknowledges receipt batch)
    (hkey : batch.key = receipt.idempotencyKey) : receipt.entry = batch.entry := by
  rcases h with ⟨hsequence, hhash, hcount⟩
  simp [EvidenceReceipt.entry, QueuedBatch.entry, hkey, hsequence, hhash, hcount]

/-- An acknowledged key was adopted. -/
theorem SeenInv.key_of_acked (h : SeenInv tripId batches stored done acked state)
    {batch : QueuedBatch} (hbatch : batch ∈ acked) :
    batch.key ∈ state.adopted.map (·.idempotencyKey) := by
  rcases (h.answered batch hbatch).2 with ⟨receipt, hreceipt, hentry⟩
  have hkey : receipt.idempotencyKey = batch.key :=
    congrArg EvidenceManifestEntry.idempotencyKey hentry
  exact hkey ▸ List.mem_map_of_mem hreceipt

theorem SeenInv.skip (h : SeenInv tripId batches stored done acked state)
    (hskip : Adoptable tripId receipt → receipt.idempotencyKey ∈ state.knownKeys) :
    SeenInv tripId batches stored (done ++ [receipt]) acked state := by
  refine ⟨h.known, h.held, h.apart, ?_, ?_, h.acknowledged, h.ackedApart, h.answered, h.unsent,
    h.counted⟩
  · intro other hother
    rcases h.adopted other hother with ⟨hdone, hadoptable⟩
    exact ⟨List.mem_append_left _ hdone, hadoptable⟩
  · intro other hother hadoptable
    rcases List.mem_append.mp hother with hother | hother
    · exact h.all other hother hadoptable
    · rw [List.mem_singleton] at hother
      subst hother
      exact hskip hadoptable

/-- The parts of the invariant that every adopted receipt keeps. -/
theorem SeenInv.adopt (h : SeenInv tripId batches stored done acked state)
    (hadoptable : Adoptable tripId receipt) (hnew : receipt.idempotencyKey ∉ state.knownKeys)
    {acked' : List QueuedBatch} {acknowledged : List String} {adoptedPings : Nat}
    (hacknowledged : acknowledged = acked'.map (·.key)) (hackedApart : (acked'.map (·.key)).Nodup)
    (hanswered : ∀ batch ∈ acked', batch ∈ batches
      ∧ ∃ other ∈ state.adopted ++ [receipt], other.entry = batch.entry)
    (hunsent : ∀ batch ∈ batches,
      batch.key ∈ (state.adopted ++ [receipt]).map (·.idempotencyKey) → batch ∈ acked')
    (hcounted : (acked'.map (·.pings.length)).sum + adoptedPings
      = ((state.adopted ++ [receipt]).map (·.submittedCount)).sum) :
    SeenInv tripId batches stored (done ++ [receipt]) acked'
      { knownKeys := receipt.idempotencyKey :: state.knownKeys
        heldSequences := receipt.batchSequence :: state.heldSequences
        adopted := state.adopted ++ [receipt]
        acknowledged := acknowledged
        adoptedPings := adoptedPings } := by
  refine ⟨?_, ?_, ?_, ?_, ?_, hacknowledged, hackedApart, hanswered, hunsent, hcounted⟩
  · intro key
    have hknown := h.known key
    simp only [List.map_append, List.mem_append, List.map_cons, List.map_nil,
      List.mem_cons] at hknown ⊢
    rw [hknown]
    simp only [List.not_mem_nil, or_false]
    tauto
  · rw [← List.append_assoc, List.map_append]
    exact (h.held.cons _).trans (List.perm_append_singleton _ _).symm
  · rw [← List.append_assoc, List.map_append]
    refine List.nodup_append.mpr ⟨h.apart, by simp, ?_⟩
    intro key hkey key' hkey' heq
    rw [List.map_cons, List.map_nil, List.mem_singleton] at hkey'
    exact hnew ((h.known _).mpr (hkey' ▸ heq ▸ hkey))
  · intro other hother
    rcases List.mem_append.mp hother with hother | hother
    · rcases h.adopted other hother with ⟨hdone, hother'⟩
      exact ⟨List.mem_append_left _ hdone, hother'⟩
    · rw [List.mem_singleton] at hother
      subst hother
      exact ⟨by simp, hadoptable⟩
  · intro other hother hadoptable'
    rcases List.mem_append.mp hother with hother | hother
    · exact List.mem_cons_of_mem _ (h.all other hother hadoptable')
    · rw [List.mem_singleton] at hother
      subst hother
      exact List.mem_cons_self

/-- One receipt; the server answers a local batch only with what that batch says. -/
theorem SeenInv.step (h : SeenInv tripId batches stored done acked state)
    (hkeys : (batches.map (·.key)).Nodup)
    (hanswers : Adoptable tripId receipt → ∀ batch ∈ batches, batch.key = receipt.idempotencyKey →
      Acknowledges receipt batch) :
    ∃ acked', SeenInv tripId batches stored (done ++ [receipt]) acked'
      (adoptReceipt tripId batches state receipt) := by
  unfold adoptReceipt
  split_ifs with hother hknown
  · refine ⟨acked, h.skip ?_⟩
    rintro ⟨htrip, hscope⟩
    exact absurd hother (by simp [htrip, hscope])
  · exact ⟨acked, h.skip (fun _ => hknown)⟩
  · have hadoptable : Adoptable tripId receipt := by
      rw [not_or, not_not, not_not] at hother
      exact hother
    have hold : ∀ batch ∈ acked, batch ∈ batches
        ∧ ∃ other ∈ state.adopted ++ [receipt], other.entry = batch.entry := by
      intro batch hbatch
      rcases h.answered batch hbatch with ⟨hlocal, other, hother, hentry⟩
      exact ⟨hlocal, other, List.mem_append_left _ hother, hentry⟩
    cases hfound : batches.find? (·.key = receipt.idempotencyKey) with
    | none =>
        -- no local batch has the key: another device sent this evidence
        refine ⟨acked, h.adopt hadoptable hknown h.acknowledged h.ackedApart hold ?_ ?_⟩
        · intro batch hbatch hmem
          rw [List.map_append, List.mem_append] at hmem
          rcases hmem with hmem | hmem
          · exact h.unsent batch hbatch hmem
          · have hnone := List.find?_eq_none.mp hfound batch hbatch
            exact absurd (by simpa using hmem) (by simpa using hnone)
        · have hcounted := h.counted
          simp only [List.map_append, List.map_cons, List.map_nil, List.sum_append,
            List.sum_singleton]
          omega
    | some batch =>
        rcases mem_of_lookup hfound with ⟨hbatch, hkey⟩
        have hacks := hanswers hadoptable batch hbatch hkey
        dsimp only
        rw [if_pos hacks]
        have hfresh : batch.key ∉ acked.map (·.key) := by
          intro hmem
          rcases List.mem_map.mp hmem with ⟨other, hother', heq⟩
          refine hknown ((h.known _).mpr ?_)
          rw [List.map_append, List.mem_append, ← hkey, ← heq]
          exact .inr (h.key_of_acked hother')
        refine ⟨batch :: acked, h.adopt hadoptable hknown ?_ ?_ ?_ ?_ ?_⟩
        · rw [h.acknowledged, List.map_cons]
        · exact List.nodup_cons.mpr ⟨hfresh, h.ackedApart⟩
        · intro other hother'
          rcases List.mem_cons.mp hother' with rfl | hother'
          · exact ⟨hbatch, receipt, by simp, hacks.entry hkey⟩
          · exact hold other hother'
        · intro other hlocal hmem
          rw [List.map_append, List.mem_append] at hmem
          rcases hmem with hmem | hmem
          · exact List.mem_cons_of_mem _ (h.unsent other hlocal hmem)
          · have hsame : other.key = batch.key := by
              rw [hkey]
              simpa using hmem
            exact List.inj_on_of_nodup_map hkeys hlocal hbatch hsame ▸ List.mem_cons_self
        · have hcounted := h.counted
          simp only [List.map_append, List.map_cons, List.map_nil, List.sum_append, List.sum_cons,
            List.sum_nil, hacks.2.2]
          omega

theorem SeenInv.run (h : SeenInv tripId batches stored done acked state)
    (hkeys : (batches.map (·.key)).Nodup) {receipts : List EvidenceReceipt}
    (hanswers : ∀ receipt ∈ receipts, Adoptable tripId receipt → ∀ batch ∈ batches,
      batch.key = receipt.idempotencyKey → Acknowledges receipt batch) :
    ∃ acked', SeenInv tripId batches stored (done ++ receipts) acked'
      (receipts.foldl (adoptReceipt tripId batches) state) := by
  induction receipts generalizing done acked state with
  | nil => exact ⟨acked, by simpa using h⟩
  | cons receipt receipts ih =>
      rcases h.step hkeys (hanswers receipt (by simp)) with ⟨acked', hstep⟩
      rcases ih hstep (fun other hother => hanswers other (List.mem_cons_of_mem _ hother))
        with ⟨acked'', hrun⟩
      rw [List.append_assoc, List.singleton_append] at hrun
      exact ⟨acked'', hrun⟩

/-- The whole loop, from the receipts that are stored. -/
theorem seenEvidence_inv {s : Store} (hs : KeysApart s) {receipts : List EvidenceReceipt}
    (hanswers : ∀ receipt ∈ receipts, Adoptable tripId receipt → ∀ batch ∈ s.listBatches tripId,
      batch.key = receipt.idempotencyKey → Acknowledges receipt batch) :
    ∃ acked, SeenInv tripId (s.listBatches tripId) (s.listReceipts tripId) receipts acked
      (seenEvidence s tripId receipts) := by
  have hbatches : ((s.listBatches tripId).map (·.key)).Nodup :=
    ((List.perm_insertionSort _ _).map _).nodup_iff.mpr
      (hs.batches.sublist (List.filter_sublist.map _))
  have hstored : ((s.listReceipts tripId).map (·.idempotencyKey)).Nodup :=
    ((List.perm_insertionSort _ _).map _).nodup_iff.mpr
      (hs.receipts.sublist (List.filter_sublist.map _))
  have hstart : SeenInv tripId (s.listBatches tripId) (s.listReceipts tripId) [] []
      { knownKeys := (s.listReceipts tripId).map (·.idempotencyKey)
        heldSequences := (s.listReceipts tripId).map (·.batchSequence) } := by
    refine ⟨by simp, by simp, by simpa using hstored, by simp, by simp, rfl, .nil, by simp, by simp,
      rfl⟩
  have hrun := hstart.run hbatches hanswers
  rw [List.nil_append] at hrun
  exact hrun

end

end Device
end Mobility
