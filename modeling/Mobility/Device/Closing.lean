import Mobility.Device.Runs
import Mobility.Wire.Buildable

/-!
# Closing — the End can be frozen when the server's evidence is unbroken

Freezing throws only where the encoder refuses a number or a length, or where adopted
evidence left a gap in the numbers or gave a dead letter's key to a receipt: the phone itself
makes no conflicting descriptor, no gap and no repeated key.
-/

namespace Mobility
namespace Device

open Lib
open Wire (EvidenceManifest EvidenceManifestEntry EvidencePing ShortText Describable maxSafeInteger
  buildEvidenceManifest orderedEntries)

/-- The texts of a declared entry are short. -/
structure ShortEntry (entry : EvidenceManifestEntry) : Prop where
  key : ShortText entry.idempotencyKey
  version : entry.payloadHashVersion = 2
  hash : ShortText entry.payloadHash

section

variable {sha256 : Wire.Bytes → String} {numbering : Numbering} {s s' : Store} {tripId : String}

/-! ## Cutting -/

theorem batchPayloadHash_ok {pings : List QueuedPing} (hlength : pings.length ≤ 0xFFFFFFFF)
    (hsafe : ∀ ping ∈ pings, (ping.sequenceNumber : Int) ≤ maxSafeInteger) :
    ∃ hash, batchPayloadHash sha256 pings = .ok hash := by
  have hevidence : ∃ evidence, checkedMap QueuedPing.evidence pings = .ok evidence
      ∧ List.Forall₂ (fun _ _ => True) pings evidence := by
    refine exists_checkedMap ?_
    intro ping hping
    unfold QueuedPing.evidence
    rw [dif_pos (hsafe ping hping)]
    exact ⟨_, rfl, trivial⟩
  rcases hevidence with ⟨evidence, hevidence, hall⟩
  have hserver : ∃ bytes, Wire.batchPayloadBytes (Wire.receivedBatch evidence) = .ok bytes :=
    Wire.batchPayloadBytes_ok (hall.length_eq ▸ hlength)
  rcases hserver with ⟨bytes, hbytes⟩
  refine ⟨sha256 bytes, ?_⟩
  have hclient := (Wire.clientBatchBytes_agree evidence bytes).mpr hbytes
  exact bind_eq_ok.mpr ⟨evidence, hevidence, bind_eq_ok.mpr ⟨bytes, hclient, rfl⟩⟩

/-- A cut succeeds while the trip's numbers are safe. -/
theorem cutBatch_ok {max : Nat} {key : String} {cutAt : Int}
    (hs : TripInv sha256 numbering tripId (s.view tripId)) (hmax : max ≤ 0xFFFFFFFF)
    (hsafe : ((s.metaOrDefault tripId).nextSeq : Int) ≤ maxSafeInteger) :
    ∃ s', cutBatch sha256 tripId max key cutAt s = .ok s' := by
  have hnumbers : ∀ ping ∈ (s.pendingPings tripId).take max,
      (ping.sequenceNumber : Int) ≤ maxSafeInteger := by
    intro ping hping
    have hheld : ping ∈ (s.view tripId).captured := by
      refine Multiset.mem_add.mpr (.inl ?_)
      have hpending : ping ∈ s.pendingOf tripId := by
        rw [pendingOf_eq]
        exact List.mem_of_mem_take hping
      exact hpending
    have hbelow : ping.sequenceNumber < (s.metaOrDefault tripId).nextSeq := hs.below ping hheld
    omega
  have hlength : ((s.pendingPings tripId).take max).length ≤ 0xFFFFFFFF :=
    le_trans (List.length_take_le max _) hmax
  rcases batchPayloadHash_ok hlength hnumbers with ⟨hash, hhash⟩
  dsimp only [cutBatch]
  split_ifs
  · exact ⟨s, rfl⟩
  · exact ⟨_, bind_eq_ok.mpr ⟨hash, hhash, rfl⟩⟩

theorem batchPayloadHash_digest {pings : List QueuedPing} {hash : String}
    (h : batchPayloadHash sha256 pings = .ok hash) : ∃ data, hash = sha256 data := by
  simp only [batchPayloadHash, bind_eq_ok, pure_eq_ok] at h
  rcases h with ⟨_, _, bytes, _, rfl⟩
  exact ⟨bytes, rfl⟩

/-- A cut declares one more batch at most, under the given key and a digest. -/
theorem cutBatch_keeps {max : Nat} {key : String} {cutAt : Int} (hkey : key ∉ evidenceKeys s)
    (h : cutBatch sha256 tripId max key cutAt s = .ok s') :
    (s'.metaOrDefault tripId).nextSeq = (s.metaOrDefault tripId).nextSeq
    ∧ (s'.metaOrDefault tripId).pingsRecorded = (s.metaOrDefault tripId).pingsRecorded
    ∧ (s'.metaOrDefault tripId).batchesCut ≤ (s.metaOrDefault tripId).batchesCut + 1
    ∧ ∀ entry ∈ s'.entriesOf tripId, entry ∈ s.entriesOf tripId
      ∨ (entry.idempotencyKey = key ∧ entry.payloadHashVersion = 2
        ∧ ∃ data, entry.payloadHash = sha256 data) := by
  rcases cutBatch_eq h with ⟨_, rfl⟩ | ⟨batch, rfl, htrip, _, _, _, hhash, rfl⟩
  · exact ⟨rfl, rfl, Nat.le_succ _, fun _ hentry => .inl hentry⟩
  · refine ⟨?_, ?_, ?_, ?_⟩
    · rw [metaOrDefault_putMeta, if_pos metaOrDefault_tripId]
    · rw [metaOrDefault_putMeta, if_pos metaOrDefault_tripId]
    · rw [metaOrDefault_putMeta, if_pos metaOrDefault_tripId]
    · intro entry hentry
      have hadded : entry ∈ gather (·.tripId = tripId)
            (fun receipt : EvidenceReceipt => {receipt.entry}) s.receipts
          + gather (·.tripId = tripId)
            (fun batch : QueuedBatch => ({batch.entry} : Multiset EvidenceManifestEntry))
            (putRow (·.key) batch s.batches)
          + gather (·.tripId = tripId)
            (fun dead : DeadLetter => {dead.toQueuedBatch.entry}) s.deadLetters := hentry
      rw [gather_putRow (batch_fresh hkey), Multiset.mem_add, Multiset.mem_add,
        Multiset.mem_add] at hadded
      rcases hadded with (hreceipt | hbatch | hnew) | hdead
      · exact .inl (Multiset.mem_add.mpr (.inl (Multiset.mem_add.mpr (.inl hreceipt))))
      · exact .inl (Multiset.mem_add.mpr (.inl (Multiset.mem_add.mpr (.inr hbatch))))
      · rw [if_pos (decide_eq_true htrip), Multiset.mem_singleton] at hnew
        rw [hnew]
        exact .inr ⟨rfl, rfl, batchPayloadHash_digest hhash⟩
      · exact .inl (Multiset.mem_add.mpr (.inr hdead))

/-- The bounds under which a trip of fewer than `limit` batches can be closed. -/
structure Closable (s : Store) (tripId : String) (uuid : Nat → String) (limit : Nat) : Prop where
  trip : ShortText tripId
  keys : ∀ n < limit, ShortText (uuid n)
  nextSeq : ((s.metaOrDefault tripId).nextSeq : Int) ≤ maxSafeInteger
  recorded : ((s.metaOrDefault tripId).pingsRecorded : Int) ≤ maxSafeInteger
  entries : ∀ entry ∈ s.entriesOf tripId, ShortEntry entry

theorem cutPending_ok {uuid : Nat → String} {cutAt : Int} (hdigest : ∀ data, ShortText (sha256 data))
    {limit rounds : Nat} (hs : QueueInv sha256 numbering s)
    (hfresh : FreshKeys uuid (s.metaOrDefault tripId).batchesCut s)
    (h : Closable s tripId uuid limit)
    (hlimit : (s.metaOrDefault tripId).batchesCut + rounds ≤ limit) :
    ∃ s', cutPending sha256 tripId uuid cutAt rounds s = .ok s' ∧ Closable s' tripId uuid limit
      ∧ (s'.metaOrDefault tripId).batchesCut ≤ limit := by
  induction rounds generalizing s with
  | zero => exact ⟨s, rfl, h, hlimit⟩
  | succ rounds ih =>
      have hcut : ∃ next, cutBatch sha256 tripId 40 (uuid (s.metaOrDefault tripId).batchesCut) cutAt s
          = .ok next := cutBatch_ok (hs.trips tripId) (by decide) h.nextSeq
      rcases hcut with ⟨next, hcut⟩
      have hunused := hfresh.unused _ (Nat.le_refl _)
      have hadvance := cutBatch_advances hs hunused hcut
      rcases cutBatch_round hs (by decide) hfresh hcut with ⟨hfresh', _⟩
      rcases cutBatch_keeps hunused hcut with ⟨hnext, hrecorded, hcount, hentries⟩
      have hbounds : Closable next tripId uuid limit := by
        refine ⟨h.trip, h.keys, hnext ▸ h.nextSeq, hrecorded ▸ h.recorded, ?_⟩
        intro entry hentry
        rcases hentries entry hentry with hold | ⟨hkey, hversion, data, hhash⟩
        · exact h.entries entry hold
        · exact ⟨hkey ▸ h.keys _ (by omega), hversion, hhash ▸ hdigest data⟩
      rcases ih hadvance.inv hfresh' hbounds (by omega) with ⟨s', hrest, hbounds', hcount'⟩
      exact ⟨s', bind_eq_ok.mpr ⟨next, hcut, hrest⟩, hbounds', hcount'⟩

/-! ## The manifest -/

/-- Entries with the numbers below `n` are contiguous when ordered. -/
theorem contiguous_of_numberedBelow {n : Nat} {entries : List EvidenceManifestEntry}
    (h : NumberedBelow n (↑entries : Multiset EvidenceManifestEntry)) :
    entries.length = n ∧ Wire.contiguous (orderedEntries entries) := by
  have hnumbers : (entries.map (·.batchSequence)).Perm
      ((List.range n).map (fun index : Nat => (index : Int))) := by
    unfold NumberedBelow at h
    rw [Multiset.map_coe] at h
    exact Multiset.coe_eq_coe.mp h
  have hlength : entries.length = n := by simpa using hnumbers.length_eq
  have hperm : (orderedEntries entries).Perm entries := List.perm_insertionSort _ entries
  refine ⟨hlength, ?_⟩
  unfold Wire.contiguous
  rw [hperm.length_eq, hlength]
  have hordered : ((orderedEntries entries).map (·.batchSequence)).Pairwise (· ≤ ·) := by
    refine List.pairwise_map.mpr ((orderedEntries_sorted entries).imp ?_)
    intro a b hab
    omega
  have hrange : ((List.range n).map (fun index : Nat => (index : Int))).Pairwise (· ≤ ·) := by
    refine List.pairwise_map.mpr (List.pairwise_lt_range.imp ?_)
    intro a b hab
    exact Int.ofNat_le.mpr (Nat.le_of_lt hab)
  exact ((hperm.map _).trans hnumbers).eq_of_pairwise
    (fun a b _ _ hab hba => le_antisymm hab hba) hordered hrange

theorem evidenceManifest_ok {uuid : Nat → String} (hdigest : ∀ data, ShortText (sha256 data))
    {limit : Nat} (hs : QueueInv sha256 gaplessNumbers s) (h : Closable s tripId uuid limit)
    (hbatches : (s.metaOrDefault tripId).batchesCut ≤ 0xFFFFFFFF) (complete : Bool) :
    ∃ manifest, evidenceManifest sha256 s tripId complete = .ok manifest := by
  have htrip := hs.trips tripId
  rcases declaredEntries_eq htrip with ⟨entries, hdeclared, hentries⟩
  have hview : (s.view tripId).entries = ↑entries := hentries.symm
  have hnumbers : NumberedBelow (s.metaOrDefault tripId).batchesCut
      (↑entries : Multiset EvidenceManifestEntry) := hview ▸ htrip.numbers.1
  rcases contiguous_of_numberedBelow hnumbers with ⟨hlength, hcontiguous⟩
  have hkeys : (entries.map (·.idempotencyKey)).Nodup := by
    have hnodup : ((s.entriesOf tripId).map (·.idempotencyKey)).Nodup := htrip.numbers.2
    rwa [← hentries, Multiset.map_coe, Multiset.coe_nodup] at hnodup
  have hmem : ∀ entry ∈ entries, entry ∈ s.entriesOf tripId := by
    intro entry hentry
    rw [← hentries]
    exact hentry
  -- the counts of the entries add up to pings that were recorded
  have hnonneg : ∀ entry ∈ entries, 0 ≤ entry.submittedCount := by
    intro entry hentry
    have hsource := hmem entry hentry
    simp only [Store.entriesOf, Multiset.mem_add, mem_gather, Multiset.mem_singleton] at hsource
    rcases hsource with (⟨row, _, _, rfl⟩ | ⟨row, _, _, rfl⟩) | ⟨row, _, _, rfl⟩
    · exact Int.natCast_nonneg _
    · exact Int.natCast_nonneg _
    · exact Int.natCast_nonneg _
  have hsum : (entries.map (·.submittedCount)).sum ≤ maxSafeInteger := by
    have hcounted := htrip.counted
    rw [hview] at hcounted
    have hdeclaredSum : declaredPings (↑entries : Multiset EvidenceManifestEntry)
        = (entries.map (·.submittedCount)).sum := rfl
    have hrecorded : (((s.view tripId).tripMeta.pingsRecorded : Nat) : Int) ≤ maxSafeInteger :=
      h.recorded
    omega
  have hdescribable : ∀ entry ∈ entries, Describable entry := by
    intro entry hentry
    have hshort := h.entries entry (hmem entry hentry)
    have hsequence : ∃ n < (s.metaOrDefault tripId).batchesCut, entry.batchSequence = (n : Int) := by
      have hnumber : entry.batchSequence
          ∈ (↑entries : Multiset EvidenceManifestEntry).map (·.batchSequence) :=
        Multiset.mem_map_of_mem _ hentry
      rw [hnumbers] at hnumber
      rcases Multiset.mem_map.mp hnumber with ⟨n, hn, heq⟩
      exact ⟨n, Multiset.mem_range.mp hn, heq.symm⟩
    rcases hsequence with ⟨n, hn, hsequence⟩
    have hone : entry.submittedCount ≤ (entries.map (·.submittedCount)).sum := by
      refine List.single_le_sum ?_ _ (List.mem_map_of_mem hentry)
      intro count hcount
      rcases List.mem_map.mp hcount with ⟨other, hother, rfl⟩
      exact hnonneg other hother
    refine ⟨?_, hshort.key, hshort.version, hshort.hash, hnonneg entry hentry, le_trans hone hsum⟩
    rw [hsequence]
    unfold maxSafeInteger
    omega
  unfold evidenceManifest
  rw [hdeclared]
  exact Wire.buildEvidenceManifest_ok hdigest h.trip hcontiguous hkeys hdescribable
    (hlength ▸ hbatches) hsum complete

/-- In every state that the phone can reach with unbroken evidence the End of a trip can be
frozen, within the bounds of the encoder: no conflict, gap or repeated key refuses it. -/
theorem freezeEnd_succeeds (sha256 : Wire.Bytes → String) (hdigest : ∀ data, ShortText (sha256 data))
    (p : Phone) (h : ReachableBy (phone sha256) Unbroken p) (tripId : String) (complete : Bool)
    (uuid : Nat → String) (cutAt : Int)
    (hfresh : FreshKeys uuid (p.store.metaOrDefault tripId).batchesCut p.store)
    (hbatches : (p.store.metaOrDefault tripId).batchesCut + p.store.pendingCount tripId
      ≤ 0xFFFFFFFF)
    (hclosable : Closable p.store tripId uuid
      ((p.store.metaOrDefault tripId).batchesCut + p.store.pendingCount tripId)) :
    ∃ store manifest, freezeEnd sha256 tripId complete uuid cutAt p.store = .ok store
      ∧ (store.metaOrDefault tripId).endManifest = some manifest
      ∧ Wire.validateManifest sha256 tripId manifest.fields = .ok ⟨⟩ := by
  have hp := phoneInv_of_unbroken h
  have hfreeze : ∃ store, freezeEnd sha256 tripId complete uuid cutAt p.store = .ok store := by
    unfold freezeEnd
    split_ifs
    · exact ⟨p.store, rfl⟩
    · have hcut : ∃ cut, cutPending sha256 tripId uuid cutAt (p.store.pendingCount tripId) p.store
            = .ok cut ∧ Closable cut tripId uuid
            ((p.store.metaOrDefault tripId).batchesCut + p.store.pendingCount tripId)
          ∧ (cut.metaOrDefault tripId).batchesCut
            ≤ (p.store.metaOrDefault tripId).batchesCut + p.store.pendingCount tripId :=
        cutPending_ok hdigest hp.store hfresh hclosable (Nat.le_refl _)
      rcases hcut with ⟨cut, hcut, hbounds, hcount⟩
      have hadvance := (cutPending_advances hp.store hfresh hcut).1
      rcases evidenceManifest_ok hdigest hadvance.inv hbounds (le_trans hcount hbatches) complete
        with ⟨manifest, hmanifest⟩
      exact ⟨_, bind_eq_ok.mpr ⟨cut, hcut, bind_eq_ok.mpr ⟨manifest, hmanifest, rfl⟩⟩⟩
  rcases hfreeze with ⟨store, hfreeze⟩
  rcases freezeEnd_advances hp.store hfresh hfreeze with ⟨hadvance, manifest, hmanifest⟩
  rcases (hadvance.inv.trips tripId).frozen manifest hmanifest with ⟨_, _, hbuilt⟩
  exact ⟨store, manifest, hfreeze, hmanifest, Wire.validateManifest_of_built hbuilt⟩

/-- Short keys, and short hashes of the receipts, make short entries: a batch's hash is a digest. -/
theorem shortEntry_of_keys (hdigest : ∀ data, ShortText (sha256 data))
    (hs : QueueInv sha256 numbering s) (hkeys : ∀ key ∈ evidenceKeys s, ShortText key)
    (hreceipts : ∀ receipt ∈ s.receipts, ShortText receipt.payloadHash)
    {entry : EvidenceManifestEntry} (hentry : entry ∈ s.entriesOf tripId) : ShortEntry entry := by
  have hkey := hkeys _ (mem_evidenceKeys_of_entry hentry)
  have hhash : ∀ {pings : List QueuedPing} {hash : String},
      batchPayloadHash sha256 pings = .ok hash → ShortText hash := by
    intro pings hash h
    rcases batchPayloadHash_digest h with ⟨data, rfl⟩
    exact hdigest data
  simp only [Store.entriesOf, Multiset.mem_add, mem_gather, Multiset.mem_singleton] at hentry
  rcases hentry with (⟨receipt, hreceipt, _, rfl⟩ | ⟨batch, hbatch, _, rfl⟩) | ⟨dead, hdead, _, rfl⟩
  · exact ⟨hkey, rfl, hreceipts receipt hreceipt⟩
  · exact ⟨hkey, rfl, hhash (hs.hashed batch hbatch)⟩
  · exact ⟨hkey, rfl, hhash (hs.deadHashed dead hdead)⟩

/-- The other phone's evidence is all that was numbered before. -/
theorem learns_unbroken : ∀ a ∈ learns [otherReceipt 0 "server"], ∀ p,
    resumedOrder p a = true → Unbroken p a := by
  intro a ha p h
  refine ⟨learns_orderly (.inl rfl) a ha p h, ?_⟩
  rintro tripId receipts uuid rfl
  simp only [resumedOrder, Bool.and_eq_true, decide_eq_true_eq] at h
  have hreceipts : receipts = [otherReceipt 0 "server"] := by
    simp only [learns, List.mem_cons, List.not_mem_nil, or_false, reduceCtorEq, false_or,
      QueueAction.adoptServerEvidence.injEq] at ha
    exact ha.2.1
  have honly : ∀ receipt ∈ receipts, receipt = otherReceipt 0 "server" := by
    rw [hreceipts]
    exact fun receipt hreceipt => List.mem_singleton.mp hreceipt
  refine ⟨?_, ?_⟩
  · intro receipt hreceipt _ dead hdead hkey
    have hown : dead.key ∈ evidenceKeys p.store :=
      List.mem_append_left _ (List.mem_append_right _ (List.mem_map_of_mem hdead))
    rw [h.1, List.mem_singleton, hkey, honly receipt hreceipt] at hown
    exact absurd hown (by decide)
  · intro receipt hreceipt _ n hn
    rw [honly receipt hreceipt] at hn
    exact absurd hn (Nat.not_lt_zero n)

/-- A moved batch, a waiting ping and the other phone's receipt. -/
theorem freezeEnd_succeeds_resumed : ∃ p : Phone, p.store.pendingCount "trip" = 1
    ∧ evidenceKeys p.store = [sampleUuid 1, "server"]
    ∧ ∃ store manifest, freezeEnd sampleSha256 "trip" true sampleUuid 0 p.store = .ok store
      ∧ (store.metaOrDefault "trip").endManifest = some manifest := by
  rcases (phone sampleSha256).exists_reachableBy Unbroken _ learns_unbroken
    (fun p => evidenceKeys p.store = [sampleUuid 1, "server"]
      && p.store.pendingCount "trip" = 1
      && (p.store.metaOrDefault "trip").nextSeq = 2
      && (p.store.metaOrDefault "trip").pingsRecorded = 4
      && (p.store.metaOrDefault "trip").batchesCut = 2
      && (p.store.receipts.map (·.payloadHash)).all (· = "00c0ffee")) (by decide +kernel) with ⟨p, hp, htest⟩
  simp only [Bool.and_eq_true, decide_eq_true_eq, List.all_map, List.all_eq_true,
    Function.comp_apply] at htest
  rcases htest with ⟨⟨⟨⟨⟨hkeys, hpending⟩, hnext⟩, hrecorded⟩, hcut⟩, hhashes⟩
  have hdigest : ∀ data, ShortText (sampleSha256 data) :=
    fun data => Wire.shortText_ofList (by simp)
  have hshort : ∀ n, n < 3 → ShortText (sampleUuid n) := by
    intro n hn
    refine Wire.shortText_ofList ?_
    rw [List.length_replicate]
    omega
  have hkeyShort : ∀ key ∈ evidenceKeys p.store, ShortText key := by
    intro key hkey
    rw [hkeys, List.mem_cons, List.mem_singleton] at hkey
    rcases hkey with rfl | rfl
    · exact hshort 1 (by decide)
    · unfold ShortText
      decide +kernel
  have hhashShort : ∀ receipt ∈ p.store.receipts, ShortText receipt.payloadHash := by
    intro receipt hreceipt
    have hhash : receipt.payloadHash = "00c0ffee" := hhashes receipt hreceipt
    rw [hhash]
    unfold ShortText
    decide +kernel
  have hentries : ∀ entry ∈ p.store.entriesOf "trip", ShortEntry entry := fun entry =>
    shortEntry_of_keys hdigest (phoneInv_of_unbroken hp).store hkeyShort hhashShort
  have hclosable : Closable p.store "trip" sampleUuid
      ((p.store.metaOrDefault "trip").batchesCut + p.store.pendingCount "trip") := by
    refine ⟨?_, ?_, ?_, ?_, hentries⟩
    · unfold ShortText
      decide +kernel
    · rw [hcut, hpending]
      exact hshort
    · rw [hnext]
      decide
    · rw [hrecorded]
      decide
  have hfresh : FreshKeys sampleUuid (p.store.metaOrDefault "trip").batchesCut p.store := by
    refine ⟨sampleUuid_injective, ?_⟩
    intro n hn hmem
    rw [hcut] at hn
    rw [hkeys, List.mem_cons, List.mem_singleton] at hmem
    rcases hmem with hmoved | hserver
    · have hsame := sampleUuid_injective hmoved
      omega
    · exact sampleUuid_ne ⟨'s', by decide, by decide⟩ n hserver
  rcases freezeEnd_succeeds sampleSha256 hdigest p hp "trip" true sampleUuid 0 hfresh
    (by rw [hcut, hpending]; decide) hclosable with ⟨store, manifest, hfreeze, hmanifest, _⟩
  exact ⟨p, hpending, hkeys, store, manifest, hfreeze, hmanifest⟩

end

end Device
end Mobility
