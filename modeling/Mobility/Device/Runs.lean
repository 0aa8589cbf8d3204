import Mobility.Lib.Machine
import Mobility.Device.AdoptedStore

/-!
# Runs — the phone over any order of its operations

The store moves on with every operation; beside it stand the pings that `addPing` reported
as stored and that no `forgetTrip` took since.
-/

namespace Mobility
namespace Device

open Lib
open Wire (EvidenceManifest EvidenceManifestEntry)

inductive QueueAction
  | addPing (tripId : String) (fix : Fix)
  | cutBatch (tripId : String) (max : Nat) (key : String) (cutAt : Int)
  | acknowledgeBatch (batch : QueuedBatch) (receipt : EvidenceReceipt)
  | dropBatch (key : String) (status : Option Nat) (code : Option String) (now : Int)
  | recordAttempt (source : QueuedBatch)
  | freezeEnd (tripId : String) (complete : Bool) (uuid : Nat → String) (cutAt : Int)
  | reopenEnd (tripId : String)
  | adoptServerEvidence (tripId : String) (receipts : List EvidenceReceipt) (uuid : Nat → String)
  | forgetTrip (tripId : String)

structure Phone where
  store : Store := {}
  recorded : List (String × QueuedPing) := []

/-- Random keys are unused, an upload answers or reads a batch that is still stored, and the
server's evidence is as the server keeps it. -/
def Orderly (p : Phone) : QueueAction → Prop
  | .cutBatch _ _ key _ => key ∉ evidenceKeys p.store
  | .acknowledgeBatch batch _ => ∃ stored ∈ p.store.batches, SameBatch stored batch
  | .recordAttempt source => source ∈ p.store.batches
  | .freezeEnd tripId _ uuid _ =>
      FreshKeys uuid (p.store.metaOrDefault tripId).batchesCut p.store
  | .adoptServerEvidence tripId receipts uuid =>
      ServerEvidence p.store tripId receipts ∧ UnusedKeys uuid p.store receipts
  | _ => True

/-- Beyond that, the server's evidence is unbroken. -/
def Unbroken (p : Phone) (a : QueueAction) : Prop :=
  Orderly p a ∧ ∀ tripId receipts uuid, a = .adoptServerEvidence tripId receipts uuid →
    UnbrokenEvidence p.store tripId receipts

section

variable (sha256 : Wire.Bytes → String) (numbering : Numbering)

def phoneStep (p : Phone) : QueueAction → Except AppError Phone
  | .addPing tripId fix => do
      let store ← addPing tripId fix p.store
      return {
        store := store
        recorded := p.recorded ++ [(tripId, queuedPing p.store tripId fix)] }
  | .cutBatch tripId max key cutAt => do
      return { p with store := ← cutBatch sha256 tripId max key cutAt p.store }
  | .acknowledgeBatch batch receipt => do
      return { p with store := ← acknowledgeBatch batch receipt p.store }
  | .dropBatch key status code now => .ok { p with store := dropBatch key status code now p.store }
  | .recordAttempt source => .ok { p with store := recordAttempt source p.store }
  | .freezeEnd tripId complete uuid cutAt => do
      return { p with store := ← freezeEnd sha256 tripId complete uuid cutAt p.store }
  | .reopenEnd tripId => .ok { p with store := reopenEnd tripId p.store }
  | .adoptServerEvidence tripId receipts uuid =>
      .ok { p with store := adoptServerEvidence tripId receipts uuid p.store }
  | .forgetTrip tripId =>
      .ok {
        store := forgetTrip tripId p.store
        recorded := p.recorded.filter (·.1 ≠ tripId) }

def phone : Machine Phone QueueAction AppError where
  init := {}
  step := phoneStep sha256

/-- The invariant of the store, and every reported ping on the phone or covered. -/
structure PhoneInv (p : Phone) : Prop where
  store : QueueInv sha256 numbering p.store
  kept : ∀ report ∈ p.recorded, Kept sha256 p.store report.1 report.2

variable {sha256} {numbering} {p p' : Phone}

theorem PhoneInv.advance (hp : PhoneInv sha256 numbering p) {store : Store}
    (h : Advances sha256 numbering p.store store) : PhoneInv sha256 numbering { p with store := store } where
  store := h.inv
  kept := fun report hreport => h.keeps (hp.kept report hreport)

theorem phoneStep_inv {a : QueueAction} (hp : PhoneInv sha256 numbering p) (hallowed : Orderly p a)
    (hadopts : ∀ tripId receipts uuid, a = .adoptServerEvidence tripId receipts uuid →
      Adopts numbering tripId (adoptServerEvidence tripId receipts uuid p.store))
    (h : phoneStep sha256 p a = .ok p') : PhoneInv sha256 numbering p' := by
  cases a with
  | addPing tripId fix =>
      rcases bind_eq_ok.mp h with ⟨store, hadd, h⟩
      rw [← pure_eq_ok.mp h]
      have hadvance := addPing_advances hp.store hadd
      refine ⟨hadvance.inv, ?_⟩
      intro report hreport
      rcases List.mem_append.mp hreport with hold | hnew
      · exact hadvance.keeps (hp.kept report hold)
      · rw [List.mem_singleton.mp hnew]
        exact .inl (addPing_held hadd)
  | cutBatch tripId max key cutAt =>
      rcases bind_eq_ok.mp h with ⟨store, hcut, h⟩
      rw [← pure_eq_ok.mp h]
      exact hp.advance (cutBatch_advances hp.store hallowed hcut)
  | acknowledgeBatch batch receipt =>
      rcases bind_eq_ok.mp h with ⟨store, hack, h⟩
      rcases hallowed with ⟨stored, hstored, hsame⟩
      rw [← pure_eq_ok.mp h]
      exact hp.advance (acknowledgeBatch_advances hp.store hstored hsame hack)
  | dropBatch key status code now =>
      rw [← Except.ok.inj h]
      exact hp.advance (dropBatch_advances hp.store key status code now)
  | recordAttempt source =>
      rw [← Except.ok.inj h]
      exact hp.advance (recordAttempt_advances hp.store hallowed)
  | freezeEnd tripId complete uuid cutAt =>
      rcases bind_eq_ok.mp h with ⟨store, hfreeze, h⟩
      rw [← pure_eq_ok.mp h]
      exact hp.advance (freezeEnd_advances hp.store hallowed hfreeze).1
  | reopenEnd tripId =>
      rw [← Except.ok.inj h]
      exact hp.advance (reopenEnd_advances hp.store)
  | adoptServerEvidence tripId receipts uuid =>
      rw [← Except.ok.inj h]
      exact hp.advance (adoptServerEvidence_advances hp.store hallowed.1 hallowed.2
        (hadopts tripId receipts uuid rfl))
  | forgetTrip tripId =>
      rw [← Except.ok.inj h]
      refine ⟨forgetTrip_inv hp.store, ?_⟩
      intro report hreport
      have hother : report.1 ≠ tripId := by simpa using List.of_mem_filter hreport
      exact forgetTrip_kept hother (hp.kept report (List.mem_of_mem_filter hreport))

theorem phoneInv_of_run (h : ReachableBy (phone sha256) Orderly p) :
    PhoneInv sha256 distinctNumbers p := by
  refine h.invariant (PhoneInv sha256 distinctNumbers) ⟨queueInv_empty, by simp [phone]⟩ ?_
  intro p a p' hp hallowed hstep
  refine phoneStep_inv hp hallowed ?_ hstep
  rintro tripId receipts uuid rfl
  exact adoptServerEvidence_apart hp.store hallowed.1 hallowed.2

/-- With unbroken evidence only, no trip has a gap in its numbers. -/
theorem phoneInv_of_unbroken (h : ReachableBy (phone sha256) Unbroken p) :
    PhoneInv sha256 gaplessNumbers p := by
  refine h.invariant (PhoneInv sha256 gaplessNumbers) ⟨queueInv_empty, by simp [phone]⟩ ?_
  intro p a p' hp hallowed hstep
  refine phoneStep_inv hp hallowed.1 ?_ hstep
  rintro tripId receipts uuid rfl
  exact adoptServerEvidence_gapless hp.store hallowed.1.1 (hallowed.2 _ _ _ rfl) hallowed.1.2

/-! ## What a frozen manifest declares -/

/-- A ping of a trip that waits for nothing is declared by an entry that counts and hashes it. -/
theorem declared_of_kept {s : Store} {tripId : String} {ping : QueuedPing}
    (hs : QueueInv sha256 numbering s) (hnone : s.pendingOf tripId = 0) (h : Kept sha256 s tripId ping) :
    ∃ entry ∈ s.entriesOf tripId, ∃ pings : List QueuedPing, ping ∈ pings
      ∧ entry.submittedCount = pings.length
      ∧ batchPayloadHash sha256 pings = .ok entry.payloadHash := by
  have hmem : ∀ entry, (∃ receipt ∈ s.receipts, receipt.tripId = tripId ∧ receipt.entry = entry)
      ∨ (∃ batch ∈ s.batches, batch.tripId = tripId ∧ batch.entry = entry)
      ∨ (∃ dead ∈ s.deadLetters, dead.tripId = tripId ∧ dead.toQueuedBatch.entry = entry) →
      entry ∈ s.entriesOf tripId := by
    intro entry hentry
    simpa [Store.entriesOf, mem_gather, eq_comm, or_assoc] using hentry
  rcases h with hheld | ⟨receipt, hreceipt, htrip, pings, hping, hcount, hhash⟩
  · rcases mem_captured.mp hheld with ⟨record, hrecord, htrip, rfl⟩ | ⟨batch, hbatch, htrip, hping⟩
      | ⟨letter, hletter, htrip, hping⟩
    · have hwaits : record.ping ∈ s.pendingOf tripId :=
        mem_gather.mpr ⟨record, hrecord, by simp [htrip], by simp⟩
      rw [hnone] at hwaits
      exact absurd hwaits (Multiset.notMem_zero _)
    · exact ⟨batch.entry, hmem _ (.inr (.inl ⟨batch, hbatch, htrip, rfl⟩)), batch.pings, hping, rfl,
        hs.hashed batch hbatch⟩
    · exact ⟨letter.toQueuedBatch.entry, hmem _ (.inr (.inr ⟨letter, hletter, htrip, rfl⟩)),
        letter.pings, hping, rfl, hs.deadHashed letter hletter⟩
  · exact ⟨receipt.entry, hmem _ (.inl ⟨receipt, hreceipt, htrip, rfl⟩), pings, hping,
      congrArg Nat.cast hcount, hhash⟩

/-! ## Results -/

/-- However captures, cuts, replies, dead letters, retries, ends, reopenings and adoptions
follow each other, a ping that was reported as stored is on the phone, once, or a stored
receipt of its trip signs for a batch with it, until the trip is forgotten. -/
theorem recorded_ping_kept (sha256 : Wire.Bytes → String) (p : Phone)
    (h : ReachableBy (phone sha256) Orderly p) :
    (∀ report ∈ p.recorded, Kept sha256 p.store report.1 report.2)
    ∧ ∀ tripId, ((p.store.view tripId).captured.map (·.sequenceNumber)).Nodup :=
  have hp := phoneInv_of_run h
  ⟨hp.kept, fun tripId => (hp.store.trips tripId).distinct⟩

/-- A frozen manifest passes the server's check, is what the phone would build again at any
later time, counts every recorded ping of the trip, and declares each reported one. -/
theorem frozen_manifest_declares (sha256 : Wire.Bytes → String) (p : Phone)
    (h : ReachableBy (phone sha256) Orderly p) (tripId : String) (manifest : EvidenceManifest)
    (hfrozen : (p.store.metaOrDefault tripId).endManifest = some manifest) :
    Wire.validateManifest sha256 tripId manifest.fields = .ok ⟨⟩
    ∧ evidenceManifest sha256 p.store tripId manifest.complete = .ok manifest
    ∧ manifest.pingCount = (p.store.metaOrDefault tripId).pingsRecorded
    ∧ ∀ ping, (tripId, ping) ∈ p.recorded → ∃ entry ∈ manifest.entries, ∃ pings : List QueuedPing,
      ping ∈ pings ∧ entry.submittedCount = pings.length
      ∧ batchPayloadHash sha256 pings = .ok entry.payloadHash := by
  have hp := phoneInv_of_run h
  have htrip := hp.store.trips tripId
  rcases htrip.frozen manifest hfrozen with ⟨hnone, hentries, hbuilt⟩
  refine ⟨Wire.validateManifest_of_built hbuilt, evidenceManifest_frozen htrip hfrozen, ?_, ?_⟩
  · have hcounted := htrip.counted
    have hcount := (Wire.buildEvidenceManifest_eq_ok hbuilt).2.2.2.2.1
    rw [hnone, ← hentries, Multiset.card_zero, Nat.cast_zero, zero_add] at hcounted
    calc
      manifest.pingCount = (manifest.entries.map (·.submittedCount)).sum := hcount
      _ = declaredPings ↑manifest.entries := rfl
      _ = (p.store.metaOrDefault tripId).pingsRecorded := hcounted.symm
  · intro ping hping
    rcases declared_of_kept hp.store hnone (hp.kept _ hping) with ⟨entry, hentry, hrest⟩
    have hview : (p.store.view tripId).entries = p.store.entriesOf tripId := rfl
    rw [← hview, ← hentries] at hentry
    exact ⟨entry, hentry, hrest⟩

/-! ## A trip with evidence of another phone -/

/-- A checksum of 32 bits, in hexadecimal. -/
def sampleSha256 (data : Wire.Bytes) : String :=
  let sum := data.foldl (fun sum byte => (sum * 257 + byte.toNat) % 0x100000000) 1
  String.ofList ((List.range 8).map (fun i => Nat.digitChar (sum / 16 ^ i % 16)))

def sampleFix : Fix where
  recordedAt :=
    { year := 2026, month := 7, day := 1, hour := 12, minute := 0, second := 0, millisecond := 0
      year_range := by decide, month_range := by decide, day_range := by decide
      hour_lt := by decide, minute_lt := by decide, second_lt := by decide
      millisecond_lt := by decide, since_epoch := by decide }
  lat := ⟨⟨0⟩, by decide⟩
  lon := ⟨⟨0⟩, by decide⟩

/-- Keys of growing length. -/
def sampleUuid (n : Nat) : String := String.ofList (List.replicate (n + 1) 'b')

/-- Two pings that another phone sent. -/
def otherReceipt (batchSequence : Nat) (key : String) : EvidenceReceipt where
  tripId := "trip"
  batchId := "batch"
  batchSequence := batchSequence
  idempotencyKey := key
  payloadHash := "00c0ffee"
  submittedCount := 2
  acceptedCount := 2
  rejectedCount := 0
  outcome := "accepted"
  evidenceScope := .manifest
  receiptFormatVersion := 1
  receiptKeyVersion := 1
  receiptSignature := "signature"

/-- A phone that lost its record cuts a batch and learns what the server holds. -/
def learns (receipts : List EvidenceReceipt) : List QueueAction :=
  [ .addPing "trip" sampleFix,
    .cutBatch "trip" 40 "own" 0,
    .adoptServerEvidence "trip" receipts sampleUuid,
    .addPing "trip" sampleFix ]

/-- The batch between the two was refused for good. -/
def gappedReceipts : List EvidenceReceipt := [otherReceipt 0 "server", otherReceipt 2 "late"]

/-- The trip goes on and ends. -/
def resumedTrip : List QueueAction :=
  learns [otherReceipt 0 "server"] ++ [.freezeEnd "trip" true sampleUuid 0]

/-- The keys in use before each step: none, the phone's own, and then the server's and the one
that the moved batch got. -/
def resumedOrder (p : Phone) : QueueAction → Bool
  | .addPing _ _ => true
  | .cutBatch _ _ _ _ => evidenceKeys p.store = []
  | .adoptServerEvidence _ _ _ => evidenceKeys p.store = ["own"] && p.store.receipts = []
  | .freezeEnd _ _ _ _ => evidenceKeys p.store = [sampleUuid 1, "server"]
      && (p.store.metaOrDefault "trip").batchesCut = 2
  | _ => false

theorem sampleUuid_injective : Function.Injective sampleUuid := by
  intro n m h
  have hlength := congrArg (fun key : String => key.toList.length) h
  simpa [sampleUuid] using hlength

theorem sampleUuid_ne {key : String} (h : ∃ c ∈ key.toList, c ≠ 'b') (n : Nat) :
    sampleUuid n ≠ key := by
  rintro rfl
  rcases h with ⟨c, hc, hne⟩
  rw [sampleUuid, String.toList_ofList] at hc
  exact hne (List.eq_of_mem_replicate hc)

/-- Evidence of another phone, when this one knows no receipt yet. -/
theorem serverEvidence_other {receipts : List EvidenceReceipt} {p : Phone}
    (hkeys : evidenceKeys p.store = ["own"]) (hreceipts : p.store.receipts = [])
    (hsettled : ∀ receipt ∈ receipts,
      receipt.acceptedCount + receipt.rejectedCount = receipt.submittedCount)
    (hnumbered : ∀ receipt ∈ receipts, ∀ other ∈ receipts,
      (receipt.idempotencyKey = other.idempotencyKey ↔ receipt.batchSequence = other.batchSequence))
    (hother : ∀ receipt ∈ receipts, receipt.idempotencyKey ≠ "own") :
    ServerEvidence p.store "trip" receipts := by
  refine ⟨hsettled, ?_, ?_, by simp [hreceipts]⟩
  · intro receipt hreceipt _ other hknown
    rcases hknown with ⟨hlisted, _⟩ | hstored
    · exact hnumbered receipt hreceipt other hlisted
    · rw [Store.listReceipts, hreceipts] at hstored
      exact absurd hstored List.not_mem_nil
  · intro receipt hreceipt _ batch hbatch hkey
    have hown : batch.key ∈ evidenceKeys p.store :=
      List.mem_append_left _ (List.mem_append_left _ (List.mem_map_of_mem hbatch))
    rw [hkeys, List.mem_singleton] at hown
    exact absurd (hkey.symm.trans hown) (hother receipt hreceipt)

theorem unusedKeys_other {receipts : List EvidenceReceipt} {p : Phone}
    (hkeys : evidenceKeys p.store = ["own"])
    (hother : ∀ receipt ∈ receipts, ∃ c ∈ receipt.idempotencyKey.toList, c ≠ 'b') :
    UnusedKeys sampleUuid p.store receipts := by
  refine ⟨⟨sampleUuid_injective, ?_⟩, fun n receipt hreceipt => sampleUuid_ne (hother receipt hreceipt) n⟩
  intro n _ hmem
  rw [hkeys, List.mem_singleton] at hmem
  exact sampleUuid_ne ⟨'o', by decide, by decide⟩ n hmem

theorem learns_orderly {receipts : List EvidenceReceipt}
    (hreceipts : receipts = [otherReceipt 0 "server"] ∨ receipts = gappedReceipts) :
    ∀ a ∈ learns receipts, ∀ p, resumedOrder p a = true → Orderly p a := by
  have hsettled : ∀ receipt ∈ receipts,
      receipt.acceptedCount + receipt.rejectedCount = receipt.submittedCount := by
    rcases hreceipts with rfl | rfl <;> decide
  have hnumbered : ∀ receipt ∈ receipts, ∀ other ∈ receipts,
      (receipt.idempotencyKey = other.idempotencyKey
        ↔ receipt.batchSequence = other.batchSequence) := by
    rcases hreceipts with rfl | rfl <;> decide
  have hother : ∀ receipt ∈ receipts, receipt.idempotencyKey ≠ "own" := by
    rcases hreceipts with rfl | rfl <;> decide
  have hunused : ∀ receipt ∈ receipts, ∃ c ∈ receipt.idempotencyKey.toList, c ≠ 'b' := by
    have hany : ∀ receipt ∈ receipts, receipt.idempotencyKey.toList.any (· ≠ 'b') = true := by
      rcases hreceipts with rfl | rfl <;> decide
    intro receipt hreceipt
    rcases List.any_eq_true.mp (hany receipt hreceipt) with ⟨c, hc, hne⟩
    exact ⟨c, hc, of_decide_eq_true hne⟩
  intro a ha p h
  simp only [learns, List.mem_cons, List.not_mem_nil, or_false] at ha
  rcases ha with rfl | rfl | rfl | rfl
  · trivial
  · have hempty : evidenceKeys p.store = [] := of_decide_eq_true h
    exact fun hmem => List.not_mem_nil (hempty ▸ hmem)
  · simp only [resumedOrder, Bool.and_eq_true, decide_eq_true_eq] at h
    exact ⟨serverEvidence_other h.1 h.2 hsettled hnumbered hother, unusedKeys_other h.1 hunused⟩
  · trivial

theorem resumedTrip_orderly : ∀ a ∈ resumedTrip, ∀ p, resumedOrder p a = true → Orderly p a := by
  intro a ha p h
  rcases List.mem_append.mp ha with hlearns | hend
  · exact learns_orderly (.inl rfl) a hlearns p h
  · rw [List.mem_singleton.mp hend] at h ⊢
    simp only [resumedOrder, Bool.and_eq_true, decide_eq_true_eq] at h
    refine ⟨sampleUuid_injective, ?_⟩
    intro n hn hmem
    rw [h.2] at hn
    rw [h.1, List.mem_cons, List.mem_singleton] at hmem
    rcases hmem with hmoved | hserver
    · have hsame := sampleUuid_injective hmoved
      omega
    · exact sampleUuid_ne ⟨'s', by decide, by decide⟩ n hserver

/-- The server holds batches 0 and 2 of the trip. -/
theorem recorded_ping_kept_gapped : ∃ p : Phone, p.recorded.length = 2
    ∧ (p.store.metaOrDefault "trip").batchesCut = 4
    ∧ ∀ report ∈ p.recorded, Kept sampleSha256 p.store report.1 report.2 := by
  rcases (phone sampleSha256).exists_reachableBy Orderly _ (learns_orderly (.inr rfl))
    (fun p => p.recorded.length = 2 && (p.store.metaOrDefault "trip").batchesCut = 4)
    (by decide +kernel) with ⟨p, hp, htest⟩
  simp only [Bool.and_eq_true, decide_eq_true_eq] at htest
  exact ⟨p, htest.1, htest.2, (recorded_ping_kept sampleSha256 p hp).1⟩

/-- The other phone's two pings and the two of this one. -/
theorem frozen_manifest_declares_resumed : ∃ p : Phone, p.recorded.length = 2
    ∧ ∃ manifest : EvidenceManifest, manifest.entries.length = 3
      ∧ Wire.validateManifest sampleSha256 "trip" manifest.fields = .ok ⟨⟩
      ∧ manifest.pingCount = (p.store.metaOrDefault "trip").pingsRecorded := by
  rcases (phone sampleSha256).exists_reachableBy Orderly resumedTrip resumedTrip_orderly
    (fun p => p.recorded.length = 2
      && (p.store.metaOrDefault "trip").endManifest.any (·.entries.length = 3))
    (by decide +kernel) with ⟨p, hp, htest⟩
  simp only [Bool.and_eq_true, decide_eq_true_eq, Option.any_eq_true] at htest
  rcases htest with ⟨hrecorded, manifest, hmanifest, hentries⟩
  have hdeclares := frozen_manifest_declares sampleSha256 p hp "trip" manifest hmanifest
  exact ⟨p, hrecorded, manifest, hentries, hdeclares.1, hdeclares.2.2.1⟩

end

end Device
end Mobility
