import Mobility.Lib.Table
import Mobility.Wire.Canonical
import Mobility.Wire.Timestamps

/-!
# Payloads — what the server hashes (`services/trip_evidence.py`)

A batch is identified by the hash of its canonical pings, a manifest by the root over
the digests of its entries.  Under a collision-free hash neither can be shared: the
canonical content of a batch, and everything a root is computed from, are determined
by it.
-/

namespace Mobility
namespace Wire

open Lib

/-! ## Requests -/

/-- A UUID, by its canonical text. -/
abbrev Uuid := String

/-- `LocationPingCreate`. -/
structure LocationPingCreate where
  recordedAt : UtcDateTime
  lat : Binary64
  lon : Binary64
  accuracyM : Option Binary64 := none
  speedMps : Option Binary64 := none
  headingDegrees : Option Binary64 := none
  altitudeM : Option Binary64 := none
  sequenceNumber : Option Nat := none
  metadata : List (String × Value) := []

/-- `LocationPingBatchCreate`, the part that is hashed. -/
structure LocationPingBatchCreate where
  pings : List LocationPingCreate
  metadata : List (String × Value) := []

structure TripEvidenceManifestEntryCreate where
  batchSequence : Int
  idempotencyKey : String
  payloadHashVersion : Int := 2
  payloadHash : String
  submittedCount : Int
  deriving DecidableEq, Repr

structure TripEvidenceManifestCreate where
  version : Int := 2
  rootSha256 : String
  pingCount : Int
  complete : Bool
  entries : List TripEvidenceManifestEntryCreate
  deriving DecidableEq, Repr

/-! ## Hashes -/

def batchDomain : Bytes := utf8 "cardvert.trip-batch.v2\x00"

def manifestEntryDomain : Bytes := utf8 "cardvert.trip-manifest-entry.v2\x00"

def manifestDomain : Bytes := utf8 "cardvert.trip-manifest.v2\x00"

def manifestVersion : Int := 2

def optionalFloat : Option Binary64 → Value
  | none => .none
  | some value => .float value

def optionalInt : Option Nat → Value
  | none => .none
  | some value => .int value

def pingValue (ping : LocationPingCreate) (recordedAtMs : Int) : Value :=
  .dict
    [("recorded_at_ms", .int recordedAtMs),
      ("lat", .float ping.lat),
      ("lon", .float ping.lon),
      ("accuracy_m", optionalFloat ping.accuracyM),
      ("speed_mps", optionalFloat ping.speedMps),
      ("heading_degrees", optionalFloat ping.headingDegrees),
      ("altitude_m", optionalFloat ping.altitudeM),
      ("sequence_number", optionalInt ping.sequenceNumber),
      ("metadata", .dict ping.metadata)]

def canonicalPing (ping : LocationPingCreate) : Except AppError Value := do
  let recordedAtMs ← epochMilliseconds ping.recordedAt
  return pingValue ping recordedAtMs

def canonicalPingPayload (payload : LocationPingBatchCreate) : Except AppError Value := do
  let pings ← checkedMap canonicalPing payload.pings
  return .dict [("pings", .list pings), ("metadata", .dict payload.metadata)]

def manifestEntryValue (entry : TripEvidenceManifestEntryCreate) : Value :=
  .dict
    [("batch_sequence", .int entry.batchSequence),
      ("idempotency_key", .str entry.idempotencyKey),
      ("payload_hash_version", .int entry.payloadHashVersion),
      ("payload_hash", .str entry.payloadHash),
      ("submitted_count", .int entry.submittedCount)]

/-- What the root of a manifest is computed from, its entries by their digests. -/
def manifestValue (tripId : Uuid) (batchCount pingCount : Int) (entryDigests : List String) :
    Value :=
  .dict
    [("version", .int manifestVersion),
      ("trip_id", .str tripId),
      ("batch_count", .int batchCount),
      ("ping_count", .int pingCount),
      ("entry_digests", .list (entryDigests.map .str))]

section

-- `sha256` is the hexadecimal digest
variable (sha256 : Bytes → String)

/-- What is hashed for a canonical value: its code behind the name of its domain. -/
def domainBytes (domain : Bytes) (value : Value) : Except AppError Bytes := do
  return domain ++ (← canonicalBytes value)

def domainDigest (domain : Bytes) (value : Value) : Except AppError String := do
  return sha256 (← domainBytes domain value)

/-- What `batch_payload_hash` hashes. -/
def batchPayloadBytes (payload : LocationPingBatchCreate) : Except AppError Bytes := do
  let value ← canonicalPingPayload payload
  domainBytes batchDomain value

def batchPayloadHash (payload : LocationPingBatchCreate) : Except AppError String := do
  return sha256 (← batchPayloadBytes payload)

def manifestRoot (tripId : Uuid) (entries : List TripEvidenceManifestEntryCreate)
    (pingCount : Int) : Except AppError String := do
  let entryDigests ← checkedMap
    (fun entry => domainDigest sha256 manifestEntryDomain (manifestEntryValue entry)) entries
  domainDigest sha256 manifestDomain (manifestValue tripId entries.length pingCount entryDigests)

def manifestInvalid (message : String) : AppError :=
  { code := "TRIP_EVIDENCE_MANIFEST_INVALID", message := message }

def validateManifest (tripId : Uuid) (manifest : TripEvidenceManifestCreate) :
    Except AppError Unit := do
  require (manifest.entries.map (·.batchSequence)
      = (List.range manifest.entries.length).map (fun index : Nat => (index : Int)))
    (manifestInvalid "Evidence manifest batch sequences must be ordered and contiguous")
  require (manifest.entries.map (·.idempotencyKey)).Nodup
    (manifestInvalid "Evidence manifest contains a duplicate idempotency key")
  require ((manifest.entries.map (·.submittedCount)).sum = manifest.pingCount)
    (manifestInvalid "Evidence manifest ping count does not match its entries")
  let root ← manifestRoot sha256 tripId manifest.entries manifest.pingCount
  require (root = manifest.rootSha256)
    (manifestInvalid "Evidence manifest root does not match its content")

end

/-! ## Reading equal values -/

theorem Same.int_eq {m n : Int} (h : Same (.int m) (.int n)) : m = n := by
  cases h
  rfl

theorem Same.str_eq {s t : String} (h : Same (.str s) (.str t)) : s = t := by
  cases h
  rfl

theorem Same.strs_eq {xs ys : List String} (h : Same (.list (xs.map .str)) (.list (ys.map .str))) :
    xs = ys := by
  cases h with
  | list hsame =>
      rw [List.forall₂_map_left_iff, List.forall₂_map_right_iff] at hsame
      exact List.forall₂_eq_eq_eq ▸ hsame.imp (fun _ _ h => h.str_eq)

/-- Equal dicts agree under each key. -/
theorem Same.item {xs ys : List (String × Value)} (h : Same (.dict xs) (.dict ys))
    (hnodup : (ys.map (·.1)).Nodup) (key : String) {v w : Value} (hv : (key, v) ∈ xs)
    (hw : (key, w) ∈ ys) : Same v w := by
  cases h with
  | dict hxs hys hkeys hvalues =>
      rename_i xs' ys'
      rw [List.forall₂_map_left_iff, List.forall₂_map_right_iff] at hvalues
      have hpairs := forall₂_and_of_map_eq hkeys hvalues
      rcases exists_of_mem_forall₂_left hpairs (hxs.mem_iff.mp hv) with ⟨y, hy, hkey, hsame⟩
      have hyw : y = (key, w) :=
        eq_of_key_eq hnodup (hys.mem_iff.mpr hy) hw hkey.symm
      rw [hyw] at hsame
      exact hsame

/-! ## Determined by the hash -/

section

variable {sha256 : Bytes → String}

theorem domainBytes_eq_ok {domain : Bytes} {value : Value} {x : Bytes} :
    domainBytes domain value = .ok x ↔ ∃ code, canonicalBytes value = .ok code ∧ domain ++ code = x := by
  simp [domainBytes]

theorem domainDigest_eq_ok {domain : Bytes} {value : Value} {digest : String}
    (h : domainDigest sha256 domain value = .ok digest) :
    ∃ code, canonicalBytes value = .ok code ∧ sha256 (domain ++ code) = digest := by
  simpa [domainDigest, domainBytes_eq_ok] using h

/-- One digest of one domain is the digest of one value. -/
theorem domainDigest_same (hsha : Function.Injective sha256) {domain : Bytes} {v w : Value}
    {digest : String} (hv : domainDigest sha256 domain v = .ok digest)
    (hw : domainDigest sha256 domain w = .ok digest) : Same v w := by
  rcases domainDigest_eq_ok hv with ⟨x, hx, hdigest⟩
  rcases domainDigest_eq_ok hw with ⟨y, hy, hdigest'⟩
  have hcode : x = y := List.append_cancel_left (hsha (hdigest.trans hdigest'.symm))
  exact (canonicalBytes_readsBack v).injective hx (hcode ▸ hy)

theorem manifestEntryValue_injective {e e' : TripEvidenceManifestEntryCreate}
    (h : Same (manifestEntryValue e) (manifestEntryValue e')) : e = e' := by
  have hitem := h.item (by simp)
  have hsequence : Same (.int e.batchSequence) (.int e'.batchSequence) :=
    hitem "batch_sequence" (by simp) (by simp)
  have hkey : Same (.str e.idempotencyKey) (.str e'.idempotencyKey) :=
    hitem "idempotency_key" (by simp) (by simp)
  have hversion : Same (.int e.payloadHashVersion) (.int e'.payloadHashVersion) :=
    hitem "payload_hash_version" (by simp) (by simp)
  have hhash : Same (.str e.payloadHash) (.str e'.payloadHash) :=
    hitem "payload_hash" (by simp) (by simp)
  have hcount : Same (.int e.submittedCount) (.int e'.submittedCount) :=
    hitem "submitted_count" (by simp) (by simp)
  rw [TripEvidenceManifestEntryCreate.mk.injEq]
  exact ⟨hsequence.int_eq, hkey.str_eq, hversion.int_eq, hhash.str_eq, hcount.int_eq⟩

theorem manifestValue_injective {tripId tripId' : Uuid} {batches batches' pings pings' : Int}
    {digests digests' : List String}
    (h : Same (manifestValue tripId batches pings digests)
      (manifestValue tripId' batches' pings' digests')) :
    tripId = tripId' ∧ pings = pings' ∧ digests = digests' := by
  have hitem := h.item (by simp)
  have htrip : Same (.str tripId) (.str tripId') := hitem "trip_id" (by simp) (by simp)
  have hpings : Same (.int pings) (.int pings') := hitem "ping_count" (by simp) (by simp)
  have hdigests : Same (.list (digests.map .str)) (.list (digests'.map .str)) :=
    hitem "entry_digests" (by simp) (by simp)
  exact ⟨htrip.str_eq, hpings.int_eq, hdigests.strs_eq⟩

theorem batchPayloadHash_same (hsha : Function.Injective sha256)
    {payload other : LocationPingBatchCreate} {digest : String}
    (h : batchPayloadHash sha256 payload = .ok digest)
    (h' : batchPayloadHash sha256 other = .ok digest) :
    ∃ v w, canonicalPingPayload payload = .ok v ∧ canonicalPingPayload other = .ok w
      ∧ Same v w := by
  simp only [batchPayloadHash, batchPayloadBytes, bind_eq_ok, pure_eq_ok] at h h'
  rcases h with ⟨x, ⟨v, hv, hx⟩, hdigest⟩
  rcases h' with ⟨y, ⟨w, hw, hy⟩, hdigest'⟩
  refine ⟨v, w, hv, hw, ?_⟩
  have hsame : x = y := hsha (hdigest.trans hdigest'.symm)
  subst hsame
  rcases domainBytes_eq_ok.mp hx with ⟨code, hcode, rfl⟩
  rcases domainBytes_eq_ok.mp hy with ⟨code', hcode', happend⟩
  exact (canonicalBytes_readsBack v).injective hcode (List.append_cancel_left happend ▸ hcode')

theorem manifestRoot_same (hsha : Function.Injective sha256) {tripId tripId' : Uuid}
    {entries entries' : List TripEvidenceManifestEntryCreate} {pings pings' : Int} {root : String}
    (h : manifestRoot sha256 tripId entries pings = .ok root)
    (h' : manifestRoot sha256 tripId' entries' pings' = .ok root) :
    tripId = tripId' ∧ entries = entries' ∧ pings = pings' := by
  rcases bind_eq_ok.mp h with ⟨digests, hdigests, hroot⟩
  rcases bind_eq_ok.mp h' with ⟨digests', hdigests', hroot'⟩
  rcases manifestValue_injective (domainDigest_same hsha hroot hroot') with
    ⟨htrip, hpings, hsame⟩
  refine ⟨htrip, ?_, hpings⟩
  -- equal digests, entry by entry
  subst hsame
  have hleft := checkedMap_forall₂ hdigests
  have hright := checkedMap_forall₂ hdigests'
  clear hdigests hdigests' hroot hroot' h h'
  induction hleft generalizing entries' with
  | nil =>
      cases hright
      rfl
  | cons hdigest _ ih =>
      cases hright with
      | cons hdigest' hrest' =>
          have hentry :=
            manifestEntryValue_injective (domainDigest_same hsha hdigest hdigest')
          rw [hentry, ih hrest']

/-- Canonical evidence is determined by its bytes, and under a collision-free hash by its
hash: no two values share a code and none extends another's; no two contents share a
payload hash; no two manifests share a root. -/
theorem canonical_evidence_injective (sha256 : Bytes → String)
    (hsha : Function.Injective sha256) :
    (∀ v w x, canonicalBytes v = .ok x → canonicalBytes w = .ok x → Same v w)
    ∧ (∀ v w x y, canonicalBytes v = .ok x → canonicalBytes w = .ok y → x <+: y → x = y)
    ∧ (∀ payload other digest, batchPayloadHash sha256 payload = .ok digest →
        batchPayloadHash sha256 other = .ok digest →
        ∃ v w, canonicalPingPayload payload = .ok v ∧ canonicalPingPayload other = .ok w
          ∧ Same v w)
    ∧ (∀ tripId tripId' entries entries' pings pings' root,
        manifestRoot sha256 tripId entries pings = .ok root →
        manifestRoot sha256 tripId' entries' pings' = .ok root →
        tripId = tripId' ∧ entries = entries' ∧ pings = pings') := by
  refine ⟨?_, ?_, ?_, ?_⟩
  · intro v w x hv hw
    exact (canonicalBytes_readsBack v).injective hv hw
  · intro v w x y hv hw hfront
    exact (canonicalBytes_readsBack v).prefixFree hv hw hfront
  · intro payload other digest h h'
    exact batchPayloadHash_same hsha h h'
  · intro tripId tripId' entries entries' pings pings' root h h'
    exact manifestRoot_same hsha h h'

/-- A collision-free digest: every byte as one character. -/
def spelled (bytes : Bytes) : String :=
  String.ofList (bytes.map (fun byte => Char.ofNat byte.toNat))

theorem spelled_injective : Function.Injective spelled := by
  intro x y h
  have hchars : x.map (fun byte => Char.ofNat byte.toNat)
      = y.map (fun byte => Char.ofNat byte.toNat) := by
    have htext := congrArg String.toList h
    simpa only [spelled, String.toList_ofList] using htext
  refine List.map_injective_iff.mpr ?_ hchars
  intro a b hab
  have hvalid : ∀ byte : UInt8, (Char.ofNat byte.toNat).toNat = byte.toNat := by
    intro byte
    have hlt := byte.toNat_lt
    have hscalar : byte.toNat.isValidChar := .inl (by omega)
    unfold Char.ofNat
    rw [dif_pos hscalar]
    rfl
  have htoNat := congrArg Char.toNat hab
  rw [hvalid a, hvalid b] at htoNat
  exact UInt8.toNat_inj.mp htoNat

/-- A batch of a manifest that declares several. -/
def sampleEntryCreate (batchSequence : Int) (payload : Bytes) (submittedCount : Int) :
    TripEvidenceManifestEntryCreate where
  batchSequence := batchSequence
  idempotencyKey := String.ofList (List.replicate (batchSequence.toNat + 1) 'b')
  payloadHash := spelled payload
  submittedCount := submittedCount

/-- Three batches, the second one with this payload. -/
def sampleEntriesCreate (payload : Bytes) : List TripEvidenceManifestEntryCreate :=
  [sampleEntryCreate 0 [1, 2] 2, sampleEntryCreate 1 payload 1, sampleEntryCreate 2 [4, 5] 4]

/-- The root tells apart two manifests that differ in the hash of their second batch. -/
theorem canonical_evidence_injective_spelled :
    ∃ root, manifestRoot spelled "trip" (sampleEntriesCreate [3]) 7 = .ok root
      ∧ manifestRoot spelled "trip" (sampleEntriesCreate [6]) 7 ≠ .ok root := by
  have hroot : (manifestRoot spelled "trip" (sampleEntriesCreate [3]) 7).isOk = true := by
    decide +kernel
  rcases hcode : manifestRoot spelled "trip" (sampleEntriesCreate [3]) 7 with e | root
  · rw [hcode] at hroot
    cases hroot
  · refine ⟨root, rfl, ?_⟩
    intro hsame
    have hentries := ((canonical_evidence_injective spelled spelled_injective).2.2.2
      _ _ _ _ _ _ _ hcode hsame).2.1
    exact absurd hentries (by decide)

end

end Wire
end Mobility
