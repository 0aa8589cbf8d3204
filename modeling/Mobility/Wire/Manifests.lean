import Mobility.Wire.Client
import Mathlib.Algebra.Order.BigOperators.Group.List

/-!
# Manifests — the phone's manifest, checked by the server

`buildEvidenceManifest` orders the declared entries and computes their root with the
phone's encoder.  The request schema accepts what the queue declares unchanged, and
`validate_manifest` recomputes the same root.
-/

namespace Mobility
namespace Wire

open Lib

/-! ## Manifests -/

structure EvidenceManifestEntry where
  batchSequence : Int
  idempotencyKey : String
  payloadHashVersion : Int := 2
  payloadHash : String
  submittedCount : Int
  deriving DecidableEq, Repr

structure EvidenceManifest where
  version : Int := 2
  rootSha256 : String
  pingCount : Int
  complete : Bool
  entries : List EvidenceManifestEntry
  deriving DecidableEq, Repr

def entryValue (entry : EvidenceManifestEntry) : ClientValue :=
  .object
    [("batch_sequence", .integer entry.batchSequence),
      ("idempotency_key", .string entry.idempotencyKey),
      ("payload_hash_version", .integer entry.payloadHashVersion),
      ("payload_hash", .string entry.payloadHash),
      ("submitted_count", .integer entry.submittedCount)]

def rootObject (tripId : Uuid) (batchCount pingCount : Int) (entryDigests : List String) :
    ClientValue :=
  .object
    [("version", .integer 2),
      ("trip_id", .string tripId),
      ("batch_count", .integer batchCount),
      ("ping_count", .integer pingCount),
      ("entry_digests", .array (entryDigests.map .string))]

/-- The entries by sequence, as `sort` leaves them. -/
def orderedEntries (entries : List EvidenceManifestEntry) : List EvidenceManifestEntry :=
  entries.insertionSort (fun left right => left.batchSequence - right.batchSequence ≤ 0)

/-- `batch_sequence === index` for every entry. -/
def contiguous (entries : List EvidenceManifestEntry) : Prop :=
  entries.map (·.batchSequence) = (List.range entries.length).map (fun index : Nat => (index : Int))

instance (entries : List EvidenceManifestEntry) : Decidable (contiguous entries) :=
  inferInstanceAs (Decidable (_ = _))

section

variable (sha256 : Bytes → String)

def clientDigest (domain : Bytes) (value : ClientValue) : Except AppError String := do
  return sha256 (← clientDomainBytes domain value)

/-- `buildEvidenceManifest`; the sum of safe counts is exact while it is safe. -/
def buildEvidenceManifest (tripId : Uuid) (entries : List EvidenceManifestEntry)
    (complete : Bool) : Except AppError EvidenceManifest := do
  let ordered := orderedEntries entries
  require (contiguous ordered ∧ (ordered.map (·.idempotencyKey)).Nodup)
    (clientError "evidence manifest entries must be unique, ordered, and contiguous")
  let entryDigests ← checkedMap
    (fun entry => clientDigest sha256 manifestEntryDomain (entryValue entry)) ordered
  let pingCount := (ordered.map (·.submittedCount)).sum
  let root ← clientDigest sha256 manifestDomain
    (rootObject tripId ordered.length pingCount entryDigests)
  return {
    rootSha256 := root
    pingCount := pingCount
    complete := complete
    entries := ordered }

end

/-! ## The request -/

def validationError : AppError :=
  { code := "VALIDATION_ERROR", message := "Request validation failed", statusCode := 422 }

/-- `str.isspace`. -/
def isSpace (c : Char) : Bool :=
  let n := c.toNat
  (9 ≤ n && n ≤ 13) || (28 ≤ n && n ≤ 32) || n = 0x85 || n = 0xA0 || n = 0x1680
    || (0x2000 ≤ n && n ≤ 0x200A) || n = 0x2028 || n = 0x2029 || n = 0x202F || n = 0x205F
    || n = 0x3000

/-- `str.strip`. -/
def strip (value : String) : String :=
  String.ofList ((value.toList.dropWhile isSpace).reverse.dropWhile isSpace).reverse

def normalizeRequiredText (value : String) : Except AppError String := do
  require (strip value ≠ "") validationError
  return strip value

/-- `^[0-9a-f]{64}$`. -/
def isHexDigest (value : String) : Bool :=
  value.toList.length = 64
    && value.toList.all (fun c => c ∈ "0123456789abcdef".toList)

def receiveEntry (entry : EvidenceManifestEntry) :
    Except AppError TripEvidenceManifestEntryCreate := do
  require (0 ≤ entry.batchSequence) validationError
  let idempotencyKey ← normalizeRequiredText entry.idempotencyKey
  require (entry.payloadHashVersion = 2) validationError
  require (isHexDigest entry.payloadHash = true) validationError
  require (0 ≤ entry.submittedCount) validationError
  return {
    batchSequence := entry.batchSequence
    idempotencyKey := idempotencyKey
    payloadHashVersion := entry.payloadHashVersion
    payloadHash := entry.payloadHash
    submittedCount := entry.submittedCount }

/-- The manifest as the request schema accepts it. -/
def receiveManifest (manifest : EvidenceManifest) : Except AppError TripEvidenceManifestCreate := do
  require (manifest.version = 2) validationError
  require (isHexDigest manifest.rootSha256 = true) validationError
  require (0 ≤ manifest.pingCount) validationError
  let entries ← checkedMap receiveEntry manifest.entries
  return {
    version := manifest.version
    rootSha256 := manifest.rootSha256
    pingCount := manifest.pingCount
    complete := manifest.complete
    entries := entries }

/-! ### The same fields -/

def EvidenceManifestEntry.fields (entry : EvidenceManifestEntry) :
    TripEvidenceManifestEntryCreate where
  batchSequence := entry.batchSequence
  idempotencyKey := entry.idempotencyKey
  payloadHashVersion := entry.payloadHashVersion
  payloadHash := entry.payloadHash
  submittedCount := entry.submittedCount

def EvidenceManifest.fields (manifest : EvidenceManifest) : TripEvidenceManifestCreate where
  version := manifest.version
  rootSha256 := manifest.rootSha256
  pingCount := manifest.pingCount
  complete := manifest.complete
  entries := manifest.entries.map (·.fields)

/-- What the queue declares: a key without outer blanks (a random UUID, or one the
server stored), the hash of a batch and the number of its pings. -/
structure Declared (entry : EvidenceManifestEntry) : Prop where
  key : strip entry.idempotencyKey = entry.idempotencyKey ∧ entry.idempotencyKey ≠ ""
  version : entry.payloadHashVersion = 2
  hash : isHexDigest entry.payloadHash = true
  count : 0 ≤ entry.submittedCount

/-! ### Digests -/

/-- The 32 bytes of a SHA-256 digest. -/
abbrev Digest32 := { bytes : Bytes // bytes.length = 32 }

/-- `hexdigest()`. -/
def hexdigest (sha256 : Bytes → Digest32) (data : Bytes) : String :=
  String.ofList ((sha256 data).1.flatMap (fun byte =>
    [Nat.digitChar (byte.toNat / 16), Nat.digitChar (byte.toNat % 16)]))

/-- `byte.toString(16).padStart(2, "0")`, joined. -/
def clientHexdigest (sha256 : Bytes → Digest32) (data : Bytes) : String :=
  String.ofList ((sha256 data).1.flatMap (fun byte =>
    let digits := Nat.toDigits 16 byte.toNat
    List.replicate (2 - digits.length) '0' ++ digits))

theorem clientHexdigest_eq (sha256 : Bytes → Digest32) :
    clientHexdigest sha256 = hexdigest sha256 := by
  have hbyte : ∀ n < 256, List.replicate (2 - (Nat.toDigits 16 n).length) '0' ++ Nat.toDigits 16 n
      = [Nat.digitChar (n / 16), Nat.digitChar (n % 16)] := by
    decide +kernel
  funext data
  unfold clientHexdigest hexdigest
  refine congrArg String.ofList (List.flatMap_congr (fun byte _ => ?_))
  exact hbyte byte.toNat byte.toNat_lt

theorem isHexDigest_hexdigest (sha256 : Bytes → Digest32) (data : Bytes) :
    isHexDigest (hexdigest sha256 data) = true := by
  have hdigit : ∀ n < 16, Nat.digitChar n ∈ "0123456789abcdef".toList := by decide +kernel
  have hlength : ∀ bytes : Bytes, (bytes.flatMap (fun byte =>
      [Nat.digitChar (byte.toNat / 16), Nat.digitChar (byte.toNat % 16)])).length
        = 2 * bytes.length := by
    intro bytes
    induction bytes with
    | nil => rfl
    | cons byte bytes ih =>
        rw [List.flatMap_cons, List.length_append, ih, List.length_cons, List.length_cons,
          List.length_cons, List.length_nil]
        omega
  unfold isHexDigest hexdigest
  rw [Bool.and_eq_true, decide_eq_true_eq, String.toList_ofList, hlength, (sha256 data).2]
  refine ⟨rfl, List.all_eq_true.mpr ?_⟩
  intro c hc
  rcases List.mem_flatMap.mp hc with ⟨byte, _, hc⟩
  have hlt := byte.toNat_lt
  simp only [List.mem_cons, List.not_mem_nil, or_false] at hc
  rcases hc with rfl | rfl
  · exact decide_eq_true (hdigit _ (by omega))
  · exact decide_eq_true (hdigit _ (by omega))

/-! ## The manifest is accepted -/

mutual

/-- What the phone encodes is safe. -/
theorem safe_of_clientBytes : (value : ClientValue) → ∀ {x : Bytes},
    clientBytes value = .ok x → Safe value
  | .null, _, _ => .null
  | .boolean value, _, _ => .boolean value
  | .integer value, x, h => by
      simp only [clientBytes, clientI64, bind_eq_ok, require_eq_ok, pure_eq_ok] at h
      rcases h with ⟨_, ⟨_, hrange, _⟩, _⟩
      exact .integer hrange.1 hrange.2
  | .fraction value, _, _ => .fraction value
  | .string value, _, _ => .string value
  | .float value, _, _ => .float value
  | .array items, x, h => by
      simp only [clientBytes, bind_eq_ok] at h
      rcases h with ⟨_, _, parts, hparts, _⟩
      exact .array (safe_of_clientEach items (ok_of_joined hparts))
  | .object entries, x, h => by
      simp only [clientBytes, bind_eq_ok] at h
      rcases h with ⟨_, _, parts, hparts, _⟩
      have hcodes : ∀ code ∈ (clientEntries entries).map (·.2), ∃ y, code = .ok y := by
        intro code hcode
        refine ok_of_joined hparts code ?_
        rw [clientSorted_eq]
        exact ((sortedByKey_perm _).map _).mem_iff.mp hcode
      exact .object (safe_of_clientEntries entries hcodes)

theorem safe_of_clientEach : (items : List ClientValue) →
    (∀ code ∈ clientEach items, ∃ y, code = .ok y) → ∀ item ∈ items, Safe item
  | [], _, _, hitem => absurd hitem List.not_mem_nil
  | first :: rest, h, item, hitem => by
      rcases List.mem_cons.mp hitem with hfirst | hrest
      · rcases h (clientBytes first) List.mem_cons_self with ⟨y, hy⟩
        exact hfirst ▸ safe_of_clientBytes first hy
      · exact safe_of_clientEach rest (fun code hc => h code (List.mem_cons_of_mem _ hc)) item hrest

theorem safe_of_clientEntries : (entries : List (String × ClientValue)) →
    (∀ code ∈ (clientEntries entries).map (·.2), ∃ y, code = .ok y) →
    ∀ entry ∈ entries, Safe entry.2
  | [], _, _, hentry => absurd hentry List.not_mem_nil
  | (key, first) :: rest, h, entry, hentry => by
      rcases List.mem_cons.mp hentry with hfirst | hrest
      · rcases h _ List.mem_cons_self with ⟨y, hy⟩
        simp only [bind_eq_ok] at hy
        rcases hy with ⟨_, _, body, hbody, _⟩
        exact hfirst ▸ safe_of_clientBytes first hbody
      · exact safe_of_clientEntries rest (fun code hc => h code (List.mem_cons_of_mem _ hc))
          entry hrest

end

section

variable {sha256 : Bytes → String}

/-- A digest computed on the phone is the one the server computes. -/
theorem domainDigest_of_client {domain : Bytes} {value : ClientValue} {digest : String}
    (h : clientDigest sha256 domain value = .ok digest) :
    domainDigest sha256 domain value.toValue = .ok digest := by
  simp only [clientDigest, clientDomainBytes, bind_eq_ok, pure_eq_ok] at h
  rcases h with ⟨_, ⟨code, hcode, rfl⟩, rfl⟩
  have hserver := (clientBytes_agree value (safe_of_clientBytes value hcode) code).mp hcode
  simp [domainDigest, domainBytes, hserver]

/-- The server recomputes the root of a manifest that the phone built. -/
theorem manifestRoot_of_client {tripId : Uuid} {ordered : List EvidenceManifestEntry}
    {pingCount : Int} {entryDigests : List String} {root : String}
    (hdigests : checkedMap
      (fun entry => clientDigest sha256 manifestEntryDomain (entryValue entry)) ordered
        = .ok entryDigests)
    (hroot : clientDigest sha256 manifestDomain
      (rootObject tripId ordered.length pingCount entryDigests) = .ok root) :
    manifestRoot sha256 tripId (ordered.map (·.fields)) pingCount = .ok root := by
  have hserver : checkedMap
      (fun entry => domainDigest sha256 manifestEntryDomain (manifestEntryValue entry))
        (ordered.map (·.fields)) = .ok entryDigests := by
    rw [checkedMap_map]
    exact checkedMap_of_forall₂ ((checkedMap_forall₂ hdigests).imp
      (fun entry digest h => domainDigest_of_client h))
  have hvalue : (rootObject tripId ordered.length pingCount entryDigests).toValue
      = manifestValue tripId (ordered.map (·.fields)).length pingCount entryDigests := by
    simp [rootObject, manifestValue, ClientValue.toValue, toItems, toValues_eq, manifestVersion]
  have hdigest := domainDigest_of_client hroot
  rw [hvalue] at hdigest
  simp only [manifestRoot, hserver]
  exact hdigest

/-- `buildEvidenceManifest` gives the entries in order, their count and their root. -/
theorem buildEvidenceManifest_eq_ok {tripId : Uuid} {entries : List EvidenceManifestEntry}
    {complete : Bool} {manifest : EvidenceManifest}
    (h : buildEvidenceManifest sha256 tripId entries complete = .ok manifest) :
    contiguous (orderedEntries entries) ∧ ((orderedEntries entries).map (·.idempotencyKey)).Nodup
      ∧ manifest.entries = orderedEntries entries ∧ manifest.version = 2
      ∧ manifest.pingCount = (manifest.entries.map (·.submittedCount)).sum
      ∧ manifestRoot sha256 tripId manifest.fields.entries manifest.pingCount
        = .ok manifest.rootSha256 := by
  simp only [buildEvidenceManifest, bind_eq_ok, require_eq_ok, pure_eq_ok] at h
  rcases h with ⟨_, ⟨hcontiguous, hkeys⟩, digests, hdigests, root, hroot, rfl⟩
  exact ⟨hcontiguous, hkeys, rfl, rfl, rfl, manifestRoot_of_client hdigests hroot⟩

theorem validateManifest_of_built {tripId : Uuid} {entries : List EvidenceManifestEntry}
    {complete : Bool} {manifest : EvidenceManifest}
    (h : buildEvidenceManifest sha256 tripId entries complete = .ok manifest) :
    validateManifest sha256 tripId manifest.fields = .ok ⟨⟩ := by
  rcases buildEvidenceManifest_eq_ok h with ⟨hcontiguous, hkeys, hentries, _, hcount, hroot⟩
  have hsequences : manifest.fields.entries.map (·.batchSequence)
      = (List.range manifest.fields.entries.length).map (fun index : Nat => (index : Int)) := by
    simp only [EvidenceManifest.fields, List.map_map, List.length_map, hentries]
    exact hcontiguous
  have hnodup : (manifest.fields.entries.map (·.idempotencyKey)).Nodup := by
    simp only [EvidenceManifest.fields, List.map_map, hentries]
    exact hkeys
  have hsum : (manifest.fields.entries.map (·.submittedCount)).sum
      = manifest.fields.pingCount := by
    simp only [EvidenceManifest.fields, List.map_map]
    exact hcount.symm
  have hserver : manifestRoot sha256 tripId manifest.fields.entries manifest.fields.pingCount
      = .ok manifest.fields.rootSha256 := hroot
  simp only [validateManifest, require_of hsequences, require_of hnodup, require_of hsum, hserver]
  exact require_of rfl

end

/-- What the queue declares is accepted unchanged. -/
theorem receiveEntry_declared {entry : EvidenceManifestEntry} (hsequence : 0 ≤ entry.batchSequence)
    (h : Declared entry) : receiveEntry entry = .ok entry.fields := by
  have hkey : normalizeRequiredText entry.idempotencyKey = .ok entry.idempotencyKey := by
    rw [normalizeRequiredText, h.key.1, require_of h.key.2]
    rfl
  simp only [receiveEntry, require_of hsequence, hkey, require_of h.version, require_of h.hash,
    require_of h.count]
  rfl

theorem receiveManifest_built {sha256 : Bytes → Digest32} {tripId : Uuid}
    {entries : List EvidenceManifestEntry} {complete : Bool} {manifest : EvidenceManifest}
    (h : buildEvidenceManifest (hexdigest sha256) tripId entries complete = .ok manifest)
    (hentries : ∀ entry ∈ entries, Declared entry) :
    receiveManifest manifest = .ok manifest.fields := by
  rcases buildEvidenceManifest_eq_ok h with ⟨hcontiguous, _, hordered, hversion, hcount, hroot⟩
  have hdeclared : ∀ entry ∈ manifest.entries, Declared entry := by
    intro entry hentry
    rw [hordered] at hentry
    exact hentries entry ((List.perm_insertionSort _ entries).mem_iff.mp hentry)
  -- the phone numbers its batches from zero
  have hsequences : ∀ entry ∈ manifest.entries, 0 ≤ entry.batchSequence := by
    intro entry hentry
    have hmem : entry.batchSequence
        ∈ (List.range (orderedEntries entries).length).map (fun index : Nat => (index : Int)) := by
      rw [← hcontiguous, ← hordered]
      exact List.mem_map_of_mem hentry
    rcases List.mem_map.mp hmem with ⟨index, _, hindex⟩
    exact hindex ▸ Int.natCast_nonneg index
  have hnonneg : 0 ≤ manifest.pingCount := by
    rw [hcount]
    refine List.sum_nonneg ?_
    intro count hmem
    rcases List.mem_map.mp hmem with ⟨entry, hentry, rfl⟩
    exact (hdeclared entry hentry).count
  have hhex : isHexDigest manifest.rootSha256 = true := by
    simp only [manifestRoot, bind_eq_ok] at hroot
    rcases hroot with ⟨_, _, hdigest⟩
    rcases domainDigest_eq_ok hdigest with ⟨code, _, hdigest⟩
    exact hdigest ▸ isHexDigest_hexdigest sha256 _
  have hreceived : checkedMap receiveEntry manifest.entries
      = .ok (manifest.entries.map (·.fields)) := by
    refine checkedMap_ok ?_
    intro entry hentry
    exact receiveEntry_declared (hsequences entry hentry) (hdeclared entry hentry)
  simp only [receiveManifest, require_of hversion, require_of hhex, require_of hnonneg, hreceived]
  rfl

/-- The phone and the server hash the same bytes of a batch, which every batch has, and
the manifest that the phone builds is received as it is and passes `validate_manifest`
with the same root. -/
theorem client_evidence_accepted (sha256 : Bytes → Digest32) :
    (∀ pings : List EvidencePing,
      (∀ x, clientBatchBytes pings = .ok x ↔ batchPayloadBytes (receivedBatch pings) = .ok x)
      ∧ (pings.length ≤ 0xFFFFFFFF → ∃ x, clientBatchBytes pings = .ok x))
    ∧ (∀ tripId entries complete manifest,
      buildEvidenceManifest (clientHexdigest sha256) tripId entries complete = .ok manifest →
      validateManifest (hexdigest sha256) tripId manifest.fields = .ok ⟨⟩
      ∧ manifestRoot (hexdigest sha256) tripId manifest.fields.entries manifest.fields.pingCount
        = .ok manifest.rootSha256
      ∧ ((∀ entry ∈ entries, Declared entry) → receiveManifest manifest = .ok manifest.fields)) := by
  refine ⟨?_, ?_⟩
  · intro pings
    refine ⟨clientBatchBytes_agree pings, ?_⟩
    intro hlength
    rcases batchPayloadBytes_ok hlength with ⟨x, hx⟩
    exact ⟨x, (clientBatchBytes_agree pings x).mpr hx⟩
  · intro tripId entries complete manifest h
    rw [clientHexdigest_eq] at h
    exact ⟨validateManifest_of_built h, (buildEvidenceManifest_eq_ok h).2.2.2.2.2,
      receiveManifest_built h⟩

/-- A checksum of 32 bits in 32 bytes. -/
def sampleDigest (data : Bytes) : Digest32 :=
  let sum := data.foldl (fun sum byte => (sum * 257 + byte.toNat) % 0x100000000) 1
  ⟨(List.range 32).map (fun i => UInt8.ofNat (sum / 2 ^ i)), by simp⟩

def sampleEntry (batchSequence : Int) (payload : Bytes) (submittedCount : Int) :
    EvidenceManifestEntry where
  batchSequence := batchSequence
  idempotencyKey := String.ofList (List.replicate (batchSequence.toNat + 1) 'b')
  payloadHash := hexdigest sampleDigest payload
  submittedCount := submittedCount

/-- Three batches, the last one first. -/
def sampleEntries : List EvidenceManifestEntry :=
  [sampleEntry 2 [4, 5] 4, sampleEntry 0 [1, 2] 2, sampleEntry 1 [3] 1]

theorem client_evidence_accepted_three :
    ∃ manifest, buildEvidenceManifest (clientHexdigest sampleDigest) "trip" sampleEntries true
        = .ok manifest
      ∧ validateManifest (hexdigest sampleDigest) "trip" manifest.fields = .ok ⟨⟩
      ∧ receiveManifest manifest = .ok manifest.fields := by
  have hbuilt : (buildEvidenceManifest (clientHexdigest sampleDigest) "trip" sampleEntries
      true).isOk = true := by decide +kernel
  rcases hmanifest : buildEvidenceManifest (clientHexdigest sampleDigest) "trip" sampleEntries true
    with e | manifest
  · rw [hmanifest] at hbuilt
    cases hbuilt
  · have haccepted := (client_evidence_accepted sampleDigest).2 "trip" sampleEntries true manifest
      hmanifest
    refine ⟨manifest, rfl, haccepted.1, haccepted.2.2 ?_⟩
    have hdeclared : ∀ entry ∈ sampleEntries,
        (strip entry.idempotencyKey = entry.idempotencyKey ∧ entry.idempotencyKey ≠ "")
          ∧ entry.payloadHashVersion = 2 ∧ isHexDigest entry.payloadHash = true
          ∧ 0 ≤ entry.submittedCount := by
      decide +kernel
    intro entry hentry
    rcases hdeclared entry hentry with ⟨hkey, hversion, hhash, hcount⟩
    exact ⟨hkey, hversion, hhash, hcount⟩

end Wire
end Mobility
