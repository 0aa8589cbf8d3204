import Mobility.Wire.Manifests

/-!
# Buildable — when the phone's manifest can be built

The encoder refuses numbers that are not safe integers and texts or lists longer than a
32-bit length.  Below these bounds contiguous entries with different keys have a manifest.
-/

namespace Mobility
namespace Wire

open Lib

/-- A text whose bytes a 32-bit length counts. -/
def ShortText (value : String) : Prop := (utf8 value).length ≤ 0xFFFFFFFF

/-- A character takes four bytes at most. -/
theorem shortText_ofList {chars : List Char} (h : chars.length ≤ 0x3FFFFFFF) :
    ShortText (String.ofList chars) := by
  have hbytes : utf8 (String.ofList chars) = chars.flatMap String.utf8EncodeChar := by
    unfold utf8
    simp [String.toByteArray_ofList, List.utf8Encode]
  have hsum : (chars.map (fun c => (String.utf8EncodeChar c).length)).sum
      ≤ (chars.map (fun _ => 4)).sum := by
    apply List.sum_le_sum
    intro c _
    simpa using Char.utf8Size_le_four c
  simp only [List.map_const', List.sum_replicate_nat] at hsum
  rw [ShortText, hbytes, List.length_flatMap]
  omega

/-- An entry that can be encoded. -/
structure Describable (entry : EvidenceManifestEntry) : Prop where
  sequence : 0 ≤ entry.batchSequence ∧ entry.batchSequence ≤ maxSafeInteger
  key : ShortText entry.idempotencyKey
  version : entry.payloadHashVersion = 2
  hash : ShortText entry.payloadHash
  count : 0 ≤ entry.submittedCount ∧ entry.submittedCount ≤ maxSafeInteger

section

variable {sha256 : Bytes → String}

theorem encodable_str {value : String} (h : ShortText value) : Encodable (.str value) := by
  rcases canonicalStr_ok h with ⟨x, hx⟩
  exact ⟨x, by rw [canonicalBytes, hx]⟩

theorem encodable_safe {value : Int} (hlow : 0 ≤ value) (hhigh : value ≤ maxSafeInteger) :
    Encodable (.int value) := by
  unfold maxSafeInteger at hhigh
  exact encodable_int (by omega) (by omega)

theorem safe_integer {value : Int} (hlow : 0 ≤ value) (hhigh : value ≤ maxSafeInteger) :
    Safe (.integer value) :=
  .integer (le_trans (by decide) hlow) hhigh

/-- What the server could encode the phone encodes. -/
theorem clientDigest_ok {domain : Bytes} {value : ClientValue} (hsafe : Safe value)
    (h : Encodable value.toValue) :
    ∃ digest, clientDigest sha256 domain value = .ok digest ∧ ∃ data, digest = sha256 data := by
  rcases h with ⟨code, hcode⟩
  have hclient := (clientBytes_agree value hsafe code).mpr hcode
  refine ⟨sha256 (domain ++ code), ?_, domain ++ code, rfl⟩
  simp [clientDigest, clientDomainBytes, hclient]

theorem entryDigest_ok {entry : EvidenceManifestEntry} (h : Describable entry) :
    ∃ digest, clientDigest sha256 manifestEntryDomain (entryValue entry) = .ok digest
      ∧ ∃ data, digest = sha256 data := by
  have hversion : 0 ≤ entry.payloadHashVersion ∧ entry.payloadHashVersion ≤ maxSafeInteger := by
    rw [h.version]
    decide
  refine clientDigest_ok ?_ ?_
  · refine .object ?_
    intro item hitem
    simp only [List.mem_cons, List.not_mem_nil, or_false] at hitem
    rcases hitem with rfl | rfl | rfl | rfl | rfl
    · exact safe_integer h.sequence.1 h.sequence.2
    · exact .string _
    · exact safe_integer hversion.1 hversion.2
    · exact .string _
    · exact safe_integer h.count.1 h.count.2
  · refine encodable_dict (by simp [toItems]) ?_ ?_
    · simp only [toItems, List.map_cons, List.map_nil]
      decide +kernel
    · intro item hitem
      simp only [toItems, ClientValue.toValue, List.mem_cons, List.not_mem_nil, or_false] at hitem
      rcases hitem with rfl | rfl | rfl | rfl | rfl
      · exact encodable_safe h.sequence.1 h.sequence.2
      · exact encodable_str h.key
      · exact encodable_safe hversion.1 hversion.2
      · exact encodable_str h.hash
      · exact encodable_safe h.count.1 h.count.2

theorem rootDigest_ok {tripId : Uuid} {batchCount : Nat} {pingCount : Int}
    {entryDigests : List String} (htrip : ShortText tripId) (hbatches : batchCount ≤ 0xFFFFFFFF)
    (hlength : entryDigests.length = batchCount) (hlow : 0 ≤ pingCount)
    (hhigh : pingCount ≤ maxSafeInteger) (hdigests : ∀ digest ∈ entryDigests, ShortText digest) :
    ∃ digest, clientDigest sha256 manifestDomain
      (rootObject tripId batchCount pingCount entryDigests) = .ok digest := by
  have hcount : (0 : Int) ≤ batchCount ∧ (batchCount : Int) ≤ maxSafeInteger := by
    unfold maxSafeInteger
    omega
  have hroot : Safe (rootObject tripId batchCount pingCount entryDigests)
      ∧ Encodable (rootObject tripId batchCount pingCount entryDigests).toValue := by
    constructor
    · refine .object ?_
      intro item hitem
      simp only [List.mem_cons, List.not_mem_nil, or_false] at hitem
      rcases hitem with rfl | rfl | rfl | rfl | rfl
      · exact safe_integer (by decide) (by decide)
      · exact .string _
      · exact safe_integer hcount.1 hcount.2
      · exact safe_integer hlow hhigh
      · refine .array ?_
        intro digest hdigest
        rcases List.mem_map.mp hdigest with ⟨text, _, rfl⟩
        exact .string text
    · refine encodable_dict (by simp [toItems]) ?_ ?_
      · simp only [toItems, List.map_cons, List.map_nil]
        decide +kernel
      · intro item hitem
        simp only [toItems, ClientValue.toValue, List.mem_cons, List.not_mem_nil, or_false] at hitem
        rcases hitem with rfl | rfl | rfl | rfl | rfl
        · exact encodable_safe (by decide) (by decide)
        · exact encodable_str htrip
        · exact encodable_safe hcount.1 hcount.2
        · exact encodable_safe hlow hhigh
        · refine encodable_list ?_ ?_
          · simpa [toValues_eq, hlength] using hbatches
          · intro value hvalue
            rw [toValues_eq, List.map_map] at hvalue
            rcases List.mem_map.mp hvalue with ⟨text, htext, rfl⟩
            exact encodable_str (hdigests text htext)
  rcases clientDigest_ok hroot.1 hroot.2 with ⟨digest, hdigest, _⟩
  exact ⟨digest, hdigest⟩

/-- Entries numbered from zero, with different keys and within bounds, have a manifest. -/
theorem buildEvidenceManifest_ok {tripId : Uuid} {entries : List EvidenceManifestEntry}
    (hdigest : ∀ data, ShortText (sha256 data)) (htrip : ShortText tripId)
    (hcontiguous : contiguous (orderedEntries entries))
    (hkeys : (entries.map (·.idempotencyKey)).Nodup) (hentries : ∀ entry ∈ entries, Describable entry)
    (hlength : entries.length ≤ 0xFFFFFFFF)
    (hcount : (entries.map (·.submittedCount)).sum ≤ maxSafeInteger) (complete : Bool) :
    ∃ manifest, buildEvidenceManifest sha256 tripId entries complete = .ok manifest := by
  have hperm : (orderedEntries entries).Perm entries := List.perm_insertionSort _ entries
  have hordered : ((orderedEntries entries).map (·.idempotencyKey)).Nodup :=
    (hperm.map _).nodup_iff.mpr hkeys
  have hsum : ((orderedEntries entries).map (·.submittedCount)).sum
      = (entries.map (·.submittedCount)).sum := (hperm.map _).sum_eq
  have hnonneg : 0 ≤ (entries.map (·.submittedCount)).sum := by
    refine List.sum_nonneg ?_
    intro count hmem
    rcases List.mem_map.mp hmem with ⟨entry, hentry, rfl⟩
    exact (hentries entry hentry).count.1
  have hdigests : ∃ digests, checkedMap
      (fun entry => clientDigest sha256 manifestEntryDomain (entryValue entry))
        (orderedEntries entries) = .ok digests
      ∧ List.Forall₂ (fun _ digest => ∃ data, digest = sha256 data) (orderedEntries entries) digests :=
    exists_checkedMap (fun entry hentry => entryDigest_ok (hentries entry (hperm.mem_iff.mp hentry)))
  rcases hdigests with ⟨digests, hdigests, hhashed⟩
  have hshort : ∀ digest ∈ digests, ShortText digest := by
    intro digest hmem
    rcases exists_of_mem_forall₂ hhashed hmem with ⟨_, _, data, rfl⟩
    exact hdigest data
  have hroot : ∃ root, clientDigest sha256 manifestDomain (rootObject tripId
      (orderedEntries entries).length ((orderedEntries entries).map (·.submittedCount)).sum digests)
        = .ok root :=
    rootDigest_ok htrip (hperm.length_eq ▸ hlength) hhashed.length_eq.symm (hsum ▸ hnonneg)
      (hsum ▸ hcount) hshort
  rcases hroot with ⟨root, hroot⟩
  refine ⟨{
    rootSha256 := root
    pingCount := ((orderedEntries entries).map (·.submittedCount)).sum
    complete := complete
    entries := orderedEntries entries }, ?_⟩
  simp only [buildEvidenceManifest, bind_eq_ok, require_eq_ok, pure_eq_ok]
  exact ⟨⟨⟩, ⟨hcontiguous, hordered⟩, digests, hdigests, root, hroot, rfl⟩

end

end Wire
end Mobility
