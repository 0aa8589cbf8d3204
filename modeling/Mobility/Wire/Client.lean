import Mobility.Wire.Payloads

/-!
# Client — the same bytes, computed on the phone (`lib/trips/trip-evidence.ts`)

The phone hashes its own rendering of a batch and of a manifest with an encoder of its
own.  Both encoders agree on what the phone can queue, so the server recomputes the
declared hashes, and accepts the manifest the phone builds.
-/

namespace Mobility
namespace Wire

open Lib

/-! ## Success alike -/

/-- Both computations refuse, or both give the same result. -/
def Agree {α : Type} (x y : Except AppError α) : Prop := ∀ a, x = .ok a ↔ y = .ok a

theorem Agree.refl {α : Type} (x : Except AppError α) : Agree x x := fun _ => Iff.rfl

theorem Agree.bind {α β : Type} {x y : Except AppError α} {f g : α → Except AppError β}
    (h : Agree x y) (hfg : ∀ a, Agree (f a) (g a)) : Agree (x >>= f) (y >>= g) := by
  intro b
  simp only [bind_eq_ok]
  exact exists_congr (fun a => and_congr (h a) (hfg a b))

theorem Agree.joined {xs ys : List (Except AppError Bytes)} (h : List.Forall₂ Agree xs ys) :
    Agree (joined xs) (joined ys) := by
  induction h with
  | nil => exact .refl _
  | cons hxy _ ih => exact hxy.bind (fun _ => ih.bind (fun _ => .refl _))

/-! ## The encoder -/

/-- `CanonicalValue`; a number that is an integer is kept apart from one that is not,
and `float` is a `CanonicalFloat`. -/
inductive ClientValue
  | null
  | boolean (value : Bool)
  | integer (value : Int)
  | fraction (value : Binary64)
  | string (value : String)
  | float (value : Binary64)
  | array (items : List ClientValue)
  | object (entries : List (String × ClientValue))

def clientU32 (value : Nat) : Except AppError Bytes := do
  require (value ≤ 0xFFFFFFFF) (clientError "canonical u32 is out of range")
  return bigEndian 4 value

/-- `setBigInt64`, of a safe integer. -/
def clientI64 (value : Int) : Except AppError Bytes := do
  require (-maxSafeInteger ≤ value ∧ value ≤ maxSafeInteger)
    (clientError "canonical i64 is out of range")
  return bigEndian 8 (value % 2 ^ 64).toNat

/-- `Object.is(value, -0) ? 0 : value`. -/
def withoutNegativeZero (value : Binary64) : Binary64 :=
  if value.bits = 0x8000000000000000#64 then ⟨0#64⟩ else value

def clientBinary64 (value : Binary64) : Except AppError Bytes := do
  require value.isFinite (clientError "canonical floats must be finite")
  return bigEndian 8 (withoutNegativeZero value).bits.toNat

/-- `compareBytes`: the first difference, or else the difference of the lengths. -/
def compareBytes : Bytes → Bytes → Int
  | left :: lefts, right :: rights =>
      if left ≠ right then (left.toNat : Int) - right.toNat else compareBytes lefts rights
  | lefts, rights => (lefts.length : Int) - rights.length

def clientSorted {α : Type} (entries : List (String × α)) : List (String × α) :=
  entries.insertionSort (fun x y => compareBytes (utf8 x.1) (utf8 y.1) ≤ 0)

def clientString (value : String) : Except AppError Bytes := do
  let size ← clientU32 (utf8 value).length
  return 's'.toUInt8 :: (size ++ utf8 value)

mutual

def clientBytes : ClientValue → Except AppError Bytes
  | .null => return ['n'.toUInt8]
  | .boolean false => return ['f'.toUInt8]
  | .boolean true => return ['t'.toUInt8]
  | .float value => do return 'd'.toUInt8 :: (← clientBinary64 value)
  | .integer value => do return 'i'.toUInt8 :: (← clientI64 value)
  | .fraction value => do return 'd'.toUInt8 :: (← clientBinary64 value)
  | .string value => clientString value
  | .array items => do
      let size ← clientU32 items.length
      let parts ← joined (clientEach items)
      return 'a'.toUInt8 :: (size ++ parts)
  | .object entries => do
      let size ← clientU32 entries.length
      let parts ← joined ((clientSorted (clientEntries entries)).map (·.2))
      return 'o'.toUInt8 :: (size ++ parts)

def clientEach : List ClientValue → List (Except AppError Bytes)
  | [] => []
  | item :: items => clientBytes item :: clientEach items

def clientEntries : List (String × ClientValue) → List (String × Except AppError Bytes)
  | [] => []
  | (key, item) :: entries =>
      (key, do return (← clientString key) ++ (← clientBytes item)) :: clientEntries entries

end

mutual

/-- The value the server hashes for a value of the phone. -/
def ClientValue.toValue : ClientValue → Value
  | .null => .none
  | .boolean value => .bool value
  | .integer value => .int value
  | .fraction value => .float value
  | .string value => .str value
  | .float value => .float value
  | .array items => .list (toValues items)
  | .object entries => .dict (toItems entries)

def toValues : List ClientValue → List Value
  | [] => []
  | item :: items => item.toValue :: toValues items

def toItems : List (String × ClientValue) → List (String × Value)
  | [] => []
  | (key, item) :: entries => (key, item.toValue) :: toItems entries

end

/-! ## Both encoders agree -/

theorem clientU32_agree (value : Nat) : Agree (clientU32 value) (u32 value) := by
  intro x
  simp [clientU32, u32]

theorem withoutNegativeZero_eq (value : Binary64) :
    withoutNegativeZero value = value.normalized := by
  have hzero : value.isZero = true ↔ value.bits = 0#64 ∨ value.bits = 0x8000000000000000#64 := by
    unfold Binary64.isZero
    rw [decide_eq_true_eq]
    constructor
    · intro h
      have htoNat := congrArg BitVec.toNat h
      simp only [BitVec.toNat_setWidth, BitVec.toNat_ofNat] at htoNat
      have hlt := value.bits.isLt
      have hcases : value.bits.toNat = 0 ∨ value.bits.toNat = 2 ^ 63 := by omega
      rcases hcases with hcase | hcase
      · exact .inl (BitVec.eq_of_toNat_eq hcase)
      · exact .inr (BitVec.eq_of_toNat_eq hcase)
    · rintro (h | h) <;> rw [h] <;> decide
  unfold withoutNegativeZero Binary64.normalized
  by_cases hnegative : value.bits = 0x8000000000000000#64
  · rw [if_pos hnegative, if_pos (hzero.mpr (.inr hnegative))]
  · rw [if_neg hnegative]
    split_ifs with h
    · rcases hzero.mp h with hbits | hbits
      · cases value
        simp_all
      · exact absurd hbits hnegative
    · rfl

theorem clientBinary64_agree (value : Binary64) : Agree (clientBinary64 value) (binary64 value) := by
  intro x
  simp [clientBinary64, binary64, withoutNegativeZero_eq]

theorem clientString_agree (value : String) : Agree (clientString value) (canonicalStr value) :=
  (clientU32_agree _).bind (fun _ => .refl _)

/-- The comparison of the phone is the order of the bytes. -/
theorem compareBytes_iff (left right : Bytes) : compareBytes left right ≤ 0 ↔ left ≤ right := by
  induction left generalizing right with
  | nil =>
      simp [compareBytes]
  | cons l ls ih =>
      cases right with
      | nil => simp [compareBytes]
      | cons r rs =>
          rw [List.cons_le_cons_iff, ← ih rs]
          by_cases hlr : l = r
          · subst hlr
            simp [compareBytes]
          · have hlt : (l.toNat : Int) - r.toNat ≤ 0 ↔ l < r := by
              have hne : l.toNat ≠ r.toNat := fun h => hlr (UInt8.toNat_inj.mp h)
              rw [UInt8.lt_iff_toNat_lt]
              omega
            simp [compareBytes, hlr, hlt]

theorem clientSorted_eq {α : Type} (entries : List (String × α)) :
    clientSorted entries = sortedByKey entries := by
  have hsame := List.map_insertionSort (fun x y => compareBytes (utf8 x.1) (utf8 y.1) ≤ 0)
    (fun x y : String × α => utf8 x.1 ≤ utf8 y.1) id entries
    (fun x _ y _ => compareBytes_iff (utf8 x.1) (utf8 y.1))
  simpa [clientSorted, sortedByKey] using hsame

/-- All integers in a value are safe, as they are in JavaScript. -/
inductive Safe : ClientValue → Prop
  | null : Safe .null
  | boolean (value : Bool) : Safe (.boolean value)
  | integer {value : Int} : -maxSafeInteger ≤ value → value ≤ maxSafeInteger → Safe (.integer value)
  | fraction (value : Binary64) : Safe (.fraction value)
  | string (value : String) : Safe (.string value)
  | float (value : Binary64) : Safe (.float value)
  | array {items : List ClientValue} : (∀ item ∈ items, Safe item) → Safe (.array items)
  | object {entries : List (String × ClientValue)} :
      (∀ entry ∈ entries, Safe entry.2) → Safe (.object entries)

theorem clientEach_eq (items : List ClientValue) : clientEach items = items.map clientBytes := by
  induction items with
  | nil => rfl
  | cons item items ih => simp [clientEach, ih]

theorem toValues_eq (items : List ClientValue) : toValues items = items.map (·.toValue) := by
  induction items with
  | nil => rfl
  | cons item items ih => simp [toValues, ih]

/-- The code of one entry of an object. -/
def clientEntry (entry : String × ClientValue) : Except AppError Bytes := do
  return (← clientString entry.1) ++ (← clientBytes entry.2)

theorem clientEntries_eq (entries : List (String × ClientValue)) :
    clientEntries entries = entries.map (fun entry => (entry.1, clientEntry entry)) := by
  induction entries with
  | nil => rfl
  | cons entry entries ih => simp [clientEntries, clientEntry, ih]

theorem toItems_eq (entries : List (String × ClientValue)) :
    toItems entries = entries.map (fun entry => (entry.1, entry.2.toValue)) := by
  induction entries with
  | nil => rfl
  | cons entry entries ih => simp [toItems, ih]

theorem joined_agree {α : Type} {f g : α → Except AppError Bytes} {items : List α}
    (h : ∀ item ∈ items, Agree (f item) (g item)) :
    Agree (joined (items.map f)) (joined (items.map g)) := by
  refine Agree.joined ?_
  rw [List.forall₂_map_left_iff, List.forall₂_map_right_iff, List.forall₂_same]
  exact h

theorem array_agree {items : List ClientValue}
    (h : ∀ item ∈ items, Agree (clientBytes item) (canonicalBytes item.toValue)) :
    Agree (clientBytes (.array items)) (canonicalBytes (ClientValue.array items).toValue) := by
  simp only [clientBytes, ClientValue.toValue, canonicalBytes, clientEach_eq, canonicalEach_eq,
    toValues_eq, List.length_map, List.map_map]
  exact (clientU32_agree _).bind (fun _ => (joined_agree h).bind (fun _ => .refl _))

theorem object_agree {entries : List (String × ClientValue)}
    (h : ∀ entry ∈ entries, Agree (clientBytes entry.2) (canonicalBytes entry.2.toValue)) :
    Agree (clientBytes (.object entries)) (canonicalBytes (ClientValue.object entries).toValue) := by
  have hclient : (clientSorted (clientEntries entries)).map (·.2)
      = (sortedByKey entries).map clientEntry := by
    rw [clientSorted_eq, clientEntries_eq, sortedByKey_map, List.map_map]
    rfl
  have hserver : (sortedByKey (toItems entries)).map canonicalItem
      = (sortedByKey entries).map (fun entry => canonicalItem (entry.1, entry.2.toValue)) := by
    rw [toItems_eq, sortedByKey_map, List.map_map]
    rfl
  simp only [clientBytes, ClientValue.toValue, canonicalBytes, sortedByKey_canonicalItems,
    hclient, hserver]
  refine Agree.bind ?_ (fun _ => Agree.bind (joined_agree ?_) (fun _ => .refl _))
  · rw [toItems_eq, List.length_map]
    exact clientU32_agree _
  · intro entry hentry
    have hmem := (sortedByKey_perm entries).mem_iff.mpr hentry
    exact (clientString_agree _).bind (fun _ => (h entry hmem).bind (fun _ => .refl _))

mutual

/-- On safe values the encoders of the phone and of the server agree. -/
theorem clientBytes_agree : (value : ClientValue) → Safe value →
    Agree (clientBytes value) (canonicalBytes value.toValue)
  | .null, _ => .refl _
  | .boolean false, _ => .refl _
  | .boolean true, _ => .refl _
  | .integer value, hsafe => by
      cases hsafe with
      | integer hlow hhigh =>
          have hwide : -2 ^ 63 ≤ value ∧ value ≤ 2 ^ 63 - 1 := by
            unfold maxSafeInteger at hlow hhigh
            omega
          refine Agree.bind ?_ (fun _ => .refl _)
          rw [clientI64, i64, require_of ⟨hlow, hhigh⟩, require_of hwide]
          exact .refl _
  | .fraction value, _ => (clientBinary64_agree value).bind (fun _ => .refl _)
  | .string value, _ => clientString_agree value
  | .float value, _ => (clientBinary64_agree value).bind (fun _ => .refl _)
  | .array items, hsafe => by
      cases hsafe with
      | array hitems => exact array_agree (clientEach_agree items hitems)
  | .object entries, hsafe => by
      cases hsafe with
      | object hentries => exact object_agree (clientEntries_agree entries hentries)

theorem clientEach_agree : (items : List ClientValue) → (∀ item ∈ items, Safe item) →
    ∀ item ∈ items, Agree (clientBytes item) (canonicalBytes item.toValue)
  | [], _, _, hitem => absurd hitem List.not_mem_nil
  | first :: rest, hsafe, item, hitem => by
      rcases List.mem_cons.mp hitem with hfirst | hrest
      · exact hfirst ▸ clientBytes_agree first (hsafe first List.mem_cons_self)
      · exact clientEach_agree rest (fun item h => hsafe item (List.mem_cons_of_mem _ h)) item hrest

theorem clientEntries_agree : (entries : List (String × ClientValue)) →
    (∀ entry ∈ entries, Safe entry.2) →
    ∀ entry ∈ entries, Agree (clientBytes entry.2) (canonicalBytes entry.2.toValue)
  | [], _, _, hentry => absurd hentry List.not_mem_nil
  | (key, first) :: rest, hsafe, entry, hentry => by
      rcases List.mem_cons.mp hentry with hfirst | hrest
      · exact hfirst ▸ clientBytes_agree first (hsafe (key, first) List.mem_cons_self)
      · exact clientEntries_agree rest (fun entry h => hsafe entry (List.mem_cons_of_mem _ h))
          entry hrest

end

/-! ## Batches -/

/-- A number that is neither infinite nor NaN. -/
abbrev FiniteFloat := { value : Binary64 // value.isFinite = true }

/-- A non-negative safe integer. -/
abbrev SafeNat := { value : Nat // (value : Int) ≤ maxSafeInteger }

/-- A ping as the phone queues it. -/
structure EvidencePing where
  recordedAt : IsoTimestamp
  lat : FiniteFloat
  lon : FiniteFloat
  accuracyM : Option FiniteFloat
  speedMps : Option FiniteFloat
  headingDegrees : Option FiniteFloat
  sequenceNumber : SafeNat

/-- `float64`. -/
def float64 : Option FiniteFloat → ClientValue
  | none => .null
  | some value => .float value

def pingObject (ping : EvidencePing) (recordedAtMs : Int) : ClientValue :=
  .object
    [("recorded_at_ms", .integer recordedAtMs),
      ("lat", float64 (some ping.lat)),
      ("lon", float64 (some ping.lon)),
      ("accuracy_m", float64 ping.accuracyM),
      ("speed_mps", float64 ping.speedMps),
      ("heading_degrees", float64 ping.headingDegrees),
      ("altitude_m", .null),
      ("sequence_number", .integer ping.sequenceNumber.1),
      ("metadata", .object [])]

def clientPing (ping : EvidencePing) : Except AppError ClientValue := do
  let recordedAtMs ← clientEpochMilliseconds ping.recordedAt
  return pingObject ping recordedAtMs

def clientDomainBytes (domain : Bytes) (value : ClientValue) : Except AppError Bytes := do
  return domain ++ (← clientBytes value)

/-- What `batchPayloadHash` hashes. -/
def clientBatchBytes (pings : List EvidencePing) : Except AppError Bytes := do
  let pings ← checkedMap clientPing pings
  clientDomainBytes batchDomain (.object [("pings", .array pings), ("metadata", .object [])])

/-- The ping as the server receives it: JSON drops the sign of zero. -/
def EvidencePing.received (ping : EvidencePing) : LocationPingCreate where
  recordedAt := ping.recordedAt.parsed
  lat := ping.lat.1.normalized
  lon := ping.lon.1.normalized
  accuracyM := ping.accuracyM.map (·.1.normalized)
  speedMps := ping.speedMps.map (·.1.normalized)
  headingDegrees := ping.headingDegrees.map (·.1.normalized)
  sequenceNumber := some ping.sequenceNumber.1

def receivedBatch (pings : List EvidencePing) : LocationPingBatchCreate where
  pings := pings.map (·.received)

theorem normalized_normalized (value : Binary64) :
    value.normalized.normalized = value.normalized := by
  by_cases hzero : value.isZero = true
  · simp [Binary64.normalized, hzero]
  · simp [Binary64.normalized, hzero]

theorem isFinite_normalized (value : Binary64) (h : value.isFinite = true) :
    value.normalized.isFinite = true := by
  unfold Binary64.normalized
  split_ifs
  · decide
  · exact h

theorem canonicalBytes_normalized (value : FiniteFloat) :
    canonicalBytes (.float value.1.normalized) = canonicalBytes (.float value.1) := by
  simp only [canonicalBytes, binary64, normalized_normalized,
    require_of (isFinite_normalized value.1 value.2), require_of value.2]

theorem canonicalBytes_float64 (value : Option FiniteFloat) :
    canonicalBytes (optionalFloat (value.map (·.1.normalized)))
      = canonicalBytes (float64 value).toValue := by
  cases value with
  | none => rfl
  | some value => exact canonicalBytes_normalized value

theorem float64_safe (value : Option FiniteFloat) : Safe (float64 value) := by
  cases value with
  | none => exact .null
  | some value => exact .float value.1

/-- Items with the same codes under the same keys give the same code. -/
theorem canonicalBytes_dict_congr {xs ys : List (String × Value)}
    (h : canonicalItems xs = canonicalItems ys) :
    canonicalBytes (.dict xs) = canonicalBytes (.dict ys) := by
  have hlength : xs.length = ys.length := by
    simpa [canonicalItems_eq] using congrArg List.length h
  simp only [canonicalBytes, h, hlength]

theorem canonicalBytes_list_congr {xs ys : List Value}
    (h : List.Forall₂ (fun x y => canonicalBytes x = canonicalBytes y) xs ys) :
    canonicalBytes (.list xs) = canonicalBytes (.list ys) := by
  have hcodes : xs.map canonicalBytes = ys.map canonicalBytes := by
    rw [← List.forall₂_eq_eq_eq, List.forall₂_map_left_iff, List.forall₂_map_right_iff]
    exact h
  simp only [canonicalBytes, canonicalEach_eq, hcodes, h.length_eq]

theorem pingObject_safe (ping : EvidencePing) :
    Safe (pingObject ping (dateParse ping.recordedAt)) := by
  have hsafe := dateParse_safe ping.recordedAt
  refine .object ?_
  intro entry hentry
  simp only [List.mem_cons, List.not_mem_nil, or_false] at hentry
  rcases hentry with rfl | rfl | rfl | rfl | rfl | rfl | rfl | rfl | rfl
  · exact .integer hsafe.1 hsafe.2
  · exact float64_safe (some ping.lat)
  · exact float64_safe (some ping.lon)
  · exact float64_safe ping.accuracyM
  · exact float64_safe ping.speedMps
  · exact float64_safe ping.headingDegrees
  · exact .null
  · refine .integer ?_ ping.sequenceNumber.2
    exact le_trans (by decide) (Int.natCast_nonneg _)
  · exact .object (by simp)

/-- The server's value of a ping has the code of the phone's object. -/
theorem pingValue_code (ping : EvidencePing) (recordedAtMs : Int) :
    canonicalBytes (pingValue ping.received recordedAtMs)
      = canonicalBytes (pingObject ping recordedAtMs).toValue := by
  refine canonicalBytes_dict_congr ?_
  simp only [EvidencePing.received, toItems, canonicalItems, canonicalBytes_normalized,
    canonicalBytes_float64]
  rfl

theorem clientDomainBytes_agree {domain : Bytes} {value : ClientValue} {other : Value}
    (h : Agree (clientBytes value) (canonicalBytes other)) :
    Agree (clientDomainBytes domain value) (domainBytes domain other) :=
  h.bind (fun _ => .refl _)

theorem clientPings_ok (pings : List EvidencePing) : checkedMap clientPing pings
    = .ok (pings.map (fun ping => pingObject ping (dateParse ping.recordedAt))) := by
  refine checkedMap_ok ?_
  intro ping _
  rw [clientPing, (epochMilliseconds_parsed ping.recordedAt).2]
  rfl

theorem receivedPings_ok (pings : List EvidencePing) :
    checkedMap canonicalPing (pings.map (·.received))
      = .ok (pings.map (fun ping => pingValue ping.received (dateParse ping.recordedAt))) := by
  rw [checkedMap_map]
  refine checkedMap_ok ?_
  intro ping _
  rw [canonicalPing, show ping.received.recordedAt = ping.recordedAt.parsed from rfl,
    (epochMilliseconds_parsed ping.recordedAt).1]
  rfl

/-- The phone and the server hash the same bytes. -/
theorem clientBatchBytes_agree (pings : List EvidencePing) :
    Agree (clientBatchBytes pings) (batchPayloadBytes (receivedBatch pings)) := by
  -- the server's pings have the codes of the phone's, one by one
  have hpings : canonicalBytes
        (.list (pings.map (fun ping => pingValue ping.received (dateParse ping.recordedAt))))
      = canonicalBytes (ClientValue.array
        (pings.map (fun ping => pingObject ping (dateParse ping.recordedAt)))).toValue := by
    refine canonicalBytes_list_congr ?_
    rw [toValues_eq, List.map_map, List.forall₂_map_left_iff, List.forall₂_map_right_iff,
      List.forall₂_same]
    intro ping _
    exact pingValue_code ping _
  have hbatch : canonicalBytes (.dict
        [("pings", .list (pings.map (fun ping => pingValue ping.received (dateParse ping.recordedAt)))),
          ("metadata", .dict [])])
      = canonicalBytes (ClientValue.object
        [("pings", .array (pings.map (fun ping => pingObject ping (dateParse ping.recordedAt)))),
          ("metadata", .object [])]).toValue := by
    refine canonicalBytes_dict_congr ?_
    simp only [toItems, canonicalItems, hpings]
    rfl
  have hsafe : Safe (.object
      [("pings", .array (pings.map (fun ping => pingObject ping (dateParse ping.recordedAt)))),
        ("metadata", .object [])]) := by
    refine .object ?_
    intro entry hentry
    simp only [List.mem_cons, List.not_mem_nil, or_false] at hentry
    rcases hentry with rfl | rfl
    · refine .array ?_
      intro item hitem
      rcases List.mem_map.mp hitem with ⟨ping, _, rfl⟩
      exact pingObject_safe ping
    · exact .object (by simp)
  rw [clientBatchBytes, clientPings_ok, batchPayloadBytes, canonicalPingPayload, receivedBatch,
    receivedPings_ok]
  refine clientDomainBytes_agree ?_
  rw [hbatch]
  exact clientBytes_agree _ hsafe

theorem encodable_optionalFloat (value : Option FiniteFloat) :
    Encodable (optionalFloat (value.map (·.1.normalized))) := by
  cases value with
  | none => exact ⟨_, rfl⟩
  | some value => exact encodable_float (isFinite_normalized value.1 value.2)

theorem encodable_ping (ping : EvidencePing) :
    Encodable (pingValue ping.received (dateParse ping.recordedAt)) := by
  have hsafe := dateParse_safe ping.recordedAt
  have hsequence := ping.sequenceNumber.2
  unfold maxSafeInteger at hsafe hsequence
  refine encodable_dict (by simp) ?_ ?_
  · simp only [List.map_cons, List.map_nil]
    decide +kernel
  · intro item hitem
    simp only [List.mem_cons, List.not_mem_nil, or_false] at hitem
    rcases hitem with rfl | rfl | rfl | rfl | rfl | rfl | rfl | rfl | rfl
    · exact encodable_int (by omega) (by omega)
    · exact encodable_optionalFloat (some ping.lat)
    · exact encodable_optionalFloat (some ping.lon)
    · exact encodable_optionalFloat ping.accuracyM
    · exact encodable_optionalFloat ping.speedMps
    · exact encodable_optionalFloat ping.headingDegrees
    · exact ⟨_, rfl⟩
    · exact encodable_int (by omega) (by omega)
    · exact ⟨_, rfl⟩

/-- Every batch an array can hold has its bytes. -/
theorem batchPayloadBytes_ok {pings : List EvidencePing} (hlength : pings.length ≤ 0xFFFFFFFF) :
    ∃ x, batchPayloadBytes (receivedBatch pings) = .ok x := by
  have hlist : Encodable (.list
      (pings.map (fun ping => pingValue ping.received (dateParse ping.recordedAt)))) := by
    refine encodable_list (by simpa using hlength) ?_
    intro item hitem
    rcases List.mem_map.mp hitem with ⟨ping, _, rfl⟩
    exact encodable_ping ping
  have hbatch : Encodable (.dict
      [("pings", .list (pings.map (fun ping => pingValue ping.received (dateParse ping.recordedAt)))),
        ("metadata", .dict [])]) := by
    refine encodable_dict (by simp) ?_ ?_
    · simp only [List.map_cons, List.map_nil]
      decide +kernel
    · intro item hitem
      simp only [List.mem_cons, List.not_mem_nil, or_false] at hitem
      rcases hitem with rfl | rfl
      · exact hlist
      · exact ⟨_, rfl⟩
  rcases hbatch with ⟨code, hcode⟩
  refine ⟨batchDomain ++ code, ?_⟩
  simp only [batchPayloadBytes, canonicalPingPayload, receivedBatch, receivedPings_ok]
  exact domainBytes_eq_ok.mpr ⟨code, hcode, rfl⟩

end Wire
end Mobility
