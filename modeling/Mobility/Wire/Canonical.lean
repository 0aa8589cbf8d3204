import Mobility.Lib.Codes
import Mobility.Trips.Receipts
import Mathlib.Data.List.Sort

/-!
# Canonical — the byte form of evidence (`canonical_bytes`)

Every hash and every signature of the evidence protocol is taken over
`canonical_bytes` of a JSON-like value.  The encoding is shown to read back: its
tags, lengths and sorted keys determine the value up to the order of dict items and
the sign of zero, whatever bytes follow.
-/

namespace Mobility
namespace Wire

open Lib
open Trips (valueError)

abbrev Bytes := List UInt8

/-! ## Values -/

/-- An IEEE 754 double, by its bits. -/
structure Binary64 where
  bits : BitVec 64
  deriving DecidableEq, Repr

def Binary64.exponent (x : Binary64) : BitVec 11 := x.bits.extractLsb' 52 11

/-- `math.isfinite`: neither an infinity nor a NaN. -/
def Binary64.isFinite (x : Binary64) : Bool := x.exponent ≠ 0x7FF#11

/-- Both zeros compare equal to `0`. -/
def Binary64.isZero (x : Binary64) : Bool := x.bits.setWidth 63 = 0#63

/-- `0.0 if value == 0 else value`. -/
def Binary64.normalized (x : Binary64) : Binary64 := if x.isZero then ⟨0#64⟩ else x

/-- The domain of `canonical_bytes`. -/
inductive Value
  | none
  | bool (value : Bool)
  | int (value : Int)
  | float (value : Binary64)
  | str (value : String)
  | list (items : List Value)
  | dict (items : List (String × Value))

/-- Equality up to the order of dict items and the sign of zero. -/
inductive Same : Value → Value → Prop
  | none : Same .none .none
  | bool (value : Bool) : Same (.bool value) (.bool value)
  | int (value : Int) : Same (.int value) (.int value)
  | float {x y : Binary64} : x.normalized = y.normalized → Same (.float x) (.float y)
  | str (value : String) : Same (.str value) (.str value)
  | list {xs ys : List Value} : List.Forall₂ Same xs ys → Same (.list xs) (.list ys)
  | dict {xs xs' ys ys' : List (String × Value)} :
      xs.Perm xs' → ys.Perm ys' → xs'.map (·.1) = ys'.map (·.1) →
      List.Forall₂ Same (xs'.map (·.2)) (ys'.map (·.2)) → Same (.dict xs) (.dict ys)

/-! ## The encoder -/

def utf8 (s : String) : Bytes := s.toUTF8.data.toList

/-- `_u32`. -/
def u32 (value : Nat) : Except AppError Bytes := do
  require (value ≤ 0xFFFFFFFF) (valueError "canonical u32 is out of range")
  return bigEndian 4 value

/-- A signed 64-bit integer, big endian, in two's complement. -/
def i64 (value : Int) : Except AppError Bytes := do
  require (-2 ^ 63 ≤ value ∧ value ≤ 2 ^ 63 - 1) (valueError "canonical i64 is out of range")
  return bigEndian 8 (value % 2 ^ 64).toNat

/-- `struct.pack(">d", …)` of a finite float. -/
def binary64 (value : Binary64) : Except AppError Bytes := do
  require value.isFinite (valueError "canonical floats must be finite")
  return bigEndian 8 value.normalized.bits.toNat

def canonicalStr (value : String) : Except AppError Bytes := do
  let size ← u32 (utf8 value).length
  return 's'.toUInt8 :: (size ++ utf8 value)

/-- Items in the order of the UTF-8 bytes of their keys. -/
def sortedByKey {α : Type} (items : List (String × α)) : List (String × α) :=
  items.insertionSort (fun x y => utf8 x.1 ≤ utf8 y.1)

mutual

def canonicalBytes : Value → Except AppError Bytes
  | .none => return ['n'.toUInt8]
  | .bool false => return ['f'.toUInt8]
  | .bool true => return ['t'.toUInt8]
  | .int value => do return 'i'.toUInt8 :: (← i64 value)
  | .float value => do return 'd'.toUInt8 :: (← binary64 value)
  | .str value => canonicalStr value
  | .list items => do
      let size ← u32 items.length
      let parts ← joined (canonicalEach items)
      return 'a'.toUInt8 :: (size ++ parts)
  | .dict items => do
      let size ← u32 items.length
      let parts ← joined ((sortedByKey (canonicalItems items)).map (·.2))
      return 'o'.toUInt8 :: (size ++ parts)

def canonicalEach : List Value → List (Except AppError Bytes)
  | [] => []
  | item :: items => canonicalBytes item :: canonicalEach items

/-- Each item of a dict under its key, its code being those of key and value. -/
def canonicalItems : List (String × Value) → List (String × Except AppError Bytes)
  | [] => []
  | (key, item) :: items =>
      (key, do return (← canonicalStr key) ++ (← canonicalBytes item)) :: canonicalItems items

end

/-- The code of one dict item. -/
def canonicalItem (item : String × Value) : Except AppError Bytes := do
  return (← canonicalStr item.1) ++ (← canonicalBytes item.2)

theorem canonicalEach_eq (items : List Value) : canonicalEach items = items.map canonicalBytes := by
  induction items with
  | nil => rfl
  | cons item items ih => simp [canonicalEach, ih]

theorem canonicalItems_eq (items : List (String × Value)) :
    canonicalItems items = items.map (fun item => (item.1, canonicalItem item)) := by
  induction items with
  | nil => rfl
  | cons item items ih => simp [canonicalItems, canonicalItem, ih]

/-- Sorting leaves what each item carries with its key. -/
theorem sortedByKey_map {α β : Type} (f : String × α → β) (items : List (String × α)) :
    sortedByKey (items.map (fun item => (item.1, f item)))
      = (sortedByKey items).map (fun item => (item.1, f item)) := by
  have hsort : (sortedByKey items).map (fun item => (item.1, f item))
      = sortedByKey (items.map (fun item => (item.1, f item))) :=
    List.map_insertionSort _ _ _ _ (fun _ _ _ _ => Iff.rfl)
  exact hsort.symm

/-- Sorting the codes of the items is encoding the sorted items. -/
theorem sortedByKey_canonicalItems (items : List (String × Value)) :
    (sortedByKey (canonicalItems items)).map (·.2) = (sortedByKey items).map canonicalItem := by
  rw [canonicalItems_eq, sortedByKey_map, List.map_map]
  rfl

theorem sortedByKey_perm {α : Type} (items : List (String × α)) :
    items.Perm (sortedByKey items) :=
  (List.perm_insertionSort _ items).symm

/-! ## Reading back -/

theorem u32_eq_ok {value : Nat} {x : Bytes} (h : u32 value = .ok x) :
    value ≤ 0xFFFFFFFF ∧ bigEndian 4 value = x := by
  simpa [u32] using h

theorem u32_readsBack (value : Nat) : ReadsBack u32 Eq value := by
  refine readsBack_of_length (n := 4) ?_ ?_ value
  · intro a x h
    rw [← (u32_eq_ok h).2, bigEndian_length]
  · intro a b x ha hb
    rcases u32_eq_ok ha with ⟨halt, hax⟩
    rcases u32_eq_ok hb with ⟨hblt, hbx⟩
    exact bigEndian_injective (by omega) (by omega) (hax.trans hbx.symm)

theorem i64_eq_ok {value : Int} {x : Bytes} (h : i64 value = .ok x) :
    (-2 ^ 63 ≤ value ∧ value ≤ 2 ^ 63 - 1) ∧ bigEndian 8 (value % 2 ^ 64).toNat = x := by
  simpa [i64] using h

theorem binary64_eq_ok {value : Binary64} {x : Bytes} (h : binary64 value = .ok x) :
    value.isFinite = true ∧ bigEndian 8 value.normalized.bits.toNat = x := by
  simpa [binary64] using h

theorem i64_readsBack (value : Int) : ReadsBack i64 Eq value := by
  refine readsBack_of_length (n := 8) ?_ ?_ value
  · intro a x h
    rw [← (i64_eq_ok h).2, bigEndian_length]
  · intro a b x ha hb
    rcases i64_eq_ok ha with ⟨harange, hax⟩
    rcases i64_eq_ok hb with ⟨hbrange, hbx⟩
    have hsame : (a % 2 ^ 64).toNat = (b % 2 ^ 64).toNat :=
      bigEndian_injective (by omega) (by omega) (hax.trans hbx.symm)
    omega

theorem binary64_readsBack (value : Binary64) :
    ReadsBack binary64 (fun x y => x.normalized = y.normalized) value := by
  refine readsBack_of_length (n := 8) ?_ ?_ value
  · intro a x h
    rw [← (binary64_eq_ok h).2, bigEndian_length]
  · intro a b x ha hb
    have hbits : a.normalized.bits.toNat = b.normalized.bits.toNat :=
      bigEndian_injective (by simpa using a.normalized.bits.isLt)
        (by simpa using b.normalized.bits.isLt)
        ((binary64_eq_ok ha).2.trans (binary64_eq_ok hb).2.symm)
    exact congrArg Binary64.mk (BitVec.eq_of_toNat_eq hbits)

theorem utf8_injective : Function.Injective utf8 := by
  intro a b h
  have hbytes : a.toByteArray = b.toByteArray := by
    simpa [utf8, ByteArray.ext_iff, Array.ext_iff] using h
  exact String.toByteArray_inj.mp hbytes

/-- A string is read back: its length comes first. -/
theorem canonicalStr_readsBack (value : String) : ReadsBack canonicalStr Eq value := by
  intro other x y hx hy r s h
  simp only [canonicalStr, bind_eq_ok, pure_eq_ok] at hx hy
  rcases hx with ⟨size, hsize, rfl⟩
  rcases hy with ⟨size', hsize', rfl⟩
  have hafter : size ++ (utf8 value ++ r) = size' ++ (utf8 other ++ s) := by simpa using h
  rcases u32_readsBack _ hsize hsize' hafter with ⟨hlength, hrest⟩
  rcases List.append_inj hrest hlength with ⟨hutf8, hend⟩
  exact ⟨utf8_injective hutf8, hend⟩

/-- What is read back from the code of one item: its key and its value. -/
theorem canonicalItem_readsBack {item : String × Value}
    (hitem : ReadsBack canonicalBytes Same item.2) :
    ReadsBack canonicalItem (fun x y => x.1 = y.1 ∧ Same x.2 y.2) item := by
  intro other x y hx hy r s h
  simp only [canonicalItem, bind_eq_ok, pure_eq_ok] at hx hy
  rcases hx with ⟨key, hkey, body, hbody, rfl⟩
  rcases hy with ⟨key', hkey', body', hbody', rfl⟩
  rw [List.append_assoc, List.append_assoc] at h
  rcases canonicalStr_readsBack _ hkey hkey' h with ⟨hkeys, hrest⟩
  rcases hitem hbody hbody' hrest with ⟨hsame, hend⟩
  exact ⟨⟨hkeys, hsame⟩, hend⟩

/-- The tag byte of a value's code. -/
def Value.tag : Value → UInt8
  | .none => 'n'.toUInt8
  | .bool false => 'f'.toUInt8
  | .bool true => 't'.toUInt8
  | .int _ => 'i'.toUInt8
  | .float _ => 'd'.toUInt8
  | .str _ => 's'.toUInt8
  | .list _ => 'a'.toUInt8
  | .dict _ => 'o'.toUInt8

theorem canonicalBytes_tag {v : Value} {x : Bytes} (h : canonicalBytes v = .ok x) :
    ∃ body, x = v.tag :: body := by
  cases v with
  | none => exact ⟨[], (pure_eq_ok.mp h).symm⟩
  | bool value =>
      cases value with
      | false => exact ⟨[], (pure_eq_ok.mp h).symm⟩
      | true => exact ⟨[], (pure_eq_ok.mp h).symm⟩
  | int value =>
      simp only [canonicalBytes, bind_eq_ok, pure_eq_ok] at h
      rcases h with ⟨body, _, rfl⟩
      exact ⟨body, rfl⟩
  | float value =>
      simp only [canonicalBytes, bind_eq_ok, pure_eq_ok] at h
      rcases h with ⟨body, _, rfl⟩
      exact ⟨body, rfl⟩
  | str value =>
      simp only [canonicalBytes, canonicalStr, bind_eq_ok, pure_eq_ok] at h
      rcases h with ⟨size, _, rfl⟩
      exact ⟨_, rfl⟩
  | list items =>
      simp only [canonicalBytes, bind_eq_ok, pure_eq_ok] at h
      rcases h with ⟨size, _, parts, _, rfl⟩
      exact ⟨_, rfl⟩
  | dict items =>
      simp only [canonicalBytes, bind_eq_ok, pure_eq_ok] at h
      rcases h with ⟨size, _, parts, _, rfl⟩
      exact ⟨_, rfl⟩

/-- Values of one kind: the same constructor, and the same truth value. -/
def Value.alike : Value → Value → Prop
  | .none, .none => True
  | .bool value, .bool other => value = other
  | .int _, .int _ => True
  | .float _, .float _ => True
  | .str _, .str _ => True
  | .list _, .list _ => True
  | .dict _, .dict _ => True
  | _, _ => False

/-- No two kinds share a tag. -/
theorem alike_of_tag {v w : Value} (h : v.tag = w.tag) : v.alike w := by
  revert h
  cases v with
  | bool value =>
      cases w with
      | bool other =>
          cases value <;> cases other <;>
            first
              | exact fun _ => rfl
              | exact (absurd · (by simp only [Value.tag]; decide))
      | _ => cases value <;> exact (absurd · (by simp only [Value.tag]; decide))
  | _ =>
      cases w with
      | bool other => cases other <;> exact (absurd · (by simp only [Value.tag]; decide))
      | _ =>
          first
            | exact fun _ => trivial
            | exact (absurd · (by simp only [Value.tag]; decide))

/-- Codes that start one string are those of values of one kind. -/
theorem alike_of_front {v w : Value} {x y r s : Bytes} (hx : canonicalBytes v = .ok x)
    (hy : canonicalBytes w = .ok y) (h : x ++ r = y ++ s) : v.alike w := by
  rcases canonicalBytes_tag hx with ⟨body, rfl⟩
  rcases canonicalBytes_tag hy with ⟨body', rfl⟩
  simp only [List.cons_append, List.cons.injEq] at h
  exact alike_of_tag h.1

/-- The items of a list are read back one after the other, as many as its length says. -/
theorem list_readsBack {items : List Value}
    (hitems : ∀ item ∈ items, ReadsBack canonicalBytes Same item) :
    ReadsBack canonicalBytes Same (.list items) := by
  intro w x y hx hy r s h
  have halike := alike_of_front hx hy h
  cases w with
  | list others =>
      simp only [canonicalBytes, canonicalEach_eq, bind_eq_ok, pure_eq_ok] at hx hy
      rcases hx with ⟨size, hsize, parts, hparts, rfl⟩
      rcases hy with ⟨size', hsize', parts', hparts', rfl⟩
      have hafter : size ++ (parts ++ r) = size' ++ (parts' ++ s) := by simpa using h
      rcases u32_readsBack _ hsize hsize' hafter with ⟨hlength, hrest⟩
      rcases joined_readsBack hitems hlength hparts hparts' hrest with ⟨hsame, hend⟩
      exact ⟨.list hsame, hend⟩
  | _ => exact halike.elim

/-- The items of a dict are read back in the order of their keys. -/
theorem dict_readsBack {items : List (String × Value)}
    (hitems : ∀ item ∈ items, ReadsBack canonicalBytes Same item.2) :
    ReadsBack canonicalBytes Same (.dict items) := by
  intro w x y hx hy r s h
  have halike := alike_of_front hx hy h
  cases w with
  | dict others =>
      simp only [canonicalBytes, sortedByKey_canonicalItems, bind_eq_ok, pure_eq_ok] at hx hy
      rcases hx with ⟨size, hsize, parts, hparts, rfl⟩
      rcases hy with ⟨size', hsize', parts', hparts', rfl⟩
      have hafter : size ++ (parts ++ r) = size' ++ (parts' ++ s) := by simpa using h
      rcases u32_readsBack _ hsize hsize' hafter with ⟨hlength, hrest⟩
      have hsorted : ∀ item ∈ sortedByKey items,
          ReadsBack canonicalItem (fun x y => x.1 = y.1 ∧ Same x.2 y.2) item := by
        intro item hitem
        exact canonicalItem_readsBack (hitems item ((sortedByKey_perm items).mem_iff.mpr hitem))
      have hlengths : (sortedByKey items).length = (sortedByKey others).length := by
        rw [← (sortedByKey_perm items).length_eq, ← (sortedByKey_perm others).length_eq, hlength]
      rcases joined_readsBack hsorted hlengths hparts hparts' hrest with ⟨hsame, hend⟩
      refine ⟨.dict (sortedByKey_perm items) (sortedByKey_perm others) ?_ ?_, hend⟩
      · exact List.forall₂_eq_eq_eq ▸
          List.forall₂_map_left_iff.mpr (List.forall₂_map_right_iff.mpr (hsame.imp (fun _ _ h => h.1)))
      · exact List.forall₂_map_left_iff.mpr
          (List.forall₂_map_right_iff.mpr (hsame.imp (fun _ _ h => h.2)))
  | _ => exact halike.elim

mutual

/-- The code of a value, at the front of any bytes, determines the value. -/
theorem canonicalBytes_readsBack : (v : Value) → ReadsBack canonicalBytes Same v
  | .none => by
      intro w x y hx hy r s h
      -- equal tags, so the other value has the same constructor
      have halike := alike_of_front hx hy h
      cases w with
      | none => exact ⟨.none, by simpa [← pure_eq_ok.mp hx, ← pure_eq_ok.mp hy] using h⟩
      | _ => exact halike.elim
  | .bool value => by
      intro w x y hx hy r s h
      have halike := alike_of_front hx hy h
      cases w with
      | bool other =>
          have hvalue : value = other := halike
          subst hvalue
          have hcode : x = y := Except.ok.inj (hx.symm.trans hy)
          subst hcode
          exact ⟨.bool value, List.append_cancel_left h⟩
      | _ => exact halike.elim
  | .int value => by
      intro w x y hx hy r s h
      have halike := alike_of_front hx hy h
      cases w with
      | int other =>
          simp only [canonicalBytes, bind_eq_ok, pure_eq_ok] at hx hy
          rcases hx with ⟨body, hbody, rfl⟩
          rcases hy with ⟨body', hbody', rfl⟩
          rcases i64_readsBack value hbody hbody' (by simpa using h) with ⟨rfl, hend⟩
          exact ⟨.int value, hend⟩
      | _ => exact halike.elim
  | .float value => by
      intro w x y hx hy r s h
      have halike := alike_of_front hx hy h
      cases w with
      | float other =>
          simp only [canonicalBytes, bind_eq_ok, pure_eq_ok] at hx hy
          rcases hx with ⟨body, hbody, rfl⟩
          rcases hy with ⟨body', hbody', rfl⟩
          rcases binary64_readsBack value hbody hbody' (by simpa using h) with ⟨hsame, hend⟩
          exact ⟨.float hsame, hend⟩
      | _ => exact halike.elim
  | .str value => by
      intro w x y hx hy r s h
      have halike := alike_of_front hx hy h
      cases w with
      | str other =>
          rcases canonicalStr_readsBack value hx hy h with ⟨rfl, hend⟩
          exact ⟨.str value, hend⟩
      | _ => exact halike.elim
  | .list items => list_readsBack (eachValue_readsBack items)
  | .dict items => dict_readsBack (eachItem_readsBack items)

theorem eachValue_readsBack :
    (items : List Value) → ∀ item ∈ items, ReadsBack canonicalBytes Same item
  | [], _, hitem => absurd hitem List.not_mem_nil
  | first :: rest, item, hitem => by
      rcases List.mem_cons.mp hitem with hfirst | hrest
      · exact hfirst ▸ canonicalBytes_readsBack first
      · exact eachValue_readsBack rest item hrest

theorem eachItem_readsBack :
    (items : List (String × Value)) → ∀ item ∈ items, ReadsBack canonicalBytes Same item.2
  | [], _, hitem => absurd hitem List.not_mem_nil
  | (key, first) :: rest, item, hitem => by
      rcases List.mem_cons.mp hitem with hfirst | hrest
      · exact hfirst ▸ canonicalBytes_readsBack first
      · exact eachItem_readsBack rest item hrest

end

/-! ## What can be encoded -/

/-- A value whose lengths and numbers are in range. -/
def Encodable (v : Value) : Prop := ∃ x, canonicalBytes v = .ok x

theorem u32_ok {value : Nat} (h : value ≤ 0xFFFFFFFF) : u32 value = .ok (bigEndian 4 value) := by
  rw [u32, require_of h]
  rfl

theorem canonicalStr_ok {value : String} (h : (utf8 value).length ≤ 0xFFFFFFFF) :
    ∃ x, canonicalStr value = .ok x := by
  rw [canonicalStr, u32_ok h]
  exact ⟨_, rfl⟩

theorem encodable_int {value : Int} (hlow : -2 ^ 63 ≤ value) (hhigh : value ≤ 2 ^ 63 - 1) :
    Encodable (.int value) := by
  rw [Encodable, canonicalBytes, i64, require_of ⟨hlow, hhigh⟩]
  exact ⟨_, rfl⟩

theorem encodable_float {value : Binary64} (h : value.isFinite = true) :
    Encodable (.float value) := by
  rw [Encodable, canonicalBytes, binary64, require_of h]
  exact ⟨_, rfl⟩

theorem encodable_list {items : List Value} (hlength : items.length ≤ 0xFFFFFFFF)
    (h : ∀ item ∈ items, Encodable item) : Encodable (.list items) := by
  have hparts : ∃ parts, joined (canonicalEach items) = .ok parts := by
    rw [canonicalEach_eq]
    refine joined_ok ?_
    intro c hc
    rcases List.mem_map.mp hc with ⟨item, hitem, rfl⟩
    exact h item hitem
  rcases hparts with ⟨parts, hparts⟩
  rw [Encodable, canonicalBytes, u32_ok hlength, hparts]
  exact ⟨_, rfl⟩

theorem encodable_dict {items : List (String × Value)} (hlength : items.length ≤ 0xFFFFFFFF)
    (hkeys : ∀ key ∈ items.map (·.1), (utf8 key).length ≤ 0xFFFFFFFF)
    (h : ∀ item ∈ items, Encodable item.2) : Encodable (.dict items) := by
  have hparts : ∃ parts,
      joined ((sortedByKey (canonicalItems items)).map (·.2)) = .ok parts := by
    rw [sortedByKey_canonicalItems]
    refine joined_ok ?_
    intro c hc
    rcases List.mem_map.mp hc with ⟨item, hitem, rfl⟩
    have hmem := (sortedByKey_perm items).mem_iff.mpr hitem
    rcases canonicalStr_ok (hkeys item.1 (List.mem_map_of_mem hmem)) with ⟨key, hkey⟩
    rcases h item hmem with ⟨body, hbody⟩
    rw [canonicalItem, hkey, hbody]
    exact ⟨_, rfl⟩
  rcases hparts with ⟨parts, hparts⟩
  rw [Encodable, canonicalBytes, u32_ok hlength, hparts]
  exact ⟨_, rfl⟩

end Wire
end Mobility
