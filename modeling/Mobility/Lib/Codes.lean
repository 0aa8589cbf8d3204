import Mobility.Lib.Checked
import Mathlib.Algebra.Ring.Nat
import Mathlib.Data.List.Forall2

/-!
# Codes — encodings that can be read off the front of a string

An encoding that may refuse a value *reads back* at `a` when no other accepted
value explains the front of a string that starts with the code of `a`, whatever
follows.  Such codes are injective and prefix-free, and they compose: a list of
them after its length, or a fixed number of bytes, reads back again.
-/

namespace Mobility
namespace Lib

universe u v w

variable {ε : Type u} {α : Type v} {σ : Type w}

/-- The code of `a` determines `a` (up to `R`) and where the code ends. -/
def ReadsBack (code : α → Except ε (List σ)) (R : α → α → Prop) (a : α) : Prop :=
  ∀ ⦃b : α⦄ ⦃x y : List σ⦄, code a = .ok x → code b = .ok y →
    ∀ ⦃r s : List σ⦄, x ++ r = y ++ s → R a b ∧ r = s

variable {code : α → Except ε (List σ)} {R : α → α → Prop}

theorem ReadsBack.injective {a b : α} (ha : ReadsBack code R a) {x : List σ}
    (hx : code a = .ok x) (hy : code b = .ok x) : R a b :=
  (ha (r := []) (s := []) hx hy rfl).1

/-- A code that starts another accepted code is that code. -/
theorem ReadsBack.prefixFree {a b : α} (ha : ReadsBack code R a) {x y : List σ}
    (hx : code a = .ok x) (hy : code b = .ok y) (hfront : x <+: y) : x = y := by
  rcases hfront with ⟨rest, hrest⟩
  have hend := (ha hx hy (r := rest) (s := []) (by simpa using hrest)).2
  simpa [hend] using hrest

/-- Codes of one fixed length read back as soon as they are injective. -/
theorem readsBack_of_length {n : Nat} (hlength : ∀ a x, code a = .ok x → x.length = n)
    (hinj : ∀ a b x, code a = .ok x → code b = .ok x → R a b) (a : α) : ReadsBack code R a := by
  intro b x y hx hy r s h
  have hlengths : x.length = y.length := (hlength a x hx).trans (hlength b y hy).symm
  rcases List.append_inj h hlengths with ⟨rfl, hrest⟩
  exact ⟨hinj a b x hx hy, hrest⟩

/-! ## Joining -/

/-- `b"".join(…)` over codes that may be refused: the first refusal is the result. -/
def joined : List (Except ε (List σ)) → Except ε (List σ)
  | [] => .ok []
  | code :: codes => do
      let front ← code
      let rest ← joined codes
      return front ++ rest

theorem joined_cons_eq_ok {c : Except ε (List σ)} {cs : List (Except ε (List σ))} {x : List σ} :
    joined (c :: cs) = .ok x ↔
      ∃ front, c = .ok front ∧ ∃ rest, joined cs = .ok rest ∧ front ++ rest = x := by
  simp [joined]

theorem joined_ok {cs : List (Except ε (List σ))} (h : ∀ c ∈ cs, ∃ x, c = .ok x) :
    ∃ x, joined cs = .ok x := by
  induction cs with
  | nil => exact ⟨[], rfl⟩
  | cons c cs ih =>
      rcases h c List.mem_cons_self with ⟨front, hfront⟩
      rcases ih (fun c hc => h c (List.mem_cons_of_mem _ hc)) with ⟨rest, hrest⟩
      exact ⟨front ++ rest, joined_cons_eq_ok.mpr ⟨front, hfront, rest, hrest, rfl⟩⟩

theorem ok_of_joined {cs : List (Except ε (List σ))} {x : List σ} (h : joined cs = .ok x) :
    ∀ c ∈ cs, ∃ y, c = .ok y := by
  induction cs generalizing x with
  | nil => simp
  | cons c cs ih =>
      rcases joined_cons_eq_ok.mp h with ⟨front, hfront, rest, hrest, _⟩
      intro d hd
      rcases List.mem_cons.mp hd with rfl | hd
      · exact ⟨front, hfront⟩
      · exact ih hrest d hd

/-- Equally many codes, each of which reads back, read back when joined. -/
theorem joined_readsBack {as bs : List α} (has : ∀ a ∈ as, ReadsBack code R a)
    (hlength : as.length = bs.length) {x y : List σ} (hx : joined (as.map code) = .ok x)
    (hy : joined (bs.map code) = .ok y) {r s : List σ} (h : x ++ r = y ++ s) :
    List.Forall₂ R as bs ∧ r = s := by
  induction as generalizing bs x y with
  | nil =>
      have hbs : bs = [] := List.length_eq_zero_iff.mp hlength.symm
      subst hbs
      have hxe : [] = x := by simpa [joined] using hx
      have hye : [] = y := by simpa [joined] using hy
      subst hxe hye
      exact ⟨.nil, by simpa using h⟩
  | cons a as ih =>
      cases bs with
      | nil => simp at hlength
      | cons b bs =>
          rcases joined_cons_eq_ok.mp hx with ⟨front, hfront, rest, hrest, rfl⟩
          rcases joined_cons_eq_ok.mp hy with ⟨front', hfront', rest', hrest', rfl⟩
          rw [List.append_assoc, List.append_assoc] at h
          rcases has a List.mem_cons_self hfront hfront' h with ⟨hab, htail⟩
          have htails := ih (fun a ha => has a (List.mem_cons_of_mem _ ha))
            (by simpa using hlength) hrest hrest' htail
          exact ⟨.cons hab htails.1, htails.2⟩

/-! ## Fixed-width numbers -/

/-- The `width` lowest base-256 digits of `n`, the most significant first. -/
def bigEndian : Nat → Nat → List UInt8
  | 0, _ => []
  | width + 1, n => UInt8.ofNat (n / 256 ^ width) :: bigEndian width n

@[simp]
theorem bigEndian_length (width n : Nat) : (bigEndian width n).length = width := by
  induction width with
  | zero => rfl
  | succ width ih => simp [bigEndian, ih]

/-- Equal digits are congruent numbers. -/
theorem bigEndian_modEq {width m n : Nat} (h : bigEndian width m = bigEndian width n) :
    m % 256 ^ width = n % 256 ^ width := by
  induction width with
  | zero => simp [Nat.mod_one]
  | succ width ih =>
      simp only [bigEndian, List.cons.injEq] at h
      have hdigit : m / 256 ^ width % 256 = n / 256 ^ width % 256 := by
        have := congrArg UInt8.toNat h.1
        simpa using this
      calc m % 256 ^ (width + 1)
          = m % 256 ^ width + 256 ^ width * (m / 256 ^ width % 256) := by
            rw [Nat.pow_succ, Nat.mod_mul]
        _ = n % 256 ^ width + 256 ^ width * (n / 256 ^ width % 256) := by
            rw [ih h.2, hdigit]
        _ = n % 256 ^ (width + 1) := by rw [Nat.pow_succ, Nat.mod_mul]

theorem bigEndian_injective {width m n : Nat} (hm : m < 256 ^ width) (hn : n < 256 ^ width)
    (h : bigEndian width m = bigEndian width n) : m = n := by
  have hmod := bigEndian_modEq h
  rwa [Nat.mod_eq_of_lt hm, Nat.mod_eq_of_lt hn] at hmod

end Lib
end Mobility
