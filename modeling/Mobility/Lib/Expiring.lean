import Mathlib.Logic.Function.Basic
import Mathlib.Order.Basic
import Mathlib.Data.Int.Order.Basic

/-!
# Expiring — counters whose keys have a time to live

A store of integers under keys, each with an optional deadline, and the commands that
scripts are made of.  The clock counts milliseconds and windows count seconds.  Nothing
vanishes by itself: a key that is past its deadline is dropped by a step of its own.

`Kept` is what a script has to maintain: no counter is negative, and every key has a
deadline.
-/

namespace Mobility
namespace Lib
namespace Expiring

structure Entry where
  value : Int
  deadline : Option Int := none
  deriving DecidableEq, Repr

structure Store (K : Type) where
  now : Int := 0
  entries : K → Option Entry := fun _ => none

namespace Store

variable {K : Type} [DecidableEq K]

def put (r : Store K) (key : K) (entry : Option Entry) : Store K :=
  { r with entries := Function.update r.entries key entry }

/-- `GET`, where a missing key counts as zero. -/
def get (r : Store K) (key : K) : Int :=
  ((r.entries key).map (·.value)).getD 0

/-- `INCRBY`: a missing key starts at zero, and a deadline stays. -/
def incrBy (delta : Int) (r : Store K) (key : K) : Store K :=
  r.put key (some
    { value := r.get key + delta, deadline := (r.entries key).bind (·.deadline) })

def incr (r : Store K) (key : K) : Store K × Int :=
  (r.incrBy 1 key, r.get key + 1)

def decr (r : Store K) (key : K) : Store K :=
  r.incrBy (-1) key

def del (r : Store K) (key : K) : Store K :=
  r.put key none

/-- `EXPIRE`: nothing happens to a missing key, and a window that is over deletes. -/
def expire (r : Store K) (key : K) (window : Int) : Store K :=
  if window ≤ 0 then r.del key
  else r.put key ((r.entries key).map fun entry =>
    { entry with deadline := some (r.now + 1000 * window) })

/-- `TTL`: -2 for a missing key, -1 for a key without deadline, else rounded seconds. -/
def ttl (r : Store K) (key : K) : Int :=
  match r.entries key with
  | none => -2
  | some entry =>
      match entry.deadline with
      | none => -1
      | some deadline => (max 0 (deadline - r.now) + 500) / 1000

/-- `SET key 1 NX EX window`, and whether it was set. -/
def setNxEx (r : Store K) (key : K) (window : Int) : Store K × Bool :=
  if (r.entries key).isSome then (r, false)
  else
    (r.put key (some { value := 1, deadline := some (r.now + 1000 * window) }), true)

/-- The key's deadline is over. -/
def Due (r : Store K) (key : K) : Prop :=
  ((r.entries key).bind (·.deadline)).any (· ≤ r.now) = true

instance (r : Store K) (key : K) : Decidable (r.Due key) :=
  inferInstanceAs (Decidable (_ = true))

/-! ## What one command does to one key -/

@[simp]
theorem put_now (r : Store K) (key : K) (entry : Option Entry) : (r.put key entry).now = r.now :=
  rfl

@[simp]
theorem put_entries_self (r : Store K) (key : K) (entry : Option Entry) :
    (r.put key entry).entries key = entry := by
  simp [put]

theorem put_entries_of_ne (r : Store K) {key other : K} (entry : Option Entry)
    (h : other ≠ key) : (r.put key entry).entries other = r.entries other := by
  simp [put, h]

@[simp]
theorem incr_fst (r : Store K) (key : K) : (r.incr key).1 = r.incrBy 1 key :=
  rfl

@[simp]
theorem incr_snd (r : Store K) (key : K) : (r.incr key).2 = r.get key + 1 :=
  rfl

@[simp]
theorem get_incrBy_self (r : Store K) (delta : Int) (key : K) :
    (r.incrBy delta key).get key = r.get key + delta := by
  simp [incrBy, get]

omit [DecidableEq K] in
theorem get_of_some {r : Store K} {key : K} {entry : Entry} (h : r.entries key = some entry) :
    r.get key = entry.value := by
  simp [get, h]

omit [DecidableEq K] in
theorem get_of_none {r : Store K} {key : K} (h : r.entries key = none) : r.get key = 0 := by
  simp [get, h]

omit [DecidableEq K] in
theorem get_congr {r r' : Store K} {key : K} (h : r'.entries key = r.entries key) :
    r'.get key = r.get key := by
  simp [get, h]

/-- A window that is not over only moves the deadline. -/
theorem get_expire (r : Store K) (key : K) {window : Int} (hwindow : 0 < window) (other : K) :
    (r.expire key window).get other = r.get other := by
  rw [expire, if_neg (not_le.mpr hwindow)]
  by_cases h : other = key
  · subst h
    cases hentry : r.entries other with
    | none => simp [get, hentry]
    | some entry => simp [get, hentry]
  · exact get_congr (put_entries_of_ne _ _ h)

theorem isSome_expire (r : Store K) (key : K) {window : Int} (hwindow : 0 < window) (other : K) :
    ((r.expire key window).entries other).isSome = (r.entries other).isSome := by
  rw [expire, if_neg (not_le.mpr hwindow)]
  by_cases h : other = key
  · subst h
    cases hentry : r.entries other with
    | none => simp
    | some entry => simp
  · rw [put_entries_of_ne _ _ h]

theorem setNxEx_entries_of_ne (r : Store K) {key other : K} (window : Int) (h : other ≠ key) :
    ((r.setNxEx key window).1).entries other = r.entries other := by
  rw [setNxEx]
  by_cases hset : (r.entries key).isSome
  · rw [if_pos hset]
  · rw [if_neg hset]
    exact put_entries_of_ne _ _ h

/-! ## The invariant of scripts -/

/-- No counter is below zero, and every key has a deadline. -/
def Kept (r : Store K) : Prop :=
  ∀ key entry, r.entries key = some entry → 0 ≤ entry.value ∧ entry.deadline.isSome = true

omit [DecidableEq K] in
theorem Kept.get_nonneg {r : Store K} (h : r.Kept) (key : K) : 0 ≤ r.get key := by
  cases hentry : r.entries key with
  | none => exact le_of_eq (get_of_none hentry).symm
  | some entry => exact get_of_some hentry ▸ (h key entry hentry).1

theorem Kept.put {r : Store K} (h : r.Kept) {key : K} {entry : Option Entry}
    (hentry : ∀ e, entry = some e → 0 ≤ e.value ∧ e.deadline.isSome = true) :
    (r.put key entry).Kept := by
  intro other e he
  by_cases hother : other = key
  · subst hother
    exact hentry e (by simpa using he)
  · exact h other e (by rwa [put_entries_of_ne _ _ hother] at he)

theorem Kept.del {r : Store K} (h : r.Kept) (key : K) : (r.del key).Kept :=
  h.put (fun _ he => nomatch he)

theorem Kept.expire {r : Store K} (h : r.Kept) (key : K) (window : Int) :
    (r.expire key window).Kept := by
  rw [Store.expire]
  by_cases hwindow : window ≤ 0
  · rw [if_pos hwindow]
    exact h.del key
  · rw [if_neg hwindow]
    refine h.put fun e he => ?_
    rcases Option.map_eq_some_iff.mp he with ⟨entry, hentry, rfl⟩
    exact ⟨(h key entry hentry).1, rfl⟩

theorem Kept.setNxEx {r : Store K} (h : r.Kept) (key : K) (window : Int) :
    ((r.setNxEx key window).1).Kept := by
  rw [Store.setNxEx]
  by_cases hset : (r.entries key).isSome
  · rw [if_pos hset]
    exact h
  · rw [if_neg hset]
    refine h.put fun e he => ?_
    cases he
    exact ⟨Int.one_nonneg, rfl⟩

/-- A counter that stays at zero or more keeps its deadline, if it had one. -/
theorem Kept.incrBy {r : Store K} (h : r.Kept) {key : K} {delta : Int}
    (hvalue : 0 ≤ r.get key + delta) (hsome : (r.entries key).isSome = true) :
    (r.incrBy delta key).Kept := by
  refine h.put fun e he => ?_
  cases he
  rcases Option.isSome_iff_exists.mp hsome with ⟨entry, hentry⟩
  exact ⟨hvalue, by simpa [hentry] using (h key entry hentry).2⟩

/-- A new deadline mends the one key that may lack it. -/
theorem kept_expire {r : Store K} {key : K} {window : Int} (hwindow : 0 < window)
    (hvalue : 0 ≤ r.get key)
    (hothers : ∀ other entry, other ≠ key → r.entries other = some entry →
      0 ≤ entry.value ∧ entry.deadline.isSome = true) :
    (r.expire key window).Kept := by
  rw [Store.expire, if_neg (not_le.mpr hwindow)]
  intro other e he
  by_cases hother : other = key
  · subst hother
    rw [put_entries_self] at he
    rcases Option.map_eq_some_iff.mp he with ⟨entry, hentry, rfl⟩
    exact ⟨get_of_some hentry ▸ hvalue, rfl⟩
  · rw [put_entries_of_ne _ _ hother] at he
    exact hothers other e hother he

/-- An increment followed by a new deadline needs nothing of the key. -/
theorem Kept.incr_expire {r : Store K} (h : r.Kept) (key : K) {window : Int}
    (hwindow : 0 < window) : ((r.incrBy 1 key).expire key window).Kept := by
  refine kept_expire hwindow ?_ ?_
  · have hnonneg := h.get_nonneg key
    rw [get_incrBy_self]
    omega
  · intro other entry hother hentry
    rw [Store.incrBy, put_entries_of_ne _ _ hother] at hentry
    exact h other entry hentry

end Store
end Expiring
end Lib
end Mobility
