import Mathlib.Data.List.Nodup
import Mathlib.Data.List.Perm.Basic
import Mathlib.Data.List.Range
import Mobility.Lib.Table

/-!
# Relocate — numbered rows that give way to numbers already taken

Rows are placed one after the other: a row whose number is free keeps it, any other row
moves to the next number.  The numbers held stay apart, and nothing but the number of a row
changes.  If the numbers held at first and those of the rows leave no gap below `next`, the
numbers held at the end are exactly those below the final `next`.
-/

namespace Mobility
namespace Lib

universe u v

variable {α : Type u} {β : Type v}

/-- The numbers held, the next free number, and the rows that stayed or moved; `left` are
the rows that moved, as they were. -/
structure Placement (α : Type u) where
  held : List Nat
  next : Nat
  kept : List α := []
  left : List α := []
  moved : List α := []

variable {number : α → Nat} {stays : α → Bool} {move : α → Nat → α}

/-- One row is placed: it stays when it may and its number is free. -/
def relocate (number : α → Nat) (stays : α → Bool) (move : α → Nat → α) (state : Placement α)
    (row : α) : Placement α :=
  if number row ∉ state.held ∧ stays row then
    { state with held := number row :: state.held, kept := state.kept ++ [row] }
  else
    { state with
      held := state.next :: state.held
      next := state.next + 1
      left := state.left ++ [row]
      moved := state.moved ++ [move row state.next] }

/-- Held numbers are apart and below `next`, and so are the waiting ones. -/
structure Apart (held : List Nat) (next : Nat) (waiting : List Nat) : Prop where
  apart : held.Nodup
  waitingApart : waiting.Nodup
  below : ∀ n ∈ held, n < next
  waitingBelow : ∀ n ∈ waiting, n < next

theorem Apart.relocate {state : Placement α} {row : α} {waiting : List Nat}
    (h : Apart state.held state.next (number row :: waiting)) :
    Apart (relocate number stays move state row).held (Lib.relocate number stays move state row).next
      waiting := by
  have hwaiting := List.nodup_cons.mp h.waitingApart
  unfold Lib.relocate
  split_ifs with hfree
  · refine ⟨List.nodup_cons.mpr ⟨hfree.1, h.apart⟩, hwaiting.2, ?_, ?_⟩
    · intro n hn
      rcases List.mem_cons.mp hn with rfl | hn
      · exact h.waitingBelow (number row) (by simp)
      · exact h.below n hn
    · exact fun n hn => h.waitingBelow n (List.mem_cons_of_mem _ hn)
  · refine ⟨List.nodup_cons.mpr ⟨?_, h.apart⟩, hwaiting.2, ?_, ?_⟩
    · exact fun hheld => absurd (h.below _ hheld) (Nat.lt_irrefl _)
    · intro n hn
      rcases List.mem_cons.mp hn with rfl | hn
      · exact Nat.lt_succ_self _
      · exact Nat.lt_succ_of_lt (h.below n hn)
    · exact fun n hn => Nat.lt_succ_of_lt (h.waitingBelow n (List.mem_cons_of_mem _ hn))

theorem Apart.foldl {state : Placement α} {rows : List α} {waiting : List Nat}
    (h : Apart state.held state.next (rows.map number ++ waiting)) :
    Apart (rows.foldl (Lib.relocate number stays move) state).held
      (rows.foldl (Lib.relocate number stays move) state).next waiting := by
  induction rows generalizing state with
  | nil => exact h
  | cons row rows ih =>
      have hstep : Apart (Lib.relocate number stays move state row).held
          (Lib.relocate number stays move state row).next (rows.map number ++ waiting) :=
        h.relocate
      exact ih hstep

/-- No number below `next` is missing from the held and the waiting ones. -/
def Gapless (held : List Nat) (next : Nat) (waiting : List Nat) : Prop :=
  ∀ n < next, n ∈ held ∨ n ∈ waiting

theorem Gapless.relocate {state : Placement α} {row : α} {waiting : List Nat}
    (h : Gapless state.held state.next (number row :: waiting)) (hstays : stays row = true) :
    Gapless (relocate number stays move state row).held
      (Lib.relocate number stays move state row).next waiting := by
  unfold Lib.relocate
  split_ifs with hfree
  · intro n hn
    rcases h n hn with hheld | hwaits
    · exact .inl (List.mem_cons_of_mem _ hheld)
    · rcases List.mem_cons.mp hwaits with rfl | hwaits
      · exact .inl (by simp)
      · exact .inr hwaits
  · -- a row that may stay moves only because its number is held
    have htaken : number row ∈ state.held := by
      by_contra hfree'
      exact hfree ⟨hfree', hstays⟩
    intro n hn
    rcases Nat.lt_succ_iff_lt_or_eq.mp hn with hn | rfl
    · rcases h n hn with hheld | hwaits
      · exact .inl (List.mem_cons_of_mem _ hheld)
      · rcases List.mem_cons.mp hwaits with rfl | hwaits
        · exact .inl (List.mem_cons_of_mem _ htaken)
        · exact .inr hwaits
    · exact .inl (by simp)

theorem Gapless.foldl {state : Placement α} {rows : List α} {waiting : List Nat}
    (h : Gapless state.held state.next (rows.map number ++ waiting))
    (hstays : ∀ row ∈ rows, stays row = true) :
    Gapless (rows.foldl (Lib.relocate number stays move) state).held
      (rows.foldl (Lib.relocate number stays move) state).next waiting := by
  induction rows generalizing state with
  | nil => exact h
  | cons row rows ih =>
      have hstep : Gapless (Lib.relocate number stays move state row).held
          (Lib.relocate number stays move state row).next (rows.map number ++ waiting) :=
        h.relocate (hstays row (by simp))
      exact ih hstep (fun other hother => hstays other (List.mem_cons_of_mem _ hother))

/-- Placed at last, numbers without a gap are those below the next one. -/
theorem Gapless.held_perm {held : List Nat} {next : Nat} (h : Gapless held next [])
    (hapart : Apart held next []) : held.Perm (List.range next) := by
  refine (List.perm_ext_iff_of_nodup hapart.apart List.nodup_range).mpr ?_
  intro n
  rw [List.mem_range]
  constructor
  · exact hapart.below n
  · intro hn
    rcases h n hn with hheld | hwaits
    · exact hheld
    · exact absurd hwaits List.not_mem_nil

/-! ## What a placement keeps -/

/-- What was done to the rows placed so far: each stayed as it was, or moved to a number
from `first` on. -/
structure Placed (number : α → Nat) (move : α → Nat → α) (start : List Nat) (first : Nat)
    (done : List α) (state : Placement α) : Prop where
  held : state.held.Perm (start ++ (state.kept ++ state.moved).map number)
  rows : (state.kept ++ state.left).Perm done
  moved : List.Forall₂ (fun row row' => ∃ n, first ≤ n ∧ n < state.next ∧ row' = move row n)
    state.left state.moved
  next : first ≤ state.next
  ascending : state.moved.map number = (List.range' first (state.next - first))

theorem placed_start (start : List Nat) (first : Nat) :
    Placed number move start first [] { held := start, next := first } where
  held := by simp
  rows := by simp
  moved := .nil
  next := Nat.le_refl _
  ascending := by simp

theorem Placed.relocate (hmove : ∀ row n, number (move row n) = n) {start : List Nat} {first : Nat}
    {done : List α} {state : Placement α} (h : Placed number move start first done state)
    (stays : α → Bool) (row : α) :
    Placed number move start first (done ++ [row])
      (Lib.relocate number stays move state row) := by
  unfold Lib.relocate
  split_ifs with hfree
  · refine ⟨?_, ?_, h.moved, h.next, h.ascending⟩
    · calc
        (number row :: state.held).Perm
            (number row :: (start ++ (state.kept ++ state.moved).map number)) := h.held.cons _
        _ |>.Perm (start ++ (state.kept ++ [row] ++ state.moved).map number) := by
          simp only [List.map_append, List.map_cons, List.append_assoc, List.singleton_append]
          refine List.Perm.trans ?_ (List.Perm.append_left start List.perm_middle.symm)
          exact List.perm_middle.symm
    · calc
        (state.kept ++ [row] ++ state.left).Perm (row :: (state.kept ++ state.left)) := by
          simp only [List.append_assoc, List.singleton_append]
          exact List.perm_middle
        _ |>.Perm (row :: done) := h.rows.cons _
        _ |>.Perm (done ++ [row]) := (List.perm_append_singleton row done).symm
  · refine ⟨?_, ?_, ?_, Nat.le_succ_of_le h.next, ?_⟩
    · calc
        (state.next :: state.held).Perm
            (state.next :: (start ++ (state.kept ++ state.moved).map number)) := h.held.cons _
        _ |>.Perm (start ++ (state.kept ++ state.moved).map number ++ [state.next]) :=
          (List.perm_append_singleton _ _).symm
        _ |>.Perm (start ++ (state.kept ++ (state.moved ++ [move row state.next])).map number) := by
          simp [hmove]
    · calc
        (state.kept ++ (state.left ++ [row])).Perm (state.kept ++ state.left ++ [row]) := by
          rw [List.append_assoc]
        _ |>.Perm (done ++ [row]) := h.rows.append_right _
    · refine List.rel_append ?_ (.cons ⟨state.next, h.next, Nat.lt_succ_self _, rfl⟩ .nil)
      refine h.moved.imp ?_
      rintro old new ⟨n, hfrom, hto, rfl⟩
      exact ⟨n, hfrom, Nat.lt_succ_of_lt hto, rfl⟩
    · have hcount : state.next + 1 - first = state.next - first + 1 := Nat.succ_sub h.next
      have hlast : first + (state.next - first) = state.next := Nat.add_sub_cancel' h.next
      rw [List.map_append, h.ascending, hcount, List.range'_concat]
      simp [hmove, hlast]

theorem Placed.foldl (hmove : ∀ row n, number (move row n) = n) {start : List Nat} {first : Nat}
    {rows done : List α} {state : Placement α} (h : Placed number move start first done state) :
    Placed number move start first (done ++ rows)
      (rows.foldl (Lib.relocate number stays move) state) := by
  induction rows generalizing done state with
  | nil => simpa using h
  | cons row rows ih =>
      have hrest := ih (h.relocate hmove stays row)
      simpa using hrest

/-- The whole placement, from the first numbers. -/
theorem placement (hmove : ∀ row n, number (move row n) = n) {start : List Nat} {first : Nat}
    {rows : List α} {waiting : List Nat} (hapart : Apart start first (rows.map number ++ waiting))
    {state : Placement α}
    (h : rows.foldl (relocate number stays move) { held := start, next := first } = state) :
    Placed number move start first rows state ∧ Apart state.held state.next waiting := by
  rw [← h]
  exact ⟨by simpa using (placed_start start first).foldl hmove, hapart.foldl⟩

/-- A column that moving leaves alone is the same over the placed rows. -/
theorem Placed.content {start : List Nat} {first : Nat} {rows : List α} {state : Placement α}
    (h : Placed number move start first rows state) {content : α → β}
    (hcontent : ∀ row n, content (move row n) = content row) :
    ((state.kept ++ state.moved).map content).Perm (rows.map content) := by
  have hcolumn : state.moved.map content = state.left.map content := by
    refine map_eq_of_forall₂ ?_ h.moved
    rintro row _ ⟨n, _, _, rfl⟩
    exact hcontent row n
  rw [List.map_append, hcolumn, ← List.map_append]
  exact h.rows.map content

end Lib
end Mobility
