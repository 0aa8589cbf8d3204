import Mathlib.Algebra.BigOperators.Group.List.Basic
import Mathlib.Algebra.Order.BigOperators.Group.List
import Mathlib.Algebra.Ring.Nat
import Mathlib.Data.List.Chain
import Mathlib.Data.List.Sort
import Mathlib.Order.Interval.Finset.Nat

/-!
# Cuts — the slices between consecutive cut points

A sorted list of points cuts the line into slices, one between each point and the next.
The slices follow one another without overlapping, no point lies inside a slice, every
position between the first and the last point lies in one, and the lengths add up.
-/

namespace Mobility
namespace Lib

universe u

/-- Each point with the next one. -/
def slices {α : Type u} (points : List α) : List (α × α) :=
  points.zip points.tail

section

variable {α : Type u} {points : List α} {slice : α × α}

@[simp]
theorem slices_nil : slices ([] : List α) = [] := rfl

@[simp]
theorem slices_singleton (p : α) : slices [p] = [] := rfl

@[simp]
theorem slices_cons_cons (p q : α) (rest : List α) :
    slices (p :: q :: rest) = (p, q) :: slices (q :: rest) := rfl

theorem mem_of_mem_slices (h : slice ∈ slices points) : slice.1 ∈ points ∧ slice.2 ∈ points :=
  ⟨(List.of_mem_zip h).1, List.mem_of_mem_tail (List.of_mem_zip h).2⟩

variable [LinearOrder α]

theorem slices_lt (hsorted : points.Pairwise (· < ·)) (h : slice ∈ slices points) :
    slice.1 < slice.2 := by
  induction points with
  | nil => exact absurd h List.not_mem_nil
  | cons p rest ih =>
      cases rest with
      | nil => exact absurd h List.not_mem_nil
      | cons q rest =>
          rcases List.mem_cons.mp h with rfl | h
          · exact List.rel_of_pairwise_cons hsorted List.mem_cons_self
          · exact ih hsorted.of_cons h

/-- A slice ends before the next ones start. -/
theorem slices_pairwise (hsorted : points.Pairwise (· < ·)) :
    (slices points).Pairwise (fun s t => s.2 ≤ t.1) := by
  induction points with
  | nil => exact List.Pairwise.nil
  | cons p rest ih =>
      cases rest with
      | nil => exact List.Pairwise.nil
      | cons q rest =>
          refine List.pairwise_cons.mpr ⟨?_, ih hsorted.of_cons⟩
          intro t ht
          rcases List.mem_cons.mp (mem_of_mem_slices ht).1 with hfirst | hlater
          · exact hfirst.ge
          · exact (List.rel_of_pairwise_cons hsorted.of_cons hlater).le

/-- No point lies inside a slice. -/
theorem le_or_le_of_mem_slices (hsorted : points.Pairwise (· < ·)) (h : slice ∈ slices points)
    {p : α} (hp : p ∈ points) : p ≤ slice.1 ∨ slice.2 ≤ p := by
  induction points with
  | nil => exact absurd h List.not_mem_nil
  | cons first rest ih =>
      cases rest with
      | nil => exact absurd h List.not_mem_nil
      | cons q rest =>
          rcases List.mem_cons.mp h with rfl | hlater
          · rcases List.mem_cons.mp hp with rfl | hp
            · exact .inl (le_refl _)
            · rcases List.mem_cons.mp hp with rfl | hp
              · exact .inr (le_refl _)
              · exact .inr (List.rel_of_pairwise_cons hsorted.of_cons hp).le
          · rcases List.mem_cons.mp hp with rfl | hp
            · exact .inl (List.rel_of_pairwise_cons hsorted (mem_of_mem_slices hlater).1).le
            · exact ih hsorted.of_cons hlater hp

/-- Every position from a point up to a later one lies in a slice. -/
theorem exists_slice (hsorted : points.Pairwise (· < ·)) {first last x : α}
    (hfirst : first ∈ points) (hlast : last ∈ points) (hle : first ≤ x) (hlt : x < last) :
    ∃ slice ∈ slices points, slice.1 ≤ x ∧ x < slice.2 := by
  induction points generalizing first with
  | nil => exact absurd hfirst List.not_mem_nil
  | cons p rest ih =>
      have hp : p ≤ x := by
        rcases List.mem_cons.mp hfirst with rfl | hfirst
        · exact hle
        · exact (List.rel_of_pairwise_cons hsorted hfirst).le.trans hle
      have hlater : last ∈ rest := by
        rcases List.mem_cons.mp hlast with rfl | hlast
        · exact absurd hlt (not_lt.mpr hp)
        · exact hlast
      cases rest with
      | nil => exact absurd hlater List.not_mem_nil
      | cons q rest =>
          by_cases hq : x < q
          · exact ⟨(p, q), List.mem_cons_self, hp, hq⟩
          · rcases ih hsorted.of_cons List.mem_cons_self hlater (not_lt.mp hq) with
              ⟨slice, hslice, hin⟩
            exact ⟨slice, List.mem_cons_of_mem _ hslice, hin⟩

theorem head?_eq_of_le (hsorted : points.Pairwise (· < ·)) {p : α} (hp : p ∈ points)
    (hle : ∀ q ∈ points, p ≤ q) : points.head? = some p := by
  cases points with
  | nil => exact absurd hp List.not_mem_nil
  | cons q rest =>
      rcases List.mem_cons.mp hp with rfl | hp
      · rfl
      · have hlt := List.rel_of_pairwise_cons hsorted hp
        exact absurd (hle q List.mem_cons_self) (not_le.mpr hlt)

theorem getLast?_eq_of_le (hsorted : points.Pairwise (· < ·)) {p : α} (hp : p ∈ points)
    (hle : ∀ q ∈ points, q ≤ p) : points.getLast? = some p := by
  rcases List.eq_nil_or_concat points with rfl | ⟨init, q, rfl⟩
  · exact absurd hp List.not_mem_nil
  · rw [List.concat_eq_append] at hsorted hp hle ⊢
    rcases List.mem_append.mp hp with hp | hp
    · have hlt := (List.pairwise_append.mp hsorted).2.2 p hp q List.mem_cons_self
      exact absurd (hle q (by simp)) (not_le.mpr hlt)
    · rw [List.getLast?_concat, List.mem_singleton.mp hp]

end

/-! ## Lengths -/

section

variable {points : List Nat}

/-- The lengths add up to the distance of the outer points. -/
theorem sum_lengths {first last : Nat} (hsorted : points.Pairwise (· < ·))
    (hfirst : points.head? = some first) (hlast : points.getLast? = some last) :
    ((slices points).map (fun slice => slice.2 - slice.1)).sum = last - first := by
  induction points generalizing first with
  | nil => exact absurd hfirst (by simp)
  | cons p rest ih =>
      obtain rfl : p = first := Option.some.inj hfirst
      cases rest with
      | nil =>
          obtain rfl : p = last := Option.some.inj hlast
          simp
      | cons q rest =>
          have hpq : p < q := List.rel_of_pairwise_cons hsorted List.mem_cons_self
          have hlast' : (q :: rest).getLast? = some last := by
            simpa [List.getLast?_cons_cons] using hlast
          have hq : q ≤ last := by
            rcases List.mem_cons.mp (List.mem_of_getLast? hlast') with rfl | hmem
            · exact le_refl _
            · exact (List.rel_of_pairwise_cons hsorted.of_cons hmem).le
          have hrest := ih hsorted.of_cons rfl hlast'
          rw [slices_cons_cons, List.map_cons, List.sum_cons, hrest]
          omega

/-- The positions that a list of stretches covers. -/
def covered (stretches : List (Nat × Nat)) : Finset Nat :=
  stretches.toFinset.biUnion (fun stretch => Finset.Ico stretch.1 stretch.2)

theorem mem_covered {stretches : List (Nat × Nat)} {x : Nat} :
    x ∈ covered stretches ↔ ∃ stretch ∈ stretches, stretch.1 ≤ x ∧ x < stretch.2 := by
  simp [covered]

/-- Stretches that follow one another cover as much as their lengths add up to. -/
theorem card_covered {stretches : List (Nat × Nat)}
    (h : stretches.Pairwise (fun s t => s.2 ≤ t.1)) :
    (covered stretches).card = (stretches.map (fun stretch => stretch.2 - stretch.1)).sum := by
  induction stretches with
  | nil => rfl
  | cons stretch rest ih =>
      rcases List.pairwise_cons.mp h with ⟨hafter, hrest⟩
      have hsplit : covered (stretch :: rest)
          = Finset.Ico stretch.1 stretch.2 ∪ covered rest := by
        ext x
        simp [mem_covered]
      have hdisjoint : Disjoint (Finset.Ico stretch.1 stretch.2) (covered rest) := by
        refine Finset.disjoint_left.mpr ?_
        intro x hx hcovered
        rcases mem_covered.mp hcovered with ⟨later, hlater, hle, _⟩
        have hbefore := hafter later hlater
        have hlt := (Finset.mem_Ico.mp hx).2
        omega
      rw [hsplit, Finset.card_union_of_disjoint hdisjoint, Nat.card_Ico, ih hrest,
        List.map_cons, List.sum_cons]

end

end Lib
end Mobility
