import Mathlib.Data.List.Basic

/-!
# Scans — greedy runs along a line of positions

A run starts at an anchor and takes in the positions after it as long as each of them joins
the anchor.  A greedy scan tries one anchor after the other: an anchor with a long enough run
gives its longest run and the scan goes on behind it, any other anchor is passed by.

`Greedy` is that scan as a relation.  The runs it gives are sound, follow one another, and
cover every anchor of a long run; and there is only one way to scan.
-/

namespace Mobility
namespace Lib

section

variable (joins long : Nat → Nat → Prop) (count : Nat)

/-- At least one position after the anchor, and all of them up to `last` join it. -/
structure Run (anchor last : Nat) : Prop where
  extends_anchor : anchor < last
  inside : last < count
  joined : ∀ j, anchor < j → j ≤ last → joins anchor j

/-- A run that no further position joins. -/
structure LongestRun (anchor last : Nat) : Prop extends Run joins count anchor last where
  longest : ∀ last', Run joins count anchor last' → last' ≤ last

/-- The scan from an anchor on, with the runs it gives. -/
inductive Greedy : Nat → List (Nat × Nat) → Prop where
  | done {anchor : Nat} :
      count ≤ anchor + 1 → Greedy anchor []
  | jump {anchor last : Nat} {runs : List (Nat × Nat)} :
      LongestRun joins count anchor last → long anchor last → Greedy (last + 1) runs →
        Greedy anchor ((anchor, last) :: runs)
  | pass {anchor : Nat} {runs : List (Nat × Nat)} :
      (∀ last, Run joins count anchor last → ¬ long anchor last) → Greedy (anchor + 1) runs →
        Greedy anchor runs

end

variable {joins long : Nat → Nat → Prop} {count : Nat}

/-! ## Runs -/

/-- Positions join up to `last`, and then the line ends or the next one does not join. -/
structure Stops (joins : Nat → Nat → Prop) (count anchor last : Nat) : Prop where
  le : anchor ≤ last
  inside : last < count
  joined : ∀ j, anchor < j → j ≤ last → joins anchor j
  stop : last + 1 < count → ¬ joins anchor (last + 1)

theorem Stops.le_of_run {anchor last last' : Nat} (h : Stops joins count anchor last)
    (hrun : Run joins count anchor last') : last' ≤ last := by
  by_contra hlater
  have hnext : last + 1 ≤ last' := Nat.lt_of_not_le hlater
  -- a run that goes further takes in the position that does not join
  apply h.stop (Nat.lt_of_le_of_lt hnext hrun.inside)
  exact hrun.joined (last + 1) (Nat.lt_succ_of_le h.le) hnext

theorem Stops.longestRun {anchor last : Nat} (h : Stops joins count anchor last)
    (hfirst : anchor < last) : LongestRun joins count anchor last where
  extends_anchor := hfirst
  inside := h.inside
  joined := h.joined
  longest := fun _ hrun => h.le_of_run hrun

theorem Stops.eq_of_longest {anchor last last' : Nat} (h : Stops joins count anchor last)
    (hlongest : LongestRun joins count anchor last') : last = last' := by
  have hle : last' ≤ last := h.le_of_run hlongest.toRun
  have hrun : LongestRun joins count anchor last :=
    h.longestRun (Nat.lt_of_lt_of_le hlongest.extends_anchor hle)
  exact Nat.le_antisymm (hlongest.longest last hrun.toRun) hle

/-! ## What a scan gives -/

namespace Greedy

variable {start : Nat} {runs : List (Nat × Nat)} {run : Nat × Nat}

theorem sound (h : Greedy joins long count start runs) (hrun : run ∈ runs) :
    start ≤ run.1 ∧ LongestRun joins count run.1 run.2 ∧ long run.1 run.2 := by
  induction h with
  | done _ => cases hrun
  | @jump anchor last runs hlongest hlong _ ih =>
      rcases List.mem_cons.mp hrun with rfl | hrun
      · exact ⟨Nat.le_refl _, hlongest, hlong⟩
      · rcases ih hrun with ⟨hstart, hrest⟩
        refine ⟨?_, hrest⟩
        calc anchor ≤ last + 1 := Nat.le_succ_of_le (Nat.le_of_lt hlongest.extends_anchor)
          _ ≤ run.1 := hstart
  | pass _ _ ih =>
      rcases ih hrun with ⟨hstart, hrest⟩
      exact ⟨Nat.le_of_succ_le hstart, hrest⟩

/-- A run ends before the next ones start. -/
theorem pairwise (h : Greedy joins long count start runs) :
    runs.Pairwise (fun run run' => run.2 < run'.1) := by
  induction h with
  | done _ => exact List.Pairwise.nil
  | jump _ _ hrest ih =>
      refine List.pairwise_cons.mpr ⟨?_, ih⟩
      intro run hrun
      exact (hrest.sound hrun).1
  | pass _ _ ih => exact ih

/-- The anchor of a long run lies in a run of the scan, its own or an earlier one. -/
theorem complete (h : Greedy joins long count start runs) {first last : Nat}
    (hstart : start ≤ first) (hrun : Run joins count first last) (hlong : long first last) :
    ∃ run ∈ runs, run.1 ≤ first ∧ first ≤ run.2 := by
  induction h with
  | @done anchor hend =>
      have hinside := hrun.inside
      have hfirst := hrun.extends_anchor
      omega
  | @jump anchor stop runs hlongest _ _ ih =>
      by_cases hcovered : first ≤ stop
      · exact ⟨(anchor, stop), List.mem_cons_self, hstart, hcovered⟩
      · rcases ih (Nat.lt_of_not_le hcovered) with ⟨run, hmem, hrun'⟩
        exact ⟨run, List.mem_cons_of_mem _ hmem, hrun'⟩
  | @pass anchor runs hnone _ ih =>
      -- the anchor passed by starts no long run, so it is not this one
      have hne : anchor ≠ first := by
        rintro rfl
        exact hnone last hrun hlong
      exact ih (Nat.lt_of_le_of_ne hstart hne)

/-- No run starts at the end of the line. -/
theorem eq_nil (h : Greedy joins long count start runs) (hend : count ≤ start + 1) : runs = [] := by
  induction h with
  | done _ => rfl
  | jump hlongest _ _ =>
      have hinside := hlongest.inside
      have hfirst := hlongest.extends_anchor
      omega
  | pass _ _ ih => exact ih (Nat.le_succ_of_le hend)

/-- There is one way to scan. -/
theorem unique {runs' : List (Nat × Nat)} (h : Greedy joins long count start runs)
    (h' : Greedy joins long count start runs') : runs = runs' := by
  induction h generalizing runs' with
  | done hend => exact (h'.eq_nil hend).symm
  | @jump anchor last runs hlongest hlong hrest ih =>
      cases h' with
      | done hend =>
          have hinside := hlongest.inside
          have hfirst := hlongest.extends_anchor
          omega
      | @jump _ last' runs' hlongest' _ hrest' =>
          have hlast : last = last' :=
            Nat.le_antisymm (hlongest'.longest last hlongest.toRun)
              (hlongest.longest last' hlongest'.toRun)
          subst hlast
          rw [ih hrest']
      | pass hnone _ => exact absurd hlong (hnone last hlongest.toRun)
  | @pass anchor runs hnone hrest ih =>
      cases h' with
      | done hend => exact hrest.eq_nil (Nat.le_succ_of_le hend)
      | @jump _ last' _ hlongest' hlong' _ => exact absurd hlong' (hnone last' hlongest'.toRun)
      | pass _ hrest' => exact ih hrest'

end Greedy

end Lib
end Mobility
