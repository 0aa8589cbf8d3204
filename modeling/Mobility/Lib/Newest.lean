import Mathlib.Data.List.Sort
import Mathlib.Order.Basic
import Mathlib.Order.Defs.LinearOrder

/-!
# Newest — the newest of many dated values

Several writers append dated values; a reader scans them in any stored order and
keeps the strictly newest one, starting from an undated first value.
-/

namespace Mobility
namespace Lib

universe u v

variable {τ : Type u} [LinearOrder τ] {α : Type v}

/-- Keep the candidate only when it is strictly newer than the best so far. -/
def keepNewer (best : Option τ × α) (candidate : τ × α) : Option τ × α :=
  if best.1.all (· < candidate.1) then (some candidate.1, candidate.2) else best

def newest (initial : α) (candidates : List (τ × α)) : α :=
  (candidates.foldl keepNewer (none, initial)).2

@[simp]
theorem newest_nil (initial : α) : newest initial ([] : List (τ × α)) = initial := rfl

/-- Once the newest value is held, no candidate replaces it. -/
theorem foldl_keepNewer_of_le {t : τ} {value : α} :
    ∀ {candidates : List (τ × α)}, (∀ c ∈ candidates, c.1 ≤ t) →
      candidates.foldl keepNewer (some t, value) = (some t, value) := by
  intro candidates
  induction candidates with
  | nil =>
      intro _
      rfl
  | cons c cs ih =>
      intro hle
      have hkeep : keepNewer (some t, value) c = (some t, value) := by
        simp [keepNewer, not_lt.mpr (hle c (by simp))]
      rw [List.foldl_cons, hkeep]
      exact ih (fun c' hc' => hle c' (List.mem_cons_of_mem _ hc'))

/-- The newest value is the first one or a candidate's. -/
theorem newest_mem (initial : α) (candidates : List (τ × α)) :
    newest initial candidates = initial ∨ ∃ c ∈ candidates, newest initial candidates = c.2 := by
  have hscan : ∀ (cs : List (τ × α)) (best : Option τ × α),
      (cs.foldl keepNewer best).2 = best.2 ∨ ∃ c ∈ cs, (cs.foldl keepNewer best).2 = c.2 := by
    intro cs
    induction cs with
    | nil => exact fun _ => .inl rfl
    | cons c cs ih =>
        intro best
        rw [List.foldl_cons]
        rcases ih (keepNewer best c) with hkept | ⟨c', hc', hnewer⟩
        · rw [hkept]
          unfold keepNewer
          split_ifs
          · exact .inr ⟨c, by simp, rfl⟩
          · exact .inl rfl
        · exact .inr ⟨c', List.mem_cons_of_mem _ hc', hnewer⟩
  exact hscan candidates (none, initial)

/-- The value of the newest date, when all candidates of that date agree. -/
theorem newest_eq {t : τ} {value : α} (initial : α) {candidates : List (τ × α)}
    (hmem : (t, value) ∈ candidates) (hle : ∀ c ∈ candidates, c.1 ≤ t)
    (hagree : ∀ c ∈ candidates, c.1 = t → c.2 = value) :
    newest initial candidates = value := by
  have hscan : ∀ (cs : List (τ × α)) (best : Option τ × α), (t, value) ∈ cs →
      (∀ c ∈ cs, c.1 ≤ t) → (∀ c ∈ cs, c.1 = t → c.2 = value) → best.1.all (· < t) →
        (cs.foldl keepNewer best).2 = value := by
    intro cs
    induction cs with
    | nil =>
        intro best hmem
        exact absurd hmem List.not_mem_nil
    | cons c cs ih =>
        intro best hmem hle hagree hbest
        have hrest := fun c' hc' => hle c' (List.mem_cons_of_mem c hc')
        rw [List.foldl_cons]
        rcases (hle c (by simp)).lt_or_eq with hlt | heq
        · -- an older candidate leaves the best older than `t`
          refine ih _ ?_ hrest (fun c' hc' => hagree c' (List.mem_cons_of_mem c hc')) ?_
          · rcases List.mem_cons.mp hmem with hc | hc
            · exact absurd (congrArg Prod.fst hc) hlt.ne'
            · exact hc
          · unfold keepNewer
            split_ifs
            · simpa using hlt
            · exact hbest
        · have htake : keepNewer best c = (some t, value) := by
            rw [keepNewer, heq, if_pos hbest, hagree c (by simp) heq]
          rw [htake, foldl_keepNewer_of_le hrest]
  exact hscan candidates (none, initial) hmem hle hagree (by simp)

/-! ## First in a sorted order -/

/-- The first row of a sorted list is one of the rows, and comes before each of them. -/
theorem head?_insertionSort {r : α → α → Prop} [DecidableRel r] [Std.Total r] [IsTrans α r]
    {rows : List α} {x : α} (h : (rows.insertionSort r).head? = some x) :
    x ∈ rows ∧ ∀ y ∈ rows, r x y := by
  rcases hsorted : rows.insertionSort r with _ | ⟨first, rest⟩
  · simp [hsorted] at h
  · have hfirst : first = x := by simpa [hsorted] using h
    subst hfirst
    have hmem : ∀ y, y ∈ rows ↔ y ∈ first :: rest := by
      intro y
      rw [← hsorted, List.mem_insertionSort]
    refine ⟨(hmem first).mpr (by simp), ?_⟩
    intro y hy
    have hpairwise : List.Pairwise r (first :: rest) := hsorted ▸ List.pairwise_insertionSort r rows
    rcases List.mem_cons.mp ((hmem y).mp hy) with rfl | hy
    · exact (Std.Total.total (r := r) y y).elim id id
    · exact List.rel_of_pairwise_cons hpairwise hy

end Lib
end Mobility
