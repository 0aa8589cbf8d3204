import Mobility.Lib.Draws
import Mobility.Lib.Tallies

/-!
# Ceilings — requests admitted under a limit for each account

A request charges several accounts at once and is admitted only when every one of them stays
within its ceiling; a refused request charges nothing.  Each admission looks only at what was
used before it, and still no account ever goes beyond its ceiling.

* `Fits ceiling used request`: the test of one admission.
* `Admitted ceiling used requests`: every request fitted when its turn came.
* `Admitted.within`: all that was admitted, together, stays within the ceiling.
-/

namespace Mobility
namespace Lib

universe u

variable {κ : Type u} [DecidableEq κ] {ceiling : κ → Option Int} {used : κ → Int}
  {request : List (κ × Int)} {requests requests' : List (List (κ × Int))} {k : κ}

/-- Every account of the request has a ceiling and stays within it. -/
def Fits (ceiling : κ → Option Int) (used : κ → Int) (request : List (κ × Int)) : Prop :=
  ∀ part ∈ request, ∃ limit, ceiling part.1 = some limit ∧ used part.1 + part.2 ≤ limit

/-- What is used once a request is admitted. -/
def usedAfter (used : κ → Int) (request : List (κ × Int)) : κ → Int :=
  fun k => used k + asked k request

/-- Each request fitted after those before it. -/
def Admitted (ceiling : κ → Option Int) : (κ → Int) → List (List (κ × Int)) → Prop
  | _, [] => True
  | used, request :: rest => Fits ceiling used request ∧ Admitted ceiling (usedAfter used request) rest

@[simp]
theorem usedAfter_nil (used : κ → Int) : usedAfter used [] = used := by
  funext k
  exact add_zero (used k)

theorem usedAfter_append (used : κ → Int) (request request' : List (κ × Int)) :
    usedAfter used (request ++ request') = usedAfter (usedAfter used request) request' := by
  funext k
  simp only [usedAfter, asked_append]
  exact (add_assoc _ _ _).symm

/-- One more request at the end. -/
theorem admitted_concat : Admitted ceiling used (requests ++ [request])
    ↔ Admitted ceiling used requests ∧ Fits ceiling (usedAfter used requests.flatten) request := by
  induction requests generalizing used with
  | nil => simp [Admitted]
  | cons first rest ih =>
      simp only [List.cons_append, Admitted, List.flatten_cons, usedAfter_append, ih]
      exact and_assoc.symm

/-- With distinct accounts, an account is asked for its own part. -/
theorem asked_of_mem (hnodup : (request.map (·.1)).Nodup) {part : κ × Int}
    (hpart : part ∈ request) : asked part.1 request = part.2 := by
  induction request with
  | nil => exact absurd hpart List.not_mem_nil
  | cons first rest ih =>
      rcases List.nodup_cons.mp hnodup with ⟨hfirst, hrest⟩
      rcases List.mem_cons.mp hpart with rfl | hpart
      · have hnone : asked part.1 rest = 0 := by
          apply asked_eq_zero
          intro row hrow hsame
          exact hfirst (List.mem_map.mpr ⟨row, hrow, hsame⟩)
        simp [hnone]
      · have hne : first.1 ≠ part.1 :=
          fun hsame => hfirst (List.mem_map.mpr ⟨part, hpart, hsame.symm⟩)
        rw [asked_cons, if_neg hne, zero_add]
        exact ih hrest hpart

theorem asked_of_not_mem (h : k ∉ request.map (·.1)) : asked k request = 0 := by
  apply asked_eq_zero
  intro row hrow hsame
  exact h (List.mem_map.mpr ⟨row, hrow, hsame⟩)

/-- With distinct accounts, what is asked of an account is the value at it. -/
theorem asked_eq_valueAt (hnodup : (request.map (·.1)).Nodup) (k : κ) :
    asked k request = valueAt request k := by
  by_cases hk : k ∈ request.map (·.1)
  · rcases List.mem_map.mp hk with ⟨part, hpart, rfl⟩
    exact (asked_of_mem hnodup hpart).trans (valueAt_of_mem hnodup hpart).symm
  · exact (asked_of_not_mem hk).trans (valueAt_of_not_mem hk).symm

/-- No account goes beyond its ceiling. -/
theorem Admitted.within (h : Admitted ceiling used requests)
    (hnodup : ∀ request ∈ requests, (request.map (·.1)).Nodup)
    (hk : ∃ request ∈ requests, k ∈ request.map (·.1)) :
    ∃ limit, ceiling k = some limit ∧ used k + asked k requests.flatten ≤ limit := by
  -- on the requests, with what is used before the first left open
  induction requests generalizing used with
  | nil =>
      rcases hk with ⟨_, hmem, _⟩
      exact absurd hmem List.not_mem_nil
  | cons first rest ih =>
      have hrest := fun request hmem => hnodup request (List.mem_cons_of_mem _ hmem)
      rw [List.flatten_cons, asked_append, ← add_assoc]
      by_cases hlater : ∃ request ∈ rest, k ∈ request.map (·.1)
      · -- the last request that names the account looked at all the others
        exact ih h.2 hrest hlater
      · have hnone : asked k rest.flatten = 0 := by
          apply asked_eq_zero
          rintro row hrow rfl
          rcases List.mem_flatten.mp hrow with ⟨request, hrequest, hmem⟩
          exact hlater ⟨request, hrequest, List.mem_map_of_mem hmem⟩
        have hfirst : k ∈ first.map (·.1) := by
          rcases hk with ⟨request, hmem, hkey⟩
          rcases List.mem_cons.mp hmem with rfl | hmem
          · exact hkey
          · exact absurd ⟨request, hmem, hkey⟩ hlater
        rcases List.mem_map.mp hfirst with ⟨part, hpart, rfl⟩
        rcases h.1 part hpart with ⟨limit, hlimit, hle⟩
        refine ⟨limit, hlimit, ?_⟩
        rw [hnone, add_zero, asked_of_mem (hnodup first List.mem_cons_self) hpart]
        exact hle

end Lib
end Mobility
