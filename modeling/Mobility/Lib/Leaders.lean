import Mathlib.Data.List.Basic
import Mathlib.Data.Set.Basic
import Mathlib.Order.Defs.LinearOrder

/-!
# Leaders — who leads among what has arrived so far

Elements arrive one after another.  On each arrival only the element with the greatest key
is looked at: it is marked when a rival of it has arrived too.  An element leads at one
arrival and is overtaken at another, so the marks depend on the order of the arrivals.
-/

namespace Mobility
namespace Lib

universe u v

variable {α : Type u} {κ : Type v} [LinearOrder κ]
variable {key : α → κ} {rival : α → α → Prop} {known : Set α}

/-- `t` has the greatest key, and a rival. -/
def Leads (key : α → κ) (rival : α → α → Prop) (known : Set α) (t : α) : Prop :=
  t ∈ known ∧ (∀ m ∈ known, key m ≤ key t) ∧ ∃ m ∈ known, rival m t

/-- What was there, and what has arrived since. -/
def arrived (known : Set α) (order : List α) : Set α :=
  {m | m ∈ known ∨ m ∈ order}

/-- `t` led right after one of the arrivals. -/
def LedOnArrival (key : α → κ) (rival : α → α → Prop) (known : Set α) (order : List α) (t : α) :
    Prop :=
  ∃ done x rest, order = done ++ x :: rest ∧ Leads key rival (arrived known (done ++ [x])) t

theorem not_ledOnArrival_nil {t : α} : ¬ LedOnArrival key rival known [] t := by
  rintro ⟨done, x, rest, hsplit, _⟩
  simp at hsplit

/-- One more arrival marks the element that leads then. -/
theorem ledOnArrival_concat {order : List α} {x t : α} :
    LedOnArrival key rival known (order ++ [x]) t ↔
      LedOnArrival key rival known order t ∨ Leads key rival (arrived known (order ++ [x])) t := by
  constructor
  · rintro ⟨done, y, rest, hsplit, hleads⟩
    rcases List.eq_nil_or_concat rest with rfl | ⟨rest, z, rfl⟩
    · exact .inr (hsplit ▸ hleads)
    · have hinit : order = done ++ y :: rest := by
        have hconcat : order ++ [x] = (done ++ y :: rest) ++ [z] := by simpa using hsplit
        exact (List.append_inj' hconcat rfl).1
      exact .inl ⟨done, y, rest, hinit, hleads⟩
  · rintro (⟨done, y, rest, rfl, hleads⟩ | hleads)
    · exact ⟨done, y, rest ++ [x], by simp, hleads⟩
    · exact ⟨order, x, [], rfl, hleads⟩

/-- Whoever leads in the end is marked, in every order. -/
theorem LedOnArrival.of_leads {order : List α} {t : α} (hsome : order ≠ [])
    (h : Leads key rival (arrived known order) t) : LedOnArrival key rival known order t := by
  rcases List.eq_nil_or_concat order with rfl | ⟨done, x, hconcat⟩
  · exact absurd rfl hsome
  · rw [List.concat_eq_append] at hconcat
    subst hconcat
    exact ledOnArrival_concat.mpr (.inr h)

/-- A marked element has a rival with a smaller key. -/
theorem LedOnArrival.exists_before {order : List α} {t : α}
    (hrival : ∀ m, rival m t → key m ≠ key t) (h : LedOnArrival key rival known order t) :
    ∃ m ∈ arrived known order, key m < key t ∧ rival m t := by
  rcases h with ⟨done, x, rest, rfl, _, hgreatest, m, hm, hrivals⟩
  refine ⟨m, ?_, lt_of_le_of_ne (hgreatest m hm) (hrival m hrivals), hrivals⟩
  rcases hm with hm | hm
  · exact .inl hm
  · rcases List.mem_append.mp hm with hm | hm
    · exact .inr (List.mem_append_left _ hm)
    · exact .inr (List.mem_append_right _ (List.mem_singleton.mp hm ▸ List.mem_cons_self))

/-- Arrivals in the order of their keys mark every element that has a rival before it. -/
theorem LedOnArrival.of_sorted {order : List α} {m t : α}
    (hsorted : order.Pairwise (fun a b => key a ≤ key b)) (hknown : ∀ k ∈ known, key k ≤ key t)
    (ht : t ∈ order) (hm : m ∈ arrived known order) (hbefore : key m < key t)
    (hrival : rival m t) : LedOnArrival key rival known order t := by
  rcases List.append_of_mem ht with ⟨done, rest, rfl⟩
  refine ⟨done, t, rest, rfl, ?_⟩
  rcases List.pairwise_append.mp hsorted with ⟨_, hlater, hacross⟩
  have harrived : m ∈ arrived known (done ++ [t]) := by
    rcases hm with hm | hm
    · exact .inl hm
    · rcases List.mem_append.mp hm with hm | hm
      · exact .inr (List.mem_append_left _ hm)
      · rcases List.mem_cons.mp hm with rfl | hm
        · exact absurd hbefore (lt_irrefl _)
        · exact absurd hbefore (not_lt.mpr (List.rel_of_pairwise_cons hlater hm))
  refine ⟨.inr (by simp), ?_, m, harrived, hrival⟩
  rintro k (hk | hk)
  · exact hknown k hk
  · rcases List.mem_append.mp hk with hk | hk
    · exact hacross k hk t List.mem_cons_self
    · exact (congrArg key (List.mem_singleton.mp hk)).le

end Lib
end Mobility
