import Mathlib.Data.List.Basic
import Mathlib.Data.List.Nodup

/-!
# Exclusive — at most one open row for each owner

Rows are named by a key and belong to an owner; some of them are open.  A table is
exclusive when two open rows of one owner are the same row.  A change of the table keeps
this when every row that it leaves open was open before or finds no other open row of its
owner.
-/

namespace Mobility
namespace Lib

universe u v w

variable {α : Type u} {κ : Type v} {ω : Type w} {key : α → κ} {owner : α → ω}
  {isOpen isOpen' : α → Prop} {rows rows' : List α}

def Exclusive (key : α → κ) (owner : α → ω) (isOpen : α → Prop) (rows : List α) : Prop :=
  ∀ x ∈ rows, ∀ y ∈ rows, owner x = owner y → isOpen x → isOpen y → key x = key y

theorem exclusive_nil : Exclusive key owner isOpen [] :=
  fun _ hx => absurd hx List.not_mem_nil

/-- `y` was open before, under its key and owner. -/
def OpenBefore (key : α → κ) (owner : α → ω) (isOpen : α → Prop) (rows : List α) (y : α) : Prop :=
  ∃ x ∈ rows, key x = key y ∧ owner x = owner y ∧ isOpen x

/-- No other row of the owner of `y` is open. -/
def Alone (key : α → κ) (owner : α → ω) (isOpen : α → Prop) (rows : List α) (y : α) : Prop :=
  ∀ z ∈ rows, owner z = owner y → isOpen z → key z = key y

theorem Exclusive.step (h : Exclusive key owner isOpen rows)
    (hrows : ∀ y ∈ rows', isOpen' y →
      OpenBefore key owner isOpen rows y ∨ Alone key owner isOpen' rows' y) :
    Exclusive key owner isOpen' rows' := by
  intro x hx y hy howner hxopen hyopen
  rcases hrows x hx hxopen with ⟨x₀, hx₀, hxkey, hxowner, hx₀open⟩ | hxalone
  · rcases hrows y hy hyopen with ⟨y₀, hy₀, hykey, hyowner, hy₀open⟩ | hyalone
    · have hold : key x₀ = key y₀ :=
        h x₀ hx₀ y₀ hy₀ (hxowner.trans (howner.trans hyowner.symm)) hx₀open hy₀open
      calc
        key x = key x₀ := hxkey.symm
        _ = key y₀ := hold
        _ = key y := hykey
    · exact hyalone x hx howner hxopen
  · exact (hxalone y hy howner.symm hyopen).symm

theorem Exclusive.mono (h : Exclusive key owner isOpen rows) (hopen : ∀ x ∈ rows, isOpen' x → isOpen x) :
    Exclusive key owner isOpen' rows :=
  fun x hx y hy howner hxopen hyopen =>
    h x hx y hy howner (hopen x hx hxopen) (hopen y hy hyopen)

/-- With distinct keys, the open rows of an owner are at most one. -/
theorem Exclusive.length_le [DecidableEq ω] [DecidablePred isOpen] (hnodup : (rows.map key).Nodup)
    (h : Exclusive key owner isOpen rows) (o : ω) :
    (rows.filter (fun x => owner x = o ∧ isOpen x)).length ≤ 1 := by
  have hkeys : ((rows.filter (fun x => owner x = o ∧ isOpen x)).map key).Nodup :=
    hnodup.sublist (List.filter_sublist.map _)
  match hfilter : rows.filter (fun x => owner x = o ∧ isOpen x) with
  | [] => simp
  | [_] => simp
  | x :: y :: rest =>
      have hx := List.mem_filter.mp (hfilter ▸ List.mem_cons_self : x ∈ rows.filter _)
      have hy := List.mem_filter.mp
        (hfilter ▸ List.mem_cons_of_mem _ List.mem_cons_self : y ∈ rows.filter _)
      have hxopen : owner x = o ∧ isOpen x := by simpa using hx.2
      have hyopen : owner y = o ∧ isOpen y := by simpa using hy.2
      have hsame : key x = key y :=
        h x hx.1 y hy.1 (hxopen.1.trans hyopen.1.symm) hxopen.2 hyopen.2
      rw [hfilter, List.map_cons, List.map_cons, List.nodup_cons] at hkeys
      exact absurd (hsame ▸ List.mem_cons_self) hkeys.1

/-- Of at most one row, the first is any. -/
theorem head?_eq_some_iff_mem {l : List α} (hlength : l.length ≤ 1) {x : α} :
    l.head? = some x ↔ x ∈ l := by
  match l with
  | [] => simp
  | [only] => simp [eq_comm]
  | first :: second :: rest => simp at hlength

end Lib
end Mobility
