import Mathlib.Data.List.Basic

/-!
# Histories — the log of a status

Each entry of a log leads from one status to the next.  `Follows a log b`: the log leads
from `a` to `b` without a gap.  When every entry raises a rank, no status is met twice, and
a kind of entry of which no two can stand one after the other occurs at most once.
-/

namespace Mobility
namespace Lib

universe u v

variable {σ : Type u} {ε : Type v} {before after : ε → σ} {a b : σ} {log : List ε} {entry : ε}

def Follows (before after : ε → σ) : σ → List ε → σ → Prop
  | a, [], b => a = b
  | a, entry :: log, b => before entry = a ∧ Follows before after (after entry) log b

@[simp]
theorem follows_nil : Follows before after a [] b ↔ a = b := Iff.rfl

@[simp]
theorem follows_cons : Follows before after a (entry :: log) b
    ↔ before entry = a ∧ Follows before after (after entry) log b := Iff.rfl

/-- One more entry, from where the log had led. -/
theorem Follows.snoc (h : Follows before after a log b) (hentry : before entry = b) :
    Follows before after a (log ++ [entry]) (after entry) := by
  induction log generalizing a with
  | nil =>
      rw [follows_nil] at h
      exact ⟨hentry.trans h.symm, rfl⟩
  | cons first rest ih => exact ⟨h.1, ih h.2⟩

/-- Where ranks rise, the log starts no later than it ends, and every entry lies between. -/
theorem Follows.rank_le (rank : σ → Nat) (hrises : ∀ e ∈ log, rank (before e) < rank (after e))
    (h : Follows before after a log b) :
    rank a ≤ rank b ∧ ∀ e ∈ log, rank a ≤ rank (before e) ∧ rank (after e) ≤ rank b := by
  induction log generalizing a with
  | nil => exact ⟨(follows_nil.mp h) ▸ Nat.le_refl _, fun _ he => absurd he List.not_mem_nil⟩
  | cons first rest ih =>
      have hfirst := hrises first List.mem_cons_self
      rw [h.1] at hfirst
      rcases ih (fun e he => hrises e (List.mem_cons_of_mem _ he)) h.2 with ⟨hle, hrest⟩
      refine ⟨Nat.le_trans (Nat.le_of_lt hfirst) hle, ?_⟩
      intro e he
      rcases List.mem_cons.mp he with rfl | he
      · exact ⟨Nat.le_of_eq (congrArg rank h.1.symm), hle⟩
      · exact ⟨Nat.le_trans (Nat.le_of_lt hfirst) (hrest e he).1, (hrest e he).2⟩

/-- Where ranks rise, a later entry starts no lower than an earlier one ends. -/
theorem Follows.apart (rank : σ → Nat) (hrises : ∀ e ∈ log, rank (before e) < rank (after e))
    (h : Follows before after a log b) :
    log.Pairwise (fun e later => rank (after e) ≤ rank (before later)) := by
  induction log generalizing a with
  | nil => exact .nil
  | cons first rest ih =>
      have hrest : ∀ e ∈ rest, rank (before e) < rank (after e) :=
        fun e he => hrises e (List.mem_cons_of_mem _ he)
      refine .cons ?_ (ih hrest h.2)
      intro later hlater
      exact ((h.2.rank_le rank hrest).2 later hlater).1

theorem filter_length_le_one {R : ε → ε → Prop} {p : ε → Bool} (h : log.Pairwise R)
    (hp : ∀ e ∈ log, ∀ later ∈ log, p e = true → p later = true → ¬ R e later) :
    (log.filter p).length ≤ 1 := by
  have hpairs : (log.filter p).Pairwise R := h.filter p
  match hlist : log.filter p with
  | [] => simp
  | [_] => simp
  | first :: second :: rest =>
      have hfirst := List.mem_filter.mp (hlist ▸ List.mem_cons_self : first ∈ log.filter p)
      have hsecond := List.mem_filter.mp
        (hlist ▸ List.mem_cons_of_mem _ List.mem_cons_self : second ∈ log.filter p)
      rw [hlist] at hpairs
      exact absurd (List.rel_of_pairwise_cons hpairs List.mem_cons_self)
        (hp first hfirst.1 second hsecond.1 hfirst.2 hsecond.2)

/-- Entries of which a later one would start too low occur at most once. -/
theorem Follows.count_le (rank : σ → Nat) (hrises : ∀ e ∈ log, rank (before e) < rank (after e))
    (h : Follows before after a log b) (p : ε → Bool)
    (hp : ∀ e ∈ log, ∀ later ∈ log, p e = true → p later = true →
      rank (before later) < rank (after e)) : (log.filter p).length ≤ 1 := by
  refine filter_length_le_one (h.apart rank hrises) ?_
  intro e he later hlater hpe hplater
  exact Nat.not_le.mpr (hp e he later hlater hpe hplater)

end Lib
end Mobility
