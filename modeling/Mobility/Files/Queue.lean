import Mobility.Files.Finalization
import Mathlib.Data.List.MinMax
import Mathlib.Data.Prod.Lex

/-!
# Queue — one pass over the open receipts (`process_stored_object_deletions`)

A pass selects the first open receipt, has the provider delete its object, finalizes it, and
selects again, up to its limit.  Pending receipts come first; receipts of one state come in
the order of `created_at` and their identifiers.  An exception leaves the loop, after what
was committed before it.
-/

namespace Mobility
namespace Files

open Lib

/-- What the provider answers the pass for one receipt. -/
inductive StorageOutcome
  | deleted
  | notFound
  | unavailable (removed : Bool)
  | conflict (removed : Bool)
  deriving DecidableEq, Repr

def StorageOutcome.answer : StorageOutcome → StorageAnswer
  | .deleted => .deleted
  | .notFound => .notFound
  | .unavailable removed => .unavailable removed
  | .conflict removed => .conflict removed

/-- The code a failed call leaves on the receipt. -/
def StorageOutcome.errorCode : StorageOutcome → Option String
  | .deleted | .notFound => none
  | .unavailable _ => some "storage_unavailable"
  | .conflict _ => some "storage_object_remains"

/-! ## The pass -/

/-- `created_at, id`. -/
def age (createdAt : Id → Int) (d : StoredObjectDeletion) : Lex (Int × Id) :=
  toLex (createdAt d.id, d.id)

/-- `CASE WHEN state = 'pending' THEN 0 ELSE 1 END, created_at, id`. -/
def queueKey (createdAt : Id → Int) (d : StoredObjectDeletion) : Lex (Nat × Lex (Int × Id)) :=
  toLex (if d.state = .pending then 0 else 1, age createdAt d)

/-- The lexicographic order of the queue, of orders that compute. -/
instance queueOrder : LinearOrder (Lex (Nat × Lex (Int × Id))) :=
  @Prod.Lex.instLinearOrder Nat (Lex (Int × Id)) Nat.instLinearOrder
    (@Prod.Lex.instLinearOrder Int Id Int.instLinearOrder Nat.instLinearOrder)

def Store.nextDeletion (w : Store) (createdAt : Id → Int) : Option StoredObjectDeletion :=
  @List.argmin _ _ queueOrder.toPartialOrder.toPreorder queueOrder.toDecidableLT
    (queueKey createdAt) (w.deletions.filter (w.Selectable ·))

/-- The store a pass leaves, what it counted, and what it was left by. -/
structure DeletionPass where
  store : Store
  completed : Nat := 0
  raised : Option FileError := none
  deriving DecidableEq, Repr

def processStoredObjectDeletions (createdAt : Id → Int) (outcome : Id → StorageOutcome) :
    (limit : Nat) → Store → DeletionPass
  | 0, w => { store := w }
  | limit + 1, w =>
      match w.nextDeletion createdAt with
      | none => { store := w }
      | some intent =>
          match deleteStoredObject w intent.id (outcome intent.id).answer with
          | .error e => { store := w, raised := some e }
          | .ok (w₁, some e) => { store := w₁, raised := some e }
          | .ok (w₁, none) =>
              match finalizeStoredObjectDeletion w₁ intent.id with
              -- the deletion is committed, the finalization is not
              | .error e => { store := w₁, raised := some e }
              | .ok (w₂, finished) =>
                  let rest := processStoredObjectDeletions createdAt outcome limit w₂
                  { rest with completed := rest.completed + if finished then 1 else 0 }

/-! ## The selection -/

variable {createdAt : Id → Int}

theorem nextDeletion_none {w : Store} (h : w.nextDeletion createdAt = none)
    {d : StoredObjectDeletion} (hd : d ∈ w.deletions) : ¬ w.Selectable d := by
  intro hselectable
  have hnil := List.argmin_eq_none.mp h
  have hmem : d ∈ w.deletions.filter (w.Selectable ·) :=
    List.mem_filter.mpr ⟨hd, by simpa using hselectable⟩
  rw [hnil] at hmem
  exact List.not_mem_nil hmem

theorem nextDeletion_some {w : Store} {x : StoredObjectDeletion}
    (h : w.nextDeletion createdAt = some x) : x ∈ w.deletions ∧ w.Selectable x := by
  rcases List.mem_filter.mp (List.argmin_mem h) with ⟨hx, hselectable⟩
  exact ⟨hx, by simpa using hselectable⟩

theorem nextDeletion_le {w : Store} {x d : StoredObjectDeletion}
    (h : w.nextDeletion createdAt = some x) (hd : d ∈ w.deletions) (hselectable : w.Selectable d) :
    queueKey createdAt x ≤ queueKey createdAt d :=
  List.le_of_mem_argmin (List.mem_filter.mpr ⟨hd, by simpa using hselectable⟩) h

/-- A pending receipt is selected while there is one. -/
theorem nextDeletion_pending {w : Store} {x d : StoredObjectDeletion}
    (h : w.nextDeletion createdAt = some x) (hd : d ∈ w.deletions) (hselectable : w.Selectable d)
    (hpending : d.state = .pending) : x.state = .pending := by
  by_contra hx
  have hle := nextDeletion_le h hd hselectable
  rw [queueKey, queueKey, if_neg hx, if_pos hpending, Prod.Lex.toLex_le_toLex] at hle
  rcases hle with hlt | ⟨heq, _⟩
  · exact absurd hlt (Nat.not_lt_zero _)
  · exact absurd heq Nat.one_ne_zero

/-- Among receipts of one state the oldest is selected. -/
theorem nextDeletion_age {w : Store} {x d : StoredObjectDeletion}
    (h : w.nextDeletion createdAt = some x) (hd : d ∈ w.deletions) (hselectable : w.Selectable d)
    (hstate : x.state = .pending ↔ d.state = .pending) : age createdAt x ≤ age createdAt d := by
  have hle := nextDeletion_le h hd hselectable
  have hrank : (if x.state = .pending then 0 else 1) = if d.state = .pending then 0 else 1 := by
    simp only [hstate]
  rw [queueKey, queueKey, hrank, Prod.Lex.toLex_le_toLex] at hle
  rcases hle with hlt | ⟨_, hage⟩
  · exact absurd hlt (lt_irrefl _)
  · exact hage

theorem age_injective {d e : StoredObjectDeletion} (h : age createdAt d = age createdAt e) :
    d.id = e.id := by
  have hpair : (createdAt d.id, d.id) = (createdAt e.id, e.id) := toLex.injective h
  exact congrArg Prod.snd hpair

end Files
end Mobility
