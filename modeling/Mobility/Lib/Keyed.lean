import Mobility.Lib.Totals

/-!
# Keyed — an object store keyed by a field of its rows

`putRow` writes a row over the one with its key, `removeKey` deletes by key.  A row with a
fresh key is appended; removing the one row with a key takes exactly that row out.
-/

namespace Mobility
namespace Lib

universe u v w

variable {α : Type u} {κ : Type v} [DecidableEq κ] {key : α → κ} {rows writes : List α} {row x : α}
  {k : κ}

/-- `store.put(row)`. -/
def putRow (key : α → κ) (row : α) (rows : List α) : List α :=
  rows.filter (key · ≠ key row) ++ [row]

/-- `store.delete(k)`. -/
def removeKey (key : α → κ) (k : κ) (rows : List α) : List α :=
  rows.filter (key · ≠ k)

def putRows (key : α → κ) (writes rows : List α) : List α :=
  writes.foldl (fun rows row => putRow key row rows) rows

def removeKeys (key : α → κ) (deletes : List κ) (rows : List α) : List α :=
  deletes.foldl (fun rows k => removeKey key k rows) rows

@[simp]
theorem mem_putRow : x ∈ putRow key row rows ↔ x = row ∨ (x ∈ rows ∧ key x ≠ key row) := by
  simp [putRow, or_comm]

@[simp]
theorem mem_removeKey : x ∈ removeKey key k rows ↔ x ∈ rows ∧ key x ≠ k := by
  simp [removeKey]

theorem removeKeys_eq {deletes : List κ} :
    removeKeys key deletes rows = rows.filter (key · ∉ deletes) := by
  induction deletes generalizing rows with
  | nil => exact (List.filter_eq_self.mpr (by simp)).symm
  | cons k deletes ih =>
      calc
        removeKeys key (k :: deletes) rows = removeKeys key deletes (removeKey key k rows) := rfl
        _ = (rows.filter (key · ≠ k)).filter (key · ∉ deletes) := ih
        _ = rows.filter (key · ∉ k :: deletes) := by
          rw [List.filter_filter]
          refine List.filter_congr ?_
          intro x _
          simp [Bool.and_comm]

/-- A row with a fresh key is appended. -/
theorem putRow_of_fresh (h : ∀ x ∈ rows, key x ≠ key row) : putRow key row rows = rows ++ [row] := by
  unfold putRow
  rw [List.filter_eq_self.mpr (by simpa using h)]

/-- Rows with different keys replace those with their keys. -/
theorem putRows_eq (hnodup : (writes.map key).Nodup) :
    putRows key writes rows = rows.filter (key · ∉ writes.map key) ++ writes := by
  induction writes generalizing rows with
  | nil => simp [putRows]
  | cons row writes ih =>
      rw [List.map_cons, List.nodup_cons] at hnodup
      have hlater : key row ∉ writes.map key := hnodup.1
      calc
        putRows key (row :: writes) rows = putRows key writes (putRow key row rows) := rfl
        _ = (rows.filter (key · ≠ key row) ++ [row]).filter (key · ∉ writes.map key) ++ writes :=
          ih hnodup.2
        _ = rows.filter (key · ∉ (row :: writes).map key) ++ row :: writes := by
          rw [List.filter_append, List.filter_filter, List.filter_cons_of_pos (by simpa using hlater),
            List.filter_nil, List.append_assoc, List.singleton_append]
          congr 1
          refine List.filter_congr ?_
          intro x _
          simp [Bool.and_comm]

theorem putRows_of_fresh (hnodup : (writes.map key).Nodup)
    (h : ∀ x ∈ rows, key x ∉ writes.map key) : putRows key writes rows = rows ++ writes := by
  rw [putRows_eq hnodup, List.filter_eq_self.mpr (by simpa using h)]

/-- Looking up in a written store: the written row under its key, the old rows elsewhere. -/
theorem lookup_putRow :
    (putRow key row rows).find? (key · = k)
      = if key row = k then some row else rows.find? (key · = k) := by
  unfold putRow
  rw [List.find?_append]
  split_ifs with hrow
  · have hnone : (rows.filter (key · ≠ key row)).find? (key · = k) = none := by
      refine List.find?_eq_none.mpr ?_
      intro x hx
      have hne : key x ≠ key row := by simpa using List.of_mem_filter hx
      simpa [← hrow] using hne
    rw [hnone]
    simp [hrow]
  · have hsame : (rows.filter (key · ≠ key row)).find? (key · = k) = rows.find? (key · = k) := by
      rw [List.find?_filter]
      refine congrArg (fun p => List.find? p rows) ?_
      funext x
      by_cases hx : key x = k
      · simp [hx, Ne.symm hrow]
      · simp [hx]
    rw [hsame]
    simp [hrow]

/-- Taking the row with a key out, and putting another row anywhere, is a rewrite of the
table as a collection. -/
theorem removeKey_perm (hnodup : (rows.map key).Nodup) (hx : x ∈ rows) :
    rows.Perm (x :: removeKey key (key x) rows) := by
  rcases List.append_of_mem hx with ⟨front, back, rfl⟩
  have hapart : ∀ y ∈ front ++ back, key y ≠ key x := by
    intro y hy heq
    have hsplit : ((front ++ x :: back).map key).Perm (key x :: (front ++ back).map key) := by
      rw [← List.map_cons (f := key) (a := x)]
      exact List.perm_middle.map key
    have hcons := hsplit.nodup_iff.mp hnodup
    rw [List.nodup_cons] at hcons
    exact hcons.1 (heq ▸ List.mem_map_of_mem hy)
  have hrest : removeKey key (key x) (front ++ x :: back) = front ++ back := by
    unfold removeKey
    rw [List.filter_append, List.filter_cons_of_neg (by simp), ← List.filter_append]
    refine List.filter_eq_self.mpr ?_
    intro y hy
    simpa using hapart y hy
  rw [hrest]
  exact List.perm_middle

/-- Some rows of a table, and those without their keys. -/
theorem rest_perm {gone : List α} (hnodup : (rows.map key).Nodup) (hgone : (gone.map key).Nodup)
    (hmem : ∀ x ∈ gone, x ∈ rows) : rows.Perm (gone ++ rows.filter (key · ∉ gone.map key)) := by
  refine (List.perm_ext_iff_of_nodup (List.Nodup.of_map _ hnodup) ?_).mpr ?_
  · refine List.nodup_append.mpr ⟨List.Nodup.of_map _ hgone, (List.Nodup.of_map _ hnodup).filter _, ?_⟩
    intro x hx y hy heq
    have hleft := List.of_mem_filter hy
    rw [← heq, decide_eq_true_eq] at hleft
    exact hleft (List.mem_map_of_mem hx)
  · intro x
    rw [List.mem_append, List.mem_filter, decide_eq_true_eq]
    constructor
    · intro hx
      by_cases hkey : key x ∈ gone.map key
      · rcases List.mem_map.mp hkey with ⟨y, hy, heq⟩
        exact .inl (List.inj_on_of_nodup_map hnodup (hmem y hy) hx heq ▸ hy)
      · exact .inr ⟨hx, hkey⟩
    · rintro (hx | ⟨hx, _⟩)
      · exact hmem x hx
      · exact hx

/-- Rows are taken out by key and others added: what passes a test is what is left of the
rows that passed, and what was added. -/
theorem filter_replace {p : α → Bool} {gone kept added : List α} (hnodup : (rows.map key).Nodup)
    (hrows : (rows.filter p).Perm (gone ++ kept)) (hadded : ∀ x ∈ added, p x = true) :
    ((rows.filter (key · ∉ gone.map key) ++ added).filter p).Perm (kept ++ added) := by
  have hkeys : ((gone ++ kept).map key).Nodup :=
    (hrows.map key).nodup_iff.mp (hnodup.sublist (List.filter_sublist.map _))
  rw [List.map_append] at hkeys
  rcases List.nodup_append.mp hkeys with ⟨_, _, hapart⟩
  have hleft : (gone ++ kept).filter (key · ∉ gone.map key) = kept := by
    rw [List.filter_append, List.filter_eq_nil_iff.mpr, List.filter_eq_self.mpr, List.nil_append]
    · intro x hx
      rw [decide_eq_true_eq]
      exact fun hmem => hapart _ hmem _ (List.mem_map_of_mem hx) rfl
    · intro x hx
      rw [decide_eq_true_eq, not_not]
      exact List.mem_map_of_mem hx
  rw [List.filter_append, List.filter_eq_self.mpr hadded, List.filter_filter]
  refine List.Perm.append_right added ?_
  calc
    rows.filter (fun x => p x && decide (key x ∉ gone.map key))
      = (rows.filter p).filter (key · ∉ gone.map key) := by
        rw [List.filter_filter]
        exact List.filter_congr (fun x _ => Bool.and_comm _ _)
    _ |>.Perm ((gone ++ kept).filter (key · ∉ gone.map key)) := hrows.filter _
    _ = kept := hleft

/-- Rows that fail the test come and go unseen. -/
theorem filter_replace_other {p : α → Bool} {gone added : List α} (hnodup : (rows.map key).Nodup)
    (hgone : ∀ x ∈ gone, x ∈ rows ∧ p x = false) (hadded : ∀ x ∈ added, p x = false) :
    (rows.filter (key · ∉ gone.map key) ++ added).filter p = rows.filter p := by
  have hnone : added.filter p = [] :=
    List.filter_eq_nil_iff.mpr (fun x hx => by simp [hadded x hx])
  rw [List.filter_append, hnone, List.append_nil, List.filter_filter]
  refine List.filter_congr ?_
  intro x hx
  cases hp : p x with
  | false => rfl
  | true =>
      rw [Bool.true_and, decide_eq_true_eq]
      intro hmem
      rcases List.mem_map.mp hmem with ⟨y, hy, heq⟩
      have hsame : y = x := List.inj_on_of_nodup_map hnodup (hgone y hy).1 hx heq
      rw [← hsame, (hgone y hy).2] at hp
      exact Bool.false_ne_true hp

/-! ## Gathering a column -/

section

variable {M : Type w} [AddCommMonoid M] {p : α → Bool} {content : α → M} {rows' : List α}

/-- What the rows that pass hold together. -/
def gather (p : α → Bool) (content : α → M) (rows : List α) : M :=
  ((rows.filter p).map content).sum

@[simp]
theorem gather_nil : gather p content [] = 0 := rfl

@[simp]
theorem gather_cons :
    gather p content (x :: rows) = (if p x then content x else 0) + gather p content rows := by
  unfold gather
  cases hx : p x <;> simp [hx]

@[simp]
theorem gather_append :
    gather p content (rows ++ rows') = gather p content rows + gather p content rows' := by
  simp [gather]

theorem gather_perm (h : rows.Perm rows') : gather p content rows = gather p content rows' :=
  ((h.filter p).map content).sum_eq

theorem gather_of_filter (h : (rows.filter p).Perm rows') :
    gather p content rows = (rows'.map content).sum :=
  (h.map content).sum_eq

theorem gather_putRow (h : ∀ x ∈ rows, key x ≠ key row) :
    gather p content (putRow key row rows)
      = gather p content rows + if p row then content row else 0 := by
  rw [putRow_of_fresh h, gather_append, gather_cons, gather_nil, add_zero]

theorem gather_removeKey (hnodup : (rows.map key).Nodup) (hx : x ∈ rows) :
    gather p content rows
      = (if p x then content x else 0) + gather p content (removeKey key (key x) rows) := by
  rw [gather_perm (removeKey_perm hnodup hx), gather_cons]

/-- A row put over another one that holds the same. -/
theorem gather_putRow_over (hnodup : (rows.map key).Nodup) (hx : x ∈ rows) (hkey : key row = key x)
    (hp : p row = p x) (hcontent : content row = content x) :
    gather p content (putRow key row rows) = gather p content rows := by
  have hput : putRow key row rows = removeKey key (key x) rows ++ [row] := by
    rw [putRow, removeKey, hkey]
  rw [hput, gather_append, gather_cons, gather_nil, add_zero, hp, hcontent,
    gather_removeKey hnodup hx, add_comm]

theorem gather_eq_zero (h : ∀ x ∈ rows, p x = false) : gather p content rows = 0 := by
  unfold gather
  rw [List.filter_eq_nil_iff.mpr (fun x hx => by simp [h x hx])]
  rfl

theorem gather_filter {q : α → Bool} :
    gather p content (rows.filter q) = gather (fun x => p x && q x) content rows := by
  unfold gather
  rw [List.filter_filter]

theorem gather_congr {q : α → Bool} (h : ∀ x ∈ rows, p x = q x) :
    gather p content rows = gather q content rows := by
  unfold gather
  rw [List.filter_congr h]

end

theorem nodup_removeKey (hnodup : (rows.map key).Nodup) :
    ((removeKey key k rows).map key).Nodup :=
  hnodup.sublist (List.filter_sublist.map _)

theorem nodup_putRow (hnodup : (rows.map key).Nodup) : ((putRow key row rows).map key).Nodup := by
  unfold putRow
  rw [List.map_append]
  refine List.nodup_append.mpr ⟨hnodup.sublist (List.filter_sublist.map _), by simp, ?_⟩
  intro k hk k' hk' heq
  rcases List.mem_map.mp hk with ⟨x, hx, rfl⟩
  have hne : key x ≠ key row := by simpa using List.of_mem_filter hx
  exact hne (heq.trans (by simpa using hk'))

end Lib
end Mobility
