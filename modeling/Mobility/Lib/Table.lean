import Mathlib.Data.List.Basic
import Mathlib.Data.List.Nodup
import Mathlib.Data.List.Perm.Basic

/-!
# Table — rows in a list, named by a key

Facts about tables kept as lists of rows with a key: looking a row up, rewriting
the rows with one key, and what stays true of the keys when rows are rewritten
one by one.
-/

namespace Mobility
namespace Lib

universe u v w

variable {α : Type u} {κ : Type v}

/-! ## Lookup by key -/

section Lookup

variable [DecidableEq κ] {key : α → κ} {rows : List α} {k : κ}

theorem mem_of_lookup {x : α} (h : rows.find? (fun r => key r = k) = some x) :
    x ∈ rows ∧ key x = k :=
  ⟨List.mem_of_find?_eq_some h, by simpa using List.find?_some h⟩

theorem lookup_eq_none : rows.find? (fun r => key r = k) = none ↔ ∀ r ∈ rows, key r ≠ k := by
  simp [List.find?_eq_none]

omit [DecidableEq κ] in
/-- A key names one row. -/
theorem eq_of_key_eq (hnodup : (rows.map key).Nodup) {x y : α} (hx : x ∈ rows) (hy : y ∈ rows)
    (h : key x = key y) : x = y :=
  List.inj_on_of_nodup_map hnodup hx hy h

theorem lookup_eq_some (hnodup : (rows.map key).Nodup) {x : α} (hx : x ∈ rows) (hk : key x = k) :
    rows.find? (fun r => key r = k) = some x := by
  cases h : rows.find? (fun r => key r = k) with
  | none =>
      exact absurd hk (lookup_eq_none.mp h x hx)
  | some y =>
      rcases mem_of_lookup h with ⟨hy, hyk⟩
      rw [eq_of_key_eq hnodup hy hx (hyk.trans hk.symm)]

theorem filter_key_eq (hnodup : (rows.map key).Nodup) {x : α} (hx : x ∈ rows) (hk : key x = k) :
    rows.filter (fun r => key r = k) = [x] := by
  induction rows with
  | nil => exact absurd hx List.not_mem_nil
  | cons r rs ih =>
      rcases List.nodup_cons.mp hnodup with ⟨hhead, htail⟩
      rcases List.mem_cons.mp hx with rfl | hx
      · have hrest : rs.filter (fun r => key r = k) = [] := by
          refine List.filter_eq_nil_iff.mpr ?_
          intro r hr heq
          have hsame : key r = key x := (by simpa using heq : key r = k).trans hk.symm
          exact hhead (hsame ▸ List.mem_map_of_mem hr)
        simp [hk, hrest]
      · have hne : key r ≠ k := by
          intro heq
          exact hhead ((heq.trans hk.symm) ▸ List.mem_map_of_mem hx)
        simp [hne, ih htail hx]

end Lookup

/-! ## Rewriting rows -/

section Rewrite

variable {β : Type w} {R : α → α → Prop} {rows rows' : List α}

/-- Rewriting every row by `f` rewrites it by `R` when `f` does so on each row. -/
theorem forall₂_map_self {f : α → α} (h : ∀ x ∈ rows, R x (f x)) :
    List.Forall₂ R rows (rows.map f) := by
  induction rows with
  | nil => exact .nil
  | cons x xs ih =>
      refine .cons (h x (by simp)) (ih ?_)
      intro y hy
      exact h y (by simp [hy])

/-- What a row rewrite keeps, a table rewrite keeps. -/
theorem map_eq_of_forall₂ {g : α → β} (hg : ∀ x y, R x y → g y = g x)
    (h : List.Forall₂ R rows rows') : rows'.map g = rows.map g := by
  induction h with
  | nil => rfl
  | cons hxy _ ih => simp [hg _ _ hxy, ih]

theorem exists_of_mem_forall₂ {R : α → β → Prop} {rows' : List β} (h : List.Forall₂ R rows rows')
    {y : β} (hy : y ∈ rows') : ∃ x ∈ rows, R x y := by
  induction h with
  | nil => simp at hy
  | cons hxy _ ih =>
      rcases List.mem_cons.mp hy with rfl | hy
      · exact ⟨_, by simp, hxy⟩
      · rcases ih hy with ⟨x, hx, hxy'⟩
        exact ⟨x, by simp [hx], hxy'⟩

theorem exists_of_mem_forall₂_left {R : α → β → Prop} {rows' : List β}
    (h : List.Forall₂ R rows rows') {x : α} (hx : x ∈ rows) : ∃ y ∈ rows', R x y := by
  induction h with
  | nil => simp at hx
  | cons hxy _ ih =>
      rcases List.mem_cons.mp hx with rfl | hx
      · exact ⟨_, by simp, hxy⟩
      · rcases ih hx with ⟨y, hy, hxy'⟩
        exact ⟨y, by simp [hy], hxy'⟩

/-- Rows that agree on a column agree on it one by one. -/
theorem forall₂_and_of_map_eq {S : α → α → Prop} {f : α → β} (hf : rows.map f = rows'.map f)
    (h : List.Forall₂ S rows rows') :
    List.Forall₂ (fun x y => f x = f y ∧ S x y) rows rows' := by
  induction h with
  | nil => exact .nil
  | cons hxy _ ih =>
      simp only [List.map_cons, List.cons.injEq] at hf
      exact .cons ⟨hf.1, hxy⟩ (ih hf.2)

/-- A weaker relation may use that the rows are stored. -/
theorem forall₂_imp_mem {S : α → α → Prop} (h : List.Forall₂ R rows rows')
    (hS : ∀ x ∈ rows, ∀ y, R x y → S x y) : List.Forall₂ S rows rows' := by
  induction h with
  | nil => exact .nil
  | cons hxy _ ih =>
      refine .cons (hS _ (by simp) _ hxy) (ih ?_)
      intro x hx
      exact hS x (by simp [hx])

/-- A weaker relation may use that the other rows are stored. -/
theorem forall₂_imp_mem_right {R S : α → β → Prop} {rows' : List β} (h : List.Forall₂ R rows rows')
    (hS : ∀ x, ∀ y ∈ rows', R x y → S x y) : List.Forall₂ S rows rows' := by
  induction h with
  | nil => exact .nil
  | cons hxy _ ih =>
      refine .cons (hS _ _ (by simp) hxy) (ih ?_)
      intro x y hy
      exact hS x y (by simp [hy])

/-- A relation between any two rows survives a rewrite that reflects it. -/
theorem pairwise_of_forall₂ {P : α → α → Prop}
    (hP : ∀ {x x' y y'}, R x x' → R y y' → P x y → P x' y')
    (h : List.Forall₂ R rows rows') (hrows : rows.Pairwise P) : rows'.Pairwise P := by
  induction h with
  | nil => exact .nil
  | cons hxx' hrest ih =>
      rcases List.pairwise_cons.mp hrows with ⟨hhead, htail⟩
      refine List.pairwise_cons.mpr ⟨?_, ih htail⟩
      intro y' hy'
      rcases exists_of_mem_forall₂ hrest hy' with ⟨y, hy, hyy'⟩
      exact hP hxx' hyy' (hhead y hy)

/-- Rewriting parents rewrites their children, child by child. -/
theorem forall₂_flatMap {γ : Type w} {S : γ → γ → Prop} {children : α → List γ}
    (hchildren : ∀ x y, R x y → List.Forall₂ S (children x) (children y))
    (h : List.Forall₂ R rows rows') :
    List.Forall₂ S (rows.flatMap children) (rows'.flatMap children) := by
  induction h with
  | nil => exact .nil
  | cons hxy _ ih =>
      simp only [List.flatMap_cons]
      exact List.rel_append (hchildren _ _ hxy) ih

/-- A search that the rewrite of each row does not disturb finds the rewritten row. -/
theorem find?_map_of_forall {f : α → α} {p : α → Bool} (h : ∀ x ∈ rows, p (f x) = p x) :
    (rows.map f).find? p = (rows.find? p).map f := by
  induction rows with
  | nil => rfl
  | cons x xs ih =>
      have hx : p (f x) = p x := h x (by simp)
      have hxs := ih (fun y hy => h y (by simp [hy]))
      cases hp : p x with
      | true => simp [hx, hp]
      | false => simp only [List.map_cons, List.find?_cons, hx, hp, hxs]

variable [DecidableEq κ] {key : α → κ} {k : κ}

/-- Rewriting the one row with key `k` that `rows` holds. -/
theorem exists_split_of_mem (hnodup : (rows.map key).Nodup) {x : α} (hx : x ∈ rows)
    (f : α → α) :
    ∃ before after, rows = before ++ x :: after
      ∧ rows.map (fun r => if key r = key x then f r else r) = before ++ f x :: after := by
  rcases List.append_of_mem hx with ⟨before, after, rfl⟩
  refine ⟨before, after, rfl, ?_⟩
  have hoff : ∀ r, r ∈ before ∨ r ∈ after → key r ≠ key x := by
    intro r hr heq
    simp only [List.map_append, List.map_cons, List.nodup_append, List.nodup_cons] at hnodup
    rcases hr with hr | hr
    · exact hnodup.2.2 (key r) (List.mem_map_of_mem hr) (key x) (by simp) heq
    · exact hnodup.2.1.1 (heq ▸ List.mem_map_of_mem hr)
  have hkeep : ∀ l : List α, (∀ r ∈ l, key r ≠ key x) →
      l.map (fun r => if key r = key x then f r else r) = l := by
    intro l hl
    exact List.map_congr_left (fun r hr => if_neg (hl r hr)) |>.trans (List.map_id l)
  simp [hkeep before (fun r hr => hoff r (.inl hr)), hkeep after (fun r hr => hoff r (.inr hr))]

theorem mem_rewrite (hnodup : (rows.map key).Nodup) {x y : α} (hx : x ∈ rows) (f : α → α)
    (hy : y ∈ rows.map (fun r => if key r = key x then f r else r)) : y = f x ∨ y ∈ rows := by
  rcases exists_split_of_mem hnodup hx f with ⟨before, after, hrows, hmap⟩
  rw [hmap] at hy
  rw [hrows]
  rcases List.mem_append.mp hy with hy | hy
  · exact .inr (List.mem_append_left _ hy)
  · rcases List.mem_cons.mp hy with hy | hy
    · exact .inl hy
    · exact .inr (List.mem_append_right _ (List.mem_cons_of_mem _ hy))

/-- A rewrite that keeps its row's key keeps all keys. -/
theorem keys_rewrite (hnodup : (rows.map key).Nodup) {x : α} (hx : x ∈ rows) (f : α → α)
    (hkey : key (f x) = key x) :
    (rows.map (fun r => if key r = key x then f r else r)).map key = rows.map key := by
  rcases exists_split_of_mem hnodup hx f with ⟨before, after, hrows, hmap⟩
  rw [hmap, hrows]
  simp [hkey]

omit [DecidableEq κ] in
/-- Rewriting rows outside their keys keeps all keys. -/
theorem keys_of_map (key : α → κ) (rows : List α) (f : α → α) (hkey : ∀ x, key (f x) = key x) :
    (rows.map f).map key = rows.map key := by
  rw [List.map_map]
  exact List.map_congr_left (fun x _ => hkey x)

omit [DecidableEq κ] in
/-- A fresh key keeps the keys apart. -/
theorem nodup_map_append {row : α} (h : (rows.map key).Nodup)
    (hfresh : ∀ other ∈ rows, key other ≠ key row) : ((rows ++ [row]).map key).Nodup := by
  rw [List.map_append]
  refine List.nodup_append.mpr ⟨h, List.nodup_singleton _, ?_⟩
  intro k hk k' hk' heq
  rcases List.mem_map.mp hk with ⟨other, hother, rfl⟩
  exact hfresh other hother (heq.trans (List.mem_singleton.mp hk'))

end Rewrite

end Lib
end Mobility
