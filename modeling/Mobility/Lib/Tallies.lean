import Mathlib.Algebra.BigOperators.Group.List.Basic
import Mathlib.Algebra.Group.Defs

/-!
# Tallies — dictionaries of running sums

A dictionary keeps its keys in the order in which they were first met.  `addTo`
is `tally[k] = tally.get(k, 0) + n`; a tally is read by key (`valueAt`) or as a
whole (`tallied`), and adding moves both by what was added.
-/

namespace Mobility
namespace Lib

universe u v w

variable {κ : Type u} {M : Type v} {α : Type w} [DecidableEq κ] [AddCommMonoid M]

/-- `tally[k] = tally.get(k, 0) + n`. -/
def addTo (k : κ) (n : M) : List (κ × M) → List (κ × M)
  | [] => [(k, n)]
  | entry :: rest => if entry.1 = k then (k, entry.2 + n) :: rest else entry :: addTo k n rest

/-- `tally.get(k, 0)`. -/
def valueAt (tally : List (κ × M)) (k : κ) : M :=
  (tally.lookup k).getD 0

/-- `sum(tally.values())`. -/
def tallied (tally : List (κ × M)) : M :=
  (tally.map (·.2)).sum

@[simp]
theorem valueAt_nil (k : κ) : valueAt ([] : List (κ × M)) k = 0 := rfl

theorem valueAt_cons (entry : κ × M) (rest : List (κ × M)) (k : κ) :
    valueAt (entry :: rest) k = if k = entry.1 then entry.2 else valueAt rest k := by
  unfold valueAt
  rw [List.lookup_cons]
  by_cases h : k = entry.1
  · simp [h]
  · have hne : (k == entry.1) = false := beq_eq_false_iff_ne.mpr h
    rw [hne, if_neg h]

/-- With distinct keys, an entry is the value at its key. -/
theorem valueAt_of_mem {tally : List (κ × M)} (hnodup : (tally.map (·.1)).Nodup) {k : κ} {n : M}
    (h : (k, n) ∈ tally) : valueAt tally k = n := by
  induction tally with
  | nil => exact absurd h List.not_mem_nil
  | cons entry rest ih =>
      rcases List.nodup_cons.mp hnodup with ⟨hentry, hrest⟩
      rw [valueAt_cons]
      rcases List.mem_cons.mp h with rfl | h
      · rw [if_pos rfl]
      · have hmem : k ∈ rest.map (·.1) := List.mem_map.mpr ⟨(k, n), h, rfl⟩
        rw [if_neg, ih hrest h]
        intro hsame
        rw [hsame] at hmem
        exact hentry hmem

theorem valueAt_of_not_mem {tally : List (κ × M)} {k : κ} (h : k ∉ tally.map (·.1)) :
    valueAt tally k = 0 := by
  induction tally with
  | nil => rfl
  | cons entry rest ih =>
      rw [List.map_cons, List.mem_cons, not_or] at h
      rw [valueAt_cons, if_neg h.1, ih h.2]

/-- A tally is read by key, in whatever order its entries stand. -/
theorem valueAt_perm {tally tally' : List (κ × M)} (hnodup : (tally.map (·.1)).Nodup)
    (h : tally.Perm tally') (k : κ) : valueAt tally k = valueAt tally' k := by
  by_cases hk : k ∈ tally.map (·.1)
  · rcases List.mem_map.mp hk with ⟨⟨_, n⟩, hentry, rfl⟩
    have hnodup' : (tally'.map (·.1)).Nodup := (h.map _).nodup_iff.mp hnodup
    rw [valueAt_of_mem hnodup hentry, valueAt_of_mem hnodup' (h.mem_iff.mp hentry)]
  · have hk' : k ∉ tally'.map (·.1) := fun hmem => hk ((h.map _).mem_iff.mpr hmem)
    rw [valueAt_of_not_mem hk, valueAt_of_not_mem hk']

/-- One value at every key. -/
theorem valueAt_map_const (n : M) (entries : List (κ × M)) (k : κ) :
    valueAt (entries.map (fun entry => (entry.1, n))) k
      = if k ∈ entries.map (·.1) then n else 0 := by
  induction entries with
  | nil => rfl
  | cons first rest ih =>
      rw [List.map_cons, valueAt_cons, ih]
      by_cases hk : k = first.1
      · simp [hk]
      · simp only [List.map_cons, List.mem_cons, hk, false_or, if_false]

omit [DecidableEq κ] in
@[simp]
theorem tallied_nil : tallied ([] : List (κ × M)) = 0 := rfl

omit [DecidableEq κ] in
@[simp]
theorem tallied_cons (entry : κ × M) (rest : List (κ × M)) :
    tallied (entry :: rest) = entry.2 + tallied rest := by
  simp [tallied]

omit [DecidableEq κ] in
theorem tallied_perm {tally tally' : List (κ × M)} (h : tally.Perm tally') :
    tallied tally = tallied tally' :=
  (h.map _).sum_eq

omit [DecidableEq κ] in
/-- Entries without a value may be dropped. -/
theorem tallied_filter {p : κ × M → Bool} {tally : List (κ × M)}
    (h : ∀ entry ∈ tally, p entry = false → entry.2 = 0) :
    tallied (tally.filter p) = tallied tally := by
  induction tally with
  | nil => rfl
  | cons entry rest ih =>
      have hrest := ih (fun e he => h e (List.mem_cons_of_mem _ he))
      cases hp : p entry with
      | true => rw [List.filter_cons_of_pos hp, tallied_cons, tallied_cons, hrest]
      | false =>
          have hzero := h entry List.mem_cons_self hp
          rw [List.filter_cons_of_neg (by simp [hp]), tallied_cons, hrest, hzero, zero_add]

/-! ## Assignment -/

section Assignment

variable {ν : Type v}

/-- `dictionary[k] = value`. -/
def setTo (k : κ) (value : ν) : List (κ × ν) → List (κ × ν)
  | [] => [(k, value)]
  | entry :: rest => if entry.1 = k then (k, value) :: rest else entry :: setTo k value rest

/-- `dictionary.update(entries)`. -/
def setAll (entries dictionary : List (κ × ν)) : List (κ × ν) :=
  entries.foldl (fun dictionary entry => setTo entry.1 entry.2 dictionary) dictionary

theorem lookup_cons_ite (entry : κ × ν) (rest : List (κ × ν)) (k : κ) :
    (entry :: rest).lookup k = if k = entry.1 then some entry.2 else rest.lookup k := by
  rw [List.lookup_cons]
  by_cases h : k = entry.1
  · simp [h]
  · simp [beq_eq_false_iff_ne.mpr h, h]

theorem lookup_setTo (k : κ) (value : ν) (dictionary : List (κ × ν)) (k' : κ) :
    (setTo k value dictionary).lookup k'
      = if k' = k then some value else dictionary.lookup k' := by
  induction dictionary with
  | nil => exact lookup_cons_ite (k, value) [] k'
  | cons entry rest ih =>
      unfold setTo
      split_ifs with hentry hk hk
      · rw [lookup_cons_ite, if_pos hk]
      · have hne : ¬ k' = entry.1 := fun h => hk (h.trans hentry)
        rw [lookup_cons_ite, lookup_cons_ite, if_neg hk, if_neg hne]
      · have hne : ¬ k' = entry.1 := fun h => hentry (h.symm.trans hk)
        rw [lookup_cons_ite, if_neg hne, ih, if_pos hk]
      · rw [lookup_cons_ite, lookup_cons_ite, ih, if_neg hk]

theorem mem_keys_setTo {k : κ} {value : ν} {dictionary : List (κ × ν)} {k' : κ} :
    k' ∈ (setTo k value dictionary).map (·.1) ↔ k' ∈ dictionary.map (·.1) ∨ k' = k := by
  induction dictionary with
  | nil => simp [setTo]
  | cons entry rest ih =>
      unfold setTo
      split_ifs with hentry
      · simp only [List.map_cons, List.mem_cons, hentry]
        tauto
      · simp only [List.map_cons, List.mem_cons, ih]
        tauto

/-- Assigning never repeats a key. -/
theorem nodup_keys_setTo {k : κ} {value : ν} {dictionary : List (κ × ν)}
    (h : (dictionary.map (·.1)).Nodup) : ((setTo k value dictionary).map (·.1)).Nodup := by
  induction dictionary with
  | nil => simp [setTo]
  | cons entry rest ih =>
      rcases List.nodup_cons.mp h with ⟨hentry, hrest⟩
      unfold setTo
      split_ifs with hk
      · exact List.nodup_cons.mpr ⟨hk ▸ hentry, hrest⟩
      · refine List.nodup_cons.mpr ⟨?_, ih hrest⟩
        intro hmem
        rcases mem_keys_setTo.mp hmem with hmem | hsame
        · exact hentry hmem
        · exact hk hsame

theorem mem_keys_setAll {entries dictionary : List (κ × ν)} {k : κ} :
    k ∈ (setAll entries dictionary).map (·.1)
      ↔ k ∈ dictionary.map (·.1) ∨ k ∈ entries.map (·.1) := by
  induction entries generalizing dictionary with
  | nil => simp [setAll]
  | cons entry rest ih =>
      have hstep := @ih (setTo entry.1 entry.2 dictionary)
      rw [mem_keys_setTo] at hstep
      rw [List.map_cons, List.mem_cons, ← or_assoc]
      exact hstep

theorem nodup_keys_setAll {entries dictionary : List (κ × ν)}
    (h : (dictionary.map (·.1)).Nodup) : ((setAll entries dictionary).map (·.1)).Nodup := by
  induction entries generalizing dictionary with
  | nil => exact h
  | cons entry rest ih => exact ih (nodup_keys_setTo h)

/-- With distinct keys, an update shadows what was there. -/
theorem lookup_setAll {entries : List (κ × ν)} (hnodup : (entries.map (·.1)).Nodup)
    (dictionary : List (κ × ν)) (k : κ) :
    (setAll entries dictionary).lookup k = (entries.lookup k).or (dictionary.lookup k) := by
  induction entries generalizing dictionary with
  | nil => rfl
  | cons entry rest ih =>
      rcases List.nodup_cons.mp hnodup with ⟨hentry, hrest⟩
      have hstep := ih hrest (setTo entry.1 entry.2 dictionary)
      rw [lookup_setTo] at hstep
      rw [lookup_cons_ite]
      refine hstep.trans ?_
      split_ifs with hk
      · have hnone : rest.lookup k = none := by
          apply List.lookup_eq_none_iff.mpr
          intro other hother
          apply bne_iff_ne.mpr
          exact fun hsame => hentry (List.mem_map.mpr ⟨other, hother, hsame.symm.trans hk⟩)
        rw [hnone]
        rfl
      · rfl

end Assignment

/-! ## One addition -/

theorem tallied_addTo (k : κ) (n : M) (tally : List (κ × M)) :
    tallied (addTo k n tally) = tallied tally + n := by
  induction tally with
  | nil => simp [addTo]
  | cons entry rest ih =>
      unfold addTo
      split_ifs
      · rw [tallied_cons, tallied_cons, add_right_comm]
      · rw [tallied_cons, tallied_cons, ih, add_assoc]

/-- The part of a tally under some keys moves by what was added under them. -/
theorem tallied_where_addTo (p : κ → Bool) (k : κ) (n : M) (tally : List (κ × M)) :
    tallied ((addTo k n tally).filter (fun entry => p entry.1))
      = tallied (tally.filter (fun entry => p entry.1)) + if p k = true then n else 0 := by
  induction tally with
  | nil => by_cases hp : p k = true <;> simp [addTo, hp]
  | cons entry rest ih =>
      unfold addTo
      split_ifs with hentry hp hp
      · simp [hentry, hp, add_right_comm]
      · simp [hentry, hp]
      · rw [if_pos hp] at ih
        by_cases he : p entry.1 = true
        · simp [he, ih, add_assoc]
        · simp [he, ih]
      · rw [if_neg hp] at ih
        by_cases he : p entry.1 = true
        · simp [he, ih]
        · simp [he, ih]

/-- What holds of every value and is kept by addition holds after adding. -/
theorem forall_addTo (P : M → Prop) (hadd : ∀ m n, P m → P n → P (m + n)) {k : κ} {n : M}
    {tally : List (κ × M)} (hn : P n) (h : ∀ entry ∈ tally, P entry.2) :
    ∀ entry ∈ addTo k n tally, P entry.2 := by
  induction tally with
  | nil =>
      intro entry hentry
      rw [List.mem_singleton.mp hentry]
      exact hn
  | cons first rest ih =>
      have hfirst := h first List.mem_cons_self
      have hrest := fun entry hentry => h entry (List.mem_cons_of_mem _ hentry)
      intro entry hentry
      unfold addTo at hentry
      split_ifs at hentry
      · rcases List.mem_cons.mp hentry with rfl | hentry
        · exact hadd _ _ hfirst hn
        · exact hrest entry hentry
      · rcases List.mem_cons.mp hentry with rfl | hentry
        · exact hfirst
        · exact ih hrest entry hentry

theorem valueAt_addTo (k : κ) (n : M) (tally : List (κ × M)) (k' : κ) :
    valueAt (addTo k n tally) k' = valueAt tally k' + if k' = k then n else 0 := by
  induction tally with
  | nil => simp [addTo, valueAt_cons]
  | cons entry rest ih =>
      unfold addTo
      split_ifs with hentry hk' hk'
      · simp [valueAt_cons, hentry, hk']
      · simp [valueAt_cons, hentry, hk']
      · have hne : ¬ k' = entry.1 := fun h => hentry (h.symm.trans hk')
        rw [valueAt_cons, valueAt_cons, if_neg hne, if_neg hne, ih, if_pos hk']
      · rw [valueAt_cons, valueAt_cons, ih, if_neg hk', add_zero, add_zero]

theorem mem_keys_addTo {k : κ} {n : M} {tally : List (κ × M)} {k' : κ} :
    k' ∈ (addTo k n tally).map (·.1) ↔ k' ∈ tally.map (·.1) ∨ k' = k := by
  induction tally with
  | nil => simp [addTo]
  | cons entry rest ih =>
      unfold addTo
      split_ifs with hentry
      · simp only [List.map_cons, List.mem_cons, hentry]
        tauto
      · simp only [List.map_cons, List.mem_cons, ih]
        tauto

/-- Adding never repeats a key. -/
theorem nodup_keys_addTo {k : κ} {n : M} {tally : List (κ × M)}
    (h : (tally.map (·.1)).Nodup) : ((addTo k n tally).map (·.1)).Nodup := by
  induction tally with
  | nil => simp [addTo]
  | cons entry rest ih =>
      rcases List.nodup_cons.mp h with ⟨hentry, hrest⟩
      unfold addTo
      split_ifs with hk
      · exact List.nodup_cons.mpr ⟨hk ▸ hentry, hrest⟩
      · refine List.nodup_cons.mpr ⟨?_, ih hrest⟩
        intro hmem
        rcases mem_keys_addTo.mp hmem with hmem | hsame
        · exact hentry hmem
        · exact hk hsame

/-! ## Sums by key -/

/-- A key is met at most once among distinct keys. -/
theorem sum_at_key {keys : List κ} (k : κ) (n : M) (hnodup : keys.Nodup) :
    (keys.map (fun k' => if k' = k then n else 0)).sum = if k ∈ keys then n else 0 := by
  induction keys with
  | nil => simp
  | cons k' rest ih =>
      rcases List.nodup_cons.mp hnodup with ⟨hfirst, hrest⟩
      by_cases hk : k' = k
      · subst hk
        simp [ih hrest, hfirst]
      · simp [ih hrest, hk, Ne.symm hk]

/-- The values at distinct keys that cover a tally are the whole tally. -/
theorem sum_valueAt {tally : List (κ × M)} {keys : List κ} (hnodup : keys.Nodup)
    (htally : (tally.map (·.1)).Nodup) (hkeys : ∀ k ∈ tally.map (·.1), k ∈ keys) :
    (keys.map (valueAt tally)).sum = tallied tally := by
  induction tally with
  | nil =>
      refine List.sum_eq_zero ?_
      intro n hn
      rcases List.mem_map.mp hn with ⟨k, _, rfl⟩
      rfl
  | cons entry rest ih =>
      rcases List.nodup_cons.mp htally with ⟨hentry, hrest⟩
      have hsplit : ∀ k, valueAt (entry :: rest) k
          = (if k = entry.1 then entry.2 else 0) + valueAt rest k := by
        intro k
        rw [valueAt_cons]
        split_ifs with hk
        · rw [hk, valueAt_of_not_mem hentry, add_zero]
        · rw [zero_add]
      have hone := sum_at_key entry.1 entry.2 hnodup
      rw [if_pos (hkeys entry.1 List.mem_cons_self)] at hone
      have hmap : keys.map (valueAt (entry :: rest))
          = keys.map (fun k => (if k = entry.1 then entry.2 else 0) + valueAt rest k) :=
        List.map_congr_left (fun k _ => hsplit k)
      calc (keys.map (valueAt (entry :: rest))).sum
          = (keys.map (fun k => if k = entry.1 then entry.2 else 0)).sum
              + (keys.map (valueAt rest)).sum := by rw [hmap, List.sum_map_add]
        _ = entry.2 + tallied rest := by
            rw [hone, ih hrest (fun k hk => hkeys k (List.mem_cons_of_mem _ hk))]
        _ = tallied (entry :: rest) := (tallied_cons entry rest).symm

/-- A sum over elements is the sum of what they are worth under each key. -/
theorem sum_by_key {key : α → κ} {keys : List κ} {xs : List α} (worth : α → M)
    (hnodup : keys.Nodup) (hkeys : ∀ x ∈ xs, key x ∈ keys) :
    (keys.map (fun k => ((xs.filter (fun x => k = key x)).map worth).sum)).sum
      = (xs.map worth).sum := by
  induction xs with
  | nil => simp
  | cons x xs ih =>
      have hrest := ih (fun y hy => hkeys y (List.mem_cons_of_mem _ hy))
      have hsplit : ∀ k, (((x :: xs).filter (fun y => k = key y)).map worth).sum
          = (if k = key x then worth x else 0)
            + ((xs.filter (fun y => k = key y)).map worth).sum := by
        intro k
        by_cases hk : k = key x
        · simp [hk]
        · simp [hk]
      have hone := sum_at_key (key x) (worth x) hnodup
      rw [if_pos (hkeys x List.mem_cons_self)] at hone
      simp only [hsplit]
      rw [List.sum_map_add, hone, hrest, List.map_cons, List.sum_cons]

/-! ## Many additions -/

/-- Add what each element is worth under its key. -/
def addAll (key : α → κ) (worth : α → M) (xs : List α) (tally : List (κ × M)) : List (κ × M) :=
  xs.foldl (fun tally x => addTo (key x) (worth x) tally) tally

section

variable {key : α → κ} {worth : α → M}

theorem addAll_append (xs ys : List α) (tally : List (κ × M)) :
    addAll key worth (xs ++ ys) tally = addAll key worth ys (addAll key worth xs tally) :=
  List.foldl_append

theorem tallied_where_addAll (p : κ → Bool) (xs : List α) (tally : List (κ × M)) :
    tallied ((addAll key worth xs tally).filter (fun entry => p entry.1))
      = tallied (tally.filter (fun entry => p entry.1))
        + ((xs.filter (fun x => p (key x))).map worth).sum := by
  induction xs generalizing tally with
  | nil => simp [addAll]
  | cons x xs ih =>
      have hstep := ih (addTo (key x) (worth x) tally)
      rw [tallied_where_addTo] at hstep
      by_cases hp : p (key x) = true
      · simpa [addAll, hp, add_assoc] using hstep
      · simpa [addAll, hp] using hstep

theorem forall_addAll (P : M → Prop) (hadd : ∀ m n, P m → P n → P (m + n)) {xs : List α}
    {tally : List (κ × M)} (hxs : ∀ x ∈ xs, P (worth x)) (h : ∀ entry ∈ tally, P entry.2) :
    ∀ entry ∈ addAll key worth xs tally, P entry.2 := by
  induction xs generalizing tally with
  | nil => exact h
  | cons x xs ih =>
      exact ih (fun y hy => hxs y (List.mem_cons_of_mem _ hy))
        (forall_addTo P hadd (hxs x List.mem_cons_self) h)

theorem tallied_addAll (xs : List α) (tally : List (κ × M)) :
    tallied (addAll key worth xs tally) = tallied tally + (xs.map worth).sum := by
  induction xs generalizing tally with
  | nil => simp [addAll]
  | cons x xs ih =>
      have hstep := ih (addTo (key x) (worth x) tally)
      rw [tallied_addTo] at hstep
      simpa [addAll, add_assoc] using hstep

theorem valueAt_addAll (xs : List α) (tally : List (κ × M)) (k : κ) :
    valueAt (addAll key worth xs tally) k
      = valueAt tally k + ((xs.filter (fun x => k = key x)).map worth).sum := by
  induction xs generalizing tally with
  | nil => simp [addAll]
  | cons x xs ih =>
      have hstep := ih (addTo (key x) (worth x) tally)
      rw [valueAt_addTo] at hstep
      by_cases hk : k = key x
      · simpa [addAll, hk, add_assoc] using hstep
      · simpa [addAll, hk] using hstep

/-- With distinct keys, a whole tally adds its value at each key. -/
theorem valueAt_addAll_tally {entries : List (κ × M)} (hnodup : (entries.map (·.1)).Nodup)
    (tally : List (κ × M)) (k : κ) :
    valueAt (addAll (·.1) (·.2) entries tally) k = valueAt tally k + valueAt entries k := by
  induction entries generalizing tally with
  | nil => exact (add_zero _).symm
  | cons entry rest ih =>
      rcases List.nodup_cons.mp hnodup with ⟨hentry, hrest⟩
      have hstep := ih hrest (addTo entry.1 entry.2 tally)
      rw [valueAt_addTo] at hstep
      rw [valueAt_cons]
      refine hstep.trans ?_
      split_ifs with hk
      · rw [hk, valueAt_of_not_mem hentry, add_zero]
      · rw [add_zero]

theorem mem_keys_addAll {xs : List α} {tally : List (κ × M)} {k : κ} :
    k ∈ (addAll key worth xs tally).map (·.1)
      ↔ k ∈ tally.map (·.1) ∨ ∃ x ∈ xs, k = key x := by
  induction xs generalizing tally with
  | nil => simp [addAll]
  | cons x xs ih =>
      have hstep := @ih (addTo (key x) (worth x) tally)
      rw [mem_keys_addTo] at hstep
      simpa [addAll, or_assoc] using hstep

theorem nodup_keys_addAll {xs : List α} {tally : List (κ × M)} (h : (tally.map (·.1)).Nodup) :
    ((addAll key worth xs tally).map (·.1)).Nodup := by
  induction xs generalizing tally with
  | nil => exact h
  | cons x xs ih => exact ih (nodup_keys_addTo h)

end

end Lib
end Mobility
