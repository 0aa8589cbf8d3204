import Mathlib.Data.List.Basic

/-!
# Checked — guarded computations in `Except`

A transaction is a computation in `Except ε` that either reaches a new state or
stops at a refusal and leaves nothing behind.  This file gives the one guard
such computations are written with, and the inversion rules that turn "the
transaction returned `r`" into the list of guards it passed and the values it
read.
-/

namespace Mobility
namespace Lib

universe u v w

variable {ε : Type u} {α : Type v} {β : Type v}

/-- Continue only when `c` holds, otherwise refuse with `e`. -/
def require (c : Prop) [Decidable c] (e : ε) : Except ε Unit :=
  if c then .ok ⟨⟩ else .error e

/-- The value of an optional lookup, refusing with `e` when it is absent. -/
def demand (o : Option α) (e : ε) : Except ε α :=
  match o with
  | some a => .ok a
  | none => .error e

/-! ## Inversion -/

@[simp]
theorem require_eq_ok {c : Prop} [Decidable c] {e : ε} {x : Unit} :
    require c e = .ok x ↔ c := by
  by_cases hc : c <;> simp [require, hc]

theorem require_of {c : Prop} [Decidable c] {e : ε} (hc : c) :
    require c e = .ok ⟨⟩ := by
  simp [hc]

@[simp]
theorem demand_eq_ok {o : Option α} {e : ε} {a : α} :
    demand o e = .ok a ↔ o = some a := by
  cases o <;> simp [demand]

@[simp]
theorem bind_eq_ok {x : Except ε α} {f : α → Except ε β} {b : β} :
    (x >>= f) = .ok b ↔ ∃ a, x = .ok a ∧ f a = .ok b := by
  cases x with
  | error e => simp [Bind.bind, Except.bind]
  | ok a => simp [Bind.bind, Except.bind]

@[simp]
theorem map_eq_ok {x : Except ε α} {f : α → β} {b : β} :
    (f <$> x) = .ok b ↔ ∃ a, x = .ok a ∧ f a = b := by
  cases x with
  | error e => simp [Functor.map, Except.map]
  | ok a => simp [Functor.map, Except.map]

@[simp]
theorem pure_eq_ok {a b : α} : (pure a : Except ε α) = .ok b ↔ a = b := by
  simp [pure, Except.pure]

@[simp]
theorem throw_eq_ok {e : ε} {a : α} : (throw e : Except ε α) = .ok a ↔ False := by
  simp [throw, throwThe, MonadExceptOf.throw]

@[simp]
theorem ite_eq_ok {c : Prop} [Decidable c] {x y : Except ε α} {a : α} :
    (if c then x else y) = .ok a ↔ (c ∧ x = .ok a) ∨ (¬ c ∧ y = .ok a) := by
  by_cases hc : c <;> simp [hc]

/-! ## Checked loops -/

section Loops

variable {σ : Type v} {ι : Type w}

/-- Run `f` over the items in order, stopping at the first refusal. -/
def checkedFold (f : σ → ι → Except ε σ) : σ → List ι → Except ε σ
  | s, [] => .ok s
  | s, i :: is => f s i >>= fun s' => checkedFold f s' is

@[simp]
theorem checkedFold_nil (f : σ → ι → Except ε σ) (s : σ) :
    checkedFold f s [] = .ok s := rfl

@[simp]
theorem checkedFold_cons (f : σ → ι → Except ε σ) (s : σ) (i : ι) (is : List ι) :
    checkedFold f s (i :: is) = (f s i >>= fun s' => checkedFold f s' is) := rfl

/-- What every accepted round keeps, the accepted loop keeps. -/
theorem checkedFold_invariant {f : σ → ι → Except ε σ} (P : σ → Prop)
    (hstep : ∀ s i s', P s → f s i = .ok s' → P s') :
    ∀ (is : List ι) {s t : σ}, checkedFold f s is = .ok t → P s → P t := by
  intro is
  induction is with
  | nil =>
      intro s t h hs
      have hst : s = t := by simpa using h
      exact hst ▸ hs
  | cons i is ih =>
      intro s t h hs
      rcases bind_eq_ok.mp h with ⟨s', hs', ht⟩
      exact ih ht (hstep s i s' hs hs')

/-- The loop rule with the items already taken in sight. -/
theorem checkedFold_prefix {f : σ → ι → Except ε σ} {is : List ι} (P : List ι → σ → Prop)
    (hstep : ∀ done i rest s s', is = done ++ i :: rest → P done s → f s i = .ok s' →
      P (done ++ [i]) s') {s t : σ} (h : checkedFold f s is = .ok t) (hs : P [] s) : P is t := by
  have hrest : ∀ (rest done : List ι) (s : σ), is = done ++ rest → P done s →
      checkedFold f s rest = .ok t → P is t := by
    intro rest
    induction rest with
    | nil =>
        intro done s his hs h
        have hst : s = t := by simpa using h
        rw [his, List.append_nil]
        exact hst ▸ hs
    | cons i rest ih =>
        intro done s his hs h
        rcases bind_eq_ok.mp h with ⟨s', hs', ht⟩
        refine ih (done ++ [i]) s' (by simp [his]) ?_ ht
        exact hstep done i rest s s' his hs hs'
  exact hrest is [] s rfl hs h

theorem checkedFold_append {f : σ → ι → Except ε σ} (s : σ) (is js : List ι) :
    checkedFold f s (is ++ js) = (checkedFold f s is >>= fun t => checkedFold f t js) := by
  induction is generalizing s with
  | nil => rfl
  | cons i is ih =>
      simp only [List.cons_append, checkedFold_cons]
      cases f s i with
      | error e => rfl
      | ok t => exact ih t

/-- Transform the items in order, stopping at the first refusal. -/
def checkedMap {κ : Type w} (f : ι → Except ε κ) : List ι → Except ε (List κ)
  | [] => .ok []
  | i :: is => f i >>= fun k => checkedMap f is >>= fun ks => .ok (k :: ks)

theorem checkedMap_forall₂ {κ : Type w} {f : ι → Except ε κ} :
    ∀ {is : List ι} {ks : List κ},
      checkedMap f is = .ok ks → List.Forall₂ (fun i k => f i = .ok k) is ks := by
  intro is
  induction is with
  | nil =>
      intro ks h
      have hks : [] = ks := by simpa [checkedMap] using h
      exact hks ▸ .nil
  | cons i is ih =>
      intro ks h
      rcases bind_eq_ok.mp h with ⟨k, hk, h'⟩
      rcases bind_eq_ok.mp h' with ⟨ks', hks', h''⟩
      have hks : k :: ks' = ks := by simpa using h''
      exact hks ▸ .cons hk (ih hks')

theorem checkedMap_of_forall₂ {κ : Type w} {f : ι → Except ε κ} {is : List ι} {ks : List κ}
    (h : List.Forall₂ (fun i k => f i = .ok k) is ks) : checkedMap f is = .ok ks := by
  induction h with
  | nil => rfl
  | cons hik _ ih =>
      simp only [checkedMap, hik, ih]
      rfl

/-- When every item can be transformed, all of them are. -/
theorem exists_checkedMap {κ : Type w} {f : ι → Except ε κ} {R : ι → κ → Prop} {is : List ι}
    (h : ∀ i ∈ is, ∃ k, f i = .ok k ∧ R i k) :
    ∃ ks, checkedMap f is = .ok ks ∧ List.Forall₂ R is ks := by
  induction is with
  | nil => exact ⟨[], rfl, .nil⟩
  | cons i is ih =>
      rcases h i List.mem_cons_self with ⟨k, hk, hR⟩
      rcases ih (fun j hj => h j (List.mem_cons_of_mem _ hj)) with ⟨ks, hks, hRs⟩
      refine ⟨k :: ks, ?_, .cons hR hRs⟩
      simp only [checkedMap, hk, hks]
      rfl

theorem checkedMap_ok {κ : Type w} {f : ι → Except ε κ} {g : ι → κ} {is : List ι}
    (h : ∀ i ∈ is, f i = .ok (g i)) : checkedMap f is = .ok (is.map g) := by
  induction is with
  | nil => rfl
  | cons i is ih =>
      have hrest := ih (fun j hj => h j (List.mem_cons_of_mem _ hj))
      simp only [checkedMap, h i (by simp), hrest, List.map_cons]
      rfl

theorem checkedMap_const {κ : Type w} {f : ι → Except ε κ} {k : κ} {is : List ι}
    (h : ∀ i ∈ is, f i = .ok k) : checkedMap f is = .ok (List.replicate is.length k) := by
  rw [checkedMap_ok h, List.map_const']

theorem checkedMap_map {κ : Type w} {ν : Type w} {f : ι → Except ε κ} {e : ν → ι} {ns : List ν} :
    checkedMap f (ns.map e) = checkedMap (fun n => f (e n)) ns := by
  induction ns with
  | nil => rfl
  | cons n ns ih => simp only [List.map_cons, checkedMap, ih]

end Loops

end Lib
end Mobility
