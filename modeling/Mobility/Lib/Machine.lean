import Mobility.Lib.Checked

/-!
# Machine — runs of a deterministic transition system

A `Machine` has one initial state and a partial step: an action either leads to
one next state or is refused.  All nondeterminism (clocks, outside answers,
fresh identifiers) is carried by the action.

* `ReachableBy M allowed s`: some run reaches `s` by accepted actions, each of
  which met `allowed` in the state it was taken from.
* `Reachable M s`: the same with no restriction on the actions.

Invariants are proved through `ReachableBy.invariant` (one step lemma gives a
run lemma) and may lean on invariants that are already proved through
`ReachableBy.invariant_of`.
-/

namespace Mobility
namespace Lib

universe u v w

structure Machine (σ : Type u) (α : Type v) (ε : Type w) where
  init : σ
  step : σ → α → Except ε σ

variable {σ : Type u} {α : Type v} {ε : Type w}

/-- States reached by runs whose every action met `allowed` where it was taken. -/
inductive ReachableBy (M : Machine σ α ε) (allowed : σ → α → Prop) : σ → Prop
  | init : ReachableBy M allowed M.init
  | step {s s' : σ} {a : α} :
      ReachableBy M allowed s → allowed s a → M.step s a = .ok s' → ReachableBy M allowed s'

/-- States reached by any run. -/
abbrev Reachable (M : Machine σ α ε) : σ → Prop :=
  ReachableBy M (fun _ _ => True)

namespace ReachableBy

variable {M : Machine σ α ε} {allowed allowed' : σ → α → Prop}

theorem mono (h : ∀ s a, allowed s a → allowed' s a) {s : σ} :
    ReachableBy M allowed s → ReachableBy M allowed' s := by
  intro hs
  induction hs with
  | init => exact .init
  | step _ ha hstep ih => exact .step ih (h _ _ ha) hstep

theorem reachable {s : σ} (hs : ReachableBy M allowed s) : Reachable M s :=
  hs.mono (fun _ _ _ => trivial)

/-- The run rule: an invariant of the start and of every allowed step holds in
every state of every allowed run. -/
theorem invariant (P : σ → Prop) (hinit : P M.init)
    (hstep : ∀ s a s', P s → allowed s a → M.step s a = .ok s' → P s') {s : σ} :
    ReachableBy M allowed s → P s := by
  intro hs
  induction hs with
  | init => exact hinit
  | step _ ha hstep' ih => exact hstep _ _ _ ih ha hstep'

/-- The run rule where the step may use a fact `K` already known of every
reachable state. -/
theorem invariant_of (K : σ → Prop) (hK : ∀ s, Reachable M s → K s) (P : σ → Prop)
    (hinit : P M.init)
    (hstep : ∀ s a s', K s → P s → allowed s a → M.step s a = .ok s' → P s') {s : σ} :
    ReachableBy M allowed s → P s := by
  intro hs
  induction hs with
  | init => exact hinit
  | step hreach ha hstep' ih => exact hstep _ _ _ (hK _ hreach.reachable) ih ha hstep'

end ReachableBy

/-! ## Executing a run -/

/-- Take the actions in order, stopping at the first refusal. -/
def Machine.run (M : Machine σ α ε) (s : σ) (as : List α) : Except ε σ :=
  checkedFold M.step s as

/-- A refused action leaves the state unchanged. -/
def Machine.stepOrStay (M : Machine σ α ε) (s : σ) (a : α) : σ :=
  match M.step s a with
  | .ok s' => s'
  | .error _ => s

theorem Machine.run_reachable (M : Machine σ α ε) {s t : σ} {as : List α}
    (hs : Reachable M s) (hrun : M.run s as = .ok t) : Reachable M t := by
  refine checkedFold_invariant (Reachable M) ?_ as hrun hs
  intro s a s' hs ha
  exact ReachableBy.step hs trivial ha

/-- A run of actions that are allowed wherever they are taken. -/
theorem Machine.run_reachableBy (M : Machine σ α ε) {allowed : σ → α → Prop} :
    ∀ {as : List α} {s t : σ}, ReachableBy M allowed s → (∀ a ∈ as, ∀ s, allowed s a) →
      M.run s as = .ok t → ReachableBy M allowed t := by
  intro as
  induction as with
  | nil =>
      intro s t hs _ hrun
      have hst : s = t := by simpa [Machine.run] using hrun
      exact hst ▸ hs
  | cons a as ih =>
      intro s t hs hallowed hrun
      rcases bind_eq_ok.mp hrun with ⟨s', hstep, hrest⟩
      refine ih (.step hs (hallowed a (by simp) s) hstep) ?_ hrest
      intro b hb
      exact hallowed b (List.mem_cons_of_mem _ hb)

/-- A run that ends in a state passing a test. -/
theorem Machine.exists_run (M : Machine σ α ε) (s : σ) (as : List α) (test : σ → Bool)
    (h : (M.run s as).toOption.any test = true) : ∃ s', M.run s as = .ok s' ∧ test s' = true := by
  cases hrun : M.run s as with
  | error e => simp [hrun, Except.toOption] at h
  | ok s' => exact ⟨s', rfl, by simpa [hrun, Except.toOption] using h⟩

/-- Such a run exhibits a reachable state that passes the test. -/
theorem Machine.exists_reachable (M : Machine σ α ε) (as : List α) (test : σ → Bool)
    (h : (M.run M.init as).toOption.any test = true) : ∃ s, Reachable M s ∧ test s = true := by
  rcases M.exists_run M.init as test h with ⟨s, hrun, htest⟩
  exact ⟨s, M.run_reachable .init hrun, htest⟩

/-- A run and one more step, between states that pass a test. -/
theorem Machine.exists_step (M : Machine σ α ε) (as : List α) (a : α) (test : σ → σ → Bool)
    (h : (M.run M.init as).toOption.any (fun s => (M.step s a).toOption.any (test s)) = true) :
    ∃ s s', Reachable M s ∧ M.step s a = .ok s' ∧ test s s' = true := by
  rcases M.exists_reachable as _ h with ⟨s, hs, htest⟩
  cases hstep : M.step s a with
  | error e => simp [hstep, Except.toOption] at htest
  | ok s' => exact ⟨s, s', hs, hstep, by simpa [hstep, Except.toOption] using htest⟩

/-- Take the actions in order, each only where a check admits it. -/
def Machine.runIf (M : Machine σ α ε) (check : σ → α → Bool) : σ → List α → Option σ
  | s, [] => some s
  | s, a :: as => if check s a then (M.step s a).toOption.bind (M.runIf check · as) else none

theorem Machine.runIf_reachableBy (M : Machine σ α ε) {allowed : σ → α → Prop}
    {check : σ → α → Bool} :
    ∀ {as : List α} {s t : σ}, (∀ a ∈ as, ∀ s, check s a = true → allowed s a) →
      ReachableBy M allowed s → M.runIf check s as = some t → ReachableBy M allowed t := by
  intro as
  induction as with
  | nil =>
      intro s t _ hs hrun
      have hst : s = t := by simpa [Machine.runIf] using hrun
      exact hst ▸ hs
  | cons a as ih =>
      intro s t hcheck hs hrun
      unfold Machine.runIf at hrun
      split_ifs at hrun with hallowed
      rcases Option.bind_eq_some_iff.mp hrun with ⟨s', hstep, hrest⟩
      refine ih (fun b hb => hcheck b (List.mem_cons_of_mem _ hb))
        (.step hs (hcheck a (by simp) s hallowed) ?_) hrest
      cases hres : M.step s a with
      | error e => simp [hres, Except.toOption] at hstep
      | ok s'' =>
          have hsame : s'' = s' := by simpa [hres, Except.toOption] using hstep
          rw [hsame]

/-- A checked run that ends in a state passing a test exhibits such a state. -/
theorem Machine.exists_reachableBy (M : Machine σ α ε) (allowed : σ → α → Prop)
    {check : σ → α → Bool} (as : List α)
    (hcheck : ∀ a ∈ as, ∀ s, check s a = true → allowed s a) (test : σ → Bool)
    (h : (M.runIf check M.init as).any test = true) :
    ∃ s, ReachableBy M allowed s ∧ test s = true := by
  rcases (Option.any_eq_true _ _).mp h with ⟨s, hrun, htest⟩
  exact ⟨s, M.runIf_reachableBy hcheck .init hrun, htest⟩

end Lib
end Mobility
