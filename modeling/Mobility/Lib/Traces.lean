import Mobility.Lib.Machine

/-!
# Traces — a run with the states it went through

`Trace M allowed s earlier`: some run of allowed actions reached `s` by way of `earlier`,
latest first.  Histories are quantified over this way, where a state alone forgets them.
-/

namespace Mobility
namespace Lib

universe u v w

variable {σ : Type u} {α : Type v} {ε : Type w}

inductive Trace (M : Machine σ α ε) (allowed : σ → α → Prop) : σ → List σ → Prop
  | init : Trace M allowed M.init []
  | step {s s' : σ} {a : α} {earlier : List σ} :
      Trace M allowed s earlier → allowed s a → M.step s a = .ok s' →
        Trace M allowed s' (s :: earlier)

namespace Trace

variable {M : Machine σ α ε} {allowed : σ → α → Prop} {s : σ} {earlier : List σ}

theorem reachableBy (h : Trace M allowed s earlier) : ReachableBy M allowed s := by
  induction h with
  | init => exact .init
  | step _ ha hstep ih => exact .step ih ha hstep

theorem reachable (h : Trace M allowed s earlier) : Reachable M s :=
  h.reachableBy.reachable

/-- The run rule for facts about a state and its history. -/
theorem invariant (P : σ → List σ → Prop) (hinit : P M.init [])
    (hstep : ∀ s a s' earlier, Trace M allowed s earlier → P s earlier → allowed s a →
      M.step s a = .ok s' → P s' (s :: earlier)) (h : Trace M allowed s earlier) :
    P s earlier := by
  induction h with
  | init => exact hinit
  | step htrace ha hstep' ih => exact hstep _ _ _ _ htrace ih ha hstep'

/-- What holds of every reachable state held all along. -/
theorem all_visited (P : σ → Prop) (hP : ∀ x, Reachable M x → P x)
    (h : Trace M allowed s earlier) : ∀ x ∈ s :: earlier, P x := by
  induction h with
  | init =>
      intro x hx
      exact List.mem_singleton.mp hx ▸ hP _ .init
  | step htrace ha hstep' ih =>
      intro x hx
      rcases List.mem_cons.mp hx with rfl | hx
      · exact hP _ (Trace.step htrace ha hstep').reachable
      · exact ih x hx

/-- What every step keeps backwards held all along. -/
theorem all_earlier (P : σ → Prop)
    (hback : ∀ s a s', Reachable M s → M.step s a = .ok s' → P s' → P s)
    (h : Trace M allowed s earlier) (hs : P s) : ∀ x ∈ s :: earlier, P x := by
  induction h with
  | init =>
      intro x hx
      exact List.mem_singleton.mp hx ▸ hs
  | step htrace _ hstep' ih =>
      intro x hx
      rcases List.mem_cons.mp hx with rfl | hx
      · exact hs
      · exact ih (hback _ _ _ htrace.reachable hstep' hs) x hx

end Trace

/-- Take the actions in order, each only where a check admits it, and keep the states. -/
def Machine.traceIf (M : Machine σ α ε) (check : σ → α → Bool) :
    σ → List σ → List α → Option (σ × List σ)
  | s, earlier, [] => some (s, earlier)
  | s, earlier, a :: as =>
      if check s a then
        (M.step s a).toOption.bind (fun s' => M.traceIf check s' (s :: earlier) as)
      else none

theorem Machine.traceIf_trace (M : Machine σ α ε) {allowed : σ → α → Prop}
    {check : σ → α → Bool} (hcheck : ∀ s a, check s a = true → allowed s a) :
    ∀ {as : List α} {s : σ} {earlier : List σ} {t : σ × List σ}, Trace M allowed s earlier →
      M.traceIf check s earlier as = some t → Trace M allowed t.1 t.2 := by
  intro as
  induction as with
  | nil =>
      intro s earlier t hs hrun
      have hst : (s, earlier) = t := by simpa [Machine.traceIf] using hrun
      exact hst ▸ hs
  | cons a as ih =>
      intro s earlier t hs hrun
      unfold Machine.traceIf at hrun
      split_ifs at hrun with hallowed
      rcases Option.bind_eq_some_iff.mp hrun with ⟨s', hstep, hrest⟩
      refine ih (.step hs (hcheck s a hallowed) ?_) hrest
      cases hres : M.step s a with
      | error e => simp [hres, Except.toOption] at hstep
      | ok s'' =>
          have hsame : s'' = s' := by simpa [hres, Except.toOption] using hstep
          rw [hsame]

/-- A checked run that ends in a state and history passing a test exhibits a trace. -/
theorem Machine.exists_trace (M : Machine σ α ε) (allowed : σ → α → Prop)
    {check : σ → α → Bool} (hcheck : ∀ s a, check s a = true → allowed s a) (as : List α)
    (test : σ → List σ → Bool)
    (h : (M.traceIf check M.init [] as).any (fun t => test t.1 t.2) = true) :
    ∃ s earlier, Trace M allowed s earlier ∧ test s earlier = true := by
  rcases (Option.any_eq_true _ _).mp h with ⟨t, hrun, htest⟩
  exact ⟨t.1, t.2, M.traceIf_trace hcheck .init hrun, htest⟩

end Lib
end Mobility
