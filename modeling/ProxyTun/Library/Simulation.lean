import Mathlib.Data.List.Basic

/-!
# Simulation of systems that answer

A system gives an answer to each request that it accepts in its state. One system simulates
another when related states give equal answers and stay related.
-/
namespace ProxyTun.Library.Simulation

variable {σ τ ℓ ο : Type*}

/-- The answers to a list of requests and the state behind them, if all are accepted. -/
def answers (step : σ → ℓ → Option (ο × σ)) : σ → List ℓ → Option (List ο × σ)
  | s, [] => some ([], s)
  | s, l :: ls => (step s l).bind fun r => (answers step r.2 ls).map fun rs => (r.1 :: rs.1, rs.2)

theorem answers_cons_eq_some {step : σ → ℓ → Option (ο × σ)} {s u : σ} {l : ℓ} {ls : List ℓ}
    {os : List ο} (h : answers step s (l :: ls) = some (os, u)) :
    ∃ o t rest, step s l = some (o, t) ∧ answers step t ls = some (rest, u) ∧ os = o :: rest := by
  simp only [answers, Option.bind_eq_some_iff, Option.map_eq_some_iff] at h
  obtain ⟨⟨o, t⟩, hstep, ⟨rest, u'⟩, hrest, heq⟩ := h
  obtain ⟨rfl, rfl⟩ := Prod.mk.inj heq
  exact ⟨o, t, rest, hstep, hrest, rfl⟩

theorem answers_of_total {step : σ → ℓ → Option (ο × σ)}
    (htotal : ∀ s l, ∃ o t, step s l = some (o, t)) (s : σ) (ls : List ℓ) :
    ∃ os t, answers step s ls = some (os, t) := by
  induction ls generalizing s with
  | nil => exact ⟨[], s, rfl⟩
  | cons l ls ih =>
    obtain ⟨o, t, hstep⟩ := htotal s l
    obtain ⟨os, u, hrest⟩ := ih t
    refine ⟨o :: os, u, ?_⟩
    rw [answers, hstep, Option.bind_some, hrest]
    rfl

variable {step : σ → ℓ → Option (ο × σ)} {spec : τ → ℓ → Option (ο × τ)} {R : σ → τ → Prop}

theorem answers_of_simulation
    (hsim : ∀ s t l o s', R s t → step s l = some (o, s') →
      ∃ t', spec t l = some (o, t') ∧ R s' t')
    {s s' : σ} {t : τ} {ls : List ℓ} {os : List ο} (hR : R s t)
    (h : answers step s ls = some (os, s')) :
    ∃ t', answers spec t ls = some (os, t') ∧ R s' t' := by
  induction ls generalizing s t os with
  | nil =>
    obtain ⟨rfl, rfl⟩ := Prod.mk.inj (Option.some.inj h)
    exact ⟨t, rfl, hR⟩
  | cons l ls ih =>
    obtain ⟨o, u, rest, hstep, hrest, rfl⟩ := answers_cons_eq_some h
    obtain ⟨v, hspec, hR'⟩ := hsim s t l o u hR hstep
    obtain ⟨t', hanswers, hend⟩ := ih hR' hrest
    refine ⟨t', ?_, hend⟩
    rw [answers, hspec, Option.bind_some, hanswers]
    rfl

end ProxyTun.Library.Simulation
