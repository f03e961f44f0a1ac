import Mathlib.Data.List.Induction
import Mathlib.Logic.Function.Basic
import ProxyTun.Library.Transition

/-!
# Threads over a shared state

Threads take steps of their own on a state that they share, in any order, and the environment
changes the state in between. What a thread knows is traced back to the history that led there.
-/
namespace ProxyTun.Library

/-- The steps of a thread from where it is, with a shared state `σ`, and those of the environment.
-/
structure Threads (σ π α ε : Type*) where
  act : σ → π → α → Option (σ × π)
  env : σ → ε → Option σ

namespace Threads
open Transition

variable {ι σ π α ε : Type*}

inductive Event (ι α ε : Type*) where
  | thread (i : ι) (a : α)
  | env (e : ε)
  deriving DecidableEq

structure State (ι σ π : Type*) where
  shared : σ
  threads : ι → π

/-- Every thread is at its beginning. -/
def State.initial (shared : σ) (start : π) : State ι σ π := ⟨shared, fun _ => start⟩

def step [DecidableEq ι] (S : Threads σ π α ε) (s : State ι σ π) :
    Event ι α ε → Option (State ι σ π)
  | .thread i a =>
    (S.act s.shared (s.threads i) a).map fun r => ⟨r.1, Function.update s.threads i r.2⟩
  | .env e => (S.env s.shared e).map fun shared => { s with shared := shared }

section Run
variable [DecidableEq ι] {S : Threads σ π α ε} {shared : σ} {start : π} {s t : State ι σ π}

/-- The event took place, and this holds of the history before it. -/
def Happened (history : List (Event ι α ε)) (event : Event ι α ε)
    (P : List (Event ι α ε) → Prop) : Prop :=
  ∃ before after, history = before ++ event :: after ∧ P before

omit [DecidableEq ι] in
theorem Happened.append {history : List (Event ι α ε)} {event : Event ι α ε}
    {P : List (Event ι α ε) → Prop} (h : Happened history event P) (next : Event ι α ε) :
    Happened (history ++ [next]) event P := by
  obtain ⟨before, after, rfl, hbefore⟩ := h
  exact ⟨before, after ++ [next], by simp, hbefore⟩

omit [DecidableEq ι] in
theorem happened_last {history : List (Event ι α ε)} (event : Event ι α ε)
    {P : List (Event ι α ε) → Prop} (h : P history) : Happened (history ++ [event]) event P :=
  ⟨history, [], rfl, h⟩

theorem shared_of_run {I : List (Event ι α ε) → σ → Prop} (hinit : I [] shared)
    (hact : ∀ history s i a r, run S.step (State.initial shared start) history = some s →
      I history s.shared → S.act s.shared (s.threads i) a = some r →
      I (history ++ [.thread i a]) r.1)
    (henv : ∀ history s e u, run S.step (State.initial shared start) history = some s →
      I history s.shared → S.env s.shared e = some u → I (history ++ [.env e]) u)
    {history : List (Event ι α ε)}
    (hrun : run S.step (State.initial shared start) history = some s) : I history s.shared := by
  induction history using List.reverseRecOn generalizing s with
  | nil =>
    obtain rfl := Option.some.inj hrun
    exact hinit
  | append_singleton history event ih =>
    rw [run_append] at hrun
    obtain ⟨u, hu, hlast⟩ := Option.bind_eq_some_iff.mp hrun
    obtain ⟨t, hstep, hnil⟩ := run_cons_eq_some.mp hlast
    obtain rfl := Option.some.inj hnil
    cases event with
    | thread i a =>
      obtain ⟨r, hr, rfl⟩ := Option.map_eq_some_iff.mp hstep
      exact hact history u i a r hu (ih hu) hr
    | env e =>
      obtain ⟨v, hv, rfl⟩ := Option.map_eq_some_iff.mp hstep
      exact henv history u e v hu (ih hu) hv

/-- Evidence for where a thread is, which no later event takes away, and which the thread's own
steps renew, is there in every run. -/
theorem evidence_of_run {E : List (Event ι α ε) → ι → π → Prop} (hstart : ∀ i, E [] i start)
    (hmore : ∀ history i p event, E history i p → E (history ++ [event]) i p)
    (hact : ∀ history s i a r, run S.step (State.initial shared start) history = some s →
      E history i (s.threads i) → S.act s.shared (s.threads i) a = some r →
      E (history ++ [.thread i a]) i r.2)
    {history : List (Event ι α ε)}
    (hrun : run S.step (State.initial shared start) history = some s) (i : ι) :
    E history i (s.threads i) := by
  induction history using List.reverseRecOn generalizing s with
  | nil =>
    obtain rfl := Option.some.inj hrun
    exact hstart i
  | append_singleton history event ih =>
    rw [run_append] at hrun
    obtain ⟨u, hu, hlast⟩ := Option.bind_eq_some_iff.mp hrun
    obtain ⟨t, hstep, hnil⟩ := run_cons_eq_some.mp hlast
    obtain rfl := Option.some.inj hnil
    cases event with
    | thread j a =>
      obtain ⟨r, hr, rfl⟩ := Option.map_eq_some_iff.mp hstep
      by_cases hij : i = j
      · subst hij
        simpa using hact history u i a r hu (ih hu) hr
      · simpa [Function.update_of_ne hij] using hmore history i _ (.thread j a) (ih hu)
    | env e =>
      obtain ⟨v, -, rfl⟩ := Option.map_eq_some_iff.mp hstep
      have hevidence := ih hu
      exact hmore history i _ (.env e) hevidence

end Run

end Threads

end ProxyTun.Library
