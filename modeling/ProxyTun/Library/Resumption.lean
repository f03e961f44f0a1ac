import Mathlib.Logic.Function.Basic

/-!
# Code as a tree of atomic operations

Between two operations on shared state a thread only computes. Its remaining code
is therefore a tree: the next operation, and the code that follows each of its
results. Executing a tree alone and interleaving several of them both read the
same definition.
-/
namespace ProxyTun.Library

universe u v w

/-- Code that issues operations `op` and continues with their results in `Res op`. -/
inductive Code (Op : Type u) (Res : Op → Type v) (α : Type w) where
  | ret (a : α)
  | call (op : Op) (next : Res op → Code Op Res α)

namespace Code

variable {Op : Type u} {Res : Op → Type v} {α β σ : Type w}

protected def bind : Code Op Res α → (α → Code Op Res β) → Code Op Res β
  | .ret a, f => f a
  | .call op next, f => .call op fun r => (next r).bind f

instance : Monad (Code Op Res) where
  pure := .ret
  bind := Code.bind

/-- The code that issues one operation and returns its result. -/
def perform {Op : Type u} {Res : Op → Type w} (op : Op) : Code Op Res (Res op) := .call op .ret

@[simp] theorem pure_eq (a : α) : (pure a : Code Op Res α) = .ret a := rfl

@[simp] theorem ret_bind (a : α) (f : α → Code Op Res β) : (Code.ret a >>= f) = f a := rfl

@[simp] theorem call_bind (op : Op) (next : Res op → Code Op Res α) (f : α → Code Op Res β) :
    (Code.call op next >>= f) = .call op fun r => next r >>= f := rfl

@[simp] theorem perform_bind {Res : Op → Type w} (op : Op) (f : Res op → Code Op Res β) :
    (perform op >>= f) = .call op f := rfl

/-- Every operation the code can still issue satisfies `P`. -/
def All (P : Op → Prop) : Code Op Res α → Prop
  | .ret _ => True
  | .call op next => P op ∧ ∀ r, (next r).All P

/-- Every operation the code can still issue, each of its results and the code after it
are related by `Q`. -/
def Each (Q : (op : Op) → Res op → Code Op Res α → Prop) : Code Op Res α → Prop
  | .ret _ => True
  | .call op next => ∀ r, Q op r (next r) ∧ (next r).Each Q

@[simp] theorem all_ret (P : Op → Prop) (a : α) : (Code.ret a : Code Op Res α).All P := trivial

@[simp] theorem all_call (P : Op → Prop) (op : Op) (next : Res op → Code Op Res α) :
    (Code.call op next).All P ↔ P op ∧ ∀ r, (next r).All P := Iff.rfl

theorem All.mono {P P' : Op → Prop} (h : ∀ op, P op → P' op) {c : Code Op Res α}
    (hc : c.All P) : c.All P' := by
  induction c with
  | ret a => trivial
  | call op next ih => exact ⟨h op hc.1, fun r => ih r (hc.2 r)⟩

theorem All.bind {P : Op → Prop} {c : Code Op Res α} {f : α → Code Op Res β}
    (hc : c.All P) (hf : ∀ a, (f a).All P) : (c >>= f).All P := by
  induction c with
  | ret a => exact hf a
  | call op next ih => exact ⟨hc.1, fun r => ih r (hc.2 r)⟩

/-- What holds of code holds of what is left behind its first operation. -/
theorem rest_of_call {P : Op → Prop} {Q : (op : Op) → Res op → Code Op Res α → Prop} {op : Op}
    {next : Res op → Code Op Res α} (r : Res op)
    (h : (Code.call op next).All P ∧ (Code.call op next).Each Q) :
    (next r).All P ∧ (next r).Each Q :=
  ⟨h.1.2 r, (h.2 r).2⟩

/-- A condition on results that the operations of a prefix never trigger passes through it. -/
theorem Each.bind {P : Op → Prop} {Q : (op : Op) → Res op → Code Op Res β → Prop}
    (h : ∀ op r c, P op → Q op r c) {c : Code Op Res α} {f : α → Code Op Res β}
    (hc : c.All P) (hf : ∀ a, (f a).Each Q) : (c >>= f).Each Q := by
  induction c with
  | ret a => exact hf a
  | call op next ih => exact fun r => ⟨h op r _ hc.1, ih r (hc.2 r)⟩

def StartsWith (B : Op → Prop) : Code Op Res α → Prop
  | .ret _ => False
  | .call op _ => B op

/-- An operation that satisfies `B` can only be issued straight after one that satisfies
`A`. -/
def Preceded (A B : Op → Prop) : Code Op Res α → Prop :=
  Each fun op _ rest => rest.StartsWith B → A op

theorem preceded_bind {A B : Op → Prop} {c : Code Op Res α} {f : α → Code Op Res β}
    (hc : c.All fun op => ¬ B op)
    (hf : ∀ a, (f a).Preceded A B ∧ ¬ (f a).StartsWith B) :
    (c >>= f).Preceded A B ∧ ¬ (c >>= f).StartsWith B := by
  induction c with
  | ret a => exact hf a
  | call op next ih =>
    exact ⟨fun r => ⟨fun h => absurd h (ih r (hc.2 r)).2, (ih r (hc.2 r)).1⟩, hc.1⟩

/-- The code keeps to a protocol: every operation is allowed at the stage that those before it and
their results have led to, and the code ends at a stage from `idle`. -/
def Follows {τ : Type*} (after : τ → (op : Op) → Res op → Option τ) (idle : τ → Prop) :
    τ → Code Op Res α → Prop
  | t, .ret _ => idle t
  | t, .call op next => ∀ r, ∃ t', after t op r = some t' ∧ (next r).Follows after idle t'

section Follows
variable {τ : Type*} {after : τ → (op : Op) → Res op → Option τ} {idle idle' : τ → Prop}

theorem All.follows {P : Op → Prop} {t : τ} (h : ∀ op r, P op → after t op r = some t)
    (ht : idle t) {c : Code Op Res α} (hc : c.All P) : c.Follows after idle t := by
  induction c with
  | ret a => exact ht
  | call op next ih => exact fun r => ⟨t, h op r hc.1, ih r (hc.2 r)⟩

/-- Code in sequence goes on from the stage at which its first part ends. -/
theorem Follows.bind {t : τ} {c : Code Op Res α} {f : α → Code Op Res β}
    (hc : c.Follows after idle t) (hf : ∀ a u, idle u → (f a).Follows after idle' u) :
    (c >>= f).Follows after idle' t := by
  induction c generalizing t with
  | ret a => exact hf a t hc
  | call op next ih =>
    intro r
    obtain ⟨u, hu, hnext⟩ := hc r
    exact ⟨u, hu, ih r hnext⟩

end Follows

/-- Execute the code alone, each operation answered by the handler. -/
def eval (handle : (op : Op) → σ → Res op × σ) : Code Op Res α → σ → α × σ
  | .ret a, s => (a, s)
  | .call op next, s => (next (handle op s).1).eval handle (handle op s).2

variable (handle : (op : Op) → σ → Res op × σ)

@[simp] theorem eval_ret (a : α) (s : σ) :
    (Code.ret a : Code Op Res α).eval handle s = (a, s) := rfl

@[simp] theorem eval_call (op : Op) (next : Res op → Code Op Res α) (s : σ) :
    (Code.call op next).eval handle s = (next (handle op s).1).eval handle (handle op s).2 := rfl

@[simp] theorem eval_bind (c : Code Op Res α) (f : α → Code Op Res β) (s : σ) :
    (c >>= f).eval handle s = (f (c.eval handle s).1).eval handle (c.eval handle s).2 := by
  induction c generalizing s with
  | ret a => rfl
  | call op next ih => exact ih _ _

theorem eval_invariant {P : Op → Prop} {I : σ → Prop}
    (h : ∀ op s, P op → I s → I (handle op s).2) {c : Code Op Res α} (hc : c.All P) {s : σ}
    (hs : I s) : I (c.eval handle s).2 := by
  induction c generalizing s with
  | ret a => exact hs
  | call op next ih => exact ih _ (hc.2 _) (h op s hc.1 hs)

theorem eval_iff {P : Op → Prop} {I : σ → Prop}
    (h : ∀ op s, P op → (I (handle op s).2 ↔ I s)) {c : Code Op Res α} (hc : c.All P) (s : σ) :
    I (c.eval handle s).2 ↔ I s := by
  induction c generalizing s with
  | ret a => rfl
  | call op next ih => exact (ih _ (hc.2 _) _).trans (h op s hc.1)

section Failure

variable {ε : Type w}

/-- Executed alone, code that may give up succeeds with `a` and leaves the state `t`. -/
def Yields (c : ExceptT ε (Code Op Res) α) (s : σ) (a : α) (t : σ) : Prop :=
  c.run.eval handle s = (.ok a, t)

@[simp] theorem yields_pure (a b : α) (s t : σ) :
    Yields handle (pure a : ExceptT ε (Code Op Res) α) s b t ↔ b = a ∧ t = s := by
  change ((Except.ok a, s) : Except ε α × σ) = (.ok b, t) ↔ _
  rw [Prod.mk.injEq, Except.ok.injEq, eq_comm, @eq_comm _ s t]

@[simp] theorem not_yields_throw (e : ε) (a : α) (s t : σ) :
    ¬ Yields handle (throw e : ExceptT ε (Code Op Res) α) s a t := by
  intro h
  cases congrArg Prod.fst h

/-- Code in sequence succeeds when both parts do, the second from where the first ends. -/
theorem yields_bind (c : ExceptT ε (Code Op Res) α)
    (f : α → ExceptT ε (Code Op Res) β) (s u : σ) (b : β) :
    Yields handle (c >>= f) s b u ↔
      ∃ a t, Yields handle c s a t ∧ Yields handle (f a) t b u := by
  unfold Yields
  rw [ExceptT.run_bind, eval_bind]
  rcases c.run.eval handle s with ⟨_ | a, t⟩
  · simp
  · constructor
    · intro h
      exact ⟨a, t, rfl, h⟩
    · rintro ⟨a', t', heq, h⟩
      obtain ⟨ha, rfl⟩ := Prod.mk.inj heq
      obtain rfl := Except.ok.inj ha
      exact h

/-- The code that issues one operation that cannot make it give up. -/
def issue {Op : Type u} {Res : Op → Type w} (ε : Type w) (op : Op) :
    ExceptT ε (Code Op Res) (Res op) := ExceptT.lift (perform op)

@[simp] theorem yields_issue {Res : Op → Type w} (handle : (op : Op) → σ → Res op × σ) (op : Op)
    (s t : σ) (r : Res op) :
    Yields handle (issue ε op) s r t ↔ r = (handle op s).1 ∧ t = (handle op s).2 := by
  change ((Except.ok (handle op s).1, (handle op s).2) : Except ε (Res op) × σ) = (.ok r, t) ↔ _
  rw [Prod.mk.injEq, Except.ok.injEq, eq_comm, @eq_comm _ (handle op s).2 t]

@[simp] theorem yields_issue_bind {Res : Op → Type w} (handle : (op : Op) → σ → Res op × σ)
    (op : Op) (f : Res op → ExceptT ε (Code Op Res) β) (s t : σ) (b : β) :
    Yields handle (issue ε op >>= f) s b t ↔
      Yields handle (f (handle op s).1) (handle op s).2 b t := by
  simp [yields_bind, and_assoc]

/-- Executed alone, what code that may give up returns unless it does, and the state it leaves. -/
def outcome (c : ExceptT ε (Code Op Res) α) (s : σ) : Option α × σ :=
  ((c.run.eval handle s).1.toOption, (c.run.eval handle s).2)

@[simp] theorem outcome_pure (a : α) (s : σ) :
    outcome handle (pure a : ExceptT ε (Code Op Res) α) s = (some a, s) := rfl

@[simp] theorem outcome_throw (e : ε) (s : σ) :
    outcome handle (throw e : ExceptT ε (Code Op Res) α) s = (none, s) := rfl

/-- Code in sequence continues with what the first part returns, or not at all. -/
theorem outcome_bind (c : ExceptT ε (Code Op Res) α) (f : α → ExceptT ε (Code Op Res) β)
    (s : σ) :
    outcome handle (c >>= f) s =
      (outcome handle c s).1.elim (none, (outcome handle c s).2) fun a =>
        outcome handle (f a) (outcome handle c s).2 := by
  unfold outcome
  rw [ExceptT.run_bind, eval_bind]
  rcases c.run.eval handle s with ⟨_ | a, t⟩
  · rfl
  · rfl

@[simp] theorem outcome_issue_bind {Res : Op → Type w} (handle : (op : Op) → σ → Res op × σ)
    (op : Op) (f : Res op → ExceptT ε (Code Op Res) β) (s : σ) :
    outcome handle (issue ε op >>= f) s =
      outcome handle (f (handle op s).1) (handle op s).2 := by
  rw [outcome_bind]
  rfl

/-- Every operation that code which may give up can issue satisfies `P`. -/
def Issues (P : Op → Prop) (c : ExceptT ε (Code Op Res) α) : Prop := c.run.All P

theorem issues_pure (P : Op → Prop) (a : α) : Issues P (pure a : ExceptT ε (Code Op Res) α) :=
  trivial

theorem issues_throw (P : Op → Prop) (e : ε) : Issues P (throw e : ExceptT ε (Code Op Res) α) :=
  trivial

theorem Issues.bind {P : Op → Prop} {c : ExceptT ε (Code Op Res) α}
    {f : α → ExceptT ε (Code Op Res) β} (hc : Issues P c) (hf : ∀ a, Issues P (f a)) :
    Issues P (c >>= f) := by
  unfold Issues
  rw [ExceptT.run_bind]
  refine All.bind hc fun result => ?_
  cases result with
  | error e => trivial
  | ok a => exact hf a

theorem issues_issue {Res : Op → Type w} {P : Op → Prop} {op : Op} (h : P op) :
    Issues P (issue ε op : ExceptT ε (Code Op Res) (Res op)) :=
  ⟨h, fun _ => trivial⟩

end Failure

section Require

variable {ε σ β : Type} {Op : Type u} {Res : Op → Type v} (handle : (op : Op) → σ → Res op × σ)

/-- Code that gives up with `e` unless the condition holds. -/
def require (e : ε) (ok : Bool) : ExceptT ε (Code Op Res) Unit :=
  if ok then pure () else throw e

@[simp] theorem yields_require (e : ε) (ok : Bool) (s t : σ) (u : Unit) :
    Yields handle (require e ok : ExceptT ε (Code Op Res) Unit) s u t ↔ ok = true ∧ t = s := by
  cases ok <;> simp [require]

@[simp] theorem yields_require_bind (e : ε) (ok : Bool)
    (f : Unit → ExceptT ε (Code Op Res) β) (s t : σ) (b : β) :
    Yields handle (require e ok >>= f) s b t ↔ ok = true ∧ Yields handle (f ()) s b t := by
  cases ok
  · simp [yields_bind]
  · change Yields handle (f ()) s b t ↔ _
    simp

end Require

/-! How code that is put together in steps is bracketed makes no difference, also where the
steps may give up. -/

section Sequencing

variable {γ ε : Type w}

theorem bind_assoc (c : Code Op Res α) (f : α → Code Op Res β) (g : β → Code Op Res γ) :
    c >>= f >>= g = c >>= fun a => f a >>= g := by
  induction c with
  | ret a => rfl
  | call op next ih => exact congrArg (Code.call op) (funext fun r => ih r)

theorem failing_bind_assoc (c : ExceptT ε (Code Op Res) α) (f : α → ExceptT ε (Code Op Res) β)
    (g : β → ExceptT ε (Code Op Res) γ) : c >>= f >>= g = c >>= fun a => f a >>= g := by
  apply ExceptT.ext
  simp only [ExceptT.run_bind]
  rw [bind_assoc]
  congr 1
  funext result
  cases result <;> rfl

end Sequencing

end Code
end ProxyTun.Library
