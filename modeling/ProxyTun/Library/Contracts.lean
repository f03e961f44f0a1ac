import ProxyTun.Library.Resumption

/-!
# What code keeps to under every answer

An environment may answer an operation in several ways, and it changes with each answer. A contract
of code names an invariant of the environment and what holds where the code ends. Each answer leads
to the rest of the code with the same contract.
-/
namespace ProxyTun.Library.Code

universe u v

variable {Op : Type u} {Res : Op → Type v} {α β ε σ : Type v}

/-- From `s` on `I` holds all along, and `Q` where the code ends, whatever it is answered. -/
def Meets (answers : σ → (op : Op) → Res op → σ → Prop) (I : σ → Prop) (Q : α → σ → Prop) :
    Code Op Res α → σ → Prop
  | .ret a, s => I s ∧ Q a s
  | .call op next, s => I s ∧ ∀ r t, answers s op r t → (next r).Meets answers I Q t

variable {answers : σ → (op : Op) → Res op → σ → Prop} {I : σ → Prop}

theorem Meets.invariant {Q : α → σ → Prop} {c : Code Op Res α} {s : σ}
    (h : c.Meets answers I Q s) : I s := by
  cases c with
  | ret a => exact h.1
  | call op next => exact h.1

/-- Code in sequence: the second part takes over wherever the first one ends. -/
theorem Meets.bind {Q : α → σ → Prop} {Q' : β → σ → Prop} {c : Code Op Res α}
    {f : α → Code Op Res β} {s : σ} (h : c.Meets answers I Q s)
    (hf : ∀ a t, I t → Q a t → (f a).Meets answers I Q' t) :
    (c >>= f).Meets answers I Q' s := by
  induction c generalizing s with
  | ret a => exact hf a s h.1 h.2
  | call op next ih => exact ⟨h.1, fun r t ht => ih r (h.2 r t ht)⟩

theorem Meets.mono {Q Q' : α → σ → Prop} {c : Code Op Res α} {s : σ} (h : c.Meets answers I Q s)
    (hq : ∀ a t, I t → Q a t → Q' a t) : c.Meets answers I Q' s := by
  induction c generalizing s with
  | ret a => exact ⟨h.1, hq a s h.1 h.2⟩
  | call op next ih => exact ⟨h.1, fun r t ht => ih r (h.2 r t ht)⟩

/-- The contract of code that may give up: `Q` where it succeeds, the invariant in any case. -/
def Ensures (answers : σ → (op : Op) → Res op → σ → Prop) (I : σ → Prop) (Q : α → σ → Prop)
    (c : ExceptT ε (Code Op Res) α) (s : σ) : Prop :=
  c.run.Meets answers I (fun result t => ∀ a, result = .ok a → Q a t) s

theorem ensures_pure {Q : α → σ → Prop} {a : α} {s : σ} (hs : I s) (hq : Q a s) :
    Ensures answers I Q (pure a : ExceptT ε (Code Op Res) α) s := by
  refine ⟨hs, fun b hb => ?_⟩
  obtain rfl := Except.ok.inj hb
  exact hq

theorem ensures_throw {Q : α → σ → Prop} {s : σ} (hs : I s) (e : ε) :
    Ensures answers I Q (throw e : ExceptT ε (Code Op Res) α) s :=
  ⟨hs, fun _ h => by cases h⟩

/-- Code in sequence: where the first part gives up, the second one has nothing to show. -/
theorem Ensures.bind {Q : α → σ → Prop} {Q' : β → σ → Prop} {c : ExceptT ε (Code Op Res) α}
    {f : α → ExceptT ε (Code Op Res) β} {s : σ} (h : Ensures answers I Q c s)
    (hf : ∀ a t, I t → Q a t → Ensures answers I Q' (f a) t) :
    Ensures answers I Q' (c >>= f) s := by
  unfold Ensures
  rw [ExceptT.run_bind]
  refine Meets.bind h fun result t ht hq => ?_
  cases result with
  | error e => exact ensures_throw ht e
  | ok a => exact hf a t ht (hq a rfl)

theorem Ensures.mono {Q Q' : α → σ → Prop} {c : ExceptT ε (Code Op Res) α} {s : σ}
    (h : Ensures answers I Q c s) (hq : ∀ a t, I t → Q a t → Q' a t) : Ensures answers I Q' c s :=
  Meets.mono h fun _ t ht hresult a ha => hq a t ht (hresult a ha)

theorem ensures_issue {Op : Type u} {Res : Op → Type v} {σ ε : Type v}
    {answers : σ → (op : Op) → Res op → σ → Prop} {I : σ → Prop} {op : Op}
    {Q : Res op → σ → Prop} {s : σ} (hs : I s)
    (h : ∀ r t, answers s op r t → I t ∧ Q r t) :
    Ensures answers I Q (issue ε op) s := by
  refine ⟨hs, fun r t ht => ⟨(h r t ht).1, fun a ha => ?_⟩⟩
  obtain rfl := Except.ok.inj ha
  exact (h r t ht).2

end ProxyTun.Library.Code
