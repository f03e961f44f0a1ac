import Mathlib.Data.List.Basic
import Mathlib.Data.List.Induction

/-!
# Runs of a labelled system

A system is a partial step function: a label that is not enabled in a state has
no successor. A run is a list of labels, and a guard restricts the steps of a
run through the state before each of them.
-/
namespace ProxyTun.Library.Transition

variable {σ ℓ : Type*} {step : σ → ℓ → Option σ}

/-- The state after executing the labels in order, if every one of them is enabled. -/
def run (step : σ → ℓ → Option σ) : σ → List ℓ → Option σ
  | s, [] => some s
  | s, l :: ls => (step s l).bind fun t => run step t ls

/-- Some run leads from the first state to the second. -/
def Reachable (step : σ → ℓ → Option σ) (s t : σ) : Prop := ∃ ls, run step s ls = some t

/-- Every label of the run meets the guard in the state in which it is executed. -/
def Guarded (step : σ → ℓ → Option σ) (G : σ → ℓ → Prop) : σ → List ℓ → Prop
  | _, [] => True
  | s, l :: ls => G s l ∧ ∀ t, step s l = some t → Guarded step G t ls

@[simp] theorem run_nil (s : σ) : run step s [] = some s := rfl

theorem run_cons_eq_some {s u : σ} {l : ℓ} {ls : List ℓ} :
    run step s (l :: ls) = some u ↔ ∃ t, step s l = some t ∧ run step t ls = some u := by
  simp only [run, Option.bind_eq_some_iff]

theorem run_append {s : σ} (ls ms : List ℓ) :
    run step s (ls ++ ms) = (run step s ls).bind fun t => run step t ms := by
  induction ls generalizing s with
  | nil => rfl
  | cons l ls ih => simp only [List.cons_append, run, ih, Option.bind_assoc]

theorem Reachable.trans {s t u : σ} (h : Reachable step s t) (h' : Reachable step t u) :
    Reachable step s u := by
  obtain ⟨ls, hls⟩ := h
  obtain ⟨ms, hms⟩ := h'
  exact ⟨ls ++ ms, by rw [run_append, hls, Option.bind_some, hms]⟩

theorem Reachable.single {s t : σ} {l : ℓ} (h : step s l = some t) : Reachable step s t :=
  ⟨[l], by simp [run, h]⟩

/-- The guard of a run can be evaluated when the guard of a step can. -/
instance decidableGuarded {G : σ → ℓ → Prop} [∀ s l, Decidable (G s l)] :
    ∀ (s : σ) (ls : List ℓ), Decidable (Guarded step G s ls)
  | _, [] => .isTrue trivial
  | s, l :: ls =>
    have : Decidable (∀ t, step s l = some t → Guarded step G t ls) :=
      match _h : step s l with
      | none => .isTrue fun _ h => nomatch h
      | some t =>
        have := decidableGuarded (G := G) t ls
        decidable_of_iff (Guarded step G t ls)
          ⟨fun ht _ hu => Option.some.inj hu ▸ ht, fun ht => ht t rfl⟩
    inferInstanceAs (Decidable (_ ∧ _))

theorem Guarded.cons {G : σ → ℓ → Prop} {s t : σ} {l : ℓ} {ls : List ℓ} (hl : G s l)
    (h : step s l = some t) (hls : Guarded step G t ls) : Guarded step G s (l :: ls) := by
  refine ⟨hl, fun u hu => ?_⟩
  obtain rfl : t = u := Option.some.inj (h.symm.trans hu)
  exact hls

theorem guarded_invariant {G : σ → ℓ → Prop} {I : σ → Prop}
    (hstep : ∀ s l t, I s → G s l → step s l = some t → I t)
    {s t : σ} {ls : List ℓ} (hrun : run step s ls = some t)
    (hguard : Guarded step G s ls) (hs : I s) : I t := by
  induction ls generalizing s with
  | nil =>
    obtain rfl : s = t := by simpa using hrun
    exact hs
  | cons l ls ih =>
    obtain ⟨u, hu, hrest⟩ := run_cons_eq_some.mp hrun
    exact ih hrest (hguard.2 u hu) (hstep s l u hs hguard.1 hu)

theorem guarded_true (s : σ) (ls : List ℓ) : Guarded step (fun _ _ => True) s ls := by
  induction ls generalizing s with
  | nil => trivial
  | cons l ls ih => exact ⟨trivial, fun t _ => ih t⟩

theorem run_invariant {I : σ → Prop} (hstep : ∀ s l t, I s → step s l = some t → I t)
    {s t : σ} {ls : List ℓ} (hrun : run step s ls = some t) (hs : I s) : I t :=
  guarded_invariant (fun s l t h _ => hstep s l t h) hrun (guarded_true s ls) hs

/-- A relation to the states of another system that each step keeps, through steps of the other
one, is kept by runs. -/
theorem reachable_of_simulation {τ κ : Type*} {step' : τ → κ → Option τ} {R : τ → σ → Prop}
    (hsim : ∀ s l t u, R u s → step s l = some t → ∃ v, Reachable step' u v ∧ R v t)
    {s t : σ} {ls : List ℓ} (hrun : run step s ls = some t) {u : τ} (hu : R u s) :
    ∃ v, Reachable step' u v ∧ R v t := by
  refine run_invariant (I := fun s => ∃ v, Reachable step' u v ∧ R v s) ?_ hrun
    ⟨u, ⟨[], rfl⟩, hu⟩
  rintro s l t ⟨v, hreach, hv⟩ h
  obtain ⟨w, hstep, hw⟩ := hsim s l t v hv h
  exact ⟨w, hreach.trans hstep, hw⟩

/-- The labels of another system that the steps of a run commit, one after the other. -/
def committed {κ : Type*} (step : σ → ℓ → Option σ) (commits : σ → ℓ → Option κ) :
    σ → List ℓ → List κ
  | _, [] => []
  | s, l :: ls => (commits s l).toList ++ (step s l).elim [] fun t => committed step commits t ls

/-- A relation to the states of another system, which takes the step that a guarded step commits or
none, is kept by guarded runs. -/
theorem run_committed_of_simulation {τ κ : Type*} {step' : τ → κ → Option τ} {R : τ → σ → Prop}
    {G : σ → ℓ → Prop} {commits : σ → ℓ → Option κ}
    (hsim : ∀ s l t u, R u s → G s l → step s l = some t →
      ∃ v, run step' u (commits s l).toList = some v ∧ R v t)
    {s t : σ} {ls : List ℓ} (hrun : run step s ls = some t) (hguard : Guarded step G s ls) {u : τ}
    (hu : R u s) : ∃ v, run step' u (committed step commits s ls) = some v ∧ R v t := by
  induction ls generalizing s u with
  | nil =>
    obtain rfl : s = t := by simpa using hrun
    exact ⟨u, rfl, hu⟩
  | cons l ls ih =>
    obtain ⟨s', hs', hrest⟩ := run_cons_eq_some.mp hrun
    obtain ⟨v, hv, hR⟩ := hsim s l s' u hu hguard.1 hs'
    obtain ⟨w, hw, hend⟩ := ih hrest (hguard.2 s' hs') hR
    refine ⟨w, ?_, hend⟩
    rw [committed, hs', run_append, hv]
    exact hw

theorem guarded_of_labels {L : ℓ → Prop} {ls : List ℓ} (hls : ∀ l ∈ ls, L l) (s : σ) :
    Guarded step (fun _ l => L l) s ls := by
  induction ls generalizing s with
  | nil => trivial
  | cons l ls ih =>
    exact ⟨hls l List.mem_cons_self,
      fun t _ => ih (fun m hm => hls m (List.mem_cons_of_mem _ hm)) t⟩

theorem Guarded.and {G H : σ → ℓ → Prop} {s : σ} {ls : List ℓ} (hG : Guarded step G s ls)
    (hH : Guarded step H s ls) : Guarded step (fun s l => G s l ∧ H s l) s ls := by
  induction ls generalizing s with
  | nil => trivial
  | cons l ls ih => exact ⟨⟨hG.1, hH.1⟩, fun t ht => ih (hG.2 t ht) (hH.2 t ht)⟩

/-- What every step with a label from `L` preserves holds at the end of every run of such
labels. -/
theorem run_invariant_of {L : ℓ → Prop} {I : σ → Prop}
    (hstep : ∀ s l t, I s → L l → step s l = some t → I t) {s t : σ} {ls : List ℓ}
    (hls : ∀ l ∈ ls, L l) (hrun : run step s ls = some t) (hs : I s) : I t :=
  guarded_invariant hstep hrun (guarded_of_labels hls s) hs

/-- A state that records whether each of its steps met a guard describes the guard of the
whole run exactly. The invariant `I` is what the recording needs to be right, and `H` is what
the steps of the run meet anyway. -/
theorem guarded_iff_recorded_within {G H : σ → ℓ → Prop} {I P : σ → Prop}
    (hinv : ∀ s l t, I s → H s l → step s l = some t → I t)
    (hrec : ∀ s l t, I s → H s l → step s l = some t → (P t ↔ P s ∧ G s l))
    {s t : σ} {ls : List ℓ} (hrun : run step s ls = some t) (hH : Guarded step H s ls)
    (hs : I s) : P t ↔ P s ∧ Guarded step G s ls := by
  induction ls generalizing s with
  | nil =>
    obtain rfl : s = t := by simpa using hrun
    simp [Guarded]
  | cons l ls ih =>
    obtain ⟨u, hu, hrest⟩ := run_cons_eq_some.mp hrun
    rw [ih hrest (hH.2 u hu) (hinv s l u hs hH.1 hu), hrec s l u hs hH.1 hu, and_assoc]
    refine and_congr_right fun _ => and_congr_right fun _ => ⟨fun h v hv => ?_, fun h => h u hu⟩
    obtain rfl : u = v := Option.some.inj (hu.symm.trans hv)
    exact h

theorem guarded_iff_recorded_of {L : ℓ → Prop} {G : σ → ℓ → Prop} {I P : σ → Prop}
    (hinv : ∀ s l t, I s → L l → step s l = some t → I t)
    (hrec : ∀ s l t, I s → L l → step s l = some t → (P t ↔ P s ∧ G s l))
    {s t : σ} {ls : List ℓ} (hls : ∀ l ∈ ls, L l) (hrun : run step s ls = some t) (hs : I s) :
    P t ↔ P s ∧ Guarded step G s ls :=
  guarded_iff_recorded_within hinv hrec hrun (guarded_of_labels hls s) hs

theorem guarded_iff_recorded {G : σ → ℓ → Prop} {I P : σ → Prop}
    (hinv : ∀ s l t, I s → step s l = some t → I t)
    (hrec : ∀ s l t, I s → step s l = some t → (P t ↔ P s ∧ G s l))
    {s t : σ} {ls : List ℓ} (hrun : run step s ls = some t) (hs : I s) :
    P t ↔ P s ∧ Guarded step G s ls :=
  guarded_iff_recorded_within (fun s l t h _ => hinv s l t h) (fun s l t h _ => hrec s l t h)
    hrun (guarded_true s ls) hs

def Visits (step : σ → ℓ → Option σ) (s : σ) (ls : List ℓ) (t : σ) : Prop :=
  ∃ before, before <+: ls ∧ run step s before = some t

theorem Guarded.of_append {G : σ → ℓ → Prop} {s : σ} {ls ms : List ℓ}
    (h : Guarded step G s (ls ++ ms)) :
    Guarded step G s ls ∧ ∀ t, run step s ls = some t → Guarded step G t ms := by
  induction ls generalizing s with
  | nil =>
    refine ⟨trivial, fun t ht => ?_⟩
    obtain rfl : s = t := by simpa using ht
    exact h
  | cons l ls ih =>
    refine ⟨⟨h.1, fun u hu => (ih (h.2 u hu)).1⟩, fun t ht => ?_⟩
    obtain ⟨u, hu, hrest⟩ := run_cons_eq_some.mp ht
    exact (ih (h.2 u hu)).2 t hrest

/-- What every guarded step from a state that a run comes to preserves, the run preserves. -/
theorem guarded_invariant_visited {G : σ → ℓ → Prop} {I : σ → Prop} {s t : σ} {ls : List ℓ}
    (hstep : ∀ u l v, Visits step s ls u → l ∈ ls → I u → G u l → step u l = some v → I v)
    (hrun : run step s ls = some t) (hguard : Guarded step G s ls) (hs : I s) : I t := by
  have hprefix : ∀ before, before <+: ls → ∀ u, run step s before = some u → I u := by
    intro before
    induction before using List.reverseRecOn with
    | nil =>
      intro _ u hu
      obtain rfl : s = u := by simpa using hu
      exact hs
    | append_singleton before l ih =>
      intro hle v hv
      have hle' : before <+: ls := (List.prefix_append before [l]).trans hle
      rw [run_append] at hv
      obtain ⟨u, hu, hlast⟩ := Option.bind_eq_some_iff.mp hv
      obtain ⟨v', hv', hnil⟩ := run_cons_eq_some.mp hlast
      obtain rfl : v' = v := by simpa using hnil
      obtain ⟨rest, rfl⟩ := hle
      have hl := ((hguard.of_append.1).of_append.2 u hu).1
      exact hstep u l v' ⟨before, hle', hu⟩ (by simp) (ih hle' u hu) hl hv'
  exact hprefix ls (List.prefix_refl ls) t hrun

/-- Every step of the run is as `Q` asks for. -/
def EachStep (step : σ → ℓ → Option σ) (Q : σ → ℓ → σ → Prop) : σ → List ℓ → Prop
  | _, [] => True
  | s, l :: ls => ∀ t, step s l = some t → Q s l t ∧ EachStep step Q t ls

theorem eachStep_of_guarded {Q : σ → ℓ → σ → Prop} {G : σ → ℓ → Prop} {I : σ → Prop}
    (hstep : ∀ s l t, I s → G s l → step s l = some t → Q s l t ∧ I t) {s : σ} {ls : List ℓ}
    (hguard : Guarded step G s ls) (hs : I s) : EachStep step Q s ls := by
  induction ls generalizing s with
  | nil => trivial
  | cons l ls ih =>
    intro t ht
    obtain ⟨hQ, hI⟩ := hstep s l t hs hguard.1 ht
    exact ⟨hQ, ih (hguard.2 t ht) hI⟩

/-- Where a guard says of each step whether it is as `Q` asks for, and such steps keep what the
guard needs for that, the runs of such steps are the guarded ones. -/
theorem eachStep_iff_guarded {Q : σ → ℓ → σ → Prop} {G H : σ → ℓ → Prop} {I : σ → Prop}
    (hstep : ∀ s l t, I s → H s l → step s l = some t → (Q s l t ↔ G s l))
    (hinv : ∀ s l t, I s → H s l → step s l = some t → Q s l t → I t)
    {s u : σ} {ls : List ℓ} (hrun : run step s ls = some u) (hH : Guarded step H s ls)
    (hs : I s) : EachStep step Q s ls ↔ Guarded step G s ls := by
  induction ls generalizing s with
  | nil => exact Iff.rfl
  | cons l ls ih =>
    obtain ⟨t, ht, hrest⟩ := run_cons_eq_some.mp hrun
    have hq := hstep s l t hs hH.1 ht
    constructor
    · intro h
      obtain ⟨hQ, htail⟩ := h t ht
      have hI : I t := hinv s l t hs hH.1 ht hQ
      exact .cons (hq.mp hQ) ht ((ih hrest (hH.2 t ht) hI).mp htail)
    · rintro ⟨hG, htail⟩ t' ht'
      obtain rfl : t = t' := Option.some.inj (ht.symm.trans ht')
      have hQ := hq.mpr hG
      have hI : I t := hinv s l t hs hH.1 ht hQ
      exact ⟨hQ, (ih hrest (hH.2 t ht) hI).mpr (htail t ht)⟩

/-- Where a guard on what the labels come to says of each step whether it is as `Q` asks for, the
runs of such steps are those whose labels are guarded. -/
theorem eachStep_iff_told {τ : Type*} {next : τ → ℓ → τ} {R : τ → σ → Prop}
    {Q : σ → ℓ → Prop} {G : τ → ℓ → Prop} (hQ : ∀ c s l, R c s → (Q s l ↔ G c l))
    (hR : ∀ c s l t, R c s → step s l = some t → R (next c l) t)
    {s u : σ} {ls : List ℓ} (hrun : run step s ls = some u) {c : τ} (hc : R c s) :
    EachStep step (fun s l _ => Q s l) s ls ↔ Guarded (fun c l => some (next c l)) G c ls := by
  induction ls generalizing s c with
  | nil => exact Iff.rfl
  | cons l ls ih =>
    obtain ⟨t, ht, hrest⟩ := run_cons_eq_some.mp hrun
    have htail := ih hrest (hR c s l t hc ht)
    constructor
    · intro h
      obtain ⟨hq, hsteps⟩ := h t ht
      exact .cons ((hQ c s l hc).mp hq) rfl (htail.mp hsteps)
    · rintro ⟨hG, hguarded⟩ t' ht'
      obtain rfl : t = t' := Option.some.inj (ht.symm.trans ht')
      exact ⟨(hQ c s l hc).mpr hG, htail.mpr (hguarded _ rfl)⟩

theorem EachStep.mono {P Q : σ → ℓ → σ → Prop} (hPQ : ∀ s l t, P s l t → Q s l t) {s : σ}
    {ls : List ℓ} (h : EachStep step P s ls) : EachStep step Q s ls := by
  induction ls generalizing s with
  | nil => trivial
  | cons l ls ih =>
    intro t ht
    obtain ⟨hP, htail⟩ := h t ht
    exact ⟨hPQ s l t hP, ih htail⟩

theorem EachStep.of_append {Q : σ → ℓ → σ → Prop} {s u : σ} {ls ms : List ℓ}
    (h : EachStep step Q s (ls ++ ms)) (hrun : run step s ls = some u) : EachStep step Q u ms := by
  induction ls generalizing s with
  | nil =>
    obtain rfl : s = u := by simpa using hrun
    exact h
  | cons l ls ih =>
    obtain ⟨t, ht, hrest⟩ := run_cons_eq_some.mp hrun
    exact ih (h t ht).2 hrest

end ProxyTun.Library.Transition
