import Mathlib.Data.List.Induction
import Mathlib.Order.Basic
import ProxyTun.Library.Transition

/-!
# Caches of answers that threads share

Before a thread looks into a question, it looks for an answer in a cache, and what it finds out is
kept there with a time. The clock is read before the cache is locked, so that other threads may come
in between. An answer that stands for none is not kept. Entries may be dropped at any moment.
-/
namespace ProxyTun.Library

/-- What is done with a cache `C` of answers `ν` to questions `κ` at times `τ`, and how an answer is
found out in a world `ω`. What else it depends on is in `ε` and `δ`. -/
structure AnswerCache (C κ ν τ ε δ ω : Type*) where
  unknown : ν
  find : τ → κ → C → ν
  keep : ε → τ → κ → ν → C → C
  drop : δ → C → C
  learn : ω → κ → Option ν

namespace AnswerCache
open Transition

variable {ι C κ ν τ σ ε δ ω : Type*}

/-- Where a thread is with its question. -/
inductive Progress (κ ν τ : Type*) where
  | idle
  | finding (key : κ) (now : τ)
  | asking (key : κ)
  | learned (key : κ) (answer : ν)
  | keeping (key : κ) (answer : ν) (now : τ)

/-- A step of a thread with its question, or of the one that drops entries. The clock is read in
`start` and in `stamp`. -/
inductive Act (ι κ τ ε δ ω : Type*) where
  | start (i : ι) (key : κ) (now : τ)
  | find (i : ι)
  | learn (i : ι) (key : κ) (world : ω)
  | stamp (i : ι) (key : κ) (now : τ)
  | keep (i : ι) (e : ε)
  | drop (d : δ)

structure State (ι C κ ν τ : Type*) where
  clock : τ
  cache : C
  threads : ι → Progress κ ν τ

/-- No thread has a question. -/
def State.initial (clock : τ) (cache : C) : State ι C κ ν τ := ⟨clock, cache, fun _ => .idle⟩

def State.goOn [DecidableEq ι] (s : State ι C κ ν τ) (i : ι) (p : Progress κ ν τ) :
    State ι C κ ν τ :=
  { s with threads := Function.update s.threads i p }

theorem State.threads_goOn_self [DecidableEq ι] (s : State ι C κ ν τ) (i : ι)
    (p : Progress κ ν τ) : (s.goOn i p).threads i = p := by
  simp [State.goOn]

theorem State.threads_goOn_of_ne [DecidableEq ι] (s : State ι C κ ν τ) {i j : ι} (h : j ≠ i)
    (p : Progress κ ν τ) : (s.goOn i p).threads j = s.threads j := by
  simp [State.goOn, h]

section Steps
variable [DecidableEq ι] [DecidableEq κ] [DecidableEq ν] [LE τ] [DecidableLE τ]

def step (M : AnswerCache C κ ν τ ε δ ω) (s : State ι C κ ν τ) :
    Act ι κ τ ε δ ω → Option (State ι C κ ν τ)
  | .start i key now =>
    match s.threads i with
    | .idle =>
      if s.clock ≤ now then some ({ s with clock := now }.goOn i (.finding key now)) else none
    | _ => none
  | .find i =>
    match s.threads i with
    | .finding key now =>
      some (s.goOn i (if M.find now key s.cache = M.unknown then .asking key else .idle))
    | _ => none
  | .learn i key world =>
    match s.threads i with
    | .asking key' =>
      if key' = key then
        (M.learn world key).map fun answer =>
          s.goOn i (if answer = M.unknown then .idle else .learned key answer)
      else none
    | _ => none
  | .stamp i key now =>
    match s.threads i with
    | .learned key' answer =>
      if key' = key ∧ s.clock ≤ now then
        some ({ s with clock := now }.goOn i (.keeping key answer now))
      else none
    | _ => none
  | .keep i e =>
    match s.threads i with
    | .keeping key answer now =>
      some ({ s with cache := M.keep e now key answer s.cache }.goOn i .idle)
    | _ => none
  | .drop d => some { s with cache := M.drop d s.cache }

/-- The answer that a step gives, with its question. -/
def answer (M : AnswerCache C κ ν τ ε δ ω) (s : State ι C κ ν τ) : Act ι κ τ ε δ ω → Option (κ × ν)
  | .find i =>
    match s.threads i with
    | .finding key now =>
      if M.find now key s.cache = M.unknown then none else some (key, M.find now key s.cache)
    | _ => none
  | .learn i key world =>
    match s.threads i with
    | .asking key' =>
      if key' = key ∧ M.learn world key = some M.unknown then some (key, M.unknown) else none
    | _ => none
  | .keep i _ =>
    match s.threads i with
    | .keeping key answer _ => some (key, answer)
    | _ => none
  | _ => none

end Steps

/-- What is held in a cache, with the stamp of its time. An answer of a stamp is found only while it
is fresh. -/
structure Holds (M : AnswerCache C κ ν τ ε δ ω) (held : C → κ → σ → ν → Prop) (cut : τ → σ)
    (fresh : σ → τ → Prop) : Prop where
  find : ∀ {now key c}, M.find now key c ≠ M.unknown →
    ∃ stamp, held c key stamp (M.find now key c) ∧ fresh stamp now
  keep : ∀ {e now key answer c key' stamp answer'},
    held (M.keep e now key answer c) key' stamp answer' →
      held c key' stamp answer' ∨ key' = key ∧ stamp = cut now ∧ answer' = answer
  drop : ∀ {d c key stamp answer}, held (M.drop d c) key stamp answer → held c key stamp answer

/-- A thread looked into a world that has the answer to a question. -/
def Learned (M : AnswerCache C κ ν τ ε δ ω) (history : List (Act ι κ τ ε δ ω)) (i : ι) (key : κ)
    (answer : ν) : Prop :=
  ∃ world, M.learn world key = some answer ∧ .learn i key world ∈ history

/-- A thread looked into a world that has the answer, and read the clock afterwards. -/
def FoundOut (M : AnswerCache C κ ν τ ε δ ω) (history : List (Act ι κ τ ε δ ω)) (i : ι) (key : κ)
    (answer : ν) (time : τ) : Prop :=
  ∃ world, M.learn world key = some answer ∧
    [.learn i key world, .stamp i key time].Sublist history

/-- What is in the cache and what threads know comes from the history. -/
structure Sourced (M : AnswerCache C κ ν τ ε δ ω) (held : C → κ → σ → ν → Prop) (cut : τ → σ)
    (history : List (Act ι κ τ ε δ ω)) (s : State ι C κ ν τ) : Prop where
  cache : ∀ {key stamp answer}, held s.cache key stamp answer →
    ∃ i time, stamp = cut time ∧ FoundOut M history i key answer time
  learned : ∀ {i key answer}, s.threads i = .learned key answer → Learned M history i key answer
  keeping : ∀ {i key answer now}, s.threads i = .keeping key answer now →
    FoundOut M history i key answer now

section Run
variable {M : AnswerCache C κ ν τ ε δ ω} {held : C → κ → σ → ν → Prop} {cut : τ → σ}
  {fresh : σ → τ → Prop} {history : List (Act ι κ τ ε δ ω)} {s t : State ι C κ ν τ} {i : ι}
  {key : κ} {answer : ν} {time : τ}

theorem Learned.append (h : Learned M history i key answer) (act : Act ι κ τ ε δ ω) :
    Learned M (history ++ [act]) i key answer := by
  obtain ⟨world, hlearn, hmem⟩ := h
  exact ⟨world, hlearn, List.mem_append_left _ hmem⟩

theorem FoundOut.append (h : FoundOut M history i key answer time) (act : Act ι κ τ ε δ ω) :
    FoundOut M (history ++ [act]) i key answer time := by
  obtain ⟨world, hlearn, hsub⟩ := h
  exact ⟨world, hlearn, hsub.trans (List.sublist_append_left _ _)⟩

theorem FoundOut.learned (h : FoundOut M history i key answer time) :
    Learned M history i key answer := by
  obtain ⟨world, hlearn, hsub⟩ := h
  exact ⟨world, hlearn, hsub.subset List.mem_cons_self⟩

theorem Learned.stamp (h : Learned M history i key answer) (now : τ) :
    FoundOut M (history ++ [.stamp i key now]) i key answer now := by
  obtain ⟨world, hlearn, hmem⟩ := h
  exact ⟨world, hlearn, (List.singleton_sublist.mpr hmem).append_right [.stamp i key now]⟩

theorem Sourced.append (h : Sourced M held cut history s) (act : Act ι κ τ ε δ ω) :
    Sourced M held cut (history ++ [act]) s where
  cache hheld := by
    obtain ⟨i, time, hstamp, hfound⟩ := h.cache hheld
    exact ⟨i, time, hstamp, hfound.append act⟩
  learned hi := (h.learned hi).append act
  keeping hi := (h.keeping hi).append act

/-- A thread goes on, and knows no more than the history tells. -/
theorem Sourced.goOn [DecidableEq ι] (h : Sourced M held cut history s) {p : Progress κ ν τ}
    (hlearned : ∀ {key answer}, p = .learned key answer → Learned M history i key answer)
    (hkeeping : ∀ {key answer now}, p = .keeping key answer now →
      FoundOut M history i key answer now) (clock : τ) :
    Sourced M held cut history ({ s with clock := clock }.goOn i p) where
  cache hheld := h.cache hheld
  learned {j key answer} hj := by
    by_cases hji : j = i
    · subst hji
      rw [State.threads_goOn_self] at hj
      exact hlearned hj
    · rw [State.threads_goOn_of_ne _ hji] at hj
      exact h.learned hj
  keeping {j key answer now} hj := by
    by_cases hji : j = i
    · subst hji
      rw [State.threads_goOn_self] at hj
      exact hkeeping hj
    · rw [State.threads_goOn_of_ne _ hji] at hj
      exact h.keeping hj

theorem Sourced.withCache (h : Sourced M held cut history s) {c : C}
    (hheld : ∀ {key stamp answer}, held c key stamp answer →
      held s.cache key stamp answer ∨
        ∃ i time, stamp = cut time ∧ FoundOut M history i key answer time) :
    Sourced M held cut history { s with cache := c } where
  cache hc := by
    rcases hheld hc with hold | hnew
    · exact h.cache hold
    · exact hnew
  learned hj := h.learned hj
  keeping hj := h.keeping hj

variable [DecidableEq ι] [DecidableEq κ] [DecidableEq ν] [LE τ] [DecidableLE τ]

theorem Sourced.step (hM : M.Holds held cut fresh) (h : Sourced M held cut history s)
    {act : Act ι κ τ ε δ ω} (hstep : M.step s act = some t) :
    Sourced M held cut (history ++ [act]) t := by
  have hmore := h.append act
  cases act with
  | start i key now =>
    simp only [AnswerCache.step] at hstep
    split at hstep
    · next hthread =>
      obtain ⟨-, rfl⟩ := Option.ite_none_right_eq_some.mp hstep |>.imp_right Option.some.inj
      exact hmore.goOn (fun hp => by cases hp) (fun hp => by cases hp) now
    · cases hstep
  | find i =>
    simp only [AnswerCache.step] at hstep
    split at hstep
    · next key now hthread =>
      obtain rfl := Option.some.inj hstep
      refine hmore.goOn (fun hp => ?_) (fun hp => ?_) s.clock
      · split_ifs at hp
      · split_ifs at hp
    · cases hstep
  | learn i key world =>
    simp only [AnswerCache.step] at hstep
    split at hstep
    · next key' hthread =>
      obtain ⟨-, hmap⟩ := Option.ite_none_right_eq_some.mp hstep
      obtain ⟨answer, hlearn, rfl⟩ := Option.map_eq_some_iff.mp hmap
      refine hmore.goOn (fun hp => ?_) (fun hp => ?_) s.clock
      · split_ifs at hp
        obtain ⟨rfl, rfl⟩ := Progress.learned.inj hp
        exact ⟨world, hlearn, List.mem_append_right _ (List.mem_singleton_self _)⟩
      · split_ifs at hp
    · cases hstep
  | stamp i key now =>
    simp only [AnswerCache.step] at hstep
    split at hstep
    · next key' answer hthread =>
      obtain ⟨⟨rfl, -⟩, rfl⟩ :=
        Option.ite_none_right_eq_some.mp hstep |>.imp_right Option.some.inj
      refine hmore.goOn (fun hp => by cases hp) (fun hp => ?_) now
      obtain ⟨rfl, rfl, rfl⟩ := Progress.keeping.inj hp
      exact (h.learned hthread).stamp now
    · cases hstep
  | keep i e =>
    simp only [AnswerCache.step] at hstep
    split at hstep
    · next key answer now hthread =>
      obtain rfl := Option.some.inj hstep
      have hcache : Sourced M held cut (history ++ [.keep i e])
          { s with cache := M.keep e now key answer s.cache } := by
        refine hmore.withCache fun hheld => (hM.keep hheld).imp_right fun hnew => ?_
        obtain ⟨rfl, rfl, rfl⟩ := hnew
        exact ⟨i, now, rfl, hmore.keeping hthread⟩
      exact hcache.goOn (fun hp => by cases hp) (fun hp => by cases hp) s.clock
    · cases hstep
  | drop d =>
    obtain rfl := Option.some.inj hstep
    exact hmore.withCache fun hheld => .inl (hM.drop hheld)

/-- In every run from a cache that holds nothing, what is known comes from the run. -/
theorem sourced_of_run (hM : M.Holds held cut fresh) {clock : τ} {c : C}
    (hempty : ∀ key stamp answer, ¬ held c key stamp answer) {acts : List (Act ι κ τ ε δ ω)}
    (hrun : run M.step (State.initial clock c) acts = some s) : Sourced M held cut acts s := by
  induction acts using List.reverseRecOn generalizing s with
  | nil =>
    obtain rfl := Option.some.inj hrun
    exact {
      cache := fun hheld => absurd hheld (hempty _ _ _)
      learned := fun hj => by cases hj
      keeping := fun hj => by cases hj }
  | append_singleton acts act ih =>
    rw [run_append] at hrun
    obtain ⟨u, hu, hlast⟩ := Option.bind_eq_some_iff.mp hrun
    obtain ⟨t, hstep, hnil⟩ := run_cons_eq_some.mp hlast
    obtain rfl := Option.some.inj hnil
    exact (ih hu).step hM hstep

/-- Whatever the threads and the one that drops entries do in between, an answer was found out by
the thread itself, or by a thread that read the clock afterwards, at a time that is fresh for the
time that was read at the start of the question. -/
theorem answer_source (hM : M.Holds held cut fresh) {clock : τ} {c : C}
    (hempty : ∀ key stamp answer, ¬ held c key stamp answer) {acts : List (Act ι κ τ ε δ ω)}
    (hrun : run M.step (State.initial clock c) acts = some s) {act : Act ι κ τ ε δ ω}
    (hanswer : M.answer s act = some (key, answer)) (hne : answer ≠ M.unknown) :
    (∃ i e, act = .keep i e ∧ Learned M acts i key answer) ∨
      ∃ i now j time, act = .find i ∧ s.threads i = .finding key now ∧
        FoundOut M acts j key answer time ∧ fresh (cut time) now := by
  have hsourced := sourced_of_run hM hempty hrun
  cases act with
  | start i key' now => cases hanswer
  | find i =>
    simp only [AnswerCache.answer] at hanswer
    split at hanswer
    · next key' now hthread =>
      obtain ⟨hfound, heq⟩ := Option.ite_none_left_eq_some.mp hanswer
      obtain ⟨rfl, rfl⟩ := Prod.mk.inj (Option.some.inj heq)
      obtain ⟨stamp, hheld, hfresh⟩ := hM.find hfound
      obtain ⟨j, time, rfl, hsource⟩ := hsourced.cache hheld
      exact .inr ⟨i, now, j, time, rfl, hthread, hsource, hfresh⟩
    · cases hanswer
  | learn i key' world =>
    simp only [AnswerCache.answer] at hanswer
    split at hanswer
    · obtain ⟨-, heq⟩ := Option.ite_none_right_eq_some.mp hanswer
      obtain ⟨rfl, rfl⟩ := Prod.mk.inj (Option.some.inj heq)
      exact absurd rfl hne
    · cases hanswer
  | stamp i key' now => cases hanswer
  | keep i e =>
    simp only [AnswerCache.answer] at hanswer
    split at hanswer
    · next key' answer' now hthread =>
      obtain ⟨rfl, rfl⟩ := Prod.mk.inj (Option.some.inj hanswer)
      exact .inl ⟨i, e, rfl, (hsourced.keeping hthread).learned⟩
    · cases hanswer
  | drop d => cases hanswer

end Run

end AnswerCache

end ProxyTun.Library
