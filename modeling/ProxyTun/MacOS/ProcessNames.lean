import Mathlib.Data.List.AList
import Mathlib.Order.CompleteBooleanAlgebra
import Mathlib.Order.CompletePartialOrder
import ProxyTun.Library.AnswerCache
import ProxyTun.MacOS.RuleMatching

/-!
# The names of processes

The extension asks the system for the path of a process and keeps its last component by the number
of the process. Flows share the names that are kept. When there are too many, all of them are
dropped.
-/
namespace ProxyTun.MacOS
open Library Transition

def auditTokenSize : ℕ := 32

/-- The word of the token that holds the number of the process, by its lowest byte first. -/
def auditTokenWord (token : List Byte) (i : ℕ) : ℕ :=
  ((token.drop (4 * i)).take 4).foldr (fun b n => 256 * n + b.toNat) 0

/-- The number of the process that a token is from. `pid_t` stops the extension on a word that does
not fit, which is `none` outside. -/
def tokenPid (token : Option (List Byte)) : Option (Option ℕ) :=
  match token with
  | none => some none
  | some token =>
    if token.length ≠ auditTokenSize then some none
    else if 2 ^ 31 ≤ auditTokenWord token 5 then none
    else if 0 < auditTokenWord token 5 then some (some (auditTokenWord token 5)) else some none

/-- `pidCacheMaxSize`. -/
def pidCacheMaxSize : ℕ := 256

/-- `pidCache`. -/
abbrev NameCache := AList fun _ : ℕ => CStr

namespace NameCache

/-- The part of `getProcessName` under the second lock. -/
def store (pid : ℕ) (name : CStr) (cache : NameCache) : NameCache :=
  (if pidCacheMaxSize ≤ cache.entries.length then ∅ else cache).insert pid name

theorem lookup_store (pid : ℕ) (name : CStr) (cache : NameCache) {pid' : ℕ} {name' : CStr}
    (h : (cache.store pid name).lookup pid' = some name') :
    cache.lookup pid' = some name' ∨ pid' = pid ∧ name' = name := by
  unfold store at h
  by_cases hpid : pid' = pid
  · subst hpid
    rw [AList.lookup_insert] at h
    exact .inr ⟨rfl, (Option.some.inj h).symm⟩
  · rw [AList.lookup_insert_ne hpid] at h
    split_ifs at h
    · rw [AList.lookup_empty] at h
      cases h
    · exact .inl h

theorem length_store_le (pid : ℕ) (name : CStr) (cache : NameCache) :
    (cache.store pid name).entries.length ≤ pidCacheMaxSize := by
  have hinsert : ∀ c : NameCache, (c.insert pid name).entries.length ≤ c.entries.length + 1 := by
    intro c
    rw [AList.entries_insert, List.length_cons]
    exact Nat.succ_le_succ (List.kerase_sublist pid c.entries).length_le
  unfold store
  split_ifs with hfull
  · exact (hinsert ∅).trans (by decide)
  · exact (hinsert cache).trans (by omega)

end NameCache

/-- The paths of the processes at a moment, as `proc_pidpath` gives them. -/
abbrev ProcessPaths := ℕ → Option CStr

def getProcessName (paths : ProcessPaths) (token : Option (List Byte)) (cache : NameCache) :
    Option (Option CStr × NameCache) := do
  let some pid ← tokenPid token | some (none, cache)
  match cache.lookup pid with
  | some cached => some (some cached, cache)
  | none =>
    match paths pid with
    | none => some (none, cache)
    | some fullPath =>
      let processName := lastPathComponent fullPath
      some (some processName, cache.store pid processName)

/-- `getProcessName`, once the number is known, with its two sections under the lock. -/
def processNames : AnswerCache NameCache ℕ (Option CStr) Unit Unit Empty ProcessPaths where
  unknown := none
  find _ pid cache := cache.lookup pid
  keep _ _ pid name cache := name.elim cache fun name => cache.store pid name
  drop d _ := d.elim
  learn paths pid := some ((paths pid).map lastPathComponent)

def HasName (cache : NameCache) (pid : ℕ) (_ : Unit) (name : Option CStr) : Prop :=
  name ≠ none ∧ cache.lookup pid = name

theorem processNames_holds : processNames.Holds HasName id fun _ _ => True where
  find hfound := ⟨(), ⟨hfound, rfl⟩, trivial⟩
  keep {e now pid name cache pid' stamp name'} hheld := by
    cases name with
    | none => exact .inl hheld
    | some name =>
      obtain ⟨hsome, hlookup⟩ := hheld
      obtain ⟨found, rfl⟩ := Option.ne_none_iff_exists'.mp hsome
      rcases cache.lookup_store pid name hlookup with hold | ⟨rfl, rfl⟩
      · exact .inl ⟨hsome, hold⟩
      · exact .inr ⟨rfl, rfl, rfl⟩
  drop {d} := d.elim

variable {ι : Type*} [DecidableEq ι]

/-- A flow that nothing comes between does what `getProcessName` does: it finds a name, or asks the
system and keeps what it tells. -/
theorem getProcessName_run (i : ι) (paths : ProcessPaths) {token : Option (List Byte)} {pid : ℕ}
    (hpid : tokenPid token = some (some pid)) (cache : NameCache) :
    ∃ name cache', getProcessName paths token cache = some (name, cache') ∧
      ∃ (acts : List (AnswerCache.Act ι ℕ Unit Unit Empty ProcessPaths)) (act : _) (s : _),
        run processNames.step (.initial () cache) acts = some s ∧
        processNames.answer s act = some (pid, name) ∧
        (processNames.step s act).map (fun t => t.cache) = some cache' := by
  unfold getProcessName
  rw [hpid]
  cases hlookup : cache.lookup pid with
  | some cached =>
    refine ⟨some cached, cache, by simp [hlookup], [.start i pid ()], .find i,
      (AnswerCache.State.initial () cache).goOn i (.finding pid ()), rfl, ?_, ?_⟩
    · simp [AnswerCache.answer, AnswerCache.State.goOn, processNames, AnswerCache.State.initial,
        hlookup]
    · simp [AnswerCache.step, AnswerCache.State.goOn, AnswerCache.State.initial]
  | none =>
    have hfind : run processNames.step (.initial () cache)
        [.start i pid (), AnswerCache.Act.find i] =
          some ((AnswerCache.State.initial () cache).goOn i (.asking pid)) := by
      simp [run, AnswerCache.step, AnswerCache.State.initial, AnswerCache.State.goOn, processNames,
        hlookup]
    cases hpath : paths pid with
    | none =>
      refine ⟨none, cache, by simp [hlookup, hpath], _, .learn i pid paths, _, hfind, ?_, ?_⟩
      · simp [AnswerCache.answer, AnswerCache.State.goOn, processNames, hpath]
      · simp [AnswerCache.step, AnswerCache.State.goOn, AnswerCache.State.initial, processNames,
          hpath]
    | some fullPath =>
      refine ⟨some (lastPathComponent fullPath), cache.store pid (lastPathComponent fullPath),
        by simp [hlookup, hpath],
        [.start i pid (), .find i] ++ [.learn i pid paths, .stamp i pid ()], .keep i (),
        (AnswerCache.State.initial () cache).goOn i
          (.keeping pid (some (lastPathComponent fullPath)) ()), ?_, ?_, ?_⟩
      · rw [run_append, hfind]
        simp [run, AnswerCache.step, AnswerCache.State.initial, AnswerCache.State.goOn,
          processNames, hpath]
      · simp [AnswerCache.answer, AnswerCache.State.goOn]
      · simp [AnswerCache.step, AnswerCache.State.goOn, AnswerCache.State.initial, processNames]

theorem length_cache_le {acts : List (AnswerCache.Act ι ℕ Unit Unit Empty ProcessPaths)}
    {s : AnswerCache.State ι NameCache ℕ (Option CStr) Unit}
    (hrun : run processNames.step (.initial () ∅) acts = some s) :
    s.cache.entries.length ≤ pidCacheMaxSize := by
  refine run_invariant (I := fun s => s.cache.entries.length ≤ pidCacheMaxSize) ?_ hrun
    (Nat.zero_le _)
  intro s act t hs hstep
  cases act with
  | start i pid now =>
    simp only [AnswerCache.step] at hstep
    split at hstep
    · obtain ⟨-, rfl⟩ := Option.ite_none_right_eq_some.mp hstep |>.imp_right Option.some.inj
      exact hs
    · cases hstep
  | find i =>
    simp only [AnswerCache.step] at hstep
    split at hstep
    · obtain rfl := Option.some.inj hstep
      exact hs
    · cases hstep
  | learn i pid paths =>
    simp only [AnswerCache.step] at hstep
    split at hstep
    · obtain ⟨-, hmap⟩ := Option.ite_none_right_eq_some.mp hstep
      obtain ⟨name, -, rfl⟩ := Option.map_eq_some_iff.mp hmap
      exact hs
    · cases hstep
  | stamp i pid now =>
    simp only [AnswerCache.step] at hstep
    split at hstep
    · obtain ⟨-, rfl⟩ := Option.ite_none_right_eq_some.mp hstep |>.imp_right Option.some.inj
      exact hs
    · cases hstep
  | keep i e =>
    simp only [AnswerCache.step] at hstep
    split at hstep
    · next pid name now _ =>
      obtain rfl := Option.some.inj hstep
      cases name with
      | none => exact hs
      | some name => exact s.cache.length_store_le pid name
    · cases hstep
  | drop d => exact d.elim

/-- Whatever the flows do, at most 256 names are kept, and the name that is given to a process is
the last component of a path that the system has told for its number in the same run. -/
theorem name_of_answer {acts : List (AnswerCache.Act ι ℕ Unit Unit Empty ProcessPaths)}
    {s : AnswerCache.State ι NameCache ℕ (Option CStr) Unit}
    (hrun : run processNames.step (.initial () ∅) acts = some s) :
    s.cache.entries.length ≤ pidCacheMaxSize ∧
      ∀ act pid name, processNames.answer s act = some (pid, some name) →
        ∃ i paths path, .learn i pid paths ∈ acts ∧ paths pid = some path ∧
          name = lastPathComponent path := by
  refine ⟨length_cache_le hrun, fun act pid name hanswer => ?_⟩
  have hempty : ∀ pid stamp name, ¬ HasName ∅ pid stamp name := by
    rintro pid - name ⟨hsome, hlookup⟩
    exact hsome (hlookup.symm.trans (AList.lookup_empty pid))
  have hpath : ∀ (i : ι) (paths : ProcessPaths), processNames.learn paths pid = some (some name) →
      .learn i pid paths ∈ acts → ∃ i paths path, .learn i pid paths ∈ acts ∧
        paths pid = some path ∧ name = lastPathComponent path := by
    intro i paths hlearn hmem
    obtain ⟨path, hsome, hname⟩ := Option.map_eq_some_iff.mp (Option.some.inj hlearn)
    exact ⟨i, paths, path, hmem, hsome, hname.symm⟩
  rcases AnswerCache.answer_source processNames_holds hempty hrun hanswer (by simp [processNames])
    with ⟨i, e, -, paths, hlearn, hmem⟩ | ⟨_, _, j, _, _, _, hfound, _⟩
  · exact hpath i paths hlearn hmem
  · obtain ⟨paths, hlearn, hmem⟩ := hfound.learned
    exact hpath j paths hlearn hmem

/-- The path of the process 7, which is another one later. -/
def curlPaths : ProcessPaths := fun pid => if pid = 7 then some "/usr/bin/curl".toList else none

/-- A flow finds out a name, and the next flow of a process with this number gets it too. -/
theorem name_of_second_flow :
    ∃ (i : Bool) (paths : ProcessPaths) (path : CStr),
      .learn i 7 paths ∈ ([.start false 7 (), .find false, .learn false 7 curlPaths,
        .stamp false 7 (), .keep false (), .start true 7 ()] :
          List (AnswerCache.Act Bool ℕ Unit Unit Empty ProcessPaths)) ∧
      paths 7 = some path ∧ "curl".toList = lastPathComponent path := by
  obtain ⟨s, hrun, hanswer⟩ := Option.bind_eq_some_iff.mp (show
    (run processNames.step (.initial () ∅)
      ([.start false 7 (), .find false, .learn false 7 curlPaths, .stamp false 7 (),
        .keep false (), .start true 7 ()] :
        List (AnswerCache.Act Bool ℕ Unit Unit Empty ProcessPaths))).bind
      (fun s => processNames.answer s (.find true)) = some (7, some "curl".toList) by
        decide +kernel)
  exact (name_of_answer hrun).2 _ _ _ hanswer

end ProxyTun.MacOS
