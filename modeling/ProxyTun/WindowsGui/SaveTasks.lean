import ProxyTun.WindowsGui.ProxyRules

/-!
# Saving the configuration

Every change of the configuration starts a task. The task takes a snapshot, writes it into the
temporary file that all tasks share, and moves that file over `config.json`. A task that finds the
temporary file in use or missing gives up.
-/
namespace ProxyTun.WindowsGui
open Library.Transition

/-- The contents of `config.json`. -/
structure AppConfig where
  proxyType : CStr
  proxyIp : CStr
  proxyPort : CStr
  proxyUsername : CStr
  proxyPassword : CStr
  dnsViaProxy : Bool
  localhostViaProxy : Bool
  isTrafficLoggingEnabled : Bool
  language : CStr
  closeToTray : Bool
  proxyRules : List ProxyRuleConfig
  deriving DecidableEq, Repr

/-- The defaults, which are those of the window as well. -/
def AppConfig.standard : AppConfig where
  proxyType := "SOCKS5".toList
  proxyIp := []
  proxyPort := []
  proxyUsername := []
  proxyPassword := []
  dnsViaProxy := true
  localhostViaProxy := false
  isTrafficLoggingEnabled := true
  language := "en".toList
  closeToTray := true
  proxyRules := []

/-- The temporary file. It cannot be opened, moved or deleted as long as a task has it open. -/
inductive TempFile (α : Type*) where
  | absent
  | opened
  | closed (config : α)
  deriving DecidableEq, Repr

/-- How far a task of `SaveConfigurationInternal` is. -/
inductive SavePhase (α : Type*) where
  | waiting
  /-- The snapshot is taken. -/
  | taken (config : α)
  /-- `File.WriteAllText` has the temporary file open. -/
  | writing (config : α)
  /-- `File.WriteAllText` is through. -/
  | written (config : α)
  /-- An exception is caught. -/
  | failing
  | ended
  deriving DecidableEq, Repr

/-- The current configuration, its files and its tasks. -/
structure Saves (α : Type*) where
  current : α
  file : Option α
  temp : TempFile α
  tasks : List (SavePhase α)
  deriving DecidableEq, Repr

inductive SaveLabel (α : Type*) where
  | change (config : α)
  /-- The next step of a task. -/
  | task (i : ℕ)
  deriving DecidableEq, Repr

/-- The task has the temporary file open, or is about to move or to delete it. -/
def SavePhase.usesTemp {α : Type*} : SavePhase α → Bool
  | .writing _ | .written _ | .failing => true
  | _ => false

namespace Saves

variable {α : Type*}

/-- Nothing is saved yet. -/
def start (current : α) (file : Option α) : Saves α := ⟨current, file, .absent, []⟩

/-- The next step of a task, with what it leaves of the temporary file and of `config.json`. -/
def advance (s : Saves α) : SavePhase α → Option (SavePhase α × TempFile α × Option α)
  | .waiting => some (.taken s.current, s.temp, s.file)
  | .taken config =>
    match s.temp with
    | .opened => some (.failing, s.temp, s.file)
    | _ => some (.writing config, .opened, s.file)
  | .writing config => some (.written config, .closed config, s.file)
  | .written _ =>
    match s.temp with
    | .closed config => some (.ended, .absent, some config)
    | _ => some (.failing, s.temp, s.file)
  | .failing =>
    match s.temp with
    | .opened => some (.ended, .opened, s.file)
    | _ => some (.ended, .absent, s.file)
  | .ended => none

def assign (config : α) (s : Saves α) : Saves α := { s with current := config }

/-- A change, which starts a task. -/
def change (config : α) (s : Saves α) : Saves α :=
  { s with current := config, tasks := s.tasks ++ [.waiting] }

def task (i : ℕ) (s : Saves α) : Option (Saves α) :=
  (s.tasks[i]?).bind fun phase => (s.advance phase).map fun next =>
    { s with temp := next.2.1, file := next.2.2, tasks := s.tasks.set i next.1 }

def step (s : Saves α) : SaveLabel α → Option (Saves α)
  | .change config => some (s.change config)
  | .task i => s.task i

/-- Once all tasks have ended, the file has the configuration of the last change. -/
def Saved (s : Saves α) : Prop :=
  s.tasks ≠ [] → (∀ phase ∈ s.tasks, phase = .ended) → s.file = some s.current

/-- The current configuration is still to be written: a task has not taken its snapshot yet, or has
it and has not opened the temporary file. -/
def Pending (s : Saves α) : Prop := .waiting ∈ s.tasks ∨ .taken s.current ∈ s.tasks

/-- A task opens the temporary file only while no other task uses it, and only while the current
configuration is still to be written, by itself or by another task. -/
def InTurn (s : Saves α) : SaveLabel α → Prop
  | .change _ => True
  | .task i => match s.tasks[i]? with
    | some (.taken _) => (∀ phase ∈ s.tasks, phase.usesTemp = false) ∧ s.Pending
    | _ => True

instance [DecidableEq α] (s : Saves α) : Decidable s.Pending :=
  inferInstanceAs (Decidable (_ ∨ _))

instance [DecidableEq α] (s : Saves α) : ∀ label, Decidable (s.InTurn label)
  | .change _ => .isTrue trivial
  | .task i => by
    unfold InTurn
    dsimp only
    split <;> infer_instance

/-- The temporary file of a task that uses it. -/
def expected : SavePhase α → Option (TempFile α × α)
  | .writing config => some (.opened, config)
  | .written config => some (.closed config, config)
  | _ => none

theorem usesTemp_of_expected {phase : SavePhase α} {found : TempFile α × α}
    (h : expected phase = some found) : phase.usesTemp = true := by
  cases phase with
  | writing _ => rfl
  | written _ => rfl
  | _ => cases h

/-- At most one task uses the temporary file, and if what it writes is not the current
configuration, that one is still to be written. -/
inductive Orderly (s : Saves α) : Prop where
  | free (hidle : ∀ phase ∈ s.tasks, phase.usesTemp = false) (htemp : s.temp = .absent)
      (hsaved : s.tasks = [] ∨ s.Pending ∨ s.file = some s.current)
  | used (i : ℕ) (phase : SavePhase α) (config : α) (hphase : s.tasks[i]? = some phase)
      (hidle : ∀ (j : ℕ) phase, j ≠ i → s.tasks[j]? = some phase → phase.usesTemp = false)
      (hexpected : expected phase = some (s.temp, config))
      (hsaved : s.Pending ∨ config = s.current)

variable {s t : Saves α}

theorem orderly_start (current : α) (file : Option α) : (start current file).Orderly :=
  .free (fun phase h => by simp [start] at h) rfl (.inl rfl)

theorem Orderly.saved (h : s.Orderly) : s.Saved := by
  intro hne hended
  cases h with
  | free hidle htemp hsaved =>
    rcases hsaved with hnil | (hwaiting | htaken) | hsaved
    · exact absurd hnil hne
    · cases hended _ hwaiting
    · cases hended _ htaken
    · exact hsaved
  | used i phase config hphase hidle hexpected hsaved =>
    obtain rfl := hended _ (List.mem_of_getElem? hphase)
    cases hexpected

theorem task_eq_some {i : ℕ} (h : s.task i = some t) :
    ∃ phase next, s.tasks[i]? = some phase ∧ s.advance phase = some next ∧
      t = { s with temp := next.2.1, file := next.2.2, tasks := s.tasks.set i next.1 } := by
  obtain ⟨phase, hphase, hmap⟩ := Option.bind_eq_some_iff.mp h
  obtain ⟨next, hnext, rfl⟩ := Option.map_eq_some_iff.mp hmap
  exact ⟨phase, next, hphase, hnext, rfl⟩

/-- A task that has begun to write, or has ended, is not needed for the current configuration. -/
theorem Pending.set (h : s.Pending) {i : ℕ} {phase next : SavePhase α}
    (hphase : s.tasks[i]? = some phase) (hwaiting : phase ≠ .waiting)
    (htaken : phase ≠ .taken s.current) (temp : TempFile α) (file : Option α) :
    Pending { s with temp := temp, file := file, tasks := s.tasks.set i next } := by
  have hstays {needed : SavePhase α} (hne : phase ≠ needed) (hmem : needed ∈ s.tasks) :
      needed ∈ s.tasks.set i next := by
    obtain ⟨j, hj⟩ := List.mem_iff_getElem?.mp hmem
    have hji : i ≠ j := by
      rintro rfl
      exact hne (Option.some.inj (hphase.symm.trans hj))
    exact List.mem_of_getElem? ((List.getElem?_set_ne hji).trans hj)
  exact h.imp (hstays hwaiting) (hstays htaken)

theorem Orderly.change (h : s.Orderly) (config : α) : (s.change config).Orderly := by
  have hnew : (s.change config).Pending := .inl (by simp [Saves.change])
  cases h with
  | free hidle htemp hsaved =>
    refine .free (fun phase hphase => ?_) htemp (.inr (.inl hnew))
    rcases List.mem_append.mp hphase with hphase | hphase
    · exact hidle phase hphase
    · rw [List.mem_singleton.mp hphase]
      rfl
  | used i phase snapshot hphase hidle hexpected hsaved =>
    obtain ⟨hi, -⟩ := List.getElem?_eq_some_iff.mp hphase
    refine .used i phase snapshot ((List.getElem?_append_left hi).trans hphase)
      (fun j other hne hother => ?_) hexpected (.inl hnew)
    rcases List.mem_append.mp (List.mem_of_getElem? hother) with hmem | hmem
    · rcases lt_or_ge j s.tasks.length with hj | hj
      · exact hidle j other hne ((List.getElem?_append_left hj).symm.trans hother)
      · rw [Saves.change, List.getElem?_append_right hj] at hother
        rw [List.mem_singleton.mp (List.mem_of_getElem? hother)]
        rfl
    · rw [List.mem_singleton.mp hmem]
      rfl

theorem idle_set {i : ℕ} {next : SavePhase α} (hnext : next.usesTemp = false)
    (hidle : ∀ (j : ℕ) phase, j ≠ i → s.tasks[j]? = some phase → phase.usesTemp = false) :
    ∀ phase ∈ s.tasks.set i next, phase.usesTemp = false := by
  intro phase hmem
  obtain ⟨j, hj⟩ := List.mem_iff_getElem?.mp hmem
  by_cases hij : j = i
  · subst hij
    obtain ⟨hlength, hat⟩ := List.getElem?_eq_some_iff.mp hj
    rw [← hat, List.getElem_set_self]
    exact hnext
  · rw [List.getElem?_set_ne (Ne.symm hij)] at hj
    exact hidle j phase hij hj

/-- No task uses the temporary file, and one takes its snapshot or opens the file. -/
theorem Orderly.free_task {i : ℕ} {phase : SavePhase α}
    {next : SavePhase α × TempFile α × Option α} (hphase : s.tasks[i]? = some phase)
    (hnext : s.advance phase = some next) (hturn : s.InTurn (.task i))
    (hidle : ∀ phase ∈ s.tasks, phase.usesTemp = false) (htemp : s.temp = .absent) :
    Orderly { s with temp := next.2.1, file := next.2.2, tasks := s.tasks.set i next.1 } := by
  obtain ⟨hi, -⟩ := List.getElem?_eq_some_iff.mp hphase
  have hothers : ∀ (j : ℕ) phase, j ≠ i → s.tasks[j]? = some phase → phase.usesTemp = false :=
    fun j phase _ hj => hidle phase (List.mem_of_getElem? hj)
  cases phase with
  | waiting =>
    obtain rfl := Option.some.inj hnext
    exact .free (idle_set rfl hothers) htemp (.inr (.inl (.inr (List.mem_set hi _))))
  | taken config =>
    rw [InTurn, hphase] at hturn
    rw [advance, htemp] at hnext
    obtain rfl := Option.some.inj hnext
    refine .used i (.writing config) config (List.getElem?_set_self hi)
      (fun j other hj hother => ?_) rfl ?_
    · rw [List.getElem?_set_ne (Ne.symm hj)] at hother
      exact hothers j other hj hother
    · by_cases hcurrent : config = s.current
      · exact .inr hcurrent
      · exact .inl (hturn.2.set hphase (by simp) (by simpa using hcurrent) _ _)
  | ended => cases hnext
  | _ => cases hidle _ (List.mem_of_getElem? hphase)

/-- The task that uses the temporary file goes on. -/
theorem Orderly.used_task {i : ℕ} {phase : SavePhase α} {config : α}
    {next : SavePhase α × TempFile α × Option α} (hphase : s.tasks[i]? = some phase)
    (hnext : s.advance phase = some next)
    (hidle : ∀ (j : ℕ) phase, j ≠ i → s.tasks[j]? = some phase → phase.usesTemp = false)
    (hexpected : expected phase = some (s.temp, config)) (hsaved : s.Pending ∨ config = s.current) :
    Orderly { s with temp := next.2.1, file := next.2.2, tasks := s.tasks.set i next.1 } := by
  obtain ⟨hi, -⟩ := List.getElem?_eq_some_iff.mp hphase
  cases phase with
  | writing snapshot =>
    obtain ⟨-, rfl⟩ := Prod.mk.inj (Option.some.inj hexpected)
    obtain rfl := Option.some.inj hnext
    refine .used i (.written snapshot) snapshot (List.getElem?_set_self hi)
      (fun j other hj hother => ?_) rfl ?_
    · rw [List.getElem?_set_ne (Ne.symm hj)] at hother
      exact hidle j other hj hother
    · exact hsaved.imp_left fun hpending => hpending.set hphase (by simp) (by simp) _ _
  | written snapshot =>
    obtain ⟨htemp, rfl⟩ := Prod.mk.inj (Option.some.inj hexpected)
    rw [advance, ← htemp] at hnext
    obtain rfl := Option.some.inj hnext
    refine .free (idle_set rfl hidle) rfl (.inr ?_)
    rcases hsaved with hpending | rfl
    · exact .inl (hpending.set hphase (by simp) (by simp) _ _)
    · exact .inr rfl
  | _ => cases hexpected

theorem Orderly.task (h : s.Orderly) {i : ℕ} (hturn : s.InTurn (.task i))
    (hstep : s.task i = some t) : t.Orderly := by
  obtain ⟨phase, next, hphase, hnext, rfl⟩ := task_eq_some hstep
  cases h with
  | free hidle htemp hsaved => exact .free_task hphase hnext hturn hidle htemp
  | used k writer config hk hidle hexpected hsaved =>
    by_cases hik : i = k
    · subst hik
      obtain rfl := Option.some.inj (hphase.symm.trans hk)
      exact .used_task hphase hnext hidle hexpected hsaved
    · obtain ⟨hi, -⟩ := List.getElem?_eq_some_iff.mp hphase
      cases phase with
      | waiting =>
        obtain rfl := Option.some.inj hnext
        refine .used k writer config ((List.getElem?_set_ne hik).trans hk)
          (fun j other hj hother => ?_) hexpected (.inl (.inr (List.mem_set hi _)))
        by_cases hij : j = i
        · subst hij
          rw [List.getElem?_set_self hi] at hother
          obtain rfl := Option.some.inj hother
          rfl
        · rw [List.getElem?_set_ne (Ne.symm hij)] at hother
          exact hidle j other hj hother
      | taken snapshot =>
        rw [InTurn, hphase] at hturn
        have hfree := hturn.1 writer (List.mem_of_getElem? hk)
        rw [usesTemp_of_expected hexpected] at hfree
        cases hfree
      | ended => cases hnext
      | _ => cases hidle i _ hik hphase

/-- Once all tasks have ended the file has the configuration of the last change, if the tasks take
turns at the temporary file and nothing older is written when no task would write the current
configuration any more. -/
theorem saved_of_inTurn {current : α} {file : Option α} {labels : List (SaveLabel α)}
    (hrun : run step (start current file) labels = some t)
    (hturn : Guarded step InTurn (start current file) labels) : t.Saved := by
  have horderly : t.Orderly := by
    apply guarded_invariant _ hrun hturn (orderly_start current file)
    intro s label t hs hlabel hstep
    cases label with
    | change config =>
      obtain rfl := Option.some.inj hstep
      exact hs.change config
    | task i => exact hs.task hlabel hstep
  exact horderly.saved

/-- All configurations that a save can bring into the file have a property. -/
structure Holds (P : α → Prop) (s : Saves α) : Prop where
  current : P s.current
  file : ∃ config, s.file = some config ∧ P config
  temp : ∀ config, s.temp = .closed config → P config
  taken : ∀ config, .taken config ∈ s.tasks → P config
  writing : ∀ config, .writing config ∈ s.tasks → P config

theorem Holds.assign {P : α → Prop} (h : s.Holds P) {config : α} (hconfig : P config) :
    (s.assign config).Holds P :=
  ⟨hconfig, h.file, h.temp, h.taken, h.writing⟩

theorem Holds.change {P : α → Prop} (h : s.Holds P) {config : α} (hconfig : P config) :
    (s.change config).Holds P := by
  refine ⟨hconfig, h.file, h.temp, fun snapshot hmem => ?_, fun snapshot hmem => ?_⟩
  · rcases List.mem_append.mp hmem with hmem | hmem
    · exact h.taken snapshot hmem
    · cases List.mem_singleton.mp hmem
  · rcases List.mem_append.mp hmem with hmem | hmem
    · exact h.writing snapshot hmem
    · cases List.mem_singleton.mp hmem

theorem Holds.advance {P : α → Prop} (h : s.Holds P) {phase : SavePhase α}
    {next : SavePhase α × TempFile α × Option α} (hphase : phase ∈ s.tasks)
    (hnext : s.advance phase = some next) :
    (∃ config, next.2.2 = some config ∧ P config) ∧
      (∀ config, next.2.1 = .closed config → P config) ∧
      (∀ config, next.1 = .taken config → P config) ∧
      ∀ config, next.1 = .writing config → P config := by
  cases phase with
  | waiting =>
    obtain rfl := Option.some.inj hnext
    exact ⟨h.file, h.temp, by simpa using h.current, by simp⟩
  | taken snapshot =>
    have hsnapshot := h.taken snapshot hphase
    unfold Saves.advance at hnext
    dsimp only at hnext
    split at hnext <;> obtain rfl := Option.some.inj hnext
    · exact ⟨h.file, h.temp, by simp, by simp⟩
    · exact ⟨h.file, by simp, by simp, by simpa using hsnapshot⟩
  | writing snapshot =>
    have hsnapshot := h.writing snapshot hphase
    obtain rfl := Option.some.inj hnext
    exact ⟨h.file, by simpa using hsnapshot, by simp, by simp⟩
  | written snapshot =>
    unfold Saves.advance at hnext
    dsimp only at hnext
    split at hnext
    · rename_i config htemp
      obtain rfl := Option.some.inj hnext
      exact ⟨⟨config, rfl, h.temp config htemp⟩, by simp, by simp, by simp⟩
    · obtain rfl := Option.some.inj hnext
      exact ⟨h.file, h.temp, by simp, by simp⟩
  | failing =>
    unfold Saves.advance at hnext
    dsimp only at hnext
    split at hnext <;> obtain rfl := Option.some.inj hnext <;>
      exact ⟨h.file, by simp, by simp, by simp⟩
  | ended => cases hnext

theorem Holds.task {P : α → Prop} (h : s.Holds P) {i : ℕ} (hstep : s.task i = some t) :
    t.Holds P := by
  obtain ⟨phase, next, hphase, hnext, rfl⟩ := task_eq_some hstep
  obtain ⟨hfile, htemp, htaken, hwriting⟩ := h.advance (List.mem_of_getElem? hphase) hnext
  refine ⟨h.current, hfile, htemp, fun config hmem => ?_, fun config hmem => ?_⟩
  · rcases List.mem_or_eq_of_mem_set hmem with hmem | heq
    · exact h.taken config hmem
    · exact htaken config heq.symm
  · rcases List.mem_or_eq_of_mem_set hmem with hmem | heq
    · exact h.writing config hmem
    · exact hwriting config heq.symm

/-- DNS through the proxy is switched off, and later the window no longer closes to the tray. -/
def dnsOff : AppConfig := { AppConfig.standard with dnsViaProxy := false }

def trayOff : AppConfig := { dnsOff with closeToTray := false }

/-- The second change comes when the first one is saved. -/
theorem saved_one_by_one : ∃ t,
    run step (start .standard none)
      [.change dnsOff, .task 0, .task 0, .task 0, .task 0,
        .change trayOff, .task 1, .task 1, .task 1, .task 1] = some t ∧
    t.file = some trayOff := by
  have hrun : ∃ t, run step (start .standard none)
      [.change dnsOff, .task 0, .task 0, .task 0, .task 0,
        .change trayOff, .task 1, .task 1, .task 1, .task 1] = some t ∧
      t.tasks ≠ [] ∧ (∀ phase ∈ t.tasks, phase = .ended) ∧ t.current = trayOff :=
    ⟨_, rfl, by decide, by decide, rfl⟩
  obtain ⟨t, hrun, hne, hended, hcurrent⟩ := hrun
  exact ⟨t, hrun, hcurrent ▸ saved_of_inTurn hrun (by decide) hne hended⟩

/-- The first task has its snapshot when the second change comes, and moves it over the file
last. -/
theorem change_overwritten : ∃ t,
    run step (start .standard none)
      [.change dnsOff, .task 0, .change trayOff, .task 1, .task 1, .task 1, .task 1,
        .task 0, .task 0, .task 0] = some t ∧
    (∀ phase ∈ t.tasks, phase = .ended) ∧ t.current = trayOff ∧ t.file = some dnsOff ∧
    ¬ t.Saved := by
  refine ⟨_, rfl, by decide, by decide, by decide, fun hsaved => ?_⟩
  exact absurd (hsaved (by decide) (by decide)) (by decide)

/-- The task of the last change finds the temporary file in use and gives up. -/
example : (run step (start .standard none)
      [.change dnsOff, .task 0, .task 0, .change trayOff, .task 1, .task 1, .task 0, .task 0,
        .task 1]).map (fun t => (t.tasks, t.file)) =
    some ([.ended, .ended], some dnsOff) := by
  decide

end Saves
end ProxyTun.WindowsGui
