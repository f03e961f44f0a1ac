import ProxyTun.WindowsGui.SaveTasks

/-!
# Loading the configuration

`LoadConfiguration` sets the properties of the window one after another and adds the rules last.
The setters of three switches start a save if the switch changes, and the tasks run beside it.
-/
namespace ProxyTun.WindowsGui
open Library.Transition

/-- The statements of `LoadConfiguration`. -/
inductive LoadStep where
  | proxy
  | dnsViaProxy
  | localhostViaProxy
  | closeToTray
  | isTrafficLoggingEnabled
  | language
  | rule (config : ProxyRuleConfig)
  deriving DecidableEq, Repr

def ProxyRule.saved (rule : ProxyRule) : ProxyRuleConfig := ⟨rule.toRuleTexts, rule.isEnabled⟩

def LoadStep.apply (config current : AppConfig) : LoadStep → AppConfig
  | .proxy =>
    { current with
      proxyType := defaultIfEmpty config.proxyType "SOCKS5".toList
      proxyIp := defaultIfEmpty config.proxyIp []
      proxyPort := defaultIfEmpty config.proxyPort []
      proxyUsername := config.proxyUsername
      proxyPassword := config.proxyPassword }
  | .dnsViaProxy => { current with dnsViaProxy := config.dnsViaProxy }
  | .localhostViaProxy => { current with localhostViaProxy := config.localhostViaProxy }
  | .closeToTray => { current with closeToTray := config.closeToTray }
  | .isTrafficLoggingEnabled =>
    { current with isTrafficLoggingEnabled := config.isTrafficLoggingEnabled }
  | .language => { current with language := config.language }
  | .rule saved =>
    { current with
      proxyRules := current.proxyRules ++ ((loadRule saved).map ProxyRule.saved).toList }

/-- A setter whose value changes starts a save. -/
def LoadStep.saves (config current : AppConfig) : LoadStep → Bool
  | .dnsViaProxy => current.dnsViaProxy ≠ config.dnsViaProxy
  | .localhostViaProxy => current.localhostViaProxy ≠ config.localhostViaProxy
  | .isTrafficLoggingEnabled => current.isTrafficLoggingEnabled ≠ config.isTrafficLoggingEnabled
  | _ => false

/-- `CultureInfo` throws for a language that it does not know, and the rules are not loaded. -/
def loadSteps (isCulture : CStr → Bool) (config : AppConfig) : List LoadStep :=
  [.proxy, .dnsViaProxy, .localhostViaProxy, .closeToTray, .isTrafficLoggingEnabled] ++
    if isBlank config.language then config.proxyRules.map .rule
    else if isCulture config.language then .language :: config.proxyRules.map .rule
    else [.language]

structure LoadState where
  pending : List LoadStep
  saves : Saves AppConfig
  deriving DecidableEq, Repr

inductive LoadLabel where
  /-- The next statement of `LoadConfiguration`. -/
  | load
  /-- The next step of a task. -/
  | task (i : ℕ)
  deriving DecidableEq, Repr

namespace LoadState

def start (isCulture : CStr → Bool) (config : AppConfig) : LoadState :=
  ⟨loadSteps isCulture config, .start .standard (some config)⟩

def step (config : AppConfig) (s : LoadState) : LoadLabel → Option LoadState
  | .load =>
    match s.pending with
    | [] => none
    | next :: rest =>
      let current := next.apply config s.saves.current
      some
        { pending := rest
          saves := if next.saves config s.saves.current then s.saves.change current
            else s.saves.assign current }
  | .task i => (s.saves.task i).map fun saves => { s with saves := saves }

/-- The rules in the file. -/
def fileRules (s : LoadState) : Option (List ProxyRuleConfig) :=
  s.saves.file.map fun config => config.proxyRules

end LoadState

/-- The switches have the values that the window starts with. -/
def AppConfig.StartsNoSave (config : AppConfig) : Prop :=
  config.dnsViaProxy = true ∧ config.localhostViaProxy = false ∧
    config.isTrafficLoggingEnabled = true

namespace LoadState

/-- Whatever the schedule, the rules in the file stay those that were loaded. -/
def KeepsRules (isCulture : CStr → Bool) (config : AppConfig) : Prop :=
  ∀ labels t, run (step config) (start isCulture config) labels = some t →
    t.fileRules = some config.proxyRules

variable {config : AppConfig} {s t : LoadState}

/-- Nothing was changed that a save is started for. -/
structure Unsaved (config : AppConfig) (s : LoadState) : Prop where
  tasks : s.saves.tasks = []
  file : s.saves.file = some config
  dnsViaProxy : s.saves.current.dnsViaProxy = config.dnsViaProxy
  localhostViaProxy : s.saves.current.localhostViaProxy = config.localhostViaProxy
  isTrafficLoggingEnabled :
    s.saves.current.isTrafficLoggingEnabled = config.isTrafficLoggingEnabled

theorem Unsaved.step (h : Unsaved config s) {label : LoadLabel}
    (hstep : s.step config label = some t) : Unsaved config t := by
  cases label with
  | load =>
    unfold LoadState.step at hstep
    dsimp only at hstep
    split at hstep
    · cases hstep
    · rename_i next rest hpending
      have hquiet : next.saves config s.saves.current = false := by
        cases next <;> simp [LoadStep.saves, h.dnsViaProxy, h.localhostViaProxy,
          h.isTrafficLoggingEnabled]
      rw [hquiet] at hstep
      obtain rfl := Option.some.inj hstep
      refine ⟨h.tasks, h.file, ?_, ?_, ?_⟩ <;>
        cases next <;> simp [Saves.assign, LoadStep.apply, h.dnsViaProxy, h.localhostViaProxy,
          h.isTrafficLoggingEnabled]
  | task i =>
    obtain ⟨saves, hsaves, rfl⟩ := Option.map_eq_some_iff.mp hstep
    obtain ⟨phase, next, hphase, -, -⟩ := Saves.task_eq_some hsaves
    rw [h.tasks] at hphase
    cases hphase

/-- Without rules in the file there are none to load and none to save. -/
structure Ruleless (s : LoadState) : Prop where
  pending : ∀ config, .rule config ∉ s.pending
  saves : s.saves.Holds fun config => config.proxyRules = []

theorem Ruleless.step (h : s.Ruleless) {label : LoadLabel}
    (hstep : s.step config label = some t) : t.Ruleless := by
  cases label with
  | load =>
    unfold LoadState.step at hstep
    dsimp only at hstep
    split at hstep
    · cases hstep
    · rename_i next rest hpending
      have hrest : ∀ config, .rule config ∉ rest := by
        intro config hmem
        exact h.pending config (hpending ▸ List.mem_cons_of_mem _ hmem)
      have hcurrent : (next.apply config s.saves.current).proxyRules = [] := by
        cases next with
        | rule saved => exact absurd (hpending ▸ List.mem_cons_self) (h.pending saved)
        | _ => exact h.saves.current
      obtain rfl := Option.some.inj hstep
      refine ⟨hrest, ?_⟩
      dsimp only
      split_ifs
      · exact h.saves.change hcurrent
      · exact h.saves.assign hcurrent
  | task i =>
    obtain ⟨saves, hsaves, rfl⟩ := Option.map_eq_some_iff.mp hstep
    exact ⟨h.pending, h.saves.task hsaves⟩

/-- A switch with another value than the window starts with starts a save before the first rule
is added. -/
theorem starts_save (isCulture : CStr → Bool) (h : ¬ config.StartsNoSave) :
    ∃ n s, run (step config) (start isCulture config) (List.replicate n .load) = some s ∧
      s.saves.tasks = [.waiting] ∧ s.saves.temp = .absent ∧
      s.saves.current.proxyRules = [] := by
  obtain ⟨_, _, _, _, _, dnsViaProxy, localhostViaProxy, isTrafficLoggingEnabled, _, _, _⟩ := config
  cases dnsViaProxy with
  | false => exact ⟨2, _, rfl, rfl, rfl, rfl⟩
  | true =>
    cases localhostViaProxy with
    | true => exact ⟨3, _, rfl, rfl, rfl, rfl⟩
    | false =>
      cases isTrafficLoggingEnabled with
      | false => exact ⟨5, _, rfl, rfl, rfl, rfl⟩
      | true => exact absurd ⟨rfl, rfl, rfl⟩ h

/-- A save that is started before the first rule is added, and runs at once, leaves no rules. -/
theorem saved_without_rules {isCulture : CStr → Bool} {n : ℕ}
    (hrun : run (step config) (start isCulture config) (List.replicate n .load) = some s)
    (htasks : s.saves.tasks = [.waiting]) (htemp : s.saves.temp = .absent)
    (hrules : s.saves.current.proxyRules = []) (hkeeps : KeepsRules isCulture config) :
    config.proxyRules = [] := by
  have hsaved : run (step config) s [.task 0, .task 0, .task 0, .task 0] =
      some { s with
        saves := { s.saves with
          file := some s.saves.current, temp := .absent, tasks := [.ended] } } := by
    obtain ⟨pending, current, file, temp, tasks⟩ := s
    dsimp only at htasks htemp
    subst htasks htemp
    rfl
  have hfile := hkeeps (List.replicate n .load ++ [.task 0, .task 0, .task 0, .task 0]) _
    (by rw [run_append, hrun, Option.bind_some, hsaved])
  rw [fileRules, Option.map_some, hrules] at hfile
  exact (Option.some.inj hfile).symm

theorem keepsRules_of_startsNoSave (isCulture : CStr → Bool) (h : config.StartsNoSave) :
    KeepsRules isCulture config := by
  intro labels t hrun
  obtain ⟨hdns, hlocalhost, hlogging⟩ := h
  have hstart : Unsaved config (start isCulture config) :=
    ⟨rfl, rfl, hdns.symm, hlocalhost.symm, hlogging.symm⟩
  have hend : Unsaved config t := run_invariant (fun _ _ _ hs hstep => hs.step hstep) hrun hstart
  rw [fileRules, hend.file]
  rfl

theorem keepsRules_of_no_rules (isCulture : CStr → Bool) (h : config.proxyRules = []) :
    KeepsRules isCulture config := by
  intro labels t hrun
  have hstart : (start isCulture config).Ruleless := by
    refine ⟨fun saved hmem => ?_, rfl, ⟨config, rfl, h⟩, ?_, ?_, ?_⟩
    · rw [start, loadSteps, h] at hmem
      split_ifs at hmem <;> simp at hmem
    · simp [start, Saves.start]
    · simp [start, Saves.start]
    · simp [start, Saves.start]
  have hend : t.Ruleless := run_invariant (fun _ _ _ hs hstep => hs.step hstep) hrun hstart
  obtain ⟨saved, hfile, hrules⟩ := hend.saves.file
  rw [fileRules, hfile, Option.map_some, hrules, h]

/-- Loading keeps the rules in the file under every schedule exactly when it starts no save, or
there are no rules. -/
theorem rules_kept_iff (isCulture : CStr → Bool) (config : AppConfig) :
    KeepsRules isCulture config ↔ config.StartsNoSave ∨ config.proxyRules = [] := by
  constructor
  · intro hkeeps
    by_cases hquiet : config.StartsNoSave
    · exact .inl hquiet
    · obtain ⟨n, s, hrun, htasks, htemp, hrules⟩ := starts_save isCulture hquiet
      exact .inr (saved_without_rules hrun htasks htemp hrules hkeeps)
  · rintro (hquiet | hnone)
    · exact keepsRules_of_startsNoSave isCulture hquiet
    · exact keepsRules_of_no_rules isCulture hnone

/-- DNS is not sent through the proxy, and there is one rule. -/
def dnsOffOneRule : AppConfig :=
  { AppConfig.standard with
    dnsViaProxy := false
    proxyRules := [⟨wholeProcess "curl.exe", true⟩] }

/-- The task that `DnsViaProxy` starts is done before the rule is added. -/
theorem rules_lost_beside_load : ∃ t,
    run (step dnsOffOneRule) (start (fun _ => true) dnsOffOneRule)
      [.load, .load, .task 0, .task 0, .task 0, .task 0, .load, .load, .load, .load, .load] =
        some t ∧
    t.pending = [] ∧ t.saves.tasks = [.ended] ∧ t.fileRules = some [] ∧
    ¬ KeepsRules (fun _ => true) dnsOffOneRule := by
  refine ⟨_, rfl, rfl, rfl, rfl, fun hkeeps => ?_⟩
  have hrules := hkeeps [.load, .load, .task 0, .task 0, .task 0, .task 0] _ rfl
  exact absurd (Option.some.inj hrules) (by decide)

end LoadState
end ProxyTun.WindowsGui
