import ProxyTun.Library.Transition
import ProxyTun.Linux.Iptables

/-!
# Processes that share the iptables rules

Several processes load the library on one machine. Each has a flag `running` of its own, while the
installed rules belong to all of them. A step is one command of one process, or the begin or the
end of one of its calls.
-/
namespace ProxyTun.Linux.Iptables
open Library Library.Transition

/-- Where a process is: between two calls, in a call, in the destructor, or gone. -/
inductive Phase where
  | idle
  | starting
  | stopping
  | unloading
  | gone
  deriving DecidableEq, Repr

/-- A process that has loaded the library, with the commands that its call still has to make. -/
structure Process where
  phase : Phase
  running : Bool
  pending : List Command
  deriving DecidableEq, Repr

def Process.loaded : Process := ⟨.idle, false, []⟩

/-- `ProxyBridge_Start` has returned true, and `ProxyBridge_Stop` has not been entered. -/
def Process.started (p : Process) : Bool := p.phase = .idle && p.running

/-- The process has appended the rule in a start, and it has not entered `ProxyBridge_Stop`. -/
def Process.holds (p : Process) (rule : EngineRule) : Bool :=
  p.started || (p.phase = .starting && .append rule ∉ p.pending)

def Process.enter (p : Process) (call : LibraryCall) : Process :=
  let commands := call.commands p.running
  let phase := if commands = [] then .idle
    else match call with
      | .start _ => .starting
      | .stop => .stopping
  ⟨phase, call.running p.running, commands⟩

def Process.unload (p : Process) : Process := ⟨.unloading, false, libraryCleanup p.running⟩

/-- The call is over, and the process with it if it was the destructor. -/
def Process.leave (p : Process) : Process :=
  { p with phase := if p.phase = .unloading then .gone else .idle }

structure Machine where
  installed : List EngineRule
  processes : List Process
  deriving DecidableEq, Repr

inductive Label where
  | load
  | call (i : ℕ) (call : LibraryCall)
  /-- `main` returns. -/
  | exit (i : ℕ)
  | command (i : ℕ)
  | leave (i : ℕ)
  | kill (i : ℕ)
  deriving DecidableEq, Repr

def Machine.update (m : Machine) (i : ℕ) (p : Process) : Machine :=
  { m with processes := m.processes.set i p }

/-- A step, if the process is where it can make it. -/
def step (m : Machine) : Label → Option Machine
  | .load => some { m with processes := m.processes ++ [.loaded] }
  | .call i call => (m.processes[i]?).bind fun p =>
    if p.phase = .idle then some (m.update i (p.enter call)) else none
  | .exit i => (m.processes[i]?).bind fun p =>
    if p.phase = .idle then some (m.update i p.unload) else none
  | .command i => (m.processes[i]?).bind fun p =>
    match p.pending with
    | [] => none
    | command :: pending =>
      if p.phase = .idle ∨ p.phase = .gone then none
      else some { installed := execute m.installed command,
                  processes := m.processes.set i { p with pending := pending } }
  | .leave i => (m.processes[i]?).bind fun p =>
    if p.phase = .idle ∨ p.phase = .gone ∨ p.pending ≠ [] then none
    else some (m.update i p.leave)
  | .kill i => (m.processes[i]?).bind fun p =>
    if p.phase = .gone then none else some (m.update i { p with phase := .gone })

/-- The last copy of a rule is not deleted while a process holds the rule. -/
def sparesHeld (m : Machine) : Label → Bool
  | .command i => ((m.processes[i]?).bind fun p => p.pending.head?).all fun command =>
      match command with
      | .append _ => true
      | .delete rule => 2 ≤ m.installed.count rule || m.processes.all fun p => !p.holds rule
  | _ => true

/-- A process that has lowered its flag to stop, and whose rules are installed. -/
structure Process.Covered (installed : List EngineRule) (p : Process) : Prop where
  stopping : p.phase = .stopping → p.running = false
  holds : ∀ rule, p.holds rule = true → rule ∈ installed

def Machine.Covered (m : Machine) : Prop := ∀ p ∈ m.processes, p.Covered m.installed

theorem covered_update {m : Machine} (h : m.Covered) {i : ℕ} {p : Process}
    (hp : p.Covered m.installed) : (m.update i p).Covered := by
  intro q hq
  rcases List.mem_or_eq_of_mem_set hq with hq | rfl
  · exact h q hq
  · exact hp

/-- A call adds no rule to those a process holds before it has made the commands. -/
theorem covered_enter {installed : List EngineRule} {p : Process} (h : p.Covered installed)
    (hidle : p.phase = .idle) (call : LibraryCall) : (p.enter call).Covered installed := by
  obtain ⟨phase, running, pending⟩ := p
  obtain rfl : phase = .idle := hidle
  cases running with
  | true =>
    have hall : ∀ rule, rule ∈ installed := fun rule => h.holds rule rfl
    refine ⟨?_, fun rule _ => hall rule⟩
    cases call with
    | start succeeds => exact nofun
    | stop => exact fun _ => rfl
  | false =>
    have hnone : ∀ rule, ((⟨.idle, false, pending⟩ : Process).enter call).holds rule = false := by
      intro rule
      cases call with
      | start succeeds => cases succeeds <;> cases rule <;> rfl
      | stop => cases rule <;> rfl
    refine ⟨?_, fun rule hrule => ?_⟩
    · cases call with
      | start succeeds => cases succeeds <;> exact nofun
      | stop => exact fun _ => rfl
    · rw [hnone rule] at hrule
      cases hrule

/-- A process outside its calls that is not running holds nothing. -/
theorem covered_unloading (installed : List EngineRule) (p : Process) :
    p.unload.Covered installed :=
  ⟨nofun, fun _ => nofun⟩

theorem covered_gone (installed : List EngineRule) (p : Process) :
    ({ p with phase := .gone } : Process).Covered installed :=
  ⟨nofun, fun _ => nofun⟩

theorem covered_leave {installed : List EngineRule} {p : Process} (h : p.Covered installed)
    (hcall : ¬ (p.phase = .idle ∨ p.phase = .gone ∨ p.pending ≠ [])) :
    p.leave.Covered installed := by
  obtain ⟨phase, running, pending⟩ := p
  simp only [not_or, not_not] at hcall
  obtain ⟨hidle, hgone, rfl⟩ := hcall
  cases phase with
  | idle => exact absurd rfl hidle
  | gone => exact absurd rfl hgone
  | starting => exact ⟨nofun, fun rule _ => h.holds rule rfl⟩
  | stopping =>
    obtain rfl : running = false := h.stopping rfl
    exact ⟨nofun, fun _ => nofun⟩
  | unloading => exact ⟨nofun, fun _ => nofun⟩

/-- A command keeps a rule that is held: it is another command, or copies of the rule are left. -/
theorem mem_execute {m : Machine} {command : Command} {rule : EngineRule}
    (hmem : rule ∈ m.installed) (hspares : command = .delete rule →
      2 ≤ m.installed.count rule) : rule ∈ execute m.installed command := by
  cases command with
  | append rule' => exact List.mem_append_left _ hmem
  | delete rule' =>
    by_cases h : rule = rule'
    · subst h
      have hcount := hspares rfl
      rw [execute, ← List.count_pos_iff, List.count_erase_self]
      omega
    · exact (List.mem_erase_of_ne h).mpr hmem

theorem covered_command {m : Machine} (h : m.Covered) {i : ℕ} {p : Process} {command : Command}
    {pending : List Command} (hp : m.processes[i]? = some p)
    (hpending : p.pending = command :: pending)
    (hspares : sparesHeld m (.command i) = true) :
    Machine.Covered { installed := execute m.installed command
                      processes := m.processes.set i { p with pending := pending } } := by
  have hkeep : ∀ q ∈ m.processes, ∀ rule, q.holds rule = true →
      rule ∈ execute m.installed command := by
    intro q hq rule hrule
    refine mem_execute ((h q hq).holds rule hrule) ?_
    rintro rfl
    simp only [sparesHeld, hp, Option.bind_some, hpending, List.head?_cons, Option.all_some,
      Bool.or_eq_true, decide_eq_true_eq, List.all_eq_true, Bool.not_eq_true'] at hspares
    refine hspares.resolve_right fun hnone => ?_
    rw [hnone q hq] at hrule
    cases hrule
  have hmem : p ∈ m.processes := List.mem_of_getElem? hp
  intro q hq
  rcases List.mem_or_eq_of_mem_set hq with hq | rfl
  · exact ⟨(h q hq).stopping, hkeep q hq⟩
  · refine ⟨(h p hmem).stopping, fun rule hrule => ?_⟩
    by_cases hbefore : p.holds rule = true
    · exact hkeep p hmem rule hbefore
    · -- the rule is held from now on because this command appends it
      have happend : command = .append rule := by
        by_contra hother
        refine hbefore ?_
        simp only [Process.holds, Process.started, Bool.or_eq_true, Bool.and_eq_true,
          decide_eq_true_eq, hpending, List.mem_cons, not_or] at hrule ⊢
        exact hrule.imp_right fun hstarting => ⟨hstarting.1, Ne.symm hother, hstarting.2⟩
      rw [happend]
      exact List.mem_append_right _ List.mem_cons_self

/-- A step that spares the rules of the others keeps them all installed. -/
theorem covered_step {m m' : Machine} {l : Label} (h : m.Covered) (hspares : sparesHeld m l = true)
    (hstep : step m l = some m') : m'.Covered := by
  cases l with
  | load =>
    obtain rfl := Option.some.inj hstep
    intro p hp
    rcases List.mem_append.mp hp with hp | hp
    · exact h p hp
    · rw [List.mem_singleton.mp hp]
      exact ⟨nofun, fun _ => nofun⟩
  | call i call =>
    obtain ⟨p, hp, hcall⟩ := Option.bind_eq_some_iff.mp hstep
    split_ifs at hcall with hidle
    obtain rfl := Option.some.inj hcall
    exact covered_update h (covered_enter (h p (List.mem_of_getElem? hp)) hidle call)
  | exit i =>
    obtain ⟨p, -, hexit⟩ := Option.bind_eq_some_iff.mp hstep
    split_ifs at hexit
    obtain rfl := Option.some.inj hexit
    exact covered_update h (covered_unloading m.installed p)
  | command i =>
    obtain ⟨p, hp, hcommand⟩ := Option.bind_eq_some_iff.mp hstep
    split at hcommand
    · cases hcommand
    · next command pending hpending =>
      split_ifs at hcommand
      obtain rfl := Option.some.inj hcommand
      exact covered_command h hp hpending hspares
  | leave i =>
    obtain ⟨p, hp, hleave⟩ := Option.bind_eq_some_iff.mp hstep
    split_ifs at hleave with hcall
    obtain rfl := Option.some.inj hleave
    exact covered_update h (covered_leave (h p (List.mem_of_getElem? hp)) hcall)
  | kill i =>
    obtain ⟨p, -, hkill⟩ := Option.bind_eq_some_iff.mp hstep
    split_ifs at hkill
    obtain rfl := Option.some.inj hkill
    exact covered_update h (covered_gone m.installed p)

/-- In every run in which no process deletes the last copy of a rule that another one holds, the
rules are installed while an instance runs. -/
theorem started_installed (installed : List EngineRule) {ls : List Label} {m : Machine}
    (hrun : run step ⟨installed, []⟩ ls = some m)
    (hguard : Guarded step (fun m l => sparesHeld m l = true) ⟨installed, []⟩ ls) :
    ∀ p ∈ m.processes, p.started = true → ∀ rule, rule ∈ m.installed := by
  have hcovered : m.Covered := guarded_invariant (I := Machine.Covered)
    (fun _ _ _ h hspares hstep => covered_step h hspares hstep) hrun hguard
    (fun p hp => nomatch hp)
  intro p hp hstarted rule
  exact (hcovered p hp).holds rule (by rw [Process.holds, hstarted, Bool.true_or])

/-- A process loads the library and starts the engine. -/
def startsUp (i : ℕ) : List Label :=
  [.load, .call i (.start true), .command i, .command i, .command i, .command i, .leave i]

/-- A process loads the library and exits, as with `--help`. -/
def asksForHelp (i : ℕ) : List Label :=
  [.load, .exit i, .command i, .command i, .command i, .command i, .leave i]

/-- The destructor of another process takes the rules away from an instance that runs. -/
theorem help_removes_rules :
    ∃ m, run step ⟨[], []⟩ (startsUp 0 ++ asksForHelp 1) = some m ∧
      (∃ p ∈ m.processes, p.started = true) ∧ m.installed = [] := by
  refine ⟨_, rfl, ⟨_, List.mem_cons_self, rfl⟩, rfl⟩

/-- Where a killed instance has left a copy, the destructor of another process takes that one. -/
theorem started_installed_leftover :
    ∃ m, run step ⟨engineRules, []⟩ (startsUp 0 ++ asksForHelp 1) = some m ∧
      ∀ p ∈ m.processes, p.started = true → ∀ rule, rule ∈ m.installed := by
  have hrun : ∃ m, run step ⟨engineRules, []⟩ (startsUp 0 ++ asksForHelp 1) = some m := ⟨_, rfl⟩
  obtain ⟨m, hm⟩ := hrun
  exact ⟨m, hm, started_installed engineRules hm (by decide)⟩

end ProxyTun.Linux.Iptables
