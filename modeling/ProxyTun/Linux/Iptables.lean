import ProxyTun.Core.Types
import ProxyTun.Library.Counter

/-!
# The iptables rules of the Linux engine

`ProxyBridge_Start` appends four rules without looking for copies of them, and each deletion
removes one copy. The rules outlive the process that appended them. The destructor of the
library deletes one copy of each rule when the process exits, running or not.
-/
namespace ProxyTun.Linux.Iptables
open Library

/-- The rules that hand packets to the engine and marked packets to its relays, as the commands
give them behind `-A` or `-D`. -/
inductive EngineRule where
  /-- In `mangle`: `OUTPUT -p tcp -j NFQUEUE --queue-num 0`. -/
  | queueTcp
  /-- In `mangle`: `OUTPUT -p udp -j NFQUEUE --queue-num 0`. -/
  | queueUdp
  /-- In `nat`: `OUTPUT -p tcp -m mark --mark 1 -j REDIRECT --to-port 34010`. -/
  | redirectTcp
  /-- In `nat`: `OUTPUT -p udp -m mark --mark 2 -j REDIRECT --to-port 34011`. -/
  | redirectUdp
  deriving DecidableEq, Repr

def engineRules : List EngineRule := [.queueTcp, .queueUdp, .redirectTcp, .redirectUdp]

/-- The commands of the engine, with `-A` and `-D`. -/
inductive Command where
  | append (rule : EngineRule)
  | delete (rule : EngineRule)
  deriving DecidableEq, Repr

/-- The effect on the installed copies of the rules. To delete a rule that is not there fails. -/
def execute (installed : List EngineRule) : Command → List EngineRule
  | .append rule => installed ++ [rule]
  | .delete rule => installed.erase rule

/-- The commands of `ProxyBridge_Start` and of `ProxyBridge_Stop`. -/
def startCommands : List Command := engineRules.map .append

def stopCommands : List Command := engineRules.map .delete

/-- A call of the library. A start can fail before it comes to the rules. -/
inductive LibraryCall where
  | start (succeeds : Bool)
  | stop
  deriving DecidableEq, Repr

/-- The flag `running` after the call. -/
def LibraryCall.running (running : Bool) : LibraryCall → Bool
  | .start succeeds => running || succeeds
  | .stop => false

/-- The commands of the call. -/
def LibraryCall.commands (running : Bool) : LibraryCall → List Command
  | .start succeeds => if running then [] else if succeeds then startCommands else []
  | .stop => if running then stopCommands else []

/-- The destructor, which stops an engine that is running and deletes the rules otherwise. -/
def libraryCleanup (running : Bool) : List Command :=
  if running then LibraryCall.stop.commands true else stopCommands

def lifeCommands (running : Bool) : List LibraryCall → List Command
  | [] => libraryCleanup running
  | call :: calls => call.commands running ++ lifeCommands (call.running running) calls

/-- The process of an instance: it exits, or it is killed after some of its commands. -/
structure Instance where
  calls : List LibraryCall
  killedAfter : Option ℕ
  deriving DecidableEq, Repr

def Instance.commands (i : Instance) : List Command :=
  i.killedAfter.elim (lifeCommands false i.calls) fun k => (lifeCommands false i.calls).take k

/-- `main` with `--cleanup` calls `ProxyBridge_Stop` and returns. -/
def cleanup : Instance := ⟨[.stop], none⟩

/-- The commands of instances that run one after another. -/
def historyCommands (history : List Instance) : List Command := history.flatMap Instance.commands

/-- The rules that are installed on a machine without any after the instances. -/
def installedAfter (history : List Instance) : List EngineRule :=
  (historyCommands history).foldl execute []

theorem count_execute (installed : List EngineRule) (command : Command) (rule : EngineRule) :
    (execute installed command).count rule =
      move (.append rule) (.delete rule) (installed.count rule) command := by
  cases command with
  | append rule' =>
    rw [execute, List.count_append, move]
    by_cases h : rule' = rule
    · subst h
      rw [if_pos rfl, List.count_singleton_self]
    · simp [h]
  | delete rule' =>
    rw [execute, move, if_neg (by simp)]
    by_cases h : rule' = rule
    · subst h
      rw [if_pos rfl, List.count_erase_self]
    · rw [if_neg (by simpa using h), List.count_erase_of_ne (Ne.symm h)]

theorem count_foldl_execute (installed : List EngineRule) (commands : List Command)
    (rule : EngineRule) :
    (commands.foldl execute installed).count rule =
      level (.append rule) (.delete rule) (installed.count rule) commands := by
  induction commands generalizing installed with
  | nil => rfl
  | cons command commands ih => rw [List.foldl_cons, ih, count_execute, level_cons]

theorem cleanup_commands : cleanup.commands = stopCommands := rfl

theorem installedAfter_append (history : List Instance) (i : Instance) :
    installedAfter (history ++ [i]) = i.commands.foldl execute (installedAfter history) := by
  rw [installedAfter, historyCommands, List.flatMap_append, List.foldl_append]
  simp [installedAfter, historyCommands]

theorem count_stopCommands (n : ℕ) (rule : EngineRule) :
    level (.append rule) (.delete rule) n stopCommands = n - 1 := by
  cases rule <;> rfl

/-- The cleanup leaves nothing behind if and only if no rule has been appended two or more times
more often than deleted from some command on. -/
theorem cleanup_complete_iff (history : List Instance) :
    installedAfter (history ++ [cleanup]) = [] ↔
      ∀ rule tail, tail <:+ historyCommands history →
        tail.count (.append rule) ≤ tail.count (.delete rule) + 1 := by
  have hcount : ∀ rule, (installedAfter (history ++ [cleanup])).count rule = 0 ↔
      ∀ tail, tail <:+ historyCommands history →
        tail.count (.append rule) ≤ tail.count (.delete rule) + 1 := by
    intro rule
    have hne : Command.append rule ≠ .delete rule := by simp
    have hlevel := level_le_iff hne 0 1 (historyCommands history)
    rw [Nat.zero_add] at hlevel
    rw [installedAfter_append, cleanup_commands, count_foldl_execute, count_stopCommands,
      installedAfter, count_foldl_execute, List.count_nil]
    constructor
    · intro h
      exact (hlevel.mp (by omega)).2
    · intro h
      have hle := hlevel.mpr ⟨h _ (List.suffix_refl _), h⟩
      omega
  constructor
  · intro hnone rule
    exact (hcount rule).mp (by rw [hnone, List.count_nil])
  · intro htails
    rw [List.eq_nil_iff_forall_not_mem]
    intro rule
    exact List.count_eq_zero.mp ((hcount rule).mpr (htails rule))

/-- An instance that is killed while it is running. -/
def killedRunning : Instance := ⟨[.start true], some 4⟩

/-- After two kills one copy of each rule survives the cleanup. -/
theorem cleanup_after_two_kills :
    installedAfter [killedRunning, killedRunning, cleanup] = engineRules := by
  decide

end ProxyTun.Linux.Iptables
