import ProxyTun.Connections.Table
import ProxyTun.Core.Rules
import ProxyTun.Library.Resumption

/-!
# Operations of a packet thread

Between two operations on shared data a packet thread only computes. The operations
are those of the connection table, of the list of logged connections, of the owner
lookup and of the user's callback, and the output of the thread.
-/
namespace ProxyTun
open Library

/-- An entry of `logged_connections`. -/
structure LoggedConnection where
  pid : Pid
  destIp : Ip
  destPort : Port
  action : RuleAction
  deriving DecidableEq, Repr

/-- The arguments of a call of `g_connection_callback`. -/
structure ConnectionEvent where
  displayName : CStr
  pid : Pid
  destIp : CStr
  destPort : Port
  proxyInfo : CStr
  deriving DecidableEq, Repr

/-- The operations of a thread whose output is `Out`. The Linux version of
`add_logged_connection` is one operation, while the Windows version gives up the lock
between its two halves. -/
inductive Op (Out : Type) where
  | getConnection (srcPort : Port)
  | isConnectionTracked (srcPort : Port)
  | addConnection (srcPort : Port) (srcIp destIp : Ip) (destPort : Port)
  | removeConnection (srcPort : Port)
  | processId (isUdp : Bool) (srcIp : Ip) (srcPort : Port)
  | processName (pid : Pid)
  | isConnectionAlreadyLogged (entry : LoggedConnection)
  | connectionCallback (event : ConnectionEvent)
  | trimLoggedConnections
  | insertLoggedConnection (entry : LoggedConnection)
  | addLoggedConnection (entry : LoggedConnection)
  | emit (out : Out)

namespace Op

variable {Out : Type}

abbrev Result : Op Out → Type
  | .getConnection _ => Option (Ip × Port)
  | .isConnectionTracked _ => Bool
  | .processId _ _ _ => Pid
  | .processName _ => Option CStr
  | .isConnectionAlreadyLogged _ => Bool
  | _ => Unit

/-- The operation neither reads nor changes the table, and puts nothing out. -/
def IsInternal : Op Out → Prop
  | .processId _ _ _ => True
  | .processName _ => True
  | .isConnectionAlreadyLogged _ => True
  | .connectionCallback _ => True
  | .trimLoggedConnections => True
  | .insertLoggedConnection _ => True
  | .addLoggedConnection _ => True
  | _ => False

end Op

/-- Code of a packet thread. -/
abbrev Routine (Out α : Type) := Code (Op Out) Op.Result α

namespace Routine

variable {Out : Type}

abbrev getConnection (p : Port) : Routine Out (Option (Ip × Port)) :=
  Code.perform (Op.getConnection p)

abbrev isConnectionTracked (p : Port) : Routine Out Bool := Code.perform (Op.isConnectionTracked p)

abbrev addConnection (p : Port) (srcIp destIp : Ip) (destPort : Port) : Routine Out Unit :=
  Code.perform (Op.addConnection p srcIp destIp destPort)

abbrev removeConnection (p : Port) : Routine Out Unit := Code.perform (Op.removeConnection p)

abbrev processId (isUdp : Bool) (srcIp : Ip) (srcPort : Port) : Routine Out Pid :=
  Code.perform (Op.processId isUdp srcIp srcPort)

abbrev processName (pid : Pid) : Routine Out (Option CStr) := Code.perform (Op.processName pid)

abbrev isConnectionAlreadyLogged (entry : LoggedConnection) : Routine Out Bool :=
  Code.perform (Op.isConnectionAlreadyLogged entry)

abbrev connectionCallback (event : ConnectionEvent) : Routine Out Unit :=
  Code.perform (Op.connectionCallback event)

def trimAndInsertLogged (entry : LoggedConnection) : Routine Out Unit := do
  Code.perform Op.trimLoggedConnections
  Code.perform (Op.insertLoggedConnection entry)

abbrev emit (out : Out) : Routine Out Unit := Code.perform (Op.emit out)

abbrev addLoggedConnection (entry : LoggedConnection) : Routine Out Unit :=
  Code.perform (Op.addLoggedConnection entry)

def onlyIf (condition : Bool) (c : Routine Out Unit) : Routine Out Unit :=
  if condition then c else pure ()

theorem all_onlyIf {P : Op Out → Prop} (condition : Bool) {c : Routine Out Unit}
    (h : condition = true → c.All P) : (onlyIf condition c).All P := by
  unfold onlyIf
  split_ifs with hc
  · exact h hc
  · trivial

theorem trimAndInsertLogged_internal (entry : LoggedConnection) :
    (trimAndInsertLogged entry : Routine Out Unit).All Op.IsInternal :=
  ⟨trivial, fun _ => ⟨trivial, fun _ => trivial⟩⟩

end Routine

/-- What the operating system answers: the owner of a local end, 0 where it finds none, the
path of a process, and whether memory can be allocated. -/
structure Environment where
  processId : Bool → Ip → Port → Pid
  processName : Pid → Option CStr
  allocated : Bool

/-- One application owns every local end. -/
def Environment.app : Environment := ⟨fun _ _ _ => 7, fun _ => some "app".toList, true⟩

/-- The data that all threads share. -/
structure Shared where
  table : ConnTable
  clock : Tick
  logged : List LoggedConnection
  events : List ConnectionEvent

namespace Shared

def initial (clock : Tick) : Shared := ⟨.empty, clock, [], []⟩

/-- `get_connection`, which refreshes the entry it finds. -/
def getConnection (pf : Platform) (srcPort : Port) (s : Shared) : Option (Ip × Port) × Shared :=
  (s.table.getConnection pf srcPort,
    if (s.table.getConnection pf srcPort).isSome then
      { s with table := s.table.touch s.clock srcPort }
    else s)

/-- A list of 100 logged connections or more is cut down to make room for one. -/
def trimLogged (logged : List LoggedConnection) : List LoggedConnection :=
  if 100 ≤ logged.length then logged.take 99 else logged

def insertLogged (allocated : Bool) (entry : LoggedConnection) (logged : List LoggedConnection) :
    List LoggedConnection :=
  if allocated then entry :: logged else logged

/-- The effect and the result of one operation. -/
def perform (pf : Platform) (env : Environment) {Out : Type} :
    (op : Op Out) → Shared → op.Result × Shared
  | .getConnection p, s => s.getConnection pf p
  | .isConnectionTracked p, s => (s.table.isConnectionTracked p, s)
  | .addConnection p srcIp destIp destPort, s =>
    ((), { s with
      table := s.table.addConnection pf s.clock env.allocated p srcIp destIp destPort })
  | .removeConnection p, s => ((), { s with table := s.table.removeConnection p })
  | .processId isUdp ip port, s => (env.processId isUdp ip port, s)
  | .processName pid, s => (env.processName pid, s)
  | .isConnectionAlreadyLogged entry, s => (s.logged.contains entry, s)
  | .connectionCallback event, s => ((), { s with events := s.events ++ [event] })
  | .trimLoggedConnections, s => ((), { s with logged := trimLogged s.logged })
  | .insertLoggedConnection entry, s =>
    ((), { s with logged := insertLogged env.allocated entry s.logged })
  | .addLoggedConnection entry, s =>
    ((), { s with logged := insertLogged env.allocated entry (trimLogged s.logged) })
  | .emit _, s => ((), s)

variable {pf : Platform} {env : Environment} {Out : Type}

@[simp] theorem destination_getConnection (p q : Port) (s : Shared) :
    (s.getConnection pf p).2.table.destination q = s.table.destination q := by
  simp only [getConnection]
  split_ifs <;> simp

/-- All that one operation does to the destination of a port: it leaves it, records the one
that `add_connection` is called with, or forgets it. -/
theorem destination_perform (op : Op Out) (s : Shared) (q : Port) :
    (s.perform pf env op).2.table.destination q = s.table.destination q ∨
      (∃ srcIp destIp destPort, op = .addConnection q srcIp destIp destPort ∧
        (s.perform pf env op).2.table.destination q = some (destIp, destPort)) ∨
      op = .removeConnection q ∧ (s.perform pf env op).2.table.destination q = none := by
  cases op with
  | getConnection p => exact .inl (destination_getConnection p q s)
  | addConnection p srcIp destIp destPort =>
    simp only [perform, ConnTable.destination_addConnection]
    by_cases hq : q = p
    · subst hq
      rw [if_pos rfl]
      by_cases h : env.allocated = true ∨ (s.table.destination q).isSome = true
      · exact .inr (.inl ⟨srcIp, destIp, destPort, rfl, if_pos h⟩)
      · rw [if_neg h]
        rw [not_or, Option.not_isSome_iff_eq_none] at h
        exact .inl h.2.symm
    · exact .inl (if_neg hq)
  | removeConnection p =>
    simp only [perform, ConnTable.destination_removeConnection]
    by_cases hq : q = p
    · exact .inr (.inr ⟨by rw [hq], if_pos hq⟩)
    · exact .inl (if_neg hq)
  | _ => exact .inl rfl

theorem allTracked_getConnection {s : Shared} (h : s.table.AllTracked) (p : Port) :
    (s.getConnection pf p).2.table.AllTracked := by
  simp only [getConnection]
  split_ifs
  · exact h.touch _ p
  · exact h

theorem allTracked_perform {s : Shared} (h : s.table.AllTracked) (op : Op Out) :
    (s.perform pf env op).2.table.AllTracked := by
  cases op with
  | getConnection p => exact allTracked_getConnection h p
  | addConnection p srcIp destIp destPort => exact h.addConnection _ _ _ _ _ _ _
  | removeConnection p => exact h.removeConnection p
  | _ => exact h

/-- The handler of code that runs alone, which collects what the code puts out. -/
def handle (pf : Platform) (env : Environment) :
    (op : Op Out) → Shared × List Out → op.Result × Shared × List Out
  | .emit out, s => ((), s.1, s.2 ++ [out])
  | op, s => ((s.1.perform pf env op).1, (s.1.perform pf env op).2, s.2)

/-- What code puts out when no other thread moves. -/
def outputs (pf : Platform) (env : Environment) (c : Routine Out Unit) (s : Shared) : List Out :=
  (c.eval (handle pf env) (s, [])).2.2

/-- The shared data behind code that ran alone. -/
def after (pf : Platform) (env : Environment) (c : Routine Out Unit) (s : Shared) : Shared :=
  (c.eval (handle pf env) (s, [])).2.1

/-- Code that starts by asking for a port goes on with the answer of the table. -/
theorem outputs_isConnectionTracked (pf : Platform) (env : Environment) (p : Port)
    (next : Bool → Routine Out Unit) (s : Shared) :
    s.outputs pf env (.call (.isConnectionTracked p) next) =
      s.outputs pf env (next (s.table.isConnectionTracked p)) := rfl

theorem eval_internal (pf : Platform) (env : Environment) {α : Type} {c : Routine Out α}
    (hc : c.All Op.IsInternal) (s : Shared × List Out) : (c.eval (handle pf env) s).2.2 = s.2 := by
  refine Code.eval_invariant (I := fun t => t.2 = s.2) (handle pf env) ?_ hc rfl
  intro op t hop ht
  cases op <;> first | exact ht | exact hop.elim

theorem table_eval_internal (pf : Platform) (env : Environment) {α : Type} {c : Routine Out α}
    (hc : c.All Op.IsInternal) (s : Shared × List Out) :
    (c.eval (handle pf env) s).2.1.table = s.1.table := by
  refine Code.eval_invariant (I := fun t => t.1.table = s.1.table) (handle pf env) ?_ hc rfl
  intro op t hop ht
  cases op <;> first | exact ht | exact hop.elim

/-- Behind internal operations code runs as it would with the same table. -/
theorem eval_internal_bind (pf : Platform) (env : Environment) {c : Routine Out Unit}
    (hc : c.All Op.IsInternal) (rest : Routine Out Unit) (s : Shared) :
    ∃ s' : Shared, s'.table = s.table ∧
      (c >>= fun _ => rest).eval (handle pf env) (s, []) = rest.eval (handle pf env) (s', []) := by
  refine ⟨(c.eval (handle pf env) (s, [])).2.1, table_eval_internal pf env hc (s, []), ?_⟩
  have hquiet : (c.eval (handle pf env) (s, [])).2 =
      ((c.eval (handle pf env) (s, [])).2.1, []) :=
    Prod.ext rfl (eval_internal pf env hc (s, []))
  rw [Code.eval_bind, hquiet]

end Shared
end ProxyTun
