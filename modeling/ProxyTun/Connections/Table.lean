import ProxyTun.Core.Types
import ProxyTun.Library.ChainedTable

/-!
# The connection table

One table of 256 chains, keyed by the source port alone, serves TCP and UDP. Its
operations are those of `add_connection`, `get_connection`, `is_connection_tracked`
and `remove_connection`, each of which runs under the table's lock.
-/
namespace ProxyTun
open Library

structure ConnectionInfo where
  srcPort : Port
  srcIp : Ip
  origDestIp : Ip
  origDestPort : Port
  isTracked : Bool
  lastActivity : Tick
  deriving DecidableEq, Repr

/-- The remote end that the entry stands for. -/
def ConnectionInfo.remote (c : ConnectionInfo) : Ip × Port := (c.origDestIp, c.origDestPort)

def connectionHash (port : Port) : Fin 256 := ⟨port.toNat % 256, Nat.mod_lt _ (by decide)⟩

abbrev ConnTable := ChainedTable ConnectionInfo.srcPort connectionHash

namespace ConnTable

/-- The update of an existing entry. Only the Linux engine refreshes its age. -/
def updateEntry (pf : Platform) (now : Tick) (srcIp destIp : Ip) (destPort : Port)
    (c : ConnectionInfo) : ConnectionInfo :=
  { c with
    srcIp := srcIp
    origDestIp := destIp
    origDestPort := destPort
    isTracked := true
    lastActivity := match pf with
      | .windows => c.lastActivity
      | .linux => now }

def freshEntry (now : Tick) (srcPort : Port) (srcIp destIp : Ip) (destPort : Port) :
    ConnectionInfo where
  srcPort := srcPort
  srcIp := srcIp
  origDestIp := destIp
  origDestPort := destPort
  isTracked := true
  lastActivity := now

theorem updateEntry_srcPort (pf : Platform) (now : Tick) (srcIp destIp : Ip) (destPort : Port)
    (c : ConnectionInfo) : (updateEntry pf now srcIp destIp destPort c).srcPort = c.srcPort := rfl

theorem freshEntry_srcPort (now : Tick) (srcPort : Port) (srcIp destIp : Ip) (destPort : Port) :
    (freshEntry now srcPort srcIp destIp destPort).srcPort = srcPort := rfl

/-- `add_connection`; `allocated` says whether its `malloc` succeeds. -/
def addConnection (pf : Platform) (now : Tick) (allocated : Bool) (srcPort : Port)
    (srcIp destIp : Ip) (destPort : Port) (t : ConnTable) : ConnTable :=
  match h : t.entry srcPort with
  | some _ => t.adjust srcPort (updateEntry pf now srcIp destIp destPort)
      (updateEntry_srcPort pf now srcIp destIp destPort)
  | none => if allocated then
      t.insert srcPort (freshEntry now srcPort srcIp destIp destPort)
        (freshEntry_srcPort now srcPort srcIp destIp destPort) h
    else t

/-- What `get_connection` returns. The Linux version also asks for `is_tracked`. -/
def getConnection (pf : Platform) (srcPort : Port) (t : ConnTable) : Option (Ip × Port) :=
  ((t.entry srcPort).filter fun c => pf = .windows || c.isTracked).map ConnectionInfo.remote

/-- The refresh that a successful `get_connection` leaves behind. -/
def touch (now : Tick) (srcPort : Port) (t : ConnTable) : ConnTable :=
  t.adjust srcPort (fun c => { c with lastActivity := now }) fun _ => rfl

def isConnectionTracked (srcPort : Port) (t : ConnTable) : Bool :=
  ((t.entry srcPort).filter fun c => c.isTracked).isSome

def removeConnection (srcPort : Port) (t : ConnTable) : ConnTable := t.unlink srcPort

/-- The destination that the table holds for a source port. -/
def destination (t : ConnTable) (p : Port) : Option (Ip × Port) :=
  (t.entry p).map ConnectionInfo.remote

variable (pf : Platform) (now : Tick) (t : ConnTable)

variable {t} in
theorem addConnection_of_found {p : Port} {c : ConnectionInfo} (h : t.entry p = some c)
    (allocated : Bool) (srcIp destIp : Ip) (destPort : Port) :
    addConnection pf now allocated p srcIp destIp destPort t =
      t.adjust p (updateEntry pf now srcIp destIp destPort)
        (updateEntry_srcPort pf now srcIp destIp destPort) := by
  unfold addConnection
  split
  · rfl
  · next hnone => cases hnone.symm.trans h

variable {t} in
theorem addConnection_of_new {p : Port} (h : t.entry p = none) (allocated : Bool)
    (srcIp destIp : Ip) (destPort : Port) :
    addConnection pf now allocated p srcIp destIp destPort t =
      if allocated then
        t.insert p (freshEntry now p srcIp destIp destPort)
          (freshEntry_srcPort now p srcIp destIp destPort) h
      else t := by
  unfold addConnection
  split
  · next hsome => cases hsome.symm.trans h
  · rfl

theorem entry_addConnection (allocated : Bool) (p : Port) (srcIp destIp : Ip) (destPort : Port)
    (q : Port) :
    (addConnection pf now allocated p srcIp destIp destPort t).entry q =
      if q = p then
        match t.entry p with
        | some c => some (updateEntry pf now srcIp destIp destPort c)
        | none => if allocated then some (freshEntry now p srcIp destIp destPort) else none
      else t.entry q := by
  cases h : t.entry p with
  | some c =>
    rw [addConnection_of_found pf now h, ChainedTable.entry_adjust, h]
    rfl
  | none =>
    rw [addConnection_of_new pf now h]
    split
    · rw [ChainedTable.entry_insert]
    · by_cases hq : q = p
      · simp [hq, h]
      · simp [hq]

theorem entry_touch (p q : Port) :
    (touch now p t).entry q =
      if q = p then (t.entry p).map fun c => { c with lastActivity := now } else t.entry q := by
  rw [touch, ChainedTable.entry_adjust]

theorem entry_removeConnection (p q : Port) :
    (removeConnection p t).entry q = if q = p then none else t.entry q :=
  t.entry_unlink p q

@[simp] theorem destination_empty (p : Port) : destination .empty p = none := rfl

theorem destination_addConnection (allocated : Bool) (p : Port) (srcIp destIp : Ip)
    (destPort : Port) (q : Port) :
    destination (addConnection pf now allocated p srcIp destIp destPort t) q =
      if q = p then
        if allocated ∨ (destination t p).isSome then some (destIp, destPort) else none
      else destination t q := by
  rw [destination, entry_addConnection]
  by_cases hq : q = p
  · subst hq
    cases h : t.entry q with
    | some c => simp [destination, h, updateEntry, ConnectionInfo.remote]
    | none =>
      cases allocated <;> simp [destination, h, freshEntry, ConnectionInfo.remote]
  · simp [hq, destination]

@[simp] theorem destination_touch (p q : Port) :
    destination (touch now p t) q = destination t q := by
  rw [destination, entry_touch]
  by_cases hq : q = p
  · subst hq
    cases h : t.entry q <;> simp [destination, h, ConnectionInfo.remote]
  · simp [hq, destination]

theorem destination_removeConnection (p q : Port) :
    destination (removeConnection p t) q = if q = p then none else destination t q := by
  rw [destination, entry_removeConnection]
  split_ifs <;> rfl

@[simp] theorem getConnection_windows (p : Port) :
    getConnection .windows p t = destination t p := by
  cases h : t.entry p <;> simp [getConnection, destination, h]

/-- Every entry of the table is tracked, since `add_connection` is its only source. -/
def AllTracked (t : ConnTable) : Prop := ∀ p c, t.entry p = some c → c.isTracked = true

theorem allTracked_empty : AllTracked .empty := by
  intro p c h
  simp at h

theorem AllTracked.addConnection {t : ConnTable} (h : AllTracked t) (allocated : Bool) (p : Port)
    (srcIp destIp : Ip) (destPort : Port) :
    AllTracked (addConnection pf now allocated p srcIp destIp destPort t) := by
  intro q c hc
  rw [entry_addConnection] at hc
  by_cases hq : q = p
  · rw [if_pos hq] at hc
    cases he : t.entry p with
    | some d =>
      rw [he] at hc
      obtain rfl := Option.some.inj hc
      rfl
    | none =>
      rw [he] at hc
      cases allocated with
      | false => simp at hc
      | true =>
        obtain rfl := Option.some.inj hc
        rfl
  · rw [if_neg hq] at hc
    exact h q c hc

theorem AllTracked.touch {t : ConnTable} (h : AllTracked t) (p : Port) :
    AllTracked (touch now p t) := by
  intro q c hc
  rw [entry_touch] at hc
  by_cases hq : q = p
  · rw [if_pos hq, Option.map_eq_some_iff] at hc
    obtain ⟨d, hd, rfl⟩ := hc
    exact h p d hd
  · rw [if_neg hq] at hc
    exact h q c hc

theorem AllTracked.removeConnection {t : ConnTable} (h : AllTracked t) (p : Port) :
    AllTracked (removeConnection p t) := by
  intro q c hc
  rw [entry_removeConnection] at hc
  split_ifs at hc
  exact h q c hc

theorem AllTracked.isConnectionTracked_iff {t : ConnTable} (h : AllTracked t) (p : Port) :
    isConnectionTracked p t = true ↔ (destination t p).isSome := by
  cases he : t.entry p with
  | none => simp [isConnectionTracked, destination, he]
  | some c => simp [isConnectionTracked, destination, he, h p c he]

end ConnTable
end ProxyTun
