import ProxyTun.Connections.Buckets
import ProxyTun.Library.Simulation

/-!
# The connection table as a map

What the table is for: it keeps, for a source port, the source address and the destination that
were stored last, and the time of the last activity. Calls that run one at a time on a clock
that does not wrap round get from the table the answers that this map gives.
-/
namespace ProxyTun
open Library Library.Simulation

/-- What is kept for a source port. The time is in milliseconds. -/
structure StoredConnection where
  srcIp : Ip
  dest : Ip × Port
  lastActivity : ℕ
  deriving DecidableEq, Repr

abbrev PortMap := Port → Option StoredConnection

inductive TableCall where
  | addConnection (srcPort : Port) (srcIp destIp : Ip) (destPort : Port)
  | removeConnection (srcPort : Port)
  | isConnectionTracked (srcPort : Port)
  | getConnection (srcPort : Port)
  | cleanupStaleConnections
  /-- The clock advances without passing its maximum. -/
  | tick (elapsed : Tick)
  deriving DecidableEq, Repr

inductive TableAnswer where
  | done
  | tracked (b : Bool)
  | connection (found : Option (Ip × Port))
  deriving DecidableEq, Repr

namespace PortMap

/-- An add keeps the time of a port that the map holds. -/
def add (now : ℕ) (p : Port) (srcIp : Ip) (dest : Ip × Port) (m : PortMap) : PortMap :=
  Function.update m p (some ⟨srcIp, dest, ((m p).map StoredConnection.lastActivity).getD now⟩)

def remove (p : Port) (m : PortMap) : PortMap := Function.update m p none

def refresh (now : ℕ) (p : Port) (m : PortMap) : PortMap :=
  Function.update m p ((m p).map fun r => { r with lastActivity := now })

theorem refresh_of_none {m : PortMap} {p : Port} (h : m p = none) (now : ℕ) :
    m.refresh now p = m := by
  rw [refresh, h, Option.map_none, ← h, Function.update_eq_self]

/-- Exactly what was idle for more than a minute goes. -/
def cleanup (now : ℕ) (m : PortMap) : PortMap :=
  fun p => (m p).filter fun r => now ≤ r.lastActivity + 60000

end PortMap

/-- The map with the time. -/
structure MapState where
  map : PortMap
  clock : ℕ

/-- The map's answer to a call. -/
def MapState.step (s : MapState) : TableCall → Option (TableAnswer × MapState)
  | .addConnection p srcIp destIp destPort =>
    some (.done, { s with map := s.map.add s.clock p srcIp (destIp, destPort) })
  | .removeConnection p => some (.done, { s with map := s.map.remove p })
  | .isConnectionTracked p => some (.tracked (s.map p).isSome, s)
  | .getConnection p =>
    some (.connection ((s.map p).map StoredConnection.dest),
      { s with map := s.map.refresh s.clock p })
  | .cleanupStaleConnections => some (.done, { s with map := s.map.cleanup s.clock })
  | .tick elapsed => some (.done, { s with clock := s.clock + elapsed.toNat })

structure TableState where
  buckets : Buckets
  clock : Tick

/-- The table's answer to a call. -/
def TableState.step (s : TableState) : TableCall → Option (TableAnswer × TableState)
  | .addConnection p srcIp destIp destPort =>
    some (.done, { s with buckets := s.buckets.addConnection s.clock p srcIp destIp destPort })
  | .removeConnection p => some (.done, { s with buckets := s.buckets.removeConnection p })
  | .isConnectionTracked p => some (.tracked (s.buckets.isConnectionTracked p), s)
  | .getConnection p =>
    let r := s.buckets.getConnection s.clock p
    some (.connection r.1, { s with buckets := r.2 })
  | .cleanupStaleConnections =>
    some (.done, { s with buckets := s.buckets.cleanupStaleConnections s.clock })
  | .tick elapsed =>
    if s.clock.toNat + elapsed.toNat < 2 ^ 64 then
      some (.done, { s with clock := s.clock + elapsed })
    else none

/-- What an entry keeps for its port. -/
def ConnectionInfo.stored (c : ConnectionInfo) : StoredConnection :=
  ⟨c.srcIp, c.remote, c.lastActivity.toNat⟩

/-- The table holds what the map holds. Its entries are tracked and not from the future. -/
structure Represents (s : TableState) (m : MapState) (t : ConnTable) : Prop where
  chains : Buckets.Chains s.buckets t
  tracked : t.AllTracked
  past : ∀ p c, t.entry p = some c → c.lastActivity.toNat ≤ s.clock.toNat
  map_eq : ∀ p, m.map p = (t.entry p).map ConnectionInfo.stored
  clock_eq : m.clock = s.clock.toNat

variable {s : TableState} {m : MapState} {t : ConnTable}

theorem Represents.map_eq_update (h : Represents s m t) {t' : ConnTable} {p : Port}
    {changed : Option ConnectionInfo} {r : Option StoredConnection}
    (hentry : ∀ q, t'.entry q = if q = p then changed else t.entry q)
    (hr : r = changed.map ConnectionInfo.stored) (q : Port) :
    Function.update m.map p r q = (t'.entry q).map ConnectionInfo.stored := by
  rw [hentry]
  by_cases hq : q = p
  · rw [hq, if_pos rfl, Function.update_self, hr]
  · rw [if_neg hq, Function.update_of_ne hq, h.map_eq]

theorem Represents.past_update (h : Represents s m t) {t' : ConnTable} {p : Port}
    {changed : Option ConnectionInfo}
    (hentry : ∀ q, t'.entry q = if q = p then changed else t.entry q)
    (hchanged : ∀ c, changed = some c → c.lastActivity.toNat ≤ s.clock.toNat) (q : Port)
    (c : ConnectionInfo) (hc : t'.entry q = some c) : c.lastActivity.toNat ≤ s.clock.toNat := by
  rw [hentry] at hc
  by_cases hq : q = p
  · rw [if_pos hq] at hc
    exact hchanged c hc
  · rw [if_neg hq] at hc
    exact h.past q c hc

theorem Represents.addConnection (h : Represents s m t) (p : Port) (srcIp destIp : Ip)
    (destPort : Port) :
    Represents { s with buckets := s.buckets.addConnection s.clock p srcIp destIp destPort }
      { m with map := m.map.add m.clock p srcIp (destIp, destPort) }
      (t.addConnection .windows s.clock true p srcIp destIp destPort) where
  chains := h.chains.addConnection s.clock p srcIp destIp destPort
  tracked := h.tracked.addConnection .windows s.clock true p srcIp destIp destPort
  past := by
    refine h.past_update (t.entry_addConnection .windows s.clock true p srcIp destIp destPort) ?_
    intro c hc
    cases hp : t.entry p with
    | some d =>
      rw [hp] at hc
      obtain rfl := Option.some.inj hc
      exact h.past p d hp
    | none =>
      rw [hp] at hc
      obtain rfl := Option.some.inj hc
      exact le_rfl
  map_eq := by
    apply h.map_eq_update (t.entry_addConnection .windows s.clock true p srcIp destIp destPort)
    rw [h.map_eq, h.clock_eq]
    cases t.entry p <;> rfl
  clock_eq := h.clock_eq

theorem Represents.removeConnection (h : Represents s m t) (p : Port) :
    Represents { s with buckets := s.buckets.removeConnection p } { m with map := m.map.remove p }
      (t.removeConnection p) where
  chains := h.chains.removeConnection p
  tracked := h.tracked.removeConnection p
  past := h.past_update (t.entry_removeConnection p) (fun _ hc => by cases hc)
  map_eq := h.map_eq_update (t.entry_removeConnection p) rfl
  clock_eq := h.clock_eq

theorem Represents.touch (h : Represents s m t) {b : Buckets} {p : Port}
    (hb : Buckets.Chains b (t.touch s.clock p)) :
    Represents { s with buckets := b } { m with map := m.map.refresh m.clock p }
      (t.touch s.clock p) where
  chains := hb
  tracked := h.tracked.touch s.clock p
  past := by
    apply h.past_update (t.entry_touch s.clock p)
    intro c hc
    obtain ⟨d, -, rfl⟩ := Option.map_eq_some_iff.mp hc
    exact le_rfl
  map_eq := by
    apply h.map_eq_update (t.entry_touch s.clock p)
    rw [h.map_eq, h.clock_eq]
    cases t.entry p <;> rfl
  clock_eq := h.clock_eq

/-- On a clock that does not wrap round the test for stale entries compares times. -/
theorem expired_eq {now : Tick} {c : ConnectionInfo}
    (h : c.lastActivity.toNat ≤ now.toNat) :
    (!Sweep.expired now c) = decide (now.toNat ≤ c.stored.lastActivity + 60000) := by
  have hlt : ¬ now < c.lastActivity := by
    rw [BitVec.lt_def]
    omega
  have hiff := Sweep.expired_iff now c
  rw [or_iff_left fun hand => hlt hand.1] at hiff
  rw [Bool.eq_iff_iff, Bool.not_eq_true', ← Bool.not_eq_true, hiff, decide_eq_true_eq]
  exact not_lt

theorem Represents.cleanup (h : Represents s m t) {b : Buckets}
    (hb : Buckets.Chains b (t.filter fun c => !Sweep.expired s.clock c)) :
    Represents { s with buckets := b } { m with map := m.map.cleanup m.clock }
      (t.filter fun c => !Sweep.expired s.clock c) where
  chains := hb
  tracked := by
    intro q c hc
    rw [ChainedTable.entry_filter] at hc
    exact h.tracked q c (Option.filter_eq_some_iff.mp hc).1
  past := by
    intro q c hc
    rw [ChainedTable.entry_filter] at hc
    exact h.past q c (Option.filter_eq_some_iff.mp hc).1
  map_eq := by
    intro q
    rw [ChainedTable.entry_filter]
    dsimp only [PortMap.cleanup]
    rw [h.map_eq, h.clock_eq]
    cases hq : t.entry q with
    | none => rfl
    | some c =>
      rw [Option.map_some, Option.filter_some, Option.filter_some, expired_eq (h.past q c hq)]
      split <;> rfl
  clock_eq := h.clock_eq

theorem Represents.tick (h : Represents s m t) {elapsed : Tick}
    (hfits : s.clock.toNat + elapsed.toNat < 2 ^ 64) :
    Represents { s with clock := s.clock + elapsed } { m with clock := m.clock + elapsed.toNat }
      t where
  chains := h.chains
  tracked := h.tracked
  past := by
    intro p c hc
    have hpast := h.past p c hc
    rw [BitVec.toNat_add, Nat.mod_eq_of_lt hfits]
    omega
  map_eq := h.map_eq
  clock_eq := by rw [h.clock_eq, BitVec.toNat_add, Nat.mod_eq_of_lt hfits]

/-- Each call gets the answer of the map, and the table goes on to hold what the map holds. -/
theorem Represents.step (h : Represents s m t) {call : TableCall} {answer : TableAnswer}
    {s' : TableState} (hstep : s.step call = some (answer, s')) :
    ∃ m', m.step call = some (answer, m') ∧ ∃ t', Represents s' m' t' := by
  cases call with
  | addConnection p srcIp destIp destPort =>
    obtain ⟨rfl, rfl⟩ := Prod.mk.inj (Option.some.inj hstep)
    exact ⟨_, rfl, _, h.addConnection p srcIp destIp destPort⟩
  | removeConnection p =>
    obtain ⟨rfl, rfl⟩ := Prod.mk.inj (Option.some.inj hstep)
    exact ⟨_, rfl, _, h.removeConnection p⟩
  | isConnectionTracked p =>
    obtain ⟨rfl, rfl⟩ := Prod.mk.inj (Option.some.inj hstep)
    refine ⟨m, ?_, t, h⟩
    have htracked : s.buckets.isConnectionTracked p = (m.map p).isSome := by
      rw [h.chains.isConnectionTracked, Bool.eq_iff_iff, h.tracked.isConnectionTracked_iff,
        h.map_eq, ConnTable.destination, Option.isSome_map, Option.isSome_map]
    rw [htracked]
    rfl
  | getConnection p =>
    obtain ⟨rfl, rfl⟩ := Prod.mk.inj (Option.some.inj hstep)
    obtain ⟨hfound, hchains⟩ := h.chains.getConnection s.clock p
    have hdest : t.destination p = (m.map p).map StoredConnection.dest := by
      rw [ConnTable.destination, h.map_eq, Option.map_map]
      rfl
    refine ⟨{ m with map := m.map.refresh m.clock p }, ?_, ?_⟩
    · rw [hfound, hdest]
      rfl
    · cases hp : t.destination p with
      | none =>
        rw [hp] at hchains
        have hnone : m.map p = none := by rwa [hp, eq_comm, Option.map_eq_none_iff] at hdest
        rw [PortMap.refresh_of_none hnone]
        exact ⟨t, { h with chains := hchains }⟩
      | some d =>
        rw [hp] at hchains
        exact ⟨_, h.touch hchains⟩
  | cleanupStaleConnections =>
    obtain ⟨rfl, rfl⟩ := Prod.mk.inj (Option.some.inj hstep)
    exact ⟨_, rfl, _, h.cleanup (h.chains.cleanup s.clock)⟩
  | tick elapsed =>
    simp only [TableState.step] at hstep
    split_ifs at hstep with hfits
    obtain ⟨rfl, rfl⟩ := Prod.mk.inj (Option.some.inj hstep)
    exact ⟨_, rfl, t, h.tick hfits⟩

/-- What was stored for a port last, and not removed since, when a call has been made. -/
def storedBy (p : Port) (last : Option (Ip × Ip × Port)) : TableCall → Option (Ip × Ip × Port)
  | .addConnection q srcIp destIp destPort =>
    if q = p then some (srcIp, destIp, destPort) else last
  | .removeConnection q => if q = p then none else last
  | _ => last

def lastStored (p : Port) (calls : List TableCall) : Option (Ip × Ip × Port) :=
  calls.foldl (storedBy p) none

/-- The map holds nothing for a port but what was stored for it last. -/
def HoldsLast (p : Port) (m : PortMap) (last : Option (Ip × Ip × Port)) : Prop :=
  ∀ r, m p = some r → last = some (r.srcIp, r.dest)

theorem HoldsLast.update {p q : Port} {m : PortMap} {last new : Option (Ip × Ip × Port)}
    {r : Option StoredConnection} (h : HoldsLast p m last)
    (hr : ∀ r', r = some r' → new = some (r'.srcIp, r'.dest)) :
    HoldsLast p (Function.update m q r) (if q = p then new else last) := by
  intro r' hr'
  by_cases hq : q = p
  · subst hq
    rw [Function.update_self] at hr'
    rw [if_pos rfl, hr r' hr']
  · rw [Function.update_of_ne (Ne.symm hq)] at hr'
    rw [if_neg hq, h r' hr']

theorem HoldsLast.step {p : Port} {last : Option (Ip × Ip × Port)} {m' : MapState}
    {call : TableCall} {answer : TableAnswer} (h : HoldsLast p m.map last)
    (hstep : m.step call = some (answer, m')) : HoldsLast p m'.map (storedBy p last call) := by
  cases call with
  | addConnection q srcIp destIp destPort =>
    obtain ⟨-, rfl⟩ := Prod.mk.inj (Option.some.inj hstep)
    apply h.update
    rintro r' ⟨⟩
    rfl
  | removeConnection q =>
    obtain ⟨-, rfl⟩ := Prod.mk.inj (Option.some.inj hstep)
    apply h.update
    rintro r' ⟨⟩
  | isConnectionTracked q =>
    obtain ⟨-, rfl⟩ := Prod.mk.inj (Option.some.inj hstep)
    exact h
  | getConnection q =>
    obtain ⟨-, rfl⟩ := Prod.mk.inj (Option.some.inj hstep)
    intro r hr
    dsimp only [PortMap.refresh] at hr
    by_cases hq : p = q
    · subst hq
      rw [Function.update_self] at hr
      obtain ⟨r', hr', rfl⟩ := Option.map_eq_some_iff.mp hr
      exact h r' hr'
    · rw [Function.update_of_ne hq] at hr
      exact h r hr
  | cleanupStaleConnections =>
    obtain ⟨-, rfl⟩ := Prod.mk.inj (Option.some.inj hstep)
    intro r hr
    exact h r (Option.filter_eq_some_iff.mp hr).1
  | tick elapsed =>
    obtain ⟨-, rfl⟩ := Prod.mk.inj (Option.some.inj hstep)
    exact h

theorem holdsLast_of_answers {p : Port} {last : Option (Ip × Ip × Port)} {m' : MapState}
    {calls : List TableCall} {results : List TableAnswer} (h : HoldsLast p m.map last)
    (hcalls : answers MapState.step m calls = some (results, m')) :
    HoldsLast p m'.map (calls.foldl (storedBy p) last) := by
  induction calls generalizing m last results with
  | nil =>
    obtain ⟨-, rfl⟩ := Prod.mk.inj (Option.some.inj hcalls)
    exact h
  | cons call calls ih =>
    obtain ⟨answer, u, rest, hstep, hrest, -⟩ := answers_cons_eq_some hcalls
    exact ih (h.step hstep) hrest

theorem nodup_ports (t : ConnTable) :
    ((List.finRange 256).flatMap fun i => (t.chain i).map ConnectionInfo.srcPort).Nodup := by
  rw [List.nodup_flatMap]
  refine ⟨fun i _ => t.distinct i, ?_⟩
  refine (List.nodup_finRange 256).imp ?_
  intro i j hij p hi hj
  obtain ⟨c, hc, rfl⟩ := List.mem_map.mp hi
  obtain ⟨d, hd, hsame⟩ := List.mem_map.mp hj
  exact hij ((t.placed i c hc).symm.trans ((congrArg connectionHash hsame.symm).trans
    (t.placed j d hd)))

/-- For every sequence of calls the table gives the answers of the map and holds what it holds,
a bucket holds only ports of its remainder, no port has two entries, what a lookup finds was
stored for the port last and not removed since, and a port is tracked exactly when a lookup
finds it. -/
theorem connectionTable_refines_map {clock : Tick} {calls : List TableCall}
    {results : List TableAnswer}
    (h : answers TableState.step ⟨Buckets.empty, clock⟩ calls = some (results, s)) :
    ∃ m, answers MapState.step ⟨fun _ => none, clock.toNat⟩ calls = some (results, m) ∧
      (∀ p, m.map p = ((s.buckets (connectionHash p)).find? fun c => c.srcPort = p).map
        ConnectionInfo.stored) ∧
      (∀ i, ∀ c ∈ s.buckets i, c.srcPort.toNat % 256 = i.val) ∧
      ((List.finRange 256).flatMap fun i => (s.buckets i).map ConnectionInfo.srcPort).Nodup ∧
      (∀ p d, (s.buckets.getConnection s.clock p).1 = some d →
        ∃ srcIp, lastStored p calls = some (srcIp, d)) ∧
      ∀ p, s.buckets.isConnectionTracked p = (s.buckets.getConnection s.clock p).1.isSome := by
  have hinitial : Represents ⟨Buckets.empty, clock⟩ ⟨fun _ => none, clock.toNat⟩ .empty :=
    ⟨Buckets.chains_empty, ConnTable.allTracked_empty, by simp, by simp, rfl⟩
  have hsim : ∀ s m call answer s', (∃ t, Represents s m t) →
      TableState.step s call = some (answer, s') →
        ∃ m', MapState.step m call = some (answer, m') ∧ ∃ t', Represents s' m' t' := by
    rintro s m call answer s' ⟨t, ht⟩ hstep
    exact ht.step hstep
  obtain ⟨m, hanswers, t, ht⟩ := answers_of_simulation hsim ⟨_, hinitial⟩ h
  have hbuckets : s.buckets = t.chain := ht.chains
  have hget (p : Port) : (s.buckets.getConnection s.clock p).1 =
      (m.map p).map StoredConnection.dest := by
    rw [(ht.chains.getConnection s.clock p).1, ConnTable.destination, ht.map_eq, Option.map_map]
    rfl
  refine ⟨m, hanswers, ?_, ?_, ?_, ?_, ?_⟩
  · intro p
    rw [ht.map_eq, hbuckets]
    rfl
  · intro i c hc
    rw [hbuckets] at hc
    exact congrArg Fin.val (t.placed i c hc)
  · rw [hbuckets]
    exact nodup_ports t
  · intro p d hd
    rw [hget] at hd
    obtain ⟨r, hr, rfl⟩ := Option.map_eq_some_iff.mp hd
    exact ⟨r.srcIp, holdsLast_of_answers (fun _ h => by cases h) hanswers r hr⟩
  · intro p
    rw [hget, ht.chains.isConnectionTracked, Bool.eq_iff_iff, ht.tracked.isConnectionTracked_iff,
      ConnTable.destination, ht.map_eq, Option.isSome_map, Option.isSome_map, Option.isSome_map]

/-- A port is added, found after half a minute, and found again a minute later. -/
def findTwice : List TableCall :=
  [.addConnection 5000 (ipv4 10 0 0 2) (ipv4 192 0 2 1) 443, .tick 30000, .getConnection 5000,
    .tick 60000, .cleanupStaleConnections, .getConnection 5000]

theorem connectionTable_refines_map_findTwice :
    ∃ s m results, answers TableState.step ⟨Buckets.empty, 0⟩ findTwice = some (results, s) ∧
      answers MapState.step ⟨fun _ => none, 0⟩ findTwice = some (results, m) := by
  obtain ⟨⟨results, s⟩, hrun⟩ : ∃ r, answers TableState.step ⟨Buckets.empty, 0⟩ findTwice =
      some r := ⟨_, rfl⟩
  obtain ⟨m, hm, -⟩ := connectionTable_refines_map hrun
  exact ⟨s, m, results, hrun, hm⟩

end ProxyTun
