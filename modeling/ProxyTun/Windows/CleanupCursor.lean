import ProxyTun.Connections.Cleanup
import ProxyTun.Library.LinkedTable

/-!
# The cursor of the cleanup

`cleanup_stale_connections` gives the lock up to free a node that it has unlinked, and keeps
`conn_ptr`, the place that the node was unlinked from. A step is one turn of a loop of a thread that
holds the lock, or one act of the cleanup without it. Addresses of freed nodes may be given out
again. As long as the kept place stays valid, the threads work on the table one after the other.
-/
namespace ProxyTun.Windows.CleanupCursor
open Library Library.Transition Library.NodeHeap Library.LinkedTable

abbrev Addr := ℕ
abbrev ConnMemory := Memory (Fin 256) Addr ConnectionInfo
abbrev ConnPtr := Slot (Fin 256) Addr

/-- How far the cleanup is, with the time it read first. -/
inductive Cleanup where
  | idle
  /-- It asks for the lock to begin with a bucket. -/
  | waiting (now : Tick) (i : Fin 256)
  /-- It holds the lock and looks at the node behind `conn_ptr`. -/
  | walking (now : Tick) (i : Fin 256) (connPtr : ConnPtr)
  /-- It has unlinked a node and given up the lock. -/
  | freeing (now : Tick) (i : Fin 256) (connPtr : ConnPtr) (toFree : Addr)
  /-- It has freed the node and asks for the lock to go on. -/
  | relocking (now : Tick) (i : Fin 256) (connPtr : ConnPtr)
  deriving DecidableEq, Repr

/-- How far another thread that holds the lock is. -/
inductive LockedSection where
  | adding (srcPort : Port) (srcIp destIp : Ip) (destPort : Port) (existing : Option Addr)
  | removing (srcPort : Port) (connPtr : ConnPtr)
  deriving DecidableEq, Repr

structure State where
  memory : ConnMemory
  cleanup : Cleanup
  other : Option LockedSection

def State.initial : State := ⟨⟨fun _ => none, fun _ => none⟩, .idle, none⟩

inductive Label where
  | startCleanup (now : Tick)
  /-- The next step of the cleanup. -/
  | cleanup
  | addConnection (srcPort : Port) (srcIp destIp : Ip) (destPort : Port)
  | removeConnection (srcPort : Port)
  /-- The next step of the thread in its locked section, with what `malloc` and the clock say. -/
  | proceed (malloc : Option Addr) (now : Tick)

def Cleanup.nextBucket (now : Tick) (i : Fin 256) : Cleanup :=
  if h : i.val + 1 < 256 then .waiting now ⟨i.val + 1, h⟩ else .idle

def Cleanup.holdsLock : Cleanup → Bool
  | .walking _ _ _ => true
  | _ => false

def State.lockIsFree (s : State) : Bool := s.other.isNone && !s.cleanup.holdsLock

/-- A step of `cleanup_stale_connections`. There is none if it reads a place that is gone. -/
def cleanupStep (s : State) : Option State :=
  match s.cleanup with
  | .idle => none
  | .waiting now i =>
    if s.lockIsFree then some { s with cleanup := .walking now i (.head i) } else none
  | .walking now i connPtr =>
    (s.memory.load connPtr).bind fun conn => match conn with
    | none => some { s with cleanup := .nextBucket now i }
    | some conn => (s.memory.heap conn).bind fun node =>
      if Sweep.expired now node.data then
        (s.memory.store connPtr node.next).map fun memory =>
          { s with memory := memory, cleanup := .freeing now i connPtr conn }
      else some { s with cleanup := .walking now i (.next conn) }
  | .freeing now i connPtr toFree =>
    some { s with memory := s.memory.free toFree, cleanup := .relocking now i connPtr }
  | .relocking now i connPtr =>
    if s.lockIsFree then some { s with cleanup := .walking now i connPtr } else none

/-- A step of `add_connection` or `remove_connection` in another thread, with the lock held. -/
def sectionStep (malloc : Option Addr) (now : Tick) (s : State) : Option State :=
  match s.other with
  | none => none
  | some (.adding srcPort srcIp destIp destPort (some existing)) =>
    (s.memory.heap existing).map fun node =>
      if node.data.srcPort = srcPort then
        let data := ConnTable.updateEntry .windows now srcIp destIp destPort node.data
        { s with memory := s.memory.write existing { node with data := data }, other := none }
      else { s with other := some (.adding srcPort srcIp destIp destPort node.next) }
  | some (.adding srcPort srcIp destIp destPort none) => match malloc with
    | none => some { s with other := none }
    | some conn =>
      if (s.memory.heap conn).isNone then
        let data := ConnTable.freshEntry now srcPort srcIp destIp destPort
        some { s with memory := s.memory.push (connectionHash srcPort) conn data, other := none }
      else none
  | some (.removing srcPort connPtr) =>
    (s.memory.load connPtr).bind fun conn => match conn with
    | none => some { s with other := none }
    | some toFree => (s.memory.heap toFree).bind fun node =>
      if node.data.srcPort = srcPort then
        (s.memory.store connPtr node.next).map fun memory =>
          { s with memory := memory.free toFree, other := none }
      else some { s with other := some (.removing srcPort (.next toFree)) }

def step (s : State) : Label → Option State
  | .startCleanup now =>
    if s.cleanup = .idle then
      some { s with cleanup := .waiting now (Sweep.start now).bucket }
    else none
  | .cleanup => cleanupStep s
  | .addConnection srcPort srcIp destIp destPort =>
    if s.lockIsFree then
      some { s with other := some (.adding srcPort srcIp destIp destPort
        (s.memory.heads (connectionHash srcPort))) }
    else none
  | .removeConnection srcPort =>
    if s.lockIsFree then
      some { s with other := some (.removing srcPort (.head (connectionHash srcPort))) }
    else none
  | .proceed malloc now => sectionStep malloc now s

/-- The node whose `next` field the cleanup points to while it does not hold the lock. -/
def Cleanup.unguarded : Cleanup → Option Addr
  | .freeing _ _ (.next a) _ => some a
  | .relocking _ _ (.next a) => some a
  | _ => none

/-- No connection is removed whose node the cleanup points into without holding the lock. -/
def Undisturbed (s : State) : Label → Prop
  | .removeConnection srcPort => ∀ a ∈ s.cleanup.unguarded, ∀ node ∈ s.memory.heap a,
      node.data.srcPort ≠ srcPort
  | _ => True

/-- While the cleanup holds the lock, its pointer is the head slot of the bucket or the `next`
field of a node that is in the bucket's list. -/
def CursorValid (s : State) : Prop :=
  ∀ now i connPtr, s.cleanup = .walking now i connPtr →
    ∃ l, Path s.memory.heap (s.memory.heads i) l none ∧ connPtr.In i l

/-- An expired node is taken out of the list of a bucket, and the other lists are as they were. -/
def Unlinks (now : Tick) (i : Fin 256) (toFree : Addr) (m m' : ConnMemory) : Prop :=
  ∃ chains before rest node, Holds m chains ∧ chains i = before ++ toFree :: rest ∧
    m.heap toFree = some node ∧ Sweep.expired now node.data = true ∧
    Holds m' (Function.update chains i (before ++ rest))

/-- While the cleanup holds the lock, it can take its next step. It leaves the lists alone or takes
one expired node out of the list of its bucket. -/
def RemovesExpired (s : State) : Prop :=
  ∀ now i connPtr, s.cleanup = .walking now i connPtr → ∃ t, cleanupStep s = some t ∧
    (t.memory = s.memory ∧ (∀ j p a, t.cleanup ≠ .freeing now j p a) ∨
      ∃ toFree, t.cleanup = .freeing now i connPtr toFree ∧ Unlinks now i toFree s.memory t.memory)

/-- The bucket and the pointer of the cleanup while it works on a bucket. -/
def Cleanup.cursor : Cleanup → Option (Fin 256 × ConnPtr)
  | .walking _ i connPtr | .freeing _ i connPtr _ | .relocking _ i connPtr => some (i, connPtr)
  | _ => none

/-- The node that the cleanup has unlinked and not freed yet. -/
def Cleanup.unlinked : Cleanup → Option Addr
  | .freeing _ _ _ toFree => some toFree
  | _ => none

/-- What the threads do to the table. -/
inductive Operation where
  | add (now : Tick) (allocated : Bool) (srcPort : Port) (srcIp destIp : Ip) (destPort : Port)
  | remove (srcPort : Port)
  /-- An entry that has expired goes. -/
  | evict (now : Tick) (srcPort : Port)

def Operation.perform (table : ConnTable) : Operation → Option ConnTable
  | .add now allocated srcPort srcIp destIp destPort =>
    some (table.addConnection .windows now allocated srcPort srcIp destIp destPort)
  | .remove srcPort => some (table.removeConnection srcPort)
  | .evict now srcPort =>
    if (table.entry srcPort).any (Sweep.expired now) then some (table.unlink srcPort) else none

def nodeBehind (memory : ConnMemory) (connPtr : ConnPtr) : Option (Node Addr ConnectionInfo) :=
  (memory.load connPtr).join.bind memory.heap

/-- The operation that a step finishes, if it is the one that does the work. -/
def commits (s : State) : Label → Option Operation
  | .cleanup => match s.cleanup with
    | .walking now _ connPtr => (nodeBehind s.memory connPtr).bind fun node =>
      if Sweep.expired now node.data then some (.evict now node.data.srcPort) else none
    | _ => none
  | .proceed malloc now => match s.other with
    | some (.adding srcPort srcIp destIp destPort existing) =>
      if (existing.bind s.memory.heap).all fun node => node.data.srcPort = srcPort then
        some (.add now malloc.isSome srcPort srcIp destIp destPort)
      else none
    | some (.removing srcPort connPtr) =>
      if (nodeBehind s.memory connPtr).all fun node => node.data.srcPort = srcPort then
        some (.remove srcPort)
      else none
    | none => none
  | _ => none

def Passed (memory : ConnMemory) (srcPort : Port) (before : List Addr) : Prop :=
  ∀ a ∈ before, ∀ node, memory.heap a = some node → node.data.srcPort ≠ srcPort

/-- A locked section has come to a place of the list of its bucket without finding its port, and a
removal is not for the node that the cleanup points into. -/
def LockedSection.Sound (memory : ConnMemory) (cleanup : Cleanup) (chains : Fin 256 → List Addr) :
    LockedSection → Prop
  | .adding srcPort _ _ _ existing => ∃ before rest,
    chains (connectionHash srcPort) = before ++ rest ∧ existing = rest.head? ∧
      Passed memory srcPort before
  | .removing srcPort connPtr =>
    (∃ before rest, chains (connectionHash srcPort) = before ++ rest ∧
      connPtr = slotAfter (connectionHash srcPort) before ∧ Passed memory srcPort before) ∧
      ∀ a ∈ cleanup.unguarded, ∀ node ∈ memory.heap a, node.data.srcPort ≠ srcPort

/-- The lists of the buckets hold a table, and all that points into them is as it should be. -/
structure Sound (s : State) (chains : Fin 256 → List Addr) (table : ConnTable) : Prop where
  stores : Stores s.memory chains table
  cursor : ∀ c ∈ s.cleanup.cursor, c.2.In c.1 (chains c.1)
  unlinked : ∀ a ∈ s.cleanup.unlinked, (∀ i, a ∉ chains i) ∧ s.memory.heap a ≠ none
  other : ∀ c ∈ s.other, c.Sound s.memory s.cleanup chains
  exclusive : s.other ≠ none → s.cleanup.holdsLock = false

/-- A step leads to a state whose lists hold the table behind the operation that it commits. -/
def Follows (s : State) (l : Label) (t : State) (table : ConnTable) : Prop :=
  ∃ table', run Operation.perform table (commits s l).toList = some table' ∧
    ∃ chains', Sound t chains' table'

theorem unguarded_of_cursor {cleanup : Cleanup} {i : Fin 256} {a : Addr}
    (hcursor : cleanup.cursor = some (i, .next a)) (hlock : cleanup.holdsLock = false) :
    cleanup.unguarded = some a := by
  cases cleanup with
  | idle => cases hcursor
  | waiting => cases hcursor
  | walking => cases hlock
  | freeing now j connPtr toFree =>
    obtain ⟨rfl, rfl⟩ := Prod.mk.inj (Option.some.inj hcursor)
    rfl
  | relocking now j connPtr =>
    obtain ⟨rfl, rfl⟩ := Prod.mk.inj (Option.some.inj hcursor)
    rfl

variable {s t : State} {chains : Fin 256 → List Addr} {table : ConnTable} {l : Label}

theorem sound_initial : Sound .initial (fun _ => []) .empty where
  stores := ⟨⟨fun _ => rfl, fun _ _ _ h => by cases h⟩, fun _ => rfl⟩
  cursor _ h := by cases h
  unlinked _ h := by cases h
  other _ h := by cases h
  exclusive h := absurd rfl h

theorem other_eq_none_of_lockIsFree (h : s.lockIsFree = true) :
    s.other = none ∧ s.cleanup.holdsLock = false := by
  rw [State.lockIsFree, Bool.and_eq_true, Option.isNone_iff_eq_none, Bool.not_eq_true'] at h
  exact h

theorem Follows.of_none (hcommits : commits s l = none) (h : Sound t chains table) :
    Follows s l t table := by
  refine ⟨table, ?_, chains, h⟩
  rw [hcommits]
  rfl

theorem Follows.of_some (op : Operation) {table' : ConnTable} (hcommits : commits s l = some op)
    (hperform : op.perform table = some table') (h : Sound t chains table') :
    Follows s l t table := by
  refine ⟨table', ?_, chains, h⟩
  rw [hcommits]
  exact run_cons_eq_some.mpr ⟨table', hperform, rfl⟩

/-- The cleanup may go anywhere in its list, unless it gives up the lock there. -/
theorem Sound.setCleanup (h : Sound s chains table) {cleanup : Cleanup}
    (hcursor : ∀ c ∈ cleanup.cursor, c.2.In c.1 (chains c.1)) (hunlinked : cleanup.unlinked = none)
    (hunguarded : cleanup.unguarded = none)
    (hlock : s.other ≠ none → cleanup.holdsLock = false) :
    Sound { s with cleanup := cleanup } chains table where
  stores := h.stores
  cursor := hcursor
  unlinked a ha := by
    rw [hunlinked] at ha
    cases ha
  other c hc := by
    have hsound := h.other c hc
    cases c with
    | adding => exact hsound
    | removing srcPort connPtr =>
      refine ⟨hsound.1, fun a ha => ?_⟩
      rw [hunguarded] at ha
      cases ha
  exclusive := hlock

/-- Without another thread in a locked section the cleanup may take the lock. -/
theorem Sound.walk (h : Sound s chains table) (hother : s.other = none) (now : Tick) {i : Fin 256}
    {connPtr : ConnPtr} (hin : connPtr.In i (chains i)) :
    Sound { s with cleanup := .walking now i connPtr } chains table := by
  refine h.setCleanup ?_ rfl rfl fun hne => absurd hother hne
  rintro c ⟨⟩
  exact hin

theorem Sound.nextBucket (h : Sound s chains table) (now : Tick) (i : Fin 256) :
    Sound { s with cleanup := .nextBucket now i } chains table := by
  unfold Cleanup.nextBucket
  split <;> exact h.setCleanup (fun c hc => by cases hc) rfl rfl fun _ => rfl

theorem holdsLock_nextBucket (now : Tick) (i : Fin 256) :
    (Cleanup.nextBucket now i).holdsLock = false := by
  unfold Cleanup.nextBucket
  split <;> rfl

theorem nextBucket_ne_freeing (now : Tick) (i j : Fin 256) (p : ConnPtr) (a : Addr) :
    Cleanup.nextBucket now i ≠ .freeing now j p a := by
  unfold Cleanup.nextBucket
  split <;> exact fun h => by cases h

theorem Sound.cursor_in (h : Sound s chains table) {i : Fin 256} {connPtr : ConnPtr}
    (hcursor : s.cleanup.cursor = some (i, connPtr)) : connPtr.In i (chains i) :=
  h.cursor (i, connPtr) hcursor

theorem Sound.other_eq_none (h : Sound s chains table) (hlock : s.cleanup.holdsLock = true) :
    s.other = none := by
  by_contra hne
  rw [h.exclusive hne] at hlock
  cases hlock

/-- The cleanup keeps the place that it has unlinked a node from, and the node is still there. -/
theorem Sound.unlink (h : Sound s chains table) (hother : s.other = none) {memory : ConnMemory}
    {i : Fin 256} {a : Addr} {p : Option Addr} {before rest : List Addr}
    (hi : chains i = before ++ a :: rest)
    (hstore : s.memory.store (slotAfter i before) p = some memory) {table' : ConnTable}
    (hstores : Stores memory (Function.update chains i (before ++ rest)) table') (now : Tick) :
    Sound { s with memory := memory, cleanup := .freeing now i (slotAfter i before) a }
      (Function.update chains i (before ++ rest)) table' where
  stores := hstores
  cursor := by
    rintro c ⟨⟩
    rw [Function.update_self]
    exact slotAfter_in i before rest
  unlinked := by
    rintro b ⟨⟩
    refine ⟨h.stores.not_mem_cut hi, fun hnone => ?_⟩
    obtain ⟨node, hnode⟩ := h.stores.heap_of_mem (i := i) (a := a) (by rw [hi]; simp)
    have hdata := Memory.store_data hstore a
    rw [hnone, hnode] at hdata
    cases hdata
  other c hc := by
    rw [hother] at hc
    cases hc
  exclusive hne := absurd hother hne

section Turn
variable {now : Tick} {i : Fin 256} {connPtr : ConnPtr} {conn : Addr}
  {node : Node Addr ConnectionInfo}

theorem cleanupStep_end (hwalking : s.cleanup = .walking now i connPtr)
    (hload : s.memory.load connPtr = some none) :
    cleanupStep s = some { s with cleanup := .nextBucket now i } := by
  simp only [cleanupStep, hwalking, hload, Option.bind_some]

theorem cleanupStep_unlinks {memory : ConnMemory} (hwalking : s.cleanup = .walking now i connPtr)
    (hload : s.memory.load connPtr = some (some conn)) (hnode : s.memory.heap conn = some node)
    (hexpired : Sweep.expired now node.data = true)
    (hstore : s.memory.store connPtr node.next = some memory) :
    cleanupStep s =
      some { s with memory := memory, cleanup := .freeing now i connPtr conn } := by
  simp only [cleanupStep, hwalking, hload, Option.bind_some, hnode, if_pos hexpired, hstore,
    Option.map_some]

theorem cleanupStep_advances (hwalking : s.cleanup = .walking now i connPtr)
    (hload : s.memory.load connPtr = some (some conn)) (hnode : s.memory.heap conn = some node)
    (hexpired : ¬ Sweep.expired now node.data = true) :
    cleanupStep s = some { s with cleanup := .walking now i (.next conn) } := by
  simp only [cleanupStep, hwalking, hload, Option.bind_some, hnode, if_neg hexpired]

end Turn

theorem sound_walking (h : Sound s chains table) {now : Tick} {i : Fin 256} {connPtr : ConnPtr}
    (hwalking : s.cleanup = .walking now i connPtr) :
    ∃ t, cleanupStep s = some t ∧ Follows s .cleanup t table ∧
      (t.memory = s.memory ∧ (∀ j p a, t.cleanup ≠ .freeing now j p a) ∨
        ∃ toFree, t.cleanup = .freeing now i connPtr toFree ∧
          Unlinks now i toFree s.memory t.memory) := by
  have hother : s.other = none := h.other_eq_none (by rw [hwalking]; rfl)
  have hin : connPtr.In i (chains i) := h.cursor_in (by rw [hwalking]; rfl)
  obtain ⟨before, rest, hi, rfl, hload⟩ := h.stores.load_in hin
  cases rest with
  | nil =>
    refine ⟨_, cleanupStep_end hwalking hload, .of_none ?_ (h.nextBucket now i),
      Or.inl ⟨rfl, nextBucket_ne_freeing now i⟩⟩
    simp only [commits, hwalking, nodeBehind, hload, List.head?_nil, Option.join_some,
      Option.bind_none]
  | cons conn rest =>
    obtain ⟨node, m', hnode, hstore, hstores⟩ := h.stores.unlink hi
    have hbehind : nodeBehind s.memory (slotAfter i before) = some node := by
      simp only [nodeBehind, hload, List.head?_cons, Option.join_some, Option.bind_some, hnode]
    by_cases hexpired : Sweep.expired now node.data = true
    · have hentry := (h.stores.entry (i := i) (a := conn) (by rw [hi]; simp) hnode).2
      refine ⟨_, cleanupStep_unlinks hwalking hload hnode hexpired hstore,
        .of_some (.evict now node.data.srcPort) ?_ ?_ (h.unlink hother hi hstore hstores now),
        Or.inr ⟨conn, rfl, chains, before, rest, node, h.stores.toHolds, hi, hnode, hexpired,
          hstores.toHolds⟩⟩
      · simp only [commits, hwalking, hbehind, Option.bind_some, if_pos hexpired]
      · rw [Operation.perform, hentry, Option.any_some, if_pos hexpired]
    · refine ⟨_, cleanupStep_advances hwalking hload hnode hexpired,
        .of_none ?_ (h.walk hother now (Or.inr ⟨conn, by rw [hi]; simp, rfl⟩)),
        Or.inl ⟨rfl, fun j p a hfreeing => by cases hfreeing⟩⟩
      simp only [commits, hwalking, hbehind, Option.bind_some, if_neg hexpired]

theorem sound_freeing (h : Sound s chains table) {now : Tick} {i : Fin 256} {connPtr : ConnPtr}
    {toFree : Addr} (hfreeing : s.cleanup = .freeing now i connPtr toFree) :
    Sound { s with memory := s.memory.free toFree, cleanup := .relocking now i connPtr } chains
      table := by
  obtain ⟨hout, -⟩ := h.unlinked toFree (by rw [hfreeing]; rfl)
  have hstill : ∀ a node, (s.memory.free toFree).heap a = some node →
      s.memory.heap a = some node := by
    intro a node hnode
    by_cases ha : a = toFree
    · subst ha
      rw [Memory.heap_free_self] at hnode
      cases hnode
    · rwa [Memory.heap_free_of_ne _ ha] at hnode
  refine ⟨h.stores.free hout, ?_, fun a ha => (by cases ha), ?_, fun _ => rfl⟩
  · rintro c ⟨⟩
    exact h.cursor_in (by rw [hfreeing]; rfl)
  · intro c hc
    have hsound := h.other c hc
    rw [hfreeing] at hsound
    cases c with
    | adding =>
      obtain ⟨before, rest, hi, hexisting, hpassed⟩ := hsound
      exact ⟨before, rest, hi, hexisting, fun a ha node hnode =>
        hpassed a ha node (hstill a node hnode)⟩
    | removing =>
      obtain ⟨⟨before, rest, hi, hplace, hpassed⟩, hunguarded⟩ := hsound
      refine ⟨⟨before, rest, hi, hplace, fun a ha node hnode =>
        hpassed a ha node (hstill a node hnode)⟩, ?_⟩
      cases connPtr with
      | head => exact fun a ha => by cases ha
      | next b => exact fun a ha node hnode => hunguarded a ha node (hstill a node hnode)

theorem sound_cleanup (h : Sound s chains table) (hstep : cleanupStep s = some t) :
    Follows s .cleanup t table := by
  cases hcleanup : s.cleanup with
  | idle =>
    simp only [cleanupStep, hcleanup] at hstep
    cases hstep
  | waiting now i =>
    simp only [cleanupStep, hcleanup, Option.ite_none_right_eq_some] at hstep
    obtain ⟨hfree, ht⟩ := hstep
    obtain rfl := Option.some.inj ht
    refine .of_none ?_ (h.walk (other_eq_none_of_lockIsFree hfree).1 now (Or.inl rfl))
    simp only [commits, hcleanup]
  | walking now i connPtr =>
    obtain ⟨u, hu, hfollows, -⟩ := sound_walking h hcleanup
    obtain rfl := Option.some.inj (hu.symm.trans hstep)
    exact hfollows
  | freeing now i connPtr toFree =>
    simp only [cleanupStep, hcleanup] at hstep
    obtain rfl := Option.some.inj hstep
    refine .of_none ?_ (sound_freeing h hcleanup)
    simp only [commits, hcleanup]
  | relocking now i connPtr =>
    simp only [cleanupStep, hcleanup, Option.ite_none_right_eq_some] at hstep
    obtain ⟨hfree, ht⟩ := hstep
    obtain rfl := Option.some.inj ht
    have hin : connPtr.In i (chains i) := h.cursor_in (by rw [hcleanup]; rfl)
    refine .of_none ?_ (h.walk (other_eq_none_of_lockIsFree hfree).1 now hin)
    simp only [commits, hcleanup]

theorem Passed.concat {memory : ConnMemory} {srcPort : Port} {before : List Addr} {a : Addr}
    {node : Node Addr ConnectionInfo} (h : Passed memory srcPort before)
    (hnode : memory.heap a = some node) (hport : node.data.srcPort ≠ srcPort) :
    Passed memory srcPort (before ++ [a]) := by
  intro b hb node' hnode'
  rcases List.mem_append.mp hb with hb | hb
  · exact h b hb node' hnode'
  · obtain rfl := List.mem_singleton.mp hb
    obtain rfl := Option.some.inj (hnode.symm.trans hnode')
    exact hport

theorem Sound.entry_eq_none (h : Sound s chains table) {srcPort : Port} {before : List Addr}
    (hi : chains (connectionHash srcPort) = before ++ [])
    (hpassed : Passed s.memory srcPort before) : table.entry srcPort = none := by
  refine h.stores.entry_eq_none fun a ha => ?_
  rw [hi, List.append_nil] at ha
  exact hpassed a ha

/-- What a locked section leaves behind when it is over. -/
theorem Sound.release (h : Sound s chains table) {memory : ConnMemory}
    {chains' : Fin 256 → List Addr} {table' : ConnTable} (hstores : Stores memory chains' table')
    (hcursor : ∀ c ∈ s.cleanup.cursor, c.2.In c.1 (chains c.1) → c.2.In c.1 (chains' c.1))
    (hunlinked : ∀ a ∈ s.cleanup.unlinked, (∀ i, a ∉ chains i) → s.memory.heap a ≠ none →
      (∀ i, a ∉ chains' i) ∧ memory.heap a ≠ none) :
    Sound { s with memory := memory, other := none } chains' table' where
  stores := hstores
  cursor c hc := hcursor c hc (h.cursor c hc)
  unlinked a ha := hunlinked a ha (h.unlinked a ha).1 (h.unlinked a ha).2
  other c hc := by cases hc
  exclusive hne := absurd rfl hne

/-- A locked section that is over leaves the lists alone. -/
theorem Sound.release_unchanged (h : Sound s chains table) {table' : ConnTable}
    (hstores : Stores s.memory chains table') :
    Sound { s with other := none } chains table' :=
  h.release hstores (fun _ _ hin => hin) fun _ _ hout hheap => ⟨hout, hheap⟩

/-- An update, an insertion or a failed allocation at the end of `add_connection`. -/
theorem sound_adding (h : Sound s chains table) {srcPort : Port} {srcIp destIp : Ip}
    {destPort : Port} {existing : Option Addr}
    (hadding : s.other = some (.adding srcPort srcIp destIp destPort existing))
    {malloc : Option Addr} {now : Tick} (hstep : sectionStep malloc now s = some t) :
    Follows s (.proceed malloc now) t table := by
  obtain ⟨before, rest, hi, rfl, hpassed⟩ := h.other _ hadding
  cases rest with
  | nil =>
    have hnone : table.entry srcPort = none := h.entry_eq_none hi hpassed
    have hcommits : commits s (.proceed malloc now) =
        some (.add now malloc.isSome srcPort srcIp destIp destPort) := by
      simp only [commits, hadding, List.head?_nil, Option.bind_none, Option.all_none, if_true]
    have hperform := congrArg some (ConnTable.addConnection_of_new .windows now hnone malloc.isSome
      srcIp destIp destPort)
    cases malloc with
    | none =>
      simp only [sectionStep, hadding, List.head?_nil] at hstep
      obtain rfl := Option.some.inj hstep
      exact .of_some _ hcommits hperform (h.release_unchanged h.stores)
    | some conn =>
      simp only [sectionStep, hadding, List.head?_nil, Option.ite_none_right_eq_some,
        Option.isNone_iff_eq_none] at hstep
      obtain ⟨hconn, ht⟩ := hstep
      obtain rfl := Option.some.inj ht
      refine .of_some _ hcommits hperform (h.release (h.stores.push hconn
        (ConnTable.freshEntry_srcPort now srcPort srcIp destIp destPort) hnone) ?_ ?_)
      · exact fun c _ hin => hin.mono (subset_pushed chains _ c.1 conn)
      · intro a _ hout hheap
        have hne : a ≠ conn := fun heq => hheap (heq ▸ hconn)
        refine ⟨fun j hj => ?_, ?_⟩
        · rcases eq_or_mem_of_mem_pushed hj with ⟨heq, -⟩ | hj
          · exact hne heq
          · exact hout j hj
        · rwa [Memory.heap_push_of_ne _ _ _ hne]
  | cons existing rest =>
    have hmem : existing ∈ chains (connectionHash srcPort) := by
      rw [hi]
      exact List.mem_append_right _ List.mem_cons_self
    simp only [sectionStep, hadding, List.head?_cons, Option.map_eq_some_iff] at hstep
    obtain ⟨node, hnode, rfl⟩ := hstep
    by_cases hport : node.data.srcPort = srcPort
    · subst hport
      rw [if_pos rfl]
      have hentry := (h.stores.entry hmem hnode).2
      have hperform := congrArg some (ConnTable.addConnection_of_found .windows now hentry
        malloc.isSome srcIp destIp destPort)
      refine .of_some (.add now malloc.isSome node.data.srcPort srcIp destIp destPort) ?_ hperform
        (h.release (h.stores.write hmem hnode _ _) (fun _ _ hin => hin) ?_)
      · simp only [commits, hadding, List.head?_cons, Option.bind_some, hnode, Option.all_some,
          decide_true, if_true]
      · intro a _ hout hheap
        have hne : a ≠ existing := fun heq => hout _ (heq ▸ hmem)
        exact ⟨hout, by rwa [Memory.heap_write_of_ne _ hne]⟩
    · rw [if_neg hport]
      refine .of_none ?_ ⟨h.stores, h.cursor, h.unlinked, ?_,
        fun _ => h.exclusive (by simp [hadding])⟩
      · simp [commits, hadding, hnode, hport]
      · rintro c ⟨⟩
        exact ⟨before ++ [existing], rest, by rw [hi]; simp, h.stores.next_eq hi hnode,
          hpassed.concat hnode hport⟩

theorem sound_removing (h : Sound s chains table) {srcPort : Port} {connPtr : ConnPtr}
    (hremoving : s.other = some (.removing srcPort connPtr)) {malloc : Option Addr} {now : Tick}
    (hstep : sectionStep malloc now s = some t) : Follows s (.proceed malloc now) t table := by
  obtain ⟨⟨before, rest, hi, rfl, hpassed⟩, hunguarded⟩ := h.other _ hremoving
  have hload := h.stores.load_slotAfter hi
  cases rest with
  | nil =>
    simp only [sectionStep, hremoving, hload, List.head?_nil, Option.bind_some] at hstep
    obtain rfl := Option.some.inj hstep
    have hstores := h.stores.unlink_of_none (h.entry_eq_none hi hpassed)
    refine .of_some (.remove srcPort) ?_ rfl (h.release_unchanged hstores)
    simp only [commits, hremoving, nodeBehind, hload, List.head?_nil, Option.join_some,
      Option.bind_none, Option.all_none, if_true]
  | cons toFree rest =>
    obtain ⟨node, m', hnode, hstore, hstores⟩ := h.stores.unlink hi
    have hmem : toFree ∈ chains (connectionHash srcPort) := by
      rw [hi]
      exact List.mem_append_right _ List.mem_cons_self
    have hbehind : nodeBehind s.memory (slotAfter (connectionHash srcPort) before) = some node := by
      simp only [nodeBehind, hload, List.head?_cons, Option.join_some, Option.bind_some, hnode]
    by_cases hport : node.data.srcPort = srcPort
    · simp only [sectionStep, hremoving, hload, List.head?_cons, Option.bind_some, hnode,
        if_pos hport, hstore, Option.map_some] at hstep
      obtain rfl := Option.some.inj hstep
      rw [hport] at hstores
      refine .of_some (.remove srcPort) ?_ rfl
        (h.release (hstores.free (h.stores.not_mem_cut hi)) ?_ ?_)
      · simp only [commits, hremoving, hbehind, Option.all_some, hport, decide_true, if_true]
      · rintro ⟨j, place⟩ hc hplace
        by_cases hj : j = connectionHash srcPort
        · have hne : place ≠ .next toFree := by
            rintro rfl
            have hpointed := unguarded_of_cursor hc (h.exclusive (by simp [hremoving]))
            exact hunguarded toFree hpointed node hnode hport
          subst hj
          rw [hi] at hplace
          rw [Function.update_self]
          exact hplace.cut hne
        · rwa [Function.update_of_ne hj]
      · intro a _ hout hheap
        refine ⟨fun j hj => hout j (mem_of_mem_cut hi hj), fun hnone => hheap ?_⟩
        have hne : a ≠ toFree := fun heq => hout _ (heq ▸ hmem)
        have hsame := Memory.store_data hstore a
        rw [Memory.heap_free_of_ne _ hne] at hnone
        rw [hnone] at hsame
        exact Option.map_eq_none_iff.mp hsame.symm
    · simp only [sectionStep, hremoving, hload, List.head?_cons, Option.bind_some, hnode,
        if_neg hport] at hstep
      obtain rfl := Option.some.inj hstep
      refine .of_none ?_ ⟨h.stores, h.cursor, h.unlinked, ?_,
        fun _ => h.exclusive (by simp [hremoving])⟩
      · simp [commits, hremoving, hbehind, hport]
      · rintro c ⟨⟩
        exact ⟨⟨before ++ [toFree], rest, by rw [hi]; simp, (slotAfter_concat _ before toFree).symm,
          hpassed.concat hnode hport⟩, hunguarded⟩

theorem sound_step (h : Sound s chains table) (hguard : Undisturbed s l)
    (hstep : step s l = some t) : Follows s l t table := by
  cases l with
  | startCleanup now =>
    simp only [step, Option.ite_none_right_eq_some] at hstep
    obtain ⟨-, ht⟩ := hstep
    obtain rfl := Option.some.inj ht
    exact .of_none rfl (h.setCleanup (fun c hc => by cases hc) rfl rfl fun _ => rfl)
  | cleanup => exact sound_cleanup h hstep
  | addConnection srcPort srcIp destIp destPort =>
    simp only [step, Option.ite_none_right_eq_some] at hstep
    obtain ⟨hfree, ht⟩ := hstep
    obtain rfl := Option.some.inj ht
    refine .of_none rfl ⟨h.stores, h.cursor, h.unlinked, ?_,
      fun _ => (other_eq_none_of_lockIsFree hfree).2⟩
    rintro c ⟨⟩
    exact ⟨[], _, rfl, Option.some.inj (h.stores.load_slotAfter (List.nil_append _).symm),
      fun a ha => absurd ha List.not_mem_nil⟩
  | removeConnection srcPort =>
    simp only [step, Option.ite_none_right_eq_some] at hstep
    obtain ⟨hfree, ht⟩ := hstep
    obtain rfl := Option.some.inj ht
    refine .of_none rfl ⟨h.stores, h.cursor, h.unlinked, ?_,
      fun _ => (other_eq_none_of_lockIsFree hfree).2⟩
    rintro c ⟨⟩
    exact ⟨⟨[], _, rfl, rfl, fun a ha => absurd ha List.not_mem_nil⟩, hguard⟩
  | proceed malloc now =>
    cases hother : s.other with
    | none =>
      simp only [step, sectionStep, hother] at hstep
      cases hstep
    | some inside =>
      cases inside with
      | adding => exact sound_adding h hother hstep
      | removing => exact sound_removing h hother hstep

theorem sound_run {ls : List Label} (hrun : run step .initial ls = some s)
    (hguard : Guarded step Undisturbed .initial ls) :
    ∃ table, run Operation.perform .empty (committed step commits .initial ls) = some table ∧
      ∃ chains, Sound s chains table := by
  refine run_committed_of_simulation (R := fun table s => ∃ chains, Sound s chains table) ?_ hrun
    hguard ⟨_, sound_initial⟩
  rintro u l v table ⟨chains, h⟩ hl hv
  exact sound_step h hl hv

/-- In every run in which no thread removes the connection that the cleanup points into without
holding the lock, the lists hold the table that the operations of the threads make of an empty one,
each of them done at once. -/
theorem stores_of_undisturbed {ls : List Label} (hrun : run step .initial ls = some s)
    (hguard : Guarded step Undisturbed .initial ls) :
    ∃ table, run Operation.perform .empty (committed step commits .initial ls) = some table ∧
      ∃ chains, Stores s.memory chains table := by
  obtain ⟨table, htable, chains, h⟩ := sound_run hrun hguard
  exact ⟨table, htable, chains, h.stores⟩

/-- In every run in which no thread removes the connection that the cleanup points into without
holding the lock, the pointer is a place of the list of its bucket whenever the cleanup holds the
lock, and each removal takes one expired node out of that list. -/
theorem cursorValid_of_undisturbed {ls : List Label} (hrun : run step .initial ls = some s)
    (hguard : Guarded step Undisturbed .initial ls) : CursorValid s ∧ RemovesExpired s := by
  obtain ⟨table, -, chains, h⟩ := sound_run hrun hguard
  constructor
  · intro now i connPtr hwalking
    have hin : connPtr.In i (chains i) := h.cursor_in (by rw [hwalking]; rfl)
    exact ⟨chains i, h.stores.path i, hin⟩
  · intro now i connPtr hwalking
    obtain ⟨t, ht, -, hremoves⟩ := sound_walking h hwalking
    exact ⟨t, ht, hremoves⟩

instance decidableUndisturbed (s : State) : ∀ l : Label, Decidable (Undisturbed s l)
  | .removeConnection srcPort => inferInstanceAs (Decidable (∀ a ∈ s.cleanup.unguarded,
      ∀ node ∈ s.memory.heap a, node.data.srcPort ≠ srcPort))
  | .startCleanup _ | .cleanup | .addConnection _ _ _ _ | .proceed _ _ => .isTrue trivial

/-- Two connections go into one bucket, a minute apart, and the cleanup unlinks the older one behind
the younger one. -/
def unlinksOlder : List Label :=
  [.addConnection 1 0 0 80, .proceed (some 0) 0,
    .addConnection 257 0 0 80, .proceed none 60000, .proceed (some 1) 60000,
    .startCleanup 70000, .cleanup, .cleanup, .cleanup, .cleanup, .cleanup]

/-- Another thread removes a connection, and then the cleanup takes the lock again. -/
def removesMeanwhile (srcPort : Port) (n : ℕ) : List Label :=
  unlinksOlder ++ .removeConnection srcPort :: List.replicate n (.proceed none 0) ++
    [.cleanup, .cleanup]

/-- The connection of another bucket may be removed while the cleanup is without the lock. -/
theorem cursorValid_other_bucket :
    ∃ s, run step .initial (removesMeanwhile 2 1) = some s ∧
      s.cleanup = .walking 70000 1 (.next 1) ∧ CursorValid s ∧ RemovesExpired s := by
  obtain ⟨s, hs, hcleanup⟩ := Option.map_eq_some_iff.mp (show
    (run step .initial (removesMeanwhile 2 1)).map State.cleanup =
      some (.walking 70000 1 (.next 1)) by decide +kernel)
  exact ⟨s, hs, hcleanup, cursorValid_of_undisturbed hs (by decide +kernel)⟩

/-- The lists hold a table after an eviction while another thread has been in another bucket. -/
theorem stores_other_bucket :
    ∃ s table, run step .initial (removesMeanwhile 2 1) = some s ∧
      run Operation.perform .empty
        (committed step commits .initial (removesMeanwhile 2 1)) = some table ∧
      ∃ chains, Stores s.memory chains table := by
  obtain ⟨s, hs, -⟩ := Option.map_eq_some_iff.mp (show
    (run step .initial (removesMeanwhile 2 1)).map State.cleanup =
      some (.walking 70000 1 (.next 1)) by decide +kernel)
  exact ⟨s, _, hs, (stores_of_undisturbed hs (by decide +kernel)).choose_spec⟩

/-- The younger connection is removed while the cleanup is without the lock, and the cleanup goes on
in a node that has been freed. -/
theorem cursor_dangles :
    ¬ ∀ (ls : List Label) (s : State), run step .initial ls = some s → CursorValid s := by
  intro hvalid
  obtain ⟨s, hs, hstate⟩ := Option.map_eq_some_iff.mp (show
    (run step .initial (removesMeanwhile 257 1)).map
      (fun s => (s.cleanup, (s.memory.heap 1).isNone)) =
        some (.walking 70000 1 (.next 1), true) by decide +kernel)
  obtain ⟨hcleanup, hfreed⟩ := Prod.mk.inj hstate
  obtain ⟨l, hpath, hin⟩ := hvalid _ s hs 70000 1 _ hcleanup
  rcases hin with hhead | ⟨a, ha, hnext⟩
  · cases hhead
  · cases hnext
    obtain ⟨node, hnode⟩ := hpath.heap_of_mem ha
    rw [hnode] at hfreed
    cases hfreed

end ProxyTun.Windows.CleanupCursor
