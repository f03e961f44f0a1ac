import ProxyTun.Windows.CleanupCursor

/-!
# The locked sections of the cleanup

The turns that the cleanup takes while it holds the lock once are one locked section of the sweep
over the table.
-/
namespace ProxyTun.Windows.CleanupCursor
open Library Library.Transition Library.NodeHeap Library.LinkedTable

def portOf (memory : ConnMemory) : ConnPtr → Option Port
  | .head _ => none
  | .next a => (memory.heap a).map fun node => node.data.srcPort

/-- The cleanup as a sweep over the table. -/
def State.sweep (s : State) : Option Sweep :=
  match s.cleanup with
  | .idle => none
  | .waiting now i => some ⟨now, i, none⟩
  | .walking now i connPtr | .freeing now i connPtr _ | .relocking now i connPtr =>
    some ⟨now, i, portOf s.memory connPtr⟩

variable {s t : State} {chains : Fin 256 → List Addr} {table : ConnTable} {now : Tick}
  {i : Fin 256} {before rest : List Addr} {back : List ConnectionInfo}

theorem sweep_nextBucket (cursor : Option Port) :
    ({ s with cleanup := .nextBucket now i } : State).sweep =
      Sweep.nextBucket ⟨now, i, cursor⟩ := by
  unfold Cleanup.nextBucket Sweep.nextBucket
  split <;> rfl

theorem portOf_store {memory : ConnMemory} {slot : ConnPtr} {p : Option Addr}
    (hstore : s.memory.store slot p = some memory) (place : ConnPtr) :
    portOf memory place = portOf s.memory place := by
  cases place with
  | head => rfl
  | next a =>
    have hdata := congrArg (Option.map ConnectionInfo.srcPort) (Memory.store_data hstore a)
    rwa [Option.map_map, Option.map_map] at hdata

/-- The sweep finds the entries behind the place that the cleanup is at. -/
theorem remaining_eq (h : Stores s.memory chains table) (hi : chains i = before ++ rest)
    (hback : s.memory.data rest = back.map some) :
    Sweep.remaining ⟨now, i, portOf s.memory (slotAfter i before)⟩ table = some back := by
  rcases List.eq_nil_or_concat before with rfl | ⟨front, a, rfl⟩
  · have hchain := h.contents i
    rw [hi, List.nil_append, hback] at hchain
    exact congrArg some (List.map_injective_iff.mpr (Option.some_injective _) hchain.symm)
  · rw [List.concat_eq_append, List.append_assoc, List.singleton_append] at hi
    obtain ⟨node, hnode⟩ := h.heap_of_mem (i := i) (a := a) (by rw [hi]; simp)
    obtain ⟨passed, behind, hchain, -, hbehind, hne, -⟩ := h.split hi hnode
    rw [hback] at hbehind
    obtain rfl := List.map_injective_iff.mpr (Option.some_injective _) hbehind
    have hport : portOf s.memory (slotAfter i (front ++ [a])) = some node.data.srcPort := by
      rw [slotAfter_concat, portOf, hnode, Option.map_some]
    have hskipped : (table.chain i).dropWhile (fun c => c.srcPort != node.data.srcPort) =
        node.data :: back := by
      rw [hchain, List.dropWhile_append_of_pos (by simpa using hne),
        List.dropWhile_cons_of_neg (by simp)]
    rw [List.concat_eq_append, hport]
    simp only [Sweep.remaining, hskipped]

theorem run_walking (h : Sound s chains table)
    (hwalking : s.cleanup = .walking now i (slotAfter i before)) (hi : chains i = before ++ rest)
    (hback : s.memory.data rest = back.map some) :
    ∃ n t chains' table', run step s (List.replicate n .cleanup) = some t ∧
      t.cleanup.holdsLock = false ∧ Sound t chains' table' ∧
      ((Sweep.seek now (portOf s.memory (slotAfter i before)) back = none ∧ table' = table ∧
          t.sweep = Sweep.nextBucket ⟨now, i, portOf s.memory (slotAfter i before)⟩) ∨
        ∃ cursor c, Sweep.seek now (portOf s.memory (slotAfter i before)) back = some (cursor, c) ∧
          table' = table.unlink c.srcPort ∧ t.sweep = some ⟨now, i, cursor⟩) := by
  have hother : s.other = none := h.other_eq_none (by rw [hwalking]; rfl)
  have hload := h.stores.load_slotAfter hi
  induction rest generalizing s before back with
  | nil =>
    obtain rfl : back = [] := by simpa [Memory.data] using hback
    refine ⟨1, _, chains, table, ?_, ?_, h.nextBucket now i, Or.inl ⟨rfl, rfl, ?_⟩⟩
    · exact run_cons_eq_some.mpr ⟨_, cleanupStep_end hwalking hload, rfl⟩
    · exact holdsLock_nextBucket now i
    · exact sweep_nextBucket _
  | cons conn rest ih =>
    obtain ⟨node, hnode⟩ := h.stores.heap_of_mem (i := i) (a := conn) (by rw [hi]; simp)
    rw [Memory.data_cons, hnode, Option.map_some] at hback
    obtain ⟨c, back, rfl, hc, hrest⟩ := List.map_eq_cons_iff.mp hback.symm
    obtain rfl := Option.some.inj hc
    by_cases hexpired : Sweep.expired now node.data = true
    · obtain ⟨node', memory, hnode', hstore, hstores⟩ := h.stores.unlink hi
      obtain rfl := Option.some.inj (hnode.symm.trans hnode')
      refine ⟨1, _, _, _, ?_, rfl, h.unlink hother hi hstore hstores now,
        Or.inr ⟨portOf s.memory (slotAfter i before), node.data, ?_, rfl, ?_⟩⟩
      · exact run_cons_eq_some.mpr
          ⟨_, cleanupStep_unlinks hwalking hload hnode hexpired hstore, rfl⟩
      · rw [Sweep.seek, if_pos hexpired]
      · exact congrArg (fun cursor => some (⟨now, i, cursor⟩ : Sweep)) (portOf_store hstore _)
    · have hadvances := cleanupStep_advances hwalking hload hnode hexpired
      have hnext : chains i = (before ++ [conn]) ++ rest := by simp [hi]
      have hplace := slotAfter_concat i before conn
      have hport : portOf s.memory (slotAfter i (before ++ [conn])) = some node.data.srcPort := by
        rw [hplace, portOf, hnode, Option.map_some]
      have hwalk : Sound { s with cleanup := .walking now i (slotAfter i (before ++ [conn])) }
          chains table := h.walk hother now (by rw [hnext]; exact slotAfter_in i _ rest)
      obtain ⟨n, t, chains', table', hrun, hlock, hsound, hseek⟩ :=
        ih hwalk rfl hnext hrest.symm hother (h.stores.load_slotAfter hnext)
      refine ⟨n + 1, t, chains', table', ?_, hlock, hsound, ?_⟩
      · rw [← hplace] at hadvances
        exact run_cons_eq_some.mpr ⟨_, hadvances, hrun⟩
      · rw [Sweep.seek, if_neg hexpired, ← hport]
        exact hseek

/-- From where it has the lock, the cleanup comes to where it gives it up. What it does until then
is one locked section of the sweep. -/
theorem run_lockedSection (h : Sound s chains table) {connPtr : ConnPtr}
    (hwalking : s.cleanup = .walking now i connPtr) :
    ∃ sw n t chains' table' evicted, s.sweep = some sw ∧
      run step s (List.replicate n .cleanup) = some t ∧ t.cleanup.holdsLock = false ∧
      Sound t chains' table' ∧
      sw.lockedSection .windows table = some (table', t.sweep, evicted) := by
  have hin : connPtr.In i (chains i) := h.cursor_in (by rw [hwalking]; rfl)
  obtain ⟨before, rest, hi, rfl⟩ := hin.exists_split
  obtain ⟨back, hback⟩ : ∃ back, s.memory.data rest = List.map some back := by
    have hcontents := h.stores.contents i
    rw [hi, Memory.data_append, List.append_eq_map_iff] at hcontents
    obtain ⟨front, back, -, -, hback⟩ := hcontents
    exact ⟨back, hback.symm⟩
  have hremaining : Sweep.remaining ⟨now, i, portOf s.memory (slotAfter i before)⟩ table =
      some back := remaining_eq h.stores hi hback
  obtain ⟨n, t, chains', table', hrun, hlock, hsound, hseek⟩ := run_walking h hwalking hi hback
  have hsweep : s.sweep = some ⟨now, i, portOf s.memory (slotAfter i before)⟩ := by
    simp only [State.sweep, hwalking]
  rcases hseek with ⟨hseek, rfl, hnext⟩ | ⟨cursor, c, hseek, rfl, hnext⟩
  · refine ⟨_, n, t, chains', _, [], hsweep, hrun, hlock, hsound, ?_⟩
    simp only [Sweep.lockedSection, hremaining, Option.map_some, hseek, hnext]
  · refine ⟨_, n, t, chains', _, [c], hsweep, hrun, hlock, hsound, ?_⟩
    simp only [Sweep.lockedSection, hremaining, Option.map_some, hseek, hnext]

/-- In every undisturbed run, what the cleanup does from where it has the lock to where it gives it
up is one locked section of the sweep over the table that the threads have made. -/
theorem lockedSection_of_undisturbed {ls : List Label} (hrun : run step .initial ls = some s)
    (hguard : Guarded step Undisturbed .initial ls) {connPtr : ConnPtr}
    (hwalking : s.cleanup = .walking now i connPtr) :
    ∃ table sw n t chains' table' evicted,
      run Operation.perform .empty (committed step commits .initial ls) = some table ∧
      s.sweep = some sw ∧ run step s (List.replicate n .cleanup) = some t ∧
      t.cleanup.holdsLock = false ∧ Stores t.memory chains' table' ∧
      sw.lockedSection .windows table = some (table', t.sweep, evicted) := by
  obtain ⟨table, htable, chains, h⟩ := sound_run hrun hguard
  obtain ⟨sw, n, t, chains', table', evicted, hsweep, hturns, hlock, hsound, hsection⟩ :=
    run_lockedSection h hwalking
  exact ⟨table, sw, n, t, chains', table', evicted, htable, hsweep, hturns, hlock, hsound.stores,
    hsection⟩

/-- The cleanup goes on behind the younger connection while another thread has been in another
bucket. -/
theorem lockedSection_other_bucket :
    ∃ s table n t chains' table' evicted,
      run step .initial (removesMeanwhile 2 1) = some s ∧
      run step s (List.replicate n .cleanup) = some t ∧ t.cleanup.holdsLock = false ∧
      Stores t.memory chains' table' ∧
      (∃ sw, s.sweep = some sw ∧
        sw.lockedSection .windows table = some (table', t.sweep, evicted)) := by
  obtain ⟨s, hs, hcleanup⟩ := Option.map_eq_some_iff.mp (show
    (run step .initial (removesMeanwhile 2 1)).map State.cleanup =
      some (.walking 70000 1 (.next 1)) by decide +kernel)
  obtain ⟨table, sw, n, t, chains', table', evicted, -, hsweep, hrun, hlock, hstores, hsection⟩ :=
    lockedSection_of_undisturbed hs (by decide +kernel) hcleanup
  exact ⟨s, table, n, t, chains', table', evicted, hs, hrun, hlock, hstores, sw, hsweep, hsection⟩

end ProxyTun.Windows.CleanupCursor
