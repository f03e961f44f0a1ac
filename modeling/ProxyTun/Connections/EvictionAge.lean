import ProxyTun.Connections.Cleanup

/-!
# How recently an evicted connection was used

The cleanup thread runs against threads that add new ports and look ports up. On Windows each of
them holds the lock alone. On Linux lookups share it: a lookup reads the clock, and stores what it
has read after other lookups may have stored a later time. The history keeps, beside the table, when
each port was last added or looked up, and what the cleanup has evicted.
-/
namespace ProxyTun.EvictionAge
open Library Library.Transition

/-- An entry the cleanup took out: when its port was last used, and when it was evicted. -/
structure Eviction where
  port : Port
  lastUse : Tick
  evictedAt : Tick
  deriving DecidableEq, Repr

/-- A `get_connection` of the Linux engine that has found the entry and read the clock. -/
structure Lookup where
  port : Port
  reading : Tick
  deriving DecidableEq, Repr

structure State where
  table : ConnTable
  clock : Tick
  sweep : Option Sweep
  /-- The lookups that hold the lock for reading. -/
  lookups : List Lookup
  lastUse : Port → Tick
  evictions : List Eviction

/-- An empty table at some reading of the clock. -/
def State.initial (clock : Tick) : State := ⟨.empty, clock, none, [], fun _ => 0, []⟩

inductive Label where
  /-- `add_connection` of a port that the table does not hold. -/
  | add (allocated : Bool) (port : Port) (srcIp destIp : Ip) (destPort : Port)
  /-- `get_connection`, on Linux up to its reading of the clock. -/
  | lookup (port : Port)
  /-- One of the lookups stores its reading and gives the lock up. -/
  | store (i : ℕ)
  /-- The clock advances without passing its maximum. -/
  | tick (elapsed : Tick)
  | startCleanup
  | cleanupSection

def State.used (s : State) (port : Port) (time : Tick) : State :=
  { s with
    table := s.table.touch time port
    lastUse := Function.update s.lastUse port s.clock }

/-- Who writes to the table waits until no lookup holds the lock. -/
def step (pf : Platform) (s : State) : Label → Option State
  | .add allocated p srcIp destIp destPort =>
    if s.lookups = [] ∧ s.table.entry p = none then
      some { s with
        table := s.table.addConnection pf s.clock allocated p srcIp destIp destPort
        lastUse := Function.update s.lastUse p s.clock }
    else none
  | .lookup p =>
    if (s.table.getConnection pf p).isSome then
      match pf with
      | .windows => some (s.used p s.clock)
      | .linux => some { s with lookups := s.lookups ++ [⟨p, s.clock⟩] }
    else some s
  | .store i => (s.lookups[i]?).map fun l =>
    { s.used l.port l.reading with lookups := s.lookups.eraseIdx i }
  | .tick elapsed =>
    if s.clock.toNat + elapsed.toNat < 2 ^ 64 then some { s with clock := s.clock + elapsed }
    else none
  | .startCleanup =>
    if s.sweep = none then some { s with sweep := some (.start s.clock) } else none
  | .cleanupSection =>
    match s.sweep with
    | none => none
    | some sw => if s.lookups = [] then (sw.lockedSection pf s.table).map fun r =>
        { s with
          table := r.1
          sweep := r.2.1
          evictions := s.evictions ++
            r.2.2.map fun c => ⟨c.srcPort, s.lastUse c.srcPort, s.clock⟩ }
      else none

/-- The entry was last used at least a minute before it was evicted. -/
def Eviction.Stale (e : Eviction) : Prop := e.lastUse.toNat + 60000 ≤ e.evictedAt.toNat

/-- When a locked section of the cleanup starts, no entry ahead of it has been added or looked up
after the cleanup read the clock, unless that is itself a minute ago. On Linux such an entry also
shows the time of its last use, and not the reading of a lookup that stored late. -/
def NoRecentUse (pf : Platform) (s : State) : Label → Prop
  | .cleanupSection => ∀ sw, s.sweep = some sw → ∀ c ∈ sw.ahead pf s.table,
      (s.lastUse c.srcPort).toNat + 60000 ≤ s.clock.toNat ∨
        (s.lastUse c.srcPort).toNat ≤ sw.now.toNat ∧
          (pf = .linux → c.lastActivity = s.lastUse c.srcPort)
  | _ => True

/-- The cleanup has read the clock before. Windows lookups keep nothing back, and the age an entry
shows is there the time of its last use. -/
structure Invariant (pf : Platform) (s : State) : Prop where
  sampled : ∀ sw, s.sweep = some sw → sw.now.toNat ≤ s.clock.toNat
  stored : pf = .windows → s.lookups = []
  age : pf = .windows → ∀ p c, s.table.entry p = some c → c.lastActivity = s.lastUse p

theorem invariant_initial (pf : Platform) (clock : Tick) : Invariant pf (.initial clock) :=
  ⟨fun sw h => by simp [State.initial] at h, fun _ => rfl,
    fun _ p c h => by simp [State.initial] at h⟩

theorem invariant_add {pf : Platform} {s t : State} {allocated p srcIp destIp destPort}
    (hs : Invariant pf s) (h : step pf s (.add allocated p srcIp destIp destPort) = some t) :
    Invariant pf t := by
  simp only [step] at h
  split_ifs at h with hfree
  obtain rfl := Option.some.inj h
  refine ⟨hs.sampled, hs.stored, fun hpf q c hc => ?_⟩
  rw [ConnTable.entry_addConnection, hfree.2] at hc
  by_cases hq : q = p
  · subst hq
    cases allocated with
    | false => simp at hc
    | true =>
      obtain rfl := by simpa using hc
      simp [ConnTable.freshEntry]
  · rw [if_neg hq] at hc
    simpa [hq] using hs.age hpf q c hc

theorem lastActivity_used {s : State} {p q : Port} {time : Tick} {c : ConnectionInfo}
    (hold : ∀ q c, s.table.entry q = some c → c.lastActivity = s.lastUse q)
    (htime : time = s.clock) (hc : (s.used p time).table.entry q = some c) :
    c.lastActivity = (s.used p time).lastUse q := by
  simp only [State.used] at hc ⊢
  rw [ConnTable.entry_touch] at hc
  by_cases hq : q = p
  · rw [if_pos hq, Option.map_eq_some_iff] at hc
    obtain ⟨d, -, rfl⟩ := hc
    simp [hq, htime]
  · rw [if_neg hq] at hc
    simpa [hq] using hold q c hc

theorem invariant_lookup {pf : Platform} {s t : State} {p} (hs : Invariant pf s)
    (h : step pf s (.lookup p) = some t) : Invariant pf t := by
  simp only [step] at h
  split_ifs at h
  · cases pf with
    | windows =>
      obtain rfl := Option.some.inj h
      exact ⟨hs.sampled, hs.stored, fun _ _ _ => lastActivity_used (hs.age rfl) rfl⟩
    | linux =>
      obtain rfl := Option.some.inj h
      exact ⟨hs.sampled, (nomatch ·), (nomatch ·)⟩
  · exact Option.some.inj h ▸ hs

theorem invariant_store {pf : Platform} {s t : State} {i} (hs : Invariant pf s)
    (h : step pf s (.store i) = some t) : Invariant pf t := by
  obtain ⟨l, hl, rfl⟩ := Option.map_eq_some_iff.mp h
  cases pf with
  | windows => simp [hs.stored rfl] at hl
  | linux => exact ⟨hs.sampled, (nomatch ·), (nomatch ·)⟩

theorem invariant_tick {pf : Platform} {s t : State} {elapsed} (hs : Invariant pf s)
    (h : step pf s (.tick elapsed) = some t) : Invariant pf t := by
  simp only [step] at h
  split_ifs at h with hfit
  obtain rfl := Option.some.inj h
  have hclock : (s.clock + elapsed).toNat = s.clock.toNat + elapsed.toNat := by
    rw [BitVec.toNat_add, Nat.mod_eq_of_lt hfit]
  refine ⟨fun sw hsw => ?_, hs.stored, hs.age⟩
  have hp := hs.sampled sw hsw
  show sw.now.toNat ≤ (s.clock + elapsed).toNat
  omega

theorem step_cleanupSection {pf : Platform} {s t : State}
    (h : step pf s .cleanupSection = some t) :
    ∃ sw t' next evicted, s.sweep = some sw ∧ sw.Effect pf s.table t' next evicted ∧
      t = { s with
        table := t'
        sweep := next
        evictions := s.evictions ++
          evicted.map fun c => ⟨c.srcPort, s.lastUse c.srcPort, s.clock⟩ } := by
  simp only [step] at h
  split at h
  · cases h
  · next sw hsw =>
    split_ifs at h
    obtain ⟨⟨t', next, evicted⟩, hlocked, rfl⟩ := Option.map_eq_some_iff.mp h
    exact ⟨sw, t', next, evicted, hsw, Sweep.lockedSection_effect hlocked, rfl⟩

theorem invariant_cleanup {pf : Platform} {s : State} {sw : Sweep} {t' next evicted}
    (hs : Invariant pf s) (hsw : s.sweep = some sw) (he : sw.Effect pf s.table t' next evicted)
    (es : List Eviction) :
    Invariant pf { s with table := t', sweep := next, evictions := es } where
  sampled sw' h := by
    rw [he.now_eq sw' h]
    exact hs.sampled sw hsw
  stored := hs.stored
  age hpf p c hc := hs.age hpf p c (he.entry_of_entry p c hc)

theorem invariant_step {pf : Platform} {s t : State} {l : Label} (hs : Invariant pf s)
    (h : step pf s l = some t) : Invariant pf t := by
  cases l with
  | add allocated p srcIp destIp destPort => exact invariant_add hs h
  | lookup p => exact invariant_lookup hs h
  | store i => exact invariant_store hs h
  | tick elapsed => exact invariant_tick hs h
  | startCleanup =>
    simp only [step] at h
    split_ifs at h
    obtain rfl := Option.some.inj h
    refine ⟨?_, hs.stored, hs.age⟩
    rintro sw ⟨⟩
    exact le_rfl
  | cleanupSection =>
    obtain ⟨sw, t', next, evicted, hsw, heff, rfl⟩ := step_cleanupSection h
    exact invariant_cleanup hs hsw heff _

/-- An entry that was not used after the cleanup read the clock is evicted only when it has
been idle for a minute: there the unsigned difference is the true one. -/
theorem stale_of_expired {pf : Platform} {s : State} (hs : Invariant pf s) {sw : Sweep}
    (hsw : s.sweep = some sw) {c : ConnectionInfo} (hc : c ∈ sw.ahead pf s.table)
    (hex : Sweep.expired sw.now c = true)
    (hok : (s.lastUse c.srcPort).toNat + 60000 ≤ s.clock.toNat ∨
      (s.lastUse c.srcPort).toNat ≤ sw.now.toNat ∧
        (pf = .linux → c.lastActivity = s.lastUse c.srcPort)) :
    (s.lastUse c.srcPort).toNat + 60000 ≤ s.clock.toNat := by
  rcases hok with hold | ⟨hle, hshown⟩
  · exact hold
  · have hage : c.lastActivity = s.lastUse c.srcPort := by
      cases pf with
      | windows => exact hs.age rfl _ c (s.table.entry_of_mem (Sweep.ahead_subset hc))
      | linux => exact hshown rfl
    have hsampled := hs.sampled sw hsw
    rw [Sweep.expired_iff, hage, BitVec.lt_def] at hex
    omega

theorem evictions_step {pf : Platform} {s t : State} {l : Label} (h : step pf s l = some t) :
    t.evictions = s.evictions ∨ l = .cleanupSection := by
  cases l with
  | add allocated p srcIp destIp destPort =>
    simp only [step] at h
    split_ifs at h
    obtain rfl := Option.some.inj h
    exact .inl rfl
  | lookup p =>
    simp only [step] at h
    split_ifs at h
    · cases pf <;> obtain rfl := Option.some.inj h <;> exact .inl rfl
    · obtain rfl := Option.some.inj h
      exact .inl rfl
  | store i =>
    obtain ⟨l, -, rfl⟩ := Option.map_eq_some_iff.mp h
    exact .inl rfl
  | tick elapsed =>
    simp only [step] at h
    split_ifs at h
    obtain rfl := Option.some.inj h
    exact .inl rfl
  | startCleanup =>
    simp only [step] at h
    split_ifs at h
    obtain rfl := Option.some.inj h
    exact .inl rfl
  | cleanupSection => exact .inr rfl

theorem stale_step {pf : Platform} {s t : State} {l : Label} (hs : Invariant pf s)
    (hold : ∀ e ∈ s.evictions, e.Stale) (hg : NoRecentUse pf s l) (h : step pf s l = some t) :
    ∀ e ∈ t.evictions, e.Stale := by
  rcases evictions_step h with hsame | rfl
  · rw [hsame]
    exact hold
  · obtain ⟨sw, t', next, evicted, hsw, heff, rfl⟩ := step_cleanupSection h
    intro e he
    rcases List.mem_append.mp he with hmem | hnew
    · exact hold e hmem
    · obtain ⟨c, hc, rfl⟩ := List.mem_map.mp hnew
      have hahead := heff.evicted_ahead c hc
      exact stale_of_expired hs hsw hahead (heff.evicted_expired c hc) (hg sw hsw c hahead)

/-- In every interleaving in which the cleanup meets no entry that was used after it read
the clock, or that shows an older time than that of its last use, it evicts only connections that
have been idle for a minute. -/
theorem evictions_stale (pf : Platform) (clock : Tick) (ls : List Label) {s : State}
    (hrun : run (step pf) (.initial clock) ls = some s)
    (hguard : Guarded (step pf) (NoRecentUse pf) (.initial clock) ls) :
    ∀ e ∈ s.evictions, e.Stale := by
  have hinv : Invariant pf s ∧ ∀ e ∈ s.evictions, e.Stale :=
    guarded_invariant (I := fun s => Invariant pf s ∧ ∀ e ∈ s.evictions, e.Stale)
      (fun _ _ _ hs hg h => ⟨invariant_step hs.1 h, stale_step hs.1 hs.2 hg h⟩) hrun hguard
      ⟨invariant_initial pf clock, by simp [State.initial]⟩
  exact hinv.2

/-- A port that is added between the cleanup's reading of the clock and its visit to the
port's bucket is evicted at once. -/
def addedAfterSample : List Label :=
  [.tick 1000, .startCleanup, .tick 1, .add true 256 (ipv4 10 0 0 2) (ipv4 1 1 1 1) 443,
    .cleanupSection]

/-- Of two lookups on Linux the one that read the clock first stores last. -/
def overlappingLookups : List Label :=
  [.add true 256 (ipv4 10 0 0 2) (ipv4 1 1 1 1) 443, .lookup 256, .tick 2, .lookup 256, .store 1,
    .store 0, .tick 59999, .startCleanup, .cleanupSection]

theorem fresh_entry_evicted :
    (run (step .windows) (.initial 0) addedAfterSample).map State.evictions =
        some [⟨256, 1001, 1001⟩] ∧
      (run (step .linux) (.initial 0) addedAfterSample).map State.evictions =
        some [⟨256, 1001, 1001⟩] ∧
      ¬ Eviction.Stale ⟨256, 1001, 1001⟩ ∧
      (run (step .linux) (.initial 0) overlappingLookups).map State.evictions =
        some [⟨256, 2, 60001⟩] ∧
      ¬ Eviction.Stale ⟨256, 2, 60001⟩ :=
  ⟨by decide, by decide, by simp [Eviction.Stale], by decide, by simp [Eviction.Stale]⟩

/-- A connection that is idle for more than a minute before the cleanup starts. -/
def addedLongBefore : List Label :=
  [.add true 256 (ipv4 10 0 0 2) (ipv4 1 1 1 1) 443, .tick 60001, .startCleanup,
    .cleanupSection]

theorem idle_entry_evicted :
    ∃ s, run (step .windows) (.initial 0) addedLongBefore = some s ∧
      s.evictions = [⟨256, 0, 60001⟩] ∧ ∀ e ∈ s.evictions, e.Stale := by
  refine ⟨_, rfl, by decide, evictions_stale .windows 0 addedLongBefore rfl ?_⟩
  refine .cons trivial rfl (.cons trivial rfl (.cons trivial rfl (.cons ?_ rfl trivial)))
  intro sw hsw
  obtain rfl := Option.some.inj hsw
  decide

end ProxyTun.EvictionAge
