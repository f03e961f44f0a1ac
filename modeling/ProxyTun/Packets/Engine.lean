import ProxyTun.Connections.Cleanup
import ProxyTun.Packets.Operations

/-!
# The threads of an engine

Four packet threads, the cleanup thread and the lookups of the relays share one
connection table. A step of the engine is one operation of one thread, and any thread
may be the next to move.
-/
namespace ProxyTun
open Library Library.Transition

/-- A packet thread: what it received last, and its code from there to the next receive. -/
structure PacketThread (In Out : Type) where
  received : Option In
  code : Routine Out Unit

structure Engine (In Out : Type) where
  shared : Shared
  sweep : Option Sweep
  threads : Fin 4 → PacketThread In Out

inductive EngineLabel (In : Type) where
  | receive (i : Fin 4) (input : In)
  | proceed (i : Fin 4) (env : Environment)
  /-- `get_connection` in a thread that is not a packet thread. -/
  | lookup (srcPort : Port)
  /-- The clock advances without passing its maximum. -/
  | tick (elapsed : Tick)
  | startCleanup
  | cleanupSection
  /-- The last part of the cleanup, which shortens the list of logged connections. -/
  | cleanupLogged

/-- The steps that touch neither the table nor a packet thread. -/
def EngineLabel.isClerical {In : Type} : EngineLabel In → Bool
  | .tick _ | .startCleanup | .cleanupLogged => true
  | _ => false

/-- The first packet thread works through an input, `n` operations long. -/
def EngineLabel.processed {In : Type} (input : In) (n : ℕ) : List (EngineLabel In) :=
  .receive 0 input :: List.replicate n (.proceed 0 .app)

namespace Engine

variable {In Out : Type}

def initial (clock : Tick) : Engine In Out := ⟨.initial clock, none, fun _ => ⟨none, .ret ()⟩⟩

def table (s : Engine In Out) : ConnTable := s.shared.table

def lookup (pf : Platform) (p : Port) (s : Engine In Out) : Option (Ip × Port) × Engine In Out :=
  ((s.shared.getConnection pf p).1, { s with shared := (s.shared.getConnection pf p).2 })

/-- One step of the engine whose packet threads execute `routine` for each input. -/
def step (pf : Platform) (routine : In → Routine Out Unit) (s : Engine In Out) :
    EngineLabel In → Option (Engine In Out)
  | .receive i input => match (s.threads i).code with
    | .ret _ =>
      some { s with threads := Function.update s.threads i ⟨some input, routine input⟩ }
    | .call _ _ => none
  | .proceed i env => match s.threads i with
    | ⟨some input, .call op next⟩ =>
      some { s with
        shared := (s.shared.perform pf env op).2
        threads := Function.update s.threads i
          ⟨some input, next (s.shared.perform pf env op).1⟩ }
    | _ => none
  | .lookup p => some (s.lookup pf p).2
  | .tick elapsed =>
    if s.shared.clock.toNat + elapsed.toNat < 2 ^ 64 then
      some { s with shared := { s.shared with clock := s.shared.clock + elapsed } }
    else none
  | .startCleanup =>
    if s.sweep = none then some { s with sweep := some (.start s.shared.clock) } else none
  | .cleanupSection => match s.sweep with
    | none => none
    | some sw => (sw.lockedSection pf s.shared.table).map fun r =>
      { s with shared := { s.shared with table := r.1 }, sweep := r.2.1 }
  | .cleanupLogged =>
    some { s with shared := { s.shared with logged := s.shared.logged.take 100 } }

/-- The operation that a step executes, and the input its thread is working on. -/
def issues (s : Engine In Out) : EngineLabel In → Option (In × Op Out)
  | .proceed i _ => match s.threads i with
    | ⟨some input, .call op _⟩ => some (input, op)
    | _ => none
  | _ => none

variable {pf : Platform} {routine : In → Routine Out Unit} {s t : Engine In Out}
  {l : EngineLabel In}

theorem step_proceed {i : Fin 4} {env : Environment}
    (h : step pf routine s (.proceed i env) = some t) :
    ∃ input op next, s.threads i = ⟨some input, .call op next⟩ ∧
      s.issues (.proceed i env) = some (input, op) ∧
      t = { s with
        shared := (s.shared.perform pf env op).2
        threads := Function.update s.threads i
          ⟨some input, next (s.shared.perform pf env op).1⟩ } := by
  simp only [step] at h
  split at h
  · next input op next hi =>
    exact ⟨input, op, next, hi, by simp only [issues, hi], (Option.some.inj h).symm⟩
  · cases h

theorem thread_proceed {i : Fin 4} {env : Environment}
    (h : step pf routine s (.proceed i env) = some t) :
    ∃ input op next, s.threads i = ⟨some input, .call op next⟩ ∧
      s.issues (.proceed i env) = some (input, op) ∧
      t.threads i = ⟨some input, next (s.shared.perform pf env op).1⟩ ∧
      ∀ j ≠ i, t.threads j = s.threads j := by
  obtain ⟨input, op, next, hi, hissues, rfl⟩ := step_proceed h
  exact ⟨input, op, next, hi, hissues, Function.update_self ..,
    fun j hj => Function.update_of_ne hj ..⟩

theorem step_receive {i : Fin 4} {input : In}
    (h : step pf routine s (.receive i input) = some t) :
    (∃ a, (s.threads i).code = .ret a) ∧
      t = { s with threads := Function.update s.threads i ⟨some input, routine input⟩ } := by
  simp only [step] at h
  split at h
  · next a ha => exact ⟨⟨a, ha⟩, (Option.some.inj h).symm⟩
  · cases h

theorem step_cleanupSection (h : step pf routine s .cleanupSection = some t) :
    ∃ sw next evicted, s.sweep = some sw ∧ sw.Effect pf s.table t.table next evicted ∧
      t = { s with shared := { s.shared with table := t.table }, sweep := next } := by
  simp only [step] at h
  split at h
  · cases h
  · next sw hsw =>
    obtain ⟨⟨t', next, evicted⟩, hlocked, rfl⟩ := Option.map_eq_some_iff.mp h
    exact ⟨sw, next, evicted, hsw, Sweep.lockedSection_effect hlocked, rfl⟩

theorem step_clerical (hl : l.isClerical = true) (h : step pf routine s l = some t) :
    t.table = s.table ∧ t.threads = s.threads := by
  cases l with
  | tick elapsed =>
    simp only [step] at h
    split_ifs at h
    obtain rfl := Option.some.inj h
    exact ⟨rfl, rfl⟩
  | startCleanup =>
    simp only [step] at h
    split_ifs at h
    obtain rfl := Option.some.inj h
    exact ⟨rfl, rfl⟩
  | cleanupLogged =>
    obtain rfl := Option.some.inj h
    exact ⟨rfl, rfl⟩
  | _ => cases hl

theorem threads_step (h : step pf routine s l = some t) :
    t.threads = s.threads ∨ (∃ i input, l = .receive i input) ∨ ∃ i env, l = .proceed i env := by
  cases l with
  | receive i input => exact .inr (.inl ⟨i, input, rfl⟩)
  | proceed i env => exact .inr (.inr ⟨i, env, rfl⟩)
  | lookup p =>
    obtain rfl := Option.some.inj h
    exact .inl rfl
  | cleanupSection =>
    obtain ⟨sw, next, evicted, -, -, ht⟩ := step_cleanupSection h
    exact .inl (by rw [ht])
  | tick _ | startCleanup | cleanupLogged => exact .inl (step_clerical rfl h).2

theorem threads_of_other (h : step pf routine s l = some t)
    (hreceive : ∀ i input, l ≠ .receive i input) (hproceed : ∀ i env, l ≠ .proceed i env) :
    t.threads = s.threads := by
  rcases threads_step h with hsame | ⟨i, input, hl⟩ | ⟨i, env, hl⟩
  · exact hsame
  · exact absurd hl (hreceive i input)
  · exact absurd hl (hproceed i env)

theorem destination_step (h : step pf routine s l = some t) (q : Port) :
    t.table.destination q = s.table.destination q ∨
      (∃ input srcIp destIp destPort,
        s.issues l = some (input, .addConnection q srcIp destIp destPort) ∧
        t.table.destination q = some (destIp, destPort)) ∨
      (∃ input, s.issues l = some (input, .removeConnection q)) ∧
        t.table.destination q = none ∨
      l = .cleanupSection ∧ t.table.destination q = none := by
  cases l with
  | receive i input =>
    obtain ⟨-, rfl⟩ := step_receive h
    exact .inl rfl
  | proceed i env =>
    obtain ⟨input, op, next, -, hissues, rfl⟩ := step_proceed h
    rcases @Shared.destination_perform pf env _ op s.shared q with
      hsame | ⟨srcIp, destIp, destPort, rfl, hadd⟩ | ⟨rfl, hremove⟩
    · exact .inl hsame
    · exact .inr (.inl ⟨input, srcIp, destIp, destPort, hissues, hadd⟩)
    · exact .inr (.inr (.inl ⟨⟨input, hissues⟩, hremove⟩))
  | lookup p =>
    obtain rfl := Option.some.inj h
    exact .inl (Shared.destination_getConnection p q s.shared)
  | cleanupSection =>
    obtain ⟨sw, next, evicted, -, heff, -⟩ := step_cleanupSection h
    cases hq : t.table.entry q with
    | none => exact .inr (.inr (.inr ⟨rfl, by simp [ConnTable.destination, hq]⟩))
    | some c =>
      exact .inl (by simp [ConnTable.destination, hq, heff.entry_of_entry q c hq])
  | tick _ | startCleanup | cleanupLogged =>
    exact .inl (congrArg (ConnTable.destination · q) (step_clerical rfl h).1)

theorem issues_proceed {i : Fin 4} {env : Environment} {input : In} {op : Op Out}
    (h : s.issues (.proceed i env) = some (input, op)) :
    ∃ next, s.threads i = ⟨some input, .call op next⟩ := by
  simp only [issues] at h
  split at h
  · next x op' next hi =>
    obtain ⟨rfl, rfl⟩ := by simpa only [Option.some.injEq, Prod.mk.injEq] using h
    exact ⟨next, hi⟩
  · cases h

theorem step_of_issues {input : In} {op : Op Out} (h : step pf routine s l = some t)
    (hl : s.issues l = some (input, op)) :
    ∃ env, t.shared = (s.shared.perform pf env op).2 := by
  cases l with
  | proceed i env =>
    obtain ⟨input', op', next, -, hissues, rfl⟩ := step_proceed h
    obtain ⟨rfl, rfl⟩ : input = input' ∧ op = op' := by simpa [hl] using hissues
    exact ⟨env, rfl⟩
  | _ => cases hl

theorem destination_of_add {input : In} {p : Port} {srcIp destIp : Ip} {destPort : Port}
    (h : step pf routine s l = some t)
    (hl : s.issues l = some (input, .addConnection p srcIp destIp destPort)) {d : Ip × Port}
    (hd : t.table.destination p = some d) : d = (destIp, destPort) := by
  obtain ⟨env, ht⟩ := step_of_issues h hl
  rw [table, ht, Shared.perform, ConnTable.destination_addConnection, if_pos rfl] at hd
  split_ifs at hd
  exact (Option.some.inj hd).symm

theorem destination_of_remove {input : In} {p : Port} (h : step pf routine s l = some t)
    (hl : s.issues l = some (input, .removeConnection p)) : t.table.destination p = none := by
  obtain ⟨env, ht⟩ := step_of_issues h hl
  rw [table, ht, Shared.perform, ConnTable.destination_removeConnection, if_pos rfl]

/-- The code of every busy packet thread is related to its input by `P`. -/
def ThreadsSatisfy (P : In → Routine Out Unit → Prop) (s : Engine In Out) : Prop :=
  ∀ i input, (s.threads i).received = some input → P input (s.threads i).code

theorem threadsSatisfy_initial (P : In → Routine Out Unit → Prop) (clock : Tick) :
    ThreadsSatisfy P (initial clock) := by
  intro i input h
  cases h

/-- All that a step does to a packet thread: it leaves it alone, gives it an input, or
executes the next operation of its code. -/
theorem thread_step (h : step pf routine s l = some t) (i : Fin 4) :
    t.threads i = s.threads i ∨
      (∃ input, l = .receive i input ∧ t.threads i = ⟨some input, routine input⟩) ∨
      ∃ env input op next, l = .proceed i env ∧ s.threads i = ⟨some input, .call op next⟩ ∧
        s.issues l = some (input, op) ∧
        t.threads i = ⟨some input, next (s.shared.perform pf env op).1⟩ := by
  rcases threads_step h with hsame | ⟨j, input, rfl⟩ | ⟨j, env, rfl⟩
  · exact .inl (by rw [hsame])
  · obtain ⟨-, rfl⟩ := step_receive h
    by_cases hij : i = j
    · subst hij
      exact .inr (.inl ⟨input, rfl, Function.update_self ..⟩)
    · exact .inl (Function.update_of_ne hij ..)
  · obtain ⟨input, op, next, hj, hissues, rfl⟩ := step_proceed h
    by_cases hij : i = j
    · subst hij
      exact .inr (.inr ⟨env, input, op, next, rfl, hj, hissues, Function.update_self ..⟩)
    · exact .inl (Function.update_of_ne hij ..)

/-- What holds of the whole routine and of the rest after each operation holds of the code
of every thread at all times. -/
theorem threadsSatisfy_step {P : In → Routine Out Unit → Prop}
    (hroutine : ∀ input, P input (routine input))
    (hnext : ∀ input op next r, P input (.call op next) → P input (next r))
    (hs : ThreadsSatisfy P s) (h : step pf routine s l = some t) : ThreadsSatisfy P t := by
  intro i input hi
  rcases thread_step h i with hsame | ⟨x, -, hx⟩ | ⟨env, x, op, next, -, hbefore, -, hx⟩
  · rw [hsame] at hi ⊢
    exact hs i input hi
  · rw [hx] at hi ⊢
    obtain rfl := Option.some.inj hi
    exact hroutine x
  · rw [hx] at hi ⊢
    obtain rfl := Option.some.inj hi
    have hcode := hs i x (by rw [hbefore])
    rw [hbefore] at hcode
    exact hnext x op next _ hcode

theorem ThreadsSatisfy.of_issues {P : In → Routine Out Unit → Prop} (hs : ThreadsSatisfy P s)
    {input : In} {op : Op Out} (h : s.issues l = some (input, op)) :
    ∃ next, P input (.call op next) := by
  cases l with
  | proceed i env =>
    obtain ⟨next, hi⟩ := issues_proceed h
    have hcode := hs i input (by rw [hi])
    rw [hi] at hcode
    exact ⟨next, hcode⟩
  | _ => cases h

end Engine
end ProxyTun
