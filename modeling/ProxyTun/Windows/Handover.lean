import ProxyTun.Packets.Engine
import ProxyTun.Windows.PacketProcessor

/-!
# Handing traffic over to a relay

A redirected packet no longer says where it was addressed. The relay that receives it
asks the connection table for its source port, at a later time and on another thread.
The UDP relay does so for every datagram, the TCP relay for every connection it accepts.
-/
namespace ProxyTun.Windows.Handover
open Library Library.Transition

/-- A relay: its protocol, the addresses at which its host receives, what it looks up at all, and
what it does with a destination that it has found, if the calls it makes succeed. -/
structure Relay (Out : Type) where
  isUdp : Bool
  isHosts : Ip → Bool
  admits : List Byte → Bool
  react : Bool → List Byte → Ip × Port → Option Out

/-- A datagram, or the SYN of a connection, on its way to the relay. The relay sees its
source port and its payload, not where it was addressed. -/
structure Parcel where
  port : Port
  payload : List Byte
  addressed : Ip × Port
  deriving DecidableEq, Repr

structure State (Out : Type) where
  engine : Engine Frame Output
  queue : List Parcel
  held : Option Parcel
  log : List (Parcel × Out)

def State.initial {Out : Type} (clock : Tick) : State Out := ⟨.initial clock, [], none, []⟩

inductive Label where
  | engine (l : EngineLabel Frame)
  /-- `recvfrom` or `accept`. Connections need not be accepted in the order of their SYNs. -/
  | take (i : ℕ)
  /-- The queue overflows, or the relay gives up on what it holds. -/
  | lose (i : ℕ)
  | discard
  /-- `get_connection` and what follows it. -/
  | answer (success : Bool)

variable {Out : Type} (relay : Relay Out) (cfg : Settings)

/-- The packets of applications that the relay is there for: datagrams, or SYNs. -/
def Relay.serves (p : Packet) : Bool :=
  p.outbound && if relay.isUdp then p.transport.isUdp && p.srcPort != localUdpRelayPort
    else p.opensTcp && p.srcPort != localProxyPort

def parcel (p q : Packet) : Parcel := ⟨q.srcPort, q.payload, (p.dstAddr, p.dstPort)⟩

/-- A packet sent by the loop reaches the relay when it was redirected there. A datagram
may also have been addressed to the relay's port of its host in the first place. -/
def Relay.reaches (route : Route) (q : Packet) : Bool :=
  match route with
  | .toRelay => true
  | .unchanged => relay.isUdp && relay.isHosts q.dstAddr && q.dstPort = localUdpRelayPort
  | .fromRelay => false

def Relay.arrivals (s : Engine Frame Output) (l : EngineLabel Frame) : List Parcel :=
  match s.issues l with
  | some (.ipv4 p, .emit (.send route q)) =>
    if relay.serves p && relay.reaches route q then [parcel p q] else []
  | _ => []

def step (s : State Out) : Label → Option (State Out)
  | .engine l => (s.engine.step .windows (packetProcessor cfg) l).map fun e =>
    { s with engine := e, queue := s.queue ++ relay.arrivals s.engine l }
  | .take i => match s.queue[i]?, s.held with
    | some x, none => some { s with queue := s.queue.eraseIdx i, held := some x }
    | _, _ => none
  | .lose i => some { s with queue := s.queue.eraseIdx i }
  | .discard => some { s with held := none }
  | .answer success => match s.held with
    | some x =>
      if relay.admits x.payload then
        some { s with
          engine := (s.engine.lookup .windows x.port).2
          held := none
          log := s.log ++ (((s.engine.lookup .windows x.port).1.bind
            (relay.react success x.payload)).map (x, ·)).toList }
      else none
    | none => none

def Relay.redirecting (s : Engine Frame Output) (i : Fin 4) : Option Parcel :=
  match s.threads i with
  | ⟨some (.ipv4 p), .call (.emit (.send .toRelay q)) _⟩ =>
    if relay.serves p then some (parcel p q) else none
  | _ => none

/-- The parcels with a packet thread, in the relay's queue or in its hands. -/
def Relay.underWay (s : State Out) : List Parcel :=
  (List.finRange 4).filterMap (relay.redirecting s.engine) ++ s.queue ++ s.held.toList

/-- The table holds no destination for the parcel's port but its own. -/
def Consistent (t : ConnTable) (x : Parcel) : Prop :=
  ∀ d ∈ t.destination x.port, d = x.addressed

instance (t : ConnTable) (x : Parcel) : Decidable (Consistent t x) :=
  decidable_of_iff ((t.destination x.port).all fun d => d = x.addressed)
    (by simp [Consistent, Option.all_eq_true])

/-- The shortcut for a tracked port is taken only by a packet that is addressed to the
destination on record, `add_connection` records a destination only while every parcel of
the port that is under way is addressed to it, and a datagram addressed to the relay itself
leaves only while the table holds no other destination for its port. -/
def orderly (s : State Out) : Label → Bool
  | .engine l => match s.engine.issues l with
    | some (.ipv4 p, .isConnectionTracked q) =>
      !relay.serves p || Consistent s.engine.table ⟨q, [], (p.dstAddr, p.dstPort)⟩
    | some (_, .addConnection q _ destIp destPort) =>
      (relay.underWay s).all fun x => x.port != q || x.addressed = (destIp, destPort)
    | some (.ipv4 p, .emit (.send .unchanged q)) =>
      !(relay.serves p && relay.reaches .unchanged q) || Consistent s.engine.table (parcel p q)
    | _ => true
  | _ => true

theorem redirecting_eq_some {s : Engine Frame Output} {i : Fin 4} {x : Parcel} :
    relay.redirecting s i = some x ↔
      ∃ p q next, s.threads i = ⟨some (.ipv4 p), .call (.emit (.send .toRelay q)) next⟩ ∧
        relay.serves p = true ∧ x = parcel p q := by
  constructor
  · intro h
    unfold Relay.redirecting at h
    split at h
    · next p q next hi =>
      split_ifs at h with hserves
      exact ⟨p, q, next, hi, hserves, (Option.some.inj h).symm⟩
    · cases h
  · rintro ⟨p, q, next, hi, hserves, rfl⟩
    simp only [Relay.redirecting, hi, hserves, if_true]

theorem mem_underWay {s : State Out} {x : Parcel} :
    x ∈ relay.underWay s ↔
      (∃ i, relay.redirecting s.engine i = some x) ∨ x ∈ s.queue ∨ s.held = some x := by
  simp [Relay.underWay]

def CodeOf (f : Frame) (c : Work Unit) : Prop :=
  c.All (Concerns f) ∧ c.Preceded SettlesPort IsRedirect

theorem codeOf_packetProcessor (f : Frame) : CodeOf f (packetProcessor cfg f) :=
  ⟨packetProcessor_concerns cfg f, (packetProcessor_preceded cfg f).1⟩

/-- No parcel under way is looked up under a destination that is not its own. -/
structure Invariant (s : State Out) : Prop where
  code : s.engine.ThreadsSatisfy CodeOf
  consistent : ∀ x ∈ relay.underWay s, Consistent s.engine.table x

theorem invariant_initial (clock : Tick) : Invariant relay (.initial clock) := by
  refine ⟨Engine.threadsSatisfy_initial _ clock, fun x hx d hd => ?_⟩
  simp [State.initial, Engine.initial, Engine.table, Shared.initial] at hd

variable {relay cfg}

section Engine

variable {e e' : Engine Frame Output} {l : EngineLabel Frame}

/-- A step keeps a parcel consistent unless it records another destination for its port. -/
theorem consistent_step (h : e.step .windows (packetProcessor cfg) l = some e') {x : Parcel}
    (hx : Consistent e.table x)
    (hadd : ∀ f srcIp destIp destPort,
      e.issues l = some (f, .addConnection x.port srcIp destIp destPort) →
      x.addressed = (destIp, destPort)) : Consistent e'.table x := by
  intro d hd
  rcases Engine.destination_step h x.port with
    hsame | ⟨f, srcIp, destIp, destPort, hissues, hnew⟩ | ⟨-, hnone⟩ | ⟨-, hnone⟩
  · exact hx d (hsame ▸ hd)
  · rw [hnew] at hd
    rw [hadd f srcIp destIp destPort hissues, Option.some.inj hd]
  · rw [hnone] at hd
    cases hd
  · rw [hnone] at hd
    cases hd

/-- A thread comes to redirect a parcel only by an operation that settles the entry of the
parcel's port. -/
theorem redirecting_step (hcode : e.ThreadsSatisfy CodeOf)
    (h : e.step .windows (packetProcessor cfg) l = some e') {x : Parcel}
    {i : Fin 4} (hx : relay.redirecting e' i = some x) :
    relay.redirecting e i = some x ∨ ∃ p op, e.issues l = some (.ipv4 p, op) ∧
      relay.serves p = true ∧ SettlesPort op ∧ Concerns (.ipv4 p) op ∧ x.port = p.srcPort ∧
      x.addressed = (p.dstAddr, p.dstPort) := by
  obtain ⟨p, q, rest, hi, hserves, rfl⟩ := (redirecting_eq_some relay).mp hx
  rcases Engine.thread_step h i with
    hsame | ⟨f, -, hf⟩ | ⟨env, f, op, next, -, hbefore, hissues, hf⟩
  · exact .inl ((redirecting_eq_some relay).mpr ⟨p, q, rest, hsame ▸ hi, hserves, rfl⟩)
  · rw [hf, PacketThread.mk.injEq] at hi
    have hstart := (packetProcessor_preceded cfg f).2
    rw [hi.2] at hstart
    exact absurd trivial hstart
  · rw [hf, PacketThread.mk.injEq, Option.some.injEq] at hi
    obtain ⟨rfl, hnext⟩ := hi
    have hc : CodeOf (.ipv4 p) (.call op next) := by
      have := hcode i (.ipv4 p) (by rw [hbefore])
      rwa [hbefore] at this
    have hrest := (Code.rest_of_call (e.shared.perform .windows env op).1 hc).1
    have hsettles := (hc.2 (e.shared.perform .windows env op).1).1
    rw [hnext] at hrest hsettles
    exact .inr ⟨p, op, hissues, hserves, hsettles trivial, hc.1.1, hrest.1.1, rfl⟩

theorem consistent_of_settled (h : e.step .windows (packetProcessor cfg) l = some e')
    {p : Packet} {op : Op Output} (hissues : e.issues l = some (.ipv4 p, op))
    (hserves : relay.serves p = true) (hsettles : SettlesPort op)
    (hconcerns : Concerns (.ipv4 p) op)
    (hcheck : ∀ q, op = .isConnectionTracked q → ∀ d ∈ e.table.destination q,
      d = (p.dstAddr, p.dstPort))
    {x : Parcel} (hport : x.port = p.srcPort) (haddressed : x.addressed = (p.dstAddr, p.dstPort)) :
    Consistent e'.table x := by
  cases op with
  | isConnectionTracked q =>
    obtain rfl : q = p.srcPort := hconcerns
    refine consistent_step h (fun d hd => ?_) fun f srcIp destIp destPort hf => ?_
    · rw [haddressed]
      exact hcheck _ rfl d (hport ▸ hd)
    · rw [hissues] at hf
      cases hf
  | addConnection q srcIp destIp destPort =>
    obtain ⟨rfl, -, rfl, rfl⟩ := hconcerns
    intro d hd
    rw [haddressed]
    exact Engine.destination_of_add h hissues (hport ▸ hd)
  | removeConnection q =>
    obtain ⟨flags, htcp, -, ⟨rfl, -⟩ | ⟨-, hp⟩⟩ := hconcerns
    · intro d hd
      rw [hport, Engine.destination_of_remove h hissues] at hd
      cases hd
    · simp [Relay.serves, Packet.opensTcp, Transport.isUdp, htcp, hp] at hserves
  | _ => exact hsettles.elim

/-- A packet of the loop reaches the relay's queue from a thread that is redirecting it, or
as it was captured. -/
theorem mem_arrivals {x : Parcel} (hx : x ∈ relay.arrivals e l) :
    (∃ i, relay.redirecting e i = some x) ∨
      ∃ p q, e.issues l = some (.ipv4 p, .emit (.send .unchanged q)) ∧
      (relay.serves p && relay.reaches .unchanged q) = true ∧ x = parcel p q := by
  unfold Relay.arrivals at hx
  split at hx
  · next p route q hissues =>
    split_ifs at hx with hreach
    · obtain rfl := List.mem_singleton.mp hx
      cases route with
      | unchanged => exact .inr ⟨p, q, hissues, hreach, rfl⟩
      | toRelay =>
        cases l with
        | proceed i env =>
          obtain ⟨next, hi⟩ := Engine.issues_proceed hissues
          exact .inl ⟨i, (redirecting_eq_some relay).mpr
            ⟨p, q, next, hi, (Bool.and_eq_true_iff.mp hreach).1, rfl⟩⟩
        | _ => cases hissues
      | fromRelay => simp [Relay.reaches] at hreach
    · cases hx
  · cases hx

end Engine

theorem invariant_engine {s t : State Out} {l : EngineLabel Frame} (hs : Invariant relay s)
    (hg : orderly relay s (.engine l)) (h : step relay cfg s (.engine l) = some t) :
    Invariant relay t := by
  obtain ⟨e, he, rfl⟩ := Option.map_eq_some_iff.mp h
  have hold : ∀ x ∈ relay.underWay s, Consistent e.table x := by
    intro x hx
    refine consistent_step he (hs.consistent x hx) fun f srcIp destIp destPort hf => ?_
    simp only [orderly, hf, List.all_eq_true] at hg
    simpa using hg x hx
  refine ⟨Engine.threadsSatisfy_step (codeOf_packetProcessor cfg) (fun _ _ _ => Code.rest_of_call)
    hs.code he, ?_⟩
  intro x hx
  rcases (mem_underWay relay).mp hx with ⟨i, hi⟩ | hqueue | hheld
  · rcases redirecting_step hs.code he hi with
      hbefore | ⟨p, op, hissues, hserves, hsettles, hconcerns, hport, haddressed⟩
    · exact hold x ((mem_underWay relay).mpr (.inl ⟨i, hbefore⟩))
    · refine consistent_of_settled he hissues hserves hsettles hconcerns ?_ hport haddressed
      rintro q rfl
      simpa [orderly, hissues, hserves, Consistent] using hg
  · rcases List.mem_append.mp hqueue with hqueue | hnew
    · exact hold x ((mem_underWay relay).mpr (.inr (.inl hqueue)))
    · rcases mem_arrivals hnew with hredirect | ⟨p, q, hissues, hreach, rfl⟩
      · exact hold x ((mem_underWay relay).mpr (.inl hredirect))
      · have hown : Consistent s.engine.table (parcel p q) := by
          simpa only [orderly, hissues, hreach, Bool.not_true, Bool.false_or,
            decide_eq_true_eq] using hg
        refine consistent_step he hown fun f srcIp destIp destPort hf => ?_
        rw [hissues] at hf
        cases hf
  · exact hold x ((mem_underWay relay).mpr (.inr (.inr hheld)))

/-- The relay's own steps put nothing under way, and its lookups leave every destination. -/
theorem underWay_of_relay_step {s t : State Out} {l : Label} (hl : ∀ l', l ≠ .engine l')
    (h : step relay cfg s l = some t) :
    t.queue ⊆ s.queue ∧ (∀ x, t.held = some x → x ∈ s.queue ∨ s.held = some x) ∧
      t.engine.threads = s.engine.threads ∧
      ∀ q, t.engine.table.destination q = s.engine.table.destination q := by
  cases l with
  | engine l' => exact absurd rfl (hl l')
  | take i =>
    simp only [step] at h
    split at h
    · next x hqueue hheld =>
      obtain rfl := Option.some.inj h
      refine ⟨fun _ => List.mem_of_mem_eraseIdx, fun y hy => .inl ?_, rfl, fun _ => rfl⟩
      rw [← Option.some.inj hy]
      exact List.mem_of_getElem? hqueue
    · cases h
  | lose i =>
    obtain rfl := Option.some.inj h
    exact ⟨fun _ => List.mem_of_mem_eraseIdx, fun _ => .inr, rfl, fun _ => rfl⟩
  | discard =>
    obtain rfl := Option.some.inj h
    exact ⟨fun _ => id, by simp, rfl, fun _ => rfl⟩
  | answer success =>
    simp only [step] at h
    split at h
    · next x hheld =>
      split_ifs at h
      obtain rfl := Option.some.inj h
      exact ⟨fun _ => id, by simp, rfl,
        fun q => Shared.destination_getConnection x.port q s.engine.shared⟩
    · cases h

theorem invariant_step {s t : State Out} {l : Label} (hs : Invariant relay s)
    (hg : orderly relay s l) (h : step relay cfg s l = some t) : Invariant relay t := by
  by_cases hl : ∃ l', l = .engine l'
  · obtain ⟨l', rfl⟩ := hl
    exact invariant_engine hs hg h
  · obtain ⟨hqueue, hheld, hthreads, hdest⟩ := underWay_of_relay_step (fun l' h' => hl ⟨l', h'⟩) h
    refine ⟨fun i f hi => ?_, fun x hx d hd => ?_⟩
    · rw [hthreads] at hi ⊢
      exact hs.code i f hi
    · rw [hdest] at hd
      refine hs.consistent x ((mem_underWay relay).mpr ?_) d hd
      rcases (mem_underWay relay).mp hx with ⟨i, hi⟩ | hx | hx
      · refine .inl ⟨i, ?_⟩
        rwa [Relay.redirecting, hthreads] at hi
      · exact .inr (.inl (hqueue hx))
      · exact .inr (hheld x hx)

/-- What the relay has done with a parcel is what it does for the parcel's own address. -/
def Faithful (relay : Relay Out) (e : Parcel × Out) : Prop :=
  ∃ success, relay.react success e.1.payload e.1.addressed = some e.2

theorem log_step {s t : State Out} {l : Label} (hs : Invariant relay s)
    (hlog : ∀ e ∈ s.log, Faithful relay e) (h : step relay cfg s l = some t) :
    ∀ e ∈ t.log, Faithful relay e := by
  cases l with
  | engine l =>
    obtain ⟨e, -, rfl⟩ := Option.map_eq_some_iff.mp h
    exact hlog
  | take i =>
    simp only [step] at h
    split at h
    · obtain rfl := Option.some.inj h
      exact hlog
    · cases h
  | lose i =>
    obtain rfl := Option.some.inj h
    exact hlog
  | discard =>
    obtain rfl := Option.some.inj h
    exact hlog
  | answer success =>
    simp only [step] at h
    split at h
    · next x hheld =>
      split_ifs at h
      obtain rfl := Option.some.inj h
      intro e he
      rcases List.mem_append.mp he with hold | hnew
      · exact hlog e hold
      · rw [Option.mem_toList, Option.map_eq_some_iff] at hnew
        obtain ⟨out, hout, rfl⟩ := hnew
        obtain ⟨d, hd, hreact⟩ := Option.bind_eq_some_iff.mp hout
        have hfound : s.engine.table.destination x.port = some d := by
          rw [← ConnTable.getConnection_windows]
          exact hd
        rw [hs.consistent x ((mem_underWay relay).mpr (.inr (.inr hheld))) d hfound] at hreact
        exact ⟨success, hreact⟩
    · cases h

/-- In every orderly run the relay treats each parcel as its own address demands. -/
theorem log_faithful (relay : Relay Out) (cfg : Settings) (clock : Tick) {ls : List Label}
    {s : State Out} (hrun : run (step relay cfg) (.initial clock) ls = some s)
    (hguard : Guarded (step relay cfg) (fun s l => orderly relay s l) (.initial clock) ls) :
    ∀ e ∈ s.log, Faithful relay e := by
  have hinv : Invariant relay s ∧ ∀ e ∈ s.log, Faithful relay e :=
    guarded_invariant (I := fun s => Invariant relay s ∧ ∀ e ∈ s.log, Faithful relay e)
      (fun _ _ _ hs hg h => ⟨invariant_step hs.1 hg h, log_step hs.1 hs.2 h⟩) hrun hguard
      ⟨invariant_initial relay clock, by simp [State.initial]⟩
  exact hinv.2

end ProxyTun.Windows.Handover
