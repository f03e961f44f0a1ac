import ProxyTun.Packets.Engine
import ProxyTun.Windows.PacketProcessor

/-!
# Redirected TCP connections

The history keeps, beside the engine, the connections whose SYN has been redirected and
that have not been seen to end, and with which source port each packet of the relay has
been sent on. A connection ends with a RST, or with a FIN from both sides.
-/
namespace ProxyTun.Windows.Flows
open Library Library.Transition

/-- A redirected connection: its client's end, the address of its server, the destination
port on record when its SYN was redirected, and which sides have sent a FIN. -/
structure Flow where
  client : Ip
  clientPort : Port
  server : Ip
  port : Port
  clientFin : Bool
  relayFin : Bool
  deriving DecidableEq, Repr

def Flow.ends (f : Flow) : Ip × Port × Ip := (f.client, f.clientPort, f.server)

/-- No end of the connection has been seen. -/
def Flow.isQuiet (f : Flow) : Bool := !f.clientFin && !f.relayFin

/-- The connection that a packet belongs to. The relay answers from the address that the
client's packets came to, which is the client's own unless both ends are loopback. -/
def endsOf (p : Packet) : Ip × Port × Ip :=
  if p.srcPort = localProxyPort then
    if isLoopback p.srcAddr && isLoopback p.dstAddr then (p.dstAddr, p.dstPort, p.srcAddr)
    else (p.srcAddr, p.dstPort, p.dstAddr)
  else (p.srcAddr, p.srcPort, p.dstAddr)

def Flow.mark (flags : TcpFlags) (fromRelay : Bool) (f : Flow) : Flow :=
  { f with
    clientFin := f.clientFin || (flags.fin && !fromRelay)
    relayFin := f.relayFin || (flags.fin && fromRelay) }

/-- The flow after one of its packets has been seen, if it has not ended. -/
def Flow.see (flags : TcpFlags) (fromRelay : Bool) (f : Flow) : Option Flow :=
  if flags.rst || ((f.mark flags fromRelay).clientFin && (f.mark flags fromRelay).relayFin)
  then none else some (f.mark flags fromRelay)

structure State where
  engine : Engine Frame Output
  flows : List Flow
  /-- The port that a thread owes to the packet of a relay it is working on. -/
  owed : Fin 4 → Option Port
  /-- Of each packet from the relay: the port owed to it, and the port it left from. -/
  restored : List (Option Port × Port)

def State.initial (clock : Tick) : State := ⟨.initial clock, [], fun _ => none, []⟩

def capture (p : Packet) (flows : List Flow) : List Flow :=
  match p.outbound, p.transport with
  | true, .tcp flags => flows.filterMap fun f =>
    if f.ends = endsOf p then f.see flags (p.srcPort = localProxyPort) else some f
  | _, _ => flows

/-- The flow of a SYN that is redirected. -/
def opened (t : ConnTable) (p : Packet) : Flow :=
  ⟨p.srcAddr, p.srcPort, p.dstAddr, ((t.destination p.srcPort).map Prod.snd).getD p.dstPort,
    false, false⟩

/-- The port owed to a packet of the relay, if it belongs to a flow that counts. -/
def due (counts : Flow → Bool) (p : Packet) (flows : List Flow) : Option Port :=
  (flows.find? fun f => counts f && f.ends = endsOf p).map Flow.port

variable (counts : Flow → Bool) (cfg : Settings)

/-- The history after a step, with the engine still as it was before the step. -/
def observe (s : State) (l : EngineLabel Frame) : State :=
  match l with
  | .receive i f => { s with
      flows := match f with
        | .ipv4 p => capture p s.flows
        | _ => s.flows
      owed := Function.update s.owed i none }
  | .proceed i _ => match s.engine.issues l with
    | some (.ipv4 p, .getConnection _) =>
      if p.transport.isUdp then s
      else { s with owed := Function.update s.owed i (due counts p s.flows) }
    | some (.ipv4 p, .emit (.send .toRelay _)) =>
      if p.opensTcp then
        { s with flows := opened s.engine.table p ::
            s.flows.filter fun f => f.ends != (opened s.engine.table p).ends }
      else s
    | some (.ipv4 p, .emit (.send .fromRelay q)) =>
      if p.transport.isUdp then s
      else { s with restored := s.restored ++ [(s.owed i, q.srcPort)] }
    | _ => s
  | _ => s

def step (s : State) (l : EngineLabel Frame) : Option State :=
  (s.engine.step .windows (packetProcessor cfg) l).map fun e =>
    { observe counts s l with engine := e }

/-- `add_connection` records no other destination port for a client port with a connection
that has not ended. -/
def keepsRecords (s : State) (l : EngineLabel Frame) : Bool :=
  match s.engine.issues l with
  | some (_, .addConnection q _ _ port) => s.flows.all fun f => f.clientPort != q || f.port = port
  | _ => true

/-- When a packet of the relay is looked up for a connection that counts, the table holds
its client's port. -/
def findsEntry (s : State) (l : EngineLabel Frame) : Bool :=
  match s.engine.issues l with
  | some (.ipv4 p, .getConnection q) =>
    p.transport.isUdp || (due counts p s.flows).isNone || (s.engine.table.destination q).isSome
  | _ => true

def CodeOf (f : Frame) (c : Work Unit) : Prop := c.All (Concerns f) ∧ c.Each RestoresFound

theorem codeOf_packetProcessor (f : Frame) : CodeOf f (packetProcessor cfg f) :=
  ⟨packetProcessor_concerns cfg f, packetProcessor_restores cfg f⟩

/-- The table holds no port for the client of a flow but the recorded one, and a thread that
owes a port to a packet will send the packet from it. -/
structure Invariant (s : State) : Prop where
  code : s.engine.ThreadsSatisfy CodeOf
  recorded : ∀ f ∈ s.flows, ∀ d ∈ s.engine.table.destination f.clientPort, d.2 = f.port
  owed : ∀ i port, s.owed i = some port → (s.engine.threads i).code.All (LeavesFrom port)
  restored : ∀ e ∈ s.restored, ∀ port ∈ e.1, e.2 = port

theorem invariant_initial (clock : Tick) : Invariant (.initial clock) :=
  ⟨Engine.threadsSatisfy_initial _ clock, fun f hf => by simp [State.initial] at hf,
    fun i port h => by simp [State.initial] at h, fun e he => by simp [State.initial] at he⟩

variable {counts cfg}

theorem see_some {flags : TcpFlags} {fromRelay : Bool} {f g : Flow}
    (h : f.see flags fromRelay = some g) :
    g.clientPort = f.clientPort ∧ g.port = f.port ∧ (g.isQuiet = true → f.isQuiet = true) := by
  unfold Flow.see at h
  split_ifs at h
  obtain rfl := Option.some.inj h
  refine ⟨rfl, rfl, ?_⟩
  simp only [Flow.isQuiet, Flow.mark, Bool.and_eq_true, Bool.not_eq_true', Bool.or_eq_false_iff]
  exact fun hq => ⟨hq.1.1, hq.2.1⟩

theorem mem_capture {p : Packet} {flows : List Flow} {g : Flow} (h : g ∈ capture p flows) :
    ∃ f ∈ flows, g.clientPort = f.clientPort ∧ g.port = f.port ∧
      (g.isQuiet = true → f.isQuiet = true) := by
  unfold capture at h
  split at h
  · obtain ⟨f, hf, hg⟩ := List.mem_filterMap.mp h
    split_ifs at hg with hends
    · exact ⟨f, hf, see_some hg⟩
    · obtain rfl := Option.some.inj hg
      exact ⟨f, hf, rfl, rfl, id⟩
  · exact ⟨g, h, rfl, rfl, id⟩

/-- A flow after a step is one from before it, or that of the SYN which the step redirects. -/
theorem mem_flows_observe {s : State} {l : EngineLabel Frame} {g : Flow}
    (h : g ∈ (observe counts s l).flows) :
    (∃ f ∈ s.flows, g.clientPort = f.clientPort ∧ g.port = f.port ∧
      (g.isQuiet = true → f.isQuiet = true)) ∨
    ∃ p q, s.engine.issues l = some (.ipv4 p, .emit (.send .toRelay q)) ∧
      p.opensTcp = true ∧ g = opened s.engine.table p := by
  have hsame : g ∈ s.flows → ∃ f ∈ s.flows, g.clientPort = f.clientPort ∧ g.port = f.port ∧
      (g.isQuiet = true → f.isQuiet = true) := fun hg => ⟨g, hg, rfl, rfl, id⟩
  cases l with
  | receive i f =>
    cases f with
    | ipv4 p => exact .inl (mem_capture h)
    | _ => exact .inl (hsame h)
  | proceed i env =>
    simp only [observe] at h
    split at h
    · split_ifs at h <;> exact .inl (hsame h)
    · next p q hissues =>
      split_ifs at h with hopens
      · rcases List.mem_cons.mp h with rfl | hold
        · exact .inr ⟨p, q, hissues, hopens, rfl⟩
        · exact .inl (hsame (List.mem_of_mem_filter hold))
      · exact .inl (hsame h)
    · split_ifs at h <;> exact .inl (hsame h)
    · exact .inl (hsame h)
  | _ => exact .inl (hsame h)

theorem due_some {p : Packet} {flows : List Flow} {port : Port}
    (h : due counts p flows = some port) :
    ∃ f ∈ flows, counts f = true ∧ f.ends = endsOf p ∧ f.port = port := by
  obtain ⟨f, hf, rfl⟩ := Option.map_eq_some_iff.mp h
  have hprop := List.find?_some hf
  simp only [Bool.and_eq_true, decide_eq_true_eq] at hprop
  exact ⟨f, List.mem_of_find?_eq_some hf, hprop.1, hprop.2, rfl⟩

theorem clientPort_of_ends {f : Flow} {p : Packet} (hp : p.srcPort = localProxyPort)
    (h : f.ends = endsOf p) : f.clientPort = p.dstPort := by
  rw [endsOf, if_pos hp] at h
  split_ifs at h <;> exact (Prod.mk.inj (Prod.mk.inj h).2).1

section Step

variable {s : State} {e : Engine Frame Output} {l : EngineLabel Frame}

theorem recorded_step (hs : Invariant s) (hkeeps : keepsRecords s l)
    (h : s.engine.step .windows (packetProcessor cfg) l = some e) {f : Flow} (hf : f ∈ s.flows)
    {d : Ip × Port} (hd : d ∈ e.table.destination f.clientPort) : d.2 = f.port := by
  rcases Engine.destination_step h f.clientPort with
    hsame | ⟨input, srcIp, destIp, destPort, hissues, hnew⟩ | ⟨-, hnone⟩ | ⟨-, hnone⟩
  · exact hs.recorded f hf d (hsame ▸ hd)
  · rw [hnew, Option.mem_some_iff] at hd
    simp only [keepsRecords, hissues, List.all_eq_true] at hkeeps
    simpa [← hd, eq_comm] using hkeeps f hf
  · rw [hnone] at hd
    cases hd
  · rw [hnone] at hd
    cases hd

theorem destination_of_emit {input : Frame} {out : Output}
    (h : s.engine.step .windows (packetProcessor cfg) l = some e)
    (hissues : s.engine.issues l = some (input, .emit out)) (q : Port) :
    e.table.destination q = s.engine.table.destination q := by
  obtain ⟨env, he⟩ := Engine.step_of_issues h hissues
  rw [Engine.table, he]
  rfl

theorem opened_recorded {t : ConnTable} {p : Packet} {d : Ip × Port}
    (hd : d ∈ t.destination p.srcPort) : d.2 = (opened t p).port := by
  rw [Option.mem_def] at hd
  simp [opened, hd]

/-- A thread that executes its next operation still sends from the port it owes. The lookup
that makes it owe the port finds that port. -/
theorem owed_proceed (hs : Invariant s) (hfinds : findsEntry counts s l) {i : Fin 4}
    {env : Environment} (hl : l = .proceed i env)
    (h : s.engine.step .windows (packetProcessor cfg) l = some e) {port : Port}
    (howed : (observe counts s l).owed i = some port) :
    (e.threads i).code.All (LeavesFrom port) := by
  subst hl
  obtain ⟨input, op, next, hi, hissues, hafter, -⟩ := Engine.thread_proceed h
  rw [hafter]
  have hcode := hs.code i input (by rw [hi])
  have hold : s.owed i = some port →
      (next (s.engine.shared.perform .windows env op).1).All (LeavesFrom port) := by
    intro hport
    have hall := hs.owed i port hport
    rw [hi] at hall
    exact hall.2 _
  rw [hi] at hcode
  simp only [observe, hissues] at howed
  split at howed
  · next p q hop =>
    obtain ⟨rfl, rfl⟩ := by simpa only [Option.some.injEq, Prod.mk.injEq] using hop
    split_ifs at howed with hudp
    · exact hold howed
    · simp only [Function.update_self] at howed
      obtain ⟨f, hf, -, hends, rfl⟩ := due_some howed
      obtain ⟨rfl, hrelay⟩ : q = p.dstPort ∧ p.srcPort = p.transport.relayPort := hcode.1.1
      have hport : p.srcPort = localProxyPort := by
        cases ht : p.transport with
        | udp => simp [ht, Transport.isUdp] at hudp
        | tcp flags => rw [hrelay, ht]; rfl
      simp only [findsEntry, hissues, hudp, howed, Option.isNone_some, Bool.false_or] at hfinds
      obtain ⟨d, hd⟩ := Option.isSome_iff_exists.mp hfinds
      have hfound : d ∈ (s.engine.shared.perform .windows env (.getConnection p.dstPort :
          Op Output)).1 := by
        rw [Option.mem_def, ← hd, ← ConnTable.getConnection_windows]
        rfl
      have hall := (hcode.2 (s.engine.shared.perform .windows env (.getConnection p.dstPort)).1).1
        d hfound
      rwa [hs.recorded f hf d (clientPort_of_ends hport hends ▸ hd)] at hall
  · split_ifs at howed <;> exact hold howed
  · split_ifs at howed <;> exact hold howed
  · exact hold howed

theorem owed_step (hs : Invariant s) (hfinds : findsEntry counts s l)
    (h : s.engine.step .windows (packetProcessor cfg) l = some e) {j : Fin 4} {port : Port}
    (howed : (observe counts s l).owed j = some port) :
    (e.threads j).code.All (LeavesFrom port) := by
  cases l with
  | receive i f =>
    obtain ⟨-, rfl⟩ := Engine.step_receive h
    by_cases hj : j = i
    · simp [observe, hj] at howed
    · simp only [observe, Function.update_of_ne hj] at howed ⊢
      exact hs.owed j port howed
  | proceed i env =>
    by_cases hj : j = i
    · subst hj
      exact owed_proceed hs hfinds rfl h howed
    · obtain ⟨-, -, -, -, -, -, hothers⟩ := Engine.thread_proceed h
      rw [hothers j hj]
      refine hs.owed j port ?_
      simp only [observe] at howed
      split at howed
      · split_ifs at howed
        · exact howed
        · simpa only [Function.update_of_ne hj] using howed
      · split_ifs at howed <;> exact howed
      · split_ifs at howed <;> exact howed
      · exact howed
  | _ =>
    have hthreads : e.threads = s.engine.threads :=
      Engine.threads_of_other h (fun _ _ hl => by cases hl) fun _ _ hl => by cases hl
    rw [hthreads]
    exact hs.owed j port howed

theorem restored_step (hs : Invariant s) {r : Option Port × Port}
    (hr : r ∈ (observe counts s l).restored) : ∀ port ∈ r.1, r.2 = port := by
  cases l with
  | proceed i env =>
    simp only [observe] at hr
    split at hr
    · split_ifs at hr <;> exact hs.restored r hr
    · split_ifs at hr <;> exact hs.restored r hr
    · next p q hissues =>
      split_ifs at hr
      · exact hs.restored r hr
      · rcases List.mem_append.mp hr with hold | hnew
        · exact hs.restored r hold
        · obtain rfl := List.mem_singleton.mp hnew
          intro port hport
          obtain ⟨next, hi⟩ := Engine.issues_proceed hissues
          have hall := hs.owed i port hport
          rw [hi] at hall
          exact hall.1
    · exact hs.restored r hr
  | _ => exact hs.restored r hr

end Step

theorem invariant_step {s t : State} {l : EngineLabel Frame} (hs : Invariant s)
    (hkeeps : keepsRecords s l) (hfinds : findsEntry counts s l)
    (h : step counts cfg s l = some t) : Invariant t := by
  obtain ⟨e, he, rfl⟩ := Option.map_eq_some_iff.mp h
  refine ⟨Engine.threadsSatisfy_step (codeOf_packetProcessor cfg) (fun _ _ _ => Code.rest_of_call)
    hs.code he, ?_,
    fun j port => owed_step hs hfinds he, fun r => restored_step hs⟩
  intro g hg d hd
  rcases mem_flows_observe hg with ⟨f, hf, hclient, hport, -⟩ | ⟨p, q, hissues, -, rfl⟩
  · rw [hclient] at hd
    rw [hport]
    exact recorded_step hs hkeeps he hf hd
  · exact opened_recorded (destination_of_emit he hissues p.srcPort ▸ hd)

end ProxyTun.Windows.Flows
