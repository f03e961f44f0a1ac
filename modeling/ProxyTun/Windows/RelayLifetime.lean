import ProxyTun.Library.Transition
import ProxyTun.Windows.FreshFlows
import ProxyTun.Windows.StartStop

/-!
# The lifetime of the UDP relay

`ProxyTun_Start` creates the thread of the UDP relay only if the proxy is a SOCKS5 proxy at that
time. The packet loop reads the settings of the moment, and redirects a datagram of a tracked
port whatever the settings are.
-/
namespace ProxyTun.Windows.RelayLifetime
open Library Library.Transition

/-- The engine as its interface sees it, where every system call succeeds. -/
structure State where
  cfg : Settings
  running : Bool
  /-- `udp_relay_thread` is a handle. -/
  udpRelayThread : Bool
  shared : Shared

inductive Label where
  /-- The host resolves to the given address, and not at all if it is 0. -/
  | setProxyConfig (type : ProxyType) (proxyIp : CStr) (proxyPort : Port) (resolved : Ip)
  | start
  | stop
  /-- A packet thread works through a packet. -/
  | packet (f : Frame) (env : Environment)

/-- `ProxyTun_SetProxyConfig`, which keeps what it had of a proxy that it refuses. -/
def setProxyConfig (type : ProxyType) (proxyIp : CStr) (proxyPort : Port) (resolved : Ip)
    (s : State) : State :=
  if proxyIp = [] || proxyPort = 0 then s
  else if resolved = 0 then s
  else { s with cfg :=
    { s.cfg with proxyType := type, proxyHost := proxyIp.take 255, proxyPort := proxyPort } }

/-- `ProxyTun_Start`. -/
def start (s : State) : State :=
  if s.running then s
  else { s with
    running := true
    udpRelayThread := if s.cfg.proxyType = .socks5 then true else s.udpRelayThread }

/-- `ProxyTun_Stop`. -/
def stop (s : State) : State :=
  if !s.running then s
  else { s with
    running := false
    udpRelayThread := false
    shared := { s.shared with table := .empty, logged := [] } }

/-- The packet threads exist only while the engine is running. -/
def step (s : State) : Label → Option State
  | .setProxyConfig type proxyIp proxyPort resolved =>
    some (setProxyConfig type proxyIp proxyPort resolved s)
  | .start => some (start s)
  | .stop => some (stop s)
  | .packet f env =>
    if s.running then
      some { s with shared := s.shared.after .windows env (packetProcessor s.cfg f) }
    else none

def State.initial (cfg : Settings) (clock : Tick) : State := ⟨cfg, false, false, .initial clock⟩

/-- What the packet thread puts out for the packet. -/
def State.outputs (s : State) (f : Frame) (env : Environment) : List Output :=
  s.shared.outputs .windows env (packetProcessor s.cfg f)

/-- Where a step redirects a datagram to the UDP relay, the relay of this start is there. -/
def RelayReady (s : State) : Label → Prop
  | .packet f env => ∀ q, .send .toRelay q ∈ s.outputs f env →
      q.dstPort = localUdpRelayPort → s.udpRelayThread = true
  | _ => True

def closes (p : Packet) : Bool :=
  match p.transport with
  | .udp => false
  | .tcp flags => flags.fin || flags.rst

/-- The source ports of proxied packets after a further packet, with the settings of the moment. A
FIN or a RST of a redirected connection takes its port out again. -/
def recordedAfter (cfg : Settings) (env : Environment) (recorded : Port → Bool) (p : Packet) :
    Port → Bool :=
  if !p.outbound then recorded
  else if p.srcPort = p.transport.relayPort then
    if closes p then Function.update recorded p.dstPort false else recorded
  else if recorded p.srcPort then
    if closes p then Function.update recorded p.srcPort false else recorded
  else if documentedAction cfg env p = .proxy ∧ env.allocated = true then
    Function.update recorded p.srcPort true
  else recorded

/-- What the calls and packets of a run come to, without the engine. -/
structure Calls where
  /-- The settings that the calls have made. -/
  cfg : Settings
  /-- The type of the proxy when `ProxyTun_Start` was called, while the engine is running. -/
  startedWith : Option ProxyType
  /-- The source ports of the packets that have been proxied since the start. -/
  recorded : Port → Bool

def Calls.initial (cfg : Settings) : Calls := ⟨cfg, none, fun _ => false⟩

/-- The settings after a call of `ProxyTun_SetProxyConfig`. -/
def configured (type : ProxyType) (proxyIp : CStr) (proxyPort : Port) (resolved : Ip)
    (cfg : Settings) : Settings :=
  if proxyIp = [] || proxyPort = 0 || resolved = 0 then cfg
  else { cfg with proxyType := type, proxyHost := proxyIp.take 255, proxyPort := proxyPort }

def Calls.next (c : Calls) : Label → Calls
  | .setProxyConfig type proxyIp proxyPort resolved =>
    { c with cfg := configured type proxyIp proxyPort resolved c.cfg }
  | .start => { c with startedWith := some (c.startedWith.getD c.cfg.proxyType) }
  | .stop => if c.startedWith = none then c
    else { c with startedWith := none, recorded := fun _ => false }
  | .packet (.ipv4 p) env => { c with recorded := recordedAfter c.cfg env c.recorded p }
  | .packet _ _ => c

/-- The proxy was a SOCKS5 proxy when the engine was started; or the packet is no datagram of an
application; or no packet of its port has been proxied since the start, and it is not to be proxied
itself with the settings of the moment. -/
def relayBefore (c : Calls) : Label → Bool
  | .packet (.ipv4 p) env => c.startedWith = some .socks5 ||
    !(p.outbound && p.transport.isUdp && p.srcPort ≠ localUdpRelayPort) ||
    !c.recorded p.srcPort && documentedAction c.cfg env p ≠ .proxy
  | _ => true

/-- The ports that a table has an entry for. -/
def held (t : ConnTable) : Port → Bool := fun q => (t.destination q).isSome

/-- The calls and packets show what the engine has of the settings, the relay and the table. -/
structure Tells (c : Calls) (s : State) : Prop where
  cfg : s.cfg = c.cfg
  running : s.running = c.startedWith.isSome
  relay : s.udpRelayThread = decide (c.startedWith = some .socks5)
  allTracked : s.shared.table.AllTracked
  recorded : held s.shared.table = c.recorded

theorem isUdp_of_redirected {p q : Packet} (h : LeadsToRelay p q)
    (hport : q.dstPort = localUdpRelayPort) : p.transport.isUdp = true := by
  rw [h.2.2.2] at hport
  cases htransport : p.transport with
  | udp => rfl
  | tcp flags =>
    rw [htransport] at hport
    have hports : localProxyPort ≠ localUdpRelayPort := by decide
    exact absurd hport hports

/-- Every packet that the loop puts out on a way leads along it. -/
theorem mem_outputs_concerns (cfg : Settings) (env : Environment) (f : Frame) (s : Shared)
    {out : Output} (h : out ∈ s.outputs .windows env (packetProcessor cfg f)) :
    Concerns f (.emit out) := by
  have hall : ∀ out ∈ s.outputs .windows env (packetProcessor cfg f), Concerns f (.emit out) := by
    refine Code.eval_invariant (P := Concerns f) (I := fun t => ∀ out ∈ t.2, Concerns f (.emit out))
      (Shared.handle .windows env) ?_ (packetProcessor_concerns cfg f) (by simp)
    intro op t hop ht
    cases op with
    | emit o =>
      intro out hout
      rcases List.mem_append.mp hout with hout | hout
      · exact ht out hout
      · rw [List.mem_singleton.mp hout]
        exact hop
    | _ => exact ht
  exact hall out h

theorem outputs_udp (s : Shared) (cfg : Settings) (env : Environment) {p : Packet}
    (hout : p.outbound = true) (hudp : p.transport = .udp) (hport : p.srcPort ≠ localUdpRelayPort) :
    s.outputs .windows env (packetProcessor cfg (.ipv4 p)) =
      if s.table.isConnectionTracked p.srcPort then [.send .toRelay (redirectTrackedUdp p)]
      else decidedOutputs redirected p (documentedAction cfg env p) := by
  cases htracked : s.table.isConnectionTracked p.srcPort with
  | true =>
    have hloop : packetProcessor cfg (.ipv4 p) = Code.call (.isConnectionTracked p.srcPort)
        fun tracked => if tracked then Routine.emit (.send .toRelay (redirectTrackedUdp p))
          else processUntracked cfg redirectUdp p := by
      simp only [packetProcessor, hout, hudp, processOutboundUdp, if_neg hport, if_true]
      rfl
    rw [hloop, Shared.outputs_isConnectionTracked, htracked]
    rfl
  | false =>
    have hrelay : p.srcPort ≠ p.transport.relayPort := by rwa [hudp]
    exact outputs_documented hout hrelay htracked

theorem from_application {s : State} {env : Environment} {p q : Packet}
    (hq : .send .toRelay q ∈ s.outputs (.ipv4 p) env) (hudp : p.transport = .udp) :
    p.outbound = true ∧ p.srcPort ≠ localUdpRelayPort := by
  have hout : p.outbound = true := by
    by_contra hinbound
    have houtputs : s.outputs (.ipv4 p) env = [.send .unchanged p] := by
      simp only [State.outputs, packetProcessor, if_neg hinbound]
      rfl
    simp [houtputs] at hq
  refine ⟨hout, fun hport => ?_⟩
  let entry := s.shared.table.getConnection .windows p.dstPort
  have houtputs : s.outputs (.ipv4 p) env = [.send .fromRelay (restoreUdp entry p)] := by
    simp only [State.outputs, packetProcessor, if_pos hout, hudp, processOutboundUdp, if_pos hport]
    rfl
  simp [houtputs] at hq

theorem redirected_iff (s : State) (f : Frame) (env : Environment) :
    (∃ q, .send .toRelay q ∈ s.outputs f env ∧ q.dstPort = localUdpRelayPort) ↔
      ∃ p, f = .ipv4 p ∧ p.outbound = true ∧ p.transport = .udp ∧
        p.srcPort ≠ localUdpRelayPort ∧ (s.shared.table.isConnectionTracked p.srcPort = true ∨
          documentedAction s.cfg env p = .proxy) := by
  constructor
  · rintro ⟨q, hq, hqport⟩
    have hconcerns := mem_outputs_concerns s.cfg env f s.shared hq
    cases f with
    | ipv6 => cases hconcerns
    | neither => cases hconcerns
    | ipv4 p =>
      have htransport : p.transport = .udp :=
        (Transport.isUdp_eq_true_iff _).mp (isUdp_of_redirected hconcerns hqport)
      obtain ⟨hout, hport⟩ := from_application hq htransport
      refine ⟨p, rfl, hout, htransport, hport, ?_⟩
      rw [State.outputs, outputs_udp s.shared s.cfg env hout htransport hport] at hq
      split_ifs at hq with htracked
      · exact .inl htracked
      · right
        cases haction : documentedAction s.cfg env p with
        | proxy => rfl
        | direct => simp [haction, decidedOutputs] at hq
        | block => simp [haction, decidedOutputs] at hq
  · rintro ⟨p, rfl, hout, htransport, hport, hrelay⟩
    rw [State.outputs, outputs_udp s.shared s.cfg env hout htransport hport]
    split_ifs with htracked
    · exact ⟨_, List.mem_singleton_self _, rfl⟩
    · have haction := hrelay.resolve_left htracked
      refine ⟨redirected p, by simp [haction, decidedOutputs], ?_⟩
      rw [redirected, htransport]
      rfl

section Recorded
variable (t : ConnTable) (env : Environment) (p : Packet) {s : Shared}

theorem held_eq (h : t.AllTracked) (q : Port) : t.isConnectionTracked q = held t q := by
  rw [Bool.eq_iff_iff]
  exact h.isConnectionTracked_iff q

theorem held_removeConnection (q : Port) :
    held (t.removeConnection q) = Function.update (held t) q false := by
  funext r
  rw [held, ConnTable.destination_removeConnection, Function.update_apply]
  split_ifs <;> rfl

theorem held_addConnection (now : Tick) (allocated : Bool) {q : Port} (hnew : held t q = false)
    (srcIp destIp : Ip) (destPort : Port) :
    held (t.addConnection .windows now allocated q srcIp destIp destPort) =
      if allocated = true then Function.update (held t) q true else held t := by
  have hnone : (t.destination q).isSome = false := hnew
  funext r
  rw [held, ConnTable.destination_addConnection, hnone]
  by_cases hr : r = q
  · rw [hr]
    cases allocated with
    | true => simp
    | false => simp [hnew]
  · cases allocated <;> simp [hr, held]

theorem held_getConnection (q : Port) :
    held (s.getConnection .windows q).2.table = held s.table := by
  funext r
  rw [held, Shared.destination_getConnection, held]

theorem held_processUntracked (cfg : Settings) (redirect : Packet → Packet)
    (hnew : held s.table p.srcPort = false) :
    held (s.after .windows env (processUntracked cfg redirect p)).table =
      if documentedAction cfg env p = .proxy ∧ env.allocated = true then
        Function.update (held s.table) p.srcPort true
      else held s.table := by
  obtain ⟨s', htable, hs'⟩ := eval_processUntracked cfg env p s redirect
  rw [Shared.after, hs', decision_eq_documentedAction, ← htable]
  rw [← htable] at hnew
  cases documentedAction cfg env p with
  | proxy =>
    have hadd := held_addConnection s'.table s'.clock env.allocated hnew p.srcAddr p.dstAddr
      p.dstPort
    simp only [true_and]
    exact hadd
  | direct => rfl
  | block => rfl

theorem held_packetProcessor (cfg : Settings) (h : s.table.AllTracked) :
    held (s.after .windows env (packetProcessor cfg (.ipv4 p))).table =
      recordedAfter cfg env (held s.table) p := by
  unfold recordedAfter
  by_cases hout : p.outbound = true
  · rw [if_neg (by simp [hout])]
    cases htransport : p.transport with
    | udp =>
      have hstays : closes p = false := by simp [closes, htransport]
      have hrelay : Transport.udp.relayPort = localUdpRelayPort := rfl
      simp only [packetProcessor, if_pos hout, htransport, processOutboundUdp, hstays, hrelay,
        Bool.false_eq_true, if_false]
      by_cases hport : p.srcPort = localUdpRelayPort
      · rw [if_pos hport, if_pos hport]
        exact held_getConnection p.dstPort
      · rw [if_neg hport, if_neg hport]
        change held (Shared.after .windows env (if s.table.isConnectionTracked p.srcPort then _
          else _) s).table = _
        rw [held_eq _ h]
        by_cases htracked : held s.table p.srcPort = true
        · rw [if_pos htracked, if_pos htracked]
          rfl
        · rw [if_neg htracked, if_neg htracked]
          exact held_processUntracked env p cfg redirectUdp (by simpa using htracked)
    | tcp flags =>
      have hcloses : closes p = (flags.fin || flags.rst) := by simp [closes, htransport]
      have hrelay : (Transport.tcp flags).relayPort = localProxyPort := rfl
      simp only [packetProcessor, if_pos hout, htransport, processOutboundTcp, hcloses, hrelay]
      by_cases hport : p.srcPort = localProxyPort
      · rw [if_pos hport, if_pos hport]
        by_cases hends : (flags.fin || flags.rst) = true
        · rw [if_pos hends, hends, ← @held_getConnection s p.dstPort]
          exact held_removeConnection (s.getConnection .windows p.dstPort).2.table p.dstPort
        · rw [if_neg hends, Bool.eq_false_iff.mpr hends]
          exact held_getConnection p.dstPort
      · rw [if_neg hport, if_neg hport]
        change held (Shared.after .windows env (if s.table.isConnectionTracked p.srcPort then _
          else _) s).table = _
        rw [held_eq _ h]
        by_cases htracked : held s.table p.srcPort = true
        · rw [if_pos htracked, if_pos htracked]
          by_cases hends : (flags.fin || flags.rst) = true
          · rw [if_pos hends, hends]
            exact held_removeConnection s.table p.srcPort
          · rw [if_neg hends, Bool.eq_false_iff.mpr hends]
            rfl
        · rw [if_neg htracked, if_neg htracked]
          exact held_processUntracked env p cfg redirectTcp (by simpa using htracked)
  · rw [if_pos (by simpa using hout)]
    simp only [packetProcessor, if_neg hout]
    rfl

theorem allTracked_after (cfg : Settings) (f : Frame) (h : s.table.AllTracked) :
    (s.after .windows env (packetProcessor cfg f)).table.AllTracked := by
  refine Code.eval_invariant (P := fun _ => True) (I := fun t => t.1.table.AllTracked)
    (Shared.handle .windows env) ?_ ((packetProcessor_concerns cfg f).mono fun _ _ => trivial) h
  intro op t _ ht
  cases op with
  | emit out => exact ht
  | _ => exact Shared.allTracked_perform ht _

end Recorded

theorem tells_initial (cfg : Settings) (clock : Tick) :
    Tells (.initial cfg) (.initial cfg clock) :=
  ⟨rfl, rfl, rfl, ConnTable.allTracked_empty, rfl⟩

theorem Tells.step {c : Calls} {s t : State} {l : Label} (hs : Tells c s) (h : step s l = some t) :
    Tells (c.next l) t := by
  cases l with
  | setProxyConfig type proxyIp proxyPort resolved =>
    obtain rfl := Option.some.inj h
    have hcfg : (setProxyConfig type proxyIp proxyPort resolved s).cfg =
        configured type proxyIp proxyPort resolved c.cfg := by
      rw [← hs.cfg]
      unfold setProxyConfig configured
      split_ifs <;> simp_all
    have hrest : setProxyConfig type proxyIp proxyPort resolved s =
        { s with cfg := (setProxyConfig type proxyIp proxyPort resolved s).cfg } := by
      unfold setProxyConfig
      split_ifs <;> rfl
    rw [hrest]
    exact ⟨hcfg, hs.running, hs.relay, hs.allTracked, hs.recorded⟩
  | start =>
    obtain rfl := Option.some.inj h
    unfold start
    cases hstarted : c.startedWith with
    | some type =>
      have hup : s.running = true := by
        rw [hs.running, hstarted]
        rfl
      have hsame : c.next .start = c := by
        rw [Calls.next, hstarted, Option.getD_some, ← hstarted]
      rw [if_pos hup, hsame]
      exact hs
    | none =>
      have hdown : s.running = false := by
        rw [hs.running, hstarted]
        rfl
      have hrelay : s.udpRelayThread = false := by simp [hs.relay, hstarted]
      rw [if_neg (by simp [hdown])]
      refine ⟨hs.cfg, rfl, ?_, hs.allTracked, hs.recorded⟩
      simp [Calls.next, hstarted, hs.cfg, hrelay]
  | stop =>
    obtain rfl := Option.some.inj h
    unfold stop
    by_cases hstopped : c.startedWith = none
    · have hdown : s.running = false := by
        rw [hs.running, hstopped]
        rfl
      rw [if_pos (by simp [hdown]), Calls.next, if_pos hstopped]
      exact hs
    · have hup : s.running = true := by
        rw [hs.running]
        exact Option.isSome_iff_ne_none.mpr hstopped
      rw [if_neg (by simp [hup]), Calls.next, if_neg hstopped]
      exact ⟨hs.cfg, rfl, rfl, ConnTable.allTracked_empty, rfl⟩
  | packet f env =>
    simp only [RelayLifetime.step] at h
    split_ifs at h with hrunning
    obtain rfl := Option.some.inj h
    have htracked := allTracked_after env s.cfg f hs.allTracked
    cases f with
    | ipv4 p =>
      refine ⟨hs.cfg, hs.running, hs.relay, htracked, ?_⟩
      change held (s.shared.after .windows env (packetProcessor s.cfg (.ipv4 p))).table = _
      rw [held_packetProcessor env p s.cfg hs.allTracked, hs.cfg, hs.recorded]
      rfl
    | ipv6 => exact ⟨hs.cfg, hs.running, hs.relay, htracked, hs.recorded⟩
    | neither => exact ⟨hs.cfg, hs.running, hs.relay, htracked, hs.recorded⟩

/-- The state shows what the engine with all its handles has of the relay. -/
structure Shows (e : StartStop.Engine) (s : State) : Prop where
  running : e.running = s.running
  relay : (e.handles.held .udpRelayThread).isSome = s.udpRelayThread

theorem shows_start {e : StartStop.Engine} {s : State} (h : Shows e s)
    {attempt : StartStop.Attempt} (hmutex : attempt.createMutex = true)
    (hopens : ∀ v, attempt.opens v = true) :
    Shows (e.start s.cfg.proxyType attempt) (start s) := by
  cases hrunning : s.running with
  | true =>
    have he : e.start s.cfg.proxyType attempt = e := if_pos (h.running.trans hrunning)
    have hs : start s = s := if_pos hrunning
    rw [he, hs]
    exact h
  | false =>
    obtain ⟨hup, hrelay⟩ := StartStop.Engine.start_of_opens (h.running.trans hrunning)
      s.cfg.proxyType hmutex hopens
    rw [start, if_neg (by simp [hrunning])]
    refine ⟨hup, hrelay.trans ?_⟩
    rw [h.relay]
    by_cases hsocks : s.cfg.proxyType = .socks5 <;> simp [hsocks]

theorem shows_stop {e : StartStop.Engine} {s : State} (h : Shows e s) :
    Shows e.stop (stop s) := by
  cases hrunning : s.running with
  | true =>
    have hclear := StartStop.Engine.clear_stop (h.running.trans hrunning)
    rw [stop, if_neg (by simp [hrunning])]
    refine ⟨?_, by rw [hclear]; rfl⟩
    rw [StartStop.Engine.stop, if_neg (by simp [h.running, hrunning])]
    simp
  | false =>
    have he : e.stop = e := if_pos (by simp [h.running, hrunning])
    have hs : stop s = s := if_pos (by simp [hrunning])
    rw [he, hs]
    exact h

/-- What the runs say of the relay is what runs of the engine say, with everything it opens. -/
theorem shown_of_run (cfg : Settings) (clock : Tick) {ls : List Label} {s : State}
    (hrun : run step (.initial cfg clock) ls = some s) :
    ∃ e, Reachable StartStop.step .initial e ∧ Shows e s := by
  refine reachable_of_simulation (R := Shows) ?_ hrun ⟨rfl, rfl⟩
  intro s l t e hshows h
  have hstay : Reachable StartStop.step e e := ⟨[], rfl⟩
  cases l with
  | setProxyConfig type proxyIp proxyPort resolved =>
    obtain rfl := Option.some.inj h
    refine ⟨e, hstay, ?_⟩
    rw [setProxyConfig]
    split_ifs
    · exact hshows
    · exact hshows
    · exact ⟨hshows.running, hshows.relay⟩
  | start =>
    obtain rfl := Option.some.inj h
    let l : StartStop.Label := .start s.cfg.proxyType StartStop.everythingOpens
    have hstep : StartStop.step e l = some (e.start s.cfg.proxyType StartStop.everythingOpens) :=
      rfl
    exact ⟨_, .single hstep, shows_start hshows rfl fun _ => rfl⟩
  | stop =>
    obtain rfl := Option.some.inj h
    have hstep : StartStop.step e .stop = some e.stop := rfl
    exact ⟨_, .single hstep, shows_stop hshows⟩
  | packet f env =>
    simp only [step] at h
    split_ifs at h
    obtain rfl := Option.some.inj h
    exact ⟨e, hstay, hshows.running, hshows.relay⟩

/-- A step redirects only to a relay that is there exactly when the calls and packets before it
say that it does. -/
theorem relayReady_step_iff {c : Calls} {s : State} (hs : Tells c s) (l : Label) :
    RelayReady s l ↔ relayBefore c l = true := by
  cases l with
  | packet f env =>
    have hredirected := redirected_iff s f env
    have hready : RelayReady s (.packet f env) ↔
        (∃ q, .send .toRelay q ∈ s.outputs f env ∧ q.dstPort = localUdpRelayPort) →
          s.udpRelayThread = true :=
      ⟨fun h ⟨q, hq, hport⟩ => h q hq hport, fun h q hq hport => h ⟨q, hq, hport⟩⟩
    rw [hready, hredirected, hs.relay, decide_eq_true_iff]
    cases f with
    | ipv4 p =>
      have htracked : s.shared.table.isConnectionTracked p.srcPort = c.recorded p.srcPort := by
        rw [held_eq _ hs.allTracked, hs.recorded]
      simp only [relayBefore, Bool.or_eq_true, Bool.and_eq_true, Bool.not_eq_true',
        Bool.and_eq_false_iff, decide_eq_true_iff, decide_eq_false_iff_not]
      rw [← hs.cfg, ← htracked]
      constructor
      · intro h
        by_cases hsocks : c.startedWith = some .socks5
        · exact .inl (.inl hsocks)
        · by_cases happ : p.outbound = true ∧ p.transport = .udp ∧ p.srcPort ≠ localUdpRelayPort
          · refine .inr ⟨?_, ?_⟩
            · by_contra hyes
              exact hsocks (h ⟨p, rfl, happ.1, happ.2.1, happ.2.2, .inl (by simpa using hyes)⟩)
            · intro hproxy
              exact hsocks (h ⟨p, rfl, happ.1, happ.2.1, happ.2.2, .inr hproxy⟩)
          · refine .inl (.inr ?_)
            by_contra hno
            simp only [not_or, Bool.not_eq_false, not_not] at hno
            exact happ ⟨hno.1.1, (Transport.isUdp_eq_true_iff _).mp hno.1.2, hno.2⟩
      · rintro ((hsocks | hother) | ⟨hnew, hdirect⟩) ⟨q, hq, hout, hudp, hport, hrelay⟩
        · exact hsocks
        · obtain rfl := Frame.ipv4.inj hq
          rw [hudp] at hother
          simp [hout, hport, Transport.isUdp] at hother
        · obtain rfl := Frame.ipv4.inj hq
          rcases hrelay with htrack | hproxy
          · rw [hnew] at htrack
            cases htrack
          · exact absurd hproxy hdirect
    | ipv6 => simp [relayBefore]
    | neither => simp [relayBefore]
  | _ => simp [RelayReady, relayBefore]

/-- The settings of a user with an HTTP proxy. -/
def throughHttp : Settings := { Settings.proxyEverything with proxyType := .http }

def chooseProxy (type : ProxyType) : Label :=
  .setProxyConfig type "10.0.0.1".toList 1080 (ipv4 10 0 0 1)

/-- A TCP connection and a datagram from the same port. -/
def connection : Frame := .ipv4 toWeb
def datagram : Frame := .ipv4 toRemote

end ProxyTun.Windows.RelayLifetime
