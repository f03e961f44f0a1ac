import ProxyTun.Linux.PacketCallback
import ProxyTun.Packets.Engine

/-!
# Flows that bypass the rules

The callback accepts every packet of a source port that is in the connection table, on the
assumption that the NAT table goes on redirecting its flow. An entry left by another flow
of the same port lets a new flow through in the same way.
-/
namespace ProxyTun.Linux
open Library Library.Transition

/-- The documented decision for a packet, a function of its owner and its destination. -/
def decision (cfg : Settings) (env : Environment) (p : Packet) : RuleAction :=
  decisionFor filters (isExempt cfg) cfg env p (env.processId p.transport.isUdp p.srcAddr p.srcPort)

def verdictOf (p : Packet) : RuleAction → Verdict
  | .direct => .accept
  | .block => .drop
  | .proxy => .acceptMarked (redirectMark p.transport)

/-- A blocked packet is dropped, and a packet to be proxied is marked for the redirect. -/
def Obeys (p : Packet) (action : RuleAction) (verdicts : List Verdict) : Prop :=
  (action = .block → verdicts = [.drop]) ∧
    (action = .proxy → verdicts = [.acceptMarked (redirectMark p.transport)])

/-- The packet opens a TCP connection, or is a datagram. -/
def opensFlow (p : Packet) : Bool := p.transport.isUdp || p.opensTcp

variable (cfg : Settings) (env : Environment) (p : Packet) (s : Shared)

theorem logConnection_internal (pid : Pid) (action : RuleAction) :
    (logConnection cfg pid p action).All Op.IsInternal := by
  refine .bind ?_ fun name => ?_
  · unfold logName
    split_ifs
    · exact ⟨trivial, fun _ => trivial⟩
    · trivial
    · exact ⟨trivial, fun _ => trivial⟩
  · cases name with
    | none => trivial
    | some name =>
      refine .bind ⟨trivial, fun _ => trivial⟩ fun logged => ?_
      cases logged with
      | true => trivial
      | false => exact ⟨trivial, fun _ => ⟨trivial, fun _ => trivial⟩⟩

/-- The callback carries out the decision on a packet of a port that is not tracked. -/
theorem outputs_processUntracked :
    s.outputs .linux env (processUntracked cfg p) = [verdictOf p (decision cfg env p)] := by
  have hfind : (findOwner p).eval (Shared.handle .linux env) (s, []) =
      (env.processId p.transport.isUdp p.srcAddr p.srcPort, s, []) := rfl
  obtain ⟨s', -, hs'⟩ := eval_decided filters (isExempt cfg) cfg env p hfind
    (fun pid action => Routine.all_onlyIf (isLogged cfg p pid) fun _ =>
      logConnection_internal cfg p pid action)
    (carryOut p)
  have hcode : s.outputs .linux env (processUntracked cfg p) =
      s'.outputs .linux env (carryOut p (decision cfg env p)) :=
    congrArg (fun r => r.2.2) hs'
  rw [hcode]
  cases decision cfg env p <;> rfl

/-- Behind the length checks the verdict on a new flow is that of the shortcut or that of the
rules. -/
theorem outputs_processTransport (hopens : opensFlow p = true)
    (hport : p.srcPort ≠ p.transport.relayPort) :
    s.outputs .linux env (processTransport cfg p) =
      if s.table.isConnectionTracked p.srcPort then [.accept]
      else [verdictOf p (decision cfg env p)] := by
  have hlook : (!p.transport.isUdp && !p.opensTcp) = false := by
    rw [← Bool.not_or]
    exact congrArg (!·) hopens
  have hcode : processTransport cfg p = Code.call (.isConnectionTracked p.srcPort)
      fun tracked => if tracked then Routine.emit .accept else processUntracked cfg p := by
    simp only [processTransport, if_neg hport, hlook]
    rfl
  rw [hcode, Shared.outputs_isConnectionTracked, ← outputs_processUntracked cfg env p s]
  cases s.table.isConnectionTracked p.srcPort <;> rfl

/-- For every table, a packet that opens a flow is blocked or redirected as the rules decide
exactly when its port is not tracked or the rules decide neither. -/
theorem rules_obeyed_iff {m : Queued} (hcontent : m.content = some p)
    (hcomplete : m.isComplete p = true) (hopens : opensFlow p = true)
    (hport : p.srcPort ≠ p.transport.relayPort) :
    Obeys p (decision cfg env p) (s.outputs .linux env (packetCallback cfg m)) ↔
      s.table.isConnectionTracked p.srcPort = false ∨ decision cfg env p = .direct := by
  simp only [Queued.isComplete, Bool.and_eq_true, decide_eq_true_eq] at hcomplete
  obtain ⟨⟨hheader, hip⟩, htransport⟩ := hcomplete
  by_cases hidle : (!hasActiveRules cfg.rules && !cfg.connectionCallback) = true
  · have hinactive : hasActiveRules cfg.rules = false := by
      simpa using (Bool.and_eq_true_iff.mp hidle).1
    have hdirect : decision cfg env p = .direct := decisionFor_of_inactive _ _ _ _ _ _ hinactive
    simp [Obeys, hdirect]
  · have hcallback : packetCallback cfg m = processTransport cfg p := by
      have hshort : ¬ (!m.hasHeader || (m.payloadLen < 20 : Bool)) = true := by
        simp [hheader, hip]
      simp only [packetCallback, if_neg hshort, if_neg hidle, hcontent]
      exact if_neg (not_lt.mpr htransport)
    rw [hcallback, outputs_processTransport cfg env p s hopens hport]
    cases s.table.isConnectionTracked p.srcPort <;> cases decision cfg env p <;>
      simp [Obeys, verdictOf]

/-- The message the kernel sends for a packet without IP options. -/
def queued (p : Packet) : Queued :=
  ⟨true, 20 + transportHeaderLen p.transport + p.payload.length, 20, some p⟩

def syn : Packet := .fromApp (.tcp ⟨true, false, false, false⟩) (ipv4 9 9 9 9, 443) []
def datagram (dest : Ip × Port) : Packet := .fromApp .udp dest [42]

/-- After one datagram, a connection and a datagram to another destination are accepted
without a mark from the same port, although the rules send both through the proxy. -/
theorem new_flows_bypass_rules :
    (run (Engine.step .linux (packetCallback .proxyEverything)) (.initial 0)
        (EngineLabel.processed (queued (datagram (ipv4 8 8 8 8, 1000))) 5)).map (fun s =>
      [s.shared.outputs .linux .app (packetCallback .proxyEverything (queued syn)),
        s.shared.outputs .linux .app
          (packetCallback .proxyEverything (queued (datagram (ipv4 9 9 9 9, 2000))))]) =
      some [[.accept], [.accept]] ∧
    decision .proxyEverything .app syn = .proxy ∧
    decision .proxyEverything .app (datagram (ipv4 9 9 9 9, 2000)) = .proxy := by
  decide +kernel

theorem first_flow_obeys_rules :
    Obeys syn (decision .proxyEverything .app syn)
      ((Shared.initial 0).outputs .linux .app (packetCallback .proxyEverything (queued syn))) :=
  (rules_obeyed_iff _ _ _ _ rfl (by decide) (by decide) (by decide)).mpr (.inl (by decide))

end ProxyTun.Linux
