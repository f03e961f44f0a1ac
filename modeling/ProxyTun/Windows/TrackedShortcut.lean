import ProxyTun.Packets.Engine
import ProxyTun.Windows.PacketProcessor

/-!
# The shortcut for tracked source ports

A datagram whose source port is in the connection table goes to the relay before any
rule or exemption is looked at. The rules alone decide from the owner of the socket and
the destination of the datagram.
-/
namespace ProxyTun.Windows
open Library Library.Transition

/-- The owner that `check_process_rule` finds. -/
def owner (env : Environment) (p : Packet) : Pid :=
  let pid := env.processId p.transport.isUdp p.srcAddr p.srcPort
  if pid = 0 && p.transport.isUdp then env.processId false p.srcAddr p.srcPort else pid

/-- The documented decision for a packet, a function of its owner and its destination. -/
def decision (cfg : Settings) (env : Environment) (p : Packet) : RuleAction :=
  decisionFor filters (isExempt cfg) cfg env p (owner env p)

/-- The route of a packet that is sent on, and none for a packet that is dropped. -/
def disposition : List Output → Option Route
  | .send route _ :: _ => some route
  | _ => none

def routeOf : RuleAction → Option Route
  | .proxy => some .toRelay
  | .direct => some .unchanged
  | .block => none

variable (cfg : Settings) (env : Environment) (p : Packet) (s : Shared) (outs : List Output)

theorem eval_findOwner :
    (findOwner p).eval (Shared.handle .windows env) (s, outs) = (owner env p, s, outs) := by
  unfold owner
  by_cases h : (env.processId p.transport.isUdp p.srcAddr p.srcPort = 0 &&
      p.transport.isUdp) = true
  · rw [if_pos h]
    exact congrArg (fun c : Work Pid => c.eval (Shared.handle .windows env) (s, outs))
      (if_pos h)
  · rw [if_neg h]
    exact congrArg (fun c : Work Pid => c.eval (Shared.handle .windows env) (s, outs))
      (if_neg h)

/-- What a decision on a packet puts out. -/
def decidedOutputs (redirect : Packet → Packet) (p : Packet) : RuleAction → List Output
  | .proxy => [.send .toRelay (redirect p)]
  | .direct => [.send .unchanged p]
  | .block => []

theorem outputs_carryOut (redirect : Packet → Packet) (action : RuleAction) :
    s.outputs .windows env (carryOut redirect p action) = decidedOutputs redirect p action := by
  cases action <;> rfl

theorem eval_processUntracked (redirect : Packet → Packet) :
    ∃ s' : Shared, s'.table = s.table ∧
      (processUntracked cfg redirect p).eval (Shared.handle .windows env) (s, []) =
        (carryOut redirect p (decision cfg env p)).eval (Shared.handle .windows env) (s', []) := by
  by_cases hidle : hasNothingToDo cfg = true
  · have hinactive : hasActiveRules cfg.rules = false := by
      simpa using (Bool.and_eq_true_iff.mp hidle).1
    refine ⟨s, rfl, ?_⟩
    simp only [processUntracked, if_pos hidle, decision,
      decisionFor_of_inactive filters _ cfg env p _ hinactive]
    rfl
  · simp only [processUntracked, if_neg hidle]
    exact eval_decided filters (isExempt cfg) cfg env p (eval_findOwner env p s [])
      (fun pid action => Routine.all_onlyIf (isLogged cfg p pid) fun _ =>
        logConnection_internal cfg pid p action)
      (carryOut redirect p)

theorem outputs_processUntracked (redirect : Packet → Packet) :
    s.outputs .windows env (processUntracked cfg redirect p) =
      decidedOutputs redirect p (decision cfg env p) := by
  obtain ⟨s', -, hs'⟩ := eval_processUntracked cfg env p s redirect
  rw [Shared.outputs, hs']
  exact outputs_carryOut env p s' redirect (decision cfg env p)

theorem disposition_processUntracked (redirect : Packet → Packet) :
    disposition (s.outputs .windows env (processUntracked cfg redirect p)) =
      routeOf (decision cfg env p) := by
  rw [outputs_processUntracked]
  cases decision cfg env p <;> rfl

/-- For every table, a datagram is treated as the branch for untracked ports would treat it
exactly when its port is not tracked or it is to be proxied anyway. -/
theorem shortcut_agrees_iff (hudp : p.transport = .udp) (hout : p.outbound = true)
    (hport : p.srcPort ≠ localUdpRelayPort) :
    disposition (s.outputs .windows env (packetProcessor cfg (.ipv4 p))) =
        disposition (s.outputs .windows env (processUntracked cfg redirectUdp p)) ↔
      s.table.isConnectionTracked p.srcPort = false ∨ decision cfg env p = .proxy := by
  have hloop : packetProcessor cfg (.ipv4 p) = Code.call (.isConnectionTracked p.srcPort)
      fun tracked => if tracked then Routine.emit (.send .toRelay (redirectTrackedUdp p))
        else processUntracked cfg redirectUdp p := by
    simp only [packetProcessor, hout, hudp, processOutboundUdp, if_neg hport, if_true]
    rfl
  rw [disposition_processUntracked, hloop, Shared.outputs_isConnectionTracked]
  cases s.table.isConnectionTracked p.srcPort with
  | true =>
    have hrelay : disposition (s.outputs .windows env
        (Routine.emit (.send .toRelay (redirectTrackedUdp p)))) = some .toRelay := rfl
    rw [if_pos rfl, hrelay]
    cases decision cfg env p <;> simp [routeOf]
  | false => simp [disposition_processUntracked]

def toRemote : Packet := .fromApp .udp (ipv4 8 8 8 8, 1000) [42]
def toLoopback : Packet := .fromApp .udp (loopback, 1000) [42]

/-- After one proxied datagram a datagram from the same socket to the local machine is
redirected, although the settings send it directly. -/
theorem loopback_redirected_after_proxied :
    (run (Engine.step .windows (packetProcessor .proxyEverything)) (.initial 0)
        (EngineLabel.processed (.ipv4 toRemote) 5)).map (fun s =>
      (disposition (s.shared.outputs .windows .app
          (packetProcessor .proxyEverything (.ipv4 toLoopback))),
        disposition (s.shared.outputs .windows .app
          (processUntracked .proxyEverything redirectUdp toLoopback)))) =
      some (some .toRelay, some .unchanged) := by
  decide +kernel

/-- A datagram of a port without an entry. -/
theorem first_datagram_agrees :
    disposition ((Shared.initial 0).outputs .windows .app
        (packetProcessor .proxyEverything (.ipv4 toLoopback))) =
      disposition ((Shared.initial 0).outputs .windows .app
        (processUntracked .proxyEverything redirectUdp toLoopback)) :=
  (shortcut_agrees_iff _ _ _ _ rfl rfl (by decide)).mpr (.inl (by decide))

end ProxyTun.Windows
