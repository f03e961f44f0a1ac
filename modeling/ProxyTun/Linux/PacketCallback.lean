import ProxyTun.Core.Filters
import ProxyTun.Packets.ProcessRule

/-!
# The packet callback of the Linux engine

One call of `packet_callback`, for one packet of the netfilter queue. The verdict accepts
or drops the packet, or accepts it with the mark that the NAT table redirects.
-/
namespace ProxyTun.Linux
open Library Routine

/-- What the kernel queues: an IPv4 packet that is TCP or UDP or neither, with the length of
the payload it hands over, the length of the IP header, and whether the message has a header
of its own. -/
structure Queued where
  hasHeader : Bool
  payloadLen : ℤ
  ipHeaderLen : ℕ
  content : Option Packet
  deriving DecidableEq, Repr

def transportHeaderLen : Transport → ℕ
  | .tcp _ => 20
  | .udp => 8

/-- The payload holds the headers in full, as the kernel's packets do. -/
def Queued.isComplete (m : Queued) (p : Packet) : Bool :=
  m.hasHeader && 20 ≤ m.payloadLen &&
    (m.ipHeaderLen + transportHeaderLen p.transport : ℕ) ≤ m.payloadLen

inductive Verdict where
  | accept
  | drop
  | acceptMarked (mark : BitVec 32)
  deriving DecidableEq, Repr

abbrev Work := Routine Verdict

def findOwner (p : Packet) : Work Pid := processId p.transport.isUdp p.srcAddr p.srcPort

def checkProcessRule (cfg : Settings) (p : Packet) : Work (RuleAction × Pid) :=
  checkOwner findOwner filters cfg p

def extractFilename (path : CStr) : CStr := afterLast '/' path

/-- The text `proxy_info`, which a buffer of 300 bytes holds. -/
def proxyInfo (cfg : Settings) (isUdp : Bool) (action : RuleAction) : CStr :=
  let suffix := if isUdp then " udp".toList else " tcp".toList
  let scheme := if !isUdp && cfg.proxyType = .http then "http" else "socks5"
  let text := match action with
    | .proxy => "proxy ".toList ++ scheme.toList ++ "://".toList ++ cfg.proxyHost ++
        ":".toList ++ decimal cfg.proxyPort.toNat
    | .direct => "direct".toList
    | .block => "blocked".toList
  (text ++ suffix).take 299

/-- The name under which a packet is logged. A UDP packet is logged even when its process is
not known. -/
def logName (p : Packet) (pid : Pid) : Work (Option CStr) :=
  if p.transport.isUdp then
    if 0 < pid then do
      let name ← processName pid
      pure (some (name.getD "unknown".toList))
    else pure (some "unknown".toList)
  else processName pid

def logConnection (cfg : Settings) (pid : Pid) (p : Packet) (action : RuleAction) :
    Work Unit := do
  let logPid := if p.transport.isUdp && pid = 0 then 1 else pid
  match ← logName p pid with
  | none => pure ()
  | some name =>
    if ← isConnectionAlreadyLogged ⟨logPid, p.dstAddr, p.dstPort, action⟩ then pure ()
    else
      connectionCallback ⟨extractFilename name, logPid, formatIpAddress p.dstAddr, p.dstPort,
        proxyInfo cfg p.transport.isUdp action⟩
      addLoggedConnection ⟨logPid, p.dstAddr, p.dstPort, action⟩

/-- A TCP packet is logged only when its owner is known. -/
def isLogged (cfg : Settings) (p : Packet) (pid : Pid) : Bool :=
  cfg.trafficLogging && cfg.connectionCallback && (p.transport.isUdp || 0 < pid) &&
    pid != cfg.currentProcessId

/-- The destinations that a packet to be proxied is sent to directly all the same. -/
def isExempt (cfg : Settings) (p : Packet) : Bool :=
  isBroadcastOrMulticast .linux p.dstAddr ||
  (p.transport.isUdp && (p.dstPort = 67 || p.dstPort = 68 || cfg.proxyType != .socks5))

def decideAction (cfg : Settings) (p : Packet) : Work (RuleAction × Pid) :=
  actionFor (checkProcessRule cfg) (isExempt cfg) cfg p

def redirectMark : Transport → BitVec 32
  | .tcp _ => 1
  | .udp => 2

def carryOut (p : Packet) : RuleAction → Work Unit
  | .direct => emit .accept
  | .block => emit .drop
  | .proxy => do
    addConnection p.srcPort p.srcAddr p.dstAddr p.dstPort
    emit (.acceptMarked (redirectMark p.transport))

def processUntracked (cfg : Settings) (p : Packet) : Work Unit := do
  let (action, pid) ← decideAction cfg p
  onlyIf (isLogged cfg p pid) (logConnection cfg pid p action)
  carryOut p action

/-- The part of the callback behind the length checks. Of the TCP packets of a port that is
not tracked only those that open a connection are looked at. -/
def processTransport (cfg : Settings) (p : Packet) : Work Unit :=
  if p.srcPort = p.transport.relayPort then emit .accept
  else do
    if ← isConnectionTracked p.srcPort then emit .accept
    else if !p.transport.isUdp && !p.opensTcp then emit .accept
    else processUntracked cfg p

def packetCallback (cfg : Settings) (m : Queued) : Work Unit :=
  if !m.hasHeader || m.payloadLen < 20 then emit .accept
  else if !hasActiveRules cfg.rules && !cfg.connectionCallback then emit .accept
  else match m.content with
    | none => emit .accept
    | some p =>
      if m.payloadLen < (m.ipHeaderLen + transportHeaderLen p.transport : ℕ) then emit .accept
      else processTransport cfg p

end ProxyTun.Linux
