import ProxyTun.Core.Filters
import ProxyTun.Packets.ProcessRule

/-!
# The packet loop of the Windows engine

One pass through the loop of `packet_processor`, for one captured packet. An output
names the branch that sent it: a packet goes on as it was captured, or rewritten
towards a relay, or rewritten on its way from a relay to its client.
-/
namespace ProxyTun.Windows
open Library Routine

/-- A captured packet with an IPv4 header and a TCP or UDP header, one with an IPv6
header, or anything else. -/
inductive Frame where
  | ipv4 (p : Packet)
  | ipv6
  | neither
  deriving DecidableEq, Repr

inductive Route where
  | unchanged
  | toRelay
  | fromRelay
  deriving DecidableEq, Repr

/-- What the loop hands to `WinDivertSend`. -/
inductive Output where
  | passIpv6
  | send (route : Route) (p : Packet)
  deriving DecidableEq, Repr

abbrev Work := Routine Output

/-- The owner of a packet. A UDP packet whose socket is not found is looked up as TCP. -/
def findOwner (p : Packet) : Work Pid := do
  let pid ← processId p.transport.isUdp p.srcAddr p.srcPort
  if pid = 0 && p.transport.isUdp then processId false p.srcAddr p.srcPort else pure pid

def checkProcessRule (cfg : Settings) (p : Packet) : Work (RuleAction × Pid) :=
  checkOwner findOwner filters cfg p

def extractFilename (path : CStr) : CStr :=
  (path.reverse.takeWhile fun c => c != '\\' && c != '/').reverse

/-- The text `proxy_info`, which a buffer of 128 bytes holds. -/
def proxyInfo (cfg : Settings) (isUdp : Bool) (action : RuleAction) : CStr :=
  let suffix : CStr := if isUdp then " (UDP)".toList else []
  let scheme := if !isUdp && cfg.proxyType = .http then "HTTP" else "SOCKS5"
  let text := match action with
    | .proxy => "Proxy ".toList ++ scheme.toList ++ "://".toList ++ cfg.proxyHost ++
        ":".toList ++ decimal cfg.proxyPort.toNat
    | .direct => "Direct".toList
    | .block => "Blocked".toList
  (text ++ suffix).take 127

def logConnection (cfg : Settings) (pid : Pid) (p : Packet) (action : RuleAction) :
    Work Unit := do
  match ← processName pid with
  | none => pure ()
  | some name =>
    if ← isConnectionAlreadyLogged ⟨pid, p.dstAddr, p.dstPort, action⟩ then pure ()
    else
      connectionCallback ⟨extractFilename name, pid, formatIpAddress p.dstAddr, p.dstPort,
        proxyInfo cfg p.transport.isUdp action⟩
      onlyIf cfg.trafficLogging (trimAndInsertLogged ⟨pid, p.dstAddr, p.dstPort, action⟩)

/-- The destinations that a packet to be proxied is sent to directly all the same. -/
def isExempt (cfg : Settings) (p : Packet) : Bool :=
  (!cfg.localhostViaProxy && isLoopback p.dstAddr) ||
  isBroadcastOrMulticast .windows p.dstAddr ||
  (p.transport.isUdp && (p.dstPort = 67 || p.dstPort = 68))

/-- The action for a packet of a source port that is not tracked, and the owner found. -/
def decideAction (cfg : Settings) (p : Packet) : Work (RuleAction × Pid) :=
  actionFor (checkProcessRule cfg) (isExempt cfg) cfg p

def redirectUdp (p : Packet) : Packet :=
  { p with
    dstAddr := loopback
    dstPort := localUdpRelayPort
    outbound := isLoopback p.srcAddr }

def redirectTrackedUdp (p : Packet) : Packet :=
  { p with
    srcAddr := p.dstAddr
    dstAddr := p.srcAddr
    dstPort := localUdpRelayPort
    outbound := false }

def restoreUdp (found : Option (Ip × Port)) (p : Packet) : Packet :=
  match found with
  | some (ip, port) => { p with srcAddr := ip, srcPort := port, outbound := false }
  | none => { p with outbound := false }

/-- The addresses change places and the packet turns inbound, unless both are loopback. -/
def turnRound (p : Packet) : Packet :=
  if isLoopback p.srcAddr && isLoopback p.dstAddr then p
  else { p with srcAddr := p.dstAddr, dstAddr := p.srcAddr, outbound := false }

def redirectTcp (p : Packet) : Packet := turnRound { p with dstPort := localProxyPort }

def restoreTcp (found : Option (Ip × Port)) (p : Packet) : Packet :=
  turnRound (match found with
    | some (_, port) => { p with srcPort := port }
    | none => p)

def hasNothingToDo (cfg : Settings) : Bool :=
  !hasActiveRules cfg.rules && !cfg.connectionCallback

/-- The packet is logged when a callback is set and its owner is known, a TCP packet only
when it opens a connection. -/
def isLogged (cfg : Settings) (p : Packet) (pid : Pid) : Bool :=
  cfg.connectionCallback && (p.transport.isUdp || p.opensTcp) && 0 < pid

def carryOut (redirect : Packet → Packet) (p : Packet) : RuleAction → Work Unit
  | .block => pure ()
  | .direct => emit (.send .unchanged p)
  | .proxy => do
    addConnection p.srcPort p.srcAddr p.dstAddr p.dstPort
    emit (.send .toRelay (redirect p))

/-- The branch for a source port that is not tracked, the same for UDP and TCP but for the
exemptions and the redirection. -/
def processUntracked (cfg : Settings) (redirect : Packet → Packet) (p : Packet) : Work Unit :=
  if hasNothingToDo cfg then emit (.send .unchanged p)
  else do
    let (action, pid) ← decideAction cfg p
    onlyIf (isLogged cfg p pid) (logConnection cfg pid p action)
    carryOut redirect p action

def processOutboundUdp (cfg : Settings) (p : Packet) : Work Unit :=
  if p.srcPort = localUdpRelayPort then do
    let found ← getConnection p.dstPort
    emit (.send .fromRelay (restoreUdp found p))
  else do
    if ← isConnectionTracked p.srcPort then emit (.send .toRelay (redirectTrackedUdp p))
    else processUntracked cfg redirectUdp p

def processOutboundTcp (cfg : Settings) (flags : TcpFlags) (p : Packet) : Work Unit :=
  if p.srcPort = localProxyPort then do
    let found ← getConnection p.dstPort
    onlyIf (flags.fin || flags.rst) (removeConnection p.dstPort)
    emit (.send .fromRelay (restoreTcp found p))
  else do
    if ← isConnectionTracked p.srcPort then
      onlyIf (flags.fin || flags.rst) (removeConnection p.srcPort)
      emit (.send .toRelay (redirectTcp p))
    else processUntracked cfg redirectTcp p

/-- One pass of the loop. An inbound packet goes on as it is, whether or not its port is
that of a relay. -/
def packetProcessor (cfg : Settings) : Frame → Work Unit
  | .ipv6 => emit .passIpv6
  | .neither => pure ()
  | .ipv4 p =>
    if p.outbound then
      match p.transport with
      | .udp => processOutboundUdp cfg p
      | .tcp flags => processOutboundTcp cfg flags p
    else emit (.send .unchanged p)

/-- A redirection keeps the source port and the payload and leads to the relay. -/
def LeadsToRelay (p q : Packet) : Prop :=
  q.srcPort = p.srcPort ∧ q.transport = p.transport ∧ q.payload = p.payload ∧
    q.dstPort = p.transport.relayPort

/-- What each operation of the loop has to do with the captured packet. -/
def Concerns : Frame → Op Output → Prop
  | .ipv4 p, .getConnection q =>
    q = p.dstPort ∧ p.srcPort = p.transport.relayPort
  | .ipv4 p, .isConnectionTracked q => q = p.srcPort
  | .ipv4 p, .addConnection q srcIp destIp destPort =>
    q = p.srcPort ∧ srcIp = p.srcAddr ∧ destIp = p.dstAddr ∧ destPort = p.dstPort
  | .ipv4 p, .removeConnection q => ∃ flags, p.transport = .tcp flags ∧
    (flags.fin || flags.rst) = true ∧
      (q = p.srcPort ∧ p.srcPort ≠ localProxyPort ∨ q = p.dstPort ∧ p.srcPort = localProxyPort)
  | .ipv4 p, .emit (.send .unchanged q) => q = p
  | .ipv4 p, .emit (.send .toRelay q) => LeadsToRelay p q
  | .ipv4 p, .emit (.send .fromRelay q) =>
    q.dstPort = p.dstPort ∧ q.transport = p.transport ∧ q.payload = p.payload
  | .ipv6, op => op = .emit .passIpv6
  | _, op => op.IsInternal

theorem findOwner_internal (p : Packet) : (findOwner p).All Op.IsInternal := by
  refine .bind ⟨trivial, fun _ => trivial⟩ fun pid => ?_
  split_ifs
  · exact ⟨trivial, fun _ => trivial⟩
  · trivial

theorem decideAction_internal (cfg : Settings) (p : Packet) :
    (decideAction cfg p).All Op.IsInternal :=
  actionFor_internal filters (isExempt cfg) cfg p (findOwner_internal p)

theorem logConnection_internal (cfg : Settings) (pid : Pid) (p : Packet) (action : RuleAction) :
    (logConnection cfg pid p action).All Op.IsInternal := by
  refine .bind ⟨trivial, fun _ => trivial⟩ fun name => ?_
  cases name with
  | none => trivial
  | some name =>
    refine .bind ⟨trivial, fun _ => trivial⟩ fun logged => ?_
    split_ifs
    · trivial
    · exact ⟨trivial, fun _ => all_onlyIf _ fun _ => trimAndInsertLogged_internal _⟩

theorem concerns_of_internal (p : Packet) (op : Op Output) (h : op.IsInternal) :
    Concerns (.ipv4 p) op := by
  cases op <;> first | exact h | exact h.elim

@[simp] theorem turnRound_fields (p : Packet) :
    (turnRound p).srcPort = p.srcPort ∧ (turnRound p).dstPort = p.dstPort ∧
      (turnRound p).transport = p.transport ∧ (turnRound p).payload = p.payload := by
  unfold turnRound
  split_ifs <;> exact ⟨rfl, rfl, rfl, rfl⟩

/-- Beside internal operations the branch for untracked ports passes the packet on, or records its
destination and redirects it. -/
theorem processUntracked_all (cfg : Settings) {redirect : Packet → Packet} {p : Packet}
    {P : Op Output → Prop} (hinternal : ∀ op : Op Output, op.IsInternal → P op)
    (hunchanged : P (.emit (.send .unchanged p)))
    (hadd : P (.addConnection p.srcPort p.srcAddr p.dstAddr p.dstPort))
    (hredirect : P (.emit (.send .toRelay (redirect p)))) :
    (processUntracked cfg redirect p).All P := by
  unfold processUntracked
  split_ifs
  · exact ⟨hunchanged, fun _ => trivial⟩
  · refine .bind ((decideAction_internal cfg p).mono hinternal) fun r => ?_
    refine .bind (all_onlyIf _ fun _ => ?_) fun _ => ?_
    · exact (logConnection_internal cfg _ p _).mono hinternal
    · cases r.1 with
      | block => trivial
      | direct => exact ⟨hunchanged, fun _ => trivial⟩
      | proxy => exact ⟨hadd, fun _ => ⟨hredirect, fun _ => trivial⟩⟩

theorem processUntracked_concerns (cfg : Settings) {redirect : Packet → Packet} {p : Packet}
    (h : LeadsToRelay p (redirect p)) :
    (processUntracked cfg redirect p).All (Concerns (.ipv4 p)) :=
  processUntracked_all cfg (concerns_of_internal p) rfl ⟨rfl, rfl, rfl, rfl⟩ h

theorem processOutboundUdp_concerns (cfg : Settings) {p : Packet} (h : p.transport = .udp) :
    (processOutboundUdp cfg p).All (Concerns (.ipv4 p)) := by
  unfold processOutboundUdp
  split_ifs with hport
  · refine ⟨⟨rfl, by rw [hport, h]; rfl⟩, fun found => ⟨?_, fun _ => trivial⟩⟩
    cases found <;> exact ⟨rfl, rfl, rfl⟩
  · refine ⟨rfl, fun tracked => ?_⟩
    have hrelay : localUdpRelayPort = p.transport.relayPort := by rw [h]; rfl
    cases tracked with
    | true => exact ⟨⟨rfl, rfl, rfl, hrelay⟩, fun _ => trivial⟩
    | false => exact processUntracked_concerns cfg ⟨rfl, rfl, rfl, hrelay⟩

theorem redirectTcp_leadsToRelay {p : Packet} {flags : TcpFlags} (h : p.transport = .tcp flags) :
    LeadsToRelay p (redirectTcp p) := by
  have hp := turnRound_fields { p with dstPort := localProxyPort }
  exact ⟨hp.1, hp.2.2.1, hp.2.2.2, by rw [h]; exact hp.2.1⟩

theorem restoreTcp_fields (found : Option (Ip × Port)) (p : Packet) :
    (restoreTcp found p).dstPort = p.dstPort ∧ (restoreTcp found p).transport = p.transport ∧
      (restoreTcp found p).payload = p.payload := by
  cases found <;> simp [restoreTcp]

theorem processOutboundTcp_concerns (cfg : Settings) {flags : TcpFlags} {p : Packet}
    (h : p.transport = .tcp flags) :
    (processOutboundTcp cfg flags p).All (Concerns (.ipv4 p)) := by
  unfold processOutboundTcp
  split_ifs with hport
  · refine .bind ⟨⟨rfl, by rw [hport, h]; rfl⟩, fun _ => trivial⟩ fun found => ?_
    refine .bind (all_onlyIf _ fun hf => ?_) fun _ => ?_
    · exact ⟨⟨flags, h, hf, .inr ⟨rfl, hport⟩⟩, fun _ => trivial⟩
    · exact ⟨restoreTcp_fields found p, fun _ => trivial⟩
  · refine .bind ⟨rfl, fun _ => trivial⟩ fun tracked => ?_
    cases tracked with
    | true =>
      refine .bind (all_onlyIf _ fun hf => ?_) fun _ => ?_
      · exact ⟨⟨flags, h, hf, .inl ⟨rfl, hport⟩⟩, fun _ => trivial⟩
      · exact ⟨redirectTcp_leadsToRelay h, fun _ => trivial⟩
    | false => exact processUntracked_concerns cfg (redirectTcp_leadsToRelay h)

theorem packetProcessor_concerns (cfg : Settings) (f : Frame) :
    (packetProcessor cfg f).All (Concerns f) := by
  cases f with
  | ipv6 => exact ⟨rfl, fun _ => trivial⟩
  | neither => trivial
  | ipv4 p =>
    simp only [packetProcessor]
    split_ifs
    · cases h : p.transport with
      | udp => exact processOutboundUdp_concerns cfg h
      | tcp flags => exact processOutboundTcp_concerns cfg h
    · exact ⟨rfl, fun _ => trivial⟩

def IsRedirect : Op Output → Prop
  | .emit (.send .toRelay _) => True
  | _ => False

/-- The operation asks for the port in the table, or adds or removes it. -/
def SettlesPort : Op Output → Prop
  | .isConnectionTracked _ => True
  | .addConnection _ _ _ _ => True
  | .removeConnection _ => True
  | _ => False

theorem not_isRedirect_of_internal (op : Op Output) (h : op.IsInternal) : ¬ IsRedirect op := by
  cases op <;> first | exact h.elim | exact id

theorem processUntracked_preceded (cfg : Settings) (redirect : Packet → Packet) (p : Packet) :
    (processUntracked cfg redirect p).Preceded SettlesPort IsRedirect ∧
      ¬ (processUntracked cfg redirect p).StartsWith IsRedirect := by
  unfold processUntracked
  split_ifs
  · exact ⟨fun _ => ⟨False.elim, trivial⟩, id⟩
  · refine Code.preceded_bind ((decideAction_internal cfg p).mono not_isRedirect_of_internal)
      fun r => Code.preceded_bind (all_onlyIf _ fun _ => ?_) fun _ => ?_
    · exact (logConnection_internal cfg _ p _).mono not_isRedirect_of_internal
    · cases r.1 with
      | block => exact ⟨trivial, id⟩
      | direct => exact ⟨fun _ => ⟨False.elim, trivial⟩, id⟩
      | proxy =>
        exact ⟨fun _ => ⟨fun _ => trivial, fun _ => ⟨False.elim, trivial⟩⟩, id⟩

/-- A packet is redirected straight after its port has been found, added or removed. -/
theorem packetProcessor_preceded (cfg : Settings) (f : Frame) :
    (packetProcessor cfg f).Preceded SettlesPort IsRedirect ∧
      ¬ (packetProcessor cfg f).StartsWith IsRedirect := by
  cases f with
  | ipv6 => exact ⟨fun _ => ⟨False.elim, trivial⟩, id⟩
  | neither => exact ⟨trivial, id⟩
  | ipv4 p =>
    simp only [packetProcessor]
    split_ifs
    · cases p.transport with
      | udp =>
        simp only [processOutboundUdp]
        split_ifs
        · exact ⟨fun _ => ⟨False.elim, fun _ => ⟨False.elim, trivial⟩⟩, id⟩
        · refine ⟨fun tracked => ⟨fun _ => trivial, ?_⟩, id⟩
          cases tracked with
          | true => exact fun _ => ⟨False.elim, trivial⟩
          | false => exact (processUntracked_preceded cfg _ p).1
      | tcp flags =>
        simp only [processOutboundTcp]
        split_ifs
        · refine Code.preceded_bind ⟨id, fun _ => trivial⟩ fun found =>
            Code.preceded_bind (all_onlyIf _ fun _ => ⟨id, fun _ => trivial⟩) fun _ => ?_
          exact ⟨fun _ => ⟨False.elim, trivial⟩, id⟩
        · refine ⟨fun tracked => ⟨fun _ => trivial, ?_⟩, id⟩
          cases tracked with
          | true => cases flags.fin || flags.rst with
            | true => exact fun _ => ⟨fun _ => trivial, fun _ => ⟨False.elim, trivial⟩⟩
            | false => exact fun _ => ⟨False.elim, trivial⟩
          | false => exact (processUntracked_preceded cfg _ p).1
    · exact ⟨fun _ => ⟨False.elim, trivial⟩, id⟩

/-- A packet on its way from a relay leaves from the given source port. -/
def LeavesFrom (port : Port) : Op Output → Prop
  | .emit (.send .fromRelay q) => q.srcPort = port
  | _ => True

/-- After a lookup that finds a destination, a packet from a relay leaves from its port. -/
def RestoresFound : (op : Op Output) → op.Result → Work Unit → Prop
  | .getConnection _, found, c => ∀ d ∈ found, c.All (LeavesFrom d.2)
  | _, _, _ => True

theorem restoresFound_of_internal (op : Op Output) (r : op.Result) (c : Work Unit)
    (h : op.IsInternal) : RestoresFound op r c := by
  cases op <;> first | exact h.elim | trivial

theorem processUntracked_restores (cfg : Settings) (redirect : Packet → Packet) (p : Packet) :
    (processUntracked cfg redirect p).Each RestoresFound := by
  unfold processUntracked
  split_ifs
  · exact fun _ => ⟨trivial, trivial⟩
  · refine .bind restoresFound_of_internal (decideAction_internal cfg p) fun r =>
      .bind restoresFound_of_internal
        (all_onlyIf _ fun _ => logConnection_internal cfg _ p _) fun _ => ?_
    cases r.1 with
    | block => trivial
    | direct => exact fun _ => ⟨trivial, trivial⟩
    | proxy => exact fun _ => ⟨trivial, fun _ => ⟨trivial, trivial⟩⟩

theorem packetProcessor_restores (cfg : Settings) (f : Frame) :
    (packetProcessor cfg f).Each RestoresFound := by
  cases f with
  | ipv6 => exact fun _ => ⟨trivial, trivial⟩
  | neither => trivial
  | ipv4 p =>
    simp only [packetProcessor]
    split_ifs
    · cases p.transport with
      | udp =>
        simp only [processOutboundUdp]
        split_ifs
        · refine fun found => ⟨?_, fun _ => ⟨trivial, trivial⟩⟩
          rintro d rfl
          exact ⟨rfl, fun _ => trivial⟩
        · refine fun tracked => ⟨trivial, ?_⟩
          cases tracked with
          | true => exact fun _ => ⟨trivial, trivial⟩
          | false => exact processUntracked_restores cfg _ p
      | tcp flags =>
        simp only [processOutboundTcp]
        split_ifs
        · refine fun found => ⟨?_, ?_⟩
          · rintro d rfl
            change (onlyIf (flags.fin || flags.rst) (removeConnection p.dstPort) >>= fun _ =>
              emit (.send .fromRelay (restoreTcp (some d) p))).All (LeavesFrom d.2)
            refine .bind (all_onlyIf _ fun _ => ⟨trivial, fun _ => trivial⟩) fun _ => ?_
            exact ⟨(turnRound_fields { p with srcPort := d.2 }).1, fun _ => trivial⟩
          · cases flags.fin || flags.rst with
            | true => exact fun _ => ⟨trivial, fun _ => ⟨trivial, trivial⟩⟩
            | false => exact fun _ => ⟨trivial, trivial⟩
        · refine fun tracked => ⟨trivial, ?_⟩
          cases tracked with
          | true => cases flags.fin || flags.rst with
            | true => exact fun _ => ⟨trivial, fun _ => ⟨trivial, trivial⟩⟩
            | false => exact fun _ => ⟨trivial, trivial⟩
          | false => exact processUntracked_restores cfg _ p
    · exact fun _ => ⟨trivial, trivial⟩

end ProxyTun.Windows
