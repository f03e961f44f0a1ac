import ProxyTun.Core.CString

/-!
# Rules and their evaluation

Both engines evaluate a rule list with the same loop. They differ in the filters
they apply to the process, host and port fields, which `Filters` collects.
-/
namespace ProxyTun

inductive RuleAction where
  | proxy
  | direct
  | block
  deriving DecidableEq, Repr

inductive RuleProtocol where
  | tcp
  | udp
  | both
  deriving DecidableEq, Repr

/-- The word for a protocol in the messages and files of the applications. -/
def RuleProtocol.rawValue : RuleProtocol → CStr
  | .tcp => "TCP".toList
  | .udp => "UDP".toList
  | .both => "BOTH".toList

def RuleAction.rawValue : RuleAction → CStr
  | .proxy => "PROXY".toList
  | .direct => "DIRECT".toList
  | .block => "BLOCK".toList

structure Rule where
  ruleId : BitVec 32
  processName : CStr
  targetHosts : CStr
  targetPorts : CStr
  protocol : RuleProtocol
  action : RuleAction
  enabled : Bool
  deriving DecidableEq, Repr

/-- The platform's readings of a rule's text fields. -/
structure Filters where
  isWildcardProcess : CStr → Bool
  matchProcessList : CStr → CStr → Bool
  matchIpList : CStr → Ip → Bool
  matchPortList : CStr → Port → Bool

/-- The protocol check of `match_rule`. -/
def RuleProtocol.allows (protocol : RuleProtocol) (isUdp : Bool) : Bool :=
  match protocol with
  | .both => true
  | .tcp => !isUdp
  | .udp => isUdp

/-- The loop of `match_rule`, which keeps the first fully wildcard rule for last. -/
def matchRuleFrom (F : Filters) (process : CStr) (destIp : Ip) (destPort : Port) (isUdp : Bool) :
    List Rule → Option Rule → RuleAction
  | [], none => .direct
  | [], some wildcard => wildcard.action
  | rule :: rules, wildcard =>
    if !rule.enabled then matchRuleFrom F process destIp destPort isUdp rules wildcard
    else if !rule.protocol.allows isUdp then
      matchRuleFrom F process destIp destPort isUdp rules wildcard
    else if F.isWildcardProcess rule.processName then
      if rule.targetHosts ≠ ['*'] ∨ rule.targetPorts ≠ ['*'] then
        if F.matchIpList rule.targetHosts destIp && F.matchPortList rule.targetPorts destPort then
          rule.action
        else matchRuleFrom F process destIp destPort isUdp rules wildcard
      else matchRuleFrom F process destIp destPort isUdp rules (wildcard.or (some rule))
    else if F.matchProcessList rule.processName process &&
        (F.matchIpList rule.targetHosts destIp && F.matchPortList rule.targetPorts destPort) then
      rule.action
    else matchRuleFrom F process destIp destPort isUdp rules wildcard

def matchRule (F : Filters) (rules : List Rule) (process : CStr) (destIp : Ip) (destPort : Port)
    (isUdp : Bool) : RuleAction :=
  matchRuleFrom F process destIp destPort isUdp rules none

/-- The value `update_has_active_rules` leaves in `g_has_active_rules`. -/
def hasActiveRules (rules : List Rule) : Bool := rules.any fun rule => rule.enabled

/-- Without an enabled rule the answer is direct, which is what the packet loops' fast
path assumes. -/
theorem matchRule_of_inactive (F : Filters) {rules : List Rule}
    (h : hasActiveRules rules = false) (process : CStr) (destIp : Ip) (destPort : Port)
    (isUdp : Bool) : matchRule F rules process destIp destPort isUdp = .direct := by
  unfold matchRule
  induction rules with
  | nil => rfl
  | cons rule rules ih =>
    simp only [hasActiveRules, List.any_cons, Bool.or_eq_false_iff] at h
    simp only [matchRuleFrom, h.1, Bool.not_false, if_true]
    exact ih h.2

inductive ProxyType where
  | http
  | socks5
  deriving DecidableEq, Repr

def ProxyType.upperName : ProxyType → CStr
  | .http => "HTTP".toList
  | .socks5 => "SOCKS5".toList

/-- The globals that the decision on a packet reads. -/
structure Settings where
  rules : List Rule
  proxyType : ProxyType
  proxyHost : CStr
  proxyPort : Port
  dnsViaProxy : Bool
  localhostViaProxy : Bool
  trafficLogging : Bool
  /-- `g_connection_callback` is set. -/
  connectionCallback : Bool
  currentProcessId : Pid
  deriving DecidableEq, Repr

/-- The settings of a user who sends everything through a SOCKS5 proxy. -/
def Settings.proxyEverything : Settings where
  rules := [⟨1, ['*'], ['*'], ['*'], .both, .proxy, true⟩]
  proxyType := .socks5
  proxyHost := "10.0.0.1".toList
  proxyPort := 1080
  dnsViaProxy := true
  localhostViaProxy := false
  trafficLogging := false
  connectionCallback := false
  currentProcessId := 1

/-- The proxy can carry the traffic that a rule sends to it. -/
def Settings.canProxy (cfg : Settings) (isUdp : Bool) : Bool :=
  !(isUdp && cfg.proxyType = .http) && !(cfg.proxyHost = [] || cfg.proxyPort = 0)

/-- The addresses beyond any proxy: link-local, broadcast and multicast. On Linux the
loopback network is one of them. -/
def isBroadcastOrMulticast (pf : Platform) (ip : Ip) : Bool :=
  (pf = .linux && octet ip 0 = 127) ||
  (octet ip 0 = 169 && octet ip 1 = 254) ||
  ip = 0xFFFFFFFF ||
  octet ip 3 = 255 ||
  (224 ≤ octet ip 0 && octet ip 0 ≤ 239)

end ProxyTun
