import ProxyTun.Windows.TrackedShortcut

/-!
# The disposition of a fresh flow

A packet of a source port without an entry is put back, dropped or redirected as the
documentation says: the rules are asked about its process, and what they would proxy is direct
where no proxy can carry it or its destination is exempt.
-/
namespace ProxyTun.Windows
open Library

/-- The process that the rules are asked about. They are not asked about packets without an
owner or with an owner that has no name, about ProxyTun's own packets, and about DNS that does
not go through the proxy. -/
def askedProcess (cfg : Settings) (env : Environment) (p : Packet) : Option CStr :=
  if owner env p = 0 ∨ owner env p = cfg.currentProcessId ∨
      p.dstPort = 53 ∧ cfg.dnsViaProxy = false then none
  else env.processName (owner env p)

/-- The packets that are never proxied: no proxy is configured or it cannot carry them, or their
destination is local, link-local, broadcast or multicast, or they are DHCP. -/
def neverProxied (cfg : Settings) (p : Packet) : Bool :=
  cfg.proxyHost = [] || cfg.proxyPort = 0 ||
  (p.transport.isUdp && cfg.proxyType = .http) ||
  (octet p.dstAddr 0 = 127 && !cfg.localhostViaProxy) ||
  (octet p.dstAddr 0 = 169 && octet p.dstAddr 1 = 254) ||
  octet p.dstAddr 3 = 255 ||
  (224 ≤ octet p.dstAddr 0 && octet p.dstAddr 0 ≤ 239) ||
  (p.transport.isUdp && (p.dstPort = 67 || p.dstPort = 68))

/-- The documented action for a packet of a fresh flow. -/
def documentedAction (cfg : Settings) (env : Environment) (p : Packet) : RuleAction :=
  match askedProcess cfg env p with
  | none => .direct
  | some process =>
    match matchRule filters cfg.rules process p.dstAddr p.dstPort p.transport.isUdp with
    | .proxy => if neverProxied cfg p then .direct else .proxy
    | .direct => .direct
    | .block => .block

/-- A packet on its way to the relay for its protocol. -/
def redirected (p : Packet) : Packet :=
  match p.transport with
  | .udp => redirectUdp p
  | .tcp _ => redirectTcp p

theorem octet_of_broadcast {ip : Ip} (h : ip = 0xFFFFFFFF) : octet ip 3 = 255 := by
  subst h
  decide

theorem neverProxied_eq (cfg : Settings) (p : Packet) :
    neverProxied cfg p = (!cfg.canProxy p.transport.isUdp || isExempt cfg p) := by
  have hbroadcast : isBroadcastOrMulticast .windows p.dstAddr =
      ((octet p.dstAddr 0 = 169 && octet p.dstAddr 1 = 254) || octet p.dstAddr 3 = 255 ||
        (224 ≤ octet p.dstAddr 0 && octet p.dstAddr 0 ≤ 239)) := by
    by_cases h : p.dstAddr = 0xFFFFFFFF
    · simp [isBroadcastOrMulticast, octet_of_broadcast h]
    · simp only [isBroadcastOrMulticast, reduceCtorEq, decide_false, Bool.false_and, h,
        Bool.false_or, Bool.or_false]
  have hcarry : (!cfg.canProxy p.transport.isUdp) =
      (cfg.proxyHost = [] || cfg.proxyPort = 0 || p.transport.isUdp && cfg.proxyType = .http) := by
    rw [Settings.canProxy, Bool.not_and, Bool.not_not, Bool.not_not, Bool.or_comm]
  rw [neverProxied, hcarry, isExempt, hbroadcast, isLoopback]
  ac_rfl

theorem ruleDecision_eq (cfg : Settings) (env : Environment) (p : Packet) :
    ruleDecision filters cfg env p (owner env p) =
      match askedProcess cfg env p with
      | none => .direct
      | some process => namedDecision filters cfg p process := by
  unfold ruleDecision askedProcess ownerDecision
  by_cases hdns : p.dstPort = 53 ∧ cfg.dnsViaProxy = false
  · simp [hdns]
  · by_cases howner : owner env p = 0 ∨ owner env p = cfg.currentProcessId
    · rcases howner with h | h <;> simp [h]
    · have hunasked : ¬ (owner env p = 0 ∨ owner env p = cfg.currentProcessId ∨
          p.dstPort = 53 ∧ cfg.dnsViaProxy = false) := by
        rw [← or_assoc, not_or]
        exact ⟨howner, hdns⟩
      have hasked : ¬ (p.dstPort = 53 && !cfg.dnsViaProxy) = true := by simpa using hdns
      rw [not_or] at howner
      rw [if_neg hunasked, if_neg hasked, if_neg howner.1]
      exact if_neg howner.2

/-- The code takes the documented decision, although it makes its exceptions in another order. -/
theorem decision_eq_documentedAction (cfg : Settings) (env : Environment) (p : Packet) :
    decision cfg env p = documentedAction cfg env p := by
  rw [decision, decisionFor, ruleDecision_eq, documentedAction]
  cases askedProcess cfg env p with
  | none => simp
  | some process =>
    simp only [namedDecision, neverProxied_eq]
    obtain ⟨action, haction⟩ : ∃ action, matchRule filters cfg.rules process p.dstAddr p.dstPort
      p.transport.isUdp = action := ⟨_, rfl⟩
    cases action with
    | proxy => by_cases hcan : cfg.canProxy p.transport.isUdp = true <;> simp [haction, hcan]
    | direct => simp [haction]
    | block => simp [haction]

variable {cfg : Settings} {env : Environment} {p : Packet} {s : Shared}

theorem packetProcessor_tcp {flags : TcpFlags} (cfg : Settings) (htcp : p.transport = .tcp flags)
    (hout : p.outbound = true) (hport : p.srcPort ≠ localProxyPort) :
    packetProcessor cfg (.ipv4 p) = Code.call (.isConnectionTracked p.srcPort) fun tracked =>
      if tracked then (do
        Routine.onlyIf (flags.fin || flags.rst) (Routine.removeConnection p.srcPort)
        Routine.emit (.send .toRelay (redirectTcp p)))
      else processUntracked cfg redirectTcp p := by
  simp only [packetProcessor, hout, htcp, processOutboundTcp, if_neg hport, if_true]
  rfl

/-- A packet with a source port that is not tracked goes to the branch for such packets. -/
theorem outputs_untracked (hout : p.outbound = true) (hport : p.srcPort ≠ p.transport.relayPort)
    (huntracked : s.table.isConnectionTracked p.srcPort = false) :
    s.outputs .windows env (packetProcessor cfg (.ipv4 p)) =
      decidedOutputs redirected p (decision cfg env p) := by
  cases htransport : p.transport with
  | udp =>
    have hloop : packetProcessor cfg (.ipv4 p) = Code.call (.isConnectionTracked p.srcPort)
        fun tracked => if tracked then Routine.emit (.send .toRelay (redirectTrackedUdp p))
          else processUntracked cfg redirectUdp p := by
      have hrelay : p.srcPort ≠ localUdpRelayPort := by
        rwa [htransport] at hport
      simp only [packetProcessor, hout, htransport, processOutboundUdp, if_neg hrelay, if_true]
      rfl
    have hredirect : decidedOutputs redirected p = decidedOutputs redirectUdp p := by
      funext action
      cases action <;> simp [decidedOutputs, redirected, htransport]
    rw [hloop, Shared.outputs_isConnectionTracked, huntracked, hredirect]
    exact outputs_processUntracked cfg env p s redirectUdp
  | tcp flags =>
    have hrelay : p.srcPort ≠ localProxyPort := by
      rwa [htransport] at hport
    have hredirect : decidedOutputs redirected p = decidedOutputs redirectTcp p := by
      funext action
      cases action <;> simp [decidedOutputs, redirected, htransport]
    rw [packetProcessor_tcp cfg htransport hout hrelay, Shared.outputs_isConnectionTracked,
      huntracked, hredirect]
    exact outputs_processUntracked cfg env p s redirectTcp

theorem outputs_documented (hout : p.outbound = true) (hport : p.srcPort ≠ p.transport.relayPort)
    (huntracked : s.table.isConnectionTracked p.srcPort = false) :
    s.outputs .windows env (packetProcessor cfg (.ipv4 p)) =
      decidedOutputs redirected p (documentedAction cfg env p) := by
  rw [outputs_untracked hout hport huntracked, decision_eq_documentedAction]

/-- The disposition of every packet of a fresh flow is the documented one, and what the rules
block is dropped whatever its destination. -/
theorem outputs_freshFlow (hout : p.outbound = true) (hport : p.srcPort ≠ p.transport.relayPort)
    (huntracked : s.table.isConnectionTracked p.srcPort = false) :
    s.outputs .windows env (packetProcessor cfg (.ipv4 p)) =
        decidedOutputs redirected p (documentedAction cfg env p) ∧
      ∀ process ∈ askedProcess cfg env p,
        matchRule filters cfg.rules process p.dstAddr p.dstPort p.transport.isUdp = .block →
        s.outputs .windows env (packetProcessor cfg (.ipv4 p)) = [] := by
  have hdecided := @outputs_documented cfg env p s hout hport huntracked
  refine ⟨hdecided, ?_⟩
  intro process hasked hblock
  rw [hdecided, documentedAction, Option.mem_def.mp hasked]
  simp only [hblock, decidedOutputs]

/-- A user who blocks everything. -/
def blockEverything : Settings :=
  { Settings.proxyEverything with rules := [⟨1, ['*'], ['*'], ['*'], .both, .block, true⟩] }

/-- One application owns every local end, and no process lets its name be read. -/
def namelessOwner : Environment := ⟨fun _ _ _ => 7, fun _ => none, true⟩

def toWeb : Packet := .fromApp (.tcp ⟨true, false, false, false⟩) (ipv4 192 0 2 1, 443) []

/-- Where everything is blocked a datagram is dropped. -/
theorem outputs_freshFlow_blocked :
    (Shared.initial 0).outputs .windows .app
      (packetProcessor blockEverything (.ipv4 toRemote)) = [] :=
  (@outputs_freshFlow blockEverything .app toRemote (.initial 0) rfl (by decide) (by decide)).2
    "app".toList (by decide) (by decide)

/-- A process without a name is not blocked, although the rules block every process. -/
theorem nameless_passes_block :
    (∀ process, matchRule filters blockEverything.rules process toWeb.dstAddr toWeb.dstPort false =
        .block) ∧
      owner namelessOwner toWeb ≠ 0 ∧
      owner namelessOwner toWeb ≠ blockEverything.currentProcessId ∧
      toWeb.dstPort ≠ 53 ∧
      (Shared.initial 0).outputs .windows namelessOwner
        (packetProcessor blockEverything (.ipv4 toWeb)) = [.send .unchanged toWeb] := by
  refine ⟨?_, by decide, by decide, by decide, by decide⟩
  intro process
  rfl

/-- What is documented for DNS, whatever the rules are. -/
def documentedDns (cfg : Settings) (p : Packet) : List Output :=
  if cfg.dnsViaProxy then [.send .toRelay (redirected p)] else [.send .unchanged p]

/-- The settings of a user with other rules. -/
def withRules (cfg : Settings) (rules : List Rule) : Settings := { cfg with rules := rules }

/-- The rules send a packet of a process to the proxy. -/
def RulesProxy (rules : List Rule) (process : CStr) (p : Packet) : Prop :=
  matchRule filters rules process p.dstAddr p.dstPort p.transport.isUdp = .proxy

section
variable {process : CStr} (rules : List Rule)

theorem askedProcess_dns (hdns : p.dstPort = 53) (hpid : owner env p ≠ 0)
    (hown : owner env p ≠ cfg.currentProcessId)
    (hname : env.processName (owner env p) = some process) :
    askedProcess (withRules cfg rules) env p = if cfg.dnsViaProxy then some process else none := by
  have hasked : (owner env p = 0 ∨ owner env p = cfg.currentProcessId ∨
      p.dstPort = 53 ∧ cfg.dnsViaProxy = false) ↔ cfg.dnsViaProxy = false := by
    rw [or_iff_right hpid, or_iff_right hown, and_iff_right hdns]
  change askedProcess cfg env p = _
  rw [askedProcess, if_congr hasked rfl hname]
  cases cfg.dnsViaProxy <;> rfl

/-- DNS goes where the documentation says if it does not use the proxy or the rules proxy it. -/
theorem outputs_dns_iff (hout : p.outbound = true) (hport : p.srcPort ≠ p.transport.relayPort)
    (huntracked : s.table.isConnectionTracked p.srcPort = false) (hdns : p.dstPort = 53)
    (hproxied : neverProxied cfg p = false) (hpid : owner env p ≠ 0)
    (hown : owner env p ≠ cfg.currentProcessId)
    (hname : env.processName (owner env p) = some process) :
    s.outputs .windows env (packetProcessor (withRules cfg rules) (.ipv4 p)) =
        documentedDns cfg p ↔
      cfg.dnsViaProxy = false ∨ RulesProxy rules process p := by
  have hproxied' : neverProxied (withRules cfg rules) p = false := hproxied
  have hrules : (withRules cfg rules).rules = rules := rfl
  rw [outputs_documented hout hport huntracked, documentedAction,
    askedProcess_dns rules hdns hpid hown hname, documentedDns, RulesProxy]
  cases cfg.dnsViaProxy with
  | false => simp [decidedOutputs]
  | true =>
    simp only [if_true, hproxied', hrules]
    obtain ⟨action, haction⟩ : ∃ action, matchRule filters rules process p.dstAddr p.dstPort
      p.transport.isUdp = action := ⟨_, rfl⟩
    cases action <;> simp [haction, decidedOutputs]

/-- Two rule lists have the same, documented effect on DNS exactly when it does not use the proxy
or both send it there. -/
theorem outputs_dns_independent (rules' : List Rule) (hout : p.outbound = true)
    (hport : p.srcPort ≠ p.transport.relayPort)
    (huntracked : s.table.isConnectionTracked p.srcPort = false) (hdns : p.dstPort = 53)
    (hsocks : cfg.proxyType = .socks5) (hhost : cfg.proxyHost ≠ []) (hproxy : cfg.proxyPort ≠ 0)
    (hexempt : isExempt cfg p = false) (hpid : owner env p ≠ 0)
    (hown : owner env p ≠ cfg.currentProcessId)
    (hname : env.processName (owner env p) = some process) :
    s.outputs .windows env (packetProcessor (withRules cfg rules) (.ipv4 p)) =
          s.outputs .windows env (packetProcessor (withRules cfg rules') (.ipv4 p)) ∧
        s.outputs .windows env (packetProcessor (withRules cfg rules) (.ipv4 p)) =
          documentedDns cfg p ↔
      cfg.dnsViaProxy = false ∨ RulesProxy rules process p ∧ RulesProxy rules' process p := by
  have hproxied : neverProxied cfg p = false := by
    simpa [neverProxied_eq, Settings.canProxy, hsocks, hhost, hexempt] using hproxy
  have hfirst := outputs_dns_iff rules hout hport huntracked hdns hproxied hpid hown hname
  have hsecond := outputs_dns_iff rules' hout hport huntracked hdns hproxied hpid hown hname
  constructor
  · rintro ⟨hsame, hdocumented⟩
    have hdocumented' := hsame ▸ hdocumented
    have hcond := hfirst.mp hdocumented
    have hcond' := hsecond.mp hdocumented'
    rcases hcond with hoff | hproxies
    · exact .inl hoff
    · exact hcond'.imp_right fun hproxies' => ⟨hproxies, hproxies'⟩
  · intro hcond
    have hdocumented := hfirst.mpr (hcond.imp_right And.left)
    have hdocumented' := hsecond.mpr (hcond.imp_right And.right)
    exact ⟨hdocumented.trans hdocumented'.symm, hdocumented⟩

end

/-- A DNS query over UDP to a public resolver. -/
def dnsQuery : Packet := .fromApp .udp (ipv4 8 8 8 8, 53) [42]

/-- With rules that proxy everything the query is redirected under either list. -/
theorem outputs_dns_independent_proxied :
    let rules := Settings.proxyEverything.rules
    (Shared.initial 0).outputs .windows .app
        (packetProcessor (withRules .proxyEverything rules) (.ipv4 dnsQuery)) =
      (Shared.initial 0).outputs .windows .app
        (packetProcessor (withRules .proxyEverything (rules ++ rules)) (.ipv4 dnsQuery)) := by
  intro rules
  have hproxy : RulesProxy rules "app".toList dnsQuery := by
    unfold RulesProxy
    decide
  have hproxy' : RulesProxy (rules ++ rules) "app".toList dnsQuery := by
    unfold RulesProxy
    decide
  exact ((@outputs_dns_independent .proxyEverything .app dnsQuery (.initial 0) "app".toList rules
    (rules ++ rules) rfl (by decide) (by decide) rfl rfl (by decide) (by decide) (by decide)
    (by decide) (by decide) rfl).mpr (.inr ⟨hproxy, hproxy'⟩)).1

/-- Without rules the query goes out directly, although DNS is to use the proxy. -/
theorem dns_follows_rules :
    Settings.proxyEverything.dnsViaProxy = true ∧
      neverProxied .proxyEverything dnsQuery = false ∧
      (Shared.initial 0).outputs .windows .app
        (packetProcessor (withRules .proxyEverything []) (.ipv4 dnsQuery)) =
        [.send .unchanged dnsQuery] ∧
      (Shared.initial 0).outputs .windows .app
        (packetProcessor .proxyEverything (.ipv4 dnsQuery)) =
        [.send .toRelay (redirected dnsQuery)] := by
  decide

end ProxyTun.Windows
