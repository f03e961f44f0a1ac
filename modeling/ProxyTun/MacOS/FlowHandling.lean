import ProxyTun.Library.Threads
import ProxyTun.MacOS.LogQueue
import ProxyTun.MacOS.RuleDecision
import ProxyTun.MacOS.RuleMessages

/-!
# New flows between messages

The extension decides about every new flow while the application sends messages. The proxy and the
rules have a lock each, so that messages may come between the sections of a flow's handler.
-/
namespace ProxyTun.MacOS
open Library

/-- The variables under `proxyLock`. -/
structure ProxyVariables where
  proxyType : Option CStr
  proxyHost : Option CStr
  proxyPort : Option ℤ
  proxyUsername : Option CStr
  proxyPassword : Option CStr
  deriving DecidableEq, Repr

def ProxyVariables.unset : ProxyVariables := ⟨none, none, none, none, none⟩

/-- What a `setProxyConfig` message sets. -/
structure ProxyConfig where
  proxyType : CStr
  proxyHost : CStr
  proxyPort : ℤ
  proxyUsername : Option CStr
  proxyPassword : Option CStr
  deriving DecidableEq, Repr

def ProxyConfig.variables (config : ProxyConfig) : ProxyVariables :=
  ⟨some config.proxyType, some config.proxyHost, some config.proxyPort, config.proxyUsername,
    config.proxyPassword⟩

/-- What the handlers share, with the calls of `sendLogToApp` so far. -/
structure Provider where
  proxy : ProxyVariables
  extension : Extension
  trafficLoggingEnabled : Bool
  logCalls : List LogCall

def Provider.launched : Provider := ⟨.unset, .launched, true, []⟩

/-- The texts, the casts and the identifier of the extension, which the system gives. -/
structure ProviderSystem where
  lowercased : CStr → CStr
  reads : ValueReads
  asInt : Json → Option ℤ
  ownExtensionBundleIdentifier : CStr

inductive FlowEndpoint where
  | host (hostname port : CStr)
  | other (description : CStr)
  deriving DecidableEq, Repr

/-- A flow, by its endpoint and the signing identifier of its source. -/
inductive Flow where
  | tcp (signingIdentifier : CStr) (remoteEndpoint : FlowEndpoint)
  | udp (signingIdentifier : Option CStr)
  | other
  deriving DecidableEq, Repr

/-- The protocol to the proxy. -/
inductive ProxyHandler where
  | socks5
  | http
  deriving DecidableEq, Repr

inductive FlowOutcome where
  /-- The handler returned `false`. -/
  | passed
  | blocked
  /-- A connection to the proxy with its handshake. -/
  | proxied (handler : ProxyHandler) (config : ProxyVariables) (destination : CStr) (port : Port)
  | unsupported
  | configMissing
  /-- A connection to the proxy for an association. -/
  | associated (socksHost : CStr) (socksPort : ℤ)
  | notOpened
  deriving DecidableEq, Repr

/-- Where the handler of a flow is, with the variables that it saw. -/
inductive FlowProgress where
  | idle
  | arrived (flow : Flow)
  | named (flow : Flow) (processName : Option CStr)
  | configured (flow : Flow) (processName : Option CStr) (seen : ProxyVariables)
  | matched (flow : Flow) (processName : Option CStr) (seen : ProxyVariables)
      (rule : Option ProxyRule)
  | connecting (flow : Flow) (seen : ProxyVariables)
  | done (flow : Flow) (outcome : FlowOutcome)
  deriving DecidableEq, Repr

/-- The sections of a handler. The name is the one that `getProcessName` has found, and a UDP flow
may fail to open. -/
inductive FlowAct where
  | arrive (flow : Flow)
  | name (processName : Option CStr)
  | check
  | find
  | report
  | connect (opens : Bool)
  deriving DecidableEq, Repr

namespace Flow

/-- `processPath`. -/
def processPath : Flow → CStr
  | .tcp signingIdentifier _ => signingIdentifier
  | .udp signingIdentifier => signingIdentifier.getD "unknown".toList
  | .other => []

def destination : Flow → CStr
  | .tcp _ (.host hostname _) => hostname
  | .tcp _ (.other description) => description
  | _ => []

def portStr : Flow → CStr
  | .tcp _ (.host _ port) => port
  | _ => "unknown".toList

def port (flow : Flow) : Port :=
  match flow with
  | .tcp _ (.host _ port) => BitVec.ofNat 16 ((unsignedInteger 16 port).getD 0)
  | _ => 0

/-- The name of the process is not asked for where there is no metadata. -/
def foundName (processName : Option CStr) : Flow → Option CStr
  | .udp none => none
  | _ => processName

/-- The arguments of `findMatchingRule`. -/
def query (flow : Flow) (processName : Option CStr) : FlowQuery :=
  match flow with
  | .tcp _ _ => ⟨flow.processPath, processName, flow.destination, flow.port, .tcp, true⟩
  | _ => ⟨flow.processPath, processName, [], 0, .udp, false⟩

def isReady (lowercased : CStr → CStr) (vars : ProxyVariables) : Flow → Bool
  | .tcp _ _ => vars.proxyHost.isSome && vars.proxyPort.isSome
  | .udp _ => vars.proxyHost.isSome && vars.proxyPort.isSome &&
    decide (vars.proxyType.map lowercased = some "socks5".toList)
  | .other => false

def logCall (enabled : Bool) (processName : Option CStr) (rule : Option ProxyRule) :
    Flow → Option LogCall
  | flow@(.tcp _ _) =>
    some (.sendLogToApp enabled "TCP".toList (processName.getD flow.processPath) flow.destination
      flow.portStr (rule.elim "Direct".toList fun rule => rule.action.rawValue))
  | flow@(.udp _) =>
    let call := fun proxy => some (.sendLogToApp enabled "UDP".toList
      (processName.getD flow.processPath) "unknown".toList "unknown".toList proxy)
    match rule.map ProxyRule.action with
    | some .proxy => none
    | some .block => call "BLOCK".toList
    | some .direct => call "Direct".toList
    | none => call "Direct".toList
  | .other => none

end Flow

def ownAppBundleIdentifier (ownExtensionBundleIdentifier : CStr) : CStr :=
  if ".extension".toList.isSuffixOf ownExtensionBundleIdentifier then
    ownExtensionBundleIdentifier.take
      (ownExtensionBundleIdentifier.length - ".extension".toList.length)
  else ownExtensionBundleIdentifier

section
variable (sys : ProviderSystem)

def Flow.isOwn (flow : Flow) : Bool :=
  flow.processPath = ownAppBundleIdentifier sys.ownExtensionBundleIdentifier ||
    flow.processPath = sys.ownExtensionBundleIdentifier

/-- The fields of a `setProxyConfig` message. -/
def proxyConfig (m : Message) : Option ProxyConfig := do
  let proxyType ← (m.lookup "proxyType".toList).bind Json.asString
  let proxyHost ← (m.lookup "proxyHost".toList).bind Json.asString
  let proxyPort ← (m.lookup "proxyPort".toList).bind sys.asInt
  some ⟨proxyType, proxyHost, proxyPort, (m.lookup "proxyUsername".toList).bind Json.asString,
    (m.lookup "proxyPassword".toList).bind Json.asString⟩

def messageAction (m : Message) : Option CStr := (m.lookup "action".toList).bind Json.asString

/-- The configuration that a message sets. -/
def Message.config (m : Message) : Option ProxyConfig :=
  if messageAction m = some "setProxyConfig".toList then proxyConfig sys m else none

/-- The messages, which the extension does not survive when it runs out of ids. -/
def Provider.handleAppMessage (p : Provider) (m : Message) : Option Provider :=
  if messageAction m = some "setTrafficLogging".toList then
    match (m.lookup "enabled".toList).bind sys.reads.asBool with
    | some enabled => some { p with trafficLoggingEnabled := enabled }
    | none => some p
  else if messageAction m = some "setProxyConfig".toList then
    match proxyConfig sys m with
    | some config => some { p with proxy := config.variables }
    | none => some p
  else (p.extension.handleAppMessage sys.reads m).map fun r => { p with extension := r.2 }

def proxyTCPFlow (vars : ProxyVariables) (destination : CStr) (port : Port) : FlowOutcome :=
  match vars.proxyHost, vars.proxyPort, vars.proxyType with
  | some _, some _, some proxyType =>
    if sys.lowercased proxyType = "socks5".toList then .proxied .socks5 vars destination port
    else if sys.lowercased proxyType = "http".toList then .proxied .http vars destination port
    else .unsupported
  | _, _, _ => .configMissing

/-- What a decision comes to. -/
def Flow.decide (flow : Flow) (seen : ProxyVariables) : Option ProxyRule → FlowProgress
  | none => .done flow .passed
  | some rule =>
    match rule.action with
    | .direct => .done flow .passed
    | .block => .done flow .blocked
    | .proxy => .connecting flow seen

/-- Without a proxy, a TCP flow is reported and passed like one without a rule. -/
def Flow.pass (processName : Option CStr) (seen : ProxyVariables) : Flow → FlowProgress
  | .tcp signingIdentifier remoteEndpoint =>
    .matched (.tcp signingIdentifier remoteEndpoint) processName seen none
  | flow => .done flow .passed

/-- A UDP flow is associated with the proxy that its handler saw. -/
def Flow.connect (proxy seen : ProxyVariables) (opens : Bool) : Flow → FlowOutcome
  | .tcp signingIdentifier remoteEndpoint =>
    let flow := Flow.tcp signingIdentifier remoteEndpoint
    proxyTCPFlow sys proxy flow.destination flow.port
  | _ =>
    match seen.proxyHost, seen.proxyPort with
    | some socksHost, some socksPort =>
      if opens then .associated socksHost socksPort else .notOpened
    | _, _ => .notOpened

def handleNewFlow (p : Provider) : FlowProgress → FlowAct → Option (Provider × FlowProgress)
  | .idle, .arrive flow =>
    some (p, if flow = .other then .done flow .passed else .arrived flow)
  | .arrived flow, .name processName =>
    some (p, if flow.isOwn sys then .done flow .passed
      else .named flow (flow.foundName processName))
  | .named flow processName, .check =>
    some (p, if flow.isReady sys.lowercased p.proxy then .configured flow processName p.proxy
      else flow.pass processName p.proxy)
  | .configured flow processName seen, .find =>
    some (p, .matched flow processName seen
      (findMatchingRule sys.lowercased (flow.query processName) p.extension.rules))
  | .matched flow processName seen rule, .report =>
    some ({ p with
      logCalls := p.logCalls ++ (flow.logCall p.trafficLoggingEnabled processName rule).toList },
      flow.decide seen rule)
  | .connecting flow seen, .connect opens =>
    some (p, .done flow (flow.connect sys p.proxy seen opens))
  | _, _ => none

/-- The extension, with any number of flows at a time. -/
def providerThreads : Threads Provider FlowProgress FlowAct Message where
  act := handleNewFlow sys
  env := Provider.handleAppMessage sys

variable {ι : Type*}

/-- What happened, to the flows and by the messages. -/
abbrev FlowHistory (ι : Type*) := List (Threads.Event ι FlowAct Message)

def eventConfig : Threads.Event ι FlowAct Message → Option ProxyConfig
  | .env m => m.config sys
  | .thread _ _ => none

/-- The last configuration that a message has set. -/
def lastConfig (history : FlowHistory ι) : Option ProxyConfig :=
  (history.filterMap (eventConfig sys)).getLast?

/-- The variables as the last configuration leaves them. -/
def configVariables (config : Option ProxyConfig) : ProxyVariables :=
  config.elim .unset ProxyConfig.variables

def handlerFor (proxyType : CStr) : Option ProxyHandler :=
  if sys.lowercased proxyType = "socks5".toList then some .socks5
  else if sys.lowercased proxyType = "http".toList then some .http
  else none

theorem lastConfig_append (history more : FlowHistory ι) :
    lastConfig sys (history ++ more) = (lastConfig sys more).or (lastConfig sys history) := by
  rw [lastConfig, List.filterMap_append, List.getLast?_append]
  rfl

theorem lastConfig_singleton (event : Threads.Event ι FlowAct Message) :
    lastConfig sys [event] = eventConfig sys event := by
  rw [lastConfig, List.filterMap_cons]
  cases eventConfig sys event <;> rfl

/-- A configuration that was set is replaced, and never taken away. -/
theorem lastConfig_isSome_append {history : FlowHistory ι} (more : FlowHistory ι)
    (h : (lastConfig sys history).isSome) : (lastConfig sys (history ++ more)).isSome := by
  rw [lastConfig_append, Option.isSome_or, h, Bool.or_true]

/-- A handler changes neither the proxy nor the rules. -/
theorem handleNewFlow_frame {p : Provider} {progress : FlowProgress} {a : FlowAct}
    {r : Provider × FlowProgress} (h : handleNewFlow sys p progress a = some r) :
    r.1.proxy = p.proxy ∧ r.1.extension = p.extension := by
  unfold handleNewFlow at h
  split at h
  case h_7 => cases h
  all_goals
    obtain rfl := Option.some.inj h
    exact ⟨rfl, rfl⟩

theorem handleAppMessage_proxy {p u : Provider} {m : Message}
    (h : p.handleAppMessage sys m = some u) :
    u.proxy = (m.config sys).elim p.proxy ProxyConfig.variables := by
  unfold Provider.handleAppMessage at h
  by_cases hlogging : messageAction m = some "setTrafficLogging".toList
  · have hconfig : m.config sys = none := by
      rw [Message.config, hlogging]
      exact if_neg (by decide)
    rw [if_pos hlogging] at h
    rw [hconfig]
    split at h <;> obtain rfl := Option.some.inj h <;> rfl
  · rw [if_neg hlogging] at h
    by_cases hset : messageAction m = some "setProxyConfig".toList
    · rw [if_pos hset] at h
      rw [Message.config, if_pos hset]
      cases hconfig : proxyConfig sys m <;> rw [hconfig] at h <;>
        obtain rfl := Option.some.inj h <;> rfl
    · rw [if_neg hset] at h
      rw [Message.config, if_neg hset]
      obtain ⟨r, -, rfl⟩ := Option.map_eq_some_iff.mp h
      rfl

variable [DecidableEq ι]

theorem proxy_of_run {history : FlowHistory ι} {s : Threads.State ι Provider FlowProgress}
    (hrun : Transition.run (providerThreads sys).step (.initial .launched .idle) history = some s) :
    s.shared.proxy = configVariables (lastConfig sys history) := by
  refine Threads.shared_of_run
    (I := fun history p => p.proxy = configVariables (lastConfig sys history)) rfl ?_ ?_ hrun
  · intro history s i a r _ hproxy hact
    rw [lastConfig_append, lastConfig_singleton]
    exact (handleNewFlow_frame sys hact).1.trans hproxy
  · intro history s m u _ hproxy henv
    rw [handleAppMessage_proxy sys henv, lastConfig_append, lastConfig_singleton, hproxy]
    change (m.config sys).elim _ _ = configVariables ((m.config sys).or _)
    cases m.config sys <;> rfl

/-- The configuration when the handler looked whether there is one. -/
def Checked (history : FlowHistory ι) (i : ι) (config : Option ProxyConfig) : Prop :=
  Threads.Happened history (.thread i .check) fun before => lastConfig sys before = config

/-- The name is the one that the handler got for the flow. -/
def Named (history : FlowHistory ι) (i : ι) (flow : Flow) (processName : Option CStr) : Prop :=
  ∃ found, .thread i (.name found) ∈ history ∧ processName = flow.foundName found

/-- The rule that the handler found for the flow and the name of its process. -/
structure Found (history : FlowHistory ι) (i : ι) (flow : Flow) (processName : Option CStr)
    (rule : Option ProxyRule) : Prop where
  named : Named history i flow processName
  looked : Threads.Happened history (.thread i .find) fun before =>
    ∃ s, Transition.run (providerThreads sys).step (.initial .launched .idle) before = some s ∧
      findMatchingRule sys.lowercased (flow.query processName) s.shared.extension.rules = rule

/-- The flow is not the extension's own, and there was a configuration that it can use. -/
structure Admitted (history : FlowHistory ι) (i : ι) (flow : Flow) (config : ProxyConfig) :
    Prop where
  notOwn : flow.isOwn sys = false
  ready : flow.isReady sys.lowercased config.variables = true
  checked : Checked sys history i (some config)

def Decided (history : FlowHistory ι) (i : ι) (flow : Flow) (config : ProxyConfig)
    (action : RuleAction) : Prop :=
  Admitted sys history i flow config ∧
    ∃ processName rule, Found sys history i flow processName (some rule) ∧ rule.action = action

def Connected (history : FlowHistory ι) (i : ι) (config : ProxyConfig) : Prop :=
  ∃ opens, Threads.Happened history (.thread i (.connect opens)) fun before =>
    lastConfig sys before = some config

/-- What an outcome rests on. -/
def Justified (history : FlowHistory ι) (i : ι) (flow : Flow) : FlowOutcome → Prop
  | .passed => flow = .other ∨ flow.isOwn sys = true ∨
    (∃ config, Checked sys history i config ∧
      flow.isReady sys.lowercased (configVariables config) = false) ∨
    (∃ config, Admitted sys history i flow config ∧
      ∃ processName, Found sys history i flow processName none) ∨
    ∃ config, Decided sys history i flow config .direct
  | .blocked => ∃ config, Decided sys history i flow config .block
  | .proxied handler vars destination port =>
    (∃ config, Decided sys history i flow config .proxy) ∧
      ∃ config, Connected sys history i config ∧ vars = config.variables ∧
        handlerFor sys config.proxyType = some handler ∧ destination = flow.destination ∧
        port = flow.port
  | .unsupported => (∃ config, Decided sys history i flow config .proxy) ∧
    ∃ config, Connected sys history i config ∧ handlerFor sys config.proxyType = none
  | .configMissing => False
  | .associated socksHost socksPort => ∃ config, Decided sys history i flow config .proxy ∧
    socksHost = config.proxyHost ∧ socksPort = config.proxyPort
  | .notOpened => ∃ config, Decided sys history i flow config .proxy

def Evidence (history : FlowHistory ι) (i : ι) : FlowProgress → Prop
  | .idle | .arrived _ => True
  | .named flow processName => flow.isOwn sys = false ∧ Named history i flow processName
  | .configured flow processName seen => Named history i flow processName ∧
    ∃ config, seen = config.variables ∧ Admitted sys history i flow config
  | .matched flow processName seen rule =>
    (rule = none ∧ ∃ config, Checked sys history i config ∧
      flow.isReady sys.lowercased (configVariables config) = false) ∨
    ∃ config, seen = config.variables ∧ Admitted sys history i flow config ∧
      Found sys history i flow processName rule
  | .connecting flow seen =>
    ∃ config, seen = config.variables ∧ Decided sys history i flow config .proxy
  | .done flow outcome => Justified sys history i flow outcome

section
variable {sys} {history : FlowHistory ι} {i : ι} {flow : Flow}

omit [DecidableEq ι] in
theorem Admitted.append {config : ProxyConfig} (h : Admitted sys history i flow config)
    (event : Threads.Event ι FlowAct Message) : Admitted sys (history ++ [event]) i flow config :=
  ⟨h.notOwn, h.ready, h.checked.append event⟩

omit [DecidableEq ι] in
theorem Named.append {processName : Option CStr} (h : Named history i flow processName)
    (event : Threads.Event ι FlowAct Message) :
    Named (history ++ [event]) i flow processName := by
  obtain ⟨found, hmem, hname⟩ := h
  exact ⟨found, List.mem_append_left _ hmem, hname⟩

theorem Found.append {processName : Option CStr} {rule : Option ProxyRule}
    (h : Found sys history i flow processName rule) (event : Threads.Event ι FlowAct Message) :
    Found sys (history ++ [event]) i flow processName rule :=
  ⟨h.named.append event, h.looked.append event⟩

theorem Decided.append {config : ProxyConfig} {action : RuleAction}
    (h : Decided sys history i flow config action) (event : Threads.Event ι FlowAct Message) :
    Decided sys (history ++ [event]) i flow config action := by
  obtain ⟨hadmitted, processName, rule, hfound, haction⟩ := h
  exact ⟨hadmitted.append event, processName, rule, hfound.append event, haction⟩

theorem Justified.append {outcome : FlowOutcome} (h : Justified sys history i flow outcome)
    (event : Threads.Event ι FlowAct Message) :
    Justified sys (history ++ [event]) i flow outcome := by
  cases outcome with
  | passed =>
    rcases h with hother | hown | ⟨config, hchecked, hready⟩ | ⟨config, hadmitted, name, hfound⟩ |
      ⟨config, hdecided⟩
    · exact .inl hother
    · exact .inr (.inl hown)
    · exact .inr (.inr (.inl ⟨config, hchecked.append event, hready⟩))
    · exact .inr (.inr (.inr (.inl ⟨config, hadmitted.append event, name, hfound.append event⟩)))
    · exact .inr (.inr (.inr (.inr ⟨config, hdecided.append event⟩)))
  | blocked => exact h.imp fun _ hdecided => hdecided.append event
  | proxied handler vars destination port =>
    obtain ⟨⟨config, hdecided⟩, config', ⟨opens, hconnected⟩, hrest⟩ := h
    exact ⟨⟨config, hdecided.append event⟩, config', ⟨opens, hconnected.append event⟩, hrest⟩
  | unsupported =>
    obtain ⟨⟨config, hdecided⟩, config', ⟨opens, hconnected⟩, hrest⟩ := h
    exact ⟨⟨config, hdecided.append event⟩, config', ⟨opens, hconnected.append event⟩, hrest⟩
  | configMissing => exact h
  | associated socksHost socksPort =>
    obtain ⟨config, hdecided, hrest⟩ := h
    exact ⟨config, hdecided.append event, hrest⟩
  | notOpened => exact h.imp fun _ hdecided => hdecided.append event

theorem Evidence.append {progress : FlowProgress} (h : Evidence sys history i progress)
    (event : Threads.Event ι FlowAct Message) : Evidence sys (history ++ [event]) i progress := by
  cases progress with
  | idle => trivial
  | arrived flow => trivial
  | named flow processName => exact ⟨h.1, h.2.append event⟩
  | configured flow processName seen =>
    obtain ⟨hnamed, config, hseen, hadmitted⟩ := h
    exact ⟨hnamed.append event, config, hseen, hadmitted.append event⟩
  | matched flow processName seen rule =>
    rcases h with ⟨hrule, config, hchecked, hready⟩ | ⟨config, hseen, hadmitted, hfound⟩
    · exact .inl ⟨hrule, config, hchecked.append event, hready⟩
    · exact .inr ⟨config, hseen, hadmitted.append event, hfound.append event⟩
  | connecting flow seen =>
    obtain ⟨config, hseen, hdecided⟩ := h
    exact ⟨config, hseen, hdecided.append event⟩
  | done flow outcome => exact Justified.append h event

end

theorem isReady_unset (lowercased : CStr → CStr) (flow : Flow) :
    flow.isReady lowercased .unset = false := by
  cases flow <;> rfl

section
variable {sys} {history : FlowHistory ι} {i : ι} {s : Threads.State ι Provider FlowProgress}

theorem evidence_check {flow : Flow} {processName : Option CStr}
    (hrun : Transition.run (providerThreads sys).step (.initial .launched .idle) history = some s)
    (hown : flow.isOwn sys = false) (hnamed : Named history i flow processName) :
    Evidence sys (history ++ [.thread i .check]) i
      (if flow.isReady sys.lowercased s.shared.proxy then
        .configured flow processName s.shared.proxy
      else flow.pass processName s.shared.proxy) := by
  have hchecked : Checked sys (history ++ [.thread i .check]) i (lastConfig sys history) :=
    Threads.happened_last _ rfl
  rw [proxy_of_run sys hrun]
  by_cases hready : flow.isReady sys.lowercased (configVariables (lastConfig sys history)) = true
  · rw [if_pos hready]
    cases hconfig : lastConfig sys history with
    | none =>
      rw [hconfig, configVariables, Option.elim_none, isReady_unset] at hready
      cases hready
    | some config =>
      rw [hconfig] at hready hchecked
      exact ⟨hnamed.append _, config, rfl, hown, hready, hchecked⟩
  · have hnot := Bool.eq_false_iff.mpr hready
    rw [if_neg hready]
    cases flow with
    | tcp signingIdentifier remoteEndpoint => exact .inl ⟨rfl, _, hchecked, hnot⟩
    | udp signingIdentifier => exact .inr (.inr (.inl ⟨_, hchecked, hnot⟩))
    | other => exact .inl rfl

theorem evidence_decide {flow : Flow} {processName : Option CStr} {seen : ProxyVariables}
    {rule : Option ProxyRule} (h : Evidence sys history i (.matched flow processName seen rule)) :
    Evidence sys history i (flow.decide seen rule) := by
  rcases h with ⟨rfl, config, hchecked, hready⟩ | ⟨config, hseen, hadmitted, hfound⟩
  · exact .inr (.inr (.inl ⟨config, hchecked, hready⟩))
  · cases rule with
    | none => exact .inr (.inr (.inr (.inl ⟨config, hadmitted, processName, hfound⟩)))
    | some rule =>
      have hdecided : Decided sys history i flow config rule.action :=
        ⟨hadmitted, processName, rule, hfound, rfl⟩
      rw [Flow.decide]
      cases haction : rule.action with
      | direct =>
        rw [haction] at hdecided
        exact .inr (.inr (.inr (.inr ⟨config, hdecided⟩)))
      | block =>
        rw [haction] at hdecided
        exact ⟨config, hdecided⟩
      | proxy =>
        rw [haction] at hdecided
        exact ⟨config, hseen, hdecided⟩

theorem justified_connect {flow : Flow} {config : ProxyConfig} (opens : Bool)
    (hrun : Transition.run (providerThreads sys).step (.initial .launched .idle) history = some s)
    (h : Decided sys history i flow config .proxy) :
    Justified sys (history ++ [.thread i (.connect opens)]) i flow
      (flow.connect sys s.shared.proxy config.variables opens) := by
  have hdecided := h.append (.thread i (.connect opens))
  cases flow with
  | tcp signingIdentifier remoteEndpoint =>
    -- the configuration that was looked at is there, or one that has replaced it
    obtain ⟨before, after, hhistory, hconfig⟩ := h.1.checked
    have hsome : (lastConfig sys history).isSome := by
      rw [hhistory]
      exact lastConfig_isSome_append sys _ (by rw [hconfig, Option.isSome_some])
    obtain ⟨config', hconfig'⟩ := Option.isSome_iff_exists.mp hsome
    have hconnected : Connected sys (history ++ [.thread i (.connect opens)]) i config' :=
      ⟨opens, Threads.happened_last _ hconfig'⟩
    rw [Flow.connect, proxy_of_run sys hrun, hconfig']
    change Justified sys _ i _ (if sys.lowercased config'.proxyType = _ then _ else
      if sys.lowercased config'.proxyType = _ then _ else _)
    split_ifs with hsocks5 hhttp
    · have hhandler : handlerFor sys config'.proxyType = some .socks5 := if_pos hsocks5
      exact ⟨⟨config, hdecided⟩, config', hconnected, rfl, hhandler, rfl, rfl⟩
    · have hhandler : handlerFor sys config'.proxyType = some .http :=
        (if_neg hsocks5).trans (if_pos hhttp)
      exact ⟨⟨config, hdecided⟩, config', hconnected, rfl, hhandler, rfl, rfl⟩
    · have hhandler : handlerFor sys config'.proxyType = none :=
        (if_neg hsocks5).trans (if_neg hhttp)
      exact ⟨⟨config, hdecided⟩, config', hconnected, hhandler⟩
  | udp signingIdentifier =>
    cases opens with
    | true => exact ⟨config, hdecided, rfl, rfl⟩
    | false => exact ⟨config, hdecided⟩
  | other => cases h.1.ready

theorem evidence_act {a : FlowAct} {r : Provider × FlowProgress}
    (hrun : Transition.run (providerThreads sys).step (.initial .launched .idle) history = some s)
    (hevidence : Evidence sys history i (s.threads i))
    (h : handleNewFlow sys s.shared (s.threads i) a = some r) :
    Evidence sys (history ++ [.thread i a]) i r.2 := by
  generalize s.threads i = progress at hevidence h
  unfold handleNewFlow at h
  split at h
  case h_1 flow =>
    obtain rfl := Option.some.inj h
    split_ifs with hother
    · exact .inl hother
    · trivial
  case h_2 flow processName =>
    obtain rfl := Option.some.inj h
    split_ifs with hown
    · exact .inr (.inl hown)
    · exact ⟨Bool.eq_false_iff.mpr hown, processName, by simp, rfl⟩
  case h_3 flow processName =>
    obtain rfl := Option.some.inj h
    exact evidence_check hrun hevidence.1 hevidence.2
  case h_4 flow processName seen =>
    obtain rfl := Option.some.inj h
    obtain ⟨hnamed, config, hseen, hadmitted⟩ := hevidence
    exact .inr ⟨config, hseen, hadmitted.append _, hnamed.append _,
      Threads.happened_last _ ⟨s, hrun, rfl⟩⟩
  case h_5 flow processName seen rule =>
    obtain rfl := Option.some.inj h
    exact evidence_decide (hevidence.append _)
  case h_6 flow seen opens =>
    obtain rfl := Option.some.inj h
    obtain ⟨config, rfl, hdecided⟩ := hevidence
    exact justified_connect opens hrun hdecided
  case h_7 => cases h

theorem evidence_of_run
    (hrun : Transition.run (providerThreads sys).step (.initial .launched .idle) history = some s)
    (i : ι) : Evidence sys history i (s.threads i) :=
  Threads.evidence_of_run (fun _ => trivial) (fun _ _ _ event h => h.append event)
    (fun _ _ _ _ _ hrun hevidence hact => evidence_act hrun hevidence hact) hrun i

/-- However the sections of the handlers and the messages come: a flow of the application or the
extension passes, and so does one for which there was no proxy, no rule, or the rule says so. A flow
that is blocked or goes to the proxy has a rule that says so, found when the handler looked. A TCP
flow goes to the proxy of the one message that was the last when its handler connected, and there is
one; a UDP flow goes to the one that its handler checked. -/
theorem flow_justified {flow : Flow} {outcome : FlowOutcome}
    (hrun : Transition.run (providerThreads sys).step (.initial .launched .idle) history = some s)
    (hdone : s.threads i = .done flow outcome) : Justified sys history i flow outcome := by
  have hevidence := evidence_of_run hrun i
  rw [hdone] at hevidence
  exact hevidence

omit [DecidableEq ι] in
theorem not_admitted_of_no_config {flow : Flow} {config : ProxyConfig}
    (hnone : lastConfig sys history = none) : ¬ Admitted sys history i flow config := by
  intro h
  obtain ⟨before, after, hhistory, hconfig⟩ := h.checked
  have hsome := lastConfig_isSome_append sys (.thread i .check :: after)
    (show (lastConfig sys before).isSome by rw [hconfig, Option.isSome_some])
  rw [← hhistory, hnone] at hsome
  cases hsome

/-- As long as no message has set a proxy, every flow passes, whatever the rules say: a rule that
blocks blocks nothing. -/
theorem passes_without_config {flow : Flow} {outcome : FlowOutcome}
    (hrun : Transition.run (providerThreads sys).step (.initial .launched .idle) history = some s)
    (hdone : s.threads i = .done flow outcome) (hnone : lastConfig sys history = none) :
    outcome = .passed := by
  have hevidence := evidence_of_run hrun i
  rw [hdone] at hevidence
  change Justified sys history i flow outcome at hevidence
  have hundecided : ∀ config action, ¬ Decided sys history i flow config action :=
    fun config action h => not_admitted_of_no_config hnone h.1
  cases outcome with
  | passed => rfl
  | blocked =>
    obtain ⟨config, hdecided⟩ := hevidence
    exact absurd hdecided (hundecided _ _)
  | proxied handler vars destination port =>
    obtain ⟨⟨config, hdecided⟩, -⟩ := hevidence
    exact absurd hdecided (hundecided _ _)
  | unsupported =>
    obtain ⟨⟨config, hdecided⟩, -⟩ := hevidence
    exact absurd hdecided (hundecided _ _)
  | configMissing => exact hevidence.elim
  | associated socksHost socksPort =>
    obtain ⟨config, hdecided, -⟩ := hevidence
    exact absurd hdecided (hundecided _ _)
  | notOpened =>
    obtain ⟨config, hdecided⟩ := hevidence
    exact absurd hdecided (hundecided _ _)

end

end
/-- Texts of plain letters, and numbers that are whole. -/
def plainSystem : ProviderSystem where
  lowercased := lower
  reads := .strict
  asInt
    | .number value => if value.den = 1 then some value.num else none
    | _ => none
  ownExtensionBundleIdentifier := "com.proxytun.ProxyTun.extension".toList

def configMessage (proxyType proxyHost : CStr) : Message :=
  [("action".toList, .string "setProxyConfig".toList), ("proxyType".toList, .string proxyType),
    ("proxyHost".toList, .string proxyHost), ("proxyPort".toList, .number 1080)]

def curlFlow : Flow := .tcp "curl".toList (.host "93.184.216.34".toList "443".toList)

/-- A proxy that is replaced while a flow is being decided. -/
def replacedConfig : FlowHistory Unit :=
  [.env (configMessage "socks5".toList "10.0.0.1".toList), .env addMessage,
    .thread () (.arrive curlFlow), .thread () (.name none), .thread () .check, .thread () .find,
    .env (configMessage "HTTP".toList "10.0.0.2".toList), .thread () .report,
    .thread () (.connect true)]

/-- The flow goes to the second proxy. -/
theorem flow_justified_replaced :
    Justified plainSystem replacedConfig () curlFlow
      (.proxied .http ⟨some "HTTP".toList, some "10.0.0.2".toList, some 1080, none, none⟩
        "93.184.216.34".toList 443) := by
  obtain ⟨s, hrun, hdone⟩ := Option.bind_eq_some_iff.mp (show
    (Transition.run (providerThreads plainSystem).step (.initial .launched .idle)
      replacedConfig).bind (fun s => some (s.threads ())) = some (.done curlFlow
        (.proxied .http ⟨some "HTTP".toList, some "10.0.0.2".toList, some 1080, none, none⟩
          "93.184.216.34".toList 443)) by decide +kernel)
  exact flow_justified hrun (Option.some.inj hdone)

def blockMessage : Message :=
  [("action".toList, .string "addRule".toList), ("processNames".toList, .string ['*']),
    ("targetHosts".toList, .string ['*']), ("targetPorts".toList, .string ['*']),
    ("ruleProtocol".toList, .string "BOTH".toList), ("ruleAction".toList, .string "BLOCK".toList)]

/-- Everything is to be blocked, and there is no proxy. -/
theorem passes_without_config_blocked :
    ∃ s outcome, Transition.run (providerThreads plainSystem).step (.initial .launched .idle)
        ([.env blockMessage, .thread () (.arrive curlFlow), .thread () (.name none),
          .thread () .check, .thread () .report] : FlowHistory Unit) = some s ∧
      s.threads () = .done curlFlow outcome ∧ outcome = .passed := by
  obtain ⟨s, hrun, hdone⟩ := Option.bind_eq_some_iff.mp (show
    (Transition.run (providerThreads plainSystem).step (.initial .launched .idle)
      ([.env blockMessage, .thread () (.arrive curlFlow), .thread () (.name none),
        .thread () .check, .thread () .report] : FlowHistory Unit)).bind
      (fun s => some (s.threads ())) = some (.done curlFlow .passed) by decide +kernel)
  have hdone := Option.some.inj hdone
  exact ⟨s, _, hrun, hdone, passes_without_config hrun hdone (by decide)⟩

end ProxyTun.MacOS
