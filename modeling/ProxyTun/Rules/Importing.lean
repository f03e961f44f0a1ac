import Mathlib.Data.List.Find
import ProxyTun.Core.RuleEvaluation
import ProxyTun.MacOS.RuleDecision
import ProxyTun.Rules.SimpleFields
import ProxyTun.WindowsGui.ProxyRules

/-!
# Importing exported rules

A file of exported rules can be imported on both platforms, which go through it from its first
rule on. The extension of macOS puts each rule behind the others and the engine of Windows puts it
in front of them. A single rule is for the same connections on both.
-/
namespace ProxyTun.Importing
open Library

/-- A rule of a file of exported rules that is switched on. -/
structure ExportedRule where
  processNames : CStr
  targetHosts : CStr
  targetPorts : CStr
  protocol : RuleProtocol
  action : RuleAction
  deriving DecidableEq, Repr

/-- The `addRule` message for the rule. -/
def ExportedRule.message (rule : ExportedRule) : MacOS.AddRuleMessage :=
  ⟨rule.processNames, rule.targetHosts, rule.targetPorts, rule.protocol.rawValue,
    rule.action.rawValue, true⟩

/-- The rule as `ImportRulesAsync` reads it. -/
def ExportedRule.config (rule : ExportedRule) : WindowsGui.ProxyRuleConfig :=
  ⟨⟨rule.processNames, rule.targetHosts, rule.targetPorts, rule.protocol.rawValue,
    rule.action.rawValue⟩, true⟩

/-- The extension that has been sent the rules of a file, unless it runs out of rule ids. -/
def importOnMacOS (file : List ExportedRule) : Option MacOS.Extension :=
  (file.map ExportedRule.message).foldlM MacOS.Extension.addRule .launched

/-- The GUI with a running service and without rules. -/
def emptyGui : WindowsGui.GuiState := ⟨.empty, [], true, .finished⟩

def importOnWindows (file : List ExportedRule) : WindowsGui.GuiState :=
  file.foldl (fun s rule => s.importRule rule.config .succeeds) emptyGui

/-- A TCP connection as the two platforms see it: the path of its process on Windows, the
signing identifier and the name of its process on macOS, and its destination as a text on macOS
and as an address on Windows. -/
structure TcpConnection where
  processPath : CStr
  bundleId : CStr
  processName : Option CStr
  destination : CStr
  destIp : Ip
  destPort : Port
  deriving DecidableEq, Repr

/-- What the extension is asked about the connection. -/
def TcpConnection.query (c : TcpConnection) : MacOS.FlowQuery :=
  ⟨c.bundleId, c.processName, c.destination, c.destPort, .tcp, true⟩

/-- What the engine is asked about the connection. -/
def TcpConnection.connection (c : TcpConnection) : Connection :=
  ⟨c.processPath, c.destIp, c.destPort, false⟩

/-- The decision of the extension. A connection without a rule is direct. -/
def decisionOnMacOS (lowercased : CStr → CStr) (e : MacOS.Extension) (c : TcpConnection) :
    RuleAction :=
  ((MacOS.findMatchingRule lowercased c.query e.rules).map
    fun rule => rule.action).getD .direct

/-- The decision of the engine. -/
def decisionOnWindows (s : WindowsGui.GuiState) (c : TcpConnection) : RuleAction :=
  matchRule Windows.filters s.store.rules c.processPath c.destIp c.destPort false

/-- The file can be imported on both platforms, and they decide alike about the connection. -/
def SameDecision (lowercased : CStr → CStr) (file : List ExportedRule) (c : TcpConnection) :
    Prop :=
  ∃ e, importOnMacOS file = some e ∧
    decisionOnMacOS lowercased e c = decisionOnWindows (importOnWindows file) c

/-- One name, a star or one address, and a star or one port. -/
structure ExportedRule.IsSimple (rule : ExportedRule) : Prop where
  name : IsSingleName rule.processNames
  host : IsHostField rule.targetHosts
  port : IsPortField rule.targetPorts

def ExportedRule.onMacOS (rule : ExportedRule) (ruleId : ℕ) : MacOS.ProxyRule :=
  ⟨ruleId, rule.processNames, rule.targetHosts, rule.targetPorts, rule.protocol, rule.action,
    true⟩

def ExportedRule.onWindows (rule : ExportedRule) (ruleId : BitVec 32) : Rule :=
  rule.config.fields.rule ruleId

theorem decode_message (rule : ExportedRule) (ruleId : ℕ) :
    rule.message.decode ruleId = some (rule.onMacOS ruleId) := by
  obtain ⟨processNames, targetHosts, targetPorts, protocol, action⟩ := rule
  cases protocol <;> cases action <;> rfl

/-- The messages append the rules of the file in its order, while there are rule ids left. -/
theorem foldlM_addRule (file : List ExportedRule) (e : MacOS.Extension)
    (hid : e.nextRuleId < 2 ^ 32) :
    (e.nextRuleId + file.length < 2 ^ 32 → ∃ e' added,
      (file.map ExportedRule.message).foldlM MacOS.Extension.addRule e = some e' ∧
        e'.rules = e.rules ++ added ∧
        List.Forall₂ (fun rule rule' => ∃ ruleId, rule' = rule.onMacOS ruleId) file added) ∧
    (¬ e.nextRuleId + file.length < 2 ^ 32 →
      (file.map ExportedRule.message).foldlM MacOS.Extension.addRule e = none) := by
  induction file generalizing e with
  | nil =>
    refine ⟨fun _ => ⟨e, [], rfl, (List.append_nil _).symm, .nil⟩, fun h => absurd hid h⟩
  | cons rule file ih =>
    have hadd : e.addRule rule.message =
        if e.nextRuleId + 1 < 2 ^ 32 then
          some ⟨e.rules ++ [rule.onMacOS e.nextRuleId], e.nextRuleId + 1⟩
        else none := by
      rw [MacOS.Extension.addRule, decode_message]
    have hlength : e.nextRuleId + (rule :: file).length = e.nextRuleId + 1 + file.length := by
      rw [List.length_cons]
      omega
    rw [List.map_cons, List.foldlM_cons, hadd, hlength]
    by_cases hnext : e.nextRuleId + 1 < 2 ^ 32
    · rw [if_pos hnext]
      obtain ⟨hfits, hoverflow⟩ :=
        ih ⟨e.rules ++ [rule.onMacOS e.nextRuleId], e.nextRuleId + 1⟩ hnext
      refine ⟨fun h => ?_, hoverflow⟩
      obtain ⟨e', added, hfold, hrules, hadded⟩ := hfits h
      refine ⟨e', rule.onMacOS e.nextRuleId :: added, hfold, ?_, .cons ⟨_, rfl⟩ hadded⟩
      simp [hrules]
    · rw [if_neg hnext]
      refine ⟨fun h => ?_, fun _ => rfl⟩
      omega

theorem foldl_importRule (file : List ExportedRule) (s : WindowsGui.GuiState)
    (hservice : s.service = true) (hnames : ∀ rule ∈ file, rule.processNames ≠ []) :
    ∃ added, (file.foldl (fun s rule => s.importRule rule.config .succeeds) s).store.rules =
        added.reverse ++ s.store.rules ∧
      List.Forall₂ (fun rule rule' => ∃ ruleId, rule' = rule.onWindows ruleId) file added := by
  induction file generalizing s with
  | nil => exact ⟨[], rfl, .nil⟩
  | cons rule file ih =>
    have hname : rule.config.fields.processName ≠ [] := hnames rule List.mem_cons_self
    have himport : (s.importRule rule.config .succeeds).service = true ∧
        (s.importRule rule.config .succeeds).store.rules =
          rule.onWindows s.store.nextRuleId :: s.store.rules := by
      have henabled : rule.config.isEnabled = true := rfl
      simp only [WindowsGui.GuiState.importRule, hservice, if_true, henabled, Bool.not_true,
        Bool.and_false, Bool.false_eq_true, if_false, WindowsGui.GuiState.append,
        Windows.RuleStore.addRule, if_neg hname]
      exact ⟨trivial, rfl⟩
    obtain ⟨added, hrules, hadded⟩ := ih (s.importRule rule.config .succeeds) himport.1
      fun rule' hmem => hnames rule' (List.mem_cons_of_mem rule hmem)
    refine ⟨rule.onWindows s.store.nextRuleId :: added, ?_, .cons ⟨_, rfl⟩ hadded⟩
    rw [List.foldl_cons, hrules, himport.2]
    simp

section
variable (lowercased : CStr → CStr) (c : TcpConnection)

def ExportedRule.namesOnMacOS (rule : ExportedRule) (process : CStr) : Bool :=
  lowercased (MacOS.lastPathComponent process) =
    lowercased (MacOS.trimmingCharacters MacOS.isWhitespaceOrNewline rule.processNames)

/-- The rule is for the connection on macOS: for TCP, for the name or the signing identifier of
its process, for its destination and for its port. -/
def ExportedRule.fitsOnMacOS (rule : ExportedRule) : Bool :=
  rule.protocol ≠ .udp &&
  (rule.namesOnMacOS lowercased c.bundleId ||
    c.processName.any (rule.namesOnMacOS lowercased)) &&
  (rule.targetHosts = ['*'] || rule.targetHosts = c.destination) &&
  (rule.targetPorts = ['*'] || digitsValue rule.targetPorts = c.destPort.toNat)

/-- The rule is for the connection on Windows: for TCP, for the file name of its process, for its
destination and for its port. -/
def ExportedRule.fitsOnWindows (rule : ExportedRule) : Bool :=
  rule.protocol ≠ .udp &&
  sameIgnoringCase (Windows.trimToken (rule.processNames.take 255))
    (afterLast '\\' c.processPath) &&
  (rule.targetHosts = ['*'] || (rule.targetHosts.splitOn '.').map digitsValue = octets c.destIp) &&
  (rule.targetPorts = ['*'] || digitsValue rule.targetPorts = c.destPort.toNat)

variable {rule : ExportedRule} (h : rule.IsSimple)
include h

theorem decides_onMacOS (ruleId : ℕ) :
    (rule.onMacOS ruleId).decides lowercased c.query = rule.fitsOnMacOS lowercased c ∧
      (rule.onMacOS ruleId).isDeferred c.query = false := by
  have hwildcard : (rule.onMacOS ruleId).isWildcardProcess = false := by
    simp [MacOS.ProxyRule.isWildcardProcess, ExportedRule.onMacOS, h.name.ne_nil, h.name.ne_star]
  have hcandidate : (rule.onMacOS ruleId).isCandidate c.query = (rule.protocol ≠ .udp : Bool) := by
    obtain ⟨processNames, targetHosts, targetPorts, protocol, action⟩ := rule
    cases protocol <;> rfl
  have hprocess : (rule.onMacOS ruleId).matchesProcess lowercased c.bundleId c.processName =
      (rule.namesOnMacOS lowercased c.bundleId ||
        c.processName.any (rule.namesOnMacOS lowercased)) := by
    have hnames : ∀ process, MacOS.matchProcessList lowercased rule.processNames process =
        rule.namesOnMacOS lowercased process := h.name.matchProcessList_macOS lowercased
    simp only [MacOS.ProxyRule.matchesProcess, ExportedRule.onMacOS, hnames]
  have htarget : (rule.onMacOS ruleId).matchesTarget c.query =
      ((rule.targetHosts = ['*'] || rule.targetHosts = c.destination) &&
        (rule.targetPorts = ['*'] || digitsValue rule.targetPorts = c.destPort.toNat)) := by
    rw [← h.host.matchIPList_macOS, ← h.port.matchPortList_macOS]
    rfl
  refine ⟨?_, by simp [MacOS.ProxyRule.isDeferred, MacOS.ProxyRule.isFullyWildcard, hwildcard]⟩
  rw [MacOS.ProxyRule.decides, MacOS.ProxyRule.isFullyWildcard, hwildcard, hcandidate, htarget,
    ExportedRule.fitsOnMacOS, Bool.false_and, Bool.not_false, Bool.and_true, Bool.false_or,
    ← hprocess, Bool.and_assoc, Bool.and_assoc, Bool.and_assoc]
  rfl

theorem decides_onWindows (ruleId : BitVec 32) :
    (rule.onWindows ruleId).decides Windows.filters c.connection = rule.fitsOnWindows c ∧
      (rule.onWindows ruleId).isDeferred Windows.filters false = false := by
  have hhosts : rule.targetHosts ≠ [] := h.host.ne_nil
  have hports : rule.targetPorts ≠ [] := h.port.ne_nil
  have hrule : rule.onWindows ruleId =
      ⟨ruleId, rule.processNames.take 255, rule.targetHosts, rule.targetPorts,
        WindowsGui.ruleProtocol rule.protocol.rawValue, WindowsGui.ruleAction rule.action.rawValue,
        true⟩ := by
    simp [ExportedRule.onWindows, Windows.RuleFields.rule, Windows.truncateName,
      Windows.orEverything, ExportedRule.config, WindowsGui.RuleTexts.fields, hhosts, hports]
  have hwildcard : Windows.filters.isWildcardProcess (rule.processNames.take 255) = false := by
    simp [Windows.filters, h.name.take_ne_wildcard]
  have hfully : (rule.onWindows ruleId).isFullyWildcard Windows.filters = false := by
    rw [hrule, Rule.isFullyWildcard, hwildcard]
    rfl
  have hcandidate : (rule.onWindows ruleId).isCandidate false = (rule.protocol ≠ .udp : Bool) := by
    rw [hrule]
    cases rule.protocol <;> rfl
  refine ⟨?_, Rule.isDeferred_of_not_fullyWildcard hfully false⟩
  have hlists : (rule.onWindows ruleId).matchesLists Windows.filters c.connection =
      (Windows.matchProcessList (rule.processNames.take 255) c.processPath &&
        (Windows.matchIpList rule.targetHosts c.destIp &&
          Windows.matchPortList rule.targetPorts c.destPort)) := by
    rw [hrule, Rule.matchesLists, hwildcard, Bool.false_or]
    rfl
  have hcandidate' : (rule.onWindows ruleId).isCandidate c.connection.isUdp =
      (rule.protocol ≠ .udp : Bool) := hcandidate
  rw [Rule.decides, hfully, hcandidate', hlists, h.name.matchProcessList_windows,
    h.host.matchIpList_windows, h.port.matchPortList_windows, ExportedRule.fitsOnWindows,
    Bool.not_false, Bool.and_true, Bool.and_assoc, Bool.and_assoc]

end

/-- The action of an exported rule that was found. -/
def actionOfExported (found : Option ExportedRule) : RuleAction :=
  (found.map fun rule => rule.action).getD .direct

section
variable (lowercased : CStr → CStr) (c : TcpConnection) {file : List ExportedRule}
  (hsimple : ∀ rule ∈ file, rule.IsSimple)
include hsimple

theorem decisionOnMacOS_eq {e : MacOS.Extension}
    (h : List.Forall₂ (fun rule rule' => ∃ ruleId, rule' = ExportedRule.onMacOS rule ruleId) file
      e.rules) :
    decisionOnMacOS lowercased e c =
      actionOfExported (file.find? (ExportedRule.fitsOnMacOS lowercased c)) := by
  have hfirst : (firstMatch (MacOS.ProxyRule.decides lowercased c.query)
        (MacOS.ProxyRule.isDeferred c.query) e.rules).map (fun rule => rule.action) =
      (file.find? (ExportedRule.fitsOnMacOS lowercased c)).map
        fun rule => rule.action := by
    refine map_firstMatch_of_forall₂ h ?_ ?_
    · rintro rule hrule rule' ⟨ruleId, rfl⟩
      exact decides_onMacOS lowercased c (hsimple rule hrule) ruleId
    · rintro rule rule' ⟨ruleId, rfl⟩
      rfl
  rw [decisionOnMacOS, MacOS.findMatchingRule_eq_firstMatch, hfirst, actionOfExported]

theorem decisionOnWindows_eq {s : WindowsGui.GuiState}
    (h : List.Forall₂ (fun rule rule' => ∃ ruleId, rule' = ExportedRule.onWindows rule ruleId)
      file.reverse s.store.rules) :
    decisionOnWindows s c =
      actionOfExported (file.reverse.find? (ExportedRule.fitsOnWindows c)) := by
  have hfirst : (firstMatch (Rule.decides Windows.filters c.connection)
        (Rule.isDeferred Windows.filters false) s.store.rules).map Rule.action =
      (file.reverse.find? (ExportedRule.fitsOnWindows c)).map
        fun rule => rule.action := by
    refine map_firstMatch_of_forall₂ h ?_ ?_
    · rintro rule hrule rule' ⟨ruleId, rfl⟩
      exact decides_onWindows c (hsimple rule (List.mem_reverse.mp hrule)) ruleId
    · rintro ⟨processNames, targetHosts, targetPorts, protocol, action⟩ rule' ⟨ruleId, rfl⟩
      cases action <;> rfl
  have hdecision : decisionOnWindows s c =
      actionOf (decidingRule Windows.filters s.store.rules c.connection) :=
    matchRule_eq_decidingRule s.store.rules c.connection
  rw [hdecision, actionOf_eq_map, decidingRule]
  exact congrArg (Option.getD · .direct) hfirst

theorem decisionOnMacOS_import :
    (importOnMacOS file).map (decisionOnMacOS lowercased · c) =
      if file.length + 1 < 2 ^ 32 then
        some (actionOfExported (file.find? (ExportedRule.fitsOnMacOS lowercased c)))
      else none := by
  obtain ⟨hfits, hoverflow⟩ := foldlM_addRule file .launched (by decide)
  have hlength : MacOS.Extension.launched.nextRuleId + file.length = file.length + 1 :=
    Nat.add_comm 1 _
  rw [hlength] at hfits hoverflow
  split_ifs with hids
  · obtain ⟨e, added, hfold, hrules, hadded⟩ := hfits hids
    have himport : importOnMacOS file = some e := hfold
    rw [himport, Option.map_some, decisionOnMacOS_eq lowercased c hsimple]
    rw [hrules]
    exact hadded
  · have himport : importOnMacOS file = none := hoverflow hids
    rw [himport, Option.map_none]

theorem decisionOnWindows_import :
    decisionOnWindows (importOnWindows file) c =
      actionOfExported (file.reverse.find? (ExportedRule.fitsOnWindows c)) := by
  obtain ⟨added, hrules, hadded⟩ := foldl_importRule file emptyGui rfl
    fun rule hrule => (hsimple rule hrule).name.ne_nil
  have hstore : (importOnWindows file).store.rules = added.reverse := by
    rw [importOnWindows, hrules]
    exact List.append_nil _
  refine decisionOnWindows_eq c hsimple ?_
  rw [hstore, List.forall₂_reverse_iff]
  exact hadded

end

/-- Both platforms see the same connection to an address, from a process of one name, and the
rules of the file name processes by their names and addresses in their usual form. -/
structure SeenAlike (lowercased : CStr → CStr) (file : List ExportedRule) (c : TcpConnection) :
    Prop where
  destination : c.destination = formatIpAddress c.destIp
  processName : c.processName = some (afterLast '\\' c.processPath)
  isComponent : MacOS.lastPathComponent (afterLast '\\' c.processPath) =
    afterLast '\\' c.processPath
  bundleId : ∀ rule ∈ file, rule.namesOnMacOS lowercased c.bundleId = true →
    rule.namesOnMacOS lowercased (afterLast '\\' c.processPath) = true
  host : ∀ rule ∈ file, rule.targetHosts = ['*'] ∨ ∃ ip, rule.targetHosts = formatIpAddress ip
  untrimmed : ∀ rule ∈ file,
    MacOS.trimmingCharacters MacOS.isWhitespaceOrNewline rule.processNames = rule.processNames ∧
      Windows.trimToken (rule.processNames.take 255) = rule.processNames
  lowercased_eq : ∀ text ∈ afterLast '\\' c.processPath :: file.map ExportedRule.processNames,
    lowercased text = lower text

theorem SeenAlike.fits_eq {lowercased : CStr → CStr} {file : List ExportedRule}
    {c : TcpConnection} (h : SeenAlike lowercased file c) {rule : ExportedRule}
    (hrule : rule ∈ file) : rule.fitsOnMacOS lowercased c = rule.fitsOnWindows c := by
  obtain ⟨hmacOS, hwindows⟩ := h.untrimmed rule hrule
  have hname : (rule.namesOnMacOS lowercased c.bundleId ||
      c.processName.any (rule.namesOnMacOS lowercased)) =
      sameIgnoringCase (Windows.trimToken (rule.processNames.take 255))
        (afterLast '\\' c.processPath) := by
    have hprocess : rule.namesOnMacOS lowercased (afterLast '\\' c.processPath) =
        sameIgnoringCase rule.processNames (afterLast '\\' c.processPath) := by
      rw [ExportedRule.namesOnMacOS, h.isComponent, hmacOS,
        h.lowercased_eq _ List.mem_cons_self,
        h.lowercased_eq _ (List.mem_cons_of_mem _ (List.mem_map_of_mem hrule))]
      exact decide_eq_decide.mpr eq_comm
    rw [h.processName, Option.any_some, hwindows, ← hprocess]
    have hbundle := h.bundleId rule hrule
    cases hid : rule.namesOnMacOS lowercased c.bundleId with
    | false => rfl
    | true => rw [hbundle hid, Bool.or_self]
  have hhost : (rule.targetHosts = ['*'] || rule.targetHosts = c.destination : Bool) =
      (rule.targetHosts = ['*'] ||
        (rule.targetHosts.splitOn '.').map digitsValue = octets c.destIp : Bool) := by
    rcases h.host rule hrule with hstar | ⟨ip, hip⟩
    · simp [hstar]
    · rw [hip, h.destination, octets_of_formatIpAddress,
        decide_eq_decide.mpr formatIpAddress_eq_iff]
  rw [ExportedRule.fitsOnMacOS, ExportedRule.fitsOnWindows, hname, hhost]

/-- Exported rules are decided alike on both platforms if and only if macOS has ids for all rules
of the file, and the first of them for the connection on macOS has the action of the last one for
it on Windows, where no rule stands for a direct connection. Where both platforms see the same,
these are the first and the last rule for the connection. -/
theorem sameDecision_iff (lowercased : CStr → CStr) (c : TcpConnection)
    {file : List ExportedRule} (hsimple : ∀ rule ∈ file, rule.IsSimple) :
    (SameDecision lowercased file c ↔ file.length + 1 < 2 ^ 32 ∧
      actionOfExported (file.find? (ExportedRule.fitsOnMacOS lowercased c)) =
        actionOfExported (file.reverse.find? (ExportedRule.fitsOnWindows c))) ∧
    (SeenAlike lowercased file c →
      (SameDecision lowercased file c ↔ file.length + 1 < 2 ^ 32 ∧
        actionOfExported (file.find? (ExportedRule.fitsOnWindows c)) =
          actionOfExported (file.reverse.find? (ExportedRule.fitsOnWindows c)))) := by
  have hiff : SameDecision lowercased file c ↔ file.length + 1 < 2 ^ 32 ∧
      actionOfExported (file.find? (ExportedRule.fitsOnMacOS lowercased c)) =
        actionOfExported (file.reverse.find? (ExportedRule.fitsOnWindows c)) := by
    have hmap : SameDecision lowercased file c ↔
        (importOnMacOS file).map (decisionOnMacOS lowercased · c) =
          some (decisionOnWindows (importOnWindows file) c) := by
      rw [SameDecision, Option.map_eq_some_iff]
    rw [hmap, decisionOnMacOS_import lowercased c hsimple, decisionOnWindows_import c hsimple]
    by_cases hids : file.length + 1 < 2 ^ 32
    · rw [if_pos hids, and_iff_right hids, Option.some_inj]
    · rw [if_neg hids]
      constructor
      · intro h
        cases h
      · rintro ⟨h, -⟩
        exact absurd h hids
  refine ⟨hiff, ?_⟩
  intro hseen
  rw [hiff, List.find?_congr fun rule hrule => hseen.fits_eq hrule]

def curlRule (action : RuleAction) : ExportedRule :=
  ⟨"curl".toList, ['*'], ['*'], .both, action⟩

theorem curlRule_isSimple {actions : List RuleAction} :
    ∀ rule ∈ actions.map curlRule, rule.IsSimple := by
  intro rule hrule
  obtain ⟨action, -, rfl⟩ := List.mem_map.mp hrule
  have hname : IsSingleName "curl".toList := by
    refine ⟨?_, ⟨'c', by simp, by decide⟩, by simp⟩
    intro c hc
    simp only [String.reduceToList, List.mem_cons, List.not_mem_nil, or_false] at hc
    rcases hc with rfl | rfl | rfl | rfl <;> simp
  exact ⟨hname, .inl rfl, .inl rfl⟩

/-- A web connection of `curl`. -/
def curlToWeb : TcpConnection where
  processPath := "C:\\bin\\curl".toList
  bundleId := "com.apple.curl".toList
  processName := some "curl".toList
  destination := "192.0.2.1".toList
  destIp := ipv4 192 0 2 1
  destPort := 443

/-- The first and the last rule decide, whatever stands between them. -/
theorem sameDecision_three_rules :
    SameDecision lower ([.proxy, .block, .proxy].map curlRule) curlToWeb :=
  (sameDecision_iff lower curlToWeb curlRule_isSimple).1.mpr ⟨by decide, by decide⟩

/-- Of two rules for one process macOS follows the first and Windows the last. -/
theorem sameDecision_two_rules :
    let file := [.proxy, .block].map curlRule
    (∀ rule ∈ file, rule.IsSimple) ∧ SeenAlike lower file curlToWeb ∧
      (importOnMacOS file).map (decisionOnMacOS lower · curlToWeb) = some .proxy ∧
      decisionOnWindows (importOnWindows file) curlToWeb = .block ∧
      ¬ SameDecision lower file curlToWeb := by
  intro file
  have hmacOS : (importOnMacOS file).map (decisionOnMacOS lower · curlToWeb) = some .proxy := by
    decide
  have hwindows : decisionOnWindows (importOnWindows file) curlToWeb = .block := by decide
  refine ⟨curlRule_isSimple, ?_, hmacOS, hwindows, ?_⟩
  · refine ⟨by decide, by decide, by decide, by decide, ?_, by decide, fun _ _ => rfl⟩
    intro rule hrule
    obtain ⟨action, -, rfl⟩ := List.mem_map.mp hrule
    exact .inl rfl
  · rintro ⟨e, he, hsame⟩
    rw [he, Option.map_some, hsame, hwindows] at hmacOS
    cases hmacOS

end ProxyTun.Importing
