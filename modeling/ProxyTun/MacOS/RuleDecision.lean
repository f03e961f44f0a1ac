import ProxyTun.Library.DeferredMatch
import ProxyTun.MacOS.RuleMatching

/-!
# The rule for a flow

The extension evaluates its rules in the order in which they were added. The first rule for the
flow decides, and the first rule for everything decides where there is no other. The destination
of a UDP flow is not known when it is decided.
-/
namespace ProxyTun.MacOS
open Library

/-- The arguments of `findMatchingRule`. -/
structure FlowQuery where
  bundleId : CStr
  processName : Option CStr
  destination : CStr
  port : Port
  connectionProtocol : RuleProtocol
  checkIpPort : Bool
  deriving DecidableEq, Repr

namespace ProxyRule
variable (lowercased : CStr → CStr)

def matchesProcess (bundleId : CStr) (processName : Option CStr) (rule : ProxyRule) : Bool :=
  matchProcessList lowercased rule.processNames bundleId ||
    processName.any fun procName => matchProcessList lowercased rule.processNames procName

def matchesIP (ipString : CStr) (rule : ProxyRule) : Bool := matchIPList rule.targetHosts ipString

def matchesPort (port : Port) (rule : ProxyRule) : Bool := matchPortList rule.targetPorts port

def isWildcardProcess (rule : ProxyRule) : Bool :=
  rule.processNames = ['*'] || rule.processNames = []

def hasIpFilter (rule : ProxyRule) : Bool := rule.targetHosts ≠ ['*'] && rule.targetHosts ≠ []

def hasPortFilter (rule : ProxyRule) : Bool := rule.targetPorts ≠ ['*'] && rule.targetPorts ≠ []

end ProxyRule

section
variable (lowercased : CStr → CStr) (query : FlowQuery)

/-- The loop of `findMatchingRule`, which keeps the first rule for everything for last. -/
def findMatchingRuleFrom : List ProxyRule → Option ProxyRule → Option ProxyRule
  | [], wildcardRule => wildcardRule
  | rule :: rules, wildcardRule =>
    if !rule.enabled then findMatchingRuleFrom rules wildcardRule
    else if rule.ruleProtocol ≠ .both && rule.ruleProtocol ≠ query.connectionProtocol then
      findMatchingRuleFrom rules wildcardRule
    else if rule.isWildcardProcess then
      if rule.hasIpFilter || rule.hasPortFilter then
        if query.checkIpPort then
          if rule.matchesIP query.destination && rule.matchesPort query.port then some rule
          else findMatchingRuleFrom rules wildcardRule
        else findMatchingRuleFrom rules wildcardRule
      else findMatchingRuleFrom rules (wildcardRule.or (some rule))
    else if rule.matchesProcess lowercased query.bundleId query.processName then
      if query.checkIpPort then
        if rule.matchesIP query.destination && rule.matchesPort query.port then some rule
        else findMatchingRuleFrom rules wildcardRule
      else some rule
    else findMatchingRuleFrom rules wildcardRule

def findMatchingRule (rules : List ProxyRule) : Option ProxyRule :=
  findMatchingRuleFrom lowercased query rules none

def ProxyRule.isCandidate (rule : ProxyRule) : Bool :=
  rule.enabled && (rule.ruleProtocol = .both || rule.ruleProtocol = query.connectionProtocol)

/-- The rule is for every process, host and port. -/
def ProxyRule.isFullyWildcard (rule : ProxyRule) : Bool :=
  rule.isWildcardProcess && !(rule.hasIpFilter || rule.hasPortFilter)

/-- The host and the port match as far as they are looked at. A wildcard with filters needs
both. -/
def ProxyRule.matchesTarget (rule : ProxyRule) : Bool :=
  if query.checkIpPort then rule.matchesIP query.destination && rule.matchesPort query.port
  else !rule.isWildcardProcess

/-- The rule decides about the flow as soon as it is reached. -/
def ProxyRule.decides (rule : ProxyRule) : Bool :=
  rule.isCandidate query && !rule.isFullyWildcard &&
    (rule.isWildcardProcess || rule.matchesProcess lowercased query.bundleId query.processName) &&
    rule.matchesTarget query

/-- The rule decides about the flow if no other does. -/
def ProxyRule.isDeferred (rule : ProxyRule) : Bool :=
  rule.isCandidate query && rule.isFullyWildcard

theorem findMatchingRuleFrom_cons (rule : ProxyRule) (rules : List ProxyRule)
    (wildcardRule : Option ProxyRule) :
    findMatchingRuleFrom lowercased query (rule :: rules) wildcardRule =
      if rule.decides lowercased query then some rule
      else if rule.isDeferred query then
        findMatchingRuleFrom lowercased query rules (wildcardRule.or (some rule))
      else findMatchingRuleFrom lowercased query rules wildcardRule := by
  rw [findMatchingRuleFrom]
  cases henabled : rule.enabled with
  | false => simp [ProxyRule.decides, ProxyRule.isDeferred, ProxyRule.isCandidate, henabled]
  | true =>
    by_cases hprotocol : rule.ruleProtocol ≠ .both ∧ rule.ruleProtocol ≠ query.connectionProtocol
    · have hcandidate : rule.isCandidate query = false := by
        simpa [ProxyRule.isCandidate, henabled] using hprotocol
      rw [if_neg (by simp), if_pos (by simpa using hprotocol)]
      simp [ProxyRule.decides, ProxyRule.isDeferred, hcandidate]
    · have hcandidate : rule.isCandidate query = true := by
        simpa [ProxyRule.isCandidate, henabled, imp_iff_not_or] using hprotocol
      rw [if_neg (by simp), if_neg (by simpa using hprotocol)]
      cases hwildcard : rule.isWildcardProcess with
      | true =>
        cases hfilter : rule.hasIpFilter || rule.hasPortFilter <;>
          cases hcheck : query.checkIpPort <;>
          simp [ProxyRule.decides, ProxyRule.isDeferred, ProxyRule.isFullyWildcard,
            ProxyRule.matchesTarget, hcandidate, hwildcard, hfilter, hcheck]
      | false =>
        cases hprocess : rule.matchesProcess lowercased query.bundleId query.processName <;>
          cases hcheck : query.checkIpPort <;>
          simp [ProxyRule.decides, ProxyRule.isDeferred, ProxyRule.isFullyWildcard,
            ProxyRule.matchesTarget, hcandidate, hwildcard, hprocess, hcheck]

theorem findMatchingRuleFrom_eq_seek (rules : List ProxyRule) (wildcardRule : Option ProxyRule) :
    findMatchingRuleFrom lowercased query rules wildcardRule =
      seek (ProxyRule.decides lowercased query) (ProxyRule.isDeferred query) rules
        wildcardRule := by
  induction rules generalizing wildcardRule with
  | nil => rfl
  | cons rule rules ih =>
    rw [findMatchingRuleFrom_cons, seek]
    split_ifs
    · rfl
    · exact ih _
    · exact ih _

theorem findMatchingRule_eq_firstMatch (rules : List ProxyRule) :
    findMatchingRule lowercased query rules =
      firstMatch (ProxyRule.decides lowercased query) (ProxyRule.isDeferred query) rules := by
  rw [findMatchingRule, findMatchingRuleFrom_eq_seek, seek_none]

end
end ProxyTun.MacOS
