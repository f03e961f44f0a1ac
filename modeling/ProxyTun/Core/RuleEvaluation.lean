import ProxyTun.Core.Filters
import ProxyTun.Library.DeferredMatch

/-!
# What the evaluation of rules means

A connection is decided by the first rule for it that is not fully wildcard. The first fully
wildcard rule for its protocol decides where there is no such rule.
-/
namespace ProxyTun
open Library

/-- The connection that rules are asked about. -/
structure Connection where
  process : CStr
  destIp : Ip
  destPort : Port
  isUdp : Bool
  deriving DecidableEq, Repr

def Rule.isCandidate (rule : Rule) (isUdp : Bool) : Bool :=
  rule.enabled && rule.protocol.allows isUdp

section
variable (F : Filters)

/-- The rule is for every process, host and port. -/
def Rule.isFullyWildcard (rule : Rule) : Bool :=
  F.isWildcardProcess rule.processName && rule.targetHosts = ['*'] && rule.targetPorts = ['*']

def Rule.matchesLists (rule : Rule) (c : Connection) : Bool :=
  (F.isWildcardProcess rule.processName || F.matchProcessList rule.processName c.process) &&
    (F.matchIpList rule.targetHosts c.destIp && F.matchPortList rule.targetPorts c.destPort)

/-- The rule decides about the connection as soon as it is reached. -/
def Rule.decides (c : Connection) (rule : Rule) : Bool :=
  rule.isCandidate c.isUdp && !rule.isFullyWildcard F && rule.matchesLists F c

/-- The rule decides about the connection if no other does. -/
def Rule.isDeferred (isUdp : Bool) (rule : Rule) : Bool :=
  rule.isCandidate isUdp && rule.isFullyWildcard F

/-- The rule that decides about the connection. -/
def decidingRule (rules : List Rule) (c : Connection) : Option Rule :=
  firstMatch (Rule.decides F c) (Rule.isDeferred F c.isUdp) rules

end

/-- The action of a rule that was found. -/
def actionOf (found : Option Rule) : RuleAction := found.elim .direct Rule.action

theorem actionOf_eq_map (found : Option Rule) :
    actionOf found = (found.map Rule.action).getD .direct := by
  cases found <;> rfl

variable {F : Filters}

theorem matchRuleFrom_cons (c : Connection) (rule : Rule) (rules : List Rule)
    (wildcard : Option Rule) :
    matchRuleFrom F c.process c.destIp c.destPort c.isUdp (rule :: rules) wildcard =
      if rule.decides F c then rule.action
      else if rule.isDeferred F c.isUdp then
        matchRuleFrom F c.process c.destIp c.destPort c.isUdp rules (wildcard.or (some rule))
      else matchRuleFrom F c.process c.destIp c.destPort c.isUdp rules wildcard := by
  rw [matchRuleFrom]
  cases henabled : rule.enabled with
  | false => simp [Rule.decides, Rule.isDeferred, Rule.isCandidate, henabled]
  | true =>
    cases hallows : rule.protocol.allows c.isUdp with
    | false => simp [Rule.decides, Rule.isDeferred, Rule.isCandidate, hallows]
    | true =>
      have hcandidate : rule.isCandidate c.isUdp = true := by
        simp [Rule.isCandidate, henabled, hallows]
      cases hprocess : F.isWildcardProcess rule.processName with
      | false =>
        simp [Rule.decides, Rule.isDeferred, Rule.isFullyWildcard, Rule.matchesLists, hcandidate,
          hprocess]
      | true =>
        by_cases hfiltered : rule.targetHosts ≠ ['*'] ∨ rule.targetPorts ≠ ['*']
        · have hfully : rule.isFullyWildcard F = false := by
            simpa [Rule.isFullyWildcard, hprocess, imp_iff_not_or] using hfiltered
          simp [Rule.decides, Rule.isDeferred, Rule.matchesLists, hcandidate, hprocess, hfully,
            if_pos hfiltered]
        · have hfully : rule.isFullyWildcard F = true := by
            simpa [Rule.isFullyWildcard, hprocess] using hfiltered
          simp [Rule.decides, Rule.isDeferred, hcandidate, hfully, if_neg hfiltered]

theorem matchRuleFrom_eq_seek (c : Connection) (rules : List Rule) (wildcard : Option Rule) :
    matchRuleFrom F c.process c.destIp c.destPort c.isUdp rules wildcard =
      actionOf (seek (Rule.decides F c) (Rule.isDeferred F c.isUdp) rules wildcard) := by
  induction rules generalizing wildcard with
  | nil => cases wildcard <;> rfl
  | cons rule rules ih =>
    rw [matchRuleFrom_cons, seek]
    split_ifs
    · rfl
    · exact ih _
    · exact ih _

theorem matchRule_eq_decidingRule (rules : List Rule) (c : Connection) :
    matchRule F rules c.process c.destIp c.destPort c.isUdp =
      actionOf (decidingRule F rules c) := by
  rw [matchRule, matchRuleFrom_eq_seek, seek_none, decidingRule]

theorem matchRule_filter_enabled (rules : List Rule) (c : Connection) :
    matchRule F (rules.filter fun rule => rule.enabled) c.process c.destIp c.destPort c.isUdp =
      matchRule F rules c.process c.destIp c.destPort c.isUdp := by
  have hdecides : (fun rule : Rule => (rule.enabled ∧ rule.decides F c : Bool)) =
      Rule.decides F c := by
    funext rule
    cases henabled : rule.enabled <;> simp [Rule.decides, Rule.isCandidate, henabled]
  have hdeferred : (fun rule : Rule => (rule.enabled ∧ rule.isDeferred F c.isUdp : Bool)) =
      Rule.isDeferred F c.isUdp := by
    funext rule
    cases henabled : rule.enabled <;> simp [Rule.isDeferred, Rule.isCandidate, henabled]
  rw [matchRule_eq_decidingRule, matchRule_eq_decidingRule, decidingRule, firstMatch,
    List.find?_filter, List.find?_filter, hdecides, hdeferred]
  rfl

theorem matchRule_of_forall₂ {rules others : List Rule}
    (h : List.Forall₂ (fun rule other => ∃ ruleId, other = { rule with ruleId := ruleId }) rules
      others) (c : Connection) :
    matchRule F others c.process c.destIp c.destPort c.isUdp =
      matchRule F rules c.process c.destIp c.destPort c.isUdp := by
  have hdecides : (others.find? (Rule.decides F c)).map Rule.action =
      (rules.find? (Rule.decides F c)).map Rule.action := by
    apply map_find?_of_forall₂ h
    · rintro rule - _ ⟨ruleId, rfl⟩
      rfl
    · rintro rule _ ⟨ruleId, rfl⟩
      rfl
  have hdeferred : (others.find? (Rule.isDeferred F c.isUdp)).map Rule.action =
      (rules.find? (Rule.isDeferred F c.isUdp)).map Rule.action := by
    apply map_find?_of_forall₂ h
    · rintro rule - _ ⟨ruleId, rfl⟩
      rfl
    · rintro rule _ ⟨ruleId, rfl⟩
      rfl
  rw [matchRule_eq_decidingRule, matchRule_eq_decidingRule, actionOf_eq_map, actionOf_eq_map,
    decidingRule, decidingRule, firstMatch, firstMatch, Option.map_or, Option.map_or, hdecides,
    hdeferred]

theorem Rule.isDeferred_of_not_fullyWildcard {rule : Rule}
    (h : rule.isFullyWildcard F = false) (isUdp : Bool) : rule.isDeferred F isUdp = false := by
  simp [Rule.isDeferred, h]

theorem Rule.decides_of_fullyWildcard {rule : Rule} (h : rule.isFullyWildcard F = true)
    (c : Connection) : rule.decides F c = false := by
  simp [Rule.decides, h]

/-- The evaluation on both platforms: the action is that of the first rule for the connection
that is not fully wildcard, else of the first fully wildcard rule for the protocol, else direct.
A fully wildcard rule may change places with rules that are not. -/
theorem matchRule_firstMatch (pf : Platform) (c : Connection) :
    (∀ rules : List Rule,
      matchRule (filters pf) rules c.process c.destIp c.destPort c.isUdp =
        actionOf ((rules.find? (Rule.decides (filters pf) c)).or
          (rules.find? (Rule.isDeferred (filters pf) c.isUdp)))) ∧
    ∀ (before passed after : List Rule) (rule : Rule),
      rule.isFullyWildcard (filters pf) = true →
      (∀ other ∈ passed, other.isFullyWildcard (filters pf) = false) →
      matchRule (filters pf) (before ++ rule :: (passed ++ after)) c.process c.destIp c.destPort
          c.isUdp =
        matchRule (filters pf) (before ++ (passed ++ rule :: after)) c.process c.destIp c.destPort
          c.isUdp := by
  refine ⟨fun rules => matchRule_eq_decidingRule rules c, ?_⟩
  intro before passed after rule hrule hpassed
  rw [matchRule_eq_decidingRule, matchRule_eq_decidingRule, decidingRule, decidingRule]
  congr 1
  apply firstMatch_move (Rule.decides_of_fullyWildcard hrule c)
  intro other hother
  exact Rule.isDeferred_of_not_fullyWildcard (hpassed other hother) c.isUdp

/-- A rule that blocks everything behaves the same on both sides of a rule for one port. -/
theorem matchRule_firstMatch_moved :
    let curl : Connection := ⟨"curl".toList, ipv4 192 0 2 1, 443, false⟩
    let blockAll : Rule := ⟨1, ['*'], ['*'], ['*'], .both, .block, true⟩
    let https : Rule := ⟨2, ['*'], ['*'], "443".toList, .tcp, .proxy, true⟩
    matchRule (filters .windows) [blockAll, https] curl.process curl.destIp curl.destPort
        curl.isUdp =
      matchRule (filters .windows) [https, blockAll] curl.process curl.destIp curl.destPort
        curl.isUdp := by
  intro curl blockAll https
  exact (matchRule_firstMatch .windows curl).2 [] [https] [] blockAll (by decide) (by decide)

/-- The filters of the Linux engine, with a wildcard process spelled as on Windows. -/
def Linux.filtersExactWildcard : Filters :=
  { Linux.filters with isWildcardProcess := Windows.filters.isWildcardProcess }

/-- On Linux a rule for the process `any` is fully wildcard too. -/
theorem matchRule_any :
    let curl : Connection := ⟨"/usr/bin/curl".toList, ipv4 192 0 2 1, 443, false⟩
    let rule : Rule := ⟨1, "any".toList, ['*'], ['*'], .both, .proxy, true⟩
    matchRule Linux.filters [rule] curl.process curl.destIp curl.destPort curl.isUdp = .proxy ∧
      actionOf (decidingRule Linux.filtersExactWildcard [rule] curl) = .direct := by
  decide

end ProxyTun
