import ProxyTun.Core.RuleEvaluation
import ProxyTun.Rules.RuleStore

/-!
# Editing a rule and adding it

`AddRule` stores a star for an empty text and `EditRule` stores the text. Both match everything,
but only the star makes a rule for every process fully wildcard, so that it waits for the others.
-/
namespace ProxyTun
open Library
open Windows (Allocation RuleStore RuleFields updateRule truncateName orEverything)
open Windows.RuleStore (edited)

/-- The operations on rules that both platforms have. -/
structure RuleApi where
  addRule : Allocation → RuleFields → RuleStore → BitVec 32 × RuleStore
  enableRule : BitVec 32 → RuleStore → Bool × RuleStore
  disableRule : BitVec 32 → RuleStore → Bool × RuleStore
  deleteRule : BitVec 32 → RuleStore → Bool × RuleStore
  editRule : Bool → BitVec 32 → RuleFields → RuleStore → Bool × RuleStore

def ruleApi : Platform → RuleApi
  | .windows =>
    { addRule := RuleStore.addRule
      enableRule := RuleStore.enableRule
      disableRule := RuleStore.disableRule
      deleteRule := RuleStore.deleteRule
      editRule := RuleStore.editRule }
  | .linux =>
    { addRule := Linux.addRule
      enableRule := Linux.enableRule
      disableRule := Linux.disableRule
      deleteRule := Linux.deleteRule
      editRule := Linux.editRule }

/-- The rule that `AddRule` makes of the arguments, in the place and state of another. -/
def addedAs (fields : RuleFields) (rule : Rule) : Rule :=
  { fields.rule rule.ruleId with enabled := rule.enabled }

/-- The arguments make a rule for every process, host and port, but not with two stars. -/
def hasEmptyStar (F : Filters) (fields : RuleFields) : Bool :=
  F.isWildcardProcess (truncateName fields.processName) &&
    orEverything fields.targetHosts = ['*'] && orEverything fields.targetPorts = ['*'] &&
    (fields.targetHosts = [] || fields.targetPorts = [])

variable {pf : Platform} {fields : RuleFields} {rule : Rule} {ruleId : BitVec 32}
  {before after : List Rule}

theorem editRule_succeeds {s : RuleStore} {copied : Bool}
    (h : ((ruleApi pf).editRule copied ruleId fields s).1 = true) :
    ((ruleApi pf).editRule copied ruleId fields s).2.rules =
      updateRule ruleId (edited true fields) s.rules := by
  cases pf with
  | windows =>
    obtain ⟨rfl, hfinds⟩ := RuleStore.editRule_succeeds h
    simp [ruleApi, RuleStore.editRule, hfinds, RuleStore.update]
  | linux =>
    simp only [ruleApi, Linux.editRule] at h ⊢
    split_ifs at h ⊢
    rfl

theorem updateRule_append {f : Rule → Rule} (hrule : rule.ruleId = ruleId)
    (hbefore : ∀ other ∈ before, other.ruleId ≠ ruleId) :
    updateRule ruleId f (before ++ rule :: after) = before ++ f rule :: after := by
  induction before with
  | nil => exact if_pos hrule
  | cons other before ih =>
    obtain ⟨hother, hrest⟩ := List.forall_mem_cons.mp hbefore
    rw [List.cons_append, updateRule, if_neg hother, ih hrest, List.cons_append]

theorem matchIpList_orEverything (text : CStr) (ip : Ip) :
    (filters pf).matchIpList (orEverything text) ip = (filters pf).matchIpList text ip := by
  by_cases h : text = []
  · subst h
    cases pf <;> rfl
  · rw [orEverything, if_neg h]

theorem matchPortList_orEverything (text : CStr) (port : Port) :
    (filters pf).matchPortList (orEverything text) port = (filters pf).matchPortList text port := by
  by_cases h : text = []
  · subst h
    cases pf <;> rfl
  · rw [orEverything, if_neg h]

theorem matchesLists_edited (c : Connection) :
    (edited true fields rule).matchesLists (filters pf) c =
      (addedAs fields rule).matchesLists (filters pf) c := by
  simp [Rule.matchesLists, edited, addedAs, RuleFields.rule, matchIpList_orEverything,
    matchPortList_orEverything]

theorem isFullyWildcard_edited (h : hasEmptyStar (filters pf) fields = false) :
    (edited true fields rule).isFullyWildcard (filters pf) =
      (addedAs fields rule).isFullyWildcard (filters pf) := by
  rw [Bool.eq_iff_iff]
  simp only [Rule.isFullyWildcard, edited, addedAs, RuleFields.rule, if_true, Bool.and_eq_true,
    decide_eq_true_eq]
  simp only [hasEmptyStar, orEverything] at h ⊢
  by_cases hhosts : fields.targetHosts = [] <;> by_cases hports : fields.targetPorts = [] <;>
    simp_all

theorem isFullyWildcard_of_hasEmptyStar (rule : Rule)
    (h : hasEmptyStar (filters pf) fields = true) :
    (edited true fields rule).isFullyWildcard (filters pf) = false ∧
      (addedAs fields rule).isFullyWildcard (filters pf) = true := by
  simp only [hasEmptyStar, Bool.and_eq_true, Bool.or_eq_true, decide_eq_true_eq] at h
  obtain ⟨⟨⟨hprocess, hhosts⟩, hports⟩, hempty⟩ := h
  constructor
  · rcases hempty with hempty | hempty <;>
      simp [Rule.isFullyWildcard, edited, hempty]
  · simp [Rule.isFullyWildcard, addedAs, RuleFields.rule, hprocess, hhosts, hports]

theorem matchesLists_of_fullyWildcard (h : rule.isFullyWildcard (filters pf) = true)
    (c : Connection) : rule.matchesLists (filters pf) c = true := by
  simp only [Rule.isFullyWildcard, Bool.and_eq_true, decide_eq_true_eq] at h
  obtain ⟨⟨hprocess, hhosts⟩, hports⟩ := h
  rw [Rule.matchesLists, hprocess, hhosts, hports]
  cases pf <;> rfl

theorem isCandidate_edited (isUdp : Bool) :
    (edited true fields rule).isCandidate isUdp = (rule.enabled && fields.protocol.allows isUdp) :=
  rfl

theorem isCandidate_addedAs (isUdp : Bool) :
    (addedAs fields rule).isCandidate isUdp = (rule.enabled && fields.protocol.allows isUdp) :=
  rfl

theorem actionOf_replace (c : Connection)
    (h : (edited true fields rule).isFullyWildcard (filters pf) =
        (addedAs fields rule).isFullyWildcard (filters pf) ∨
      (rule.enabled && fields.protocol.allows c.isUdp) = false) :
    actionOf (decidingRule (filters pf) (before ++ edited true fields rule :: after) c) =
      actionOf (decidingRule (filters pf) (before ++ addedAs fields rule :: after) c) := by
  rw [actionOf_eq_map, actionOf_eq_map, decidingRule, decidingRule]
  congr 1
  apply map_firstMatch_replace
  · simp only [Rule.decides, isCandidate_edited, isCandidate_addedAs, matchesLists_edited]
    rcases h with h | h <;> simp [h]
  · simp only [Rule.isDeferred, isCandidate_edited, isCandidate_addedAs]
    rcases h with h | h <;> simp [h]
  · rfl

/-- After a successful edit a connection is decided as if the rule had been added with the same
arguments, exactly when no empty text stands for a star, or the rule is not asked about the
connection, or a rule before it decides, or the rule that decides instead has the same action. -/
theorem matchRule_editRule_iff (c : Connection) {s : RuleStore} {copied : Bool}
    (hs : s.rules = before ++ rule :: after) (hrule : rule.ruleId = ruleId)
    (hbefore : ∀ other ∈ before, other.ruleId ≠ ruleId)
    (hok : ((ruleApi pf).editRule copied ruleId fields s).1 = true) :
    matchRule (filters pf) ((ruleApi pf).editRule copied ruleId fields s).2.rules c.process c.destIp
          c.destPort c.isUdp =
        matchRule (filters pf) (before ++ addedAs fields rule :: after) c.process c.destIp
          c.destPort c.isUdp ↔
      hasEmptyStar (filters pf) fields = false ∨
        (rule.enabled && fields.protocol.allows c.isUdp) = false ∨
        (∃ other ∈ before, other.decides (filters pf) c = true) ∨
        ∀ other ∈ (after.find? (Rule.decides (filters pf) c)).or
            (before.find? (Rule.isDeferred (filters pf) c.isUdp)),
          other.action = fields.action := by
  rw [editRule_succeeds hok, hs, updateRule_append hrule hbefore, matchRule_eq_decidingRule,
    matchRule_eq_decidingRule]
  cases hstar : hasEmptyStar (filters pf) fields with
  | false => exact iff_of_true (actionOf_replace c (.inl (isFullyWildcard_edited hstar))) (.inl rfl)
  | true =>
    cases hcandidate : (rule.enabled && fields.protocol.allows c.isUdp) with
    | false => exact iff_of_true (actionOf_replace c (.inr hcandidate)) (.inr (.inl rfl))
    | true =>
      obtain ⟨hedited, hadded⟩ := isFullyWildcard_of_hasEmptyStar rule hstar
      have hlists := matchesLists_of_fullyWildcard hadded c
      have hdecides : (edited true fields rule).decides (filters pf) c = true := by
        simp [Rule.decides, isCandidate_edited, hcandidate, hedited, matchesLists_edited, hlists]
      have hwaits := Rule.decides_of_fullyWildcard hadded c
      have hdeferred : (addedAs fields rule).isDeferred (filters pf) c.isUdp = true := by
        simp [Rule.isDeferred, isCandidate_addedAs, hcandidate, hadded]
      rw [decidingRule, decidingRule, firstMatch_of_decides hdecides,
        firstMatch_of_deferred hwaits hdeferred]
      cases hfirst : before.find? (Rule.decides (filters pf) c) with
      | some other =>
        have hother : other ∈ before ∧ other.decides (filters pf) c = true :=
          ⟨List.mem_of_find?_eq_some hfirst, List.find?_some hfirst⟩
        exact iff_of_true rfl (.inr (.inr (.inl ⟨other, hother⟩)))
      | none =>
        have hnone : ¬ ∃ other ∈ before, other.decides (filters pf) c = true := by
          simpa using hfirst
        cases (after.find? (Rule.decides (filters pf) c)).or
            (before.find? (Rule.isDeferred (filters pf) c.isUdp)) with
        | none => simp [actionOf, addedAs, RuleFields.rule, edited]
        | some other =>
          have haction : actionOf (some (edited true fields rule)) = fields.action := rfl
          simp only [Option.none_or, Option.some_or, haction, hnone]
          simp [actionOf, eq_comm]

/-- A rule for everything in front of one that blocks `curl`. -/
def beforeBlockCurl : RuleStore :=
  ⟨[⟨2, ['*'], ['*'], ['*'], .both, .direct, true⟩,
    ⟨1, "curl".toList, ['*'], ['*'], .both, .block, true⟩], 3⟩

def curlConnection : Connection := ⟨"curl".toList, ipv4 192 0 2 1, 443, false⟩

/-- Edited with stars the rule leaves `curl` to the other one. -/
theorem matchRule_editRule_stars :
    matchRule (filters .windows)
        ((ruleApi .windows).editRule true 2 ⟨['*'], ['*'], ['*'], .both, .proxy⟩
          beforeBlockCurl).2.rules
        curlConnection.process curlConnection.destIp curlConnection.destPort false =
      matchRule (filters .windows) [⟨2, ['*'], ['*'], ['*'], .both, .proxy, true⟩,
          ⟨1, "curl".toList, ['*'], ['*'], .both, .block, true⟩]
        curlConnection.process curlConnection.destIp curlConnection.destPort false :=
  (@matchRule_editRule_iff .windows ⟨['*'], ['*'], ['*'], .both, .proxy⟩
    ⟨2, ['*'], ['*'], ['*'], .both, .direct, true⟩ 2 []
    [⟨1, "curl".toList, ['*'], ['*'], .both, .block, true⟩] curlConnection beforeBlockCurl true rfl
    rfl (by decide) (by decide)).mpr (.inl (by decide))

/-- Edited with empty texts it proxies what the other one blocks. A rule added with them would
not. -/
theorem editRule_empty_texts :
    let fields : RuleFields := ⟨['*'], [], [], .both, .proxy⟩
    let c := curlConnection
    let decided := fun pf rules =>
      matchRule (filters pf) rules c.process c.destIp c.destPort c.isUdp
    ((ruleApi .windows).editRule true 2 fields beforeBlockCurl).1 = true ∧
      decided .windows ((ruleApi .windows).editRule true 2 fields beforeBlockCurl).2.rules =
        .proxy ∧
      decided .windows (updateRule 2 (addedAs fields) beforeBlockCurl.rules) = .block ∧
      ((ruleApi .linux).editRule true 2 fields beforeBlockCurl).1 = true ∧
      decided .linux ((ruleApi .linux).editRule true 2 fields beforeBlockCurl).2.rules = .proxy ∧
      decided .linux (updateRule 2 (addedAs fields) beforeBlockCurl.rules) = .block := by
  decide

end ProxyTun
