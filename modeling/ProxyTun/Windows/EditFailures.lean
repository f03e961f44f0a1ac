import ProxyTun.Rules.RuleStore

/-!
# Edits whose allocations fail

The texts of a rule are pointers, and null where a copy has failed. `ProxyTun_EditRule` frees each
text before it copies the new one into its place. `ProxyBridge_EditRule` makes both copies before it
looks for the rule.
-/
namespace ProxyTun.Windows

/-- `PROCESS_RULE`. -/
structure ProcessRule where
  ruleId : BitVec 32
  processName : CStr
  targetHosts : Option CStr
  targetPorts : Option CStr
  protocol : RuleProtocol
  action : RuleAction
  enabled : Bool
  deriving DecidableEq, Repr

/-- The arguments of an edit behind the id, of which the texts may be null. -/
structure EditArguments where
  processName : Option CStr
  targetHosts : Option CStr
  targetPorts : Option CStr
  protocol : RuleProtocol
  action : RuleAction
  deriving DecidableEq, Repr

def RuleFields.arguments (fields : RuleFields) : EditArguments :=
  ⟨some fields.processName, some fields.targetHosts, some fields.targetPorts, fields.protocol,
    fields.action⟩

def EditArguments.fields (args : EditArguments) : Option RuleFields := do
  let processName ← args.processName
  let targetHosts ← args.targetHosts
  let targetPorts ← args.targetPorts
  some ⟨processName, targetHosts, targetPorts, args.protocol, args.action⟩

/-- Which of the two copies of an edit get memory. -/
structure Copies where
  hosts : Bool
  ports : Bool
  deriving DecidableEq, Repr

def Copies.succeed (copies : Copies) : Bool := copies.hosts && copies.ports

def strdup (allocated : Bool) (text : CStr) : Option CStr := if allocated then some text else none

def editFound (copies : Copies) (fields : RuleFields) (rule : ProcessRule) : Bool × ProcessRule :=
  let rule := { rule with processName := truncateName fields.processName }
  let rule := { rule with targetHosts := strdup copies.hosts fields.targetHosts }
  if rule.targetHosts = none then (false, rule)
  else
    let rule := { rule with targetPorts := strdup copies.ports fields.targetPorts }
    if rule.targetPorts = none then (false, { rule with targetHosts := none })
    else (true, { rule with protocol := fields.protocol, action := fields.action })

/-- A call on the first rule with an id, which returns `FALSE` if there is none. -/
def onFirst (ruleId : BitVec 32) (f : ProcessRule → Bool × ProcessRule) :
    List ProcessRule → Bool × List ProcessRule
  | [] => (false, [])
  | rule :: rules =>
    if rule.ruleId = ruleId then ((f rule).1, (f rule).2 :: rules)
    else ((onFirst ruleId f rules).1, rule :: (onFirst ruleId f rules).2)

/-- `ProxyTun_EditRule`. -/
def editRule (copies : Copies) (ruleId : BitVec 32) (args : EditArguments)
    (rules : List ProcessRule) : Bool × List ProcessRule :=
  match args.fields with
  | some fields =>
    if ruleId = 0 then (false, rules) else onFirst ruleId (editFound copies fields) rules
  | none => (false, rules)

/-- What `ProxyBridge_EditRule` does to the rule it finds, with the copies at hand. -/
def bridgeEditFound (fields : RuleFields) (newHosts newPorts : CStr) (rule : ProcessRule) :
    Bool × ProcessRule :=
  (true, { rule with
    processName := truncateName fields.processName
    targetHosts := some newHosts
    targetPorts := some newPorts
    protocol := fields.protocol
    action := fields.action })

/-- `ProxyBridge_EditRule`. -/
def bridgeEditRule (copies : Copies) (ruleId : BitVec 32) (args : EditArguments)
    (rules : List ProcessRule) : Bool × List ProcessRule :=
  match args.fields with
  | some fields =>
    if ruleId = 0 then (false, rules)
    else
      match strdup copies.hosts fields.targetHosts, strdup copies.ports fields.targetPorts with
      | some newHosts, some newPorts =>
        onFirst ruleId (bridgeEditFound fields newHosts newPorts) rules
      | _, _ => (false, rules)
  | none => (false, rules)

/-- A failed copy leaves the rule as it is only if it has the new name and no hosts, and no ports
either if these are the copy that fails. -/
def LostBefore (copies : Copies) (fields : RuleFields) (rule : ProcessRule) : Prop :=
  rule.processName = truncateName fields.processName ∧ rule.targetHosts = none ∧
    (copies.hosts = true → rule.targetPorts = none)

/-- Both copies succeed if a rule is found, or it has nothing to lose. -/
def LosesNothing (copies : Copies) (ruleId : BitVec 32) (args : EditArguments)
    (rules : List ProcessRule) : Prop :=
  ∀ fields ∈ args.fields, ruleId ≠ 0 → ∀ rule ∈ rules.find? fun rule => rule.ruleId = ruleId,
    copies.succeed = true ∨ LostBefore copies fields rule

variable {copies : Copies} {fields : RuleFields} {ruleId : BitVec 32} {args : EditArguments}
  {rules : List ProcessRule}

theorem onFirst_of_find?_none {f : ProcessRule → Bool × ProcessRule}
    (h : (rules.find? fun rule => rule.ruleId = ruleId) = none) :
    onFirst ruleId f rules = (false, rules) := by
  induction rules with
  | nil => rfl
  | cons rule rules ih =>
    rw [List.find?_cons] at h
    by_cases hid : rule.ruleId = ruleId
    · simp [hid] at h
    · simp only [hid, decide_false] at h
      rw [onFirst, if_neg hid, ih h]

/-- The call changes the list if and only if it changes the rule that it finds. -/
theorem onFirst_of_find?_some {f : ProcessRule → Bool × ProcessRule} {rule : ProcessRule}
    (h : (rules.find? fun rule => rule.ruleId = ruleId) = some rule) :
    (onFirst ruleId f rules).1 = (f rule).1 ∧
      ((onFirst ruleId f rules).2 = rules ↔ (f rule).2 = rule) := by
  induction rules with
  | nil => cases h
  | cons other rules ih =>
    rw [List.find?_cons] at h
    unfold onFirst
    by_cases hid : other.ruleId = ruleId
    · simp only [hid, decide_true, Option.some.injEq] at h
      rw [if_pos hid, h]
      simp
    · simp only [hid, decide_false] at h
      rw [if_neg hid]
      simpa using ih h

/-- A call that succeeds on every rule fails only if it finds none. -/
theorem onFirst_unchanged {f : ProcessRule → Bool × ProcessRule} (hf : ∀ rule, (f rule).1 = true)
    (h : (onFirst ruleId f rules).1 = false) : (onFirst ruleId f rules).2 = rules := by
  cases hfind : rules.find? fun rule => rule.ruleId = ruleId with
  | none => rw [onFirst_of_find?_none hfind]
  | some rule =>
    rw [(onFirst_of_find?_some hfind).1, hf] at h
    cases h

theorem editFound_cases (copies : Copies) (fields : RuleFields) (rule : ProcessRule) :
    copies.succeed = true ∧ (editFound copies fields rule).1 = true ∨
      copies.succeed = false ∧ (editFound copies fields rule).1 = false ∧
        (editFound copies fields rule).2 =
          { rule with
            processName := truncateName fields.processName
            targetHosts := none
            targetPorts := if copies.hosts then none else rule.targetPorts } := by
  obtain ⟨hosts, ports⟩ := copies
  cases hosts <;> cases ports <;> simp [editFound, strdup, Copies.succeed]

theorem editFound_unchanged_iff (rule : ProcessRule) :
    ((editFound copies fields rule).1 = false → (editFound copies fields rule).2 = rule) ↔
      copies.succeed = true ∨ LostBefore copies fields rule := by
  rcases editFound_cases copies fields rule with ⟨hcopied, hok⟩ | ⟨hcopied, hfails, hleft⟩
  · simp [hcopied, hok]
  · rw [hleft, hcopied]
    obtain ⟨id, name, hosts, ports, protocol, action, enabled⟩ := rule
    cases hfirst : copies.hosts <;> simp [hfails, LostBefore, hfirst, eq_comm]

theorem bridgeEditRule_unchanged (copies : Copies) (ruleId : BitVec 32) (args : EditArguments)
    (rules : List ProcessRule) (h : (bridgeEditRule copies ruleId args rules).1 = false) :
    (bridgeEditRule copies ruleId args rules).2 = rules := by
  obtain ⟨hosts, ports⟩ := copies
  unfold bridgeEditRule at h ⊢
  cases hargs : args.fields with
  | none => rfl
  | some fields =>
    by_cases hid : ruleId = 0
    · simp [hid]
    · cases hosts with
      | false => simp [strdup]
      | true =>
        cases ports with
        | false => simp [strdup]
        | true =>
          simp only [hargs, hid, strdup, if_true, if_false] at h ⊢
          exact onFirst_unchanged (fun _ => rfl) h

/-- A failed edit changes nothing exactly when it has nothing to lose. On Linux a failed edit
never changes anything. -/
theorem failed_edit_unchanged_iff (copies : Copies) (ruleId : BitVec 32) (args : EditArguments)
    (rules : List ProcessRule) :
    (((editRule copies ruleId args rules).1 = false →
        (editRule copies ruleId args rules).2 = rules) ↔
      LosesNothing copies ruleId args rules) ∧
    ((bridgeEditRule copies ruleId args rules).1 = false →
      (bridgeEditRule copies ruleId args rules).2 = rules) := by
  refine ⟨?_, bridgeEditRule_unchanged copies ruleId args rules⟩
  unfold editRule LosesNothing
  cases args.fields with
  | none => simp
  | some fields =>
    by_cases hid : ruleId = 0
    · simp [hid]
    · cases hfind : rules.find? fun rule => rule.ruleId = ruleId with
      | none => simp [onFirst_of_find?_none hfind]
      | some rule =>
        obtain ⟨hok, hrules⟩ := onFirst_of_find?_some (f := editFound copies fields) hfind
        dsimp only
        rw [if_neg hid, hok, hrules, editFound_unchanged_iff]
        simp only [Option.mem_def, Option.some.injEq, forall_eq', ne_eq, hid, not_false_eq_true,
          true_implies]

/-- The second copy of an edit that gives curl other hosts fails. -/
theorem failed_edit_loses_texts :
    let rule : ProcessRule := ⟨1, "curl".toList, some ['*'], some ['*'], .both, .proxy, true⟩
    let args : EditArguments :=
      ⟨some "curl".toList, some "10.*.*.*".toList, some "80".toList, .tcp, .direct⟩
    (editRule ⟨true, false⟩ 1 args [rule]).1 = false ∧
      (editRule ⟨true, false⟩ 1 args [rule]).2 =
        [{ rule with targetHosts := none, targetPorts := none }] ∧
      ¬ ((editRule ⟨true, false⟩ 1 args [rule]).1 = false →
        (editRule ⟨true, false⟩ 1 args [rule]).2 = [rule]) := by
  decide

/-- The rule of the store, whose texts are not null. -/
def ofRule (rule : Rule) : ProcessRule :=
  ⟨rule.ruleId, rule.processName, some rule.targetHosts, some rule.targetPorts, rule.protocol,
    rule.action, rule.enabled⟩

def Copies.spared (copies : Copies) (rule : ProcessRule) : ProcessRule :=
  if copies.succeed then rule else { rule with targetHosts := none, targetPorts := none }

theorem fields_arguments (fields : RuleFields) : fields.arguments.fields = some fields := rfl

theorem onFirst_ofRule {β : Type*} {view : ProcessRule → β} {f : ProcessRule → Bool × ProcessRule}
    {ok : Bool} {g : Rule → Rule}
    (hf : ∀ rule, (f (ofRule rule)).1 = ok ∧ view (f (ofRule rule)).2 = view (ofRule (g rule)))
    (hid : ruleId ≠ 0) (s : RuleStore) :
    (onFirst ruleId f (s.rules.map ofRule)).1 = (s.finds ruleId && ok) ∧
      (onFirst ruleId f (s.rules.map ofRule)).2.map view =
        (if s.finds ruleId then s.update ruleId g else s).rules.map (view ∘ ofRule) := by
  obtain ⟨rules, next⟩ := s
  induction rules with
  | nil => simp [onFirst, RuleStore.finds]
  | cons rule rules ih =>
    by_cases hrule : rule.ruleId = ruleId
    · have hhead : (ofRule rule).ruleId = ruleId := hrule
      have hfinds : RuleStore.finds ⟨rule :: rules, next⟩ ruleId = true :=
        RuleStore.finds_iff.mpr ⟨hid, by simp [RuleStore.ids, hrule]⟩
      rw [hfinds, if_pos rfl]
      simp [onFirst, RuleStore.update, updateRule, hrule, hhead, hf rule]
    · have hhead : (ofRule rule).ruleId ≠ ruleId := hrule
      have hfinds : RuleStore.finds ⟨rule :: rules, next⟩ ruleId =
          RuleStore.finds ⟨rules, next⟩ ruleId := by
        simp [RuleStore.finds, hrule]
      rw [List.map_cons, onFirst, if_neg hhead, hfinds, ih.1, List.map_cons, ih.2]
      refine ⟨rfl, ?_⟩
      split <;> simp [RuleStore.update, updateRule, hrule]

theorem editRule_ofRule (copies : Copies) (ruleId : BitVec 32) (fields : RuleFields)
    (s : RuleStore) :
    (editRule copies ruleId fields.arguments (s.rules.map ofRule)).1 =
        (s.editRule copies.succeed ruleId fields).1 ∧
      (editRule copies ruleId fields.arguments (s.rules.map ofRule)).2.map copies.spared =
        (s.editRule copies.succeed ruleId fields).2.rules.map (copies.spared ∘ ofRule) := by
  have hfound (rule : Rule) : (editFound copies fields (ofRule rule)).1 = copies.succeed ∧
      copies.spared (editFound copies fields (ofRule rule)).2 =
        copies.spared (ofRule (RuleStore.edited copies.succeed fields rule)) := by
    obtain ⟨hosts, ports⟩ := copies
    cases hosts <;> cases ports <;> exact ⟨rfl, rfl⟩
  unfold editRule RuleStore.editRule
  rw [fields_arguments]
  by_cases hid : ruleId = 0
  · simp [hid, RuleStore.finds]
  · obtain ⟨hok, hrules⟩ := onFirst_ofRule hfound hid s
    dsimp only
    rw [if_neg hid, hok, hrules]
    cases s.finds ruleId <;> simp

theorem bridgeEditRule_ofRule (copies : Copies) (ruleId : BitVec 32) (fields : RuleFields)
    (s : RuleStore) :
    bridgeEditRule copies ruleId fields.arguments (s.rules.map ofRule) =
      ((Linux.editRule copies.succeed ruleId fields s).1,
        (Linux.editRule copies.succeed ruleId fields s).2.rules.map ofRule) := by
  obtain ⟨hosts, ports⟩ := copies
  unfold bridgeEditRule Linux.editRule
  rw [fields_arguments]
  by_cases hid : ruleId = 0
  · simp [hid, RuleStore.finds]
  · cases hosts with
    | false => simp [strdup, Copies.succeed]
    | true =>
      cases ports with
      | false => simp [strdup, Copies.succeed]
      | true =>
        have hfound (rule : Rule) :
            (bridgeEditFound fields fields.targetHosts fields.targetPorts (ofRule rule)).1 = true ∧
              id (bridgeEditFound fields fields.targetHosts fields.targetPorts (ofRule rule)).2 =
                id (ofRule (RuleStore.edited true fields rule)) := ⟨rfl, rfl⟩
        obtain ⟨hok, hrules⟩ := onFirst_ofRule hfound hid s
        rw [List.map_id, Function.id_comp] at hrules
        simp only [strdup, Copies.succeed, if_true, if_neg hid, Bool.and_self, Bool.not_true,
          Bool.false_eq_true, if_false]
        ext1
        · rw [hok]
          cases s.finds ruleId <;> rfl
        · rw [hrules]
          cases s.finds ruleId <;> rfl

end ProxyTun.Windows
