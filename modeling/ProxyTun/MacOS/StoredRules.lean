import Mathlib.Data.Multiset.AddSub
import ProxyTun.Core.Rules
import ProxyTun.Library.Rows
import ProxyTun.Library.Transition

/-!
# The stored rules of the macOS application

The application keeps its rules in the user defaults, and the extension has a list of its own.
Tasks of the application clear, fill and list the extension's rules by messages, and a task that
has listed them writes the list over the stored rules.
-/
namespace ProxyTun.MacOS
open Library Library.Transition

/-- `RuleProtocol(rawValue:)`. -/
def RuleProtocol.ofRawValue (text : CStr) : Option RuleProtocol :=
  [.tcp, .udp, .both].find? fun value => value.rawValue = text

/-- `RuleAction(rawValue:)`. -/
def RuleAction.ofRawValue (text : CStr) : Option RuleAction :=
  [.proxy, .direct, .block].find? fun value => value.rawValue = text

/-- A rule of the extension. -/
structure ProxyRule where
  ruleId : ℕ
  processNames : CStr
  targetHosts : CStr
  targetPorts : CStr
  ruleProtocol : RuleProtocol
  action : RuleAction
  enabled : Bool
  deriving DecidableEq, Repr

/-- A rule as the user defaults keep it, a dictionary. -/
structure StoredRule where
  title : Option CStr
  processNames : Option CStr
  targetHosts : Option CStr
  targetPorts : Option CStr
  ruleProtocol : Option CStr
  action : Option CStr
  enabled : Option Bool
  deriving DecidableEq, Repr

structure RulePreset where
  title : CStr
  processNames : CStr
  targetHosts : CStr
  targetPorts : CStr
  protocolName : CStr
  action : CStr
  deriving DecidableEq, Repr

/-- The parameters of an `addRule` message. -/
structure AddRuleMessage where
  processNames : CStr
  targetHosts : CStr
  targetPorts : CStr
  ruleProtocol : CStr
  ruleAction : CStr
  enabled : Bool
  deriving DecidableEq, Repr

/-- A listed rule without its id, as it is stored. -/
def ProxyRule.stored (rule : ProxyRule) : StoredRule where
  title := none
  processNames := some rule.processNames
  targetHosts := some rule.targetHosts
  targetPorts := some rule.targetPorts
  ruleProtocol := some rule.ruleProtocol.rawValue
  action := some rule.action.rawValue
  enabled := some rule.enabled

def RulePreset.stored (preset : RulePreset) : StoredRule where
  title := some preset.title
  processNames := some preset.processNames
  targetHosts := some preset.targetHosts
  targetPorts := some preset.targetPorts
  ruleProtocol := some preset.protocolName
  action := some preset.action
  enabled := some true

/-- The message by which `loadRulesFromUserDefaults` restores a rule. -/
def StoredRule.message (rule : StoredRule) : AddRuleMessage where
  processNames := rule.processNames.getD []
  targetHosts := rule.targetHosts.getD []
  targetPorts := rule.targetPorts.getD []
  ruleProtocol := rule.ruleProtocol.getD "BOTH".toList
  ruleAction := rule.action.getD "DIRECT".toList
  enabled := rule.enabled.getD true

/-- A stored rule with its title. -/
def StoredRule.shown (rule : StoredRule) : CStr × AddRuleMessage :=
  (rule.title.getD [], rule.message)

/-- The rules of the extension's process. -/
structure Extension where
  rules : List ProxyRule
  nextRuleId : ℕ
  deriving DecidableEq, Repr

/-- The extension's process as it starts. -/
def Extension.launched : Extension := ⟨[], 1⟩

def AddRuleMessage.decode (message : AddRuleMessage) (ruleId : ℕ) : Option ProxyRule := do
  let ruleProtocol ← RuleProtocol.ofRawValue message.ruleProtocol
  let action ← RuleAction.ofRawValue message.ruleAction
  some ⟨ruleId, message.processNames, message.targetHosts, message.targetPorts, ruleProtocol,
    action, message.enabled⟩

/-- The `addRule` message. A rule id that does not fit 32 bits stops the process. -/
def Extension.addRule (e : Extension) (message : AddRuleMessage) : Option Extension :=
  match message.decode e.nextRuleId with
  | none => some e
  | some rule =>
    if e.nextRuleId + 1 < 2 ^ 32 then some ⟨e.rules ++ [rule], e.nextRuleId + 1⟩ else none

/-- How far a task of the application is. -/
inductive RuleTask where
  /-- `startTunnel` waits for 1.5 seconds. -/
  | restoring
  /-- The `listRules` message is sent. -/
  | listing
  /-- Its reply is under way. -/
  | listed (rules : List ProxyRule)
  /-- The `clearRules` message is sent. -/
  | clearing
  | cleared
  /-- The `addRule` messages are sent. -/
  | adding (messages : List AddRuleMessage)
  | finished
  deriving DecidableEq, Repr

structure AppState where
  /-- Whether `tunnelSession` is set. -/
  session : Bool
  stored : List StoredRule
  provider : Extension
  tasks : List RuleTask
  deriving DecidableEq, Repr

/-- What `session.startTunnel()` comes to. -/
inductive TunnelStart where
  | throws
  /-- The extension's process runs already. -/
  | runs
  | launches
  deriving DecidableEq, Repr

inductive RuleLabel where
  | startTunnel (result : TunnelStart)
  /-- The tunnel is disconnected. -/
  | sessionEnds
  | loadRules
  | applyPreset (preset : RulePreset)
  | disablePreset (preset : RulePreset)
  /-- The extension handles the next message of a task. -/
  | handle (i : ℕ)
  /-- The next message of a task gets no reply. -/
  | drop (i : ℕ)
  /-- The application goes on with a task. -/
  | resume (i : ℕ)
  deriving DecidableEq, Repr

def RuleLabel.isUsers : RuleLabel → Bool
  | .applyPreset _ | .disablePreset _ => true
  | _ => false

/-- The extension handles a message. -/
def Extension.handle (e : Extension) : RuleTask → Option (Extension × RuleTask)
  | .listing => some (e, .listed e.rules)
  | .clearing => some ({ e with rules := [] }, .cleared)
  | .adding (message :: rest) => (e.addRule message).map fun e => (e, .adding rest)
  | _ => none

/-- A task whose message gets no reply leaves the stored rules as they are. -/
def RuleTask.drop : RuleTask → Option RuleTask
  | .listing | .clearing => some .finished
  | .adding (_ :: rest) => some (.adding rest)
  | _ => none

/-- The rules in a reply under way to the task. -/
def RuleTask.reply : RuleTask → Option (List ProxyRule)
  | .listed rules => some rules
  | _ => none

def loadRulesFromUserDefaults (stored : List StoredRule) : RuleTask :=
  if stored = [] then .finished else .adding (stored.map StoredRule.message)

-- `uppercased()` of the standard library.
variable (uppercased : CStr → CStr)

/-- What rules are compared by. -/
def StoredRule.key (rule : StoredRule) : CStr × CStr × CStr × CStr × CStr :=
  (rule.processNames.getD [], rule.targetHosts.getD [], rule.targetPorts.getD [],
    uppercased (rule.ruleProtocol.getD []), uppercased (rule.action.getD []))

def StoredRule.matches (preset : RulePreset) (rule : StoredRule) : Bool :=
  rule.key uppercased = preset.stored.key uppercased

def saveRulesToUserDefaults (existing : List StoredRule) (rules : List ProxyRule) :
    List StoredRule :=
  rules.map fun rule =>
    match (existing.find? fun e => e.key uppercased = rule.stored.key uppercased).bind
      StoredRule.title with
    | some title => { rule.stored with title := some title }
    | none => rule.stored

def applyPreset (preset : RulePreset) (stored : List StoredRule) : List StoredRule :=
  match stored.findIdx? (StoredRule.matches uppercased preset) with
  | some i => stored.modify i fun rule =>
    { rule with
      enabled := some true
      title := if rule.title.getD [] = [] then some preset.title else rule.title }
  | none => stored ++ [preset.stored]

def disablePreset (preset : RulePreset) (stored : List StoredRule) : Option (List StoredRule) :=
  (stored.findIdx? (StoredRule.matches uppercased preset)).map fun i =>
    stored.modify i fun rule => { rule with enabled := some false }

/-- The rule that `applyPreset` puts in, alone or for one that was switched off. -/
def switchedOn (preset : RulePreset) (stored : List StoredRule) : Option AddRuleMessage :=
  match stored.find? (StoredRule.matches uppercased preset) with
  | some rule =>
    if rule.message.enabled then none else some { rule.message with enabled := true }
  | none => some preset.stored.message

def switchedOff (preset : RulePreset) (stored : List StoredRule) : Option AddRuleMessage :=
  (stored.find? (StoredRule.matches uppercased preset)).bind fun rule =>
    if rule.message.enabled then some { rule.message with enabled := false } else none

/-- Rules of the extension, in no order, as messages. -/
def contentsOf (rules : List ProxyRule) : Multiset AddRuleMessage :=
  ↑(rules.map fun rule => rule.stored.message)

/-- The timer or the reply by which a task goes on. -/
def RuleTask.resume (stored : List StoredRule) : RuleTask → Option (List StoredRule × RuleTask)
  | .restoring | .cleared => some (stored, loadRulesFromUserDefaults stored)
  | .listed rules => some (saveRulesToUserDefaults uppercased stored rules, .finished)
  | .adding [] => some (stored, .finished)
  | _ => none

namespace AppState

/-- A task is started if there is a session. -/
def start (s : AppState) (task : RuleTask) : AppState :=
  if s.session then { s with tasks := s.tasks ++ [task] } else s

/-- `startTunnel`, which sets the session whether or not the start throws. -/
def startTunnel (s : AppState) : TunnelStart → AppState
  | .throws => { s with session := true }
  | .runs => { s with session := true, tasks := s.tasks ++ [.restoring] }
  | .launches =>
    { s with session := true, provider := .launched, tasks := s.tasks ++ [.restoring] }

def step (s : AppState) : RuleLabel → Option AppState
  | .startTunnel result => some (s.startTunnel result)
  | .sessionEnds => some { s with session := false }
  | .loadRules => some (s.start .listing)
  | .applyPreset preset =>
    some ({ s with stored := MacOS.applyPreset uppercased preset s.stored }.start .clearing)
  | .disablePreset preset =>
    match MacOS.disablePreset uppercased preset s.stored with
    | none => some s
    | some stored => some ({ s with stored := stored }.start .clearing)
  | .handle i => (s.tasks[i]?).bind fun task => (s.provider.handle task).map fun next =>
    { s with provider := next.1, tasks := s.tasks.set i next.2 }
  | .drop i => (s.tasks[i]?).bind fun task => task.drop.map fun next =>
    { s with tasks := s.tasks.set i next }
  | .resume i => (s.tasks[i]?).bind fun task => (task.resume uppercased s.stored).map fun next =>
    { s with stored := next.1, tasks := s.tasks.set i next.2 }

/-- The stored rules, in no order, by what is looked at of each. -/
def contents {β : Type} (view : StoredRule → β) (s : AppState) : Multiset β :=
  ↑(s.stored.map view)

def lists (s : AppState) : List (List ProxyRule) := Rows.keys RuleTask.reply s.tasks

def listTo (s : AppState) (i : ℕ) : List ProxyRule := ((s.tasks[i]?).bind RuleTask.reply).getD []

section
variable {β : Type} [DecidableEq β] (view : StoredRule → β)

/-- What there should be of some stored rules after a step. A preset that is switched takes a rule
away, puts another one in, or both. -/
def owedAfter (s t : AppState) (label : RuleLabel) (rules : Multiset β) : Multiset β :=
  if label.isUsers then
    rules - (s.contents view - t.contents view) + (t.contents view - s.contents view)
  else rules

def owed (s : AppState) : List RuleLabel → Multiset β → Multiset β
  | [], rules => rules
  | label :: labels, rules => (s.step uppercased label).elim rules fun t =>
    t.owed labels (s.owedAfter view t label rules)

/-- Unless it switches a preset, the step keeps all stored rules. -/
def KeepsStored (s : AppState) (label : RuleLabel) (t : AppState) : Prop :=
  label.isUsers = false → s.contents view ≤ t.contents view

end

/-- The extension lists its rules only while it has all stored ones. A rule comes into the stored
ones, by a preset or by a list that is saved, only while all lists under way have it, each more
often than it is stored, or as often as the saved one. -/
def ListsCurrent (s : AppState) : RuleLabel → Prop
  | .handle i => s.tasks[i]? = some .listing →
    s.contents StoredRule.message ≤ contentsOf s.provider.rules
  | .applyPreset preset => ∀ rule ∈ switchedOn uppercased preset s.stored, ∀ rules ∈ s.lists,
    (s.contents StoredRule.message).count rule < (contentsOf rules).count rule
  | .disablePreset preset => ∀ rule ∈ switchedOff uppercased preset s.stored, ∀ rules ∈ s.lists,
    (s.contents StoredRule.message).count rule < (contentsOf rules).count rule
  | .resume i => ∀ rules ∈ s.lists, contentsOf (s.listTo i) ≤ contentsOf rules
  | _ => True

/-- A list is saved only while all stored rules name a protocol and an action, and those with the
same fields have the same title. -/
def TitlesAgree (s : AppState) : RuleLabel → Prop
  | .resume i => s.listTo i ≠ [] →
    (∀ rule ∈ s.stored, rule.ruleProtocol.isSome = true ∧ rule.action.isSome = true) ∧
      ∀ rule ∈ s.stored, ∀ other ∈ s.stored, rule.key uppercased = other.key uppercased →
        rule.title.getD [] = other.title.getD []
  | _ => True

instance (s : AppState) : ∀ label, Decidable (s.ListsCurrent uppercased label)
  | .startTunnel _ | .sessionEnds | .loadRules | .drop _ => .isTrue trivial
  | .applyPreset _ | .disablePreset _ => inferInstanceAs (Decidable (∀ rule ∈ _, _))
  | .resume _ => inferInstanceAs (Decidable (∀ rules ∈ s.lists, _))
  | .handle _ => inferInstanceAs (Decidable (_ → _))

instance (s : AppState) : ∀ label, Decidable (s.TitlesAgree uppercased label)
  | .startTunnel _ | .sessionEnds | .loadRules | .drop _ | .applyPreset _ | .disablePreset _
  | .handle _ => .isTrue trivial
  | .resume _ => inferInstanceAs (Decidable (_ → _))

def Covers (s : AppState) : Prop :=
  ∀ rules ∈ s.lists, s.contents StoredRule.message ≤ contentsOf rules

/-- What a step does to the stored rules and to the lists under way. -/
inductive Effect (s : AppState) (label : RuleLabel) (t : AppState) : Prop where
  | same (hstored : t.stored = s.stored) (hlists : t.lists = s.lists)
  | switched (rule : Option AddRuleMessage) (hlabel : label.isUsers = true)
      (hcurrent : s.ListsCurrent uppercased label → ∀ m ∈ rule, ∀ rules ∈ s.lists,
        (s.contents StoredRule.message).count m < (contentsOf rules).count m)
      (hcontents : t.contents StoredRule.message ≤
        s.contents StoredRule.message + ↑rule.toList)
      (hlists : t.lists = s.lists)
  | listed (i : ℕ) (hlabel : label = .handle i) (htask : s.tasks[i]? = some .listing)
      (hstored : t.stored = s.stored)
      (hlists : ∀ rules, rules ∈ t.lists ↔ s.provider.rules = rules ∨ rules ∈ s.lists)
  | saved (i : ℕ) (rules : List ProxyRule) (hlabel : label = .resume i)
      (htask : s.tasks[i]? = some (.listed rules))
      (hstored : t.stored = saveRulesToUserDefaults uppercased s.stored rules)
      (hlists : ∀ rules', rules' ∈ s.lists ↔ rules = rules' ∨ rules' ∈ t.lists)

variable {uppercased} {s t : AppState}

theorem contents_saveRules (existing : List StoredRule) (rules : List ProxyRule) :
    ((saveRulesToUserDefaults uppercased existing rules).map StoredRule.message :
      Multiset AddRuleMessage) = contentsOf rules := by
  rw [saveRulesToUserDefaults, contentsOf, List.map_map]
  congr 1
  apply List.map_congr_left
  intro rule _
  rw [Function.comp_apply]
  split <;> rfl

theorem map_modify_le {β : Type} {f : StoredRule → StoredRule} {view : StoredRule → β}
    {stored : List StoredRule} {i : ℕ} {rule : StoredRule} (h : stored[i]? = some rule) :
    ((stored.modify i f).map view : Multiset β) ≤ ↑(stored.map view) + {view (f rule)} := by
  have hrest : ((stored.take i ++ stored.drop (i + 1)).map view).Sublist (stored.map view) := by
    rw [← List.eraseIdx_eq_take_drop_succ]
    exact (List.eraseIdx_sublist stored i).map view
  rw [Rows.modify_eq h, List.map_append, List.map_cons]
  rw [List.map_append] at hrest
  calc (↑(List.map view (stored.take i) ++ view (f rule) :: List.map view (stored.drop (i + 1))) :
        Multiset β)
      = view (f rule) ::ₘ ↑(List.map view (stored.take i) ++ List.map view (stored.drop (i + 1))) :=
        Multiset.coe_eq_coe.mpr List.perm_middle
    _ ≤ view (f rule) ::ₘ ↑(stored.map view) :=
        Multiset.cons_le_cons _ (Multiset.coe_le.mpr hrest.subperm)
    _ = ↑(stored.map view) + {view (f rule)} := by
        rw [← Multiset.singleton_add, Multiset.add_comm]

theorem contents_applyPreset (preset : RulePreset) (stored : List StoredRule) :
    ((MacOS.applyPreset uppercased preset stored).map StoredRule.message :
        Multiset AddRuleMessage) ≤
      ↑(stored.map StoredRule.message) + ↑(switchedOn uppercased preset stored).toList := by
  rw [MacOS.applyPreset, switchedOn, List.find?_eq_bind_findIdx?_getElem?]
  cases hfound : stored.findIdx? (StoredRule.matches uppercased preset) with
  | none =>
    rw [List.map_append, ← Multiset.coe_add]
    exact le_refl _
  | some i =>
    obtain ⟨hi, -⟩ := List.findIdx?_eq_some_iff_getElem.mp hfound
    have hrule : stored[i]? = some stored[i] := List.getElem?_eq_getElem hi
    simp only [Option.bind_some, hrule]
    cases henabled : stored[i].message.enabled with
    | true =>
      rw [if_pos rfl, Option.toList_none, Multiset.coe_nil, Multiset.add_zero,
        Rows.map_modify_of hrule]
      simpa [StoredRule.message] using henabled.symm
    | false => exact map_modify_le hrule

theorem contents_disablePreset {preset : RulePreset} {stored stored' : List StoredRule}
    (h : MacOS.disablePreset uppercased preset stored = some stored') :
    (stored'.map StoredRule.message : Multiset AddRuleMessage) ≤
      ↑(stored.map StoredRule.message) + ↑(switchedOff uppercased preset stored).toList := by
  obtain ⟨i, hfound, rfl⟩ := Option.map_eq_some_iff.mp h
  obtain ⟨hi, -⟩ := List.findIdx?_eq_some_iff_getElem.mp hfound
  have hrule : stored[i]? = some stored[i] := List.getElem?_eq_getElem hi
  rw [switchedOff, List.find?_eq_bind_findIdx?_getElem?, hfound]
  simp only [Option.bind_some, hrule]
  cases henabled : stored[i].message.enabled with
  | true => exact map_modify_le hrule
  | false =>
    rw [if_neg Bool.false_ne_true, Option.toList_none, Multiset.coe_nil, Multiset.add_zero,
      Rows.map_modify_of hrule]
    simpa [StoredRule.message] using henabled.symm

theorem shown_saveRules {existing : List StoredRule} {rules : List ProxyRule}
    (hcomplete : ∀ rule ∈ existing, rule.ruleProtocol.isSome = true ∧ rule.action.isSome = true)
    (htitles : ∀ rule ∈ existing, ∀ other ∈ existing,
      rule.key uppercased = other.key uppercased → rule.title.getD [] = other.title.getD [])
    (hcovers : (existing.map StoredRule.message : Multiset AddRuleMessage) ≤ contentsOf rules) :
    (existing.map StoredRule.shown : Multiset (CStr × AddRuleMessage)) ≤
      ↑((saveRulesToUserDefaults uppercased existing rules).map StoredRule.shown) := by
  let keyOf (m : AddRuleMessage) : CStr × CStr × CStr × CStr × CStr :=
    (m.processNames, m.targetHosts, m.targetPorts, uppercased m.ruleProtocol,
      uppercased m.ruleAction)
  let titled (m : AddRuleMessage) : CStr × AddRuleMessage :=
    (((existing.find? fun e => e.key uppercased = keyOf m).bind StoredRule.title).getD [], m)
  have hstored : existing.map StoredRule.shown =
      (existing.map StoredRule.message).map titled := by
    rw [List.map_map]
    apply List.map_congr_left
    intro rule hrule
    have hkey : rule.key uppercased = keyOf rule.message := by
      obtain ⟨hprotocol, haction⟩ := hcomplete rule hrule
      obtain ⟨ruleProtocol, hprotocol⟩ := Option.isSome_iff_exists.mp hprotocol
      obtain ⟨action, haction⟩ := Option.isSome_iff_exists.mp haction
      simp [StoredRule.key, keyOf, StoredRule.message, hprotocol, haction]
    obtain ⟨other, hother⟩ : ∃ other,
        existing.find? (fun e => e.key uppercased = keyOf rule.message) = some other := by
      rw [← Option.isSome_iff_exists, List.find?_isSome]
      exact ⟨rule, hrule, by simpa using hkey⟩
    have hfound := List.find?_some hother
    have hsame : other.key uppercased = rule.key uppercased :=
      (of_decide_eq_true hfound).trans hkey.symm
    simp only [Function.comp_apply, titled, hother, Option.bind_some, StoredRule.shown]
    rw [htitles other (List.mem_of_find?_eq_some hother) rule hrule hsame]
  have hsaved : (saveRulesToUserDefaults uppercased existing rules).map StoredRule.shown =
      (rules.map fun rule => rule.stored.message).map titled := by
    rw [saveRulesToUserDefaults, List.map_map, List.map_map]
    apply List.map_congr_left
    intro rule _
    have hkey : keyOf rule.stored.message = rule.stored.key uppercased := rfl
    simp only [Function.comp_apply, titled, hkey]
    cases (existing.find? fun e => e.key uppercased = rule.stored.key uppercased).bind
      StoredRule.title <;> rfl
  rw [hstored, hsaved, ← Multiset.map_coe, ← Multiset.map_coe]
  exact Multiset.map_le_map hcovers

@[simp] theorem stored_start (s : AppState) (task : RuleTask) :
    (s.start task).stored = s.stored := by
  unfold start
  split <;> rfl

theorem lists_start {task : RuleTask} (htask : task.reply = none) (s : AppState) :
    (s.start task).lists = s.lists := by
  unfold start lists
  split
  · rw [Rows.keys_append, Rows.keys_cons, htask]
    simp
  · rfl

theorem reply_loadRules (stored : List StoredRule) :
    (loadRulesFromUserDefaults stored).reply = none := by
  unfold loadRulesFromUserDefaults
  split <;> rfl

theorem lists_set {tasks : List RuleTask} {i : ℕ} {task next : RuleTask}
    (htask : tasks[i]? = some task) (hreply : task.reply = none) (hnext : next.reply = none) :
    Rows.keys RuleTask.reply (tasks.set i next) = Rows.keys RuleTask.reply tasks :=
  Rows.keys_set htask (hnext.trans hreply.symm)

theorem effect_of_handle {i : ℕ} (h : s.step uppercased (.handle i) = some t) :
    Effect uppercased s (.handle i) t := by
  obtain ⟨task, htask, hmap⟩ := Option.bind_eq_some_iff.mp h
  obtain ⟨next, hnext, rfl⟩ := Option.map_eq_some_iff.mp hmap
  cases task with
  | listing =>
    obtain rfl := Option.some.inj hnext
    refine .listed i rfl htask rfl fun rules => ?_
    rw [lists, lists, Rows.mem_keys_set htask, Rows.mem_keys_of_getElem? htask]
    simp [RuleTask.reply]
  | clearing =>
    obtain rfl := Option.some.inj hnext
    exact .same rfl (lists_set htask rfl rfl)
  | adding messages =>
    cases messages with
    | nil => cases hnext
    | cons message rest =>
      obtain ⟨e, -, rfl⟩ := Option.map_eq_some_iff.mp hnext
      exact .same rfl (lists_set htask rfl rfl)
  | restoring | listed _ | cleared | finished => cases hnext

theorem effect_of_drop {i : ℕ} (h : s.step uppercased (.drop i) = some t) :
    Effect uppercased s (.drop i) t := by
  obtain ⟨task, htask, hmap⟩ := Option.bind_eq_some_iff.mp h
  obtain ⟨next, hnext, rfl⟩ := Option.map_eq_some_iff.mp hmap
  cases task with
  | listing | clearing =>
    obtain rfl := Option.some.inj hnext
    exact .same rfl (lists_set htask rfl rfl)
  | adding messages =>
    cases messages with
    | nil => cases hnext
    | cons message rest =>
      obtain rfl := Option.some.inj hnext
      exact .same rfl (lists_set htask rfl rfl)
  | restoring | listed _ | cleared | finished => cases hnext

theorem listTo_eq {i : ℕ} {task : RuleTask} (htask : s.tasks[i]? = some task) :
    s.listTo i = task.reply.getD [] := by
  rw [listTo, htask, Option.bind_some]

theorem effect_of_resume {i : ℕ} (h : s.step uppercased (.resume i) = some t) :
    Effect uppercased s (.resume i) t := by
  obtain ⟨task, htask, hmap⟩ := Option.bind_eq_some_iff.mp h
  obtain ⟨next, hnext, rfl⟩ := Option.map_eq_some_iff.mp hmap
  cases task with
  | restoring | cleared =>
    obtain rfl := Option.some.inj hnext
    exact .same rfl (lists_set htask rfl (reply_loadRules s.stored))
  | listed rules =>
    obtain rfl := Option.some.inj hnext
    refine .saved i rules rfl htask rfl fun rules' => ?_
    rw [lists, lists, Rows.mem_keys_set htask, Rows.mem_keys_of_getElem? htask]
    simp [RuleTask.reply]
  | adding messages =>
    cases messages with
    | nil =>
      obtain rfl := Option.some.inj hnext
      exact .same rfl (lists_set htask rfl rfl)
    | cons message rest => cases hnext
  | listing | clearing | finished => cases hnext

theorem effect_of_step {label : RuleLabel} (h : s.step uppercased label = some t) :
    Effect uppercased s label t := by
  cases label with
  | startTunnel result =>
    obtain rfl := Option.some.inj h
    cases result with
    | throws => exact .same rfl rfl
    | runs | launches =>
      refine .same rfl ?_
      rw [lists, startTunnel, Rows.keys_append]
      exact List.append_nil _
  | sessionEnds =>
    obtain rfl := Option.some.inj h
    exact .same rfl rfl
  | loadRules =>
    obtain rfl := Option.some.inj h
    exact .same (stored_start s _) (lists_start rfl s)
  | applyPreset preset =>
    obtain rfl := Option.some.inj h
    refine .switched (switchedOn uppercased preset s.stored) rfl id ?_ (lists_start rfl _)
    rw [contents, stored_start]
    exact contents_applyPreset preset s.stored
  | disablePreset preset =>
    cases hdisabled : MacOS.disablePreset uppercased preset s.stored with
    | none =>
      simp only [step, hdisabled, Option.some.injEq] at h
      obtain rfl := h
      exact .same rfl rfl
    | some stored =>
      simp only [step, hdisabled, Option.some.injEq] at h
      obtain rfl := h
      refine .switched (switchedOff uppercased preset s.stored) rfl id ?_ (lists_start rfl _)
      rw [contents, stored_start]
      exact contents_disablePreset hdisabled
  | handle i => exact effect_of_handle h
  | drop i => exact effect_of_drop h
  | resume i => exact effect_of_resume h

theorem add_toList_le {stored listed : Multiset AddRuleMessage} {rule : Option AddRuleMessage}
    (hle : stored ≤ listed) (hroom : ∀ m ∈ rule, stored.count m < listed.count m) :
    stored + ↑rule.toList ≤ listed := by
  cases rule with
  | none => simpa using hle
  | some m =>
    rw [Multiset.le_iff_count] at hle ⊢
    intro m'
    have hm' := hle m'
    rw [Option.toList_some, Multiset.count_add, Multiset.coe_singleton,
      Multiset.count_singleton]
    split_ifs with hsame
    · rw [hsame]
      exact hroom m rfl
    · exact hm'

/-- Steps as the condition asks for keep all stored rules in all lists under way. -/
theorem Covers.step {label : RuleLabel} (hs : s.Covers) (hcurrent : s.ListsCurrent uppercased label)
    (h : s.step uppercased label = some t) : t.Covers := by
  intro rules hrules
  cases effect_of_step h with
  | same hstored hlists =>
    rw [contents, hstored]
    exact hs rules (hlists ▸ hrules)
  | switched rule hlabel hroom hcontents hlists =>
    rw [hlists] at hrules
    exact hcontents.trans
      (add_toList_le (hs rules hrules) fun m hm => hroom hcurrent m hm rules hrules)
  | listed i hlabel htask hstored hlists =>
    subst hlabel
    rw [contents, hstored]
    rcases (hlists rules).mp hrules with rfl | hrules
    · exact hcurrent htask
    · exact hs rules hrules
  | saved i rules' hlabel htask hstored hlists =>
    subst hlabel
    have hlist : s.listTo i = rules' := listTo_eq htask
    rw [contents, hstored, contents_saveRules, ← hlist]
    exact hcurrent rules ((hlists rules).mpr (.inr hrules))

theorem keepsStored_of_covers {label : RuleLabel} (hs : s.Covers)
    (h : s.step uppercased label = some t) : s.KeepsStored StoredRule.message label t := by
  intro hlabel
  cases effect_of_step h with
  | same hstored _ | listed _ _ _ hstored _ => exact le_of_eq (by rw [contents, contents, hstored])
  | switched _ husers => exact absurd hlabel (by simp [husers])
  | saved i rules _ _ hstored hlists =>
    have hrules : rules ∈ s.lists := (hlists rules).mpr (.inl rfl)
    rw [contents, contents, hstored, contents_saveRules]
    exact hs rules hrules

theorem keepsShown_of_covers {label : RuleLabel} (hs : s.Covers)
    (htitles : s.TitlesAgree uppercased label) (h : s.step uppercased label = some t) :
    s.KeepsStored StoredRule.shown label t := by
  intro hlabel
  cases effect_of_step h with
  | same hstored _ | listed _ _ _ hstored _ => exact le_of_eq (by rw [contents, contents, hstored])
  | switched _ husers => exact absurd hlabel (by simp [husers])
  | saved i rules hlabel htask hstored hlists =>
    subst hlabel
    have hlist : s.listTo i = rules := listTo_eq htask
    have hcovers : (s.stored.map StoredRule.message : Multiset AddRuleMessage) ≤ contentsOf rules :=
      hs rules ((hlists rules).mpr (.inl rfl))
    rw [contents, contents, hstored]
    rw [TitlesAgree, hlist] at htitles
    by_cases hnil : rules = []
    · subst hnil
      have hnone : s.stored.map StoredRule.message = [] :=
        (Multiset.coe_eq_zero _).mp (Multiset.le_zero.mp hcovers)
      rw [List.map_eq_nil_iff.mp hnone]
      exact le_refl _
    · obtain ⟨hcomplete, hagree⟩ := htitles hnil
      exact shown_saveRules hcomplete hagree hcovers

/-- What there should be is there, as long as only the user takes rules away. -/
theorem owedAfter_le {β : Type} [DecidableEq β] {view : StoredRule → β} {label : RuleLabel}
    {rules : Multiset β} (hkeeps : s.KeepsStored view label t) (hrules : rules ≤ s.contents view) :
    s.owedAfter view t label rules ≤ t.contents view := by
  rw [owedAfter]
  split_ifs with husers
  · rw [Multiset.le_iff_count] at hrules ⊢
    intro rule
    have hrule := hrules rule
    simp only [Multiset.count_add, Multiset.count_sub]
    omega
  · exact hrules.trans (hkeeps (by simpa using husers))

theorem owed_le {β : Type} [DecidableEq β] {view : StoredRule → β} {labels : List RuleLabel}
    {rules : Multiset β}
    (hkeeps : EachStep (step uppercased) (KeepsStored view) s labels)
    (hrun : run (step uppercased) s labels = some t) (hrules : rules ≤ s.contents view) :
    s.owed uppercased view labels rules ≤ t.contents view := by
  induction labels generalizing s rules with
  | nil =>
    obtain rfl := Option.some.inj hrun
    exact hrules
  | cons label labels ih =>
    obtain ⟨u, hu, hrest⟩ := run_cons_eq_some.mp hrun
    obtain ⟨hkept, htail⟩ := hkeeps u hu
    rw [owed, hu, Option.elim_some]
    exact ih htail hrest (owedAfter_le hkept hrules)

theorem covers_of_tasks (h : s.tasks = []) : s.Covers := by
  intro rules hrules
  rw [lists, h] at hrules
  cases hrules

def sshPreset : RulePreset where
  title := "ssh".toList
  processNames := "ssh".toList
  targetHosts := []
  targetPorts := []
  protocolName := "TCP".toList
  action := "PROXY".toList

/-- A rule for `ssh` and its twin, which is switched off, before the tunnel is started. -/
def stopped : AppState :=
  ⟨false, [sshPreset.stored, { sshPreset.stored with enabled := some false }], .launched, []⟩

/-- The tunnel restores the rules before they are listed. -/
def restored : List RuleLabel :=
  [.startTunnel .launches, .resume 0, .handle 0, .handle 0, .resume 0, .loadRules, .handle 1,
    .resume 1]

end AppState
end ProxyTun.MacOS
