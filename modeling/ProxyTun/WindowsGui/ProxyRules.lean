import ProxyTun.Library.Transition
import ProxyTun.Rules.RuleStore

/-!
# The rule collection of the Windows GUI

The window shows the collection `ProxyRules`, and every operation on it calls the engine, which
keeps a list of its own. A rule of the collection knows the rule of the engine by its id, which
is 0 as long as the engine has none for it.
-/
namespace ProxyTun.WindowsGui
open Windows

def isWhiteSpace (c : Char) : Bool :=
  let n := c.toNat
  (9 ≤ n && n ≤ 13) || n = 0x20 || n = 0x85 || n = 0xA0 || n = 0x1680 ||
    (0x2000 ≤ n && n ≤ 0x200A) || n = 0x2028 || n = 0x2029 || n = 0x202F || n = 0x205F || n = 0x3000

/-- `string.IsNullOrWhiteSpace`. A text that is null is an empty one here. -/
def isBlank (text : CStr) : Bool := text.all isWhiteSpace

def defaultIfEmpty (text standard : CStr) : CStr := if isBlank text then standard else text

/-- The five texts of a rule. -/
structure RuleTexts where
  processName : CStr
  targetHosts : CStr
  targetPorts : CStr
  protocol : CStr
  action : CStr
  deriving DecidableEq, Repr

/-- A rule for all traffic of a process. -/
def wholeProcess (name : String) : RuleTexts :=
  ⟨name.toList, "*".toList, "*".toList, "TCP".toList, "PROXY".toList⟩

/-- A rule in `config.json`, and in a file of exported rules. -/
structure ProxyRuleConfig extends RuleTexts where
  isEnabled : Bool
  deriving DecidableEq, Repr

structure ProxyRule extends RuleTexts where
  ruleId : BitVec 32
  index : ℕ
  isEnabled : Bool
  isSelected : Bool
  deriving DecidableEq, Repr

/-- The switch over `action.ToUpper()`. Only the letters of ASCII are taken to upper case here, as
those of the words are. -/
def ruleAction (text : CStr) : RuleAction :=
  let upper := text.map Char.toUpper
  if upper = "DIRECT".toList then .direct
  else if upper = "BLOCK".toList then .block
  else .proxy

/-- The switch over `protocol.ToUpper()`, again for the letters of ASCII. -/
def ruleProtocol (text : CStr) : RuleProtocol :=
  let upper := text.map Char.toUpper
  if upper = "UDP".toList then .udp
  else if upper = "BOTH".toList || upper = "TCP+UDP".toList then .both
  else .tcp

/-- What `ProxyTunService` passes to the engine. -/
def RuleTexts.fields (texts : RuleTexts) : RuleFields :=
  ⟨texts.processName, texts.targetHosts, texts.targetPorts, ruleProtocol texts.protocol,
    ruleAction texts.action⟩

/-- How far `SetMainWindow` is: before it, at the given row of its loop, or behind it. -/
inductive Startup where
  | pending
  | registering (row : ℕ)
  | finished
  deriving DecidableEq, Repr

structure GuiState where
  store : RuleStore
  rules : List ProxyRule
  /-- `_proxyService` is not null. -/
  service : Bool
  startup : Startup
  deriving DecidableEq, Repr

def GuiState.initial : GuiState := ⟨.empty, [], false, .pending⟩

/-- How the service starts up. -/
inductive ServiceStart where
  | throws
  | fails
  | succeeds
  deriving DecidableEq, Repr

inductive RuleOperation where
  /-- `SetMainWindow` up to the start of the service, with the rules of the configuration. -/
  | load (configs : List ProxyRuleConfig) (start : ServiceStart)
  /-- A pass of the loop that registers the loaded rules. -/
  | register (allocation : Allocation)
  | add (texts : RuleTexts) (allocation : Allocation)
  | edit (ruleId : BitVec 32) (texts : RuleTexts) (copied : Bool)
  | delete (row : ℕ)
  | deleteSelected
  /-- A pass of the loop that imports the rules of a file. -/
  | importRule (config : ProxyRuleConfig) (allocation : Allocation)
  | drag (row target : ℕ)
  | setEnabled (row : ℕ) (enabled : Bool)
  | setSelected (row : ℕ) (selected : Bool)
  deriving DecidableEq, Repr

/-- The rule that `LoadConfiguration` makes of a rule in the file. Rules without a process are
skipped. -/
def loadRule (config : ProxyRuleConfig) : Option ProxyRule :=
  if isBlank config.processName then none
  else some
    { processName := config.processName
      targetHosts := defaultIfEmpty config.targetHosts "*".toList
      targetPorts := defaultIfEmpty config.targetPorts "*".toList
      protocol := defaultIfEmpty config.protocol "TCP".toList
      action := defaultIfEmpty config.action "PROXY".toList
      ruleId := 0, index := 0, isEnabled := config.isEnabled, isSelected := false }

namespace GuiState

def load (configs : List ProxyRuleConfig) (start : ServiceStart) (s : GuiState) : GuiState :=
  let rules := s.rules ++ configs.filterMap loadRule
  { s with
    rules := rules
    service := start ≠ .throws
    startup := if start = .succeeds && !rules.isEmpty then .registering 0 else .finished }

def registerRow (allocation : Allocation) (row : ℕ) (rule : ProxyRule) (s : GuiState) : GuiState :=
  let added := s.store.addRule allocation rule.fields
  { s with
    store := added.2
    rules := if added.1 ≠ 0 then s.rules.set row { rule with ruleId := added.1, index := row + 1 }
      else s.rules
    startup := if row + 1 = s.rules.length then .finished else .registering (row + 1) }

/-- A rule that the engine takes is put behind the others. -/
def append (rule : ProxyRule) (added : BitVec 32 × RuleStore) (s : GuiState) : GuiState :=
  { s with
    store := added.2
    rules := if added.1 ≠ 0 then
        s.rules ++ [{ rule with ruleId := added.1, index := s.rules.length + 1 }]
      else s.rules }

/-- `onAddRule`. -/
def addRule (texts : RuleTexts) (allocation : Allocation) (s : GuiState) : GuiState :=
  if s.service then
    s.append ⟨texts, 0, 0, true, false⟩ (s.store.addRule allocation texts.fields)
  else s

/-- The loop of `ImportRulesAsync`, which disables a rule that it has added. -/
def importRule (config : ProxyRuleConfig) (allocation : Allocation) (s : GuiState) : GuiState :=
  if s.service then
    let added := s.store.addRule allocation config.fields
    let t := s.append ⟨config.toRuleTexts, 0, 0, config.isEnabled, false⟩ added
    if added.1 ≠ 0 && !config.isEnabled then { t with store := (t.store.disableRule added.1).2 }
    else t
  else s

/-- The first rule with an id gets new texts. -/
def setTexts (ruleId : BitVec 32) (texts : RuleTexts) : List ProxyRule → List ProxyRule
  | [] => []
  | rule :: rules =>
    if rule.ruleId = ruleId then { rule with toRuleTexts := texts } :: rules
    else rule :: setTexts ruleId texts rules

/-- `SaveNewRuleCommand` for a rule that is edited. -/
def editRule (ruleId : BitVec 32) (texts : RuleTexts) (copied : Bool) (s : GuiState) : GuiState :=
  let edited := s.store.editRule copied ruleId texts.fields
  { s with
    store := edited.2
    rules := if edited.1 then setTexts ruleId texts s.rules else s.rules }

def deleteRule (row : ℕ) (rule : ProxyRule) (s : GuiState) : GuiState :=
  let deleted := s.store.deleteRule rule.ruleId
  { s with
    store := deleted.2
    rules := if deleted.1 then s.rules.eraseIdx row else s.rules }

/-- The loop of `DeleteSelectedRulesCommand`, behind the rows that it has kept. -/
def deleteSelectedFrom (store : RuleStore) (kept : List ProxyRule) :
    List ProxyRule → RuleStore × List ProxyRule
  | [] => (store, kept)
  | rule :: rules =>
    if rule.isSelected && (store.deleteRule rule.ruleId).1 then
      deleteSelectedFrom (store.deleteRule rule.ruleId).2 kept rules
    else deleteSelectedFrom store (kept ++ [rule]) rules

def deleteSelected (s : GuiState) : GuiState :=
  let deleted := deleteSelectedFrom s.store [] s.rules
  { s with store := deleted.1, rules := deleted.2 }

def renumber (rules : List ProxyRule) : List ProxyRule :=
  rules.mapIdx fun i rule => { rule with index := i + 1 }

/-- `Rules_Drop`. -/
def dropRule (row target : ℕ) (dragged targeted : ProxyRule) (s : GuiState) : Option GuiState :=
  if dragged.ruleId = targeted.ruleId || row = target then some s
  else
    (s.store.moveRuleToPosition dragged.ruleId (target + 1)).map fun moved =>
      { s with
        store := moved.2
        rules := if moved.1 then renumber ((s.rules.eraseIdx row).insertIdx target dragged)
          else s.rules }

/-- The switch of a row, which `Rule_PropertyChanged` passes on to the engine. -/
def switchRule (row : ℕ) (enabled : Bool) (rule : ProxyRule) (s : GuiState) : GuiState :=
  if rule.isEnabled = enabled then s
  else { s with
    rules := s.rules.set row { rule with isEnabled := enabled }
    store := if s.service then (s.store.setEnabled enabled rule.ruleId).2 else s.store }

/-- A command for a row, once `SetMainWindow` is through. -/
def atRow (row : ℕ) (f : ProxyRule → Option GuiState) (s : GuiState) : Option GuiState :=
  if s.startup = .finished then (s.rules[row]?).bind f else none

/-- Without a service the commands that need it do nothing. -/
def step (s : GuiState) : RuleOperation → Option GuiState
  | .load configs start => if s.startup = .pending then some (s.load configs start) else none
  | .register allocation =>
    match s.startup with
    | .registering row => (s.rules[row]?).map fun rule => s.registerRow allocation row rule
    | _ => none
  | .add texts allocation =>
    if s.startup = .finished then some (s.addRule texts allocation) else none
  | .edit ruleId texts copied =>
    if s.startup = .finished && s.service then some (s.editRule ruleId texts copied) else none
  | .delete row =>
    s.atRow row fun rule => some (if s.service then s.deleteRule row rule else s)
  | .deleteSelected =>
    if s.startup = .finished then some (if s.service then s.deleteSelected else s) else none
  | .importRule config allocation =>
    if s.startup = .finished then some (s.importRule config allocation) else none
  | .drag row target =>
    s.atRow row fun dragged => (s.rules[target]?).bind fun targeted =>
      if s.service then s.dropRule row target dragged targeted else some s
  | .setEnabled row enabled => s.atRow row fun rule => some (s.switchRule row enabled rule)
  | .setSelected row selected => s.atRow row fun rule =>
    some { s with rules := s.rules.set row { rule with isSelected := selected } }

/-- What a step does. Without a service the commands leave the rules alone. -/
inductive Stepped (s : GuiState) : RuleOperation → GuiState → Prop where
  | load (h : s.startup = .pending) (configs : List ProxyRuleConfig) (start : ServiceStart) :
    Stepped s (.load configs start) (s.load configs start)
  | register {row : ℕ} {rule : ProxyRule} (h : s.startup = .registering row)
      (hrule : s.rules[row]? = some rule) (allocation : Allocation) :
    Stepped s (.register allocation) (s.registerRow allocation row rule)
  | idle (h : s.startup = .finished) (hservice : s.service = false) (op : RuleOperation) :
    Stepped s op s
  | add (h : s.startup = .finished) (hservice : s.service = true) (texts : RuleTexts)
      (allocation : Allocation) : Stepped s (.add texts allocation) (s.addRule texts allocation)
  | edit (h : s.startup = .finished) (hservice : s.service = true) (ruleId : BitVec 32)
      (texts : RuleTexts) (copied : Bool) :
    Stepped s (.edit ruleId texts copied) (s.editRule ruleId texts copied)
  | delete (h : s.startup = .finished) (hservice : s.service = true) {row : ℕ} {rule : ProxyRule}
      (hrule : s.rules[row]? = some rule) : Stepped s (.delete row) (s.deleteRule row rule)
  | deleteSelected (h : s.startup = .finished) (hservice : s.service = true) :
    Stepped s .deleteSelected s.deleteSelected
  | importRule (h : s.startup = .finished) (hservice : s.service = true)
      (config : ProxyRuleConfig) (allocation : Allocation) :
    Stepped s (.importRule config allocation) (s.importRule config allocation)
  | drag (h : s.startup = .finished) (hservice : s.service = true) {row target : ℕ}
      {dragged targeted : ProxyRule} {t : GuiState} (hdragged : s.rules[row]? = some dragged)
      (htargeted : s.rules[target]? = some targeted)
      (hdrop : s.dropRule row target dragged targeted = some t) : Stepped s (.drag row target) t
  | setEnabled (h : s.startup = .finished) {row : ℕ} {rule : ProxyRule}
      (hrule : s.rules[row]? = some rule) (enabled : Bool) :
    Stepped s (.setEnabled row enabled) (s.switchRule row enabled rule)
  | setSelected (h : s.startup = .finished) {row : ℕ} {rule : ProxyRule}
      (hrule : s.rules[row]? = some rule) (selected : Bool) :
    Stepped s (.setSelected row selected)
      { s with rules := s.rules.set row { rule with isSelected := selected } }

variable {s t : GuiState}

theorem atRow_eq_some {row : ℕ} {f : ProxyRule → Option GuiState} (h : s.atRow row f = some t) :
    s.startup = .finished ∧ ∃ rule, s.rules[row]? = some rule ∧ f rule = some t := by
  unfold atRow at h
  split_ifs at h with hfinished
  exact ⟨hfinished, Option.bind_eq_some_iff.mp h⟩

theorem stepped_of_step {op : RuleOperation} (h : s.step op = some t) : Stepped s op t := by
  cases op with
  | load configs start =>
    simp only [step, Option.ite_none_right_eq_some, Option.some.injEq] at h
    obtain ⟨hpending, rfl⟩ := h
    exact .load hpending configs start
  | register allocation =>
    unfold step at h
    dsimp only at h
    split at h
    · rename_i row hstartup
      obtain ⟨rule, hrule, rfl⟩ := Option.map_eq_some_iff.mp h
      exact .register hstartup hrule allocation
    · cases h
  | add texts allocation =>
    simp only [step, Option.ite_none_right_eq_some, Option.some.injEq] at h
    obtain ⟨hfinished, rfl⟩ := h
    cases hservice : s.service with
    | true => exact .add hfinished hservice texts allocation
    | false =>
      rw [addRule, hservice]
      exact .idle hfinished hservice _
  | edit ruleId texts copied =>
    simp only [step, Option.ite_none_right_eq_some, Option.some.injEq, Bool.and_eq_true,
      decide_eq_true_eq] at h
    obtain ⟨⟨hfinished, hservice⟩, rfl⟩ := h
    exact .edit hfinished hservice ruleId texts copied
  | delete row =>
    obtain ⟨hfinished, rule, hrule, hdelete⟩ := atRow_eq_some h
    obtain rfl := Option.some.inj hdelete
    split_ifs with hservice
    · exact .delete hfinished hservice hrule
    · exact .idle hfinished (by simpa using hservice) _
  | deleteSelected =>
    simp only [step, Option.ite_none_right_eq_some, Option.some.injEq] at h
    obtain ⟨hfinished, rfl⟩ := h
    split_ifs with hservice
    · exact .deleteSelected hfinished hservice
    · exact .idle hfinished (by simpa using hservice) _
  | importRule config allocation =>
    simp only [step, Option.ite_none_right_eq_some, Option.some.injEq] at h
    obtain ⟨hfinished, rfl⟩ := h
    cases hservice : s.service with
    | true => exact .importRule hfinished hservice config allocation
    | false =>
      rw [importRule, hservice]
      exact .idle hfinished hservice _
  | drag row target =>
    obtain ⟨hfinished, dragged, hdragged, htarget⟩ := atRow_eq_some h
    obtain ⟨targeted, htargeted, hdrop⟩ := Option.bind_eq_some_iff.mp htarget
    split_ifs at hdrop with hservice
    · exact .drag hfinished hservice hdragged htargeted hdrop
    · obtain rfl := Option.some.inj hdrop
      exact .idle hfinished (by simpa using hservice) _
  | setEnabled row enabled =>
    obtain ⟨hfinished, rule, hrule, hswitch⟩ := atRow_eq_some h
    obtain rfl := Option.some.inj hswitch
    exact .setEnabled hfinished hrule enabled
  | setSelected row selected =>
    obtain ⟨hfinished, rule, hrule, hset⟩ := atRow_eq_some h
    obtain rfl := Option.some.inj hset
    exact .setSelected hfinished hrule selected

end GuiState
end ProxyTun.WindowsGui
