import ProxyTun.Library.Transition
import ProxyTun.Rules.RuleStore

/-!
# The rule list of the Linux GUI

`g_rules_list` is what the window shows. Each handler changes it, passes the change on to the
engine, and may call `save_config`, which writes the whole list into `config.ini`.
-/
namespace ProxyTun.LinuxGui
open Windows (RuleStore RuleFields Allocation)

/-- A text that is null reads as an empty one everywhere, and is one here. -/
structure RuleData where
  id : BitVec 32
  processName : CStr
  targetHosts : CStr
  targetPorts : CStr
  protocol : RuleProtocol
  action : RuleAction
  enabled : Bool
  selected : Bool
  deriving DecidableEq, Repr

/-- What is passed to the engine. -/
def RuleData.fields (rule : RuleData) : RuleFields :=
  ⟨rule.processName, rule.targetHosts, rule.targetPorts, rule.protocol, rule.action⟩

/-- A row for a rule, which is not selected. -/
def newRow (id : BitVec 32) (fields : RuleFields) (enabled : Bool) : RuleData :=
  ⟨id, fields.processName, fields.targetHosts, fields.targetPorts, fields.protocol, fields.action,
    enabled, false⟩

/-- A rule that `on_rule_import_clicked` finds in a file. -/
structure ImportedRule extends RuleFields where
  enabled : Bool
  deriving DecidableEq, Repr

/-- A rule for all traffic of a process. -/
def wholeProcess (name : String) : RuleFields := ⟨name.toList, ['*'], ['*'], .both, .proxy⟩

structure GuiState where
  store : RuleStore
  /-- `g_rules_list`. -/
  rules : List RuleData
  /-- The rules that were written into `config.ini` last. -/
  saved : List RuleData
  deriving DecidableEq, Repr

/-- A completed operation, with the results of the engine's allocations. -/
inductive RuleOperation where
  | add (fields : RuleFields) (allocation : Allocation)
  | edit (row : ℕ) (fields : RuleFields) (copied : Bool)
  | toggle (row : ℕ) (enabled : Bool)
  | select (row : ℕ) (selected : Bool)
  | selectAll
  | delete (row : ℕ)
  | bulkDelete
  | importRules (found : List (ImportedRule × Allocation))
  deriving DecidableEq, Repr

def addToEngine (fields : RuleFields) (enabled : Bool) (allocation : Allocation)
    (store : RuleStore) : BitVec 32 × RuleStore :=
  let added := Linux.addRule allocation fields store
  if enabled then added else (added.1, (Linux.disableRule added.1 added.2).2)

/-- The loop of `main` that restores the rules, each of which gets a new id. -/
def restoreFrom (store : RuleStore) : List (RuleData × Allocation) → RuleStore × List RuleData
  | [] => (store, [])
  | (rule, allocation) :: rules =>
    let added := addToEngine rule.fields rule.enabled allocation store
    let rest := restoreFrom added.2 rules
    (rest.1, { rule with id := added.1 } :: rest.2)

def importFrom (store : RuleStore) : List (ImportedRule × Allocation) → RuleStore × List RuleData
  | [] => (store, [])
  | (rule, allocation) :: rules =>
    let added := addToEngine rule.toRuleFields rule.enabled allocation store
    let rest := importFrom added.2 rules
    (rest.1, newRow added.1 rule.toRuleFields rule.enabled :: rest.2)

namespace GuiState

/-- The state in which `main` enters its loop, with the rules that `load_config` has read. Without
the engine they are not restored. -/
def atStartup (started : Bool) (loaded : List (RuleData × Allocation)) : GuiState :=
  if started then
    let restored := restoreFrom RuleStore.empty loaded
    ⟨restored.1, restored.2, loaded.map Prod.fst⟩
  else ⟨RuleStore.empty, loaded.map Prod.fst, loaded.map Prod.fst⟩

/-- `save_config`. -/
def save (s : GuiState) : GuiState := { s with saved := s.rules }

/-- `on_save_rule` without a rule to edit. -/
def addRule (fields : RuleFields) (allocation : Allocation) (s : GuiState) : GuiState :=
  if fields.processName = [] then s
  else
    let added := Linux.addRule allocation fields s.store
    { s with store := added.2, rules := s.rules ++ [newRow added.1 fields true] }.save

/-- `on_save_rule` for a rule. Whether the engine has edited it is not looked at. -/
def editRule (row : ℕ) (rule : RuleData) (fields : RuleFields) (copied : Bool) (s : GuiState) :
    GuiState :=
  if fields.processName = [] then s
  else
    { s with
      store := (Linux.editRule copied rule.id fields s.store).2
      rules := s.rules.set row
        { newRow rule.id fields rule.enabled with selected := rule.selected } }.save

def toggleRule (row : ℕ) (rule : RuleData) (enabled : Bool) (s : GuiState) : GuiState :=
  { s with
    store := (if enabled then Linux.enableRule rule.id s.store
      else Linux.disableRule rule.id s.store).2
    rules := s.rules.set row { rule with enabled := enabled } }.save

def deleteRule (row : ℕ) (rule : RuleData) (s : GuiState) : GuiState :=
  { s with
    store := (Linux.deleteRule rule.id s.store).2
    rules := s.rules.eraseIdx row }.save

/-- `on_bulk_delete_clicked`. -/
def bulkDelete (s : GuiState) : GuiState :=
  { s with
    store := (s.rules.filter fun rule => rule.selected).foldl
      (fun store rule => (Linux.deleteRule rule.id store).2) s.store
    rules := s.rules.filter fun rule => !rule.selected }

def selectAll (s : GuiState) : GuiState :=
  let allSelected := s.rules.all fun rule => rule.selected
  { s with rules := s.rules.map fun rule => { rule with selected := !allSelected } }

/-- `on_rule_import_clicked`. -/
def importRules (found : List (ImportedRule × Allocation)) (s : GuiState) : GuiState :=
  let imported := importFrom s.store found
  { s with store := imported.1, rules := s.rules ++ imported.2 }

def step (s : GuiState) : RuleOperation → Option GuiState
  | .add fields allocation => some (s.addRule fields allocation)
  | .edit row fields copied => (s.rules[row]?).map fun rule => s.editRule row rule fields copied
  | .toggle row enabled => (s.rules[row]?).map fun rule => s.toggleRule row rule enabled
  | .select row selected => (s.rules[row]?).map fun rule =>
    { s with rules := s.rules.set row { rule with selected := selected } }
  | .selectAll => some s.selectAll
  | .delete row => (s.rules[row]?).map fun rule => s.deleteRule row rule
  | .bulkDelete => some s.bulkDelete
  | .importRules found => some (s.importRules found)

end GuiState

theorem length_importFrom (store : RuleStore) (rules : List (ImportedRule × Allocation)) :
    (importFrom store rules).2.length = rules.length := by
  induction rules generalizing store with
  | nil => rfl
  | cons rule rules ih => simp only [importFrom, List.length_cons, ih]

end ProxyTun.LinuxGui
