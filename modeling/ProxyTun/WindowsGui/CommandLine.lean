import ProxyTun.Core.RuleEvaluation
import ProxyTun.WindowsGui.DragRule
import ProxyTun.WindowsGui.LoadConfiguration

/-!
# Exported rules on the command line

An export has the rules in the order of the rows. The command line adds those that are switched on
in the order of the file, so that its engine has them from last to first. So has the engine of the
GUI, unless rows have been dragged.
-/
namespace ProxyTun.Cli
open WindowsGui Windows

/-- `ParsingHelpers.ParseProtocol`, which throws for any other word. `ToUpper` is modelled for the
letters of ASCII. -/
def parseProtocol (text : CStr) : Option RuleProtocol :=
  let upper := text.map Char.toUpper
  if upper = "TCP".toList then some .tcp
  else if upper = "UDP".toList then some .udp
  else if upper = "BOTH".toList then some .both
  else none

/-- `ParsingHelpers.ParseAction`, which throws for any other word. `ToUpper` is modelled for the
letters of ASCII. -/
def parseAction (text : CStr) : Option RuleAction :=
  let upper := text.map Char.toUpper
  if upper = "PROXY".toList then some .proxy
  else if upper = "DIRECT".toList then some .direct
  else if upper = "BLOCK".toList then some .block
  else none

/-- `LoadRulesFromFile`, which skips the rules that are switched off. -/
def loadRulesFromFile : List ProxyRuleConfig → Option (List RuleFields)
  | [] => some []
  | rule :: file =>
    if rule.isEnabled then do
      let protocol ← parseProtocol rule.protocol
      let action ← parseAction rule.action
      let rules ← loadRulesFromFile file
      return ⟨rule.processName, rule.targetHosts, rule.targetPorts, protocol, action⟩ :: rules
    else loadRulesFromFile file

/-- The loop of `RunProxyTun` that adds the rules, as long as there is memory. -/
def addRules (rules : List RuleFields) (store : RuleStore) : RuleStore :=
  rules.foldl (fun store fields => (store.addRule .succeeds fields).2) store

/-- The engine of the command line that is started with a rule file. -/
def runProxyTun (file : List ProxyRuleConfig) : Option RuleStore :=
  (loadRulesFromFile file).map fun rules => addRules rules .empty

/-- The command line knows the words of the rule, and its engine takes it. -/
def Understood (texts : RuleTexts) : Prop :=
  texts.processName ≠ [] ∧ (parseProtocol texts.protocol).isSome ∧
    (parseAction texts.action).isSome

instance (texts : RuleTexts) : Decidable (Understood texts) :=
  inferInstanceAs (Decidable (_ ∧ _ ∧ _))

variable {texts : RuleTexts}

/-- A word that the command line knows means the same in the GUI. -/
theorem parseProtocol_eq (h : (parseProtocol texts.protocol).isSome) :
    parseProtocol texts.protocol = some (ruleProtocol texts.protocol) := by
  unfold parseProtocol ruleProtocol at *
  dsimp only at *
  split_ifs at * <;> simp_all

theorem parseAction_eq (h : (parseAction texts.action).isSome) :
    parseAction texts.action = some (ruleAction texts.action) := by
  unfold parseAction ruleAction at *
  dsimp only at *
  split_ifs at * <;> simp_all

theorem loadRulesFromFile_eq {file : List ProxyRuleConfig}
    (h : ∀ rule ∈ file, rule.isEnabled = true → Understood rule.toRuleTexts) :
    loadRulesFromFile file =
      some ((file.filter fun rule => rule.isEnabled).map fun rule => rule.fields) := by
  induction file with
  | nil => rfl
  | cons rule file ih =>
    obtain ⟨hrule, hrest⟩ := List.forall_mem_cons.mp h
    rw [loadRulesFromFile, ih hrest]
    cases henabled : rule.isEnabled with
    | true =>
      obtain ⟨-, hprotocol, haction⟩ := hrule henabled
      rw [if_pos rfl, parseProtocol_eq hprotocol, parseAction_eq haction,
        List.filter_cons_of_pos henabled]
      rfl
    | false => rw [if_neg Bool.false_ne_true, List.filter_cons_of_neg (by simp [henabled])]

theorem rules_addRules {rules : List RuleFields} (h : ∀ fields ∈ rules, fields.processName ≠ [])
    (store : RuleStore) :
    ∃ added, (addRules rules store).rules = added.reverse ++ store.rules ∧
      List.Forall₂ (fun fields rule => ∃ ruleId, rule = RuleFields.rule fields ruleId) rules
        added := by
  induction rules generalizing store with
  | nil => exact ⟨[], rfl, .nil⟩
  | cons fields rules ih =>
    obtain ⟨hfields, hrest⟩ := List.forall_mem_cons.mp h
    obtain ⟨added, hrules, hadded⟩ := ih hrest (store.addRule .succeeds fields).2
    refine ⟨fields.rule store.nextRuleId :: added, ?_, .cons ⟨_, rfl⟩ hadded⟩
    rw [addRules, List.foldl_cons, ← addRules, hrules]
    simp [RuleStore.addRule, hfields]

end ProxyTun.Cli

namespace ProxyTun.WindowsGui
open Library Library.Transition Windows

def ProxyRule.engineRule (rule : ProxyRule) : Rule :=
  { rule.fields.rule rule.ruleId with enabled := rule.isEnabled }

/-- The engine has the rules of the rows, in any order. -/
structure Matched (store : RuleStore) (rules : List ProxyRule) : Prop where
  valid : store.Valid
  stored : store.rules.Perm (rules.map ProxyRule.engineRule)

namespace Matched

variable {store : RuleStore} {rules : List ProxyRule} (h : Matched store rules)
include h

theorem ids : store.ids.Perm (rules.map fun rule => rule.ruleId) := by
  have hids := h.stored.map fun rule : Rule => rule.ruleId
  rwa [List.map_map] at hids

theorem nodup : (rules.map fun rule => rule.ruleId).Nodup := h.ids.nodup h.valid.nodup

theorem finds {rule : ProxyRule} (hrule : rule ∈ rules) : store.finds rule.ruleId = true :=
  h.valid.finds_of_mem (h.ids.symm.subset (List.mem_map_of_mem hrule))

/-- Where the engine has the rules from last to first by their ids, it has them so altogether. -/
theorem reversed (horder : store.ids = (rules.map fun rule => rule.ruleId).reverse) :
    store.rules = (rules.map ProxyRule.engineRule).reverse := by
  have hperm : store.rules.Perm (rules.map ProxyRule.engineRule).reverse :=
    h.stored.trans (List.reverse_perm _).symm
  have hids : store.rules.map (fun rule => rule.ruleId) =
      (rules.map ProxyRule.engineRule).reverse.map fun rule => rule.ruleId := by
    rw [List.map_reverse, List.map_map]
    exact horder
  apply List.ext_getElem hperm.length_eq
  intro n hn hn'
  apply List.inj_on_of_nodup_map h.valid.nodup (List.getElem_mem hn)
    (hperm.symm.subset (List.getElem_mem hn'))
  have hat := List.getElem_of_eq hids (i := n) ((List.length_map _).symm ▸ hn)
  rwa [List.getElem_map, List.getElem_map] at hat

theorem of_map {rules' : List ProxyRule}
    (hengine : rules'.map ProxyRule.engineRule = rules.map ProxyRule.engineRule) :
    Matched store rules' :=
  ⟨h.valid, hengine ▸ h.stored⟩

/-- A rule is put in front, and its row behind the others. -/
theorem append {t : RuleStore} (hvalid : t.Valid) {new : ProxyRule}
    (hstored : t.rules = new.engineRule :: store.rules) : Matched t (rules ++ [new]) := by
  refine ⟨hvalid, ?_⟩
  rw [hstored, List.map_append, List.map_singleton]
  exact (h.stored.cons _).trans (List.perm_append_singleton _ _).symm

theorem refuse (hnext : store.nextRuleId ≠ 0) {allocation : Allocation} {fields : RuleFields}
    (hid : (store.addRule allocation fields).1 = 0) :
    Matched (store.addRule allocation fields).2 rules := by
  have hnot : RuleStore.taken allocation fields = false := by
    rw [← Bool.not_eq_true, ← RuleStore.addRule_ne_zero_iff hnext, not_not]
    exact hid
  refine ⟨h.valid.addRule hnext allocation fields, ?_⟩
  rw [(RuleStore.addRule_of_not_taken hnot).2.1]
  exact h.stored

theorem add (hnext : store.nextRuleId ≠ 0) {allocation : Allocation} {fields : RuleFields}
    (hid : (store.addRule allocation fields).1 ≠ 0) {new : ProxyRule}
    (hrule : new.engineRule = fields.rule (store.addRule allocation fields).1) :
    Matched (store.addRule allocation fields).2 (rules ++ [new]) := by
  obtain ⟨hnextId, hrules⟩ := RuleStore.addRule_succeeds hid
  refine h.append (h.valid.addRule hnext allocation fields) ?_
  rw [hrules, hrule, hnextId]

theorem addDisabled (hnext : store.nextRuleId ≠ 0) {allocation : Allocation} {fields : RuleFields}
    (hid : (store.addRule allocation fields).1 ≠ 0) {new : ProxyRule}
    (hrule : new.engineRule =
      { fields.rule (store.addRule allocation fields).1 with enabled := false }) :
    Matched ((store.addRule allocation fields).2.disableRule
      (store.addRule allocation fields).1).2 (rules ++ [new]) := by
  obtain ⟨hnextId, hrules⟩ := RuleStore.addRule_succeeds hid
  have hhead := RuleStore.disableRule_head hrules hnext
  rw [RuleFields.rule_ruleId, ← hnextId] at hhead
  have hvalid : ((store.addRule allocation fields).2.disableRule
      (store.addRule allocation fields).1).2.Valid := by
    have hadded := h.valid.addRule hnext allocation fields
    exact hadded.of_perm (.of_eq (RuleStore.ids_setEnabled _)) (by rw [hhead])
  refine h.append hvalid ?_
  rw [hhead, hrule]
  rfl

theorem update (ruleId : BitVec 32) {f : Rule → Rule} {g : ProxyRule → ProxyRule}
    (hid : ∀ rule, (f rule).ruleId = rule.ruleId)
    (hfg : ∀ rule, (g rule).engineRule = f rule.engineRule) :
    Matched (store.update ruleId f)
      (rules.map fun rule => if rule.ruleId = ruleId then g rule else rule) := by
  refine ⟨h.valid.of_perm (.of_eq (RuleStore.ids_update hid)) rfl, ?_⟩
  have hchanged : (rules.map fun rule => if rule.ruleId = ruleId then g rule else rule).map
      ProxyRule.engineRule =
      (rules.map ProxyRule.engineRule).map fun rule =>
        if rule.ruleId = ruleId then f rule else rule := by
    rw [List.map_map, List.map_map]
    apply List.map_congr_left
    intro rule _
    have hsame : rule.engineRule.ruleId = rule.ruleId := rfl
    simp only [Function.comp_apply, hsame]
    split_ifs
    · exact hfg rule
    · rfl
  rw [hchanged, RuleStore.update, updateRule_eq_map f h.valid.nodup]
  exact h.stored.map _

theorem delete {row : ℕ} {rule : ProxyRule} (hrule : rules[row]? = some rule) :
    Matched (store.deleteRule rule.ruleId).2 (rules.eraseIdx row) := by
  have hfinds := h.finds (List.mem_of_getElem? hrule)
  refine ⟨h.valid.deleteRule rule.ruleId, ?_⟩
  have hothers : (rules.eraseIdx row).map ProxyRule.engineRule =
      (rules.map ProxyRule.engineRule).filter fun other => other.ruleId ≠ rule.ruleId := by
    rw [List.filter_map, Rows.eraseIdx_eq_filter h.nodup hrule]
    rfl
  rw [RuleStore.deleteRule, if_pos hfinds, hothers, eraseP_eq_filter h.valid.nodup]
  exact h.stored.filter _

theorem move {t : RuleStore} {rules' : List ProxyRule} (hnext : t.nextRuleId = store.nextRuleId)
    (hstored : t.rules.Perm store.rules) (hrules : rules'.Perm rules) : Matched t rules' :=
  ⟨h.valid.of_perm (hstored.map _) hnext, (hstored.trans h.stored).trans (hrules.map _).symm⟩

end Matched

theorem setTexts_eq_map {rules : List ProxyRule} (ruleId : BitVec 32) (texts : RuleTexts)
    (hnodup : (rules.map fun rule => rule.ruleId).Nodup) :
    GuiState.setTexts ruleId texts rules = rules.map fun rule =>
      if rule.ruleId = ruleId then { rule with toRuleTexts := texts } else rule := by
  induction rules with
  | nil => rfl
  | cons rule rules ih =>
    obtain ⟨hnot, hrest⟩ := List.nodup_cons.mp hnodup
    unfold GuiState.setTexts
    rw [List.map_cons]
    split_ifs with hid
    · rw [Rows.map_of_name_not_mem (hid ▸ hnot)]
    · rw [ih hrest]

namespace GuiState

def registered (s : GuiState) : List ProxyRule :=
  match s.startup with
  | .pending => []
  | .registering row => s.rules.take row
  | .finished => s.rules

/-- `ExportSelectedRulesAsync`. -/
def exportSelectedRules (s : GuiState) : List ProxyRuleConfig :=
  (s.rules.filter fun rule => rule.isSelected).map ProxyRule.saved

/-- Every loaded rule is switched on and gets registered, and a rule is edited as a whole. -/
def KeepsMeaning (s : GuiState) : RuleOperation → Prop
  | .load configs start =>
    (∀ rule ∈ configs.filterMap loadRule, rule.isEnabled = true ∧ rule.processName ≠ []) ∧
      (start = .succeeds ∨ configs.filterMap loadRule = [])
  | .register allocation => allocation = .succeeds
  | .edit ruleId texts copied =>
    s.store.finds ruleId = false ∨
      copied = true ∧ texts.targetHosts ≠ [] ∧ texts.targetPorts ≠ []
  | _ => True

instance (s : GuiState) : ∀ op, Decidable (s.KeepsMeaning op)
  | .load configs start =>
    inferInstanceAs (Decidable ((∀ rule ∈ configs.filterMap loadRule,
      rule.isEnabled = true ∧ rule.processName ≠ []) ∧
        (start = .succeeds ∨ configs.filterMap loadRule = [])))
  | .register allocation => inferInstanceAs (Decidable (allocation = .succeeds))
  | .edit ruleId texts copied =>
    inferInstanceAs (Decidable (s.store.finds ruleId = false ∨
      copied = true ∧ texts.targetHosts ≠ [] ∧ texts.targetPorts ≠ []))
  | .add .. | .importRule .. | .drag .. | .setEnabled .. | .delete _ | .deleteSelected
  | .setSelected .. => .isTrue trivial

/-- What every operation keeps. -/
structure Mirrored (s : GuiState) : Prop where
  matched : Matched s.store s.registered
  waiting : ∀ rule ∈ s.unregistered, rule.isEnabled = true ∧ rule.processName ≠ []
  pending : s.startup = .pending → s.rules = []
  idle : s.service = false → s.rules = []

variable {s t : GuiState}

theorem mirrored_initial : initial.Mirrored :=
  ⟨⟨RuleStore.valid_empty, .nil⟩, nofun, fun _ => rfl, fun _ => rfl⟩

theorem mirrored_of_finished (hfinished : t.startup = .finished)
    (hmatched : Matched t.store t.rules) (hidle : t.service = false → t.rules = []) :
    t.Mirrored := by
  refine ⟨?_, ?_, ?_, hidle⟩
  · rwa [registered, hfinished]
  · simp [unregistered, hfinished]
  · simp [hfinished]

theorem mirrored_of_service (hfinished : t.startup = .finished) (hservice : t.service = true)
    (hmatched : Matched t.store t.rules) : t.Mirrored := by
  apply mirrored_of_finished hfinished hmatched
  intro hnot
  rw [hservice] at hnot
  cases hnot

theorem Mirrored.finished (h : s.Mirrored) (hfinished : s.startup = .finished) :
    Matched s.store s.rules := by
  have hmatched := h.matched
  rwa [registered, hfinished] at hmatched

theorem Mirrored.service (h : s.Mirrored) {row : ℕ} {rule : ProxyRule}
    (hrule : s.rules[row]? = some rule) : s.service = true := by
  cases hservice : s.service with
  | true => rfl
  | false =>
    rw [h.idle hservice] at hrule
    cases hrule

theorem Mirrored.load (h : s.Mirrored) (hpending : s.startup = .pending)
    {configs : List ProxyRuleConfig} {start : ServiceStart}
    (hkeeps : s.KeepsMeaning (.load configs start)) : (s.load configs start).Mirrored := by
  obtain ⟨hloaded, hstart⟩ := hkeeps
  have hnone : Matched s.store [] := by
    have hmatched := h.matched
    rwa [registered, hpending] at hmatched
  have hrules : (s.load configs start).rules = configs.filterMap loadRule := by
    rw [GuiState.load, h.pending hpending]
    rfl
  by_cases hempty : configs.filterMap loadRule = []
  · have hfinished : (s.load configs start).startup = .finished := by
      simp [GuiState.load, h.pending hpending, hempty]
    apply mirrored_of_finished hfinished
    · rw [hrules, hempty]
      exact hnone
    · exact fun _ => hrules.trans hempty
  · obtain rfl := hstart.resolve_right hempty
    have hstartup : (s.load configs .succeeds).startup = .registering 0 := by
      simp [GuiState.load, h.pending hpending, hempty]
    refine ⟨?_, ?_, ?_, ?_⟩
    · rw [registered, hstartup]
      exact hnone
    · rw [unregistered, hstartup]
      dsimp only
      rw [List.drop_zero, hrules]
      exact hloaded
    · simp [hstartup]
    · simp [GuiState.load]

theorem take_registerRow {row : ℕ} {rule : ProxyRule} (hrule : s.rules[row]? = some rule)
    {allocation : Allocation} (hid : (s.store.addRule allocation rule.fields).1 ≠ 0) :
    (s.registerRow allocation row rule).registered = s.rules.take row ++
      [{ rule with
        ruleId := (s.store.addRule allocation rule.fields).1, index := row + 1 }] ∧
      ∀ waiting ∈ (s.registerRow allocation row rule).unregistered,
        waiting ∈ s.rules.drop row := by
  obtain ⟨hlength, -⟩ := List.getElem?_eq_some_iff.mp hrule
  have hrules : (s.registerRow allocation row rule).rules =
      s.rules.take row ++ { rule with
        ruleId := (s.store.addRule allocation rule.fields).1, index := row + 1 } ::
          s.rules.drop (row + 1) := by
    rw [← Rows.set_eq hrule]
    exact if_pos hid
  have hbefore : (s.rules.take row).length = row := (Rows.split_at hrule).2
  by_cases hlast : row + 1 = s.rules.length
  · have hfinished : (s.registerRow allocation row rule).startup = .finished := if_pos hlast
    rw [registered, unregistered, hfinished]
    dsimp only
    rw [hrules, List.drop_eq_nil_of_le (by omega)]
    exact ⟨rfl, fun _ hnone => absurd hnone List.not_mem_nil⟩
  · have hnext : (s.registerRow allocation row rule).startup = .registering (row + 1) :=
      if_neg hlast
    rw [registered, unregistered, hnext]
    dsimp only
    rw [hrules]
    constructor
    · rw [List.take_append, hbefore, List.take_of_length_le (by omega)]
      simp
    · intro waiting hwaiting
      rw [List.drop_append, hbefore, List.drop_eq_nil_of_le (by omega)] at hwaiting
      have hmem : waiting ∈ s.rules.drop (row + 1) := by simpa using hwaiting
      rw [← List.drop_drop] at hmem
      exact List.mem_of_mem_drop hmem

theorem Mirrored.register (h : s.Mirrored) {row : ℕ} {rule : ProxyRule}
    (hstartup : s.startup = .registering row) (hrule : s.rules[row]? = some rule)
    (hnext : s.store.nextRuleId ≠ 0) : (s.registerRow .succeeds row rule).Mirrored := by
  have hwaiting := h.waiting
  have hmatched := h.matched
  rw [unregistered, hstartup] at hwaiting
  rw [registered, hstartup] at hmatched
  dsimp only at hwaiting hmatched
  obtain ⟨hlength, hat⟩ := List.getElem?_eq_some_iff.mp hrule
  have hmem : rule ∈ s.rules.drop row := by
    rw [List.drop_eq_getElem_cons hlength, hat]
    exact List.mem_cons_self
  obtain ⟨henabled, hname⟩ := hwaiting rule hmem
  have hid : (s.store.addRule .succeeds rule.fields).1 ≠ 0 := by
    rw [RuleStore.addRule_ne_zero_iff hnext, RuleStore.taken, Bool.and_eq_true]
    exact ⟨rfl, decide_eq_true hname⟩
  obtain ⟨hregistered, hunregistered⟩ := take_registerRow hrule hid
  refine ⟨?_, fun rule hrule => hwaiting rule (hunregistered rule hrule), ?_, ?_⟩
  · rw [hregistered]
    refine hmatched.add hnext hid ?_
    simp [ProxyRule.engineRule, henabled, RuleFields.rule, RuleTexts.fields]
  · intro hpending
    unfold registerRow at hpending
    dsimp only at hpending
    split_ifs at hpending
  · exact fun hnot => absurd ((h.service hrule).symm.trans hnot) (by simp)

theorem Mirrored.add (h : s.Mirrored) (hfinished : s.startup = .finished)
    (hservice : s.service = true) {texts : RuleTexts} {allocation : Allocation}
    (hnext : s.store.nextRuleId ≠ 0) : (s.addRule texts allocation).Mirrored := by
  have hmatched := h.finished hfinished
  rw [addRule, if_pos hservice]
  refine mirrored_of_service hfinished hservice ?_
  unfold append
  dsimp only
  split_ifs with hid
  · exact hmatched.add hnext hid rfl
  · exact hmatched.refuse hnext (not_not.mp hid)

theorem Mirrored.importRule (h : s.Mirrored) (hfinished : s.startup = .finished)
    (hservice : s.service = true) {config : ProxyRuleConfig} {allocation : Allocation}
    (hnext : s.store.nextRuleId ≠ 0) : (s.importRule config allocation).Mirrored := by
  have hmatched := h.finished hfinished
  obtain ⟨-, -, hrules, hstartup, hstays⟩ := importRule_frame hservice config allocation
  apply mirrored_of_service (hstartup.trans hfinished) (hstays.trans hservice)
  rw [hrules]
  unfold GuiState.importRule append
  rw [if_pos hservice]
  dsimp only
  by_cases hid : (s.store.addRule allocation config.fields).1 = 0
  · rw [if_neg (not_not.mpr hid), if_neg (by simp [hid])]
    exact hmatched.refuse hnext hid
  · rw [if_pos hid]
    cases henabled : config.isEnabled with
    | true =>
      rw [if_neg (by simp)]
      exact hmatched.add hnext hid rfl
    | false =>
      rw [if_pos (by simpa using hid)]
      exact hmatched.addDisabled hnext hid rfl

theorem Mirrored.edit (h : s.Mirrored) (hfinished : s.startup = .finished)
    {ruleId : BitVec 32} {texts : RuleTexts} {copied : Bool}
    (hservice : s.service = true) (hkeeps : s.KeepsMeaning (.edit ruleId texts copied)) :
    (s.editRule ruleId texts copied).Mirrored := by
  have hmatched := h.finished hfinished
  refine mirrored_of_service hfinished hservice ?_
  unfold editRule RuleStore.editRule
  dsimp only
  by_cases hfinds : s.store.finds ruleId = true
  · obtain ⟨rfl, hhosts, hports⟩ := hkeeps.resolve_left (by simp [hfinds])
    rw [if_pos hfinds, if_pos rfl, setTexts_eq_map ruleId texts hmatched.nodup]
    refine hmatched.update ruleId (RuleStore.edited_ruleId true texts.fields) fun rule => ?_
    simp [ProxyRule.engineRule, RuleStore.edited, RuleFields.rule, orEverything, RuleTexts.fields,
      hhosts, hports]
  · rw [if_neg hfinds, if_neg Bool.false_ne_true]
    exact hmatched

theorem Mirrored.drag (h : s.Mirrored) (hfinished : s.startup = .finished)
    (hservice : s.service = true) {row target : ℕ} {dragged targeted : ProxyRule}
    (hdragged : s.rules[row]? = some dragged) (htargeted : s.rules[target]? = some targeted)
    (hdrop : s.dropRule row target dragged targeted = some t) : t.Mirrored := by
  rcases dropRule_cases hdragged htargeted hdrop with
    ⟨rfl, -⟩ | ⟨-, -, hnext, hservice', hstartup, hrules, rule, -, hperm, hstored⟩
  · exact h
  · have hmoved := (h.finished hfinished).move hnext (RuleStore.perm_moved hperm hstored)
      (perm_dropped hdragged htargeted)
    apply mirrored_of_service (hstartup.trans hfinished) (hservice'.trans hservice)
    rw [hrules]
    exact hmoved.of_map (map_renumber (fun _ _ => rfl) _)

theorem Mirrored.setEnabled (h : s.Mirrored) (hfinished : s.startup = .finished) {row : ℕ}
    {rule : ProxyRule} (hrule : s.rules[row]? = some rule) (enabled : Bool) :
    (s.switchRule row enabled rule).Mirrored := by
  have hmatched := h.finished hfinished
  have hservice := h.service hrule
  have hmem := List.mem_of_getElem? hrule
  unfold switchRule
  by_cases hsame : rule.isEnabled = enabled
  · rwa [if_pos hsame]
  · rw [if_neg hsame]
    refine mirrored_of_service hfinished hservice ?_
    dsimp only
    rw [if_pos hservice, RuleStore.setEnabled, if_pos (hmatched.finds hmem),
      Rows.set_eq_map hmatched.nodup hrule fun rule => { rule with isEnabled := enabled }]
    exact hmatched.update rule.ruleId (fun _ => rfl) fun _ => rfl

theorem Mirrored.setSelected (h : s.Mirrored) (hfinished : s.startup = .finished) {row : ℕ}
    {rule : ProxyRule} (hrule : s.rules[row]? = some rule) (selected : Bool) :
    Mirrored { s with rules := s.rules.set row { rule with isSelected := selected } } := by
  have hmatched := h.finished hfinished
  refine mirrored_of_service hfinished (h.service hrule) ?_
  exact hmatched.of_map (Rows.map_set hrule rfl)

theorem Mirrored.step (h : s.Mirrored) {op : RuleOperation} (hleft : s.IdsLeft op)
    (hkeeps : s.KeepsMeaning op) (hstep : s.step op = some t) : t.Mirrored := by
  have hdelete (store : RuleStore) (rules : List ProxyRule) (row : ℕ) (rule : ProxyRule)
      (hmatched : Matched store rules) (hrule : rules[row]? = some rule)
      (_ : (store.deleteRule rule.ruleId).1 = true) :
      Matched (store.deleteRule rule.ruleId).2 (rules.eraseIdx row) := hmatched.delete hrule
  cases stepped_of_step hstep with
  | load hpending configs start => exact h.load hpending hkeeps
  | register hstartup hrule allocation =>
    obtain rfl : allocation = .succeeds := hkeeps
    exact h.register hstartup hrule (hleft (by simp [offered, hstartup, hrule]))
  | idle => exact h
  | add hfinished hservice =>
    exact h.add hfinished hservice (hleft (by simp [offered, hservice]))
  | edit hfinished hservice => exact h.edit hfinished hservice hkeeps
  | delete hfinished hservice hrule =>
    exact mirrored_of_service hfinished hservice
      (deleteRule_keeps hdelete hrule (h.finished hfinished))
  | deleteSelected hfinished hservice =>
    exact mirrored_of_service hfinished hservice
      (deleteSelected_keeps hdelete (h.finished hfinished))
  | importRule hfinished hservice =>
    exact h.importRule hfinished hservice (hleft (by simp [offered, hservice]))
  | drag hfinished hservice hdragged htargeted hdrop =>
    exact h.drag hfinished hservice hdragged htargeted hdrop
  | setEnabled hfinished hrule => exact h.setEnabled hfinished hrule _
  | setSelected hfinished hrule selected => exact h.setSelected hfinished hrule selected

/-- The command line decides as the engine whose rules it gets, from last to first. -/
theorem matchRule_runProxyTun {store : RuleStore} {rules : List ProxyRule}
    (hstored : store.rules = (rules.map ProxyRule.engineRule).reverse)
    (hknown : ∀ rule ∈ rules, rule.isEnabled = true → Cli.Understood rule.toRuleTexts) :
    ∃ other, Cli.runProxyTun (rules.map ProxyRule.saved) = some other ∧
      ∀ c : Connection,
        matchRule (filters .windows) other.rules c.process c.destIp c.destPort c.isUdp =
          matchRule (filters .windows) store.rules c.process c.destIp c.destPort c.isUdp := by
  have hunderstood : ∀ config ∈ rules.map ProxyRule.saved,
      config.isEnabled = true → Cli.Understood config.toRuleTexts := by
    intro config hconfig
    obtain ⟨rule, hrule, rfl⟩ := List.mem_map.mp hconfig
    exact hknown rule hrule
  let enabled := rules.filter fun rule => rule.isEnabled
  have hfile : Cli.loadRulesFromFile (rules.map ProxyRule.saved) =
      some (enabled.map fun rule => rule.fields) := by
    rw [Cli.loadRulesFromFile_eq hunderstood, List.filter_map, List.map_map]
    rfl
  have hnames : ∀ fields ∈ enabled.map fun rule => rule.fields, fields.processName ≠ [] := by
    intro fields hfields
    obtain ⟨rule, hrule, rfl⟩ := List.mem_map.mp hfields
    obtain ⟨hmem, hon⟩ := List.mem_filter.mp hrule
    exact (hknown rule hmem hon).1
  obtain ⟨added, hadded, hsame⟩ := Cli.rules_addRules hnames .empty
  refine ⟨_, by rw [Cli.runProxyTun, hfile, Option.map_some], fun c => ?_⟩
  have hon : enabled.map ProxyRule.engineRule =
      enabled.map fun rule => rule.fields.rule rule.ruleId := by
    apply List.map_congr_left
    intro rule hrule
    rw [ProxyRule.engineRule, show rule.isEnabled = true from (List.mem_filter.mp hrule).2]
    rfl
  have hswitchedOn : (store.rules.filter fun rule => rule.enabled) =
      (enabled.map fun rule => rule.fields.rule rule.ruleId).reverse := by
    rw [← hon, hstored, List.filter_reverse, List.filter_map]
    rfl
  rw [hadded, ← matchRule_filter_enabled store.rules, hswitchedOn]
  apply matchRule_of_forall₂
  rw [show RuleStore.empty.rules = [] from rfl, List.append_nil]
  apply List.rel_reverse
  rw [List.forall₂_map_left_iff] at hsame ⊢
  refine hsame.imp ?_
  rintro rule other ⟨ruleId, rfl⟩
  exact ⟨ruleId, rfl⟩

/-- In every run whose steps keep the meaning of the rules, the command line decides every
connection as the engine of the GUI does once all rules are exported, if the engine has them from
last to first at that time and the command line knows their words. -/
theorem sameDecision_of_run {ops : List RuleOperation} (hrun : run step initial ops = some t)
    (hleft : Guarded step IdsLeft initial ops) (hkeeps : Guarded step KeepsMeaning initial ops)
    (hfinished : t.startup = .finished) (hall : ∀ rule ∈ t.rules, rule.isSelected = true)
    (horder : t.store.ids = (t.rules.map fun rule => rule.ruleId).reverse)
    (hknown : ∀ rule ∈ t.rules, rule.isEnabled = true → Cli.Understood rule.toRuleTexts) :
    ∃ store, Cli.runProxyTun t.exportSelectedRules = some store ∧
      ∀ c : Connection,
        matchRule (filters .windows) store.rules c.process c.destIp c.destPort c.isUdp =
          matchRule (filters .windows) t.store.rules c.process c.destIp c.destPort c.isUdp := by
  have hmirrored : t.Mirrored :=
    guarded_invariant (fun _ _ _ h hop hstep => h.step hop.1 hop.2 hstep) hrun (hleft.and hkeeps)
      mirrored_initial
  rw [exportSelectedRules, List.filter_eq_self.mpr hall]
  exact matchRule_runProxyTun ((hmirrored.finished hfinished).reversed horder) hknown

/-- `curl.exe` goes through the proxy, and is blocked. -/
def twoOverlapping : List RuleOperation :=
  [.load [] .succeeds, .add (wholeProcess "curl.exe") .succeeds,
    .add { wholeProcess "curl.exe" with action := "BLOCK".toList } .succeeds]

/-- Of two rules that were added, the one that is added last decides on both sides. -/
theorem sameDecision_twoOverlapping : ∃ t,
    run step initial (twoOverlapping ++ [.setSelected 0 true, .setSelected 1 true]) = some t ∧
    ∃ store, Cli.runProxyTun t.exportSelectedRules = some store ∧
      ∀ c : Connection,
        matchRule (filters .windows) store.rules c.process c.destIp c.destPort c.isUdp =
          matchRule (filters .windows) t.store.rules c.process c.destIp c.destPort c.isUdp :=
  ⟨_, rfl, sameDecision_of_run
    (show run step initial (twoOverlapping ++ [.setSelected 0 true, .setSelected 1 true]) = some _
      from rfl)
    (by decide) (by decide) rfl (by decide) (by decide) (by decide)⟩

/-- The row of the proxy is dragged below the other. -/
theorem decision_differs_dragged : ∃ t store,
    run step initial (twoOverlapping ++ [.drag 0 1, .setSelected 0 true, .setSelected 1 true]) =
      some t ∧
    (∀ rule ∈ t.rules, rule.isSelected = true) ∧
    Cli.runProxyTun t.exportSelectedRules = some store ∧
    matchRule (filters .windows) store.rules "curl.exe".toList 0x01010101 443 false ≠
      matchRule (filters .windows) t.store.rules "curl.exe".toList 0x01010101 443 false := by
  exact ⟨_, _, rfl, by decide, rfl, by decide⟩

end GuiState
end ProxyTun.WindowsGui
