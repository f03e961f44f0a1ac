import ProxyTun.WindowsGui.RuleIds

/-!
# The rule dialog

The form for a rule is opened to add one or to edit one, and what its save does is decided by
`_isEditMode`. Only a save of an edited rule leaves that mode again.
-/
namespace ProxyTun.WindowsGui
open Library Library.Transition Windows

inductive FormField where
  | processName
  | targetHosts
  | targetPorts
  | protocol
  | action
  deriving DecidableEq, Repr

def RuleTexts.setField (text : CStr) (texts : RuleTexts) : FormField → RuleTexts
  | .processName => { texts with processName := text }
  | .targetHosts => { texts with targetHosts := text }
  | .targetPorts => { texts with targetPorts := text }
  | .protocol => { texts with protocol := text }
  | .action => { texts with action := text }

def emptyForm : RuleTexts :=
  ⟨"*".toList, "*".toList, "*".toList, "TCP".toList, "PROXY".toList⟩

structure RuleDialog where
  gui : GuiState
  isAddRuleViewOpen : Bool
  isEditMode : Bool
  currentEditingRuleId : BitVec 32
  form : RuleTexts
  processNameError : CStr
  deriving DecidableEq, Repr

inductive DialogCommand where
  | addRule
  | editRule (row : ℕ)
  | setField (field : FormField) (text : CStr)
  /-- `BrowseProcessCommand`, with the name of the file that is picked. -/
  | browseProcess (filename : CStr)
  | cancelAddRule
  | saveNewRule (allocation : Allocation) (copied : Bool)
  deriving DecidableEq, Repr

/-- `[a-zA-Z0-9\s._\-*;"\\:()]`. -/
def isNameChar (c : Char) : Bool :=
  ('a' ≤ c && c ≤ 'z') || ('A' ≤ c && c ≤ 'Z') || ('0' ≤ c && c ≤ '9') || isWhiteSpace c ||
    "._-*;\"\\:()".toList.contains c

def isValidName (name : CStr) : Bool := name ≠ [] && name.all isNameChar

def invalidName : CStr :=
  ("Invalid characters in process name. Only letters, numbers, spaces, dots, dashes, " ++
    "underscores, semicolons, quotes, parentheses, and * are allowed").toList

/-- A process without a suffix gets one, a list of processes does not. -/
def withExe (name : CStr) : CStr :=
  let upper := name.map Char.toUpper
  if name = "*".toList || ".EXE".toList.isSuffixOf upper ||
      upper.tails.any ".EXE ".toList.isPrefixOf ||
      name.contains ';' then name
  else name ++ ".exe".toList

/-- A file that is picked stands behind the processes that are entered. -/
def withFile (name filename : CStr) : CStr :=
  if isBlank name || name = "*".toList then filename
  else name ++ (if ";".toList.isSuffixOf name then " ".toList else "; ".toList) ++ filename

def withDefaults (form : RuleTexts) : RuleTexts :=
  { form with
    processName := defaultIfEmpty form.processName "*".toList
    targetHosts := defaultIfEmpty form.targetHosts "*".toList
    targetPorts := defaultIfEmpty form.targetPorts "*".toList }

namespace RuleDialog

/-- The dialog of a new window. -/
def new (gui : GuiState) : RuleDialog := ⟨gui, false, false, 0, emptyForm, []⟩

def resetRuleForm (d : RuleDialog) : RuleDialog :=
  { d with form := emptyForm, processNameError := [] }

def setProcessName (name : CStr) (d : RuleDialog) : RuleDialog :=
  { d with form := { d.form with processName := name }, processNameError := [] }

def entered (d : RuleDialog) : RuleTexts :=
  let form := withDefaults d.form
  { form with processName := withExe form.processName }

def saveNewRule (allocation : Allocation) (copied : Bool) (d : RuleDialog) : RuleDialog :=
  if !isValidName (withDefaults d.form).processName then
    { d with form := withDefaults d.form, processNameError := invalidName }
  else
    let saved :=
      if d.isEditMode && d.gui.service then
        { d with
          gui := d.gui.editRule d.currentEditingRuleId d.entered copied
          isEditMode := false
          currentEditingRuleId := 0 }
      else { d with gui := d.gui.addRule d.entered allocation }
    resetRuleForm { saved with isAddRuleViewOpen := false }

def step (d : RuleDialog) : DialogCommand → Option RuleDialog
  | .addRule => some { d.resetRuleForm with isAddRuleViewOpen := true }
  | .editRule row => (d.gui.rules[row]?).map fun rule =>
    { d with
      isEditMode := true
      currentEditingRuleId := rule.ruleId
      form := rule.toRuleTexts
      processNameError := []
      isAddRuleViewOpen := true }
  | .setField .processName text => some (d.setProcessName text)
  | .setField field text => some { d with form := d.form.setField text field }
  | .browseProcess filename =>
    some (d.setProcessName (withFile d.form.processName filename))
  | .cancelAddRule => some { d.resetRuleForm with isAddRuleViewOpen := false }
  | .saveNewRule allocation copied => some (d.saveNewRule allocation copied)

/-- The name is valid, and the engine takes the rule or its new texts. -/
def succeeds (d : RuleDialog) (allocation : Allocation) (copied : Bool) : Bool :=
  isValidName (withDefaults d.form).processName &&
    if d.isEditMode && d.gui.service then
      (d.gui.store.editRule copied d.currentEditingRuleId d.entered.fields).1
    else d.gui.service && (d.gui.store.addRule allocation d.entered.fields).1 ≠ 0

/-- One new rule has the texts, and no other rule is changed. -/
def AddsOne (d t : RuleDialog) : Prop :=
  ∃ id, id ≠ 0 ∧ id ∉ d.gui.shownIds ∧
    t.gui.rules = d.gui.rules ++ [⟨d.entered, id, d.gui.rules.length + 1, true, false⟩] ∧
    t.gui.store.rules = d.entered.fields.rule id :: d.gui.store.rules

/-- The rule of the row has the texts, and no other rule is changed. -/
def EditsOnly (row : ℕ) (d t : RuleDialog) : Prop :=
  ∃ rule, d.gui.rules[row]? = some rule ∧
    t.gui.rules = d.gui.rules.set row { rule with toRuleTexts := d.entered } ∧
    t.gui.store.rules = d.gui.store.rules.map fun native =>
      if native.ruleId = rule.ruleId then RuleStore.edited true d.entered.fields native else native

end RuleDialog

/-- What the dialog was opened for. -/
inductive Opening where
  | add
  | edit (row : ℕ)
  deriving DecidableEq, Repr

/-- The dialog with its most recent opening. -/
structure OpenedDialog where
  dialog : RuleDialog
  opening : Option Opening
  deriving DecidableEq, Repr

namespace OpenedDialog

def new (gui : GuiState) : OpenedDialog := ⟨.new gui, none⟩

def step (s : OpenedDialog) (command : DialogCommand) : Option OpenedDialog :=
  (s.dialog.step command).map fun dialog =>
    { dialog := dialog
      opening :=
        match command with
        | .addRule => some .add
        | .editRule row => some (.edit row)
        | _ => s.opening }

/-- A save that succeeds does what the dialog was opened for. -/
def SavesAsOpened (s : OpenedDialog) (command : DialogCommand) (t : OpenedDialog) : Prop :=
  match command with
  | .saveNewRule allocation copied => s.dialog.succeeds allocation copied = true →
    match s.opening with
    | some .add => s.dialog.AddsOne t.dialog
    | some (.edit row) => s.dialog.EditsOnly row t.dialog
    | none => True
  | _ => True

/-- A save that succeeds is made in the mode that the dialog was opened in. -/
def KeepsMode (s : OpenedDialog) : DialogCommand → Prop
  | .saveNewRule allocation copied => s.dialog.succeeds allocation copied = true →
    match s.opening with
    | some .add => s.dialog.isEditMode = false
    | some (.edit _) => s.dialog.isEditMode = true
    | none => True
  | _ => True

/-- The engine has an id left for a rule that is saved. -/
def IdsLeft (s : OpenedDialog) : DialogCommand → Prop
  | .saveNewRule .. => s.dialog.gui.store.nextRuleId ≠ 0
  | _ => True

instance (s : OpenedDialog) : ∀ command, Decidable (s.KeepsMode command)
  | .saveNewRule allocation copied =>
    match h : s.opening with
    | some .add =>
      decidable_of_iff
        (s.dialog.succeeds allocation copied = true → s.dialog.isEditMode = false)
        (by simp only [KeepsMode, h])
    | some (.edit _) =>
      decidable_of_iff
        (s.dialog.succeeds allocation copied = true → s.dialog.isEditMode = true)
        (by simp only [KeepsMode, h])
    | none => .isTrue (by simp only [KeepsMode, h, implies_true])
  | .addRule | .editRule _ | .setField .. | .browseProcess _ | .cancelAddRule => .isTrue trivial

instance (s : OpenedDialog) : ∀ command, Decidable (s.IdsLeft command)
  | .saveNewRule .. => inferInstanceAs (Decidable (_ ≠ _))
  | .addRule | .editRule _ | .setField .. | .browseProcess _ | .cancelAddRule => .isTrue trivial

variable {s t : OpenedDialog}

/-- A dialog that edits was last opened to edit, and still knows the row, unless it was opened to
add a rule since. -/
structure Sound (s : OpenedDialog) : Prop where
  tracked : s.dialog.gui.Tracked
  finished : s.dialog.gui.startup = .finished
  editing : ∀ row, s.dialog.isEditMode = true → s.opening = some (.edit row) →
    ∃ rule, s.dialog.gui.rules[row]? = some rule ∧ rule.ruleId = s.dialog.currentEditingRuleId

theorem sound_new {gui : GuiState} (h : gui.Tracked) (hfinished : gui.startup = .finished) :
    (new gui).Sound :=
  ⟨h, hfinished, fun _ hedit => by cases hedit⟩

/-- With ids that stand once, new texts go to the row of the id. -/
theorem setTexts_eq_set {rules : List ProxyRule} {row : ℕ} {rule : ProxyRule}
    (hrule : rules[row]? = some rule) (hid : rule.ruleId ≠ 0)
    (honce : (Rows.keys ProxyRule.engineId rules).Nodup) (texts : RuleTexts) :
    GuiState.setTexts rule.ruleId texts rules =
      rules.set row { rule with toRuleTexts := texts } := by
  induction rules generalizing row with
  | nil => cases hrule
  | cons first rules ih =>
    unfold GuiState.setTexts
    rw [Rows.keys_cons] at honce
    cases row with
    | zero =>
      obtain rfl := Option.some.inj hrule
      rw [if_pos rfl]
      rfl
    | succ row =>
      have hmem : rule.ruleId ∈ Rows.keys ProxyRule.engineId rules :=
        List.mem_filterMap.mpr ⟨rule, List.mem_of_getElem? hrule, GuiState.engineId_of_ne hid⟩
      have hne : first.ruleId ≠ rule.ruleId := by
        intro heq
        rw [GuiState.engineId_of_ne (heq ▸ hid), heq] at honce
        exact (List.nodup_cons.mp honce).1 hmem
      rw [if_neg hne, ih hrule (List.nodup_append.mp honce).2.1]
      rfl

theorem editsOnly_of_edited {d t : RuleDialog} (h : d.gui.Tracked) {row : ℕ} {rule : ProxyRule}
    (hrule : d.gui.rules[row]? = some rule) (hid : rule.ruleId = d.currentEditingRuleId)
    {copied : Bool}
    (hedited : (d.gui.store.editRule copied d.currentEditingRuleId d.entered.fields).1 = true)
    (ht : t.gui = d.gui.editRule d.currentEditingRuleId d.entered copied) :
    d.EditsOnly row t := by
  obtain ⟨rfl, hfinds⟩ := RuleStore.editRule_succeeds hedited
  rw [← hid] at hfinds hedited ht
  have hnonzero : rule.ruleId ≠ 0 := (RuleStore.finds_iff.mp hfinds).1
  refine ⟨rule, hrule, ?_, ?_⟩
  · rw [ht, GuiState.editRule]
    dsimp only
    rw [if_pos hedited]
    exact setTexts_eq_set hrule hnonzero h.once d.entered
  · rw [ht, GuiState.editRule, RuleStore.editRule, if_pos hfinds]
    exact updateRule_eq_map _ h.valid.nodup

/-- A save that adds puts the rule behind the rows, and at the head of the engine's list. -/
theorem addsOne_of_added {d t : RuleDialog} (h : d.gui.Tracked) (hservice : d.gui.service = true)
    {allocation : Allocation} (hadded : (d.gui.store.addRule allocation d.entered.fields).1 ≠ 0)
    (ht : t.gui = d.gui.addRule d.entered allocation) : d.AddsOne t := by
  obtain ⟨hid, hrules⟩ := RuleStore.addRule_succeeds hadded
  have hfresh : d.gui.store.nextRuleId ∉ d.gui.store.ids := h.valid.fresh (hid ▸ hadded)
  refine ⟨d.gui.store.nextRuleId, hid ▸ hadded, fun hmem => hfresh (h.known _ hmem), ?_, ?_⟩
  · rw [ht, GuiState.addRule, if_pos hservice, GuiState.append, if_pos hadded, hid]
  · rw [ht, GuiState.addRule, if_pos hservice]
    exact hrules

theorem length_setTexts (ruleId : BitVec 32) (texts : RuleTexts) (rules : List ProxyRule) :
    (GuiState.setTexts ruleId texts rules).length = rules.length := by
  induction rules with
  | nil => rfl
  | cons rule rules ih =>
    unfold GuiState.setTexts
    split
    · rfl
    · rw [List.length_cons, List.length_cons, ih]

theorem not_addsOne_of_edited {d t : RuleDialog} {copied : Bool}
    (ht : t.gui = d.gui.editRule d.currentEditingRuleId d.entered copied) : ¬ d.AddsOne t := by
  rintro ⟨id, -, -, hrules, -⟩
  have hlength : t.gui.rules.length = d.gui.rules.length := by
    rw [ht, GuiState.editRule]
    dsimp only
    split_ifs
    · exact length_setTexts _ _ _
    · rfl
  simp [hrules] at hlength

theorem not_editsOnly_of_addsOne {d t : RuleDialog} {row : ℕ} (h : d.AddsOne t) :
    ¬ d.EditsOnly row t := by
  rintro ⟨rule, -, hset, -⟩
  obtain ⟨id, -, -, hadd, -⟩ := h
  have hlength := congrArg List.length (hadd.symm.trans hset)
  simp at hlength

/-- A save either fails its check, or it passes the texts on in the mode of the dialog. -/
theorem gui_saveNewRule (d : RuleDialog) (allocation : Allocation) (copied : Bool) :
    (d.saveNewRule allocation copied).gui = d.gui ∧
        isValidName (withDefaults d.form).processName = false ∧
        (d.saveNewRule allocation copied).isEditMode = d.isEditMode ∧
        (d.saveNewRule allocation copied).currentEditingRuleId = d.currentEditingRuleId ∨
      isValidName (withDefaults d.form).processName = true ∧
        ((d.isEditMode && d.gui.service) = true ∧
            (d.saveNewRule allocation copied).gui =
              d.gui.editRule d.currentEditingRuleId d.entered copied ∧
            (d.saveNewRule allocation copied).isEditMode = false ∨
          (d.isEditMode && d.gui.service) = false ∧
            (d.saveNewRule allocation copied).gui = d.gui.addRule d.entered allocation ∧
            (d.saveNewRule allocation copied).isEditMode = d.isEditMode ∧
            (d.saveNewRule allocation copied).currentEditingRuleId = d.currentEditingRuleId) := by
  unfold RuleDialog.saveNewRule
  cases hvalid : isValidName (withDefaults d.form).processName with
  | false => exact .inl ⟨rfl, rfl, rfl, rfl⟩
  | true =>
    refine .inr ⟨rfl, ?_⟩
    cases hmode : d.isEditMode && d.gui.service with
    | true => exact .inl ⟨rfl, rfl, rfl⟩
    | false => exact .inr ⟨rfl, rfl, rfl, rfl⟩

theorem step_saveNewRule {allocation : Allocation} {copied : Bool}
    (h : s.step (.saveNewRule allocation copied) = some t) :
    t.dialog = s.dialog.saveNewRule allocation copied ∧ t.opening = s.opening := by
  obtain rfl := Option.some.inj h
  exact ⟨rfl, rfl⟩

theorem savesAsOpened_iff (h : s.Sound) {command : DialogCommand}
    (hstep : s.step command = some t) :
    s.SavesAsOpened command t ↔ s.KeepsMode command := by
  cases command with
  | saveNewRule allocation copied =>
    obtain ⟨ht, -⟩ := step_saveNewRule hstep
    refine forall_congr' fun hsucceeds => ?_
    rw [RuleDialog.succeeds, Bool.and_eq_true_iff] at hsucceeds
    obtain ⟨hvalid, hsaved⟩ := hsucceeds
    rw [ht]
    rcases gui_saveNewRule s.dialog allocation copied with
      ⟨-, hinvalid, -⟩ | ⟨-, ⟨hmode, hgui, -⟩ | ⟨hmode, hgui, -⟩⟩
    · rw [hinvalid] at hvalid
      cases hvalid
    · rw [if_pos hmode] at hsaved
      have hedit : s.dialog.isEditMode = true := (Bool.and_eq_true_iff.mp hmode).1
      cases hopening : s.opening with
      | none => exact Iff.rfl
      | some opening =>
        cases opening with
        | add => exact iff_of_false (not_addsOne_of_edited hgui) (by simp [hedit])
        | edit row =>
          obtain ⟨rule, hrule, hid⟩ := h.editing row hedit hopening
          exact iff_of_true (editsOnly_of_edited h.tracked hrule hid hsaved hgui) hedit
    · rw [if_neg (by simp [hmode]), Bool.and_eq_true_iff, decide_eq_true_iff] at hsaved
      obtain ⟨hservice, hadded⟩ := hsaved
      have hedit : s.dialog.isEditMode = false := by simpa [hservice] using hmode
      have hadds := addsOne_of_added h.tracked hservice hadded hgui
      cases hopening : s.opening with
      | none => exact Iff.rfl
      | some opening =>
        cases opening with
        | add => exact iff_of_true hadds hedit
        | edit row => exact iff_of_false (not_editsOnly_of_addsOne hadds) (by simp [hedit])
  | _ => exact Iff.rfl

theorem getElem?_addRule {gui : GuiState} {row : ℕ} {rule : ProxyRule}
    (hrule : gui.rules[row]? = some rule) (texts : RuleTexts) (allocation : Allocation) :
    (gui.addRule texts allocation).rules[row]? = some rule := by
  rw [GuiState.addRule]
  split_ifs
  · rw [GuiState.append]
    dsimp only
    split_ifs
    · rw [List.getElem?_append_left (List.getElem?_eq_some_iff.mp hrule).1]
      exact hrule
    · exact hrule
  · exact hrule

theorem Sound.saveNewRule (h : s.Sound) {allocation : Allocation} {copied : Bool}
    (hnext : s.dialog.gui.store.nextRuleId ≠ 0)
    (hstep : s.step (.saveNewRule allocation copied) = some t) : t.Sound := by
  obtain ⟨ht, hopening⟩ := step_saveNewRule hstep
  rcases gui_saveNewRule s.dialog allocation copied with
    ⟨hgui, -, hmode, hid⟩ | ⟨-, ⟨hsaves, hgui, hmode⟩ | ⟨-, hgui, hmode, hid⟩⟩
  · refine ⟨?_, ?_, ?_⟩
    · rw [ht, hgui]
      exact h.tracked
    · rw [ht, hgui]
      exact h.finished
    · rw [ht, hgui, hmode, hid, hopening]
      exact h.editing
  · have hservice : s.dialog.gui.service = true := (Bool.and_eq_true_iff.mp hsaves).2
    have hgui' : s.dialog.gui.step (.edit s.dialog.currentEditingRuleId s.dialog.entered copied) =
        some (s.dialog.saveNewRule allocation copied).gui := by
      rw [hgui]
      simp [GuiState.step, h.finished, hservice]
    refine ⟨?_, ?_, fun row hedit => ?_⟩
    · rw [ht]
      exact h.tracked.step (fun hoffered => by cases hoffered) hgui'
    · rw [ht]
      exact GuiState.finished_of_step h.finished hgui'
    · rw [ht, hmode] at hedit
      cases hedit
  · have hgui' : s.dialog.gui.step (.add s.dialog.entered allocation) =
        some (s.dialog.saveNewRule allocation copied).gui := by
      rw [hgui]
      simp [GuiState.step, h.finished]
    refine ⟨?_, ?_, fun row hedit hrow => ?_⟩
    · rw [ht]
      exact h.tracked.step (fun _ => hnext) hgui'
    · rw [ht]
      exact GuiState.finished_of_step h.finished hgui'
    · rw [ht, hmode] at hedit
      rw [hopening] at hrow
      obtain ⟨rule, hrule, hsame⟩ := h.editing row hedit hrow
      refine ⟨rule, ?_, by rw [ht, hid, hsame]⟩
      rw [ht, hgui]
      exact getElem?_addRule hrule s.dialog.entered allocation

theorem Sound.step (h : s.Sound) {command : DialogCommand} (hleft : s.IdsLeft command)
    (hstep : s.step command = some t) : t.Sound := by
  cases command with
  | saveNewRule => exact h.saveNewRule hleft hstep
  | addRule =>
    obtain rfl := Option.some.inj hstep
    exact ⟨h.tracked, h.finished, fun row _ hopening => by cases hopening⟩
  | editRule row =>
    obtain ⟨dialog, hdialog, rfl⟩ := Option.map_eq_some_iff.mp hstep
    obtain ⟨rule, hrule, rfl⟩ := Option.map_eq_some_iff.mp hdialog
    refine ⟨h.tracked, h.finished, fun row' _ hopening => ?_⟩
    obtain rfl := Opening.edit.inj (Option.some.inj hopening)
    exact ⟨rule, hrule, rfl⟩
  | setField field text =>
    obtain ⟨dialog, hdialog, rfl⟩ := Option.map_eq_some_iff.mp hstep
    cases field <;> obtain rfl := Option.some.inj hdialog <;>
      exact ⟨h.tracked, h.finished, h.editing⟩
  | browseProcess filename =>
    obtain rfl := Option.some.inj hstep
    exact ⟨h.tracked, h.finished, h.editing⟩
  | cancelAddRule =>
    obtain rfl := Option.some.inj hstep
    exact ⟨h.tracked, h.finished, h.editing⟩

/-- In every session, every save of the dialog does what the dialog was opened for exactly when
each is made in the mode of its opening. -/
theorem saves_as_opened_iff {ops : List RuleOperation} {gui : GuiState}
    {commands : List DialogCommand} (hsession : run GuiState.step .initial ops = some gui)
    (hids : Guarded GuiState.step GuiState.IdsLeft .initial ops)
    (hfinished : gui.startup = .finished) (hrun : run step (new gui) commands = some t)
    (hleft : Guarded step IdsLeft (new gui) commands) :
    EachStep step SavesAsOpened (new gui) commands ↔
      Guarded step KeepsMode (new gui) commands := by
  have hsound : (new gui).Sound := sound_new (GuiState.tracked_of_run hsession hids) hfinished
  apply eachStep_iff_guarded (I := Sound) _ _ hrun hleft hsound
  · intro s command t hs _ hstep
    exact savesAsOpened_iff hs hstep
  · intro s command t hs hcommand hstep _
    exact hs.step hcommand hstep

/-- A session with one rule. -/
def oneRule : List RuleOperation :=
  [.load [⟨wholeProcess "curl.exe", true⟩] .succeeds, .register .succeeds]

/-- A rule is edited, and then another one is added. -/
theorem saves_as_opened_in_turn : ∃ gui, run GuiState.step .initial oneRule = some gui ∧
    EachStep step SavesAsOpened (new gui)
      [.editRule 0, .setField .targetPorts "443".toList, .saveNewRule .succeeds true, .addRule,
        .setField .processName "ssh".toList, .saveNewRule .succeeds true] := by
  have hsession : ∃ gui, run GuiState.step .initial oneRule = some gui ∧
      gui.startup = .finished ∧
      (∃ t, run step (new gui)
        [.editRule 0, .setField .targetPorts "443".toList, .saveNewRule .succeeds true, .addRule,
          .setField .processName "ssh".toList, .saveNewRule .succeeds true] = some t) ∧
      Guarded step IdsLeft (new gui)
        [.editRule 0, .setField .targetPorts "443".toList, .saveNewRule .succeeds true, .addRule,
          .setField .processName "ssh".toList, .saveNewRule .succeeds true] ∧
      Guarded step KeepsMode (new gui)
        [.editRule 0, .setField .targetPorts "443".toList, .saveNewRule .succeeds true, .addRule,
          .setField .processName "ssh".toList, .saveNewRule .succeeds true] :=
    ⟨_, rfl, rfl, ⟨_, rfl⟩, by decide, by decide⟩
  obtain ⟨gui, hsession, hfinished, ⟨t, hrun⟩, hleft, hmode⟩ := hsession
  exact ⟨gui, hsession,
    (saves_as_opened_iff hsession (by decide) hfinished hrun hleft).mpr hmode⟩

/-- An edit is cancelled, and the rule that is added next replaces the rule that was edited. -/
theorem add_replaces_cancelled_edit : ∃ gui s t, run GuiState.step .initial oneRule = some gui ∧
    run step (new gui) [.editRule 0, .cancelAddRule, .addRule,
      .setField .processName "ssh".toList] = some s ∧
    s.opening = some .add ∧ s.dialog.succeeds .succeeds true = true ∧
    s.step (.saveNewRule .succeeds true) = some t ∧
    s.dialog.gui.rules.map (fun rule => rule.processName) = ["curl.exe".toList] ∧
    t.dialog.gui.rules.map (fun rule => rule.processName) = ["ssh.exe".toList] ∧
    ¬ s.SavesAsOpened (.saveNewRule .succeeds true) t := by
  refine ⟨_, _, _, rfl, rfl, rfl, by decide, rfl, by decide, by decide, fun hsaves => ?_⟩
  have hadds := hsaves (by decide)
  exact not_addsOne_of_edited rfl hadds

end OpenedDialog
end ProxyTun.WindowsGui
