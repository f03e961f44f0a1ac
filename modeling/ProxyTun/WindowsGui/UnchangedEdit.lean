import ProxyTun.WindowsGui.RuleDialog
import ProxyTun.WindowsGui.StoredTexts

/-!
# Edits without a change

The dialog saves what it shows, but it completes the texts first: a process gets its suffix and an
empty text becomes a star. Rules that are loaded or imported are not completed.
-/
namespace ProxyTun.WindowsGui
open Library Library.Transition Windows

/-- The texts that a save makes of those in the form. -/
def completed (texts : RuleTexts) : RuleTexts :=
  { withDefaults texts with processName := withExe (withDefaults texts).processName }

/-- A process that needs no suffix: a star, a name with the suffix at its end or in front of a
blank, or a list of names. -/
def HasSuffix (name : CStr) : Prop :=
  name = "*".toList ∨ ".EXE".toList <:+ name.map Char.toUpper ∨
    ".EXE ".toList <:+: name.map Char.toUpper ∨ ';' ∈ name

/-- Texts to which a save has nothing to add. -/
structure IsComplete (texts : RuleTexts) : Prop where
  processName : isBlank texts.processName = false
  suffix : HasSuffix texts.processName
  targetHosts : isBlank texts.targetHosts = false
  targetPorts : isBlank texts.targetPorts = false

theorem defaultIfEmpty_eq_self_iff (text : CStr) :
    defaultIfEmpty text "*".toList = text ↔ isBlank text = false := by
  unfold defaultIfEmpty
  cases hblank : isBlank text with
  | false => simp
  | true =>
    rw [if_pos rfl]
    refine iff_of_false ?_ (by simp)
    rintro rfl
    cases hblank

theorem withExe_eq_self_iff (name : CStr) : withExe name = name ↔ HasSuffix name := by
  have hinfix : ((name.map Char.toUpper).tails.any ".EXE ".toList.isPrefixOf) = true ↔
      ".EXE ".toList <:+: name.map Char.toUpper := by
    rw [List.any_eq_true, List.infix_iff_prefix_suffix]
    constructor
    · rintro ⟨tail, htail, hstart⟩
      exact ⟨tail, List.isPrefixOf_iff_prefix.mp hstart, (List.mem_tails _ _).mp htail⟩
    · rintro ⟨tail, hstart, htail⟩
      exact ⟨tail, (List.mem_tails _ _).mpr htail, List.isPrefixOf_iff_prefix.mpr hstart⟩
  have hcondition : (name = "*".toList || ".EXE".toList.isSuffixOf (name.map Char.toUpper) ||
      (name.map Char.toUpper).tails.any ".EXE ".toList.isPrefixOf ||
      name.contains ';' : Bool) = true ↔ HasSuffix name := by
    rw [Bool.or_eq_true_iff, Bool.or_eq_true_iff, Bool.or_eq_true_iff, decide_eq_true_iff, hinfix,
      List.isSuffixOf_iff_suffix, List.contains_iff_mem, HasSuffix, or_assoc, or_assoc]
  unfold withExe
  dsimp only
  split_ifs with h
  · exact iff_of_true rfl (hcondition.mp h)
  · refine iff_of_false (fun hsame => ?_) fun hsuffix => h (hcondition.mpr hsuffix)
    have hlength := congrArg List.length hsame
    rw [List.length_append] at hlength
    simp at hlength

/-- A save leaves the texts as they are exactly if nothing is missing. -/
theorem completed_eq_self_iff (texts : RuleTexts) : completed texts = texts ↔ IsComplete texts := by
  have hfields : completed texts = texts ↔
      withExe (defaultIfEmpty texts.processName "*".toList) = texts.processName ∧
        defaultIfEmpty texts.targetHosts "*".toList = texts.targetHosts ∧
        defaultIfEmpty texts.targetPorts "*".toList = texts.targetPorts := by
    rw [RuleTexts.mk.injEq]
    simp [completed, withDefaults]
  rw [hfields, defaultIfEmpty_eq_self_iff, defaultIfEmpty_eq_self_iff]
  cases hblank : isBlank texts.processName with
  | true =>
    have hstar : defaultIfEmpty texts.processName "*".toList = "*".toList := if_pos hblank
    rw [hstar]
    refine iff_of_false ?_ fun h => absurd h.processName (by simp [hblank])
    rintro ⟨hsame, -⟩
    rw [← hsame] at hblank
    revert hblank
    decide
  | false =>
    rw [(defaultIfEmpty_eq_self_iff _).mpr hblank, withExe_eq_self_iff]
    constructor
    · rintro ⟨hsuffix, hhosts, hports⟩
      exact ⟨hblank, hsuffix, hhosts, hports⟩
    · rintro ⟨-, hsuffix, hhosts, hports⟩
      exact ⟨hsuffix, hhosts, hports⟩

namespace RuleDialog

variable {d t : RuleDialog}

theorem isValidName_withDefaults {texts : RuleTexts}
    (h : texts.processName.all isNameChar = true) :
    isValidName (withDefaults texts).processName = true := by
  change isValidName (defaultIfEmpty texts.processName "*".toList) = true
  unfold defaultIfEmpty
  split_ifs with hblank
  · decide
  · have hne : texts.processName ≠ [] := by
      intro hnil
      rw [hnil] at hblank
      exact hblank rfl
    rw [isValidName, h, decide_eq_true hne]
    rfl

theorem gui_unchanged_edit {row : ℕ} {rule : ProxyRule} (hrule : d.gui.rules[row]? = some rule)
    (hname : rule.processName.all isNameChar = true) {allocation : Allocation}
    (hrun : run step d [.editRule row, .saveNewRule allocation true] = some t) :
    t.gui = if d.gui.service then
      d.gui.editRule rule.ruleId (completed rule.toRuleTexts) true else d.gui := by
  obtain ⟨opened, hopened, hsave⟩ := run_cons_eq_some.mp hrun
  obtain ⟨saved, hsaved, hend⟩ := run_cons_eq_some.mp hsave
  obtain ⟨found, hfound, hfields⟩ := Option.map_eq_some_iff.mp hopened
  obtain rfl := Option.some.inj (hrule.symm.trans hfound)
  obtain rfl := Option.some.inj hend
  obtain rfl := Option.some.inj hsaved
  have hdialog : opened.gui = d.gui := by rw [← hfields]
  have hedit : opened.isEditMode = true := by rw [← hfields]
  have hid : opened.currentEditingRuleId = rule.ruleId := by rw [← hfields]
  have hform : opened.form = rule.toRuleTexts := by rw [← hfields]
  have hentered : opened.entered = completed rule.toRuleTexts := by rw [← hform]; rfl
  rcases OpenedDialog.gui_saveNewRule opened allocation true with
    ⟨-, hinvalid, -⟩ | ⟨-, ⟨hmode, hgui, -⟩ | ⟨hmode, hgui, -⟩⟩
  · rw [hform, isValidName_withDefaults hname] at hinvalid
    cases hinvalid
  · rw [hedit, Bool.true_and, hdialog] at hmode
    rw [hgui, hdialog, hid, hentered, if_pos hmode]
  · rw [hedit, Bool.true_and, hdialog] at hmode
    rw [hgui, hdialog, hentered, if_neg (by simp [hmode]), GuiState.addRule,
      if_neg (by simp [hmode])]

end RuleDialog

namespace GuiState

variable {s : GuiState}

/-- The row and its rule in the engine get the texts, and nothing else is changed. -/
def withTexts (row : ℕ) (rule : ProxyRule) (texts : RuleTexts) (s : GuiState) : GuiState :=
  { s with
    rules := s.rules.set row { rule with toRuleTexts := texts }
    store := { s.store with
      rules := s.store.rules.map fun native =>
        if native.ruleId = rule.ruleId then RuleStore.edited true texts.fields native
        else native } }

theorem editRule_eq_withTexts (hs : s.Tracked) {row : ℕ} {rule : ProxyRule}
    (hrule : s.rules[row]? = some rule) (hid : rule.ruleId ≠ 0) (texts : RuleTexts) :
    s.editRule rule.ruleId texts true = s.withTexts row rule texts := by
  have hfinds : s.store.finds rule.ruleId = true :=
    hs.valid.finds_of_mem (hs.known _ (mem_shownIds (List.mem_of_getElem? hrule) hid))
  rw [editRule, RuleStore.editRule, if_pos hfinds]
  dsimp only
  rw [if_pos rfl, OpenedDialog.setTexts_eq_set hrule hid hs.once, RuleStore.update,
    updateRule_eq_map _ hs.valid.nodup]
  rfl

theorem editRule_zero (texts : RuleTexts) (copied : Bool) : s.editRule 0 texts copied = s := rfl

theorem copyOf_eq {text stored : CStr} (h : CopyOf text stored) (hblank : isBlank text = false) :
    stored = text := by
  have hne : text ≠ [] := by
    rintro rfl
    cases hblank
  rcases h with h | h
  · exact h
  · rw [h, orEverything, if_neg hne]

theorem edited_eq_self {rule : ProxyRule} {native : Rule} (h : MadeOf rule.fields native)
    (hcomplete : IsComplete rule.toRuleTexts) :
    RuleStore.edited true rule.fields native = native := by
  have hhosts := copyOf_eq h.targetHosts hcomplete.targetHosts
  have hports := copyOf_eq h.targetPorts hcomplete.targetPorts
  rw [RuleStore.edited, if_pos rfl, ← h.processName, ← hhosts, ← hports, ← h.protocol, ← h.action]

theorem withTexts_self (hs : s.Tracked) (hstored : TextsStored s.store.rules s.rules) {row : ℕ}
    {rule : ProxyRule} (hrule : s.rules[row]? = some rule) (hid : rule.ruleId ≠ 0)
    (hcomplete : IsComplete rule.toRuleTexts) : s.withTexts row rule rule.toRuleTexts = s := by
  obtain ⟨native, hnative, hsame, hmade⟩ := hstored rule (List.mem_of_getElem? hrule) hid
  obtain ⟨hrow, rfl⟩ := List.getElem?_eq_some_iff.mp hrule
  have hrows : s.rules.set row s.rules[row] = s.rules := List.set_getElem_self hrow
  have hnatives : (s.store.rules.map fun native => if native.ruleId = s.rules[row].ruleId then
      RuleStore.edited true s.rules[row].fields native else native) = s.store.rules := by
    conv_rhs => rw [← List.map_id s.store.rules]
    apply List.map_congr_left
    intro other hother
    split_ifs with hother_id
    · have heq : other = native :=
        List.inj_on_of_nodup_map hs.valid.nodup hother hnative (hother_id.trans hsame.symm)
      rw [heq]
      exact edited_eq_self hmade hcomplete
    · rfl
  rw [withTexts, hnatives]
  dsimp only
  rw [hrows]

theorem withTexts_eq_self_iff (hs : s.Tracked) (hstored : TextsStored s.store.rules s.rules)
    {row : ℕ} {rule : ProxyRule} (hrule : s.rules[row]? = some rule) (hid : rule.ruleId ≠ 0) :
    s.withTexts row rule (completed rule.toRuleTexts) = s ↔ IsComplete rule.toRuleTexts := by
  rw [← completed_eq_self_iff]
  constructor
  · intro hsame
    have hrow := congrArg (fun gui => gui.rules[row]?) hsame
    dsimp only [withTexts] at hrow
    rw [List.getElem?_set_self (List.getElem?_eq_some_iff.mp hrule).1, hrule] at hrow
    exact congrArg ProxyRule.toRuleTexts (Option.some.inj hrow)
  · intro hsame
    rw [hsame]
    exact withTexts_self hs hstored hrule hid ((completed_eq_self_iff _).mp hsame)

/-- In every session in which the engine has ids and memory left, a rule that is opened in the
dialog and saved without a change gets its completed texts on both sides, if the engine has it, and
nothing else is changed. So nothing is changed at all exactly if its texts are complete. -/
theorem unchanged_edit_iff {ops : List RuleOperation} {gui : GuiState}
    (hsession : run step initial ops = some gui) (hids : Guarded step IdsLeft initial ops)
    (hcopied : Guarded step EditsCopied initial ops) {d t : RuleDialog} (hd : d.gui = gui)
    {row : ℕ} {rule : ProxyRule} (hrule : gui.rules[row]? = some rule)
    (hname : rule.processName.all isNameChar = true) {allocation : Allocation}
    (hrun : run RuleDialog.step d [.editRule row, .saveNewRule allocation true] = some t) :
    (t.gui = if gui.service = true ∧ rule.ruleId ≠ 0 then
        gui.withTexts row rule (completed rule.toRuleTexts) else gui) ∧
      (t.gui = gui ↔
        (gui.service = true ∧ rule.ruleId ≠ 0 → IsComplete rule.toRuleTexts)) := by
  subst hd
  have hs := tracked_of_run hsession hids
  have hstored := textsStored_of_run hsession hids hcopied
  have hsaved : t.gui = if d.gui.service = true ∧ rule.ruleId ≠ 0 then
      d.gui.withTexts row rule (completed rule.toRuleTexts) else d.gui := by
    rw [RuleDialog.gui_unchanged_edit hrule hname hrun]
    by_cases hid : rule.ruleId = 0
    · rw [hid, editRule_zero]
      simp
    · rw [editRule_eq_withTexts hs hrule hid]
      by_cases hservice : d.gui.service = true
      · rw [if_pos hservice, if_pos ⟨hservice, hid⟩]
      · rw [if_neg hservice, if_neg fun h => hservice h.1]
  refine ⟨hsaved, ?_⟩
  rw [hsaved]
  split_ifs with hboth
  · rw [withTexts_eq_self_iff hs hstored hrule hboth.2, forall_prop_of_true hboth]
  · exact iff_of_true rfl fun h => absurd h hboth

/-- A rule for curl that is added, opened and saved. -/
theorem unchanged_edit_curl : ∃ gui t,
    run step initial
      [.load [] .succeeds, .add (wholeProcess "curl.exe") .succeeds] = some gui ∧
    run RuleDialog.step (.new gui) [.editRule 0, .saveNewRule .succeeds true] = some t ∧
    t.gui = gui := by
  have hsession : ∃ gui t rule, run step initial
      [.load [] .succeeds, .add (wholeProcess "curl.exe") .succeeds] = some gui ∧
      gui.rules[0]? = some rule ∧ rule.processName.all isNameChar = true ∧
      completed rule.toRuleTexts = rule.toRuleTexts ∧
      run RuleDialog.step (.new gui) [.editRule 0, .saveNewRule .succeeds true] = some t :=
    ⟨_, _, _, rfl, rfl, by decide, by decide, rfl⟩
  obtain ⟨gui, t, rule, hsession, hrule, hname, hcomplete, hrun⟩ := hsession
  refine ⟨gui, t, hsession, hrun, ?_⟩
  apply (unchanged_edit_iff hsession (by decide) (by decide) rfl hrule hname hrun).2.mpr
  intro _
  exact (completed_eq_self_iff _).mp hcomplete

/-- A rule for git that is imported gets a suffix on both sides. -/
theorem unchanged_edit_git : ∃ gui t,
    run step initial
      [.load [] .succeeds, .importRule ⟨wholeProcess "git", true⟩ .succeeds] = some gui ∧
    gui.rules.map (fun rule => rule.processName) = ["git".toList] ∧
    "git".toList.all isNameChar = true ∧
    run RuleDialog.step (.new gui) [.editRule 0, .saveNewRule .succeeds true] = some t ∧
    gui.store.rules.map (fun native => native.processName) = ["git".toList] ∧
    t.gui.rules.map (fun rule => rule.processName) = ["git.exe".toList] ∧
    t.gui.store.rules.map (fun native => native.processName) = ["git.exe".toList] :=
  ⟨_, _, rfl, by decide, by decide, rfl, by decide, by decide, by decide⟩

end GuiState
end ProxyTun.WindowsGui
