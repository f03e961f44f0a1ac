import ProxyTun.WindowsGui.DragRule
import ProxyTun.WindowsGui.LoadConfiguration

/-!
# The rules in the file

`ProxyRulesViewModel` starts a save after it has added, edited, switched or deleted a rule.
`ImportRulesAsync` and `Rules_Drop` change the collection and start none.
-/
namespace ProxyTun.WindowsGui
open Library Library.Transition Windows

namespace Saves

variable {α : Type*}

/-- No save is under way. -/
structure Quiet (s : Saves α) : Prop where
  ended : ∀ phase ∈ s.tasks, phase = .ended
  temp : s.temp = .absent

def saveAlone (config : α) (s : Saves α) : Option (Saves α) :=
  run step s (.change config :: List.replicate 4 (.task s.tasks.length))

theorem Quiet.saveAlone {s : Saves α} (h : s.Quiet) (config : α) :
    ∃ t, s.saveAlone config = some t ∧ t.file = some config ∧ t.Quiet := by
  refine ⟨⟨config, some config, .absent, s.tasks ++ [.ended]⟩, ?_, rfl, ?_, rfl⟩
  · simp [Saves.saveAlone, List.replicate, run, step, Saves.change, Saves.task, advance, h.temp]
  · intro phase hphase
    rcases List.mem_append.mp hphase with hphase | hphase
    · exact h.ended phase hphase
    · exact List.mem_singleton.mp hphase

theorem Quiet.assign {s : Saves α} (h : s.Quiet) (config : α) : (s.assign config).Quiet :=
  ⟨h.ended, h.temp⟩

end Saves

/-- An operation of the rules window that the user completes. -/
inductive WindowOperation where
  | add (texts : RuleTexts) (allocation : Allocation)
  | edit (ruleId : BitVec 32) (texts : RuleTexts) (copied : Bool)
  | setEnabled (row : ℕ) (enabled : Bool)
  | setSelected (row : ℕ) (selected : Bool)
  | delete (row : ℕ)
  | deleteSelected
  /-- `ImportRulesAsync` with the rules of a file. -/
  | importRules (found : List (ProxyRuleConfig × Allocation))
  | drag (row target : ℕ)
  deriving DecidableEq, Repr

def WindowOperation.steps : WindowOperation → List RuleOperation
  | .add texts allocation => [.add texts allocation]
  | .edit ruleId texts copied => [.edit ruleId texts copied]
  | .setEnabled row enabled => [.setEnabled row enabled]
  | .setSelected row selected => [.setSelected row selected]
  | .delete row => [.delete row]
  | .deleteSelected => [.deleteSelected]
  | .importRules found => found.map fun rule => .importRule rule.1 rule.2
  | .drag row target => [.drag row target]

namespace GuiState

/-- What a snapshot has of the rules. -/
def contents (s : GuiState) : List ProxyRuleConfig := s.rules.map ProxyRule.saved

def startsSave (s : GuiState) : WindowOperation → Bool
  | .add texts allocation => s.service && (s.store.addRule allocation texts.fields).1 ≠ 0
  | .edit ruleId texts copied => (s.store.editRule copied ruleId texts.fields).1
  | .setEnabled row enabled =>
    s.service && (s.rules[row]?).any fun rule => rule.isEnabled ≠ enabled
  | .delete row => s.service && (s.rules[row]?).any fun rule => (s.store.deleteRule rule.ruleId).1
  | .deleteSelected => s.rules.any fun rule => rule.isSelected
  | .setSelected .. => false
  | .importRules _ => false
  | .drag .. => false

/-- The engine gives no rule of a file an id. -/
def takesNone (store : RuleStore) : List (ProxyRuleConfig × Allocation) → Bool
  | [] => true
  | (config, allocation) :: found =>
    (store.addRule allocation config.fields).1 = 0 &&
      takesNone (store.addRule allocation config.fields).2 found

/-- No imported rule is taken, a rule is dragged only past rules like itself, and it is switched
only while there is a service. -/
def KeepsSaved (s : GuiState) : WindowOperation → Prop
  | .setEnabled row enabled =>
    s.service = true ∨ ∀ rule ∈ s.rules[row]?, rule.isEnabled = enabled
  | .importRules found => s.service = false ∨ takesNone s.store found = true
  | .drag row target =>
    s.service = false ∨
      ∀ dragged ∈ s.rules[row]?, ∀ targeted ∈ s.rules[target]?,
        dragged.ruleId = targeted.ruleId ∨ s.store.finds dragged.ruleId = false ∨
          ∀ k ≤ max row target, min row target ≤ k → s.contents[k]? = some dragged.saved
  | _ => True

instance (s : GuiState) : ∀ op, Decidable (s.KeepsSaved op)
  | .setEnabled row enabled =>
    inferInstanceAs (Decidable
      (s.service = true ∨ ∀ rule ∈ s.rules[row]?, rule.isEnabled = enabled))
  | .importRules found =>
    inferInstanceAs (Decidable
      (s.service = false ∨ takesNone s.store found = true))
  | .drag row target =>
    inferInstanceAs (Decidable (s.service = false ∨
      ∀ dragged ∈ s.rules[row]?, ∀ targeted ∈ s.rules[target]?,
        dragged.ruleId = targeted.ruleId ∨ s.store.finds dragged.ruleId = false ∨
          ∀ k ≤ max row target, min row target ≤ k → s.contents[k]? = some dragged.saved))
  | .add .. | .edit .. | .setSelected .. | .delete _ | .deleteSelected => .isTrue trivial

end GuiState

/-- The window, and the saves that it starts. -/
structure Session where
  gui : GuiState
  saves : Saves (List ProxyRuleConfig)
  deriving DecidableEq, Repr

namespace Session

/-- The window is opened while the file has the rules that are shown. -/
def opened (gui : GuiState) : Session := ⟨gui, .start gui.contents (some gui.contents)⟩

/-- An operation, and the save that it starts if it starts one. -/
def step (s : Session) (op : WindowOperation) : Option Session :=
  (run GuiState.step s.gui op.steps).bind fun gui =>
    if s.gui.startsSave op then (s.saves.saveAlone gui.contents).map fun saves => ⟨gui, saves⟩
    else some ⟨gui, s.saves.assign gui.contents⟩

/-- The rules in `config.json` are those of `ProxyRules`. -/
def Agrees (s : Session) : Prop := s.saves.file = some s.gui.contents

instance (s : Session) : Decidable s.Agrees := inferInstanceAs (Decidable (_ = _))

end Session

namespace GuiState

variable {s t : GuiState}

theorem contents_eq (h : t.rules = s.rules) : t.contents = s.contents := by
  rw [contents, h, contents]

theorem contents_switchRule_iff {row : ℕ} {rule : ProxyRule} (hrule : s.rules[row]? = some rule)
    (enabled : Bool) :
    (s.switchRule row enabled rule).contents = s.contents ↔ rule.isEnabled = enabled := by
  unfold switchRule
  by_cases hsame : rule.isEnabled = enabled
  · rw [if_pos hsame]
    exact iff_of_true rfl hsame
  · rw [if_neg hsame]
    refine iff_of_false ?_ hsame
    intro h
    have hat := congrArg (fun contents => contents[row]?) h
    obtain ⟨hrow, -⟩ := List.getElem?_eq_some_iff.mp hrule
    simp only [contents, List.getElem?_map, List.getElem?_set_self hrow, hrule, Option.map_some,
      Option.some.injEq, ProxyRule.saved, ProxyRuleConfig.mk.injEq, true_and] at hat
    exact hsame hat.symm

theorem importRule_of_no_id (hservice : s.service = true) {config : ProxyRuleConfig}
    {allocation : Allocation} (hid : (s.store.addRule allocation config.fields).1 = 0) :
    s.importRule config allocation =
      { s with store := (s.store.addRule allocation config.fields).2 } := by
  unfold importRule append
  rw [if_pos hservice]
  simp [hid]

theorem importRule_of_id (hservice : s.service = true) {config : ProxyRuleConfig}
    {allocation : Allocation} (hid : (s.store.addRule allocation config.fields).1 ≠ 0) :
    (s.importRule config allocation).rules.length = s.rules.length + 1 := by
  obtain ⟨-, -, hrules, -, -⟩ := importRule_frame hservice config allocation
  rw [hrules, append]
  dsimp only
  rw [if_pos hid, List.length_append, List.length_singleton]

theorem run_importRules {found : List (ProxyRuleConfig × Allocation)}
    (hrun : run step s (WindowOperation.importRules found).steps = some t) :
    (s.service = false → t = s) ∧ (s.service = true → s.rules.length ≤ t.rules.length ∧
      (takesNone s.store found = true ∧ t.rules = s.rules ∨
        takesNone s.store found = false ∧ s.rules.length < t.rules.length)) := by
  induction found generalizing s with
  | nil =>
    obtain rfl := Option.some.inj hrun
    exact ⟨fun _ => rfl, fun _ => ⟨Nat.le_refl _, .inl ⟨rfl, rfl⟩⟩⟩
  | cons rule found ih =>
    obtain ⟨config, allocation⟩ := rule
    obtain ⟨u, hu, hrest⟩ := run_cons_eq_some.mp hrun
    simp only [step, Option.ite_none_right_eq_some, Option.some.injEq] at hu
    obtain ⟨-, rfl⟩ := hu
    obtain ⟨hidle, hworks⟩ := ih hrest
    constructor
    · intro hservice
      have hsame : s.importRule config allocation = s := by
        rw [importRule, hservice]
        rfl
      rw [hsame] at hidle
      exact hidle hservice
    · intro hservice
      obtain ⟨-, -, -, -, hstays⟩ := importRule_frame hservice config allocation
      obtain ⟨hgrows, hcases⟩ := hworks (hstays.trans hservice)
      by_cases hid : (s.store.addRule allocation config.fields).1 = 0
      · rw [importRule_of_no_id hservice hid] at hgrows hcases
        rw [takesNone, decide_eq_true hid, Bool.true_and]
        exact ⟨hgrows, hcases⟩
      · have hmore := importRule_of_id hservice hid
        rw [takesNone, decide_eq_false hid, Bool.false_and]
        exact ⟨by omega, .inr ⟨rfl, by omega⟩⟩

/-- A file is imported without a save, and its rules stay out of `config.json`. -/
theorem contents_importRules_iff {found : List (ProxyRuleConfig × Allocation)}
    (hrun : run step s (WindowOperation.importRules found).steps = some t) :
    t.contents = s.contents ↔ s.service = false ∨ takesNone s.store found = true := by
  obtain ⟨hidle, hworks⟩ := run_importRules hrun
  cases hservice : s.service with
  | false => exact iff_of_true (by rw [hidle hservice]) (.inl rfl)
  | true =>
    rcases (hworks hservice).2 with ⟨hnone, hrules⟩ | ⟨hsome, hmore⟩
    · exact iff_of_true (contents_eq hrules) (.inr hnone)
    · refine iff_of_false ?_ (by simp [hsome])
      intro h
      have hlength := congrArg List.length h
      rw [contents, contents, List.length_map, List.length_map] at hlength
      omega

/-- A drag changes the order of the contents if it takes a rule past one with other contents. -/
theorem contents_dropRule_iff {row target : ℕ} {dragged targeted : ProxyRule}
    (hdragged : s.rules[row]? = some dragged) (htargeted : s.rules[target]? = some targeted)
    (hdrop : s.dropRule row target dragged targeted = some t) :
    t.contents = s.contents ↔ dragged.ruleId = targeted.ruleId ∨
      s.store.finds dragged.ruleId = false ∨
        ∀ k ≤ max row target, min row target ≤ k → s.contents[k]? = some dragged.saved := by
  rcases dropRule_cases hdragged htargeted hdrop with
    ⟨rfl, hstays⟩ | ⟨hne, hfinds, -, -, -, hrules, -⟩
  · exact iff_of_true rfl (hstays.imp_right .inl)
  · obtain ⟨htarget, -⟩ := List.getElem?_eq_some_iff.mp htargeted
    have hat : s.contents[row]? = some dragged.saved := by
      rw [contents, List.getElem?_map, hdragged, Option.map_some]
    have hbound : target < s.contents.length := by
      rw [contents, List.length_map]
      exact htarget
    have hmoved : t.contents = (s.contents.eraseIdx row).insertIdx target dragged.saved := by
      rw [contents, hrules, map_moved fun _ _ => rfl, contents]
    rw [hmoved, Rows.moved_eq_self_iff hat hbound, or_iff_right hne, hfinds]
    simp only [Bool.true_eq_false, false_or]
    exact forall_congr' fun k => forall_comm

theorem deleteSelectedFrom_of_none (store : RuleStore) (kept : List ProxyRule)
    {rules : List ProxyRule} (h : ∀ rule ∈ rules, rule.isSelected = false) :
    deleteSelectedFrom store kept rules = (store, kept ++ rules) := by
  induction rules generalizing kept with
  | nil => rw [deleteSelectedFrom, List.append_nil]
  | cons rule rules ih =>
    obtain ⟨hrule, hrest⟩ := List.forall_mem_cons.mp h
    rw [deleteSelectedFrom, hrule, Bool.false_and, if_neg Bool.false_ne_true, ih _ hrest,
      List.append_assoc]
    rfl

/-- An operation without a save leaves the contents alone exactly when the file need not change. -/
theorem contents_step_iff {op : WindowOperation} (hrun : run step s op.steps = some t)
    (hnot : s.startsSave op = false) : t.contents = s.contents ↔ s.KeepsSaved op := by
  have hsingle {op : RuleOperation} (h : run step s [op] = some t) : Stepped s op t := by
    obtain ⟨u, hu, hnil⟩ := run_cons_eq_some.mp h
    obtain rfl := Option.some.inj hnil
    exact stepped_of_step hu
  cases op with
  | add texts allocation =>
    refine iff_of_true ?_ trivial
    cases hsingle hrun with
    | idle => rfl
    | add _ hservice =>
      simp only [startsSave, hservice, Bool.true_and, decide_eq_false_iff_not, not_not] at hnot
      apply contents_eq
      simp [addRule, hservice, append, hnot]
  | edit ruleId texts copied =>
    refine iff_of_true ?_ trivial
    cases hsingle hrun with
    | idle => rfl
    | edit =>
      apply contents_eq
      unfold editRule
      dsimp only
      rw [if_neg (by simpa [startsSave] using hnot)]
  | setEnabled row enabled =>
    obtain ⟨u, hu, hnil⟩ := run_cons_eq_some.mp hrun
    obtain rfl := Option.some.inj hnil
    obtain ⟨-, rule, hrule, hswitch⟩ := atRow_eq_some hu
    obtain rfl := Option.some.inj hswitch
    rw [contents_switchRule_iff hrule, KeepsSaved, hrule]
    simp only [startsSave, hrule, Option.any_some, Bool.and_eq_false_iff, decide_eq_false_iff_not,
      not_not] at hnot
    rcases hnot with hservice | hsame
    · simp [hservice]
    · exact iff_of_true hsame (.inr (by simpa using hsame))
  | setSelected row selected =>
    refine iff_of_true ?_ trivial
    cases hsingle hrun with
    | idle => rfl
    | setSelected _ hrule =>
      unfold contents
      exact Rows.map_set hrule rfl
  | delete row =>
    refine iff_of_true ?_ trivial
    cases hsingle hrun with
    | idle => rfl
    | delete _ hservice hrule =>
      simp only [startsSave, hservice, hrule, Bool.true_and, Option.any_some] at hnot
      apply contents_eq
      unfold deleteRule
      dsimp only
      rw [if_neg (by simpa using hnot)]
  | deleteSelected =>
    refine iff_of_true ?_ trivial
    cases hsingle hrun with
    | idle => rfl
    | deleteSelected =>
      apply contents_eq
      have hnone : ∀ rule ∈ s.rules, rule.isSelected = false := by
        simpa [startsSave] using hnot
      have hkept := deleteSelectedFrom_of_none s.store [] hnone
      rw [deleteSelected, hkept]
      rfl
  | importRules found => exact contents_importRules_iff hrun
  | drag row target =>
    cases hsingle hrun with
    | idle _ hservice => exact iff_of_true rfl (.inl hservice)
    | drag _ hservice hdragged htargeted hdrop =>
      rw [contents_dropRule_iff hdragged htargeted hdrop, KeepsSaved]
      simp [hservice, hdragged, htargeted]

end GuiState

namespace Session

variable {s t : Session}

/-- With a quiet start a step ends quiet, and what it leaves in the file is the new contents if it
saves, and what was there before if it does not. -/
theorem step_cases {op : WindowOperation} (hquiet : s.saves.Quiet) (hstep : s.step op = some t) :
    run GuiState.step s.gui op.steps = some t.gui ∧ t.saves.Quiet ∧
      (s.gui.startsSave op = true ∧ t.Agrees ∨
        s.gui.startsSave op = false ∧ t.saves.file = s.saves.file) := by
  obtain ⟨gui, hrun, hsave⟩ := Option.bind_eq_some_iff.mp hstep
  split_ifs at hsave with hstarts
  · obtain ⟨saves, hsaves, rfl⟩ := Option.map_eq_some_iff.mp hsave
    obtain ⟨saved, hsaved, hfile, hended⟩ := hquiet.saveAlone gui.contents
    obtain rfl := Option.some.inj (hsaved.symm.trans hsaves)
    exact ⟨hrun, hended, .inl ⟨hstarts, hfile⟩⟩
  · obtain rfl := Option.some.inj hsave
    exact ⟨hrun, hquiet.assign _, .inr ⟨by simpa using hstarts, rfl⟩⟩

theorem keepsSaved_of_startsSave {gui : GuiState} {op : WindowOperation}
    (h : gui.startsSave op = true) : gui.KeepsSaved op := by
  cases op with
  | setEnabled row enabled =>
    simp only [GuiState.startsSave, Bool.and_eq_true] at h
    exact .inl h.1
  | importRules found => cases h
  | drag row target => cases h
  | _ => trivial

theorem agrees_step_iff {op : WindowOperation} (h : s.Agrees) (hquiet : s.saves.Quiet)
    (hstep : s.step op = some t) : t.Agrees ↔ s.gui.KeepsSaved op := by
  obtain ⟨hrun, -, ⟨hstarts, hagrees⟩ | ⟨hnot, hfile⟩⟩ := step_cases hquiet hstep
  · exact iff_of_true hagrees (keepsSaved_of_startsSave hstarts)
  · rw [← GuiState.contents_step_iff hrun hnot, Agrees, hfile, h, Option.some.injEq, eq_comm]

/-- After every operation in the rules window the file has the rules that are shown exactly when no
operation imports a rule, drags one past another one or switches one without a service. -/
theorem agrees_iff {gui : GuiState} {ops : List WindowOperation}
    (hrun : run step (opened gui) ops = some t) :
    EachStep step (fun _ _ t => t.Agrees) (opened gui) ops ↔
      Guarded step (fun s op => s.gui.KeepsSaved op) (opened gui) ops := by
  apply eachStep_iff_guarded (I := fun s => s.Agrees ∧ s.saves.Quiet) _ _ hrun
    (guarded_true _ _) ⟨rfl, by simp [opened, Saves.start], rfl⟩
  · intro s op t hs _ hstep
    exact agrees_step_iff hs.1 hs.2 hstep
  · intro s op t hs _ hstep hagrees
    exact ⟨hagrees, (step_cases hs.2 hstep).2.1⟩

/-- The window with a service and without a rule. -/
def emptyWindow : GuiState := GuiState.initial.load [] .succeeds

theorem agrees_added :
    EachStep step (fun _ _ t => t.Agrees) (opened emptyWindow)
      [.add (wholeProcess "curl.exe") .succeeds, .add (wholeProcess "ssh.exe") .succeeds,
        .setEnabled 0 false, .setSelected 1 true, .deleteSelected] := by
  have hrun : ∃ t, run step (opened emptyWindow)
      [.add (wholeProcess "curl.exe") .succeeds, .add (wholeProcess "ssh.exe") .succeeds,
        .setEnabled 0 false, .setSelected 1 true, .deleteSelected] = some t := ⟨_, rfl⟩
  obtain ⟨t, ht⟩ := hrun
  exact (agrees_iff ht).mpr (by decide)

/-- An imported rule is not in the file, and after a drag the file has the old order. -/
theorem file_after_import_and_drag :
    (∃ t, run step (opened emptyWindow)
        [.importRules [(⟨wholeProcess "curl.exe", true⟩, .succeeds)]] = some t ∧
      t.gui.contents = [⟨wholeProcess "curl.exe", true⟩] ∧ t.saves.file = some [] ∧ ¬ t.Agrees) ∧
    ∃ t, run step (opened emptyWindow)
        [.add (wholeProcess "curl.exe") .succeeds, .add (wholeProcess "ssh.exe") .succeeds,
          .drag 0 1] = some t ∧
      t.gui.contents = [⟨wholeProcess "ssh.exe", true⟩, ⟨wholeProcess "curl.exe", true⟩] ∧
      t.saves.file = some [⟨wholeProcess "curl.exe", true⟩, ⟨wholeProcess "ssh.exe", true⟩] ∧
      ¬ t.Agrees :=
  ⟨⟨_, rfl, by decide, by decide, by decide⟩, ⟨_, rfl, by decide, by decide, by decide⟩⟩

end Session
end ProxyTun.WindowsGui
