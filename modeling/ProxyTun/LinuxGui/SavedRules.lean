import ProxyTun.Library.Rows
import ProxyTun.LinuxGui.RuleList

/-!
# The saved rules

`on_save_rule`, `on_rule_toggle` and `on_rule_delete` write the configuration after they have
changed the list. `on_rule_import_clicked` and `on_bulk_delete_clicked` do not.
-/
namespace ProxyTun.LinuxGui
open Library Library.Transition
open Windows (RuleFields Allocation)

/-- What a restart brings back of a rule. Ids are given out anew, and no rule is selected. -/
def RuleData.content (rule : RuleData) : RuleFields × Bool := (rule.fields, rule.enabled)

namespace GuiState

/-- The rules in `config.ini` are those of the list. -/
def SavedAgrees (s : GuiState) : Prop :=
  s.saved.map RuleData.content = s.rules.map RuleData.content

instance (s : GuiState) : Decidable s.SavedAgrees := inferInstanceAs (Decidable (_ = _))

/-- No rule is deleted in bulk, and none is imported. -/
def KeepsSaved (s : GuiState) : RuleOperation → Prop
  | .bulkDelete => ∀ rule ∈ s.rules, rule.selected = false
  | .importRules found => found = []
  | _ => True

instance (s : GuiState) : ∀ op, Decidable (s.KeepsSaved op)
  | .bulkDelete => inferInstanceAs (Decidable (∀ rule ∈ s.rules, rule.selected = false))
  | .importRules found => inferInstanceAs (Decidable (found = []))
  | .add .. | .edit .. | .toggle .. | .select .. | .selectAll | .delete _ => .isTrue trivial

variable {s t : GuiState}

theorem savedAgrees_save (s : GuiState) : s.save.SavedAgrees := rfl

/-- An operation that leaves the file alone keeps the agreement if and only if it leaves the
contents of the list alone. -/
theorem savedAgrees_iff_of_eq (h : s.SavedAgrees) (hsaved : t.saved = s.saved) :
    t.SavedAgrees ↔ t.rules.map RuleData.content = s.rules.map RuleData.content := by
  rw [SavedAgrees, hsaved, h, eq_comm]

theorem savedAgrees_of_map (h : s.SavedAgrees) (hsaved : t.saved = s.saved)
    (hrules : t.rules.map RuleData.content = s.rules.map RuleData.content) : t.SavedAgrees :=
  (savedAgrees_iff_of_eq h hsaved).mpr hrules

theorem content_restoreFrom (store : Windows.RuleStore) (rules : List (RuleData × Allocation)) :
    (restoreFrom store rules).2.map RuleData.content =
      (rules.map Prod.fst).map RuleData.content := by
  induction rules generalizing store with
  | nil => rfl
  | cons rule rules ih =>
    simp only [restoreFrom, List.map_cons, ih]
    rfl

theorem savedAgrees_atStartup (started : Bool) (loaded : List (RuleData × Allocation)) :
    (atStartup started loaded).SavedAgrees := by
  unfold atStartup
  split
  · exact (content_restoreFrom _ loaded).symm
  · rfl

theorem savedAgrees_addRule (h : s.SavedAgrees) (fields : RuleFields) (allocation : Allocation) :
    (s.addRule fields allocation).SavedAgrees := by
  unfold addRule
  split
  · exact h
  · exact savedAgrees_save _

theorem savedAgrees_editRule (h : s.SavedAgrees) (row : ℕ) (rule : RuleData)
    (fields : RuleFields) (copied : Bool) :
    (s.editRule row rule fields copied).SavedAgrees := by
  unfold editRule
  split
  · exact h
  · exact savedAgrees_save _

theorem savedAgrees_bulkDelete_iff (h : s.SavedAgrees) :
    s.bulkDelete.SavedAgrees ↔ ∀ rule ∈ s.rules, rule.selected = false := by
  rw [savedAgrees_iff_of_eq (t := s.bulkDelete) h rfl]
  constructor
  · intro hsame
    have hlength := congrArg List.length hsame
    rw [List.length_map, List.length_map] at hlength
    simpa using List.length_filter_eq_length_iff.mp hlength
  · intro hnone
    have hkept : s.bulkDelete.rules = s.rules :=
      List.filter_eq_self.mpr fun rule hrule => by simp [hnone rule hrule]
    rw [hkept]

theorem savedAgrees_importRules_iff (h : s.SavedAgrees)
    (found : List (ImportedRule × Allocation)) :
    (s.importRules found).SavedAgrees ↔ found = [] := by
  rw [savedAgrees_iff_of_eq (t := s.importRules found) h rfl]
  constructor
  · intro hsame
    have hlength := congrArg List.length hsame
    rw [List.length_map, List.length_map] at hlength
    simp only [importRules, List.length_append, length_importFrom] at hlength
    exact List.eq_nil_of_length_eq_zero (by omega)
  · rintro rfl
    simp [importRules, importFrom]

/-- An operation keeps the agreement of file and list exactly when it saves all that it changes. -/
theorem savedAgrees_step_iff (h : s.SavedAgrees) {op : RuleOperation}
    (hstep : s.step op = some t) : t.SavedAgrees ↔ s.KeepsSaved op := by
  cases op with
  | add fields allocation =>
    obtain rfl := Option.some.inj hstep
    exact iff_of_true (savedAgrees_addRule h fields allocation) trivial
  | edit row fields copied =>
    obtain ⟨rule, -, rfl⟩ := Option.map_eq_some_iff.mp hstep
    exact iff_of_true (savedAgrees_editRule h row rule fields copied) trivial
  | toggle row enabled =>
    obtain ⟨rule, -, rfl⟩ := Option.map_eq_some_iff.mp hstep
    exact iff_of_true (savedAgrees_save _) trivial
  | select row selected =>
    obtain ⟨rule, hrule, rfl⟩ := Option.map_eq_some_iff.mp hstep
    exact iff_of_true (savedAgrees_of_map h rfl (Rows.map_set hrule rfl)) trivial
  | selectAll =>
    obtain rfl := Option.some.inj hstep
    refine iff_of_true (savedAgrees_of_map h rfl ?_) trivial
    rw [selectAll, List.map_map]
    rfl
  | delete row =>
    obtain ⟨rule, -, rfl⟩ := Option.map_eq_some_iff.mp hstep
    exact iff_of_true (savedAgrees_save _) trivial
  | bulkDelete =>
    obtain rfl := Option.some.inj hstep
    exact savedAgrees_bulkDelete_iff h
  | importRules found =>
    obtain rfl := Option.some.inj hstep
    exact savedAgrees_importRules_iff h found

/-- After every operation of a session the file holds the rules of the list exactly when no
operation deletes in bulk or imports a rule. -/
theorem savedAgrees_iff {started : Bool} {loaded : List (RuleData × Allocation)}
    {ops : List RuleOperation} (hrun : run step (atStartup started loaded) ops = some t) :
    EachStep step (fun _ _ t => t.SavedAgrees) (atStartup started loaded) ops ↔
      Guarded step KeepsSaved (atStartup started loaded) ops := by
  apply eachStep_iff_guarded (I := SavedAgrees) _ _ hrun (guarded_true _ _)
    (savedAgrees_atStartup started loaded)
  · intro s op t hs _ hstep
    exact savedAgrees_step_iff hs hstep
  · intro s op t _ _ _ hagrees
    exact hagrees

theorem savedAgrees_added :
    EachStep step (fun _ _ t => t.SavedAgrees) (atStartup true [])
      [.add (wholeProcess "curl") .succeeds, .toggle 0 false, .delete 0] := by
  have hrun : ∃ t, run step (atStartup true [])
      [.add (wholeProcess "curl") .succeeds, .toggle 0 false, .delete 0] = some t := ⟨_, rfl⟩
  obtain ⟨t, ht⟩ := hrun
  exact (savedAgrees_iff ht).mpr (by decide)

/-- A rule that is selected and deleted in bulk is still in the file. -/
theorem saved_after_bulkDelete : ∃ t,
    run step (atStartup true []) [.add (wholeProcess "curl") .succeeds, .select 0 true,
      .bulkDelete] = some t ∧
    t.rules = [] ∧ t.saved.map RuleData.content = [(wholeProcess "curl", true)] ∧
      ¬ t.SavedAgrees :=
  ⟨_, rfl, by decide, by decide, by decide⟩

end GuiState
end ProxyTun.LinuxGui
