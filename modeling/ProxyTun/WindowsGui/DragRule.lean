import Mathlib.Data.List.InsertIdx
import ProxyTun.WindowsGui.RuleIds
import ProxyTun.Windows.MoveRule

/-!
# Dragging a rule

The engine counts the position behind the rules that are left once the rule is unlinked, as the
collection does when it moves a row. Where both hold the same rules, they agree on every move.
-/
namespace ProxyTun.WindowsGui
open Library Windows

namespace GuiState

/-- The ids of all rows of the collection. -/
def rowIds (s : GuiState) : List (BitVec 32) := s.rules.map fun rule => rule.ruleId

variable {s t : GuiState} {row target : ℕ} {dragged targeted : ProxyRule}

theorem map_renumber {β : Type*} {f : ProxyRule → β}
    (hf : ∀ (rule : ProxyRule) (i : ℕ), f { rule with index := i } = f rule)
    (rules : List ProxyRule) : (renumber rules).map f = rules.map f := by
  apply List.ext_getElem?
  intro i
  simp [renumber, hf, Function.comp_def]

/-- The collection after a move, read in any way that leaves out the numbers of the rows. -/
theorem map_moved {β : Type*} {f : ProxyRule → β}
    (hf : ∀ (rule : ProxyRule) (i : ℕ), f { rule with index := i } = f rule) :
    (renumber ((s.rules.eraseIdx row).insertIdx target dragged)).map f =
      ((s.rules.map f).eraseIdx row).insertIdx target (f dragged) := by
  rw [map_renumber hf, List.map_insertIdx, List.eraseIdx_map]

theorem dropRule_isSome (hsame : s.rowIds = s.store.ids) (hne : row ≠ target)
    (hdragged : s.rules[row]? = some dragged) (htargeted : s.rules[target]? = some targeted) :
    ∃ t, s.dropRule row target dragged targeted = some t := by
  unfold dropRule
  split_ifs
  · exact ⟨s, rfl⟩
  · have hmoved :
        s.store.moveRuleToPosition dragged.ruleId (target + 1) ≠ none := by
      rw [Ne, RuleStore.moveRuleToPosition_eq_none_iff, ← hsame]
      rintro ⟨-, honly, -⟩
      have hlength : s.rules.length = 1 :=
        (List.length_map _).symm.trans (congrArg List.length honly)
      obtain ⟨hrow, -⟩ := List.getElem?_eq_some_iff.mp hdragged
      obtain ⟨htarget, -⟩ := List.getElem?_eq_some_iff.mp htargeted
      omega
    obtain ⟨moved, hmove⟩ := Option.ne_none_iff_exists'.mp hmoved
    rw [hmove]
    exact ⟨_, rfl⟩

/-- Where the collection and the engine hold the same distinct ids in the same order, they do so
after every drag of a row onto another one. -/
theorem dropRule_agrees (hsame : s.rowIds = s.store.ids) (hnodup : s.store.ids.Nodup)
    (hne : row ≠ target) (hdragged : s.rules[row]? = some dragged)
    (htargeted : s.rules[target]? = some targeted) :
    ∃ t, s.dropRule row target dragged targeted = some t ∧ t.rowIds = t.store.ids := by
  obtain ⟨t, hdrop⟩ := dropRule_isSome hsame hne hdragged htargeted
  refine ⟨t, hdrop, ?_⟩
  rcases dropRule_cases hdragged htargeted hdrop with
    ⟨rfl, -⟩ | ⟨-, -, -, -, -, hrules, rule, hrule, -, hstored⟩
  · exact hsame
  · obtain ⟨hrow, hid⟩ := List.getElem?_eq_some_iff.mp
      (show s.rowIds[row]? = some dragged.ruleId by rw [rowIds, List.getElem?_map, hdragged]; rfl)
    have hothers : s.rowIds.eraseIdx row = s.rowIds.erase dragged.ruleId := by
      rw [← hid]
      exact ((hsame ▸ hnodup).erase_getElem row hrow).symm
    obtain ⟨htarget, -⟩ := List.getElem?_eq_some_iff.mp htargeted
    have hbound : target ≤ (s.rowIds.eraseIdx row).length := by
      have hlength : s.rowIds.length = s.rules.length := List.length_map _
      rw [List.length_eraseIdx_of_lt hrow]
      omega
    calc t.rowIds
        = (s.rowIds.eraseIdx row).insertIdx target dragged.ruleId := by
          rw [rowIds, hrules, map_moved fun _ _ => rfl, rowIds]
      _ = (s.store.ids.erase dragged.ruleId).take target ++
            dragged.ruleId :: (s.store.ids.erase dragged.ruleId).drop target := by
          rw [Rows.insertIdx_eq hbound, hothers, hsame]
      _ = t.store.ids := (RuleStore.ids_moved hrule hstored).symm

def twoRows : GuiState where
  store := RuleStore.twoRules
  rules := [⟨wholeProcess "ssh", 2, 1, true, false⟩, ⟨wholeProcess "curl", 1, 2, true, false⟩]
  service := true
  startup := .finished

theorem dropRule_agrees_twoRows :
    ∃ t, twoRows.dropRule 0 1 ⟨wholeProcess "ssh", 2, 1, true, false⟩
      ⟨wholeProcess "curl", 1, 2, true, false⟩ = some t ∧ t.rowIds = t.store.ids :=
  dropRule_agrees (by decide) (by decide) (by decide) rfl rfl

end GuiState
end ProxyTun.WindowsGui
