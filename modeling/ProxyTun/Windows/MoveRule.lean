import ProxyTun.Rules.RuleStore

/-!
# Moving a rule

`ProxyTun_MoveRuleToPosition` unlinks the rule before it walks to the new position. If no other
rule is left, there is nothing behind which the rule could be put.
-/
namespace ProxyTun.Windows

/-- Where an id stands once, taking out the first rule with it takes out all. -/
theorem eraseP_eq_filter {ruleId : BitVec 32} {rules : List Rule}
    (h : (rules.map fun rule => rule.ruleId).Nodup) :
    (rules.eraseP fun rule => rule.ruleId = ruleId) =
      rules.filter fun rule => rule.ruleId ≠ ruleId := by
  induction rules with
  | nil => rfl
  | cons rule rules ih =>
    obtain ⟨hnot, hrest⟩ := List.nodup_cons.mp h
    by_cases hid : rule.ruleId = ruleId
    · rw [List.eraseP_cons_of_pos (by simpa using hid),
        List.filter_cons_of_neg (by simpa using hid),
        Library.Rows.filter_of_name_not_mem (hid ▸ hnot)]
    · rw [List.eraseP_cons_of_neg (by simpa using hid),
        List.filter_cons_of_pos (by simpa using hid), ih hrest]

namespace RuleStore

/-- The same rules, the named one at the position or at the end, the others in their order. -/
structure MovedTo (ruleId : BitVec 32) (newPosition : ℕ) (s t : RuleStore) : Prop where
  same : t.rules.Perm s.rules
  placed : t.ids[min newPosition s.ids.length - 1]? = some ruleId
  others : (t.rules.filter fun rule => rule.ruleId ≠ ruleId) =
    s.rules.filter fun rule => rule.ruleId ≠ ruleId

variable {s t : RuleStore} {ruleId : BitVec 32} {newPosition : ℕ}

theorem length_ids : s.ids.length = s.rules.length := List.length_map _

/-- The call follows a null pointer only if it moves the only rule away from the head. -/
theorem moveRuleToPosition_eq_none_iff :
    s.moveRuleToPosition ruleId newPosition = none ↔
      ruleId ≠ 0 ∧ s.ids = [ruleId] ∧ 1 < newPosition := by
  unfold moveRuleToPosition
  by_cases hgiven : (newPosition = 0 || ruleId = 0) = true
  · rw [if_pos hgiven]
    simp only [Bool.or_eq_true, decide_eq_true_eq] at hgiven
    refine iff_of_false (by simp) ?_
    rintro ⟨hid, -, hposition⟩
    rcases hgiven with hzero | hzero
    · omega
    · exact hid hzero
  · rw [if_neg hgiven]
    simp only [Bool.or_eq_true, decide_eq_true_eq, not_or] at hgiven
    split
    · rename_i hfind
      refine iff_of_false (by simp) ?_
      rintro ⟨-, hids, -⟩
      have hmem : ruleId ∈ s.ids := by simp [hids]
      obtain ⟨rule, hrule, hid⟩ := List.mem_map.mp hmem
      exact List.find?_eq_none.mp hfind rule hrule (by simpa using hid)
    · rename_i rule hfind
      have hid : rule.ruleId = ruleId := by simpa using List.find?_some hfind
      have hperm := perm_cons_eraseP hfind
      have honly : (s.rules.eraseP fun rule => rule.ruleId = ruleId) = [] ↔ s.ids = [ruleId] := by
        constructor
        · intro hrest
          rw [hrest] at hperm
          rw [ids, List.perm_singleton.mp hperm.symm, List.map_singleton, hid]
        · intro hids
          have hlength : s.rules.length = 1 := by
            rw [← length_ids, hids]
            rfl
          have hcons := hperm.length_eq
          rw [List.length_cons, hlength] at hcons
          exact List.eq_nil_of_length_eq_zero (by omega)
      dsimp only
      split_ifs with hhead hrest
      · refine iff_of_false (by simp) ?_
        rintro ⟨-, -, hposition⟩
        omega
      · exact iff_of_true rfl ⟨hgiven.2, honly.mp hrest, by omega⟩
      · refine iff_of_false (by simp) ?_
        rintro ⟨-, hids, -⟩
        exact hrest (honly.mpr hids)

theorem movedTo_of_move (hnodup : s.ids.Nodup)
    (h : s.moveRuleToPosition ruleId newPosition = some (true, t)) :
    s.finds ruleId = true ∧ 0 < newPosition ∧ MovedTo ruleId newPosition s t := by
  obtain ⟨hfalse, -⟩ | ⟨-, hpos, hfinds, -, rule, hrule, hperm, hrules⟩ :=
    moveRuleToPosition_cases h
  · cases hfalse
  · refine ⟨hfinds, hpos, perm_moved hperm hrules, ?_, ?_⟩
    · have hid := (finds_iff.mp hfinds).2
      have hlength := List.length_erase_of_mem hid
      have hmem := List.length_pos_of_mem hid
      have hindex : ((s.ids.erase ruleId).take (newPosition - 1)).length =
          min newPosition s.ids.length - 1 := by
        rw [List.length_take, hlength]
        omega
      rw [ids_moved hrule hrules, ← hindex, List.getElem?_append_right le_rfl, Nat.sub_self,
        List.getElem?_cons_zero]
    · rw [hrules, List.filter_append, List.filter_cons_of_neg (by simp [hrule]),
        ← List.filter_append, List.take_append_drop, eraseP_eq_filter hnodup]
      simp

theorem moveRuleToPosition_of_finds (hpos : 0 < newPosition) (hfinds : s.finds ruleId = true)
    (hrest : s.ids ≠ [ruleId] ∨ newPosition = 1) :
    ∃ t, s.moveRuleToPosition ruleId newPosition = some (true, t) := by
  have hsome : s.moveRuleToPosition ruleId newPosition ≠ none := by
    rw [Ne, moveRuleToPosition_eq_none_iff]
    rintro ⟨-, hids, hposition⟩
    rcases hrest with hne | hone
    · exact hne hids
    · omega
  obtain ⟨⟨ok, t⟩, hmove⟩ := Option.ne_none_iff_exists'.mp hsome
  obtain ⟨-, -, hzero | hnot⟩ | ⟨rfl, -⟩ := moveRuleToPosition_cases hmove
  · omega
  · rw [hfinds] at hnot
    cases hnot
  · exact ⟨t, hmove⟩

/-- A rule is moved to its position, unless it is the only one and leaves the head, or its id
is 0. -/
theorem moveRuleToPosition_moves_iff (s : RuleStore) (hnodup : s.ids.Nodup) (ruleId : BitVec 32)
    (hid : ruleId ∈ s.ids) (newPosition : ℕ) (hpos : 1 ≤ newPosition) :
    (∃ t, s.moveRuleToPosition ruleId newPosition = some (true, t) ∧
        MovedTo ruleId newPosition s t) ↔
      ruleId ≠ 0 ∧ (newPosition = 1 ∨ 2 ≤ s.rules.length) := by
  rw [← length_ids]
  constructor
  · rintro ⟨t, hmove, -⟩
    obtain ⟨hfinds, -, -⟩ := movedTo_of_move hnodup hmove
    have hne := (finds_iff.mp hfinds).1
    refine ⟨hne, ?_⟩
    by_contra hfew
    have honly : s.ids = [ruleId] := by
      have hsome : 0 < s.ids.length := List.length_pos_of_mem hid
      have hone : s.ids.length = 1 := by omega
      obtain ⟨id, hids⟩ := List.length_eq_one_iff.mp hone
      rw [hids] at hid ⊢
      rw [List.mem_singleton.mp hid]
    have hleaves : 1 < newPosition := by omega
    rw [moveRuleToPosition_eq_none_iff.mpr ⟨hne, honly, hleaves⟩] at hmove
    cases hmove
  · rintro ⟨hne, hroom⟩
    have hrest : s.ids ≠ [ruleId] ∨ newPosition = 1 := by
      rcases hroom with hone | htwo
      · exact .inr hone
      · left
        intro hids
        rw [hids] at htwo
        exact absurd htwo (by simp)
    obtain ⟨t, hmove⟩ := moveRuleToPosition_of_finds hpos (finds_iff.mpr ⟨hne, hid⟩) hrest
    exact ⟨t, hmove, (movedTo_of_move hnodup hmove).2.2⟩

/-- Two rules for curl and ssh. -/
def twoRules : RuleStore :=
  let fields (name : String) : RuleFields := ⟨name.toList, ['*'], ['*'], .both, .proxy⟩
  ⟨[(fields "ssh").rule 2, (fields "curl").rule 1], 3⟩

theorem moveRuleToPosition_moves_twoRules :
    ∃ t, twoRules.moveRuleToPosition 2 7 = some (true, t) ∧ MovedTo 2 7 twoRules t :=
  (moveRuleToPosition_moves_iff twoRules (by decide) 2 (by decide) 7 (by decide)).mpr (by decide)

/-- The only rule is moved to position 2. -/
theorem moveRuleToPosition_only_rule :
    let s : RuleStore := ⟨[RuleFields.rule ⟨"curl".toList, ['*'], ['*'], .both, .proxy⟩ 1], 2⟩
    s.ids.Nodup ∧ 1 ∈ s.ids ∧ s.moveRuleToPosition 1 2 = none ∧
      ¬ ∃ t, s.moveRuleToPosition 1 2 = some (true, t) ∧ MovedTo 1 2 s t := by
  refine ⟨by decide, by decide, by decide, ?_⟩
  rintro ⟨t, hmove, -⟩
  cases hmove

end RuleStore
end ProxyTun.Windows
