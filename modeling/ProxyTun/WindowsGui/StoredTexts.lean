import ProxyTun.WindowsGui.RuleIds

/-!
# The texts of the rules in the engine

The engine has the texts of every rule that is shown with an id. It cuts the name of the process
to the size of its buffer, and in a new rule it takes an empty list for a star.
-/
namespace ProxyTun.WindowsGui
open Library Library.Transition Windows

/-- A list of hosts or ports as the engine may have it. -/
def CopyOf (text stored : CStr) : Prop := stored = text ∨ stored = orEverything text

/-- A rule of the engine that was made of the fields. -/
structure MadeOf (fields : RuleFields) (native : Rule) : Prop where
  processName : native.processName = truncateName fields.processName
  targetHosts : CopyOf fields.targetHosts native.targetHosts
  targetPorts : CopyOf fields.targetPorts native.targetPorts
  protocol : native.protocol = fields.protocol
  action : native.action = fields.action

def TextsStored (natives : List Rule) (rules : List ProxyRule) : Prop :=
  ∀ rule ∈ rules, rule.ruleId ≠ 0 →
    ∃ native ∈ natives, native.ruleId = rule.ruleId ∧ MadeOf rule.fields native

theorem madeOf_rule (fields : RuleFields) (ruleId : BitVec 32) :
    MadeOf fields (fields.rule ruleId) :=
  ⟨rfl, .inr rfl, .inr rfl, rfl, rfl⟩

theorem madeOf_edited (fields : RuleFields) (native : Rule) :
    MadeOf fields (RuleStore.edited true fields native) :=
  ⟨rfl, .inl rfl, .inl rfl, rfl, rfl⟩

theorem MadeOf.setEnabled {fields : RuleFields} {native : Rule} (h : MadeOf fields native)
    (enabled : Bool) : MadeOf fields { native with enabled := enabled } :=
  ⟨h.processName, h.targetHosts, h.targetPorts, h.protocol, h.action⟩

namespace TextsStored

variable {natives natives' : List Rule} {rules rules' : List ProxyRule}

/-- More rules of the engine, and rows that are the same up to their other fields. -/
theorem of_subset (h : TextsStored natives rules) (hnatives : natives ⊆ natives')
    (hrules : ∀ rule' ∈ rules', ∃ rule ∈ rules, rule.ruleId = rule'.ruleId ∧
      rule.toRuleTexts = rule'.toRuleTexts) : TextsStored natives' rules' := by
  intro rule' hrule' hid
  obtain ⟨rule, hrule, hsame, htexts⟩ := hrules rule' hrule'
  obtain ⟨native, hnative, hnativeId, hmade⟩ := h rule hrule (hsame ▸ hid)
  refine ⟨native, hnatives hnative, hnativeId.trans hsame, ?_⟩
  rw [← htexts]
  exact hmade

theorem set (h : TextsStored natives rules) {row : ℕ} {rule new : ProxyRule}
    (hrule : rules[row]? = some rule) (hid : new.ruleId = rule.ruleId)
    (htexts : new.toRuleTexts = rule.toRuleTexts) : TextsStored natives (rules.set row new) := by
  apply h.of_subset (List.Subset.refl natives)
  intro rule' hrule'
  rcases List.mem_or_eq_of_mem_set hrule' with hmem | rfl
  · exact ⟨rule', hmem, rfl, rfl⟩
  · exact ⟨rule, List.mem_of_getElem? hrule, hid.symm, htexts.symm⟩

end TextsStored

theorem mem_updateRule {ruleId : BitVec 32} {f : Rule → Rule} {natives : List Rule} {native : Rule}
    (h : native ∈ natives) :
    native ∈ updateRule ruleId f natives ∨ f native ∈ updateRule ruleId f natives := by
  induction natives with
  | nil => cases h
  | cons first natives ih =>
    unfold updateRule
    rcases List.mem_cons.mp h with rfl | hmem
    · split_ifs
      · exact .inr List.mem_cons_self
      · exact .inl List.mem_cons_self
    · split_ifs
      · exact .inl (List.mem_cons_of_mem _ hmem)
      · exact (ih hmem).imp (List.mem_cons_of_mem _) (List.mem_cons_of_mem _)

theorem TextsStored.setEnabled {store : RuleStore} {rules : List ProxyRule}
    (h : TextsStored store.rules rules) (enabled : Bool) (ruleId : BitVec 32) :
    TextsStored (store.setEnabled enabled ruleId).2.rules rules := by
  unfold RuleStore.setEnabled
  split_ifs
  · intro rule hrule hid
    obtain ⟨native, hnative, hsame, hmade⟩ := h rule hrule hid
    rcases mem_updateRule hnative with hmem | hmem
    · exact ⟨native, hmem, hsame, hmade⟩
    · exact ⟨_, hmem, hsame, hmade.setEnabled enabled⟩
  · exact h

namespace GuiState

variable {s t : GuiState}

theorem subset_addRule (store : RuleStore) (allocation : Allocation) (fields : RuleFields) :
    store.rules ⊆ (store.addRule allocation fields).2.rules := by
  cases htaken : RuleStore.taken allocation fields with
  | true =>
    simp only [RuleStore.taken, Bool.and_eq_true, decide_eq_true_eq] at htaken
    obtain ⟨rfl, hname⟩ := htaken
    rw [RuleStore.addRule, if_neg hname]
    exact List.subset_cons_self _ _
  | false =>
    rw [(RuleStore.addRule_of_not_taken htaken).2.1]
    exact List.Subset.refl _

theorem textsStored_offer (h : TextsStored s.store.rules s.rules) {allocation : Allocation}
    {fields : RuleFields} {rules : List ProxyRule}
    (hrules : ∀ rule ∈ rules, rule ∈ s.rules ∨ (s.store.addRule allocation fields).1 ≠ 0 ∧
      rule.ruleId = (s.store.addRule allocation fields).1 ∧ rule.fields = fields) :
    TextsStored (s.store.addRule allocation fields).2.rules rules := by
  intro rule hrule hid
  rcases hrules rule hrule with hold | ⟨hadded, hsame, hfields⟩
  · obtain ⟨native, hnative, hrest⟩ := h rule hold hid
    exact ⟨native, subset_addRule _ _ _ hnative, hrest⟩
  · obtain ⟨hnext, hstored⟩ := RuleStore.addRule_succeeds hadded
    rw [hstored]
    refine ⟨_, List.mem_cons_self, ?_, ?_⟩
    · rw [RuleFields.rule_ruleId, hsame, hnext]
    · rw [hfields]
      exact madeOf_rule fields _

theorem textsStored_register (h : TextsStored s.store.rules s.rules) (allocation : Allocation)
    {row : ℕ} {rule : ProxyRule} :
    TextsStored (s.registerRow allocation row rule).store.rules
      (s.registerRow allocation row rule).rules := by
  apply textsStored_offer h
  intro rule' hrule'
  unfold registerRow at hrule'
  dsimp only at hrule'
  split_ifs at hrule' with hadded
  · rcases List.mem_or_eq_of_mem_set hrule' with hmem | rfl
    · exact .inl hmem
    · exact .inr ⟨hadded, rfl, rfl⟩
  · exact .inl hrule'

theorem textsStored_append (h : TextsStored s.store.rules s.rules) (allocation : Allocation)
    (rule : ProxyRule) :
    TextsStored (s.store.addRule allocation rule.fields).2.rules
      (s.append rule (s.store.addRule allocation rule.fields)).rules := by
  apply textsStored_offer h
  intro rule' hrule'
  unfold append at hrule'
  dsimp only at hrule'
  split_ifs at hrule' with hadded
  · rcases List.mem_append.mp hrule' with hmem | hnew
    · exact .inl hmem
    · rw [List.mem_singleton.mp hnew]
      exact .inr ⟨hadded, rfl, rfl⟩
  · exact .inl hrule'

theorem textsStored_importRule (h : TextsStored s.store.rules s.rules)
    (hservice : s.service = true) (config : ProxyRuleConfig) (allocation : Allocation) :
    TextsStored (s.importRule config allocation).store.rules
      (s.importRule config allocation).rules := by
  have hadded := textsStored_append h allocation ⟨config.toRuleTexts, 0, 0, config.isEnabled, false⟩
  unfold importRule
  rw [if_pos hservice]
  dsimp only
  split_ifs
  · exact hadded.setEnabled false _
  · exact hadded

theorem mem_setTexts {ruleId : BitVec 32} (hid : ruleId ≠ 0) {texts : RuleTexts}
    {rules : List ProxyRule} (honce : (Rows.keys ProxyRule.engineId rules).Nodup)
    {rule : ProxyRule} (h : rule ∈ setTexts ruleId texts rules) :
    rule ∈ rules ∧ rule.ruleId ≠ ruleId ∨ rule.ruleId = ruleId ∧ rule.toRuleTexts = texts := by
  induction rules with
  | nil => cases h
  | cons first rules ih =>
    rw [Rows.keys_cons] at honce
    unfold setTexts at h
    split_ifs at h with hfirst
    · rcases List.mem_cons.mp h with rfl | hmem
      · exact .inr ⟨hfirst, rfl⟩
      · refine .inl ⟨List.mem_cons_of_mem _ hmem, fun hsame => ?_⟩
        rw [engineId_of_ne (hfirst ▸ hid), hfirst] at honce
        apply (List.nodup_cons.mp honce).1
        exact List.mem_filterMap.mpr ⟨rule, hmem, hsame ▸ engineId_of_ne (hsame ▸ hid)⟩
    · rcases List.mem_cons.mp h with rfl | hmem
      · exact .inl ⟨List.mem_cons_self, hfirst⟩
      · rcases ih (List.nodup_append.mp honce).2.1 hmem with ⟨hrest, hne⟩ | hnew
        · exact .inl ⟨List.mem_cons_of_mem _ hrest, hne⟩
        · exact .inr hnew

theorem textsStored_editRule (hs : s.Tracked) (h : TextsStored s.store.rules s.rules)
    (ruleId : BitVec 32) (texts : RuleTexts) :
    TextsStored (s.editRule ruleId texts true).store.rules
      (s.editRule ruleId texts true).rules := by
  unfold editRule RuleStore.editRule
  dsimp only
  cases hfinds : s.store.finds ruleId with
  | false => exact h
  | true =>
    obtain ⟨hid, hmem⟩ := RuleStore.finds_iff.mp hfinds
    have hstored : (s.store.update ruleId (RuleStore.edited true texts.fields)).rules =
        s.store.rules.map fun native => if native.ruleId = ruleId then
          RuleStore.edited true texts.fields native else native :=
      updateRule_eq_map _ hs.valid.nodup
    rw [if_pos rfl, if_pos rfl, hstored]
    intro rule hrule hrule_id
    rcases mem_setTexts hid hs.once hrule with ⟨hold, hne⟩ | ⟨hsame, htexts⟩
    · obtain ⟨native, hnative, hnativeId, hmade⟩ := h rule hold hrule_id
      refine ⟨native, List.mem_map.mpr ⟨native, hnative, if_neg ?_⟩, hnativeId, hmade⟩
      rwa [hnativeId]
    · obtain ⟨native, hnative, hnativeId⟩ := List.mem_map.mp hmem
      refine ⟨_, List.mem_map.mpr ⟨native, hnative, if_pos hnativeId⟩, ?_, ?_⟩
      · rw [RuleStore.edited_ruleId, hnativeId, hsame]
      · rw [htexts]
        exact madeOf_edited _ _

theorem textsStored_eraseIdx (store : RuleStore) (rules : List ProxyRule) (row : ℕ)
    (rule : ProxyRule) (h : IdsTracked store rules ∧ TextsStored store.rules rules)
    (hrule : rules[row]? = some rule) (hdeleted : (store.deleteRule rule.ruleId).1 = true) :
    IdsTracked (store.deleteRule rule.ruleId).2 (rules.eraseIdx row) ∧
      TextsStored (store.deleteRule rule.ruleId).2.rules (rules.eraseIdx row) := by
  obtain ⟨htracked, hstored⟩ := h
  refine ⟨idsTracked_eraseIdx store rules row rule htracked hrule hdeleted, ?_⟩
  have hfinds := RuleStore.finds_of_deleteRule hdeleted
  have hid : rule.ruleId ≠ 0 := (RuleStore.finds_iff.mp hfinds).1
  have hkeys := Rows.keys_eraseIdx hrule (engineId_of_ne hid) htracked.2.1
  intro other hother hother_id
  obtain ⟨native, hnative, hsame, hmade⟩ :=
    hstored other (List.mem_of_mem_eraseIdx hother) hother_id
  have hne : other.ruleId ≠ rule.ruleId := by
    intro heq
    have hshown : other.ruleId ∈ Rows.keys ProxyRule.engineId (rules.eraseIdx row) :=
      List.mem_filterMap.mpr ⟨other, hother, engineId_of_ne hother_id⟩
    rw [hkeys, heq] at hshown
    exact htracked.2.1.not_mem_erase hshown
  refine ⟨native, ?_, hsame, hmade⟩
  rw [RuleStore.deleteRule, if_pos hfinds]
  exact (List.mem_eraseP_of_neg (by simpa [hsame] using hne)).mpr hnative

theorem textsStored_drag (h : TextsStored s.store.rules s.rules) {row target : ℕ}
    {dragged targeted : ProxyRule} (hdragged : s.rules[row]? = some dragged)
    (htargeted : s.rules[target]? = some targeted)
    (hdrop : s.dropRule row target dragged targeted = some t) :
    TextsStored t.store.rules t.rules := by
  rcases dropRule_cases hdragged htargeted hdrop with
    ⟨rfl, -⟩ | ⟨-, -, -, -, -, hrules, native, -, hperm, hstored⟩
  · exact h
  · apply h.of_subset (RuleStore.perm_moved hperm hstored).symm.subset
    intro rule' hrule'
    rw [hrules, renumber, List.mem_mapIdx] at hrule'
    obtain ⟨i, hi, rfl⟩ := hrule'
    have hmem := List.getElem_mem hi
    exact ⟨_, (perm_dropped hdragged htargeted).subset hmem, rfl, rfl⟩

theorem textsStored_switchRule (h : TextsStored s.store.rules s.rules) {row : ℕ}
    {rule : ProxyRule} (hrule : s.rules[row]? = some rule) (enabled : Bool) :
    TextsStored (s.switchRule row enabled rule).store.rules
      (s.switchRule row enabled rule).rules := by
  have hset : TextsStored s.store.rules (s.rules.set row { rule with isEnabled := enabled }) :=
    h.set hrule rfl rfl
  unfold switchRule
  split_ifs
  · exact h
  · exact hset.setEnabled enabled rule.ruleId
  · exact hset

/-- The engine has the memory for the texts of an edit. -/
def EditsCopied (_ : GuiState) : RuleOperation → Prop
  | .edit _ _ copied => copied = true
  | _ => True

instance (s : GuiState) : ∀ op, Decidable (s.EditsCopied op)
  | .edit _ _ copied => inferInstanceAs (Decidable (copied = true))
  | .load .. | .register _ | .add .. | .delete _ | .deleteSelected | .importRule .. | .drag ..
  | .setEnabled .. | .setSelected .. => .isTrue trivial

/-- Every operation keeps the texts of both sides equal, as long as edits get their memory. -/
theorem textsStored_step (hs : s.Tracked) (h : TextsStored s.store.rules s.rules)
    {op : RuleOperation} (hcopied : s.EditsCopied op) (hstep : s.step op = some t) :
    TextsStored t.store.rules t.rules := by
  cases stepped_of_step hstep with
  | load hpending configs start =>
    intro rule hrule hid
    exact absurd (ruleId_load hs.unregistered hpending configs start rule hrule) hid
  | register hstartup hrule allocation => exact textsStored_register h allocation
  | idle => exact h
  | add hfinished hservice texts allocation =>
    rw [addRule, if_pos hservice]
    exact textsStored_append h allocation ⟨texts, 0, 0, true, false⟩
  | edit hfinished hservice ruleId texts copied =>
    obtain rfl : copied = true := hcopied
    exact textsStored_editRule hs h ruleId texts
  | delete hfinished hservice hrule =>
    exact (deleteRule_keeps (R := fun store rules => IdsTracked store rules ∧
      TextsStored store.rules rules) textsStored_eraseIdx hrule ⟨hs.idsTracked, h⟩).2
  | deleteSelected =>
    exact (deleteSelected_keeps (R := fun store rules => IdsTracked store rules ∧
      TextsStored store.rules rules) textsStored_eraseIdx ⟨hs.idsTracked, h⟩).2
  | importRule hfinished hservice config allocation =>
    exact textsStored_importRule h hservice config allocation
  | drag hfinished hservice hdragged htargeted hdrop =>
    exact textsStored_drag h hdragged htargeted hdrop
  | setEnabled hfinished hrule enabled => exact textsStored_switchRule h hrule enabled
  | setSelected hfinished hrule selected => exact h.set hrule rfl rfl

theorem textsStored_of_run {ops : List RuleOperation} (hrun : run step initial ops = some s)
    (hleft : Guarded step IdsLeft initial ops) (hcopied : Guarded step EditsCopied initial ops) :
    TextsStored s.store.rules s.rules := by
  have hboth := hleft.and hcopied
  have hkept : s.Tracked ∧ TextsStored s.store.rules s.rules := by
    apply guarded_invariant (I := fun s => s.Tracked ∧ TextsStored s.store.rules s.rules)
      (fun _ _ _ h hop hstep => ?_) hrun hboth ⟨tracked_initial, ?_⟩
    · intro rule hrule
      cases hrule
    · exact ⟨h.1.step hop.1 hstep, textsStored_step h.1 h.2 hop.2 hstep⟩
  exact hkept.2

end GuiState
end ProxyTun.WindowsGui
