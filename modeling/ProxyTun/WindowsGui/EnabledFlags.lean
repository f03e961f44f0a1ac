import ProxyTun.WindowsGui.RuleIds

/-!
# The switches of the rules

A rule is switched on or off in the collection, in the engine and in the file. The engine takes
every rule as switched on, an import switches it off again, and the loop that registers the
loaded rules does not.
-/
namespace ProxyTun.WindowsGui
open Library Library.Transition Windows

def ProxyRule.flag (rule : ProxyRule) : Option (BitVec 32 × Bool) :=
  if rule.ruleId = 0 then none else some (rule.ruleId, rule.isEnabled)

namespace GuiState

def shownFlags (s : GuiState) : List (BitVec 32 × Bool) := Rows.keys ProxyRule.flag s.rules

/-- The engine has the switches that are shown. -/
def FlagsAgree (s : GuiState) : Prop :=
  ∀ rule ∈ s.rules, rule.ruleId ≠ 0 → s.store.enables rule.ruleId = rule.isEnabled

instance (s : GuiState) : Decidable s.FlagsAgree :=
  inferInstanceAs (Decidable (∀ rule ∈ s.rules, _))

/-- A loaded rule is registered only if it was saved as switched on. -/
def LoadsEnabled (s : GuiState) (op : RuleOperation) : Prop :=
  match op, s.startup with
  | .register allocation, .registering row =>
    match s.rules[row]? with
    | some rule => RuleStore.taken allocation rule.fields = true → rule.isEnabled = true
    | none => True
  | _, _ => True

instance (s : GuiState) (op : RuleOperation) : Decidable (s.LoadsEnabled op) :=
  match op, h : s.startup with
  | .register allocation, .registering row =>
    match h' : s.rules[row]? with
    | some rule =>
      decidable_of_iff (RuleStore.taken allocation rule.fields = true → rule.isEnabled = true)
        (by simp only [LoadsEnabled, h, h'])
    | none => .isTrue (by simp only [LoadsEnabled, h, h'])
  | .register _, .pending | .register _, .finished => .isTrue (by simp only [LoadsEnabled, h])
  | .load .., _ | .add .., _ | .edit .., _ | .delete _, _ | .deleteSelected, _ | .importRule .., _
  | .drag .., _ | .setEnabled .., _ | .setSelected .., _ => .isTrue trivial

/-- The operations of `SetMainWindow`. -/
def startsUp : RuleOperation → Bool
  | .load .. => true
  | .register _ => true
  | _ => false

variable {s t : GuiState}

theorem flag_of_ne {rule : ProxyRule} (h : rule.ruleId ≠ 0) :
    rule.flag = some (rule.ruleId, rule.isEnabled) := if_neg h

theorem flag_of_eq {rule : ProxyRule} (h : rule.ruleId = 0) : rule.flag = none := if_pos h

theorem map_fst_shownFlags : s.shownFlags.map Prod.fst = s.shownIds := by
  rw [shownFlags, Rows.keys, List.map_filterMap, shownIds, Rows.keys]
  congr 1
  ext1
  unfold ProxyRule.flag ProxyRule.engineId
  split_ifs <;> rfl

theorem mem_shownFlags {rule : ProxyRule} (hrule : rule ∈ s.rules) (hid : rule.ruleId ≠ 0) :
    (rule.ruleId, rule.isEnabled) ∈ s.shownFlags :=
  List.mem_filterMap.mpr ⟨rule, hrule, flag_of_ne hid⟩

theorem Tracked.flagsAgree_iff (h : s.Tracked) :
    s.FlagsAgree ↔ ∀ e ∈ s.shownFlags, e ∈ s.store.flags := by
  constructor
  · intro hagrees e he
    obtain ⟨rule, hrule, hflag⟩ := List.mem_filterMap.mp he
    by_cases hid : rule.ruleId = 0
    · rw [flag_of_eq hid] at hflag
      cases hflag
    · obtain rfl := Option.some.inj ((flag_of_ne hid).symm.trans hflag)
      have hmem := h.known _ (mem_shownIds hrule hid)
      rw [← RuleStore.map_fst_flags] at hmem
      obtain ⟨⟨id, enabled⟩, hstored, rfl⟩ := List.mem_map.mp hmem
      have hswitch := hagrees rule hrule hid
      rw [h.valid.enables_eq hstored] at hswitch
      rwa [← hswitch]
  · intro hshown rule hrule hid
    exact h.valid.enables_eq (hshown _ (mem_shownFlags hrule hid))

theorem Tracked.mirrors (h : s.Tracked) (hagrees : s.FlagsAgree) :
    Mirrors s.store.flags s.shownFlags where
  distinct := RuleStore.map_fst_flags ▸ h.valid.nodup
  once := map_fst_shownFlags ▸ h.once
  shown := h.flagsAgree_iff.mp hagrees

theorem Tracked.agrees (h : s.Tracked) (hmirrors : Mirrors s.store.flags s.shownFlags) :
    s.FlagsAgree := h.flagsAgree_iff.mpr hmirrors.shown

theorem agrees_of_unregistered (h : ∀ rule ∈ s.rules, rule.ruleId = 0) : s.FlagsAgree :=
  fun rule hrule hid => absurd (h rule hrule) hid

/-- A rule that the engine takes is shown right with the switch of the engine only. -/
theorem agrees_offer (h : s.Tracked) (ht : t.Tracked) (hnext : s.store.nextRuleId ≠ 0)
    {allocation : Allocation} {fields : RuleFields} {enabled stored : Bool}
    (hshown : t.shownFlags = s.shownFlags ++
      if (s.store.addRule allocation fields).1 ≠ 0 then
        [((s.store.addRule allocation fields).1, enabled)]
      else [])
    (htaken : RuleStore.taken allocation fields = true →
      t.store.flags = (s.store.nextRuleId, stored) :: s.store.flags)
    (hrefused : RuleStore.taken allocation fields = false → t.store.flags = s.store.flags) :
    t.FlagsAgree ↔
      s.FlagsAgree ∧ (RuleStore.taken allocation fields = true → enabled = stored) := by
  rw [ht.flagsAgree_iff, h.flagsAgree_iff, hshown]
  cases hoffer : RuleStore.taken allocation fields with
  | true =>
    have hfresh : s.store.nextRuleId ∉ s.store.ids := h.valid.fresh hnext
    have hunseen : s.store.nextRuleId ∉ s.shownIds := fun hmem => hfresh (h.known _ hmem)
    rw [← RuleStore.map_fst_flags] at hfresh
    rw [← map_fst_shownFlags] at hunseen
    rw [(RuleStore.addRule_of_taken (s := s.store) hoffer).1, if_pos hnext, htaken hoffer,
      forall_prop_of_true rfl]
    exact Mirrors.shown_insert_iff hunseen hfresh
  | false =>
    rw [(RuleStore.addRule_of_not_taken (s := s.store) hoffer).1, if_neg (by simp),
      List.append_nil, hrefused hoffer]
    exact (and_iff_left (by simp)).symm

theorem flags_of_not_taken {store : RuleStore} {allocation : Allocation} {fields : RuleFields}
    (h : RuleStore.taken allocation fields = false) :
    (store.addRule allocation fields).2.flags = store.flags := by
  rw [RuleStore.flags, (RuleStore.addRule_of_not_taken h).2.1, RuleStore.flags]

theorem agrees_register (h : s.Tracked) {allocation : Allocation} {row : ℕ} {rule : ProxyRule}
    (hstartup : s.startup = .registering row) (hrule : s.rules[row]? = some rule)
    (hnext : s.store.nextRuleId ≠ 0) :
    (s.registerRow allocation row rule).FlagsAgree ↔
      s.FlagsAgree ∧ s.LoadsEnabled (.register allocation) := by
  obtain ⟨hid, hbehind⟩ := ruleId_behind h.unregistered hstartup hrule
  have hloads : s.LoadsEnabled (.register allocation) ↔
      (RuleStore.taken allocation rule.fields = true → rule.isEnabled = true) := by
    simp only [LoadsEnabled, hstartup, hrule]
  rw [hloads]
  refine agrees_offer h (h.register hstartup hrule hnext) hnext ?_
    RuleStore.flags_addRule_of_taken flags_of_not_taken
  rw [shownFlags, keys_registerRow (fun _ => flag_of_eq) hrule hid hbehind]
  split_ifs with hadded
  · rw [flag_of_ne hadded]
    rfl
  · rfl

theorem shownFlags_append (rule : ProxyRule) (added : BitVec 32 × RuleStore) :
    (s.append rule added).shownFlags = s.shownFlags ++
      if added.1 ≠ 0 then [(added.1, rule.isEnabled)] else [] := by
  rw [shownFlags, keys_appended]
  split_ifs with hid
  · rw [flag_of_ne hid]
    rfl
  · rfl

theorem agrees_add (h : s.Tracked) (hagrees : s.FlagsAgree) (hfinished : s.startup = .finished)
    (hservice : s.service = true) {texts : RuleTexts} {allocation : Allocation}
    (hnext : s.store.nextRuleId ≠ 0) : (s.addRule texts allocation).FlagsAgree := by
  have ht : (s.addRule texts allocation).Tracked := h.add hfinished hservice hnext
  rw [addRule, if_pos hservice] at ht ⊢
  exact (agrees_offer h ht hnext (shownFlags_append _ _) RuleStore.flags_addRule_of_taken
    flags_of_not_taken).mpr ⟨hagrees, fun _ => rfl⟩

theorem flags_disableRule_added {store : RuleStore} {allocation : Allocation} {fields : RuleFields}
    (h : RuleStore.taken allocation fields = true) (hnext : store.nextRuleId ≠ 0) :
    ((store.addRule allocation fields).2.disableRule store.nextRuleId).2.flags =
      (store.nextRuleId, false) :: store.flags := by
  simp only [RuleStore.taken, Bool.and_eq_true, decide_eq_true_eq] at h
  obtain ⟨rfl, hname⟩ := h
  have hfinds : (store.addRule .succeeds fields).2.finds store.nextRuleId = true := by
    simpa [RuleStore.finds, RuleStore.addRule, hname] using hnext
  rw [RuleStore.disableRule, RuleStore.setEnabled, if_pos hfinds]
  simp [RuleStore.addRule, RuleStore.update, updateRule, RuleStore.flags, hname]

theorem flags_importRule (hservice : s.service = true) (config : ProxyRuleConfig)
    (allocation : Allocation) (hnext : s.store.nextRuleId ≠ 0) :
    (RuleStore.taken allocation config.fields = true →
        (s.importRule config allocation).store.flags =
          (s.store.nextRuleId, config.isEnabled) :: s.store.flags) ∧
      (RuleStore.taken allocation config.fields = false →
        (s.importRule config allocation).store.flags = s.store.flags) := by
  unfold importRule
  rw [if_pos hservice]
  dsimp only
  constructor
  · intro htaken
    have hadded := (RuleStore.addRule_of_taken (s := s.store) htaken).1
    rw [hadded, decide_eq_true hnext, Bool.true_and]
    cases hswitch : config.isEnabled with
    | true => exact RuleStore.flags_addRule_of_taken htaken
    | false => exact flags_disableRule_added htaken hnext
  · intro hrefused
    have hadded := (RuleStore.addRule_of_not_taken (s := s.store) hrefused).1
    rw [hadded, if_neg (by simp)]
    exact flags_of_not_taken hrefused

theorem agrees_importRule (h : s.Tracked) (hagrees : s.FlagsAgree)
    (hfinished : s.startup = .finished) (hservice : s.service = true) {config : ProxyRuleConfig}
    {allocation : Allocation} (hnext : s.store.nextRuleId ≠ 0) :
    (s.importRule config allocation).FlagsAgree := by
  obtain ⟨htaken, hrefused⟩ := flags_importRule hservice config allocation hnext
  refine (agrees_offer h (h.importRule hfinished hservice hnext) hnext ?_ htaken hrefused).mpr
    ⟨hagrees, fun _ => rfl⟩
  rw [shownFlags, (importRule_frame hservice config allocation).2.2.1]
  exact shownFlags_append _ _

theorem mirrors_editRule (h : Mirrors s.store.flags s.shownFlags) (ruleId : BitVec 32)
    (texts : RuleTexts) (copied : Bool) :
    Mirrors (s.editRule ruleId texts copied).store.flags
      (s.editRule ruleId texts copied).shownFlags := by
  have hstored : (s.editRule ruleId texts copied).store.flags = s.store.flags :=
    RuleStore.flags_editRule copied texts.fields
  have hshown : (s.editRule ruleId texts copied).shownFlags = s.shownFlags := by
    unfold editRule shownFlags
    dsimp only
    split_ifs
    · exact keys_setTexts ruleId texts (fun _ => rfl) s.rules
    · rfl
  rw [hstored, hshown]
  exact h

theorem mirrors_eraseIdx (store : RuleStore) (rules : List ProxyRule) (row : ℕ) (rule : ProxyRule)
    (h : Mirrors store.flags (Rows.keys ProxyRule.flag rules)) (hrule : rules[row]? = some rule)
    (hdeleted : (store.deleteRule rule.ruleId).1 = true) :
    Mirrors (store.deleteRule rule.ruleId).2.flags
      (Rows.keys ProxyRule.flag (rules.eraseIdx row)) := by
  have hfinds := RuleStore.finds_of_deleteRule hdeleted
  have hid : rule.ruleId ≠ 0 := (RuleStore.finds_iff.mp hfinds).1
  have hmem : (rule.ruleId, rule.isEnabled) ∈ Rows.keys ProxyRule.flag rules :=
    List.mem_filterMap.mpr ⟨rule, List.mem_of_getElem? hrule, flag_of_ne hid⟩
  rw [RuleStore.flags_deleteRule hfinds, Rows.keys_eraseIdx hrule (flag_of_ne hid) h.once.of_map]
  exact h.erase hmem

theorem mirrors_drag (h : Mirrors s.store.flags s.shownFlags) {row target : ℕ}
    {dragged targeted : ProxyRule} (hdragged : s.rules[row]? = some dragged)
    (htargeted : s.rules[target]? = some targeted)
    (hdrop : s.dropRule row target dragged targeted = some t) :
    Mirrors t.store.flags t.shownFlags := by
  rcases dropRule_cases hdragged htargeted hdrop with
    ⟨rfl, -⟩ | ⟨-, -, -, -, -, hrules, rule, -, hperm, hstored⟩
  · exact h
  · refine h.perm ((RuleStore.perm_moved hperm hstored).map _) ?_
    rw [shownFlags, hrules, keys_renumber (fun _ _ => rfl)]
    exact (perm_dropped hdragged htargeted).filterMap _

theorem mirrors_switch (h : Mirrors s.store.flags s.shownFlags) {row : ℕ} {rule : ProxyRule}
    (hrule : s.rules[row]? = some rule) (hid : rule.ruleId ≠ 0) (enabled : Bool) :
    Mirrors (s.store.setEnabled enabled rule.ruleId).2.flags
      (Rows.keys ProxyRule.flag (s.rules.set row { rule with isEnabled := enabled })) := by
  have hknown : rule.ruleId ∈ s.store.ids := by
    rw [← RuleStore.map_fst_flags]
    exact List.mem_map_of_mem (h.shown _ (mem_shownFlags (List.mem_of_getElem? hrule) hid))
  obtain ⟨hnew, hrest⟩ :=
    RuleStore.mem_flags_setEnabled (RuleStore.finds_iff.mpr ⟨hid, hknown⟩) enabled
  have hsplit : s.shownFlags = Rows.keys ProxyRule.flag (s.rules.take row) ++
      (rule.ruleId, rule.isEnabled) :: Rows.keys ProxyRule.flag (s.rules.drop (row + 1)) := by
    rw [shownFlags]
    conv_lhs => rw [(Rows.split_at hrule).1]
    rw [Rows.keys_append, Rows.keys_cons, flag_of_ne hid]
    rfl
  rw [hsplit] at h
  rw [Rows.set_eq hrule, Rows.keys_append, Rows.keys_cons, flag_of_ne (by exact hid)]
  exact h.replace (by simp [RuleStore.map_fst_flags]) hnew hrest

theorem mirrors_switchRule (hs : s.Tracked) (h : Mirrors s.store.flags s.shownFlags) {row : ℕ}
    {rule : ProxyRule} (hrule : s.rules[row]? = some rule) (enabled : Bool) :
    Mirrors (s.switchRule row enabled rule).store.flags
      (s.switchRule row enabled rule).shownFlags := by
  have hnone (hid : rule.ruleId = 0) :
      Rows.keys ProxyRule.flag (s.rules.set row { rule with isEnabled := enabled }) =
        s.shownFlags := by
    apply Rows.keys_set hrule
    rw [flag_of_eq hid, flag_of_eq (by exact hid)]
  unfold switchRule
  split_ifs with hsame hservice
  · exact h
  · by_cases hid : rule.ruleId = 0
    · have hfinds : s.store.finds rule.ruleId = false := by simp [RuleStore.finds, hid]
      rw [shownFlags, hnone hid, RuleStore.setEnabled, hfinds]
      exact h
    · exact mirrors_switch h hrule hid enabled
  · have hid : rule.ruleId = 0 := by
      by_contra hid
      have hmem := mem_shownIds (List.mem_of_getElem? hrule) hid
      rw [hs.idle (by simpa using hservice)] at hmem
      cases hmem
    rw [shownFlags, hnone hid]
    exact h

theorem mirrors_select (h : Mirrors s.store.flags s.shownFlags) {row : ℕ} {rule : ProxyRule}
    (hrule : s.rules[row]? = some rule) (selected : Bool) :
    Mirrors s.store.flags
      (Rows.keys ProxyRule.flag (s.rules.set row { rule with isSelected := selected })) := by
  have hshown : Rows.keys ProxyRule.flag (s.rules.set row { rule with isSelected := selected }) =
      s.shownFlags := Rows.keys_set hrule rfl
  rwa [hshown]

theorem agrees_step (h : s.Tracked) (hagrees : s.FlagsAgree) (hfinished : s.startup = .finished)
    {op : RuleOperation} (hleft : s.IdsLeft op) (hstep : s.step op = some t) : t.FlagsAgree := by
  have ht := h.step hleft hstep
  have hmirrors := h.mirrors hagrees
  cases stepped_of_step hstep with
  | load hpending => rw [hfinished] at hpending; cases hpending
  | register hstartup => rw [hfinished] at hstartup; cases hstartup
  | idle => exact hagrees
  | add _ hservice texts allocation =>
    exact agrees_add h hagrees hfinished hservice (hleft (by simp [offered, hservice]))
  | edit _ _ ruleId texts copied => exact ht.agrees (mirrors_editRule hmirrors ruleId texts copied)
  | delete _ _ hrule => exact ht.agrees (deleteRule_keeps mirrors_eraseIdx hrule hmirrors)
  | deleteSelected => exact ht.agrees (deleteSelected_keeps mirrors_eraseIdx hmirrors)
  | importRule _ hservice config allocation =>
    exact agrees_importRule h hagrees hfinished hservice (hleft (by simp [offered, hservice]))
  | drag _ _ hdragged htargeted hdrop =>
    exact ht.agrees (mirrors_drag hmirrors hdragged htargeted hdrop)
  | setEnabled _ hrule enabled => exact ht.agrees (mirrors_switchRule h hmirrors hrule enabled)
  | setSelected _ hrule selected => exact ht.agrees (mirrors_select hmirrors hrule selected)

/-- A step of the startup keeps the switches exactly when it registers no rule that was saved as
switched off. -/
theorem agrees_startup_iff (h : s.Tracked) {op : RuleOperation} (hop : startsUp op = true)
    (hleft : s.IdsLeft op) (hstep : s.step op = some t) :
    t.FlagsAgree ↔ s.FlagsAgree ∧ s.LoadsEnabled op := by
  cases stepped_of_step hstep with
  | load hpending configs start =>
    have hloaded := ruleId_load h.unregistered hpending configs start
    have hbefore : ∀ rule ∈ s.rules, rule.ruleId = 0 :=
      fun rule hrule => hloaded rule (List.mem_append_left _ hrule)
    exact iff_of_true (agrees_of_unregistered hloaded) ⟨agrees_of_unregistered hbefore, trivial⟩
  | register hstartup hrule allocation =>
    exact agrees_register h hstartup hrule (hleft (by simp [offered, hstartup, hrule]))
  | idle hfinished =>
    refine (and_iff_left ?_).symm
    cases op with
    | register => simp only [LoadsEnabled, hfinished]
    | _ => trivial
  | _ => cases hop

/-- Behind the startup the switches that are shown are those of the engine, as long as it has ids
left, exactly when no loaded rule was registered that was saved as switched off. -/
theorem flags_agree_iff {starting ops : List RuleOperation}
    (hstarting : ∀ op ∈ starting, startsUp op = true)
    (hstart : run step initial starting = some s) (hfinished : s.startup = .finished)
    (hrun : run step s ops = some t) (hleft : Guarded step IdsLeft initial starting)
    (hleft' : Guarded step IdsLeft s ops) :
    s.FlagsAgree ∧ EachStep step (fun _ _ t => t.FlagsAgree) s ops ↔
      Guarded step LoadsEnabled initial starting := by
  have hstarts : Guarded step (fun s op => s.IdsLeft op ∧ startsUp op = true) initial starting :=
    hleft.and (guarded_of_labels hstarting initial)
  have hs : s.Tracked := tracked_of_run hstart hleft
  have hloaded : s.FlagsAgree ↔ initial.FlagsAgree ∧ Guarded step LoadsEnabled initial starting :=
    guarded_iff_recorded_within (I := Tracked) (fun _ _ _ h hop hstep => h.step hop.1 hstep)
      (fun _ _ _ h hop hstep => agrees_startup_iff h hop.2 hop.1 hstep) hstart hstarts
      tracked_initial
  have hinitial : initial.FlagsAgree := by decide
  have hlater (hagrees : s.FlagsAgree) : EachStep step (fun _ _ t => t.FlagsAgree) s ops := by
    apply (eachStep_iff_guarded (G := fun _ _ => True)
      (I := fun s => s.Tracked ∧ s.startup = .finished ∧ s.FlagsAgree) _ _ hrun hleft'
      ⟨hs, hfinished, hagrees⟩).mpr (guarded_true s ops)
    · intro s op t hI hop hstep
      exact iff_of_true (agrees_step hI.1 hI.2.2 hI.2.1 hop hstep) trivial
    · intro s op t hI hop hstep hagrees
      exact ⟨hI.1.step hop hstep, finished_of_step hI.2.1 hstep, hagrees⟩
  rw [and_iff_left_of_imp hlater, hloaded]
  exact and_iff_right hinitial

/-- A rule is loaded, switched off and on again. -/
theorem flags_agree_switched : ∃ s,
    run step initial
      [.load [⟨wholeProcess "curl.exe", true⟩] .succeeds, .register .succeeds] = some s ∧
    s.FlagsAgree ∧
    EachStep step (fun _ _ t => t.FlagsAgree) s [.setEnabled 0 false, .setEnabled 0 true] := by
  have hstart : ∃ s, run step initial
      [.load [⟨wholeProcess "curl.exe", true⟩] .succeeds, .register .succeeds] = some s ∧
      s.startup = .finished ∧ (∃ t, run step s [.setEnabled 0 false, .setEnabled 0 true] = some t) ∧
      Guarded step IdsLeft s [.setEnabled 0 false, .setEnabled 0 true] :=
    ⟨_, rfl, rfl, ⟨_, rfl⟩, by decide⟩
  obtain ⟨s, hstart, hfinished, ⟨t, hrun⟩, hleft⟩ := hstart
  exact ⟨s, hstart, (flags_agree_iff (by decide) hstart hfinished hrun (by decide) hleft).mpr
    (by decide)⟩

/-- A rule that was saved as switched off is active after the restart. -/
theorem flags_differ_after_restart : ∃ s,
    run step initial
      [.load [⟨wholeProcess "curl.exe", false⟩] .succeeds, .register .succeeds] = some s ∧
    s.startup = .finished ∧ s.rules.map (fun rule => (rule.ruleId, rule.isEnabled)) = [(1, false)] ∧
    s.store.enables 1 = true ∧ ¬ s.FlagsAgree :=
  ⟨_, rfl, rfl, by decide, by decide, by decide⟩

end GuiState
end ProxyTun.WindowsGui
