import ProxyTun.Library.Rows
import ProxyTun.WindowsGui.ProxyRules

/-!
# The ids of the rules

The rules that are shown with an id are rules of the engine, each shown once. This holds in every
session, as long as the engine has ids left.
-/
namespace ProxyTun.WindowsGui
open Library Library.Transition Windows

def ProxyRule.engineId (rule : ProxyRule) : Option (BitVec 32) :=
  if rule.ruleId = 0 then none else some rule.ruleId

namespace GuiState

/-- The ids of the rules that are shown, from first to last. -/
def shownIds (s : GuiState) : List (BitVec 32) := Rows.keys ProxyRule.engineId s.rules

/-- The rules that `SetMainWindow` has still to register. -/
def unregistered (s : GuiState) : List ProxyRule :=
  match s.startup with
  | .pending => s.rules
  | .registering row => s.rules.drop row
  | .finished => []

/-- The rule that an operation offers to the engine. -/
def offered (s : GuiState) : RuleOperation → Option (Allocation × RuleFields)
  | .register allocation =>
    match s.startup with
    | .registering row => (s.rules[row]?).map fun rule => (allocation, rule.fields)
    | _ => none
  | .add texts allocation => if s.service then some (allocation, texts.fields) else none
  | .importRule config allocation => if s.service then some (allocation, config.fields) else none
  | _ => none

/-- The engine has an id left for the rule that it is offered. -/
def IdsLeft (s : GuiState) (op : RuleOperation) : Prop :=
  (s.offered op).isSome → s.store.nextRuleId ≠ 0

instance (s : GuiState) (op : RuleOperation) : Decidable (s.IdsLeft op) :=
  inferInstanceAs (Decidable (_ → _))

/-- What the collection has to do with the engine. -/
structure Tracked (s : GuiState) : Prop where
  valid : s.store.Valid
  once : s.shownIds.Nodup
  known : ∀ id ∈ s.shownIds, id ∈ s.store.ids
  unregistered : ∀ rule ∈ s.unregistered, rule.ruleId = 0
  running : ∀ row, s.startup = .registering row → s.service = true
  idle : s.service = false → s.shownIds = []

variable {s t : GuiState}

theorem engineId_of_ne {rule : ProxyRule} (h : rule.ruleId ≠ 0) :
    rule.engineId = some rule.ruleId := if_neg h

theorem engineId_of_eq {rule : ProxyRule} (h : rule.ruleId = 0) : rule.engineId = none := if_pos h

theorem keys_of_unregistered {rules : List ProxyRule} (h : ∀ rule ∈ rules, rule.ruleId = 0) :
    Rows.keys ProxyRule.engineId rules = [] := by
  rw [Rows.keys, List.filterMap_eq_nil_iff]
  exact fun rule hrule => engineId_of_eq (h rule hrule)

theorem mem_shownIds {rule : ProxyRule} (hrule : rule ∈ s.rules) (hid : rule.ruleId ≠ 0) :
    rule.ruleId ∈ s.shownIds :=
  List.mem_filterMap.mpr ⟨rule, hrule, engineId_of_ne hid⟩

theorem tracked_initial : initial.Tracked where
  valid := RuleStore.valid_empty
  once := List.nodup_nil
  known := by simp [shownIds, initial]
  unregistered := by simp [unregistered, initial]
  running := by simp [initial]
  idle := fun _ => rfl

theorem Tracked.of_finished (hfinished : t.startup = .finished) (hvalid : t.store.Valid)
    (honce : t.shownIds.Nodup) (hknown : ∀ id ∈ t.shownIds, id ∈ t.store.ids)
    (hidle : t.service = false → t.shownIds = []) : t.Tracked where
  valid := hvalid
  once := honce
  known := hknown
  unregistered := by simp [GuiState.unregistered, hfinished]
  running := by simp [hfinished]
  idle := hidle

theorem Tracked.of_eq (h : s.Tracked) (hfinished : t.startup = .finished)
    (hshown : t.shownIds = s.shownIds) (hids : t.store.ids = s.store.ids)
    (hnext : t.store.nextRuleId = s.store.nextRuleId) (hservice : t.service = s.service) :
    t.Tracked := by
  apply Tracked.of_finished hfinished (h.valid.of_perm (by rw [hids]) hnext)
  · rw [hshown]
    exact h.once
  · rw [hshown, hids]
    exact h.known
  · rw [hshown, hservice]
    exact h.idle

theorem loadRule_ruleId {config : ProxyRuleConfig} {rule : ProxyRule}
    (h : loadRule config = some rule) : rule.ruleId = 0 := by
  unfold loadRule at h
  split at h
  · cases h
  · rw [← Option.some.inj h]

theorem ruleId_load (hunregistered : ∀ rule ∈ s.unregistered, rule.ruleId = 0)
    (hpending : s.startup = .pending) (configs : List ProxyRuleConfig) (start : ServiceStart) :
    ∀ rule ∈ (s.load configs start).rules, rule.ruleId = 0 := by
  intro rule hrule
  rcases List.mem_append.mp hrule with hrule | hrule
  · exact hunregistered rule (by rwa [unregistered, hpending])
  · obtain ⟨config, -, hconfig⟩ := List.mem_filterMap.mp hrule
    exact loadRule_ruleId hconfig

theorem mem_of_mem_unregistered {rule : ProxyRule} (h : rule ∈ s.unregistered) :
    rule ∈ s.rules := by
  unfold unregistered at h
  split at h
  · exact h
  · exact List.mem_of_mem_drop h
  · cases h

theorem Tracked.load (h : s.Tracked) (hpending : s.startup = .pending)
    (configs : List ProxyRuleConfig) (start : ServiceStart) : (s.load configs start).Tracked := by
  have hloaded := ruleId_load h.unregistered hpending configs start
  have hshown : (s.load configs start).shownIds = [] := keys_of_unregistered hloaded
  refine ⟨h.valid, ?_, ?_, fun rule hrule => hloaded rule (mem_of_mem_unregistered hrule), ?_,
    fun _ => hshown⟩
  · rw [hshown]
    exact List.nodup_nil
  · rw [hshown]
    exact fun _ hid => by cases hid
  · intro row hrow
    cases start <;> simp [GuiState.load] at hrow ⊢

/-- A rule that the engine is offered gets the next id, at the head of the engine's list and behind
the rules that are shown, or it changes neither. -/
theorem offer_cases {allocation : Allocation} {fields : RuleFields}
    (hnext : s.store.nextRuleId ≠ 0)
    (hids : t.store.ids = (s.store.addRule allocation fields).2.ids)
    (hshown : t.shownIds = s.shownIds ++
      if (s.store.addRule allocation fields).1 ≠ 0 then [(s.store.addRule allocation fields).1]
      else []) :
    (RuleStore.taken allocation fields = true ∧
        t.store.ids = s.store.nextRuleId :: s.store.ids ∧
        t.shownIds = s.shownIds ++ [s.store.nextRuleId]) ∨
      (RuleStore.taken allocation fields = false ∧
        t.store.ids = s.store.ids ∧ t.shownIds = s.shownIds) := by
  cases htaken : RuleStore.taken allocation fields with
  | true =>
    obtain ⟨hid, hcons, -⟩ := RuleStore.addRule_of_taken (s := s.store) htaken
    rw [hid, if_pos hnext] at hshown
    exact .inl ⟨rfl, hids.trans hcons, hshown⟩
  | false =>
    obtain ⟨hid, hrules, -⟩ := RuleStore.addRule_of_not_taken (s := s.store) htaken
    rw [hid, if_neg (by simp), List.append_nil] at hshown
    have hkept : (s.store.addRule allocation fields).2.ids = s.store.ids := by
      rw [RuleStore.ids, hrules, RuleStore.ids]
    exact .inr ⟨rfl, hids.trans hkept, hshown⟩

/-- The engine is offered a rule, and if it takes it the rule is shown behind the others. -/
theorem Tracked.offer (h : s.Tracked) {allocation : Allocation} {fields : RuleFields}
    (hnext : s.store.nextRuleId ≠ 0)
    (hids : t.store.ids = (s.store.addRule allocation fields).2.ids)
    (hnext' : t.store.nextRuleId = (s.store.addRule allocation fields).2.nextRuleId)
    (hshown : t.shownIds = s.shownIds ++
      if (s.store.addRule allocation fields).1 ≠ 0 then [(s.store.addRule allocation fields).1]
      else [])
    (hrest : ∀ rule ∈ t.unregistered, rule.ruleId = 0) (hservice : t.service = true) :
    t.Tracked := by
  have hvalid : t.store.Valid :=
    (h.valid.addRule hnext allocation fields).of_perm (by rw [hids]) hnext'
  have hidle : t.service = false → t.shownIds = [] :=
    fun hnot => absurd (hservice.symm.trans hnot) (by simp)
  rcases offer_cases hnext hids hshown with ⟨-, hcons, happend⟩ | ⟨-, hsame, hkept⟩
  · refine ⟨hvalid, ?_, ?_, hrest, fun _ _ => hservice, hidle⟩
    · have hunseen : s.store.nextRuleId ∉ s.shownIds :=
        fun hmem => h.valid.fresh hnext (h.known _ hmem)
      rw [happend, ← List.concat_eq_append]
      exact h.once.concat hunseen
    · rw [happend, hcons]
      intro id hmem
      rcases List.mem_append.mp hmem with hmem | hmem
      · exact List.mem_cons_of_mem _ (h.known id hmem)
      · obtain rfl := List.mem_singleton.mp hmem
        exact List.mem_cons_self
  · refine ⟨hvalid, ?_, ?_, hrest, fun _ _ => hservice, hidle⟩
    · rw [hkept]
      exact h.once
    · rw [hkept, hsame]
      exact h.known

theorem keys_appended {κ : Type*} (key : ProxyRule → Option κ) (rule : ProxyRule)
    (added : BitVec 32 × RuleStore) :
    Rows.keys key (s.append rule added).rules = Rows.keys key s.rules ++
      if added.1 ≠ 0 then
        (key { rule with ruleId := added.1, index := s.rules.length + 1 }).toList
      else [] := by
  unfold append
  dsimp only
  split_ifs
  · rw [Rows.keys_append, Rows.keys_cons, Rows.keys_nil, List.append_nil]
  · rw [List.append_nil]

theorem shownIds_append (rule : ProxyRule) (added : BitVec 32 × RuleStore) :
    (s.append rule added).shownIds = s.shownIds ++ if added.1 ≠ 0 then [added.1] else [] := by
  rw [shownIds, keys_appended]
  split_ifs with hid
  · rw [engineId_of_ne hid]
    rfl
  · rfl

theorem ruleId_behind (hunregistered : ∀ rule ∈ s.unregistered, rule.ruleId = 0) {row : ℕ}
    {rule : ProxyRule} (hstartup : s.startup = .registering row)
    (hrule : s.rules[row]? = some rule) :
    rule.ruleId = 0 ∧ ∀ rule ∈ s.rules.drop (row + 1), rule.ruleId = 0 := by
  rw [unregistered, hstartup] at hunregistered
  dsimp only at hunregistered
  obtain ⟨hlt, rfl⟩ := List.getElem?_eq_some_iff.mp hrule
  rw [List.drop_eq_getElem_cons hlt] at hunregistered
  exact List.forall_mem_cons.mp hunregistered

/-- A pass of the loop gives the rules in front of the row and at it the keys of registered
rules. -/
theorem keys_registerRow {κ : Type*} {key : ProxyRule → Option κ}
    (hkey : ∀ rule, rule.ruleId = 0 → key rule = none) {row : ℕ} {rule : ProxyRule}
    (hrule : s.rules[row]? = some rule) (hid : rule.ruleId = 0)
    (hbehind : ∀ rule ∈ s.rules.drop (row + 1), rule.ruleId = 0) (allocation : Allocation) :
    Rows.keys key (s.registerRow allocation row rule).rules = Rows.keys key s.rules ++
      if (s.store.addRule allocation rule.fields).1 ≠ 0 then
        (key { rule with
          ruleId := (s.store.addRule allocation rule.fields).1, index := row + 1 }).toList
      else [] := by
  have hnone : Rows.keys key (s.rules.drop (row + 1)) = [] := by
    rw [Rows.keys, List.filterMap_eq_nil_iff]
    exact fun rule hmem => hkey rule (hbehind rule hmem)
  have hbefore : Rows.keys key s.rules = Rows.keys key (s.rules.take row) := by
    conv_lhs => rw [(Rows.split_at hrule).1]
    rw [Rows.keys_append, Rows.keys_cons, hkey rule hid, hnone]
    exact List.append_nil _
  unfold registerRow
  dsimp only
  split_ifs with hadded
  · rw [Rows.set_eq hrule, Rows.keys_append, Rows.keys_cons, hnone, List.append_nil, hbefore]
  · rw [List.append_nil]

theorem ruleId_registerRow {row : ℕ} {rule : ProxyRule}
    (hbehind : ∀ rule ∈ s.rules.drop (row + 1), rule.ruleId = 0) (allocation : Allocation) :
    ∀ rule' ∈ (s.registerRow allocation row rule).unregistered, rule'.ruleId = 0 := by
  have hdrop : (s.registerRow allocation row rule).rules.drop (row + 1) =
      s.rules.drop (row + 1) := by
    unfold registerRow
    dsimp only
    split_ifs
    · exact List.drop_set_of_lt (Nat.lt_succ_self row)
    · rfl
  intro rule' hmem
  by_cases hlast : row + 1 = s.rules.length
  · simp [unregistered, registerRow, hlast] at hmem
  · have hnext : (s.registerRow allocation row rule).startup = .registering (row + 1) :=
      if_neg hlast
    rw [unregistered, hnext] at hmem
    dsimp only at hmem
    rw [hdrop] at hmem
    exact hbehind rule' hmem

theorem shownIds_registerRow (hunregistered : ∀ rule ∈ s.unregistered, rule.ruleId = 0) {row : ℕ}
    {rule : ProxyRule} (hstartup : s.startup = .registering row)
    (hrule : s.rules[row]? = some rule) (allocation : Allocation) :
    (s.registerRow allocation row rule).shownIds = s.shownIds ++
      if (s.store.addRule allocation rule.fields).1 ≠ 0 then
        [(s.store.addRule allocation rule.fields).1]
      else [] := by
  obtain ⟨hid, hbehind⟩ := ruleId_behind hunregistered hstartup hrule
  rw [shownIds, keys_registerRow (fun _ => engineId_of_eq) hrule hid hbehind]
  split_ifs with hadded
  · rw [engineId_of_ne hadded]
    rfl
  · rfl

theorem Tracked.register (h : s.Tracked) {allocation : Allocation} {row : ℕ} {rule : ProxyRule}
    (hstartup : s.startup = .registering row) (hrule : s.rules[row]? = some rule)
    (hnext : s.store.nextRuleId ≠ 0) : (s.registerRow allocation row rule).Tracked :=
  h.offer hnext rfl rfl (shownIds_registerRow h.unregistered hstartup hrule allocation)
    (ruleId_registerRow (ruleId_behind h.unregistered hstartup hrule).2 _) (h.running row hstartup)

theorem unregistered_of_finished (hfinished : t.startup = .finished) :
    ∀ rule ∈ t.unregistered, rule.ruleId = 0 := by
  simp [unregistered, hfinished]

theorem Tracked.add (h : s.Tracked) (hfinished : s.startup = .finished)
    (hservice : s.service = true) {texts : RuleTexts} {allocation : Allocation}
    (hnext : s.store.nextRuleId ≠ 0) : (s.addRule texts allocation).Tracked := by
  rw [addRule, if_pos hservice]
  exact h.offer hnext rfl rfl (shownIds_append _ _) (unregistered_of_finished hfinished) hservice

theorem importRule_frame (hservice : s.service = true) (config : ProxyRuleConfig)
    (allocation : Allocation) :
    (s.importRule config allocation).store.ids =
        (s.store.addRule allocation config.fields).2.ids ∧
      (s.importRule config allocation).store.nextRuleId =
        (s.store.addRule allocation config.fields).2.nextRuleId ∧
      (s.importRule config allocation).rules =
        (s.append ⟨config.toRuleTexts, 0, 0, config.isEnabled, false⟩
          (s.store.addRule allocation config.fields)).rules ∧
      (s.importRule config allocation).startup = s.startup ∧
      (s.importRule config allocation).service = s.service := by
  unfold importRule
  rw [if_pos hservice]
  dsimp only
  split_ifs <;> simp [append, RuleStore.disableRule]

theorem shownIds_importRule (hservice : s.service = true) (config : ProxyRuleConfig)
    (allocation : Allocation) :
    (s.importRule config allocation).shownIds = s.shownIds ++
      if (s.store.addRule allocation config.fields).1 ≠ 0 then
        [(s.store.addRule allocation config.fields).1]
      else [] := by
  rw [shownIds, (importRule_frame hservice config allocation).2.2.1]
  exact shownIds_append _ _

theorem Tracked.importRule (h : s.Tracked) (hfinished : s.startup = .finished)
    (hservice : s.service = true) {config : ProxyRuleConfig} {allocation : Allocation}
    (hnext : s.store.nextRuleId ≠ 0) : (s.importRule config allocation).Tracked := by
  obtain ⟨hids, hnext', -, hstartup, hservice'⟩ := importRule_frame hservice config allocation
  exact h.offer hnext hids hnext' (shownIds_importRule hservice config allocation)
    (unregistered_of_finished (hstartup.trans hfinished)) (hservice'.trans hservice)

theorem keys_setTexts {κ : Type*} {key : ProxyRule → Option κ} (ruleId : BitVec 32)
    (texts : RuleTexts)
    (hkey : ∀ rule : ProxyRule, key { rule with toRuleTexts := texts } = key rule)
    (rules : List ProxyRule) :
    Rows.keys key (setTexts ruleId texts rules) = Rows.keys key rules := by
  induction rules with
  | nil => rfl
  | cons rule rules ih =>
    unfold setTexts
    split
    · rw [Rows.keys_cons, Rows.keys_cons, hkey]
    · rw [Rows.keys_cons, Rows.keys_cons, ih]

theorem shownIds_editRule (ruleId : BitVec 32) (texts : RuleTexts) (copied : Bool) :
    (s.editRule ruleId texts copied).shownIds = s.shownIds := by
  unfold editRule shownIds
  dsimp only
  split_ifs
  · exact keys_setTexts ruleId texts (fun _ => rfl) s.rules
  · rfl

/-- What the removal of a rule from both sides keeps, the removal of the selected rules keeps. -/
theorem deleteSelectedFrom_keeps {R : RuleStore → List ProxyRule → Prop}
    (hR : ∀ store rules row rule, R store rules → rules[row]? = some rule →
      (store.deleteRule rule.ruleId).1 = true →
      R (store.deleteRule rule.ruleId).2 (rules.eraseIdx row))
    {store : RuleStore} {kept rules : List ProxyRule} (h : R store (kept ++ rules)) :
    R (deleteSelectedFrom store kept rules).1 (deleteSelectedFrom store kept rules).2 := by
  induction rules generalizing store kept with
  | nil => simpa [deleteSelectedFrom] using h
  | cons rule rules ih =>
    unfold deleteSelectedFrom
    split_ifs with hdeleted
    · have hrow : (kept ++ rule :: rules)[kept.length]? = some rule := by simp
      have herase : (kept ++ rule :: rules).eraseIdx kept.length = kept ++ rules := by
        simp [List.eraseIdx_append_of_length_le]
      simp only [Bool.and_eq_true] at hdeleted
      apply ih
      rw [← herase]
      exact hR store _ _ rule h hrow hdeleted.2
    · apply ih
      rwa [List.append_assoc]

theorem deleteSelected_keeps {R : RuleStore → List ProxyRule → Prop}
    (hR : ∀ store rules row rule, R store rules → rules[row]? = some rule →
      (store.deleteRule rule.ruleId).1 = true →
      R (store.deleteRule rule.ruleId).2 (rules.eraseIdx row))
    (h : R s.store s.rules) : R s.deleteSelected.store s.deleteSelected.rules :=
  deleteSelectedFrom_keeps hR (show R s.store ([] ++ s.rules) from h)

/-- A rule is removed from the collection only once the engine has removed it. -/
theorem deleteRule_keeps {R : RuleStore → List ProxyRule → Prop}
    (hR : ∀ store rules row rule, R store rules → rules[row]? = some rule →
      (store.deleteRule rule.ruleId).1 = true →
      R (store.deleteRule rule.ruleId).2 (rules.eraseIdx row))
    {row : ℕ} {rule : ProxyRule} (hrule : s.rules[row]? = some rule) (h : R s.store s.rules) :
    R (s.deleteRule row rule).store (s.deleteRule row rule).rules := by
  unfold deleteRule
  dsimp only
  split_ifs with hdeleted
  · exact hR s.store s.rules row rule h hrule hdeleted
  · rwa [RuleStore.deleteRule_of_fails (by simpa using hdeleted)]

def IdsTracked (store : RuleStore) (rules : List ProxyRule) : Prop :=
  store.Valid ∧ (Rows.keys ProxyRule.engineId rules).Nodup ∧
    ∀ id ∈ Rows.keys ProxyRule.engineId rules, id ∈ store.ids

theorem idsTracked_eraseIdx (store : RuleStore) (rules : List ProxyRule) (row : ℕ)
    (rule : ProxyRule) (h : IdsTracked store rules) (hrule : rules[row]? = some rule)
    (hdeleted : (store.deleteRule rule.ruleId).1 = true) :
    IdsTracked (store.deleteRule rule.ruleId).2 (rules.eraseIdx row) := by
  obtain ⟨hvalid, honce, hknown⟩ := h
  have hfinds := RuleStore.finds_of_deleteRule hdeleted
  have hid : rule.ruleId ≠ 0 := (RuleStore.finds_iff.mp hfinds).1
  have hkeys := Rows.keys_eraseIdx hrule (engineId_of_ne hid) honce
  refine ⟨hvalid.deleteRule rule.ruleId, hkeys ▸ honce.erase _, fun id hmem => ?_⟩
  rw [hkeys] at hmem
  obtain ⟨hne, hshown⟩ := honce.mem_erase_iff.mp hmem
  rw [(RuleStore.ids_deleteRule hfinds).2, hvalid.nodup.mem_erase_iff]
  exact ⟨hne, hknown id hshown⟩

theorem Tracked.idsTracked (h : s.Tracked) : IdsTracked s.store s.rules :=
  ⟨h.valid, h.once, h.known⟩

theorem Tracked.of_idsTracked (hfinished : t.startup = .finished) (hservice : t.service = true)
    (h : IdsTracked t.store t.rules) : t.Tracked :=
  .of_finished hfinished h.1 h.2.1 h.2.2 fun hnot => absurd (hservice.symm.trans hnot) (by simp)

theorem keys_renumber {κ : Type*} {key : ProxyRule → Option κ}
    (hkey : ∀ (rule : ProxyRule) (i : ℕ), key { rule with index := i } = key rule)
    (rules : List ProxyRule) : Rows.keys key (renumber rules) = Rows.keys key rules := by
  apply Rows.keys_mapIdx
  intro i rule
  exact hkey rule (i + 1)

theorem perm_dropped {row target : ℕ} {dragged targeted : ProxyRule}
    (hdragged : s.rules[row]? = some dragged) (htargeted : s.rules[target]? = some targeted) :
    ((s.rules.eraseIdx row).insertIdx target dragged).Perm s.rules := by
  obtain ⟨hrow, rfl⟩ := List.getElem?_eq_some_iff.mp hdragged
  obtain ⟨htarget, -⟩ := List.getElem?_eq_some_iff.mp htargeted
  have hbound : target ≤ (s.rules.eraseIdx row).length := by
    rw [List.length_eraseIdx_of_lt hrow]
    omega
  exact (List.perm_insertIdx _ _ hbound).trans (List.getElem_cons_eraseIdx_perm hrow)

/-- A drop leaves everything alone, or it moves the rule on both sides. -/
theorem dropRule_cases {row target : ℕ} {dragged targeted : ProxyRule}
    (hdragged : s.rules[row]? = some dragged) (htargeted : s.rules[target]? = some targeted)
    (hdrop : s.dropRule row target dragged targeted = some t) :
    t = s ∧ (dragged.ruleId = targeted.ruleId ∨ s.store.finds dragged.ruleId = false) ∨
      dragged.ruleId ≠ targeted.ruleId ∧ s.store.finds dragged.ruleId = true ∧
        t.store.nextRuleId = s.store.nextRuleId ∧ t.service = s.service ∧
        t.startup = s.startup ∧
        t.rules = renumber ((s.rules.eraseIdx row).insertIdx target dragged) ∧
        ∃ rule, rule.ruleId = dragged.ruleId ∧
          (rule :: s.store.rules.eraseP fun rule => rule.ruleId = dragged.ruleId).Perm
            s.store.rules ∧
          t.store.rules =
            (s.store.rules.eraseP fun rule => rule.ruleId = dragged.ruleId).take target ++
              rule :: (s.store.rules.eraseP fun rule => rule.ruleId = dragged.ruleId).drop
                target := by
  unfold dropRule at hdrop
  split_ifs at hdrop with hsame
  · refine .inl ⟨(Option.some.inj hdrop).symm, .inl ?_⟩
    simp only [Bool.or_eq_true, decide_eq_true_eq] at hsame
    rcases hsame with hsame | rfl
    · exact hsame
    · rw [Option.some.inj (hdragged.symm.trans htargeted)]
  · obtain ⟨⟨ok, store⟩, hmoved, rfl⟩ := Option.map_eq_some_iff.mp hdrop
    simp only [Bool.or_eq_true, decide_eq_true_eq, not_or] at hsame
    rcases RuleStore.moveRuleToPosition_cases hmoved with
      ⟨rfl, rfl, hnot⟩ | ⟨rfl, -, hfinds, hnext, hrule⟩
    · exact .inl ⟨rfl, .inr (hnot.resolve_left (Nat.succ_ne_zero target))⟩
    · exact .inr ⟨hsame.1, hfinds, hnext, rfl, rfl, rfl, hrule⟩

theorem Tracked.drag (h : s.Tracked) (hfinished : s.startup = .finished)
    (hservice : s.service = true) {row target : ℕ} {dragged targeted : ProxyRule}
    (hdragged : s.rules[row]? = some dragged) (htargeted : s.rules[target]? = some targeted)
    (hdrop : s.dropRule row target dragged targeted = some t) : t.Tracked := by
  rcases dropRule_cases hdragged htargeted hdrop with
    ⟨rfl, -⟩ | ⟨-, -, hnext, hservice', hstartup, hrules, rule, -, hperm, hstored⟩
  · exact h
  · have hids : t.store.ids.Perm s.store.ids := (RuleStore.perm_moved hperm hstored).map _
    have hshown : t.shownIds.Perm s.shownIds := by
      rw [shownIds, hrules, keys_renumber (fun _ _ => rfl)]
      exact (perm_dropped hdragged htargeted).filterMap _
    apply Tracked.of_idsTracked (hstartup.trans hfinished) (hservice'.trans hservice)
    refine ⟨h.valid.of_perm hids hnext, hshown.nodup_iff.mpr h.once, fun id hid => ?_⟩
    exact hids.mem_iff.mpr (h.known id (hshown.mem_iff.mp hid))

theorem keys_set_of_ruleId {row : ℕ} {rule new : ProxyRule} (hrule : s.rules[row]? = some rule)
    (hid : new.ruleId = rule.ruleId) :
    Rows.keys ProxyRule.engineId (s.rules.set row new) = s.shownIds := by
  apply Rows.keys_set hrule
  rw [ProxyRule.engineId, ProxyRule.engineId, hid]

theorem switchRule_frame {row : ℕ} {rule : ProxyRule} (hrule : s.rules[row]? = some rule)
    (enabled : Bool) :
    (s.switchRule row enabled rule).shownIds = s.shownIds ∧
      (s.switchRule row enabled rule).store.ids = s.store.ids ∧
      (s.switchRule row enabled rule).store.nextRuleId = s.store.nextRuleId ∧
      (s.switchRule row enabled rule).service = s.service ∧
      (s.switchRule row enabled rule).startup = s.startup := by
  have hids : Rows.keys ProxyRule.engineId (s.rules.set row { rule with isEnabled := enabled }) =
      s.shownIds := keys_set_of_ruleId hrule rfl
  unfold switchRule
  split_ifs with hsame hservice
  · exact ⟨rfl, rfl, rfl, rfl, rfl⟩
  · exact ⟨hids, by simp, by simp, rfl, rfl⟩
  · exact ⟨hids, rfl, rfl, rfl, rfl⟩

theorem Tracked.step (h : s.Tracked) {op : RuleOperation} (hleft : s.IdsLeft op)
    (hstep : s.step op = some t) : t.Tracked := by
  cases stepped_of_step hstep with
  | load hpending configs start => exact h.load hpending configs start
  | register hstartup hrule allocation =>
    exact h.register hstartup hrule (hleft (by simp [offered, hstartup, hrule]))
  | idle => exact h
  | add hfinished hservice texts allocation =>
    exact h.add hfinished hservice (hleft (by simp [offered, hservice]))
  | edit hfinished _ ruleId texts copied =>
    exact h.of_eq hfinished (shownIds_editRule ruleId texts copied) (by simp [editRule])
      (by simp [editRule]) rfl
  | delete hfinished hservice hrule =>
    exact .of_idsTracked hfinished hservice
      (deleteRule_keeps idsTracked_eraseIdx hrule h.idsTracked)
  | deleteSelected hfinished hservice =>
    exact .of_idsTracked hfinished hservice (deleteSelected_keeps idsTracked_eraseIdx h.idsTracked)
  | importRule hfinished hservice config allocation =>
    exact h.importRule hfinished hservice (hleft (by simp [offered, hservice]))
  | drag hfinished hservice hdragged htargeted hdrop =>
    exact h.drag hfinished hservice hdragged htargeted hdrop
  | setEnabled hfinished hrule enabled =>
    obtain ⟨hshown, hids, hnext, hservice, hstartup⟩ := switchRule_frame hrule enabled
    exact h.of_eq (hstartup.trans hfinished) hshown hids hnext hservice
  | setSelected hfinished hrule selected =>
    exact h.of_eq hfinished (keys_set_of_ruleId hrule rfl) rfl rfl rfl

theorem finished_of_step (hfinished : s.startup = .finished) {op : RuleOperation}
    (hstep : s.step op = some t) : t.startup = .finished := by
  cases stepped_of_step hstep with
  | load hpending => rw [hfinished] at hpending; cases hpending
  | register hstartup => rw [hfinished] at hstartup; cases hstartup
  | add _ hservice texts allocation =>
    rw [addRule, if_pos hservice]
    exact hfinished
  | importRule _ hservice config allocation =>
    exact (importRule_frame hservice config allocation).2.2.2.1.trans hfinished
  | drag _ _ hdragged htargeted hdrop =>
    rcases dropRule_cases hdragged htargeted hdrop with ⟨rfl, -⟩ | ⟨-, -, -, -, hstartup, -⟩
    · exact hfinished
    · exact hstartup.trans hfinished
  | setEnabled _ hrule enabled => exact (switchRule_frame hrule enabled).2.2.2.2.trans hfinished
  | _ => exact hfinished

theorem tracked_of_run {ops : List RuleOperation} (hrun : run step initial ops = some s)
    (hleft : Guarded step IdsLeft initial ops) : s.Tracked :=
  guarded_invariant (fun _ _ _ h hop hstep => h.step hop hstep) hrun hleft tracked_initial

end GuiState
end ProxyTun.WindowsGui
