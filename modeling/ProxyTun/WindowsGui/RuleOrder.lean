import ProxyTun.WindowsGui.RuleIds

/-!
# The order of the rules

The GUI puts a new rule at the end of its collection, the engine puts it at the head of its list.
All other operations keep the two orders equal, if a rule is not dragged across rules that the
engine does not have.
-/
namespace ProxyTun.WindowsGui
open Library Library.Transition Windows

namespace GuiState

/-- The collection shows the rules in the order in which the engine evaluates them. -/
def OrderAgrees (s : GuiState) : Prop := s.shownIds = s.store.ids

instance (s : GuiState) : Decidable s.OrderAgrees := inferInstanceAs (Decidable (_ = _))

/-- A rule is taken only as the first one. -/
def TakesFirst (s : GuiState) (op : RuleOperation) : Prop :=
  match s.offered op with
  | some (allocation, fields) => RuleStore.taken allocation fields = true → s.shownIds = []
  | none => True

/-- A rule is dragged only where all rules in front of the target row are registered, or none
behind it. -/
def DragsCounted (s : GuiState) : RuleOperation → Prop
  | .drag row target =>
    match s.rules[row]?, s.rules[target]? with
    | some dragged, some targeted =>
      s.service = false ∨ dragged.ruleId = targeted.ruleId ∨ dragged.ruleId = 0 ∨
        (∀ rule ∈ (s.rules.eraseIdx row).take target, rule.ruleId ≠ 0) ∨
        ∀ rule ∈ (s.rules.eraseIdx row).drop target, rule.ruleId = 0
    | _, _ => True
  | _ => True

/-- What keeps the orders equal. -/
def KeepsOrder (s : GuiState) (op : RuleOperation) : Prop := s.TakesFirst op ∧ s.DragsCounted op

instance (s : GuiState) (op : RuleOperation) : Decidable (s.TakesFirst op) :=
  match h : s.offered op with
  | some (allocation, fields) =>
    decidable_of_iff (RuleStore.taken allocation fields = true → s.shownIds = [])
      (by simp [TakesFirst, h])
  | none => .isTrue (by simp [TakesFirst, h])

instance (s : GuiState) : ∀ op, Decidable (s.DragsCounted op)
  | .drag row target =>
    match h : s.rules[row]?, h' : s.rules[target]? with
    | some dragged, some targeted =>
      decidable_of_iff
        (s.service = false ∨ dragged.ruleId = targeted.ruleId ∨ dragged.ruleId = 0 ∨
          (∀ rule ∈ (s.rules.eraseIdx row).take target, rule.ruleId ≠ 0) ∨
          ∀ rule ∈ (s.rules.eraseIdx row).drop target, rule.ruleId = 0)
        (by simp only [DragsCounted, h, h'])
    | some _, none => .isTrue (by simp [DragsCounted, h, h'])
    | none, _ => .isTrue (by simp [DragsCounted, h])
  | .load .. | .register _ | .add .. | .edit .. | .delete _ | .deleteSelected | .importRule ..
  | .setEnabled .. | .setSelected .. => .isTrue trivial

instance (s : GuiState) (op : RuleOperation) : Decidable (s.KeepsOrder op) :=
  inferInstanceAs (Decidable (_ ∧ _))

variable {s t : GuiState}

/-- Showing a taken rule last keeps the orders equal only if no rule was shown before. -/
theorem agrees_taken (hs : s.Tracked) (h : s.OrderAgrees) (hleft : s.store.nextRuleId ≠ 0) :
    s.shownIds ++ [s.store.nextRuleId] = s.store.nextRuleId :: s.store.ids ↔ s.shownIds = [] := by
  rw [← h, Rows.append_singleton_eq_cons_iff]
  constructor
  · intro hall
    apply List.eq_nil_iff_forall_not_mem.mpr
    intro id hid
    obtain rfl := hall id hid
    exact hs.valid.fresh hleft (hs.known _ hid)
  · intro hnil id hid
    rw [hnil] at hid
    cases hid

theorem agrees_of_eq (h : s.OrderAgrees) (hshown : t.shownIds = s.shownIds)
    (hids : t.store.ids = s.store.ids) : t.OrderAgrees := by
  rw [OrderAgrees, hshown, hids, h]

theorem agrees_load (hs : s.Tracked) (h : s.OrderAgrees) (hpending : s.startup = .pending)
    (configs : List ProxyRuleConfig) (start : ServiceStart) :
    (s.load configs start).OrderAgrees := by
  have hloaded := ruleId_load hs.unregistered hpending configs start
  have hbefore : ∀ rule ∈ s.rules, rule.ruleId = 0 :=
    fun rule hrule => hloaded rule (List.mem_append_left _ hrule)
  have hshown : (s.load configs start).shownIds = s.shownIds :=
    (keys_of_unregistered hloaded).trans (keys_of_unregistered hbefore).symm
  exact agrees_of_eq h hshown rfl

/-- The engine is offered a rule, and if it takes it the rule is shown behind the others. -/
theorem agrees_offer_iff {op : RuleOperation} {allocation : Allocation} {fields : RuleFields}
    (hs : s.Tracked) (h : s.OrderAgrees) (hleft : s.IdsLeft op)
    (hoffered : s.offered op = some (allocation, fields)) (hdrag : s.DragsCounted op)
    (hids : t.store.ids = (s.store.addRule allocation fields).2.ids)
    (hshown : t.shownIds = s.shownIds ++
      if (s.store.addRule allocation fields).1 ≠ 0 then [(s.store.addRule allocation fields).1]
      else []) : t.OrderAgrees ↔ s.KeepsOrder op := by
  have hnext : s.store.nextRuleId ≠ 0 := hleft (by rw [hoffered]; rfl)
  rw [KeepsOrder, and_iff_left hdrag, TakesFirst, hoffered]
  dsimp only
  rcases offer_cases hnext hids hshown with ⟨htaken, hcons, happend⟩ | ⟨htaken, hsame, hkept⟩
  · rw [OrderAgrees, happend, hcons, agrees_taken hs h hnext, htaken]
    simp
  · rw [htaken]
    exact iff_of_true (agrees_of_eq h hkept hsame) (by simp)

theorem agrees_eraseIdx (store : RuleStore) (rules : List ProxyRule) (row : ℕ) (rule : ProxyRule)
    (h : store.Valid ∧ Rows.keys ProxyRule.engineId rules = store.ids)
    (hrule : rules[row]? = some rule) (hdeleted : (store.deleteRule rule.ruleId).1 = true) :
    (store.deleteRule rule.ruleId).2.Valid ∧
      Rows.keys ProxyRule.engineId (rules.eraseIdx row) = (store.deleteRule rule.ruleId).2.ids := by
  obtain ⟨hvalid, hshown⟩ := h
  have hfinds := RuleStore.finds_of_deleteRule hdeleted
  have hid : rule.ruleId ≠ 0 := (RuleStore.finds_iff.mp hfinds).1
  refine ⟨hvalid.deleteRule rule.ruleId, ?_⟩
  rw [(RuleStore.ids_deleteRule hfinds).2, ← hshown]
  exact Rows.keys_eraseIdx hrule (engineId_of_ne hid) (hshown ▸ hvalid.nodup)

theorem engineId_isSome_iff {rule : ProxyRule} : rule.engineId.isSome = true ↔ rule.ruleId ≠ 0 := by
  by_cases h : rule.ruleId = 0 <;> simp [ProxyRule.engineId, h]

theorem engineId_eq_none_iff {rule : ProxyRule} : rule.engineId = none ↔ rule.ruleId = 0 := by
  by_cases h : rule.ruleId = 0 <;> simp [ProxyRule.engineId, h]

/-- The GUI counts all the rows in front of the target, the engine only those it knows. -/
theorem agrees_moved (hs : s.Tracked) (h : s.OrderAgrees) {row target : ℕ} {dragged : ProxyRule}
    (hdragged : s.rules[row]? = some dragged) (hid : dragged.ruleId ≠ 0)
    (htarget : target < s.rules.length) :
    Rows.keys ProxyRule.engineId
        (renumber ((s.rules.eraseIdx row).insertIdx target dragged)) =
      (s.store.ids.erase dragged.ruleId).take target ++
        dragged.ruleId :: (s.store.ids.erase dragged.ruleId).drop target ↔
      (∀ rule ∈ (s.rules.eraseIdx row).take target, rule.ruleId ≠ 0) ∨
        ∀ rule ∈ (s.rules.eraseIdx row).drop target, rule.ruleId = 0 := by
  obtain ⟨hrow, -⟩ := List.getElem?_eq_some_iff.mp hdragged
  have hbound : target ≤ (s.rules.eraseIdx row).length := by
    rw [List.length_eraseIdx_of_lt hrow]
    omega
  have hothers : Rows.keys ProxyRule.engineId (s.rules.eraseIdx row) =
      s.store.ids.erase dragged.ruleId := by
    rw [← h, shownIds]
    exact Rows.keys_eraseIdx hdragged (engineId_of_ne hid) hs.once
  have hnot : dragged.ruleId ∉ s.store.ids.erase dragged.ruleId := hs.valid.nodup.not_mem_erase
  have hsplit : Rows.keys ProxyRule.engineId ((s.rules.eraseIdx row).take target) ++
      Rows.keys ProxyRule.engineId ((s.rules.eraseIdx row).drop target) =
        s.store.ids.erase dragged.ruleId := by
    rw [← Rows.keys_append, List.take_append_drop, hothers]
  rw [keys_renumber (fun _ _ => rfl), Rows.insertIdx_eq hbound, Rows.keys_append, Rows.keys_cons,
    engineId_of_ne hid, Option.toList_some, List.singleton_append,
    Rows.insert_eq_iff (hsplit.trans (List.take_append_drop _ _).symm) (hsplit ▸ hnot), ← hothers,
    Rows.keys_take_iff hbound]
  simp only [engineId_isSome_iff, engineId_eq_none_iff]

theorem agrees_drag_iff (hs : s.Tracked) (h : s.OrderAgrees) (hservice : s.service = true)
    {row target : ℕ} {dragged targeted : ProxyRule} (hdragged : s.rules[row]? = some dragged)
    (htargeted : s.rules[target]? = some targeted)
    (hdrop : s.dropRule row target dragged targeted = some t) :
    t.OrderAgrees ↔ s.KeepsOrder (.drag row target) := by
  have hcounted : s.KeepsOrder (.drag row target) ↔
      dragged.ruleId = targeted.ruleId ∨ dragged.ruleId = 0 ∨
        (∀ rule ∈ (s.rules.eraseIdx row).take target, rule.ruleId ≠ 0) ∨
        ∀ rule ∈ (s.rules.eraseIdx row).drop target, rule.ruleId = 0 := by
    simp only [KeepsOrder, TakesFirst, offered, DragsCounted, hdragged, htargeted, hservice,
      Bool.true_eq_false, false_or, true_and]
  rcases dropRule_cases hdragged htargeted hdrop with
    ⟨rfl, hsame | hnot⟩ | ⟨hne, hfinds, -, -, -, hrules, rule, hrule, -, hstored⟩
  · exact iff_of_true h (hcounted.mpr (.inl hsame))
  · have hid : dragged.ruleId = 0 := by
      by_contra hid
      have hmem := hs.known _ (mem_shownIds (List.mem_of_getElem? hdragged) hid)
      have hfinds : t.store.finds dragged.ruleId = true := RuleStore.finds_iff.mpr ⟨hid, hmem⟩
      simp [hfinds] at hnot
    exact iff_of_true h (hcounted.mpr (.inr (.inl hid)))
  · have hid : dragged.ruleId ≠ 0 := (RuleStore.finds_iff.mp hfinds).1
    obtain ⟨htarget, -⟩ := List.getElem?_eq_some_iff.mp htargeted
    rw [hcounted, or_iff_right hne, or_iff_right hid, ← agrees_moved hs h hdragged hid htarget,
      OrderAgrees, shownIds, hrules, RuleStore.ids_moved hrule hstored]

theorem offered_of_no_service (hfinished : s.startup = .finished) (hservice : s.service = false)
    (op : RuleOperation) : s.offered op = none := by
  cases op <;> simp [offered, hfinished, hservice]

theorem keepsOrder_of_no_service (hfinished : s.startup = .finished)
    (hservice : s.service = false) (op : RuleOperation) : s.KeepsOrder op := by
  refine ⟨?_, ?_⟩
  · rw [TakesFirst, offered_of_no_service hfinished hservice]
    trivial
  · cases op with
    | drag row target =>
      unfold DragsCounted
      dsimp only
      split
      · exact .inl hservice
      · trivial
    | _ => trivial

theorem agrees_step_iff (hs : s.Tracked) (h : s.OrderAgrees) {op : RuleOperation}
    (hleft : s.IdsLeft op) (hstep : s.step op = some t) : t.OrderAgrees ↔ s.KeepsOrder op := by
  cases stepped_of_step hstep with
  | load hpending configs start =>
    exact iff_of_true (agrees_load hs h hpending configs start) ⟨trivial, trivial⟩
  | register hstartup hrule allocation =>
    exact agrees_offer_iff hs h hleft (by simp [offered, hstartup, hrule]) trivial rfl
      (shownIds_registerRow hs.unregistered hstartup hrule allocation)
  | idle hfinished hservice op =>
    exact iff_of_true h (keepsOrder_of_no_service hfinished hservice op)
  | add _ hservice texts allocation =>
    rw [addRule, if_pos hservice]
    exact agrees_offer_iff hs h hleft (by simp only [offered, hservice, if_true]) trivial rfl
      (shownIds_append _ _)
  | edit _ _ ruleId texts copied =>
    have hagrees := agrees_of_eq h (shownIds_editRule ruleId texts copied) (by simp [editRule])
    exact iff_of_true hagrees ⟨trivial, trivial⟩
  | delete _ _ hrule =>
    have hagrees := deleteRule_keeps agrees_eraseIdx hrule ⟨hs.valid, h⟩
    exact iff_of_true hagrees.2 ⟨trivial, trivial⟩
  | deleteSelected =>
    have hagrees := deleteSelected_keeps agrees_eraseIdx ⟨hs.valid, h⟩
    exact iff_of_true hagrees.2 ⟨trivial, trivial⟩
  | importRule _ hservice config allocation =>
    exact agrees_offer_iff hs h hleft (by simp only [offered, hservice, if_true]) trivial
      (importRule_frame hservice config allocation).1
      (shownIds_importRule hservice config allocation)
  | drag _ hservice hdragged htargeted hdrop =>
    exact agrees_drag_iff hs h hservice hdragged htargeted hdrop
  | setEnabled _ hrule enabled =>
    obtain ⟨hshown, hids, -⟩ := switchRule_frame hrule enabled
    exact iff_of_true (agrees_of_eq h hshown hids) ⟨trivial, trivial⟩
  | setSelected _ hrule selected =>
    exact iff_of_true (agrees_of_eq h (keys_set_of_ruleId hrule rfl) rfl) ⟨trivial, trivial⟩

/-- As long as the engine has ids left, the user sees the order of the engine after every
operation of a session exactly when each of them keeps the order. -/
theorem order_agrees_iff {ops : List RuleOperation} (hrun : run step initial ops = some t)
    (hleft : Guarded step IdsLeft initial ops) :
    EachStep step (fun _ _ t => t.OrderAgrees) initial ops ↔
      Guarded step KeepsOrder initial ops := by
  apply eachStep_iff_guarded (I := fun s => s.Tracked ∧ s.OrderAgrees) _ _ hrun hleft
    ⟨tracked_initial, rfl⟩
  · intro s op t hI hop hstep
    exact agrees_step_iff hI.1 hI.2 hop hstep
  · intro s op t hI hop hstep hagrees
    exact ⟨hI.1.step hop hstep, hagrees⟩

/-- The only rule is deleted before another one is added. -/
theorem order_agrees_replaced :
    EachStep step (fun _ _ t => t.OrderAgrees) initial
      [.load [⟨wholeProcess "curl.exe", true⟩] .succeeds, .register .succeeds,
        .setSelected 0 true, .deleteSelected, .add (wholeProcess "ssh.exe") .succeeds] := by
  have hrun : ∃ t, run step initial
      [.load [⟨wholeProcess "curl.exe", true⟩] .succeeds, .register .succeeds,
        .setSelected 0 true, .deleteSelected, .add (wholeProcess "ssh.exe") .succeeds] = some t :=
    ⟨_, rfl⟩
  obtain ⟨t, ht⟩ := hrun
  exact (order_agrees_iff ht (by decide)).mpr (by decide)

/-- Of two rules that are added the engine evaluates the second one first. -/
theorem order_reversed_by_add : ∃ t,
    run step initial [.load [] .succeeds, .add (wholeProcess "curl.exe") .succeeds,
      .add (wholeProcess "ssh.exe") .succeeds] = some t ∧
    t.shownIds = [1, 2] ∧ t.store.ids = [2, 1] ∧ ¬ t.OrderAgrees :=
  ⟨_, rfl, by decide, by decide, by decide⟩

end GuiState
end ProxyTun.WindowsGui
