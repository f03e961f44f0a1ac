import ProxyTun.Library.Rows
import ProxyTun.LinuxGui.RuleList
import ProxyTun.Windows.MoveRule

/-!
# The list of the GUI and the list of the engine

`g_rules_list` gets a new rule at its end, `rules_list` at its head. The two mirror each other as
long as a rule is only ever added to an empty list.
-/
namespace ProxyTun.LinuxGui
open Library Library.Transition
open Windows (RuleStore RuleFields Allocation truncateName)

/-- The id, the processes, the protocol, the action and the switch of a rule. -/
abbrev RuleView := BitVec 32 × CStr × RuleProtocol × RuleAction × Bool

def RuleData.view (rule : RuleData) : RuleView :=
  (rule.id, rule.processName, rule.protocol, rule.action, rule.enabled)

def engineView (rule : Rule) : RuleView :=
  (rule.ruleId, rule.processName, rule.protocol, rule.action, rule.enabled)

def TakenAsIs (allocation : Allocation) (fields : RuleFields) : Prop :=
  RuleStore.taken allocation fields = true ∧ fields.processName.length ≤ 255

instance (allocation : Allocation) (fields : RuleFields) :
    Decidable (TakenAsIs allocation fields) := inferInstanceAs (Decidable (_ ∧ _))

/-- At most one rule is loaded, and the engine takes it. -/
def RestoresInOrder (started : Bool) : List (RuleData × Allocation) → Prop
  | [] => True
  | [(rule, allocation)] => started = true ∧ TakenAsIs allocation rule.fields
  | _ => False

instance (started : Bool) : ∀ loaded, Decidable (RestoresInOrder started loaded)
  | [] => .isTrue trivial
  | [(rule, allocation)] =>
    inferInstanceAs (Decidable (started = true ∧ TakenAsIs allocation rule.fields))
  | _ :: _ :: _ => .isFalse id

namespace GuiState

/-- From first to last, the engine has the rules of the list. -/
def MirrorsEngine (s : GuiState) : Prop :=
  s.rules.map RuleData.view = s.store.rules.map engineView

/-- The engine has an id for the only rule of the list. -/
def AddsOnly (s : GuiState) (fields : RuleFields) (allocation : Allocation) : Prop :=
  s.rules = [] ∧ s.store.nextRuleId ≠ 0 ∧ TakenAsIs allocation fields

/-- A rule is added only as the first one. Where the engine does not edit a rule, or cuts its name
off, it has the new values already. -/
def KeepsMirror (s : GuiState) : RuleOperation → Prop
  | .add fields allocation => fields.processName = [] ∨ s.AddsOnly fields allocation
  | .edit row fields copied =>
    fields.processName = [] ∨ (copied = true ∧ fields.processName.length ≤ 255) ∨
      (copied = false ∧ ∀ rule ∈ s.rules[row]?, rule.processName = fields.processName ∧
        rule.protocol = fields.protocol ∧ rule.action = fields.action)
  | .importRules [] => True
  | .importRules [(rule, allocation)] => s.AddsOnly rule.toRuleFields allocation
  | .importRules _ => False
  | _ => True

instance (s : GuiState) : Decidable s.MirrorsEngine := inferInstanceAs (Decidable (_ = _))

instance (s : GuiState) (fields : RuleFields) (allocation : Allocation) :
    Decidable (s.AddsOnly fields allocation) := inferInstanceAs (Decidable (_ ∧ _ ∧ _))

instance (s : GuiState) : ∀ op, Decidable (s.KeepsMirror op)
  | .add fields allocation =>
    inferInstanceAs (Decidable (fields.processName = [] ∨ s.AddsOnly fields allocation))
  | .edit row fields copied =>
    inferInstanceAs (Decidable (fields.processName = [] ∨
      (copied = true ∧ fields.processName.length ≤ 255) ∨
      (copied = false ∧ ∀ rule ∈ s.rules[row]?, rule.processName = fields.processName ∧
        rule.protocol = fields.protocol ∧ rule.action = fields.action)))
  | .importRules [] => .isTrue trivial
  | .importRules [(rule, allocation)] =>
    inferInstanceAs (Decidable (s.AddsOnly rule.toRuleFields allocation))
  | .importRules (_ :: _ :: _) => .isFalse id
  | .toggle .. | .select .. | .selectAll | .delete _ | .bulkDelete => .isTrue trivial

variable {s t : GuiState}

theorem ids_eq_of_mirrors (h : s.MirrorsEngine) : s.rules.map RuleData.id = s.store.ids := by
  have hids := congrArg (List.map Prod.fst) h
  rwa [List.map_map, List.map_map] at hids

theorem rules_eq_nil_iff (h : s.MirrorsEngine) : s.rules = [] ↔ s.store.rules = [] := by
  rw [← List.map_eq_nil_iff (f := RuleData.view), h, List.map_eq_nil_iff]

end GuiState

open GuiState

section Engine

variable {store : RuleStore} {fields : RuleFields} {allocation : Allocation}

theorem addRule_of_taken (htaken : RuleStore.taken allocation fields = true) :
    Linux.addRule allocation fields store =
      (store.nextRuleId, ⟨fields.rule store.nextRuleId :: store.rules, store.nextRuleId + 1⟩) := by
  simp only [RuleStore.taken, Bool.and_eq_true, decide_eq_true_eq] at htaken
  obtain ⟨rfl, hname⟩ := htaken
  simp [Linux.addRule, RuleStore.addRule, hname]

/-- A rule that the engine takes is at the head of its list, switched as in the GUI. -/
theorem addToEngine_of_taken (hnext : store.nextRuleId ≠ 0)
    (htaken : RuleStore.taken allocation fields = true) (enabled : Bool) :
    addToEngine fields enabled allocation store =
      (store.nextRuleId,
        ⟨{ fields.rule store.nextRuleId with enabled := enabled } :: store.rules,
          store.nextRuleId + 1⟩) := by
  unfold addToEngine
  rw [addRule_of_taken htaken]
  cases enabled with
  | true => rfl
  | false =>
    have hhead := RuleStore.disableRule_head
      (s := ⟨fields.rule store.nextRuleId :: store.rules, store.nextRuleId + 1⟩) rfl hnext
    exact congrArg (Prod.mk store.nextRuleId) hhead

theorem addToEngine_only (hnone : store.rules = []) (hnext : store.nextRuleId ≠ 0)
    (htaken : TakenAsIs allocation fields) (enabled : Bool) :
    (addToEngine fields enabled allocation store).2.Valid ∧
      (addToEngine fields enabled allocation store).2.rules.map engineView =
        [(newRow (addToEngine fields enabled allocation store).1 fields enabled).view] := by
  obtain ⟨htaken, hshort⟩ := htaken
  rw [addToEngine_of_taken hnext htaken, hnone]
  refine ⟨⟨List.nodup_singleton _, ?_⟩, ?_⟩
  · intro id hid
    have heq : id = store.nextRuleId := List.mem_singleton.mp hid
    rw [heq]
    exact ⟨hnext, by bv_omega⟩
  · simp [engineView, newRow, RuleData.view, RuleFields.rule, truncateName,
      List.take_of_length_le hshort]

theorem rules_deleteRule (hvalid : store.Valid) (id : BitVec 32) :
    (Linux.deleteRule id store).2.rules = store.rules.filter fun rule => rule.ruleId ≠ id := by
  unfold Linux.deleteRule RuleStore.deleteRule
  split_ifs with hfinds
  · exact Windows.eraseP_eq_filter hvalid.nodup
  · exact (Rows.filter_of_name_not_mem fun hmem => hfinds (hvalid.finds_of_mem hmem)).symm

theorem view_update (hvalid : store.Valid) {id : BitVec 32} {f : Rule → Rule}
    {g : RuleView → RuleView} (hfg : ∀ rule, engineView (f rule) = g (engineView rule)) :
    (store.update id f).rules.map engineView =
      (store.rules.map engineView).map fun view => if view.1 = id then g view else view := by
  rw [RuleStore.update, Windows.updateRule_eq_map f hvalid.nodup, List.map_map, List.map_map]
  apply List.map_congr_left
  intro rule _
  have hfst : (engineView rule).1 = rule.ruleId := rfl
  simp only [Function.comp_apply, hfst]
  split_ifs
  · exact hfg rule
  · rfl

theorem rules_deleteAll (hvalid : store.Valid) (rows : List RuleData) :
    (rows.foldl (fun store row => (Linux.deleteRule row.id store).2) store).Valid ∧
      (rows.foldl (fun store row => (Linux.deleteRule row.id store).2) store).rules =
        store.rules.filter fun rule => rows.all fun row => rule.ruleId ≠ row.id := by
  induction rows generalizing store with
  | nil => exact ⟨hvalid, by simp⟩
  | cons row rows ih =>
    obtain ⟨hrest, hrules⟩ := ih (hvalid.deleteRule row.id)
    refine ⟨hrest, hrules.trans ?_⟩
    have hfirst := rules_deleteRule hvalid row.id
    rw [Linux.deleteRule] at hfirst
    rw [hfirst, List.filter_filter]
    simp only [List.all_cons, Bool.and_comm]

end Engine

namespace GuiState

variable {s t : GuiState}

/-- What every operation keeps. -/
structure Mirrored (s : GuiState) : Prop where
  mirrors : s.MirrorsEngine
  valid : s.store.Valid

theorem Mirrored.nodup (h : s.Mirrored) : (s.rules.map RuleData.id).Nodup :=
  ids_eq_of_mirrors h.mirrors ▸ h.valid.nodup

theorem Mirrored.finds (h : s.Mirrored) {rule : RuleData} (hrule : rule ∈ s.rules) :
    s.store.finds rule.id = true := by
  apply h.valid.finds_of_mem
  rw [← ids_eq_of_mirrors h.mirrors]
  exact List.mem_map_of_mem hrule

theorem Mirrored.update (h : s.Mirrored) {row : ℕ} {rule new : RuleData}
    (hrule : s.rules[row]? = some rule) {f : Rule → Rule} {g : RuleView → RuleView}
    (hid : ∀ rule, (f rule).ruleId = rule.ruleId)
    (hfg : ∀ rule, engineView (f rule) = g (engineView rule)) (hnew : new.view = g rule.view)
    (hstore : t.store = s.store.update rule.id f) (hrules : t.rules = s.rules.set row new) :
    t.Mirrored := by
  have hnodup : ((s.rules.map RuleData.view).map Prod.fst).Nodup := by
    rw [List.map_map]
    exact h.nodup
  have hview : (s.rules.map RuleData.view)[row]? = some rule.view := by
    rw [List.getElem?_map, hrule, Option.map_some]
  constructor
  · unfold MirrorsEngine
    rw [hstore, hrules, view_update h.valid hfg, List.map_set, hnew,
      Rows.set_eq_map hnodup hview g, h.mirrors]
    rfl
  · rw [hstore]
    exact h.valid.of_perm (.of_eq (RuleStore.ids_update hid)) rfl

theorem Mirrored.of_eq (h : s.Mirrored) (hstore : t.store = s.store)
    (hrules : t.rules.map RuleData.view = s.rules.map RuleData.view) : t.Mirrored :=
  ⟨by rw [MirrorsEngine, hstore, hrules, h.mirrors], hstore ▸ h.valid⟩

theorem Mirrored.addOnly (h : s.Mirrored) {fields : RuleFields} {allocation : Allocation}
    (hadds : s.AddsOnly fields allocation) (enabled : Bool)
    (hstore : t.store = (addToEngine fields enabled allocation s.store).2)
    (hrules : t.rules =
      s.rules ++ [newRow (addToEngine fields enabled allocation s.store).1 fields enabled]) :
    t.Mirrored := by
  obtain ⟨hnone, hnext, htaken⟩ := hadds
  obtain ⟨hvalid, hview⟩ :=
    addToEngine_only ((rules_eq_nil_iff h.mirrors).mp hnone) hnext htaken enabled
  refine ⟨?_, hstore ▸ hvalid⟩
  unfold MirrorsEngine
  rw [hstore, hrules, hview, hnone]
  rfl

theorem Mirrored.add (h : s.Mirrored) {fields : RuleFields} {allocation : Allocation}
    (hkeeps : s.KeepsMirror (.add fields allocation)) : (s.addRule fields allocation).Mirrored := by
  unfold addRule
  split_ifs with hname
  · exact h
  · exact h.addOnly (hkeeps.resolve_left hname) true rfl rfl

theorem Mirrored.edit (h : s.Mirrored) {row : ℕ} {rule : RuleData}
    (hrule : s.rules[row]? = some rule) {fields : RuleFields} {copied : Bool}
    (hkeeps : s.KeepsMirror (.edit row fields copied)) :
    (s.editRule row rule fields copied).Mirrored := by
  unfold editRule
  split_ifs with hname
  · exact h
  · rcases hkeeps with hempty | ⟨rfl, hshort⟩ | ⟨rfl, hsame⟩
    · exact absurd hempty hname
    · refine h.update hrule (f := RuleStore.edited true fields)
        (g := fun view =>
          (view.1, fields.processName, fields.protocol, fields.action, view.2.2.2.2))
        (fun _ => rfl) (fun rule => ?_) rfl ?_ rfl
      · simp [engineView, RuleStore.edited, truncateName, List.take_of_length_le hshort]
      · simp [save, Linux.editRule, h.finds (List.mem_of_getElem? hrule)]
    · obtain ⟨hprocess, hprotocol, haction⟩ := hsame rule hrule
      refine h.of_eq rfl (Rows.map_set hrule ?_)
      rw [RuleData.view, RuleData.view, hprocess, hprotocol, haction]
      rfl

theorem Mirrored.toggle (h : s.Mirrored) {row : ℕ} {rule : RuleData}
    (hrule : s.rules[row]? = some rule) (enabled : Bool) :
    (s.toggleRule row rule enabled).Mirrored := by
  refine h.update hrule (f := fun rule => { rule with enabled := enabled })
    (g := fun view => (view.1, view.2.1, view.2.2.1, view.2.2.2.1, enabled))
    (fun _ => rfl) (fun _ => rfl) rfl ?_ rfl
  cases enabled <;>
    simp [toggleRule, save, Linux.enableRule, Linux.disableRule, RuleStore.enableRule,
      RuleStore.disableRule, RuleStore.setEnabled, h.finds (List.mem_of_getElem? hrule)]

theorem Mirrored.delete (h : s.Mirrored) {row : ℕ} {rule : RuleData}
    (hrule : s.rules[row]? = some rule) : (s.deleteRule row rule).Mirrored := by
  refine ⟨?_, h.valid.deleteRule rule.id⟩
  have hnodup := h.nodup
  unfold MirrorsEngine GuiState.deleteRule save
  dsimp only
  rw [rules_deleteRule h.valid, Rows.eraseIdx_eq_filter hnodup hrule]
  have hfilter := congrArg (List.filter fun view => view.1 ≠ rule.id) h.mirrors
  rwa [List.filter_map, List.filter_map] at hfilter

theorem Mirrored.bulkDelete (h : s.Mirrored) : s.bulkDelete.Mirrored := by
  obtain ⟨hvalid, hrules⟩ := rules_deleteAll h.valid (s.rules.filter fun rule => rule.selected)
  refine ⟨?_, hvalid⟩
  have hselected : (s.rules.filter fun rule => !rule.selected) =
      s.rules.filter fun rule =>
        (s.rules.filter fun rule => rule.selected).all fun row => rule.id ≠ row.id := by
    apply List.filter_congr
    intro rule hrule
    rw [Bool.eq_iff_iff]
    simp only [Bool.not_eq_true', List.all_eq_true, List.mem_filter, decide_eq_true_eq, and_imp]
    constructor
    · rintro hnot row hrow hrowSelected hsame
      obtain rfl := List.inj_on_of_nodup_map h.nodup hrule hrow hsame
      rw [hnot] at hrowSelected
      cases hrowSelected
    · intro hothers
      by_contra hrowSelected
      exact hothers rule hrule (by simpa using hrowSelected) rfl
  have hfilter := congrArg (List.filter fun view =>
    (s.rules.filter fun rule => rule.selected).all fun row => view.1 ≠ row.id) h.mirrors
  rw [List.filter_map, List.filter_map] at hfilter
  unfold MirrorsEngine GuiState.bulkDelete
  dsimp only
  rw [hrules, hselected]
  exact hfilter

theorem Mirrored.importRules (h : s.Mirrored) {found : List (ImportedRule × Allocation)}
    (hkeeps : s.KeepsMirror (.importRules found)) : (s.importRules found).Mirrored := by
  match found with
  | [] => exact h.of_eq rfl (by simp [GuiState.importRules, importFrom])
  | [(rule, allocation)] => exact h.addOnly hkeeps rule.enabled rfl rfl
  | _ :: _ :: _ => exact hkeeps.elim

theorem Mirrored.step (h : s.Mirrored) {op : RuleOperation} (hkeeps : s.KeepsMirror op)
    (hstep : s.step op = some t) : t.Mirrored := by
  cases op with
  | add fields allocation =>
    obtain rfl := Option.some.inj hstep
    exact h.add hkeeps
  | edit row fields copied =>
    obtain ⟨rule, hrule, rfl⟩ := Option.map_eq_some_iff.mp hstep
    exact h.edit hrule hkeeps
  | toggle row enabled =>
    obtain ⟨rule, hrule, rfl⟩ := Option.map_eq_some_iff.mp hstep
    exact h.toggle hrule enabled
  | select row selected =>
    obtain ⟨rule, hrule, rfl⟩ := Option.map_eq_some_iff.mp hstep
    exact h.of_eq rfl (Rows.map_set hrule rfl)
  | selectAll =>
    obtain rfl := Option.some.inj hstep
    refine h.of_eq rfl ?_
    rw [selectAll, List.map_map]
    rfl
  | delete row =>
    obtain ⟨rule, hrule, rfl⟩ := Option.map_eq_some_iff.mp hstep
    exact h.delete hrule
  | bulkDelete =>
    obtain rfl := Option.some.inj hstep
    exact h.bulkDelete
  | importRules found =>
    obtain rfl := Option.some.inj hstep
    exact h.importRules hkeeps

theorem mirrored_atStartup {started : Bool} {loaded : List (RuleData × Allocation)}
    (h : RestoresInOrder started loaded) : (atStartup started loaded).Mirrored := by
  match loaded with
  | [] => cases started <;> exact ⟨rfl, RuleStore.valid_empty⟩
  | [(rule, allocation)] =>
    obtain ⟨rfl, htaken⟩ := h
    have hnone : RuleStore.empty.rules = [] := rfl
    obtain ⟨hvalid, hview⟩ := addToEngine_only hnone (by decide) htaken rule.enabled
    exact ⟨hview.symm, hvalid⟩
  | _ :: _ :: _ => exact h.elim

/-- As long as every rule is added to an empty list, the engine has the rules of the list in its
order, after the start and after every operation. -/
theorem mirrorsEngine_of_run {started : Bool} {loaded : List (RuleData × Allocation)}
    (hloaded : RestoresInOrder started loaded) {ops : List RuleOperation}
    (hkeeps : Guarded step KeepsMirror (atStartup started loaded) ops)
    (hrun : run step (atStartup started loaded) ops = some t) : t.MirrorsEngine :=
  (guarded_invariant (fun _ _ _ hs hop hstep => Mirrored.step hs hop hstep) hrun hkeeps
    (mirrored_atStartup hloaded)).mirrors

/-- The only rule is restored, switched off and deleted, and another one is added and edited. -/
theorem mirrorsEngine_replaced : ∃ t,
    run step (atStartup true [(newRow 7 (wholeProcess "curl") true, .succeeds)])
      [.toggle 0 false, .delete 0, .add (wholeProcess "ssh") .succeeds,
        .edit 0 (wholeProcess "scp") true] = some t ∧ t.MirrorsEngine := by
  have hrun : ∃ t, run step (atStartup true [(newRow 7 (wholeProcess "curl") true, .succeeds)])
      [.toggle 0 false, .delete 0, .add (wholeProcess "ssh") .succeeds,
        .edit 0 (wholeProcess "scp") true] = some t := ⟨_, rfl⟩
  have hloaded : RestoresInOrder true [(newRow 7 (wholeProcess "curl") true, .succeeds)] := by
    decide
  obtain ⟨t, ht⟩ := hrun
  exact ⟨t, ht, mirrorsEngine_of_run hloaded (by decide) ht⟩

/-- Of two rules that are added the engine evaluates the second one first. -/
theorem engine_reverses_added : ∃ t,
    run step (atStartup true []) [.add (wholeProcess "curl") .succeeds,
      .add (wholeProcess "ssh") .succeeds] = some t ∧
    t.rules.map RuleData.id = [1, 2] ∧ t.store.ids = [2, 1] ∧ ¬ t.MirrorsEngine :=
  ⟨_, rfl, by decide, by decide, by decide⟩

end GuiState
end ProxyTun.LinuxGui
