import ProxyTun.Core.Rules
import ProxyTun.Library.Mirror
import ProxyTun.Library.Rows

/-!
# The rule stores of the engines

`rules_list` is evaluated from its head, and `ProxyTun_AddRule` puts a new rule there. All other
operations find a rule by its id. The next id is a 32-bit counter that starts at 1, and 0 stands
for failure.
-/
namespace ProxyTun.Windows
open Library

structure RuleStore where
  rules : List Rule
  /-- `g_next_rule_id`. -/
  nextRuleId : BitVec 32
  deriving DecidableEq, Repr

def RuleStore.empty : RuleStore := ⟨[], 1⟩

/-- The arguments from which a rule is made. -/
structure RuleFields where
  processName : CStr
  targetHosts : CStr
  targetPorts : CStr
  protocol : RuleProtocol
  action : RuleAction
  deriving DecidableEq, Repr

/-- How the allocations of a call go. -/
inductive Allocation where
  | succeeds
  /-- The allocation of the rule itself fails. -/
  | ruleFails
  /-- The allocation of one of its texts fails. -/
  | textFails
  deriving DecidableEq, Repr

/-- `strncpy_s` into `process_name`. -/
def truncateName (name : CStr) : CStr := name.take 255

def orEverything (text : CStr) : CStr := if text = [] then ['*'] else text

/-- The first rule with an id, changed. -/
def updateRule (ruleId : BitVec 32) (f : Rule → Rule) : List Rule → List Rule
  | [] => []
  | rule :: rules =>
    if rule.ruleId = ruleId then f rule :: rules else rule :: updateRule ruleId f rules

/-- A node put behind the one that is `walk` steps from the head, or behind the last. -/
def insertBehind {α : Type} (node : α) : ℕ → List α → List α
  | _, [] => [node]
  | 0, current :: rest => current :: node :: rest
  | walk + 1, current :: rest => current :: insertBehind node walk rest

theorem insertBehind_eq {α : Type} (node : α) (walk : ℕ) (nodes : List α) :
    insertBehind node walk nodes = nodes.take (walk + 1) ++ node :: nodes.drop (walk + 1) := by
  induction nodes generalizing walk with
  | nil => simp [insertBehind]
  | cons current rest ih =>
    cases walk with
    | zero => rfl
    | succ walk => simp only [insertBehind, ih, List.take_succ_cons, List.drop_succ_cons,
        List.cons_append]

theorem map_updateRule {β : Type} (g : Rule → β) {f : Rule → Rule}
    (hf : ∀ rule, g (f rule) = g rule)
    (ruleId : BitVec 32) (rules : List Rule) :
    (updateRule ruleId f rules).map g = rules.map g := by
  induction rules with
  | nil => rfl
  | cons rule rules ih =>
    unfold updateRule
    split
    · rw [List.map_cons, List.map_cons, hf]
    · rw [List.map_cons, List.map_cons, ih]

/-- Where an id stands once, changing the first rule with it changes all rules with it. -/
theorem updateRule_eq_map {ruleId : BitVec 32} {rules : List Rule} (f : Rule → Rule)
    (h : (rules.map fun rule => rule.ruleId).Nodup) :
    updateRule ruleId f rules =
      rules.map fun rule => if rule.ruleId = ruleId then f rule else rule := by
  induction rules with
  | nil => rfl
  | cons rule rules ih =>
    obtain ⟨hnot, hrest⟩ := List.nodup_cons.mp h
    unfold updateRule
    rw [List.map_cons]
    split_ifs with hid
    · rw [Rows.map_of_name_not_mem (hid ▸ hnot)]
    · rw [ih hrest]

/-- The rule that is made of the arguments. -/
def RuleFields.rule (fields : RuleFields) (ruleId : BitVec 32) : Rule :=
  ⟨ruleId, truncateName fields.processName, orEverything fields.targetHosts,
    orEverything fields.targetPorts, fields.protocol, fields.action, true⟩

@[simp] theorem RuleFields.rule_ruleId (fields : RuleFields) (ruleId : BitVec 32) :
    (fields.rule ruleId).ruleId = ruleId := rfl

@[simp] theorem RuleFields.rule_enabled (fields : RuleFields) (ruleId : BitVec 32) :
    (fields.rule ruleId).enabled = true := rfl

namespace RuleStore

/-- `ProxyTun_AddRule`: the id of the new rule or 0. An id is used up as soon as the rule is
allocated. -/
def addRule (allocation : Allocation) (fields : RuleFields) (s : RuleStore) :
    BitVec 32 × RuleStore :=
  if fields.processName = [] then (0, s)
  else
    match allocation with
    | .ruleFails => (0, s)
    | .textFails => (0, { s with nextRuleId := s.nextRuleId + 1 })
    | .succeeds =>
      (s.nextRuleId,
        { rules := fields.rule s.nextRuleId :: s.rules
          nextRuleId := s.nextRuleId + 1 })

/-- A rule with the id is in the list, and the id is not 0. -/
def finds (s : RuleStore) (ruleId : BitVec 32) : Bool :=
  ruleId ≠ 0 && s.rules.any fun rule => rule.ruleId = ruleId

def update (ruleId : BitVec 32) (f : Rule → Rule) (s : RuleStore) : RuleStore :=
  { s with rules := updateRule ruleId f s.rules }

/-- `ProxyTun_EnableRule` and `ProxyTun_DisableRule`. -/
def setEnabled (enabled : Bool) (ruleId : BitVec 32) (s : RuleStore) : Bool × RuleStore :=
  if s.finds ruleId then (true, s.update ruleId fun rule => { rule with enabled := enabled })
  else (false, s)

def enableRule : BitVec 32 → RuleStore → Bool × RuleStore := setEnabled true

def disableRule : BitVec 32 → RuleStore → Bool × RuleStore := setEnabled false

def deleteRule (ruleId : BitVec 32) (s : RuleStore) : Bool × RuleStore :=
  if s.finds ruleId then
    (true, { s with rules := s.rules.eraseP fun rule => rule.ruleId = ruleId })
  else (false, s)

/-- What `ProxyTun_EditRule` writes into a rule. The name is written first. If a copy of a text
fails the source leaves texts that are null, which a rule here cannot have: they keep their
values. -/
def edited (copied : Bool) (fields : RuleFields) (rule : Rule) : Rule :=
  if copied then
    { rule with
      processName := truncateName fields.processName
      targetHosts := fields.targetHosts
      targetPorts := fields.targetPorts
      protocol := fields.protocol
      action := fields.action }
  else { rule with processName := truncateName fields.processName }

def editRule (copied : Bool) (ruleId : BitVec 32) (fields : RuleFields) (s : RuleStore) :
    Bool × RuleStore :=
  if s.finds ruleId then (copied, s.update ruleId (edited copied fields)) else (false, s)

/-- `ProxyTun_MoveRuleToPosition`, counted from 1. The only rule cannot be moved away from the
head, the source then dereferences a null pointer. -/
def moveRuleToPosition (ruleId : BitVec 32) (newPosition : ℕ) (s : RuleStore) :
    Option (Bool × RuleStore) :=
  if newPosition = 0 || ruleId = 0 then some (false, s)
  else
    match s.rules.find? fun rule => rule.ruleId = ruleId with
    | none => some (false, s)
    | some rule =>
      let rest := s.rules.eraseP fun rule => rule.ruleId = ruleId
      if newPosition = 1 then some (true, { s with rules := rule :: rest })
      else if rest = [] then none
      else some (true, { s with rules := insertBehind rule (newPosition - 2) rest })

/-- The ids of the rules in the order of their evaluation. -/
def ids (s : RuleStore) : List (BitVec 32) := s.rules.map fun rule => rule.ruleId

variable {s : RuleStore} {ruleId : BitVec 32}

theorem finds_iff : s.finds ruleId = true ↔ ruleId ≠ 0 ∧ ruleId ∈ s.ids := by
  simp [finds, ids]

@[simp] theorem ids_update {f : Rule → Rule} (hf : ∀ rule, (f rule).ruleId = rule.ruleId) :
    (s.update ruleId f).ids = s.ids :=
  map_updateRule _ hf ruleId s.rules

@[simp] theorem ids_setEnabled (enabled : Bool) : (s.setEnabled enabled ruleId).2.ids = s.ids := by
  unfold setEnabled
  split
  · exact ids_update fun _ => rfl
  · rfl

@[simp] theorem nextRuleId_setEnabled (enabled : Bool) :
    (s.setEnabled enabled ruleId).2.nextRuleId = s.nextRuleId := by
  unfold setEnabled
  split <;> rfl

theorem edited_ruleId (copied : Bool) (fields : RuleFields) (rule : Rule) :
    (edited copied fields rule).ruleId = rule.ruleId := by
  cases copied <;> rfl

@[simp] theorem ids_editRule (copied : Bool) (fields : RuleFields) :
    (s.editRule copied ruleId fields).2.ids = s.ids := by
  unfold editRule
  split
  · exact ids_update (edited_ruleId copied fields)
  · rfl

@[simp] theorem nextRuleId_editRule (copied : Bool) (fields : RuleFields) :
    (s.editRule copied ruleId fields).2.nextRuleId = s.nextRuleId := by
  unfold editRule
  split <;> rfl

theorem editRule_succeeds {copied : Bool} {fields : RuleFields}
    (h : (s.editRule copied ruleId fields).1 = true) : copied = true ∧ s.finds ruleId = true := by
  unfold editRule at h
  split_ifs at h with hfinds
  exact ⟨h, hfinds⟩

theorem ids_eraseP (rules : List Rule) :
    (rules.eraseP fun rule => rule.ruleId = ruleId).map (fun rule => rule.ruleId) =
      (rules.map fun rule => rule.ruleId).erase ruleId := by
  induction rules with
  | nil => rfl
  | cons rule rules ih =>
    by_cases h : rule.ruleId = ruleId
    · simp [h]
    · simp [h, ih]

theorem ids_deleteRule (h : s.finds ruleId = true) :
    (s.deleteRule ruleId).1 = true ∧ (s.deleteRule ruleId).2.ids = s.ids.erase ruleId := by
  unfold deleteRule
  rw [if_pos h]
  exact ⟨rfl, ids_eraseP s.rules⟩

theorem deleteRule_of_not_finds (h : s.finds ruleId = false) :
    s.deleteRule ruleId = (false, s) := by
  simp [deleteRule, h]

theorem perm_cons_eraseP {p : Rule → Bool} {rules : List Rule} {rule : Rule}
    (h : rules.find? p = some rule) : (rule :: rules.eraseP p).Perm rules := by
  obtain ⟨hrule, before, behind, rfl, hbefore⟩ := List.find?_eq_some_iff_append.mp h
  rw [List.eraseP_append_right _ (by simpa using hbefore), List.eraseP_cons_of_pos hrule]
  exact List.perm_middle.symm

theorem finds_of_deleteRule (h : (s.deleteRule ruleId).1 = true) : s.finds ruleId = true := by
  by_contra hnot
  rw [deleteRule_of_not_finds (by simpa using hnot)] at h
  cases h

theorem deleteRule_of_fails (h : (s.deleteRule ruleId).1 = false) :
    s.deleteRule ruleId = (false, s) := by
  apply deleteRule_of_not_finds
  apply Bool.eq_false_iff.mpr
  intro hfinds
  rw [(ids_deleteRule hfinds).1] at h
  cases h

/-- A rule that is moved stands behind `newPosition - 1` of the others, or at the end. -/
theorem moveRuleToPosition_cases {newPosition : ℕ} {ok : Bool} {t : RuleStore}
    (h : s.moveRuleToPosition ruleId newPosition = some (ok, t)) :
    ok = false ∧ t = s ∧ (newPosition = 0 ∨ s.finds ruleId = false) ∨
      ok = true ∧ 0 < newPosition ∧ s.finds ruleId = true ∧ t.nextRuleId = s.nextRuleId ∧
        ∃ rule, rule.ruleId = ruleId ∧
          (rule :: s.rules.eraseP fun rule => rule.ruleId = ruleId).Perm s.rules ∧
          t.rules = (s.rules.eraseP fun rule => rule.ruleId = ruleId).take (newPosition - 1) ++
            rule :: (s.rules.eraseP fun rule => rule.ruleId = ruleId).drop (newPosition - 1) := by
  unfold moveRuleToPosition at h
  by_cases hzero : (newPosition = 0 || ruleId = 0) = true
  · rw [if_pos hzero] at h
    obtain ⟨rfl, rfl⟩ := Prod.mk.inj (Option.some.inj h)
    refine .inl ⟨rfl, rfl, ?_⟩
    simp only [Bool.or_eq_true, decide_eq_true_eq] at hzero
    exact hzero.imp_right fun hid => by simp [finds, hid]
  · rw [if_neg hzero] at h
    simp only [Bool.or_eq_true, decide_eq_true_eq, not_or] at hzero
    split at h
    · rename_i hfind
      obtain ⟨rfl, rfl⟩ := Prod.mk.inj (Option.some.inj h)
      exact .inl ⟨rfl, rfl, .inr (by simpa [finds] using fun _ => List.find?_eq_none.mp hfind)⟩
    · rename_i rule hfind
      have hrule : rule.ruleId = ruleId := by simpa using List.find?_some hfind
      have hmem := List.mem_of_find?_eq_some hfind
      have hperm := perm_cons_eraseP hfind
      have hfinds : s.finds ruleId = true :=
        finds_iff.mpr ⟨hzero.2, List.mem_map.mpr ⟨rule, hmem, hrule⟩⟩
      refine .inr ?_
      dsimp only at h
      split_ifs at h with hhead hrest
      · obtain ⟨rfl, rfl⟩ := Prod.mk.inj (Option.some.inj h)
        exact ⟨rfl, by omega, hfinds, rfl, rule, hrule, hperm, by simp [hhead]⟩
      · obtain ⟨rfl, rfl⟩ := Prod.mk.inj (Option.some.inj h)
        refine ⟨rfl, by omega, hfinds, rfl, rule, hrule, hperm, ?_⟩
        dsimp only
        rw [insertBehind_eq]
        have hwalk : newPosition - 2 + 1 = newPosition - 1 := by omega
        rw [hwalk]

theorem ids_moved {newPosition : ℕ} {rule : Rule} (hrule : rule.ruleId = ruleId) {t : RuleStore}
    (h : t.rules = (s.rules.eraseP fun rule => rule.ruleId = ruleId).take newPosition ++
      rule :: (s.rules.eraseP fun rule => rule.ruleId = ruleId).drop newPosition) :
    t.ids = (s.ids.erase ruleId).take newPosition ++
      ruleId :: (s.ids.erase ruleId).drop newPosition := by
  rw [ids, h, List.map_append, List.map_cons, List.map_take, List.map_drop, ids_eraseP, hrule, ids]

def taken (allocation : Allocation) (fields : RuleFields) : Bool :=
  allocation = .succeeds && fields.processName ≠ []

theorem addRule_of_taken {allocation : Allocation} {fields : RuleFields}
    (h : taken allocation fields = true) :
    (s.addRule allocation fields).1 = s.nextRuleId ∧
      (s.addRule allocation fields).2.ids = s.nextRuleId :: s.ids ∧
      (s.addRule allocation fields).2.nextRuleId = s.nextRuleId + 1 := by
  simp only [taken, Bool.and_eq_true, decide_eq_true_eq] at h
  obtain ⟨rfl, hname⟩ := h
  simp [addRule, hname, ids]

theorem addRule_succeeds {allocation : Allocation} {fields : RuleFields}
    (h : (s.addRule allocation fields).1 ≠ 0) :
    (s.addRule allocation fields).1 = s.nextRuleId ∧
      (s.addRule allocation fields).2.rules = fields.rule s.nextRuleId :: s.rules := by
  unfold addRule at h ⊢
  split_ifs at h ⊢ with hname
  · exact absurd rfl h
  · cases allocation with
    | succeeds => exact ⟨rfl, rfl⟩
    | ruleFails => exact absurd rfl h
    | textFails => exact absurd rfl h

theorem addRule_of_not_taken {allocation : Allocation} {fields : RuleFields}
    (h : taken allocation fields = false) :
    (s.addRule allocation fields).1 = 0 ∧ (s.addRule allocation fields).2.rules = s.rules ∧
      ((s.addRule allocation fields).2.nextRuleId = s.nextRuleId ∨
        (s.addRule allocation fields).2.nextRuleId = s.nextRuleId + 1) := by
  unfold addRule
  by_cases hname : fields.processName = []
  · simp [hname]
  · cases allocation with
    | succeeds => simp [taken, hname] at h
    | ruleFails => simp [hname]
    | textFails => simp [hname]

/-- As long as there are ids left, the rules that get one are those that are taken. -/
theorem addRule_ne_zero_iff {allocation : Allocation} {fields : RuleFields}
    (hnext : s.nextRuleId ≠ 0) :
    (s.addRule allocation fields).1 ≠ 0 ↔ taken allocation fields = true := by
  cases htaken : taken allocation fields with
  | true =>
    rw [(addRule_of_taken htaken).1]
    exact iff_of_true hnext rfl
  | false => simp [(addRule_of_not_taken htaken).1]

theorem disableRule_head {rule : Rule} {rules : List Rule} (hstore : s.rules = rule :: rules)
    (hid : rule.ruleId ≠ 0) :
    (s.disableRule rule.ruleId).2 =
      { s with rules := { rule with enabled := false } :: rules } := by
  have hfinds : s.finds rule.ruleId = true := by simpa [finds, hstore] using hid
  rw [disableRule, setEnabled, if_pos hfinds, update, hstore, updateRule, if_pos rfl]

/-- The ids in the list are distinct and were given out, none of them is 0. -/
structure Valid (s : RuleStore) : Prop where
  nodup : s.ids.Nodup
  issued : ∀ id ∈ s.ids, id ≠ 0 ∧ (s.nextRuleId = 0 ∨ id < s.nextRuleId)

theorem Valid.finds_of_mem (h : s.Valid) (hmem : ruleId ∈ s.ids) : s.finds ruleId = true :=
  finds_iff.mpr ⟨(h.issued _ hmem).1, hmem⟩

theorem valid_empty : RuleStore.empty.Valid := ⟨List.nodup_nil, fun _ h => by cases h⟩

theorem issued_succ {next id : BitVec 32} (hnext : next ≠ 0) (h : next = 0 ∨ id < next) :
    next + 1 = 0 ∨ id < next + 1 := by
  bv_omega

variable {t : RuleStore}

theorem Valid.of_perm (h : s.Valid) (hids : t.ids.Perm s.ids)
    (hnext : t.nextRuleId = s.nextRuleId) : t.Valid := by
  refine ⟨hids.nodup_iff.mpr h.nodup, fun id hid => ?_⟩
  rw [hnext]
  exact h.issued id (hids.mem_iff.mp hid)

theorem Valid.fresh (h : s.Valid) (hnext : s.nextRuleId ≠ 0) : s.nextRuleId ∉ s.ids := by
  intro hmem
  obtain ⟨-, hzero | hlt⟩ := h.issued _ hmem
  · exact hnext hzero
  · exact absurd hlt (by bv_omega)

/-- As long as the ids do not run out, `ProxyTun_AddRule` gives out new ones. -/
theorem Valid.addRule (h : s.Valid) (hnext : s.nextRuleId ≠ 0) (allocation : Allocation)
    (fields : RuleFields) : (s.addRule allocation fields).2.Valid := by
  cases htaken : taken allocation fields with
  | true =>
    obtain ⟨-, hids, hsucc⟩ := addRule_of_taken (s := s) htaken
    refine ⟨?_, fun id hid => ?_⟩
    · rw [hids]
      exact List.nodup_cons.mpr ⟨h.fresh hnext, h.nodup⟩
    · rw [hsucc]
      rw [hids] at hid
      rcases List.mem_cons.mp hid with rfl | hid
      · exact ⟨hnext, by bv_omega⟩
      · obtain ⟨hne, hissued⟩ := h.issued id hid
        exact ⟨hne, issued_succ hnext hissued⟩
  | false =>
    obtain ⟨-, hrules, hsame | hsucc⟩ := addRule_of_not_taken (s := s) htaken
    · refine h.of_perm ?_ hsame
      rw [ids, hrules, ids]
    · have hids : (s.addRule allocation fields).2.ids = s.ids := by rw [ids, hrules, ids]
      refine ⟨hids ▸ h.nodup, fun id hid => ?_⟩
      rw [hids] at hid
      rw [hsucc]
      obtain ⟨hne, hissued⟩ := h.issued id hid
      exact ⟨hne, issued_succ hnext hissued⟩

theorem Valid.deleteRule (h : s.Valid) (ruleId : BitVec 32) : (s.deleteRule ruleId).2.Valid := by
  cases hfinds : s.finds ruleId with
  | true =>
    obtain ⟨-, hids⟩ := ids_deleteRule hfinds
    have hnext : (s.deleteRule ruleId).2.nextRuleId = s.nextRuleId := by
      simp [RuleStore.deleteRule, hfinds]
    refine ⟨hids ▸ h.nodup.erase _, fun id hid => ?_⟩
    rw [hids] at hid
    rw [hnext]
    exact h.issued id (List.mem_of_mem_erase hid)
  | false => rwa [deleteRule_of_not_finds hfinds]

theorem perm_moved {newPosition : ℕ} {rule : Rule}
    (hperm : (rule :: s.rules.eraseP fun rule => rule.ruleId = ruleId).Perm s.rules)
    (h : t.rules = (s.rules.eraseP fun rule => rule.ruleId = ruleId).take newPosition ++
      rule :: (s.rules.eraseP fun rule => rule.ruleId = ruleId).drop newPosition) :
    t.rules.Perm s.rules := by
  rw [h]
  refine List.perm_middle.trans ?_
  rwa [List.take_append_drop]

def flags (s : RuleStore) : List (BitVec 32 × Bool) :=
  s.rules.map fun rule => (rule.ruleId, rule.enabled)

/-- A rule with the id is switched on. -/
def enables (s : RuleStore) (ruleId : BitVec 32) : Bool :=
  s.rules.any fun rule => rule.ruleId = ruleId && rule.enabled

theorem map_fst_flags : s.flags.map Prod.fst = s.ids := by
  rw [flags, ids, List.map_map]
  rfl

theorem enables_iff : s.enables ruleId = true ↔ (ruleId, true) ∈ s.flags := by
  simp [enables, flags]

theorem Valid.enables_eq (h : s.Valid) {enabled : Bool} (hmem : (ruleId, enabled) ∈ s.flags) :
    s.enables ruleId = enabled := by
  have hdistinct : (s.flags.map Prod.fst).Nodup := map_fst_flags ▸ h.nodup
  cases enabled with
  | true => exact enables_iff.mpr hmem
  | false =>
    apply Bool.eq_false_iff.mpr
    intro hon
    cases Mirrors.value_eq hdistinct hmem (enables_iff.mp hon)

theorem flags_addRule_of_taken {allocation : Allocation} {fields : RuleFields}
    (h : taken allocation fields = true) :
    (s.addRule allocation fields).2.flags = (s.nextRuleId, true) :: s.flags := by
  simp only [taken, Bool.and_eq_true, decide_eq_true_eq] at h
  obtain ⟨rfl, hname⟩ := h
  simp [RuleStore.addRule, hname, flags]

theorem flags_editRule (copied : Bool) (fields : RuleFields) :
    (s.editRule copied ruleId fields).2.flags = s.flags := by
  unfold editRule
  split
  · apply map_updateRule
    intro rule
    cases copied <;> rfl
  · rfl

theorem flags_deleteRule (h : s.finds ruleId = true) :
    (s.deleteRule ruleId).2.flags = s.flags.eraseP fun e => e.1 = ruleId := by
  unfold RuleStore.deleteRule flags
  rw [if_pos h, List.eraseP_map]
  rfl

theorem mem_flags_updateRule {rules : List Rule} {enabled : Bool}
    (h : ruleId ∈ rules.map fun rule => rule.ruleId) :
    (ruleId, enabled) ∈ (updateRule ruleId (fun rule => { rule with enabled := enabled }) rules).map
        (fun rule => (rule.ruleId, rule.enabled)) ∧
      ∀ e ∈ rules.map (fun rule => (rule.ruleId, rule.enabled)), e.1 ≠ ruleId →
        e ∈ (updateRule ruleId (fun rule => { rule with enabled := enabled }) rules).map
          fun rule => (rule.ruleId, rule.enabled) := by
  induction rules with
  | nil => cases h
  | cons rule rules ih =>
    unfold updateRule
    by_cases hid : rule.ruleId = ruleId
    · rw [if_pos hid]
      refine ⟨by simp [hid], fun e he hne => ?_⟩
      rcases List.mem_cons.mp he with rfl | he
      · exact absurd hid hne
      · exact List.mem_cons_of_mem _ he
    · rw [if_neg hid]
      have hrest : ruleId ∈ rules.map fun rule => rule.ruleId :=
        (List.mem_cons.mp h).resolve_left (Ne.symm hid)
      refine ⟨List.mem_cons_of_mem _ (ih hrest).1, fun e he hne => ?_⟩
      rcases List.mem_cons.mp he with rfl | he
      · exact List.mem_cons_self
      · exact List.mem_cons_of_mem _ ((ih hrest).2 e he hne)

theorem mem_flags_setEnabled (h : s.finds ruleId = true) (enabled : Bool) :
    (ruleId, enabled) ∈ (s.setEnabled enabled ruleId).2.flags ∧
      ∀ e ∈ s.flags, e.1 ≠ ruleId → e ∈ (s.setEnabled enabled ruleId).2.flags := by
  rw [setEnabled, if_pos h]
  exact mem_flags_updateRule (finds_iff.mp h).2

end RuleStore
end ProxyTun.Windows

/-! The operations of the Linux engine do the same, but `ProxyBridge_EditRule` copies the texts
before it touches the rule, and `ProxyBridge_Stop` forgets all rules and starts the ids again. There
is no operation that moves a rule. -/

namespace ProxyTun.Linux
open Windows (RuleStore RuleFields Allocation)

/-- `ProxyBridge_AddRule`. -/
def addRule : Allocation → RuleFields → RuleStore → BitVec 32 × RuleStore := RuleStore.addRule

def enableRule : BitVec 32 → RuleStore → Bool × RuleStore := RuleStore.enableRule

def disableRule : BitVec 32 → RuleStore → Bool × RuleStore := RuleStore.disableRule

def deleteRule : BitVec 32 → RuleStore → Bool × RuleStore := RuleStore.deleteRule

/-- `ProxyBridge_EditRule`, which leaves the rule alone if a copy of a text fails. -/
def editRule (copied : Bool) (ruleId : BitVec 32) (fields : RuleFields) (s : RuleStore) :
    Bool × RuleStore :=
  if !copied then (false, s)
  else if s.finds ruleId then (true, s.update ruleId (RuleStore.edited true fields))
  else (false, s)

/-- `ProxyBridge_Stop`, which does nothing unless the engine is running. -/
def stop (running : Bool) (s : RuleStore) : Bool × RuleStore :=
  if running then (true, ⟨[], 1⟩) else (false, s)

end ProxyTun.Linux
