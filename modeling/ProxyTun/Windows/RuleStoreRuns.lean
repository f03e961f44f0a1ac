import ProxyTun.Library.Transition
import ProxyTun.Windows.MoveRule

/-!
# Runs of the Windows rule store

Calls with any arguments, whose allocations succeed. An id that is given out names one rule for
as long as the engine is loaded, and each call does to the list of rules what its name says.
-/
namespace ProxyTun.Windows
open Library.Transition

/-- The position of the first rule with an id, counted from a position on in 32 bits. -/
def positionFrom (ruleId : BitVec 32) : BitVec 32 → List Rule → BitVec 32
  | _, [] => 0
  | position, rule :: rules =>
    if rule.ruleId = ruleId then position else positionFrom ruleId (position + 1) rules

/-- `ProxyTun_GetRulePosition`. -/
def RuleStore.getRulePosition (ruleId : BitVec 32) (s : RuleStore) : BitVec 32 :=
  if ruleId = 0 then 0 else positionFrom ruleId 1 s.rules

/-- A call that changes the rules. -/
inductive StoreCall where
  | addRule (fields : RuleFields)
  | editRule (ruleId : BitVec 32) (fields : RuleFields)
  | enableRule (ruleId : BitVec 32)
  | disableRule (ruleId : BitVec 32)
  | deleteRule (ruleId : BitVec 32)
  | moveRuleToPosition (ruleId newPosition : BitVec 32)
  deriving DecidableEq, Repr

def StoreCall.isAdd : StoreCall → Bool
  | .addRule _ => true
  | _ => false

/-- The call moves the only rule away from the head. -/
def StoreCall.MovesOnlyRule (s : RuleStore) : StoreCall → Prop
  | .moveRuleToPosition ruleId newPosition => s.ids = [ruleId] ∧ 1 < newPosition.toNat
  | _ => False

instance decidableMovesOnlyRule (s : RuleStore) :
    ∀ call : StoreCall, Decidable (call.MovesOnlyRule s)
  | .moveRuleToPosition ruleId newPosition =>
    inferInstanceAs (Decidable (s.ids = [ruleId] ∧ 1 < newPosition.toNat))
  | .addRule _ | .editRule _ _ | .enableRule _ | .disableRule _ | .deleteRule _ => .isFalse id

def boolResult (r : Bool × RuleStore) : BitVec 32 × RuleStore := (if r.1 then 1 else 0, r.2)

theorem true_ne_zero : (1 : BitVec 32) ≠ 0 := by decide

@[simp] theorem boolResult_true (s : RuleStore) : boolResult (true, s) = (1, s) := rfl

@[simp] theorem boolResult_false (s : RuleStore) : boolResult (false, s) = (0, s) := rfl

/-- What a call returns and leaves behind. -/
def RuleStore.perform (s : RuleStore) : StoreCall → Option (BitVec 32 × RuleStore)
  | .addRule fields => some (s.addRule .succeeds fields)
  | .editRule ruleId fields => some (boolResult (s.editRule true ruleId fields))
  | .enableRule ruleId => some (boolResult (s.enableRule ruleId))
  | .disableRule ruleId => some (boolResult (s.disableRule ruleId))
  | .deleteRule ruleId => some (boolResult (s.deleteRule ruleId))
  | .moveRuleToPosition ruleId newPosition =>
    (s.moveRuleToPosition ruleId newPosition.toNat).map boolResult

def RuleStore.stepCall (s : RuleStore) (call : StoreCall) : Option RuleStore :=
  (s.perform call).map Prod.snd

/-- The ids that the calls of a run give out, in order. -/
def issuedIds : RuleStore → List StoreCall → List (BitVec 32)
  | _, [] => []
  | s, call :: calls =>
    match s.perform call with
    | none => []
    | some (id, t) => if call.isAdd && id ≠ 0 then id :: issuedIds t calls else issuedIds t calls

/-- The call has no process name, names no rule of the list, or moves a rule to position 0. -/
def StoreCall.Rejected (s : RuleStore) : StoreCall → Prop
  | .addRule fields => fields.processName = []
  | .editRule ruleId _ => ruleId ∉ s.ids
  | .enableRule ruleId => ruleId ∉ s.ids
  | .disableRule ruleId => ruleId ∉ s.ids
  | .deleteRule ruleId => ruleId ∉ s.ids
  | .moveRuleToPosition ruleId newPosition => ruleId ∉ s.ids ∨ newPosition = 0

/-- What a call that is not rejected makes of the list of rules. -/
def StoreCall.Changes (s : RuleStore) (r : BitVec 32) (t : RuleStore) : StoreCall → Prop
  | .addRule fields => r = s.nextRuleId ∧ r ∉ s.ids ∧ t.rules = fields.rule r :: s.rules
  | .editRule ruleId fields => t.rules = s.rules.map fun rule =>
      if rule.ruleId = ruleId then RuleStore.edited true fields rule else rule
  | .enableRule ruleId => t.rules = s.rules.map fun rule =>
      if rule.ruleId = ruleId then { rule with enabled := true } else rule
  | .disableRule ruleId => t.rules = s.rules.map fun rule =>
      if rule.ruleId = ruleId then { rule with enabled := false } else rule
  | .deleteRule ruleId => t.rules = s.rules.filter fun rule => rule.ruleId ≠ ruleId
  | .moveRuleToPosition ruleId newPosition =>
    t.rules.Perm s.rules ∧
      (t.rules.filter fun rule => rule.ruleId ≠ ruleId) =
        (s.rules.filter fun rule => rule.ruleId ≠ ruleId) ∧
      t.ids[min newPosition.toNat s.ids.length - 1]? = some ruleId

/-- A call that is rejected returns 0 and changes nothing, any other does its work. -/
def StoreCall.Effect (s : RuleStore) (call : StoreCall) (r : BitVec 32) (t : RuleStore) : Prop :=
  call.Rejected s ∧ r = 0 ∧ t = s ∨ ¬ call.Rejected s ∧ r ≠ 0 ∧ call.Changes s r t

variable {s t : RuleStore} {ruleId : BitVec 32}

/-- Where no position wraps round, the search finds the place of the id. -/
theorem positionFrom_eq_iff {rules : List Rule} {k p : BitVec 32} (hp : p ≠ 0)
    (hnodup : (rules.map fun rule => rule.ruleId).Nodup)
    (hfits : k.toNat + rules.length < 2 ^ 32) :
    positionFrom ruleId k rules = p ↔
      ∃ i, p.toNat = k.toNat + i ∧
        (rules.map fun rule => rule.ruleId)[i]? = some ruleId := by
  induction rules generalizing k with
  | nil =>
    constructor
    · intro h
      exact absurd h.symm hp
    · rintro ⟨i, -, hi⟩
      simp at hi
  | cons rule rules ih =>
    obtain ⟨hnot, hrest⟩ := List.nodup_cons.mp hnodup
    rw [List.length_cons] at hfits
    rw [positionFrom, List.map_cons]
    split_ifs with hid
    · constructor
      · rintro rfl
        exact ⟨0, rfl, by rw [List.getElem?_cons_zero, hid]⟩
      · rintro ⟨i, hpi, hi⟩
        cases i with
        | zero => exact BitVec.eq_of_toNat_eq (by omega)
        | succ i =>
          rw [List.getElem?_cons_succ, ← hid] at hi
          exact absurd (List.mem_of_getElem? hi) hnot
    · have hnext : (k + 1).toNat = k.toNat + 1 := by
        rw [BitVec.toNat_add, Nat.mod_eq_of_lt]
        · rfl
        · have hone : (1 : BitVec 32).toNat = 1 := rfl
          omega
      rw [ih hrest (by omega), hnext]
      constructor
      · rintro ⟨i, hpi, hi⟩
        exact ⟨i + 1, by omega, by rwa [List.getElem?_cons_succ]⟩
      · rintro ⟨i, hpi, hi⟩
        cases i with
        | zero => exact absurd (by simpa using hi) hid
        | succ i => exact ⟨i, by omega, by rwa [List.getElem?_cons_succ] at hi⟩

/-- What holds of the store after a number of calls that add: the ids are distinct, not 0 and
below the next one, which has not wrapped round. -/
structure RuleStore.Sound (adds : ℕ) (s : RuleStore) : Prop where
  nodup : s.ids.Nodup
  issued : ∀ id ∈ s.ids, id ≠ 0 ∧ id < s.nextRuleId
  next_pos : 0 < s.nextRuleId.toNat
  next_le : s.nextRuleId.toNat ≤ adds + 1
  length_lt : s.ids.length < s.nextRuleId.toNat

theorem RuleStore.sound_empty : RuleStore.empty.Sound 0 :=
  ⟨List.nodup_nil, (fun _ h => by cases h), by decide, by decide, by decide⟩

theorem RuleStore.Sound.valid {adds : ℕ} (h : s.Sound adds) : s.Valid :=
  ⟨h.nodup, fun id hid => ⟨(h.issued id hid).1, .inr (h.issued id hid).2⟩⟩

theorem RuleStore.Sound.getRulePosition_eq_iff {adds : ℕ} (h : s.Sound adds) {p : BitVec 32}
    (hp : p ≠ 0) :
    s.getRulePosition ruleId = p ↔ s.ids[p.toNat - 1]? = some ruleId := by
  unfold getRulePosition
  split_ifs with hzero
  · refine iff_of_false (Ne.symm hp) ?_
    intro hid
    exact (h.issued ruleId (List.mem_of_getElem? hid)).1 hzero
  · have hone : (1 : BitVec 32).toNat = 1 := rfl
    have hlength : s.ids.length = s.rules.length := List.length_map ..
    have hppos : p.toNat ≠ 0 := fun hp0 => hp (BitVec.eq_of_toNat_eq hp0)
    have hlt := h.length_lt
    have hnext := s.nextRuleId.isLt
    rw [positionFrom_eq_iff hp h.nodup (by omega), hone]
    constructor
    · rintro ⟨i, hpi, hi⟩
      have hindex : p.toNat - 1 = i := by omega
      rwa [hindex]
    · intro hid
      exact ⟨p.toNat - 1, by omega, hid⟩

theorem RuleStore.Sound.finds_iff {adds : ℕ} (h : s.Sound adds) :
    s.finds ruleId = true ↔ ruleId ∈ s.ids := by
  rw [RuleStore.finds_iff]
  exact and_iff_right_of_imp fun hid => (h.issued ruleId hid).1

/-- A move fails to come back only from moving the only rule away from the head. -/
theorem moveRuleToPosition_isSome {newPosition : ℕ}
    (h : ¬ (s.ids = [ruleId] ∧ 1 < newPosition)) :
    ∃ r, s.moveRuleToPosition ruleId newPosition = some r := by
  apply Option.ne_none_iff_exists'.mp
  rw [Ne, RuleStore.moveRuleToPosition_eq_none_iff]
  exact fun hnone => h hnone.2

theorem addRule_cases (s : RuleStore) (fields : RuleFields) :
    fields.processName = [] ∧ s.addRule .succeeds fields = (0, s) ∨
      fields.processName ≠ [] ∧ s.addRule .succeeds fields =
        (s.nextRuleId, ⟨fields.rule s.nextRuleId :: s.rules, s.nextRuleId + 1⟩) := by
  by_cases hname : fields.processName = []
  · exact .inl ⟨hname, by simp [RuleStore.addRule, hname]⟩
  · exact .inr ⟨hname, by simp [RuleStore.addRule, hname]⟩

section effects
variable {adds : ℕ} (h : s.Sound adds)
include h

theorem addRule_effect (fields : RuleFields) :
    (StoreCall.addRule fields).Effect s (s.addRule .succeeds fields).1
      (s.addRule .succeeds fields).2 := by
  obtain ⟨hname, hadd⟩ | ⟨hname, hadd⟩ := addRule_cases s fields
  · rw [hadd]
    exact .inl ⟨hname, rfl, rfl⟩
  · have hnext : s.nextRuleId ≠ 0 := by
      intro hzero
      have hpos := h.next_pos
      rw [hzero] at hpos
      exact absurd hpos (by decide)
    rw [hadd]
    exact .inr ⟨hname, hnext, rfl, h.valid.fresh hnext, rfl⟩

theorem update_effect {call : StoreCall} {f : Rule → Rule} {r : Bool × RuleStore}
    (hr : r = if s.finds ruleId then (true, s.update ruleId f) else (false, s))
    (hrejected : call.Rejected s ↔ ruleId ∉ s.ids)
    (hchanges : ∀ t : RuleStore,
      (t.rules = s.rules.map fun rule => if rule.ruleId = ruleId then f rule else rule) →
        call.Changes s 1 t) :
    call.Effect s (boolResult r).1 (boolResult r).2 := by
  subst hr
  by_cases hid : ruleId ∈ s.ids
  · rw [if_pos (h.finds_iff.mpr hid), boolResult_true]
    refine .inr ⟨fun hno => hrejected.mp hno hid, true_ne_zero, hchanges _ ?_⟩
    exact updateRule_eq_map f h.nodup
  · rw [if_neg fun hfinds => hid (h.finds_iff.mp hfinds)]
    exact .inl ⟨hrejected.mpr hid, rfl, rfl⟩

theorem deleteRule_effect (ruleId : BitVec 32) :
    (StoreCall.deleteRule ruleId).Effect s (boolResult (s.deleteRule ruleId)).1
      (boolResult (s.deleteRule ruleId)).2 := by
  by_cases hid : ruleId ∈ s.ids
  · rw [RuleStore.deleteRule, if_pos (h.finds_iff.mpr hid), boolResult_true]
    exact .inr ⟨fun hno => hno hid, true_ne_zero, eraseP_eq_filter h.nodup⟩
  · rw [RuleStore.deleteRule, if_neg fun hfinds => hid (h.finds_iff.mp hfinds)]
    exact .inl ⟨hid, rfl, rfl⟩

theorem moveRuleToPosition_effect {newPosition : BitVec 32} {r : Bool × RuleStore}
    (hr : s.moveRuleToPosition ruleId newPosition.toNat = some r) :
    (StoreCall.moveRuleToPosition ruleId newPosition).Effect s (boolResult r).1
      (boolResult r).2 := by
  obtain ⟨ok, t⟩ := r
  cases ok with
  | false =>
    obtain ⟨-, rfl, hno⟩ | ⟨htrue, -⟩ := RuleStore.moveRuleToPosition_cases hr
    · refine .inl ⟨?_, rfl, rfl⟩
      rcases hno with hzero | hfinds
      · exact .inr (BitVec.eq_of_toNat_eq hzero)
      · left
        intro hid
        rw [h.finds_iff.mpr hid] at hfinds
        cases hfinds
    · cases htrue
  | true =>
    obtain ⟨hfinds, hpos, hmoved⟩ := RuleStore.movedTo_of_move h.nodup hr
    rw [boolResult_true]
    refine .inr ⟨?_, true_ne_zero, hmoved.same, hmoved.others, hmoved.placed⟩
    rintro (hnot | hzero)
    · exact hnot (h.finds_iff.mp hfinds)
    · rw [hzero] at hpos
      exact absurd hpos (by decide)

/-- Every call but one that moves the only rule away comes back and has its effect. -/
theorem perform_effect {call : StoreCall} (hmove : ¬ call.MovesOnlyRule s) :
    ∃ r t, s.perform call = some (r, t) ∧ call.Effect s r t := by
  cases call with
  | addRule fields => exact ⟨_, _, rfl, addRule_effect h fields⟩
  | editRule ruleId fields =>
    exact ⟨_, _, rfl, update_effect h rfl Iff.rfl fun _ ht => ht⟩
  | enableRule ruleId => exact ⟨_, _, rfl, update_effect h rfl Iff.rfl fun _ ht => ht⟩
  | disableRule ruleId => exact ⟨_, _, rfl, update_effect h rfl Iff.rfl fun _ ht => ht⟩
  | deleteRule ruleId => exact ⟨_, _, rfl, deleteRule_effect h ruleId⟩
  | moveRuleToPosition ruleId newPosition =>
    obtain ⟨r, hr⟩ := moveRuleToPosition_isSome hmove
    exact ⟨_, _, congrArg (Option.map boolResult) hr, moveRuleToPosition_effect h hr⟩

end effects

theorem RuleStore.Sound.of_subperm {adds : ℕ} (h : s.Sound adds) (hids : t.ids.Subperm s.ids)
    (hnext : t.nextRuleId = s.nextRuleId) : t.Sound adds := by
  obtain ⟨ids, hperm, hsub⟩ := hids
  constructor
  · exact hperm.nodup_iff.mp (hsub.nodup h.nodup)
  · intro id hid
    rw [hnext]
    exact h.issued id (hsub.subset (hperm.mem_iff.mpr hid))
  · exact hnext ▸ h.next_pos
  · exact hnext ▸ h.next_le
  · rw [hnext, ← hperm.length_eq]
    exact lt_of_le_of_lt hsub.length_le h.length_lt

theorem RuleStore.Sound.next_succ {adds : ℕ} (h : s.Sound adds) (hroom : adds + 1 < 2 ^ 32 - 1) :
    (s.nextRuleId + 1).toNat = s.nextRuleId.toNat + 1 := by
  have hle := h.next_le
  have hone : (1 : BitVec 32).toNat = 1 := rfl
  rw [BitVec.toNat_add, hone, Nat.mod_eq_of_lt (by omega)]

theorem RuleStore.Sound.addRule {adds : ℕ} (h : s.Sound adds) (hroom : adds + 1 < 2 ^ 32 - 1)
    (fields : RuleFields) : (s.addRule .succeeds fields).2.Sound (adds + 1) := by
  by_cases hname : fields.processName = []
  · simp only [RuleStore.addRule, hname, if_true]
    exact { h with next_le := h.next_le.trans (Nat.le_succ _) }
  · have htaken : RuleStore.taken .succeeds fields = true := by simp [RuleStore.taken, hname]
    obtain ⟨-, hids, hnext⟩ := RuleStore.addRule_of_taken (s := s) htaken
    have hle := h.next_le
    have hpos := h.next_pos
    have hlength := h.length_lt
    have hsucc := h.next_succ hroom
    have hvalid := h.valid.addRule (by rintro hzero; simp [hzero] at hpos) .succeeds fields
    constructor
    · exact hvalid.nodup
    · intro id hid
      obtain ⟨hne, hzero | hlt⟩ := hvalid.issued id hid
      · rw [hnext] at hzero
        rw [hzero] at hsucc
        cases hsucc
      · exact ⟨hne, hlt⟩
    · rw [hnext, hsucc]
      omega
    · rw [hnext, hsucc]
      omega
    · rw [hids, hnext, hsucc, List.length_cons]
      omega

/-- The calls that add, each of which may use up an id. -/
def countAdds (calls : List StoreCall) : ℕ := calls.countP StoreCall.isAdd

theorem perform_subperm {call : StoreCall} (hadd : call.isAdd = false) {r : BitVec 32}
    (hperform : s.perform call = some (r, t)) :
    t.ids.Subperm s.ids ∧ t.nextRuleId = s.nextRuleId := by
  cases call with
  | addRule fields => cases hadd
  | editRule ruleId fields =>
    obtain ⟨-, rfl⟩ := Prod.mk.inj (Option.some.inj hperform)
    exact ⟨(List.Perm.of_eq (RuleStore.ids_editRule true fields)).subperm,
      RuleStore.nextRuleId_editRule true fields⟩
  | enableRule ruleId =>
    obtain ⟨-, rfl⟩ := Prod.mk.inj (Option.some.inj hperform)
    exact ⟨(List.Perm.of_eq (RuleStore.ids_setEnabled true)).subperm,
      RuleStore.nextRuleId_setEnabled true⟩
  | disableRule ruleId =>
    obtain ⟨-, rfl⟩ := Prod.mk.inj (Option.some.inj hperform)
    exact ⟨(List.Perm.of_eq (RuleStore.ids_setEnabled false)).subperm,
      RuleStore.nextRuleId_setEnabled false⟩
  | deleteRule ruleId =>
    obtain ⟨-, rfl⟩ := Prod.mk.inj (Option.some.inj hperform)
    simp only [RuleStore.deleteRule]
    split_ifs
    · refine ⟨?_, rfl⟩
      rw [RuleStore.ids, RuleStore.ids_eraseP]
      exact List.erase_subperm _ _
    · exact ⟨List.Subperm.refl _, rfl⟩
  | moveRuleToPosition ruleId newPosition =>
    obtain ⟨⟨ok, u⟩, hmove, hresult⟩ := Option.map_eq_some_iff.mp hperform
    obtain ⟨-, rfl⟩ := Prod.mk.inj hresult
    obtain ⟨-, rfl, -⟩ | ⟨-, -, -, hnext, rule, -, hperm, hrules⟩ :=
      RuleStore.moveRuleToPosition_cases hmove
    · exact ⟨List.Subperm.refl _, rfl⟩
    · exact ⟨((RuleStore.perm_moved hperm hrules).map _).subperm, hnext⟩

theorem RuleStore.Sound.perform {adds : ℕ} {call : StoreCall} (h : s.Sound adds)
    (hroom : adds + countAdds [call] < 2 ^ 32 - 1) {r : BitVec 32}
    (hperform : s.perform call = some (r, t)) :
    t.Sound (adds + countAdds [call]) ∧ s.nextRuleId.toNat ≤ t.nextRuleId.toNat ∧
      (call.isAdd = true → r ≠ 0 → r = s.nextRuleId ∧ r.toNat < t.nextRuleId.toNat) := by
  cases hadd : call.isAdd with
  | true =>
    cases call with
    | addRule fields =>
      have hresult : s.addRule .succeeds fields = (r, t) := Option.some.inj hperform
      have ht : t = (s.addRule .succeeds fields).2 := by rw [hresult]
      refine ⟨ht ▸ h.addRule hroom fields, ?_⟩
      obtain ⟨-, hcase⟩ | ⟨-, hcase⟩ := addRule_cases s fields
      · obtain ⟨rfl, rfl⟩ := Prod.mk.inj (hresult.symm.trans hcase)
        exact ⟨le_rfl, fun _ hr => absurd rfl hr⟩
      · obtain ⟨rfl, rfl⟩ := Prod.mk.inj (hresult.symm.trans hcase)
        dsimp only
        rw [h.next_succ hroom]
        exact ⟨Nat.le_succ _, fun _ _ => ⟨rfl, Nat.lt_succ_self _⟩⟩
    | _ => cases hadd
  | false =>
    obtain ⟨hids, hnext⟩ := perform_subperm hadd hperform
    have hnone : countAdds [call] = 0 := by simp [countAdds, hadd]
    rw [hnone]
    exact ⟨h.of_subperm hids hnext, by rw [hnext], fun hno => by cases hno⟩

theorem countAdds_cons (call : StoreCall) (calls : List StoreCall) :
    countAdds (call :: calls) = countAdds [call] + countAdds calls := by
  simp only [countAdds, List.countP_cons, List.countP_nil]
  omega

/-- A run that never moves the only rule away comes to an end, in a sound store, and gives out
distinct ids that are not below the next one of its start. -/
theorem run_calls {calls : List StoreCall} {adds : ℕ} (h : s.Sound adds)
    (hroom : adds + countAdds calls < 2 ^ 32 - 1)
    (hmoves : Guarded RuleStore.stepCall (fun s call => ¬ call.MovesOnlyRule s) s calls) :
    ∃ t, run RuleStore.stepCall s calls = some t ∧ t.Sound (adds + countAdds calls) ∧
      (issuedIds s calls).Nodup ∧ ∀ id ∈ issuedIds s calls, s.nextRuleId.toNat ≤ id.toNat := by
  induction calls generalizing s adds with
  | nil => exact ⟨s, rfl, h, List.nodup_nil, fun id hid => by cases hid⟩
  | cons call calls ih =>
    rw [countAdds_cons] at hroom ⊢
    obtain ⟨r, u, hperform, -⟩ := perform_effect h hmoves.1
    obtain ⟨hu, hnext, hissued⟩ := h.perform (by omega) hperform
    have hstep : s.stepCall call = some u := by rw [RuleStore.stepCall, hperform, Option.map_some]
    obtain ⟨t, hrun, ht, hnodup, hlater⟩ := ih hu (by omega) (hmoves.2 u hstep)
    refine ⟨t, run_cons_eq_some.mpr ⟨u, hstep, hrun⟩, by rwa [← Nat.add_assoc], ?_⟩
    simp only [issuedIds, hperform]
    split_ifs with hid
    · simp only [Bool.and_eq_true, decide_eq_true_eq] at hid
      obtain ⟨hr, hlt⟩ := hissued hid.1 hid.2
      constructor
      · refine List.nodup_cons.mpr ⟨fun hmem => ?_, hnodup⟩
        have hle := hlater r hmem
        omega
      · intro id hmem
        rcases List.mem_cons.mp hmem with rfl | hmem
        · rw [hr]
        · exact hnext.trans (hlater id hmem)
    · exact ⟨hnodup, fun id hmem => hnext.trans (hlater id hmem)⟩

/-- After any calls the ids in the list are distinct, not 0 and below the next one, no id has
been given out twice, a position names the rule that stands there, and every further call does
what it should or is rejected and changes nothing. -/
theorem ruleStore_run {calls : List StoreCall} (hadds : countAdds calls < 2 ^ 32 - 1)
    (hmoves : Guarded RuleStore.stepCall (fun s call => ¬ call.MovesOnlyRule s) .empty calls) :
    ∃ s, run RuleStore.stepCall .empty calls = some s ∧
      s.ids.Nodup ∧ (∀ id ∈ s.ids, id ≠ 0 ∧ id < s.nextRuleId) ∧
      (issuedIds .empty calls).Nodup ∧
      (∀ ruleId p, p ≠ 0 →
        (s.getRulePosition ruleId = p ↔ s.ids[p.toNat - 1]? = some ruleId)) ∧
      ∀ call : StoreCall, ¬ call.MovesOnlyRule s →
        ∃ r t, s.perform call = some (r, t) ∧ call.Effect s r t := by
  obtain ⟨s, hrun, hs, hissued, -⟩ := run_calls RuleStore.sound_empty (by omega) hmoves
  exact ⟨s, hrun, hs.nodup, hs.issued, hissued, fun _ _ hp => hs.getRulePosition_eq_iff hp,
    fun _ hmove => perform_effect hs hmove⟩

/-- Three rules, of which the first is moved to the end and the second deleted. -/
def someCalls : List StoreCall :=
  let fields : RuleFields := ⟨"curl".toList, [], [], .both, .proxy⟩
  [.addRule fields, .addRule fields, .addRule fields, .moveRuleToPosition 3 9, .deleteRule 2]

theorem ruleStore_run_someCalls :
    ∃ s, run RuleStore.stepCall .empty someCalls = some s ∧ s.ids.Nodup := by
  have hmoves : Guarded RuleStore.stepCall (fun s call => ¬ call.MovesOnlyRule s) .empty
      someCalls := by decide
  obtain ⟨s, hrun, hnodup, -⟩ := ruleStore_run (by decide) hmoves
  exact ⟨s, hrun, hnodup⟩

end ProxyTun.Windows
