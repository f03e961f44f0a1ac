import ProxyTun.MacOS.RuleMessages

/-!
# Saving an edited rule on macOS

The editor of a rule has fields for its texts, protocol and action. A save sends an `updateRule`
message, which replaces the whole rule in the extension, and the flag that it carries is constant.
-/
namespace ProxyTun.MacOS
open Library.Simulation

/-- The parameters of an `updateRule` message. -/
structure UpdateRuleMessage where
  ruleId : BitVec 32
  processNames : CStr
  targetHosts : CStr
  targetPorts : CStr
  ruleProtocol : CStr
  ruleAction : CStr
  enabled : Bool
  deriving DecidableEq, Repr

/-- The dictionary that `RuleManager.updateRule` sends. -/
def UpdateRuleMessage.json (message : UpdateRuleMessage) : Message :=
  [("ruleId".toList, .number message.ruleId.toNat),
    ("processNames".toList, .string message.processNames),
    ("targetHosts".toList, .string message.targetHosts),
    ("targetPorts".toList, .string message.targetPorts),
    ("ruleProtocol".toList, .string message.ruleProtocol),
    ("ruleAction".toList, .string message.ruleAction),
    ("enabled".toList, .bool message.enabled),
    ("action".toList, .string "updateRule".toList)]

def UpdateRuleMessage.decode (message : UpdateRuleMessage) : Option ProxyRule :=
  AddRuleMessage.decode ⟨message.processNames, message.targetHosts, message.targetPorts,
    message.ruleProtocol, message.ruleAction, message.enabled⟩ message.ruleId.toNat

/-- The fields of `RuleEditorView` that an update sends. -/
structure RuleEditor where
  processNames : CStr
  targetHosts : CStr
  targetPorts : CStr
  selectedProtocol : CStr
  selectedAction : CStr
  deriving DecidableEq, Repr

def RuleEditor.updateExistingRule (editor : RuleEditor) (ruleId : BitVec 32) :
    UpdateRuleMessage where
  ruleId := ruleId
  processNames := editor.processNames
  targetHosts := editor.targetHosts
  targetPorts := editor.targetPorts
  ruleProtocol := editor.selectedProtocol
  ruleAction := editor.selectedAction
  enabled := true

/-- A save of the editor of the rule with an id, and the extension's answer to its message. -/
def RuleEditor.save (editor : RuleEditor) (reads : ValueReads) (ruleId : BitVec 32)
    (e : Extension) : Option (Option RuleReply × Extension) :=
  e.handleAppMessage reads (editor.updateExistingRule ruleId).json

/-- What Foundation reads of the numbers and truth values that the application wrote. -/
structure ValueReads.ReadsWritten (reads : ValueReads) : Prop where
  number : ∀ n : BitVec 32,
    reads.asUInt32 (.number n.toNat) = some n ∧ reads.decodeUInt32 (.number n.toNat) = some n
  truth : ∀ b : Bool, reads.decodeBool (.bool b) = some b

/-- The rule at a place keeps its id and its flag there, and the other rules stay as they are. -/
structure KeepsFlag (rules rules' : List ProxyRule) (i : ℕ) (rule : ProxyRule) : Prop where
  flag : ∃ rule', rules'[i]? = some rule' ∧ rule'.ruleId = rule.ruleId ∧
    rule'.enabled = rule.enabled
  others : ∀ j, j ≠ i → rules'[j]? = rules[j]?

variable {reads : ValueReads} {e e' : Extension} {adds : ℕ}

theorem request_json (hreads : reads.ReadsWritten) (message : UpdateRuleMessage) :
    message.json.request reads =
      .updateRule (message.decode.map fun rule => (message.ruleId, rule)) := by
  have hid : (message.json.lookup "ruleId".toList).bind reads.asUInt32 = some message.ruleId :=
    (hreads.number message.ruleId).1
  have hdecodeId : decodeIfPresent reads.decodeUInt32
      (message.json.lookup "ruleId".toList) = some (some message.ruleId) := by
    change (reads.decodeUInt32 (.number message.ruleId.toNat)).map some = _
    rw [(hreads.number message.ruleId).2, Option.map_some]
  have henabled : decodeIfPresent reads.decodeBool
      (message.json.lookup "enabled".toList) = some (some message.enabled) := by
    change (reads.decodeBool (.bool message.enabled)).map some = _
    rw [hreads.truth, Option.map_some]
  have hdecode : ProxyRule.decode reads message.json = message.decode := by
    rw [ProxyRule.decode, hdecodeId, henabled]
    rfl
  change RuleRequest.updateRule (((message.json.lookup "ruleId".toList).bind
    reads.asUInt32).bind fun id => (ProxyRule.decode reads message.json).map fun rule =>
      (id, rule)) = _
  rw [hid, hdecode, Option.bind_some]

theorem UpdateRuleMessage.of_decode {message : UpdateRuleMessage} {rule : ProxyRule}
    (h : message.decode = some rule) :
    rule.ruleId = message.ruleId.toNat ∧ rule.enabled = message.enabled := by
  obtain ⟨ruleProtocol, -, h⟩ := Option.bind_eq_some_iff.mp h
  obtain ⟨action, -, h⟩ := Option.bind_eq_some_iff.mp h
  obtain rfl := Option.some.inj h
  exact ⟨rfl, rfl⟩

theorem UpdateRuleMessage.decode_eq_none_iff {message : UpdateRuleMessage} :
    message.decode = none ↔ RuleProtocol.ofRawValue message.ruleProtocol = none ∨
      RuleAction.ofRawValue message.ruleAction = none := by
  rw [decode, AddRuleMessage.decode]
  cases RuleProtocol.ofRawValue message.ruleProtocol with
  | none => simp
  | some ruleProtocol =>
    cases RuleAction.ofRawValue message.ruleAction with
    | none => simp
    | some action => simp

theorem firstIndex_of_getElem? {i : ℕ} {rule : ProxyRule} (hids : e.ids.Nodup)
    (hrule : e.rules[i]? = some rule) {ruleId : BitVec 32} (hid : rule.ruleId = ruleId.toNat) :
    e.firstIndex ruleId = some i := by
  obtain ⟨hi, hget⟩ := List.getElem?_eq_some_iff.mp hrule
  rw [Extension.firstIndex, List.findIdx?_eq_some_iff_getElem]
  refine ⟨hi, by simpa [hget] using hid, ?_⟩
  intro j hj hsame
  have hlength : e.ids.length = e.rules.length := List.length_map ..
  have hat : ∀ (k : ℕ) (hk : k < e.rules.length),
      e.ids.get ⟨k, hlength ▸ hk⟩ = e.rules[k].ruleId := by
    intro k hk
    simp [Extension.ids]
  have heq : e.ids.get ⟨j, hlength ▸ hj.trans hi⟩ = e.ids.get ⟨i, hlength ▸ hi⟩ := by
    rw [hat j (hj.trans hi), hat i hi, hget, hid]
    simpa using hsame
  exact hj.ne (Fin.mk.inj (List.nodup_iff_injective_get.mp hids heq))

/-- A save replaces the rule in its place, unless the extension cannot decode it. -/
theorem save_eq (hreads : reads.ReadsWritten) (editor : RuleEditor) {ruleId : BitVec 32} {i : ℕ}
    (hindex : e.firstIndex ruleId = some i) :
    ∃ reply e', editor.save reads ruleId e = some (reply, e') ∧
      ((editor.updateExistingRule ruleId).decode = none ∧ e'.rules = e.rules ∨
        ∃ rule', (editor.updateExistingRule ruleId).decode = some rule' ∧
          e'.rules = e.rules.modify i fun _ => { rule' with ruleId := ruleId.toNat }) := by
  rw [RuleEditor.save, Extension.handleAppMessage, request_json hreads]
  cases (editor.updateExistingRule ruleId).decode with
  | none => exact ⟨_, e, rfl, Or.inl ⟨rfl, rfl⟩⟩
  | some rule' =>
    have hperform : e.perform (.updateRule (some (ruleId, rule'))) = some (some (.updated ruleId),
        { e with rules := e.rules.modify i fun _ => { rule' with ruleId := ruleId.toNat } }) := by
      rw [Extension.perform, hindex]
    exact ⟨_, _, hperform, Or.inr ⟨rule', rfl, rfl⟩⟩

/-- A request that does not stop the process has an id to give out if it needs one. -/
theorem room_of_perform (hsound : e.Sound adds) (hroom : adds < 2 ^ 32 - 1) {request : RuleRequest}
    {r : Option RuleReply × Extension} (h : e.perform request = some r) :
    adds + (if request.isAdd then 1 else 0) < 2 ^ 32 - 1 := by
  cases hadd : request.isAdd with
  | false => exact hroom
  | true =>
    obtain ⟨rule, rfl⟩ : ∃ rule, request = .addRule (some rule) := by
      cases request with
      | addRule rule =>
        cases rule with
        | none => cases hadd
        | some rule => exact ⟨rule, rfl⟩
      | updateRule | toggleRule | removeRule | listRules | clearRules | other => cases hadd
    have hfits : e.nextRuleId + 1 < 2 ^ 32 := by
      by_contra hfull
      rw [Extension.perform, if_neg hfull] at h
      cases h
    rw [hsound.next_eq] at hfits
    rw [if_pos rfl]
    omega

/-- In every store that messages lead to, the rules have distinct ids of 32 bits. -/
theorem sound_of_answers {messages : List Message} {replies : List (Option RuleReply)}
    (h : answers (Extension.handleAppMessage reads) e messages = some (replies, e'))
    (hsound : e.Sound adds) (hroom : adds < 2 ^ 32 - 1) :
    ∃ adds', e'.Sound adds' ∧ adds' < 2 ^ 32 - 1 := by
  induction messages generalizing e adds replies with
  | nil =>
    obtain ⟨-, rfl⟩ := Prod.mk.inj (Option.some.inj h)
    exact ⟨adds, hsound, hroom⟩
  | cons m messages ih =>
    obtain ⟨reply, between, rest, hstep, hrest, -⟩ := answers_cons_eq_some h
    have hnext := room_of_perform hsound hroom hstep
    obtain ⟨reply', between', hperform, hhandled⟩ := perform_handled hsound (m.request reads) hnext
    obtain ⟨-, rfl⟩ := Prod.mk.inj (Option.some.inj (hperform.symm.trans hstep))
    exact ih hrest hhandled.sound hnext

theorem toNat_ruleId (hsound : e.Sound adds) (hroom : adds < 2 ^ 32 - 1) {rule : ProxyRule}
    (hrule : rule ∈ e.rules) : (BitVec.ofNat 32 rule.ruleId).toNat = rule.ruleId := by
  have hlt := (hsound.bounds _ (List.mem_map_of_mem hrule)).2
  rw [hsound.next_eq] at hlt
  rw [BitVec.toNat_ofNat, Nat.mod_eq_of_lt]
  omega

theorem keepsFlag_modify_iff {rules : List ProxyRule} {i : ℕ} {rule rule' : ProxyRule}
    (hrule : rules[i]? = some rule) (hid : rule'.ruleId = rule.ruleId) :
    KeepsFlag rules (rules.modify i fun _ => rule') i rule ↔ rule'.enabled = rule.enabled := by
  have hget : (rules.modify i fun _ => rule')[i]? = some rule' := by
    rw [List.getElem?_modify_eq, hrule]
    rfl
  constructor
  · rintro ⟨⟨kept, hkept, -, hflag⟩, -⟩
    obtain rfl := Option.some.inj (hget.symm.trans hkept)
    exact hflag
  · intro hflag
    refine ⟨⟨rule', hget, hid, hflag⟩, ?_⟩
    intro j hj
    rw [List.getElem?_modify_ne _ _ hj.symm]

/-- In every store and for every rule of it, a save of new field values leaves the rule's flag
and place and the other rules as they were exactly when the rule is switched on, or the extension
takes nothing from the message because it knows no such protocol or action. -/
theorem save_keepsFlag_iff (hreads : reads.ReadsWritten) {messages : List Message}
    {replies : List (Option RuleReply)}
    (hrun : answers (Extension.handleAppMessage reads) .launched messages = some (replies, e))
    {i : ℕ} {rule : ProxyRule} (hrule : e.rules[i]? = some rule) (editor : RuleEditor) :
    ∃ reply e', editor.save reads (BitVec.ofNat 32 rule.ruleId) e = some (reply, e') ∧
      (KeepsFlag e.rules e'.rules i rule ↔
        rule.enabled = true ∨ RuleProtocol.ofRawValue editor.selectedProtocol = none ∨
          RuleAction.ofRawValue editor.selectedAction = none) := by
  obtain ⟨adds, hsound, hroom⟩ := sound_of_answers hrun Extension.sound_launched (by decide)
  have hid := toNat_ruleId hsound hroom (List.mem_of_getElem? hrule)
  have hindex := firstIndex_of_getElem? hsound.nodup hrule hid.symm
  obtain ⟨reply, e', hsave, h⟩ := save_eq hreads editor hindex
  refine ⟨reply, e', hsave, ?_⟩
  have hunknown : (editor.updateExistingRule (BitVec.ofNat 32 rule.ruleId)).decode = none ↔
      RuleProtocol.ofRawValue editor.selectedProtocol = none ∨
        RuleAction.ofRawValue editor.selectedAction = none := UpdateRuleMessage.decode_eq_none_iff
  rw [← hunknown]
  rcases h with ⟨hnone, hrules⟩ | ⟨rule', hsome, hrules⟩
  · rw [hrules]
    exact iff_of_true ⟨⟨rule, hrule, rfl, rfl⟩, fun _ _ => rfl⟩ (Or.inr hnone)
  · have henabled : rule'.enabled = true := (UpdateRuleMessage.of_decode hsome).2
    rw [hrules, or_iff_left (by rw [hsome]; exact Option.some_ne_none rule'),
      keepsFlag_modify_iff hrule hid, henabled]
    exact eq_comm

theorem strict_number (value : ℚ) :
    ValueReads.strict.asUInt32 (.number value) = ValueReads.strict.decodeUInt32 (.number value) ∧
      ValueReads.strict.asUInt32 (.number value) =
        if value.den = 1 ∧ 0 ≤ value.num ∧ value.num < 2 ^ 32 then
          some (BitVec.ofInt 32 value.num) else none :=
  ⟨rfl, rfl⟩

theorem readsWritten_strict : ValueReads.strict.ReadsWritten := by
  have hnumber : ∀ n : BitVec 32, ValueReads.strict.asUInt32 (.number n.toNat) = some n := by
    intro n
    have hwhole : (n.toNat : ℚ).den = 1 ∧ 0 ≤ (n.toNat : ℚ).num ∧
        (n.toNat : ℚ).num < 2 ^ 32 := by
      have hlt := n.isLt
      rw [Rat.num_natCast]
      refine ⟨Rat.den_natCast _, ?_, ?_⟩ <;> omega
    rw [(strict_number _).2, if_pos hwhole, Rat.num_natCast, BitVec.ofInt_natCast,
      BitVec.ofNat_toNat, BitVec.setWidth_eq]
  exact ⟨fun n => ⟨hnumber n, (strict_number _).1.symm.trans (hnumber n)⟩, fun b => rfl⟩

/-- The rule that `addMessage` adds, switched on or off. -/
def curlRule (enabled : Bool) : ProxyRule :=
  ⟨1, "curl".toList, ['*'], ['*'], .both, .proxy, enabled⟩

def portsEdit : RuleEditor :=
  ⟨"curl".toList, ['*'], "443".toList, "BOTH".toList, "PROXY".toList⟩

def switchOff : Message :=
  [("ruleId".toList, .number 1), ("enabled".toList, .bool false),
    ("action".toList, .string "toggleRule".toList)]

/-- The rule is on, and a save of new ports leaves it on. -/
theorem save_keepsFlag_on :
    ∃ reply e', portsEdit.save .strict 1 ⟨[curlRule true], 2⟩ = some (reply, e') ∧
      KeepsFlag [curlRule true] e'.rules 0 (curlRule true) := by
  have hrun : answers (Extension.handleAppMessage .strict) .launched [addMessage] =
      some ([some (.added (curlRule true))], ⟨[curlRule true], 2⟩) := by decide +kernel
  obtain ⟨reply, e', hsave, hkeeps⟩ :=
    @save_keepsFlag_iff .strict _ readsWritten_strict _ _ hrun 0 (curlRule true) rfl portsEdit
  exact ⟨reply, e', hsave, hkeeps.mpr (Or.inl rfl)⟩

/-- The rule was switched off, and a save of new ports switches it on. -/
theorem save_switches_on :
    ∃ replies reply e', answers (Extension.handleAppMessage .strict) .launched
        [addMessage, switchOff] = some (replies, ⟨[curlRule false], 2⟩) ∧
      portsEdit.save .strict 1 ⟨[curlRule false], 2⟩ = some (reply, e') ∧
      e'.rules.map ProxyRule.enabled = [true] ∧
      ¬ KeepsFlag [curlRule false] e'.rules 0 (curlRule false) := by
  refine ⟨[some (.added (curlRule true)), some (.toggled 1 false)], some (.updated 1),
    ⟨[{ curlRule true with targetPorts := "443".toList }], 2⟩, by decide +kernel,
    by decide +kernel, rfl, ?_⟩
  rintro ⟨⟨rule', hrule', -, hflag⟩, -⟩
  obtain rfl := Option.some.inj hrule'
  cases hflag

end ProxyTun.MacOS
