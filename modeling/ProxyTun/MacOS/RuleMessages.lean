import Mathlib.Data.Rat.Defs
import ProxyTun.Library.Simulation
import ProxyTun.MacOS.StoredRules

/-!
# The rule messages of the macOS extension

The application edits the extension's rules by messages, JSON objects with any contents. What
Foundation reads of a value as a number or a truth value is a parameter. An id that is given out
names one rule for as long as the extension runs, even after the rules are cleared.
-/
namespace ProxyTun.MacOS
open Library.Simulation

/-- A JSON value. -/
inductive Json where
  | null
  | bool (b : Bool)
  | number (value : ℚ)
  | string (text : CStr)
  | array (items : List Json)
  | object (fields : List (CStr × Json))

/-- A message, `[String: Any]`. -/
abbrev Message := List (CStr × Json)

/-- The casts `as? UInt32` and `as? Bool`, and what `JSONDecoder` decodes. -/
structure ValueReads where
  asUInt32 : Json → Option (BitVec 32)
  asBool : Json → Option Bool
  decodeUInt32 : Json → Option (BitVec 32)
  decodeBool : Json → Option Bool

def Json.asString : Json → Option CStr
  | .string text => some text
  | _ => none

/-- `decodeIfPresent`, which fails on a value of another type. -/
def decodeIfPresent {α : Type} (decode : Json → Option α) : Option Json → Option (Option α)
  | none | some .null => some none
  | some value => (decode value).map some

section
variable (reads : ValueReads)

def ProxyRule.decode (m : Message) : Option ProxyRule := do
  let ruleId ← decodeIfPresent reads.decodeUInt32 (m.lookup "ruleId".toList)
  let processNames ← (m.lookup "processNames".toList).bind Json.asString
  let targetHosts ← (m.lookup "targetHosts".toList).bind Json.asString
  let targetPorts ← (m.lookup "targetPorts".toList).bind Json.asString
  let ruleProtocol ← ((m.lookup "ruleProtocol".toList).bind Json.asString).bind
    RuleProtocol.ofRawValue
  let action ← ((m.lookup "ruleAction".toList).bind Json.asString).bind RuleAction.ofRawValue
  let enabled ← decodeIfPresent reads.decodeBool (m.lookup "enabled".toList)
  some ⟨(ruleId.getD 0).toNat, processNames, targetHosts, targetPorts, ruleProtocol, action,
    enabled.getD true⟩

/-- What a handler reads of its message, if it can. -/
inductive RuleRequest where
  | addRule (rule : Option ProxyRule)
  | updateRule (update : Option (BitVec 32 × ProxyRule))
  | toggleRule (toggle : Option (BitVec 32 × Bool))
  | removeRule (ruleId : Option (BitVec 32))
  | listRules
  | clearRules
  /-- A message that is not about the rules, or not one of the extension's. -/
  | other
  deriving DecidableEq, Repr

/-- The conditions at the head of each case of `handleAppMessage`. -/
def Message.request (m : Message) : RuleRequest :=
  let ruleId := (m.lookup "ruleId".toList).bind reads.asUInt32
  match (m.lookup "action".toList).bind Json.asString with
  | none => .other
  | some action =>
    if action = "addRule".toList then .addRule (ProxyRule.decode reads m)
    else if action = "updateRule".toList then
      .updateRule (ruleId.bind fun id => (ProxyRule.decode reads m).map fun rule => (id, rule))
    else if action = "toggleRule".toList then
      .toggleRule (ruleId.bind fun id =>
        ((m.lookup "enabled".toList).bind reads.asBool).map fun enabled => (id, enabled))
    else if action = "removeRule".toList then .removeRule ruleId
    else if action = "listRules".toList then .listRules
    else if action = "clearRules".toList then .clearRules
    else .other

end

/-- The replies, which report what was done or the message of an error. -/
inductive RuleReply where
  | added (rule : ProxyRule)
  | updated (ruleId : BitVec 32)
  | toggled (ruleId : BitVec 32) (enabled : Bool)
  | removed (removed : ℕ)
  | listed (rules : List ProxyRule)
  | cleared (cleared : ℕ)
  | error (message : CStr)
  deriving DecidableEq, Repr

/-- The reply has the status of an error. -/
def RuleReply.isError : RuleReply → Bool
  | .error _ => true
  | _ => false

namespace Extension

def firstIndex (e : Extension) (ruleId : BitVec 32) : Option ℕ :=
  e.rules.findIdx? fun rule => rule.ruleId = ruleId.toNat

/-- The cases of `handleAppMessage` about the rules. The next id is a `UInt32`, and the process
stops when there is none. -/
def perform (e : Extension) : RuleRequest → Option (Option RuleReply × Extension)
  | .addRule (some rule) =>
    let rule := { rule with ruleId := e.nextRuleId }
    if e.nextRuleId + 1 < 2 ^ 32 then
      some (some (.added rule), ⟨e.rules ++ [rule], e.nextRuleId + 1⟩)
    else none
  | .addRule none => some (some (.error "Invalid rule format".toList), e)
  | .updateRule (some (ruleId, updatedRule)) =>
    match e.firstIndex ruleId with
    | some index =>
      let rule := { updatedRule with ruleId := ruleId.toNat }
      some (some (.updated ruleId), { e with rules := e.rules.modify index fun _ => rule })
    | none => some (some (.error "Rule not found".toList), e)
  | .updateRule none => some (some (.error "Invalid update data".toList), e)
  | .toggleRule (some (ruleId, enabled)) =>
    match e.firstIndex ruleId with
    | some index =>
      some (some (.toggled ruleId enabled),
        { e with rules := e.rules.modify index fun rule => { rule with enabled := enabled } })
    | none => some (some (.error "Rule not found".toList), e)
  | .toggleRule none => some (some (.error "Missing ruleId or enabled".toList), e)
  | .removeRule (some ruleId) =>
    let rules := e.rules.filter fun rule => rule.ruleId ≠ ruleId.toNat
    some (some (.removed (e.rules.length - rules.length)), { e with rules := rules })
  | .removeRule none => some (some (.error "Missing ruleId".toList), e)
  | .listRules => some (some (.listed e.rules), e)
  | .clearRules => some (some (.cleared e.rules.length), { e with rules := [] })
  | .other => some (none, e)

def handleAppMessage (reads : ValueReads) (e : Extension) (m : Message) :
    Option (Option RuleReply × Extension) :=
  e.perform (m.request reads)

/-- The ids of the rules in the order of the rules. -/
def ids (e : Extension) : List ℕ := e.rules.map ProxyRule.ruleId

end Extension

/-- The ids that replies report of new rules. -/
def issuedIds (replies : List (Option RuleReply)) : List ℕ :=
  replies.filterMap fun reply => match reply with
    | some (.added rule) => some rule.ruleId
    | _ => none

/-- The request lacks data or names no rule. -/
def RuleRequest.Rejected (e : Extension) : RuleRequest → Prop
  | .addRule rule => rule = none
  | .updateRule update => ∀ u ∈ update, u.1.toNat ∉ e.ids
  | .toggleRule toggle => ∀ t ∈ toggle, t.1.toNat ∉ e.ids
  | .removeRule ruleId => ruleId = none
  | .listRules | .clearRules | .other => False

/-- What a request that is not rejected makes of the rules. -/
def RuleRequest.Changes (e e' : Extension) : RuleRequest → Prop
  | .addRule rule => ∀ r ∈ rule, e.nextRuleId ∉ e.ids ∧
      e'.rules = e.rules ++ [{ r with ruleId := e.nextRuleId }]
  | .updateRule update => ∀ u ∈ update, e'.rules = e.rules.map fun rule =>
      if rule.ruleId = u.1.toNat then { u.2 with ruleId := u.1.toNat } else rule
  | .toggleRule toggle => ∀ t ∈ toggle, e'.rules = e.rules.map fun rule =>
      if rule.ruleId = t.1.toNat then { rule with enabled := t.2 } else rule
  | .removeRule ruleId => ∀ id ∈ ruleId, e'.rules = e.rules.filter fun rule =>
      rule.ruleId ≠ id.toNat
  | .clearRules => e'.rules = []
  | .listRules | .other => e'.rules = e.rules

/-- A request that is rejected is answered with an error and changes nothing, any other does its
work. -/
def RuleRequest.Effect (e : Extension) (request : RuleRequest) (reply : Option RuleReply)
    (e' : Extension) : Prop :=
  request.Rejected e ∧ reply.any RuleReply.isError = true ∧ e' = e ∨
    ¬ request.Rejected e ∧ reply.any RuleReply.isError = false ∧ request.Changes e e'

def RuleRequest.isAdd : RuleRequest → Bool
  | .addRule (some _) => true
  | _ => false

def countAdds (reads : ValueReads) (messages : List Message) : ℕ :=
  messages.countP fun m => (m.request reads).isAdd

/-- After so many adds: the rules are some of those that were added, in their order. -/
structure Extension.Sound (e : Extension) (adds : ℕ) : Prop where
  next_eq : e.nextRuleId = adds + 1
  ids_sublist : e.ids.Sublist (List.range' 1 adds)

variable {e e' : Extension} {adds : ℕ}

theorem Extension.sound_launched : Extension.launched.Sound 0 := ⟨rfl, List.Sublist.refl []⟩

namespace Extension.Sound

theorem nodup (h : e.Sound adds) : e.ids.Nodup := h.ids_sublist.nodup List.nodup_range'

theorem bounds (h : e.Sound adds) : ∀ id ∈ e.ids, 0 < id ∧ id < e.nextRuleId := by
  intro id hid
  have hmem := List.mem_range'_1.mp (h.ids_sublist.subset hid)
  rw [h.next_eq]
  omega

theorem of_sublist (h : e.Sound adds) (hids : e'.ids.Sublist e.ids)
    (hnext : e'.nextRuleId = e.nextRuleId) : e'.Sound adds :=
  ⟨hnext.trans h.next_eq, hids.trans h.ids_sublist⟩

end Extension.Sound

/-- With distinct ids a change at the place of an id is a change of the rule with that id. -/
theorem modify_findIdx? {rules : List ProxyRule} {ruleId i : ℕ} (f : ProxyRule → ProxyRule)
    (hnodup : (rules.map ProxyRule.ruleId).Nodup)
    (h : (rules.findIdx? fun rule => rule.ruleId = ruleId) = some i) :
    rules.modify i f = rules.map fun rule => if rule.ruleId = ruleId then f rule else rule := by
  induction rules generalizing i with
  | nil => cases h
  | cons rule rules ih =>
    obtain ⟨hnot, hrest⟩ := List.nodup_cons.mp hnodup
    rw [List.findIdx?_cons] at h
    by_cases hid : rule.ruleId = ruleId
    · obtain rfl : 0 = i := by simpa [hid] using h
      have hsame : rules.map (fun rule => if rule.ruleId = ruleId then f rule else rule) =
          rules := by
        conv_rhs => rw [← List.map_id rules]
        apply List.map_congr_left
        intro other hother
        rw [if_neg]
        · rfl
        · rintro hsame
          exact hnot (List.mem_map.mpr ⟨other, hother, hsame.trans hid.symm⟩)
      rw [List.modify_zero_cons, List.map_cons, if_pos hid, hsame]
    · simp only [hid, decide_false, Bool.false_eq_true, if_false, Option.map_eq_some_iff] at h
      obtain ⟨j, hj, rfl⟩ := h
      rw [List.modify_succ_cons, List.map_cons, if_neg hid, ih hrest hj]

theorem mem_ids_of_firstIndex {ruleId : BitVec 32} {i : ℕ} (h : e.firstIndex ruleId = some i) :
    ruleId.toNat ∈ e.ids := by
  obtain ⟨hi, hid, -⟩ := List.findIdx?_eq_some_iff_getElem.mp h
  exact List.mem_map.mpr ⟨e.rules[i], List.getElem_mem hi, by simpa using hid⟩

theorem not_mem_ids_of_firstIndex {ruleId : BitVec 32} (h : e.firstIndex ruleId = none) :
    ruleId.toNat ∉ e.ids := by
  intro hmem
  obtain ⟨rule, hrule, hid⟩ := List.mem_map.mp hmem
  have hne := List.findIdx?_eq_none_iff.mp h rule hrule
  simp [hid] at hne

/-- A change that keeps the ids keeps them in their places. -/
theorem ids_map {f : ProxyRule → ProxyRule} {ruleId : ℕ}
    (hf : ∀ rule, rule.ruleId = ruleId → (f rule).ruleId = ruleId) (rules : List ProxyRule) :
    (rules.map fun rule => if rule.ruleId = ruleId then f rule else rule).map ProxyRule.ruleId =
      rules.map ProxyRule.ruleId := by
  rw [List.map_map]
  apply List.map_congr_left
  intro rule _
  rw [Function.comp_apply]
  split_ifs with h
  · rw [hf rule h, h]
  · rfl

/-- What a request does after so many adds. -/
structure Handled (e : Extension) (adds : ℕ) (request : RuleRequest) (reply : Option RuleReply)
    (e' : Extension) : Prop where
  effect : request.Effect e reply e'
  sound : e'.Sound (adds + if request.isAdd then 1 else 0)
  issued : issuedIds [reply] = List.range' (adds + 1) (if request.isAdd then 1 else 0)

theorem Handled.of_sublist {request : RuleRequest} {reply : Option RuleReply} (h : e.Sound adds)
    (hadd : request.isAdd = false) (hissued : issuedIds [reply] = [])
    (heffect : request.Effect e reply e') (hids : e'.ids.Sublist e.ids)
    (hnext : e'.nextRuleId = e.nextRuleId) : Handled e adds request reply e' := by
  refine ⟨heffect, ?_, ?_⟩
  · rw [hadd]
    exact h.of_sublist hids hnext
  · rw [hadd, hissued]
    rfl

theorem Handled.rejected {request : RuleRequest} (h : e.Sound adds)
    (hadd : request.isAdd = false) (hrejected : request.Rejected e) (text : CStr) :
    Handled e adds request (some (.error text)) e :=
  .of_sublist h hadd rfl (.inl ⟨hrejected, rfl, rfl⟩) (List.Sublist.refl _) rfl

theorem Handled.add (h : e.Sound adds) (rule : ProxyRule) :
    Handled e adds (.addRule (some rule)) (some (.added { rule with ruleId := e.nextRuleId }))
      ⟨e.rules ++ [{ rule with ruleId := e.nextRuleId }], e.nextRuleId + 1⟩ where
  effect := by
    refine .inr ⟨Option.some_ne_none rule, rfl, ?_⟩
    rintro r ⟨⟩
    refine ⟨?_, rfl⟩
    intro hmem
    exact absurd (h.bounds _ hmem).2 (Nat.lt_irrefl _)
  sound := by
    refine ⟨congrArg (· + 1) h.next_eq, ?_⟩
    change (List.map ProxyRule.ruleId (e.rules ++ [_])).Sublist (List.range' 1 (adds + 1))
    rw [List.map_append, List.range'_concat, Nat.one_mul, Nat.add_comm 1 adds]
    exact h.ids_sublist.append (by rw [List.map_singleton, h.next_eq])
  issued := by
    change [e.nextRuleId] = [adds + 1]
    rw [h.next_eq]

theorem Handled.modify (h : e.Sound adds) {request : RuleRequest} {reply : RuleReply}
    {ruleId : BitVec 32} {i : ℕ} (hindex : e.firstIndex ruleId = some i)
    {f : ProxyRule → ProxyRule} (hf : ∀ rule, rule.ruleId = ruleId.toNat →
      (f rule).ruleId = ruleId.toNat) (hadd : request.isAdd = false)
    (hissued : issuedIds [some reply] = []) (hreply : reply.isError = false)
    (hrejected : ¬ request.Rejected e)
    (hchanges : ∀ e', e'.rules = e.rules.map (fun rule =>
      if rule.ruleId = ruleId.toNat then f rule else rule) → request.Changes e e') :
    Handled e adds request (some reply) { e with rules := e.rules.modify i f } := by
  have hmap := modify_findIdx? f h.nodup hindex
  have hids : (e.rules.modify i f).map ProxyRule.ruleId = e.ids := by
    rw [hmap]
    exact ids_map hf e.rules
  refine .of_sublist h hadd hissued (.inr ⟨hrejected, hreply, hchanges _ hmap⟩) ?_ rfl
  rw [Extension.ids, hids]

theorem perform_handled (h : e.Sound adds) (request : RuleRequest)
    (hroom : adds + (if request.isAdd then 1 else 0) < 2 ^ 32 - 1) :
    ∃ reply e', e.perform request = some (reply, e') ∧ Handled e adds request reply e' := by
  cases request with
  | addRule rule =>
    cases rule with
    | none => exact ⟨_, _, rfl, Handled.rejected h rfl (by rfl) _⟩
    | some rule =>
      have hfits : e.nextRuleId + 1 < 2 ^ 32 := by
        have hnext := h.next_eq
        change adds + 1 < 2 ^ 32 - 1 at hroom
        omega
      exact ⟨_, _, if_pos hfits, Handled.add h rule⟩
  | updateRule update =>
    cases update with
    | none => exact ⟨_, _, rfl, Handled.rejected h rfl (by rintro u ⟨⟩) _⟩
    | some u =>
      obtain ⟨ruleId, updatedRule⟩ := u
      rw [Extension.perform]
      cases hindex : e.firstIndex ruleId with
      | none =>
        refine ⟨_, _, rfl, Handled.rejected h rfl ?_ _⟩
        rintro u ⟨⟩
        exact not_mem_ids_of_firstIndex hindex
      | some i =>
        refine ⟨_, _, rfl, Handled.modify h hindex (fun _ _ => rfl) rfl rfl rfl ?_ ?_⟩
        · intro hrejected
          exact hrejected _ rfl (mem_ids_of_firstIndex hindex)
        · rintro e' hrules u ⟨⟩
          exact hrules
  | toggleRule toggle =>
    cases toggle with
    | none => exact ⟨_, _, rfl, Handled.rejected h rfl (by rintro t ⟨⟩) _⟩
    | some t =>
      obtain ⟨ruleId, enabled⟩ := t
      rw [Extension.perform]
      cases hindex : e.firstIndex ruleId with
      | none =>
        refine ⟨_, _, rfl, Handled.rejected h rfl ?_ _⟩
        rintro t ⟨⟩
        exact not_mem_ids_of_firstIndex hindex
      | some i =>
        refine ⟨_, _, rfl, Handled.modify h hindex (fun _ hid => hid) rfl rfl rfl ?_ ?_⟩
        · intro hrejected
          exact hrejected _ rfl (mem_ids_of_firstIndex hindex)
        · rintro e' hrules t ⟨⟩
          exact hrules
  | removeRule ruleId =>
    cases ruleId with
    | none => exact ⟨_, _, rfl, Handled.rejected h rfl (by rfl) _⟩
    | some ruleId =>
      refine ⟨_, _, rfl, Handled.of_sublist h rfl rfl (.inr ⟨?_, rfl, ?_⟩)
        (List.filter_sublist.map _) rfl⟩
      · exact Option.some_ne_none ruleId
      · rintro id ⟨⟩
        rfl
  | listRules =>
    exact ⟨_, _, rfl, Handled.of_sublist h rfl rfl (.inr ⟨id, rfl, rfl⟩) (List.Sublist.refl _) rfl⟩
  | clearRules =>
    exact ⟨_, _, rfl, Handled.of_sublist h rfl rfl (.inr ⟨id, rfl, rfl⟩) (List.nil_sublist _) rfl⟩
  | other =>
    exact ⟨_, _, rfl, Handled.of_sublist h rfl rfl (.inr ⟨id, rfl, rfl⟩) (List.Sublist.refl _) rfl⟩

theorem issuedIds_cons (reply : Option RuleReply) (replies : List (Option RuleReply)) :
    issuedIds (reply :: replies) = issuedIds [reply] ++ issuedIds replies :=
  List.filterMap_append (l := [reply])

theorem countAdds_cons (reads : ValueReads) (m : Message) (messages : List Message) :
    countAdds reads (m :: messages) =
      (if (m.request reads).isAdd then 1 else 0) + countAdds reads messages := by
  rw [countAdds, List.countP_cons, Nat.add_comm]
  rfl

theorem answers_messages (reads : ValueReads) {messages : List Message} (h : e.Sound adds)
    (hroom : adds + countAdds reads messages < 2 ^ 32 - 1) :
    ∃ replies e', answers (Extension.handleAppMessage reads) e messages = some (replies, e') ∧
      e'.Sound (adds + countAdds reads messages) ∧
      issuedIds replies = List.range' (adds + 1) (countAdds reads messages) := by
  induction messages generalizing e adds with
  | nil => exact ⟨[], e, rfl, h, rfl⟩
  | cons m messages ih =>
    rw [countAdds_cons] at hroom ⊢
    obtain ⟨reply, between, hperform, hhandled⟩ :=
      perform_handled h (m.request reads) (by omega)
    obtain ⟨replies, e', hanswers, hsound, hissued⟩ := ih hhandled.sound (by omega)
    refine ⟨reply :: replies, e', ?_, by rwa [← Nat.add_assoc], ?_⟩
    · rw [answers, Extension.handleAppMessage, hperform, Option.bind_some, hanswers]
      rfl
    · rw [issuedIds_cons, hhandled.issued, hissued, ← List.range'_append_1]
      congr 2
      omega

/-- After any messages the ids of the rules are distinct, not 0 and below the next one, the rules
stand in the order in which they were added, no id has been given out twice, and every further
message does what it should or is answered with an error and changes nothing. -/
theorem ruleMessages_run (reads : ValueReads) {messages : List Message}
    (hadds : countAdds reads messages < 2 ^ 32 - 1) :
    ∃ replies e, answers (Extension.handleAppMessage reads) .launched messages =
        some (replies, e) ∧
      e.ids.Nodup ∧ (∀ id ∈ e.ids, 0 < id ∧ id < e.nextRuleId) ∧
      (issuedIds replies).Nodup ∧ e.ids.Sublist (issuedIds replies) ∧
      ∀ m : Message, countAdds reads (messages ++ [m]) < 2 ^ 32 - 1 →
        ∃ reply e', e.handleAppMessage reads m = some (reply, e') ∧
          (m.request reads).Effect e reply e' := by
  have hroom : 0 + countAdds reads messages < 2 ^ 32 - 1 := by rwa [Nat.zero_add]
  obtain ⟨replies, e, hanswers, hsound, hissued⟩ :=
    answers_messages reads Extension.sound_launched hroom
  rw [Nat.zero_add] at hsound hissued
  refine ⟨replies, e, hanswers, hsound.nodup, hsound.bounds, ?_, ?_, ?_⟩
  · rw [hissued]
    exact List.nodup_range'
  · rw [hissued]
    exact hsound.ids_sublist
  · intro m hm
    have hroom : countAdds reads messages + (if (m.request reads).isAdd then 1 else 0) <
        2 ^ 32 - 1 := by
      rwa [countAdds, List.countP_append, List.countP_singleton] at hm
    obtain ⟨reply, e', hperform, hhandled⟩ := perform_handled hsound (m.request reads) hroom
    exact ⟨reply, e', hperform, hhandled.effect⟩

/-- Numbers are read as numbers and truth values as truth values. -/
def ValueReads.strict : ValueReads :=
  let number : Json → Option (BitVec 32)
    | .number value =>
      if value.den = 1 ∧ 0 ≤ value.num ∧ value.num < 2 ^ 32 then some (BitVec.ofInt 32 value.num)
      else none
    | _ => none
  let truth : Json → Option Bool
    | .bool b => some b
    | _ => none
  ⟨number, truth, number, truth⟩

def addMessage : Message :=
  [("action".toList, .string "addRule".toList), ("processNames".toList, .string "curl".toList),
    ("targetHosts".toList, .string ['*']), ("targetPorts".toList, .string ['*']),
    ("ruleProtocol".toList, .string "BOTH".toList), ("ruleAction".toList, .string "PROXY".toList)]

/-- Two rules, a message without an action, all rules cleared, and another rule. -/
def someMessages : List Message :=
  [addMessage, addMessage, [], [("action".toList, .string "clearRules".toList)], addMessage]

theorem ruleMessages_run_someMessages :
    ∃ replies e, answers (Extension.handleAppMessage .strict) .launched someMessages =
      some (replies, e) ∧ (issuedIds replies).Nodup := by
  obtain ⟨replies, e, hanswers, -, -, hissued, -⟩ :=
    @ruleMessages_run .strict someMessages (by decide)
  exact ⟨replies, e, hanswers, hissued⟩

/-- The message that the application sends for a rule. -/
def AddRuleMessage.json (message : AddRuleMessage) : Message :=
  [("action".toList, .string "addRule".toList),
    ("processNames".toList, .string message.processNames),
    ("targetHosts".toList, .string message.targetHosts),
    ("targetPorts".toList, .string message.targetPorts),
    ("ruleProtocol".toList, .string message.ruleProtocol),
    ("ruleAction".toList, .string message.ruleAction),
    ("enabled".toList, .bool message.enabled)]

/-- On the application's own messages the handler is `addRule` of the stored rules. -/
theorem handleAppMessage_json (reads : ValueReads) (message : AddRuleMessage)
    (hbool : reads.decodeBool (.bool message.enabled) = some message.enabled) :
    (e.handleAppMessage reads message.json).map Prod.snd = e.addRule message := by
  have hrequest : message.json.request reads = .addRule (ProxyRule.decode reads message.json) :=
    rfl
  have hdecode : ProxyRule.decode reads message.json = message.decode 0 := by
    have henabled : decodeIfPresent reads.decodeBool (message.json.lookup "enabled".toList) =
        some (some message.enabled) := by
      change (reads.decodeBool (.bool message.enabled)).map some = _
      rw [hbool, Option.map_some]
    rw [ProxyRule.decode, henabled]
    rfl
  rw [Extension.handleAppMessage, hrequest, hdecode, Extension.addRule]
  unfold AddRuleMessage.decode
  cases RuleProtocol.ofRawValue message.ruleProtocol with
  | none => rfl
  | some ruleProtocol =>
    cases RuleAction.ofRawValue message.ruleAction with
    | none => rfl
    | some action =>
      simp only [Extension.perform, Option.bind_eq_bind, Option.bind_some]
      split_ifs <;> rfl

end ProxyTun.MacOS
