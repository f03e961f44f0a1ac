import ProxyTun.Library.Replica
import ProxyTun.MacOS.RuleDecision
import ProxyTun.MacOS.RuleMessages

/-!
# The rules of the extension while presets are switched

The application stores the rules and loads them into the extension when the tunnel starts and after
every change of a preset in its main window. A load sends a message for each rule, and several may
be under way at once. The messages are handled in the order in which they are sent. Once all of them
are handled, the extension decides by the stored rules.
-/
namespace ProxyTun.MacOS
open Library Transition

/-- A message by which the application loads its rules. -/
inductive RuleCall where
  | clearRules
  | addRule (message : AddRuleMessage)
  deriving DecidableEq, Repr

namespace RuleCall

def json : RuleCall → Message
  | .clearRules => [("action".toList, .string "clearRules".toList)]
  | .addRule message => message.json

def isClear : RuleCall → Bool
  | .clearRules => true
  | .addRule _ => false

def brings : RuleCall → Option AddRuleMessage
  | .clearRules => none
  | .addRule message => some message

end RuleCall

/-- The stored rules, the extension, the messages under way, the successful replies to `clearRules`
under way and the timers of `startTunnel`. -/
structure LiveRules where
  /-- Whether `tunnelSession` is set. -/
  session : Bool
  stored : List StoredRule
  provider : Extension
  channel : List RuleCall
  cleared : ℕ
  restoring : ℕ
  /-- What the loops of `loadRulesFromUserDefaults` have left to send. -/
  loads : List (List AddRuleMessage)
  deriving DecidableEq, Repr

inductive LiveLabel where
  | applyPreset (preset : RulePreset)
  | disablePreset (preset : RulePreset)
  | removePreset (preset : RulePreset)
  /-- `startTunnel`, which launches the extension's process or finds it running. -/
  | startTunnel (launches : Bool)
  /-- The 1.5 seconds of `startTunnel` are over. -/
  | restore
  /-- The extension handles a message. -/
  | handle
  /-- The application gets a reply to `clearRules`. -/
  | resume
  /-- A loop sends its next message. -/
  | send (i : ℕ)
  deriving DecidableEq, Repr

namespace LiveLabel

/-- A message, a reply or a timer arrives. -/
def isDelivery : LiveLabel → Bool
  | .restore | .handle | .resume => true
  | .applyPreset _ | .disablePreset _ | .removePreset _ | .startTunnel _ | .send _ => false

/-- The step goes on with what is under way. -/
def goesOn : LiveLabel → Bool
  | .send _ => true
  | label => label.isDelivery

end LiveLabel

section
variable (reads : ValueReads) (uppercased : CStr → CStr)

def removePreset (preset : RulePreset) (stored : List StoredRule) : List StoredRule :=
  stored.filter fun rule => !rule.matches uppercased preset

namespace LiveRules

def sync (s : LiveRules) (stored : List StoredRule) : LiveRules :=
  if s.session then { s with stored := stored, channel := s.channel ++ [.clearRules] }
  else { s with stored := stored }

/-- `loadRulesFromUserDefaults`, which is to send a message for every stored rule. -/
def load (s : LiveRules) : LiveRules :=
  { s with loads := s.loads ++ [s.stored.map StoredRule.message] }

def send (i : ℕ) (s : LiveRules) : Option LiveRules :=
  match s.loads[i]? with
  | some (message :: rest) =>
    some { s with channel := s.channel ++ [.addRule message], loads := s.loads.set i rest }
  | _ => none

/-- The extension handles the oldest message. Only the success of `clearRules` matters to what
follows. -/
def handle (s : LiveRules) : Option LiveRules :=
  match s.channel with
  | [] => none
  | call :: rest => (s.provider.handleAppMessage reads call.json).map fun answer =>
    { s with
      provider := answer.2
      channel := rest
      cleared := if call.isClear && answer.1.any fun reply => !reply.isError then s.cleared + 1
        else s.cleared }

def step (s : LiveRules) : LiveLabel → Option LiveRules
  | .applyPreset preset => some (s.sync (MacOS.applyPreset uppercased preset s.stored))
  | .disablePreset preset =>
    match MacOS.disablePreset uppercased preset s.stored with
    | none => some s
    | some stored => some (s.sync stored)
  | .removePreset preset => some (s.sync (MacOS.removePreset uppercased preset s.stored))
  | .startTunnel true => some { s with
      session := true
      provider := .launched
      channel := []
      restoring := s.restoring + 1 }
  | .startTunnel false => some { s with session := true, restoring := s.restoring + 1 }
  | .restore =>
    if 0 < s.restoring then some { s.load with restoring := s.restoring - 1 } else none
  | .handle => s.handle reads
  | .resume => if 0 < s.cleared then some { s.load with cleared := s.cleared - 1 } else none
  | .send i => s.send i

/-- The step changes the stored rules for the extension, or launches it. -/
def starts (s : LiveRules) : LiveLabel → Bool
  | .applyPreset _ | .removePreset _ => s.session
  | .disablePreset preset =>
    s.session && (MacOS.disablePreset uppercased preset s.stored).isSome
  | .startTunnel launches => launches
  | .restore | .handle | .resume | .send _ => false

/-- The rules are not changed, and the extension is not launched, between two messages of a load. -/
def LoadsUncut (s : LiveRules) (label : LiveLabel) : Prop :=
  s.starts uppercased label = true → ∀ rest ∈ s.loads, rest = []

instance (s : LiveRules) (label : LiveLabel) : Decidable (s.LoadsUncut uppercased label) :=
  inferInstanceAs (Decidable (_ → _))

end LiveRules
end

/-- The rule without its id. -/
def ProxyRule.content (rule : ProxyRule) : ProxyRule := { rule with ruleId := 0 }

/-- The rules that the stored ones stand for, less those whose protocol or action is not known. -/
def restored (stored : List StoredRule) : List ProxyRule :=
  (stored.map StoredRule.message).filterMap fun message => message.decode 0

namespace LiveRules

/-- Nothing is under way. -/
structure Quiet (s : LiveRules) : Prop where
  channel : s.channel = []
  cleared : s.cleared = 0
  restoring : s.restoring = 0
  loads : ∀ rest ∈ s.loads, rest = []

/-- How many messages, replies and timers are left when no preset is switched. -/
def work (s : LiveRules) : ℕ :=
  s.channel.length + s.loads.flatten.length +
    (s.channel.countP RuleCall.isClear + s.cleared + s.restoring) * (s.stored.length + 1)

def toReplica (s : LiveRules) : Replica AddRuleMessage ProxyRule where
  source := s.stored.map StoredRule.message
  items := s.provider.rules.map ProxyRule.content
  channel := s.channel.map RuleCall.brings
  waiting := s.cleared + s.restoring
  sending := s.loads

variable {reads : ValueReads} {uppercased : CStr → CStr} {s t u : LiveRules} {label : LiveLabel}

theorem rules_addRule {e e' : Extension} {message : AddRuleMessage}
    (h : e.addRule message = some e') :
    e'.rules.map ProxyRule.content =
        e.rules.map ProxyRule.content ++ (message.decode 0).toList ∧
      e'.nextRuleId ≤ e.nextRuleId + 1 := by
  have hdecode : (message.decode e.nextRuleId).map ProxyRule.content = message.decode 0 := by
    unfold AddRuleMessage.decode
    cases RuleProtocol.ofRawValue message.ruleProtocol with
    | none => rfl
    | some ruleProtocol => cases RuleAction.ofRawValue message.ruleAction <;> rfl
  rw [← hdecode]
  unfold Extension.addRule at h
  cases hrule : message.decode e.nextRuleId with
  | none =>
    rw [hrule] at h
    obtain rfl := Option.some.inj h
    exact ⟨by simp, Nat.le_succ _⟩
  | some rule =>
    rw [hrule] at h
    obtain ⟨-, h⟩ := Option.ite_none_right_eq_some.mp h
    obtain rfl := Option.some.inj h
    exact ⟨by simp, le_refl _⟩

theorem toReplica_handle (hreads : ∀ b, reads.decodeBool (.bool b) = some b)
    (h : s.handle reads = some t) :
    s.toReplica.step (AddRuleMessage.decode · 0) .deliver = some t.toReplica ∧
      t.provider.nextRuleId ≤ s.provider.nextRuleId + 1 ∧ t.session = s.session := by
  obtain ⟨session, stored, provider, channel, cleared, restoring, loads⟩ := s
  cases channel with
  | nil => cases h
  | cons call rest =>
    cases call with
    | clearRules =>
      obtain rfl := Option.some.inj h
      refine ⟨?_, Nat.le_succ _, rfl⟩
      change some _ = some _
      simp only [toReplica, List.map_nil, Option.some.injEq, Replica.mk.injEq, true_and, and_true]
      exact Nat.add_right_comm cleared restoring 1
    | addRule message =>
      obtain ⟨answer, hanswer, rfl⟩ := Option.map_eq_some_iff.mp h
      have hadd : provider.addRule message = some answer.2 := by
        rw [← handleAppMessage_json reads message (hreads message.enabled)]
        exact Option.map_eq_some_iff.mpr ⟨answer, hanswer, rfl⟩
      obtain ⟨hrules, hnext⟩ := rules_addRule hadd
      refine ⟨?_, hnext, rfl⟩
      change some _ = some _
      simp only [toReplica, hrules, Replica.receive]
      rfl

theorem reload_toReplica {cleared restoring : ℕ}
    (hwaiting : cleared + restoring + 1 = s.cleared + s.restoring) :
    s.toReplica.step (AddRuleMessage.decode · 0) .reload =
      some { s.load with cleared := cleared, restoring := restoring }.toReplica := by
  have hleft : s.cleared + s.restoring - 1 = cleared + restoring := by omega
  have hpos : 0 < s.toReplica.waiting := by
    change 0 < s.cleared + s.restoring
    omega
  rw [Replica.step, if_pos hpos]
  simp only [toReplica, load, hleft]

theorem send_eq_some {i : ℕ} (h : s.send i = some t) :
    ∃ message rest, s.loads[i]? = some (message :: rest) ∧
      t = { s with channel := s.channel ++ [.addRule message], loads := s.loads.set i rest } := by
  rw [send] at h
  cases hget : s.loads[i]? with
  | none =>
    rw [hget] at h
    cases h
  | some left =>
    cases left with
    | nil =>
      rw [hget] at h
      cases h
    | cons message rest =>
      rw [hget] at h
      exact ⟨message, rest, rfl, (Option.some.inj h).symm⟩

theorem toReplica_send {i : ℕ} (h : s.send i = some t) :
    s.toReplica.step (AddRuleMessage.decode · 0) (.send i) = some t.toReplica := by
  obtain ⟨message, rest, hget, rfl⟩ := send_eq_some h
  have hsending : s.toReplica.sending[i]? = some (message :: rest) := hget
  rw [Replica.step, hsending]
  simp only [toReplica, List.map_append]
  rfl

theorem toReplica_step (hreads : ∀ b, reads.decodeBool (.bool b) = some b)
    (hsession : s.session = true) (h : s.step reads uppercased label = some t) :
    t.session = true ∧
      (label.goesOn = false ∧ s.starts uppercased label = false ∧ t.toReplica = s.toReplica ∨
      ∃ label', label'.isDelivery = label.isDelivery ∧
        (label'.isDelivery || label'.isSend) = label.goesOn ∧
        label'.isChange = s.starts uppercased label ∧
        s.toReplica.step (AddRuleMessage.decode · 0) label' = some t.toReplica) := by
  have hsync : ∀ stored, (s.sync stored).session = true ∧
      s.toReplica.step (AddRuleMessage.decode · 0) (.change (stored.map StoredRule.message)) =
        some (s.sync stored).toReplica := by
    intro stored
    rw [sync, if_pos hsession]
    refine ⟨hsession, ?_⟩
    simp only [Replica.step, toReplica, List.map_append]
    rfl
  cases label with
  | applyPreset preset | removePreset preset =>
    obtain rfl := Option.some.inj h
    exact ⟨(hsync _).1, .inr ⟨.change _, rfl, rfl, hsession.symm, (hsync _).2⟩⟩
  | disablePreset preset =>
    cases hstored : MacOS.disablePreset uppercased preset s.stored with
    | none =>
      rw [step, hstored] at h
      obtain rfl := Option.some.inj h
      refine ⟨hsession, .inl ⟨rfl, ?_, rfl⟩⟩
      rw [starts, hstored, Option.isSome_none, Bool.and_false]
    | some stored =>
      rw [step, hstored] at h
      obtain rfl := Option.some.inj h
      refine ⟨(hsync stored).1, .inr ⟨.change _, rfl, rfl, ?_, (hsync stored).2⟩⟩
      rw [starts, hsession, hstored]
      rfl
  | startTunnel launches =>
    cases launches with
    | true =>
      obtain rfl := Option.some.inj h
      exact ⟨rfl, .inr ⟨.restart, rfl, rfl, rfl, rfl⟩⟩
    | false =>
      obtain rfl := Option.some.inj h
      exact ⟨rfl, .inr ⟨.again, rfl, rfl, rfl, rfl⟩⟩
  | handle =>
    obtain ⟨hstep, -, hsame⟩ := toReplica_handle hreads h
    exact ⟨hsame.trans hsession, .inr ⟨.deliver, rfl, rfl, rfl, hstep⟩⟩
  | restore =>
    obtain ⟨hpos, h⟩ := Option.ite_none_right_eq_some.mp h
    obtain rfl := Option.some.inj h
    have hwaiting : s.cleared + (s.restoring - 1) + 1 = s.cleared + s.restoring := by omega
    exact ⟨hsession, .inr ⟨.reload, rfl, rfl, rfl, reload_toReplica hwaiting⟩⟩
  | resume =>
    obtain ⟨hpos, h⟩ := Option.ite_none_right_eq_some.mp h
    obtain rfl := Option.some.inj h
    have hwaiting : s.cleared - 1 + s.restoring + 1 = s.cleared + s.restoring := by omega
    exact ⟨hsession, .inr ⟨.reload, rfl, rfl, rfl, reload_toReplica hwaiting⟩⟩

  | send i =>
    have hreplica := toReplica_send h
    obtain ⟨message, rest, -, rfl⟩ := send_eq_some h
    exact ⟨hsession, .inr ⟨.send i, rfl, rfl, rfl, hreplica⟩⟩

/-- What the extension has is what is sent to it from the first step on that changes the rules. -/
theorem consistent_of_starts (hreads : ∀ b, reads.decodeBool (.bool b) = some b)
    (hstarts : s.starts uppercased label = true) (huncut : s.LoadsUncut uppercased label)
    (h : s.step reads uppercased label = some t) :
    t.session = true ∧ t.toReplica.Consistent (AddRuleMessage.decode · 0) := by
  have hsilent : s.toReplica.Silent := huncut hstarts
  by_cases hsession : s.session = true
  · obtain ⟨hsession', ⟨-, hnot, -⟩ | ⟨label', -, -, hchange, hstep⟩⟩ :=
      toReplica_step hreads hsession h
    · rw [hstarts] at hnot
      cases hnot
    · exact ⟨hsession', Replica.consistent_of_change (hchange.trans hstarts) hsilent hstep⟩
  · cases label with
    | applyPreset preset | removePreset preset => exact absurd hstarts hsession
    | disablePreset preset => exact absurd (Bool.and_eq_true_iff.mp hstarts).1 hsession
    | startTunnel launches =>
      obtain rfl : launches = true := hstarts
      obtain rfl := Option.some.inj h
      exact ⟨rfl, follows_nil _, fun rest hmem hne => absurd (hsilent rest hmem) hne,
        .inr (.inl (Nat.succ_pos _))⟩
    | restore | handle | resume | send _ => cases hstarts

theorem consistent_of_run (hreads : ∀ b, reads.decodeBool (.bool b) = some b)
    (hs : s.session = true ∧ s.toReplica.Consistent (AddRuleMessage.decode · 0))
    {labels : List LiveLabel} (h : run (step reads uppercased) s labels = some t)
    (huncut : Guarded (step reads uppercased) (LoadsUncut uppercased) s labels) :
    t.toReplica.Consistent (AddRuleMessage.decode · 0) := by
  have hstep : ∀ (s : LiveRules) label t, (s.session = true ∧
      s.toReplica.Consistent (AddRuleMessage.decode · 0)) → s.LoadsUncut uppercased label →
      s.step reads uppercased label = some t → t.session = true ∧
        t.toReplica.Consistent (AddRuleMessage.decode · 0) := by
    rintro s label t ⟨hsession, hs⟩ hlabel h
    obtain ⟨hsession', ⟨-, -, hsame⟩ | ⟨label', -, -, hchange, hstep⟩⟩ :=
      toReplica_step hreads hsession h
    · exact ⟨hsession', hsame ▸ hs⟩
    · exact ⟨hsession', hs.step (fun hlabel' => hlabel (hchange.symm.trans hlabel')) hstep⟩
  exact (guarded_invariant hstep h huncut hs).2

theorem findMatchingRule_content (lowercased : CStr → CStr) (query : FlowQuery)
    (rules : List ProxyRule) :
    findMatchingRule lowercased query (rules.map ProxyRule.content) =
      (findMatchingRule lowercased query rules).map ProxyRule.content := by
  rw [findMatchingRule_eq_firstMatch, findMatchingRule_eq_firstMatch]
  exact firstMatch_map (g := ProxyRule.content) (fun _ => rfl) (fun _ => rfl) rules

def presetFor (process : CStr) : RulePreset where
  title := process
  processNames := process
  targetHosts := []
  targetPorts := []
  protocolName := "TCP".toList
  action := "PROXY".toList

def oneStored : LiveRules := ⟨false, [(presetFor "ssh".toList).stored], .launched, [], 0, 0, []⟩

/-- A preset is switched on and another one off before the first messages are handled, and two loads
send their messages by turns. -/
def switchedTwice : List LiveLabel :=
  [.restore, .send 0, .handle, .applyPreset (presetFor "git".toList),
    .disablePreset (presetFor "ssh".toList), .handle, .handle, .resume, .resume, .send 1, .send 2,
    .send 1, .send 2, .handle, .handle, .handle, .handle]

theorem work_toReplica (s : LiveRules) : s.toReplica.work = s.work := by
  have hclears : (s.channel.map RuleCall.brings).countP Option.isNone =
      s.channel.countP RuleCall.isClear := by
    rw [List.countP_map]
    congr 1
    funext call
    cases call <;> rfl
  simp only [Replica.work, work, toReplica, List.length_map, hclears, Nat.add_mul]
  omega

theorem goesOn_step (hreads : ∀ b, reads.decodeBool (.bool b) = some b)
    (hsession : s.session = true) (hlabel : label.goesOn = true)
    (h : s.step reads uppercased label = some t) :
    t.session = true ∧ t.work + (if label.isDelivery then 1 else 0) = s.work ∧
      t.toReplica.unsent + (if label.isDelivery then 0 else 1) = s.toReplica.unsent ∧
      t.provider.nextRuleId ≤ s.provider.nextRuleId + if label.isDelivery then 1 else 0 := by
  obtain ⟨hsession', ⟨hnot, -, -⟩ | ⟨label', hdelivery, hgoes, -, hstep⟩⟩ :=
    toReplica_step hreads hsession h
  · rw [hlabel] at hnot
    cases hnot
  refine ⟨hsession', ?_⟩
  rw [← work_toReplica, ← work_toReplica]
  cases label with
  | applyPreset _ | disablePreset _ | removePreset _ | startTunnel _ => cases hlabel
  | handle =>
    obtain ⟨hwork, hunsent⟩ := Replica.work_of_delivery hdelivery hstep
    exact ⟨hwork, hunsent, (toReplica_handle hreads h).2.1⟩
  | restore | resume =>
    obtain ⟨hwork, hunsent⟩ := Replica.work_of_delivery hdelivery hstep
    obtain ⟨-, h⟩ := Option.ite_none_right_eq_some.mp h
    obtain rfl := Option.some.inj h
    exact ⟨hwork, hunsent, Nat.le_succ _⟩
  | send i =>
    obtain ⟨hwork, hunsent⟩ := Replica.work_of_send (toReplica_send h)
    obtain ⟨message, rest, -, rfl⟩ := send_eq_some h
    exact ⟨hwork, hunsent, le_refl _⟩

theorem goesOn_run (hreads : ∀ b, reads.decodeBool (.bool b) = some b)
    (hsession : s.session = true) {labels : List LiveLabel}
    (hlabels : ∀ label ∈ labels, label.goesOn = true)
    (h : run (step reads uppercased) s labels = some t) :
    t.work + labels.countP LiveLabel.isDelivery = s.work ∧
      t.toReplica.unsent + labels.length =
        s.toReplica.unsent + labels.countP LiveLabel.isDelivery ∧
      t.provider.nextRuleId ≤ s.provider.nextRuleId + labels.countP LiveLabel.isDelivery := by
  induction labels generalizing s with
  | nil =>
    obtain rfl := Option.some.inj h
    exact ⟨rfl, rfl, le_refl _⟩
  | cons label labels ih =>
    obtain ⟨u, hu, ht⟩ := run_cons_eq_some.mp h
    obtain ⟨hlabel, hlabels⟩ := List.forall_mem_cons.mp hlabels
    obtain ⟨hsession', hwork, hunsent, hnext⟩ := goesOn_step hreads hsession hlabel hu
    obtain ⟨hwork', hunsent', hnext'⟩ := ih hsession' hlabels ht
    rw [List.length_cons, List.countP_cons]
    split_ifs at hwork hunsent hnext ⊢ <;> omega

/-- Something under way can go on, unless the extension is out of ids. -/
theorem exists_goesOn (hreads : ∀ b, reads.decodeBool (.bool b) = some b)
    (hroom : s.provider.nextRuleId + 1 < 2 ^ 32) (h : ¬ s.Quiet) :
    ∃ label t, label.goesOn = true ∧ s.step reads uppercased label = some t := by
  by_cases hcleared : 0 < s.cleared
  · exact ⟨.resume, _, rfl, if_pos hcleared⟩
  by_cases hrestoring : 0 < s.restoring
  · exact ⟨.restore, _, rfl, if_pos hrestoring⟩
  by_cases hloads : ∀ rest ∈ s.loads, rest = []
  · have hchannel : s.channel ≠ [] := fun hnil => h ⟨hnil, by omega, by omega, hloads⟩
    obtain ⟨call, rest, hcons⟩ := List.exists_cons_of_ne_nil hchannel
    have hhandled : ∃ answer, s.provider.handleAppMessage reads call.json = some answer := by
      cases call with
      | clearRules => exact ⟨_, rfl⟩
      | addRule message =>
        have hadd : ∃ e, s.provider.addRule message = some e := by
          unfold Extension.addRule
          cases message.decode s.provider.nextRuleId with
          | none => exact ⟨_, rfl⟩
          | some rule => exact ⟨_, if_pos hroom⟩
        obtain ⟨e, he⟩ := hadd
        rw [← handleAppMessage_json reads message (hreads message.enabled)] at he
        obtain ⟨answer, hanswer, -⟩ := Option.map_eq_some_iff.mp he
        exact ⟨answer, hanswer⟩
    obtain ⟨answer, hanswer⟩ := hhandled
    have hhandle : ∃ t, s.handle reads = some t := by
      rw [handle, hcons]
      exact ⟨_, Option.map_eq_some_iff.mpr ⟨answer, hanswer, rfl⟩⟩
    obtain ⟨t, ht⟩ := hhandle
    exact ⟨.handle, t, rfl, ht⟩
  · push Not at hloads
    obtain ⟨left, hmem, hne⟩ := hloads
    obtain ⟨i, hi⟩ := List.mem_iff_getElem?.mp hmem
    obtain ⟨message, rest, rfl⟩ := List.exists_cons_of_ne_nil hne
    have hsend : s.send i =
        some { s with
          channel := s.channel ++ [.addRule message]
          loads := s.loads.set i rest } := by
      rw [send, hi]
    exact ⟨.send i, _, rfl, hsend⟩

theorem quiet_of_work (h : s.work = 0) : s.Quiet := by
  unfold work at h
  obtain ⟨hsent, hrest⟩ := Nat.add_eq_zero_iff.mp h
  obtain ⟨hchannel, hloads⟩ := Nat.add_eq_zero_iff.mp hsent
  have hcounts := (Nat.mul_eq_zero.mp hrest).resolve_right (Nat.succ_ne_zero _)
  have hflatten := List.length_eq_zero_iff.mp hloads
  exact ⟨List.length_eq_zero_iff.mp hchannel, by omega, by omega,
    List.flatten_eq_nil_iff.mp hflatten⟩

/-- In whatever order the messages, the replies and the timers come and the loads send, nothing is
under way any more after a bounded number of steps, as long as the extension does not run out of
ids. -/
theorem live_rules_settle (hreads : ∀ b, reads.decodeBool (.bool b) = some b)
    (hsession : s.session = true) {labels : List LiveLabel}
    (hlabels : ∀ label ∈ labels, label.goesOn = true)
    (hrun : run (step reads uppercased) s labels = some t) :
    labels.countP LiveLabel.isDelivery ≤ s.work ∧ labels.length ≤ 2 * s.work ∧
      (s.provider.nextRuleId + s.work < 2 ^ 32 → t.Quiet ∨
        ∃ label u, label.goesOn = true ∧ t.step reads uppercased label = some u) := by
  obtain ⟨hwork, hunsent, hnext⟩ := goesOn_run hreads hsession hlabels hrun
  have hle := s.toReplica.unsent_le_work
  rw [work_toReplica] at hle
  refine ⟨by omega, by omega, fun hroom => ?_⟩
  by_cases hquiet : t.Quiet
  · exact .inl hquiet
  · have hleft : t.work ≠ 0 := fun hzero => hquiet (quiet_of_work hzero)
    exact .inr (exists_goesOn hreads (by omega) hquiet)

/-- A preset was just switched on. -/
def twoStored : LiveRules :=
  ⟨true, [(presetFor "ssh".toList).stored, (presetFor "git".toList).stored], .launched,
    [.clearRules], 0, 0, []⟩

/-- The reply arrives, and both rules are sent and handled. -/
def allHandled : List LiveLabel := [.handle, .resume, .send 0, .handle, .send 0, .handle]

theorem live_rules_settle_twoStored : ∃ t,
    run (step .strict (List.map Char.toUpper)) twoStored allHandled = some t ∧
      allHandled.countP LiveLabel.isDelivery ≤ twoStored.work ∧
      allHandled.length ≤ 2 * twoStored.work ∧
      (twoStored.provider.nextRuleId + twoStored.work < 2 ^ 32 → t.Quiet ∨
        ∃ label u, label.goesOn = true ∧
          t.step .strict (List.map Char.toUpper) label = some u) := by
  obtain ⟨t, hrun⟩ := Option.isSome_iff_exists.mp
    (show (run (step .strict (List.map Char.toUpper)) twoStored allHandled).isSome = true by
      decide +kernel)
  exact ⟨t, hrun, live_rules_settle (fun _ => rfl) rfl (by decide) hrun⟩

end LiveRules

end ProxyTun.MacOS
