import ProxyTun.Packets.Operations

/-!
# From the owner of a packet to an action

Both engines ask the rules in the same way once the owner of a packet is known. They
differ in how they find the owner, in the filters, and in the destinations they exempt.
-/
namespace ProxyTun
open Library Routine

/-- What the rules say about the packet of a process that has a name. What the proxy cannot
carry is direct. -/
def namedDecision (F : Filters) (cfg : Settings) (p : Packet) (name : CStr) : RuleAction :=
  let action := matchRule F cfg.rules name p.dstAddr p.dstPort p.transport.isUdp
  if action = .proxy && !cfg.canProxy p.transport.isUdp then .direct else action

/-- `check_process_rule` behind the lookup of the owner: no owner, the engine itself and a
process without a name are direct. -/
def ownerAction {Out : Type} (F : Filters) (cfg : Settings) (p : Packet) (pid : Pid) :
    Routine Out RuleAction :=
  if pid = 0 then pure .direct
  else if pid = cfg.currentProcessId then pure .direct
  else do
    match ← processName pid with
    | none => pure .direct
    | some name => pure (namedDecision F cfg p name)

def ownerDecision (F : Filters) (cfg : Settings) (env : Environment) (p : Packet) (pid : Pid) :
    RuleAction :=
  if pid = 0 then .direct
  else if pid = cfg.currentProcessId then .direct
  else match env.processName pid with
    | none => .direct
    | some name => namedDecision F cfg p name

/-- `check_process_rule` with the platform's way to find an owner. -/
def checkOwner {Out : Type} (find : Packet → Routine Out Pid) (F : Filters) (cfg : Settings)
    (p : Packet) : Routine Out (RuleAction × Pid) := do
  let pid ← find p
  let action ← ownerAction F cfg p pid
  pure (action, pid)

/-- The rules are not asked about DNS unless it goes through the proxy. -/
def askRules {Out : Type} (check : Packet → Routine Out (RuleAction × Pid)) (cfg : Settings)
    (p : Packet) : Routine Out (RuleAction × Pid) :=
  if p.dstPort = 53 && !cfg.dnsViaProxy then pure (.direct, 0) else check p

/-- The action for a packet, and the owner found. A packet to be proxied is sent directly if
its destination is exempt. -/
def actionFor {Out : Type} (check : Packet → Routine Out (RuleAction × Pid))
    (isExempt : Packet → Bool) (cfg : Settings) (p : Packet) : Routine Out (RuleAction × Pid) := do
  let (action, pid) ← askRules check cfg p
  pure (if action = .proxy && isExempt p then .direct else action, pid)

def ruleDecision (F : Filters) (cfg : Settings) (env : Environment) (p : Packet) (owner : Pid) :
    RuleAction :=
  if p.dstPort = 53 && !cfg.dnsViaProxy then .direct else ownerDecision F cfg env p owner

def decisionFor (F : Filters) (isExempt : Packet → Bool) (cfg : Settings) (env : Environment)
    (p : Packet) (owner : Pid) : RuleAction :=
  if ruleDecision F cfg env p owner = .proxy && isExempt p then .direct
  else ruleDecision F cfg env p owner

variable {Out : Type} {find : Packet → Routine Out Pid} (F : Filters) (isExempt : Packet → Bool)
  (cfg : Settings) (env : Environment) (p : Packet) (pid : Pid)

/-- Deciding looks up the owner and the name of its process, and nothing else. -/
theorem actionFor_all {P : Op Out → Prop} (hname : ∀ pid, P (.processName pid))
    (hfind : (find p).All P) : (actionFor (checkOwner find F cfg) isExempt cfg p).All P := by
  have howner : ∀ pid, (ownerAction F cfg p pid : Routine Out _).All P := by
    intro pid
    unfold ownerAction
    split_ifs
    · trivial
    · trivial
    · refine .bind ⟨hname pid, fun _ => trivial⟩ fun name => ?_
      cases name <;> trivial
  refine .bind ?_ fun _ => trivial
  unfold askRules
  split_ifs
  · trivial
  · exact .bind hfind fun pid => .bind (howner pid) fun _ => trivial

theorem actionFor_internal (hfind : (find p).All Op.IsInternal) :
    (actionFor (checkOwner find F cfg) isExempt cfg p).All Op.IsInternal :=
  actionFor_all F isExempt cfg p (fun _ => trivial) hfind

theorem eval_ownerAction (pf : Platform) (s : Shared) (outs : List Out) :
    (ownerAction F cfg p pid).eval (Shared.handle pf env) (s, outs) =
      (ownerDecision F cfg env p pid, s, outs) := by
  unfold ownerAction ownerDecision
  split_ifs
  · rfl
  · rfl
  · simp only [processName, Code.perform_bind, Code.eval_call, Shared.handle, Shared.perform]
    cases env.processName pid <;> rfl

theorem eval_actionFor {pf : Platform} {owner : Pid} {s : Shared} {outs : List Out}
    (hfind : (find p).eval (Shared.handle pf env) (s, outs) = (owner, s, outs)) :
    ∃ pid, (actionFor (checkOwner find F cfg) isExempt cfg p).eval (Shared.handle pf env)
      (s, outs) = ((decisionFor F isExempt cfg env p owner, pid), s, outs) := by
  by_cases hdns : (p.dstPort = 53 && !cfg.dnsViaProxy) = true
  · refine ⟨0, ?_⟩
    simp only [actionFor, askRules, decisionFor, ruleDecision, if_pos hdns]
    rfl
  · refine ⟨owner, ?_⟩
    simp only [actionFor, askRules, decisionFor, ruleDecision, if_neg hdns, Code.eval_bind,
      checkOwner, hfind, eval_ownerAction]
    rfl

theorem eval_decided {pf : Platform} {owner : Pid} {s : Shared}
    (hfind : (find p).eval (Shared.handle pf env) (s, []) = (owner, s, []))
    {log : Pid → RuleAction → Routine Out Unit}
    (hlog : ∀ pid action, (log pid action).All Op.IsInternal)
    (carryOut : RuleAction → Routine Out Unit) :
    ∃ s' : Shared, s'.table = s.table ∧
      Code.eval (Shared.handle pf env) (do
          let (action, pid) ← actionFor (checkOwner find F cfg) isExempt cfg p
          log pid action
          carryOut action) (s, []) =
        (carryOut (decisionFor F isExempt cfg env p owner)).eval (Shared.handle pf env)
          (s', []) := by
  obtain ⟨pid, hpid⟩ := eval_actionFor F isExempt cfg env p hfind
  obtain ⟨s', htable, hs'⟩ := Shared.eval_internal_bind pf env
    (hlog pid (decisionFor F isExempt cfg env p owner)) (carryOut _) s
  refine ⟨s', htable, ?_⟩
  rw [← hs', Code.eval_bind, hpid]

/-- Without active rules nothing but the direct way is decided. -/
theorem decisionFor_of_inactive (h : hasActiveRules cfg.rules = false) :
    decisionFor F isExempt cfg env p pid = .direct := by
  have hrule : ruleDecision F cfg env p pid = .direct := by
    unfold ruleDecision ownerDecision
    split_ifs
    · rfl
    · rfl
    · rfl
    · cases env.processName pid with
      | none => rfl
      | some name => simp [namedDecision, matchRule_of_inactive _ h]
  simp [decisionFor, hrule]

end ProxyTun
