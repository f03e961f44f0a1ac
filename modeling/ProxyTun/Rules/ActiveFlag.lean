import ProxyTun.Core.Filters
import ProxyTun.Library.Transition
import ProxyTun.Rules.Editing

/-!
# The flag behind the packet loops' shortcut

`update_has_active_rules` clears `g_has_active_rules` and sets it again when its walk over the
rules comes to one that is enabled. The packet threads read the flag without a lock, also between
the two stores.
-/
namespace ProxyTun
open Library.Transition
open Windows (RuleStore RuleFields Allocation)

/-- Where the call under way stands. -/
inductive Progress where
  | idle
  /-- The rules are changed, and `update_has_active_rules` is about to start. -/
  | changed
  /-- The flag is cleared, and the walk is about to look at these rules. -/
  | walking (rest : List Rule)
  /-- `ProxyBridge_Stop` has freed the rules. -/
  | freed
  deriving DecidableEq, Repr

structure RuleState where
  store : RuleStore
  /-- `g_has_active_rules`. -/
  hasActive : Bool
  progress : Progress
  deriving DecidableEq, Repr

def RuleState.initial : RuleState := ⟨.empty, false, .idle⟩

/-- `ProxyTun_Start` and `ProxyTun_MoveRuleToPosition` are calls of the Windows engine, and
`ProxyBridge_Stop` is one of the Linux engine. -/
inductive RuleCall where
  | addRule (allocation : Allocation) (fields : RuleFields)
  | enableRule (ruleId : BitVec 32)
  | disableRule (ruleId : BitVec 32)
  | editRule (copied : Bool) (ruleId : BitVec 32) (fields : RuleFields)
  | deleteRule (ruleId : BitVec 32)
  | moveRuleToPosition (ruleId newPosition : BitVec 32)
  | start (succeeds : Bool)
  | stop (running : Bool)
  deriving DecidableEq, Repr

variable {pf : Platform}

theorem hasActiveRules_perm {rules rules' : List Rule} (h : rules.Perm rules') :
    hasActiveRules rules = hasActiveRules rules' :=
  h.any_eq

theorem hasActiveRules_updateRule {f : Rule → Rule} (hf : ∀ rule, (f rule).enabled = rule.enabled)
    (ruleId : BitVec 32) (rules : List Rule) :
    hasActiveRules (Windows.updateRule ruleId f rules) = hasActiveRules rules := by
  have hmap := congrArg (List.any · id) (Windows.map_updateRule Rule.enabled hf ruleId rules)
  simpa [hasActiveRules, List.any_map] using hmap

theorem enabled_edited (copied : Bool) (fields : RuleFields) (rule : Rule) :
    (RuleStore.edited copied fields rule).enabled = rule.enabled := by
  cases copied <;> rfl

/-- An edit does not touch the switches, even if it fails halfway. -/
theorem hasActiveRules_editRule (copied : Bool) (ruleId : BitVec 32) (fields : RuleFields)
    (store : RuleStore) :
    hasActiveRules ((ruleApi pf).editRule copied ruleId fields store).2.rules =
      hasActiveRules store.rules := by
  cases pf with
  | windows =>
    simp only [ruleApi, RuleStore.editRule]
    split_ifs
    · exact hasActiveRules_updateRule (enabled_edited copied fields) ruleId store.rules
    · rfl
  | linux =>
    simp only [ruleApi, Linux.editRule]
    split_ifs
    · rfl
    · exact hasActiveRules_updateRule (enabled_edited true fields) ruleId store.rules
    · rfl

theorem rules_addRule_of_not_taken {allocation : Allocation} {fields : RuleFields}
    (h : RuleStore.taken allocation fields = false) (store : RuleStore) :
    ((ruleApi pf).addRule allocation fields store).2.rules = store.rules := by
  cases pf <;> exact (RuleStore.addRule_of_not_taken h).2.1

theorem setEnabled_of_fails {store : RuleStore} {ruleId : BitVec 32} {enabled : Bool}
    (h : (store.setEnabled enabled ruleId).1 = false) :
    (store.setEnabled enabled ruleId).2 = store := by
  unfold RuleStore.setEnabled at h ⊢
  split_ifs at h ⊢
  rfl

theorem hasActiveRules_move {store : RuleStore} {ruleId : BitVec 32} {newPosition : ℕ}
    {r : Bool × RuleStore} (h : store.moveRuleToPosition ruleId newPosition = some r) :
    hasActiveRules r.2.rules = hasActiveRules store.rules := by
  obtain ⟨-, hsame, -⟩ | ⟨-, -, -, -, rule, -, hperm, hrules⟩ :=
    RuleStore.moveRuleToPosition_cases h
  · rw [hsame]
  · exact hasActiveRules_perm (RuleStore.perm_moved hperm hrules)

namespace RuleState

/-- The call goes on to `update_has_active_rules` if it got that far, else it returns. -/
def changeTo (s : RuleState) (updates : Bool) (store : RuleStore) : RuleState :=
  { s with store := store, progress := if updates then .changed else .idle }

/-- What a call does to the rules, up to its update of the flag. -/
def call (pf : Platform) (s : RuleState) : RuleCall → Option RuleState
  | .addRule allocation fields =>
    some (s.changeTo (RuleStore.taken allocation fields)
      ((ruleApi pf).addRule allocation fields s.store).2)
  | .enableRule ruleId =>
    let r := (ruleApi pf).enableRule ruleId s.store
    some (s.changeTo r.1 r.2)
  | .disableRule ruleId =>
    let r := (ruleApi pf).disableRule ruleId s.store
    some (s.changeTo r.1 r.2)
  | .editRule copied ruleId fields =>
    let r := (ruleApi pf).editRule copied ruleId fields s.store
    some (s.changeTo r.1 r.2)
  | .deleteRule ruleId =>
    let r := (ruleApi pf).deleteRule ruleId s.store
    some (s.changeTo r.1 r.2)
  | .moveRuleToPosition ruleId newPosition =>
    match pf with
    | .windows => (s.store.moveRuleToPosition ruleId newPosition.toNat).map fun r =>
        s.changeTo false r.2
    | .linux => none
  | .start succeeds =>
    match pf with
    | .windows => some (s.changeTo succeeds s.store)
    | .linux => none
  | .stop running =>
    match pf with
    | .windows => none
    | .linux => some (if running then
        { s with store := (Linux.stop running s.store).2, progress := .freed } else s)

/-- The next step of the call under way: `update_has_active_rules`, one store or one rule at a
time, or the store at the end of `ProxyBridge_Stop`. -/
def proceed (s : RuleState) : Option RuleState :=
  match s.progress with
  | .idle => none
  | .changed => some { s with hasActive := false, progress := .walking s.store.rules }
  | .walking [] => some { s with progress := .idle }
  | .walking (rule :: rest) =>
    if rule.enabled then some { s with hasActive := true, progress := .idle }
    else some { s with progress := .walking rest }
  | .freed => some { s with hasActive := false, progress := .idle }

inductive Act where
  | call (c : RuleCall)
  | proceed
  /-- A packet thread asks for the shortcut, with a connection callback set or not. -/
  | packet (connectionCallback : Bool)
  deriving DecidableEq, Repr

/-- Calls come one after the other, and packets at any time. -/
def step (pf : Platform) (s : RuleState) : Act → Option RuleState
  | .call c => if s.progress = .idle then s.call pf c else none
  | .proceed => s.proceed
  | .packet _ => some s

/-- `!g_has_active_rules && g_connection_callback == NULL`. -/
def takesShortcut (s : RuleState) (connectionCallback : Bool) : Bool :=
  !s.hasActive && !connectionCallback

/-- A packet that takes the shortcut finds no enabled rule. -/
def NoRules (s : RuleState) : Act → Prop
  | .packet connectionCallback => s.takesShortcut connectionCallback = true →
      ∀ rule ∈ s.store.rules, rule.enabled = false
  | _ => True

/-- The rules would have left a packet that takes the shortcut alone, wherever it comes from and
goes to. -/
def Direct (pf : Platform) (s : RuleState) : Act → Prop
  | .packet connectionCallback => s.takesShortcut connectionCallback = true → ∀ c : Connection,
      matchRule (filters pf) s.store.rules c.process c.destIp c.destPort c.isUdp = .direct
  | _ => True

/-- A packet without a callback finds no enabled rule, or no call under way, or one that has not
reached its update and left the flag set. -/
def Settled (s : RuleState) : Act → Prop
  | .packet connectionCallback => connectionCallback = true ∨
      hasActiveRules s.store.rules = false ∨ s.progress = .idle ∨
        s.progress = .changed ∧ s.hasActive = true
  | _ => True

instance (s : RuleState) : ∀ a, Decidable (s.Settled a)
  | .call _ | .proceed => .isTrue trivial
  | .packet connectionCallback => inferInstanceAs (Decidable (connectionCallback = true ∨ _))

/-- What the flag says at each point of a call. -/
def Current (s : RuleState) : Prop :=
  match s.progress with
  | .idle => s.hasActive = hasActiveRules s.store.rules
  | .changed => True
  | .walking rest => s.hasActive = false ∧ hasActiveRules rest = hasActiveRules s.store.rules
  | .freed => s.store.rules = []

variable {s t : RuleState}

/-- A call that does not update the flag leaves the switches of the rules as they are. -/
theorem current_changeTo (hs : s.Current) (hidle : s.progress = .idle) {updates : Bool}
    {store : RuleStore}
    (hsame : updates = false → hasActiveRules store.rules = hasActiveRules s.store.rules) :
    (s.changeTo updates store).Current := by
  simp only [Current, hidle] at hs
  cases updates with
  | true => exact trivial
  | false => exact hs.trans (hsame rfl).symm

theorem Current.call {c : RuleCall} (hs : s.Current) (hidle : s.progress = .idle)
    (h : s.call pf c = some t) : t.Current := by
  cases c with
  | addRule allocation fields =>
    obtain rfl := Option.some.inj h
    exact current_changeTo hs hidle fun htaken => by rw [rules_addRule_of_not_taken htaken]
  | enableRule ruleId =>
    obtain rfl := Option.some.inj h
    refine current_changeTo hs hidle fun hfails => ?_
    cases pf <;> exact congrArg (hasActiveRules ·.rules) (setEnabled_of_fails hfails)
  | disableRule ruleId =>
    obtain rfl := Option.some.inj h
    refine current_changeTo hs hidle fun hfails => ?_
    cases pf <;> exact congrArg (hasActiveRules ·.rules) (setEnabled_of_fails hfails)
  | editRule copied ruleId fields =>
    obtain rfl := Option.some.inj h
    exact current_changeTo hs hidle fun _ => hasActiveRules_editRule copied ruleId fields s.store
  | deleteRule ruleId =>
    obtain rfl := Option.some.inj h
    refine current_changeTo hs hidle fun hfails => ?_
    cases pf <;>
      exact congrArg (hasActiveRules ·.2.rules) (RuleStore.deleteRule_of_fails hfails)
  | moveRuleToPosition ruleId newPosition =>
    cases pf with
    | windows =>
      obtain ⟨r, hr, rfl⟩ := Option.map_eq_some_iff.mp h
      exact current_changeTo hs hidle fun _ => hasActiveRules_move hr
    | linux => cases h
  | start succeeds =>
    cases pf with
    | windows =>
      obtain rfl := Option.some.inj h
      exact current_changeTo hs hidle fun _ => rfl
    | linux => cases h
  | stop running =>
    cases pf with
    | windows => cases h
    | linux =>
      obtain rfl := Option.some.inj h
      cases running with
      | true => exact rfl
      | false => exact hs

theorem Current.proceed (hs : s.Current) (h : s.proceed = some t) : t.Current := by
  obtain ⟨store, hasActive, progress⟩ := s
  match progress, hs with
  | .idle, _ => cases h
  | .changed, _ =>
    obtain rfl := Option.some.inj h
    exact ⟨rfl, rfl⟩
  | .walking [], ⟨hcleared, hrest⟩ =>
    obtain rfl := Option.some.inj h
    exact hcleared.trans hrest
  | .walking (rule :: rest), ⟨hcleared, hrest⟩ =>
    simp only [RuleState.proceed] at h
    simp only [hasActiveRules, List.any_cons] at hrest
    split_ifs at h with henabled
    · obtain rfl := Option.some.inj h
      rw [henabled, Bool.true_or] at hrest
      exact hrest
    · obtain rfl := Option.some.inj h
      rw [Bool.not_eq_true] at henabled
      rw [henabled, Bool.false_or] at hrest
      exact ⟨hcleared, hrest⟩
  | .freed, hfreed =>
    obtain rfl := Option.some.inj h
    simp only [Current] at hfreed ⊢
    rw [hfreed]
    rfl

theorem Current.step {a : Act} (hs : s.Current) (h : s.step pf a = some t) : t.Current := by
  cases a with
  | call c =>
    simp only [RuleState.step] at h
    split_ifs at h with hidle
    exact hs.call hidle h
  | proceed => exact hs.proceed h
  | packet connectionCallback =>
    obtain rfl := Option.some.inj h
    exact hs

/-- The shortcut is right exactly for the packets that come at a settled time. -/
theorem noRules_iff_settled (hs : s.Current) (a : Act) : s.NoRules a ↔ s.Settled a := by
  cases a with
  | call c => exact Iff.rfl
  | proceed => exact Iff.rfl
  | packet connectionCallback =>
    have hnone : (∀ rule ∈ s.store.rules, rule.enabled = false) ↔
        hasActiveRules s.store.rules = false := by
      simp [hasActiveRules]
    simp only [NoRules, Settled, hnone, takesShortcut]
    obtain ⟨store, hasActive, progress⟩ := s
    cases connectionCallback with
    | true => simp
    | false =>
      cases progress with
      | idle => cases hasActive <;> simp_all [Current]
      | changed => cases hasActive <;> simp
      | walking rest =>
        obtain ⟨hcleared, -⟩ := hs
        simp_all
      | freed => simp_all [Current, hasActiveRules]

theorem NoRules.direct {a : Act} (h : s.NoRules a) : s.Direct pf a := by
  cases a with
  | call c => trivial
  | proceed => trivial
  | packet connectionCallback =>
    intro hshortcut c
    have hnone : hasActiveRules s.store.rules = false := by
      simpa [hasActiveRules] using h hshortcut
    exact matchRule_of_inactive (filters pf) hnone c.process c.destIp c.destPort c.isUdp

theorem walk_ends (store : RuleStore) (rest : List Rule) (hasActive : Bool) :
    ∃ n t, run (step pf) ⟨store, hasActive, .walking rest⟩ (List.replicate n .proceed) = some t ∧
      t.progress = .idle := by
  induction rest generalizing hasActive with
  | nil => exact ⟨1, _, rfl, rfl⟩
  | cons rule rest ih =>
    cases henabled : rule.enabled with
    | true => exact ⟨1, ⟨store, true, .idle⟩, by simp [run, step, proceed, henabled], rfl⟩
    | false =>
      obtain ⟨n, t, hrun, ht⟩ := ih hasActive
      exact ⟨n + 1, t, by simp [List.replicate_succ, run, step, proceed, henabled, hrun], ht⟩

theorem call_ends (s : RuleState) :
    ∃ n t, run (step pf) s (List.replicate n .proceed) = some t ∧ t.progress = .idle := by
  obtain ⟨store, hasActive, progress⟩ := s
  match progress with
  | .idle => exact ⟨0, _, rfl, rfl⟩
  | .changed =>
    obtain ⟨n, t, hrun, ht⟩ := @walk_ends pf store store.rules false
    exact ⟨n + 1, t, by simpa [List.replicate_succ, run, step, proceed] using hrun, ht⟩
  | .walking rest => exact walk_ends store rest hasActive
  | .freed => exact ⟨1, _, rfl, rfl⟩

/-- After any calls, each of which ends, the flag is set exactly when a rule is enabled. No packet
takes the shortcut past an enabled rule exactly when all of them come at a settled time, and then
the rules would have left those that take it alone. -/
theorem shortcut_sound_of_settled {acts : List Act}
    (hrun : run (step pf) .initial acts = some s) :
    (∃ n t, run (step pf) s (List.replicate n .proceed) = some t ∧ t.progress = .idle) ∧
      (s.progress = .idle → (s.hasActive = true ↔ ∃ rule ∈ s.store.rules, rule.enabled = true)) ∧
      (EachStep (step pf) (fun s a _ => s.NoRules a) .initial acts ↔
        Guarded (step pf) Settled .initial acts) ∧
      (Guarded (step pf) Settled .initial acts →
        EachStep (step pf) (fun s a _ => s.Direct pf a) .initial acts) := by
  have hcurrent : s.Current := run_invariant (fun _ _ _ hs h => hs.step h) hrun rfl
  have hiff : EachStep (step pf) (fun s a _ => s.NoRules a) .initial acts ↔
      Guarded (step pf) Settled .initial acts :=
    eachStep_iff_guarded (fun s a t hs _ _ => noRules_iff_settled hs a)
      (fun s a t hs _ h _ => hs.step h) hrun (guarded_true _ acts) (rfl : initial.Current)
  refine ⟨call_ends s, fun hidle => ?_, hiff, fun hsettled => ?_⟩
  · simp only [Current, hidle] at hcurrent
    rw [hcurrent, hasActiveRules, List.any_eq_true]
  · exact (hiff.mpr hsettled).mono fun _ _ _ hnone => hnone.direct

/-- A rule for `curl` is added, and a packet comes after that. -/
def addCurl : List Act :=
  [.call (.addRule .succeeds ⟨"curl".toList, [], [], .tcp, .proxy⟩), .proceed, .proceed,
    .packet false]

theorem shortcut_sound_of_settled_addCurl :
    EachStep (step .windows) (fun s a _ => s.Direct .windows a) .initial addCurl :=
  (shortcut_sound_of_settled (s := (run (step .windows) .initial addCurl).get (by decide))
    (Option.some_get _).symm).2.2.2 (by decide)

/-- The rule for `curl` is there, and that for `wget` is being added: `update_has_active_rules` has
cleared the flag. -/
def addWget : List Act :=
  addCurl ++ [.call (.addRule .succeeds ⟨"wget".toList, [], [], .tcp, .proxy⟩), .proceed]

/-- In between `curl` gets past its rule, on both platforms. -/
theorem shortcut_taken_in_update :
    (∃ s, run (step .windows) .initial addWget = some s ∧ s.takesShortcut false = true ∧
      matchRule (filters .windows) s.store.rules curlConnection.process curlConnection.destIp
        curlConnection.destPort curlConnection.isUdp = .proxy) ∧
    (∃ s, run (step .linux) .initial addWget = some s ∧ s.takesShortcut false = true ∧
      matchRule (filters .linux) s.store.rules curlConnection.process curlConnection.destIp
        curlConnection.destPort curlConnection.isUdp = .proxy) := by
  exact ⟨⟨_, rfl, by decide, by decide⟩, ⟨_, rfl, by decide, by decide⟩⟩

end RuleState

end ProxyTun
