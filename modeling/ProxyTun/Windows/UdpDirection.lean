import ProxyTun.Windows.TcpRedirection

/-!
# The direction of redirected datagrams

The history keeps, beside the engine, every datagram that has been redirected, and whether
its source port was tracked. The branch for untracked ports leaves a datagram of a loopback
source outbound. The branch for tracked ports turns every datagram round.
-/
namespace ProxyTun.Windows.UdpDirection
open Library Library.Transition Routine

/-- A datagram as it was captured and as it was sent to the relay, and whether the branch for
tracked ports sent it. -/
structure Redirection where
  captured : Packet
  sent : Packet
  tracked : Bool
  deriving DecidableEq, Repr

structure State where
  engine : Engine Frame Output
  /-- What each thread has been told of the source port of the packet it is working on. -/
  answered : Fin 4 → Option Bool
  /-- The redirected datagrams, the oldest first. -/
  redirections : List Redirection

def State.initial (clock : Tick) : State := ⟨.initial clock, fun _ => none, []⟩

/-- The history after a step, with the engine still as it was before the step. -/
def observe (s : State) (l : EngineLabel Frame) : State :=
  match l with
  | .receive i _ => { s with answered := Function.update s.answered i none }
  | .proceed i _ => match s.engine.issues l with
    | some (_, .isConnectionTracked q) => { s with
        answered := Function.update s.answered i (some (s.engine.table.isConnectionTracked q)) }
    | some (.ipv4 p, .emit (.send .toRelay q)) =>
      if p.transport.isUdp then
        { s with redirections := s.redirections ++ [⟨p, q, s.answered i = some true⟩] }
      else s
    | _ => s
  | _ => s

variable (cfg : Settings)

def step (s : State) (l : EngineLabel Frame) : Option State :=
  (s.engine.step .windows (packetProcessor cfg) l).map fun e => { observe s l with engine := e }

/-- A UDP flow: its source and its destination. -/
abbrev Flow := (Ip × Port) × (Ip × Port)

/-- The rules have sent a datagram of the flow to the relay. -/
def Redirection.Opens (r : Redirection) (f : Flow) : Prop :=
  ends r.captured = f ∧ r.tracked = false

/-- A datagram of the flow has been sent to the relay because its port was tracked. -/
def Redirection.Continues (r : Redirection) (f : Flow) : Prop :=
  ends r.captured = f ∧ r.tracked = true

/-- The packet stays outbound between two addresses of the local machine. -/
def StaysLocal (q : Packet) : Prop := q.outbound = true ∧ bothLoopback q = true

/-- The datagrams that continue the flow have the direction of the one before them that opened
it, and those of a loopback source stay local. -/
def Uniform (s : State) (f : Flow) : Prop :=
  s.redirections.Pairwise fun first later => first.Opens f → later.Continues f →
    later.sent.outbound = first.sent.outbound ∧
      (isLoopback f.1.1 = true → StaysLocal first.sent ∧ StaysLocal later.sent)

/-- What the two branches make of a datagram. -/
def rewritten (tracked : Bool) (p : Packet) : Packet :=
  if tracked then redirectTrackedUdp p else redirectUdp p

/-- Once its thread knows whether its port is tracked, a datagram goes to the relay as the
answer demands. -/
def Obeys (tracked : Bool) (p : Packet) : Op Output → Prop
  | .isConnectionTracked _ => False
  | .emit (.send .toRelay q) => q = rewritten tracked p
  | _ => True

/-- The operation neither asks whether a port is tracked nor redirects. -/
def KeepsRoute : Op Output → Prop
  | .isConnectionTracked _ => False
  | .emit (.send .toRelay _) => False
  | _ => True

/-- The rest of the code for a datagram, by what its thread has been told. -/
def CodeFor (p : Packet) : Option Bool → Work Unit → Prop
  | some tracked, c => c.All (Obeys tracked p)
  | none, c => c.All KeepsRoute ∨ ∃ next, c = .call (.isConnectionTracked p.srcPort) next ∧
      ∀ tracked, (next tracked).All (Obeys tracked p)

theorem obeys_of_internal (tracked : Bool) (p : Packet) (op : Op Output) (h : op.IsInternal) :
    Obeys tracked p op := by
  cases op <;> first | exact h.elim | trivial

theorem processUntracked_obeys (p : Packet) :
    (processUntracked cfg redirectUdp p).All (Obeys false p) :=
  processUntracked_all cfg (obeys_of_internal false p) trivial trivial rfl

/-- A pass for a datagram does not redirect it, or starts by asking for its port. -/
theorem packetProcessor_codeFor {p : Packet} (hudp : p.transport = .udp) :
    CodeFor p none (packetProcessor cfg (.ipv4 p)) := by
  by_cases hout : p.outbound = true
  · by_cases hport : p.srcPort = localUdpRelayPort
    · left
      simp only [packetProcessor, hout, hudp, processOutboundUdp, if_pos hport, if_true]
      exact ⟨trivial, fun found => ⟨trivial, fun _ => trivial⟩⟩
    · right
      refine ⟨fun tracked => if tracked then emit (.send .toRelay (redirectTrackedUdp p))
        else processUntracked cfg redirectUdp p, ?_, ?_⟩
      · simp only [packetProcessor, hout, hudp, processOutboundUdp, if_neg hport, if_true]
        rfl
      · intro tracked
        cases tracked with
        | true => exact ⟨rfl, fun _ => trivial⟩
        | false => exact processUntracked_obeys cfg p
  · left
    simp only [packetProcessor, if_neg hout]
    exact ⟨trivial, fun _ => trivial⟩

/-- The threads do as they have been told, and so did they with every redirected datagram. -/
structure Invariant (s : State) : Prop where
  code : ∀ i p, (s.engine.threads i).received = some (.ipv4 p) → p.transport = .udp →
    CodeFor p (s.answered i) (s.engine.threads i).code
  sent : ∀ r ∈ s.redirections, r.sent = rewritten r.tracked r.captured

theorem invariant_initial (clock : Tick) : Invariant (.initial clock) :=
  ⟨fun _ _ h => (Option.some_ne_none _ h.symm).elim, fun r hr => by simp [State.initial] at hr⟩

section Step

variable {cfg} {s : State} {e : Engine Frame Output} {l : EngineLabel Frame}

/-- Only the question for a port changes what a thread has been told of it. -/
theorem answered_observe {i : Fin 4} {env : Environment} {input : Frame} {op : Op Output}
    (hissues : s.engine.issues (.proceed i env) = some (input, op))
    (hop : ∀ q, op ≠ .isConnectionTracked q) :
    (observe s (.proceed i env)).answered = s.answered := by
  simp only [observe, hissues]
  split
  · next q heq =>
    simp only [Option.some.injEq, Prod.mk.injEq] at heq
    exact absurd heq.2 (hop q)
  · split_ifs <;> rfl
  · rfl

/-- A thread that executes its next operation goes on as it has been told. -/
theorem code_proceed (hs : Invariant s) {i : Fin 4} {env : Environment}
    (h : s.engine.step .windows (packetProcessor cfg) (.proceed i env) = some e) {p : Packet}
    (hreceived : (e.threads i).received = some (.ipv4 p)) (hudp : p.transport = .udp) :
    CodeFor p ((observe s (.proceed i env)).answered i) (e.threads i).code := by
  obtain ⟨input, op, next, hi, hissues, hafter, -⟩ := Engine.thread_proceed h
  rw [hafter] at hreceived ⊢
  obtain rfl := Option.some.inj hreceived
  have hcode := hs.code i p (by rw [hi]) hudp
  rw [hi] at hcode
  cases hanswer : s.answered i with
  | some tracked =>
    rw [hanswer] at hcode
    have hop : ∀ q, op ≠ .isConnectionTracked q := by
      rintro q rfl
      exact hcode.1
    rw [answered_observe hissues hop, hanswer]
    exact hcode.2 _
  | none =>
    rw [hanswer] at hcode
    rcases hcode with hkeeps | ⟨next', hcall, hobeys⟩
    · have hop : ∀ q, op ≠ .isConnectionTracked q := by
        rintro q rfl
        exact hkeeps.1
      rw [answered_observe hissues hop, hanswer]
      exact .inl (hkeeps.2 _)
    · obtain ⟨rfl, hnext⟩ := Code.call.inj hcall
      obtain rfl := eq_of_heq hnext
      simp only [observe, hissues, Function.update_self]
      exact hobeys _

theorem code_step (hs : Invariant s)
    (h : s.engine.step .windows (packetProcessor cfg) l = some e) {j : Fin 4} {p : Packet}
    (hreceived : (e.threads j).received = some (.ipv4 p)) (hudp : p.transport = .udp) :
    CodeFor p ((observe s l).answered j) (e.threads j).code := by
  cases l with
  | receive i f =>
    obtain ⟨-, rfl⟩ := Engine.step_receive h
    by_cases hj : j = i
    · subst hj
      simp only [observe, Function.update_self] at hreceived ⊢
      obtain rfl := Option.some.inj hreceived
      exact packetProcessor_codeFor cfg hudp
    · simp only [observe, Function.update_of_ne hj] at hreceived ⊢
      exact hs.code j p hreceived hudp
  | proceed i env =>
    by_cases hj : j = i
    · subst hj
      exact code_proceed hs h hreceived hudp
    · obtain ⟨-, -, -, -, -, -, hothers⟩ := Engine.thread_proceed h
      have hanswered : (observe s (.proceed i env)).answered j = s.answered j := by
        simp only [observe]
        split
        · exact Function.update_of_ne hj ..
        · split_ifs <;> rfl
        · rfl
      rw [hothers j hj] at hreceived ⊢
      rw [hanswered]
      exact hs.code j p hreceived hudp
  | _ =>
    have hthreads : e.threads = s.engine.threads :=
      Engine.threads_of_other h (fun _ _ hl => by cases hl) fun _ _ hl => by cases hl
    rw [hthreads] at hreceived ⊢
    exact hs.code j p hreceived hudp

/-- A datagram goes to the relay only once its thread knows whether its port is tracked. -/
theorem rewritten_of_emit (hs : Invariant s) {i : Fin 4} {env : Environment} {p q : Packet}
    (hissues : s.engine.issues (.proceed i env) = some (.ipv4 p, .emit (.send .toRelay q)))
    (hudp : p.transport = .udp) :
    ∃ tracked, s.answered i = some tracked ∧ q = rewritten tracked p := by
  obtain ⟨next, hi⟩ := Engine.issues_proceed hissues
  have hcode := hs.code i p (by rw [hi]) hudp
  rw [hi] at hcode
  cases hanswer : s.answered i with
  | some tracked =>
    rw [hanswer] at hcode
    exact ⟨tracked, rfl, hcode.1⟩
  | none =>
    rw [hanswer] at hcode
    rcases hcode with hkeeps | ⟨next', hcall, -⟩
    · exact hkeeps.1.elim
    · cases hcall

/-- A datagram that a step redirects is rewritten by the branch that its thread was told to
take. -/
theorem sent_step (hs : Invariant s) {r : Redirection} (hr : r ∈ (observe s l).redirections) :
    r.sent = rewritten r.tracked r.captured := by
  cases l with
  | proceed i env =>
    simp only [observe] at hr
    split at hr
    · exact hs.sent r hr
    · next p q hissues =>
      split_ifs at hr with hudp
      · rcases List.mem_append.mp hr with hold | hnew
        · exact hs.sent r hold
        · obtain rfl := List.mem_singleton.mp hnew
          obtain ⟨tracked, hanswer, rfl⟩ :=
            rewritten_of_emit hs hissues ((Transport.isUdp_eq_true_iff _).mp hudp)
          cases tracked <;> simp [hanswer]
      · exact hs.sent r hr
    · exact hs.sent r hr
  | _ => exact hs.sent r hr

end Step

variable {cfg}

theorem invariant_step {s t : State} {l : EngineLabel Frame} (hs : Invariant s)
    (h : step cfg s l = some t) : Invariant t := by
  obtain ⟨e, he, rfl⟩ := Option.map_eq_some_iff.mp h
  exact ⟨fun j p => code_step hs he, fun r => sent_step hs⟩

theorem sent_of_run (clock : Tick) {ls : List (EngineLabel Frame)} {s : State}
    (hrun : run (step cfg) (.initial clock) ls = some s) :
    ∀ r ∈ s.redirections, r.sent = rewritten r.tracked r.captured :=
  (run_invariant (I := Invariant) (fun _ _ _ => invariant_step) hrun (invariant_initial clock)).sent

/-- The branch for untracked ports alone looks at the source. -/
@[simp] theorem outbound_rewritten (tracked : Bool) (p : Packet) :
    (rewritten tracked p).outbound = (!tracked && isLoopback p.srcAddr) := by
  cases tracked <;> rfl

/-- In every run, with any tables and any mixture of threads, a flow is uniform exactly when its
source is not loopback or none of its datagrams meets a tracked port after the rules have
redirected one. -/
theorem uniform_iff (clock : Tick) {ls : List (EngineLabel Frame)} {s : State}
    (hrun : run (step cfg) (.initial clock) ls = some s) (f : Flow) :
    Uniform s f ↔ isLoopback f.1.1 = false ∨
      s.redirections.Pairwise fun first later => first.Opens f → ¬ later.Continues f := by
  have hsent := sent_of_run clock hrun
  have houtbound : ∀ r ∈ s.redirections, ends r.captured = f →
      r.sent.outbound = (!r.tracked && isLoopback f.1.1) := by
    rintro r hr rfl
    rw [hsent r hr, outbound_rewritten]
    rfl
  cases hsource : isLoopback f.1.1 with
  | false =>
    refine ⟨fun _ => .inl rfl, fun _ => List.pairwise_of_forall_mem_list ?_⟩
    intro first hfirst later hlater hopens hcontinues
    rw [houtbound first hfirst hopens.1, houtbound later hlater hcontinues.1, hsource]
    simp
  | true =>
    rw [Uniform, or_iff_right (by decide)]
    apply List.Pairwise.iff_of_mem
    intro first later hfirst hlater
    refine forall_congr' fun hopens => forall_congr' fun hcontinues => ?_
    rw [iff_false]
    intro hsame
    have hlocal := (hsame.2 hsource).2.1
    rw [houtbound later hlater hcontinues.1, hcontinues.2] at hlocal
    cases hlocal

/-- The settings of a user who sends what is addressed to the local machine through the proxy
as well. -/
def proxyLoopback : Settings := { Settings.proxyEverything with localhostViaProxy := true }

/-- The same datagram is sent twice. -/
def sentTwice (p : Packet) : List (EngineLabel Frame) :=
  EngineLabel.processed (.ipv4 p) 5 ++ EngineLabel.processed (.ipv4 p) 2

theorem uniform_toRemote :
    ∃ s, run (step proxyLoopback) (.initial 0) (sentTwice toRemote) = some s ∧
      s.redirections = [⟨toRemote, redirectUdp toRemote, false⟩,
        ⟨toRemote, redirectTrackedUdp toRemote, true⟩] ∧ Uniform s (ends toRemote) := by
  obtain ⟨s, hs, hredirections⟩ := Option.map_eq_some_iff.mp (show
    (run (step proxyLoopback) (.initial 0) (sentTwice toRemote)).map State.redirections =
      some [⟨toRemote, redirectUdp toRemote, false⟩,
        ⟨toRemote, redirectTrackedUdp toRemote, true⟩]
    by decide +kernel)
  exact ⟨s, hs, hredirections, (uniform_iff 0 hs _).mpr (.inl (by decide))⟩

def fromLoopback : Packet := ⟨loopback, loopback, 5000, 1000, true, .udp, [42]⟩

/-- Of two datagrams from 127.0.0.1 to itself the first stays outbound and the second turns
inbound. -/
theorem not_uniform_loopback :
    ¬ ∀ (cfg : Settings) (clock : Tick) (ls : List (EngineLabel Frame)) (s : State),
      run (step cfg) (.initial clock) ls = some s → ∀ f : Flow, Uniform s f := by
  intro huniform
  obtain ⟨s, hs, hredirections⟩ := Option.map_eq_some_iff.mp (show
    (run (step proxyLoopback) (.initial 0) (sentTwice fromLoopback)).map State.redirections =
      some [⟨fromLoopback, redirectUdp fromLoopback, false⟩,
        ⟨fromLoopback, redirectTrackedUdp fromLoopback, true⟩]
    by decide +kernel)
  have hpair := huniform proxyLoopback 0 _ s hs (ends fromLoopback)
  rw [Uniform, hredirections, List.pairwise_pair] at hpair
  have hdirection : (redirectTrackedUdp fromLoopback).outbound =
      (redirectUdp fromLoopback).outbound := (hpair ⟨rfl, rfl⟩ ⟨rfl, rfl⟩).1
  revert hdirection
  decide

end ProxyTun.Windows.UdpDirection
