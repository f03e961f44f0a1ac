import ProxyTun.Core.Rules
import ProxyTun.Library.Transition
import ProxyTun.Linux.Iptables
import ProxyTun.Relays.Association

/-!
# Starting and stopping the Linux engine

`ProxyBridge_Stop`, and a start that fails, cancel the threads of the relays and join them. A
thread that is cancelled runs no further code, so the sockets that it would close behind its loop
stay open. The client sockets that `local_proxy_server` accepts are not among them: they belong
to `connection_handler`.
-/
namespace ProxyTun.Linux.StartStop
open Library Library.Transition Association

/-- The variables for threads. -/
inductive ThreadVar where
  | proxyThread
  | cleanupThread
  | udpRelayThread
  | packetThread (i : Fin 4)
  deriving DecidableEq, Repr

inductive ThreadValue where
  | zero
  | thread
  /-- What a `pthread_create` that failed has left there. -/
  | leftover
  deriving DecidableEq, Repr

/-- What `pthread_create` does. When it fails, what its variable holds is undefined. -/
inductive Create where
  | created
  | failed (leftover : Bool)
  deriving DecidableEq, Repr

def Create.value : Create → ThreadValue
  | .created => .thread
  | .failed false => .zero
  | .failed true => .leftover

inductive ListenVar where
  | listenSock
  deriving DecidableEq, Repr

/-- The life of the thread of `local_proxy_server`. -/
structure ProxyRun where
  socket : Bool
  bind : Bool
  listen : Bool
  /-- It is cancelled in `poll`, if it does not see before that the engine stops. -/
  cancelled : Bool

/-- `local_proxy_server`, as far as its own socket is concerned. -/
def ProxyRun.finish (r : ProxyRun) (h : Handles ListenVar) : Handles ListenVar :=
  let h := h.acquire .listenSock r.socket
  if !r.socket then h
  else if !r.bind then h.close .listenSock
  else if !r.listen then h.close .listenSock
  else if r.cancelled then h.leave .listenSock
  else h.close .listenSock

/-- The thread ended by itself. -/
def ProxyRun.returned (r : ProxyRun) : Bool := !(r.socket && r.bind && r.listen && r.cancelled)

/-- Where the thread of `udp_relay_server` is cancelled. -/
inductive CancelPoint where
  /-- In `recv`, in the handshake before the loop. -/
  | firstHandshake
  /-- In `poll`. -/
  | poll
  /-- In `recv`, in the handshake for the datagram of a client. -/
  | handshake (attempt : Attempt)
  /-- In `recvfrom`, on the socket for datagrams. -/
  | receive (turn : Turn)

/-- The life of the thread of `udp_relay_server`: its passes of the loop, and where it is cancelled,
if it does not see before that the engine stops. -/
structure RelayRun where
  startup : Startup
  turns : List Turn
  cancelled : Option CancelPoint

/-- The sockets at the point where the thread is cancelled. A handshake that is not reached is the
next head of the loop. -/
def RelayRun.atCancel (r : RelayRun) (s : State) : CancelPoint → State
  | .firstHandshake =>
    let dialled := connectControl .linux r.startup.attempt (s.acquire .relay true)
    if dialled.1 then dialled.2 else atHead .linux r.startup [] s
  | .poll => atHead .linux r.startup r.turns s
  | .handshake attempt =>
    let head := atHead .linux r.startup r.turns s
    if head.connected then head else (connectControl .linux attempt head).2
  | .receive turn => (fromClient turn (atHead .linux r.startup r.turns s)).1

/-- `udp_relay_server`, up to its end or to where it is cancelled. -/
def RelayRun.finish (r : RelayRun) (s : State) : State :=
  match r.cancelled with
  | none => relayServer .linux r.startup r.turns s
  | some point =>
    if !(enterLoop .linux r.startup s).1 then (enterLoop .linux r.startup s).2
    else
      let s := r.atCancel s point
      { s with handles := s.handles.leave .tcpSock }

/-- The thread ended by itself. -/
def RelayRun.returned (r : RelayRun) : Bool :=
  !(r.startup.socket && r.startup.bind && r.cancelled.isSome)

/-- The lives of the threads that a call cancels. -/
structure Ends where
  proxy : ProxyRun
  relay : RelayRun

structure Engine where
  running : Bool
  threads : ThreadVar → ThreadValue
  /-- `nfq_h` is not NULL. -/
  nfqHandle : Bool
  /-- `nfq_qh` is not NULL. -/
  nfqQueue : Bool
  /-- The sockets of all threads of `local_proxy_server` so far. -/
  listener : Handles ListenVar
  /-- What `udp_relay_server` keeps in variables that outlive its threads. -/
  relay : State

/-- What the calls of `ProxyBridge_Start` return. -/
structure Calls where
  creates : ThreadVar → Create
  nfqOpen : Bool
  bindPf : Bool
  createQueue : Bool
  setMode : Bool
  /-- For the threads that the start cancels when it fails. -/
  ends : Ends

inductive Label where
  | start (proxyType : ProxyType) (calls : Calls)
  | stop (ends : Ends)

namespace Engine

def initial : Engine := ⟨false, fun _ => .zero, false, false, .empty, .fresh false 0⟩

def create (v : ThreadVar) (c : Create) (s : Engine) : Engine :=
  { s with threads := Function.update s.threads v c.value }

def halt (s : Engine) : Engine := { s with running := false }

/-- A thread that is there is cancelled and joined, and its variable is reset. What is left over of
a creation that failed is no thread. -/
def cancel (e : Ends) (s : Engine) (v : ThreadVar) : Engine where
  running := s.running
  threads := Function.update s.threads v .zero
  nfqHandle := s.nfqHandle
  nfqQueue := s.nfqQueue
  listener :=
    if v = .proxyThread ∧ s.threads v = .thread then e.proxy.finish s.listener else s.listener
  relay := if v = .udpRelayThread ∧ s.threads v = .thread then e.relay.finish s.relay else s.relay

def cancelAll (e : Ends) (vs : List ThreadVar) (s : Engine) : Engine := vs.foldl (cancel e) s

def closeHandle (s : Engine) : Engine := { s with nfqHandle := false }

def destroyQueue (s : Engine) : Engine := { s with nfqQueue := false }

def startFail (e : Ends) (s : Engine) : Engine :=
  s.halt.cancelAll e [.proxyThread, .cleanupThread, .udpRelayThread]

/-- The loop that creates the packet threads, of which any may be missing. -/
def createPacketThreads (creates : ThreadVar → Create) (s : Engine) : Engine :=
  (List.finRange 4).foldl (fun s i => s.create (.packetThread i) (creates (.packetThread i))) s

def openQueue (c : Calls) (s : Engine) : Engine :=
  let s := { s with nfqHandle := c.nfqOpen }
  if !c.nfqOpen then s.startFail c.ends
  else if !c.bindPf then s.closeHandle.startFail c.ends
  else
    let s := { s with nfqQueue := c.createQueue }
    if !c.createQueue then s.closeHandle.startFail c.ends
    else if !c.setMode then s.destroyQueue.closeHandle.startFail c.ends
    else s.createPacketThreads c.creates

/-- `ProxyBridge_Start`. -/
def start (proxyType : ProxyType) (c : Calls) (s : Engine) : Engine :=
  if s.running then s
  else
    let s := ({ s with running := true } : Engine).create .proxyThread (c.creates .proxyThread)
    if c.creates .proxyThread ≠ .created then s.halt
    else
      let s := s.create .cleanupThread (c.creates .cleanupThread)
      if c.creates .cleanupThread ≠ .created then s.halt.cancel c.ends .proxyThread
      else if proxyType = .socks5 then
        openQueue c (s.create .udpRelayThread (c.creates .udpRelayThread))
      else openQueue c s

/-- `ProxyBridge_Stop`. -/
def stop (e : Ends) (s : Engine) : Engine :=
  if !s.running then s
  else
    let s := s.halt.cancelAll e ((List.finRange 4).map .packetThread)
    s.destroyQueue.closeHandle.cancelAll e [.proxyThread, .udpRelayThread, .cleanupThread]

end Engine

def step (s : Engine) : Label → Option Engine
  | .start proxyType calls => some (s.start proxyType calls)
  | .stop ends => some (s.stop ends)

/-- Nothing is left of the engine. -/
structure Released (s : Engine) : Prop where
  threads : ∀ v, s.threads v = .zero
  nfqHandle : s.nfqHandle = false
  nfqQueue : s.nfqQueue = false
  listener : s.listener.unclosed = []
  relay : s.relay.handles.unclosed = []

/-- The relay threads among these have ended by themselves. -/
def Ends.returned (e : Ends) (threads : ThreadVar → ThreadValue) : Bool :=
  (threads .proxyThread ≠ .thread || e.proxy.returned) &&
    (threads .udpRelayThread ≠ .thread || e.relay.returned)

def Calls.opensQueue (c : Calls) : Bool := c.nfqOpen && c.bindPf && c.createQueue && c.setMode

/-- The threads that a start has created when it comes to the queue. -/
def Calls.threads (proxyType : ProxyType) (c : Calls) : ThreadVar → ThreadValue
  | .proxyThread => (c.creates .proxyThread).value
  | .cleanupThread => (c.creates .cleanupThread).value
  | .udpRelayThread =>
    if proxyType = .socks5 then (c.creates .udpRelayThread).value else .zero
  | .packetThread _ => .zero

/-- No relay thread is cancelled before it has ended by itself, and a failing `pthread_create` for
one of the first two threads leaves 0. -/
def orderly (s : Engine) : Label → Bool
  | .start proxyType c =>
    s.running ||
      match c.creates .proxyThread, c.creates .cleanupThread with
      | .failed leftover, _ => !leftover
      | .created, .failed leftover => !leftover && c.ends.proxy.returned
      | .created, .created => c.opensQueue || c.ends.returned (c.threads proxyType)
  | .stop e => !s.running || e.returned s.threads

/-- The sockets of the relays are as they are without a thread. -/
structure Quiet (s : Engine) : Prop where
  listenerExact : s.listener.Exact
  listenerClear : s.listener.Clear
  relay : Idle s.relay

/-- What holds between two calls. -/
structure Tidy (s : Engine) : Prop where
  quiet : Quiet s
  released : s.running = false → Released s

variable {s : Engine}

theorem Ends.returned_iff (e : Ends) {threads : ThreadVar → ThreadValue} :
    e.returned threads = true ↔
      (threads .proxyThread = .thread → e.proxy.returned = true) ∧
        (threads .udpRelayThread = .thread → e.relay.returned = true) := by
  simp [Ends.returned, imp_iff_not_or]

theorem Ends.returned_congr (e : Ends) {f g : ThreadVar → ThreadValue}
    (hproxy : f .proxyThread = g .proxyThread) (hudp : f .udpRelayThread = g .udpRelayThread) :
    e.returned f = e.returned g := by
  rw [Ends.returned, Ends.returned, hproxy, hudp]

theorem Quiet.released (h : Quiet s) (hthreads : ∀ v, s.threads v = .zero)
    (hhandle : s.nfqHandle = false) (hqueue : s.nfqQueue = false) : Released s where
  threads := hthreads
  nfqHandle := hhandle
  nfqQueue := hqueue
  listener := h.listenerExact.unclosed_eq_nil_iff.mpr h.listenerClear
  relay := h.relay.exact.unclosed_eq_nil_iff.mpr h.relay.clear

/-- The thread has closed its socket exactly if it was not cancelled. -/
theorem ProxyRun.finish_spec (r : ProxyRun) {h : Handles ListenVar} (hexact : h.Exact)
    (hclear : h.Clear) :
    (r.returned = true → (r.finish h).Exact ∧ (r.finish h).Clear) ∧
      (r.returned = false → (r.finish h).unclosed ≠ []) := by
  have hacquired := hexact.acquire (hclear .listenSock) r.socket
  rw [ProxyRun.finish, ProxyRun.returned]
  cases hsocket : r.socket with
  | false =>
    rw [hsocket] at hacquired
    exact ⟨fun _ => ⟨hacquired, hclear.acquire .listenSock⟩, nofun⟩
  | true =>
    rw [hsocket] at hacquired
    have hreturned := And.intro (hacquired.close .listenSock)
      (hclear.acquire_close .listenSock true)
    cases r.bind with
    | false => exact ⟨fun _ => hreturned, nofun⟩
    | true =>
      cases r.listen with
      | false => exact ⟨fun _ => hreturned, nofun⟩
      | true =>
        cases r.cancelled with
        | false => exact ⟨fun _ => hreturned, nofun⟩
        | true =>
          refine ⟨nofun, fun _ => ?_⟩
          have hheld : (h.acquire .listenSock true).held .listenSock ≠ none := by simp
          exact hacquired.unclosed_ne_nil hheld

/-- Wherever the thread is cancelled in its loop or in a handshake, it holds the relay's socket. -/
theorem RelayRun.atCancel_spec (r : RelayRun) {u : State} (h : Idle u)
    (hentered : (enterLoop .linux r.startup u).1 = true) (point : CancelPoint) :
    (r.atCancel u point).handles.Exact ∧ (r.atCancel u point).handles.held .relay ≠ none := by
  have hhead := sound_atHead h .linux r.startup r.turns hentered
  -- a handshake that is going on, or one that is not reached
  have hdial : ∀ {v : State}, Cut v → ∀ attempt,
      (connectControl .linux attempt v).2.handles.Exact ∧
        (connectControl .linux attempt v).2.handles.held .relay ≠ none := by
    intro v hv attempt
    obtain ⟨hcut, hdialled, -⟩ := connectControl_spec .linux hv attempt
    cases hcontrol : (connectControl .linux attempt v).1 with
    | false => exact ⟨(hcut hcontrol).exact, (hcut hcontrol).relay⟩
    | true => exact ⟨(hdialled hcontrol).exact, (hdialled hcontrol).relay⟩
  cases point with
  | firstHandshake =>
    rw [RelayRun.atCancel]
    split
    · exact hdial h.cut_acquire r.startup.attempt
    · have hfirst := sound_atHead h .linux r.startup [] hentered
      exact ⟨hfirst.exact, hfirst.relay⟩
  | poll => exact ⟨hhead.exact, hhead.relay⟩
  | handshake attempt =>
    rw [RelayRun.atCancel]
    split
    · exact ⟨hhead.exact, hhead.relay⟩
    · next hconnected => exact hdial (hhead.not_connected (by simpa using hconnected)) attempt
  | receive turn =>
    have hclient := sound_fromClient hhead turn
    exact ⟨hclient.exact, hclient.relay⟩

theorem entersLoop_linux (b : Startup) (u : State) :
    (enterLoop .linux b u).1 = (b.socket && b.bind) := by
  rw [enterLoop, if_neg (by simp)]
  cases b.socket with
  | false => rfl
  | true =>
    cases b.bind with
    | false => rfl
    | true => rfl

/-- The thread has closed its sockets exactly if it was not cancelled. -/
theorem RelayRun.finish_spec (r : RelayRun) {u : State} (h : Idle u) :
    (r.returned = true → Idle (r.finish u)) ∧
      (r.returned = false → (r.finish u).handles.unclosed ≠ []) := by
  have hspec := entersLoop_linux r.startup u
  rw [RelayRun.finish, RelayRun.returned, ← hspec]
  cases r.cancelled with
  | none => exact ⟨fun _ => idle_relayServer h .linux r.startup r.turns, by simp⟩
  | some point =>
    cases hentered : (enterLoop .linux r.startup u).1 with
    | false => exact ⟨fun _ => (enterLoop_spec h .linux r.startup).2 hentered, by simp⟩
    | true =>
      refine ⟨nofun, fun _ => ?_⟩
      obtain ⟨hexact, hheld⟩ := r.atCancel_spec h hentered point
      change ((r.atCancel u point).handles.leave .tcpSock).unclosed ≠ []
      rw [Handles.unclosed_leave]
      exact hexact.unclosed_ne_nil hheld

namespace Engine

theorem cancelAll_keeps {α : Type} (f : Engine → α) {e : Ends}
    (hf : ∀ s v, f (s.cancel e v) = f s) (vs : List ThreadVar) (s : Engine) :
    f (s.cancelAll e vs) = f s := by
  induction vs generalizing s with
  | nil => rfl
  | cons v vs ih => exact (ih (s.cancel e v)).trans (hf s v)

theorem running_cancelAll (e : Ends) (vs : List ThreadVar) (s : Engine) :
    (s.cancelAll e vs).running = s.running := cancelAll_keeps running (fun _ _ => rfl) vs s

theorem nfqHandle_cancelAll (e : Ends) (vs : List ThreadVar) (s : Engine) :
    (s.cancelAll e vs).nfqHandle = s.nfqHandle := cancelAll_keeps nfqHandle (fun _ _ => rfl) vs s

theorem nfqQueue_cancelAll (e : Ends) (vs : List ThreadVar) (s : Engine) :
    (s.cancelAll e vs).nfqQueue = s.nfqQueue := cancelAll_keeps nfqQueue (fun _ _ => rfl) vs s

theorem threads_cancelAll (e : Ends) (vs : List ThreadVar) (s : Engine) (v : ThreadVar) :
    (s.cancelAll e vs).threads v = if v ∈ vs then .zero else s.threads v := by
  induction vs generalizing s with
  | nil => rfl
  | cons w vs ih =>
    rw [cancelAll, List.foldl_cons, ← cancelAll, ih]
    by_cases hv : v ∈ vs
    · rw [if_pos hv, if_pos (List.mem_cons_of_mem w hv)]
    · rw [if_neg hv]
      by_cases hw : v = w
      · subst hw
        rw [if_pos List.mem_cons_self]
        exact Function.update_self ..
      · rw [if_neg (by simp [hv, hw])]
        exact Function.update_of_ne hw ..

/-- A thread is cancelled at most once, and what it keeps is as it leaves it. -/
theorem cancelAll_finishes {α : Type} (f : Engine → α) {e : Ends} {w : ThreadVar} {g : α → α}
    (hf : ∀ s v, f (s.cancel e v) = if v = w ∧ s.threads v = .thread then g (f s) else f s)
    (vs : List ThreadVar) (s : Engine) :
    f (s.cancelAll e vs) =
      if w ∈ vs ∧ s.threads w = .thread then g (f s) else f s := by
  induction vs generalizing s with
  | nil => simp [cancelAll]
  | cons v vs ih =>
    rw [cancelAll, List.foldl_cons, ← cancelAll, ih, hf]
    by_cases hv : v = w
    · subst hv
      simp [cancel]
    · simp [cancel, hv, Ne.symm hv]

theorem listener_cancelAll (e : Ends) (vs : List ThreadVar) (s : Engine) :
    (s.cancelAll e vs).listener =
      if .proxyThread ∈ vs ∧ s.threads .proxyThread = .thread then e.proxy.finish s.listener
      else s.listener := cancelAll_finishes listener (fun _ _ => rfl) vs s

theorem relay_cancelAll (e : Ends) (vs : List ThreadVar) (s : Engine) :
    (s.cancelAll e vs).relay =
      if .udpRelayThread ∈ vs ∧ s.threads .udpRelayThread = .thread then e.relay.finish s.relay
      else s.relay := cancelAll_finishes relay (fun _ _ => rfl) vs s

/-- Where the other variables are 0, a relay's thread that is there is cancelled. -/
theorem mem_and_thread_iff {vs : List ThreadVar} (hvs : ∀ v, v ∉ vs → s.threads v = .zero)
    (v : ThreadVar) : v ∈ vs ∧ s.threads v = .thread ↔ s.threads v = .thread := by
  refine and_iff_right_of_imp fun hthread => ?_
  by_contra hv
  rw [hvs v hv] at hthread
  cases hthread

theorem quiet_cancelAll {e : Ends} (vs : List ThreadVar) (h : Quiet s)
    (hreturned : e.returned s.threads = true) : Quiet (s.cancelAll e vs) := by
  obtain ⟨hproxy, hudp⟩ := e.returned_iff.mp hreturned
  have hlistener := (e.proxy.finish_spec h.listenerExact h.listenerClear).1
  have hrelay := (e.relay.finish_spec h.relay).1
  refine ⟨?_, ?_, ?_⟩
  · rw [listener_cancelAll]
    split_ifs with hthread
    · exact (hlistener (hproxy hthread.2)).1
    · exact h.listenerExact
  · rw [listener_cancelAll]
    split_ifs with hthread
    · exact (hlistener (hproxy hthread.2)).2
    · exact h.listenerClear
  · rw [relay_cancelAll]
    split_ifs with hthread
    · exact hrelay (hudp hthread.2)
    · exact h.relay

/-- To cancel every thread leaves nothing exactly if the relay threads have ended by themselves. -/
theorem cancelAll_spec (e : Ends) (vs : List ThreadVar) (h : Quiet s)
    (hvs : ∀ v, v ∉ vs → s.threads v = .zero) (hhandle : s.nfqHandle = false)
    (hqueue : s.nfqQueue = false) :
    (e.returned s.threads = true → Tidy (s.cancelAll e vs)) ∧
      (e.returned s.threads = false → ¬ Released (s.cancelAll e vs)) := by
  constructor
  · intro hreturned
    have hquiet := quiet_cancelAll vs h hreturned
    refine ⟨hquiet, fun _ => hquiet.released (fun v => ?_) ?_ ?_⟩
    · rw [threads_cancelAll]
      split_ifs with hv
      · rfl
      · exact hvs v hv
    · exact (nfqHandle_cancelAll e vs s).trans hhandle
    · exact (nfqQueue_cancelAll e vs s).trans hqueue
  · intro hnot hreleased
    have hsome : ¬ e.returned s.threads = true := by simp [hnot]
    rw [e.returned_iff] at hsome
    refine hsome ⟨fun hthread => ?_, fun hthread => ?_⟩
    · by_contra hproxy
      have hleft := (e.proxy.finish_spec h.listenerExact h.listenerClear).2 (by simpa using hproxy)
      have hfinish := hreleased.listener
      rw [listener_cancelAll, if_pos ((mem_and_thread_iff hvs _).mpr hthread)] at hfinish
      exact hleft hfinish
    · by_contra hudp
      have hleft := (e.relay.finish_spec h.relay).2 (by simpa using hudp)
      have hfinish := hreleased.relay
      rw [relay_cancelAll, if_pos ((mem_and_thread_iff hvs _).mpr hthread)] at hfinish
      exact hleft hfinish

theorem threads_create_self (v : ThreadVar) (c : Create) (s : Engine) :
    (s.create v c).threads v = c.value := Function.update_self ..

theorem threads_create_of_ne {v w : ThreadVar} (h : w ≠ v) (c : Create) (s : Engine) :
    (s.create v c).threads w = s.threads w := Function.update_of_ne h ..

@[simp] theorem threads_halt (s : Engine) : s.halt.threads = s.threads := rfl

theorem threads_cancel_of_ne {v w : ThreadVar} (h : w ≠ v) (e : Ends) (s : Engine) :
    (s.cancel e v).threads w = s.threads w := Function.update_of_ne h ..

theorem quiet_halt (h : Quiet s) : Quiet s.halt := ⟨h.listenerExact, h.listenerClear, h.relay⟩

theorem quiet_create (h : Quiet s) (v : ThreadVar) (c : Create) : Quiet (s.create v c) :=
  ⟨h.listenerExact, h.listenerClear, h.relay⟩

theorem createPacketThreads_spec (creates : ThreadVar → Create) (h : Quiet s)
    (hrunning : s.running = true) : Tidy (s.createPacketThreads creates) := by
  rw [createPacketThreads]
  induction List.finRange 4 generalizing s with
  | nil => exact ⟨h, fun hstopped => by simp [hrunning] at hstopped⟩
  | cons i is ih => exact ih (quiet_create h _ _) hrunning

theorem startFail_spec (e : Ends) (h : Quiet s)
    (hpackets : ∀ i, s.threads (.packetThread i) = .zero) (hhandle : s.nfqHandle = false)
    (hqueue : s.nfqQueue = false) :
    (e.returned s.threads = true → Tidy (s.startFail e)) ∧
      (e.returned s.threads = false →
        (s.startFail e).running = false ∧ ¬ Released (s.startFail e)) := by
  have hothers : ∀ v, v ∉ [ThreadVar.proxyThread, .cleanupThread, .udpRelayThread] →
      s.halt.threads v = .zero := by
    intro v hv
    cases v with
    | packetThread i => exact hpackets i
    | proxyThread => simp at hv
    | cleanupThread => simp at hv
    | udpRelayThread => simp at hv
  obtain ⟨htidy, hleft⟩ := cancelAll_spec e _ (quiet_halt h) hothers hhandle hqueue
  exact ⟨htidy, fun hnot => ⟨running_cancelAll _ _ _, hleft hnot⟩⟩

theorem openQueue_spec (c : Calls) (h : Quiet s) (hrunning : s.running = true)
    (hpackets : ∀ i, s.threads (.packetThread i) = .zero) (hqueue : s.nfqQueue = false) :
    ((c.opensQueue || c.ends.returned s.threads) = true → Tidy (openQueue c s)) ∧
      ((c.opensQueue || c.ends.returned s.threads) = false →
        (openQueue c s).running = false ∧ ¬ Released (openQueue c s)) := by
  have hquiet : ∀ handle queue, Quiet { s with nfqHandle := handle, nfqQueue := queue } :=
    fun _ _ => ⟨h.listenerExact, h.listenerClear, h.relay⟩
  rw [openQueue, Calls.opensQueue]
  cases c.nfqOpen with
  | false => exact startFail_spec c.ends (hquiet false s.nfqQueue) hpackets rfl hqueue
  | true =>
    cases c.bindPf with
    | false => exact startFail_spec c.ends (hquiet false s.nfqQueue) hpackets rfl hqueue
    | true =>
      cases c.createQueue with
      | false => exact startFail_spec c.ends (hquiet false false) hpackets rfl rfl
      | true =>
        cases c.setMode with
        | false => exact startFail_spec c.ends (hquiet false false) hpackets rfl rfl
        | true => exact ⟨fun _ => createPacketThreads_spec c.creates (hquiet _ _) hrunning, nofun⟩

theorem stop_spec (h : Tidy s) (e : Ends) :
    (orderly s (.stop e) = true → Tidy (s.stop e)) ∧
      (orderly s (.stop e) = false → (s.stop e).running = false ∧ ¬ Released (s.stop e)) := by
  rw [stop, orderly]
  cases hrunning : s.running with
  | false => exact ⟨fun _ => h, nofun⟩
  | true =>
    rw [if_neg (by simp)]
    let t := s.halt.cancelAll e ((List.finRange 4).map .packetThread)
    have hthreads : ∀ v, t.threads v =
        if v ∈ (List.finRange 4).map ThreadVar.packetThread then .zero else s.threads v :=
      threads_cancelAll e _ s.halt
    have hlistener : t.listener = s.listener :=
      (listener_cancelAll e _ s.halt).trans (if_neg (by simp))
    have hrelay : t.relay = s.relay := (relay_cancelAll e _ s.halt).trans (if_neg (by simp))
    have hquiet : Quiet t.destroyQueue.closeHandle :=
      ⟨hlistener ▸ h.quiet.listenerExact, hlistener ▸ h.quiet.listenerClear, hrelay ▸ h.quiet.relay⟩
    have hothers : ∀ v, v ∉ [ThreadVar.proxyThread, .udpRelayThread, .cleanupThread] →
        t.threads v = .zero := by
      intro v hv
      rw [hthreads]
      cases v with
      | packetThread i => simp
      | proxyThread => simp at hv
      | cleanupThread => simp at hv
      | udpRelayThread => simp at hv
    have hreturned : e.returned t.destroyQueue.closeHandle.threads = e.returned s.threads := by
      refine e.returned_congr ?_ ?_
      · exact (hthreads .proxyThread).trans (if_neg (by simp))
      · exact (hthreads .udpRelayThread).trans (if_neg (by simp))
    obtain ⟨htidy, hleft⟩ := cancelAll_spec e _ hquiet hothers rfl rfl
    rw [hreturned] at htidy hleft
    exact ⟨htidy, fun hnot => ⟨running_cancelAll _ _ _, hleft hnot⟩⟩

end Engine

/-- A start that has created its first thread. -/
structure Begun (s : Engine) : Prop where
  running : s.running = true
  quiet : Quiet s
  proxyThread : s.threads .proxyThread = .thread
  others : ∀ v, v ≠ .proxyThread → s.threads v = .zero
  nfqHandle : s.nfqHandle = false
  nfqQueue : s.nfqQueue = false

namespace Engine

/-- Without the first thread there is nothing but what its variable holds. -/
theorem noProxyThread_spec (h : Released s) (hquiet : Quiet s) (leftover : Bool) :
    (leftover = false → Tidy (s.create .proxyThread (.failed leftover)).halt) ∧
      (leftover = true → ¬ Released (s.create .proxyThread (.failed leftover)).halt) := by
  constructor
  · rintro rfl
    have hfailed := quiet_halt (quiet_create hquiet .proxyThread (.failed false))
    refine ⟨hfailed, fun _ => hfailed.released (fun v => ?_) h.nfqHandle h.nfqQueue⟩
    rw [threads_halt]
    by_cases hv : v = .proxyThread
    · subst hv
      exact threads_create_self _ _ _
    · exact (threads_create_of_ne hv _ _).trans (h.threads v)
  · rintro rfl hreleased
    have hvalue := hreleased.threads .proxyThread
    rw [threads_halt, threads_create_self] at hvalue
    cases hvalue

theorem begun_create (h : Released s) (hquiet : Quiet s) (hrunning : s.running = true) :
    Begun (s.create .proxyThread .created) where
  running := hrunning
  quiet := quiet_create hquiet _ _
  proxyThread := threads_create_self _ _ _
  others v hv := (threads_create_of_ne hv _ _).trans (h.threads v)
  nfqHandle := h.nfqHandle
  nfqQueue := h.nfqQueue

theorem noCleanupThread_spec (h : Begun s) (e : Ends) (leftover : Bool) :
    let t := (s.create .cleanupThread (.failed leftover)).halt.cancel e .proxyThread
    ((!leftover && e.proxy.returned) = true → Tidy t) ∧
      ((!leftover && e.proxy.returned) = false → ¬ Released t) := by
  let u := (s.create .cleanupThread (.failed leftover)).halt
  have hu : Quiet u := quiet_halt (quiet_create h.quiet _ _)
  have hcleanup : u.threads .cleanupThread = (Create.failed leftover).value :=
    threads_create_self .cleanupThread _ s
  have hothers : ∀ v, v ≠ .cleanupThread → u.threads v = s.threads v :=
    fun v hv => threads_create_of_ne hv _ _
  cases leftover with
  | false =>
    have hzero : ∀ v, v ∉ [ThreadVar.proxyThread] → u.threads v = .zero := by
      intro v hv
      by_cases hv' : v = .cleanupThread
      · subst hv'
        exact hcleanup
      · exact (hothers v hv').trans (h.others v (by simpa using hv))
    have hreturned : e.returned u.threads = e.proxy.returned := by
      have hproxy : u.threads .proxyThread = .thread :=
        (hothers _ (by simp)).trans h.proxyThread
      simp [Ends.returned, hproxy, hzero .udpRelayThread]
    have hspec := cancelAll_spec e [.proxyThread] hu hzero h.nfqHandle h.nfqQueue
    rw [hreturned] at hspec
    exact hspec
  | true =>
    refine ⟨nofun, fun _ hreleased => ?_⟩
    have hvalue := hreleased.threads .cleanupThread
    rw [threads_cancel_of_ne (by simp), hcleanup] at hvalue
    cases hvalue

theorem bothThreads_spec (h : Begun s) (proxyType : ProxyType) (c : Calls)
    (hproxy : c.creates .proxyThread = .created) :
    let t := s.create .cleanupThread .created
    let u := if proxyType = .socks5 then
        openQueue c (t.create .udpRelayThread (c.creates .udpRelayThread))
      else openQueue c t
    ((c.opensQueue || c.ends.returned (c.threads proxyType)) = true → Tidy u) ∧
      ((c.opensQueue || c.ends.returned (c.threads proxyType)) = false →
        u.running = false ∧ ¬ Released u) := by
  intro t u
  have ht : Quiet t := quiet_create h.quiet _ _
  have hfirst : t.threads .proxyThread = .thread :=
    (threads_create_of_ne (by simp) _ _).trans h.proxyThread
  have hrest : ∀ v, v ≠ .proxyThread → v ≠ .cleanupThread → t.threads v = .zero :=
    fun v hv hv' => (threads_create_of_ne hv' _ _).trans (h.others v hv)
  have hcalls : c.threads proxyType .proxyThread = .thread := by rw [Calls.threads, hproxy]; rfl
  by_cases hsocks : proxyType = .socks5
  · have hu : u = openQueue c (t.create .udpRelayThread (c.creates .udpRelayThread)) :=
      if_pos hsocks
    have hreturned : c.ends.returned (c.threads proxyType) =
        c.ends.returned (t.create .udpRelayThread (c.creates .udpRelayThread)).threads := by
      refine c.ends.returned_congr ?_ ?_
      · rw [hcalls, threads_create_of_ne (by simp), hfirst]
      · rw [Calls.threads, if_pos hsocks, threads_create_self]
    rw [hu, hreturned]
    exact openQueue_spec c (quiet_create ht _ _) h.running
      (fun i => (threads_create_of_ne (by simp) _ _).trans (hrest _ (by simp) (by simp)))
      h.nfqQueue
  · have hu : u = openQueue c t := if_neg hsocks
    have hreturned : c.ends.returned (c.threads proxyType) = c.ends.returned t.threads := by
      refine c.ends.returned_congr (hcalls.trans hfirst.symm) ?_
      rw [Calls.threads, if_neg hsocks, hrest .udpRelayThread (by simp) (by simp)]
    rw [hu, hreturned]
    exact openQueue_spec c ht h.running (fun i => hrest _ (by simp) (by simp)) h.nfqQueue

theorem start_spec (h : Tidy s) (proxyType : ProxyType) (c : Calls) :
    (orderly s (.start proxyType c) = true → Tidy (s.start proxyType c)) ∧
      (orderly s (.start proxyType c) = false →
        (s.start proxyType c).running = false ∧ ¬ Released (s.start proxyType c)) := by
  rw [start, orderly]
  cases hrunning : s.running with
  | true => exact ⟨fun _ => h, nofun⟩
  | false =>
    let t : Engine := { s with running := true }
    have hzero : Released t := by
      have hs := h.released hrunning
      exact ⟨hs.threads, hs.nfqHandle, hs.nfqQueue, hs.listener, hs.relay⟩
    have hquiet : Quiet t := ⟨h.quiet.listenerExact, h.quiet.listenerClear, h.quiet.relay⟩
    rw [if_neg (by simp), Bool.false_or]
    dsimp only
    cases hproxy : c.creates .proxyThread with
    | failed leftover =>
      obtain ⟨htidy, hleft⟩ := noProxyThread_spec hzero hquiet leftover
      rw [if_pos (by simp)]
      exact ⟨fun horderly => htidy (by simpa using horderly),
        fun hnot => ⟨rfl, hleft (by simpa using hnot)⟩⟩
    | created =>
      have hbegun : Begun (t.create .proxyThread .created) := begun_create hzero hquiet rfl
      rw [if_neg (by simp)]
      cases hcleanup : c.creates .cleanupThread with
      | failed leftover =>
        obtain ⟨htidy, hleft⟩ := noCleanupThread_spec hbegun c.ends leftover
        rw [if_pos (by simp)]
        exact ⟨htidy, fun hnot => ⟨rfl, hleft hnot⟩⟩
      | created =>
        rw [if_neg (by simp)]
        exact bothThreads_spec hbegun proxyType c hproxy

theorem step_spec {l : Label} {t : Engine} (h : Tidy s) (ht : step s l = some t) :
    (orderly s l = true → Tidy t) ∧
      (orderly s l = false → t.running = false ∧ ¬ Released t) := by
  cases l with
  | start proxyType c =>
    obtain rfl := Option.some.inj ht
    exact start_spec h proxyType c
  | stop e =>
    obtain rfl := Option.some.inj ht
    exact stop_spec h e

end Engine

/-- In every run nothing is left of the engine whenever it is stopped, if and only if every relay
thread that a call cancels has ended by itself, and a failing `pthread_create` for one of the first
two threads leaves 0. -/
theorem released_iff {ls : List Label} {s : Engine} (hrun : run step .initial ls = some s) :
    EachStep step (fun _ _ t => t.running = false → Released t) .initial ls ↔
      Guarded step (fun s l => orderly s l = true) .initial ls := by
  have hquiet : Quiet .initial := ⟨Handles.exact_empty, fun _ => rfl, idle_fresh false 0⟩
  have hinitial : Tidy .initial := ⟨hquiet, fun _ => hquiet.released (fun _ => rfl) rfl rfl⟩
  have hiff : ∀ s l t, Tidy s → step s l = some t →
      ((t.running = false → Released t) ↔ orderly s l = true) := by
    intro s l t hs ht
    obtain ⟨htidy, hleft⟩ := Engine.step_spec hs ht
    constructor
    · intro hreleased
      by_contra hnot
      obtain ⟨hstopped, hnotReleased⟩ := hleft (by simpa using hnot)
      exact hnotReleased (hreleased hstopped)
    · exact fun horderly => (htidy horderly).released
  refine eachStep_iff_guarded (H := fun _ _ => True) (I := Tidy) ?_ ?_ hrun (guarded_true _ ls)
    hinitial
  · exact fun s l t hs _ ht => hiff s l t hs ht
  · exact fun s l t hs _ ht hreleased =>
      (Engine.step_spec hs ht).1 ((hiff s l t hs ht).mp hreleased)

/-- Every call succeeds. -/
def everythingOpens (ends : Ends) : Calls := ⟨fun _ => .created, true, true, true, true, ends⟩

/-- The proxy does not answer. -/
def unanswered : Attempt := ⟨5000, true, true, false, false, false⟩

/-- Both relays wait in `poll` when they are cancelled. -/
def cancelledInPoll : Ends :=
  ⟨⟨true, true, true, true⟩, ⟨⟨true, true, true, unanswered⟩, [], some .poll⟩⟩

/-- Both relays see that the engine stops, and leave their loops. -/
def leftLoops : Ends :=
  ⟨⟨true, true, true, false⟩, ⟨⟨true, true, true, unanswered⟩, [], none⟩⟩

/-- A start and a stop leave the sockets of both relays open when the relays wait in `poll`. -/
theorem sockets_left_open :
    ∃ s, run step .initial [.start .socks5 (everythingOpens cancelledInPoll),
        .stop cancelledInPoll] = some s ∧
      s.running = false ∧ s.listener.unclosed = [0] ∧ s.relay.handles.unclosed = [0] := by
  exact ⟨_, rfl, by decide, by decide, by decide⟩

theorem released_after_stop :
    EachStep step (fun _ _ t => t.running = false → Released t) .initial
      [.start .socks5 (everythingOpens leftLoops), .stop leftLoops,
        .start .http (everythingOpens leftLoops)] := by
  have hrun : ∃ s, run step .initial [.start .socks5 (everythingOpens leftLoops), .stop leftLoops,
      .start .http (everythingOpens leftLoops)] = some s := ⟨_, rfl⟩
  obtain ⟨s, hs⟩ := hrun
  exact (released_iff hs).mpr (by decide)

end ProxyTun.Linux.StartStop
