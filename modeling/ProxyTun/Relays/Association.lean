import ProxyTun.Core.Types
import ProxyTun.Library.Handles

/-!
# The association of the UDP relay with the proxy

`udp_relay_server` keeps a control connection to the SOCKS5 proxy and a socket for datagrams, and
a flag that says whether they are there. The sockets come and go with the proxy: they are closed
in several places, and made anew when a client needs them.
-/
namespace ProxyTun.Association
open Library

/-- The variables for sockets. `tcpSock` is local to `establish_udp_associate`. -/
inductive SocketVar where
  | relay
  | tcpSock
  | control
  | send
  deriving DecidableEq, Repr

structure State where
  /-- `udp_associate_connected`. -/
  connected : Bool
  /-- `last_udp_connect_attempt`. -/
  lastAttempt : Tick
  handles : Handles SocketVar
  /-- Something was sent on a socket that was not open. -/
  strayed : Bool

/-- A thread that has not opened anything, with what is left in the flag and in the clock. -/
def State.fresh (connected : Bool) (lastAttempt : Tick) : State :=
  ⟨connected, lastAttempt, .empty, false⟩

namespace State

def acquire (v : SocketVar) (ok : Bool) (s : State) : State :=
  { s with handles := s.handles.acquire v ok }

def close (v : SocketVar) (s : State) : State := { s with handles := s.handles.close v }

def move (v w : SocketVar) (s : State) : State := { s with handles := s.handles.move v w }

def use (v : SocketVar) (s : State) : State :=
  { s with strayed := s.strayed || !s.handles.isOpen v }

def has (v : SocketVar) (s : State) : Bool := (s.handles.held v).isSome

end State

/-- What the calls of `establish_udp_associate` return. -/
structure Attempt where
  now : Tick
  socket : Bool
  resolves : Bool
  connects : Bool
  /-- `socks5_udp_associate` succeeds. -/
  associates : Bool
  udpSocket : Bool

/-- The time of an attempt as it is kept, in 32 bits on Windows. -/
def attemptTime : Platform → Tick → Tick
  | .windows, now => (now.setWidth 32).setWidth 64
  | .linux, now => now

def connectControl (pf : Platform) (a : Attempt) (s : State) : Bool × State :=
  if a.now - s.lastAttempt < 5000 then (false, s)
  else
    let s := { s with lastAttempt := attemptTime pf a.now }
    let s := ((s.close .control).close .send).acquire .tcpSock a.socket
    if !a.socket then (false, s)
    else if !a.resolves then (false, s.close .tcpSock)
    else if !a.connects then (false, s.close .tcpSock)
    else (true, s.use .tcpSock)

def establish (pf : Platform) (a : Attempt) (s : State) : Bool × State :=
  let r := connectControl pf a s
  if !r.1 then (false, r.2)
  else if !a.associates then (false, r.2.close .tcpSock)
  else
    let s := (r.2.move .tcpSock .control).acquire .send a.udpSocket
    if !a.udpSocket then (false, s.close .control)
    else (true, { s with connected := true })

/-- `udp_associate_connected = establish_udp_associate()`. -/
def reconnect (pf : Platform) (a : Attempt) (s : State) : State :=
  { (establish pf a s).2 with connected := (establish pf a s).1 }

/-- `teardown_udp_associate`, and the blocks of the Windows engine that do the same. -/
def teardown (s : State) : State := { (s.close .control).close .send with connected := false }

/-- What a call returns that receives something. -/
inductive Received where
  | data (bytes : List Byte)
  | wouldBlock
  | error
  deriving DecidableEq, Repr

def Received.isDead : Received → Bool
  | .data bytes => bytes = []
  | .wouldBlock => false
  | .error => true

/-- What the calls of one pass of the loop return. -/
structure Turn where
  /-- `poll` or `select` returns with something. -/
  ready : Bool
  relayReady : Bool
  controlReady : Bool
  sendReady : Bool
  /-- `POLLHUP` or `POLLERR` on the socket for datagrams. -/
  sendError : Bool
  peek : Received
  /-- A datagram of a client, unless there was an error. -/
  datagram : Option (List Byte)
  /-- `get_connection` finds the destination. -/
  destinationFound : Bool
  attempt : Attempt
  sent : Bool
  reply : Received
  /-- The table leads to a client. -/
  clientFound : Bool

/-- The datagram goes to the proxy. A failure is the end of the association. -/
def sendToProxy (t : Turn) (s : State) : State :=
  if t.sent then s.use .send else teardown (s.use .send)

def sendToClient (t : Turn) (s : State) : State := if t.clientFound then s.use .relay else s

end ProxyTun.Association

namespace ProxyTun.Linux
open Association

/-- The branch for clients, and whether the pass goes on after it. -/
def fromClient (t : Turn) (s : State) : State × Bool :=
  if !t.relayReady then (s, true)
  else match t.datagram with
    | none | some [] => (s, false)
    | some data =>
      let r := if s.connected then (true, s) else establish .linux t.attempt s
      if !r.1 then (r.2, false)
      else if !t.destinationFound then (r.2, false)
      else if 65536 - 10 < data.length then (r.2, false)
      else (sendToProxy t r.2, true)

/-- The branch for the proxy. To receive on a socket that is closed is an error. -/
def fromProxy (t : Turn) (watched : Bool) (s : State) : State × Bool :=
  if !(watched && t.sendReady) then (s, true)
  else match if s.has .send then t.reply else .error with
    | .wouldBlock => (s, false)
    | .error => (teardown s, false)
    | .data bytes => if (decapsulate bytes).isSome then (sendToClient t s, true) else (s, false)

/-- One pass of the loop of `udp_relay_server`. -/
def relayTurn (t : Turn) (s : State) : State :=
  let sendWatched := s.connected && s.has .send
  let controlWatched := s.connected && s.has .control
  if !t.ready then s
  else if controlWatched && t.controlReady && t.peek.isDead then teardown s
  else
    let client := fromClient t s
    if !client.2 then client.1
    else
      let proxy := fromProxy t sendWatched client.1
      if !proxy.2 then proxy.1
      else if sendWatched && t.sendError then teardown proxy.1 else proxy.1

end ProxyTun.Linux

namespace ProxyTun.Windows
open Association

/-- The branch for clients, and whether the pass goes on after it. -/
def fromClient (t : Turn) (s : State) : State × Bool :=
  if !t.relayReady then (s, true)
  else match t.datagram with
    | none | some [] => (s, true)
    | some data =>
      if 0xFFFF - 10 < data.length then (s, false)
      else if !t.destinationFound then (s, true)
      else
        let s := if s.connected then s else reconnect .windows t.attempt s
        if !s.connected then (s, false) else (sendToProxy t s, true)

/-- The branch for the proxy, where `watched` is the socket that `select` was asked about. -/
def fromProxy (t : Turn) (watched : Option ℕ) (s : State) : State :=
  if !(s.connected && s.has .send && s.handles.held .send = watched && t.sendReady) then s
  else match t.reply with
    | .wouldBlock | .error => teardown s
    | .data bytes => if (decapsulate bytes).isSome then sendToClient t s else s

/-- One pass of the loop of `udp_relay_server`. -/
def relayTurn (t : Turn) (s : State) : State :=
  let watched := if s.connected then s.handles.held .send else none
  if !t.ready then s
  else if s.connected && s.has .control && t.controlReady && t.peek.isDead then teardown s
  else
    let client := fromClient t s
    if !client.2 then client.1 else fromProxy t watched client.1

end ProxyTun.Windows

namespace ProxyTun.Association
open Library

def relayTurn : Platform → Turn → State → State
  | .windows => Windows.relayTurn
  | .linux => Linux.relayTurn

/-- What the calls of the thread return before its loop. -/
structure Startup where
  /-- `WSAStartup`, on Windows. -/
  wsaStartup : Bool
  socket : Bool
  bind : Bool
  attempt : Attempt

/-- The thread up to its loop, and whether it gets there. -/
def enterLoop (pf : Platform) (b : Startup) (s : State) : Bool × State :=
  if pf = .windows && !b.wsaStartup then (false, s)
  else
    let s := s.acquire .relay b.socket
    if !b.socket then (false, s)
    else if !b.bind then (false, s.close .relay)
    else (true, reconnect pf b.attempt s)

def leaveLoop : Platform → State → State
  | .windows, s => ((s.close .control).close .send).close .relay
  | .linux, s => (teardown s).close .relay

/-- The head of the loop after some passes. -/
def atHead (pf : Platform) (b : Startup) (turns : List Turn) (s : State) : State :=
  turns.foldl (fun s t => relayTurn pf t s) (enterLoop pf b s).2

/-- The whole of `udp_relay_server`. -/
def relayServer (pf : Platform) (b : Startup) (turns : List Turn) (s : State) : State :=
  if (enterLoop pf b s).1 then leaveLoop pf (atHead pf b turns s) else (enterLoop pf b s).2

/-- The flag says whether the two sockets to the proxy are open. -/
structure Sound (s : State) : Prop where
  exact : s.handles.Exact
  relay : s.handles.held .relay ≠ none
  tcpSock : s.handles.held .tcpSock = none
  paired : s.connected = true ∧ s.handles.held .control ≠ none ∧ s.handles.held .send ≠ none ∨
    s.connected = false ∧ s.handles.held .control = none ∧ s.handles.held .send = none
  strayed : s.strayed = false

/-- There is no association, whatever the flag says. -/
structure Cut (s : State) : Prop where
  exact : s.handles.Exact
  relay : s.handles.held .relay ≠ none
  tcpSock : s.handles.held .tcpSock = none
  control : s.handles.held .control = none
  send : s.handles.held .send = none
  strayed : s.strayed = false

/-- The thread owns nothing. -/
structure Idle (s : State) : Prop where
  exact : s.handles.Exact
  clear : s.handles.Clear
  strayed : s.strayed = false

variable {s : State} {pf : Platform}

theorem Sound.not_connected (h : Sound s) (hconnected : s.connected = false) : Cut s := by
  rcases h.paired with ⟨htrue, -⟩ | ⟨-, hcontrol, hsend⟩
  · rw [hconnected] at htrue
    cases htrue
  · exact ⟨h.exact, h.relay, h.tcpSock, hcontrol, hsend, h.strayed⟩

theorem Sound.send_open (h : Sound s) (hconnected : s.connected = true) :
    s.handles.held .send ≠ none := by
  rcases h.paired with ⟨-, -, hsend⟩ | ⟨hfalse, -⟩
  · exact hsend
  · rw [hconnected] at hfalse
    cases hfalse

/-- Without sockets the flag is right if it is down. -/
theorem Cut.sound (h : Cut s) : Sound { s with connected := false } :=
  ⟨h.exact, h.relay, h.tcpSock, .inr ⟨rfl, h.control, h.send⟩, h.strayed⟩

theorem use_eq (hexact : s.handles.Exact) {v : SocketVar} (hv : s.handles.held v ≠ none) :
    s.use v = s := by
  rw [State.use, (hexact.isOpen_iff v).mpr hv]
  cases s
  simp

theorem sound_teardown (h : Sound s) : Sound (teardown s) where
  exact := (h.exact.close .control).close .send
  relay := by
    simp (disch := decide) only [teardown, State.close, Handles.held_close_of_ne]
    exact h.relay
  tcpSock := by
    simp (disch := decide) only [teardown, State.close, Handles.held_close_of_ne]
    exact h.tcpSock
  paired := by
    refine .inr ⟨rfl, ?_, Handles.held_close_self _ _⟩
    exact (Handles.held_close_of_ne (by decide) _).trans (Handles.held_close_self _ _)
  strayed := h.strayed

theorem cut_close (h : Cut s) (v : SocketVar) (hv : v ≠ .relay) : Cut (s.close v) := by
  have hheld : ∀ w, w ≠ .relay → s.handles.held w = none → (s.close v).handles.held w = none := by
    intro w _ hw
    by_cases hwv : w = v
    · subst hwv
      exact Handles.held_close_self w s.handles
    · exact (Handles.held_close_of_ne hwv s.handles).trans hw
  exact ⟨h.exact.close v, (Handles.held_close_of_ne hv.symm s.handles).trans_ne h.relay,
    hheld _ (by decide) h.tcpSock, hheld _ (by decide) h.control, hheld _ (by decide) h.send,
    h.strayed⟩

/-- A control connection that is made, ready for the handshake, is all that there is. -/
structure Dialled (s : State) : Prop where
  exact : s.handles.Exact
  relay : s.handles.held .relay ≠ none
  tcpSock : s.handles.held .tcpSock ≠ none
  control : s.handles.held .control = none
  send : s.handles.held .send = none
  strayed : s.strayed = false

theorem Dialled.cut (h : Dialled s) : Cut (s.close .tcpSock) where
  exact := h.exact.close .tcpSock
  relay := (Handles.held_close_of_ne (by decide) _).trans_ne h.relay
  tcpSock := Handles.held_close_self _ _
  control := (Handles.held_close_of_ne (by decide) _).trans h.control
  send := (Handles.held_close_of_ne (by decide) _).trans h.send
  strayed := h.strayed

theorem cut_acquire (h : Cut s) : Cut (s.acquire .tcpSock false) where
  exact := h.exact.acquire h.tcpSock false
  relay := (Handles.held_acquire_of_ne (by decide) _ _).trans_ne h.relay
  tcpSock := Handles.held_acquire_self _ _ _
  control := (Handles.held_acquire_of_ne (by decide) _ _).trans h.control
  send := (Handles.held_acquire_of_ne (by decide) _ _).trans h.send
  strayed := h.strayed

theorem dialled_acquire (h : Cut s) : Dialled (s.acquire .tcpSock true) where
  exact := h.exact.acquire h.tcpSock true
  relay := (Handles.held_acquire_of_ne (by decide) _ _).trans_ne h.relay
  tcpSock := by
    rw [State.acquire, Handles.held_acquire_self]
    simp
  control := (Handles.held_acquire_of_ne (by decide) _ _).trans h.control
  send := (Handles.held_acquire_of_ne (by decide) _ _).trans h.send
  strayed := h.strayed

theorem connectControl_spec (pf : Platform) (h : Cut s) (a : Attempt) :
    ((connectControl pf a s).1 = false → Cut (connectControl pf a s).2) ∧
      ((connectControl pf a s).1 = true → Dialled (connectControl pf a s).2) ∧
      (connectControl pf a s).2.connected = s.connected := by
  have hstamped : Cut { s with lastAttempt := attemptTime pf a.now } :=
    ⟨h.exact, h.relay, h.tcpSock, h.control, h.send, h.strayed⟩
  have hclosed := cut_close (cut_close hstamped .control (by decide)) .send (by decide)
  rw [connectControl]
  dsimp only
  split
  · exact ⟨fun _ => h, nofun, rfl⟩
  · cases a.socket with
    | false => exact ⟨fun _ => cut_acquire hclosed, nofun, rfl⟩
    | true =>
      have hdialled := dialled_acquire hclosed
      rw [if_neg (by simp)]
      split
      · exact ⟨fun _ => hdialled.cut, nofun, rfl⟩
      · split
        · exact ⟨fun _ => hdialled.cut, nofun, rfl⟩
        · rw [use_eq hdialled.exact hdialled.tcpSock]
          exact ⟨nofun, fun _ => hdialled, rfl⟩

/-- The two sockets behind a handshake that succeeded. -/
theorem adopted (h : Dialled s) (ok : Bool) :
    let t := (s.move .tcpSock .control).acquire .send ok
    t.handles.Exact ∧ t.handles.held .relay ≠ none ∧ t.handles.held .tcpSock = none ∧
      t.handles.held .control ≠ none ∧ t.handles.held .send = (if ok then some s.handles.opened
        else none) ∧ t.strayed = false := by
  have hmoved := h.exact.move (by decide : SocketVar.tcpSock ≠ .control) h.control
  have hsend : (s.handles.move .tcpSock .control).held .send = none := h.send
  refine ⟨hmoved.acquire hsend ok, ?_, ?_, ?_, Handles.held_acquire_self _ _ _, h.strayed⟩
  · exact (Handles.held_acquire_of_ne (by decide) _ _).trans_ne h.relay
  · exact Handles.held_acquire_of_ne (by decide) _ _
  · exact (Handles.held_acquire_of_ne (by decide) _ _).trans_ne h.tcpSock

theorem sound_reconnect (h : Cut s) (a : Attempt) : Sound (reconnect pf a s) := by
  obtain ⟨hcut, hdialled, -⟩ := connectControl_spec pf h a
  rw [reconnect, establish]
  dsimp only
  cases hcontrol : (connectControl pf a s).1 with
  | false => exact (hcut hcontrol).sound
  | true =>
    rw [if_neg (by simp)]
    cases a.associates with
    | false => exact (hdialled hcontrol).cut.sound
    | true =>
      rw [if_neg (by simp)]
      obtain ⟨hexact, hrelay, htcp, hctl, hsend, hstrayed⟩ :=
        adopted (hdialled hcontrol) a.udpSocket
      cases hsocket : a.udpSocket with
      | false =>
        rw [hsocket] at hexact hrelay htcp hctl hsend hstrayed
        rw [if_pos (by simp)]
        refine ⟨hexact.close .control, ?_, ?_, .inr ⟨rfl, Handles.held_close_self _ _, ?_⟩,
          hstrayed⟩
        · exact (Handles.held_close_of_ne (by decide) _).trans_ne hrelay
        · exact (Handles.held_close_of_ne (by decide) _).trans htcp
        · exact (Handles.held_close_of_ne (by decide) _).trans hsend
      | true =>
        rw [hsocket] at hexact hrelay htcp hctl hsend hstrayed
        rw [if_neg (by simp)]
        exact ⟨hexact, hrelay, htcp, .inl ⟨rfl, hctl, by rw [hsend]; simp⟩, hstrayed⟩

/-- A new association raises the flag itself. -/
theorem establish_eq_reconnect (h : Cut s) (hconnected : s.connected = false) (a : Attempt) :
    establish pf a s = ((reconnect pf a s).connected, reconnect pf a s) := by
  have hflag : (establish pf a s).2.connected = (establish pf a s).1 := by
    have hcontrol := (connectControl_spec pf h a).2.2
    rw [hconnected] at hcontrol
    rw [establish]
    dsimp only
    split
    · exact hcontrol
    · split
      · exact hcontrol
      · split
        · exact hcontrol
        · rfl
  have hsame : reconnect pf a s = (establish pf a s).2 := by
    rw [reconnect, ← hflag]
  rw [hsame, hflag]

theorem sound_sendToProxy (h : Sound s) (hconnected : s.connected = true) (t : Turn) :
    Sound (sendToProxy t s) := by
  rw [sendToProxy, use_eq h.exact (h.send_open hconnected)]
  split
  · exact h
  · exact sound_teardown h

theorem sound_sendToClient (h : Sound s) (t : Turn) : Sound (sendToClient t s) := by
  rw [sendToClient, use_eq h.exact h.relay, ite_self]
  exact h

end ProxyTun.Association

namespace ProxyTun.Linux
open Association

variable {s : State}

theorem sound_fromClient (h : Sound s) (t : Turn) : Sound (fromClient t s).1 := by
  rw [fromClient]
  split
  · exact h
  · split
    · exact h
    · exact h
    · next data _ =>
      -- the association that the datagram is sent through, if there is one
      obtain ⟨r, hr, hsound, hflag⟩ : ∃ r,
          (if s.connected then (true, s) else establish .linux t.attempt s) = r ∧
            Sound r.2 ∧ r.2.connected = r.1 := by
        cases hconnected : s.connected with
        | true => exact ⟨(true, s), rfl, h, hconnected⟩
        | false =>
          have hcut := h.not_connected hconnected
          exact ⟨_, establish_eq_reconnect hcut hconnected t.attempt,
            sound_reconnect hcut t.attempt, rfl⟩
      dsimp only
      rw [hr]
      split
      · exact hsound
      · next hup =>
        split
        · exact hsound
        · split
          · exact hsound
          · exact sound_sendToProxy hsound (hflag.trans (by simpa using hup)) t

theorem sound_fromProxy (h : Sound s) (t : Turn) (watched : Bool) :
    Sound (fromProxy t watched s).1 := by
  rw [fromProxy]
  split
  · exact h
  · split
    · exact h
    · exact sound_teardown h
    · split
      · exact sound_sendToClient h t
      · exact h

/-- Every way through one pass of the loop keeps the sockets and the flag together. -/
theorem sound_relayTurn (h : Sound s) (t : Turn) : Sound (relayTurn t s) := by
  have hclient := sound_fromClient h t
  rw [relayTurn]
  dsimp only
  split
  · exact h
  · split
    · exact sound_teardown h
    · split
      · exact hclient
      · have hproxy := sound_fromProxy hclient t (s.connected && s.has .send)
        split
        · exact hproxy
        · split
          · exact sound_teardown hproxy
          · exact hproxy

end ProxyTun.Linux

namespace ProxyTun.Windows
open Association

variable {s : State}

theorem sound_fromClient (h : Sound s) (t : Turn) : Sound (fromClient t s).1 := by
  rw [fromClient]
  split
  · exact h
  · split
    · exact h
    · exact h
    · split
      · exact h
      · split
        · exact h
        · obtain ⟨r, hr, hsound⟩ : ∃ r,
              (if s.connected then s else reconnect .windows t.attempt s) = r ∧ Sound r := by
            cases hconnected : s.connected with
            | true => exact ⟨s, rfl, h⟩
            | false => exact ⟨_, rfl, sound_reconnect (h.not_connected hconnected) t.attempt⟩
          dsimp only
          rw [hr]
          split
          · exact hsound
          · next hup => exact sound_sendToProxy hsound (by simpa using hup) t

theorem sound_fromProxy (h : Sound s) (t : Turn) (watched : Option ℕ) :
    Sound (fromProxy t watched s) := by
  rw [fromProxy]
  split
  · exact h
  · split
    · exact sound_teardown h
    · exact sound_teardown h
    · split
      · exact sound_sendToClient h t
      · exact h

/-- Every way through one pass of the loop keeps the sockets and the flag together. -/
theorem sound_relayTurn (h : Sound s) (t : Turn) : Sound (relayTurn t s) := by
  have hclient := sound_fromClient h t
  rw [relayTurn]
  dsimp only
  split
  · exact h
  · split
    · exact sound_teardown h
    · split
      · exact hclient
      · exact sound_fromProxy hclient t _

end ProxyTun.Windows

namespace ProxyTun.Association
open Library

variable {s : State}

theorem sound_relayTurn (pf : Platform) (h : Sound s) (t : Turn) : Sound (relayTurn pf t s) := by
  cases pf with
  | windows => exact Windows.sound_relayTurn h t
  | linux => exact Linux.sound_relayTurn h t

theorem idle_fresh (connected : Bool) (lastAttempt : Tick) : Idle (.fresh connected lastAttempt) :=
  ⟨Handles.exact_empty, fun _ => rfl, rfl⟩

theorem Idle.cut_acquire (h : Idle s) : Cut (s.acquire .relay true) where
  exact := h.exact.acquire (h.clear .relay) true
  relay := by
    rw [State.acquire, Handles.held_acquire_self]
    simp
  tcpSock := (Handles.held_acquire_of_ne (by decide) _ _).trans (h.clear _)
  control := (Handles.held_acquire_of_ne (by decide) _ _).trans (h.clear _)
  send := (Handles.held_acquire_of_ne (by decide) _ _).trans (h.clear _)
  strayed := h.strayed

/-- The thread comes to its loop with the relay's socket, or it has closed what it opened. -/
theorem enterLoop_spec (h : Idle s) (pf : Platform) (b : Startup) :
    ((enterLoop pf b s).1 = true → Sound (enterLoop pf b s).2) ∧
      ((enterLoop pf b s).1 = false → Idle (enterLoop pf b s).2) := by
  rw [enterLoop]
  dsimp only
  split
  · exact ⟨nofun, fun _ => h⟩
  · cases b.socket with
    | false =>
      have hexact := h.exact.acquire (h.clear .relay) false
      exact ⟨nofun, fun _ => ⟨hexact, h.clear.acquire .relay, h.strayed⟩⟩
    | true =>
      have hopened := h.cut_acquire
      rw [if_neg (by simp)]
      split
      · have hclosed := h.clear.acquire_close .relay true
        exact ⟨nofun, fun _ => ⟨hopened.exact.close .relay, hclosed, h.strayed⟩⟩
      · exact ⟨fun _ => sound_reconnect hopened b.attempt, nofun⟩

theorem sound_atHead (h : Idle s) (pf : Platform) (b : Startup) (turns : List Turn)
    (hentered : (enterLoop pf b s).1 = true) : Sound (atHead pf b turns s) := by
  have hrun : ∀ s, Sound s → Sound (turns.foldl (fun s t => relayTurn pf t s) s) := by
    induction turns with
    | nil => exact fun s hs => hs
    | cons t turns ih => exact fun s hs => ih _ (sound_relayTurn pf hs t)
  exact hrun _ ((enterLoop_spec h pf b).1 hentered)

theorem idle_leaveLoop (pf : Platform) (h : Sound s) : Idle (leaveLoop pf s) := by
  have hclosed : (leaveLoop pf s).handles =
      ((s.handles.close .control).close .send).close .relay := by cases pf <;> rfl
  have hstrayed : (leaveLoop pf s).strayed = s.strayed := by cases pf <;> rfl
  refine ⟨?_, fun v => ?_, hstrayed.trans h.strayed⟩
  · rw [hclosed]
    exact ((h.exact.close _).close _).close _
  rw [hclosed]
  cases v with
  | relay => exact Handles.held_close_self _ _
  | send => exact (Handles.held_close_of_ne (by decide) _).trans (Handles.held_close_self _ _)
  | tcpSock =>
    simp (disch := decide) only [Handles.held_close_of_ne]
    exact h.tcpSock
  | control =>
    simp (disch := decide) only [Handles.held_close_of_ne]
    exact Handles.held_close_self _ _

/-- A thread that runs to its end leaves nothing. -/
theorem idle_relayServer (h : Idle s) (pf : Platform) (b : Startup) (turns : List Turn) :
    Idle (relayServer pf b turns s) := by
  rw [relayServer]
  cases hentered : (enterLoop pf b s).1 with
  | true => exact idle_leaveLoop pf (sound_atHead h pf b turns hentered)
  | false => exact (enterLoop_spec h pf b).2 hentered

/-- For every run of `udp_relay_server` that starts without sockets, whatever its calls return: at
every head of the loop the flag says whether both sockets to the proxy are open, and there are
none if it is down. Nothing is sent on a socket that is not open. When the thread ends it has
closed each socket exactly once, and has overwritten none before. -/
theorem association_kept (pf : Platform) (b : Startup) (turns : List Turn) (connected : Bool)
    (lastAttempt : Tick) :
    let s := State.fresh connected lastAttempt
    let head := atHead pf b turns s
    let ended := relayServer pf b turns s
    ((enterLoop pf b s).1 = true →
      (head.connected = true ↔
        head.handles.isOpen .control = true ∧ head.handles.isOpen .send = true) ∧
      (head.connected = false →
        head.handles.isOpen .control = false ∧ head.handles.isOpen .send = false) ∧
      head.strayed = false ∧ head.handles.lost = []) ∧
    ended.strayed = false ∧ ended.handles.lost = [] ∧
      ∀ h < ended.handles.opened, ended.handles.closed.count h = 1 := by
  intro s head ended
  constructor
  · intro hentered
    have hsound : Sound head := sound_atHead (idle_fresh connected lastAttempt) pf b turns hentered
    have hcontrol := hsound.exact.isOpen_iff .control
    have hsend := hsound.exact.isOpen_iff .send
    rw [hcontrol, hsend, ← Bool.not_eq_true (head.handles.isOpen .control),
      ← Bool.not_eq_true (head.handles.isOpen .send), hcontrol, hsend]
    refine ⟨?_, ?_, hsound.strayed, hsound.exact.lost⟩
    · rcases hsound.paired with ⟨htrue, hboth⟩ | ⟨hfalse, hnone, -⟩
      · exact iff_of_true htrue hboth
      · exact iff_of_false (by simp [hfalse]) fun hboth => hboth.1 hnone
    · intro hfalse
      rcases hsound.paired with ⟨htrue, -⟩ | ⟨-, hnone, hnone'⟩
      · rw [hfalse] at htrue
        cases htrue
      · exact ⟨fun h => h hnone, fun h => h hnone'⟩
  · have hended : Idle ended := idle_relayServer (idle_fresh connected lastAttempt) pf b turns
    exact ⟨hended.strayed, hended.exact.lost,
      fun h hlt => hended.exact.closed_once hended.clear h hlt⟩

end ProxyTun.Association
