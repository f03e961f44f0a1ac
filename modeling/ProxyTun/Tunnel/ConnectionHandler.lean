import ProxyTun.Library.Handles
import ProxyTun.Tunnel.HttpConnect
import ProxyTun.Tunnel.ProxyConfig
import ProxyTun.Tunnel.SendAll
import ProxyTun.Tunnel.Socks5Connect

/-!
# The thread of a connection

`connection_handler` finds the address of the proxy, connects to it, runs the handshake and hands
both sockets to `transfer_handler`, which relays until it leaves its loop and closes them. Any call
on the way may fail, and the thread then closes what it has opened.
-/
namespace ProxyTun.ConnectionHandler
open Library Library.Transition

/-- The globals of the engine, with texts of the length that `SetProxyConfig` stores. -/
structure Setup where
  config : ProxyConfig
  username_length : config.username.length ≤ 255
  password_length : config.password.length ≤ 255

def Setup.creds (setup : Setup) : Credentials :=
  ⟨setup.config.username, setup.config.password, setup.username_length, setup.password_length⟩

/-- The handshake that the type of the proxy asks for. -/
def handshake (pf : Platform) (setup : Setup) (dest : Ip × Port) : Handshake Unit :=
  match setup.config.type with
  | .socks5 => socks5Connect pf setup.creds dest
  | .http => httpConnect pf setup.creds dest

/-- The variables of the two functions. Both ends of a pipe are opened and closed together. -/
inductive Descriptor where
  | clientSock
  | proxySock
  | pipeA
  | pipeB
  deriving DecidableEq, Repr

/-- The loop of `transfer_handler`: a copy through a buffer, or through two pipes on Linux. -/
inductive Relay where
  | copying (s : CopyState)
  | splicing (s : Linux.SpliceState)

/-- One pass of the loop that is at work. -/
inductive Pass where
  | select (pass : Windows.SelectPass)
  | poll (pass : Linux.FallbackPass)
  | splice (pass : Linux.SplicePass)

namespace Relay

def step : Platform → Relay → Pass → Option Relay
  | .windows, .copying s, .select pass =>
    (CopyState.step Windows.SelectPass.event s pass).map .copying
  | .linux, .copying s, .poll pass => (CopyState.step Linux.FallbackPass.event s pass).map .copying
  | .linux, .splicing s, .splice pass => (Linux.SpliceState.step s pass).map .splicing
  | _, _, _ => none

def hasLeft : Relay → Bool
  | .copying s => s.stopped.isSome
  | .splicing s => !s.running

def usesPipes : Relay → Bool
  | .copying _ => false
  | .splicing _ => true

def downloaded : Relay → List Byte
  | .copying s => s.download.delivered
  | .splicing s => s.download.delivered

def uploaded : Relay → List Byte
  | .copying s => s.upload.delivered
  | .splicing s => s.upload.delivered

end Relay

/-- Where the thread is, with the relay that it ends with if it came to it. -/
inductive Phase where
  | resolving
  | creating (ip : Ip)
  | connecting (ip : Ip)
  | shaking (rest : Code SocketOp SocketOp.Result (Except CStr Unit))
  | allocating
  /-- `pipe2` is called for the first pipe, or for the second. -/
  | piping (first : Bool)
  | relaying (r : Relay)
  | ended (r : Option Relay)

def Phase.hasEnded : Phase → Bool
  | .ended _ => true
  | _ => false

structure Thread where
  phase : Phase
  /-- `g_proxy_ip_cached`. -/
  cached : Ip
  /-- What the client sends. -/
  client : Segmented Byte
  /-- The socket to the proxy as the handshake leaves it. -/
  proxy : ProxySocket
  /-- Whom the socket to the proxy was connected to. -/
  peer : Option (Ip × Port)
  descriptors : Handles Descriptor

/-- What the calls of the thread return. -/
inductive Label where
  /-- `resolve_hostname`, if it is called. -/
  | resolve (getaddrinfo : CStr → AddrInfo)
  | socket (ok : Bool)
  | connect (ok : Bool)
  /-- The next call of the handshake. -/
  | call (attempt : Attempt)
  | malloc (ok : Bool)
  | pipe2 (ok : Bool)
  | pass (pass : Pass)
  /-- The end of `transfer_handler`. -/
  | cleanup

/-- How a call on the socket to the proxy goes: `send_all` takes everything, or fails after some
bytes, and `recv` takes the next piece, or fails. -/
def answer : Attempt → (op : SocketOp) → ProxySocket → Option (op.Result × ProxySocket)
  | .moves, .send data, s => some (true, { s with outgoing := s.outgoing ++ data })
  | .sendFails sent, .send data, s =>
    some (false, { s with outgoing := s.outgoing ++ data.take sent })
  | .moves, .recv size, s =>
    some (some (s.incoming.recv size).1, { s with incoming := (s.incoming.recv size).2 })
  | .recvFails, .recv _, s => some (none, s)
  | .recvFails, .send _, _ => none
  | .sendFails _, .recv _, _ => none

/-- The results of `send` that `send_all` gets make it go in one of these ways. -/
theorem answer_sendAll {pf : Platform} (send : SendAll.Socket pf) (data : List Byte)
    (s : ProxySocket) :
    answer ((SendAll.sendAll send data).attempt pf) (.send data) s =
      some (!SendAll.isError pf (SendAll.sendAll send data).returned,
        { s with
          outgoing := s.outgoing ++ SendAll.handed pf (SendAll.sendAll send data).calls }) := by
  have h := SendAll.sendAll_ends send data
  rcases h.ended with ⟨hreturned, -, -⟩ | ⟨hreturned, -, hall⟩
  · have hfront := List.prefix_iff_eq_take.mp h.isPrefix
    simp only [SendAll.Outcome.attempt, hreturned, SendAll.isError_neg_one, if_true, answer,
      Bool.not_true]
    rw [← hfront]
  · simp only [SendAll.Outcome.attempt, hreturned, SendAll.isError_natCast, Bool.false_eq_true,
      if_false, answer, Bool.not_false, hall]

namespace Thread

def start (setup : Setup) (client proxy : Segmented Byte) : Thread where
  phase := .resolving
  cached := setup.config.cached
  client := client
  proxy := ⟨proxy, []⟩
  peer := none
  descriptors := Handles.empty.acquire .clientSock true

def close (v : Descriptor) (s : Thread) : Thread :=
  { s with descriptors := s.descriptors.close v }

def acquire (v : Descriptor) (ok : Bool) (s : Thread) : Thread :=
  { s with descriptors := s.descriptors.acquire v ok }

def giveUp (s : Thread) : Thread :=
  { (s.close .clientSock).close .proxySock with phase := .ended none }

/-- The handshake goes on, is done, or has failed. -/
def settle : Code SocketOp SocketOp.Result (Except CStr Unit) → Thread → Thread
  | .ret (.ok ()), s => { s with phase := .allocating }
  | .ret (.error _), s => s.giveUp
  | .call op next, s => { s with phase := .shaking (.call op next) }

def resolve (pf : Platform) (setup : Setup) (getaddrinfo : CStr → AddrInfo) (s : Thread) :
    Thread :=
  let r := ProxyConfig.connectionHandler pf getaddrinfo setup.config
  match r.1 with
  | none => { s.close .clientSock with phase := .ended none, cached := r.2.cached }
  | some ip => { s with phase := .creating ip, cached := r.2.cached }

def createSocket (ip : Ip) (ok : Bool) (s : Thread) : Thread :=
  if ok then { s.acquire .proxySock true with phase := .connecting ip }
  else { (s.acquire .proxySock false).close .clientSock with phase := .ended none }

def connect (pf : Platform) (setup : Setup) (dest : Ip × Port) (ip : Ip) (ok : Bool) (s : Thread) :
    Thread :=
  if ok then
    { s with peer := some (ip, setup.config.port) }.settle (handshake pf setup dest).run
  else s.giveUp

def transfer (s : Thread) : Platform → Thread
  | .windows => { s with phase := .relaying (.copying (.start s.client s.proxy.incoming)) }
  | .linux => { s with phase := .piping true }

def makePipe (first ok : Bool) (s : Thread) : Thread :=
  let fallback := Phase.relaying (.copying (.start s.client s.proxy.incoming))
  if first then
    { s.acquire .pipeA ok with phase := if ok then .piping false else fallback }
  else if ok then
    { s.acquire .pipeB true with
      phase := .relaying (.splicing (.start s.client s.proxy.incoming)) }
  else { (s.acquire .pipeB false).close .pipeA with phase := fallback }

/-- What stands behind the loops of `transfer_handler`. -/
def cleanup (r : Relay) (s : Thread) : Thread :=
  let s := if r.usesPipes then (s.close .pipeA).close .pipeB else s
  { (s.close .clientSock).close .proxySock with phase := .ended (some r) }

def step (pf : Platform) (setup : Setup) (dest : Ip × Port) (s : Thread) (l : Label) :
    Option Thread :=
  match s.phase, l with
  | .resolving, .resolve getaddrinfo => some (s.resolve pf setup getaddrinfo)
  | .creating ip, .socket ok => some (s.createSocket ip ok)
  | .connecting ip, .connect ok => some (s.connect pf setup dest ip ok)
  | .shaking (.call op next), .call attempt =>
    (answer attempt op s.proxy).map fun r => { s with proxy := r.2 }.settle (next r.1)
  | .allocating, .malloc ok => some (if ok then s.transfer pf else s.giveUp)
  | .piping first, .pipe2 ok => some (s.makePipe first ok)
  | .relaying r, .pass pass => (r.step pf pass).map fun r => { s with phase := .relaying r }
  | .relaying r, .cleanup => if r.hasLeft then some (s.cleanup r) else none
  | _, _ => none

/-- The relay, if the thread has come to it. -/
def relay (s : Thread) : Option Relay :=
  match s.phase with
  | .relaying r => some r
  | .ended r => r
  | _ => none

/-- Everything that was written to the proxy, by the handshake and by the relay. -/
def toProxy (s : Thread) : List Byte := s.proxy.outgoing ++ s.relay.elim [] Relay.uploaded

def toClient (s : Thread) : List Byte := s.relay.elim [] Relay.downloaded

end Thread

/-- What a step of the thread can be, by its phase. -/
inductive Moves (pf : Platform) (setup : Setup) (dest : Ip × Port) (s : Thread) : Thread → Prop
  | resolve (h : s.phase = .resolving) (getaddrinfo : CStr → AddrInfo) :
    Moves pf setup dest s (s.resolve pf setup getaddrinfo)
  | createSocket {ip : Ip} (h : s.phase = .creating ip) (ok : Bool) :
    Moves pf setup dest s (s.createSocket ip ok)
  | connect {ip : Ip} (h : s.phase = .connecting ip) (ok : Bool) :
    Moves pf setup dest s (s.connect pf setup dest ip ok)
  | call {op : SocketOp} {next : op.Result → Code SocketOp SocketOp.Result (Except CStr Unit)}
    {attempt : Attempt} {r : op.Result × ProxySocket} (h : s.phase = .shaking (.call op next))
    (hanswer : answer attempt op s.proxy = some r) :
    Moves pf setup dest s ({ s with proxy := r.2 }.settle (next r.1))
  | malloc (h : s.phase = .allocating) (ok : Bool) :
    Moves pf setup dest s (if ok then s.transfer pf else s.giveUp)
  | pipe2 {first : Bool} (h : s.phase = .piping first) (ok : Bool) :
    Moves pf setup dest s (s.makePipe first ok)
  | pass {r r' : Relay} {pass : Pass} (h : s.phase = .relaying r)
    (hpass : r.step pf pass = some r') : Moves pf setup dest s { s with phase := .relaying r' }
  | cleanup {r : Relay} (h : s.phase = .relaying r) (hleft : r.hasLeft = true) :
    Moves pf setup dest s (s.cleanup r)

theorem moves_of_step {pf : Platform} {setup : Setup} {dest : Ip × Port} {s t : Thread}
    {l : Label} (h : s.step pf setup dest l = some t) : Moves pf setup dest s t := by
  have hnone : ¬ none = some t := by simp
  unfold Thread.step at h
  split at h
  · obtain rfl := Option.some.inj h
    exact .resolve ‹_› _
  · obtain rfl := Option.some.inj h
    exact .createSocket ‹_› _
  · obtain rfl := Option.some.inj h
    exact .connect ‹_› _
  · obtain ⟨r, hr, rfl⟩ := Option.map_eq_some_iff.mp h
    exact .call ‹_› hr
  · obtain rfl := Option.some.inj h
    exact .malloc ‹_› _
  · obtain rfl := Option.some.inj h
    exact .pipe2 ‹_› _
  · obtain ⟨r', hr', rfl⟩ := Option.map_eq_some_iff.mp h
    exact .pass ‹_› hr'
  · split_ifs at h with hleft
    obtain rfl := Option.some.inj h
    exact .cleanup ‹_› hleft
  · exact absurd h hnone

/-- The variables that hold an open socket or pipe. -/
def Phase.holds : Phase → Descriptor → Bool
  | .resolving, v | .creating _, v => v = .clientSock
  | .connecting _, v | .shaking _, v | .allocating, v => v = .clientSock || v = .proxySock
  | .piping first, v => v = .clientSock || v = .proxySock || (!first && v = .pipeA)
  | .relaying r, v => v = .clientSock || v = .proxySock || r.usesPipes
  | .ended _, _ => false

/-- The thread holds open what its phase needs, and it has closed the rest. -/
def Thread.Accounted (s : Thread) : Prop := s.descriptors.Holds s.phase.holds

section Account

variable {pf : Platform} {setup : Setup} {dest : Ip × Port} {s t : Thread}

theorem accounted_start (setup : Setup) (client proxy : Segmented Byte) :
    (Thread.start setup client proxy).Accounted := by
  have hempty : (Handles.empty : Handles Descriptor).Holds fun _ => false :=
    ⟨Handles.exact_empty, fun _ => rfl⟩
  exact (hempty.acquire rfl true).congr fun v => by cases v <;> rfl

/-- With both sockets open the thread can return. -/
theorem accounted_giveUp
    (h : s.descriptors.Holds fun v => v = .clientSock || v = .proxySock) : s.giveUp.Accounted :=
  ((h.close .clientSock).close .proxySock).congr fun v => by cases v <;> rfl

theorem accounted_settle (code : Code SocketOp SocketOp.Result (Except CStr Unit))
    (h : s.descriptors.Holds fun v => v = .clientSock || v = .proxySock) :
    (s.settle code).Accounted := by
  cases code with
  | call op next => exact h
  | ret result =>
    cases result with
    | ok => exact h
    | error message => exact accounted_giveUp h

theorem accounted_resolve (getaddrinfo : CStr → AddrInfo)
    (h : s.descriptors.Holds fun v => v = .clientSock) :
    (s.resolve pf setup getaddrinfo).Accounted := by
  unfold Thread.resolve
  dsimp only
  split
  · exact (h.close .clientSock).congr fun v => by cases v <;> rfl
  · exact h

theorem accounted_createSocket (ip : Ip) (ok : Bool)
    (h : s.descriptors.Holds fun v => v = .clientSock) : (s.createSocket ip ok).Accounted := by
  have hacquire := h.acquire (v := .proxySock) rfl ok
  cases ok with
  | true => exact hacquire.congr fun v => by cases v <;> rfl
  | false => exact (hacquire.close .clientSock).congr fun v => by cases v <;> rfl

theorem accounted_makePipe {first : Bool} (ok : Bool)
    (h : s.descriptors.Holds (Phase.piping first).holds) : (s.makePipe first ok).Accounted := by
  cases first with
  | true =>
    have hacquire := h.acquire (v := .pipeA) rfl ok
    cases ok with
    | true => exact hacquire.congr fun v => by cases v <;> rfl
    | false => exact hacquire.congr fun v => by cases v <;> rfl
  | false =>
    have hacquire := h.acquire (v := .pipeB) rfl ok
    cases ok with
    | true => exact hacquire.congr fun v => by cases v <;> rfl
    | false => exact (hacquire.close .pipeA).congr fun v => by cases v <;> rfl

theorem accounted_cleanup {r : Relay} (h : s.descriptors.Holds (Phase.relaying r).holds) :
    (s.cleanup r).Accounted := by
  cases r with
  | copying relay =>
    exact ((h.close .clientSock).close .proxySock).congr fun v => by cases v <;> rfl
  | splicing relay =>
    have hpipes := (h.close .pipeA).close .pipeB
    exact ((hpipes.close .clientSock).close .proxySock).congr fun v => by cases v <;> rfl

/-- A relay keeps to the loop it began with, and its passes are those of the loop. -/
theorem Relay.step_cases {r r' : Relay} {pass : Pass} (h : r.step pf pass = some r') :
    (∃ (P : Type) (event : P → CopyState.Event) (p : P) (s s' : CopyState),
      r = .copying s ∧ r' = .copying s' ∧ CopyState.step event s p = some s') ∨
    ∃ (p : Linux.SplicePass) (s s' : Linux.SpliceState),
      r = .splicing s ∧ r' = .splicing s' ∧ s.step p = some s' := by
  have hnone : ¬ none = some r' := by simp
  cases r with
  | copying s =>
    refine .inl ?_
    cases pf with
    | windows =>
      cases pass with
      | select p =>
        obtain ⟨s', hs', rfl⟩ := Option.map_eq_some_iff.mp h
        exact ⟨_, _, p, s, s', rfl, rfl, hs'⟩
      | _ => exact absurd h hnone
    | linux =>
      cases pass with
      | poll p =>
        obtain ⟨s', hs', rfl⟩ := Option.map_eq_some_iff.mp h
        exact ⟨_, _, p, s, s', rfl, rfl, hs'⟩
      | _ => exact absurd h hnone
  | splicing s =>
    refine .inr ?_
    cases pf with
    | windows => cases pass <;> exact absurd h hnone
    | linux =>
      cases pass with
      | splice p =>
        obtain ⟨s', hs', rfl⟩ := Option.map_eq_some_iff.mp h
        exact ⟨p, s, s', rfl, rfl, hs'⟩
      | _ => exact absurd h hnone

theorem usesPipes_step {r r' : Relay} {pass : Pass} (h : r.step pf pass = some r') :
    r'.usesPipes = r.usesPipes := by
  rcases Relay.step_cases h with ⟨-, -, -, s, s', rfl, rfl, -⟩ | ⟨-, s, s', rfl, rfl, -⟩
  · rfl
  · rfl

theorem accounted_step {l : Label} (hs : s.Accounted) (h : s.step pf setup dest l = some t) :
    t.Accounted := by
  rw [Thread.Accounted] at hs
  cases moves_of_step h with
  | resolve hphase getaddrinfo =>
    rw [hphase] at hs
    exact accounted_resolve getaddrinfo hs
  | createSocket hphase ok =>
    rw [hphase] at hs
    exact accounted_createSocket _ ok hs
  | connect hphase ok =>
    rw [hphase] at hs
    cases ok with
    | true => exact accounted_settle _ hs
    | false => exact accounted_giveUp hs
  | call hphase hanswer =>
    rw [hphase] at hs
    exact accounted_settle _ hs
  | malloc hphase ok =>
    rw [hphase] at hs
    cases ok with
    | true => cases pf <;> exact hs.congr fun v => by cases v <;> rfl
    | false => exact accounted_giveUp hs
  | pipe2 hphase ok =>
    rw [hphase] at hs
    exact accounted_makePipe ok hs
  | pass hphase hpass =>
    rw [hphase] at hs
    refine hs.congr fun v => ?_
    simp only [Phase.holds, usesPipes_step hpass]
  | cleanup hphase hleft =>
    rw [hphase] at hs
    exact accounted_cleanup hs

/-- However the calls of the thread go, it loses nothing that it opens: its phase says what is
open, nothing is closed twice, and everything is closed once when the thread is over. -/
theorem thread_closes_what_it_opens {client proxy : Segmented Byte} {ls : List Label}
    (hrun : run (Thread.step pf setup dest) (.start setup client proxy) ls = some s) :
    s.descriptors.lost = [] ∧ s.descriptors.closed.Nodup ∧
      (∀ v, s.descriptors.isOpen v = s.phase.holds v) ∧
      (s.phase.hasEnded = true →
        ∀ d < s.descriptors.opened, s.descriptors.closed.count d = 1) := by
  have hs : s.Accounted := run_invariant (fun _ _ _ => accounted_step) hrun
    (accounted_start setup client proxy)
  refine ⟨hs.exact.lost, hs.exact.closed_nodup, hs.isOpen_eq, fun hover => ?_⟩
  apply hs.exact.closed_once
  intro v
  apply hs.held_none
  cases hphase : s.phase with
  | ended r => rfl
  | _ =>
    rw [hphase] at hover
    cases hover

end Account

/-- A proxy with an address, that takes users without a login. -/
def openProxy : Setup where
  config := ⟨"10.0.0.1".toList, 1080, .socks5, [], [], 0⟩
  username_length := by decide
  password_length := by decide

/-- A request of two bytes, and the answer to it behind the consent of the proxy. -/
def shortRequest : Segmented Byte := .ofParts [[71, 10]]

def shortAnswer : Segmented Byte := .ofParts [[5, 0], [5, 0, 0, 1, 10, 0, 0, 1, 4, 56], [79]]

def smoothHandshake : List Label :=
  [.resolve fun _ => .failed, .socket true, .connect true, .call .moves, .call .moves, .call .moves,
    .call .moves, .malloc true]

/-- The second pipe cannot be created, and the fallback ends with an error of `poll`. -/
theorem thread_closes_what_it_opens_onePipe :
    ∃ s : Thread, s.descriptors.opened = 3 ∧ s.descriptors.closed = [2, 0, 1] ∧
      s.descriptors.lost = [] ∧ ∀ d < s.descriptors.opened, s.descriptors.closed.count d = 1 := by
  obtain ⟨s, hrun, hends⟩ := Option.map_eq_some_iff.mp (show
    (run (Thread.step .linux openProxy (ipv4 9 9 9 9, 443))
      (.start openProxy shortRequest shortAnswer)
      (smoothHandshake ++ [.pipe2 true, .pipe2 false, .pass (.poll .failed), .cleanup])).map
        (fun s => (s.descriptors.opened, s.descriptors.closed, s.phase.hasEnded)) =
      some (3, [2, 0, 1], true)
    by decide +kernel)
  simp only [Prod.mk.injEq] at hends
  have hcloses := thread_closes_what_it_opens hrun
  exact ⟨s, hends.1, hends.2.1, hcloses.1, hcloses.2.2.2 hends.2.2⟩

end ProxyTun.ConnectionHandler
