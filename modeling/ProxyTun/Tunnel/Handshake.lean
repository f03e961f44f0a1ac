import ProxyTun.Core.CString
import ProxyTun.Library.Resumption
import ProxyTun.Linux.TransferHandler
import ProxyTun.Tunnel.Transfer

/-!
# Handshakes with the proxy

`connection_handler` connects to the proxy, runs a handshake on the socket and hands the
same socket to `transfer_handler`. The handshake sends requests and reads replies, and
gives up with a message for the log.
-/
namespace ProxyTun
open Library

/-- The calls of a handshake on the proxy's socket. -/
inductive SocketOp where
  | send (data : List Byte)
  | recv (size : ℕ)

/-- Whether all of the data was sent, and what was received unless there was an error. -/
abbrev SocketOp.Result : SocketOp → Type
  | .send _ => Bool
  | .recv _ => Option (List Byte)

abbrev Handshake (α : Type) := ExceptT CStr (Code SocketOp SocketOp.Result) α

/-- The user name and the password, of at most 255 characters each as they are stored. -/
structure Credentials where
  username : CStr
  password : CStr
  username_length : username.length ≤ 255
  password_length : password.length ≤ 255

def Credentials.anonymous : Credentials := ⟨[], [], by decide, by decide⟩

def Credentials.useAuth (creds : Credentials) : Bool := creds.username ≠ []

/-- A connected socket: what the proxy will send, and what was sent to it. -/
structure ProxySocket where
  incoming : Segmented Byte
  outgoing : List Byte

/-- A socket on which every call succeeds. -/
def ProxySocket.answer : (op : SocketOp) → ProxySocket → op.Result × ProxySocket
  | .send data, s => (true, { s with outgoing := s.outgoing ++ data })
  | .recv size, s =>
    (some (s.incoming.recv size).1, { s with incoming := (s.incoming.recv size).2 })

namespace Handshake

def recv (size : ℕ) : Handshake (Option (List Byte)) := Code.issue CStr (SocketOp.recv size)

def check (ok : Bool) (message : CStr) : Handshake Unit :=
  if ok then pure () else throw message

/-- Data that must be sent as a whole. -/
def sendAll (data : List Byte) (message : CStr) : Handshake Unit := do
  let sent ← Code.issue CStr (SocketOp.send data)
  check sent message

/-- On a socket without errors the handshake succeeds and leaves the socket `t`. -/
abbrev Yields {α : Type} (h : Handshake α) (s : ProxySocket) (a : α) (t : ProxySocket) : Prop :=
  Code.Yields ProxySocket.answer h s a t

variable {α : Type} {s t : ProxySocket}

theorem bind_yields (h : Handshake Unit) (f : Unit → Handshake α) (a : α) :
    (h >>= f).Yields s a t ↔ ∃ r, h.Yields s () r ∧ (f ()).Yields r a t := by
  simp [Code.yields_bind, Unique.exists_iff]

@[simp] theorem yields_check (ok : Bool) (message : CStr) (u : Unit) :
    (check ok message).Yields s u t ↔ ok = true ∧ t = s := by
  cases ok <;> simp [check]

@[simp] theorem check_bind_yields (ok : Bool) (message : CStr) (f : Unit → Handshake α) (a : α) :
    (check ok message >>= f).Yields s a t ↔ ok = true ∧ (f ()).Yields s a t := by
  simp [bind_yields]

theorem sendAll_yields (data : List Byte) (message : CStr) :
    (sendAll data message).Yields s () t ↔ t = { s with outgoing := s.outgoing ++ data } := by
  simp [sendAll, ProxySocket.answer, Code.yields_bind]

@[simp] theorem sendAll_bind_yields (data : List Byte) (message : CStr) (f : Unit → Handshake α)
    (a : α) :
    (sendAll data message >>= f).Yields s a t ↔
      (f ()).Yields { s with outgoing := s.outgoing ++ data } a t := by
  simp [bind_yields, sendAll_yields]

@[simp] theorem recv_bind_yields (size : ℕ) (f : Option (List Byte) → Handshake α) (a : α) :
    (recv size >>= f).Yields s a t ↔
      (f (some (s.incoming.recv size).1)).Yields
        { s with incoming := (s.incoming.recv size).2 } a t := by
  simp [recv, ProxySocket.answer, Code.yields_bind]

end Handshake

/-- `transfer_handler` of both engines. Only the Linux engine uses pipes, if it gets them. -/
def transferHandler : Platform → Bool → TransferLoop
  | .windows, _ => Windows.transferHandler
  | .linux, pipes => Linux.transferHandler pipes

/-- The handshake succeeds on the stream that the proxy sends, and `transfer_handler` then
sends the client exactly `tunnel`. -/
def Transparent (pf : Platform) (handshake : Handshake Unit) (stream : Segmented Byte)
    (tunnel : List Byte) : Prop :=
  ∃ proxy, handshake.Yields ⟨stream, []⟩ () proxy ∧
    ∀ pipes, (transferHandler pf pipes).Forwards proxy.incoming tunnel

/-- A tunnel is transparent when the handshake leaves exactly the tunnel's bytes unread. -/
theorem transparent_iff (pf : Platform) (handshake : Handshake Unit) (stream : Segmented Byte)
    (tunnel : List Byte) :
    Transparent pf handshake stream tunnel ↔
      ∃ proxy, handshake.Yields ⟨stream, []⟩ () proxy ∧ proxy.incoming.contents = tunnel := by
  simp [Transparent, TransferLoop.forwards_iff]

end ProxyTun
