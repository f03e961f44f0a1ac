import ProxyTun.MacOS.Characters
import ProxyTun.Tunnel.HttpConnect

/-!
# The handshakes of the macOS extension

The extension reads from the proxy with `readMinimumLength`, which returns what has arrived
between a minimum and a maximum. The last read of a handshake takes up to 512 or 8192 bytes, and
what it takes behind the reply is not relayed.
-/
namespace ProxyTun.MacOS
open Library Library.Code

/-- The calls on the connection to the proxy. -/
inductive ConnectionOp where
  | write (data : List Byte)
  | readMinimumLength (min max : ℕ)

abbrev ConnectionOp.Result : ConnectionOp → Type
  | .write _ => Option CStr
  | .readMinimumLength _ _ => Except CStr (Option (List Byte))

/-- Callbacks in sequence that give up with a message for the log. Whoever gives up closes the
client's flow and cancels the connection. -/
abbrev Exchange (α : Type) := ExceptT CStr (Code ConnectionOp ConnectionOp.Result) α

/-- What the extension uses of the system: the characters of a string, of which there may be fewer
than bytes, and the parsers of addresses. -/
structure Foundation extends Characters where
  ipv4Address : CStr → Option (List Byte)
  ipv6Address : CStr → Option (List Byte)
  length_ipv4Address : ∀ text octets, ipv4Address text = some octets → octets.length = 4
  length_ipv6Address : ∀ text octets, ipv6Address text = some octets → octets.length = 16

/-- A connection without errors. -/
def answer : (op : ConnectionOp) → ProxySocket → op.Result × ProxySocket
  | .write data, s => (none, { s with outgoing := s.outgoing ++ data })
  | .readMinimumLength min max, s =>
    (.ok (some (s.incoming.recvAtLeast min max).1),
      { s with incoming := (s.incoming.recvAtLeast min max).2 })

namespace Exchange

abbrev Yields {α : Type} (h : Exchange α) (s : ProxySocket) (a : α) (t : ProxySocket) : Prop :=
  Code.Yields answer h s a t

def write (data : List Byte) (failed : CStr) : Exchange Unit := do
  match ← issue CStr (ConnectionOp.write data) with
  | some error => throw (failed ++ ": ".toList ++ error)
  | none => pure ()

def readMinimumLength (min max : ℕ) (failed : CStr) : Exchange (Option (List Byte)) := do
  match ← issue CStr (ConnectionOp.readMinimumLength min max) with
  | .error error => throw (failed ++ ": ".toList ++ error)
  | .ok data => pure data

/-- `UInt8(n)`, which traps on numbers that do not fit. -/
def uint8 (n : ℕ) : Exchange Byte := do
  require "Not enough bits to represent the passed value".toList (n ≤ 255)
  pure (BitVec.ofNat 8 n)

variable {α : Type} {s t : ProxySocket} {a : α}

@[simp] theorem write_bind_yields (data : List Byte) (failed : CStr) (f : Unit → Exchange α) :
    (write data failed >>= f).Yields s a t ↔
      (f ()).Yields { s with outgoing := s.outgoing ++ data } a t :=
  Iff.rfl

@[simp] theorem read_bind_yields (min max : ℕ) (failed : CStr)
    (f : Option (List Byte) → Exchange α) :
    (readMinimumLength min max failed >>= f).Yields s a t ↔
      (f (some (s.incoming.recvAtLeast min max).1)).Yields
        { s with incoming := (s.incoming.recvAtLeast min max).2 } a t :=
  Iff.rfl

@[simp] theorem uint8_bind_yields (n : ℕ) (f : Byte → Exchange α) :
    (uint8 n >>= f).Yields s a t ↔ n ≤ 255 ∧ (f (BitVec.ofNat 8 n)).Yields s a t := by
  simp [uint8, yields_bind, and_assoc]

@[simp] theorem require_bind_yields (message : CStr) (ok : Bool) (f : Unit → Exchange α) :
    Yields (require message ok >>= f) s a t ↔ ok = true ∧ (f ()).Yields s a t :=
  yields_require_bind answer message ok f s t a

@[simp] theorem require_yields (message : CStr) (ok : Bool) (u : Unit) :
    Yields (require message ok) s u t ↔ ok = true ∧ t = s :=
  yields_require answer message ok s t u

end Exchange

open Exchange

def utf8 (text : CStr) : List Byte := (text.flatMap String.utf8EncodeChar).map UInt8.toBitVec

/-- The text of bytes that are valid UTF-8. -/
def decodeUtf8 (data : List Byte) : Option CStr :=
  ((data.map UInt8.ofBitVec).toByteArray.utf8Decode?).map Array.toList

/-- The proxy's credentials in the configuration. -/
structure Login where
  username : Option CStr
  password : Option CStr

def Login.isGiven (login : Login) : Bool := login.username.isSome && login.password.isSome

def greeting (login : Login) : List Byte := if login.isGiven then [5, 2, 0, 2] else [5, 1, 0]

variable (sys : Foundation)

def destinationAddress (destination : CStr) : Exchange (List Byte) :=
  match sys.ipv4Address destination, sys.ipv6Address destination with
  | some octets, _ => pure (1 :: octets)
  | none, some octets => pure (4 :: octets)
  | none, none => do
    let length ← uint8 (sys.count destination)
    pure (3 :: length :: utf8 destination)

def sendSOCKS5ConnectRequest (destination : CStr) (port : Port) : Exchange Unit := do
  let address ← destinationAddress sys destination
  write ([5, 1, 0] ++ address ++ [port.extractLsb' 8 8, port.extractLsb' 0 8])
    "SOCKS5 connect write failed".toList
  let data ← readMinimumLength 10 512 "SOCKS5 connect response failed".toList
  require "SOCKS5 connect failed".toList
    (data.any fun d => 10 ≤ d.length && d.take 2 = [5, 0])

def sendSOCKS5Auth (username password : CStr) : Exchange Unit := do
  let userLength ← uint8 (sys.count username)
  let passLength ← uint8 (sys.count password)
  write (1 :: userLength :: utf8 username ++ passLength :: utf8 password)
    "SOCKS5 auth write failed".toList
  let data ← readMinimumLength 2 2 "SOCKS5 auth response failed".toList
  require "SOCKS5 auth failed".toList (data.any fun d => d.length = 2 && d.getD 1 1 = 0)

def handleSOCKS5Proxy (login : Login) (destination : CStr) (port : Port) : Exchange Unit := do
  write (greeting login) "SOCKS5 greeting write failed".toList
  let data ← readMinimumLength 2 2 "SOCKS5 greeting response failed".toList
  require "SOCKS5 invalid greeting response".toList (data.any fun d => d.length = 2)
  let version := (data.getD []).getD 0 0
  let method := (data.getD []).getD 1 0
  require ("SOCKS5 invalid version: ".toList ++ decimal version.toNat) (version = 5)
  if method = 0 then sendSOCKS5ConnectRequest sys destination port
  else if method = 2 then do
    sendSOCKS5Auth sys (login.username.getD []) (login.password.getD [])
    sendSOCKS5ConnectRequest sys destination port
  else throw ("SOCKS5 no acceptable auth method: ".toList ++ decimal method.toNat)

def httpRequest (login : Login) (destination : CStr) (port : Port) : CStr :=
  let host := destination ++ ":".toList ++ decimal port.toNat
  "CONNECT ".toList ++ host ++ " HTTP/1.1\r\n".toList ++
    "Host: ".toList ++ host ++ "\r\n".toList ++
    (match login.username, login.password with
      | some username, some password =>
        "Proxy-Authorization: Basic ".toList ++
          base64Encode (utf8 (username ++ ":".toList ++ password)) ++ "\r\n".toList
      | _, _ => []) ++
    "\r\n".toList

/-- Any text with 200 in it counts as success. -/
def handleHTTPProxy (login : Login) (destination : CStr) (port : Port) : Exchange Unit := do
  write (utf8 (httpRequest login destination port)) "HTTP CONNECT write failed".toList
  let data ← readMinimumLength 1 8192 "HTTP CONNECT response failed".toList
  match data.bind decodeUtf8 with
  | none => throw "HTTP CONNECT invalid response".toList
  | some response =>
    require ("HTTP CONNECT failed: ".toList ++ response) (sys.contains response "200".toList)

end ProxyTun.MacOS
