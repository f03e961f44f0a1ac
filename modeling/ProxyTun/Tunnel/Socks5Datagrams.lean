import ProxyTun.Tunnel.Socks5Requests

/-!
# The datagrams of SOCKS5 as the proxy writes and reads them

RFC 1928 puts the same header before a datagram in both directions: two reserved bytes, the number
of the fragment, and the address and the port of the host at the other end.
-/
namespace ProxyTun.Socks5

namespace Destination

/-- The type of the address and the address. -/
def bytes : Destination → List Byte
  | .ipv4 octets => 1 :: octets
  | .name text => 3 :: BitVec.ofNat 8 text.length :: text
  | .ipv6 octets => 4 :: octets

def IsWellFormed : Destination → Prop
  | .ipv4 octets => octets.length = 4
  | .name text => text.length ≤ 255
  | .ipv6 octets => octets.length = 16

instance : DecidablePred IsWellFormed
  | .ipv4 octets => inferInstanceAs (Decidable (octets.length = 4))
  | .name text => inferInstanceAs (Decidable (text.length ≤ 255))
  | .ipv6 octets => inferInstanceAs (Decidable (octets.length = 16))

end Destination

/-- A datagram with the host that it goes to or comes from. -/
structure Addressed where
  host : Destination
  port : Port
  payload : List Byte
  deriving DecidableEq

def encodeDatagram (a : Addressed) : List Byte :=
  [0, 0, 0] ++ a.host.bytes ++ portBytes a.port ++ a.payload

/-- Fragments are not put together. -/
def decodeDatagram : List Byte → Option Addressed
  | reserved :: reserved' :: fragment :: data =>
    if reserved = 0 ∧ reserved' = 0 ∧ fragment = 0 then
      (readDestination data).bind fun r => (readBytes 2 r.2).bind fun p =>
        (readPort p.1).map fun port => ⟨r.1, port, p.2⟩
    else none
  | _ => none

theorem readDestination_bytes {host : Destination} (h : host.IsWellFormed) (rest : List Byte) :
    readDestination (host.bytes ++ rest) = some (host, rest) := by
  cases host with
  | ipv4 octets =>
    change readDestination (1 :: (octets ++ rest)) = _
    rw [readDestination, if_pos rfl, ← show octets.length = 4 from h, readBytes_append,
      Option.map_some]
  | name text =>
    have hlength : (BitVec.ofNat 8 text.length).toNat = text.length := by
      rw [BitVec.toNat_ofNat]
      exact Nat.mod_eq_of_lt (Nat.lt_succ_of_le h)
    change readDestination (3 :: (BitVec.ofNat 8 text.length :: (text ++ rest))) = _
    rw [readDestination, if_neg (by decide), if_pos rfl, readCounted_append hlength,
      Option.map_some]
  | ipv6 octets =>
    change readDestination (4 :: (octets ++ rest)) = _
    rw [readDestination, if_neg (by decide), if_neg (by decide), if_pos rfl,
      ← show octets.length = 16 from h, readBytes_append, Option.map_some]

theorem decodeDatagram_encodeDatagram {a : Addressed} (h : a.host.IsWellFormed) :
    decodeDatagram (encodeDatagram a) = some a := by
  have hzero : (0 : Byte) = 0 ∧ (0 : Byte) = 0 ∧ (0 : Byte) = 0 := ⟨rfl, rfl, rfl⟩
  have hport : readBytes 2 (portBytes a.port ++ a.payload) = some (portBytes a.port, a.payload) :=
    readBytes_append (portBytes a.port) a.payload
  have hdata : encodeDatagram a =
      0 :: 0 :: 0 :: (a.host.bytes ++ (portBytes a.port ++ a.payload)) := by
    simp only [encodeDatagram, List.append_assoc, List.cons_append, List.nil_append]
  rw [hdata, decodeDatagram, if_pos hzero, readDestination_bytes h, Option.bind_some, hport,
    Option.bind_some, readPort_portBytes, Option.map_some]

end ProxyTun.Socks5
