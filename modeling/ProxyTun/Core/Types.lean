import Mathlib.Data.BitVec

/-!
# Addresses, ports, packets and datagrams

Addresses are kept as the source keeps them, 32-bit words in network byte order
read on a little-endian machine, so that octet 0 of the dotted form is the lowest
byte. Ports are in host order, as after `ntohs`.
-/
namespace ProxyTun

abbrev Byte := BitVec 8
abbrev Ip := BitVec 32
abbrev Port := BitVec 16
abbrev Pid := BitVec 32

/-- A reading of the 64-bit millisecond clock. -/
abbrev Tick := BitVec 64

/-- The bytes of a C string before its terminating zero, one character a byte. -/
abbrev CStr := List Char

/-- The two engines written in C, which share most of their code. -/
inductive Platform where
  | windows
  | linux
  deriving DecidableEq, Repr

def localProxyPort : Port := 34010
def localUdpRelayPort : Port := 34011

/-- Octet `i` of the dotted form. -/
def octet (ip : Ip) (i : ℕ) : Byte := ip.extractLsb' (8 * i) 8

def ipv4 (a b c d : Byte) : Ip := d ++ c ++ b ++ a

theorem toNat_ipv4 (a b c d : Byte) :
    (ipv4 a b c d).toNat =
      2 ^ 24 * d.toNat + 2 ^ 16 * c.toNat + 2 ^ 8 * b.toNat + a.toNat := by
  change (d ++ c ++ b ++ a).toNat = _
  simp only [BitVec.toNat_append]
  rw [← Nat.shiftLeft_add_eq_or_of_lt c.isLt, ← Nat.shiftLeft_add_eq_or_of_lt b.isLt,
    ← Nat.shiftLeft_add_eq_or_of_lt a.isLt]
  simp only [Nat.shiftLeft_eq]
  omega

theorem octet_ipv4 (a b c d : Byte) :
    octet (ipv4 a b c d) 0 = a ∧ octet (ipv4 a b c d) 1 = b ∧ octet (ipv4 a b c d) 2 = c ∧
      octet (ipv4 a b c d) 3 = d := by
  have ha := a.isLt
  have hb := b.isLt
  have hc := c.isLt
  have hd := d.isLt
  refine ⟨?_, ?_, ?_, ?_⟩
  all_goals
    apply BitVec.eq_of_toNat_eq
    rw [octet, BitVec.extractLsb'_toNat, toNat_ipv4, Nat.shiftRight_eq_div_pow]
    omega

theorem ipv4_octets (ip : Ip) : ipv4 (octet ip 0) (octet ip 1) (octet ip 2) (octet ip 3) = ip := by
  unfold ipv4 octet
  rw [BitVec.extractLsb'_append_extractLsb'_eq_extractLsb' (by rfl),
    BitVec.extractLsb'_append_extractLsb'_eq_extractLsb' (by rfl)]
  exact BitVec.extractLsb'_append_extractLsb'

theorem shifted_address (a b c d : Byte) :
    (a.setWidth 32 <<< 0) ||| (b.setWidth 32 <<< 8) ||| (c.setWidth 32 <<< 16) |||
      (d.setWidth 32 <<< 24) = ipv4 a b c d := by
  have happend : ipv4 a b c d = (d.setWidth 32 <<< 24) ||| (c.setWidth 32 <<< 16) |||
      (b.setWidth 32 <<< 8) ||| a.setWidth 32 :=
    (BitVec.setWidth_eq _).symm.trans BitVec.setWidth_append_append_append_eq_shiftLeft_setWidth_or
  rw [happend, BitVec.shiftLeft_zero, BitVec.or_comm _ (d.setWidth 32 <<< 24),
    BitVec.or_comm _ (c.setWidth 32 <<< 16), BitVec.or_comm (a.setWidth 32), BitVec.or_assoc,
    BitVec.or_assoc]

/-- `htonl(INADDR_LOOPBACK)`. -/
def loopback : Ip := ipv4 127 0 0 1

def isLoopback (ip : Ip) : Bool := octet ip 0 = 127

structure TcpFlags where
  syn : Bool
  ack : Bool
  fin : Bool
  rst : Bool
  deriving DecidableEq, Repr

inductive Transport where
  | tcp (flags : TcpFlags)
  | udp
  deriving DecidableEq, Repr

def Transport.isUdp : Transport → Bool
  | .tcp _ => false
  | .udp => true

theorem Transport.isUdp_eq_true_iff (t : Transport) : t.isUdp = true ↔ t = .udp := by
  cases t <;> simp [Transport.isUdp]

/-- The local port of the relay for a protocol. -/
def Transport.relayPort : Transport → Port
  | .tcp _ => localProxyPort
  | .udp => localUdpRelayPort

/-- The fields of a captured IPv4 packet that the engines read or rewrite. -/
structure Packet where
  srcAddr : Ip
  dstAddr : Ip
  srcPort : Port
  dstPort : Port
  outbound : Bool
  transport : Transport
  payload : List Byte
  deriving DecidableEq, Repr

/-- A packet that an application sends from port 5000 of the address 10.0.0.2. -/
def Packet.fromApp (transport : Transport) (dest : Ip × Port) (payload : List Byte) : Packet :=
  ⟨ipv4 10 0 0 2, dest.1, 5000, dest.2, true, transport, payload⟩

/-- The packet asks for a new TCP connection. -/
def Packet.opensTcp (p : Packet) : Bool :=
  match p.transport with
  | .tcp f => f.syn && !f.ack
  | .udp => false

/-! The header that the relays put before a payload for a SOCKS5 proxy, and what they read of the
proxy's datagrams: only whole datagrams with an IPv4 address are understood. -/

/-- The header of a datagram for an IPv4 destination. -/
def socks5Header (dest : Ip × Port) : List Byte :=
  [0, 0, 0, 1, octet dest.1 0, octet dest.1 1, octet dest.1 2, octet dest.1 3,
    dest.2.extractLsb' 8 8, dest.2.extractLsb' 0 8]

/-- The remote end and the payload of a datagram from the proxy. -/
def decapsulate : List Byte → Option ((Ip × Port) × List Byte)
  | _ :: _ :: frag :: atyp :: a :: b :: c :: d :: hi :: lo :: payload =>
    if frag ≠ 0 then none
    else if atyp ≠ 1 then none
    else some ((ipv4 a b c d, hi ++ lo), payload)
  | _ => none

theorem port_bytes (port : Port) :
    (port.extractLsb' 8 8 ++ port.extractLsb' 0 8 : BitVec 16) = port :=
  BitVec.extractLsb'_append_extractLsb'

/-- The proxy's datagram about a destination is read back as it was put together. -/
theorem decapsulate_socks5Header (dest : Ip × Port) (payload : List Byte) :
    decapsulate (socks5Header dest ++ payload) = some (dest, payload) := by
  simp [socks5Header, decapsulate, ipv4_octets, port_bytes]

end ProxyTun
