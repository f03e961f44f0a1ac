import ProxyTun.Core.Types
import ProxyTun.Library.Buffer

/-!
# How the relays build and read the datagrams of the proxy

`udp_relay_server` receives in one buffer on the stack and builds what it sends to the proxy in
another. On Windows the header is shifted together byte by byte, on Linux it is copied from and to
words in memory.
-/
namespace ProxyTun.Relays
open Library.Buffer

/-- What ends a turn of the loop of `udp_relay_server`. -/
inductive Stop where
  /-- Something outside of a buffer is read or written. -/
  | outside
  /-- `continue`. -/
  | passedOver
  deriving DecidableEq, Repr

def inside {α : Type} : Option α → Except Stop α
  | some a => .ok a
  | none => .error .outside

def continueIf (condition : Bool) : Except Stop Unit :=
  if condition then .error .passedOver else .ok ()

def memcpy (target : List Byte) (start : ℕ) (source : List Byte) (count : ℕ) :
    Except Stop (List Byte) := do
  let bytes ← inside (loadFront source count)
  inside (storeAll target start bytes)

/-- `recv_buf` after a datagram that has room in it. -/
def received (recvBuf datagram : List Byte) : List Byte := overwrite recvBuf 0 datagram

end ProxyTun.Relays

namespace ProxyTun.Windows
open Library.Buffer Relays

/-- `MAXBUF`, the size of both buffers. -/
def maxBuf : ℕ := 0xFFFF

/-- The datagram for the proxy, from the first `recvLen` bytes of the client's. -/
def buildDatagram (recvBuf sendBuf : List Byte) (recvLen : ℕ) (destIp : Ip) (destPort : Port) :
    Except Stop (List Byte) := do
  let sendBuf ← inside (storeAll sendBuf 0 [0, 0, 0, 1,
    ((destIp >>> 0) &&& 0xFF).setWidth 8, ((destIp >>> 8) &&& 0xFF).setWidth 8,
    ((destIp >>> 16) &&& 0xFF).setWidth 8, ((destIp >>> 24) &&& 0xFF).setWidth 8,
    ((destPort >>> 8) &&& 0xFF).setWidth 8, ((destPort >>> 0) &&& 0xFF).setWidth 8])
  let sendBuf ← memcpy sendBuf 10 recvBuf recvLen
  inside (loadFront sendBuf (10 + recvLen))

/-- `udp_relay_server` with a datagram from a client. -/
def encapsulate (recvBuf sendBuf : List Byte) (recvLen : ℕ) (dest : Ip × Port) :
    Except Stop (List Byte) := do
  continueIf (recvLen = 0)
  continueIf (maxBuf - 10 < recvLen)
  buildDatagram recvBuf sendBuf recvLen dest.1 dest.2

/-- `udp_relay_server` with a datagram from the proxy. -/
def readReply (recvBuf : List Byte) (recvLen : ℕ) : Except Stop ((Ip × Port) × List Byte) := do
  continueIf (recvLen < 10)
  let frag ← inside (load recvBuf 2)
  continueIf (frag ≠ 0)
  let addressType ← inside (load recvBuf 3)
  continueIf (addressType ≠ 1)
  let a ← inside (load recvBuf 4)
  let b ← inside (load recvBuf 5)
  let c ← inside (load recvBuf 6)
  let d ← inside (load recvBuf 7)
  let srcIp : Ip := (a.setWidth 32 <<< 0) ||| (b.setWidth 32 <<< 8) ||| (c.setWidth 32 <<< 16) |||
    (d.setWidth 32 <<< 24)
  let high ← inside (load recvBuf 8)
  let low ← inside (load recvBuf 9)
  let srcPort : Port := ((high.setWidth 32 <<< 8) ||| low.setWidth 32).setWidth 16
  let data ← inside (loadFront (recvBuf.drop 10) (recvLen - 10))
  pure ((srcIp, srcPort), data)

end ProxyTun.Windows

namespace ProxyTun.Linux
open Library.Buffer Relays

/-- `sizeof(recv_buf)` and `sizeof(send_buf)`. -/
def relayBufferSize : ℕ := 65536

def addressBytes (ip : Ip) : List Byte := [octet ip 0, octet ip 1, octet ip 2, octet ip 3]

/-- The bytes of a word of 16 bits in memory. -/
def wordBytes (word : BitVec 16) : List Byte := [word.extractLsb' 0 8, word.extractLsb' 8 8]

/-- `htons`, which is also `ntohs`. -/
def htons (word : BitVec 16) : BitVec 16 := word.extractLsb' 0 8 ++ word.extractLsb' 8 8

/-- The datagram for the proxy, from the first `recvLen` bytes of the client's. -/
def buildDatagram (recvBuf sendBuf : List Byte) (recvLen : ℕ) (destIp : Ip) (destPort : Port) :
    Except Stop (List Byte) := do
  let sendBuf ← inside (storeAll sendBuf 0 [0, 0, 0, 1])
  let sendBuf ← memcpy sendBuf 4 (addressBytes destIp) 4
  let portNet := htons destPort
  let sendBuf ← memcpy sendBuf 8 (wordBytes portNet) 2
  let sendBuf ← memcpy sendBuf 10 recvBuf recvLen
  inside (loadFront sendBuf (10 + recvLen))

/-- `udp_relay_server` with a datagram from a client. -/
def encapsulate (recvBuf sendBuf : List Byte) (recvLen : ℕ) (dest : Ip × Port) :
    Except Stop (List Byte) := do
  continueIf (recvLen = 0)
  continueIf (relayBufferSize - 10 < recvLen)
  buildDatagram recvBuf sendBuf recvLen dest.1 dest.2

/-- `udp_relay_server` with a datagram from the proxy. -/
def readReply (recvBuf : List Byte) (recvLen : ℕ) : Except Stop ((Ip × Port) × List Byte) := do
  continueIf (recvLen < 10)
  let frag ← inside (load recvBuf 2)
  continueIf (frag ≠ 0)
  let addressType ← inside (load recvBuf 3)
  continueIf (addressType ≠ 1)
  let a ← inside (load recvBuf 4)
  let b ← inside (load recvBuf 5)
  let c ← inside (load recvBuf 6)
  let d ← inside (load recvBuf 7)
  let srcIp := ipv4 a b c d
  let first ← inside (load recvBuf 8)
  let second ← inside (load recvBuf 9)
  let srcPort : Port := htons (second ++ first)
  let data ← inside (loadFront (recvBuf.drop 10) (recvLen - 10))
  pure ((srcIp, srcPort), data)

end ProxyTun.Linux

namespace ProxyTun.Relays
open Library.Buffer

theorem masked_byte {w : ℕ} (hw : 8 ≤ w) (x : BitVec w) (s : ℕ) :
    ((x >>> s) &&& 0xFF).setWidth 8 = x.extractLsb' s 8 := by
  have hmask : (0xFF : BitVec w) = (BitVec.allOnes 8).setWidth w := by
    apply BitVec.eq_of_toNat_eq
    simp
  ext i hi
  have hbit : (BitVec.allOnes 8).getLsbD i = true := by
    rw [BitVec.getLsbD_allOnes, decide_eq_true hi]
  rw [hmask, BitVec.getElem_setWidth, BitVec.getLsbD_and, BitVec.getLsbD_setWidth, hbit,
    decide_eq_true (show i < w by omega), BitVec.getLsbD_ushiftRight, BitVec.getElem_extractLsb',
    Bool.and_self, Bool.and_true]

theorem shifted_port (high low : Byte) :
    ((high.setWidth 32 <<< 8) ||| low.setWidth 32).setWidth 16 = high ++ low := by
  rw [← BitVec.setWidth_append_eq_shiftLeft_setWidth_or]
  simp

theorem htons_append (high low : Byte) : Linux.htons (low ++ high) = high ++ low := by
  unfold Linux.htons
  rw [BitVec.extractLsb'_append_eq_right, BitVec.extractLsb'_append_eq_left]

theorem wordBytes_htons (port : Port) :
    Linux.wordBytes (Linux.htons port) = [port.extractLsb' 8 8, port.extractLsb' 0 8] := by
  unfold Linux.wordBytes Linux.htons
  rw [BitVec.extractLsb'_append_eq_right, BitVec.extractLsb'_append_eq_left]

theorem memcpy_behind {target front source : List Byte} {count : ℕ}
    (hsource : count ≤ source.length) (htarget : front.length + count ≤ target.length) :
    memcpy (overwrite target 0 front) front.length source count =
      .ok (overwrite target 0 (front ++ source.take count)) := by
  have hfront : 0 + front.length ≤ target.length := by omega
  have hlength : front.length + (source.take count).length ≤
      (overwrite target 0 front).length := by
    rw [length_overwrite hfront, List.length_take_of_le hsource]
    exact htarget
  have hboth : overwrite (overwrite target 0 front) front.length (source.take count) =
      overwrite target 0 (front ++ source.take count) := by
    rw [← overwrite_overwrite hfront, Nat.zero_add]
  rw [memcpy, loadFront, if_pos hsource]
  change inside (storeAll (overwrite target 0 front) front.length (source.take count)) = _
  rw [storeAll_eq hlength, hboth]
  rfl

section Received

variable {recvBuf datagram : List Byte}

theorem take_received (recvBuf datagram : List Byte) :
    (received recvBuf datagram).take datagram.length = datagram := by
  rw [received, overwrite, List.take_zero, List.nil_append, List.take_left]

theorem length_received (h : datagram.length ≤ recvBuf.length) :
    (received recvBuf datagram).length = recvBuf.length := by
  rw [received, length_overwrite (by omega)]

theorem load_received {i : ℕ} (hi : i < datagram.length) :
    inside (load (received recvBuf datagram) i) = .ok (datagram.getD i 0) := by
  have hfront : datagram <+: received recvBuf datagram :=
    ⟨recvBuf.drop (0 + datagram.length), by simp [received, overwrite]⟩
  rw [load_of_front hfront hi, List.getD_eq_getElem?_getD, List.getElem?_eq_getElem hi]
  rfl

theorem loadFront_received (h : datagram.length ≤ recvBuf.length) {i : ℕ}
    (hi : i ≤ datagram.length) :
    inside (loadFront ((received recvBuf datagram).drop i) (datagram.length - i)) =
      .ok (datagram.drop i) := by
  have hroom : datagram.length - i ≤ ((received recvBuf datagram).drop i).length := by
    rw [List.length_drop, length_received h]
    omega
  rw [loadFront, if_pos hroom, ← List.drop_take, take_received]
  rfl

end Received

variable {recvBuf sendBuf payload : List Byte} {dest : Ip × Port}

theorem datagram_of_header (hrecv : payload.length ≤ recvBuf.length)
    (hsend : 10 + payload.length ≤ sendBuf.length) :
    (do
      let built ← memcpy (overwrite sendBuf 0 (socks5Header dest)) 10 (received recvBuf payload)
        payload.length
      inside (loadFront built (10 + payload.length))) = .ok (socks5Header dest ++ payload) := by
  have hwhole : (socks5Header dest ++ payload).length = 10 + payload.length := by
    rw [List.length_append]
    rfl
  have hcopied : memcpy (overwrite sendBuf 0 (socks5Header dest)) 10 (received recvBuf payload)
      payload.length = .ok (overwrite sendBuf 0 (socks5Header dest ++ payload)) := by
    have hbehind := @memcpy_behind sendBuf (socks5Header dest) (received recvBuf payload)
      payload.length (by rw [length_received hrecv]; exact hrecv) hsend
    rw [take_received] at hbehind
    exact hbehind
  rw [hcopied]
  change inside (loadFront (overwrite sendBuf 0 (socks5Header dest ++ payload)) _) = _
  rw [loadFront_overwrite_zero (by omega) (by omega), ← hwhole, List.take_length]
  rfl

theorem windows_buildDatagram (hrecv : payload.length ≤ recvBuf.length)
    (hsend : 10 + payload.length ≤ sendBuf.length) :
    Windows.buildDatagram (received recvBuf payload) sendBuf payload.length dest.1 dest.2 =
      .ok (socks5Header dest ++ payload) := by
  have hroom : 0 + (socks5Header dest).length ≤ sendBuf.length := by
    change 0 + 10 ≤ sendBuf.length
    omega
  unfold Windows.buildDatagram
  rw [masked_byte (by omega), masked_byte (by omega), masked_byte (by omega),
    masked_byte (by omega), masked_byte (by omega), masked_byte (by omega)]
  change (inside (storeAll sendBuf 0 (socks5Header dest)) >>= _) = _
  rw [storeAll_eq hroom]
  exact datagram_of_header hrecv hsend

theorem linux_buildDatagram (hrecv : payload.length ≤ recvBuf.length)
    (hsend : 10 + payload.length ≤ sendBuf.length) :
    Linux.buildDatagram (received recvBuf payload) sendBuf payload.length dest.1 dest.2 =
      .ok (socks5Header dest ++ payload) := by
  have hroom : 0 + ([0, 0, 0, 1] : List Byte).length ≤ sendBuf.length := by
    change 0 + 4 ≤ sendBuf.length
    omega
  have haddress : memcpy (overwrite sendBuf 0 [0, 0, 0, 1]) 4 (Linux.addressBytes dest.1) 4 =
      .ok (overwrite sendBuf 0 ([0, 0, 0, 1] ++ Linux.addressBytes dest.1)) :=
    @memcpy_behind sendBuf [0, 0, 0, 1] (Linux.addressBytes dest.1) 4 le_rfl
      (by change 4 + 4 ≤ sendBuf.length; omega)
  have hport : memcpy (overwrite sendBuf 0 ([0, 0, 0, 1] ++ Linux.addressBytes dest.1)) 8
      (Linux.wordBytes (Linux.htons dest.2)) 2 = .ok (overwrite sendBuf 0 (socks5Header dest)) := by
    have hbehind := @memcpy_behind sendBuf ([0, 0, 0, 1] ++ Linux.addressBytes dest.1)
      (Linux.wordBytes (Linux.htons dest.2)) 2 le_rfl
      (by change 8 + 2 ≤ sendBuf.length; omega)
    rw [wordBytes_htons] at hbehind ⊢
    exact hbehind
  unfold Linux.buildDatagram
  rw [storeAll_eq hroom]
  change (memcpy (overwrite sendBuf 0 [0, 0, 0, 1]) 4 (Linux.addressBytes dest.1) 4 >>= _) = _
  rw [haddress]
  change (memcpy _ 8 (Linux.wordBytes (Linux.htons dest.2)) 2 >>= _) = _
  rw [hport]
  exact datagram_of_header hrecv hsend

section Replies

variable {α : Type} {packet : List Byte}

theorem continueIf_bind (condition : Bool) (f : Unit → Except Stop α) :
    (continueIf condition >>= f) = if condition then .error .passedOver else f () := by
  cases condition <;> rfl

theorem load_received_bind {i : ℕ} (hi : i < packet.length) (f : Byte → Except Stop α) :
    (inside (load (received recvBuf packet) i) >>= f) = f (packet.getD i 0) := by
  rw [load_received hi]
  rfl

theorem decapsulate_of_short (h : packet.length < 10) : decapsulate packet = none := by
  unfold decapsulate
  split
  · simp only [List.length_cons] at h
    omega
  · rfl

theorem exists_first {n : ℕ} (h : n + 1 ≤ packet.length) :
    ∃ byte rest, packet = byte :: rest ∧ n ≤ rest.length := by
  cases packet with
  | nil => cases h
  | cons byte rest => exact ⟨byte, rest, rfl, Nat.le_of_succ_le_succ h⟩

theorem exists_fields (h : 10 ≤ packet.length) :
    ∃ r s frag type a b c d high low data,
      packet = r :: s :: frag :: type :: a :: b :: c :: d :: high :: low :: data := by
  obtain ⟨r, _, rfl, h9⟩ := exists_first h
  obtain ⟨s, _, rfl, h8⟩ := exists_first h9
  obtain ⟨frag, _, rfl, h7⟩ := exists_first h8
  obtain ⟨type, _, rfl, h6⟩ := exists_first h7
  obtain ⟨a, _, rfl, h5⟩ := exists_first h6
  obtain ⟨b, _, rfl, h4⟩ := exists_first h5
  obtain ⟨c, _, rfl, h3⟩ := exists_first h4
  obtain ⟨d, _, rfl, h2⟩ := exists_first h3
  obtain ⟨high, _, rfl, h1⟩ := exists_first h2
  obtain ⟨low, data, rfl, -⟩ := exists_first h1
  exact ⟨r, s, frag, type, a, b, c, d, high, low, data, rfl⟩

theorem decapsulate_of_long (h : 10 ≤ packet.length) :
    decapsulate packet =
      if packet.getD 2 0 ≠ 0 then none
      else if packet.getD 3 0 ≠ 1 then none
      else some ((ipv4 (packet.getD 4 0) (packet.getD 5 0) (packet.getD 6 0) (packet.getD 7 0),
        packet.getD 8 0 ++ packet.getD 9 0), packet.drop 10) := by
  obtain ⟨_, _, _, _, _, _, _, _, _, _, _, rfl⟩ := exists_fields h
  rfl

theorem windows_readReply (h : packet.length ≤ recvBuf.length) :
    Windows.readReply (received recvBuf packet) packet.length =
      (decapsulate packet).elim (.error .passedOver) .ok := by
  unfold Windows.readReply
  rw [continueIf_bind]
  by_cases hshort : packet.length < 10
  · rw [decide_eq_true hshort, if_pos rfl, decapsulate_of_short hshort]
    rfl
  · rw [decide_eq_false hshort, if_neg Bool.false_ne_true, decapsulate_of_long (by omega)]
    simp (disch := omega) only [continueIf_bind, load_received_bind, loadFront_received h,
      shifted_address, shifted_port]
    split_ifs <;> simp_all

theorem linux_readReply (h : packet.length ≤ recvBuf.length) :
    Linux.readReply (received recvBuf packet) packet.length =
      (decapsulate packet).elim (.error .passedOver) .ok := by
  unfold Linux.readReply
  rw [continueIf_bind]
  by_cases hshort : packet.length < 10
  · rw [decide_eq_true hshort, if_pos rfl, decapsulate_of_short hshort]
    rfl
  · rw [decide_eq_false hshort, if_neg Bool.false_ne_true, decapsulate_of_long (by omega)]
    simp (disch := omega) only [continueIf_bind, load_received_bind, loadFront_received h,
      htons_append]
    split_ifs <;> simp_all

end Replies

/-- The size of both buffers. -/
def bufferSize : Platform → ℕ
  | .windows => Windows.maxBuf
  | .linux => Linux.relayBufferSize

def buildDatagram (pf : Platform) (recvBuf sendBuf : List Byte) (recvLen : ℕ) (dest : Ip × Port) :
    Except Stop (List Byte) :=
  match pf with
  | .windows => Windows.buildDatagram recvBuf sendBuf recvLen dest.1 dest.2
  | .linux => Linux.buildDatagram recvBuf sendBuf recvLen dest.1 dest.2

def encapsulate : Platform → List Byte → List Byte → ℕ → Ip × Port → Except Stop (List Byte)
  | .windows => Windows.encapsulate
  | .linux => Linux.encapsulate

def readReply : Platform → List Byte → ℕ → Except Stop ((Ip × Port) × List Byte)
  | .windows => Windows.readReply
  | .linux => Linux.readReply

theorem buildDatagram_eq (pf : Platform) (hrecv : payload.length ≤ recvBuf.length)
    (hsend : 10 + payload.length ≤ sendBuf.length) :
    buildDatagram pf (received recvBuf payload) sendBuf payload.length dest =
      .ok (socks5Header dest ++ payload) := by
  cases pf with
  | windows => exact windows_buildDatagram hrecv hsend
  | linux => exact linux_buildDatagram hrecv hsend

theorem readReply_eq (pf : Platform) {packet : List Byte} (h : packet.length ≤ recvBuf.length) :
    readReply pf (received recvBuf packet) packet.length =
      (decapsulate packet).elim (.error .passedOver) .ok := by
  cases pf with
  | windows => exact windows_readReply h
  | linux => exact linux_readReply h

/-- A datagram of a client is passed over when it is empty or leaves no room for the header. -/
theorem encapsulate_eq (pf : Platform) {recvLen : ℕ} (hpos : 0 < recvLen)
    (hroom : recvLen ≤ bufferSize pf - 10) :
    encapsulate pf recvBuf sendBuf recvLen dest =
      buildDatagram pf recvBuf sendBuf recvLen dest := by
  have hnonempty : decide (recvLen = 0) = false := decide_eq_false (by omega)
  cases pf with
  | windows =>
    have hfits : decide (Windows.maxBuf - 10 < recvLen) = false :=
      decide_eq_false (Nat.not_lt.mpr hroom)
    rw [encapsulate, Windows.encapsulate, hnonempty, hfits]
    rfl
  | linux =>
    have hfits : decide (Linux.relayBufferSize - 10 < recvLen) = false :=
      decide_eq_false (Nat.not_lt.mpr hroom)
    rw [encapsulate, Linux.encapsulate, hnonempty, hfits]
    rfl

theorem le_bufferSize (pf : Platform) : 65535 ≤ bufferSize pf := by
  cases pf <;> decide

/-- The header that is read from a packet, with its two reserved bytes cleared. -/
theorem decapsulate_rebuilds {packet : List Byte} (hlength : 10 ≤ packet.length)
    (hfrag : packet.getD 2 0 = 0) (htype : packet.getD 3 0 = 1) :
    ∃ remote data, decapsulate packet = some (remote, data) ∧
      socks5Header remote ++ data = [0, 0] ++ packet.drop 2 := by
  obtain ⟨_, _, frag, type, a, b, c, d, high, low, data, rfl⟩ := exists_fields hlength
  change frag = 0 at hfrag
  change type = 1 at htype
  subst hfrag htype
  have hports : (high ++ low : Port).extractLsb' 8 8 = high := BitVec.extractLsb'_append_eq_left
  have hlow : (high ++ low : Port).extractLsb' 0 8 = low := BitVec.extractLsb'_append_eq_right
  obtain ⟨ha, hb, hc, hd⟩ := octet_ipv4 a b c d
  refine ⟨(ipv4 a b c d, high ++ low), data, rfl, ?_⟩
  simp only [socks5Header, ha, hb, hc, hd, hports, hlow]
  rfl

/-- What one relay builds for the proxy is the same on both platforms, has room in the buffer and is
read back on both as it was put together. What it reads of a packet gives back the packet, but for
the two reserved bytes. -/
theorem encapsulation_round_trip (pf : Platform) (recvBuf sendBuf : Sized Byte (bufferSize pf)) :
    (∀ (dest : Ip × Port) (payload : List Byte), 1 ≤ payload.length → payload.length ≤ 65525 →
      encapsulate pf (received recvBuf.1 payload) sendBuf.1 payload.length dest =
          .ok (socks5Header dest ++ payload) ∧
        (socks5Header dest ++ payload).length ≤ bufferSize pf ∧
        ∀ (pf' : Platform) (replyBuf : Sized Byte (bufferSize pf')),
          readReply pf' (received replyBuf.1 (socks5Header dest ++ payload))
            (socks5Header dest ++ payload).length = .ok (dest, payload)) ∧
    (∀ packet : List Byte, 10 ≤ packet.length → packet.length ≤ bufferSize pf →
      packet.getD 2 0 = 0 → packet.getD 3 0 = 1 →
        ∃ remote data,
          readReply pf (received recvBuf.1 packet) packet.length = .ok (remote, data) ∧
            buildDatagram pf (received recvBuf.1 data) sendBuf.1 data.length remote =
              .ok ([0, 0] ++ packet.drop 2)) := by
  have hrecv := recvBuf.2
  have hsend := sendBuf.2
  have hsize := le_bufferSize pf
  constructor
  · intro dest payload hpos hlength
    have hwhole : (socks5Header dest ++ payload).length = 10 + payload.length := by
      rw [List.length_append]
      rfl
    refine ⟨?_, by omega, ?_⟩
    · rw [encapsulate_eq pf hpos (by omega), buildDatagram_eq pf (by omega) (by omega)]
    · intro pf' replyBuf
      have hreply := replyBuf.2
      have hsize' := le_bufferSize pf'
      rw [readReply_eq pf' (by omega), decapsulate_socks5Header]
      rfl
  · intro packet hlength hroom hfrag htype
    obtain ⟨remote, data, hread, hbuilt⟩ := decapsulate_rebuilds hlength hfrag htype
    have hdata : 10 + data.length = packet.length := by
      have hlengths := congrArg List.length hbuilt
      simp only [List.length_append, List.length_drop] at hlengths
      change 10 + data.length = 2 + (packet.length - 2) at hlengths
      omega
    refine ⟨remote, data, ?_, ?_⟩
    · rw [readReply_eq pf (by omega), hread]
      rfl
    · rw [buildDatagram_eq pf (by omega) (by omega), hbuilt]

/-- One byte for 192.0.2.7 and the port 4000, and the reply to it. -/
theorem encapsulation_round_trip_byte :
    encapsulate .windows (received (List.replicate 65535 0) [42]) (List.replicate 65535 0) 1
        (ipv4 192 0 2 7, 4000) = .ok [0, 0, 0, 1, 192, 0, 2, 7, 15, 160, 42] ∧
      ∃ remote data,
        readReply .windows (received (List.replicate 65535 0) [9, 9, 0, 1, 192, 0, 2, 7, 15, 160])
            10 = .ok (remote, data) ∧
          buildDatagram .windows (received (List.replicate 65535 0) data) (List.replicate 65535 0)
            data.length remote = .ok [0, 0, 0, 1, 192, 0, 2, 7, 15, 160] :=
  have h := encapsulation_round_trip .windows ⟨List.replicate 65535 0, List.length_replicate⟩
    ⟨List.replicate 65535 0, List.length_replicate⟩
  ⟨(h.1 (ipv4 192 0 2 7, 4000) [42] (by decide) (by decide)).1,
    h.2 [9, 9, 0, 1, 192, 0, 2, 7, 15, 160] (by decide) (by decide) rfl rfl⟩

end ProxyTun.Relays
