import ProxyTun.Library.PackedMessages
import ProxyTun.Windows.PidCache

/-!
# The sockets that the kernel lists

The Linux engine asks the kernel for a list of sockets over netlink, and looks through the replies
for the socket that a packet comes from. Words are in the byte order of a little-endian machine,
ports and addresses in that of the network.
-/
namespace ProxyTun.Linux
open Library Windows

def wordBytes32 (word : BitVec 32) : List Byte :=
  [octet word 0, octet word 1, octet word 2, octet word 3]

def wordAt (buffer : List Byte) (offset : ℕ) : Option (BitVec 32) :=
  match buffer.drop offset with
  | a :: b :: c :: d :: _ => some (ipv4 a b c d)
  | _ => none

def halfAt (buffer : List Byte) (offset : ℕ) : Option (BitVec 16) :=
  match buffer.drop offset with
  | low :: high :: _ => some (high ++ low)
  | _ => none

def portAt (buffer : List Byte) (offset : ℕ) : Option Port :=
  match buffer.drop offset with
  | high :: low :: _ => some (high ++ low)
  | _ => none

def nlmsgAlign (length : ℕ) : ℕ := ((BitVec.ofNat 32 length + 3#32) &&& ~~~3#32).toNat

/-- `NLMSG_OK` and `NLMSG_NEXT`, where `nlmsg_len` is the first word of a header. -/
def nlmsgLayout : MessageLayout Byte where
  header := 16
  header_pos := by decide
  size buffer := ((wordAt buffer 0).getD 0).toNat
  padded := nlmsgAlign

/-- What ends the search in a dump: its end or an error, or the socket, of which the number and the
user are kept. -/
inductive DumpEnd where
  | over
  | socket (inode uid : BitVec 32)
  deriving DecidableEq, Repr

def nlmsgError : BitVec 16 := 2
def nlmsgDone : BitVec 16 := 3
def sockDiagByFamily : BitVec 16 := 20

/-- What the loop of `get_process_id_from_connection` makes of the message at the start of a
buffer: an end of the dump, a socket of an address and a port, or nothing. -/
def visitReply (srcIp : Ip) (srcPort : Port) (buffer : List Byte) : Option (Option DumpEnd) := do
  let kind ← halfAt buffer 4
  if kind = nlmsgDone || kind = nlmsgError then some (some .over)
  else if kind = sockDiagByFamily then
    let src ← wordAt buffer 24
    let port ← portAt buffer 20
    if src = srcIp && port = srcPort then
      let inode ← wordAt buffer 84
      let uid ← wordAt buffer 80
      some (some (.socket inode uid))
    else some none
  else some none

/-- `char buf[16384]`. -/
abbrev ReplyBuffer := Buffer.Sized Byte 16384

/-- The loop over the replies to a request, of which the last is followed by a timeout. -/
def searchReplies (srcIp : Ip) (srcPort : Port) (datagrams : List (List Byte))
    (buffer : ReplyBuffer) : Option (Option DumpEnd) :=
  nlmsgLayout.receive (visitReply srcIp srcPort) 64 datagrams buffer.val

/-- A socket in a dump, `struct inet_diag_msg`, with what the kernel puts behind it. -/
structure DiagEntry where
  opening : Buffer.Sized Byte 4
  srcPort : Port
  destPort : Buffer.Sized Byte 2
  srcAddr : Ip
  middle : Buffer.Sized Byte 52
  uid : BitVec 32
  inode : BitVec 32
  attributes : List Byte

def DiagEntry.bytes (e : DiagEntry) : List Byte :=
  e.opening.val ++ ([e.srcPort.extractLsb' 8 8, e.srcPort.extractLsb' 0 8] ++
    (e.destPort.val ++ (wordBytes32 e.srcAddr ++
      (e.middle.val ++ (wordBytes32 e.uid ++ (wordBytes32 e.inode ++ e.attributes))))))

/-- What a message of a dump is about: a socket, the end, or an error with its description. -/
inductive DumpContent where
  | socket (entry : DiagEntry)
  | done (code : List Byte)
  | error (description : List Byte)

/-- A message of a dump, with its flags and numbers. -/
structure DumpMessage where
  numbers : Buffer.Sized Byte 10
  content : DumpContent

namespace DumpMessage

def kind (m : DumpMessage) : BitVec 16 :=
  match m.content with
  | .socket _ => sockDiagByFamily
  | .done _ => nlmsgDone
  | .error _ => nlmsgError

def payload (m : DumpMessage) : List Byte :=
  match m.content with
  | .socket entry => entry.bytes
  | .done code => code
  | .error description => description

/-- The bytes behind a message up to the next multiple of four. -/
def padding (length : ℕ) : List Byte := List.replicate ((4 - length % 4) % 4) 0

/-- A message as the kernel sends it. -/
def bytes (m : DumpMessage) : List Byte :=
  wordBytes32 (BitVec.ofNat 32 (16 + m.payload.length)) ++
    ([m.kind.extractLsb' 0 8, m.kind.extractLsb' 8 8] ++
      (m.numbers.val ++ (m.payload ++ padding m.payload.length)))

/-- What a message tells about a socket. -/
def tells (srcIp : Ip) (srcPort : Port) (m : DumpMessage) : Option DumpEnd :=
  match m.content with
  | .socket entry =>
    if entry.srcAddr = srcIp ∧ entry.srcPort = srcPort then some (.socket entry.inode entry.uid)
    else none
  | .done _ => some .over
  | .error _ => some .over

end DumpMessage

def dumpDatagram (messages : List DumpMessage) : List Byte :=
  MessageLayout.pack DumpMessage.bytes messages

section Reading
variable {front : List Byte} {n : ℕ}

theorem wordAt_skip (h : front.length = n) (buffer : List Byte) (k : ℕ) :
    wordAt (front ++ buffer) (n + k) = wordAt buffer k := by
  rw [wordAt, ← h, List.drop_length_add_append]
  rfl

theorem portAt_skip (h : front.length = n) (buffer : List Byte) (k : ℕ) :
    portAt (front ++ buffer) (n + k) = portAt buffer k := by
  rw [portAt, ← h, List.drop_length_add_append]
  rfl

theorem halfAt_skip (h : front.length = n) (buffer : List Byte) (k : ℕ) :
    halfAt (front ++ buffer) (n + k) = halfAt buffer k := by
  rw [halfAt, ← h, List.drop_length_add_append]
  rfl

theorem wordAt_wordBytes32 (word : BitVec 32) (behind : List Byte) :
    wordAt (wordBytes32 word ++ behind) 0 = some word := by
  change some (ipv4 _ _ _ _) = _
  rw [ipv4_octets]

theorem portAt_bytes (port : Port) (behind : List Byte) :
    portAt ([port.extractLsb' 8 8, port.extractLsb' 0 8] ++ behind) 0 = some port := by
  change some (_ ++ _ : BitVec 16) = _
  rw [port_bytes]

theorem halfAt_bytes (half : BitVec 16) (behind : List Byte) :
    halfAt ([half.extractLsb' 0 8, half.extractLsb' 8 8] ++ behind) 0 = some half := by
  change some (_ ++ _ : BitVec 16) = _
  rw [port_bytes]

theorem length_wordBytes32 (word : BitVec 32) : (wordBytes32 word).length = 4 := rfl

theorem and_not_three (x : BitVec 32) : x &&& ~~~3#32 = x >>> 2 <<< 2 := by
  apply BitVec.eq_of_getLsbD_eq
  intro i hi
  have hthree : (3#32).getLsbD i = decide (i < 2) := by
    change (BitVec.ofNat 32 (2 ^ 2 - 1)).getLsbD i = _
    rw [BitVec.getLsbD_ofNat, Nat.testBit_two_pow_sub_one]
    simp [hi]
  rw [BitVec.getLsbD_and, BitVec.getLsbD_not, hthree, BitVec.getLsbD_shiftLeft,
    BitVec.getLsbD_ushiftRight]
  by_cases h : i < 2
  · simp [h]
  · simp [h, hi, Nat.add_sub_cancel' (Nat.le_of_not_lt h)]

theorem nlmsgAlign_eq {length : ℕ} (h : length < 2 ^ 32 - 4) :
    nlmsgAlign length = (length + 3) / 4 * 4 := by
  have hsum : (BitVec.ofNat 32 length + 3#32).toNat = length + 3 := by
    rw [BitVec.toNat_add, BitVec.toNat_ofNat]
    change (length % 2 ^ 32 + 3) % 2 ^ 32 = _
    omega
  rw [nlmsgAlign, and_not_three, BitVec.toNat_shiftLeft, BitVec.toNat_ushiftRight, hsum,
    Nat.shiftRight_eq_div_pow, Nat.shiftLeft_eq]
  omega

end Reading

namespace DiagEntry
variable (e : DiagEntry) (behind : List Byte)

theorem bytes_append : e.bytes ++ behind =
    e.opening.val ++ ([e.srcPort.extractLsb' 8 8, e.srcPort.extractLsb' 0 8] ++
      (e.destPort.val ++ (wordBytes32 e.srcAddr ++ (e.middle.val ++ (wordBytes32 e.uid ++
        (wordBytes32 e.inode ++ (e.attributes ++ behind))))))) := by
  simp only [bytes, List.append_assoc]

theorem port_bytes : portAt (e.bytes ++ behind) 4 = some e.srcPort := by
  rw [bytes_append, portAt_skip e.opening.property _ 0, portAt_bytes]

theorem addr_bytes : wordAt (e.bytes ++ behind) 8 = some e.srcAddr := by
  rw [bytes_append, wordAt_skip e.opening.property _ 4,
    @wordAt_skip [e.srcPort.extractLsb' 8 8, e.srcPort.extractLsb' 0 8] 2 rfl _ 2,
    wordAt_skip e.destPort.property _ 0, wordAt_wordBytes32]

theorem uid_bytes : wordAt (e.bytes ++ behind) 64 = some e.uid := by
  rw [bytes_append, wordAt_skip e.opening.property _ 60,
    @wordAt_skip [e.srcPort.extractLsb' 8 8, e.srcPort.extractLsb' 0 8] 2 rfl _ 58,
    wordAt_skip e.destPort.property _ 56, wordAt_skip (length_wordBytes32 _) _ 52,
    wordAt_skip e.middle.property _ 0, wordAt_wordBytes32]

theorem inode_bytes : wordAt (e.bytes ++ behind) 68 = some e.inode := by
  rw [bytes_append, wordAt_skip e.opening.property _ 64,
    @wordAt_skip [e.srcPort.extractLsb' 8 8, e.srcPort.extractLsb' 0 8] 2 rfl _ 62,
    wordAt_skip e.destPort.property _ 60, wordAt_skip (length_wordBytes32 _) _ 56,
    wordAt_skip e.middle.property _ 4, wordAt_skip (length_wordBytes32 _) _ 0,
    wordAt_wordBytes32]

end DiagEntry

namespace DumpMessage
variable (m : DumpMessage) (rest : List Byte)

theorem length_bytes :
    m.bytes.length = 16 + m.payload.length + (padding m.payload.length).length := by
  simp [bytes, length_wordBytes32, m.numbers.property]
  omega

theorem length_padding (length : ℕ) : (padding length).length = (4 - length % 4) % 4 :=
  List.length_replicate

theorem wordAt_bytes (h : m.payload.length < 2 ^ 31) :
    ((wordAt (m.bytes ++ rest) 0).getD 0).toNat = 16 + m.payload.length := by
  rw [bytes, List.append_assoc, wordAt_wordBytes32, Option.getD_some, BitVec.toNat_ofNat]
  omega

theorem isMessage (h : m.payload.length < 2 ^ 31) : nlmsgLayout.IsMessage m.bytes := by
  refine ⟨16 + m.payload.length, Nat.le_add_right 16 _, ?_, ?_, fun rest => m.wordAt_bytes rest h⟩
  · rw [length_bytes]
    omega
  · rw [length_bytes, length_padding]
    change nlmsgAlign _ = _
    rw [nlmsgAlign_eq (by omega)]
    omega

theorem kind_bytes : halfAt (m.bytes ++ rest) 4 = some m.kind := by
  rw [bytes, List.append_assoc, halfAt_skip (length_wordBytes32 _) _ 0, List.append_assoc,
    halfAt_bytes]

/-- The header of a message. -/
def header : List Byte :=
  wordBytes32 (BitVec.ofNat 32 (16 + m.payload.length)) ++
    ([m.kind.extractLsb' 0 8, m.kind.extractLsb' 8 8] ++ m.numbers.val)

theorem length_header : m.header.length = 16 := by
  simp [header, length_wordBytes32, m.numbers.property]

theorem bytes_eq : m.bytes = m.header ++ (m.payload ++ padding m.payload.length) := by
  simp [bytes, header]

variable (srcIp : Ip) (srcPort : Port)

theorem visitReply_socket {entry : DiagEntry} (h : m.content = .socket entry) :
    visitReply srcIp srcPort (m.bytes ++ rest) = some (m.tells srcIp srcPort) := by
  have hkind : halfAt (m.bytes ++ rest) 4 = some sockDiagByFamily := by
    rw [kind_bytes, kind, h]
  have hbytes : m.bytes ++ rest =
      m.header ++ (entry.bytes ++ (padding m.payload.length ++ rest)) := by
    rw [bytes_eq, List.append_assoc, List.append_assoc, payload, h]
  have hread : ∀ k, wordAt (m.bytes ++ rest) (16 + k) =
      wordAt (entry.bytes ++ (padding m.payload.length ++ rest)) k := fun k => by
    rw [hbytes, wordAt_skip m.length_header]
  have hport : portAt (m.bytes ++ rest) (16 + 4) = some entry.srcPort := by
    rw [hbytes, portAt_skip m.length_header, entry.port_bytes]
  have haddr := (hread 8).trans (entry.addr_bytes _)
  have huid := (hread 64).trans (entry.uid_bytes _)
  have hinode := (hread 68).trans (entry.inode_bytes _)
  have htells : m.tells srcIp srcPort =
      if entry.srcAddr = srcIp ∧ entry.srcPort = srcPort then
        some (.socket entry.inode entry.uid) else none := by
    rw [tells, h]
  rw [visitReply, hkind, haddr, hport, huid, hinode, htells]
  by_cases hsame : entry.srcAddr = srcIp ∧ entry.srcPort = srcPort
  · rw [if_pos hsame]
    simp [hsame, sockDiagByFamily, nlmsgDone, nlmsgError]
  · rw [if_neg hsame]
    simp [hsame, sockDiagByFamily, nlmsgDone, nlmsgError]

theorem visitReply_bytes :
    visitReply srcIp srcPort (m.bytes ++ rest) = some (m.tells srcIp srcPort) := by
  cases h : m.content with
  | socket entry => exact visitReply_socket m rest srcIp srcPort h
  | done code =>
    rw [visitReply, kind_bytes, tells, kind, h]
    rfl
  | error description =>
    rw [visitReply, kind_bytes, tells, kind, h]
    rfl

end DumpMessage

def dumpEnd (srcIp : Ip) (srcPort : Port) (messages : List DumpMessage) : Option DumpEnd :=
  messages.findSome? (DumpMessage.tells srcIp srcPort)

theorem payload_length_le {messages : List DumpMessage} {m : DumpMessage} (hm : m ∈ messages) :
    m.payload.length ≤ (dumpDatagram messages).length := by
  have hbytes : m.bytes.length ≤ (dumpDatagram messages).length := by
    have hsub := List.sublist_flatten_of_mem (List.mem_map_of_mem (f := DumpMessage.bytes) hm)
    rw [← List.flatMap_def] at hsub
    exact hsub.length_le
  rw [DumpMessage.length_bytes] at hbytes
  omega

/-- However the kernel puts its messages into datagrams that fit into the buffer, and whatever was
in the buffer, the loop reads inside of what it received and finds what the dump tells. -/
theorem searchReplies_datagrams (srcIp : Ip) (srcPort : Port) (groups : List (List DumpMessage))
    (buffer : ReplyBuffer) (hne : ∀ g ∈ groups, g ≠ [])
    (hfits : ∀ g ∈ groups, (dumpDatagram g).length ≤ 16384) :
    searchReplies srcIp srcPort (groups.map dumpDatagram) buffer =
      some (dumpEnd srcIp srcPort groups.flatten) := by
  apply MessageLayout.receive_pack
  · intro g hg m hm
    apply m.isMessage
    have hm := payload_length_le hm
    have hg := hfits g hg
    omega
  · exact fun g _ m _ rest => m.visitReply_bytes rest srcIp srcPort
  · exact hne
  · rw [buffer.property]
    exact hfits
  · rw [buffer.property]
    omega

end ProxyTun.Linux
