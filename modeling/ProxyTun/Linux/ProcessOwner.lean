import ProxyTun.Linux.SocketDiag
import ProxyTun.Linux.UdpTables

/-!
# The process that owns a socket

The Linux engine learns the number of a socket from the kernel's list, or from the tables of UDP
sockets, and then looks through `/proc` for a process that has the socket open. What it finds is
said in terms of the sockets and the links, without the bytes and the texts in between, and whatever
calls fail.
-/
namespace ProxyTun.Linux
open Library Windows

/-- An entry of `/proc/<pid>/fd`, with the target of the link if it can be read. -/
structure FdEntry where
  name : CStr
  target : Option CStr
  deriving DecidableEq, Repr

/-- An entry of `/proc`, with the user that `stat` finds, and what its directory `fd` has if it can
be opened. -/
structure ProcEntry where
  name : CStr
  isDirectory : Bool
  uid : Option (BitVec 32)
  fds : Option (List FdEntry)
  deriving DecidableEq, Repr

def socketText (inode : BitVec 64) : CStr :=
  "socket:[".toList ++ (decimal inode.toNat ++ [']'])

/-- `readlink` gives at most 63 characters of a target, which are compared with a text. -/
def FdEntry.linksTo (expected : CStr) (fd : FdEntry) : Bool :=
  fd.name.head? ≠ some '.' && fd.target.any fun target => target.take 63 = expected

def ProcEntry.isProcess (e : ProcEntry) : Bool := e.isDirectory && e.name.head?.any isDigit

/-- The process is known to be another user's. -/
def ProcEntry.isForeign (uidHint : BitVec 32) (e : ProcEntry) : Bool :=
  uidHint ≠ BitVec.allOnes 32 && e.uid.any fun uid => uid ≠ uidHint

def ProcEntry.pid (e : ProcEntry) : Pid := BitVec.ofInt 32 (safeAtoi e.name)

def searchProc (expected : CStr) (uidHint : BitVec 32) : List ProcEntry → Pid
  | [] => 0
  | e :: entries =>
    if !e.isProcess then searchProc expected uidHint entries
    else if e.isForeign uidHint then searchProc expected uidHint entries
    else match e.fds with
      | none => searchProc expected uidHint entries
      | some fds =>
        if fds.any (FdEntry.linksTo expected) then e.pid
        else searchProc expected uidHint entries

/-- `find_pid_from_inode`, where `/proc` may fail to open. -/
def findPidFromInode (proc : Option (List ProcEntry)) (inode : BitVec 64) (uidHint : BitVec 32) :
    Pid :=
  proc.elim 0 (searchProc (socketText inode) uidHint)

/-- The fields of `req` that are set. -/
structure DiagRequest where
  kind : BitVec 16
  flags : BitVec 16
  family : Byte
  protocol : Byte
  states : BitVec 32
  deriving DecidableEq, Repr

def protocolNumber (isUdp : Bool) : Byte := if isUdp then 17 else 6

/-- The request of `get_process_id_from_connection`: `NLM_F_REQUEST | NLM_F_DUMP`, `AF_INET`, and
all states for UDP, else those of the bits 2 and 3. -/
def ownerRequest (isUdp : Bool) : DiagRequest where
  kind := sockDiagByFamily
  flags := 0x301
  family := 2
  protocol := protocolNumber isUdp
  states := if isUdp then BitVec.allOnes 32 else 1 <<< 2 ||| 1 <<< 3

/-- What the system calls of a lookup come back with. -/
structure LookupCalls where
  socketOpens : Bool
  requestSent : Bool
  replies : DiagRequest → List (List Byte)
  buffer : ReplyBuffer
  proc : Option (List ProcEntry)
  udpTables : List (Option CStr)

/-- `get_process_id_from_connection` without its cache. -/
def lookUpPid (calls : LookupCalls) (key : PidKey) : Option Pid :=
  if !calls.socketOpens then some 0
  else if !calls.requestSent then some 0
  else (searchReplies key.srcIp key.srcPort (calls.replies (ownerRequest key.isUdp))
      calls.buffer).map fun
    | some (.socket inode uid) =>
      if inode ≠ 0 then findPidFromInode calls.proc (inode.setWidth 64) uid else 0
    | _ =>
      if key.isUdp then
        searchUdpTables (findPidFromInode calls.proc) key.srcPort calls.udpTables
      else 0

/-- The states of a socket, in the order of their numbers from 1 on. -/
inductive SocketState where
  | established
  | synSent
  | synRecv
  | finWait1
  | finWait2
  | timeWait
  | close
  | closeWait
  | lastAck
  | listen
  | closing
  | newSynRecv
  deriving DecidableEq, Repr

def SocketState.number : SocketState → ℕ
  | established => 1
  | synSent => 2
  | synRecv => 3
  | finWait1 => 4
  | finWait2 => 5
  | timeWait => 6
  | close => 7
  | closeWait => 8
  | lastAck => 9
  | listen => 10
  | closing => 11
  | newSynRecv => 12

/-- A socket of the kernel, with the bytes that go with it in a dump. -/
structure KernelSocket where
  isUdp : Bool
  state : SocketState
  numbers : Buffer.Sized Byte 10
  entry : DiagEntry

/-- The sockets for IPv4, what the links of the open files of processes say, and the tables of UDP
sockets, while a lookup is going on. -/
structure Snapshot where
  sockets : List KernelSocket
  links : List (Pid × CStr)
  tables : List UdpTable

namespace Snapshot

/-- The kernel lists a socket: any UDP socket, and a TCP socket while its connection is opened from
the one or the other side, `TCP_SYN_SENT` and `TCP_SYN_RECV`. -/
def listed (isUdp : Bool) (s : KernelSocket) : Bool :=
  s.isUdp = isUdp && (isUdp || s.state = .synSent || s.state = .synRecv)

/-- The process has a socket open that the kernel lists with the address and the port, or a UDP
socket that a table has with the port, on whatever address. -/
def Owns (snap : Snapshot) (key : PidKey) (pid : Pid) : Prop :=
  (∃ s ∈ snap.sockets, listed key.isUdp s = true ∧
      s.entry.srcAddr = key.srcIp ∧ s.entry.srcPort = key.srcPort ∧
      (pid, socketText (s.entry.inode.setWidth 64)) ∈ snap.links) ∨
    key.isUdp = true ∧ ∃ table ∈ snap.tables, ∃ l ∈ table.lines, l.port = key.srcPort ∧
      (pid, socketText l.inode) ∈ snap.links

end Snapshot

/-- The kernel dumps the sockets of the protocol whose state has its bit set. -/
def KernelSocket.isAskedFor (request : DiagRequest) (s : KernelSocket) : Bool :=
  protocolNumber s.isUdp = request.protocol && request.states.getLsbD s.state.number

/-- Datagrams that fit into the buffer, of messages about sockets that are asked for, about errors
and about the end of the dump. How many there are is left open: the kernel may stop, and the wait
for the next one may time out. -/
structure IsDump (sockets : List KernelSocket) (request : DiagRequest)
    (groups : List (List DumpMessage)) : Prop where
  nonempty : ∀ g ∈ groups, g ≠ []
  fits : ∀ g ∈ groups, (dumpDatagram g).length ≤ 16384
  about : ∀ m ∈ groups.flatten, ∀ entry, m.content = .socket entry →
    ∃ s ∈ sockets, s.isAskedFor request = true ∧ s.entry = entry

/-- The system calls that come through tell about a snapshot. -/
structure LookupCalls.TellOf (calls : LookupCalls) (snap : Snapshot) : Prop where
  dump : ∀ isUdp, ∃ groups, IsDump snap.sockets (ownerRequest isUdp) groups ∧
    calls.replies (ownerRequest isUdp) = groups.map dumpDatagram
  proc : ∀ entries, calls.proc = some entries → ∀ e ∈ entries, e.isProcess = true →
    ∀ fds, e.fds = some fds → ∀ fd ∈ fds, ∀ target, fd.target = some target →
      (e.pid, target) ∈ snap.links
  tables : ∀ text, some text ∈ calls.udpTables → ∃ table ∈ snap.tables, text = table.text

theorem length_decimal_inode_le (inode : BitVec 64) : (decimal inode.toNat).length ≤ 20 := by
  have hinode : inode.toNat < 2 ^ 64 := inode.isLt
  rw [decimal, String.length_toList]
  refine (Nat.length_repr_le_iff (by omega)).mpr ?_
  omega

theorem length_bracketed (text : CStr) :
    ("socket:[".toList ++ (text ++ [']'])).length = text.length + 9 := by
  have hopening : "socket:[".toList = ['s', 'o', 'c', 'k', 'e', 't', ':', '['] := rfl
  rw [hopening]
  simp

theorem length_socketText_lt (inode : BitVec 64) : (socketText inode).length < 63 := by
  have hdecimal := Nat.add_le_add_right (length_decimal_inode_le inode) 9
  exact (length_bracketed (decimal inode.toNat)).trans_lt (hdecimal.trans_lt (by decide))

theorem linksTo_socketText (inode : BitVec 64) (fd : FdEntry) :
    fd.linksTo (socketText inode) =
      (fd.name.head? ≠ some '.' && fd.target = some (socketText inode)) := by
  have hlength := length_socketText_lt inode
  rw [FdEntry.linksTo]
  congr 1
  rw [Bool.eq_iff_iff]
  cases fd.target with
  | none => simp
  | some target =>
    simp only [Option.any_some, decide_eq_true_eq, Option.some.injEq]
    constructor
    · intro h
      have htake := congrArg List.length h
      rw [List.length_take] at htake
      rwa [List.take_of_length_le (by omega)] at h
    · rintro rfl
      exact List.take_of_length_le hlength.le

theorem exists_of_searchProc {expected : CStr} {uid : BitVec 32} {entries : List ProcEntry}
    {pid : Pid} (h : searchProc expected uid entries = pid) (hpid : pid ≠ 0) :
    ∃ e ∈ entries, e.isProcess = true ∧ e.pid = pid ∧ ∃ fds, e.fds = some fds ∧
      ∃ fd ∈ fds, fd.linksTo expected = true := by
  induction entries with
  | nil => exact absurd h.symm hpid
  | cons e entries ih =>
    have hrest : searchProc expected uid entries = pid → ∃ e' ∈ e :: entries,
        e'.isProcess = true ∧ e'.pid = pid ∧ ∃ fds, e'.fds = some fds ∧
          ∃ fd ∈ fds, fd.linksTo expected = true := fun h => by
      obtain ⟨e', hmem, hfound⟩ := ih h
      exact ⟨e', List.mem_cons_of_mem _ hmem, hfound⟩
    rw [searchProc] at h
    split_ifs at h with hprocess hforeign
    · exact hrest h
    · exact hrest h
    · cases hfds : e.fds with
      | none =>
        rw [hfds] at h
        exact hrest h
      | some fds =>
        simp only [hfds] at h
        split_ifs at h with hlinks
        · obtain ⟨fd, hfd, hlink⟩ := List.any_eq_true.mp hlinks
          exact ⟨e, List.mem_cons_self, by simpa using hprocess, h, fds, hfds, fd, hfd, hlink⟩
        · exact hrest h

theorem LookupCalls.TellOf.link {calls : LookupCalls} {snap : Snapshot} (h : calls.TellOf snap)
    {inode : BitVec 64} {uid : BitVec 32} {pid : Pid}
    (hfound : findPidFromInode calls.proc inode uid = pid) (hpid : pid ≠ 0) :
    (pid, socketText inode) ∈ snap.links := by
  unfold findPidFromInode at hfound
  cases hproc : calls.proc with
  | none =>
    rw [hproc] at hfound
    exact absurd hfound.symm hpid
  | some entries =>
    rw [hproc, Option.elim_some] at hfound
    obtain ⟨e, he, hprocess, rfl, fds, hfds, fd, hfd, hlink⟩ := exists_of_searchProc hfound hpid
    rw [linksTo_socketText, Bool.and_eq_true, decide_eq_true_eq, decide_eq_true_eq] at hlink
    exact h.proc entries hproc e he hprocess fds hfds fd hfd _ hlink.2

theorem states_ownerRequest (isUdp : Bool) (state : SocketState) :
    (ownerRequest isUdp).states.getLsbD state.number =
      (isUdp || state = .synSent || state = .synRecv) := by
  cases isUdp <;> cases state <;> rfl

theorem isAskedFor_ownerRequest (isUdp : Bool) (s : KernelSocket) :
    s.isAskedFor (ownerRequest isUdp) = Snapshot.listed isUdp s := by
  have hprotocol : decide (protocolNumber s.isUdp = protocolNumber isUdp) =
      decide (s.isUdp = isUdp) := by
    cases s.isUdp <;> cases isUdp <;> rfl
  rw [KernelSocket.isAskedFor, Snapshot.listed, states_ownerRequest]
  congr 1

theorem mem_of_dumpEnd {srcIp : Ip} {srcPort : Port} {messages : List DumpMessage}
    {inode uid : BitVec 32} (h : dumpEnd srcIp srcPort messages = some (.socket inode uid)) :
    ∃ m ∈ messages, ∃ entry, m.content = .socket entry ∧ entry.srcAddr = srcIp ∧
      entry.srcPort = srcPort ∧ entry.inode = inode := by
  obtain ⟨m, hm, htells⟩ := List.exists_of_findSome?_eq_some h
  refine ⟨m, hm, ?_⟩
  unfold DumpMessage.tells at htells
  cases hcontent : m.content with
  | socket entry =>
    rw [hcontent] at htells
    obtain ⟨⟨haddr, hport⟩, hsocket⟩ := Option.ite_none_right_eq_some.mp htells
    obtain ⟨hinode, -⟩ := DumpEnd.socket.inj (Option.some.inj hsocket)
    exact ⟨entry, rfl, haddr, hport, hinode⟩
  | done code =>
    rw [hcontent] at htells
    cases htells
  | error description =>
    rw [hcontent] at htells
    cases htells

theorem LookupCalls.TellOf.search {calls : LookupCalls} {snap : Snapshot} (h : calls.TellOf snap)
    (key : PidKey) :
    ∃ found, searchReplies key.srcIp key.srcPort (calls.replies (ownerRequest key.isUdp))
        calls.buffer = some found ∧
      ∀ inode uid, found = some (.socket inode uid) → ∃ s ∈ snap.sockets,
        Snapshot.listed key.isUdp s = true ∧ s.entry.srcAddr = key.srcIp ∧
          s.entry.srcPort = key.srcPort ∧ s.entry.inode = inode := by
  obtain ⟨groups, hdump, hreplies⟩ := h.dump key.isUdp
  rw [hreplies]
  refine ⟨_, searchReplies_datagrams _ _ groups _ hdump.nonempty hdump.fits, ?_⟩
  intro inode uid hfound
  obtain ⟨m, hm, entry, hcontent, haddr, hport, hinode⟩ := mem_of_dumpEnd hfound
  obtain ⟨s, hs, hasked, rfl⟩ := hdump.about m hm entry hcontent
  rw [isAskedFor_ownerRequest] at hasked
  exact ⟨s, hs, hasked, haddr, hport, hinode⟩

theorem LookupCalls.TellOf.table {calls : LookupCalls} {snap : Snapshot} (h : calls.TellOf snap)
    {key : PidKey} {pid : Pid} (hudp : key.isUdp = true)
    (hfound : searchUdpTables (findPidFromInode calls.proc) key.srcPort calls.udpTables = pid)
    (hpid : pid ≠ 0) : snap.Owns key pid := by
  obtain ⟨text, hmem, htext⟩ := exists_of_searchUdpTables _ _ hfound hpid
  obtain ⟨table, htable, rfl⟩ := h.tables text hmem
  rw [searchUdpTable_text] at htext
  cases hline : table.find key.srcPort with
  | none =>
    rw [hline] at htext
    exact absurd htext.symm hpid
  | some l =>
    rw [hline, Option.elim_some] at htext
    have hrow : l.row.hasPort key.srcPort = true := by simpa using List.find?_some hline
    have hwide : l.port.setWidth 32 = key.srcPort.setWidth 32 :=
      of_decide_eq_true (Bool.and_eq_true_iff.mp hrow).1
    have hport : l.port = key.srcPort := by
      have hnarrow := congrArg (BitVec.setWidth 16) hwide
      simpa using hnarrow
    exact .inr ⟨hudp, table, htable, l, List.mem_of_find?_eq_some hline, hport,
      h.link htext hpid⟩

/-- The lookup ends, and a process that it finds through the kernel's datagrams, the printed tables
and the links under `/proc` owns a socket of the key. -/
theorem owns_of_lookUpPid {calls : LookupCalls} {snap : Snapshot} (h : calls.TellOf snap)
    (key : PidKey) : ∃ pid, lookUpPid calls key = some pid ∧ (pid ≠ 0 → snap.Owns key pid) := by
  obtain ⟨found, hsearch, hfound⟩ := h.search key
  have hfails : ∃ pid, some (0 : Pid) = some pid ∧ (pid ≠ 0 → snap.Owns key pid) :=
    ⟨0, rfl, fun hne => absurd rfl hne⟩
  rw [lookUpPid, hsearch]
  cases calls.socketOpens with
  | false => exact hfails
  | true =>
    cases calls.requestSent with
    | false => exact hfails
    | true =>
      refine ⟨_, rfl, fun hpid => ?_⟩
      match found, hfound with
      | some (.socket inode uid), hfound =>
        obtain ⟨s, hs, hlisted, haddr, hport, rfl⟩ := hfound inode uid rfl
        simp only at hpid ⊢
        split_ifs at hpid ⊢
        · exact .inl ⟨s, hs, hlisted, haddr, hport, h.link rfl hpid⟩
        · exact absurd rfl hpid
      | some .over, _ | none, _ =>
        simp only at hpid ⊢
        split_ifs at hpid ⊢ with hudp
        · exact h.table hudp rfl hpid
        · exact absurd rfl hpid

theorem not_owns_of_established {snap : Snapshot} {key : PidKey} (htcp : key.isUdp = false)
    (hstates : ∀ s ∈ snap.sockets, s.isUdp = false → s.entry.srcAddr = key.srcIp →
      s.entry.srcPort = key.srcPort → s.state = .established) (pid : Pid) :
    ¬ snap.Owns key pid := by
  rintro (⟨s, hs, hlisted, haddr, hport, -⟩ | ⟨hudp, -⟩)
  · rw [htcp, Snapshot.listed, Bool.and_eq_true, decide_eq_true_eq] at hlisted
    have hstate := hstates s hs hlisted.1 haddr hport
    simp [hstate] at hlisted
  · rw [htcp] at hudp
    cases hudp

end ProxyTun.Linux
