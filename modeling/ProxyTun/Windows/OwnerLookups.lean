import ProxyTun.Library.AnswerCache
import ProxyTun.Windows.PidCache

/-!
# Lookups of owners by the threads of the Windows engine

The packet threads look for the owner of a port in the tables of the system, and share the cache of
owners with each other and with the cleanup thread. An entry keeps 32 bits of its time.
-/
namespace ProxyTun.Windows
open Library Transition

/-- A row of a table of connections or of UDP ports, with the port as it is in the table. -/
structure OwnerRow where
  localAddr : Ip
  localPort : BitVec 32
  owningPid : Pid
  deriving DecidableEq, Repr

/-- `ntohs((UINT16)row->dwLocalPort)`. -/
def OwnerRow.port (row : OwnerRow) : Port :=
  row.localPort.extractLsb' 0 8 ++ row.localPort.extractLsb' 8 8

/-- What the system tells in a lookup: the first call may fail to give a size, there may be no
memory, and the second call may fail. -/
structure TableCalls where
  givesSize : Bool
  allocates : Bool
  rows : Option (List OwnerRow)
  deriving DecidableEq, Repr

/-- The rows that are searched. -/
def TableCalls.table (calls : TableCalls) : Option (List OwnerRow) :=
  if !calls.givesSize then none
  else if !calls.allocates then none
  else calls.rows

def firstOwner (addr : Ip) (port : Port) (rows : List OwnerRow) : Pid :=
  (rows.find? fun row => row.localAddr = addr && row.port = port).elim 0 OwnerRow.owningPid

/-- `get_process_id_from_connection` without its cache. -/
def tcpOwner (rows : List OwnerRow) (srcIp : Ip) (srcPort : Port) : Pid :=
  firstOwner srcIp srcPort rows

/-- `get_process_id_from_udp_connection` without its cache: the second pass looks for a port that is
bound to no address. -/
def udpOwner (rows : List OwnerRow) (srcIp : Ip) (srcPort : Port) : Pid :=
  if firstOwner srcIp srcPort rows = 0 then firstOwner 0 srcPort rows
  else firstOwner srcIp srcPort rows

/-- The tables of the system, as the calls of a lookup tell about them. -/
structure OwnerTables where
  tcp : TableCalls
  udp : TableCalls
  deriving DecidableEq, Repr

def IsFirst (addr : Ip) (port : Port) (rows : List OwnerRow) (row : OwnerRow) : Prop :=
  ∃ front behind, rows = front ++ row :: behind ∧ (row.localAddr = addr ∧ row.port = port) ∧
    ∀ other ∈ front, ¬ (other.localAddr = addr ∧ other.port = port)

namespace OwnerTables

def lookUp (tables : OwnerTables) (key : PidKey) : Pid :=
  if key.isUdp then tables.udp.table.elim 0 fun rows => udpOwner rows key.srcIp key.srcPort
  else tables.tcp.table.elim 0 fun rows => tcpOwner rows key.srcIp key.srcPort

/-- The owner is that in the first row with the port on the address, or for UDP, where no process is
in such a row, that in the first row with the port on no address. -/
def Lists (tables : OwnerTables) (key : PidKey) (pid : Pid) : Prop :=
  ∃ rows, (if key.isUdp then tables.udp.rows else tables.tcp.rows) = some rows ∧
    ∃ row, row.owningPid = pid ∧
      (IsFirst key.srcIp key.srcPort rows row ∨
        key.isUdp = true ∧ IsFirst 0 key.srcPort rows row ∧
          ∀ exact, IsFirst key.srcIp key.srcPort rows exact → exact.owningPid = 0)

end OwnerTables

theorem isFirst_of_find {addr : Ip} {port : Port} {rows : List OwnerRow} {row : OwnerRow}
    (h : rows.find? (fun row => row.localAddr = addr && row.port = port) = some row) :
    IsFirst addr port rows row := by
  obtain ⟨hrow, front, behind, rfl, hfront⟩ := List.find?_eq_some_iff_append.mp h
  refine ⟨front, behind, rfl, by simpa using hrow, ?_⟩
  rintro other hother ⟨haddr, hport⟩
  have hnot := hfront other hother
  simp [haddr, hport] at hnot

theorem IsFirst.find {addr : Ip} {port : Port} {rows : List OwnerRow} {row : OwnerRow}
    (h : IsFirst addr port rows row) :
    rows.find? (fun row => row.localAddr = addr && row.port = port) = some row := by
  obtain ⟨front, behind, rfl, hrow, hfront⟩ := h
  refine List.find?_eq_some_iff_append.mpr ⟨by simpa using hrow, front, behind, rfl, ?_⟩
  intro other hother
  simp only [Bool.not_eq_true', Bool.eq_false_iff, ne_eq, Bool.and_eq_true, decide_eq_true_eq]
  exact hfront other hother

theorem firstOwner_isFirst {addr : Ip} {port : Port} {rows : List OwnerRow}
    (h : firstOwner addr port rows ≠ 0) :
    ∃ row, row.owningPid = firstOwner addr port rows ∧ IsFirst addr port rows row := by
  unfold firstOwner at h ⊢
  cases hfind : rows.find? fun row => row.localAddr = addr && row.port = port with
  | none =>
    rw [hfind] at h
    exact absurd rfl h
  | some row => exact ⟨row, rfl, isFirst_of_find hfind⟩

theorem TableCalls.rows_of_table {calls : TableCalls} {rows : List OwnerRow}
    (h : calls.table = some rows) : calls.rows = some rows := by
  unfold table at h
  split_ifs at h
  exact h

theorem OwnerTables.lists_lookUp {tables : OwnerTables} {key : PidKey}
    (h : tables.lookUp key ≠ 0) : tables.Lists key (tables.lookUp key) := by
  unfold lookUp at h ⊢
  unfold Lists
  cases hudp : key.isUdp with
  | true =>
    simp only [hudp, if_true] at h ⊢
    cases htable : tables.udp.table with
    | none =>
      rw [htable] at h
      exact absurd rfl h
    | some rows =>
      rw [htable, Option.elim_some] at h
      rw [Option.elim_some]
      refine ⟨rows, TableCalls.rows_of_table htable, ?_⟩
      unfold udpOwner at h ⊢
      split_ifs at h ⊢ with hexact
      · obtain ⟨row, hpid, hfirst⟩ := firstOwner_isFirst h
        refine ⟨row, hpid, .inr ⟨trivial, hfirst, fun exact hrow => ?_⟩⟩
        rwa [firstOwner, hrow.find] at hexact
      · obtain ⟨row, hpid, hfirst⟩ := firstOwner_isFirst h
        exact ⟨row, hpid, .inl hfirst⟩
  | false =>
    simp only [hudp, Bool.false_eq_true, if_false] at h ⊢
    cases htable : tables.tcp.table with
    | none =>
      rw [htable] at h
      exact absurd rfl h
    | some rows =>
      rw [htable, Option.elim_some] at h
      rw [Option.elim_some]
      obtain ⟨row, hpid, hfirst⟩ := firstOwner_isFirst h
      exact ⟨rows, TableCalls.rows_of_table htable, row, hpid, .inl hfirst⟩

/-- What takes entries out of the cache: `cleanup_stale_connections` with its `now_cache`, which
removes one node at a time, or `clear_pid_cache`. -/
inductive CacheDrop where
  | remove (key : PidKey) (nowCache : Tick)
  | clear
  deriving DecidableEq, Repr

def CacheDrop.apply : CacheDrop → PidCache → PidCache
  | .remove key nowCache, t =>
    if (t.entry key).any fun entry => 10000 < entry.age nowCache then t.unlink key else t
  | .clear, _ => ChainedTable.empty

/-- The two functions, with `get_cached_pid` and `cache_pid` as steps of their own. -/
def ownerLookups : AnswerCache PidCache PidKey Pid Tick Unit CacheDrop OwnerTables where
  unknown := 0
  find := PidCache.getCachedPid
  keep _ := PidCache.cachePid
  drop := CacheDrop.apply
  learn tables key := some (tables.lookUp key)

/-- The entry of a key has 32 bits of a time, and an owner. -/
def HasOwner (t : PidCache) (key : PidKey) (stamp : BitVec 32) (pid : Pid) : Prop :=
  t.entry key = some ⟨key.srcIp, key.srcPort, pid, stamp, key.isUdp⟩

theorem ownerLookups_holds :
    ownerLookups.Holds HasOwner (fun time : Tick => time.setWidth 32)
      fun stamp now => now - stamp.setWidth 64 < 1000 where
  find {now key t} hfound := by
    change PidCache.getCachedPid now key t ≠ 0 at hfound
    change ∃ stamp, HasOwner t key stamp (PidCache.getCachedPid now key t) ∧ _
    unfold PidCache.getCachedPid at hfound ⊢
    cases hentry : t.entry key with
    | none =>
      rw [hentry] at hfound
      exact absurd rfl hfound
    | some entry =>
      rw [hentry] at hfound
      simp only at hfound ⊢
      split_ifs at hfound ⊢ with hyoung
      · refine ⟨entry.timestamp, ?_, hyoung⟩
        obtain rfl := ChainedTable.entry_key hentry
        exact hentry
      · exact absurd rfl hfound
  keep {_ now key pid t key' stamp pid'} hheld := by
    change (PidCache.cachePid now key pid t).entry key' = _ at hheld
    rw [PidCache.entry_cachePid] at hheld
    split_ifs at hheld with hkey
    · subst hkey
      have heq := Option.some.inj hheld
      have hstamp := congrArg PidCacheEntry.timestamp heq
      have hpid := congrArg PidCacheEntry.pid heq
      exact .inr ⟨rfl, hstamp.symm, hpid.symm⟩
    · exact .inl hheld
  drop {d t key stamp pid} hheld := by
    cases d with
    | remove key' nowCache =>
      change (if _ then t.unlink key' else t).entry key = _ at hheld
      split_ifs at hheld with hold
      · rw [ChainedTable.entry_unlink] at hheld
        split_ifs at hheld
        exact hheld
      · exact hheld
    | clear => cases hheld

/-- Dropping the upper half of a time does not make it look younger to a later time. -/
theorem toNat_lt_of_fresh {time now : Tick} (h : now - (time.setWidth 32).setWidth 64 < 1000)
    (hle : time ≤ now) : now.toNat < time.toNat + 1000 := by
  have hage := @toNat_age now time udpKey 0 hle
  have hyoung : ((udpKey.entryAt time 0).age now).toNat < 1000 := h
  have hkept := Nat.mod_le time.toNat (2 ^ 32)
  omega

/-- Whatever the threads do and the cleanup removes in between, a process that is given as an owner
was in the first row when the thread itself looked, or when a thread looked that read the clock
afterwards, less than a second before the time that was read for the question, unless it was after
that time. -/
theorem listed_of_answer {ι : Type*} [DecidableEq ι] {clock : Tick}
    {acts : List (AnswerCache.Act ι PidKey Tick Unit CacheDrop OwnerTables)}
    {s : AnswerCache.State ι PidCache PidKey Pid Tick}
    (hrun : run ownerLookups.step (.initial clock ChainedTable.empty) acts = some s)
    {act : AnswerCache.Act ι PidKey Tick Unit CacheDrop OwnerTables} {key : PidKey} {pid : Pid}
    (hanswer : ownerLookups.answer s act = some (key, pid)) (hpid : pid ≠ 0) :
    (∃ i tables, act = .keep i () ∧ .learn i key tables ∈ acts ∧ tables.Lists key pid) ∨
      ∃ i now j time tables, act = .find i ∧ s.threads i = .finding key now ∧
        [.learn j key tables, .stamp j key time].Sublist acts ∧ tables.Lists key pid ∧
        (time ≤ now → now.toNat < time.toNat + 1000) := by
  have hlists : ∀ tables : OwnerTables, ownerLookups.learn tables key = some pid →
      tables.Lists key pid := by
    intro tables hlearn
    obtain rfl := Option.some.inj hlearn
    exact OwnerTables.lists_lookUp hpid
  have hempty : ∀ key stamp pid, ¬ HasOwner ChainedTable.empty key stamp pid := by
    intro key stamp pid hheld
    cases hheld
  rcases AnswerCache.answer_source ownerLookups_holds hempty hrun hanswer hpid with
    ⟨i, e, rfl, tables, hlearn, hmem⟩ | ⟨i, now, j, time, rfl, hthread, hfound, hfresh⟩
  · exact .inl ⟨i, tables, rfl, hmem, hlists tables hlearn⟩
  · obtain ⟨tables, hlearn, hsub⟩ := hfound
    exact .inr ⟨i, now, j, time, tables, rfl, hthread, hsub, hlists tables hlearn,
      toNat_lt_of_fresh hfresh⟩

/-- A table in which the process 42 has a UDP port on no address. -/
def udpTables : OwnerTables :=
  ⟨⟨true, true, some []⟩, ⟨true, true, some [⟨0, 0x8813, 42⟩]⟩⟩

/-- One thread finds an owner out, and another one asks a half second later. -/
theorem listed_of_second_answer :
    ∃ j time tables, [.learn j udpKey tables, .stamp j udpKey time].Sublist
        ([.start false udpKey 100, .find false, .learn false udpKey udpTables,
          .stamp false udpKey 100, .keep false (), .start true udpKey 600] :
          List (AnswerCache.Act Bool PidKey Tick Unit CacheDrop OwnerTables)) ∧
      OwnerTables.Lists tables udpKey 42 := by
  obtain ⟨s, hrun, hanswer⟩ := Option.bind_eq_some_iff.mp (show
    (run ownerLookups.step (.initial 0 ChainedTable.empty)
      ([.start false udpKey 100, .find false, .learn false udpKey udpTables,
        .stamp false udpKey 100, .keep false (), .start true udpKey 600] :
        List (AnswerCache.Act Bool PidKey Tick Unit CacheDrop OwnerTables))).bind
      (fun s => ownerLookups.answer s (.find true)) = some (udpKey, 42) by decide +kernel)
  rcases listed_of_answer hrun hanswer (by decide) with
    ⟨i, tables, hact, -⟩ | ⟨i, now, j, time, tables, -, -, hsub, hlists, -⟩
  · cases hact
  · exact ⟨j, time, tables, hsub, hlists⟩

end ProxyTun.Windows
