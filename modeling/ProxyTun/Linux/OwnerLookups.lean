import ProxyTun.Library.AnswerCache
import ProxyTun.Linux.ProcessOwner

/-!
# Lookups of owners by several threads

The packet threads of the Linux engine share the cache of owners, which the cleanup thread sweeps
one bucket after the other, by a clock that it read before the first one.
-/
namespace ProxyTun.Linux
open Library Transition Windows

structure PidCacheEntry where
  srcIp : Ip
  srcPort : Port
  pid : Pid
  timestamp : Tick
  isUdp : Bool
  deriving DecidableEq, Repr

def PidCacheEntry.key (entry : PidCacheEntry) : PidKey :=
  ⟨entry.srcIp, entry.srcPort, entry.isUdp⟩

def pidCacheEntry (key : PidKey) (now : Tick) (pid : Pid) : PidCacheEntry :=
  ⟨key.srcIp, key.srcPort, pid, now, key.isUdp⟩

def PidCacheEntry.renew (now : Tick) (pid : Pid) (entry : PidCacheEntry) : PidCacheEntry :=
  { entry with pid := pid, timestamp := now }

theorem pidCacheEntry_key (key : PidKey) (now : Tick) (pid : Pid) :
    (pidCacheEntry key now pid).key = key := rfl

theorem PidCacheEntry.renew_key (now : Tick) (pid : Pid) (entry : PidCacheEntry) :
    (entry.renew now pid).key = entry.key := rfl

/-- The cache, whose `pid_cache_hash` is that of the Windows engine. -/
abbrev PidCache := ChainedTable PidCacheEntry.key pidCacheHash

namespace PidCache

/-- `get_cached_pid`. -/
def getCachedPid (now : Tick) (key : PidKey) (t : PidCache) : Pid :=
  match t.entry key with
  | some entry => if now - entry.timestamp < 1000 then entry.pid else 0
  | none => 0

/-- `cache_pid`, where memory for a new entry may be missing. -/
def cachePid (allocates : Bool) (now : Tick) (key : PidKey) (pid : Pid) (t : PidCache) : PidCache :=
  match h : t.entry key with
  | some _ => t.adjust key (PidCacheEntry.renew now pid) (PidCacheEntry.renew_key now pid)
  | none =>
    if allocates then t.insert key (pidCacheEntry key now pid) (pidCacheEntry_key key now pid) h
    else t

end PidCache

/-- What takes entries out of the cache: `cleanup_stale_connections` in one bucket, with its
`now_cache`, or `clear_pid_cache`. -/
inductive CacheDrop where
  | sweep (bucket : Fin 1024) (nowCache : Tick)
  | clear
  deriving DecidableEq, Repr

def CacheDrop.apply : CacheDrop → PidCache → PidCache
  | .sweep bucket nowCache, t =>
    t.prune bucket fun entry => !(10000 < nowCache - entry.timestamp)
  | .clear, _ => ChainedTable.empty

/-- What the system calls of a lookup tell, and what they tell about. -/
structure LookupView where
  calls : LookupCalls
  snapshot : Snapshot
  tells : calls.TellOf snapshot

/-- `get_process_id_from_connection`, with `get_cached_pid` and `cache_pid` as steps of their own.
-/
def ownerLookups : AnswerCache PidCache PidKey Pid Tick Bool CacheDrop LookupView where
  unknown := 0
  find := PidCache.getCachedPid
  keep := PidCache.cachePid
  drop := CacheDrop.apply
  learn view key := lookUpPid view.calls key

def HasOwner (t : PidCache) (key : PidKey) (time : Tick) (pid : Pid) : Prop :=
  t.entry key = some (pidCacheEntry key time pid)

theorem eq_pidCacheEntry {t : PidCache} {key : PidKey} {entry : PidCacheEntry}
    (h : t.entry key = some entry) : entry = pidCacheEntry key entry.timestamp entry.pid := by
  obtain rfl := ChainedTable.entry_key h
  rfl

theorem entry_cachePid (allocates : Bool) (now : Tick) (key : PidKey) (pid : Pid) (t : PidCache)
    (key' : PidKey) :
    (PidCache.cachePid allocates now key pid t).entry key' = t.entry key' ∨
      key' = key ∧
        (PidCache.cachePid allocates now key pid t).entry key' =
          some (pidCacheEntry key now pid) := by
  unfold PidCache.cachePid
  split
  · next entry h =>
    rw [ChainedTable.entry_adjust, h]
    by_cases hkey : key' = key
    · subst hkey
      rw [if_pos rfl, eq_pidCacheEntry h]
      exact .inr ⟨rfl, rfl⟩
    · exact .inl (if_neg hkey)
  · next h =>
    split_ifs with hallocates
    · rw [ChainedTable.entry_insert]
      by_cases hkey : key' = key
      · exact .inr ⟨hkey, if_pos hkey⟩
      · exact .inl (if_neg hkey)
    · exact .inl rfl

theorem ownerLookups_holds :
    ownerLookups.Holds HasOwner id fun time now : Tick => now - time < 1000 where
  find {now key t} hfound := by
    change PidCache.getCachedPid now key t ≠ 0 at hfound
    change ∃ time, HasOwner t key time (PidCache.getCachedPid now key t) ∧ _
    unfold PidCache.getCachedPid at hfound ⊢
    cases hentry : t.entry key with
    | none =>
      rw [hentry] at hfound
      exact absurd rfl hfound
    | some entry =>
      rw [hentry] at hfound
      simp only at hfound ⊢
      split_ifs at hfound ⊢ with hyoung
      · refine ⟨entry.timestamp, ?_, hyoung⟩
        rw [HasOwner, hentry, ← eq_pidCacheEntry hentry]
      · exact absurd rfl hfound
  keep {allocates now key pid t key' time pid'} hheld := by
    change (PidCache.cachePid allocates now key pid t).entry key' = _ at hheld
    rcases entry_cachePid allocates now key pid t key' with hold | ⟨rfl, hnew⟩
    · exact .inl (hold.symm.trans hheld)
    · have heq := Option.some.inj (hnew.symm.trans hheld)
      have htime := congrArg PidCacheEntry.timestamp heq
      have hpid := congrArg PidCacheEntry.pid heq
      exact .inr ⟨rfl, htime.symm, hpid.symm⟩
  drop {d t key time pid} hheld := by
    cases d with
    | sweep bucket nowCache =>
      change (t.prune bucket _).entry key = _ at hheld
      rw [ChainedTable.entry_prune] at hheld
      split_ifs at hheld with hbucket
      · exact (Option.filter_eq_some_iff.mp hheld).1
      · exact hheld
    | clear => cases hheld

theorem owns_of_learn {view : LookupView} {key : PidKey} {pid : Pid}
    (hlearn : ownerLookups.learn view key = some pid) (hpid : pid ≠ 0) :
    view.snapshot.Owns key pid := by
  obtain ⟨found, hfound, howns⟩ := owns_of_lookUpPid view.tells key
  obtain rfl := Option.some.inj (hfound.symm.trans hlearn)
  exact howns hpid

theorem not_hasOwner_empty (key : PidKey) (time : Tick) (pid : Pid) :
    ¬ HasOwner ChainedTable.empty key time pid := by
  intro hheld
  cases hheld

/-- Whatever the threads do, whichever calls fail and whatever the sweep drops in between, a process
that is given as an owner owned a socket of the key when the thread itself looked, or when a thread
looked that read the clock afterwards, less than a second before the time that was read for the
question. -/
theorem owner_of_answer {ι : Type*} [DecidableEq ι] {clock : Tick}
    {acts : List (AnswerCache.Act ι PidKey Tick Bool CacheDrop LookupView)}
    {s : AnswerCache.State ι PidCache PidKey Pid Tick}
    (hrun : run ownerLookups.step (.initial clock ChainedTable.empty) acts = some s)
    {act : AnswerCache.Act ι PidKey Tick Bool CacheDrop LookupView} {key : PidKey} {pid : Pid}
    (hanswer : ownerLookups.answer s act = some (key, pid)) (hpid : pid ≠ 0) :
    (∃ i allocates view, act = .keep i allocates ∧ .learn i key view ∈ acts ∧
        view.snapshot.Owns key pid) ∨
      ∃ i now j time view, act = .find i ∧ s.threads i = .finding key now ∧
        [.learn j key view, .stamp j key time].Sublist acts ∧ view.snapshot.Owns key pid ∧
        now - time < 1000 := by
  rcases AnswerCache.answer_source ownerLookups_holds not_hasOwner_empty hrun hanswer hpid with
    ⟨i, allocates, rfl, view, hlearn, hmem⟩ | ⟨i, now, j, time, rfl, hthread, hfound, hfresh⟩
  · exact .inl ⟨i, allocates, view, rfl, hmem, owns_of_learn hlearn hpid⟩
  · obtain ⟨view, hlearn, hsub⟩ := hfound
    exact .inr ⟨i, now, j, time, view, rfl, hthread, hsub, owns_of_learn hlearn hpid, hfresh⟩

def zeros : HexText := ⟨['0', '0'], ⟨by decide, List.all_eq_true.mp (by decide)⟩⟩

def noBlanks : Blanks := ⟨[], by simp⟩

/-- The socket 7 of port 5000. -/
def udpLine : UdpLine where
  slotSpaces := noBlanks
  slot := 1
  localAddr := zeros
  portText := ⟨['1', '3', '8', '8'], ⟨by decide, List.all_eq_true.mp (by decide)⟩⟩
  remoteAddr := zeros
  remotePort := zeros
  state := zeros
  txQueue := zeros
  rxQueue := zeros
  timer := zeros
  expires := zeros
  retransmits := zeros
  uidSpaces := noBlanks
  uid := 0
  timeoutSpaces := noBlanks
  timeout := 0
  inode := 7
  rest := []
  port := 5000
  port_eq := rfl
  rest_ends := by simp
  rest_line := by simp

def udpTable : UdpTable := ⟨['s', 'l'], by decide, by decide, [udpLine], by
  intro l hl
  rw [List.mem_singleton.mp hl]
  decide⟩

/-- A process 42 that has the socket 7 open. -/
def udpSnapshot : Snapshot := ⟨[], [(42, socketText 7)], [udpTable]⟩

def endOfDump : DumpMessage := ⟨⟨List.replicate 10 0, rfl⟩, .done [0, 0, 0, 0]⟩

def udpCalls : LookupCalls where
  socketOpens := true
  requestSent := true
  replies _ := [dumpDatagram [endOfDump]]
  buffer := ⟨List.replicate 16384 0#8, List.length_replicate⟩
  proc := some [⟨['4', '2'], true, some 0, some [⟨['3'], some (socketText 7)⟩]⟩]
  udpTables := [some udpTable.text]

theorem isDump_endOfDump (sockets : List KernelSocket) (request : DiagRequest) :
    IsDump sockets request [[endOfDump]] where
  nonempty g hg := by
    rw [List.mem_singleton.mp hg]
    decide
  fits g hg := by
    rw [List.mem_singleton.mp hg]
    decide
  about m hm entry hcontent := by
    obtain rfl : m = endOfDump := by simpa using hm
    cases hcontent

theorem udpCalls_tellOf : udpCalls.TellOf udpSnapshot where
  dump isUdp := ⟨[[endOfDump]], isDump_endOfDump _ _, rfl⟩
  proc entries hentries e he _ fds hfds fd hfd target htarget := by
    obtain rfl := Option.some.inj hentries
    obtain rfl := List.mem_singleton.mp he
    obtain rfl := Option.some.inj hfds
    obtain rfl := List.mem_singleton.mp hfd
    obtain rfl := Option.some.inj htarget
    decide
  tables text htext := by
    obtain rfl := Option.some.inj (List.mem_singleton.mp htext)
    exact ⟨udpTable, List.mem_singleton_self _, rfl⟩

def udpView : LookupView := ⟨udpCalls, udpSnapshot, udpCalls_tellOf⟩

/-- One thread finds an owner out, and another one asks a half second later. -/
def udpActs : List (AnswerCache.Act Bool PidKey Tick Bool CacheDrop LookupView) :=
  [.start false udpKey 100, .find false, .learn false udpKey udpView, .stamp false udpKey 100,
    .keep false true, .start true udpKey 600]

theorem owner_of_second_answer : ∃ view : LookupView, view.snapshot.Owns udpKey 42 := by
  obtain ⟨s, hrun, hanswer⟩ := Option.bind_eq_some_iff.mp (show
    (run ownerLookups.step (.initial 0 ChainedTable.empty) udpActs).bind
      (fun s => ownerLookups.answer s (.find true)) = some (udpKey, 42) by decide +kernel)
  rcases owner_of_answer hrun hanswer (by decide) with
    ⟨i, allocates, view, -, -, howns⟩ | ⟨i, now, j, time, view, -, -, -, howns, -⟩
  · exact ⟨view, howns⟩
  · exact ⟨view, howns⟩

/-- Where every look found the connections of the key established, no lookup finds an owner, be it
in the cache or through the system calls, whatever these tell about other sockets and links. -/
theorem answer_of_established {ι : Type*} [DecidableEq ι] {clock : Tick}
    {acts : List (AnswerCache.Act ι PidKey Tick Bool CacheDrop LookupView)}
    {s : AnswerCache.State ι PidCache PidKey Pid Tick}
    (hrun : run ownerLookups.step (.initial clock ChainedTable.empty) acts = some s)
    {key : PidKey} (htcp : key.isUdp = false)
    (hstates : ∀ i view, .learn i key view ∈ acts → ∀ socket ∈ view.snapshot.sockets,
      socket.isUdp = false → socket.entry.srcAddr = key.srcIp →
        socket.entry.srcPort = key.srcPort → socket.state = .established) :
    (∀ i view, .learn i key view ∈ acts → lookUpPid view.calls key = some 0) ∧
      ∀ act pid, ownerLookups.answer s act = some (key, pid) → pid = 0 := by
  have hnone : ∀ i view, .learn i key view ∈ acts → ∀ pid, ¬ view.snapshot.Owns key pid :=
    fun i view hmem pid => not_owns_of_established htcp (hstates i view hmem) pid
  constructor
  · intro i view hmem
    obtain ⟨pid, hfound, howns⟩ := owns_of_lookUpPid view.tells key
    by_cases hpid : pid = 0
    · rwa [hpid] at hfound
    · exact absurd (howns hpid) (hnone i view hmem pid)
  · intro act pid hanswer
    by_contra hpid
    have hlearned : ∀ i, AnswerCache.Learned ownerLookups acts i key pid → False := by
      rintro i ⟨view, hlearn, hmem⟩
      exact hnone i view hmem pid (owns_of_learn hlearn hpid)
    rcases AnswerCache.answer_source ownerLookups_holds not_hasOwner_empty hrun hanswer hpid with
      ⟨i, _, -, hfound⟩ | ⟨_, _, j, _, -, -, hfound, -⟩
    · exact hlearned i hfound
    · exact hlearned j hfound.learned

/-- A TCP socket of port 5000 whose connection is established. -/
def establishedSocket : KernelSocket where
  isUdp := false
  state := .established
  numbers := ⟨List.replicate 10 0, rfl⟩
  entry := ⟨⟨List.replicate 4 0, rfl⟩, 5000, ⟨List.replicate 2 0, rfl⟩, ipv4 10 0 0 2,
    ⟨List.replicate 52 0, rfl⟩, 0, 7, []⟩

/-- The process 42 has the socket open, and the kernel does not dump it. -/
def establishedView : LookupView where
  calls := { udpCalls with udpTables := [] }
  snapshot := ⟨[establishedSocket], [(42, socketText 7)], []⟩
  tells :=
    { dump := fun isUdp => ⟨[[endOfDump]], isDump_endOfDump _ _, rfl⟩
      proc := udpCalls_tellOf.proc
      tables := fun text htext => by cases htext }

def establishedKey : PidKey := ⟨ipv4 10 0 0 2, 5000, false⟩

/-- The owner of the established connection is not found. -/
theorem answer_of_established_once : ∃ s : AnswerCache.State Bool PidCache PidKey Pid Tick,
    run ownerLookups.step (.initial 0 ChainedTable.empty)
        [.start false establishedKey 100, .find false,
          .learn false establishedKey establishedView] = some s ∧
      lookUpPid establishedView.calls establishedKey = some 0 := by
  obtain ⟨s, hrun⟩ := Option.isSome_iff_exists.mp (show
    (run ownerLookups.step (.initial 0 ChainedTable.empty)
      ([.start false establishedKey 100, .find false,
        .learn false establishedKey establishedView] :
        List (AnswerCache.Act Bool PidKey Tick Bool CacheDrop LookupView))).isSome = true by
          decide +kernel)
  refine ⟨s, hrun, (answer_of_established hrun rfl ?_).1 false establishedView (by simp)⟩
  intro i view hmem socket hsocket _ _ _
  obtain ⟨-, -, rfl⟩ : i = false ∧ establishedKey = establishedKey ∧ view = establishedView := by
    simpa using hmem
  obtain rfl := List.mem_singleton.mp hsocket
  rfl

end ProxyTun.Linux
