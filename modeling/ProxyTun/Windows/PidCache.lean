import Mathlib.Tactic.Common
import ProxyTun.Core.Types
import ProxyTun.Library.ChainedTable

/-!
# The owner cache of the Windows engine

The owner of a port is kept for a second. The time of an entry is the 64-bit clock cut down to 32
bits, and its age is taken in 64 bits.
-/
namespace ProxyTun.Windows
open Library

/-- What an entry is found by. -/
structure PidKey where
  srcIp : Ip
  srcPort : Port
  isUdp : Bool
  deriving DecidableEq, Repr

structure PidCacheEntry where
  srcIp : Ip
  srcPort : Port
  pid : Pid
  timestamp : BitVec 32
  isUdp : Bool
  deriving DecidableEq, Repr

def PidCacheEntry.key (entry : PidCacheEntry) : PidKey :=
  ⟨entry.srcIp, entry.srcPort, entry.isUdp⟩

def PidKey.entryAt (key : PidKey) (now : Tick) (pid : Pid) : PidCacheEntry :=
  ⟨key.srcIp, key.srcPort, pid, now.setWidth 32, key.isUdp⟩

def PidCacheEntry.renew (now : Tick) (pid : Pid) (entry : PidCacheEntry) : PidCacheEntry :=
  { entry with pid := pid, timestamp := now.setWidth 32 }

theorem PidKey.entryAt_key (key : PidKey) (now : Tick) (pid : Pid) :
    (key.entryAt now pid).key = key := rfl

theorem PidCacheEntry.renew_key (now : Tick) (pid : Pid) (entry : PidCacheEntry) :
    (entry.renew now pid).key = entry.key := rfl

def pidCacheHash (key : PidKey) : Fin 1024 :=
  let hash := key.srcIp ^^^ (key.srcPort.setWidth 32 <<< 16) ^^^
    (if key.isUdp then 0x80000000#32 else 0)
  ⟨hash.toNat % 1024, Nat.mod_lt _ (by decide)⟩

abbrev PidCache := ChainedTable PidCacheEntry.key pidCacheHash

def PidCacheEntry.age (entry : PidCacheEntry) (now : Tick) : Tick :=
  now - entry.timestamp.setWidth 64

namespace PidCache

/-- `get_cached_pid`. -/
def getCachedPid (now : Tick) (key : PidKey) (t : PidCache) : Pid :=
  match t.entry key with
  | some entry => if entry.age now < 1000 then entry.pid else 0
  | none => 0

/-- `cache_pid`, whose allocation succeeds. -/
def cachePid (now : Tick) (key : PidKey) (pid : Pid) (t : PidCache) : PidCache :=
  match h : t.entry key with
  | some _ => t.adjust key (PidCacheEntry.renew now pid) (PidCacheEntry.renew_key now pid)
  | none => t.insert key (key.entryAt now pid) (key.entryAt_key now pid) h

/-- The part of `cleanup_stale_connections` that goes through the cache, bucket by bucket. -/
def cleanup (now : Tick) (t : PidCache) : PidCache :=
  (List.finRange 1024).foldl (fun t i => t.prune i fun entry => !(10000 < entry.age now)) t

end PidCache

/-- A call on the cache. -/
inductive CacheCall where
  | cachePid (key : PidKey) (pid : Pid)
  | getCachedPid (key : PidKey)
  | cleanupStaleConnections
  deriving DecidableEq, Repr

/-- What a call at a time leaves of the cache. -/
def CacheCall.perform (now : Tick) : CacheCall → PidCache → PidCache
  | .cachePid key pid => PidCache.cachePid now key pid
  | .getCachedPid _ => id
  | .cleanupStaleConnections => PidCache.cleanup now

/-- The cache after the calls, each with its time. -/
def cacheAfter (calls : List (Tick × CacheCall)) : PidCache :=
  calls.foldl (fun t call => call.2.perform call.1 t) ChainedTable.empty

def cachedFor (key : PidKey) : Tick × CacheCall → Option (Tick × Pid)
  | (now, .cachePid key' pid) => if key' = key then some (now, pid) else none
  | _ => none

def latestCached (key : PidKey) (calls : List (Tick × CacheCall)) : Option (Tick × Pid) :=
  calls.reverse.findSome? (cachedFor key)

/-- The pid that was cached last if that was less than a second ago, and else 0. -/
def expectedPid (now : Tick) (key : PidKey) (calls : List (Tick × CacheCall)) : Pid :=
  match latestCached key calls with
  | some (time, pid) => if now.toNat < time.toNat + 1000 then pid else 0
  | none => 0

/-- The calls come in the order of their times, all before `now`. -/
def InOrder (calls : List (Tick × CacheCall)) (now : Tick) : Prop :=
  (calls.map Prod.fst ++ [now]).Pairwise (· ≤ ·)

namespace PidCache
variable {now : Tick} {key : PidKey} {t : PidCache}

theorem entry_cachePid (now : Tick) (key : PidKey) (pid : Pid) (t : PidCache) (key' : PidKey) :
    (cachePid now key pid t).entry key' =
      if key' = key then some (key.entryAt now pid) else t.entry key' := by
  unfold cachePid
  split
  · next entry h =>
    have hkey := ChainedTable.entry_key h
    rw [ChainedTable.entry_adjust, h, ← hkey]
    rfl
  · next h => rw [ChainedTable.entry_insert]

theorem entry_prunes (keep : PidCacheEntry → Bool) (indices : List (Fin 1024)) (t : PidCache)
    (key : PidKey) (hnodup : indices.Nodup) :
    (indices.foldl (fun t i => t.prune i keep) t).entry key =
      if pidCacheHash key ∈ indices then (t.entry key).filter keep else t.entry key := by
  induction indices generalizing t with
  | nil => rfl
  | cons i indices ih =>
    obtain ⟨hi, hrest⟩ := List.nodup_cons.mp hnodup
    rw [List.foldl_cons, ih _ hrest, ChainedTable.entry_prune]
    by_cases h : pidCacheHash key = i
    · subst h
      simp [hi]
    · simp [h]

theorem entry_cleanup (now : Tick) (t : PidCache) (key : PidKey) :
    (cleanup now t).entry key = (t.entry key).filter fun entry => !(10000 < entry.age now) := by
  rw [cleanup, entry_prunes _ _ _ _ (List.nodup_finRange 1024), if_pos (List.mem_finRange _)]

end PidCache

section
variable {now time : Tick} {key : PidKey} {pid : Pid} {calls : List (Tick × CacheCall)}
  {call : CacheCall}

theorem cacheAfter_concat (calls : List (Tick × CacheCall)) (time : Tick) (call : CacheCall) :
    cacheAfter (calls ++ [(time, call)]) = call.perform time (cacheAfter calls) := by
  rw [cacheAfter, List.foldl_concat]
  rfl

theorem latestCached_concat (key : PidKey) (calls : List (Tick × CacheCall))
    (last : Tick × CacheCall) :
    latestCached key (calls ++ [last]) = (cachedFor key last).or (latestCached key calls) := by
  rw [latestCached, List.reverse_concat, List.findSome?_cons, latestCached]
  cases cachedFor key last <;> rfl

theorem cachedFor_time {last : Tick × CacheCall} (h : cachedFor key last = some (time, pid)) :
    last.1 = time := by
  obtain ⟨start, call⟩ := last
  cases call with
  | cachePid key' pid' =>
    simp only [cachedFor, Option.ite_none_right_eq_some, Option.some.injEq, Prod.mk.injEq] at h
    exact h.2.1
  | getCachedPid key' => cases h
  | cleanupStaleConnections => cases h

theorem InOrder.of_concat (h : InOrder (calls ++ [(time, call)]) now) :
    InOrder calls time ∧ time ≤ now := by
  rw [InOrder, List.map_append, List.pairwise_append] at h
  exact ⟨h.1, h.2.2 time (by simp) now (by simp)⟩

theorem InOrder.latest_le (h : InOrder calls now)
    (hlatest : latestCached key calls = some (time, pid)) : time ≤ now := by
  obtain ⟨last, hlast, hcached⟩ := List.exists_of_findSome?_eq_some hlatest
  rw [← cachedFor_time hcached]
  rw [InOrder, List.pairwise_append] at h
  exact h.2.2 _ (List.mem_map_of_mem (List.mem_reverse.mp hlast)) now (by simp)

theorem toNat_age (h : time ≤ now) :
    ((key.entryAt time pid).age now).toNat = now.toNat - time.toNat % 2 ^ 32 := by
  have hle : time.toNat ≤ now.toNat := h
  have hkept : ((time.setWidth 32).setWidth 64).toNat = time.toNat % 2 ^ 32 := by
    rw [BitVec.toNat_setWidth, BitVec.toNat_setWidth]
    omega
  change (now - (time.setWidth 32).setWidth 64).toNat = _
  rw [BitVec.toNat_sub, hkept]
  have hbound := now.isLt
  omega

/-- The table holds for each key what was cached last, unless it was cleaned up. -/
def Tracks (calls : List (Tick × CacheCall)) (now : Tick) (t : PidCache) : Prop :=
  ∀ key, (latestCached key calls = none → t.entry key = none) ∧
    ∀ time pid, latestCached key calls = some (time, pid) →
      t.entry key = some (key.entryAt time pid) ∨
        t.entry key = none ∧ 10000 < now.toNat - time.toNat % 2 ^ 32

theorem Tracks.mono {t : PidCache} (h : Tracks calls time t) (hle : time ≤ now) :
    Tracks calls now t := by
  have hle' : time.toNat ≤ now.toNat := hle
  intro key
  refine ⟨(h key).1, fun start pid hlatest => ?_⟩
  exact ((h key).2 start pid hlatest).imp_right fun hold => ⟨hold.1, by omega⟩

/-- One more call leaves a table that holds what was cached last. -/
theorem Tracks.perform {t : PidCache} (h : Tracks calls now t) (hcalls : InOrder calls now)
    (call : CacheCall) : Tracks (calls ++ [(now, call)]) now (call.perform now t) := by
  intro key
  rw [latestCached_concat]
  cases call with
  | cachePid key' pid' =>
    have hentry := PidCache.entry_cachePid now key' pid' t key
    change (_ → (PidCache.cachePid now key' pid' t).entry key = none) ∧
      ∀ time pid, _ → (PidCache.cachePid now key' pid' t).entry key = _ ∨
        (PidCache.cachePid now key' pid' t).entry key = none ∧ _
    rw [hentry]
    by_cases hkey : key' = key
    · subst hkey
      simp [cachedFor]
    · simpa [cachedFor, hkey, Ne.symm hkey] using h key
  | getCachedPid key' => exact h key
  | cleanupStaleConnections =>
    change (_ → (PidCache.cleanup now t).entry key = none) ∧
      ∀ time pid, _ → (PidCache.cleanup now t).entry key = _ ∨
        (PidCache.cleanup now t).entry key = none ∧ _
    rw [PidCache.entry_cleanup]
    refine ⟨fun hlatest => ?_, fun time pid hlatest => ?_⟩
    · rw [(h key).1 hlatest, Option.filter_none]
    · rcases (h key).2 time pid hlatest with hentry | ⟨hentry, hold⟩
      · have hage := @toNat_age now time key pid (hcalls.latest_le hlatest)
        rw [hentry, Option.filter_some]
        split_ifs with hkeep
        · exact .inl rfl
        · refine .inr ⟨rfl, ?_⟩
          have hstale : 10000#64 < (key.entryAt time pid).age now := by simpa using hkeep
          rw [← hage]
          exact hstale
      · exact .inr ⟨by rw [hentry, Option.filter_none], hold⟩

theorem tracks_cacheAfter (h : InOrder calls now) : Tracks calls now (cacheAfter calls) := by
  induction calls using List.reverseRecOn generalizing now with
  | nil => exact fun key => ⟨fun _ => rfl, fun _ _ hlatest => by cases hlatest⟩
  | append_singleton calls last ih =>
    obtain ⟨time, call⟩ := last
    obtain ⟨hcalls, hle⟩ := h.of_concat
    rw [cacheAfter_concat]
    exact ((ih hcalls).perform hcalls call).mono hle

/-- The owner was cached before the clock passed 32 bits, or at least a second ago, or is the pid
that stands for none. -/
def FitsClock (now : Tick) (key : PidKey) (calls : List (Tick × CacheCall)) : Prop :=
  ∀ cached ∈ latestCached key calls,
    cached.1.toNat < 2 ^ 32 ∨ cached.1.toNat + 1000 ≤ now.toNat ∨ cached.2 = 0

/-- An entry that is found is used for a second, counted from what 32 bits keep of its time. -/
theorem getCachedPid_entryAt {t : PidCache} (hentry : t.entry key = some (key.entryAt time pid))
    (h : time ≤ now) :
    t.getCachedPid now key =
      if now.toNat < time.toNat % 2 ^ 32 + 1000 then pid else 0 := by
  have hle : time.toNat ≤ now.toNat := h
  have hage := @toNat_age now time key pid h
  have hyoung : (key.entryAt time pid).age now < 1000 ↔
      now.toNat < time.toNat % 2 ^ 32 + 1000 := by
    change ((key.entryAt time pid).age now).toNat < 1000 ↔ _
    omega
  rw [PidCache.getCachedPid, hentry]
  simp only [hyoung]
  rfl

theorem getCachedPid_of_none {t : PidCache} (h : t.entry key = none) :
    t.getCachedPid now key = 0 := by
  rw [PidCache.getCachedPid, h]

/-- A lookup counts the second from what 32 bits keep of the latest time. -/
theorem getCachedPid_cacheAfter (h : InOrder calls now)
    (hlatest : latestCached key calls = some (time, pid)) :
    (cacheAfter calls).getCachedPid now key =
      if now.toNat < time.toNat % 2 ^ 32 + 1000 then pid else 0 := by
  rcases (tracks_cacheAfter h key).2 time pid hlatest with hentry | ⟨hentry, hold⟩
  · exact getCachedPid_entryAt hentry (h.latest_le hlatest)
  · rw [getCachedPid_of_none hentry, if_neg (by omega)]

/-- A lookup returns the owner that it should exactly where the times fit. -/
theorem getCachedPid_eq_expected_iff (h : InOrder calls now) (key : PidKey) :
    (cacheAfter calls).getCachedPid now key = expectedPid now key calls ↔
      FitsClock now key calls := by
  cases hlatest : latestCached key calls with
  | none =>
    rw [getCachedPid_of_none ((tracks_cacheAfter h key).1 hlatest), expectedPid, FitsClock,
      hlatest]
    simp
  | some cached =>
    obtain ⟨time, pid⟩ := cached
    have hfits : FitsClock now key calls ↔
        time.toNat < 2 ^ 32 ∨ time.toNat + 1000 ≤ now.toNat ∨ pid = 0 := by
      rw [FitsClock, hlatest]
      simp
    have hle : time.toNat ≤ now.toNat := h.latest_le hlatest
    have hmod := Nat.mod_le time.toNat (2 ^ 32)
    rw [hfits, getCachedPid_cacheAfter h hlatest, expectedPid, hlatest]
    simp only
    by_cases hlow : time.toNat < 2 ^ 32
    · rw [Nat.mod_eq_of_lt hlow]
      exact iff_of_true rfl (.inl hlow)
    · rw [if_neg (by omega), or_iff_right hlow]
      split_ifs with hyoung
      · rw [or_iff_right (by omega)]
        exact eq_comm
      · exact iff_of_true rfl (.inl (by omega))

/-- The key of a UDP port. -/
def udpKey : PidKey := ⟨ipv4 10 0 0 2, 5000, true⟩

/-- In the first weeks the owner is found again. -/
theorem getCachedPid_eq_expected_early :
    (cacheAfter [(100, .cachePid udpKey 42)]).getCachedPid 600 udpKey =
      expectedPid 600 udpKey [(100, .cachePid udpKey 42)] :=
  (getCachedPid_eq_expected_iff (by unfold InOrder; decide) udpKey).mpr (by
    rintro cached hcached
    obtain rfl : (100, 42) = cached := by simpa [latestCached, cachedFor] using hcached
    decide)

/-- After 2 ^ 32 milliseconds the owner is not found even at the time of its caching. -/
theorem getCachedPid_late :
    InOrder [(0x100000000, .cachePid udpKey 42)] 0x100000000 ∧
    (cacheAfter [(0x100000000, .cachePid udpKey 42)]).getCachedPid 0x100000000 udpKey = 0 ∧
    expectedPid 0x100000000 udpKey [(0x100000000, .cachePid udpKey 42)] = 42 := by
  refine ⟨by unfold InOrder; decide, ?_, ?_⟩ <;> decide

end

end ProxyTun.Windows
