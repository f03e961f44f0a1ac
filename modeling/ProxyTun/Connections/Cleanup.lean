import ProxyTun.Connections.Table
import ProxyTun.Library.Transition

/-!
# Cleanup of stale connections

`cleanup_stale_connections` reads the clock once and then works through the buckets.
On Linux it holds the lock for a whole bucket. On Windows it gives the lock up after
every entry it unlinks, and goes on from the slot that it points to.
-/
namespace ProxyTun
open Library Library.Transition

/-- A cleanup in progress: the time it read at its start, the bucket it has come to, and
on Windows the node whose `next` field `conn_ptr` points to, or the head slot. -/
structure Sweep where
  now : Tick
  bucket : Fin 256
  cursor : Option Port
  deriving DecidableEq, Repr

namespace Sweep

def start (now : Tick) : Sweep := ⟨now, 0, none⟩

/-- The same cleanup at the head of the next bucket, if there is one. -/
def nextBucket (sw : Sweep) : Option Sweep :=
  if h : sw.bucket.val + 1 < 256 then some ⟨sw.now, ⟨sw.bucket.val + 1, h⟩, none⟩ else none

/-- The test of the source, an unsigned difference of 64-bit numbers. -/
def expired (now : Tick) (c : ConnectionInfo) : Bool := 60000 < now - c.lastActivity

/-- The nodes behind the cursor. There are none to be found when the node under the
cursor has been freed by another thread. -/
def remaining (sw : Sweep) (t : ConnTable) : Option (List ConnectionInfo) :=
  match sw.cursor with
  | none => some (t.chain sw.bucket)
  | some p => match (t.chain sw.bucket).dropWhile fun c => c.srcPort != p with
    | [] => none
    | _ :: rest => some rest

/-- The entries that the cleanup may still look at in its bucket. -/
def ahead (pf : Platform) (sw : Sweep) (t : ConnTable) : List ConnectionInfo :=
  match pf with
  | .linux => t.chain sw.bucket
  | .windows => (sw.remaining t).getD []

def seek (now : Tick) : Option Port → List ConnectionInfo → Option (Option Port × ConnectionInfo)
  | _, [] => none
  | prev, c :: cs => if expired now c then some (prev, c) else seek now (some c.srcPort) cs

/-- What the cleanup does while it holds the lock once: the table and the cleanup
afterwards, and the entries that it took out. -/
def lockedSection (pf : Platform) (sw : Sweep) (t : ConnTable) :
    Option (ConnTable × Option Sweep × List ConnectionInfo) :=
  match pf with
  | .linux => some (t.prune sw.bucket fun c => !expired sw.now c, sw.nextBucket,
      (t.chain sw.bucket).filter (expired sw.now))
  | .windows => (sw.remaining t).map fun rest =>
      match seek sw.now sw.cursor rest with
      | some (prev, c) => (t.unlink c.srcPort, some { sw with cursor := prev }, [c])
      | none => (t, sw.nextBucket, [])

theorem nextBucket_now {sw sw' : Sweep} (h : sw.nextBucket = some sw') : sw'.now = sw.now := by
  unfold nextBucket at h
  split_ifs at h
  obtain rfl := Option.some.inj h
  rfl

theorem seek_mem {now : Tick} {prev : Option Port} {l : List ConnectionInfo} {r}
    (h : seek now prev l = some r) : r.2 ∈ l ∧ expired now r.2 = true := by
  induction l generalizing prev with
  | nil => simp [seek] at h
  | cons c cs ih =>
    rw [seek] at h
    split_ifs at h with he
    · obtain rfl := Option.some.inj h
      exact ⟨List.mem_cons_self, he⟩
    · obtain ⟨hmem, hex⟩ := ih h
      exact ⟨List.mem_cons_of_mem _ hmem, hex⟩

theorem remaining_subset {sw : Sweep} {t : ConnTable} {rest : List ConnectionInfo}
    (h : sw.remaining t = some rest) {c : ConnectionInfo} (hc : c ∈ rest) :
    c ∈ t.chain sw.bucket := by
  unfold remaining at h
  split at h
  · obtain rfl := Option.some.inj h
    exact hc
  · split at h
    · cases h
    · next d rest' hd =>
      obtain rfl := Option.some.inj h
      have hmem : c ∈ (t.chain sw.bucket).dropWhile fun a => a.srcPort != _ :=
        hd ▸ List.mem_cons_of_mem d hc
      exact (List.dropWhile_sublist _).subset hmem

theorem ahead_subset {pf : Platform} {sw : Sweep} {t : ConnTable} {c : ConnectionInfo}
    (hc : c ∈ sw.ahead pf t) : c ∈ t.chain sw.bucket := by
  cases pf with
  | linux => exact hc
  | windows =>
    cases hrest : sw.remaining t with
    | none => simp [ahead, hrest] at hc
    | some rest =>
      have hmem : c ∈ rest := by simpa [ahead, hrest] using hc
      exact remaining_subset hrest hmem

/-- All that one locked section can do: it takes out expired entries that were ahead of it, leaves
every other entry as it is, and keeps the time it has read. -/
structure Effect (pf : Platform) (sw : Sweep) (t t' : ConnTable) (next : Option Sweep)
    (evicted : List ConnectionInfo) : Prop where
  evicted_ahead : ∀ c ∈ evicted, c ∈ sw.ahead pf t
  evicted_expired : ∀ c ∈ evicted, expired sw.now c = true
  entry_of_entry : ∀ q c, t'.entry q = some c → t.entry q = some c
  entry_or_evicted : ∀ q c, t.entry q = some c → t'.entry q = some c ∨ c ∈ evicted
  now_eq : ∀ sw', next = some sw' → sw'.now = sw.now

theorem lockedSection_windows {sw : Sweep} {t t' : ConnTable} {next evicted}
    (h : sw.lockedSection .windows t = some (t', next, evicted)) :
    sw.Effect .windows t t' next evicted := by
  simp only [lockedSection, Option.map_eq_some_iff] at h
  obtain ⟨rest, hrest, h⟩ := h
  split at h
  · next prev c hseek =>
    obtain ⟨rfl, rfl, rfl⟩ := by simpa only [Prod.mk.injEq] using h
    obtain ⟨hmem, hex⟩ := seek_mem hseek
    have hchain := remaining_subset hrest hmem
    have hahead : c ∈ sw.ahead .windows t := by simpa [ahead, hrest] using hmem
    refine ⟨by simpa using hahead, by simpa using hex, ?_, ?_, ?_⟩
    · intro q d hd
      rw [ChainedTable.entry_unlink] at hd
      split_ifs at hd
      exact hd
    · intro q d hd
      rw [ChainedTable.entry_unlink]
      by_cases hq : q = c.srcPort
      · subst hq
        have hc := t.entry_of_mem hchain
        exact .inr (by rw [Option.some.inj (hd.symm.trans hc)]; exact List.mem_singleton_self c)
      · exact .inl (by rw [if_neg hq]; exact hd)
    · rintro sw' ⟨⟩
      rfl
  · obtain ⟨rfl, rfl, rfl⟩ := by simpa only [Prod.mk.injEq] using h
    exact ⟨by simp, by simp, fun _ _ h => h, fun _ _ h => .inl h, fun _ => nextBucket_now⟩

theorem lockedSection_linux {sw : Sweep} {t t' : ConnTable} {next evicted}
    (h : sw.lockedSection .linux t = some (t', next, evicted)) :
    sw.Effect .linux t t' next evicted := by
  simp only [lockedSection, Option.some.injEq, Prod.mk.injEq] at h
  obtain ⟨rfl, rfl, rfl⟩ := h
  refine ⟨fun c hc => List.mem_of_mem_filter hc, fun c hc => (List.mem_filter.mp hc).2, ?_, ?_,
    fun _ => nextBucket_now⟩
  · intro q c hc
    rw [ChainedTable.entry_prune] at hc
    split_ifs at hc
    · exact (Option.filter_eq_some_iff.mp hc).1
    · exact hc
  · intro q c hc
    rw [ChainedTable.entry_prune]
    by_cases hq : connectionHash q = sw.bucket
    · rw [if_pos hq, hc, Option.filter_some]
      by_cases hex : expired sw.now c = true
      · exact .inr (List.mem_filter.mpr ⟨hq ▸ ChainedTable.entry_mem hc, hex⟩)
      · exact .inl (by simp [hex])
    · exact .inl (by rw [if_neg hq]; exact hc)

theorem lockedSection_effect {pf : Platform} {sw : Sweep} {t t' : ConnTable} {next evicted}
    (h : sw.lockedSection pf t = some (t', next, evicted)) : sw.Effect pf t t' next evicted := by
  cases pf with
  | windows => exact lockedSection_windows h
  | linux => exact lockedSection_linux h

/-- The unsigned test in terms of the two times: the entry is more than a minute older than
the time the cleanup has read, or it is younger than that time. -/
theorem expired_iff (now : Tick) (c : ConnectionInfo) :
    expired now c = true ↔ c.lastActivity.toNat + 60000 < now.toNat ∨
      now < c.lastActivity ∧ c.lastActivity.toNat < now.toNat + (2 ^ 64 - 60000) := by
  have hn := now.isLt
  have hl := c.lastActivity.isLt
  have hm : (60000 : Tick).toNat = 60000 := rfl
  simp only [expired, decide_eq_true_eq, BitVec.lt_def, BitVec.toNat_sub, hm]
  omega

end Sweep
end ProxyTun
