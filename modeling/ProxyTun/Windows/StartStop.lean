import Mathlib.Data.List.FinRange
import ProxyTun.Core.Rules
import ProxyTun.Library.Handles
import ProxyTun.Library.Transition

/-!
# Starting and stopping the Windows engine

`ProxyTun_Start` creates its threads and opens WinDivert one after another, and undoes by hand
what it has done when one of them fails. Where WinDivert or a packet thread fails, the threads of
the cleanup and of the UDP relay are not among what it undoes.
-/
namespace ProxyTun.Windows.StartStop
open Library Library.Transition

/-- The variables of the engine, which are NULL or `INVALID_HANDLE_VALUE` unless they hold a
handle. -/
inductive HandleVar where
  | proxyThread
  | cleanupThread
  | udpRelayThread
  | windivertHandle
  | packetThread (i : Fin 4)
  deriving DecidableEq, Repr

structure Engine where
  running : Bool
  /-- The mutex exists. -/
  lock : Bool
  handles : Handles HandleVar

/-- Which calls succeed, of those that a start comes to. -/
structure Attempt where
  createMutex : Bool
  /-- `CreateThread`, or `WinDivertOpen`, for the variable. -/
  opens : HandleVar → Bool

inductive Label where
  | start (proxyType : ProxyType) (attempt : Attempt)
  | stop

namespace Engine

def initial : Engine := ⟨false, false, .empty⟩

def acquire (v : HandleVar) (ok : Bool) (s : Engine) : Engine :=
  { s with handles := s.handles.acquire v ok }

/-- `CloseHandle` or `WinDivertClose`, and the variable is reset. -/
def close (v : HandleVar) (s : Engine) : Engine := { s with handles := s.handles.close v }

def closeAll (vs : List HandleVar) (s : Engine) : Engine :=
  vs.foldl (fun s v => s.close v) s

def halt (s : Engine) : Engine := { s with running := false }

def createPacketThreads (opens : HandleVar → Bool) : List (Fin 4) → List (Fin 4) → Engine → Engine
  | [], _, s => s
  | i :: is, created, s =>
    let t := s.acquire (.packetThread i) (opens (.packetThread i))
    if opens (.packetThread i) then createPacketThreads opens is (created ++ [i]) t
    else t.halt.closeAll (created.map .packetThread ++ [.windivertHandle, .proxyThread])

def openWinDivert (opens : HandleVar → Bool) (s : Engine) : Engine :=
  let t := s.acquire .windivertHandle (opens .windivertHandle)
  if opens .windivertHandle then createPacketThreads opens (List.finRange 4) [] t
  else t.halt.close .proxyThread

/-- The UDP relay, which only a SOCKS5 proxy needs. -/
def createUdpRelay (proxyType : ProxyType) (opens : HandleVar → Bool) (s : Engine) : Engine :=
  if proxyType = .socks5 then
    let t := s.acquire .udpRelayThread (opens .udpRelayThread)
    if opens .udpRelayThread then openWinDivert opens t
    else t.halt.closeAll [.cleanupThread, .proxyThread]
  else openWinDivert opens s

/-- `ProxyTun_Start`. -/
def start (proxyType : ProxyType) (attempt : Attempt) (s : Engine) : Engine :=
  if s.running then s
  else if !s.lock && !attempt.createMutex then s
  else
    let opens := attempt.opens
    let t := ({ s with running := true, lock := true } : Engine).acquire .proxyThread
      (opens .proxyThread)
    if !opens .proxyThread then t.halt
    else
      let u := t.acquire .cleanupThread (opens .cleanupThread)
      if !opens .cleanupThread then u.halt.close .proxyThread
      else createUdpRelay proxyType opens u

/-- `ProxyTun_Stop`. -/
def stop (s : Engine) : Engine :=
  if !s.running then s
  else s.halt.closeAll ([.windivertHandle] ++ (List.finRange 4).map .packetThread ++
    [.proxyThread, .cleanupThread, .udpRelayThread])

end Engine

def step (s : Engine) : Label → Option Engine
  | .start proxyType attempt => some (s.start proxyType attempt)
  | .stop => some s.stop

/-- A stopped engine holds nothing, and no handle was ever overwritten. -/
structure Tidy (s : Engine) : Prop where
  stopped : s.running = false → s.handles.Clear
  nothingLost : s.handles.lost = []

/-- The start comes to WinDivert and fails there, or at a packet thread. -/
def failsLate (s : Engine) : Label → Bool
  | .start proxyType attempt =>
    !s.running && (s.lock || attempt.createMutex) && attempt.opens .proxyThread &&
      attempt.opens .cleanupThread &&
      (proxyType ≠ .socks5 || attempt.opens .udpRelayThread) &&
      (!attempt.opens .windivertHandle ||
        !(List.finRange 4).all fun i => attempt.opens (.packetThread i))
  | .stop => false

namespace Engine

variable {s : Engine} {opens : HandleVar → Bool}

@[simp] theorem running_acquire (v : HandleVar) (ok : Bool) (s : Engine) :
    (s.acquire v ok).running = s.running := rfl

@[simp] theorem running_close (v : HandleVar) (s : Engine) : (s.close v).running = s.running := rfl

@[simp] theorem running_halt (s : Engine) : s.halt.running = false := rfl

@[simp] theorem handles_halt (s : Engine) : s.halt.handles = s.handles := rfl

theorem closeAll_keeps {α : Type} (f : Engine → α) (hf : ∀ s v, f (s.close v) = f s)
    (vs : List HandleVar) (s : Engine) : f (s.closeAll vs) = f s := by
  induction vs generalizing s with
  | nil => rfl
  | cons v vs ih => exact (ih (s.close v)).trans (hf s v)

@[simp] theorem running_closeAll (vs : List HandleVar) (s : Engine) :
    (s.closeAll vs).running = s.running := closeAll_keeps running (fun _ _ => rfl) vs s

@[simp] theorem lost_closeAll (vs : List HandleVar) (s : Engine) :
    (s.closeAll vs).handles.lost = s.handles.lost :=
  closeAll_keeps (fun s => s.handles.lost) (fun _ _ => rfl) vs s

theorem held_closeAll (vs : List HandleVar) (s : Engine) (v : HandleVar) :
    (s.closeAll vs).handles.held v = if v ∈ vs then none else s.handles.held v := by
  induction vs generalizing s with
  | nil => rfl
  | cons w vs ih =>
    rw [closeAll, List.foldl_cons, ← closeAll, ih]
    by_cases hv : v ∈ vs
    · rw [if_pos hv, if_pos (List.mem_cons_of_mem w hv)]
    · rw [if_neg hv]
      by_cases hw : v = w
      · subst hw
        rw [if_pos List.mem_cons_self]
        exact Handles.held_close_self v s.handles
      · rw [if_neg (by simp [hv, hw])]
        exact Handles.held_close_of_ne hw s.handles

theorem held_acquire_of_ne {v w : HandleVar} (h : w ≠ v) (ok : Bool) (s : Engine) :
    (s.acquire v ok).handles.held w = s.handles.held w := Handles.held_acquire_of_ne h ok s.handles

theorem lost_acquire {v : HandleVar} (h : s.handles.held v = none) (ok : Bool) :
    (s.acquire v ok).handles.lost = s.handles.lost := Handles.lost_acquire h ok

theorem running_createPacketThreads (is created : List (Fin 4)) (s : Engine) :
    (createPacketThreads opens is created s).running =
      (s.running && is.all fun i => opens (.packetThread i)) := by
  induction is generalizing created s with
  | nil => simp [createPacketThreads]
  | cons i is ih =>
    rw [createPacketThreads]
    cases hopens : opens (.packetThread i) with
    | true => simp [ih, hopens]
    | false => simp [hopens]

/-- The packet threads, and what is undone without them, leave the other variables alone. -/
theorem held_createPacketThreads {v : HandleVar} (hproxy : v ≠ .proxyThread)
    (hwindivert : v ≠ .windivertHandle) (hpacket : ∀ i, v ≠ .packetThread i)
    (is created : List (Fin 4)) (s : Engine) :
    (createPacketThreads opens is created s).handles.held v = s.handles.held v := by
  induction is generalizing created s with
  | nil => rfl
  | cons i is ih =>
    rw [createPacketThreads]
    split
    · exact (ih _ _).trans (held_acquire_of_ne (hpacket i) _ s)
    · rw [held_closeAll, if_neg (by simp [hproxy, hwindivert, fun i => (hpacket i).symm])]
      exact held_acquire_of_ne (hpacket i) _ s

theorem lost_createPacketThreads {is : List (Fin 4)} (created : List (Fin 4)) (hnodup : is.Nodup)
    (hnone : ∀ i ∈ is, s.handles.held (.packetThread i) = none) :
    (createPacketThreads opens is created s).handles.lost = s.handles.lost := by
  induction is generalizing created s with
  | nil => rfl
  | cons i is ih =>
    have hlost := lost_acquire (hnone i List.mem_cons_self) (opens (.packetThread i))
    rw [createPacketThreads]
    split
    · refine (ih _ hnodup.of_cons fun j hj => ?_).trans hlost
      have hij : j ≠ i := by
        rintro rfl
        exact (List.nodup_cons.mp hnodup).1 hj
      rw [held_acquire_of_ne (by simpa using hij)]
      exact hnone j (List.mem_cons_of_mem i hj)
    · rw [lost_closeAll]
      exact hlost

theorem running_openWinDivert (opens : HandleVar → Bool) (s : Engine) :
    (openWinDivert opens s).running =
      (s.running && opens .windivertHandle &&
        (List.finRange 4).all fun i => opens (.packetThread i)) := by
  rw [openWinDivert]
  cases hopens : opens .windivertHandle with
  | true => simp [running_createPacketThreads]
  | false => simp

theorem held_openWinDivert {v : HandleVar} (hproxy : v ≠ .proxyThread)
    (hwindivert : v ≠ .windivertHandle) (hpacket : ∀ i, v ≠ .packetThread i) (s : Engine) :
    (openWinDivert opens s).handles.held v = s.handles.held v := by
  rw [openWinDivert]
  split
  · exact (held_createPacketThreads hproxy hwindivert hpacket _ _ _).trans
      (held_acquire_of_ne hwindivert _ s)
  · exact (Handles.held_close_of_ne hproxy _).trans (held_acquire_of_ne hwindivert _ s)

theorem lost_openWinDivert (hwindivert : s.handles.held .windivertHandle = none)
    (hpackets : ∀ i, s.handles.held (.packetThread i) = none) :
    (openWinDivert opens s).handles.lost = s.handles.lost := by
  have hlost := lost_acquire hwindivert (opens .windivertHandle)
  rw [openWinDivert]
  split
  · refine (lost_createPacketThreads [] (List.nodup_finRange 4) fun i _ => ?_).trans hlost
    rw [held_acquire_of_ne (by simp)]
    exact hpackets i
  · exact hlost

theorem createUdpRelay_of_opens (hopens : ∀ v, opens v = true) (proxyType : ProxyType)
    (s : Engine) :
    (createUdpRelay proxyType opens s).running = s.running ∧
      ((createUdpRelay proxyType opens s).handles.held .udpRelayThread).isSome =
        (proxyType = .socks5 || (s.handles.held .udpRelayThread).isSome) := by
  have hall : ((List.finRange 4).all fun i => opens (.packetThread i)) = true :=
    List.all_eq_true.mpr fun i _ => hopens _
  have hrunning : ∀ t, (openWinDivert opens t).running = t.running := fun t => by
    rw [running_openWinDivert, hopens, hall, Bool.and_true, Bool.and_true]
  have hheld : ∀ t, (openWinDivert opens t).handles.held .udpRelayThread =
      t.handles.held .udpRelayThread := held_openWinDivert (by simp) (by simp) (by simp)
  rw [createUdpRelay]
  by_cases hsocks : proxyType = .socks5
  · rw [if_pos hsocks, hopens, if_pos rfl]
    refine ⟨hrunning _, ?_⟩
    rw [hheld, acquire, Handles.held_acquire_self]
    simp [hsocks]
  · rw [if_neg hsocks]
    refine ⟨hrunning _, ?_⟩
    rw [hheld]
    simp [hsocks]

theorem start_of_opens (hrunning : s.running = false) (proxyType : ProxyType) {attempt : Attempt}
    (hmutex : attempt.createMutex = true) (hopens : ∀ v, attempt.opens v = true) :
    (s.start proxyType attempt).running = true ∧
      ((s.start proxyType attempt).handles.held .udpRelayThread).isSome =
        (proxyType = .socks5 || (s.handles.held .udpRelayThread).isSome) := by
  let t := (({ s with running := true, lock := true } : Engine).acquire .proxyThread
    true).acquire .cleanupThread true
  have hstart : s.start proxyType attempt = createUdpRelay proxyType attempt.opens t := by
    rw [start, if_neg (by simp [hrunning]), if_neg (by simp [hmutex])]
    simp only [hopens, Bool.not_true, Bool.false_eq_true, if_false, t]
  have hheld : t.handles.held .udpRelayThread = s.handles.held .udpRelayThread :=
    (held_acquire_of_ne (by simp) _ _).trans (held_acquire_of_ne (by simp) _ _)
  obtain ⟨hup, hrelay⟩ := createUdpRelay_of_opens hopens proxyType t
  rw [hstart, hrelay, hheld]
  exact ⟨hup, rfl⟩

theorem clear_stop (hrunning : s.running = true) : s.stop.handles.Clear := by
  intro v
  rw [stop, if_neg (by simp [hrunning]), held_closeAll, if_pos]
  cases v <;> simp

theorem lost_stop (s : Engine) : s.stop.handles.lost = s.handles.lost := by
  rw [stop]
  split
  · rfl
  · exact lost_closeAll _ _

end Engine

/-- The engine after the first two threads of a start, with the rest of its variables clear. -/
structure HalfStarted (s : Engine) : Prop where
  running : s.running = true
  cleanup : s.handles.held .cleanupThread ≠ none
  others : ∀ v, v ≠ .proxyThread → v ≠ .cleanupThread → s.handles.held v = none
  nothingLost : s.handles.lost = []

namespace Engine

variable {s : Engine} {opens : HandleVar → Bool}

/-- From WinDivert on the start succeeds, or it leaves the cleanup thread behind. -/
theorem tidy_openWinDivert_iff (h : s.running = true)
    (hcleanup : s.handles.held .cleanupThread ≠ none)
    (hwindivert : s.handles.held .windivertHandle = none)
    (hpackets : ∀ i, s.handles.held (.packetThread i) = none) (hlost : s.handles.lost = []) :
    Tidy (openWinDivert opens s) ↔
      (opens .windivertHandle && (List.finRange 4).all fun i => opens (.packetThread i)) =
        true := by
  have hrunning := running_openWinDivert opens s
  rw [h, Bool.true_and] at hrunning
  rw [← hrunning]
  constructor
  · intro htidy
    by_contra hstopped
    have hclear := htidy.stopped (by simpa using hstopped) .cleanupThread
    rw [held_openWinDivert (by simp) (by simp) (by simp)] at hclear
    exact hcleanup hclear
  · intro hstarted
    exact ⟨fun hstopped => absurd hstarted (by simp [hstopped]),
      (lost_openWinDivert hwindivert hpackets).trans hlost⟩

theorem tidy_createUdpRelay_iff (proxyType : ProxyType) (h : HalfStarted s) :
    Tidy (createUdpRelay proxyType opens s) ↔
      ¬ ((proxyType ≠ .socks5 || opens .udpRelayThread) &&
        (!opens .windivertHandle ||
          !(List.finRange 4).all fun i => opens (.packetThread i))) = true := by
  rw [createUdpRelay]
  have hudp := h.others .udpRelayThread (by simp) (by simp)
  by_cases hsocks : proxyType = .socks5
  · rw [if_pos hsocks]
    cases hopens : opens .udpRelayThread with
    | true =>
      rw [if_pos rfl, tidy_openWinDivert_iff (s := s.acquire .udpRelayThread true) h.running]
      · simp [hsocks]
      · exact (held_acquire_of_ne (by simp) _ s).trans_ne h.cleanup
      · exact (held_acquire_of_ne (by simp) _ s).trans (h.others _ (by simp) (by simp))
      · exact fun i => (held_acquire_of_ne (by simp) _ s).trans (h.others _ (by simp) (by simp))
      · exact (lost_acquire hudp _).trans h.nothingLost
    | false =>
      rw [if_neg (by simp)]
      refine iff_of_true ⟨fun _ v => ?_, ?_⟩ (by simp [hsocks])
      · rw [held_closeAll]
        split_ifs with hv
        · rfl
        · by_cases hw : v = .udpRelayThread
          · subst hw
            exact Handles.held_acquire_self _ _ _
          · exact (held_acquire_of_ne hw _ s).trans
              (h.others v (fun he => hv (by simp [he])) fun he => hv (by simp [he]))
      · rw [lost_closeAll]
        exact (lost_acquire hudp _).trans h.nothingLost
  · rw [if_neg hsocks, tidy_openWinDivert_iff h.running h.cleanup
      (h.others _ (by simp) (by simp)) (fun i => h.others _ (by simp) (by simp)) h.nothingLost]
    simp [hsocks]

theorem halfStarted (h : s.handles.Clear) (hlost : s.handles.lost = []) (lock : Bool) :
    HalfStarted ((({ s with running := true, lock := lock } : Engine).acquire .proxyThread
      true).acquire .cleanupThread true) where
  running := rfl
  cleanup := by
    rw [acquire, Handles.held_acquire_self]
    simp
  others v hproxy hcleanup :=
    (held_acquire_of_ne hcleanup _ _).trans ((held_acquire_of_ne hproxy _ _).trans (h v))
  nothingLost := by
    have hheld : (({ s with running := true, lock := lock } : Engine).acquire .proxyThread
        true).handles.held .cleanupThread = none :=
      (held_acquire_of_ne (by simp) _ _).trans (h _)
    exact (lost_acquire hheld true).trans ((Handles.lost_acquire (h _) true).trans hlost)

theorem tidy_noProxyThread (h : s.handles.Clear) (hlost : s.handles.lost = []) :
    Tidy (s.acquire .proxyThread false).halt :=
  ⟨fun _ => h.acquire .proxyThread, (Handles.lost_acquire (h _) false).trans hlost⟩

theorem tidy_noCleanupThread (h : s.handles.Clear) (hlost : s.handles.lost = []) :
    Tidy (((s.acquire .proxyThread true).acquire .cleanupThread false).halt.close
      .proxyThread) := by
  have hheld : (s.acquire .proxyThread true).handles.held .cleanupThread = none :=
    (held_acquire_of_ne (by simp) _ _).trans (h _)
  refine ⟨fun _ v => ?_, (lost_acquire hheld false).trans
    ((Handles.lost_acquire (h _) true).trans hlost)⟩
  by_cases hv : v = .cleanupThread
  · subst hv
    exact (Handles.held_close_of_ne (by simp) _).trans (Handles.held_acquire_self _ _ _)
  · by_cases hv' : v = .proxyThread
    · subst hv'
      exact Handles.held_close_self _ _
    · exact (Handles.held_close_of_ne hv' _).trans
        ((held_acquire_of_ne hv _ _).trans ((held_acquire_of_ne hv' _ _).trans (h v)))

theorem tidy_start_iff (h : Tidy s) (proxyType : ProxyType) (attempt : Attempt) :
    Tidy (s.start proxyType attempt) ↔ failsLate s (.start proxyType attempt) = false := by
  rw [start]
  dsimp only
  cases hrunning : s.running with
  | true => simp [failsLate, hrunning, h]
  | false =>
    have hclear := h.stopped hrunning
    have hmutex : (!s.lock && !attempt.createMutex) = !(s.lock || attempt.createMutex) := by
      rw [Bool.not_or]
    rw [if_neg (by simp), hmutex]
    cases hlock : s.lock || attempt.createMutex with
    | false => simp [failsLate, hlock, h]
    | true =>
      rw [if_neg (by simp)]
      cases hproxy : attempt.opens .proxyThread with
      | false =>
        rw [if_pos (by simp)]
        exact iff_of_true
          (tidy_noProxyThread (s := { s with running := true, lock := true }) hclear h.nothingLost)
          (by simp [failsLate, hproxy])
      | true =>
        rw [if_neg (by simp)]
        cases hcleanup : attempt.opens .cleanupThread with
        | false =>
          rw [if_pos (by simp)]
          exact iff_of_true
            (tidy_noCleanupThread (s := { s with running := true, lock := true }) hclear
              h.nothingLost)
            (by simp [failsLate, hcleanup])
        | true =>
          rw [if_neg (by simp), tidy_createUdpRelay_iff proxyType
            (halfStarted hclear h.nothingLost true)]
          simp only [failsLate, hrunning, hlock, hproxy, hcleanup, Bool.not_false, Bool.true_and,
            Bool.not_eq_true]

theorem tidy_stop (h : Tidy s) : Tidy s.stop := by
  refine ⟨fun _ => ?_, (lost_stop s).trans h.nothingLost⟩
  cases hrunning : s.running with
  | true => exact clear_stop hrunning
  | false =>
    have hsame : s.stop = s := by rw [stop, if_pos (by simp [hrunning])]
    rw [hsame]
    exact h.stopped hrunning

end Engine

/-- In every run the engine holds nothing whenever it is stopped, and loses no handle, if and only
if no start fails at WinDivert or at a packet thread. -/
theorem tidy_iff {ls : List Label} {s : Engine} (hrun : run step .initial ls = some s) :
    EachStep step (fun _ _ t => Tidy t) .initial ls ↔
      Guarded step (fun s l => failsLate s l = false) .initial ls := by
  have hinitial : Tidy .initial := ⟨fun _ _ => rfl, rfl⟩
  refine eachStep_iff_guarded (H := fun _ _ => True) (I := Tidy) ?_ (fun _ _ _ _ _ _ h => h) hrun
    (guarded_true _ ls) hinitial
  intro s l t hs _ ht
  cases l with
  | start proxyType attempt =>
    obtain rfl := Option.some.inj ht
    exact Engine.tidy_start_iff hs proxyType attempt
  | stop =>
    obtain rfl := Option.some.inj ht
    exact iff_of_true (Engine.tidy_stop hs) rfl

/-- WinDivert cannot be opened, as when the program lacks the rights. -/
def withoutWinDivert : Attempt := ⟨true, fun v => v ≠ .windivertHandle⟩

def everythingOpens : Attempt := ⟨true, fun _ => true⟩

/-- A start without WinDivert leaves two threads behind, and the next start overwrites their
handles. -/
theorem threads_left_behind :
    (∃ s, run step .initial [.start .socks5 withoutWinDivert] = some s ∧ s.running = false ∧
      s.handles.held .cleanupThread = some 1 ∧ s.handles.held .udpRelayThread = some 2) ∧
    ∃ s, run step .initial [.start .socks5 withoutWinDivert, .start .socks5 everythingOpens] =
        some s ∧ s.handles.lost = [1, 2] := by
  exact ⟨⟨_, rfl, by decide, by decide, by decide⟩, _, rfl, by decide⟩

theorem tidy_after_stop :
    EachStep step (fun _ _ t => Tidy t) .initial
      [.start .socks5 everythingOpens, .stop, .start .http everythingOpens] := by
  have hrun : ∃ s, run step .initial
      [.start .socks5 everythingOpens, .stop, .start .http everythingOpens] = some s := ⟨_, rfl⟩
  obtain ⟨s, hs⟩ := hrun
  exact (tidy_iff hs).mpr (by decide)

end ProxyTun.Windows.StartStop
