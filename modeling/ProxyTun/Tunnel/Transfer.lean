import ProxyTun.Core.Types
import ProxyTun.Library.Segments
import ProxyTun.Library.Transition

/-!
# Forwarding between the client and the proxy

After the handshake a loop forwards both directions of a tunnel until it leaves for one of
several reasons. Three loops exist. What they have in common is a transfer loop: it writes
to the client a prefix of what the proxy sends, and all of it once it has read the end of
the proxy's stream and holds nothing back.
-/
namespace ProxyTun
open Library Library.Transition

/-- A transfer loop, started on the streams that the client and the proxy will send. One
pass through the loop is one step. -/
structure TransferLoop where
  State : Type
  Pass : Type
  start (client proxy : Segmented Byte) : State
  step : State → Pass → Option State
  /-- The bytes written to the client. -/
  toClient : State → List Byte
  /-- The end of the proxy's stream was read, and nothing is held back. -/
  Drained : State → Prop
  prefix_of_run : ∀ {client proxy passes s}, run step (start client proxy) passes = some s →
    toClient s <+: proxy.contents
  all_of_drained : ∀ {client proxy passes s}, run step (start client proxy) passes = some s →
    Drained s → toClient s = proxy.contents
  drains : ∀ client proxy, ∃ s, Reachable step (start client proxy) s ∧ Drained s

/-- Whatever the client sends and however the passes go, the client is sent nothing but the
front of `tunnel`, and all of it once the loop has read the end of the proxy's stream. -/
def TransferLoop.Forwards (loop : TransferLoop) (proxy : Segmented Byte)
    (tunnel : List Byte) : Prop :=
  ∀ client passes s, run loop.step (loop.start client proxy) passes = some s →
    loop.toClient s <+: tunnel ∧ (loop.Drained s → loop.toClient s = tunnel)

/-- A transfer loop forwards what it finds on the proxy's socket, however it is cut. -/
theorem TransferLoop.forwards_iff (loop : TransferLoop) (proxy : Segmented Byte)
    (tunnel : List Byte) : loop.Forwards proxy tunnel ↔ proxy.contents = tunnel := by
  constructor
  · intro h
    obtain ⟨s, ⟨passes, hrun⟩, hdrained⟩ := loop.drains proxy proxy
    rw [← loop.all_of_drained hrun hdrained]
    exact (h proxy passes s hrun).2 hdrained
  · intro h client passes s hrun
    rw [← h]
    exact ⟨loop.prefix_of_run hrun, loop.all_of_drained hrun⟩

/-- One direction of a tunnel: what its source will still send, and what was delivered. -/
structure Channel where
  source : Segmented Byte
  delivered : List Byte

def Channel.start (source : Segmented Byte) : Channel := ⟨source, []⟩

/-- How `recv` and the `send_all` after it go. -/
inductive Attempt where
  | moves
  | recvFails
  /-- An error after the given number of bytes was sent. -/
  | sendFails (sent : ℕ)
  deriving DecidableEq, Repr

/-- Why a loop of `recv` and `send_all` was left. -/
inductive Stop where
  | proxyEnded
  | clientEnded
  | failed
  /-- Waiting for the sockets ended in an error, a hang-up or a timeout. -/
  | gaveUp
  deriving DecidableEq, Repr

def copyBuffer : ℕ := 131072

namespace Channel

/-- `recv` of at most `size` bytes from the source of a channel and `send_all` of them to its sink,
with the reason to leave the loop if there is one. -/
def copyUpTo (size : ℕ) (ended : Stop) (attempt : Attempt) (c : Channel) : Option Stop × Channel :=
  let chunk := (c.source.recv size).1
  let rest := (c.source.recv size).2
  match attempt with
  | .recvFails => (some .failed, c)
  | .moves =>
    if chunk = [] then (some ended, ⟨rest, c.delivered⟩)
    else (none, ⟨rest, c.delivered ++ chunk⟩)
  | .sendFails sent =>
    if chunk = [] then (some ended, ⟨rest, c.delivered⟩)
    else (some .failed, ⟨rest, c.delivered ++ chunk.take sent⟩)

def serve (ended : Stop) (readable : Option Attempt) (c : Channel) : Option Stop × Channel :=
  match readable with
  | none => (none, c)
  | some attempt => c.copyUpTo copyBuffer ended attempt

/-- What a channel has delivered of `total` when its loop is at work or was left. -/
structure Delivers (total : List Byte) (ended : Stop) (stopped : Option Stop) (c : Channel) :
    Prop where
  isPrefix : c.delivered <+: total
  conserves : stopped ≠ some .failed → c.delivered ++ c.source.contents = total
  exhausted : stopped = some ended → c.source.contents = []

variable {total : List Byte} {ended : Stop} {c : Channel}

theorem delivers_start (source : Segmented Byte) (ended : Stop) :
    (Channel.start source).Delivers source.contents ended none :=
  ⟨List.nil_prefix, fun _ => rfl, fun h => by cases h⟩

/-- Leaving the loop for a reason of its own does not touch a channel. -/
theorem Delivers.leave (h : c.Delivers total ended none) {why : Stop} (hwhy : why ≠ ended) :
    c.Delivers total ended (some why) :=
  ⟨h.isPrefix, fun _ => h.conserves (by simp), fun h => absurd (Option.some.inj h) hwhy⟩

variable {size : ℕ}

theorem Delivers.end (h : c.Delivers total ended none) (hsize : 0 < size)
    (hend : (c.source.recv size).1 = []) :
    Delivers total ended (some ended) ⟨(c.source.recv size).2, c.delivered⟩ := by
  have hrest : (c.source.recv size).2.contents = c.source.contents := by
    rw [← Segmented.recv_append size c.source, hend, List.nil_append]
  have hnil : c.source.contents = [] := (Segmented.recv_eq_nil_iff hsize c.source).mp hend
  refine ⟨h.isPrefix, fun _ => ?_, fun _ => hrest.trans hnil⟩
  change c.delivered ++ (c.source.recv size).2.contents = total
  rw [hrest]
  exact h.conserves (by simp)

theorem Delivers.copyUpTo (h : c.Delivers total ended none) (hsize : 0 < size)
    (hended : ended ≠ .failed) (attempt : Attempt) :
    (c.copyUpTo size ended attempt).2.Delivers total ended (c.copyUpTo size ended attempt).1 := by
  have hall : (c.delivered ++ (c.source.recv size).1) ++ (c.source.recv size).2.contents =
      total := by
    rw [List.append_assoc, Segmented.recv_append]
    exact h.conserves (by simp)
  cases attempt with
  | recvFails => exact h.leave hended.symm
  | moves =>
    unfold Channel.copyUpTo
    by_cases hend : (c.source.recv size).1 = []
    · simp only [if_pos hend]
      exact h.end hsize hend
    · simp only [if_neg hend]
      exact ⟨⟨_, hall⟩, fun _ => hall, fun h => by cases h⟩
  | sendFails sent =>
    unfold Channel.copyUpTo
    by_cases hend : (c.source.recv size).1 = []
    · simp only [if_pos hend]
      exact h.end hsize hend
    · simp only [if_neg hend]
      have hfront : c.delivered ++ (c.source.recv size).1.take sent <+:
          c.delivered ++ (c.source.recv size).1 :=
        (List.prefix_append_right_inj _).mpr ( List.take_prefix sent _)
      exact ⟨hfront.trans ⟨_, hall⟩, fun h => absurd rfl h,
        fun h => absurd (Option.some.inj h).symm hended⟩

theorem Delivers.serve (h : c.Delivers total ended none) (hended : ended ≠ .failed)
    (readable : Option Attempt) :
    (c.serve ended readable).2.Delivers total ended (c.serve ended readable).1 := by
  cases readable with
  | none => exact h
  | some attempt => exact h.copyUpTo (by decide) hended attempt

theorem serve_stop {readable : Option Attempt} {why : Stop}
    (h : (c.serve ended readable).1 = some why) : why = ended ∨ why = .failed := by
  cases readable with
  | none => cases h
  | some attempt =>
    cases attempt <;> simp only [serve, copyUpTo] at h
    case recvFails => exact .inr (Option.some.inj h).symm
    all_goals
      split_ifs at h
      all_goals simp_all

end Channel

/-- The state of a loop of `recv` and `send_all` in both directions. -/
structure CopyState where
  download : Channel
  upload : Channel
  stopped : Option Stop

namespace CopyState

def start (client proxy : Segmented Byte) : CopyState := ⟨.start proxy, .start client, none⟩

/-- The client's socket is served first, and the proxy's socket if the loop is not left. -/
def serve (client proxy : Option Attempt) (s : CopyState) : CopyState :=
  let up := s.upload.serve .clientEnded client
  if up.1.isSome then { s with upload := up.2, stopped := up.1 }
  else
    let down := s.download.serve .proxyEnded proxy
    ⟨down.2, up.2, down.1⟩

/-- What a pass through the loop comes to once it has waited for the sockets. -/
inductive Event where
  | leave
  | again
  | serve (client proxy : Option Attempt)

def react (s : CopyState) : Event → CopyState
  | .leave => { s with stopped := some .gaveUp }
  | .again => s
  | .serve client proxy => s.serve client proxy

def step {Pass : Type} (event : Pass → Event) (s : CopyState) (pass : Pass) : Option CopyState :=
  if s.stopped.isSome then none else some (s.react (event pass))

def Delivers (total : List Byte) (s : CopyState) : Prop :=
  s.download.Delivers total .proxyEnded s.stopped

variable {Pass : Type} {event : Pass → Event} {total : List Byte}

theorem delivers_serve {s : CopyState} (h : s.download.Delivers total .proxyEnded none)
    (client proxy : Option Attempt) : (s.serve client proxy).Delivers total := by
  cases hup : (s.upload.serve .clientEnded client).1 with
  | some why =>
    have hwhy : why ≠ .proxyEnded := by
      rintro rfl
      rcases Channel.serve_stop hup with h | h <;> cases h
    simp only [serve, hup, Option.isSome_some, if_true]
    exact h.leave hwhy
  | none =>
    simp only [serve, hup, Option.isSome_none, Bool.false_eq_true, if_false]
    exact h.serve (by decide) proxy

theorem delivers_step {s t : CopyState} {pass : Pass} (hs : s.Delivers total)
    (h : step event s pass = some t) : t.Delivers total := by
  unfold step at h
  cases hstopped : s.stopped with
  | some why => simp [hstopped] at h
  | none =>
    rw [Delivers, hstopped] at hs
    obtain rfl : s.react (event pass) = t := by simpa [hstopped] using h
    cases event pass with
    | leave => exact hs.leave (by decide)
    | again =>
      change s.download.Delivers total .proxyEnded s.stopped
      rw [hstopped]
      exact hs
    | serve client proxy => exact delivers_serve hs client proxy

theorem delivers_of_run {client proxy : Segmented Byte} {passes : List Pass} {s : CopyState}
    (hrun : run (step event) (start client proxy) passes = some s) :
    s.Delivers proxy.contents :=
  run_invariant (fun _ _ _ hs h => delivers_step hs h) hrun (Channel.delivers_start proxy _)

/-- A loop that keeps serving the proxy's socket reads the end of its stream. -/
theorem reaches_end {pass : Pass} (hpass : event pass = .serve none (some .moves))
    (upload : Channel) (source : Segmented Byte) (delivered : List Byte) :
    ∃ s, Reachable (step event) ⟨⟨source, delivered⟩, upload, none⟩ s ∧
      s.stopped = some .proxyEnded := by
  induction source using Segmented.readInduction (n := copyBuffer) (by decide)
    generalizing delivered with
  | ended source hend =>
    have hrecv : (source.recv copyBuffer).1 = [] :=
      (Segmented.recv_eq_nil_iff (by decide) source).mpr hend
    have hstep : step event ⟨⟨source, delivered⟩, upload, none⟩ pass =
        some ⟨⟨(source.recv copyBuffer).2, delivered⟩, upload, some .proxyEnded⟩ := by
      simp [step, react, hpass, serve, Channel.serve, Channel.copyUpTo, hrecv]
    exact ⟨_, .single hstep, rfl⟩
  | read source hread ih =>
    have hstep : step event ⟨⟨source, delivered⟩, upload, none⟩ pass =
        some ⟨⟨(source.recv copyBuffer).2, delivered ++ (source.recv copyBuffer).1⟩, upload,
          none⟩ := by
      simp [step, react, hpass, serve, Channel.serve, Channel.copyUpTo, hread]
    obtain ⟨s, hreach, hend⟩ := ih (delivered ++ (source.recv copyBuffer).1)
    exact ⟨s, .trans (.single hstep) hreach, hend⟩

def loop {Pass : Type} (event : Pass → Event) (pass : Pass)
    (hpass : event pass = .serve none (some .moves)) : TransferLoop where
  State := CopyState
  Pass := Pass
  start := start
  step := step event
  toClient s := s.download.delivered
  Drained s := s.stopped = some .proxyEnded
  prefix_of_run hrun := (delivers_of_run hrun).isPrefix
  all_of_drained hrun hend := by
    have hdelivers := delivers_of_run hrun
    have hall := hdelivers.conserves (by rw [hend]; decide)
    rw [hdelivers.exhausted hend, List.append_nil] at hall
    exact hall
  drains client proxy := reaches_end hpass (.start client) proxy []

end CopyState
end ProxyTun

namespace ProxyTun.Windows

/-- What `select` reports, and how the readable sockets are served. -/
inductive SelectPass where
  | failed
  | timeout
  | ready (client proxy : Option Attempt)
  deriving DecidableEq, Repr

def SelectPass.event : SelectPass → CopyState.Event
  | .failed => .leave
  | .timeout => .again
  | .ready client proxy => .serve client proxy

def transferHandler : TransferLoop :=
  CopyState.loop SelectPass.event (.ready none (some .moves)) rfl

end ProxyTun.Windows
