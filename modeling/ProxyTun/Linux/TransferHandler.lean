import ProxyTun.Tunnel.Transfer

/-!
# The transfer loops of the Linux engine

`transfer_handler` moves each direction of a tunnel through a pipe with `splice`. If the
pipes cannot be created it falls back to a loop of `recv` and `send_all`.
-/
namespace ProxyTun.Linux
open Library Library.Transition

/-- What sets `sock1_done` or `sock2_done`. -/
inductive Done where
  | ended
  | hungUp
  | failed
  deriving DecidableEq, Repr

/-- One direction of the splice loop. The source is done when `done` is set, the bytes in the
pipe are counted in `pipe_a_bytes` or `pipe_b_bytes`, and `shutWr` tells whether
`shutdown(SHUT_WR)` was called on the sink. -/
structure Direction extends Channel where
  done : Option Done
  pipe : List Byte
  shutWr : Bool

/-- The bits of `revents`. -/
structure Revents where
  pollin : Bool
  pollout : Bool
  pollhup : Bool
  pollerr : Bool
  deriving DecidableEq, Repr

/-- What is requested for a socket. An unpolled socket has the file descriptor -1. -/
structure Events where
  polled : Bool
  pollin : Bool
  pollout : Bool
  deriving DecidableEq, Repr

/-- `poll` reports data and room only on request, errors and hang-ups on every polled socket. -/
def Events.mask (e : Events) (r : Revents) : Revents :=
  ⟨r.pollin && e.polled && e.pollin, r.pollout && e.polled && e.pollout,
    r.pollhup && e.polled, r.pollerr && e.polled⟩

/-- How `splice` from a socket into its pipe goes. -/
inductive ReadCall where
  | takes
  | wouldBlock
  | fails
  deriving DecidableEq, Repr

/-- How `splice` from a pipe to a socket goes. -/
inductive WriteCall where
  | puts (count : ℕ)
  | wouldBlock
  | fails
  deriving DecidableEq, Repr

def pipeSize : ℕ := 1048576

namespace Direction

def start (source : Segmented Byte) : Direction := ⟨.start source, none, [], false⟩

def canFill (d : Direction) : Bool := d.done.isNone && d.pipe.isEmpty

def canDrain (d : Direction) : Bool := !d.pipe.isEmpty

def isFinished (d : Direction) : Bool := d.done.isSome && d.pipe.isEmpty

def hangUp (source : Revents) (d : Direction) : Direction :=
  if source.pollhup && !source.pollin then { d with done := d.done.or (some .hungUp) } else d

def fill (source : Revents) (call : ReadCall) (d : Direction) : Direction :=
  if d.canFill && source.pollin then
    match call with
    | .takes =>
      let chunk := (d.source.recv pipeSize).1
      { d with
        source := (d.source.recv pipeSize).2
        pipe := chunk
        done := if chunk = [] then some .ended else none }
    | .wouldBlock => d
    | .fails => { d with done := some .failed }
  else d

def drain (sink : Revents) (call : WriteCall) (d : Direction) : Option Direction :=
  if d.canDrain && sink.pollout then
    match call with
    | .puts count => some { d with
        delivered := d.delivered ++ d.pipe.take count
        pipe := d.pipe.drop count }
    | .wouldBlock => some d
    | .fails => none
  else some d

def halfClose (d : Direction) : Direction := { d with shutWr := d.shutWr || d.isFinished }

/-- No byte of `total` is lost or made up, and the source ends only once it is read. -/
structure Keeps (total : List Byte) (d : Direction) : Prop where
  conserves : d.delivered ++ (d.pipe ++ d.source.contents) = total
  exhausted : d.done = some .ended → d.source.contents = []

variable {total : List Byte} {d : Direction}

theorem keeps_start (source : Segmented Byte) : (start source).Keeps source.contents :=
  ⟨rfl, fun h => by cases h⟩

theorem Keeps.hangUp (h : d.Keeps total) (source : Revents) : (d.hangUp source).Keeps total := by
  unfold Direction.hangUp
  split_ifs
  · refine ⟨h.conserves, fun hdone => ?_⟩
    apply h.exhausted
    cases hd : d.done with
    | none => simp [hd] at hdone
    | some why => simpa [hd] using hdone
  · exact h

theorem Keeps.fill (h : d.Keeps total) (source : Revents) (call : ReadCall) :
    (d.fill source call).Keeps total := by
  unfold Direction.fill
  by_cases hready : (d.canFill && source.pollin) = true
  · rw [if_pos hready]
    have hpipe : d.pipe = [] := by simp_all [canFill]
    cases call with
    | wouldBlock => exact h
    | fails => exact ⟨h.conserves, fun h => by cases h⟩
    | takes =>
      have hall := h.conserves
      rw [hpipe, List.nil_append, ← Segmented.recv_append pipeSize] at hall
      refine ⟨hall, fun hdone => ?_⟩
      have hend : (d.source.recv pipeSize).1 = [] := by
        by_contra hchunk
        simp [hchunk] at hdone
      have hnil : d.source.contents = [] :=
        (Segmented.recv_eq_nil_iff (by decide) d.source).mp hend
      rw [← Segmented.recv_append pipeSize, List.append_eq_nil_iff] at hnil
      exact hnil.2
  · rw [if_neg hready]
    exact h

theorem Keeps.drain (h : d.Keeps total) {sink : Revents} {call : WriteCall} {d' : Direction}
    (hdrain : d.drain sink call = some d') : d'.Keeps total := by
  unfold Direction.drain at hdrain
  split_ifs at hdrain
  · cases call with
    | puts count =>
      obtain rfl := Option.some.inj hdrain
      refine ⟨?_, h.exhausted⟩
      calc
        (d.delivered ++ d.pipe.take count) ++ (d.pipe.drop count ++ d.source.contents)
            = d.delivered ++ ((d.pipe.take count ++ d.pipe.drop count) ++ d.source.contents) := by
              simp only [List.append_assoc]
        _ = total := by rw [List.take_append_drop, h.conserves]
    | wouldBlock =>
      obtain rfl := Option.some.inj hdrain
      exact h
    | fails => cases hdrain
  · obtain rfl := Option.some.inj hdrain
    exact h

theorem Keeps.halfClose (h : d.Keeps total) : d.halfClose.Keeps total :=
  ⟨h.conserves, h.exhausted⟩

end Direction

inductive PollResult where
  | failed
  | interrupted
  | idle
  | ready (client proxy : Revents)
  deriving DecidableEq, Repr

structure SplicePass where
  poll : PollResult
  readProxy : ReadCall
  writeClient : WriteCall
  readClient : ReadCall
  writeProxy : WriteCall
  deriving DecidableEq, Repr

/-- The download runs from the proxy to the client, the upload from the client to the proxy. -/
structure SpliceState where
  download : Direction
  upload : Direction
  running : Bool

namespace SpliceState

def start (client proxy : Segmented Byte) : SpliceState := ⟨.start proxy, .start client, true⟩

def clientEvents (s : SpliceState) : Events :=
  ⟨s.upload.done.isNone || s.download.canDrain || s.upload.canDrain, s.upload.canFill,
    s.download.canDrain⟩

def proxyEvents (s : SpliceState) : Events :=
  ⟨s.download.done.isNone || s.upload.canDrain || s.download.canDrain, s.download.canFill,
    s.upload.canDrain⟩

/-- Neither socket is polled, or nothing is requested of them. -/
def hasNoWork (s : SpliceState) : Bool :=
  let client := s.clientEvents
  let proxy := s.proxyEvents
  (!client.polled && !proxy.polled) ||
    !(client.pollin || client.pollout || proxy.pollin || proxy.pollout)

def leave (s : SpliceState) : SpliceState := { s with running := false }

/-- The part of a pass after the checks of `poll`. -/
def work (p : SplicePass) (client proxy : Revents) (s : SpliceState) : SpliceState :=
  let download := (s.download.hangUp proxy).fill proxy p.readProxy
  let upload := s.upload.hangUp client
  match download.drain client p.writeClient with
  | none => ⟨download, upload, false⟩
  | some download =>
    let upload := upload.fill client p.readClient
    match upload.drain proxy p.writeProxy with
    | none => ⟨download, upload, false⟩
    | some upload =>
      ⟨download.halfClose, upload.halfClose, !(download.isFinished && upload.isFinished)⟩

def pass (p : SplicePass) (s : SpliceState) : SpliceState :=
  if s.hasNoWork then s.leave
  else
    match p.poll with
    | .failed => s.leave
    | .interrupted => s
    | .idle => s.leave
    | .ready client proxy =>
      let client := s.clientEvents.mask client
      let proxy := s.proxyEvents.mask proxy
      if client.pollerr || proxy.pollerr then s.leave else s.work p client proxy

def step (s : SpliceState) (p : SplicePass) : Option SpliceState :=
  if s.running then some (s.pass p) else none

variable {total : List Byte} {s : SpliceState}

theorem keeps_work (h : s.download.Keeps total) (p : SplicePass) (client proxy : Revents) :
    (s.work p client proxy).download.Keeps total := by
  have hfill := (h.hangUp proxy).fill proxy p.readProxy
  cases hdown : ((s.download.hangUp proxy).fill proxy p.readProxy).drain client p.writeClient with
  | none =>
    simp only [work, hdown]
    exact hfill
  | some download =>
    have hdrain : download.Keeps total := hfill.drain hdown
    simp only [work, hdown]
    split
    · exact hdrain
    · exact hdrain.halfClose

theorem keeps_pass (h : s.download.Keeps total) (p : SplicePass) :
    (s.pass p).download.Keeps total := by
  unfold pass
  split_ifs
  · exact h
  · cases p.poll with
    | failed => exact h
    | interrupted => exact h
    | idle => exact h
    | ready client proxy =>
      dsimp only
      split_ifs
      · exact h
      · exact keeps_work h p _ _

theorem keeps_of_run {client proxy : Segmented Byte} {passes : List SplicePass}
    (hrun : run step (start client proxy) passes = some s) :
    s.download.Keeps proxy.contents := by
  apply run_invariant (I := fun s => s.download.Keeps proxy.contents) _ hrun
    (Direction.keeps_start proxy)
  intro s p t hs h
  unfold step at h
  split_ifs at h
  obtain rfl := Option.some.inj h
  exact keeps_pass hs p

/-- A pass in which the proxy's socket has data and the client's socket has room. -/
def downloadPass (count : ℕ) : SplicePass :=
  ⟨.ready ⟨false, true, false, false⟩ ⟨true, false, false, false⟩, .takes, .puts count, .takes,
    .puts 0⟩

/-- Such a pass fills the empty pipe of the download or drains the full one, and does not
touch the upload of a silent client. -/
theorem step_downloadPass {client : Segmented Byte} {d : Direction} (hdone : d.done = none)
    (count : ℕ) :
    step ⟨d, .start client, true⟩ (downloadPass count) =
      some ⟨Direction.halfClose (if d.pipe = [] then d.fill ⟨true, false, false, false⟩ .takes else
        { d with
          delivered := d.delivered ++ d.pipe.take count
          pipe := d.pipe.drop count }), .start client, true⟩ := by
  by_cases hpipe : d.pipe = [] <;>
  simp [step, pass, hasNoWork, clientEvents, proxyEvents, Direction.canFill, Direction.canDrain,
    Direction.start, Channel.start, downloadPass, Events.mask, work, Direction.hangUp,
    Direction.fill, Direction.drain, Direction.halfClose, Direction.isFinished, hpipe, hdone]

theorem step_fill {client source : Segmented Byte} {delivered : List Byte} (count : ℕ) :
    step ⟨⟨⟨source, delivered⟩, none, [], false⟩, .start client, true⟩ (downloadPass count) =
      some ⟨⟨⟨(source.recv pipeSize).2, delivered⟩,
        if (source.recv pipeSize).1 = [] then some .ended else none, (source.recv pipeSize).1,
        decide ((source.recv pipeSize).1 = [])⟩, .start client, true⟩ := by
  rw [step_downloadPass rfl, if_pos rfl]
  by_cases hchunk : (source.recv pipeSize).1 = [] <;>
  simp [Direction.fill, Direction.canFill, Direction.halfClose, Direction.isFinished, hchunk]

theorem step_drain {client source : Segmented Byte} {delivered chunk : List Byte}
    (hchunk : chunk ≠ []) :
    step ⟨⟨⟨source, delivered⟩, none, chunk, false⟩, .start client, true⟩
        (downloadPass chunk.length) =
      some ⟨⟨⟨source, delivered ++ chunk⟩, none, [], false⟩, .start client, true⟩ := by
  rw [step_downloadPass rfl, if_neg hchunk]
  simp [Direction.halfClose, Direction.isFinished]

/-- While the client is silent the loop can read the proxy's stream to its end and write all
of it to the client. -/
theorem reaches_end (client source : Segmented Byte) (delivered : List Byte) :
    ∃ s, Reachable step ⟨⟨⟨source, delivered⟩, none, [], false⟩, .start client, true⟩ s ∧
      s.download.done = some .ended ∧ s.download.pipe = [] := by
  induction source using Segmented.readInduction (n := pipeSize) (by decide)
    generalizing delivered with
  | ended source hend =>
    have hrecv : (source.recv pipeSize).1 = [] :=
      (Segmented.recv_eq_nil_iff (by decide) source).mpr hend
    exact ⟨_, .single (step_fill 0), by simp [hrecv]⟩
  | read source hread ih =>
    obtain ⟨s, hreach, hend⟩ := ih (delivered ++ (source.recv pipeSize).1)
    have hfill := @step_fill client source delivered 0
    rw [if_neg hread, decide_eq_false hread] at hfill
    exact ⟨s, .trans (.single hfill) (.trans (.single (step_drain hread)) hreach), hend⟩

def loop : TransferLoop where
  State := SpliceState
  Pass := SplicePass
  start := start
  step := step
  toClient s := s.download.delivered
  Drained s := s.download.done = some .ended ∧ s.download.pipe = []
  prefix_of_run hrun := ⟨_, (keeps_of_run hrun).conserves⟩
  all_of_drained hrun := by
    rintro ⟨hdone, hpipe⟩
    have hkeeps := keeps_of_run hrun
    have hall := hkeeps.conserves
    rw [hpipe, hkeeps.exhausted hdone, List.append_nil, List.append_nil] at hall
    exact hall
  drains client proxy := reaches_end client proxy []

end SpliceState

/-- What `poll` reports to the fallback loop, whether it reports an error of a socket, and
how the readable sockets are served. -/
inductive FallbackPass where
  | failed
  | idle
  | ready (pollerr : Bool) (client proxy : Option Attempt)
  deriving DecidableEq, Repr

/-- A hang-up without data means that the peer has closed. -/
def FallbackPass.event : FallbackPass → CopyState.Event
  | .failed => .leave
  | .idle => .leave
  | .ready pollerr client proxy =>
    if pollerr || (client.isNone && proxy.isNone) then .leave else .serve client proxy

/-- The two loops of `transfer_handler`: with pipes, and the fallback without. -/
def transferHandler (pipes : Bool) : TransferLoop :=
  if pipes then SpliceState.loop
  else CopyState.loop FallbackPass.event (.ready false none (some .moves)) rfl

end ProxyTun.Linux
