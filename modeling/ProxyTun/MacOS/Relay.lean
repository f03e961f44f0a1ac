import ProxyTun.Tunnel.Transfer

/-!
# The relay of the macOS extension

`relayData` opens the client's flow and starts two chains of callbacks, one for each direction.
A chain that ends does so by cancelling the connection to the proxy or by closing the client's
flow, which the other chain then finds out.
-/
namespace ProxyTun.MacOS
open Library Library.Transition

/-- The maximum length of a read from the proxy in `relayProxyToClient`. -/
def relayLimit : ℕ := 65536

structure RelayState where
  opened : Bool
  download : Channel
  upload : Channel
  downloadEnd : Option Stop
  uploadEnd : Option Stop
  /-- `proxyConnection.cancel()` was called. -/
  cancelled : Bool
  /-- The client's flow was closed for reading and writing. -/
  closed : Bool

/-- The next callback, and how the calls go that it stands for. -/
inductive RelayPass where
  | opens (ok : Bool)
  | client (attempt : Attempt)
  | proxy (attempt : Attempt)
  deriving DecidableEq, Repr

/-- A read or a write fails for sure on what was cancelled or closed. -/
def effective (sourceGone sinkGone : Bool) (attempt : Attempt) : Attempt :=
  if sourceGone then .recvFails
  else if sinkGone then
    match attempt with
    | .moves => .sendFails 0
    | other => other
  else attempt

namespace RelayState

def start (client proxy : Segmented Byte) : RelayState :=
  ⟨false, .start proxy, .start client, none, none, false, false⟩

def openFlow (ok : Bool) (s : RelayState) : RelayState :=
  if ok then { s with opened := true }
  else { s with downloadEnd := some .gaveUp, uploadEnd := some .gaveUp, cancelled := true }

/-- `relayClientToProxy`: a failed read and the end of the client's data cancel the connection
to the proxy, a failed write closes the flow. -/
def relayClient (attempt : Attempt) (s : RelayState) : RelayState :=
  let attempt := effective s.closed s.cancelled attempt
  let size := s.upload.source.first.length
  let up := s.upload.copyUpTo size .clientEnded attempt
  let writeFailed := up.1 = some .failed ∧ attempt ≠ .recvFails
  { s with
    upload := up.2
    uploadEnd := up.1
    cancelled := s.cancelled || (up.1.isSome && !writeFailed)
    closed := s.closed || writeFailed }

/-- `relayProxyToClient`: a failed read and the end of the proxy's data close the flow, a failed
write cancels the connection to the proxy. -/
def relayProxy (attempt : Attempt) (s : RelayState) : RelayState :=
  let attempt := effective s.cancelled s.closed attempt
  let down := s.download.copyUpTo relayLimit .proxyEnded attempt
  let writeFailed := down.1 = some .failed ∧ attempt ≠ .recvFails
  { s with
    download := down.2
    downloadEnd := down.1
    cancelled := s.cancelled || writeFailed
    closed := s.closed || (down.1.isSome && !writeFailed) }

def step (s : RelayState) : RelayPass → Option RelayState
  | .opens ok => if s.opened || s.cancelled then none else some (s.openFlow ok)
  | .client attempt =>
    if s.opened && s.uploadEnd.isNone then some (s.relayClient attempt) else none
  | .proxy attempt =>
    if s.opened && s.downloadEnd.isNone then some (s.relayProxy attempt) else none

def Delivers (total : List Byte) (s : RelayState) : Prop :=
  s.download.Delivers total .proxyEnded s.downloadEnd

/-- Before the flow is open the download is at work. -/
structure Valid (total : List Byte) (s : RelayState) : Prop where
  delivers : s.Delivers total
  unopened : s.opened = false → s.cancelled = false → s.downloadEnd = none

theorem valid_step {total : List Byte} {s t : RelayState} {pass : RelayPass}
    (hs : s.Valid total) (h : s.step pass = some t) : t.Valid total := by
  cases pass with
  | opens ok =>
    simp only [step, Option.ite_none_left_eq_some, Bool.or_eq_true, not_or,
      Bool.not_eq_true, Option.some.injEq] at h
    obtain ⟨⟨hopened, hcancelled⟩, rfl⟩ := h
    have hnone := hs.unopened hopened hcancelled
    cases ok with
    | true => exact ⟨hs.delivers, fun h => by cases h⟩
    | false =>
      have hdelivers := hs.delivers
      rw [Delivers, hnone] at hdelivers
      exact ⟨hdelivers.leave (by decide), fun _ h => by cases h⟩
  | client attempt =>
    simp only [step, Option.ite_none_right_eq_some, Bool.and_eq_true, Option.some.injEq] at h
    obtain ⟨⟨hopened, -⟩, rfl⟩ := h
    exact ⟨hs.delivers, fun h => by rw [relayClient, hopened] at h; cases h⟩
  | proxy attempt =>
    simp only [step, Option.ite_none_right_eq_some, Bool.and_eq_true, Option.isNone_iff_eq_none,
      Option.some.injEq] at h
    obtain ⟨⟨hopened, hnone⟩, rfl⟩ := h
    have hdelivers := hs.delivers
    rw [Delivers, hnone] at hdelivers
    exact ⟨hdelivers.copyUpTo (by decide) (by decide) _,
      fun h => by rw [relayProxy, hopened] at h; cases h⟩

theorem valid_of_run {client proxy : Segmented Byte} {passes : List RelayPass} {s : RelayState}
    (hrun : run step (start client proxy) passes = some s) : s.Valid proxy.contents :=
  run_invariant (fun _ _ _ hs h => valid_step hs h) hrun
    ⟨Channel.delivers_start proxy _, fun _ _ => rfl⟩

/-- While the client is silent the relay reads the proxy's stream to its end. -/
theorem reaches_end (upload : Channel) (source : Segmented Byte) (delivered : List Byte) :
    ∃ s, Reachable step ⟨true, ⟨source, delivered⟩, upload, none, none, false, false⟩ s ∧
      s.downloadEnd = some .proxyEnded := by
  induction source using Segmented.readInduction (n := relayLimit) (by decide)
    generalizing delivered with
  | ended source hend =>
    have hrecv : (source.recv relayLimit).1 = [] :=
      (Segmented.recv_eq_nil_iff (by decide) source).mpr hend
    have hstep : step ⟨true, ⟨source, delivered⟩, upload, none, none, false, false⟩
        (.proxy .moves) = some ⟨true, ⟨(source.recv relayLimit).2, delivered⟩, upload,
          some .proxyEnded, none, false, true⟩ := by
      simp [step, relayProxy, effective, Channel.copyUpTo, hrecv]
    exact ⟨_, .single hstep, rfl⟩
  | read source hread ih =>
    have hstep : step ⟨true, ⟨source, delivered⟩, upload, none, none, false, false⟩
        (.proxy .moves) = some ⟨true, ⟨(source.recv relayLimit).2,
          delivered ++ (source.recv relayLimit).1⟩, upload, none, none, false, false⟩ := by
      simp [step, relayProxy, effective, Channel.copyUpTo, hread]
    obtain ⟨s, hreach, hend⟩ := ih (delivered ++ (source.recv relayLimit).1)
    exact ⟨s, .trans (.single hstep) hreach, hend⟩

end RelayState

def relayData : TransferLoop where
  State := RelayState
  Pass := RelayPass
  start := RelayState.start
  step := RelayState.step
  toClient s := s.download.delivered
  Drained s := s.downloadEnd = some .proxyEnded
  prefix_of_run hrun := (RelayState.valid_of_run hrun).delivers.isPrefix
  all_of_drained hrun hend := by
    have hdelivers := (RelayState.valid_of_run hrun).delivers
    rw [RelayState.Delivers, hend] at hdelivers
    have hall := hdelivers.conserves (by decide)
    rw [hdelivers.exhausted rfl, List.append_nil] at hall
    exact hall
  drains client proxy := by
    obtain ⟨s, hreach, hend⟩ := RelayState.reaches_end (.start client) proxy []
    have hopen : RelayState.step (.start client proxy) (.opens true) =
        some ⟨true, .start proxy, .start client, none, none, false, false⟩ := rfl
    exact ⟨s, .trans (.single hopen) hreach, hend⟩

end ProxyTun.MacOS
