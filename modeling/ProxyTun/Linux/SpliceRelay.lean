import ProxyTun.Linux.TransferHandler

/-!
# What the splice loop relays

The splice loop keeps the two directions of a tunnel apart: a direction is finished when its
source is done and its pipe is empty, and its sink is then shut down for writing. It loses
nothing as long as a source is done only once it is read. A hang-up without data ends a source
too, and while its pipe is full the loop does not ask whether there is data.
-/
namespace ProxyTun.Linux
open Library Library.Transition

def ReadCall.succeeds (call : ReadCall) : Bool := call ≠ .fails

def WriteCall.succeeds (call : WriteCall) : Bool := call ≠ .fails

/-- `poll` reports no error, does not time out, and no `splice` fails. -/
def SplicePass.succeeds (p : SplicePass) : Bool :=
  (match p.poll with
    | .failed => false
    | .interrupted => true
    | .idle => false
    | .ready client proxy => !client.pollerr && !proxy.pollerr) &&
    p.readProxy.succeeds && p.writeClient.succeeds && p.readClient.succeeds &&
    p.writeProxy.succeeds

namespace Direction

def Exhausted (d : Direction) : Prop := d.done.isSome → d.source.contents = []

/-- A hang-up without data is reported only for a source that is done or read. -/
def HangsUpRead (source : Revents) (d : Direction) : Prop :=
  source.pollhup ∧ ¬ source.pollin → d.done.isSome ∨ d.source.contents = []

instance (source : Revents) (d : Direction) : Decidable (d.HangsUpRead source) :=
  inferInstanceAs (Decidable (_ → _))

/-- What holds of a direction at every point of a run without errors. -/
structure Sound (total : List Byte) (d : Direction) : Prop extends d.Keeps total where
  shut : d.shutWr = true → d.isFinished = true

variable {total : List Byte} {d : Direction}

theorem sound_start (source : Segmented Byte) : (start source).Sound source.contents :=
  ⟨keeps_start source, fun h => by cases h⟩

theorem isFinished_iff : d.isFinished = true ↔ d.done.isSome = true ∧ d.pipe = [] := by
  simp [isFinished]

@[simp] theorem shutWr_hangUp (source : Revents) : (d.hangUp source).shutWr = d.shutWr := by
  unfold Direction.hangUp
  split <;> rfl

@[simp] theorem shutWr_fill (source : Revents) (call : ReadCall) :
    (d.fill source call).shutWr = d.shutWr := by
  unfold Direction.fill
  split
  · cases call <;> rfl
  · rfl

theorem hangUp_of_done (h : d.done.isSome = true) (source : Revents) : d.hangUp source = d := by
  unfold Direction.hangUp
  obtain ⟨why, hwhy⟩ := Option.isSome_iff_exists.mp h
  split
  · rw [hwhy, Option.some_or, ← hwhy]
  · rfl

theorem fill_of_done (h : d.done.isSome = true) (source : Revents) (call : ReadCall) :
    d.fill source call = d := by
  have hfill : d.canFill = false := by
    rw [canFill, ← Option.not_isSome, h]
    rfl
  simp [Direction.fill, hfill]

theorem drain_of_finished (h : d.isFinished = true) (sink : Revents) (call : WriteCall) :
    d.drain sink call = some d := by
  have hpipe : d.canDrain = false := by simp [canDrain, (isFinished_iff.mp h).2]
  simp [Direction.drain, hpipe]

theorem Sound.hangUp (h : d.Sound total) (source : Revents) : (d.hangUp source).Sound total := by
  refine ⟨h.toKeeps.hangUp source, fun hshut => ?_⟩
  have hfinished : d.isFinished = true := h.shut (by simpa using hshut)
  rwa [hangUp_of_done (isFinished_iff.mp hfinished).1]

theorem Sound.fill (h : d.Sound total) (source : Revents) (call : ReadCall) :
    (d.fill source call).Sound total := by
  refine ⟨h.toKeeps.fill source call, fun hshut => ?_⟩
  have hfinished : d.isFinished = true := h.shut (by simpa using hshut)
  rwa [fill_of_done (isFinished_iff.mp hfinished).1]

/-- Without an error a write moves bytes from the pipe to the sink and touches nothing else. -/
theorem drain_eq_some (d : Direction) (sink : Revents) {call : WriteCall}
    (hcall : call.succeeds = true) :
    ∃ delivered pipe, d.drain sink call =
      some { d with delivered := delivered, pipe := pipe } := by
  unfold Direction.drain
  split
  · cases call with
    | puts count => exact ⟨_, _, rfl⟩
    | wouldBlock => exact ⟨_, _, rfl⟩
    | fails => cases hcall
  · exact ⟨_, _, rfl⟩

theorem Sound.drain (h : d.Sound total) {sink : Revents} {call : WriteCall} {d' : Direction}
    (hcall : call.succeeds = true) (hdrain : d.drain sink call = some d') : d'.Sound total := by
  refine ⟨h.toKeeps.drain hdrain, fun hshut => ?_⟩
  obtain ⟨delivered, pipe, heq⟩ := drain_eq_some d sink hcall
  have hfinished : d.isFinished = true := by
    apply h.shut
    rw [hdrain] at heq
    rwa [Option.some.inj heq] at hshut
  rw [drain_of_finished hfinished] at hdrain
  rwa [← Option.some.inj hdrain]

theorem Sound.halfClose (h : d.Sound total) : d.halfClose.Sound total := by
  refine ⟨h.toKeeps.halfClose, fun hshut => ?_⟩
  rcases Bool.or_eq_true_iff.mp hshut with hshut | hfinished
  · exact h.shut hshut
  · exact hfinished

theorem exhausted_hangUp (source : Revents) :
    (d.hangUp source).Exhausted ↔ d.Exhausted ∧ d.HangsUpRead source := by
  by_cases hhup : (source.pollhup && !source.pollin) = true
  · have hdone : (d.hangUp source).Exhausted ↔ d.source.contents = [] := by
      simp [Direction.hangUp, Exhausted, hhup]
    rw [hdone]
    have hread : d.HangsUpRead source ↔ (d.done.isSome ∨ d.source.contents = []) := by
      simp only [Bool.and_eq_true, Bool.not_eq_true'] at hhup
      simp [HangsUpRead, hhup.1, hhup.2]
    rw [hread, Exhausted]
    tauto
  · have hread : d.HangsUpRead source := by
      intro h
      exact absurd (by simpa using h) hhup
    rw [Direction.hangUp, if_neg hhup, and_iff_left hread]

theorem exhausted_fill (source : Revents) {call : ReadCall} (hcall : call.succeeds = true) :
    (d.fill source call).Exhausted ↔ d.Exhausted := by
  by_cases hready : (d.canFill && source.pollin) = true
  · have hopen : d.done = none := by
      simp only [canFill, Bool.and_eq_true, Option.isNone_iff_eq_none] at hready
      exact hready.1.1
    have hexhausted : d.Exhausted := by
      intro h
      simp [hopen] at h
    refine iff_of_true ?_ hexhausted
    unfold Direction.fill
    rw [if_pos hready]
    cases call with
    | takes =>
      intro hdone
      have hchunk : (d.source.recv pipeSize).1 = [] := by
        by_contra hchunk
        simp [hchunk] at hdone
      have hnil := (Segmented.recv_eq_nil_iff (by decide) d.source).mp hchunk
      rw [← Segmented.recv_append pipeSize, List.append_eq_nil_iff] at hnil
      exact hnil.2
    | wouldBlock => exact hexhausted
    | fails => cases hcall
  · unfold Direction.fill
    rw [if_neg hready]

theorem exhausted_drain {sink : Revents} {call : WriteCall} {d' : Direction}
    (hcall : call.succeeds = true) (hdrain : d.drain sink call = some d') :
    d'.Exhausted ↔ d.Exhausted := by
  obtain ⟨delivered, pipe, heq⟩ := drain_eq_some d sink hcall
  rw [hdrain] at heq
  rw [Option.some.inj heq]
  rfl

/-- A finished direction has delivered its whole stream exactly when its source is exhausted. -/
theorem Sound.delivered_iff (h : d.Sound total) (hfinished : d.isFinished = true) :
    d.delivered = total ↔ d.Exhausted := by
  obtain ⟨hdone, hpipe⟩ := isFinished_iff.mp hfinished
  have hall := h.conserves
  rw [hpipe, List.nil_append] at hall
  rw [← hall, List.self_eq_append_right, Exhausted, imp_iff_right hdone]

end Direction
namespace SpliceState

/-- What holds at every point of a run without errors. The loop is left once both directions
are finished. -/
structure Sound (client proxy : List Byte) (s : SpliceState) : Prop where
  download : s.download.Sound proxy
  upload : s.upload.Sound client
  finished : s.running = false → s.download.isFinished = true ∧ s.upload.isFinished = true

def Exhausted (s : SpliceState) : Prop := s.download.Exhausted ∧ s.upload.Exhausted

/-- `poll` reports a hang-up without data only for a side that is done or read. -/
def HangsUpRead (s : SpliceState) (p : SplicePass) : Prop :=
  match p.poll with
  | .ready client proxy =>
    s.download.HangsUpRead (s.proxyEvents.mask proxy) ∧
      s.upload.HangsUpRead (s.clientEvents.mask client)
  | _ => True

instance (s : SpliceState) (p : SplicePass) : Decidable (s.HangsUpRead p) := by
  unfold HangsUpRead
  split <;> infer_instance

/-- Each side is sent the front of the other's stream, it is shut down for writing once it was
sent all of it, and the loop is left once both were. -/
structure Relays (client proxy : List Byte) (s : SpliceState) : Prop where
  toClient : s.download.delivered <+: proxy
  toProxy : s.upload.delivered <+: client
  shutClient : s.download.shutWr = true → s.download.delivered = proxy
  shutProxy : s.upload.shutWr = true → s.upload.delivered = client
  complete : s.running = false → s.download.delivered = proxy ∧ s.upload.delivered = client

variable {client proxy : List Byte} {s t : SpliceState} {p : SplicePass}

theorem Sound.relays (h : s.Sound client proxy) (hs : s.Exhausted) : s.Relays client proxy where
  toClient := ⟨_, h.download.conserves⟩
  toProxy := ⟨_, h.upload.conserves⟩
  shutClient hshut := (h.download.delivered_iff (h.download.shut hshut)).mpr hs.1
  shutProxy hshut := (h.upload.delivered_iff (h.upload.shut hshut)).mpr hs.2
  complete hleft := by
    obtain ⟨hdown, hup⟩ := h.finished hleft
    exact ⟨(h.download.delivered_iff hdown).mpr hs.1, (h.upload.delivered_iff hup).mpr hs.2⟩

/-- Once the loop is left, nothing was lost exactly when both sources are exhausted. -/
theorem Sound.relays_iff (h : s.Sound client proxy) (hleft : s.running = false) :
    s.Relays client proxy ↔ s.Exhausted := by
  constructor
  · intro hrelays
    obtain ⟨hdown, hup⟩ := h.finished hleft
    obtain ⟨hclient, hproxy⟩ := hrelays.complete hleft
    exact ⟨(h.download.delivered_iff hdown).mp hclient, (h.upload.delivered_iff hup).mp hproxy⟩
  · exact h.relays

theorem succeeds_calls (h : p.succeeds = true) :
    p.readProxy.succeeds = true ∧ p.writeClient.succeeds = true ∧ p.readClient.succeeds = true ∧
      p.writeProxy.succeeds = true := by
  simp only [SplicePass.succeeds, Bool.and_eq_true] at h
  tauto

/-- Without errors each direction of a pass runs to its end. -/
theorem work_eq (hp : p.succeeds = true) (c x : Revents) :
    ∃ download upload,
      ((s.download.hangUp x).fill x p.readProxy).drain c p.writeClient = some download ∧
      ((s.upload.hangUp c).fill c p.readClient).drain x p.writeProxy = some upload ∧
      s.work p c x = ⟨download.halfClose, upload.halfClose,
        !(download.isFinished && upload.isFinished)⟩ := by
  obtain ⟨-, hclient, -, hproxy⟩ := succeeds_calls hp
  obtain ⟨_, _, hdown⟩ := Direction.drain_eq_some
    ((s.download.hangUp x).fill x p.readProxy) c hclient
  obtain ⟨_, _, hup⟩ := Direction.drain_eq_some
    ((s.upload.hangUp c).fill c p.readClient) x hproxy
  refine ⟨_, _, hdown, hup, ?_⟩
  simp only [work, hdown, hup]

theorem sound_work (h : s.Sound client proxy) (hp : p.succeeds = true) (c x : Revents) :
    (s.work p c x).Sound client proxy := by
  obtain ⟨-, hclient, -, hproxy⟩ := succeeds_calls hp
  obtain ⟨download, upload, hdown, hup, heq⟩ := work_eq (s := s) hp c x
  rw [heq]
  have hdownload : download.Sound proxy :=
    ((h.download.hangUp x).fill x p.readProxy).drain hclient hdown
  have hupload : upload.Sound client :=
    ((h.upload.hangUp c).fill c p.readClient).drain hproxy hup
  refine ⟨hdownload.halfClose, hupload.halfClose, fun hleft => ?_⟩
  have hfinished : download.isFinished = true ∧ upload.isFinished = true := by simpa using hleft
  exact hfinished

theorem exhausted_work (hp : p.succeeds = true) (c x : Revents) :
    (s.work p c x).Exhausted ↔
      s.Exhausted ∧ s.download.HangsUpRead x ∧ s.upload.HangsUpRead c := by
  obtain ⟨hreadProxy, hclient, hreadClient, hproxy⟩ := succeeds_calls hp
  obtain ⟨download, upload, hdown, hup, heq⟩ := work_eq (s := s) hp c x
  have hdownload : download.Exhausted ↔ s.download.Exhausted ∧ s.download.HangsUpRead x := by
    rw [Direction.exhausted_drain hclient hdown, Direction.exhausted_fill x hreadProxy,
      Direction.exhausted_hangUp]
  have hupload : upload.Exhausted ↔ s.upload.Exhausted ∧ s.upload.HangsUpRead c := by
    rw [Direction.exhausted_drain hproxy hup, Direction.exhausted_fill c hreadClient,
      Direction.exhausted_hangUp]
  rw [heq]
  change download.Exhausted ∧ upload.Exhausted ↔ _
  rw [hdownload, hupload, Exhausted]
  tauto

theorem finished_of_hasNoWork (h : s.hasNoWork = true) :
    s.download.isFinished = true ∧ s.upload.isFinished = true := by
  simp only [hasNoWork, clientEvents, proxyEvents, Direction.canFill, Direction.canDrain] at h
  simp only [Direction.isFinished, ← Option.not_isNone]
  revert h
  generalize s.download.done.isNone = a, s.download.pipe.isEmpty = b, s.upload.done.isNone = c,
    s.upload.pipe.isEmpty = d
  revert a b c d
  decide

theorem pass_eq (hp : p.succeeds = true) (hwork : s.hasNoWork = false) :
    s.pass p = s ∧ p.poll = .interrupted ∨
      ∃ c x, p.poll = .ready c x ∧
        s.pass p = s.work p (s.clientEvents.mask c) (s.proxyEvents.mask x) := by
  simp only [SplicePass.succeeds, Bool.and_eq_true] at hp
  obtain ⟨⟨⟨⟨hpoll, -⟩, -⟩, -⟩, -⟩ := hp
  cases hready : p.poll with
  | failed => simp [hready] at hpoll
  | interrupted => exact .inl ⟨by simp [pass, hwork, hready], rfl⟩
  | idle => simp [hready] at hpoll
  | ready c x =>
    have herr : c.pollerr = false ∧ x.pollerr = false := by simpa [hready] using hpoll
    exact .inr ⟨c, x, rfl, by simp [pass, hwork, hready, Events.mask, herr]⟩

theorem step_eq_some : step s p = some t ↔ s.running = true ∧ t = s.pass p := by
  unfold step
  cases s.running <;> simp [eq_comm]

theorem sound_pass (h : s.Sound client proxy) (hp : p.succeeds = true) :
    (s.pass p).Sound client proxy := by
  by_cases hwork : s.hasNoWork = true
  · have hleave : s.pass p = s.leave := by simp [pass, hwork]
    rw [hleave]
    exact ⟨h.download, h.upload, fun _ => finished_of_hasNoWork hwork⟩
  · rcases pass_eq hp (by simpa using hwork) with ⟨heq, -⟩ | ⟨c, x, -, heq⟩
    · rw [heq]
      exact h
    · rw [heq]
      exact sound_work h hp _ _

/-- The recorded condition of a pass: the sources stay exhausted exactly when `poll` reports
hang-ups only for what is done or read. -/
theorem exhausted_pass (hp : p.succeeds = true) :
    (s.pass p).Exhausted ↔ s.Exhausted ∧ s.HangsUpRead p := by
  by_cases hwork : s.hasNoWork = true
  · have hleave : s.pass p = s.leave := by simp [pass, hwork]
    obtain ⟨hdown, hup⟩ := finished_of_hasNoWork hwork
    have hread : s.HangsUpRead p := by
      unfold HangsUpRead
      split
      · exact ⟨fun _ => .inl (Direction.isFinished_iff.mp hdown).1,
          fun _ => .inl (Direction.isFinished_iff.mp hup).1⟩
      · trivial
    rw [hleave, and_iff_left hread]
    rfl
  · rcases pass_eq hp (by simpa using hwork) with ⟨heq, hpoll⟩ | ⟨c, x, hpoll, heq⟩
    · simp [heq, HangsUpRead, hpoll]
    · rw [heq, exhausted_work hp]
      simp [HangsUpRead, hpoll]

theorem sound_start (client proxy : Segmented Byte) :
    (start client proxy).Sound client.contents proxy.contents :=
  ⟨Direction.sound_start proxy, Direction.sound_start client, fun h => by cases h⟩

variable {clientStream proxyStream : Segmented Byte} {passes : List SplicePass}

theorem sound_of_run (hpasses : ∀ p ∈ passes, p.succeeds = true)
    (hrun : run step (start clientStream proxyStream) passes = some s) :
    s.Sound clientStream.contents proxyStream.contents := by
  apply run_invariant_of _ hpasses hrun (sound_start clientStream proxyStream)
  intro s p t hs hp h
  obtain ⟨-, rfl⟩ := step_eq_some.mp h
  exact sound_pass hs hp

theorem exhausted_iff_guarded (hpasses : ∀ p ∈ passes, p.succeeds = true)
    (hrun : run step (start clientStream proxyStream) passes = some s) :
    s.Exhausted ↔ Guarded step HangsUpRead (start clientStream proxyStream) passes := by
  have hstart : (start clientStream proxyStream).Exhausted := by
    constructor <;> intro h <;> cases h
  have hrecorded := guarded_iff_recorded_of (I := fun _ => True) (P := Exhausted)
    (G := HangsUpRead) (fun _ _ _ _ _ _ => trivial) ?_ hpasses hrun trivial
  · rw [hrecorded, and_iff_right hstart]
  · intro s p t _ hp h
    obtain ⟨-, rfl⟩ := step_eq_some.mp h
    exact exhausted_pass hp

end SpliceState

/-- Whatever `poll` and `splice` report, as long as they report no error and do not time out:
if hang-ups without data are reported only for sides that are done or read, nothing is lost and
no side is shut down early, and once the loop is left that is the only way to lose nothing. -/
theorem splice_relayed_iff {client proxy : Segmented Byte} {passes : List SplicePass}
    {s : SpliceState} (hpasses : ∀ p ∈ passes, p.succeeds = true)
    (hrun : run SpliceState.loop.step (SpliceState.loop.start client proxy) passes = some s) :
    (Guarded SpliceState.step SpliceState.HangsUpRead (.start client proxy) passes →
      s.Relays client.contents proxy.contents) ∧
    (s.running = false → (s.Relays client.contents proxy.contents ↔
      Guarded SpliceState.step SpliceState.HangsUpRead (.start client proxy) passes)) := by
  have hsound := SpliceState.sound_of_run hpasses hrun
  have hexhausted := SpliceState.exhausted_iff_guarded hpasses hrun
  constructor
  · intro hguard
    exact hsound.relays (hexhausted.mpr hguard)
  · intro hleft
    rw [hsound.relays_iff hleft, hexhausted]

/-- Two pieces of a response. -/
def response : Segmented Byte := .ofParts [[1], [2]]

/-- A pass in which `poll` reports the given events and all calls move what there is. -/
def swiftPass (client proxy : Revents) : SplicePass :=
  ⟨.ready client proxy, .takes, .puts pipeSize, .takes, .puts pipeSize⟩

/-- The client ends its stream at once. The end of the proxy's stream is read, not hung up. -/
def readPasses : List SplicePass :=
  [swiftPass ⟨true, false, false, false⟩ ⟨true, false, false, false⟩,
    swiftPass ⟨false, true, false, false⟩ ⟨false, false, false, false⟩,
    swiftPass ⟨false, false, false, false⟩ ⟨true, false, true, false⟩]

theorem splice_relayed_of_read :
    ∃ s : SpliceState, run SpliceState.loop.step
        (SpliceState.loop.start (.ofParts []) (.ofParts [[1]])) readPasses = some s ∧
      s.running = false ∧
      s.Relays (Segmented.ofParts []).contents (Segmented.ofParts [[1]]).contents :=
  ⟨_, rfl, rfl, (@splice_relayed_iff (.ofParts []) (.ofParts [[1]]) readPasses _ (by decide)
    rfl).1 (by decide)⟩

/-- The client ends its stream at once, and the loop shuts down the proxy's socket for writing.
While the first piece of the response waits in the pipe, the proxy ends its stream, too. Its
socket is then shut down both ways, so `poll` reports a hang-up, and the second piece is lost. -/
theorem splice_loses_unread :
    ∃ t s : SpliceState,
      SpliceState.loop.step (SpliceState.loop.start (.ofParts []) response)
        (swiftPass ⟨true, false, false, false⟩ ⟨true, false, false, false⟩) = some t ∧
      t.upload.shutWr = true ∧ t.proxyEvents.pollin = false ∧
      SpliceState.loop.step t (swiftPass ⟨false, true, false, false⟩ ⟨true, false, true, false⟩) =
        some s ∧
      s.running = false ∧ s.download.shutWr = true ∧ s.download.delivered = [1] ∧
      ¬ s.Relays [] response.contents :=
  ⟨_, _, rfl, rfl, rfl, rfl, rfl, rfl, rfl, fun h => absurd (h.complete rfl).1 (by decide)⟩

end ProxyTun.Linux
