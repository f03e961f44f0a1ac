import ProxyTun.Tunnel.ConnectionHandler

/-!
# Both directions of a relay

Whatever calls fail, the loops of `transfer_handler` write to each side a prefix of what the other
one sends. They write all of it once they have read its end and hold nothing back.
-/
namespace ProxyTun
open Library Library.Transition

namespace CopyState

variable {Pass : Type} {event : Pass → Event} {client proxy : List Byte} {s t : CopyState}

/-- Both channels, which stop together. -/
structure Carries (client proxy : List Byte) (s : CopyState) : Prop where
  download : s.download.Delivers proxy .proxyEnded s.stopped
  upload : s.upload.Delivers client .clientEnded s.stopped

theorem upload_serve (h : s.upload.Delivers client .clientEnded none)
    (readable readable' : Option Attempt) :
    (s.serve readable readable').upload.Delivers client .clientEnded
      (s.serve readable readable').stopped := by
  have hup := h.serve (by decide) readable
  cases hstop : (s.upload.serve .clientEnded readable).1 with
  | some why =>
    rw [hstop] at hup
    simp only [serve, hstop, Option.isSome_some, if_true]
    exact hup
  | none =>
    rw [hstop] at hup
    simp only [serve, hstop, Option.isSome_none, Bool.false_eq_true, if_false]
    cases hdown : (s.download.serve .proxyEnded readable').1 with
    | none => exact hup
    | some why =>
      apply hup.leave
      rintro rfl
      rcases Channel.serve_stop hdown with hwhy | hwhy <;> cases hwhy

theorem carries_step {pass : Pass} (hs : s.Carries client proxy) (h : step event s pass = some t) :
    t.Carries client proxy := by
  refine ⟨delivers_step hs.download h, ?_⟩
  unfold step at h
  split_ifs at h with hstopped
  obtain rfl := Option.some.inj h
  have hnone : s.stopped = none := by simpa using hstopped
  have hup := hs.upload
  rw [hnone] at hup
  cases event pass with
  | leave => exact hup.leave (by decide)
  | again => exact hs.upload
  | serve readable readable' => exact upload_serve hup readable readable'

end CopyState

namespace Linux.SpliceState

variable {client proxy : List Byte} {s t : SpliceState}

structure Carries (client proxy : List Byte) (s : SpliceState) : Prop where
  download : s.download.Keeps proxy
  upload : s.upload.Keeps client

theorem upload_work (h : s.upload.Keeps client) (p : SplicePass) (c x : Revents) :
    (s.work p c x).upload.Keeps client := by
  have hup := h.hangUp c
  unfold work
  dsimp only
  split
  · exact hup
  · have hfill := hup.fill c p.readClient
    split
    · exact hfill
    · next upload hdrain => exact (hfill.drain hdrain).halfClose

theorem upload_pass (h : s.upload.Keeps client) (p : SplicePass) :
    (s.pass p).upload.Keeps client := by
  unfold pass
  split_ifs
  · exact h
  · cases p.poll with
    | failed => exact h
    | interrupted => exact h
    | idle => exact h
    | ready c x =>
      dsimp only
      split_ifs
      · exact h
      · exact upload_work h p _ _

theorem carries_step {p : SplicePass} (hs : s.Carries client proxy) (h : s.step p = some t) :
    t.Carries client proxy := by
  unfold step at h
  split_ifs at h
  obtain rfl := Option.some.inj h
  exact ⟨keeps_pass hs.download p, upload_pass hs.upload p⟩

end Linux.SpliceState

namespace ConnectionHandler.Relay

variable {pf : Platform} {client proxy : List Byte} {r r' : Relay}

/-- The loop has lost nothing of the two streams, as far as it has read them. -/
def Carries (client proxy : List Byte) : Relay → Prop
  | .copying s => s.Carries client proxy
  | .splicing s => s.Carries client proxy

/-- The loop has found the end of what the proxy sends, and holds nothing of it. -/
def ProxyEnded : Relay → Prop
  | .copying s => s.stopped = some .proxyEnded
  | .splicing s => s.download.done = some .ended ∧ s.download.pipe = []

/-- The loop has found the end of what the client sends, and holds nothing of it. -/
def ClientEnded : Relay → Prop
  | .copying s => s.stopped = some .clientEnded
  | .splicing s => s.upload.done = some .ended ∧ s.upload.pipe = []

theorem carries_copying (client proxy : Segmented Byte) :
    (Relay.copying (.start client proxy)).Carries client.contents proxy.contents :=
  ⟨Channel.delivers_start proxy _, Channel.delivers_start client _⟩

theorem carries_splicing (client proxy : Segmented Byte) :
    (Relay.splicing (.start client proxy)).Carries client.contents proxy.contents :=
  ⟨Linux.Direction.keeps_start proxy, Linux.Direction.keeps_start client⟩

theorem Carries.step {pass : Pass} (hr : r.Carries client proxy) (h : r.step pf pass = some r') :
    r'.Carries client proxy := by
  rcases step_cases h with ⟨P, event, p, s, s', rfl, rfl, hs⟩ | ⟨p, s, s', rfl, rfl, hs⟩
  · exact CopyState.carries_step hr hs
  · exact Linux.SpliceState.carries_step hr hs

theorem delivered_of_ended {c : Channel} {total : List Byte} {ended : Stop}
    (h : c.Delivers total ended (some ended)) (hended : ended ≠ .failed) : c.delivered = total := by
  have hall := h.conserves fun hfailed => hended (Option.some.inj hfailed)
  rwa [h.exhausted rfl, List.append_nil] at hall

theorem delivered_of_done {d : Linux.Direction} {total : List Byte} (h : d.Keeps total)
    (hdone : d.done = some .ended) (hpipe : d.pipe = []) : d.delivered = total := by
  have hall := h.conserves
  rwa [hpipe, h.exhausted hdone, List.append_nil, List.append_nil] at hall

theorem Carries.downloaded (h : r.Carries client proxy) :
    r.downloaded <+: proxy ∧ (r.ProxyEnded → r.downloaded = proxy) := by
  cases r with
  | copying s =>
    refine ⟨h.download.isPrefix, fun hended => ?_⟩
    have hdown := h.download
    rw [show s.stopped = some .proxyEnded from hended] at hdown
    exact delivered_of_ended hdown (by decide)
  | splicing s =>
    exact ⟨⟨_, h.download.conserves⟩, fun hended => delivered_of_done h.download hended.1 hended.2⟩

theorem Carries.uploaded (h : r.Carries client proxy) :
    r.uploaded <+: client ∧ (r.ClientEnded → r.uploaded = client) := by
  cases r with
  | copying s =>
    refine ⟨h.upload.isPrefix, fun hended => ?_⟩
    have hup := h.upload
    rw [show s.stopped = some .clientEnded from hended] at hup
    exact delivered_of_ended hup (by decide)
  | splicing s =>
    exact ⟨⟨_, h.upload.conserves⟩, fun hended => delivered_of_done h.upload hended.1 hended.2⟩

end ConnectionHandler.Relay

end ProxyTun
