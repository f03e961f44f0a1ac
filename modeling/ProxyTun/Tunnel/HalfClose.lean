import ProxyTun.Tunnel.Transfer

/-!
# Half-closed tunnels

A side of a tunnel may end its stream while the other side still sends. A loop of `recv` and
`send_all` leaves at the first end of a stream that it finds, so without errors it relays both
streams exactly when it finds such an end only once the other stream is read as well.
-/
namespace ProxyTun
open Library Library.Transition

/-- The calls for a readable socket succeed. -/
def succeeds (readable : Option Attempt) : Bool := readable.all fun a => a = .moves

/-- What a source still holds after its socket was served. -/
def unread (readable : Option Attempt) (source : Segmented Byte) : List Byte :=
  if readable.isSome then (source.recv copyBuffer).2.contents else source.contents

theorem unread_of_nil {source : Segmented Byte} (h : source.contents = [])
    (readable : Option Attempt) : unread readable source = [] := by
  cases readable with
  | none => exact h
  | some attempt =>
    rw [← Segmented.recv_append copyBuffer, List.append_eq_nil_iff] at h
    exact h.2

namespace Channel

variable {readable : Option Attempt}

theorem unread_serve (ended : Stop) (h : succeeds readable = true) (c : Channel) :
    (c.serve ended readable).2.source.contents = unread readable c.source := by
  cases readable with
  | none => rfl
  | some attempt =>
    obtain rfl : attempt = .moves := by simpa [succeeds] using h
    by_cases hchunk : (c.source.recv copyBuffer).1 = [] <;> simp [serve, copyUpTo, unread, hchunk]

theorem serve_conserves (ended : Stop) (h : succeeds readable = true) (c : Channel) :
    (c.serve ended readable).2.delivered ++ (c.serve ended readable).2.source.contents =
      c.delivered ++ c.source.contents := by
  cases readable with
  | none => rfl
  | some attempt =>
    obtain rfl : attempt = .moves := by simpa [succeeds] using h
    rw [← Segmented.recv_append copyBuffer c.source]
    by_cases hchunk : (c.source.recv copyBuffer).1 = [] <;> simp [serve, copyUpTo, hchunk]

/-- Without errors the loop is left exactly when it finds the end of the stream. -/
theorem serve_stops_iff (ended : Stop) (h : succeeds readable = true) (c : Channel) :
    (c.serve ended readable).1.isSome = true ↔ readable.isSome ∧ c.source.contents = [] := by
  cases readable with
  | none => simp [serve]
  | some attempt =>
    obtain rfl : attempt = .moves := by simpa [succeeds] using h
    rw [← Segmented.recv_eq_nil_iff (n := copyBuffer) (by decide)]
    by_cases hchunk : (c.source.recv copyBuffer).1 = [] <;> simp [serve, copyUpTo, hchunk]

end Channel

namespace CopyState

/-- No call on the sockets fails. -/
def Event.succeeds : Event → Bool
  | .leave => true
  | .again => true
  | .serve client proxy => ProxyTun.succeeds client && ProxyTun.succeeds proxy

/-- The end of a stream is found only when the other stream is read to its end, by what is read
in the same pass at the latest, and the loop is not left before. -/
def EndsTogether (s : CopyState) : Event → Prop
  | .leave => s.download.source.contents = [] ∧ s.upload.source.contents = []
  | .again => True
  | .serve client proxy =>
    (client.isSome ∧ s.upload.source.contents = [] → s.download.source.contents = []) ∧
      (proxy.isSome ∧ s.download.source.contents = [] → unread client s.upload.source = [])

instance (s : CopyState) : ∀ e, Decidable (s.EndsTogether e)
  | .serve _ _ => inferInstanceAs (Decidable (_ ∧ _))
  | .leave => inferInstanceAs (Decidable (_ ∧ _))
  | .again => .isTrue trivial

/-- Each side is sent the front of the other's stream, and all of it once the loop is left. -/
structure Relays (client proxy : List Byte) (s : CopyState) : Prop where
  toClient : s.download.delivered <+: proxy
  toProxy : s.upload.delivered <+: client
  complete : s.stopped.isSome → s.download.delivered = proxy ∧ s.upload.delivered = client

/-- What was delivered and what is still unread make up the two streams. -/
structure Conserves (client proxy : List Byte) (s : CopyState) : Prop where
  download : s.download.delivered ++ s.download.source.contents = proxy
  upload : s.upload.delivered ++ s.upload.source.contents = client

variable {Pass : Type} {event : Pass → Event} {client proxy : List Byte} {s t : CopyState}

theorem relays_iff (h : s.Conserves client proxy) :
    s.Relays client proxy ↔
      (s.stopped.isSome → s.download.source.contents = [] ∧ s.upload.source.contents = []) := by
  have hdown : s.download.delivered = proxy ↔ s.download.source.contents = [] := by
    rw [← h.download, List.self_eq_append_right]
  have hup : s.upload.delivered = client ↔ s.upload.source.contents = [] := by
    rw [← h.upload, List.self_eq_append_right]
  rw [← hdown, ← hup]
  exact ⟨Relays.complete, fun hcomplete => ⟨⟨_, h.download⟩, ⟨_, h.upload⟩, hcomplete⟩⟩

theorem step_eq_some {pass : Pass} :
    step event s pass = some t ↔ s.stopped = none ∧ t = s.react (event pass) := by
  unfold step
  cases s.stopped <;> simp [eq_comm]

theorem conserves_serve (h : s.Conserves client proxy) {c p : Option Attempt}
    (hc : ProxyTun.succeeds c = true) (hp : ProxyTun.succeeds p = true) :
    (s.serve c p).Conserves client proxy := by
  have hup := (s.upload.serve_conserves .clientEnded hc).trans h.upload
  have hdown := (s.download.serve_conserves .proxyEnded hp).trans h.download
  unfold serve
  dsimp only
  split
  · exact ⟨h.download, hup⟩
  · exact ⟨hdown, hup⟩

theorem conserves_react (h : s.Conserves client proxy) {e : Event} (he : e.succeeds = true) :
    (s.react e).Conserves client proxy := by
  cases e with
  | leave => exact ⟨h.download, h.upload⟩
  | again => exact h
  | serve c p =>
    obtain ⟨hc, hp⟩ := Bool.and_eq_true_iff.mp he
    exact conserves_serve h hc hp

/-- A pass without errors keeps both streams whole exactly when the streams end together. -/
theorem relays_react (h : s.Conserves client proxy) (hs : s.stopped = none) {e : Event}
    (he : e.succeeds = true) : (s.react e).Relays client proxy ↔ s.EndsTogether e := by
  rw [relays_iff (conserves_react h he)]
  cases e with
  | leave => simp [react, EndsTogether]
  | again => simp [react, EndsTogether, hs]
  | serve c p =>
    obtain ⟨hc, hp⟩ := Bool.and_eq_true_iff.mp he
    have hup := s.upload.serve_stops_iff .clientEnded hc
    have hdown := s.download.serve_stops_iff .proxyEnded hp
    have hunread := s.upload.unread_serve .clientEnded hc
    have hrest := s.download.unread_serve .proxyEnded hp
    by_cases hend : (s.upload.serve .clientEnded c).1.isSome = true
    · obtain ⟨hserved, hnil⟩ := hup.mp hend
      simp [react, serve, hend, EndsTogether, hserved, hnil, hunread, unread_of_nil hnil c]
    · have hopen : ¬ (c.isSome ∧ s.upload.source.contents = []) := fun h => hend (hup.mpr h)
      have hserve : s.react (.serve c p) = ⟨(s.download.serve .proxyEnded p).2,
          (s.upload.serve .clientEnded c).2, (s.download.serve .proxyEnded p).1⟩ := by
        simp [react, serve, hend]
      rw [hserve, hdown, hunread, hrest]
      constructor
      · intro hall
        exact ⟨fun hclient => absurd hclient hopen, fun hproxy => (hall hproxy).2⟩
      · intro htogether hproxy
        exact ⟨unread_of_nil hproxy.2 p, htogether.2 hproxy⟩

theorem Relays.of_delivered (hdown : s.download.delivered = proxy)
    (hup : s.upload.delivered = client) : s.Relays client proxy :=
  ⟨hdown ▸ List.prefix_rfl, hup ▸ List.prefix_rfl, fun _ => ⟨hdown, hup⟩⟩

/-- Over runs without errors the loop relays both streams exactly when the streams end
together in every pass. -/
theorem relays_iff_guarded {client proxy : Segmented Byte} {passes : List Pass} {s : CopyState}
    (hpasses : ∀ pass ∈ passes, (event pass).succeeds = true)
    (hrun : run (step event) (start client proxy) passes = some s) :
    s.Relays client.contents proxy.contents ↔
      Guarded (step event) (fun s pass => s.EndsTogether (event pass)) (start client proxy)
        passes := by
  have hstart : (start client proxy).Conserves client.contents proxy.contents := ⟨rfl, rfl⟩
  have hopen : (start client proxy).Relays client.contents proxy.contents :=
    (relays_iff hstart).mpr (by simp [start])
  have hrecorded := guarded_iff_recorded_of (I := Conserves client.contents proxy.contents)
    (P := Relays client.contents proxy.contents)
    (G := fun s pass => s.EndsTogether (event pass)) ?_ ?_ hpasses hrun hstart
  · rw [hrecorded, and_iff_right hopen]
  · intro s pass t hs hpass h
    obtain ⟨-, rfl⟩ := step_eq_some.mp h
    exact conserves_react hs hpass
  · intro s pass t hs hpass h
    obtain ⟨hrunning, rfl⟩ := step_eq_some.mp h
    have hrelays : s.Relays client.contents proxy.contents :=
      (relays_iff hs).mpr (by simp [hrunning])
    rw [relays_react hs hrunning hpass, and_iff_right hrelays]

end CopyState
end ProxyTun
