import ProxyTun.Linux.SpliceRelay
import ProxyTun.Tunnel.HalfClose

/-!
# The two loops of the Linux engine compared

Without pipes `transfer_handler` falls back to a loop of `recv` and `send_all`. That loop leaves
at the first end of a stream, where the splice loop half-closes the tunnel and goes on.
-/
namespace ProxyTun.Linux
open Library Library.Transition

/-- `poll` reports no error and does not time out, and the calls succeed. -/
def FallbackPass.succeeds : FallbackPass → Bool
  | .failed => false
  | .idle => false
  | .ready pollerr client proxy =>
    !pollerr && ProxyTun.succeeds client && ProxyTun.succeeds proxy

theorem FallbackPass.event_succeeds {pass : FallbackPass} (h : pass.succeeds = true) :
    pass.event.succeeds = true := by
  cases pass with
  | failed => cases h
  | idle => cases h
  | ready pollerr client proxy =>
    simp only [FallbackPass.succeeds, Bool.and_eq_true] at h
    dsimp only [FallbackPass.event]
    split
    · rfl
    · simp [CopyState.Event.succeeds, h.1.2, h.2]

/-- The fallback loop finds the end of one stream only when the other is read, too. -/
def FallbackEndsTogether (client proxy : Segmented Byte) (passes : List FallbackPass) : Prop :=
  Guarded (CopyState.step FallbackPass.event) (fun s pass => s.EndsTogether pass.event)
    (.start client proxy) passes

instance (client proxy : Segmented Byte) (passes : List FallbackPass) :
    Decidable (FallbackEndsTogether client proxy passes) :=
  inferInstanceAs (Decidable (Guarded _ _ _ _))

/-- The splice loop is told of hang-ups without data only for sides that are done or read. -/
def SpliceHangsUpRead (client proxy : Segmented Byte) (passes : List SplicePass) : Prop :=
  Guarded SpliceState.step SpliceState.HangsUpRead (.start client proxy) passes

instance (client proxy : Segmented Byte) (passes : List SplicePass) :
    Decidable (SpliceHangsUpRead client proxy passes) :=
  inferInstanceAs (Decidable (Guarded _ _ _ _))

section

variable {client proxy : Segmented Byte}

theorem fallback_delivers_iff {passes : List FallbackPass} {s : CopyState}
    (hpasses : ∀ pass ∈ passes, pass.succeeds = true)
    (hrun : run (CopyState.step FallbackPass.event) (.start client proxy) passes = some s)
    (hleft : s.stopped.isSome = true) :
    s.download.delivered = proxy.contents ∧ s.upload.delivered = client.contents ↔
      FallbackEndsTogether client proxy passes := by
  have hrelays := CopyState.relays_iff_guarded
    (fun pass h => FallbackPass.event_succeeds (hpasses pass h)) hrun
  rw [FallbackEndsTogether, ← hrelays]
  exact ⟨fun h => .of_delivered h.1 h.2, fun h => h.complete hleft⟩

theorem splice_delivers_iff {passes : List SplicePass} {t : SpliceState}
    (hpasses : ∀ p ∈ passes, p.succeeds = true)
    (hrun : run SpliceState.step (.start client proxy) passes = some t)
    (hleft : t.running = false) :
    t.download.delivered = proxy.contents ∧ t.upload.delivered = client.contents ↔
      SpliceHangsUpRead client proxy passes := by
  have hsound := SpliceState.sound_of_run hpasses hrun
  obtain ⟨hdown, hup⟩ := hsound.finished hleft
  rw [SpliceHangsUpRead, ← SpliceState.exhausted_iff_guarded hpasses hrun,
    hsound.download.delivered_iff hdown, hsound.upload.delivered_iff hup]
  rfl

end

/-- For runs of the two loops to their ends without errors, over the same two streams in any
cuts: if the fallback finds the end of one stream only once the other is read, and the splice loop
is told of no hang-up of a side with unread data, the loops deliver the same bytes, and unless both
of them lose something that is the only way to do so. -/
theorem fallback_agrees_iff {client proxy client' proxy' : Segmented Byte}
    {passes : List FallbackPass} {splices : List SplicePass} {s : CopyState} {t : SpliceState}
    (hclient : client'.contents = client.contents) (hproxy : proxy'.contents = proxy.contents)
    (hpasses : ∀ pass ∈ passes, pass.succeeds = true)
    (hs : run (transferHandler false).step ((transferHandler false).start client proxy) passes =
      some s)
    (hleft : s.stopped.isSome = true) (hsplices : ∀ p ∈ splices, p.succeeds = true)
    (ht : run (transferHandler true).step ((transferHandler true).start client' proxy') splices =
      some t)
    (hleft' : t.running = false) :
    (FallbackEndsTogether client proxy passes ∧ SpliceHangsUpRead client' proxy' splices →
      s.download.delivered = t.download.delivered ∧ s.upload.delivered = t.upload.delivered) ∧
    (FallbackEndsTogether client proxy passes ∨ SpliceHangsUpRead client' proxy' splices →
      (s.download.delivered = t.download.delivered ∧ s.upload.delivered = t.upload.delivered ↔
        FallbackEndsTogether client proxy passes ∧
          SpliceHangsUpRead client' proxy' splices)) := by
  have hfallback := fallback_delivers_iff hpasses hs hleft
  have hsplice := splice_delivers_iff hsplices ht hleft'
  rw [hclient, hproxy] at hsplice
  have hagrees (hboth : FallbackEndsTogether client proxy passes ∧
      SpliceHangsUpRead client' proxy' splices) :
      s.download.delivered = t.download.delivered ∧ s.upload.delivered = t.upload.delivered := by
    obtain ⟨hdown, hup⟩ := hfallback.mpr hboth.1
    obtain ⟨hdown', hup'⟩ := hsplice.mpr hboth.2
    exact ⟨hdown.trans hdown'.symm, hup.trans hup'.symm⟩
  refine ⟨hagrees, fun hlossless => ⟨?_, hagrees⟩⟩
  rintro ⟨hdown, hup⟩
  rcases hlossless with htogether | hread
  · obtain ⟨hall, hall'⟩ := hfallback.mpr htogether
    exact ⟨htogether, hsplice.mp ⟨hdown ▸ hall, hup ▸ hall'⟩⟩
  · obtain ⟨hall, hall'⟩ := hsplice.mpr hread
    exact ⟨hfallback.mp ⟨hdown.trans hall, hup.trans hall'⟩, hread⟩

/-- A request of one byte. -/
def request : Segmented Byte := .ofParts [[71]]

/-- Both streams are read before the end of the client's stream is found. -/
def bothReadPasses : List FallbackPass :=
  [.ready false (some .moves) (some .moves), .ready false none (some .moves),
    .ready false (some .moves) none]

/-- Data and ends of both streams as the splice loop is told of them, with room on both
sockets. -/
def spliceStep (clientIn proxyIn : Bool) : SplicePass :=
  swiftPass ⟨clientIn, true, false, false⟩ ⟨proxyIn, true, false, false⟩

theorem fallback_agrees_of_both_read :
    ∃ (s : CopyState) (t : SpliceState),
      run (transferHandler false).step ((transferHandler false).start request response)
        bothReadPasses = some s ∧
      run (transferHandler true).step ((transferHandler true).start request response)
        (List.replicate 5 (spliceStep true true)) = some t ∧
      s.download.delivered = t.download.delivered ∧ s.upload.delivered = t.upload.delivered :=
  ⟨_, _, rfl, rfl, (@fallback_agrees_iff request response request response bothReadPasses
    (List.replicate 5 (spliceStep true true)) _ _ rfl rfl (by decide) rfl rfl (by decide) rfl
    rfl).1 (by decide)⟩

/-- The client ends its stream after its request, and the response arrives later. The splice
loop delivers it, the fallback has left. -/
theorem fallback_loses_response :
    ∃ (s : CopyState) (t : SpliceState),
      run (transferHandler false).step ((transferHandler false).start request response)
        [.ready false (some .moves) none, .ready false (some .moves) none] = some s ∧
      run (transferHandler true).step ((transferHandler true).start request response)
        (List.replicate 3 (spliceStep true false) ++ List.replicate 5 (spliceStep false true)) =
          some t ∧
      s.stopped = some .clientEnded ∧ t.running = false ∧
      s.download.delivered = [] ∧ t.download.delivered = [1, 2] :=
  ⟨_, _, rfl, rfl, rfl, rfl, rfl, rfl⟩

end ProxyTun.Linux
