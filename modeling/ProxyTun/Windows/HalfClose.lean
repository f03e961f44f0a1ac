import ProxyTun.Tunnel.HalfClose
import ProxyTun.Tunnel.Transfer

/-!
# Half-close in the Windows engine

`transfer_handler` leaves for both directions at the first `recv` that returns 0. What the other
side has sent and the loop has not read is then lost, and so is all that it would still send.
-/
namespace ProxyTun.Windows
open Library Library.Transition

/-- `select` succeeds, and so do the calls for the sockets that it reports. -/
def SelectPass.succeeds : SelectPass → Bool
  | .failed => false
  | .timeout => true
  | .ready client proxy => ProxyTun.succeeds client && ProxyTun.succeeds proxy

theorem SelectPass.event_succeeds {pass : SelectPass} (h : pass.succeeds = true) :
    pass.event.succeeds = true := by
  cases pass with
  | failed => cases h
  | timeout => rfl
  | ready client proxy => exact h

/-- Whatever `select` reports and `recv` returns, as long as no call fails, both sides are sent
all that the other side sends exactly when `recv` returns 0 for a side only once the stream of
the other side is read as well. -/
theorem half_close_relayed_iff {client proxy : Segmented Byte} {passes : List SelectPass}
    {s : CopyState} (hpasses : ∀ pass ∈ passes, pass.succeeds = true)
    (hrun : run transferHandler.step (transferHandler.start client proxy) passes = some s) :
    s.Relays client.contents proxy.contents ↔
      Guarded (CopyState.step SelectPass.event) (fun s pass => s.EndsTogether pass.event)
        (.start client proxy) passes :=
  CopyState.relays_iff_guarded (fun pass h => SelectPass.event_succeeds (hpasses pass h)) hrun

/-- A request of one byte. -/
def request : Segmented Byte := .ofParts [[71]]

def response : Segmented Byte := .ofParts [[72]]

def respondedPasses : List SelectPass :=
  [.ready (some .moves) none, .timeout, .ready none (some .moves), .ready (some .moves) none]

theorem half_close_of_responded :
    ∃ s : CopyState, run transferHandler.step (transferHandler.start request response)
        respondedPasses = some s ∧
      s.stopped = some .clientEnded ∧ s.Relays request.contents response.contents :=
  ⟨_, rfl, rfl, (@half_close_relayed_iff request response respondedPasses _ (by decide) rfl).mpr
    (by decide)⟩

/-- The client ends its stream after its request and waits for the response. The loop is left
before the response is read. -/
theorem half_close_loses_response :
    ∃ s : CopyState, run transferHandler.step (transferHandler.start request response)
        [.ready (some .moves) none, .ready (some .moves) none] = some s ∧
      s.download.delivered = [] ∧ s.stopped = some .clientEnded ∧
      ¬ s.Relays request.contents response.contents :=
  ⟨_, rfl, rfl, rfl, fun h => absurd (h.complete rfl).1 (by decide)⟩

end ProxyTun.Windows
