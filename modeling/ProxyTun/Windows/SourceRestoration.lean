import ProxyTun.Windows.Flows

/-!
# Source restoration until a connection has ended

A packet of the TCP relay must reach its client from the port the client connected to,
as long as the connection has not been reset or closed from both sides.
-/
namespace ProxyTun.Windows.SourceRestoration
open Library Library.Transition Flows

/-- Every connection in the history counts, since those that have ended are not in it. -/
def counts (_ : Flow) : Bool := true

/-- The port of a connection that has not ended is in the table whenever a packet of the
relay is looked up for it, and is never recorded again with another destination port. -/
def keepsOpen (s : State) (l : EngineLabel Frame) : Bool :=
  keepsRecords s l && findsEntry counts s l

/-- In every such run each packet of the relay for a connection that has not ended is sent
on from the port recorded for the connection. -/
theorem restored_until_ended (cfg : Settings) (clock : Tick) {ls : List (EngineLabel Frame)}
    {s : State} (hrun : run (step counts cfg) (.initial clock) ls = some s)
    (hguard : Guarded (step counts cfg) (fun s l => keepsOpen s l) (.initial clock) ls) :
    ∀ r ∈ s.restored, ∀ port ∈ r.1, r.2 = port := by
  refine (guarded_invariant (I := Invariant) (fun s l t hs hg h => ?_) hrun hguard
    (invariant_initial clock)).restored
  obtain ⟨hkeeps, hfinds⟩ := Bool.and_eq_true_iff.mp hg
  exact invariant_step hs hkeeps hfinds h

/-- A packet thread works through a packet, `n` operations long. -/
def processed (p : Packet) (n : ℕ) : List (EngineLabel Frame) :=
  EngineLabel.processed (.ipv4 p) n

def clientPacket (flags : TcpFlags) : Packet := .fromApp (.tcp flags) (ipv4 1 1 1 1, 443) []

/-- Data from the relay for the client's connection. -/
def relayPacket : Packet :=
  ⟨ipv4 10 0 0 2, ipv4 1 1 1 1, localProxyPort, 5000, true,
    .tcp ⟨false, true, false, false⟩, [7]⟩

def syn : TcpFlags := ⟨true, false, false, false⟩
def finAck : TcpFlags := ⟨false, true, true, false⟩

/-- After the client's FIN the relay's data leave from the port of the relay. -/
theorem half_closed_not_restored :
    (run (step counts .proxyEverything) (.initial 0)
        (processed (clientPacket syn) 5 ++ processed (clientPacket finAck) 3 ++
          processed relayPacket 2)).map State.restored =
      some [(some 443, localProxyPort)] ∧ localProxyPort ≠ 443 := by
  decide +kernel

theorem open_connection_restored :
    ∃ s, run (step counts .proxyEverything) (.initial 0)
        (processed (clientPacket syn) 5 ++ processed relayPacket 2) = some s ∧
      s.restored = [(some 443, 443)] ∧ ∀ r ∈ s.restored, ∀ port ∈ r.1, r.2 = port := by
  obtain ⟨s, hs, hrestored⟩ := Option.map_eq_some_iff.mp (show
    (run (step counts .proxyEverything) (.initial 0)
      (processed (clientPacket syn) 5 ++ processed relayPacket 2)).map State.restored =
        some [(some 443, 443)]
    by decide +kernel)
  exact ⟨s, hs, hrestored, restored_until_ended .proxyEverything 0 hs (by decide +kernel)⟩

end ProxyTun.Windows.SourceRestoration
