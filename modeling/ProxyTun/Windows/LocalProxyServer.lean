import ProxyTun.Windows.Handover

/-!
# Accepted connections at the TCP relay

`local_proxy_server` accepts a connection, asks the table for the port of its client and
hands the destination it finds to `connection_handler`.
-/
namespace ProxyTun.Windows.LocalProxyServer
open Library Library.Transition Handover

/-- The relay hands a destination on when the handler's thread can be created. -/
def relay : Relay (Ip × Port) where
  isUdp := false
  isHosts _ := true
  admits _ := true
  react success _ dest := if success then some dest else none

/-- In every orderly run the handler of an accepted connection gets the destination to which
the connection's SYN was addressed. -/
theorem handler_gets_addressed (cfg : Settings) (clock : Tick) {ls : List Label}
    {s : State (Ip × Port)} (hrun : run (step relay cfg) (.initial clock) ls = some s)
    (hguard : Guarded (step relay cfg) (fun s l => orderly relay s l) (.initial clock) ls) :
    ∀ e ∈ s.log, e.2 = e.1.addressed := by
  intro e he
  obtain ⟨success, hreact⟩ := log_faithful relay cfg clock hrun hguard e he
  cases success with
  | false => cases hreact
  | true => exact (Option.some.inj hreact).symm

/-- A packet thread works through a packet, `n` operations long. -/
def processed (transport : Transport) (dest : Ip × Port) (n : ℕ) : List Label :=
  (EngineLabel.processed (.ipv4 (.fromApp transport dest [])) n).map .engine

def syn : Transport := .tcp ⟨true, false, false, false⟩

/-- The entry that a datagram leaves behind decides where a TCP connection from the same
port number is taken. -/
theorem syn_after_datagram :
    (run (step relay .proxyEverything) (.initial 0)
        (processed .udp (ipv4 8 8 8 8, 1000) 5 ++ processed syn (ipv4 9 9 9 9, 443) 2 ++
          [.take 0, .answer true])).map State.log =
      some [(⟨5000, [], (ipv4 9 9 9 9, 443)⟩, (ipv4 8 8 8 8, 1000))] ∧
    ((ipv4 8 8 8 8, 1000) : Ip × Port) ≠ (ipv4 9 9 9 9, 443) := by
  decide +kernel

/-- A connection from a port that has no entry yet is handed over rightly. -/
theorem syn_from_new_port :
    ∃ s, run (step relay .proxyEverything) (.initial 0)
        (processed syn (ipv4 9 9 9 9, 443) 5 ++ [.take 0, .answer true]) = some s ∧
      s.log.length = 1 ∧ ∀ e ∈ s.log, e.2 = e.1.addressed := by
  obtain ⟨s, hs, hlength⟩ := Option.map_eq_some_iff.mp (show
    (run (step relay .proxyEverything) (.initial 0)
      (processed syn (ipv4 9 9 9 9, 443) 5 ++ [.take 0, .answer true])).map
        (fun s => s.log.length) = some 1
    by decide +kernel)
  exact ⟨s, hs, hlength, handler_gets_addressed .proxyEverything 0 hs (by decide +kernel)⟩

end ProxyTun.Windows.LocalProxyServer
