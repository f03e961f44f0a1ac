import ProxyTun.Windows.Handover

/-!
# Datagrams of local applications at the UDP relay

The branch of `udp_relay_server` that takes a datagram from an application, asks the
table for its source port and sends the payload to the SOCKS5 proxy behind a header.
-/
namespace ProxyTun.Windows.UdpRelay
open Library Library.Transition Handover

variable (isHosts : Ip → Bool)

/-- The relay is bound to every address of its host. It skips what is empty or does not fit its
buffer behind the header, and sends when the association stands and `sendto` succeeds. -/
def relay : Relay (List Byte) where
  isUdp := true
  isHosts := isHosts
  admits payload := payload ≠ [] && payload.length ≤ 0xFFFF - 10
  react success payload dest := if success then some (socks5Header dest ++ payload) else none

/-- In every orderly run each payload goes to the proxy under the header of the destination
to which the application addressed it. -/
theorem header_addressed (cfg : Settings) (clock : Tick) {ls : List Label}
    {s : State (List Byte)} (hrun : run (step (relay isHosts) cfg) (.initial clock) ls = some s)
    (hguard : Guarded (step (relay isHosts) cfg) (fun s l => orderly (relay isHosts) s l)
      (.initial clock) ls) :
    ∀ e ∈ s.log, e.2 = socks5Header e.1.addressed ++ e.1.payload := by
  intro e he
  obtain ⟨success, hreact⟩ := log_faithful (relay isHosts) cfg clock hrun hguard e he
  cases success with
  | false => cases hreact
  | true => exact (Option.some.inj hreact).symm

/-- A packet thread works through a datagram, `n` operations long. -/
def processed (dest : Ip × Port) (n : ℕ) : List Label :=
  (EngineLabel.processed (.ipv4 (.fromApp .udp dest [42])) n).map .engine

def forwarded : List Label := [.take 0, .answer true]

def oneAddress (ip : Ip) : Bool := ip = ipv4 10 0 0 2

/-- The second datagram of a socket goes out under the destination of the first. -/
theorem second_destination_lost :
    (run (step (relay oneAddress) .proxyEverything) (.initial 0)
        (processed (ipv4 8 8 8 8, 1000) 5 ++ forwarded ++
          processed (ipv4 9 9 9 9, 2000) 2 ++ forwarded)).map State.log =
      some [(⟨5000, [42], (ipv4 8 8 8 8, 1000)⟩, socks5Header (ipv4 8 8 8 8, 1000) ++ [42]),
        (⟨5000, [42], (ipv4 9 9 9 9, 2000)⟩, socks5Header (ipv4 8 8 8 8, 1000) ++ [42])] ∧
    socks5Header (ipv4 8 8 8 8, 1000) ++ [42] ≠ socks5Header (ipv4 9 9 9 9, 2000) ++ [42] := by
  decide +kernel

/-- A socket that keeps to one destination is served rightly. -/
theorem one_destination_kept :
    ∃ s, run (step (relay oneAddress) .proxyEverything) (.initial 0)
        (processed (ipv4 8 8 8 8, 1000) 5 ++ forwarded ++
          processed (ipv4 8 8 8 8, 1000) 2 ++ forwarded) = some s ∧ s.log.length = 2 ∧
      ∀ e ∈ s.log, e.2 = socks5Header e.1.addressed ++ e.1.payload := by
  obtain ⟨s, hs, hlength⟩ := Option.map_eq_some_iff.mp (show
    (run (step (relay oneAddress) .proxyEverything) (.initial 0)
      (processed (ipv4 8 8 8 8, 1000) 5 ++ forwarded ++
        processed (ipv4 8 8 8 8, 1000) 2 ++ forwarded)).map (fun s => s.log.length) = some 2
    by decide +kernel)
  exact ⟨s, hs, hlength, header_addressed oneAddress .proxyEverything 0 hs (by decide +kernel)⟩

end ProxyTun.Windows.UdpRelay
