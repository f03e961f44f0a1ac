import ProxyTun.Library.Datagrams
import ProxyTun.Library.Transition
import ProxyTun.MacOS.FlowHandling
import ProxyTun.MacOS.UdpEncapsulation
import ProxyTun.Tunnel.Socks5Datagrams

/-!
# A UDP flow over the association

Two loops of the extension take the datagrams of a flow to the relay of the proxy and those of the
relay back to the flow. The network between the extension and the relay may lose, double and reorder
them, and the hosts behind the relay answer when they like.
-/
namespace ProxyTun.MacOS
open Library CheckedReads

/-- A datagram of a flow, with the endpoint that it goes to. -/
structure FlowDatagram where
  payload : List Byte
  endpoint : FlowEndpoint
  deriving DecidableEq

namespace FlowDatagram

/-- `destHost`. -/
def destHost (datagram : FlowDatagram) : CStr :=
  match datagram.endpoint with
  | .host hostname _ => hostname
  | .other _ => []

def portStr (datagram : FlowDatagram) : CStr :=
  match datagram.endpoint with
  | .host _ port => port
  | .other _ => []

/-- `destPort`. -/
def destPort (datagram : FlowDatagram) : Port :=
  match datagram.endpoint with
  | .host _ port => BitVec.ofNat 16 ((unsignedInteger 16 port).getD 0)
  | .other _ => 0

end FlowDatagram

/-- What is given back to a flow: a datagram with the host and the port that it comes from. -/
abbrev Returned := List Byte × CStr × Port

/-- The two loops of a flow, by what they have written. -/
structure UdpRelay where
  /-- A read of the flow is pending. -/
  reading : Bool
  /-- The datagrams written to the session with the relay. -/
  session : List (List Byte)
  /-- The calls of `writeDatagrams`. -/
  returned : List (List Returned)
  logCalls : List LogCall

/-- `relayUDPThroughSOCKS5`, which starts both loops. -/
def relayUDPThroughSOCKS5 : UdpRelay := ⟨true, [], [], []⟩

section
variable (sys : Foundation)

def reportDatagram (enabled : Bool) (processPath : CStr) (datagram : FlowDatagram) : LogCall :=
  .sendLogToApp enabled "UDP".toList processPath datagram.destHost datagram.portStr "SOCKS5".toList

/-- The completion of a read of the flow, with an error or with datagrams, if there are any. Only
an error ends the loop. -/
def UdpRelay.readAndForwardClientUDP (enabled : Bool) (processPath : CStr)
    (result : Option (List FlowDatagram)) (r : UdpRelay) : UdpRelay :=
  match result with
  | none => { r with reading := false }
  | some datagrams =>
    { r with
      session := r.session ++ datagrams.filterMap fun datagram =>
        encapsulateSOCKS5UDP sys datagram.payload datagram.destHost datagram.destPort
      logCalls := r.logCalls ++ (datagrams.head?.map (reportDatagram enabled processPath)).toList }

end

/-- The read handler of the session. What is not taken apart is left out. -/
def UdpRelay.readAndForwardRelayUDP (result : Option (List (List Byte))) (r : UdpRelay) :
    Reads UdpRelay :=
  match result with
  | none => pure r
  | some datagrams => do
    let unwrapped ← datagrams.mapM decapsulateSOCKS5UDPWithEndpoint
    if unwrapped.filterMap id = [] then pure r
    else pure { r with returned := r.returned ++ [unwrapped.filterMap id] }

/-- A flow with the relay and the hosts behind it. -/
structure UdpAssociation where
  relay : UdpRelay
  /-- The datagrams that the flow has given to the extension. -/
  sent : List FlowDatagram
  /-- What the relay has sent to hosts. -/
  reached : List Socks5.Addressed
  /-- What hosts have sent to the relay for the flow. -/
  answered : List Socks5.Addressed

inductive UdpLabel where
  /-- A read of the flow is completed. -/
  | read (enabled : Bool) (result : Option (List FlowDatagram))
  /-- A datagram of the session comes to the relay. -/
  | relay (datagram : List Byte)
  /-- A host sends a datagram to the relay. -/
  | answer (a : Socks5.Addressed)
  /-- Datagrams of the relay come to the extension, or an error. -/
  | handle (result : Option (List Socks5.Addressed))
  deriving DecidableEq

namespace UdpAssociation

variable (sys : Foundation) (processPath : CStr)

def started : UdpAssociation := ⟨relayUDPThroughSOCKS5, [], [], []⟩

/-- The network gives what was written to it, again and again. The relay keeps to RFC 1928. -/
def step (s : UdpAssociation) : UdpLabel → Option UdpAssociation
  | .read enabled result =>
    if s.relay.reading then
      some { s with
        relay := s.relay.readAndForwardClientUDP sys enabled processPath result
        sent := s.sent ++ result.getD [] }
    else none
  | .relay datagram =>
    if datagram ∈ s.relay.session then
      some { s with reached := s.reached ++ (Socks5.decodeDatagram datagram).toList }
    else none
  | .answer a =>
    if a.host.IsWellFormed then some { s with answered := s.answered ++ [a] } else none
  | .handle result =>
    if result.getD [] ⊆ s.answered then
      (s.relay.readAndForwardRelayUDP (result.map (List.map Socks5.encodeDatagram))).toOption.map
        fun relay => { s with relay }
    else none

end UdpAssociation

/-- The text of a host in the header of a datagram. -/
def hostText : Socks5.Destination → CStr
  | .ipv4 octets => quadText octets
  | .name text => (decodeUtf8 text).getD "unknown".toList
  | .ipv6 octets => groupsText octets

section
variable {a : Socks5.Addressed}

theorem readEndpoint_encodeDatagram (h : a.host.IsWellFormed) :
    readEndpoint (Socks5.encodeDatagram a) 4 ((Socks5.encodeDatagram a).getD 3 default) =
      .ok (some ⟨hostText a.host, a.port, a.host.bytes.length + 1⟩) := by
  obtain ⟨host, port, payload⟩ := a
  have hport := word_append ([0, 0, 0] ++ host.bytes) port payload
  cases host with
  | ipv4 octets =>
    obtain ⟨b, c, d, e, rfl⟩ := List.length_eq_four.mp h
    change some <$> readIPv4 _ 4 = _
    rw [readIPv4_of_le (by simp [Socks5.encodeDatagram, Socks5.Destination.bytes,
      Socks5.portBytes])]
    exact congrArg (fun port => Except.ok (some (Endpoint.mk _ port 6))) hport
  | ipv6 octets =>
    have hlength : octets.length = 16 := h
    have hfront : ([0, 0, 0] ++ (4 :: octets) : List Byte).length = 4 + 16 := by
      simp [hlength]
    have hdrop : ([0, 0, 0] ++ (4 :: octets) ++ Socks5.portBytes port ++ payload).drop 4 =
        octets ++ (Socks5.portBytes port ++ payload) := by
      simp
    simp only [Socks5.Destination.bytes] at hport
    rw [hfront] at hport
    change some <$> readIPv6 ([0, 0, 0] ++ (4 :: octets) ++ Socks5.portBytes port ++ payload) 4 = _
    rw [readIPv6_of_le (by simp [Socks5.portBytes, hlength]; omega), hport, hdrop,
      groupsText_append hlength]
    simp [Socks5.Destination.bytes, hostText, hlength]
  | name text =>
    have hlength : text.length ≤ 255 := h
    have hnumber : (BitVec.ofNat 8 text.length).toNat = text.length := by
      rw [BitVec.toNat_ofNat, Nat.mod_eq_of_lt (by omega)]
    have hdrop : ([0, 0, 0] ++ (3 :: BitVec.ofNat 8 text.length :: text) ++
        Socks5.portBytes port ++ payload).drop (4 + 1) =
        text ++ (Socks5.portBytes port ++ payload) := by
      simp
    have hfront : ([0, 0, 0] ++ (3 :: BitVec.ofNat 8 text.length :: text) : List Byte).length =
        4 + 1 + text.length := by
      simp only [List.length_append, List.length_cons, List.length_nil]
      omega
    simp only [Socks5.Destination.bytes] at hport
    rw [hfront] at hport
    have hread := @readDomain_of_le ([0, 0, 0] ++ (3 :: BitVec.ofNat 8 text.length :: text) ++
      Socks5.portBytes port ++ payload) 4
    have hfirst : ([0, 0, 0] ++ (3 :: BitVec.ofNat 8 text.length :: text) ++
        Socks5.portBytes port ++ payload).getD 4 default = BitVec.ofNat 8 text.length := rfl
    rw [hfirst, hnumber, hdrop, List.take_left, hport] at hread
    change some <$> readDomain ([0, 0, 0] ++ (3 :: BitVec.ofNat 8 text.length :: text) ++
      Socks5.portBytes port ++ payload) 4 = _
    rw [hread (by simp [Socks5.portBytes]; omega)]
    simp [Socks5.Destination.bytes, hostText]
    omega

/-- What the extension takes of a datagram of the relay. One of less than eleven bytes or without a
payload is left out. -/
theorem decapsulate_encodeDatagram (h : a.host.IsWellFormed) :
    decapsulateSOCKS5UDPWithEndpoint (Socks5.encodeDatagram a) =
      .ok (if 10 < (Socks5.encodeDatagram a).length ∧ a.payload ≠ [] then
        some (a.payload, hostText a.host, a.port) else none) := by
  have hread := readEndpoint_encodeDatagram h
  have hheader : (Socks5.encodeDatagram a).length =
      4 + (a.host.bytes.length + 1) + a.payload.length := by
    simp only [Socks5.encodeDatagram, Socks5.portBytes, List.length_append, List.length_cons,
      List.length_nil]
    omega
  have hpayload : (Socks5.encodeDatagram a).drop (4 + (a.host.bytes.length + 1)) = a.payload := by
    refine List.drop_left' ?_
    simp only [Socks5.portBytes, List.length_append, List.length_cons, List.length_nil]
    omega
  split_ifs with htaken
  · refine (decapsulate_eq_some_iff hread _).mpr ⟨htaken.1, ?_, ?_⟩
    · have hpos := List.length_pos_iff.mpr htaken.2
      change 4 + (a.host.bytes.length + 1) < _
      omega
    · rw [hpayload]
  · obtain ⟨r, hr⟩ : InRange (decapsulateSOCKS5UDPWithEndpoint (Socks5.encodeDatagram a)) := by
      rw [inRange_decapsulate]
      intro hlong
      have hrange : InRange (readEndpoint (Socks5.encodeDatagram a) 4
        ((Socks5.encodeDatagram a).getD 3 default)) := ⟨_, hread⟩
      exact (inRange_readEndpoint (by omega)).mp hrange
    cases r with
    | none => exact hr
    | some r =>
      obtain ⟨hlong, hlonger, -⟩ := (decapsulate_eq_some_iff hread r).mp hr
      change 4 + (a.host.bytes.length + 1) < _ at hlonger
      refine absurd ⟨hlong, fun hempty => ?_⟩ htaken
      rw [hempty, List.length_nil] at hheader
      omega

end

section
variable {sys : Foundation} {datagram : FlowDatagram} {packet : List Byte}

/-- The host of a datagram is an address or a plain name. -/
def FlowDatagram.IsCarried (sys : Foundation) (datagram : FlowDatagram) : Prop :=
  IsAddress sys datagram.destHost ∨ IsPlain datagram.destHost

/-- A datagram of a flow as the relay is to send it on. -/
def FlowDatagram.addressed (sys : Foundation) (datagram : FlowDatagram) : Socks5.Addressed :=
  ⟨requestedDestination sys datagram.destHost, datagram.destPort, datagram.payload⟩

theorem encapsulate_eq_encodeDatagram (hcarried : datagram.IsCarried sys)
    (h : encapsulateSOCKS5UDP sys datagram.payload datagram.destHost datagram.destPort =
      some packet) :
    packet = Socks5.encodeDatagram (datagram.addressed sys) ∧
      (datagram.addressed sys).host.IsWellFormed := by
  obtain ⟨rfl, haddress⟩ := encapsulate_eq_some h
  unfold FlowDatagram.IsCarried IsAddress at hcarried
  unfold datagramAddress at haddress
  unfold Socks5.encodeDatagram FlowDatagram.addressed requestAddress requestedDestination
  cases h4 : sys.ipv4Address datagram.destHost with
  | some octets => exact ⟨rfl, sys.length_ipv4Address _ _ h4⟩
  | none =>
    cases h6 : sys.ipv6Address datagram.destHost with
    | some octets => exact ⟨rfl, sys.length_ipv6Address _ _ h6⟩
    | none =>
      rw [h4, h6] at hcarried haddress
      have hplain : IsPlain datagram.destHost := by simpa using hcarried
      have hlength := (sys.count_eq_length_utf8_iff datagram.destHost).mpr hplain
      obtain ⟨address, hsome⟩ := Option.isSome_iff_exists.mp haddress
      have hcount := (Option.ite_none_right_eq_some.mp hsome).1
      dsimp only
      rw [hlength] at hcount ⊢
      exact ⟨rfl, hcount⟩

/-- The datagrams of a flow on their way to the relay. -/
def toRelay (sys : Foundation) : DatagramService FlowDatagram (List Byte) Socks5.Addressed where
  encode datagram :=
    encapsulateSOCKS5UDP sys datagram.payload datagram.destHost datagram.destPort
  decode := Socks5.decodeDatagram

def fromRelay : DatagramService Socks5.Addressed (List Byte) Returned where
  encode a := some (Socks5.encodeDatagram a)
  decode packet := (decapsulateSOCKS5UDPWithEndpoint packet).toOption.bind id

theorem decode_fromRelay {a : Socks5.Addressed} (h : a.host.IsWellFormed) :
    fromRelay.decode (Socks5.encodeDatagram a) =
      if 10 < (Socks5.encodeDatagram a).length ∧ a.payload ≠ [] then
        some (a.payload, hostText a.host, a.port) else none := by
  change (decapsulateSOCKS5UDPWithEndpoint _).toOption.bind id = _
  rw [decapsulate_encodeDatagram h]
  rfl

theorem addressed_of_decode {a : Socks5.Addressed} (hcarried : datagram.IsCarried sys)
    (hencode : (toRelay sys).encode datagram = some packet)
    (hdecode : (toRelay sys).decode packet = some a) : a = datagram.addressed sys := by
  obtain ⟨rfl, hformed⟩ := encapsulate_eq_encodeDatagram hcarried hencode
  exact Option.some.inj (hdecode.symm.trans (Socks5.decodeDatagram_encodeDatagram hformed))

theorem returned_of_decode {a : Socks5.Addressed} {r : Returned} (hformed : a.host.IsWellFormed)
    (hencode : fromRelay.encode a = some packet) (hdecode : fromRelay.decode packet = some r) :
    r = (a.payload, hostText a.host, a.port) := by
  obtain rfl := Option.some.inj hencode
  rw [decode_fromRelay hformed, Option.ite_none_right_eq_some] at hdecode
  exact (Option.some.inj hdecode.2).symm

end

theorem readAndForwardRelayUDP_eq {r : UdpRelay} {batch : List Socks5.Addressed}
    (h : ∀ a ∈ batch, a.host.IsWellFormed) :
    ∃ t, r.readAndForwardRelayUDP (some (batch.map Socks5.encodeDatagram)) = .ok t ∧
      t.session = r.session ∧ t.reading = r.reading ∧
      t.returned.flatten =
        r.returned.flatten ++ fromRelay.taken (batch.map Socks5.encodeDatagram) := by
  have hmap : (batch.map Socks5.encodeDatagram).mapM decapsulateSOCKS5UDPWithEndpoint =
      .ok ((batch.map Socks5.encodeDatagram).map fromRelay.decode) := by
    apply mapM_eq_ok
    intro packet hpacket
    obtain ⟨a, ha, rfl⟩ := List.mem_map.mp hpacket
    rw [decapsulate_encodeDatagram (h a ha), decode_fromRelay (h a ha)]
  have htaken : ((batch.map Socks5.encodeDatagram).map fromRelay.decode).filterMap id =
      fromRelay.taken (batch.map Socks5.encodeDatagram) := by
    rw [List.filterMap_map]
    rfl
  rw [UdpRelay.readAndForwardRelayUDP, hmap]
  change ∃ t, (if List.filterMap id (List.map _ _) = [] then pure r else pure _ : Reads UdpRelay) =
    .ok t ∧ _
  rw [htaken]
  split_ifs with hempty
  · exact ⟨r, rfl, rfl, rfl, by rw [hempty, List.append_nil]⟩
  · exact ⟨_, rfl, rfl, rfl, by rw [List.flatten_append, List.flatten_singleton]⟩

theorem reading_readAndForwardRelayUDP {result : Option (List (List Byte))} {r t : UdpRelay}
    (h : r.readAndForwardRelayUDP result = .ok t) : t.reading = r.reading := by
  cases result with
  | none =>
    obtain rfl := Except.ok.inj h
    rfl
  | some datagrams =>
    rw [UdpRelay.readAndForwardRelayUDP] at h
    cases hunwrapped : datagrams.mapM decapsulateSOCKS5UDPWithEndpoint with
    | error e =>
      rw [hunwrapped] at h
      cases h
    | ok unwrapped =>
      rw [hunwrapped] at h
      change (if unwrapped.filterMap id = [] then pure r else pure _ : Reads UdpRelay) = .ok t at h
      split_ifs at h
      · obtain rfl := Except.ok.inj h
        rfl
      · obtain rfl := Except.ok.inj h
        rfl

namespace UdpAssociation

variable {sys : Foundation} {processPath : CStr} {s t : UdpAssociation} {label : UdpLabel}
  {labels : List UdpLabel}

/-- What a run keeps: the session was given the datagrams of the flow in their order, and each side
has only what the other one sent. -/
structure Sound (sys : Foundation) (s : UdpAssociation) : Prop where
  session_eq : s.relay.session = (toRelay sys).written s.sent
  reached : (toRelay sys).Delivers s.sent s.reached
  wellFormed : ∀ a ∈ s.answered, a.host.IsWellFormed
  returned : fromRelay.Delivers s.answered s.relay.returned.flatten

theorem sound_started : Sound sys started :=
  ⟨rfl, DatagramService.delivers_nil, fun _ ha => absurd ha List.not_mem_nil,
    DatagramService.delivers_nil⟩

theorem Sound.reached_sent (h : s.Sound sys)
    (hcarried : ∀ datagram ∈ s.sent, datagram.IsCarried sys) :
    ∀ a ∈ s.reached, ∃ datagram ∈ s.sent, a = datagram.addressed sys :=
  h.reached.of_readBack fun datagram hmem _ _ => addressed_of_decode (hcarried datagram hmem)

theorem Sound.returned_answered (h : s.Sound sys) :
    ∀ r ∈ s.relay.returned.flatten, ∃ a ∈ s.answered, r = (a.payload, hostText a.host, a.port) :=
  h.returned.of_readBack fun a hmem _ _ => returned_of_decode (h.wellFormed a hmem)

theorem written_fromRelay (answered : List Socks5.Addressed) :
    fromRelay.written answered = answered.map Socks5.encodeDatagram := by
  rw [← List.filterMap_eq_map]
  rfl

theorem Sound.step (h : s.Sound sys) (hstep : s.step sys processPath label = some t) :
    t.Sound sys := by
  cases label with
  | read enabled result =>
    obtain ⟨-, ht⟩ := Option.ite_none_right_eq_some.mp hstep
    obtain rfl := Option.some.inj ht
    cases result with
    | none =>
      refine ⟨?_, h.reached.send, h.wellFormed, h.returned⟩
      change s.relay.session = (toRelay sys).written (s.sent ++ [])
      rw [List.append_nil, h.session_eq]
    | some datagrams =>
      refine ⟨?_, h.reached.send, h.wellFormed, h.returned⟩
      change s.relay.session ++ (toRelay sys).written datagrams = _
      rw [h.session_eq]
      exact DatagramService.written_append.symm
  | relay datagram =>
    obtain ⟨hmem, ht⟩ := Option.ite_none_right_eq_some.mp hstep
    obtain rfl := Option.some.inj ht
    have harrived : [datagram] ⊆ (toRelay sys).written s.sent := by
      rw [← h.session_eq]
      exact List.cons_subset.mpr ⟨hmem, List.nil_subset _⟩
    have htaken : (Socks5.decodeDatagram datagram).toList = (toRelay sys).taken [datagram] := by
      change _ = [datagram].filterMap Socks5.decodeDatagram
      cases hread : Socks5.decodeDatagram datagram with
      | none => rw [List.filterMap_cons_none hread]; rfl
      | some a => rw [List.filterMap_cons_some hread]; rfl
    refine ⟨h.session_eq, ?_, h.wellFormed, h.returned⟩
    rw [htaken]
    exact h.reached.receive harrived
  | answer a =>
    obtain ⟨hformed, ht⟩ := Option.ite_none_right_eq_some.mp hstep
    obtain rfl := Option.some.inj ht
    refine ⟨h.session_eq, h.reached, fun a' ha' => ?_, h.returned.send⟩
    rcases List.mem_append.mp ha' with hold | hnew
    · exact h.wellFormed a' hold
    · obtain rfl := List.mem_singleton.mp hnew
      exact hformed
  | handle result =>
    obtain ⟨hsub, ht⟩ := Option.ite_none_right_eq_some.mp hstep
    obtain ⟨relay, hhandle, rfl⟩ := Option.map_eq_some_iff.mp ht
    cases result with
    | none =>
      obtain rfl := Option.some.inj hhandle
      exact h
    | some batch =>
      obtain ⟨relay', hok, hsession, -, hreturned⟩ :=
        @readAndForwardRelayUDP_eq s.relay batch fun a ha => h.wellFormed a (hsub ha)
      rw [Option.map_some, hok] at hhandle
      obtain rfl := Option.some.inj hhandle
      refine ⟨hsession.trans h.session_eq, h.reached, h.wellFormed, ?_⟩
      rw [hreturned]
      apply h.returned.receive
      rw [written_fromRelay]
      exact List.map_subset _ hsub

def FailsRead : UdpLabel → Bool
  | .read _ none => true
  | _ => false

theorem reading_step (hstep : s.step sys processPath label = some t) :
    t.relay.reading = (s.relay.reading && !FailsRead label) := by
  cases label with
  | read enabled result =>
    obtain ⟨hreading, ht⟩ := Option.ite_none_right_eq_some.mp hstep
    obtain rfl := Option.some.inj ht
    cases result with
    | none => exact (Bool.and_false _).symm
    | some datagrams => exact (Bool.and_true _).symm
  | relay datagram =>
    obtain ⟨-, ht⟩ := Option.ite_none_right_eq_some.mp hstep
    obtain rfl := Option.some.inj ht
    exact (Bool.and_true _).symm
  | answer a =>
    obtain ⟨-, ht⟩ := Option.ite_none_right_eq_some.mp hstep
    obtain rfl := Option.some.inj ht
    exact (Bool.and_true _).symm
  | handle result =>
    obtain ⟨-, ht⟩ := Option.ite_none_right_eq_some.mp hstep
    obtain ⟨relay, hhandle, rfl⟩ := Option.map_eq_some_iff.mp ht
    rw [show FailsRead (.handle result) = false from rfl, Bool.not_false, Bool.and_true]
    cases hresult : s.relay.readAndForwardRelayUDP
        (result.map (List.map Socks5.encodeDatagram)) with
    | error e =>
      rw [hresult] at hhandle
      cases hhandle
    | ok r =>
      rw [hresult] at hhandle
      obtain rfl := Option.some.inj hhandle
      exact reading_readAndForwardRelayUDP hresult

theorem sound_of_run (hrun : Transition.run (step sys processPath) started labels = some s) :
    s.Sound sys :=
  Transition.run_invariant (fun _ _ _ h hstep => h.step hstep) hrun sound_started

theorem reading_run (hrun : Transition.run (step sys processPath) s labels = some t) :
    t.relay.reading = (s.relay.reading && labels.all fun label => !FailsRead label) := by
  induction labels generalizing s with
  | nil =>
    obtain rfl := Option.some.inj hrun
    exact (Bool.and_true _).symm
  | cons label labels ih =>
    obtain ⟨u, hstep, hrest⟩ := Transition.run_cons_eq_some.mp hrun
    rw [ih hrest, reading_step hstep, List.all_cons, Bool.and_assoc]

/-- Whatever the network, the relay and the hosts do: the session is given the datagrams of the flow
that are not too long, each once and in their order. The relay sends nothing to a host but what the
flow has sent there, if its hosts are addresses and plain names, and the flow is given nothing but
what a host has sent, with the host's address and port. No datagram of the relay stops the
extension, and a read of the flow is pending unless one has failed. -/
theorem udp_flow_delivers
    (hrun : Transition.run (step sys processPath) started labels = some s) :
    s.relay.session = (toRelay sys).written s.sent ∧
      ((∀ datagram ∈ s.sent, datagram.IsCarried sys) →
        ∀ a ∈ s.reached, ∃ datagram ∈ s.sent, a = datagram.addressed sys) ∧
      (∀ r ∈ s.relay.returned.flatten, ∃ a ∈ s.answered,
        r = (a.payload, hostText a.host, a.port)) ∧
      (∀ batch, batch ⊆ s.answered → ∃ t,
        s.relay.readAndForwardRelayUDP (some (batch.map Socks5.encodeDatagram)) = .ok t) ∧
      s.relay.reading = labels.all fun label => !FailsRead label := by
  have hsound := sound_of_run hrun
  refine ⟨hsound.session_eq, fun hcarried => hsound.reached_sent hcarried, hsound.returned_answered,
    ?_, reading_run hrun⟩
  intro batch hsub
  obtain ⟨t, hok, -⟩ :=
    @readAndForwardRelayUDP_eq s.relay batch fun a ha => hsound.wellFormed a (hsub ha)
  exact ⟨t, hok⟩

/-- Hosts send back what they get. -/
def Echoes (s : UdpAssociation) : UdpLabel → Prop
  | .answer a => a ∈ s.reached
  | _ => True

instance (s : UdpAssociation) : DecidablePred s.Echoes
  | .answer a => inferInstanceAs (Decidable (a ∈ s.reached))
  | .read _ _ | .relay _ | .handle _ => .isTrue trivial

theorem answered_subset_step (h : s.answered ⊆ s.reached) (hlabel : s.Echoes label)
    (hstep : s.step sys processPath label = some t) : t.answered ⊆ t.reached := by
  cases label with
  | read enabled result =>
    obtain ⟨-, ht⟩ := Option.ite_none_right_eq_some.mp hstep
    obtain rfl := Option.some.inj ht
    exact h
  | relay datagram =>
    obtain ⟨-, ht⟩ := Option.ite_none_right_eq_some.mp hstep
    obtain rfl := Option.some.inj ht
    exact List.subset_append_of_subset_left _ h
  | answer a =>
    obtain ⟨-, ht⟩ := Option.ite_none_right_eq_some.mp hstep
    obtain rfl := Option.some.inj ht
    exact List.append_subset.mpr ⟨h, List.cons_subset.mpr ⟨hlabel, List.nil_subset _⟩⟩
  | handle result =>
    obtain ⟨-, ht⟩ := Option.ite_none_right_eq_some.mp hstep
    obtain ⟨relay, -, rfl⟩ := Option.map_eq_some_iff.mp ht
    exact h

/-- A host that comes back is the one of the datagram: an IPv4 address in its dotted form, an IPv6
address in a form that reads as the address, and a name as it is. -/
def SameHost (sys : Foundation) (destHost host : CStr) : Prop :=
  match sys.ipv4Address destHost, sys.ipv6Address destHost with
  | some octets, _ => host = quadText octets
  | none, some octets => readGroups host = some octets
  | none, none => host = destHost

theorem sameHost_hostText (destHost : CStr) :
    SameHost sys destHost (hostText (requestedDestination sys destHost)) := by
  unfold SameHost requestedDestination
  cases h4 : sys.ipv4Address destHost with
  | some octets => rfl
  | none =>
    cases h6 : sys.ipv6Address destHost with
    | some octets => exact readGroups_groupsText (sys.length_ipv6Address _ _ h6)
    | none =>
      change (decodeUtf8 (utf8 destHost)).getD _ = _
      rw [decodeUtf8_utf8, Option.getD_some]

/-- When the hosts send back what they get, the flow is given nothing but what it has sent, from the
endpoint that it was sent to. -/
theorem udp_flow_echoed
    (hrun : Transition.run (step sys processPath) started labels = some s)
    (hechoes : Transition.Guarded (step sys processPath) Echoes started labels)
    (hcarried : ∀ datagram ∈ s.sent, datagram.IsCarried sys) :
    ∀ r ∈ s.relay.returned.flatten, ∃ datagram ∈ s.sent,
      r.1 = datagram.payload ∧ r.2.2 = datagram.destPort ∧
        SameHost sys datagram.destHost r.2.1 := by
  have hsound := sound_of_run hrun
  have hsub : s.answered ⊆ s.reached :=
    Transition.guarded_invariant (I := fun s => s.answered ⊆ s.reached)
      (fun _ _ _ h hlabel hstep => answered_subset_step h hlabel hstep) hrun hechoes
      (List.nil_subset _)
  intro r hr
  obtain ⟨a, ha, rfl⟩ := hsound.returned_answered r hr
  obtain ⟨datagram, hmem, rfl⟩ := hsound.reached_sent hcarried a (hsub ha)
  exact ⟨datagram, hmem, rfl, rfl, sameHost_hostText datagram.destHost⟩

/-- A question to a name server. -/
def question : FlowDatagram := ⟨[42, 43], .host "example.org".toList "53".toList⟩

def questionAddressed : Socks5.Addressed := ⟨.name (utf8 "example.org".toList), 53, [42, 43]⟩

/-- One of two questions is lost, the other one is sent back, and what is sent back is doubled. -/
def questionRun : List UdpLabel :=
  [.read true (some [question, question]), .relay (Socks5.encodeDatagram questionAddressed),
    .answer questionAddressed, .handle (some [questionAddressed, questionAddressed]),
    .read true none]

theorem isPlain_question : IsPlain question.destHost :=
  ⟨by simp [question, FlowDatagram.destHost], by decide⟩

theorem exists_questionRun :
    ∃ s, Transition.run (step hostNames "dig".toList) started questionRun = some s ∧
      s.sent = [question, question] ∧
      s.relay.returned.flatten = List.replicate 2 ([42, 43], "example.org".toList, 53) := by
  obtain ⟨s, hrun, hstate⟩ := Option.map_eq_some_iff.mp (show
    (Transition.run (step hostNames "dig".toList) started questionRun).map
        (fun s => (s.sent, s.relay.returned.flatten)) =
      some ([question, question], List.replicate 2 ([42, 43], "example.org".toList, 53)) by
    decide +kernel)
  obtain ⟨hsent, hreturned⟩ := Prod.mk.inj hstate
  exact ⟨s, hrun, hsent, hreturned⟩

/-- The session has both questions, and no read is pending any more. -/
theorem udp_flow_delivers_question :
    ∃ s, Transition.run (step hostNames "dig".toList) started questionRun = some s ∧
      s.relay.session = (toRelay hostNames).written [question, question] ∧
      s.relay.reading = false := by
  obtain ⟨s, hrun, hsent, -⟩ := exists_questionRun
  obtain ⟨hsession, -, -, -, hreading⟩ := udp_flow_delivers hrun
  exact ⟨s, hrun, hsent ▸ hsession, hreading.trans (by decide)⟩

/-- What the flow is given is a question that it has asked. -/
theorem udp_flow_echoed_question :
    ∃ s, Transition.run (step hostNames "dig".toList) started questionRun = some s ∧
      ∃ datagram ∈ s.sent, datagram.payload = [42, 43] ∧ datagram.destPort = 53 ∧
        SameHost hostNames datagram.destHost "example.org".toList := by
  obtain ⟨s, hrun, hsent, hreturned⟩ := exists_questionRun
  obtain ⟨datagram, hmem, hpayload, hport, hhost⟩ := udp_flow_echoed hrun (by decide +kernel) (by
    intro datagram hmem
    rw [hsent] at hmem
    rw [List.eq_of_mem_replicate (show datagram ∈ List.replicate 2 question from hmem)]
    exact .inr isPlain_question)
    ([42, 43], "example.org".toList, 53) (hreturned ▸ List.mem_cons_self)
  exact ⟨s, hrun, datagram, hmem, hpayload.symm, hport.symm, hhost⟩

end UdpAssociation

end ProxyTun.MacOS
