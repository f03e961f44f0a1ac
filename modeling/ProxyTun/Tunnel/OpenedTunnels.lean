import ProxyTun.Tunnel.HandshakeContracts
import ProxyTun.Tunnel.RelayedStreams

/-!
# What a connection carries

The handshake comes before the tunnel: until the proxy has agreed, it is sent nothing but requests
for the destination, and the client nothing at all. From then on the proxy reads the requests and
behind them what the client sends, and the client what the proxy sends behind its replies.
-/
namespace ProxyTun.ConnectionHandler
open Library Library.Code Library.Transition

variable {pf : Platform} {setup : Setup} {dest : Ip × Port} {client proxy : Segmented Byte}
  {s t : Thread}

/-- An address that the engine has for the proxy of the configuration. -/
structure IsProxy (pf : Platform) (setup : Setup) (ip : Ip) : Prop where
  nonzero : ip ≠ 0
  known : (∃ getaddrinfo, ip = (resolveHostname getaddrinfo setup.config.host).address) ∨
    pf = .linux ∧ ip = setup.config.cached

theorem isProxy_of_connectionHandler {getaddrinfo : CStr → AddrInfo} {ip : Ip}
    (h : (ProxyConfig.connectionHandler pf getaddrinfo setup.config).1 = some ip) :
    IsProxy pf setup ip := by
  cases pf with
  | windows =>
    simp only [ProxyConfig.connectionHandler, ProxyConfig.Windows.connectionHandler] at h
    split_ifs at h with hzero
    obtain rfl := Option.some.inj h
    exact ⟨hzero, .inl ⟨getaddrinfo, rfl⟩⟩
  | linux =>
    simp only [ProxyConfig.connectionHandler, ProxyConfig.Linux.connectionHandler] at h
    split_ifs at h with hcached hzero
    · obtain rfl := Option.some.inj h
      exact ⟨hzero, .inl ⟨getaddrinfo, rfl⟩⟩
    · obtain rfl := Option.some.inj h
      exact ⟨hcached, .inr ⟨rfl, rfl⟩⟩

/-- The socket is connected to the proxy of the configuration. -/
def ReachesProxy (pf : Platform) (setup : Setup) (peer : Option (Ip × Port)) : Prop :=
  ∃ ip, IsProxy pf setup ip ∧ peer = some (ip, setup.config.port)

/-- The relay has its sockets as a handshake that succeeded left them. -/
def Relayed (pf : Platform) (setup : Setup) (dest : Ip × Port) (client : List Byte)
    (proxy : Segmented Byte) (w : ProxySocket) (r : Relay) : Prop :=
  ∃ mode : Mode, mode.Fits setup ∧ w.outgoing = mode.requests pf setup.creds dest ∧
    ∃ reads left, mode.Reads pf reads ∧ proxy.Leaves reads left ∧ r.Carries client left.contents

/-- What holds at each place of the thread. -/
def Phase.Sound (pf : Platform) (setup : Setup) (dest : Ip × Port) (client proxy : Segmented Byte)
    (peer : Option (Ip × Port)) (w : ProxySocket) : Phase → Prop
  | .resolving => w = ⟨proxy, []⟩
  | .creating ip | .connecting ip => w = ⟨proxy, []⟩ ∧ IsProxy pf setup ip
  | .shaking rest => ReachesProxy pf setup peer ∧
    rest.Meets Answers (Underway pf setup dest proxy.contents)
      (fun result t => ∀ a, result = .ok a → Opened pf setup dest proxy t) w
  | .allocating | .piping _ =>
    ReachesProxy pf setup peer ∧ Opened pf setup dest proxy w
  | .relaying r | .ended (some r) =>
    ReachesProxy pf setup peer ∧ Relayed pf setup dest client.contents proxy w r
  | .ended none => (w.outgoing = [] ∨ ReachesProxy pf setup peer) ∧
    ∃ mode : Mode, mode.Fits setup ∧ w.outgoing <+: mode.requests pf setup.creds dest

structure Thread.Sound (pf : Platform) (setup : Setup) (dest : Ip × Port)
    (client proxy : Segmented Byte) (s : Thread) : Prop where
  client_eq : s.client = client
  phase : s.phase.Sound pf setup dest client proxy s.peer s.proxy

/-- The proxy of the configuration can always agree to something. -/
theorem exists_fits (setup : Setup) : ∃ mode : Mode, mode.Fits setup := by
  cases htype : setup.config.type with
  | http => exact ⟨.http, htype⟩
  | socks5 => exact ⟨.plain, htype⟩

/-- A thread that has sent nothing yet can return. -/
theorem sound_ended_unsent (setup : Setup) (hunsent : s.proxy = ⟨proxy, []⟩) :
    (Phase.ended none).Sound pf setup dest client proxy s.peer s.proxy := by
  obtain ⟨mode, hmode⟩ := exists_fits setup
  rw [hunsent]
  exact ⟨.inl rfl, mode, hmode, List.nil_prefix⟩

theorem sound_resolve (getaddrinfo : CStr → AddrInfo) (hclient : s.client = client)
    (hunsent : s.proxy = ⟨proxy, []⟩) :
    (s.resolve pf setup getaddrinfo).Sound pf setup dest client proxy := by
  unfold Thread.resolve
  dsimp only
  split
  · exact ⟨hclient, sound_ended_unsent setup hunsent⟩
  · next ip hip => exact ⟨hclient, hunsent, isProxy_of_connectionHandler hip⟩

theorem sound_createSocket {ip : Ip} (ok : Bool) (hclient : s.client = client)
    (hs : s.proxy = ⟨proxy, []⟩ ∧ IsProxy pf setup ip) :
    (s.createSocket ip ok).Sound pf setup dest client proxy := by
  cases ok with
  | true => exact ⟨hclient, hs⟩
  | false => exact ⟨hclient, sound_ended_unsent setup hs.1⟩

/-- The rest of the handshake decides where the thread goes on. -/
theorem sound_settle {code : Code SocketOp SocketOp.Result (Except CStr Unit)}
    (hclient : s.client = client) (hpeer : ReachesProxy pf setup s.peer)
    (hcode : code.Meets Answers (Underway pf setup dest proxy.contents)
      (fun result t => ∀ a, result = .ok a → Opened pf setup dest proxy t) s.proxy) :
    (s.settle code).Sound pf setup dest client proxy := by
  cases code with
  | call op next => exact ⟨hclient, hpeer, hcode⟩
  | ret result =>
    cases result with
    | ok => exact ⟨hclient, hpeer, hcode.2 () rfl⟩
    | error message => exact ⟨hclient, .inr hpeer, hcode.invariant.asks⟩

theorem sound_connect {ip : Ip} (ok : Bool) (hclient : s.client = client)
    (hs : s.proxy = ⟨proxy, []⟩ ∧ IsProxy pf setup ip) :
    (s.connect pf setup dest ip ok).Sound pf setup dest client proxy := by
  cases ok with
  | false => exact ⟨hclient, sound_ended_unsent setup hs.1⟩
  | true =>
    refine sound_settle hclient ⟨ip, hs.2, rfl⟩ ?_
    have hshake := handshake_ensures pf setup dest proxy
    rw [← hs.1] at hshake
    exact hshake

theorem Opened.relayed_copying {w : ProxySocket} (h : Opened pf setup dest proxy w)
    (client : Segmented Byte) :
    Relayed pf setup dest client.contents proxy w (.copying (.start client w.incoming)) := by
  obtain ⟨mode, hfits, hsent, reads, hreads, hleaves⟩ := h
  exact ⟨mode, hfits, hsent, reads, _, hreads, hleaves, Relay.carries_copying _ _⟩

theorem Opened.relayed_splicing {w : ProxySocket} (h : Opened pf setup dest proxy w)
    (client : Segmented Byte) :
    Relayed pf setup dest client.contents proxy w
      (.splicing (.start client w.incoming)) := by
  obtain ⟨mode, hfits, hsent, reads, hreads, hleaves⟩ := h
  exact ⟨mode, hfits, hsent, reads, _, hreads, hleaves, Relay.carries_splicing _ _⟩

theorem sound_makePipe {first : Bool} (ok : Bool) (hclient : s.client = client)
    (hs : ReachesProxy pf setup s.peer ∧ Opened pf setup dest proxy s.proxy) :
    (s.makePipe first ok).Sound pf setup dest client proxy := by
  subst hclient
  have hcopying := hs.2.relayed_copying s.client
  cases first with
  | true =>
    cases ok with
    | true => exact ⟨rfl, hs⟩
    | false => exact ⟨rfl, hs.1, hcopying⟩
  | false =>
    cases ok with
    | true => exact ⟨rfl, hs.1, hs.2.relayed_splicing s.client⟩
    | false => exact ⟨rfl, hs.1, hcopying⟩

theorem sound_malloc (ok : Bool) (hclient : s.client = client)
    (hs : ReachesProxy pf setup s.peer ∧ Opened pf setup dest proxy s.proxy) :
    (if ok then s.transfer pf else s.giveUp).Sound pf setup dest client proxy := by
  cases ok with
  | false =>
    obtain ⟨mode, hfits, hsent, -⟩ := hs.2
    exact ⟨hclient, .inr hs.1, mode, hfits, hsent ▸ List.prefix_rfl⟩
  | true =>
    subst hclient
    cases pf with
    | windows => exact ⟨rfl, hs.1, hs.2.relayed_copying s.client⟩
    | linux => exact ⟨rfl, hs⟩

theorem sound_step {l : Label} (hs : s.Sound pf setup dest client proxy)
    (h : s.step pf setup dest l = some t) : t.Sound pf setup dest client proxy := by
  obtain ⟨hclient, hphase⟩ := hs
  cases moves_of_step h with
  | resolve hplace getaddrinfo =>
    rw [hplace] at hphase
    exact sound_resolve getaddrinfo hclient hphase
  | createSocket hplace ok =>
    rw [hplace] at hphase
    exact sound_createSocket ok hclient hphase
  | connect hplace ok =>
    rw [hplace] at hphase
    exact sound_connect ok hclient hphase
  | call hplace hanswer =>
    rw [hplace] at hphase
    exact sound_settle hclient hphase.1 (hphase.2.2 _ _ ⟨_, hanswer⟩)
  | malloc hplace ok =>
    rw [hplace] at hphase
    exact sound_malloc ok hclient hphase
  | pipe2 hplace ok =>
    rw [hplace] at hphase
    exact sound_makePipe ok hclient hphase
  | pass hplace hpass =>
    rw [hplace] at hphase
    obtain ⟨hpeer, mode, hfits, hsent, reads, left, hreads, hleaves, hcarries⟩ := hphase
    exact ⟨hclient, hpeer, mode, hfits, hsent, reads, left, hreads, hleaves,
      hcarries.step hpass⟩
  | cleanup hplace hleft =>
    rw [hplace] at hphase
    rename_i r
    cases r with
    | copying relay => exact ⟨hclient, hphase⟩
    | splicing relay => exact ⟨hclient, hphase⟩

/-- The proxy consents by a header block of a 200 response that the read returns, or by the replies
of RFC 1928 and 1929, each of which its read returns, the last one with ten bytes. What it sends
behind that is the tunnel. -/
def ConsentsTo (pf : Platform) (setup : Setup) (proxy : Segmented Byte) (tunnel : List Byte) :
    Prop :=
  match setup.config.type with
  | .http => ∃ header, IsOkHeader header ∧ proxy.contents = header ++ tunnel ∧
    proxy.Returns [(responseLimit pf, header)]
  | .socks5 => ∃ x : Socks5.Success setup.creds, proxy.contents = x.transcript ++ tunnel ∧
    proxy.Returns x.reads ∧ x.reply.length = 10

/-- What the two sides have of a connection that has come to its relay. -/
structure Tunnelled (pf : Platform) (setup : Setup) (dest : Ip × Port) (client : List Byte)
    (proxy : Segmented Byte) (s : Thread) (r : Relay) (mode : Mode) : Prop where
  fits : mode.Fits setup
  /-- The proxy reads who asks for what, and behind that the front of what the client sends. -/
  opening : ∃ sent, readOpening mode s.toProxy = some (⟨mode.identity setup.creds, dest⟩, sent) ∧
    sent <+: client ∧ (r.ClientEnded → sent = client)
  /-- The client gets what the proxy sends behind the replies that the handshake read. -/
  replies : ∃ reads left, mode.Reads pf reads ∧ proxy.Leaves reads left ∧
    s.toClient <+: left.contents ∧ (r.ProxyEnded → s.toClient = left.contents)
  /-- The client gets what the proxy sends behind its consent. -/
  consented : ∀ tunnel, ConsentsTo pf setup proxy tunnel →
    s.toClient <+: tunnel ∧ (r.ProxyEnded → s.toClient = tunnel)

theorem flatMap_reads {creds : Credentials} (x : Socks5.Success creds) :
    x.reads.flatMap Prod.snd = x.transcript := by
  unfold Socks5.Success.reads Socks5.Success.transcript Socks5.Success.consent
  cases x.wantsLogin <;> simp

theorem choice_of_returns {creds : Credentials} {x : Socks5.Success creds}
    (h : proxy.Returns x.reads) : (proxy.recv 2).1 = x.choice := by
  unfold Socks5.Success.reads at h
  split at h
  · exact h.1
  · exact h.1

theorem left_of_consentsTo {mode : Mode} {tunnel : List Byte} {reads : List (ℕ × List Byte)}
    {left : Segmented Byte} (hfits : mode.Fits setup) (hreads : mode.Reads pf reads)
    (hleaves : proxy.Leaves reads left) (h : ConsentsTo pf setup proxy tunnel) :
    left.contents = tunnel := by
  have hcontents := hleaves.contents_eq
  unfold ConsentsTo at h
  cases mode with
  | http =>
    rw [hfits] at h
    obtain ⟨header, -, hstream, hreturns⟩ := h
    obtain ⟨response, -, rfl⟩ := hreads
    rw [hleaves.eq_of_returns hreturns rfl, hstream] at hcontents
    simpa using hcontents
  | plain =>
    rw [hfits] at h
    obtain ⟨x, hstream, hreturns, -⟩ := h
    obtain ⟨reply, -, -, rfl⟩ := hreads
    have hchoice : [5, 0] = x.choice := hleaves.1.symm.trans (choice_of_returns hreturns)
    have hsizes : x.reads.map Prod.fst = [2, 10] := by
      unfold Socks5.Success.choice at hchoice
      unfold Socks5.Success.reads
      cases hlogin : x.wantsLogin with
      | true => simp [hlogin] at hchoice
      | false => rfl
    rw [hleaves.eq_of_returns hreturns hsizes.symm, flatMap_reads, hstream] at hcontents
    exact List.append_cancel_left hcontents
  | login =>
    rw [hfits.1] at h
    obtain ⟨x, hstream, hreturns, -⟩ := h
    obtain ⟨reply, -, -, rfl⟩ := hreads
    have hchoice : [5, 2] = x.choice := hleaves.1.symm.trans (choice_of_returns hreturns)
    have hsizes : x.reads.map Prod.fst = [2, 2, 10] := by
      unfold Socks5.Success.choice at hchoice
      unfold Socks5.Success.reads
      cases hlogin : x.wantsLogin with
      | true => rfl
      | false => simp [hlogin] at hchoice
    rw [hleaves.eq_of_returns hreturns hsizes.symm, flatMap_reads, hstream] at hcontents
    exact List.append_cancel_left hcontents

theorem Relayed.tunnelled {r : Relay} (hrelay : s.relay = some r)
    (h : Relayed pf setup dest client.contents proxy s.proxy r) :
    ∃ mode, Tunnelled pf setup dest client.contents proxy s r mode := by
  obtain ⟨mode, hfits, hsent, reads, left, hreads, hleaves, hcarries⟩ := h
  have htoProxy : s.toProxy = mode.requests pf setup.creds dest ++ r.uploaded := by
    rw [Thread.toProxy, hrelay, hsent]
    rfl
  have htoClient : s.toClient = r.downloaded := by
    rw [Thread.toClient, hrelay]
    rfl
  obtain ⟨hdown, hdownAll⟩ := hcarries.downloaded
  obtain ⟨hup, hupAll⟩ := hcarries.uploaded
  rw [← htoClient] at hdown hdownAll
  refine ⟨mode, hfits, ⟨r.uploaded, ?_, hup, hupAll⟩,
    ⟨reads, left, hreads, hleaves, hdown, hdownAll⟩, fun tunnel hconsents => ?_⟩
  · rw [htoProxy]
    exact readOpening_requests hfits pf dest r.uploaded
  · rw [← left_of_consentsTo hfits hreads hleaves hconsents]
    exact ⟨hdown, hdownAll⟩

theorem Thread.Sound.unrelayed (hs : s.Sound pf setup dest client proxy)
    (hrelay : s.relay = none) :
    (Phase.ended none).Sound pf setup dest client proxy s.peer s.proxy := by
  have hopened (h : ReachesProxy pf setup s.peer ∧ Opened pf setup dest proxy s.proxy) :
      (Phase.ended none).Sound pf setup dest client proxy s.peer s.proxy := by
    obtain ⟨hpeer, mode, hfits, hsent, -⟩ := h
    exact ⟨.inr hpeer, mode, hfits, hsent ▸ List.prefix_rfl⟩
  obtain ⟨-, hphase⟩ := hs
  cases hplace : s.phase with
  | resolving =>
    rw [hplace] at hphase
    exact sound_ended_unsent setup hphase
  | creating ip =>
    rw [hplace] at hphase
    exact sound_ended_unsent setup hphase.1
  | connecting ip =>
    rw [hplace] at hphase
    exact sound_ended_unsent setup hphase.1
  | shaking rest =>
    rw [hplace] at hphase
    exact ⟨.inr hphase.1, hphase.2.invariant.asks⟩
  | allocating =>
    rw [hplace] at hphase
    exact hopened hphase
  | piping first =>
    rw [hplace] at hphase
    exact hopened hphase
  | relaying r =>
    rw [Thread.relay, hplace] at hrelay
    cases hrelay
  | ended r =>
    rw [Thread.relay, hplace] at hrelay
    obtain rfl : r = none := hrelay
    rwa [hplace] at hphase

theorem toProxy_unrelayed (hrelay : s.relay = none) : s.toProxy = s.proxy.outgoing := by
  rw [Thread.toProxy, hrelay]
  exact List.append_nil _

/-- Until the relay the client gets nothing and the proxy at most the requests for the
destination. -/
theorem Thread.Sound.before_relay (hs : s.Sound pf setup dest client proxy)
    (hrelay : s.relay = none) :
    s.toClient = [] ∧
      ∃ mode : Mode, mode.Fits setup ∧ s.toProxy <+: mode.requests pf setup.creds dest := by
  rw [toProxy_unrelayed hrelay, Thread.toClient, hrelay]
  exact ⟨rfl, (hs.unrelayed hrelay).2⟩

theorem Thread.Sound.at_relay (hs : s.Sound pf setup dest client proxy) {r : Relay}
    (hrelay : s.relay = some r) :
    ReachesProxy pf setup s.peer ∧
      Relayed pf setup dest client.contents proxy s.proxy r := by
  obtain ⟨-, hphase⟩ := hs
  unfold Thread.relay at hrelay
  split at hrelay
  · next hplace =>
    obtain rfl := Option.some.inj hrelay
    rwa [hplace] at hphase
  · next hplace =>
    rw [hrelay] at hplace
    rwa [hplace] at hphase
  · cases hrelay

theorem Thread.Sound.peer (hs : s.Sound pf setup dest client proxy) (hsent : s.toProxy ≠ []) :
    ReachesProxy pf setup s.peer := by
  cases hrelay : s.relay with
  | some r => exact (hs.at_relay hrelay).1
  | none =>
    rw [toProxy_unrelayed hrelay] at hsent
    exact (hs.unrelayed hrelay).1.resolve_left hsent

end ProxyTun.ConnectionHandler
