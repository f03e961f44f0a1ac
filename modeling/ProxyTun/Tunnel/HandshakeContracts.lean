import ProxyTun.Library.Contracts
import ProxyTun.Tunnel.Openings
import ProxyTun.Tunnel.Socks5Dialogue

/-!
# The handshakes against any proxy and any failure

Until the proxy has agreed, it is sent nothing but the front of the requests for the destination.
A handshake succeeds only once the proxy was sent all of them and has agreed to each.
-/
namespace ProxyTun.ConnectionHandler
open Library Library.Code Handshake

def Answers (s : ProxySocket) (op : SocketOp) (r : op.Result) (t : ProxySocket) : Prop :=
  ∃ attempt, answer attempt op s = some (r, t)

section Calls

variable {I : ProxySocket → Prop} {s : ProxySocket}

/-- `send_all` that succeeds has sent everything, and in any case a part of it. -/
theorem sendAll_ensures {data : List Byte} (message : CStr)
    (hpart : ∀ part, part <+: data → I { s with outgoing := s.outgoing ++ part }) :
    Ensures Answers I (fun _ t => t = { s with outgoing := s.outgoing ++ data })
      (sendAll data message) s := by
  have hs : I s := by simpa using hpart [] List.nil_prefix
  have hissue : Ensures Answers I
      (fun sent t => sent = true → t = { s with outgoing := s.outgoing ++ data })
      (issue CStr (SocketOp.send data)) s := by
    apply ensures_issue hs
    rintro r t ⟨attempt, hanswer⟩
    cases attempt with
    | moves =>
      obtain ⟨rfl, rfl⟩ := Prod.mk.inj (Option.some.inj hanswer)
      exact ⟨hpart data List.prefix_rfl, fun _ => rfl⟩
    | sendFails sent =>
      obtain ⟨rfl, rfl⟩ := Prod.mk.inj (Option.some.inj hanswer)
      exact ⟨hpart _ (List.take_prefix sent data), fun h => absurd h Bool.false_ne_true⟩
    | recvFails => cases hanswer
  refine hissue.bind fun sent t ht hsent => ?_
  cases sent with
  | false => exact ensures_throw ht message
  | true => exact ensures_pure ht (hsent rfl)

theorem recv_ensures (size : ℕ) (hs : I s)
    (hread : I { s with incoming := (s.incoming.recv size).2 }) :
    Ensures Answers I
      (fun reply t => reply = none ∨ reply = some (s.incoming.recv size).1 ∧
        t = { s with incoming := (s.incoming.recv size).2 })
      (recv size) s := by
  apply ensures_issue hs
  rintro r t ⟨attempt, hanswer⟩
  cases attempt with
  | moves =>
    obtain ⟨rfl, rfl⟩ := Prod.mk.inj (Option.some.inj hanswer)
    exact ⟨hread, .inr ⟨rfl, rfl⟩⟩
  | recvFails =>
    obtain ⟨rfl, rfl⟩ := Prod.mk.inj (Option.some.inj hanswer)
    exact ⟨hs, .inl rfl⟩
  | sendFails sent => cases hanswer

theorem check_ensures (ok : Bool) (message : CStr) (hs : I s) :
    Ensures Answers I (fun _ t => ok = true ∧ t = s) (check ok message) s := by
  cases ok with
  | false => exact ensures_throw hs message
  | true => exact ensures_pure hs ⟨rfl, rfl⟩

end Calls

def Mode.Reads (pf : Platform) : Mode → List (ℕ × List Byte) → Prop
  | .plain, reads =>
    ∃ reply, reply.length = 10 ∧ reply.take 2 = [5, 0] ∧ reads = [(2, [5, 0]), (10, reply)]
  | .login, reads => ∃ reply, reply.length = 10 ∧ reply.take 2 = [5, 0] ∧
    reads = [(2, [5, 2]), (2, [1, 0]), (10, reply)]
  | .http, reads => ∃ response, Accepts pf response ∧ reads = [(responseLimit pf, response)]

/-- The handshake is under way on the stream of the proxy. -/
structure Underway (pf : Platform) (setup : Setup) (dest : Ip × Port) (stream : List Byte)
    (s : ProxySocket) : Prop where
  asks : ∃ mode : Mode, mode.Fits setup ∧ s.outgoing <+: mode.requests pf setup.creds dest
  reads : s.incoming.contents <:+ stream

/-- The handshake has succeeded: every request was sent, and the replies were read. -/
def Opened (pf : Platform) (setup : Setup) (dest : Ip × Port) (proxy : Segmented Byte)
    (s : ProxySocket) : Prop :=
  ∃ mode : Mode, mode.Fits setup ∧ s.outgoing = mode.requests pf setup.creds dest ∧
    ∃ reads, mode.Reads pf reads ∧ proxy.Leaves reads s.incoming

section Handshakes

variable {pf : Platform} {setup : Setup} {dest : Ip × Port} {stream : List Byte}
  {s : ProxySocket}

theorem Underway.read (h : Underway pf setup dest stream s) (size : ℕ) :
    Underway pf setup dest stream { s with incoming := (s.incoming.recv size).2 } :=
  ⟨h.asks, List.IsSuffix.trans ⟨_, Segmented.recv_append size s.incoming⟩ h.reads⟩

theorem Underway.sendPart {data part : List Byte} (h : Underway pf setup dest stream s)
    (mode : Mode) (rest : List Byte) (hmode : mode.Fits setup)
    (hrequests : s.outgoing ++ data ++ rest = mode.requests pf setup.creds dest)
    (hpart : part <+: data) :
    Underway pf setup dest stream { s with outgoing := s.outgoing ++ part } := by
  refine ⟨⟨mode, hmode, ?_⟩, h.reads⟩
  rw [← hrequests]
  exact ((List.prefix_append_right_inj _).mpr hpart).trans (List.prefix_append _ _)

/-- The socket after the proxy's choice was acted on: nothing is left to do, or the login was
accepted. -/
def AfterChoice (creds : Credentials) (method : Byte) (s t : ProxySocket) : Prop :=
  method = 0 ∧ t = s ∨
    method = 2 ∧ creds.useAuth = true ∧ (s.incoming.recv 2).1 = [1, 0] ∧
      t = ⟨(s.incoming.recv 2).2, s.outgoing ++ Socks5.loginRequest creds⟩

theorem login_ensures {I : ProxySocket → Prop} (m : Socks5.Messages) (creds : Credentials)
    (hread : ∀ t size, I t → I { t with incoming := (t.incoming.recv size).2 })
    (hpart : ∀ part, part <+: Socks5.loginRequest creds →
      I { s with outgoing := s.outgoing ++ part }) :
    Ensures Answers I (fun _ t => (s.incoming.recv 2).1 = [1, 0] ∧
        t = ⟨(s.incoming.recv 2).2, s.outgoing ++ Socks5.loginRequest creds⟩)
      (Socks5.login m creds) s := by
  refine (sendAll_ensures m.loginFailed hpart).bind fun _ t ht hsent => ?_
  subst hsent
  refine (recv_ensures 2 ht (hread _ 2 ht)).bind fun reply t ht hreply => ?_
  refine (check_ensures _ m.loginRefused ht).mono ?_
  rintro - u - ⟨hconsent, rfl⟩
  rcases hreply with rfl | ⟨rfl, rfl⟩
  · simp at hconsent
  · exact ⟨by simpa using hconsent, rfl⟩

/-- What both engines do about the proxy's choice, whichever calls fail. -/
def ActsOnChoice (creds : Credentials) (negotiate : Byte → Handshake Unit) : Prop :=
  ∀ (I : ProxySocket → Prop) (method : Byte) (s : ProxySocket), I s →
    (∀ t size, I t → I { t with incoming := (t.incoming.recv size).2 }) →
    (creds.useAuth = true → ∀ part, part <+: Socks5.loginRequest creds →
      I { s with outgoing := s.outgoing ++ part }) →
    Ensures Answers I (fun _ t => AfterChoice creds method s t) (negotiate method) s

theorem windows_actsOnChoice (creds : Credentials) :
    ActsOnChoice creds (Windows.negotiate creds) := by
  intro I method s hs hread hpart
  unfold Windows.negotiate
  split_ifs with hmethod
  · refine (check_ensures _ _ hs).bind ?_
    rintro - t - ⟨hauth, rfl⟩
    refine (check_ensures _ _ hs).bind ?_
    rintro - t - ⟨-, rfl⟩
    refine (login_ensures Windows.socks5Messages creds hread (hpart hauth)).mono ?_
    rintro - t - ⟨hconsent, ht⟩
    exact .inr ⟨hmethod, hauth, hconsent, ht⟩
  · refine (check_ensures _ _ hs).mono ?_
    rintro - t - ⟨hnone, rfl⟩
    exact .inl ⟨by simpa using hnone, rfl⟩

theorem linux_actsOnChoice (creds : Credentials) :
    ActsOnChoice creds (Linux.negotiate creds) := by
  intro I method s hs hread hpart
  unfold Linux.negotiate
  split_ifs with hmethod
  · obtain ⟨hmethod, hauth⟩ : method = 2 ∧ creds.useAuth = true := by simpa using hmethod
    refine (login_ensures Linux.socks5Messages creds hread (hpart hauth)).mono ?_
    rintro - t - ⟨hconsent, ht⟩
    exact .inr ⟨hmethod, hauth, hconsent, ht⟩
  · refine (check_ensures _ _ hs).mono ?_
    rintro - t - ⟨hnone, rfl⟩
    exact .inl ⟨by simpa using hnone, rfl⟩

theorem reply_accepted {reply : Option (List Byte)} {t : ProxySocket}
    (h : reply = none ∨ reply = some (s.incoming.recv 10).1 ∧
      t = { s with incoming := (s.incoming.recv 10).2 })
    (hok : (reply.any fun r => 10 ≤ r.length && r.take 2 = [5, 0]) = true) :
    (s.incoming.recv 10).1.length = 10 ∧ (s.incoming.recv 10).1.take 2 = [5, 0] ∧
      t = { s with incoming := (s.incoming.recv 10).2 } := by
  rcases h with rfl | ⟨rfl, rfl⟩
  · cases hok
  · have hlength := Segmented.length_recv_le 10 s.incoming
    simp only [Option.any_some, Bool.and_eq_true, decide_eq_true_eq] at hok
    exact ⟨le_antisymm hlength hok.1, hok.2, rfl⟩

/-- What was sent and read up to the command belongs to the mode of the proxy's choice. -/
theorem mode_of_afterChoice (pf : Platform) (dest : Ip × Port) {proxy : Segmented Byte}
    {method : Byte} {t : ProxySocket} (htype : setup.config.type = .socks5)
    (hsent : s.outgoing = Socks5.methodOffer setup.creds)
    (hchoice : proxy.Leaves [(2, [5, method])] s.incoming)
    (h : AfterChoice setup.creds method s t) :
    ∃ mode : Mode, mode.Fits setup ∧
      t.outgoing ++ Socks5.connectRequest dest = mode.requests pf setup.creds dest ∧
      ∃ first, proxy.Leaves first t.incoming ∧
        ∀ reply, reply.length = 10 → reply.take 2 = [5, 0] →
          mode.Reads pf (first ++ [(10, reply)]) := by
  rcases h with ⟨rfl, rfl⟩ | ⟨rfl, hauth, hconsent, rfl⟩
  · exact ⟨.plain, htype, by rw [hsent]; rfl, [(2, [5, 0])], hchoice,
      fun reply hlength htake => ⟨reply, hlength, htake, rfl⟩⟩
  · refine ⟨.login, ⟨htype, hauth⟩, by rw [hsent]; rfl, [(2, [5, 2]), (2, [1, 0])], ?_,
      fun reply hlength htake => ⟨reply, hlength, htake, rfl⟩⟩
    rw [← hconsent]
    exact hchoice.recv 2

theorem socks5_ensures (m : Socks5.Messages) {negotiate : Byte → Handshake Unit}
    (hnegotiate : ActsOnChoice setup.creds negotiate) (htype : setup.config.type = .socks5)
    (proxy : Segmented Byte) :
    Ensures Answers (Underway pf setup dest proxy.contents)
      (fun _ t => Opened pf setup dest proxy t)
      (Socks5.connect m negotiate setup.creds dest) ⟨proxy, []⟩ := by
  have hread : ∀ t size, Underway pf setup dest proxy.contents t →
      Underway pf setup dest proxy.contents { t with incoming := (t.incoming.recv size).2 } :=
    fun _ size h => h.read size
  have hstart : Underway pf setup dest proxy.contents ⟨proxy, []⟩ :=
    ⟨⟨.plain, htype, List.nil_prefix⟩, List.suffix_rfl⟩
  -- the methods, and the proxy's choice
  refine (sendAll_ensures m.offerFailed fun part hpart =>
    hstart.sendPart .plain (Socks5.connectRequest dest) htype rfl hpart).bind ?_
  rintro - s hs hsent
  refine (recv_ensures 2 hs (hread _ 2 hs)).bind ?_
  rintro choice t ht hchoice
  refine (check_ensures _ _ ht).bind ?_
  rintro - t' - ⟨hformat, rfl⟩
  obtain ⟨method, rfl⟩ := (Socks5.choice_format choice).mp hformat
  obtain ⟨hmethod, rfl⟩ := hchoice.resolve_left (by simp)
  have hread2 : proxy.Leaves [(2, [5, method])] (s.incoming.recv 2).2 := by
    rw [Option.some.inj hmethod, hsent]
    exact ⟨rfl, rfl⟩
  -- the login, if the proxy wants one
  refine (hnegotiate _ method _ ht hread fun hauth part hpart =>
    ht.sendPart .login (Socks5.connectRequest dest) ⟨htype, hauth⟩
      (by rw [hsent]; rfl) hpart).bind ?_
  rintro - u hu hafter
  obtain ⟨mode, hfits, hrequests, first, hfirst, hreads⟩ :=
    mode_of_afterChoice pf dest htype (by rw [hsent]; rfl) hread2 hafter
  -- the command, and the reply to it
  refine (sendAll_ensures m.requestFailed fun part hpart =>
    hu.sendPart mode [] hfits (by rw [List.append_nil]; exact hrequests) hpart).bind ?_
  rintro - v hv hsentAll
  refine (recv_ensures 10 hv (hread _ 10 hv)).bind ?_
  rintro reply w hw hreply
  refine (check_ensures _ _ hw).mono ?_
  rintro - w' - ⟨hok, rfl⟩
  obtain ⟨hlength, htake, rfl⟩ := reply_accepted hreply hok
  refine ⟨mode, hfits, ?_, _, hreads _ hlength htake, ?_⟩
  · rw [hsentAll]
    exact hrequests
  · rw [hsentAll]
    exact hfirst.recv 10

theorem exchange_ensures {I : ProxySocket → Prop} {data : List Byte} {size : ℕ} {message : CStr}
    {ok₁ ok₂ ok₃ : Option (List Byte) → Bool}
    {message₁ message₂ message₃ : Option (List Byte) → CStr}
    (hread : ∀ t, I t → I { t with incoming := (t.incoming.recv size).2 })
    (hpart : ∀ part, part <+: data → I { s with outgoing := s.outgoing ++ part }) :
    Ensures Answers I
      (fun _ t => ∃ reply, (ok₁ reply = true ∧ ok₂ reply = true ∧ ok₃ reply = true) ∧
        (reply = none ∨ reply = some (s.incoming.recv size).1 ∧
          t = ⟨(s.incoming.recv size).2, s.outgoing ++ data⟩))
      (do
        sendAll data message
        let reply ← recv size
        check (ok₁ reply) (message₁ reply)
        check (ok₂ reply) (message₂ reply)
        check (ok₃ reply) (message₃ reply)) s := by
  refine (sendAll_ensures message hpart).bind ?_
  rintro - t ht rfl
  refine (recv_ensures size ht (hread _ ht)).bind ?_
  rintro reply u hu hreply
  refine (check_ensures _ _ hu).bind ?_
  rintro - v hv ⟨hok₁, rfl⟩
  refine (check_ensures _ _ hv).bind ?_
  rintro - w hw ⟨hok₂, rfl⟩
  refine (check_ensures _ _ hw).mono ?_
  rintro - x - ⟨hok₃, rfl⟩
  exact ⟨reply, ⟨hok₁, hok₂, hok₃⟩, hreply⟩

theorem http_ensures (htype : setup.config.type = .http) (proxy : Segmented Byte) :
    Ensures Answers (Underway pf setup dest proxy.contents)
      (fun _ t => Opened pf setup dest proxy t)
      (httpConnect pf setup.creds dest) ⟨proxy, []⟩ := by
  have hstart : Underway pf setup dest proxy.contents ⟨proxy, []⟩ :=
    ⟨⟨.http, htype, List.nil_prefix⟩, List.suffix_rfl⟩
  have hpart : ∀ part, part <+: bytesOf (ProxyTun.connectRequest pf setup.creds dest) →
      Underway pf setup dest proxy.contents { outgoing := [] ++ part, incoming := proxy } :=
    fun part hpart => hstart.sendPart .http [] htype (by rw [List.append_nil]; rfl) hpart
  have hopened : ∀ (t : ProxySocket) (r : List Byte),
      (some r = none ∨ some r = some (proxy.recv (responseLimit pf)).1 ∧
        t = ⟨(proxy.recv (responseLimit pf)).2,
          [] ++ bytesOf (ProxyTun.connectRequest pf setup.creds dest)⟩) →
      Accepts pf r → Opened pf setup dest proxy t := by
    rintro t r hreply haccepts
    obtain ⟨hr, rfl⟩ := hreply.resolve_left (by simp)
    obtain rfl := Option.some.inj hr
    exact ⟨.http, htype, rfl, _, ⟨_, haccepts, rfl⟩, rfl, rfl⟩
  cases pf with
  | windows =>
    refine (exchange_ensures (fun _ ht => ht.read _) hpart).mono ?_
    rintro - t - ⟨reply, ⟨hsome, hhttp, hstatus⟩, hreply⟩
    cases reply with
    | none => cases hsome
    | some r => exact hopened t r hreply ⟨by simpa using hsome, hhttp, by simpa using hstatus⟩
  | linux =>
    refine (exchange_ensures (fun _ ht => ht.read _) hpart).mono ?_
    rintro - t - ⟨reply, ⟨hsome, hhttp, hstatus⟩, hreply⟩
    cases reply with
    | none => cases hsome
    | some r => exact hopened t r hreply ⟨by simpa using hsome, hhttp, by simpa using hstatus⟩

/-- Whatever the proxy sends and whichever calls fail, the handshake asks for the destination only,
and succeeds only when the proxy has agreed. -/
theorem handshake_ensures (pf : Platform) (setup : Setup) (dest : Ip × Port)
    (proxy : Segmented Byte) :
    Ensures Answers (Underway pf setup dest proxy.contents)
      (fun _ t => Opened pf setup dest proxy t)
      (handshake pf setup dest) ⟨proxy, []⟩ := by
  unfold handshake
  split
  · next htype =>
    cases pf with
    | windows => exact socks5_ensures _ (windows_actsOnChoice _) htype proxy
    | linux => exact socks5_ensures _ (linux_actsOnChoice _) htype proxy
  · next htype => exact http_ensures htype proxy

end Handshakes

end ProxyTun.ConnectionHandler
