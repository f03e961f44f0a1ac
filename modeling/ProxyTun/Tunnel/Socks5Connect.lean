import ProxyTun.Tunnel.Handshake

/-!
# The CONNECT command to a SOCKS5 proxy

`socks5_connect` reads each reply of the proxy with one `recv`, the last of them with ten
bytes, whatever the type of the address in it. The tunnel is transparent exactly when each
`recv` returns one whole reply and the last reply has ten bytes.
-/
namespace ProxyTun
open Library Handshake

namespace Socks5

/-- The methods on offer: none, and user name with password if there are credentials. -/
def methodOffer (creds : Credentials) : List Byte :=
  if creds.useAuth then [5, 2, 0, 2] else [5, 1, 0]

/-- The request of RFC 1929, with each length in one byte. -/
def loginRequest (creds : Credentials) : List Byte :=
  1 :: BitVec.ofNat 8 creds.username.length :: bytesOf creds.username ++
    BitVec.ofNat 8 creds.password.length :: bytesOf creds.password

def connectRequest (dest : Ip × Port) : List Byte :=
  [5, 1, 0, 1, octet dest.1 0, octet dest.1 1, octet dest.1 2, octet dest.1 3,
    dest.2.extractLsb' 8 8, dest.2.extractLsb' 0 8]

/-- The messages of an engine. -/
structure Messages where
  offerFailed : CStr
  invalidChoice : CStr
  loginFailed : CStr
  loginRefused : CStr
  requestFailed : CStr
  refused (reply : Option (List Byte)) : CStr

def replyCode (reply : Option (List Byte)) : ℤ :=
  match reply with
  | some (_ :: code :: _) => code.toNat
  | _ => -1

/-- Login with user name and password. -/
def login (m : Messages) (creds : Credentials) : Handshake Unit := do
  sendAll (loginRequest creds) m.loginFailed
  let reply ← recv 2
  check (reply = some [1, 0]) m.loginRefused

/-- `socks5_connect`, given what follows the proxy's choice of a method. -/
def connect (m : Messages) (negotiate : Byte → Handshake Unit) (creds : Credentials)
    (dest : Ip × Port) : Handshake Unit := do
  sendAll (methodOffer creds) m.offerFailed
  let choice ← recv 2
  check (choice.any fun r => r.length = 2 && r.head? = some 5) m.invalidChoice
  negotiate ((choice.getD []).getD 1 0)
  sendAll (connectRequest dest) m.requestFailed
  let reply ← recv 10
  check (reply.any fun r => 10 ≤ r.length && r.take 2 = [5, 0]) (m.refused reply)

end Socks5

namespace Windows

def socks5Messages : Socks5.Messages where
  offerFailed := "SOCKS5: Failed to send auth methods".toList
  invalidChoice := "SOCKS5: Invalid auth response".toList
  loginFailed := "SOCKS5: Failed to send credentials".toList
  loginRefused := "SOCKS5: Authentication failed".toList
  requestFailed := "SOCKS5: Failed to send CONNECT".toList
  refused reply := "SOCKS5: CONNECT failed (reply=".toList ++
    signedDecimal (Socks5.replyCode reply) ++ ")".toList

/-- A byte as `%02X` prints it. -/
def hexByte (b : Byte) : CStr :=
  ((Nat.toDigits 16 (b.toNat / 16)) ++ (Nat.toDigits 16 (b.toNat % 16))).map Char.toUpper

/-- The lengths are checked although the credentials are stored with at most 255 characters. -/
def negotiate (creds : Credentials) (method : Byte) : Handshake Unit :=
  if method = 2 then do
    check creds.useAuth
      "SOCKS5: Server requires authentication but no credentials provided".toList
    check (creds.username.length ≤ 255 && creds.password.length ≤ 255)
      "SOCKS5: Username or password too long".toList
    Socks5.login socks5Messages creds
  else check (method = 0) ("SOCKS5: Unsupported auth method: 0x".toList ++ hexByte method)

def socks5Connect (creds : Credentials) (dest : Ip × Port) : Handshake Unit :=
  Socks5.connect socks5Messages (negotiate creds) creds dest

end Windows

namespace Linux

def socks5Messages : Socks5.Messages where
  offerFailed := "socks5 failed to send auth methods".toList
  invalidChoice := "socks5 invalid auth response".toList
  loginFailed := "socks5 failed to send credentials".toList
  loginRefused := "socks5 authentication failed".toList
  requestFailed := "socks5 failed to send connect request".toList
  refused reply := "socks5 connect failed status ".toList ++
    signedDecimal (Socks5.replyCode reply)

def negotiate (creds : Credentials) (method : Byte) : Handshake Unit :=
  if method = 2 && creds.useAuth then Socks5.login socks5Messages creds
  else check (method = 0) "socks5 unsupported auth method".toList

def socks5Connect (creds : Credentials) (dest : Ip × Port) : Handshake Unit :=
  Socks5.connect socks5Messages (negotiate creds) creds dest

end Linux

def socks5Connect : Platform → Credentials → Ip × Port → Handshake Unit
  | .windows => Windows.socks5Connect
  | .linux => Linux.socks5Connect

namespace Socks5

/-- The address that the proxy has bound, as it stands in the reply to CONNECT. -/
inductive BoundAddress where
  | ipv4 (a b c d : Byte)
  | domain (name : List Byte) (length_le : name.length ≤ 255)
  | ipv6 (octets : List Byte) (length_eq : octets.length = 16)

def BoundAddress.encode : BoundAddress → List Byte
  | .ipv4 a b c d => [1, a, b, c, d]
  | .domain name _ => 3 :: BitVec.ofNat 8 name.length :: name
  | .ipv6 octets _ => 4 :: octets

/-- What a proxy sends that accepts the client and the command: its choice among the methods
on offer, its consent to the login if it wants one, and its reply to CONNECT. -/
structure Success (creds : Credentials) where
  wantsLogin : Bool
  offered : wantsLogin = true → creds.useAuth = true
  bound : BoundAddress
  port : Port

namespace Success

variable {creds : Credentials}

def choice (x : Success creds) : List Byte := [5, if x.wantsLogin then 2 else 0]

def consent (x : Success creds) : List Byte := if x.wantsLogin then [1, 0] else []

def reply (x : Success creds) : List Byte :=
  [5, 0, 0] ++ x.bound.encode ++ [x.port.extractLsb' 8 8, x.port.extractLsb' 0 8]

def transcript (x : Success creds) : List Byte := x.choice ++ x.consent ++ x.reply

/-- The reads of the client with what they should return. -/
def reads (x : Success creds) : List (ℕ × List Byte) :=
  if x.wantsLogin then [(2, x.choice), (2, x.consent), (10, x.reply)]
  else [(2, x.choice), (10, x.reply)]

end Success

/-- What both engines do about the proxy's choice: they go on without a login, or log in if
they have credentials. -/
def Negotiates (creds : Credentials) (negotiate : Byte → Handshake Unit) : Prop :=
  ∀ method s t, (negotiate method).Yields s () t ↔
    method = 0 ∧ t = s ∨
      method = 2 ∧ creds.useAuth = true ∧ (s.incoming.recv 2).1 = [1, 0] ∧
        t = ⟨(s.incoming.recv 2).2, s.outgoing ++ loginRequest creds⟩

theorem login_yields (m : Messages) (creds : Credentials) (s t : ProxySocket) :
    (login m creds).Yields s () t ↔ (s.incoming.recv 2).1 = [1, 0] ∧
      t = ⟨(s.incoming.recv 2).2, s.outgoing ++ loginRequest creds⟩ := by
  simp only [login, sendAll_bind_yields, recv_bind_yields, yields_check, decide_eq_true_eq,
    Option.some.injEq]

end Socks5

theorem Windows.negotiates (creds : Credentials) :
    Socks5.Negotiates creds (Windows.negotiate creds) := by
  intro method s t
  unfold Windows.negotiate
  by_cases hmethod : method = 2
  · have hnone : (2 : Byte) ≠ 0 := by decide
    subst hmethod
    simp only [if_true, check_bind_yields, Socks5.login_yields, creds.username_length,
      creds.password_length, decide_true, Bool.and_true, true_and, hnone, false_and, false_or]
  · simp only [hmethod, if_false, yields_check, decide_eq_true_eq, false_and, or_false]

theorem Linux.negotiates (creds : Credentials) :
    Socks5.Negotiates creds (Linux.negotiate creds) := by
  intro method s t
  unfold Linux.negotiate
  by_cases hmethod : method = 2
  · have hnone : (2 : Byte) ≠ 0 := by decide
    subst hmethod
    cases creds.useAuth
    case false =>
      simp only [decide_true, Bool.and_false, Bool.false_eq_true, if_false, yields_check,
        decide_eq_true_eq, hnone, false_and, and_false, or_false]
    case true =>
      simp only [decide_true, Bool.and_true, if_true, Socks5.login_yields, true_and, hnone,
        false_and, false_or]
  · simp only [hmethod, decide_false, Bool.false_and, Bool.false_eq_true, if_false, yields_check,
      decide_eq_true_eq, false_and, or_false]

namespace Socks5

variable {creds : Credentials} {negotiate : Byte → Handshake Unit} {stream : Segmented Byte}
  {tunnel : List Byte}

theorem connect_yields (m : Messages) (dest : Ip × Port) (s u : ProxySocket) :
    (connect m negotiate creds dest).Yields s () u ↔
      ((s.incoming.recv 2).1.length = 2 ∧ (s.incoming.recv 2).1.head? = some 5) ∧
        ∃ t, (negotiate ((s.incoming.recv 2).1.getD 1 0)).Yields
            ⟨(s.incoming.recv 2).2, s.outgoing ++ methodOffer creds⟩ () t ∧
          (10 ≤ (t.incoming.recv 10).1.length ∧ (t.incoming.recv 10).1.take 2 = [5, 0]) ∧
            u = ⟨(t.incoming.recv 10).2, t.outgoing ++ connectRequest dest⟩ := by
  simp only [connect, sendAll_bind_yields, recv_bind_yields, check_bind_yields, Option.any_some,
    Option.getD_some, Bool.and_eq_true, decide_eq_true_eq]
  rw [bind_yields]
  simp only [sendAll_bind_yields, recv_bind_yields, yields_check, Option.any_some,
    Bool.and_eq_true, decide_eq_true_eq]

/-- The last read: it succeeds with the tunnel's bytes left exactly when it returns a reply of
ten bytes. -/
theorem reply_read_iff (x : Success creds) (hstream : stream.contents = x.reply ++ tunnel) :
    ((10 ≤ (stream.recv 10).1.length ∧ (stream.recv 10).1.take 2 = [5, 0]) ∧
        (stream.recv 10).2.contents = tunnel) ↔
      (stream.recv 10).1 = x.reply ∧ x.reply.length = 10 := by
  rw [← Segmented.recv_eq_iff hstream]
  have hle := Segmented.length_recv_le 10 stream
  constructor
  · rintro ⟨⟨hlength, -⟩, hread⟩
    rw [hread] at hlength hle
    exact ⟨hread, by omega⟩
  · rintro ⟨hread, hlength⟩
    rw [hread]
    exact ⟨⟨by omega, rfl⟩, rfl⟩

/-- The first read: it passes its check exactly when it returns the proxy's choice. -/
theorem choice_read_iff (x : Success creds) {rest : List Byte}
    (hstream : stream.contents = x.choice ++ rest) :
    ((stream.recv 2).1.length = 2 ∧ (stream.recv 2).1.head? = some 5) ↔
      (stream.recv 2).1 = x.choice := by
  constructor
  · intro h
    exact Segmented.recv_eq_of_length hstream h.1
  · intro h
    rw [h]
    exact ⟨rfl, rfl⟩

theorem rest_read_iff (h : Negotiates creds negotiate) (x : Success creds) (out : List Byte)
    (hstream : stream.contents = x.consent ++ (x.reply ++ tunnel)) :
    (∃ t, (negotiate (x.choice.getD 1 0)).Yields ⟨stream, out⟩ () t ∧
        (10 ≤ (t.incoming.recv 10).1.length ∧ (t.incoming.recv 10).1.take 2 = [5, 0]) ∧
        (t.incoming.recv 10).2.contents = tunnel) ↔
      stream.Returns (x.reads.drop 1) ∧ x.reply.length = 10 := by
  cases hlogin : x.wantsLogin with
  | false =>
    have hnone : (0 : Byte) ≠ 2 := by decide
    have hmethod : x.choice.getD 1 0 = 0 := by rw [Success.choice, hlogin]; rfl
    have hconsent : x.consent = [] := by rw [Success.consent, hlogin]; rfl
    have hreads : x.reads.drop 1 = [(10, x.reply)] := by rw [Success.reads, hlogin]; rfl
    rw [hconsent, List.nil_append] at hstream
    simp only [hmethod, h _ _ _, hnone, true_and, false_and, or_false, exists_eq_left, hreads,
      Segmented.Returns, and_true]
    exact reply_read_iff x hstream
  | true =>
    have hnone : (2 : Byte) ≠ 0 := by decide
    have hmethod : x.choice.getD 1 0 = 2 := by rw [Success.choice, hlogin]; rfl
    have hconsent : x.consent = [1, 0] := by rw [Success.consent, hlogin]; rfl
    have hreads : x.reads.drop 1 = [(2, [1, 0]), (10, x.reply)] := by
      rw [Success.reads, hlogin, hconsent]; rfl
    rw [hconsent] at hstream
    simp only [hmethod, h _ _ _, hnone, x.offered hlogin, true_and, false_and, false_or, hreads,
      Segmented.Returns, and_true]
    constructor
    · rintro ⟨t, ⟨hread, rfl⟩, hreply⟩
      have hrest := (reply_read_iff x ((Segmented.recv_eq_iff hstream).mp hread)).mp hreply
      exact ⟨⟨hread, hrest.1⟩, hrest.2⟩
    · rintro ⟨⟨hread, hreply⟩, hlength⟩
      exact ⟨_, ⟨hread, rfl⟩,
        (reply_read_iff x ((Segmented.recv_eq_iff hstream).mp hread)).mpr ⟨hreply, hlength⟩⟩

/-- The handshake leaves exactly the tunnel's bytes when each read returns one whole reply and
the reply to CONNECT has ten bytes. -/
theorem connect_leaves_iff (m : Messages) (dest : Ip × Port) (h : Negotiates creds negotiate)
    (x : Success creds) (hstream : stream.contents = x.transcript ++ tunnel) :
    (∃ u, (connect m negotiate creds dest).Yields ⟨stream, []⟩ () u ∧
        u.incoming.contents = tunnel) ↔
      stream.Returns x.reads ∧ x.reply.length = 10 := by
  have hchoice : stream.contents = x.choice ++ (x.consent ++ (x.reply ++ tunnel)) := by
    rw [hstream, Success.transcript]
    simp only [List.append_assoc]
  have hreads : stream.Returns x.reads ↔
      (stream.recv 2).1 = x.choice ∧ (stream.recv 2).2.Returns (x.reads.drop 1) := by
    unfold Success.reads
    split <;> rfl
  rw [hreads, and_assoc]
  simp only [connect_yields, choice_read_iff x hchoice]
  constructor
  · rintro ⟨u, ⟨hread, t, hneg, hreply, rfl⟩, hrest⟩
    rw [hread] at hneg
    exact ⟨hread, (rest_read_iff h x _ ((Segmented.recv_eq_iff hchoice).mp hread)).mp
      ⟨t, hneg, hreply, hrest⟩⟩
  · rintro ⟨hread, hafter⟩
    obtain ⟨t, hneg, hreply, hrest⟩ :=
      (rest_read_iff h x (methodOffer creds) ((Segmented.recv_eq_iff hchoice).mp hread)).mpr hafter
    rw [← hread] at hneg
    exact ⟨_, ⟨hread, t, hneg, hreply, rfl⟩, hrest⟩

end Socks5

/-- `socks5_connect` of both engines leaves exactly the tunnel's bytes on the same streams. -/
theorem socks5Connect_leaves_iff (pf : Platform) (creds : Credentials) (dest : Ip × Port)
    (x : Socks5.Success creds) {stream : Segmented Byte} {tunnel : List Byte}
    (hstream : stream.contents = x.transcript ++ tunnel) :
    (∃ u, (socks5Connect pf creds dest).Yields ⟨stream, []⟩ () u ∧
        u.incoming.contents = tunnel) ↔
      stream.Returns x.reads ∧ x.reply.length = 10 := by
  cases pf
  case windows => exact Socks5.connect_leaves_iff _ dest (Windows.negotiates creds) x hstream
  case linux => exact Socks5.connect_leaves_iff _ dest (Linux.negotiates creds) x hstream

/-- For every conforming transcript of the proxy and every cut of its stream, the tunnel is
transparent exactly when each `recv` returns one whole reply and the reply to CONNECT has ten
bytes. -/
theorem socks5_tunnel_transparent_iff (pf : Platform) (creds : Credentials) (dest : Ip × Port)
    (x : Socks5.Success creds) {stream : Segmented Byte} {tunnel : List Byte}
    (hstream : stream.contents = x.transcript ++ tunnel) :
    Transparent pf (socks5Connect pf creds dest) stream tunnel ↔
      stream.Returns x.reads ∧ x.reply.length = 10 := by
  rw [transparent_iff]
  exact socks5Connect_leaves_iff pf creds dest x hstream

/-- Proxies without login, bound to an IPv4 and to an IPv6 address. -/
def boundToIpv4 : Socks5.Success .anonymous := ⟨false, by decide, .ipv4 127 0 0 1, 1080⟩

def boundToIpv6 : Socks5.Success .anonymous :=
  ⟨false, by decide, .ipv6 (List.replicate 16 0) (by decide), 1080⟩

/-- The choice of a method arrives in two segments. -/
def choiceInTwo : Segmented Byte := .ofParts [[5], [0], boundToIpv4.reply, [22, 3, 1]]

def repliesFor (x : Socks5.Success .anonymous) : Segmented Byte :=
  .ofParts [x.choice, x.reply, [22, 3, 1]]

/-- The choice of a method in two segments fails the handshake. Of a reply with an IPv6 address
the last twelve bytes are forwarded, even if all replies arrive whole. -/
theorem socks5_tunnel_cut :
    choiceInTwo.contents = boundToIpv4.transcript ++ [22, 3, 1] ∧
    (repliesFor boundToIpv6).contents = boundToIpv6.transcript ++ [22, 3, 1] ∧
    ¬ Transparent .windows (socks5Connect .windows .anonymous (ipv4 1 1 1 1, 443))
      choiceInTwo [22, 3, 1] ∧
    ¬ Transparent .linux (socks5Connect .linux .anonymous (ipv4 1 1 1 1, 443))
      choiceInTwo [22, 3, 1] ∧
    ¬ Transparent .windows (socks5Connect .windows .anonymous (ipv4 1 1 1 1, 443))
      (repliesFor boundToIpv6) [22, 3, 1] ∧
    ¬ Transparent .linux (socks5Connect .linux .anonymous (ipv4 1 1 1 1, 443))
      (repliesFor boundToIpv6) [22, 3, 1] := by
  have hcut : choiceInTwo.contents = boundToIpv4.transcript ++ [22, 3, 1] := by decide
  have hwhole : (repliesFor boundToIpv6).contents = boundToIpv6.transcript ++ [22, 3, 1] := by
    decide
  simp only [transparent_iff, socks5Connect_leaves_iff _ _ _ _ hcut,
    socks5Connect_leaves_iff _ _ _ _ hwhole]
  exact ⟨hcut, hwhole, by decide, by decide, by decide, by decide⟩

theorem socks5_tunnel_of_whole_replies :
    Transparent .windows (socks5Connect .windows .anonymous (ipv4 1 1 1 1, 443))
        (repliesFor boundToIpv4) [22, 3, 1] ∧
      Transparent .linux (socks5Connect .linux .anonymous (ipv4 1 1 1 1, 443))
        (repliesFor boundToIpv4) [22, 3, 1] :=
  ⟨(socks5_tunnel_transparent_iff .windows _ _ boundToIpv4 (by decide)).mpr (by decide),
    (socks5_tunnel_transparent_iff .linux _ _ boundToIpv4 (by decide)).mpr (by decide)⟩

end ProxyTun
