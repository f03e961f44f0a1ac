import ProxyTun.MacOS.ProxyHandshake
import ProxyTun.MacOS.Relay
import ProxyTun.Tunnel.Socks5Connect

/-!
# Transparency of the macOS tunnel

What the last read of a handshake takes behind the reply of the proxy is not relayed. The tunnel
is transparent exactly when that read returns the reply and nothing else.
-/
namespace ProxyTun.MacOS
open Library Library.Code Exchange

/-- The handshake succeeds on the stream that the proxy sends, and the relay then writes to the
client exactly `tunnel`. -/
def Transparent (handshake : Exchange Unit) (stream : Segmented Byte) (tunnel : List Byte) :
    Prop :=
  ∃ connection, handshake.Yields ⟨stream, []⟩ () connection ∧
    relayData.Forwards connection.incoming tunnel

theorem transparent_iff (handshake : Exchange Unit) (stream : Segmented Byte)
    (tunnel : List Byte) :
    Transparent handshake stream tunnel ↔
      ∃ connection, handshake.Yields ⟨stream, []⟩ () connection ∧
        connection.incoming.contents = tunnel := by
  simp only [Transparent, TransferLoop.forwards_iff]

theorem handleHTTPProxy_yields (sys : Foundation) (login : Login) (destination : CStr)
    (port : Port) (s t : ProxySocket) :
    (handleHTTPProxy sys login destination port).Yields s () t ↔
      (∃ response, decodeUtf8 (s.incoming.recv 8192).1 = some response ∧
        sys.contains response "200".toList = true) ∧
      t = ⟨(s.incoming.recv 8192).2, s.outgoing ++ utf8 (httpRequest login destination port)⟩ := by
  simp only [handleHTTPProxy, write_bind_yields, read_bind_yields, Option.bind_some,
    Segmented.recvAtLeast_one]
  cases hdecoded : decodeUtf8 (s.incoming.recv 8192).1 with
  | none => simp
  | some response => simp

theorem utf8Encode_of_decode {data : List Byte} {text : CStr} (h : decodeUtf8 data = some text) :
    text.utf8Encode = (data.map UInt8.ofBitVec).toByteArray := by
  obtain ⟨chars, hchars, rfl⟩ := Option.map_eq_some_iff.mp h
  have hsome : (data.map UInt8.ofBitVec).toByteArray.utf8Decode?.isSome = true := by simp [hchars]
  have hget := ByteArray.utf8Encode_get_utf8Decode? (h := hsome)
  simpa only [hchars, Option.get_some] using hget

theorem isPrefix_of_decode {front text : CStr} {rest : List Byte}
    (h : decodeUtf8 (utf8 front ++ rest) = some text) : front <+: text := by
  apply List.isPrefix_of_utf8Encode_append_eq_utf8Encode (rest.map UInt8.ofBitVec).toByteArray
  have hbytes : (utf8 front).map UInt8.ofBitVec = front.flatMap String.utf8EncodeChar := by
    rw [utf8, List.map_map]
    exact List.map_id _
  rw [utf8Encode_of_decode h, List.map_append, hbytes, List.toByteArray_append, List.utf8Encode]

theorem utf8_of_ascii {text : CStr} (h : ∀ c ∈ text, c.toNat < 128) : utf8 text = bytesOf text := by
  induction text with
  | nil => rfl
  | cons c text ih =>
    have hsize : c.utf8Size = 1 := by
      rw [Char.utf8Size_eq_one_iff]
      exact Nat.le_of_lt_succ (h c List.mem_cons_self)
    have hhead : utf8 [c] = bytesOf [c] := by
      have hbyte : c.toUInt8.toBitVec = BitVec.ofNat 8 c.toNat := by
        apply BitVec.eq_of_toNat_eq
        rw [BitVec.toNat_ofNat]
        exact UInt32.toNat_toUInt8 c.val
      simp [utf8, bytesOf, String.utf8EncodeChar_eq_singleton hsize, hbyte]
    have htail := ih fun d hd => h d (List.mem_cons_of_mem _ hd)
    calc
      utf8 (c :: text) = utf8 [c] ++ utf8 text := by simp [utf8]
      _ = bytesOf (c :: text) := by rw [hhead, htail]; rfl

/-- The text of a header block that is valid UTF-8 starts with its status line. -/
theorem contains_of_header (sys : Foundation) {header : List Byte} (h : IsOkHeader header)
    {response : CStr} (hdecoded : decodeUtf8 header = some response) :
    sys.contains response "200".toList = true := by
  obtain ⟨minor, hminor, next, hnext, rest, rfl⟩ := h.statusLine
  obtain ⟨digit, hdigit, rfl⟩ := List.mem_map.mp hminor
  obtain ⟨separator, hseparator, rfl⟩ := List.mem_map.mp hnext
  have hends : ∀ c ∈ " \r".toList, c.toNat < 128 := by simp
  have hascii : ∀ c ∈ "HTTP/1.".toList ++ digit :: (" 200".toList ++ [separator]),
      c.toNat < 128 := by
    have hdigits : ∀ c ∈ "0123456789".toList, c.toNat < 128 := by simp
    have htext : ∀ c ∈ "HTTP/1.".toList ++ " 200".toList, c.toNat < 128 := by simp
    intro c hc
    rcases List.mem_append.mp hc with hc | hc
    · exact htext c (List.mem_append_left _ hc)
    rcases List.mem_cons.mp hc with rfl | hc
    · exact hdigits c hdigit
    rcases List.mem_append.mp hc with hc | hc
    · exact htext c (List.mem_append_right _ hc)
    · rw [List.mem_singleton.mp hc]
      exact hends separator hseparator
  have hfront : utf8 ("HTTP/1.".toList ++ digit :: (" 200".toList ++ [separator])) ++ rest =
      bytesOf "HTTP/1.".toList ++ BitVec.ofNat 8 digit.toNat :: bytesOf " 200".toList ++
        BitVec.ofNat 8 separator.toNat :: rest := by
    rw [utf8_of_ascii hascii, bytesOf, List.map_append, List.map_cons]
    rfl
  rw [← hfront] at hdecoded
  obtain ⟨behind, rfl⟩ := isPrefix_of_decode hdecoded
  have hhead : ∀ c ∈ (separator :: behind).head?, c.toNat < 128 := by
    intro c hc
    cases hc
    exact hends separator hseparator
  exact @Characters.contains_of_isNumber sys.toCharacters _ isNumber_200 ' ' (by decide)
    ("HTTP/1.".toList ++ [digit]) _ hhead

theorem decodeUtf8_utf8 (text : CStr) : decodeUtf8 (utf8 text) = some text := by
  have hbytes : ((utf8 text).map UInt8.ofBitVec).toByteArray = text.utf8Encode := by
    rw [utf8, List.map_map, List.utf8Encode]
    exact congrArg List.toByteArray (List.map_id _)
  rw [decodeUtf8, hbytes, List.utf8Decode?_utf8Encode]
  simp

/-- For every cut of a stream that starts with the header block of a 200 response, the tunnel
is transparent exactly when the header block is valid UTF-8 and the read returns exactly it. -/
theorem http_transparent_iff (sys : Foundation) (login : Login) (destination : CStr) (port : Port)
    {stream : Segmented Byte} {header tunnel : List Byte} (hheader : IsOkHeader header)
    (hstream : stream.contents = header ++ tunnel) :
    Transparent (handleHTTPProxy sys login destination port) stream tunnel ↔
      (decodeUtf8 header).isSome = true ∧ (stream.recv 8192).1 = header := by
  simp only [transparent_iff, handleHTTPProxy_yields]
  constructor
  · rintro ⟨_, ⟨⟨response, hdecoded, -⟩, rfl⟩, hrest⟩
    have hread := (Segmented.recv_eq_iff hstream).mpr hrest
    rw [hread] at hdecoded
    exact ⟨by rw [hdecoded]; rfl, hread⟩
  · rintro ⟨hvalid, hread⟩
    obtain ⟨response, hdecoded⟩ := Option.isSome_iff_exists.mp hvalid
    exact ⟨_, ⟨⟨response, by rw [hread, hdecoded], contains_of_header sys hheader hdecoded⟩, rfl⟩,
      (Segmented.recv_eq_iff hstream).mp hread⟩

/-- The request can carry the destination: as an address, or as a name of at most 255
characters. -/
def Encodable (sys : Foundation) (destination : CStr) : Prop :=
  (sys.ipv4Address destination).isSome ∨ (sys.ipv6Address destination).isSome ∨
    sys.count destination ≤ 255

def requestAddress (sys : Foundation) (destination : CStr) : List Byte :=
  match sys.ipv4Address destination, sys.ipv6Address destination with
  | some octets, _ => 1 :: octets
  | none, some octets => 4 :: octets
  | none, none => 3 :: BitVec.ofNat 8 (sys.count destination) :: utf8 destination

theorem address_bind_yields {sys : Foundation} {α : Type} {s t : ProxySocket} {a : α}
    (destination : CStr) (f : List Byte → Exchange α) :
    (destinationAddress sys destination >>= f).Yields s a t ↔
      Encodable sys destination ∧ (f (requestAddress sys destination)).Yields s a t := by
  unfold destinationAddress requestAddress Encodable
  cases sys.ipv4Address destination with
  | some octets => simp [Code.yields_bind]
  | none =>
    cases sys.ipv6Address destination with
    | some octets => simp [Code.yields_bind]
    | none => simp [Code.yields_bind, uint8, and_assoc]

/-- What a proxy sends that accepts the client and the command. -/
structure Success (login : Login) where
  wantsLogin : Bool
  offered : wantsLogin = true → login.isGiven = true
  bound : Socks5.BoundAddress
  port : Port

namespace Success

variable {login : Login}

def choice (x : Success login) : List Byte := [5, if x.wantsLogin then 2 else 0]

def consent (x : Success login) : List Byte := if x.wantsLogin then [1, 0] else []

def reply (x : Success login) : List Byte :=
  [5, 0, 0] ++ x.bound.encode ++ [x.port.extractLsb' 8 8, x.port.extractLsb' 0 8]

def transcript (x : Success login) : List Byte := x.choice ++ x.consent ++ x.reply

/-- The login and the destination fit into their requests. -/
def Fits (sys : Foundation) (destination : CStr) (x : Success login) : Prop :=
  (x.wantsLogin = true → sys.count (login.username.getD []) ≤ 255 ∧
    sys.count (login.password.getD []) ≤ 255) ∧ Encodable sys destination

def behindConsent (x : Success login) (stream : Segmented Byte) : Segmented Byte :=
  if x.wantsLogin then ((stream.recvAtLeast 2 2).2.recvAtLeast 2 2).2
  else (stream.recvAtLeast 2 2).2

end Success

variable {sys : Foundation} {login : Login} {stream : Segmented Byte} {tunnel : List Byte}

theorem connect_leaves_iff (sys : Foundation) (x : Success login) (destination : CStr) (port : Port)
    (out : List Byte) (hstream : stream.contents = x.reply ++ tunnel) :
    (∃ t, (sendSOCKS5ConnectRequest sys destination port).Yields ⟨stream, out⟩ () t ∧
        t.incoming.contents = tunnel) ↔
      Encodable sys destination ∧ 10 ≤ x.reply.length ∧
        (stream.recvAtLeast 10 512).1 = x.reply := by
  simp only [sendSOCKS5ConnectRequest, address_bind_yields, write_bind_yields, read_bind_yields,
    require_yields, Option.any_some, Bool.and_eq_true, decide_eq_true_eq]
  constructor
  · rintro ⟨_, ⟨hencodable, ⟨hlength, -⟩, rfl⟩, hrest⟩
    have hread := (Segmented.recvAtLeast_eq_iff hstream).mpr hrest
    rw [hread] at hlength
    exact ⟨hencodable, hlength, hread⟩
  · rintro ⟨hencodable, hlength, hread⟩
    refine ⟨_, ⟨hencodable, ⟨by rw [hread]; exact hlength, by rw [hread]; rfl⟩, rfl⟩, ?_⟩
    exact (Segmented.recvAtLeast_eq_iff hstream).mp hread

def loginRequest (sys : Foundation) (username password : CStr) : List Byte :=
  1 :: BitVec.ofNat 8 (sys.count username) :: utf8 username ++
    BitVec.ofNat 8 (sys.count password) :: utf8 password

theorem auth_bind_yields {s t : ProxySocket} (username password : CStr)
    (f : Unit → Exchange Unit) :
    Yields (sendSOCKS5Auth sys username password >>= f) s () t ↔
      (sys.count username ≤ 255 ∧ sys.count password ≤ 255) ∧
        ((s.incoming.recvAtLeast 2 2).1.length = 2 ∧
          (s.incoming.recvAtLeast 2 2).1.getD 1 1 = 0) ∧
        (f ()).Yields ⟨(s.incoming.recvAtLeast 2 2).2,
          s.outgoing ++ loginRequest sys username password⟩ () t := by
  have hauth (r : ProxySocket) : (sendSOCKS5Auth sys username password).Yields s () r ↔
      (sys.count username ≤ 255 ∧ sys.count password ≤ 255) ∧
        ((s.incoming.recvAtLeast 2 2).1.length = 2 ∧
          (s.incoming.recvAtLeast 2 2).1.getD 1 1 = 0) ∧
        r = ⟨(s.incoming.recvAtLeast 2 2).2,
          s.outgoing ++ loginRequest sys username password⟩ := by
    simp only [sendSOCKS5Auth, uint8_bind_yields, write_bind_yields, read_bind_yields,
      require_yields, Option.any_some, Bool.and_eq_true, decide_eq_true_eq, loginRequest,
      and_assoc]
  constructor
  · intro h
    obtain ⟨⟨⟩, r, hr, hf⟩ := (Code.yields_bind answer _ f s t ()).mp h
    obtain ⟨hcounts, hreply, rfl⟩ := (hauth r).mp hr
    exact ⟨hcounts, hreply, hf⟩
  · rintro ⟨hcounts, hreply, hf⟩
    exact (Code.yields_bind answer _ f s t ()).mpr
      ⟨(), _, (hauth _).mpr ⟨hcounts, hreply, rfl⟩, hf⟩

/-- The handshake leaves exactly the tunnel's bytes when the requests fit and the last read
returns exactly the reply to CONNECT. -/
theorem socks5_leaves_iff (x : Success login) (destination : CStr) (port : Port)
    (hstream : stream.contents = x.transcript ++ tunnel) :
    (∃ t, (handleSOCKS5Proxy sys login destination port).Yields ⟨stream, []⟩ () t ∧
        t.incoming.contents = tunnel) ↔
      x.Fits sys destination ∧ 10 ≤ x.reply.length ∧
        ((x.behindConsent stream).recvAtLeast 10 512).1 = x.reply := by
  have hchoice : stream.contents = x.choice ++ (x.consent ++ (x.reply ++ tunnel)) := by
    rw [hstream, Success.transcript]
    simp only [List.append_assoc]
  have hread : (stream.recvAtLeast 2 2).1 = x.choice := Segmented.recvAtLeast_exact hchoice
  have hrest := (Segmented.recvAtLeast_eq_iff hchoice).mp hread
  simp only [handleSOCKS5Proxy, write_bind_yields, read_bind_yields, require_bind_yields,
    Option.any_some, Option.getD_some, hread]
  cases hlogin : x.wantsLogin with
  | false =>
    have hmethod : x.choice = [5, 0] := by rw [Success.choice, hlogin]; rfl
    have hconsent : x.consent = [] := by rw [Success.consent, hlogin]; rfl
    have hbehind : x.behindConsent stream = (stream.recvAtLeast 2 2).2 := by
      rw [Success.behindConsent, hlogin]; rfl
    rw [hconsent, List.nil_append] at hrest
    have hconnect := connect_leaves_iff sys x destination port (greeting login) hrest
    simp only [hmethod, hbehind, Success.Fits, hlogin]
    simpa using hconnect
  | true =>
    have hmethod : x.choice = [5, 2] := by rw [Success.choice, hlogin]; rfl
    have hconsent : x.consent = [1, 0] := by rw [Success.consent, hlogin]; rfl
    have hbehind : x.behindConsent stream =
        ((stream.recvAtLeast 2 2).2.recvAtLeast 2 2).2 := by
      rw [Success.behindConsent, hlogin]; rfl
    rw [hconsent] at hrest
    have hread' : ((stream.recvAtLeast 2 2).2.recvAtLeast 2 2).1 = [1, 0] :=
      Segmented.recvAtLeast_exact hrest
    have hrest' := (Segmented.recvAtLeast_eq_iff hrest).mp hread'
    have hconnect := connect_leaves_iff sys x destination port
      (greeting login ++ loginRequest sys (login.username.getD []) (login.password.getD [])) hrest'
    simp only [hmethod, hbehind, Success.Fits, hlogin, and_assoc]
    rw [← hconnect]
    simp [auth_bind_yields, hread', and_assoc, exists_and_left]

/-- What a proxy sends that accepts the tunnel. -/
inductive Acceptance (login : Login) where
  | http (header : List Byte) (isOk : IsOkHeader header)
  | socks5 (success : Success login)

namespace Acceptance

variable {login : Login}

def transcript : Acceptance login → List Byte
  | .http header _ => header
  | .socks5 success => success.transcript

def handshake (sys : Foundation) (destination : CStr) (port : Port) :
    Acceptance login → Exchange Unit
  | .http _ _ => handleHTTPProxy sys login destination port
  | .socks5 _ => handleSOCKS5Proxy sys login destination port

/-- The last read returns exactly the end of the transcript, which is text where the extension
asks for text and long enough where it asks for a length, and the requests before it fit. -/
def Taken (sys : Foundation) (destination : CStr) (stream : Segmented Byte) :
    Acceptance login → Prop
  | .http header _ => (decodeUtf8 header).isSome = true ∧ (stream.recv 8192).1 = header
  | .socks5 success => success.Fits sys destination ∧ 10 ≤ success.reply.length ∧
      ((success.behindConsent stream).recvAtLeast 10 512).1 = success.reply

end Acceptance

/-- For every conforming transcript of the proxy and every cut of its stream, the tunnel is
transparent exactly when the last read of the handshake returns exactly what is left of the
transcript. -/
theorem tunnel_transparent_iff (sys : Foundation) (destination : CStr) (port : Port)
    {login : Login} (x : Acceptance login) {stream : Segmented Byte} {tunnel : List Byte}
    (hstream : stream.contents = x.transcript ++ tunnel) :
    Transparent (x.handshake sys destination port) stream tunnel ↔
      x.Taken sys destination stream := by
  cases x with
  | http header isOk => exact http_transparent_iff sys login destination port isOk hstream
  | socks5 success =>
    rw [transparent_iff]
    exact socks5_leaves_iff success destination port hstream

/-- A system for which every text is a host name of single-byte characters. -/
def hostNames : Foundation where
  toCharacters := simpleCharacters
  ipv4Address := fun _ => none
  ipv6Address := fun _ => none
  length_ipv4Address := fun _ _ h => by cases h
  length_ipv6Address := fun _ _ h => by cases h

def noLogin : Login := ⟨none, none⟩

def boundToIpv6 : Success noLogin :=
  ⟨false, nofun, ProxyTun.boundToIpv6.bound, 1080⟩

theorem tunnel_of_own_pieces :
    Transparent (handleHTTPProxy hostNames noLogin "example.org".toList 443)
        (.ofParts [establishedHeader, tunnelBytes]) tunnelBytes ∧
      Transparent (handleSOCKS5Proxy hostNames noLogin "example.org".toList 443)
        (.ofParts [boundToIpv6.choice, boundToIpv6.reply, tunnelBytes]) tunnelBytes :=
  ⟨(tunnel_transparent_iff hostNames "example.org".toList 443
      (.http establishedHeader isOkHeader_established : Acceptance noLogin)
      (Segmented.contents_ofParts _)).mpr
      ⟨Option.isSome_iff_exists.mpr ⟨_, decodeUtf8_utf8 "HTTP/1.1 200 OK\r\n\r\n".toList⟩,
        by decide⟩,
    (tunnel_transparent_iff hostNames "example.org".toList 443 (.socks5 boundToIpv6)
      (Segmented.contents_ofParts _)).mpr
      ⟨⟨by decide, .inr (.inr (by decide))⟩, by decide, by decide⟩⟩

/-- The first bytes of the tunnel arrive with the end of the reply and are lost. -/
theorem tunnel_loses_front :
    (Segmented.ofParts [establishedHeader ++ tunnelBytes]).contents =
        establishedHeader ++ tunnelBytes ∧
      ¬ Transparent (handleHTTPProxy hostNames noLogin "example.org".toList 443)
        (.ofParts [establishedHeader ++ tunnelBytes]) tunnelBytes ∧
      (Segmented.ofParts [boundToIpv6.choice, boundToIpv6.reply ++ tunnelBytes]).contents =
        boundToIpv6.transcript ++ tunnelBytes ∧
      ¬ Transparent (handleSOCKS5Proxy hostNames noLogin "example.org".toList 443)
        (.ofParts [boundToIpv6.choice, boundToIpv6.reply ++ tunnelBytes]) tunnelBytes := by
  have hhttp : (Segmented.ofParts [establishedHeader ++ tunnelBytes]).contents =
      establishedHeader ++ tunnelBytes := by decide
  have hsocks5 : (Segmented.ofParts [boundToIpv6.choice,
      boundToIpv6.reply ++ tunnelBytes]).contents = boundToIpv6.transcript ++ tunnelBytes := by
    decide
  refine ⟨hhttp, ?_, hsocks5, ?_⟩
  · rw [http_transparent_iff hostNames noLogin _ _ isOkHeader_established hhttp]
    exact fun h => absurd h.2 (by decide)
  · rw [transparent_iff, socks5_leaves_iff boundToIpv6 _ _ hsocks5]
    exact fun h => absurd h.2.2 (by decide)

end ProxyTun.MacOS
