import Mathlib.Tactic.FinCases
import ProxyTun.Tunnel.Handshake

/-!
# The CONNECT request to an HTTP proxy

`http_connect` sends one request and reads the response with one `recv`. The tunnel is
transparent exactly when that `recv` returns the header block of the response, no less and
no more.
-/
namespace ProxyTun
open Library Handshake

/-- A digit of base 64. -/
def base64Char (n : BitVec 6) : Char :=
  "ABCDEFGHIJKLMNOPQRSTUVWXYZabcdefghijklmnopqrstuvwxyz0123456789+/".toList.getD n.toNat '='

def base64Encode : List Byte → CStr
  | a :: b :: c :: rest =>
    let n : BitVec 24 := a ++ b ++ c
    [base64Char (n.extractLsb' 18 6), base64Char (n.extractLsb' 12 6),
      base64Char (n.extractLsb' 6 6), base64Char (n.extractLsb' 0 6)] ++ base64Encode rest
  | [a, b] =>
    let n : BitVec 24 := a ++ b ++ (0 : Byte)
    [base64Char (n.extractLsb' 18 6), base64Char (n.extractLsb' 12 6),
      base64Char (n.extractLsb' 6 6), '=']
  | [a] =>
    let n : BitVec 24 := a ++ (0 : BitVec 16)
    [base64Char (n.extractLsb' 18 6), base64Char (n.extractLsb' 12 6), '=', '=']
  | [] => []

/-- The first two lines of a request. -/
def connectLines (dest : Ip × Port) : CStr :=
  let host := formatIpAddress dest.1 ++ ":".toList ++ decimal dest.2.toNat
  "CONNECT ".toList ++ host ++ " HTTP/1.1\r\nHost: ".toList ++ host ++ "\r\n".toList

def authorizationLine (creds : Credentials) : CStr :=
  if creds.useAuth then
    "Proxy-Authorization: Basic ".toList ++
      base64Encode (bytesOf (creds.username ++ ":".toList ++ creds.password)) ++ "\r\n".toList
  else []

def isHttp1 (response : CStr) : Bool := response.take 7 = "HTTP/1.".toList

namespace Windows

def connectRequest (creds : Credentials) (dest : Ip × Port) : CStr :=
  connectLines dest ++ authorizationLine creds ++ "Proxy-Connection: keep-alive\r\n\r\n".toList

def statusCode (response : CStr) : ℤ :=
  match response.dropWhile fun c => c ≠ ' ' with
  | _ :: code => atoi code
  | [] => 0

/-- The size of the buffer for the response, less one for the terminating zero. -/
def responseLimit : ℕ := 4095

def httpConnect (creds : Credentials) (dest : Ip × Port) : Handshake Unit := do
  sendAll (bytesOf (connectRequest creds dest)) "HTTP: Failed to send CONNECT request".toList
  let received ← recv responseLimit
  check (received.any fun r => r ≠ []) "HTTP: Failed to receive response".toList
  let response := cString (received.getD [])
  check (isHttp1 response) "HTTP: Invalid response format".toList
  check (statusCode response = 200)
    ("HTTP: CONNECT failed with status ".toList ++ signedDecimal (statusCode response))

end Windows

namespace Linux

def connectRequest (creds : Credentials) (dest : Ip × Port) : CStr :=
  connectLines dest ++ "Proxy-Connection: Keep-Alive\r\n".toList ++ authorizationLine creds ++
    "\r\n".toList

def statusCode (response : List Byte) : Option ℤ := scanInt (cString (response.drop 9))

def responseLimit : ℕ := 1023

def httpConnect (creds : Credentials) (dest : Ip × Port) : Handshake Unit := do
  sendAll (bytesOf (connectRequest creds dest)) "http failed to send connect".toList
  let received ← recv responseLimit
  check (received.any fun r => 12 ≤ r.length) "http invalid response".toList
  let response := received.getD []
  check (isHttp1 (cString response)) "http invalid response".toList
  check (statusCode response = some 200)
    ("http connect failed status ".toList ++ signedDecimal ((statusCode response).getD 0))

end Linux

def responseLimit : Platform → ℕ
  | .windows => Windows.responseLimit
  | .linux => Linux.responseLimit

def connectRequest : Platform → Credentials → Ip × Port → CStr
  | .windows => Windows.connectRequest
  | .linux => Linux.connectRequest

def httpConnect : Platform → Credentials → Ip × Port → Handshake Unit
  | .windows => Windows.httpConnect
  | .linux => Linux.httpConnect

/-- What the checks of `http_connect` ask of the bytes that were read. -/
def Accepts : Platform → List Byte → Prop
  | .windows, r => r ≠ [] ∧ isHttp1 (cString r) = true ∧ Windows.statusCode (cString r) = 200
  | .linux, r => 12 ≤ r.length ∧ isHttp1 (cString r) = true ∧ Linux.statusCode r = some 200

theorem httpConnect_yields (pf : Platform) (creds : Credentials) (dest : Ip × Port)
    (s t : ProxySocket) :
    (httpConnect pf creds dest).Yields s () t ↔
      Accepts pf (s.incoming.recv (responseLimit pf)).1 ∧
        t = ⟨(s.incoming.recv (responseLimit pf)).2,
          s.outgoing ++ bytesOf (connectRequest pf creds dest)⟩ := by
  cases pf
  case windows =>
    simp only [httpConnect, Windows.httpConnect, sendAll_bind_yields, recv_bind_yields,
      check_bind_yields, yields_check, Option.any_some, Option.getD_some, decide_eq_true_eq,
      Accepts, responseLimit, connectRequest, and_assoc]
  case linux =>
    simp only [httpConnect, Linux.httpConnect, sendAll_bind_yields, recv_bind_yields,
      check_bind_yields, yields_check, Option.any_some, Option.getD_some, decide_eq_true_eq,
      Accepts, responseLimit, connectRequest, and_assoc]

def crlf : List Byte := bytesOf "\r\n".toList

/-- A complete header block of a response with status 200: it ends in an empty line, and
only there. -/
structure IsOkHeader (header : List Byte) : Prop where
  statusLine : ∃ minor ∈ bytesOf "0123456789".toList, ∃ next ∈ bytesOf " \r".toList, ∃ rest,
    header = bytesOf "HTTP/1.".toList ++ minor :: bytesOf " 200".toList ++ next :: rest
  complete : crlf ++ crlf <:+ header
  first : ∀ k < header.length, ¬ crlf ++ crlf <:+ header.take k

theorem accepts_header {header : List Byte} (h : IsOkHeader header) :
    12 ≤ header.length ∧ isHttp1 (cString header) = true ∧
      Windows.statusCode (cString header) = 200 ∧ Linux.statusCode header = some 200 := by
  obtain ⟨minor, hminor, next, hnext, rest, rfl⟩ := h.statusLine
  have hdigits : bytesOf "0123456789".toList = [48, 49, 50, 51, 52, 53, 54, 55, 56, 57] := rfl
  have hends : bytesOf " \r".toList = [32, 13] := rfl
  rw [hdigits] at hminor
  rw [hends] at hnext
  have hcode : atoi (cString (bytesOf "200".toList ++ next :: rest)) = 200 ∧
      scanInt (cString (bytesOf "200".toList ++ next :: rest)) = some 200 := by
    fin_cases hnext <;> exact ⟨rfl, rfl⟩
  have hplain : minor ≠ 0#8 ∧ Char.ofNat minor.toNat ≠ ' ' := by
    fin_cases hminor <;> decide
  have hstring : cString (bytesOf "HTTP/1.".toList ++ minor :: bytesOf " 200".toList ++
      next :: rest) = "HTTP/1.".toList ++ Char.ofNat minor.toNat :: ' ' ::
        cString (bytesOf "200".toList ++ next :: rest) := by
    simp [cString, bytesOf, List.takeWhile_cons, hplain.1]
  refine ⟨by simp [bytesOf], ?_, ?_, hcode.2⟩
  · rw [hstring]
    rfl
  · rw [hstring, Windows.statusCode]
    simp only [String.reduceToList] at hcode ⊢
    simp [hplain.2, hcode.1]

/-- Through a transparent tunnel goes what the first `recv` leaves on the socket. -/
theorem unread_of_transparent {pf : Platform} {creds : Credentials} {dest : Ip × Port}
    {stream : Segmented Byte} {tunnel : List Byte}
    (h : Transparent pf (httpConnect pf creds dest) stream tunnel) :
    (stream.recv (responseLimit pf)).2.contents = tunnel := by
  obtain ⟨t, ht, hrest⟩ := (transparent_iff pf _ stream tunnel).mp h
  obtain ⟨-, rfl⟩ := (httpConnect_yields pf creds dest _ t).mp ht
  exact hrest

/-- For every cut of a stream that starts with the header block of a 200 response, the tunnel
is transparent exactly when the first `recv` returns the header block. -/
theorem http_tunnel_transparent_iff (pf : Platform) (creds : Credentials) (dest : Ip × Port)
    {stream : Segmented Byte} {header tunnel : List Byte} (hheader : IsOkHeader header)
    (hstream : stream.contents = header ++ tunnel) :
    Transparent pf (httpConnect pf creds dest) stream tunnel ↔
      (stream.recv (responseLimit pf)).1 = header := by
  rw [Segmented.recv_eq_iff hstream]
  constructor
  · exact unread_of_transparent
  · intro hrest
    have hread : (stream.recv (responseLimit pf)).1 = header :=
      (Segmented.recv_eq_iff hstream).mpr hrest
    have haccepts : Accepts pf header := by
      obtain ⟨hlength, hhttp, hwindows, hlinux⟩ := accepts_header hheader
      cases pf
      case windows => exact ⟨fun h => by simp [h] at hlength, hhttp, hwindows⟩
      case linux => exact ⟨hlength, hhttp, hlinux⟩
    rw [← hread] at haccepts
    apply (transparent_iff pf _ stream tunnel).mpr
    exact ⟨_, (httpConnect_yields pf creds dest _ _).mpr ⟨haccepts, rfl⟩, hrest⟩

/-- A header block as proxies send it. -/
def establishedHeader : List Byte := bytesOf "HTTP/1.1 200 OK\r\n\r\n".toList

theorem isOkHeader_established : IsOkHeader establishedHeader where
  statusLine := ⟨49, by decide, 32, by decide, bytesOf "OK\r\n\r\n".toList, by decide⟩
  complete := by decide
  first := by decide

/-- The first bytes of a server behind the proxy. -/
def tunnelBytes : List Byte := [22, 3, 1]

/-- With the end of the header block in a second segment its last two bytes are forwarded. With
the header block and the first bytes of the tunnel in one segment those bytes are lost. -/
theorem http_tunnel_cut :
    (∀ cut ∈ [[establishedHeader.take 17, establishedHeader.drop 17 ++ tunnelBytes],
        [establishedHeader ++ tunnelBytes]],
      (Segmented.ofParts cut).contents = establishedHeader ++ tunnelBytes ∧
      ¬ Transparent .windows (httpConnect .windows .anonymous (ipv4 1 1 1 1, 443))
        (.ofParts cut) tunnelBytes ∧
      ¬ Transparent .linux (httpConnect .linux .anonymous (ipv4 1 1 1 1, 443))
        (.ofParts cut) tunnelBytes) ∧
    IsOkHeader establishedHeader := by
  refine ⟨fun cut hcut => ?_, isOkHeader_established⟩
  fin_cases hcut <;>
  exact ⟨by decide, fun h => absurd (unread_of_transparent h) (by decide),
    fun h => absurd (unread_of_transparent h) (by decide)⟩

theorem http_tunnel_of_own_segment :
    (Segmented.ofParts [establishedHeader, tunnelBytes]).contents =
        establishedHeader ++ tunnelBytes ∧
      Transparent .windows (httpConnect .windows .anonymous (ipv4 1 1 1 1, 443))
        (.ofParts [establishedHeader, tunnelBytes]) tunnelBytes ∧
      Transparent .linux (httpConnect .linux .anonymous (ipv4 1 1 1 1, 443))
        (.ofParts [establishedHeader, tunnelBytes]) tunnelBytes :=
  ⟨Segmented.contents_ofParts _,
    (http_tunnel_transparent_iff .windows .anonymous (ipv4 1 1 1 1, 443) isOkHeader_established
      (Segmented.contents_ofParts _)).mpr (by decide),
    (http_tunnel_transparent_iff .linux .anonymous (ipv4 1 1 1 1, 443) isOkHeader_established
      (Segmented.contents_ofParts _)).mpr (by decide)⟩

end ProxyTun
