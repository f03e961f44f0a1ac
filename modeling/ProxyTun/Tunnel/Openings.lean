import ProxyTun.Library.Lines
import ProxyTun.Rules.SimpleFields
import ProxyTun.Tunnel.ConnectRequest
import ProxyTun.Tunnel.ConnectionHandler
import ProxyTun.Tunnel.Socks5Requests

/-!
# How the proxy reads a connection

The proxy reads requests from the front of what a connection sends: the methods on offer, the login
that it wants, and the command of SOCKS5, or the header block of an HTTP request. What follows them
belongs to the tunnel.
-/
namespace ProxyTun.ConnectionHandler
open Library Socks5

/-- How the client makes itself known to the proxy. -/
inductive Login where
  | anonymous
  | password (username password : List Byte)
  | basic (text : List Byte)
  deriving DecidableEq

/-- What a connection asks of the proxy. -/
structure Opening where
  login : Login
  dest : Ip × Port
  deriving DecidableEq

/-- What the proxy has agreed to: SOCKS5 without a login or with one, or HTTP. -/
inductive Mode where
  | plain
  | login
  | http
  deriving DecidableEq, Repr

def readOffer : List Byte → Option (List Byte × List Byte)
  | version :: data => if version = 5 then readCounted data else none
  | [] => none

def readLogin : List Byte → Option ((List Byte × List Byte) × List Byte)
  | version :: data =>
    if version = 1 then
      (readCounted data).bind fun username =>
        (readCounted username.2).map fun password => ((username.1, password.1), password.2)
    else none
  | [] => none

def readCommand : List Byte → Option ((Ip × Port) × List Byte)
  | 5 :: 1 :: 0 :: 1 :: a :: b :: c :: d :: high :: low :: rest =>
    some ((ipv4 a b c d, high ++ low), rest)
  | _ => none

def readAddress (host : CStr) : Option Ip :=
  match (host.splitOn '.').map digitsValue with
  | [a, b, c, d] => some (ipv4 (.ofNat 8 a) (.ofNat 8 b) (.ofNat 8 c) (.ofNat 8 d))
  | _ => none

def readRequestLine (line : CStr) : Option (Ip × Port) :=
  match line.splitOn ' ' with
  | [method, target, _] =>
    if method = "CONNECT".toList then
      match target.splitOn ':' with
      | [host, port] => (readAddress host).map fun ip => (ip, .ofNat 16 (digitsValue port))
      | _ => none
    else none
  | _ => none

def readAuthorization (fields : List CStr) : Login :=
  let name := "Proxy-Authorization: Basic ".toList
  match (fields.find? fun field => name.isPrefixOf field).bind fun field =>
      base64Decode (field.drop name.length) with
  | some text => .basic text
  | none => .anonymous

/-- What a connection asks for and what it sends behind that, as the proxy reads it. -/
def readOpening : Mode → List Byte → Option (Opening × List Byte)
  | .plain, data =>
    (readOffer data).bind fun offer =>
      if offer.1.contains 0 then
        (readCommand offer.2).map fun command => (⟨.anonymous, command.1⟩, command.2)
      else none
  | .login, data =>
    (readOffer data).bind fun offer =>
      if offer.1.contains 2 then
        (readLogin offer.2).bind fun login =>
          (readCommand login.2).map fun command =>
            (⟨.password login.1.1 login.1.2, command.1⟩, command.2)
      else none
  | .http, data =>
    (Lines.readBlock 13 10 [] data).bind fun block =>
      match block.1.map textOf with
      | request :: fields =>
        (readRequestLine request).map fun dest => (⟨readAuthorization fields, dest⟩, block.2)
      | [] => none

/-- What the handshake sends to a proxy that agrees to everything. -/
def Mode.requests (pf : Platform) (creds : Credentials) (dest : Ip × Port) : Mode → List Byte
  | .plain => methodOffer creds ++ Socks5.connectRequest dest
  | .login => methodOffer creds ++ loginRequest creds ++ Socks5.connectRequest dest
  | .http => bytesOf (ProxyTun.connectRequest pf creds dest)

def Mode.identity (creds : Credentials) : Mode → Login
  | .plain => .anonymous
  | .login => .password (bytesOf creds.username) (bytesOf creds.password)
  | .http => if creds.useAuth then .basic (bytesOf creds.text) else .anonymous

/-- The proxy of the configuration can agree to this. -/
def Mode.Fits (setup : Setup) : Mode → Prop
  | .plain => setup.config.type = .socks5
  | .login => setup.config.type = .socks5 ∧ setup.creds.useAuth = true
  | .http => setup.config.type = .http

variable {creds : Credentials} {dest : Ip × Port}

theorem readOffer_methodOffer (creds : Credentials) (rest : List Byte) :
    readOffer (methodOffer creds ++ rest) = some ((methodOffer creds).drop 2, rest) := by
  unfold methodOffer
  cases creds.useAuth with
  | false => exact @readCounted_append 1 [0] rfl rest
  | true => exact @readCounted_append 2 [0, 2] rfl rest

theorem toNat_length_bytesOf {text : CStr} (h : text.length ≤ 255) :
    (BitVec.ofNat 8 text.length).toNat = (bytesOf text).length := by
  rw [length_bytesOf, BitVec.toNat_ofNat]
  exact Nat.mod_eq_of_lt (Nat.lt_succ_of_le h)

theorem readLogin_loginRequest (creds : Credentials) (rest : List Byte) :
    readLogin (loginRequest creds ++ rest) =
      some ((bytesOf creds.username, bytesOf creds.password), rest) := by
  have hdata : loginRequest creds ++ rest =
      1 :: (BitVec.ofNat 8 creds.username.length :: (bytesOf creds.username ++
        (BitVec.ofNat 8 creds.password.length :: (bytesOf creds.password ++ rest)))) := by
    simp [loginRequest]
  rw [hdata, readLogin, if_pos rfl,
    readCounted_append (toNat_length_bytesOf creds.username_length), Option.bind_some,
    readCounted_append (toNat_length_bytesOf creds.password_length), Option.map_some]

theorem readCommand_connectRequest (dest : Ip × Port) (rest : List Byte) :
    readCommand (Socks5.connectRequest dest ++ rest) = some (dest, rest) := by
  simp [readCommand, Socks5.connectRequest, ipv4_octets, port_bytes]

def isPrintable (c : Char) : Bool := 32 ≤ c.toNat && c.toNat < 127

def Printable (text : CStr) : Prop := text.all isPrintable = true

instance (text : CStr) : Decidable (Printable text) :=
  inferInstanceAs (Decidable (text.all isPrintable = true))

theorem Printable.toNat {text : CStr} (h : Printable text) {c : Char} (hc : c ∈ text) :
    32 ≤ c.toNat ∧ c.toNat < 127 := by
  have hprintable := List.all_eq_true.mp h c hc
  simpa [isPrintable] using hprintable

theorem printable_of_toNat {text : CStr} (h : ∀ c ∈ text, 32 ≤ c.toNat ∧ c.toNat < 127) :
    Printable text := by
  apply List.all_eq_true.mpr
  intro c hc
  simpa [isPrintable] using h c hc

theorem Printable.append {text text' : CStr} (h : Printable text) (h' : Printable text') :
    Printable (text ++ text') := by
  rw [Printable, List.all_append, Bool.and_eq_true]
  exact ⟨h, h'⟩

theorem printable_decimal (n : ℕ) : Printable (decimal n) := by
  apply printable_of_toNat
  intro c hc
  have hdigit := toNat_of_isDigit ((isNumber_decimal n).digits c hc)
  omega

theorem printable_formatIpAddress (ip : Ip) : Printable (formatIpAddress ip) := by
  apply printable_of_toNat
  intro c hc
  rw [formatIpAddress_fields] at hc
  rcases mem_hostToken hc with rfl | hdigit | rfl
  · decide
  · have hrange := toNat_of_isDigit hdigit
    omega
  · decide

theorem toNat_base64Char : ∀ n : BitVec 6,
    32 ≤ (base64Char n).toNat ∧ (base64Char n).toNat < 127 := by
  decide

theorem printable_base64Encode (bytes : List Byte) : Printable (base64Encode bytes) := by
  apply printable_of_toNat
  intro c hc
  rcases mem_base64Encode hc with rfl | ⟨n, rfl⟩
  · decide
  · exact toNat_base64Char n

theorem Printable.textOf_bytesOf {text : CStr} (h : Printable text) :
    textOf (bytesOf text) = text := by
  rw [textOf, bytesOf, List.map_map]
  conv_rhs => rw [← List.map_id text]
  apply List.map_congr_left
  intro c hc
  have hc := h.toNat hc
  rw [Function.comp_apply, BitVec.toNat_ofNat, Nat.mod_eq_of_lt (by omega), Char.ofNat_toNat]
  rfl

theorem Printable.not_mem_bytesOf {text : CStr} (h : Printable text) : 13 ∉ bytesOf text := by
  intro hmem
  obtain ⟨c, hc, hcr⟩ := List.mem_map.mp hmem
  have hc := h.toNat hc
  have hbyte := congrArg BitVec.toNat hcr
  rw [BitVec.toNat_ofNat, Nat.mod_eq_of_lt (by omega)] at hbyte
  have hthirteen : (13 : Byte).toNat = 13 := rfl
  omega

/-- The target of a request, `address:port`. -/
def target (dest : Ip × Port) : CStr := formatIpAddress dest.1 ++ ':' :: decimal dest.2.toNat

def authorizationField (creds : Credentials) : List CStr :=
  if creds.useAuth then
    ["Proxy-Authorization: Basic ".toList ++ base64Encode (bytesOf creds.text)]
  else []

def requestLines (creds : Credentials) (dest : Ip × Port) : Platform → List CStr
  | .windows =>
    ["CONNECT ".toList ++ target dest ++ " HTTP/1.1".toList, "Host: ".toList ++ target dest] ++
      authorizationField creds ++ ["Proxy-Connection: keep-alive".toList]
  | .linux =>
    ["CONNECT ".toList ++ target dest ++ " HTTP/1.1".toList, "Host: ".toList ++ target dest,
      "Proxy-Connection: Keep-Alive".toList] ++ authorizationField creds

theorem connectRequest_eq_unblock (pf : Platform) (creds : Credentials) (dest : Ip × Port) :
    bytesOf (ProxyTun.connectRequest pf creds dest) =
      Lines.unblock 13 10 ((requestLines creds dest pf).map bytesOf) := by
  have hbreak : bytesOf "\r\n".toList = [13, 10] := by decide
  have hfirst : bytesOf " HTTP/1.1\r\nHost: ".toList =
      bytesOf " HTTP/1.1".toList ++ [13, 10] ++ bytesOf "Host: ".toList := by decide
  have hlast : bytesOf "Proxy-Connection: keep-alive\r\n\r\n".toList =
      bytesOf "Proxy-Connection: keep-alive".toList ++ [13, 10] ++ [13, 10] := by decide
  have hlast' : bytesOf "Proxy-Connection: Keep-Alive\r\n".toList =
      bytesOf "Proxy-Connection: Keep-Alive".toList ++ [13, 10] := by decide
  have htarget : bytesOf (target dest) =
      bytesOf (formatIpAddress dest.1 ++ ":".toList ++ decimal dest.2.toNat) := by
    rw [target, List.append_assoc]
    rfl
  have hauthorization : bytesOf (authorizationLine creds) =
      ((authorizationField creds).map bytesOf).flatMap fun line => line ++ [13, 10] := by
    unfold authorizationLine authorizationField Credentials.text
    split
    · simp only [bytesOf_append, hbreak, List.map_cons, List.map_nil, List.flatMap_cons,
        List.flatMap_nil, List.append_nil]
    · rfl
  cases pf with
  | windows =>
    unfold ProxyTun.connectRequest Windows.connectRequest connectLines requestLines Lines.unblock
    simp only [bytesOf_append, List.map_append, List.map_cons, List.map_nil, List.flatMap_append,
      List.flatMap_cons, List.flatMap_nil, List.append_nil]
    rw [hauthorization, hbreak, hfirst, hlast, htarget]
    simp only [bytesOf_append, List.append_assoc]
  | linux =>
    unfold ProxyTun.connectRequest Linux.connectRequest connectLines requestLines Lines.unblock
    simp only [bytesOf_append, List.map_append, List.map_cons, List.map_nil, List.flatMap_append,
      List.flatMap_cons, List.flatMap_nil, List.append_nil]
    rw [hauthorization, hbreak, hfirst, hlast', htarget]
    simp only [bytesOf_append, List.append_assoc]

theorem printable_target (dest : Ip × Port) : Printable (target dest) :=
  (printable_formatIpAddress dest.1).append
    (@Printable.append [':'] _ (by decide) (printable_decimal dest.2.toNat))

theorem printable_requestLines (pf : Platform) {line : CStr}
    (h : line ∈ requestLines creds dest pf) : Printable line ∧ line ≠ [] := by
  have htarget := printable_target dest
  have hrequest : Printable ("CONNECT ".toList ++ target dest ++ " HTTP/1.1".toList) :=
    .append (.append (by decide) htarget) (by decide)
  have hhost : Printable ("Host: ".toList ++ target dest) := .append (by decide) htarget
  have hfield : ∀ field ∈ authorizationField creds, Printable field ∧ field ≠ [] := by
    intro field hfield
    unfold authorizationField at hfield
    split at hfield
    · obtain rfl := List.mem_singleton.mp hfield
      exact ⟨.append (by decide) (printable_base64Encode _), by simp⟩
    · cases hfield
  cases pf with
  | windows =>
    simp only [requestLines, List.mem_append, List.mem_cons, List.not_mem_nil, or_false] at h
    rcases h with ((rfl | rfl) | hauth) | rfl
    · exact ⟨hrequest, by simp⟩
    · exact ⟨hhost, by simp⟩
    · exact hfield line hauth
    · exact ⟨by decide, by decide⟩
  | linux =>
    simp only [requestLines, List.mem_append, List.mem_cons, List.not_mem_nil, or_false] at h
    rcases h with (rfl | rfl | rfl) | hauth
    · exact ⟨hrequest, by simp⟩
    · exact ⟨hhost, by simp⟩
    · exact ⟨by decide, by decide⟩
    · exact hfield line hauth

theorem readAddress_formatIpAddress (ip : Ip) : readAddress (formatIpAddress ip) = some ip := by
  have hoctets : octets ip = [(octet ip 0).toNat, (octet ip 1).toNat, (octet ip 2).toNat,
      (octet ip 3).toNat] := rfl
  unfold readAddress
  rw [octets_of_formatIpAddress, hoctets]
  simp only [BitVec.ofNat_toNat, BitVec.setWidth_eq, ipv4_octets]

theorem readRequestLine_target (dest : Ip × Port) :
    readRequestLine ("CONNECT ".toList ++ target dest ++ " HTTP/1.1".toList) = some dest := by
  have hblank : ' ' ∉ target dest := by
    simp only [target, List.mem_append, List.mem_cons, not_or]
    exact ⟨not_mem_formatIpAddress (by decide) rfl (by decide) dest.1, by decide,
      (isNumber_decimal dest.2.toNat).not_mem rfl⟩
  have hline : ("CONNECT ".toList ++ target dest ++ " HTTP/1.1".toList).splitOn ' ' =
      ["CONNECT".toList, target dest, "HTTP/1.1".toList] := by
    have hwords : "CONNECT ".toList ++ target dest ++ " HTTP/1.1".toList =
        "CONNECT".toList ++ ' ' :: (target dest ++ ' ' :: "HTTP/1.1".toList) := by
      rw [List.append_assoc]
      rfl
    rw [hwords, List.splitOn_append_cons_self_of_not_mem (by decide),
      List.splitOn_append_cons_self_of_not_mem hblank]
    rfl
  have htarget : (target dest).splitOn ':' =
      [formatIpAddress dest.1, decimal dest.2.toNat] := by
    rw [target, List.splitOn_append_cons_self_of_not_mem
      (not_mem_formatIpAddress (by decide) rfl (by decide) dest.1),
      List.splitOn_eq_singleton ((isNumber_decimal dest.2.toNat).not_mem rfl)]
  unfold readRequestLine
  simp only [hline, htarget, if_true, readAddress_formatIpAddress, digitsValue_decimal,
    BitVec.ofNat_toNat, BitVec.setWidth_eq, Option.map_some]

theorem readAuthorization_requestLines (pf : Platform) (creds : Credentials) (dest : Ip × Port) :
    readAuthorization (requestLines creds dest pf).tail = Mode.http.identity creds := by
  have hhost : "Proxy-Authorization: Basic ".toList.isPrefixOf
      ("Host: ".toList ++ target dest) = false := rfl
  have hfield (text : CStr) : "Proxy-Authorization: Basic ".toList.isPrefixOf
      ("Proxy-Authorization: Basic ".toList ++ text) = true :=
    List.isPrefixOf_iff_prefix.mpr (List.prefix_append _ _)
  unfold Mode.identity
  cases hauth : creds.useAuth with
  | false =>
    have hnone : authorizationField creds = [] := by
      rw [authorizationField, if_neg (by simp [hauth])]
    have hfind : (requestLines creds dest pf).tail.find?
        (fun field => "Proxy-Authorization: Basic ".toList.isPrefixOf field) = none := by
      cases pf with
      | windows =>
        simp only [requestLines, hnone, List.append_nil, List.cons_append, List.nil_append,
          List.tail_cons, List.find?_cons, hhost]
        rfl
      | linux =>
        simp only [requestLines, hnone, List.append_nil, List.tail_cons, List.find?_cons, hhost]
        rfl
    unfold readAuthorization
    simp only [hfind]
    rfl
  | true =>
    have hsome : authorizationField creds =
        ["Proxy-Authorization: Basic ".toList ++ base64Encode (bytesOf creds.text)] := by
      rw [authorizationField, if_pos hauth]
    have hfind : (requestLines creds dest pf).tail.find?
        (fun field => "Proxy-Authorization: Basic ".toList.isPrefixOf field) =
          some ("Proxy-Authorization: Basic ".toList ++ base64Encode (bytesOf creds.text)) := by
      cases pf with
      | windows =>
        simp only [requestLines, hsome, List.cons_append, List.nil_append, List.tail_cons,
          List.find?_cons, hhost, hfield]
      | linux =>
        have hkeep : "Proxy-Authorization: Basic ".toList.isPrefixOf
            "Proxy-Connection: Keep-Alive".toList = false := rfl
        simp only [requestLines, hsome, List.cons_append, List.nil_append, List.tail_cons,
          List.find?_cons, hhost, hkeep, hfield]
    unfold readAuthorization
    simp only [hfind, Option.bind_some, List.drop_left, base64Decode_base64Encode]
    rfl

theorem readOpening_requests {setup : Setup} {mode : Mode} (hmode : mode.Fits setup) (pf : Platform)
    (dest : Ip × Port) (rest : List Byte) :
    readOpening mode (mode.requests pf setup.creds dest ++ rest) =
      some (⟨mode.identity setup.creds, dest⟩, rest) := by
  cases mode with
  | plain =>
    have hnone : ((methodOffer setup.creds).drop 2).contains 0 = true := by
      unfold methodOffer
      split <;> simp
    simp only [readOpening, Mode.requests, List.append_assoc, readOffer_methodOffer,
      Option.bind_some, if_pos hnone, readCommand_connectRequest, Option.map_some]
    rfl
  | login =>
    have hlogin : ((methodOffer setup.creds).drop 2).contains 2 = true := by
      rw [methodOffer, if_pos hmode.2]
      simp
    simp only [readOpening, Mode.requests, List.append_assoc, readOffer_methodOffer,
      Option.bind_some, if_pos hlogin, readLogin_loginRequest, readCommand_connectRequest,
      Option.map_some]
    rfl
  | http =>
    have hblock : Lines.readBlock 13 10 [] (bytesOf (ProxyTun.connectRequest pf setup.creds dest) ++
        rest) = some ((requestLines setup.creds dest pf).map bytesOf, rest) := by
      rw [connectRequest_eq_unblock]
      apply Lines.readBlock_unblock
      intro data hdata
      obtain ⟨line, hline, rfl⟩ := List.mem_map.mp hdata
      obtain ⟨hprintable, hnonempty⟩ := printable_requestLines pf hline
      exact ⟨by simpa [bytesOf] using hnonempty, hprintable.not_mem_bytesOf⟩
    have hlines : ((requestLines setup.creds dest pf).map bytesOf).map textOf =
        ("CONNECT ".toList ++ target dest ++ " HTTP/1.1".toList) ::
          (requestLines setup.creds dest pf).tail := by
      rw [List.map_map]
      trans (requestLines setup.creds dest pf).map id
      · apply List.map_congr_left
        intro line hline
        exact (printable_requestLines pf hline).1.textOf_bytesOf
      · rw [List.map_id]
        cases pf <;> rfl
    rw [readOpening, Mode.requests, hblock, Option.bind_some]
    simp only [hlines, readRequestLine_target, readAuthorization_requestLines, Option.map_some]

end ProxyTun.ConnectionHandler
