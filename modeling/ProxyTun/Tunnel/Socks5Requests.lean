import ProxyTun.Tunnel.Socks5Connect

/-!
# The requests of SOCKS5 as the proxy reads them

RFC 1929 and RFC 1928 put a length in one byte before each text. A request is read from its front
and must end where its last field ends.
-/
namespace ProxyTun.Socks5

def readBytes (n : ℕ) (data : List Byte) : Option (List Byte × List Byte) :=
  if n ≤ data.length then some (data.take n, data.drop n) else none

def readCounted : List Byte → Option (List Byte × List Byte)
  | [] => none
  | n :: data => readBytes n.toNat data

/-- The user name and the password in a request of RFC 1929. -/
def decodeLogin : List Byte → Option (List Byte × List Byte)
  | [] => none
  | version :: data =>
    if version = 1 then
      (readCounted data).bind fun username =>
        (readCounted username.2).bind fun password =>
          if password.2 = [] then some (username.1, password.1) else none
    else none

/-- The destination of a request of RFC 1928. -/
inductive Destination where
  | ipv4 (octets : List Byte)
  | name (text : List Byte)
  | ipv6 (octets : List Byte)
  deriving DecidableEq

def readDestination : List Byte → Option (Destination × List Byte)
  | [] => none
  | kind :: data =>
    if kind = 1 then (readBytes 4 data).map fun r => (.ipv4 r.1, r.2)
    else if kind = 3 then (readCounted data).map fun r => (.name r.1, r.2)
    else if kind = 4 then (readBytes 16 data).map fun r => (.ipv6 r.1, r.2)
    else none

def readPort : List Byte → Option Port
  | [high, low] => some (high ++ low)
  | _ => none

/-- The destination and the port of a CONNECT request of RFC 1928. -/
def decodeConnect : List Byte → Option (Destination × Port)
  | version :: command :: reserved :: data =>
    if version = 5 ∧ command = 1 ∧ reserved = 0 then
      (readDestination data).bind fun r => (readPort r.2).map fun port => (r.1, port)
    else none
  | _ => none

theorem readBytes_append (front rest : List Byte) :
    readBytes front.length (front ++ rest) = some (front, rest) := by
  simp [readBytes]

theorem readCounted_eq_iff (n : Byte) (front rest : List Byte) :
    (∃ behind, readCounted (n :: (front ++ rest)) = some (front, behind)) ↔
      n.toNat = front.length := by
  constructor
  · rintro ⟨behind, h⟩
    simp only [readCounted, readBytes, Option.ite_none_right_eq_some, Option.some.injEq,
      Prod.mk.injEq] at h
    obtain ⟨hlong, htake, -⟩ := h
    have hlength := congrArg List.length htake
    rw [List.length_take] at hlength
    omega
  · intro h
    exact ⟨rest, by rw [readCounted, h, readBytes_append]⟩

theorem readCounted_append {n : Byte} {front : List Byte} (h : n.toNat = front.length)
    (rest : List Byte) : readCounted (n :: (front ++ rest)) = some (front, rest) := by
  rw [readCounted, h, readBytes_append]

/-- A login is read back exactly if both numbers are the lengths. -/
theorem decodeLogin_eq_iff (n m : Byte) (username password : List Byte) :
    decodeLogin (1 :: n :: username ++ m :: password) = some (username, password) ↔
      n.toNat = username.length ∧ m.toNat = password.length := by
  have hpassword : m :: password = m :: (password ++ []) := by rw [List.append_nil]
  rw [List.cons_append, List.cons_append, decodeLogin, if_pos rfl]
  constructor
  · intro h
    simp only [Option.bind_eq_some_iff, Option.ite_none_right_eq_some, Option.some.injEq,
      Prod.mk.injEq] at h
    obtain ⟨⟨_, rest⟩, hname, ⟨_, rest'⟩, hword, -, rfl, rfl⟩ := h
    have hfirst := (readCounted_eq_iff n _ _).mp ⟨rest, hname⟩
    rw [readCounted_append hfirst, Option.some.injEq, Prod.mk.injEq] at hname
    rw [← hname.2, hpassword] at hword
    exact ⟨hfirst, (readCounted_eq_iff m _ _).mp ⟨rest', hword⟩⟩
  · rintro ⟨hfirst, hsecond⟩
    rw [readCounted_append hfirst, Option.bind_some, hpassword, readCounted_append hsecond,
      Option.bind_some, if_pos rfl]

def portBytes (port : Port) : List Byte := [port.extractLsb' 8 8, port.extractLsb' 0 8]

theorem readPort_portBytes (port : Port) : readPort (portBytes port) = some port := by
  rw [portBytes, readPort, port_bytes]

theorem decodeConnect_append (address : List Byte) (port : Port) :
    decodeConnect ([5, 1, 0] ++ address ++ portBytes port) =
      (readDestination (address ++ portBytes port)).bind fun r =>
        (readPort r.2).map fun port => (r.1, port) := by
  have hcommand : (5 : Byte) = 5 ∧ (1 : Byte) = 1 ∧ (0 : Byte) = 0 := ⟨rfl, rfl, rfl⟩
  rw [List.append_assoc, List.cons_append, List.cons_append, List.cons_append, List.nil_append,
    decodeConnect, if_pos hcommand]

theorem decodeConnect_ipv4 {octets : List Byte} (h : octets.length = 4) (port : Port) :
    decodeConnect ([5, 1, 0] ++ 1 :: octets ++ portBytes port) = some (.ipv4 octets, port) := by
  have hread : readDestination (1 :: (octets ++ portBytes port)) =
      some (.ipv4 octets, portBytes port) := by
    rw [readDestination, if_pos rfl, ← h, readBytes_append, Option.map_some]
  rw [decodeConnect_append, List.cons_append, hread, Option.bind_some, readPort_portBytes,
    Option.map_some]

theorem decodeConnect_ipv6 {octets : List Byte} (h : octets.length = 16) (port : Port) :
    decodeConnect ([5, 1, 0] ++ 4 :: octets ++ portBytes port) = some (.ipv6 octets, port) := by
  have hread : readDestination (4 :: (octets ++ portBytes port)) =
      some (.ipv6 octets, portBytes port) := by
    rw [readDestination, if_neg (by decide), if_neg (by decide), if_pos rfl, ← h,
      readBytes_append, Option.map_some]
  rw [decodeConnect_append, List.cons_append, hread, Option.bind_some, readPort_portBytes,
    Option.map_some]

theorem decodeConnect_name_iff (n : Byte) (name : List Byte) (port : Port) :
    decodeConnect ([5, 1, 0] ++ 3 :: n :: name ++ portBytes port) = some (.name name, port) ↔
      n.toNat = name.length := by
  have hread : readDestination (3 :: n :: (name ++ portBytes port)) =
      (readCounted (n :: (name ++ portBytes port))).map fun r => (.name r.1, r.2) := by
    rw [readDestination, if_neg (by decide), if_pos rfl]
  rw [decodeConnect_append, List.cons_append, List.cons_append, hread]
  constructor
  · intro h
    simp only [Option.bind_map, Option.bind_eq_some_iff, Option.map_eq_some_iff,
      Function.comp_apply, Prod.mk.injEq, Destination.name.injEq] at h
    obtain ⟨⟨_, rest⟩, hname, _, -, rfl, -⟩ := h
    exact (readCounted_eq_iff n _ _).mp ⟨rest, hname⟩
  · intro h
    rw [readCounted_append h, Option.map_some, Option.bind_some, readPort_portBytes,
      Option.map_some]

end ProxyTun.Socks5
