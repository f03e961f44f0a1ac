import Mathlib.Algebra.Order.BigOperators.Group.List
import ProxyTun.MacOS.TunnelTransparency
import ProxyTun.Tunnel.Socks5Requests

/-!
# The SOCKS5 requests of the macOS extension

The extension writes the number of characters of a text before its UTF-8 bytes. The two agree on
plain ASCII only. A number above 255 stops the process, and no length is refused.
-/
namespace ProxyTun.MacOS
open Library Library.Code Exchange

theorem utf8_append (a b : CStr) : utf8 (a ++ b) = utf8 a ++ utf8 b := by
  simp [utf8]

theorem length_utf8_singleton (c : Char) : (utf8 [c]).length = c.utf8Size := by
  simp [utf8]

theorem length_utf8_flatten (parts : List CStr) :
    (utf8 parts.flatten).length = (parts.map fun part => (utf8 part).length).sum := by
  induction parts with
  | nil => rfl
  | cons part parts ih =>
    rw [List.flatten_cons, utf8_append, List.length_append, ih, List.map_cons, List.sum_cons]

theorem one_le_length_utf8 {part : CStr} (h : part ≠ []) : 1 ≤ (utf8 part).length := by
  obtain ⟨c, rest, rfl⟩ := List.exists_cons_of_ne_nil h
  have hsize := Char.utf8Size_pos c
  rw [← List.singleton_append, utf8_append, List.length_append, length_utf8_singleton]
  omega

theorem eq_singleton_of_length_utf8 {part : CStr} (hne : part ≠ [])
    (h : (utf8 part).length = 1) : ∃ c, part = [c] ∧ c.toNat < 128 := by
  obtain ⟨c, rest, rfl⟩ := List.exists_cons_of_ne_nil hne
  have hsize := Char.utf8Size_pos c
  rw [← List.singleton_append, utf8_append, List.length_append, length_utf8_singleton] at h
  have hrest : rest = [] := by
    by_contra hrest
    have hlong := one_le_length_utf8 hrest
    omega
  rw [hrest]
  have hone : c.utf8Size = 1 := by omega
  exact ⟨c, rfl, Nat.lt_succ_of_le (Char.utf8Size_eq_one_iff.mp hone)⟩

/-- Numbers that are not zero and add up to how many they are are ones. -/
theorem eq_one_of_sum_eq_length {sizes : List ℕ} (hpos : ∀ n ∈ sizes, 1 ≤ n)
    (h : sizes.sum = sizes.length) : ∀ n ∈ sizes, n = 1 := by
  induction sizes with
  | nil => exact fun n hn => by cases hn
  | cons size sizes ih =>
    have hrest : ∀ n ∈ sizes, 1 ≤ n := fun n hn => hpos n (List.mem_cons_of_mem _ hn)
    have hsize := hpos size List.mem_cons_self
    have hlength := List.length_le_sum_of_one_le sizes hrest
    rw [List.sum_cons, List.length_cons] at h
    intro n hn
    rcases List.mem_cons.mp hn with rfl | hn
    · omega
    · exact ih hrest (by omega) n hn

namespace Characters
variable (sys : Characters)

theorem length_utf8_eq (text : CStr) :
    (utf8 text).length = ((sys.characters text).map fun part => (utf8 part).length).sum := by
  rw [← length_utf8_flatten, sys.flatten_characters]

theorem one_le_of_mem_sizes {text : CStr} :
    ∀ n ∈ (sys.characters text).map fun part => (utf8 part).length, 1 ≤ n := by
  intro n hn
  obtain ⟨part, hpart, rfl⟩ := List.mem_map.mp hn
  exact one_le_length_utf8 (sys.ne_nil_of_mem text part hpart)

theorem count_le_length_utf8 (text : CStr) : sys.count text ≤ (utf8 text).length := by
  have hlength := List.length_le_sum_of_one_le _ (@one_le_of_mem_sizes sys text)
  rwa [← sys.length_utf8_eq, List.length_map] at hlength

theorem count_eq_length_utf8_iff (text : CStr) :
    sys.count text = (utf8 text).length ↔ IsPlain text := by
  constructor
  · intro h
    have hones := eq_one_of_sum_eq_length (@one_le_of_mem_sizes sys text)
      (by rw [← sys.length_utf8_eq, List.length_map, ← h, count])
    have hsingle : ∀ part ∈ sys.characters text, (utf8 part).length = 1 := fun part hpart =>
      hones _ (List.mem_map_of_mem hpart)
    constructor
    · intro c hc
      rw [← sys.flatten_characters text, List.mem_flatten] at hc
      obtain ⟨part, hpart, hmem⟩ := hc
      obtain ⟨d, rfl, hd⟩ := eq_singleton_of_length_utf8 (sys.ne_nil_of_mem text part hpart)
        (hsingle part hpart)
      rwa [List.mem_singleton.mp hmem]
    · intro hcrlf
      exact absurd (hsingle _ (sys.crlf_mem_characters hcrlf)) (by decide)
  · intro h
    rw [count, sys.characters_of_isPlain h, utf8_of_ascii h.ascii, length_bytesOf,
      List.length_map]

end Characters

/-- The text has at most 255 bytes. -/
def Fits (text : CStr) : Prop := (utf8 text).length ≤ 255

variable {sys : Foundation}

theorem count_le_of_fits {text : CStr} (h : Fits text) : sys.count text ≤ 255 :=
  (sys.count_le_length_utf8 text).trans h

theorem counted_eq_iff {text : CStr} (h : Fits text) :
    (BitVec.ofNat 8 (sys.count text)).toNat = (utf8 text).length ↔ IsPlain text := by
  have hcount : sys.count text ≤ 255 := count_le_of_fits h
  rw [BitVec.toNat_ofNat, Nat.mod_eq_of_lt (by omega), sys.count_eq_length_utf8_iff]

/-- How the code ends on a connection without errors, and the connection after it. -/
def Exchange.ending {α : Type} (h : Exchange α) (s : ProxySocket) : Except CStr α × ProxySocket :=
  h.run.eval answer s

/-- What a conversion that does not fit stops the process with. -/
def conversionTrap : CStr := "Not enough bits to represent the passed value".toList

namespace Exchange

/-- The code writes these bytes, whatever the proxy answers. -/
def Writes (h : Exchange Unit) (data : List Byte) : Prop :=
  ∀ s, (h.ending s).2.outgoing = s.outgoing ++ data

/-- The code gives up without a trap, whatever the proxy answers. -/
def Refuses (h : Exchange Unit) : Prop :=
  ∀ s, ∃ message, message ≠ conversionTrap ∧ (h.ending s).1 = .error message

section
variable {α : Type} {n : ℕ}

theorem uint8_bind (hn : n ≤ 255) (f : Byte → Exchange α) :
    uint8 n >>= f = f (BitVec.ofNat 8 n) := by
  rw [uint8, require, if_pos (decide_eq_true hn)]
  rfl

theorem uint8_bind_trap (hn : ¬ n ≤ 255) (f : Byte → Exchange α) :
    uint8 n >>= f = throw conversionTrap := by
  rw [uint8, require, if_neg (by simpa using hn)]
  rfl

end

theorem not_refuses_trap : ¬ (throw conversionTrap : Exchange Unit).Refuses := by
  intro h
  obtain ⟨message, hne, herror⟩ := h ⟨.ofParts [], []⟩
  cases herror
  exact hne rfl

def ask (data : List Byte) (unsent : CStr) (min max : ℕ) (unread message : CStr)
    (accepts : Option (List Byte) → Bool) : Exchange Unit := do
  write data unsent
  let answer ← readMinimumLength min max unread
  require message (accepts answer)

section
variable {data data' : List Byte} {unsent unread message : CStr} {min max : ℕ}
  {accepts : Option (List Byte) → Bool}

theorem ending_ask (s : ProxySocket) :
    (ask data unsent min max unread message accepts).ending s =
      (if accepts (some (s.incoming.recvAtLeast min max).1) then .ok () else .error message,
        ⟨(s.incoming.recvAtLeast min max).2, s.outgoing ++ data⟩) := by
  change ending (require message (accepts (some (s.incoming.recvAtLeast min max).1))) _ = _
  cases accepts (some (s.incoming.recvAtLeast min max).1) <;> rfl

theorem writes_ask_iff :
    (ask data unsent min max unread message accepts).Writes data' ↔ data' = data := by
  constructor
  · intro h
    have hsame := h ⟨.ofParts [], []⟩
    rw [ending_ask, List.nil_append, List.nil_append] at hsame
    exact hsame.symm
  · rintro rfl s
    rw [ending_ask]

theorem not_refuses_ask {stream : Segmented Byte}
    (h : accepts (some (stream.recvAtLeast min max).1) = true) :
    ¬ (ask data unsent min max unread message accepts).Refuses := by
  intro hrefuses
  obtain ⟨error, -, herror⟩ := hrefuses ⟨stream, []⟩
  rw [ending_ask, if_pos h] at herror
  cases herror

end
end Exchange

theorem sendSOCKS5Auth_eq {username password : CStr} (husername : sys.count username ≤ 255)
    (hpassword : sys.count password ≤ 255) :
    sendSOCKS5Auth sys username password =
      ask (loginRequest sys username password) "SOCKS5 auth write failed".toList 2 2
        "SOCKS5 auth response failed".toList "SOCKS5 auth failed".toList
        fun data => data.any fun d => d.length = 2 && d.getD 1 1 = 0 := by
  rw [sendSOCKS5Auth, uint8_bind husername, uint8_bind hpassword]
  rfl

theorem sendSOCKS5Auth_eq_trap {username password : CStr}
    (h : ¬ (sys.count username ≤ 255 ∧ sys.count password ≤ 255)) :
    sendSOCKS5Auth sys username password = throw conversionTrap := by
  rw [sendSOCKS5Auth]
  by_cases husername : sys.count username ≤ 255
  · rw [uint8_bind husername, uint8_bind_trap fun hpassword => h ⟨husername, hpassword⟩]
  · rw [uint8_bind_trap husername]

theorem sendSOCKS5ConnectRequest_eq {destination : CStr} (h : Encodable sys destination)
    (port : Port) :
    sendSOCKS5ConnectRequest sys destination port =
      ask ([5, 1, 0] ++ requestAddress sys destination ++ Socks5.portBytes port)
        "SOCKS5 connect write failed".toList 10 512 "SOCKS5 connect response failed".toList
        "SOCKS5 connect failed".toList
        fun data => data.any fun d => 10 ≤ d.length && d.take 2 = [5, 0] := by
  rw [sendSOCKS5ConnectRequest]
  unfold destinationAddress requestAddress
  cases h4 : sys.ipv4Address destination with
  | some octets => rfl
  | none =>
    cases h6 : sys.ipv6Address destination with
    | some octets => rfl
    | none =>
      have hcount : sys.count destination ≤ 255 := by
        simpa [Encodable, h4, h6] using h
      dsimp only
      rw [uint8_bind hcount]
      rfl

theorem sendSOCKS5ConnectRequest_eq_trap {destination : CStr} (h : ¬ Encodable sys destination)
    (port : Port) :
    sendSOCKS5ConnectRequest sys destination port = throw conversionTrap := by
  obtain ⟨h4, h6, hcount⟩ : sys.ipv4Address destination = none ∧
      sys.ipv6Address destination = none ∧ ¬ sys.count destination ≤ 255 := by
    simpa [Encodable] using h
  rw [sendSOCKS5ConnectRequest, destinationAddress, h4, h6]
  dsimp only
  rw [uint8_bind_trap hcount]
  rfl

section
variable (sys)

/-- The destination is an address, which is not sent as a name. -/
def IsAddress (destination : CStr) : Prop :=
  (sys.ipv4Address destination).isSome = true ∨ (sys.ipv6Address destination).isSome = true

def requestedDestination (destination : CStr) : Socks5.Destination :=
  match sys.ipv4Address destination, sys.ipv6Address destination with
  | some octets, _ => .ipv4 octets
  | none, some octets => .ipv6 octets
  | none, none => .name (utf8 destination)

/-- A login that fits is sent in a frame that is read back as it was, and a longer one is refused
without a trap. -/
structure LoginWellFormed (username password : CStr) : Prop where
  carried : Fits username ∧ Fits password →
    ∃ frame, (sendSOCKS5Auth sys username password).Writes frame ∧
      Socks5.decodeLogin frame = some (utf8 username, utf8 password)
  refused : ¬ (Fits username ∧ Fits password) → (sendSOCKS5Auth sys username password).Refuses

/-- A destination that fits is sent in a frame that is read back as it was, with its port, and a
longer one is refused without a trap. -/
structure ConnectWellFormed (destination : CStr) (port : Port) : Prop where
  carried : Fits destination →
    ∃ frame, (sendSOCKS5ConnectRequest sys destination port).Writes frame ∧
      Socks5.decodeConnect frame = some (requestedDestination sys destination, port)
  refused : ¬ Fits destination → (sendSOCKS5ConnectRequest sys destination port).Refuses

end

theorem decodeLogin_loginRequest_iff {username password : CStr} (husername : Fits username)
    (hpassword : Fits password) :
    Socks5.decodeLogin (loginRequest sys username password) =
        some (utf8 username, utf8 password) ↔ IsPlain username ∧ IsPlain password := by
  rw [loginRequest, Socks5.decodeLogin_eq_iff, counted_eq_iff husername,
    counted_eq_iff hpassword]

theorem decodeConnect_requestAddress_iff {destination : CStr} (h : Fits destination)
    (port : Port) :
    Socks5.decodeConnect ([5, 1, 0] ++ requestAddress sys destination ++ Socks5.portBytes port) =
        some (requestedDestination sys destination, port) ↔
      IsAddress sys destination ∨ IsPlain destination := by
  rw [requestAddress, requestedDestination, IsAddress]
  cases h4 : sys.ipv4Address destination with
  | some octets =>
    exact iff_of_true (Socks5.decodeConnect_ipv4 (sys.length_ipv4Address _ _ h4) port)
      (Or.inl (Or.inl rfl))
  | none =>
    cases h6 : sys.ipv6Address destination with
    | some octets =>
      exact iff_of_true (Socks5.decodeConnect_ipv6 (sys.length_ipv6Address _ _ h6) port)
        (Or.inl (Or.inr rfl))
    | none =>
      rw [Socks5.decodeConnect_name_iff, counted_eq_iff h]
      simp

theorem encodable_of_fits {destination : CStr} (h : Fits destination) :
    Encodable sys destination := Or.inr (Or.inr (count_le_of_fits h))

theorem sendSOCKS5Auth_not_refuses (username password : CStr) :
    ¬ (sendSOCKS5Auth sys username password).Refuses := by
  by_cases hcounts : sys.count username ≤ 255 ∧ sys.count password ≤ 255
  · rw [sendSOCKS5Auth_eq hcounts.1 hcounts.2]
    exact @not_refuses_ask _ _ _ _ _ _ _ (.ofParts [[1, 0]]) rfl
  · rw [sendSOCKS5Auth_eq_trap hcounts]
    exact not_refuses_trap

theorem sendSOCKS5ConnectRequest_not_refuses (destination : CStr) (port : Port) :
    ¬ (sendSOCKS5ConnectRequest sys destination port).Refuses := by
  by_cases hencodable : Encodable sys destination
  · rw [sendSOCKS5ConnectRequest_eq hencodable]
    exact @not_refuses_ask _ _ _ _ _ _ _ (.ofParts [[5, 0, 0, 1, 0, 0, 0, 0, 0, 0]]) rfl
  · rw [sendSOCKS5ConnectRequest_eq_trap hencodable]
    exact not_refuses_trap

theorem loginWellFormed_iff (username password : CStr) :
    LoginWellFormed sys username password ↔
      (Fits username ∧ Fits password) ∧ IsPlain username ∧ IsPlain password := by
  constructor
  · intro h
    have hfits : Fits username ∧ Fits password :=
      Classical.byContradiction fun hlong =>
        sendSOCKS5Auth_not_refuses username password (h.refused hlong)
    obtain ⟨frame, hwrites, hdecode⟩ := h.carried hfits
    rw [sendSOCKS5Auth_eq (count_le_of_fits hfits.1) (count_le_of_fits hfits.2),
      writes_ask_iff] at hwrites
    rw [hwrites] at hdecode
    exact ⟨hfits, (decodeLogin_loginRequest_iff hfits.1 hfits.2).mp hdecode⟩
  · rintro ⟨hfits, hplain⟩
    refine ⟨fun _ => ⟨loginRequest sys username password, ?_,
      (decodeLogin_loginRequest_iff hfits.1 hfits.2).mpr hplain⟩, fun hlong => absurd hfits hlong⟩
    rw [sendSOCKS5Auth_eq (count_le_of_fits hfits.1) (count_le_of_fits hfits.2), writes_ask_iff]

theorem connectWellFormed_iff (destination : CStr) (port : Port) :
    ConnectWellFormed sys destination port ↔
      Fits destination ∧ (IsAddress sys destination ∨ IsPlain destination) := by
  constructor
  · intro h
    have hfits : Fits destination :=
      Classical.byContradiction fun hlong =>
        sendSOCKS5ConnectRequest_not_refuses destination port (h.refused hlong)
    obtain ⟨frame, hwrites, hdecode⟩ := h.carried hfits
    rw [sendSOCKS5ConnectRequest_eq (encodable_of_fits hfits), writes_ask_iff] at hwrites
    rw [hwrites] at hdecode
    exact ⟨hfits, (decodeConnect_requestAddress_iff hfits port).mp hdecode⟩
  · rintro ⟨hfits, haddress⟩
    refine ⟨fun _ => ⟨_, ?_, (decodeConnect_requestAddress_iff hfits port).mpr haddress⟩,
      fun hlong => absurd hfits hlong⟩
    rw [sendSOCKS5ConnectRequest_eq (encodable_of_fits hfits), writes_ask_iff]

/-- The requests are well-formed exactly for plain texts of at most 255 bytes, and for
destinations that are addresses. -/
theorem socks5_requests_well_formed_iff (sys : Foundation) (username password destination : CStr)
    (port : Port) :
    LoginWellFormed sys username password ∧ ConnectWellFormed sys destination port ↔
      (Fits username ∧ IsPlain username) ∧ (Fits password ∧ IsPlain password) ∧
        Fits destination ∧ (IsAddress sys destination ∨ IsPlain destination) := by
  rw [loginWellFormed_iff, connectWellFormed_iff]
  tauto

/-- A name that does not fit. -/
def longName : CStr := List.replicate 256 'a'

theorem isPlain_longName : IsPlain longName where
  ascii := fun c hc => by
    rw [List.eq_of_mem_replicate hc]
    decide
  noCrlf := fun hcrlf => by cases List.eq_of_mem_replicate (hcrlf.subset List.mem_cons_self)

/-- A name with a letter of two bytes is written with the number 1, and a name of 256 letters
stops the process. -/
theorem socks5_requests_malformed :
    ¬ LoginWellFormed hostNames "é".toList [] ∧
      sendSOCKS5Auth hostNames longName [] = throw conversionTrap ∧
      ¬ LoginWellFormed hostNames longName [] := by
  have hcount : hostNames.count longName = 256 := by
    rw [Characters.count, Characters.characters_of_isPlain _ isPlain_longName, List.length_map,
      longName, List.length_replicate]
  have htrap : sendSOCKS5Auth hostNames longName [] = throw conversionTrap := by
    apply sendSOCKS5Auth_eq_trap
    rw [hcount]
    omega
  refine ⟨?_, htrap, ?_⟩
  · rw [loginWellFormed_iff]
    rintro ⟨-, hplain, -⟩
    exact absurd (hplain.ascii 'é' List.mem_cons_self) (by decide)
  · rw [loginWellFormed_iff]
    rintro ⟨⟨hfits, -⟩, -⟩
    have hle := @count_le_of_fits hostNames _ hfits
    omega

end ProxyTun.MacOS
