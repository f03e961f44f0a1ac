import ProxyTun.MacOS.Ipv6Texts
import ProxyTun.MacOS.Socks5Requests

/-!
# Datagrams of the macOS extension and back

The extension puts a header before a datagram for the proxy and reads the header of what comes back.
The two agree on the three forms of an address, but not on how long a datagram has to be, nor on
what the number before a name counts.
-/
namespace ProxyTun.MacOS
open Library CheckedReads

/-- The address in the header. A name has at most 255 characters. -/
def datagramAddress (sys : Foundation) (destHost : CStr) : Option (List Byte) :=
  match sys.ipv4Address destHost, sys.ipv6Address destHost with
  | some octets, _ => some (1 :: octets)
  | none, some octets => some (4 :: octets)
  | none, none =>
    if sys.count destHost ≤ 255 then
      some (3 :: BitVec.ofNat 8 (sys.count destHost) :: utf8 destHost)
    else none

def encapsulateSOCKS5UDP (sys : Foundation) (datagram : List Byte) (destHost : CStr)
    (destPort : Port) : Option (List Byte) :=
  if 1400 < datagram.length then none
  else do
    let address ← datagramAddress sys destHost
    let header := [0, 0] ++ [0] ++ address ++ [destPort.extractLsb' 8 8, destPort.extractLsb' 0 8]
    let result := header ++ datagram
    if 1472 < result.length then none else some result

/-- The host that comes back is the one that was sent, for an IPv6 address in another form. -/
def HostReturned (sys : Foundation) (destHost host : CStr) : Prop :=
  match sys.ipv4Address destHost, sys.ipv6Address destHost with
  | none, some octets => readGroups host = some octets
  | _, _ => host = destHost

/-- What is read from the packet is what was put into it. -/
def ComesBack (sys : Foundation) (datagram : List Byte) (destHost : CStr) (destPort : Port)
    (packet : List Byte) : Prop :=
  ∃ host, decapsulateSOCKS5UDPWithEndpoint packet = .ok (some (datagram, host, destPort)) ∧
    HostReturned sys destHost host

def quadText (octets : List Byte) : CStr := ['.'].intercalate (octets.map fun o => decimal o.toNat)

/-- An IPv4 address is written in its dotted form, and a name is plain and has, with the datagram
behind it, four bytes. -/
def Canonical (sys : Foundation) (datagram : List Byte) (destHost : CStr) : Prop :=
  match sys.ipv4Address destHost, sys.ipv6Address destHost with
  | some octets, _ => destHost = quadText octets
  | none, some _ => True
  | none, none => IsPlain destHost ∧ 4 ≤ destHost.length + datagram.length

section
variable {data : List Byte} {start : ℕ}

theorem readWord_of_lt {i : ℕ} (h : i + 1 < data.length) :
    readWord data i = .ok (word (data.getD i default) (data.getD (i + 1) default)) := by
  rw [readWord, index_of_lt (by omega), index_of_lt h]
  rfl

theorem readIPv4_of_le (h : start + 6 ≤ data.length) :
    readIPv4 data start = .ok
      ⟨dottedQuad (data.getD start default) (data.getD (start + 1) default)
        (data.getD (start + 2) default) (data.getD (start + 3) default),
        word (data.getD (start + 4) default) (data.getD (start + 4 + 1) default), 6⟩ := by
  rw [readIPv4, index_of_lt (by omega), index_of_lt (by omega), index_of_lt (by omega),
    index_of_lt (by omega), readWord_of_lt (by omega)]
  rfl

theorem readIPv6_of_le (h : start + 18 ≤ data.length) :
    readIPv6 data start = .ok
      ⟨groupsText (data.drop start),
        word (data.getD (start + 16) default) (data.getD (start + 16 + 1) default), 18⟩ := by
  have hparts : (List.range 8).mapM (fun i => readWord data (start + i * 2)) =
      .ok (groups (data.drop start)) := by
    apply mapM_eq_ok
    intro i hi
    rw [List.mem_range] at hi
    rw [readWord_of_lt (by omega)]
    simp [List.getD_eq_getElem?_getD, Nat.add_assoc]
  rw [readIPv6, hparts, readWord_of_lt (by omega)]
  rfl

theorem readDomain_of_le (h : start + (1 + (data.getD start default).toNat + 2) ≤ data.length) :
    readDomain data start = .ok
      ⟨(decodeUtf8 ((data.drop (start + 1)).take (data.getD start default).toNat)).getD
          "unknown".toList,
        word (data.getD (start + 1 + (data.getD start default).toNat) default)
          (data.getD (start + 1 + (data.getD start default).toNat + 1) default),
        1 + (data.getD start default).toNat + 2⟩ := by
  rw [readDomain, index_of_lt (by omega)]
  change (slice data (start + 1) (start + 1 + (data.getD start default).toNat) >>= _) = _
  rw [slice_of_le (by omega) (by omega)]
  change (readWord data (start + 1 + (data.getD start default).toNat) >>= _) = _
  rw [readWord_of_lt (by omega), List.drop_take, Nat.add_sub_cancel_left]
  rfl

end

section
variable {sys : Foundation} {datagram packet : List Byte} {destHost : CStr} {destPort : Port}
  {e : Endpoint}

theorem decapsulate_eq_some_iff
    (hread : readEndpoint packet 4 (packet.getD 3 default) = .ok (some e))
    (r : List Byte × CStr × Port) :
    decapsulateSOCKS5UDPWithEndpoint packet = .ok (some r) ↔
      10 < packet.length ∧ 4 + e.length < packet.length ∧
        r = (packet.drop (4 + e.length), e.host, e.port) := by
  unfold decapsulateSOCKS5UDPWithEndpoint
  split_ifs with hlength
  · rw [index_of_lt (by omega)]
    change (readEndpoint packet 4 (packet.getD 3 default) >>= _) = _ ↔ _
    rw [hread]
    change payloadBehind packet e = _ ↔ _
    unfold payloadBehind
    dsimp only
    split_ifs with hheader
    · rw [slice_of_le hheader.le le_rfl, List.take_length]
      simp only [hlength, hheader, true_and]
      constructor
      · intro h
        exact (Option.some.inj (Except.ok.inj h)).symm
      · rintro rfl
        rfl
    · exact iff_of_false (fun h => by cases Except.ok.inj h) fun h => hheader h.2.1
  · exact iff_of_false (fun h => by cases Except.ok.inj h) fun h => hlength h.1

theorem comesBack_iff_of_read {header : List Byte}
    (hread : readEndpoint (header ++ datagram) 4 ((header ++ datagram).getD 3 default) =
      .ok (some e))
    (hheader : header.length = 4 + e.length) (hport : e.port = destPort) :
    ComesBack sys datagram destHost destPort (header ++ datagram) ↔
      10 < header.length + datagram.length ∧ datagram ≠ [] ∧ HostReturned sys destHost e.host := by
  have hdrop : (header ++ datagram).drop (4 + e.length) = datagram := by
    rw [← hheader, List.drop_left]
  have hbehind : 4 + e.length < header.length + datagram.length ↔ datagram ≠ [] := by
    rw [← hheader, ← List.length_pos_iff]
    omega
  simp only [ComesBack, decapsulate_eq_some_iff hread, hdrop, hport, Prod.mk.injEq,
    List.length_append, hbehind, true_and, and_true]
  constructor
  · rintro ⟨host, ⟨hlength, hne, rfl⟩, hhost⟩
    exact ⟨hlength, hne, hhost⟩
  · rintro ⟨hlength, hne, hhost⟩
    exact ⟨e.host, ⟨hlength, hne, rfl⟩, hhost⟩

theorem datagramAddress_eq_some {address : List Byte}
    (h : datagramAddress sys destHost = some address) : address = requestAddress sys destHost := by
  unfold datagramAddress at h
  unfold requestAddress
  cases h4 : sys.ipv4Address destHost with
  | some octets =>
    rw [h4] at h
    exact (Option.some.inj h).symm
  | none =>
    cases h6 : sys.ipv6Address destHost with
    | some octets =>
      rw [h4, h6] at h
      exact (Option.some.inj h).symm
    | none =>
      rw [h4, h6] at h
      exact (Option.some.inj (Option.ite_none_right_eq_some.mp h).2).symm

theorem encapsulate_eq_some
    (h : encapsulateSOCKS5UDP sys datagram destHost destPort = some packet) :
    packet = [0, 0, 0] ++ requestAddress sys destHost ++ Socks5.portBytes destPort ++ datagram ∧
      (datagramAddress sys destHost).isSome = true := by
  obtain ⟨-, hpacket⟩ := Option.ite_none_left_eq_some.mp h
  obtain ⟨address, haddress, hresult⟩ := Option.bind_eq_some_iff.mp hpacket
  obtain ⟨-, hresult⟩ := Option.ite_none_left_eq_some.mp hresult
  rw [← datagramAddress_eq_some haddress, haddress]
  exact ⟨(Option.some.inj hresult).symm, rfl⟩

theorem word_append (front : List Byte) (port : Port) (behind : List Byte) :
    word ((front ++ Socks5.portBytes port ++ behind).getD front.length default)
      ((front ++ Socks5.portBytes port ++ behind).getD (front.length + 1) default) = port := by
  have hhigh := getD_append_add front (Socks5.portBytes port ++ behind) 0 default
  have hlow := getD_append_add front (Socks5.portBytes port ++ behind) 1 default
  rw [Nat.add_zero] at hhigh
  rw [List.append_assoc, hhigh, hlow, word_eq_append]
  exact port_bytes port

theorem comesBack_ipv4 {octets : List Byte} (h4 : sys.ipv4Address destHost = some octets) :
    ComesBack sys datagram destHost destPort
        ([0, 0, 0] ++ (1 :: octets) ++ Socks5.portBytes destPort ++ datagram) ↔
      datagram ≠ [] ∧ destHost = quadText octets := by
  obtain ⟨a, b, c, d, rfl⟩ := List.length_eq_four.mp (sys.length_ipv4Address _ _ h4)
  have hread : readEndpoint ([0, 0, 0] ++ (1 :: [a, b, c, d]) ++ Socks5.portBytes destPort ++
      datagram) 4 1 = .ok (some ⟨quadText [a, b, c, d], destPort, 6⟩) := by
    have hport := word_append ([0, 0, 0] ++ (1 :: [a, b, c, d])) destPort datagram
    change some <$> readIPv4 _ 4 = _
    rw [readIPv4_of_le (by simp [Socks5.portBytes])]
    exact congrArg (fun port => Except.ok (some (Endpoint.mk _ port 6))) hport
  have hhost : HostReturned sys destHost (quadText [a, b, c, d]) ↔
      destHost = quadText [a, b, c, d] := by
    rw [HostReturned, h4]
    exact eq_comm
  rw [comesBack_iff_of_read hread rfl rfl, hhost, ← List.length_pos_iff]
  simp only [Socks5.portBytes, List.length_append, List.length_cons, List.length_nil]
  exact ⟨fun h => h.2, fun h => ⟨by omega, h⟩⟩

theorem groupsText_append {octets : List Byte} (h : octets.length = 16) (behind : List Byte) :
    groupsText (octets ++ behind) = groupsText octets := by
  have hgroups : groups (octets ++ behind) = groups octets := by
    apply List.map_congr_left
    intro i hi
    rw [List.mem_range] at hi
    rw [List.getD_append _ _ _ _ (by omega), List.getD_append _ _ _ _ (by omega)]
  rw [groupsText, hgroups, groupsText]

theorem comesBack_ipv6 {octets : List Byte} (h4 : sys.ipv4Address destHost = none)
    (h6 : sys.ipv6Address destHost = some octets) :
    ComesBack sys datagram destHost destPort
        ([0, 0, 0] ++ (4 :: octets) ++ Socks5.portBytes destPort ++ datagram) ↔
      datagram ≠ [] := by
  have hlength := sys.length_ipv6Address _ _ h6
  have hread : readEndpoint ([0, 0, 0] ++ (4 :: octets) ++ Socks5.portBytes destPort ++
      datagram) 4 4 = .ok (some ⟨groupsText octets, destPort, 18⟩) := by
    have hport := word_append ([0, 0, 0] ++ (4 :: octets)) destPort datagram
    have hfront : ([0, 0, 0] ++ (4 :: octets) : List Byte).length = 4 + 16 := by
      simp [hlength]
    have hdrop : ([0, 0, 0] ++ (4 :: octets) ++ Socks5.portBytes destPort ++ datagram).drop 4 =
        octets ++ (Socks5.portBytes destPort ++ datagram) := by
      simp
    rw [hfront] at hport
    change some <$> readIPv6 _ 4 = _
    rw [readIPv6_of_le (by simp [Socks5.portBytes, hlength]; omega), hport, hdrop,
      groupsText_append hlength]
    rfl
  have hhost : HostReturned sys destHost (groupsText octets) := by
    rw [HostReturned, h4, h6]
    exact readGroups_groupsText hlength
  rw [comesBack_iff_of_read hread (by simp [Socks5.portBytes, hlength]) rfl,
    ← List.length_pos_iff]
  simp only [and_iff_left hhost, Socks5.portBytes, List.length_append, List.length_cons,
    List.length_nil, hlength]
  exact ⟨fun h => h.2, fun h => ⟨by omega, h⟩⟩

theorem isPlain_unknown : IsPlain "unknown".toList :=
  ⟨by simp, by decide⟩

theorem utf8_of_decode {data : List Byte} {text : CStr} (h : decodeUtf8 data = some text) :
    utf8 text = data := by
  have hbytes := utf8Encode_of_decode h
  rw [List.utf8Encode, List.toByteArray_inj] at hbytes
  rw [utf8, hbytes, List.map_map]
  exact List.map_id data

/-- A name whose characters take more than one byte is cut. -/
theorem decode_take_ne (h : ¬ IsPlain destHost) :
    (decodeUtf8 ((utf8 destHost).take (sys.count destHost))).getD "unknown".toList ≠ destHost := by
  intro hsame
  cases hdecode : decodeUtf8 ((utf8 destHost).take (sys.count destHost)) with
  | none =>
    rw [hdecode, Option.getD_none] at hsame
    rw [← hsame] at h
    exact h isPlain_unknown
  | some host =>
    rw [hdecode, Option.getD_some] at hsame
    have hbytes := utf8_of_decode hdecode
    have hlength := congrArg List.length hbytes
    rw [hsame, List.length_take, Nat.min_eq_left (sys.count_le_length_utf8 destHost)] at hlength
    exact h ((sys.count_eq_length_utf8_iff destHost).mp hlength.symm)

theorem readEndpoint_name (hcount : sys.count destHost ≤ 255) :
    ∃ port, readEndpoint ([0, 0, 0] ++ (3 :: BitVec.ofNat 8 (sys.count destHost) ::
        utf8 destHost) ++ Socks5.portBytes destPort ++ datagram) 4 3 =
      .ok (some ⟨(decodeUtf8 ((utf8 destHost).take (sys.count destHost))).getD "unknown".toList,
        port, 1 + sys.count destHost + 2⟩) ∧ (IsPlain destHost → port = destPort) := by
  have hbytes := sys.count_le_length_utf8 destHost
  have hnumber : (BitVec.ofNat 8 (sys.count destHost)).toNat = sys.count destHost := by
    rw [BitVec.toNat_ofNat, Nat.mod_eq_of_lt (by omega)]
  have hfirst : ([0, 0, 0] ++ (3 :: BitVec.ofNat 8 (sys.count destHost) :: utf8 destHost) ++
      Socks5.portBytes destPort ++ datagram).getD 4 default =
      BitVec.ofNat 8 (sys.count destHost) := rfl
  have hdrop : ([0, 0, 0] ++ (3 :: BitVec.ofNat 8 (sys.count destHost) :: utf8 destHost) ++
      Socks5.portBytes destPort ++ datagram).drop (4 + 1) =
      utf8 destHost ++ (Socks5.portBytes destPort ++ datagram) := by
    simp
  have hport := word_append
    ([0, 0, 0] ++ (3 :: BitVec.ofNat 8 (sys.count destHost) :: utf8 destHost)) destPort datagram
  have hread := @readDomain_of_le ([0, 0, 0] ++ (3 :: BitVec.ofNat 8 (sys.count destHost) ::
    utf8 destHost) ++ Socks5.portBytes destPort ++ datagram) 4
  rw [hfirst, hnumber, hdrop, List.take_append_of_le_length hbytes] at hread
  refine ⟨_, congrArg (some <$> ·) (hread ?_), ?_⟩
  · simp only [Socks5.portBytes, List.length_append, List.length_cons, List.length_nil]
    omega
  · intro hplain
    have hlength := (sys.count_eq_length_utf8_iff destHost).mpr hplain
    have hfront : ([0, 0, 0] ++ (3 :: BitVec.ofNat 8 (sys.count destHost) ::
        utf8 destHost) : List Byte).length = 4 + 1 + sys.count destHost := by
      simp only [List.length_append, List.length_cons, List.length_nil]
      omega
    rw [hfront] at hport
    exact hport

theorem comesBack_name (h4 : sys.ipv4Address destHost = none)
    (h6 : sys.ipv6Address destHost = none) (hcount : sys.count destHost ≤ 255) :
    ComesBack sys datagram destHost destPort
        ([0, 0, 0] ++ (3 :: BitVec.ofNat 8 (sys.count destHost) :: utf8 destHost) ++
          Socks5.portBytes destPort ++ datagram) ↔
      datagram ≠ [] ∧ IsPlain destHost ∧ 4 ≤ destHost.length + datagram.length := by
  obtain ⟨port, hread, hport⟩ := readEndpoint_name hcount
  have hhost (host : CStr) : HostReturned sys destHost host ↔ host = destHost := by
    rw [HostReturned, h4, h6]
  by_cases hplain : IsPlain destHost
  · have hlength := (sys.count_eq_length_utf8_iff destHost).mpr hplain
    have hchars : (utf8 destHost).length = destHost.length := by
      rw [utf8_of_ascii hplain.ascii, length_bytesOf]
    rw [comesBack_iff_of_read hread (by simp [Socks5.portBytes, hlength]; omega) (hport hplain),
      hhost, hlength, List.take_length, decodeUtf8_utf8, ← List.length_pos_iff]
    simp only [Option.getD_some, hplain, Socks5.portBytes, List.length_append, List.length_cons,
      List.length_nil, hchars, true_and, and_true]
    omega
  · refine iff_of_false ?_ fun h => hplain h.2.1
    rintro ⟨host, hdecapsulate, hreturned⟩
    obtain ⟨-, -, hresult⟩ := (decapsulate_eq_some_iff hread _).mp hdecapsulate
    rw [hhost] at hreturned
    have hname : host = _ := congrArg (fun r => r.2.1) hresult
    exact decode_take_ne hplain (hname.symm.trans hreturned)

end

/-- For every packet, what was put into it is read from it exactly when there is a datagram to
carry and its host is in the form that comes back. -/
theorem udp_comes_back_iff (sys : Foundation) {datagram packet : List Byte} {destHost : CStr}
    {destPort : Port} (h : encapsulateSOCKS5UDP sys datagram destHost destPort = some packet) :
    ComesBack sys datagram destHost destPort packet ↔
      datagram ≠ [] ∧ Canonical sys datagram destHost := by
  obtain ⟨rfl, haddress⟩ := encapsulate_eq_some h
  unfold requestAddress Canonical
  unfold datagramAddress at haddress
  cases h4 : sys.ipv4Address destHost with
  | some octets => exact comesBack_ipv4 h4
  | none =>
    cases h6 : sys.ipv6Address destHost with
    | some octets =>
      rw [comesBack_ipv6 h4 h6]
      exact (and_true _).to_iff.symm
    | none =>
      rw [h4, h6] at haddress
      obtain ⟨address, hsome⟩ := Option.isSome_iff_exists.mp haddress
      exact comesBack_name h4 h6 (Option.ite_none_right_eq_some.mp hsome).1

/-- The packet for a host name. -/
def namePacket (destHost : CStr) (datagram : List Byte) : List Byte :=
  [0, 0, 0] ++ (3 :: BitVec.ofNat 8 (hostNames.count destHost) :: utf8 destHost) ++
    Socks5.portBytes 53 ++ datagram

theorem udp_comes_back_name :
    ComesBack hostNames [42] "example.org".toList 53 (namePacket "example.org".toList [42]) := by
  have hsent : encapsulateSOCKS5UDP hostNames [42] "example.org".toList 53 =
      some (namePacket "example.org".toList [42]) := by
    decide
  apply (udp_comes_back_iff hostNames hsent).mpr
  exact ⟨by decide, ⟨by simp, by decide⟩, by decide⟩

/-- An empty datagram is not taken back, and a name with a letter of two bytes is cut. -/
theorem udp_does_not_come_back :
    (encapsulateSOCKS5UDP hostNames [] "example.org".toList 53 =
        some (namePacket "example.org".toList []) ∧
      ¬ ComesBack hostNames [] "example.org".toList 53 (namePacket "example.org".toList [])) ∧
    encapsulateSOCKS5UDP hostNames [42] "é.com".toList 53 =
        some (namePacket "é.com".toList [42]) ∧
      ¬ ComesBack hostNames [42] "é.com".toList 53 (namePacket "é.com".toList [42]) := by
  refine ⟨⟨by decide, ?_⟩, by decide, ?_⟩
  · rw [namePacket, comesBack_name rfl rfl (by decide)]
    exact fun h => h.1 rfl
  · rw [namePacket, comesBack_name rfl rfl (by decide)]
    rintro ⟨-, hplain, -⟩
    exact absurd (hplain.ascii 'é' List.mem_cons_self) (by decide)

end ProxyTun.MacOS
