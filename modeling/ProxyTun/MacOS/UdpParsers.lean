import ProxyTun.Library.CheckedReads
import ProxyTun.MacOS.ProxyHandshake

/-!
# What the macOS extension reads of a proxy's datagrams and replies

An address is read at an offset: its type, the host in one of three forms, and the port behind it.
An index outside of the data is a trap, which ends the extension.
-/
namespace ProxyTun.MacOS
open Library CheckedReads

/-- `(UInt16(high) << 8) | UInt16(low)`. -/
def word (high low : Byte) : BitVec 16 := high.setWidth 16 <<< 8 ||| low.setWidth 16

theorem word_eq_append (high low : Byte) : word high low = high ++ low := by
  rw [word, ← BitVec.setWidth_append_eq_shiftLeft_setWidth_or, BitVec.setWidth_eq]

def hexText (part : BitVec 16) : CStr := Nat.toDigits 16 part.toNat

def dottedQuad (a b c d : Byte) : CStr :=
  ['.'].intercalate ([a, b, c, d].map fun octet => decimal octet.toNat)

/-- A host and a port, and how many bytes they take. -/
structure Endpoint where
  host : CStr
  port : Port
  length : ℕ
  deriving DecidableEq, Repr

def readWord (data : List Byte) (i : ℕ) : Reads (BitVec 16) := do
  let high ← index data i
  let low ← index data (i + 1)
  pure (word high low)

def readIPv4 (data : List Byte) (start : ℕ) : Reads Endpoint := do
  let a ← index data start
  let b ← index data (start + 1)
  let c ← index data (start + 2)
  let d ← index data (start + 3)
  let port ← readWord data (start + 4)
  pure ⟨dottedQuad a b c d, port, 6⟩

def readIPv6 (data : List Byte) (start : ℕ) : Reads Endpoint := do
  let parts ← (List.range 8).mapM fun i => readWord data (start + i * 2)
  let port ← readWord data (start + 16)
  pure ⟨[':'].intercalate (parts.map hexText), port, 18⟩

/-- The first byte says how many bytes the name has. -/
def readDomain (data : List Byte) (start : ℕ) : Reads Endpoint := do
  let domainLen ← index data start
  let domain ← slice data (start + 1) (start + 1 + domainLen.toNat)
  let port ← readWord data (start + 1 + domainLen.toNat)
  pure ⟨(decodeUtf8 domain).getD "unknown".toList, port, 1 + domainLen.toNat + 2⟩

def readEndpoint (data : List Byte) (start : ℕ) (atyp : Byte) : Reads (Option Endpoint) :=
  if atyp = 1 then some <$> readIPv4 data start
  else if atyp = 4 then some <$> readIPv6 data start
  else if atyp = 3 then some <$> readDomain data start
  else pure none

def parseSOCKS5Address (data : List Byte) (offset : ℕ) : Reads (CStr × Port) := do
  let atyp ← index data offset
  let endpoint ← readEndpoint data (offset + 1) atyp
  pure (endpoint.elim ("0.0.0.0".toList, 0) fun e => (e.host, e.port))

/-- The payload behind the header, which must not be empty. -/
def payloadBehind (datagram : List Byte) (e : Endpoint) :
    Reads (Option (List Byte × CStr × Port)) :=
  let headerLen := 4 + e.length
  if headerLen < datagram.length then do
    let payload ← slice datagram headerLen datagram.length
    pure (some (payload, e.host, e.port))
  else pure none

def decapsulateSOCKS5UDPWithEndpoint (datagram : List Byte) :
    Reads (Option (List Byte × CStr × Port)) :=
  if 10 < datagram.length then do
    let atyp ← index datagram 3
    let endpoint ← readEndpoint datagram 4 atyp
    endpoint.elim (pure none) (payloadBehind datagram)
  else pure none

/-- How many bytes an address takes, by its type and the byte behind it. -/
def endpointLength (data : List Byte) (start : ℕ) (atyp : Byte) : ℕ :=
  if atyp = 1 then 6
  else if atyp = 4 then 18
  else if atyp = 3 then 1 + (data.getD start default).toNat + 2
  else 0

variable {data : List Byte} {start : ℕ}

theorem inRange_readWord (i : ℕ) : InRange (readWord data i) ↔ i + 1 < data.length := by
  unfold readWord
  simp only [inRange_index_bind, inRange_pure, and_true]
  omega

theorem inRange_readIPv4 : InRange (readIPv4 data start) ↔ start + 6 ≤ data.length := by
  unfold readIPv4
  simp only [inRange_index_bind, bind_pure_comp, inRange_map, inRange_readWord]
  omega

theorem inRange_readIPv6 : InRange (readIPv6 data start) ↔ start + 18 ≤ data.length := by
  have hport (parts : List (BitVec 16)) :
      InRange (do
        let port ← readWord data (start + 16)
        pure (⟨[':'].intercalate (parts.map hexText), port, 18⟩ : Endpoint)) ↔
        start + 17 < data.length := by
    rw [bind_pure_comp, inRange_map, inRange_readWord]
  rw [readIPv6, inRange_bind_iff hport, inRange_mapM]
  simp only [inRange_readWord, List.mem_range]
  constructor
  · rintro ⟨-, hend⟩
    omega
  · intro hend
    exact ⟨fun i hi => by omega, by omega⟩

theorem inRange_readDomain :
    InRange (readDomain data start) ↔
      start + (1 + (data.getD start default).toNat + 2) ≤ data.length := by
  unfold readDomain
  simp only [inRange_index_bind, inRange_slice_bind, bind_pure_comp, inRange_map,
    inRange_readWord]
  omega

theorem inRange_readEndpoint {atyp : Byte} (h : start ≤ data.length) :
    InRange (readEndpoint data start atyp) ↔
      start + endpointLength data start atyp ≤ data.length := by
  unfold readEndpoint endpointLength
  split_ifs
  · rw [inRange_map, inRange_readIPv4]
  · rw [inRange_map, inRange_readIPv6]
  · rw [inRange_map, inRange_readDomain]
  · exact iff_of_true (inRange_pure none) h

theorem inRange_payloadBehind (e : Endpoint) : InRange (payloadBehind data e) := by
  unfold payloadBehind
  dsimp only
  split_ifs with hlength
  · rw [inRange_slice_bind]
    exact ⟨⟨hlength.le, le_rfl⟩, inRange_pure _⟩
  · exact inRange_pure none

/-- The bytes of the header up to the end of its address are there. -/
def HoldsAddress (data : List Byte) : Prop :=
  4 + endpointLength data 4 (data.getD 3 default) ≤ data.length

instance (data : List Byte) : Decidable (HoldsAddress data) :=
  inferInstanceAs (Decidable (_ ≤ _))

theorem inRange_parse (h : 10 ≤ data.length) :
    InRange (parseSOCKS5Address data 3) ↔ HoldsAddress data := by
  unfold parseSOCKS5Address
  rw [inRange_index_bind, bind_pure_comp, inRange_map, inRange_readEndpoint (by omega)]
  exact and_iff_right (by omega)

theorem inRange_decapsulate :
    InRange (decapsulateSOCKS5UDPWithEndpoint data) ↔ (10 < data.length → HoldsAddress data) := by
  have hbehind (endpoint : Option Endpoint) :
      InRange (endpoint.elim (pure none) (payloadBehind data)) ↔ True := by
    cases endpoint with
    | none => exact iff_true_intro (inRange_pure none)
    | some e => exact iff_true_intro (inRange_payloadBehind e)
  unfold decapsulateSOCKS5UDPWithEndpoint
  split_ifs with hlength
  · rw [inRange_index_bind, inRange_bind_iff hbehind, inRange_readEndpoint (by omega), and_true,
      and_iff_right (by omega : 3 < data.length)]
    exact (imp_iff_right hlength).symm
  · exact iff_of_true (inRange_pure none) fun h => absurd h hlength

/-- For every datagram and every reply of at least 10 bytes, the parsers stay inside the data
exactly when the data goes on to the end of its address. -/
theorem udp_parsers_in_range_iff (datagram reply : List Byte) (hreply : 10 ≤ reply.length) :
    (InRange (decapsulateSOCKS5UDPWithEndpoint datagram) ↔
        (10 < datagram.length → HoldsAddress datagram)) ∧
      (InRange (parseSOCKS5Address reply 3) ↔ HoldsAddress reply) :=
  ⟨inRange_decapsulate, inRange_parse hreply⟩

theorem udp_parsers_in_range_ipv4 :
    InRange (decapsulateSOCKS5UDPWithEndpoint [0, 0, 0, 1, 8, 8, 8, 8, 0, 53, 42]) ∧
      InRange (parseSOCKS5Address [5, 0, 0, 1, 10, 0, 0, 1, 4, 56] 3) := by
  obtain ⟨hdatagram, hreply⟩ := udp_parsers_in_range_iff [0, 0, 0, 1, 8, 8, 8, 8, 0, 53, 42]
    [5, 0, 0, 1, 10, 0, 0, 1, 4, 56] (by decide)
  exact ⟨hdatagram.mpr fun _ => by decide, hreply.mpr (by decide)⟩

/-- A datagram of 11 bytes and a reply of 10, whose addresses would be longer. -/
theorem udp_parsers_trap :
    (decapsulateSOCKS5UDPWithEndpoint [0, 0, 0, 4, 0, 0, 0, 0, 0, 0, 0] = .error (.index 11) ∧
        ¬ InRange (decapsulateSOCKS5UDPWithEndpoint [0, 0, 0, 4, 0, 0, 0, 0, 0, 0, 0])) ∧
      parseSOCKS5Address [5, 0, 0, 3, 200, 0, 0, 0, 0, 0] 3 = .error (.slice 5 205) ∧
        ¬ InRange (parseSOCKS5Address [5, 0, 0, 3, 200, 0, 0, 0, 0, 0] 3) := by
  refine ⟨⟨rfl, ?_⟩, rfl, ?_⟩
  · rw [inRange_decapsulate]
    decide
  · rw [inRange_parse (by decide)]
    decide

end ProxyTun.MacOS
