import ProxyTun.Core.Scanning

/-!
# Addresses and names of the proxy

`resolve_hostname` asks the resolver only for what `parse_ipv4` takes for no address. The scan of
the four numbers skips white space, takes signs, and does not look behind the fourth number.
-/
namespace ProxyTun

/-- A number that `sscanf` reads for `%u`: `strtoul` saturates at 64 bits and takes the negative of
a number with a minus, of which 32 bits are kept. -/
def scannedUnsigned (n : ℤ) : BitVec 32 :=
  if n.natAbs < 18446744073709551616 then BitVec.ofInt 32 n else BitVec.allOnes 32

/-- `sscanf(s, "%u.%u.%u.%u", ...) == 4` and the four numbers. -/
def scanUnsignedQuad (s : CStr) : Option (BitVec 32 × BitVec 32 × BitVec 32 × BitVec 32) := do
  let (a, s) ← scanField s
  let (b, s) ← scanField s
  let (c, s) ← scanField s
  let (d, _) ← strtol s
  some (scannedUnsigned a, scannedUnsigned b, scannedUnsigned c, scannedUnsigned d)

/-- `parse_ipv4`, which is 0 for what is no address. -/
def parseIpv4 (ip : CStr) : Ip :=
  match scanUnsignedQuad ip with
  | some (a, b, c, d) =>
    if 255 < a ∨ 255 < b ∨ 255 < c ∨ 255 < d then 0
    else (a <<< 0) ||| (b <<< 8) ||| (c <<< 16) ||| (d <<< 24)
  | none => 0

/-- What `getaddrinfo` does with a name. -/
inductive AddrInfo where
  | failed
  /-- The first result is no IPv4 address. -/
  | noIpv4
  | ipv4 (address : Ip)

def AddrInfo.address : AddrInfo → Ip
  | .ipv4 address => address
  | _ => 0

/-- The address that is returned, and the names that the resolver was asked for. -/
structure Lookup where
  address : Ip
  queries : List CStr
  deriving DecidableEq, Repr

/-- `resolve_hostname`. -/
def resolveHostname (getaddrinfo : CStr → AddrInfo) (hostname : CStr) : Lookup :=
  if hostname = [] then ⟨0, []⟩
  else
    let ip := parseIpv4 hostname
    if ip ≠ 0 then ⟨ip, []⟩ else ⟨(getaddrinfo hostname).address, [hostname]⟩

/-- Four numbers from 0 to 255, with dots between them and nothing else. -/
structure IsDottedQuad (hostname a b c d : CStr) : Prop where
  text : hostname = a ++ '.' :: (b ++ '.' :: (c ++ '.' :: d))
  numbers : IsNumber a ∧ IsNumber b ∧ IsNumber c ∧ IsNumber d
  small : digitsValue a ≤ 255 ∧ digitsValue b ≤ 255 ∧ digitsValue c ≤ 255 ∧ digitsValue d ≤ 255

def quadAddress (a b c d : CStr) : Ip :=
  ipv4 (BitVec.ofNat 8 (digitsValue a)) (BitVec.ofNat 8 (digitsValue b))
    (BitVec.ofNat 8 (digitsValue c)) (BitVec.ofNat 8 (digitsValue d))

/-- Four numbers, with white space and signs before them and a dot behind each but the last. -/
structure ScansAs (hostname : CStr) (a b c d : Numeral) : Prop where
  first : a.text = hostname
  second : a.tail = '.' :: b.text
  third : b.tail = '.' :: c.text
  fourth : c.tail = '.' :: d.text

/-- The numbers are kept as numbers up to 255, not all of which are 0. -/
def KeepsAddress (a b c d : Numeral) : Prop :=
  (scannedUnsigned a.value ≤ 255 ∧ scannedUnsigned b.value ≤ 255 ∧
      scannedUnsigned c.value ≤ 255 ∧ scannedUnsigned d.value ≤ 255) ∧
    (scannedUnsigned a.value ≠ 0 ∨ scannedUnsigned b.value ≠ 0 ∨
      scannedUnsigned c.value ≠ 0 ∨ scannedUnsigned d.value ≠ 0)

/-- Only a dotted quad is taken for an address, and then for its own; what is none is a name. -/
def ToldApart (hostname : CStr) : Prop :=
  ∀ getaddrinfo : CStr → AddrInfo,
    ((resolveHostname getaddrinfo hostname).queries = [] →
      ∃ a b c d, IsDottedQuad hostname a b c d ∧
        (resolveHostname getaddrinfo hostname).address = quadAddress a b c d) ∧
    ((¬ ∃ a b c d, IsDottedQuad hostname a b c d) →
      (resolveHostname getaddrinfo hostname).queries = [hostname] ∧
        (resolveHostname getaddrinfo hostname).address = (getaddrinfo hostname).address)

section Scan

variable {hostname rest : CStr} {n : ℤ} {a b c d : Numeral}

theorem scanField_eq_some_iff :
    scanField hostname = some (n, rest) ↔
      ∃ a : Numeral, a.text = hostname ∧ a.value = n ∧ a.tail = '.' :: rest := by
  constructor
  · intro h
    obtain ⟨r, hread, h⟩ := Option.bind_eq_some_iff.mp h
    obtain ⟨a, rfl⟩ := exists_numeral (by rw [hread]; simp)
    rw [a.strtol_text] at hread
    obtain rfl := Option.some.inj hread
    split_ifs at h with hdot
    rw [Option.some.injEq, Prod.mk.injEq] at h
    refine ⟨a, rfl, h.1, ?_⟩
    rw [← h.2]
    exact (List.eq_cons_of_mem_head? hdot)
  · rintro ⟨a, rfl, rfl, htail⟩
    rw [scanField, a.strtol_text, Option.bind_some, htail]
    rfl

theorem ScansAs.scan (h : ScansAs hostname a b c d) :
    scanUnsignedQuad hostname = some (scannedUnsigned a.value, scannedUnsigned b.value,
      scannedUnsigned c.value, scannedUnsigned d.value) := by
  have ha := scanField_eq_some_iff.mpr ⟨a, h.first, rfl, h.second⟩
  have hb := scanField_eq_some_iff.mpr ⟨b, rfl, rfl, h.third⟩
  have hc := scanField_eq_some_iff.mpr ⟨c, rfl, rfl, h.fourth⟩
  simp [scanUnsignedQuad, ha, hb, hc, d.strtol_text]

/-- What is scanned as four numbers is written as four numbers. -/
theorem exists_scansAs (h : scanUnsignedQuad hostname ≠ none) :
    ∃ a b c d, ScansAs hostname a b c d := by
  obtain ⟨r, hscan⟩ := Option.ne_none_iff_exists'.mp h
  obtain ⟨⟨m, s⟩, ha, hscan⟩ := Option.bind_eq_some_iff.mp hscan
  obtain ⟨⟨n, t⟩, hb, hscan⟩ := Option.bind_eq_some_iff.mp hscan
  obtain ⟨⟨o, u⟩, hc, hscan⟩ := Option.bind_eq_some_iff.mp hscan
  obtain ⟨⟨p, v⟩, hd, -⟩ := Option.bind_eq_some_iff.mp hscan
  obtain ⟨a, rfl, -, hsecond⟩ := scanField_eq_some_iff.mp ha
  obtain ⟨b, rfl, -, hthird⟩ := scanField_eq_some_iff.mp hb
  obtain ⟨c, rfl, -, hfourth⟩ := scanField_eq_some_iff.mp hc
  obtain ⟨d, rfl⟩ := exists_numeral (s := u) (by rw [hd]; simp)
  exact ⟨a, b, c, d, rfl, hsecond, hthird, hfourth⟩

theorem setWidth_of_le {w : BitVec 32} (h : w ≤ 255) : (w.setWidth 8).setWidth 32 = w := by
  apply BitVec.eq_of_toNat_eq
  have hlt : w.toNat ≤ 255 := h
  rw [BitVec.toNat_setWidth, BitVec.toNat_setWidth]
  omega

theorem ScansAs.parseIpv4_eq (h : ScansAs hostname a b c d)
    (hsmall : scannedUnsigned a.value ≤ 255 ∧ scannedUnsigned b.value ≤ 255 ∧
      scannedUnsigned c.value ≤ 255 ∧ scannedUnsigned d.value ≤ 255) :
    parseIpv4 hostname = ipv4 ((scannedUnsigned a.value).setWidth 8)
      ((scannedUnsigned b.value).setWidth 8) ((scannedUnsigned c.value).setWidth 8)
      ((scannedUnsigned d.value).setWidth 8) := by
  obtain ⟨ha, hb, hc, hd⟩ := hsmall
  rw [parseIpv4, h.scan, ← shifted_address, setWidth_of_le ha, setWidth_of_le hb,
    setWidth_of_le hc, setWidth_of_le hd]
  dsimp only
  rw [if_neg]
  simp only [not_or, BitVec.not_lt]
  exact ⟨ha, hb, hc, hd⟩

theorem ipv4_eq_zero_iff {a b c d : Byte} :
    ipv4 a b c d = 0 ↔ a = 0 ∧ b = 0 ∧ c = 0 ∧ d = 0 := by
  constructor
  · intro h
    obtain ⟨ha, hb, hc, hd⟩ := octet_ipv4 a b c d
    rw [h] at ha hb hc hd
    exact ⟨ha.symm, hb.symm, hc.symm, hd.symm⟩
  · rintro ⟨rfl, rfl, rfl, rfl⟩
    rfl

theorem setWidth_eq_zero_iff {w : BitVec 32} (h : w ≤ 255) : w.setWidth 8 = 0 ↔ w = 0 := by
  constructor
  · intro hzero
    rw [← setWidth_of_le h, hzero]
    rfl
  · rintro rfl
    rfl

theorem ScansAs.parseIpv4_ne_zero_iff (h : ScansAs hostname a b c d) :
    parseIpv4 hostname ≠ 0 ↔ KeepsAddress a b c d := by
  by_cases hsmall : scannedUnsigned a.value ≤ 255 ∧ scannedUnsigned b.value ≤ 255 ∧
      scannedUnsigned c.value ≤ 255 ∧ scannedUnsigned d.value ≤ 255
  · obtain ⟨ha, hb, hc, hd⟩ := hsmall
    have hkeeps : KeepsAddress a b c d ↔ _ := and_iff_right ⟨ha, hb, hc, hd⟩
    rw [hkeeps, h.parseIpv4_eq ⟨ha, hb, hc, hd⟩, ne_eq, ipv4_eq_zero_iff, setWidth_eq_zero_iff ha,
      setWidth_eq_zero_iff hb, setWidth_eq_zero_iff hc, setWidth_eq_zero_iff hd]
    simp only [not_and_or, ne_eq]
  · have hzero : parseIpv4 hostname = 0 := by
      rw [parseIpv4, h.scan]
      dsimp only
      rw [if_pos]
      simpa only [not_and_or, BitVec.not_le] using hsmall
    exact iff_of_false (not_not.mpr hzero) fun hkeeps => hsmall hkeeps.1

theorem parseIpv4_ne_zero_iff :
    parseIpv4 hostname ≠ 0 ↔ ∃ a b c d, ScansAs hostname a b c d ∧ KeepsAddress a b c d := by
  constructor
  · intro h
    have hscan : scanUnsignedQuad hostname ≠ none := by
      intro hnone
      rw [parseIpv4, hnone] at h
      exact h rfl
    obtain ⟨a, b, c, d, hscans⟩ := exists_scansAs hscan
    exact ⟨a, b, c, d, hscans, hscans.parseIpv4_ne_zero_iff.mp h⟩
  · rintro ⟨a, b, c, d, hscans, hkeeps⟩
    exact hscans.parseIpv4_ne_zero_iff.mpr hkeeps

end Scan

section Quad

variable {hostname a b c d : CStr}

def plainNumeral (digits tail : CStr) (h : IsNumber digits)
    (ends : ∀ c ∈ tail.head?, isDigit c = false) : Numeral where
  spaces := []
  sign := .unsigned
  digits := digits
  tail := tail
  spaces_isSpace := isSpace_of_mem_nil
  isNumber := h
  ends := ends

theorem scannedUnsigned_small {n : ℕ} (h : n ≤ 255) :
    scannedUnsigned (n : ℤ) = BitVec.ofNat 32 n := by
  rw [scannedUnsigned, if_pos (by omega), BitVec.ofInt_natCast]

theorem scannedUnsigned_plainNumeral {digits tail : CStr} (h : IsNumber digits)
    (ends : ∀ c ∈ tail.head?, isDigit c = false) (hsmall : digitsValue digits ≤ 255) :
    scannedUnsigned (plainNumeral digits tail h ends).value =
      BitVec.ofNat 32 (digitsValue digits) := scannedUnsigned_small hsmall

theorem ofNat_le {n : ℕ} (h : n ≤ 255) : BitVec.ofNat 32 n ≤ 255 := by
  rw [BitVec.le_def, BitVec.toNat_ofNat]
  change n % 4294967296 ≤ 255
  omega

theorem setWidth_ofNat (n : ℕ) : (BitVec.ofNat 32 n).setWidth 8 = BitVec.ofNat 8 n := by
  apply BitVec.eq_of_toNat_eq
  rw [BitVec.toNat_setWidth, BitVec.toNat_ofNat, BitVec.toNat_ofNat]
  omega

theorem IsDottedQuad.parseIpv4_eq (h : IsDottedQuad hostname a b c d) :
    parseIpv4 hostname = quadAddress a b c d := by
  obtain ⟨ha, hb, hc, hd⟩ := h.numbers
  obtain ⟨hasmall, hbsmall, hcsmall, hdsmall⟩ := h.small
  have hdot (text : CStr) : ∀ c ∈ ('.' :: text).head?, isDigit c = false := by
    intro c hc
    obtain rfl := Option.some.inj hc
    rfl
  have hscans : ScansAs hostname
      (plainNumeral a ('.' :: (b ++ '.' :: (c ++ '.' :: d))) ha (hdot _))
      (plainNumeral b ('.' :: (c ++ '.' :: d)) hb (hdot _)) (plainNumeral c ('.' :: d) hc (hdot _))
      (plainNumeral d [] hd isDigit_head_nil) := by
    refine ⟨h.text.symm, rfl, rfl, ?_⟩
    simp [plainNumeral, Numeral.text, Sign.text]
  rw [hscans.parseIpv4_eq]
  · simp only [scannedUnsigned_plainNumeral, hasmall, hbsmall, hcsmall, hdsmall, setWidth_ofNat,
      quadAddress]
  · simp only [scannedUnsigned_plainNumeral, hasmall, hbsmall, hcsmall, hdsmall, ofNat_le, and_self]

theorem IsDottedQuad.not_mem (h : IsDottedQuad hostname a b c d) {e : Char}
    (hdigit : isDigit e = false) (hdot : e ≠ '.') : e ∉ hostname := by
  obtain ⟨ha, hb, hc, hd⟩ := h.numbers
  rw [h.text]
  simp [ha.not_mem hdigit, hb.not_mem hdigit, hc.not_mem hdigit, hd.not_mem hdigit, hdot]

end Quad

variable {hostname : CStr}

theorem resolveHostname_eq (h : hostname ≠ []) (getaddrinfo : CStr → AddrInfo) :
    resolveHostname getaddrinfo hostname =
      if parseIpv4 hostname ≠ 0 then ⟨parseIpv4 hostname, []⟩
      else ⟨(getaddrinfo hostname).address, [hostname]⟩ := if_neg h

/-- Addresses and names are told apart exactly where all that is scanned as four numbers is a
dotted quad. -/
theorem toldApart_iff (h : hostname ≠ []) :
    ToldApart hostname ↔
      ∀ a b c d, ScansAs hostname a b c d → KeepsAddress a b c d →
        ∃ a b c d, IsDottedQuad hostname a b c d := by
  constructor
  · intro htold a b c d hscans hkeeps
    obtain ⟨hliteral, -⟩ := htold fun _ => .failed
    rw [resolveHostname_eq h, if_pos (hscans.parseIpv4_ne_zero_iff.mpr hkeeps)] at hliteral
    obtain ⟨a, b, c, d, hquad, -⟩ := hliteral rfl
    exact ⟨a, b, c, d, hquad⟩
  · intro hall getaddrinfo
    rw [resolveHostname_eq h]
    by_cases hparse : parseIpv4 hostname ≠ 0
    · obtain ⟨a, b, c, d, hscans, hkeeps⟩ := parseIpv4_ne_zero_iff.mp hparse
      obtain ⟨a, b, c, d, hquad⟩ := hall a b c d hscans hkeeps
      rw [if_pos hparse]
      exact ⟨fun _ => ⟨a, b, c, d, hquad, hquad.parseIpv4_eq⟩,
        fun hnone => absurd ⟨a, b, c, d, hquad⟩ hnone⟩
    · rw [if_neg hparse]
      exact ⟨fun hempty => absurd hempty (List.cons_ne_nil _ _), fun _ => ⟨rfl, rfl⟩⟩

theorem toldApart_address : ToldApart "10.0.0.1".toList :=
  have hten : IsNumber ['1', '0'] := ⟨by decide, List.all_eq_true.mp (by decide)⟩
  have hzero : IsNumber ['0'] := ⟨by decide, List.all_eq_true.mp (by decide)⟩
  have hone : IsNumber ['1'] := ⟨by decide, List.all_eq_true.mp (by decide)⟩
  (toldApart_iff (by decide)).mpr fun _ _ _ _ _ _ =>
    ⟨['1', '0'], ['0'], ['0'], ['1'], rfl, ⟨hten, hzero, hzero, hone⟩, by decide⟩

/-- A name that begins with four numbers is never looked up. -/
theorem not_toldApart_name :
    resolveHostname (fun _ => .ipv4 loopback) "10.0.0.1.example.org".toList =
        ⟨ipv4 10 0 0 1, []⟩ ∧
      ¬ ToldApart "10.0.0.1.example.org".toList := by
  have hlookup : resolveHostname (fun _ => .ipv4 loopback) "10.0.0.1.example.org".toList =
      ⟨ipv4 10 0 0 1, []⟩ := by
    decide +kernel
  refine ⟨hlookup, fun htold => ?_⟩
  obtain ⟨hliteral, -⟩ := htold fun _ => .ipv4 loopback
  obtain ⟨a, b, c, d, hquad, -⟩ := hliteral (congrArg Lookup.queries hlookup)
  exact hquad.not_mem (e := 'x') rfl (by decide) (by decide)

end ProxyTun
