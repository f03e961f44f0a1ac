import ProxyTun.Rules.HostTokens

/-!
# Host patterns on Windows

Well-formed tokens mean what they say. The others are read as far as `atoi` and `sscanf` read
them, and such a token matches nothing only if one of its parts fits no address.
-/
namespace ProxyTun.Windows
open Library

theorem or_shift {x y i : ℕ} (hx : x < 2 ^ i) : x ||| y <<< i = 2 ^ i * y + x := by
  rw [Nat.or_comm, ← Nat.shiftLeft_add_eq_or_of_lt hx, Nat.shiftLeft_eq, Nat.mul_comm]

theorem toNat_shifted (a : Byte) {i : ℕ} (hi : i ≤ 24) :
    (BitVec.ofInt 32 (a.toNat : ℤ) <<< i).toNat = a.toNat <<< i := by
  have ha : a.toNat < 2 ^ 8 := a.isLt
  have hlt : a.toNat * 2 ^ i < 2 ^ 8 * 2 ^ 24 :=
    Nat.mul_lt_mul_of_lt_of_le ha (Nat.pow_le_pow_right (by omega) hi) (Nat.two_pow_pos 24)
  rw [BitVec.ofInt_natCast, BitVec.toNat_shiftLeft, BitVec.toNat_ofNat,
    Nat.mod_eq_of_lt (ha.trans (by decide)), Nat.shiftLeft_eq, Nat.mod_eq_of_lt]
  omega

theorem packQuad_eq (a b c d : Byte) :
    packQuad (a.toNat, b.toNat, c.toNat, d.toNat) = ipv4 a b c d := by
  apply BitVec.eq_of_toNat_eq
  have ha : a.toNat < 2 ^ 8 := a.isLt
  have hab : 2 ^ 8 * b.toNat + a.toNat < 2 ^ 16 := by omega
  have habc : 2 ^ 16 * c.toNat + (2 ^ 8 * b.toNat + a.toNat) < 2 ^ 24 := by omega
  have hfirst : (BitVec.ofInt 32 (a.toNat : ℤ)).toNat = a.toNat := by
    rw [BitVec.ofInt_natCast, BitVec.toNat_ofNat, Nat.mod_eq_of_lt (ha.trans (by decide))]
  rw [packQuad, BitVec.toNat_or, BitVec.toNat_or, BitVec.toNat_or, hfirst,
    toNat_shifted b (by omega), toNat_shifted c (by omega), toNat_shifted d (by omega),
    or_shift ha, or_shift hab, or_shift habc, toNat_ipv4]
  omega

theorem scanQuad_numbers {a b c d : CStr} (ha : IsNumber a) (hb : IsNumber b) (hc : IsNumber c)
    (hd : IsNumber d) :
    scanQuad (a ++ '.' :: (b ++ '.' :: (c ++ '.' :: d))) =
      some (narrow (digitsValue a), narrow (digitsValue b), narrow (digitsValue c),
        narrow (digitsValue d)) := by
  have hdot (rest : CStr) : ∀ c ∈ ('.' :: rest).head?, isDigit c = false := by
    rintro c ⟨⟩
    rfl
  simp [scanQuad, ha.strtol_append (hdot _), hb.strtol_append (hdot _), hc.strtol_append (hdot _),
    hd.strtol_eq]

theorem scanQuad_formatIpAddress (ip : Ip) :
    (scanQuad (formatIpAddress ip)).map packQuad = some ip := by
  have hnarrow (number : Byte) :
      narrow (digitsValue (decimal number.toNat) : ℤ) = (number.toNat : ℤ) := by
    have hnumber : number.toNat < 2 ^ 8 := number.isLt
    rw [digitsValue_decimal, narrow_eq_self (by omega)]
  have htext : formatIpAddress ip = decimal (octet ip 0).toNat ++ '.' ::
      (decimal (octet ip 1).toNat ++ '.' :: (decimal (octet ip 2).toNat ++ '.' ::
        decimal (octet ip 3).toNat)) := by
    simp [formatIpAddress_fields, hostToken, fieldText, List.intercalate]
  rw [htext, scanQuad_numbers (isNumber_decimal _) (isNumber_decimal _) (isNumber_decimal _)
    (isNumber_decimal _), hnarrow, hnarrow, hnarrow, hnarrow, Option.map_some, packQuad_eq,
    ipv4_octets]

/-- A range is compared with the address in the order of the dotted form. -/
theorem matchIpPattern_rangeToken (first last ip : Ip) :
    matchIpPattern (rangeToken first last) ip = true ↔
      bigEndian first ≤ bigEndian ip ∧ bigEndian ip ≤ bigEndian last := by
  have hplain : '-' ∉ formatIpAddress first :=
    not_mem_formatIpAddress (by decide) rfl (by decide) first
  have hshort := length_formatIpAddress_le first
  have hwhole : (formatIpAddress last).take 63 = formatIpAddress last :=
    List.take_of_length_le ((length_formatIpAddress_le last).trans (by decide))
  obtain ⟨s, hs, hstart⟩ := Option.map_eq_some_iff.mp (scanQuad_formatIpAddress first)
  obtain ⟨e, he, hend⟩ := Option.map_eq_some_iff.mp (scanQuad_formatIpAddress last)
  have hdash : (rangeToken first last).contains '-' = true := by simp [rangeToken]
  have hstar : rangeToken first last ≠ ['*'] := by
    intro heq
    rw [heq] at hdash
    cases hdash
  rw [matchIpPattern, decide_eq_false hstar, Bool.false_or, if_pos hdash]
  simp only [rangeToken, takeWhile_ne_append hplain, dropWhile_ne_append hplain,
    List.drop_succ_cons, List.drop_zero, hwhole, hs, he, hstart, hend]
  rw [if_neg (by omega), Bool.and_eq_true_iff, decide_eq_true_iff, decide_eq_true_iff]

/-- Four fields match the addresses with their numbers, and a range the addresses between its
ends. -/
theorem matchIpPattern_wellFormed (ip : Ip) :
    (∀ a b c d : Option Byte,
      matchIpPattern (hostToken [a, b, c, d]) ip = true ↔ FieldsMatch [a, b, c, d] ip) ∧
    ∀ first last : Ip,
      matchIpPattern (rangeToken first last) ip = true ↔
        bigEndian first ≤ bigEndian ip ∧ bigEndian ip ≤ bigEndian last := by
  constructor
  · intro a b c d
    have hfour : [a, b, c, d].length = 4 := rfl
    exact (matchIpPattern_hostToken .windows (by omega) hfour.le ip).trans (and_iff_right hfour)
  · intro first last
    exact matchIpPattern_rangeToken first last ip

/-- Four numbers up to 255 with dots between them. -/
def IsQuad (text : CStr) : Prop :=
  (text.splitOn '.').length = 4 ∧ ∀ f ∈ text.splitOn '.', IsNumber f ∧ digitsValue f ≤ 255

/-- Four fields with dots between them, each a star or a number up to 255. -/
def IsFourFields (token : CStr) : Prop :=
  (token.splitOn '.').length = 4 ∧
    ∀ f ∈ token.splitOn '.', f = ['*'] ∨ IsNumber f ∧ digitsValue f ≤ 255

/-- The tokens that the documentation knows. -/
def IsHostToken (token : CStr) : Prop :=
  token = ['*'] ∨ IsFourFields token ∨
    ∃ first last, token = first ++ '-' :: last ∧ IsQuad first ∧ IsQuad last

/-- The parts that are read of a token fit an address: the two ends that `sscanf` finds around
the first dash, in this order, or the first four fields. -/
def ReadsAsHost (token : CStr) : Prop :=
  if '-' ∈ token then
    (token.takeWhile (· != '-')).length < 64 ∧
      ∃ s e, scanQuad (token.takeWhile (· != '-')) = some s ∧
        scanQuad (((token.dropWhile (· != '-')).drop 1).take 63) = some e ∧
        bigEndian (packQuad s) ≤ bigEndian (packQuad e)
  else
    ∃ fields, patternOctets token = some fields ∧
      ∀ f ∈ fields, f = ['*'] ∨ 0 ≤ atoi f ∧ atoi f ≤ 255

def fieldByte (f : CStr) : Byte := BitVec.ofInt 8 (atoi f)

theorem fieldByte_fits {f : CStr} (h : f = ['*'] ∨ 0 ≤ atoi f ∧ atoi f ≤ 255) :
    f = ['*'] ∨ (atoi f = (fieldByte f).toNat : Bool) = true := by
  apply h.imp_right
  rintro ⟨hlow, hhigh⟩
  rw [decide_eq_true_iff, fieldByte, BitVec.toNat_ofInt]
  omega

theorem fits_of_octet {f : CStr} {o : Byte}
    (h : f = ['*'] ∨ (atoi f = (o.toNat : ℤ) : Bool) = true) :
    f = ['*'] ∨ 0 ≤ atoi f ∧ atoi f ≤ 255 := by
  apply h.imp_right
  intro heq
  have ho : o.toNat < 2 ^ 8 := o.isLt
  rw [decide_eq_true_iff] at heq
  omega

theorem matchIpPattern_range {token : CStr} (h : '-' ∈ token) (ip : Ip) :
    matchIpPattern token ip = true ↔ (token.takeWhile (· != '-')).length < 64 ∧
      ∃ s e, scanQuad (token.takeWhile (· != '-')) = some s ∧
        scanQuad (((token.dropWhile (· != '-')).drop 1).take 63) = some e ∧
        bigEndian (packQuad s) ≤ bigEndian ip ∧ bigEndian ip ≤ bigEndian (packQuad e) := by
  have hstar : token ≠ ['*'] := by
    rintro rfl
    revert h
    decide
  rw [matchIpPattern, decide_eq_false hstar, Bool.false_or, if_pos (by simpa using h)]
  dsimp only
  split_ifs with hlong
  · exact iff_of_false (by decide) (by omega)
  · rw [and_iff_right (by omega)]
    cases scanQuad (token.takeWhile (· != '-')) with
    | none => simp
    | some s =>
      cases scanQuad (((token.dropWhile (· != '-')).drop 1).take 63) with
      | none => simp
      | some e => simp

theorem matchIpPattern_fields {token : CStr} (h : '-' ∉ token) (hstar : token ≠ ['*']) (ip : Ip) :
    matchIpPattern token ip = matchOctets (fun f o => atoi f = o) token ip := by
  simp [matchIpPattern, h, hstar]

theorem exists_matchIpPattern_iff {token : CStr} (hstar : token ≠ ['*']) :
    (∃ ip, matchIpPattern token ip = true) ↔ ReadsAsHost token := by
  unfold ReadsAsHost
  split_ifs with hdash
  · simp only [matchIpPattern_range hdash]
    constructor
    · rintro ⟨ip, hshort, s, e, hs, he, hstart, hend⟩
      exact ⟨hshort, s, e, hs, he, hstart.trans hend⟩
    · rintro ⟨hshort, s, e, hs, he, hle⟩
      exact ⟨packQuad s, hshort, s, e, hs, he, le_rfl, hle⟩
  · simp only [matchIpPattern_fields hdash hstar]
    constructor
    · rintro ⟨ip, hmatch⟩
      cases hcut : patternOctets token with
      | none => simp [matchOctets, hcut] at hmatch
      | some fields =>
        obtain ⟨a, b, c, d, rfl⟩ := exists_fields hcut
        obtain ⟨ha, hb, hc, hd⟩ := (matchOctets_four hcut ip).mp hmatch
        refine ⟨_, rfl, ?_⟩
        simp only [List.forall_mem_cons]
        exact ⟨fits_of_octet ha, fits_of_octet hb, fits_of_octet hc, fits_of_octet hd,
          fun f hf => absurd hf List.not_mem_nil⟩
    · rintro ⟨fields, hcut, hfields⟩
      obtain ⟨a, b, c, d, rfl⟩ := exists_fields hcut
      simp only [List.forall_mem_cons] at hfields
      obtain ⟨ha, hb, hc, hd, -⟩ := hfields
      obtain ⟨h0, h1, h2, h3⟩ :=
        octet_ipv4 (fieldByte a) (fieldByte b) (fieldByte c) (fieldByte d)
      refine ⟨ipv4 (fieldByte a) (fieldByte b) (fieldByte c) (fieldByte d), ?_⟩
      rw [matchOctets_four hcut, h0, h1, h2, h3]
      exact ⟨fieldByte_fits ha, fieldByte_fits hb, fieldByte_fits hc, fieldByte_fits hd⟩

/-- A token that is not well-formed matches no address if and only if its parts fit none. -/
theorem malformed_matches_nothing_iff {token : CStr} (h : ¬ IsHostToken token) :
    (∀ ip, matchIpPattern token ip = false) ↔ ¬ ReadsAsHost token := by
  have hstar : token ≠ ['*'] := fun heq => h (.inl heq)
  rw [← exists_matchIpPattern_iff hstar, not_exists]
  simp only [Bool.not_eq_true]

/-- Without a dash only a star and four fields are well-formed. -/
theorem not_isHostToken {token : CStr} (hstar : token ≠ ['*']) (hdash : '-' ∉ token)
    (hfour : ¬ IsFourFields token) : ¬ IsHostToken token := by
  rintro (h | h | ⟨first, last, rfl, -⟩)
  · exact hstar h
  · exact hfour h
  · exact hdash (by simp)

theorem malformed_matches_nothing_hostname :
    ¬ IsHostToken "proxy.example.com".toList ∧
      ∀ ip, matchIpPattern "proxy.example.com".toList ip = false := by
  have hmalformed : ¬ IsHostToken "proxy.example.com".toList := by
    apply not_isHostToken (by decide) (by decide)
    intro hfour
    exact absurd hfour.1 (by decide)
  have hcut : ¬ ReadsAsHost "proxy.example.com".toList := by
    rw [ReadsAsHost, if_neg (by decide)]
    rintro ⟨fields, hfields, -⟩
    have hnone : patternOctets "proxy.example.com".toList = none := by decide
    rw [hnone] at hfields
    cases hfields
  exact ⟨hmalformed, (malformed_matches_nothing_iff hmalformed).mpr hcut⟩

/-- A token with five fields and a hostname with four labels match an address each. -/
theorem malformed_matches_something :
    ¬ IsHostToken "10.0.0.1.2".toList ∧
    matchIpPattern "10.0.0.1.2".toList (ipv4 10 0 0 1) = true ∧
    ¬ IsHostToken "a.b.example.com".toList ∧
    matchIpPattern "a.b.example.com".toList (ipv4 0 0 0 0) = true := by
  refine ⟨?_, by decide, ?_, by decide⟩
  · apply not_isHostToken (by decide) (by decide)
    intro hfour
    exact absurd hfour.1 (by decide)
  · apply not_isHostToken (by decide) (by decide)
    intro hfour
    rcases hfour.2 ['a'] (by decide) with hstar | ⟨hnumber, -⟩
    · revert hstar
      decide
    · exact absurd (hnumber.digits 'a' (by decide)) (by decide)

end ProxyTun.Windows
