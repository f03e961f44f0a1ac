import ProxyTun.Tunnel.HttpConnect

/-!
# Base 64

Three bytes are four digits, and two padding characters or one stand for the digits of bytes that
are not there.
-/
namespace ProxyTun

/-- The value of a digit of base 64. -/
def base64Value (c : Char) : Option (BitVec 6) :=
  if 'A' ≤ c ∧ c ≤ 'Z' then some (BitVec.ofNat 6 (c.toNat - 65))
  else if 'a' ≤ c ∧ c ≤ 'z' then some (BitVec.ofNat 6 (c.toNat - 97 + 26))
  else if '0' ≤ c ∧ c ≤ '9' then some (BitVec.ofNat 6 (c.toNat - 48 + 52))
  else if c = '+' then some 62
  else if c = '/' then some 63
  else none

/-- The bytes of a text in base 64 with padding, of which the bits that stand for no byte are
zero. -/
def base64Decode : CStr → Option (List Byte)
  | [] => some []
  | [c, d, '=', '='] => do
    let n : BitVec 12 := (← base64Value c) ++ (← base64Value d)
    if n.extractLsb' 0 4 = 0 then some [n.extractLsb' 4 8] else none
  | [c, d, e, '='] => do
    let n : BitVec 18 := (← base64Value c) ++ (← base64Value d) ++ (← base64Value e)
    if n.extractLsb' 0 2 = 0 then some [n.extractLsb' 10 8, n.extractLsb' 2 8] else none
  | c :: d :: e :: f :: rest => do
    let n : BitVec 24 := (← base64Value c) ++ (← base64Value d) ++ (← base64Value e) ++
      (← base64Value f)
    let bytes ← base64Decode rest
    some (n.extractLsb' 16 8 :: n.extractLsb' 8 8 :: n.extractLsb' 0 8 :: bytes)
  | _ => none

theorem base64Value_base64Char : ∀ n : BitVec 6, base64Value (base64Char n) = some n := by
  decide

theorem base64Char_ne_padding : ∀ n : BitVec 6, base64Char n ≠ '=' := by
  decide

section
variable (a b c : Byte)

theorem digits_three (n : BitVec 24) :
    (n.extractLsb' 18 6 ++ n.extractLsb' 12 6 ++ n.extractLsb' 6 6 ++ n.extractLsb' 0 6 :
      BitVec 24) = n := by
  rw [BitVec.extractLsb'_append_extractLsb'_eq_extractLsb' (by rfl),
    BitVec.extractLsb'_append_extractLsb'_eq_extractLsb' (by rfl),
    BitVec.extractLsb'_append_extractLsb'_eq_extractLsb' (by rfl)]
  exact BitVec.extractLsb'_eq_self

theorem toNat_three : (a ++ b ++ c : BitVec 24).toNat =
    2 ^ 16 * a.toNat + 2 ^ 8 * b.toNat + c.toNat := by
  simp only [BitVec.toNat_append]
  rw [← Nat.shiftLeft_add_eq_or_of_lt b.isLt, ← Nat.shiftLeft_add_eq_or_of_lt c.isLt]
  simp only [Nat.shiftLeft_eq]
  omega

theorem bytes_three : (a ++ b ++ c : BitVec 24).extractLsb' 16 8 = a ∧
    (a ++ b ++ c : BitVec 24).extractLsb' 8 8 = b ∧
    (a ++ b ++ c : BitVec 24).extractLsb' 0 8 = c := by
  have ha := a.isLt
  have hb := b.isLt
  have hc := c.isLt
  refine ⟨?_, ?_, ?_⟩
  all_goals
    apply BitVec.eq_of_toNat_eq
    rw [BitVec.extractLsb'_toNat, toNat_three, Nat.shiftRight_eq_div_pow]
    omega

theorem digits_two (n : BitVec 24) :
    (n.extractLsb' 18 6 ++ n.extractLsb' 12 6 ++ n.extractLsb' 6 6 : BitVec 18) =
      n.extractLsb' 6 18 := by
  rw [BitVec.extractLsb'_append_extractLsb'_eq_extractLsb' (by rfl),
    BitVec.extractLsb'_append_extractLsb'_eq_extractLsb' (by rfl)]

theorem digits_one (n : BitVec 24) :
    (n.extractLsb' 18 6 ++ n.extractLsb' 12 6 : BitVec 12) = n.extractLsb' 12 12 :=
  BitVec.extractLsb'_append_extractLsb'_eq_extractLsb' (by rfl)

theorem bytes_two : ((a ++ b ++ (0 : Byte) : BitVec 24).extractLsb' 6 18).extractLsb' 0 2 = 0 ∧
    ((a ++ b ++ (0 : Byte) : BitVec 24).extractLsb' 6 18).extractLsb' 10 8 = a ∧
    ((a ++ b ++ (0 : Byte) : BitVec 24).extractLsb' 6 18).extractLsb' 2 8 = b := by
  have hn := toNat_three a b 0
  have ha := a.isLt
  have hb := b.isLt
  have hzero : (0 : Byte).toNat = 0 := rfl
  have hzero' : (0 : BitVec 2).toNat = 0 := rfl
  refine ⟨?_, ?_, ?_⟩
  all_goals
    apply BitVec.eq_of_toNat_eq
    rw [BitVec.extractLsb'_toNat, BitVec.extractLsb'_toNat, hn, Nat.shiftRight_eq_div_pow,
      Nat.shiftRight_eq_div_pow]
    omega

theorem bytes_one : ((a ++ (0 : BitVec 16) : BitVec 24).extractLsb' 12 12).extractLsb' 0 4 = 0 ∧
    ((a ++ (0 : BitVec 16) : BitVec 24).extractLsb' 12 12).extractLsb' 4 8 = a := by
  have hn : (a ++ (0 : BitVec 16) : BitVec 24).toNat = 2 ^ 16 * a.toNat := by
    rw [BitVec.toNat_append, Nat.shiftLeft_eq]
    simp [Nat.mul_comm]
  have ha := a.isLt
  have hzero : (0 : BitVec 4).toNat = 0 := rfl
  refine ⟨?_, ?_⟩
  all_goals
    apply BitVec.eq_of_toNat_eq
    rw [BitVec.extractLsb'_toNat, BitVec.extractLsb'_toNat, hn, Nat.shiftRight_eq_div_pow,
      Nat.shiftRight_eq_div_pow]
    omega

end

theorem base64Decode_four {c d e f : Char} (h : f ≠ '=') (rest : CStr) :
    base64Decode (c :: d :: e :: f :: rest) = (do
      let n : BitVec 24 := (← base64Value c) ++ (← base64Value d) ++ (← base64Value e) ++
        (← base64Value f)
      let bytes ← base64Decode rest
      some (n.extractLsb' 16 8 :: n.extractLsb' 8 8 :: n.extractLsb' 0 8 :: bytes)) := by
  rw [base64Decode]
  all_goals simp [h]

theorem base64Decode_base64Encode (bytes : List Byte) :
    base64Decode (base64Encode bytes) = some bytes := by
  induction bytes using base64Encode.induct with
  | case1 a b c rest ih =>
    obtain ⟨ha, hb, hc⟩ := bytes_three a b c
    simp only [base64Encode, List.cons_append, List.nil_append]
    rw [base64Decode_four (base64Char_ne_padding _)]
    simp only [base64Value_base64Char, Option.bind_eq_bind, Option.bind_some, ih, digits_three,
      ha, hb, hc]
  | case2 a b =>
    obtain ⟨hzero, ha, hb⟩ := bytes_two a b
    have hpadding : base64Char ((a ++ b ++ (0 : Byte) : BitVec 24).extractLsb' 6 6) ≠ '=' :=
      base64Char_ne_padding _
    simp only [base64Encode]
    rw [base64Decode]
    · simp only [base64Value_base64Char, Option.bind_eq_bind, Option.bind_some, digits_two,
        hzero, ha, hb, if_true]
    · exact fun h => hpadding h
  | case3 a =>
    obtain ⟨hzero, ha⟩ := bytes_one a
    simp only [base64Encode, base64Decode]
    simp only [base64Value_base64Char, Option.bind_eq_bind, Option.bind_some, digits_one,
      hzero, ha, if_true]
  | case4 => rfl

/-- The four characters of a block, of which the second and third byte may not be there. -/
def base64Block (a b c : Byte) (two three : Bool) : CStr :=
  let n : BitVec 24 := a ++ b ++ c
  [base64Char (n.extractLsb' 18 6), base64Char (n.extractLsb' 12 6),
    if two then base64Char (n.extractLsb' 6 6) else '=',
    if three then base64Char (n.extractLsb' 0 6) else '=']

theorem base64Encode_eq_block {bytes : List Byte} (h : bytes ≠ []) :
    base64Encode bytes =
      base64Block (bytes.getD 0 0) (bytes.getD 1 0) (bytes.getD 2 0) (1 < bytes.length)
        (2 < bytes.length) ++ base64Encode (bytes.drop 3) := by
  induction bytes using base64Encode.induct with
  | case1 a b c rest => simp [base64Encode, base64Block]
  | case2 a b => simp [base64Encode, base64Block]
  | case3 a =>
    have hn : (a ++ (0 : BitVec 16) : BitVec 24) = a ++ (0 : Byte) ++ (0 : Byte) := by
      apply BitVec.eq_of_toNat_eq
      rw [toNat_three, BitVec.toNat_append, Nat.shiftLeft_eq]
      have hzero : (0 : Byte).toNat = 0 := rfl
      have hzero' : (0 : BitVec 16).toNat = 0 := rfl
      rw [hzero, hzero', Nat.or_zero]
      omega
    have hblock : base64Encode [a] = base64Block a 0 0 false false := by
      rw [base64Encode, hn]
      rfl
    simpa [base64Encode] using hblock
  | case4 => exact absurd rfl h

theorem length_base64Encode (bytes : List Byte) :
    (base64Encode bytes).length = 4 * ((bytes.length + 2) / 3) := by
  induction bytes using base64Encode.induct with
  | case1 a b c rest ih =>
    simp only [base64Encode, List.length_append, ih, List.length_cons, List.length_nil]
    omega
  | case2 a b => simp [base64Encode]
  | case3 a => simp [base64Encode]
  | case4 => simp [base64Encode]

theorem mem_base64Encode {bytes : List Byte} {c : Char} (h : c ∈ base64Encode bytes) :
    c = '=' ∨ ∃ n, c = base64Char n := by
  induction bytes using base64Encode.induct with
  | case1 a b d rest ih =>
    rw [base64Encode, List.mem_append] at h
    rcases h with h | h
    · simp only [List.mem_cons, List.not_mem_nil, or_false] at h
      rcases h with rfl | rfl | rfl | rfl
      all_goals exact .inr ⟨_, rfl⟩
    · exact ih h
  | case2 a b =>
    simp only [base64Encode, List.mem_cons, List.not_mem_nil, or_false] at h
    rcases h with rfl | rfl | rfl | rfl
    · exact .inr ⟨_, rfl⟩
    · exact .inr ⟨_, rfl⟩
    · exact .inr ⟨_, rfl⟩
    · exact .inl rfl
  | case3 a =>
    simp only [base64Encode, List.mem_cons, List.not_mem_nil, or_false] at h
    rcases h with rfl | rfl | rfl | rfl
    · exact .inr ⟨_, rfl⟩
    · exact .inr ⟨_, rfl⟩
    · exact .inl rfl
    · exact .inl rfl
  | case4 => cases h

theorem byte_base64Char_ne_zero : ∀ n : BitVec 6,
    BitVec.ofNat 8 (base64Char n).toNat ≠ 0 := by
  decide

/-- A text in base 64 does not end early as a C string. -/
theorem zero_not_mem_base64Encode (bytes : List Byte) : 0 ∉ bytesOf (base64Encode bytes) := by
  intro h
  obtain ⟨c, hc, hzero⟩ := List.mem_map.mp h
  rcases mem_base64Encode hc with rfl | ⟨n, rfl⟩
  · exact absurd hzero (by decide)
  · exact byte_base64Char_ne_zero n hzero

example : base64Decode "cHJveHk6".toList = some (bytesOf "proxy:".toList) := by decide

end ProxyTun
