import ProxyTun.Rules.HostTokens

/-!
# Host ranges on Linux

A token is cut at its dots before a dash is looked for. The fourth field of a range is the last
number of its start together with the first number of its end, and what is behind it is dropped.
-/
namespace ProxyTun.Linux
open Library Windows

def straddlingField (first last : Ip) : CStr :=
  decimal (octet first 3).toNat ++ '-' :: decimal (octet last 0).toNat

theorem rangeToken_eq (first last : Ip) :
    rangeToken first last = ['.'].intercalate
      [decimal (octet first 0).toNat, decimal (octet first 1).toNat, decimal (octet first 2).toNat,
        straddlingField first last, decimal (octet last 1).toNat, decimal (octet last 2).toNat,
        decimal (octet last 3).toNat] := by
  simp [rangeToken, straddlingField, formatIpAddress_fields, hostToken, fieldText,
    List.intercalate]

theorem patternOctets_rangeToken (first last : Ip) :
    patternOctets (rangeToken first last) =
      some [decimal (octet first 0).toNat, decimal (octet first 1).toNat,
        decimal (octet first 2).toNat, straddlingField first last] := by
  have hfirst := length_formatIpAddress_le first
  have hlast := length_formatIpAddress_le last
  have hwhole : (rangeToken first last).take 255 = rangeToken first last := by
    apply List.take_of_length_le
    rw [rangeToken, List.length_append, List.length_cons]
    omega
  have hdot (number : Byte) : '.' ∉ decimal number.toNat := (isNumber_decimal _).not_mem rfl
  have hsplit : (rangeToken first last).splitOn '.' =
      [decimal (octet first 0).toNat, decimal (octet first 1).toNat, decimal (octet first 2).toNat,
        straddlingField first last, decimal (octet last 1).toNat, decimal (octet last 2).toNat,
        decimal (octet last 3).toNat] := by
    rw [rangeToken_eq]
    apply List.splitOn_intercalate
    · simp [straddlingField, hdot]
    · exact List.cons_ne_nil _ _
  have hcut (number : Byte) : (decimal number.toNat).take 15 = decimal number.toNat :=
    List.take_of_length_le ((length_decimal_le number).trans (by decide))
  have hstraddling : (straddlingField first last).take 15 = straddlingField first last := by
    have hstart := length_decimal_le (octet first 3)
    have hend := length_decimal_le (octet last 0)
    apply List.take_of_length_le
    rw [straddlingField, List.length_append, List.length_cons]
    omega
  rw [patternOctets, hwhole, hsplit]
  simp [hcut, hstraddling]

theorem matchIpField_straddling_iff (first last : Ip) (number : Byte) :
    matchIpField (straddlingField first last) number.toNat = true ↔
      (octet first 3).toNat ≤ number.toNat ∧ number.toNat ≤ (octet last 0).toNat := by
  have hstart := (octet first 3).isLt
  have hend := (octet last 0).isLt
  have hplain : '-' ∉ decimal (octet first 3).toNat := (isNumber_decimal _).not_mem rfl
  have hdash : (straddlingField first last).contains '-' = true := by simp [straddlingField]
  have hlow : safeAtoi (straddlingField first last) = (octet first 3).toNat := by
    rw [straddlingField, (isNumber_decimal _).safeAtoi_append, digitsValue_decimal]
    · rintro c ⟨⟩
      rfl
    · rw [digitsValue_decimal]
      omega
  have hhigh : safeAtoi (decimal (octet last 0).toNat ++ []) = (octet last 0).toNat := by
    rw [(isNumber_decimal _).safeAtoi_append, digitsValue_decimal]
    · intro c hc
      cases hc
    · rw [digitsValue_decimal]
      omega
  rw [List.append_nil] at hhigh
  rw [matchIpField, if_pos hdash, hlow, straddlingField, dropWhile_ne_append hplain,
    List.drop_succ_cons, List.drop_zero, hhigh, Bool.and_eq_true_iff, decide_eq_true_iff,
    decide_eq_true_iff]
  omega

/-- A range matches the addresses with three octets of its start whose last octet is between the
last number of its start and the first number of its end. -/
theorem matchIpPattern_rangeToken (first last ip : Ip) :
    matchIpPattern (rangeToken first last) ip = true ↔
      octet ip 0 = octet first 0 ∧ octet ip 1 = octet first 1 ∧ octet ip 2 = octet first 2 ∧
        (octet first 3).toNat ≤ (octet ip 3).toNat ∧
        (octet ip 3).toNat ≤ (octet last 0).toNat := by
  have hstar : rangeToken first last ≠ ['*'] := by
    intro heq
    have hdash : '-' ∈ rangeToken first last := by simp [rangeToken]
    rw [heq] at hdash
    revert hdash
    decide
  have hstraddling : straddlingField first last ≠ ['*'] := by
    intro heq
    have hdash : '-' ∈ straddlingField first last := by simp [straddlingField]
    rw [heq] at hdash
    revert hdash
    decide
  rw [matchIpPattern, decide_eq_false hstar, Bool.false_or,
    matchOctets_four (patternOctets_rangeToken first last)]
  simp only [decimal_ne_star, hstraddling, false_or, matchIpField_decimal_iff,
    matchIpField_straddling_iff]

theorem not_mem_rangeToken {c : Char} (hdash : c ≠ '-') (hdot : c ≠ '.')
    (hdigit : isDigit c = false) (hstar : c ≠ '*') (first last : Ip) :
    c ∉ rangeToken first last := by
  have hplain := not_mem_formatIpAddress hdot hdigit hstar
  simp [rangeToken, hplain, hdash]

theorem matchIpList_eq (list : CStr) (ip : Ip) : Linux.filters.matchIpList list ip =
    parseTrimmedList [';'] (fun token => matchIpPattern token ip) list := rfl

theorem matchIpList_rangeToken (first last ip : Ip) :
    Linux.filters.matchIpList (rangeToken first last) ip =
      matchIpPattern (rangeToken first last) ip := by
  have hdash : '-' ∈ rangeToken first last := by simp [rangeToken]
  have hne : rangeToken first last ≠ [] := List.ne_nil_of_mem hdash
  have hstar : rangeToken first last ≠ ['*'] := by
    intro heq
    rw [heq] at hdash
    revert hdash
    decide
  have hplain : ∀ c ∈ rangeToken first last, (isBlank c || c = '\r' || c = '\n') = false := by
    intro c hc
    apply Bool.eq_false_iff.mpr
    intro hblank
    simp only [isBlank, Bool.or_eq_true, decide_eq_true_eq, or_assoc] at hblank
    rcases hblank with rfl | rfl | rfl | rfl
    all_goals exact not_mem_rangeToken (by decide) (by decide) rfl (by decide) first last hc
  have hdelimiter : ∀ c ∈ rangeToken first last, c ∉ [';'] := by
    intro c hc hsemicolon
    rw [List.mem_singleton.mp hsemicolon] at hc
    exact not_mem_rangeToken (by decide) (by decide) rfl (by decide) first last hc
  rw [matchIpList_eq, parseTrimmedList, parseTokenList_single _ hne hdelimiter,
    trimToken_eq_self hplain]
  simp [hne, hstar]

/-- A range is the interval between its ends if and only if the ends share three octets and the
first of them is the last octet of the end, or both intervals are empty. -/
theorem matchIpList_rangeToken_iff (first last : Ip) :
    (∀ ip, Linux.filters.matchIpList (rangeToken first last) ip = true ↔
        bigEndian first ≤ bigEndian ip ∧ bigEndian ip ≤ bigEndian last) ↔
      octet last 0 = octet first 0 ∧ octet last 1 = octet first 1 ∧
          octet last 2 = octet first 2 ∧ octet last 3 = octet last 0 ∧
          (octet first 3).toNat ≤ (octet last 0).toNat ∨
        bigEndian last < bigEndian first ∧ (octet last 0).toNat < (octet first 3).toNat := by
  simp only [matchIpList_rangeToken, matchIpPattern_rangeToken]
  constructor
  · intro h
    by_cases hle : (octet first 3).toNat ≤ (octet last 0).toNat
    · left
      obtain ⟨-, hordered⟩ := (h first).mp ⟨rfl, rfl, rfl, le_rfl, hle⟩
      obtain ⟨h0, h1, h2, -, hhigh⟩ := (h last).mpr ⟨hordered, le_rfl⟩
      -- The address that the code takes as the end of the range.
      obtain ⟨i0, i1, i2, i3⟩ :=
        octet_ipv4 (octet first 0) (octet first 1) (octet first 2) (octet last 0)
      have hend := ((h (ipv4 (octet first 0) (octet first 1) (octet first 2) (octet last 0))).mp
        ⟨i0, i1, i2, by rwa [i3], by rw [i3]⟩).2
      rw [bigEndian_eq, bigEndian_eq, i0, i1, i2, i3, h0, h1, h2] at hend
      refine ⟨h0, h1, h2, ?_, hle⟩
      apply BitVec.eq_of_toNat_eq
      rw [h0] at hhigh ⊢
      omega
    · right
      refine ⟨?_, by omega⟩
      by_contra hordered
      obtain ⟨-, -, -, hlow, hhigh⟩ := (h first).mpr ⟨le_rfl, by omega⟩
      omega
  · rintro (⟨h0, h1, h2, h3, hle⟩ | ⟨hempty, hnone⟩) ip
    · rw [bigEndian_eq first, bigEndian_eq ip, bigEndian_eq last, h1, h2, h3, ← BitVec.toNat_inj,
        ← BitVec.toNat_inj, ← BitVec.toNat_inj, ← h0]
      have hi0 := (octet ip 0).isLt
      have hi1 := (octet ip 1).isLt
      have hi2 := (octet ip 2).isLt
      have hi3 := (octet ip 3).isLt
      have hf3 := (octet first 3).isLt
      omega
    · constructor
      · rintro ⟨-, -, -, hlow, hhigh⟩
        omega
      · rintro ⟨hlow, hhigh⟩
        omega

/-- The example of the documentation leaves out an address of its range. -/
theorem matchIpList_documentedRange :
    rangeToken (ipv4 3 19 110 0) (ipv4 3 19 115 255) = "3.19.110.0-3.19.115.255".toList ∧
    bigEndian (ipv4 3 19 110 0) ≤ bigEndian (ipv4 3 19 112 7) ∧
    bigEndian (ipv4 3 19 112 7) ≤ bigEndian (ipv4 3 19 115 255) ∧
    Linux.filters.matchIpList (rangeToken (ipv4 3 19 110 0) (ipv4 3 19 115 255))
      (ipv4 3 19 112 7) = false := by
  decide

end ProxyTun.Linux
