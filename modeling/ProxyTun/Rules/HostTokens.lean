import Mathlib.Data.List.GetD
import Mathlib.Tactic.IntervalCases
import ProxyTun.Library.Lines
import ProxyTun.Rules.SimpleFields

/-!
# Tokens of host lists

A host token is cut at its dots, and only one of four fields is compared with an address.
-/
namespace ProxyTun
open Library

def fieldText : Option Byte → CStr
  | some number => decimal number.toNat
  | none => ['*']

/-- The fields with dots between them. -/
def hostToken (fields : List (Option Byte)) : CStr := ['.'].intercalate (fields.map fieldText)

/-- Every number of the token is the octet of the address in its place. -/
def FieldsMatch (fields : List (Option Byte)) (ip : Ip) : Prop :=
  ∀ i number, fields[i]? = some (some number) → octet ip i = number

/-- `match_ip_pattern` of a platform. -/
def matchIpPattern : Platform → CStr → Ip → Bool
  | .windows => Windows.matchIpPattern
  | .linux => Linux.matchIpPattern

theorem decimal_ne_star (n : ℕ) : decimal n ≠ ['*'] := by
  intro heq
  exact (isNumber_decimal n).not_mem (c := '*') rfl (heq ▸ List.mem_cons_self)

theorem length_decimal_le (number : Byte) : (decimal number.toNat).length ≤ 3 := by
  have hnumber : number.toNat < 256 := number.isLt
  have hlength : (Nat.repr number.toNat).length ≤ 3 :=
    (Nat.length_repr_le_iff (by omega)).mpr (by omega)
  rwa [decimal, String.length_toList]

theorem length_fieldText_le (field : Option Byte) : (fieldText field).length ≤ 3 := by
  cases field with
  | none => decide
  | some number => exact length_decimal_le number

theorem mem_fieldText {field : Option Byte} {c : Char} (h : c ∈ fieldText field) :
    isDigit c = true ∨ c = '*' := by
  cases field with
  | none => exact .inr (List.mem_singleton.mp h)
  | some number => exact .inl ((isNumber_decimal _).digits c h)

theorem mem_hostToken {fields : List (Option Byte)} {c : Char} (h : c ∈ hostToken fields) :
    c = '.' ∨ isDigit c = true ∨ c = '*' := by
  rcases Lines.mem_intercalate h with hdot | ⟨text, htext, hc⟩
  · exact .inl hdot
  · obtain ⟨field, -, rfl⟩ := List.mem_map.mp htext
    exact .inr (mem_fieldText hc)

theorem not_mem_hostToken {fields : List (Option Byte)} {c : Char} (hdot : c ≠ '.')
    (hdigit : isDigit c = false) (hstar : c ≠ '*') : c ∉ hostToken fields := by
  intro hmem
  rcases mem_hostToken hmem with h | h | h
  · exact hdot h
  · exact ne_of_isDigit h hdigit rfl
  · exact hstar h

theorem splitOn_hostToken {fields : List (Option Byte)} (h : fields ≠ []) :
    (hostToken fields).splitOn '.' = fields.map fieldText := by
  apply List.splitOn_intercalate
  · intro text htext hdot
    obtain ⟨field, -, rfl⟩ := List.mem_map.mp htext
    rcases mem_fieldText hdot with hdigit | hstar
    · cases hdigit
    · cases hstar
  · simpa using h

theorem length_hostToken_le {fields : List (Option Byte)} (h : fields.length ≤ 4) :
    (hostToken fields).length ≤ 16 := by
  have hlength : (hostToken fields).length ≤ (3 + 1) * (fields.map fieldText).length := by
    apply Lines.length_intercalate_le
    intro text htext
    obtain ⟨field, -, rfl⟩ := List.mem_map.mp htext
    exact length_fieldText_le field
  rw [List.length_map] at hlength
  omega

theorem patternOctets_hostToken {fields : List (Option Byte)} (hne : fields ≠ [])
    (h : fields.length ≤ 4) :
    patternOctets (hostToken fields) =
      if fields.length = 4 then some (fields.map fieldText) else none := by
  have hwhole : (hostToken fields).take 255 = hostToken fields :=
    List.take_of_length_le ((length_hostToken_le h).trans (by omega))
  have hfields : (fields.map fieldText).map (List.take 15) = fields.map fieldText := by
    rw [List.map_map]
    apply List.map_congr_left
    intro field _
    have hfield := length_fieldText_le field
    exact List.take_of_length_le (by omega)
  rw [patternOctets, hwhole, splitOn_hostToken hne,
    List.take_of_length_le (by simpa using h), List.length_map, hfields]

theorem exists_fields {token : CStr} {fields : List CStr} (h : patternOctets token = some fields) :
    ∃ a b c d, fields = [a, b, c, d] := by
  have hlength : fields.length = 4 := by
    simp only [patternOctets] at h
    split_ifs at h with hfour
    rw [← Option.some.inj h, List.length_map]
    exact hfour
  exact List.length_eq_four.mp hlength

theorem matchOctets_four {field : CStr → ℕ → Bool} {token a b c d : CStr}
    (h : patternOctets token = some [a, b, c, d]) (ip : Ip) :
    matchOctets field token ip = true ↔
      (a = ['*'] ∨ field a (octet ip 0).toNat = true) ∧
      (b = ['*'] ∨ field b (octet ip 1).toNat = true) ∧
      (c = ['*'] ∨ field c (octet ip 2).toNat = true) ∧
      (d = ['*'] ∨ field d (octet ip 3).toNat = true) := by
  rw [matchOctets, h]
  simp [List.zipIdx]

/-- Four fields are compared with the octets of the address, where a platform reads the numbers
right. -/
theorem matchOctets_hostToken {field : CStr → ℕ → Bool} {fields : List (Option Byte)}
    (hne : fields ≠ []) (h : fields.length ≤ 4)
    (hfield : ∀ number octet : Byte, field (decimal number.toNat) octet.toNat = true ↔
      octet = number) (ip : Ip) :
    matchOctets field (hostToken fields) ip = true ↔ fields.length = 4 ∧ FieldsMatch fields ip := by
  rw [matchOctets, patternOctets_hostToken hne h]
  split_ifs with hfour
  · rw [and_iff_right hfour, List.all_eq_true]
    constructor
    · intro hall i number hi
      have hmem : (fieldText (some number), i) ∈ (fields.map fieldText).zipIdx := by
        rw [List.mem_zipIdx_iff_getElem?, List.getElem?_map, hi, Option.map_some]
      have htext := hall _ hmem
      rw [Bool.or_eq_true_iff, decide_eq_true_iff] at htext
      exact (hfield number (octet ip i)).mp (htext.resolve_left (decimal_ne_star number.toNat))
    · intro hmatch e he
      rw [List.mem_zipIdx_iff_getElem?, List.getElem?_map, Option.map_eq_some_iff] at he
      obtain ⟨f, hf, htext⟩ := he
      rw [Bool.or_eq_true_iff, decide_eq_true_iff, ← htext]
      cases f with
      | none => exact .inl rfl
      | some number => exact .inr ((hfield number _).mpr (hmatch e.2 number hf))
  · simp [hfour]

theorem dot_mem_hostToken {fields : List (Option Byte)} (h : 2 ≤ fields.length) :
    '.' ∈ hostToken fields := by
  by_contra hdot
  have hsplit := splitOn_hostToken (List.ne_nil_of_length_pos (by omega : 0 < fields.length))
  rw [List.splitOn_eq_singleton hdot] at hsplit
  have hlength := congrArg List.length hsplit
  rw [List.length_map, List.length_singleton] at hlength
  omega

theorem hostToken_ne_nil {fields : List (Option Byte)} (h : 2 ≤ fields.length) :
    hostToken fields ≠ [] :=
  List.ne_nil_of_mem (dot_mem_hostToken h)

theorem hostToken_ne_star {fields : List (Option Byte)} (h : 2 ≤ fields.length) :
    hostToken fields ≠ ['*'] := by
  intro hstar
  have hdot := dot_mem_hostToken h
  rw [hstar] at hdot
  revert hdot
  decide

theorem digitsValue_decimal_small (number : Byte) :
    digitsValue (decimal number.toNat) < 2147483648 := by
  have hnumber : number.toNat < 2 ^ 8 := number.isLt
  rw [digitsValue_decimal]
  omega

theorem atoi_decimal_eq_iff (number octet : Byte) :
    (atoi (decimal number.toNat) = octet.toNat : Bool) = true ↔ octet = number := by
  have hoctet : octet.toNat < 2 ^ 8 := octet.isLt
  rw [decide_eq_true_iff, (isNumber_decimal _).atoi_eq_iff (by omega), digitsValue_decimal,
    ← BitVec.toNat_inj]
  exact eq_comm

theorem matchIpField_decimal_iff (number octet : Byte) :
    Linux.matchIpField (decimal number.toNat) octet.toNat = true ↔ octet = number := by
  have hdash : '-' ∉ decimal number.toNat := (isNumber_decimal _).not_mem rfl
  have hread : safeAtoi (decimal number.toNat ++ []) = number.toNat := by
    rw [(isNumber_decimal _).safeAtoi_append (fun c hc => by cases hc)
      (digitsValue_decimal_small number), digitsValue_decimal]
  rw [List.append_nil] at hread
  rw [Linux.matchIpField, if_neg (by simpa using hdash), hread, decide_eq_true_iff,
    ← BitVec.toNat_inj]
  omega

/-- Both platforms compare the numbers of four fields with the octets, and take no other number of
fields than four. -/
theorem matchIpPattern_hostToken (platform : Platform) {fields : List (Option Byte)}
    (hlow : 2 ≤ fields.length) (hhigh : fields.length ≤ 4) (ip : Ip) :
    matchIpPattern platform (hostToken fields) ip = true ↔
      fields.length = 4 ∧ FieldsMatch fields ip := by
  have hne : fields ≠ [] := List.ne_nil_of_length_pos (by omega)
  have hstar := hostToken_ne_star hlow
  have hdash : '-' ∉ hostToken fields := not_mem_hostToken (by decide) rfl (by decide)
  cases platform with
  | windows =>
    rw [← @matchOctets_hostToken (fun f o => atoi f = o) fields hne hhigh atoi_decimal_eq_iff]
    simp [matchIpPattern, Windows.matchIpPattern, hstar, hdash]
  | linux =>
    rw [← matchOctets_hostToken hne hhigh matchIpField_decimal_iff]
    simp [matchIpPattern, Linux.matchIpPattern, hstar]

/-- The range between two addresses. -/
def rangeToken (first last : Ip) : CStr := formatIpAddress first ++ '-' :: formatIpAddress last

theorem formatIpAddress_fields (ip : Ip) :
    formatIpAddress ip = hostToken
      [some (octet ip 0), some (octet ip 1), some (octet ip 2), some (octet ip 3)] := rfl

theorem length_formatIpAddress_le (ip : Ip) : (formatIpAddress ip).length ≤ 16 := by
  rw [formatIpAddress_fields]
  exact length_hostToken_le (by simp)

theorem not_mem_formatIpAddress {c : Char} (hdot : c ≠ '.') (hdigit : isDigit c = false)
    (hstar : c ≠ '*') (ip : Ip) : c ∉ formatIpAddress ip := by
  rw [formatIpAddress_fields]
  exact not_mem_hostToken hdot hdigit hstar

theorem Windows.bigEndian_eq (ip : Ip) :
    Windows.bigEndian ip = 2 ^ 24 * (octet ip 0).toNat + 2 ^ 16 * (octet ip 1).toNat +
      2 ^ 8 * (octet ip 2).toNat + (octet ip 3).toNat :=
  toNat_ipv4 (octet ip 3) (octet ip 2) (octet ip 1) (octet ip 0)

/-- The numbers with a star behind them. -/
def shortenedToken (numbers : List Byte) : CStr := hostToken (numbers.map some ++ [none])

/-- The first octets of the address are the numbers. -/
def HasPrefix (numbers : List Byte) (ip : Ip) : Prop :=
  (List.range numbers.length).map (octet ip) = numbers

instance (numbers : List Byte) (ip : Ip) : Decidable (HasPrefix numbers ip) :=
  inferInstanceAs (Decidable (_ = _))

theorem fieldsMatch_shortened_iff (numbers : List Byte) (ip : Ip) :
    FieldsMatch (numbers.map some ++ [none]) ip ↔ HasPrefix numbers ip := by
  have hfields (i : ℕ) (number : Byte) :
      (numbers.map some ++ [none])[i]? = some (some number) ↔ numbers[i]? = some number := by
    by_cases hi : i < numbers.length
    · rw [List.getElem?_append_left (by simpa using hi), List.getElem?_map]
      simp
    · rw [List.getElem?_append_right (by simpa using hi), List.length_map,
        List.getElem?_eq_none (by omega : numbers.length ≤ i)]
      cases i - numbers.length <;> simp
  rw [HasPrefix, FieldsMatch]
  simp only [hfields]
  constructor
  · intro h
    apply List.ext_getElem
    · simp
    · intro i _ hi
      rw [List.getElem_map, List.getElem_range]
      exact h i _ (List.getElem?_eq_getElem hi)
  · intro h i number hnumber
    obtain ⟨hi, hget⟩ := List.getElem?_eq_some_iff.mp hnumber
    have hrow : ((List.range numbers.length).map (octet ip))[i]? = numbers[i]? := by rw [h]
    rw [List.getElem?_map, List.getElem?_range hi, hnumber] at hrow
    exact Option.some.inj hrow

theorem exists_hasPrefix {numbers : List Byte} (h : numbers.length ≤ 3) :
    ∃ ip, HasPrefix numbers ip := by
  obtain ⟨h0, h1, h2, -⟩ := octet_ipv4 (numbers.getD 0 0) (numbers.getD 1 0) (numbers.getD 2 0) 0
  refine ⟨ipv4 (numbers.getD 0 0) (numbers.getD 1 0) (numbers.getD 2 0) 0, ?_⟩
  apply List.ext_getElem
  · simp
  · intro i _ hi
    rw [List.getElem_map, List.getElem_range, ← List.getD_eq_getElem _ 0 hi]
    have hi' : i < 3 := by omega
    interval_cases i
    · exact h0
    · exact h1
    · exact h2

/-- A token that is shortened to up to three numbers and a star means the addresses that begin
with the numbers if and only if the numbers are three. -/
theorem matchIpPattern_shortened_iff (platform : Platform) {numbers : List Byte}
    (hlow : 1 ≤ numbers.length) (hhigh : numbers.length ≤ 3) :
    (∀ ip, matchIpPattern platform (shortenedToken numbers) ip = true ↔ HasPrefix numbers ip) ↔
      numbers.length = 3 := by
  have hlength : (numbers.map some ++ [none]).length = numbers.length + 1 := by simp
  have hmatch (ip : Ip) : matchIpPattern platform (shortenedToken numbers) ip = true ↔
      numbers.length = 3 ∧ HasPrefix numbers ip := by
    have hfour : numbers.length + 1 = 4 ↔ numbers.length = 3 := by omega
    rw [shortenedToken, matchIpPattern_hostToken platform (by omega) (by omega), hlength,
      fieldsMatch_shortened_iff, hfour]
  simp only [hmatch]
  constructor
  · intro h
    obtain ⟨ip, hip⟩ := exists_hasPrefix hhigh
    exact ((h ip).mpr hip).1
  · intro hthree ip
    exact and_iff_right hthree

theorem matchIpPattern_shortened_three :
    shortenedToken [192, 168, 1] = "192.168.1.*".toList ∧
      ∀ ip, matchIpPattern .windows (shortenedToken [192, 168, 1]) ip = true ↔
        HasPrefix [192, 168, 1] ip := by
  have hlength : 1 ≤ ([192, 168, 1] : List Byte).length := by decide
  exact ⟨by decide, (matchIpPattern_shortened_iff .windows hlength (by decide)).mpr rfl⟩

/-- The example of the documentation matches no address that it stands for. -/
theorem matchIpPattern_documented :
    shortenedToken [192, 168] = "192.168.*".toList ∧
    HasPrefix [192, 168] (ipv4 192 168 1 7) ∧
    matchIpPattern .windows (shortenedToken [192, 168]) (ipv4 192 168 1 7) = false ∧
    matchIpPattern .linux (shortenedToken [192, 168]) (ipv4 192 168 1 7) = false := by
  decide

end ProxyTun
