import ProxyTun.Core.FormattedScan
import ProxyTun.Library.Lines
import ProxyTun.MacOS.UdpParsers

/-!
# IPv6 addresses as text

The extension writes an address as eight numbers with colons between them, in hexadecimal digits and
without leading zeros. A text of this form stands for one address.
-/
namespace ProxyTun.MacOS

def isGroup (field : CStr) : Bool :=
  field ≠ [] && field.length ≤ 4 && field.all isHexDigit

def groupBytes (field : CStr) : List Byte :=
  [(BitVec.ofNat 16 (hexDigitsValue field)).extractLsb' 8 8,
    (BitVec.ofNat 16 (hexDigitsValue field)).extractLsb' 0 8]

def readGroups (text : CStr) : Option (List Byte) :=
  let fields := text.splitOn ':'
  if fields.length = 8 ∧ fields.all isGroup then some (fields.flatMap groupBytes) else none

def groups (octets : List Byte) : List (BitVec 16) :=
  (List.range 8).map fun i => word (octets.getD (i * 2) default) (octets.getD (i * 2 + 1) default)

def groupsText (octets : List Byte) : CStr := [':'].intercalate ((groups octets).map hexText)

theorem digitChar_facts :
    ∀ d < 16, isHexDigit d.digitChar = true ∧ hexDigitValue d.digitChar = d := by
  decide

theorem hexDigitsValue_concat (digits : CStr) (c : Char) :
    hexDigitsValue (digits ++ [c]) = 16 * hexDigitsValue digits + hexDigitValue c := by
  simp [hexDigitsValue]

theorem toDigits_facts (n : ℕ) :
    hexDigitsValue (Nat.toDigits 16 n) = n ∧ ∀ c ∈ Nat.toDigits 16 n, isHexDigit c = true := by
  induction n using Nat.strongRecOn with
  | ind n ih =>
    rw [Nat.toDigits_eq_if (by omega)]
    split_ifs with hn
    · obtain ⟨hdigit, hvalue⟩ := digitChar_facts n hn
      exact ⟨by simp [hexDigitsValue, hvalue], by simpa using hdigit⟩
    · obtain ⟨hdigit, hvalue⟩ := digitChar_facts (n % 16) (Nat.mod_lt n (by omega))
      obtain ⟨hfront, hdigits⟩ := ih (n / 16) (by omega)
      refine ⟨by rw [hexDigitsValue_concat, hfront, hvalue, Nat.div_add_mod], ?_⟩
      intro c hc
      rcases List.mem_append.mp hc with hc | hc
      · exact hdigits c hc
      · rwa [List.mem_singleton.mp hc]

theorem isGroup_hexText (part : BitVec 16) : isGroup (hexText part) = true := by
  have hlength : (hexText part).length ≤ 4 :=
    (Nat.length_toDigits_le_iff (by omega) (by omega)).mpr part.isLt
  have hdigits : (hexText part).all isHexDigit = true :=
    List.all_eq_true.mpr (toDigits_facts part.toNat).2
  have hne : hexText part ≠ [] := Nat.toDigits_ne_nil
  simp [isGroup, hne, hlength, hdigits]

theorem groupBytes_hexText (high low : Byte) :
    groupBytes (hexText (word high low)) = [high, low] := by
  have hvalue : BitVec.ofNat 16 (hexDigitsValue (hexText (word high low))) = word high low := by
    rw [hexText, (toDigits_facts _).1, BitVec.ofNat_toNat, BitVec.setWidth_eq]
  rw [groupBytes, hvalue, word_eq_append, BitVec.extractLsb'_append_eq_left,
    BitVec.extractLsb'_append_eq_right]

theorem flatMap_pairs (n : ℕ) : ∀ octets : List Byte, octets.length = 2 * n →
    ((List.range n).flatMap fun i =>
      [octets.getD (i * 2) default, octets.getD (i * 2 + 1) default]) = octets := by
  induction n with
  | zero =>
    intro octets h
    rw [List.eq_nil_of_length_eq_zero h]
    rfl
  | succ n ih =>
    intro octets h
    obtain ⟨a, octets, rfl⟩ := List.exists_of_length_succ octets (h.trans (Nat.mul_succ 2 n))
    rw [List.length_cons] at h
    obtain ⟨b, rest, rfl⟩ := List.exists_of_length_succ octets (n := 2 * n) (by omega)
    rw [List.length_cons] at h
    have hrest := ih rest (by omega)
    rw [List.range_succ_eq_map, List.flatMap_cons, List.flatMap_map]
    simpa [Nat.succ_mul] using hrest

theorem readGroups_groupsText {octets : List Byte} (h : octets.length = 16) :
    readGroups (groupsText octets) = some octets := by
  have hcolon : ∀ field ∈ (groups octets).map hexText, ':' ∉ field := by
    intro field hfield hmem
    obtain ⟨part, -, rfl⟩ := List.mem_map.mp hfield
    cases (toDigits_facts part.toNat).2 ':' hmem
  have hsplit : (groupsText octets).splitOn ':' = (groups octets).map hexText :=
    List.splitOn_intercalate ':' hcolon (by simp [groups])
  have hbytes : ((groups octets).map hexText).flatMap groupBytes = octets := by
    simp only [groups, List.flatMap_map, groupBytes_hexText]
    exact flatMap_pairs 8 octets h
  have hgroups : ((groups octets).map hexText).all isGroup = true := by
    simp [isGroup_hexText]
  rw [readGroups, hsplit, hbytes, if_pos ⟨by simp [groups], hgroups⟩]

end ProxyTun.MacOS
