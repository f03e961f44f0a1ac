import ProxyTun.Core.Filters
import ProxyTun.MacOS.RuleMatching

/-!
# Rule fields with a single item

What the matchers of macOS and Windows make of a process field with one name, a host field with
one address and a port field with one number.
-/
namespace ProxyTun

/-- A single process name without a wildcard. `ANY` is one on Windows. -/
structure IsSingleName (name : CStr) : Prop where
  plain : ∀ c ∈ name, c ∉ ['*', ',', ';', '/', '\\']
  visible : ∃ c ∈ name, MacOS.isWhitespaceOrNewline c = false
  notAny : name ≠ "ANY".toList

/-- Four numbers of at most three digits, with dots between them. -/
def IsDottedAddress (text : CStr) : Prop :=
  ∃ a b c d : CStr, (∀ f ∈ [a, b, c, d], IsNumber f ∧ f.length ≤ 3) ∧
    text = ['.'].intercalate [a, b, c, d]

/-- The four numbers of the dotted form. -/
def octets (ip : Ip) : List ℕ := (List.range 4).map fun i => (octet ip i).toNat

theorem formatIpAddress_eq (ip : Ip) :
    formatIpAddress ip = ['.'].intercalate ((octets ip).map decimal) := by
  rw [formatIpAddress, octets, List.map_map]
  rfl

theorem octets_of_formatIpAddress (ip : Ip) :
    ((formatIpAddress ip).splitOn '.').map digitsValue = octets ip := by
  have hsplit : (formatIpAddress ip).splitOn '.' = (octets ip).map decimal := by
    rw [formatIpAddress_eq]
    apply List.splitOn_intercalate
    · intro f hf
      obtain ⟨n, -, rfl⟩ := List.mem_map.mp hf
      exact (isNumber_decimal n).not_mem rfl
    · exact List.cons_ne_nil _ _
  rw [hsplit, List.map_map]
  conv_rhs => rw [← List.map_id (octets ip)]
  apply List.map_congr_left
  intro n _
  exact digitsValue_decimal n

theorem formatIpAddress_eq_iff {ip ip' : Ip} :
    formatIpAddress ip = formatIpAddress ip' ↔ octets ip = octets ip' := by
  constructor
  · intro h
    rw [← octets_of_formatIpAddress ip, h, octets_of_formatIpAddress]
  · intro h
    rw [formatIpAddress_eq, h, ← formatIpAddress_eq]

namespace IsSingleName
variable {name : CStr} (h : IsSingleName name)
include h

theorem ne_nil : name ≠ [] := by
  rintro rfl
  obtain ⟨c, hc, -⟩ := h.visible
  cases hc

theorem not_mem {c : Char} (hc : c ∈ ['*', ',', ';', '/', '\\']) : c ∉ name := by
  intro hmem
  exact h.plain c hmem hc

theorem ne_star : name ≠ ['*'] := by
  rintro rfl
  exact h.not_mem (c := '*') (by decide) (by decide)

theorem not_mem_delimiters : ∀ c ∈ name, c ∉ [',', ';'] := by
  intro c hc hdelimiter
  apply h.plain c hc
  revert hdelimiter
  simp only [List.mem_cons, List.not_mem_nil, or_false]
  tauto

/-- Cut to 255 characters the name is still none of the wildcards of Windows. -/
theorem take_ne_wildcard : name.take 255 ≠ ['*'] ∧ name.take 255 ≠ ['A', 'N', 'Y'] := by
  constructor
  · intro hstar
    refine h.not_mem (c := '*') (by decide) ((List.take_sublist 255 name).subset ?_)
    rw [hstar]
    decide
  · intro hany
    have hlength : (name.take 255).length = 3 := by
      rw [hany]
      rfl
    rw [List.length_take] at hlength
    rw [List.take_of_length_le (by omega)] at hany
    exact h.notAny hany

theorem matchProcessList_macOS (lowercased : CStr → CStr) (path : CStr) :
    MacOS.matchProcessList lowercased name path =
      (lowercased (MacOS.lastPathComponent path) =
        lowercased (MacOS.trimmingCharacters MacOS.isWhitespaceOrNewline name) : Bool) := by
  obtain ⟨c, hc, hvisible⟩ := h.visible
  have hne := List.ne_nil_of_mem (MacOS.mem_trimmingCharacters hc hvisible)
  rw [MacOS.matchProcessList, MacOS.matchList, if_neg (by simp [h.ne_nil, h.ne_star]),
    MacOS.components_single h.not_mem_delimiters]
  simp only [List.any_cons, List.any_nil, Bool.or_false]
  apply MacOS.matchProcessPattern_plain lowercased hne
  intro c hc
  exact h.plain c (MacOS.mem_of_mem_trimmingCharacters hc)

/-- On Windows the trimmed name, cut to 255 characters, is compared with the file name. -/
theorem matchProcessList_windows (process : CStr) :
    Windows.matchProcessList (name.take 255) process =
      sameIgnoringCase (Windows.trimToken (name.take 255)) (afterLast '\\' process) := by
  have hsub : ∀ c ∈ name.take 255, c ∈ name := (List.take_sublist 255 name).subset
  have hne : name.take 255 ≠ [] := by
    simpa [List.take_eq_nil_iff] using h.ne_nil
  have hpattern : ∀ c ∈ ['*', '/', '\\'], c ∉ Windows.trimToken (name.take 255) := by
    intro c hc hmem
    refine h.not_mem ?_ (hsub c (Windows.mem_of_mem_trimToken hmem))
    revert hc
    simp only [List.mem_cons, List.not_mem_nil, or_false]
    tauto
  rw [Windows.matchProcessList, parseTokenList_single _ hne
    fun c hc => h.not_mem_delimiters c (hsub c hc), Windows.matchProcessPattern_plain hpattern]
  simp [h.take_ne_wildcard.1]

end IsSingleName

namespace IsDottedAddress
variable {text : CStr} (h : IsDottedAddress text)
include h

theorem plain : ∀ c ∈ text, isDigit c = true ∨ c = '.' := by
  obtain ⟨a, b, c, d, hfields, rfl⟩ := h
  intro x hx
  simp only [List.intercalate, List.intersperse, List.flatten_cons, List.flatten_nil,
    List.append_nil, List.mem_append, List.mem_singleton] at hx
  have hdigits : ∀ f ∈ [a, b, c, d], x ∈ f → isDigit x = true := fun f hf hxf =>
    (hfields f hf).1.digits x hxf
  simp only [List.mem_cons, List.not_mem_nil, or_false, forall_eq_or_imp, forall_eq] at hdigits
  tauto

theorem splitOn_eq : ∃ a b c d, text.splitOn '.' = [a, b, c, d] ∧
    ∀ f ∈ [a, b, c, d], IsNumber f ∧ f.length ≤ 3 := by
  obtain ⟨a, b, c, d, hfields, rfl⟩ := h
  refine ⟨a, b, c, d, ?_, hfields⟩
  apply List.splitOn_intercalate
  · intro f hf
    exact (hfields f hf).1.not_mem rfl
  · exact List.cons_ne_nil _ _

theorem ne_nil : text ≠ [] := by
  rintro rfl
  obtain ⟨a, b, c, d, hsplit, -⟩ := h.splitOn_eq
  simp at hsplit

theorem not_mem {c : Char} (hdigit : isDigit c = false) (hdot : c ≠ '.') : c ∉ text := by
  intro hc
  rcases h.plain c hc with hc' | hc'
  · exact ne_of_isDigit hc' hdigit rfl
  · exact hdot hc'

theorem length_le : text.length ≤ 255 := by
  obtain ⟨a, b, c, d, hfields, rfl⟩ := h
  simp only [List.mem_cons, List.not_mem_nil, or_false, forall_eq_or_imp, forall_eq] at hfields
  simp only [List.intercalate, List.intersperse, List.flatten_cons, List.flatten_nil,
    List.append_nil, List.length_append, List.length_cons, List.length_nil]
  omega

theorem ne_star : text ≠ ['*'] := by
  rintro rfl
  exact h.not_mem (c := '*') rfl (by decide) (by decide)

theorem matchIPPattern_eq (destination : CStr) :
    MacOS.matchIPPattern text destination = (text = destination : Bool) := by
  obtain ⟨a, b, c, d, hsplit, hfields⟩ := h.splitOn_eq
  have hrange : '-' ∉ text := h.not_mem rfl (by decide)
  have heq : text = destination ↔ [a, b, c, d] = destination.splitOn '.' := by
    rw [← hsplit]
    constructor
    · rintro rfl
      rfl
    · intro hsame
      have hjoin : ['.'].intercalate (text.splitOn '.') = text := List.intercalate_splitOn '.'
      rw [← hjoin, hsame, List.intercalate_splitOn]
  have hfield : ∀ f ∈ [a, b, c, d], f ≠ ['*'] := by
    rintro f hf rfl
    exact (hfields _ hf).1.not_mem (c := '*') rfl (by decide)
  rw [MacOS.matchIPPattern, if_neg (by simp [h.ne_nil, h.ne_star]), if_neg (by simpa using hrange)]
  simp only [MacOS.components_dot, hsplit]
  simp only [List.mem_cons, List.not_mem_nil, or_false, forall_eq_or_imp, forall_eq] at hfield
  obtain ⟨ha, hb, hc, hd⟩ := hfield
  rw [Bool.eq_iff_iff, decide_eq_true_eq, heq]
  match destination.splitOn '.' with
  | [x, y, z, w] => simp [ha, hb, hc, hd]
  | [] | [_] | [_, _] | [_, _, _] | _ :: _ :: _ :: _ :: _ :: _ => simp

theorem matchIpPattern_eq (ip : Ip) :
    Windows.matchIpPattern text ip = ((text.splitOn '.').map digitsValue = octets ip : Bool) := by
  obtain ⟨a, b, c, d, hsplit, hfields⟩ := h.splitOn_eq
  have hrange : '-' ∉ text := h.not_mem rfl (by decide)
  have hfield : ∀ f ∈ [a, b, c, d], f.take 15 = f ∧ f ≠ ['*'] ∧
      ∀ i : ℕ, atoi f = (octet ip i).toNat ↔ digitsValue f = (octet ip i).toNat := by
    intro f hf
    obtain ⟨hnumber, hlength⟩ := hfields f hf
    refine ⟨List.take_of_length_le (by omega), ?_, fun i => ?_⟩
    · rintro rfl
      exact hnumber.not_mem (c := '*') rfl (by decide)
    · have hoctet : (octet ip i).toNat < 2 ^ 8 := (octet ip i).isLt
      exact hnumber.atoi_eq_iff (by omega)
  have hoctets : patternOctets text = some [a, b, c, d] := by
    simp only [List.mem_cons, List.not_mem_nil, or_false, forall_eq_or_imp, forall_eq] at hfield
    rw [patternOctets, List.take_of_length_le h.length_le, hsplit]
    simp [hfield]
  simp only [List.mem_cons, List.not_mem_nil, or_false, forall_eq_or_imp, forall_eq] at hfield
  obtain ⟨⟨-, ha, ha'⟩, ⟨-, hb, hb'⟩, ⟨-, hc, hc'⟩, -, hd, hd'⟩ := hfield
  have hmatch : Windows.matchIpPattern text ip =
      matchOctets (fun f o => atoi f = o) text ip := by
    simp [Windows.matchIpPattern, h.ne_star, hrange]
  rw [hmatch, matchOctets, hoctets, hsplit]
  simp [octets, List.range_succ, ha, hb, hc, hd, ha', hb', hc', hd']

theorem isWhitespaceOrNewline_eq : ∀ c ∈ text, MacOS.isWhitespaceOrNewline c = false := by
  intro c hc
  rcases h.plain c hc with hdigit | rfl
  · obtain ⟨hlow, hhigh⟩ := toNat_of_isDigit hdigit
    exact MacOS.isWhitespaceOrNewline_of_toNat (by omega) hhigh
  · decide

theorem isBlank_eq : ∀ c ∈ text, isBlank c = false := by
  intro c hc
  rcases h.plain c hc with hdigit | rfl
  · simp [isBlank, ne_of_isDigit hdigit (d := ' ') rfl, ne_of_isDigit hdigit (d := '\t') rfl]
  · decide

end IsDottedAddress

namespace IsNumber
variable {text : CStr} (h : IsNumber text)
include h

theorem matchPortPattern_macOS (port : Port) :
    MacOS.matchPortPattern text port = (digitsValue text = port.toNat : Bool) := by
  have hrange : '-' ∉ text := h.not_mem rfl
  have hnumber : MacOS.digitsNumber text = some (digitsValue text) :=
    if_pos ⟨h.nonempty, List.all_eq_true.mpr h.digits⟩
  have hport : port.toNat < 2 ^ 16 := port.isLt
  obtain ⟨c, cs, rfl, hc⟩ := h.exists_cons
  have hplus : c ≠ '+' := ne_of_isDigit hc rfl
  have hminus : c ≠ '-' := ne_of_isDigit hc rfl
  have hstar : c ≠ '*' := ne_of_isDigit hc rfl
  have hvalue : MacOS.unsignedInteger 16 (c :: cs) =
      (some (digitsValue (c :: cs))).filter fun n => n < 2 ^ 16 := by
    rw [← hnumber]
    unfold MacOS.unsignedInteger
    split
    · next heq => exact absurd (List.cons.inj heq).1 hplus
    · next heq => exact absurd (List.cons.inj heq).1 hminus
    · rfl
  rw [MacOS.matchPortPattern, if_neg (by simp [hstar]), if_neg (by simpa using hrange), hvalue,
    Option.filter_some]
  by_cases hsmall : digitsValue (c :: cs) < 2 ^ 16
  · rw [if_pos (decide_eq_true hsmall)]
    exact decide_eq_decide.mpr eq_comm
  · have hne : digitsValue (c :: cs) ≠ port.toNat := by omega
    rw [if_neg (by simpa using hsmall), decide_eq_false hne]

theorem matchPortPattern_windows (port : Port) :
    Windows.matchPortPattern text port = (digitsValue text = port.toNat : Bool) := by
  have hstar : text ≠ ['*'] := by
    rintro rfl
    exact h.not_mem (c := '*') rfl (by decide)
  have hrange : '-' ∉ text := h.not_mem rfl
  have hport : port.toNat < 2 ^ 16 := port.isLt
  have hvalue := h.atoi_eq_iff (n := port.toNat) (by omega)
  simp [Windows.matchPortPattern, matchPortWith, hstar, hrange, hvalue]

theorem isWhitespaceOrNewline_eq : ∀ c ∈ text, MacOS.isWhitespaceOrNewline c = false := by
  intro c hc
  obtain ⟨hlow, hhigh⟩ := toNat_of_isDigit (h.digits c hc)
  exact MacOS.isWhitespaceOrNewline_of_toNat (by omega) hhigh

theorem isBlank_eq : ∀ c ∈ text, isBlank c = false := by
  intro c hc
  have hdigit := h.digits c hc
  simp [isBlank, ne_of_isDigit hdigit (d := ' ') rfl, ne_of_isDigit hdigit (d := '\t') rfl]

end IsNumber

def IsHostField (text : CStr) : Prop := text = ['*'] ∨ IsDottedAddress text

def IsPortField (text : CStr) : Prop := text = ['*'] ∨ IsNumber text

namespace IsHostField
variable {text : CStr} (h : IsHostField text)
include h

theorem ne_nil : text ≠ [] := by
  rcases h with rfl | h
  · exact List.cons_ne_nil _ _
  · exact h.ne_nil

theorem matchIPList_macOS (destination : CStr) :
    MacOS.matchIPList text destination = (text = ['*'] || text = destination : Bool) := by
  rcases h with rfl | h
  · rfl
  · rw [MacOS.matchIPList, MacOS.matchList_single _ h.ne_nil (fun c hc => ?_)
      h.isWhitespaceOrNewline_eq, h.matchIPPattern_eq]
    rintro hdelimiter
    obtain rfl := List.mem_singleton.mp hdelimiter
    exact h.not_mem rfl (by decide) hc

theorem matchIpList_windows (ip : Ip) :
    Windows.matchIpList text ip =
      (text = ['*'] || (text.splitOn '.').map digitsValue = octets ip : Bool) := by
  rcases h with rfl | h
  · rfl
  · rw [Windows.matchIpList, parseTokenList_single _ h.ne_nil (fun c hc => ?_),
      skipWhitespace_eq_self h.isBlank_eq, h.matchIpPattern_eq]
    rintro hdelimiter
    obtain rfl := List.mem_singleton.mp hdelimiter
    exact h.not_mem rfl (by decide) hc

end IsHostField

namespace IsPortField
variable {text : CStr} (h : IsPortField text)
include h

theorem ne_nil : text ≠ [] := by
  rcases h with rfl | h
  · exact List.cons_ne_nil _ _
  · exact h.nonempty

theorem not_mem_delimiters : ∀ c ∈ text, c ∉ [',', ';'] := by
  rcases h with rfl | h
  · intro c hc
    rw [List.mem_singleton.mp hc]
    simp
  · intro c hc hdelimiter
    have hdigit := h.digits c hc
    simp only [List.mem_cons, List.not_mem_nil, or_false] at hdelimiter
    rcases hdelimiter with rfl | rfl
    · exact ne_of_isDigit hdigit (by decide) rfl
    · exact ne_of_isDigit hdigit (by decide) rfl

/-- A number is compared with the destination port on both platforms. -/
theorem matchPortList_macOS (port : Port) :
    MacOS.matchPortList text port =
      (text = ['*'] || digitsValue text = port.toNat : Bool) := by
  have hdelimiters := h.not_mem_delimiters
  rcases h with rfl | h
  · rfl
  · rw [MacOS.matchPortList, MacOS.matchList_single _ h.nonempty hdelimiters
      h.isWhitespaceOrNewline_eq, h.matchPortPattern_macOS]

theorem matchPortList_windows (port : Port) :
    Windows.matchPortList text port =
      (text = ['*'] || digitsValue text = port.toNat : Bool) := by
  have hdelimiters := h.not_mem_delimiters
  rcases h with rfl | h
  · rfl
  · rw [Windows.matchPortList, parseTokenList_single _ h.nonempty hdelimiters,
      skipWhitespace_eq_self h.isBlank_eq, h.matchPortPattern_windows]

end IsPortField

end ProxyTun
