import ProxyTun.Core.Numerals
import ProxyTun.Tunnel.HttpConnect

/-!
# The status line of an HTTP proxy

The Windows engine reads the status code behind the first blank of the response, the Linux engine
from the tenth byte on. Neither asks that the number is on the first line, that it has three
digits, or that it ends there.
-/
namespace ProxyTun
open Library Handshake

/-- The text starts with `HTTP/1.`, a digit, blanks and the status code 200. -/
def HasOkStatusLine (text : CStr) : Prop :=
  ∃ minor blanks rest, isDigit minor = true ∧ blanks ≠ [] ∧ (∀ c ∈ blanks, c = ' ') ∧
    (∀ c ∈ rest.head?, isSpace c = true) ∧
    text = "HTTP/1.".toList ++ (minor :: (blanks ++ ("200".toList ++ rest)))

/-- What stands between `HTTP/1.` and the text that is read as the status code. -/
def Skips : Platform → CStr → Prop
  | .windows, skipped => ∃ version, skipped = version ++ [' '] ∧ ' ' ∉ version ∧ '\x00' ∉ version
  | .linux, skipped => skipped.length = 2

def storedCode : Platform → ℤ → ℤ
  | .windows => clamp (-2147483648) 2147483647
  | .linux => narrow

/-- The parts of a response whose status code is read as 200. -/
@[ext] structure StatusReading (pf : Platform) where
  skipped : CStr
  number : Numeral
  skips : Skips pf skipped
  code : storedCode pf number.value = 200

namespace StatusReading
variable {pf : Platform}

def text (r : StatusReading pf) : CStr := "HTTP/1.".toList ++ (r.skipped ++ r.number.text)

/-- The parts are those of a status line with the code 200. -/
structure IsStatusLine (r : StatusReading pf) : Prop where
  version : ∃ minor, isDigit minor = true ∧ r.skipped = [minor, ' ']
  blanks : ∀ c ∈ r.number.spaces, c = ' '
  unsigned : r.number.sign = .unsigned
  digits : r.number.digits = "200".toList
  ends : ∀ c ∈ r.number.tail.head?, isSpace c = true

end StatusReading

/-- The response is read as 200 and is no status line with the code 200. -/
def Misread (pf : Platform) (text : CStr) : Prop :=
  ∃ r : StatusReading pf, r.text = text ∧ ¬ r.IsStatusLine

theorem Skips.append_inj {pf : Platform} {a b u v : CStr} (ha : Skips pf a) (hb : Skips pf b)
    (h : a ++ u = b ++ v) : a = b ∧ u = v := by
  cases pf
  case windows =>
    obtain ⟨a, rfl, hblank, -⟩ := ha
    obtain ⟨b, rfl, hblank', -⟩ := hb
    rw [List.append_assoc, List.append_assoc, List.singleton_append, List.singleton_append] at h
    have hbefore := takeWhile_ne_append hblank u
    have hbehind := dropWhile_ne_append hblank u
    rw [h, takeWhile_ne_append hblank' v] at hbefore
    rw [h, dropWhile_ne_append hblank' v, List.cons.injEq] at hbehind
    exact ⟨by rw [hbefore], hbehind.2.symm⟩
  case linux =>
    exact List.append_inj h (ha.trans hb.symm)

theorem StatusReading.text_injective {pf : Platform} :
    Function.Injective (@StatusReading.text pf) := by
  intro a b h
  obtain ⟨hskipped, hnumber⟩ := a.skips.append_inj b.skips (List.append_cancel_left h)
  ext1
  · exact hskipped
  · exact Numeral.text_injective hnumber

theorem HasOkStatusLine.exists_reading {text : CStr} (h : HasOkStatusLine text) (pf : Platform) :
    ∃ r : StatusReading pf, r.text = text ∧ r.IsStatusLine := by
  obtain ⟨minor, blanks, rest, hminor, hne, hblanks, hrest, rfl⟩ := h
  obtain ⟨blank, blanks, rfl⟩ := List.exists_cons_of_ne_nil hne
  obtain rfl : blank = ' ' := hblanks blank List.mem_cons_self
  have hspaces : ∀ c ∈ blanks, c = ' ' := fun c hc => hblanks c (List.mem_cons_of_mem _ hc)
  have hends : ∀ c ∈ rest.head?, isDigit c = false := by
    intro c hc
    cases hdigit : isDigit c with
    | false => rfl
    | true =>
      have hspace := hrest c hc
      rw [isSpace_of_isDigit hdigit] at hspace
      cases hspace
  have hskips : Skips pf [minor, ' '] := by
    cases pf
    case windows =>
      refine ⟨[minor], rfl, ?_, ?_⟩
      · simpa using (ne_of_isDigit hminor rfl).symm
      · simpa using (ne_of_isDigit hminor rfl).symm
    case linux => rfl
  have hcode : storedCode pf 200 = 200 := by
    cases pf <;> rfl
  refine ⟨{ skipped := [minor, ' ']
            number :=
              { spaces := blanks, sign := .unsigned, digits := "200".toList, tail := rest
                spaces_isSpace := fun c hc => by rw [hspaces c hc]; rfl
                isNumber := isNumber_200
                ends := hends }
            skips := hskips
            code := hcode }, ?_, ?_⟩
  · rfl
  · exact ⟨⟨minor, hminor, rfl⟩, hspaces, rfl, rfl, hrest⟩

theorem StatusReading.IsStatusLine.hasOkStatusLine {pf : Platform} {r : StatusReading pf}
    (h : r.IsStatusLine) : HasOkStatusLine r.text := by
  obtain ⟨minor, hminor, hskipped⟩ := h.version
  refine ⟨minor, ' ' :: r.number.spaces, r.number.tail, hminor, by simp, ?_, h.ends, ?_⟩
  · intro c hc
    rcases List.mem_cons.mp hc with rfl | hc
    · rfl
    · exact h.blanks c hc
  · unfold StatusReading.text
    rw [Numeral.text, hskipped, h.unsigned, h.digits]
    rfl

theorem StatusReading.hasOkStatusLine_iff {pf : Platform} (r : StatusReading pf) :
    HasOkStatusLine r.text ↔ r.IsStatusLine := by
  constructor
  · intro h
    obtain ⟨r', htext, hline⟩ := h.exists_reading pf
    rwa [StatusReading.text_injective htext] at hline
  · exact fun h => h.hasOkStatusLine

theorem cString_eq (response : List Byte) :
    cString response = (textOf response).takeWhile (· != '\x00') := by
  rw [cString, textOf, List.takeWhile_map]
  congr 2
  funext b
  revert b
  decide

theorem mem_takeWhile_ne {c d : Char} {text : CStr} (h : d ∈ text.takeWhile (· != c)) : d ≠ c := by
  simpa using List.mem_takeWhile_imp h

theorem isHttp1_iff (response : List Byte) :
    isHttp1 (cString response) = true ↔ ∃ rest, textOf response = "HTTP/1.".toList ++ rest := by
  have hplain : '\x00' ∉ "HTTP/1.".toList := by decide
  rw [cString_eq, isHttp1, decide_eq_true_eq]
  constructor
  · intro h
    refine ⟨(textOf response).drop 7, ?_⟩
    have hprefix := (List.take_prefix 7 _).trans
      (List.takeWhile_prefix (l := textOf response) (· != '\x00'))
    rw [h] at hprefix
    obtain ⟨rest, hrest⟩ := hprefix
    rw [← hrest]
    rfl
  · rintro ⟨rest, hrest⟩
    rw [hrest, takeWhile_append_of_not_mem hplain]
    rfl

theorem decide_ne_eq_bne (c : Char) : (fun d : Char => decide (d ≠ c)) = (· != c) := by
  funext d
  rw [Bool.eq_iff_iff, decide_eq_true_eq, bne_iff_ne]

theorem Windows.statusCode_append {before : CStr} (h : ' ' ∉ before) (code : CStr) :
    Windows.statusCode (before ++ ' ' :: code) = atoi code := by
  rw [Windows.statusCode, decide_ne_eq_bne, dropWhile_ne_append h]

theorem Windows.statusCode_of_not_mem {text : CStr} (h : ' ' ∉ text) :
    Windows.statusCode text = 0 := by
  rw [Windows.statusCode, decide_ne_eq_bne, dropWhile_ne_eq_nil h]

theorem exists_first_blank {text : CStr} (h : ' ' ∈ text.takeWhile (· != '\x00')) :
    ∃ version code, text = version ++ [' '] ++ code ∧ ' ' ∉ version ∧ '\x00' ∉ version := by
  obtain ⟨version, read, hread, hversion⟩ := List.eq_append_cons_of_mem h
  refine ⟨version, read ++ text.dropWhile (· != '\x00'), ?_, hversion, ?_⟩
  · rw [← List.append_assoc, ← List.append_cons, ← hread, List.takeWhile_append_dropWhile]
  · intro hmem
    have hmem' : '\x00' ∈ text.takeWhile (· != '\x00') := by
      rw [hread]
      exact List.mem_append_left _ hmem
    exact mem_takeWhile_ne hmem' rfl

theorem Windows.statusCode_eq_iff {version : CStr} (hblank : ' ' ∉ version)
    (hzero : '\x00' ∉ version) (code : CStr) :
    Windows.statusCode (("HTTP/1.".toList ++ (version ++ [' '] ++ code)).takeWhile
        (· != '\x00')) = 200 ↔
      ∃ number : Numeral, number.text = code ∧ storedCode .windows number.value = 200 := by
  have hcut : '\x00' ∉ "HTTP/1.".toList ++ version ++ [' '] := by
    simp [hzero]
  have hfirst : ' ' ∉ "HTTP/1.".toList ++ version := by
    simp [hblank]
  rw [← List.append_assoc, ← List.append_assoc, takeWhile_append_of_not_mem hcut,
    ← List.append_cons, Windows.statusCode_append hfirst, atoi_takeWhile_eq_iff (by decide)]
  rfl

/-- The Windows engine reads the number behind the first blank. -/
theorem windows_accepts_iff (response : List Byte) :
    Accepts .windows response ↔ ∃ r : StatusReading .windows, r.text = textOf response := by
  have hplain : '\x00' ∉ "HTTP/1.".toList := by decide
  constructor
  · rintro ⟨-, hhttp, hcode⟩
    obtain ⟨rest, hrest⟩ := (isHttp1_iff response).mp hhttp
    rw [cString_eq, hrest] at hcode
    by_cases hblank : ' ' ∈ rest.takeWhile (· != '\x00')
    · obtain ⟨version, code, rfl, hversion, hzero⟩ := exists_first_blank hblank
      obtain ⟨number, rfl, hvalue⟩ := (Windows.statusCode_eq_iff hversion hzero code).mp hcode
      exact ⟨⟨version ++ [' '], number, ⟨version, rfl, hversion, hzero⟩, hvalue⟩, hrest.symm⟩
    · rw [takeWhile_append_of_not_mem hplain,
        Windows.statusCode_of_not_mem (by simp [hblank])] at hcode
      cases hcode
  · rintro ⟨⟨skipped, number, ⟨version, rfl, hversion, hzero⟩, hvalue⟩, htext⟩
    refine ⟨?_, (isHttp1_iff response).mpr ⟨_, htext.symm⟩, ?_⟩
    · rintro rfl
      cases htext
    · rw [cString_eq, ← htext]
      exact (Windows.statusCode_eq_iff hversion hzero number.text).mpr ⟨number, rfl, hvalue⟩

theorem Numeral.three_le_length {number : Numeral} (h : narrow number.value = 200) :
    3 ≤ number.digits.length := by
  by_contra hshort
  have hlt : digitsValue number.digits < 10 ^ 2 :=
    (digitsValue_lt number.isNumber.digits).trans_le (Nat.pow_le_pow_right (by omega) (by omega))
  have hvalue : number.value = digitsValue number.digits ∨
      number.value = -(digitsValue number.digits : ℤ) := by
    unfold Numeral.value
    cases number.sign
    case unsigned => exact Or.inl rfl
    case plus => exact Or.inl rfl
    case minus => exact Or.inr rfl
  rw [narrow_of_small (by omega) (by omega)] at h
  omega

/-- The number behind the first nine bytes of a text that starts with `HTTP/1.`. -/
theorem Linux.statusCode_eq_iff {response : List Byte} {skipped code : CStr}
    (hskipped : skipped.length = 2)
    (hresponse : textOf response = "HTTP/1.".toList ++ (skipped ++ code)) :
    Linux.statusCode response = some 200 ↔
      ∃ number : Numeral, number.text = code ∧ storedCode .linux number.value = 200 := by
  have hdrop : textOf (response.drop 9) = code := by
    rw [textOf, List.map_drop]
    change (textOf response).drop 9 = code
    rw [hresponse, ← List.append_assoc]
    exact List.drop_left' (by rw [List.length_append, hskipped]; rfl)
  rw [Linux.statusCode, cString_eq, hdrop, scanInt_takeWhile_eq_iff]
  rfl

theorem linux_accepts_iff (response : List Byte) :
    Accepts .linux response ↔ ∃ r : StatusReading .linux, r.text = textOf response := by
  have hlength : (textOf response).length = response.length := List.length_map _
  have hprefix : "HTTP/1.".toList.length = 7 := rfl
  constructor
  · rintro ⟨hlong, hhttp, hstatus⟩
    obtain ⟨rest, hrest⟩ := (isHttp1_iff response).mp hhttp
    have htake : (rest.take 2).length = 2 := by
      rw [hrest, List.length_append] at hlength
      rw [List.length_take]
      omega
    rw [← List.take_append_drop 2 rest] at hrest
    obtain ⟨number, hnumber, hvalue⟩ := (Linux.statusCode_eq_iff htake hrest).mp hstatus
    refine ⟨⟨rest.take 2, number, htake, hvalue⟩, ?_⟩
    unfold StatusReading.text
    rw [hrest, hnumber]
  · rintro ⟨⟨skipped, number, hskipped, hvalue⟩, htext⟩
    refine ⟨?_, (isHttp1_iff response).mpr ⟨_, htext.symm⟩,
      (Linux.statusCode_eq_iff hskipped htext.symm).mpr ⟨number, rfl, hvalue⟩⟩
    have hthree := Numeral.three_le_length hvalue
    have htwo : skipped.length = 2 := hskipped
    unfold StatusReading.text at htext
    rw [← hlength, ← htext]
    simp only [List.length_append, Numeral.text]
    omega

theorem accepts_iff (pf : Platform) (response : List Byte) :
    Accepts pf response ↔ ∃ r : StatusReading pf, r.text = textOf response := by
  cases pf
  case windows => exact windows_accepts_iff response
  case linux => exact linux_accepts_iff response

/-- What `http_connect` receives as the response. -/
def receivedResponse (pf : Platform) (s : ProxySocket) : CStr :=
  textOf (s.incoming.recv (responseLimit pf)).1

theorem httpConnect_succeeds_iff (pf : Platform) (creds : Credentials) (dest : Ip × Port)
    (s : ProxySocket) :
    (∃ t, (httpConnect pf creds dest).Yields s () t) ↔
      ∃ r : StatusReading pf, r.text = receivedResponse pf s := by
  rw [receivedResponse, ← accepts_iff]
  constructor
  · rintro ⟨t, ht⟩
    exact ((httpConnect_yields pf creds dest s t).mp ht).1
  · intro h
    exact ⟨_, (httpConnect_yields pf creds dest s _).mpr ⟨h, rfl⟩⟩

/-- `http_connect` succeeds on status lines with the code 200 only, unless the response is
misread. -/
theorem httpConnect_fails_closed_iff (pf : Platform) (creds : Credentials) (dest : Ip × Port)
    (s : ProxySocket) :
    ((∃ t, (httpConnect pf creds dest).Yields s () t) →
        HasOkStatusLine (receivedResponse pf s)) ↔
      ¬ Misread pf (receivedResponse pf s) := by
  rw [httpConnect_succeeds_iff]
  constructor
  · rintro h ⟨r, htext, hmisread⟩
    have hline := h ⟨r, htext⟩
    rw [← htext, r.hasOkStatusLine_iff] at hline
    exact hmisread hline
  · rintro h ⟨r, htext⟩
    rw [← htext, r.hasOkStatusLine_iff]
    by_contra hmisread
    exact h ⟨r, htext, hmisread⟩

/-- White space with a line break, a number, and letters behind it. -/
def lineBreakNumber : Numeral where
  spaces := "\r\n".toList
  sign := .unsigned
  digits := "200".toList
  tail := "abc".toList
  spaces_isSpace := List.all_eq_true.mp (by decide)
  isNumber := isNumber_200
  ends := by
    rintro c ⟨⟩
    rfl

def misreadReading (pf : Platform) : StatusReading pf where
  skipped := "1 ".toList
  number := lineBreakNumber
  skips := by
    cases pf
    case windows => exact ⟨['1'], rfl, by decide, by decide⟩
    case linux => rfl
  code := by cases pf <;> rfl

/-- A response without a status code on its first line. -/
def misreadBytes : List Byte := bytesOf "HTTP/1.1 \r\n200abc".toList

theorem httpConnect_yields_misread (pf : Platform) :
    ∃ t, (httpConnect pf .anonymous (ipv4 1 1 1 1, 443)).Yields
      ⟨.ofParts [misreadBytes], []⟩ () t := by
  have hreceived : receivedResponse pf ⟨.ofParts [misreadBytes], []⟩ = textOf misreadBytes := by
    cases pf <;> rfl
  rw [httpConnect_succeeds_iff, hreceived]
  exact ⟨misreadReading pf, rfl⟩

/-- Both engines take the number at the start of the second line for the status code. -/
theorem httpConnect_accepts_second_line :
    (∃ t, (httpConnect .windows .anonymous (ipv4 1 1 1 1, 443)).Yields
      ⟨.ofParts [misreadBytes], []⟩ () t) ∧
    (∃ t, (httpConnect .linux .anonymous (ipv4 1 1 1 1, 443)).Yields
      ⟨.ofParts [misreadBytes], []⟩ () t) ∧
    ¬ HasOkStatusLine (textOf misreadBytes) := by
  refine ⟨httpConnect_yields_misread .windows, httpConnect_yields_misread .linux, ?_⟩
  have htext : (misreadReading .windows).text = textOf misreadBytes := rfl
  rw [← htext, StatusReading.hasOkStatusLine_iff]
  intro h
  cases h.blanks '\r' List.mem_cons_self

end ProxyTun
