import ProxyTun.CommandLine.RuleStrings
import ProxyTun.Core.Numerals
import ProxyTun.Library.Lines
import ProxyTun.Library.QuotedText

/-!
# The URL of the proxy on the command line

Both command lines take the proxy as `type://host:port` or `type://host:port:username:password`. On
Linux what follows the scheme is cut into tokens and the port is cut to 16 bits, on Windows it is
split at every colon and the port is read with `ushort.TryParse`.
-/
namespace ProxyTun.CommandLine
open Library.QuotedText

/-- The proxy that is taken out of a URL, where user name and password may be missing. -/
structure Proxy (Text : Type) where
  type : ProxyType
  host : CStr
  port : Port
  username : Text
  password : Text
  deriving DecidableEq, Repr

end ProxyTun.CommandLine

namespace ProxyTun.Cli
open CommandLine

/-- `StartsWith` with `StringComparison.OrdinalIgnoreCase`, for the letters of ASCII. -/
def startsWith (start text : CStr) : Bool :=
  (text.take start.length).map Char.toUpper = start.map Char.toUpper

/-- `ushort.TryParse`, which takes white space around the number and a sign before it. -/
def tryParse (text : CStr) : Option Port :=
  let (sign, digits) := splitSign ((text.dropWhile isSpace).rdropWhile isSpace)
  let n := sign.apply (digitsValue digits)
  if digits ≠ [] ∧ digits.all isDigit ∧ 0 ≤ n ∧ n ≤ 65535 then some (BitVec.ofInt 16 n) else none

def parseParts (type : ProxyType) (text : CStr) : Option (Proxy (Option CStr)) :=
  match text.splitOn ':' with
  | host :: port :: rest => do
    let port ← tryParse port
    match rest with
    | username :: password :: _ => return ⟨type, host, port, some username, some password⟩
    | _ => return ⟨type, host, port, none, none⟩
  | _ => none

/-- `ParseProxyConfig`, which throws for anything else. -/
def parseProxyConfig (proxyUrl : CStr) : Option (Proxy (Option CStr)) :=
  if startsWith "socks5://".toList proxyUrl then parseParts .socks5 (proxyUrl.drop 9)
  else if startsWith "http://".toList proxyUrl then parseParts .http (proxyUrl.drop 7)
  else none

end ProxyTun.Cli

namespace ProxyTun.Linux.Cli
open CommandLine Library.QuotedText

def schemeType (upperScheme : CStr) : Option ProxyType :=
  if upperScheme = "SOCKS5".toList then some .socks5
  else if upperScheme = "HTTP".toList then some .http
  else none

def portOf (text : CStr) : Port := BitVec.ofInt 16 (safeAtoi text)

def parseParts (type : ProxyType) (rest : CStr) : Option (Proxy CStr) :=
  match (strtok [':'] rest).take 4 with
  | host :: port :: login =>
    if portOf port = 0 then none
    else
      match login with
      | [username, password] =>
        some ⟨type, host.take 255, portOf port, username.take 255, password.take 255⟩
      | _ => some ⟨type, host.take 255, portOf port, [], []⟩
  | _ => none

/-- `parse_proxy_url`, with the URL in a buffer of 512 characters. -/
def parseProxyUrl (url : CStr) : Option (Proxy CStr) := do
  let buffer := url.take 511
  let schemeEnd ← findText "://".toList buffer
  let type ← schemeType (upperWord (buffer.take (buffer.length - schemeEnd.length)))
  parseParts type (schemeEnd.drop 3)

end ProxyTun.Linux.Cli

namespace ProxyTun.CommandLine

/-- A URL by its parts. -/
structure ProxyUrl where
  type : ProxyType
  scheme : CStr
  host : CStr
  number : ℤ
  credentials : Option (CStr × CStr)

namespace ProxyUrl

/-- What follows the port. -/
def login (url : ProxyUrl) : CStr :=
  url.credentials.elim [] fun login => ':' :: (login.1 ++ ':' :: login.2)

def parts (url : ProxyUrl) : CStr := url.host ++ ':' :: (signedDecimal url.number ++ url.login)

/-- `type://host:port` or `type://host:port:username:password`. -/
def text (url : ProxyUrl) : CStr := url.scheme ++ ("://".toList ++ url.parts)

/-- The scheme is written in any case, the host and the user name are free of colons, user name and
password are not empty, and all is shorter than the buffers. -/
structure WellFormed (url : ProxyUrl) : Prop where
  scheme : url.scheme.map Char.toUpper = url.type.upperName
  host : ':' ∉ url.host
  username : ∀ login ∈ url.credentials, login.1 ≠ [] ∧ ':' ∉ login.1
  password : ∀ login ∈ url.credentials, login.2 ≠ []
  fits : url.text.length < 512
  host_fits : url.host.length < 256
  login_fits : ∀ login ∈ url.credentials, login.1.length < 256 ∧ login.2.length < 256

def InRange (url : ProxyUrl) : Prop := 1 ≤ url.number ∧ url.number ≤ 65535

instance (url : ProxyUrl) : Decidable url.InRange := inferInstanceAs (Decidable (_ ∧ _))

/-- What the URL says. -/
def proxy {Text : Type} (asText : Option CStr → Text) (url : ProxyUrl) : Proxy Text :=
  ⟨url.type, url.host, BitVec.ofInt 16 url.number, asText (url.credentials.map Prod.fst),
    asText (url.credentials.map Prod.snd)⟩

/-- The proxy is taken out of the URL as it is written, and only with a valid port. -/
def Exactly {Text : Type} (asText : Option CStr → Text) (url : ProxyUrl)
    (result : Option (Proxy Text)) : Prop :=
  result = if url.InRange then some (url.proxy asText) else none

end ProxyUrl

section Numbers

def numeralOf (n : ℤ) : Numeral where
  spaces := []
  sign := if n < 0 then .minus else .unsigned
  digits := decimal n.natAbs
  tail := []
  spaces_isSpace := isSpace_of_mem_nil
  isNumber := isNumber_decimal n.natAbs
  ends := isDigit_head_nil

theorem text_numeralOf (n : ℤ) : (numeralOf n).text = signedDecimal n := by
  have htext : (numeralOf n).text =
      (if n < 0 then Sign.minus else .unsigned).text ++ decimal n.natAbs := by
    simp [Numeral.text, numeralOf]
  rw [htext]
  cases n with
  | ofNat n =>
    rw [if_neg (show ¬ Int.ofNat n < 0 from Int.not_lt.mpr (Int.natCast_nonneg n))]
    rfl
  | negSucc n =>
    rw [if_pos (Int.negSucc_lt_zero n)]
    change '-' :: decimal (n + 1) = ("-" ++ Nat.repr (n + 1)).toList
    rw [String.toList_append]
    rfl

theorem value_numeralOf (n : ℤ) : (numeralOf n).value = n := by
  rw [Numeral.value]
  change Sign.apply (if n < 0 then .minus else .unsigned) (digitsValue (decimal n.natAbs)) = n
  rw [digitsValue_decimal]
  split_ifs with h <;> simp only [Sign.apply] <;> omega

theorem safeAtoi_signedDecimal (n : ℤ) : safeAtoi (signedDecimal n) = narrow n := by
  rw [safeAtoi, ← text_numeralOf, Numeral.strtol_text, value_numeralOf]

/-- Cut to 16 bits after it was cut to 64, the number is 0. -/
def ReadAsZero (n : ℤ) : Prop :=
  n < 9223372036854775808 ∧ (65536 ∣ n ∨ n < -9223372036854775808)

theorem ofInt_eq_zero_iff (n : ℤ) : BitVec.ofInt 16 n = 0 ↔ 65536 ∣ n := by
  rw [← BitVec.toNat_inj, BitVec.toNat_ofInt]
  simp
  omega

theorem portOf_text (a : Numeral) : Linux.Cli.portOf a.text = 0 ↔ ReadAsZero a.value := by
  rw [Linux.Cli.portOf, safeAtoi, a.strtol_text]
  dsimp only
  rw [ofInt_eq_zero_iff, narrow, toInt32, BitVec.toInt_ofInt, Int.bmod_def, clamp, ReadAsZero]
  omega

theorem portOf_signedDecimal (n : ℤ) :
    Linux.Cli.portOf (signedDecimal n) = 0 ↔ ReadAsZero n := by
  rw [← text_numeralOf, portOf_text, value_numeralOf]

theorem portOf_eq_zero_iff (text : CStr) :
    Linux.Cli.portOf text = 0 ↔ ∀ a : Numeral, a.text = text → ReadAsZero a.value := by
  by_cases hnone : strtol text = none
  · have hport : Linux.Cli.portOf text = 0 := by
      rw [Linux.Cli.portOf, safeAtoi, hnone]
      rfl
    refine iff_of_true hport ?_
    rintro a rfl
    rw [a.strtol_text] at hnone
    cases hnone
  · obtain ⟨a, rfl⟩ := exists_numeral hnone
    rw [portOf_text]
    constructor
    · intro hzero b hsame
      rwa [Numeral.text_injective hsame]
    · intro hall
      exact hall a rfl

theorem portOf_of_inRange {n : ℤ} (h : 1 ≤ n ∧ n ≤ 65535) :
    Linux.Cli.portOf (signedDecimal n) = BitVec.ofInt 16 n := by
  rw [Linux.Cli.portOf, safeAtoi_signedDecimal, narrow_of_small (by omega) (by omega)]

theorem not_mem_signedDecimal {c : Char} (hdigit : isDigit c = false) (hsign : c ≠ '-') (n : ℤ) :
    c ∉ signedDecimal n := by
  rw [← text_numeralOf, Numeral.text]
  change c ∉ [] ++ ((if n < 0 then Sign.minus else .unsigned).text ++ (decimal n.natAbs ++ []))
  have hdecimal : c ∉ decimal n.natAbs := (isNumber_decimal n.natAbs).not_mem hdigit
  split_ifs <;> simp [Sign.text, hsign, hdecimal]

theorem tryParse_signedDecimal (n : ℤ) :
    Cli.tryParse (signedDecimal n) =
      if 0 ≤ n ∧ n ≤ 65535 then some (BitVec.ofInt 16 n) else none := by
  have hspace : ∀ c ∈ signedDecimal n, isSpace c = false := by
    intro c hc
    by_contra hblank
    rw [Bool.not_eq_false] at hblank
    refine not_mem_signedDecimal ?_ ?_ n hc
    · by_contra hdigit
      rw [Bool.not_eq_false] at hdigit
      rw [isSpace_of_isDigit hdigit] at hblank
      cases hblank
    · rintro rfl
      cases hblank
  have hsplit : splitSign (signedDecimal n) =
      (if n < 0 then Sign.minus else .unsigned, decimal n.natAbs) := by
    have hdigits := (numeralOf n).splitSign_digits
    rw [← text_numeralOf]
    simpa [numeralOf, Numeral.text] using hdigits
  have hnumber := isNumber_decimal n.natAbs
  have hvalue := value_numeralOf n
  change Sign.apply (if n < 0 then .minus else .unsigned) (digitsValue (decimal n.natAbs)) = n
    at hvalue
  have hall : (decimal n.natAbs).all isDigit = true := List.all_eq_true.mpr hnumber.digits
  rw [Cli.tryParse, trimmed_eq_self hspace, hsplit]
  dsimp only
  rw [hvalue]
  simp only [ne_eq, hnumber.nonempty, not_false_eq_true, hall, true_and]

end Numbers

namespace ProxyUrl

variable {url : ProxyUrl}

/-- The fields of user name and password, where the password is cut at its colons. -/
def loginFields (url : ProxyUrl) : List CStr :=
  url.credentials.elim [] fun login => login.1 :: login.2.splitOn ':'

theorem splitOn_parts (h : url.WellFormed) :
    url.parts.splitOn ':' = url.host :: signedDecimal url.number :: url.loginFields := by
  have hnumber : ':' ∉ signedDecimal url.number := not_mem_signedDecimal rfl (by decide) _
  rw [parts, List.splitOn_append_cons_self_of_not_mem h.host, login, loginFields]
  cases hlogin : url.credentials with
  | none =>
    rw [Option.elim_none, Option.elim_none, List.append_nil, List.splitOn_eq_singleton hnumber]
  | some login =>
    rw [Option.elim_some, Option.elim_some, List.splitOn_append_cons_self_of_not_mem hnumber,
      List.splitOn_append_cons_self_of_not_mem (h.username login hlogin).2]

theorem first_eq_iff {password first : CStr} {more : List CStr}
    (h : password.splitOn ':' = first :: more) : first = password ↔ ':' ∉ password := by
  constructor
  · rintro rfl hcolon
    have hmem : first ∈ first.splitOn ':' := by
      rw [h]
      exact List.mem_cons_self
    exact (Library.Lines.mem_of_mem_splitOn hmem hcolon).1 rfl
  · intro hcolon
    rw [List.splitOn_eq_singleton hcolon] at h
    exact (List.cons.inj h).1.symm

theorem windows_parts_iff (h : url.WellFormed) :
    url.Exactly id (Cli.parseParts url.type url.parts) ↔
      url.number ≠ 0 ∧ (url.InRange → ∀ login ∈ url.credentials, ':' ∉ login.2) := by
  unfold Exactly
  rw [Cli.parseParts, splitOn_parts h]
  dsimp only
  rw [tryParse_signedDecimal]
  by_cases hrange : url.InRange
  · rw [if_pos hrange, if_pos (show 0 ≤ url.number ∧ url.number ≤ 65535 by
      exact ⟨by have := hrange.1; omega, hrange.2⟩)]
    have hzero : url.number ≠ 0 := by
      have := hrange.1
      omega
    rw [and_iff_right hzero, imp_iff_right hrange, loginFields, proxy]
    cases hlogin : url.credentials with
    | none => simp
    | some login =>
      obtain ⟨first, more, hsplit⟩ :=
        List.exists_cons_of_ne_nil (List.splitOn_ne_nil ':' login.2)
      rw [Option.elim_some, hsplit]
      simp [← first_eq_iff hsplit]
  · rw [if_neg hrange]
    have hlow : ¬ (1 ≤ url.number ∧ url.number ≤ 65535) := hrange
    by_cases hzero : url.number = 0
    · rw [if_pos (by omega), Option.bind_eq_bind, Option.bind_some, loginFields]
      cases hlogin : url.credentials with
      | none => simp [hzero]
      | some login =>
        obtain ⟨first, more, hsplit⟩ :=
          List.exists_cons_of_ne_nil (List.splitOn_ne_nil ':' login.2)
        rw [Option.elim_some, hsplit]
        simp [hzero]
    · rw [if_neg (by omega)]
      simp [hrange, hzero]

def loginTokens (url : ProxyUrl) : List CStr :=
  url.loginFields.filter fun field => !field.isEmpty

theorem signedDecimal_ne_nil (n : ℤ) : signedDecimal n ≠ [] := by
  rw [← text_numeralOf, Numeral.text]
  have hdigits : (numeralOf n).digits ≠ [] := (numeralOf n).isNumber.nonempty
  simp [hdigits]

theorem strtok_parts (h : url.WellFormed) :
    strtok [':'] url.parts =
      if url.host = [] then signedDecimal url.number :: url.loginTokens
      else url.host :: signedDecimal url.number :: url.loginTokens := by
  rw [strtok_singleton, splitOn_parts h, loginTokens]
  split_ifs with hhost <;> simp [hhost, signedDecimal_ne_nil]

theorem first_token_iff {password first : CStr} {more : List CStr} (hne : password ≠ [])
    (hlength : password.length < 256)
    (h : (password.splitOn ':').filter (fun field => !field.isEmpty) = first :: more) :
    first.take 255 = password ↔ ':' ∉ password := by
  constructor
  · intro hfirst hcolon
    have hmem : first ∈ (password.splitOn ':').filter fun field => !field.isEmpty := by
      rw [h]
      exact List.mem_cons_self
    rw [← hfirst] at hcolon
    exact (Library.Lines.mem_of_mem_splitOn (List.mem_of_mem_filter hmem)
      (List.mem_of_mem_take hcolon)).1 rfl
  · intro hcolon
    rw [List.splitOn_eq_singleton hcolon] at h
    have hfirst : password = first ∧ [] = more := by simpa [hne] using h
    rw [← hfirst.1, List.take_of_length_le (by omega)]

theorem linux_parts_iff (h : url.WellFormed) (hhost : url.host ≠ []) :
    url.Exactly (·.getD []) (Linux.Cli.parseParts url.type url.parts) ↔
      if url.InRange then ∀ login ∈ url.credentials, ':' ∉ login.2 else ReadAsZero url.number := by
  unfold Exactly
  rw [Linux.Cli.parseParts, strtok_parts h, if_neg hhost]
  simp only [List.take_succ_cons]
  by_cases hrange : url.InRange
  · have hport := portOf_of_inRange hrange
    have hnonzero : ¬ Linux.Cli.portOf (signedDecimal url.number) = 0 := by
      rw [portOf_signedDecimal, ReadAsZero]
      have := hrange
      unfold InRange at this
      omega
    have hshort : url.host.take 255 = url.host :=
      List.take_of_length_le (by have := h.host_fits; omega)
    rw [if_pos hrange, if_pos hrange, if_neg hnonzero, hport, hshort, loginTokens, loginFields,
      proxy]
    cases hlogin : url.credentials with
    | none => simp
    | some login =>
      have huser := h.username login hlogin
      have hfits := h.login_fits login hlogin
      have hname : login.1.take 255 = login.1 := List.take_of_length_le (by omega)
      rw [Option.elim_some, List.filter_cons, if_pos (by simpa using huser.1)]
      cases htokens : (login.2.splitOn ':').filter fun field => !field.isEmpty with
      | nil =>
        have hcolon : ':' ∈ login.2 := by
          by_contra hnot
          rw [List.splitOn_eq_singleton hnot] at htokens
          exact absurd htokens (by simp [h.password login hlogin])
        simp [hcolon, Ne.symm huser.1]
      | cons first more =>
        simp [hname, first_token_iff (h.password login hlogin) hfits.2 htokens]
  · rw [if_neg hrange, if_neg hrange, ← portOf_signedDecimal]
    split_ifs with hzero
    · exact iff_of_true rfl hzero
    · refine iff_of_false ?_ hzero
      split <;> simp

theorem linux_parts_noHost_iff (h : url.WellFormed) (hhost : url.host = []) :
    url.Exactly (·.getD []) (Linux.Cli.parseParts url.type url.parts) ↔
      ¬ url.InRange ∧ ∀ login ∈ url.credentials, Linux.Cli.portOf login.1 = 0 := by
  unfold Exactly
  have hother : ((signedDecimal url.number).take 255 = url.host) = False := by
    simp [hhost, signedDecimal_ne_nil]
  rw [Linux.Cli.parseParts, strtok_parts h, if_pos hhost, loginTokens, loginFields, proxy]
  cases hlogin : url.credentials with
  | none => by_cases hrange : url.InRange <;> simp [hrange]
  | some login =>
    have huser := h.username login hlogin
    have hlogin : (∀ l ∈ some login, Linux.Cli.portOf l.1 = 0) ↔ Linux.Cli.portOf login.1 = 0 := by
      simp
    rw [Option.elim_some, List.filter_cons, if_pos (by simpa using huser.1), hlogin]
    simp only [List.take_succ_cons]
    split_ifs with hzero hrange hrange
    · simp [hrange]
    · exact iff_of_true rfl ⟨hrange, hzero⟩
    · split <;> simp [hother, hrange]
    · refine iff_of_false ?_ fun hboth => hzero hboth.2
      split <;> simp

theorem map_toUpper_text (h : url.WellFormed) :
    url.text.map Char.toUpper =
      url.type.upperName ++ ("://".toList ++ url.parts.map Char.toUpper) := by
  rw [text, List.map_append, List.map_append, h.scheme]
  rfl

theorem startsWith_text (h : url.WellFormed) (start : CStr) :
    Cli.startsWith start url.text =
      ((url.type.upperName ++ ("://".toList ++ url.parts.map Char.toUpper)).take start.length =
        start.map Char.toUpper : Bool) := by
  rw [Cli.startsWith, List.map_take, map_toUpper_text h]

theorem drop_text {length : ℕ} (h : url.WellFormed)
    (hlength : length = url.type.upperName.length + 3) : url.text.drop length = url.parts := by
  have hscheme := congrArg List.length h.scheme
  rw [List.length_map] at hscheme
  rw [text, hlength, ← hscheme, ← List.drop_drop, List.drop_left]
  rfl

theorem windows_text (h : url.WellFormed) :
    Cli.parseProxyConfig url.text = Cli.parseParts url.type url.parts := by
  cases htype : url.type with
  | socks5 =>
    have hsocks : Cli.startsWith "socks5://".toList url.text = true := by
      rw [startsWith_text h, htype]
      exact decide_eq_true rfl
    rw [Cli.parseProxyConfig, if_pos hsocks, drop_text h (by rw [htype]; rfl)]
  | http =>
    have hsocks : Cli.startsWith "socks5://".toList url.text = false := by
      rw [startsWith_text h, htype]
      refine decide_eq_false fun hsame => ?_
      have hhead : some 'H' = some 'S' := congrArg List.head? hsame
      cases hhead
    have hhttp : Cli.startsWith "http://".toList url.text = true := by
      rw [startsWith_text h, htype]
      exact decide_eq_true rfl
    rw [Cli.parseProxyConfig, if_neg (ne_true_of_eq_false hsocks), if_pos hhttp,
      drop_text h (by rw [htype]; rfl)]

theorem linux_text (h : url.WellFormed) :
    Linux.Cli.parseProxyUrl url.text = Linux.Cli.parseParts url.type url.parts := by
  have hcolon : ':' ∉ url.scheme := by
    intro hmem
    have hupper : ':' ∈ url.type.upperName := h.scheme ▸ List.mem_map_of_mem hmem
    cases htype : url.type <;> rw [htype] at hupper <;> exact absurd hupper (by decide)
  have hfind : Library.QuotedText.findText "://".toList url.text =
      some ("://".toList ++ url.parts) := by
    rw [text]
    refine (Library.QuotedText.findText_append hcolon _).trans ?_
    exact if_pos (List.prefix_append _ _)
  have hscheme : url.text.take (url.text.length - ("://".toList ++ url.parts).length) =
      url.scheme := by
    rw [text, List.length_append, Nat.add_sub_cancel, List.take_left]
  have hword : Linux.Cli.upperWord url.scheme = url.type.upperName := by
    rw [upperWord_eq_iff (by cases url.type <;> decide), h.scheme]
  have htype : Linux.Cli.schemeType url.type.upperName = some url.type := by
    cases url.type <;> rfl
  rw [Linux.Cli.parseProxyUrl, List.take_of_length_le (by have := h.fits; omega)]
  simp only [hfind, Option.bind_eq_bind, Option.bind_some, hscheme, hword, htype]
  rfl

/-- A port in the range needs a host and a password without colons, any other number one that is 0
once it is cut. Without a host, the user name is the port. -/
def LinuxReads (url : ProxyUrl) : Prop :=
  if url.host = [] then
    ¬ url.InRange ∧ ∀ login ∈ url.credentials, ∀ a : Numeral, a.text = login.1 → ReadAsZero a.value
  else if url.InRange then ∀ login ∈ url.credentials, ':' ∉ login.2
  else ReadAsZero url.number

/-- The number is not 0, and the password has no colons. -/
def WindowsReads (url : ProxyUrl) : Prop :=
  url.number ≠ 0 ∧ (url.InRange → ∀ login ∈ url.credentials, ':' ∉ login.2)

/-- A URL is read as it is written, by each command line under its own condition. -/
theorem proxy_urls_exact_iff (h : url.WellFormed) :
    (url.Exactly (·.getD []) (Linux.Cli.parseProxyUrl url.text) ↔ url.LinuxReads) ∧
      (url.Exactly id (Cli.parseProxyConfig url.text) ↔ url.WindowsReads) := by
  rw [linux_text h, windows_text h]
  refine ⟨?_, windows_parts_iff h⟩
  by_cases hhost : url.host = []
  · simp only [LinuxReads, if_pos hhost, ← portOf_eq_zero_iff]
    exact linux_parts_noHost_iff h hhost
  · rw [LinuxReads, if_neg hhost]
    exact linux_parts_iff h hhost

/-- `SocKs5://proxy:1080:user:secret`. -/
def mixedCase : ProxyUrl :=
  ⟨.socks5, "SocKs5".toList, "proxy".toList, 1080, some ("user".toList, "secret".toList)⟩

theorem proxy_urls_exact_mixedCase :
    mixedCase.Exactly (·.getD []) (Linux.Cli.parseProxyUrl mixedCase.text) ∧
      mixedCase.Exactly id (Cli.parseProxyConfig mixedCase.text) := by
  have hwell : mixedCase.WellFormed := by
    refine ⟨by decide, by decide, ?_, ?_, by decide +kernel, by decide, ?_⟩
    all_goals
      rintro login hlogin
      obtain rfl := Option.some.inj hlogin
      decide
  have hpassword : ∀ login ∈ mixedCase.credentials, ':' ∉ login.2 := by
    rintro login hlogin
    obtain rfl := Option.some.inj hlogin
    decide
  obtain ⟨hlinux, hwindows⟩ := proxy_urls_exact_iff hwell
  exact ⟨hlinux.mpr hpassword, hwindows.mpr ⟨by decide, fun _ => hpassword⟩⟩

/-- Linux takes the port 65616 for 80, Windows takes the port 0, and both cut a password at its
colon. -/
theorem proxy_urls_inexact :
    Linux.Cli.parseProxyUrl "http://proxy:65616".toList = some ⟨.http, "proxy".toList, 80, [], []⟩ ∧
      Cli.parseProxyConfig "http://proxy:0".toList =
        some ⟨.http, "proxy".toList, 0, none, none⟩ ∧
      Linux.Cli.parseProxyUrl "http://proxy:80:user:a:b".toList =
        some ⟨.http, "proxy".toList, 80, "user".toList, "a".toList⟩ ∧
      Cli.parseProxyConfig "http://proxy:80:user:a:b".toList =
        some ⟨.http, "proxy".toList, 80, some "user".toList, some "a".toList⟩ := by
  decide +kernel

end ProxyUrl

end ProxyTun.CommandLine
