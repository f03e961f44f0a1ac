import ProxyTun.Core.Rules

/-!
# The filters of the two platforms

Each list filter splits its text into tokens and asks for one token that matches.
The token filters differ between the platforms in the ranges, blanks and wildcards
they understand.
-/
namespace ProxyTun

/-- `parse_token_list`, with the platform's treatment of a single token. -/
def parseTokenList (delimiters : List Char) (accepts : CStr → Bool) (list : CStr) : Bool :=
  list = [] || list = ['*'] || (strtok delimiters list).any accepts

theorem strtok_eq_singleton {delimiters list : List Char} (hne : list ≠ [])
    (h : ∀ c ∈ list, c ∉ delimiters) : strtok delimiters list = [list] := by
  rw [strtok, List.splitOnP_eq_singleton fun c hc => by simpa using h c hc]
  simp [hne]

theorem strtok_singleton (separator : Char) (text : CStr) :
    strtok [separator] text = (text.splitOn separator).filter fun field => !field.isEmpty := by
  have hseparator : (fun c => [separator].contains c) = fun c => c == separator := by
    funext c
    rw [Bool.eq_iff_iff]
    simp
  rw [strtok, hseparator, List.splitOn_eq_splitOnP]

theorem parseTokenList_iff {delimiters : List Char} {accepts : CStr → Bool} {list : CStr}
    (hdelimiters : '*' ∉ delimiters) (hstar : accepts ['*'] = true) :
    parseTokenList delimiters accepts list = true ↔
      list = [] ∨ ∃ token ∈ strtok delimiters list, accepts token = true := by
  rw [parseTokenList, Bool.or_eq_true_iff, Bool.or_eq_true_iff, decide_eq_true_iff,
    decide_eq_true_iff, List.any_eq_true, or_assoc]
  apply or_congr_right
  rw [or_iff_right_of_imp]
  rintro rfl
  refine ⟨['*'], ?_, hstar⟩
  rw [strtok_eq_singleton (by simp) (by simpa using hdelimiters)]
  exact List.mem_singleton_self _

theorem parseTokenList_single {delimiters list : CStr} (accepts : CStr → Bool) (hne : list ≠ [])
    (hdelimiters : ∀ c ∈ list, c ∉ delimiters) :
    parseTokenList delimiters accepts list = (list = ['*'] || accepts list : Bool) := by
  simp [parseTokenList, hne, strtok_eq_singleton hne hdelimiters]

/-- The four fields a host pattern is cut into, if it has as many. The pattern is copied
to a buffer of 256 bytes and each field to one of 16. -/
def patternOctets (pattern : CStr) : Option (List CStr) :=
  let fields := ((pattern.take 255).splitOn '.').take 4
  if fields.length = 4 then some (fields.map (List.take 15)) else none

theorem take_eq_star_iff (field : CStr) : field.take 15 = ['*'] ↔ field = ['*'] := by
  cases field with
  | nil => simp
  | cons c cs => simp [List.take_eq_nil_iff]

/-- The four fields against the four octets of the address. -/
def matchOctets (field : CStr → ℕ → Bool) (pattern : CStr) (ip : Ip) : Bool :=
  match patternOctets pattern with
  | some fields => fields.zipIdx.all fun f => f.1 = ['*'] || field f.1 (octet ip f.2).toNat
  | none => false

/-- A port pattern `n` or `n-m`, with the platform's reading of numbers. -/
def matchPortWith (number : CStr → ℤ) (pattern : CStr) (port : Port) : Bool :=
  pattern = ['*'] ||
  if pattern.contains '-' then
    number pattern ≤ port.toNat && port.toNat ≤ number ((pattern.dropWhile (· != '-')).drop 1)
  else number pattern = port.toNat

/-- A pattern with its only star at the end, or the beginning, or anywhere. -/
def matchTail (pattern target : CStr) : Bool :=
  samePrefixIgnoringCase pattern target (pattern.length - 1)

def matchSuffix (suffix target : CStr) : Bool :=
  suffix.length ≤ target.length &&
    sameIgnoringCase (target.drop (target.length - suffix.length)) suffix

namespace Windows

/-- The word that `(a << 0) | (b << 8) | (c << 16) | (d << 24)` makes of four numbers. -/
def packQuad (q : ℤ × ℤ × ℤ × ℤ) : Ip :=
  BitVec.ofInt 32 q.1 ||| BitVec.ofInt 32 q.2.1 <<< 8 ||| BitVec.ofInt 32 q.2.2.1 <<< 16 |||
    BitVec.ofInt 32 q.2.2.2 <<< 24

/-- The address as a big-endian number. -/
def bigEndian (ip : Ip) : ℕ :=
  ((octet ip 0) ++ (octet ip 1) ++ (octet ip 2) ++ (octet ip 3) : BitVec 32).toNat

def matchIpPattern (pattern : CStr) (ip : Ip) : Bool :=
  pattern = ['*'] ||
  if pattern.contains '-' then
    let first := pattern.takeWhile (· != '-')
    let last := ((pattern.dropWhile (· != '-')).drop 1).take 63
    if 64 ≤ first.length then false
    else match scanQuad first, scanQuad last with
      | some s, some e =>
        bigEndian (packQuad s) ≤ bigEndian ip && bigEndian ip ≤ bigEndian (packQuad e)
      | _, _ => false
  else matchOctets (fun f o => atoi f = o) pattern ip

def matchPortPattern : CStr → Port → Bool := matchPortWith atoi

def matchIpList (list : CStr) (ip : Ip) : Bool :=
  parseTokenList [';'] (fun token => matchIpPattern (skipWhitespace token) ip) list

def matchPortList (list : CStr) (port : Port) : Bool :=
  parseTokenList [',', ';'] (fun token => matchPortPattern (skipWhitespace token) port) list

def matchProcessPattern (pattern process : CStr) : Bool :=
  pattern = ['*'] ||
  let target := if pattern.contains '\\' || pattern.contains '/' then process
    else afterLast '\\' process
  if pattern.getLast? = some '*' then matchTail pattern target
  else if 1 < pattern.length && pattern.head? = some '*' then matchSuffix (pattern.drop 1) target
  else if pattern.contains '*' then
    let start := pattern.takeWhile (· != '*')
    let suffix := (pattern.dropWhile (· != '*')).drop 1
    samePrefixIgnoringCase pattern target start.length &&
      start.length + suffix.length ≤ target.length &&
      sameIgnoringCase (target.drop (target.length - suffix.length)) suffix
  else sameIgnoringCase pattern target

/-- Blanks are cut from both ends, then a pair of quotes. The cut of trailing blanks stops
before the first character. -/
def trimToken (token : CStr) : CStr :=
  let token := skipWhitespace token
  let token := match token with
    | [] => []
    | c :: cs => c :: (cs.reverse.dropWhile isBlank).reverse
  match token with
  | '"' :: c :: cs => (c :: cs).takeWhile (· != '"')
  | token => token

theorem mem_of_mem_trimToken {token : CStr} {c : Char} (hc : c ∈ trimToken token) : c ∈ token := by
  apply (List.dropWhile_sublist isBlank).subset
  change c ∈ skipWhitespace token
  unfold trimToken at hc
  cases hskip : skipWhitespace token with
  | nil =>
    simp [hskip] at hc
  | cons d ds =>
    simp only [hskip] at hc
    have hcut : c ∈ d :: (ds.reverse.dropWhile isBlank).reverse := by
      split at hc
      · next e es heq =>
        rw [heq]
        exact List.mem_cons_of_mem _ ((List.takeWhile_sublist _).subset hc)
      · exact hc
    rcases List.mem_cons.mp hcut with rfl | hrest
    · exact List.mem_cons_self
    · rw [List.mem_reverse] at hrest
      have hrest' := (List.dropWhile_sublist isBlank).subset hrest
      exact List.mem_cons_of_mem _ (List.mem_reverse.mp hrest')

theorem matchProcessPattern_plain {pattern : CStr}
    (h : ∀ c ∈ ['*', '/', '\\'], c ∉ pattern) (process : CStr) :
    matchProcessPattern pattern process = sameIgnoringCase pattern (afterLast '\\' process) := by
  obtain ⟨hstar, hlast, hhead⟩ := ends_ne_of_not_mem (h '*' (by decide))
  simp [matchProcessPattern, hstar, hlast, hhead, h]

def matchProcessList (list process : CStr) : Bool :=
  parseTokenList [',', ';'] (fun token => matchProcessPattern (trimToken token) process) list

def filters : Filters where
  isWildcardProcess name := name = ['*'] || name = ['A', 'N', 'Y']
  matchProcessList := matchProcessList
  matchIpList := matchIpList
  matchPortList := matchPortList

end Windows

namespace Linux

def trimToken (token : CStr) : CStr :=
  ((skipWhitespace token).reverse.dropWhile fun c => isBlank c || c = '\r' || c = '\n').reverse

theorem trimToken_eq_self {token : CStr}
    (h : ∀ c ∈ token, (isBlank c || c = '\r' || c = '\n') = false) : trimToken token = token := by
  have hblank : ∀ c ∈ token, isBlank c = false := by
    intro c hc
    have hboth := h c hc
    rw [Bool.or_eq_false_iff, Bool.or_eq_false_iff] at hboth
    exact hboth.1.1
  rw [trimToken, skipWhitespace_eq_self hblank]
  cases hreverse : token.reverse with
  | nil => rw [List.reverse_eq_nil_iff.mp hreverse]; rfl
  | cons c cs =>
    have hc : c ∈ token := by
      rw [← List.mem_reverse, hreverse]
      exact List.mem_cons_self
    rw [List.dropWhile_cons_of_neg (by simp [h c hc]), ← hreverse, List.reverse_reverse]

/-- `parse_token_list` of the Linux engine, which trims tokens and skips empty ones. -/
def parseTrimmedList (delimiters : List Char) (accepts : CStr → Bool) (list : CStr) : Bool :=
  parseTokenList delimiters (fun token => trimToken token ≠ [] && accepts (trimToken token)) list

def matchIpField (f : CStr) (o : ℕ) : Bool :=
  if f.contains '-' then
    safeAtoi f ≤ o && o ≤ safeAtoi ((f.dropWhile (· != '-')).drop 1)
  else safeAtoi f = o

def matchIpPattern (pattern : CStr) (ip : Ip) : Bool :=
  pattern = ['*'] || matchOctets matchIpField pattern ip

def matchPortPattern : CStr → Port → Bool := matchPortWith safeAtoi

def matchProcessPattern (pattern process : CStr) : Bool :=
  pattern = ['*'] ||
  let target := if pattern.contains '/' then process else afterLast '/' process
  if pattern.getLast? = some '*' then matchTail pattern target
  else if 1 < pattern.length && pattern.head? = some '*' then matchSuffix (pattern.drop 1) target
  else sameIgnoringCase pattern target

def filters : Filters where
  isWildcardProcess name := name = ['*'] || sameIgnoringCase name ['A', 'N', 'Y']
  matchProcessList list process :=
    parseTrimmedList [';'] (fun token => matchProcessPattern token process) list
  matchIpList list ip := parseTrimmedList [';'] (fun token => matchIpPattern token ip) list
  matchPortList list port :=
    parseTrimmedList [',', ';'] (fun token => matchPortPattern token port) list

end Linux

/-- The filters of a platform. -/
def filters : Platform → Filters
  | .windows => Windows.filters
  | .linux => Linux.filters

example : Windows.matchIpList "10.0.0.1;192.168.*.*".toList (ipv4 192 168 3 4) = true := by
  decide

end ProxyTun
