import ProxyTun.Core.Scanning
import ProxyTun.Windows.HostPatterns
import ProxyTun.Windows.PortLists

/-!
# Blanks in host and port lists

The list parser skips the blanks before a token and leaves those behind it to the patterns. The
scanners do not mind them, but a star with a blank behind it is no star any more.
-/
namespace ProxyTun.Windows
open Library

/-- Blanks are added before and behind a token, and nothing where there is no token. -/
def PadsToken (token padded : CStr) : Prop :=
  (token = [] → padded = []) ∧
    ∃ before behind, IsBlanks before ∧ IsBlanks behind ∧ padded = before ++ (token ++ behind)

/-- Blanks are added before and behind the tokens of a list. -/
def PadsTokens (delimiters : List Char) (list padded : CStr) : Prop :=
  List.Forall₂ PadsToken (list.splitOnP fun c => delimiters.contains c)
    (padded.splitOnP fun c => delimiters.contains c)

/-- A pattern of four fields that ends in a star and does not fill its buffer. -/
def EndsInStar (pattern : CStr) : Prop :=
  '-' ∉ pattern ∧ pattern.length < 255 ∧ ∃ a b c, pattern.splitOn '.' = [a, b, c, ['*']]

/-- Blanks behind the token make it miss the address: it is a star, or it ends in a star that is
read as 0 with blanks behind it. -/
def LosesHost (ip : Ip) (token padded : CStr) : Prop :=
  skipWhitespace padded ≠ skipWhitespace token ∧
    (skipWhitespace token = ['*'] ∨ EndsInStar (skipWhitespace token) ∧ octet ip 3 ≠ 0)

/-- Blanks behind the token make it miss the port: it is a star, which is read as 0 then. -/
def LosesPort (port : Port) (token padded : CStr) : Prop :=
  skipWhitespace padded ≠ skipWhitespace token ∧ skipWhitespace token = ['*'] ∧ port ≠ 0

theorem skipWhitespace_padded {token padded : CStr} (h : PadsToken token padded) :
    ∃ blanks, IsBlanks blanks ∧ skipWhitespace padded = skipWhitespace token ++ blanks ∧
      (skipWhitespace token = [] → blanks = []) := by
  obtain ⟨-, before, behind, hbefore, hbehind, rfl⟩ := h
  have hskip : skipWhitespace (before ++ (token ++ behind)) = skipWhitespace (token ++ behind) :=
    List.dropWhile_append_of_pos hbefore
  rw [hskip, skipWhitespace, skipWhitespace, List.dropWhile_append]
  by_cases hempty : token.dropWhile isBlank = []
  · have hblank : behind.dropWhile isBlank = [] := List.dropWhile_eq_nil_iff.mpr hbehind
    refine ⟨[], ?_, by simp [hempty, hblank], fun _ => rfl⟩
    intro c hc
    cases hc
  · exact ⟨behind, hbehind, by simp [hempty], fun h => absurd h hempty⟩

theorem atoi_star (rest : CStr) : atoi ('*' :: rest) = 0 := by
  simp [atoi, strtol, isSpace, isDigit]

/-- A blank behind the last field takes its star away and nothing else. -/
theorem lastField_blanks {blanks : CStr} (h : IsBlanks blanks) (last : CStr) (o : ℕ) :
    ((last ++ blanks).take 15 = ['*'] ∨ (atoi ((last ++ blanks).take 15) = o : Bool) = true) ↔
      (last.take 15 = ['*'] ∨ (atoi (last.take 15) = o : Bool) = true) ∧
        ¬ (blanks ≠ [] ∧ last = ['*'] ∧ o ≠ 0) := by
  by_cases hnone : blanks = []
  · simp [hnone]
  by_cases hstar : last = ['*']
  · obtain ⟨c, cs, rfl⟩ := List.exists_cons_of_ne_nil hnone
    subst hstar
    have hread : (['*'] ++ c :: cs : CStr).take 15 = '*' :: c :: cs.take 13 := rfl
    rw [hread, atoi_star]
    simp
    omega
  · have hcut : (last ++ blanks).take 15 = last.take 15 ++ blanks.take (15 - last.length) :=
      List.take_append
    have hblanks := h.take (15 - last.length)
    have hplain : last.take 15 ≠ ['*'] := (take_eq_star_iff last).not.mpr hstar
    have hplain' : last.take 15 ++ blanks.take (15 - last.length) ≠ ['*'] := by
      intro heq
      rcases List.append_eq_singleton_iff.mp heq with ⟨-, hstar'⟩ | ⟨heq, -⟩
      · apply hblanks.not_mem (c := '*') rfl
        rw [hstar']
        exact List.mem_cons_self
      · exact hplain heq
    rw [hcut, atoi_inert hblanks.inert]
    simp [hplain, hplain', hstar]

theorem endsInStar_iff {pattern a b c last : CStr} (hdash : '-' ∉ pattern)
    (hsplit : (pattern.take 255).splitOn '.' = [a, b, c, last]) :
    EndsInStar pattern ↔ pattern.length < 255 ∧ last = ['*'] := by
  rw [EndsInStar, and_iff_right hdash]
  apply and_congr_right
  intro hlength
  rw [← List.take_of_length_le hlength.le, hsplit]
  simp

theorem not_endsInStar {pattern last : CStr} {fields : List CStr}
    (hsplit : (pattern.take 255).splitOn '.' = fields ++ [last]) (hfields : fields.length ≠ 3) :
    ¬ EndsInStar pattern := by
  rintro ⟨-, hlength, a, b, c, hfour⟩
  rw [List.take_of_length_le hlength.le, hfour] at hsplit
  have hsum := congrArg List.length hsplit
  rw [List.length_append, List.length_singleton] at hsum
  exact hfields (by simpa using hsum.symm)

/-- Four fields are compared as without the blanks, the star at their end apart. -/
theorem matchOctets_blanks {pattern blanks : CStr} (h : IsBlanks blanks) (hdash : '-' ∉ pattern)
    (ip : Ip) :
    matchOctets (fun f o => atoi f = o) (pattern ++ blanks) ip = true ↔
      matchOctets (fun f o => atoi f = o) pattern ip = true ∧
        ¬ (blanks ≠ [] ∧ EndsInStar pattern ∧ octet ip 3 ≠ 0) := by
  have hcut : (pattern ++ blanks).take 255 =
      pattern.take 255 ++ blanks.take (255 - pattern.length) := List.take_append
  have hbehind := h.take (255 - pattern.length)
  obtain ⟨fields, last, hsplit, hsplit'⟩ :=
    Lines.splitOn_append '.' (pattern.take 255) (blanks.take (255 - pattern.length))
  rw [← hcut, List.splitOn_eq_singleton (hbehind.not_mem rfl), List.modifyHead_cons] at hsplit'
  by_cases hthree : fields.length = 3
  · obtain ⟨a, b, c, rfl⟩ := List.length_eq_three.mp hthree
    have hoctets : patternOctets pattern =
        some [a.take 15, b.take 15, c.take 15, last.take 15] := by
      rw [patternOctets, hsplit]
      rfl
    have hoctets' : patternOctets (pattern ++ blanks) = some [a.take 15, b.take 15, c.take 15,
        (last ++ blanks.take (255 - pattern.length)).take 15] := by
      rw [patternOctets, hsplit']
      rfl
    have hfits : blanks.take (255 - pattern.length) ≠ [] ↔
        pattern.length < 255 ∧ blanks ≠ [] := by
      rw [ne_eq, List.take_eq_nil_iff, not_or]
      apply and_congr_left'
      omega
    have hzero : (octet ip 3).toNat ≠ 0 ↔ octet ip 3 ≠ 0 := by
      rw [ne_eq, ne_eq, ← BitVec.toNat_inj]
      rfl
    rw [matchOctets_four hoctets, matchOctets_four hoctets', lastField_blanks hbehind, hfits, hzero,
      endsInStar_iff hdash hsplit]
    constructor
    · rintro ⟨ha, hb, hc, hlast, hkept⟩
      refine ⟨⟨ha, hb, hc, hlast⟩, ?_⟩
      rintro ⟨hblanks, ⟨hlength, hstar⟩, hoctet⟩
      exact hkept ⟨⟨hlength, hblanks⟩, hstar, hoctet⟩
    · rintro ⟨⟨ha, hb, hc, hlast⟩, hkept⟩
      refine ⟨ha, hb, hc, hlast, ?_⟩
      rintro ⟨⟨hlength, hblanks⟩, hstar, hoctet⟩
      exact hkept ⟨hblanks, ⟨hlength, hstar⟩, hoctet⟩
  · have hends := not_endsInStar hsplit hthree
    have hsame : patternOctets (pattern ++ blanks) = patternOctets pattern := by
      rw [patternOctets, patternOctets, hsplit, hsplit']
      by_cases hmany : 4 ≤ fields.length
      · rw [List.take_append_of_le_length hmany, List.take_append_of_le_length hmany]
      · have hfew (l : CStr) : ((fields ++ [l]).take 4).length ≠ 4 := by
          rw [List.length_take, List.length_append, List.length_singleton]
          omega
        rw [if_neg (hfew _), if_neg (hfew _)]
    rw [matchOctets, hsame, matchOctets]
    simp [hends]

theorem matchIpPattern_star_blanks {blanks : CStr} (h : IsBlanks blanks) (hne : blanks ≠ [])
    (ip : Ip) : matchIpPattern (['*'] ++ blanks) ip = false := by
  have hdash : '-' ∉ ['*'] ++ blanks := by simp [h.not_mem (c := '-') rfl]
  have hdot : '.' ∉ (['*'] ++ blanks).take 255 := by
    intro hmem
    have hdot' := List.mem_of_mem_take hmem
    simp [h.not_mem (c := '.') rfl] at hdot'
  have hnone : patternOctets (['*'] ++ blanks) = none := by
    rw [patternOctets, List.splitOn_eq_singleton hdot]
    rfl
  rw [matchIpPattern_fields hdash (by simp [hne]), matchOctets, hnone]

theorem matchIpPattern_dash_blanks {pattern blanks : CStr} (h : IsBlanks blanks)
    (hdash : '-' ∈ pattern) (ip : Ip) :
    matchIpPattern (pattern ++ blanks) ip = matchIpPattern pattern ip := by
  obtain ⟨first, last, rfl, hfirst⟩ := List.eq_append_cons_of_mem hdash
  have hend : (last ++ blanks).take 63 = last.take 63 ++ blanks.take (63 - last.length) :=
    List.take_append
  rw [Bool.eq_iff_iff, List.append_assoc, List.cons_append, matchIpPattern_range (by simp),
    matchIpPattern_range (by simp)]
  simp only [takeWhile_ne_append hfirst, dropWhile_ne_append hfirst, List.drop_succ_cons,
    List.drop_zero, hend, scanQuad_inert (h.take _).inert]

theorem append_blanks_ne_star {pattern blanks : CStr} (hne : blanks ≠ [])
    (hempty : pattern = [] → blanks = []) : pattern ++ blanks ≠ ['*'] := by
  intro heq
  rcases List.append_eq_singleton_iff.mp heq with ⟨hpattern, -⟩ | ⟨-, hblanks⟩
  · exact hne (hempty hpattern)
  · exact hne hblanks

theorem matchIpPattern_blanks {pattern blanks : CStr} (h : IsBlanks blanks)
    (hempty : pattern = [] → blanks = []) (ip : Ip) :
    matchIpPattern (pattern ++ blanks) ip = true ↔
      matchIpPattern pattern ip = true ∧
        ¬ (blanks ≠ [] ∧ (pattern = ['*'] ∨ EndsInStar pattern ∧ octet ip 3 ≠ 0)) := by
  by_cases hnone : blanks = []
  · simp [hnone]
  by_cases hstar : pattern = ['*']
  · rw [hstar, matchIpPattern_star_blanks h hnone]
    simp [hnone]
  by_cases hdash : '-' ∈ pattern
  · have hplain : ¬ EndsInStar pattern := fun hends => hends.1 hdash
    rw [matchIpPattern_dash_blanks h hdash]
    simp [hstar, hplain]
  · have hdash' : '-' ∉ pattern ++ blanks := by
      simp [hdash, h.not_mem (c := '-') rfl]
    rw [matchIpPattern_fields hdash' (append_blanks_ne_star hnone hempty),
      matchIpPattern_fields hdash hstar, matchOctets_blanks h hdash]
    simp [hstar]

theorem readsPort_blanks {pattern blanks : CStr} (h : IsBlanks blanks) (port : Port) :
    ReadsPort (pattern ++ blanks) port ↔ ReadsPort pattern port := by
  unfold ReadsPort
  by_cases hdash : '-' ∈ pattern
  · rw [if_pos (List.mem_append_left _ hdash), if_pos hdash, atoi_inert h.inert]
    obtain ⟨first, last, rfl, hfirst⟩ := List.eq_append_cons_of_mem hdash
    rw [List.append_assoc, List.cons_append, dropWhile_ne_append hfirst,
      dropWhile_ne_append hfirst, List.drop_succ_cons, List.drop_zero, List.drop_succ_cons,
      List.drop_zero, atoi_inert h.inert]
  · rw [if_neg (by simp [hdash, h.not_mem (c := '-') rfl]), if_neg hdash, atoi_inert h.inert]

theorem matchPortPattern_blanks {pattern blanks : CStr} (h : IsBlanks blanks)
    (hempty : pattern = [] → blanks = []) (port : Port) :
    matchPortPattern (pattern ++ blanks) port = true ↔
      matchPortPattern pattern port = true ∧ ¬ (blanks ≠ [] ∧ pattern = ['*'] ∧ port ≠ 0) := by
  by_cases hnone : blanks = []
  · simp [hnone]
  rw [matchPortPattern_iff, matchPortPattern_iff,
    or_iff_right (append_blanks_ne_star hnone hempty), readsPort_blanks h]
  by_cases hall : pattern = ['*']
  · have hread : ReadsPort ['*'] port ↔ port = 0 := by
      rw [ReadsPort, if_neg (by decide), atoi_star, ← BitVec.toNat_inj]
      exact ⟨fun heq => by simpa using heq.symm, fun heq => by simp [heq]⟩
    rw [hall, hread]
    simp [hnone]
  · simp [hall]

/-- The tokens of a list, each with what it is padded to. -/
def tokenPairs (delimiters : List Char) (list padded : CStr) : List (CStr × CStr) :=
  ((list.splitOnP fun c => delimiters.contains c).zip
    (padded.splitOnP fun c => delimiters.contains c)).filter fun pair => !pair.1.isEmpty

theorem PadsToken.isEmpty_eq {token padded : CStr} (h : PadsToken token padded) :
    padded.isEmpty = token.isEmpty := by
  obtain ⟨hempty, before, behind, -, -, rfl⟩ := h
  cases token with
  | nil => rw [hempty rfl]
  | cons c cs => simp

theorem filter_padded {segments segments' : List CStr}
    (h : List.Forall₂ PadsToken segments segments') :
    segments.filter (fun t => !t.isEmpty) =
        ((segments.zip segments').filter fun pair => !pair.1.isEmpty).map Prod.fst ∧
      segments'.filter (fun t => !t.isEmpty) =
        ((segments.zip segments').filter fun pair => !pair.1.isEmpty).map Prod.snd := by
  induction h with
  | nil => exact ⟨rfl, rfl⟩
  | cons hpads _ ih =>
    obtain ⟨hfirst, hsecond⟩ := ih
    rw [List.zip_cons_cons, List.filter_cons, List.filter_cons, List.filter_cons,
      hpads.isEmpty_eq, hfirst, hsecond]
    split_ifs
    · exact ⟨rfl, rfl⟩
    · exact ⟨rfl, rfl⟩

theorem padsToken_of_mem {delimiters : List Char} {list padded : CStr}
    (h : PadsTokens delimiters list padded) {pair : CStr × CStr}
    (hpair : pair ∈ tokenPairs delimiters list padded) : PadsToken pair.1 pair.2 :=
  List.forall₂_iff_zip.mp h |>.2 (List.mem_of_mem_filter hpair)

theorem eq_nil_of_splitOnP {p : Char → Bool} {text : CStr} (h : text.splitOnP p = [[]]) :
    text = [] := by
  cases text with
  | nil => rfl
  | cons c cs =>
    obtain ⟨piece, pieces, hsplit⟩ := List.exists_cons_of_ne_nil (List.splitOnP_ne_nil p cs)
    rw [List.splitOnP_cons_eq_if_modifyHead, hsplit] at h
    split_ifs at h
    · cases h
    · cases h

theorem PadsTokens.eq_nil_iff {delimiters : List Char} {list padded : CStr}
    (h : PadsTokens delimiters list padded) : padded = [] ↔ list = [] := by
  unfold PadsTokens at h
  constructor
  · rintro rfl
    rw [List.splitOnP_nil] at h
    obtain ⟨token, segments, hpads, hrest, hsplit⟩ := List.forall₂_cons_right_iff.mp h
    rw [List.forall₂_nil_right_iff.mp hrest, List.isEmpty_iff.mp hpads.isEmpty_eq.symm] at hsplit
    exact eq_nil_of_splitOnP hsplit
  · rintro rfl
    rw [List.splitOnP_nil] at h
    obtain ⟨token, segments, hpads, hrest, hsplit⟩ := List.forall₂_cons_left_iff.mp h
    rw [List.forall₂_nil_left_iff.mp hrest, hpads.1 rfl] at hsplit
    exact eq_nil_of_splitOnP hsplit

/-- Blanks change what a list matches only if they take away every token that matches. -/
theorem parseTokenList_padded_iff {delimiters : List Char} {accepts : CStr → Bool}
    {loses : CStr → CStr → Prop} (hdelimiters : '*' ∉ delimiters) (hstar : accepts ['*'] = true)
    (hpads : ∀ token padded, PadsToken token padded →
      (accepts padded = true ↔ accepts token = true ∧ ¬ loses token padded))
    {list padded : CStr} (h : PadsTokens delimiters list padded) :
    parseTokenList delimiters accepts padded = parseTokenList delimiters accepts list ↔
      ∀ pair ∈ tokenPairs delimiters list padded, accepts pair.1 = true → loses pair.1 pair.2 →
        ∃ kept ∈ tokenPairs delimiters list padded,
          accepts kept.1 = true ∧ ¬ loses kept.1 kept.2 := by
  obtain ⟨hfirst, hsecond⟩ := filter_padded h
  rw [Bool.eq_iff_iff, parseTokenList_iff hdelimiters hstar, parseTokenList_iff hdelimiters hstar,
    h.eq_nil_iff, strtok, strtok, hfirst, hsecond, ← tokenPairs]
  simp only [List.mem_map]
  by_cases hnil : list = []
  · have hpairs : tokenPairs delimiters list padded = [] := by
      rw [tokenPairs, h.eq_nil_iff.mpr hnil, hnil, List.splitOnP_nil]
      rfl
    rw [hpairs]
    refine iff_of_true (iff_of_true (.inl hnil) (.inl hnil)) ?_
    intro pair hpair
    cases hpair
  rw [or_iff_right hnil, or_iff_right hnil]
  constructor
  · intro hsame pair hpair haccepts _
    obtain ⟨token, ⟨kept, hkept, rfl⟩, hkept'⟩ :=
      hsame.mpr ⟨pair.1, ⟨pair, hpair, rfl⟩, haccepts⟩
    exact ⟨kept, hkept, (hpads _ _ (padsToken_of_mem h hkept)).mp hkept'⟩
  · intro hkeeps
    constructor
    · rintro ⟨token, ⟨pair, hpair, rfl⟩, haccepts⟩
      exact ⟨pair.1, ⟨pair, hpair, rfl⟩,
        ((hpads _ _ (padsToken_of_mem h hpair)).mp haccepts).1⟩
    · rintro ⟨token, ⟨pair, hpair, rfl⟩, haccepts⟩
      by_cases hloses : loses pair.1 pair.2
      · obtain ⟨kept, hkept, hboth⟩ := hkeeps pair hpair haccepts hloses
        exact ⟨kept.2, ⟨kept, hkept, rfl⟩, (hpads _ _ (padsToken_of_mem h hkept)).mpr hboth⟩
      · exact ⟨pair.2, ⟨pair, hpair, rfl⟩,
          (hpads _ _ (padsToken_of_mem h hpair)).mpr ⟨haccepts, hloses⟩⟩

theorem matchIpPattern_padded {token padded : CStr} (h : PadsToken token padded) (ip : Ip) :
    matchIpPattern (skipWhitespace padded) ip = true ↔
      matchIpPattern (skipWhitespace token) ip = true ∧ ¬ LosesHost ip token padded := by
  obtain ⟨blanks, hblanks, hskip, hempty⟩ := skipWhitespace_padded h
  have hbehind : skipWhitespace token ++ blanks ≠ skipWhitespace token ↔ blanks ≠ [] := by simp
  rw [LosesHost, hskip, hbehind, matchIpPattern_blanks hblanks hempty]

theorem matchPortPattern_padded {token padded : CStr} (h : PadsToken token padded) (port : Port) :
    matchPortPattern (skipWhitespace padded) port = true ↔
      matchPortPattern (skipWhitespace token) port = true ∧ ¬ LosesPort port token padded := by
  obtain ⟨blanks, hblanks, hskip, hempty⟩ := skipWhitespace_padded h
  have hbehind : skipWhitespace token ++ blanks ≠ skipWhitespace token ↔ blanks ≠ [] := by simp
  rw [LosesPort, hskip, hbehind, matchPortPattern_blanks hblanks hempty]

/-- Blanks added to the tokens of a host list or a port list make no difference to an address or a
port if and only if, whenever a token that names it loses its star, another one that names it
does not. -/
theorem blanks_make_no_difference_iff (list padded : CStr) :
    (PadsTokens [';'] list padded → ∀ ip,
      (matchIpList padded ip = matchIpList list ip ↔
        ∀ pair ∈ tokenPairs [';'] list padded,
          matchIpPattern (skipWhitespace pair.1) ip = true → LosesHost ip pair.1 pair.2 →
            ∃ kept ∈ tokenPairs [';'] list padded,
              matchIpPattern (skipWhitespace kept.1) ip = true ∧
                ¬ LosesHost ip kept.1 kept.2)) ∧
    (PadsTokens [',', ';'] list padded → ∀ port,
      (matchPortList padded port = matchPortList list port ↔
        ∀ pair ∈ tokenPairs [',', ';'] list padded,
          matchPortPattern (skipWhitespace pair.1) port = true → LosesPort port pair.1 pair.2 →
            ∃ kept ∈ tokenPairs [',', ';'] list padded,
              matchPortPattern (skipWhitespace kept.1) port = true ∧
                ¬ LosesPort port kept.1 kept.2)) := by
  constructor
  · intro h ip
    exact parseTokenList_padded_iff (by decide) rfl
      (fun _ _ hpads => matchIpPattern_padded hpads ip) h
  · intro h port
    exact parseTokenList_padded_iff (by decide) rfl
      (fun _ _ hpads => matchPortPattern_padded hpads port) h

theorem padsToken_of_eq {token : CStr} (hne : token ≠ []) {before behind : CStr}
    (hbefore : IsBlanks before) (hbehind : IsBlanks behind) :
    PadsToken token (before ++ (token ++ behind)) :=
  ⟨fun h => absurd h hne, before, behind, hbefore, hbehind, rfl⟩

theorem isBlanks_space : IsBlanks [' '] := by
  intro c hc
  rw [List.mem_singleton.mp hc]
  rfl

theorem blanks_make_no_difference_address :
    matchIpList " 10.0.0.1 ; 10.0.0.2 ".toList (ipv4 10 0 0 2) =
      matchIpList "10.0.0.1;10.0.0.2".toList (ipv4 10 0 0 2) := by
  have hpads : PadsTokens [';'] "10.0.0.1;10.0.0.2".toList " 10.0.0.1 ; 10.0.0.2 ".toList :=
    .cons (padsToken_of_eq (by decide) isBlanks_space isBlanks_space)
      (.cons (padsToken_of_eq (by decide) isBlanks_space isBlanks_space) .nil)
  refine ((blanks_make_no_difference_iff _ _).1 hpads (ipv4 10 0 0 2)).mpr ?_
  intro pair hpair _ hloses
  have hpairs : tokenPairs [';'] "10.0.0.1;10.0.0.2".toList " 10.0.0.1 ; 10.0.0.2 ".toList =
      [("10.0.0.1".toList, " 10.0.0.1 ".toList), ("10.0.0.2".toList, " 10.0.0.2 ".toList)] := by
    decide
  rw [hpairs] at hpair
  have hkeeps (token padded : CStr) (hstar : '*' ∉ skipWhitespace token) :
      ¬ LosesHost (ipv4 10 0 0 2) token padded := by
    rintro ⟨-, hall | ⟨⟨-, -, a, b, c, hfields⟩, -⟩⟩
    · apply hstar
      rw [hall]
      exact List.mem_cons_self
    · apply hstar
      have hjoin : ['.'].intercalate ((skipWhitespace token).splitOn '.') = skipWhitespace token :=
        List.intercalate_splitOn '.'
      rw [← hjoin, hfields]
      simp [List.intercalate]
  rcases List.mem_cons.mp hpair with rfl | hlast
  · exact absurd hloses (hkeeps _ _ (by decide))
  · rw [List.mem_singleton.mp hlast] at hloses
    exact absurd hloses (hkeeps _ _ (by decide))

/-- A blank behind a star takes away what the star stands for. -/
theorem blanks_make_a_difference :
    PadsTokens [';'] "192.168.1.*".toList "192.168.1.* ".toList ∧
    matchIpList "192.168.1.*".toList (ipv4 192 168 1 7) = true ∧
    matchIpList "192.168.1.* ".toList (ipv4 192 168 1 7) = false ∧
    PadsTokens [',', ';'] "*".toList "* ".toList ∧
    matchPortList "*".toList 443 = true ∧ matchPortList "* ".toList 443 = false := by
  have hnone : IsBlanks [] := fun c hc => absurd hc List.not_mem_nil
  exact ⟨.cons (padsToken_of_eq (by decide) hnone isBlanks_space) .nil, by decide, by decide,
    .cons (padsToken_of_eq (by decide) hnone isBlanks_space) .nil, by decide, by decide⟩

end ProxyTun.Windows
