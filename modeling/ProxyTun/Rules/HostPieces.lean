import Mathlib.Data.List.DropRight
import ProxyTun.Core.Scanning
import ProxyTun.Library.Lines
import ProxyTun.Rules.HostTokens

/-!
# Pieces of host lists with commas

A piece with a comma in it is compared as one token, of which the numbers in front of the commas are
read: where it begins with four fields, those of its first token.
-/
namespace ProxyTun
open Library

/-- What `match_ip_list` does with a token. -/
def acceptsHost : Platform → CStr → Ip → Bool
  | .windows, token, ip => Windows.matchIpPattern (skipWhitespace token) ip
  | .linux, token, ip =>
    Linux.trimToken token ≠ [] && Linux.matchIpPattern (Linux.trimToken token) ip

/-- An octet fits the number of a field in front of its commas, on Linux also the two numbers around
a dash. -/
def fitsField : Platform → CStr → ℕ → Bool
  | .windows, f, o => atoi (beforeComma f) = o
  | .linux, f, o =>
    if f.contains '-' then
      safeAtoi (beforeComma f) ≤ o && o ≤ safeAtoi (beforeComma ((f.dropWhile (· != '-')).drop 1))
    else safeAtoi (beforeComma f) = o

/-- The address fits the numbers that stand in front of the commas of a piece: those of its first
four fields, or on Windows those of the two ends of a range. A star stands for every number only
where it is a field of its own. -/
def fitsPiece : Platform → CStr → Ip → Bool
  | .windows, piece, ip =>
    let text := skipWhitespace piece
    if text.contains '-' then
      let first := text.takeWhile (· != '-')
      let last := ((text.dropWhile (· != '-')).drop 1).take 63
      first.length < 64 && match scanQuad (beforeComma first), scanQuad (beforeComma last) with
        | some s, some e => Windows.bigEndian (Windows.packQuad s) ≤ Windows.bigEndian ip &&
          Windows.bigEndian ip ≤ Windows.bigEndian (Windows.packQuad e)
        | _, _ => false
    else matchOctets (fitsField .windows) text ip
  | .linux, piece, ip => matchOctets (fitsField .linux) (Linux.trimToken piece) ip

def hostText : Platform → CStr → CStr
  | .windows, token => skipWhitespace token
  | .linux, token => Linux.trimToken token

/-- A token stands for every address if it is a star, and else for those that fit its numbers. -/
def NamesHost (platform : Platform) (token : CStr) (ip : Ip) : Prop :=
  hostText platform token = ['*'] ∨ fitsPiece platform token ip = true

/-- The last of four fields is a star. On Windows a text with a dash has no fields. -/
def StarLast (platform : Platform) (text : CStr) : Prop :=
  (platform = .windows → '-' ∉ text) ∧ ∃ a b c, text.splitOn '.' = [a, b, c, ['*']]

/-- The text in front of the first comma of a piece has four fields or more, and no dash is behind
the comma. -/
structure Leads (platform : Platform) (piece : CStr) : Prop where
  fields : 4 ≤ ((hostText platform (beforeComma piece)).splitOn '.').length
  short : (beforeComma piece).length < 255
  dashless : '-' ∉ piece.dropWhile (· != ',')

/-- The address fits the numbers in front of the first comma of a piece, where a star in the last of
four fields stands for 0. -/
def LeadNames (platform : Platform) (piece : CStr) (ip : Ip) : Prop :=
  fitsPiece platform (beforeComma piece) ip = true ∧
    (StarLast platform (hostText platform (beforeComma piece)) → octet ip 3 = 0)

theorem fitsField_windows : fitsField .windows = fun (f : CStr) (o : ℕ) => decide (atoi f = o) := by
  funext f o
  rw [fitsField, atoi_beforeComma]

theorem fitsField_linux : fitsField .linux = Linux.matchIpField := by
  funext f o
  simp only [fitsField, safeAtoi_beforeComma, Linux.matchIpField]

theorem mem_skipWhitespace {c : Char} (hc : isBlank c = false) {text : CStr} (h : c ∈ text) :
    c ∈ skipWhitespace text := by
  rw [← List.takeWhile_append_dropWhile (p := isBlank) (l := text)] at h
  rcases List.mem_append.mp h with hblank | hmem
  · rw [List.mem_takeWhile_imp hblank] at hc
    cases hc
  · exact hmem

theorem comma_mem_trimToken {text : CStr} (h : ',' ∈ text) : ',' ∈ Linux.trimToken text := by
  have hskip : ',' ∈ (skipWhitespace text).reverse :=
    List.mem_reverse.mpr (mem_skipWhitespace rfl h)
  rw [Linux.trimToken, List.mem_reverse]
  rw [← List.takeWhile_append_dropWhile (p := fun c => isBlank c || c = '\r' || c = '\n')
    (l := (skipWhitespace text).reverse)] at hskip
  rcases List.mem_append.mp hskip with hblank | hmem
  · exact absurd (List.mem_takeWhile_imp hblank) (by decide)
  · exact hmem

theorem acceptsHost_iff (platform : Platform) (token : CStr) (ip : Ip) :
    acceptsHost platform token ip = true ↔ NamesHost platform token ip := by
  unfold NamesHost
  cases platform with
  | windows =>
    rw [acceptsHost, Windows.matchIpPattern, Bool.or_eq_true_iff, decide_eq_true_iff, hostText]
    apply or_congr_right
    simp only [fitsPiece, fitsField_windows, scanQuad_beforeComma]
    split_ifs with hdash hlong
    · rw [decide_eq_false (by omega), Bool.false_and]
      exact iff_of_false id Bool.false_ne_true
    · rw [decide_eq_true (by omega)]
      exact iff_of_eq (congrArg (· = true) (Bool.true_and _).symm)
    · rfl
  | linux =>
    rw [acceptsHost, hostText, fitsPiece, fitsField_linux, Linux.matchIpPattern]
    by_cases hempty : Linux.trimToken token = []
    · rw [hempty]
      simp [matchOctets, patternOctets]
    · simp [hempty]

theorem acceptsHost_of_comma (platform : Platform) {piece : CStr} (h : ',' ∈ piece) (ip : Ip) :
    acceptsHost platform piece ip = true ↔ fitsPiece platform piece ip = true := by
  rw [acceptsHost_iff, NamesHost, or_iff_right]
  have hmem : ',' ∈ hostText platform piece := by
    cases platform with
    | windows => exact mem_skipWhitespace rfl h
    | linux => exact comma_mem_trimToken h
  intro hstar
  rw [hstar] at hmem
  revert hmem
  decide

/-- What is not read behind a field: blanks and a comma with a text that has no dash, cut
anywhere. -/
structure Behind (behind : CStr) : Prop where
  inert : ∀ n, Inert (behind.take n)
  dashless : '-' ∉ behind
  starless : behind.head? ≠ some '*'

theorem Behind.take {behind : CStr} (h : Behind behind) (n : ℕ) : Behind (behind.take n) where
  inert m := by
    rw [List.take_take]
    exact h.inert _
  dashless hdash := h.dashless (List.mem_of_mem_take hdash)
  starless hstar := by
    cases behind with
    | nil => simp at hstar
    | cons c cs =>
      cases n with
      | zero => simp at hstar
      | succ n => exact h.starless hstar

theorem Behind.head?_ne_dot {behind : CStr} (h : Behind behind) : behind.head? ≠ some '.' := by
  intro hdot
  have hinert := h.inert behind.length
  rw [List.take_length] at hinert
  exact (hinert.head _ hdot).2 rfl

theorem behind_comma {blanks rest : CStr}
    (hblanks : ∀ c ∈ blanks, isSpace c = true ∧ isDigit c = false ∧ c ≠ '.' ∧ c ≠ '*' ∧ c ≠ '-')
    (hdash : '-' ∉ rest) : Behind (blanks ++ ',' :: rest) where
  inert n := by
    have hcut : (blanks ++ ',' :: rest).take n =
        blanks.take n ++ (',' :: rest).take (n - blanks.length) := List.take_append
    have hcomma : ((',' :: rest).take (n - blanks.length)) = [] ∨
        ∃ cs, (',' :: rest).take (n - blanks.length) = ',' :: cs := by
      cases n - blanks.length with
      | zero => exact .inl rfl
      | succ k => exact .inr ⟨_, rfl⟩
    have hspaces : ∀ c ∈ blanks.take n, isSpace c = true :=
      fun c hc => (hblanks c (List.mem_of_mem_take hc)).1
    rw [hcut]
    constructor
    · intro c hc
      cases hfirst : blanks.take n with
      | nil =>
        rw [hfirst, List.nil_append] at hc
        rcases hcomma with hnone | ⟨cs, hcs⟩
        · rw [hnone] at hc
          cases hc
        · rw [hcs] at hc
          cases hc
          decide
      | cons b bs =>
        rw [hfirst] at hc
        cases hc
        have hb := hblanks c (List.mem_of_mem_take (by rw [hfirst]; exact List.mem_cons_self))
        exact ⟨hb.2.1, hb.2.2.1⟩
    · rw [strtol_eq, List.dropWhile_append_of_pos hspaces]
      rcases hcomma with hnone | ⟨cs, hcs⟩
      · rw [hnone]
        rfl
      · rw [hcs]
        simp [isSpace, splitSign, isDigit]
  dashless hmem := by
    rcases List.mem_append.mp hmem with hblank | hrest
    · exact (hblanks _ hblank).2.2.2.2 rfl
    · rcases List.mem_cons.mp hrest with hcomma | hin
      · cases hcomma
      · exact hdash hin
  starless hstar := by
    cases blanks with
    | nil => cases hstar
    | cons b bs =>
      cases hstar
      exact (hblanks _ List.mem_cons_self).2.2.2.1 rfl

theorem fitsField_inert (platform : Platform) {behind : CStr} (h : Inert behind)
    (hdash : '-' ∉ behind) (text : CStr) (o : ℕ) :
    fitsField platform (text ++ behind) o = fitsField platform text o := by
  cases platform with
  | windows => simp only [fitsField_windows, atoi_inert h]
  | linux =>
    rw [fitsField_linux, Linux.matchIpField, Linux.matchIpField, safeAtoi_inert h]
    by_cases hmem : '-' ∈ text
    · obtain ⟨first, last, rfl, hfirst⟩ := List.eq_append_cons_of_mem hmem
      rw [List.append_assoc, List.cons_append, dropWhile_ne_append hfirst,
        dropWhile_ne_append hfirst, List.drop_succ_cons, List.drop_succ_cons, List.drop_zero,
        List.drop_zero, safeAtoi_inert h]
      simp
    · simp [hmem, hdash]

theorem fitsField_star (platform : Platform) (o : ℕ) :
    fitsField platform ['*'] o = true ↔ o = 0 := by
  cases platform with
  | windows => simp [fitsField, beforeComma, atoi, strtol, isSpace, isDigit, eq_comm]
  | linux => simp [fitsField, beforeComma, safeAtoi, strtol, isSpace, isDigit, eq_comm]

/-- The last field is read as without what is behind it, but a star as 0. -/
theorem lastField_behind (platform : Platform) {behind : CStr} (h : Behind behind)
    (hne : behind ≠ []) (last : CStr) (o : ℕ) :
    ((last ++ behind).take 15 = ['*'] ∨ fitsField platform ((last ++ behind).take 15) o = true) ↔
      (last.take 15 = ['*'] ∨ fitsField platform (last.take 15) o = true) ∧
        (last = ['*'] → o = 0) := by
  have hcut : (last ++ behind).take 15 = last.take 15 ++ behind.take (15 - last.length) :=
    List.take_append
  have hread : fitsField platform ((last ++ behind).take 15) o =
      fitsField platform (last.take 15) o := by
    rw [hcut]
    exact fitsField_inert platform (h.inert _) (h.take _).dashless _ o
  rw [hread]
  by_cases hstar : last = ['*']
  · obtain ⟨c, cs, rfl⟩ := List.exists_cons_of_ne_nil hne
    subst hstar
    have hlong : (['*'] ++ c :: cs : CStr).take 15 ≠ ['*'] := by simp
    have hread : (['*'] : CStr).take 15 = ['*'] := rfl
    rw [or_iff_right hlong, hread, fitsField_star]
    simp
  · have hplain : last.take 15 ≠ ['*'] := (take_eq_star_iff last).not.mpr hstar
    have hplain' : (last ++ behind).take 15 ≠ ['*'] := by
      rw [hcut]
      intro heq
      rcases List.append_eq_singleton_iff.mp heq with ⟨-, hstar'⟩ | ⟨heq, -⟩
      · apply (h.take (15 - last.length)).starless
        rw [hstar']
        rfl
      · exact hplain heq
    simp [hplain, hplain', hstar]

theorem skipWhitespace_comma {lead : CStr} (hlead : skipWhitespace lead ≠ []) (rest : CStr) :
    skipWhitespace (lead ++ ',' :: rest) = skipWhitespace lead ++ ',' :: rest := by
  have hsome : (lead.dropWhile isBlank).isEmpty = false := by
    rw [← Bool.not_eq_true, List.isEmpty_iff]
    exact hlead
  rw [skipWhitespace, List.dropWhile_append, hsome]
  rfl

/-- Four fields or more are compared as without what is behind them, but a star at their end as
0. -/
theorem matchOctets_behind (platform : Platform) {lead behind : CStr} (h : Behind behind)
    (hne : behind ≠ []) (hlength : lead.length < 255) (hfour : 4 ≤ (lead.splitOn '.').length)
    (ip : Ip) :
    matchOctets (fitsField platform) (lead ++ behind) ip = true ↔
      matchOctets (fitsField platform) lead ip = true ∧
        ((∃ a b c, lead.splitOn '.' = [a, b, c, ['*']]) → octet ip 3 = 0) := by
  have hwhole : lead.take 255 = lead := List.take_of_length_le hlength.le
  have hcut : (lead ++ behind).take 255 = lead ++ behind.take (255 - lead.length) := by
    rw [List.take_append, hwhole]
  have hroom : behind.take (255 - lead.length) ≠ [] := by
    rw [ne_eq, List.take_eq_nil_iff, not_or]
    exact ⟨by omega, hne⟩
  obtain ⟨n, more, hfirst, hfirst_ne⟩ :=
    Lines.splitOn_take '.' (behind.take (255 - lead.length))
  have hfirst_ne' := hfirst_ne hroom (h.take _).head?_ne_dot
  obtain ⟨fields, last, hsplit, hsplit'⟩ :=
    Lines.splitOn_append '.' lead (behind.take (255 - lead.length))
  rw [hfirst, List.modifyHead_cons] at hsplit'
  by_cases hthree : fields.length = 3
  · obtain ⟨a, b, c, rfl⟩ := List.length_eq_three.mp hthree
    have hoctets : patternOctets lead =
        some [a.take 15, b.take 15, c.take 15, last.take 15] := by
      rw [patternOctets, hwhole, hsplit]
      rfl
    have hoctets' : patternOctets (lead ++ behind) =
        some [a.take 15, b.take 15, c.take 15,
          (last ++ (behind.take (255 - lead.length)).take n).take 15] := by
      rw [patternOctets, hcut, hsplit']
      rfl
    have hstar : (∃ a' b' c', [a, b, c] ++ [last] = [a', b', c', ['*']]) ↔ last = ['*'] := by
      simp
    have hzero : (octet ip 3).toNat = 0 ↔ octet ip 3 = 0 := by
      rw [← BitVec.toNat_inj]
      rfl
    rw [matchOctets_four hoctets, matchOctets_four hoctets', hsplit, hstar,
      lastField_behind platform ((h.take _).take n) hfirst_ne', hzero]
    simp only [and_assoc]
  · rw [hsplit, List.length_append, List.length_singleton] at hfour
    have hmany : 4 ≤ fields.length := by omega
    have hsame : patternOctets (lead ++ behind) = patternOctets lead := by
      rw [patternOctets, patternOctets, hcut, hwhole, hsplit, hsplit',
        List.take_append_of_le_length hmany, List.take_append_of_le_length hmany]
    have hnone : ¬ ∃ a b c, lead.splitOn '.' = [a, b, c, ['*']] := by
      rintro ⟨a, b, c, heq⟩
      have hlength := congrArg List.length heq
      rw [hsplit, List.length_append, List.length_singleton] at hlength
      simp at hlength
      omega
    rw [matchOctets, hsame, matchOctets]
    simp [hnone]

/-- On Linux what is trimmed from the first token stands in front of the comma. -/
theorem trimToken_comma {lead : CStr} (hlead : skipWhitespace lead ≠ []) (rest : CStr) :
    ∃ blanks kept,
      (∀ c ∈ blanks, isSpace c = true ∧ isDigit c = false ∧ c ≠ '.' ∧ c ≠ '*' ∧ c ≠ '-') ∧
      (∀ c ∈ kept, c ∈ rest) ∧
      Linux.trimToken (lead ++ ',' :: rest) = Linux.trimToken lead ++ (blanks ++ ',' :: kept) := by
  let p : Char → Bool := fun c => isBlank c || c = '\r' || c = '\n'
  have htrim (token : CStr) : Linux.trimToken token = (skipWhitespace token).rdropWhile p := rfl
  refine ⟨(skipWhitespace lead).rtakeWhile p, rest.rdropWhile p, ?_, ?_, ?_⟩
  · intro c hc
    have hspace : p c = true := List.mem_rtakeWhile_imp hc
    simp only [p, isBlank, Bool.or_eq_true, decide_eq_true_eq] at hspace
    rcases hspace with ((rfl | rfl) | rfl) | rfl <;> decide
  · intro c hc
    exact (List.rdropWhile_prefix p rest).subset hc
  · have hcomma (before : CStr) : (',' :: before).dropWhile p = ',' :: before :=
      List.dropWhile_cons_of_neg (by decide)
    have hdrop : (skipWhitespace lead ++ ',' :: rest).rdropWhile p =
        skipWhitespace lead ++ ',' :: rest.rdropWhile p := by
      rw [List.rdropWhile, List.rdropWhile, List.reverse_append, List.reverse_cons,
        List.append_assoc, List.singleton_append, List.dropWhile_append, hcomma]
      split_ifs with hnone
      · rw [List.isEmpty_iff] at hnone
        simp [hnone]
      · simp
    rw [htrim, htrim, skipWhitespace_comma hlead, hdrop, ← List.append_assoc,
      List.rdropWhile_append_rtakeWhile]

/-- A piece means its first token, but for a star at its end. -/
theorem fitsPiece_lead {platform : Platform} {piece : CStr} (hcomma : ',' ∈ piece)
    (h : Leads platform piece) (ip : Ip) :
    fitsPiece platform piece ip = true ↔ LeadNames platform piece ip := by
  obtain ⟨lead, rest, rfl, hlead⟩ := List.eq_append_cons_of_mem hcomma
  obtain ⟨hfour, hshort, hdash⟩ := h
  have hfront : beforeComma (lead ++ ',' :: rest) = lead := takeWhile_ne_append hlead rest
  have hrest : '-' ∉ rest := by
    rw [dropWhile_ne_append hlead] at hdash
    exact fun hmem => hdash (List.mem_cons_of_mem _ hmem)
  rw [hfront] at hfour hshort
  rw [LeadNames, hfront, StarLast]
  have hne : skipWhitespace lead ≠ [] := by
    intro hblank
    cases platform with
    | windows => simp [hostText, hblank] at hfour
    | linux => simp [hostText, Linux.trimToken, hblank] at hfour
  have hskipped : (skipWhitespace lead).length < 255 :=
    ((List.dropWhile_sublist _).length_le).trans_lt hshort
  cases platform with
  | windows =>
    have hbehind := @behind_comma [] rest (List.forall_mem_nil _) hrest
    rw [List.nil_append] at hbehind
    rw [hostText] at hfour ⊢
    simp only [fitsPiece, skipWhitespace_comma hne]
    by_cases hdash : '-' ∈ skipWhitespace lead
    · obtain ⟨first, last, hrange, hfirst⟩ := List.eq_append_cons_of_mem hdash
      have hend : (last ++ ',' :: rest).take 63 =
          last.take 63 ++ (',' :: rest).take (63 - last.length) := List.take_append
      simp only [hrange, List.append_assoc, List.cons_append, takeWhile_ne_append hfirst,
        dropWhile_ne_append hfirst, List.drop_succ_cons, List.drop_zero, scanQuad_beforeComma,
        hend, scanQuad_inert (hbehind.inert _)]
      simp
    · have hplain : '-' ∉ skipWhitespace lead ++ ',' :: rest := by
        simp [hdash, hrest]
      simp only [List.contains_iff_mem, hdash, hplain, if_false, not_false_iff, true_and,
        forall_const]
      exact matchOctets_behind .windows hbehind (List.cons_ne_nil _ _) hskipped hfour ip
  | linux =>
    obtain ⟨blanks, kept, hblanks, hkept, htrim⟩ := trimToken_comma hne rest
    have hlength : (Linux.trimToken lead).length < 255 :=
      (List.rdropWhile_prefix _ _).length_le.trans_lt hskipped
    rw [fitsPiece, fitsPiece, hostText, htrim, matchOctets_behind .linux
      (behind_comma hblanks fun hmem => hrest (hkept _ hmem)) (by simp) hlength hfour]
    simp

end ProxyTun
