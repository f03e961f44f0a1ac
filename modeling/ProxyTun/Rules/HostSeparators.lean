import ProxyTun.Rules.HostPieces

/-!
# Separators of host lists

The documentation names two separators, and a host list is cut at one of them.
-/
namespace ProxyTun
open Library

/-- Some token of the list, cut at both separators, matches the address. -/
def SomeTokenMatches (platform : Platform) (list : CStr) (ip : Ip) : Prop :=
  ∃ token ∈ strtok [',', ';'] list, acceptsHost platform token ip = true

theorem matchIpList_eq (platform : Platform) (list : CStr) (ip : Ip) :
    (filters platform).matchIpList list ip =
      parseTokenList [';'] (fun token => acceptsHost platform token ip) list := by
  cases platform <;> rfl

theorem acceptsHost_star (platform : Platform) (ip : Ip) :
    acceptsHost platform ['*'] ip = true := by
  cases platform <;> rfl

theorem matchIpList_iff (platform : Platform) {list : CStr} (hne : list ≠ []) (ip : Ip) :
    (filters platform).matchIpList list ip = true ↔
      ∃ piece ∈ strtok [';'] list, acceptsHost platform piece ip = true := by
  rw [matchIpList_eq, parseTokenList_iff (by decide) (acceptsHost_star platform ip),
    or_iff_right hne]

theorem strtok_both (list : CStr) :
    strtok [',', ';'] list = (strtok [';'] list).flatMap (strtok [',']) := by
  have hboth : (fun c => [',', ';'].contains c) =
      fun c : Char => [','].contains c || [';'].contains c := by
    funext c
    rw [Bool.eq_iff_iff]
    simp
  unfold strtok
  rw [hboth, Lines.splitOnP_or, List.filter_flatMap]
  induction list.splitOnP fun c => [';'].contains c with
  | nil => rfl
  | cons piece pieces ih =>
    rw [List.flatMap_cons, ih, List.filter_cons]
    cases piece with
    | nil => rfl
    | cons c cs => rfl

theorem fieldsMatch_four (a b c d : Option Byte) (ip : Ip) :
    FieldsMatch [a, b, c, d] ip ↔
      (∀ number, a = some number → octet ip 0 = number) ∧
      (∀ number, b = some number → octet ip 1 = number) ∧
      (∀ number, c = some number → octet ip 2 = number) ∧
      ∀ number, d = some number → octet ip 3 = number := by
  constructor
  · intro h
    exact ⟨fun number ha => h 0 number (by simp [ha]), fun number hb => h 1 number (by simp [hb]),
      fun number hc => h 2 number (by simp [hc]), fun number hd => h 3 number (by simp [hd])⟩
  · rintro ⟨ha, hb, hc, hd⟩ i number hi
    rcases i with _ | _ | _ | _ | i
    · exact ha number (Option.some.inj hi)
    · exact hb number (Option.some.inj hi)
    · exact hc number (Option.some.inj hi)
    · exact hd number (Option.some.inj hi)
    · cases hi

theorem skipWhitespace_hostToken (a b c d : Option Byte) (rest : CStr) :
    skipWhitespace (hostToken [a, b, c, d] ++ rest) = hostToken [a, b, c, d] ++ rest := by
  have hne : hostToken [a, b, c, d] ≠ [] := hostToken_ne_nil (by simp)
  obtain ⟨first, more, htoken⟩ := List.exists_cons_of_ne_nil hne
  have hblank : isBlank first = false := by
    rcases mem_hostToken (htoken ▸ List.mem_cons_self : first ∈ hostToken [a, b, c, d]) with
      hdot | hdigit | hstar
    · rw [hdot]
      rfl
    · rw [isBlank, Bool.or_eq_false_iff, decide_eq_false_iff_not, decide_eq_false_iff_not]
      exact ⟨ne_of_isDigit hdigit rfl, ne_of_isDigit hdigit rfl⟩
    · rw [hstar]
      rfl
  rw [skipWhitespace, htoken, List.cons_append, List.dropWhile_cons, hblank, if_neg (by simp)]

theorem hostText_hostToken (platform : Platform) (a b c d : Option Byte) :
    hostText platform (hostToken [a, b, c, d]) = hostToken [a, b, c, d] := by
  cases platform with
  | windows =>
    have hskip := skipWhitespace_hostToken a b c d []
    rwa [List.append_nil] at hskip
  | linux =>
    apply Linux.trimToken_eq_self
    intro e he
    rcases mem_hostToken he with rfl | hdigit | rfl
    · decide
    · simp [isBlank, ne_of_isDigit hdigit (d := ' ') rfl, ne_of_isDigit hdigit (d := '\t') rfl,
        ne_of_isDigit hdigit (d := '\r') rfl, ne_of_isDigit hdigit (d := '\n') rfl]
    · decide

theorem acceptsHost_single (platform : Platform) (a b c d : Option Byte) (ip : Ip) :
    acceptsHost platform (hostToken [a, b, c, d]) ip = true ↔ FieldsMatch [a, b, c, d] ip := by
  have hfour : [a, b, c, d].length = 4 := rfl
  have hmatch := matchIpPattern_hostToken platform (by omega) hfour.le ip
  rw [and_iff_right hfour] at hmatch
  have hne : hostToken [a, b, c, d] ≠ [] := hostToken_ne_nil (by omega)
  have htext := hostText_hostToken platform a b c d
  rw [← hmatch]
  cases platform with
  | windows =>
    rw [hostText] at htext
    rw [acceptsHost, htext]
    rfl
  | linux =>
    rw [hostText] at htext
    simp [acceptsHost, htext, hne, matchIpPattern]

theorem fitsPiece_hostToken (platform : Platform) (a b c d : Option Byte) (ip : Ip) :
    fitsPiece platform (hostToken [a, b, c, d]) ip = true ↔ FieldsMatch [a, b, c, d] ip := by
  have hstar : hostToken [a, b, c, d] ≠ ['*'] := hostToken_ne_star (by simp)
  rw [← acceptsHost_single platform, acceptsHost_iff, NamesHost, hostText_hostToken,
    or_iff_right hstar]

theorem starLast_hostToken (platform : Platform) (a b c d : Option Byte) :
    StarLast platform (hostToken [a, b, c, d]) ↔ d = none := by
  have hdash : '-' ∉ hostToken [a, b, c, d] := not_mem_hostToken (by decide) rfl (by decide)
  have hlast : fieldText d = ['*'] ↔ d = none := by
    cases d with
    | none => exact iff_of_true rfl rfl
    | some number => exact iff_of_false (decimal_ne_star _) (Option.some_ne_none _)
  rw [StarLast, splitOn_hostToken (by simp), ← hlast]
  simp [hdash]

/-- A token in front of a comma hides what is behind it, and its star in the last field stands for
0. -/
theorem acceptsHost_comma (platform : Platform) {rest : CStr} (hdash : '-' ∉ rest)
    (a b c d : Option Byte) (ip : Ip) :
    acceptsHost platform (hostToken [a, b, c, d] ++ ',' :: rest) ip = true ↔
      FieldsMatch [a, b, c, d] ip ∧ (d = none → octet ip 3 = 0) := by
  have hcomma : ',' ∉ hostToken [a, b, c, d] := not_mem_hostToken (by decide) rfl (by decide)
  have hfront : beforeComma (hostToken [a, b, c, d] ++ ',' :: rest) = hostToken [a, b, c, d] :=
    takeWhile_ne_append hcomma rest
  have hmem : ',' ∈ hostToken [a, b, c, d] ++ ',' :: rest := by simp
  have hleads : Leads platform (hostToken [a, b, c, d] ++ ',' :: rest) := by
    constructor
    · rw [hfront, hostText_hostToken, splitOn_hostToken (by simp)]
      simp
    · rw [hfront]
      exact (length_hostToken_le (by simp)).trans_lt (by omega)
    · rw [dropWhile_ne_append hcomma]
      simpa using hdash
  rw [acceptsHost_of_comma platform hmem, fitsPiece_lead hmem hleads, LeadNames, hfront,
    hostText_hostToken, starLast_hostToken, fitsPiece_hostToken]

/-- The tokens between two semicolons, with commas between them. -/
def hostRow (row : List (List (Option Byte))) : CStr := [','].intercalate (row.map hostToken)

/-- The host list of these tokens. -/
def hostRows (rows : List (List (List (Option Byte)))) : CStr :=
  [';'].intercalate (rows.map hostRow)

/-- The first token of a row matches, where the star in its last field stands for 0 if a comma is
behind it. -/
def LeadingTokenMatches (row : List (List (Option Byte))) (ip : Ip) : Prop :=
  ∃ fields behind, row = fields :: behind ∧ FieldsMatch fields ip ∧
    (behind ≠ [] → fields[3]? = some none → octet ip 3 = 0)

theorem strtok_intercalate {separator : Char} {texts : List CStr}
    (h : ∀ text ∈ texts, separator ∉ text) (hne : ∀ text ∈ texts, text ≠ []) :
    strtok [separator] ([separator].intercalate texts) = texts := by
  rw [strtok_singleton]
  by_cases hnone : texts = []
  · rw [hnone]
    rfl
  · rw [List.splitOn_intercalate _ h hnone, List.filter_eq_self]
    intro text htext
    simpa using hne text htext

theorem mem_hostRow {row : List (List (Option Byte))} {c : Char} (h : c ∈ hostRow row) :
    c = ',' ∨ c = '.' ∨ isDigit c = true ∨ c = '*' := by
  rcases Lines.mem_intercalate h with hcomma | ⟨text, htext, hc⟩
  · exact .inl hcomma
  · obtain ⟨token, -, rfl⟩ := List.mem_map.mp htext
    exact .inr (mem_hostToken hc)

theorem strtok_hostRow {row : List (List (Option Byte))} (h : ∀ fields ∈ row, fields.length = 4) :
    strtok [','] (hostRow row) = row.map hostToken := by
  apply strtok_intercalate
  · intro text htext
    obtain ⟨fields, -, rfl⟩ := List.mem_map.mp htext
    exact not_mem_hostToken (by decide) rfl (by decide)
  · intro text htext
    obtain ⟨fields, hfields, rfl⟩ := List.mem_map.mp htext
    exact hostToken_ne_nil (by rw [h fields hfields]; omega)

theorem strtok_hostRows {rows : List (List (List (Option Byte)))}
    (h : ∀ row ∈ rows, row ≠ [] ∧ ∀ fields ∈ row, fields.length = 4) :
    strtok [';'] (hostRows rows) = rows.map hostRow := by
  apply strtok_intercalate
  · intro text htext hsemicolon
    obtain ⟨row, -, rfl⟩ := List.mem_map.mp htext
    have hclass := mem_hostRow hsemicolon
    revert hclass
    decide
  · intro text htext hnil
    obtain ⟨row, hrow, rfl⟩ := List.mem_map.mp htext
    have htokens := strtok_hostRow (h row hrow).2
    rw [hnil] at htokens
    exact (h row hrow).1 (List.map_eq_nil_iff.mp htokens.symm)

theorem acceptsHost_hostRow (platform : Platform) {row : List (List (Option Byte))}
    (hne : row ≠ []) (h : ∀ fields ∈ row, fields.length = 4) (ip : Ip) :
    acceptsHost platform (hostRow row) ip = true ↔ LeadingTokenMatches row ip := by
  obtain ⟨fields, behind, rfl⟩ := List.exists_cons_of_ne_nil hne
  obtain ⟨a, b, c, d, rfl⟩ := List.length_eq_four.mp (h fields List.mem_cons_self)
  have hleading : LeadingTokenMatches ([a, b, c, d] :: behind) ip ↔
      FieldsMatch [a, b, c, d] ip ∧ (behind ≠ [] → d = none → octet ip 3 = 0) := by
    constructor
    · rintro ⟨_, _, ⟨⟩, hfields, hstar⟩
      exact ⟨hfields, fun hbehind hd => hstar hbehind (congrArg some hd)⟩
    · rintro ⟨hfields, hstar⟩
      exact ⟨_, _, rfl, hfields, fun hbehind hd => hstar hbehind (Option.some.inj hd)⟩
  rw [hleading]
  cases behind with
  | nil =>
    have hrow : hostRow [[a, b, c, d]] = hostToken [a, b, c, d] :=
      List.intercalate_singleton
    rw [hrow, acceptsHost_single]
    simp
  | cons next more =>
    have hrow : hostRow ([a, b, c, d] :: next :: more) =
        hostToken [a, b, c, d] ++ ',' :: hostRow (next :: more) := by
      rw [hostRow, List.map_cons, List.map_cons, List.intercalate_cons_cons]
      simp [hostRow]
    have hdash : '-' ∉ hostRow (next :: more) := by
      intro hmem
      have hclass := mem_hostRow hmem
      revert hclass
      decide
    rw [hrow, acceptsHost_comma platform hdash]
    simp

/-- A list matches what its tokens match if a piece without a comma matches, or the address fits the
numbers in front of the commas just when one of the tokens there matches. -/
theorem matchIpList_pieces_iff (platform : Platform) {list : CStr} (hne : list ≠ [])
    (ip : Ip) :
    ((filters platform).matchIpList list ip = true ↔ SomeTokenMatches platform list ip) ↔
      (∃ piece ∈ strtok [';'] list, ',' ∉ piece ∧ NamesHost platform piece ip) ∨
        ((∃ piece ∈ strtok [';'] list, ',' ∈ piece ∧ fitsPiece platform piece ip = true) ↔
          ∃ piece ∈ strtok [';'] list, ',' ∈ piece ∧
            ∃ token ∈ strtok [','] piece, NamesHost platform token ip) := by
  have hplain : ∀ piece ∈ strtok [';'] list, ',' ∉ piece → strtok [','] piece = [piece] := by
    intro piece hpiece hcomma
    have hpiece_ne : piece ≠ [] := by simpa using (List.mem_filter.mp hpiece).2
    apply strtok_eq_singleton hpiece_ne
    intro c hc
    simpa using ne_of_mem_of_not_mem hc hcomma
  have hlist : (filters platform).matchIpList list ip = true ↔
      (∃ piece ∈ strtok [';'] list, ',' ∉ piece ∧ acceptsHost platform piece ip = true) ∨
        ∃ piece ∈ strtok [';'] list, ',' ∈ piece ∧ fitsPiece platform piece ip = true := by
    rw [matchIpList_iff platform hne]
    constructor
    · rintro ⟨piece, hpiece, hmatch⟩
      by_cases hcomma : ',' ∈ piece
      · exact .inr ⟨piece, hpiece, hcomma, (acceptsHost_of_comma platform hcomma ip).mp hmatch⟩
      · exact .inl ⟨piece, hpiece, hcomma, hmatch⟩
    · rintro (⟨piece, hpiece, -, hmatch⟩ | ⟨piece, hpiece, hcomma, hmatch⟩)
      · exact ⟨piece, hpiece, hmatch⟩
      · exact ⟨piece, hpiece, (acceptsHost_of_comma platform hcomma ip).mpr hmatch⟩
  have htokens : SomeTokenMatches platform list ip ↔
      (∃ piece ∈ strtok [';'] list, ',' ∉ piece ∧ acceptsHost platform piece ip = true) ∨
        ∃ piece ∈ strtok [';'] list, ',' ∈ piece ∧
          ∃ token ∈ strtok [','] piece, acceptsHost platform token ip = true := by
    unfold SomeTokenMatches
    simp only [strtok_both, List.mem_flatMap]
    constructor
    · rintro ⟨token, ⟨piece, hpiece, htoken⟩, hmatch⟩
      by_cases hcomma : ',' ∈ piece
      · exact .inr ⟨piece, hpiece, hcomma, token, htoken, hmatch⟩
      · rw [hplain piece hpiece hcomma, List.mem_singleton] at htoken
        exact .inl ⟨piece, hpiece, hcomma, htoken ▸ hmatch⟩
    · rintro (⟨piece, hpiece, hcomma, hmatch⟩ | ⟨piece, hpiece, -, token, htoken, hmatch⟩)
      · refine ⟨piece, ⟨piece, hpiece, ?_⟩, hmatch⟩
        rw [hplain piece hpiece hcomma]
        exact List.mem_singleton_self piece
      · exact ⟨token, ⟨piece, hpiece, htoken⟩, hmatch⟩
  rw [hlist, htokens]
  simp only [acceptsHost_iff]
  by_cases hfree : ∃ piece ∈ strtok [';'] list, ',' ∉ piece ∧ NamesHost platform piece ip
  · simp only [hfree, true_or]
  · simp only [hfree, false_or]

theorem beforeComma_mem_strtok {platform : Platform} {piece : CStr} (hcomma : ',' ∈ piece)
    (h : Leads platform piece) : beforeComma piece ∈ strtok [','] piece := by
  have hne : beforeComma piece ≠ [] := by
    intro hnil
    have hfour := h.fields
    rw [hnil] at hfour
    cases platform <;> simp [hostText, skipWhitespace, Linux.trimToken] at hfour
  obtain ⟨lead, rest, rfl, hlead⟩ := List.eq_append_cons_of_mem hcomma
  have hfront : beforeComma (lead ++ ',' :: rest) = lead := takeWhile_ne_append hlead rest
  rw [hfront] at hne ⊢
  rw [strtok_singleton, List.splitOn_append_cons_self_of_not_mem hlead]
  simp [hne]

/-- Where the pieces with commas begin with a token of four fields, a list matches what its tokens
match if a piece without a comma or the first token of one with commas does whenever any token
does. -/
theorem matchIpList_leads_iff (platform : Platform) {list : CStr} (hne : list ≠ [])
    (hleads : ∀ piece ∈ strtok [';'] list, ',' ∈ piece → Leads platform piece) (ip : Ip) :
    ((filters platform).matchIpList list ip = true ↔ SomeTokenMatches platform list ip) ↔
      ((∃ piece ∈ strtok [';'] list, ',' ∈ piece ∧
          ∃ token ∈ strtok [','] piece, NamesHost platform token ip) →
        (∃ piece ∈ strtok [';'] list, ',' ∉ piece ∧ NamesHost platform piece ip) ∨
          ∃ piece ∈ strtok [';'] list, ',' ∈ piece ∧ LeadNames platform piece ip) := by
  have hfits : (∃ piece ∈ strtok [';'] list, ',' ∈ piece ∧ fitsPiece platform piece ip = true) ↔
      ∃ piece ∈ strtok [';'] list, ',' ∈ piece ∧ LeadNames platform piece ip := by
    constructor
    · rintro ⟨piece, hpiece, hcomma, hfit⟩
      exact ⟨piece, hpiece, hcomma, (fitsPiece_lead hcomma (hleads piece hpiece hcomma) ip).mp hfit⟩
    · rintro ⟨piece, hpiece, hcomma, hlead⟩
      exact ⟨piece, hpiece, hcomma,
        (fitsPiece_lead hcomma (hleads piece hpiece hcomma) ip).mpr hlead⟩
  have hfirst : (∃ piece ∈ strtok [';'] list, ',' ∈ piece ∧ LeadNames platform piece ip) →
      ∃ piece ∈ strtok [';'] list, ',' ∈ piece ∧
        ∃ token ∈ strtok [','] piece, NamesHost platform token ip := by
    rintro ⟨piece, hpiece, hcomma, hfit, -⟩
    exact ⟨piece, hpiece, hcomma, beforeComma piece,
      beforeComma_mem_strtok hcomma (hleads piece hpiece hcomma), .inr hfit⟩
  rw [matchIpList_pieces_iff platform hne, hfits]
  constructor
  · rintro (hplain | hsame) htoken
    · exact .inl hplain
    · exact .inr (hsame.mpr htoken)
  · intro hkept
    by_cases hplain : ∃ piece ∈ strtok [';'] list, ',' ∉ piece ∧ NamesHost platform piece ip
    · exact .inl hplain
    · exact .inr ⟨hfirst, fun htoken => (hkept htoken).resolve_left hplain⟩

theorem matchIpList_hostRows (platform : Platform) {rows : List (List (List (Option Byte)))}
    (hne : rows ≠ []) (h : ∀ row ∈ rows, row ≠ [] ∧ ∀ fields ∈ row, fields.length = 4) (ip : Ip) :
    ((filters platform).matchIpList (hostRows rows) ip = true ↔
        ∃ row ∈ rows, LeadingTokenMatches row ip) ∧
      (SomeTokenMatches platform (hostRows rows) ip ↔
        ∃ row ∈ rows, ∃ fields ∈ row, FieldsMatch fields ip) := by
  have hpieces := strtok_hostRows h
  have hlist : hostRows rows ≠ [] := by
    intro hnil
    rw [hnil] at hpieces
    exact hne (List.map_eq_nil_iff.mp hpieces.symm)
  constructor
  · rw [matchIpList_iff platform hlist, hpieces]
    constructor
    · rintro ⟨piece, hpiece, hmatch⟩
      obtain ⟨row, hrow, rfl⟩ := List.mem_map.mp hpiece
      obtain ⟨hrow_ne, hfour⟩ := h row hrow
      exact ⟨row, hrow, (acceptsHost_hostRow platform hrow_ne hfour ip).mp hmatch⟩
    · rintro ⟨row, hrow, hleading⟩
      obtain ⟨hrow_ne, hfour⟩ := h row hrow
      exact ⟨hostRow row, List.mem_map_of_mem hrow,
        (acceptsHost_hostRow platform hrow_ne hfour ip).mpr hleading⟩
  · have htoken : ∀ row ∈ rows, ∀ fields ∈ row,
        (acceptsHost platform (hostToken fields) ip = true ↔ FieldsMatch fields ip) := by
      intro row hrow fields hfields
      obtain ⟨a, b, c, d, rfl⟩ := List.length_eq_four.mp ((h row hrow).2 fields hfields)
      exact acceptsHost_single platform a b c d ip
    have htokens : ∀ row ∈ rows, strtok [','] (hostRow row) = row.map hostToken :=
      fun row hrow => strtok_hostRow (h row hrow).2
    unfold SomeTokenMatches
    rw [strtok_both, hpieces]
    constructor
    · rintro ⟨token, hmem, hmatch⟩
      obtain ⟨piece, hpiece, hin⟩ := List.mem_flatMap.mp hmem
      obtain ⟨row, hrow, rfl⟩ := List.mem_map.mp hpiece
      rw [htokens row hrow] at hin
      obtain ⟨fields, hfields, rfl⟩ := List.mem_map.mp hin
      exact ⟨row, hrow, fields, hfields, (htoken row hrow fields hfields).mp hmatch⟩
    · rintro ⟨row, hrow, fields, hfields, hmatch⟩
      refine ⟨hostToken fields, ?_, (htoken row hrow fields hfields).mpr hmatch⟩
      rw [List.mem_flatMap]
      refine ⟨hostRow row, List.mem_map_of_mem hrow, ?_⟩
      rw [htokens row hrow]
      exact List.mem_map_of_mem hfields

end ProxyTun
